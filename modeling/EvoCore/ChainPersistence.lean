import EvoCore.ChainForks
import EvoCore.ChainHistory

namespace EvoCore.ChainPersistence
open External DomainEntries IdealCrates ChainAppend ChainSteps ChainReplay ChainForks ChainHistory HonestSigners HashLinks Runs

variable {crates : DomainCrates} {c : DomainChain} {w : DomainWitness} {k : Nat}

theorem written_not_blank (serde : SerdeDocumented crates) (w : DomainWitness) :
    (crates.witnessToString w).toList.all isWhitespace = false := by
  cases text : (crates.witnessToString w).toList with
  | nil =>
    have opened := serde.opens_object w
    simp [text] at opened
  | cons first rest =>
    have opened := serde.opens_object w
    simp only [text,List.head?_cons,Option.some.injEq] at opened
    subst opened
    have visible : isWhitespace '\x7b' = false := by decide
    simp [visible]

theorem loadLines_append (loaded : loadLines crates n lines = .ok entries)
    (more : loadLines crates (n+lines.length) others = .ok rest) :
    loadLines crates n (lines++others) = .ok (entries++rest) := by
  induction lines generalizing n entries with
  | nil =>
    cases Except.ok.inj loaded
    simpa using more
  | cons line lines ih =>
    have shifted : loadLines crates (n+1+lines.length) others = .ok rest := by
      rw [← more]; congr 1; simp only [List.length_cons]; omega
    simp only [List.cons_append,loadLines] at loaded ⊢
    split at loaded
    · rename_i blank
      simp only [blank,if_true]
      exact ih loaded shifted
    · rename_i visible
      simp only [visible]
      split at loaded
      · cases loaded
      · rename_i w parsed
        split at loaded
        · cases loaded
        · rename_i tail rest_
          cases Except.ok.inj loaded
          simp [ih rest_ shifted]

theorem loadLines_written (serde : SerdeDocumented crates) :
    loadLines crates n (entries.map crates.witnessToString) = .ok entries := by
  induction entries generalizing n with
  | nil => rfl
  | cons w rest ih => simp [loadLines,written_not_blank serde,serde.read_back,ih]

theorem loadChainLog_grows (serde : SerdeDocumented crates) (loaded : loadChainLog crates log = .ok entries) :
    loadChainLog crates (some (log.getD []++[crates.witnessToString w])) = .ok (entries++[w]) := by
  have lines : loadLines crates 0 (log.getD []) = .ok entries := by
    cases log with
    | none => exact loaded
    | some lines => exact loaded
  have line : loadLines crates (0+(log.getD []).length) ([w].map crates.witnessToString) = .ok [w] := loadLines_written serde
  exact loadLines_append lines line

def Reloads (crates : DomainCrates) (c : DomainChain) : Prop := loadOrCreate crates c.persistence c.log = .ok c

theorem reloads_exact (onDisk : c.persistence = .disk dir) :
    Reloads crates c ↔ loadChainLog crates c.log = .ok c.entries ∧ SelfVerifying crates c := by
  unfold Reloads loadOrCreate
  rw [onDisk]
  constructor
  · intro loaded
    cases read : loadChainLog crates c.log with
    | error e => simp [read] at loaded
    | ok entries =>
      simp only [read] at loaded
      obtain ⟨same,_⟩ := replay_result loaded
      have replays : Replays crates entries := replay_moves ⟨_,loaded⟩
      rw [same]
      exact ⟨rfl,selfVerifying_iff.mpr ⟨replays,rfl,rfl⟩⟩
  · rintro ⟨read,valid⟩
    obtain ⟨replays,head,keys⟩ := selfVerifying_iff.mp valid
    simp only [read,replays_anywhere replays]
    cases c
    simp_all

-- What a call owes to memory and log together: everything or nothing, and a log
-- from which the chain comes back.
structure Atomic (crates : DomainCrates) (c : DomainChain) (result : Except DomainChainError AppendOutcome × DomainChain) :
    Prop where
  refused : result.1 ≠ .ok .applied → result.2 = c
  applied : result.1 = .ok .applied → loadChainLog crates result.2.log = .ok result.2.entries
  reloads : Reloads crates result.2

-- A verified witness carries a readable key, and the entries kept in front of it
-- would have verified it too.
def Durable (crates : DomainCrates) (c : DomainChain) (w : DomainWitness) : Prop :=
  ∀ k,¬ Known c w → placement crates c w = some k → Admitted crates c.publicKeys w k →
    Admitted crates (keysOf crates (c.entries.take k)) w k ∧ KeyReadable crates w

theorem durable_at (fresh : ¬ Known c w) (placed : placement crates c w = some k)
    (admitted : Admitted crates c.publicKeys w k) :
    Durable crates c w ↔ Admitted crates (keysOf crates (c.entries.take k)) w k ∧ KeyReadable crates w := by
  constructor
  · intro durable
    exact durable k fresh placed admitted
  · intro accepted j _ other _
    rw [placed] at other
    cases Option.some.inj other
    exact accepted

-- The linear path writes the line before it looks at the key.
theorem extend_atomic (serde : SerdeDocumented crates) (onDisk : c.persistence = .disk dir) (reloads : Reloads crates c)
    (named : w.prevHashB64 = c.headHashB64) (admitted : Admitted crates c.publicKeys w c.entries.length) :
    Atomic crates c (extend crates .done c w) ↔ KeyReadable crates w := by
  obtain ⟨loaded,valid⟩ := (reloads_exact onDisk).mp reloads
  have written : persistEntry crates .done c w = (.ok (),some (c.log.getD []++[crates.witnessToString w])) := by
    simp [persistEntry,onDisk,appendToLog]
  cases updated : updatePublicKeys crates c.publicKeys w with
  | error e =>
    have shape : extend crates .done c w =
        (.error e,{c with log := some (c.log.getD []++[crates.witnessToString w])}) := by
      simp only [extend,written,updated]
    refine iff_of_false ?_ ?_
    · intro atomic
      have same := congrArg DomainChain.log (atomic.refused (by simp [shape]))
      rw [shape] at same
      cases before : c.log with
      | none => simp [before] at same
      | some lines => simp [before] at same
    · intro readable
      obtain ⟨next,other⟩ := update_readable readable c.publicKeys
      rw [updated] at other
      cases other
  | ok keys =>
    have kept : SelfVerifying crates (extend crates .done c w).2 := extend_selfVerifying valid named admitted
    have shape : extend crates .done c w = (.ok .applied,
        {c with entries := c.entries++[w],headHashB64 := canonicalHashB64 crates w,publicKeys := keys,
                log := some (c.log.getD []++[crates.witnessToString w])}) := by
      simp only [extend,written,updated]
    rw [shape] at kept ⊢
    have grown := loadChainLog_grows (w := w) serde loaded
    refine iff_of_true ⟨?_,fun _ => grown,?_⟩ (readable_update updated)
    · intro refused
      exact absurd rfl refused
    · refine (reloads_exact (?_ : _ = DomainChainPersistence.disk dir)).mpr ⟨grown,kept⟩
      exact onDisk

-- The displacing paths move the memory before they look at the key.
theorem install_atomic (serde : SerdeDocumented crates) (onDisk : c.persistence = .disk dir) (reloads : Reloads crates c)
    (fresh : ¬ Known c w) (bound : k ≤ c.entries.length) (named : w.prevHashB64 = headOf crates (c.entries.take k)) :
    Atomic crates c (install crates .done c w (c.entries.take k)) ↔
      Admitted crates (keysOf crates (c.entries.take k)) w k ∧ KeyReadable crates w := by
  obtain ⟨_,valid⟩ := (reloads_exact onDisk).mp reloads
  have exactly : SelfVerifying crates (install crates .done c w (c.entries.take k)).2 ↔ _ :=
    install_selfVerifying valid bound named
  obtain ⟨entries,_,_,kept⟩ := install_memory crates .done c w (c.entries.take k)
  rw [← exactly]
  cases rebuilt : (rebuildPublicKeys crates (c.entries.take k++[w])).1 with
  | error e =>
    refine iff_of_false ?_ ?_
    · intro atomic
      have same := congrArg DomainChain.entries (atomic.refused (by simp [install,rebuilt]))
      rw [entries] at same
      exact fresh ⟨w,by rw [← same]; simp,rfl⟩
    · intro verifying
      have replays := (selfVerifying_iff.mp verifying).1
      rw [entries] at replays
      rw [replays_rebuilds replays] at rebuilt
      cases rebuilt
  | ok _ =>
    have outcome : (install crates .done c w (c.entries.take k)).1 = .ok .applied := by
      simp [install,rebuilt,persistFullLog,onDisk,rewriteLogAtomic]
    have written : loadChainLog crates (install crates .done c w (c.entries.take k)).2.log = .ok (c.entries.take k++[w]) := by
      simp only [install,rebuilt,persistFullLog,onDisk,rewriteLogAtomic]
      exact loadLines_written serde
    rw [← entries] at written
    constructor
    · intro atomic
      exact ((reloads_exact (kept.trans onDisk)).mp atomic.reloads).2
    · intro verifying
      exact ⟨fun refused => absurd outcome refused,fun _ => written,
        (reloads_exact (kept.trans onDisk)).mpr ⟨written,verifying⟩⟩

theorem tryAppend_atomic (serde : SerdeDocumented crates) (onDisk : c.persistence = .disk dir)
    (reloads : Reloads crates c) : Atomic crates c (tryAppend crates .done c w) ↔ Durable crates c w := by
  obtain ⟨_,valid⟩ := (reloads_exact onDisk).mp reloads
  by_cases due : ∃ k,¬ Known c w ∧ placement crates c w = some k ∧ Admitted crates c.publicKeys w k
  · obtain ⟨k,fresh,placed,admitted⟩ := due
    obtain ⟨bound,named⟩ := placement_prev valid.anchored placed
    rw [tryAppend_settles fresh placed admitted,durable_at fresh placed admitted,settle]
    split
    · rename_i whole
      subst whole
      rw [List.take_length] at named ⊢
      rw [extend_atomic serde onDisk reloads (named.trans valid.anchored.head.symm) admitted,
        ← (selfVerifying_iff.mp valid).2.2]
      exact ⟨fun readable => ⟨admitted,readable⟩,fun both => both.2⟩
    · exact install_atomic serde onDisk reloads fresh bound named
  · rcases tryAppend_cases crates .done c w with ⟨same,outcome⟩ | ⟨k,fresh,placed,_,admitted,_⟩
    · refine iff_of_true ⟨fun _ => same,fun applied => absurd applied outcome,by rw [same]; exact reloads⟩ ?_
      intro k fresh placed admitted
      exact absurd ⟨k,fresh,placed,admitted⟩ due
    · exact absurd ⟨k,fresh,placed,admitted⟩ due

theorem loadOrCreate_reloads (loaded : loadOrCreate crates persistence log = .ok c) :
    c.persistence = persistence ∧ Reloads crates c := by
  obtain ⟨entries,_,same⟩ := loaded_result loaded
  rw [Reloads,same]
  rw [same] at loaded
  exact ⟨rfl,loaded⟩

-- Every call of a run on disk is atomic exactly when every witness that gets as far
-- as being written is durable.
theorem atomic_exactly (serde : SerdeDocumented crates) (loaded : loadOrCreate crates (.disk dir) log = .ok c)
    (witnesses : List DomainWitness) :
    Guarded (fun c w => deliver crates c (.done,w)) (fun c w => Atomic crates c (tryAppend crates .done c w)) c witnesses ↔
      Guarded (fun c w => deliver crates c (.done,w)) (Durable crates) c witnesses := by
  obtain ⟨onDisk,reloads⟩ := loadOrCreate_reloads loaded
  refine guarded_iff (fun c => c.persistence = .disk dir ∧ Reloads crates c) ?_ ?_ ⟨onDisk,reloads⟩
  · intro c w valid
    exact tryAppend_atomic serde valid.1 valid.2
  · intro c w valid atomic
    exact ⟨(tryAppend_persistence crates .done c w).trans valid.1,atomic.reloads⟩

-- On a chain loaded from a log the founder's late branch, a stranger's word and the early act that
-- overtakes the branch.
section Overtaken

def strangeAct (crates : DomainCrates) : DomainWitness :=
  sign crates guest ⟨"w4"⟩ (canonicalHashB64 crates (nextAct crates)) 130 "guest" [] (.deleteGroup "g")

theorem acts_durable (documented : Documented crates.toCrates) (free : CollisionFree crates)
    (gestured : Gestured crates (acts crates) c) (acted : w ∈ [lateAct crates,nextAct crates,earlyAct crates]) :
    Durable crates c w := by
  intro k _ placed _
  obtain ⟨j,rfl⟩ := gesture_position free (acts_gesture acted) (placement_prev gestured.anchored placed).2
  obtain ⟨rest,shape,gestures⟩ := gestured.kept j
  rw [shape,gestures_keys documented gestures]
  exact ⟨acts_admitted documented acted,_,(acts_gesture acted).quiet ∅⟩

theorem strangeAct_refused (free : CollisionFree crates) (gestured : Gestured crates (acts crates) c)
    (placed : placement crates c (strangeAct crates) = some k) : ¬ Admitted crates c.publicKeys (strangeAct crates) k := by
  cases k with
  | zero => exact absurd (placement_prev gestured.anchored placed).2 (free.fresh _)
  | succ j =>
    rw [gestured.keys]
    exact unheld_refused (by simp [founderKeys,strangeAct,sign])

theorem strangeAct_stays (free : CollisionFree crates) (gestured : Gestured crates (acts crates) c) :
    Gestured crates (acts crates) (deliver crates c (.done,strangeAct crates)) := by
  have outside : ∀ k,¬ Enters crates c (.done,strangeAct crates) k :=
    fun k enters => strangeAct_refused free gestured enters.1 enters.2.admitted
  obtain ⟨log,same⟩ := deliver_stays outside
  rw [same]
  exact ⟨⟨gestured.anchored.linked,gestured.anchored.head⟩,gestured.founded,gestured.keys⟩

theorem overtaken_durable (documented : Documented crates.toCrates) (free : CollisionFree crates)
    (gestured : Gestured crates (acts crates) c) : Guarded (fun c w => deliver crates c (.done,w)) (Durable crates) c
      [lateAct crates,nextAct crates,strangeAct crates,earlyAct crates] := by
  have late := gestured_deliver (d := (.done,lateAct crates)) documented free gestured (acts_gesture (by simp))
  have next := gestured_deliver (d := (.done,nextAct crates)) documented free late (acts_gesture (by simp))
  have strange := strangeAct_stays free next
  refine ⟨acts_durable documented free gestured (by simp),acts_durable documented free late (by simp),?_,
    acts_durable documented free strange (by simp),trivial⟩
  intro k _ placed admitted
  exact absurd admitted (strangeAct_refused free next placed)

theorem founding_loaded (documented : Documented crates.toCrates) (serde : SerdeDocumented crates) :
    loadOrCreate crates (.disk dir) (some [crates.witnessToString (founding crates)]) =
      .ok (foundedChain crates (.disk dir) (some [crates.witnessToString (founding crates)])) := by
  have read : loadLines crates 0 ([founding crates].map crates.witnessToString) = .ok [founding crates] := loadLines_written serde
  have read_ : loadChainLog crates (some [crates.witnessToString (founding crates)]) = .ok [founding crates] := read
  simp only [loadOrCreate,read_,replays_anywhere (founding_replays documented),founding_keys documented]
  rfl

theorem overtaken_atomic :
    loadOrCreate domainLibrary (.disk "state") (some [domainLibrary.witnessToString (founding domainLibrary)]) =
      .ok (foundedChain domainLibrary (.disk "state") (some [domainLibrary.witnessToString (founding domainLibrary)])) ∧
    Guarded (fun c w => deliver domainLibrary c (.done,w)) (fun c w => Atomic domainLibrary c (tryAppend domainLibrary .done c w))
      (foundedChain domainLibrary (.disk "state") (some [domainLibrary.witnessToString (founding domainLibrary)]))
      [lateAct domainLibrary,nextAct domainLibrary,strangeAct domainLibrary,earlyAct domainLibrary] := by
  have loaded := @founding_loaded domainLibrary "state" domainLibrary_documented domainLibrary_serde
  exact ⟨loaded,(atomic_exactly domainLibrary_serde loaded _).mpr
    (overtaken_durable domainLibrary_documented domainLibrary_free foundedChain_gestured)⟩

end Overtaken

-- An admitted device admits another one with a key that is not 32 bytes long.
section UnreadableKey
variable (crates)

def unreadableAdmission : DomainWitness :=
  sign crates founder ⟨"w1"⟩ (canonicalHashB64 crates (founding crates)) 2 "founder" []
    (.admitPeer "guest" "guest" (crates.encode []) [])

variable {crates}

theorem unreadableAdmission_unreadable (documented : Documented crates.toCrates) :
    ¬ KeyReadable crates (unreadableAdmission crates) := by
  simp [KeyReadable,updatePublicKeys,unreadableAdmission,sign,decodeVerifyingKey,documented.decode_encode]

theorem unreadableAdmission_not_durable (documented : Documented crates.toCrates) :
    ¬ Durable crates (foundedChain crates persistence log) (unreadableAdmission crates) := by
  intro durable
  have fresh : ¬ Known (foundedChain crates persistence log) (unreadableAdmission crates) := by
    simp [Known,foundedChain,founding,selfAdmission,unreadableAdmission,sign]
  have admitted : Admitted crates (founderKeys crates) (unreadableAdmission crates) 1 :=
    signed_admitted documented (by simp [founderKeys])
  exact unreadableAdmission_unreadable documented (durable 1 fresh (placement_extends rfl) admitted).2

theorem unreadable_breaks (documented : Documented crates.toCrates) (serde : SerdeDocumented crates) :
    ¬ Guarded (fun c w => deliver crates c (.done,w)) (fun c w => Atomic crates c (tryAppend crates .done c w))
      (new crates (.disk "state") none) [founding crates,unreadableAdmission crates] := by
  intro guarded
  have founded := guarded.1.reloads
  have second : Atomic crates (deliver crates (new crates (.disk "state") none) (.done,founding crates))
      (tryAppend crates .done (deliver crates (new crates (.disk "state") none) (.done,founding crates))
        (unreadableAdmission crates)) := guarded.2.1
  rw [founding_applied documented rfl] at founded
  rw [deliver_result (founding_applied documented rfl)] at second
  exact unreadableAdmission_not_durable documented ((tryAppend_atomic serde rfl founded).mp second)

theorem unreadable_key_not_atomic : ¬ ∀ (crates : DomainCrates),
    Documented crates.toCrates → Ideal crates.toCrates → CollisionFree crates → SerdeDocumented crates →
    ∀ dir log c witnesses,loadOrCreate crates (.disk dir) log = .ok c →
      Guarded (fun c w => deliver crates c (.done,w)) (fun c w => Atomic crates c (tryAppend crates .done c w)) c witnesses := by
  intro always
  exact unreadable_breaks domainLibrary_documented domainLibrary_serde
    (always domainLibrary domainLibrary_documented domainLibrary_ideal domainLibrary_free domainLibrary_serde "state" none _ _ rfl)

end UnreadableKey

end EvoCore.ChainPersistence
