import EvoCore.HonestSigners

namespace EvoCore.ChainForks
open External DomainEntries ChainAppend ChainSteps ChainReplay HonestSigners HashLinks

variable {crates : DomainCrates} {c : DomainChain} {io : FileResult} {w : DomainWitness} {j k : Nat}

-- The fork point of w: it names the tip of the first k entries, not of all.
def ForksAt (crates : DomainCrates) (c : DomainChain) (w : DomainWitness) (k : Nat) : Prop :=
  k < c.entries.length ∧ w.prevHashB64 = headOf crates (c.entries.take k)

-- Forks the code resolves: below genesis by a known originator; at genesis only
-- while genesis is alone, and then also by a self-styled founder.
def Reconcilable (c : DomainChain) (w : DomainWitness) (k : Nat) : Prop :=
  (0 < k ∧ c.publicKeys.contains w.originatorDeviceId = true) ∨
  (k = 0 ∧ c.entries.length = 1 ∧ (c.publicKeys.contains w.originatorDeviceId = true ∨ w.op.isAdmitPeer = true))

theorem fork_unique (free : CollisionFree crates) (anchored : Anchored crates c)
    (boundJ : j ≤ c.entries.length) (namedJ : w.prevHashB64 = headOf crates (c.entries.take j))
    (boundK : k ≤ c.entries.length) (namedK : w.prevHashB64 = headOf crates (c.entries.take k)) : j = k :=
  tip_position free anchored.linked boundJ boundK (namedJ.symm.trans namedK)

theorem fork_off_head (free : CollisionFree crates) (anchored : Anchored crates c) (fork : ForksAt crates c w k) :
    w.prevHashB64 ≠ c.headHashB64 := by
  intro extends_
  have whole : w.prevHashB64 = headOf crates (c.entries.take c.entries.length) := by
    rw [List.take_length,← anchored.head]; exact extends_
  have same := fork_unique free anchored (Nat.le_of_lt fork.1) fork.2 (Nat.le_refl _) whole
  have shorter := fork.1
  omega

theorem ancestor_found (free : CollisionFree crates) (anchored : Anchored crates c) (fork : ForksAt crates c w (k+1)) :
    c.entries.findIdx? (fun e => canonicalHashB64 crates e == w.prevHashB64) = some k := by
  have bound : k < c.entries.length := Nat.lt_of_succ_lt fork.1
  have named : w.prevHashB64 = canonicalHashB64 crates c.entries[k] := by
    rw [fork.2,headOf,tip_take_succ bound]
  refine List.findIdx?_eq_some_iff_getElem.mpr ⟨bound,by simp [named],?_⟩
  intro j earlier
  have boundJ : j < c.entries.length := by omega
  simp only [beq_iff_eq]
  intro same
  have position := fork_unique (w := w) free anchored (j := j+1) (k := k+1) (by omega)
    (by rw [headOf,tip_take_succ boundJ]; exact same.symm) (by omega) fork.2
  omega

theorem ancestor_missing (free : CollisionFree crates) (fork : ForksAt crates c w 0) :
    c.entries.findIdx? (fun e => canonicalHashB64 crates e == w.prevHashB64) = none := by
  rw [List.findIdx?_eq_none_iff]
  intro e _
  rw [beq_eq_false_iff_ne]
  intro same
  exact free.fresh e (same.trans fork.2)

theorem last_prev (anchored : Anchored crates c) (last : c.entries.getLast? = some localHead) :
    localHead.prevHashB64 = headOf crates (c.entries.take (c.entries.length-1)) := by
  obtain ⟨before,shape⟩ := List.getLast?_eq_some_iff.mp last
  have linked := anchored.linked
  rw [shape,linked_snoc] at linked
  simpa [shape,headOf] using linked.2

theorem zero_position (free : CollisionFree crates) (anchored : Anchored crates c) (bound : k ≤ c.entries.length)
    (named : headOf crates (c.entries.take k) = zeroPrevHashB64 crates) : k = 0 :=
  tip_position free anchored.linked bound (Nat.zero_le _) named

-- Away from the last entry the depth-1 branch is not taken and the scan decides.
theorem placement_scan (off : w.prevHashB64 ≠ c.headHashB64) (last : c.entries.getLast? = some localHead)
    (notOne : ¬ forksAtHead crates c w localHead = true)
    (found : c.entries.findIdx? (fun e => canonicalHashB64 crates e == w.prevHashB64) = some k)
    (standing : c.entries[k+1]? = some e) (fresh : ¬ Known c w) :
    placement crates c w = some (k+1) ↔
      c.publicKeys.contains w.originatorDeviceId = true ∧ linearisationCmp w e = .lt := by
  have other : e.id ≠ w.id := fun same => fresh ⟨e,List.mem_of_getElem? standing,same⟩
  simp only [placement,if_neg off,last,if_neg notOne,found,standing]
  split
  · rename_i facts
    exact iff_of_true rfl facts.2
  · rename_i facts
    exact iff_of_false (by simp) fun both => facts ⟨other,both⟩

theorem placement_unscanned (off : w.prevHashB64 ≠ c.headHashB64) (last : c.entries.getLast? = some localHead)
    (notOne : ¬ forksAtHead crates c w localHead = true)
    (missing : c.entries.findIdx? (fun e => canonicalHashB64 crates e == w.prevHashB64) = none) :
    placement crates c w = none := by
  simp only [placement,if_neg off,last,if_neg notOne,missing]

-- At a fork the code places w exactly when it may resolve the fork and w comes first.
theorem placement_fork (free : CollisionFree crates) (anchored : Anchored crates c) (fresh : ¬ Known c w)
    (fork : ForksAt crates c w k) (standing : c.entries[k]? = some e) :
    placement crates c w = some k ↔ Reconcilable c w k ∧ linearisationCmp w e = .lt := by
  have off := fork_off_head free anchored fork
  have bound := fork.1
  cases last : c.entries.getLast? with
  | none =>
    rw [List.getLast?_eq_none_iff] at last
    simp [last] at bound
  | some localHead =>
    have tail := last_prev anchored last
    by_cases atEnd : k = c.entries.length-1
    · have same : e = localHead := by
        rw [List.getLast?_eq_getElem?,← atEnd,standing] at last
        exact Option.some.inj last
      subst same
      have sibling : w.prevHashB64 = e.prevHashB64 := by rw [fork.2,tail,atEnd]
      have other : w.id ≠ e.id := fun same => fresh ⟨e,List.mem_of_getElem? standing,same.symm⟩
      have genesis : e.prevHashB64 = zeroPrevHashB64 crates ↔ k = 0 := by
        rw [tail,← atEnd]
        exact ⟨zero_position free anchored (Nat.le_of_lt bound),fun zero => by rw [zero]; rfl⟩
      by_cases resolvable : Reconcilable c w k
      · have one : forksAtHead crates c w e = true := by
          rcases resolvable with ⟨_,contained⟩ | ⟨zero,_,contained | admits⟩
          · simp [forksAtHead,sibling,other,contained]
          · simp [forksAtHead,sibling,other,contained]
          · simp [forksAtHead,sibling,other,admits,genesis.mpr zero]
        simp only [placement,if_neg off,last,one,if_true,← atEnd]
        simp [resolvable]
      · have notOne : ¬ forksAtHead crates c w e = true := by
          intro one
          simp only [forksAtHead,Bool.and_eq_true,Bool.or_eq_true,beq_iff_eq] at one
          apply resolvable
          rcases one.2 with contained | ⟨admits,zero⟩
          · by_cases zero : k = 0
            · exact .inr ⟨zero,by omega,.inl contained⟩
            · exact .inl ⟨by omega,contained⟩
          · have first := genesis.mp zero
            exact .inr ⟨first,by omega,.inr admits⟩
        refine iff_of_false ?_ fun both => resolvable both.1
        cases k with
        | zero =>
          rw [placement_unscanned off last notOne (ancestor_missing free fork)]
          simp
        | succ before =>
          rw [placement_scan off last notOne (ancestor_found free anchored fork) standing fresh]
          exact fun both => resolvable (.inl ⟨Nat.succ_pos _,both.1⟩)
    · have notOne : ¬ forksAtHead crates c w localHead = true := by
        intro one
        simp only [forksAtHead,Bool.and_eq_true,beq_iff_eq] at one
        have position := fork_unique free anchored (Nat.le_of_lt bound) fork.2 (Nat.sub_le _ _) (one.1.1.trans tail)
        exact atEnd position
      cases k with
      | zero =>
        rw [placement_unscanned off last notOne (ancestor_missing free fork)]
        refine iff_of_false (by simp) fun both => ?_
        rcases both.1 with ⟨positive,_⟩ | ⟨_,alone,_⟩
        · exact Nat.lt_irrefl _ positive
        · omega
      | succ before =>
        rw [placement_scan off last notOne (ancestor_found free anchored fork) standing fresh]
        simp [Reconcilable]

theorem placement_elsewhere (free : CollisionFree crates) (anchored : Anchored crates c)
    (placed : placement crates c w = some k) (fork : ForksAt crates c w j) : k = j := by
  obtain ⟨bound,named⟩ := placement_prev anchored placed
  exact fork_unique free anchored bound named (Nat.le_of_lt fork.1) fork.2

-- The linear path needs its line written; the displacing ones have moved by then.
def Written (c : DomainChain) (io : FileResult) : Prop := c.persistence = .memory ∨ io = .done

-- The checks between a witness with a place and the entry it becomes.
structure Ready (crates : DomainCrates) (c : DomainChain) (d : Delivery) (k : Nat) : Prop where
  fresh : ¬ Known c d.2
  admitted : Admitted crates c.publicKeys d.2 k
  extends_ : k = c.entries.length → KeyReadable crates d.2 ∧ Written c d.1

def Enters (crates : DomainCrates) (c : DomainChain) (d : Delivery) (k : Nat) : Prop :=
  placement crates c d.2 = some k ∧ Ready crates c d k

def keysAfter (crates : DomainCrates) (c : DomainChain) (w : DomainWitness) (k : Nat) : Std.ExtTreeMap String VerifyingKey :=
  if k = c.entries.length then (updatePublicKeys crates c.publicKeys w).toOption.getD c.publicKeys
  else keysOf crates (c.entries.take k++[w])

theorem admitted_contains (admitted : Admitted crates keys w k) (later : 0 < k) :
    keys.contains w.originatorDeviceId = true := by
  have flag : (k == 0) = false := by simp; omega
  simp only [Admitted,flag,verified,resolveVerifyingKey] at admitted
  cases held : keys[w.originatorDeviceId]? with
  | none => simp [held] at admitted
  | some key =>
    rw [← Std.ExtTreeMap.mem_iff_contains,Std.ExtTreeMap.mem_iff_isSome_getElem?,held]
    rfl

theorem enters_log {d : Delivery} : Enters crates {c with log} d k ↔ Enters crates c d k :=
  ⟨fun enters => ⟨enters.1,enters.2.fresh,enters.2.admitted,enters.2.extends_⟩,
   fun enters => ⟨enters.1,enters.2.fresh,enters.2.admitted,enters.2.extends_⟩⟩

theorem written_exact : (persistEntry crates io c w).1 = .ok () ↔ Written c io := by
  unfold persistEntry Written
  split
  · rename_i memory
    simp [memory]
  · rename_i dir onDisk
    cases io with
    | done => simp [appendToLog]
    | failed reason left => simp [appendToLog,onDisk]

theorem rewritten_exact : (persistFullLog crates io c).1 = .ok () ↔ Written c io := by
  unfold persistFullLog Written
  split
  · rename_i memory
    simp [memory]
  · rename_i dir onDisk
    cases io with
    | done => simp [rewriteLogAtomic]
    | failed reason left => simp [rewriteLogAtomic,onDisk]

-- A displacement reports success exactly when every key left standing is readable
-- and the log is rewritten.
theorem install_applied : (install crates io c w kept).1 = .ok .applied ↔
    (∀ e ∈ kept++[w],KeyReadable crates e) ∧ Written c io := by
  unfold install
  dsimp only
  have keys : (rebuildPublicKeys crates (kept++[w])).1 = .ok () ↔ _ := rebuildLoop_exact
  cases rebuilt : (rebuildPublicKeys crates (kept++[w])).1 with
  | error e =>
    rw [rebuilt] at keys
    exact iff_of_false (by simp) fun both => by cases keys.mpr both.1
  | ok _ =>
    have readable := keys.mp rebuilt
    dsimp only
    split
    · rename_i e _ failed
      refine iff_of_false (by simp) fun both => ?_
      cases (congrArg Prod.fst failed).symm.trans (rewritten_exact.mpr both.2)
    · rename_i _ stored
      have written := rewritten_exact.mp (congrArg Prod.fst stored)
      exact iff_of_true rfl ⟨readable,written⟩

theorem deliver_enters {d : Delivery} (enters : Enters crates c d k) :
    (deliver crates c d).entries = c.entries.take k++[d.2] ∧
    (deliver crates c d).headHashB64 = canonicalHashB64 crates d.2 ∧
    (deliver crates c d).publicKeys = keysAfter crates c d.2 k ∧
    (deliver crates c d).persistence = c.persistence := by
  obtain ⟨placed,fresh,admitted,extends_⟩ := enters
  rw [deliver,tryAppend_settles fresh placed admitted,settle]
  by_cases whole : k = c.entries.length
  · obtain ⟨readable,written⟩ := extends_ whole
    obtain ⟨keys,updated⟩ := update_readable readable c.publicKeys
    have stored : (persistEntry crates d.1 c d.2).1 = .ok () := written_exact.mpr written
    cases result : persistEntry crates d.1 c d.2 with
    | mk outcome log =>
      rw [result] at stored
      cases stored
      simp [whole,extend,result,updated,keysAfter,Except.toOption]
  · rw [if_neg whole,keysAfter,if_neg whole]
    exact install_memory crates d.1 c d.2 (c.entries.take k)

theorem deliver_stays {d : Delivery} (outside : ∀ k,¬ Enters crates c d k) : ∃ log,deliver crates c d = {c with log} := by
  rcases tryAppend_cases crates d.1 c d.2 with ⟨same,_⟩ | ⟨k,fresh,placed,_,admitted,shape⟩
  · exact ⟨c.log,same⟩
  · have stopped : k = c.entries.length ∧ ¬ (KeyReadable crates d.2 ∧ Written c d.1) := by
      by_contra passed
      refine outside k ⟨placed,fresh,admitted,?_⟩
      intro whole
      by_contra short
      exact passed ⟨whole,short⟩
    rw [deliver,shape,settle,if_pos stopped.1,extend]
    cases result : persistEntry crates d.1 c d.2 with
    | mk outcome log =>
      cases outcome with
      | error e => exact ⟨log,rfl⟩
      | ok _ =>
        have written : Written c d.1 := written_exact.mp (by rw [result])
        cases updated : updatePublicKeys crates c.publicKeys d.2 with
        | error e => exact ⟨log,rfl⟩
        | ok keys => exact absurd ⟨readable_update updated,written⟩ stopped.2

theorem tryAppend_persistence (crates : DomainCrates) (io : FileResult) (c : DomainChain) (w : DomainWitness) :
    (tryAppend crates io c w).2.persistence = c.persistence := by
  rcases tryAppend_cases crates io c w with ⟨same,_⟩ | ⟨k,_,_,_,_,shape⟩
  · rw [same]
  · rw [shape,settle]
    split
    · rcases extend_memory crates io c w with ⟨_,log,same⟩ | ⟨keys,log,_,same⟩ <;> rw [same]
    · exact (install_memory crates io c w _).2.2.2

-- What follows the founding and admits nobody; the tree tells its witnesses apart by their ids.
structure Gesture (crates : DomainCrates) (tree : List DomainWitness) (w : DomainWitness) : Prop where
  quiet : ∀ keys,updatePublicKeys crates keys w = .ok keys
  behind : ∃ p,w.prevHashB64 = canonicalHashB64 crates p
  member : w ∈ tree

-- The founding with gestures behind it: the resolver holds the founder alone.
structure Gestured (crates : DomainCrates) (tree : List DomainWitness) (c : DomainChain) : Prop where
  anchored : Anchored crates c
  founded : ∃ rest,c.entries = founding crates::rest ∧ ∀ e ∈ rest,Gesture crates tree e
  keys : c.publicKeys = founderKeys crates

section Gestures
variable {tree : List DomainWitness}

theorem foundedChain_gestured : Gestured crates tree (foundedChain crates persistence log) :=
  ⟨⟨⟨rfl,trivial⟩,rfl⟩,⟨[],rfl,by simp⟩,rfl⟩

theorem gestures_rebuild (gestures : ∀ e ∈ entries,Gesture crates tree e) :
    rebuildLoop crates keys entries = (.ok (),keys) := by
  induction entries with
  | nil => rfl
  | cons w rest ih =>
    simp only [rebuildLoop,(gestures w List.mem_cons_self).quiet]
    exact ih fun e member => gestures e (List.mem_cons_of_mem _ member)

theorem gestures_keys (documented : Documented crates.toCrates) (gestures : ∀ e ∈ rest,Gesture crates tree e) :
    keysOf crates (founding crates::rest) = founderKeys crates := by
  have first : rebuildLoop crates ∅ [founding crates] = (.ok (),founderKeys crates) :=
    Prod.ext (replays_rebuilds (founding_replays documented)) (founding_keys documented)
  have split : founding crates::rest = [founding crates]++rest := rfl
  simp only [keysOf,rebuildPublicKeys,split,rebuildLoop_append,first,gestures_rebuild gestures]

theorem Gestured.kept (gestured : Gestured crates tree c) (k : Nat) :
    ∃ rest,c.entries.take (k+1) = founding crates::rest ∧ ∀ e ∈ rest,Gesture crates tree e := by
  obtain ⟨rest,shape,gestures⟩ := gestured.founded
  refine ⟨rest.take k,by rw [shape,List.take_succ_cons],?_⟩
  intro e member
  exact gestures e (List.mem_of_mem_take member)

theorem gesture_position (free : CollisionFree crates) (gesture : Gesture crates tree w)
    (named : w.prevHashB64 = headOf crates (c.entries.take k)) : ∃ j,k = j+1 := by
  cases k with
  | succ j => exact ⟨j,rfl⟩
  | zero =>
    obtain ⟨p,parent⟩ := gesture.behind
    exact absurd (parent.symm.trans named) (free.fresh p)

theorem gestured_deliver (documented : Documented crates.toCrates) (free : CollisionFree crates)
    (gestured : Gestured crates tree c) (gesture : Gesture crates tree d.2) : Gestured crates tree (deliver crates c d) := by
  by_cases entering : ∃ k,Enters crates c d k
  · obtain ⟨k,enters⟩ := entering
    obtain ⟨j,rfl⟩ := gesture_position free gesture (placement_prev gestured.anchored enters.1).2
    obtain ⟨rest,shape,gestures⟩ := gestured.kept j
    obtain ⟨entries,_,keys,_⟩ := deliver_enters enters
    have grown : ∀ e ∈ rest++[d.2],Gesture crates tree e := by
      intro e member
      cases List.mem_append.mp member with
      | inl older => exact gestures e older
      | inr last => rw [List.mem_singleton.mp last]; exact gesture
    refine ⟨deliver_anchored gestured.anchored,⟨rest++[d.2],by rw [entries,shape,List.cons_append],grown⟩,?_⟩
    rw [keys,keysAfter]
    split
    · rw [gesture.quiet]
      exact gestured.keys
    · rw [shape,List.cons_append]
      exact gestures_keys documented grown
  · obtain ⟨log,same⟩ := deliver_stays fun k enters => entering ⟨k,enters⟩
    rw [same]
    exact ⟨⟨gestured.anchored.linked,gestured.anchored.head⟩,gestured.founded,gestured.keys⟩

theorem gestured_member (founded : founding crates ∈ tree) (gestured : Gestured crates tree c) : ∀ e ∈ c.entries,e ∈ tree := by
  obtain ⟨rest,shape,gestures⟩ := gestured.founded
  rw [shape]
  intro e member
  cases List.mem_cons.mp member with
  | inl same => rw [same]; exact founded
  | inr later => exact (gestures e later).member

end Gestures

-- The founder acts, builds on that act, and is overtaken by an earlier act of its own.
section Overtaken
variable (crates)

def lateAct : DomainWitness := gesture crates "w1" 100
def nextAct : DomainWitness :=
  sign crates founder ⟨"w3"⟩ (canonicalHashB64 crates (lateAct crates)) 120 "founder" [] (.deleteGroup "g")
def earlyAct : DomainWitness := gesture crates "w2" 50
def acts : List DomainWitness := [founding crates,lateAct crates,nextAct crates,earlyAct crates]

variable {crates}

theorem acts_gesture (acted : w ∈ [lateAct crates,nextAct crates,earlyAct crates]) : Gesture crates (acts crates) w := by
  simp only [List.mem_cons,List.not_mem_nil,or_false] at acted
  rcases acted with rfl | rfl | rfl
  · exact ⟨fun _ => rfl,⟨founding crates,rfl⟩,by simp [acts]⟩
  · exact ⟨fun _ => rfl,⟨lateAct crates,rfl⟩,by simp [acts]⟩
  · exact ⟨fun _ => rfl,⟨founding crates,rfl⟩,by simp [acts]⟩

theorem acts_admitted (documented : Documented crates.toCrates) (acted : w ∈ [lateAct crates,nextAct crates,earlyAct crates]) :
    Admitted crates (founderKeys crates) w (k+1) := by
  have held : (founderKeys crates)["founder"]? = some (crates.verifyingKey founder) := by simp [founderKeys]
  simp only [List.mem_cons,List.not_mem_nil,or_false] at acted
  rcases acted with rfl | rfl | rfl <;> exact signed_admitted documented held

end Overtaken

end EvoCore.ChainForks
