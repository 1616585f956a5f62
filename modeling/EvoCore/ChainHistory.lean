import EvoCore.HonestSigners
import EvoCore.Runs

namespace EvoCore.ChainHistory
open External DomainEntries IdealCrates ChainAppend ChainSteps ChainReplay HonestSigners HashLinks Runs

variable {crates : DomainCrates} {c : DomainChain} {w : DomainWitness} {k : Nat}

-- The in-memory chain explains itself: the links hold, the head is the tip, and
-- replaying the entries on an empty chain gives back entries, head and resolver.
structure SelfVerifying (crates : DomainCrates) (c : DomainChain) : Prop where
  anchored : Anchored crates c
  replayed : ∃ result,replay crates (new crates .memory none) c.entries = .ok result ∧
    result.entries = c.entries ∧ result.headHashB64 = c.headHashB64 ∧ result.publicKeys = c.publicKeys

theorem selfVerifying_iff : SelfVerifying crates c ↔ Replays crates c.entries ∧
    c.headHashB64 = headOf crates c.entries ∧ c.publicKeys = keysOf crates c.entries := by
  constructor
  · rintro ⟨anchored,result,start,_,_,keys⟩
    obtain ⟨rfl,_⟩ := replay_result start
    exact ⟨⟨_,start⟩,anchored.head,keys.symm⟩
  · rintro ⟨replays,head,keys⟩
    exact ⟨⟨replays_linked replays,head⟩,_,replays_anywhere replays,rfl,head.symm,keys.symm⟩

theorem new_selfVerifying : SelfVerifying crates (new crates persistence log) :=
  selfVerifying_iff.mpr ⟨⟨_,rfl⟩,rfl,rfl⟩

-- A witness about to displace entries would be accepted by what it leaves standing.
-- The resolver the code asks still holds the keys of the entries that go.
def RetainedAdmits (crates : DomainCrates) (c : DomainChain) (w : DomainWitness) : Prop :=
  ∀ k,¬ Known c w → placement crates c w = some k → k < c.entries.length → Admitted crates c.publicKeys w k →
    Admitted crates (keysOf crates (c.entries.take k)) w k ∧ KeyReadable crates w

theorem extend_selfVerifying (valid : SelfVerifying crates c) (named : w.prevHashB64 = c.headHashB64)
    (admitted : Admitted crates c.publicKeys w c.entries.length) :
    SelfVerifying crates (extend crates io c w).2 := by
  obtain ⟨replays,head,keys⟩ := selfVerifying_iff.mp valid
  rcases extend_memory crates io c w with ⟨_,log,same⟩ | ⟨next,log,updated,same⟩
  · rw [same]; exact selfVerifying_iff.mpr ⟨replays,head,keys⟩
  · rw [same]
    have grown : Replays crates (c.entries++[w]) :=
      replays_snoc.mpr ⟨replays,named.trans head,keys ▸ admitted,readable_update updated⟩
    have rebuilt := keysOf_snoc (replays_rebuilds replays) (keys ▸ updated)
    exact selfVerifying_iff.mpr ⟨grown,by simp [headOf],by simp [keysOf,rebuilt]⟩

-- The displacing paths keep it exactly when the retained entries accept the winner.
theorem install_selfVerifying (valid : SelfVerifying crates c) (bound : k ≤ c.entries.length)
    (named : w.prevHashB64 = headOf crates (c.entries.take k)) :
    SelfVerifying crates (install crates io c w (c.entries.take k)).2 ↔
      Admitted crates (keysOf crates (c.entries.take k)) w k ∧ KeyReadable crates w := by
  obtain ⟨entries,head,keys,_⟩ := install_memory crates io c w (c.entries.take k)
  have shorter := replays_take (selfVerifying_iff.mp valid).1 k
  have length : (c.entries.take k).length = k := by simpa using bound
  rw [selfVerifying_iff,entries,head,keys,replays_snoc,length]
  simp [shorter,named,headOf]

theorem deliver_selfVerifying (c : DomainChain) (d : Delivery) (valid : SelfVerifying crates c) :
    SelfVerifying crates (deliver crates c d) ↔ RetainedAdmits crates c d.2 := by
  by_cases due : ∃ k,¬ Known c d.2 ∧ placement crates c d.2 = some k ∧ Admitted crates c.publicKeys d.2 k
  · obtain ⟨k,fresh,placed,admitted⟩ := due
    obtain ⟨bound,named⟩ := placement_prev valid.anchored placed
    rw [deliver,tryAppend_settles fresh placed admitted,settle]
    split
    · rename_i whole
      subst whole
      have extends_ : d.2.prevHashB64 = c.headHashB64 := by
        rw [named,List.take_length,valid.anchored.head]
      refine iff_of_true (extend_selfVerifying valid extends_ admitted) ?_
      intro j _ other shorter _
      rw [placed] at other
      cases Option.some.inj other
      omega
    · rename_i fewer
      rw [install_selfVerifying valid bound named]
      constructor
      · intro accepted j _ other _ _
        rw [placed] at other
        cases Option.some.inj other
        exact accepted
      · intro retained
        exact retained k fresh placed (by omega) admitted
  · rcases tryAppend_cases crates d.1 c d.2 with ⟨same,_⟩ | ⟨k,fresh,placed,_,admitted,_⟩
    · rw [deliver,same]
      exact iff_of_true valid fun k fresh placed _ admitted => absurd ⟨k,fresh,placed,admitted⟩ due
    · exact absurd ⟨k,fresh,placed,admitted⟩ due

theorem self_verifying_exactly (crates : DomainCrates) (persistence : DomainChainPersistence) (log : ChainLog)
    (deliveries : List Delivery) :
    Throughout (deliver crates) (SelfVerifying crates) (new crates persistence log) deliveries ↔
      Guarded (deliver crates) (fun c d => RetainedAdmits crates c d.2) (new crates persistence log) deliveries :=
  throughout_exact deliver_selfVerifying new_selfVerifying

-- A fork one entry deep by a device whose admission is the entry it displaces.
section DisplacedAdmission
variable (crates)

def guestAdmission : DomainWitness :=
  sign crates founder ⟨"w1"⟩ (canonicalHashB64 crates (founding crates)) 100 "founder" [] (admission crates "guest" guest)
def guestFork : DomainWitness :=
  sign crates guest ⟨"w2"⟩ (canonicalHashB64 crates (founding crates)) 50 "guest" [] (.deleteGroup "g")

def guestChain : DomainChain :=
  ⟨[founding crates,guestAdmission crates],canonicalHashB64 crates (guestAdmission crates),
    (founderKeys crates).insert "guest" (crates.verifyingKey guest),.memory,none⟩

variable {crates}

theorem guestAdmission_applied (documented : Documented crates.toCrates) :
    tryAppend crates io (foundedChain crates .memory none) (guestAdmission crates) = (.ok .applied,guestChain crates) := by
  refine extends_applied ?_ rfl ?_ rfl (admission_updates documented rfl)
  · simp [Known,foundedChain,founding,selfAdmission,guestAdmission,sign]
  · exact signed_admitted documented (by simp [foundedChain,founderKeys])

theorem guestChain_selfVerifying (documented : Documented crates.toCrates) : SelfVerifying crates (guestChain crates) := by
  have founded : SelfVerifying crates (foundedChain crates .memory none) := by
    have kept := (deliver_selfVerifying (new crates .memory none) (.done,founding crates) new_selfVerifying).mpr
    rw [deliver_result (founding_in_memory documented)] at kept
    refine kept fun k _ _ shorter _ => ?_
    simp [new] at shorter
  have kept := (deliver_selfVerifying _ (.done,guestAdmission crates) founded).mpr
  rw [deliver_result (guestAdmission_applied documented)] at kept
  refine kept fun k _ placed shorter _ => ?_
  rw [placement_extends rfl] at placed
  cases Option.some.inj placed
  simp at shorter

theorem guestFork_not_retained (documented : Documented crates.toCrates) (free : CollisionFree crates) :
    ¬ RetainedAdmits crates (guestChain crates) (guestFork crates) := by
  intro retained
  have fresh : ¬ Known (guestChain crates) (guestFork crates) := by
    simp [Known,guestChain,founding,selfAdmission,guestAdmission,guestFork,sign]
  have different : founding crates ≠ guestAdmission crates := by
    simp [founding,selfAdmission,guestAdmission,sign]
  have placed : placement crates (guestChain crates) (guestFork crates) = some 1 :=
    placement_head_fork rfl (fun same => different (free.injective same)) rfl
      (by simp [guestFork,guestAdmission,sign]) (by simp [guestFork,guestChain,sign]) (earlier_first (show (50 : UInt64) < 100 by decide))
  have admitted : Admitted crates (guestChain crates).publicKeys (guestFork crates) 1 :=
    signed_admitted documented (by simp [guestChain])
  have accepted := (retained 1 fresh placed (by simp [guestChain]) admitted).1
  refine unheld_refused ?_ accepted
  have left : (guestChain crates).entries.take 1 = [founding crates] := rfl
  rw [left,founding_keys documented]
  simp [founderKeys,guestFork,sign]

theorem guestFork_breaks (documented : Documented crates.toCrates) (free : CollisionFree crates) :
    ¬ SelfVerifying crates (run (deliver crates) (new crates .memory none)
      [(.done,founding crates),(.done,guestAdmission crates),(.done,guestFork crates)]) := by
  simp only [run_cons,run_nil]
  rw [deliver_result (founding_in_memory documented),deliver_result (guestAdmission_applied documented),
    deliver_selfVerifying _ _ (guestChain_selfVerifying documented)]
  exact guestFork_not_retained documented free

theorem displaced_admission : ¬ ∀ (crates : DomainCrates),
    Documented crates.toCrates → Ideal crates.toCrates → CollisionFree crates →
    ∀ persistence log deliveries,SelfVerifying crates (run (deliver crates) (new crates persistence log) deliveries) := by
  intro always
  exact guestFork_breaks domainLibrary_documented domainLibrary_free
    (always domainLibrary domainLibrary_documented domainLibrary_ideal domainLibrary_free .memory none _)

end DisplacedAdmission

end EvoCore.ChainHistory
