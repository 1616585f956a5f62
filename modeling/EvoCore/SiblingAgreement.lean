import EvoCore.ChainConvergence

namespace EvoCore.SiblingAgreement
open External DomainEntries IdealCrates ChainAppend ChainSteps ChainReplay ChainForks ChainConvergence HonestSigners
open HashLinks Runs

variable {crates : DomainCrates} {c : DomainChain} {a b : Delivery} {v w : DomainWitness} {j k : Nat}

-- With v standing behind the first k entries, its sibling w takes the place.
structure Displaces (crates : DomainCrates) (c : DomainChain) (k : Nat) (v w : DomainWitness) : Prop where
  other : w.id ≠ v.id
  unknown : ∀ e ∈ c.entries.take k,e.id ≠ w.id
  first : linearisationCmp w v = .lt
  admitted : Admitted crates (keysAfter crates c v k) w k

-- Of two siblings that would both enter, one displaces the other. One that would
-- not enter does not displace the one that would.
def Settled (crates : DomainCrates) (c : DomainChain) (a b : Delivery) : Prop :=
  ∀ k,(Enters crates c a k → Enters crates c b k → Displaces crates c k a.2 b.2 ∨ Displaces crates c k b.2 a.2) ∧
    (Enters crates c a k → ¬ Enters crates c b k → ¬ Displaces crates c k a.2 b.2) ∧
    (Enters crates c b k → ¬ Enters crates c a k → ¬ Displaces crates c k b.2 a.2)

theorem admitted_self (admitted : Admitted crates keys w 0) : w.op.isAdmitPeer = true := by
  unfold Admitted verified resolveVerifyingKey at admitted
  simp only [beq_self_eq_true,if_true] at admitted
  cases op : w.op with
  | admitPeer => rfl
  | _ => simp [op] at admitted

theorem admitted_reconcilable (length : c.entries.length = k+1) (admitted : Admitted crates c.publicKeys w k) :
    Reconcilable c w k := by
  cases k with
  | zero => exact .inr ⟨rfl,length,.inr (admitted_self admitted)⟩
  | succ before => exact .inl ⟨Nat.succ_pos _,admitted_contains admitted (Nat.succ_pos _)⟩

theorem enters_after (free : CollisionFree crates) (anchored : Anchored crates c) (enters : Enters crates c a k)
    (siblings : b.2.prevHashB64 = a.2.prevHashB64) :
    Enters crates (deliver crates c a) b j ↔ j = k ∧ Displaces crates c k a.2 b.2 := by
  obtain ⟨entries,_,keys,_⟩ := deliver_enters enters
  obtain ⟨bound,named⟩ := placement_prev anchored enters.1
  have after : Anchored crates (deliver crates c a) := deliver_anchored anchored
  have kept : (c.entries.take k).length = k := by simpa using bound
  have length : (deliver crates c a).entries.length = k+1 := by rw [entries]; simp [kept]
  have fork : ForksAt crates (deliver crates c a) b.2 k := by
    refine ⟨by omega,?_⟩
    rw [siblings,named,entries,List.take_left' kept]
  have standing : (deliver crates c a).entries[k]? = some a.2 := by
    rw [entries,List.getElem?_append_right (by omega),kept]
    simp
  have known : Known (deliver crates c a) b.2 ↔ (∃ e ∈ c.entries.take k,e.id = b.2.id) ∨ a.2.id = b.2.id := by
    simp only [Known,entries,List.mem_append,List.mem_singleton]
    constructor
    · rintro ⟨e,member | rfl,same⟩
      · exact .inl ⟨e,member,same⟩
      · exact .inr same
    · rintro (⟨e,member,same⟩ | same)
      · exact ⟨e,.inl member,same⟩
      · exact ⟨a.2,.inr rfl,same⟩
  constructor
  · intro second
    have position := placement_elsewhere free after second.1 fork
    subst position
    have fresh := second.2.fresh
    rw [known,not_or] at fresh
    refine ⟨rfl,fun same => fresh.2 same.symm,fun e member same => fresh.1 ⟨e,member,same⟩,?_,keys ▸ second.2.admitted⟩
    exact ((placement_fork free after second.2.fresh fork standing).mp second.1).2
  · rintro ⟨rfl,displaces⟩
    have fresh : ¬ Known (deliver crates c a) b.2 := by
      rw [known,not_or]
      exact ⟨fun ⟨e,member,same⟩ => displaces.unknown e member same,fun same => displaces.other same.symm⟩
    have admitted : Admitted crates (deliver crates c a).publicKeys b.2 j := by
      rw [keys]; exact displaces.admitted
    refine ⟨?_,fresh,admitted,fun whole => by omega⟩
    exact (placement_fork free after fresh fork standing).mpr ⟨admitted_reconcilable length admitted,displaces.first⟩

theorem head_displaced (free : CollisionFree crates) (anchored : Anchored crates c) (enters : Enters crates c a k)
    (siblings : b.2.prevHashB64 = a.2.prevHashB64) (displaces : Displaces crates c k a.2 b.2) :
    (deliver crates (deliver crates c a) b).headHashB64 = canonicalHashB64 crates b.2 :=
  (deliver_enters ((enters_after free anchored enters siblings).mpr ⟨rfl,displaces⟩)).2.1

theorem head_kept (free : CollisionFree crates) (anchored : Anchored crates c) (enters : Enters crates c a k)
    (siblings : b.2.prevHashB64 = a.2.prevHashB64) (stays : ¬ Displaces crates c k a.2 b.2) :
    (deliver crates (deliver crates c a) b).headHashB64 = canonicalHashB64 crates a.2 := by
  have outside : ∀ j,¬ Enters crates (deliver crates c a) b j := by
    intro j second
    exact stays ((enters_after free anchored enters siblings).mp second).2
  obtain ⟨log,same⟩ := deliver_stays outside
  rw [same]
  exact (deliver_enters enters).2.1

theorem head_second (outside : ∀ j,¬ Enters crates c a j) :
    (deliver crates (deliver crates c a) b).headHashB64 = (deliver crates c b).headHashB64 := by
  obtain ⟨log,same⟩ := deliver_stays outside
  rw [same]
  by_cases second : ∃ j,Enters crates c b j
  · obtain ⟨j,enters⟩ := second
    have again : Enters crates {c with log} b j := enters_log.mpr enters
    rw [(deliver_enters again).2.1,(deliver_enters enters).2.1]
  · have neither : ∀ j,¬ Enters crates c b j := fun j enters => second ⟨j,enters⟩
    have again : ∀ j,¬ Enters crates {c with log} b j := fun j enters => neither j (enters_log.mp enters)
    obtain ⟨_,one⟩ := deliver_stays neither
    obtain ⟨_,two⟩ := deliver_stays again
    rw [one,two]

theorem enters_once (free : CollisionFree crates) (anchored : Anchored crates c) (one : Enters crates c a j)
    (two : Enters crates c b k) (siblings : b.2.prevHashB64 = a.2.prevHashB64) : j = k := by
  obtain ⟨boundJ,namedJ⟩ := placement_prev anchored one.1
  obtain ⟨boundK,namedK⟩ := placement_prev anchored two.1
  exact fork_unique free anchored boundJ namedJ boundK (siblings.symm.trans namedK)

theorem agree_anchored (free : CollisionFree crates) (anchored : Anchored crates c) (different : a.2 ≠ b.2)
    (siblings : a.2.prevHashB64 = b.2.prevHashB64) :
    (deliver crates (deliver crates c a) b).headHashB64 = (deliver crates (deliver crates c b) a).headHashB64 ↔
      Settled crates c a b := by
  have apart : canonicalHashB64 crates a.2 ≠ canonicalHashB64 crates b.2 := fun same => different (free.injective same)
  by_cases one : ∃ k,Enters crates c a k
  · obtain ⟨k,entersA⟩ := one
    by_cases two : Enters crates c b k
    · have settled : Settled crates c a b ↔ Displaces crates c k a.2 b.2 ∨ Displaces crates c k b.2 a.2 := by
        constructor
        · intro settled
          exact (settled k).1 entersA two
        · intro either j
          refine ⟨fun again _ => ?_,fun again outside => ?_,fun again outside => ?_⟩
          · cases enters_once free anchored entersA again rfl
            exact either
          · cases enters_once free anchored entersA again rfl
            exact absurd two outside
          · cases enters_once free anchored two again rfl
            exact absurd entersA outside
      rw [settled]
      by_cases forward : Displaces crates c k a.2 b.2
      · have back : ¬ Displaces crates c k b.2 a.2 := fun displaces => first_asymm _ _ forward.first displaces.first
        rw [head_displaced free anchored entersA siblings.symm forward,head_kept free anchored two siblings back]
        exact iff_of_true rfl (.inl forward)
      · rw [head_kept free anchored entersA siblings.symm forward]
        by_cases back : Displaces crates c k b.2 a.2
        · rw [head_displaced free anchored two siblings back]
          exact iff_of_true rfl (.inr back)
        · rw [head_kept free anchored two siblings back]
          exact iff_of_false apart (not_or.mpr ⟨forward,back⟩)
    · have outside : ∀ j,¬ Enters crates c b j := by
        intro j entersB
        cases enters_once free anchored entersA entersB siblings.symm
        exact two entersB
      have settled : Settled crates c a b ↔ ¬ Displaces crates c k a.2 b.2 := by
        constructor
        · intro settled
          exact (settled k).2.1 entersA two
        · intro stays j
          refine ⟨fun _ entersB => absurd entersB (outside j),fun again _ => ?_,fun entersB => absurd entersB (outside j)⟩
          cases enters_once free anchored entersA again rfl
          exact stays
      rw [settled,head_second outside,(deliver_enters entersA).2.1]
      by_cases forward : Displaces crates c k a.2 b.2
      · rw [head_displaced free anchored entersA siblings.symm forward]
        exact iff_of_false apart.symm (not_not.mpr forward)
      · rw [head_kept free anchored entersA siblings.symm forward]
        exact iff_of_true rfl forward
  · have outside : ∀ j,¬ Enters crates c a j := fun j enters => one ⟨j,enters⟩
    rw [head_second outside]
    by_cases two : ∃ k,Enters crates c b k
    · obtain ⟨k,entersB⟩ := two
      have settled : Settled crates c a b ↔ ¬ Displaces crates c k b.2 a.2 := by
        constructor
        · intro settled
          exact (settled k).2.2 entersB (outside k)
        · intro stays j
          refine ⟨fun entersA => absurd entersA (outside j),fun entersA => absurd entersA (outside j),fun again _ => ?_⟩
          cases enters_once free anchored entersB again rfl
          exact stays
      rw [settled,(deliver_enters entersB).2.1]
      by_cases back : Displaces crates c k b.2 a.2
      · rw [head_displaced free anchored entersB siblings back]
        exact iff_of_false apart.symm (not_not.mpr back)
      · rw [head_kept free anchored entersB siblings back]
        exact iff_of_true rfl back
    · have neither : ∀ j,¬ Enters crates c b j := fun j enters => two ⟨j,enters⟩
      rw [head_second neither]
      obtain ⟨_,same⟩ := deliver_stays outside
      obtain ⟨_,also⟩ := deliver_stays neither
      rw [same,also]
      exact iff_of_true rfl fun j => ⟨fun entersA => absurd entersA (outside j),fun entersA => absurd entersA (outside j),
        fun entersB => absurd entersB (neither j)⟩

theorem gesture_enters (documented : Documented crates.toCrates) (other : identifier ≠ "w0") :
    Enters crates (foundedChain crates .memory none) (.done,gesture crates identifier ts) 1 := by
  refine ⟨placement_extends rfl,?_,signed_admitted documented (by simp [foundedChain,founderKeys]),?_⟩
  · simp [Known,foundedChain,founding,selfAdmission,gesture,sign,other.symm]
  · intro _
    exact ⟨⟨_,rfl⟩,.inl rfl⟩

theorem gesture_displaces (documented : Documented crates.toCrates) (other : identifier ≠ "w0")
    (apart : identifier ≠ standing) (earlier : ts < later) :
    Displaces crates (foundedChain crates .memory none) 1 (gesture crates standing later) (gesture crates identifier ts) := by
  refine ⟨by simp [gesture,sign,apart],?_,earlier_first earlier,?_⟩
  · simp [foundedChain,founding,selfAdmission,gesture,sign,other.symm]
  · apply signed_admitted documented
    simp [keysAfter,foundedChain,founderKeys,updatePublicKeys,gesture,sign,Except.toOption]

theorem gestures_settled (documented : Documented crates.toCrates) (one two : String) (other : one ≠ "w0")
    (apart : one ≠ two) (earlier : ts < later) : Settled crates (foundedChain crates .memory none)
      (.done,gesture crates one ts) (.done,gesture crates two later) := by
  have first : linearisationCmp (gesture crates one ts) (gesture crates two later) = .lt := earlier_first earlier
  intro k
  refine ⟨fun enters _ => ?_,fun _ _ displaces => first_asymm _ _ first displaces.first,fun enters outside => ?_⟩
  · cases Option.some.inj ((placement_extends rfl).symm.trans enters.1)
    exact .inr (gesture_displaces documented other apart earlier)
  · cases Option.some.inj ((placement_extends rfl).symm.trans enters.1)
    exact absurd (gesture_enters documented other) outside

-- Two siblings, both orders, any reachable chain: one head exactly when the pair is settled.
theorem siblings_agree_exactly (free : CollisionFree crates) (reachable : Reachable crates c) (a b : Delivery)
    (different : a.2 ≠ b.2) (siblings : a.2.prevHashB64 = b.2.prevHashB64) :
    (deliver crates (deliver crates c a) b).headHashB64 = (deliver crates (deliver crates c b) a).headHashB64 ↔
      Settled crates c a b := agree_anchored free (reachable_anchored reachable) different siblings

theorem gestures_agree : let a : Delivery := (.done,gesture domainLibrary "w1" 1)
    let b : Delivery := (.done,gesture domainLibrary "w2" 2)
    let c := foundedChain domainLibrary .memory none
    a.2 ≠ b.2 ∧ (deliver domainLibrary (deliver domainLibrary c a) b).headHashB64 =
      (deliver domainLibrary (deliver domainLibrary c b) a).headHashB64 := by
  have different : gesture domainLibrary "w1" 1 ≠ gesture domainLibrary "w2" 2 := by
    intro same
    exact absurd (congrArg DomainWitness.tsNs same) (show (1 : UInt64) ≠ 2 by decide)
  have settled := gestures_settled domainLibrary_documented "w1" "w2" (by decide) (by decide)
    (show (1 : UInt64) < 2 by decide)
  exact ⟨different,(siblings_agree_exactly domainLibrary_free (foundedChain_reachable domainLibrary_documented)
    (.done,gesture domainLibrary "w1" 1) (.done,gesture domainLibrary "w2" 2) different rfl).mpr settled⟩

-- One signed gesture under two ids: neither copy comes first.
theorem copies_unsettled (documented : Documented crates.toCrates) : ¬ Settled crates (foundedChain crates .memory none)
    (.done,gesture crates "w1" 1) (.done,gesture crates "w2" 1) := by
  intro settled
  have tied : linearisationCmp (gesture crates "w1" 1) (gesture crates "w2" 1) = .eq := linearisation_eq.mpr ⟨rfl,rfl⟩
  have also : linearisationCmp (gesture crates "w2" 1) (gesture crates "w1" 1) = .eq := linearisation_eq.mpr ⟨rfl,rfl⟩
  cases (settled 1).1 (gesture_enters documented (by decide)) (gesture_enters documented (by decide)) with
  | inl displaces => exact absurd (also.symm.trans displaces.first) (by decide)
  | inr displaces => exact absurd (tied.symm.trans displaces.first) (by decide)

theorem copies_diverge : ¬ ∀ (crates : DomainCrates),
    Documented crates.toCrates → Ideal crates.toCrates → CollisionFree crates →
    ∀ c,Reachable crates c → ∀ a b : DomainWitness,a ≠ b → a.prevHashB64 = b.prevHashB64 →
      verified crates a c.entries.isEmpty c.publicKeys = .ok () → verified crates b c.entries.isEmpty c.publicKeys = .ok () →
      (deliver crates (deliver crates c (.done,a)) (.done,b)).headHashB64 =
        (deliver crates (deliver crates c (.done,b)) (.done,a)).headHashB64 := by
  intro always
  have different : gesture domainLibrary "w1" 1 ≠ gesture domainLibrary "w2" 1 := by
    intro same
    exact absurd (congrArg DomainWitness.id same) (show (⟨"w1"⟩ : WitnessId) ≠ ⟨"w2"⟩ by decide)
  have reachable := foundedChain_reachable domainLibrary_documented
  have verifies (identifier : String) : Admitted domainLibrary (founderKeys domainLibrary)
      (gesture domainLibrary identifier 1) 1 := signed_admitted domainLibrary_documented (by simp [founderKeys])
  have same := always domainLibrary domainLibrary_documented domainLibrary_ideal domainLibrary_free _ reachable
    (gesture domainLibrary "w1" 1) (gesture domainLibrary "w2" 1) different rfl (verifies "w1") (verifies "w2")
  have anchored := reachable_anchored reachable
  exact copies_unsettled domainLibrary_documented ((agree_anchored (a := (.done,gesture domainLibrary "w1" 1))
    (b := (.done,gesture domainLibrary "w2" 1)) domainLibrary_free anchored different rfl).mp same)

end EvoCore.SiblingAgreement
