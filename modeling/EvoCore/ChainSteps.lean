import EvoCore.ChainAppend
import EvoCore.Runs

namespace EvoCore.ChainSteps
open External DomainEntries ChainAppend HashLinks

variable {crates : DomainCrates} {io : FileResult} {c : DomainChain} {w : DomainWitness} {k : Nat}

def Known (c : DomainChain) (w : DomainWitness) : Prop := ∃ e ∈ c.entries,e.id = w.id

-- The number of entries kept in front of w when it is due: all of them when w
-- extends the head, fewer when it beats the local entry at a fork the code sees.
def placement (crates : DomainCrates) (c : DomainChain) (w : DomainWitness) : Option Nat :=
  if w.prevHashB64 = c.headHashB64 then some c.entries.length
  else match c.entries.getLast? with
    | none => none
    | some localHead =>
      if forksAtHead crates c w localHead then
        if linearisationCmp w localHead = .lt then some (c.entries.length-1) else none
      else match c.entries.findIdx? (fun e => canonicalHashB64 crates e == w.prevHashB64) with
        | none => none
        | some ancestorIdx =>
          match c.entries[ancestorIdx+1]? with
          | none => none
          | some divergent =>
            if divergent.id ≠ w.id ∧ c.publicKeys.contains w.originatorDeviceId = true ∧
                linearisationCmp w divergent = .lt then some (ancestorIdx+1)
            else none

-- Put w behind the first k entries, by the path the code takes for that k.
def settle (crates : DomainCrates) (io : FileResult) (c : DomainChain) (w : DomainWitness) (k : Nat) :
    Except DomainChainError AppendOutcome × DomainChain :=
  if k = c.entries.length then extend crates io c w else install crates io c w (c.entries.take k)

def Admitted (crates : DomainCrates) (keys : Std.ExtTreeMap String VerifyingKey) (w : DomainWitness) (k : Nat) : Prop :=
  verified crates w (k == 0) keys = .ok ()

theorem known_iff : c.entries.any (fun e => e.id == w.id) = true ↔ Known c w := by
  simp [Known]

theorem tryAppend_known (known : Known c w) : tryAppend crates io c w = (.ok .duplicateAlreadyPresent,c) := by
  simp [tryAppend,known_iff.mpr known]

theorem depthN_shape (io : FileResult) (unequal : w.prevHashB64 ≠ c.headHashB64)
    (nonempty : c.entries.getLast? = some last) (fresh : ¬ Known c w)
    (notOne : ¬ forksAtHead crates c w last = true) :
    (∃ k,placement crates c w = some k ∧ 0 < k ∧ k < c.entries.length ∧
      depthNFork crates io c w =
        orReturn c (verified crates w false c.publicKeys) (install crates io c w (c.entries.take k))) ∨
    (placement crates c w = none ∧ (depthNFork crates io c w).2 = c ∧
      (depthNFork crates io c w).1 ≠ .ok .applied) := by
  simp only [placement,if_neg unequal,nonempty,if_neg notOne,depthNFork]
  cases found : c.entries.findIdx? (fun e => canonicalHashB64 crates e == w.prevHashB64) with
  | none => simp [prevHashMismatch]
  | some idx =>
    cases next : c.entries[idx+1]? with
    | none => simp [prevHashMismatch,next]
    | some divergent =>
      have bound : idx+1 < c.entries.length := by
        by_contra beyond
        rw [List.getElem?_eq_none (by omega)] at next
        cases next
      have other : divergent.id ≠ w.id := fun same => fresh ⟨divergent,List.mem_of_getElem? next,same⟩
      cases contained : c.publicKeys.contains w.originatorDeviceId with
      | false => simp [next,prevHashMismatch,other]
      | true =>
        cases order : linearisationCmp w divergent with
        | lt => exact .inl ⟨idx+1,by simp [next,other,order],by omega,bound,by simp [next,other,order]⟩
        | eq | gt => cases accepted : verified crates w false c.publicKeys <;> simp [next,other,order,orReturn]

-- Everything try_append can do: refuse and leave the chain alone, or settle a
-- verified witness at its placement.
theorem tryAppend_spec (crates : DomainCrates) (io : FileResult) (fresh : ¬ Known c w) :
    (placement crates c w = none ∧ (tryAppend crates io c w).2 = c ∧ (tryAppend crates io c w).1 ≠ .ok .applied) ∨
    ∃ k,placement crates c w = some k ∧ k ≤ c.entries.length ∧
      tryAppend crates io c w = orReturn c (verified crates w (k == 0) c.publicKeys) (settle crates io c w k) := by
  have absent : c.entries.any (fun e => e.id == w.id) = false := by
    rw [Bool.eq_false_iff]
    exact fun present => fresh (known_iff.mp present)
  by_cases extends_ : w.prevHashB64 = c.headHashB64
  · refine .inr ⟨c.entries.length,by simp [placement,extends_],Nat.le_refl _,?_⟩
    have flag : c.entries.isEmpty = (c.entries.length == 0) := by cases c.entries <;> rfl
    simp [tryAppend,absent,extends_,linearAppend,settle,flag]
  · cases last : c.entries.getLast? with
    | none =>
      have empty : c.entries = [] := List.getLast?_eq_none_iff.mp last
      left
      simp [placement,tryAppend,extends_,empty,depthOneFork,depthNFork,prevHashMismatch]
    | some localHead =>
      by_cases one : forksAtHead crates c w localHead = true
      · have positive : 0 < c.entries.length := by
          rw [List.length_pos_iff]
          intro empty
          simp [empty] at last
        have flag : (c.entries.length == 1) = (c.entries.length-1 == 0) := by
          rw [Bool.eq_iff_iff]
          simp only [beq_iff_eq]
          omega
        have shorter : c.entries.length-1 ≠ c.entries.length := by omega
        cases order : linearisationCmp w localHead with
        | lt =>
          refine .inr ⟨c.entries.length-1,by simp only [placement,if_neg extends_,last,one,order,if_true],by omega,?_⟩
          simp only [tryAppend,absent,if_false,ne_eq,extends_,not_false_eq_true,if_true,depthOneFork,last,one,order,
            settle,if_neg shorter,flag,List.dropLast_eq_take,Bool.false_eq_true]
        | eq | gt =>
          left
          simp only [placement,tryAppend,absent,last,one,order,depthOneFork,if_true,ne_eq,extends_,
            not_false_eq_true,Bool.false_eq_true,if_false]
          simp
      · have outer : tryAppend crates io c w = depthNFork crates io c w := by
          simp only [tryAppend,absent,ne_eq,extends_,not_false_eq_true,if_true,depthOneFork,last,if_neg one,
            Bool.false_eq_true,if_false]
        rw [outer]
        rcases depthN_shape io extends_ last fresh one with ⟨k,placed,positive,bound,shape⟩ | refused
        · refine .inr ⟨k,placed,by omega,?_⟩
          have flag : (k == 0) = false := by simp; omega
          rw [shape,flag,settle,if_neg (by omega)]
        · exact .inl refused

abbrev Delivery := FileResult × DomainWitness

def deliver (crates : DomainCrates) (c : DomainChain) (d : Delivery) : DomainChain := (tryAppend crates d.1 c d.2).2

theorem deliver_result (result : tryAppend crates io c w = (outcome,next)) : deliver crates c (io,w) = next := by
  rw [deliver,result]

def headOf (crates : DomainCrates) (entries : List DomainWitness) : String :=
  tip (canonicalHashB64 crates) (zeroPrevHashB64 crates) entries

def keysOf (crates : DomainCrates) (entries : List DomainWitness) : Std.ExtTreeMap String VerifyingKey :=
  (rebuildPublicKeys crates entries).2

-- The links and the cached head, without the signatures.
structure Anchored (crates : DomainCrates) (c : DomainChain) : Prop where
  linked : Linked (canonicalHashB64 crates) DomainWitness.prevHashB64 (zeroPrevHashB64 crates) c.entries
  head : c.headHashB64 = headOf crates c.entries

theorem new_anchored : Anchored crates (new crates persistence log) := ⟨trivial,rfl⟩

-- The inversion of a delivery: nothing happens, or a verified witness settles.
theorem tryAppend_cases (crates : DomainCrates) (io : FileResult) (c : DomainChain) (w : DomainWitness) :
    ((tryAppend crates io c w).2 = c ∧ (tryAppend crates io c w).1 ≠ .ok .applied) ∨
    ∃ k,¬ Known c w ∧ placement crates c w = some k ∧ k ≤ c.entries.length ∧
      Admitted crates c.publicKeys w k ∧ tryAppend crates io c w = settle crates io c w k := by
  by_cases fresh : Known c w
  · left; simp [tryAppend_known fresh]
  · rcases tryAppend_spec crates io fresh with ⟨_,same,refused⟩ | ⟨k,placed,bound,shape⟩
    · exact .inl ⟨same,refused⟩
    · cases accepted : verified crates w (k == 0) c.publicKeys with
      | error e => left; simp [shape,accepted,orReturn]
      | ok _ => exact .inr ⟨k,fresh,placed,bound,accepted,by simp [shape,accepted,orReturn]⟩

theorem tryAppend_settles (fresh : ¬ Known c w) (placed : placement crates c w = some k)
    (admitted : Admitted crates c.publicKeys w k) : tryAppend crates io c w = settle crates io c w k := by
  rcases tryAppend_spec crates io fresh with ⟨none_,_⟩ | ⟨j,other,_,shape⟩
  · rw [placed] at none_; cases none_
  · rw [placed] at other
    cases Option.some.inj other
    rw [shape,show verified crates w (k == 0) c.publicKeys = .ok () from admitted]
    rfl

theorem placement_bound (fresh : ¬ Known c w) (placed : placement crates c w = some k) : k ≤ c.entries.length := by
  rcases tryAppend_spec crates .done fresh with ⟨none_,_⟩ | ⟨j,other,bound,_⟩
  · rw [placed] at none_; cases none_
  · rw [placed] at other
    cases Option.some.inj other
    exact bound

theorem placement_prev (anchored : Anchored crates c) (placed : placement crates c w = some k) :
    k ≤ c.entries.length ∧ w.prevHashB64 = headOf crates (c.entries.take k) := by
  unfold placement at placed
  split at placed
  · rename_i extends_
    cases Option.some.inj placed
    exact ⟨Nat.le_refl _,by rw [extends_,anchored.head,List.take_length]⟩
  · split at placed
    · cases placed
    · rename_i localHead last
      obtain ⟨before,shape⟩ := List.getLast?_eq_some_iff.mp last
      split at placed
      · rename_i one
        split at placed
        · cases Option.some.inj placed
          have same : w.prevHashB64 = localHead.prevHashB64 := by
            simp only [forksAtHead,Bool.and_eq_true,beq_iff_eq] at one
            exact one.1.1
          have linked := anchored.linked
          rw [shape,linked_snoc] at linked
          refine ⟨Nat.sub_le _ _,?_⟩
          rw [same,linked.2]
          simp [shape,headOf]
        · cases placed
      · split at placed
        · cases placed
        · rename_i idx found
          split at placed
          · cases placed
          · rename_i divergent next
            split at placed
            · cases Option.some.inj placed
              obtain ⟨bound,named,_⟩ := List.findIdx?_eq_some_iff_getElem.mp found
              refine ⟨bound,?_⟩
              rw [headOf,tip_take_succ bound]
              exact (beq_iff_eq.mp named).symm
            · cases placed

theorem install_memory (crates : DomainCrates) (io : FileResult) (c : DomainChain) (w : DomainWitness)
    (kept : List DomainWitness) :
    (install crates io c w kept).2.entries = kept++[w] ∧
    (install crates io c w kept).2.headHashB64 = canonicalHashB64 crates w ∧
    (install crates io c w kept).2.publicKeys = keysOf crates (kept++[w]) ∧
    (install crates io c w kept).2.persistence = c.persistence := by
  unfold install
  dsimp only
  split
  · exact ⟨rfl,rfl,rfl,rfl⟩
  · split <;> exact ⟨rfl,rfl,rfl,rfl⟩

theorem extend_memory (crates : DomainCrates) (io : FileResult) (c : DomainChain) (w : DomainWitness) :
    ((extend crates io c w).1 ≠ .ok .applied ∧ ∃ log,(extend crates io c w).2 = {c with log}) ∨
    ∃ keys log,updatePublicKeys crates c.publicKeys w = .ok keys ∧
      extend crates io c w = (.ok .applied,
        {c with entries := c.entries++[w],headHashB64 := canonicalHashB64 crates w,publicKeys := keys,log}) := by
  unfold extend
  rcases persistEntry crates io c w with ⟨⟨e⟩ | ⟨⟩,log⟩
  · exact .inl ⟨by simp,log,rfl⟩
  · cases updated : updatePublicKeys crates c.publicKeys w with
    | error e => exact .inl ⟨by simp,log,rfl⟩
    | ok keys => exact .inr ⟨keys,log,rfl,rfl⟩

theorem settle_anchored (anchored : Anchored crates c) (placed : placement crates c w = some k) :
    Anchored crates (settle crates io c w k).2 := by
  obtain ⟨bound,named⟩ := placement_prev anchored placed
  unfold settle
  split
  · rename_i whole
    subst whole
    rw [List.take_length] at named
    rcases extend_memory crates io c w with ⟨_,log,same⟩ | ⟨keys,log,_,same⟩
    · rw [same]; exact ⟨anchored.linked,anchored.head⟩
    · rw [same]
      exact ⟨linked_snoc.mpr ⟨anchored.linked,named⟩,by simp [headOf]⟩
  · obtain ⟨entries,head,_,_⟩ := install_memory crates io c w (c.entries.take k)
    refine ⟨?_,by rw [head,entries]; simp [headOf]⟩
    rw [entries]
    exact linked_snoc.mpr ⟨linked_take anchored.linked k,named⟩

-- No delivery, refused or failed ones included, breaks a link or the cached head.
theorem deliver_anchored (anchored : Anchored crates c) : Anchored crates (deliver crates c d) := by
  rcases tryAppend_cases crates d.1 c d.2 with ⟨same,_⟩ | ⟨k,_,placed,_,_,shape⟩
  · rw [deliver,same]; exact anchored
  · rw [deliver,shape]; exact settle_anchored anchored placed

theorem run_anchored : Anchored crates (Runs.run (deliver crates) (new crates persistence log) deliveries) :=
  Runs.run_keeps (fun _ _ anchored => deliver_anchored anchored) new_anchored

end EvoCore.ChainSteps
