import EvoCore.ChainForks
import EvoCore.DomainRuntime
import EvoCore.HonestSigners

namespace EvoCore.ProjectionCache
open External DomainEntries IdealCrates ChainAppend ChainSteps ChainReplay ChainForks HonestSigners HashLinks
open DomainProjection DomainRuntime Runs

variable {crates : DomainCrates} {rt next : DomainWitnessRuntime} {c : DomainChain} {d : Delivery} {k : Nat}

-- What observers read is the projection of what the chain holds.
def InStep (crates : DomainCrates) (rt : DomainWitnessRuntime) : Prop := rt.projection = refreshed crates rt.chain

-- Of a witness that displaces entries, the keys left standing can be read and the log
-- can be rewritten. The chain has moved before either is known.
def Unbroken (crates : DomainCrates) (c : DomainChain) (d : Delivery) : Prop :=
  ∀ k,¬ Known c d.2 → placement crates c d.2 = some k → Admitted crates c.publicKeys d.2 k → k < c.entries.length →
    (∀ e ∈ c.entries.take k++[d.2],KeyReadable crates e) ∧ Written c d.1

-- The same for every witness of a batch up to the one that stops it.
def UnbrokenBatch (crates : DomainCrates) (c : DomainChain) : List Delivery → Prop
  | [] => True
  | d::rest => Unbroken crates c d ∧
    ((tryAppend crates d.1 c d.2).1.isOk = true → UnbrokenBatch crates (deliver crates c d) rest)

def Sound (crates : DomainCrates) (rt : DomainWitnessRuntime) : Call → Prop
  | .reset io => rt.chain.entries = [] ∨ rt.chain.persistence = .memory ∨ rt.chain.log = none ∨ io = .done
  | .receiveRemoteWitness io witness _ => Unbroken crates rt.chain (io,witness)
  | .applyResponseBatch witnesses _ => UnbrokenBatch crates rt.chain witnesses
  | .appendLocalGesture .. | .bootstrapGenesis .. => True

structure Absorbs (crates : DomainCrates) (rt : DomainWitnessRuntime) (d : Delivery) (next : DomainWitnessRuntime) : Prop where
  chain : next.chain = deliver crates rt.chain d
  applied : (tryAppend crates d.1 rt.chain d.2).1 = .ok .applied → InStep crates next
  other : (tryAppend crates d.1 rt.chain d.2).1 ≠ .ok .applied → next.projection = rt.projection

theorem absorbs_applied (result : tryAppend crates d.1 rt.chain d.2 = (.ok .applied,chain)) (moved : next.chain = chain)
    (inStep : InStep crates next) : Absorbs crates rt d next := by
  refine ⟨moved.trans (deliver_result result).symm,fun _ => inStep,fun refused => ?_⟩
  rw [result] at refused
  exact absurd rfl refused

theorem absorbs_other (result : tryAppend crates d.1 rt.chain d.2 = (outcome,chain)) (other : outcome ≠ .ok .applied)
    (moved : next.chain = chain) (kept : next.projection = rt.projection) : Absorbs crates rt d next := by
  refine ⟨moved.trans (deliver_result result).symm,fun applied => ?_,fun _ => kept⟩
  rw [result] at applied
  exact absurd applied other

theorem receive_absorbs (crates : DomainCrates) (d : Delivery) (rt : DomainWitnessRuntime) (peer : String) :
    Absorbs crates rt d (receiveRemoteWitness crates d.1 rt d.2 peer).2 := by
  unfold receiveRemoteWitness
  split
  · rename_i chain result
    exact absorbs_applied result rfl rfl
  · rename_i outcome chain unapplied result
    exact absorbs_other result (fun same => unapplied (Except.ok.inj same)) rfl rfl
  · rename_i expected actual chain result
    exact absorbs_other result (by simp) rfl rfl
  · rename_i error chain _ result
    exact absorbs_other result (by simp) rfl rfl

theorem append_absorbs (crates : DomainCrates) (io : FileResult) (identifier : WitnessId) (now : UInt64)
    (rt : DomainWitnessRuntime) (op : DomainStateOp) (endpoints : List NetworkEndpoint) :
    Absorbs crates rt (io,sign crates rt.signingKey identifier rt.chain.headHashB64 now rt.localDeviceId endpoints op)
      (appendLocalGesture crates io identifier now rt op endpoints).2 := by
  unfold appendLocalGesture
  dsimp only
  split
  · rename_i error chain result
    exact absorbs_other result (by simp) rfl rfl
  · rename_i outcome chain result
    cases outcome with
    | applied => exact absorbs_applied result rfl rfl
    | duplicateAlreadyPresent => exact absorbs_other result (by simp) rfl rfl
    | forkLost winner => exact absorbs_other result (by simp) rfl rfl

theorem unbroken_at (fresh : ¬ Known c d.2) (placed : placement crates c d.2 = some k)
    (admitted : Admitted crates c.publicKeys d.2 k) (inside : k < c.entries.length) :
    Unbroken crates c d ↔ (tryAppend crates d.1 c d.2).1 = .ok .applied := by
  rw [tryAppend_settles fresh placed admitted,settle,if_neg (Nat.ne_of_lt inside),install_applied]
  constructor
  · intro unbroken
    exact unbroken k fresh placed admitted inside
  · intro whole j _ other _ _
    cases Option.some.inj (placed.symm.trans other)
    exact whole

-- A displacement always moves the head, so a cache left behind shows.
theorem displaced_head (free : CollisionFree crates) (anchored : Anchored crates c) (fresh : ¬ Known c d.2)
    (placed : placement crates c d.2 = some k) (admitted : Admitted crates c.publicKeys d.2 k)
    (inside : k < c.entries.length) : (deliver crates c d).headHashB64 ≠ c.headHashB64 := by
  rw [deliver,tryAppend_settles fresh placed admitted,settle,if_neg (Nat.ne_of_lt inside),
    (install_memory crates d.1 c d.2 _).2.1,anchored.head]
  intro same
  cases last : c.entries.getLast? with
  | none =>
    rw [List.getLast?_eq_none_iff] at last
    simp [last] at inside
  | some localHead =>
    rw [headOf,tip_last last] at same
    have here := free.injective same
    exact fresh ⟨localHead,List.mem_of_getLast? last,congrArg DomainWitness.id here.symm⟩

theorem absorbs_exact (free : CollisionFree crates) (anchored : Anchored crates rt.chain) (inStep : InStep crates rt)
    (absorbs : Absorbs crates rt d next) : InStep crates next ↔ Unbroken crates rt.chain d := by
  have still : ∀ log,deliver crates rt.chain d = {rt.chain with log} → InStep crates next := by
    intro log same
    by_cases applied : (tryAppend crates d.1 rt.chain d.2).1 = .ok .applied
    · exact absorbs.applied applied
    · rw [InStep,absorbs.other applied,absorbs.chain,same]
      exact inStep
  by_cases displaced : ∃ k,¬ Known rt.chain d.2 ∧ placement crates rt.chain d.2 = some k ∧
      Admitted crates rt.chain.publicKeys d.2 k ∧ k < rt.chain.entries.length
  · obtain ⟨k,fresh,placed,admitted,inside⟩ := displaced
    rw [unbroken_at fresh placed admitted inside]
    constructor
    · intro after
      by_contra failed
      have cached : rt.projection.chainHeadB64 = rt.chain.headHashB64 := congrArg DomainStateView.chainHeadB64 inStep
      have shown : next.projection.chainHeadB64 = next.chain.headHashB64 := congrArg DomainStateView.chainHeadB64 after
      rw [absorbs.other failed,cached,absorbs.chain] at shown
      exact displaced_head free anchored fresh placed admitted inside shown.symm
    · exact absorbs.applied
  · have vacuous : Unbroken crates rt.chain d := by
      intro k fresh placed admitted inside
      exact absurd ⟨k,fresh,placed,admitted,inside⟩ displaced
    refine iff_of_true ?_ vacuous
    rcases tryAppend_cases crates d.1 rt.chain d.2 with ⟨same,_⟩ | ⟨k,fresh,placed,bound,admitted,shape⟩
    · exact still rt.chain.log same
    · have whole : k = rt.chain.entries.length := by
        by_contra fewer
        exact displaced ⟨k,fresh,placed,admitted,Nat.lt_of_le_of_ne bound fewer⟩
      rw [settle,if_pos whole] at shape
      rcases extend_memory crates d.1 rt.chain d.2 with ⟨_,log,same⟩ | ⟨keys,log,_,same⟩
      · exact still log (by rw [deliver,shape,same])
      · exact absorbs.applied (by rw [shape,same])

theorem gesture_unbroken (extends_ : d.2.prevHashB64 = c.headHashB64) : Unbroken crates c d := by
  intro k _ placed _ inside
  have whole : placement crates c d.2 = some c.entries.length := by simp [placement,extends_]
  cases Option.some.inj (placed.symm.trans whole)
  exact absurd inside (Nat.lt_irrefl _)

theorem append_inStep (free : CollisionFree crates) (anchored : Anchored crates rt.chain) (inStep : InStep crates rt)
    (op : DomainStateOp) (endpoints : List NetworkEndpoint) :
    InStep crates (appendLocalGesture crates io identifier now rt op endpoints).2 :=
  (absorbs_exact free anchored inStep (append_absorbs crates io identifier now rt op endpoints)).mpr (gesture_unbroken rfl)

theorem receive_ok : (receiveRemoteWitness crates d.1 rt d.2 peer).1.isOk = (tryAppend crates d.1 rt.chain d.2).1.isOk := by
  unfold receiveRemoteWitness
  split <;> rename_i result <;> rw [result] <;> rfl

theorem install_ok (passed : (install crates io c w kept).1.isOk = true) : (install crates io c w kept).1 = .ok .applied := by
  unfold install at passed ⊢
  dsimp only at passed ⊢
  split at passed
  · cases passed
  · split at passed
    · cases passed
    · rfl

theorem ok_unbroken (passed : (tryAppend crates d.1 c d.2).1.isOk = true) : Unbroken crates c d := by
  intro k fresh placed admitted inside
  have shape : tryAppend crates d.1 c d.2 = _ := tryAppend_settles fresh placed admitted
  rw [settle,if_neg (Nat.ne_of_lt inside)] at shape
  rw [shape] at passed
  exact (unbroken_at fresh placed admitted inside).mpr (by rw [shape]; exact install_ok passed) k fresh placed admitted inside

theorem batch_exact (free : CollisionFree crates) (anchored : Anchored crates rt.chain) (inStep : InStep crates rt) :
    InStep crates (applyBatchFrom crates count rt peer witnesses).2 ↔ UnbrokenBatch crates rt.chain witnesses := by
  induction witnesses generalizing count rt with
  | nil => exact iff_of_true inStep trivial
  | cons d rest ih =>
    have absorbs := receive_absorbs crates d rt peer
    have exactly := absorbs_exact free anchored inStep absorbs
    have answered : (receiveRemoteWitness crates d.1 rt d.2 peer).1.isOk = _ := receive_ok
    simp only [applyBatchFrom,UnbrokenBatch]
    cases result : receiveRemoteWitness crates d.1 rt d.2 peer with
    | mk outcome next =>
      rw [result] at absorbs exactly answered
      cases outcome with
      | error e =>
        have stopped : (tryAppend crates d.1 rt.chain d.2).1.isOk = false := answered.symm
        simp only [stopped]
        rw [exactly]
        simp
      | ok outcome =>
        have onward : (tryAppend crates d.1 rt.chain d.2).1.isOk = true := answered.symm
        have after : Anchored crates next.chain := by rw [absorbs.chain]; exact deliver_anchored anchored
        have unbroken := ok_unbroken onward
        have later (count : Nat) : InStep crates (applyBatchFrom crates count next peer rest).2 ↔ _ :=
          ih after (exactly.mpr unbroken)
        rw [absorbs.chain] at later
        simp only [later,unbroken,onward,true_and,forall_const]

theorem reset_ok : (ChainAppend.reset crates io c).1 = .ok () ↔ c.persistence = .memory ∨ c.log = none ∨ io = .done := by
  unfold ChainAppend.reset
  dsimp only
  split
  · rename_i dir lines onDisk present
    cases io with
    | done => simp
    | failed reason left => simp [onDisk,present]
  · rename_i absent
    refine iff_of_true rfl ?_
    cases onDisk : c.persistence with
    | memory => exact .inl rfl
    | disk dir =>
      cases present : c.log with
      | none => exact .inr (.inl rfl)
      | some lines => exact absurd present (absent dir lines onDisk)

theorem empty_head (anchored : Anchored crates c) (empty : c.entries = []) : c.headHashB64 = zeroPrevHashB64 crates := by
  rw [anchored.head,empty]
  rfl

theorem grown_head (free : CollisionFree crates) (anchored : Anchored crates c) (grown : c.entries ≠ []) :
    c.headHashB64 ≠ zeroPrevHashB64 crates := by
  rw [anchored.head,headOf,tip_last (List.getLast?_eq_some_getLast grown)]
  exact free.fresh _

theorem reset_exact (free : CollisionFree crates) (anchored : Anchored crates rt.chain) (inStep : InStep crates rt) :
    InStep crates (DomainRuntime.reset crates io rt).2 ↔
      rt.chain.entries = [] ∨ rt.chain.persistence = .memory ∨ rt.chain.log = none ∨ io = .done := by
  have passed : (ChainAppend.reset crates io rt.chain).1 = .ok () ↔ _ := reset_ok
  obtain ⟨log,cleared⟩ := reset_memory crates io rt.chain
  unfold DomainRuntime.reset
  cases result : ChainAppend.reset crates io rt.chain with
  | mk outcome chain =>
    rw [result] at passed cleared
    have now : chain = ChainAppend.new crates rt.chain.persistence log := cleared
    subst now
    cases outcome with
    | ok _ => exact iff_of_true rfl (.inr (passed.mp rfl))
    | error e =>
      have refused : ¬ (rt.chain.persistence = .memory ∨ rt.chain.log = none ∨ io = .done) :=
        fun fine => by cases passed.mpr fine
      simp only [refused,or_false]
      constructor
      · intro after
        by_contra grown
        have cached : rt.projection.chainHeadB64 = rt.chain.headHashB64 := congrArg DomainStateView.chainHeadB64 inStep
        have shown : rt.projection.chainHeadB64 = zeroPrevHashB64 crates := congrArg DomainStateView.chainHeadB64 after
        exact grown_head free anchored grown (cached.symm.trans shown)
      · intro empty
        have head := empty_head anchored empty
        rw [InStep,refreshed,empty,head] at inStep
        exact inStep

theorem bootstrap_inStep (free : CollisionFree crates) (anchored : Anchored crates rt.chain) (inStep : InStep crates rt) :
    InStep crates (bootstrapGenesis crates io identifier now rt display endpoints).2 := by
  unfold bootstrapGenesis
  dsimp only
  split
  · have after : InStep crates (appendLocalGesture crates io identifier now rt _ _).2 :=
      append_inStep free anchored inStep
        (.admitPeer rt.localDeviceId display (crates.encode (crates.verifyingKey rt.signingKey).bytes) endpoints) endpoints
    split
    · rename_i failed
      rw [failed] at after
      exact after
    · rename_i witness outcome next passed
      rw [passed] at after
      exact after
  · exact inStep

theorem step_inStep (free : CollisionFree crates) (anchored : Anchored crates rt.chain) (inStep : InStep crates rt)
    (call : Call) : InStep crates (step crates rt call) ↔ Sound crates rt call := by
  cases call with
  | reset io => exact reset_exact free anchored inStep
  | appendLocalGesture io identifier now op endpoints => exact iff_of_true (append_inStep free anchored inStep op endpoints) trivial
  | receiveRemoteWitness io witness peer =>
    exact absorbs_exact free anchored inStep (receive_absorbs crates (io,witness) rt peer)
  | applyResponseBatch witnesses peer => exact batch_exact free anchored inStep
  | bootstrapGenesis io identifier now display endpoints => exact iff_of_true (bootstrap_inStep free anchored inStep) trivial

theorem batch_reachable (reachable : Reachable crates rt.chain) :
    Reachable crates (applyBatchFrom crates count rt peer witnesses).2.chain := by
  induction witnesses generalizing count rt with
  | nil => exact reachable
  | cons d rest ih =>
    have absorbs := receive_absorbs crates d rt peer
    have after : Reachable crates (receiveRemoteWitness crates d.1 rt d.2 peer).2.chain := by
      rw [absorbs.chain]; exact .delivered reachable
    simp only [applyBatchFrom]
    cases result : receiveRemoteWitness crates d.1 rt d.2 peer with
    | mk outcome next =>
      rw [result] at after
      cases outcome with
      | error e => exact after
      | ok outcome => exact ih after

theorem append_reachable (reachable : Reachable crates rt.chain) (op : DomainStateOp) (endpoints : List NetworkEndpoint) :
    Reachable crates (appendLocalGesture crates io identifier now rt op endpoints).2.chain := by
  rw [(append_absorbs crates io identifier now rt op endpoints).chain]
  exact .delivered reachable

theorem step_reachable (rt : DomainWitnessRuntime) (call : Call) (reachable : Reachable crates rt.chain) :
    Reachable crates (step crates rt call).chain := by
  cases call with
  | reset io =>
    have chain : (step crates rt (.reset io)).chain = (ChainAppend.reset crates io rt.chain).2 := by
      simp only [step,DomainRuntime.reset]
      split
      · rename_i failed
        rw [failed]
      · rename_i passed
        rw [passed]
        rfl
    rw [chain]
    exact .cleared reachable
  | appendLocalGesture io identifier now op endpoints => exact append_reachable reachable op endpoints
  | receiveRemoteWitness io witness peer =>
    rw [step,(receive_absorbs crates (io,witness) rt peer).chain]
    exact .delivered reachable
  | applyResponseBatch witnesses peer => exact batch_reachable reachable
  | bootstrapGenesis io identifier now display endpoints =>
    simp only [step,bootstrapGenesis]
    split
    · have after : Reachable crates (appendLocalGesture crates io identifier now rt _ _).2.chain :=
        append_reachable reachable
          (.admitPeer rt.localDeviceId display (crates.encode (crates.verifyingKey rt.signingKey).bytes) endpoints) endpoints
      split
      · rename_i failed
        rw [failed] at after
        exact after
      · rename_i witness outcome next passed
        rw [passed] at after
        exact after
    · exact reachable

-- A fresh runtime shows the right head unless the chain is still empty.
theorem new_exact (documented : Documented crates.toCrates) (anchored : Anchored crates c) :
    InStep crates (DomainRuntime.new crates c key device) ↔ c.entries ≠ [] := by
  constructor
  · intro inStep empty
    have shown := congrArg DomainStateView.chainHeadB64 inStep
    simp only [DomainRuntime.new,refreshed,projectChain,empty,List.getLast?_nil,empty_head anchored empty] at shown
    exact documented.zero_hash_shown shown.symm
  · intro grown
    have last := List.getLast?_eq_some_getLast grown
    have head : c.headHashB64 = canonicalHashB64 crates (c.entries.getLast grown) := by
      rw [anchored.head,headOf,tip_last last]
    simp only [InStep,DomainRuntime.new,refreshed,projectChain,last,head]

theorem run_reachable (reachable : Reachable crates rt.chain) (calls : List Call) :
    Reachable crates (run (step crates) rt calls).chain := by
  induction calls generalizing rt with
  | nil => exact reachable
  | cons call rest ih => exact ih (step_reachable rt call reachable)

theorem projection_exactly (documented : Documented crates.toCrates) (free : CollisionFree crates)
    (reachable : Reachable crates c) (key : SigningKey) (device : String) (calls : List Call) :
    Throughout (step crates) (InStep crates) (DomainRuntime.new crates c key device) calls ↔
      c.entries ≠ [] ∧ Guarded (step crates) (Sound crates) (DomainRuntime.new crates c key device) calls := by
  have start : InStep crates (DomainRuntime.new crates c key device) ↔ c.entries ≠ [] :=
    new_exact documented (reachable_anchored reachable)
  by_cases grown : c.entries = []
  · refine iff_of_false ?_ fun both => both.1 grown
    intro held
    exact start.mp (throughout_start held) grown
  · have sides : Guarded (step crates) (fun rt _ => Anchored crates rt.chain) (DomainRuntime.new crates c key device) calls := by
      apply guarded_prefixes
      intro before call after _
      exact reachable_anchored (run_reachable reachable before)
    have exactly : Throughout (step crates) (InStep crates) (DomainRuntime.new crates c key device) calls ↔
        Guarded (step crates) (Sound crates) (DomainRuntime.new crates c key device) calls :=
      throughout_under _ (fun rt call inStep anchored => step_inStep free anchored inStep call) (start.mpr grown) sides
    rw [exactly]
    exact ⟨fun met => ⟨grown,met⟩,fun both => both.2⟩

-- A founded chain, and a witness the founder signs: observers see both.
theorem founded_in_step : Reachable domainLibrary (foundedChain domainLibrary .memory none) ∧
    Throughout (step domainLibrary) (InStep domainLibrary)
      (DomainRuntime.new domainLibrary (foundedChain domainLibrary .memory none) founder "founder")
      [.receiveRemoteWitness .done (gesture domainLibrary "w1" 1) "peer"] := by
  have reachable : Reachable domainLibrary (foundedChain domainLibrary .memory none) :=
    foundedChain_reachable domainLibrary_documented
  refine ⟨reachable,(projection_exactly domainLibrary_documented domainLibrary_free reachable founder "founder" _).mpr ⟨?_,?_,trivial⟩⟩
  · simp [foundedChain]
  · exact gesture_unbroken rfl

-- A runtime over an empty chain shows no head at all, where the next witness will name
-- the zero hash.
theorem empty_chain_shows_nothing : ¬ ∀ (crates : DomainCrates),
    Documented crates.toCrates → Ideal crates.toCrates → CollisionFree crates →
    ∀ c,Reachable crates c → ∀ key device calls,InStep crates (run (step crates) (DomainRuntime.new crates c key device) calls) := by
  intro always
  have shown := always domainLibrary domainLibrary_documented domainLibrary_ideal domainLibrary_free
    (ChainAppend.new domainLibrary .memory none) .created founder "founder" []
  exact (new_exact domainLibrary_documented new_anchored).mp shown rfl

end EvoCore.ProjectionCache
