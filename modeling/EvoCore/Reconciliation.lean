import EvoCore.Runs
import EvoCore.Tables

namespace EvoCore.Reconciliation
open Runs

-- `β` are payload bytes, `ν` JSON values, `ε` the errors of the composer and the warden.
variable {β ν ε : Type}

structure SerdeJson (β ν : Type) where
  fromSlice : β → Option ν
  toVec : ν → Option β
  null : ν
  empty : β

def SerdeJson.decode (json : SerdeJson β ν) (payload : β) : ν := (json.fromSlice payload).getD json.null

def SerdeJson.encode (json : SerdeJson β ν) (state : ν) : β := (json.toVec state).getD json.empty

inductive Happening (ν ε : Type) where
  | reconciliationApplied (generation : Nat) (appliedState : ν)
  | reconciliationFailed (generation : Nat) (error : ε)
  deriving DecidableEq,Repr

structure PersistedReconciliationState (ν : Type) where
  generation : Nat
  appliedState : ν
  deriving DecidableEq,Repr

-- A compose-and-apply cycle between two of its awaits, with the locals it still needs.
inductive Stage (β ν ε : Type) where
  | begun
  | snapshotted (currentGen : Nat) (priorState : Option ν)
  | composeFailed (nextGen : Nat) (error : ε)
  | composed (currentGen : Nat) (priorState : Option ν) (payload : β)
  | refused (nextGen : Nat) (priorState : Option ν) (error : ε)
  | rollingBack (priorState : Option ν)
  | applied (nextGen : Nat) (payload : β)
  | persisted (nextGen : Nat) (appliedState : ν)
  | updated (nextGen : Nat) (appliedState : ν)
  | finished
  deriving DecidableEq,Repr

-- The runtime of one pair, its row, what the warden last accepted, and the cycles under way.
structure Pair (β ν ε : Type) where
  generation : Nat
  lastApplied : Option ν
  row : Option (PersistedReconciliationState ν)
  accepted : Option β
  happenings : List (Happening ν ε)
  cycles : List (Stage β ν ε)

-- What the other side of an await answers; a step looks at its own field.
structure Reply (β ε : Type) where
  compose : Except ε β
  courseCorrect : Except ε Unit
  stored : Bool
  emitted : Bool

def nextGen (currentGen : Nat) : Nat := (currentGen+1) % 2^64

def emit (pair : Pair β ν ε) (reply : Reply β ε) (happening : Happening ν ε) : Pair β ν ε :=
  if reply.emitted then { pair with happenings := pair.happenings++[happening] } else pair

def courseCorrect (pair : Pair β ν ε) (reply : Reply β ε) (payload : β) : Pair β ν ε :=
  match reply.courseCorrect with
  | .ok _ => { pair with accepted := some payload }
  | .error _ => pair

def cycleStep (json : SerdeJson β ν) (pair : Pair β ν ε) (reply : Reply β ε) : Stage β ν ε → Pair β ν ε × Stage β ν ε
  | .begun => (pair,.snapshotted pair.generation pair.lastApplied)
  | .snapshotted currentGen priorState =>
    match reply.compose with
    | .ok payload => (pair,.composed currentGen priorState payload)
    | .error e => (pair,.composeFailed (nextGen currentGen) e)
  | .composeFailed gen e => (emit pair reply (.reconciliationFailed gen e),.finished)
  | .composed currentGen priorState payload =>
    match reply.courseCorrect with
    | .ok _ => (courseCorrect pair reply payload,.applied (nextGen currentGen) payload)
    | .error e => (courseCorrect pair reply payload,.refused (nextGen currentGen) priorState e)
  | .refused gen priorState e => (emit pair reply (.reconciliationFailed gen e),.rollingBack priorState)
  | .rollingBack priorState =>
    match priorState with
    | some state => (courseCorrect pair reply (json.encode state),.finished)
    | none => (pair,.finished)
  | .applied gen payload =>
    let appliedState := json.decode payload
    (if reply.stored then { pair with row := some ⟨gen,appliedState⟩ } else pair,.persisted gen appliedState)
  | .persisted gen appliedState => ({ pair with generation := gen,lastApplied := some appliedState },.updated gen appliedState)
  | .updated gen appliedState => (emit pair reply (.reconciliationApplied gen appliedState),.finished)
  | .finished => (pair,.finished)

-- A trigger of the worker or a `reconcile_now`, and the next step of a cycle.
inductive Action (β ε : Type) where
  | runComposeApply
  | advance (i : Nat) (reply : Reply β ε)

def step (json : SerdeJson β ν) (pair : Pair β ν ε) : Action β ε → Pair β ν ε
  | .runComposeApply => { pair with cycles := pair.cycles++[Stage.begun] }
  | .advance i reply =>
    match pair.cycles[i]? with
    | none => pair
    | some stage => { (cycleStep json pair reply stage).1 with cycles := pair.cycles.set i (cycleStep json pair reply stage).2 }

def appliedGenerations (happenings : List (Happening ν ε)) : List Nat :=
  happenings.filterMap fun
    | .reconciliationApplied generation _ => some generation
    | .reconciliationFailed _ _ => none

def RowAgrees (pair : Pair β ν ε) : Prop := pair.row = pair.lastApplied.map fun state => ⟨pair.generation,state⟩

-- Memory, row and warden denote one state: what the warden took parses to what memory holds.
def Agrees (json : SerdeJson β ν) (pair : Pair β ν ε) : Prop :=
  RowAgrees pair ∧ pair.accepted.map json.fromSlice = pair.lastApplied.map some

def Stage.isLate : Stage β ν ε → Bool
  | .refused _ _ _ | .rollingBack _ | .applied _ _ | .persisted _ _ | .updated _ _ => true
  | _ => false

def taken (reply : Reply β ε) : Bool := reply.courseCorrect.isOk

-- A cycle goes to the warden with a snapshot that is still current and while no other is past that
-- point; what the warden takes is JSON and its row is stored.
def ClearStage (json : SerdeJson β ν) (pair : Pair β ν ε) (reply : Reply β ε) : Stage β ν ε → Prop
  | .composed currentGen _ payload => currentGen = pair.generation ∧ currentGen+1 < 2^64 ∧
      (∀ other ∈ pair.cycles,other.isLate = false) ∧ (taken reply = true → (json.fromSlice payload).isSome = true)
  | .applied _ _ => reply.stored = true
  | _ => True

def Clear (json : SerdeJson β ν) (pair : Pair β ν ε) : Action β ε → Prop
  | .runComposeApply => True
  | .advance i reply => ∀ stage ∈ pair.cycles[i]?,ClearStage json pair reply stage

section Cycles

variable {json : SerdeJson β ν} {pair : Pair β ν ε} {reply : Reply β ε} {before after : Stage β ν ε}

def Stage.snapshot : Stage β ν ε → Option (Nat × Option ν)
  | .snapshotted currentGen priorState | .composed currentGen priorState _ => some (currentGen,priorState)
  | _ => none

def Settles (json : SerdeJson β ν) (pair : Pair β ν ε) : Stage β ν ε → Prop
  | .refused _ priorState _ | .rollingBack priorState => Agrees json pair ∧ priorState = pair.lastApplied
  | .applied gen payload => gen = pair.generation+1 ∧ RowAgrees pair ∧ pair.accepted = some payload ∧ (json.fromSlice payload).isSome = true
  | .persisted gen state => gen = pair.generation+1 ∧ pair.row = some ⟨gen,state⟩ ∧ pair.accepted.map json.fromSlice = some (some state)
  | .updated gen state => Agrees json pair ∧ gen = pair.generation ∧ pair.lastApplied = some state ∧
      ∀ g ∈ appliedGenerations pair.happenings,g < gen
  | _ => True

structure Kept (json : SerdeJson β ν) (pair : Pair β ν ε) : Prop where
  snapshots : ∀ stage ∈ pair.cycles,∀ gen prior,stage.snapshot = some (gen,prior) →
    gen ≤ pair.generation ∧ (gen = pair.generation → prior = pair.lastApplied)
  alone : ∀ (i j : Nat) (one other : Stage β ν ε),pair.cycles[i]? = some one → pair.cycles[j]? = some other → one.isLate = true → other.isLate = true → i = j
  settles : ∀ stage ∈ pair.cycles,Settles json pair stage
  steady : (∀ stage ∈ pair.cycles,stage.isLate = false) → Agrees json pair
  ascending : (appliedGenerations pair.happenings).Pairwise (· < ·)
  reached : ∀ g ∈ appliedGenerations pair.happenings,g ≤ pair.generation

theorem settles_early (early : stage.isLate = false) : Settles json pair stage := by
  cases stage <;> trivial

theorem mem_set {cycles : List (Stage β ν ε)} (member : stage ∈ cycles.set i after) : stage = after ∨ ∃ j,j ≠ i ∧ cycles[j]? = some stage := by
  obtain ⟨j,there⟩ := List.mem_iff_getElem?.mp member
  rw [List.getElem?_set] at there
  split at there
  · split at there
    · exact .inl (Option.some.inj there).symm
    · cases there
  · rename_i apart
    exact .inr ⟨j,Ne.symm apart,there⟩

theorem set_member {cycles : List (Stage β ν ε)} (there : cycles[i]? = some before) : after ∈ cycles.set i after := by
  obtain ⟨bound,-⟩ := List.getElem?_eq_some_iff.mp there
  exact List.mem_set bound _

theorem alone_set (kept : Kept json pair) (there : pair.cycles[i]? = some before)
    (only : after.isLate = true → ∀ (j : Nat) (stage : Stage β ν ε),j ≠ i → pair.cycles[j]? = some stage → stage.isLate = false) :
    ∀ (j k : Nat) (one other : Stage β ν ε),(pair.cycles.set i after)[j]? = some one → (pair.cycles.set i after)[k]? = some other →
      one.isLate = true → other.isLate = true → j = k := by
  obtain ⟨bound,-⟩ := List.getElem?_eq_some_iff.mp there
  intro j k one other atJ atK lateJ lateK
  by_cases mineJ : j = i
  · subst mineJ
    rw [List.getElem?_set_self bound] at atJ
    cases atJ
    by_cases mineK : k = j
    · exact mineK.symm
    · rw [List.getElem?_set_ne (Ne.symm mineK)] at atK
      rw [only lateJ k other mineK atK] at lateK
      cases lateK
  · rw [List.getElem?_set_ne (Ne.symm mineJ)] at atJ
    by_cases mineK : k = i
    · subst mineK
      rw [List.getElem?_set_self bound] at atK
      cases atK
      rw [only lateK j one mineJ atJ] at lateJ
      cases lateJ
    · rw [List.getElem?_set_ne (Ne.symm mineK)] at atK
      exact kept.alone j k one other atJ atK lateJ lateK

theorem kept_set {next : Pair β ν ε} (kept : Kept json pair) (there : pair.cycles[i]? = some before)
    (cycles : next.cycles = pair.cycles.set i after) (grown : pair.generation ≤ next.generation)
    (still : next.generation = pair.generation → next.lastApplied = pair.lastApplied)
    (taken : ∀ gen prior,after.snapshot = some (gen,prior) → gen ≤ next.generation ∧ (gen = next.generation → prior = next.lastApplied))
    (only : after.isLate = true → ∀ (j : Nat) (stage : Stage β ν ε),j ≠ i → pair.cycles[j]? = some stage → stage.isLate = false)
    (frame : ∀ (j : Nat) (stage : Stage β ν ε),j ≠ i → pair.cycles[j]? = some stage → Settles json next stage)
    (settles : Settles json next after) (steady : (∀ stage ∈ next.cycles,stage.isLate = false) → Agrees json next)
    (ascending : (appliedGenerations next.happenings).Pairwise (· < ·))
    (reached : ∀ g ∈ appliedGenerations next.happenings,g ≤ next.generation) : Kept json next := by
  refine ⟨?_,?_,?_,steady,ascending,reached⟩
  · intro stage member gen prior snapshot
    rw [cycles] at member
    rcases mem_set member with rfl | ⟨j,apart,found⟩
    · exact taken gen prior snapshot
    · obtain ⟨bound,current⟩ := kept.snapshots stage (List.mem_of_getElem? found) gen prior snapshot
      refine ⟨Nat.le_trans bound grown,fun same => ?_⟩
      have equal : next.generation = pair.generation := by omega
      rw [still equal]
      exact current (same.trans equal)
  · rw [cycles]
    exact alone_set kept there only
  · intro stage member
    rw [cycles] at member
    rcases mem_set member with rfl | ⟨j,apart,found⟩
    · exact settles
    · exact frame j stage apart found

theorem others_early (kept : Kept json pair) (there : pair.cycles[i]? = some before) (late : before.isLate = true) :
    ∀ (j : Nat) (stage : Stage β ν ε),j ≠ i → pair.cycles[j]? = some stage → stage.isLate = false := by
  intro j stage apart found
  cases other : stage.isLate with
  | false => rfl
  | true => exact absurd (kept.alone j i stage before found there other late) apart

theorem settles_same {next : Pair β ν ε} (stage : Stage β ν ε) (generation : next.generation = pair.generation)
    (lastApplied : next.lastApplied = pair.lastApplied)
    (row : next.row = pair.row) (accepted : next.accepted = pair.accepted)
    (happenings : appliedGenerations next.happenings = appliedGenerations pair.happenings) (settles : Settles json pair stage) :
    Settles json next stage := by
  cases stage <;> simp only [Settles,Agrees,RowAgrees,generation,lastApplied,row,accepted,happenings] at settles ⊢ <;> exact settles

theorem kept_early {next : Pair β ν ε} (kept : Kept json pair) (there : pair.cycles[i]? = some before)
    (cycles : next.cycles = pair.cycles.set i after) (earlyBefore : before.isLate = false) (earlyAfter : after.isLate = false)
    (generation : next.generation = pair.generation) (lastApplied : next.lastApplied = pair.lastApplied)
    (row : next.row = pair.row) (accepted : next.accepted = pair.accepted)
    (happenings : appliedGenerations next.happenings = appliedGenerations pair.happenings)
    (taken : ∀ gen prior,after.snapshot = some (gen,prior) →
      gen ≤ pair.generation ∧ (gen = pair.generation → prior = pair.lastApplied)) : Kept json next := by
  refine kept_set kept there cycles generation.ge (fun _ => lastApplied) ?_ ?_ ?_ (settles_early earlyAfter) ?_ ?_ ?_
  · rw [generation,lastApplied]
    exact taken
  · intro late
    rw [earlyAfter] at late
    cases late
  · intro j stage _ found
    exact settles_same stage generation lastApplied row accepted happenings (kept.settles stage (List.mem_of_getElem? found))
  · intro none
    have steady := kept.steady fun stage member => by
      obtain ⟨j,found⟩ := List.mem_iff_getElem?.mp member
      by_cases mine : j = i
      · subst mine
        rw [there] at found
        cases found
        exact earlyBefore
      · refine none stage ?_
        rw [cycles]
        exact List.mem_of_getElem? (by rw [List.getElem?_set_ne (Ne.symm mine),found] : (pair.cycles.set i after)[j]? = some stage)
    simpa only [Agrees,RowAgrees,generation,lastApplied,row,accepted] using steady
  · rw [happenings]
    exact kept.ascending
  · rw [happenings,generation]
    exact kept.reached

theorem kept_late {next : Pair β ν ε} (kept : Kept json pair) (there : pair.cycles[i]? = some before)
    (cycles : next.cycles = pair.cycles.set i after) (late : before.isLate = true) (grown : pair.generation ≤ next.generation)
    (still : next.generation = pair.generation → next.lastApplied = pair.lastApplied) (unread : after.snapshot = none)
    (settles : Settles json next after) (agrees : after.isLate = false → Agrees json next)
    (ascending : (appliedGenerations next.happenings).Pairwise (· < ·))
    (reached : ∀ g ∈ appliedGenerations next.happenings,g ≤ next.generation) : Kept json next := by
  have others := others_early kept there late
  refine kept_set kept there cycles grown still ?_ (fun _ => others) ?_ settles ?_ ascending reached
  · intro gen prior snapshot
    rw [unread] at snapshot
    cases snapshot
  · exact fun j stage apart found => settles_early (others j stage apart found)
  · intro none
    apply agrees
    apply none
    rw [cycles]
    exact set_member there

theorem emit_failed (pair : Pair β ν ε) (reply : Reply β ε) (gen : Nat) (e : ε) :
    appliedGenerations (emit pair reply (.reconciliationFailed gen e)).happenings = appliedGenerations pair.happenings := by
  unfold emit
  split
  · simp [appliedGenerations]
  · rfl

theorem emit_core (pair : Pair β ν ε) (reply : Reply β ε) (happening : Happening ν ε) :
    (emit pair reply happening).generation = pair.generation ∧ (emit pair reply happening).lastApplied = pair.lastApplied ∧
      (emit pair reply happening).row = pair.row ∧ (emit pair reply happening).accepted = pair.accepted := by
  unfold emit
  split <;> exact ⟨rfl,rfl,rfl,rfl⟩

theorem apply_kept (kept : Kept json pair) (there : pair.cycles[i]? = some (.composed currentGen priorState payload))
    (clear : ClearStage json pair reply (.composed currentGen priorState payload)) :
    Kept json { (cycleStep json pair reply (.composed currentGen priorState payload)).1 with
      cycles := pair.cycles.set i (cycleStep json pair reply (.composed currentGen priorState payload)).2 } := by
  obtain ⟨current,fits,none,parses⟩ := clear
  have agrees := kept.steady none
  have early : ∀ (j : Nat) (stage : Stage β ν ε),j ≠ i → pair.cycles[j]? = some stage → stage.isLate = false :=
    fun j stage _ found => none stage (List.mem_of_getElem? found)
  have prior : priorState = pair.lastApplied := (kept.snapshots _ (List.mem_of_getElem? there) _ _ rfl).2 current
  have gen : nextGen currentGen = pair.generation+1 := by
    rw [nextGen,Nat.mod_eq_of_lt fits,current]
  cases reply with
  | mk compose accepts stored emitted =>
    cases accepts with
    | ok _ =>
      refine kept_set kept there rfl (Nat.le_refl _) (fun _ => rfl) (fun _ _ absurdity => nomatch absurdity) (fun _ => early)
        (fun j stage apart found => settles_early (early j stage apart found)) ⟨gen,agrees.1,rfl,parses rfl⟩ ?_ kept.ascending kept.reached
      intro calm
      exact absurd (calm _ (set_member there)) Bool.noConfusion
    | error e =>
      refine kept_set kept there rfl (Nat.le_refl _) (fun _ => rfl) (fun _ _ absurdity => nomatch absurdity) (fun _ => early)
        (fun j stage apart found => settles_early (early j stage apart found)) ⟨agrees,prior⟩ ?_ kept.ascending kept.reached
      exact fun _ => agrees

theorem announce_kept (kept : Kept json pair) (there : pair.cycles[i]? = some (.updated gen appliedState)) :
    Kept json { emit pair reply (.reconciliationApplied gen appliedState) with cycles := pair.cycles.set i .finished } := by
  obtain ⟨agrees,here,-,above⟩ : Agrees json pair ∧ gen = pair.generation ∧ _ ∧ ∀ g ∈ appliedGenerations pair.happenings,g < gen :=
    kept.settles _ (List.mem_of_getElem? there)
  cases reply with
  | mk compose accepts stored emitted =>
    cases emitted with
    | false =>
      exact kept_late kept there rfl rfl (Nat.le_refl _) (fun _ => rfl) rfl trivial (fun _ => agrees) kept.ascending kept.reached
    | true =>
      have told : appliedGenerations (pair.happenings++[Happening.reconciliationApplied gen appliedState]) =
          appliedGenerations pair.happenings++[gen] := by simp [appliedGenerations]
      refine kept_late kept there rfl rfl (Nat.le_refl _) (fun _ => rfl) rfl trivial (fun _ => agrees) ?_ ?_
      · simp only [emit,if_true,told,List.pairwise_append,List.pairwise_singleton,List.mem_singleton,true_and]
        exact ⟨kept.ascending,fun g member h same => by rw [same]; exact above g member⟩
      · simp only [emit,if_true,told,List.mem_append,List.mem_singleton]
        rintro g (member | rfl)
        · exact kept.reached g member
        · exact here.le

theorem encode_read (trips : ∀ value,(json.toVec value).bind json.fromSlice = some value) (value : ν) :
    json.fromSlice (json.encode value) = some value := by
  obtain ⟨text,printed,read⟩ := Option.bind_eq_some_iff.mp (trips value)
  rw [SerdeJson.encode,printed,Option.getD_some,read]

theorem advance_kept (trips : ∀ value,(json.toVec value).bind json.fromSlice = some value) (kept : Kept json pair)
    (there : pair.cycles[i]? = some before) (clear : ClearStage json pair reply before) :
    Kept json { (cycleStep json pair reply before).1 with cycles := pair.cycles.set i (cycleStep json pair reply before).2 } := by
  have settles := kept.settles _ (List.mem_of_getElem? there)
  cases before with
  | begun =>
    refine kept_early kept there rfl rfl rfl rfl rfl rfl rfl rfl ?_
    rintro gen prior ⟨⟩
    exact ⟨Nat.le_refl _,fun _ => rfl⟩
  | snapshotted currentGen priorState =>
    have taken := kept.snapshots _ (List.mem_of_getElem? there) currentGen priorState rfl
    cases reply with
    | mk compose accepts stored emitted =>
      cases compose with
      | ok payload =>
        refine kept_early kept there rfl rfl rfl rfl rfl rfl rfl rfl ?_
        rintro gen prior ⟨⟩
        exact taken
      | error e => exact kept_early kept there rfl rfl rfl rfl rfl rfl rfl rfl fun _ _ absurdity => nomatch absurdity
  | composeFailed gen e =>
    obtain ⟨generation,lastApplied,row,accepted⟩ := emit_core pair reply (.reconciliationFailed gen e)
    exact kept_early kept there rfl rfl rfl generation lastApplied row accepted (emit_failed pair reply gen e) fun _ _ absurdity => nomatch absurdity
  | composed currentGen priorState payload => exact apply_kept kept there clear
  | refused gen priorState e =>
    obtain ⟨generation,lastApplied,row,accepted⟩ := emit_core pair reply (.reconciliationFailed gen e)
    have happenings := emit_failed pair reply gen e
    refine kept_late kept there rfl rfl generation.ge (fun _ => lastApplied) rfl ?_ Bool.noConfusion ?_ ?_
    · exact settles_same (.rollingBack priorState) generation lastApplied row accepted happenings settles
    · simp only [cycleStep,happenings]
      exact kept.ascending
    · simp only [cycleStep,happenings,generation]
      exact kept.reached
  | rollingBack priorState =>
    obtain ⟨agrees,prior⟩ := settles
    cases priorState with
    | none => exact kept_late kept there rfl rfl (Nat.le_refl _) (fun _ => rfl) rfl trivial (fun _ => agrees) kept.ascending kept.reached
    | some state =>
      cases reply with
      | mk compose accepts stored emitted =>
        cases accepts with
        | ok _ =>
          refine kept_late kept there rfl rfl (Nat.le_refl _) (fun _ => rfl) rfl trivial (fun _ => ?_) kept.ascending kept.reached
          refine ⟨agrees.1,(congrArg some (encode_read trips state)).trans ?_⟩
          exact congrArg (Option.map some) prior
        | error e =>
          exact kept_late kept there rfl rfl (Nat.le_refl _) (fun _ => rfl) rfl trivial (fun _ => agrees) kept.ascending kept.reached
  | applied gen payload =>
    obtain ⟨follows,-,accepted,parses⟩ := settles
    obtain ⟨state,parsed⟩ := Option.isSome_iff_exists.mp parses
    have stored : reply.stored = true := clear
    have denoted : json.decode payload = state := by rw [SerdeJson.decode,parsed,Option.getD_some]
    simp only [cycleStep,stored,if_true,denoted]
    refine kept_late kept there rfl rfl (Nat.le_refl _) (fun _ => rfl) rfl ⟨follows,rfl,?_⟩ Bool.noConfusion kept.ascending kept.reached
    simp only [accepted,Option.map_some,parsed]
  | persisted gen appliedState =>
    obtain ⟨follows,row,accepted⟩ := settles
    refine kept_late kept there rfl rfl ?_ ?_ rfl ⟨⟨row,accepted⟩,rfl,rfl,?_⟩ Bool.noConfusion kept.ascending ?_
    · simp only [cycleStep,follows]
      omega
    · intro same
      simp only [cycleStep,follows] at same
      omega
    · intro g member
      have bound := kept.reached g member
      omega
    · intro g member
      have bound := kept.reached g member
      simp only [cycleStep,follows]
      omega
  | updated gen appliedState => exact announce_kept kept there
  | finished => exact kept_early kept there rfl rfl rfl rfl rfl rfl rfl rfl fun _ _ absurdity => nomatch absurdity

end Cycles

section Overlaps

instance (json : SerdeJson β ν) (pair : Pair β ν ε) (reply : Reply β ε) (stage : Stage β ν ε) : Decidable (ClearStage json pair reply stage) := by
  unfold ClearStage
  split <;> infer_instance

instance (json : SerdeJson β ν) (pair : Pair β ν ε) : DecidablePred (Clear json pair)
  | .runComposeApply => isTrue trivial
  | .advance i reply => inferInstanceAs (Decidable (∀ stage ∈ pair.cycles[i]?,ClearStage json pair reply stage))

def literals : SerdeJson String (Option Bool) where
  fromSlice s := if s = "true" then some (some true) else if s = "false" then some (some false) else if s = "null" then some none else none
  toVec
    | none => some "null"
    | some true => some "true"
    | some false => some "false"
  null := none
  empty := ""

theorem literals_read (value : Option Bool) : (literals.toVec value).bind literals.fromSlice = some value := by
  rcases value with _ | _ | _ <;> decide

def answers (payload : String) : Reply String String := ⟨.ok payload,.ok (),true,true⟩

def fails : Reply String String := ⟨.error "down",.error "down",true,true⟩

-- Two cycles overlap until one fails to compose; a third is refused by the warden and rolls back.
def orderly : List (Action String String) :=
  ([.runComposeApply,.runComposeApply,.advance 0 fails,.advance 1 fails,.advance 1 fails,.advance 1 fails] : List (Action _ _)) ++
  List.replicate 5 (Action.advance 0 (answers "true")) ++
  ([.runComposeApply,.advance 2 fails,.advance 2 (answers "false"),.advance 2 fails,.advance 2 fails,.advance 2 (answers "true")] : List (Action _ _))

-- Two cycles with one snapshot, each run to its end.
def repeated : List (Action String String) :=
  ([.runComposeApply,.runComposeApply,.advance 0 fails,.advance 1 fails] : List (Action _ _)) ++
  List.replicate 5 (Action.advance 0 (answers "true")) ++ List.replicate 5 (Action.advance 1 (answers "false"))

end Overlaps

end EvoCore.Reconciliation
