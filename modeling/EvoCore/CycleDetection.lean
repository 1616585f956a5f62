import EvoCore.PlanCycles

namespace EvoCore.PlanRegistry
open Runs Tables Plans Chains Relation

variable {plans : Table PlanId Plan} {s : Search} {node : PlanId} {chain : List PlanId}

theorem visit_circuit (searching : Searching plans s) (pending : ∀ last ∈ s.stack.getLast?,nextPlanOf plans last = some node)
    (found : s.visit plans node rest = .error chain) : Circuit (NextEdge plans) chain := by
  unfold Search.visit at found
  split at found
  · cases found
  · rename_i target chained
    simp only at found
    split at found
    · cases found
    · split at found
      · rename_i inside
        cases Except.error.inj found
        have member : target ∈ s.stack++[node] := by
          rw [searching.onStack] at inside
          simpa [or_comm] using inside
        obtain ⟨early,late,shape,fresh⟩ := List.eq_append_cons_of_mem member
        have path : (s.stack++[node]).IsChain (NextEdge plans) := by
          refine List.IsChain.imp (fun a b edge => (nextPlanOf_edge a b).mp edge) ?_
          refine List.isChain_append.mpr ⟨searching.path,List.isChain_singleton node,?_⟩
          intro last final first same
          cases Option.mem_some_iff.mp same
          exact pending last final
        have cut : (s.stack++[node]).dropWhile (· ≠ target) = target::late := by
          rw [shape,List.dropWhile_append_of_pos]
          · simp
          · intro id inside
            have other : id ≠ target := fun same => fresh (same ▸ inside)
            simpa using other
        have final : (target::late).getLast? = some node := by
          rw [← List.getLast?_append_of_ne_nil early (List.cons_ne_nil target late),← shape]
          simp
        rw [cut]
        refine ⟨?_,by simp,List.getLast?_append_of_ne_nil (target::late) (List.cons_ne_nil target [])⟩
        rw [shape] at path
        refine List.isChain_append.mpr ⟨(List.isChain_append.mp path).2.1,List.isChain_singleton target,?_⟩
        intro last ends first same
        cases Option.mem_some_iff.mp same
        rw [final] at ends
        cases Option.mem_some_iff.mp ends
        exact (nextPlanOf_edge node target).mp chained
      · split at found <;> cases found

theorem advance_circuit (searching : Searching plans s) (found : s.advance plans = .error chain) : Circuit (NextEdge plans) chain := by
  unfold Search.advance at found
  rcases searching.work with ⟨node,work,white,pending⟩ | ⟨work,_⟩
  · rw [work] at found
    simp only [white] at found
    exact visit_circuit searching pending found
  · rw [work,markers] at found
    cases shape : s.stack.reverse with
    | nil =>
      rw [shape] at found
      cases found
    | cons id rest =>
      rw [shape] at found
      cases found

theorem runs_circuit {rounds : Nat} (searching : Searching plans s) (found : Search.runs plans rounds s = .error chain) :
    Circuit (NextEdge plans) chain := by
  induction rounds generalizing s with
  | zero => cases found
  | succ rounds ih =>
    unfold Search.runs at found
    cases advanced : s.advance plans with
    | error report =>
      rw [advanced] at found
      cases Except.error.inj found
      exact advance_circuit searching advanced
    | ok after =>
      rw [advanced] at found
      by_cases idle : s.work = []
      · have rests : s.advance plans = .ok s := by simp only [Search.advance,idle]
        cases Except.ok.inj (rests.symm.trans advanced)
        exact ih searching found
      · exact ih (advance_searching searching idle advanced).1 found

-- Every loop of the search ends by itself, with a chain or with an empty work list.
def Drained (plans : Table PlanId Plan) : List PlanId → Search → Prop
  | [],_ => True
  | root::roots,s =>
    if get s.colour root = some .white then
      match Search.runs plans (2*plans.keys.length+1) {s with work := [(root,false)]} with
      | .error _ => True
      | .ok after => after.work = [] ∧ Drained plans roots after
    else Drained plans roots s

theorem searchRoots_drained {roots : List PlanId} (searching : Searching plans s) (idle : s.work = []) : Drained plans roots s ∧
    ∀ chain,searchRoots plans roots s = some chain → Circuit (NextEdge plans) chain := by
  induction roots generalizing s with
  | nil =>
    refine ⟨trivial,?_⟩
    intro chain found
    cases found
  | cons root roots ih =>
    unfold Drained searchRoots
    split
    · rename_i white
      have start := root_searching searching idle white
      cases ran : Search.runs plans (2*plans.keys.length+1) {s with work := [(root,false)]} with
      | error report =>
        refine ⟨trivial,?_⟩
        intro chain found
        cases Option.some.inj found
        exact runs_circuit start ran
      | ok after =>
        have bound := whites_card plans s
        obtain ⟨final,_,idle_,_⟩ := root_seen searching idle white (by omega) ran
        exact ⟨⟨idle_,(ih final idle_).1⟩,(ih final idle_).2⟩
    · exact ih searching idle

section
variable {δ τ ω : Type} [DecidableEq δ] {chrono : Appointments.Chrono δ τ ω} {book : PlanBook}

-- A book as the engine comes up with it, before or after its plans are read.
def Opened (book : PlanBook) : Prop := book.plans = ∅ ∨ ∃ (found : PlanBook) (first : List PlanId),found.rehydrate first = .ok book

theorem opened_free (opened : Opened book) : NoCycle (NextEdge book.plans) := by
  rcases opened with empty | ⟨found,first,loaded⟩
  · intro id cycle
    obtain ⟨_,⟨plan,there,_⟩,_⟩ := TransGen.head'_iff.mp cycle
    rw [empty,get_empty] at there
    cases there
  · unfold PlanBook.rehydrate at loaded
    simp only at loaded
    split at loaded
    · cases loaded
    · rename_i clean
      cases Except.ok.inj loaded
      exact detectCycle_free clean

-- The search ends, it finds a chain exactly where the plans have a cycle, and what it finds is one.
theorem cycle_detection_exact (plans : Table PlanId Plan) (first : List PlanId) (chrono : Appointments.Chrono δ τ ω)
    (calls : List PlanBook.Call) (opened : Opened book) :
    Drained plans (hashOrder plans first) ⟨insertAll ∅ plans.keys .white,[],[],[]⟩ ∧
    ((detectCycle plans first).isSome ↔ ¬ NoCycle (NextEdge plans)) ∧
    (∀ chain,detectCycle plans first = some chain → Circuit (NextEdge plans) chain) ∧
    Throughout (PlanBook.step chrono) (fun book => NoCycle (NextEdge book.plans)) book calls := by
  obtain ⟨drained,circuits⟩ := @searchRoots_drained _ _ (hashOrder plans first) (blank_searching plans) rfl
  refine ⟨drained,?_,circuits,calls_free chrono (opened_free opened) calls⟩
  constructor
  · intro found
    obtain ⟨chain,found⟩ := Option.isSome_iff_exists.mp found
    exact (circuits chain found).cyclic
  · intro cyclic
    by_contra clean
    exact cyclic (detectCycle_free (Option.not_isSome_iff_eq_none.mp clean))

end

def dawn : Plan := ⟨"dawn","Dawn",.userCommand,false,[⟨.untilCompletion⟩],.nextPlan "dusk",0⟩
def dusk : Plan := ⟨"dusk","Dusk",.userCommand,false,[⟨.untilCompletion⟩],.nextPlan "dawn",0⟩

def ring : Table PlanId Plan := ((∅ : Table PlanId Plan).insert "dawn" dawn).insert "dusk" dusk

theorem ring_detected :
    detectCycle ring ["dawn"] = some ["dawn","dusk","dawn"] ∧ Circuit (NextEdge ring) ["dawn","dusk","dawn"] ∧
    NoCycle (NextEdge (run (PlanBook.step Appointments.noCalendar) freshBook
      [.register dawn [] ⟨0,0⟩ true true,.register dusk [] ⟨0,0⟩ true true]).plans) := by
  have found : detectCycle ring ["dawn"] = some ["dawn","dusk","dawn"] := by decide
  obtain ⟨_,_,circuits,free⟩ := @cycle_detection_exact _ _ _ _ freshBook ring ["dawn"] Appointments.noCalendar
    [.register dawn [] ⟨0,0⟩ true true,.register dusk [] ⟨0,0⟩ true true] (.inl rfl)
  exact ⟨found,circuits _ found,throughout_final free⟩

end EvoCore.PlanRegistry
