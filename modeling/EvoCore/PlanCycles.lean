import EvoCore.Chains
import EvoCore.PlanRegistry

namespace EvoCore.PlanRegistry
open Runs Tables Plans Chains Relation

-- The two kinds of edges along which a completion can lead to a fire.
def NextEdge (plans : Table PlanId Plan) (a b : PlanId) : Prop := ∃ plan,get plans a = some plan ∧ plan.onComplete = .nextPlan b

def TriggerEdge (plans : Table PlanId Plan) (a b : PlanId) : Prop := ∃ plan,get plans b = some plan ∧ plan.trigger = .planCompletion a

variable {plans : Table PlanId Plan} {s after : Search} {node : PlanId}

theorem nextPlanOf_edge (a b : PlanId) : nextPlanOf plans a = some b ↔ NextEdge plans a b := by
  unfold nextPlanOf NextEdge
  cases get plans a with
  | none => simp
  | some plan => cases chained : plan.onComplete <;> simp [chained]

def Done (plans : Table PlanId Plan) (s : Search) (id : PlanId) : Prop := get s.colour id = some .black ∨ get plans id = none

def markers (stack : List PlanId) : List (PlanId × Bool) := stack.reverse.map fun id => (id,true)

-- The grey plans are the path to the plan in hand; what is black is settled.
structure Searching (plans : Table PlanId Plan) (s : Search) : Prop where
  settled : Settled (NextEdge plans) (Done plans s)
  coloured : ∀ id,(get s.colour id).isSome ↔ (get plans id).isSome
  grey : ∀ id,id ∈ s.stack ↔ get s.colour id = some .grey
  onStack : s.onStack = s.stack.reverse
  path : s.stack.IsChain fun a b => nextPlanOf plans a = some b
  apart : s.stack.Nodup
  work : (∃ node,s.work = (node,false)::markers s.stack ∧ get s.colour node = some .white ∧
      ∀ last ∈ s.stack.getLast?,nextPlanOf plans last = some node) ∨
    (s.work = markers s.stack ∧ ∀ last ∈ s.stack.getLast?,∀ b,NextEdge plans last b → Done plans s b)

def whites (plans : Table PlanId Plan) (s : Search) : Finset PlanId := plans.keys.toFinset.filter fun id => get s.colour id = some .white

theorem markers_snoc (stack : List PlanId) (node : PlanId) : markers (stack++[node]) = (node,true)::markers stack := by
  simp [markers]

def Search.entered (s : Search) (node : PlanId) : Search := ⟨s.colour.insert node .grey,s.stack++[node],node::s.onStack,markers (s.stack++[node])⟩

theorem visit_cases (ok : s.visit plans node (markers s.stack) = .ok after) :
    (after = s.entered node ∧ ∀ b,NextEdge plans node b → (get plans b).isSome → b ∉ node::s.onStack ∧ get (s.entered node).colour b ≠ some .white) ∨
    ∃ next,nextPlanOf plans node = some next ∧ get (s.entered node).colour next = some .white ∧
      after = {s.entered node with work := (next,false)::markers (s.stack++[node])} := by
  unfold Search.visit at ok
  simp only [← markers_snoc] at ok
  split at ok
  · rename_i none_
    refine .inl ⟨(Except.ok.inj ok).symm,fun b edge => ?_⟩
    rw [(nextPlanOf_edge node b).mpr edge] at none_
    cases none_
  · rename_i next chained
    have only : ∀ b,NextEdge plans node b → b = next := by
      intro b edge
      exact Option.some.inj (((nextPlanOf_edge node b).mpr edge).symm.trans chained)
    split at ok
    · rename_i dangling
      refine .inl ⟨(Except.ok.inj ok).symm,fun b edge there => ?_⟩
      rw [only b edge] at there
      simp [Option.isNone_iff_eq_none.mp dangling] at there
    · split at ok
      · cases ok
      · rename_i off
        split at ok
        · rename_i white
          exact .inr ⟨next,chained,white,(Except.ok.inj ok).symm⟩
        · rename_i seen
          refine .inl ⟨(Except.ok.inj ok).symm,fun b edge _ => ?_⟩
          rw [only b edge]
          exact ⟨off,seen⟩

theorem entered_colour (s : Search) (node id : PlanId) :
    get (s.entered node).colour id = if id = node then some .grey else get s.colour id := get_insert _

theorem visit_searching (searching : Searching plans s) (white : get s.colour node = some .white)
    (pending : ∀ last ∈ s.stack.getLast?,nextPlanOf plans last = some node)
    (ok : s.visit plans node (markers s.stack) = .ok after) :
    Searching plans after ∧ after.colour = (s.entered node).colour ∧ after.work.length ≤ s.stack.length + 2 := by
  have kept : ∀ id,get (s.entered node).colour id = some .black ↔ get s.colour id = some .black := by
    intro id
    rw [entered_colour]
    split
    · rename_i same
      rw [same,white]
      simp
    · rfl
  have done : Done plans (s.entered node) = Done plans s := by
    funext id
    simp only [Done,kept]
  have base : Settled (NextEdge plans) (Done plans (s.entered node)) ∧
      (∀ id,(get (s.entered node).colour id).isSome ↔ (get plans id).isSome) ∧
      (∀ id,id ∈ (s.entered node).stack ↔ get (s.entered node).colour id = some .grey) ∧
      (s.entered node).onStack = (s.entered node).stack.reverse ∧
      ((s.entered node).stack.IsChain fun a b => nextPlanOf plans a = some b) ∧ (s.entered node).stack.Nodup := by
    refine ⟨?_,?_,?_,?_,?_,?_⟩
    · rw [done]
      exact searching.settled
    · intro id
      rw [← searching.coloured id,entered_colour]
      split
      · rename_i same
        simp [same,white]
      · rfl
    · intro id
      rw [entered_colour]
      split
      · rename_i same
        simp [Search.entered,same]
      · rename_i other
        simp [Search.entered,other,searching.grey id]
    · simp [Search.entered,searching.onStack]
    · refine List.isChain_append.mpr ⟨searching.path,List.isChain_singleton node,?_⟩
      intro last final first same
      cases Option.mem_some_iff.mp same
      exact pending last final
    · refine List.nodup_append.mpr ⟨searching.apart,List.nodup_singleton node,?_⟩
      intro id member other singleton same
      rw [same,List.mem_singleton.mp singleton,searching.grey,white] at member
      cases member
  obtain ⟨settled,coloured,grey,onStack,path,apart⟩ := base
  rcases visit_cases ok with ⟨rfl,known⟩ | ⟨next,chained,fresh,rfl⟩
  · refine ⟨⟨settled,coloured,grey,onStack,path,apart,.inr ⟨rfl,?_⟩⟩,rfl,?_⟩
    · intro last final b edge
      have own : node = last := by simpa [Search.entered] using final
      subst own
      cases there : get plans b with
      | none => exact .inr there
      | some plan =>
        obtain ⟨off,seen⟩ := known b edge (by simp [there])
        have some_ := (coloured b).mpr (by simp [there])
        cases colour : get (s.entered node).colour b with
        | none => simp [colour] at some_
        | some shade =>
          cases shade with
          | white => exact absurd colour seen
          | grey =>
            have member := (grey b).mpr colour
            rw [← List.mem_reverse,← onStack] at member
            exact absurd member off
          | black => exact .inl colour
    · simp [Search.entered,markers]
  · refine ⟨⟨settled,coloured,grey,onStack,path,apart,.inl ⟨next,rfl,fresh,?_⟩⟩,rfl,?_⟩
    · intro last final
      have own : node = last := by simpa [Search.entered] using final
      rw [← own]
      exact chained
    · simp [markers]

theorem leave_searching (searching : Searching plans s) (work : s.work = (node,true)::rest)
    (into : ∀ last ∈ s.stack.getLast?,∀ b,NextEdge plans last b → Done plans s b) (marked : s.work = markers s.stack) :
    Searching plans ⟨s.colour.insert node .black,s.stack.dropLast,s.onStack.erase node,rest⟩ := by
  obtain ⟨before,last,shape⟩ : ∃ before last,s.stack = before++[last] := by
    have some_ : s.stack ≠ [] := by
      intro empty
      rw [marked,empty] at work
      cases work
    exact ⟨_,_,(List.dropLast_append_getLast some_).symm⟩
  have ends : (last,true)::markers before = (node,true)::rest := by
    rw [← markers_snoc,← shape,← marked,work]
  simp only [List.cons.injEq,Prod.mk.injEq,and_true] at ends
  obtain ⟨rfl,rfl⟩ := ends
  have dark : get s.colour last = some .grey := (searching.grey last).mp (by simp [shape])
  have path := searching.path
  rw [shape,List.isChain_append] at path
  have new : ¬ Done plans s last := by
    rintro (black | gone)
    · rw [dark] at black
      cases black
    · have known := (searching.coloured last).mp (by simp [dark])
      simp [gone] at known
  have done : Done plans ⟨s.colour.insert last .black,s.stack.dropLast,s.onStack.erase last,markers before⟩ =
      fun id => id = last ∨ Done plans s id := by
    funext id
    simp only [Done,get_insert,eq_iff_iff]
    by_cases same : id = last <;> simp [same]
  obtain ⟨separate,_,fresh⟩ := List.nodup_append.mp (shape ▸ searching.apart)
  have fresh : last ∉ before := fun member => fresh last member last (List.mem_singleton_self _) rfl
  refine ⟨?_,?_,?_,?_,?_,?_,.inr ⟨?_,?_⟩⟩
  · rw [done]
    exact searching.settled.grow new fun b edge => into last (by simp [shape]) b edge
  · intro id
    rw [← searching.coloured id,get_insert]
    split
    · rename_i same
      simp [same,dark]
    · rfl
  · intro id
    simp only [shape,List.dropLast_concat,get_insert]
    by_cases same : id = last
    · simp [same,fresh]
    · rw [if_neg same,← searching.grey id,shape]
      simp [same]
  · simp [searching.onStack,shape]
  · rw [shape,List.dropLast_concat]
    exact path.1
  · rw [shape,List.dropLast_concat]
    exact separate
  · rw [shape,List.dropLast_concat]
  · intro earlier final b edge
    rw [shape,List.dropLast_concat] at final
    have chained := path.2.2 earlier final last rfl
    rw [done]
    exact .inl (Option.some.inj (((nextPlanOf_edge earlier b).mpr edge).symm.trans chained))

-- What is no longer white stays so, and what is black stays black.
structure Later (s after : Search) : Prop where
  seen : ∀ id,get s.colour id ≠ some .white → get after.colour id ≠ some .white
  black : ∀ id,get s.colour id = some .black → get after.colour id = some .black

theorem advance_searching (searching : Searching plans s) (busy : s.work ≠ []) (ok : s.advance plans = .ok after) :
    Searching plans after ∧ Later s after ∧ 2*(whites plans after).card + after.work.length < 2*(whites plans s).card + s.work.length := by
  unfold Search.advance at ok
  rcases searching.work with ⟨node,work,white,pending⟩ | ⟨work,into⟩
  · rw [work] at ok
    simp only [white] at ok
    obtain ⟨searching_,colour,short⟩ := visit_searching searching white pending ok
    have later : Later s after := by
      constructor
      · intro id seen
        rw [colour,entered_colour]
        split
        · simp
        · exact seen
      · intro id black
        rw [colour,entered_colour]
        split
        · rename_i same
          rw [same,white] at black
          cases black
        · exact black
    refine ⟨searching_,later,?_⟩
    have fewer : whites plans after ⊂ whites plans s := by
      refine Finset.ssubset_iff_of_subset ?_ |>.mpr ⟨node,?_,?_⟩
      · intro id member
        obtain ⟨key,still⟩ := Finset.mem_filter.mp member
        refine Finset.mem_filter.mpr ⟨key,?_⟩
        by_contra seen
        exact later.seen id seen still
      · refine Finset.mem_filter.mpr ⟨?_,white⟩
        have known := (searching.coloured node).mp (by simp [white])
        exact List.mem_toFinset.mpr ((mem_keys plans).mpr (Option.isSome_iff_exists.mp known))
      · intro member
        have still := (Finset.mem_filter.mp member).2
        rw [colour,entered_colour,if_pos rfl] at still
        cases still
    have drop := Finset.card_lt_card fewer
    have length : s.work.length = s.stack.length + 1 := by simp [work,markers]
    omega
  · cases shape : s.work with
    | nil => exact absurd shape busy
    | cons item rest =>
      have marked : item.2 = true := by
        have member : item ∈ markers s.stack := work ▸ shape ▸ List.mem_cons_self
        obtain ⟨id,_,rfl⟩ := List.mem_map.mp member
        rfl
      obtain ⟨node,returning⟩ := item
      subst marked
      rw [shape] at ok
      cases Except.ok.inj ok
      have searching_ := leave_searching searching shape into work
      refine ⟨searching_,⟨?_,?_⟩,?_⟩
      · intro id seen
        rw [get_insert]
        split
        · simp
        · exact seen
      · intro id black
        rw [get_insert]
        split
        · rfl
        · exact black
      · have fewer : whites plans ⟨s.colour.insert node .black,s.stack.dropLast,s.onStack.erase node,rest⟩ ⊆ whites plans s := by
          intro id member
          obtain ⟨key,still⟩ := Finset.mem_filter.mp member
          refine Finset.mem_filter.mpr ⟨key,?_⟩
          rw [get_insert] at still
          split at still
          · cases still
          · exact still
        have drop := Finset.card_le_card fewer
        simp only [List.length_cons]
        omega

theorem Later.trans {middle : Search} (first : Later s middle) (second : Later middle after) : Later s after :=
  ⟨fun id seen => second.seen id (first.seen id seen),fun id black => second.black id (first.black id black)⟩

theorem runs_searching {rounds : Nat} (searching : Searching plans s) (enough : 2*(whites plans s).card + s.work.length ≤ rounds)
    (ok : Search.runs plans rounds s = .ok after) : Searching plans after ∧ Later s after ∧ after.work = [] := by
  induction rounds generalizing s with
  | zero =>
    cases Except.ok.inj ok
    exact ⟨searching,⟨fun _ seen => seen,fun _ black => black⟩,List.length_eq_zero_iff.mp (by omega)⟩
  | succ rounds ih =>
    unfold Search.runs at ok
    by_cases idle : s.work = []
    · have rests : s.advance plans = .ok s := by simp only [Search.advance,idle]
      rw [rests] at ok
      have stays : ∀ k,Search.runs plans k s = .ok s := by
        intro k
        induction k with
        | zero => rfl
        | succ k ih => simp only [Search.runs,rests,ih]
      cases Except.ok.inj ((stays rounds).symm.trans ok)
      exact ⟨searching,⟨fun _ seen => seen,fun _ black => black⟩,idle⟩
    · cases advanced : s.advance plans with
      | error chain =>
        rw [advanced] at ok
        cases ok
      | ok middle =>
        rw [advanced] at ok
        obtain ⟨searching_,later,smaller⟩ := advance_searching searching idle advanced
        obtain ⟨final,later_,idle_⟩ := ih searching_ (by omega) ok
        exact ⟨final,later.trans later_,idle_⟩

theorem idle_stack (searching : Searching plans s) (idle : s.work = []) : s.stack = [] := by
  rcases searching.work with ⟨node,work,_⟩ | ⟨work,_⟩
  · rw [work] at idle
    cases idle
  · rw [work] at idle
    simpa [markers] using idle

theorem idle_black (searching : Searching plans s) (idle : s.work = []) (id : PlanId) (seen : get s.colour id ≠ some .white) :
    Done plans s id := by
  cases colour : get s.colour id with
  | none =>
    have unknown : ¬ (get plans id).isSome := by
      rw [← searching.coloured id,colour]
      simp
    exact .inr (by simpa using unknown)
  | some shade =>
    cases shade with
    | white => exact absurd colour seen
    | grey =>
      have member := (searching.grey id).mpr colour
      rw [idle_stack searching idle] at member
      cases member
    | black => exact .inl colour

theorem root_searching (searching : Searching plans s) (idle : s.work = []) (white : get s.colour root = some .white) :
    Searching plans {s with work := [(root,false)]} := by
  have empty := idle_stack searching idle
  refine ⟨searching.settled,searching.coloured,searching.grey,searching.onStack,searching.path,searching.apart,.inl ⟨root,?_,white,?_⟩⟩
  · simp [empty,markers]
  · intro last final
    simp [empty] at final

theorem root_seen {rounds : Nat} (searching : Searching plans s) (idle : s.work = []) (white : get s.colour root = some .white)
    (enough : 2*(whites plans s).card + 1 ≤ rounds) (ok : Search.runs plans rounds {s with work := [(root,false)]} = .ok after) :
    Searching plans after ∧ Later s after ∧ after.work = [] ∧ get after.colour root ≠ some .white := by
  have start := root_searching searching idle white
  have same : whites plans {s with work := [(root,false)]} = whites plans s := rfl
  obtain ⟨final,later,idle_⟩ := runs_searching start (by rw [same]; simpa using enough) ok
  refine ⟨final,⟨later.seen,later.black⟩,idle_,?_⟩
  cases rounds with
  | zero => omega
  | succ rounds =>
    unfold Search.runs at ok
    have marked : markers s.stack = [] := by simp [idle_stack searching idle,markers]
    have visits : ({s with work := [(root,false)]} : Search).advance plans =
        ({s with work := [(root,false)]} : Search).visit plans root (markers s.stack) := by
      simp only [Search.advance,white,marked]
    cases advanced : ({s with work := [(root,false)]} : Search).advance plans with
    | error chain =>
      rw [advanced] at ok
      cases ok
    | ok middle =>
      rw [advanced] at ok
      obtain ⟨searching_,_,smaller⟩ := advance_searching start (List.cons_ne_nil _ _) advanced
      obtain ⟨_,later_,_⟩ := runs_searching searching_ (by simp only [same,List.length_singleton] at smaller; omega) ok
      apply later_.seen
      rw [visits] at advanced
      have visited := visit_searching start white (by simp [idle_stack searching idle]) advanced
      rw [visited.2.1,entered_colour,if_pos rfl]
      simp

theorem whites_card (plans : Table PlanId Plan) (s : Search) : (whites plans s).card ≤ plans.keys.length :=
  (Finset.card_filter_le _ _).trans (List.toFinset_card_le _)

theorem searchRoots_free {roots : List PlanId} (searching : Searching plans s) (idle : s.work = [])
    (left : ∀ id,(get plans id).isSome → id ∈ roots ∨ get s.colour id = some .black) (clean : searchRoots plans roots s = none) :
    NoCycle (NextEdge plans) := by
  induction roots generalizing s with
  | nil =>
    apply searching.settled.noCycle
    rintro a b ⟨plan,there,_⟩
    rcases left a (by simp [there]) with inside | black
    · cases inside
    · exact .inl black
  | cons root roots ih =>
    unfold searchRoots at clean
    split at clean
    · rename_i white
      split at clean
      · cases clean
      · rename_i after ran
        have bound := whites_card plans s
        obtain ⟨final,later,idle_,seen⟩ := root_seen searching idle white (by omega) ran
        refine ih final idle_ ?_ clean
        intro id there
        rcases left id there with inside | black
        · rcases List.mem_cons.mp inside with rfl | rest
          · rcases idle_black final idle_ id seen with black | gone
            · exact .inr black
            · simp [gone] at there
          · exact .inl rest
        · exact .inr (later.black id black)
    · rename_i seen
      refine ih searching idle ?_ clean
      intro id there
      rcases left id there with inside | black
      · rcases List.mem_cons.mp inside with rfl | rest
        · rcases idle_black searching idle id seen with black | gone
          · exact .inr black
          · simp [gone] at there
        · exact .inl rest
      · exact .inr black

theorem blank_searching (plans : Table PlanId Plan) : Searching plans ⟨insertAll ∅ plans.keys .white,[],[],[]⟩ := by
  have colours : ∀ id,get (insertAll (∅ : Table PlanId Colour) plans.keys Colour.white) id = if (get plans id).isSome then some .white else none := by
    intro id
    rw [get_insertAll]
    have member : id ∈ plans.keys ↔ (get plans id).isSome := by rw [mem_keys,Option.isSome_iff_exists]
    simp only [member]
    rfl
  refine ⟨⟨?_,?_⟩,?_,?_,rfl,List.isChain_nil,List.nodup_nil,.inr ⟨rfl,?_⟩⟩
  · rintro a b (black | gone) ⟨plan,there,_⟩
    · simp only [colours] at black
      split at black <;> cases black
    · rw [gone] at there
      cases there
  · rintro a (black | gone) cycle
    · simp only [colours] at black
      split at black <;> cases black
    · obtain ⟨b,⟨plan,there,_⟩,_⟩ := TransGen.head'_iff.mp cycle
      rw [gone] at there
      cases there
  · intro id
    simp only [colours]
    split <;> simp [*]
  · intro id
    simp only [colours]
    split <;> simp
  · intro last final
    cases final

-- What the search does not refuse has no cycle, in whatever order the map gives the roots.
theorem detectCycle_free {first : List PlanId} (clean : detectCycle plans first = none) : NoCycle (NextEdge plans) := by
  refine searchRoots_free (blank_searching plans) rfl ?_ clean
  intro id there
  left
  have key : id ∈ plans.keys := (mem_keys plans).mpr (Option.isSome_iff_exists.mp there)
  unfold hashOrder
  by_cases early : id ∈ first
  · exact List.mem_append_left _ (List.mem_dedup.mpr (List.mem_filter.mpr ⟨early,decide_eq_true key⟩))
  · exact List.mem_append_right _ (List.mem_filter.mpr ⟨key,decide_eq_true early⟩)

section
variable {δ τ ω : Type} [DecidableEq δ] {chrono : Appointments.Chrono δ τ ω} {book : PlanBook}

theorem call_plans (chrono : Appointments.Chrono δ τ ω) (c : PlanBook.Call) : (book.step chrono c).plans = book.plans ∨
    (∃ plan first,book.refusal plan first = none ∧ (book.step chrono c).plans = book.plans.insert plan.id plan) ∨
    ∃ id,(book.step chrono c).plans = book.plans.erase id := by
  cases c with
  | register plan first clock saves deletes =>
    simp only [PlanBook.step,PlanBook.call,PlanBook.register]
    cases refused : book.refusal plan first with
    | some e => exact .inl rfl
    | none =>
      cases saves with
      | false => exact .inl rfl
      | true =>
        simp only [if_true]
        cases scheduled : ({book with storage := book.storage.insert plan.id plan}).scheduleTrigger chrono plan clock with
        | error e =>
          left
          simp only
          split <;> rfl
        | ok after =>
          refine .inr (.inl ⟨plan,first,refused,?_⟩)
          simp only [(scheduleTrigger_live scheduled).1]
  | unregister id deletes =>
    simp only [PlanBook.step,PlanBook.call,PlanBook.unregister]
    cases get book.plans id with
    | none => exact .inl rfl
    | some plan =>
      cases deletes with
      | false => exact .inl rfl
      | true =>
        refine .inr (.inr ⟨id,?_⟩)
        simp only [if_true,PlanBook.cancelTrigger]
        split <;> rfl

theorem refusal_free {plan : Plan} {first : List PlanId} (accepted : book.refusal plan first = none) :
    NoCycle (NextEdge (book.plans.insert plan.id plan)) := by
  unfold PlanBook.refusal at accepted
  split at accepted
  · cases accepted
  · split at accepted
    · cases accepted
    · exact detectCycle_free (Option.map_eq_none_iff.mp accepted)

theorem call_free (free : NoCycle (NextEdge book.plans)) (c : PlanBook.Call) : NoCycle (NextEdge (book.step chrono c).plans) := by
  rcases call_plans chrono c with same | ⟨plan,first,accepted,inserted⟩ | ⟨id,erased⟩
  · rw [same]
    exact free
  · rw [inserted]
    exact refusal_free accepted
  · rw [erased]
    refine free.of_le ?_
    rintro a b ⟨plan,there,chained⟩
    rw [get_erase] at there
    split at there
    · cases there
    · exact ⟨plan,there,chained⟩

theorem calls_free (chrono : Appointments.Chrono δ τ ω) (free : NoCycle (NextEdge book.plans)) (calls : List PlanBook.Call) :
    Throughout (PlanBook.step chrono) (fun book => NoCycle (NextEdge book.plans)) book calls :=
  guarded_keeps (fun _ c held _ => call_free held c) free guarded_free

end

end EvoCore.PlanRegistry
