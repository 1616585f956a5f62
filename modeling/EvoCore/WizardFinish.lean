import EvoCore.Wizard

namespace EvoCore.Wizard
open Runs Plans Tables
open World (turnOf)

variable {planId : PlanId} {w : World} {j k : Nat} {call other : Call} {phase : Phase} {row : PersistedWizardState}

def Phase.locked : Phase → Bool
  | .writing .. => true
  | .returned (.ok ()) => true
  | _ => false

def Phase.pending : Phase → Bool
  | .called => true
  | .loaded _ => true
  | _ => false

def CallOk (planId : PlanId) (started : Bool) (call : Call) : Prop :=
  match call.phase with
  | .observing => ∃ watched,call.request = .onTerminal watched .completed
  | .reading => started ∧ call.request = .onTerminal planId .completed
  | .completing => started ∧ call.request = .onTerminal planId .completed
  | _ => True

-- The written rows are the first of those the updates made, and the calls that write are the rest.
structure Sound (planId : PlanId) (w : World) : Prop where
  order : w.written <+: w.made
  waits : ∀ (k : Nat) (call : Call) (row : PersistedWizardState) (turn : Nat),w.calls[k]? = some call →
    call.phase = .writing row turn → w.written.length ≤ turn ∧ w.made[turn]? = some (k,row)
  due : ∀ (turn k : Nat) (row : PersistedWizardState),w.written.length ≤ turn → w.made[turn]? = some (k,row) →
    ∃ call : Call,w.calls[k]? = some call ∧ call.phase = .writing row turn
  sorted : (w.boot.toList ++ w.made.map (·.2)).Pairwise fun earlier later => earlier.firstBootComplete → later.firstBootComplete
  last : ∀ entry,w.made.getLast? = some entry → entry.2.lastCompletedStepId = w.state.lastCompletedStepId
  only : ∀ (k : Nat) (call : Call) (plan : PlanId),w.calls[k]? = some call → call.request = .start plan → k = 0
  begun : ∃ call : Call,w.calls[0]? = some call ∧ call.request = .start planId ∧ (call.phase.pending ∨ call.phase.locked ∧ w.made ≠ [])
  active : ∀ plan,w.state.activePlan = some plan → plan = planId ∧ w.started
  calls : ∀ (k : Nat) (call : Call),w.calls[k]? = some call → CallOk planId w.started call
  earned : ∀ (k : Nat) (row : PersistedWizardState),(k,row) ∈ w.made → row.firstBootComplete →
    w.started ∧ ∃ call : Call,w.calls[k]? = some call ∧ call.request = .onTerminal planId .completed

theorem started_locked (there : w.calls[0]? = some call) : w.started = call.phase.locked := by
  simp only [World.started,there,Option.any_some]
  cases call.phase with
  | returned result => cases result <;> rfl
  | _ => rfl

theorem callOk_mono {before after : Bool} (mono : before → after) (ok : CallOk planId before call) : CallOk planId after call := by
  unfold CallOk at ok ⊢
  split
  · simpa [*] using ok
  · exact ⟨mono (by simp_all),by simp_all⟩
  · exact ⟨mono (by simp_all),by simp_all⟩
  · trivial

theorem modify_request {calls : List Call} (there : (calls.modify j ({· with phase := phase}))[k]? = some call) :
    ∃ before,calls[k]? = some before ∧ before.request = call.request := by
  obtain ⟨before,found,rfl⟩ := modify_cases there
  refine ⟨before,found,?_⟩
  split <;> rfl

theorem request_modify {calls : List Call} {request : Request} (phase : Phase) (j : Nat)
    (there : ∃ call,calls[k]? = some call ∧ call.request = request) :
    ∃ call,(calls.modify j ({· with phase := phase}))[k]? = some call ∧ call.request = request := by
  obtain ⟨call,found,asked⟩ := there
  by_cases same : j = k
  · subst same
    exact ⟨_,modify_same found,asked⟩
  · exact ⟨call,modify_other found same,asked⟩

-- The start of the wizard never loses its lock again.
theorem started_grows (phase : Phase) (there : w.calls[j]? = some call) (keeps : call.phase.locked → phase.locked) :
    w.started → (w.moveTo j phase).started := by
  intro started
  cases first : w.calls[0]? with
  | none => simp [World.started,first] at started
  | some start =>
    by_cases same : j = 0
    · subst same
      cases there.symm.trans first
      have moved : (w.moveTo 0 phase).calls[0]? = some {call with phase := phase} := modify_same there
      rw [started_locked first] at started
      rw [started_locked moved]
      exact keeps started
    · have kept : (w.moveTo j phase).calls[0]? = some start := modify_other first same
      rw [started_locked first] at started
      rw [started_locked kept]
      exact started

theorem Sound.ledger (sound : Sound planId w) (ledger : List ConsentEntry) : Sound planId {w with ledger := ledger} :=
  ⟨sound.order,sound.waits,sound.due,sound.sorted,sound.last,sound.only,sound.begun,sound.active,sound.calls,sound.earned⟩

theorem Sound.moves (sound : Sound planId w) (there : w.calls[j]? = some call) (bare : turnOf call = none)
    (open_ : call.phase.locked = false) (bare_ : turnOf {call with phase := phase} = none)
    (ok : CallOk planId w.started {call with phase := phase}) (opens : j = 0 → phase.pending) : Sound planId (w.moveTo j phase) := by
  have grows : w.started → (w.moveTo j phase).started := started_grows phase there (by simp [open_])
  refine ⟨sound.order,?_,?_,sound.sorted,sound.last,?_,?_,?_,?_,?_⟩
  · intro k after row turn found writes
    obtain ⟨before,old,rfl⟩ := modify_cases found
    split at writes
    · have shown : phase = .writing row turn := writes
      simp [turnOf,shown] at bare_
    · rename_i apart
      rw [if_neg apart] at found
      exact sound.waits k before row turn old writes
  · intro turn k row late made
    obtain ⟨before,old,writes⟩ := sound.due turn k row late made
    have apart : j ≠ k := by
      rintro rfl
      cases there.symm.trans old
      simp [turnOf,writes] at bare
    exact ⟨before,modify_other old apart,writes⟩
  · intro k after plan found asked
    obtain ⟨before,old,same⟩ := modify_request found
    exact sound.only k before plan old (same.trans asked)
  · obtain ⟨start,first,asked,place⟩ := sound.begun
    by_cases same : j = 0
    · subst same
      cases there.symm.trans first
      exact ⟨_,modify_same there,asked,.inl (opens rfl)⟩
    · exact ⟨start,modify_other first same,asked,place⟩
  · intro plan active
    obtain ⟨own,started⟩ := sound.active plan active
    exact ⟨own,grows started⟩
  · intro k after found
    obtain ⟨before,old,rfl⟩ := modify_cases found
    split
    · rename_i same
      subst same
      cases there.symm.trans old
      exact callOk_mono grows ok
    · exact callOk_mono grows (sound.calls k before old)
  · intro k row member complete
    obtain ⟨started,asked⟩ := sound.earned k row member complete
    exact ⟨grows started,request_modify phase j asked⟩

theorem complete_last {rows : List PersistedWizardState} {row : PersistedWizardState}
    (sorted : rows.Pairwise fun earlier later => earlier.firstBootComplete → later.firstBootComplete)
    (member : row ∈ rows) (complete : row.firstBootComplete) : ∃ final,rows.getLast? = some final ∧ final.firstBootComplete := by
  induction rows generalizing row with
  | nil => cases member
  | cons first rest ih =>
    obtain ⟨later,behind⟩ := List.pairwise_cons.mp sorted
    cases rest with
    | nil =>
      cases List.mem_singleton.mp member
      exact ⟨first,rfl,complete⟩
    | cons second tail =>
      rw [List.getLast?_cons_cons]
      rcases List.mem_cons.mp member with rfl | inside
      · exact ih behind List.mem_cons_self (later second List.mem_cons_self complete)
      · exact ih behind inside complete

theorem load_last (w : World) : w.loadWizardState = (w.boot.toList ++ w.written.map (·.2)).getLast? := by
  rw [List.getLast?_append,List.getLast?_map,World.loadWizardState]
  cases w.boot <;> rfl

theorem Sound.written (sound : Sound planId w) :
    (w.boot.toList ++ w.written.map (·.2)).Pairwise fun earlier later => earlier.firstBootComplete → later.firstBootComplete := by
  have inside : (w.written.map (·.2)).Sublist (w.made.map (·.2)) := sound.order.sublist.map _
  exact List.Pairwise.sublist ((List.Sublist.refl _).append inside) sound.sorted

-- While the wizard does not finish, no row at all is complete.
theorem Sound.unfinished (sound : Sound planId w) (free : w.finishing = false) :
    ∀ row ∈ w.boot.toList ++ w.made.map (·.2),row.firstBootComplete = false := by
  intro row member
  by_contra complete
  have complete : row.firstBootComplete = true := by simpa using complete
  simp only [World.finishing,Bool.or_eq_false_iff] at free
  have stored : row ∉ w.boot.toList ++ w.written.map (·.2) := by
    intro inside
    obtain ⟨final,last,done⟩ := complete_last sound.written inside complete
    rw [← load_last] at last
    rw [last,Option.any_some,done] at free
    cases free.1
  rcases List.mem_append.mp member with boot | made
  · exact stored (List.mem_append_left _ boot)
  · obtain ⟨⟨k,other⟩,inside,rfl⟩ := List.mem_map.mp made
    obtain ⟨turn,place⟩ := List.mem_iff_getElem?.mp inside
    by_cases late : w.written.length ≤ turn
    · obtain ⟨call,there,writes⟩ := sound.due turn k other late place
      have idle := List.any_eq_false.mp free.2 call (List.mem_of_getElem? there)
      rw [writes] at idle
      exact idle complete
    · obtain ⟨more,split⟩ := sound.order
      rw [← split,List.getElem?_append_left (by omega)] at place
      exact stored (List.mem_append_right _ (List.mem_map_of_mem (List.mem_of_getElem? place)))

theorem update_started {state : WizardRuntimeState} (there : w.calls[0]? = some call) : (w.update 0 state row).started := by
  have moved : (w.update 0 state row).calls[0]? = some {call with phase := .writing row w.made.length} := modify_same there
  rw [started_locked moved]
  rfl

-- A call takes the lock: its row is the last of those made.
theorem Sound.updates (sound : Sound planId w) (there : w.calls[j]? = some call) (bare : turnOf call = none)
    (state : WizardRuntimeState) (row : PersistedWizardState) (same : row.lastCompletedStepId = state.lastCompletedStepId)
    (active : ∀ plan,state.activePlan = some plan → plan = planId ∧ (w.update j state row).started)
    (first : row.firstBootComplete = false → w.finishing = false)
    (earned : row.firstBootComplete → w.started ∧ call.request = .onTerminal planId .completed) :
    Sound planId (w.update j state row) := by
  have grows : w.started → (w.update j state row).started := started_grows (.writing row w.made.length) there fun _ => rfl
  have asks : ∀ (k : Nat) (request : Request),(∃ call,w.calls[k]? = some call ∧ call.request = request) →
      ∃ call,(w.update j state row).calls[k]? = some call ∧ call.request = request :=
    fun k request asked => request_modify (.writing row w.made.length) j asked
  refine ⟨?_,?_,?_,?_,?_,?_,?_,active,?_,?_⟩
  · exact sound.order.trans (List.prefix_append _ _)
  · intro k after other turn found writes
    obtain ⟨before,old,rfl⟩ := modify_cases found
    split at writes
    · rename_i own
      subst own
      cases writes
      exact ⟨sound.order.length_le,List.getElem?_concat_length⟩
    · obtain ⟨late,made⟩ := sound.waits k before other turn old writes
      exact ⟨late,append_there made⟩
  · intro turn k other late made
    rcases append_cases made with old | ⟨own,new⟩
    · obtain ⟨before,found,writes⟩ := sound.due turn k other late old
      have apart : j ≠ k := by
        rintro rfl
        cases there.symm.trans found
        simp [turnOf,writes] at bare
      exact ⟨before,modify_other found apart,writes⟩
    · cases new
      exact ⟨_,modify_same there,by rw [own]⟩
  · simp only [World.update,World.moveTo,List.map_append,List.map_cons,List.map_nil]
    rw [← List.append_assoc,List.pairwise_append]
    refine ⟨sound.sorted,List.pairwise_singleton _ _,?_⟩
    intro earlier member later own complete
    cases List.mem_singleton.mp own
    -- An incomplete row is made only while no complete one is written or waits.
    by_contra incomplete
    rw [sound.unfinished (first (by simpa using incomplete)) earlier member] at complete
    cases complete
  · intro entry final
    have own : (w.update j state row).made.getLast? = some (j,row) := by simp [World.update]
    cases own.symm.trans final
    exact same
  · intro k after plan found asked
    obtain ⟨before,old,request⟩ := modify_request found
    exact sound.only k before plan old (request.trans asked)
  · obtain ⟨start,zero,asked,place⟩ := sound.begun
    by_cases same_ : j = 0
    · subst same_
      cases there.symm.trans zero
      exact ⟨_,modify_same there,asked,.inr ⟨rfl,by simp [World.update]⟩⟩
    · refine ⟨start,modify_other zero same_,asked,place.imp_right fun locked => ⟨locked.1,?_⟩⟩
      simp [World.update]
  · intro k after found
    obtain ⟨before,old,rfl⟩ := modify_cases found
    split
    · trivial
    · exact callOk_mono grows (sound.calls k before old)
  · intro k other member complete
    rcases List.mem_append.mp member with old | new
    · obtain ⟨started,asked⟩ := sound.earned k other old complete
      exact ⟨grows started,asks k _ asked⟩
    · cases List.mem_singleton.mp new
      obtain ⟨started,asked⟩ := earned complete
      exact ⟨grows started,asks j _ ⟨call,there,asked⟩⟩

theorem Sound.writes (sound : Sound planId w) (there : w.calls[j]? = some call) (shape : call.phase = .writing row turn)
    (oldest : w.calls.all fun other => (turnOf other).all (turn ≤ ·)) :
    Sound planId {w.moveTo j (.returned (.ok ())) with written := w.written ++ [(j,row)]} := by
  obtain ⟨late,place⟩ := sound.waits j call row turn there shape
  -- The oldest of the rows that wait is the next of those made.
  have next : turn = w.written.length := by
    have bound := (List.getElem?_eq_some_iff.mp place).1
    have some_ : ∃ entry,w.made[w.written.length]? = some entry :=
      ⟨_,List.getElem?_eq_getElem (by omega)⟩
    obtain ⟨⟨k,other⟩,waits⟩ := some_
    obtain ⟨earlier,found,writes⟩ := sound.due _ k other (Nat.le_refl _) waits
    have least := List.all_eq_true.mp oldest earlier (List.mem_of_getElem? found)
    simp only [turnOf,writes,Option.all_some,decide_eq_true_eq] at least
    omega
  subst next
  have grows : w.started → (w.moveTo j (.returned (.ok ()))).started := started_grows _ there fun _ => rfl
  have asks : ∀ (k : Nat) (request : Request),(∃ call,w.calls[k]? = some call ∧ call.request = request) →
      ∃ call,(w.moveTo j (.returned (.ok ()))).calls[k]? = some call ∧ call.request = request :=
    fun k request asked => request_modify (.returned (.ok ())) j asked
  refine ⟨?_,?_,?_,sound.sorted,sound.last,?_,?_,?_,?_,?_⟩
  · obtain ⟨more,split⟩ := sound.order
    rw [← split,List.getElem?_append_right (Nat.le_refl _),Nat.sub_self] at place
    cases more with
    | nil => cases place
    | cons head tail =>
      cases Option.some.inj place
      exact ⟨tail,by rw [List.append_assoc]; exact split⟩
  · intro k after other turn found writes
    obtain ⟨before,old,rfl⟩ := modify_cases found
    split at writes
    · cases writes
    · rename_i apart
      obtain ⟨late_,made⟩ := sound.waits k before other turn old writes
      refine ⟨?_,made⟩
      have different : turn ≠ w.written.length := by
        rintro rfl
        cases Option.some.inj (place.symm.trans made)
        exact apart rfl
      simp only [List.length_append,List.length_singleton]
      omega
  · intro turn k other late_ made
    simp only [List.length_append,List.length_singleton] at late_
    obtain ⟨before,found,writes⟩ := sound.due turn k other (by omega) made
    have apart : j ≠ k := by
      rintro rfl
      cases there.symm.trans found
      cases shape.symm.trans writes
      omega
    exact ⟨before,modify_other found apart,writes⟩
  · intro k after plan found asked
    obtain ⟨before,old,request⟩ := modify_request found
    exact sound.only k before plan old (request.trans asked)
  · obtain ⟨start,zero,asked,started⟩ := sound.begun
    by_cases same : j = 0
    · subst same
      cases there.symm.trans zero
      refine ⟨_,modify_same there,asked,.inr ⟨rfl,?_⟩⟩
      intro none_
      rw [show w.made = [] from none_] at place
      cases place
    · exact ⟨start,modify_other zero same,asked,started⟩
  · intro plan active
    obtain ⟨own,started⟩ := sound.active plan active
    exact ⟨own,grows started⟩
  · intro k after found
    obtain ⟨before,old,rfl⟩ := modify_cases found
    split
    · trivial
    · exact callOk_mono grows (sound.calls k before old)
  · intro k other member complete
    obtain ⟨started,asked⟩ := sound.earned k other member complete
    exact ⟨grows started,asks k _ asked⟩

theorem Sound.asks (sound : Sound planId w) (request : Request) (late : ∀ plan,request ≠ .start plan) :
    Sound planId {w with calls := w.calls ++ [⟨request,.called⟩]} := by
  have started : ({w with calls := w.calls ++ [⟨request,.called⟩]} : World).started = w.started := by
    obtain ⟨start,zero,_⟩ := sound.begun
    rw [started_locked zero,started_locked (append_there zero)]
  refine ⟨sound.order,?_,?_,sound.sorted,sound.last,?_,?_,?_,?_,?_⟩
  · intro k after row turn found writes
    rcases append_cases found with old | ⟨_,rfl⟩
    · exact sound.waits k after row turn old writes
    · cases writes
  · intro turn k row late made
    obtain ⟨before,found,writes⟩ := sound.due turn k row late made
    exact ⟨before,append_there found,writes⟩
  · intro k after plan found asked
    rcases append_cases found with old | ⟨_,rfl⟩
    · exact sound.only k after plan old asked
    · exact absurd asked (late plan)
  · obtain ⟨start,zero,asked,place⟩ := sound.begun
    exact ⟨start,append_there zero,asked,place⟩
  · intro plan active
    rw [started]
    exact sound.active plan active
  · intro k after found
    rw [started]
    rcases append_cases found with old | ⟨_,rfl⟩
    · exact sound.calls k after old
    · trivial
  · intro k row member complete
    obtain ⟨begun,before,found,asked⟩ := sound.earned k row member complete
    rw [started]
    exact ⟨begun,before,append_there found,asked⟩

theorem step_sound (w : World) (event : Event) (sound : Sound planId w) (orderly : w.orderly event) : Sound planId (w.step event) := by
  cases event with
  | recordStepCompletion stepId completion => exact sound.asks _ fun plan same => by cases same
  | onTerminal watched outcome => exact sound.asks _ fun plan same => by cases same
  | advance j nowMs ok =>
    simp only [World.step,World.advance]
    cases there : w.calls[j]? with
    | none => exact sound
    | some call =>
      obtain ⟨request,phase⟩ := call
      simp only [World.orderly,there,Option.all_some] at orderly
      have fits := sound.calls j _ there
      -- No place but the first two is one of the start's, and the start goes no other way.
      have elsewhere : phase.pending = false → phase.locked = false → j ≠ 0 := by
        rintro apart free rfl
        obtain ⟨start,zero,_,place⟩ := sound.begun
        cases there.symm.trans zero
        simp [apart,free] at place
      cases phase with
      | called =>
        cases request with
        | start plan =>
          simp only at orderly
          simp only [World.enter,orderly,if_true]
          exact sound.moves there rfl rfl rfl trivial fun _ => rfl
        | recordStepCompletion stepId completion =>
          have later : j ≠ 0 := by
            rintro rfl
            obtain ⟨start,zero,asked,_⟩ := sound.begun
            cases there.symm.trans zero
            cases asked
          cases completion with
          | plainStep => exact sound.moves there rfl rfl rfl trivial fun first => absurd first later
          | consent consentId documentHash decision userId =>
            simp only [World.enter]
            split
            · exact sound.moves there rfl rfl rfl trivial fun first => absurd first later
            · rename_i ledger _
              have moved : Sound planId (w.moveTo j .consented) := sound.moves there rfl rfl rfl trivial fun first => absurd first later
              exact moved.ledger ledger
        | onTerminal watched outcome =>
          have later : j ≠ 0 := by
            rintro rfl
            obtain ⟨start,zero,asked,_⟩ := sound.begun
            cases there.symm.trans zero
            cases asked
          simp only [World.enter]
          split
          · rename_i completed
            subst completed
            exact sound.moves there rfl rfl rfl ⟨watched,rfl⟩ fun first => absurd first later
          · exact sound.moves there rfl rfl rfl trivial fun first => absurd first later
      | loaded prior =>
        cases request with
        | start plan =>
          have first := sound.only j _ plan there rfl
          subst first
          obtain ⟨start,zero,asked,_⟩ := sound.begun
          cases there.symm.trans zero
          cases asked
          refine sound.updates there rfl _ _ rfl ?_ (fun _ => by simpa using orderly) (fun complete => by cases complete)
          intro active own
          exact ⟨(Option.some.inj own).symm,update_started there⟩
        | _ => exact sound
      | consented =>
        cases request with
        | recordStepCompletion stepId completion =>
          refine sound.updates there rfl _ _ rfl ?_ (fun _ => by simpa using orderly) (fun complete => by cases complete)
          intro plan active
          obtain ⟨own,started⟩ := sound.active plan active
          exact ⟨own,started_grows _ there (fun _ => rfl) started⟩
        | _ => exact sound
      | observing =>
        have later := elsewhere rfl rfl
        cases request with
        | onTerminal watched outcome =>
          simp only
          split
          · rename_i active
            obtain ⟨same,completed⟩ := fits
            cases completed
            obtain ⟨rfl,started⟩ := sound.active watched (by simpa [World.isActivePlan] using active)
            exact sound.moves there rfl rfl rfl ⟨started,rfl⟩ fun first => absurd first later
          · exact sound.moves there rfl rfl rfl trivial fun first => absurd first later
        | _ => exact sound
      | reading =>
        have later := elsewhere rfl rfl
        simp only
        split
        · exact sound.moves there rfl rfl rfl trivial fun first => absurd first later
        · exact sound.moves there rfl rfl rfl fits fun first => absurd first later
      | completing =>
        refine sound.updates there rfl _ _ rfl ?_ (fun incomplete => by cases incomplete) (fun _ => fits)
        intro plan active
        cases active
      | writing row turn => exact sound.writes there rfl orderly
      | returned result => exact sound

theorem fresh_sound (planId : PlanId) (boot : Option PersistedWizardState) : Sound planId (.fresh planId boot) := by
  have only : ∀ (k : Nat) (call : Call),(World.fresh planId boot).calls[k]? = some call → k = 0 ∧ call = ⟨.start planId,.called⟩ := by
    intro k call there
    simp only [World.fresh,List.getElem?_singleton] at there
    split at there
    · exact ⟨‹_›,(Option.some.inj there).symm⟩
    · cases there
  refine ⟨List.prefix_rfl,?_,?_,?_,?_,?_,?_,?_,?_,?_⟩
  · intro k call row turn there writes
    obtain ⟨_,rfl⟩ := only k call there
    cases writes
  · intro turn k row _ made
    cases made
  · cases boot <;> simp [World.fresh]
  · intro entry last
    cases last
  · intro k call plan there _
    exact (only k call there).1
  · exact ⟨_,rfl,rfl,.inl rfl⟩
  · intro plan active
    cases active
  · intro k call there
    obtain ⟨_,rfl⟩ := only k call there
    trivial
  · intro k row member
    cases member

theorem sound_finished (sound : Sound planId w) : Finished planId w := by
  refine ⟨sound.written,?_,?_⟩
  · intro j row member complete
    exact sound.earned j row (sound.order.subset member) complete
  · intro finished
    have all : w.written = w.made := by
      apply sound.order.eq_of_length_le
      by_contra short
      obtain ⟨⟨k,row⟩,place⟩ : ∃ entry,w.made[w.written.length]? = some entry :=
        ⟨_,List.getElem?_eq_getElem (by omega)⟩
      obtain ⟨call,there,writes⟩ := sound.due _ k row (Nat.le_refl _) place
      have done := finished call (List.mem_of_getElem? there)
      rw [writes] at done
      cases done
    obtain ⟨start,zero,_,place⟩ := sound.begun
    have done := finished start (List.mem_of_getElem? zero)
    rcases place with waits | ⟨_,some_⟩
    · cases shape : start.phase <;> simp [shape,Phase.pending,Phase.finished] at waits done
    · obtain ⟨entry,last⟩ := List.getLast?_isSome.mpr some_ |> Option.isSome_iff_exists.mp
      rw [World.loadWizardState,all,last,← sound.last entry last]
      rfl

theorem wizard_finished (planId : PlanId) (boot : Option PersistedWizardState) (events : List Event)
    (orderly : Guarded World.step (fun w event => w.orderly event) (.fresh planId boot) events) :
    Throughout World.step (Finished planId) (.fresh planId boot) events := by
  have sound := guarded_keeps step_sound (fresh_sound planId boot) orderly
  exact throughout_prefixes.mpr fun k => sound_finished (throughout_prefixes.mp sound k)

def firstBoot : PlanId := "first-boot"
def walk (j count : Nat) : List Event := (List.range count).map fun i => .advance j i true

def setUp : List Event :=
  walk 0 3 ++ [Event.recordStepCompletion "language" .plainStep] ++ walk 1 3 ++ [Event.onTerminal firstBoot .completed] ++ walk 2 5

theorem set_up_finished : Throughout World.step (Finished firstBoot) (.fresh firstBoot none) setUp ∧
    (run World.step (.fresh firstBoot none) setUp).loadWizardState =
      some ⟨true,some "language",some firstBoot,some 1,some 3,3⟩ := by
  refine ⟨wizard_finished firstBoot none setUp (by decide),by decide⟩

-- A step that comes when the plan is through, and two steps whose rows are written in the other order.
def lateStep : List Event := setUp ++ [Event.recordStepCompletion "network" .plainStep] ++ walk 3 3
def crossedSteps : List Event :=
  walk 0 3 ++ ([.recordStepCompletion "language" .plainStep,.recordStepCompletion "network" .plainStep] : List Event) ++
    walk 1 2 ++ walk 2 3 ++ walk 1 1

theorem finish_undone : ¬ Throughout World.step (Finished firstBoot) (.fresh firstBoot none) lateStep ∧
    ¬ Throughout World.step (Finished firstBoot) (.fresh firstBoot none) crossedSteps := by
  constructor
  · intro held
    have stays := (throughout_final held).stays
    revert stays
    decide
  · intro held
    have mirrored := (throughout_final held).mirrored
    revert mirrored
    decide

end EvoCore.Wizard
