import EvoCore.StreamHandles

namespace EvoCore.Streams
open Runs TwinRuns Tables

-- What a consumer is told by an action: a frame of its stream while it is subscribed, and its own receives.
inductive Seen where
  | emission (e : Emission)
  | receive
deriving DecidableEq,Repr

section
variable (streamId : String) (receiver : Nat)

def seen (live : Bool) : Action → Option Seen
  | .emit named e => if live && named = streamId then some (.emission e) else none
  | .recv r => if r = receiver then some .receive else none
  | .tryRecv r => if r = receiver then some .receive else none
  | _ => none

-- A subscription ends with its own handle's unsubscription or with its stream, also where the stream is opened again.
def stays (live : Bool) : Action → Bool
  | .close named => live && named ≠ streamId
  | .unsubscribe r => live && r ≠ receiver
  | _ => live

def view : Bool → List Action → List Seen
  | _,[] => []
  | live,action::rest => (seen streamId receiver live action).toList++view (stays streamId receiver live action) rest

def own : Action → Bool
  | .recv r => r = receiver
  | .tryRecv r => r = receiver
  | _ => false

end

-- The frames between one receive and the next, numbered from the subscription on.
def segments : Nat → List StreamFrame → List Seen → List (List StreamFrame)
  | _,_,[] => []
  | number,since,.emission e::rest => segments (number+1) (since++[e.frame (number % 2^64)]) rest
  | number,since,.receive::rest => since::segments number [] rest

def choice : BackpressurePolicy → List StreamFrame → Option StreamFrame
  | .dropOldest,frames => frames.getLast?
  | _,frames => frames.head?

def emissions (seen : List Seen) : List Emission := seen.filterMap fun
  | .emission e => some e
  | .receive => none

def Answer.frame : Answer → Option StreamFrame
  | .polled (.frame frame) => some frame
  | .tried frame => frame
  | _ => none

def receipt (debug : String → String) (c : StreamCoordinator) (action : Action) : Option StreamFrame := (perform debug c action).1.frame

def kept (policy : BackpressurePolicy) (pending : Option StreamFrame) (frame : StreamFrame) : Option StreamFrame :=
  match policy with
  | .dropOldest => some frame
  | _ => pending.or (some frame)

def noted (policy : BackpressurePolicy) (number : Nat) (pending : Option StreamFrame) : Option Seen → Nat × Option StreamFrame
  | none => (number,pending)
  | some (.emission e) => (number+1,kept policy pending (e.frame (number % 2^64)))
  | some .receive => (number,none)

-- Where one consumer stands: the frame in its slot, and its entry while it is subscribed.
structure Follows (c : StreamCoordinator) (streamId : String) (receiver : Nat) (policy : BackpressurePolicy) (live : Bool)
    (number : Nat) (pending : Option StreamFrame) : Prop where
  slot : ∃ rx,c.receivers[receiver]? = some rx ∧ rx.handle.streamId = streamId ∧ rx.slot.frame = pending ∧
    (live = true → rx.slot.closed = false)
  entry : live = true → ∃ reg,get c.streams streamId = some reg ∧ ∃ consumer ∈ reg.consumers,
    consumer.slot = receiver ∧ consumer.policy = policy ∧ consumer.nextSeq = number % 2^64
  gone : live = false → ∀ other reg,get c.streams other = some reg → receiver ∉ reg.consumers.map ConsumerEntry.slot

section
variable {debug : String → String} {c : StreamCoordinator} {drawn : Nat} {streamId : String} {receiver : Nat}
  {policy : BackpressurePolicy} {live : Bool} {number : Nat} {pending : Option StreamFrame}

theorem Follows.foreign (follows : Follows c streamId receiver policy live number pending) (sound : Sound c drawn)
    {other : String} {reg : StreamRegistration} (found : get c.streams other = some reg) (apart : other ≠ streamId) :
    receiver ∉ reg.consumers.map ConsumerEntry.slot := by
  intro among
  obtain ⟨consumer,member,rfl⟩ := List.mem_map.mp among
  obtain ⟨rx,there,handle,_⟩ := follows.slot
  obtain ⟨rx_,there_,handle_⟩ := handles_there (sound.matched other reg found consumer member)
  rw [there] at there_
  cases there_
  rw [handle_] at handle
  exact apart handle

theorem Follows.outside (follows : Follows c streamId receiver policy live number pending) (sound : Sound c drawn)
    {other : String} {reg : StreamRegistration} (found : get c.streams other = some reg) (off : ¬ (live = true ∧ other = streamId)) :
    receiver ∉ reg.consumers.map ConsumerEntry.slot := by
  by_cases same : other = streamId
  · have over_ : live = false := Bool.eq_false_iff.mpr fun on => off ⟨on,same⟩
    exact follows.gone over_ other reg found
  · exact follows.foreign sound found same

theorem follows_openStream (follows : Follows c streamId receiver policy live number pending) (named : String) (spec : StreamSpec) :
    Follows (c.openStream debug named spec).2 streamId receiver policy live number pending := by
  rw [StreamCoordinator.openStream]
  split
  · split <;> exact follows
  · rename_i missing
    refine ⟨follows.slot,?_,?_⟩
    · intro on
      obtain ⟨reg,found,listed⟩ := follows.entry on
      refine ⟨reg,?_,listed⟩
      rw [get_insert,if_neg]
      · exact found
      · rintro rfl
        rw [missing] at found
        cases found
    · intro off other reg there
      rw [get_insert] at there
      split at there
      · rw [← Option.some.inj there]
        exact List.not_mem_nil
      · exact follows.gone off other reg there

theorem closeEach_kept {receivers : List ConsumerRx} {consumers : List ConsumerEntry} {place : Nat} {rx : ConsumerRx}
    (there : receivers[place]? = some rx) : ∃ after,(touchEach (fun _ => SlotState.close) receivers consumers)[place]? = some after ∧
      after.handle = rx.handle ∧ after.slot.frame = rx.slot.frame := by
  induction consumers generalizing receivers rx with
  | nil => exact ⟨rx,there,rfl,rfl⟩
  | cons consumer rest ih =>
    by_cases same : consumer.slot = place
    · have shut : (onSlot receivers consumer.slot SlotState.close)[place]? = some {rx with slot := rx.slot.close} := by
        rw [same]
        exact modify_same there
      obtain ⟨after,found,handle,frame⟩ := ih shut
      exact ⟨after,found,handle,frame⟩
    · exact ih (modify_other there same)

theorem follows_close (follows : Follows c streamId receiver policy live number pending) (sound : Sound c drawn) (named : String) :
    Follows (c.close named).2 streamId receiver policy (live && named ≠ streamId) number pending := by
  obtain ⟨rx,there,handle,frame,unclosed⟩ := follows.slot
  rw [StreamCoordinator.close]
  split
  · rename_i missing
    refine ⟨⟨rx,there,handle,frame,fun on => unclosed (Bool.and_eq_true_iff.mp on).1⟩,?_,?_⟩
    · intro on
      exact follows.entry (Bool.and_eq_true_iff.mp on).1
    · intro off
      apply follows.gone
      cases live with
      | false => rfl
      | true =>
        have same : named = streamId := by simpa using off
        obtain ⟨reg,found,_⟩ := follows.entry rfl
        rw [same,found] at missing
        cases missing
  · rename_i reg found
    obtain ⟨after,found_,handle_,frame_⟩ := @closeEach_kept c.receivers reg.consumers receiver rx there
    have erased : ∀ other reg_,get (c.streams.erase named) other = some reg_ → other ≠ named ∧ get c.streams other = some reg_ := by
      intro other reg_ there_
      rw [get_erase] at there_
      split at there_
      · cases there_
      · exact ⟨by assumption,there_⟩
    refine ⟨⟨after,found_,(congrArg ConsumerHandle.streamId handle_).trans handle,frame_.trans frame,?_⟩,?_,?_⟩
    · intro on
      obtain ⟨was,apart⟩ := Bool.and_eq_true_iff.mp on
      have outside := follows.foreign sound found (of_decide_eq_true apart)
      have same : (touchEach (fun _ => SlotState.close) c.receivers reg.consumers)[receiver]? = some rx := touchEach_other there outside
      rw [same] at found_
      cases found_
      exact unclosed was
    · intro on
      obtain ⟨was,apart⟩ := Bool.and_eq_true_iff.mp on
      obtain ⟨reg_,listed⟩ := follows.entry was
      have other : streamId ≠ named := fun same => of_decide_eq_true apart same.symm
      refine ⟨reg_,?_,listed.2⟩
      rw [get_erase,if_neg other]
      exact listed.1
    · intro off other reg_ there_
      obtain ⟨apart,was⟩ := erased other reg_ there_
      apply follows.outside sound was
      rintro ⟨rfl,rfl⟩
      simp [Ne.symm apart] at off

theorem offer_kept {consumer : ConsumerEntry} {g : SlotState} (unclosed : g.closed = false) (frame : StreamFrame) :
    (consumer.offer g frame).2.frame = kept consumer.policy g.frame frame ∧ (consumer.offer g frame).2.closed = false := by
  have newest : (g.putDropNewest frame).2.frame = g.frame.or (some frame) ∧ (g.putDropNewest frame).2.closed = false := by
    rw [SlotState.putDropNewest,unclosed]
    cases held : g.frame with
    | none => exact ⟨rfl,rfl⟩
    | some old => exact ⟨held,unclosed⟩
  unfold ConsumerEntry.offer kept
  cases consumer.policy with
  | dropOldest => simp [SlotState.putDropOldest,unclosed]
  | dropNewest => exact newest
  | block => exact newest

theorem follows_emit (follows : Follows c streamId receiver policy live number pending) (sound : Sound c drawn) (named : String) (e : Emission) :
    Follows (c.emit named e).2 streamId receiver policy live
      (noted policy number pending (seen streamId receiver live (.emit named e))).1
      (noted policy number pending (seen streamId receiver live (.emit named e))).2 := by
  obtain ⟨rx,there,handle,frame,unclosed⟩ := follows.slot
  rw [seen]
  cases found : get c.streams named with
  | none =>
    have unseen : ¬ (live && named = streamId) = true := by
      intro both
      obtain ⟨on,same⟩ := Bool.and_eq_true_iff.mp both
      obtain ⟨reg,found_,_⟩ := follows.entry on
      rw [← of_decide_eq_true same,found] at found_
      cases found_
    rw [if_neg unseen,emit_missing found]
    exact follows
  | some reg =>
    obtain ⟨streams,receivers,_⟩ := emit_found found e
    by_cases both : live = true ∧ named = streamId
    · obtain ⟨rfl,rfl⟩ := both
      obtain ⟨reg_,found_,consumer,member,slot,same,next⟩ := follows.entry rfl
      rw [found] at found_
      cases found_
      subst slot
      have served : (touchEach (fun consumer g => (consumer.offer g (e.frame consumer.nextSeq)).2) c.receivers reg.consumers)[consumer.slot]? =
          some {rx with slot := (consumer.offer rx.slot (e.frame consumer.nextSeq)).2} :=
        touchEach_same there (sound.single named reg found) member
      obtain ⟨put,unclosed_⟩ := @offer_kept consumer rx.slot (unclosed rfl) (e.frame consumer.nextSeq)
      rw [same,frame] at put
      nth_rewrite 2 [next] at put
      rw [if_pos (by simp)]
      refine ⟨⟨_,(congrArg (fun rxs : List ConsumerRx => rxs[consumer.slot]?) receivers).trans served,handle,put,fun _ => unclosed_⟩,?_,?_⟩
      · intro on
        refine ⟨_,by rw [streams,if_pos rfl],consumer.advanced,List.mem_map_of_mem member,rfl,same,?_⟩
        change (consumer.nextSeq+1) % 2^64 = (number+1) % 2^64
        omega
      · intro off
        cases off
    · have unseen : ¬ (live && named = streamId) = true := by simpa using both
      have outside := follows.outside sound found both
      rw [if_neg unseen]
      refine ⟨⟨rx,?_,handle,frame,unclosed⟩,?_,?_⟩
      · rw [receivers]
        exact touchEach_other there outside
      · intro on
        obtain ⟨reg_,found_,listed⟩ := follows.entry on
        refine ⟨reg_,?_,listed⟩
        rw [streams,if_neg]
        · exact found_
        · exact fun same => both ⟨on,same.symm⟩
      · intro off other reg_ there_
        rw [streams] at there_
        split at there_
        · rw [← Option.some.inj there_]
          simpa [ConsumerEntry.advanced,Function.comp_def] using outside
        · exact follows.gone off other reg_ there_

theorem follows_subscribe (follows : Follows c streamId receiver policy live number pending) (named : String) (asked : BackpressurePolicy) :
    Follows (c.subscribe named asked).2 streamId receiver policy live number pending := by
  obtain ⟨rx,there,held⟩ := follows.slot
  rcases subscribe_cases with ⟨reg,found,_,granted⟩ | ⟨_,refused⟩
  · rw [granted]
    refine ⟨⟨rx,append_there there,held⟩,?_,?_⟩
    · intro on
      obtain ⟨reg_,found_,consumer,member,listed⟩ := follows.entry on
      by_cases same : streamId = named
      · rw [← same,found_] at found
        cases found
        have grown : get (c.grant named asked reg).streams streamId = some {reg with
            consumers := reg.consumers++[⟨c.nextConsumerId,asked,c.receivers.length,0⟩]} := by
          rw [StreamCoordinator.grant,get_insert,if_pos same]
        exact ⟨_,grown,consumer,List.mem_append_left _ member,listed⟩
      · refine ⟨reg_,?_,consumer,member,listed⟩
        rw [StreamCoordinator.grant,get_insert,if_neg same]
        exact found_
    · intro off other reg_ there_
      rw [StreamCoordinator.grant,get_insert] at there_
      split at there_
      · rw [← Option.some.inj there_,List.map_append,List.mem_append,not_or]
        have bound := (List.getElem?_eq_some_iff.mp there).choose
        refine ⟨follows.gone off named reg found,?_⟩
        rw [List.map_singleton,List.mem_singleton]
        exact bound.ne
      · exact follows.gone off other reg_ there_
  · rw [refused]
    split
    · exact follows
    · exact ⟨follows.slot,follows.entry,follows.gone⟩

-- Ids are not shared, so that a handle retires nobody but its own receiver.
theorem Sound.handle_own (sound : Sound c drawn) {r : Nat} {rx : ConsumerRx} {reg : StreamRegistration} {consumer : ConsumerEntry}
    (there : c.receivers[r]? = some rx) (found : get c.streams streamId = some reg) (member : consumer ∈ reg.consumers)
    (same : consumer.consumerId = rx.handle.consumerId) : consumer.slot = r := by
  have ids : ∀ (place : Nat) (handle : ConsumerHandle),c.handles[place]? = some handle →
      (c.handles.map ConsumerHandle.consumerId)[place]? = some handle.consumerId := by
    intro place handle at_
    rw [List.getElem?_map,at_]
    rfl
  have mine := ids _ _ (sound.matched streamId reg found consumer member)
  have its := ids r rx.handle (by rw [StreamCoordinator.handles,List.getElem?_map,there]; rfl)
  rw [same] at mine
  have bound := (List.getElem?_eq_some_iff.mp mine).choose
  exact (List.getElem?_inj bound sound.apart).mp (mine.trans its.symm)

theorem follows_unsubscribe (follows : Follows c streamId receiver policy live number pending) (sound : Sound c drawn)
    {r : Nat} {rx : ConsumerRx} (there : c.receivers[r]? = some rx) :
    Follows (c.unsubscribe rx.handle) streamId receiver policy (live && r ≠ receiver) number pending := by
  obtain ⟨rx_,there_,named,frame,unclosed⟩ := follows.slot
  refine ⟨⟨rx_,there_,named,frame,fun on => unclosed (Bool.and_eq_true_iff.mp on).1⟩,?_,?_⟩
  · intro on
    obtain ⟨was,apart⟩ := Bool.and_eq_true_iff.mp on
    obtain ⟨reg,found,consumer,member,slot,listed⟩ := follows.entry was
    rw [StreamCoordinator.unsubscribe]
    by_cases same : streamId = rx.handle.streamId
    · refine ⟨_,by rw [get_modify,if_pos same,← same,found]; rfl,consumer,?_,slot,listed⟩
      rw [List.mem_filter]
      refine ⟨member,?_⟩
      rw [decide_eq_true_iff]
      intro shared
      have mine := sound.handle_own there found member shared
      exact of_decide_eq_true apart (mine.symm.trans slot)
    · exact ⟨reg,by rw [get_modify,if_neg same]; exact found,consumer,member,slot,listed⟩
  · intro off other reg found
    rw [StreamCoordinator.unsubscribe,get_modify] at found
    have smaller : ∃ before,get c.streams other = some before ∧ (∀ consumer ∈ reg.consumers,consumer ∈ before.consumers ∧
        (other = rx.handle.streamId → consumer.consumerId ≠ rx.handle.consumerId)) := by
      split at found
      · rename_i same
        obtain ⟨before,was,rfl⟩ := Option.map_eq_some_iff.mp found
        refine ⟨before,same ▸ was,?_⟩
        intro consumer member
        obtain ⟨among,distinct⟩ := List.mem_filter.mp member
        exact ⟨among,fun _ => of_decide_eq_true distinct⟩
      · rename_i apart
        exact ⟨reg,found,fun consumer member => ⟨member,fun same => absurd same apart⟩⟩
    obtain ⟨before,was,part⟩ := smaller
    intro among
    obtain ⟨consumer,member,slot⟩ := List.mem_map.mp among
    obtain ⟨old,distinct⟩ := part consumer member
    by_cases on : live = true ∧ other = streamId
    · have same : r = receiver := by simpa [on.1] using off
      rw [same,there_] at there
      cases there
      have mine := sound.matched other before was consumer old
      rw [slot,StreamCoordinator.handles,List.getElem?_map,there_] at mine
      have handle := Option.some.inj mine
      exact distinct (on.2.trans named.symm) (congrArg ConsumerHandle.consumerId handle).symm
    · exact follows.outside sound was on (slot ▸ List.mem_map_of_mem old)

theorem Follows.missing_other (follows : Follows c streamId receiver policy live number pending) {r : Nat}
    (missing : c.receivers[r]? = none) : r ≠ receiver := by
  rintro rfl
  obtain ⟨rx,there,_⟩ := follows.slot
  rw [there] at missing
  cases missing

theorem follows_taken (follows : Follows c streamId receiver policy live number pending) (change : SlotState → SlotState)
    (empties : ∀ g,(change g).frame = none ∧ (change g).closed = g.closed) (r : Nat) :
    Follows {c with receivers := onSlot c.receivers r change} streamId receiver policy live number (if r = receiver then none else pending) := by
  obtain ⟨rx,there,handle,frame,unclosed⟩ := follows.slot
  refine ⟨?_,follows.entry,follows.gone⟩
  by_cases same : r = receiver
  · subst same
    obtain ⟨empty,closed⟩ := empties rx.slot
    rw [if_pos rfl]
    exact ⟨_,modify_same there,handle,empty,fun on => closed.trans (unclosed on)⟩
  · rw [if_neg same]
    exact ⟨rx,modify_other there same,handle,frame,unclosed⟩

theorem take_empties (g : SlotState) : g.take.2.frame = none ∧ g.take.2.closed = g.closed := by
  unfold SlotState.take
  cases held : g.frame with
  | none => exact ⟨held,rfl⟩
  | some frame => exact ⟨rfl,rfl⟩

theorem noted_own {r : Nat} : (noted policy number pending (if r = receiver then some .receive else none)) =
    (number,if r = receiver then none else pending) := by
  split <;> rfl

theorem follows_step (debug : String → String) (action : Action) (follows : Follows c streamId receiver policy live number pending) (sound : Sound c drawn) :
    Follows (step debug c action) streamId receiver policy (stays streamId receiver live action)
      (noted policy number pending (seen streamId receiver live action)).1
      (noted policy number pending (seen streamId receiver live action)).2 := by
  cases action with
  | openStream named spec => exact follows_openStream follows named spec
  | close named => exact follows_close follows sound named
  | emit named e => exact follows_emit follows sound named e
  | subscribe named asked => exact follows_subscribe follows named asked
  | unsubscribe r =>
    simp only [step,perform]
    split
    · rename_i rx there
      exact follows_unsubscribe follows sound there
    · rename_i missing
      simpa [stays,seen,noted,follows.missing_other missing] using follows
  | recv r =>
    simp only [step,perform,seen,stays,noted_own]
    split
    · exact follows_taken follows _ take_empties r
    · rename_i missing
      rw [if_neg (follows.missing_other missing)]
      exact follows
  | tryRecv r =>
    simp only [step,perform,seen,stays,noted_own]
    split
    · exact follows_taken follows (fun g => g.tryTake.2) (fun g => ⟨rfl,rfl⟩) r
    · rename_i missing
      rw [if_neg (follows.missing_other missing)]
      exact follows

theorem follows_receipt {action : Action} (follows : Follows c streamId receiver policy live number pending)
    (mine : own receiver action = true) : receipt debug c action = pending := by
  obtain ⟨rx,there,_,frame,_⟩ := follows.slot
  cases action with
  | recv r =>
    cases of_decide_eq_true mine
    simp only [receipt,perform,there,SlotState.take,frame]
    cases pending with
    | none => cases rx.slot.closed <;> rfl
    | some held => rfl
  | tryRecv r =>
    cases of_decide_eq_true mine
    simp only [receipt,perform,there,SlotState.tryTake,frame]
    rfl
  | _ => cases mine

end

end EvoCore.Streams
