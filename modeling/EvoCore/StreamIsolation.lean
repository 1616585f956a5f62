import EvoCore.StreamViews

namespace EvoCore.Streams
open Runs TwinRuns Tables

section
variable {debug : String → String} {c : StreamCoordinator} {drawn : Nat} {streamId : String} {receiver : Nat}
  {policy : BackpressurePolicy} {live : Bool} {number : Nat} {pending : Option StreamFrame} {actions : List Action}

theorem choice_snoc (frames : List StreamFrame) (frame : StreamFrame) :
    kept policy (choice policy frames) frame = choice policy (frames++[frame]) := by
  cases policy with
  | dropOldest => simp [kept,choice]
  | dropNewest => simp [kept,choice,List.head?_append]
  | block => simp [kept,choice,List.head?_append]

theorem seen_own (streamId : String) (receiver : Nat) (live : Bool) (action : Action) :
    seen streamId receiver live action = some .receive ↔ own receiver action = true := by
  cases action with
  | emit named e =>
    simp only [seen,own]
    split <;> simp
  | recv r => simp [seen,own]
  | tryRecv r => simp [seen,own]
  | _ => simp [seen,own]

theorem Sound.onward (debug : String → String) (action : Action) {rest : List Action} (sound : Sound c drawn)
    (within : drawn+(action::rest).countP Action.draws ≤ 2^64) :
    ∃ drawn_,Sound (step debug c action) drawn_ ∧ drawn_+rest.countP Action.draws ≤ 2^64 := by
  rw [List.countP_cons,Nat.add_comm (rest.countP Action.draws),← Nat.add_assoc] at within
  exact ⟨_,sound_step debug sound (Nat.le_of_add_right_le within),within⟩

theorem receipts_view {since : List StreamFrame} (follows : Follows c streamId receiver policy live number (choice policy since))
    (sound : Sound c drawn) (within : drawn+actions.countP Action.draws ≤ 2^64) :
    outputs (step debug) (receipt debug) (own receiver) c actions =
      (segments number since (view streamId receiver live actions)).map (choice policy) := by
  induction actions generalizing c drawn live number since with
  | nil => rfl
  | cons action rest ih =>
    obtain ⟨drawn_,sound_,within_⟩ := sound.onward debug action within
    have after := follows_step debug action follows sound
    rw [outputs,view]
    cases shown : seen streamId receiver live action with
    | none =>
      have others : ¬ own receiver action = true := by simp [← seen_own streamId receiver live,shown]
      rw [shown] at after
      rw [if_neg others]
      exact ih after sound_ within_
    | some sight =>
      cases sight with
      | emission e =>
        have others : ¬ own receiver action = true := by simp [← seen_own streamId receiver live,shown]
        rw [shown,noted,choice_snoc] at after
        rw [if_neg others]
        exact ih after sound_ within_
      | receive =>
        have mine := (seen_own _ _ _ _).mp shown
        have empty : none = choice policy [] := by cases policy <;> rfl
        rw [shown,noted,empty] at after
        rw [if_pos mine,follows_receipt follows mine]
        exact congrArg (List.cons (choice policy since)) (ih after sound_ within_)

theorem follows_run (follows : Follows c streamId receiver policy live number pending) (sound : Sound c drawn)
    (within : drawn+actions.countP Action.draws ≤ 2^64) :
    ∃ live_ number_ pending_,Follows (run (step debug) c actions) streamId receiver policy live_ number_ pending_ := by
  induction actions generalizing c drawn live number pending with
  | nil => exact ⟨live,number,pending,follows⟩
  | cons action rest ih =>
    obtain ⟨drawn_,sound_,within_⟩ := sound.onward debug action within
    exact ih (follows_step debug action follows sound) sound_ within_

theorem unseen_unowned {action : Action} (unowned : own receiver action = false) : seen streamId receiver false action = none := by
  cases action with
  | recv r => exact if_neg (of_decide_eq_false unowned)
  | tryRecv r => exact if_neg (of_decide_eq_false unowned)
  | _ => rfl

theorem follows_over (follows : Follows c streamId receiver policy false number pending) (sound : Sound c drawn)
    (within : drawn+actions.countP Action.draws ≤ 2^64) (quiet : ∀ action ∈ actions,own receiver action = false) :
    Follows (run (step debug) c actions) streamId receiver policy false number pending := by
  induction actions generalizing c drawn with
  | nil => exact follows
  | cons action rest ih =>
    obtain ⟨drawn_,sound_,within_⟩ := sound.onward debug action within
    have after := follows_step debug action follows sound
    have unseen : seen streamId receiver false action = none := unseen_unowned (quiet action List.mem_cons_self)
    have ended : stays streamId receiver false action = false := by cases action <;> rfl
    rw [unseen,ended] at after
    exact ih after sound_ within_ fun action_ later => quiet action_ (List.mem_cons_of_mem _ later)

end

def numbered (number : Nat) : List Emission → List StreamFrame
  | [] => []
  | e::rest => e.frame (number % 2^64)::numbered (number+1) rest

theorem segments_flatten (number : Nat) (since : List StreamFrame) (sights : List Seen) :
    (segments number since sights).flatten.Sublist (since++numbered number (emissions sights)) := by
  induction sights generalizing number since with
  | nil => exact List.nil_sublist _
  | cons sight rest ih =>
    cases sight with
    | emission e =>
      have later := ih (number+1) (since++[e.frame (number % 2^64)])
      rw [List.append_assoc] at later
      exact later
    | receive =>
      rw [segments,List.flatten_cons]
      exact (ih number []).append_left since

theorem choice_sublist (policy : BackpressurePolicy) (frames : List StreamFrame) : (choice policy frames).toList.Sublist frames := by
  have among : ∀ frame,choice policy frames = some frame → frame ∈ frames := by
    intro frame chosen
    cases policy with
    | dropOldest => exact List.mem_of_getLast? chosen
    | dropNewest => exact List.mem_of_head? chosen
    | block => exact List.mem_of_head? chosen
  cases chosen : choice policy frames with
  | none => exact List.nil_sublist _
  | some frame => exact List.singleton_sublist.mpr (among frame chosen)

theorem chosen_sublist (policy : BackpressurePolicy) (groups : List (List StreamFrame)) :
    ((groups.map (choice policy)).reduceOption).Sublist groups.flatten := by
  induction groups with
  | nil => exact List.Sublist.refl _
  | cons frames rest ih =>
    have here := (choice_sublist policy frames).append ih
    rw [List.map_cons,List.flatten_cons]
    cases chosen : choice policy frames with
    | none =>
      rw [chosen] at here
      exact here
    | some frame =>
      rw [chosen] at here
      exact here

theorem numbered_bounds {number : Nat} {es : List Emission} (room : number+es.length ≤ 2^64) :
    ∀ frame ∈ numbered number es,number ≤ frame.seq := by
  induction es generalizing number with
  | nil => intro frame member; cases member
  | cons e rest ih =>
    rw [List.length_cons] at room
    intro frame member
    rcases List.mem_cons.mp member with rfl | later
    · change number ≤ number % 2^64
      omega
    · have further := @ih (number+1) (by omega) frame later
      omega

theorem numbered_ascending {number : Nat} {es : List Emission} (room : number+es.length ≤ 2^64) :
    ((numbered number es).map StreamFrame.seq).Pairwise (· < ·) := by
  induction es generalizing number with
  | nil => exact List.Pairwise.nil
  | cons e rest ih =>
    rw [List.length_cons] at room
    rw [numbered,List.map_cons,List.pairwise_cons]
    refine ⟨?_,ih (by omega)⟩
    intro seq member
    obtain ⟨frame,later,rfl⟩ := List.mem_map.mp member
    have further := @numbered_bounds (number+1) rest (by omega) frame later
    change number % 2^64 < frame.seq
    omega

-- A subscription that was granted, with all that happened before it and since.
structure Subscription (debug : String → String) where
  before : List Action
  streamId : String
  policy : BackpressurePolicy
  receiver : Nat
  after : List Action
  granted : ((run (step debug) .new before).subscribe streamId policy).1 = .ok receiver

section
variable {debug : String → String} (s : Subscription debug)

namespace Subscription

def start : StreamCoordinator := ((run (step debug) .new s.before).subscribe s.streamId s.policy).2

def actions : List Action := s.before++.subscribe s.streamId s.policy::s.after

def view : List Seen := Streams.view s.streamId s.receiver true s.after

def receipts : List (Option StreamFrame) := outputs (step debug) (receipt debug) (own s.receiver) s.start s.after

def received : List StreamFrame := s.receipts.reduceOption

end Subscription

-- What one consumer receives is made of its own view alone.
structure Isolated : Prop where
  alike : ∀ other : Subscription debug,other.actions.countP Action.draws ≤ 2^64 → other.policy = s.policy → other.view = s.view →
    other.receipts = s.receipts
  chosen : s.receipts = (segments 0 [] s.view).map (choice s.policy)
  ascending : (emissions s.view).length ≤ 2^64 → (s.received.map StreamFrame.seq).Pairwise (· < ·)
  survives : ∀ early later,s.after = early++.close s.streamId::later → (∀ action ∈ later,own s.receiver action = false) →
    receipt debug (run (step debug) s.start s.after) (.recv s.receiver) = receipt debug (run (step debug) s.start early) (.recv s.receiver)

end

section
variable {debug : String → String}

theorem follows_start (s : Subscription debug) (within : s.actions.countP Action.draws ≤ 2^64) :
    ∃ drawn,Sound s.start drawn ∧ drawn+s.after.countP Action.draws ≤ 2^64 ∧
      Follows s.start s.streamId s.receiver s.policy true 0 none := by
  rw [Subscription.actions,List.countP_append] at within
  have sound := @sound_run debug _ _ s.before sound_start (by omega)
  rw [Nat.zero_add] at sound
  obtain ⟨drawn,after,room⟩ := sound.onward debug (.subscribe s.streamId s.policy) within
  refine ⟨drawn,after,room,?_⟩
  rcases @subscribe_cases (run (step debug) .new s.before) s.streamId s.policy with
    ⟨reg,found,_,granted⟩ | ⟨refused,_⟩
  · have place := s.granted
    rw [granted] at place
    have same := Except.ok.inj place
    rw [Subscription.start,granted,← same]
    refine ⟨⟨_,List.getElem?_concat_length,rfl,rfl,fun _ => rfl⟩,?_,?_⟩
    · intro on
      refine ⟨_,by rw [StreamCoordinator.grant,get_insert,if_pos rfl],_,List.mem_append_right _ (List.mem_singleton_self _),rfl,rfl,rfl⟩
    · intro off
      cases off
  · exact absurd s.granted (refused s.receiver)

theorem receipts_chosen (s : Subscription debug) (within : s.actions.countP Action.draws ≤ 2^64) :
    s.receipts = (segments 0 [] s.view).map (choice s.policy) := by
  obtain ⟨drawn,sound,room,follows⟩ := follows_start s within
  have empty : none = choice s.policy [] := by cases s.policy <;> rfl
  rw [empty] at follows
  exact receipts_view follows sound room

theorem fan_out_isolated (s : Subscription debug) (within : s.actions.countP Action.draws ≤ 2^64) : Isolated s where
  alike other within_ policy view := by rw [receipts_chosen other within_,receipts_chosen s within,policy,view]
  chosen := receipts_chosen s within
  ascending room := by
    rw [Subscription.received,receipts_chosen s within]
    have part := (chosen_sublist s.policy (segments 0 [] s.view)).trans (segments_flatten 0 [] s.view)
    exact (numbered_ascending (by rwa [Nat.zero_add])).sublist (part.map StreamFrame.seq)
  survives early later shape quiet := by
    obtain ⟨drawn,sound,room,follows⟩ := follows_start s within
    rw [shape,List.countP_append] at room
    have sound_ := @sound_run debug _ _ early sound (by omega)
    obtain ⟨live,number,pending,reached⟩ := @follows_run debug _ _ _ _ _ _ _ _ early follows sound (by omega)
    have mine : own s.receiver (.recv s.receiver) = true := decide_eq_true rfl
    have closing : Follows (step debug (run (step debug) s.start early) (.close s.streamId)) s.streamId s.receiver s.policy false number pending := by
      have closed := follows_close reached sound_ s.streamId
      rw [decide_eq_false (not_not_intro rfl),Bool.and_false] at closed
      exact closed
    obtain ⟨drawn_,sound_close,room_⟩ := @Sound.onward _ _ debug (.close s.streamId) later sound_ (by omega)
    have final := @follows_over debug _ _ _ _ _ _ _ later closing sound_close room_ quiet
    rw [shape,run_append,run_cons,follows_receipt final mine,follows_receipt reached mine]

end

section

def tick : Emission := ⟨1000,"json",[0x7b,0x7d]⟩

def shared : Action := .openStream "spectrum" ⟨"audio.spectrum.v1",["json"],60,256,[.dropOldest,.dropNewest]⟩

-- A stream that is opened again while an earlier consumer holds its handle, and then has two consumers of
-- unlike policies.
def reopened : List Action := [shared,.subscribe "spectrum" .dropOldest,.emit "spectrum" tick,.close "spectrum",shared]

def listening : List Action :=
  [.emit "spectrum" tick,.emit "spectrum" tick,.recv 2,.recv 1,.recv 0,.emit "spectrum" tick,.recv 2,.unsubscribe 1,.emit "spectrum" tick,
    .close "spectrum",.recv 2,.recv 1]

def earliest : Subscription id where
  before := reopened
  streamId := "spectrum"
  policy := .dropNewest
  receiver := 1
  after := .subscribe "spectrum" .dropOldest::listening
  granted := rfl

def latest : Subscription id where
  before := reopened++[.subscribe "spectrum" .dropNewest]
  streamId := "spectrum"
  policy := .dropOldest
  receiver := 2
  after := listening
  granted := rfl

theorem listeners_isolated : (earliest.received.map StreamFrame.seq = [0,2] ∧ Isolated earliest) ∧
    latest.received.map StreamFrame.seq = [1,2,3] ∧ Isolated latest :=
  ⟨⟨by decide,fan_out_isolated earliest (by decide)⟩,by decide,fan_out_isolated latest (by decide)⟩

-- The first consumer of a stream that takes no other policy.
def spectrum (after : List Action) : Subscription id where
  before := [.openStream "spectrum" ⟨"audio.spectrum.v1",["json"],60,256,[.dropOldest]⟩]
  streamId := "spectrum"
  policy := .dropOldest
  receiver := 0
  after := after
  granted := rfl

def plain : List Action := [.emit "spectrum" tick,.recv 0]

def burst (n : Nat) : List Action := plain++(List.replicate (n+1) (Action.emit "spectrum" tick)++[Action.recv 0])

-- Refused subscriptions use up ids, so that the second consumer may get the id of the first, and retire both.
def crossed (n : Nat) : List Action :=
  List.replicate n (Action.subscribe "spectrum" .dropNewest)++(Action.subscribe "spectrum" .dropOldest::.unsubscribe 1::plain)

theorem view_emits {streamId : String} {receiver : Nat} (n : Nat) (e : Emission) (rest : List Action) :
    view streamId receiver true (List.replicate n (Action.emit streamId e)++rest) =
      List.replicate n (Seen.emission e)++view streamId receiver true rest := by
  induction n with
  | zero => rfl
  | succ n ih => simpa [List.replicate_succ,view,seen,stays] using ih

theorem burst_latest (n number : Nat) (since : List StreamFrame) (e : Emission) :
    (segments number since (List.replicate (n+1) (Seen.emission e)++[Seen.receive])).map (choice .dropOldest) =
      [some (e.frame ((number+n) % 2^64))] := by
  induction n generalizing number since with
  | zero => simp [segments,choice]
  | succ n ih =>
    have later := ih (number+1) (since++[e.frame (number % 2^64)])
    rw [Nat.add_right_comm,Nat.add_assoc] at later
    exact later

theorem burst_receipts (n : Nat) : (spectrum (burst n)).receipts = [some (tick.frame 0),some (tick.frame ((1+n) % 2^64))] := by
  have quiet : (spectrum (burst n)).actions.countP Action.draws = 1 := by
    simp [Subscription.actions,spectrum,burst,plain,Action.draws,List.countP_append,List.countP_replicate]
  have sights : (spectrum (burst n)).view = .emission tick::.receive::(List.replicate (n+1) (Seen.emission tick)++[Seen.receive]) := by
    have emits : view "spectrum" 0 true (List.replicate (n+1) (Action.emit "spectrum" tick)++[Action.recv 0]) =
        List.replicate (n+1) (Seen.emission tick)++[Seen.receive] := view_emits (n+1) tick [.recv 0]
    exact congrArg (fun rest => Seen.emission tick::.receive::rest) emits
  rw [receipts_chosen _ (by rw [quiet]; decide),sights]
  exact congrArg (List.cons (some (tick.frame 0))) (burst_latest n 1 [] tick)

theorem view_refused (n : Nat) (rest : List Action) :
    view "spectrum" 0 true (List.replicate n (Action.subscribe "spectrum" .dropNewest)++rest) = view "spectrum" 0 true rest := by
  induction n with
  | zero => rfl
  | succ n ih => simpa [List.replicate_succ,view,seen,stays] using ih

theorem refused_receipts {streams : Table String StreamRegistration} {reg : StreamRegistration} (named : get streams "spectrum" = some reg)
    (only : reg.spec.backpressurePolicies.contains .dropNewest = false) (n drawn : Nat) (receivers : List ConsumerRx) (rest : List Action) :
    outputs (step id) (receipt id) (own 0) ⟨streams,drawn % 2^64,receivers⟩ (List.replicate n (Action.subscribe "spectrum" .dropNewest)++rest) =
      outputs (step id) (receipt id) (own 0) ⟨streams,(drawn+n) % 2^64,receivers⟩ rest := by
  induction n generalizing drawn with
  | zero => rfl
  | succ n ih =>
    have refused : step id ⟨streams,drawn % 2^64,receivers⟩ (.subscribe "spectrum" .dropNewest) = ⟨streams,(drawn+1) % 2^64,receivers⟩ := by
      simp only [step,perform,Prod.map_snd,StreamCoordinator.subscribe,named,only]
      rw [Nat.mod_add_mod]
      rfl
    rw [List.replicate_succ,List.cons_append,outputs,if_neg (by decide),refused,ih,Nat.add_right_comm]
    rfl

theorem crossed_receipts : (spectrum (crossed (2^64-1))).receipts = [none] := by
  have start : (spectrum (crossed (2^64-1))).start = ⟨(spectrum []).start.streams,1 % 2^64,(spectrum []).start.receivers⟩ := rfl
  have named : get (spectrum []).start.streams "spectrum" =
    some ⟨⟨"audio.spectrum.v1",["json"],60,256,[.dropOldest]⟩,[⟨0,.dropOldest,0,0⟩]⟩ := rfl
  have shared := refused_receipts named rfl (2^64-1) 1 (spectrum []).start.receivers (.subscribe "spectrum" .dropOldest::.unsubscribe 1::plain)
  have round_ : (1+(2^64-1)) % 2^64 = 0 := by norm_num
  rw [round_] at shared
  rw [Subscription.receipts,start]
  exact shared.trans (by decide)

-- Both counters go round: a consumer that keeps the latest of 2^64 frames gets the number it had before, and
-- another consumer's handle can silence it.
theorem fan_out_wraps : ¬ (∀ s : Subscription id,(s.received.map StreamFrame.seq).Pairwise (· < ·)) ∧
    ¬ ∀ s other : Subscription id,other.policy = s.policy → other.view = s.view → other.receipts = s.receipts := by
  constructor
  · intro ascending
    have twice := ascending (spectrum (burst (2^64-1)))
    have round_ : (1+(2^64-1)) % 2^64 = 0 := by norm_num
    rw [Subscription.received,burst_receipts,round_] at twice
    revert twice
    decide
  · intro alike
    have sights : (spectrum (crossed (2^64-1))).view = (spectrum plain).view := view_refused _ _
    have same := alike (spectrum plain) (spectrum (crossed (2^64-1))) rfl sights
    rw [crossed_receipts] at same
    revert same
    decide

end

end EvoCore.Streams
