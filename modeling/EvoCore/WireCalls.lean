import EvoCore.Runs
import EvoCore.Tables

namespace EvoCore.WireCalls
open Runs Tables

-- The client of crates/evo/src/wire_client.rs with its two loops and the plugin at the other end.
-- A frame is known by its cid and by what it was made for; a reply carries both over. The frames
-- that the plugin sends of its own accord never reach the pending map.
inductive Source where
  | call (caller : Nat)
  | event
  | plugin
deriving DecidableEq,Repr

structure Frame where
  cid : UInt64
  source : Source
deriving DecidableEq,Repr

inductive Outcome where
  | frame (frame : Frame)
  | disconnected
deriving DecidableEq,Repr

inductive Slot where
  | empty
  | sent (outcome : Outcome)
  | dropped
deriving DecidableEq,Repr

-- `request` between its awaits. `cleaning` is after a failed send or a dropped sender, with the map
-- not yet locked.
inductive Stage where
  | entering
  | sending
  | awaiting
  | cleaning
  | returned (outcome : Outcome)
  | cancelled
deriving DecidableEq,Repr

structure Call where
  cid : UInt64
  stage : Stage
  slot : Slot
deriving DecidableEq,Repr

inductive Writer where
  | running
  | drained
  | gone
deriving DecidableEq,Repr

structure Client where
  nextCid : UInt64
  alive : Bool
  pending : Table UInt64 Nat
  calls : List Call
  queue : List Frame
  writer : Writer
  reader : Bool
  plugin : List Frame
  inbound : List Frame
  read : List Frame

inductive Verb where
  | lifecycle
  | handleRequest (correlationId : UInt64)
  | custody (routerCid : UInt64)
deriving DecidableEq,Repr

inductive Event where
  | begins (verb : Verb)
  | register (caller : Nat)
  | send (caller : Nat)
  | recv (caller : Nat)
  | clean (caller : Nat)
  | cancel (caller : Nat)
  | push
  | write
  | writerExits
  | writerDrops
  | answer (position : Nat)
  | emits (cid : UInt64)
  | read
  | readerExits
deriving DecidableEq,Repr

def outboundChannelCapacity : Nat := 32

def Client.spawn : Client where
  nextCid := 1
  alive := true
  pending := ∅
  calls := []
  queue := []
  writer := .running
  reader := true
  plugin := []
  inbound := []
  read := []

def Call.listens (c : Call) : Bool := c.stage = .sending || c.stage = .awaiting

-- A oneshot send to a receiver that is gone does nothing.
def Call.offer (outcome : Outcome) (c : Call) : Call := if c.listens then {c with slot := .sent outcome} else c

def Call.hangUp (c : Call) : Call := if c.listens then {c with slot := .dropped} else c

def Client.to (s : Client) (caller : Nat) (stage : Stage) : Client :=
  {s with calls := s.calls.modify caller fun c => {c with stage := stage}}

def Client.begin (s : Client) : Verb → Client
  | .lifecycle => {s with nextCid := s.nextCid+1,calls := s.calls ++ [⟨s.nextCid,.entering,.empty⟩]}
  | .handleRequest correlationId => {s with calls := s.calls ++ [⟨correlationId,.entering,.empty⟩]}
  | .custody routerCid => {s with calls := s.calls ++ [⟨routerCid,.entering,.empty⟩]}

-- A sender that the map held under the key is dropped, by the insert as by the removal.
def Client.release (s : Client) (cid : UInt64) : Client :=
  match get s.pending cid with
  | none => s
  | some holder => {s with pending := s.pending.erase cid,calls := s.calls.modify holder Call.hangUp}

def Client.register (s : Client) (caller : Nat) (c : Call) : Client :=
  if s.alive then
    let freed := s.release c.cid
    {freed with pending := freed.pending.insert c.cid caller}.to caller .sending
  else s.to caller (.returned .disconnected)

def Client.enqueue (s : Client) (frame : Frame) : Client := {s with queue := s.queue ++ [frame]}

def Client.sendFrame (s : Client) (caller : Nat) (c : Call) : Client :=
  if s.writer = .gone then s.to caller .cleaning
  else if s.queue.length < outboundChannelCapacity then (s.enqueue ⟨c.cid,.call caller⟩).to caller .awaiting
  else s

def Client.recvReply (s : Client) (caller : Nat) (c : Call) : Client :=
  match c.slot with
  | .empty => s
  | .sent outcome => s.to caller (.returned outcome)
  | .dropped => s.to caller .cleaning

def Client.push (s : Client) : Client :=
  let minted := {s with nextCid := s.nextCid+1}
  if s.writer ≠ .gone ∧ s.queue.length < outboundChannelCapacity then minted.enqueue ⟨s.nextCid,.event⟩ else minted

def drainAndDisable (s : Client) : Client where
  nextCid := s.nextCid
  alive := false
  pending := ∅
  calls := (s.pending.entries.map (·.2)).foldl (fun calls caller => calls.modify caller (Call.offer .disconnected)) s.calls
  queue := s.queue
  writer := s.writer
  reader := s.reader
  plugin := s.plugin
  inbound := s.inbound
  read := s.read

def handleInboundFrame (s : Client) (frame : Frame) : Client :=
  match frame.source with
  | .plugin => s
  | _ =>
    match get s.pending frame.cid with
    | none => s
    | some holder => {s with
        pending := s.pending.erase frame.cid
        calls := s.calls.modify holder (Call.offer (.frame frame))}

def Client.step (s : Client) : Event → Client
  | .begins verb => s.begin verb
  | .register caller =>
    match s.calls[caller]? with
    | some c => if c.stage = .entering then s.register caller c else s
    | none => s
  | .send caller =>
    match s.calls[caller]? with
    | some c => if c.stage = .sending then s.sendFrame caller c else s
    | none => s
  | .recv caller =>
    match s.calls[caller]? with
    | some c => if c.stage = .awaiting then s.recvReply caller c else s
    | none => s
  | .clean caller =>
    match s.calls[caller]? with
    | some c => if c.stage = .cleaning then (s.release c.cid).to caller (.returned .disconnected) else s
    | none => s
  | .cancel caller =>
    match s.calls[caller]? with
    | some c => if c.listens then s.to caller .cancelled else s
    | none => s
  | .push => s.push
  | .write =>
    match s.writer,s.queue with
    | .running,frame::rest => {s with queue := rest,plugin := s.plugin ++ [frame]}
    | _,_ => s
  | .writerExits => if s.writer = .running then {drainAndDisable s with writer := .drained} else s
  | .writerDrops => if s.writer = .drained then {s with writer := .gone,queue := []} else s
  | .answer position =>
    match s.plugin[position]? with
    | some frame => {s with plugin := s.plugin.eraseIdx position,inbound := s.inbound ++ [frame]}
    | none => s
  | .emits cid => {s with inbound := s.inbound ++ [⟨cid,.plugin⟩]}
  | .read =>
    match s.reader,s.inbound with
    | true,frame::rest => {handleInboundFrame s frame with inbound := rest,read := s.read ++ [frame]}
    | _,_ => s
  | .readerExits => if s.reader then {drainAndDisable s with reader := false} else s

def Client.inFlight (s : Client) : List Frame := s.queue ++ s.plugin ++ s.inbound

def Call.outcome? (c : Call) : Option Outcome :=
  match c.stage,c.slot with
  | .returned outcome,_ => some outcome
  | .sending,.sent outcome => some outcome
  | .awaiting,.sent outcome => some outcome
  | _,_ => none

def Client.cancelled (s : Client) (caller : Nat) : Prop := ∃ c,s.calls[caller]? = some c ∧ c.stage = .cancelled

-- The steps that end a call once a loop is gone: its own and the writer's.
def Event.ends (caller : Nat) : Event → Bool
  | .register i => i = caller
  | .send i => i = caller
  | .recv i => i = caller
  | .clean i => i = caller
  | .write => true
  | .writerDrops => true
  | _ => false

def Ends (s : Client) (caller : Nat) : Prop :=
  ∃ events outcome,(∀ event,event ∈ events → event.ends caller) ∧
    ∃ c,(run Client.step s events).calls[caller]? = some c ∧ c.stage = .returned outcome

structure Answered (s : Client) : Prop where
  own : ∀ (i : Nat) (c : Call) frame,s.calls[i]? = some c → c.outcome? = some (.frame frame) → frame.source = .call i
  lost : ∀ (i : Nat) (c : Call),s.calls[i]? = some c → c.outcome? = some .disconnected → s.alive = false
  kept : ∀ (i : Nat) (c : Call),s.calls[i]? = some c → c.listens → c.slot ≠ .dropped
  waits : ∀ (i : Nat) (c : Call),s.calls[i]? = some c → c.listens → c.slot = .empty →
    s.alive ∧ (c.stage = .sending ∨ ∃ frame,frame ∈ s.inFlight ∧ frame.source = .call i)
  ends : s.alive = false → ∀ (i : Nat) (c : Call),s.calls[i]? = some c → c.stage ≠ .cancelled → Ends s i
  cleared : ∀ cid (i : Nat),get s.pending cid = some i → ∀ frame,frame ∈ s.read → frame.source ≠ .call i

-- A cid goes into the map only when nothing under it is awaited or on its way, and an event's cid is
-- not one that a call waits under.
def Distinct (s : Client) : Event → Prop
  | .register caller => ∀ c,s.calls[caller]? = some c → c.stage = .entering → s.alive →
      (∀ holder,get s.pending c.cid = some holder → s.cancelled holder) ∧
        ∀ frame,frame ∈ s.inFlight → frame.source ≠ .plugin → frame.cid ≠ c.cid
  | .push => ∀ holder,get s.pending s.nextCid = some holder → s.cancelled holder
  | _ => True

structure Standing (s : Client) (i : Nat) (c : Call) : Prop where
  own : ∀ frame,c.outcome? = some (.frame frame) → frame.source = .call i
  lost : c.outcome? = some .disconnected → s.alive = false
  kept : c.listens → c.slot ≠ .dropped
  waits : c.listens → c.slot = .empty → s.alive ∧ get s.pending c.cid = some i ∧
    (c.stage = .sending ∨ ∃ frame,frame ∈ s.inFlight ∧ frame.source = .call i)
  unsent : c.stage = .sending → ∀ frame,c.slot ≠ .sent (.frame frame)
  cleaning : c.stage = .cleaning → s.alive = false
  fresh : c.stage = .entering → c.slot = .empty

structure Correlated (s : Client) : Prop where
  standing : ∀ (i : Nat) (c : Call),s.calls[i]? = some c → Standing s i c
  holds : ∀ cid (i : Nat),get s.pending cid = some i → ∃ c,s.calls[i]? = some c ∧ c.cid = cid ∧
    (c.listens ∧ c.slot = .empty ∨ c.stage = .cancelled)
  traced : ∀ (frame : Frame) (i : Nat),frame ∈ s.inFlight ++ s.read → frame.source = .call i →
    ∃ c,s.calls[i]? = some c ∧ c.cid = frame.cid ∧ c.stage ≠ .entering ∧ c.stage ≠ .sending
  apart : ∀ (frame : Frame) (i : Nat),frame ∈ s.inFlight → frame.source ≠ .plugin → get s.pending frame.cid = some i →
    frame.source = .call i ∨ s.cancelled i
  cleared : ∀ cid (i : Nat),get s.pending cid = some i → ∀ frame,frame ∈ s.read → frame.source ≠ .call i
  exited : s.alive = false → ∀ cid,get s.pending cid = none
  writer : s.writer ≠ .running → s.alive = false

variable {s : Client} {c : Call}

theorem Standing.moved {t : Client} (standing : Standing s i c) (alive : t.alive = s.alive)
    (pending : c.listens → get s.pending c.cid = some i → get t.pending c.cid = some i)
    (flight : c.listens → c.slot = .empty → ∀ frame,frame ∈ s.inFlight → frame.source = .call i →
      ∃ frame,frame ∈ t.inFlight ∧ frame.source = .call i) : Standing t i c := by
  refine ⟨standing.own,?_,standing.kept,?_,standing.unsent,?_,standing.fresh⟩
  · rw [alive]
    exact standing.lost
  · intro listens empty
    obtain ⟨up,held,place⟩ := standing.waits listens empty
    rw [alive]
    refine ⟨up,pending listens held,?_⟩
    rcases place with sending | ⟨frame,member,source⟩
    · exact .inl sending
    · exact .inr (flight listens empty frame member source)
  · rw [alive]
    exact standing.cleaning

theorem Correlated.frames {t : Client} (held : Correlated s) (calls : t.calls = s.calls) (pending : t.pending = s.pending)
    (alive : t.alive = s.alive) (read : t.read = s.read) (writer : t.writer ≠ .running → s.alive = false)
    (flight : ∀ frame,frame ∈ s.inFlight → s.alive → frame ∈ t.inFlight)
    (origin : ∀ frame,frame ∈ t.inFlight → frame ∈ s.inFlight ∨ frame.source = .plugin ∨
      frame.source = .event ∧ ∀ holder,get s.pending frame.cid = some holder → s.cancelled holder) : Correlated t := by
  refine ⟨?_,?_,?_,?_,?_,?_,?_⟩
  · intro i c there
    rw [calls] at there
    apply (held.standing i c there).moved alive (fun _ found => by rw [pending]; exact found)
    intro listens empty frame member source
    exact ⟨frame,flight frame member ((held.standing i c there).waits listens empty).1,source⟩
  · rw [pending,calls]
    exact held.holds
  · intro frame i member source
    rw [calls]
    rw [List.mem_append,read] at member
    rcases member with flying | done
    · rcases origin frame flying with old | foreign | ⟨event,_⟩
      · exact held.traced frame i (List.mem_append_left _ old) source
      · rw [source] at foreign
        cases foreign
      · rw [source] at event
        cases event
    · exact held.traced frame i (List.mem_append_right _ done) source
  · intro frame i member own there
    rw [pending] at there
    have same : t.cancelled i ↔ s.cancelled i := by simp [Client.cancelled,calls]
    rw [same]
    rcases origin frame member with old | foreign | ⟨event,free⟩
    · exact held.apart frame i old own there
    · exact absurd foreign own
    · exact .inr (free i there)
  · rw [pending,read]
    exact held.cleared
  · rw [pending,alive]
    exact held.exited
  · rw [alive]
    exact writer

theorem Correlated.moves {t : Client} (held : Correlated s) (there : s.calls[i]? = some c)
    (calls : t.calls = s.calls.modify i fun c => {c with stage := stage}) (pending : t.pending = s.pending)
    (alive : t.alive = s.alive) (read : t.read = s.read) (writer : t.writer = s.writer)
    (standing : Standing t i {c with stage := stage}) (still : c.stage ≠ .cancelled)
    (late : stage ≠ .entering ∧ stage ≠ .sending)
    (keeps : ∀ cid,get s.pending cid = some i → {c with stage := stage}.listens ∧ c.slot = .empty ∨ stage = .cancelled)
    (flight : ∀ frame,frame ∈ s.inFlight → frame ∈ t.inFlight)
    (origin : ∀ frame,frame ∈ t.inFlight → frame ∈ s.inFlight ∨
      frame = ⟨c.cid,.call i⟩ ∧ ∀ holder,get s.pending c.cid = some holder → holder = i) : Correlated t := by
  have cancelled (j : Nat) (gone : s.cancelled j) : t.cancelled j := by
    obtain ⟨before,found,ended⟩ := gone
    refine ⟨before,?_,ended⟩
    rw [calls]
    apply modify_other found
    intro same
    subst same
    rw [there] at found
    cases found
    exact still ended
  refine ⟨?_,?_,?_,?_,?_,?_,?_⟩
  · intro j after found
    rw [calls] at found
    obtain ⟨before,old,rfl⟩ := modify_cases found
    split
    · rename_i same
      subst same
      rw [there] at old
      cases old
      exact standing
    · apply (held.standing j before old).moved alive
      · exact fun _ held => by rw [pending]; exact held
      · exact fun _ _ frame member source => ⟨frame,flight frame member,source⟩
  · intro cid j holds
    rw [pending] at holds
    obtain ⟨before,old,own,state⟩ := held.holds cid j holds
    rw [calls]
    by_cases same : i = j
    · subst same
      rw [there] at old
      cases old
      exact ⟨_,modify_same there,own,keeps cid holds⟩
    · exact ⟨before,modify_other old same,own,state⟩
  · intro frame j member source
    have known (member : frame ∈ s.inFlight ++ s.read) :
        ∃ after,t.calls[j]? = some after ∧ after.cid = frame.cid ∧ after.stage ≠ .entering ∧ after.stage ≠ .sending := by
      obtain ⟨before,old,own,state⟩ := held.traced frame j member source
      rw [calls]
      by_cases same : i = j
      · subst same
        rw [there] at old
        cases old
        exact ⟨_,modify_same there,own,late⟩
      · exact ⟨before,modify_other old same,own,state⟩
    rw [List.mem_append,read] at member
    rcases member with flying | done
    · rcases origin frame flying with old | ⟨new,_⟩
      · exact known (List.mem_append_left _ old)
      · subst new
        cases source
        rw [calls]
        exact ⟨_,modify_same there,rfl,late⟩
    · exact known (List.mem_append_right _ done)
  · intro frame j member own holds
    rw [pending] at holds
    rcases origin frame member with old | ⟨new,alone⟩
    · exact (held.apart frame j old own holds).imp_right (cancelled j)
    · subst new
      exact .inl (by rw [alone j holds])
  · rw [pending,read]
    exact held.cleared
  · rw [pending,alive]
    exact held.exited
  · rw [writer,alive]
    exact held.writer

@[simp] theorem to_calls (i : Nat) (stage : Stage) :
    (s.to i stage).calls = s.calls.modify i fun c => {c with stage := stage} := rfl
@[simp] theorem to_pending (i : Nat) (stage : Stage) : (s.to i stage).pending = s.pending := rfl
@[simp] theorem to_alive (i : Nat) (stage : Stage) : (s.to i stage).alive = s.alive := rfl
@[simp] theorem to_inFlight (i : Nat) (stage : Stage) : (s.to i stage).inFlight = s.inFlight := rfl

theorem enqueue_inFlight {frame new : Frame} : frame ∈ (s.enqueue new).inFlight ↔ frame ∈ s.inFlight ∨ frame = new := by
  simp only [Client.enqueue,Client.inFlight,List.mem_append,List.mem_singleton]
  tauto

theorem Correlated.held_empty (held : Correlated s) (there : s.calls[i]? = some c) (listens : c.listens)
    (holds : get s.pending cid = some i) : c.slot = .empty := by
  obtain ⟨found,same,-,state⟩ := held.holds cid i holds
  rw [there] at same
  cases same
  rcases state with ⟨-,empty⟩ | gone
  · exact empty
  · simp [Call.listens,gone] at listens

theorem Correlated.leaves (held : Correlated s) (there : s.calls[i]? = some c) (still : c.stage ≠ .cancelled)
    (standing : Standing (s.to i stage) i {c with stage := stage}) (late : stage ≠ .entering ∧ stage ≠ .sending)
    (keeps : ∀ cid,get s.pending cid = some i → {c with stage := stage}.listens ∧ c.slot = .empty ∨ stage = .cancelled) :
    Correlated (s.to i stage) :=
  held.moves there rfl rfl rfl rfl rfl standing still late keeps (fun _ member => member) fun _ member => .inl member

theorem Correlated.unheld (held : Correlated s) (dead : s.alive = false) (holds : get s.pending cid = some i) : False := by
  rw [held.exited dead cid] at holds
  cases holds

-- Whatever its stage, a call that saw a loop exit may end with Disconnected.
theorem Correlated.disconnects (held : Correlated s) (there : s.calls[i]? = some c) (still : c.stage ≠ .cancelled)
    (dead : s.alive = false) (stage : Stage) (last : stage = .cleaning ∨ stage = .returned .disconnected) :
    Correlated (s.to i stage) := by
  apply held.leaves there still
  · rcases last with rfl | rfl
    · exact ⟨by simp [Call.outcome?],fun _ => dead,by simp [Call.listens],by simp [Call.listens],by simp,fun _ => dead,by simp⟩
    · exact ⟨by simp [Call.outcome?],fun _ => dead,by simp [Call.listens],by simp [Call.listens],by simp,by simp,by simp⟩
  · rcases last with rfl | rfl <;> simp
  · exact fun cid holds => (held.unheld dead holds).elim

theorem send_correlated (held : Correlated s) (there : s.calls[i]? = some c) (sending : c.stage = .sending) :
    Correlated (s.sendFrame i c) := by
  have standing := held.standing i c there
  have listens : c.listens := by simp [Call.listens,sending]
  unfold Client.sendFrame
  split
  · rename_i gone
    exact held.disconnects there (by simp [sending]) (held.writer (by simp [gone])) _ (.inl rfl)
  · split
    · have flying : ∀ frame,frame ∈ ((s.enqueue ⟨c.cid,.call i⟩).to i .awaiting).inFlight ↔
          frame ∈ s.inFlight ∨ frame = ⟨c.cid,.call i⟩ := by
        intro frame
        rw [to_inFlight,enqueue_inFlight]
      have outcome : {c with stage := .awaiting}.outcome? = c.outcome? := by
        simp only [Call.outcome?,sending]
        cases c.slot <;> rfl
      apply held.moves (t := (s.enqueue ⟨c.cid,.call i⟩).to i .awaiting) there rfl rfl rfl rfl rfl
      · refine ⟨?_,?_,?_,?_,by simp,by simp,by simp⟩
        · rw [outcome]
          exact standing.own
        · rw [outcome]
          exact standing.lost
        · exact fun _ => standing.kept listens
        · intro _ empty
          obtain ⟨up,holds,-⟩ := standing.waits listens empty
          exact ⟨up,holds,.inr ⟨⟨c.cid,.call i⟩,(flying _).mpr (.inr rfl),rfl⟩⟩
      · simp [sending]
      · simp
      · exact fun _ holds => .inl ⟨by simp [Call.listens],held.held_empty there listens holds⟩
      · exact fun frame member => (flying frame).mpr (.inl member)
      · intro frame member
        refine ((flying frame).mp member).imp_right ?_
        intro new
        refine ⟨new,?_⟩
        intro holder holds
        -- Its own entry is still there: nothing was sent that could have been answered.
        cases slot : c.slot with
        | empty =>
          rw [(standing.waits listens slot).2.1] at holds
          exact (Option.some.inj holds).symm
        | sent outcome =>
          cases outcome with
          | frame frame => exact absurd slot (standing.unsent sending frame)
          | disconnected =>
            have dead := standing.lost (by simp [Call.outcome?,sending,slot])
            exact (held.unheld dead holds).elim
        | dropped => exact absurd slot (standing.kept listens)
    · exact held

theorem recv_correlated (held : Correlated s) (there : s.calls[i]? = some c) (awaiting : c.stage = .awaiting) :
    Correlated (s.recvReply i c) := by
  have standing := held.standing i c there
  have listens : c.listens := by simp [Call.listens,awaiting]
  unfold Client.recvReply
  cases slot : c.slot with
  | empty => exact held
  | dropped => exact absurd slot (standing.kept listens)
  | sent outcome =>
    have got : c.outcome? = some outcome := by simp [Call.outcome?,awaiting,slot]
    apply held.leaves there (by simp [awaiting])
    · refine ⟨?_,?_,by simp [Call.listens],by simp [Call.listens],by simp,by simp,by simp⟩
      · intro frame same
        apply standing.own frame
        rw [got]
        simpa [Call.outcome?] using same
      · intro same
        apply standing.lost
        rw [got]
        simpa [Call.outcome?] using same
    · simp
    · intro cid holds
      rw [held.held_empty there listens holds] at slot
      cases slot

theorem cancel_correlated (held : Correlated s) (there : s.calls[i]? = some c) (listens : c.listens) :
    Correlated (s.to i .cancelled) := by
  have still : c.stage ≠ .cancelled := by
    intro gone
    simp [Call.listens,gone] at listens
  apply held.leaves there still
  · exact ⟨by simp [Call.outcome?],by simp [Call.outcome?],by simp [Call.listens],by simp [Call.listens],by simp,by simp,by simp⟩
  · simp
  · exact fun _ _ => .inr rfl

-- Nothing waits under the key, so the insert drops no sender that is listened to.
theorem release_cancelled (free : ∀ holder,get s.pending cid = some holder → s.cancelled holder) :
    (s.release cid).calls = s.calls := by
  unfold Client.release
  cases holds : get s.pending cid with
  | none => rfl
  | some holder =>
    obtain ⟨c,there,gone⟩ := free holder holds
    apply modify_fixed
    intro found same
    rw [there] at same
    cases same
    simp [Call.hangUp,Call.listens,gone]

theorem release_pending : get (s.release cid).pending key = if key = cid then none else get s.pending key := by
  unfold Client.release
  cases holds : get s.pending cid with
  | none =>
    by_cases same : key = cid
    · rw [if_pos same,same]
      exact holds
    · rw [if_neg same]
  | some holder => simp only [get_erase]

theorem release_others (s : Client) (cid : UInt64) : (s.release cid).alive = s.alive ∧ (s.release cid).inFlight = s.inFlight ∧
    (s.release cid).read = s.read ∧ (s.release cid).writer = s.writer := by
  unfold Client.release
  split
  · exact ⟨rfl,rfl,rfl,rfl⟩
  · exact ⟨rfl,rfl,rfl,rfl⟩

structure Registers (s : Client) (i : Nat) (c : Call) (t : Client) : Prop where
  calls : t.calls = s.calls.modify i fun c => {c with stage := .sending}
  pending : ∀ key,get t.pending key = if key = c.cid then some i else get s.pending key
  alive : t.alive = true
  flight : t.inFlight = s.inFlight
  read : t.read = s.read
  writer : t.writer = s.writer

theorem register_registers (up : s.alive) (free : ∀ holder,get s.pending c.cid = some holder → s.cancelled holder) :
    Registers s i c (s.register i c) := by
  obtain ⟨alive,flight,read,writer⟩ := release_others s c.cid
  simp only [Client.register,up,↓reduceIte]
  refine ⟨?_,?_,?_,flight,read,writer⟩
  · rw [to_calls,release_cancelled free]
  · intro key
    simp only [to_pending,get_insert,release_pending]
    split <;> rfl
  · rw [to_alive,alive,up]

theorem register_correlated (held : Correlated s) (there : s.calls[i]? = some c) (entering : c.stage = .entering)
    (free : ∀ holder,get s.pending c.cid = some holder → s.cancelled holder)
    (unused : ∀ frame,frame ∈ s.inFlight → frame.source ≠ .plugin → frame.cid ≠ c.cid) (up : s.alive)
    (after : Registers s i c t) : Correlated t := by
  have empty := (held.standing i c there).fresh entering
  have unheld {cid : UInt64} (holds : get s.pending cid = some i) : False := by
    obtain ⟨found,same,-,state⟩ := held.holds cid i holds
    rw [there] at same
    cases same
    simp [Call.listens,entering] at state
  have untraced {frame : Frame} (member : frame ∈ s.inFlight ++ s.read) (source : frame.source = .call i) : False := by
    obtain ⟨found,same,-,early,-⟩ := held.traced frame i member source
    rw [there] at same
    cases same
    exact early entering
  have others {j : Nat} {other : Call} (found : s.calls[j]? = some other) (apart : i ≠ j) : t.calls[j]? = some other := by
    rw [after.calls]
    exact modify_other found apart
  refine ⟨?_,?_,?_,?_,?_,?_,?_⟩
  · intro j new found
    rw [after.calls] at found
    obtain ⟨before,old,rfl⟩ := modify_cases found
    split
    · rename_i same
      subst same
      rw [there] at old
      cases old
      refine ⟨by simp [Call.outcome?,empty],by simp [Call.outcome?,empty],by simp [empty],?_,by simp [empty],by simp,by simp⟩
      intro _ _
      exact ⟨after.alive,by simp [after.pending],.inl rfl⟩
    · apply (held.standing j before old).moved (by rw [after.alive,up])
      · intro listens holds
        rw [after.pending,if_neg]
        · exact holds
        · intro same
          obtain ⟨gone,found,stage⟩ := free j (same ▸ holds)
          rw [old] at found
          cases found
          simp [Call.listens,stage] at listens
      · intro _ _ frame member source
        rw [after.flight]
        exact ⟨frame,member,source⟩
  · intro cid j holds
    rw [after.pending] at holds
    split at holds
    · rename_i same
      cases Option.some.inj holds
      rw [after.calls]
      exact ⟨_,modify_same there,same.symm,.inl ⟨by simp [Call.listens],empty⟩⟩
    · obtain ⟨before,old,own,state⟩ := held.holds cid j holds
      refine ⟨before,others old ?_,own,state⟩
      intro same
      exact unheld (same ▸ holds)
  · intro frame j member source
    rw [after.flight,after.read] at member
    obtain ⟨before,old,own,state⟩ := held.traced frame j member source
    refine ⟨before,others old ?_,own,state⟩
    intro same
    exact untraced member (same ▸ source)
  · intro frame j member own holds
    rw [after.flight] at member
    rw [after.pending,if_neg (unused frame member own)] at holds
    refine (held.apart frame j member own holds).imp_right ?_
    intro ⟨gone,old,stage⟩
    refine ⟨gone,others old ?_,stage⟩
    intro same
    exact unheld (same ▸ holds)
  · intro cid j holds frame member source
    rw [after.read] at member
    rw [after.pending] at holds
    split at holds
    · cases Option.some.inj holds
      exact untraced (List.mem_append_right _ member) source
    · exact held.cleared cid j holds frame member source
  · intro dead
    rw [after.alive] at dead
    cases dead
  · rw [after.writer,after.alive]
    intro stopped
    rw [held.writer stopped] at up
    cases up

theorem begin_correlated (held : Correlated s) (calls : t.calls = s.calls ++ [⟨cid,.entering,.empty⟩])
    (pending : t.pending = s.pending) (alive : t.alive = s.alive) (flight : t.inFlight = s.inFlight)
    (read : t.read = s.read) (writer : t.writer = s.writer) : Correlated t := by
  have kept {j : Nat} {c : Call} (old : s.calls[j]? = some c) : t.calls[j]? = some c := by
    obtain ⟨bound,-⟩ := List.getElem?_eq_some_iff.mp old
    rw [calls,List.getElem?_append_left bound]
    exact old
  refine ⟨?_,?_,?_,?_,?_,?_,?_⟩
  · intro j c found
    rw [calls,List.getElem?_append] at found
    split at found
    · apply (held.standing j c found).moved alive
      · exact fun _ holds => by rw [pending]; exact holds
      · exact fun _ _ frame member source => ⟨frame,by rw [flight]; exact member,source⟩
    · rw [List.getElem?_singleton] at found
      split at found
      · cases Option.some.inj found
        exact ⟨by simp [Call.outcome?],by simp [Call.outcome?],by simp,by simp [Call.listens],by simp,by simp,by simp⟩
      · cases found
  · intro key j holds
    rw [pending] at holds
    obtain ⟨c,old,state⟩ := held.holds key j holds
    exact ⟨c,kept old,state⟩
  · intro frame j member source
    rw [flight,read] at member
    obtain ⟨c,old,state⟩ := held.traced frame j member source
    exact ⟨c,kept old,state⟩
  · intro frame j member own holds
    rw [flight] at member
    rw [pending] at holds
    refine (held.apart frame j member own holds).imp_right ?_
    intro ⟨c,old,gone⟩
    exact ⟨c,kept old,gone⟩
  · rw [pending,read]
    exact held.cleared
  · rw [pending,alive]
    exact held.exited
  · rw [writer,alive]
    exact held.writer

theorem offered_calls {holders : List Nat} {calls : List Call} :
    (holders.foldl (fun calls caller => calls.modify caller (Call.offer .disconnected)) calls)[j]? =
      calls[j]?.map fun c => if j ∈ holders then c.offer .disconnected else c := by
  induction holders generalizing calls with
  | nil => simp
  | cons first rest ih =>
    rw [List.foldl_cons,ih,List.getElem?_modify]
    cases calls[j]? with
    | none => rfl
    | some c =>
      have twice : (c.offer .disconnected).offer .disconnected = c.offer .disconnected := by
        unfold Call.offer
        by_cases listens : c.listens
        · simp [listens]
        · simp [listens]
      by_cases same : first = j
      · subst same
        by_cases again : first ∈ rest <;> simp [again,twice]
      · have apart : j ≠ first := fun equal => same equal.symm
        simp [same,apart]

theorem drain_calls : (drainAndDisable s).calls[j]? =
    s.calls[j]?.map fun c => if j ∈ s.pending.entries.map (·.2) then c.offer .disconnected else c := offered_calls

theorem holder_iff : j ∈ s.pending.entries.map (·.2) ↔ ∃ cid,get s.pending cid = some j := by
  constructor
  · intro member
    obtain ⟨⟨cid,holder⟩,entry,rfl⟩ := List.mem_map.mp member
    exact ⟨cid,(entries_get _).mp entry⟩
  · intro ⟨cid,holds⟩
    exact List.mem_map.mpr ⟨⟨cid,j⟩,(entries_get _).mpr holds,rfl⟩

theorem offer_stage : (c.offer outcome).stage = c.stage := by
  unfold Call.offer
  split <;> rfl

theorem offer_cid : (c.offer outcome).cid = c.cid := by
  unfold Call.offer
  split <;> rfl

theorem offer_outcome (listens : c.listens) : (c.offer outcome).outcome? = some outcome := by
  simp only [Call.offer,listens,↓reduceIte,Call.outcome?]
  simp only [Call.listens,Bool.or_eq_true,decide_eq_true_eq] at listens
  rcases listens with sending | awaiting
  · rw [sending]
  · rw [awaiting]

theorem offer_deaf (deaf : ¬ c.listens) : c.offer outcome = c := by
  unfold Call.offer
  rw [if_neg deaf]

theorem drained_standing {t : Client} (standing : Standing s i c) (dead : t.alive = false)
    (heard : c.listens → c.slot = .empty → (∃ cid,get s.pending cid = some i)) :
    Standing t i (if i ∈ s.pending.entries.map (·.2) then c.offer .disconnected else c) := by
  split
  · by_cases listens : c.listens
    · have slot : (c.offer .disconnected).slot = .sent .disconnected := by simp [Call.offer,listens]
      refine ⟨?_,fun _ => dead,by simp [slot],by simp [slot],by simp [slot],fun _ => dead,?_⟩
      · intro frame got
        rw [offer_outcome listens] at got
        cases got
      · intro entering
        rw [offer_stage] at entering
        simp [Call.listens,entering] at listens
    · rw [offer_deaf listens]
      refine ⟨standing.own,fun _ => dead,standing.kept,?_,standing.unsent,fun _ => dead,standing.fresh⟩
      exact fun hears => absurd hears listens
  · rename_i absent
    refine ⟨standing.own,fun _ => dead,standing.kept,?_,standing.unsent,fun _ => dead,standing.fresh⟩
    intro listens empty
    exact absurd (holder_iff.mpr (heard listens empty)) absent

theorem drain_correlated {t : Client} (held : Correlated s) (calls : t.calls = (drainAndDisable s).calls) (pending : t.pending = ∅)
    (dead : t.alive = false) (flight : t.inFlight = s.inFlight) (read : t.read = s.read) : Correlated t := by
  have kept {j : Nat} {c : Call} (old : s.calls[j]? = some c) :
      ∃ after,t.calls[j]? = some after ∧ after.cid = c.cid ∧ after.stage = c.stage := by
    rw [calls,drain_calls,old]
    refine ⟨_,rfl,?_,?_⟩
    · split
      · exact offer_cid
      · rfl
    · split
      · exact offer_stage
      · rfl
  refine ⟨?_,?_,?_,?_,?_,?_,?_⟩
  · intro j after found
    rw [calls,drain_calls] at found
    obtain ⟨c,old,rfl⟩ := Option.map_eq_some_iff.mp found
    apply drained_standing (held.standing j c old) dead
    intro listens empty
    exact ⟨c.cid,((held.standing j c old).waits listens empty).2.1⟩
  · simp [pending]
  · intro frame j member source
    rw [flight,read] at member
    obtain ⟨c,old,own,early,unsent⟩ := held.traced frame j member source
    obtain ⟨after,found,cid,stage⟩ := kept old
    exact ⟨after,found,cid.trans own,by rw [stage]; exact early,by rw [stage]; exact unsent⟩
  · simp [pending]
  · simp [pending]
  · simp [pending]
  · exact fun _ => dead

-- What the reader does with a frame: the entry under its cid goes, and the call behind it hears the frame.
structure Hands (s : Client) (frame : Frame) (t : Client) : Prop where
  pending : ∀ key,get t.pending key = if frame.source ≠ .plugin ∧ key = frame.cid then none else get s.pending key
  calls : ∀ j : Nat,t.calls[j]? = s.calls[j]?.map fun c =>
    if frame.source ≠ .plugin ∧ get s.pending frame.cid = some j then c.offer (.frame frame) else c
  alive : t.alive = s.alive
  flight : ∀ other,other ∈ s.inFlight ↔ other = frame ∨ other ∈ t.inFlight
  read : t.read = s.read ++ [frame]
  writer : t.writer = s.writer

theorem handleInboundFrame_hands (inbound : s.inbound = frame::rest) :
    Hands s frame {handleInboundFrame s frame with inbound := rest,read := s.read ++ [frame]} := by
  have unchanged : handleInboundFrame s frame = s → (frame.source = .plugin ∨ get s.pending frame.cid = none) →
      Hands s frame {handleInboundFrame s frame with inbound := rest,read := s.read ++ [frame]} := by
    intro same idle
    refine ⟨?_,?_,by rw [same],?_,rfl,by rw [same]⟩
    · intro key
      simp only [same]
      split
      · rename_i heard
        rw [heard.2]
        exact idle.resolve_left heard.1
      · rfl
    · intro j
      simp only [same]
      have quiet : ¬ (frame.source ≠ .plugin ∧ get s.pending frame.cid = some j) := by
        intro ⟨own,holds⟩
        rw [idle.resolve_left own] at holds
        cases holds
      simp [quiet]
    · intro other
      simp only [same,Client.inFlight,inbound,List.mem_append,List.mem_cons]
      tauto
  by_cases own : frame.source = .plugin
  · exact unchanged (by simp [handleInboundFrame,own]) (.inl own)
  · cases holds : get s.pending frame.cid with
    | none =>
      apply unchanged _ (.inr holds)
      unfold handleInboundFrame
      split
      · rfl
      · rw [holds]
    | some holder =>
      have handed : handleInboundFrame s frame = {s with
          pending := s.pending.erase frame.cid
          calls := s.calls.modify holder (Call.offer (.frame frame))} := by
        unfold handleInboundFrame
        split
        · rename_i plugin
          exact absurd plugin own
        · rw [holds]
      rw [handed]
      refine ⟨?_,?_,rfl,?_,rfl,rfl⟩
      · intro key
        simp [own]
      · intro j
        simp only [List.getElem?_modify,holds,Option.some.injEq,ne_eq,own,not_false_eq_true,true_and]
        rfl
      · intro other
        simp only [Client.inFlight,inbound,List.mem_append,List.mem_cons]
        tauto

theorem handed_standing {t : Client} {frame : Frame} (held : Correlated s) (hands : Hands s frame t)
    (old : s.calls[j]? = some c) : Standing t j (if frame.source ≠ .plugin ∧ get s.pending frame.cid = some j then
      c.offer (.frame frame) else c) := by
  have standing := held.standing j c old
  have flying : frame ∈ s.inFlight := (hands.flight frame).mpr (.inl rfl)
  have deaf (listens : ¬ c.listens) : Standing t j c :=
    standing.moved hands.alive (fun hears => absurd hears listens) (fun hears => absurd hears listens)
  split
  · rename_i heard
    by_cases listens : c.listens
    · have own : frame.source = .call j := by
        apply (held.apart frame j flying heard.1 heard.2).resolve_right
        intro ⟨gone,found,stage⟩
        rw [old] at found
        cases found
        simp [Call.listens,stage] at listens
      obtain ⟨found,same,-,early,unsent⟩ := held.traced frame j (List.mem_append_left _ flying) own
      rw [old] at same
      cases same
      have slot : (c.offer (.frame frame)).slot = .sent (.frame frame) := by simp [Call.offer,listens]
      refine ⟨?_,?_,by simp [slot],by simp [slot],?_,?_,?_⟩
      · intro other got
        rw [offer_outcome listens] at got
        cases got
        exact own
      · intro got
        rw [offer_outcome listens] at got
        cases got
      · intro sending
        rw [offer_stage] at sending
        exact absurd sending unsent
      · intro cleaning
        rw [offer_stage] at cleaning
        simp [Call.listens,cleaning] at listens
      · intro entering
        rw [offer_stage] at entering
        exact absurd entering early
    · rw [offer_deaf listens]
      exact deaf listens
  · rename_i unheard
    by_cases listens : c.listens
    · apply standing.moved hands.alive
      · intro _ holds
        rw [hands.pending,if_neg]
        · exact holds
        · intro ⟨own,same⟩
          exact unheard ⟨own,same ▸ holds⟩
      · intro _ empty other member source
        rcases (hands.flight other).mp member with same | stays
        · subst same
          obtain ⟨found,same,cid,-⟩ := held.traced other j (List.mem_append_left _ member) source
          rw [old] at same
          cases same
          have holds := (standing.waits listens empty).2.1
          exact absurd ⟨by simp [source],cid ▸ holds⟩ unheard
        · exact ⟨other,stays,source⟩
    · exact deaf listens

theorem hands_correlated {t : Client} {frame : Frame} (held : Correlated s) (hands : Hands s frame t) : Correlated t := by
  have flying : frame ∈ s.inFlight := (hands.flight frame).mpr (.inl rfl)
  have kept {j : Nat} {c : Call} (old : s.calls[j]? = some c) :
      ∃ after,t.calls[j]? = some after ∧ after.cid = c.cid ∧ after.stage = c.stage := by
    rw [hands.calls,old]
    refine ⟨_,rfl,?_,?_⟩
    · split
      · exact offer_cid
      · rfl
    · split
      · exact offer_stage
      · rfl
  have before {key : UInt64} {j : Nat} (holds : get t.pending key = some j) :
      ¬ (frame.source ≠ .plugin ∧ key = frame.cid) ∧ get s.pending key = some j := by
    rw [hands.pending] at holds
    split at holds
    · cases holds
    · rename_i other
      exact ⟨other,holds⟩
  have known {other : Frame} (member : other ∈ t.inFlight ++ t.read) : other ∈ s.inFlight ++ s.read := by
    rw [hands.read,List.mem_append,List.mem_append,List.mem_singleton] at member
    rw [List.mem_append]
    rcases member with flies | done | rfl
    · exact .inl ((hands.flight other).mpr (.inr flies))
    · exact .inr done
    · exact .inl flying
  refine ⟨?_,?_,?_,?_,?_,?_,?_⟩
  · intro j after found
    rw [hands.calls] at found
    obtain ⟨c,old,rfl⟩ := Option.map_eq_some_iff.mp found
    exact handed_standing held hands old
  · intro key j holds
    obtain ⟨other,holds⟩ := before holds
    obtain ⟨c,old,own,state⟩ := held.holds key j holds
    refine ⟨c,?_,own,state⟩
    rw [hands.calls,old,Option.map_some,if_neg]
    intro ⟨heard,same⟩
    obtain ⟨found,again,cid,-⟩ := held.holds frame.cid j same
    rw [old] at again
    cases again
    exact other ⟨heard,own.symm.trans cid⟩
  · intro other j member source
    obtain ⟨c,old,own,early,unsent⟩ := held.traced other j (known member) source
    obtain ⟨after,found,cid,stage⟩ := kept old
    exact ⟨after,found,cid.trans own,by rw [stage]; exact early,by rw [stage]; exact unsent⟩
  · intro other j member own holds
    refine (held.apart other j ((hands.flight other).mpr (.inr member)) own (before holds).2).imp_right ?_
    intro ⟨c,old,gone⟩
    obtain ⟨after,found,-,stage⟩ := kept old
    exact ⟨after,found,stage.trans gone⟩
  · intro key j holds other member source
    obtain ⟨apart,holds⟩ := before holds
    rw [hands.read] at member
    rcases List.mem_append.mp member with done | new
    · exact held.cleared key j holds other done source
    · cases List.mem_singleton.mp new
      obtain ⟨c,old,cid,-⟩ := held.traced frame j (List.mem_append_left _ flying) source
      obtain ⟨found,again,own,-⟩ := held.holds key j holds
      rw [old] at again
      cases again
      exact apart ⟨by simp [source],own.symm.trans cid⟩
  · intro dead key
    rw [hands.alive] at dead
    rw [hands.pending,held.exited dead key]
    split <;> rfl
  · rw [hands.writer,hands.alive]
    exact held.writer

theorem push_correlated (held : Correlated s) (distinct : Distinct s .push) : Correlated s.push := by
  simp only [Client.push]
  split
  · refine held.frames rfl rfl rfl rfl held.writer ?_ ?_
    · exact fun frame member _ => enqueue_inFlight.mpr (.inl member)
    · intro frame member
      rcases enqueue_inFlight.mp member with old | rfl
      · exact .inl old
      · exact .inr (.inr ⟨rfl,distinct⟩)
  · exact held.frames rfl rfl rfl rfl held.writer (fun _ member _ => member) fun _ member => .inl member

theorem transit_correlated (held : Correlated s) (transit : event = .write ∨ event = .writerDrops ∨ (∃ k,event = .answer k) ∨
    ∃ cid,event = .emits cid) : Correlated (s.step event) := by
  rcases transit with rfl | rfl | ⟨position,rfl⟩ | ⟨cid,rfl⟩
  · simp only [Client.step]
    split
    · rename_i frame rest running queued
      have same : ∀ other,other ∈ Client.inFlight {s with queue := rest,plugin := s.plugin ++ [frame]} ↔ other ∈ s.inFlight := by
        intro other
        simp only [Client.inFlight,queued,List.mem_append,List.mem_cons,List.not_mem_nil,or_false]
        tauto
      refine held.frames rfl rfl rfl rfl held.writer ?_ ?_
      · exact fun other member _ => (same other).mpr member
      · exact fun other member => .inl ((same other).mp member)
    · exact held
  · simp only [Client.step]
    split
    · rename_i drained
      have dead := held.writer (by simp [drained])
      refine held.frames rfl rfl rfl rfl (fun _ => dead) ?_ ?_
      · intro other _ up
        rw [dead] at up
        cases up
      · intro other member
        left
        simp only [Client.inFlight,List.mem_append,List.not_mem_nil,false_or] at member ⊢
        tauto
    · exact held
  · simp only [Client.step]
    split
    · rename_i frame there
      have chosen : frame ∈ s.plugin := List.mem_of_getElem? there
      refine held.frames rfl rfl rfl rfl held.writer ?_ ?_
      · intro other member _
        simp only [Client.inFlight,List.mem_append,List.mem_singleton] at member ⊢
        by_cases same : other = frame
        · exact .inr (.inr same)
        · rcases member with (queued | waits) | sent
          · exact .inl (.inl queued)
          · refine .inl (.inr ?_)
            obtain ⟨bound,rfl⟩ := List.getElem?_eq_some_iff.mp there
            have both := (List.getElem_cons_eraseIdx_perm bound).mem_iff.mpr waits
            exact (List.mem_cons.mp both).resolve_left same
          · exact .inr (.inl sent)
      · intro other member
        left
        simp only [Client.inFlight,List.mem_append,List.mem_singleton] at member ⊢
        rcases member with (queued | waits) | sent | rfl
        · exact .inl (.inl queued)
        · exact .inl (.inr (List.mem_of_mem_eraseIdx waits))
        · exact .inr sent
        · exact .inl (.inr chosen)
    · exact held
  · have more : ∀ other,other ∈ (s.step (.emits cid)).inFlight ↔ other ∈ s.inFlight ∨ other = ⟨cid,.plugin⟩ := by
      intro other
      simp only [Client.step,Client.inFlight,List.mem_append,List.mem_singleton]
      tauto
    refine held.frames rfl rfl rfl rfl held.writer ?_ ?_
    · exact fun other member _ => (more other).mpr (.inl member)
    · intro other member
      rcases (more other).mp member with old | rfl
      · exact .inl old
      · exact .inr (.inl rfl)

theorem step_correlated (held : Correlated s) (distinct : Distinct s event) : Correlated (s.step event) := by
  cases event with
  | begins verb =>
    cases verb with
    | lifecycle => exact begin_correlated held rfl rfl rfl rfl rfl rfl
    | handleRequest correlationId => exact begin_correlated held rfl rfl rfl rfl rfl rfl
    | custody routerCid => exact begin_correlated held rfl rfl rfl rfl rfl rfl
  | register caller =>
    simp only [Client.step]
    split
    · rename_i c there
      split
      · rename_i entering
        cases up : s.alive with
        | true =>
          obtain ⟨free,unused⟩ := distinct c there entering up
          exact register_correlated held there entering free unused up (register_registers up free)
        | false =>
          simp only [Client.register,up,Bool.false_eq_true,↓reduceIte]
          exact held.disconnects there (by simp [entering]) up _ (.inr rfl)
      · exact held
    · exact held
  | send caller =>
    simp only [Client.step]
    split
    · rename_i c there
      split
      · rename_i sending
        exact send_correlated held there sending
      · exact held
    · exact held
  | recv caller =>
    simp only [Client.step]
    split
    · rename_i c there
      split
      · rename_i awaiting
        exact recv_correlated held there awaiting
      · exact held
    · exact held
  | clean caller =>
    simp only [Client.step]
    split
    · rename_i c there
      split
      · rename_i cleaning
        have dead := (held.standing caller c there).cleaning cleaning
        simp only [Client.release,held.exited dead c.cid]
        exact held.disconnects there (by simp [cleaning]) dead _ (.inr rfl)
      · exact held
    · exact held
  | cancel caller =>
    simp only [Client.step]
    split
    · rename_i c there
      split
      · rename_i listens
        exact cancel_correlated held there listens
      · exact held
    · exact held
  | push => exact push_correlated held distinct
  | write => exact transit_correlated held (.inl rfl)
  | writerExits =>
    simp only [Client.step]
    split
    · exact drain_correlated held rfl rfl rfl rfl rfl
    · exact held
  | writerDrops => exact transit_correlated held (.inr (.inl rfl))
  | answer position => exact transit_correlated held (.inr (.inr (.inl ⟨position,rfl⟩)))
  | emits cid => exact transit_correlated held (.inr (.inr (.inr ⟨cid,rfl⟩)))
  | read =>
    simp only [Client.step]
    split
    · rename_i frame rest running inbound
      exact hands_correlated held (handleInboundFrame_hands inbound)
    · exact held
  | readerExits =>
    simp only [Client.step]
    split
    · exact drain_correlated held rfl rfl rfl rfl rfl
    · exact held

theorem spawn_correlated : Correlated Client.spawn := by
  refine ⟨?_,?_,?_,?_,?_,?_,?_⟩
  · simp [Client.spawn]
  · simp [Client.spawn]
  · simp [Client.spawn,Client.inFlight]
  · simp [Client.spawn]
  · simp [Client.spawn]
  · simp [Client.spawn]
  · simp [Client.spawn]

theorem Ends.after (event : Event) (own : event.ends i) (rest : Ends (s.step event) i) : Ends s i := by
  obtain ⟨events,outcome,owns,last⟩ := rest
  refine ⟨event::events,outcome,?_,last⟩
  intro other member
  rcases List.mem_cons.mp member with rfl | later
  · exact own
  · exact owns other later

theorem ends_returned (there : s.calls[i]? = some c) (returned : c.stage = .returned outcome) : Ends s i :=
  ⟨[],outcome,by simp,c,there,returned⟩

theorem to_at (there : s.calls[i]? = some c) : (s.to i stage).calls[i]? = some {c with stage := stage} := modify_same there

theorem ends_cleaning (held : Correlated s) (dead : s.alive = false) (there : s.calls[i]? = some c) (cleaning : c.stage = .cleaning) :
    Ends s i := by
  apply Ends.after (.clean i) (by simp [Event.ends])
  simp only [Client.step,there,cleaning,↓reduceIte,Client.release,held.exited dead c.cid]
  exact ends_returned (to_at there) rfl

theorem ends_awaiting (there : s.calls[i]? = some c) (awaiting : c.stage = .awaiting) (slot : c.slot = .sent outcome) : Ends s i := by
  apply Ends.after (.recv i) (by simp [Event.ends])
  simp only [Client.step,there,awaiting,↓reduceIte,Client.recvReply,slot]
  exact ends_returned (to_at there) rfl

theorem ends_closed (held : Correlated s) (there : s.calls[i]? = some c) (sending : c.stage = .sending) (gone : s.writer = .gone) :
    Ends s i := by
  have dead := held.writer (by simp [gone])
  have cleans := send_correlated held there sending
  have sent : s.step (.send i) = s.to i .cleaning := by simp only [Client.step,there,sending,↓reduceIte,Client.sendFrame,gone]
  apply Ends.after (.send i) (by simp [Event.ends])
  rw [sent]
  simp only [Client.sendFrame,gone,↓reduceIte] at cleans
  exact ends_cleaning cleans dead (to_at there) rfl

theorem ends_room (there : s.calls[i]? = some c) (sending : c.stage = .sending) (slot : c.slot = .sent outcome)
    (writer : s.writer ≠ .gone) (room : s.queue.length < outboundChannelCapacity) : Ends s i := by
  have sent : s.step (.send i) = (s.enqueue ⟨c.cid,.call i⟩).to i .awaiting := by
    simp only [Client.step,there,sending,↓reduceIte,Client.sendFrame,writer,room]
  apply Ends.after (.send i) (by simp [Event.ends])
  rw [sent]
  exact ends_awaiting (modify_same there) rfl slot

theorem ends_running (queue : s.queue = frames) (there : s.calls[i]? = some c) (sending : c.stage = .sending)
    (slot : c.slot = .sent outcome) (writer : s.writer = .running) : Ends s i := by
  induction frames generalizing s with
  | nil => exact ends_room there sending slot (by simp [writer]) (by simp [queue,outboundChannelCapacity])
  | cons frame rest ih =>
    apply Ends.after .write rfl
    simp only [Client.step,writer,queue]
    exact ih rfl there rfl

-- A full queue is the writer's to empty or to drop.
theorem ends_sending (held : Correlated s) (dead : s.alive = false) (there : s.calls[i]? = some c) (sending : c.stage = .sending) :
    Ends s i := by
  have standing := held.standing i c there
  have listens : c.listens := by simp [Call.listens,sending]
  have heard : ∃ outcome,c.slot = .sent outcome := by
    cases slot : c.slot with
    | empty =>
      have up := (standing.waits listens slot).1
      rw [dead] at up
      cases up
    | sent outcome => exact ⟨outcome,rfl⟩
    | dropped => exact absurd slot (standing.kept listens)
  obtain ⟨outcome,slot⟩ := heard
  cases writer : s.writer with
  | gone => exact ends_closed held there sending writer
  | drained =>
    have drops := transit_correlated held (.inr (.inl (Eq.refl Event.writerDrops)))
    apply Ends.after .writerDrops rfl
    simp only [Client.step,writer,↓reduceIte] at drops ⊢
    exact ends_closed drops there sending rfl
  | running =>
    exact ends_running rfl there sending slot writer

theorem Correlated.answered (held : Correlated s) : Answered s := by
  refine ⟨?_,?_,?_,?_,?_,held.cleared⟩
  · exact fun i c frame there => (held.standing i c there).own frame
  · exact fun i c there => (held.standing i c there).lost
  · exact fun i c there => (held.standing i c there).kept
  · intro i c there listens empty
    obtain ⟨up,-,place⟩ := (held.standing i c there).waits listens empty
    exact ⟨up,place⟩
  · intro dead i c there still
    have standing := held.standing i c there
    cases stage : c.stage with
    | entering =>
      apply Ends.after (.register i) (by simp [Event.ends])
      simp only [Client.step,there,stage,↓reduceIte,Client.register,dead,Bool.false_eq_true]
      exact ends_returned (to_at there) rfl
    | sending => exact ends_sending held dead there stage
    | awaiting =>
      cases slot : c.slot with
      | empty =>
        have up := (standing.waits (by simp [Call.listens,stage]) slot).1
        rw [dead] at up
        cases up
      | sent outcome => exact ends_awaiting there stage slot
      | dropped => exact absurd slot (standing.kept (by simp [Call.listens,stage]))
    | cleaning => exact ends_cleaning held dead there stage
    | returned outcome => exact ends_returned there stage
    | cancelled => exact absurd stage still

theorem wire_calls_answered (events : List Event) (distinct : Guarded Client.step Distinct .spawn events) :
    Throughout Client.step Answered .spawn events := by
  have all := guarded_keeps (fun s event held met => step_correlated held met) spawn_correlated distinct
  exact throughout_prefixes.mpr fun k => (throughout_prefixes.mp all k).answered

instance (s : Client) (caller : Nat) : Decidable (s.cancelled caller) :=
  inferInstanceAs (Decidable (∃ c ∈ s.calls[caller]?,c.stage = .cancelled))

instance (s : Client) (event : Event) : Decidable (Distinct s event) :=
  match event with
  | .register caller => inferInstanceAs (Decidable (∀ c ∈ s.calls[caller]?,c.stage = .entering → s.alive →
      (∀ holder ∈ get s.pending c.cid,s.cancelled holder) ∧
        ∀ frame,frame ∈ s.inFlight → frame.source ≠ .plugin → frame.cid ≠ c.cid))
  | .push => inferInstanceAs (Decidable (∀ holder ∈ get s.pending s.nextCid,s.cancelled holder))
  | .begins _ => .isTrue trivial
  | .send _ => .isTrue trivial
  | .recv _ => .isTrue trivial
  | .clean _ => .isTrue trivial
  | .cancel _ => .isTrue trivial
  | .write => .isTrue trivial
  | .writerExits => .isTrue trivial
  | .writerDrops => .isTrue trivial
  | .answer _ => .isTrue trivial
  | .emits _ => .isTrue trivial
  | .read => .isTrue trivial
  | .readerExits => .isTrue trivial

def orderlyRun : List Event :=
  [.begins .lifecycle,.begins (.handleRequest 7),.register 0,.register 1,.send 0,.push,.send 1,.write,.write,.write,
    .answer 2,.answer 0,.answer 0,.read,.read,.recv 1,.recv 0,.begins (.custody 1),.register 2,.readerExits]

theorem orderly_calls_answered :
    (run Client.step .spawn orderlyRun).calls.map (·.outcome?) =
      [some (.frame ⟨1,.call 0⟩),some (.frame ⟨7,.call 1⟩),some .disconnected] ∧
    Throughout Client.step Answered .spawn orderlyRun :=
  ⟨by decide,wire_calls_answered orderlyRun (by decide)⟩

-- Two source verbs at once, and a custody verb that meets the ack of a pushed event.
def dispatchRun : List Event :=
  [.begins (.handleRequest 0),.begins (.handleRequest 0),.register 0,.send 0,.register 1,.recv 0,.clean 0]

def custodyRun : List Event :=
  [.begins (.custody 1),.register 0,.push,.send 0,.write,.write,.answer 0,.read,.recv 0]

theorem shared_cids_misdeliver :
    ¬ Answered (run Client.step .spawn dispatchRun) ∧ ¬ Answered (run Client.step .spawn custodyRun) := by
  refine ⟨?_,?_⟩
  · intro answered
    have gone := answered.lost 0 ⟨0,.returned .disconnected,.dropped⟩ (by decide) rfl
    exact absurd gone (by decide)
  · intro answered
    have own := answered.own 0 ⟨1,.returned (.frame ⟨1,.event⟩),.sent (.frame ⟨1,.event⟩)⟩ ⟨1,.event⟩ (by decide) rfl
    cases own

end EvoCore.WireCalls
