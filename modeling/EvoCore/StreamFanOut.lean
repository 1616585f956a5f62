import EvoCore.TwinRuns
import EvoCore.Tables

namespace EvoCore.Streams
open Runs Tables

inductive BackpressurePolicy where
  | dropOldest
  | dropNewest
  | block
deriving DecidableEq,Repr

structure StreamSpec where
  schema : String
  codecs : List String
  maxRateHz : Nat
  typicalPayloadBytes : Nat
  backpressurePolicies : List BackpressurePolicy
deriving DecidableEq,Repr

structure StreamFrame where
  seq : Nat
  producedAtNs : Nat
  codec : String
  payload : List UInt8
deriving DecidableEq,Repr

-- What the producer hands to `emit`. Every consumer's copy gets a number of its own.
structure Emission where
  producedAtNs : Nat
  codec : String
  payload : List UInt8
deriving DecidableEq,Repr

def Emission.frame (e : Emission) (seq : Nat) : StreamFrame := ⟨seq,e.producedAtNs,e.codec,e.payload⟩

inductive StreamError where
  | invalid (message : String)
  | closed (streamId : String)
  | unsupportedBackpressure (streamId : String) (policy : BackpressurePolicy) (accepted : List BackpressurePolicy)
deriving DecidableEq,Repr

inductive EmitResult where
  | queued (consumerCount : Nat)
  | noConsumers
  | dropped (consumerCount : Nat)
deriving DecidableEq,Repr

structure SlotState where
  frame : Option StreamFrame
  closed : Bool
deriving DecidableEq,Repr

def SlotState.new : SlotState := ⟨none,false⟩

def SlotState.putDropOldest (g : SlotState) (frame : StreamFrame) : Bool × SlotState :=
  if g.closed then (false,g) else (g.frame.isNone,{g with frame := some frame})

def SlotState.putDropNewest (g : SlotState) (frame : StreamFrame) : Bool × SlotState :=
  if g.closed || g.frame.isSome then (false,g) else (true,{g with frame := some frame})

def SlotState.close (g : SlotState) : SlotState := {g with closed := true}

-- One look of the loop in `take`: a frame, the end, or another wait for the notification.
inductive Polled where
  | frame (frame : StreamFrame)
  | ended
  | waiting
deriving DecidableEq,Repr

def SlotState.take (g : SlotState) : Polled × SlotState :=
  match g.frame with
  | some frame => (.frame frame,{g with frame := none})
  | none => (if g.closed then .ended else .waiting,g)

def SlotState.tryTake (g : SlotState) : Option StreamFrame × SlotState := (g.frame,{g with frame := none})

structure ConsumerHandle where
  streamId : String
  consumerId : Nat
deriving DecidableEq,Repr

-- The slot is shared by the receiver, with which it is kept here, and by the coordinator's entry, which names
-- the receiver by its place among all that were handed out.
structure ConsumerRx where
  slot : SlotState
  handle : ConsumerHandle
deriving DecidableEq,Repr

structure ConsumerEntry where
  consumerId : Nat
  policy : BackpressurePolicy
  slot : Nat
  nextSeq : Nat
deriving DecidableEq,Repr

def ConsumerEntry.offer (consumer : ConsumerEntry) (g : SlotState) (frame : StreamFrame) : Bool × SlotState :=
  match consumer.policy with
  | .dropNewest => g.putDropNewest frame
  | .dropOldest => (true,(g.putDropOldest frame).2)
  | .block => g.putDropNewest frame

structure StreamRegistration where
  spec : StreamSpec
  consumers : List ConsumerEntry

structure StreamCoordinator where
  streams : Table String StreamRegistration
  nextConsumerId : Nat
  receivers : List ConsumerRx

def StreamCoordinator.new : StreamCoordinator := ⟨∅,0,[]⟩

def onSlot (receivers : List ConsumerRx) (place : Nat) (change : SlotState → SlotState) : List ConsumerRx :=
  receivers.modify place fun rx => {rx with slot := change rx.slot}

-- How `{:?}` writes a string.
variable (debug : String → String)

def StreamCoordinator.openStream (c : StreamCoordinator) (streamId : String) (spec : StreamSpec) : Except StreamError String × StreamCoordinator :=
  match get c.streams streamId with
  | some existing =>
    if existing.spec = spec then (.ok streamId,c)
    else (.error (.invalid ("stream " ++ streamId ++ " already open with different spec; existing schema=" ++ debug existing.spec.schema ++
      ", requested schema=" ++ debug spec.schema)),c)
  | none => (.ok streamId,{c with streams := c.streams.insert streamId ⟨spec,[]⟩})

def StreamCoordinator.close (c : StreamCoordinator) (streamId : String) : Except StreamError Unit × StreamCoordinator :=
  match get c.streams streamId with
  | none => (.error (.closed streamId),c)
  | some reg =>
    (.ok (),{c with
      streams := c.streams.erase streamId
      receivers := reg.consumers.foldl (fun receivers consumer => onSlot receivers consumer.slot SlotState.close) c.receivers })

-- The loop of `emit`, with the consumers that were served. Counts are 32 bits wide, sequence numbers 64.
structure Round where
  consumers : List ConsumerEntry
  receivers : List ConsumerRx
  queued : Nat
  dropped : Nat

def Round.serve (e : Emission) (r : Round) (consumer : ConsumerEntry) : Round :=
  let frame := e.frame consumer.nextSeq
  let delivered := match r.receivers[consumer.slot]? with
    | some rx => (consumer.offer rx.slot frame).1
    | none => false
  { consumers := r.consumers++[{consumer with nextSeq := (consumer.nextSeq+1) % 2^64}]
    receivers := onSlot r.receivers consumer.slot fun g => (consumer.offer g frame).2
    queued := if delivered then (r.queued+1) % 2^32 else r.queued
    dropped := if delivered then r.dropped else (r.dropped+1) % 2^32 }

def serveAll (c : StreamCoordinator) (e : Emission) (consumers : List ConsumerEntry) : Round :=
  consumers.foldl (Round.serve e) ⟨[],c.receivers,0,0⟩

def StreamCoordinator.emit (c : StreamCoordinator) (streamId : String) (e : Emission) : Except StreamError EmitResult × StreamCoordinator :=
  match get c.streams streamId with
  | none => (.error (.closed streamId),c)
  | some reg =>
    if reg.consumers.isEmpty then (.ok .noConsumers,c)
    else
      let round := serveAll c e reg.consumers
      (.ok (if 0 < round.queued then .queued round.queued else .dropped round.dropped),{c with
        streams := c.streams.insert streamId {reg with consumers := round.consumers}
        receivers := round.receivers })

-- Answers with the place of the new receiver. The id is drawn before the stream is looked up.
def StreamCoordinator.subscribe (c : StreamCoordinator) (streamId : String) (policy : BackpressurePolicy) : Except StreamError Nat × StreamCoordinator :=
  if policy = .block then (.error (.unsupportedBackpressure streamId policy [.dropOldest,.dropNewest]),c)
  else
    let consumerId := c.nextConsumerId
    let drawn := {c with nextConsumerId := (consumerId+1) % 2^64}
    match get c.streams streamId with
    | none => (.error (.closed streamId),drawn)
    | some reg =>
      if reg.spec.backpressurePolicies.contains policy then
        (.ok c.receivers.length,{drawn with
          streams := c.streams.insert streamId {reg with consumers := reg.consumers++[⟨consumerId,policy,c.receivers.length,0⟩]}
          receivers := c.receivers++[⟨SlotState.new,⟨streamId,consumerId⟩⟩] })
      else (.error (.unsupportedBackpressure streamId policy reg.spec.backpressurePolicies),drawn)

def StreamCoordinator.unsubscribe (c : StreamCoordinator) (handle : ConsumerHandle) : StreamCoordinator :=
  {c with streams := modify c.streams handle.streamId fun reg =>
    {reg with consumers := reg.consumers.filter fun consumer => consumer.consumerId ≠ handle.consumerId}}

-- Anyone may name a stream; a consumer handle comes with its receiver, whatever has become of the stream since.
inductive Action where
  | openStream (streamId : String) (spec : StreamSpec)
  | close (streamId : String)
  | emit (streamId : String) (e : Emission)
  | subscribe (streamId : String) (policy : BackpressurePolicy)
  | unsubscribe (receiver : Nat)
  | recv (receiver : Nat)
  | tryRecv (receiver : Nat)
deriving DecidableEq,Repr

inductive Answer where
  | opened (answer : Except StreamError String)
  | closed (answer : Except StreamError Unit)
  | emitted (answer : Except StreamError EmitResult)
  | subscribed (answer : Except StreamError Nat)
  | unsubscribed
  | polled (answer : Polled)
  | tried (answer : Option StreamFrame)

def perform (c : StreamCoordinator) : Action → Answer × StreamCoordinator
  | .openStream streamId spec => ((c.openStream debug streamId spec).map .opened id)
  | .close streamId => (c.close streamId).map .closed id
  | .emit streamId e => (c.emit streamId e).map .emitted id
  | .subscribe streamId policy => (c.subscribe streamId policy).map .subscribed id
  | .unsubscribe receiver =>
    match c.receivers[receiver]? with
    | some rx => (.unsubscribed,c.unsubscribe rx.handle)
    | none => (.unsubscribed,c)
  | .recv receiver =>
    match c.receivers[receiver]? with
    | some rx => (.polled rx.slot.take.1,{c with receivers := onSlot c.receivers receiver fun g => g.take.2})
    | none => (.polled .waiting,c)
  | .tryRecv receiver =>
    match c.receivers[receiver]? with
    | some rx => (.tried rx.slot.tryTake.1,{c with receivers := onSlot c.receivers receiver fun g => g.tryTake.2})
    | none => (.tried none,c)

def step (c : StreamCoordinator) (action : Action) : StreamCoordinator := (perform debug c action).2

end EvoCore.Streams
