import EvoCore.OperatorGates
import EvoCore.Runs
import EvoCore.SessionWords

namespace EvoCore.WsSubscriptions
open OperatorGates
open Tables (Table get)
open SessionWords (Mark)

-- JSON texts.
abbrev Value := String

inductive DispatchError where
  | unknownOp (op : String)
  | invalidPayload (message : String)
  | forbidden (message : String)
  | notImplemented (message : String)
  | internal (message : String)
  | refused (status : Nat)
deriving DecidableEq,Repr

-- A Subscribe that is turned down is answered by SubscriptionEnded as well.
inductive Refusal where
  | gate (refusal : FrameRefusal)
  | duplicateSubscriptionId
  | dispatch (error : DispatchError)
deriving DecidableEq,Repr

inductive EndReason where
  | refusal (refusal : Refusal)
  | unsubscribed
  | sourceClosed
deriving DecidableEq,Repr

inductive OutgoingFrame where
  | subscriptionAck (subscriptionId : String) (initialEvent : Option Value)
  | subscriptionEvent (subscriptionId : String) (event : Value)
  | subscriptionEnded (subscriptionId : String) (reason : EndReason)
deriving DecidableEq,Repr

-- Where the forwarder task is: at stream.next(), at the send of an event or of its end, returned, or
-- dropped by an abort.
inductive ForwarderAt where
  | next
  | event (event : Value)
  | closing
  | returned
  | dropped
deriving DecidableEq,Repr

structure Forwarder where
  subId : String
  at_ : ForwarderAt
  aborted : Bool
deriving DecidableEq,Repr

-- Where the read loop is. It reads the next frame only when it is idle. The drained handles are
-- those of the map when the connection goes down.
inductive ReadLoop where
  | idle
  | opening (subscriptionId : String)
  | acking (subscriptionId : String) (initialEvent : Option Value)
  | spawning (subscriptionId : String)
  | refusing (subscriptionId : String) (refusal : Refusal)
  | ending (subscriptionId : String)
  | down (drained : Table String Nat)

-- What the shared channel has taken, in order, while the pump still drains it.
structure Socket where
  loop : ReadLoop
  activeSubs : Table String Nat
  forwarders : List Forwarder
  sent : List OutgoingFrame
  pumping : Bool

inductive Source where
  | item (event : Value)
  | closed
deriving DecidableEq,Repr

inductive Action where
  | subscribe (subscriptionId op : String)
  | unsubscribe (subscriptionId : String)
  | opened (outcome : Except DispatchError (Option Value))
  | proceed
  | forward (i : Nat) (source : Source)
  | drop (i : Nat)
  | pumpExit
  | close
deriving DecidableEq

def Socket.send (w : Socket) (frame : OutgoingFrame) : Socket :=
  { w with sent := if w.pumping then w.sent ++ [frame] else w.sent }

def abort (forwarders : List Forwarder) (i : Nat) : List Forwarder :=
  forwarders.modify i fun f => { f with aborted := true }

def Socket.move (w : Socket) (i : Nat) (at_ : ForwarderAt) : Socket :=
  { w with forwarders := w.forwarders.modify i fun f => { f with at_ } }

variable (surface : Surface) (principal : Principal)

def handleSubscribeFrame (w : Socket) (subscriptionId op : String) : Socket :=
  match handleSubscribe surface principal op with
  | .error refusal => { w with loop := .refusing subscriptionId (.gate refusal) }
  | .ok _ =>
    match get w.activeSubs subscriptionId with
    | some _ => { w with loop := .refusing subscriptionId .duplicateSubscriptionId }
    | none => { w with loop := .opening subscriptionId }

def handleUnsubscribeFrame (w : Socket) (subscriptionId : String) : Socket :=
  match get w.activeSubs subscriptionId with
  | some i =>
    { w with loop := .ending subscriptionId,activeSubs := w.activeSubs.erase subscriptionId,forwarders := abort w.forwarders i }
  | none => { w with loop := .ending subscriptionId }

def proceed (w : Socket) : Socket :=
  match w.loop with
  | .acking id initialEvent =>
    if w.pumping then { w.send (.subscriptionAck id initialEvent) with loop := .spawning id } else { w with loop := .idle }
  | .spawning id =>
    { w with loop := .idle,activeSubs := w.activeSubs.insert id w.forwarders.length,
             forwarders := w.forwarders ++ [⟨id,.next,false⟩] }
  | .refusing id refusal => { w.send (.subscriptionEnded id (.refusal refusal)) with loop := .idle }
  | .ending id => { w.send (.subscriptionEnded id .unsubscribed) with loop := .idle }
  | .idle | .opening _ | .down _ => w

-- The abort of a task is seen at stream.next(); a send it has already come to may still go through.
def forward (w : Socket) (i : Nat) (f : Forwarder) (source : Source) : Socket :=
  match f.at_ with
  | .next =>
    if f.aborted then w.move i .dropped
    else match source with
      | .item event => w.move i (.event event)
      | .closed => w.move i .closing
  | .event event =>
    if w.pumping then (w.move i .next).send (.subscriptionEvent f.subId event) else w.move i .returned
  | .closing => (w.move i .returned).send (.subscriptionEnded f.subId .sourceClosed)
  | .returned | .dropped => w

def step (w : Socket) : Action → Socket
  | .subscribe id op => match w.loop with
    | .idle => handleSubscribeFrame surface principal w id op
    | _ => w
  | .unsubscribe id => match w.loop with
    | .idle => handleUnsubscribeFrame w id
    | _ => w
  | .opened outcome => match w.loop,outcome with
    | .opening id,.ok initialEvent => { w with loop := .acking id initialEvent }
    | .opening id,.error e => { w with loop := .refusing id (.dispatch e) }
    | _,_ => w
  | .proceed => proceed w
  | .forward i source => match w.forwarders[i]? with
    | some f => forward w i f source
    | none => w
  | .drop i => match w.forwarders[i]? with
    | some f => if f.aborted ∧ f.at_ ≠ .returned then w.move i .dropped else w
    | none => w
  | .pumpExit => { w with pumping := false }
  | .close => match w.loop with
    | .idle => { w with loop := .down w.activeSubs,activeSubs := ∅,
                        forwarders := w.activeSubs.entries.foldl (fun forwarders e => abort forwarders e.2) w.forwarders }
    | _ => w

def Socket.fresh : Socket := ⟨.idle,∅,[],[],true⟩

-- The frames of one subscription id as marks. A refusal is none.
def mark (id : String) : OutgoingFrame → Option Mark
  | .subscriptionAck other _ => if other = id then some .opens else none
  | .subscriptionEvent other _ => if other = id then some .item else none
  | .subscriptionEnded _ (.refusal _) => none
  | .subscriptionEnded other .unsubscribed | .subscriptionEnded other .sourceClosed => if other = id then some .closes else none

def marks (id : String) (sent : List OutgoingFrame) : List Mark := sent.filterMap (mark id)

-- Every id's frames are the beginning of a word of (Ack Event* Ended)*.
def InGrammar (w : Socket) : Prop := ∀ id,∃ rest,marks id w.sent ++ rest ∈ SessionWords.sessions

def line (w : Socket) (id : String) : Option Bool := SessionWords.scan false (marks id w.sent)

def Socket.holds (w : Socket) (id : String) : Option Nat :=
  match w.loop with
  | .down drained => get drained id
  | _ => get w.activeSubs id

def Socket.forwarderOf (w : Socket) (id : String) : Option Forwarder := (w.holds id).bind (w.forwarders[·]?)

def ForwarderAt.isLive : ForwarderAt → Bool
  | .next | .event _ | .closing => true
  | .returned | .dropped => false

def ForwarderAt.isSending : ForwarderAt → Bool
  | .event _ | .closing => true
  | _ => false

def ReadLoop.serves (loop : ReadLoop) (id : String) : Bool :=
  match loop with
  | .spawning other | .ending other => other = id
  | _ => false

def ReadLoop.isIdle : ReadLoop → Bool
  | .idle => true
  | _ => false

-- A stream of the id is being served: its forwarder runs, or is about to be spawned or told to be over.
def Socket.serves (w : Socket) (id : String) : Bool := (w.forwarderOf id).any (·.at_.isLive) || w.loop.serves id

-- A frame that is read finds no forwarder of its id that has returned by itself, an Unsubscribe finds
-- one at all, and what a forwarder sends after its abort it sends while its id is still served.
def InOrder (w : Socket) : Action → Prop
  | .subscribe id op => w.loop.isIdle → w.pumping → (handleSubscribe surface principal op).isOk →
      ∀ f ∈ w.forwarderOf id,f.at_ ≠ .returned
  | .unsubscribe id => w.loop.isIdle → w.pumping → ∃ f ∈ w.forwarderOf id,f.at_ ≠ .returned
  | .forward i _ => w.pumping → ∀ f ∈ w.forwarders[i]?,f.aborted →
      (f.at_.isSending → w.serves f.subId) ∧ (f.at_ = .closing → w.holds f.subId = some i)
  | _ => True

instance inOrderDecidable (w : Socket) : (a : Action) → Decidable (InOrder surface principal w a)
  | .subscribe id op => inferInstanceAs (Decidable (w.loop.isIdle → w.pumping → (handleSubscribe surface principal op).isOk →
      ∀ f ∈ w.forwarderOf id,f.at_ ≠ .returned))
  | .unsubscribe id => inferInstanceAs (Decidable (w.loop.isIdle → w.pumping → ∃ f ∈ w.forwarderOf id,f.at_ ≠ .returned))
  | .forward i _ => inferInstanceAs (Decidable (w.pumping → ∀ f ∈ w.forwarders[i]?,f.aborted →
      (f.at_.isSending → w.serves f.subId) ∧ (f.at_ = .closing → w.holds f.subId = some i)))
  | .opened _ | .proceed | .drop _ | .pumpExit | .close => .isTrue trivial

def Action.isTask : Action → Bool
  | .forward .. | .drop _ => true
  | _ => false

-- A Subscribe to an op that is open to the connection, read while the id's last stream has been told to
-- be over (or never was), is answered by the Ack if the dispatcher opens it, whatever the forwarders do
-- meanwhile.
def Acknowledged (actions : List Action) : Prop :=
  ∀ before id op first initial second after,
    actions = before ++ (Action.subscribe id op::first ++ Action.opened (.ok initial)::second) ++ Action.proceed::after →
    (Runs.run (step surface principal) .fresh before).loop.isIdle → (handleSubscribe surface principal op).isOk →
    line (Runs.run (step surface principal) .fresh before) id = some false → (∀ a ∈ first ++ second,a.isTask) →
    let reached := Runs.run (step surface principal) .fresh (before ++ (Action.subscribe id op::first ++ Action.opened (.ok initial)::second))
    reached.pumping → (step surface principal reached .proceed).sent = reached.sent ++ [OutgoingFrame.subscriptionAck id initial]

end EvoCore.WsSubscriptions
