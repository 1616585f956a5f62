import EvoCore.SubjectAliases

namespace EvoCore.FactoryInstances
open Tables
open SubjectRegistry (RegistryInner ExternalAddressing SubjectAnnouncement StewardError SubjectRetractOutcome)

def factoryInstanceScheme : String := "evo-factory-instance"

def addressingValue (pluginName instanceId : String) : String := pluginName ++ "/" ++ instanceId

inductive RetractionPolicy where
  | dynamic | startupOnly | shutdownOnly
deriving DecidableEq,Repr

inductive ReportError where
  | invalid (message : String)
deriving DecidableEq,Repr

inductive Happening where
  | factoryInstanceAnnounced (plugin instanceId canonicalId shelf : String) (payloadBytes : Nat)
  | factoryInstanceRetracted (plugin instanceId canonicalId shelf : String)
deriving DecidableEq,Repr

structure Announcer where
  pluginName : String
  targetShelf : String
  retractionPolicy : RetractionPolicy
  persistent : Bool
  loadComplete : Bool
  instances : Table String String

def Announcer.addressing (a : Announcer) (instanceId : String) : ExternalAddressing :=
  ⟨factoryInstanceScheme,addressingValue a.pluginName instanceId⟩

-- The awaits and the lock acquisitions of one call. An announce remembers its canonical id once the
-- registry has given it, a retract once it has taken it off the map.
inductive Phase where
  | announcing
  | checked
  | registered (canonicalId : String)
  | recorded (canonicalId : String)
  | stored (canonicalId : String)
  | retracting
  | taken (canonicalId : String)
  | dropped (canonicalId : String) (outcome : SubjectRetractOutcome)
  | forgotten (canonicalId : String)
  | done (result : Except ReportError Unit)
deriving DecidableEq

structure Call where
  instanceId : String
  payloadBytes : Nat
  phase : Phase
deriving DecidableEq

-- The map's inserts and removals, newest first, with the call that made them.
inductive Event where
  | recorded (call : Nat) (instanceId : String)
  | taken (call : Nat) (instanceId : String)
deriving DecidableEq,Repr

structure World where
  announcer : Announcer
  registry : RegistryInner
  calls : List Call
  emitted : List Happening
  history : List Event

-- What the store or the bus answers where a call awaits it.
abbrev Write := Except String Unit

inductive Action where
  | markLoadComplete
  | announce (instanceId : String) (payloadBytes : Nat)
  | retract (instanceId : String)
  | turn (k : Nat) (write : Write)
deriving DecidableEq

def stewardText : StewardError → String
  | .catalogue message => "catalogue error: " ++ message
  | .dispatch message => "dispatch error: " ++ message

def World.moved (w : World) (k : Nat) (phase : Phase) : World :=
  { w with calls := w.calls.modify k fun c => { c with phase } }

def World.failed (w : World) (k : Nat) (message : String) : World := w.moved k (.done (.error (.invalid message)))

def announceCheck (a : Announcer) (instanceId : String) : Except String Unit :=
  if a.retractionPolicy = .startupOnly ∧ a.loadComplete then
    .error (a.pluginName ++ ": factory has RetractionPolicy::StartupOnly; announce_instance refused after load returned (instance_id=" ++
      instanceId ++ ")")
  else if (get a.instances instanceId).isSome then
    .error (a.pluginName ++ ": instance_id=" ++ instanceId ++ " already announced")
  else .ok ()

def subjectAnnouncement (a : Announcer) (instanceId : String) : SubjectAnnouncement :=
  ⟨a.targetShelf,[a.addressing instanceId],[],none⟩

section
variable (uuid : Nat → String)

def turn (w : World) (k : Nat) (c : Call) (write : Write) : World :=
  let a := w.announcer
  match c.phase with
  | .announcing =>
    match announceCheck a c.instanceId with
    | .error message => w.failed k message
    | .ok () => w.moved k .checked
  | .checked =>
    match SubjectRegistry.announce uuid w.registry (subjectAnnouncement a c.instanceId) a.pluginName with
    | (.refused e,registry) => { w.failed k (a.pluginName ++ ": subject registry refused announce for instance_id=" ++ c.instanceId ++ ": " ++
        stewardText e) with registry }
    | (.ok (.created id),registry) | (.ok (.updated id),registry) | (.ok (.noChange id),registry) =>
      { w.moved k (.registered id) with registry }
    | (.ok (.conflict ids),registry) => { w.failed k (a.pluginName ++ ": factory addressing collided across " ++ toString ids.length ++
        " existing canonical IDs (instance_id=" ++ c.instanceId ++ "); this should not happen for factory-minted addressings") with registry }
    | (.panicked message,registry) => { w.failed k message with registry }
  | .registered canonicalId =>
    { w.moved k (.recorded canonicalId) with
      announcer := { a with instances := a.instances.insert c.instanceId canonicalId }
      history := .recorded k c.instanceId::w.history }
  | .recorded canonicalId =>
    if a.persistent then
      match write with
      | .error e => w.failed k ("factory instance announce persist failed: " ++ e)
      | .ok () => w.moved k (.stored canonicalId)
    else w.moved k (.stored canonicalId)
  | .stored canonicalId =>
    match write with
    | .error e => w.failed k ("factory instance happening persist failed: " ++ e)
    | .ok () => { w.moved k (.done (.ok ())) with
        emitted := w.emitted ++ [Happening.factoryInstanceAnnounced a.pluginName c.instanceId canonicalId a.targetShelf c.payloadBytes] }
  | .retracting =>
    if a.retractionPolicy = .shutdownOnly then
      w.failed k (a.pluginName ++ ": factory has RetractionPolicy::ShutdownOnly; retract_instance refused during plugin lifetime (instance_id=" ++
        c.instanceId ++ ")")
    else
      match get a.instances c.instanceId with
      | none => w.failed k (a.pluginName ++ ": retract_instance for unknown instance_id=" ++ c.instanceId)
      | some canonicalId => { w.moved k (.taken canonicalId) with
          announcer := { a with instances := a.instances.erase c.instanceId }
          history := .taken k c.instanceId::w.history }
  | .taken canonicalId =>
    match SubjectRegistry.retract w.registry (a.addressing c.instanceId) a.pluginName none with
    | (.refused e,registry) => { w.failed k (a.pluginName ++ ": subject registry refused retract for instance_id=" ++ c.instanceId ++ ": " ++
        stewardText e) with registry }
    | (.ok outcome,registry) => { w.moved k (.dropped canonicalId outcome) with registry }
    | (.panicked message,registry) => { w.failed k message with registry }
  | .dropped canonicalId outcome =>
    if a.persistent then
      match write,outcome with
      | .error e,.addressingRemoved => w.failed k ("factory instance retract persist failed: " ++ e)
      | .error e,.subjectForgotten .. => w.failed k ("factory instance forget persist failed: " ++ e)
      | .ok (),_ => w.moved k (.forgotten canonicalId)
    else w.moved k (.forgotten canonicalId)
  | .forgotten canonicalId =>
    match write with
    | .error e => w.failed k ("factory instance happening persist failed: " ++ e)
    | .ok () => { w.moved k (.done (.ok ())) with
        emitted := w.emitted ++ [Happening.factoryInstanceRetracted a.pluginName c.instanceId canonicalId a.targetShelf] }
  | .done _ => w

def step (w : World) : Action → World
  | .markLoadComplete => { w with announcer := { w.announcer with loadComplete := true } }
  | .announce instanceId payloadBytes => { w with calls := w.calls ++ [⟨instanceId,payloadBytes,.announcing⟩] }
  | .retract instanceId => { w with calls := w.calls ++ [⟨instanceId,0,.retracting⟩] }
  | .turn k write =>
    match w.calls[k]? with
    | some c => turn uuid w k c write
    | none => w

end

structure Drain where
  announcer : Announcer
  registry : RegistryInner
  emitted : List Happening
  retracted : Nat
  errored : Nat

-- A refusal of the store is only logged; so is one of the bus, which leaves the happening out.
def drainOne (busTakes : String → Bool) (d : Drain) (entry : String × String) : Drain :=
  let a := { d.announcer with instances := d.announcer.instances.erase entry.1 }
  match SubjectRegistry.retract d.registry (a.addressing entry.1) a.pluginName none with
  | (.ok _,registry) => ⟨a,registry,if busTakes entry.1 then
      d.emitted ++ [Happening.factoryInstanceRetracted a.pluginName entry.1 entry.2 a.targetShelf] else d.emitted,d.retracted+1,d.errored⟩
  | (_,registry) => ⟨a,registry,d.emitted,d.retracted,d.errored+1⟩

def drainOrder (a : Announcer) : List (String × String) :=
  (a.instances.entries.map fun e => (e.1,e.2)).mergeSort fun left right => decide (right.1 ≤ left.1)

def retractAllForDrain (w : World) (busTakes : String → Bool) : Drain :=
  (drainOrder w.announcer).foldl (drainOne busTakes) ⟨w.announcer,w.registry,[],0,0⟩

def World.fresh (pluginName targetShelf : String) (retractionPolicy : RetractionPolicy) (persistent : Bool) (registry : RegistryInner) :
    World :=
  ⟨⟨pluginName,targetShelf,retractionPolicy,persistent,false,∅⟩,registry,[],[],[]⟩

-- A call that has failed has changed neither the map nor the registry in any of its turns.
def FailuresLeave (uuid : Nat → String) (start : World) (actions : List Action) : Prop :=
  ∀ before k write after e,actions = before ++ .turn k write::after →
    (((Runs.run (step uuid) start actions).calls[k]?).map (·.phase)) = some (.done (.error e)) →
    (Runs.run (step uuid) start (before ++ [Action.turn k write])).announcer.instances = (Runs.run (step uuid) start before).announcer.instances ∧
    (Runs.run (step uuid) start (before ++ [Action.turn k write])).registry = (Runs.run (step uuid) start before).registry

-- Of two announces of one id that have returned Ok, a retract came between.
def NoDouble (w : World) : Prop := ∀ newer between older k l id,
  w.history = newer ++ Event.recorded l id::between ++ Event.recorded k id::older →
  (w.calls[k]?).map (·.phase) = some (Phase.done (.ok ())) → (w.calls[l]?).map (·.phase) = some (Phase.done (.ok ())) →
  ∃ m,Event.taken m id ∈ between

def Phase.isDone : Phase → Bool
  | .done _ => true
  | _ => false

def World.quiet (w : World) : Bool := w.calls.all (·.phase.isDone)

def Agree (w : World) : Prop := w.quiet → ∀ id,(get w.announcer.instances id).isSome = (get w.registry.addressings (w.announcer.addressing id)).isSome

def standing : List Event → List String
  | [] => []
  | .recorded _ id::rest => id::standing rest
  | .taken _ id::rest => (standing rest).erase id

def World.retracted (w : World) (entry : String × String) : Happening :=
  .factoryInstanceRetracted w.announcer.pluginName entry.1 entry.2 w.announcer.targetShelf

-- One FactoryInstanceRetracted for each announced instance, in the reverse order of announcement.
def World.unwinding (w : World) : List Happening :=
  (standing w.history).map fun id => w.retracted (id,(get w.announcer.instances id).getD "")

def Call.calm (w : World) (write : Write) (c : Call) : Bool :=
  match c.phase with
  | .checked => decide (get w.registry.addressings (w.announcer.addressing c.instanceId) = none)
  | .recorded _ | .dropped .. => !w.announcer.persistent || decide (write = .ok ())
  | .stored _ | .forgotten _ => decide (write = .ok ())
  | _ => true

-- An announce that goes to the registry finds its addressing not live, and the store and the bus take
-- what is written.
def Calm (w : World) : Action → Prop
  | .turn k write => ∀ c ∈ w.calls[k]?,c.calm w write
  | _ => True

instance calmDecidable (w : World) : (a : Action) → Decidable (Calm w a)
  | .turn k write => inferInstanceAs (Decidable (∀ c ∈ w.calls[k]?,c.calm w write))
  | .markLoadComplete | .announce .. | .retract _ => .isTrue trivial

end EvoCore.FactoryInstances
