import EvoCore.AppointmentCap
import EvoCore.Plans

namespace EvoCore.PlanRegistry
open Runs Tables Plans
open Appointments (Chrono Clock AppointmentLedger AppointmentSpec AppointmentAction AppointmentRecurrence RecurrenceError
  AppointmentScheduleError QuotaScope nextFireAfter msToInstant)

-- The registry side of crates/evo/src/plans/engine.rs: the plans in memory, their files, and the
-- appointments and watches that the engine keeps for their triggers.
inductive WatchTrigger where
  | edge
  | level (cooldownMs : Nat)
deriving DecidableEq,Repr

inductive WatchState where
  | pending
  | matched
  | fired
  | cancelled
deriving DecidableEq,Repr

-- The engine's own watches all wait for happenings; what other creators wait for is left out.
structure WatchSpec where
  watchId : String
  filter : WatchHappeningFilter
  trigger : WatchTrigger
deriving DecidableEq,Repr

structure WatchEntry where
  creator : String
  spec : WatchSpec
  action : AppointmentAction
  state : WatchState
deriving DecidableEq,Repr

structure WatchLedger where
  entries : Table (String × String) WatchEntry
  maxTotal : Nat
  maxPerCreator : Nat

inductive WatchScheduleError where
  | quotaExceeded (scope : QuotaScope) (limit : Nat)
  | cooldownTooShort (cooldownMs : Nat)
deriving DecidableEq,Repr

def validateSpec (spec : WatchSpec) : Except WatchScheduleError Unit :=
  match spec.trigger with
  | .level cooldownMs => if cooldownMs < 1000 then .error (.cooldownTooShort cooldownMs) else .ok ()
  | .edge => .ok ()

namespace WatchLedger
variable (ledger : WatchLedger)

def refusal (creator : String) (key : String × String) : Option WatchScheduleError :=
  if (get ledger.entries key).isSome then none
  else if ledger.maxTotal ≤ ledger.entries.keys.length then some (.quotaExceeded .total ledger.maxTotal)
  else if ledger.maxPerCreator ≤ (ledger.entries.keys.filter fun other => other.1 = creator).length then
    some (.quotaExceeded (.perCreator creator) ledger.maxPerCreator)
  else none

def schedule (creator : String) (spec : WatchSpec) (action : AppointmentAction) : Except WatchScheduleError WatchLedger :=
  match validateSpec spec with
  | .error e => .error e
  | .ok () =>
    match ledger.refusal creator (creator,spec.watchId) with
    | some e => .error e
    | none => .ok {ledger with entries := ledger.entries.insert (creator,spec.watchId) ⟨creator,spec,action,.pending⟩}

def cancel (key : String × String) : WatchLedger × Bool :=
  match get ledger.entries key with
  | some entry =>
    if entry.state = .cancelled then (ledger,false)
    else ({ledger with entries := ledger.entries.insert key {entry with state := .cancelled}},true)
  | none => (ledger,false)

end WatchLedger

inductive AppointmentRuntimeError where
  | recurrence (e : RecurrenceError)
  | schedule (e : AppointmentScheduleError)
deriving DecidableEq,Repr

-- The reasons stand for the texts that the source formats of them.
inductive TriggerRefusal where
  | noAppointmentRuntime
  | appointments (e : AppointmentRuntimeError)
  | noWatchRuntime
  | watches (e : WatchScheduleError)
deriving DecidableEq,Repr

inductive PlanEngineError where
  | invalidSchema (e : PlanError)
  | storage
  | cycleDetected (chain : List PlanId)
  | danglingTrigger (plan missing : PlanId)
  | notFound (id : PlanId)
  | triggerRegistration (plan : PlanId) (reason : TriggerRefusal)
deriving DecidableEq,Repr

inductive Colour where
  | white
  | grey
  | black
deriving DecidableEq,Repr

structure Search where
  colour : Table PlanId Colour
  stack : List PlanId
  onStack : List PlanId
  work : List (PlanId × Bool)

def nextPlanOf (plans : Table PlanId Plan) (node : PlanId) : Option PlanId :=
  match get plans node with
  | none => none
  | some plan =>
    match plan.onComplete with
    | .nextPlan planId => some planId
    | _ => none

-- One item of the work list; the chain that closes a cycle ends the search.
def Search.visit (plans : Table PlanId Plan) (s : Search) (node : PlanId) (rest : List (PlanId × Bool)) : Except (List PlanId) Search :=
  let entered : Search := ⟨s.colour.insert node .grey,s.stack++[node],node::s.onStack,(node,true)::rest⟩
  match nextPlanOf plans node with
  | none => .ok entered
  | some planId =>
    if (get plans planId).isNone then .ok entered
    else if planId ∈ entered.onStack then .error (entered.stack.dropWhile (· ≠ planId)++[planId])
    else if get entered.colour planId = some .white then .ok {entered with work := (planId,false)::entered.work}
    else .ok entered

def Search.advance (plans : Table PlanId Plan) (s : Search) : Except (List PlanId) Search :=
  match s.work with
  | [] => .ok s
  | (node,true)::rest => .ok ⟨s.colour.insert node .black,s.stack.dropLast,s.onStack.erase node,rest⟩
  | (node,false)::rest =>
    match get s.colour node with
    | some .black => .ok {s with work := rest}
    | some .grey => .ok {s with work := rest}
    | _ => s.visit plans node rest

-- Every plan is visited and left once, so this many rounds empty the work list.
def Search.runs (plans : Table PlanId Plan) : Nat → Search → Except (List PlanId) Search
  | 0,s => .ok s
  | rounds+1,s =>
    match s.advance plans with
    | .error chain => .error chain
    | .ok after => after.runs plans rounds

def searchRoots (plans : Table PlanId Plan) : List PlanId → Search → Option (List PlanId)
  | [],_ => none
  | root::roots,s =>
    if get s.colour root = some .white then
      match Search.runs plans (2*plans.keys.length+1) {s with work := [(root,false)]} with
      | .error chain => some chain
      | .ok after => searchRoots plans roots after
    else searchRoots plans roots s

-- The map's keys in its hash order: those of `first` stand first.
def hashOrder (plans : Table PlanId Plan) (first : List PlanId) : List PlanId :=
  (first.filter fun id => id ∈ plans.keys).dedup++plans.keys.filter fun id => id ∉ first

def detectCycle (plans : Table PlanId Plan) (first : List PlanId) : Option (List PlanId) :=
  searchRoots plans (hashOrder plans first) ⟨insertAll ∅ plans.keys .white,[],[],[]⟩

-- `appointments` and `watches` are the ledgers behind the wired runtimes; `storage` are the files by
-- their stems.
structure PlanBook where
  plans : Table PlanId Plan
  storage : Table PlanId Plan
  appointments : Option AppointmentLedger
  watches : Option WatchLedger

def planEngineCreator : String := "evo.plans"

def planKey (id : PlanId) : String × String := (planEngineCreator,id)

def actionFor (plan : Plan) : AppointmentAction := ⟨"evo.plans","fire_plan","\x7b\"plan_id\":\""++plan.id++"\"\x7d"⟩

def dayMaskToRecurrence : DayMask → AppointmentRecurrence
  | .daily => .daily
  | .weekdays => .weekdays
  | .weekends => .weekends
  | .custom days => .weekly days

def appointmentSpecFor (plan : Plan) (time : String) (daysOfWeek : DayMask) (timezone : Appointments.AppointmentTimeZone) : AppointmentSpec where
  appointmentId := plan.id
  time := some time
  zone := timezone
  recurrence := dayMaskToRecurrence daysOfWeek
  endTimeMs := none
  maxFires := none
  except := []
  missPolicy := .catchupWithinGrace (5*60*1000)

def watchSpecFor (plan : Plan) (eventFilter : WatchHappeningFilter) (debounceMs : Option Nat) : WatchSpec where
  watchId := plan.id
  filter := eventFilter
  trigger := match debounceMs with
    | some cooldownMs => .level cooldownMs
    | none => .edge

section
variable {δ τ ω : Type} [DecidableEq δ] (chrono : Chrono δ τ ω)

-- AppointmentRuntime::schedule without its row in the store, which the engine never reads.
def runtimeSchedule (ledger : AppointmentLedger) (creator : String) (spec : AppointmentSpec) (action : AppointmentAction) (clock : Clock) :
    Except AppointmentRuntimeError AppointmentLedger :=
  match nextFireAfter chrono spec clock.nowMs 0 with
  | .error e => .error (.recurrence e)
  | .ok nextMs =>
    match ledger.schedule creator spec action (nextMs.map (msToInstant clock)) with
    | .error e => .error (.schedule e)
    | .ok after => .ok after

namespace PlanBook
variable (s : PlanBook)

def scheduleTrigger (plan : Plan) (clock : Clock) : Except PlanEngineError PlanBook :=
  match plan.trigger with
  | .timeOfDay time daysOfWeek timezone =>
    match s.appointments with
    | none => .error (.triggerRegistration plan.id .noAppointmentRuntime)
    | some ledger =>
      match runtimeSchedule chrono ledger planEngineCreator (appointmentSpecFor plan time daysOfWeek timezone) (actionFor plan) clock with
      | .error e => .error (.triggerRegistration plan.id (.appointments e))
      | .ok after => .ok {s with appointments := some after}
  | .eventReceived eventFilter debounceMs =>
    match s.watches with
    | none => .error (.triggerRegistration plan.id .noWatchRuntime)
    | some ledger =>
      match ledger.schedule planEngineCreator (watchSpecFor plan eventFilter debounceMs) (actionFor plan) with
      | .error e => .error (.triggerRegistration plan.id (.watches e))
      | .ok after => .ok {s with watches := some after}
  | _ => .ok s

def cancelTrigger (plan : Plan) : PlanBook :=
  match plan.trigger with
  | .timeOfDay _ _ _ => {s with appointments := s.appointments.map fun ledger => (ledger.cancel (planKey plan.id)).1}
  | .eventReceived _ _ => {s with watches := s.watches.map fun ledger => (ledger.cancel (planKey plan.id)).1}
  | _ => s

def danglingTrigger (plan : Plan) : Option PlanId :=
  match plan.trigger with
  | .planCompletion priorPlanId => if (get s.plans priorPlanId).isSome || priorPlanId = plan.id then none else some priorPlanId
  | _ => none

-- What register refuses before it writes anything.
def refusal (plan : Plan) (first : List PlanId) : Option PlanEngineError :=
  match plan.validate with
  | .error e => some (.invalidSchema e)
  | .ok () =>
    match s.danglingTrigger plan with
    | some missing => some (.danglingTrigger plan.id missing)
    | none => (detectCycle (s.plans.insert plan.id plan) first).map .cycleDetected

-- `saves` and `deletes` say whether the storage backend's calls succeed.
def register (plan : Plan) (first : List PlanId) (clock : Clock) (saves deletes : Bool) : PlanBook × Except PlanEngineError Unit :=
  match s.refusal plan first with
  | some e => (s,.error e)
  | none =>
    if saves then
      let saved := {s with storage := s.storage.insert plan.id plan}
      match saved.scheduleTrigger chrono plan clock with
      | .error e => (if deletes then {saved with storage := saved.storage.erase plan.id} else saved,.error e)
      | .ok scheduled => ({scheduled with plans := scheduled.plans.insert plan.id plan},.ok ())
    else (s,.error .storage)

def unregister (id : PlanId) (deletes : Bool) : PlanBook × Except PlanEngineError Unit :=
  match get s.plans id with
  | none => (s,.error (.notFound id))
  | some plan =>
    if deletes then (({s with storage := s.storage.erase id,plans := s.plans.erase id}).cancelTrigger plan,.ok ())
    else (s,.error .storage)

-- Files under a stem that is not their plan's id are skipped by list, invalid plans by rehydrate.
def rehydrate (first : List PlanId) : Except PlanEngineError PlanBook :=
  let byId := retain s.storage fun id plan => plan.id = id && plan.validate.isOk
  match detectCycle byId first with
  | some chain => .error (.cycleDetected chain)
  | none => .ok {s with plans := byId}

inductive Call where
  | register (plan : Plan) (first : List PlanId) (clock : Clock) (saves deletes : Bool)
  | unregister (id : PlanId) (deletes : Bool)

def call : Call → PlanBook × Except PlanEngineError Unit
  | .register plan first clock saves deletes => s.register chrono plan first clock saves deletes
  | .unregister id deletes => s.unregister id deletes

def step (c : Call) : PlanBook := (s.call chrono c).1

def liveAppointment (id : PlanId) : Bool :=
  (s.appointments.bind fun ledger => get ledger.entries (planKey id)).any fun entry => entry.state ≠ .cancelled && entry.state ≠ .fired

def liveWatch (id : PlanId) : Bool :=
  (s.watches.bind fun ledger => get ledger.entries (planKey id)).any fun entry => entry.state ≠ .cancelled

end PlanBook

def timed : PlanTrigger → Bool
  | .timeOfDay _ _ _ => true
  | _ => false

def watched : PlanTrigger → Bool
  | .eventReceived _ _ => true
  | _ => false

-- Memory, files and triggers say the same.
structure Agreed (s : PlanBook) : Prop where
  stored : ∀ id,get s.storage id = get s.plans id
  appointments : ∀ id,s.liveAppointment id = (get s.plans id).any fun plan => timed plan.trigger
  watches : ∀ id,s.liveWatch id = (get s.plans id).any fun plan => watched plan.trigger

-- A call after which they still do, and which changes nothing where it fails.
structure Agrees (s : PlanBook) (c : PlanBook.Call) : Prop where
  agreed : Agreed (s.step chrono c)
  plans : (s.call chrono c).2.isOk = false → ∀ id,get (s.step chrono c).plans id = get s.plans id
  storage : (s.call chrono c).2.isOk = false → ∀ id,get (s.step chrono c).storage id = get s.storage id

-- A plan whose trigger cannot be scheduled is a new one, and its file can be deleted again; a plan
-- that takes an older one's place keeps the kind of its trigger.
def Steady (s : PlanBook) : PlanBook.Call → Prop
  | .register plan first clock saves deletes => s.refusal plan first = none → saves = true →
      if (s.scheduleTrigger chrono plan clock).isOk then
        ∀ old,get s.plans plan.id = some old → (timed old.trigger → timed plan.trigger) ∧ (watched old.trigger → watched plan.trigger)
      else get s.plans plan.id = if deletes then none else some plan
  | .unregister _ _ => True

-- What boot finds: only plans that rehydrate keeps, and their triggers live.
structure Restored (s : PlanBook) : Prop where
  valid : ∀ id plan,get s.storage id = some plan → plan.id = id ∧ plan.validate.isOk
  appointments : ∀ id,s.liveAppointment id = (get s.storage id).any fun plan => timed plan.trigger
  watches : ∀ id,s.liveWatch id = (get s.storage id).any fun plan => watched plan.trigger
end

section
variable {δ τ ω : Type} [DecidableEq δ] {chrono : Chrono δ τ ω} {s after : PlanBook} {plan : Plan} {id : PlanId}

theorem runtimeSchedule_entries {ledger ledger' : AppointmentLedger} (accepted : runtimeSchedule chrono ledger creator spec action clock = .ok ledger') :
    ∃ nextFire,ledger' = {ledger with
      entries := ledger.entries.insert (creator,spec.appointmentId) ⟨creator,spec,action,.pending,nextFire,none,0⟩} := by
  unfold runtimeSchedule at accepted
  split at accepted
  · cases accepted
  · split at accepted
    · cases accepted
    · rename_i scheduled
      cases accepted
      exact ⟨_,Appointments.schedule_entries scheduled⟩

theorem watchSchedule_entries {ledger ledger' : WatchLedger} (accepted : ledger.schedule creator spec action = .ok ledger') :
    ledger' = {ledger with entries := ledger.entries.insert (creator,spec.watchId) ⟨creator,spec,action,.pending⟩} := by
  unfold WatchLedger.schedule at accepted
  split at accepted
  · cases accepted
  · split at accepted
    · cases accepted
    · exact (Except.ok.inj accepted).symm

theorem scheduleTrigger_live (accepted : s.scheduleTrigger chrono plan clock = .ok after) :
    after.plans = s.plans ∧ after.storage = s.storage ∧
      (∀ id,after.liveAppointment id = ((id = plan.id && timed plan.trigger) || s.liveAppointment id)) ∧
      ∀ id,after.liveWatch id = ((id = plan.id && watched plan.trigger) || s.liveWatch id) := by
  unfold PlanBook.scheduleTrigger at accepted
  cases trigger : plan.trigger with
  | timeOfDay time daysOfWeek timezone =>
    simp only [trigger] at accepted
    split at accepted
    · cases accepted
    · rename_i ledger wired
      split at accepted
      · cases accepted
      · rename_i scheduled
        cases accepted
        obtain ⟨nextFire,rfl⟩ := runtimeSchedule_entries scheduled
        refine ⟨rfl,rfl,?_,?_⟩
        · intro id
          by_cases same : id = plan.id
          · simp [PlanBook.liveAppointment,planKey,appointmentSpecFor,timed,same]
          · simp [PlanBook.liveAppointment,planKey,appointmentSpecFor,same,wired]
        · intro id
          simp [watched,PlanBook.liveWatch]
  | eventReceived eventFilter debounceMs =>
    simp only [trigger] at accepted
    split at accepted
    · cases accepted
    · rename_i ledger wired
      split at accepted
      · cases accepted
      · rename_i scheduled
        cases accepted
        cases watchSchedule_entries scheduled
        refine ⟨rfl,rfl,?_,?_⟩
        · intro id
          simp [timed,PlanBook.liveAppointment]
        · intro id
          by_cases same : id = plan.id
          · simp [PlanBook.liveWatch,planKey,watchSpecFor,watched,same]
          · simp [PlanBook.liveWatch,planKey,watchSpecFor,same,wired]
  | userCommand =>
    simp only [trigger] at accepted
    cases accepted
    simp [timed,watched]
  | planCompletion priorPlanId =>
    simp only [trigger] at accepted
    cases accepted
    simp [timed,watched]
  | firstBoot =>
    simp only [trigger] at accepted
    cases accepted
    simp [timed,watched]

theorem scheduleTrigger_saved (storage : Table PlanId Plan) :
    ({s with storage := storage}).scheduleTrigger chrono plan clock =
      (s.scheduleTrigger chrono plan clock).map fun after => {after with storage := storage} := by
  unfold PlanBook.scheduleTrigger
  cases plan.trigger with
  | timeOfDay time daysOfWeek timezone =>
    cases s.appointments with
    | none => rfl
    | some ledger =>
      dsimp only
      split <;> rfl
  | eventReceived eventFilter debounceMs =>
    cases s.watches with
    | none => rfl
    | some ledger =>
      dsimp only
      split <;> rfl
  | _ => rfl

theorem ledgerCancel_live (ledger : AppointmentLedger) (key other : String × String) :
    (get (ledger.cancel key).1.entries other).any (fun entry => entry.state ≠ .cancelled && entry.state ≠ .fired) =
      ((get ledger.entries other).any (fun entry => entry.state ≠ .cancelled && entry.state ≠ .fired) && other ≠ key) := by
  unfold AppointmentLedger.cancel
  cases there : get ledger.entries key with
  | none =>
    by_cases same : other = key
    · simp [same,there]
    · simp [same]
  | some entry =>
    by_cases gone : entry.state = .cancelled
    · by_cases same : other = key
      · simp [same,there,gone]
      · simp [same,gone]
    · by_cases same : other = key
      · simp [same,gone]
      · simp [same,gone]

theorem watchCancel_live (ledger : WatchLedger) (key other : String × String) :
    (get (ledger.cancel key).1.entries other).any (fun entry => entry.state ≠ .cancelled) =
      ((get ledger.entries other).any (fun entry => entry.state ≠ .cancelled) && other ≠ key) := by
  unfold WatchLedger.cancel
  cases there : get ledger.entries key with
  | none =>
    by_cases same : other = key
    · simp [same,there]
    · simp [same]
  | some entry =>
    by_cases gone : entry.state = .cancelled
    · by_cases same : other = key
      · simp [same,there,gone]
      · simp [same,gone]
    · by_cases same : other = key
      · simp [same,gone]
      · simp [same,gone]

theorem planKey_eq : (planKey id = planKey other) ↔ id = other := by simp [planKey]

theorem cancelTrigger_live (s : PlanBook) (plan : Plan) :
    (s.cancelTrigger plan).plans = s.plans ∧ (s.cancelTrigger plan).storage = s.storage ∧
      (∀ id,(s.cancelTrigger plan).liveAppointment id = (s.liveAppointment id && !(id = plan.id && timed plan.trigger))) ∧
      ∀ id,(s.cancelTrigger plan).liveWatch id = (s.liveWatch id && !(id = plan.id && watched plan.trigger)) := by
  unfold PlanBook.cancelTrigger
  cases trigger : plan.trigger with
  | timeOfDay time daysOfWeek timezone =>
    refine ⟨rfl,rfl,?_,?_⟩
    · intro id
      cases wired : s.appointments with
      | none => simp [PlanBook.liveAppointment,wired]
      | some ledger =>
        have cancelled := ledgerCancel_live ledger (planKey plan.id) (planKey id)
        simp only [ne_eq,planKey_eq] at cancelled
        simpa [PlanBook.liveAppointment,wired,timed] using cancelled
    · intro id
      simp [PlanBook.liveWatch,watched]
  | eventReceived eventFilter debounceMs =>
    refine ⟨rfl,rfl,?_,?_⟩
    · intro id
      simp [PlanBook.liveAppointment,timed]
    · intro id
      cases wired : s.watches with
      | none => simp [PlanBook.liveWatch,wired]
      | some ledger =>
        have cancelled := watchCancel_live ledger (planKey plan.id) (planKey id)
        simp only [ne_eq,planKey_eq] at cancelled
        simpa [PlanBook.liveWatch,wired,watched] using cancelled
  | _ => simp [timed,watched]

def Filed (s : PlanBook) : Prop := ∀ id plan,get s.plans id = some plan → plan.id = id

theorem agrees_same {c : PlanBook.Call} (agreed : Agreed s) (same : s.step chrono c = s) : Agrees chrono s c := by
  constructor
  · rw [same]
    exact agreed
  · intro _ id
    rw [same]
  · intro _ id
    rw [same]

theorem unregister_agrees (agreed : Agreed s) (filed : Filed s) (id : PlanId) (deletes : Bool) : Agrees chrono s (.unregister id deletes) := by
  cases there : get s.plans id with
  | none => exact agrees_same agreed (by simp [PlanBook.step,PlanBook.call,PlanBook.unregister,there])
  | some plan =>
    cases deletes with
    | false => exact agrees_same agreed (by simp [PlanBook.step,PlanBook.call,PlanBook.unregister,there])
    | true =>
      have called : s.call chrono (.unregister id true) =
          (({s with storage := s.storage.erase id,plans := s.plans.erase id}).cancelTrigger plan,.ok ()) := by
        simp [PlanBook.call,PlanBook.unregister,there]
      have own := filed id plan there
      subst own
      obtain ⟨plans,storage,appointments,watches⟩ :=
        cancelTrigger_live {s with storage := s.storage.erase plan.id,plans := s.plans.erase plan.id} plan
      refine ⟨?_,by simp [called,Except.isOk,Except.toBool],by simp [called,Except.isOk,Except.toBool]⟩
      rw [PlanBook.step,called]
      constructor
      · intro other
        rw [plans,storage,get_erase,get_erase,agreed.stored]
      · intro other
        have live : _ = (s.liveAppointment other && _) := appointments other
        rw [live,plans,get_erase,agreed.appointments]
        by_cases same : other = plan.id
        · simp [same,there]
        · simp [same]
      · intro other
        have live : _ = (s.liveWatch other && _) := watches other
        rw [live,plans,get_erase,agreed.watches]
        by_cases same : other = plan.id
        · simp [same,there]
        · simp [same]

theorem rolledBack_agrees {c : PlanBook.Call} (agreed : Agreed s) (storage : Table PlanId Plan) (failed : (s.call chrono c).2.isOk = false)
    (shape : s.step chrono c = {s with storage := storage}) :
    Agrees chrono s c ↔ ∀ id,get storage id = get s.storage id := by
  constructor
  · intro agrees id
    have kept := agrees.storage failed id
    rw [shape] at kept
    exact kept
  · intro same
    constructor
    · rw [shape]
      exact ⟨fun id => (same id).trans (agreed.stored id),agreed.appointments,agreed.watches⟩
    · intro _ id
      rw [shape]
    · intro _ id
      rw [shape]
      exact same id

theorem scheduled_agrees {c : PlanBook.Call} (agreed : Agreed s) (accepted : s.scheduleTrigger chrono plan clock = .ok after)
    (succeeded : (s.call chrono c).2.isOk = true)
    (shape : s.step chrono c = {after with storage := s.storage.insert plan.id plan,plans := s.plans.insert plan.id plan}) :
    Agrees chrono s c ↔ ∀ old,get s.plans plan.id = some old →
      (timed old.trigger → timed plan.trigger) ∧ (watched old.trigger → watched plan.trigger) := by
  obtain ⟨-,-,appointments,watches⟩ := scheduleTrigger_live accepted
  have lives : ∀ id,(s.step chrono c).liveAppointment id = ((id = plan.id && timed plan.trigger) || s.liveAppointment id) ∧
      (s.step chrono c).liveWatch id = ((id = plan.id && watched plan.trigger) || s.liveWatch id) := by
    intro id
    rw [shape]
    exact ⟨appointments id,watches id⟩
  constructor
  · intro agrees old there
    have appointment := agrees.agreed.appointments plan.id
    have watch := agrees.agreed.watches plan.id
    rw [(lives plan.id).1,agreed.appointments,there,shape] at appointment
    rw [(lives plan.id).2,agreed.watches,there,shape] at watch
    simp at appointment watch
    exact ⟨appointment,watch⟩
  · intro keeps
    refine ⟨?_,by simp [succeeded],by simp [succeeded]⟩
    constructor
    · intro id
      rw [shape]
      simp [agreed.stored]
    · intro id
      rw [(lives id).1,agreed.appointments,shape]
      by_cases same : id = plan.id
      · subst same
        cases there : get s.plans plan.id with
        | none => simp
        | some old => simpa using (keeps old there).1
      · simp [same]
    · intro id
      rw [(lives id).2,agreed.watches,shape]
      by_cases same : id = plan.id
      · subst same
        cases there : get s.plans plan.id with
        | none => simp
        | some old => simpa using (keeps old there).2
      · simp [same]

theorem register_agrees (agreed : Agreed s) : Agrees chrono s (.register plan first clock saves deletes) ↔
    Steady chrono s (.register plan first clock saves deletes) := by
  cases refused : s.refusal plan first with
  | some e =>
    have same : s.step chrono (.register plan first clock saves deletes) = s := by
      simp [PlanBook.step,PlanBook.call,PlanBook.register,refused]
    exact iff_of_true (agrees_same agreed same) (by simp [Steady,refused])
  | none =>
    cases saves with
    | false =>
      have same : s.step chrono (.register plan first clock false deletes) = s := by
        simp [PlanBook.step,PlanBook.call,PlanBook.register,refused]
      exact iff_of_true (agrees_same agreed same) (by simp [Steady])
    | true =>
      cases accepted : s.scheduleTrigger chrono plan clock with
      | error e =>
        have called : s.call chrono (.register plan first clock true deletes) =
            ({s with storage := if deletes then (s.storage.insert plan.id plan).erase plan.id else s.storage.insert plan.id plan},.error e) := by
          simp only [PlanBook.call,PlanBook.register,refused,scheduleTrigger_saved,accepted]
          cases deletes <;> rfl
        rw [rolledBack_agrees agreed _ (by rw [called]; rfl) (by rw [PlanBook.step,called])]
        simp only [Steady,refused,accepted,forall_const,← agreed.stored]
        cases deletes with
        | true =>
          constructor
          · intro same
            simpa [Except.isOk,Except.toBool] using (same plan.id).symm
          · intro absent id
            have gone : get s.storage plan.id = none := by simpa [Except.isOk,Except.toBool] using absent
            by_cases same : id = plan.id
            · simp [same,gone]
            · simp [same]
        | false =>
          constructor
          · intro same
            simpa [Except.isOk,Except.toBool] using (same plan.id).symm
          · intro there id
            have kept : get s.storage plan.id = some plan := by simpa [Except.isOk,Except.toBool] using there
            by_cases same : id = plan.id
            · simp [same,kept]
            · simp [same]
      | ok after =>
        obtain ⟨plans,-⟩ := scheduleTrigger_live accepted
        have called : s.call chrono (.register plan first clock true deletes) =
            ({after with storage := s.storage.insert plan.id plan,plans := s.plans.insert plan.id plan},.ok ()) := by
          simp only [PlanBook.call,PlanBook.register,refused,scheduleTrigger_saved,accepted]
          rw [← plans]
          rfl
        rw [scheduled_agrees agreed accepted (by rw [called]; rfl) (by rw [PlanBook.step,called])]
        simp [Steady,refused,accepted,Except.isOk,Except.toBool]

theorem step_filed (filed : Filed s) (c : PlanBook.Call) : Filed (s.step chrono c) := by
  cases c with
  | register plan first clock saves deletes =>
    simp only [PlanBook.step,PlanBook.call,PlanBook.register]
    split
    · exact filed
    · split
      · split
        · split <;> exact filed
        · rename_i accepted
          intro id found there
          rw [(scheduleTrigger_live accepted).1,get_insert] at there
          split at there
          · cases there
            exact Eq.symm ‹_›
          · exact filed id found there
      · exact filed
  | unregister id deletes =>
    simp only [PlanBook.step,PlanBook.call,PlanBook.unregister]
    split
    · exact filed
    · split
      · intro other found there
        rw [(cancelTrigger_live _ _).1,get_erase] at there
        split at there
        · cases there
        · exact filed other found there
      · exact filed

theorem call_agrees (agreed : Agreed s) (filed : Filed s) (c : PlanBook.Call) : Agrees chrono s c ↔ Steady chrono s c := by
  cases c with
  | register plan first clock saves deletes => exact register_agrees agreed
  | unregister id deletes => exact iff_of_true (unregister_agrees agreed filed id deletes) trivial

theorem rehydrate_plans {booted : PlanBook} (rehydrated : booted.rehydrate first = .ok s) :
    s = {booted with plans := retain booted.storage fun id plan => plan.id = id && plan.validate.isOk} := by
  unfold PlanBook.rehydrate at rehydrated
  dsimp only at rehydrated
  split at rehydrated
  · cases rehydrated
  · exact (Except.ok.inj rehydrated).symm

theorem rehydrated_filed {booted : PlanBook} (rehydrated : booted.rehydrate first = .ok s) : Filed s := by
  rw [rehydrate_plans rehydrated]
  intro id plan there
  simp only [get_retain,Option.filter_eq_some_iff,Bool.and_eq_true,decide_eq_true_eq] at there
  exact there.2.1

theorem rehydrated_agreed {booted : PlanBook} (rehydrated : booted.rehydrate first = .ok s) : Agreed s ↔ Restored booted := by
  rw [rehydrate_plans rehydrated]
  constructor
  · intro agreed
    have stored : ∀ id,get booted.storage id = get (retain booted.storage fun id plan => plan.id = id && plan.validate.isOk) id :=
      agreed.stored
    constructor
    · intro id plan there
      have kept := stored id
      rw [there,get_retain,there] at kept
      simpa [Option.filter_some] using kept
    · intro id
      rw [stored id]
      exact agreed.appointments id
    · intro id
      rw [stored id]
      exact agreed.watches id
  · intro restored
    have stored : ∀ id,get booted.storage id = get (retain booted.storage fun id plan => plan.id = id && plan.validate.isOk) id := by
      intro id
      rw [get_retain]
      cases there : get booted.storage id with
      | none => rfl
      | some plan =>
        obtain ⟨own,valid⟩ := restored.valid id plan there
        rw [Option.filter_some,if_pos (by simp [own,valid])]
    constructor
    · exact stored
    · intro id
      rw [← stored id]
      exact restored.appointments id
    · intro id
      rw [← stored id]
      exact restored.watches id

theorem plans_agree_exactly (booted s : PlanBook) (first : List PlanId) (rehydrated : booted.rehydrate first = .ok s)
    (calls : List PlanBook.Call) :
    (Agreed s ∧ Guarded (PlanBook.step chrono) (Agrees chrono) s calls) ↔
      (Restored booted ∧ Guarded (PlanBook.step chrono) (Steady chrono) s calls) := by
  rw [← rehydrated_agreed rehydrated]
  apply and_congr_right
  intro agreed
  apply guarded_iff fun s => Agreed s ∧ Filed s
  · exact fun s c held => call_agrees held.1 held.2 c
  · exact fun s c held agrees => ⟨agrees.agreed,step_filed held.2 c⟩
  · exact ⟨agreed,rehydrated_filed rehydrated⟩

end

-- A plan that waits for happenings, one that debounces them too briefly, and the plan without a trigger.
def doorbell : Plan := ⟨"doorbell","Doorbell",.eventReceived ⟨["doorbell_pressed"],[],[]⟩ none,false,[⟨.duration 10⟩],.stop,0⟩

def hastyDoorbell : Plan := {doorbell with trigger := .eventReceived ⟨["doorbell_pressed"],[],[]⟩ (some 500)}

def manualDoorbell : Plan := {doorbell with trigger := .userCommand}

def freshBook : PlanBook := ⟨∅,∅,some ⟨∅,1000,100⟩,some ⟨∅,1000,100⟩⟩

def storedBook : PlanBook := {freshBook with storage := (∅ : Table PlanId Plan).insert "doorbell" doorbell}

def rings (plan : Plan) : PlanBook.Call := .register plan [] ⟨0,0⟩ true true

def steadyCalls : List PlanBook.Call := [rings doorbell,rings {doorbell with name := "Front door"},.unregister "doorbell" true,rings hastyDoorbell]

instance {δ τ ω : Type} [DecidableEq δ] (chrono : Chrono δ τ ω) (s : PlanBook) (c : PlanBook.Call) : Decidable (Steady chrono s c) :=
  match c with
  | .register plan first clock saves deletes =>
    decidable_of_iff (s.refusal plan first = none → saves = true →
      if (s.scheduleTrigger chrono plan clock).isOk then
        ∀ old ∈ get s.plans plan.id,(timed old.trigger → timed plan.trigger) ∧ (watched old.trigger → watched plan.trigger)
      else get s.plans plan.id = if deletes then none else some plan) (by simp [Steady])
  | .unregister _ _ => .isTrue trivial

theorem steady_calls_agree :
    freshBook.rehydrate [] = .ok freshBook ∧ Agreed freshBook ∧
      Guarded (PlanBook.step Appointments.noCalendar) (Agrees Appointments.noCalendar) freshBook steadyCalls := by
  have rehydrated : freshBook.rehydrate [] = .ok freshBook := rfl
  refine ⟨rehydrated,(plans_agree_exactly freshBook freshBook [] rehydrated steadyCalls).mpr ⟨?_,by decide⟩⟩
  constructor <;> intro id <;> simp [freshBook,PlanBook.liveAppointment,PlanBook.liveWatch]

-- The file of the older plan is lost, its watch outlives it, and a restart leaves it without one.
theorem doorbell_disagrees :
    freshBook.rehydrate [] = .ok freshBook ∧
      ¬ Agrees Appointments.noCalendar (freshBook.step Appointments.noCalendar (rings doorbell)) (rings hastyDoorbell) ∧
      ¬ Agrees Appointments.noCalendar (freshBook.step Appointments.noCalendar (rings doorbell)) (rings manualDoorbell) ∧
      ∃ s,storedBook.rehydrate [] = .ok s ∧ ¬ Agrees Appointments.noCalendar s (rings {manualDoorbell with id := "chime"}) := by
  refine ⟨rfl,?_,?_,_,rfl,?_⟩
  · intro agrees
    have kept := agrees.storage (by decide) "doorbell"
    exact absurd kept (by decide)
  · intro agrees
    have live := agrees.agreed.watches "doorbell"
    exact absurd live (by decide)
  · intro agrees
    have live := agrees.agreed.watches "doorbell"
    exact absurd live (by decide)

end EvoCore.PlanRegistry
