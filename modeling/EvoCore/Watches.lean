import EvoCore.Plans
import EvoCore.Runs

namespace EvoCore.Watches
open Tables
open Plans (WatchHappeningFilter)
open Appointments (AppointmentAction)
open HappeningBus (u64Max)

-- The evaluator of crates/evo/src/watches.rs. JSON values, their numbers and regular expressions are
-- serde_json's, the hardware's and the regex crate's and stay a parameter.
structure Values (ν φ : Type) where
  get : ν → String → Option ν
  eq : ν → ν → Bool
  asF64 : ν → Option φ
  asStr : ν → Option String
  lt : φ → φ → Bool
  isMatch : String → String → Option Bool

inductive StatePredicate (ν φ : Type) where
  | equals (field : String) (value : ν)
  | notEquals (field : String) (value : ν)
  | greaterThan (field : String) (value : φ)
  | lessThan (field : String) (value : φ)
  | inRange (field : String) (lower upper : φ)
  | hysteresis (field : String) (upper lower : φ)
  | regex (field pattern : String)

inductive CompositeOp where
  | all
  | any
  | not
deriving DecidableEq,Repr

inductive WatchCondition (ν φ : Type) where
  | happeningMatch (filter : WatchHappeningFilter)
  | subjectState (canonicalId : String) (predicate : StatePredicate ν φ) (minimumDurationMs : Option Nat)
  | composite (op : CompositeOp) (terms : List (WatchCondition ν φ))

inductive OwnKind where
  | fired
  | missed
  | cancelled
  | evaluationThrottled
deriving DecidableEq,Repr

-- Of all other happenings only what a filter looks at.
inductive Happening (ν : Type) where
  | subjectStateChanged (plugin canonicalId : String) (newState : ν)
  | own (kind : OwnKind)
  | other (kind : String) (plugin shelf : Option String)

def Happening.kind : Happening ν → String
  | .subjectStateChanged _ _ _ => "subject_state_changed"
  | .own .fired => "watch_fired"
  | .own .missed => "watch_missed"
  | .own .cancelled => "watch_cancelled"
  | .own .evaluationThrottled => "watch_evaluation_throttled"
  | .other kind _ _ => kind

def Happening.primaryPlugin : Happening ν → Option String
  | .subjectStateChanged plugin _ _ => some plugin
  | .own _ => none
  | .other _ plugin _ => plugin

def Happening.shelf : Happening ν → Option String
  | .other _ _ shelf => shelf
  | _ => none

def Happening.isOwn : Happening ν → Bool
  | .own _ => true
  | _ => false

def happeningMatchesFilter (h : Happening ν) (filter : WatchHappeningFilter) : Bool :=
  (filter.variants = [] || filter.variants.contains h.kind) &&
  (filter.plugins = [] || h.primaryPlugin.any filter.plugins.contains) &&
  (filter.shelves = [] || h.shelf.any filter.shelves.contains)

-- WatchEvaluatorState; instants are nanoseconds, and `hysteresisHigh` is one table for all arms of the tree.
structure WatchEvaluatorState where
  cooldownUntil : Option Nat
  throttleWindowStarted : Option Nat
  throttleWindowSeen : Nat
  throttleWindowDropped : Nat
  hysteresisHigh : Table String Bool

def WatchEvaluatorState.default : WatchEvaluatorState := ⟨none,none,0,0,∅⟩

section
variable {ν φ : Type} (values : Values ν φ)

def fieldF64 (state : ν) (field : String) : Option φ := (values.get state field).bind values.asF64

def applyStatePredicate (predicate : StatePredicate ν φ) (state : ν) (canonicalId : String) (high : Table String Bool) :
    Bool × Table String Bool :=
  match predicate with
  | .equals field value => ((values.get state field).any (values.eq · value),high)
  | .notEquals field value => ((values.get state field).any fun v => !values.eq v value,high)
  | .greaterThan field value => ((fieldF64 values state field).any (values.lt value),high)
  | .lessThan field value => ((fieldF64 values state field).any fun v => values.lt v value,high)
  | .inRange field lower upper => ((fieldF64 values state field).any fun v => values.lt lower v && values.lt v upper,high)
  | .hysteresis field upper lower =>
    let inHigh := (get high canonicalId).getD false
    let high := high.insert canonicalId inHigh
    match fieldF64 values state field with
    | some v =>
      if values.lt upper v && !inHigh then (true,high.insert canonicalId true)
      else if values.lt v lower then (false,high.insert canonicalId false)
      else (false,high)
    | none => (false,high)
  | .regex field pattern => ((values.isMatch pattern (((values.get state field).bind values.asStr).getD "")).getD false,high)

def evaluateSubjectStateArm (h : Happening ν) (targetCanonicalId : String) (predicate : StatePredicate ν φ) (high : Table String Bool) :
    Bool × Table String Bool :=
  match h with
  | .subjectStateChanged _ canonicalId newState =>
    if canonicalId ≠ targetCanonicalId then (false,high) else applyStatePredicate values predicate newState canonicalId high
  | _ => (false,high)

mutual
def evaluateConditionAgainstEvent : WatchCondition ν φ → Happening ν → Table String Bool → Bool × Table String Bool
  | .happeningMatch filter,h,high => (happeningMatchesFilter h filter,high)
  | .subjectState canonicalId predicate _,h,high => evaluateSubjectStateArm values h canonicalId predicate high
  | .composite .all terms,h,high => evaluateAll terms h high
  | .composite .any terms,h,high => evaluateAny terms h high
  | .composite .not terms,h,high => evaluateNot terms h high

def evaluateAll : List (WatchCondition ν φ) → Happening ν → Table String Bool → Bool × Table String Bool
  | [],_,high => (true,high)
  | term::rest,h,high =>
    match evaluateConditionAgainstEvent term h high with
    | (true,high) => evaluateAll rest h high
    | (false,high) => (false,high)

def evaluateAny : List (WatchCondition ν φ) → Happening ν → Table String Bool → Bool × Table String Bool
  | [],_,high => (false,high)
  | term::rest,h,high =>
    match evaluateConditionAgainstEvent term h high with
    | (true,high) => (true,high)
    | (false,high) => evaluateAny rest h high

def evaluateNot : List (WatchCondition ν φ) → Happening ν → Table String Bool → Bool × Table String Bool
  | [],_,high => (false,high)
  | only::_,h,high =>
    match evaluateConditionAgainstEvent only h high with
    | (holds,high) => (!holds,high)
end

mutual
def maxMinimumDurationMs : WatchCondition ν φ → Nat
  | .happeningMatch _ => 0
  | .subjectState _ _ minimumDurationMs => minimumDurationMs.getD 0
  | .composite _ terms => maxOfTerms terms

def maxOfTerms : List (WatchCondition ν φ) → Nat
  | [] => 0
  | term::rest => max (maxMinimumDurationMs term) (maxOfTerms rest)
end

inductive WatchTrigger where
  | edge
  | level (cooldownMs : Nat)
deriving DecidableEq,Repr

-- The source never leaves a watch in Fired.
inductive WatchState where
  | pending
  | matched
  | fired
  | cancelled
deriving DecidableEq,Repr

structure WatchSpec (ν φ : Type) where
  watchId : String
  condition : WatchCondition ν φ
  trigger : WatchTrigger

structure WatchEntry (ν φ : Type) where
  creator : String
  spec : WatchSpec ν φ
  action : AppointmentAction
  state : WatchState
  lastFiredAtMs : Option Nat
  firesCompleted : Nat
  cooldownUntil : Option Nat
  matchEnteredAtMs : Option Nat

namespace WatchEntry
variable (entry : WatchEntry ν φ)

def active : Bool := entry.state = .pending || entry.state = .matched

def markFired (firedAtMs : Nat) (cooldownUntil : Option Nat) : WatchEntry ν φ :=
  if entry.state = .cancelled then entry
  else {entry with
    lastFiredAtMs := some firedAtMs
    firesCompleted := min (entry.firesCompleted+1) (2^32-1)
    state := .pending
    cooldownUntil := cooldownUntil
    matchEnteredAtMs := none}

def noteMatchEntered (nowMs : Nat) : WatchEntry ν φ :=
  if entry.state = .cancelled then entry
  else {entry with state := .matched,matchEnteredAtMs := some (entry.matchEnteredAtMs.getD nowMs)}

def noteMatchExited : WatchEntry ν φ :=
  if entry.state = .cancelled then entry else {entry with state := .pending,matchEnteredAtMs := none}

end WatchEntry

-- A watch with its evaluator state, which is the default one where the runtime's map has none.
structure Watch (ν φ : Type) where
  entry : WatchEntry ν φ
  eval : WatchEvaluatorState

-- When an event is evaluated, whether the clock's trust is strict then, and what a dispatch would answer.
structure Tick where
  now : Nat
  nowMs : Nat
  strict : Bool
  outcome : String
deriving DecidableEq,Repr

inductive WatchReport where
  | fired (action : AppointmentAction) (firedAtMs : Nat) (dispatchOutcome : String)
  | missed (suppressedAtMs : Nat) (reason : String)
  | evaluationThrottled (dropped : Nat)
deriving DecidableEq,Repr

def nanosPerSecond : Nat := 1000000000

-- Whether the evaluation goes ahead, and the drops that a rolled window reports.
def accountForEvaluation (maxEvaluationsPerSecond : Nat) (st : WatchEvaluatorState) (now : Nat) : Bool × Nat × WatchEvaluatorState :=
  let elapsed := now-st.throttleWindowStarted.getD now
  if nanosPerSecond ≤ elapsed then
    (true,st.throttleWindowDropped,{st with throttleWindowStarted := some now,throttleWindowSeen := 0,throttleWindowDropped := 0})
  else if maxEvaluationsPerSecond ≤ st.throttleWindowSeen then
    (false,0,{st with throttleWindowDropped := min (st.throttleWindowDropped+1) u64Max})
  else
    (true,0,{st with
      throttleWindowStarted := some (st.throttleWindowStarted.getD now)
      throttleWindowSeen := min (st.throttleWindowSeen+1) u64Max})

namespace Watch
variable (w : Watch ν φ)

-- The dispatch and what is stamped after it.
def fire (tick : Tick) : Watch ν φ × List WatchReport :=
  let cooldownUntil := match w.entry.spec.trigger with
    | .level cooldownMs => some (tick.now+cooldownMs*1000000)
    | .edge => none
  ({entry := w.entry.markFired tick.nowMs cooldownUntil
    eval := {w.eval with cooldownUntil := cooldownUntil.or w.eval.cooldownUntil}},
    [.fired w.entry.action tick.nowMs tick.outcome])

def inCooldown (now : Nat) : Bool :=
  match w.entry.spec.trigger with
  | .edge => false
  | .level _ => w.eval.cooldownUntil.any (now < ·)

-- A matching condition that has held for long enough.
def dispatch (maxDuration : Nat) (tick : Tick) : Watch ν φ × List WatchReport :=
  if w.inCooldown tick.now then (w,[.missed tick.nowMs "in_cooldown"])
  else if 0 < maxDuration && !tick.strict then (w,[.missed tick.nowMs "time_untrusted"])
  else w.fire tick

def matched (tick : Tick) : Watch ν φ × List WatchReport :=
  let maxDuration := maxMinimumDurationMs w.entry.spec.condition
  if 0 < maxDuration then
    let w := {w with entry := w.entry.noteMatchEntered tick.nowMs}
    let elapsed := match w.entry.matchEnteredAtMs with
      | some entered => tick.nowMs-entered
      | none => 0
    if elapsed < maxDuration then (w,[]) else w.dispatch maxDuration tick
  else w.dispatch maxDuration tick

def unmatched : Watch ν φ :=
  if 0 < maxMinimumDurationMs w.entry.spec.condition && w.entry.matchEnteredAtMs.isSome then {w with entry := w.entry.noteMatchExited} else w

def evaluateOne (maxEvaluationsPerSecond : Nat) (event : Happening ν) (tick : Tick) : Watch ν φ × List WatchReport :=
  match accountForEvaluation maxEvaluationsPerSecond w.eval tick.now with
  | (admitted,dropsToEmit,eval) =>
    let throttled := if 0 < dropsToEmit then [WatchReport.evaluationThrottled dropsToEmit] else []
    if admitted then
      match evaluateConditionAgainstEvent values w.entry.spec.condition event eval.hysteresisHigh with
      | (conditionMatch,high) =>
        let w : Watch ν φ := {w with eval := {eval with hysteresisHigh := high}}
        if conditionMatch then ((w.matched tick).1,throttled++(w.matched tick).2)
        else (w.unmatched,throttled)
    else ({w with eval := eval},throttled)

-- The runtime's own happenings are not evaluated, and neither is a watch that is not active.
def evaluateEvent (maxEvaluationsPerSecond : Nat) (event : Happening ν) (tick : Tick) : Watch ν φ × List WatchReport :=
  if event.isOwn || !w.entry.active then (w,[]) else w.evaluateOne values maxEvaluationsPerSecond event tick

end Watch

-- Every watch of the ledger sees the event; none touches another's entry or state.
structure WatchRuntime (ν φ : Type) where
  watches : Table (String × String) (Watch ν φ)
  maxEvaluationsPerSecond : Nat

def WatchRuntime.evaluateEvent (runtime : WatchRuntime ν φ) (seen : Happening ν × Tick) : WatchRuntime ν φ :=
  {runtime with watches := mapValues runtime.watches fun w => (w.evaluateEvent values runtime.maxEvaluationsPerSecond seen.1 seen.2).1}

def Watch.observe (maxEvaluationsPerSecond : Nat) (w : Watch ν φ) (seen : Happening ν × Tick) : Watch ν φ :=
  (w.evaluateEvent values maxEvaluationsPerSecond seen.1 seen.2).1

def WatchReport.isFired : WatchReport → Bool
  | .fired _ _ _ => true
  | _ => false

def Watch.fires (maxEvaluationsPerSecond : Nat) (w : Watch ν φ) (seen : Happening ν × Tick) : Bool :=
  (w.evaluateEvent values maxEvaluationsPerSecond seen.1 seen.2).2.any WatchReport.isFired

variable {values}

theorem runtime_watch (runtime : WatchRuntime ν φ) (events : List (Happening ν × Tick)) (key : String × String) :
    get (Runs.run (WatchRuntime.evaluateEvent values) runtime events).watches key =
      (get runtime.watches key).map fun w => Runs.run (Watch.observe values runtime.maxEvaluationsPerSecond) w events := by
  induction events generalizing runtime with
  | nil => simp
  | cons seen rest ih =>
    rw [Runs.run_cons,ih,WatchRuntime.evaluateEvent,get_mapValues,Option.map_map]
    rfl

end

section
variable {ν φ : Type} {values : Values ν φ} {maxPerSecond : Nat} {w : Watch ν φ} {tick : Tick} {seen : Happening ν × Tick}

theorem account_kept {st after : WatchEvaluatorState} (accounted : accountForEvaluation maxPerSecond st now = (admitted,drops,after)) :
    after.cooldownUntil = st.cooldownUntil ∧ after.hysteresisHigh = st.hysteresisHigh := by
  unfold accountForEvaluation at accounted
  simp only at accounted
  split at accounted
  · cases accounted
    exact ⟨rfl,rfl⟩
  · split at accounted
    · cases accounted
      exact ⟨rfl,rfl⟩
    · cases accounted
      exact ⟨rfl,rfl⟩

theorem throttled_quiet (drops : Nat) : (if 0 < drops then [WatchReport.evaluationThrottled drops] else []).any WatchReport.isFired = false := by
  split <;> rfl

-- A watch that the rate cap holds back keeps all but the cap's own counters.
theorem observe_refused (heard : seen.1.isOwn = false) (active : w.entry.active = true)
    (accounted : accountForEvaluation maxPerSecond w.eval seen.2.now = (false,drops,eval)) :
    w.observe values maxPerSecond seen = {w with eval := eval} ∧ w.fires values maxPerSecond seen = false := by
  unfold Watch.observe Watch.fires Watch.evaluateEvent Watch.evaluateOne
  simp only [heard,active,Bool.not_true,Bool.or_self,Bool.false_eq_true,if_false,accounted]
  exact ⟨trivial,throttled_quiet drops⟩

theorem observe_admitted (heard : seen.1.isOwn = false) (active : w.entry.active = true)
    (accounted : accountForEvaluation maxPerSecond w.eval seen.2.now = (true,drops,eval))
    (evaluated : evaluateConditionAgainstEvent values w.entry.spec.condition seen.1 w.eval.hysteresisHigh = (holds,high)) :
    w.observe values maxPerSecond seen =
        (if holds then (Watch.matched ⟨w.entry,{eval with hysteresisHigh := high}⟩ seen.2).1
          else Watch.unmatched ⟨w.entry,{eval with hysteresisHigh := high}⟩) ∧
      w.fires values maxPerSecond seen =
        (holds && (Watch.matched ⟨w.entry,{eval with hysteresisHigh := high}⟩ seen.2).2.any WatchReport.isFired) := by
  rw [←(account_kept accounted).2] at evaluated
  unfold Watch.observe Watch.fires Watch.evaluateEvent Watch.evaluateOne
  simp only [heard,active,Bool.not_true,Bool.or_self,Bool.false_eq_true,if_false,accounted,evaluated,if_true]
  cases holds with
  | false => exact ⟨rfl,throttled_quiet drops⟩
  | true => simp only [if_true,List.any_append,throttled_quiet,Bool.false_or,Bool.true_and,and_self]

theorem observe_unheard (unheard : seen.1.isOwn = true ∨ w.entry.active = false) :
    w.observe values maxPerSecond seen = w ∧ w.fires values maxPerSecond seen = false := by
  unfold Watch.observe Watch.fires Watch.evaluateEvent
  obtain own | inactive := unheard
  · simp [own]
  · simp [inactive]

end

end EvoCore.Watches
