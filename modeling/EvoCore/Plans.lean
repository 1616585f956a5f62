import EvoCore.Appointments

namespace EvoCore.Plans
open Tables
open Appointments (DayOfWeek AppointmentTimeZone saturatingAdd)

-- The plan values of crates/evo-plugin-sdk/src/contract/plans.rs. What a segment plays, its transition
-- and its fades decide nothing here and are left out, as are the description and the authorship.
abbrev PlanId := String

inductive PlanError where
  | invalid (reason : String)
deriving DecidableEq,Repr

inductive DayMask where
  | daily
  | weekdays
  | weekends
  | custom (days : List DayOfWeek)
deriving DecidableEq,Repr

structure WatchHappeningFilter where
  variants : List String
  plugins : List String
  shelves : List String
deriving DecidableEq,Repr

inductive PlanTrigger where
  | timeOfDay (time : String) (daysOfWeek : DayMask) (timezone : AppointmentTimeZone)
  | eventReceived (eventFilter : WatchHappeningFilter) (debounceMs : Option Nat)
  | userCommand
  | planCompletion (priorPlanId : PlanId)
  | firstBoot
deriving DecidableEq,Repr

inductive SegmentDuration where
  | untilEvent (eventFilter : WatchHappeningFilter)
  | duration (seconds : Nat)
  | untilTime (absoluteMs : Nat)
  | untilCompletion
  | untilUserStop
deriving DecidableEq,Repr

structure PlanSegment where
  duration : SegmentDuration
deriving DecidableEq,Repr

inductive OnComplete where
  | nextPlan (planId : PlanId)
  | stop
  | loop
  | resumePreviousSource
deriving DecidableEq,Repr

structure Plan where
  id : PlanId
  name : String
  trigger : PlanTrigger
  preempt : Bool
  segments : List PlanSegment
  onComplete : OnComplete
  lastModifiedMs : Nat
deriving DecidableEq,Repr

def Plan.validate (plan : Plan) : Except PlanError Unit :=
  if plan.segments = [] then .error (.invalid s!"plan {plan.id} has no segments")
  else if plan.onComplete = .nextPlan plan.id then .error (.invalid s!"plan {plan.id} chains to itself via on_complete")
  else .ok ()

theorem validate_segments {plan : Plan} (valid : plan.validate = .ok ()) : plan.segments ≠ [] := by
  intro empty
  simp [Plan.validate,empty] at valid

def SegmentDuration.deadline (duration : SegmentDuration) (nowMs : Nat) : Option Nat :=
  match duration with
  | .duration seconds => some (saturatingAdd nowMs (min (seconds*1000) HappeningBus.u64Max))
  | .untilTime absoluteMs => some absoluteMs
  | _ => none

end EvoCore.Plans
