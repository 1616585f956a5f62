import EvoCore.EdgeWatches
import EvoCore.TwinRuns

namespace EvoCore.Watches
open Runs TwinRuns Tables

section
variable {ν φ : Type} (canonicalId : String)

-- Trees of All, Any and Not over the states of one subject.
mutual
def onSubject : WatchCondition ν φ → Bool
  | .happeningMatch _ => false
  | .subjectState named _ _ => named = canonicalId
  | .composite _ terms => allOnSubject terms

def allOnSubject : List (WatchCondition ν φ) → Bool
  | [] => true
  | term::rest => onSubject term && allOnSubject rest
end

-- What such a tree answers to a happening that is not about its subject: every leaf says false.
mutual
def idle : WatchCondition ν φ → Bool
  | .happeningMatch _ => false
  | .subjectState _ _ _ => false
  | .composite .all terms => idleAll terms
  | .composite .any terms => idleAny terms
  | .composite .not terms => idleNot terms

def idleAll : List (WatchCondition ν φ) → Bool
  | [] => true
  | term::rest => idle term && idleAll rest

def idleAny : List (WatchCondition ν φ) → Bool
  | [] => false
  | term::rest => idle term || idleAny rest

def idleNot : List (WatchCondition ν φ) → Bool
  | [] => false
  | only::_ => !idle only
end

def Happening.about : Happening ν → Bool
  | .subjectStateChanged _ named _ => named = canonicalId
  | _ => false

end

section
variable {ν φ : Type} {values : Values ν φ} {canonicalId : String} {h : Happening ν}

theorem arm_idle (unrelated : h.about canonicalId = false) (predicate : StatePredicate ν φ) (high : Table String Bool) :
    evaluateSubjectStateArm values h canonicalId predicate high = (false,high) := by
  cases h with
  | subjectStateChanged plugin named newState =>
    have other : named ≠ canonicalId := of_decide_eq_false unrelated
    rw [evaluateSubjectStateArm,if_pos other]
  | own kind => rfl
  | other kind plugin shelf => rfl

mutual
theorem evaluate_idle (unrelated : h.about canonicalId = false) (high : Table String Bool) (c : WatchCondition ν φ)
    (named : onSubject canonicalId c = true) : evaluateConditionAgainstEvent values c h high = (idle c,high) := by
  cases c with
  | happeningMatch filter => cases named
  | subjectState target predicate minimumDurationMs =>
    cases of_decide_eq_true named
    rw [evaluateConditionAgainstEvent,idle,arm_idle unrelated]
  | composite op terms =>
    cases op with
    | all => rw [evaluateConditionAgainstEvent,idle,evaluateAll_idle unrelated high terms named]
    | any => rw [evaluateConditionAgainstEvent,idle,evaluateAny_idle unrelated high terms named]
    | not =>
      cases terms with
      | nil => rfl
      | cons only rest =>
        obtain ⟨here,_⟩ := Bool.and_eq_true_iff.mp named
        rw [evaluateConditionAgainstEvent,idle,evaluateNot,idleNot,evaluate_idle unrelated high only here]

theorem evaluateAll_idle (unrelated : h.about canonicalId = false) (high : Table String Bool) (terms : List (WatchCondition ν φ))
    (named : allOnSubject canonicalId terms = true) : evaluateAll values terms h high = (idleAll terms,high) := by
  cases terms with
  | nil => rfl
  | cons term rest =>
    obtain ⟨here,later⟩ := Bool.and_eq_true_iff.mp named
    rw [evaluateAll,idleAll,evaluate_idle unrelated high term here]
    cases answer : idle term with
    | true => exact evaluateAll_idle unrelated high rest later
    | false => rfl

theorem evaluateAny_idle (unrelated : h.about canonicalId = false) (high : Table String Bool) (terms : List (WatchCondition ν φ))
    (named : allOnSubject canonicalId terms = true) : evaluateAny values terms h high = (idleAny terms,high) := by
  cases terms with
  | nil => rfl
  | cons term rest =>
    obtain ⟨here,later⟩ := Bool.and_eq_true_iff.mp named
    rw [evaluateAny,idleAny,evaluate_idle unrelated high term here]
    cases answer : idle term with
    | true => rfl
    | false => exact evaluateAny_idle unrelated high rest later
end

end

section
variable {ν φ : Type} (values : Values ν φ) (maxPerSecond : Nat) (canonicalId : String)

def related (seen : Happening ν × Tick) : Bool := seen.1.about canonicalId

def admits (w : Watch ν φ) (seen : Happening ν × Tick) : Bool := (accountForEvaluation maxPerSecond w.eval seen.2.now).1

-- The answer to a happening about something else comes to nothing: a no with no match being timed, or a yes that
-- the cooldown, the minimum duration or the clock holds back while the timer runs already.
def PassesBy (w : Watch ν φ) (tick : Tick) : Prop :=
  let maxDuration := maxMinimumDurationMs w.entry.spec.condition
  if idle w.entry.spec.condition then
    (0 < maxDuration → w.entry.matchEnteredAtMs ≠ none) ∧
    (w.inCooldown tick.now = true ∨
      0 < maxDuration ∧ (tick.nowMs-w.entry.matchEnteredAtMs.getD tick.nowMs < maxDuration ∨ tick.strict = false))
  else 0 < maxDuration → w.entry.matchEnteredAtMs = none

-- A watch that sees all happenings beside the same watch that sees those of its subject only. What is unrelated
-- and evaluated passes by, and does not use up the rate cap of what is related.
def Undisturbed (s : Watch ν φ × Watch ν φ) (seen : Happening ν × Tick) : Prop :=
  if related canonicalId seen then s.1.entry.active = true → admits maxPerSecond s.1 seen = admits maxPerSecond s.2 seen
  else seen.1.isOwn = false → s.1.entry.active = true → admits maxPerSecond s.1 seen = true → PassesBy s.1 seen.2

-- An unrelated happening neither fires the watch nor touches its timer.
def Untouched (w : Watch ν φ) (seen : Happening ν × Tick) : Prop :=
  related canonicalId seen = false →
    w.fires values maxPerSecond seen = false ∧
    (w.observe values maxPerSecond seen).entry.matchEnteredAtMs = w.entry.matchEnteredAtMs

def firings (w : Watch ν φ) (events : List (Happening ν × Tick)) : List Bool :=
  outputs (Watch.observe values maxPerSecond) (Watch.fires values maxPerSecond) (related canonicalId) w events

-- The ledger's two ways to say that a match is being timed.
def Timed (entry : WatchEntry ν φ) : Prop := entry.matchEnteredAtMs ≠ none → entry.state = .matched

-- Watches that differ in the rate cap's counters at most.
structure Alike (a b : Watch ν φ) : Prop where
  entry : a.entry = b.entry
  cooldown : a.eval.cooldownUntil = b.eval.cooldownUntil
  high : a.eval.hysteresisHigh = b.eval.hysteresisHigh

end

section
variable {ν φ : Type} {values : Values ν φ} {maxPerSecond : Nat} {canonicalId : String} {a b w : Watch ν φ} {tick : Tick}
  {seen : Happening ν × Tick}

theorem Alike.trans {c : Watch ν φ} (left : Alike a b) (right : Alike b c) : Alike a c :=
  ⟨left.entry.trans right.entry,left.cooldown.trans right.cooldown,left.high.trans right.high⟩

theorem Alike.inCooldown (alike : Alike a b) (now : Nat) : a.inCooldown now = b.inCooldown now := by
  rw [Watch.inCooldown,Watch.inCooldown,alike.entry,alike.cooldown]

theorem Alike.fire (alike : Alike a b) : Alike (a.fire tick).1 (b.fire tick).1 ∧ (a.fire tick).2 = (b.fire tick).2 := by
  unfold Watch.fire
  simp only [alike.entry]
  exact ⟨⟨rfl,by simp only [alike.cooldown],alike.high⟩,trivial⟩

theorem Alike.dispatch (alike : Alike a b) (maxDuration : Nat) :
    Alike (a.dispatch maxDuration tick).1 (b.dispatch maxDuration tick).1 ∧ (a.dispatch maxDuration tick).2 = (b.dispatch maxDuration tick).2 := by
  unfold Watch.dispatch
  rw [alike.inCooldown]
  split
  · exact ⟨alike,rfl⟩
  · split
    · exact ⟨alike,rfl⟩
    · exact alike.fire

theorem Alike.matched (alike : Alike a b) : Alike (a.matched tick).1 (b.matched tick).1 ∧ (a.matched tick).2 = (b.matched tick).2 := by
  have timing : Alike {a with entry := a.entry.noteMatchEntered tick.nowMs} {b with entry := b.entry.noteMatchEntered tick.nowMs} :=
    ⟨by rw [alike.entry],alike.cooldown,alike.high⟩
  unfold Watch.matched
  simp only [alike.entry] at timing ⊢
  split
  · split
    · exact ⟨timing,rfl⟩
    · exact timing.dispatch _
  · exact alike.dispatch _

theorem Alike.unmatched (alike : Alike a b) : Alike a.unmatched b.unmatched := by
  unfold Watch.unmatched
  rw [alike.entry]
  split
  · exact ⟨rfl,alike.cooldown,alike.high⟩
  · exact alike

theorem Alike.observe (alike : Alike a b) (capped : a.entry.active = true → admits maxPerSecond a seen = admits maxPerSecond b seen) :
    Alike (a.observe values maxPerSecond seen) (b.observe values maxPerSecond seen) ∧
      a.fires values maxPerSecond seen = b.fires values maxPerSecond seen := by
  by_cases unheard : seen.1.isOwn = true ∨ a.entry.active = false
  · obtain ⟨after,quiet⟩ := @observe_unheard _ _ values maxPerSecond _ _ unheard
    obtain ⟨after_,quiet_⟩ := @observe_unheard _ _ values maxPerSecond _ _ (alike.entry ▸ unheard)
    rw [after,after_,quiet,quiet_]
    exact ⟨alike,rfl⟩
  · obtain ⟨heard,active⟩ := not_or.mp unheard
    rw [Bool.not_eq_true] at heard
    rw [Bool.not_eq_false] at active
    have active_ : b.entry.active = true := alike.entry ▸ active
    obtain ⟨⟨admitted,drops,eval⟩,accounted⟩ : ∃ result,accountForEvaluation maxPerSecond a.eval seen.2.now = result := ⟨_,rfl⟩
    obtain ⟨⟨admitted_,drops_,eval_⟩,accounted_⟩ : ∃ result,accountForEvaluation maxPerSecond b.eval seen.2.now = result := ⟨_,rfl⟩
    have same := capped active
    unfold admits at same
    rw [accounted,accounted_] at same
    cases same
    obtain ⟨cooldown,high⟩ := account_kept accounted
    obtain ⟨cooldown_,high_⟩ := account_kept accounted_
    cases admitted with
    | false =>
      obtain ⟨after,quiet⟩ := @observe_refused _ _ values _ _ _ _ _ heard active accounted
      obtain ⟨after_,quiet_⟩ := @observe_refused _ _ values _ _ _ _ _ heard active_ accounted_
      rw [after,after_,quiet,quiet_]
      exact ⟨⟨alike.entry,by rw [cooldown,cooldown_,alike.cooldown],by rw [high,high_,alike.high]⟩,rfl⟩
    | true =>
      obtain ⟨⟨holds,latches⟩,evaluated⟩ :
        ∃ result,evaluateConditionAgainstEvent values a.entry.spec.condition seen.1 a.eval.hysteresisHigh = result := ⟨_,rfl⟩
      have evaluated_ := evaluated
      rw [alike.entry,alike.high] at evaluated_
      obtain ⟨after,fired⟩ := observe_admitted heard active accounted evaluated
      obtain ⟨after_,fired_⟩ := observe_admitted heard active_ accounted_ evaluated_
      have met : Alike ⟨a.entry,{eval with hysteresisHigh := latches}⟩ ⟨b.entry,{eval_ with hysteresisHigh := latches}⟩ :=
        ⟨alike.entry,by simp only [cooldown,cooldown_,alike.cooldown],rfl⟩
      rw [after,after_,fired,fired_]
      cases holds with
      | true => exact ⟨met.matched.1,by rw [met.matched.2]⟩
      | false => exact ⟨met.unmatched,rfl⟩

structure Carried (before after : WatchEntry ν φ) : Prop where
  spec : after.spec = before.spec
  timed : Timed before → Timed after

theorem Carried.refl (entry : WatchEntry ν φ) : Carried entry entry := ⟨rfl,fun timed => timed⟩

theorem Carried.trans {first middle last : WatchEntry ν φ} (left : Carried first middle) (right : Carried middle last) : Carried first last :=
  ⟨right.spec.trans left.spec,fun timed => right.timed (left.timed timed)⟩

theorem carried_entered (entry : WatchEntry ν φ) (nowMs : Nat) : Carried entry (entry.noteMatchEntered nowMs) := by
  unfold WatchEntry.noteMatchEntered
  split
  · exact .refl entry
  · exact ⟨rfl,fun _ _ => rfl⟩

theorem carried_exited (entry : WatchEntry ν φ) : Carried entry entry.noteMatchExited := by
  unfold WatchEntry.noteMatchExited
  split
  · exact .refl entry
  · exact ⟨rfl,fun _ timing => absurd rfl timing⟩

theorem carried_dispatch (entry : WatchEntry ν φ) (eval : WatchEvaluatorState) (maxDuration : Nat) :
    Carried entry ((⟨entry,eval⟩ : Watch ν φ).dispatch maxDuration tick).1.entry := by
  unfold Watch.dispatch
  split
  · exact .refl entry
  · split
    · exact .refl entry
    · unfold Watch.fire WatchEntry.markFired
      simp only
      split
      · exact .refl entry
      · exact ⟨rfl,fun _ timing => absurd rfl timing⟩

theorem carried_matched (entry : WatchEntry ν φ) (eval : WatchEvaluatorState) :
    Carried entry ((⟨entry,eval⟩ : Watch ν φ).matched tick).1.entry := by
  unfold Watch.matched
  simp only
  split
  · refine (carried_entered entry tick.nowMs).trans ?_
    generalize entry.noteMatchEntered tick.nowMs = stamped
    have waiting (elapsed maxDuration : Nat) : Carried stamped
        (if elapsed < maxDuration then ((⟨stamped,eval⟩ : Watch ν φ),[]) else Watch.dispatch ⟨stamped,eval⟩ maxDuration tick).1.entry := by
      split
      · exact .refl stamped
      · exact carried_dispatch stamped eval maxDuration
    exact waiting _ _
  · exact carried_dispatch entry eval _

theorem carried_unmatched (entry : WatchEntry ν φ) (eval : WatchEvaluatorState) : Carried entry (⟨entry,eval⟩ : Watch ν φ).unmatched.entry := by
  unfold Watch.unmatched
  split
  · exact carried_exited entry
  · exact .refl entry

theorem carried_observe (w : Watch ν φ) : Carried w.entry (w.observe values maxPerSecond seen).entry := by
  unfold Watch.observe Watch.evaluateEvent
  split
  · exact .refl w.entry
  · unfold Watch.evaluateOne
    simp only
    split
    · split
      · exact carried_matched w.entry _
      · exact carried_unmatched w.entry _
    · exact .refl w.entry

theorem passes_by (timed : Timed w.entry) (passes : PassesBy w tick) :
    if idle w.entry.spec.condition then Alike (w.matched tick).1 w ∧ (w.matched tick).2.any WatchReport.isFired = false
    else Alike w.unmatched w := by
  unfold PassesBy at passes
  simp only at passes
  cases answer : idle w.entry.spec.condition with
  | false =>
    rw [answer,if_neg Bool.false_ne_true] at passes
    rw [if_neg Bool.false_ne_true]
    have untimed : (0 < maxMinimumDurationMs w.entry.spec.condition && w.entry.matchEnteredAtMs.isSome) = false := by
      rw [Bool.and_eq_false_imp]
      intro long
      rw [passes (of_decide_eq_true long)]
      rfl
    rw [Watch.unmatched,untimed]
    exact ⟨rfl,rfl,rfl⟩
  | true =>
    rw [answer,if_pos rfl] at passes
    rw [if_pos rfl]
    obtain ⟨timing,held⟩ := passes
    have dispatched (maxDuration : Nat) (held : w.inCooldown tick.now = true ∨ 0 < maxDuration ∧ tick.strict = false) :
        Alike (w.dispatch maxDuration tick).1 w ∧ (w.dispatch maxDuration tick).2.any WatchReport.isFired = false := by
      unfold Watch.dispatch
      split
      · exact ⟨⟨rfl,rfl,rfl⟩,rfl⟩
      · rename_i warm
        obtain cool | ⟨long,loose⟩ := held
        · exact absurd cool warm
        · rw [loose,if_pos (by simpa using long)]
          exact ⟨⟨rfl,rfl,rfl⟩,rfl⟩
    unfold Watch.matched
    simp only
    by_cases long : 0 < maxMinimumDurationMs w.entry.spec.condition
    · obtain ⟨entered,since⟩ := Option.ne_none_iff_exists'.mp (timing long)
      have unstamped : w.entry.noteMatchEntered tick.nowMs = w.entry := by
        have state := timed (timing long)
        rw [WatchEntry.noteMatchEntered,state,if_neg (by decide),since,Option.getD_some,←state,←since]
      rw [if_pos long,unstamped,since]
      rw [since,Option.getD_some] at held
      simp only
      split
      · exact ⟨⟨rfl,rfl,rfl⟩,rfl⟩
      · rename_i waited
        apply dispatched
        obtain cool | ⟨_,waits | loose⟩ := held
        · exact .inl cool
        · exact absurd waits waited
        · exact .inr ⟨long,loose⟩
    · rw [if_neg long]
      apply dispatched
      obtain cool | ⟨long_,_⟩ := held
      · exact .inl cool
      · exact absurd long_ long

theorem Alike.passes (alike : Alike a b) (passes : PassesBy a tick) : PassesBy b tick := by
  unfold PassesBy at passes ⊢
  rwa [←alike.inCooldown,←alike.entry]

theorem observe_passed (unrelated : related canonicalId seen = false) (named : onSubject canonicalId w.entry.spec.condition = true)
    (timed : Timed w.entry)
    (passes : seen.1.isOwn = false → w.entry.active = true → admits maxPerSecond w seen = true → PassesBy w seen.2) :
    Alike (w.observe values maxPerSecond seen) w ∧ w.fires values maxPerSecond seen = false := by
  by_cases unheard : seen.1.isOwn = true ∨ w.entry.active = false
  · obtain ⟨after,quiet⟩ := @observe_unheard _ _ values maxPerSecond _ _ unheard
    rw [after]
    exact ⟨⟨rfl,rfl,rfl⟩,quiet⟩
  · obtain ⟨heard,active⟩ := not_or.mp unheard
    rw [Bool.not_eq_true] at heard
    rw [Bool.not_eq_false] at active
    obtain ⟨⟨admitted,drops,eval⟩,accounted⟩ : ∃ result,accountForEvaluation maxPerSecond w.eval seen.2.now = result := ⟨_,rfl⟩
    obtain ⟨cooldown,high⟩ := account_kept accounted
    cases admitted with
    | false =>
      obtain ⟨after,quiet⟩ := @observe_refused _ _ values _ _ _ _ _ heard active accounted
      rw [after]
      exact ⟨⟨rfl,cooldown,high⟩,quiet⟩
    | true =>
      have evaluated : evaluateConditionAgainstEvent values w.entry.spec.condition seen.1 w.eval.hysteresisHigh =
          (idle w.entry.spec.condition,w.eval.hysteresisHigh) := evaluate_idle unrelated _ _ named
      obtain ⟨after,fired⟩ := observe_admitted heard active accounted evaluated
      have same : Alike w ⟨w.entry,{eval with hysteresisHigh := w.eval.hysteresisHigh}⟩ := ⟨rfl,cooldown.symm,rfl⟩
      have passed := passes_by (w := ⟨w.entry,{eval with hysteresisHigh := w.eval.hysteresisHigh}⟩) timed
        (same.passes (passes heard active (by rw [admits,accounted])))
      have back : Alike ⟨w.entry,{eval with hysteresisHigh := w.eval.hysteresisHigh}⟩ w := ⟨rfl,cooldown,rfl⟩
      rw [after,fired]
      simp only at passed
      cases answer : idle w.entry.spec.condition with
      | true =>
        rw [answer,if_pos rfl] at passed
        exact ⟨passed.1.trans back,passed.2⟩
      | false =>
        rw [answer,if_neg Bool.false_ne_true] at passed
        exact ⟨passed.trans back,rfl⟩

structure Companions (canonicalId : String) (s : Watch ν φ × Watch ν φ) : Prop where
  alike : Alike s.1 s.2
  timed : Timed s.1.entry
  named : onSubject canonicalId s.1.entry.spec.condition = true

theorem companions_step (s : Watch ν φ × Watch ν φ) (companions : Companions canonicalId s)
    (undisturbed : Undisturbed maxPerSecond canonicalId s seen) :
    Companions canonicalId (twin (Watch.observe values maxPerSecond) (related canonicalId) s seen) ∧
      (related canonicalId seen = true → s.1.fires values maxPerSecond seen = s.2.fires values maxPerSecond seen) ∧
      Untouched values maxPerSecond canonicalId s.1 seen := by
  have carried := @carried_observe _ _ values maxPerSecond seen s.1
  have timed := carried.timed companions.timed
  have named : onSubject canonicalId (s.1.observe values maxPerSecond seen).entry.spec.condition = true := carried.spec ▸ companions.named
  unfold Undisturbed at undisturbed
  cases picked : related canonicalId seen with
  | true =>
    rw [picked,if_pos rfl] at undisturbed
    obtain ⟨alike,fired⟩ := @Alike.observe _ _ values _ _ _ _ companions.alike undisturbed
    refine ⟨⟨?_,timed,named⟩,fun _ => fired,fun unrelated => ?_⟩
    · rw [twin,picked,if_pos rfl]
      exact alike
    · rw [picked] at unrelated
      cases unrelated
  | false =>
    rw [picked,if_neg Bool.false_ne_true] at undisturbed
    obtain ⟨passed,quiet⟩ := @observe_passed _ _ values _ _ _ _ picked companions.named companions.timed undisturbed
    refine ⟨⟨?_,timed,named⟩,fun chosen => (by cases chosen),fun _ => ⟨quiet,by rw [passed.entry]⟩⟩
    rw [twin,picked,if_neg Bool.false_ne_true]
    exact passed.trans companions.alike

theorem undisturbed_run (named : onSubject canonicalId w.entry.spec.condition = true) (timed : Timed w.entry)
    (undisturbed : Guarded (twin (Watch.observe values maxPerSecond) (related canonicalId)) (Undisturbed maxPerSecond canonicalId) (w,w) events) :
    Guarded (twin (Watch.observe values maxPerSecond) (related canonicalId)) (fun s seen =>
      (related canonicalId seen = true → s.1.fires values maxPerSecond seen = s.2.fires values maxPerSecond seen) ∧
      Untouched values maxPerSecond canonicalId s.1 seen) (w,w) events := by
  apply @guarded_carries _ _ _ (Companions canonicalId) _ _ _ _ ?_ ?_ ⟨⟨rfl,rfl,rfl⟩,timed,named⟩ undisturbed
  · exact fun s seen companions met => (companions_step s companions met).1
  · exact fun s seen companions met => (companions_step s companions met).2

-- Unrelated happenings are invisible where each passes by: two sequences with the same happenings of the subject
-- fire the watch at the same ones of these, and no other happening fires it or touches its timer.
theorem unrelated_invisible (named : onSubject canonicalId w.entry.spec.condition = true) (timed : Timed w.entry)
    (same : events.filter (related canonicalId) = others.filter (related canonicalId))
    (undisturbed : Guarded (twin (Watch.observe values maxPerSecond) (related canonicalId)) (Undisturbed maxPerSecond canonicalId) (w,w) events)
    (undisturbed_ : Guarded (twin (Watch.observe values maxPerSecond) (related canonicalId)) (Undisturbed maxPerSecond canonicalId) (w,w) others) :
    firings values maxPerSecond canonicalId w events = firings values maxPerSecond canonicalId w others ∧
      Guarded (Watch.observe values maxPerSecond) (Untouched values maxPerSecond canonicalId) w events := by
  obtain ⟨answers,untouched⟩ := guarded_and.mp (@undisturbed_run _ _ values _ _ _ _ named timed undisturbed)
  obtain ⟨answers_,_⟩ := guarded_and.mp (@undisturbed_run _ _ values _ _ _ _ named timed undisturbed_)
  exact ⟨outputs_same same answers answers_,guarded_first untouched⟩

end

-- A happening of some plugin, about no subject.
def noise (now : Nat) : Happening Reading × Tick :=
  (.other "plugin_event" (some "org.example.radio") none,⟨now,now/1000000,true,"ok"⟩)

def cpu (n : Int) (now : Nat) : Happening Reading × Tick := (temp n now).seen "cpu"

def hotFor (minimumDurationMs : Nat) : Watch Reading Int :=
  ⟨⟨"org.example.fan",⟨"overheating",.subjectState "cpu" above80 (some minimumDurationMs),.edge⟩,
    ⟨"hardware.fan","spin_up","\x7b\x7d"⟩,.pending,none,0,none,none⟩,.default⟩

def notHot : Watch Reading Int :=
  ⟨⟨"org.example.fan",⟨"cooled",.composite .not [.subjectState "cpu" above80 none],.edge⟩,
    ⟨"hardware.fan","spin_down","\x7b\x7d"⟩,.pending,none,0,none,none⟩,.default⟩

-- Noise before and after a hot second.
theorem noise_unheard :
    firings readings 1000 "cpu" (hotFor 1000) [noise 0,cpu 85 0,cpu 90 1000000000,noise 2000000000] =
        firings readings 1000 "cpu" (hotFor 1000) [cpu 85 0,cpu 90 1000000000] ∧
      Guarded (Watch.observe readings 1000) (Untouched readings 1000 "cpu") (hotFor 1000)
        [noise 0,cpu 85 0,cpu 90 1000000000,noise 2000000000] := by
  have timed : Timed (hotFor 1000).entry := fun timing => absurd rfl timing
  refine @unrelated_invisible _ _ _ _ _ _ _ [cpu 85 0,cpu 90 1000000000] (by decide) timed rfl ⟨?_,?_,?_,?_,trivial⟩ ⟨?_,?_,trivial⟩
  · exact fun _ _ _ _ => rfl
  · exact fun _ => by decide
  · exact fun _ => by decide
  · exact fun _ _ _ _ => by decide
  · exact fun _ => by decide
  · exact fun _ => by decide

-- Noise fires a negated watch, and starts the duration of another again.
theorem noise_heard :
    notHot.fires readings 1000 (noise 0) = true ∧ ¬ Guarded (Watch.observe readings 1000) (Untouched readings 1000 "cpu") notHot [noise 0] ∧
    [cpu 85 0,noise 500000000,cpu 90 1000000000].filter (related "cpu") = [cpu 85 0,cpu 90 1000000000] ∧
    firings readings 1000 "cpu" (hotFor 1000) [cpu 85 0,noise 500000000,cpu 90 1000000000] = [false,false] ∧
    firings readings 1000 "cpu" (hotFor 1000) [cpu 85 0,cpu 90 1000000000] = [false,true] := by
  have fired : notHot.fires readings 1000 (noise 0) = true := by decide
  refine ⟨fired,?_,rfl,by decide,by decide⟩
  intro untouched
  have quiet := (untouched.1 rfl).1
  rw [fired] at quiet
  cases quiet

end EvoCore.Watches
