import EvoCore.EdgeWatches
import EvoCore.SchmittTriggers

namespace EvoCore.Watches
open Runs Tables SchmittTriggers

structure Arm (φ : Type) where
  canonicalId : String
  field : String
  upper : φ
  lower : φ
deriving DecidableEq,Repr

def armOf (canonicalId : String) : StatePredicate ν φ → Option (Arm φ)
  | .hysteresis field upper lower => some ⟨canonicalId,field,upper,lower⟩
  | _ => none

-- The hysteresis arms of a tree in the order in which they are listed.
mutual
def arms : WatchCondition ν φ → List (Arm φ)
  | .happeningMatch _ => []
  | .subjectState canonicalId predicate _ => (armOf canonicalId predicate).toList
  | .composite _ terms => armsOf terms

def armsOf : List (WatchCondition ν φ) → List (Arm φ)
  | [] => []
  | term::rest => arms term++armsOf rest
end

-- What became of an arm in an evaluation: not reached, or evaluated with an answer.
structure Turn (φ : Type) where
  arm : Arm φ
  visit : Option Bool
deriving DecidableEq,Repr

def unreached (terms : List (WatchCondition ν φ)) : List (Turn φ) := (armsOf terms).map fun arm => ⟨arm,none⟩

section
variable {ν φ σ : Type} (values : Values ν φ) (h : Happening ν) (respond : Arm φ → σ → Bool × σ)

-- The evaluation of a tree for a given way to answer for its hysteresis arms, with the turn of each of them.
mutual
def walk : WatchCondition ν φ → σ → Bool × σ × List (Turn φ)
  | .happeningMatch filter,s => (happeningMatchesFilter h filter,s,[])
  | .subjectState canonicalId predicate _,s =>
    match armOf canonicalId predicate with
    | some arm => ((respond arm s).1,(respond arm s).2,[⟨arm,some (respond arm s).1⟩])
    | none => ((evaluateSubjectStateArm values h canonicalId predicate ∅).1,s,[])
  | .composite .all terms,s => walkAll terms s
  | .composite .any terms,s => walkAny terms s
  | .composite .not terms,s => walkNot terms s

def walkAll : List (WatchCondition ν φ) → σ → Bool × σ × List (Turn φ)
  | [],s => (true,s,[])
  | term::rest,s =>
    match walk term s with
    | (true,s,turns) =>
      match walkAll rest s with
      | (holds,s,more) => (holds,s,turns++more)
    | (false,s,turns) => (false,s,turns++unreached rest)

def walkAny : List (WatchCondition ν φ) → σ → Bool × σ × List (Turn φ)
  | [],s => (false,s,[])
  | term::rest,s =>
    match walk term s with
    | (true,s,turns) => (true,s,turns++unreached rest)
    | (false,s,turns) =>
      match walkAny rest s with
      | (holds,s,more) => (holds,s,turns++more)

def walkNot : List (WatchCondition ν φ) → σ → Bool × σ × List (Turn φ)
  | [],s => (false,s,[])
  | only::rest,s =>
    match walk only s with
    | (holds,s,turns) => (!holds,s,turns++unreached rest)
end

def Arm.answer (arm : Arm φ) (high : Table String Bool) : Bool × Table String Bool :=
  evaluateSubjectStateArm values h arm.canonicalId (.hysteresis arm.field arm.upper arm.lower) high

end

section
variable {ν φ σ : Type} {values : Values ν φ} {h : Happening ν}

theorem armOf_some {predicate : StatePredicate ν φ} (found : armOf canonicalId predicate = some arm) :
    evaluateSubjectStateArm values h canonicalId predicate = arm.answer values h := by
  cases predicate with
  | hysteresis field upper lower =>
    cases found
    rfl
  | _ => cases found

theorem armOf_none {predicate : StatePredicate ν φ} (found : armOf canonicalId predicate = none) (high : Table String Bool) :
    evaluateSubjectStateArm values h canonicalId predicate high = ((evaluateSubjectStateArm values h canonicalId predicate ∅).1,high) := by
  cases h with
  | subjectStateChanged plugin named newState =>
    unfold evaluateSubjectStateArm
    simp only
    split
    · rfl
    · cases predicate with
      | hysteresis field upper lower => cases found
      | _ => rfl
  | own kind => rfl
  | other kind plugin shelf => rfl

-- Turns left out, the walk is the evaluation.
mutual
theorem walk_evaluates (c : WatchCondition ν φ) (high : Table String Bool) :
    evaluateConditionAgainstEvent values c h high =
      ((walk values h (Arm.answer values h) c high).1,(walk values h (Arm.answer values h) c high).2.1) := by
  cases c with
  | happeningMatch filter => rfl
  | subjectState canonicalId predicate minimumDurationMs =>
    rw [evaluateConditionAgainstEvent,walk]
    cases found : armOf canonicalId predicate with
    | some arm => rw [armOf_some found]
    | none => rw [armOf_none found]
  | composite op terms =>
    cases op with
    | all => exact walkAll_evaluates terms high
    | any => exact walkAny_evaluates terms high
    | not =>
      cases terms with
      | nil => rfl
      | cons only rest =>
        rw [evaluateConditionAgainstEvent,evaluateNot,walk,walkNot,walk_evaluates only high]

theorem walkAll_evaluates (terms : List (WatchCondition ν φ)) (high : Table String Bool) :
    evaluateAll values terms h high =
      ((walkAll values h (Arm.answer values h) terms high).1,(walkAll values h (Arm.answer values h) terms high).2.1) := by
  cases terms with
  | nil => rfl
  | cons term rest =>
    rw [evaluateAll,walkAll,walk_evaluates term high]
    obtain ⟨⟨holds,after,turns⟩,walked⟩ : ∃ result,walk values h (Arm.answer values h) term high = result := ⟨_,rfl⟩
    rw [walked]
    cases holds with
    | true => exact walkAll_evaluates rest after
    | false => rfl

theorem walkAny_evaluates (terms : List (WatchCondition ν φ)) (high : Table String Bool) :
    evaluateAny values terms h high =
      ((walkAny values h (Arm.answer values h) terms high).1,(walkAny values h (Arm.answer values h) terms high).2.1) := by
  cases terms with
  | nil => rfl
  | cons term rest =>
    rw [evaluateAny,walkAny,walk_evaluates term high]
    obtain ⟨⟨holds,after,turns⟩,walked⟩ : ∃ result,walk values h (Arm.answer values h) term high = result := ⟨_,rfl⟩
    rw [walked]
    cases holds with
    | true => rfl
    | false => exact walkAny_evaluates rest after
end

-- Every arm has its turn.
mutual
theorem walk_arms (respond : Arm φ → σ → Bool × σ) (c : WatchCondition ν φ) (s : σ) : (walk values h respond c s).2.2.map Turn.arm = arms c := by
  cases c with
  | happeningMatch filter => rfl
  | subjectState canonicalId predicate minimumDurationMs =>
    rw [walk,arms]
    cases found : armOf canonicalId predicate with
    | some arm => rfl
    | none => rfl
  | composite op terms =>
    cases op with
    | all => exact walkAll_arms respond terms s
    | any => exact walkAny_arms respond terms s
    | not =>
      cases terms with
      | nil => rfl
      | cons only rest =>
        rw [walk,walkNot,arms,armsOf,←walk_arms respond only s]
        simp only [List.map_append,unreached,List.map_map]
        exact congrArg _ (List.map_id _)

theorem walkAll_arms (respond : Arm φ → σ → Bool × σ) (terms : List (WatchCondition ν φ)) (s : σ) :
    (walkAll values h respond terms s).2.2.map Turn.arm = armsOf terms := by
  cases terms with
  | nil => rfl
  | cons term rest =>
    rw [walkAll,armsOf,←walk_arms respond term s]
    obtain ⟨⟨holds,after,turns⟩,walked⟩ : ∃ result,walk values h respond term s = result := ⟨_,rfl⟩
    rw [walked]
    cases holds with
    | true => rw [List.map_append,walkAll_arms respond rest after]
    | false =>
      simp only [List.map_append,unreached,List.map_map]
      exact congrArg _ (List.map_id _)

theorem walkAny_arms (respond : Arm φ → σ → Bool × σ) (terms : List (WatchCondition ν φ)) (s : σ) :
    (walkAny values h respond terms s).2.2.map Turn.arm = armsOf terms := by
  cases terms with
  | nil => rfl
  | cons term rest =>
    rw [walkAny,armsOf,←walk_arms respond term s]
    obtain ⟨⟨holds,after,turns⟩,walked⟩ : ∃ result,walk values h respond term s = result := ⟨_,rfl⟩
    rw [walked]
    cases holds with
    | true =>
      simp only [List.map_append,unreached,List.map_map]
      exact congrArg _ (List.map_id _)
    | false => rw [List.map_append,walkAny_arms respond rest after]
end

variable {own : Arm φ → Bool} {respond : Arm φ → σ → Bool × σ}

-- A turn taken by the answers of another.
def turnStep (respond : Arm φ → σ → Bool × σ) (s : σ) (turn : Turn φ) : σ := if turn.visit.isSome then (respond turn.arm s).2 else s

def Agrees (respond : Arm φ → σ → Bool × σ) (s : σ) (turn : Turn φ) : Prop := ∀ fired,turn.visit = some fired → (respond turn.arm s).1 = fired

theorem run_unreached (terms : List (WatchCondition ν φ)) (s : σ) : run (turnStep respond) s (unreached terms) = s := by
  unfold unreached
  induction armsOf terms with
  | nil => rfl
  | cons arm rest ih => exact ih

theorem unreached_none {terms : List (WatchCondition ν φ)} {turn : Turn φ} (left : turn ∈ unreached terms) : turn.visit ≠ some fired := by
  obtain ⟨arm,_,here⟩ := List.mem_map.mp left
  cases here
  exact fun visited => (by cases visited)

-- A tree whose arms answer for themselves.
def byThemselves (own : Arm φ → Bool) (arm : Arm φ) (_ : Unit) : Bool × Unit := (own arm,())

-- Who answers each turn as the arms themselves do takes the same way through the tree.
mutual
theorem walk_follows (c : WatchCondition ν φ) (s : σ) {turns : List (Turn φ)} {holds : Bool}
    (walked : walk values h (byThemselves own) c () = (holds,(),turns)) (agrees : Guarded (turnStep respond) (Agrees respond) s turns) :
    walk values h respond c s = (holds,run (turnStep respond) s turns,turns) := by
  cases c with
  | happeningMatch filter =>
    cases walked
    rfl
  | subjectState canonicalId predicate minimumDurationMs =>
    rw [walk] at walked ⊢
    cases found : armOf canonicalId predicate with
    | some arm =>
      rw [found] at walked
      cases walked
      simp only [agrees.1 (own arm) rfl]
      rfl
    | none =>
      rw [found] at walked
      cases walked
      rfl
  | composite op terms =>
    cases op with
    | all => exact walkAll_follows terms s walked agrees
    | any => exact walkAny_follows terms s walked agrees
    | not =>
      cases terms with
      | nil =>
        cases walked
        rfl
      | cons only rest =>
        rw [walk,walkNot] at walked ⊢
        obtain ⟨⟨holds,after,early⟩,walked_⟩ : ∃ result,walk values h (byThemselves own) only () = result := ⟨_,rfl⟩
        rw [walked_] at walked
        cases walked
        rw [walk_follows only s walked_ (guarded_append.mp agrees).1,run_append,run_unreached]

theorem walkAll_follows (terms : List (WatchCondition ν φ)) (s : σ) {turns : List (Turn φ)} {holds : Bool}
    (walked : walkAll values h (byThemselves own) terms () = (holds,(),turns)) (agrees : Guarded (turnStep respond) (Agrees respond) s turns) :
    walkAll values h respond terms s = (holds,run (turnStep respond) s turns,turns) := by
  cases terms with
  | nil =>
    cases walked
    rfl
  | cons term rest =>
    rw [walkAll] at walked ⊢
    obtain ⟨⟨first,after,early⟩,walked_⟩ : ∃ result,walk values h (byThemselves own) term () = result := ⟨_,rfl⟩
    rw [walked_] at walked
    cases first with
    | false =>
      cases walked
      rw [walk_follows term s walked_ (guarded_append.mp agrees).1,run_append,run_unreached]
    | true =>
      obtain ⟨⟨later,end_,more⟩,continued⟩ : ∃ result,walkAll values h (byThemselves own) rest () = result := ⟨_,rfl⟩
      simp only [continued] at walked
      cases walked
      obtain ⟨here,there⟩ := guarded_append.mp agrees
      simp only [walk_follows term s walked_ here,walkAll_follows rest _ continued there,run_append]

theorem walkAny_follows (terms : List (WatchCondition ν φ)) (s : σ) {turns : List (Turn φ)} {holds : Bool}
    (walked : walkAny values h (byThemselves own) terms () = (holds,(),turns)) (agrees : Guarded (turnStep respond) (Agrees respond) s turns) :
    walkAny values h respond terms s = (holds,run (turnStep respond) s turns,turns) := by
  cases terms with
  | nil =>
    cases walked
    rfl
  | cons term rest =>
    rw [walkAny] at walked ⊢
    obtain ⟨⟨first,after,early⟩,walked_⟩ : ∃ result,walk values h (byThemselves own) term () = result := ⟨_,rfl⟩
    rw [walked_] at walked
    cases first with
    | true =>
      cases walked
      rw [walk_follows term s walked_ (guarded_append.mp agrees).1,run_append,run_unreached]
    | false =>
      obtain ⟨⟨later,end_,more⟩,continued⟩ : ∃ result,walkAny values h (byThemselves own) rest () = result := ⟨_,rfl⟩
      simp only [continued] at walked
      cases walked
      obtain ⟨here,there⟩ := guarded_append.mp agrees
      simp only [walk_follows term s walked_ here,walkAny_follows rest _ continued there,run_append]
end

mutual
theorem walk_own (c : WatchCondition ν φ) (s : Unit) (turn : Turn φ) (taken : turn ∈ (walk values h (byThemselves own) c s).2.2)
    (visited : turn.visit = some fired) : fired = own turn.arm := by
  cases c with
  | happeningMatch filter => cases taken
  | subjectState canonicalId predicate minimumDurationMs =>
    rw [walk] at taken
    cases found : armOf canonicalId predicate with
    | some arm =>
      rw [found] at taken
      cases List.mem_singleton.mp taken
      exact (Option.some.inj visited).symm
    | none =>
      rw [found] at taken
      cases taken
  | composite op terms =>
    cases op with
    | all => exact walkAll_own terms s turn taken visited
    | any => exact walkAny_own terms s turn taken visited
    | not =>
      cases terms with
      | nil => cases taken
      | cons only rest =>
        obtain here | there := List.mem_append.mp taken
        · exact walk_own only s turn here visited
        · exact absurd visited (unreached_none there)

theorem walkAll_own (terms : List (WatchCondition ν φ)) (s : Unit) (turn : Turn φ)
    (taken : turn ∈ (walkAll values h (byThemselves own) terms s).2.2) (visited : turn.visit = some fired) : fired = own turn.arm := by
  cases terms with
  | nil => cases taken
  | cons term rest =>
    have early (taken : turn ∈ (walk values h (byThemselves own) term s).2.2) : fired = own turn.arm :=
      walk_own term s turn taken visited
    rw [walkAll] at taken
    obtain ⟨⟨first,after,turns⟩,walked⟩ : ∃ result,walk values h (byThemselves own) term s = result := ⟨_,rfl⟩
    rw [walked] at taken early
    cases first with
    | false =>
      obtain here | there := List.mem_append.mp taken
      · exact early here
      · exact absurd visited (unreached_none there)
    | true =>
      obtain here | there := List.mem_append.mp taken
      · exact early here
      · exact walkAll_own rest after turn there visited

theorem walkAny_own (terms : List (WatchCondition ν φ)) (s : Unit) (turn : Turn φ)
    (taken : turn ∈ (walkAny values h (byThemselves own) terms s).2.2) (visited : turn.visit = some fired) : fired = own turn.arm := by
  cases terms with
  | nil => cases taken
  | cons term rest =>
    have early (taken : turn ∈ (walk values h (byThemselves own) term s).2.2) : fired = own turn.arm :=
      walk_own term s turn taken visited
    rw [walkAny] at taken
    obtain ⟨⟨first,after,turns⟩,walked⟩ : ∃ result,walk values h (byThemselves own) term s = result := ⟨_,rfl⟩
    rw [walked] at taken early
    cases first with
    | true =>
      obtain here | there := List.mem_append.mp taken
      · exact early here
      · exact absurd visited (unreached_none there)
    | false =>
      obtain here | there := List.mem_append.mp taken
      · exact early here
      · exact walkAny_own rest after turn there visited
end

end

section
variable {ν φ : Type} (values : Values ν φ) (c : WatchCondition ν φ)

def Arm.trigger (arm : Arm φ) : Trigger φ := ⟨values.lt arm.upper,fun v => values.lt v arm.lower⟩

-- What a happening says of the arm's own field of its own subject.
def Arm.value (arm : Arm φ) : Happening ν → Option φ
  | .subjectStateChanged _ canonicalId newState => if canonicalId ≠ arm.canonicalId then none else fieldF64 values newState arm.field
  | _ => none

-- The arm as a trigger of its own. A history is newest first.
def Arm.past (arm : Arm φ) (history : List (Happening ν)) : List φ := history.filterMap (arm.value values)

def Arm.high (arm : Arm φ) (history : List (Happening ν)) : Bool := (arm.trigger values).high (arm.past values history)

def Arm.rises (arm : Arm φ) (history : List (Happening ν)) (h : Happening ν) : Bool :=
  (arm.value values h).any ((arm.trigger values).rises (arm.past values history))

def Arm.isBelow (arm : Arm φ) (h : Happening ν) : Bool := (arm.value values h).any (arm.trigger values).below

-- The evaluations of one tree, from the fresh latches on; no code reads the history.
structure Evaluations (ν : Type) where
  latches : Table String Bool
  history : List (Happening ν)

def Evaluations.start : Evaluations ν := ⟨∅,[]⟩

def Evaluations.step (s : Evaluations ν) (h : Happening ν) : Evaluations ν :=
  ⟨(evaluateConditionAgainstEvent values c h s.latches).2,h::s.history⟩

-- Each arm answers yes where it rises as a trigger of its own, and nowhere else.
def Independent (s : Evaluations ν) (h : Happening ν) : Prop :=
  ∀ turn ∈ (walk values h (Arm.answer values h) c s.latches).2.2,turn.visit = some true ↔ turn.arm.rises values s.history h = true

-- The turns that the arms have where each answers for itself.
def ownTurns (history : List (Happening ν)) (h : Happening ν) : List (Turn φ) :=
  (walk values h (byThemselves fun arm => arm.rises values history h) c ()).2.2

def marks (history : List (Happening ν)) (turns : List (Turn φ)) : List (String × Bool) :=
  turns.map fun turn => (turn.arm.canonicalId,turn.arm.high values history)

-- An arm's turn in an evaluation, the arms before it moved already, those after it not. No other arm of its
-- subject is high then where it rises or finds its value low; and the value that moves it is one that it gets to see.
structure Apart (history : List (Happening ν)) (h : Happening ν) (before : List (Turn φ)) (turn : Turn φ) (after : List (Turn φ)) : Prop where
  rising : turn.arm.rises values history h = true → turn.visit.isSome = true ∧ turn.arm.isBelow values h = false ∧
    (turn.arm.canonicalId,true) ∉ marks values (h::history) before++marks values history after
  falling : turn.arm.isBelow values h = true → turn.arm.high values history = true → turn.visit.isSome = true
  low : turn.arm.isBelow values h = true → turn.arm.high values history = false → turn.visit.isSome = true →
    (turn.arm.canonicalId,true) ∉ marks values (h::history) before++marks values history after

def KeptApart (s : Evaluations ν) (h : Happening ν) : Prop :=
  ∀ before turn after,ownTurns values c s.history h = before++turn::after → Apart values s.history h before turn after

def latchOf (latches : Table String Bool) (canonicalId : String) : Bool := (get latches canonicalId).getD false

end

section
variable {ν φ : Type} {values : Values ν φ} {c : WatchCondition ν φ} {h : Happening ν} {arm : Arm φ} {history : List (Happening ν)}
  {latches : Table String Bool}

theorem high_silent (silent : arm.value values h = none) : arm.high values (h::history) = arm.high values history := by
  rw [Arm.high,Arm.high,Arm.past,List.filterMap_cons_none silent,Arm.past]

theorem high_valued (valued : arm.value values h = some v) : arm.high values (h::history) =
    (!(arm.trigger values).below v && ((arm.trigger values).above v || arm.high values history)) := by
  rw [Arm.high,Arm.past,List.filterMap_cons_some valued,Trigger.high_cons]
  rfl

theorem answer_silent (silent : arm.value values h = none) :
    (arm.answer values h latches).1 = false ∧ latchOf (arm.answer values h latches).2 = latchOf latches := by
  cases h with
  | subjectStateChanged plugin canonicalId newState =>
    unfold Arm.answer evaluateSubjectStateArm
    unfold Arm.value at silent
    simp only at silent ⊢
    split
    · exact ⟨rfl,rfl⟩
    · rename_i same
      rw [if_neg same] at silent
      cases not_not.mp same
      simp only [applyStatePredicate,silent]
      refine ⟨trivial,funext fun key => ?_⟩
      rw [latchOf,get_insert,latchOf]
      split
      · rename_i asked
        rw [asked]
        rfl
      · rfl
  | own kind => exact ⟨rfl,rfl⟩
  | other kind plugin shelf => exact ⟨rfl,rfl⟩

theorem answer_valued (valued : arm.value values h = some v) :
    (arm.answer values h latches).1 = ((arm.trigger values).above v && !latchOf latches arm.canonicalId) ∧
    latchOf (arm.answer values h latches).2 arm.canonicalId =
      (if (arm.trigger values).above v && !latchOf latches arm.canonicalId then true
        else if (arm.trigger values).below v then false else latchOf latches arm.canonicalId) ∧
    ∀ other,other ≠ arm.canonicalId → latchOf (arm.answer values h latches).2 other = latchOf latches other := by
  cases h with
  | subjectStateChanged plugin canonicalId newState =>
    unfold Arm.value at valued
    simp only at valued
    split at valued
    · cases valued
    · rename_i same
      cases not_not.mp same
      have answered : arm.answer values (.subjectStateChanged plugin arm.canonicalId newState) latches =
          if (arm.trigger values).above v && !latchOf latches arm.canonicalId then
            (true,(latches.insert arm.canonicalId (latchOf latches arm.canonicalId)).insert arm.canonicalId true)
          else if (arm.trigger values).below v then
            (false,(latches.insert arm.canonicalId (latchOf latches arm.canonicalId)).insert arm.canonicalId false)
          else (false,latches.insert arm.canonicalId (latchOf latches arm.canonicalId)) := by
        rw [Arm.answer,evaluateSubjectStateArm,if_neg same,applyStatePredicate]
        simp only [valued]
        rfl
      rw [answered]
      split
      · refine ⟨by simp only [*],by simp [latchOf],fun other apart => by simp [latchOf,apart]⟩
      · rename_i stays
        rw [Bool.not_eq_true] at stays
        split
        · exact ⟨stays.symm,by simp [latchOf],fun other apart => by simp [latchOf,apart]⟩
        · exact ⟨stays.symm,by simp [latchOf],fun other apart => by simp [latchOf,apart]⟩
  | own kind => cases valued
  | other kind plugin shelf => cases valued

theorem rises_valued (valued : arm.value values h = some v) :
    arm.rises values history h = ((arm.trigger values).above v && !arm.high values history) := by
  rw [Arm.rises,valued]
  rfl

theorem isBelow_valued (valued : arm.value values h = some v) : arm.isBelow values h = (arm.trigger values).below v := by
  rw [Arm.isBelow,valued]
  rfl

theorem passed_high {before after : List (Turn φ)} (apart : Apart values history h before ⟨arm,none⟩ after) :
    arm.high values (h::history) = arm.high values history := by
  cases told : arm.value values h with
  | none => exact high_silent told
  | some v =>
    obtain ⟨rising,falling,_⟩ := apart
    simp only [rises_valued told,isBelow_valued told,Option.isSome_none,Bool.false_eq_true,false_and,imp_false] at rising falling
    rw [high_valued told]
    cases above : (arm.trigger values).above v <;> cases below : (arm.trigger values).below v <;> cases high : arm.high values history <;>
      simp [above,below,high] at rising falling ⊢

theorem taken_alone {before after : List (String × Bool)} (valued : arm.value values h = some v)
    (crossing : arm.rises values history h = true → (arm.trigger values).below v = false)
    (alone : (arm.canonicalId,true) ∉ before++after) (shared : Shared (latchOf latches) (before++(arm.canonicalId,arm.high values history)::after)) :
    (arm.answer values h latches).1 = arm.rises values history h ∧
      Shared (latchOf (arm.answer values h latches).2) (before++(arm.canonicalId,arm.high values (h::history))::after) := by
  obtain ⟨answered,moved,others⟩ := @answer_valued _ _ _ _ _ latches _ valued
  have was := shared_alone shared alone
  rw [rises_valued valued] at crossing ⊢
  refine ⟨by rw [answered,was],shared_moved shared alone ?_ others⟩
  rw [moved,was,high_valued valued]
  cases above : (arm.trigger values).above v <;> cases below : (arm.trigger values).below v <;> cases high : arm.high values history <;>
    simp [above,below,high] at crossing ⊢

theorem taken_between (valued : arm.value values h = some v) (above : (arm.trigger values).above v = false)
    (below : (arm.trigger values).below v = false) :
    (arm.answer values h latches).1 = arm.rises values history h ∧ latchOf (arm.answer values h latches).2 = latchOf latches ∧
      arm.high values (h::history) = arm.high values history := by
  obtain ⟨answered,moved,others⟩ := @answer_valued _ _ _ _ _ latches _ valued
  rw [above,Bool.false_and] at answered moved
  rw [below,if_neg Bool.false_ne_true,if_neg Bool.false_ne_true] at moved
  refine ⟨by rw [answered,rises_valued valued,above,Bool.false_and],funext fun key => ?_,by rw [high_valued valued,above,below]; simp⟩
  by_cases same : key = arm.canonicalId
  · rw [same,moved]
  · exact others key same

-- One turn: the answer is the arm's own, and the latch goes on standing for the arms that are high.
theorem turn_apart {before after : List (Turn φ)} {turn : Turn φ} (apart : Apart values history h before turn after)
    (own : ∀ fired,turn.visit = some fired → fired = turn.arm.rises values history h)
    (shared : Shared (latchOf latches) (marks values (h::history) before++
      (turn.arm.canonicalId,turn.arm.high values history)::marks values history after)) :
    Agrees (Arm.answer values h) latches turn ∧
      Shared (latchOf (turnStep (Arm.answer values h) latches turn)) (marks values (h::history) before++
        (turn.arm.canonicalId,turn.arm.high values (h::history))::marks values history after) := by
  obtain ⟨arm,visit⟩ := turn
  cases visit with
  | none =>
    refine ⟨fun fired visited => (by cases visited),?_⟩
    rw [passed_high apart]
    exact shared
  | some fired =>
    -- the answer of the source to an arm that is reached
    suffices (arm.answer values h latches).1 = arm.rises values history h ∧ Shared (latchOf (arm.answer values h latches).2)
        (marks values (h::history) before++(arm.canonicalId,arm.high values (h::history))::marks values history after) by
      refine ⟨fun visited_ same => ?_,this.2⟩
      rw [this.1,own visited_ same]
    cases told : arm.value values h with
    | none =>
      obtain ⟨quiet,latched⟩ := @answer_silent _ _ _ _ _ latches told
      rw [quiet,latched,high_silent told,Arm.rises,told]
      exact ⟨rfl,shared⟩
    | some v =>
      obtain ⟨rising,falling,low⟩ := apart
      simp only [isBelow_valued told] at rising falling low
      have crossing (rose : arm.rises values history h = true) := (rising rose).2.1
      cases high : arm.high values history with
      | true =>
        have shared_ := shared
        rw [high] at shared_
        exact taken_alone told crossing (shared_high shared_).2 shared
      | false =>
        cases above : (arm.trigger values).above v with
        | true =>
          have rose : arm.rises values history h = true := by rw [rises_valued told,above,high]; rfl
          exact taken_alone told crossing (rising rose).2.2 shared
        | false =>
          cases below : (arm.trigger values).below v with
          | true => exact taken_alone told crossing (low below high rfl) shared
          | false =>
            obtain ⟨answered,latched,kept⟩ := @taken_between _ _ _ _ _ history latches _ told above below
            rw [latched,kept]
            exact ⟨answered,shared⟩

theorem turns_apart (before rest : List (Turn φ)) (apart : ∀ early turn after,rest = early++turn::after → Apart values history h (before++early) turn after)
    (own : ∀ turn ∈ rest,∀ fired,turn.visit = some fired → fired = turn.arm.rises values history h)
    (shared : Shared (latchOf latches) (marks values (h::history) before++marks values history rest)) :
    Guarded (turnStep (Arm.answer values h)) (Agrees (Arm.answer values h)) latches rest ∧
      Shared (latchOf (run (turnStep (Arm.answer values h)) latches rest)) (marks values (h::history) (before++rest)) := by
  induction rest generalizing before latches with
  | nil => exact ⟨trivial,by simpa [marks] using shared⟩
  | cons turn rest ih =>
    have here := apart [] turn rest rfl
    rw [List.append_nil] at here
    obtain ⟨agrees,moved⟩ := turn_apart here (own turn List.mem_cons_self) shared
    have moved_ : Shared (latchOf (turnStep (Arm.answer values h) latches turn))
        (marks values (h::history) (before++[turn])++marks values history rest) := by simpa [marks] using moved
    have onward := ih (before++[turn]) ?_ (fun later there => own later (List.mem_cons_of_mem _ there)) moved_
    · rw [List.append_assoc] at onward
      exact ⟨⟨agrees,onward.1⟩,onward.2⟩
    · intro early later after split_
      rw [List.append_assoc]
      exact apart (turn::early) later after (by rw [split_]; rfl)

theorem marks_arms {turns : List (Turn φ)} (all : turns.map Turn.arm = arms c) :
    marks values history turns = (arms c).map fun arm => (arm.canonicalId,arm.high values history) := by
  rw [←all,List.map_map]
  rfl

-- A latch stands for the arms of its subject in every state of the run.
def Standing (values : Values ν φ) (c : WatchCondition ν φ) (s : Evaluations ν) : Prop :=
  Shared (latchOf s.latches) ((arms c).map fun arm => (arm.canonicalId,arm.high values s.history))

theorem event_apart {s : Evaluations ν} (standing : Standing values c s) (apart : KeptApart values c s h) :
    Independent values c s h ∧ Standing values c (s.step values c h) := by
  obtain ⟨⟨holds,done,turns⟩,walked⟩ :
    ∃ result,walk values h (byThemselves fun arm => arm.rises values s.history h) c () = result := ⟨_,rfl⟩
  have owned : ownTurns values c s.history h = turns := by rw [ownTurns,walked]
  have all : turns.map Turn.arm = arms c := by rw [←owned]; exact walk_arms _ c ()
  have own (turn : Turn φ) (there : turn ∈ turns) (fired : Bool) (visited : turn.visit = some fired) :
      fired = turn.arm.rises values s.history h := @walk_own _ _ _ _ (fun arm => arm.rises values s.history h) _ c () turn (by rw [walked]; exact there) visited
  rw [Standing,←marks_arms all] at standing
  obtain ⟨agrees,after⟩ := turns_apart [] turns (fun early turn late split_ => apart early turn late (owned.trans split_)) own standing
  have followed := walk_follows c s.latches walked agrees
  refine ⟨fun turn there => ?_,?_⟩
  · rw [followed] at there
    constructor
    · exact fun visited => (own turn there true visited).symm
    · intro rises
      obtain ⟨before,late,split_⟩ := List.mem_iff_append.mp there
      obtain ⟨fired,visited⟩ := Option.isSome_iff_exists.mp ((apart before turn late (owned.trans split_)).rising rises).1
      rw [visited,own turn there fired visited,rises]
  · have latched : (s.step values c h).latches = run (turnStep (Arm.answer values h)) s.latches turns := by
      rw [Evaluations.step,walk_evaluates,followed]
    rw [Standing,latched,←marks_arms all]
    exact after

-- Arms are triggers of their own in every run that keeps them apart, whatever the tree.
theorem arms_independent (values : Values ν φ) (c : WatchCondition ν φ) (events : List (Happening ν))
    (apart : Guarded (Evaluations.step values c) (KeptApart values c) .start events) :
    Guarded (Evaluations.step values c) (Independent values c) .start events := by
  apply @guarded_carries _ _ _ (Standing values c) _ _ _ _ ?_ ?_ ?_ apart
  · exact fun s h standing kept => (event_apart standing kept).2
  · exact fun s h standing kept => (event_apart standing kept).1
  · intro key
    refine (List.count_eq_zero.mpr ?_).trans rfl
    intro there
    obtain ⟨arm,_,marked⟩ := List.mem_map.mp there
    cases congrArg Prod.snd marked

end

-- Hysteresis arms on the temperature of a subject.
def swing (canonicalId : String) (upper lower : Int) : WatchCondition Reading Int :=
  .subjectState canonicalId (.hysteresis "temp" upper lower) none

def cpuAt (n : Int) : Happening Reading := ((temp n 0).seen "cpu").1
def gpuAt (n : Int) : Happening Reading := ((temp n 0).seen "gpu").1

def cpuArm : Arm Int := ⟨"cpu","temp",80,60⟩
def gpuArm : Arm Int := ⟨"gpu","temp",70,50⟩
def swings : WatchCondition Reading Int := .composite .any [swing "cpu" 80 60,swing "gpu" 70 50]

theorem one_valued (h : Happening Reading) : cpuArm.value readings h = none ∨ gpuArm.value readings h = none := by
  cases h with
  | subjectStateChanged _ canonicalId newState =>
    by_cases cpu : canonicalId = "cpu"
    · exact .inr (if_pos (by rw [cpu]; decide))
    · exact .inl (if_pos cpu)
  | _ => exact .inl rfl

theorem unvalued_apart {arm : Arm Int} (unvalued : arm.value readings h = none) : Apart readings history h before ⟨arm,visit⟩ after := by
  have still : arm.isBelow readings h = false := by rw [Arm.isBelow,unvalued]; rfl
  refine ⟨fun rose => ?_,fun below => ?_,fun below => ?_⟩
  · rw [Arm.rises,unvalued] at rose
    cases rose
  · cases still.symm.trans below
  · cases still.symm.trans below

theorem visited_apart {arm : Arm Int} (wide : arm.lower ≤ arm.upper)
    (other : ∀ turn ∈ before++after,turn.arm.canonicalId ≠ arm.canonicalId) : Apart readings history h before ⟨arm,some fired⟩ after := by
  have unmarked : (arm.canonicalId,true) ∉ marks readings (h::history) before++marks readings history after := by
    intro marked
    rw [marks,marks,List.mem_append,List.mem_map,List.mem_map] at marked
    obtain ⟨turn,there,same⟩ | ⟨turn,there,same⟩ := marked
    · exact other turn (List.mem_append_left _ there) (congrArg Prod.fst same)
    · exact other turn (List.mem_append_right _ there) (congrArg Prod.fst same)
  refine ⟨fun rose => ⟨rfl,?_,unmarked⟩,fun _ _ => rfl,fun _ _ _ => unmarked⟩
  cases told : arm.value readings h with
  | none => rw [Arm.isBelow,told]; rfl
  | some v =>
    rw [rises_valued told,Bool.and_eq_true] at rose
    have above : arm.upper < v := of_decide_eq_true rose.1
    rw [isBelow_valued told]
    exact decide_eq_false (show ¬ v < arm.lower by omega)

theorem swing_turn {history : List (Happening Reading)} (arm : Arm Int) (rose : arm.rises readings history h = fired) :
    walk readings h (byThemselves fun arm => arm.rises readings history h)
      (.subjectState arm.canonicalId (.hysteresis arm.field arm.upper arm.lower) none) () = (fired,(),[⟨arm,some fired⟩]) := by
  rw [←rose]
  rfl

theorem pair_turns {x y : Turn Int} (split_ : [x,y] = before++turn::after) :
    (before = [] ∧ turn = x ∧ after = [y]) ∨ (before = [x] ∧ turn = y ∧ after = []) := by
  rcases before with _ | ⟨first,_ | ⟨second,rest⟩⟩
  · cases split_
    exact .inl ⟨rfl,rfl,rfl⟩
  · cases split_
    exact .inr ⟨rfl,rfl,rfl⟩
  · simp at split_

theorem swings_apart (s : Evaluations Reading) (h : Happening Reading) : KeptApart readings swings s h := by
  intro before turn after split_
  cases rose : cpuArm.rises readings s.history h with
  | false =>
    have turns : ownTurns readings swings s.history h = [⟨cpuArm,some false⟩,⟨gpuArm,some (gpuArm.rises readings s.history h)⟩] := by
      have first : walk readings h _ (swing "cpu" 80 60) () = _ := @swing_turn _ _ s.history cpuArm rose
      have second : walk readings h _ (swing "gpu" 70 50) () = _ := @swing_turn _ _ s.history gpuArm rfl
      simp only [ownTurns,swings,walk,walkAny,first,second]
      cases gpuArm.rises readings s.history h <;> rfl
    rcases pair_turns (turns.symm.trans split_) with ⟨rfl,rfl,rfl⟩ | ⟨rfl,rfl,rfl⟩
    · exact visited_apart (by decide) (by simp [cpuArm,gpuArm])
    · exact visited_apart (by decide) (by simp [cpuArm,gpuArm])
  | true =>
    have turns : ownTurns readings swings s.history h = [⟨cpuArm,some true⟩,⟨gpuArm,none⟩] := by
      have first : walk readings h _ (swing "cpu" 80 60) () = _ := @swing_turn _ _ s.history cpuArm rose
      rw [ownTurns,swings,walk,walkAny,first]
      rfl
    rcases pair_turns (turns.symm.trans split_) with ⟨rfl,rfl,rfl⟩ | ⟨rfl,rfl,rfl⟩
    · exact visited_apart (by decide) (by simp [cpuArm,gpuArm])
    · refine unvalued_apart ((one_valued h).resolve_left fun unvalued => ?_)
      rw [Arm.rises,unvalued] at rose
      cases rose

-- Up on one subject, up on the other, down and up again on both.
theorem swing_independent :
    Guarded (Evaluations.step readings swings) (Independent readings swings) .start
      [cpuAt 85,gpuAt 75,cpuAt 90,gpuAt 40,cpuAt 50,gpuAt 75,cpuAt 85] :=
  arms_independent readings swings _ ⟨swings_apart _ _,swings_apart _ _,swings_apart _ _,swings_apart _ _,swings_apart _ _,swings_apart _ _,
    swings_apart _ _,trivial⟩

-- An arm that finds the latch set by another of its subject stays silent, and so does one that a term before it hides.
theorem second_arm_silent :
    ¬ Independent readings (.composite .all [swing "cpu" 80 60,swing "cpu" 70 50]) .start (cpuAt 85) ∧
    ¬ Independent readings (.composite .all [.subjectState "gpu" above80 none,swing "cpu" 80 60]) .start (cpuAt 85) := by
  constructor
  · intro independent
    have silent := (independent ⟨⟨"cpu","temp",70,50⟩,some false⟩ (by decide)).mpr (by decide)
    cases silent
  · intro independent
    have silent := (independent ⟨⟨"cpu","temp",80,60⟩,none⟩ (by decide)).mpr (by decide)
    cases silent

end EvoCore.Watches
