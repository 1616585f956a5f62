import EvoCore.Reconciliation

namespace EvoCore.Reconciliation
open Runs

variable {β ν ε : Type}

inductive Issue where
  | apply
  | rollback
  | boot
  deriving DecidableEq,Repr

structure Correction (β : Type) where
  issue : Issue
  payload : β
  taken : Bool
  deriving DecidableEq,Repr

-- One pair over the lives of the steward: its runtime if it was booted, the cycle under way, all that
-- the warden was sent.
structure Steward (β ν ε : Type) where
  pair : Pair β ν ε
  active : Bool
  cycle : Stage β ν ε
  log : List (Correction β)

-- A trigger, an await of the cycle, and the steward coming up again wherever it stopped.
inductive LifeAction (β ε : Type) where
  | runComposeApply
  | advance (reply : Reply β ε)
  | restart (custody loaded : Bool) (reply : Reply β ε)

def corrections (json : SerdeJson β ν) (reply : Reply β ε) : Stage β ν ε → List (Correction β)
  | .composed _ _ payload => [⟨.apply,payload,taken reply⟩]
  | .rollingBack (some state) => [⟨.rollback,json.encode state,taken reply⟩]
  | _ => []

-- The row's text and back: to_string falls back to "null", from_str to Null.
def reloaded (json : SerdeJson β ν) (row : PersistedReconciliationState ν) : PersistedReconciliationState ν :=
  {row with appliedState := (json.toVec row.appliedState).elim json.null json.decode}

def rebooted (json : SerdeJson β ν) (steward : Steward β ν ε) (custody loaded : Bool) (reply : Reply β ε) : Steward β ν ε :=
  let lkg := if custody && loaded then steward.pair.row.map (reloaded json) else none
  let pair := {steward.pair with generation := (lkg.map (·.generation)).getD 0,lastApplied := lkg.map (·.appliedState)}
  match lkg with
  | none => ⟨pair,custody,.finished,steward.log⟩
  | some row =>
    let payload := json.encode row.appliedState
    ⟨courseCorrect pair reply payload,custody,.finished,steward.log ++ [⟨Issue.boot,payload,taken reply⟩]⟩

def lifeStep (json : SerdeJson β ν) (steward : Steward β ν ε) : LifeAction β ε → Steward β ν ε
  | .runComposeApply => if steward.active then {steward with cycle := .begun} else steward
  | .advance reply =>
    let next := cycleStep json steward.pair reply steward.cycle
    {steward with pair := next.1,cycle := next.2,log := steward.log ++ corrections json reply steward.cycle}
  | .restart custody loaded reply => rebooted json steward custody loaded reply

def unborn : Steward β ν ε := ⟨⟨0,none,none,none,[],[]⟩,false,.finished,[]⟩

def Correction.isGood (one : Correction β) : Bool := one.issue == .apply && one.taken

-- The payload of the last cycle whose apply the warden accepted.
def lastGood (log : List (Correction β)) : Option β := ((log.filter Correction.isGood).getLast?).map Correction.payload

def Equivalent (json : SerdeJson β ν) (a b : β) : Prop := a = b ∨ ∃ value,json.fromSlice a = some value ∧ json.fromSlice b = some value

-- All that was ever re-issued was the last-known-good of its time.
def Restores (json : SerdeJson β ν) (steward : Steward β ν ε) : Prop :=
  ∀ k one,steward.log[k]? = some one → one.issue ≠ .apply → ∃ good ∈ lastGood (steward.log.take k),Equivalent json good one.payload

def Stage.offered : Stage β ν ε → Option β
  | .composed _ _ payload => some payload
  | _ => none

-- Taken by the warden, and no row yet.
def Stage.unwritten : Stage β ν ε → Option β
  | .applied _ payload => some payload
  | _ => none

-- Cycles of the pair do not overlap.
def Alone (steward : Steward β ν ε) : LifeAction β ε → Prop
  | .runComposeApply => steward.cycle = .finished
  | _ => True

def Stored (steward : Steward β ν ε) : LifeAction β ε → Prop
  | .advance reply => steward.cycle.unwritten.isSome = true → reply.stored = true
  | _ => True

-- What the warden takes is JSON, and the steward does not stop between the warden's answer and the row.
def Whole (json : SerdeJson β ν) (steward : Steward β ν ε) : LifeAction β ε → Prop
  | .runComposeApply => True
  | .advance reply => ∀ payload ∈ steward.cycle.offered,taken reply = true → (json.fromSlice payload).isSome = true
  | .restart _ _ _ => steward.cycle.unwritten.isSome = false

section Reissuing

variable {json : SerdeJson β ν} {steward : Steward β ν ε} {reply : Reply β ε} {log : List (Correction β)} {one : Correction β}
  {good payload : β} {state value : ν} {custody loaded : Bool}

theorem lastGood_snoc : lastGood (log ++ [one]) = if one.isGood then some one.payload else lastGood log := by
  unfold lastGood
  rw [List.filter_append]
  split
  next good => simp [good]
  next other => simp [other]

theorem lastGood_again (issue : one.issue ≠ .apply) : lastGood (log ++ [one]) = lastGood log := by
  rw [lastGood_snoc,if_neg]
  simp [Correction.isGood,issue]

theorem restores_snoc {next : Steward β ν ε} (grown : next.log = steward.log ++ [one]) :
    Restores json next ↔ Restores json steward ∧ (one.issue ≠ .apply → ∃ good ∈ lastGood steward.log,Equivalent json good one.payload) := by
  unfold Restores
  rw [grown]
  constructor
  · intro held
    refine ⟨fun k other there again => ?_,fun again => ?_⟩
    · have bound := (List.getElem?_eq_some_iff.mp there).1
      have before := held k other (by rw [List.getElem?_append_left bound,there]) again
      rwa [List.take_append_of_le_length bound.le] at before
    · have last := held steward.log.length one (by simp) again
      rwa [List.take_append_of_le_length (Nat.le_refl _),List.take_length] at last
  · rintro ⟨held,last⟩ k other there again
    by_cases bound : k < steward.log.length
    · rw [List.getElem?_append_left bound] at there
      rw [List.take_append_of_le_length bound.le]
      exact held k other there again
    · rw [List.getElem?_append_right (by omega)] at there
      have here : k = steward.log.length := by
        have within := (List.getElem?_eq_some_iff.mp there).1
        simp only [List.length_singleton] at within
        omega
      subst here
      simp only [Nat.sub_self,List.getElem?_cons_zero,Option.some.injEq] at there
      subst there
      rw [List.take_append_of_le_length (Nat.le_refl _),List.take_length]
      exact last again

theorem restores_same {next : Steward β ν ε} (same : next.log = steward.log) : Restores json next ↔ Restores json steward := by
  rw [Restores,same]
  rfl

variable (trips : ∀ value,(json.toVec value).bind json.fromSlice = some value)
include trips

theorem reloaded_same (row : PersistedReconciliationState ν) : reloaded json row = row := by
  obtain ⟨text,printed,read⟩ := Option.bind_eq_some_iff.mp (trips row.appliedState)
  rw [reloaded,printed,Option.elim_some,SerdeJson.decode,read,Option.getD_some]

theorem encode_equivalent : Equivalent json good (json.encode value) ↔ json.fromSlice good = some value := by
  have read := encode_read trips value
  constructor
  · rintro (same | ⟨other,parsed,printed⟩)
    · rw [same,read]
    · rw [read] at printed
      rw [parsed,printed]
  · exact fun parsed => .inr ⟨value,parsed,read⟩

end Reissuing

section Lives

-- The value is what the last good payload parses to.
def Stands (json : SerdeJson β ν) (log : List (Correction β)) (value : ν) : Prop :=
  ∃ good ∈ lastGood log,json.fromSlice good = some value

-- What row, memory and the cycle under way hold of the last good payload.
def Holds (json : SerdeJson β ν) (pair : Pair β ν ε) (log : List (Correction β)) : Stage β ν ε → Prop
  | .applied _ payload => Stands json log (json.decode payload)
  | .persisted _ appliedState => (∀ row ∈ pair.row,Stands json log row.appliedState) ∧ Stands json log appliedState
  | .snapshotted _ prior | .composed _ prior _ | .refused _ prior _ | .rollingBack prior =>
    (∀ row ∈ pair.row,Stands json log row.appliedState) ∧ (∀ state ∈ pair.lastApplied,Stands json log state) ∧ prior = pair.lastApplied
  | _ => (∀ row ∈ pair.row,Stands json log row.appliedState) ∧ ∀ state ∈ pair.lastApplied,Stands json log state

structure Sound (json : SerdeJson β ν) (steward : Steward β ν ε) : Prop where
  restores : Restores json steward
  holds : Holds json steward.pair steward.log steward.cycle

variable {json : SerdeJson β ν} {steward : Steward β ν ε} {reply : Reply β ε} {log : List (Correction β)} {one : Correction β}
  {good payload : β} {state value : ν} {custody loaded : Bool} {action : LifeAction β ε}

theorem stands_again (issue : one.issue ≠ .apply) : Stands json (log ++ [one]) value ↔ Stands json log value := by
  rw [Stands,lastGood_again issue]
  rfl

theorem stands_refused (refused : one.taken = false) : Stands json (log ++ [one]) value ↔ Stands json log value := by
  rw [Stands,lastGood_snoc,if_neg]
  · rfl
  · simp [Correction.isGood,refused]

theorem stands_accepted (parses : (json.fromSlice payload).isSome = true) :
    Stands json (log ++ [⟨.apply,payload,true⟩]) (json.decode payload) := by
  obtain ⟨value,parsed⟩ := Option.isSome_iff_exists.mp parses
  exact ⟨payload,lastGood_snoc.trans (if_pos rfl),by rw [SerdeJson.decode,parsed,Option.getD_some]⟩

variable (trips : ∀ value,(json.toVec value).bind json.fromSlice = some value)
include trips

theorem reissue_restores {next : Steward β ν ε} (restores : Restores json steward) (stands : Stands json steward.log value) {issue : Issue}
    (grown : next.log = steward.log ++ [⟨issue,json.encode value,taken reply⟩]) : Restores json next := by
  obtain ⟨good,last,parsed⟩ := stands
  exact (restores_snoc grown).mpr ⟨restores,fun _ => ⟨good,last,(encode_equivalent trips).mpr parsed⟩⟩

theorem restart_sound (sound : Sound json steward) (whole : Whole json steward (.restart custody loaded reply)) :
    Sound json (rebooted json steward custody loaded reply) := by
  have rows : ∀ row ∈ steward.pair.row,Stands json steward.log row.appliedState := by
    have held := sound.holds
    cases stage : steward.cycle with
    | applied gen payload =>
      have written : steward.cycle.unwritten.isSome = false := whole
      rw [stage] at written
      cases written
    | _ =>
      rw [stage] at held
      exact held.1
  have same : steward.pair.row.map (reloaded json) = steward.pair.row := by
    cases steward.pair.row with
    | none => rfl
    | some row => rw [Option.map_some,reloaded_same trips]
  unfold rebooted
  rw [same]
  dsimp only
  cases found : (if custody && loaded then steward.pair.row else none) with
  | none =>
    refine ⟨(restores_same rfl).mpr sound.restores,rows,?_⟩
    intro state absent
    cases absent
  | some row =>
    have there : steward.pair.row = some row := by
      split at found
      · exact found
      · cases found
    have stands := rows row there
    have rebootRow : (courseCorrect {steward.pair with generation := row.generation,lastApplied := some row.appliedState} reply
        (json.encode row.appliedState)).row = steward.pair.row := by
      unfold courseCorrect
      split <;> rfl
    have rebootState : (courseCorrect {steward.pair with generation := row.generation,lastApplied := some row.appliedState} reply
        (json.encode row.appliedState)).lastApplied = some row.appliedState := by
      unfold courseCorrect
      split <;> rfl
    refine ⟨reissue_restores trips sound.restores stands rfl,?_,?_⟩
    · intro other member
      dsimp only [Option.map_some,Option.getD_some] at member
      rw [rebootRow] at member
      exact (stands_again Issue.noConfusion).mpr (rows other member)
    · intro state member
      dsimp only [Option.map_some,Option.getD_some] at member
      rw [rebootState] at member
      cases member
      exact (stands_again Issue.noConfusion).mpr stands

omit trips in
theorem quiet_sound {next : Pair β ν ε} {after : Stage β ν ε} (sound : Sound json steward) (quiet : corrections json reply steward.cycle = [])
    (holds : Holds json next steward.log after) :
    Sound json {steward with pair := next,cycle := after,log := steward.log ++ corrections json reply steward.cycle} := by
  rw [quiet,List.append_nil]
  exact ⟨(restores_same rfl).mpr sound.restores,holds⟩

omit trips in
theorem emit_holds {happening : Happening ν ε} {stage : Stage β ν ε} (held : Holds json steward.pair log stage) :
    Holds json (emit steward.pair reply happening) log stage := by
  obtain ⟨_,lastApplied,row,_⟩ := emit_core steward.pair reply happening
  cases stage <;> simpa only [Holds,lastApplied,row] using held

omit trips in
theorem apply_sound {gen : Nat} {prior : Option ν} (sound : Sound json steward) (composed : steward.cycle = .composed gen prior payload)
    (whole : Whole json steward (.advance reply)) : Sound json (lifeStep json steward (.advance reply)) := by
  have held := sound.holds
  rw [composed] at held
  obtain ⟨rows,memory,snapshot⟩ := held
  have grown : corrections json reply (.composed gen prior payload) = [⟨Issue.apply,payload,taken reply⟩] := rfl
  have restores : ∀ next : Steward β ν ε,next.log = steward.log ++ [⟨Issue.apply,payload,taken reply⟩] → Restores json next :=
    fun next same => (restores_snoc same).mpr ⟨sound.restores,fun again => absurd rfl again⟩
  simp only [lifeStep,composed,grown]
  cases answer : reply.courseCorrect with
  | ok _ =>
    have accepted : taken reply = true := by
      rw [taken,answer]
      rfl
    simp only [cycleStep,answer,accepted]
    exact ⟨restores _ (by rw [accepted]),stands_accepted (whole payload (by rw [composed]; rfl) accepted)⟩
  | error e =>
    have refused : taken reply = false := by
      rw [taken,answer]
      rfl
    simp only [cycleStep,courseCorrect,answer,refused]
    refine ⟨restores _ (by rw [refused]),fun row member => ?_,fun state member => ?_,snapshot⟩
    · exact (stands_refused rfl).mpr (rows row member)
    · exact (stands_refused rfl).mpr (memory state member)

theorem rollback_sound {prior : Option ν} (sound : Sound json steward) (rolling : steward.cycle = .rollingBack prior) :
    Sound json (lifeStep json steward (.advance reply)) := by
  have held := sound.holds
  rw [rolling] at held
  obtain ⟨rows,memory,snapshot⟩ := held
  cases prior with
  | none =>
    have next : lifeStep json steward (.advance reply) =
        {steward with pair := steward.pair,cycle := .finished,log := steward.log ++ corrections json reply steward.cycle} := by
      simp only [lifeStep,rolling,cycleStep]
    rw [next]
    exact quiet_sound sound (by rw [rolling]; rfl) ⟨rows,memory⟩
  | some state =>
    have grown : corrections json reply (.rollingBack (some state)) = [⟨Issue.rollback,json.encode state,taken reply⟩] := rfl
    have kept : (courseCorrect steward.pair reply (json.encode state)).row = steward.pair.row ∧
        (courseCorrect steward.pair reply (json.encode state)).lastApplied = steward.pair.lastApplied := by
      unfold courseCorrect
      split <;> exact ⟨rfl,rfl⟩
    simp only [lifeStep,rolling,cycleStep,grown]
    refine ⟨reissue_restores trips sound.restores (memory state snapshot.symm) rfl,fun row member => ?_,fun other member => ?_⟩
    · exact (stands_again Issue.noConfusion).mpr (rows row (kept.1 ▸ member))
    · exact (stands_again Issue.noConfusion).mpr (memory other (kept.2 ▸ member))

theorem advance_sound (sound : Sound json steward) (stored : Stored steward (.advance reply)) (whole : Whole json steward (.advance reply)) :
    Sound json (lifeStep json steward (.advance reply)) := by
  have held := sound.holds
  cases stage : steward.cycle with
  | composed gen prior payload => exact apply_sound sound stage whole
  | rollingBack prior => exact rollback_sound trips sound stage
  | begun =>
    rw [stage] at held
    refine quiet_sound sound (by rw [stage]; rfl) ?_
    rw [stage]
    exact ⟨held.1,held.2,rfl⟩
  | snapshotted gen prior =>
    rw [stage] at held
    refine quiet_sound sound (by rw [stage]; rfl) ?_
    rw [stage]
    cases answer : reply.compose with
    | ok payload =>
      simp only [cycleStep,answer]
      exact held
    | error e =>
      simp only [cycleStep,answer]
      exact ⟨held.1,held.2.1⟩
  | composeFailed gen e =>
    rw [stage] at held
    refine quiet_sound sound (by rw [stage]; rfl) ?_
    rw [stage]
    exact @emit_holds _ _ _ _ _ _ _ _ .finished held
  | refused gen prior e =>
    rw [stage] at held
    refine quiet_sound sound (by rw [stage]; rfl) ?_
    rw [stage]
    exact @emit_holds _ _ _ _ _ _ _ _ (.rollingBack prior) held
  | applied gen payload =>
    rw [stage] at held
    have wrote : reply.stored = true := stored (by rw [stage]; rfl)
    refine quiet_sound sound (by rw [stage]; rfl) ?_
    rw [stage]
    simp only [cycleStep,wrote,if_true]
    refine ⟨fun row member => ?_,held⟩
    cases member
    exact held
  | persisted gen appliedState =>
    rw [stage] at held
    refine quiet_sound sound (by rw [stage]; rfl) ?_
    rw [stage]
    refine ⟨held.1,fun state member => ?_⟩
    cases member
    exact held.2
  | updated gen appliedState =>
    rw [stage] at held
    refine quiet_sound sound (by rw [stage]; rfl) ?_
    rw [stage]
    exact @emit_holds _ _ _ _ _ _ _ _ .finished held
  | finished =>
    rw [stage] at held
    refine quiet_sound sound (by rw [stage]; rfl) ?_
    rw [stage]
    exact held

theorem step_sound (sound : Sound json steward) (allowed : Alone steward action ∧ Stored steward action) (whole : Whole json steward action) :
    Sound json (lifeStep json steward action) := by
  cases action with
  | advance reply => exact advance_sound trips sound allowed.2 whole
  | restart custody loaded reply => exact restart_sound trips sound whole
  | runComposeApply =>
    have idle : steward.cycle = .finished := allowed.1
    have held := sound.holds
    rw [idle] at held
    simp only [lifeStep]
    split
    · exact ⟨(restores_same rfl).mpr sound.restores,held⟩
    · exact sound

end Lives

-- Over every history of cycles that do not overlap and of restarts: if all that the warden accepts is JSON
-- and no restart comes before the row of an accepted cycle is written, all that is re-issued is the last
-- payload that the warden accepted.
theorem reissues_last_good (json : SerdeJson β ν) (trips : ∀ value,(json.toVec value).bind json.fromSlice = some value)
    (actions : List (LifeAction β ε)) (alone : Guarded (lifeStep json) Alone (unborn : Steward β ν ε) actions)
    (stored : Guarded (lifeStep json) Stored (unborn : Steward β ν ε) actions)
    (whole : Guarded (lifeStep json) (Whole json) (unborn : Steward β ν ε) actions) :
    Throughout (lifeStep json) (Restores json) (unborn : Steward β ν ε) actions := by
  have start : Sound json (unborn : Steward β ν ε) := by
    refine ⟨?_,?_,?_⟩
    · intro k one there
      cases there
    · intro row member
      cases member
    · intro state member
      cases member
  have sides := guarded_and.mpr ⟨guarded_and.mpr ⟨alone,stored⟩,whole⟩
  have all := guarded_keeps (fun steward action sound met => step_sound trips sound met.1 met.2) start sides
  rw [throughout_prefixes] at all ⊢
  exact fun k => (all k).restores

def accepts (payload : β) : Reply β String := ⟨.ok payload,.ok (),true,true⟩

section Volumes

def refuses : Reply String String := ⟨.ok "false",.error "down",true,true⟩

-- A cycle that the warden accepts, one that it refuses, and another life.
def lives (payload : String) : List (LifeAction String String) :=
  ([.restart true true (accepts ""),.runComposeApply] : List (LifeAction _ _)) ++
  List.replicate 6 (LifeAction.advance (accepts payload)) ++
  ([.runComposeApply] : List (LifeAction _ _)) ++ List.replicate 5 (LifeAction.advance refuses) ++
  ([.restart true true (accepts "")] : List (LifeAction _ _))

-- The second life begins when the warden has answered and the row is not written.
def cutShort : List (LifeAction String String) :=
  ([.restart true true (accepts ""),.runComposeApply] : List (LifeAction _ _)) ++
  List.replicate 6 (LifeAction.advance (accepts "true")) ++
  ([.runComposeApply] : List (LifeAction _ _)) ++ List.replicate 3 (LifeAction.advance (accepts "false")) ++
  ([.restart true true (accepts "")] : List (LifeAction _ _))

instance (steward : Steward String (Option Bool) String) : DecidablePred (Alone steward)
  | .runComposeApply => inferInstanceAs (Decidable (steward.cycle = .finished))
  | .advance _ => isTrue trivial
  | .restart _ _ _ => isTrue trivial

instance (steward : Steward String (Option Bool) String) : DecidablePred (Stored steward)
  | .runComposeApply => isTrue trivial
  | .advance reply => inferInstanceAs (Decidable (steward.cycle.unwritten.isSome = true → reply.stored = true))
  | .restart _ _ _ => isTrue trivial

instance (steward : Steward String (Option Bool) String) : DecidablePred (Whole literals steward)
  | .runComposeApply => isTrue trivial
  | .advance reply => inferInstanceAs (Decidable (∀ payload ∈ steward.cycle.offered,taken reply = true → (literals.fromSlice payload).isSome = true))
  | .restart _ _ _ => inferInstanceAs (Decidable (steward.cycle.unwritten.isSome = false))

theorem lives_restored : Throughout (lifeStep literals) (Restores literals) unborn (lives "true") :=
  reissues_last_good literals literals_read (lives "true") (by decide) (by decide) (by decide)

-- What the warden accepted is no JSON, and the next refusal brings it "null"; a row that was not written
-- brings it the payload before.
theorem opaque_lost : Guarded (lifeStep literals) Alone unborn (lives "volume=7") ∧ Guarded (lifeStep literals) Stored unborn (lives "volume=7") ∧
    ¬ Throughout (lifeStep literals) (Restores literals) unborn (lives "volume=7") ∧
    Guarded (lifeStep literals) Alone unborn cutShort ∧ Guarded (lifeStep literals) Stored unborn cutShort ∧
    ¬ Throughout (lifeStep literals) (Restores literals) unborn cutShort := by
  have sent : (run (lifeStep literals) unborn (lives "volume=7")).log[2]? = some ⟨.rollback,"null",false⟩ := by decide
  have before : lastGood ((run (lifeStep literals) unborn (lives "volume=7")).log.take 2) = some "volume=7" := by decide
  have again : (run (lifeStep literals) unborn cutShort).log[2]? = some ⟨.boot,"true",true⟩ := by decide
  have newer : lastGood ((run (lifeStep literals) unborn cutShort).log.take 2) = some "false" := by decide
  refine ⟨by decide,by decide,fun held => ?_,by decide,by decide,fun held => ?_⟩
  · obtain ⟨good,last,same⟩ := throughout_final held 2 _ sent (by decide)
    rw [before] at last
    cases last
    exact absurd ((@encode_equivalent _ _ literals _ none literals_read).mp same) (by decide)
  · obtain ⟨good,last,same⟩ := throughout_final held 2 _ again (by decide)
    rw [newer] at last
    cases last
    exact absurd ((@encode_equivalent _ _ literals _ (some true) literals_read).mp same) (by decide)

end Volumes

end EvoCore.Reconciliation
