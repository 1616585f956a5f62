import EvoCore.RelationRestart

namespace EvoCore.RelationRaces
open Tables Runs SubjectRegistry SubjectAliases StewardWiring
open RelationGraph (GraphInner RelationKey Iteration removeRelation touching forgetAllTouching)
open GraphIndex (Present mem_touching)

-- The assert of a relation and the retract of a subject as the calls they are made of: each
-- takes the registry or the graph lock once. None of these calls panics, so the locks are
-- never poisoned. Writes to the store come between them and change neither.
structure Assertion where
  plugin : String
  source : ExternalAddressing
  predicate : String
  target : ExternalAddressing
  reason : Option String
deriving DecidableEq,Repr

structure Retraction where
  plugin : String
  addressing : ExternalAddressing
  reason : Option String
deriving DecidableEq,Repr

inductive AssertPoint where
  | begun
  | resolvedSource (sourceId : String)
  | resolvedBoth (sourceId targetId : String)
  | describedSource (sourceId targetId : String) (sourceRecord : SubjectRecord)
  | checked (sourceId targetId : String)
  | finished
deriving DecidableEq,Repr

inductive RetractPoint where
  | begun
  | resolved
  | forgotten (canonicalId : String)
  | finished
deriving DecidableEq,Repr

inductive Task where
  | assert (call : Assertion) (point : AssertPoint)
  | retract (call : Retraction) (point : RetractPoint)
deriving DecidableEq,Repr

structure State where
  registry : RegistryInner
  graph : GraphInner
  tasks : List Task

def describedTarget (catalogue : Catalogue) (call : Assertion) (sourceId targetId : String) (sourceRecord : SubjectRecord) :
    Option SubjectRecord → AssertPoint
  | none => .finished
  | some targetRecord =>
    match catalogue.findPredicate call.predicate with
    | none => .finished
    | some rule =>
      if ¬rule.sourceType.accepts sourceRecord.subjectType then .finished
      else if ¬rule.targetType.accepts targetRecord.subjectType then .finished
      else .checked sourceId targetId

def assertStep (catalogue : Catalogue) (registry : RegistryInner) (graph : GraphInner) (call : Assertion) :
    AssertPoint → AssertPoint × GraphInner
  | .begun =>
    match catalogue.findPredicate call.predicate,resolve registry call.source with
    | some _,some sourceId => (.resolvedSource sourceId,graph)
    | _,_ => (.finished,graph)
  | .resolvedSource sourceId =>
    match resolve registry call.target with
    | some targetId => (.resolvedBoth sourceId targetId,graph)
    | none => (.finished,graph)
  | .resolvedBoth sourceId targetId =>
    match describe registry sourceId with
    | some sourceRecord => (.describedSource sourceId targetId sourceRecord,graph)
    | none => (.finished,graph)
  | .describedSource sourceId targetId sourceRecord =>
    (describedTarget catalogue call sourceId targetId sourceRecord (describe registry targetId),graph)
  | .checked sourceId targetId =>
    (.finished,(RelationGraph.assert graph sourceId call.predicate targetId call.plugin call.reason).2)
  | .finished => (.finished,graph)

-- A store write that fails after the registry call ends the retract before its cascade.
def retractStep (registry : RegistryInner) (graph : GraphInner) (iteration : Iteration) (storeFails : Bool)
    (call : Retraction) : RetractPoint → RetractPoint × RegistryInner × GraphInner
  | .begun => (.resolved,registry,graph)
  | .resolved =>
    match SubjectRegistry.retract registry call.addressing call.plugin call.reason with
    | (.ok (.subjectForgotten id _),after) => (.forgotten id,after,graph)
    | (_,after) => (.finished,after,graph)
  | .forgotten id =>
    if storeFails then (.finished,registry,graph)
    else (.finished,registry,(forgetAllTouching graph iteration id).2)
  | .finished => (.finished,registry,graph)

structure Turn where
  task : Nat
  iteration : Iteration
  storeFails : Bool

def step (catalogue : Catalogue) (st : State) (turn : Turn) : State :=
  match st.tasks[turn.task]? with
  | none => st
  | some (.assert call point) =>
    let (next,graph) := assertStep catalogue st.registry st.graph call point
    {st with graph,tasks := st.tasks.set turn.task (.assert call next)}
  | some (.retract call point) =>
    let (next,registry,graph) := retractStep st.registry st.graph turn.iteration turn.storeFails call point
    ⟨registry,graph,st.tasks.set turn.task (.retract call next)⟩

def Integral (st : State) : Prop :=
  ∀ key,Present st.graph key → Live st.registry key.sourceId ∧ Live st.registry key.targetId

def Finished (st : State) : Prop :=
  ∀ task,task ∈ st.tasks → (∃ call,task = .assert call .finished) ∨ ∃ call,task = .retract call .finished

-- A subject is gone from the registry and its edges are still to be removed.
def Awaiting (st : State) (id : String) : Prop := ∃ call,.retract call (.forgotten id) ∈ st.tasks
def Covered (st : State) (id : String) : Prop := Live st.registry id ∨ Awaiting st id
def Shielded (st : State) : Prop := ∀ key,Present st.graph key → Covered st key.sourceId ∧ Covered st key.targetId

-- The edge goes in while both ends are there or about to be cascaded, and no cascade is cut short that has
-- edges to remove.
def Current (st : State) (turn : Turn) : Prop :=
  match st.tasks[turn.task]? with
  | some (.assert _ (.checked sourceId targetId)) => Covered st sourceId ∧ Covered st targetId
  | some (.retract _ (.forgotten id)) => turn.storeFails = true → RelationRestart.Untouched st.graph id
  | _ => True

variable {catalogue : Catalogue} {st : State} {id : String}

theorem Integral.shielded (integral : Integral st) : Shielded st :=
  fun key present => ⟨.inl (integral key present).1,.inl (integral key present).2⟩

theorem Shielded.integral (shielded : Shielded st) (finished : Finished st) : Integral st := by
  have live : ∀ id,Covered st id → Live st.registry id := by
    intro id covered
    rcases covered with live | ⟨call,waiting⟩
    · exact live
    · rcases finished _ waiting with ⟨other,same⟩ | ⟨other,same⟩ <;> cases same
  exact fun key present => ⟨live _ (shielded key present).1,live _ (shielded key present).2⟩

theorem waiting_set {tasks : List Task} (there : tasks[i]? = some task) (next : Task)
    (other : ∀ call,task ≠ .retract call (.forgotten id)) (waiting : .retract call (.forgotten id) ∈ tasks) :
    .retract call (.forgotten id) ∈ tasks.set i next := by
  obtain ⟨j,here⟩ := List.mem_iff_getElem?.mp waiting
  have apart : i ≠ j := by
    rintro rfl
    exact other call (Option.some.inj (there.symm.trans here))
  exact List.mem_iff_getElem?.mpr ⟨j,by rw [List.getElem?_set_ne apart,here]⟩

theorem assert_present (g : GraphInner) (s p t claimant : String) (reason : Option String) (key : RelationKey)
    (present : Present (RelationGraph.assert g s p t claimant reason).2 key) : key = ⟨s,p,t⟩ ∨ Present g key := by
  by_cases same : key = ⟨s,p,t⟩
  · exact .inl same
  · right
    rcases RelationRestart.assert_cases g s p t claimant reason with ⟨error,result⟩ | result | ⟨record,-,result⟩ | ⟨-,result⟩
    · simpa [result] using present
    · simpa [result] using present
    · simpa [result,Present,same] using present
    · simpa [result,Present,same] using present

theorem removeAll_present (keys : List RelationKey) (g : GraphInner) (present : Present (keys.foldl removeRelation g) key) :
    Present g key ∧ key ∉ keys := by
  induction keys generalizing g with
  | nil => exact ⟨present,by simp⟩
  | cons first rest ih =>
    obtain ⟨left,outside⟩ := ih (removeRelation g first) present
    have other : key ≠ first := by
      rintro rfl
      simp [Present] at left
    exact ⟨by simpa [Present,other] using left,by simp [other,outside]⟩

theorem cascade_present (g : GraphInner) (iteration : Iteration) (id : String)
    (present : Present (forgetAllTouching g iteration id).2 key) : Present g key ∧ key.sourceId ≠ id ∧ key.targetId ≠ id := by
  obtain ⟨before,outside⟩ := removeAll_present _ g present
  have apart : key.touches id ≠ true := fun touches => outside ((mem_touching iteration).mpr ⟨before,touches⟩)
  simp only [RelationKey.touches,ne_eq,Bool.or_eq_true,beq_iff_eq,not_or] at apart
  exact ⟨before,apart⟩

-- A retract takes out of the registry at most the subject it then cascades.
theorem retract_live (s : RegistryInner) (call : Retraction) (live : Live s id) :
    Live (SubjectRegistry.retract s call.addressing call.plugin call.reason).2 id ∨
      ∃ kind,(SubjectRegistry.retract s call.addressing call.plugin call.reason).1 = .ok (.subjectForgotten id kind) := by
  rcases retract_cases s call.addressing call.plugin call.reason with ⟨error,result⟩ |
    ⟨owner,record,idx,removal,⟨-,result⟩ | ⟨-,result⟩⟩
  · rw [result]
    exact .inl live
  · rw [result]
    by_cases same : id = owner
    · exact .inr ⟨record.subjectType,by rw [same]⟩
    · left
      simp only [Live,describe,(SubjectIndex.forgotten_frame _ _ _ _).1,get_erase,same,if_false]
      simpa [Live,describe,released,same] using live
  · rw [result]
    left
    by_cases same : id = owner
    · simp [Live,describe,released,same]
    · simpa [Live,describe,released,same] using live

theorem covered_set (there : st.tasks[i]? = some task) (graph : GraphInner) (next : Task)
    (other : ∀ call,task ≠ .retract call (.forgotten id)) (covered : Covered st id) :
    Covered ⟨st.registry,graph,st.tasks.set i next⟩ id := by
  rcases covered with live | ⟨waiting,member⟩
  · exact .inl live
  · exact .inr ⟨waiting,waiting_set there next other member⟩

theorem assert_shielded (there : st.tasks[turn.task]? = some (.assert call point)) (shielded : Shielded st)
    (met : Current st turn) : Shielded (step catalogue st turn) := by
  have covers : ∀ id,Covered st id → Covered (step catalogue st turn) id := by
    intro id covered
    simp only [step,there]
    exact covered_set there _ _ (by simp) covered
  intro key present
  have known : Covered st key.sourceId ∧ Covered st key.targetId := by
    simp only [step,there] at present
    cases point with
    | checked sourceId targetId =>
      simp only [Current,there] at met
      rcases assert_present _ _ _ _ _ _ key present with rfl | before
      · exact met
      · exact shielded key before
    | begun =>
      simp only [assertStep] at present
      split at present <;> exact shielded key present
    | resolvedSource sourceId =>
      simp only [assertStep] at present
      split at present <;> exact shielded key present
    | resolvedBoth sourceId targetId =>
      simp only [assertStep] at present
      split at present <;> exact shielded key present
    | describedSource sourceId targetId record => exact shielded key present
    | finished => exact shielded key present
  exact ⟨covers _ known.1,covers _ known.2⟩

theorem resolved_shielded (there : st.tasks[turn.task]? = some (.retract call .resolved)) (shielded : Shielded st) :
    Shielded (step catalogue st turn) := by
  have covers : ∀ id,Covered st id → Covered (step catalogue st turn) id := by
    intro id covered
    have inside : turn.task < st.tasks.length := (List.getElem?_eq_some_iff.mp there).1
    simp only [step,there,retractStep]
    rcases covered with live | ⟨waiting,member⟩
    · rcases retract_live st.registry call live with still | ⟨kind,gone⟩
      · split <;> (rename_i result; rw [result] at still; exact .inl still)
      · refine .inr ⟨call,?_⟩
        split
        · rename_i result
          rw [result] at gone
          cases gone
          exact List.mem_set inside _
        · rename_i other result
          rw [result] at gone
          exact (other id kind gone).elim
    · refine .inr ⟨waiting,?_⟩
      split <;> exact waiting_set there _ (by simp) member
  intro key present
  have before : Present st.graph key := by
    simp only [step,there,retractStep] at present
    split at present <;> exact present
  exact ⟨covers _ (shielded key before).1,covers _ (shielded key before).2⟩

theorem untouched_apart {key : RelationKey} (untouched : key.touches id = false) : key.sourceId ≠ id ∧ key.targetId ≠ id := by
  simpa [RelationKey.touches] using untouched

theorem cascade_shielded (there : st.tasks[turn.task]? = some (.retract call (.forgotten gone))) (shielded : Shielded st)
    (met : Current st turn) : Shielded (step catalogue st turn) := by
  simp only [Current,there] at met
  have covers : ∀ id,id ≠ gone → Covered st id → Covered (step catalogue st turn) id := by
    intro id other covered
    have apart : ∀ caller,Task.retract call (.forgotten gone) ≠ .retract caller (.forgotten id) := by
      intro caller same
      cases same
      exact other rfl
    simp only [step,there,retractStep]
    split <;> exact covered_set there _ _ apart covered
  intro key present
  have left : Present st.graph key ∧ key.sourceId ≠ gone ∧ key.targetId ≠ gone := by
    simp only [step,there,retractStep] at present
    cases fails : turn.storeFails with
    | true =>
      rw [fails] at present
      exact ⟨present,untouched_apart (met fails key present)⟩
    | false =>
      rw [fails] at present
      exact cascade_present st.graph turn.iteration gone present
  exact ⟨covers _ left.2.1 (shielded key left.1).1,covers _ left.2.2 (shielded key left.1).2⟩

theorem step_shielded (shielded : Shielded st) (met : Current st turn) : Shielded (step catalogue st turn) := by
  cases there : st.tasks[turn.task]? with
  | none => simpa only [step,there] using shielded
  | some task =>
    cases task with
    | assert call point => exact assert_shielded there shielded met
    | retract call point =>
      cases point with
      | resolved => exact resolved_shielded there shielded
      | forgotten id => exact cascade_shielded there shielded met
      | begun =>
        intro key present
        simp only [step,there,retractStep] at present ⊢
        have known := shielded key present
        exact ⟨covered_set there _ _ (by simp) known.1,covered_set there _ _ (by simp) known.2⟩
      | finished =>
        intro key present
        simp only [step,there,retractStep] at present ⊢
        have known := shielded key present
        exact ⟨covered_set there _ _ (by simp) known.1,covered_set there _ _ (by simp) known.2⟩

theorem no_relation_dangles (catalogue : Catalogue) (turns : List Turn) (integral : Integral st)
    (met : Guarded (step catalogue) Current st turns) :
    Throughout (step catalogue) (fun st => Finished st → Integral st) st turns := by
  have shields : Throughout (step catalogue) Shielded st turns :=
    guarded_keeps (fun _ _ shielded current => step_shielded shielded current) integral.shielded met
  rw [throughout_prefixes] at shields ⊢
  exact fun k finished => (shields k).integral finished

-- Two tracks, the assertion of an edge between them and the retraction of the first.
def contest : State :=
  ⟨(run (SubjectRegistry.step strokes) .new twoTracks).inner,.new,
    [.assert ⟨"mpd",⟨"mpd","a"⟩,"next",⟨"mpd","b"⟩,none⟩ .begun,.retract ⟨"mpd",⟨"mpd","a"⟩,none⟩ .begun]⟩

def turnOf (task : Nat) : Turn := ⟨task,.listed,false⟩

def contestOver : List Task :=
  [.assert ⟨"mpd",⟨"mpd","a"⟩,"next",⟨"mpd","b"⟩,none⟩ .finished,.retract ⟨"mpd",⟨"mpd","a"⟩,none⟩ .finished]

theorem contest_integral : Integral contest := by
  rintro key ⟨record,there⟩
  simp [contest,GraphInner.new] at there

theorem contest_finished (ended : st.tasks = contestOver) : Finished st := by
  intro task member
  simp only [ended,contestOver,List.mem_cons,List.not_mem_nil,or_false] at member
  rcases member with rfl | rfl
  · exact .inl ⟨_,rfl⟩
  · exact .inr ⟨_,rfl⟩

theorem no_relation_dangles_in_turn :
    Integral (run (step RelationRestart.queue) contest (([0,0,0,0,0,1,1,1] : List Nat).map turnOf)) := by
  have met : Guarded (step RelationRestart.queue) Current contest (([0,0,0,0,0,1,1,1] : List Nat).map turnOf) := by
    refine ⟨trivial,trivial,trivial,trivial,⟨.inl ?_,.inl ?_⟩,trivial,trivial,(fun fails => by cases fails),trivial⟩
    · change (describe _ "u").isSome = true
      decide
    · change (describe _ "uu").isSome = true
      decide
  have throughout := no_relation_dangles RelationRestart.queue _ contest_integral met
  exact throughout_final throughout (contest_finished (by decide))

-- The assertion has looked at both subjects; then the retraction runs to its end, and the edge
-- goes in after the cascade that should have taken it out.
theorem late_edge_dangles :
    Integral contest ∧
      Finished (run (step RelationRestart.queue) contest (([0,0,0,0,1,1,1,0] : List Nat).map turnOf)) ∧
      ¬Integral (run (step RelationRestart.queue) contest (([0,0,0,0,1,1,1,0] : List Nat).map turnOf)) := by
  refine ⟨contest_integral,contest_finished (by decide),fun integral => ?_⟩
  have there : get (run (step RelationRestart.queue) contest
      (([0,0,0,0,1,1,1,0] : List Nat).map turnOf)).graph.relations ⟨"u","next","uu"⟩ =
      some ⟨⟨"u","next","uu"⟩,[⟨"mpd",none⟩],none⟩ := by decide
  have live := (integral ⟨"u","next","uu"⟩ ⟨_,there⟩).1
  revert live
  unfold Live
  decide

end EvoCore.RelationRaces
