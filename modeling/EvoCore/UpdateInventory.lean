import EvoCore.Runs
import EvoCore.Tables

namespace EvoCore.Updates
open Tables Runs

inductive UpdateSeverity where
  | routine
  | recommended
  | security
  | critical
deriving DecidableEq,Repr

structure UpdateAvailable where
  id : String
  component : String
  currentVersion : String
  availableVersion : String
  severity : UpdateSeverity
deriving DecidableEq,Repr

structure AutoApplyPolicy where
  sourceId : String
  enabled : Bool
  severityThreshold : UpdateSeverity
deriving DecidableEq,Repr

def AutoApplyPolicy.defaultFor (sourceId : String) : AutoApplyPolicy := ⟨sourceId,false,.security⟩

structure ApplyOptions where
  dryRun : Bool
  approvedBy : Option String
deriving DecidableEq,Repr

structure UpdateOutcome where
  id : String
  component : String
  appliedVersion : String
  dryRun : Bool
deriving DecidableEq,Repr

inductive UpdateError where
  | sourceUnreachable (reason : String)
  | unknownUpdate (id : String)
  | signatureInvalid (reason : String)
  | applyFailed (reason : String)
  | notAuthorised (reason : String)
  | internal (reason : String)
deriving DecidableEq,Repr

inductive UpdateRegistryError where
  | sourceNotRegistered (sourceId : String)
  | sourceAlreadyRegistered (sourceId : String)
  | sourceFailed (sourceId : String) (error : UpdateError)
deriving DecidableEq,Repr

-- When the answer that an item comes from was produced is a history that no function reads.
structure InventoryItem where
  sourceId : String
  update : UpdateAvailable
  observedAtMs : Nat
  answeredAt : Nat
deriving DecidableEq,Repr

structure UpdateInventory where
  lastCheckAtMs : Nat
  lastCheckPerSourceMs : Table String Nat
  items : List InventoryItem

-- An Arc<dyn UpdateSource> by its address, with the id that it gives.
structure UpdateSource where
  address : Nat
  sourceId : String
deriving DecidableEq,Repr

structure Inner where
  sources : Table String UpdateSource
  inventory : UpdateInventory
  policy : Table String AutoApplyPolicy

def Inner.register (g : Inner) (source : UpdateSource) : Inner × Except UpdateRegistryError Unit :=
  if (get g.sources source.sourceId).isSome then (g,.error (.sourceAlreadyRegistered source.sourceId))
  else
    ({ g with
      sources := g.sources.insert source.sourceId source
      policy := if (get g.policy source.sourceId).isSome then g.policy else g.policy.insert source.sourceId (.defaultFor source.sourceId) },.ok ())

def Inner.unregister (g : Inner) (sourceId : String) : Inner :=
  { g with
    sources := g.sources.erase sourceId
    inventory := { g.inventory with
      items := g.inventory.items.filter fun it => it.sourceId ≠ sourceId
      lastCheckPerSourceMs := g.inventory.lastCheckPerSourceMs.erase sourceId } }

def Inner.setAutoApplyPolicy (g : Inner) (policy : AutoApplyPolicy) : Inner := { g with policy := g.policy.insert policy.sourceId policy }

def itemLe (a b : InventoryItem) : Prop :=
  a.sourceId < b.sourceId ∨ a.sourceId = b.sourceId ∧ a.update.component ≤ b.update.component

instance (a b : InventoryItem) : Decidable (itemLe a b) := inferInstanceAs (Decidable (_ ∨ _))

def itemsOf (sourceId : String) (updates : List UpdateAvailable) (completedAt answeredAt : Nat) : List InventoryItem :=
  updates.map fun u => ⟨sourceId,u,completedAt,answeredAt⟩

def Inner.replace (g : Inner) (sourceId : String) (updates : List UpdateAvailable) (completedAt answeredAt : Nat) : Inner × List UpdateAvailable :=
  ({ g with
    inventory := { g.inventory with
      lastCheckPerSourceMs := g.inventory.lastCheckPerSourceMs.insert sourceId completedAt
      items := ((g.inventory.items.filter fun it => it.sourceId ≠ sourceId)++itemsOf sourceId updates completedAt answeredAt).insertionSort itemLe } },
    updates)

def Inner.drop (g : Inner) (sourceId updateId : String) : Inner :=
  { g with inventory := { g.inventory with
    items := g.inventory.items.filter fun it => ¬(it.sourceId = sourceId ∧ it.update.id = updateId) } }

def Inner.componentOf (g : Inner) (sourceId updateId : String) : String :=
  ((g.inventory.items.find? fun it => it.sourceId = sourceId ∧ it.update.id = updateId).map fun it => it.update.component).getD updateId

-- An observed happening carries the component, the versions and the severity of its update.
inductive Happening where
  | updateCheckStarted (sourceId : String)
  | updateCheckCompleted (sourceId : String) (availableCount : Nat)
  | updateAvailableObserved (sourceId : String) (update : UpdateAvailable)
  | updateApplyStarted (sourceId updateId component approvedBy : String)
  | updateApplySucceeded (sourceId updateId component appliedVersion : String) (dryRun : Bool)
  | updateApplyFailed (sourceId updateId component : String) (error : UpdateError)
deriving DecidableEq,Repr

-- A call between two of its steps. A check of a sweep carries the ids that check_all_now has left.
inductive Task where
  | asking (sourceId : String) (sweep : Option (List String))
  | answered (sourceId : String) (sweep : Option (List String)) (answeredAt completedAt : Nat) (answer : Except UpdateError (List UpdateAvailable))
  | checked (result : Except UpdateRegistryError (List UpdateAvailable))
  | sweeping (sourceIds : List String)
  | swept (inventory : UpdateInventory)
  | naming (sourceId updateId : String) (options : ApplyOptions)
  | applying (sourceId updateId component : String)
  | applied (sourceId updateId component : String) (appliedAt : Nat) (result : Except UpdateError UpdateOutcome)
  | outcome (result : Except UpdateRegistryError UpdateOutcome)

structure Dropped where
  sourceId : String
  updateId : String
  appliedAt : Nat

-- The clock counts the steps, and the successful applies are kept with the step at which the
-- source had applied them: a history as well.
structure Registry where
  inner : Inner
  tasks : List Task
  clock : Nat
  dropped : List Dropped

def Registry.new : Registry := ⟨⟨∅,⟨0,∅,[]⟩,∅⟩,[],0,[]⟩

inductive Step where
  | register (source : UpdateSource)
  | unregister (sourceId : String)
  | setAutoApplyPolicy (policy : AutoApplyPolicy)
  | checkOne (sourceId : String)
  | checkAllNow (listed : List String)
  | apply (sourceId updateId : String) (options : ApplyOptions)
  | answer (i completedAt : Nat) (answer : Except UpdateError (List UpdateAvailable))
  | apply_ (i : Nat) (result : Except UpdateError UpdateOutcome)
  | advance (i now : Nat)

def lookUp (s : Registry) (sourceId : String) (sweep : Option (List String)) : Task × List Happening :=
  match get s.inner.sources sourceId with
  | some _ => (.asking sourceId sweep,[.updateCheckStarted sourceId])
  | none =>
    match sweep with
    | some rest => (.sweeping rest,[])
    | none => (.checked (.error (.sourceNotRegistered sourceId)),[])

-- What check_one gives back: check_all_now throws it away.
def returned (sweep : Option (List String)) (result : Except UpdateRegistryError (List UpdateAvailable)) : Task :=
  match sweep with
  | some rest => .sweeping rest
  | none => .checked result

def put (s : Registry) (i : Nat) (task : Task) : Registry := { s with tasks := s.tasks.set i task }

def advance (s : Registry) (i now : Nat) : Task → Registry × List Happening
  | .answered sourceId sweep answeredAt completedAt (.ok updates) =>
    let (inner,newItems) := s.inner.replace sourceId updates completedAt answeredAt
    (put { s with inner := inner } i (returned sweep (.ok newItems)),
      .updateCheckCompleted sourceId updates.length::newItems.map (.updateAvailableObserved sourceId))
  | .answered sourceId sweep _ _ (.error e) =>
    (put s i (returned sweep (.error (.sourceFailed sourceId e))),[.updateCheckCompleted sourceId 0])
  | .sweeping (sourceId::rest) => (put s i (lookUp s sourceId (some rest)).1,(lookUp s sourceId (some rest)).2)
  | .sweeping [] =>
    let inventory := { s.inner.inventory with lastCheckAtMs := now }
    (put { s with inner := { s.inner with inventory := inventory } } i (.swept inventory),[])
  | .naming sourceId updateId options =>
    (put s i (.applying sourceId updateId (s.inner.componentOf sourceId updateId)),
      [.updateApplyStarted sourceId updateId (s.inner.componentOf sourceId updateId) (options.approvedBy.getD "operator")])
  | .applied sourceId updateId component appliedAt (.ok outcome) =>
    let after := if outcome.dryRun then s
      else { s with inner := s.inner.drop sourceId updateId,dropped := s.dropped++[⟨sourceId,updateId,appliedAt⟩] }
    (put after i (.outcome (.ok outcome)),[.updateApplySucceeded sourceId updateId component outcome.appliedVersion outcome.dryRun])
  | .applied sourceId updateId component _ (.error e) =>
    (put s i (.outcome (.error (.sourceFailed sourceId e))),[.updateApplyFailed sourceId updateId component e])
  | .asking _ _ => (s,[])
  | .checked _ => (s,[])
  | .swept _ => (s,[])
  | .applying _ _ _ => (s,[])
  | .outcome _ => (s,[])

def spawn (s : Registry) (started : Task × List Happening) : Registry × List Happening :=
  ({ s with tasks := s.tasks++[started.1] },started.2)

def takeAnswer (s : Registry) (i completedAt : Nat) (answer : Except UpdateError (List UpdateAvailable)) : Task → Registry
  | .asking sourceId sweep => put s i (.answered sourceId sweep s.clock completedAt answer)
  | _ => s

def takeResult (s : Registry) (i : Nat) (result : Except UpdateError UpdateOutcome) : Task → Registry
  | .applying sourceId updateId component => put s i (.applied sourceId updateId component s.clock result)
  | _ => s

def act (s : Registry) : Step → Registry × List Happening
  | .register source => ({ s with inner := (s.inner.register source).1 },[])
  | .unregister sourceId => ({ s with inner := s.inner.unregister sourceId },[])
  | .setAutoApplyPolicy policy => ({ s with inner := s.inner.setAutoApplyPolicy policy },[])
  | .checkOne sourceId => spawn s (lookUp s sourceId none)
  | .checkAllNow listed => if listed.Perm s.inner.sources.keys then spawn s (.sweeping listed,[]) else (s,[])
  | .apply sourceId updateId options =>
    match get s.inner.sources sourceId with
    | some _ => spawn s (.naming sourceId updateId options,[])
    | none => spawn s (.outcome (.error (.sourceNotRegistered sourceId)),[])
  | .answer i completedAt answer => ((s.tasks[i]?.map (takeAnswer s i completedAt answer)).getD s,[])
  | .apply_ i result => ((s.tasks[i]?.map (takeResult s i result)).getD s,[])
  | .advance i now => (s.tasks[i]?.map (advance s i now)).getD (s,[])

def step (s : Registry) (a : Step) : Registry := { (act s a).1 with clock := s.clock+1 }

variable {s : Registry} {a : Step} {g : Inner} {item : InventoryItem} {source update_ : String}

def known (items : List InventoryItem) (sourceId : String) (u : UpdateAvailable) : Bool :=
  items.any fun it => it.sourceId = sourceId ∧ it.update.id = u.id

-- Every item has its source, and comes from an answer after every apply of it that succeeded.
structure Honest (s : Registry) : Prop where
  registered : ∀ item ∈ s.inner.inventory.items,∃ source,get s.inner.sources item.sourceId = some source
  current : ∀ item ∈ s.inner.inventory.items,∀ d ∈ s.dropped,d.sourceId = item.sourceId → d.updateId = item.update.id → d.appliedAt ≤ item.answeredAt

-- What is announced was not there just before, and the check that ends gives back what was not.
structure Reports (s : Registry) (a : Step) : Prop where
  observed : ∀ sourceId u,.updateAvailableObserved sourceId u ∈ (act s a).2 → ¬known s.inner.inventory.items sourceId u
  checked : ∀ i now sourceId answeredAt completedAt updates,a = .advance i now →
    s.tasks[i]? = some (.answered sourceId none answeredAt completedAt (.ok updates)) →
    (step s a).tasks[i]? = some (.checked (.ok (updates.filter fun u => !known s.inner.inventory.items sourceId u)))

-- Where a check puts its answer in: the source is still registered, and of the updates that it
-- names none is in the inventory and none was applied after the answer was produced.
def Timely (s : Registry) (a : Step) : Prop :=
  ∀ i now sourceId sweep answeredAt completedAt updates,a = .advance i now →
    s.tasks[i]? = some (.answered sourceId sweep answeredAt completedAt (.ok updates)) →
    (updates ≠ [] → ∃ source,get s.inner.sources sourceId = some source) ∧
      ∀ u ∈ updates,¬known s.inner.inventory.items sourceId u ∧
        ∀ d ∈ s.dropped,d.sourceId = sourceId → d.updateId = u.id → d.appliedAt ≤ answeredAt

theorem mem_replace (g : Inner) (sourceId : String) (updates : List UpdateAvailable) (completedAt answeredAt : Nat) :
    item ∈ (g.replace sourceId updates completedAt answeredAt).1.inventory.items ↔
      (item ∈ g.inventory.items ∧ item.sourceId ≠ sourceId) ∨ ∃ u ∈ updates,item = ⟨sourceId,u,completedAt,answeredAt⟩ := by
  unfold Inner.replace itemsOf
  simp only [List.mem_insertionSort,List.mem_append,List.mem_filter,decide_eq_true_eq,List.mem_map,eq_comm (a := item)]

structure Calm (s after : Registry) : Prop where
  items : ∀ item ∈ after.inner.inventory.items,item ∈ s.inner.inventory.items ∧ ∃ source,get after.inner.sources item.sourceId = some source
  dropped : ∀ item ∈ after.inner.inventory.items,∀ d ∈ after.dropped,d ∈ s.dropped ∨ ¬(d.sourceId = item.sourceId ∧ d.updateId = item.update.id)

theorem calm_honest (honest : Honest s) (calm : Calm s after) : Honest after := by
  constructor
  · exact fun item member => (calm.items item member).2
  · intro item member d listed source update
    rcases calm.dropped item member d listed with old | other
    · exact honest.current item (calm.items item member).1 d old source update
    · exact absurd ⟨source,update⟩ other

theorem still_calm (honest : Honest s) (inner : after.inner.inventory.items = s.inner.inventory.items)
    (sources : after.inner.sources = s.inner.sources) (dropped : after.dropped = s.dropped) : Calm s after := by
  constructor
  · intro item member
    rw [inner] at member
    rw [sources]
    exact ⟨member,honest.registered item member⟩
  · intro item _ d listed
    rw [dropped] at listed
    exact .inl listed

def Quiet (happenings : List Happening) : Prop := ∀ sourceId u,.updateAvailableObserved sourceId u ∉ happenings

theorem lookUp_quiet (s : Registry) (sourceId : String) (sweep : Option (List String)) : Quiet (lookUp s sourceId sweep).2 := by
  intro source u
  unfold lookUp
  split
  · simp
  · split <;> simp

structure Replacing (s : Registry) (i : Nat) (sourceId : String) (sweep : Option (List String)) (answeredAt completedAt : Nat)
    (updates : List UpdateAvailable) : Prop where
  here : s.tasks[i]? = some (.answered sourceId sweep answeredAt completedAt (.ok updates))

def Elsewhere (s : Registry) (a : Step) : Prop :=
  ∀ i now sourceId sweep answeredAt completedAt updates,a = .advance i now → ¬Replacing s i sourceId sweep answeredAt completedAt updates

theorem advance_calm (honest : Honest s) (i now : Nat) (task : Task)
    (other : ∀ sourceId sweep answeredAt completedAt updates,task ≠ .answered sourceId sweep answeredAt completedAt (.ok updates)) :
    Calm s (advance s i now task).1 ∧ Quiet (advance s i now task).2 := by
  have same (task : Task) : Calm s (put s i task) := still_calm honest rfl rfl rfl
  cases task with
  | answered sourceId sweep answeredAt completedAt answer =>
    cases answer with
    | ok updates => exact absurd rfl (other sourceId sweep answeredAt completedAt updates)
    | error e => exact ⟨same _,fun source u => by simp [advance]⟩
  | sweeping sourceIds =>
    cases sourceIds with
    | nil => exact ⟨still_calm honest rfl rfl rfl,fun source u => by simp [advance]⟩
    | cons sourceId rest => exact ⟨same _,lookUp_quiet s sourceId (some rest)⟩
  | naming sourceId updateId options => exact ⟨same _,fun source u => by simp [advance]⟩
  | applied sourceId updateId component appliedAt result =>
    cases result with
    | error e => exact ⟨same _,fun source u => by simp [advance]⟩
    | ok outcome =>
      refine ⟨?_,fun source u => by simp [advance]⟩
      cases dry : outcome.dryRun with
      | true =>
        simp only [advance,dry,if_true]
        exact still_calm honest rfl rfl rfl
      | false =>
        simp only [advance,dry,Bool.false_eq_true,if_false]
        constructor
        · intro item member
          have kept := (List.mem_filter.mp member).1
          exact ⟨kept,honest.registered item kept⟩
        · intro item member d listed
          rcases List.mem_append.mp listed with old | new
          · exact .inl old
          · have away := of_decide_eq_true (List.mem_filter.mp member).2
            cases List.mem_singleton.mp new
            exact .inr fun same => away ⟨same.1.symm,same.2.symm⟩
  | asking sourceId sweep => exact ⟨still_calm honest rfl rfl rfl,fun source u => by simp [advance]⟩
  | checked result => exact ⟨still_calm honest rfl rfl rfl,fun source u => by simp [advance]⟩
  | swept inventory => exact ⟨still_calm honest rfl rfl rfl,fun source u => by simp [advance]⟩
  | applying sourceId updateId component => exact ⟨still_calm honest rfl rfl rfl,fun source u => by simp [advance]⟩
  | outcome result => exact ⟨still_calm honest rfl rfl rfl,fun source u => by simp [advance]⟩

theorem takeAnswer_calm (honest : Honest s) (i completedAt : Nat) (answer : Except UpdateError (List UpdateAvailable)) (task : Task) :
    Calm s (takeAnswer s i completedAt answer task) := by
  cases task <;> exact still_calm honest rfl rfl rfl

theorem takeResult_calm (honest : Honest s) (i : Nat) (result : Except UpdateError UpdateOutcome) (task : Task) :
    Calm s (takeResult s i result task) := by
  cases task <;> exact still_calm honest rfl rfl rfl

theorem register_calm (honest : Honest s) (source : UpdateSource) : Calm s { s with inner := (s.inner.register source).1 } := by
  unfold Inner.register
  split
  · exact still_calm honest rfl rfl rfl
  · constructor
    · intro item member
      refine ⟨member,?_⟩
      rw [get_insert]
      split
      · exact ⟨source,rfl⟩
      · exact honest.registered item member
    · exact fun item _ d listed => .inl listed

theorem unregister_calm (honest : Honest s) (sourceId : String) : Calm s { s with inner := s.inner.unregister sourceId } := by
  constructor
  · intro item member
    obtain ⟨kept,other⟩ := List.mem_filter.mp member
    refine ⟨kept,?_⟩
    change ∃ source,get (s.inner.sources.erase sourceId) item.sourceId = some source
    rw [get_erase,if_neg (of_decide_eq_true other)]
    exact honest.registered item kept
  · exact fun item _ d listed => .inl listed

theorem act_calm (honest : Honest s) (elsewhere : Elsewhere s a) : Calm s (act s a).1 ∧ Quiet (act s a).2 := by
  have nothing : Quiet [] := fun source u none_ => by cases none_
  have idle : Calm s s := still_calm honest rfl rfl rfl
  cases a with
  | register source => exact ⟨register_calm honest source,nothing⟩
  | unregister sourceId => exact ⟨unregister_calm honest sourceId,nothing⟩
  | setAutoApplyPolicy policy => exact ⟨still_calm honest rfl rfl rfl,nothing⟩
  | checkOne sourceId => exact ⟨still_calm honest rfl rfl rfl,lookUp_quiet s sourceId none⟩
  | checkAllNow listed =>
    simp only [act]
    split
    · exact ⟨still_calm honest rfl rfl rfl,nothing⟩
    · exact ⟨idle,nothing⟩
  | apply sourceId updateId options =>
    simp only [act]
    split
    · exact ⟨still_calm honest rfl rfl rfl,nothing⟩
    · exact ⟨still_calm honest rfl rfl rfl,nothing⟩
  | answer i completedAt answer =>
    simp only [act]
    cases s.tasks[i]? with
    | none => exact ⟨idle,nothing⟩
    | some task => exact ⟨takeAnswer_calm honest i completedAt answer task,nothing⟩
  | apply_ i result =>
    simp only [act]
    cases s.tasks[i]? with
    | none => exact ⟨idle,nothing⟩
    | some task => exact ⟨takeResult_calm honest i result task,nothing⟩
  | advance i now =>
    simp only [act]
    cases there : s.tasks[i]? with
    | none => exact ⟨idle,nothing⟩
    | some task =>
      refine advance_calm honest i now task ?_
      rintro sourceId sweep answeredAt completedAt updates rfl
      exact elsewhere i now sourceId sweep answeredAt completedAt updates rfl ⟨there⟩

theorem replaced (replacing : Replacing s i sourceId sweep answeredAt completedAt updates) (now : Nat) :
    act s (.advance i now) = (put { s with inner := (s.inner.replace sourceId updates completedAt answeredAt).1 } i (returned sweep (.ok updates)),
      .updateCheckCompleted sourceId updates.length::updates.map (.updateAvailableObserved sourceId)) := by
  simp only [act]
  rw [replacing.here]
  rfl

theorem replaced_honest (honest : Honest s) (replacing : Replacing s i sourceId sweep answeredAt completedAt updates) (now : Nat) :
    Honest (step s (.advance i now)) ↔ (updates ≠ [] → ∃ source,get s.inner.sources sourceId = some source) ∧
      ∀ u ∈ updates,∀ d ∈ s.dropped,d.sourceId = sourceId → d.updateId = u.id → d.appliedAt ≤ answeredAt := by
  have items (item : InventoryItem) : item ∈ (step s (.advance i now)).inner.inventory.items ↔
      (item ∈ s.inner.inventory.items ∧ item.sourceId ≠ sourceId) ∨ ∃ u ∈ updates,item = ⟨sourceId,u,completedAt,answeredAt⟩ := by
    unfold step
    rw [replaced replacing]
    exact mem_replace s.inner sourceId updates completedAt answeredAt
  have rest : (step s (.advance i now)).inner.sources = s.inner.sources ∧ (step s (.advance i now)).dropped = s.dropped := by
    unfold step
    rw [replaced replacing]
    exact ⟨rfl,rfl⟩
  have new (u : UpdateAvailable) (member : u ∈ updates) := (items ⟨sourceId,u,completedAt,answeredAt⟩).mpr (.inr ⟨u,member,rfl⟩)
  constructor
  · intro after
    constructor
    · intro some_
      obtain ⟨u,member⟩ := List.exists_mem_of_ne_nil updates some_
      have there := after.registered _ (new u member)
      rwa [rest.1] at there
    · intro u member d listed source update
      rw [← rest.2] at listed
      exact after.current _ (new u member) d listed source update
  · rintro ⟨there,later⟩
    constructor
    · intro item member
      rw [rest.1]
      rcases (items item).mp member with ⟨old,-⟩ | ⟨u,listed,rfl⟩
      · exact honest.registered item old
      · exact there (List.ne_nil_of_mem listed)
    · intro item member d listed source update
      rw [rest.2] at listed
      rcases (items item).mp member with ⟨old,-⟩ | ⟨u,among,rfl⟩
      · exact honest.current item old d listed source update
      · exact later u among d listed source update

theorem replaced_reports (replacing : Replacing s i sourceId sweep answeredAt completedAt updates) (now : Nat) :
    Reports s (.advance i now) ↔ ∀ u ∈ updates,¬known s.inner.inventory.items sourceId u := by
  have announced (source : String) (u : UpdateAvailable) : .updateAvailableObserved source u ∈ (act s (.advance i now)).2 ↔
      source = sourceId ∧ u ∈ updates := by
    rw [replaced replacing]
    simp only [List.mem_cons,reduceCtorEq,false_or,List.mem_map,Happening.updateAvailableObserved.injEq]
    constructor
    · rintro ⟨u',member,rfl,rfl⟩
      exact ⟨rfl,member⟩
    · rintro ⟨rfl,member⟩
      exact ⟨u,member,rfl,rfl⟩
  constructor
  · intro reports u member
    exact reports.observed sourceId u ((announced sourceId u).mpr ⟨rfl,member⟩)
  · intro unknown
    constructor
    · intro source u listed
      obtain ⟨rfl,member⟩ := (announced source u).mp listed
      exact unknown u member
    · intro j now' source answered completed answer same here
      cases same
      cases Option.some.inj (replacing.here.symm.trans here)
      have all : updates.filter (fun u => !known s.inner.inventory.items sourceId u) = updates := by
        rw [List.filter_eq_self]
        intro u member
        simpa using unknown u member
      obtain ⟨bound,-⟩ := List.getElem?_eq_some_iff.mp here
      unfold step
      rw [replaced replacing,all]
      simp [put,returned,bound]

theorem step_exact (s : Registry) (a : Step) (honest : Honest s) : Honest (step s a) ∧ Reports s a ↔ Timely s a := by
  by_cases elsewhere : Elsewhere s a
  · obtain ⟨calm,quiet⟩ := act_calm honest elsewhere
    have after : Honest (step s a) := calm_honest honest ⟨calm.items,calm.dropped⟩
    refine iff_of_true ⟨after,?_,?_⟩ ?_
    · exact fun sourceId u listed => absurd listed (quiet sourceId u)
    · exact fun i now sourceId answeredAt completedAt updates same here => absurd ⟨here⟩ (elsewhere i now sourceId none answeredAt completedAt updates same)
    · exact fun i now sourceId sweep answeredAt completedAt updates same here =>
        absurd ⟨here⟩ (elsewhere i now sourceId sweep answeredAt completedAt updates same)
  · unfold Elsewhere at elsewhere
    push Not at elsewhere
    obtain ⟨i,now,sourceId,sweep,answeredAt,completedAt,updates,rfl,replacing⟩ := elsewhere
    rw [replaced_honest honest replacing now,replaced_reports replacing now]
    constructor
    · rintro ⟨⟨there,later⟩,unknown⟩ j now' source sweep' answered completed answer same here
      cases same
      cases Option.some.inj (replacing.here.symm.trans here)
      exact ⟨there,fun u member => ⟨unknown u member,later u member⟩⟩
    · intro timely
      obtain ⟨there,each⟩ := timely i now sourceId sweep answeredAt completedAt updates rfl replacing.here
      exact ⟨⟨there,fun u member => (each u member).2⟩,fun u member => (each u member).1⟩

theorem new_honest : Honest .new := by
  constructor
  · intro item none_
    cases none_
  · intro item none_
    cases none_

theorem inventory_exact (steps : List Step) :
    Throughout step Honest .new steps ∧ Guarded step Reports .new steps ↔ Guarded step Timely .new steps := by
  rw [throughout_steps,and_iff_right new_honest,← guarded_and]
  apply guarded_iff Honest
  · exact step_exact
  · exact fun s a _ good => good.1
  · exact new_honest

def tidal : UpdateAvailable := ⟨"com.tidal@1.0.0","com.tidal","0.9.0","1.0.0",.routine⟩

-- Unregistered while the source answers; the same answer twice; applied while an answer waits.
def unregisteredInGap : List Step :=
  [.register ⟨1,"plugins"⟩,.checkOne "plugins",.answer 0 5 (.ok [tidal]),.unregister "plugins",.advance 0 6]

def checkedTwice : List Step :=
  [.register ⟨1,"plugins"⟩,.checkOne "plugins",.answer 0 5 (.ok [tidal]),.advance 0 6,.checkOne "plugins",.answer 1 7 (.ok [tidal])]

def appliedInGap : List Step :=
  [.register ⟨1,"plugins"⟩,.checkOne "plugins",.answer 0 5 (.ok [tidal]),.apply "plugins" "com.tidal@1.0.0" ⟨false,none⟩,.advance 1 6,
    .apply_ 1 (.ok ⟨"com.tidal@1.0.0","com.tidal","1.0.0",false⟩),.advance 1 7,.advance 0 8]

theorem gaps_break_inventory :
    (¬∀ steps,Throughout step Honest .new steps ∧ Guarded step Reports .new steps) ∧ ¬Honest (run step .new unregisteredInGap) ∧
      ¬Reports (run step .new checkedTwice) (.advance 1 8) ∧ ¬Honest (run step .new appliedInGap) := by
  have orphaned : ¬Honest (run step .new unregisteredInGap) := by
    intro honest
    have items : (run step .new unregisteredInGap).inner.inventory.items = [⟨"plugins",tidal,5,2⟩] := by decide
    obtain ⟨source,found⟩ := honest.registered ⟨"plugins",tidal,5,2⟩ (by rw [items]; exact List.mem_cons_self)
    have none_ : get (run step .new unregisteredInGap).inner.sources "plugins" = none := by decide
    cases none_.symm.trans found
  refine ⟨fun always => orphaned (throughout_final (always unregisteredInGap).1),orphaned,?_,?_⟩
  · intro reports
    have announced : .updateAvailableObserved "plugins" tidal ∈ (act (run step .new checkedTwice) (.advance 1 8)).2 := by decide
    exact reports.observed "plugins" tidal announced (by decide)
  · intro honest
    have items : (run step .new appliedInGap).inner.inventory.items = [⟨"plugins",tidal,5,2⟩] := by decide
    have listed : (run step .new appliedInGap).dropped = [⟨"plugins","com.tidal@1.0.0",5⟩] := rfl
    have late := honest.current ⟨"plugins",tidal,5,2⟩ (by rw [items]; exact List.mem_cons_self) ⟨"plugins","com.tidal@1.0.0",5⟩
      (by rw [listed]; exact List.mem_cons_self) rfl rfl
    revert late
    decide

end EvoCore.Updates
