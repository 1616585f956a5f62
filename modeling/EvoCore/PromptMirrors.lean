import EvoCore.Prompts

namespace EvoCore.Prompts
open Runs Tables

namespace Mirrors

variable {ρ ω : Type}

inductive PersistedPromptState where
  | opened
  | answered
  | cancelled
  | timedOut
  deriving DecidableEq,Repr

structure PersistedPrompt where
  plugin : String
  promptId : String
  requestJson : String
  state : PersistedPromptState
  deadlineUtcMs : Nat
  createdAtMs : Nat
  updatedAtMs : Nat
  deriving DecidableEq,Repr

abbrev Prompts := Table PromptKey PersistedPrompt

def recordPromptIssue (prompts : Prompts) (key : PromptKey) (requestJson : String) (deadlineUtcMs nowMs : Nat) : Prompts :=
  let createdAtMs := ((get prompts key).map (·.createdAtMs)).getD nowMs
  prompts.insert key ⟨key.1,key.2,requestJson,.opened,deadlineUtcMs,createdAtMs,nowMs⟩

def updatePromptState (prompts : Prompts) (key : PromptKey) (state : PersistedPromptState) (nowMs : Nat) : Prompts :=
  modify prompts key fun entry => { entry with state := state,updatedAtMs := nowMs }

def listOpenPrompts (prompts : Prompts) : List PersistedPrompt :=
  ((prompts.entries.map (·.2)).filter fun p => decide (p.state = .opened)).mergeSort fun a b => decide (a.createdAtMs ≤ b.createdAtMs)

inductive TomlValue where
  | string (text : String)
  | other
  deriving DecidableEq,Repr

inductive UiSize where
  | full
  deriving DecidableEq,Repr

structure UiStocking where
  uiShelf : String
  widget : String
  size : UiSize
  parameters : List (String × TomlValue)
  schemaVersion : Nat
  priority : Option UiStockingPriority
  deriving DecidableEq,Repr

abbrev AdmittedStockings := Table String (List UiStocking)

def addStocking (admitted : AdmittedStockings) (plugin : String) (stocking : UiStocking) : AdmittedStockings × Nat :=
  let stockings := (get admitted plugin).getD []++[stocking]
  (admitted.insert plugin stockings,(stockings.filter fun s => decide (s.uiShelf = stocking.uiShelf)).length)

def removeStockingMatching (admitted : AdmittedStockings) (plugin : String) (predicate : UiStocking → Bool) :
    AdmittedStockings × List UiStocking :=
  match get admitted plugin with
  | none => (admitted,[])
  | some stockings =>
    let removed := stockings.filter predicate
    let kept := stockings.filter fun s => !predicate s
    if kept = [] then (admitted.erase plugin,removed) else (admitted.insert plugin kept,removed)

def promptsActiveShelfId : String := "prompts.active"

def widgetKindForPromptType : PromptType → String
  | .text => "evo.prompt.text"
  | .password => "evo.prompt.password"
  | .select => "evo.prompt.select"
  | .selectWithOther => "evo.prompt.select_with_other"
  | .multiSelect => "evo.prompt.multi_select"
  | .confirm => "evo.prompt.confirm"
  | .multiField => "evo.prompt.multi_field"
  | .externalRedirect => "evo.prompt.external_redirect"
  | .dateTime => "evo.prompt.datetime"
  | .freeform => "evo.prompt.freeform"

-- The happenings that the two widget tasks emit after their write are left out.
def stockPromptWidget (admitted : AdmittedStockings) (plugin widgetKind promptId : String) (priority : Option UiStockingPriority) :
    AdmittedStockings :=
  (addStocking admitted plugin ⟨promptsActiveShelfId,widgetKind,.full,[("prompt_id",.string promptId)],1,priority⟩).1

def promptTag (s : UiStocking) : Option String :=
  match s.parameters.lookup "prompt_id" with
  | some (.string v) => some v
  | _ => none

def unstockPromptWidget (admitted : AdmittedStockings) (plugin promptId : String) : AdmittedStockings :=
  (removeStockingMatching admitted plugin fun s =>
    decide (s.uiShelf = promptsActiveShelfId) && decide (promptTag s = some promptId)).1

structure SerdeJson (ρ : Type) where
  toString : PromptRequest ρ → Option String
  fromStr : String → Option (PromptRequest ρ)

def SerdeJson.RoundTrips (json : SerdeJson ρ) (request : PromptRequest ρ) : Prop :=
  ∃ text,json.toString request = some text ∧ json.fromStr text = some request

inductive Job where
  | recordPromptIssue (key : PromptKey) (requestJson : String) (deadlineUtcMs nowMs : Nat)
  | updatePromptState (key : PromptKey) (state : PersistedPromptState) (nowMs : Nat)
  | stockPromptWidget (plugin widgetKind promptId : String) (priority : Option UiStockingPriority)
  | unstockPromptWidget (plugin promptId : String)
  deriving DecidableEq,Repr

structure Ledger (ρ : Type) where
  entries : Entries ρ
  prompts : Prompts
  admitted : AdmittedStockings
  jobs : List Job

def persisted : PromptState → PersistedPromptState
  | .opened => .opened
  | .answered => .answered
  | .cancelled => .cancelled
  | .timedOut => .timedOut

def issueJobs (json : SerdeJson ρ) (plugin : String) (request : PromptRequest ρ) (effectiveTimeout nowMs : Nat) : List Job :=
  [.recordPromptIssue (plugin,request.promptId) ((json.toString request).getD "\x7b\x7d") (deadlineAt nowMs effectiveTimeout) nowMs,
   .stockPromptWidget plugin (widgetKindForPromptType request.promptType) request.promptId request.priority]

def issue (json : SerdeJson ρ) (ledger : Ledger ρ) (plugin : String) (request : PromptRequest ρ) (effectiveTimeout nowMs : Nat) : Ledger ρ :=
  { ledger with
    entries := issueEntry ledger.entries plugin request nowMs effectiveTimeout
    jobs := ledger.jobs++issueJobs json plugin request effectiveTimeout nowMs }

def transition (ledger : Ledger ρ) (key : PromptKey) (state : PromptState) (nowMs : Nat) : Ledger ρ × Bool :=
  if (transitionTo ledger.entries key state).2 then
    ({ ledger with
        entries := (transitionTo ledger.entries key state).1
        jobs := ledger.jobs++[Job.updatePromptState key (persisted state) nowMs] },true)
  else (ledger,false)

def markAnswered (ledger : Ledger ρ) (key : PromptKey) (nowMs : Nat) : Ledger ρ × Bool := transition ledger key .answered nowMs

def markCancelled (ledger : Ledger ρ) (key : PromptKey) (nowMs : Nat) : Ledger ρ × Bool := transition ledger key .cancelled nowMs

def markTimedOut (ledger : Ledger ρ) (key : PromptKey) (nowMs : Nat) : Ledger ρ × Bool := transition ledger key .timedOut nowMs

def completeWithOutcome (ledger : Ledger ρ) (key : PromptKey) (outcome : PromptOutcome ω) (nowMs : Nat) : Ledger ρ × Bool :=
  let (after,transitioned) := transition ledger key (newState outcome) nowMs
  if transitioned then ({ after with jobs := after.jobs++[Job.unstockPromptWidget key.1 key.2] },true) else (after,false)

def runJob (ledger : Ledger ρ) : Job → Ledger ρ
  | .recordPromptIssue key requestJson deadlineUtcMs nowMs =>
    { ledger with prompts := recordPromptIssue ledger.prompts key requestJson deadlineUtcMs nowMs }
  | .updatePromptState key state nowMs => { ledger with prompts := updatePromptState ledger.prompts key state nowMs }
  | .stockPromptWidget plugin widgetKind promptId priority =>
    { ledger with admitted := stockPromptWidget ledger.admitted plugin widgetKind promptId priority }
  | .unstockPromptWidget plugin promptId => { ledger with admitted := unstockPromptWidget ledger.admitted plugin promptId }

inductive Action (ρ ω : Type) where
  | issue (plugin : String) (request : PromptRequest ρ) (effectiveTimeout nowMs : Nat)
  | completeWithOutcome (key : PromptKey) (outcome : PromptOutcome ω) (nowMs : Nat)
  | markAnswered (key : PromptKey) (nowMs : Nat)
  | markCancelled (key : PromptKey) (nowMs : Nat)
  | markTimedOut (key : PromptKey) (nowMs : Nat)
  | runJob (i : Nat)

def step (json : SerdeJson ρ) (ledger : Ledger ρ) : Action ρ ω → Ledger ρ
  | .issue plugin request effectiveTimeout nowMs => issue json ledger plugin request effectiveTimeout nowMs
  | .completeWithOutcome key outcome nowMs => (completeWithOutcome ledger key outcome nowMs).1
  | .markAnswered key nowMs => (markAnswered ledger key nowMs).1
  | .markCancelled key nowMs => (markCancelled ledger key nowMs).1
  | .markTimedOut key nowMs => (markTimedOut ledger key nowMs).1
  | .runJob i =>
    match ledger.jobs[i]? with
    | none => ledger
    | some job => { runJob ledger job with jobs := ledger.jobs.eraseIdx i }

structure Boot (ρ : Type) where
  entries : Entries ρ
  prompts : Prompts
  restored : Nat

def rehydrateRow (json : SerdeJson ρ) (nowMs : Nat) (boot : Boot ρ) (row : PersistedPrompt) : Boot ρ :=
  match json.fromStr row.requestJson with
  | none => boot
  | some request =>
    if row.deadlineUtcMs ≤ nowMs then
      { boot with prompts := updatePromptState boot.prompts (row.plugin,row.promptId) .timedOut nowMs }
    else
      { boot with
        entries := boot.entries.insert (row.plugin,row.promptId) ⟨row.plugin,request,.opened,nowMs+(row.deadlineUtcMs-nowMs)⟩
        restored := boot.restored+1 }

def rehydrateFromPersistence (json : SerdeJson ρ) (nowMs : Nat) (prompts : Prompts) : Boot ρ :=
  (listOpenPrompts prompts).foldl (rehydrateRow json nowMs) ⟨∅,prompts,0⟩

def rowOpen (prompts : Prompts) (key : PromptKey) : Bool :=
  match get prompts key with
  | some row => decide (row.state = .opened)
  | none => false

-- The row is open exactly where the entry is, and a boot brings back the open prompts whose deadline is to come.
def RowsMirror (json : SerdeJson ρ) (ledger : Ledger ρ) : Prop :=
  (∀ key,rowOpen ledger.prompts key = isOpen ledger.entries key) ∧
  ∀ nowMs key,get (rehydrateFromPersistence json nowMs ledger.prompts).entries key =
    (get ledger.entries key).filter fun entry => decide (entry.state = .opened) && decide (nowMs < entry.deadline)

def onShelf (admitted : AdmittedStockings) (plugin : String) : List (Option String) :=
  (((get admitted plugin).getD []).filter fun s => decide (s.uiShelf = promptsActiveShelfId)).map promptTag

-- One stocking of the shelf for each open prompt and no other.
def ShelfMirrors (ledger : Ledger ρ) : Prop :=
  ∀ plugin,none ∉ onShelf ledger.admitted plugin ∧
    ∀ promptId,(onShelf ledger.admitted plugin).count (some promptId) = if isOpen ledger.entries (plugin,promptId) then 1 else 0

def Job.rowKey : Job → Option PromptKey
  | .recordPromptIssue key _ _ _ | .updatePromptState key _ _ => some key
  | .stockPromptWidget _ _ _ _ | .unstockPromptWidget _ _ => none

def Job.shelfKey : Job → Option PromptKey
  | .recordPromptIssue _ _ _ _ | .updatePromptState _ _ _ => none
  | .stockPromptWidget plugin _ promptId _ | .unstockPromptWidget plugin promptId => some (plugin,promptId)

-- No write to the same mirror of the same prompt was spawned earlier and is still to run.
def InTurn (mirror : Job → Option PromptKey) (jobs : List Job) (i : Nat) : Prop :=
  ∀ job ∈ jobs[i]?,∀ key ∈ mirror job,∀ earlier ∈ jobs.take i,mirror earlier ≠ some key

def RowsInTurn (ledger : Ledger ρ) : Action ρ ω → Prop
  | .runJob i => InTurn Job.rowKey ledger.jobs i
  | _ => True

def ShelfInTurn (ledger : Ledger ρ) : Action ρ ω → Prop
  | .runJob i => InTurn Job.shelfKey ledger.jobs i
  | .issue plugin request _ _ => isOpen ledger.entries (plugin,request.promptId) = false
  | .completeWithOutcome _ _ _ => True
  | .markAnswered key _ | .markCancelled key _ | .markTimedOut key _ => isOpen ledger.entries key = false

section Replay

variable {σ β : Type} {effect : σ → β → σ}

-- Running one of the pending writes early changes nothing when those before it leave the place alone.
theorem replay_early (state : σ) (idle : ∀ job ∈ before,∀ s,effect s job = s) :
    (before++after).foldl effect (effect state job) = (before++job::after).foldl effect state := by
  have skips : ∀ s,before.foldl effect s = s := by
    intro s
    induction before with
    | nil => rfl
    | cons first rest ih =>
      rw [List.foldl_cons,idle first List.mem_cons_self]
      exact ih fun other member => idle other (List.mem_cons_of_mem _ member)
  rw [List.foldl_append,List.foldl_append,skips,skips]
  rfl

theorem replay_absent (state : σ) (idle : ∀ s,effect s job = s) :
    (before++after).foldl effect state = (before++job::after).foldl effect state := by
  rw [List.foldl_append,List.foldl_append,List.foldl_cons,idle]

end Replay

section Rows

variable {json : SerdeJson ρ} {ledger : Ledger ρ}

def rowEffect (key : PromptKey) (row : Option PersistedPrompt) : Job → Option PersistedPrompt
  | .recordPromptIssue own requestJson deadlineUtcMs nowMs =>
    if key = own then some ⟨own.1,own.2,requestJson,.opened,deadlineUtcMs,(row.map (·.createdAtMs)).getD nowMs,nowMs⟩ else row
  | .updatePromptState own state nowMs => if key = own then row.map fun entry => { entry with state := state,updatedAtMs := nowMs } else row
  | .stockPromptWidget _ _ _ _ | .unstockPromptWidget _ _ => row

theorem rowEffect_other (other : job.rowKey ≠ some key) (row : Option PersistedPrompt) : rowEffect key row job = row := by
  cases job with
  | recordPromptIssue own requestJson deadlineUtcMs nowMs =>
    have apart : key ≠ own := fun same => other (by rw [same]; rfl)
    simp [rowEffect,apart]
  | updatePromptState own state nowMs =>
    have apart : key ≠ own := fun same => other (by rw [same]; rfl)
    simp [rowEffect,apart]
  | stockPromptWidget plugin widgetKind promptId priority => rfl
  | unstockPromptWidget plugin promptId => rfl

theorem runJob_row (ledger : Ledger ρ) (job : Job) (key : PromptKey) :
    get (runJob ledger job).prompts key = rowEffect key (get ledger.prompts key) job := by
  cases job with
  | recordPromptIssue own requestJson deadlineUtcMs nowMs =>
    simp only [runJob,recordPromptIssue,get_insert,rowEffect]
    split
    · rename_i same
      rw [same]
    · rfl
  | updatePromptState own state nowMs =>
    simp only [runJob,updatePromptState,get_modify,rowEffect]
    split
    · rename_i same
      rw [same]
    · rfl
  | stockPromptWidget plugin widgetKind promptId priority => rfl
  | unstockPromptWidget plugin promptId => rfl

def owedRow (ledger : Ledger ρ) (key : PromptKey) : Option PersistedPrompt :=
  ledger.jobs.foldl (rowEffect key) (get ledger.prompts key)

def Matches (json : SerdeJson ρ) (key : PromptKey) (entry : Option (PromptEntry ρ)) (row : Option PersistedPrompt) : Prop :=
  match entry,row with
  | none,none => True
  | some e,some r => (r.state = .opened ↔ e.state = .opened) ∧ (r.plugin,r.promptId) = key ∧ e.plugin = key.1 ∧
      (e.state = .opened → json.fromStr r.requestJson = some e.request ∧ r.deadlineUtcMs = e.deadline)
  | _,_ => False

-- Once the pending writes have run in the order they were spawned the rows are those of the entries.
def RowsOwed (json : SerdeJson ρ) (ledger : Ledger ρ) : Prop := ∀ key,Matches json key (get ledger.entries key) (owedRow ledger key)

theorem inTurn_split (turn : InTurn mirror jobs i) (there : jobs[i]? = some job) : ∃ before after,jobs = before++job::after ∧
    jobs.eraseIdx i = before++after ∧ ∀ key,mirror job = some key → ∀ earlier ∈ before,mirror earlier ≠ some key := by
  obtain ⟨bound,at'⟩ := List.getElem?_eq_some_iff.mp there
  refine ⟨jobs.take i,jobs.drop (i+1),?_,List.eraseIdx_eq_take_drop_succ _ _,?_⟩
  · rw [← at',List.cons_getElem_drop_succ,List.take_append_drop]
  · exact fun key own earlier member => turn job there key own earlier member

theorem runJob_owedRow (turn : InTurn Job.rowKey ledger.jobs i) (there : ledger.jobs[i]? = some job) (key : PromptKey) :
    owedRow { runJob ledger job with jobs := ledger.jobs.eraseIdx i } key = owedRow ledger key := by
  obtain ⟨before,after,jobs,erased,first⟩ := inTurn_split turn there
  unfold owedRow
  simp only
  rw [erased,jobs,runJob_row]
  by_cases own : job.rowKey = some key
  · exact replay_early _ fun earlier member row => rowEffect_other (first key own earlier member) row
  · rw [rowEffect_other own]
    exact replay_absent _ fun row => rowEffect_other own row

theorem issue_owed (owed : RowsOwed json ledger) (trips : json.RoundTrips request) :
    RowsOwed json (issue json ledger plugin request effectiveTimeout nowMs) := by
  intro key
  obtain ⟨text,written,back⟩ := trips
  have row : owedRow (issue json ledger plugin request effectiveTimeout nowMs) key =
      rowEffect key (owedRow ledger key) (.recordPromptIssue (plugin,request.promptId) text (deadlineAt nowMs effectiveTimeout) nowMs) := by
    simp only [owedRow,issue,issueJobs,List.foldl_append,List.foldl_cons,List.foldl_nil,written,Option.getD_some]
    rfl
  rw [row]
  simp only [issue,issueEntry,get_insert,rowEffect]
  by_cases same : key = (plugin,request.promptId)
  · rw [if_pos same,if_pos same]
    exact ⟨by simp,same.symm,by rw [same],fun _ => ⟨back,rfl⟩⟩
  · rw [if_neg same,if_neg same]
    exact owed key

theorem persisted_terminal (terminal : state ≠ .opened) : persisted state ≠ .opened := by
  cases state with
  | opened => exact absurd rfl terminal
  | _ => exact fun absurdity => nomatch absurdity

theorem transition_owed (key : PromptKey) (nowMs : Nat) (owed : RowsOwed json ledger) (terminal : state ≠ .opened) :
    RowsOwed json (transition ledger key state nowMs).1 := by
  unfold transition transitionTo
  by_cases opened : isOpen ledger.entries key = true
  · simp only [opened,if_true]
    intro other
    have before := owed other
    simp only [owedRow,List.foldl_append,List.foldl_cons,List.foldl_nil,rowEffect,get_modify] at before ⊢
    by_cases same : other = key
    · subst same
      rw [if_pos rfl,if_pos rfl]
      obtain ⟨entry,there,-⟩ := (isOpen_entry _ _).mp opened
      rw [there] at before ⊢
      cases row : ledger.jobs.foldl (rowEffect other) (get ledger.prompts other) with
      | none =>
        rw [row] at before
        exact before
      | some r =>
        rw [row] at before
        obtain ⟨-,keyed,plugin,-⟩ := before
        refine ⟨⟨fun stays => absurd stays (persisted_terminal terminal),fun stays => absurd stays terminal⟩,keyed,plugin,?_⟩
        exact fun stays => absurd stays terminal
    · rw [if_neg same,if_neg same]
      exact before
  · simpa [opened] using owed

theorem complete_owed (owed : RowsOwed json ledger) : RowsOwed json (completeWithOutcome ledger key (outcome : PromptOutcome ω) nowMs).1 := by
  have after := transition_owed key nowMs owed (newState_terminal outcome)
  unfold completeWithOutcome
  simp only
  split
  · intro other
    have row : owedRow { (transition ledger key (newState outcome) nowMs).1 with
        jobs := (transition ledger key (newState outcome) nowMs).1.jobs++[Job.unstockPromptWidget key.1 key.2] } other =
          owedRow (transition ledger key (newState outcome) nowMs).1 other := by
      simp only [owedRow,List.foldl_append,List.foldl_cons,List.foldl_nil]
      rfl
    rw [row]
    exact after other
  · exact after

def issued : Action ρ ω → List (PromptRequest ρ)
  | .issue _ request _ _ => [request]
  | _ => []

theorem step_owed (owed : RowsOwed json ledger) (action : Action ρ ω) (trips : ∀ request ∈ issued action,json.RoundTrips request)
    (turn : RowsInTurn ledger action) : RowsOwed json (step json ledger action) := by
  cases action with
  | issue plugin request effectiveTimeout nowMs => exact issue_owed owed (trips request List.mem_cons_self)
  | completeWithOutcome key outcome nowMs => exact complete_owed owed
  | markAnswered key nowMs => exact transition_owed key nowMs owed (fun absurdity => nomatch absurdity)
  | markCancelled key nowMs => exact transition_owed key nowMs owed (fun absurdity => nomatch absurdity)
  | markTimedOut key nowMs => exact transition_owed key nowMs owed (fun absurdity => nomatch absurdity)
  | runJob i =>
    simp only [step]
    cases there : ledger.jobs[i]? with
    | none => exact owed
    | some job =>
      intro key
      simp only
      rw [runJob_owedRow turn there]
      cases job <;> exact owed key

def rowKey (row : PersistedPrompt) : PromptKey := (row.plugin,row.promptId)

def revived (json : SerdeJson ρ) (nowMs : Nat) (row : PersistedPrompt) : Option (PromptEntry ρ) :=
  (json.fromStr row.requestJson).bind fun request =>
    if row.deadlineUtcMs ≤ nowMs then none else some ⟨row.plugin,request,.opened,nowMs+(row.deadlineUtcMs-nowMs)⟩

theorem rehydrateRow_loads (json : SerdeJson ρ) (nowMs : Nat) :
    Loads (fun boot key => get boot.entries key) (rehydrateRow json nowMs) rowKey (revived json nowMs) := by
  intro boot row key
  unfold rehydrateRow revived
  cases json.fromStr row.requestJson with
  | none => simp
  | some request =>
    by_cases late : row.deadlineUtcMs ≤ nowMs
    · simp [late]
    · simp [late,rowKey]

theorem listed_open {prompts : Prompts} : row ∈ listOpenPrompts prompts ↔ ∃ key,get prompts key = some row ∧ row.state = .opened := by
  simp only [listOpenPrompts,List.mem_mergeSort,List.mem_filter,List.mem_map,decide_eq_true_eq]
  constructor
  · rintro ⟨⟨entry,member,rfl⟩,opened⟩
    exact ⟨entry.1,(entries_get prompts).mp member,opened⟩
  · rintro ⟨key,there,opened⟩
    exact ⟨⟨⟨key,row⟩,(entries_get prompts).mpr there,rfl⟩,opened⟩

theorem listed_apart {prompts : Prompts} (keyed : ∀ key row,get prompts key = some row → rowKey row = key) :
    ((listOpenPrompts prompts).map rowKey).Nodup := by
  have all : ((prompts.entries.map (·.2)).map rowKey).Nodup := by
    have keys : (prompts.entries.map (·.2)).map rowKey = prompts.keys := by
      rw [List.map_map]
      refine List.map_congr_left fun entry member => ?_
      exact keyed entry.1 entry.2 ((entries_get prompts).mp member)
    rw [keys]
    exact prompts.keys_nodup
  have sorted := (List.mergeSort_perm ((prompts.entries.map (·.2)).filter fun p => decide (p.state = .opened))
    fun a b => decide (a.createdAtMs ≤ b.createdAtMs)).map rowKey
  exact sorted.nodup_iff.mpr (all.sublist (List.filter_sublist.map rowKey))

theorem rehydrate_get (matching : ∀ key,Matches json key (get entries key) (get prompts key)) (nowMs : Nat) (key : PromptKey) :
    get (rehydrateFromPersistence json nowMs prompts).entries key =
      (get entries key).filter fun entry => decide (entry.state = .opened) && decide (nowMs < entry.deadline) := by
  have keyed : ∀ key row,get prompts key = some row → rowKey row = key := by
    intro key row there
    have same := matching key
    rw [there] at same
    cases entry : get entries key with
    | none =>
      rw [entry] at same
      cases same
    | some e =>
      rw [entry] at same
      exact same.2.1
  have loads := rehydrateRow_loads json nowMs
  have outside : ∀ key,(∀ row,get prompts key = some row → row.state ≠ .opened) →
      get (rehydrateFromPersistence json nowMs prompts).entries key = none := by
    intro key none
    refine (load_absent loads ?_).trans get_empty
    intro listed
    obtain ⟨row,member,same⟩ := List.mem_map.mp listed
    obtain ⟨own,there,opened⟩ := listed_open.mp member
    have here := keyed own row there
    rw [same] at here
    exact none row (here ▸ there) opened
  have same := matching key
  cases entry : get entries key with
  | none =>
    rw [entry] at same
    refine outside key fun row there => ?_
    rw [there] at same
    cases same
  | some e =>
    rw [entry] at same
    cases row : get prompts key with
    | none =>
      rw [row] at same
      cases same
    | some r =>
      rw [row] at same
      obtain ⟨agree,here,plugin,content⟩ := same
      by_cases opened : e.state = .opened
      · obtain ⟨decodes,deadline⟩ := content opened
        have member : r ∈ listOpenPrompts prompts := listed_open.mpr ⟨key,row,agree.mpr opened⟩
        have found := load_present loads (listed_apart keyed) member (t := ⟨∅,prompts,0⟩) get_empty
        rw [show rowKey r = key from here] at found
        refine found.trans ?_
        have own : r.plugin = e.plugin := by rw [plugin,← here]
        simp only [revived,decodes,Option.bind_some,Option.filter_some,opened,deadline,own,decide_true,Bool.true_and]
        by_cases late : e.deadline ≤ nowMs
        · rw [if_pos late,if_neg (by simpa using late)]
        · rw [if_neg late,if_pos (by simpa using late),Nat.add_sub_cancel' (by omega)]
          exact congrArg some (PromptEntry.ext rfl rfl opened.symm rfl)
      · rw [outside key fun row' there stays => opened (agree.mp (by rw [row] at there; cases there; exact stays))]
        rw [Option.filter_some,if_neg (by simp [opened])]

end Rows

section Shelf

variable {ledger : Ledger ρ}

theorem onShelf_stock (admitted : AdmittedStockings) (plugin widgetKind promptId : String) (priority : Option UiStockingPriority) (other : String) :
    onShelf (stockPromptWidget admitted plugin widgetKind promptId priority) other =
      if other = plugin then onShelf admitted other++[some promptId] else onShelf admitted other := by
  unfold onShelf stockPromptWidget addStocking
  simp only [get_insert]
  by_cases same : other = plugin
  · subst same
    rw [if_pos rfl,if_pos rfl,Option.getD_some,List.filter_append,List.map_append]
    rfl
  · rw [if_neg same,if_neg same]

theorem onShelf_unstock (admitted : AdmittedStockings) (plugin promptId other : String) :
    onShelf (unstockPromptWidget admitted plugin promptId) other =
      if other = plugin then (onShelf admitted other).filter fun tag => decide (tag ≠ some promptId) else onShelf admitted other := by
  have left : (get (unstockPromptWidget admitted plugin promptId) other).getD [] =
      if other = plugin then ((get admitted other).getD []).filter fun s =>
        !(decide (s.uiShelf = promptsActiveShelfId) && decide (promptTag s = some promptId)) else (get admitted other).getD [] := by
    unfold unstockPromptWidget removeStockingMatching
    by_cases same : other = plugin
    · subst same
      cases there : get admitted other with
      | none => simp [there]
      | some stockings =>
        rw [if_pos rfl]
        dsimp only
        split
        · rename_i empty
          rw [get_erase,if_pos rfl]
          exact empty.symm
        · rw [get_insert,if_pos rfl]
          rfl
    · rw [if_neg same]
      cases there : get admitted plugin with
      | none => rfl
      | some stockings =>
        dsimp only
        split
        · rw [get_erase,if_neg same]
        · rw [get_insert,if_neg same]
  unfold onShelf
  rw [left]
  by_cases same : other = plugin
  · rw [if_pos same,if_pos same,List.filter_map,List.filter_filter,List.filter_filter]
    refine congrArg (List.map promptTag) (List.filter_congr fun s _ => ?_)
    by_cases shelved : s.uiShelf = promptsActiveShelfId <;> by_cases tagged : promptTag s = some promptId <;>
      simp [shelved,tagged]
  · rw [if_neg same,if_neg same]

def countEffect (key : PromptKey) (count : Nat) : Job → Nat
  | .stockPromptWidget plugin _ promptId _ => if key = (plugin,promptId) then count+1 else count
  | .unstockPromptWidget plugin promptId => if key = (plugin,promptId) then 0 else count
  | .recordPromptIssue _ _ _ _ | .updatePromptState _ _ _ => count

theorem countEffect_other (other : job.shelfKey ≠ some key) (count : Nat) : countEffect key count job = count := by
  cases job with
  | stockPromptWidget plugin widgetKind promptId priority =>
    have apart : key ≠ (plugin,promptId) := fun same => other (by rw [same]; rfl)
    simp [countEffect,apart]
  | unstockPromptWidget plugin promptId =>
    have apart : key ≠ (plugin,promptId) := fun same => other (by rw [same]; rfl)
    simp [countEffect,apart]
  | recordPromptIssue own requestJson deadlineUtcMs nowMs => rfl
  | updatePromptState own state nowMs => rfl

def stocked (admitted : AdmittedStockings) (key : PromptKey) : Nat := (onShelf admitted key.1).count (some key.2)

theorem runJob_stocked (ledger : Ledger ρ) (job : Job) (key : PromptKey) :
    stocked (runJob ledger job).admitted key = countEffect key (stocked ledger.admitted key) job := by
  obtain ⟨other,tag⟩ := key
  unfold stocked
  cases job with
  | stockPromptWidget plugin widgetKind promptId priority =>
    simp only [runJob,onShelf_stock,countEffect,Prod.mk.injEq]
    by_cases same : other = plugin
    · by_cases tagged : tag = promptId
      · simp [same,tagged]
      · simp [same,tagged,Ne.symm tagged]
    · simp [same]
  | unstockPromptWidget plugin promptId =>
    simp only [runJob,onShelf_unstock,countEffect,Prod.mk.injEq]
    by_cases same : other = plugin
    · by_cases tagged : tag = promptId
      · rw [if_pos same,if_pos ⟨same,tagged⟩,List.count_eq_zero,List.mem_filter]
        simp [tagged]
      · rw [if_pos same,if_neg (fun both => tagged both.2),List.count_filter (by simpa using tagged)]
    · rw [if_neg same,if_neg (fun both => same both.1)]
  | recordPromptIssue own requestJson deadlineUtcMs nowMs => rfl
  | updatePromptState own state nowMs => rfl

theorem runJob_tagged (ledger : Ledger ρ) (job : Job) (plugin : String) (tagged : none ∉ onShelf ledger.admitted plugin) :
    none ∉ onShelf (runJob ledger job).admitted plugin := by
  cases job with
  | stockPromptWidget own widgetKind promptId priority =>
    simp only [runJob,onShelf_stock]
    split
    · simpa using tagged
    · exact tagged
  | unstockPromptWidget own promptId =>
    simp only [runJob,onShelf_unstock]
    split
    · exact fun member => tagged (List.mem_of_mem_filter member)
    · exact tagged
  | recordPromptIssue own requestJson deadlineUtcMs nowMs => exact tagged
  | updatePromptState own state nowMs => exact tagged

def owedCount (ledger : Ledger ρ) (key : PromptKey) : Nat := ledger.jobs.foldl (countEffect key) (stocked ledger.admitted key)

structure ShelfOwed (ledger : Ledger ρ) : Prop where
  tagged : ∀ plugin,none ∉ onShelf ledger.admitted plugin
  counts : ∀ key,owedCount ledger key = if isOpen ledger.entries key then 1 else 0

theorem runJob_owedCount (turn : InTurn Job.shelfKey ledger.jobs i) (there : ledger.jobs[i]? = some job) (key : PromptKey) :
    owedCount { runJob ledger job with jobs := ledger.jobs.eraseIdx i } key = owedCount ledger key := by
  obtain ⟨before,after,jobs,erased,first⟩ := inTurn_split turn there
  unfold owedCount
  simp only
  rw [erased,jobs,runJob_stocked]
  by_cases own : job.shelfKey = some key
  · exact replay_early _ fun earlier member count => countEffect_other (first key own earlier member) count
  · rw [countEffect_other own]
    exact replay_absent _ fun count => countEffect_other own count

theorem transition_closed (closed : isOpen ledger.entries key = false) : (transition ledger key state nowMs).1 = ledger := by
  simp [transition,transitionTo,closed]

theorem step_shelf (json : SerdeJson ρ) (ledger : Ledger ρ) (action : Action ρ ω) (owed : ShelfOwed ledger) (turn : ShelfInTurn ledger action) :
    ShelfOwed (step json ledger action) := by
  cases action with
  | issue plugin request effectiveTimeout nowMs =>
    refine ⟨owed.tagged,fun key => ?_⟩
    have before := owed.counts key
    simp only [step,issue,issueJobs,owedCount,List.foldl_append,List.foldl_cons,List.foldl_nil,countEffect,isOpen_issued] at before ⊢
    rw [before]
    by_cases same : key = (plugin,request.promptId)
    · have closed : isOpen ledger.entries (plugin,request.promptId) = false := turn
      rw [if_pos same,if_pos same,same,closed]
      rfl
    · rw [if_neg same,if_neg same]
  | completeWithOutcome key outcome nowMs =>
    simp only [step,completeWithOutcome,transition,transitionTo]
    by_cases opened : isOpen ledger.entries key = true
    · simp only [opened,if_true]
      refine ⟨owed.tagged,fun other => ?_⟩
      have before := owed.counts other
      have after := isOpen_transition ledger.entries key other (newState_terminal outcome)
      simp only [transitionTo,opened,if_true] at after
      simp only [owedCount,List.foldl_append,List.foldl_cons,List.foldl_nil,countEffect] at before ⊢
      rw [before,after]
      by_cases same : other = key
      · rw [if_pos same,if_pos same]
        rfl
      · rw [if_neg same,if_neg same]
    · simpa [opened] using owed
  | markAnswered key nowMs =>
    simp only [step,markAnswered]
    rw [transition_closed turn]
    exact owed
  | markCancelled key nowMs =>
    simp only [step,markCancelled]
    rw [transition_closed turn]
    exact owed
  | markTimedOut key nowMs =>
    simp only [step,markTimedOut]
    rw [transition_closed turn]
    exact owed
  | runJob i =>
    simp only [step]
    cases there : ledger.jobs[i]? with
    | none => exact owed
    | some job =>
      refine ⟨fun plugin => runJob_tagged ledger job plugin (owed.tagged plugin),fun key => ?_⟩
      simp only
      rw [runJob_owedCount turn there]
      cases job <;> exact owed.counts key

end Shelf

def withPersistence (admitted : AdmittedStockings) : Ledger ρ := ⟨∅,∅,admitted,[]⟩

theorem owed_rows (json : SerdeJson ρ) (ledger : Ledger ρ) (owed : RowsOwed json ledger) (done : ledger.jobs = []) : RowsMirror json ledger := by
  have matching : ∀ key,Matches json key (get ledger.entries key) (get ledger.prompts key) := by
    intro key
    have same := owed key
    rw [owedRow,done] at same
    exact same
  refine ⟨fun key => ?_,fun nowMs key => rehydrate_get matching nowMs key⟩
  have same := matching key
  unfold rowOpen isOpen
  cases entry : get ledger.entries key with
  | none =>
    cases row : get ledger.prompts key with
    | none => rfl
    | some r =>
      rw [entry,row] at same
      cases same
  | some e =>
    cases row : get ledger.prompts key with
    | none =>
      rw [entry,row] at same
      cases same
    | some r =>
      rw [entry,row] at same
      exact decide_eq_decide.mpr same.1

theorem owed_shelf (ledger : Ledger ρ) (owed : ShelfOwed ledger) (done : ledger.jobs = []) : ShelfMirrors ledger := by
  refine fun plugin => ⟨owed.tagged plugin,fun promptId => ?_⟩
  have same := owed.counts (plugin,promptId)
  rw [owedCount,done] at same
  exact same

-- Rows follow the entries when each prompt's row writes run in the order they were spawned; the shelf
-- follows them when its writes do, no open prompt is issued again and none is closed by a bare mark.
theorem mirrors_converge (json : SerdeJson ρ) (admitted : AdmittedStockings) (bare : ∀ plugin,onShelf admitted plugin = [])
    (actions : List (Action ρ ω)) (trips : ∀ action ∈ actions,∀ request ∈ issued action,json.RoundTrips request) :
    (Guarded (step json) RowsInTurn (withPersistence admitted) actions →
      Throughout (step json) (fun ledger => ledger.jobs = [] → RowsMirror json ledger) (withPersistence admitted) actions) ∧
    (Guarded (step json) ShelfInTurn (withPersistence admitted) actions →
      Throughout (step json) (fun ledger => ledger.jobs = [] → ShelfMirrors ledger) (withPersistence admitted) actions) := by
  constructor
  · intro turns
    have start : RowsOwed json (withPersistence admitted : Ledger ρ) := by
      intro key
      simp [withPersistence,owedRow,Matches]
    generalize withPersistence admitted = ledger at turns start ⊢
    induction actions generalizing ledger with
    | nil => exact owed_rows json ledger start
    | cons action rest ih =>
      refine ⟨owed_rows json ledger start,ih (fun other member => trips other (List.mem_cons_of_mem _ member)) _ turns.2 ?_⟩
      exact step_owed start action (trips action List.mem_cons_self) turns.1
  · intro turns
    have start : ShelfOwed (withPersistence admitted : Ledger ρ) := by
      refine ⟨fun plugin => ?_,fun key => ?_⟩
      · simp [withPersistence,bare plugin]
      · simp [withPersistence,owedCount,stocked,bare key.1,isOpen]
    have all := guarded_keeps (step_shelf json) start turns
    rw [throughout_prefixes] at all ⊢
    exact fun k => owed_shelf _ (all k)

section Schedules

instance (mirror : Job → Option PromptKey) (jobs : List Job) (i : Nat) : Decidable (InTurn mirror jobs i) :=
  inferInstanceAs (Decidable (∀ job ∈ jobs[i]?,∀ key ∈ mirror job,∀ earlier ∈ jobs.take i,mirror earlier ≠ some key))

instance (ledger : Ledger ρ) : DecidablePred (RowsInTurn (ω := ω) ledger)
  | .runJob i => inferInstanceAs (Decidable (InTurn Job.rowKey ledger.jobs i))
  | .issue _ _ _ _ | .completeWithOutcome _ _ _ | .markAnswered _ _ | .markCancelled _ _ | .markTimedOut _ _ => isTrue trivial

instance (ledger : Ledger ρ) : DecidablePred (ShelfInTurn (ω := ω) ledger)
  | .runJob i => inferInstanceAs (Decidable (InTurn Job.shelfKey ledger.jobs i))
  | .issue plugin request _ _ => inferInstanceAs (Decidable (isOpen ledger.entries (plugin,request.promptId) = false))
  | .completeWithOutcome _ _ _ => isTrue trivial
  | .markAnswered key _ | .markCancelled key _ | .markTimedOut key _ => inferInstanceAs (Decidable (isOpen ledger.entries key = false))

-- The content of a password prompt is its label.
def passphrase : PromptRequest String := ⟨"p-1",.password,none,"Key"⟩

def passphraseText : String := "\x7b\"prompt_id\":\"p-1\",\"prompt_type\":\x7b\"kind\":\"password\",\"label\":\"Key\"\x7d\x7d"

-- serde_json on that request, the only one issued below.
def passphraseJson : SerdeJson String where
  toString request := if request = passphrase then some passphraseText else none
  fromStr s := if s = passphraseText then some passphrase else none

def ask : Action String String := .issue "org.test" passphrase 60000 0

def reply : Action String String := .completeWithOutcome ("org.test","p-1") (.answered "secret") 5

-- Answered, asked again; each mirror in its own order, the shelf ahead of the rows.
def interleaved : List (Action String String) :=
  [ask,reply,ask,.runJob 1,.runJob 2,.runJob 0,.runJob 2,.runJob 0,.runJob 0]

theorem interleaved_converges : (run (step passphraseJson) (withPersistence ∅) interleaved).jobs = [] ∧
    RowsMirror passphraseJson (run (step passphraseJson) (withPersistence ∅) interleaved) ∧
    ShelfMirrors (run (step passphraseJson) (withPersistence ∅) interleaved) := by
  have done : (run (step passphraseJson) (withPersistence ∅) interleaved).jobs = [] := by decide
  have trips : ∀ action ∈ interleaved,∀ request ∈ issued action,passphraseJson.RoundTrips request := by
    have only : ∀ action ∈ interleaved,∀ request ∈ issued action,request = passphrase := by
      simp [interleaved,issued,ask,reply]
    intro action member request asked
    rw [only action member request asked]
    exact ⟨passphraseText,by simp [passphraseJson],by simp [passphraseJson]⟩
  have converge := mirrors_converge passphraseJson ∅ (fun _ => rfl) interleaved trips
  exact ⟨done,throughout_final (converge.1 (by decide)) done,throughout_final (converge.2 (by decide)) done⟩

-- The state write overtakes the write of the issue and finds no row.
def overtaken : List (Action String String) := [ask,reply,.runJob 2,.runJob 0,.runJob 0,.runJob 0]

-- Asked twice while open, and closed by the timeout mark; every task runs at once.
def doubled : List (Action String String) := [ask,.runJob 0,.runJob 0,ask,.runJob 0,.runJob 0]

def marked : List (Action String String) := [ask,.runJob 0,.runJob 0,.markTimedOut ("org.test","p-1") 60000,.runJob 0]

theorem mirrors_diverge : (∀ actions ∈ [overtaken,doubled,marked],(run (step passphraseJson) (withPersistence ∅) actions).jobs = []) ∧
    ¬ RowsMirror passphraseJson (run (step passphraseJson) (withPersistence ∅) overtaken) ∧
    ¬ ShelfMirrors (run (step passphraseJson) (withPersistence ∅) doubled) ∧
    ¬ ShelfMirrors (run (step passphraseJson) (withPersistence ∅) marked) := by
  have rows : rowOpen (run (step passphraseJson) (withPersistence ∅) overtaken).prompts ("org.test","p-1") = true ∧
      isOpen (run (step passphraseJson) (withPersistence ∅) overtaken).entries ("org.test","p-1") = false := by decide
  have twice : (onShelf (run (step passphraseJson) (withPersistence ∅) doubled).admitted "org.test").count (some "p-1") = 2 := by decide
  have stays : (onShelf (run (step passphraseJson) (withPersistence ∅) marked).admitted "org.test").count (some "p-1") = 1 ∧
      isOpen (run (step passphraseJson) (withPersistence ∅) marked).entries ("org.test","p-1") = false := by decide
  refine ⟨by decide,fun mirror => ?_,fun mirror => ?_,fun mirror => ?_⟩
  · have same := mirror.1 ("org.test","p-1")
    rw [rows.1,rows.2] at same
    cases same
  · have same := (mirror "org.test").2 "p-1"
    rw [twice] at same
    split at same <;> cases same
  · have same := (mirror "org.test").2 "p-1"
    rw [stays.1,stays.2] at same
    cases same

end Schedules

end Mirrors

end EvoCore.Prompts
