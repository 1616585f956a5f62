import EvoCore.Prompts

namespace EvoCore.Prompts
open Runs Tables

namespace Waiters

variable {ρ ω : Type}

inductive Call (ρ ω : Type) where
  | issue (plugin : String) (request : PromptRequest ρ) (effectiveTimeout : Nat)
  | issueWithWaiter (plugin : String) (request : PromptRequest ρ) (effectiveTimeout : Nat)
  | completeWithOutcome (plugin promptId : String) (outcome : PromptOutcome ω)
  deriving DecidableEq,Repr

def Call.key : Call ρ ω → PromptKey
  | .issue plugin request _ | .issueWithWaiter plugin request _ => (plugin,request.promptId)
  | .completeWithOutcome plugin promptId _ => (plugin,promptId)

def Call.isIssue : Call ρ ω → Bool
  | .issue _ _ _ | .issueWithWaiter _ _ _ => true
  | .completeWithOutcome _ _ _ => false

def Call.outcome : Call ρ ω → Option (PromptOutcome ω)
  | .completeWithOutcome _ _ outcome => some outcome
  | _ => none

-- An issue is named by the call that made it. A completing call carries the issue it moved out of Open.
inductive Answer where
  | deadline (time : Nat)
  | completed (issue : Option Nat)
  deriving DecidableEq,Repr

inductive Stage where
  | begun
  | issued (deadline : Nat)
  | transitioned (issue : Nat)
  | finished (answer : Answer)
  deriving DecidableEq,Repr

structure Task (ρ ω : Type) where
  call : Call ρ ω
  now : Nat
  stage : Stage
  deriving DecidableEq,Repr

-- The oneshot channel of a call: what its receiver got, and whether the sender went without sending.
structure Channel (ω : Type) where
  inbox : List (PromptOutcome ω)
  closed : Bool
  deriving DecidableEq,Repr

structure Ledger (ρ ω : Type) where
  entries : Entries ρ
  issues : Table PromptKey Nat
  waiters : Table PromptKey Nat
  channels : Table Nat (Channel ω)
  tasks : List (Task ρ ω)

def new : Ledger ρ ω := ⟨∅,∅,∅,∅,[]⟩

def dropSender (channels : Table Nat (Channel ω)) (sender : Option Nat) : Table Nat (Channel ω) :=
  match sender with
  | some j => modify channels j fun channel => { channel with closed := true }
  | none => channels

def send (channels : Table Nat (Channel ω)) (sender : Option Nat) (outcome : PromptOutcome ω) : Table Nat (Channel ω) :=
  match sender with
  | some j => modify channels j fun channel => { channel with inbox := channel.inbox++[outcome] }
  | none => channels

-- The entry goes in and the waiter of the previous version goes out under both locks.
def insertIssue (ledger : Ledger ρ ω) (i : Nat) (plugin : String) (request : PromptRequest ρ) (now effectiveTimeout : Nat) : Ledger ρ ω :=
  let key := (plugin,request.promptId)
  { ledger with
    entries := issueEntry ledger.entries plugin request now effectiveTimeout
    issues := ledger.issues.insert key i
    waiters := ledger.waiters.erase key
    channels := dropSender ledger.channels (get ledger.waiters key) }

-- A new channel; the sender that the map held is dropped.
def registerWaiter (ledger : Ledger ρ ω) (i : Nat) (key : PromptKey) : Ledger ρ ω :=
  { ledger with
    waiters := ledger.waiters.insert key i
    channels := (dropSender ledger.channels (get ledger.waiters key)).insert i ⟨[],false⟩ }

def fireWaiter (ledger : Ledger ρ ω) (key : PromptKey) (outcome : PromptOutcome ω) : Ledger ρ ω :=
  { ledger with
    waiters := ledger.waiters.erase key
    channels := send ledger.channels (get ledger.waiters key) outcome }

def taskStep (ledger : Ledger ρ ω) (i : Nat) (task : Task ρ ω) : Ledger ρ ω × Stage :=
  match task.call,task.stage with
  | .issue plugin request effectiveTimeout,.begun =>
    (insertIssue ledger i plugin request task.now effectiveTimeout,.finished (.deadline (deadlineAt task.now effectiveTimeout)))
  | .issueWithWaiter plugin request effectiveTimeout,.begun =>
    (insertIssue ledger i plugin request task.now effectiveTimeout,.issued (deadlineAt task.now effectiveTimeout))
  | .issueWithWaiter plugin request _,.issued deadline =>
    (registerWaiter ledger i (plugin,request.promptId),.finished (.deadline deadline))
  | .completeWithOutcome plugin promptId outcome,.begun =>
    let (entries,transitioned) := transitionTo ledger.entries (plugin,promptId) (newState outcome)
    if transitioned then ({ ledger with entries := entries },.transitioned ((get ledger.issues (plugin,promptId)).getD 0))
    else (ledger,.finished (.completed none))
  | .completeWithOutcome plugin promptId outcome,.transitioned issue =>
    (fireWaiter ledger (plugin,promptId) outcome,.finished (.completed (some issue)))
  | _,stage => (ledger,stage)

inductive Action (ρ ω : Type) where
  | call (call : Call ρ ω) (now : Nat)
  | advance (i : Nat)

def advance (ledger : Ledger ρ ω) (i : Nat) : Ledger ρ ω :=
  match ledger.tasks[i]? with
  | none => ledger
  | some task => { (taskStep ledger i task).1 with tasks := ledger.tasks.set i { task with stage := (taskStep ledger i task).2 } }

def step (ledger : Ledger ρ ω) : Action ρ ω → Ledger ρ ω
  | .call call now => { ledger with tasks := ledger.tasks++[⟨call,now,.begun⟩] }
  | .advance i => advance ledger i

-- Call `c` moved issue `j` out of Open with its outcome.
def Task.moved (task : Task ρ ω) (j : Nat) (outcome : PromptOutcome ω) : Prop :=
  task.call.outcome = some outcome ∧ (task.stage = .transitioned j ∨ task.stage = .finished (.completed (some j)))

def Moved (ledger : Ledger ρ ω) (c j : Nat) (outcome : PromptOutcome ω) : Prop :=
  ∃ task,ledger.tasks[c]? = some task ∧ task.moved j outcome

def Current (ledger : Ledger ρ ω) (j : Nat) : Prop :=
  ∃ task,ledger.tasks[j]? = some task ∧ get ledger.issues task.call.key = some j

def OpenIssue (ledger : Ledger ρ ω) (j : Nat) : Prop :=
  ∃ task,ledger.tasks[j]? = some task ∧ get ledger.issues task.call.key = some j ∧ isOpen ledger.entries task.call.key = true

def Completing (ledger : Ledger ρ ω) (j : Nat) : Prop := ∃ task ∈ ledger.tasks,task.stage = .transitioned j

-- Every receiver: fired once by the call that moved its issue, closed because the prompt was issued
-- again, or pending with its issue open or its completion under way.
structure Delivered (ledger : Ledger ρ ω) : Prop where
  once : ∀ j channel,get ledger.channels j = some channel → channel.inbox ≠ [] →
    ∃ c outcome,channel = ⟨[outcome],false⟩ ∧ Moved ledger c j outcome ∧ (∀ c' other,Moved ledger c' j other → c' = c) ∧
      ¬ OpenIssue ledger j
  superseded : ∀ j channel,get ledger.channels j = some channel → channel.closed = true → channel.inbox = [] ∧ ¬ Current ledger j
  pending : ∀ j,get ledger.channels j = some ⟨[],false⟩ → OpenIssue ledger j ∨ Completing ledger j

-- A waiter is registered for the issue that stands, with its answer still to come, and taken by the call
-- that moved that issue.
def ClearTask (ledger : Ledger ρ ω) (i : Nat) (task : Task ρ ω) : Prop :=
  match task.call,task.stage with
  | .issueWithWaiter plugin request _,.issued _ => get ledger.issues (plugin,request.promptId) = some i ∧
      (isOpen ledger.entries (plugin,request.promptId) = true ∨ Completing ledger i)
  | .completeWithOutcome plugin promptId _,.transitioned issue => ∀ j ∈ get ledger.waiters (plugin,promptId),j = issue
  | _,_ => True

def Clear (ledger : Ledger ρ ω) : Action ρ ω → Prop
  | .advance i => ∀ task ∈ ledger.tasks[i]?,ClearTask ledger i task
  | .call _ _ => True

section Tasks

variable {ledger : Ledger ρ ω} {tasks : List (Task ρ ω)} {task after : Task ρ ω}

def IssuedBy (tasks : List (Task ρ ω)) (j : Nat) (key : PromptKey) : Prop :=
  ∃ task,tasks[j]? = some task ∧ task.call.isIssue = true ∧ task.call.key = key ∧ task.stage ≠ .begun

theorem set_cases (there : tasks[i]? = some task) (found : (tasks.set i after)[j]? = some other) :
    (j = i ∧ other = after) ∨ (j ≠ i ∧ tasks[j]? = some other) := by
  obtain ⟨bound,-⟩ := List.getElem?_eq_some_iff.mp there
  by_cases same : j = i
  · subst same
    rw [List.getElem?_set_self bound] at found
    exact .inl ⟨rfl,(Option.some.inj found).symm⟩
  · rw [List.getElem?_set_ne (Ne.symm same)] at found
    exact .inr ⟨same,found⟩

theorem set_self (there : tasks[i]? = some task) : (tasks.set i after)[i]? = some after := by
  obtain ⟨bound,-⟩ := List.getElem?_eq_some_iff.mp there
  exact List.getElem?_set_self bound

theorem set_call (there : tasks[i]? = some task) (same : after.call = task.call) (found : tasks[j]? = some other) :
    ∃ now,(tasks.set i after)[j]? = some now ∧ now.call = other.call ∧ (j ≠ i → now = other) := by
  by_cases own : j = i
  · subst own
    rw [there] at found
    cases found
    exact ⟨after,set_self there,same,fun absurdity => absurd rfl absurdity⟩
  · exact ⟨other,by rw [List.getElem?_set_ne (Ne.symm own),found],rfl,fun _ => rfl⟩

theorem issuedBy_set (there : tasks[i]? = some task) (same : after.call = task.call) (past : after.stage ≠ .begun)
    (issued : IssuedBy tasks j key) : IssuedBy (tasks.set i after) j key := by
  obtain ⟨other,found,kind,own,stage⟩ := issued
  obtain ⟨now,here,call,still⟩ := set_call there same found
  refine ⟨now,here,by rw [call,kind],by rw [call,own],?_⟩
  by_cases moving : j = i
  · subst moving
    rw [set_self there] at here
    cases here
    exact past
  · rw [still moving]
    exact stage

theorem moved_set {before now : Ledger ρ ω} (there : before.tasks[i]? = some task) (tasks : now.tasks = before.tasks.set i after)
    (same : ∀ j outcome,after.moved j outcome ↔ task.moved j outcome) : Moved now c j outcome ↔ Moved before c j outcome := by
  unfold Moved
  rw [tasks]
  constructor
  · rintro ⟨other,found,moved⟩
    rcases set_cases there found with ⟨rfl,rfl⟩ | ⟨-,found⟩
    · exact ⟨task,there,(same j outcome).mp moved⟩
    · exact ⟨other,found,moved⟩
  · rintro ⟨other,found,moved⟩
    by_cases own : c = i
    · subst own
      rw [there] at found
      cases found
      exact ⟨after,set_self there,(same j outcome).mpr moved⟩
    · exact ⟨other,by rw [List.getElem?_set_ne (Ne.symm own),found],moved⟩

theorem completing_set {before now : Ledger ρ ω} (there : before.tasks[i]? = some task) (tasks : now.tasks = before.tasks.set i after)
    (idle : task.stage ≠ .transitioned j) (completing : Completing before j) : Completing now j := by
  obtain ⟨other,member,stage⟩ := completing
  obtain ⟨c,found⟩ := List.mem_iff_getElem?.mp member
  refine ⟨other,?_,stage⟩
  rw [tasks]
  have apart : c ≠ i := by
    intro same
    subst same
    rw [there] at found
    cases found
    exact idle stage
  exact List.mem_of_getElem? (by rw [List.getElem?_set_ne (Ne.symm apart),found] : (before.tasks.set i after)[c]? = some other)

theorem issue_unmoved {task : Task ρ ω} (kind : task.call.isIssue = true) : ¬ task.moved j outcome := by
  rintro ⟨outcome,-⟩
  cases shape : task.call <;> rw [shape] at kind outcome <;> cases kind <;> cases outcome

end Tasks

structure Kept (ledger : Ledger ρ ω) : Prop where
  standing : ∀ key j,get ledger.issues key = some j → IssuedBy ledger.tasks j key
  known : ∀ key,isOpen ledger.entries key = true → ∃ j,get ledger.issues key = some j
  moved : ∀ (c : Nat) (task : Task ρ ω) j outcome,ledger.tasks[c]? = some task → task.moved j outcome → IssuedBy ledger.tasks j task.call.key ∧
    (get ledger.issues task.call.key = some j → isOpen ledger.entries task.call.key = false)
  mover : ∀ c c' j outcome other,Moved ledger c j outcome → Moved ledger c' j other → c' = c
  waiter : ∀ key j,get ledger.waiters key = some j → get ledger.channels j = some ⟨[],false⟩ ∧ get ledger.issues key = some j ∧
    (isOpen ledger.entries key = true ∨ Completing ledger j)
  registered : ∀ j,get ledger.channels j = some ⟨[],false⟩ → ∃ key,get ledger.waiters key = some j
  holder : ∀ j channel,get ledger.channels j = some channel → ∃ task answer,ledger.tasks[j]? = some task ∧
    task.call.isIssue = true ∧ task.stage = .finished answer
  fired : ∀ j channel,get ledger.channels j = some channel → channel.inbox ≠ [] →
    ∃ c outcome,channel = ⟨[outcome],false⟩ ∧ Moved ledger c j outcome
  closed : ∀ j channel,get ledger.channels j = some channel → channel.closed = true → channel.inbox = [] ∧
    ∃ key,IssuedBy ledger.tasks j key ∧ get ledger.issues key ≠ some j

theorem issuedBy_key (issued : IssuedBy tasks j key) (there : tasks[j]? = some task) : task.call.key = key := by
  obtain ⟨other,found,-,same,-⟩ := issued
  rw [there] at found
  cases found
  exact same

theorem kept_delivered {ledger : Ledger ρ ω} (kept : Kept ledger) : Delivered ledger := by
  constructor
  case once =>
    intro j channel there full
    obtain ⟨c,outcome,shape,moved⟩ := kept.fired j channel there full
    refine ⟨c,outcome,shape,moved,fun c' other also => kept.mover c c' j outcome other moved also,?_⟩
    rintro ⟨task,found,current,opened⟩
    obtain ⟨completing,there,moves⟩ := moved
    obtain ⟨issued,terminal⟩ := kept.moved c completing j outcome there moves
    rw [issuedBy_key issued found] at current opened
    rw [terminal current] at opened
    cases opened
  case superseded =>
    intro j channel there closed
    obtain ⟨empty,key,issued,other⟩ := kept.closed j channel there closed
    refine ⟨empty,?_⟩
    rintro ⟨task,found,current⟩
    rw [issuedBy_key issued found] at current
    exact other current
  case pending =>
    intro j there
    obtain ⟨key,waits⟩ := kept.registered j there
    obtain ⟨-,current,opened | completing⟩ := kept.waiter key j waits
    · obtain ⟨task,found,-,same,-⟩ := kept.standing key j current
      exact .inl ⟨task,found,by rw [same,current],by rw [same,opened]⟩
    · exact .inr completing

section Steps

variable {ledger : Ledger ρ ω} {task after other : Task ρ ω} {c i j : Nat}

theorem dropSender_get (channels : Table Nat (Channel ω)) (sender : Option Nat) (j : Nat) :
    get (dropSender channels sender) j =
      if sender = some j then (get channels j).map fun channel => { channel with closed := true } else get channels j := by
  unfold dropSender
  cases sender with
  | none => simp
  | some k =>
    rw [get_modify]
    by_cases same : k = j
    · subst same
      simp
    · simp [same,Ne.symm same]

theorem send_get (channels : Table Nat (Channel ω)) (sender : Option Nat) (outcome : PromptOutcome ω) (j : Nat) :
    get (send channels sender outcome) j =
      if sender = some j then (get channels j).map fun channel => { channel with inbox := channel.inbox++[outcome] } else get channels j := by
  unfold send
  cases sender with
  | none => simp
  | some k =>
    rw [get_modify]
    by_cases same : k = j
    · subst same
      simp
    · simp [same,Ne.symm same]

theorem waiter_key (kept : Kept ledger) (one : get ledger.waiters key = some j) (two : get ledger.waiters key' = some j) : key' = key := by
  obtain ⟨task,there,-,same,-⟩ := kept.standing key j (kept.waiter key j one).2.1
  have issued := kept.standing key' j (kept.waiter key' j two).2.1
  rw [← same,issuedBy_key issued there]

theorem holder_apart (kept : Kept ledger) (there : ledger.tasks[i]? = some task) (idle : ∀ answer,task.stage ≠ .finished answer) :
    get ledger.channels i = none := by
  cases found : get ledger.channels i with
  | none => rfl
  | some channel =>
    obtain ⟨other,answer,here,-,stage⟩ := kept.holder i channel found
    rw [there] at here
    cases here
    exact absurd stage (idle answer)

theorem holder_set (kept : Kept ledger) (there : ledger.tasks[i]? = some task) (idle : ∀ answer,task.stage ≠ .finished answer)
    (found : get ledger.channels j = some channel) : ∃ task answer,(ledger.tasks.set i after)[j]? = some task ∧
      task.call.isIssue = true ∧ task.stage = .finished answer := by
  have apart : i ≠ j := by
    rintro rfl
    rw [holder_apart kept there idle] at found
    cases found
  obtain ⟨other,answer,here,kind,stage⟩ := kept.holder j channel found
  exact ⟨other,answer,by rw [List.getElem?_set_ne apart,here],kind,stage⟩

theorem stage_kept (kept : Kept ledger) (there : ledger.tasks[i]? = some task) (same : after.call = task.call) (past : after.stage ≠ .begun)
    (idle : ∀ answer,task.stage ≠ .finished answer) (unmoved : ∀ j outcome,after.moved j outcome ↔ task.moved j outcome)
    (heard : ∀ key j,get ledger.waiters key = some j → task.stage ≠ .transitioned j) :
    Kept { ledger with tasks := ledger.tasks.set i after } := by
  have moves : ∀ {c j outcome},Moved { ledger with tasks := ledger.tasks.set i after } c j outcome ↔ Moved ledger c j outcome :=
    moved_set there rfl unmoved
  constructor
  case standing => exact fun key j found => issuedBy_set there same past (kept.standing key j found)
  case known => exact kept.known
  case moved =>
    intro c other j outcome found moving
    rcases set_cases there found with ⟨rfl,rfl⟩ | ⟨-,old⟩
    · obtain ⟨issued,terminal⟩ := kept.moved c task j outcome there ((unmoved j outcome).mp moving)
      rw [same]
      exact ⟨issuedBy_set there same past issued,terminal⟩
    · obtain ⟨issued,terminal⟩ := kept.moved c other j outcome old moving
      exact ⟨issuedBy_set there same past issued,terminal⟩
  case mover =>
    intro c c' j outcome other one two
    exact kept.mover c c' j outcome other (moves.mp one) (moves.mp two)
  case waiter =>
    intro key j found
    obtain ⟨channel,standing,answered⟩ := kept.waiter key j found
    exact ⟨channel,standing,answered.imp_right (completing_set there rfl (heard key j found))⟩
  case registered => exact kept.registered
  case holder => exact fun j channel found => holder_set kept there idle found
  case fired =>
    intro j channel found full
    obtain ⟨c,outcome,shape,moved⟩ := kept.fired j channel found full
    exact ⟨c,outcome,shape,moves.mpr moved⟩
  case closed =>
    intro j channel found closed
    obtain ⟨empty,key,standing,other⟩ := kept.closed j channel found closed
    exact ⟨empty,key,issuedBy_set there same past standing,other⟩

theorem insert_kept (kept : Kept ledger) (own : IssuedBy ledger.tasks i (plugin,request.promptId)) (unheld : get ledger.channels i = none)
    (untouched : ∀ c outcome,¬ Moved ledger c i outcome) : Kept (insertIssue ledger i plugin request now effectiveTimeout) := by
  have waits : ∀ j,get ledger.waiters (plugin,request.promptId) = some j → get ledger.channels j = some ⟨[],false⟩ :=
    fun j found => (kept.waiter _ j found).1
  have apart : ∀ {j channel},get ledger.channels j = some channel → i ≠ j := by
    rintro j channel found rfl
    rw [unheld] at found
    cases found
  constructor
  case standing =>
    intro key j found
    simp only [insertIssue,get_insert] at found
    split at found
    · rename_i mine
      cases found
      exact mine ▸ own
    · exact kept.standing key j found
  case known =>
    intro key opened
    simp only [insertIssue,get_insert,isOpen_issued] at opened ⊢
    split
    · exact ⟨i,rfl⟩
    · rename_i other
      rw [if_neg other] at opened
      exact kept.known key opened
  case moved =>
    intro c other j outcome found moving
    obtain ⟨issued,terminal⟩ := kept.moved c other j outcome found moving
    refine ⟨issued,fun current => ?_⟩
    simp only [insertIssue,get_insert,isOpen_issued] at current ⊢
    split at current
    · cases current
      exact absurd ⟨other,found,moving⟩ (untouched c outcome)
    · rename_i elsewhere
      rw [if_neg elsewhere]
      exact terminal current
  case mover => exact kept.mover
  case waiter =>
    intro key j found
    simp only [insertIssue,get_erase,get_insert,isOpen_issued,dropSender_get] at found ⊢
    by_cases mine : key = (plugin,request.promptId)
    · rw [if_pos mine] at found
      cases found
    · rw [if_neg mine] at found
      have other : get ledger.waiters (plugin,request.promptId) ≠ some j := fun dropped => mine (waiter_key kept dropped found)
      rw [if_neg other,if_neg mine,if_neg mine]
      exact kept.waiter key j found
  case registered =>
    intro j found
    simp only [insertIssue,get_erase,dropSender_get] at found ⊢
    split at found
    · rename_i dropped
      rw [waits j dropped] at found
      cases found
    · rename_i other
      obtain ⟨key,waiting⟩ := kept.registered j found
      have elsewhere : key ≠ (plugin,request.promptId) := fun mine => other (mine ▸ waiting)
      exact ⟨key,by rw [if_neg elsewhere,waiting]⟩
  case holder =>
    intro j channel found
    simp only [insertIssue,dropSender_get] at found
    split at found
    · rename_i dropped
      exact kept.holder j _ (waits j dropped)
    · exact kept.holder j channel found
  case fired =>
    intro j channel found full
    simp only [insertIssue,dropSender_get] at found
    split at found
    · rename_i dropped
      rw [waits j dropped] at found
      cases found
      exact absurd rfl full
    · exact kept.fired j channel found full
  case closed =>
    intro j channel found closed
    simp only [insertIssue,dropSender_get,get_insert] at found ⊢
    split at found
    · rename_i dropped
      have other := apart (waits j dropped)
      rw [waits j dropped] at found
      cases found
      refine ⟨rfl,_,kept.standing _ j (kept.waiter _ j dropped).2.1,?_⟩
      rw [if_pos rfl]
      exact fun absurdity => other (Option.some.inj absurdity)
    · have newer := apart found
      obtain ⟨empty,key,issued,other⟩ := kept.closed j channel found closed
      refine ⟨empty,key,issued,?_⟩
      split
      · exact fun absurdity => newer (Option.some.inj absurdity)
      · exact other

theorem issue_kept (kept : Kept ledger) (there : ledger.tasks[i]? = some task) (begun : task.stage = .begun)
    (kind : task.call.isIssue = true) (key : task.call.key = (plugin,request.promptId)) (stage : Stage) (past : stage ≠ .begun) :
    Kept { insertIssue ledger i plugin request now effectiveTimeout with tasks := ledger.tasks.set i { task with stage := stage } } := by
  have idle : ∀ answer,task.stage ≠ .finished answer := fun answer absurdity => by rw [begun] at absurdity; cases absurdity
  have unmoved : ∀ j outcome,{ task with stage := stage }.moved j outcome ↔ task.moved j outcome :=
    fun j outcome => ⟨fun moved => absurd moved (issue_unmoved kind),fun moved => absurd moved (issue_unmoved kind)⟩
  have staged : Kept { ledger with tasks := ledger.tasks.set i { task with stage := stage } } :=
    stage_kept kept there rfl past idle unmoved fun _ _ _ => by rw [begun]; exact Stage.noConfusion
  have unheld := holder_apart kept there idle
  refine insert_kept staged ⟨_,set_self there,kind,key,past⟩ unheld fun c outcome moved => ?_
  obtain ⟨mover,found,moving⟩ := (moved_set there rfl unmoved).mp moved
  obtain ⟨other,here,-,-,passed⟩ := (kept.moved c mover i outcome found moving).1
  rw [there] at here
  cases here
  exact passed begun

theorem register_kept (kept : Kept ledger) (there : ledger.tasks[i]? = some task) (finished : task.stage = .finished given)
    (kind : task.call.isIssue = true) (current : get ledger.issues task.call.key = some i) (unheld : get ledger.channels i = none)
    (answer : isOpen ledger.entries task.call.key = true ∨ Completing ledger i) : Kept (registerWaiter ledger i task.call.key) := by
  -- A waiter in the map would be that of the issue that stands, which has none yet.
  have vacant : get ledger.waiters task.call.key = none := by
    cases found : get ledger.waiters task.call.key with
    | none => rfl
    | some j =>
      obtain ⟨channel,standing,-⟩ := kept.waiter _ j found
      rw [current] at standing
      cases standing
      rw [unheld] at channel
      cases channel
  constructor
  case standing => exact kept.standing
  case known => exact kept.known
  case moved => exact kept.moved
  case mover => exact kept.mover
  case waiter =>
    intro key j found
    simp only [registerWaiter,get_insert,vacant,dropSender] at found ⊢
    split at found
    · rename_i mine
      cases found
      subst mine
      rw [if_pos rfl]
      exact ⟨rfl,current,answer⟩
    · obtain ⟨channel,held⟩ := kept.waiter key j found
      have apart : j ≠ i := fun same => by rw [same,unheld] at channel; cases channel
      rw [if_neg apart]
      exact ⟨channel,held⟩
  case registered =>
    intro j found
    simp only [registerWaiter,get_insert,vacant,dropSender] at found ⊢
    split at found
    · rename_i mine
      exact ⟨task.call.key,by rw [if_pos rfl,mine]⟩
    · obtain ⟨key,waiting⟩ := kept.registered j found
      have elsewhere : key ≠ task.call.key := fun mine => by rw [mine,vacant] at waiting; cases waiting
      exact ⟨key,by rw [if_neg elsewhere,waiting]⟩
  case holder =>
    intro j channel found
    simp only [registerWaiter,get_insert,vacant,dropSender] at found
    split at found
    · rename_i mine
      exact ⟨task,given,mine ▸ there,kind,finished⟩
    · exact kept.holder j channel found
  case fired =>
    intro j channel found full
    simp only [registerWaiter,get_insert,vacant,dropSender] at found
    split at found
    · cases found
      exact absurd rfl full
    · exact kept.fired j channel found full
  case closed =>
    intro j channel found closed
    simp only [registerWaiter,get_insert,vacant,dropSender] at found
    split at found
    · cases found
      cases closed
    · exact kept.closed j channel found closed

theorem transition_kept (kept : Kept ledger) (there : ledger.tasks[i]? = some task) (begun : task.stage = .begun)
    (opened : isOpen ledger.entries task.call.key = true) (current : get ledger.issues task.call.key = some issue)
    (outcome : PromptOutcome ω) : Kept { ledger with
      entries := (transitionTo ledger.entries task.call.key (newState outcome)).1
      tasks := ledger.tasks.set i { task with stage := .transitioned issue } } := by
  have idle : ∀ answer,task.stage ≠ .finished answer := fun answer absurdity => by rw [begun] at absurdity; cases absurdity
  have past : { task with stage := .transitioned issue }.stage ≠ Stage.begun := Stage.noConfusion
  have terminal : ∀ key',isOpen (transitionTo ledger.entries task.call.key (newState outcome)).1 key' =
      if key' = task.call.key then false else isOpen ledger.entries key' :=
    fun key' => isOpen_transition _ _ _ (newState_terminal outcome)
  have unmoved : ∀ j other,¬ task.moved j other := by
    rintro j other ⟨-,stage | stage⟩ <;> rw [begun] at stage <;> cases stage
  -- The issue was open, so no earlier call has moved it.
  have first : ∀ c other,¬ Moved ledger c issue other := by
    rintro c other ⟨mover,found,moving⟩
    obtain ⟨issued,closed⟩ := kept.moved c mover issue other found moving
    obtain ⟨one,atOne,-,same,-⟩ := kept.standing _ issue current
    rw [← issuedBy_key issued atOne,same] at closed
    rw [closed current] at opened
    cases opened
  have moves : ∀ {c j other},Moved { ledger with
      entries := (transitionTo ledger.entries task.call.key (newState outcome)).1
      tasks := ledger.tasks.set i { task with stage := .transitioned issue } } c j other →
      (c = i ∧ j = issue) ∨ Moved ledger c j other := by
    rintro c j other ⟨mover,found,moving⟩
    rcases set_cases there found with ⟨rfl,rfl⟩ | ⟨-,old⟩
    · obtain ⟨-,stage | stage⟩ := moving <;> cases stage
      exact .inl ⟨rfl,rfl⟩
    · exact .inr ⟨mover,old,moving⟩
  have keeps : ∀ {c j other},Moved ledger c j other → Moved { ledger with
      entries := (transitionTo ledger.entries task.call.key (newState outcome)).1
      tasks := ledger.tasks.set i { task with stage := .transitioned issue } } c j other := by
    rintro c j other ⟨mover,found,moving⟩
    have apart : c ≠ i := by
      intro same
      subst same
      rw [there] at found
      cases found
      exact unmoved j other moving
    exact ⟨mover,by rw [List.getElem?_set_ne (Ne.symm apart),found],moving⟩
  constructor
  case standing => exact fun key' j found => issuedBy_set there rfl past (kept.standing key' j found)
  case known =>
    intro key' still
    rw [terminal] at still
    split at still
    · cases still
    · exact kept.known key' still
  case moved =>
    intro c other j out found moving
    rw [terminal]
    rcases set_cases there found with ⟨rfl,rfl⟩ | ⟨-,old⟩
    · obtain ⟨-,stage | stage⟩ := moving <;> cases stage
      exact ⟨issuedBy_set there rfl past (kept.standing _ issue current),fun _ => if_pos rfl⟩
    · obtain ⟨issued,closed⟩ := kept.moved c other j out old moving
      refine ⟨issuedBy_set there rfl past issued,fun standing => ?_⟩
      split
      · rfl
      · exact closed standing
  case mover =>
    intro c c' j out other one two
    rcases moves one with ⟨here,same⟩ | before
    · rcases moves two with ⟨also,-⟩ | earlier
      · rw [here,also]
      · exact absurd (same ▸ earlier) (first c' other)
    · rcases moves two with ⟨-,same⟩ | earlier
      · exact absurd (same ▸ before) (first c out)
      · exact kept.mover c c' j out other before earlier
  case waiter =>
    intro key' j found
    obtain ⟨channel,standing,answered⟩ := kept.waiter key' j found
    refine ⟨channel,standing,?_⟩
    rw [terminal]
    by_cases mine : key' = task.call.key
    · subst mine
      rw [current] at standing
      cases standing
      exact .inr ⟨_,List.mem_of_getElem? (set_self there),rfl⟩
    · rw [if_neg mine]
      exact answered.imp_right (completing_set there rfl (by rw [begun]; exact Stage.noConfusion))
  case registered => exact kept.registered
  case holder => exact fun j channel found => holder_set kept there idle found
  case fired =>
    intro j channel found full
    obtain ⟨c,out,shape,moved⟩ := kept.fired j channel found full
    exact ⟨c,out,shape,keeps moved⟩
  case closed =>
    intro j channel found closed
    obtain ⟨empty,key',standing,other⟩ := kept.closed j channel found closed
    exact ⟨empty,key',issuedBy_set there rfl past standing,other⟩

theorem fire_kept (kept : Kept ledger) (there : ledger.tasks[i]? = some task) (moved : task.moved issue outcome)
    (own : ∀ j,get ledger.waiters task.call.key = some j → j = issue) : Kept (fireWaiter ledger task.call.key outcome) := by
  have waits : ∀ j,get ledger.waiters task.call.key = some j → get ledger.channels j = some ⟨[],false⟩ :=
    fun j found => (kept.waiter _ j found).1
  constructor
  case standing => exact kept.standing
  case known => exact kept.known
  case moved => exact kept.moved
  case mover => exact kept.mover
  case waiter =>
    intro key j found
    simp only [fireWaiter,get_erase,send_get] at found ⊢
    split at found
    · cases found
    · rename_i elsewhere
      have other : get ledger.waiters task.call.key ≠ some j := fun taken => elsewhere (waiter_key kept taken found)
      rw [if_neg other]
      exact kept.waiter key j found
  case registered =>
    intro j found
    simp only [fireWaiter,get_erase,send_get] at found ⊢
    split at found
    · rename_i taken
      rw [waits j taken] at found
      cases found
    · rename_i other
      obtain ⟨key,waiting⟩ := kept.registered j found
      have elsewhere : key ≠ task.call.key := fun same => other (same ▸ waiting)
      exact ⟨key,by rw [if_neg elsewhere,waiting]⟩
  case holder =>
    intro j channel found
    simp only [fireWaiter,send_get] at found
    split at found
    · rename_i taken
      exact kept.holder j _ (waits j taken)
    · exact kept.holder j channel found
  case fired =>
    intro j channel found full
    simp only [fireWaiter,send_get] at found
    split at found
    · rename_i taken
      rw [waits j taken] at found
      cases found
      rw [own j taken]
      exact ⟨i,outcome,rfl,task,there,moved⟩
    · exact kept.fired j channel found full
  case closed =>
    intro j channel found closed
    simp only [fireWaiter,send_get] at found
    split at found
    · rename_i taken
      rw [waits j taken] at found
      cases found
      cases closed
    · exact kept.closed j channel found closed

theorem call_kept (kept : Kept ledger) (fresh : Task ρ ω) (begun : fresh.stage = .begun) : Kept { ledger with tasks := ledger.tasks++[fresh] } := by
  have issued : ∀ {j key},IssuedBy ledger.tasks j key → IssuedBy (ledger.tasks++[fresh]) j key := by
    rintro j key ⟨task,there,rest⟩
    exact ⟨task,append_there there,rest⟩
  have moves : ∀ {c j outcome},Moved { ledger with tasks := ledger.tasks++[fresh] } c j outcome → Moved ledger c j outcome := by
    rintro c j outcome ⟨task,found,moving⟩
    rcases append_cases found with old | ⟨-,rfl⟩
    · exact ⟨task,old,moving⟩
    · obtain ⟨-,stage | stage⟩ := moving <;> rw [begun] at stage <;> cases stage
  constructor
  case standing => exact fun key j found => issued (kept.standing key j found)
  case known => exact kept.known
  case moved =>
    intro c task j outcome found moving
    rcases append_cases found with old | ⟨-,rfl⟩
    · obtain ⟨by',terminal⟩ := kept.moved c task j outcome old moving
      exact ⟨issued by',terminal⟩
    · obtain ⟨-,stage | stage⟩ := moving <;> rw [begun] at stage <;> cases stage
  case mover =>
    intro c c' j outcome other one two
    exact kept.mover c c' j outcome other (moves one) (moves two)
  case waiter =>
    intro key j found
    obtain ⟨channel,standing,answered⟩ := kept.waiter key j found
    refine ⟨channel,standing,answered.imp_right ?_⟩
    rintro ⟨task,member,stage⟩
    exact ⟨task,List.mem_append_left _ member,stage⟩
  case registered => exact kept.registered
  case holder =>
    intro j channel found
    obtain ⟨task,answer,there,rest⟩ := kept.holder j channel found
    exact ⟨task,answer,append_there there,rest⟩
  case fired =>
    intro j channel found full
    obtain ⟨c,outcome,shape,task,there,moving⟩ := kept.fired j channel found full
    exact ⟨c,outcome,shape,task,append_there there,moving⟩
  case closed =>
    intro j channel found closed
    obtain ⟨empty,key,standing,other⟩ := kept.closed j channel found closed
    exact ⟨empty,key,issued standing,other⟩

theorem advance_kept (kept : Kept ledger) (clear : Clear ledger (.advance i)) : Kept (advance ledger i) := by
  unfold advance
  cases there : ledger.tasks[i]? with
  | none => exact kept
  | some task =>
    have met := clear task there
    obtain ⟨call,now,stage⟩ := task
    have still : Kept { ledger with tasks := ledger.tasks.set i ⟨call,now,stage⟩ } := by
      have same : ledger.tasks.set i ⟨call,now,stage⟩ = ledger.tasks := by
        obtain ⟨bound,at'⟩ := List.getElem?_eq_some_iff.mp there
        rw [← at',List.set_getElem_self]
      rw [same]
      exact kept
    cases call with
    | issue plugin request effectiveTimeout =>
      cases stage with
      | begun => exact issue_kept kept there rfl rfl rfl _ Stage.noConfusion
      | _ => exact still
    | issueWithWaiter plugin request effectiveTimeout =>
      cases stage with
      | begun => exact issue_kept kept there rfl rfl rfl _ Stage.noConfusion
      | issued deadline =>
        have idle : ∀ answer,Stage.issued deadline ≠ .finished answer := fun _ => Stage.noConfusion
        have staged : Kept { ledger with tasks := ledger.tasks.set i ⟨.issueWithWaiter plugin request effectiveTimeout,now,.finished (.deadline deadline)⟩ } :=
          stage_kept kept there rfl Stage.noConfusion idle (fun _ _ => by simp [Task.moved,Call.outcome]) fun _ _ _ => Stage.noConfusion
        have unheld := holder_apart kept there idle
        exact register_kept staged (set_self there) rfl rfl met.1 unheld
          (met.2.imp_right (completing_set there rfl Stage.noConfusion))
      | _ => exact still
    | completeWithOutcome plugin promptId outcome =>
      cases stage with
      | begun =>
        simp only [taskStep,transitionTo]
        by_cases opened : isOpen ledger.entries (plugin,promptId) = true
        · obtain ⟨issue,current⟩ := kept.known _ opened
          have next := transition_kept kept there rfl opened current outcome
          simp only [transitionTo,Call.key,opened,if_true] at next
          simpa [opened,current] using next
        · have refused : Kept { ledger with tasks := ledger.tasks.set i ⟨.completeWithOutcome plugin promptId outcome,now,.finished (.completed none)⟩ } :=
            stage_kept kept there rfl Stage.noConfusion (fun _ => Stage.noConfusion) (fun _ _ => by simp [Task.moved])
              fun _ _ _ => Stage.noConfusion
          simpa [opened] using refused
      | transitioned issue =>
        have moved : (⟨.completeWithOutcome plugin promptId outcome,now,.transitioned issue⟩ : Task ρ ω).moved issue outcome := ⟨rfl,.inl rfl⟩
        have fired : Kept (fireWaiter ledger (plugin,promptId) outcome) := fire_kept kept there moved met
        change Kept { fireWaiter ledger (plugin,promptId) outcome with
          tasks := ledger.tasks.set i ⟨.completeWithOutcome plugin promptId outcome,now,.finished (.completed (some issue))⟩ }
        refine stage_kept fired there rfl Stage.noConfusion (fun _ => Stage.noConfusion)
          (fun _ _ => by simp [Task.moved]) fun key j found => ?_
        -- The issue that this call moved is one of its own prompt, whose waiter is gone.
        rintro ⟨⟩
        simp only [fireWaiter,get_erase] at found
        split at found
        · cases found
        · rename_i elsewhere
          obtain ⟨one,atOne,-,same,-⟩ := kept.standing key _ (kept.waiter key _ found).2.1
          exact elsewhere (same.symm.trans (issuedBy_key (kept.moved i _ _ outcome there moved).1 atOne))
      | _ => exact still

theorem step_kept (ledger : Ledger ρ ω) (action : Action ρ ω) (kept : Kept ledger) (clear : Clear ledger action) : Kept (step ledger action) := by
  cases action with
  | call call now => exact call_kept kept _ rfl
  | advance i => exact advance_kept kept clear

theorem new_kept : Kept (new : Ledger ρ ω) := by
  constructor
  case known => exact fun key opened => by simp [new,isOpen] at opened
  case moved =>
    rintro c j task outcome there
    cases there
  case mover =>
    rintro c c' j outcome other ⟨task,there,_⟩
    cases there
  all_goals
    intro k
    simp [new]

end Steps

-- Every receiver gets the outcome of its own issue, once, or learns that the prompt was issued again.
theorem waiters_delivered (actions : List (Action ρ ω)) (clear : Guarded step Clear (new : Ledger ρ ω) actions) :
    Throughout step Delivered (new : Ledger ρ ω) actions := by
  have all := guarded_keeps step_kept new_kept clear
  rw [throughout_prefixes] at all ⊢
  exact fun k => kept_delivered (all k)

section Races

instance (ledger : Ledger ρ ω) (j : Nat) : Decidable (Completing ledger j) :=
  inferInstanceAs (Decidable (∃ task ∈ ledger.tasks,task.stage = .transitioned j))

instance (ledger : Ledger ρ ω) (j : Nat) : Decidable (OpenIssue ledger j) :=
  inferInstanceAs (Decidable (∃ task ∈ ledger.tasks[j]?,
    get ledger.issues task.call.key = some j ∧ isOpen ledger.entries task.call.key = true))

instance (ledger : Ledger ρ ω) (i : Nat) (task : Task ρ ω) : Decidable (ClearTask ledger i task) := by
  unfold ClearTask
  split <;> infer_instance

instance (ledger : Ledger ρ ω) : DecidablePred (Clear ledger)
  | .advance i => inferInstanceAs (Decidable (∀ task ∈ ledger.tasks[i]?,ClearTask ledger i task))
  | .call _ _ => isTrue trivial

def wifi : PromptRequest Unit := ⟨"p-1",.password,none,()⟩

def ask : Action Unit String := .call (.issueWithWaiter "org.test" wifi 60000) 0

def reply (text : String) : Action Unit String := .call (.completeWithOutcome "org.test" "p-1" (.answered text)) 0

-- The answer overtakes the registration and waits for it; then the prompt is issued again and answered.
def overtaken : List (Action Unit String) :=
  [ask,.advance 0,reply "one",.advance 1,.advance 0,.advance 1,ask,.advance 2,.advance 2,reply "two",.advance 3,.advance 3]

theorem overtaken_delivered : Throughout step Delivered (new : Ledger Unit String) overtaken :=
  waiters_delivered overtaken (by decide)

-- The answer is over before the waiter is registered.
def missed : List (Action Unit String) := [ask,.advance 0,reply "one",.advance 1,.advance 1,.advance 0]

-- The prompt is issued again between the two steps of the answer to its first version.
def straddled : List (Action Unit String) :=
  [ask,.advance 0,.advance 0,reply "one",.advance 1,ask,.advance 2,.advance 2,.advance 1]

-- One receiver is left pending under an answered entry, another is fired while its entry is open.
theorem answers_misdelivered : ¬ Delivered (run step (new : Ledger Unit String) missed) ∧
    ¬ Delivered (run step (new : Ledger Unit String) straddled) := by
  constructor
  · intro delivered
    have waiting : get (run step (new : Ledger Unit String) missed).channels 0 = some ⟨[],false⟩ := by decide
    have ended : ¬ (OpenIssue (run step (new : Ledger Unit String) missed) 0 ∨ Completing (run step (new : Ledger Unit String) missed) 0) := by
      decide
    exact ended (delivered.pending 0 waiting)
  · intro delivered
    have fired : get (run step (new : Ledger Unit String) straddled).channels 2 = some ⟨[.answered "one"],false⟩ := by decide
    have opened : OpenIssue (run step (new : Ledger Unit String) straddled) 2 := by decide
    obtain ⟨c,outcome,-,-,-,closed⟩ := delivered.once 2 _ fired (by decide)
    exact closed opened

end Races

end Waiters

end EvoCore.Prompts
