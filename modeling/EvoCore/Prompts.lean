import EvoCore.Runs
import EvoCore.Tables

namespace EvoCore.Prompts
open Tables

inductive PromptState where
  | opened
  | answered
  | cancelled
  | timedOut
  deriving DecidableEq,Repr

inductive PromptType where
  | text
  | password
  | select
  | selectWithOther
  | multiSelect
  | confirm
  | multiField
  | externalRedirect
  | dateTime
  | freeform
  deriving DecidableEq,Repr

inductive UiStockingPriority where
  | critical
  | high
  | normal
  | low
  deriving DecidableEq,Repr

-- `ρ` is what the request asks and remembers, `ω` an answer; the ledger passes both on.
variable {ρ ω : Type}

structure PromptRequest (ρ : Type) where
  promptId : String
  promptType : PromptType
  priority : Option UiStockingPriority
  content : ρ
  deriving DecidableEq,Repr

inductive PromptCanceller where
  | plugin
  | consumer
  deriving DecidableEq,Repr

inductive PromptOutcome (ω : Type) where
  | answered (response : ω)
  | cancelled (canceller : PromptCanceller)
  | timedOut
  deriving DecidableEq,Repr

abbrev PromptKey := String × String

-- Deadlines are milliseconds on the scale of the wall clock.
@[ext] structure PromptEntry (ρ : Type) where
  plugin : String
  request : PromptRequest ρ
  state : PromptState
  deadline : Nat
  deriving DecidableEq,Repr

abbrev Entries (ρ : Type) := Table PromptKey (PromptEntry ρ)

def newState : PromptOutcome ω → PromptState
  | .answered _ => .answered
  | .cancelled _ => .cancelled
  | .timedOut => .timedOut

def deadlineAt (now effectiveTimeout : Nat) : Nat := min (now+effectiveTimeout % 2^64) (2^64-1)

def issueEntry (entries : Entries ρ) (plugin : String) (request : PromptRequest ρ) (now effectiveTimeout : Nat) : Entries ρ :=
  entries.insert (plugin,request.promptId) ⟨plugin,request,.opened,deadlineAt now effectiveTimeout⟩

def isOpen (entries : Entries ρ) (key : PromptKey) : Bool :=
  match get entries key with
  | some entry => decide (entry.state = .opened)
  | none => false

def transitionTo (entries : Entries ρ) (key : PromptKey) (state : PromptState) : Entries ρ × Bool :=
  if isOpen entries key then (modify entries key fun entry => { entry with state := state },true) else (entries,false)

theorem isOpen_entry (entries : Entries ρ) (key : PromptKey) :
    isOpen entries key = true ↔ ∃ entry,get entries key = some entry ∧ entry.state = .opened := by
  unfold isOpen
  cases there : get entries key with
  | none => simp
  | some entry => simp

theorem isOpen_issued (entries : Entries ρ) (plugin : String) (request : PromptRequest ρ) (now effectiveTimeout : Nat) (key : PromptKey) :
    isOpen (issueEntry entries plugin request now effectiveTimeout) key = if key = (plugin,request.promptId) then true else isOpen entries key := by
  unfold isOpen issueEntry
  rw [get_insert]
  by_cases same : key = (plugin,request.promptId)
  · rw [if_pos same,if_pos same]
    rfl
  · rw [if_neg same,if_neg same]

theorem newState_terminal (outcome : PromptOutcome ω) : newState outcome ≠ .opened := by
  cases outcome <;> exact fun absurdity => nomatch absurdity

theorem isOpen_transition (entries : Entries ρ) (key other : PromptKey) (terminal : state ≠ .opened) :
    isOpen (transitionTo entries key state).1 other = if other = key then false else isOpen entries other := by
  unfold transitionTo
  by_cases opened : isOpen entries key = true
  · rw [if_pos opened]
    unfold isOpen
    rw [get_modify]
    by_cases same : other = key
    · subst same
      rw [if_pos rfl,if_pos rfl]
      cases get entries other with
      | none => rfl
      | some entry => simp [terminal]
    · rw [if_neg same,if_neg same]
  · rw [if_neg opened]
    by_cases same : other = key
    · subst same
      simpa using opened
    · rw [if_neg same]

end EvoCore.Prompts
