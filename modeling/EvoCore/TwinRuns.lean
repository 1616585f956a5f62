import EvoCore.Runs

namespace EvoCore.TwinRuns
open Runs

-- A machine beside itself. The first of the twins takes every input, the second only the inputs that `sees` picks.
variable {σ α β : Type} (step : σ → α → σ) (out : σ → α → β) (sees : α → Bool)

def twin (s : σ × σ) (a : α) : σ × σ := (step s.1 a,if sees a then step s.2 a else s.2)

def outputs : σ → List α → List β
  | _,[] => []
  | s,a::rest => if sees a then out s a::outputs (step s a) rest else outputs (step s a) rest

variable {step out sees}

theorem outputs_purged {first second : σ} (alike : Guarded (twin step sees) (fun s a => sees a = true → out s.1 a = out s.2 a) (first,second) inputs) :
    outputs step out sees first inputs = outputs step out sees second (inputs.filter sees) := by
  induction inputs generalizing first second with
  | nil => rfl
  | cons a rest ih =>
    obtain ⟨here,later⟩ := alike
    have onward := ih later
    cases picked : sees a with
    | true =>
      rw [picked,if_pos rfl] at onward
      rw [List.filter_cons_of_pos picked,outputs,outputs,if_pos picked,if_pos picked,here picked,onward]
    | false =>
      have passed : ¬ sees a = true := by simp [picked]
      rw [if_neg passed] at onward
      rw [List.filter_cons_of_neg passed,outputs,if_neg passed,onward]

theorem outputs_same (same : inputs.filter sees = others.filter sees)
    (alike : Guarded (twin step sees) (fun s a => sees a = true → out s.1 a = out s.2 a) (s,s) inputs)
    (alike_ : Guarded (twin step sees) (fun s a => sees a = true → out s.1 a = out s.2 a) (s,s) others) :
    outputs step out sees s inputs = outputs step out sees s others := by
  rw [outputs_purged alike,outputs_purged alike_,same]

theorem guarded_first {cond : σ → α → Prop} {first second : σ} (met : Guarded (twin step sees) (fun s a => cond s.1 a) (first,second) inputs) :
    Guarded step cond first inputs := by
  induction inputs generalizing first second with
  | nil => trivial
  | cons a rest ih => exact ⟨met.1,ih met.2⟩

end EvoCore.TwinRuns
