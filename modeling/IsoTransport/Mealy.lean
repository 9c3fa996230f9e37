/-!
Runs of a step function that answers each of its inputs: the answers to a list of inputs, and the state
that they leave behind.
-/

namespace IsoTransport.Mealy

variable {σ ι α : Type} (step : σ → ι → α × σ)

def answers (s : σ) : List ι → List α
  | [] => []
  | i :: inputs => (step s i).1 :: answers (step s i).2 inputs

def run (s : σ) (inputs : List ι) : σ := inputs.foldl (fun s i => (step s i).2) s

theorem run_append (s : σ) (before after : List ι) :
    run step s (before ++ after) = run step (run step s before) after :=
  List.foldl_append

theorem answers_append (s : σ) (before after : List ι) :
    answers step s (before ++ after) = answers step s before ++ answers step (run step s before) after := by
  induction before generalizing s with
  | nil => rfl
  | cons i before ih => exact congrArg ((step s i).1 :: ·) (ih (step s i).2)

theorem length_answers (s : σ) (inputs : List ι) : (answers step s inputs).length = inputs.length := by
  induction inputs generalizing s with
  | nil => rfl
  | cons i inputs ih => exact congrArg (· + 1) (ih (step s i).2)

/-- What each input of a run keeps, the run keeps. -/
theorem run_keeps (P : σ → Prop) {inputs : List ι} (keeps : ∀ i ∈ inputs, ∀ s, P s → P (step s i).2) {s : σ}
    (holds : P s) : P (run step s inputs) := by
  induction inputs generalizing s with
  | nil => exact holds
  | cons i inputs ih =>
    have next : P (step s i).2 := keeps i List.mem_cons_self s holds
    exact ih (fun j later => keeps j (List.mem_cons_of_mem _ later)) next

end IsoTransport.Mealy
