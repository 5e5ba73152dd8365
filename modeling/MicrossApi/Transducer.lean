/-
MicrossApi/Transducer.lean

Machines that answer every input with a list of outputs.  A step is a function
`step : σ → ι → σ × List ω`, and a run collects what the steps put out.  A run
over two lists of inputs is one run after the other (`run_append`), and a step
that is itself a run of smaller steps may be taken apart (`run_flatMap`).
-/
import Mathlib.Data.List.Induction

namespace Transducer

variable {σ ι ω : Type*} {step : σ → ι → σ × List ω}

/-- The state after the inputs, and all that was put out on the way. -/
def run (step : σ → ι → σ × List ω) : σ → List ι → σ × List ω
  | s, [] => (s, [])
  | s, i :: is => ((run step (step s i).1 is).1, (step s i).2 ++ (run step (step s i).1 is).2)

@[simp] theorem run_nil (s : σ) : run step s [] = (s, []) := rfl

@[simp] theorem run_cons (s : σ) (i : ι) (is : List ι) : run step s (i :: is)
      = ((run step (step s i).1 is).1, (step s i).2 ++ (run step (step s i).1 is).2) := rfl

theorem run_append (s : σ) (is js : List ι) : run step s (is ++ js) = ((run step (run step s is).1 js).1,
          (run step s is).2 ++ (run step (run step s is).1 js).2) := by
  induction is generalizing s with
  | nil => rfl
  | cons i is ih => simp only [List.cons_append, run_cons, ih, List.append_assoc]

theorem run_flatMap {ι' : Type*} {step' : σ → ι' → σ × List ω} {parts : ι' → List ι}
    (h : ∀ s i, step' s i = run step s (parts i)) (s : σ) (is : List ι') :
    run step' s is = run step s (is.flatMap parts) := by
  induction is generalizing s with
  | nil => rfl
  | cons i is ih => rw [run_cons, List.flatMap_cons, run_append, ih, h]

end Transducer
