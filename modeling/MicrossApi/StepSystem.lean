/-
MicrossApi/StepSystem.lean

Runs of a deterministic step function.  A step system is a function
`step : σ → α → σ`: the label `α` names the operation performed and carries
every choice the environment makes (which statement fails, which identifier
the database hands out, which goroutine moves).  A run is then a plain list
of labels, and quantifying over all lists quantifies over all interleavings.

Four induction rules are packaged here once.  `exec_inv` is the usual one: what
every step preserves holds in every reachable state.  `exec_inv_along` is the
guarded one: what every step *that meets a condition* preserves holds in every
state reached by a run whose steps all meet it.  `exec_sum_along` is the rule
of a measure that such steps move by a known amount, and `exec_filter_along`
the one that compares a run with the run that leaves some steps out.
-/
import Mathlib.Algebra.BigOperators.Group.List.Basic
import Mathlib.Order.Basic

namespace StepSystem

open List

variable {σ α β : Type*} {step : σ → α → σ} {s : σ} {I : σ → Prop} {G : σ → α → Prop} {ops : List α}

/-! ### Runs -/

/-- The state reached from `s` by performing `ops` in order. -/
def exec (step : σ → α → σ) (s : σ) (ops : List α) : σ := ops.foldl step s

@[simp] theorem exec_nil (s : σ) : exec step s [] = s := rfl

@[simp] theorem exec_cons (s : σ) (a : α) (ops : List α) :
    exec step s (a :: ops) = exec step (step s a) ops := rfl

theorem exec_append (s : σ) (ops₁ ops₂ : List α) :
    exec step s (ops₁ ++ ops₂) = exec step (exec step s ops₁) ops₂ := by
  simp [exec]

/-! ### Invariants -/

/-- **Invariant rule**: what every step preserves holds in every reachable
state. -/
theorem exec_inv (hstep : ∀ s a, I s → I (step s a)) (hs : I s) (ops : List α) : I (exec step s ops) := by
  induction ops generalizing s with
  | nil => exact hs
  | cons a ops ih => exact ih (hstep s a hs)

/-- Every step of the run of `ops` from `s` meets the condition `G`, which
sees the state before the step and the label. -/
def Along (step : σ → α → σ) (G : σ → α → Prop) : σ → List α → Prop
  | _, [] => True
  | s, a :: ops => G s a ∧ Along step G (step s a) ops

instance Along.decidable {G : σ → α → Prop} [∀ s a, Decidable (G s a)] :
    ∀ (s : σ) (ops : List α), Decidable (Along step G s ops)
  | _, [] => isTrue trivial
  | s, a :: ops => @instDecidableAnd _ _ _ (Along.decidable (step s a) ops)

@[simp] theorem along_nil (s : σ) : Along step G s [] := trivial

@[simp] theorem along_cons (s : σ) (a : α) (ops : List α) :
    Along step G s (a :: ops) ↔ G s a ∧ Along step G (step s a) ops := Iff.rfl

theorem along_append {ops₁ ops₂ : List α} :
    Along step G s (ops₁ ++ ops₂) ↔ Along step G s ops₁ ∧ Along step G (exec step s ops₁) ops₂ := by
  induction ops₁ generalizing s with
  | nil => exact (and_iff_right trivial).symm
  | cons a ops₁ ih =>
    rw [cons_append, along_cons, along_cons, ih, exec_cons, and_assoc]

theorem along_of_forall {P : α → Prop} (h : ∀ a ∈ ops, P a) (s : σ) :
    Along step (fun _ a => P a) s ops := by
  induction ops generalizing s with
  | nil => trivial
  | cons a ops ih =>
    obtain ⟨ha, hops⟩ := forall_mem_cons.mp h
    exact ⟨ha, ih hops (step s a)⟩

theorem Along.mono {H : σ → α → Prop} (hG : Along step G s ops) (h : ∀ s a, G s a → H s a) :
    Along step H s ops := by
  induction ops generalizing s with
  | nil => trivial
  | cons a ops ih => exact ⟨h s a hG.1, ih hG.2⟩

theorem Along.and {G H : σ → α → Prop} (hG : Along step G s ops)
    (hH : Along step H s ops) : Along step (fun s a => G s a ∧ H s a) s ops := by
  induction ops generalizing s with
  | nil => trivial
  | cons a ops ih => exact ⟨⟨hG.1, hH.1⟩, ih hG.2 hH.2⟩

/-- **Guarded invariant rule**: what every step meeting `G` preserves holds in
every state reached by a run whose steps all meet `G`. -/
theorem exec_inv_along (hstep : ∀ s a, G s a → I s → I (step s a)) (hs : I s)
    (hG : Along step G s ops) : I (exec step s ops) := by
  induction ops generalizing s with
  | nil => exact hs
  | cons a ops ih => exact ih (hstep s a hG.1 hs) hG.2

/-- **Measure rule**: where every step meeting `G` adds `w a` to the measure
`f`, a run whose steps all meet `G` adds the sum. -/
theorem exec_sum_along {M : Type*} [AddCommMonoid M] {f : σ → M} {w : α → M}
    (hstep : ∀ s a, G s a → f (step s a) = f s + w a)
    (hG : Along step G s ops) : f (exec step s ops) = f s + (ops.map w).sum := by
  induction ops generalizing s with
  | nil => rw [map_nil, sum_nil, add_zero]; rfl
  | cons a ops ih =>
    rw [exec_cons, ih hG.2, hstep s a hG.1, map_cons, sum_cons, add_assoc]

/-- **Omission rule**: where `p`-steps keep two states related and the others,
meeting `G`, need not be taken by the second, the second run may leave them
out. -/
theorem exec_filter_along {R : σ → σ → Prop} {p : α → Bool}
    (hboth : ∀ s t a, p a = true → R s t → R (step s a) (step t a))
    (hskip : ∀ s t a, p a = false → G s a → R s t → R (step s a) t)
    {t : σ} (h : R s t) (hG : Along step G s ops) :
    R (exec step s ops) (exec step t (ops.filter p)) := by
  induction ops generalizing s t with
  | nil => exact h
  | cons a ops ih =>
    rcases ha : p a with - | -
    · rw [filter_cons_of_neg (by simp [ha])]
      exact ih (hskip s t a ha hG.1 h) hG.2
    · rw [filter_cons_of_pos ha]
      exact ih (hboth s t a ha h) hG.2

end StepSystem
