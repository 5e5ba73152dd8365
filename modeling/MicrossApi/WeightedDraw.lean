/-
MicrossApi/WeightedDraw.lean

Drawing from a weighted list: start from a random number below the total
weight, subtract the weights one by one and take the element at which the rest
falls low enough.  What "low enough" means is a parameter, since both `< 0`
and `≤ 0` are in use; any rule that stops below zero finds an element.

Stopping below zero gives each place as many numbers as it has weight
(`draws_below`).  Stopping at zero takes one from a later place for the first
(`draws_first`).
-/
import Mathlib.Algebra.BigOperators.Group.List.Basic
import Mathlib.Algebra.Ring.Int.Defs
import Mathlib.Algebra.Ring.Nat

namespace WeightedDraw

open List

variable {α : Type*} {stop : Int → Bool} {weight : α → Int} {l : List α} {r : Int} {a : α}
  {choose : Nat → Option Nat}

/-- Subtract the weights from `r` and take the element at which the rest
meets `stop`. -/
def pick (stop : Int → Bool) (weight : α → Int) : List α → Int → Option α
  | [], _ => none
  | a :: rest, r =>
    if stop (r - weight a) then some a else pick stop weight rest (r - weight a)

theorem mem_of_pick (h : pick stop weight l r = some a) : a ∈ l := by
  induction l generalizing r with
  | nil => cases h
  | cons b rest ih =>
    unfold pick at h
    split at h
    · cases h
      exact mem_cons_self
    · exact mem_cons_of_mem _ (ih h)

/-- A number below the total weight draws an element. -/
theorem pick_isSome (hstop : ∀ x < 0, stop x = true) (hr : r < (l.map weight).sum) (hne : l ≠ []) :
    (pick stop weight l r).isSome := by
  induction l generalizing r with
  | nil => exact absurd rfl hne
  | cons b rest ih =>
    unfold pick
    split
    · rfl
    rename_i hgo
    rw [map_cons, sum_cons] at hr
    refine ih (by omega) ?_
    rintro rfl
    exact hgo (hstop _ (by simp at hr; omega))

/-- The place at which `pick` stops. -/
def place (stop : Int → Bool) (weight : α → Int) : List α → Int → Option Nat
  | [], _ => none
  | a :: rest, r =>
    if stop (r - weight a) then some 0 else (place stop weight rest (r - weight a)).map (· + 1)

theorem pick_eq_place (l : List α) (r : Int) :
    pick stop weight l r = (place stop weight l r).bind (l[·]?) := by
  induction l generalizing r with
  | nil => rfl
  | cons a rest ih =>
    unfold pick place
    split
    · rfl
    · rw [ih, Option.bind_map]
      rfl

/-- How many numbers below `total` lead to place `i`. -/
def draws (choose : Nat → Option Nat) (total i : Nat) : Nat :=
  (List.range total).countP fun r => choose r = some i

/-- The numbers below the weight of the first place, and the others. -/
theorem draws_add (choose : Nat → Option Nat) (w total i : Nat) :
    draws choose (w + total) i = draws choose w i + draws (fun r => choose (w + r)) total i := by
  unfold draws
  rw [range_add, countP_append, countP_map]
  rfl

theorem draws_eq {total i : Nat} (h : ∀ r < total, choose r = some i) :
    draws choose total i = total := by
  unfold draws
  rw [countP_eq_length.mpr fun r hr => decide_eq_true (h r (mem_range.mp hr)), length_range]

theorem draws_eq_zero {total i : Nat} (h : ∀ r < total, choose r ≠ some i) :
    draws choose total i = 0 :=
  countP_eq_zero.mpr fun r hr => by simpa using h r (mem_range.mp hr)

/-- **Stopping below zero is exact**: each place is drawn by as many numbers as
it has weight. -/
theorem draws_below {w : α → Nat} (hw : ∀ a ∈ l, weight a = w a) {i : Nat} (ha : l[i]? = some a) :
    draws (fun r => place (· < 0) weight l r) (l.map w).sum i = w a := by
  induction l generalizing i with
  | nil => cases ha
  | cons b rest ih =>
    obtain ⟨hb, hrest⟩ := forall_mem_cons.mp hw
    have hfirst : ∀ r < w b, place (· < 0) weight (b :: rest) r = some 0 := fun r hr => by
      unfold place
      rw [if_pos (decide_eq_true (by omega))]
    have hlater : ∀ r : Nat, place (· < 0) weight (b :: rest) ((w b + r : Nat) : Int)
        = (place (· < 0) weight rest r).map (· + 1) := fun r => by
      show (if _ then _ else _) = _
      rw [if_neg (by simpa using by omega)]
      congr 2
      omega
    rw [map_cons, sum_cons, draws_add]
    simp only [hlater]
    cases i with
    | zero =>
      obtain rfl := Option.some.inj ha
      rw [draws_eq hfirst, draws_eq_zero fun r _ => by simp, Nat.add_zero]
    | succ =>
      rw [draws_eq_zero fun r hr => by simp [hfirst r hr], ← ih hrest ha]
      simp [draws]

/-- Stopping at zero, the first place is drawn by one number more than it has
weight, if there are more numbers. -/
theorem draws_first {w : Nat} (ha : weight a = w) (rest : List α) (total : Nat) :
    draws (fun r => place (· ≤ 0) weight (a :: rest) r) (w + total) 0 = w + min total 1 := by
  have hfirst : ∀ r : Nat, place (· ≤ 0) weight (a :: rest) r = some 0 ↔ r ≤ w := fun r => by
    unfold place
    by_cases h : r ≤ w <;> simp [ha]
  rw [draws_add, draws_eq fun r hr => (hfirst r).mpr hr.le]
  cases total with
  | zero => rfl
  | succ n =>
    rw [Nat.add_comm n 1, draws_add, draws_eq fun r hr => (hfirst _).mpr (by omega),
      draws_eq_zero fun r _ h => by have := (hfirst _).mp h; omega]
    omega

end WeightedDraw
