/-
MicrossApi/Rounding.lean

Exact decimals and their rounding.  A decimal is a rational number; rounding
to an integer goes half away from zero, the rule of commercial arithmetic.
The lemmas reduce a comparison of a rounded value with an integer to a
comparison of the unrounded value, which is how every bound on a rounded
amount is proved.
-/
import Mathlib.Algebra.Order.Floor.Ring
import Mathlib.Data.Rat.Floor
import Mathlib.Tactic.Linarith
import Mathlib.Tactic.Positivity

namespace Rounding

open List

/-- Round to the nearest integer, halves away from zero. -/
def roundHalfAway (x : ℚ) : ℤ :=
  if 0 ≤ x then ⌊x + 1 / 2⌋ else -⌊-x + 1 / 2⌋

@[simp] theorem roundHalfAway_intCast (n : ℤ) : roundHalfAway n = n := by
  have hhalf : ∀ m : ℤ, ⌊(m : ℚ) + 1 / 2⌋ = m := by
    intro m
    rw [Int.floor_intCast_add, Int.floor_eq_zero_iff.mpr ⟨by norm_num, by norm_num⟩, add_zero]
  unfold roundHalfAway
  split
  · exact hhalf n
  have := hhalf (-n)
  push_cast at this
  rw [this, neg_neg]

@[simp] theorem roundHalfAway_zero : roundHalfAway 0 = 0 := by
  simpa using roundHalfAway_intCast 0

variable {x : ℚ}

/-- The sign of the value is kept. -/
theorem roundHalfAway_nonneg (hx : 0 ≤ x) : 0 ≤ roundHalfAway x := by
  rw [roundHalfAway, if_pos hx]
  exact Int.floor_nonneg.mpr (by linarith)

theorem roundHalfAway_neg (x : ℚ) : roundHalfAway (-x) = -roundHalfAway x := by
  rcases lt_trichotomy x 0 with hx | rfl | hx
  · simp [roundHalfAway, hx.le, not_le.mpr hx]
  · simp
  · simp [roundHalfAway, hx.le, not_le.mpr hx]

/-- A non-negative value rounds to at most `n` exactly when it lies below
`n + 1/2`. -/
theorem roundHalfAway_le_iff (hx : 0 ≤ x) (n : ℤ) : roundHalfAway x ≤ n ↔ x < n + 1 / 2 := by
  rw [roundHalfAway, if_pos hx, ← Int.lt_add_one_iff, Int.floor_lt]
  push_cast
  constructor <;> intro h <;> linarith

variable (places : ℕ)

/-- The value rounded to `places` places. -/
def round (x : ℚ) : ℚ := roundHalfAway (x * 10 ^ places) / 10 ^ places

/-! ### Text -/

/-- The digits of `|n| / 10 ^ places`, before and after the point. -/
def digitsOf (n : ℤ) : List Char × List Char :=
  let digits := Nat.toDigits 10 n.natAbs
  let padded := List.replicate (places + 1 - digits.length) '0' ++ digits
  padded.splitAt (padded.length - places)

/-- The value rounded to `places` places, all of them written. -/
def stringFixed (x : ℚ) : String :=
  let n := roundHalfAway (x * 10 ^ places)
  let (whole, fraction) := digitsOf places n
  String.ofList ((if n < 0 then ['-'] else []) ++ whole ++
    if fraction = [] then [] else '.' :: fraction)

/-- The value rounded to `places` places, without zeros at the end. -/
def stringRounded (x : ℚ) : String :=
  let n := roundHalfAway (x * 10 ^ places)
  let (whole, fraction) := digitsOf places n
  let fraction := (fraction.reverse.dropWhile (· = '0')).reverse
  String.ofList ((if n < 0 then ['-'] else []) ++ whole ++
    if fraction = [] then [] else '.' :: fraction)

/-- A number is written with digits, a sign and a point. -/
theorem mem_stringFixed {places : ℕ} {c : Char} (h : c ∈ (stringFixed places x).toList) :
    c.isDigit = true ∨ c = '-' ∨ c = '.' := by
  have hdigits : ∀ n : ℤ, ∀ d, d ∈ (digitsOf places n).1 ∨ d ∈ (digitsOf places n).2 →
      d.isDigit = true := by
    intro n d hd
    unfold digitsOf at hd
    simp only [splitAt_eq] at hd
    have hpadded := hd.elim mem_of_mem_take mem_of_mem_drop
    rcases mem_append.mp hpadded with hzero | hdigit
    · rw [(mem_replicate.mp hzero).2]
      rfl
    · exact Nat.isDigit_of_mem_toDigits (by decide) (by decide) hdigit
  unfold stringFixed at h
  simp only [String.toList_ofList, mem_append] at h
  rcases h with (hsign | hwhole) | hfraction
  · split at hsign
    · exact Or.inr (Or.inl (mem_singleton.mp hsign))
    · cases hsign
  · exact Or.inl (hdigits _ c (Or.inl hwhole))
  split at hfraction
  · cases hfraction
  rcases mem_cons.mp hfraction with hpoint | hfraction
  · exact Or.inr (Or.inr hpoint)
  · exact Or.inl (hdigits _ c (Or.inr hfraction))

end Rounding
