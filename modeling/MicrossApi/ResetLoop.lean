/-
MicrossApi/ResetLoop.lean

Whether the loop ends that catches up with missed resets
(`maybeResetUserSubscriptionWithPlanTx`, model/subscription.go).

Each reset has to lie after the one before.  With a custom period this depends on
how its seconds wrap around as nanoseconds.  For days, weeks and months it is a
matter of the zone: the midnight that `time.Date` is asked for must be there, and
no instant of an earlier day may come after it (`Calendar.Begins`).  Where clocks
are set forward at midnight there is none, and west of Greenwich `time.Date` gives
an hour of the day before, at which the loop stays for ever.
-/
import MicrossApi.Subscription

namespace MicrossApi

variable {cal : Calendar} {plan : SubscriptionPlan} {t d endTime now : Int}

/-! ### Midnights -/

/-- `time.Date` gives the midnight at which day `d` begins: it is one, and comes
after all instants of earlier days. -/
structure Calendar.Begins (cal : Calendar) (d : Int) : Prop where
  midnight : cal.wallTime (cal.date (86400 * d)) = 86400 * d
  first : ∀ t, cal.wallTime t < 86400 * d → t < cal.date (86400 * d)

/-- The day, week or month of `t` is counted from a midnight to a midnight. -/
def Calendar.Regular (cal : Calendar) (t : Int) : ResetPeriod → Prop
  | .daily => cal.Begins (cal.day t) ∧ cal.Begins (cal.day t + 1)
  | .weekly => cal.Begins (cal.day t) ∧
      cal.Begins (cal.day t + (8 - if cal.weekday t = 0 then 7 else cal.weekday t))
  | .monthly => cal.Begins (cal.monthStart (cal.month (cal.day t))) ∧
      cal.Begins (cal.monthStart (cal.month (cal.day t) + 1))
  | .never | .custom => True

/-- Where clocks are never set, every day begins. -/
theorem begins_of_fixed {c : Int} (h : ∀ t, cal.offset t = c) (d : Int) : cal.Begins d := by
  refine ⟨?_, fun t ht => ?_⟩
  · simp only [Calendar.wallTime, Calendar.date, h]
    omega
  · simp only [Calendar.wallTime, Calendar.date, h] at ht ⊢
    omega

theorem Calendar.Begins.lt_date (h : cal.Begins d) (ht : cal.day t < d) : t < cal.date (86400 * d) := by
  refine h.first t ?_
  unfold Calendar.day at ht
  omega

/-- From midnight `AddDate` goes to a midnight. -/
theorem Calendar.Begins.addDate (h : cal.Begins d) (months days : Int) :
    cal.addDate (cal.date (86400 * d)) 0 months days = cal.date (86400 *
      (cal.monthStart (cal.month d + months) + (d - cal.monthStart (cal.month d)) + days)) := by
  have hday : cal.day (cal.date (86400 * d)) = d := by
    rw [Calendar.day, h.midnight]
    omega
  unfold Calendar.addDate
  rw [hday, h.midnight]
  simp

theorem lt_civilReset {next : Int} (hregular : cal.Regular t (normalizeResetPeriod plan.quotaResetPeriod))
    (hcivil : normalizeResetPeriod plan.quotaResetPeriod ≠ .custom)
    (h : nextResetCandidate cal t plan = some next) : t < next := by
  unfold nextResetCandidate at h
  generalize normalizeResetPeriod plan.quotaResetPeriod = period at hregular hcivil h
  cases period with
  | never => cases h
  | daily =>
    obtain ⟨hday, hnext⟩ := hregular
    obtain rfl := Option.some.inj h
    rw [Calendar.startOfDay, hday.addDate, Int.add_zero, add_sub_cancel]
    exact hnext.lt_date (Int.lt_succ _)
  | weekly =>
    obtain ⟨hday, hnext⟩ := hregular
    obtain rfl := Option.some.inj h
    rw [Calendar.startOfDay, hday.addDate, Int.add_zero, add_sub_cancel]
    refine hnext.lt_date ?_
    unfold Calendar.weekday
    split <;> omega
  | monthly =>
    obtain ⟨hmonth, hnext⟩ := hregular
    obtain rfl := Option.some.inj h
    rw [Calendar.startOfMonth, hmonth.addDate, cal.month_monthStart, Int.sub_self, Int.add_zero,
      Int.add_zero]
    exact hnext.lt_date (cal.lt_monthStart _)
  | custom => exact absurd rfl hcivil

/-! ### The loop -/

/-- In the first `n` rounds of the loop, the next reset lies after its base. -/
def Progresses (cal : Calendar) (plan : SubscriptionPlan) (endTime now : Int) : Nat → Int → Int → Prop
  | 0, _, _ => True
  | n + 1, base, next => 0 < next ∧ next ≤ now → base < next ∧
      Progresses cal plan endTime now n next (calcNextResetTime cal next plan endTime)

theorem nextResetCandidate_of_pos {base endTime : Int} (h : 0 < calcNextResetTime cal base plan endTime) :
    nextResetCandidate cal base plan = some (calcNextResetTime cal base plan endTime) := by
  unfold calcNextResetTime at h ⊢
  rcases hnext : nextResetCandidate cal base plan with - | next
  · simp [hnext] at h
  · by_cases hend : 0 < endTime ∧ endTime < next
    · simp [hnext, hend] at h
    · simp [hend]

/-- A reset that is due lies after its base, unless the seconds of a custom
period wrap around to less than one. -/
theorem lt_calcNextResetTime_iff {base : Int}
    (hplan : normalizeResetPeriod plan.quotaResetPeriod = .custom → 0 < plan.quotaResetCustomSeconds)
    (hregular : cal.Regular base (normalizeResetPeriod plan.quotaResetPeriod))
    (hpos : 0 < calcNextResetTime cal base plan endTime) :
    base < calcNextResetTime cal base plan endTime ↔
      (normalizeResetPeriod plan.quotaResetPeriod = .custom →
        10 ^ 9 ≤ (plan.quotaResetCustomSeconds * 10 ^ 9).bmod (2 ^ 64)) := by
  have hnext := nextResetCandidate_of_pos hpos
  by_cases hp : normalizeResetPeriod plan.quotaResetPeriod = .custom
  · simp only [nextResetCandidate, hp, not_le.mpr (hplan hp), if_false, addSeconds,
      Option.some.injEq] at hnext
    rw [← hnext]
    constructor
    · intro h _
      omega
    · intro h
      have := h hp
      omega
  · exact iff_of_true (lt_civilReset hregular hp hnext) fun h => absurd h hp

section Ends

variable {first : Int} (hnext : ∀ base, first ≤ base → base ≤ max first now →
  0 < calcNextResetTime cal base plan endTime → base < calcNextResetTime cal base plan endTime)

include hnext

theorem progresses_of_lt {base : Int} (hfirst : first ≤ base) (hnow : base ≤ max first now) (n : Nat) :
    Progresses cal plan endTime now n base (calcNextResetTime cal base plan endTime) := by
  induction n generalizing base with
  | zero => trivial
  | succ n ih =>
    intro hdue
    have hlt := hnext base hfirst hnow hdue.1
    exact ⟨hlt, ih (hfirst.trans hlt.le) (hdue.2.trans (le_max_right _ _))⟩

/-- There are no more rounds than seconds between the base and now. -/
theorem advanceReset_isSome {base : Int} {fuel : Nat} (hfirst : first ≤ base) (hnow : base ≤ max first now)
    (hfuel : now - base ≤ fuel) (advanced : Bool) : (advanceReset cal plan endTime now fuel advanced base
      (calcNextResetTime cal base plan endTime)).isSome := by
  induction fuel generalizing advanced base with
  | zero =>
    unfold advanceReset
    split
    next hdue =>
      have hlt := hnext base hfirst hnow hdue.1
      omega
    · rfl
  | succ fuel ih =>
    unfold advanceReset
    split
    next hdue =>
      have hlt := hnext base hfirst hnow hdue.1
      exact ih (hfirst.trans hlt.le) (hdue.2.trans (le_max_right _ _)) (by omega) true
    · rfl

end Ends

/-- A plan that resets every `n` seconds. -/
def everySeconds (n : Int) : SubscriptionPlan :=
  { id := 1, quotaResetPeriod := "custom", quotaResetCustomSeconds := n }

/-- A plan that resets every day. -/
def everyDay : SubscriptionPlan := { id := 1, quotaResetPeriod := "daily" }

/-- A reset that is its own next one is never passed. -/
theorem advanceReset_stays (hstays : calcNextResetTime cal t plan endTime = t) (hpos : 0 < t)
    (hnow : t ≤ now) (fuel : Nat) (advanced : Bool) (base : Int) :
    advanceReset cal plan endTime now fuel advanced base t = none := by
  induction fuel generalizing advanced base with
  | zero =>
    unfold advanceReset
    exact if_pos ⟨hpos, hnow⟩
  | succ fuel ih =>
    unfold advanceReset
    rw [if_pos ⟨hpos, hnow⟩, hstays]
    exact ih true t

/-- A zone four hours west whose clocks are set forward by an hour at the start of
day 1. -/
def westernSpring : Calendar :=
  { utcDays with offset := fun t => if t < 100800 then -14400 else -10800 }

end MicrossApi
