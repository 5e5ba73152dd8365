/-
MicrossApi/TwoFactor.lean

The second factor (model/twofa.go).  A request loads the record, checks the lock
on its copy, evaluates the code and then records the outcome in the row: a wrong
code by a compare-and-swap of `failed_attempts` that is tried five times, a right
one by resetting the row.  At `MaxFailAttempts` failures the row is locked for
`LockoutDuration` seconds.

The lock is checked on the copy, so that requests at the same time all evaluate
their codes before the first failure is recorded.  Requests one after another
work on the row itself: to the account each of their steps is one of four
(`LockStep`), of which the evaluation of a code and the recording of a failure
need the row unlocked.  So the failures on record count the codes evaluated, and
from the fifth on nothing is evaluated until the lock it has set runs out.
-/
import MicrossApi.Interleaving
import Mathlib.Algebra.Order.Group.Int

namespace MicrossApi

open StepSystem Interleaving

/-! ### The record -/

/-- `MaxFailAttempts` (common/totp.go). -/
def maxFailAttempts : Nat := 5

/-- `LockoutDuration`, in nanoseconds. -/
def lockoutDuration : Int := 300 * 10 ^ 9

/-- The columns of `TwoFA` that validation reads and writes; times are in
nanoseconds. -/
structure TwoFA where
  failedAttempts : Nat := 0
  lockedUntil : Option Int := none
  lastUsedAt : Option Int := none
deriving DecidableEq, Repr

/-- `IsLocked` at time `now`. -/
def TwoFA.IsLocked (t : TwoFA) (now : Int) : Prop := ∃ u ∈ t.lockedUntil, now < u
deriving Decidable

/-- The clock and the row of the user.  `evaluated` counts the codes evaluated so
far. -/
structure TwoFAStore where
  clock : Int
  row : TwoFA
  evaluated : Nat := 0
deriving DecidableEq, Repr

/-- The account is unlocked and no failure is on record. -/
def TwoFAStore.Fresh (s : TwoFAStore) : Prop :=
  s.row.failedAttempts = 0 ∧ ¬ s.row.IsLocked s.clock
deriving Decidable

/-! ### A request -/

/-- `ValidateTOTPAndUpdateUsage` or `ValidateBackupCodeAndUpdateUsage`. -/
inductive CodeKind where
  | totp
  | backup
deriving DecidableEq, Repr

/-- A request loads the record and tries its methods in turn until one accepts. -/
structure TwoFARequest where
  first : CodeKind
  rest : List CodeKind := []
deriving DecidableEq, Repr

inductive TwoFAErr where
  /-- the account is locked until then -/
  | locked (t : TwoFA)
  /-- not the form of a backup code -/
  | malformed
  /-- an error of the database, passed on -/
  | passed
deriving DecidableEq, Repr

/-- What a step is answered: whether the statement succeeds, whether the code has
the form of a backup code, and whether it is right. -/
structure TwoFAAnswer where
  ok : Bool := true
  wellFormed : Bool := true
  valid : Bool := false
deriving DecidableEq, Repr

/-- Where a request is.  `t` is its copy of the record and `rest` the methods still
to try. -/
inductive Guess where
  /-- `GetTwoFAByUserId` -/
  | load (request : TwoFARequest)
  /-- `IsLocked` -/
  | check (t : TwoFA) (kind : CodeKind) (rest : List CodeKind)
  | evaluate (t : TwoFA) (kind : CodeKind) (rest : List CodeKind)
  /-- `IncrementFailedAttempts`: read the row, with so many tries left -/
  | read (t : TwoFA) (rest : List CodeKind) (tries : Nat)
  /-- look at the clock and at what was read -/
  | compare (t : TwoFA) (rest : List CodeKind) (tries : Nat) (current : TwoFA)
  /-- the conditional update -/
  | swap (t : TwoFA) (rest : List CodeKind) (tries : Nat) (current : TwoFA) (now : Int)
  /-- a right code: `updateUsageState` -/
  | succeed
  | ended (result : Except TwoFAErr Bool)
deriving DecidableEq

/-- A method has not accepted: the next one, if there is one. -/
def Guess.proceed (t : TwoFA) (result : Except TwoFAErr Bool) : List CodeKind → Guess
  | [] => .ended result
  | kind :: rest => .check t kind rest

/-- `maxUpdateRetries`. -/
def maxUpdateRetries : Nat := 5

/-- The failure count and the lock that `IncrementFailedAttempts` writes. -/
def TwoFA.increment (current : TwoFA) (now : Int) : Nat × Option Int :=
  let next := current.failedAttempts + 1
  (next, if maxFailAttempts ≤ next then some (now + lockoutDuration) else current.lockedUntil)

/-- The next step of a request. -/
def Guess.next (a : TwoFAAnswer) (s : TwoFAStore) : Guess → TwoFAStore × Guess
  | .load request =>
    (s, if a.ok then .check s.row request.first request.rest else .ended (.error .passed))
  | .check t kind rest =>
    (s, if t.IsLocked s.clock then .proceed t (.error (.locked t)) rest else .evaluate t kind rest)
  | .evaluate t kind rest =>
    -- a backup code is compared after its form is checked and the hashes are read
    if kind = .backup ∧ a.wellFormed = false then (s, .proceed t (.error .malformed) rest)
    else if kind = .backup ∧ a.ok = false then (s, .proceed t (.error .passed) rest)
    else
      ({ s with evaluated := s.evaluated + 1 },
        if a.valid then .succeed else .read t rest maxUpdateRetries)
  | .read t rest tries =>
    match tries with
    | 0 => (s, .proceed t (.ok false) rest)
    | tries + 1 =>
      (s, if a.ok then .compare t rest tries s.row else .proceed t (.ok false) rest)
  | .compare t rest tries current =>
    if current.IsLocked s.clock then
      (s, .proceed { t with
        failedAttempts := current.failedAttempts, lockedUntil := current.lockedUntil }
        (.ok false) rest)
    else (s, .swap t rest tries current s.clock)
  | .swap t rest tries current now =>
    if a.ok = false then (s, .proceed t (.ok false) rest)
    else if s.row.failedAttempts = current.failedAttempts ∧ ¬ s.row.IsLocked now then
      let (failedAttempts, lockedUntil) := current.increment now
      ({ s with row := { s.row with failedAttempts, lockedUntil } },
        .proceed { t with failedAttempts, lockedUntil } (.ok false) rest)
    else (s, .read t rest tries)
  | .succeed =>
    (if a.ok then
      { s with row := { failedAttempts := 0, lockedUntil := none, lastUsedAt := some s.clock } }
     else s, .ended (.ok true))
  | .ended result => (s, .ended result)

/-- The requests of one user; an event is that so many nanoseconds pass. -/
def twoFAProgram : Program TwoFAStore Guess Nat TwoFARequest TwoFAAnswer where
  event s nanoseconds := { s with clock := s.clock + nanoseconds }
  start s request := (s, .load request)
  next _ a s t := t.next a s

/-! ### One request at a time -/

/-- The code that is evaluated in the step is wrong. -/
def WrongCode (_ : Pool TwoFAStore Guess) : Op Nat TwoFARequest TwoFAAnswer → Prop
  | .go _ a => a.valid = false
  | _ => True

instance decidableWrongCode (p op) : Decidable (WrongCode p op) := by
  unfold WrongCode
  split <;> infer_instance

/-- The request has not loaded the record yet, or it is over. -/
def Guess.Away : Guess → Prop
  | .load _ | .ended _ => True
  | _ => False

instance (g : Guess) : Decidable g.Away := by
  unfold Guess.Away
  split <;> infer_instance

/-- The statement of the step succeeds if it is one that records a failure. -/
def Guess.Records (a : TwoFAAnswer) : Guess → Prop
  | .read .. | .swap .. => a.ok = true
  | _ => True

instance (a) (g : Guess) : Decidable (g.Records a) := by
  unfold Guess.Records
  split <;> infer_instance

/-- A request goes on only while no other is under way, and its failures can be
recorded. -/
def OneAtATime (p : Pool TwoFAStore Guess) : Op Nat TwoFARequest TwoFAAnswer → Prop
  | .go k a => (∀ g ∈ p.threads[k]?, g.Records a) ∧
      ∀ j < p.threads.length, j ≠ k → ∀ g ∈ p.threads[j]?, g.Away
  | _ => True

instance decidableOneAtATime (p op) : Decidable (OneAtATime p op) := by
  unfold OneAtATime
  split <;> infer_instance

/-- One for a code that has been found wrong and is not recorded yet. -/
def Guess.pending : Guess → Nat
  | .read .. | .compare .. | .swap .. => 1
  | _ => 0

/-- What the request under way knows when all codes are wrong, at a time not
before `since`: its copy is the row. -/
def Guess.Knows (since : Int) (s : TwoFAStore) : Guess → Prop
  | .load _ | .ended _ => True
  | .check t .. => t = s.row
  | .evaluate t .. => t = s.row ∧ ¬ s.row.IsLocked s.clock
  | .read t _ tries => t = s.row ∧ ¬ s.row.IsLocked s.clock ∧ 0 < tries
  | .compare t _ _ current => t = s.row ∧ ¬ s.row.IsLocked s.clock ∧ current = s.row
  | .swap t _ _ current now => t = s.row ∧ current = s.row ∧ ¬ s.row.IsLocked now ∧
      now ≤ s.clock ∧ (s.row.failedAttempts = 0 ∨ since ≤ now)
  | .succeed => False

/-- The row after `IncrementFailedAttempts`. -/
def TwoFAStore.record (s : TwoFAStore) (now : Int) : TwoFAStore :=
  { s with row := { s.row with
    failedAttempts := (s.row.increment now).1, lockedUntil := (s.row.increment now).2 } }

/-- What happens to the store, and to the number of codes that are evaluated and
not recorded. -/
inductive LockStep (since : Int) (s : TwoFAStore) : Nat → TwoFAStore → Nat → Prop where
  | quiet (n : Nat) : LockStep since s n s n
  | pass (n nanoseconds : Nat) : LockStep since s n { s with clock := s.clock + nanoseconds } n
  | evaluate (h : ¬ s.row.IsLocked s.clock) :
      LockStep since s 0 { s with evaluated := s.evaluated + 1 } 1
  | record (now : Int) (h : ¬ s.row.IsLocked now) (hnow : now ≤ s.clock)
      (hsince : s.row.failedAttempts = 0 ∨ since ≤ now) : LockStep since s 1 (s.record now) 0

variable {s s' : TwoFAStore} {g : Guess} {since : Int} {e k n n' : Nat} {a : TwoFAAnswer}
  {p : Pool TwoFAStore Guess}

theorem TwoFA.IsLocked.anti {t : TwoFA} {now now' : Int} (h : t.IsLocked now') (hnow : now ≤ now') :
    t.IsLocked now := by
  obtain ⟨u, hu, hlt⟩ := h
  exact ⟨u, hu, lt_of_le_of_lt hnow hlt⟩

theorem LockStep.clock_le (h : LockStep since s n s' n') : s.clock ≤ s'.clock := by
  cases h with
  | pass => exact Int.le_add_of_nonneg_right (Int.natCast_nonneg _)
  | _ => exact le_refl _

/-- A method has not accepted, and the copy is the row. -/
theorem Guess.proceed_spec (since : Int) (s : TwoFAStore) (result : Except TwoFAErr Bool)
    (rest : List CodeKind) :
    (Guess.proceed s.row result rest).pending = 0 ∧ (Guess.proceed s.row result rest).Knows since s := by
  cases rest with
  | nil => exact ⟨rfl, trivial⟩
  | cons => exact ⟨rfl, rfl⟩

/-- **A step of the request under way** is one of those of the account. -/
theorem Guess.next_step (hwrong : a.valid = false) (ha : g.Records a) (hclock : since ≤ s.clock)
    (hg : g.Knows since s) : LockStep since s g.pending (g.next a s).1 (g.next a s).2.pending ∧
      (g.next a s).2.Knows since (g.next a s).1 := by
  have hquiet : ∀ (result : Except TwoFAErr Bool) rest,
      LockStep since s 0 s (Guess.proceed s.row result rest).pending ∧
        (Guess.proceed s.row result rest).Knows since s := by
    intro result rest
    obtain ⟨hpending, hknows⟩ := Guess.proceed_spec since s result rest
    rw [hpending]
    exact ⟨.quiet 0, hknows⟩
  cases g with
  | load =>
    dsimp only [Guess.next]
    split
    · exact ⟨.quiet 0, rfl⟩
    · exact ⟨.quiet 0, trivial⟩
  | check =>
    obtain rfl := hg
    dsimp only [Guess.next]
    split
    · exact hquiet ..
    next h =>
      exact ⟨.quiet 0, rfl, h⟩
  | evaluate =>
    obtain ⟨rfl, hopen⟩ := hg
    dsimp only [Guess.next]
    split
    · exact hquiet ..
    split
    · exact hquiet ..
    rw [hwrong]
    exact ⟨.evaluate hopen, rfl, hopen, Nat.succ_pos _⟩
  | read t rest tries =>
    obtain ⟨rfl, hopen, htries⟩ := hg
    have hok : a.ok = true := ha
    cases tries with
    | zero => exact absurd htries (lt_irrefl 0)
    | succ =>
      dsimp only [Guess.next]
      rw [hok]
      exact ⟨.quiet 1, rfl, hopen, rfl⟩
  | compare =>
    obtain ⟨rfl, hopen, rfl⟩ := hg
    dsimp only [Guess.next]
    rw [if_neg hopen]
    exact ⟨.quiet 1, rfl, rfl, hopen, le_refl _, .inr hclock⟩
  | swap t rest tries current now =>
    obtain ⟨rfl, rfl, hopen, hnow, hsince⟩ := hg
    have hok : a.ok = true := ha
    dsimp only [Guess.next]
    rw [hok, if_neg Bool.noConfusion, if_pos ⟨rfl, hopen⟩]
    obtain ⟨hpending, hknows⟩ := Guess.proceed_spec since (s.record now) (.ok false) rest
    have hrecord := LockStep.record now hopen hnow hsince
    rw [← hpending] at hrecord
    exact ⟨hrecord, hknows⟩
  | succeed => exact hg.elim
  | ended => exact ⟨.quiet 0, trivial⟩

/-- What is known does not depend on `since` while no failure is on record. -/
theorem Guess.Knows.of_zero (h : g.Knows since s) (hzero : s.row.failedAttempts = 0) (since' : Int) :
    g.Knows since' s := by
  cases g with
  | swap =>
    obtain ⟨hcopy, hcurrent, hopen, hnow, -⟩ := h
    exact ⟨hcopy, hcurrent, hopen, hnow, .inl hzero⟩
  | _ => exact h

theorem Guess.Knows.pass (h : g.Knows since s) (nanoseconds : Nat) :
    g.Knows since { s with clock := s.clock + nanoseconds } := by
  have hclock : s.clock ≤ s.clock + nanoseconds := by omega
  cases g with
  | evaluate => exact ⟨h.1, fun hl => h.2 (hl.anti hclock)⟩
  | read | compare => exact ⟨h.1, fun hl => h.2.1 (hl.anti hclock), h.2.2⟩
  | swap =>
    obtain ⟨hcopy, hcurrent, hopen, hnow, hsince⟩ := h
    exact ⟨hcopy, hcurrent, hopen, hnow.trans hclock, hsince⟩
  | _ => exact h

theorem Guess.Away.pending (h : g.Away) : g.pending = 0 := by
  cases g with
  | load | ended => rfl
  | _ => exact h.elim

theorem Guess.Away.knows (h : g.Away) : g.Knows since s := by
  cases g with
  | load | ended => trivial
  | _ => exact h.elim

/-! ### The requests together -/

/-- The request under way knows what it should. -/
def Serial (since : Int) : Pool TwoFAStore Guess → Prop :=
  Holds (fun s => since ≤ s.clock) fun s _ g => g.Knows since s

/-- **Requests one after another** do to the account what one of them does. -/
theorem Serial.step {op : Op Nat TwoFARequest TwoFAAnswer} (h : Serial since p)
    (hwrong : WrongCode p op) (halone : OneAtATime p op) :
    Serial since (twoFAProgram.step p op) ∧
      LockStep since p.shared (p.total Guess.pending) (twoFAProgram.step p op).shared
        ((twoFAProgram.step p op).total Guess.pending) := by
  cases op with
  | event nanoseconds =>
    have hclock : since ≤ p.shared.clock + nanoseconds := by
      have := h.shared
      omega
    exact ⟨Holds.event h hclock fun _ _ hg => hg.pass nanoseconds, .pass _ nanoseconds⟩
  | start request =>
    rw [total_start]
    exact ⟨Holds.start h h.shared (fun _ _ hg => hg) trivial, .quiet _⟩
  | go k a =>
    rcases hk : p.threads[k]? with - | g
    · rw [step_go_none a hk]
      exact ⟨h, .quiet _⟩
    obtain ⟨hrecords, hothers⟩ := halone
    have haway : ∀ j u, j ≠ k → p.threads[j]? = some u → u.Away := fun j u hj hu =>
      hothers j (List.getElem?_eq_some_iff.mp hu).1 hj u hu
    obtain ⟨hstep, hknows⟩ :=
      Guess.next_step hwrong (hrecords g hk) h.shared (h.thread k g hk)
    have hbefore : p.total Guess.pending = g.pending :=
      total_eq_of_others hk fun j u hj hu => (haway j u hj hu).pending
    have htotal := total_go (P := twoFAProgram) Guess.pending a hk
    have hafter : (twoFAProgram.step p (.go k a)).total Guess.pending = (g.next a p.shared).2.pending := by
      rw [hbefore] at htotal
      exact Nat.add_right_cancel (htotal.trans (Nat.add_comm ..))
    rw [hafter, hbefore, step_go a hk]
    refine ⟨⟨?_, fun j u hu => ?_⟩, hstep⟩
    · exact h.shared.trans hstep.clock_le
    rcases getElem?_set_cases hu with ⟨rfl, rfl⟩ | ⟨hj, hu⟩
    · exact hknows
    · exact (haway j u hj hu).knows

/-! ### The account -/

/-- At most one code is to be recorded, and then the row is not locked. -/
structure OneOpen (s : TwoFAStore) (n : Nat) : Prop where
  le_one : n ≤ 1
  unlocked : n ≠ 0 → ¬ s.row.IsLocked s.clock

theorem LockStep.oneOpen (h : LockStep since s n s' n') (ho : OneOpen s n) : OneOpen s' n' := by
  have hclock := h.clock_le
  cases h with
  | quiet => exact ho
  | pass =>
    exact ⟨ho.le_one, fun hn hl => ho.unlocked hn (hl.anti hclock)⟩
  | evaluate hopen => exact ⟨le_refl 1, fun _ => hopen⟩
  | record => exact ⟨Nat.zero_le 1, fun hn => absurd rfl hn⟩

/-- Since the `e`-th code, at time `since`, the codes evaluated are on record or
about to be, and the fifth failure has set the lock. -/
structure GuessesCounted (since : Int) (e : Nat) (s : TwoFAStore) (n : Nat) : Prop where
  evaluated : s.evaluated ≤ e + s.row.failedAttempts + n
  locked : s.row.failedAttempts = maxFailAttempts →
    ∃ u ∈ s.row.lockedUntil, since + lockoutDuration ≤ u

theorem LockStep.counted (h : LockStep since s n s' n') (hc : GuessesCounted since e s n) :
    GuessesCounted since e s' n' := by
  cases h with
  | quiet => exact hc
  | pass => exact ⟨hc.evaluated, hc.locked⟩
  | evaluate => exact ⟨Nat.succ_le_succ hc.evaluated, hc.locked⟩
  | record now _ _ hsince =>
    refine ⟨?_, fun hfive => ⟨now + lockoutDuration, ?_, ?_⟩⟩
    · have hle := hc.evaluated
      show s.evaluated ≤ e + (s.row.failedAttempts + 1) + 0
      omega
    · exact if_pos (le_of_eq hfive.symm)
    · have hfour : s.row.failedAttempts + 1 = maxFailAttempts := hfive
      rcases hsince with hzero | hsince
      · rw [hzero] at hfour
        cases hfour
      · omega

/-- Until time `u` the row is locked and no code is evaluated after the `e`-th. -/
def ShutUntil (u : Int) (e : Nat) (s : TwoFAStore) : Prop :=
  s.clock < u → s.row.lockedUntil = some u ∧ s.evaluated ≤ e

theorem LockStep.shutUntil {u : Int} (h : LockStep since s n s' n') (hs : ShutUntil u e s) :
    ShutUntil u e s' := by
  intro hlt
  obtain ⟨hlock, hle⟩ := hs (lt_of_le_of_lt h.clock_le hlt)
  cases h with
  | quiet | pass => exact ⟨hlock, hle⟩
  | evaluate hopen => exact absurd ⟨u, hlock, hlt⟩ hopen
  | record now hopen hnow => exact absurd ⟨u, hlock, lt_of_le_of_lt hnow hlt⟩ hopen

/-! ### Runs -/

/-- What each step of the account keeps, requests one after another keep. -/
theorem Serial.exec {Q : TwoFAStore → Nat → Prop} {ops : List (Op Nat TwoFARequest TwoFAAnswer)}
    (hQ : ∀ s n s' n', LockStep since s n s' n' → Q s n → Q s' n') (h : Serial since p)
    (hp : Q p.shared (p.total Guess.pending))
    (hops : Along twoFAProgram.step (fun p op => WrongCode p op ∧ OneAtATime p op) p ops) :
    Serial since (exec twoFAProgram.step p ops) ∧
      Q (exec twoFAProgram.step p ops).shared ((exec twoFAProgram.step p ops).total Guess.pending) := by
  refine exec_inv_along (I := fun p => Serial since p ∧ Q p.shared (p.total Guess.pending)) ?_ ⟨h, hp⟩ hops
  rintro p op ⟨hwrong, halone⟩ ⟨hserial, hq⟩
  obtain ⟨hserial', hstep⟩ := hserial.step hwrong halone
  exact ⟨hserial', hQ _ _ _ _ hstep hq⟩

/-- **From a moment at which the account is open with no failure on record, no
more codes are evaluated than may fail**, until the lock that the last of them
sets has run out: if all codes are wrong, the requests come one after another and
the failures can be recorded. -/
theorem lockout_bounds_guesses (s : TwoFAStore)
    (before counting after : List (Op Nat TwoFARequest TwoFAAnswer))
    (hwrong : Along twoFAProgram.step WrongCode { shared := s } (before ++ (counting ++ after)))
    (halone : Along twoFAProgram.step OneAtATime { shared := s } (before ++ (counting ++ after)))
    (hfresh : (exec twoFAProgram.step { shared := s } before).shared.Fresh) :
    let p := (exec twoFAProgram.step { shared := s } before).shared
    let m := (exec twoFAProgram.step { shared := s } (before ++ counting)).shared
    let q := (exec twoFAProgram.step { shared := s } (before ++ (counting ++ after))).shared
    (m.row.failedAttempts < maxFailAttempts → m.evaluated ≤ p.evaluated + maxFailAttempts) ∧
      (m.row.failedAttempts = maxFailAttempts → ∃ u ∈ m.row.lockedUntil,
        p.clock + lockoutDuration ≤ u ∧
          (q.clock < u → q.evaluated ≤ p.evaluated + maxFailAttempts)) := by
  have hguard := hwrong.and halone
  rw [along_append, along_append] at hguard
  obtain ⟨hbefore, hcounting, hafter⟩ := hguard
  simp only [exec_append]
  have hempty : Serial s.clock { shared := s } := ⟨le_refl _, by simp⟩
  obtain ⟨hserial, hopen⟩ := hempty.exec (Q := OneOpen) (fun _ _ _ _ => LockStep.oneOpen)
    ⟨Nat.zero_le 1, fun hn => absurd rfl hn⟩ hbefore
  generalize exec twoFAProgram.step { shared := s } before = p at *
  have hserial : Serial p.shared.clock p :=
    ⟨le_refl _, fun j g hg => Guess.Knows.of_zero (hserial.thread j g hg) hfresh.1 _⟩
  obtain ⟨hserial, hopen, hcounted⟩ := hserial.exec
    (Q := fun s n => OneOpen s n ∧ GuessesCounted p.shared.clock p.shared.evaluated s n)
    (fun _ _ _ _ hstep hq => ⟨hstep.oneOpen hq.1, hstep.counted hq.2⟩)
    ⟨hopen, by omega, fun hfive => absurd (hfresh.1.symm.trans hfive) (by decide)⟩ hcounting
  generalize exec twoFAProgram.step p counting = m at *
  refine ⟨fun hlt => ?_, fun hfive => ?_⟩
  · have hle := hcounted.evaluated
    have hone := hopen.le_one
    omega
  · obtain ⟨u, hu, hlong⟩ := hcounted.locked hfive
    refine ⟨u, hu, hlong, fun hq => ?_⟩
    have hshut : ShutUntil u (p.shared.evaluated + maxFailAttempts) m.shared := by
      intro hlt
      have hnone : m.total Guess.pending = 0 := by
        by_contra hn
        exact hopen.unlocked hn ⟨u, hu, hlt⟩
      have hle := hcounted.evaluated
      exact ⟨hu, by omega⟩
    exact ((hserial.exec (Q := fun s _ => ShutUntil u _ s)
      (fun _ _ _ _ => LockStep.shutUntil) hshut hafter).2 hq).2

/-- Request `k` loads the record and evaluates a wrong code, which is recorded. -/
def wrongRequest (k : Nat) : List (Op Nat TwoFARequest TwoFAAnswer) :=
  .start { first := .totp } :: List.replicate 6 (.go k {})

/-- Four requests, and a fifth with two codes: the second is not evaluated.  Nor is
that of a request in the last nanosecond of the lock. -/
theorem lockout_bounds_guesses_five :
    let run (ops : List (Op Nat TwoFARequest TwoFAAnswer)) :=
      (exec twoFAProgram.step { shared := { clock := 0, row := {} } } ops).shared
    let five := (List.range 4).flatMap wrongRequest ++
      .start { first := .totp, rest := [.backup] } :: List.replicate 7 (.go 4 {})
    let later := .event 299999999999 :: wrongRequest 5
    (run five).row.failedAttempts = 5 ∧ (run (five ++ later)).evaluated = 5 ∧
      (run (five ++ later)).clock < 300 * 10 ^ 9 ∧
      ∃ u ∈ (run five).row.lockedUntil, 0 + lockoutDuration ≤ u ∧
        ((run (five ++ later)).clock < u → (run (five ++ later)).evaluated ≤ 0 + maxFailAttempts) := by
  refine ⟨by decide +kernel, by decide +kernel, by decide +kernel, ?_⟩
  exact (lockout_bounds_guesses { clock := 0, row := {} } [] _ _ (by decide +kernel)
    (by decide +kernel) (by decide +kernel)).2 (by decide +kernel)

/-- `n` requests that load the record and check the lock. -/
def twoFARequests (n : Nat) : List (Op Nat TwoFARequest TwoFAAnswer) :=
  (List.range n).flatMap fun k => [.start { first := .totp }, .go k {}, .go k {}]

/-- All of them evaluate their codes. -/
def twoFAGuesses (n : Nat) : List (Op Nat TwoFARequest TwoFAAnswer) :=
  (List.range n).map fun k => .go k {}

/-- One request after another evaluates a code and cannot record it. -/
def twoFAUnrecorded (n : Nat) : List (Op Nat TwoFARequest TwoFAAnswer) :=
  (List.range n).flatMap fun k =>
    [.start { first := .totp }, .go k {}, .go k {}, .go k {}, .go k { ok := false }]

/-- Six requests at once evaluate six wrong codes before a failure is recorded;
and so do six one after another if none can be recorded. -/
theorem lockout_exceeded_at_once :
    let p := exec twoFAProgram.step { shared := { clock := 0, row := {} } } (twoFARequests 6)
    let q := exec twoFAProgram.step { shared := { clock := 0, row := {} } }
      (twoFARequests 6 ++ twoFAGuesses 6)
    let r := exec twoFAProgram.step { shared := { clock := 0, row := {} } } (twoFAUnrecorded 6)
    Along twoFAProgram.step WrongCode { shared := { clock := 0, row := {} } }
        (twoFARequests 6 ++ twoFAGuesses 6) ∧
      p.shared.Fresh ∧ q.shared.Fresh ∧ p.shared.evaluated = 0 ∧ q.shared.evaluated = 6 ∧
      Along twoFAProgram.step WrongCode { shared := { clock := 0, row := {} } } (twoFAUnrecorded 6) ∧
      r.shared.Fresh ∧ r.shared.evaluated = 6 ∧ maxFailAttempts = 5 := by
  decide +kernel

end MicrossApi
