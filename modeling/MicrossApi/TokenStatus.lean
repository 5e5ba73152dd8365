/-
MicrossApi/TokenStatus.lean

A token's status is changed while requests spend from it (controller/token.go,
model/token.go; Redis and batch updates off).

`UpdateToken` with `status_only` reads the row and writes eleven of its columns
back, `remain_quota` among them.  What is spent between the two statements is lost
from `remain_quota`, and not from `used_quota`, which is not written back.
-/
import Mathlib.Algebra.Ring.Int.Defs
import MicrossApi.Interleaving

namespace MicrossApi

open StepSystem Interleaving

/-- `TokenStatus…`; the column holds any number. -/
inductive TokenStatus where
  | enabled
  | disabled
  | expired
  | exhausted
  | other (code : Int)
deriving DecidableEq, Repr

/-- A row of `tokens`. -/
structure Token where
  status : TokenStatus := .enabled
  name : String := ""
  accessedTime : Int := 0
  expiredTime : Int := -1
  remainQuota : Int := 0
  unlimitedQuota : Bool := false
  modelLimitsEnabled : Bool := false
  modelLimits : String := ""
  allowIps : Option String := some ""
  usedQuota : Int := 0
  group : String := ""
  crossGroupRetry : Bool := false
  autoGroups : String := ""
deriving DecidableEq, Repr

/-- `Token.Update`: the columns it selects are those of `row`. -/
def Token.update (stored row : Token) : Token :=
  { row with accessedTime := stored.accessedTime, usedQuota := stored.usedQuota }

/-- `decreaseTokenQuota`, or `increaseTokenQuota`, by an amount. -/
inductive TokenCharge where
  | decrease (quota now : Int)
  | increase (quota now : Int)
deriving DecidableEq, Repr

/-- What is added to `remain_quota`, and taken from `used_quota`; negative amounts are refused. -/
def TokenCharge.amount : TokenCharge → Int
  | .decrease quota _ => if quota < 0 then 0 else -quota
  | .increase quota _ => if quota < 0 then 0 else quota

/-- `DecreaseTokenQuota` and `IncreaseTokenQuota`: one relative update. -/
def Token.charge (stored : Token) (c : TokenCharge) : Token :=
  match c with
  | .decrease quota now =>
    if quota < 0 then stored
    else { stored with
      remainQuota := stored.remainQuota - quota, usedQuota := stored.usedQuota + quota, accessedTime := now }
  | .increase quota now =>
    if quota < 0 then stored
    else { stored with
      remainQuota := stored.remainQuota + quota, usedQuota := stored.usedQuota - quota, accessedTime := now }

/-- `UpdateToken` with `status_only`: before its read, before its write, or over. -/
inductive StatusUpdate where
  | asked (status : TokenStatus)
  | loaded (cleanToken : Token)
  | ended
deriving DecidableEq, Repr

/-- A token that cannot be enabled again: it is past its time, or spent. -/
def Token.CannotEnable (cleanToken : Token) (now : Int) : Prop :=
  (cleanToken.status = .expired ∧ cleanToken.expiredTime ≤ now ∧ cleanToken.expiredTime ≠ -1) ∨
    (cleanToken.status = .exhausted ∧ cleanToken.remainQuota ≤ 0 ∧ cleanToken.unlimitedQuota = false)
deriving Decidable

/-- The next statement of an update. -/
def StatusUpdate.next (now : Int) (stored : Token) : StatusUpdate → Token × StatusUpdate
  | .asked status =>
    if status = .enabled ∧ stored.CannotEnable now then (stored, .ended)
    else (stored, .loaded { stored with status := status })
  | .loaded cleanToken => (stored.update cleanToken, .ended)
  | .ended => (stored, .ended)

/-- Updates of the status, and charges between their statements. -/
def tokenProgram : Program Token StatusUpdate TokenCharge TokenStatus Int where
  event := Token.charge
  start stored status := (stored, .asked status)
  next _ now stored update := update.next now stored

/-- A step of an update, a new update or a charge. -/
abbrev TokenOp := Op TokenCharge TokenStatus Int

/-- What a step should add to `remain_quota`. -/
def chargeOf : TokenOp → Int
  | .event c => c.amount
  | _ => 0

variable (p : Pool Token StatusUpdate)

/-- The counters moved by the charges and by nothing else. -/
def CountersKept (ops : List TokenOp) : Prop :=
  (exec tokenProgram.step p ops).shared.remainQuota = p.shared.remainQuota + (ops.map chargeOf).sum ∧
    (exec tokenProgram.step p ops).shared.usedQuota = p.shared.usedQuota - (ops.map chargeOf).sum

/-- An update writes while `remain_quota` is what it has read. -/
def WritesInTime : TokenOp → Prop
  | .go k _ => ∀ row, p.threads[k]? = some (.loaded row) → row.remainQuota = p.shared.remainQuota
  | _ => True

theorem tokenStep_counters (op : TokenOp) :
    ((tokenProgram.step p op).shared.remainQuota = p.shared.remainQuota + chargeOf op ↔ WritesInTime p op) ∧
      (tokenProgram.step p op).shared.usedQuota = p.shared.usedQuota - chargeOf op := by
  cases op with
  | event c =>
    cases c <;>
      simp only [Program.step, tokenProgram, Token.charge, chargeOf, TokenCharge.amount, WritesInTime] <;>
      split_ifs <;> simp [Int.sub_eq_add_neg]
  | start => simp [Program.step, tokenProgram, chargeOf, WritesInTime]
  | go k now =>
    rcases hk : p.threads[k]? with - | update
    · simp [step_go_none now hk, chargeOf, WritesInTime, hk]
    rw [step_go now hk]
    cases update with
    | asked =>
      simp only [tokenProgram, StatusUpdate.next, WritesInTime, hk, chargeOf]
      split_ifs <;> simp
    | loaded => simp [tokenProgram, StatusUpdate.next, Token.update, WritesInTime, hk, chargeOf]
    | ended => simp [tokenProgram, StatusUpdate.next, WritesInTime, hk, chargeOf]

theorem countersKept_cons {p : Pool Token StatusUpdate} {op : TokenOp} (ops : List TokenOp)
    (hop : WritesInTime p op) :
    CountersKept p (op :: ops) ↔ CountersKept (tokenProgram.step p op) ops := by
  obtain ⟨hremain, hused⟩ := tokenStep_counters p op
  rw [CountersKept, CountersKept, exec_cons, hremain.mpr hop, List.map_cons, List.sum_cons]
  constructor <;> rintro ⟨h₁, h₂⟩ <;> constructor <;> omega

/-- **Nothing spent is lost** at any time in a run, just when every update writes
before anything is spent since its read. -/
theorem countersKept_iff (p : Pool Token StatusUpdate) (ops : List TokenOp) :
    (∀ n, CountersKept p (ops.take n)) ↔ Along tokenProgram.step WritesInTime p ops := by
  induction ops generalizing p with
  | nil => simp [CountersKept]
  | cons op ops ih =>
    rw [along_cons, ← ih]
    constructor
    · intro h
      have hop : WritesInTime p op := by
        rw [← (tokenStep_counters p op).1]
        simpa using (h 1).1
      exact ⟨hop, fun n => (countersKept_cons _ hop).mp (h (n + 1))⟩
    · rintro ⟨hop, h⟩ n
      cases n with
      | zero => simp [CountersKept]
      | succ n => exact (countersKept_cons _ hop).mpr (h n)

/-- A token of 100 is disabled while a request spends all of it: the quota is back. -/
theorem countersKept_spent_between :
    let p : Pool Token StatusUpdate := { shared := { remainQuota := 100 } }
    let ops : List TokenOp := [.start .disabled, .go 0 0, .event (.decrease 100 0), .go 0 0]
    (exec tokenProgram.step p ops).shared.remainQuota = 100 ∧
      (exec tokenProgram.step p ops).shared.usedQuota = 100 ∧ ¬ CountersKept p ops :=
  ⟨by decide, by decide, fun h => absurd h.1 (by decide)⟩

end MicrossApi
