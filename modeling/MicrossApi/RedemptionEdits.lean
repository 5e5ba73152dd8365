/-
MicrossApi/RedemptionEdits.lean

A redemption code is redeemed while an administrator edits it (model/redemption.go,
controller/redemption.go).

`Redeem` runs in a transaction: it reads the row, with a lock where the database
has row locks, swaps the status from enabled to used and credits the wallet.
`UpdateRedemption` reads the row and later writes it back, the status with it and
`used_user_id` without it.  A redemption between the two statements is undone in
the row, and the code pays again.
-/
import MicrossApi.Interleaving
import MicrossApi.Wallet

namespace MicrossApi

open StepSystem Interleaving

/-- The row of the code as committed, the transaction that holds it, and what was
added to whose wallet. -/
structure RedemptionStore where
  code : Redemption
  lock : Option Nat := none
  credits : List (Int × Int) := []
deriving DecidableEq, Repr

/-- `Redeem` before its read, before the swap of the status and before the credit
and the commit; an edit before its read and before its write. -/
inductive RedemptionThread where
  | redeem (userId : Int)
  | swap (userId : Int) (redemption : Redemption)
  | credit (userId : Int) (redemption : Redemption) (redeemedTime : Int)
  | edit (quota expiredTime : Int)
  | write (cleanRedemption : Redemption)
  | ended
deriving DecidableEq, Repr

/-- `Redemption.Update`: all it does not select is `used_user_id`. -/
def Redemption.update (stored row : Redemption) : Redemption := { row with usedUserId := stored.usedUserId }

/-- An expiry that has passed. -/
def Expired (expiredTime now : Int) : Prop := expiredTime ≠ 0 ∧ expiredTime < now
deriving Decidable

/-- The next statement of thread `k`; one that needs the row waits for it. -/
def RedemptionThread.next (rowLocks : Bool) (k : Nat) (now : Int) (s : RedemptionStore) :
    RedemptionThread → RedemptionStore × RedemptionThread
  | .redeem userId =>
    if rowLocks ∧ s.lock ≠ none then (s, .redeem userId)
    else if s.code.status ≠ .enabled ∨ Expired s.code.expiredTime now then (s, .ended)
    else ({ s with lock := if rowLocks then some k else s.lock }, .swap userId s.code)
  | .swap userId redemption =>
    if s.lock ≠ none ∧ s.lock ≠ some k then (s, .swap userId redemption)
    else if s.code.status ≠ .enabled then ({ s with lock := none }, .ended)
    else ({ s with lock := some k }, .credit userId redemption now)
  | .credit userId redemption redeemedTime =>
    ({ code := s.code.redeemed userId redeemedTime
       lock := none
       credits := s.credits ++ [(userId, redemption.quota)] }, .ended)
  | .edit quota expiredTime =>
    if Expired expiredTime now then (s, .ended)
    else (s, .write { s.code with quota := quota, expiredTime := expiredTime })
  | .write cleanRedemption =>
    if s.lock ≠ none then (s, .write cleanRedemption)
    else ({ s with code := s.code.update cleanRedemption }, .ended)
  | .ended => (s, .ended)

/-- Redemptions and edits; either starts before its first statement. -/
def redemptionProgram (rowLocks : Bool) :
    Program RedemptionStore RedemptionThread Empty ((Int × Int) ⊕ Int) Int where
  event s _ := s
  start s i := (s, i.elim (fun e => .edit e.1 e.2) .redeem)
  next k now s t := t.next rowLocks k now s

/-- A step of a thread, or a new one. -/
abbrev RedemptionOp := Op Empty ((Int × Int) ⊕ Int) Int

/-- An edit writes the status that the row has. -/
def WritesSameStatus (p : Pool RedemptionStore RedemptionThread) : RedemptionOp → Prop
  | .go k _ => ∀ row, p.threads[k]? = some (.write row) → row.status = p.shared.code.status
  | _ => True

/-- Nothing was paid, or the code is used and was paid once, to its user. -/
def RedemptionStore.PaidOnce (s : RedemptionStore) : Prop :=
  s.credits = [] ∨ s.code.status = .used ∧ ∃ quota, s.credits = [(s.code.usedUserId, quota)]

/-- A redemption that has swapped the status holds the row, which is enabled as committed. -/
def RedemptionThread.Ok (s : RedemptionStore) (k : Nat) : RedemptionThread → Prop
  | .credit _ _ _ => s.lock = some k ∧ s.code.status = .enabled
  | _ => True

section Steps

variable (rowLocks : Bool) {p : Pool RedemptionStore RedemptionThread} {s s' : RedemptionStore}
  {t : RedemptionThread}

/-- What a thread knows survives the steps of those who do not hold the row. -/
theorem RedemptionThread.Ok.mono {j : Nat} (ht : t.Ok s j)
    (h : s.lock ≠ some j ∨ s'.lock = s.lock ∧ s'.code = s.code) : t.Ok s' j := by
  cases t with
  | credit =>
    rcases h with h | ⟨hlock, hcode⟩
    · exact absurd ht.1 h
    · exact ⟨hlock.trans ht.1, hcode ▸ ht.2⟩
  | _ => trivial

/-- **One statement** keeps the code paid once at most, and a used code used. -/
theorem redemption_next {k : Nat} (now : Int) (hpaid : s.PaidOnce) (ht : t.Ok s k)
    (hwrite : ∀ row, t = .write row → row.status = s.code.status) :
    (t.next rowLocks k now s).1.PaidOnce ∧ (t.next rowLocks k now s).2.Ok (t.next rowLocks k now s).1 k ∧
      (s.code.status = .used → (t.next rowLocks k now s).1.code.status = .used) ∧
      ∀ j, j ≠ k → s.lock ≠ some j ∨
        (t.next rowLocks k now s).1.lock = s.lock ∧ (t.next rowLocks k now s).1.code = s.code := by
  have hstay : ∀ j, j ≠ k → s.lock ≠ some j ∨ s.lock = s.lock ∧ s.code = s.code := fun _ _ => .inr ⟨rfl, rfl⟩
  cases t with
  | redeem =>
    dsimp only [RedemptionThread.next]
    split_ifs with hwait hrefused hlocks
    · exact ⟨hpaid, trivial, id, hstay⟩
    · exact ⟨hpaid, trivial, id, hstay⟩
    · have hfree : s.lock = none := by simpa [hlocks] using hwait
      exact ⟨hpaid, trivial, id, fun j _ => .inl (by rw [hfree]; nofun)⟩
    · exact ⟨hpaid, trivial, id, hstay⟩
  | swap =>
    dsimp only [RedemptionThread.next]
    split_ifs with hwait hrefused
    · exact ⟨hpaid, trivial, id, hstay⟩
    all_goals
      have hother : ∀ j, j ≠ k → s.lock ≠ some j := by
        intro j hj hlock
        exact hwait ⟨by rw [hlock]; nofun, by rw [hlock]; simpa using hj⟩
    · exact ⟨hpaid, trivial, id, fun j hj => .inl (hother j hj)⟩
    · exact ⟨hpaid, ⟨rfl, not_not.mp hrefused⟩, id, fun j hj => .inl (hother j hj)⟩
  | credit userId redemption =>
    obtain ⟨hlock, henabled⟩ := ht
    have hnone : s.credits = [] := by
      rcases hpaid with hnone | ⟨hused, -⟩
      · exact hnone
      · rw [henabled] at hused
        cases hused
    refine ⟨.inr ⟨rfl, redemption.quota, ?_⟩, trivial, fun _ => rfl, fun j hj => .inl ?_⟩
    · show s.credits ++ _ = _
      rw [hnone]
      rfl
    · rw [hlock]
      simpa using hj.symm
  | edit =>
    dsimp only [RedemptionThread.next]
    split_ifs <;> exact ⟨hpaid, trivial, id, hstay⟩
  | write row =>
    dsimp only [RedemptionThread.next]
    split_ifs with hwait
    · exact ⟨hpaid, trivial, id, hstay⟩
    have hstatus : (s.code.update row).status = s.code.status := hwrite row rfl
    have hfree : s.lock = none := not_not.mp hwait
    refine ⟨?_, trivial, fun hused => hstatus.trans hused, fun j _ => .inl (by rw [hfree]; nofun)⟩
    exact hpaid.imp_right fun h => ⟨hstatus.trans h.1, h.2⟩
  | ended => exact ⟨hpaid, trivial, id, hstay⟩

theorem redemption_step (op : RedemptionOp) (hop : WritesSameStatus p op)
    (h : Holds RedemptionStore.PaidOnce RedemptionThread.Ok p) :
    Holds RedemptionStore.PaidOnce RedemptionThread.Ok ((redemptionProgram rowLocks).step p op) ∧
      (p.shared.code.status = .used → ((redemptionProgram rowLocks).step p op).shared.code.status = .used) := by
  cases op with
  | event e => exact e.elim
  | start i => exact ⟨h.start h.shared (fun _ _ hA => hA) (by cases i <;> trivial), id⟩
  | go k now =>
    have hnext := fun t (hk : p.threads[k]? = some t) => redemption_next rowLocks now h.shared (h.thread k t hk)
      fun row hrow => hop row (hk.trans (congrArg some hrow))
    refine ⟨h.go fun t hk => ?_, ?_⟩
    · obtain ⟨hpaid, hself, -, hothers⟩ := hnext t hk
      exact ⟨hpaid, hself, fun j u hj hu => hu.mono (hothers j hj)⟩
    · rcases hk : p.threads[k]? with - | t
      · rw [step_go_none now hk]
        exact id
      · rw [step_go now hk]
        exact (hnext t hk).2.2.1

theorem redemption_run {ops : List RedemptionOp} (h : Holds RedemptionStore.PaidOnce RedemptionThread.Ok p)
    (hops : Along (redemptionProgram rowLocks).step WritesSameStatus p ops) :
    Holds RedemptionStore.PaidOnce RedemptionThread.Ok (exec (redemptionProgram rowLocks).step p ops) ∧
      (p.shared.code.status = .used →
        (exec (redemptionProgram rowLocks).step p ops).shared.code.status = .used) := by
  refine exec_inv_along (G := WritesSameStatus)
    (I := fun q => Holds RedemptionStore.PaidOnce RedemptionThread.Ok q ∧
    (p.shared.code.status = .used → q.shared.code.status = .used)) (fun q op hop hq => ?_) ⟨h, id⟩ hops
  obtain ⟨hstep, hstays⟩ := redemption_step rowLocks op hop hq.1
  exact ⟨hstep, hstays ∘ hq.2⟩

end Steps

/-- **A code pays once** in every run in which edits write the status that the row
has: what is paid goes to the user on record, and a used code stays used. -/
theorem redemption_paidOnce (rowLocks : Bool) (code : Redemption) (ops later : List RedemptionOp)
    (hops : Along (redemptionProgram rowLocks).step WritesSameStatus ⟨⟨code, none, []⟩, []⟩ (ops ++ later)) :
    (exec (redemptionProgram rowLocks).step ⟨⟨code, none, []⟩, []⟩ ops).shared.PaidOnce ∧
      ((exec (redemptionProgram rowLocks).step ⟨⟨code, none, []⟩, []⟩ ops).shared.code.status = .used →
        (exec (redemptionProgram rowLocks).step ⟨⟨code, none, []⟩, []⟩
          (ops ++ later)).shared.code.status = .used) := by
  obtain ⟨hops₁, hops₂⟩ := along_append.mp hops
  have hstart : Holds RedemptionStore.PaidOnce RedemptionThread.Ok ⟨⟨code, none, []⟩, []⟩ :=
    ⟨.inl rfl, fun j t ht => nomatch ht⟩
  have hholds := (redemption_run rowLocks hstart hops₁).1
  rw [exec_append]
  exact ⟨hholds.shared, (redemption_run rowLocks hholds hops₂).2⟩

/-- Redeemed by user 1, then edited. -/
theorem redemption_paidOnce_edited :
    (exec (redemptionProgram true).step ⟨⟨{ id := 1, key := "k", quota := 5 }, none, []⟩, []⟩
      [.start (.inr 1), .go 0 0, .go 0 0, .go 0 0, .start (.inl (9, 0)), .go 1 0]).shared.PaidOnce :=
  (redemption_paidOnce true { id := 1, key := "k", quota := 5 } _ [.go 1 0]
    (by simp [WritesSameStatus, Program.step, redemptionProgram, RedemptionThread.next, Expired])).1

/-- Users 1 and 2 redeem the code, an edit of its quota having read it before and written it between. -/
theorem redemption_edit_between :
    (exec (redemptionProgram true).step ⟨⟨{ id := 1, key := "k", quota := 5 }, none, []⟩, []⟩
      [.start (.inl (5, 0)), .go 0 0, .start (.inr 1), .go 1 0, .go 1 0, .go 1 0, .go 0 0,
        .start (.inr 2), .go 2 0, .go 2 0, .go 2 0]).shared.credits = [(1, 5), (2, 5)] := by
  decide

end MicrossApi
