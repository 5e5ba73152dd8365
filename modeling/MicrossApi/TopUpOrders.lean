/-
MicrossApi/TopUpOrders.lean

Top-up orders are credited exactly once.  Whatever calls arrive, in whatever
order and however often, three counts of an order move together: how often a
call reported a credit for it, how many top-up rows the ledger has for it, and
whether its status is success (`OrderMoves`).  Since the last is at most one,
so are the others.

The wallet side is separate: the quota of a user and the top-up rows of their
ledger both grow by the credits reported for them (`WalletMoves`).
-/
import MicrossApi.StepSystem
import MicrossApi.TopUp

namespace MicrossApi

open List StepSystem Rounding

variable (quotaPerUnit : ℚ)

/-! ### Runs of calls on orders -/

/-- A call on an order, with what the database answers to it. -/
inductive TopUpOp where
  | rechargeEpay (actualPaymentMethod : String) (env : CompletionEnv) (tradeNo : String)
  | recharge (customerId : String) (env : CompletionEnv) (tradeNo : String)
  | rechargeCreem (customerEmail : String) (env : CompletionEnv) (tradeNo : String)
  | rechargeWaffo (env : CompletionEnv) (tradeNo : String)
  | rechargeWaffoPancake (env : CompletionEnv) (tradeNo : String)
  | manualComplete (env : CompletionEnv) (tradeNo : String)
  | updatePending (saveOk : Bool) (expected : Option PaymentProvider) (target : ClosedStatus)
      (tradeNo : String)

/-- Perform one call: its answer, with the credit it made if any, and the
store after it. -/
def TopUpOp.perform (db : DB) : TopUpOp → Except Err (Option Credit) × DB
  | .rechargeEpay method env tradeNo =>
    MicrossApi.rechargeEpay quotaPerUnit method env tradeNo db
  | .recharge customerId env tradeNo =>
    MicrossApi.recharge quotaPerUnit customerId env tradeNo db
  | .rechargeCreem email env tradeNo => MicrossApi.rechargeCreem email env tradeNo db
  | .rechargeWaffo env tradeNo => MicrossApi.rechargeWaffo quotaPerUnit env tradeNo db
  | .rechargeWaffoPancake env tradeNo =>
    MicrossApi.rechargeWaffoPancake quotaPerUnit env tradeNo db
  | .manualComplete env tradeNo => manualCompleteTopUp quotaPerUnit env tradeNo db
  | .updatePending saveOk expected target tradeNo =>
    let r := updatePendingTopUpStatus saveOk expected target tradeNo db
    (r.1.map fun _ => none, r.2)

/-- The store after one call. -/
def topUpStep (db : DB) (op : TopUpOp) : DB := (op.perform quotaPerUnit db).2

/-- The credit an answer reports. -/
def creditOf : Except Err (Option Credit) → List Credit
  | .ok (some c) => [c]
  | _ => []

/-- The credits reported along a run. -/
def creditsAlong : DB → List TopUpOp → List Credit
  | _, [] => []
  | db, op :: ops =>
    creditOf (op.perform quotaPerUnit db).1 ++ creditsAlong (topUpStep quotaPerUnit db op) ops

/-- **What an order is worth to a call**, before rounding: units at the price of a
unit, counted by the money for a Stripe order; a Creem order's amount is the quota
itself to its callback, and closing an order is worth nothing. -/
def TopUpOp.due (t : TopUp) : TopUpOp → ℚ
  | .rechargeEpay .. | .rechargeWaffo .. | .rechargeWaffoPancake .. => t.amount * quotaPerUnit
  | .recharge .. => t.money * quotaPerUnit
  | .rechargeCreem .. => t.amount
  | .manualComplete .. =>
    if t.paymentProvider = .stripe then t.money * quotaPerUnit else t.amount * quotaPerUnit
  | .updatePending .. => 0

/-- What a call can do to the store: nothing, and report no credit; close one
pending order; or complete one and credit what is due for it. -/
inductive TopUpOutcome (db : DB) (r : Except Err (Option Credit) × DB) (due : TopUp → ℚ) : Prop where
  | unchanged (answer : creditOf r.1 = []) (store : r.2 = db)
  | closed (t : TopUp) (target : ClosedStatus) (found : db.topUps.find? t.id = some t)
      (pending : t.status = .pending)
      (result : r = (.ok none,
        { db with topUps := db.topUps.save { t with status := target.status } }))
  | credited (t : TopUp) (method : String) (now quota : Int) (updates : UserUpdates) (w : User)
      (found : db.topUps.find? t.id = some t) (pending : t.status = .pending)
      (user : db.users.find? t.userId = some w) (amount : strictCredit (due t) = some quota)
      (pos : 0 < quota)
      (below : w.quota + quota < maxQuota)
      (result : r = (.ok (some ⟨t.id, t.userId, quota⟩),
        db.completedTopUp t method now quota updates))

theorem completeTopUp_outcome (c : Completion) (noTradeNo : String) (wrap : Err → Err)
    (env : CompletionEnv) (tradeNo : String) (db : DB) :
    TopUpOutcome db (completeTopUp c noTradeNo wrap env tradeNo db) c.credit := by
  obtain ⟨e, h⟩ | h | ⟨t, quota, updates, ht, hpend, hquota, hpos, ⟨u, hu, hlt⟩, h⟩ :=
    completeTopUp_cases env c noTradeNo wrap tradeNo db
  · rw [h]
    exact .unchanged rfl rfl
  · rw [h]
    exact .unchanged rfl rfl
  · exact .credited t (c.method t) env.now quota updates u ht hpend hu hquota hpos hlt h

variable (db : DB) (op : TopUpOp)

/-- Every call has one of the three outcomes. -/
theorem TopUpOp.outcome :
    TopUpOutcome db (op.perform quotaPerUnit db) fun t => op.due quotaPerUnit t := by
  cases op with
  | rechargeEpay | recharge | rechargeCreem | rechargeWaffo | rechargeWaffoPancake
  | manualComplete => exact completeTopUp_outcome ..
  | updatePending saveOk expected target tradeNo =>
    obtain ⟨e, h⟩ | ⟨t, ht, hpend, h⟩ :=
      updatePendingTopUpStatus_cases saveOk expected target tradeNo db
    · refine .unchanged ?_ ?_
      · simp [perform, h, Except.map, creditOf]
      · simp [perform, h]
    · refine .closed t target ht hpend ?_
      simp [perform, h, Except.map]

/-- A call that returns an error changes nothing. -/
theorem TopUpOp.perform_error {db : DB} {op : TopUpOp} {e : Err}
    (h : (op.perform quotaPerUnit db).1 = .error e) : (op.perform quotaPerUnit db).2 = db := by
  cases op.outcome quotaPerUnit db with
  | unchanged answer store => exact store
  | closed t target found pending result
    | credited t method now quota updates w found pending user amount pos below result =>
    rw [result] at h
    cases h

/-! ### The store after a completion -/

variable (t : TopUp) (method : String) (now quota : Int) (updates : UserUpdates)

theorem topUps_completedTopUp : (db.completedTopUp t method now quota updates).topUps
      = db.topUps.save (t.completed method now) := by
  unfold DB.completedTopUp DB.toppedUp
  split <;> rfl

/-- Order ids are positive, so the credit always has its ledger row. -/
theorem accountLedger_completedTopUp :
    ∃ balanceAfter, (db.completedTopUp t method now quota updates).accountLedger
      = db.accountLedger ++ [topUpRow t.userId quota t.id balanceAfter] := by
  unfold DB.completedTopUp DB.toppedUp
  rw [if_pos t.id_pos]
  exact ⟨_, rfl⟩

theorem users_completedTopUp : (db.completedTopUp t method now quota updates).users
      = db.users.modify t.userId (fun u => u.credited quota updates)
          (fun u => u.id_credited quota updates) := by
  unfold DB.completedTopUp DB.toppedUp
  split <;> rfl

theorem quota_completedTopUp {db : DB} {t : TopUp} {w : User} (hw : db.users.find? t.userId = some w)
    (u : Int) : (db.completedTopUp t method now quota updates).userColumn u (·.quota)
      = db.userColumn u (·.quota) + if t.userId = u then quota else 0 := by
  have husers := users_completedTopUp db t method now quota updates
  by_cases hu : u = t.userId
  · subst hu
    simp [DB.userColumn, husers, hw, User.credited]
  have hu' : ¬ t.userId = u := fun e => hu e.symm
  rw [DB.userColumn, husers, Table.find?_modify, if_neg hu, if_neg hu', add_zero]
  rfl

/-! ### One order -/

/-- The number of top-up rows the ledger has for order `id`. -/
def topUpRowCount (db : DB) (id : Int) : Nat :=
  db.accountLedger.countP fun l => l.eventType = .topup ∧ l.refType = .topUp ∧ l.refId = id

/-- One for a successful order. -/
def TopUp.done : Nat := if t.status = .success then 1 else 0

/-- How often the credits name order `id`. -/
def creditCount (credits : List Credit) (id : Int) : Nat :=
  credits.countP fun c => c.topUpId = id

/-- What a call never changes of an order. -/
def TopUp.terms : Int × Int × ℚ × PaymentProvider := (t.userId, t.amount, t.money, t.paymentProvider)

/-- Order `id` from one store to the next, with `k` credits reported for it in
between: row count and success move by `k`, and a final status stays. -/
def OrderMoves (db db' : DB) (id : Int) (k : Nat) : Prop :=
  ∀ t, db.topUps.find? id = some t → ∃ t', db'.topUps.find? id = some t' ∧
    t'.terms = t.terms ∧ topUpRowCount db' id = topUpRowCount db id + k ∧
    t'.done = t.done + k ∧ (t.status ≠ .pending → t'.status = t.status)

theorem OrderMoves.refl (id : Int) : OrderMoves db db id 0 := by
  intro t ht
  exact ⟨t, ht, rfl, rfl, rfl, fun _ => rfl⟩

theorem OrderMoves.trans {db₁ db₂ db₃ : DB} {id : Int} {k l : Nat}
    (h₁ : OrderMoves db₁ db₂ id k) (h₂ : OrderMoves db₂ db₃ id l) : OrderMoves db₁ db₃ id (k + l) := by
  intro t ht
  obtain ⟨t₂, ht₂, hterms₂, hrows₂, hdone₂, hfinal₂⟩ := h₁ t ht
  obtain ⟨t₃, ht₃, hterms₃, hrows₃, hdone₃, hfinal₃⟩ := h₂ t₂ ht₂
  refine ⟨t₃, ht₃, hterms₃.trans hterms₂, by omega, by omega, ?_⟩
  intro hp
  have hkeep := hfinal₂ hp
  rw [hfinal₃ (by rwa [hkeep]), hkeep]

theorem orderMoves_save {db db' : DB} {t r : TopUp} {id : Int} {k : Nat}
    (hfound : db.topUps.find? t.id = some t) (hpend : t.status = .pending) (hid : r.id = t.id)
    (hterms : r.terms = t.terms) (hsave : db'.topUps = db.topUps.save r)
    (hrows : topUpRowCount db' id = topUpRowCount db id + k)
    (hdone : k = if id = t.id then r.done else 0) : OrderMoves db db' id k := by
  intro x hx
  rw [hsave, Table.find?_save, hid, hx]
  by_cases hx' : id = t.id
  · subst hx'
    obtain rfl : t = x := Option.mem_unique hfound hx
    have hzero : t.done = 0 := by simp [TopUp.done, hpend]
    rw [if_pos rfl] at hdone ⊢
    exact ⟨r, rfl, hterms, hrows, by omega, fun hp => absurd hpend hp⟩
  · rw [if_neg hx'] at hdone ⊢
    exact ⟨x, rfl, rfl, hrows, by omega, fun _ => rfl⟩

theorem TopUpOp.orderMoves (id : Int) : OrderMoves db (topUpStep quotaPerUnit db op) id
      (creditCount (creditOf (op.perform quotaPerUnit db).1) id) := by
  cases op.outcome quotaPerUnit db with
  | unchanged answer store =>
    rw [topUpStep, store, answer]
    exact OrderMoves.refl db id
  | closed t target found pending result =>
    rw [topUpStep, result]
    apply orderMoves_save (r := { t with status := target.status }) found pending rfl rfl rfl
    · rfl
    · cases target <;> simp [creditCount, creditOf, TopUp.done, ClosedStatus.status]
  | credited t method now quota updates w found pending user amount pos below result =>
    rw [topUpStep, result]
    apply orderMoves_save (r := t.completed method now) found pending rfl rfl
      (topUps_completedTopUp db t method now quota updates)
    · obtain ⟨balanceAfter, hledger⟩ :=
        accountLedger_completedTopUp db t method now quota updates
      simp only [topUpRowCount, hledger, countP_append, countP_singleton, creditCount,
        creditOf, topUpRow, true_and]
    · simp [creditCount, creditOf, TopUp.done, TopUp.completed, eq_comm]

theorem orderMoves_run (ops : List TopUpOp) (id : Int) :
    OrderMoves db (exec (topUpStep quotaPerUnit) db ops) id
      (creditCount (creditsAlong quotaPerUnit db ops) id) := by
  induction ops generalizing db with
  | nil => exact OrderMoves.refl db id
  | cons op ops ih =>
    have h := (op.orderMoves quotaPerUnit db id).trans (ih (topUpStep quotaPerUnit db op))
    simpa only [creditsAlong, creditCount, countP_append, exec_cons] using h

/-! ### The wallets -/

/-- The ledger rows of top-ups. -/
def isTopUpEvent (e : LedgerEvent) : Bool := decide (e = .topup)

/-- The sum of the credits of user `u`. -/
def creditSum (credits : List Credit) (u : Int) : Int :=
  ((credits.filter fun c => c.userId = u).map (·.quota)).sum

theorem creditSum_append (l₁ l₂ : List Credit) (u : Int) :
    creditSum (l₁ ++ l₂) u = creditSum l₁ u + creditSum l₂ u := by
  simp [creditSum]

theorem creditSum_singleton (c : Credit) (u : Int) :
    creditSum [c] u = if c.userId = u then c.quota else 0 := by
  by_cases hc : c.userId = u <;> simp [creditSum, hc]

/-- Wallet and ledger of every user move by the given credits. -/
def WalletMoves (db db' : DB) (credits : List Credit) : Prop :=
  ∀ u, db'.userColumn u (·.quota) = db.userColumn u (·.quota) + creditSum credits u ∧
    ledgerSum db'.accountLedger isTopUpEvent u
      = ledgerSum db.accountLedger isTopUpEvent u + creditSum credits u

theorem TopUpOp.walletMoves :
    WalletMoves db (topUpStep quotaPerUnit db op) (creditOf (op.perform quotaPerUnit db).1) := by
  intro u
  cases op.outcome quotaPerUnit db with
  | unchanged answer store =>
    rw [topUpStep, store, answer]
    exact ⟨(add_zero _).symm, (add_zero _).symm⟩
  | closed t target found pending result =>
    rw [topUpStep, result]
    exact ⟨(add_zero _).symm, (add_zero _).symm⟩
  | credited t method now quota updates w found pending user amount pos below result =>
    rw [topUpStep, result]
    obtain ⟨balanceAfter, hledger⟩ := accountLedger_completedTopUp db t method now quota updates
    refine ⟨?_, ?_⟩
    · rw [quota_completedTopUp method now quota updates user, creditOf, creditSum_singleton]
    · rw [hledger, creditOf, creditSum_singleton]
      simp [topUpRow, isTopUpEvent]

theorem walletMoves_run (ops : List TopUpOp) :
    WalletMoves db (exec (topUpStep quotaPerUnit) db ops) (creditsAlong quotaPerUnit db ops) := by
  induction ops generalizing db with
  | nil =>
    intro u
    exact ⟨(add_zero _).symm, (add_zero _).symm⟩
  | cons op ops ih =>
    intro u
    obtain ⟨hq, hl⟩ := op.walletMoves quotaPerUnit db u
    obtain ⟨hq', hl'⟩ := ih (topUpStep quotaPerUnit db op) u
    rw [exec_cons, creditsAlong, creditSum_append]
    exact ⟨by omega, by omega⟩

theorem due_congr {t t' : TopUp} (h : t'.terms = t.terms) : op.due quotaPerUnit t' = op.due quotaPerUnit t := by
  simp only [TopUp.terms, Prod.mk.injEq] at h
  obtain ⟨-, hamount, hmoney, hprovider⟩ := h
  cases op <;> simp only [TopUpOp.due, hamount, hmoney, hprovider]

/-- A credit for an order is what is due for it, and goes to the order's user. -/
theorem credit_of_perform {db : DB} {op : TopUpOp} {t : TopUp} {c : Credit}
    (hfound : db.topUps.find? c.topUpId = some t) (hc : c ∈ creditOf (op.perform quotaPerUnit db).1) :
    c.userId = t.userId ∧ 0 < c.quota ∧ strictCredit (op.due quotaPerUnit t) = some c.quota := by
  cases op.outcome quotaPerUnit db with
  | unchanged answer =>
    rw [answer] at hc
    cases hc
  | closed t target found pending result =>
    rw [result] at hc
    cases hc
  | credited t' method now quota updates w found pending user amount pos below result =>
    rw [result] at hc
    obtain rfl := mem_singleton.mp hc
    obtain rfl : t' = t := Option.mem_unique found hfound
    exact ⟨rfl, pos, amount⟩

/-- Every credit of an order in a run was made by one of its calls, and is what was
due by that call. -/
theorem credit_of_mem_creditsAlong {db : DB} {ops : List TopUpOp} {t₀ : TopUp} {c : Credit}
    (hfound : db.topUps.find? c.topUpId = some t₀) (hc : c ∈ creditsAlong quotaPerUnit db ops) :
    ∃ before op after, ops = before ++ op :: after ∧
      c ∈ creditOf (op.perform quotaPerUnit (exec (topUpStep quotaPerUnit) db before)).1 ∧
      c.userId = t₀.userId ∧ 0 < c.quota ∧ strictCredit (op.due quotaPerUnit t₀) = some c.quota := by
  induction ops generalizing db t₀ with
  | nil => cases hc
  | cons op ops ih =>
    rcases mem_append.mp hc with hhead | htail
    · exact ⟨[], op, ops, rfl, hhead, credit_of_perform quotaPerUnit hfound hhead⟩
    · obtain ⟨t, ht, hterms, -⟩ := op.orderMoves quotaPerUnit db c.topUpId t₀ hfound
      obtain ⟨before, op', after, rfl, hmem, huser, hpos, hdue⟩ := ih ht htail
      rw [due_congr quotaPerUnit op' hterms] at hdue
      exact ⟨op :: before, op', after, rfl, hmem, huser.trans (congrArg Prod.fst hterms), hpos, hdue⟩

/-! ### Exactly once -/

/-- **Top-up orders are credited exactly once.**  Take any order whose ledger
rows agree with its status (a new order: pending, without rows) and any run of
callbacks, manual completions and closings, addressed to it or to others.  The
order is credited at most once, to its own user, with what is due for it by the call
that credits it; it has its one ledger row
exactly when it is successful; wallets and ledger move by the credits alone; a
final status stays; and a call that returns an error changes nothing. -/
theorem topUp_order_credited_exactly_once (db₀ : DB) (id : Int) (t₀ : TopUp)
    (hfound : db₀.topUps.find? id = some t₀) (hbooked : topUpRowCount db₀ id = t₀.done) (ops : List TopUpOp) :
    (∃ t, (exec (topUpStep quotaPerUnit) db₀ ops).topUps.find? id = some t ∧
      creditCount (creditsAlong quotaPerUnit db₀ ops) id ≤ 1 ∧ (t₀.status ≠ .success →
        (creditCount (creditsAlong quotaPerUnit db₀ ops) id = 1 ↔ t.status = .success)) ∧
      (topUpRowCount (exec (topUpStep quotaPerUnit) db₀ ops) id = 1 ↔ t.status = .success) ∧
      topUpRowCount (exec (topUpStep quotaPerUnit) db₀ ops) id ≤ 1) ∧
    (∀ c ∈ creditsAlong quotaPerUnit db₀ ops, c.topUpId = id →
      ∃ before op after, ops = before ++ op :: after ∧
        c ∈ creditOf (op.perform quotaPerUnit (exec (topUpStep quotaPerUnit) db₀ before)).1 ∧
        c.userId = t₀.userId ∧ 0 < c.quota ∧ strictCredit (op.due quotaPerUnit t₀) = some c.quota) ∧
    (∀ u,
      (exec (topUpStep quotaPerUnit) db₀ ops).userColumn u (·.quota)
        = db₀.userColumn u (·.quota) + creditSum (creditsAlong quotaPerUnit db₀ ops) u ∧
      ledgerSum (exec (topUpStep quotaPerUnit) db₀ ops).accountLedger isTopUpEvent u
        = ledgerSum db₀.accountLedger isTopUpEvent u + creditSum (creditsAlong quotaPerUnit db₀ ops) u) ∧
    (∀ before after t, ops = before ++ after →
      (exec (topUpStep quotaPerUnit) db₀ before).topUps.find? id = some t → t.status ≠ .pending →
      ∃ t', (exec (topUpStep quotaPerUnit) db₀ ops).topUps.find? id = some t' ∧ t'.status = t.status) ∧
    ∀ db (op : TopUpOp) e, (op.perform quotaPerUnit db).1 = .error e →
      (op.perform quotaPerUnit db).2 = db := by
  refine ⟨?_, ?_, walletMoves_run quotaPerUnit db₀ ops, ?_, ?_⟩
  · obtain ⟨t, ht, -, hrows, hdone, -⟩ := orderMoves_run quotaPerUnit db₀ ops id t₀ hfound
    have hdone_iff : t.done = 1 ↔ t.status = .success := by
      simp [TopUp.done]
    have hdone_le : t.done ≤ 1 := by
      unfold TopUp.done
      split <;> omega
    refine ⟨t, ht, by omega, ?_, ?_, by omega⟩
    · intro hne
      have hzero : t₀.done = 0 := by
        simp [TopUp.done, hne]
      rw [← hdone_iff]
      omega
    · rw [← hdone_iff]
      omega
  · rintro c hc rfl
    exact credit_of_mem_creditsAlong quotaPerUnit hfound hc
  · rintro before after t rfl ht hp
    obtain ⟨t', ht', -, -, -, hkeep⟩ := orderMoves_run quotaPerUnit
      (exec (topUpStep quotaPerUnit) db₀ before) after id t ht
    rw [exec_append]
    exact ⟨t', ht', hkeep hp⟩
  · intro db op e h
    exact op.perform_error quotaPerUnit h

/-- A pending Epay order of two units for user 1. -/
def pendingOrder : TopUp :=
  { id := 5, userId := 1, amount := 2, money := 14, tradeNo := "T5", paymentProvider := .epay,
    id_pos := by decide }

def oneOrder : DB where
  users := ⟨[{ id := 1, quota := 40 }], by decide⟩
  topUps := ⟨[pendingOrder], by decide⟩

/-- The callback arrives twice, then the order is completed by hand and
expired. -/
def replayedOrder : List TopUpOp :=
  [.rechargeEpay "alipay" {} "T5", .rechargeEpay "alipay" {} "T5", .manualComplete {} "T5",
    .updatePending true none .expired "T5"]

theorem topUp_order_credited_exactly_once_replayed :
    creditsAlong 500000 oneOrder replayedOrder = [⟨5, 1, 1000000⟩] ∧
    creditCount (creditsAlong 500000 oneOrder replayedOrder) 5 = 1 ∧
    (exec (topUpStep 500000) oneOrder replayedOrder).userColumn 1 (·.quota) = 1000040 := by
  obtain ⟨⟨t, ht, hle, -⟩, -⟩ := topUp_order_credited_exactly_once 500000 oneOrder 5 pendingOrder
    (by decide) (by decide) replayedOrder
  refine ⟨by decide +kernel, le_antisymm hle (by decide +kernel), ?_⟩
  decide +kernel

/-! ### Completing by hand -/

/-- The credit is positive and in range, and leaves the user below the ceiling. -/
def User.TakesCredit (u : User) (quota : Int) : Prop :=
  0 < quota ∧ quota < maxQuota ∧ u.quota + quota < maxQuota
deriving Decidable

/-- What order `t` is credited when it is worth `quota` and no statement fails. -/
def DB.creditDue (db : DB) (t : TopUp) (quota : Int) : List Credit :=
  match db.users.find? t.userId with
  | none => []
  | some u => if 0 < t.userId ∧ u.TakesCredit quota then [⟨t.id, t.userId, quota⟩] else []

theorem strictCredit_eq (d : ℚ) : strictCredit d =
    if 0 < roundHalfAway d ∧ roundHalfAway d < maxQuota then some (roundHalfAway d) else none := by
  unfold strictCredit quotaFromDecimalStrict quotaFromDecimalChecked saturateQuota minQuota
  split_ifs <;> simp_all [strictQuota] <;> omega

section Due

attribute [local simp] bind StateT.bind Except.bind Tx.pure_apply Tx.fetch Tx.require Tx.update Tx.read Tx.fail

theorem userUpdates_cases (now userId : Int) (extra : Extra) :
    (∃ updates, userUpdates { now } userId extra db = .ok (updates, db)) ∨
      db.users.find? userId = none ∧ ∃ e, userUpdates { now } userId extra db = .error e := by
  cases extra with
  | nothing | stripeCustomer => exact Or.inl ⟨_, rfl⟩
  | email customerEmail =>
    by_cases h : customerEmail = ""
    · exact Or.inl ⟨{}, by simp [userUpdates, h]⟩
    · rcases hu : db.users.find? userId with - | u <;> simp [userUpdates, h, hu]

theorem creditOf_completeTopUp {c : Completion} {noTradeNo tradeNo : String} {wrap : Err → Err}
    {now : Int} {db : DB} {t : TopUp} (htrade : tradeNo ≠ "")
    (ht : db.topUpByTradeNo tradeNo = some t) (hpend : t.status = .pending)
    (hprovider : c.provider = none ∨ c.provider = some t.paymentProvider) :
    creditOf (completeTopUp c noTradeNo wrap { now } tradeNo db).1 =
      db.creditDue t (roundHalfAway (c.credit t)) := by
  have hbody : completeTx c { now } tradeNo db = creditOrder c { now } t db := by
    simp [completeTx, ht, hpend, hprovider]
  unfold completeTopUp DB.creditDue User.TakesCredit
  rw [if_neg htrade, Tx.atomically, hbody]
  have hstrict := strictCredit_eq (c.credit t)
  generalize roundHalfAway (c.credit t) = quota at hstrict ⊢
  by_cases hrange : 0 < quota ∧ quota < maxQuota
  · rw [if_pos hrange] at hstrict
    have hmax : topUpQuotaMaxCurrent quota = .ok (maxQuota - 1 - quota) := if_neg (by omega)
    obtain ⟨updates, hup⟩ | ⟨hu, e, hup⟩ := userUpdates_cases
      { db with topUps := db.topUps.save (t.completed (c.method t) now) } now t.userId c.extra
    · rcases hu : db.users.find? t.userId with - | u
      · simp [creditOrder, hstrict, hup, creditTopUpQuota, hmax, hu, creditOf]
      · have hroom : u.quota ≤ maxQuota - 1 - quota ↔ u.quota + quota < maxQuota := by omega
        by_cases hle : u.quota + quota < maxQuota <;> by_cases hid : 0 < t.userId <;>
          simp [creditOrder, hstrict, hup, creditTopUpQuota, hmax, hu, hroom, hle, hid, hrange,
            recordTopUp, t.id_pos, recordAccountLedger, topUpRow, creditOf]
    · simp [creditOrder, hstrict, hup, creditOf, show db.users.find? t.userId = none from hu]
  · rw [if_neg hrange] at hstrict
    have hnone : ∀ u : User, ¬ (0 < t.userId ∧ 0 < quota ∧ quota < maxQuota ∧ u.quota + quota < maxQuota) :=
      fun u h => hrange ⟨h.2.1, h.2.2.1⟩
    rcases hu : db.users.find? t.userId with - | u
    · simp [creditOrder, hstrict, creditOf]
    · simp [creditOrder, hstrict, creditOf, hnone u]

end Due

/-- The call a provider makes for an order it has been paid for; two providers
make none. -/
def ownCallback (actualPaymentMethod customerId customerEmail : String) (env : CompletionEnv)
    (tradeNo : String) : PaymentProvider → Option TopUpOp
  | .epay => some (.rechargeEpay actualPaymentMethod env tradeNo)
  | .stripe => some (.recharge customerId env tradeNo)
  | .creem => some (.rechargeCreem customerEmail env tradeNo)
  | .waffo => some (.rechargeWaffo env tradeNo)
  | .waffoPancake => some (.rechargeWaffoPancake env tradeNo)
  | .none | .balance => none

theorem creditDue_eq_iff (quota quota' : Int) : db.creditDue t quota = db.creditDue t quota' ↔
    ∀ u, db.users.find? t.userId = some u → 0 < t.userId →
      quota = quota' ∨ ¬ u.TakesCredit quota ∧ ¬ u.TakesCredit quota' := by
  unfold DB.creditDue
  rcases db.users.find? t.userId with - | u
  · simp
  by_cases hid : 0 < t.userId <;> by_cases h : u.TakesCredit quota <;>
    by_cases h' : u.TakesCredit quota' <;> simp [hid, h, h']
  · rintro rfl
    exact h' h
  · rintro rfl
    exact h h'

/-- **When completing by hand credits what the callback would.**  For a pending
order of any provider with a callback, both credit the same unless the order is
Creem's, which holds its quota itself and is multiplied by the price of a unit when
completed by hand.  Then they agree only where the product rounds to the amount, or
where the user can take neither. -/
theorem manual_credits_callback_iff (db : DB) (t : TopUp)
    (actualPaymentMethod customerId customerEmail : String)
    (now : Int) (callback : TopUpOp) (htrade : t.tradeNo ≠ "") (ht : db.topUpByTradeNo t.tradeNo = some t)
    (hpend : t.status = .pending) (hown : ownCallback actualPaymentMethod customerId customerEmail { now }
      t.tradeNo t.paymentProvider = some callback) :
    creditOf ((TopUpOp.manualComplete { now } t.tradeNo).perform quotaPerUnit db).1
        = creditOf (callback.perform quotaPerUnit db).1 ↔
      (t.paymentProvider = .creem → ∀ u, db.users.find? t.userId = some u → 0 < t.userId →
        roundHalfAway (t.amount * quotaPerUnit) = t.amount ∨
          ¬ u.TakesCredit (roundHalfAway (t.amount * quotaPerUnit)) ∧ ¬ u.TakesCredit t.amount) := by
  have hmanual : creditOf ((TopUpOp.manualComplete { now } t.tradeNo).perform quotaPerUnit db).1
      = db.creditDue t (roundHalfAway ((TopUpOp.manualComplete { now } t.tradeNo).due quotaPerUnit t)) :=
    creditOf_completeTopUp htrade ht hpend (Or.inl rfl)
  have hcallback : creditOf (callback.perform quotaPerUnit db).1
      = db.creditDue t (roundHalfAway (callback.due quotaPerUnit t)) := by
    have hrun : ∀ c noTradeNo wrap, c.provider = some t.paymentProvider →
        creditOf (completeTopUp c noTradeNo wrap { now } t.tradeNo db).1
          = db.creditDue t (roundHalfAway (c.credit t)) :=
      fun c noTradeNo wrap h => creditOf_completeTopUp htrade ht hpend (Or.inr h)
    rcases hp : t.paymentProvider <;> rw [hp] at hown hrun <;> cases hown
    all_goals exact hrun _ _ _ rfl
  rw [hmanual, hcallback]
  by_cases hcreem : t.paymentProvider = .creem
  · rw [hcreem] at hown
    cases hown
    simp only [TopUpOp.due, hcreem, reduceCtorEq, if_false, roundHalfAway_intCast, true_imp_iff]
    exact creditDue_eq_iff db t _ _
  · refine iff_of_true (congrArg (fun d => db.creditDue t (roundHalfAway d)) ?_) fun h => absurd h hcreem
    rcases hp : t.paymentProvider <;> rw [hp] at hown hcreem <;> cases hown
    all_goals simp_all [TopUpOp.due]

/-- A pending Creem order of 1000 quota. -/
def creemOrder : DB :=
  { oneOrder with
    topUps := ⟨[{ pendingOrder with amount := 1000, paymentProvider := .creem }], by decide⟩ }

theorem manual_credits_callback_epay : creditOf ((TopUpOp.manualComplete {} "T5").perform 500000 oneOrder).1
    = creditOf ((TopUpOp.rechargeEpay "alipay" {} "T5").perform 500000 oneOrder).1 :=
  (manual_credits_callback_iff 500000 oneOrder pendingOrder "alipay" "" "" 0 _ (by decide) rfl rfl rfl).mpr
    (by decide)

theorem manual_multiplies_creem :
    creditOf ((TopUpOp.rechargeCreem "" {} "T5").perform 500000 creemOrder).1 = [⟨5, 1, 1000⟩] ∧
      creditOf ((TopUpOp.manualComplete {} "T5").perform 500000 creemOrder).1 = [⟨5, 1, 500000000⟩] := by
  decide +kernel

end MicrossApi
