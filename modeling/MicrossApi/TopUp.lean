/-
MicrossApi/TopUp.lean

Top-up orders (model/topup.go): the credit every completion goes through,
`creditTopUpQuota`; the five provider callbacks and the manual completion,
which are one definition with parameters, `completeTopUp`; and
`UpdatePendingTopUpStatus`.

Each call is one transaction under a row lock on the order.  The price of a
unit, `common.QuotaPerUnit`, is a parameter.  Which statement the database
refuses is the environment's choice (`CompletionEnv`).

`creditTopUpQuota` has one inversion lemma (`ok_creditTopUpQuota`), and so
has a completed call (`completeTopUp_cases`): it changes nothing, or it
credits one pending order.
-/
import MicrossApi.Database
import MicrossApi.QuotaMath

namespace MicrossApi

open Tx hiding read

/-! ### The credit -/

/-- What the database answers during a completion. -/
structure CompletionEnv where
  readUserOk : Bool := true
  saveOk : Bool := true
  updateOk : Bool := true
  countOk : Bool := true
  balanceOk : Bool := true
  ledgerOk : Bool := true
  now : Int := 0
deriving DecidableEq, Repr

/-- The columns a completion may write next to the quota. -/
structure UserUpdates where
  stripeCustomer : Option String := none
  email : Option String := none
deriving DecidableEq, Repr

/-- The row with the updates written and `quota` added. -/
def User.credited (u : User) (quota : Int) (updates : UserUpdates) : User :=
  { u with
    quota := u.quota + quota
    stripeCustomer := updates.stripeCustomer.getD u.stripeCustomer
    email := updates.email.getD u.email }

theorem User.id_credited (u : User) (quota : Int) (updates : UserUpdates) :
    (u.credited quota updates).id = u.id := rfl

/-- `topUpQuotaMaxCurrent`: the largest balance that may still receive the
credit. -/
def topUpQuotaMaxCurrent (creditedQuota : Int) : Except Err Int :=
  if creditedQuota ≤ 0 ∨ maxQuota ≤ creditedQuota then .error .invalidTopUpQuota
  else .ok (maxQuota - 1 - creditedQuota)

/-- The ledger row of a top-up credit. -/
def topUpRow (userId creditedQuota topUpId balanceAfter : Int) : AccountLedger :=
  { subjectId := userId, eventType := .topup, amount := creditedQuota, balanceAfter,
    refType := .topUp, refId := topUpId, operatorId := 0 }

variable (env : CompletionEnv) {updates : UserUpdates}

/-- The ledger part of `creditTopUpQuota`, skipped without an order. -/
def recordTopUp (userId creditedQuota topUpId : Int) : Tx DB Err Unit :=
  if 0 < topUpId then do
    require (env.balanceOk = true) .db
    let balanceAfter ← Tx.read fun db => db.userColumn userId (·.quota)
    recordAccountLedger (topUpRow userId creditedQuota topUpId balanceAfter) env.ledgerOk
  else pure ()

/-- `creditTopUpQuota`. -/
def creditTopUpQuota (userId creditedQuota : Int) (updates : UserUpdates) (topUpId : Int) : Tx DB Err Unit :=
  match topUpQuotaMaxCurrent creditedQuota with
  | .error e => fail e
  | .ok maxCurrentQuota => do
    require (env.updateOk = true) .db
    -- the UPDATE carries the bound; a second query tells why no row matched
    let u ← fetch (fun db : DB => db.users.find? userId)
      (if env.countOk then .recordNotFound else .db)
    require (u.quota ≤ maxCurrentQuota)
      (if env.countOk then .topUpQuotaLimitExceeded else .db)
    update fun db => db.updateUser userId (fun u => u.credited creditedQuota updates)
      (fun u => u.id_credited creditedQuota updates)
    recordTopUp env userId creditedQuota topUpId

/-- The store after a committed credit. -/
def DB.toppedUp (db : DB) (userId creditedQuota : Int) (updates : UserUpdates) (topUpId : Int) : DB :=
  let paid := db.updateUser userId (fun u => u.credited creditedQuota updates)
    (fun u => u.id_credited creditedQuota updates)
  if 0 < topUpId then
    { paid with
      accountLedger := paid.accountLedger ++
        [topUpRow userId creditedQuota topUpId (paid.userColumn userId (·.quota))] }
  else paid

/-- A committed credit is positive, below the ceiling, and leaves the balance
below it. -/
theorem ok_creditTopUpQuota {env : CompletionEnv} {userId creditedQuota topUpId : Int}
    {db db' : DB} {x : Unit}
    (h : creditTopUpQuota env userId creditedQuota updates topUpId db = .ok (x, db')) : 0 < creditedQuota ∧
      (∃ u, db.users.find? userId = some u ∧ u.quota + creditedQuota < maxQuota) ∧
      db' = db.toppedUp userId creditedQuota updates topUpId := by
  unfold creditTopUpQuota topUpQuotaMaxCurrent at h
  by_cases hq : creditedQuota ≤ 0 ∨ maxQuota ≤ creditedQuota
  · simp only [hq] at h
    exact absurd h not_ok_fail
  simp only [hq, if_false] at h
  simp only [ok_require_bind_iff, ok_fetch_bind_iff, ok_update_bind_iff] at h
  obtain ⟨-, u, hu, hle, hrec⟩ := h
  refine ⟨by omega, ⟨u, hu, by omega⟩, ?_⟩
  unfold recordTopUp at hrec
  unfold DB.toppedUp
  split at hrec
  next hpos =>
    simp only [ok_require_bind_iff, ok_read_bind_iff, ok_recordAccountLedger_iff] at hrec
    obtain ⟨-, -, -, rfl⟩ := hrec
    rw [if_pos hpos]
  next hpos =>
    obtain ⟨-, rfl⟩ := ok_pure_iff.mp hrec
    rw [if_neg hpos]

/-! ### Completing an order -/

/-- What a completion writes to the user besides the quota. -/
inductive Extra where
  | nothing
  | stripeCustomer (customerId : String)
  | email (customerEmail : String)
deriving DecidableEq, Repr

/-- The updates of a completion; the email is only filled in where the user
has none. -/
def userUpdates (userId : Int) : Extra → Tx DB Err UserUpdates
  | .nothing => pure {}
  | .stripeCustomer customerId => pure { stripeCustomer := some customerId }
  | .email customerEmail =>
    if customerEmail = "" then pure {}
    else do
      require (env.readUserOk = true) .db
      let u ← fetch (fun db : DB => db.users.find? userId) .recordNotFound
      pure (if u.email = "" then { email := some customerEmail } else {})

/-- How the completions differ. -/
structure Completion where
  /-- the provider the order must have; the manual completion takes any -/
  provider : Option PaymentProvider
  /-- no such order -/
  missing : Err
  /-- neither pending nor, where that is accepted, already done -/
  notPending : Err
  /-- a completed order is answered as done -/
  replays : Bool
  /-- the credit before rounding -/
  credit : TopUp → ℚ
  /-- the payment method to be written -/
  method : TopUp → String
  extra : Extra

/-- The order a callback names: the first row with its trade number. -/
def DB.topUpByTradeNo (db : DB) (tradeNo : String) : Option TopUp :=
  db.topUps.rows.find? fun t => t.tradeNo = tradeNo

/-- A credit made by a completion: the order, its user and the amount. -/
structure Credit where
  topUpId : Int
  userId : Int
  quota : Int
deriving DecidableEq, Repr

/-- The order as a completion marks it. -/
def TopUp.completed (t : TopUp) (method : String) (now : Int) : TopUp :=
  { t with paymentMethod := method, completeTime := now, status := .success }

/-- The rounded credit, which must be positive and in range. -/
def strictCredit (d : ℚ) : Option Int :=
  match quotaFromDecimalStrict d with
  | .error _ => none
  | .ok quota => if quota ≤ 0 then none else some quota

/-- The part of a completion after the checks: mark the order, credit the
user. -/
def creditOrder (c : Completion) (env : CompletionEnv) (t : TopUp) : Tx DB Err (Option Credit) := do
  let quota ← fetch (fun _ : DB => strictCredit (c.credit t)) .invalidTopUpQuota
  require (env.saveOk = true) .db
  update fun db : DB => { db with topUps := db.topUps.save (t.completed (c.method t) env.now) }
  let updates ← userUpdates env t.userId c.extra
  creditTopUpQuota env t.userId quota updates t.id
  pure (some ⟨t.id, t.userId, quota⟩)

/-- The transaction of a completion; `none` when the order was done before. -/
def completeTx (c : Completion) (env : CompletionEnv) (tradeNo : String) : Tx DB Err (Option Credit) := do
  let t ← fetch (fun db : DB => db.topUpByTradeNo tradeNo) c.missing
  require (c.provider = none ∨ c.provider = some t.paymentProvider) .paymentMethodMismatch
  if c.replays = true ∧ t.status = .success then pure none
  else do
    require (t.status = .pending) c.notPending
    creditOrder c env t

/-- A completion as a whole: `noTradeNo` refuses an empty number, `wrap` is
what the caller gets to see of an error. -/
def completeTopUp (c : Completion) (noTradeNo : String) (wrap : Err → Err) (env : CompletionEnv)
    (tradeNo : String) (db : DB) : Except Err (Option Credit) × DB :=
  if tradeNo = "" then (.error (.text noTradeNo), db)
  else
    match atomically (completeTx c env tradeNo) db with
    | (.error e, db') => (.error (wrap e), db')
    | (.ok r, db') => (.ok r, db')

/-! ### The six completions -/

section Completions

variable (quotaPerUnit : ℚ)

/-- What the four wrapped callbacks answer to any error. -/
def rechargeFailed : Err → Err := fun _ => .text "充值失败，请稍后重试"

/-- `RechargeEpay`. -/
def rechargeEpay (actualPaymentMethod : String) : CompletionEnv → String → DB →
    Except Err (Option Credit) × DB :=
  completeTopUp
    { provider := some .epay, missing := .topUpNotFound, notPending := .topUpStatusInvalid
      replays := true, credit := fun t => t.amount * quotaPerUnit
      method := fun t => if actualPaymentMethod = "" then t.paymentMethod else actualPaymentMethod
      extra := .nothing }
    "未提供支付单号" id

/-- `Recharge`, the Stripe callback; a completed order is an error here. -/
def recharge (customerId : String) : CompletionEnv → String → DB → Except Err (Option Credit) × DB :=
  completeTopUp
    { provider := some .stripe, missing := .text "充值订单不存在"
      notPending := .text "充值订单状态错误", replays := false
      credit := fun t => t.money * quotaPerUnit
      method := TopUp.paymentMethod, extra := .stripeCustomer customerId }
    "未提供支付单号" rechargeFailed

/-- `RechargeCreem`: the amount is the quota itself. -/
def rechargeCreem (customerEmail : String) : CompletionEnv → String → DB → Except Err (Option Credit) × DB :=
  completeTopUp
    { provider := some .creem, missing := .text "充值订单不存在"
      notPending := .text "充值订单状态错误", replays := false
      credit := fun t => t.amount
      method := TopUp.paymentMethod, extra := .email customerEmail }
    "未提供支付单号" rechargeFailed

/-- `RechargeWaffo`. -/
def rechargeWaffo : CompletionEnv → String → DB → Except Err (Option Credit) × DB :=
  completeTopUp
    { provider := some .waffo, missing := .text "充值订单不存在"
      notPending := .text "充值订单状态错误", replays := true
      credit := fun t => t.amount * quotaPerUnit
      method := TopUp.paymentMethod, extra := .nothing }
    "未提供支付单号" rechargeFailed

/-- `RechargeWaffoPancake`. -/
def rechargeWaffoPancake : CompletionEnv → String → DB → Except Err (Option Credit) × DB :=
  completeTopUp
    { provider := some .waffoPancake, missing := .text "充值订单不存在"
      notPending := .text "充值订单状态错误", replays := true
      credit := fun t => t.amount * quotaPerUnit
      method := TopUp.paymentMethod, extra := .nothing }
    "未提供支付单号" rechargeFailed

/-- `ManualCompleteTopUp`: any provider, and a Stripe order counts its money. -/
def manualCompleteTopUp : CompletionEnv → String → DB → Except Err (Option Credit) × DB :=
  completeTopUp
    { provider := none, missing := .text "充值订单不存在"
      notPending := .text "订单状态不是待支付，无法补单", replays := true
      credit := fun t =>
        if t.paymentProvider = .stripe then t.money * quotaPerUnit else t.amount * quotaPerUnit
      method := TopUp.paymentMethod, extra := .nothing }
    "未提供订单号" id

end Completions

/-! ### Closing an order -/

/-- The statuses `UpdatePendingTopUpStatus` is called with. -/
inductive ClosedStatus where
  | failed
  | expired
deriving DecidableEq, Repr

/-- The order status it stands for. -/
def ClosedStatus.status : ClosedStatus → TopUpStatus
  | .failed => .failed
  | .expired => .expired

/-- The transaction of `UpdatePendingTopUpStatus`. -/
def updatePendingTx (saveOk : Bool) (expected : Option PaymentProvider) (target : ClosedStatus)
    (tradeNo : String) : Tx DB Err Unit := do
  let t ← fetch (fun db : DB => db.topUpByTradeNo tradeNo) .topUpNotFound
  require (expected = none ∨ expected = some t.paymentProvider) .paymentMethodMismatch
  require (t.status = .pending) .topUpStatusInvalid
  require (saveOk = true) .db
  update fun db : DB => { db with topUps := db.topUps.save { t with status := target.status } }

/-- `UpdatePendingTopUpStatus`; an empty expected provider accepts any. -/
def updatePendingTopUpStatus (saveOk : Bool) (expected : Option PaymentProvider)
    (target : ClosedStatus) (tradeNo : String) (db : DB) : Except Err Unit × DB :=
  if tradeNo = "" then (.error (.text "未提供支付单号"), db)
  else atomically (updatePendingTx saveOk expected target tradeNo) db

/-! ### What a call does -/

theorem find?_of_topUpByTradeNo {db : DB} {tradeNo : String} {t : TopUp}
    (h : db.topUpByTradeNo tradeNo = some t) : db.topUps.find? t.id = some t :=
  Table.find?_eq_some_iff.mpr ⟨List.mem_of_find?_eq_some h, rfl⟩

/-- Reading the updates changes nothing. -/
theorem ok_userUpdates {env : CompletionEnv} {userId : Int} {extra : Extra} {db db' : DB}
    (h : userUpdates env userId extra db = .ok (updates, db')) : db' = db := by
  cases extra with
  | nothing | stripeCustomer => exact (ok_pure_iff.mp h).2
  | email customerEmail =>
    by_cases hempty : customerEmail = ""
    · simp only [hempty] at h
      exact (ok_pure_iff.mp h).2
    simp only [userUpdates, hempty, if_false, ok_require_bind_iff, ok_fetch_bind_iff,
      ok_pure_iff] at h
    obtain ⟨-, _, -, -, rfl⟩ := h
    rfl

/-- The store with order `t` completed and credited. -/
def DB.completedTopUp (db : DB) (t : TopUp) (method : String) (now quota : Int)
    (updates : UserUpdates) : DB :=
  DB.toppedUp { db with topUps := db.topUps.save (t.completed method now) } t.userId quota updates
    t.id

/-- Everything a completion can do: fail and change nothing, find the order
done and change nothing, or credit one pending order. -/
theorem completeTopUp_cases (c : Completion) (noTradeNo : String) (wrap : Err → Err)
    (tradeNo : String) (db : DB) :
    (∃ e, completeTopUp c noTradeNo wrap env tradeNo db = (.error e, db)) ∨
      completeTopUp c noTradeNo wrap env tradeNo db = (.ok none, db) ∨
      ∃ t quota updates, db.topUps.find? t.id = some t ∧ t.status = .pending ∧
        strictCredit (c.credit t) = some quota ∧ 0 < quota ∧
        (∃ u, db.users.find? t.userId = some u ∧ u.quota + quota < maxQuota) ∧
        completeTopUp c noTradeNo wrap env tradeNo db = (.ok (some ⟨t.id, t.userId, quota⟩),
             db.completedTopUp t (c.method t) env.now quota updates) := by
  unfold completeTopUp
  split
  · exact Or.inl ⟨_, rfl⟩
  obtain ⟨r, db', htx, hat⟩ | ⟨e, -, hat⟩ := atomically_cases (completeTx c env tradeNo) db
  · rw [hat]
    right
    simp only [completeTx, ok_fetch_bind_iff, ok_require_bind_iff] at htx
    obtain ⟨t, ht, -, hbody⟩ := htx
    split at hbody
    · obtain ⟨rfl, rfl⟩ := ok_pure_iff.mp hbody
      exact Or.inl rfl
    simp only [creditOrder, ok_bind_iff, ok_require_iff, ok_fetch_iff, ok_update_iff] at hbody
    obtain ⟨-, _, ⟨hpend, rfl⟩, quota, _, ⟨hquota, rfl⟩, -, _, ⟨-, rfl⟩, -, _, rfl, updates, _, hup,
      _, _, hcredit, rfl, rfl⟩ := hbody
    obtain rfl := ok_userUpdates hup
    obtain ⟨hpos, ⟨u, hu, hle⟩, rfl⟩ := ok_creditTopUpQuota hcredit
    exact Or.inr ⟨t, quota, updates, find?_of_topUpByTradeNo ht, hpend, hquota, hpos, ⟨u, hu, hle⟩, rfl⟩
  · rw [hat]
    exact Or.inl ⟨wrap e, rfl⟩

/-- Everything `UpdatePendingTopUpStatus` can do: fail and change nothing, or
close one pending order. -/
theorem updatePendingTopUpStatus_cases (saveOk : Bool) (expected : Option PaymentProvider)
    (target : ClosedStatus) (tradeNo : String) (db : DB) :
    (∃ e, updatePendingTopUpStatus saveOk expected target tradeNo db = (.error e, db)) ∨
      ∃ t, db.topUps.find? t.id = some t ∧ t.status = .pending ∧
        updatePendingTopUpStatus saveOk expected target tradeNo db
          = (.ok (), { db with topUps := db.topUps.save { t with status := target.status } }) := by
  unfold updatePendingTopUpStatus
  split
  · exact Or.inl ⟨_, rfl⟩
  obtain ⟨r, db', htx, hat⟩ | ⟨e, -, hat⟩ :=
    atomically_cases (updatePendingTx saveOk expected target tradeNo) db
  · simp only [updatePendingTx, ok_fetch_bind_iff, ok_require_bind_iff, ok_update_iff] at htx
    obtain ⟨t, ht, -, hpend, -, rfl⟩ := htx
    exact Or.inr ⟨t, find?_of_topUpByTradeNo ht, hpend, hat⟩
  · exact Or.inl ⟨e, hat⟩

end MicrossApi
