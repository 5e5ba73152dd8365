/-
MicrossApi/Wallet.lean

The wallet of a user lives in three places: the `quota` column of its row, the
delta the batch updater still holds for it (model/utils.go) and, while its
Redis hash is alive, the `Quota` field of that hash (model/user_cache.go,
model/quota_reserve.go).  This module embeds every function that moves one of
them: the reservation, the plain increase and decrease, the refund of
`WalletFunding` (service/funding_source.go), the top-up callbacks, `Redeem`,
`PurchaseSubscriptionWithBalance`, `IssueQuotaToCustomer`,
`TransferAffQuotaToQuota` and the batch updater.

Each function is one step here; what happens between the statements of a
reservation is the subject of another module.  A hash counts as alive when it
passes the guard of the Lua scripts (id, schema, a `Quota` field).  A Redis
call either runs its script or fails without effect; which of the two, and
which database statement is refused, is the environment's choice.
-/
import MicrossApi.Subscription
import MicrossApi.TopUpOrders

namespace MicrossApi

open Tx hiding read

/-! ### The state -/

/-- The switches and settings of the server. -/
structure WalletConfig where
  redisEnabled : Bool := true
  batchUpdateEnabled : Bool := false
  quotaPerUnit : ℚ := 500000
  /-- how `logger.LogQuota` prints `QuotaPerUnit` -/
  quotaPerUnitText : String := "$1.00"
  /-- `decimal.NewFromString` -/
  newFromString : String → Option ℚ
  calendar : Calendar

/-- The three places. -/
structure Wallet where
  db : DB
  /-- the delta `batchUpdateStores` holds for a user -/
  pending : Int → Int := fun _ => 0
  /-- the `Quota` field of a live hash -/
  cache : Int → Option Int := fun _ => none

/-- Set the `Quota` field of a hash. -/
def Wallet.setCache (w : Wallet) (id quota : Int) : Wallet :=
  { w with cache := fun u => if u = id then some quota else w.cache u }

/-- `addNewRecord(BatchUpdateTypeUserQuota, id, value)`. -/
def Wallet.addNewRecord (w : Wallet) (id value : Int) : Wallet :=
  { w with pending := fun u => if u = id then w.pending u + value else w.pending u }

/-- `UPDATE users SET quota = quota + delta WHERE id = id`. -/
def DB.addQuota (db : DB) (id delta : Int) : DB :=
  db.updateUser id (fun u => { u with quota := u.quota + delta }) (fun _ => rfl)

/-- The same on a wallet. -/
def Wallet.addQuota (w : Wallet) (id delta : Int) : Wallet :=
  { w with db := w.db.addQuota id delta }

/-! ### The Lua scripts -/

/-- `cacheQuotaResult`. -/
inductive CacheQuotaResult where
  | insufficient
  | ok
  | miss
deriving DecidableEq, Repr

/-- `cacheTryReserveUserQuota`: `userQuotaReserveScript`, or an error. -/
def cacheTryReserveUserQuota (answers : Bool) (id amount : Int) (w : Wallet) :
    Except Err CacheQuotaResult × Wallet :=
  if answers = false then (.error .redis, w)
  else
    match w.cache id with
    | none => (.ok .miss, w)
    | some quota =>
      if quota < amount then (.ok .insufficient, w)
      else (.ok .ok, w.setCache id (quota - amount))

/-- `cacheApplyUserQuotaDelta`: `userQuotaDeltaScript`, or an error. -/
def cacheApplyUserQuotaDelta (answers : Bool) (id delta : Int) (w : Wallet) :
    Except Err CacheQuotaResult × Wallet :=
  if answers = false then (.error .redis, w)
  else
    match w.cache id with
    | none => (.ok .miss, w)
    | some quota => (.ok .ok, w.setCache id (quota + delta))

section Operations

variable (cfg : WalletConfig)

/-- `cacheIncrUserQuota`; its callers only log an error. -/
def cacheIncrUserQuota (answers : Bool) (id delta : Int) (w : Wallet) : Wallet :=
  if cfg.redisEnabled = false then w else (cacheApplyUserQuotaDelta answers id delta w).2

/-- `cacheDecrUserQuota`. -/
def cacheDecrUserQuota (answers : Bool) (id delta : Int) (w : Wallet) : Wallet :=
  cacheIncrUserQuota cfg answers id (-delta) w

/-- `syncCreditUserQuotaCache`. -/
def syncCreditUserQuotaCache (answers : Bool) (userId quota : Int) (w : Wallet) : Wallet :=
  if quota ≤ 0 then w else cacheIncrUserQuota cfg answers userId quota w

/-! ### Reserving -/

/-- What `GetUserCache` comes to on a hash the reservation missed: it fails,
it answers without a usable hash being left, or it fills the hash from the
row. -/
inductive Hydration where
  | failed
  | unfilled
  | filled
deriving DecidableEq, Repr

/-- `GetUserCache` as the reservation uses it: whether it answers, and the
hash it leaves. -/
def getUserCache (hydration : Hydration) (id : Int) (w : Wallet) : Bool × Wallet :=
  match w.db.users.find? id, hydration with
  | none, _ => (false, w)
  | some _, .failed => (false, w)
  | some _, .unfilled => (true, w)
  | some u, .filled => (true, w.setCache id u.quota)

/-- `persistUserQuotaDelta`. -/
def persistUserQuotaDelta (dbOk : Bool) (id delta : Int) (w : Wallet) : Except Err Unit × Wallet :=
  if cfg.batchUpdateEnabled then (.ok (), w.addNewRecord id delta)
  else if dbOk = false then (.error .db, w)
  else
    match w.db.users.find? id with
    | none => (.error .recordNotFound, w)
    | some _ => (.ok (), w.addQuota id delta)

/-- `reserveUserQuotaDB`: the UPDATE carries the check. -/
def reserveUserQuotaDB (dbOk : Bool) (id quota : Int) (w : Wallet) : Except Err Bool × Wallet :=
  if dbOk = false then (.error .db, w)
  else
    match w.db.users.find? id with
    | none => (.ok false, w)
    | some u => if quota ≤ u.quota then (.ok true, w.addQuota id (-quota)) else (.ok false, w)

/-- What Redis and the database answer to a reservation. -/
structure ReserveEnv where
  firstAnswers : Bool := true
  hydration : Hydration := .filled
  secondAnswers : Bool := true
  compensationAnswers : Bool := true
  dbOk : Bool := true
deriving DecidableEq, Repr

/-- The cache part of `TryReserveUserQuota`: the script, and after a miss the
script again on the hash that was filled meanwhile. -/
def reserveInCache (env : ReserveEnv) (id quota : Int) (w : Wallet) : Except Err CacheQuotaResult × Wallet :=
  match cacheTryReserveUserQuota env.firstAnswers id quota w with
  | (.ok .miss, w) =>
    match getUserCache env.hydration id w with
    | (true, w) => cacheTryReserveUserQuota env.secondAnswers id quota w
    | (false, w) => (.ok .miss, w)
  | r => r

/-- `TryReserveUserQuota`. -/
def tryReserveUserQuota (env : ReserveEnv) (id quota : Int) (w : Wallet) : Except Err Bool × Wallet :=
  if quota < 0 then (.error (.text "quota 不能为负数！"), w)
  else if quota = 0 then (.ok true, w)
  else if cfg.redisEnabled = false then reserveUserQuotaDB env.dbOk id quota w
  else
    match reserveInCache env id quota w with
    | (.error _, w) => reserveUserQuotaDB env.dbOk id quota w
    | (.ok .miss, w) => reserveUserQuotaDB env.dbOk id quota w
    | (.ok .insufficient, w) => (.ok false, w)
    | (.ok .ok, w) =>
      match persistUserQuotaDelta cfg env.dbOk id (-quota) w with
      | (.ok _, w) => (.ok true, w)
      | (.error e, w) =>
        -- give the reserved amount back to the hash
        (.error e, (cacheApplyUserQuotaDelta env.compensationAnswers id quota w).2)

/-! ### Increasing and decreasing -/

/-- What Redis and the database answer to a single move. -/
structure MoveEnv where
  redisAnswers : Bool := true
  dbOk : Bool := true
deriving DecidableEq, Repr

/-- The move both share: the hash first, then the batch or the row.  An
UPDATE that finds no row is no error. -/
def moveUserQuota (env : MoveEnv) (id delta : Int) (db : Bool) (w : Wallet) : Except Err Unit × Wallet :=
  let w := cacheIncrUserQuota cfg env.redisAnswers id delta w
  if db = false ∧ cfg.batchUpdateEnabled = true then (.ok (), w.addNewRecord id delta)
  else if env.dbOk = false then (.error .db, w)
  else (.ok (), w.addQuota id delta)

/-- `IncreaseUserQuota`. -/
def increaseUserQuota (env : MoveEnv) (id quota : Int) (db : Bool) (w : Wallet) : Except Err Unit × Wallet :=
  if quota < 0 then (.error (.text "quota 不能为负数！"), w)
  else moveUserQuota cfg env id quota db w

/-- `DecreaseUserQuota`. -/
def decreaseUserQuota (env : MoveEnv) (id quota : Int) (db : Bool) (w : Wallet) : Except Err Unit × Wallet :=
  if quota < 0 then (.error (.text "quota 不能为负数！"), w)
  else moveUserQuota cfg env id (-quota) db w

/-- The batch updater on one user: its delta leaves the store, and the UPDATE
is only logged when it fails. -/
def applyBatch (dbOk : Bool) (id : Int) (w : Wallet) : Wallet :=
  let value := w.pending id
  let w := { w with pending := fun u => if u = id then 0 else w.pending u }
  if dbOk then w.addQuota id value else w

/-! ### Refunding a session -/

/-- What the database answers to a refund. -/
structure RefundWalletEnv where
  updateOk : Bool := true
  balanceOk : Bool := true
  ledgerOk : Bool := true
deriving DecidableEq, Repr

/-- The transaction of `refundWalletQuota`. -/
def refundWalletTx (env : RefundWalletEnv) (userId quota : Int) (refType : RefType) (refId : Int) :
    Tx DB Err Unit := do
  require (env.updateOk = true) .db
  let _ ← fetch (fun db : DB => db.users.find? userId) .recordNotFound
  update fun db : DB => db.addQuota userId quota
  require (env.balanceOk = true) .db
  let balanceAfter ← Tx.read fun db : DB => db.userColumn userId (·.quota)
  recordAccountLedger
    { subjectId := userId, eventType := .refund, amount := quota, balanceAfter := balanceAfter
      refType := refType, refId := refId, operatorId := 0 } env.ledgerOk

/-- `refundWalletQuota`: the row and the ledger, nothing else. -/
def refundWalletQuota (env : RefundWalletEnv) (userId quota : Int) (refType : RefType)
    (refId : Int) (w : Wallet) : Except Err Unit × Wallet :=
  if quota ≤ 0 then (.ok (), w)
  else
    let r := atomically (refundWalletTx env userId quota refType refId) w.db
    (r.1, { w with db := r.2 })

/-! ### Crediting -/

/-- A top-up callback with what follows its transaction. -/
def topUpCredit (redisAnswers : Bool) (op : TopUpOp) (w : Wallet) : Except Err (Option Credit) × Wallet :=
  match op.perform cfg.quotaPerUnit w.db with
  | (.ok (some c), db) =>
    (.ok (some c), syncCreditUserQuotaCache cfg redisAnswers c.userId c.quota { w with db := db })
  | (r, db) => (r, { w with db := db })

/-- What Redis and the database answer to a redemption. -/
structure RedeemEnv where
  now : Int := 0
  redisAnswers : Bool := true
  lockOk : Bool := true
  markOk : Bool := true
  updateOk : Bool := true
deriving DecidableEq, Repr

/-- The code as a redemption marks it. -/
def Redemption.redeemed (code : Redemption) (userId now : Int) : Redemption :=
  { code with redeemedTime := now, status := .used, usedUserId := userId }

/-- The transaction of `Redeem`. -/
def redeemTx (env : RedeemEnv) (key : String) (userId : Int) : Tx DB Err Int := do
  let code ← fetch (fun db : DB =>
    if env.lockOk then db.redemptions.rows.find? (·.key = key) else none) (.text "无效的兑换码")
  require (code.status = .enabled) (.text "该兑换码已被使用")
  require (¬ (code.expiredTime ≠ 0 ∧ code.expiredTime < env.now)) (.text "该兑换码已过期")
  require (env.markOk = true) .db
  update fun db : DB => { db with redemptions := db.redemptions.save (code.redeemed userId env.now) }
  require (env.updateOk = true) .db
  update fun db : DB => db.addQuota userId code.quota
  pure code.quota

/-- `Redeem`. -/
def redeem (env : RedeemEnv) (key : String) (userId : Int) (w : Wallet) : Except Err Int × Wallet :=
  if key = "" then (.error (.text "未提供兑换码"), w)
  else if userId = 0 then (.error (.text "无效的 user id"), w)
  else
    match atomically (redeemTx env key userId) w.db with
    | (.error _, db) => (.error .redeemFailed, { w with db := db })
    | (.ok quota, db) =>
      (.ok quota, syncCreditUserQuotaCache cfg env.redisAnswers userId quota { w with db := db })

/-! ### Buying a subscription from the balance -/

/-- `calcSubscriptionBalanceQuota`.  The error of a clamp goes on to print the
values. -/
def calcSubscriptionBalanceQuota (priceAmount : ℚ) : Except Err Int :=
  if priceAmount ≤ 0 then .ok 0
  else if cfg.quotaPerUnit ≤ 0 then .error (.text "额度单位配置错误")
  else
    match quotaFromDecimalStrict (priceAmount * cfg.quotaPerUnit).ceil with
    | .ok quota => .ok quota
    | .error .overflow => .error (.text "quota conversion (QuotaFromDecimal) overflow")
    | .error .underflow => .error (.text "quota conversion (QuotaFromDecimal) underflow")

/-- What Redis and the database answer to a purchase. -/
structure PurchaseEnv where
  lookup : Int → Except Err SubscriptionPlan
  create : CreateEnv
  now : Int := 0
  tradeNo : String := ""
  lockOk : Bool := true
  updateOk : Bool := true
  orderOk : Bool := true
  redisAnswers : Bool := true

variable (env : PurchaseEnv)

/-- Take the price from the row, if there is one. -/
def chargePurchase (userId requiredQuota : Int) : Tx DB Err Unit :=
  if 0 < requiredQuota then do
    require (env.updateOk = true) .db
    update fun db : DB => db.addQuota userId (-requiredQuota)
  else pure ()

/-- The transaction of `PurchaseSubscriptionWithBalance`; the answer is the
quota charged. -/
def purchaseTx (userId planId : Int) : Tx DB Err Int := do
  let plan ← lift (getSubscriptionPlanByIdTx env.lookup planId)
  require (plan.enabled = true) (.text "套餐未启用")
  require (0 ≤ plan.priceAmount) (.text "套餐价格不能为负数")
  require (plan.allowBalancePay ≠ some false) (.text "该套餐不允许使用余额兑换")
  let requiredQuota ← lift (calcSubscriptionBalanceQuota cfg plan.priceAmount)
  require (env.lockOk = true) .db
  let user ← fetch (fun db : DB => db.users.find? userId) .recordNotFound
  require (¬ (0 < requiredQuota ∧ user.quota < requiredQuota)) (.text "余额不足")
  chargePurchase env userId requiredQuota
  let _ ← createUserSubscriptionFromPlanTx cfg.calendar env.create userId plan "balance"
  let taken ← Tx.read fun db : DB => (db.subscriptionOrders.find? env.tradeNo).isSome
  require (env.orderOk = true ∧ taken = false) .db
  update fun db : DB => { db with
    subscriptionOrders := db.subscriptionOrders.insert
      { tradeNo := env.tradeNo, userId := userId, planId := plan.id, money := plan.priceAmount
        paymentMethod := "balance", paymentProvider := .balance, status := .success
        createTime := env.now, completeTime := env.now
        providerPayload := s!"charged_quota={requiredQuota}" } }
  pure requiredQuota

/-- `PurchaseSubscriptionWithBalance`. -/
def purchaseSubscriptionWithBalance (userId planId : Int) (w : Wallet) : Except Err Unit × Wallet :=
  if userId ≤ 0 ∨ planId ≤ 0 then (.error (.text "invalid userId or planId"), w)
  else
    match atomically (purchaseTx cfg env userId planId) w.db with
    | (.error e, db) => (.error e, { w with db := db })
    | (.ok chargedQuota, db) =>
      if 0 < chargedQuota then
        (.ok (), cacheDecrUserQuota cfg env.redisAnswers userId chargedQuota { w with db := db })
      else (.ok (), { w with db := db })

/-! ### Issuing quota to a customer -/

/-- What Redis and the database answer to an issue. -/
structure IssueEnv where
  profileOk : Bool := true
  lockAgentOk : Bool := true
  lockCustomerOk : Bool := true
  planOk : Bool := true
  debitOk : Bool := true
  creditOk : Bool := true
  balancesOk : Bool := true
  agentLedgerOk : Bool := true
  customerLedgerOk : Bool := true
  agentRedisAnswers : Bool := true
  customerRedisAnswers : Bool := true
deriving DecidableEq, Repr

/-- `GetAgentProfileByUserId`. -/
def getAgentProfileByUserId (profileOk : Bool) (userId : Int) (db : DB) : Except Err AgentProfile :=
  if userId ≤ 0 then .error .agentProfileNotFound
  else if profileOk = false then .error .db
  else
    match db.agentProfiles.find? userId with
    | none => .error .agentProfileNotFound
    | some profile => .ok profile

/-- The conversion rate text of a plan: no plan, a deleted one and an empty
text all mean 1.0. -/
def topupConversionRateText (planOk : Bool) (planId : Int) (db : DB) : Except Err String :=
  if planId ≤ 0 then .ok discountTopupConversionDefault
  else if planOk = false then .error .db
  else
    match db.discountPlans.find? planId with
    | none => .ok discountTopupConversionDefault
    | some plan =>
      .ok (if plan.topupConversionRate = "" then discountTopupConversionDefault
        else plan.topupConversionRate)

/-- `resolveAgentTopupCost`: the agent's cost, rounded up, and the rate. -/
def resolveAgentTopupCost (planOk : Bool) (planId quota : Int) (db : DB) : Except Err (Int × ℚ) :=
  match topupConversionRateText planOk planId db with
  | .error e => .error e
  | .ok text =>
    match cfg.newFromString text with
    | none => .error (.text s!"解析 topup_conversion_rate {text.quote} 失败")
    | some rate => .ok ((quota * rate).ceil, rate)

/-- A ledger row of an issue. -/
def issueRow (subjectId amount balanceAfter agentId : Int) : AccountLedger where
  subjectId := subjectId
  eventType := .agentQuotaGrant
  amount := amount
  balanceAfter := balanceAfter
  refType := .agentQuotaGrant
  refId := 0
  operatorId := agentId

/-- The transaction of `IssueQuotaToCustomer`; the answer is the agent's
cost. -/
def issueTx (env : IssueEnv) (agentId customerId quota : Int) : Tx DB Err Int := do
  require (env.lockAgentOk = true) .db
  let agent ← fetch (fun db : DB => db.users.find? agentId) .recordNotFound
  require (env.lockCustomerOk = true) .db
  let customer ← fetch (fun db : DB => db.users.find? customerId) .agentCustomerNotFound
  require (¬ (customer.parentAgentId ≠ agentId ∨ customer.subjectType = .agent))
    .agentCustomerNotFound
  let resolved ← Tx.read fun db : DB =>
    resolveAgentTopupCost cfg env.planOk customer.discountPlanId quota db
  let (agentCost, rate) ← lift resolved
  require (rate ≠ 0) .agentTopupRateZero
  require (rate ≤ 1) .agentTopupRateTooHigh
  require (agentCost ≤ agent.quota) .agentQuotaNotEnough
  require (env.debitOk = true) .db
  update fun db : DB => db.addQuota agentId (-agentCost)
  require (env.creditOk = true) .db
  update fun db : DB => db.addQuota customerId quota
  require (env.balancesOk = true) .db
  let agentBalanceAfter ← Tx.read fun db : DB => db.userColumn agentId (·.quota)
  let customerBalanceAfter ← Tx.read fun db : DB => db.userColumn customerId (·.quota)
  recordAccountLedger (issueRow agentId (-agentCost) agentBalanceAfter agentId) env.agentLedgerOk
  recordAccountLedger (issueRow customerId quota customerBalanceAfter agentId) env.customerLedgerOk
  pure agentCost

/-- `IssueQuotaToCustomer`. -/
def issueQuotaToCustomer (env : IssueEnv) (agentId customerId quota : Int) (w : Wallet) :
    Except Err Unit × Wallet :=
  if quota ≤ 0 then (.error .agentQuotaInvalid, w)
  else
    match getAgentProfileByUserId env.profileOk agentId w.db with
    | .error e => (.error e, w)
    | .ok profile =>
      if profile.issueQuotaEnabled ≠ 1 then (.error .agentQuotaIssuingDisabled, w)
      else
        match atomically (issueTx cfg env agentId customerId quota) w.db with
        | (.error e, db) => (.error e, { w with db := db })
        | (.ok agentCost, db) =>
          (.ok (), cacheIncrUserQuota cfg env.customerRedisAnswers customerId quota
            (cacheDecrUserQuota cfg env.agentRedisAnswers agentId agentCost { w with db := db }))

/-! ### Moving invitation quota into the wallet -/

/-- What the database answers to a transfer. -/
structure TransferEnv where
  beginOk : Bool := true
  lockOk : Bool := true
  saveOk : Bool := true
  commitOk : Bool := true
deriving DecidableEq, Repr

/-- The transaction of `TransferAffQuotaToQuota`. -/
def transferAffTx (env : TransferEnv) (id quota : Int) : Tx DB Err Unit := do
  require (env.beginOk = true) .db
  require (env.lockOk = true) .db
  let user ← fetch (fun db : DB => db.users.find? id) .recordNotFound
  require (quota ≤ user.affQuota) (.text "邀请额度不足！")
  require (env.saveOk = true) .db
  update fun db : DB => { db with
    users := db.users.save
      { user with affQuota := user.affQuota - quota, quota := user.quota + quota } }
  require (env.commitOk = true) .db

/-- `TransferAffQuotaToQuota`: the row alone. -/
def transferAffQuotaToQuota (env : TransferEnv) (id quota : Int) (w : Wallet) : Except Err Unit × Wallet :=
  if (quota : ℚ) < cfg.quotaPerUnit then
    (.error (.text s!"转移额度最小为{cfg.quotaPerUnitText}！"), w)
  else
    let r := atomically (transferAffTx env id quota) w.db
    (r.1, { w with db := r.2 })

end Operations

end MicrossApi
