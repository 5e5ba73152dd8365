/-
MicrossApi/Database.lean

The relational store the services share: the tables and columns the modelled
functions read or write, and `RecordAccountLedger`, the one way a row gets
into the account ledger (model/account_ledger.go,
model/account_ledger_helper.go, model/user.go, model/commission.go,
model/topup.go, model/redemption.go, model/agent.go, model/discount.go,
model/subscription.go, model/errors.go, model/log.go).

Amounts, balances and identifiers are integers.  A statement the database may
refuse (a lost connection, a value out of the column's range) is an outcome
the caller's environment chooses, so that a theorem about all environments
covers every such failure.
-/
import Mathlib.Data.List.DropRight
import Mathlib.Data.List.Infix
import Mathlib.Data.Rat.Defs
import MicrossApi.Table
import MicrossApi.Tx

namespace MicrossApi

open List

/-! ### Text -/

/-- A space in the sense of `strings.TrimSpace` (Unicode `White_Space`). -/
def isSpace (c : Char) : Bool :=
  let n := c.toNat
  (9 ≤ n && n ≤ 13) || n = 0x20 || n = 0x85 || n = 0xA0 || n = 0x1680 ||
    (0x2000 ≤ n && n ≤ 0x200A) || n = 0x2028 || n = 0x2029 || n = 0x202F || n = 0x205F ||
    n = 0x3000

/-- `strings.TrimSpace`. -/
def trimSpace (s : String) : String :=
  String.ofList ((s.toList.dropWhile isSpace).reverse.dropWhile isSpace).reverse

/-- `strings.HasPrefix`. -/
def startsWith (s start : String) : Bool := start.toList.isPrefixOf s.toList

/-- `strings.Contains`. -/
def containsText (s part : String) : Bool := decide (part.toList <:+: s.toList)

theorem trimSpace_empty : trimSpace "" = "" := by decide

theorem trimSpace_eq_self {s : String} (h : ∀ c ∈ s.toList, isSpace c = false) : trimSpace s = s := by
  have hkeep : ∀ l : List Char, (∀ c ∈ l, isSpace c = false) → l.dropWhile isSpace = l := by
    intro l hl
    cases l with
    | nil => rfl
    | cons c => rw [dropWhile_cons_of_neg (by rw [hl c mem_cons_self]; exact Bool.noConfusion)]
  unfold trimSpace
  rw [hkeep _ h, hkeep _ fun c hc => h c (mem_reverse.mp hc), reverse_reverse, String.ofList_toList]

theorem toList_trimSpace (s : String) :
    (trimSpace s).toList = (s.toList.dropWhile isSpace).rdropWhile isSpace :=
  String.toList_ofList

/-- Cutting the back does not change how the trimmed front begins. -/
theorem front_trimSpace (s : String) : (trimSpace s).toList.dropWhile isSpace = (trimSpace s).toList := by
  rw [toList_trimSpace]
  generalize hm : s.toList.dropWhile isSpace = m
  have hfront : m.dropWhile isSpace = m := hm ▸ dropWhile_idempotent isSpace s.toList
  rw [dropWhile_eq_self_iff] at hfront ⊢
  intro hl
  have hinit := rdropWhile_prefix isSpace m
  rw [hinit.getElem hl]
  exact hfront (Nat.lt_of_lt_of_le hl hinit.length_le)

theorem trimSpace_trimSpace (s : String) : trimSpace (trimSpace s) = trimSpace s := by
  apply String.toList_injective
  rw [toList_trimSpace, front_trimSpace, toList_trimSpace, rdropWhile_idempotent]

/-! ### Errors -/

/-- The errors the modelled functions return: the sentinels callers compare
with `errors.Is`, a driver error, or a plain text. -/
inductive Err where
  | recordNotFound
  | commissionAlreadyReversed
  | paymentMethodMismatch
  | topUpNotFound
  | topUpStatusInvalid
  | invalidTopUpQuota
  | topUpQuotaLimitExceeded
  | userAuthCachePending
  | agentProfileNotFound
  | agentCustomerNotFound
  | agentQuotaIssuingDisabled
  | agentQuotaNotEnough
  | agentQuotaInvalid
  | agentTopupRateZero
  | agentTopupRateTooHigh
  | redeemFailed
  | db
  | redis
  | text (message : String)
deriving DecidableEq, Repr

/-- The text of an error, `err.Error()`. -/
def Err.message : Err → String
  | .recordNotFound => "record not found"
  | .commissionAlreadyReversed => "commission record already reversed"
  | .paymentMethodMismatch => "payment method mismatch"
  | .topUpNotFound => "topup not found"
  | .topUpStatusInvalid => "topup status invalid"
  | .invalidTopUpQuota => "invalid top-up quota"
  | .topUpQuotaLimitExceeded => "top-up quota limit exceeded"
  | .userAuthCachePending => "user authentication state update is pending"
  | .agentProfileNotFound => "该用户不是经销商"
  | .agentCustomerNotFound => "这位客户不在你的名下"
  | .agentQuotaIssuingDisabled => "给下属客户发额度已关闭"
  | .agentQuotaNotEnough => "你自己的额度不足"
  | .agentQuotaInvalid => "额度必须是正数"
  | .agentTopupRateZero => "经销商发额度折算比例不能为 0"
  | .agentTopupRateTooHigh => "经销商发额度折算比例必须 ≤ 1"
  | .redeemFailed => "redeem.failed"
  | .db => "database error"
  | .redis => "redis error"
  | .text m => m

/-! ### Rows -/

/-- The kind of account (`SubjectType…`). -/
inductive SubjectType where
  | individual
  | agent
deriving DecidableEq, Repr

/-- A row of `users`. -/
structure User where
  id : Int
  inviterId : Int := 0
  affCommissionBalance : Int := 0
  affQuota : Int := 0
  quota : Int := 0
  group : String := "default"
  email : String := ""
  stripeCustomer : String := ""
  subjectType : SubjectType := .individual
  parentAgentId : Int := 0
  discountPlanId : Int := 0
deriving DecidableEq, Repr

/-- A row of `commission_records`.  `consumeLogId` alone carries the unique
index `uk_consume_inviter`. -/
structure CommissionRecord where
  id : Int := 0
  inviterId : Int
  inviteeId : Int
  consumeLogId : Int
  gross : Int
  rate : String
  amount : Int
  margin : Int
  breach : Bool
  settledAt : Int := 0
  reversed : Bool := false
  reversedAt : Int := 0
  reversedBy : Int := 0
  reverseReason : String := ""
deriving DecidableEq, Repr

/-- The status of a top-up order (`TopUpStatus…`). -/
inductive TopUpStatus where
  | pending
  | success
  | failed
  | expired
deriving DecidableEq, Repr

/-- A payment provider (`PaymentProvider…`); the column defaults to none. -/
inductive PaymentProvider where
  | none
  | epay
  | stripe
  | creem
  | waffo
  | waffoPancake
  | balance
deriving DecidableEq, Repr

/-- A row of `top_ups`.  `money` is the decimal its column holds. -/
structure TopUp where
  id : Int
  userId : Int
  amount : Int
  money : ℚ
  tradeNo : String
  paymentMethod : String := ""
  paymentProvider : PaymentProvider := .none
  completeTime : Int := 0
  status : TopUpStatus := .pending
  id_pos : 0 < id
deriving DecidableEq

/-- The status of a redemption code (`RedemptionCodeStatus…`). -/
inductive RedemptionStatus where
  | enabled
  | disabled
  | used
deriving DecidableEq, Repr

/-- A row of `redemptions` that is not deleted. -/
structure Redemption where
  id : Int
  key : String
  quota : Int
  status : RedemptionStatus := .enabled
  redeemedTime : Int := 0
  usedUserId : Int := 0
  expiredTime : Int := 0
deriving DecidableEq, Repr

/-- A row of `agent_profiles`, one a user. -/
structure AgentProfile where
  userId : Int
  issueQuotaEnabled : Int := 1
  markupRatio : String := ""
deriving DecidableEq, Repr

/-- `DiscountNone`. -/
def discountNone : String := "1.000000"

/-- `DiscountTopupConversionDefault`. -/
def discountTopupConversionDefault : String := "1.000000"

/-- A row of `discount_plans`. -/
structure DiscountPlan where
  id : Int
  topupConversionRate : String := discountTopupConversionDefault
  name : String := ""
  baseDiscount : String := ""
  minDiscount : String := ""
  enabled : Bool := true
deriving DecidableEq, Repr

/-- The status of a user's subscription. -/
inductive SubscriptionStatus where
  | active
  | expired
  | cancelled
deriving DecidableEq, Repr

/-- A row of `user_subscriptions`.  The two amounts are `int64`: a total of
zero or less means unlimited. -/
structure UserSubscription where
  id : Int
  userId : Int
  planId : Int
  amountTotal : Int64
  amountUsed : Int64 := 0
  startTime : Int := 0
  endTime : Int
  status : SubscriptionStatus := .active
  source : String := "order"
  lastResetTime : Int := 0
  nextResetTime : Int := 0
  upgradeGroup : String := ""
  prevUserGroup : String := ""
  downgradeGroup : String := ""
  allowWalletOverflow : Bool := true
deriving DecidableEq

/-- The status of a pre-consumption. -/
inductive PreConsumeStatus where
  | consumed
  | refunded
deriving DecidableEq, Repr

/-- A row of `subscription_pre_consume_records`; the request id is unique. -/
structure SubscriptionPreConsumeRecord where
  requestId : String
  userId : Int
  userSubscriptionId : Int
  preConsumed : Int64
  status : PreConsumeStatus := .consumed
deriving DecidableEq

/-- A row of `subscription_orders`. -/
structure SubscriptionOrder where
  tradeNo : String
  userId : Int
  planId : Int
  money : ℚ
  paymentMethod : String
  paymentProvider : PaymentProvider
  status : TopUpStatus
  createTime : Int
  completeTime : Int
  providerPayload : String
deriving DecidableEq

/-- The event types of the account ledger (`AccountEvent…`). -/
inductive LedgerEvent where
  | commission
  | commissionReverse
  | topup
  | refund
  | agentQuotaGrant
  | adjustment
deriving DecidableEq, Repr

/-- What a ledger row points back to. -/
inductive RefType where
  | commissionRecord
  | topUp
  | agentQuotaGrant
  | billingSessionSettle
  | billingSessionRefund
deriving DecidableEq, Repr

/-- A row of `account_ledger`.  Every caller files it under the subject type
"user", so the subject is the user id alone. -/
structure AccountLedger where
  subjectId : Int
  eventType : LedgerEvent
  amount : Int
  balanceAfter : Int
  refType : RefType
  refId : Int
  operatorId : Int
deriving DecidableEq, Repr

/-- The log types the modelled functions write or filter on. -/
inductive LogType where
  | topup
  | consume
  | manage
deriving DecidableEq, Repr

/-- A row of `logs`. -/
structure Log where
  userId : Int
  type : LogType
  quota : Int := 0
  content : String := ""
deriving DecidableEq, Repr

/-! ### The store -/

/-- The database. -/
structure DB where
  users : Table User.id := Table.empty
  commissionRecords : Table CommissionRecord.id := Table.empty
  topUps : Table TopUp.id := Table.empty
  redemptions : Table Redemption.id := Table.empty
  agentProfiles : Table AgentProfile.userId := Table.empty
  discountPlans : Table DiscountPlan.id := Table.empty
  userSubscriptions : Table UserSubscription.id := Table.empty
  preConsumeRecords : Table SubscriptionPreConsumeRecord.requestId := Table.empty
  subscriptionOrders : Table SubscriptionOrder.tradeNo := Table.empty
  accountLedger : List AccountLedger := []
  logs : List Log := []

theorem User.id_withGroup (group : String) (u : User) : { u with group := group }.id = u.id := rfl

theorem User.id_withDiscountPlan (planId : Int) (u : User) :
    { u with discountPlanId := planId }.id = u.id := rfl

/-- `UPDATE users SET … WHERE id = u`: silent when there is no such row. -/
def DB.updateUser (db : DB) (u : Int) (f : User → User) (hf : ∀ r, (f r).id = r.id) : DB :=
  { db with users := db.users.modify u f hf }

theorem DB.find?_updateUser (db : DB) (u j : Int) (f : User → User) (hf : ∀ r, (f r).id = r.id) :
    (db.updateUser u f hf).users.find? j = if j = u then (db.users.find? j).map f else db.users.find? j :=
  Table.find?_modify db.users u j f hf

/-- One column of the user row `u`; a `Scan` that finds no row leaves zero. -/
def DB.userColumn (db : DB) (u : Int) (col : User → Int) : Int :=
  ((db.users.find? u).map col).getD 0

/-! ### The account ledger -/

/-- `RecordAccountLedger`: append one row inside the caller's transaction.
`ok` is whether the INSERT itself succeeds. -/
def recordAccountLedger (row : AccountLedger) (ok : Bool) : Tx DB Err Unit := do
  let subjectId := row.subjectId
  Tx.require (0 < subjectId) (.text s!"RecordAccountLedger: subject_id={subjectId} invalid")
  Tx.require (ok = true) .db
  Tx.update fun db => { db with accountLedger := db.accountLedger ++ [row] }

variable {row : AccountLedger} {ok : Bool}

theorem ok_recordAccountLedger_iff {db db' : DB} {u : Unit} :
    recordAccountLedger row ok db = .ok (u, db') ↔ 0 < row.subjectId ∧ ok = true ∧
        db' = { db with accountLedger := db.accountLedger ++ [row] } := by
  simp only [recordAccountLedger, Tx.ok_require_bind_iff, Tx.ok_update_iff]

theorem ok_recordAccountLedger_bind_iff {β : Type}
    {f : Unit → Tx DB Err β} {db db' : DB} {b : β} : (recordAccountLedger row ok >>= f) db = .ok (b, db') ↔
      0 < row.subjectId ∧ ok = true ∧
        f () { db with accountLedger := db.accountLedger ++ [row] } = .ok (b, db') := by
  simp only [Tx.ok_bind_iff, ok_recordAccountLedger_iff]
  constructor
  · rintro ⟨_, _, ⟨h, hok, rfl⟩, hrest⟩
    exact ⟨h, hok, hrest⟩
  · rintro ⟨h, hok, hrest⟩
    exact ⟨(), _, ⟨h, hok, rfl⟩, hrest⟩

/-- The sum of the ledger amounts of user `u` over the rows whose event
satisfies `p`. -/
def ledgerSum (ledger : List AccountLedger) (p : LedgerEvent → Bool) (u : Int) : Int :=
  ((ledger.filter fun l => l.subjectId = u ∧ p l.eventType).map (·.amount)).sum

@[simp] theorem ledgerSum_append_singleton (ledger : List AccountLedger)
    (p : LedgerEvent → Bool) (u : Int) (row : AccountLedger) : ledgerSum (ledger ++ [row]) p u
      = ledgerSum ledger p u + if row.subjectId = u ∧ p row.eventType then row.amount else 0 := by
  by_cases h : row.subjectId = u ∧ p row.eventType = true <;> simp [ledgerSum, h]

end MicrossApi
