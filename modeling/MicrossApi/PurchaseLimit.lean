/-
MicrossApi/PurchaseLimit.lean

The limit on purchases of a plan (`CreateUserSubscriptionFromPlanTx` and its
callers `CompleteSubscriptionOrder`, `AdminBindSubscription` and
`PurchaseSubscriptionWithBalance`, model/subscription.go).  The count of the
user's subscriptions and the insert are separate statements of a transaction;
every caller takes the lock of the user's row before the count, and keeps it to
the end of the transaction.  An order is locked before that, and becomes
successful in the transaction that inserts its subscription.

Each call is a thread.  A statement that takes a lock is a step, the count is one,
and the commit is one, with the writes of the transaction, which nobody else sees
before.  Statements after the count that fail roll back.
-/
import MicrossApi.Interleaving
import MicrossApi.Wallet

namespace MicrossApi

open List StepSystem Interleaving
open Tx hiding read

/-! ### The three entry points -/

/-- What locks are taken on. -/
inductive PurchaseKey where
  | order (tradeNo : String)
  | user (userId : Int)
deriving DecidableEq, Repr

/-- The tables and the locks.  `created` records which order has created which
subscription. -/
structure PurchaseStore where
  db : DB
  locks : Locks PurchaseKey := Locks.free
  created : List (String × Int) := []

/-- The calls; the provider `none` is not checked. -/
inductive PurchaseCall where
  | completeSubscriptionOrder (tradeNo providerPayload : String)
      (expectedPaymentProvider : PaymentProvider) (actualPaymentMethod : String)
  | adminBindSubscription (userId planId : Int)
  | purchaseSubscriptionWithBalance (userId planId : Int)
  | expireSubscriptionOrder (tradeNo : String) (expectedPaymentProvider : PaymentProvider)
deriving DecidableEq, Repr

/-- Where a purchase comes from; the order is the row as it was locked. -/
inductive PurchaseOrigin where
  | order (order : SubscriptionOrder) (providerPayload actualPaymentMethod : String)
  | admin (userId planId : Int)
  | balance (userId planId : Int)
deriving DecidableEq

def PurchaseOrigin.userId : PurchaseOrigin → Int
  | .order o _ _ => o.userId
  | .admin userId _ | .balance userId _ => userId

def PurchaseOrigin.planId : PurchaseOrigin → Int
  | .order o _ _ => o.planId
  | .admin _ planId | .balance _ planId => planId

/-- What a step is answered. -/
structure PurchaseAnswer where
  ok : Bool := true
  create : CreateEnv := { now := 0, newId := 1 }
  now : Int := 0
  /-- the trade number drawn for a purchase from the balance -/
  tradeNo : String := ""
  topUpId : Int := 1
  updateOk : Bool := true
  topUpOk : Bool := true
  orderOk : Bool := true
deriving DecidableEq, Repr

/-- Where a call is.  `requiredQuota` is what a purchase from the balance costs. -/
inductive Purchase where
  /-- lock the order, to complete it with what the gateway sent or to expire it -/
  | lockOrder (tradeNo : String) (expectedPaymentProvider : PaymentProvider)
      (complete : Option (String × String))
  | findPlan (origin : PurchaseOrigin)
  | lockUser (origin : PurchaseOrigin) (plan : SubscriptionPlan) (requiredQuota : Int)
  | count (origin : PurchaseOrigin) (plan : SubscriptionPlan) (requiredQuota : Int)
  | commit (origin : PurchaseOrigin) (plan : SubscriptionPlan) (requiredQuota : Int)
  | expire (order : SubscriptionOrder)
  | ended (result : Except Err Unit)

/-- The call up to its first statement. -/
def PurchaseCall.begin : PurchaseCall → Purchase
  | .completeSubscriptionOrder tradeNo providerPayload expectedPaymentProvider actualPaymentMethod =>
    if tradeNo = "" then .ended (.error (.text "tradeNo is empty"))
    else .lockOrder tradeNo expectedPaymentProvider (some (providerPayload, actualPaymentMethod))
  | .adminBindSubscription userId planId =>
    if userId ≤ 0 ∨ planId ≤ 0 then .ended (.error (.text "invalid userId or planId"))
    else .findPlan (.admin userId planId)
  | .purchaseSubscriptionWithBalance userId planId =>
    if userId ≤ 0 ∨ planId ≤ 0 then .ended (.error (.text "invalid userId or planId"))
    else .findPlan (.balance userId planId)
  | .expireSubscriptionOrder tradeNo expectedPaymentProvider =>
    if tradeNo = "" then .ended (.error (.text "tradeNo is empty"))
    else .lockOrder tradeNo expectedPaymentProvider none

variable (order : SubscriptionOrder) {origin : PurchaseOrigin} {env : CreateEnv} {x : Unit × DB}
  {userId : Int}

/-- What becomes of a call that has read its order. -/
def SubscriptionOrder.locked (expectedPaymentProvider : PaymentProvider) : Option (String × String) → Purchase
  | some (providerPayload, actualPaymentMethod) =>
    if expectedPaymentProvider ≠ .none ∧ order.paymentProvider ≠ expectedPaymentProvider then
      .ended (.error .paymentMethodMismatch)
    else if order.status = .success then .ended (.ok ())
    else if order.status ≠ .pending then .ended (.error (.text "subscription order status invalid"))
    else .findPlan (.order order providerPayload actualPaymentMethod)
  | none =>
    if expectedPaymentProvider ≠ .none ∧ order.paymentProvider ≠ expectedPaymentProvider then
      .ended (.error .paymentMethodMismatch)
    else if order.status ≠ .pending then .ended (.ok ())
    else .expire order

variable (cfg : WalletConfig) (catalogue : Table SubscriptionPlan.id)

/-- The plan, from the cache or the table. -/
def lookupPlan (ok : Bool) (planId : Int) : Except Err SubscriptionPlan :=
  getSubscriptionPlanByIdTx
    (fun id => if ok then (catalogue.find? id).elim (.error .recordNotFound) .ok else .error .db) planId

/-- What the purchase costs, if it is made from the balance. -/
def PurchaseOrigin.requiredQuota (plan : SubscriptionPlan) : PurchaseOrigin → Except Err Int
  | .balance _ _ =>
    if plan.enabled = false then .error (.text "套餐未启用")
    else if plan.priceAmount < 0 then .error (.text "套餐价格不能为负数")
    else if plan.allowBalancePay = some false then .error (.text "该套餐不允许使用余额兑换")
    else calcSubscriptionBalanceQuota cfg plan.priceAmount
  | _ => .ok 0

/-- `upsertSubscriptionTopUpTx`. -/
def upsertSubscriptionTopUpTx (a : PurchaseAnswer) (order : SubscriptionOrder) : Tx DB Err Unit := do
  require (a.topUpOk = true) .db
  let found ← Tx.read fun db : DB => db.topUpByTradeNo order.tradeNo
  match found with
  | none =>
    if h : 0 < a.topUpId then
      update fun db : DB => { db with
        topUps := db.topUps.insert
          { id := a.topUpId, userId := order.userId, amount := 0, money := order.money
            tradeNo := order.tradeNo, paymentMethod := order.paymentMethod
            completeTime := a.now, status := .success, id_pos := h } }
    else fail .db
  | some topup => do
    require (topup.paymentMethod = "" ∨ topup.paymentMethod = order.paymentMethod)
      .paymentMethodMismatch
    update fun db : DB => { db with
      topUps := db.topUps.save
        { topup with
          money := order.money, paymentMethod := order.paymentMethod
          completeTime := a.now, status := .success } }

/-- The order as it is saved when it is complete. -/
def SubscriptionOrder.completed (now : Int)
    (providerPayload actualPaymentMethod : String) : SubscriptionOrder :=
  { order with
    status := .success
    completeTime := now
    providerPayload := if providerPayload ≠ "" then providerPayload else order.providerPayload
    paymentMethod := if actualPaymentMethod ≠ "" then actualPaymentMethod else order.paymentMethod }

/-- The statements of a purchase after the count. -/
def PurchaseOrigin.finishTx (a : PurchaseAnswer) (plan : SubscriptionPlan) (requiredQuota : Int) :
    PurchaseOrigin → Tx DB Err Unit
  | .order o providerPayload actualPaymentMethod => do
    let _ ← insertFromPlan cfg.calendar a.create o.userId plan "order"
    upsertSubscriptionTopUpTx a o
    require (a.orderOk = true) .db
    update fun db : DB => { db with
      subscriptionOrders := db.subscriptionOrders.save
        (o.completed a.now providerPayload actualPaymentMethod) }
  | .admin userId _ => do
    let _ ← insertFromPlan cfg.calendar a.create userId plan "admin"
    pure ()
  | .balance userId _ => do
    -- the price is taken before the count, which does not see it
    chargePurchase { lookup := fun _ => .error .db, create := a.create, updateOk := a.updateOk }
      userId requiredQuota
    let _ ← insertFromPlan cfg.calendar a.create userId plan "balance"
    let taken ← Tx.read fun db : DB => (db.subscriptionOrders.find? a.tradeNo).isSome
    require (a.orderOk = true ∧ taken = false) .db
    update fun db : DB => { db with
      subscriptionOrders := db.subscriptionOrders.insert
        { tradeNo := a.tradeNo, userId := userId, planId := plan.id, money := plan.priceAmount
          paymentMethod := "balance", paymentProvider := .balance, status := .success
          createTime := a.now, completeTime := a.now
          providerPayload := s!"charged_quota={requiredQuota}" } }

/-- The order that a purchase belongs to. -/
def PurchaseOrigin.tradeNo (a : PurchaseAnswer) : PurchaseOrigin → List String
  | .order o _ _ => [o.tradeNo]
  | .admin _ _ => []
  | .balance _ _ => [a.tradeNo]

/-- The transaction of thread `k` ends. -/
def PurchaseStore.release (s : PurchaseStore) (k : Nat) : PurchaseStore :=
  { s with locks := s.locks.release k }

/-- The next step of call `k`; one that waits for a lock stays. -/
def Purchase.next (k : Nat) (a : PurchaseAnswer) (s : PurchaseStore) : Purchase → PurchaseStore × Purchase
  | .lockOrder tradeNo expectedPaymentProvider complete =>
    if s.locks.CanTake (.order tradeNo) k then
      match a.ok, s.db.subscriptionOrders.find? tradeNo with
      | true, some order =>
        match order.locked expectedPaymentProvider complete with
        | .ended result => (s, .ended result)
        | t => ({ s with locks := s.locks.take (.order tradeNo) k }, t)
      | _, _ => (s, .ended (.error (.text "subscription order not found")))
    else (s, .lockOrder tradeNo expectedPaymentProvider complete)
  | .findPlan origin =>
    match lookupPlan catalogue a.ok origin.planId with
    | .error e => (s.release k, .ended (.error e))
    | .ok plan =>
      match origin.requiredQuota cfg plan with
      | .error e => (s.release k, .ended (.error e))
      | .ok requiredQuota => (s, .lockUser origin plan requiredQuota)
  | .lockUser origin plan requiredQuota =>
    if s.locks.CanTake (.user origin.userId) k then
      match a.ok, s.db.users.find? origin.userId with
      | true, some user =>
        if 0 < requiredQuota ∧ user.quota < requiredQuota then
          (s.release k, .ended (.error (.text "余额不足")))
        else
          ({ s with locks := s.locks.take (.user origin.userId) k }, .count origin plan requiredQuota)
      | _, _ => (s.release k, .ended (.error .recordNotFound))
    else (s, .lockUser origin plan requiredQuota)
  | .count origin plan requiredQuota =>
    match purchaseAllowed a.create origin.userId plan s.db with
    | .error e => (s.release k, .ended (.error e))
    | .ok _ => (s, .commit origin plan requiredQuota)
  | .commit origin plan requiredQuota =>
    match a.ok, origin.finishTx cfg a plan requiredQuota s.db with
    | true, .ok (_, db) =>
      ({ s.release k with
          db := db
          created := s.created ++ (origin.tradeNo a).map fun t => (t, a.create.newId) }, .ended (.ok ()))
    | true, .error e => (s.release k, .ended (.error e))
    | false, _ => (s.release k, .ended (.error .db))
  | .expire order =>
    if a.ok then
      ({ s.release k with db := { s.db with
          subscriptionOrders := s.db.subscriptionOrders.save
            { order with status := .expired, completeTime := a.now } } }, .ended (.ok ()))
    else (s.release k, .ended (.error .db))
  | .ended result => (s, .ended result)

/-- The calls; an event is that an order is placed. -/
def purchaseProgram : Program PurchaseStore Purchase SubscriptionOrder PurchaseCall PurchaseAnswer where
  event s order :=
    { s with db := { s.db with
      subscriptionOrders := s.db.subscriptionOrders.insert { order with status := .pending } } }
  start s call := (s, call.begin)
  next k a s t := t.next cfg catalogue k a s

/-! ### What a purchase writes -/

/-- How many subscriptions to the plan the user has. -/
def DB.purchaseCount (db : DB) (userId planId : Int) : Nat :=
  (db.userSubscriptions.rows.filter fun s => s.userId = userId ∧ s.planId = planId).length

/-- The status of an order, if there is one. -/
def DB.orderStatus (db : DB) (tradeNo : String) : Option TopUpStatus :=
  (db.subscriptionOrders.find? tradeNo).map (·.status)

/-- Subscriptions and orders. -/
def DB.sales (db : DB) : Table UserSubscription.id × Table SubscriptionOrder.tradeNo :=
  (db.userSubscriptions, db.subscriptionOrders)

section Kept

theorem keepsSales_upgradeUserGroup (env : CreateEnv) (userId : Int) (upgradeGroup : String) :
    Tx.Keeps DB.sales (upgradeUserGroup env userId upgradeGroup) := by
  refine (keeps_pure _).ite (Tx.Keeps.bind ?_ fun currentGroup => ?_)
  · exact (keeps_require _ _).bind fun _ => (keeps_require _ _).bind fun _ => keeps_read _
  · refine (keeps_pure _).ite ((keeps_require _ _).bind fun _ => ?_)
    exact Tx.Keeps.bind (keeps_update fun _ => rfl) fun _ => keeps_pure _

theorem keepsSales_bindSubscriptionDiscountTx (env : CreateEnv) (userId : Int)
    (plan : SubscriptionPlan) : Tx.Keeps DB.sales (bindSubscriptionDiscountTx env userId plan) :=
  (keeps_pure _).ite ((keeps_fetch _ _).bind fun _ => keeps_update fun _ => rfl)

theorem keepsSales_upsertSubscriptionTopUpTx (a : PurchaseAnswer) :
    Tx.Keeps DB.sales (upsertSubscriptionTopUpTx a order) := by
  refine (keeps_require _ _).bind fun _ => (keeps_read _).bind fun found => ?_
  cases found with
  | none =>
    dsimp only
    split
    · exact keeps_update fun _ => rfl
    · intro s x s' h
      exact absurd h not_ok_fail
  | some => exact (keeps_require _ _).bind fun _ => keeps_update fun _ => rfl

end Kept

variable {cfg : WalletConfig} {catalogue : Table SubscriptionPlan.id}
variable {a : PurchaseAnswer} {plan : SubscriptionPlan} {db db' : DB} {requiredQuota : Int}

theorem ok_purchaseAllowed
    (h : purchaseAllowed env userId plan db = .ok x) (hmax : 0 < plan.maxPurchasePerUser) :
    (db.purchaseCount userId plan.id : Int) < plan.maxPurchasePerUser := by
  obtain ⟨x, db'⟩ := x
  simp only [purchaseAllowed, checkPurchaseLimit, if_pos hmax, ok_require_bind_iff,
    ok_read_bind_iff, ok_require_iff] at h
  exact h.2.2.2.1

theorem ok_insertFromPlan {cal : Calendar} {source : String}
    {sub : UserSubscription} (h : insertFromPlan cal env userId plan source db = .ok (sub, db')) :
    db'.userSubscriptions.rows = db.userSubscriptions.rows ++ [sub] ∧ sub.id = env.newId ∧
      sub.userId = userId ∧ sub.planId = plan.id ∧ db'.subscriptionOrders = db.subscriptionOrders := by
  simp only [insertFromPlan, ok_lift_bind_iff] at h
  obtain ⟨endUnix, -, h⟩ := h
  obtain ⟨prevGroup, db₁, hgroup, h⟩ := ok_bind_iff.mp h
  simp only [ok_read_bind_iff, ok_require_bind_iff, ok_update_bind_iff] at h
  obtain ⟨⟨-, htaken⟩, h⟩ := h
  obtain ⟨u, db₂, hbind, hpure⟩ := ok_bind_iff.mp h
  obtain ⟨rfl, rfl⟩ := ok_pure_iff.mp hpure
  have hsales := keepsSales_upgradeUserGroup _ _ _ _ _ _ hgroup
  have hsales' := keepsSales_bindSubscriptionDiscountTx _ _ _ _ _ _ hbind
  have hfree : db₁.userSubscriptions.find? env.newId = none := by
    simpa using htaken
  refine ⟨?_, rfl, rfl, rfl, ?_⟩
  · show db'.sales.1.rows = db.sales.1.rows ++ _
    rw [hsales', ← hsales]
    exact Table.rows_insert hfree
  · show db'.sales.2 = db.sales.2
    rw [hsales', ← hsales]
    rfl

/-- The order of a purchase is still as it was locked. -/
def PurchaseOrigin.Held (db : DB) : PurchaseOrigin → Prop
  | .order o _ _ => db.subscriptionOrders.find? o.tradeNo = some o ∧ o.status = .pending
  | _ => True

/-- The purchase completes the order. -/
def PurchaseOrigin.Completes (t : String) : PurchaseOrigin → Prop
  | .order o _ _ => t = o.tradeNo
  | _ => False

/-- What a purchase that commits has written. -/
structure Sold (a : PurchaseAnswer) (plan : SubscriptionPlan) (origin : PurchaseOrigin)
    (db db' : DB) : Prop where
  rows : ∃ sub, db'.userSubscriptions.rows = db.userSubscriptions.rows ++ [sub] ∧
    sub.id = a.create.newId ∧ sub.userId = origin.userId ∧ sub.planId = plan.id
  others : ∀ t ∉ origin.tradeNo a,
    db'.subscriptionOrders.find? t = db.subscriptionOrders.find? t
  own : ∀ t ∈ origin.tradeNo a, db.orderStatus t ≠ some .success ∧ db'.orderStatus t = some .success
  fresh : ∀ t ∈ origin.tradeNo a, origin.Completes t ∨ db.subscriptionOrders.find? t = none

theorem ok_finishTx (hheld : origin.Held db)
    (h : origin.finishTx cfg a plan requiredQuota db = .ok x) : Sold a plan origin db x.2 := by
  obtain ⟨x, db'⟩ := x
  cases origin with
  | order =>
    obtain ⟨hfind, hpending⟩ := hheld
    obtain ⟨sub, db₁, hinsert, h⟩ := ok_bind_iff.mp h
    obtain ⟨u, db₂, hupsert, h⟩ := ok_bind_iff.mp h
    simp only [ok_require_bind_iff, ok_update_iff] at h
    obtain ⟨-, rfl⟩ := h
    obtain ⟨hrows, hid, huser, hplan, horders⟩ := ok_insertFromPlan hinsert
    have hsales := keepsSales_upsertSubscriptionTopUpTx _ _ _ _ _ hupsert
    have horders₂ : db₂.subscriptionOrders = db.subscriptionOrders :=
      (congrArg Prod.snd hsales).trans horders
    refine ⟨⟨sub, ?_, hid, huser, hplan⟩, fun t ht => ?_, fun t ht => ?_,
      fun t ht => .inl (mem_singleton.mp ht)⟩
    · exact (congrArg (fun x => x.1.rows) hsales).trans hrows
    · show (db₂.subscriptionOrders.save _).find? t = _
      rw [Table.find?_save, horders₂]
      exact if_neg fun heq => ht (mem_singleton.mpr heq)
    · obtain rfl := mem_singleton.mp ht
      refine ⟨?_, ?_⟩
      · rw [DB.orderStatus, hfind, Option.map_some, hpending]
        decide
      · show ((db₂.subscriptionOrders.save _).find? _).map _ = _
        rw [Table.find?_save, horders₂, hfind]
        exact congrArg _ (if_pos rfl)
  | admin =>
    obtain ⟨sub, db₁, hinsert, h⟩ := ok_bind_iff.mp h
    obtain ⟨-, rfl⟩ := ok_pure_iff.mp h
    obtain ⟨hrows, hid, huser, hplan, horders⟩ := ok_insertFromPlan hinsert
    refine ⟨⟨sub, hrows, hid, huser, hplan⟩, fun t _ => ?_,
      fun t ht => absurd ht not_mem_nil, fun t ht => absurd ht not_mem_nil⟩
    rw [horders]
  | balance =>
    obtain ⟨u, db₀, hcharge, h⟩ := ok_bind_iff.mp h
    obtain ⟨sub, db₁, hinsert, h⟩ := ok_bind_iff.mp h
    simp only [ok_read_bind_iff, ok_require_bind_iff, ok_update_iff] at h
    obtain ⟨⟨-, htaken⟩, rfl⟩ := h
    obtain ⟨hrows, hid, huser, hplan, horders⟩ := ok_insertFromPlan hinsert
    have hsales : db₀.sales = db.sales := by
      refine Tx.Keeps.ite ?_ (keeps_pure _) db u db₀ hcharge
      exact (keeps_require _ _).bind fun _ => keeps_update fun _ => rfl
    have horders₁ : db₁.subscriptionOrders = db.subscriptionOrders :=
      horders.trans (congrArg Prod.snd hsales)
    have hfree : db₁.subscriptionOrders.find? a.tradeNo = none := by
      simpa using htaken
    refine ⟨⟨sub, ?_, hid, huser, hplan⟩, fun t ht => ?_, fun t ht => ?_, fun t ht => .inr ?_⟩
    · exact hrows.trans (congrArg (fun x => x.1.rows ++ [sub]) hsales)
    · show (db₁.subscriptionOrders.insert _).find? t = _
      rw [Table.find?_insert hfree, horders₁]
      exact if_neg fun heq => ht (mem_singleton.mpr heq)
    · obtain rfl := mem_singleton.mp ht
      refine ⟨?_, ?_⟩
      · rw [DB.orderStatus, ← horders₁, hfree]
        decide
      · show ((db₁.subscriptionOrders.insert _).find? _).map _ = _
        rw [Table.find?_insert hfree, if_pos rfl]
        rfl
    · rw [mem_singleton.mp ht, ← horders₁]
      exact hfree

theorem Sold.purchaseCount (h : Sold a plan origin db db') (userId planId : Int) :
    db'.purchaseCount userId planId = db.purchaseCount userId planId +
      if origin.userId = userId ∧ plan.id = planId then 1 else 0 := by
  obtain ⟨sub, hrows, -, huser, hplan⟩ := h.rows
  rw [DB.purchaseCount, DB.purchaseCount, hrows, filter_append, filter_singleton, huser, hplan]
  by_cases hsame : origin.userId = userId ∧ plan.id = planId <;> simp [hsame]

/-! ### What a call holds -/

variable {s s' : PurchaseStore} {t t' : Purchase} {j k : Nat} {planId m : Int} {db₀ : DB}

/-- The call has locked the order, which is pending. -/
def SubscriptionOrder.LockedBy (o : SubscriptionOrder) (s : PurchaseStore) (j : Nat) : Prop :=
  s.locks (.order o.tradeNo) = some j ∧ s.db.subscriptionOrders.find? o.tradeNo = some o ∧
    o.status = .pending

def PurchaseOrigin.LockedBy (s : PurchaseStore) (j : Nat) : PurchaseOrigin → Prop
  | .order o _ _ => o.LockedBy s j
  | _ => True

/-- What call `j` has locked, and what it knows of the plan `planId` with limit
`m`. -/
def Purchase.Ok (planId m : Int) (s : PurchaseStore) (j : Nat) : Purchase → Prop
  | .findPlan origin => origin.LockedBy s j
  | .lockUser origin plan _ =>
    origin.LockedBy s j ∧ (plan.id = planId → plan.maxPurchasePerUser = m)
  | .count origin plan _ =>
    origin.LockedBy s j ∧ s.locks (.user origin.userId) = some j ∧
      (plan.id = planId → plan.maxPurchasePerUser = m)
  | .commit origin plan _ =>
    origin.LockedBy s j ∧ s.locks (.user origin.userId) = some j ∧
      (plan.id = planId → (s.db.purchaseCount origin.userId planId : Int) < m)
  | .expire o => o.LockedBy s j
  | _ => True

/-- The limit holds, and the orders that have become successful since `db₀` are
the ones that have created a subscription, each of them one. -/
structure Sales (planId m : Int) (db₀ : DB) (s : PurchaseStore) : Prop where
  limit : ∀ u, (s.db.purchaseCount u planId : Int) ≤ m
  kept : ∀ t, db₀.orderStatus t = some .success → s.db.orderStatus t = some .success
  created : ∀ t, (s.created.map Prod.fst).count t =
    if s.db.orderStatus t = some .success ∧ db₀.orderStatus t ≠ some .success then 1 else 0
  rows : ∀ e ∈ s.created, ∃ x ∈ s.db.userSubscriptions.rows, x.id = e.2

/-- What a step leaves to the calls other than `k`: their locks, and the rows they
have locked. -/
structure Yields (planId : Int) (k : Option Nat) (s s' : PurchaseStore) : Prop where
  locks : ∀ j y, some j ≠ k → s.locks y = some j → s'.locks y = some j
  orders : ∀ j t o, some j ≠ k → s.locks (.order t) = some j →
    s.db.subscriptionOrders.find? t = some o → s'.db.subscriptionOrders.find? t = some o
  counts : ∀ j u, some j ≠ k → s.locks (.user u) = some j →
    s'.db.purchaseCount u planId = s.db.purchaseCount u planId

variable {l : Option Nat}

theorem Yields.of_db (hlocks : ∀ j y, some j ≠ l → s.locks y = some j → s'.locks y = some j)
    (hdb : s'.db = s.db) : Yields planId l s s' where
  locks := hlocks
  orders j t o _ _ h := by rw [hdb]; exact h
  counts j u _ _ := by rw [hdb]

variable {o : SubscriptionOrder}

theorem SubscriptionOrder.LockedBy.yields (h : o.LockedBy s j)
    (hy : Yields planId l s s') (hj : some j ≠ l) : o.LockedBy s' j :=
  ⟨hy.locks j _ hj h.1, hy.orders j _ o hj h.1 h.2.1, h.2.2⟩

theorem PurchaseOrigin.LockedBy.yields (h : origin.LockedBy s j)
    (hy : Yields planId l s s') (hj : some j ≠ l) : origin.LockedBy s' j := by
  cases origin with
  | order => exact SubscriptionOrder.LockedBy.yields h hy hj
  | _ => trivial

theorem Purchase.Ok.yields (h : t.Ok planId m s j) (hy : Yields planId l s s')
    (hj : some j ≠ l) : t.Ok planId m s' j := by
  cases t with
  | findPlan => exact PurchaseOrigin.LockedBy.yields h hy hj
  | lockUser => exact ⟨h.1.yields hy hj, h.2⟩
  | count =>
    exact ⟨h.1.yields hy hj, hy.locks j _ hj h.2.1, h.2.2⟩
  | commit =>
    refine ⟨h.1.yields hy hj, hy.locks j _ hj h.2.1, ?_⟩
    rw [hy.counts j _ hj h.2.1]
    exact h.2.2
  | expire => exact SubscriptionOrder.LockedBy.yields h hy hj
  | _ => trivial

theorem yields_release (s : PurchaseStore) (k : Nat) : Yields planId (some k) s (s.release k) := by
  refine .of_db (fun j y hj h => ?_) rfl
  exact Locks.release_other (fun heq => hj (congrArg some heq)) h

theorem yields_take {x : PurchaseKey} (hx : s.locks.CanTake x k) :
    Yields planId (some k) s { s with locks := s.locks.take x k } := by
  refine .of_db (fun j y hj h => ?_) rfl
  exact Locks.take_other hx (fun heq => hj (congrArg some heq)) h

/-- Writes that make no order successful. -/
theorem Sales.of_status (h : Sales planId m db₀ s) (hsubs : s'.db.userSubscriptions = s.db.userSubscriptions)
    (hstatus : ∀ t, s'.db.orderStatus t = some .success ↔ s.db.orderStatus t = some .success)
    (hcreated : s'.created = s.created) : Sales planId m db₀ s' := by
  refine ⟨fun u => ?_, fun t ht => (hstatus t).mpr (h.kept t ht), fun t => ?_, fun e he => ?_⟩
  · rw [DB.purchaseCount, hsubs]
    exact h.limit u
  · simp only [hstatus, hcreated]
    exact h.created t
  · rw [hsubs]
    exact h.rows e (hcreated ▸ he)

theorem Sales.congr (h : Sales planId m db₀ s) (hdb : s'.db = s.db) (hcreated : s'.created = s.created) :
    Sales planId m db₀ s' :=
  h.of_status (by rw [hdb]) (fun t => by rw [hdb]) hcreated

/-! ### One step of a call -/

theorem PurchaseOrigin.nodup_tradeNo (a : PurchaseAnswer) (origin : PurchaseOrigin) :
    (origin.tradeNo a).Nodup := by
  cases origin with
  | admin => exact nodup_nil
  | _ => exact nodup_singleton _

theorem PurchaseOrigin.LockedBy.take (h : origin.LockedBy s k) (x : PurchaseKey) :
    origin.LockedBy { s with locks := s.locks.take x k } k := by
  cases origin with
  | order => exact ⟨Locks.take_mono h.1, h.2⟩
  | _ => trivial

theorem PurchaseOrigin.LockedBy.held (h : origin.LockedBy s j) : origin.Held s.db := by
  cases origin with
  | order => exact h.2
  | _ => trivial

theorem sales_commit (hsales : Sales planId m db₀ s)
    (hroom : plan.id = planId → (s.db.purchaseCount origin.userId planId : Int) < m)
    (hsold : Sold a plan origin s.db db') (k : Nat) : Sales planId m db₀ { s.release k with
      db := db', created := s.created ++ (origin.tradeNo a).map fun t => (t, a.create.newId) } := by
  refine ⟨fun u => ?_, fun t ht => ?_, fun t => ?_, fun e he => ?_⟩
  · have hlimit := hsales.limit u
    show ((db'.purchaseCount u planId : Nat) : Int) ≤ m
    rw [hsold.purchaseCount]
    split
    next hsame =>
      obtain ⟨rfl, hplan⟩ := hsame
      omega
    · exact hlimit
  · by_cases hown : t ∈ origin.tradeNo a
    · exact (hsold.own t hown).2
    show (db'.subscriptionOrders.find? t).map _ = _
    rw [hsold.others t hown]
    exact hsales.kept t ht
  · have hbefore := hsales.created t
    show List.count t (List.map Prod.fst (s.created ++ _)) = if db'.orderStatus t = _ ∧ _ then 1 else 0
    rw [map_append, count_append, map_map, hbefore]
    have hmap : List.map (Prod.fst ∘ fun t => (t, a.create.newId)) (origin.tradeNo a) = origin.tradeNo a :=
      map_id _
    rw [hmap, (origin.nodup_tradeNo a).count]
    by_cases hown : t ∈ origin.tradeNo a
    · -- the order was not successful before, and so not at the start
      obtain ⟨hbefore', hafter⟩ := hsold.own t hown
      have hstart : db₀.orderStatus t ≠ some .success := fun h => hbefore' (hsales.kept t h)
      simp [hown, hbefore', hafter, hstart]
    · have hsame : db'.orderStatus t = s.db.orderStatus t :=
        congrArg (Option.map _) (hsold.others t hown)
      simp [hown, hsame]
  · obtain ⟨sub, hrows, hid, -⟩ := hsold.rows
    show ∃ x ∈ db'.userSubscriptions.rows, x.id = e.2
    rw [hrows]
    rcases mem_append.mp he with he | he
    · obtain ⟨x, hx, hxe⟩ := hsales.rows e he
      exact ⟨x, mem_append_left _ hx, hxe⟩
    · obtain ⟨t, -, rfl⟩ := mem_map.mp he
      exact ⟨sub, mem_append_right _ (mem_singleton.mpr rfl), hid⟩

theorem yields_commit (horder : origin.LockedBy s k) (huser : s.locks (.user origin.userId) = some k)
    (hsold : Sold a plan origin s.db db') (created : List (String × Int)) :
    Yields planId (some k) s { s.release k with db := db', created := created } := by
  have hrelease : Yields planId (some k) s (s.release k) := yields_release s k
  refine ⟨hrelease.locks, fun j t o hj hlock hfind => ?_, fun j u hj hlock => ?_⟩
  · show db'.subscriptionOrders.find? t = some o
    by_cases hown : t ∈ origin.tradeNo a
    · rcases hsold.fresh t hown with hcompletes | hnone
      · -- its own order is locked by itself
        cases origin with
        | order =>
          obtain rfl := hcompletes
          exact absurd (hlock.symm.trans horder.1) hj
        | admin | balance => exact hcompletes.elim
      · rw [hnone] at hfind
        cases hfind
    · rw [hsold.others t hown]
      exact hfind
  · show db'.purchaseCount u planId = _
    rw [hsold.purchaseCount, if_neg, Nat.add_zero]
    rintro ⟨rfl, -⟩
    exact hj (hlock.symm.trans huser)

theorem orderStatus_save {o' : SubscriptionOrder}
    (hfind : db.subscriptionOrders.find? o.tradeNo = some o) (hpending : o.status = .pending)
    (hkey : o'.tradeNo = o.tradeNo) (hstatus : o'.status ≠ .success) (t : String) :
    ({ db with subscriptionOrders := db.subscriptionOrders.save o' } : DB).orderStatus t = some .success ↔
      db.orderStatus t = some .success := by
  show ((db.subscriptionOrders.save o').find? t).map _ = _ ↔ _
  rw [Table.find?_save, hkey]
  by_cases ht : t = o.tradeNo
  · subst ht
    simp [DB.orderStatus, hfind, hpending, hstatus]
  · rw [if_neg ht]
    rfl

theorem orderStatus_insert (hstatus : o.status ≠ .success) (t : String) :
    ({ db with subscriptionOrders := db.subscriptionOrders.insert o } : DB).orderStatus t = some .success ↔
      db.orderStatus t = some .success := by
  show ((db.subscriptionOrders.insert o).find? t).map _ = _ ↔ _
  rcases hfind : db.subscriptionOrders.find? o.tradeNo with - | x
  · rw [Table.find?_insert hfind]
    by_cases ht : t = o.tradeNo
    · subst ht
      simp [DB.orderStatus, hfind, hstatus]
    · rw [if_neg ht]
      rfl
  · rw [Table.insert_of_find?_some hfind]
    rfl

theorem find?_insert_of_some {x : SubscriptionOrder} {t : String}
    (h : db.subscriptionOrders.find? t = some x) : (db.subscriptionOrders.insert o).find? t = some x := by
  rcases hfind : db.subscriptionOrders.find? o.tradeNo with - | y
  · rw [Table.find?_insert hfind, if_neg, h]
    rintro rfl
    rw [h] at hfind
    cases hfind
  · rw [Table.insert_of_find?_some hfind]
    exact h

theorem lookupPlan_ok {ok : Bool} {id : Int} (h : lookupPlan catalogue ok id = .ok plan) :
    ∃ y, catalogue.find? y.id = some y ∧ plan.id = y.id ∧ plan.maxPurchasePerUser = y.maxPurchasePerUser := by
  dsimp only [lookupPlan, getSubscriptionPlanByIdTx] at h
  split_ifs at h with hid hok
  · rcases hfind : catalogue.find? id with - | y
    · rw [hfind] at h
      cases h
    rw [hfind] at h
    cases h
    refine ⟨y, ?_, rfl, rfl⟩
    rw [Table.key_of_find? hfind]
    exact hfind
  · cases h

theorem SubscriptionOrder.locked_cases (expected : PaymentProvider) (complete : Option (String × String)) :
    (∃ result, order.locked expected complete = .ended result) ∨
      order.status = .pending ∧ ((∃ x y, order.locked expected complete = .findPlan (.order order x y)) ∨
        order.locked expected complete = .expire order) := by
  rcases complete with - | ⟨x, y⟩
  · dsimp only [SubscriptionOrder.locked]
    split
    · exact .inl ⟨_, rfl⟩
    split
    · exact .inl ⟨_, rfl⟩
    next hpending =>
      exact .inr ⟨not_not.mp hpending, .inr rfl⟩
  · dsimp only [SubscriptionOrder.locked]
    split
    · exact .inl ⟨_, rfl⟩
    split
    · exact .inl ⟨_, rfl⟩
    split
    · exact .inl ⟨_, rfl⟩
    next hpending =>
      exact .inr ⟨not_not.mp hpending, .inl ⟨x, y, rfl⟩⟩

/-- What a step of call `k` establishes. -/
structure PurchaseStep (planId m : Int) (db₀ : DB) (k : Nat) (s s' : PurchaseStore) (t' : Purchase) :
    Prop where
  sales : Sales planId m db₀ s'
  ok : t'.Ok planId m s' k
  yields : Yields planId (some k) s s'

theorem purchaseStep_stay (hsales : Sales planId m db₀ s) (hok : t'.Ok planId m s k) :
    PurchaseStep planId m db₀ k s s t' :=
  ⟨hsales, hok, .of_db (fun _ _ _ h => h) rfl⟩

theorem purchaseStep_release (hsales : Sales planId m db₀ s) (result : Except Err Unit) :
    PurchaseStep planId m db₀ k s (s.release k) (.ended result) :=
  ⟨hsales.congr rfl rfl, trivial, yields_release s k⟩

theorem Purchase.next_step (hplan : ∀ y, catalogue.find? y.id = some y → y.id = planId →
      y.maxPurchasePerUser = m) (hm : 0 < m) (hsales : Sales planId m db₀ s) (hok : t.Ok planId m s k) :
    PurchaseStep planId m db₀ k s (t.next cfg catalogue k a s).1 (t.next cfg catalogue k a s).2 := by
  cases t with
  | lockOrder tradeNo expected complete =>
    dsimp only [Purchase.next]
    split
    next hcan =>
      split
      next order _ hfind =>
        have hy : Yields planId (some k) s { s with locks := s.locks.take (.order tradeNo) k } :=
          yields_take hcan
        have hlock : order.status = .pending →
            order.LockedBy { s with locks := s.locks.take (.order tradeNo) k } k := by
          intro hpending
          obtain rfl := Table.key_of_find? hfind
          exact ⟨Locks.take_self _ _ _, hfind, hpending⟩
        rcases order.locked_cases expected complete with ⟨result, h⟩ | ⟨hpending, ⟨x, y, h⟩ | h⟩
        · rw [h]
          exact purchaseStep_stay hsales trivial
        · rw [h]
          exact ⟨hsales.congr rfl rfl, hlock hpending, hy⟩
        · rw [h]
          exact ⟨hsales.congr rfl rfl, hlock hpending, hy⟩
      · exact purchaseStep_stay hsales trivial
    · exact purchaseStep_stay hsales trivial
  | findPlan =>
    dsimp only [Purchase.next]
    split
    · exact purchaseStep_release hsales _
    rename_i plan hfind
    split
    · exact purchaseStep_release hsales _
    obtain ⟨y, hy, hid, hmax⟩ := lookupPlan_ok hfind
    refine purchaseStep_stay hsales ⟨hok, fun hplanId => ?_⟩
    exact hmax.trans (hplan y hy (hid.symm.trans hplanId))
  | lockUser origin =>
    obtain ⟨horder, hmax⟩ := hok
    dsimp only [Purchase.next]
    split
    next hcan =>
      split
      · split
        · exact purchaseStep_release hsales _
        have hy : Yields planId (some k) s { s with locks := s.locks.take (.user origin.userId) k } :=
          yields_take hcan
        exact ⟨hsales.congr rfl rfl, ⟨horder.take _, Locks.take_self _ _ _, hmax⟩, hy⟩
      · exact purchaseStep_release hsales _
    · exact purchaseStep_stay hsales ⟨horder, hmax⟩
  | count =>
    obtain ⟨horder, huser, hmax⟩ := hok
    dsimp only [Purchase.next]
    split
    · exact purchaseStep_release hsales _
    rename_i hallowed
    refine purchaseStep_stay hsales ⟨horder, huser, fun hplanId => ?_⟩
    have hlt := ok_purchaseAllowed hallowed (by rw [hmax hplanId]; exact hm)
    rwa [hmax hplanId, hplanId] at hlt
  | commit =>
    obtain ⟨horder, huser, hroom⟩ := hok
    dsimp only [Purchase.next]
    split
    next hfinish =>
      have hsold := ok_finishTx horder.held hfinish
      exact ⟨sales_commit hsales hroom hsold k, trivial, yields_commit horder huser hsold _⟩
    · exact purchaseStep_release hsales _
    · exact purchaseStep_release hsales _
  | expire order =>
    obtain ⟨hlock, hfind, hpending⟩ := hok
    dsimp only [Purchase.next]
    split
    · have hexpired : TopUpStatus.expired ≠ .success := by decide
      refine ⟨hsales.of_status rfl ?_ rfl, trivial, ?_⟩
      · exact orderStatus_save hfind hpending rfl hexpired
      · have hrelease : Yields planId (some k) s (s.release k) := yields_release s k
        refine ⟨hrelease.locks, fun j t o hj hl hf => ?_, fun _ _ _ _ => rfl⟩
        show (s.db.subscriptionOrders.save _).find? t = some o
        rw [Table.find?_save, hf]
        refine if_neg fun heq => ?_
        obtain rfl : t = order.tradeNo := heq
        exact hj (hl.symm.trans hlock)
    · exact purchaseStep_release hsales _
  | ended => exact purchaseStep_stay hsales trivial

/-! ### Runs -/

theorem PurchaseCall.begin_ok (call : PurchaseCall) (s : PurchaseStore) (j : Nat) :
    call.begin.Ok planId m s j := by
  cases call <;> dsimp only [PurchaseCall.begin] <;> split <;> trivial

theorem purchases_hold {ops : List (Op SubscriptionOrder PurchaseCall PurchaseAnswer)}
    (hplan : ∀ y, catalogue.find? y.id = some y → y.id = planId → y.maxPurchasePerUser = m)
    (hm : 0 < m) (hlimit : ∀ u, (db.purchaseCount u planId : Int) ≤ m) :
    Holds (Sales planId m db) (fun s j t => t.Ok planId m s j)
      (exec (purchaseProgram cfg catalogue).step { shared := { db } } ops) := by
  refine exec_inv (fun p op hp => ?_) ?_ ops
  · cases op with
    | event =>
      refine hp.event ?_ fun j t ht =>
        ht.yields ⟨fun _ _ _ h => h, fun _ _ _ _ _ h => find?_insert_of_some h, fun _ _ _ _ => rfl⟩
          (Option.some_ne_none j)
      exact hp.shared.of_status rfl (orderStatus_insert nofun) rfl
    | start call =>
      exact hp.start hp.shared (fun _ _ ht => ht) (call.begin_ok _ _)
    | go k a =>
      refine hp.go fun t ht => ?_
      have hstep : PurchaseStep planId m db k p.shared (t.next cfg catalogue k a p.shared).1
          (t.next cfg catalogue k a p.shared).2 :=
        Purchase.next_step hplan hm hp.shared (hp.thread k t ht)
      obtain ⟨hsales, hok, hyields⟩ := hstep
      refine ⟨hsales, hok, fun j u hj hu => hu.yields hyields ?_⟩
      exact fun heq => hj (Option.some.inj heq)
  · refine ⟨⟨hlimit, fun _ h => h, fun t => ?_, nofun⟩, by simp⟩
    exact (if_neg fun h => h.2 h.1).symm

/-- A plan that may be bought once, and a user with two pending orders. -/
def oncePlan : SubscriptionPlan := { id := 1, maxPurchasePerUser := 1 }

def onceCatalogue : Table SubscriptionPlan.id := ⟨[oncePlan], nodup_singleton _⟩

def onceOrder (tradeNo : String) : SubscriptionOrder where
  tradeNo := tradeNo
  userId := 7
  planId := 1
  money := 10
  paymentMethod := "alipay"
  paymentProvider := .epay
  status := .pending
  createTime := 0
  completeTime := 0
  providerPayload := ""

def twoOrders : DB where
  users := ⟨[{ id := 7 }], nodup_singleton _⟩
  subscriptionOrders := ⟨[onceOrder "A", onceOrder "B"], by decide⟩

def onceConfig : WalletConfig where
  newFromString _ := none
  calendar := utcDays

/-- Both orders are completed at once: the second call waits for the user's row
while the first one buys, and is refused. -/
def bothComplete : List (Op SubscriptionOrder PurchaseCall PurchaseAnswer) :=
  [.start (.completeSubscriptionOrder "A" "" .epay ""), .start (.completeSubscriptionOrder "B" "" .epay ""),
    .go 0 {}, .go 1 {}, .go 0 {}, .go 1 {}, .go 0 {}, .go 1 {}, .go 0 {}, .go 1 {}, .go 0 {},
    .go 1 {}, .go 1 {}]

end MicrossApi
