/-
MicrossApi/DiscountBinding.lean

Who is priced by which discount plan (model/discount.go,
model/discount_binding_limit.go, model/subscription_discount.go,
model/agent_customer.go, model/customer_code_check.go, model/agent_code.go).
A row of `discount_bindings` says which plan a user has, from when to when and
who arranged it; `users.discount_plan_id` is a copy of the binding in force,
recomputed by `syncUserDiscountPlanId` at the end of every write.

The bindings and the customer codes stand next to the shared store, which
shows only the copy.  What the database answers to the statements of one
operation is in its environment; a refused statement rolls the whole
operation back.
-/
import MicrossApi.Subscription

namespace MicrossApi

open Tx hiding read

/-! ### Rows -/

/-- `DiscountSubject…`. -/
inductive DiscountSubject where
  | user
  | agent
deriving DecidableEq, Repr

/-- `DiscountSource…`; any other text ranks last. -/
inductive DiscountSource where
  | manual
  | agent
  | subscription
  | customerCode
  | migration
  | other (source : String)
deriving DecidableEq, Repr

/-- A row of `discount_bindings`; `enabled` is its status column. -/
structure DiscountBinding where
  id : Int
  subjectType : DiscountSubject := .user
  subjectId : Int
  planId : Int
  effectiveFrom : Int := 0
  effectiveTo : Int := 0
  source : DiscountSource := .manual
  enabled : Bool := true
deriving DecidableEq, Repr

/-- A row of `customer_codes`. -/
structure CustomerCode where
  id : Int
  code : String
  agentId : Int
  planId : Int := 0
  maxUses : Int := 1
  usedCount : Int := 0
  boundUserId : Int := 0
  expiredAt : Int := 0
  enabled : Bool := true
deriving DecidableEq, Repr

/-- The shared store with the two tables that bind plans to users. -/
structure BindingDB where
  db : DB := {}
  discountBindings : Table DiscountBinding.id := Table.empty
  customerCodes : Table CustomerCode.id := Table.empty

/-- A statement on the shared store. -/
def onDB {α : Type} (x : Tx DB Err α) : Tx BindingDB Err α :=
  zoom BindingDB.db (fun s db => { s with db := db }) x

/-! ### The binding in force -/

/-- The window of `b` contains `now`; an end of 0 means without end. -/
def DiscountBinding.InWindow (b : DiscountBinding) (now : Int) : Prop :=
  b.effectiveFrom ≤ now ∧ ¬ (0 < b.effectiveTo ∧ b.effectiveTo ≤ now)
deriving Decidable

/-- `discountSourceRank`: the smaller rank wins. -/
def discountSourceRank : DiscountSource → Int
  | .manual => 0
  | .agent => 1
  | .subscription => 2
  | .customerCode => 3
  | .migration => 4
  | .other _ => 5

/-- The loop body of `pickActiveDiscountBinding`. -/
def pickBinding (now : Int) (picked : Option DiscountBinding) (candidate : DiscountBinding) :
    Option DiscountBinding :=
  if candidate.enabled = false ∨ ¬ candidate.InWindow now then picked
  else
    match picked with
    | none => some candidate
    | some p =>
      let candidateRank := discountSourceRank candidate.source
      let pickedRank := discountSourceRank p.source
      if candidateRank < pickedRank ∨ (candidateRank = pickedRank ∧ p.id < candidate.id) then
        some candidate
      else some p

/-- `pickActiveDiscountBinding`. -/
def pickActiveDiscountBinding (bindings : List DiscountBinding) (now : Int) : Option DiscountBinding :=
  bindings.foldl (pickBinding now) none

variable (s : BindingDB) {x : Unit}

/-- The enabled bindings of a user, whatever the subject type. -/
def BindingDB.enabledBindings (userId : Int) : List DiscountBinding :=
  s.discountBindings.rows.filter fun b => b.subjectId = userId ∧ b.enabled = true

variable (userId now : Int)

/-- What `users.discount_plan_id` should hold at `now`; 0 is no plan. -/
def BindingDB.activePlanId : Int :=
  ((pickActiveDiscountBinding (s.enabledBindings userId) now).map (·.planId)).getD 0

/-- What the database answers to one operation on the bindings. -/
structure BindEnv where
  newId : Int
  queryOk : Bool := true
  createOk : Bool := true
  updateOk : Bool := true
  syncOk : Bool := true
deriving DecidableEq, Repr

/-- `syncUserDiscountPlanId`. -/
def syncUserDiscountPlanId (syncOk : Bool) (now userId : Int) : Tx BindingDB Err Unit :=
  if userId ≤ 0 then pure ()
  else do
    require (syncOk = true) .db
    let planId ← Tx.read fun s : BindingDB => s.activePlanId userId now
    onDB (update fun db : DB =>
      db.updateUser userId (fun u => { u with discountPlanId := planId })
        (User.id_withDiscountPlan planId))

/-- `tx.Create(binding)`: refused when the id is taken. -/
def createBinding (createOk : Bool) (b : DiscountBinding) : Tx BindingDB Err Unit := do
  let taken ← Tx.read fun s : BindingDB => (s.discountBindings.find? b.id).isSome
  require (createOk = true ∧ taken = false) .db
  update fun s : BindingDB => { s with discountBindings := s.discountBindings.insert b }

/-- The store once `users.discount_plan_id` of a user is recomputed. -/
def BindingDB.synced : BindingDB :=
  if userId ≤ 0 then s
  else
    { s with
      db := s.db.updateUser userId
        (fun u => { u with discountPlanId := s.activePlanId userId now }) (fun _ => rfl) }

theorem ok_sync_iff {syncOk : Bool} {now userId : Int} {s s' : BindingDB} :
    syncUserDiscountPlanId syncOk now userId s = .ok (x, s') ↔
      (0 < userId → syncOk = true) ∧ s' = s.synced userId now := by
  unfold syncUserDiscountPlanId BindingDB.synced
  by_cases hu : userId ≤ 0
  · simp only [if_pos hu, ok_pure_iff, true_and]
    exact ⟨fun h => ⟨fun hpos => absurd hu (by omega), h⟩, fun h => h.2⟩
  simp only [if_neg hu, ok_require_bind_iff, ok_read_bind_iff, onDB, ok_zoom_iff, ok_update_iff]
  constructor
  · rintro ⟨hok, _, rfl, rfl⟩
    exact ⟨fun _ => hok, rfl⟩
  · rintro ⟨hok, rfl⟩
    exact ⟨hok (by omega), _, rfl, rfl⟩

@[simp] theorem discountBindings_synced : (s.synced userId now).discountBindings = s.discountBindings := by
  unfold BindingDB.synced
  split <;> rfl

@[simp] theorem userSubscriptions_synced :
    (s.synced userId now).db.userSubscriptions = s.db.userSubscriptions := by
  unfold BindingDB.synced
  split <;> rfl

theorem ok_createBinding_iff {createOk : Bool} {b : DiscountBinding} {s s' : BindingDB} :
    createBinding createOk b s = .ok (x, s') ↔ createOk = true ∧ s.discountBindings.find? b.id = none ∧
        s' = { s with discountBindings := s.discountBindings.insert b } := by
  simp only [createBinding, ok_read_bind_iff, ok_require_bind_iff, ok_update_iff,
    Option.isSome_eq_false_iff, Option.isNone_iff_eq_none, and_assoc]

/-! ### Binding and unbinding by an administrator -/

/-- `DiscountMaxPlansPerSubject`. -/
def discountMaxPlansPerSubject : Nat := 10

/-- `ensureDiscountBindingQuota`. -/
def ensureDiscountBindingQuota (queryOk : Bool) (subjectType : DiscountSubject)
    (subjectId : Int) : Tx BindingDB Err Unit := do
  require (queryOk = true) .db
  let bound ← Tx.read fun s : BindingDB =>
    ((s.enabledBindings subjectId).filter fun b => b.subjectType = subjectType).length
  require (bound < discountMaxPlansPerSubject)
    (.text s!"绑定的折扣方案已达上限：一个人最多同时挂 {discountMaxPlansPerSubject} 套，请先解绑不再用的")

theorem ok_ensureDiscountBindingQuota {queryOk : Bool} {subjectType : DiscountSubject}
    {subjectId : Int} {s s' : BindingDB}
    (h : ensureDiscountBindingQuota queryOk subjectType subjectId s = .ok (x, s')) : s' = s := by
  simp only [ensureDiscountBindingQuota, ok_require_bind_iff, ok_read_bind_iff, ok_require_iff] at h
  exact h.2.2

variable (env : BindEnv)

/-- `BindDiscountPlan`: the plan is not bound yet. -/
def planUnbound (queryOk : Bool) (binding : DiscountBinding) : Tx BindingDB Err Unit := do
  require (queryOk = true) .db
  let existed ← Tx.read fun s : BindingDB =>
    (s.enabledBindings binding.subjectId).any fun b =>
      b.subjectType = binding.subjectType ∧ b.planId = binding.planId
  require (existed = false) (.text "该主体已绑定此方案，请勿重复绑定")

/-- `BindDiscountPlan`: the writes. -/
def insertBinding (now : Int) (binding : DiscountBinding) : Tx BindingDB Err Unit := do
  createBinding env.createOk { binding with id := env.newId }
  syncUserDiscountPlanId env.syncOk now binding.subjectId

/-- `BindDiscountPlan`. -/
def bindDiscountPlan (now : Int) (binding : DiscountBinding) : Tx BindingDB Err Unit := do
  planUnbound env.queryOk binding
  ensureDiscountBindingQuota env.queryOk binding.subjectType binding.subjectId
  insertBinding env now binding

theorem ok_planUnbound {queryOk : Bool} {binding : DiscountBinding} {s s' : BindingDB}
    (h : planUnbound queryOk binding s = .ok (x, s')) : s' = s := by
  simp only [planUnbound, ok_require_bind_iff, ok_read_bind_iff, ok_require_iff] at h
  exact h.2.2

/-- A plan that is bound has been inserted. -/
theorem ok_bindDiscountPlan {env : BindEnv} {now : Int} {binding : DiscountBinding} {s s' : BindingDB}
    (h : bindDiscountPlan env now binding s = .ok (x, s')) : insertBinding env now binding s = .ok (x, s') := by
  obtain ⟨_, s₁, hunbound, hrest⟩ := ok_bind_iff.mp h
  obtain ⟨_, s₂, hquota, hinsert⟩ := ok_bind_iff.mp hrest
  obtain rfl := ok_planUnbound hunbound
  obtain rfl := ok_ensureDiscountBindingQuota hquota
  exact hinsert

/-- `UnbindDiscountPlan`. -/
def unbindDiscountPlan (now : Int) (id : Int) : Tx BindingDB Err Unit := do
  require (env.queryOk = true) .db
  let binding ← fetch (fun s : BindingDB => s.discountBindings.find? id) .recordNotFound
  require (env.updateOk = true) .db
  update fun s : BindingDB =>
    { s with
      discountBindings :=
        s.discountBindings.modify id (fun b => { b with enabled := false }) (fun _ => rfl) }
  syncUserDiscountPlanId env.syncOk now binding.subjectId

/-! ### Bindings that come with a subscription -/

/-- The binding a subscription brings. -/
def subscriptionBinding (newId userId : Int) (plan : SubscriptionPlan) (sub : UserSubscription) :
    DiscountBinding :=
  { id := newId
    subjectType := .user
    subjectId := userId
    planId := plan.discountPlanId
    effectiveFrom := sub.startTime
    effectiveTo := sub.endTime
    source := .subscription
    enabled := true }

/-- `bindSubscriptionDiscountTx`, on the bindings themselves. -/
def bindSubscriptionDiscount (now userId : Int) (plan : SubscriptionPlan)
    (sub : UserSubscription) : Tx BindingDB Err Unit :=
  if plan.discountPlanId ≤ 0 then pure ()
  else do
    require (0 < userId) (.text "invalid userId or subscription")
    createBinding env.createOk (subscriptionBinding env.newId userId plan sub)
    syncUserDiscountPlanId env.syncOk now userId

/-- The enabled bindings a user has from subscriptions. -/
def DiscountBinding.FromSubscription (b : DiscountBinding) (userId : Int) : Prop :=
  b.subjectType = .user ∧ b.subjectId = userId ∧ b.source = .subscription ∧ b.enabled = true
deriving Decidable

/-- `unbindSubscriptionDiscountTx`: all of them at once, whichever
subscription is given. -/
def unbindSubscriptionDiscountTx (now userId : Int) : Tx BindingDB Err Unit := do
  require (0 < userId) (.text "invalid userId")
  require (env.updateOk = true) .db
  update fun s : BindingDB =>
    { s with
      discountBindings := s.discountBindings.updateWhere (fun b => b.FromSubscription userId)
        (fun b => { b with enabled := false }) (fun _ => rfl) }
  syncUserDiscountPlanId env.syncOk now userId

/-! ### Customer codes -/

/-- What the use of a customer code is answered; `planEnabled` is the status
of the row of `discount_plans` with an id, if there is one. -/
structure CodeEnv where
  bind : BindEnv
  toUpper : String → String
  planEnabled : Int → Option Bool
  lockOk : Bool := true
  codeUpdateOk : Bool := true

/-- `customerCodeRejectReason`. -/
def customerCodeRejectReason (record : CustomerCode) (now : Int) : Except Err Unit :=
  if record.enabled = false then .error (.text "客户号已作废")
  else if 0 < record.expiredAt ∧ record.expiredAt < now then .error (.text "客户号已过期")
  else if 0 < record.maxUses ∧ record.maxUses ≤ record.usedCount then
    .error (.text "客户号使用次数已用完")
  else .ok ()

/-- `ensureCustomerCodePlanUsable`. -/
def ensureCustomerCodePlanUsable (planEnabled : Int → Option Bool) (planId : Int) : Except Err Unit :=
  if planId ≤ 0 then .ok ()
  else if planEnabled planId = some true then .ok ()
  else .error (.text "客户号指定的折扣方案不存在或已停用")

/-- The binding a customer code brings. -/
def codeBinding (newId customerId planId : Int) : DiscountBinding :=
  { id := newId
    subjectType := .user
    subjectId := customerId
    planId := planId
    source := .customerCode
    enabled := true }

/-- The transaction of `BindCustomerCode`. -/
def bindCustomerCodeTx (env : CodeEnv) (now customerId : Int) (code : String) : Tx BindingDB Err Unit := do
  require (env.lockOk = true) .db
  let record ← fetch (fun s : BindingDB => s.customerCodes.rows.find? fun c => c.code = code)
    (.text "客户号不存在")
  require (record.agentId ≠ customerId) (.text "不能使用自己发出的客户号")
  let customer ← fetch (fun s : BindingDB => s.db.users.find? customerId) .recordNotFound
  require (customer.subjectType ≠ .agent) (.text "经销商直属平台，不能使用客户号")
  require (customer.parentAgentId = 0 ∨ customer.parentAgentId = record.agentId)
    (.text "你已经归属另一位经销商，请联系平台")
  require (record.planId ≤ 0 ∨ env.bind.queryOk = true) .db
  let planBound ← Tx.read fun s : BindingDB =>
    decide (0 < record.planId) &&
      (s.enabledBindings customerId).any fun b => b.planId = record.planId
  require
    (¬ (customer.parentAgentId = record.agentId ∧ (record.planId = 0 ∨ planBound = true)))
    (.text "你已经是这位经销商的客户了")
  lift (customerCodeRejectReason record now)
  lift (ensureCustomerCodePlanUsable env.planEnabled record.planId)
  require (env.bind.updateOk = true) .db
  onDB (update fun db : DB =>
    db.updateUser customerId (fun u => { u with parentAgentId := record.agentId }) (fun _ => rfl))
  if 0 < record.planId ∧ planBound = false then do
    ensureDiscountBindingQuota env.bind.queryOk .user customerId
    createBinding env.bind.createOk (codeBinding env.bind.newId customerId record.planId)
    syncUserDiscountPlanId env.bind.syncOk now customerId
  else pure ()
  require (env.codeUpdateOk = true) .db
  update fun s : BindingDB =>
    { s with
      customerCodes := s.customerCodes.modify record.id
        (fun c => { c with usedCount := record.usedCount + 1, boundUserId := customerId })
        (fun _ => rfl) }

/-- `BindCustomerCode`, up to the summary it reads back. -/
def bindCustomerCode (env : CodeEnv) (now customerId : Int) (rawCode : String) (s : BindingDB) :
    Except Err Unit × BindingDB :=
  if customerId ≤ 0 then (.error (.text "无效的用户 ID"), s)
  else
    let code := env.toUpper (trimSpace rawCode)
    if code = "" then (.error (.text "客户号不存在"), s)
    else atomically (bindCustomerCodeTx env now customerId code) s

end MicrossApi
