/-
MicrossApi/CreditCeiling.lean

The ceiling on balances.  `creditTopUpQuota` puts the bound into the UPDATE
that credits, so no top-up takes a balance to `MaxQuota`.  The other functions
that credit add what they are given: `Redeem`, `IssueQuotaToCustomer`,
`refundWalletQuota`, `TransferAffQuotaToQuota`, `IncreaseUserQuota` and the
batch updater never compare the sum with anything.

`StaysBelow` says of a call, from the state before it, that there is room for
what it credits.  A call keeps all balances below the ceiling exactly when it
holds (`belowCeiling_walletStep_iff`); for reservations, decreases, purchases
and top-ups it asks for nothing.
-/
import MicrossApi.WalletCache

namespace MicrossApi

open StepSystem

/-! ### The ceiling -/

/-- Every balance is below `MaxQuota`. -/
def DB.BelowCeiling (db : DB) : Prop := ∀ u ∈ db.users.rows, u.quota < maxQuota
deriving Decidable

/-- The balance of `id`, if it has one, stays below the ceiling when it moves
by `amount`. -/
def DB.RoomFor (db : DB) (id amount : Int) : Prop :=
  ∀ u ∈ db.users.find? id, u.quota + amount < maxQuota
deriving Decidable

theorem belowCeiling_iff {db : DB} : db.BelowCeiling ↔ ∀ v, ∀ u ∈ db.users.find? v, u.quota < maxQuota := by
  constructor
  · intro h v u hu
    exact h u (Table.mem_of_find? hu)
  · intro h u hu
    exact h u.id u (Table.find?_eq_some_iff.mpr ⟨hu, rfl⟩)

theorem DB.BelowCeiling.roomFor {db : DB} (h : db.BelowCeiling) {id amount : Int}
    (hle : amount ≤ 0) : db.RoomFor id amount := by
  intro u hu
  have := belowCeiling_iff.mp h id u hu
  omega

theorem DB.QuotaMoves.row {db db' : DB} {v d : Int} {u u' : User} (h : db.QuotaMoves db' v d)
    (hu : db.users.find? v = some u) (hu' : db'.users.find? v = some u') : u'.quota = u.quota + d := by
  have hquota := h.quota (by rw [hu]; rfl)
  simpa only [DB.userColumn, hu, hu', Option.map_some, Option.getD_some] using hquota

theorem belowCeiling_moves_iff {db db' : DB} {δ : Int → Int}
    (h : ∀ v, db.QuotaMoves db' v (δ v)) : db'.BelowCeiling ↔ ∀ v, db.RoomFor v (δ v) := by
  rw [belowCeiling_iff]
  -- rows neither come nor go, so each row has its partner in the other store
  constructor
  · intro hbelow v u hu
    obtain ⟨u', hu'⟩ : ∃ u', db'.users.find? v = some u' := by
      rw [← Option.isSome_iff_exists, (h v).user, Option.mem_def.mp hu]
      rfl
    rw [← (h v).row hu hu']
    exact hbelow v u' hu'
  · intro hroom v u' hu'
    obtain ⟨u, hu⟩ : ∃ u, db.users.find? v = some u := by
      rw [← Option.isSome_iff_exists, ← (h v).user, Option.mem_def.mp hu']
      rfl
    rw [(h v).row hu hu']
    exact hroom v u hu

section Moves

variable {db db' : DB}

/-- A call that credits nobody needs no room. -/
theorem DB.BelowCeiling.of_falls (hdb : db.BelowCeiling)
    (h : ∀ v, ∃ d ≤ 0, db.QuotaMoves db' v d) : db'.BelowCeiling := by
  choose δ hle hmoves using h
  exact (belowCeiling_moves_iff hmoves).mpr fun v => hdb.roomFor (hle v)

/-- A call that moves the balance of `id` alone needs room there, if it goes
through. -/
theorem DB.BelowCeiling.credit_iff (hdb : db.BelowCeiling) {id amount : Int} {P : Prop}
    [Decidable P] (h : ∀ v, db.QuotaMoves db' v (if id = v ∧ P then amount else 0)) :
    db'.BelowCeiling ↔ (P → db.RoomFor id amount) := by
  rw [belowCeiling_moves_iff h]
  constructor
  · intro hroom hP
    simpa only [hP, and_self, if_true] using hroom id
  · intro hroom v
    by_cases hmoved : id = v ∧ P
    · rw [if_pos hmoved, ← hmoved.1]
      exact hroom hmoved.2
    · rw [if_neg hmoved]
      exact hdb.roomFor le_rfl

end Moves

/-! ### The row under the cache functions -/

section Row

variable (cfg : WalletConfig) (w : Wallet)

variable (answers : Bool)

@[simp] theorem db_cacheApplyUserQuotaDelta (id delta : Int) :
    (cacheApplyUserQuotaDelta answers id delta w).2.db = w.db := by
  unfold cacheApplyUserQuotaDelta
  split
  · rfl
  split <;> rfl

@[simp] theorem db_cacheIncrUserQuota (id delta : Int) :
    (cacheIncrUserQuota cfg answers id delta w).db = w.db := by
  unfold cacheIncrUserQuota
  split
  · rfl
  · exact db_cacheApplyUserQuotaDelta ..

@[simp] theorem db_syncCreditUserQuotaCache (userId quota : Int) :
    (syncCreditUserQuotaCache cfg answers userId quota w).db = w.db := by
  unfold syncCreditUserQuotaCache
  split
  · rfl
  · exact db_cacheIncrUserQuota ..

@[simp] theorem db_cacheTryReserveUserQuota (id amount : Int) :
    (cacheTryReserveUserQuota answers id amount w).2.db = w.db := by
  unfold cacheTryReserveUserQuota
  split
  · rfl
  split
  · rfl
  split <;> rfl

@[simp] theorem db_getUserCache (hydration : Hydration) (id : Int) :
    (getUserCache hydration id w).2.db = w.db := by
  unfold getUserCache
  split <;> rfl

@[simp] theorem db_reserveInCache (env : ReserveEnv) (id quota : Int) :
    (reserveInCache env id quota w).2.db = w.db := by
  have hfirst := db_cacheTryReserveUserQuota w env.firstAnswers id quota
  unfold reserveInCache
  split
  next w₁ heq =>
    rw [heq] at hfirst
    have hfill := db_getUserCache w₁ env.hydration id
    split
    next w₂ hget =>
      rw [hget] at hfill
      rw [db_cacheTryReserveUserQuota, hfill, hfirst]
    next w₂ hget =>
      rw [hget] at hfill
      rw [hfill, hfirst]
  · exact hfirst

end Row

/-! ### Balances under each call -/

section Calls

variable {cfg : WalletConfig} {w : Wallet} (dbOk : Bool)

/-- The conditional UPDATE takes the quota or leaves the row alone. -/
theorem falls_reserveUserQuotaDB {id quota : Int} (hq : 0 ≤ quota) (v : Int) :
    ∃ d ≤ 0, w.db.QuotaMoves (reserveUserQuotaDB dbOk id quota w).2.db v d := by
  unfold reserveUserQuotaDB
  split
  · exact ⟨0, le_rfl, .refl w.db v⟩
  split
  · exact ⟨0, le_rfl, .refl w.db v⟩
  split
  · refine ⟨_, ?_, quotaMoves_addQuota w.db v id (-quota)⟩
    split <;> omega
  · exact ⟨0, le_rfl, .refl w.db v⟩

theorem falls_persistUserQuotaDelta (cfg : WalletConfig) (w : Wallet) (dbOk : Bool) (id : Int)
    {delta : Int} (hd : delta ≤ 0) (v : Int) :
    ∃ d ≤ 0, w.db.QuotaMoves (persistUserQuotaDelta cfg dbOk id delta w).2.db v d := by
  unfold persistUserQuotaDelta
  split
  · exact ⟨0, le_rfl, .refl w.db v⟩
  split
  · exact ⟨0, le_rfl, .refl w.db v⟩
  split
  · exact ⟨0, le_rfl, .refl w.db v⟩
  · refine ⟨_, ?_, quotaMoves_addQuota w.db v id delta⟩
    split <;> omega

/-- A reservation credits nobody. -/
theorem falls_tryReserveUserQuota (env : ReserveEnv) (id quota v : Int) :
    ∃ d ≤ 0, w.db.QuotaMoves (tryReserveUserQuota cfg env id quota w).2.db v d := by
  unfold tryReserveUserQuota
  split
  · exact ⟨0, le_rfl, .refl w.db v⟩
  rename_i hq
  rw [not_lt] at hq
  split
  · exact ⟨0, le_rfl, .refl w.db v⟩
  split
  · exact falls_reserveUserQuotaDB env.dbOk hq v
  -- the cache part leaves the row alone: what remains is the fallback or the delta
  have hcache := db_reserveInCache w env id quota
  split
  next w₁ heq =>
    rw [heq] at hcache
    rw [← hcache]
    exact falls_reserveUserQuotaDB env.dbOk hq v
  next w₁ heq =>
    rw [heq] at hcache
    rw [← hcache]
    exact falls_reserveUserQuotaDB env.dbOk hq v
  next w₁ heq =>
    rw [heq] at hcache
    rw [hcache]
    exact ⟨0, le_rfl, .refl w.db v⟩
  next w₁ heq =>
    rw [heq] at hcache
    rw [← hcache]
    have hpaid := falls_persistUserQuotaDelta cfg w₁ env.dbOk id (neg_nonpos.mpr hq) v
    split
    next w₂ hpersist =>
      rwa [hpersist] at hpaid
    -- the compensation is a cache function, too
    rename_i e w₂ hpersist
    rw [hpersist] at hpaid
    rwa [db_cacheApplyUserQuotaDelta]

/-- A move is written to the row at once. -/
def WritesRow (cfg : WalletConfig) (env : MoveEnv) (db : Bool) : Prop :=
  ¬ (db = false ∧ cfg.batchUpdateEnabled = true) ∧ env.dbOk = true
deriving Decidable

theorem quotaMoves_moveUserQuota (env : MoveEnv) (id delta : Int) (db : Bool) (v : Int) :
    w.db.QuotaMoves (moveUserQuota cfg env id delta db w).2.db v
      (if id = v ∧ WritesRow cfg env db then delta else 0) := by
  have hcache := db_cacheIncrUserQuota cfg w env.redisAnswers id delta
  unfold moveUserQuota
  split
  · -- queued: the row waits for the batch updater
    rename_i hbatch
    have hno : ¬ WritesRow cfg env db := fun h => h.1 hbatch
    simp only [hno, and_false]
    exact (DB.QuotaMoves.refl w.db v).congr_users (congrArg DB.users hcache)
  rename_i hbatch
  split
  next hdb =>
    have hno : ¬ WritesRow cfg env db := by
      rintro ⟨-, hok⟩
      rw [hdb] at hok
      cases hok
    simp only [hno, and_false]
    exact (DB.QuotaMoves.refl w.db v).congr_users (congrArg DB.users hcache)
  next hdb =>
    have hyes : WritesRow cfg env db := ⟨hbatch, by simpa using hdb⟩
    simp only [hyes, and_true]
    rw [← hcache]
    exact quotaMoves_addQuota ..

/-- The batch updater credits the delta unchecked. -/
theorem quotaMoves_applyBatch (id v : Int) : w.db.QuotaMoves (applyBatch dbOk id w).db v
      (if id = v ∧ dbOk = true then w.pending id else 0) := by
  unfold applyBatch
  cases dbOk with
  | false => simpa using DB.QuotaMoves.refl w.db v
  | true =>
    simp only [and_true]
    exact quotaMoves_addQuota w.db v id (w.pending id)

/-- A purchase credits nobody. -/
theorem falls_purchase (env : PurchaseEnv) (userId planId v : Int) :
    ∃ d ≤ 0, w.db.QuotaMoves (purchaseSubscriptionWithBalance cfg env userId planId w).2.db v d := by
  obtain hsame | ⟨charged, db', hdone, hmoves⟩ := purchase_cases cfg env userId planId w
  · rw [hsame]
    exact ⟨0, le_rfl, .refl w.db v⟩
  refine ⟨_, ?_, (hmoves v).congr_users ?_⟩
  · split <;> omega
  · rw [hdone]
    split
    · rw [cacheDecrUserQuota, db_cacheIncrUserQuota]
    · rfl

theorem db_topUpCredit (redisAnswers : Bool) (op : TopUpOp) :
    (topUpCredit cfg redisAnswers op w).2.db = (op.perform cfg.quotaPerUnit w.db).2 := by
  unfold topUpCredit
  split
  next c db heq =>
    rw [db_syncCreditUserQuotaCache, heq]
  next r db _ heq =>
    rw [heq]

/-- **A top-up keeps the ceiling by itself**: its UPDATE carries the bound. -/
theorem belowCeiling_topUpCredit (hw : w.db.BelowCeiling) (redisAnswers : Bool) (op : TopUpOp) :
    (topUpCredit cfg redisAnswers op w).2.db.BelowCeiling := by
  rw [db_topUpCredit]
  refine (belowCeiling_moves_iff fun v => quotaMoves_topUp w.db cfg.quotaPerUnit op v).mpr ?_
  intro v
  cases op.outcome cfg.quotaPerUnit w.db with
  | unchanged answer =>
    rw [answer]
    exact hw.roomFor le_rfl
  | closed t target found pending result =>
    rw [result]
    exact hw.roomFor le_rfl
  | credited t method now quota updates u found pending user amount pos below result =>
    rw [result, creditOf, creditSum_singleton]
    split
    · -- the row that was credited is the one the UPDATE has compared
      rename_i hid
      intro u' hu'
      rw [← hid, user] at hu'
      cases hu'
      exact below
    · exact hw.roomFor le_rfl

end Calls

/-! ### Room for a credit -/

/-- What an issue at `cost` does to the balance of `v`. -/
def issueDelta (agentId customerId cost quota v : Int) : Int :=
  (if agentId = v then -cost else 0) + if customerId = v then quota else 0

/-- There is room for what the call credits, if it goes through. -/
def StaysBelow (cfg : WalletConfig) (w : Wallet) : WalletOp → Prop
  | .increase env id quota db => WritesRow cfg env db ∧ 0 ≤ quota → w.db.RoomFor id quota
  | .refund env userId quota _ _ => RefundCommits env userId quota w.db → w.db.RoomFor userId quota
  | .redeem env key userId =>
    ∀ code ∈ redeemedCode env key userId w.db, w.db.RoomFor userId code.quota
  | .issue env agentId customerId quota =>
    ∀ cost ∈ issuedCost cfg env agentId customerId quota w.db,
      -- a negative conversion rate credits the agent, too
      w.db.RoomFor agentId (issueDelta agentId customerId cost quota agentId) ∧
        w.db.RoomFor customerId (issueDelta agentId customerId cost quota customerId)
  | .transferAff env id quota => TransferCommits cfg env id quota w.db → w.db.RoomFor id quota
  | .applyBatch dbOk id => dbOk = true → w.db.RoomFor id (w.pending id)
  | .tryReserve .. | .decrease .. | .topUp .. | .purchase .. => True

instance (cfg w) : ∀ op, Decidable (StaysBelow cfg w op)
  | .increase .. | .refund .. | .redeem .. | .issue .. | .transferAff .. | .applyBatch .. | .tryReserve ..
  | .decrease .. | .topUp .. | .purchase .. => by
    dsimp only [StaysBelow]
    infer_instance

section Step

variable {cfg : WalletConfig} {w : Wallet}

theorem belowCeiling_redeem_iff (hw : w.db.BelowCeiling) (env : RedeemEnv) (key : String) (userId : Int) :
    (redeem cfg env key userId w).2.db.BelowCeiling ↔
      ∀ code ∈ redeemedCode env key userId w.db, w.db.RoomFor userId code.quota := by
  obtain ⟨hnone, hsame⟩ | ⟨code, hcode, hdone⟩ := redeem_cases cfg env key userId w
  · simp [hsame, hnone, hw]
  rw [hdone, hcode]
  have hmoves : ∀ v, w.db.QuotaMoves (w.db.redeemed code userId env.now) v
      (if userId = v ∧ True then code.quota else 0) := by
    intro v
    simp only [and_true]
    exact quotaMoves_redeemed ..
  simpa using hw.credit_iff hmoves

theorem belowCeiling_issue_iff (hw : w.db.BelowCeiling) (env : IssueEnv) (agentId customerId quota : Int) :
    (issueQuotaToCustomer cfg env agentId customerId quota w).2.db.BelowCeiling ↔
      ∀ cost ∈ issuedCost cfg env agentId customerId quota w.db,
        w.db.RoomFor agentId (issueDelta agentId customerId cost quota agentId) ∧
          w.db.RoomFor customerId (issueDelta agentId customerId cost quota customerId) := by
  obtain ⟨hnone, hsame⟩ | ⟨cost, hcost, hdone⟩ := issue_cases cfg env agentId customerId quota w
  · simp [hsame, hnone, hw]
  rw [hdone, db_cacheIncrUserQuota, cacheDecrUserQuota, db_cacheIncrUserQuota, hcost]
  have hiff := belowCeiling_moves_iff fun v =>
    quotaMoves_issued w.db v agentId customerId cost quota
  rw [hiff]
  simp only [Option.mem_def, Option.some.injEq, forall_eq']
  constructor
  · intro h
    exact ⟨h agentId, h customerId⟩
  · rintro ⟨hagent, hcustomer⟩ v
    -- only the two parties' balances move
    by_cases ha : agentId = v
    · subst ha
      exact hagent
    by_cases hc : customerId = v
    · subst hc
      exact hcustomer
    · rw [if_neg ha, if_neg hc]
      exact hw.roomFor le_rfl

/-- One call keeps all balances below the ceiling exactly when there is room
for what it credits. -/
theorem belowCeiling_walletStep_iff (hw : w.db.BelowCeiling) (op : WalletOp) :
    (walletStep cfg w op).db.BelowCeiling ↔ StaysBelow cfg w op := by
  cases op with
  | tryReserve env id quota =>
    exact iff_of_true (hw.of_falls (falls_tryReserveUserQuota env id quota)) trivial
  | increase env id quota db =>
    simp only [walletStep, StaysBelow, increaseUserQuota]
    by_cases hneg : quota < 0
    · rw [if_pos hneg]
      exact iff_of_true hw fun h => absurd h.2 (not_le.mpr hneg)
    · rw [if_neg hneg, hw.credit_iff (quotaMoves_moveUserQuota env id quota db)]
      simp only [not_lt.mp hneg, and_true]
  | decrease env id quota db =>
    refine iff_of_true ?_ trivial
    simp only [walletStep, decreaseUserQuota]
    split
    · exact hw
    refine (hw.credit_iff (quotaMoves_moveUserQuota env id (-quota) db)).mpr fun _ => ?_
    exact hw.roomFor (by omega)
  | refund => exact hw.credit_iff fun v => quotaMoves_refund
  | topUp redisAnswers op => exact iff_of_true (belowCeiling_topUpCredit hw redisAnswers op) trivial
  | redeem => exact belowCeiling_redeem_iff hw ..
  | purchase env userId planId =>
    exact iff_of_true (hw.of_falls (falls_purchase env userId planId)) trivial
  | issue => exact belowCeiling_issue_iff hw ..
  | transferAff => exact hw.credit_iff fun v => quotaMoves_transfer
  | applyBatch dbOk id => exact hw.credit_iff (quotaMoves_applyBatch dbOk id)

end Step

/-! ### Runs -/

/-- **The credit ceiling.**  Start with all balances below `MaxQuota`.  A call
keeps them there exactly when there is room for what it credits, which a
top-up sees to by itself, and a run of such calls keeps them there
throughout. -/
theorem credits_stay_below_ceiling (cfg : WalletConfig) (w : Wallet) (hw : w.db.BelowCeiling) :
    (∀ op, (walletStep cfg w op).db.BelowCeiling ↔ StaysBelow cfg w op) ∧
    (∀ redisAnswers op, (walletStep cfg w (.topUp redisAnswers op)).db.BelowCeiling) ∧
    ∀ ops, Along (walletStep cfg) (StaysBelow cfg) w ops → (exec (walletStep cfg) w ops).db.BelowCeiling := by
  refine ⟨belowCeiling_walletStep_iff hw, belowCeiling_topUpCredit hw, fun ops hroom => ?_⟩
  refine exec_inv_along (I := fun w : Wallet => w.db.BelowCeiling) ?_ hw hroom
  intro w op hop hbelow
  exact (belowCeiling_walletStep_iff hbelow op).mpr hop

/-- Agent 1 with 1000 and its customer 2 with `quota`, who holds a code worth
50 and a pending order of 500000. -/
def customerWith (quota : Int) : Wallet where
  db :=
    { agentAndCustomer.db with
      users :=
        { rows :=
            [{ id := 1, quota := 1000, subjectType := .agent },
             { id := 2, quota := quota, parentAgentId := 1 }]
          nodup := by simp }
      topUps :=
        { rows :=
            [{ id := 6, userId := 2, amount := 1, money := 7, tradeNo := "T6"
               paymentProvider := .epay, id_pos := by decide }]
          nodup := by decide } }

/-- A top-up, the code, an issue, an increase, a reservation and its refund,
with room for all of them. -/
theorem credits_stay_below_ceiling_withRoom :
    let ops := [WalletOp.topUp true (.rechargeEpay "alipay" {} "T6"), .redeem {} "code" 2,
      .issue {} 1 2 200, .increase {} 2 10 false, .tryReserve {} 2 40,
      .refund {} 2 40 .billingSessionRefund 0]
    (customerWith 2146983386).db.BelowCeiling ∧
      Along (walletStep directConfig) (StaysBelow directConfig) (customerWith 2146983386) ops ∧
      (exec (walletStep directConfig) (customerWith 2146983386) ops).db.userColumn 2 (·.quota)
        = maxQuota - 1 ∧
      (exec (walletStep directConfig) (customerWith 2146983386) ops).db.BelowCeiling := by
  intro ops
  have hstart : (customerWith 2146983386).db.BelowCeiling := by decide
  have hroom : Along (walletStep directConfig) (StaysBelow directConfig)
      (customerWith 2146983386) ops := by
    decide +kernel
  refine ⟨hstart, hroom, by decide +kernel, ?_⟩
  exact (credits_stay_below_ceiling directConfig (customerWith 2146983386) hstart).2.2 ops hroom

/-- A customer one below the ceiling is taken over it by the code, by an
issue, by an increase, and by the refund of a reservation after a top-up has
used the room it had left. -/
theorem unchecked_credits_pass_ceiling : (customerWith (maxQuota - 1)).db.BelowCeiling ∧
      ¬ (walletStep directConfig (customerWith (maxQuota - 1)) (.redeem {} "code" 2)).db.BelowCeiling ∧
      ¬ (walletStep directConfig (customerWith (maxQuota - 1)) (.issue {} 1 2 200)).db.BelowCeiling ∧
      ¬ (walletStep directConfig (customerWith (maxQuota - 1)) (.increase {} 2 10 false)).db.BelowCeiling ∧
      ¬ (exec (walletStep directConfig) (customerWith (maxQuota - 1))
          [.tryReserve {} 2 500000, .topUp true (.rechargeEpay "alipay" {} "T6"),
            .refund {} 2 500000 .billingSessionRefund 0]).db.BelowCeiling :=
  ⟨by decide, by decide +kernel, by decide +kernel, by decide +kernel, by decide +kernel⟩

end MicrossApi
