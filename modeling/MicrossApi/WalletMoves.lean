/-
MicrossApi/WalletMoves.lean

What each wallet function does to one user.  `DB.QuotaMoves db db' v d` says
that a transaction moved the balance of user `v` by `d`, and
`Wallet.Moves v w w' dStored dCached` that a function moved what is stored for
`v` (the row and the batch delta together) by `dStored` and the `Quota` field
of its hash by `dCached`.  Both compose by adding the amounts, so a function's
move is read off its statements.

There is one lemma for each function; the amounts in it are stated from the
state before the call.
-/
import MicrossApi.Wallet

namespace MicrossApi

open Tx hiding read

/-! ### Balances -/

/-- The balance of `v`, if it has one, moves by `d`, and its row neither comes
nor goes. -/
structure DB.QuotaMoves (db db' : DB) (v d : Int) : Prop where
  quota : (db.users.find? v).isSome → db'.userColumn v (·.quota) = db.userColumn v (·.quota) + d
  user : (db'.users.find? v).isSome = (db.users.find? v).isSome

variable (db : DB) {db' : DB} {v d : Int} {userId quota refId : Int} {x : Unit}
  {env : RefundWalletEnv} {refType : RefType} {id : Int} {plan : SubscriptionPlan}

theorem DB.QuotaMoves.refl (v : Int) : db.QuotaMoves db v 0 :=
  ⟨fun _ => (add_zero _).symm, rfl⟩

/-- A change of other tables does not show. -/
theorem DB.QuotaMoves.congr_users {db db'' : DB} (h : db.QuotaMoves db' v d)
    (hu : db''.users = db'.users) : db.QuotaMoves db'' v d := by
  obtain ⟨hquota, huser⟩ := h
  refine ⟨fun hv => ?_, by rw [hu, huser]⟩
  rw [← hquota hv]
  unfold DB.userColumn
  rw [hu]

theorem DB.QuotaMoves.trans {db db'' : DB} {d' : Int} (h : db.QuotaMoves db' v d)
    (h' : db'.QuotaMoves db'' v d') : db.QuotaMoves db'' v (d + d') :=
  ⟨fun hv => by rw [h'.quota (h.user.trans hv), h.quota hv, add_assoc], h'.user.trans h.user⟩

/-- Writing a row in place of `v`'s own moves its balance by the
difference. -/
theorem DB.QuotaMoves.of_modify {db : DB} (id : Int) (f : User → User)
    (hf : ∀ r, (f r).id = r.id) (hd : ∀ u, db.users.find? id = some u → (f u).quota = u.quota + d) :
    db.QuotaMoves (db.updateUser id f hf) v (if id = v then d else 0) := by
  by_cases h : v = id
  · subst h
    refine ⟨fun hv => ?_, ?_⟩
    · obtain ⟨u, hu⟩ := Option.isSome_iff_exists.mp hv
      simp [DB.userColumn, DB.updateUser, hu, hd u hu]
    · simp [DB.updateUser]
  · have h' : ¬ id = v := fun e => h e.symm
    refine ⟨fun _ => ?_, ?_⟩
    · rw [if_neg h']
      simp [DB.userColumn, DB.updateUser, h]
    · simp [DB.updateUser, h]

theorem quotaMoves_addQuota (v id delta : Int) :
    db.QuotaMoves (db.addQuota id delta) v (if id = v then delta else 0) := by
  exact DB.QuotaMoves.of_modify id _ _ (fun _ _ => rfl)

/-- Any change of a user row that keeps its balance. -/
theorem quotaMoves_updateUser {db : DB} (id : Int) {f : User → User}
    (hf : ∀ r, (f r).id = r.id) (hq : ∀ u, (f u).quota = u.quota) :
    db.QuotaMoves (db.updateUser id f hf) v 0 := by
  have h : db.QuotaMoves (db.updateUser id f hf) v (if id = v then 0 else 0) :=
    .of_modify id f hf (fun u _ => by rw [hq u, add_zero])
  rwa [ite_self] at h

/-! ### Transactions -/

/-- Everything a refund needs to commit. -/
def RefundCommits (env : RefundWalletEnv) (userId quota : Int) (db : DB) : Prop :=
  0 < quota ∧ 0 < userId ∧ (db.users.find? userId).isSome ∧
    env.updateOk = true ∧ env.balanceOk = true ∧ env.ledgerOk = true
deriving Decidable

/-- The store after a refund. -/
def DB.refunded (userId quota : Int) (refType : RefType) (refId : Int) : DB :=
  let paid := db.addQuota userId quota
  { paid with
    accountLedger := paid.accountLedger ++
      [{ subjectId := userId, eventType := .refund, amount := quota
         balanceAfter := paid.userColumn userId (·.quota)
         refType := refType, refId := refId, operatorId := 0 }] }

theorem ok_refundWalletTx_iff {db : DB} :
    refundWalletTx env userId quota refType refId db = .ok (x, db') ↔
      (0 < userId ∧ (db.users.find? userId).isSome ∧ env.updateOk = true ∧
        env.balanceOk = true ∧ env.ledgerOk = true) ∧ db' = db.refunded userId quota refType refId := by
  simp only [refundWalletTx, ok_require_bind_iff, ok_fetch_bind_iff, ok_update_bind_iff,
    ok_read_bind_iff, ok_recordAccountLedger_iff]
  constructor
  · rintro ⟨hupdate, u, hu, hbalance, hid, hledger, rfl⟩
    exact ⟨⟨hid, by rw [hu]; rfl, hupdate, hbalance, hledger⟩, rfl⟩
  · rintro ⟨⟨hid, hfound, hupdate, hbalance, hledger⟩, rfl⟩
    obtain ⟨u, hu⟩ := Option.isSome_iff_exists.mp hfound
    exact ⟨hupdate, u, hu, hbalance, hid, hledger, rfl⟩

/-- The refund of a session credits the row exactly when it commits. -/
theorem quotaMoves_refund
    {w : Wallet} : w.db.QuotaMoves (refundWalletQuota env userId quota refType refId w).2.db v
      (if userId = v ∧ RefundCommits env userId quota w.db then quota else 0) := by
  unfold refundWalletQuota
  by_cases hq : quota ≤ 0
  · have hno : ¬ (userId = v ∧ RefundCommits env userId quota w.db) := by
      rintro ⟨-, hpos, -⟩
      omega
    rw [if_pos hq, if_neg hno]
    exact .refl ..
  rw [if_neg hq]
  obtain ⟨x, db', htx, hat⟩ | ⟨e, htx, hat⟩ :=
    atomically_cases (refundWalletTx env userId quota refType refId) w.db
  · obtain ⟨hok, rfl⟩ := ok_refundWalletTx_iff.mp htx
    have hcommits : RefundCommits env userId quota w.db := ⟨by omega, hok⟩
    simp only [hat, hcommits, and_true]
    exact (quotaMoves_addQuota _ v userId quota).congr_users rfl
  · have hno : ¬ (userId = v ∧ RefundCommits env userId quota w.db) := by
      rintro ⟨-, -, hok⟩
      exact not_ok_of_error htx ((), _) (ok_refundWalletTx_iff.mpr ⟨hok, rfl⟩)
    simp only [hat, if_neg hno]
    exact .refl ..

/-- The code a redemption takes: found, enabled, not expired, and no
statement refused. -/
def redeemedCode (env : RedeemEnv) (key : String) (userId : Int) (db : DB) : Option Redemption :=
  if key = "" ∨ userId = 0 ∨ env.lockOk = false then none
  else (db.redemptions.rows.find? (·.key = key)).filter fun code =>
    code.status = .enabled ∧ ¬ (code.expiredTime ≠ 0 ∧ code.expiredTime < env.now) ∧
      env.markOk = true ∧ env.updateOk = true

/-- The store after a redemption. -/
def DB.redeemed (code : Redemption) (userId now : Int) : DB :=
  DB.addQuota { db with redemptions := db.redemptions.save (code.redeemed userId now) } userId
    code.quota

theorem ok_redeemTx_iff {env : RedeemEnv} {key : String} {db : DB} :
    redeemTx env key userId db = .ok (quota, db') ↔
      ∃ code, env.lockOk = true ∧ db.redemptions.rows.find? (·.key = key) = some code ∧
        (code.status = .enabled ∧ ¬ (code.expiredTime ≠ 0 ∧ code.expiredTime < env.now) ∧
          env.markOk = true ∧ env.updateOk = true) ∧
        quota = code.quota ∧ db' = db.redeemed code userId env.now := by
  simp only [redeemTx, ok_require_bind_iff, ok_fetch_bind_iff, ok_update_bind_iff, ok_pure_iff]
  constructor
  · rintro ⟨code, hcode, hstatus, hexpired, hmark, hupdate, rfl, rfl⟩
    split at hcode
    next hlock =>
      exact ⟨code, hlock, hcode, ⟨hstatus, hexpired, hmark, hupdate⟩, rfl, rfl⟩
    · cases hcode
  · rintro ⟨code, hlock, hcode, ⟨hstatus, hexpired, hmark, hupdate⟩, rfl, rfl⟩
    refine ⟨code, ?_, hstatus, hexpired, hmark, hupdate, rfl, rfl⟩
    rw [if_pos hlock]
    exact hcode

variable (cfg : WalletConfig)

/-- A redemption changes nothing, or it takes one code. -/
theorem redeem_cases (env : RedeemEnv) (key : String) (userId : Int) (w : Wallet) :
    (redeemedCode env key userId w.db = none ∧ (redeem cfg env key userId w).2 = w) ∨
      ∃ code, redeemedCode env key userId w.db = some code ∧ (redeem cfg env key userId w).2
          = syncCreditUserQuotaCache cfg env.redisAnswers userId code.quota
              { w with db := w.db.redeemed code userId env.now } := by
  unfold redeem redeemedCode
  by_cases hkey : key = ""
  · exact Or.inl ⟨by rw [if_pos (Or.inl hkey)], by rw [if_pos hkey]⟩
  by_cases huser : userId = 0
  · exact Or.inl ⟨by rw [if_pos (Or.inr (Or.inl huser))], by rw [if_neg hkey, if_pos huser]⟩
  rw [if_neg hkey, if_neg huser]
  obtain ⟨quota, db', htx, hat⟩ | ⟨e, htx, hat⟩ :=
    atomically_cases (redeemTx env key userId) w.db
  · obtain ⟨code, hlock, hcode, hok, rfl, rfl⟩ := ok_redeemTx_iff.mp htx
    refine Or.inr ⟨code, ?_, by simp only [hat]⟩
    rw [if_neg (by simp [hkey, huser, hlock]), hcode]
    exact Option.filter_eq_some_iff.mpr ⟨rfl, decide_eq_true hok⟩
  refine Or.inl ⟨?_, by simp only [hat]⟩
  split
  · rfl
  rename_i hguard
  rw [Option.filter_eq_none_iff]
  intro code hcode hok
  -- such a code would have been redeemed
  have hlock : env.lockOk = true := by
    rcases h : env.lockOk with - | -
    · exact absurd (Or.inr (Or.inr h)) hguard
    · rfl
  exact not_ok_of_error htx (code.quota, _)
    (ok_redeemTx_iff.mpr ⟨code, hlock, hcode, of_decide_eq_true hok, rfl, rfl⟩)

theorem quotaMoves_redeemed (v : Int) (code : Redemption) (userId now : Int) :
    db.QuotaMoves (db.redeemed code userId now) v (if userId = v then code.quota else 0) := by
  have h := quotaMoves_addQuota db v userId code.quota
  exact ⟨h.quota, h.user⟩

/-- Everything a transfer of invitation quota needs to commit. -/
def TransferCommits (cfg : WalletConfig) (env : TransferEnv) (id quota : Int) (db : DB) : Prop :=
  cfg.quotaPerUnit ≤ quota ∧ (∃ u ∈ db.users.find? id, quota ≤ u.affQuota) ∧
    env.beginOk = true ∧ env.lockOk = true ∧ env.saveOk = true ∧ env.commitOk = true
deriving Decidable

theorem ok_transferAffTx_iff {env : TransferEnv} {db : DB} :
    transferAffTx env id quota db = .ok (x, db') ↔ ∃ u, db.users.find? id = some u ∧ quota ≤ u.affQuota ∧
        (env.beginOk = true ∧ env.lockOk = true ∧ env.saveOk = true ∧ env.commitOk = true) ∧ db' = { db with
          users := db.users.save { u with affQuota := u.affQuota - quota, quota := u.quota + quota } } := by
  simp only [transferAffTx, ok_require_bind_iff, ok_fetch_bind_iff, ok_update_bind_iff,
    ok_require_iff]
  constructor
  · rintro ⟨hbegin, hlock, u, hu, haff, hsave, hcommit, rfl⟩
    exact ⟨u, hu, haff, ⟨hbegin, hlock, hsave, hcommit⟩, rfl⟩
  · rintro ⟨u, hu, haff, ⟨hbegin, hlock, hsave, hcommit⟩, rfl⟩
    exact ⟨hbegin, hlock, u, hu, haff, hsave, hcommit, rfl⟩

theorem quotaMoves_transfer {cfg : WalletConfig} {env : TransferEnv} {w : Wallet} :
    w.db.QuotaMoves (transferAffQuotaToQuota cfg env id quota w).2.db v
      (if id = v ∧ TransferCommits cfg env id quota w.db then quota else 0) := by
  unfold transferAffQuotaToQuota
  by_cases hmin : (quota : ℚ) < cfg.quotaPerUnit
  · have hno : ¬ (id = v ∧ TransferCommits cfg env id quota w.db) := by
      rintro ⟨-, hle, -⟩
      exact absurd hmin (not_lt.mpr hle)
    rw [if_pos hmin, if_neg hno]
    exact .refl ..
  rw [if_neg hmin]
  obtain ⟨x, db', htx, hat⟩ | ⟨e, htx, hat⟩ := atomically_cases (transferAffTx env id quota) w.db
  · obtain ⟨u, hu, haff, hok, rfl⟩ := ok_transferAffTx_iff.mp htx
    have hcommits : TransferCommits cfg env id quota w.db := ⟨not_lt.mp hmin, ⟨u, hu, haff⟩, hok⟩
    have hid : u.id = id := Table.key_of_find? hu
    simp only [hat, hcommits]
    by_cases h : v = id
    · subst h
      refine ⟨fun _ => ?_, ?_⟩
      · simp [DB.userColumn, hid, hu]
      · simp [hid]
    · have h' : ¬ id = v := fun e => h e.symm
      have h'' : ¬ v = u.id := fun e => h (e.trans hid)
      refine ⟨fun _ => ?_, ?_⟩
      · simp [DB.userColumn, h', h'']
      · simp [h'']
  · have hno : ¬ (id = v ∧ TransferCommits cfg env id quota w.db) := by
      rintro ⟨-, -, ⟨u, hu, haff⟩, hok⟩
      exact not_ok_of_error htx ((), _) (ok_transferAffTx_iff.mpr ⟨u, hu, haff, hok, rfl⟩)
    simp only [hat, if_neg hno]
    exact .refl ..

variable {env : CreateEnv}

theorem quotaMoves_upgradeUserGroup {upgradeGroup r : String} {db : DB}
    (h : upgradeUserGroup env userId upgradeGroup db = .ok (r, db')) : db.QuotaMoves db' v 0 := by
  unfold upgradeUserGroup at h
  split at h
  · obtain ⟨-, rfl⟩ := ok_pure_iff.mp h
    exact .refl _ v
  obtain ⟨current, db₁, hread, hmove⟩ := ok_bind_iff.mp h
  simp only [getUserGroupByIdTx, ok_require_bind_iff] at hread
  obtain ⟨-, -, -, rfl⟩ := hread
  split at hmove
  · obtain ⟨-, rfl⟩ := ok_pure_iff.mp hmove
    exact .refl _ v
  simp only [ok_require_bind_iff] at hmove
  obtain ⟨-, -, rfl⟩ := hmove
  exact quotaMoves_updateUser userId _ (fun _ => rfl)

theorem quotaMoves_bindSubscriptionDiscount {db : DB}
    (h : bindSubscriptionDiscountTx env userId plan db = .ok (x, db')) : db.QuotaMoves db' v 0 := by
  unfold bindSubscriptionDiscountTx at h
  split at h
  · obtain ⟨-, rfl⟩ := ok_pure_iff.mp h
    exact .refl _ v
  simp only [ok_fetch_bind_iff, ok_update_iff] at h
  obtain ⟨_, -, rfl⟩ := h
  exact quotaMoves_updateUser userId _ (fun _ => rfl)

/-- Creating a subscription may move the user into a group and bind a
discount, but no balance. -/
theorem quotaMoves_createSubscription {cal : Calendar} {source : String} {db : DB} {sub : UserSubscription}
    (h : createUserSubscriptionFromPlanTx cal env userId plan source db = .ok (sub, db')) :
    db.QuotaMoves db' v 0 := by
  obtain ⟨_, db₁, hallowed, hplan⟩ := ok_bind_iff.mp h
  simp only [purchaseAllowed, ok_require_bind_iff] at hallowed
  obtain rfl := ok_checkPurchaseLimit hallowed.2.2
  obtain ⟨endUnix, -, hupgrade⟩ := ok_lift_bind_iff.mp hplan
  obtain ⟨prevGroup, db₂, hgroup, hinsert⟩ := ok_bind_iff.mp hupgrade
  simp only [ok_read_bind_iff, ok_require_bind_iff, ok_update_bind_iff] at hinsert
  obtain ⟨_, db₃, hbind, hdone⟩ := ok_bind_iff.mp hinsert.2
  obtain ⟨-, rfl⟩ := ok_pure_iff.mp hdone
  have hbind' := quotaMoves_bindSubscriptionDiscount (v := v) hbind
  exact (quotaMoves_upgradeUserGroup hgroup).trans ⟨hbind'.quota, hbind'.user⟩

theorem purchase_cases (env : PurchaseEnv) (userId planId : Int) (w : Wallet) :
    (purchaseSubscriptionWithBalance cfg env userId planId w).2 = w ∨
      ∃ charged db', (purchaseSubscriptionWithBalance cfg env userId planId w).2 = (if 0 < charged then
              cacheDecrUserQuota cfg env.redisAnswers userId charged { w with db := db' }
            else { w with db := db' }) ∧
        ∀ v, w.db.QuotaMoves db' v (if userId = v ∧ 0 < charged then -charged else 0) := by
  unfold purchaseSubscriptionWithBalance
  split
  · exact Or.inl rfl
  obtain ⟨charged, db', htx, hat⟩ | ⟨e, -, hat⟩ :=
    atomically_cases (purchaseTx cfg env userId planId) w.db
  · refine Or.inr ⟨charged, db', ?_, fun v => ?_⟩
    · simp only [hat]
      split <;> rfl
    simp only [purchaseTx, ok_lift_bind_iff, ok_require_bind_iff, ok_fetch_bind_iff] at htx
    obtain ⟨plan, -, -, -, -, required, -, -, user, -, -, htx⟩ := htx
    obtain ⟨_, db₁, hcharge, htx⟩ := ok_bind_iff.mp htx
    obtain ⟨sub, db₂, hcreate, htx⟩ := ok_bind_iff.mp htx
    simp only [ok_read_bind_iff, ok_require_bind_iff, ok_update_bind_iff, ok_pure_iff] at htx
    obtain ⟨-, rfl, rfl⟩ := htx
    have hcharge' : w.db.QuotaMoves db₁ v (if userId = v ∧ 0 < charged then -charged else 0) := by
      unfold chargePurchase at hcharge
      split at hcharge
      next hpos =>
        simp only [ok_require_bind_iff, ok_update_iff] at hcharge
        obtain ⟨-, rfl⟩ := hcharge
        simp only [hpos, and_true]
        exact quotaMoves_addQuota _ v userId (-charged)
      next hpos =>
        obtain ⟨-, rfl⟩ := ok_pure_iff.mp hcharge
        simp only [hpos, and_false]
        exact .refl _ v
    have h := hcharge'.trans (quotaMoves_createSubscription hcreate)
    rw [add_zero] at h
    exact h.congr_users rfl
  · exact Or.inl (by simp only [hat])

/-- What the agent pays for an issue that meets every check of the
transaction. -/
def agreedCost (cfg : WalletConfig) (env : IssueEnv) (agentId customerId quota : Int) (db : DB) :
    Option Int :=
  match db.users.find? agentId, db.users.find? customerId with
  | some agent, some customer =>
    if customer.parentAgentId ≠ agentId ∨ customer.subjectType = .agent then none
    else
      match resolveAgentTopupCost cfg env.planOk customer.discountPlanId quota db with
      | .error _ => none
      | .ok (cost, rate) => if rate ≠ 0 ∧ rate ≤ 1 ∧ cost ≤ agent.quota then some cost else none
  | _, _ => none

theorem agreedCost_eq_some {cfg : WalletConfig} {env : IssueEnv}
    {agentId customerId cost : Int} {db : DB}
    (h : agreedCost cfg env agentId customerId quota db = some cost) :
    ∃ agent customer rate, db.users.find? agentId = some agent ∧ db.users.find? customerId = some customer ∧
      ¬ (customer.parentAgentId ≠ agentId ∨ customer.subjectType = .agent) ∧
      resolveAgentTopupCost cfg env.planOk customer.discountPlanId quota db = .ok (cost, rate) ∧
      rate ≠ 0 ∧ rate ≤ 1 ∧ cost ≤ agent.quota := by
  unfold agreedCost at h
  split at h
  next agent customer hagent hcustomer =>
    split at h
    · cases h
    rename_i hparent
    split at h
    · cases h
    rename_i cost' rate hresolved
    split at h
    next hrate =>
      cases h
      exact ⟨agent, customer, rate, hagent, hcustomer, hparent, hresolved, hrate⟩
    · cases h
  · cases h

/-- No statement of the issue is refused. -/
def IssueEnv.Accepts (env : IssueEnv) : Prop :=
  env.lockAgentOk = true ∧ env.lockCustomerOk = true ∧ env.debitOk = true ∧ env.creditOk = true ∧
    env.balancesOk = true ∧ env.agentLedgerOk = true ∧ env.customerLedgerOk = true
deriving Decidable

/-- The agent may issue at all. -/
def MayIssue (env : IssueEnv) (agentId quota : Int) (db : DB) : Prop :=
  0 < quota ∧ ∃ profile ∈ (getAgentProfileByUserId env.profileOk agentId db).toOption,
    profile.issueQuotaEnabled = 1
deriving Decidable

/-- What the agent pays for an issue that goes through. -/
def issuedCost (cfg : WalletConfig) (env : IssueEnv) (agentId customerId quota : Int) (db : DB) :
    Option Int :=
  if MayIssue env agentId quota db ∧ env.Accepts ∧ 0 < agentId ∧ 0 < customerId then
    agreedCost cfg env agentId customerId quota db
  else none

/-- The store after an issue. -/
def DB.issued (agentId customerId cost quota : Int) : DB :=
  let paid := (db.addQuota agentId (-cost)).addQuota customerId quota
  { paid with
    accountLedger := (paid.accountLedger ++
      [issueRow agentId (-cost) (paid.userColumn agentId (·.quota)) agentId]) ++
      [issueRow customerId quota (paid.userColumn customerId (·.quota)) agentId] }

theorem ok_issueTx_iff {cfg : WalletConfig} {env : IssueEnv} {agentId customerId cost : Int}
    {db : DB} : issueTx cfg env agentId customerId quota db = .ok (cost, db') ↔
      agreedCost cfg env agentId customerId quota db = some cost ∧ env.Accepts ∧ 0 < agentId ∧
        0 < customerId ∧ db' = db.issued agentId customerId cost quota := by
  simp only [issueTx, ok_require_bind_iff, ok_fetch_bind_iff, ok_read_bind_iff,
    ok_lift_bind_iff, Prod.exists, ok_update_bind_iff, ok_recordAccountLedger_bind_iff,
    ok_pure_iff]
  constructor
  · rintro ⟨h1, agent, hagent, h2, customer, hcustomer, hparent, agentCost, rate, hresolved, hzero,
      hone, henough, h3, h4, h5, hid, h6, hcid, h7, rfl, rfl⟩
    refine ⟨?_, ⟨h1, h2, h3, h4, h5, h6, h7⟩, hid, hcid, rfl⟩
    simp only [agreedCost, hagent, hcustomer, hparent, if_false, hresolved]
    rw [if_pos ⟨hzero, hone, henough⟩]
  · rintro ⟨hcost, ⟨h1, h2, h3, h4, h5, h6, h7⟩, hid, hcid, rfl⟩
    obtain ⟨agent, customer, rate, hagent, hcustomer, hparent, hresolved, hzero, hone, henough⟩ :=
      agreedCost_eq_some hcost
    exact ⟨h1, agent, hagent, h2, customer, hcustomer, hparent, cost, rate, hresolved, hzero, hone,
      henough, h3, h4, h5, hid, h6, hcid, h7, rfl, rfl⟩

theorem issue_cases (env : IssueEnv) (agentId customerId quota : Int) (w : Wallet) :
    (issuedCost cfg env agentId customerId quota w.db = none ∧
        (issueQuotaToCustomer cfg env agentId customerId quota w).2 = w) ∨
      ∃ cost, issuedCost cfg env agentId customerId quota w.db = some cost ∧
        (issueQuotaToCustomer cfg env agentId customerId quota w).2
          = cacheIncrUserQuota cfg env.customerRedisAnswers customerId quota
              (cacheDecrUserQuota cfg env.agentRedisAnswers agentId cost
                { w with db := w.db.issued agentId customerId cost quota }) := by
  unfold issueQuotaToCustomer
  by_cases hmay : MayIssue env agentId quota w.db
  · obtain ⟨hpos, profile, hprofile, henabled⟩ := id hmay
    rcases hget : getAgentProfileByUserId env.profileOk agentId w.db with e | p
    · rw [hget] at hprofile
      cases hprofile
    rw [hget] at hprofile
    obtain rfl : p = profile := Option.some.inj hprofile
    rw [if_neg (by omega)]
    simp only [henabled, ne_eq, not_true_eq_false, if_false]
    obtain ⟨cost, db', htx, hat⟩ | ⟨e, htx, hat⟩ :=
      atomically_cases (issueTx cfg env agentId customerId quota) w.db
    · obtain ⟨hcost, haccepts, hid, hcid, rfl⟩ := ok_issueTx_iff.mp htx
      refine Or.inr ⟨cost, ?_, by simp only [hat]⟩
      rw [issuedCost, if_pos ⟨hmay, haccepts, hid, hcid⟩, hcost]
    refine Or.inl ⟨?_, by simp only [hat]⟩
    unfold issuedCost
    split
    next hguard =>
      rcases hcost : agreedCost cfg env agentId customerId quota w.db with - | cost
      · rfl
      obtain ⟨-, haccepts, hid, hcid⟩ := hguard
      exact absurd (ok_issueTx_iff.mpr ⟨hcost, haccepts, hid, hcid, rfl⟩)
        (not_ok_of_error htx (cost, _))
    · rfl
  · refine Or.inl ⟨by rw [issuedCost, if_neg fun h => hmay h.1], ?_⟩
    split
    · rfl
    split
    · rfl
    rename_i profile hget
    split
    · rfl
    rename_i henabled
    refine absurd ⟨by omega, profile, ?_, by simpa using henabled⟩ hmay
    rw [hget]
    rfl

theorem quotaMoves_issued (v agentId customerId cost quota : Int) :
    db.QuotaMoves (db.issued agentId customerId cost quota) v
      ((if agentId = v then -cost else 0) + if customerId = v then quota else 0) := by
  have hdebit := quotaMoves_addQuota db v agentId (-cost)
  exact (hdebit.trans (quotaMoves_addQuota _ v customerId quota)).congr_users rfl

theorem quotaMoves_topUp (quotaPerUnit : ℚ) (op : TopUpOp) (v : Int) :
    db.QuotaMoves (op.perform quotaPerUnit db).2 v
      (creditSum (creditOf (op.perform quotaPerUnit db).1) v) := by
  refine ⟨fun _ => (op.walletMoves quotaPerUnit db v).1, ?_⟩
  cases op.outcome quotaPerUnit db with
  | unchanged answer store => rw [store]
  | closed t target found pending result => rw [result]
  | credited t method now quota updates w found pending user amount pos below result =>
    rw [result, users_completedTopUp, Table.find?_modify]
    split
    · rw [Option.isSome_map]
    · rfl

/-! ### The three places -/

/-- What is stored for `v`: the row and the batch delta together. -/
def Wallet.stored (w : Wallet) (v : Int) : Int := w.db.userColumn v (·.quota) + w.pending v

/-- User `v` has a row and a live hash. -/
structure Wallet.Live (w : Wallet) (v : Int) : Prop where
  user : (w.db.users.find? v).isSome
  hash : (w.cache v).isSome

/-- What is stored for `v` moves by `dStored`, its cached quota by
`dCached`. -/
structure Wallet.Moves (v : Int) (w w' : Wallet) (dStored dCached : Int) : Prop where
  stored : w'.stored v = w.stored v + dStored
  cached : w'.cache v = (w.cache v).map (· + dCached)
  user : (w'.db.users.find? v).isSome = (w.db.users.find? v).isSome

namespace Wallet.Moves

variable {v : Int} {w w' w'' : Wallet} {a b c d : Int}

theorem refl (v : Int) (w : Wallet) : Wallet.Moves v w w 0 0 :=
  ⟨(add_zero _).symm, by simp, rfl⟩

theorem trans (h : Wallet.Moves v w w' a b) (h' : Wallet.Moves v w' w'' c d) :
    Wallet.Moves v w w'' (a + c) (b + d) := by
  refine ⟨by rw [h'.stored, h.stored, add_assoc], ?_, h'.user.trans h.user⟩
  rw [h'.cached, h.cached, Option.map_map]
  congr 1
  funext q
  show q + b + d = q + (b + d)
  rw [add_assoc]

theorem live (h : Wallet.Moves v w w' a b) (hw : w.Live v) : w'.Live v := by
  refine ⟨h.user.trans hw.user, ?_⟩
  rw [h.cached, Option.isSome_map]
  exact hw.hash

/-- A transaction leaves the batch and the hash alone. -/
theorem of_db (hw : w.Live v) (h : w.db.QuotaMoves db' v d) :
    Wallet.Moves v w { w with db := db' } d 0 := by
  refine ⟨?_, by simp, h.user⟩
  show db'.userColumn v (·.quota) + w.pending v = w.stored v + d
  rw [h.quota hw.user]
  unfold Wallet.stored
  omega

end Wallet.Moves

variable {v : Int} {w : Wallet}

theorem moves_addQuota (hw : w.Live v) (id delta : Int) :
    Wallet.Moves v w (w.addQuota id delta) (if id = v then delta else 0) 0 :=
  .of_db hw (quotaMoves_addQuota w.db v id delta)

theorem moves_addNewRecord (v : Int) (w : Wallet) (id delta : Int) :
    Wallet.Moves v w (w.addNewRecord id delta) (if id = v then delta else 0) 0 := by
  refine ⟨?_, by simp [Wallet.addNewRecord], rfl⟩
  by_cases h : v = id
  · subst h
    simp [Wallet.stored, Wallet.addNewRecord, add_assoc]
  · have h' : ¬ id = v := fun e => h e.symm
    simp [Wallet.stored, Wallet.addNewRecord, h, h']

theorem moves_setCache (hid : w.cache id = some quota) (delta : Int) :
    Wallet.Moves v w (w.setCache id (quota + delta)) 0 (if id = v then delta else 0) := by
  refine ⟨(add_zero _).symm, ?_, rfl⟩
  by_cases h : v = id
  · subst h
    simp [Wallet.setCache, hid]
  · have h' : ¬ id = v := fun e => h e.symm
    simp [Wallet.setCache, h, h']

variable {answers : Bool}

theorem moves_cacheApply (hw : w.Live v) (hans : answers = true) (id delta : Int) :
    Wallet.Moves v w (cacheApplyUserQuotaDelta answers id delta w).2 0 (if id = v then delta else 0) := by
  subst hans
  simp only [cacheApplyUserQuotaDelta, Bool.true_eq_false]
  rcases h : w.cache id with - | quota
  · have hne : ¬ id = v := by
      rintro rfl
      have := hw.hash
      rw [h] at this
      cases this
    simp only [if_neg hne]
    exact .refl v w
  · exact moves_setCache h delta

section Redis

variable (hw : w.Live v) {cfg : WalletConfig} (hredis : cfg.redisEnabled = true)
include hw hredis

theorem moves_cacheIncr (hans : answers = true) (id delta : Int) :
    Wallet.Moves v w (cacheIncrUserQuota cfg answers id delta w) 0 (if id = v then delta else 0) := by
  unfold cacheIncrUserQuota
  rw [if_neg (by rw [hredis]; decide)]
  exact moves_cacheApply hw hans ..

/-- A credit that is not positive is not synchronised. -/
theorem moves_syncCredit (hans : answers = true) (userId quota : Int) :
    Wallet.Moves v w (syncCreditUserQuotaCache cfg answers userId quota w) 0
      (if userId = v ∧ 0 < quota then quota else 0) := by
  unfold syncCreditUserQuotaCache
  by_cases hq : quota ≤ 0
  · have hno : ¬ (userId = v ∧ 0 < quota) := by
      rintro ⟨-, hpos⟩
      omega
    rw [if_pos hq, if_neg hno]
    exact .refl v w
  · have hpos : 0 < quota := by omega
    simp only [if_neg hq, hpos, and_true]
    exact moves_cacheIncr hw hredis hans ..

end Redis

/-! ### The functions that know the row alone -/

theorem moves_refund (hw : w.Live v) (env : RefundWalletEnv)
    (userId quota : Int) (refType : RefType) (refId : Int) :
    Wallet.Moves v w (refundWalletQuota env userId quota refType refId w).2
      (if userId = v ∧ RefundCommits env userId quota w.db then quota else 0) 0 := by
  have hrow : (refundWalletQuota env userId quota refType refId w).2
      = { w with db := (refundWalletQuota env userId quota refType refId w).2.db } := by
    unfold refundWalletQuota
    split <;> rfl
  rw [hrow]
  exact .of_db hw quotaMoves_refund

theorem moves_transfer (hw : w.Live v) (env : TransferEnv) (id quota : Int) :
    Wallet.Moves v w (transferAffQuotaToQuota cfg env id quota w).2
      (if id = v ∧ TransferCommits cfg env id quota w.db then quota else 0) 0 := by
  have hrow : (transferAffQuotaToQuota cfg env id quota w).2
      = { w with db := (transferAffQuotaToQuota cfg env id quota w).2.db } := by
    unfold transferAffQuotaToQuota
    split <;> rfl
  rw [hrow]
  exact .of_db hw quotaMoves_transfer

/-! ### Reserving -/

variable {id : Int}

theorem moves_setCache_other (h : ¬ id = v) (quota : Int) : Wallet.Moves v w (w.setCache id quota) 0 0 := by
  have h' : ¬ v = id := fun e => h e.symm
  refine ⟨(add_zero _).symm, ?_, rfl⟩
  simp [Wallet.setCache, h']

theorem moves_reserveScript_other (h : ¬ id = v) (answers : Bool) (amount : Int) :
    Wallet.Moves v w (cacheTryReserveUserQuota answers id amount w).2 0 0 := by
  unfold cacheTryReserveUserQuota
  split
  · exact .refl v w
  split
  · exact .refl v w
  split
  · exact .refl v w
  · exact moves_setCache_other h _

/-- A reservation for another user may fill that user's hash, and no other. -/
theorem moves_reserveInCache_other (h : ¬ id = v) (env : ReserveEnv) (quota : Int) :
    Wallet.Moves v w (reserveInCache env id quota w).2 0 0 := by
  have hfirst := moves_reserveScript_other (w := w) h env.firstAnswers quota
  unfold reserveInCache
  split
  next w₁ heq =>
    rw [heq] at hfirst
    have hhydrate : Wallet.Moves v w₁ (getUserCache env.hydration id w₁).2 0 0 := by
      unfold getUserCache
      split
      · exact .refl v w₁
      · exact .refl v w₁
      · exact .refl v w₁
      · exact moves_setCache_other h _
    split
    next w₂ heq' =>
      rw [heq'] at hhydrate
      exact (hfirst.trans hhydrate).trans (moves_reserveScript_other h env.secondAnswers quota)
    next w₂ heq' =>
      rw [heq'] at hhydrate
      exact hfirst.trans hhydrate
  · exact hfirst

theorem moves_reserveDB_other (hw : w.Live v) (h : ¬ id = v) (dbOk : Bool) (quota : Int) :
    Wallet.Moves v w (reserveUserQuotaDB dbOk id quota w).2 0 0 := by
  have hadd := moves_addQuota hw id (-quota)
  rw [if_neg h] at hadd
  unfold reserveUserQuotaDB
  split
  · exact .refl v w
  split
  · exact .refl v w
  split
  · exact hadd
  · exact .refl v w

theorem persist_cases (hw : w.Live v) (dbOk : Bool) (id delta : Int) :
    (∃ e, persistUserQuotaDelta cfg dbOk id delta w = (.error e, w)) ∨
      ∃ w', persistUserQuotaDelta cfg dbOk id delta w = (.ok (), w') ∧
        Wallet.Moves v w w' (if id = v then delta else 0) 0 := by
  unfold persistUserQuotaDelta
  split
  · exact Or.inr ⟨_, rfl, moves_addNewRecord v w id delta⟩
  split
  · exact Or.inl ⟨_, rfl⟩
  split
  · exact Or.inl ⟨_, rfl⟩
  · exact Or.inr ⟨_, rfl, moves_addQuota hw id delta⟩

variable {env : ReserveEnv}

/-- A reservation in a live hash reads that hash alone. -/
theorem reserveInCache_live {v c : Int} (hc : w.cache v = some c)
    (hans : env.firstAnswers = true) (quota : Int) : reserveInCache env v quota w
      = if c < quota then (.ok .insufficient, w) else (.ok .ok, w.setCache v (c - quota)) := by
  unfold reserveInCache cacheTryReserveUserQuota
  rw [hans, if_neg (by decide), hc]
  by_cases h : c < quota
  · simp only [h, if_true]
  · simp only [h, if_false]

section Redis

variable (hw : w.Live v) {cfg : WalletConfig} (hredis : cfg.redisEnabled = true)
include hw hredis

/-- The user's own reservation. -/
theorem moves_tryReserve_self (hfirst : env.firstAnswers = true)
    (hcomp : env.compensationAnswers = true) (quota : Int) :
    ∃ d, Wallet.Moves v w (tryReserveUserQuota cfg env v quota w).2 d d := by
  unfold tryReserveUserQuota
  split
  · exact ⟨0, .refl v w⟩
  split
  · exact ⟨0, .refl v w⟩
  rw [if_neg (by rw [hredis]; decide)]
  obtain ⟨c, hc⟩ := Option.isSome_iff_exists.mp hw.hash
  rw [reserveInCache_live hc hfirst]
  by_cases hlow : c < quota
  · rw [if_pos hlow]
    exact ⟨0, .refl v w⟩
  rw [if_neg hlow]
  have htake : Wallet.Moves v w (w.setCache v (c - quota)) 0 (-quota) := by
    have h := moves_setCache (v := v) hc (-quota)
    rwa [if_pos rfl] at h
  have hw₁ := htake.live hw
  -- the hash has paid; now the row or the batch has to, or the hash gets it back
  obtain ⟨e, hpersist⟩ | ⟨w', hpersist, hmove⟩ :=
    persist_cases cfg hw₁ env.dbOk v (-quota)
  · simp only [hpersist]
    refine ⟨0, ?_⟩
    have h := htake.trans (moves_cacheApply hw₁ hcomp v quota)
    rwa [if_pos rfl, neg_add_cancel] at h
  · simp only [hpersist]
    refine ⟨-quota, ?_⟩
    have h := htake.trans hmove
    rwa [if_pos rfl, add_zero, zero_add] at h

/-- A reservation of another user touches nothing of `v` on any path. -/
theorem moves_tryReserve_other (hcomp : env.compensationAnswers = true) (hid : ¬ id = v) (quota : Int) :
    Wallet.Moves v w (tryReserveUserQuota cfg env id quota w).2 0 0 := by
  unfold tryReserveUserQuota
  split
  · exact .refl v w
  split
  · exact .refl v w
  rw [if_neg (by rw [hredis]; decide)]
  have hcache := moves_reserveInCache_other (w := w) hid env quota
  split
  next heq =>
    rw [heq] at hcache
    exact hcache.trans (moves_reserveDB_other (hcache.live hw) hid env.dbOk quota)
  next heq =>
    rw [heq] at hcache
    exact hcache.trans (moves_reserveDB_other (hcache.live hw) hid env.dbOk quota)
  next heq =>
    rw [heq] at hcache
    exact hcache
  rename_i w₁ heq
  rw [heq] at hcache
  obtain ⟨e, hpersist⟩ | ⟨w', hpersist, hmove⟩ :=
    persist_cases cfg (hcache.live hw) env.dbOk id (-quota)
  · simp only [hpersist]
    have h := hcache.trans (moves_cacheApply (hcache.live hw) hcomp id quota)
    rwa [if_neg hid] at h
  · simp only [hpersist]
    have h := hcache.trans hmove
    rwa [if_neg hid] at h

/-- **A reservation takes as much from the hash as from what is stored.** -/
theorem moves_tryReserve (hfirst : env.firstAnswers = true)
    (hcomp : env.compensationAnswers = true) (id quota : Int) :
    ∃ d, Wallet.Moves v w (tryReserveUserQuota cfg env id quota w).2 d d := by
  by_cases hid : id = v
  · subst hid
    exact moves_tryReserve_self hw hredis hfirst hcomp quota
  · exact ⟨0, moves_tryReserve_other hw hredis hcomp hid quota⟩

/-! ### Increasing, decreasing, flushing -/

/-- Where the row's part of a move ends up: in the batch, or in the row if
the UPDATE goes through. -/
def MoveLands (cfg : WalletConfig) (env : MoveEnv) (db : Bool) : Prop :=
  (db = false ∧ cfg.batchUpdateEnabled = true) ∨ env.dbOk = true
deriving Decidable

/-- The hash is moved first, whatever becomes of the row. -/
theorem moves_moveUserQuota {env : MoveEnv} (hans : env.redisAnswers = true) (id delta : Int)
    (db : Bool) : Wallet.Moves v w (moveUserQuota cfg env id delta db w).2
      (if id = v ∧ MoveLands cfg env db then delta else 0) (if id = v then delta else 0) := by
  have hcache := moves_cacheIncr hw hredis hans id delta
  have hw₁ := hcache.live hw
  unfold moveUserQuota
  split
  next hbatch =>
    have hlands : MoveLands cfg env db := Or.inl hbatch
    have h := hcache.trans (moves_addNewRecord v _ id delta)
    simpa only [hlands, and_true, zero_add, add_zero] using h
  next hbatch =>
    split
    next hdb =>
      have hlost : ¬ MoveLands cfg env db := by
        rintro (h | h)
        · exact hbatch h
        · rw [hdb] at h
          cases h
      simpa only [hlost, and_false, if_false] using hcache
    next hdb =>
      have hlands : MoveLands cfg env db := Or.inr (by simpa using hdb)
      have h := hcache.trans (moves_addQuota hw₁ id delta)
      simpa only [hlands, and_true, zero_add, add_zero] using h

end Redis

/-- The batch updater moves the delta into the row, or loses it. -/
theorem moves_applyBatch (hw : w.Live v) (dbOk : Bool) (id : Int) :
    Wallet.Moves v w (applyBatch dbOk id w) (if id = v ∧ dbOk = false then -w.pending v else 0) 0 := by
  have hdrop : Wallet.Moves v w { w with pending := fun u => if u = id then 0 else w.pending u }
      (if id = v then -w.pending v else 0) 0 := by
    refine ⟨?_, by simp, rfl⟩
    by_cases h : v = id
    · subst h
      simp [Wallet.stored]
    · have h' : ¬ id = v := fun e => h e.symm
      simp [Wallet.stored, h, h']
  unfold applyBatch
  cases dbOk with
  | false => simpa using hdrop
  | true =>
    have h := hdrop.trans (moves_addQuota (hdrop.live hw) id (w.pending id))
    by_cases hid : id = v
    · subst hid
      simpa using h
    · simpa [hid] using h

end MicrossApi
