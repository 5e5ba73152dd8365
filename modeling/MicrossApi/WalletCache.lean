/-
MicrossApi/WalletCache.lean

Coherence of the wallet cache.  A reservation decides on the cached quota
alone, so as long as a user's hash lives, that number should move with what is
stored for the user: with the row and the batch delta together.

Most wallet functions keep the two in step.  Four do not.  `refundWalletQuota`
and `TransferAffQuotaToQuota` credit the row and never tell the hash; a code
of negative value is subtracted from the row, but `syncCreditUserQuotaCache`
skips it; and `IncreaseUserQuota` and `DecreaseUserQuota` move the hash before
an UPDATE that may fail (the batch updater, likewise, only logs one that
does).  `KeepsPace` says from the state before a call that none of this
happens, and `wallet_cache_coherence` that it is the exact condition.
-/
import MicrossApi.WalletMoves

namespace MicrossApi

open StepSystem

/-! ### Calls -/

/-- A call that moves a wallet, with what its environment answers. -/
inductive WalletOp where
  | tryReserve (env : ReserveEnv) (id quota : Int)
  | increase (env : MoveEnv) (id quota : Int) (db : Bool)
  | decrease (env : MoveEnv) (id quota : Int) (db : Bool)
  | refund (env : RefundWalletEnv) (userId quota : Int) (refType : RefType) (refId : Int)
  | topUp (redisAnswers : Bool) (op : TopUpOp)
  | redeem (env : RedeemEnv) (key : String) (userId : Int)
  | purchase (env : PurchaseEnv) (userId planId : Int)
  | issue (env : IssueEnv) (agentId customerId quota : Int)
  | transferAff (env : TransferEnv) (id quota : Int)
  | applyBatch (dbOk : Bool) (id : Int)

/-- The wallet after a call. -/
def walletStep (cfg : WalletConfig) (w : Wallet) : WalletOp → Wallet
  | .tryReserve env id quota => (tryReserveUserQuota cfg env id quota w).2
  | .increase env id quota db => (increaseUserQuota cfg env id quota db w).2
  | .decrease env id quota db => (decreaseUserQuota cfg env id quota db w).2
  | .refund env userId quota refType refId => (refundWalletQuota env userId quota refType refId w).2
  | .topUp redisAnswers op => (topUpCredit cfg redisAnswers op w).2
  | .redeem env key userId => (redeem cfg env key userId w).2
  | .purchase env userId planId => (purchaseSubscriptionWithBalance cfg env userId planId w).2
  | .issue env agentId customerId quota =>
    (issueQuotaToCustomer cfg env agentId customerId quota w).2
  | .transferAff env id quota => (transferAffQuotaToQuota cfg env id quota w).2
  | .applyBatch dbOk id => applyBatch dbOk id w

/-- Redis answers every script of the call. -/
def WalletOp.RedisAnswers : WalletOp → Prop
  | .tryReserve env _ _ =>
    env.firstAnswers = true ∧ env.secondAnswers = true ∧ env.compensationAnswers = true
  | .increase env _ _ _ => env.redisAnswers = true
  | .decrease env _ _ _ => env.redisAnswers = true
  | .topUp redisAnswers _ => redisAnswers = true
  | .redeem env _ _ => env.redisAnswers = true
  | .purchase env _ _ => env.redisAnswers = true
  | .issue env _ _ _ => env.agentRedisAnswers = true ∧ env.customerRedisAnswers = true
  | .refund .. | .transferAff .. | .applyBatch .. => True

/-- The cached quota of a live hash. -/
def Wallet.cachedQuota (w : Wallet) (v : Int) : Int := (w.cache v).getD 0

/-- The call does not take one of the paths that leave the hash of `v`
behind. -/
def KeepsPace (cfg : WalletConfig) (v : Int) (w : Wallet) : WalletOp → Prop
  | .increase env id quota db => id = v → 0 < quota → MoveLands cfg env db
  | .decrease env id quota db => id = v → 0 < quota → MoveLands cfg env db
  | .refund env userId quota _ _ => userId = v → ¬ RefundCommits env userId quota w.db
  | .redeem env key userId => userId = v → ∀ code ∈ redeemedCode env key userId w.db, 0 ≤ code.quota
  | .transferAff env id quota => id = v → quota = 0 ∨ ¬ TransferCommits cfg env id quota w.db
  | .applyBatch dbOk id => id = v → dbOk = true ∨ w.pending v = 0
  | .tryReserve .. | .topUp .. | .purchase .. | .issue .. => True

instance (cfg v w op) : Decidable (KeepsPace cfg v w op) := by
  unfold KeepsPace
  split <;> infer_instance

/-! ### One call -/

section Step

variable {cfg : WalletConfig} {v : Int} {w : Wallet}

/-- The two move by known amounts, which agree exactly under the
condition. -/
def StepMoves (cfg : WalletConfig) (v : Int) (w : Wallet) (op : WalletOp) : Prop :=
  ∃ a b, Wallet.Moves v w (walletStep cfg w op) a b ∧ (a = b ↔ KeepsPace cfg v w op)

/-- A credit of the row alone keeps pace when it is none. -/
theorem rowAlone_eq_zero_iff {id amount : Int} {P : Prop} [Decidable P] :
    (if id = v ∧ P then amount else 0) = 0 ↔ (id = v → amount = 0 ∨ ¬ P) := by
  by_cases hid : id = v
  · by_cases hP : P <;> simp [hP]
  · simp [hid]

variable (hw : w.Live v) (hredis : cfg.redisEnabled = true)
include hw hredis

/-- `IncreaseUserQuota` and `DecreaseUserQuota`: `delta` is `quota` with the
sign of the direction. -/
theorem stepMoves_move {env : MoveEnv} (hans : env.redisAnswers = true) (id : Int) (db : Bool)
    {quota delta : Int}
    (hsign : 0 ≤ quota → (0 < quota ↔ delta ≠ 0)) (refused : Except Err Unit) :
    ∃ a b, Wallet.Moves v w (if quota < 0 then (refused, w) else moveUserQuota cfg env id delta db w).2 a b ∧
      (a = b ↔ (id = v → 0 < quota → MoveLands cfg env db)) := by
  by_cases hneg : quota < 0
  · rw [if_pos hneg]
    exact ⟨0, 0, .refl v w, by simp only [true_iff]; omega⟩
  rw [if_neg hneg, hsign (not_lt.mp hneg)]
  refine ⟨_, _, moves_moveUserQuota hw hredis hans id delta db, ?_⟩
  by_cases hid : id = v
  · by_cases hlands : MoveLands cfg env db
    · simp [hlands]
    · simp [hlands, eq_comm]
  · simp [hid]

theorem stepMoves_topUp (op : TopUpOp) :
    ∃ d, Wallet.Moves v w (topUpCredit cfg true op w).2 d d := by
  have hdb := quotaMoves_topUp w.db cfg.quotaPerUnit op v
  unfold topUpCredit
  cases op.outcome cfg.quotaPerUnit w.db with
  | unchanged answer store =>
    -- no credit is reported, so nothing is synchronised
    refine ⟨0, ?_⟩
    rcases hrun : op.perform cfg.quotaPerUnit w.db with ⟨e | - | c, db'⟩
    · rw [hrun] at store
      subst store
      exact .refl v w
    · rw [hrun] at store
      subst store
      exact .refl v w
    · rw [hrun] at answer
      cases answer
  | closed t target found pending result =>
    rw [result] at hdb ⊢
    exact ⟨0, .of_db hw hdb⟩
  | credited t method now quota updates u found pending user amount pos below result =>
    rw [result] at hdb ⊢
    refine ⟨if t.userId = v then quota else 0, ?_⟩
    rw [creditOf, creditSum_singleton] at hdb
    have hcredit := Wallet.Moves.of_db hw hdb
    have h := hcredit.trans (moves_syncCredit (hcredit.live hw) hredis rfl t.userId quota)
    simpa only [pos, and_true, add_zero, zero_add] using h

theorem stepMoves_redeem {env : RedeemEnv} (hans : env.redisAnswers = true) (key : String) (userId : Int) :
    StepMoves cfg v w (.redeem env key userId) := by
  simp only [StepMoves, walletStep, KeepsPace]
  obtain ⟨hnone, hsame⟩ | ⟨code, hcode, hdone⟩ := redeem_cases cfg env key userId w
  · rw [hsame, hnone]
    exact ⟨0, 0, .refl v w, by simp⟩
  rw [hdone, hcode]
  have hdb := Wallet.Moves.of_db hw (quotaMoves_redeemed w.db v code userId env.now)
  refine ⟨_, _, hdb.trans (moves_syncCredit (hdb.live hw) hredis hans userId code.quota), ?_⟩
  by_cases hid : userId = v
  · by_cases hpos : 0 < code.quota
    · simp [hpos, le_of_lt hpos]
    simp only [hid, hpos, and_false, if_true, if_false, Option.mem_def, Option.some.injEq]
    constructor
    · rintro h - c rfl
      omega
    · intro h
      have := h trivial code rfl
      omega
  · simp [hid]

theorem stepMoves_purchase {env : PurchaseEnv} (hans : env.redisAnswers = true) (userId planId : Int) :
    ∃ d, Wallet.Moves v w (purchaseSubscriptionWithBalance cfg env userId planId w).2 d d := by
  obtain hsame | ⟨charged, db', hdone, hmoves⟩ := purchase_cases cfg env userId planId w
  · rw [hsame]
    exact ⟨0, .refl v w⟩
  rw [hdone]
  have hdb := Wallet.Moves.of_db hw (hmoves v)
  refine ⟨if userId = v ∧ 0 < charged then -charged else 0, ?_⟩
  by_cases hpos : 0 < charged
  · rw [if_pos hpos, cacheDecrUserQuota]
    have h := hdb.trans (moves_cacheIncr (hdb.live hw) hredis hans userId (-charged))
    simpa only [hpos, and_true, add_zero, zero_add] using h
  · simpa only [hpos, and_false, if_false] using hdb

theorem stepMoves_issue {env : IssueEnv} (hagent : env.agentRedisAnswers = true)
    (hcustomer : env.customerRedisAnswers = true) (agentId customerId quota : Int) :
    ∃ d, Wallet.Moves v w (issueQuotaToCustomer cfg env agentId customerId quota w).2 d d := by
  obtain ⟨-, hsame⟩ | ⟨cost, -, hdone⟩ := issue_cases cfg env agentId customerId quota w
  · rw [hsame]
    exact ⟨0, .refl v w⟩
  rw [hdone]
  have hdb := Wallet.Moves.of_db hw
    (quotaMoves_issued w.db v agentId customerId cost quota)
  have hdebit := hdb.trans (moves_cacheIncr (hdb.live hw) hredis hagent agentId (-cost))
  have h := hdebit.trans
    (moves_cacheIncr (hdebit.live hw) hredis hcustomer customerId quota)
  rw [add_zero, add_zero, zero_add] at h
  exact ⟨_, h⟩

theorem stepMoves {op : WalletOp} (hans : op.RedisAnswers) : StepMoves cfg v w op := by
  cases op with
  | tryReserve env id quota =>
    obtain ⟨d, h⟩ := moves_tryReserve hw hredis hans.1 hans.2.2 id quota
    exact ⟨d, d, h, by simp [KeepsPace]⟩
  | increase env id quota db => exact stepMoves_move hw hredis hans id db (fun _ => by omega) _
  | decrease env id quota db => exact stepMoves_move hw hredis hans id db (fun _ => by omega) _
  | refund env userId quota refType refId =>
    refine ⟨_, 0, moves_refund hw env userId quota refType refId, rowAlone_eq_zero_iff.trans ?_⟩
    -- a refund that commits is never zero
    have hpos : RefundCommits env userId quota w.db → ¬ quota = 0 := by
      intro hcommits
      have := hcommits.1
      omega
    constructor
    · rintro h hid hcommits
      exact (h hid).elim (hpos hcommits) fun hno => hno hcommits
    · intro h hid
      exact Or.inr (h hid)
  | topUp redisAnswers op =>
    obtain rfl : redisAnswers = true := hans
    obtain ⟨d, h⟩ := stepMoves_topUp hw hredis op
    exact ⟨d, d, h, by simp [KeepsPace]⟩
  | redeem => exact stepMoves_redeem hw hredis hans ..
  | purchase env userId planId =>
    obtain ⟨d, h⟩ := stepMoves_purchase hw hredis hans userId planId
    exact ⟨d, d, h, by simp [KeepsPace]⟩
  | issue env agentId customerId quota =>
    obtain ⟨d, h⟩ := stepMoves_issue hw hredis hans.1 hans.2 agentId customerId quota
    exact ⟨d, d, h, by simp [KeepsPace]⟩
  | transferAff env id quota =>
    exact ⟨_, 0, moves_transfer cfg hw env id quota, rowAlone_eq_zero_iff⟩
  | applyBatch dbOk id =>
    refine ⟨_, 0, moves_applyBatch hw dbOk id, ?_⟩
    simp only [KeepsPace]
    by_cases hid : id = v
    · cases dbOk with
      | false => simp
      | true => simp
    · simp [hid]

/-- A call leaves `v` live, and moves its cached quota as much as what is
stored exactly under the condition. -/
theorem walletStep_keepsPace_iff {op : WalletOp} (hans : op.RedisAnswers) : (walletStep cfg w op).Live v ∧
      ((walletStep cfg w op).cachedQuota v - w.cachedQuota v
          = (walletStep cfg w op).stored v - w.stored v ↔ KeepsPace cfg v w op) := by
  obtain ⟨a, b, hmoves, hiff⟩ := stepMoves hw hredis hans
  refine ⟨hmoves.live hw, ?_⟩
  obtain ⟨c, hc⟩ := Option.isSome_iff_exists.mp hw.hash
  have hcached : (walletStep cfg w op).cachedQuota v = c + b := by
    rw [Wallet.cachedQuota, hmoves.cached, hc]
    rfl
  have hbefore : w.cachedQuota v = c := by
    rw [Wallet.cachedQuota, hc]
    rfl
  rw [hcached, hmoves.stored, ← hiff]
  constructor <;> intro h <;> omega

end Step

/-! ### Runs -/

/-- **Coherence of the wallet cache.**  Redis is on and answers, and user `v`
has a row and a live hash.  Then a call moves the cached quota of `v` by as
much as what is stored exactly when it keeps pace, and over a run of calls
that all do the difference of the two is constant. -/
theorem wallet_cache_coherence (cfg : WalletConfig) (hredis : cfg.redisEnabled = true) (v : Int)
    (w : Wallet) (hw : w.Live v) : (∀ op : WalletOp, op.RedisAnswers →
      ((walletStep cfg w op).cachedQuota v - w.cachedQuota v
          = (walletStep cfg w op).stored v - w.stored v ↔ KeepsPace cfg v w op)) ∧
    ∀ ops : List WalletOp, (∀ op ∈ ops, op.RedisAnswers) → Along (walletStep cfg) (KeepsPace cfg v) w ops →
      (exec (walletStep cfg) w ops).Live v ∧
        (exec (walletStep cfg) w ops).cachedQuota v - (exec (walletStep cfg) w ops).stored v
          = w.cachedQuota v - w.stored v := by
  refine ⟨fun op hans => (walletStep_keepsPace_iff hw hredis hans).2, fun ops => ?_⟩
  -- induction on the run; the invariant is the difference together with `Live`
  induction ops generalizing w with
  | nil => exact fun _ _ => ⟨hw, rfl⟩
  | cons op ops ih =>
    intro hans hpace
    obtain ⟨hlive, hiff⟩ := walletStep_keepsPace_iff hw hredis (hans op List.mem_cons_self)
    have hstep := hiff.mpr hpace.1
    obtain ⟨hlive', hrun⟩ := ih (walletStep cfg w op) hlive
      (fun o ho => hans o (List.mem_cons_of_mem op ho)) hpace.2
    refine ⟨hlive', ?_⟩
    rw [exec_cons]
    omega

/-- Redis on, no batch, rates as `decimal` reads them. -/
def directConfig : WalletConfig where
  newFromString s := if s = "1.000000" then some 1 else none
  calendar := utcDays

/-- Agent 1 with 1000, its customer 2 with 100, both cached, and a code
worth 50. -/
def agentAndCustomer : Wallet where
  db :=
    { users :=
        { rows :=
            [{ id := 1, quota := 1000, subjectType := .agent },
             { id := 2, quota := 100, parentAgentId := 1 }]
          nodup := by decide }
      redemptions := { rows := [{ id := 9, key := "code", quota := 50 }], nodup := by decide }
      agentProfiles := { rows := [{ userId := 1 }], nodup := by decide } }
  cache u := if u = 1 then some 1000 else if u = 2 then some 100 else none

theorem live_agentAndCustomer : agentAndCustomer.Live 2 := ⟨by decide, by decide⟩

/-- A reservation of 30, an increase by 10, the code and an issue of 200: the
customer ends with 330 in both places. -/
theorem wallet_cache_coherence_mixedRun :
    let ops := [WalletOp.tryReserve {} 2 30, .increase {} 2 10 false, .redeem {} "code" 2,
      .issue {} 1 2 200]
    agentAndCustomer.Live 2 ∧ directConfig.redisEnabled = true ∧
      Along (walletStep directConfig) (KeepsPace directConfig 2) agentAndCustomer ops ∧
      (exec (walletStep directConfig) agentAndCustomer ops).stored 2 = 330 ∧
      (exec (walletStep directConfig) agentAndCustomer ops).cachedQuota 2 = 330 := by
  intro ops
  have hans : ∀ op ∈ ops, op.RedisAnswers := by
    intro op hop
    simp only [ops, List.mem_cons, List.not_mem_nil, or_false] at hop
    rcases hop with rfl | rfl | rfl | rfl
    · exact ⟨rfl, rfl, rfl⟩
    · rfl
    · rfl
    · exact ⟨rfl, rfl⟩
  have hpace : Along (walletStep directConfig) (KeepsPace directConfig 2) agentAndCustomer ops := by
    decide +kernel
  have hstored : (exec (walletStep directConfig) agentAndCustomer ops).stored 2 = 330 := by
    decide +kernel
  obtain ⟨-, hconst⟩ := (wallet_cache_coherence directConfig rfl 2 agentAndCustomer
    live_agentAndCustomer).2 ops hans hpace
  refine ⟨live_agentAndCustomer, rfl, hpace, hstored, ?_⟩
  have hstart : agentAndCustomer.cachedQuota 2 - agentAndCustomer.stored 2 = 0 := by decide
  omega

/-- The refund of a session raises the row from 100 to 140 and leaves 100 in
the hash. -/
theorem refund_leaves_hash_behind : agentAndCustomer.Live 2 ∧ directConfig.redisEnabled = true ∧
      (WalletOp.refund {} 2 40 .billingSessionRefund 0).RedisAnswers ∧
      ¬ ((walletStep directConfig agentAndCustomer (.refund {} 2 40 .billingSessionRefund 0)).cachedQuota 2
            - agentAndCustomer.cachedQuota 2 = (walletStep directConfig agentAndCustomer
              (.refund {} 2 40 .billingSessionRefund 0)).stored 2 - agentAndCustomer.stored 2) :=
  ⟨live_agentAndCustomer, rfl, trivial, by decide +kernel⟩

end MicrossApi
