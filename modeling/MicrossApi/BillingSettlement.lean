/-
MicrossApi/BillingSettlement.lean

A billing session is settled exactly once.  Over any order of `Reserve`,
`Settle` and `Refund` the session is in one of three phases:

  * `Holding`: the funding source and the token hold exactly
    `preConsumedQuota`;
  * `Settled`: some `Settle` has committed, and nothing moves any more;
  * refunded: what was held goes back when the goroutine runs, and nothing
    else moves.

`Holding` is the invariant that carries the argument (`Holding.reserve`); a
`Settle` that commits and a `Refund` that takes effect are its two exits
(`Holding.settle`, `Holding.refund`), and the other two phases are closed
(`billingStep_of_settled`, `runJob_billingStep_of_refunded`).

Two things the code does on purpose show in the statement.  A token step that
fails after the funding source has moved is only logged, so the token then
keeps the estimate.  And a subscription's used amount is clamped at zero, so a
negative actual amount gives back at most what was used.
-/
import MicrossApi.BillingSession
import MicrossApi.StepSystem

namespace MicrossApi

open StepSystem
open BillingState (runJob)

/-! ### Runs of a session -/

/-- An operation on a session, with what its database calls answer; `job` lets
the refund goroutine run. -/
inductive BillingOp where
  | reserve (targetQuota : Int) (funding token : Option Err)
  | settle (actualQuota : Int) (funding token : Option Err)
  | refund
  | job

variable (st : BillingState) {acc' : Accounts} {delta : Int} {answer : Option Err} {acc : Accounts}
  {n : Int} {s : BillingSession} {f : FundingSource}

/-- The state after one operation. -/
def billingStep : BillingOp → BillingState
  | .reserve targetQuota funding token => (st.reserve targetQuota funding token).2
  | .settle actualQuota funding token => (st.settle actualQuota funding token).2
  | .refund => st.refund
  | .job => st.runJob

/-- A `Settle` that commits: the actual amount, the amount held at that
moment, and whether the token step went through. -/
structure Commit where
  actual : Int
  held : Int
  tokenOk : Bool
deriving DecidableEq

/-- The operation is a `Settle` of a session not settled yet, and its
difference is zero or its funding step succeeds. -/
def commitOf : BillingOp → Option Commit
  | .settle actual funding token =>
    let s := st.session
    if s.settled then none
    else
      match s.funding.settle (actual - s.preConsumedQuota) funding st.accounts with
      | .ok _ => some ⟨actual, s.preConsumedQuota, decide (token = none)⟩
      | .error _ => none
  | _ => none

/-- The first `Settle` of the run that commits. -/
def firstCommit : BillingState → List BillingOp → Option Commit
  | _, [] => none
  | st, op :: ops =>
    match commitOf st op with
    | some c => some c
    | none => firstCommit (billingStep st op) ops

/-- Some `Refund` of the run takes effect. -/
def refundTookEffect : BillingState → List BillingOp → Prop
  | _, [] => False
  | st, op :: ops =>
    (op = .refund ∧ st.session.RefundTakesEffect) ∨ refundTookEffect (billingStep st op) ops

/-- The handler refunds last: no `Settle` once a `Refund` has taken effect. -/
def SettlesBeforeRefund : BillingOp → Prop
  | .settle _ _ _ => st.session.refunded = false
  | _ => True

/-! ### What has been taken -/

/-- `BillingSourceWallet` and `BillingSourceSubscription`. -/
inductive BillingSource where
  | wallet
  | subscription
deriving DecidableEq

/-- `FundingSource.Source`. -/
def FundingSource.source : FundingSource → BillingSource
  | .wallet _ => .wallet
  | .subscription _ _ _ => .subscription

/-- The net amount taken from the funding source since `acc₀`. -/
def netFunding (src : BillingSource) (acc₀ acc : Accounts) : Int :=
  match src with
  | .wallet => acc₀.walletQuota - acc.walletQuota
  | .subscription => acc.subscription.amountUsed - acc₀.subscription.amountUsed

/-- The net amount taken from the token since `acc₀`. -/
def netToken (acc₀ acc : Accounts) : Int := acc₀.tokenRemain - acc.tokenRemain

/-- What a committed `Settle` of `actual` leaves taken from the source: a
subscription gives back no more than was used before the session. -/
def settledAmount (src : BillingSource) (acc₀ : Accounts) (actual : Int) : Int :=
  match src with
  | .wallet => actual
  | .subscription => max (-acc₀.subscription.amountUsed) actual

/-! ### Moving a subscription -/

/-- The used amount respects the total, if there is one. -/
def Accounts.Within (acc : Accounts) : Prop :=
  acc.subscription.amountTotal ≤ 0 ∨ acc.subscription.amountUsed ≤ acc.subscription.amountTotal

/-- The accounts after the used amount has moved by `delta`. -/
def Accounts.used (acc : Accounts) (delta : Int) : Accounts :=
  { acc with
    subscription :=
      { acc.subscription with
        amountUsed := max 0 (acc.subscription.amountUsed + delta)
        used_nonneg := le_max_left _ _ } }

/-- A successful call moves the used amount by `delta` and keeps it within the
total. -/
theorem Accounts.postConsumeDelta_ok {acc : Accounts} {id : Int}
    (hdelta : delta ≠ 0) (h : acc.postConsumeDelta id delta answer = .ok acc') :
    acc' = acc.used delta ∧ acc'.Within := by
  rcases answer with - | e
  · simp only [Accounts.postConsumeDelta, SubscriptionAccount.postConsumeDelta] at h
    split at h
    · cases h
    split at h
    · cases h
    split at h
    · cases h
    cases h
    refine ⟨rfl, ?_⟩
    show acc.subscription.amountTotal ≤ 0 ∨
      max 0 (acc.subscription.amountUsed + delta) ≤ acc.subscription.amountTotal
    omega
  · simp only [Accounts.postConsumeDelta, SubscriptionAccount.postConsumeDelta] at h
    split at h <;> cases h

/-- Giving back is never refused. -/
theorem Accounts.postConsumeDelta_neg (hn : 0 < n) (hw : acc.Within) :
    acc.postConsumeDelta acc.subscription.id (-n) none = .ok (acc.used (-n)) := by
  have hid := acc.subscription.id_pos
  have hroom : ¬ (0 < acc.subscription.amountTotal ∧
      acc.subscription.amountTotal < max 0 (acc.subscription.amountUsed + -n)) := by
    unfold Accounts.Within at hw
    omega
  simp only [Accounts.postConsumeDelta, SubscriptionAccount.postConsumeDelta, not_le.mpr hid,
    neg_eq_zero, ne_of_gt hn, ne_eq, hroom]
  rfl

theorem Accounts.within_used_neg (hn : 0 ≤ n) (hw : acc.Within) : (acc.used (-n)).Within := by
  unfold Accounts.Within Accounts.used at *
  dsimp only
  omega

/-! ### Holding -/

/-- The funding source of `s` holds exactly `preConsumedQuota`. -/
def SourceHolds (acc₀ : Accounts) (s : BillingSession) (acc : Accounts) : Prop :=
  match s.funding with
  | .wallet consumed =>
    consumed = s.preConsumedQuota ∧ acc.walletQuota = acc₀.walletQuota - s.preConsumedQuota
  | .subscription _ id preConsumed =>
    -- the record covers the first estimate, the extra reserve the rest
    id = acc.subscription.id ∧ s.relaySubscriptionId = id ∧ 0 < preConsumed ∧
      0 ≤ s.extraReserved ∧ s.preConsumedQuota = preConsumed + s.extraReserved ∧
      acc.record = some ⟨id, preConsumed, false⟩ ∧ acc.Within ∧
      acc.subscription.amountUsed = acc₀.subscription.amountUsed + s.preConsumedQuota

/-- A session neither settled nor refunded, opened on the accounts `acc₀`:
source and token hold exactly `preConsumedQuota`. -/
structure Holding (acc₀ : Accounts) (src : BillingSource) (pg : Bool)
    (st : BillingState) : Prop where
  pending : st.pending = none
  settled : st.session.settled = false
  fundingSettled : st.session.fundingSettled = false
  refunded : st.session.refunded = false
  playground : st.session.isPlayground = pg
  source : st.session.funding.source = src
  nonneg : 0 ≤ st.session.preConsumedQuota
  tokenConsumed : st.session.tokenConsumed = st.session.preConsumedQuota
  holds : SourceHolds acc₀ st.session st.accounts
  token : netToken acc₀ st.accounts = if pg then 0 else st.session.preConsumedQuota

/-- What is held is what has been taken. -/
theorem Holding.netFunding {acc₀ : Accounts} {src : BillingSource} {pg : Bool} {st : BillingState}
    (h : Holding acc₀ src pg st) : netFunding src acc₀ st.accounts = st.session.preConsumedQuota := by
  have hs := h.holds
  have hk := h.source
  unfold SourceHolds at hs
  rcases hf : st.session.funding with consumed | ⟨own, id, preConsumed⟩
  · rw [hf] at hs hk
    cases hk
    show acc₀.walletQuota - st.accounts.walletQuota = _
    omega
  · rw [hf] at hs hk
    cases hk
    show st.accounts.subscription.amountUsed - acc₀.subscription.amountUsed = _
    omega

theorem SourceHolds.token {acc₀ acc : Accounts}
    (h : SourceHolds acc₀ s acc) (n : Int) : SourceHolds acc₀ s { acc with tokenRemain := n } := by
  unfold SourceHolds at *
  rcases hf : s.funding with consumed | ⟨own, id, preConsumed⟩ <;> rw [hf] at h <;> exact h

/-! ### Reserve -/

/-- The session `Reserve` leaves behind when both steps go through. -/
def BillingSession.raised (s : BillingSession) (f : FundingSource) (delta : Int) : BillingSession :=
  BillingSession.syncRelayInfo
    { s with
      funding := f
      preConsumedQuota := s.preConsumedQuota + delta
      tokenConsumed := s.tokenConsumed + delta
      extraReserved := s.extraReserved + delta }

theorem SourceHolds.reserveFunding {acc₀ acc : Accounts} (h : SourceHolds acc₀ s acc)
    (hdelta : 0 < delta) (hok : reserveFunding s.funding delta answer acc = .ok (f, acc')) :
    f.source = s.funding.source ∧ acc'.tokenRemain = acc.tokenRemain ∧
      SourceHolds acc₀ (s.raised f delta) acc' ∧
      (rollbackFundingReserve f delta acc').1.source = s.funding.source ∧
      (rollbackFundingReserve f delta acc').2.tokenRemain = acc.tokenRemain ∧
      SourceHolds acc₀ { s with funding := (rollbackFundingReserve f delta acc').1 }
        (rollbackFundingReserve f delta acc').2 := by
  unfold SourceHolds at h
  rcases hf : s.funding with consumed | ⟨own, id, preConsumed⟩
  · -- wallet: both moves are plain additions
    rw [hf] at h hok
    rcases answer with - | e
    · cases hok
      refine ⟨rfl, rfl, ⟨?_, ?_⟩, rfl, rfl, ?_, ?_⟩
      · show consumed + delta = s.preConsumedQuota + delta
        omega
      · show acc.walletQuota - delta = acc₀.walletQuota - (s.preConsumedQuota + delta)
        omega
      · show consumed + delta - delta = s.preConsumedQuota
        omega
      · show acc.walletQuota - delta + delta = acc₀.walletQuota - s.preConsumedQuota
        omega
    · cases hok
  · -- subscription: the clamp is not reached, since the used amount was not negative
    rw [hf] at h hok
    obtain ⟨rfl, hrelay, hpre, hextra, hsum, hrec, hwithin, hused⟩ := h
    have hnonneg := acc.subscription.used_nonneg
    rcases hpost : acc.postConsumeDelta acc.subscription.id delta answer with e | moved
    · simp [MicrossApi.reserveFunding, hpost] at hok
    simp only [MicrossApi.reserveFunding, hpost] at hok
    obtain ⟨rfl, rfl⟩ := hok
    obtain ⟨rfl, hw⟩ := Accounts.postConsumeDelta_ok (ne_of_gt hdelta) hpost
    have hback : rollbackFundingReserve (.subscription own acc.subscription.id preConsumed) delta
        (acc.used delta)
        = (.subscription own acc.subscription.id preConsumed, (acc.used delta).used (-delta)) := by
      have := Accounts.postConsumeDelta_neg hdelta hw
      simp only [rollbackFundingReserve]
      rw [show acc.subscription.id = (acc.used delta).subscription.id from rfl, this]
    rw [hback]
    refine ⟨rfl, rfl, ⟨rfl, rfl, hpre, ?_, ?_, hrec, hw, ?_⟩, rfl, rfl, rfl, hrelay, hpre, hextra,
      hsum, hrec, Accounts.within_used_neg hdelta.le hw, ?_⟩
    · show 0 ≤ s.extraReserved + delta
      omega
    · show s.preConsumedQuota + delta = preConsumed + (s.extraReserved + delta)
      omega
    · show max 0 (acc.subscription.amountUsed + delta)
        = acc₀.subscription.amountUsed + (s.preConsumedQuota + delta)
      omega
    · show max 0 (max 0 (acc.subscription.amountUsed + delta) + -delta)
        = acc₀.subscription.amountUsed + s.preConsumedQuota
      omega

/-- The token step of `Reserve` takes `delta`, except on the playground. -/
theorem reserveToken_ok {pg : Bool} {acc : Accounts}
    (hdelta : 0 < delta) (h : reserveToken pg delta answer acc = .ok acc') :
    acc' = { acc with tokenRemain := acc.tokenRemain - if pg then 0 else delta } := by
  cases pg with
  | true =>
    simp only [reserveToken, or_true, if_true, Except.ok.injEq] at h
    simp [h]
  | false =>
    rcases answer with - | e
    · simpa [reserveToken, Accounts.preConsumeTokenQuota, not_le.mpr hdelta,
        not_lt.mpr hdelta.le, eq_comm] using h
    · simp [reserveToken, Accounts.preConsumeTokenQuota, not_le.mpr hdelta,
        not_lt.mpr hdelta.le] at h

variable {acc₀ : Accounts} {src : BillingSource} {pg : Bool} {st : BillingState}

/-- `Reserve` keeps what is held in step, whichever of its steps fails. -/
theorem Holding.reserve (h : Holding acc₀ src pg st) (targetQuota : Int) (funding token : Option Err) :
    Holding acc₀ src pg (st.reserve targetQuota funding token).2 := by
  unfold BillingState.reserve
  dsimp only
  split
  · exact h
  have hdelta : 0 < targetQuota - st.session.preConsumedQuota := by
    omega
  rcases hf : MicrossApi.reserveFunding st.session.funding
      (targetQuota - st.session.preConsumedQuota) funding st.accounts with e | ⟨f, acc⟩
  · exact h
  obtain ⟨hsrc, htok, hraised, hsrc', htok', hback⟩ := h.holds.reserveFunding hdelta hf
  dsimp only
  rcases ht : reserveToken st.session.isPlayground
      (targetQuota - st.session.preConsumedQuota) token acc with e | acc'
  · -- the token refused: the source is rolled back
    have hnet := h.token
    exact ⟨h.pending, h.settled, h.fundingSettled, h.refunded, h.playground,
      hsrc'.trans h.source, h.nonneg, h.tokenConsumed, hback,
      by rw [netToken, htok']; exact hnet⟩
  · obtain rfl := reserveToken_ok hdelta ht
    refine ⟨h.pending, h.settled, h.fundingSettled, h.refunded, h.playground,
      hsrc.trans h.source, ?_, ?_, hraised.token _, ?_⟩
    · show 0 ≤ st.session.preConsumedQuota + (targetQuota - st.session.preConsumedQuota)
      have := h.nonneg
      omega
    · show st.session.tokenConsumed + _ = st.session.preConsumedQuota + _
      rw [h.tokenConsumed]
    · show acc₀.tokenRemain - (acc.tokenRemain
        - if st.session.isPlayground then 0 else targetQuota - st.session.preConsumedQuota)
          = if pg then 0 else
              st.session.preConsumedQuota + (targetQuota - st.session.preConsumedQuota)
      have hnet := h.token
      rw [netToken] at hnet
      rw [h.playground]
      cases pg with
      | true =>
        simp only [if_true] at hnet ⊢
        omega
      | false =>
        simp only [Bool.false_eq_true, if_false] at hnet ⊢
        omega

/-! ### Settle -/

/-- A `Settle` of `c` has committed: nothing is held any more. -/
structure Settled (acc₀ : Accounts) (src : BillingSource) (pg : Bool) (c : Commit)
    (st : BillingState) : Prop where
  settled : st.session.settled = true
  pending : st.pending = none
  funding : MicrossApi.netFunding src acc₀ st.accounts = settledAmount src acc₀ c.actual
  token : netToken acc₀ st.accounts
    = if pg then 0 else if c.tokenOk then c.actual else c.held

variable {actual : Int}

theorem Holding.fundingSettle (h : Holding acc₀ src pg st)
    (hok : st.session.funding.settle (actual - st.session.preConsumedQuota) answer st.accounts = .ok acc) :
    MicrossApi.netFunding src acc₀ acc = settledAmount src acc₀ actual ∧
      acc.tokenRemain = st.accounts.tokenRemain := by
  have hnet := h.netFunding
  have hs := h.holds
  have hk := h.source
  have hnonneg := acc₀.subscription.used_nonneg
  have hpre := h.nonneg
  unfold SourceHolds at hs
  unfold FundingSource.settle at hok
  split at hok
  · -- nothing to move: the estimate was exact
    cases hok
    refine ⟨?_, rfl⟩
    unfold settledAmount
    split <;> omega
  next hdelta =>
    rcases hf : st.session.funding with consumed | ⟨own, id, preConsumed⟩
    · rw [hf] at hs hk hok
      cases hk
      rcases answer with - | e
      · dsimp only at hok
        split at hok
        · cases hok
          refine ⟨?_, rfl⟩
          show acc₀.walletQuota
            - (st.accounts.walletQuota - (actual - st.session.preConsumedQuota)) = actual
          omega
        · cases hok
          refine ⟨?_, rfl⟩
          show acc₀.walletQuota
            - (st.accounts.walletQuota + -(actual - st.session.preConsumedQuota)) = actual
          omega
      · cases hok
    · rw [hf] at hs hk hok
      cases hk
      obtain ⟨rfl, -⟩ := Accounts.postConsumeDelta_ok hdelta hok
      refine ⟨?_, rfl⟩
      show max 0 (st.accounts.subscription.amountUsed + (actual - st.session.preConsumedQuota))
        - acc₀.subscription.amountUsed = max (-acc₀.subscription.amountUsed) actual
      omega

theorem netFunding_settleToken (src : BillingSource) (acc₀ acc : Accounts) (pg : Bool)
    (delta : Int) (answer : Option Err) :
    netFunding src acc₀ (settleToken pg delta answer acc) = netFunding src acc₀ acc := by
  unfold settleToken
  split
  · rfl
  · cases src <;> rfl

variable {token funding : Option Err}

theorem settle_of_commitOf_none (hopen : st.session.settled = false) (hfs : st.session.fundingSettled = false)
    (h : commitOf st (.settle actual funding token) = none) : (st.settle actual funding token).2 = st := by
  simp only [commitOf, hopen, Bool.false_eq_true] at h
  rcases hf : st.session.funding.settle (actual - st.session.preConsumedQuota) funding st.accounts
    with e | acc
  · have hdelta : ¬ actual - st.session.preConsumedQuota = 0 := by
      intro hzero
      simp [FundingSource.settle, hzero] at hf
    simp [BillingState.settle, hopen, hfs, hdelta, hf]
  · rw [hf] at h
    cases h

theorem Holding.settle (h : Holding acc₀ src pg st)
    {c : Commit} (hc : commitOf st (.settle actual funding token) = some c) :
    Settled acc₀ src pg c (st.settle actual funding token).2 := by
  simp only [commitOf, h.settled] at hc
  rcases hf : st.session.funding.settle (actual - st.session.preConsumedQuota) funding st.accounts
    with e | acc
  · rw [hf] at hc
    cases hc
  rw [hf] at hc
  cases hc
  obtain ⟨hnet, htok⟩ := h.fundingSettle hf
  have htoken := h.token
  rw [netToken] at htoken
  by_cases hdelta : actual - st.session.preConsumedQuota = 0
  · -- the estimate was exact; neither account is touched
    have hacc : acc = st.accounts := by
      simpa [FundingSource.settle, hdelta, eq_comm] using hf
    subst hacc
    have hst : (st.settle actual funding token).2
        = { st with session := { st.session with settled := true } } := by
      simp [BillingState.settle, h.settled, hdelta]
    rw [hst]
    refine ⟨rfl, h.pending, hnet, ?_⟩
    show acc₀.tokenRemain - st.accounts.tokenRemain = _
    have hexact : actual = st.session.preConsumedQuota := by omega
    rw [htoken, hexact, ite_self]
  · have hst : (st.settle actual funding token).2
        = { st with
            session := { st.session with fundingSettled := true, settled := true }
            accounts := settleToken st.session.isPlayground
              (actual - st.session.preConsumedQuota) token acc } := by
      simp [BillingState.settle, h.settled, h.fundingSettled, hdelta, hf]
    rw [hst]
    refine ⟨rfl, h.pending, (netFunding_settleToken _ _ _ _ _ _).trans hnet, ?_⟩
    show acc₀.tokenRemain - (settleToken st.session.isPlayground
      (actual - st.session.preConsumedQuota) token acc).tokenRemain = _
    rw [h.playground]
    cases pg with
    | true =>
      simp only [if_true] at htoken ⊢
      simp only [settleToken, true_or, if_true]
      omega
    | false =>
      simp only [Bool.false_eq_true, if_false] at htoken ⊢
      rcases token with - | e <;> simp [settleToken] <;> omega

/-! ### Refund -/

theorem refundWithRetry_record {p : Int} (hp : 0 < p) (hw : acc.Within)
    (hrec : acc.record = some ⟨acc.subscription.id, p, false⟩) (attempts : Nat) :
    refundWithRetry Accounts.refundSubscriptionPreConsume attempts acc
      = .ok { acc.used (-p) with record := some ⟨acc.subscription.id, p, true⟩ } := by
  have hfirst : acc.refundSubscriptionPreConsume
      = .ok { acc.used (-p) with record := some ⟨acc.subscription.id, p, true⟩ } := by
    simp [Accounts.refundSubscriptionPreConsume, hrec, not_le.mpr hp,
      Accounts.postConsumeDelta_neg hp hw, Except.map]
  cases attempts with
  | zero => exact hfirst
  | succ => simp [refundWithRetry, hfirst]

theorem SourceHolds.giveBack (h : SourceHolds acc₀ s acc) (job : RefundJob) (hnonneg : 0 ≤ s.preConsumedQuota)
    (hextra : job.extraReserved = s.extraReserved) (hid : job.subscriptionId = s.relaySubscriptionId) :
    netFunding s.funding.source acc₀ (job.giveBackExtra s.funding (orLogged acc (s.funding.refund acc))) = 0 ∧
      (job.giveBackExtra s.funding (orLogged acc (s.funding.refund acc))).tokenRemain = acc.tokenRemain := by
  unfold SourceHolds at h
  rcases hf : s.funding with consumed | ⟨own, id, preConsumed⟩
  · rw [hf] at h
    obtain ⟨rfl, hq⟩ := h
    by_cases hzero : s.preConsumedQuota ≤ 0
    · simp only [FundingSource.refund, hzero, if_true, orLogged, RefundJob.giveBackExtra,
        FundingSource.source, netFunding, and_true]
      omega
    · simp only [FundingSource.refund, hzero, if_false, orLogged, RefundJob.giveBackExtra,
        FundingSource.source, netFunding, and_true]
      omega
  · rw [hf] at h
    obtain ⟨rfl, hrelay, hpre, hex, hsum, hrec, hwithin, hused⟩ := h
    have h0 := acc₀.subscription.used_nonneg
    -- first the record, then the extra reserve
    set back : Accounts :=
      { acc.used (-preConsumed) with record := some ⟨acc.subscription.id, preConsumed, true⟩ }
      with hback
    have hfirst : orLogged acc
        ((FundingSource.subscription own acc.subscription.id preConsumed).refund acc) = back := by
      simp [FundingSource.refund, not_le.mpr hpre, refundWithRetry_record hpre hwithin hrec,
        orLogged, hback]
    have hbackused : back.subscription.amountUsed
        = acc₀.subscription.amountUsed + s.extraReserved := by
      show max 0 (acc.subscription.amountUsed + -preConsumed) = _
      omega
    have hbackwithin : back.Within := Accounts.within_used_neg hpre.le hwithin
    have hidpos := acc.subscription.id_pos
    rw [hfirst]
    by_cases hpos : 0 < s.extraReserved
    · have hstep := Accounts.postConsumeDelta_neg hpos hbackwithin
      rw [show back.subscription.id = acc.subscription.id from rfl] at hstep
      simp only [RefundJob.giveBackExtra, hextra, hid, hrelay, hpos, hidpos, hstep]
      refine ⟨?_, rfl⟩
      show max 0 (back.subscription.amountUsed + -s.extraReserved)
        - acc₀.subscription.amountUsed = 0
      omega
    · simp only [RefundJob.giveBackExtra, hextra, hpos, false_and]
      refine ⟨?_, rfl⟩
      show back.subscription.amountUsed - acc₀.subscription.amountUsed = 0
      omega

/-- The goroutine of an effective `Refund` leaves source and token where the
session found them. -/
theorem Holding.refund (h : Holding acc₀ src pg st) (heff : st.session.RefundTakesEffect) :
    MicrossApi.netFunding src acc₀ st.refund.runJob.accounts = 0 ∧
      netToken acc₀ st.refund.runJob.accounts = 0 := by
  have hnonneg := h.nonneg
  have htoken := h.token
  rw [netToken] at htoken
  set job : RefundJob :=
    { tokenConsumed := st.session.tokenConsumed
      extraReserved := st.session.extraReserved
      subscriptionId := st.session.relaySubscriptionId
      isPlayground := st.session.isPlayground } with hjob
  obtain ⟨hsrc, htok⟩ := h.holds.giveBack job hnonneg rfl rfl
  rw [h.source] at hsrc
  have hacc : st.refund.runJob.accounts = job.giveBackToken (job.giveBackExtra st.session.funding
      (orLogged st.accounts (st.session.funding.refund st.accounts))) := by
    simp only [BillingState.refund, heff]
    rfl
  rw [hacc]
  generalize job.giveBackExtra st.session.funding
      (orLogged st.accounts (st.session.funding.refund st.accounts)) = back at hsrc htok
  have hcon : job.tokenConsumed = st.session.preConsumedQuota := h.tokenConsumed
  have hplay : job.isPlayground = pg := h.playground
  by_cases hgive : 0 < job.tokenConsumed ∧ job.isPlayground = false
  · simp only [RefundJob.giveBackToken, hgive]
    refine ⟨?_, ?_⟩
    · cases src <;> exact hsrc
    · rw [← hplay, hgive.2] at htoken
      simp only [Bool.false_eq_true, if_false] at htoken
      show acc₀.tokenRemain - (back.tokenRemain + job.tokenConsumed) = 0
      omega
  · simp only [RefundJob.giveBackToken, hgive]
    refine ⟨hsrc, ?_⟩
    show acc₀.tokenRemain - back.tokenRemain = 0
    rw [← hplay] at htoken
    rcases hp : job.isPlayground with - | -
    · simp only [hp, and_true] at hgive
      omega
    · simp only [hp, if_true] at htoken
      omega

/-! ### The closed phases -/

theorem billingStep_of_settled (hs : st.session.settled = true) (hp : st.pending = none)
    (op : BillingOp) : billingStep st op = st := by
  cases op with
  | reserve => simp [billingStep, BillingState.reserve, hs]
  | settle => simp [billingStep, BillingState.settle, hs]
  | refund => simp [billingStep, BillingState.refund, BillingSession.RefundTakesEffect, hs]
  | job => simp [billingStep, runJob, hp]

theorem exec_of_settled (hs : st.session.settled = true) (hp : st.pending = none)
    (ops : List BillingOp) : exec billingStep st ops = st := by
  refine exec_inv (I := fun st' => st' = st) ?_ rfl ops
  rintro _ op rfl
  exact billingStep_of_settled hs hp op

theorem runJob_runJob (st : BillingState) : st.runJob.runJob = st.runJob := by
  rcases hp : st.pending with - | job <;> simp [runJob, hp]

theorem billingStep_of_refunded (hr : st.session.refunded = true) {op : BillingOp}
    (hop : SettlesBeforeRefund st op) : billingStep st op = st ∨ billingStep st op = st.runJob := by
  cases op with
  | reserve =>
    left
    simp [billingStep, BillingState.reserve, hr]
  | settle =>
    rw [SettlesBeforeRefund, hr] at hop
    cases hop
  | refund =>
    left
    simp [billingStep, BillingState.refund, BillingSession.RefundTakesEffect, hr]
  | job => exact Or.inr rfl

variable {ops : List BillingOp}

/-- After an effective `Refund` the outcome is fixed, whenever the goroutine
runs. -/
theorem runJob_exec_of_refunded (hr : st.session.refunded = true)
    (hG : Along billingStep SettlesBeforeRefund st ops) :
    (exec billingStep st ops).runJob = st.runJob ∧ firstCommit st ops = none := by
  induction ops generalizing st with
  | nil => exact ⟨rfl, rfl⟩
  | cons op ops ih =>
    obtain ⟨hop, hG⟩ := hG
    have hstep := billingStep_of_refunded hr hop
    have hr' : (billingStep st op).session.refunded = true := by
      rcases hstep with e | e
      · rw [e, hr]
      · rw [e, runJob]
        split <;> exact hr
    obtain ⟨hrun, hfirst⟩ := ih hr' hG
    have hnone : commitOf st op = none := by
      cases op with
      | settle =>
        rw [SettlesBeforeRefund, hr] at hop
        cases hop
      | _ => rfl
    refine ⟨?_, ?_⟩
    · rw [exec_cons, hrun]
      rcases hstep with e | e
      · rw [e]
      · rw [e, runJob_runJob]
    · simp only [firstCommit, hnone, hfirst]

theorem not_refundTookEffect_of_settled (hs : st.session.settled = true) (hp : st.pending = none)
    (ops : List BillingOp) : ¬ refundTookEffect st ops := by
  induction ops with
  | nil => exact id
  | cons op ops ih =>
    rintro (⟨-, heff⟩ | hrest)
    · rw [BillingSession.RefundTakesEffect, hs] at heff
      cases heff.1
    · rw [billingStep_of_settled hs hp] at hrest
      exact ih hrest

/-! ### Whole runs -/

/-- How a run from `st` ends: settled at its first commit, refunded, or still
holding. -/
inductive Ends (acc₀ : Accounts) (src : BillingSource) (pg : Bool) (st : BillingState)
    (ops : List BillingOp) : Prop where
  | settled (c : Commit) (first : firstCommit st ops = some c)
      (kept : ¬ refundTookEffect st ops)
      (final : Settled acc₀ src pg c (exec billingStep st ops))
  | refunded (first : firstCommit st ops = none) (back : refundTookEffect st ops)
      (funding : netFunding src acc₀ (exec billingStep st ops).runJob.accounts = 0)
      (token : netToken acc₀ (exec billingStep st ops).runJob.accounts = 0)
  | holding (first : firstCommit st ops = none) (kept : ¬ refundTookEffect st ops)
      (final : Holding acc₀ src pg (exec billingStep st ops))

/-- A step that neither commits nor refunds leaves the end to the rest of the
run. -/
theorem Ends.cons {op : BillingOp} (hc : commitOf st op = none)
    (hr : ¬ (op = .refund ∧ st.session.RefundTakesEffect))
    (h : Ends acc₀ src pg (billingStep st op) ops) : Ends acc₀ src pg st (op :: ops) := by
  have hfirst : firstCommit st (op :: ops) = firstCommit (billingStep st op) ops := by
    simp only [firstCommit, hc]
  have hback : refundTookEffect st (op :: ops) ↔ refundTookEffect (billingStep st op) ops := by
    simp only [refundTookEffect, hr, false_or]
  cases h with
  | settled c first kept final =>
    exact .settled c (hfirst.trans first) (fun e => kept (hback.mp e)) final
  | refunded first back funding token =>
    exact .refunded (hfirst.trans first) (hback.mpr back) funding token
  | holding first kept final =>
    exact .holding (hfirst.trans first) (fun e => kept (hback.mp e)) final

theorem Holding.run (h : Holding acc₀ src pg st)
    (hG : Along billingStep SettlesBeforeRefund st ops) : Ends acc₀ src pg st ops := by
  induction ops generalizing st with
  | nil => exact .holding rfl id h
  | cons op ops ih =>
    obtain ⟨hop, hG⟩ := hG
    cases op with
    | reserve targetQuota funding token =>
      exact Ends.cons rfl (by simp) (ih (h.reserve targetQuota funding token) hG)
    | settle actualQuota funding token =>
      rcases hc : commitOf st (.settle actualQuota funding token) with - | c
      · refine Ends.cons hc (by simp) (ih ?_ hG)
        show Holding acc₀ src pg (st.settle actualQuota funding token).2
        rw [settle_of_commitOf_none h.settled h.fundingSettled hc]
        exact h
      have hset := h.settle hc
      refine Ends.settled c (by simp only [firstCommit, hc]) ?_ ?_
      · rintro (⟨e, -⟩ | hrest)
        · cases e
        · exact not_refundTookEffect_of_settled hset.settled hset.pending ops hrest
      · show Settled acc₀ src pg c
          (exec billingStep (st.settle actualQuota funding token).2 ops)
        rw [exec_of_settled hset.settled hset.pending]
        exact hset
    | refund =>
      by_cases heff : st.session.RefundTakesEffect
      · have hr : (billingStep st .refund).session.refunded = true := by
          simp [billingStep, BillingState.refund, heff]
        obtain ⟨hrun, hfirst⟩ := runJob_exec_of_refunded hr hG
        obtain ⟨hfund, htok⟩ := h.refund heff
        refine Ends.refunded hfirst (Or.inl ⟨rfl, heff⟩) ?_ ?_
        · rw [exec_cons, hrun]
          exact hfund
        · rw [exec_cons, hrun]
          exact htok
      · refine Ends.cons rfl (fun e => heff e.2) (ih ?_ hG)
        show Holding acc₀ src pg st.refund
        rw [BillingState.refund, if_neg heff]
        exact h
    | job =>
      refine Ends.cons rfl (by simp) (ih ?_ hG)
      show Holding acc₀ src pg st.runJob
      rw [runJob, h.pending]
      exact h

/-! ### Opening -/

/-- An attempt to open a session on `acc`: it succeeds and the new session
holds its estimate, or it fails and the accounts are as before. -/
def OpensOrLeaves (acc : Accounts) (pg : Bool) (r : Except ApiError BillingSession × Accounts) : Prop :=
  match r with
  | (.ok s, acc') => Holding acc s.funding.source pg { session := s, accounts := acc' }
  | (.error _, acc') => acc' = acc

/-- Only its own source `src` was charged for the session, and nothing when it is
trusted. -/
def BillingSession.ChargedAlone (src : BillingSource) (acc : Accounts) (s : BillingSession)
    (acc' : Accounts) : Prop :=
  s.funding.source = src ∧ (s.trusted = true → s.preConsumedQuota = 0) ∧
    match src with
    | .wallet => acc'.subscription = acc.subscription
    | .subscription => acc'.walletQuota = acc.walletQuota ∧ acc'.subscription.id = acc.subscription.id

/-- The token step of `preConsume`. -/
theorem preConsumeTokenQuota_ok {acc taken : Accounts} {q : Int} (hq : 0 ≤ q)
    (h : (if 0 < q then acc.preConsumeTokenQuota pg q token else .ok acc) = .ok taken) :
    taken = { acc with tokenRemain := acc.tokenRemain - if pg then 0 else q } := by
  split at h
  · cases pg with
    | true =>
      have hsame : acc = taken := by
        simpa [Accounts.preConsumeTokenQuota, not_lt.mpr hq] using h
      simp [hsame]
    | false =>
      rcases token with - | e
      · simpa [Accounts.preConsumeTokenQuota, not_lt.mpr hq, eq_comm] using h
      · simp [Accounts.preConsumeTokenQuota, not_lt.mpr hq] at h
  next hpos =>
    have hzero : q = 0 := by omega
    cases h
    simp [hzero]

variable {quota : Int}

/-- Everything `preConsume` can do on a new session with a source `f`, when
the amount to take is `q` and the token can be given it back. -/
theorem preConsume_cases {env : OpenEnv} {userQuota q : Int} {back : Option Err} (pg : Bool)
    (token : Option Err) (acc : Accounts) (hback : back = none)
    (heff : (if shouldTrust env f userQuota then 0 else quota) = q) (hq : 0 ≤ q) :
    (∃ e, BillingSession.preConsume env { isPlayground := pg, funding := f } quota userQuota token back
        acc = (.error e, acc)) ∨
      ∃ f' acc', f.preConsume q env.reserveWallet env.preConsumeSubscription
          { acc with tokenRemain := acc.tokenRemain - if pg then 0 else q } = .ok (f', acc') ∧
        BillingSession.preConsume env { isPlayground := pg, funding := f } quota userQuota token back
          acc = (.ok (BillingSession.syncRelayInfo
              { isPlayground := pg, funding := f', trusted := shouldTrust env f userQuota,
                tokenConsumed := q, preConsumedQuota := q }), acc') := by
  simp only [BillingSession.preConsume, heff, hback]
  rcases ht : (if 0 < q then acc.preConsumeTokenQuota pg q token else .ok acc) with e | taken
  · exact Or.inl ⟨_, rfl⟩
  obtain rfl := preConsumeTokenQuota_ok hq ht
  have hcon : (if 0 < q then q else 0) = q := by
    split <;> omega
  simp only [hcon]
  rcases hf : f.preConsume q env.reserveWallet env.preConsumeSubscription
    { acc with tokenRemain := acc.tokenRemain - if pg then 0 else q } with e | ⟨f', acc'⟩
  · -- the source refused: the token gets back what it gave
    refine Or.inl ⟨preConsumeError env e, ?_⟩
    cases pg with
    | true => simp
    | false =>
      by_cases hpos : 0 < q
      · simp [hpos]
      · have hzero : q = 0 := by omega
        simp [hzero]
  · exact Or.inr ⟨f', acc', rfl, rfl⟩

/-- The token can be given back what it was charged for a source that refuses. -/
def OpenEnv.GivesBack (env : OpenEnv) : Prop :=
  env.walletTokenBack = none ∧ env.subscriptionTokenBack = none
deriving Decidable

variable (env : OpenEnv)

theorem tryWallet_opens (hback : env.GivesBack) (hquota : 0 ≤ quota) (acc : Accounts) :
    OpensOrLeaves acc env.isPlayground (tryWallet env quota acc) ∧
      ∀ s acc', tryWallet env quota acc = (.ok s, acc') → s.ChargedAlone .wallet acc acc' := by
  unfold tryWallet
  rcases env.getUserQuota with e | userQuota
  · exact ⟨rfl, fun _ _ => nofun⟩
  dsimp only
  split
  · exact ⟨rfl, fun _ _ => nofun⟩
  split
  · exact ⟨rfl, fun _ _ => nofun⟩
  have hq : 0 ≤ (if shouldTrust env (.wallet 0) userQuota then 0 else quota) := by
    split <;> omega
  have htrusted : shouldTrust env (.wallet 0) userQuota = true →
      (if shouldTrust env (.wallet 0) userQuota then 0 else quota) = 0 := fun h => if_pos h
  obtain ⟨e, h⟩ | ⟨f', acc', hf, h⟩ := preConsume_cases
    env.isPlayground env.walletToken acc hback.1 rfl hq
  · rw [h]
    exact ⟨rfl, fun _ _ => nofun⟩
  rw [h]
  generalize (if shouldTrust env (.wallet 0) userQuota then 0 else quota) = q at hq hf htrusted ⊢
  have hwallet : f' = .wallet q ∧ acc' = { acc with
      walletQuota := acc.walletQuota - q
      tokenRemain := acc.tokenRemain - if env.isPlayground then 0 else q } := by
    simp only [FundingSource.preConsume] at hf
    split at hf
    · have hzero : q = 0 := by omega
      cases hf
      simp [hzero]
    · rcases hr : env.reserveWallet with e | _ | _
      · simp [hr] at hf
      · simp [hr] at hf
      · simp only [hr, Except.ok.injEq, Prod.mk.injEq] at hf
        exact ⟨hf.1.symm, hf.2.symm⟩
  obtain ⟨rfl, rfl⟩ := hwallet
  refine ⟨⟨rfl, rfl, rfl, rfl, rfl, rfl, hq, rfl, ⟨rfl, rfl⟩, ?_⟩, ?_⟩
  · show acc.tokenRemain - (acc.tokenRemain - if env.isPlayground then 0 else q) = _
    exact sub_sub_cancel _ _
  · rintro _ _ ⟨⟩
    exact ⟨rfl, htrusted, rfl⟩

theorem trySubscription_opens (hback : env.GivesBack) (quota : Int) (hfresh : acc.record = none) :
    OpensOrLeaves acc env.isPlayground (trySubscription env quota acc) ∧
      ∀ s acc', trySubscription env quota acc = (.ok s, acc') → s.ChargedAlone .subscription acc acc' := by
  unfold trySubscription
  have hpos : 0 < (if quota ≤ 0 then 1 else quota) := by
    split <;> omega
  generalize (if quota ≤ 0 then 1 else quota) = q at hpos
  -- a subscription is never trusted, so the whole amount is taken
  have hnot : shouldTrust env (.subscription q 0 0) 0 = false := by
    unfold shouldTrust
    split
    · rfl
    split
    · rfl
    · split <;> rfl
  obtain ⟨e, h⟩ | ⟨f', acc', hf, h⟩ := preConsume_cases
    env.isPlayground env.subscriptionToken acc hback.2
    (show (if shouldTrust env (.subscription q 0 0) 0 then 0 else q) = q by simp [hnot]) hpos.le
  · rw [h]
    exact ⟨rfl, fun _ _ => nofun⟩
  rw [h]
  rcases hans : env.preConsumeSubscription with - | e
  · simp only [FundingSource.preConsume, Accounts.preConsumeUserSubscription, not_le.mpr hpos,
      dif_neg, not_false_eq_true, hfresh, hans] at hf
    split at hf
    · cases hf
    rename_i hres
    split at hres
    · cases hres
    cases hres
    cases hf
    refine ⟨⟨rfl, rfl, rfl, rfl, rfl, rfl, hpos.le, rfl,
      ⟨rfl, rfl, hpos, le_rfl, (add_zero q).symm, rfl, ?_, rfl⟩, ?_⟩, ?_⟩
    · show acc.subscription.amountTotal ≤ 0 ∨
        acc.subscription.amountUsed + q ≤ acc.subscription.amountTotal
      omega
    · show acc.tokenRemain - (acc.tokenRemain - if env.isPlayground then 0 else q) = _
      exact sub_sub_cancel _ _
    · rintro _ _ ⟨⟩
      exact ⟨rfl, fun htrusted => absurd (hnot.symm.trans htrusted) Bool.false_ne_true, rfl, rfl⟩
  · simp [FundingSource.preConsume, Accounts.preConsumeUserSubscription, not_le.mpr hpos,
      hfresh, hans] at hf

/-- The wallet may be charged: by the preference, for want of a subscription, or
because the subscriptions allow the overflow. -/
def OpenEnv.PermitsWallet : Prop :=
  match env.preference with
  | .walletOnly | .walletFirst => True
  | .subscriptionOnly => False
  | .subscriptionFirst => env.hasActiveSubscription = .ok false ∨ env.allowWalletOverflow = .ok true

/-- `NewBillingSession` fails and leaves the accounts, or it answers what the
wallet, if that is permitted, or the subscription answers. -/
theorem newBillingSession_cases (hback : env.GivesBack) (hquota : 0 ≤ quota)
    (hfresh : acc.record = none) : (∃ e, newBillingSession env quota acc = (.error e, acc)) ∨
      env.PermitsWallet ∧ newBillingSession env quota acc = tryWallet env quota acc ∨
      newBillingSession env quota acc = trySubscription env quota acc := by
  have hw := (tryWallet_opens env hback hquota acc).1
  have hs := (trySubscription_opens env hback quota hfresh).1
  unfold newBillingSession OpenEnv.PermitsWallet
  cases env.preference with
  | subscriptionOnly => exact .inr (.inr rfl)
  | walletOnly => exact .inr (.inl ⟨trivial, rfl⟩)
  | walletFirst =>
    rcases hr : tryWallet env quota acc with ⟨e | s', acc'⟩
    · rw [hr] at hw
      obtain rfl : acc' = acc := hw
      dsimp only
      split
      · exact .inr (.inr rfl)
      · exact .inl ⟨e, rfl⟩
    · exact .inr (.inl ⟨trivial, rfl⟩)
  | subscriptionFirst =>
    rcases env.hasActiveSubscription with e | _ | _
    · exact .inl ⟨_, rfl⟩
    · exact .inr (.inl ⟨.inl rfl, rfl⟩)
    rcases hr : trySubscription env quota acc with ⟨e | s', acc'⟩
    · rw [hr] at hs
      obtain rfl : acc' = acc := hs
      dsimp only
      split
      · rcases env.allowWalletOverflow with e' | _ | _
        · exact .inl ⟨_, rfl⟩
        · exact .inl ⟨_, rfl⟩
        · exact .inr (.inl ⟨.inr rfl, rfl⟩)
      · exact .inl ⟨_, rfl⟩
    · exact .inr (.inr rfl)

theorem newBillingSession_opens (hback : env.GivesBack) (hquota : 0 ≤ quota)
    (hfresh : acc.record = none) : OpensOrLeaves acc env.isPlayground (newBillingSession env quota acc) := by
  obtain ⟨e, h⟩ | ⟨-, h⟩ | h := newBillingSession_cases env hback hquota hfresh
  · rw [h]
    rfl
  · rw [h]
    exact (tryWallet_opens env hback hquota acc).1
  · rw [h]
    exact (trySubscription_opens env hback quota hfresh).1

/-- A session `PreConsumeBilling` opens for a fresh request id holds exactly
its estimate. -/
theorem preConsumeBilling_holding {env : OpenEnv} (hback : env.GivesBack) (hfresh : acc₀.record = none)
    (hopen : preConsumeBilling env quota acc₀ = (.ok s, acc)) :
    Holding acc₀ s.funding.source env.isPlayground { session := s, accounts := acc } := by
  have hall : OpensOrLeaves acc₀ env.isPlayground (preConsumeBilling env quota acc₀) := by
    unfold preConsumeBilling
    rcases env.quotaClamp with - | e
    · dsimp only
      split
      · rfl
      next hquota =>
        exact newBillingSession_opens env hback (not_lt.mp hquota) hfresh
    · rfl
  rw [hopen] at hall
  exact hall

/-! ### Exactly-once settlement -/

/-- The state in which `PreConsumeBilling` hands over the session. -/
def openedState (s : BillingSession) (acc : Accounts) : BillingState :=
  { session := s, accounts := acc }

/-- The accounts at the end of a run, the goroutine included. -/
def finalAccounts (st : BillingState) (ops : List BillingOp) : Accounts :=
  (exec billingStep st ops).runJob.accounts

/-- **Exactly-once settlement.**  For every session opened for a fresh request
id, where undoing works, and every run of `Reserve`, `Settle`, `Refund` and the refund goroutine
that does not settle after an effective refund: the first `Settle` that
commits decides what is taken from the source; if a `Refund` took effect
nothing is, and no `Settle` has committed; otherwise the estimate is.  A
committed session is never refunded.  The token follows the source, except
that it keeps the estimate when its own step of the committing `Settle`
failed. -/
theorem billing_session_settles_exactly_once (quota : Int) (acc₀ acc : Accounts)
    (s : BillingSession) (hback : env.GivesBack) (hfresh : acc₀.record = none)
    (hopen : preConsumeBilling env quota acc₀ = (.ok s, acc)) (ops : List BillingOp)
    (hlast : Along billingStep SettlesBeforeRefund (openedState s acc) ops) :
    (∀ c, firstCommit (openedState s acc) ops = some c →
      netFunding s.funding.source acc₀ (finalAccounts (openedState s acc) ops)
        = settledAmount s.funding.source acc₀ c.actual ∧ (env.isPlayground = false →
        netToken acc₀ (finalAccounts (openedState s acc) ops) = if c.tokenOk then c.actual else c.held)) ∧
    (refundTookEffect (openedState s acc) ops → firstCommit (openedState s acc) ops = none ∧
      netFunding s.funding.source acc₀ (finalAccounts (openedState s acc) ops) = 0 ∧
      netToken acc₀ (finalAccounts (openedState s acc) ops) = 0) ∧
    (firstCommit (openedState s acc) ops = none → ¬ refundTookEffect (openedState s acc) ops →
      netFunding s.funding.source acc₀ (finalAccounts (openedState s acc) ops)
        = (exec billingStep (openedState s acc) ops).session.preConsumedQuota ∧ (env.isPlayground = false →
        netToken acc₀ (finalAccounts (openedState s acc) ops)
          = (exec billingStep (openedState s acc) ops).session.preConsumedQuota)) ∧
    ∀ c, firstCommit (openedState s acc) ops = some c →
      (exec billingStep (openedState s acc) ops).pending = none ∧
      ∀ later, exec billingStep (openedState s acc) (ops ++ later)
        = exec billingStep (openedState s acc) ops := by
  have hhold : Holding acc₀ s.funding.source env.isPlayground (openedState s acc) :=
    preConsumeBilling_holding hback hfresh hopen
  -- without a queued goroutine the final accounts are those of the last step
  have hfinal : (exec billingStep (openedState s acc) ops).pending = none →
      finalAccounts (openedState s acc) ops
        = (exec billingStep (openedState s acc) ops).accounts := by
    intro hp
    rw [finalAccounts, runJob, hp]
  cases hhold.run hlast with
  | settled c first kept final =>
    have hacc := hfinal final.pending
    refine ⟨?_, fun hr => absurd hr kept, fun hnone => ?_, ?_⟩
    · intro c' hc'
      obtain rfl : c = c' := Option.mem_unique first hc'
      rw [hacc]
      refine ⟨final.funding, fun hpg => ?_⟩
      rw [final.token, hpg]
      rfl
    · rw [first] at hnone
      cases hnone
    · intro c' _
      refine ⟨final.pending, fun later => ?_⟩
      rw [exec_append]
      exact exec_of_settled final.settled final.pending later
  | refunded first back funding token =>
    refine ⟨fun c hc => ?_, fun _ => ⟨first, funding, token⟩, fun _ hkept => absurd back hkept,
      fun c hc => ?_⟩
    · rw [first] at hc
      cases hc
    · rw [first] at hc
      cases hc
  | holding first kept final =>
    have hacc := hfinal final.pending
    refine ⟨fun c hc => ?_, fun hr => absurd hr kept, fun _ _ => ?_, fun c hc => ?_⟩
    · rw [first] at hc
      cases hc
    · rw [hacc]
      refine ⟨final.netFunding, fun hpg => ?_⟩
      rw [final.token, hpg]
      rfl
    · rw [first] at hc
      cases hc

/-- A wallet and a token with 1000 units each, and a subscription of which 5
units are used. -/
def someAccounts : Accounts where
  walletQuota := 1000
  tokenRemain := 1000
  subscription := ⟨7, 0, 5, by decide, by decide⟩

/-- A request charged to the wallet. -/
def walletRequest : OpenEnv := { preference := .walletOnly, getUserQuota := .ok 1000 }

/-- A request charged to the subscription. -/
def subscriptionRequest : OpenEnv :=
  { preference := .subscriptionOnly, getUserQuota := .ok 1000 }

/-- The wallet session that holds `quota`. -/
def walletSession (quota : Int) : BillingSession :=
  { isPlayground := false, funding := .wallet quota, preConsumedQuota := quota,
    tokenConsumed := quota }

/-- The estimate is raised, the settlement fails once and then commits, and the
late refund does nothing. -/
theorem billing_session_settles_exactly_once_wallet : netFunding .wallet someAccounts
      (finalAccounts (openedState (walletSession 100)
          { someAccounts with walletQuota := 900, tokenRemain := 900 })
        [.reserve 150 none none, .settle 120 (some .db) none, .settle 120 none none, .refund, .job])
      = 120 := by
  have h := billing_session_settles_exactly_once walletRequest 100 someAccounts
    { someAccounts with walletQuota := 900, tokenRemain := 900 } (walletSession 100) (by decide) rfl (by decide)
    [.reserve 150 none none, .settle 120 (some .db) none, .settle 120 none none, .refund, .job]
    ⟨trivial, rfl, rfl, trivial, trivial, trivial⟩
  exact (h.1 ⟨120, 150, true⟩ (by decide)).1

/-- The subscription session that holds 10 units, and its accounts. -/
def subscriptionSession : BillingSession :=
  { isPlayground := false, relaySubscriptionId := 7, funding := .subscription 10 7 10,
    preConsumedQuota := 10, tokenConsumed := 10 }

def subscriptionHeld : Accounts :=
  { someAccounts with
    tokenRemain := 990
    subscription := ⟨7, 0, 15, by decide, by decide⟩
    record := some ⟨7, 10, false⟩ }

/-- Source and token can part: a token step that fails after the wallet was
settled at 120 leaves the token at the estimate, 100.  A subscription with 5
units used before the session gives back 5 at most, not 10.  And a session opened
once more for the same request id holds 10 units of the token alone. -/
theorem billing_token_parts_from_funding : (preConsumeBilling walletRequest 100 someAccounts
        = (.ok (walletSession 100), { someAccounts with walletQuota := 900, tokenRemain := 900 }) ∧
      Along billingStep SettlesBeforeRefund
        (openedState (walletSession 100)
          { someAccounts with walletQuota := 900, tokenRemain := 900 })
        [.settle 120 none (some .db)] ∧
      netFunding .wallet someAccounts (finalAccounts (openedState (walletSession 100)
        { someAccounts with walletQuota := 900, tokenRemain := 900 })
        [.settle 120 none (some .db)]) = 120 ∧
      netToken someAccounts (finalAccounts (openedState (walletSession 100)
        { someAccounts with walletQuota := 900, tokenRemain := 900 })
        [.settle 120 none (some .db)]) = 100) ∧
    preConsumeBilling subscriptionRequest 10 someAccounts
        = (.ok subscriptionSession, subscriptionHeld) ∧
      firstCommit (openedState subscriptionSession subscriptionHeld) [.settle (-10) none none]
        = some ⟨-10, 10, true⟩ ∧
      netFunding .subscription someAccounts
        (finalAccounts (openedState subscriptionSession subscriptionHeld)
          [.settle (-10) none none]) = -5 ∧
      preConsumeBilling subscriptionRequest 10 subscriptionHeld
        = (.ok subscriptionSession, { subscriptionHeld with tokenRemain := 980 }) ∧
      netFunding .subscription subscriptionHeld
        (finalAccounts (openedState subscriptionSession { subscriptionHeld with tokenRemain := 980 })
          []) = 0 := by
  refine ⟨⟨by decide, ⟨rfl, trivial⟩, by decide, by decide⟩, by decide, by decide, by decide, ?_⟩
  decide

end MicrossApi
