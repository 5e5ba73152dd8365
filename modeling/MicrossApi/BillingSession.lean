/-
MicrossApi/BillingSession.lean

The life of one request's charge (service/billing_session.go,
service/funding_source.go, `PreConsumeBilling` in service/billing.go).
`PreConsumeBilling` opens a session and takes an estimate from a funding
source (the wallet, or a subscription) and from the token; `Reserve` raises
the estimate; `Settle` replaces it by the actual amount; `Refund` gives it
back, in a goroutine.

`Accounts` are the balances the session moves.  The subscription is the one
the session draws on, as `PreConsumeUserSubscription` finds it after its lazy
reset.  What a database call answers is the environment's choice, an
`Option Err` that is `none` when the call goes through; the calls by which
`Reserve` and `Refund` undo something always do.

The session's mutex makes `Reserve`, `Settle` and `Refund` atomic; the refund
goroutine is a separate step that may run any time after `Refund` queued it.
-/
import Mathlib.Algebra.Order.Group.Int
import MicrossApi.Database

namespace MicrossApi

/-! ### Accounts -/

/-- The subscription a session draws on. -/
@[ext]
structure SubscriptionAccount where
  id : Int
  amountTotal : Int
  amountUsed : Int
  id_pos : 0 < id
  used_nonneg : 0 ≤ amountUsed

instance : DecidableEq SubscriptionAccount := fun a b =>
  decidable_of_iff (a.id = b.id ∧ a.amountTotal = b.amountTotal ∧ a.amountUsed = b.amountUsed)
    SubscriptionAccount.ext_iff.symm

/-- The row `PreConsumeUserSubscription` files under the request id. -/
structure PreConsumeRecord where
  userSubscriptionId : Int
  preConsumed : Int
  refunded : Bool := false
deriving DecidableEq

/-- The balances one session moves: wallet, token, subscription, and the
pre-consume record of its request id. -/
structure Accounts where
  walletQuota : Int
  tokenRemain : Int
  subscription : SubscriptionAccount
  record : Option PreConsumeRecord := none
deriving DecidableEq

/-- `PostConsumeUserSubscriptionDelta` on the subscription `s`: the used
amount moves by `delta`, never below zero and never above the total. -/
def SubscriptionAccount.postConsumeDelta (s : SubscriptionAccount) (id delta : Int)
    (answer : Option Err) : Except Err SubscriptionAccount :=
  if id ≤ 0 then .error (.text "invalid userSubscriptionId")
  else if delta = 0 then .ok s
  else
    match answer with
    | some e => .error e
    | none =>
      if id ≠ s.id then .error .recordNotFound
      else
        let newUsed := max 0 (s.amountUsed + delta)
        let total := s.amountTotal
        if 0 < total ∧ total < newUsed then
          .error (.text s!"subscription used exceeds total, used={newUsed} total={total}")
        else .ok { s with amountUsed := newUsed, used_nonneg := le_max_left _ _ }

variable (acc : Accounts)

/-- `PostConsumeUserSubscriptionDelta` on the accounts. -/
def Accounts.postConsumeDelta (id delta : Int) (answer : Option Err) : Except Err Accounts :=
  (acc.subscription.postConsumeDelta id delta answer).map fun s => { acc with subscription := s }

/-- `PreConsumeUserSubscription`: an amount already taken for the request is
not taken again. -/
def Accounts.preConsumeUserSubscription (amount : Int) (answer : Option Err) :
    Except Err (PreConsumeRecord × Accounts) :=
  if h : amount ≤ 0 then .error (.text "amount must be > 0")
  else
    match acc.record with
    | some existing =>
      if existing.refunded then .error (.text "subscription pre-consume already refunded")
      else .ok (existing, acc)
    | none =>
      match answer with
      | some e => .error e
      | none =>
        let s := acc.subscription
        if 0 < s.amountTotal ∧ s.amountTotal - s.amountUsed < amount then
          .error (.text s!"subscription quota insufficient, need={amount}")
        else
          let record : PreConsumeRecord := ⟨s.id, amount, false⟩
          .ok (record,
            { acc with
              record := some record
              subscription :=
                { s with
                  amountUsed := s.amountUsed + amount
                  used_nonneg := add_nonneg s.used_nonneg (le_of_lt (not_le.mp h)) } })

/-- `RefundSubscriptionPreConsume`. -/
def Accounts.refundSubscriptionPreConsume : Except Err Accounts :=
  match acc.record with
  | none => .error .recordNotFound
  | some r =>
    if r.refunded then .ok acc
    else if r.preConsumed ≤ 0 then .ok { acc with record := some { r with refunded := true } }
    else
      (acc.postConsumeDelta r.userSubscriptionId (-r.preConsumed) none).map fun acc' =>
        { acc' with record := some { r with refunded := true } }

/-! ### Sessions -/

/-- A funding source: `WalletFunding` or `SubscriptionFunding`. -/
inductive FundingSource where
  | wallet (consumed : Int)
  | subscription (amount subscriptionId preConsumed : Int)
deriving DecidableEq

/-- `BillingSession`, with the two fields of `RelayInfo` its methods read
later (`IsPlayground` and `SubscriptionId`). -/
structure BillingSession where
  isPlayground : Bool
  relaySubscriptionId : Int := 0
  funding : FundingSource
  preConsumedQuota : Int := 0
  tokenConsumed : Int := 0
  extraReserved : Int := 0
  trusted : Bool := false
  fundingSettled : Bool := false
  settled : Bool := false
  refunded : Bool := false
deriving DecidableEq

/-- What `Refund` copies into the closure of its goroutine. -/
structure RefundJob where
  tokenConsumed : Int
  extraReserved : Int
  subscriptionId : Int
  isPlayground : Bool
deriving DecidableEq

/-- A session, the accounts it moves and its refund goroutine, if it is still
to run. -/
structure BillingState where
  session : BillingSession
  accounts : Accounts
  pending : Option RefundJob := none
deriving DecidableEq

variable (s : BillingSession)

/-- `syncRelayInfo`, for the field that is read later. -/
def BillingSession.syncRelayInfo : BillingSession :=
  { s with
    relaySubscriptionId :=
      match s.funding with
      | .subscription _ id _ => id
      | .wallet _ => 0 }

/-! ### The token and the funding source -/

variable (isPlayground : Bool)

/-- `PreConsumeTokenQuota`. -/
def Accounts.preConsumeTokenQuota (quota : Int) (answer : Option Err) : Except Err Accounts :=
  if quota < 0 then .error (.text "quota 不能为负数！")
  else if isPlayground then .ok acc
  else
    match answer with
    | some e => .error e
    | none => .ok { acc with tokenRemain := acc.tokenRemain - quota }

variable (f : FundingSource)

/-- `FundingSource.Settle`: a positive difference is taken, a negative one
given back. -/
def FundingSource.settle (delta : Int) (answer : Option Err) (acc : Accounts) : Except Err Accounts :=
  if delta = 0 then .ok acc
  else
    match f with
    | .wallet _ =>
      match answer with
      | some e => .error e
      | none =>
        if 0 < delta then .ok { acc with walletQuota := acc.walletQuota - delta }
        else .ok { acc with walletQuota := acc.walletQuota + -delta }
    | .subscription _ id _ => acc.postConsumeDelta id delta answer

/-- `refundWithRetry`: at most `attempts` further tries, keeping the last
error. -/
def refundWithRetry (fn : Accounts → Except Err Accounts) : Nat → Accounts → Except Err Accounts
  | 0, acc => fn acc
  | attempts + 1, acc =>
    match fn acc with
    | .ok acc' => .ok acc'
    | .error _ => refundWithRetry fn attempts acc

/-- `FundingSource.Refund`. -/
def FundingSource.refund (acc : Accounts) : Except Err Accounts :=
  match f with
  | .wallet consumed =>
    if consumed ≤ 0 then .ok acc
    else .ok { acc with walletQuota := acc.walletQuota + consumed }
  | .subscription _ _ preConsumed =>
    if preConsumed ≤ 0 then .ok acc
    else refundWithRetry Accounts.refundSubscriptionPreConsume 2 acc

/-- An error code of the API. -/
inductive ErrorCode where
  | modelPriceError
  | queryDataError
  | updateDataError
  | insufficientUserQuota
  | preConsumeTokenQuotaFailed
deriving DecidableEq

/-- `types.NewAPIError`: the error and its code. -/
structure ApiError where
  code : ErrorCode
  err : Err
deriving DecidableEq

/-- The text `ErrInsufficientWalletQuota`. -/
def errInsufficientWalletQuota : Err := .text "wallet quota insufficient"

/-- `FundingSource.PreConsume`.  `reserve` is what `TryReserveUserQuota`
answers, `answer` what the subscription's transaction does. -/
def FundingSource.preConsume (amount : Int) (reserve : Except Err Bool)
    (answer : Option Err) (acc : Accounts) : Except Err (FundingSource × Accounts) :=
  match f with
  | .wallet consumed =>
    if amount ≤ 0 then .ok (.wallet consumed, acc)
    else
      match reserve with
      | .error e => .error e
      | .ok false => .error errInsufficientWalletQuota
      | .ok true => .ok (.wallet amount, { acc with walletQuota := acc.walletQuota - amount })
  | .subscription own _ _ =>
    -- the argument is ignored, the amount was fixed when the source was built
    match acc.preConsumeUserSubscription own answer with
    | .error e => .error e
    | .ok (record, acc') =>
      .ok (.subscription own record.userSubscriptionId record.preConsumed, acc')

/-! ### Opening a session -/

/-- A billing preference (`NormalizeBillingPreference`). -/
inductive BillingPreference where
  | subscriptionOnly
  | walletOnly
  | walletFirst
  | subscriptionFirst
deriving DecidableEq

/-- The request as the session sees it, and what every call made while
opening it answers; `walletTokenBack` and `subscriptionTokenBack` are those that
give the token back what it was charged for a source that refused. -/
structure OpenEnv where
  isPlayground : Bool := false
  forcePreConsume : Bool := false
  tokenUnlimited : Bool := false
  preference : BillingPreference := .subscriptionFirst
  quotaClamp : Option Err := none
  trustQuota : Int := 0
  tokenQuota : Int := 0
  getUserQuota : Except Err Int
  walletToken : Option Err := none
  subscriptionToken : Option Err := none
  walletTokenBack : Option Err := none
  subscriptionTokenBack : Option Err := none
  reserveWallet : Except Err Bool := .ok true
  preConsumeSubscription : Option Err := none
  hasActiveSubscription : Except Err Bool := .ok true
  allowWalletOverflow : Except Err Bool := .ok false
  formatQuota : Int → String := toString

variable (env : OpenEnv)

/-- `shouldTrust`. -/
def shouldTrust (funding : FundingSource) (userQuota : Int) : Bool :=
  if env.forcePreConsume then false
  else if env.trustQuota ≤ 0 then false
  else if env.tokenUnlimited = false ∧ env.tokenQuota ≤ env.trustQuota then false
  else
    match funding with
    | .wallet _ => decide (env.trustQuota < userQuota)
    | .subscription _ _ _ => false

/-- The answer to a failed `FundingSource.PreConsume`. -/
def preConsumeError (e : Err) : ApiError :=
  if e = errInsufficientWalletQuota then
    -- the balance is read again for the message; a failed read shows zero
    let userQuota := match env.getUserQuota with
      | .ok n => n
      | .error _ => 0
    ⟨.insufficientUserQuota, .text ("用户额度不足, 剩余额度: " ++ env.formatQuota userQuota)⟩
  else if containsText e.message "no active subscription" ||
      containsText e.message "subscription quota insufficient" then
    ⟨.insufficientUserQuota, .text ("订阅额度不足或未配置订阅: " ++ e.message)⟩
  else ⟨.updateDataError, e⟩

/-- `preConsume`: trust check, token, funding source; a failed funding source
gives the token back. -/
def BillingSession.preConsume (env : OpenEnv) (s : BillingSession) (quota userQuota : Int)
    (token tokenBack : Option Err) (acc : Accounts) : Except ApiError BillingSession × Accounts :=
  let trusted := shouldTrust env s.funding userQuota
  let effectiveQuota := if trusted then 0 else quota
  let tokenStep :=
    if 0 < effectiveQuota then acc.preConsumeTokenQuota s.isPlayground effectiveQuota token
    else .ok acc
  match tokenStep with
  | .error e => (.error ⟨.preConsumeTokenQuotaFailed, e⟩, acc)
  | .ok taken =>
    let tokenConsumed := if 0 < effectiveQuota then effectiveQuota else s.tokenConsumed
    match s.funding.preConsume effectiveQuota env.reserveWallet env.preConsumeSubscription taken with
    | .error e =>
      -- a failure of `IncreaseTokenQuota` is only logged
      let back :=
        if 0 < tokenConsumed ∧ s.isPlayground = false ∧ tokenBack = none then
          { taken with tokenRemain := taken.tokenRemain + tokenConsumed }
        else taken
      (.error (preConsumeError env e), back)
    | .ok (funding, acc') =>
      (.ok (BillingSession.syncRelayInfo
        { s with funding, trusted, tokenConsumed, preConsumedQuota := effectiveQuota }), acc')

/-- `tryWallet` of `NewBillingSession`. -/
def tryWallet (quota : Int) (acc : Accounts) : Except ApiError BillingSession × Accounts :=
  match env.getUserQuota with
  | .error e => (.error ⟨.queryDataError, e⟩, acc)
  | .ok userQuota =>
    if userQuota ≤ 0 then
      (.error ⟨.insufficientUserQuota,
        .text ("用户额度不足, 剩余额度: " ++ env.formatQuota userQuota)⟩, acc)
    else if userQuota - quota < 0 then
      (.error ⟨.insufficientUserQuota,
        .text ("预扣费额度失败, 用户剩余额度: " ++ env.formatQuota userQuota ++
          ", 需要预扣费额度: " ++ env.formatQuota quota)⟩, acc)
    else
      BillingSession.preConsume env
        { isPlayground := env.isPlayground, funding := .wallet 0 } quota userQuota
        env.walletToken env.walletTokenBack acc

/-- `trySubscription` of `NewBillingSession`: at least one unit is taken. -/
def trySubscription (quota : Int) (acc : Accounts) : Except ApiError BillingSession × Accounts :=
  let subConsume := if quota ≤ 0 then 1 else quota
  BillingSession.preConsume env
    { isPlayground := env.isPlayground, funding := .subscription subConsume 0 0 } subConsume 0
    env.subscriptionToken env.subscriptionTokenBack acc

/-- `NewBillingSession`: the preference decides which source is tried, and
when the other one is tried after it. -/
def newBillingSession (quota : Int) (acc : Accounts) : Except ApiError BillingSession × Accounts :=
  match env.preference with
  | .subscriptionOnly => trySubscription env quota acc
  | .walletOnly => tryWallet env quota acc
  | .walletFirst =>
    match tryWallet env quota acc with
    | (.ok s, acc') => (.ok s, acc')
    | (.error e, acc') =>
      if e.code = .insufficientUserQuota then trySubscription env quota acc'
      else (.error e, acc')
  | .subscriptionFirst =>
    match env.hasActiveSubscription with
    | .error e => (.error ⟨.queryDataError, e⟩, acc)
    | .ok false => tryWallet env quota acc
    | .ok true =>
      match trySubscription env quota acc with
      | (.ok s, acc') => (.ok s, acc')
      | (.error e, acc') =>
        if e.code = .insufficientUserQuota then
          match env.allowWalletOverflow with
          | .error e' => (.error ⟨.queryDataError, e'⟩, acc')
          | .ok true => tryWallet env quota acc'
          | .ok false => (.error e, acc')
        else (.error e, acc')

/-- `PreConsumeBilling`. -/
def preConsumeBilling (quota : Int) (acc : Accounts) : Except ApiError BillingSession × Accounts :=
  match env.quotaClamp with
  | some e => (.error ⟨.modelPriceError, e⟩, acc)
  | none =>
    if quota < 0 then
      (.error ⟨.modelPriceError, .text s!"pre-consume quota cannot be negative: {quota}"⟩, acc)
    else newBillingSession env quota acc

/-! ### Reserve -/

/-- `reserveFunding`. -/
def reserveFunding (f : FundingSource) (delta : Int) (answer : Option Err) (acc : Accounts) :
    Except ApiError (FundingSource × Accounts) :=
  match f with
  | .wallet consumed =>
    match answer with
    | some e => .error ⟨.updateDataError, e⟩
    | none =>
      -- unconditional: the balance may become negative
      .ok (.wallet (consumed + delta), { acc with walletQuota := acc.walletQuota - delta })
  | .subscription _ id _ =>
    match acc.postConsumeDelta id delta answer with
    | .error e =>
      .error ⟨.insufficientUserQuota, .text ("订阅额度不足或未配置订阅: " ++ e.message)⟩
    | .ok acc' => .ok (f, acc')

/-- `rollbackFundingReserve`. -/
def rollbackFundingReserve (f : FundingSource) (delta : Int) (acc : Accounts) : FundingSource × Accounts :=
  match f with
  | .wallet consumed =>
    (.wallet (consumed - delta), { acc with walletQuota := acc.walletQuota + delta })
  | .subscription _ id _ =>
    match acc.postConsumeDelta id (-delta) none with
    | .error _ => (f, acc)
    | .ok acc' => (f, acc')

/-- `reserveToken`. -/
def reserveToken (delta : Int) (answer : Option Err) (acc : Accounts) : Except ApiError Accounts :=
  if delta ≤ 0 ∨ isPlayground = true then .ok acc
  else
    match acc.preConsumeTokenQuota isPlayground delta answer with
    | .error e => .error ⟨.preConsumeTokenQuotaFailed, e⟩
    | .ok acc' => .ok acc'

variable (st : BillingState)

/-- `Reserve`. -/
def BillingState.reserve (targetQuota : Int) (funding token : Option Err) :
    Except ApiError Unit × BillingState :=
  let s := st.session
  if s.settled = true ∨ s.refunded = true ∨ s.trusted = true ∨ targetQuota ≤ s.preConsumedQuota then
    (.ok (), st)
  else
    let delta := targetQuota - s.preConsumedQuota
    match reserveFunding s.funding delta funding st.accounts with
    | .error e => (.error e, st)
    | .ok (f, acc) =>
      match reserveToken s.isPlayground delta token acc with
      | .error e =>
        let (f', acc') := rollbackFundingReserve f delta acc
        (.error e, { st with session := { s with funding := f' }, accounts := acc' })
      | .ok acc' =>
        (.ok (), { st with
          session := BillingSession.syncRelayInfo
            { s with
              funding := f
              preConsumedQuota := s.preConsumedQuota + delta
              tokenConsumed := s.tokenConsumed + delta
              extraReserved := s.extraReserved + delta }
          accounts := acc' })

/-! ### Settle -/

/-- The token step of `Settle`. -/
def settleToken (delta : Int) (answer : Option Err) (acc : Accounts) : Accounts :=
  if isPlayground = true ∨ answer ≠ none then acc
  else { acc with tokenRemain := acc.tokenRemain - delta }

/-- `Settle`.  Once the funding source has moved, a failing token step is
reported but the session is settled all the same. -/
def BillingState.settle (actualQuota : Int) (funding token : Option Err) : Except Err Unit × BillingState :=
  let s := st.session
  if s.settled then (.ok (), st)
  else
    let delta := actualQuota - s.preConsumedQuota
    if delta = 0 then (.ok (), { st with session := { s with settled := true } })
    else
      let fundingStep :=
        if s.fundingSettled then .ok st.accounts else s.funding.settle delta funding st.accounts
      match fundingStep with
      | .error e => (.error e, st)
      | .ok acc =>
        let answer : Except Err Unit :=
          match token with
          | some e => if s.isPlayground then .ok () else .error e
          | none => .ok ()
        (answer, { st with
          session := { s with fundingSettled := true, settled := true }
          accounts := settleToken s.isPlayground delta token acc })

/-! ### Refund -/

/-- `needsRefundLocked`. -/
def BillingSession.needsRefund : Bool :=
  if s.settled || s.refunded || s.fundingSettled then false
  else if 0 < s.tokenConsumed then true
  else
    match s.funding with
    | .subscription _ _ preConsumed => decide (0 < preConsumed)
    | .wallet _ => false

/-- `Refund` takes effect: it marks the session and queues the goroutine. -/
def BillingSession.RefundTakesEffect : Prop :=
  s.settled = false ∧ s.refunded = false ∧ s.needsRefund = true
deriving Decidable

/-- `Refund`, up to the start of its goroutine. -/
def BillingState.refund : BillingState :=
  if st.session.RefundTakesEffect then
    { st with
      session := { st.session with refunded := true }
      pending := some
        { tokenConsumed := st.session.tokenConsumed
          extraReserved := st.session.extraReserved
          subscriptionId := st.session.relaySubscriptionId
          isPlayground := st.session.isPlayground } }
  else st

/-- An error is logged and the accounts stay as they are. -/
def orLogged (acc : Accounts) (r : Except Err Accounts) : Accounts :=
  match r with
  | .ok acc' => acc'
  | .error _ => acc

/-- The second statement of the refund goroutine: the extra reserve of a
subscription is not part of its pre-consume record. -/
def RefundJob.giveBackExtra (job : RefundJob) (f : FundingSource) (acc : Accounts) : Accounts :=
  match f with
  | .subscription _ _ _ =>
    if 0 < job.extraReserved ∧ 0 < job.subscriptionId then
      orLogged acc (acc.postConsumeDelta job.subscriptionId (-job.extraReserved) none)
    else acc
  | .wallet _ => acc

/-- The last statement of the refund goroutine. -/
def RefundJob.giveBackToken (job : RefundJob) (acc : Accounts) : Accounts :=
  if 0 < job.tokenConsumed ∧ job.isPlayground = false then
    { acc with tokenRemain := acc.tokenRemain + job.tokenConsumed }
  else acc

/-- The refund goroutine, if it is still to run. -/
def BillingState.runJob : BillingState :=
  match st.pending with
  | none => st
  | some job =>
    let f := st.session.funding
    { st with
      accounts := job.giveBackToken
        (job.giveBackExtra f (orLogged st.accounts (f.refund st.accounts)))
      pending := none }

end MicrossApi
