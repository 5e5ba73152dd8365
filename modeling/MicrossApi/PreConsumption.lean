/-
MicrossApi/PreConsumption.lean

Opening a billing session takes its whole estimate from one source, or nothing.
`NewBillingSession` tries one source or two, each after charging the token, and
gives the token back what it took when the source refuses.  That this can fail
too, and is only logged, is set apart (`OpenEnv.GivesBack`).

In the database `PreConsumeUserSubscription` looks at the active subscriptions of
the user one after the other: it resets those that are due and takes the amount
from the first that has it left, all in one transaction.
-/
import MicrossApi.BillingSettlement
import MicrossApi.SubscriptionUsage

namespace MicrossApi

open List
open Tx hiding read

/-! ### The subscriptions -/

/-- The used amount of a subscription. -/
def DB.usedOf (db : DB) (id : Int) : Option Int64 :=
  (db.userSubscriptions.find? id).map (·.amountUsed)

/-- The used amount is as it was, or was reset. -/
def UsedOrReset (before after : Option Int64) : Prop :=
  after = before ∨ after = before.map fun _ => 0

/-- The request is charged to one of the subscriptions. -/
def ChargesOne (subs : List UserSubscription) (amount : Int64) (db : DB)
    (r : SubscriptionPreConsumeResult) (db' : DB) : Prop :=
  ∃ c ∈ subs, r.userSubscriptionId = c.id ∧ r.preConsumed = amount ∧
    (∃ before, UsedOrReset (db.usedOf c.id) (some before) ∧ db'.usedOf c.id = some (before + amount)) ∧
    ∀ id ≠ c.id, UsedOrReset (db.usedOf id) (db'.usedOf id)

variable {cal : Calendar} {env : PreConsumeEnv} {requestId : String} {userId : Int} {amount : Int64}
  {db db' : DB} {r : SubscriptionPreConsumeResult}

theorem usedOf_save {s : UserSubscription} (h : db'.userSubscriptions = db.userSubscriptions.save s)
    (id : Int) : db'.usedOf id =
      if id = s.id then (db.usedOf id).map fun _ => s.amountUsed else db.usedOf id := by
  unfold DB.usedOf
  rw [h, Table.find?_save]
  split
  · rw [Option.map_map, Option.map_map]
    rfl
  · rfl

/-- A candidate after its reset: its row has what it has. -/
theorem usedOf_refreshed {c sub : UserSubscription} {written : Bool}
    (h : refreshed cal env c = some (sub, written)) (hrow : db.usedOf c.id = some c.amountUsed) :
    sub.id = c.id ∧ UsedOrReset (db.usedOf c.id) (some sub.amountUsed) ∧
      ∀ id, (if written then db.saveSubscription sub else db).usedOf id
        = if id = c.id then some sub.amountUsed else db.usedOf id := by
  unfold refreshed at h
  split at h
  · cases h
  obtain ⟨hid, -, hused, hsame⟩ := maybeReset_eq_some (Option.filter_eq_some_iff.mp h).1
  refine ⟨hid, ?_, fun id => ?_⟩
  · rw [hrow]
    exact hused.imp (congrArg some) (congrArg some)
  · cases written with
    | false =>
      obtain rfl := hsame rfl
      show db.usedOf id = _
      split_ifs with hc
      · rw [hc]
        exact hrow
      · rfl
    | true =>
      refine (usedOf_save (s := sub) rfl id).trans ?_
      rw [hid]
      split_ifs with hc
      · rw [hc, hrow]
        rfl
      · rfl

theorem ok_consumeSubscription_new {sub : UserSubscription} (hnew : db.preConsumeRecords.find? requestId = none)
    (h : consumeSubscription env requestId userId amount sub db = .ok (r, db')) :
    r.userSubscriptionId = sub.id ∧ r.preConsumed = amount ∧
      db'.userSubscriptions = db.userSubscriptions.save (sub.charged amount) := by
  simp only [consumeSubscription, ok_bind_iff] at h
  obtain ⟨_, _, ⟨rfl, rfl⟩, h⟩ := h
  rcases hcreate : env.createOk with - | -
  · simp only [hcreate, hnew] at h
    exact absurd h not_ok_fail
  simp only [hcreate, hnew, ok_bind_iff, ok_update_iff, ok_require_iff] at h
  obtain ⟨_, _, rfl, _, _, ⟨-, rfl⟩, _, _, rfl, rfl, rfl⟩ := h
  exact ⟨rfl, rfl, rfl⟩

theorem ok_consumeFirst {subs : List UserSubscription} (hnew : db.preConsumeRecords.find? requestId = none)
    (hrows : ∀ c ∈ subs, db.usedOf c.id = some c.amountUsed) (hids : (subs.map (·.id)).Nodup)
    (h : consumeFirst cal env requestId userId amount subs db = .ok (r, db')) :
    ChargesOne subs amount db r db' := by
  induction subs generalizing db with
  | nil => exact absurd h not_ok_fail
  | cons c rest ih =>
    obtain ⟨hrow, hrows⟩ := forall_mem_cons.mp hrows
    obtain ⟨hc, hids⟩ := nodup_cons.mp hids
    rcases href : refreshed cal env c with - | ⟨sub, written⟩
    · obtain ⟨e, he⟩ := consumeFirst_of_not_refreshed href rest db
      rw [he] at h
      cases h
    obtain ⟨hid, hreset, hused⟩ := usedOf_refreshed href hrow
    have hrec : (if written then db.saveSubscription sub else db).preConsumeRecords.find? requestId = none := by
      cases written <;> exact hnew
    rw [consumeFirst_of_refreshed href rest db] at h
    generalize (if written then db.saveSubscription sub else db) = db₁ at h hused hrec
    split at h
    · -- the candidate is passed over: at most it was reset
      have hrest : ∀ x ∈ rest, x.id ≠ c.id := fun x hx heq => hc (mem_map.mpr ⟨x, hx, heq⟩)
      obtain ⟨x, hx, hrid, hpre, ⟨before, hbefore, hafter⟩, hothers⟩ := ih hrec
        (fun x hx => by rw [hused, if_neg (hrest x hx), hrows x hx]) hids h
      rw [hused, if_neg (hrest x hx)] at hbefore
      refine ⟨x, mem_cons_of_mem c hx, hrid, hpre, ⟨before, hbefore, hafter⟩, fun id hne => ?_⟩
      have hother := hothers id hne
      rw [hused] at hother
      split_ifs at hother with heq
      · subst heq
        rcases hother with hother | hother
        · exact hother ▸ hreset
        · rw [hrow]
          exact .inr hother
      · exact hother
    · obtain ⟨hrid, hpre, hsubs⟩ := ok_consumeSubscription_new hrec h
      have hcharged := usedOf_save hsubs
      refine ⟨c, mem_cons_self, hrid.trans hid, hpre, ⟨sub.amountUsed, hreset, ?_⟩, fun id hne => ?_⟩
      · rw [hcharged, if_pos (show c.id = (sub.charged amount).id from hid.symm), hused, if_pos rfl]
        rfl
      · rw [hcharged, if_neg (show id ≠ (sub.charged amount).id from hid ▸ hne), hused, if_neg hne]
        exact .inl rfl

theorem preConsumeUserSubscription_charges (hnew : db.preConsumeRecords.find? requestId = none) :
    (∃ e, preConsumeUserSubscription cal env requestId userId amount db = (.error e, db)) ∨
      ∃ r db', preConsumeUserSubscription cal env requestId userId amount db = (.ok r, db') ∧
        ChargesOne (db.activeSubscriptions userId env.now) amount db r db' := by
  unfold preConsumeUserSubscription
  split
  · exact .inl ⟨_, rfl⟩
  split
  · exact .inl ⟨_, rfl⟩
  split
  · exact .inl ⟨_, rfl⟩
  obtain ⟨r, db', h, heq⟩ | ⟨e, -, heq⟩ := atomically_cases (preConsumeTx cal env requestId userId amount) db
  · refine .inr ⟨r, db', heq, ?_⟩
    simp only [preConsumeTx, ok_bind_iff, ok_require_iff, ok_read_iff] at h
    obtain ⟨_, db₁, ⟨-, rfl⟩, _, _, ⟨rfl, rfl⟩, h⟩ := h
    rw [hnew] at h
    simp only [ok_bind_iff, ok_require_iff] at h
    obtain ⟨_, _, ⟨-, rfl⟩, _, _, ⟨rfl, rfl⟩, _, db₁, ⟨-, rfl⟩, h⟩ := h
    refine ok_consumeFirst hnew (fun c hc => ?_) ?_ h
    · have hmem : c ∈ db₁.userSubscriptions.rows := mem_of_mem_filter ((mem_insertionSort _).mp hc)
      rw [DB.usedOf, Table.find?_eq_some_iff.mpr ⟨hmem, rfl⟩]
      rfl
    · refine ((perm_insertionSort _ _).map _).nodup_iff.mpr ?_
      exact db₁.userSubscriptions.nodup.sublist (filter_sublist.map _)
  · exact .inl ⟨e, heq⟩

/-! ### All or nothing -/

/-- What opening a session on `acc` answers and leaves. -/
def AllOrNothing (env : OpenEnv) (acc : Accounts) : Except ApiError BillingSession × Accounts → Prop
  | (.error _, acc') => acc' = acc
  | (.ok s, acc') =>
    (match s.funding.source with
      | .wallet => env.PermitsWallet ∧ acc'.walletQuota = acc.walletQuota - s.preConsumedQuota ∧
          acc'.subscription = acc.subscription
      | .subscription => acc'.walletQuota = acc.walletQuota ∧ acc'.subscription.id = acc.subscription.id ∧
          acc'.subscription.amountUsed = acc.subscription.amountUsed + s.preConsumedQuota) ∧
      acc'.tokenRemain = acc.tokenRemain - (if env.isPlayground then 0 else s.preConsumedQuota) ∧
      (s.trusted = true → s.preConsumedQuota = 0)

theorem newBillingSession_allOrNothing {env : OpenEnv} {quota : Int} (hback : env.GivesBack)
    (hquota : 0 ≤ quota) {acc : Accounts}
    (hfresh : acc.record = none) : AllOrNothing env acc (newBillingSession env quota acc) := by
  have hopens := newBillingSession_opens env hback hquota hfresh
  have hcases := newBillingSession_cases env hback hquota hfresh
  rcases hr : newBillingSession env quota acc with ⟨e | s, acc'⟩
  · rw [hr] at hopens
    exact hopens
  rw [hr] at hopens hcases
  have hhold : Holding acc s.funding.source env.isPlayground { session := s, accounts := acc' } := hopens
  have hheld : netFunding s.funding.source acc acc' = s.preConsumedQuota := hhold.netFunding
  have htoken : acc.tokenRemain - acc'.tokenRemain = if env.isPlayground then 0 else s.preConsumedQuota :=
    hhold.token
  obtain ⟨e, h⟩ | ⟨hpermits, h⟩ | h := hcases
  · cases h
  · obtain ⟨hsource, htrusted, hsame⟩ := (tryWallet_opens env hback hquota acc).2 s acc' h.symm
    rw [hsource] at hheld
    refine ⟨?_, by omega, htrusted⟩
    rw [hsource]
    exact ⟨hpermits, by rw [← hheld]; exact (sub_sub_cancel _ _).symm, hsame⟩
  · obtain ⟨hsource, htrusted, hwallet, hid⟩ := (trySubscription_opens env hback quota hfresh).2 s acc' h.symm
    rw [hsource] at hheld
    refine ⟨?_, by omega, htrusted⟩
    rw [hsource]
    exact ⟨hwallet, hid, by rw [← hheld]; exact (add_sub_cancel _ _).symm⟩

/-- **All or nothing.**  For an amount that is not negative and a new request id,
where the token can be given back what it was charged: when `NewBillingSession`
fails, the accounts are as they were; otherwise the one source the session names
has been charged its estimate, and the token with it.  `PreConsumeBilling` passes
on no negative amount.  And of all subscriptions in the database a
pre-consumption charges one or none. -/
theorem preConsumption_allOrNothing (env : OpenEnv) (quota : Int) (acc : Accounts)
    (hback : env.GivesBack) (hfresh : acc.record = none) (cal : Calendar) (penv : PreConsumeEnv)
    (requestId : String) (userId : Int) (amount : Int64) (db : DB)
    (hnew : db.preConsumeRecords.find? requestId = none) :
    (0 ≤ quota → AllOrNothing env acc (newBillingSession env quota acc)) ∧
      AllOrNothing env acc (preConsumeBilling env quota acc) ∧
      ((∃ e, preConsumeUserSubscription cal penv requestId userId amount db = (.error e, db)) ∨
        ∃ r db', preConsumeUserSubscription cal penv requestId userId amount db = (.ok r, db') ∧
          ChargesOne (db.activeSubscriptions userId penv.now) amount db r db') := by
  refine ⟨fun hquota => newBillingSession_allOrNothing hback hquota hfresh, ?_,
    preConsumeUserSubscription_charges hnew⟩
  unfold preConsumeBilling
  rcases env.quotaClamp with - | e
  · dsimp only
    split
    · rfl
    next hquota =>
      exact newBillingSession_allOrNothing hback (not_lt.mp hquota) hfresh
  · rfl

/-- A request whose subscriptions have nothing left and allow the overflow. -/
def overflowRequest : OpenEnv where
  getUserQuota := .ok 1000
  preConsumeSubscription := some (.text "no active subscription")
  allowWalletOverflow := .ok true

/-- The wallet is charged after the subscription has refused. -/
theorem preConsumption_allOrNothing_overflow :
    AllOrNothing overflowRequest someAccounts (newBillingSession overflowRequest 100 someAccounts) ∧
      (newBillingSession overflowRequest 100 someAccounts).2.walletQuota = 900 :=
  ⟨(preConsumption_allOrNothing overflowRequest 100 someAccounts (by decide) rfl utcDays
      (requestAt 90000) "a" 7 30 (twoSubscriptions 5) (by decide)).1 (by decide), by decide +kernel⟩

/-- A request whose wallet has been emptied since it was read, and whose token is
not given back what it was charged. -/
def lostRollback : OpenEnv :=
  { walletRequest with reserveWallet := .ok false, walletTokenBack := some .db }

/-- For a negative amount the session says that it holds it, and nothing was
given.  For a request id that has been charged already the token is charged and
the subscription is not.  And where the rollback fails, the token stays charged
for a request that is refused. -/
theorem newBillingSession_not_allOrNothing :
    ((newBillingSession walletRequest (-1) someAccounts).2 = someAccounts ∧
      ¬ AllOrNothing walletRequest someAccounts (newBillingSession walletRequest (-1) someAccounts)) ∧
    (newBillingSession subscriptionRequest 10 subscriptionHeld
        = (.ok subscriptionSession, { subscriptionHeld with tokenRemain := 980 }) ∧
      ¬ AllOrNothing subscriptionRequest subscriptionHeld
        (newBillingSession subscriptionRequest 10 subscriptionHeld)) ∧
    (newBillingSession lostRollback 100 someAccounts).1.isOk = false ∧
      (newBillingSession lostRollback 100 someAccounts).2 = { someAccounts with tokenRemain := 900 } := by
  refine ⟨⟨by decide, fun h => ?_⟩, ⟨by decide, fun h => ?_⟩, by decide, by decide⟩
  · have hwallet : (1000 : Int) = 1000 - -1 := h.1.2.1
    omega
  · have hused : (15 : Int) = 15 + 10 := h.1.2.2
    omega

end MicrossApi
