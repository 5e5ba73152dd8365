/-
MicrossApi/SubscriptionUsage.lean

The used amount of a subscription.  It is moved by pre-consumptions, by
corrections and refunds, by the lazy and the batch reset and by an
administrator's reset, in any order and with any failures; in every state it
should be non-negative, and at most the total of a limited subscription.

All but one of the movers keep this: a reset writes zero, a correction clamps
at zero (also when its sum wraps) and refuses to exceed the total, and a
pre-consumption from a limited subscription compares with what is left.  But
an unlimited subscription is charged without any check, so its used amount
wraps to a negative number when the sum leaves the range of `int64`.
`ChargeFits` says that this does not happen, and
`subscription_usage_bounded` that nothing else can break the bounds.
-/
import MicrossApi.StepSystem
import MicrossApi.Subscription

namespace MicrossApi

open List StepSystem
open Tx hiding read

/-! ### The bounds -/

variable (s : UserSubscription) {db : DB} {a b : Int64} {cal : Calendar} {env : PreConsumeEnv}
  {c sub : UserSubscription} {written : Bool} {requestId : String} {userId : Int} {amount : Int64}
  {db' : DB}

/-- The used amount is non-negative, and at most the total if there is one. -/
def UserSubscription.Bounded : Prop :=
  0 ≤ s.amountUsed ∧ (0 < s.amountTotal → s.amountUsed ≤ s.amountTotal)
deriving Decidable

/-- Every subscription is within its bounds. -/
def UsageBounded (db : DB) : Prop := ∀ s ∈ db.userSubscriptions.rows, s.Bounded
deriving Decidable

theorem bounded_of_used_zero {s : UserSubscription} (h : s.amountUsed = 0) : s.Bounded := by
  refine ⟨by rw [h]; decide, fun ht => ?_⟩
  rw [h]
  exact Int64.le_of_lt ht

theorem UserSubscription.Bounded.congr {s s' : UserSubscription} (h : s.Bounded)
    (ht : s'.amountTotal = s.amountTotal) (hu : s'.amountUsed = s.amountUsed) : s'.Bounded := by
  unfold UserSubscription.Bounded
  rw [ht, hu]
  exact h

theorem UsageBounded.save (hdb : UsageBounded db) {s : UserSubscription}
    (hs : s.Bounded) : UsageBounded (db.saveSubscription s) := by
  intro x hx
  obtain ⟨y, hy, rfl⟩ := mem_map.mp hx
  by_cases hk : y.id = s.id
  · rw [if_pos hk]
    exact hs
  · rw [if_neg hk]
    exact hdb y hy

theorem UsageBounded.find (hdb : UsageBounded db) {id : Int} {s : UserSubscription}
    (h : db.userSubscriptions.find? id = some s) : s.Bounded :=
  hdb s (Table.mem_of_find? h)

/-! ### Charging a subscription -/

/-- The subscription with `amount` more used. -/
def UserSubscription.charged (amount : Int64) : UserSubscription :=
  { s with amountUsed := s.amountUsed + amount }

/-- The charge stays in the range of the counter. -/
def UserSubscription.HasRoom (amount : Int64) : Prop :=
  s.amountUsed.toInt + amount.toInt < 2 ^ 63
deriving Decidable

theorem toInt_add_of_fits (ha : 0 ≤ a.toInt) (hb : 0 ≤ b.toInt)
    (h : a.toInt + b.toInt < 2 ^ 63) : (a + b).toInt = a.toInt + b.toInt := by
  rw [Int64.toInt_add]
  apply Int.bmod_eq_of_le <;> omega

theorem toInt_sub_of_nonneg (ha : 0 ≤ a.toInt) (hb : 0 ≤ b.toInt) :
    (a - b).toInt = a.toInt - b.toInt := by
  have h1 := a.toInt_lt
  have h2 := b.toInt_lt
  rw [Int64.toInt_sub]
  apply Int.bmod_eq_of_le <;> omega

theorem nonneg_iff_toInt : 0 ≤ a ↔ 0 ≤ a.toInt := by
  rw [Int64.le_iff_toInt_le]
  rfl

theorem pos_iff_toInt : 0 < a ↔ 0 < a.toInt := by
  rw [Int64.lt_iff_toInt_lt]
  rfl

/-- A limited subscription that has the amount left takes it within its
bounds. -/
theorem bounded_charged_of_remain {s : UserSubscription} {amount : Int64} (hs : s.Bounded)
    (ha : 0 < amount) (ht : 0 < s.amountTotal) (hrem : ¬ s.amountTotal - s.amountUsed < amount) :
    (s.charged amount).Bounded := by
  obtain ⟨hu, hle⟩ := hs
  have hle := Int64.le_iff_toInt_le.mp (hle ht)
  have hu := nonneg_iff_toInt.mp hu
  have ha := pos_iff_toInt.mp ha
  have htot := s.amountTotal.toInt_lt
  rw [Int64.lt_iff_toInt_lt, toInt_sub_of_nonneg (by omega) hu] at hrem
  have hsum : (s.amountUsed + amount).toInt = s.amountUsed.toInt + amount.toInt :=
    toInt_add_of_fits hu (by omega) (by omega)
  refine ⟨nonneg_iff_toInt.mpr ?_, fun _ => Int64.le_iff_toInt_le.mpr ?_⟩
  · show 0 ≤ (s.amountUsed + amount).toInt
    omega
  · show (s.amountUsed + amount).toInt ≤ s.amountTotal.toInt
    omega

/-- An unlimited subscription stays within its bounds exactly when the sum
does not wrap. -/
theorem bounded_charged_iff_hasRoom {s : UserSubscription} {amount : Int64} (hs : s.Bounded)
    (ha : 0 < amount) (ht : ¬ 0 < s.amountTotal) : (s.charged amount).Bounded ↔ s.HasRoom amount := by
  have hu := nonneg_iff_toInt.mp hs.1
  have ha := pos_iff_toInt.mp ha
  have hu' := s.amountUsed.toInt_lt
  have ha' := amount.toInt_lt
  constructor
  · rintro ⟨h, -⟩
    by_contra hroom
    -- past the range the sum comes out 2 ^ 64 too small
    have hwrap : (s.amountUsed + amount).toInt = s.amountUsed.toInt + amount.toInt - 2 ^ 64 := by
      unfold UserSubscription.HasRoom at hroom
      rw [Int64.toInt_add, Int.bmod_def]
      omega
    have := nonneg_iff_toInt.mp h
    change 0 ≤ (s.amountUsed + amount).toInt at this
    omega
  · intro hroom
    refine ⟨nonneg_iff_toInt.mpr ?_, fun h => absurd h ht⟩
    show 0 ≤ (s.amountUsed + amount).toInt
    rw [toInt_add_of_fits hu (by omega) hroom]
    omega

/-! ### The subscription a request is charged to -/

/-- A candidate as its plan's reset leaves it, and whether that is written;
nothing when the plan cannot be read or the reset not be written. -/
def refreshed (cal : Calendar) (env : PreConsumeEnv) (candidate : UserSubscription) :
    Option (UserSubscription × Bool) :=
  match getSubscriptionPlanByIdTx env.lookup candidate.planId with
  | .error _ => none
  | .ok plan =>
    (maybeReset cal env.fuel candidate plan env.now).filter fun r =>
      r.2 = false ∨ env.resetOk candidate.id = true

/-- The first candidate that is not skipped, as its reset leaves it. -/
def firstCharged (cal : Calendar) (env : PreConsumeEnv) (amount : Int64) :
    List UserSubscription → Option UserSubscription
  | [] => none
  | candidate :: rest =>
    match refreshed cal env candidate with
    | none => none
    | some (sub, _) =>
      if 0 < sub.amountTotal ∧ sub.amountTotal - sub.amountUsed < amount then
        firstCharged cal env amount rest
      else some sub

/-- The subscription a request is charged to: none when its arguments are
refused, when it was seen before or when the database refuses a statement. -/
def chargedSubscription (cal : Calendar) (env : PreConsumeEnv) (requestId : String)
    (userId : Int) (amount : Int64) (db : DB) : Option UserSubscription :=
  if (0 < userId ∧ trimSpace requestId ≠ "" ∧ 0 < amount) ∧
      (env.queryOk = true ∧ env.lockOk = true ∧ env.createOk = true ∧ env.saveOk = true) ∧
      (db.preConsumeRecords.find? requestId).isNone then
    firstCharged cal env amount (db.activeSubscriptions userId env.now)
  else none

theorem isSome_find?_saveSubscription (db : DB) (id : Int) :
    ((db.saveSubscription s).userSubscriptions.find? id).isSome = (db.userSubscriptions.find? id).isSome := by
  show ((db.userSubscriptions.save s).find? id).isSome = _
  rw [Table.find?_save]
  by_cases h : id = s.id
  · rw [if_pos h, Option.isSome_map]
  · rw [if_neg h]

theorem refreshed_eq_some (hc : c.Bounded) (h : refreshed cal env c = some (sub, written)) :
    sub.id = c.id ∧ sub.Bounded := by
  unfold refreshed at h
  split at h
  · cases h
  obtain ⟨hreset, -⟩ := Option.filter_eq_some_iff.mp h
  obtain ⟨hid, htot, hused | hused, -⟩ := maybeReset_eq_some hreset
  · exact ⟨hid, hc.congr htot hused⟩
  · exact ⟨hid, bounded_of_used_zero hused⟩

/-- The statements on one candidate, when they all go through. -/
theorem consumeFirst_of_refreshed
    (h : refreshed cal env c = some (sub, written)) (rest : List UserSubscription) (db : DB) :
    consumeFirst cal env requestId userId amount (c :: rest) db
      = (if 0 < sub.amountTotal ∧ sub.amountTotal - sub.amountUsed < amount then
          consumeFirst cal env requestId userId amount rest
        else consumeSubscription env requestId userId amount sub)
          (if written then db.saveSubscription sub else db) := by
  unfold refreshed at h
  rcases hplan : getSubscriptionPlanByIdTx env.lookup c.planId with e | plan
  · rw [hplan] at h
    cases h
  rw [hplan] at h
  obtain ⟨hreset, hok⟩ := Option.filter_eq_some_iff.mp h
  simp only [consumeFirst, hplan]
  refine (bind_of_ok (ok_lift_iff.mpr ⟨rfl, rfl⟩)).trans ?_
  apply bind_of_ok
  refine ok_maybeResetTx_iff.mpr ⟨written, hreset, fun hw => ?_, rfl⟩
  simpa [hw] using hok

/-- The statements on one candidate, when one of them is refused. -/
theorem consumeFirst_of_not_refreshed
    (h : refreshed cal env c = none) (rest : List UserSubscription) (db : DB) :
    ∃ e, consumeFirst cal env requestId userId amount (c :: rest) db = .error e := by
  rcases hrun : consumeFirst cal env requestId userId amount (c :: rest) db with e | ⟨r, db'⟩
  · exact ⟨e, rfl⟩
  exfalso
  simp only [consumeFirst, ok_bind_iff, ok_lift_iff, ok_maybeResetTx_iff] at hrun
  obtain ⟨plan, _, ⟨hplan, rfl⟩, sub, _, ⟨written, hreset, hok, -⟩, -⟩ := hrun
  unfold refreshed at h
  rw [hplan] at h
  apply Option.filter_eq_none_iff.mp h _ hreset
  cases written with
  | false => simp
  | true => simp [hok rfl]

/-- The loop over the candidates fails, or it resets some of them and then
charges the first that is not skipped. -/
theorem consumeFirst_cases (cal : Calendar) (env : PreConsumeEnv) (requestId : String)
    (userId : Int) (amount : Int64) (subs : List UserSubscription) (db : DB)
    (hsubs : ∀ c ∈ subs, c.Bounded ∧ (db.userSubscriptions.find? c.id).isSome) (hdb : UsageBounded db) :
    ((∃ e, consumeFirst cal env requestId userId amount subs db = .error e) ∧
        firstCharged cal env amount subs = none) ∨ ∃ s db₁, firstCharged cal env amount subs = some s ∧
        consumeFirst cal env requestId userId amount subs db
          = consumeSubscription env requestId userId amount s db₁ ∧
        s.Bounded ∧ UsageBounded db₁ ∧ (db₁.userSubscriptions.find? s.id).isSome ∧
        db₁.preConsumeRecords = db.preConsumeRecords ∧
        ¬ (0 < s.amountTotal ∧ s.amountTotal - s.amountUsed < amount) := by
  induction subs generalizing db with
  | nil => exact Or.inl ⟨⟨_, rfl⟩, rfl⟩
  | cons c rest ih =>
    obtain ⟨hc, hfound⟩ := hsubs c mem_cons_self
    rcases href : refreshed cal env c with - | ⟨sub, written⟩
    · exact Or.inl ⟨consumeFirst_of_not_refreshed href rest db, by simp only [firstCharged, href]⟩
    obtain ⟨hid, hsub⟩ := refreshed_eq_some hc href
    rw [consumeFirst_of_refreshed href rest db]
    -- the reset changes neither the records nor which subscriptions there are
    generalize hdb₁ : (if written then db.saveSubscription sub else db) = db₁
    have hb₁ : UsageBounded db₁ ∧ db₁.preConsumeRecords = db.preConsumeRecords ∧
        ∀ id, (db₁.userSubscriptions.find? id).isSome
          = (db.userSubscriptions.find? id).isSome := by
      cases written with
      | false => subst hdb₁; exact ⟨hdb, rfl, fun _ => rfl⟩
      | true =>
        subst hdb₁
        exact ⟨hdb.save hsub, rfl, isSome_find?_saveSubscription sub db⟩
    obtain ⟨hb₁, hrec, hids⟩ := hb₁
    by_cases hskip : 0 < sub.amountTotal ∧ sub.amountTotal - sub.amountUsed < amount
    · have hfirst : firstCharged cal env amount (c :: rest)
          = firstCharged cal env amount rest := by
        simp only [firstCharged, href, if_pos hskip]
      rw [if_pos hskip, hfirst, ← hrec]
      apply ih db₁
      · intro x hx
        obtain ⟨h1, h2⟩ := hsubs x (mem_cons_of_mem c hx)
        exact ⟨h1, (hids x.id).trans h2⟩
      · exact hb₁
    · refine Or.inr ⟨sub, db₁, ?_, ?_, hsub, hb₁, ?_, hrec, hskip⟩
      · simp only [firstCharged, href, if_neg hskip]
      · rw [if_neg hskip]
      · rw [hid, hids c.id]
        exact hfound

/-! ### One pre-consumption -/

theorem UsageBounded.of_subscriptions {db : DB} (hdb : UsageBounded db)
    (h : db'.userSubscriptions = db.userSubscriptions) : UsageBounded db' := by
  unfold UsageBounded
  rw [h]
  exact hdb

variable {r : SubscriptionPreConsumeResult}

theorem ok_alreadyConsumed {dup : SubscriptionPreConsumeRecord} {db : DB}
    (h : alreadyConsumed sub dup db = .ok (r, db')) : db' = db := by
  unfold alreadyConsumed at h
  split at h
  · exact absurd h not_ok_fail
  · exact (ok_pure_iff.mp h).2

theorem consumeSubscription_charges (userId : Int)
    (amount : Int64) (sub : UserSubscription) (hcreate : env.createOk = true)
    (hsave : env.saveOk = true) (hnew : db.preConsumeRecords.find? requestId = none) :
    ∃ r db', consumeSubscription env requestId userId amount sub db = .ok (r, db') ∧
      db'.userSubscriptions = db.userSubscriptions.save (sub.charged amount) := by
  simp only [consumeSubscription, ok_bind_iff, ok_read_iff]
  refine ⟨⟨sub.id, amount, sub.amountTotal, sub.amountUsed, sub.amountUsed + amount⟩,
    DB.saveSubscription
      { db with
        preConsumeRecords :=
          db.preConsumeRecords.insert ⟨requestId, userId, sub.id, amount, .consumed⟩ }
      (sub.charged amount), ⟨_, _, ⟨rfl, rfl⟩, ?_⟩, rfl⟩
  rw [hcreate, hnew]
  simp only [hsave, ok_bind_iff, ok_require_iff, ok_pure_iff]
  exact ⟨(), _, rfl, (), _, ⟨trivial, rfl⟩, (), _, rfl, trivial, rfl⟩

/-- Otherwise no subscription changes. -/
theorem ok_consumeSubscription {db : DB}
    (h : consumeSubscription env requestId userId amount sub db = .ok (r, db'))
    (hno : ¬ (env.createOk = true ∧ env.saveOk = true ∧ db.preConsumeRecords.find? requestId = none)) :
    db' = db := by
  simp only [consumeSubscription, ok_bind_iff, ok_read_iff] at h
  obtain ⟨filed, _, ⟨hfiled, rfl⟩, h⟩ := h
  rcases filed with - | dup
  · rcases hcreate : env.createOk with - | -
    · simp only [hcreate] at h
      exact absurd h not_ok_fail
    simp only [hcreate, ok_bind_iff, ok_require_iff] at h
    obtain ⟨_, _, -, _, _, ⟨hsave, -⟩, -⟩ := h
    exact absurd ⟨hcreate, hsave, hfiled.symm⟩ hno
  · rcases hcreate : env.createOk with - | - <;> simp only [hcreate] at h <;> exact ok_alreadyConsumed h

theorem bounded_of_mem_active (hdb : UsageBounded db) {userId now : Int}
    (h : c ∈ db.activeSubscriptions userId now) :
    c.Bounded ∧ (db.userSubscriptions.find? c.id).isSome := by
  have hmem : c ∈ db.userSubscriptions.rows :=
    mem_of_mem_filter ((mem_insertionSort _).mp h)
  refine ⟨hdb c hmem, ?_⟩
  rw [Table.find?_eq_some_iff.mpr ⟨hmem, rfl⟩]
  rfl

theorem usageBounded_save_charged_iff (hdb : UsageBounded db) {s : UserSubscription}
    (hs : s.Bounded) (ha : 0 < amount) (hfound : (db.userSubscriptions.find? s.id).isSome)
    (hleft : ¬ (0 < s.amountTotal ∧ s.amountTotal - s.amountUsed < amount)) :
    UsageBounded (db.saveSubscription (s.charged amount)) ↔ (¬ 0 < s.amountTotal → s.HasRoom amount) := by
  constructor
  · intro h ht
    apply (bounded_charged_iff_hasRoom hs ha ht).mp
    -- the row written is found under its id
    obtain ⟨old, hold⟩ := Option.isSome_iff_exists.mp hfound
    have hrow : (db.saveSubscription (s.charged amount)).userSubscriptions.find? s.id
        = some (s.charged amount) := by
      show (db.userSubscriptions.save (s.charged amount)).find? s.id = _
      rw [Table.find?_save, if_pos (show s.id = (s.charged amount).id from rfl), hold]
      rfl
    exact h.find hrow
  · intro h
    apply hdb.save
    by_cases ht : 0 < s.amountTotal
    · exact bounded_charged_of_remain hs ha ht fun hlt => hleft ⟨ht, hlt⟩
    · exact (bounded_charged_iff_hasRoom hs ha ht).mpr (h ht)

/-- A transaction on a request that was seen before, or that the database
refuses at once, leaves the store as it is. -/
theorem ok_preConsumeTx {db : DB}
    (h : preConsumeTx cal env requestId userId amount db = .ok (r, db')) : db' = db ∨
      env.queryOk = true ∧ env.lockOk = true ∧ db.preConsumeRecords.find? requestId = none ∧
        consumeFirst cal env requestId userId amount (db.activeSubscriptions userId env.now) db
          = .ok (r, db') := by
  simp only [preConsumeTx, ok_bind_iff, ok_require_iff, ok_read_iff] at h
  obtain ⟨_, _, ⟨hquery, rfl⟩, existing, _, ⟨hexisting, rfl⟩, h⟩ := h
  rcases existing with - | filed
  · simp only [ok_bind_iff, ok_require_iff] at h
    obtain ⟨_, _, ⟨hlock, rfl⟩, _, _, ⟨rfl, rfl⟩, _, _, ⟨-, rfl⟩, h⟩ := h
    exact Or.inr ⟨hquery, hlock, hexisting.symm, h⟩
  · simp only [ok_bind_iff, ok_require_iff, ok_fetch_iff] at h
    obtain ⟨_, _, ⟨-, rfl⟩, _, _, ⟨-, rfl⟩, _, _, ⟨-, rfl⟩, h⟩ := h
    exact Or.inl (ok_alreadyConsumed h)

/-- The transaction on a new request is the loop over the candidates. -/
theorem preConsumeTx_eq (hquery : env.queryOk = true)
    (hlock : env.lockOk = true) (hnew : db.preConsumeRecords.find? requestId = none)
    (hsubs : db.activeSubscriptions userId env.now ≠ []) : preConsumeTx cal env requestId userId amount db
      = consumeFirst cal env requestId userId amount (db.activeSubscriptions userId env.now) db := by
  unfold preConsumeTx
  rw [require_bind hquery, read_bind, hnew]
  show (require (env.lockOk = true) (Err.text "no active subscription") >>= _) db = _
  rw [require_bind hlock, read_bind, require_bind hsubs]

section Bounded

variable (hdb : UsageBounded db)

include hdb

theorem usageBounded_preConsume
    (hfits : ∀ s, chargedSubscription cal env requestId userId amount db = some s →
      ¬ 0 < s.amountTotal → s.HasRoom amount) :
    UsageBounded (preConsumeUserSubscription cal env requestId userId amount db).2 := by
  unfold preConsumeUserSubscription
  split
  · exact hdb
  split
  · exact hdb
  split
  · exact hdb
  rename_i huser hrequest hamount
  have ha : 0 < amount := Int64.not_le.mp hamount
  refine atomically_inv (fun r db' h => ?_) hdb
  obtain rfl | ⟨hquery, hlock, hnew, h⟩ := ok_preConsumeTx h
  · exact hdb
  obtain ⟨⟨e, he⟩, -⟩ | ⟨s, db₁, hs, hrun, hsb, hb₁, hfound, hrec, hleft⟩ :=
    consumeFirst_cases cal env requestId userId amount _ db
      (fun c hc => bounded_of_mem_active hdb hc) hdb
  · rw [he] at h
    cases h
  rw [hrun] at h
  by_cases hok : env.createOk = true ∧ env.saveOk = true ∧
      db₁.preConsumeRecords.find? requestId = none
  · -- the charge goes through
    obtain ⟨hcreate, hsave, hnew₁⟩ := hok
    obtain ⟨r', db'', hrun', hsubs⟩ := consumeSubscription_charges userId amount s hcreate hsave hnew₁
    rw [hrun'] at h
    cases h
    have hcharged : chargedSubscription cal env requestId userId amount db = some s := by
      unfold chargedSubscription
      rw [if_pos, hs]
      exact ⟨⟨by omega, hrequest, ha⟩, ⟨hquery, hlock, hcreate, hsave⟩, by rw [hnew]; rfl⟩
    have hb := (usageBounded_save_charged_iff hb₁ hsb ha hfound hleft).mpr (hfits s hcharged)
    exact hb.of_subscriptions hsubs
  · rw [ok_consumeSubscription h hok]
    exact hb₁

/-- Charging an unlimited subscription past the range breaks the bounds. -/
theorem not_usageBounded_preConsume {s : UserSubscription}
    (hs : chargedSubscription cal env requestId userId amount db = some s)
    (ht : ¬ 0 < s.amountTotal) (hroom : ¬ s.HasRoom amount) :
    ¬ UsageBounded (preConsumeUserSubscription cal env requestId userId amount db).2 := by
  unfold chargedSubscription at hs
  split at hs
  next hok =>
    obtain ⟨⟨huser, hrequest, ha⟩, ⟨hquery, hlock, hcreate, hsave⟩, hnew⟩ := hok
    rw [Option.isNone_iff_eq_none] at hnew
    have hsubs : db.activeSubscriptions userId env.now ≠ [] := by
      intro h
      rw [h] at hs
      cases hs
    obtain ⟨-, hnone⟩ | ⟨s', db₁, hs', hrun, hsb, hb₁, hfound, hrec, hleft⟩ :=
      consumeFirst_cases cal env requestId userId amount _ db
        (fun c hc => bounded_of_mem_active hdb hc) hdb
    · rw [hnone] at hs
      cases hs
    rw [hs'] at hs
    cases hs
    obtain ⟨r, db', hcons, hwritten⟩ :=
      consumeSubscription_charges userId amount s hcreate hsave (hrec ▸ hnew)
    have hresult : (preConsumeUserSubscription cal env requestId userId amount db).2 = db' := by
      unfold preConsumeUserSubscription
      rw [if_neg (by omega), if_neg hrequest, if_neg (Int64.not_le.mpr ha)]
      simp only [atomically, preConsumeTx_eq hquery hlock hnew hsubs, hrun, hcons]
    rw [hresult]
    intro hb
    apply hroom
    apply (usageBounded_save_charged_iff hb₁ hsb ha hfound hleft).mp _ ht
    exact hb.of_subscriptions hwritten.symm
  · cases hs

/-! ### The other movers -/

/-- A correction clamps at zero and refuses to exceed the total. -/
theorem usageBounded_postConsume (env : PostConsumeEnv) (id : Int) (delta : Int64) :
    UsageBounded (postConsumeUserSubscriptionDelta env id delta db).2 := by
  unfold postConsumeUserSubscriptionDelta
  split
  · exact hdb
  split
  · exact hdb
  refine atomically_inv (fun _ db' h => ?_) hdb
  simp only [postConsumeTx, ok_require_bind_iff, ok_fetch_bind_iff, ok_update_iff] at h
  obtain ⟨-, sub, -, htotal, -, rfl⟩ := h
  apply hdb.save
  refine ⟨?_, fun ht => Int64.not_lt.mp fun hlt => htotal ⟨ht, hlt⟩⟩
  -- also a wrapped sum is either clamped or non-negative
  show 0 ≤ if sub.amountUsed + delta < 0 then 0 else sub.amountUsed + delta
  split
  · decide
  next h =>
    exact Int64.not_lt.mp h

theorem usageBounded_refund {env : RefundPreConsumeEnv} :
    UsageBounded (refundSubscriptionPreConsume env requestId db).2 := by
  have hmark : ∀ (r : SubscriptionPreConsumeRecord) (x : DB), UsageBounded x →
      UsageBounded (markRefunded env.saveOk r x).2 := by
    intro r x hx
    unfold markRefunded
    split
    · exact hx.of_subscriptions rfl
    · exact hx
  unfold refundSubscriptionPreConsume
  split
  · exact hdb
  split
  · exact hdb
  split
  · exact hdb
  rename_i r _
  split
  · exact hdb
  split
  · exact hmark r db hdb
  -- the correction is committed whatever becomes of the mark
  have hpost := usageBounded_postConsume hdb env.post r.userSubscriptionId (-r.preConsumed)
  split
  next heq =>
    rw [heq] at hpost
    exact hpost
  next heq =>
    rw [heq] at hpost
    exact hmark r _ hpost

theorem usageBounded_resetDueOne (cal : Calendar) (env : ResetDueEnv) (sub : UserSubscription) :
    UsageBounded (resetDueOne cal env sub db).2 := by
  unfold resetDueOne
  split
  · exact hdb
  refine atomically_inv (fun _ db' h => ?_) hdb
  simp only [resetDueTx, ok_bind_iff, ok_read_iff] at h
  obtain ⟨locked, _, ⟨hlocked, rfl⟩, h⟩ := h
  rcases locked with - | row
  · obtain ⟨-, rfl⟩ := ok_pure_iff.mp h
    exact hdb
  have hrow : row.Bounded := by
    split at hlocked
    · exact hdb.find (Option.filter_eq_some_iff.mp hlocked.symm).1
    · cases hlocked
  simp only [ok_bind_iff, ok_maybeResetTx_iff] at h
  obtain ⟨row', _, ⟨written, hreset, -, rfl⟩, -, rfl⟩ := h
  cases written with
  | false => exact hdb
  | true =>
    apply hdb.save
    obtain ⟨-, htot, hused | hused, -⟩ := maybeReset_eq_some hreset
    · exact hrow.congr htot hused
    · exact bounded_of_used_zero hused

theorem usageBounded_resetDueLoop {env : ResetDueEnv} (subs : List UserSubscription) (n : Nat) :
    UsageBounded (resetDueLoop cal env subs n db).2 := by
  induction subs generalizing n db with
  | nil => exact hdb
  | cons sub rest ih =>
    have hone := usageBounded_resetDueOne hdb cal env sub
    unfold resetDueLoop
    split
    next heq =>
      rw [heq] at hone
      exact hone
    next heq =>
      rw [heq] at hone
      exact ih hone _

theorem usageBounded_adminReset {env : AdminResetEnv} {user : Option Int} {planId : Int} {advance : Bool} :
    UsageBounded (atomically (adminResetTx cal env user planId advance) db).2 := by
  refine atomically_inv (fun _ db' h => ?_) hdb
  simp only [adminResetTx, ok_bind_iff, ok_lift_iff, ok_require_iff, ok_read_iff] at h
  obtain ⟨plan, _, ⟨-, rfl⟩, _, _, ⟨-, rfl⟩, subs, _, ⟨-, rfl⟩, _, db₁, ⟨-, rfl⟩, _, _, h, -, rfl⟩ := h
  induction subs generalizing db₁ with
  | nil =>
    obtain ⟨-, rfl⟩ := ok_pure_iff.mp h
    exact hdb
  | cons sub rest ih =>
    simp only [resetUserSubscriptionsTx, ok_require_bind_iff] at h
    refine ih _ (hdb.save (bounded_of_used_zero ?_)) h.2
    cases advance with
    | false | true => rfl

/-! ### Runs -/

/-- What moves the used amount of a subscription.  The batch reset is one
iteration of its loop, so that others may come in between, or the whole
loop. -/
inductive UsageOp where
  | preConsume (env : PreConsumeEnv) (requestId : String) (userId : Int) (amount : Int64)
  | postConsume (env : PostConsumeEnv) (userSubscriptionId : Int) (delta : Int64)
  | refund (env : RefundPreConsumeEnv) (requestId : String)
  | resetDueOne (env : ResetDueEnv) (sub : UserSubscription)
  | resetDue (env : ResetDueEnv) (limit : Int)
  | adminResetUser (env : AdminResetEnv) (userId planId : Int) (advanceResetTime : Bool)
  | adminResetPlan (env : AdminResetEnv) (planId : Int) (advanceResetTime : Bool)

/-- The store after an operation, whether it succeeded or not. -/
def usageStep (cal : Calendar) (db : DB) : UsageOp → DB
  | .preConsume env requestId userId amount =>
    (preConsumeUserSubscription cal env requestId userId amount db).2
  | .postConsume env id delta => (postConsumeUserSubscriptionDelta env id delta db).2
  | .refund env requestId => (refundSubscriptionPreConsume env requestId db).2
  | .resetDueOne env sub => (resetDueOne cal env sub db).2
  | .resetDue env limit => (resetDueSubscriptions cal env limit db).2
  | .adminResetUser env userId planId advance =>
    (adminResetUserSubscriptionsByPlan cal env userId planId advance db).2
  | .adminResetPlan env planId advance => (adminResetPlanSubscriptions cal env planId advance db).2

/-- An unlimited subscription that a pre-consumption charges has room for the
amount. -/
def ChargeFits (cal : Calendar) (db : DB) : UsageOp → Prop
  | .preConsume env requestId userId amount =>
    ∀ s ∈ chargedSubscription cal env requestId userId amount db,
      ¬ 0 < s.amountTotal → s.HasRoom amount
  | _ => True

instance (op) : Decidable (ChargeFits cal db op) := by
  unfold ChargeFits
  split <;> infer_instance

theorem usageBounded_step {op : UsageOp} (hfits : ChargeFits cal db op) :
    UsageBounded (usageStep cal db op) := by
  cases op with
  | preConsume => exact usageBounded_preConsume hdb hfits
  | postConsume env id delta => exact usageBounded_postConsume hdb env id delta
  | refund => exact usageBounded_refund hdb
  | resetDueOne env sub => exact usageBounded_resetDueOne hdb cal env sub
  | resetDue =>
    simp only [usageStep, resetDueSubscriptions]
    split
    · exact hdb
    · exact usageBounded_resetDueLoop hdb _ 0
  | adminResetUser =>
    simp only [usageStep, adminResetUserSubscriptionsByPlan]
    split
    · exact hdb
    · exact usageBounded_adminReset hdb
  | adminResetPlan =>
    simp only [usageStep, adminResetPlanSubscriptions]
    split
    · exact hdb
    · exact usageBounded_adminReset hdb

theorem not_usageBounded_step {op : UsageOp} (hfits : ¬ ChargeFits cal db op) :
    ¬ UsageBounded (usageStep cal db op) := by
  cases op with
  | preConsume =>
    simp only [ChargeFits] at hfits
    push Not at hfits
    obtain ⟨s, hs, ht, hroom⟩ := hfits
    exact not_usageBounded_preConsume hdb hs ht hroom
  | _ => exact absurd trivial hfits

end Bounded

/-- **The used amount stays within its bounds** in every run in which no
charge of an unlimited subscription wraps; and a charge that does breaks
them. -/
theorem subscription_usage_bounded (cal : Calendar) (db : DB) (hdb : UsageBounded db) :
    (∀ ops, Along (usageStep cal) (ChargeFits cal) db ops → UsageBounded (exec (usageStep cal) db ops)) ∧
    ∀ ops op, Along (usageStep cal) (ChargeFits cal) db ops →
      ¬ ChargeFits cal (exec (usageStep cal) db ops) op →
      ¬ UsageBounded (exec (usageStep cal) db (ops ++ [op])) := by
  have hrun : ∀ ops, Along (usageStep cal) (ChargeFits cal) db ops →
      UsageBounded (exec (usageStep cal) db ops) := by
    intro ops hops
    apply exec_inv_along (I := UsageBounded) _ hdb hops
    intro x op hfits hx
    exact usageBounded_step hx hfits
  refine ⟨hrun, fun ops op hops hfits => ?_⟩
  rw [exec_append, exec_cons]
  exact not_usageBounded_step (hrun ops hops) hfits

/-- User 7 with a daily limit of 100, of which 90 are used, and an unlimited
subscription that ends later and has `used` used. -/
def twoSubscriptions (used : Int64) : DB where
  userSubscriptions :=
    { rows :=
        [{ id := 1, userId := 7, planId := 1, amountTotal := 100, amountUsed := 90
           startTime := 86400, endTime := 864000, lastResetTime := 86400
           nextResetTime := 172800 },
         { id := 2, userId := 7, planId := 2, amountTotal := 0, amountUsed := used
           startTime := 86400, endTime := 950400 }]
      nodup := by simp }

/-- A request at time `now`, all of whose statements succeed. -/
def requestAt (now : Int) : PreConsumeEnv where
  now := now
  lookup id := .ok { id := id, quotaResetPeriod := if id = 1 then "daily" else "never" }

/-- Thirty units come from the unlimited subscription on the first day and,
after the reset, from the limited one on the second; a refund and a late
correction follow. -/
theorem subscription_usage_bounded_acrossReset :
    let ops := [UsageOp.preConsume (requestAt 90000) "a" 7 30,
      .preConsume (requestAt 180000) "b" 7 30, .refund {} "a", .postConsume {} 1 (-50)]
    UsageBounded (twoSubscriptions 5) ∧
      Along (usageStep utcDays) (ChargeFits utcDays) (twoSubscriptions 5) ops ∧
      ((exec (usageStep utcDays) (twoSubscriptions 5) ops).userSubscriptions.rows.map
        (·.amountUsed)) = [0, 5] ∧
      UsageBounded (exec (usageStep utcDays) (twoSubscriptions 5) ops) := by
  intro ops
  have hdb : UsageBounded (twoSubscriptions 5) := by decide
  have hops : Along (usageStep utcDays) (ChargeFits utcDays) (twoSubscriptions 5) ops := by
    decide +kernel
  exact ⟨hdb, hops, by decide +kernel,
    (subscription_usage_bounded utcDays (twoSubscriptions 5) hdb).1 ops hops⟩

/-- One unit more than `int64` holds: the unlimited subscription ends up
with a negative used amount. -/
theorem unlimited_usage_wraps : UsageBounded (twoSubscriptions 0) ∧
      ¬ UsageBounded (exec (usageStep utcDays) (twoSubscriptions 0)
        [.preConsume (requestAt 90000) "a" 7 9223372036854775807,
          .preConsume (requestAt 90000) "b" 7 11]) := by
  decide +kernel

end MicrossApi
