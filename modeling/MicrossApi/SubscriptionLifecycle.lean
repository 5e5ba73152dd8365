/-
MicrossApi/SubscriptionLifecycle.lean

The life of a subscription (model/subscription.go): bought from a plan, which
may move the user into another group and bind a discount; ended by the expiry
task, or cancelled or deleted by an administrator, which may move the user
back.  The purchase is `CreateUserSubscriptionFromPlanTx` on the store with
the bindings; `createSubscription_refines` says that the shared store sees
exactly what the model of the purchase without bindings says.

A state of the system has a clock, which only goes forward, and the list of
what was bought.  The expiry task and the administrator's operations read the
clock before their transactions, so these may run with an earlier time.
-/
import MicrossApi.DiscountBinding
import MicrossApi.StepSystem

namespace MicrossApi

open StepSystem
open Tx hiding read

/-! ### Buying -/

/-- What the database answers while a subscription is bought. -/
structure BuyEnv where
  create : CreateEnv
  bind : BindEnv
deriving DecidableEq, Repr

/-- Insert the subscription; refused when the id is taken. -/
def insertSubscription (createOk : Bool) (sub : UserSubscription) : Tx DB Err Unit := do
  let taken ← Tx.read fun db : DB => (db.userSubscriptions.find? sub.id).isSome
  require (createOk = true ∧ taken = false) .db
  update fun db : DB => { db with userSubscriptions := db.userSubscriptions.insert sub }

/-- `CreateUserSubscriptionFromPlanTx`, with the binding it writes. -/
def createSubscription (cal : Calendar) (env : BuyEnv) (now userId : Int)
    (plan : SubscriptionPlan) (source : String) : Tx BindingDB Err UserSubscription := do
  let create := { env.create with now := now }
  require (plan.id ≠ 0) (.text "invalid plan")
  require (0 < userId) (.text "invalid user id")
  onDB (checkPurchaseLimit create userId plan)
  let endUnix ← lift (calcPlanEndTime cal now plan)
  let prevGroup ← onDB (upgradeUserGroup create userId (trimSpace plan.upgradeGroup))
  let sub := subscriptionFromPlan cal create userId plan source endUnix prevGroup
  onDB (insertSubscription create.createOk sub)
  mapError (fun e => .text s!"bind subscription discount: {e.message}")
    (bindSubscriptionDiscount env.bind now userId plan sub)
  pure sub

/-! ### Leaving the group of a subscription -/

/-- What the database answers while the group is restored.  The error of
`activeQueryOk` is ignored by the code. -/
structure DowngradeEnv where
  readGroupOk : Bool := true
  activeQueryOk : Bool := true
  updateGroupOk : Bool := true
deriving DecidableEq, Repr

/-- `s` is an active subscription of the user that has a group and ends after
`now`. -/
def UserSubscription.KeepsGroup (s : UserSubscription) (userId now : Int) : Prop :=
  s.userId = userId ∧ s.status = .active ∧ now < s.endTime ∧ s.upgradeGroup ≠ ""
deriving Decidable

/-- The group to leave for: the plan's own, or the one held before the
purchase if the subscription's group is still held; empty for staying. -/
def UserSubscription.leaveFor (sub : UserSubscription) (currentGroup : String) : String :=
  if trimSpace sub.downgradeGroup ≠ "" then trimSpace sub.downgradeGroup
  else if currentGroup ≠ trimSpace sub.upgradeGroup then ""
  else trimSpace sub.prevUserGroup

/-- Move the user into `target` unless it is empty or already held; the answer
is the group entered. -/
def enterGroup (updateGroupOk : Bool) (userId : Int) (currentGroup target : String) : Tx DB Err String :=
  if target = "" ∨ target = currentGroup then pure ""
  else do
    require (updateGroupOk = true) .db
    update fun db : DB =>
      db.updateUser userId (fun u => { u with group := target }) (User.id_withGroup target)
    pure target

/-- `downgradeUserGroupForSubscriptionTx`. -/
def downgradeUserGroupForSubscriptionTx (env : DowngradeEnv) (sub : UserSubscription)
    (now : Int) : Tx DB Err String :=
  if trimSpace sub.downgradeGroup = "" ∧ trimSpace sub.upgradeGroup = "" then pure ""
  else do
    let currentGroup ← getUserGroupByIdTx env.readGroupOk sub.userId
    let active ← Tx.read fun db : DB =>
      db.userSubscriptions.rows.any fun s => s.KeepsGroup sub.userId now ∧ s.id ≠ sub.id
    if env.activeQueryOk = true ∧ active = true then pure ""
    else enterGroup env.updateGroupOk sub.userId currentGroup (sub.leaveFor currentGroup)

/-! ### Administration -/

/-- What an administrator's operation is answered. -/
structure AdminEndEnv where
  lockOk : Bool := true
  writeOk : Bool := true
  downgrade : DowngradeEnv := {}
  unbind : BindEnv := { newId := 0 }
deriving DecidableEq, Repr

/-- The text for the administrator. -/
def groupMessage (target : String) : String :=
  if target = "" then "" else s!"用户分组将回退到 {target}"

variable (env : AdminEndEnv) (now id : Int) {db' : DB} {v : Int} {g : String} {t : String}
  {sub : UserSubscription}

/-- The transaction of `AdminInvalidateUserSubscription`. -/
def adminInvalidateTx : Tx BindingDB Err String := do
  require (env.lockOk = true) .db
  let sub ← fetch (fun s : BindingDB => s.db.userSubscriptions.find? id) .recordNotFound
  require (env.writeOk = true) .db
  onDB (update fun db : DB =>
    { db with
      userSubscriptions := db.userSubscriptions.modify id
        (fun s => { s with status := .cancelled, endTime := now }) (fun _ => rfl) })
  let target ← onDB (downgradeUserGroupForSubscriptionTx env.downgrade sub now)
  mapError (fun e => .text s!"unbind subscription discount: {e.message}")
    (unbindSubscriptionDiscountTx env.unbind now sub.userId)
  pure (groupMessage target)

/-- `AdminInvalidateUserSubscription`. -/
def adminInvalidateUserSubscription (s : BindingDB) : Except Err String × BindingDB :=
  if id ≤ 0 then (.error (.text "invalid userSubscriptionId"), s)
  else atomically (adminInvalidateTx env now id) s

/-- The transaction of `AdminDeleteUserSubscription`. -/
def adminDeleteTx : Tx DB Err String := do
  require (env.lockOk = true) .db
  let sub ← fetch (fun db : DB => db.userSubscriptions.find? id) .recordNotFound
  let target ← downgradeUserGroupForSubscriptionTx env.downgrade sub now
  require (env.writeOk = true) .db
  update fun db : DB => { db with userSubscriptions := db.userSubscriptions.delete id }
  pure (groupMessage target)

/-- `AdminDeleteUserSubscription`. -/
def adminDeleteUserSubscription (s : BindingDB) : Except Err String × BindingDB :=
  if id ≤ 0 then (.error (.text "invalid userSubscriptionId"), s)
  else atomically (onDB (adminDeleteTx env now id)) s

/-! ### Expiry -/

/-- What the expiry of one user's subscriptions is answered.  The errors of
the two queries in the middle are ignored by the code. -/
structure ExpireEnv where
  updateOk : Bool := true
  activeQueryOk : Bool := true
  expiredQueryOk : Bool := true
  readGroupOk : Bool := true
  updateGroupOk : Bool := true
deriving DecidableEq, Repr

/-- The active subscription `s` has ended by `now`. -/
def UserSubscription.Due (s : UserSubscription) (now : Int) : Prop :=
  s.status = .active ∧ 0 < s.endTime ∧ s.endTime ≤ now
deriving Decidable

/-- The first by `end_time DESC, id DESC`. -/
def lastEnded : List UserSubscription → Option UserSubscription
  | [] => none
  | s :: rest =>
    match lastEnded rest with
    | none => some s
    | some r => if s.endTime < r.endTime ∨ (s.endTime = r.endTime ∧ s.id < r.id) then some r else some s

/-- The most recently expired subscription of the user that defines a group
transition. -/
def lastExpired (userId : Int) (subs : List UserSubscription) : Option UserSubscription :=
  lastEnded (subs.filter fun s =>
    s.userId = userId ∧ s.status = .expired ∧ (s.downgradeGroup ≠ "" ∨ s.upgradeGroup ≠ ""))

/-- The group an expired subscription is left for.  Unlike
`UserSubscription.leaveFor` it is not consulted without a snapshot. -/
def UserSubscription.expiryTarget (last : UserSubscription) (currentGroup : String) : String :=
  if trimSpace last.downgradeGroup ≠ "" then trimSpace last.downgradeGroup
  else if trimSpace last.upgradeGroup = "" ∨ trimSpace last.prevUserGroup = "" then ""
  else if currentGroup ≠ trimSpace last.upgradeGroup then ""
  else trimSpace last.prevUserGroup

variable (db : DB)

/-- Set the user's due subscriptions to expired. -/
def DB.expireDue (userId now : Int) : DB :=
  { db with
    userSubscriptions := db.userSubscriptions.updateWhere (fun s => s.userId = userId ∧ s.Due now)
      (fun s => { s with status := .expired }) (fun _ => rfl) }

/-- The transaction of `ExpireDueSubscriptions` for one user. -/
def expireUserTx (env : ExpireEnv) (now userId : Int) : Tx DB Err Unit := do
  require (env.updateOk = true) .db
  update fun db : DB => db.expireDue userId now
  let active ← Tx.read fun db : DB =>
    db.userSubscriptions.rows.any fun s => s.KeepsGroup userId now
  if env.activeQueryOk = true ∧ active = true then pure ()
  else do
    let last ← Tx.read fun db : DB =>
      if env.expiredQueryOk then lastExpired userId db.userSubscriptions.rows else none
    match last with
    | none => pure ()
    | some last => do
      let currentGroup ← getUserGroupByIdTx env.readGroupOk userId
      let _ ← enterGroup env.updateGroupOk userId currentGroup (last.expiryTarget currentGroup)
      pure ()

/-- One iteration of `ExpireDueSubscriptions`.  The rows count even when the
transaction is rolled back after the UPDATE. -/
def expireUser (env : ExpireEnv) (now userId : Int) (db : DB) : (Nat × Option Err) × DB :=
  let n := if env.updateOk then
      (db.userSubscriptions.rows.filter fun s => s.userId = userId ∧ s.Due now).length
    else 0
  match atomically (expireUserTx env now userId) db with
  | (.ok _, db') => ((n, none), db')
  | (.error e, db') => ((n, some e), db')

/-- The loop over the users, which stops at the first error. -/
def expireLoop (env : Int → ExpireEnv) (now : Int) : List Int → Nat → DB → (Nat × Option Err) × DB
  | [], n, db => ((n, none), db)
  | userId :: rest, n, db =>
    match expireUser (env userId) now userId db with
    | ((k, some e), db') => ((n + k, some e), db')
    | ((k, none), db') => expireLoop env now rest (n + k) db'

/-- The users with a due subscription among the first `limit`. -/
def DB.usersToExpire (now limit : Int) : List Int :=
  (((((db.userSubscriptions.rows.filter fun s => s.Due now).insertionSort
      fun a b => a.endTime < b.endTime ∨ (a.endTime = b.endTime ∧ a.id ≤ b.id)).take
    (if limit ≤ 0 then 200 else limit.toNat)).map (·.userId)).filter fun u => 0 < u).dedup

/-- `ExpireDueSubscriptions`.  The users come in the order of a Go map, which
`order` chooses. -/
def expireDueSubscriptions (env : Int → ExpireEnv) (queryOk : Bool) (order : List Int → List Int)
    (now limit : Int) (db : DB) : (Nat × Option Err) × DB :=
  if queryOk = false then ((0, some .db), db)
  else expireLoop env now (order (db.usersToExpire now limit)) 0 db

/-! ### What the operations do to groups -/

/-- The group of a user; no row reads as no group. -/
def DB.groupOf (u : Int) : String := ((db.users.find? u).map (·.group)).getD ""

/-- `db'` has the users of `db`; `v` is in group `g` and the others are where
they were. -/
structure DB.GroupSet (db db' : DB) (v : Int) (g : String) : Prop where
  present : ∀ u, (db'.users.find? u).isSome = (db.users.find? u).isSome
  group : ∀ u, (db.users.find? u).isSome →
    db'.groupOf u = if u = v then g else db.groupOf u

theorem DB.GroupSet.refl (v : Int) : db.GroupSet db v (db.groupOf v) := by
  refine ⟨fun _ => rfl, fun u _ => ?_⟩
  by_cases h : u = v
  · rw [if_pos h, h]
  · rw [if_neg h]

theorem DB.GroupSet.congr {db db'' : DB} (h : db.GroupSet db' v g)
    (hu : db''.users = db'.users) : db.GroupSet db'' v g := by
  refine ⟨fun u => ?_, fun u hp => ?_⟩
  · rw [hu]
    exact h.present u
  · rw [DB.groupOf, hu]
    exact h.group u hp

/-- Writing the group column. -/
theorem groupSet_updateUser (v : Int) (g : String) :
    db.GroupSet (db.updateUser v (fun u => { u with group := g }) (fun _ => rfl)) v g := by
  refine ⟨fun u => ?_, fun u hp => ?_⟩
  · unfold DB.updateUser
    rw [Table.find?_modify]
    by_cases h : u = v
    · rw [if_pos h, Option.isSome_map]
    · rw [if_neg h]
  · obtain ⟨row, hrow⟩ := Option.isSome_iff_exists.mp hp
    unfold DB.groupOf DB.updateUser
    rw [Table.find?_modify]
    by_cases h : u = v
    · rw [if_pos h, if_pos h, hrow]
      rfl
    · rw [if_neg h, if_neg h]

/-- Writing another column of `users`. -/
theorem DB.GroupSet.updateOther {db : DB} {w : Int} (h : db.GroupSet db' v g)
    {f : User → User} {hf : ∀ r, (f r).id = r.id} (hg : ∀ r, (f r).group = r.group) :
    db.GroupSet (db'.updateUser w f hf) v g := by
  have hrow : ∀ u, ((db'.updateUser w f hf).users.find? u).map (·.group)
      = (db'.users.find? u).map (·.group) := by
    intro u
    show ((db'.users.modify w f hf).find? u).map (·.group) = _
    rw [Table.find?_modify]
    by_cases hu : u = w
    · rw [if_pos hu, Option.map_map]
      congr 1
      funext r
      exact hg r
    · rw [if_neg hu]
  refine ⟨fun u => ?_, fun u hp => ?_⟩
  · rw [← h.present u, ← Option.isSome_map (f := (·.group)), hrow u, Option.isSome_map]
  · rw [DB.groupOf, hrow u]
    exact h.group u hp

theorem ok_getUserGroup_bind_iff {β : Type} {ok : Bool} {u : Int} {f : String → Tx DB Err β}
    {db : DB} {b : β} : (getUserGroupByIdTx ok u >>= f) db = .ok (b, db') ↔
      0 < u ∧ ok = true ∧ f (db.groupOf u) db = .ok (b, db') := by
  have hrun : ∀ {a db₁}, getUserGroupByIdTx ok u db = .ok (a, db₁) ↔
      0 < u ∧ ok = true ∧ a = db.groupOf u ∧ db₁ = db := by
    intro a db₁
    simp only [getUserGroupByIdTx, ok_require_bind_iff, ok_read_iff]
    rfl
  simp only [ok_bind_iff, hrun]
  constructor
  · rintro ⟨_, _, ⟨hu, hok, rfl, rfl⟩, h⟩
    exact ⟨hu, hok, h⟩
  · rintro ⟨hu, hok, h⟩
    exact ⟨_, _, ⟨hu, hok, rfl, rfl⟩, h⟩

/-- The group after moving to `target`, if that is one. -/
def groupOr (currentGroup target : String) : String :=
  if target = "" then currentGroup else target

theorem ok_enterGroup {updateGroupOk : Bool} {target t : String} {db : DB}
    (h : enterGroup updateGroupOk v (db.groupOf v) target db = .ok (t, db')) :
    db'.userSubscriptions = db.userSubscriptions ∧ db.GroupSet db' v (groupOr (db.groupOf v) target) := by
  unfold enterGroup at h
  split at h
  next hstay =>
    obtain ⟨-, rfl⟩ := ok_pure_iff.mp h
    have hg : groupOr (db'.groupOf v) target = db'.groupOf v := by
      obtain rfl | rfl := hstay
      · rfl
      unfold groupOr
      split <;> rfl
    rw [hg]
    exact ⟨rfl, DB.GroupSet.refl _ v⟩
  next hmove =>
    simp only [ok_require_bind_iff, ok_update_bind_iff] at h
    obtain ⟨-, -, rfl⟩ := h
    have hg : groupOr (db.groupOf v) target = target := if_neg fun e => hmove (Or.inl e)
    rw [hg]
    exact ⟨rfl, groupSet_updateUser db v target⟩

/-- The group of a user in `group` with the subscriptions `subs` after `sub`
has ended. -/
def groupWithout (env : DowngradeEnv) (userId : Int) (subs : List UserSubscription)
    (group : String) (sub : UserSubscription) (now : Int) : String :=
  if trimSpace sub.downgradeGroup = "" ∧ trimSpace sub.upgradeGroup = "" then group
  else if env.activeQueryOk = true ∧
      (subs.any fun s => s.KeepsGroup userId now ∧ s.id ≠ sub.id) = true then group
  else groupOr group (sub.leaveFor group)

theorem ok_downgrade {env : DowngradeEnv} {now : Int}
    {db : DB} (h : downgradeUserGroupForSubscriptionTx env sub now db = .ok (t, db')) :
    db'.userSubscriptions = db.userSubscriptions ∧
      db.GroupSet db' sub.userId (groupWithout env sub.userId db.userSubscriptions.rows
        (db.groupOf sub.userId) sub now) := by
  unfold downgradeUserGroupForSubscriptionTx at h
  unfold groupWithout
  split at h
  next hnone =>
    obtain ⟨-, rfl⟩ := ok_pure_iff.mp h
    rw [if_pos hnone]
    exact ⟨rfl, DB.GroupSet.refl _ _⟩
  next hsome =>
    simp only [ok_getUserGroup_bind_iff, ok_read_bind_iff] at h
    obtain ⟨-, -, h⟩ := h
    rw [if_neg hsome]
    split at h
    next hkeep =>
      obtain ⟨-, rfl⟩ := ok_pure_iff.mp h
      rw [if_pos hkeep]
      exact ⟨rfl, DB.GroupSet.refl _ _⟩
    next hleave =>
      rw [if_neg hleave]
      exact ok_enterGroup h

/-- The group of a user in `group` once the due ones of `subs` are marked. -/
def groupAfterExpiry (env : ExpireEnv) (userId : Int) (subs : List UserSubscription)
    (group : String) (now : Int) : String :=
  if env.activeQueryOk = true ∧ (subs.any fun s => s.KeepsGroup userId now) = true then group
  else
    match if env.expiredQueryOk then lastExpired userId subs else none with
    | none => group
    | some last => groupOr group (last.expiryTarget group)

variable {userId : Int} {x : Unit}

theorem ok_expireUserTx {env : ExpireEnv} {now : Int} {db : DB}
    (h : expireUserTx env now userId db = .ok (x, db')) :
    db'.userSubscriptions = (db.expireDue userId now).userSubscriptions ∧
      db.GroupSet db' userId (groupAfterExpiry env userId
        (db.expireDue userId now).userSubscriptions.rows (db.groupOf userId) now) := by
  -- marking the rows does not touch the users
  have hmark : ∀ g, (db.expireDue userId now).GroupSet db' userId g → db.GroupSet db' userId g :=
    fun _ hg => ⟨hg.present, hg.group⟩
  unfold groupAfterExpiry
  simp only [expireUserTx, ok_require_bind_iff, ok_update_bind_iff, ok_read_bind_iff] at h
  obtain ⟨-, h⟩ := h
  split at h
  next hkeep =>
    obtain ⟨-, rfl⟩ := ok_pure_iff.mp h
    rw [if_pos hkeep]
    exact ⟨rfl, hmark _ (DB.GroupSet.refl _ _)⟩
  next hleave =>
    rw [if_neg hleave]
    rw [ok_read_bind_iff] at h
    rcases hlast : if env.expiredQueryOk then
        lastExpired userId (db.expireDue userId now).userSubscriptions.rows else none with - | last
    · rw [hlast] at h
      obtain ⟨-, rfl⟩ := ok_pure_iff.mp h
      exact ⟨rfl, hmark _ (DB.GroupSet.refl _ _)⟩
    rw [hlast] at h
    obtain ⟨-, -, hrest⟩ := ok_getUserGroup_bind_iff.mp h
    obtain ⟨t, db₁, henter, hpure⟩ := ok_bind_iff.mp hrest
    obtain ⟨-, rfl⟩ := ok_pure_iff.mp hpure
    obtain ⟨hsubs, hgroup⟩ := ok_enterGroup henter
    exact ⟨hsubs, hmark _ hgroup⟩

/-! ### What a purchase does -/

/-- The group a purchase leaves behind. -/
def groupLeft (currentGroup upgradeGroup : String) : String :=
  if upgradeGroup = "" ∨ currentGroup = upgradeGroup then "" else currentGroup

theorem ok_upgradeUserGroup {env : CreateEnv} {upgradeGroup prev : String}
    {db : DB} (h : upgradeUserGroup env userId upgradeGroup db = .ok (prev, db')) :
    prev = groupLeft (db.groupOf userId) upgradeGroup ∧ db'.userSubscriptions = db.userSubscriptions ∧
      db.GroupSet db' userId (groupOr (db.groupOf userId) upgradeGroup) := by
  unfold upgradeUserGroup at h
  unfold groupLeft groupOr
  split at h
  next hnone =>
    obtain ⟨rfl, rfl⟩ := ok_pure_iff.mp h
    rw [if_pos (Or.inl hnone), if_pos hnone]
    exact ⟨rfl, rfl, DB.GroupSet.refl _ _⟩
  next hsome =>
    obtain ⟨-, -, hmove⟩ := ok_getUserGroup_bind_iff.mp h
    rw [if_neg hsome]
    split at hmove
    next hsame =>
      obtain ⟨rfl, rfl⟩ := ok_pure_iff.mp hmove
      rw [if_pos (Or.inr hsame), ← hsame]
      exact ⟨rfl, rfl, DB.GroupSet.refl _ _⟩
    next hother =>
      simp only [ok_require_bind_iff, ok_update_bind_iff] at hmove
      obtain ⟨-, rfl, rfl⟩ := hmove
      rw [if_neg (not_or.mpr ⟨hsome, hother⟩)]
      exact ⟨rfl, rfl, groupSet_updateUser db userId upgradeGroup⟩

theorem ok_insertSubscription_iff {createOk : Bool} {db : DB} :
    insertSubscription createOk sub db = .ok (x, db') ↔
      createOk = true ∧ db.userSubscriptions.find? sub.id = none ∧
        db' = { db with userSubscriptions := db.userSubscriptions.insert sub } := by
  simp only [insertSubscription, ok_read_bind_iff, ok_require_bind_iff, ok_update_iff,
    Option.isSome_eq_false_iff, Option.isNone_iff_eq_none, and_assoc]

/-- The bindings with the one a purchase brings, if it brings any. -/
def withSubscriptionBinding (bindings : Table DiscountBinding.id) (newId userId : Int)
    (plan : SubscriptionPlan) (sub : UserSubscription) : Table DiscountBinding.id :=
  if plan.discountPlanId ≤ 0 then bindings
  else bindings.insert (subscriptionBinding newId userId plan sub)

variable {s : BindingDB}

theorem DB.GroupSet.synced {db : DB}
    (h : db.GroupSet s.db v g) (userId now : Int) : db.GroupSet (s.synced userId now).db v g := by
  unfold BindingDB.synced
  split
  · exact h
  · exact h.updateOther fun _ => rfl

variable {plan : SubscriptionPlan} {s' : BindingDB}

theorem ok_bindSubscriptionDiscount {env : BindEnv} {now : Int}
    (h : bindSubscriptionDiscount env now userId plan sub s = .ok (x, s')) :
    s'.db.userSubscriptions = s.db.userSubscriptions ∧
      (∀ (db : DB) v g, db.GroupSet s.db v g → db.GroupSet s'.db v g) ∧
      (0 < plan.discountPlanId → s.discountBindings.find? env.newId = none) ∧ s'.discountBindings
        = withSubscriptionBinding s.discountBindings env.newId userId plan sub := by
  unfold bindSubscriptionDiscount at h
  unfold withSubscriptionBinding
  split at h
  next hnone =>
    obtain ⟨-, rfl⟩ := ok_pure_iff.mp h
    rw [if_pos hnone]
    exact ⟨rfl, fun _ _ _ hg => hg, fun hpos => absurd hnone (by omega), rfl⟩
  next hsome =>
    obtain ⟨-, hrest⟩ := ok_require_bind_iff.mp h
    obtain ⟨_, s₁, hcreate, hsync⟩ := ok_bind_iff.mp hrest
    obtain ⟨-, hfree, rfl⟩ := ok_createBinding_iff.mp hcreate
    obtain ⟨-, rfl⟩ := ok_sync_iff.mp hsync
    rw [if_neg hsome]
    refine ⟨userSubscriptions_synced _ _ _, fun db v g hg => ?_, fun _ => hfree,
      discountBindings_synced _ _ _⟩
    apply DB.GroupSet.synced
    exact hg

variable {source : String} {cal : Calendar}

/-- **A purchase** inserts the subscription its plan gives, with the group it
leaves behind, moves the user into the plan's group and writes the binding. -/
theorem ok_createSubscription {env : BuyEnv} {now : Int}
    (h : createSubscription cal env now userId plan source s = .ok (sub, s')) :
    ∃ endUnix, calcPlanEndTime cal now plan = .ok endUnix ∧
      sub = subscriptionFromPlan cal { env.create with now := now } userId plan source endUnix
        (groupLeft (s.db.groupOf userId) (trimSpace plan.upgradeGroup)) ∧
      s.db.userSubscriptions.find? sub.id = none ∧
      s'.db.userSubscriptions = s.db.userSubscriptions.insert sub ∧
      s.db.GroupSet s'.db userId (groupOr (s.db.groupOf userId) (trimSpace plan.upgradeGroup)) ∧
      (0 < plan.discountPlanId → s.discountBindings.find? env.bind.newId = none) ∧
      s'.discountBindings
        = withSubscriptionBinding s.discountBindings env.bind.newId userId plan sub := by
  simp only [createSubscription, ok_require_bind_iff] at h
  obtain ⟨-, -, hlimit⟩ := h
  obtain ⟨_, db₁, hlim, hplan⟩ := ok_zoom_bind_iff.mp hlimit
  obtain rfl := ok_checkPurchaseLimit hlim
  obtain ⟨endUnix, hend, hup⟩ := ok_lift_bind_iff.mp hplan
  obtain ⟨prev, db₂, hgroup, hins⟩ := ok_zoom_bind_iff.mp hup
  obtain ⟨rfl, hsubs, hset⟩ := ok_upgradeUserGroup hgroup
  obtain ⟨_, db₃, hins, hbind⟩ := ok_zoom_bind_iff.mp hins
  obtain ⟨-, hfree, rfl⟩ := ok_insertSubscription_iff.mp hins
  obtain ⟨_, s₁, hbind, hpure⟩ := ok_bind_iff.mp hbind
  obtain ⟨rfl, rfl⟩ := ok_pure_iff.mp hpure
  obtain ⟨hsubs', hkeep, hid, hbindings⟩ := ok_bindSubscriptionDiscount (ok_mapError_iff.mp hbind)
  refine ⟨endUnix, hend, rfl, ?_, ?_, ?_, hid, hbindings⟩
  · rw [← hsubs]
    exact hfree
  · rw [hsubs', ← hsubs]
  · apply hkeep
    exact hset.congr rfl

theorem userColumn_synced {now : Int} (hu : 0 < userId) : (s.synced userId now).db
      = s.db.updateUser userId (fun u => { u with
            discountPlanId := (s.synced userId now).db.userColumn userId (·.discountPlanId) })
          (fun _ => rfl) := by
  have hne : ¬ userId ≤ 0 := by omega
  unfold BindingDB.synced
  rw [if_neg hne]
  rcases hrow : s.db.users.find? userId with - | row
  · -- no row is written, whatever the value
    unfold DB.updateUser
    rw [Table.modify_of_find?_none hrow, Table.modify_of_find?_none hrow]
  have hcol : (s.db.updateUser userId
      (fun u => { u with discountPlanId := s.activePlanId userId now }) (fun _ => rfl)).userColumn
        userId (·.discountPlanId) = s.activePlanId userId now := by
    unfold DB.userColumn DB.updateUser
    rw [Table.find?_modify, if_pos rfl, hrow]
    rfl
  simp only [hcol]

/-- The shared store sees of a purchase what the model without bindings says,
with the plan id that the bindings give. -/
theorem createSubscription_refines {env : BuyEnv} {now : Int}
    (h : createSubscription cal env now userId plan source s = .ok (sub, s')) :
    createUserSubscriptionFromPlanTx cal { env.create with
          now := now
          bind := some (s'.db.userColumn userId (·.discountPlanId)) } userId plan source s.db
      = .ok (sub, s'.db) := by
  simp only [createSubscription, ok_require_bind_iff] at h
  obtain ⟨hplanId, huser, hlimit⟩ := h
  obtain ⟨_, db₁, hlim, hplan⟩ := ok_zoom_bind_iff.mp hlimit
  obtain ⟨endUnix, hend, hup⟩ := ok_lift_bind_iff.mp hplan
  obtain ⟨prev, db₂, hgroup, hins⟩ := ok_zoom_bind_iff.mp hup
  obtain ⟨_, db₃, hins, hbind⟩ := ok_zoom_bind_iff.mp hins
  obtain ⟨hcreate, hfree, rfl⟩ := ok_insertSubscription_iff.mp hins
  obtain ⟨_, s₁, hbind, hpure⟩ := ok_bind_iff.mp hbind
  obtain ⟨rfl, rfl⟩ := ok_pure_iff.mp hpure
  have hbind := ok_mapError_iff.mp hbind
  unfold createUserSubscriptionFromPlanTx purchaseAllowed insertFromPlan
  simp only [bind_assoc]
  rw [require_bind hplanId, require_bind huser]
  refine (bind_of_ok hlim).trans ?_
  refine (bind_of_ok (ok_lift_iff.mpr ⟨hend, rfl⟩)).trans ?_
  refine (bind_of_ok hgroup).trans ?_
  rw [read_bind, require_bind]
  · apply ok_update_bind_iff.mpr
    refine ok_bind_iff.mpr ⟨(), s'.db, ?_, ok_pure_iff.mpr ⟨rfl, rfl⟩⟩
    unfold bindSubscriptionDiscount at hbind
    unfold bindSubscriptionDiscountTx
    split at hbind
    next hnone =>
      obtain ⟨-, rfl⟩ := ok_pure_iff.mp hbind
      rw [if_pos hnone]
      exact ok_pure_iff.mpr ⟨rfl, rfl⟩
    next hsome =>
      obtain ⟨-, hrest⟩ := ok_require_bind_iff.mp hbind
      obtain ⟨_, s₂, hcreated, hsync⟩ := ok_bind_iff.mp hrest
      obtain ⟨-, -, rfl⟩ := ok_createBinding_iff.mp hcreated
      obtain ⟨-, rfl⟩ := ok_sync_iff.mp hsync
      rw [if_neg hsome]
      refine ok_fetch_bind_iff.mpr ⟨_, rfl, ok_update_iff.mpr ?_⟩
      exact userColumn_synced huser
  · exact ⟨hcreate, by rw [Option.isSome_eq_false_iff, Option.isNone_iff_eq_none]; exact hfree⟩

/-! ### What an administrator does -/

/-- **A cancellation** marks the subscription, lets its user leave its group
and disables all bindings the user has from subscriptions. -/
theorem ok_adminInvalidateTx {env : AdminEndEnv} {now id : Int}
    (h : adminInvalidateTx env now id s = .ok (t, s')) :
    ∃ sub db₁, s.db.userSubscriptions.find? id = some sub ∧ db₁ = { s.db with
        userSubscriptions := s.db.userSubscriptions.modify id
          (fun x => { x with status := .cancelled, endTime := now }) (fun _ => rfl) } ∧
      s'.db.userSubscriptions = db₁.userSubscriptions ∧
      s.db.GroupSet s'.db sub.userId (groupWithout env.downgrade sub.userId db₁.userSubscriptions.rows
        (s.db.groupOf sub.userId) sub now) ∧
      s'.discountBindings = s.discountBindings.updateWhere
        (fun b => b.FromSubscription sub.userId) (fun b => { b with enabled := false })
        (fun _ => rfl) := by
  simp only [adminInvalidateTx, ok_require_bind_iff, ok_fetch_bind_iff] at h
  obtain ⟨-, sub, hsub, -, hmark⟩ := h
  obtain ⟨_, db₁, hmark, hdown⟩ := ok_zoom_bind_iff.mp hmark
  obtain rfl := ok_update_iff.mp hmark
  obtain ⟨target, db₂, hdown, hunbind⟩ := ok_zoom_bind_iff.mp hdown
  obtain ⟨hsubs, hset⟩ := ok_downgrade hdown
  obtain ⟨_, s₁, hunbind, hpure⟩ := ok_bind_iff.mp hunbind
  obtain ⟨-, rfl⟩ := ok_pure_iff.mp hpure
  have hunbind := ok_mapError_iff.mp hunbind
  simp only [unbindSubscriptionDiscountTx, ok_require_bind_iff] at hunbind
  obtain ⟨-, -, hsync⟩ := hunbind
  obtain ⟨-, rfl⟩ := ok_sync_iff.mp hsync
  refine ⟨sub, _, hsub, rfl, ?_, ?_, ?_⟩
  · rw [userSubscriptions_synced]
    exact hsubs
  · apply DB.GroupSet.synced
    exact ⟨hset.present, hset.group⟩
  · rw [discountBindings_synced]

/-- **A deletion** lets the user leave the subscription's group and removes
the row; the bindings stay. -/
theorem ok_adminDeleteTx {env : AdminEndEnv} {now id : Int} {db : DB}
    (h : adminDeleteTx env now id db = .ok (t, db')) : ∃ sub, db.userSubscriptions.find? id = some sub ∧
      db'.userSubscriptions = db.userSubscriptions.delete id ∧
      db.GroupSet db' sub.userId (groupWithout env.downgrade sub.userId db.userSubscriptions.rows
        (db.groupOf sub.userId) sub now) := by
  simp only [adminDeleteTx, ok_require_bind_iff, ok_fetch_bind_iff] at h
  obtain ⟨-, sub, hsub, hdown⟩ := h
  obtain ⟨target, db₁, hdown, hdel⟩ := ok_bind_iff.mp hdown
  obtain ⟨hsubs, hset⟩ := ok_downgrade hdown
  simp only [ok_require_bind_iff, ok_update_bind_iff] at hdel
  obtain ⟨-, -, rfl⟩ := hdel
  refine ⟨sub, hsub, ?_, hset.congr rfl⟩
  rw [hsubs]

/-! ### Runs -/

/-- The store, the clock, and what was bought, the latest first. -/
structure Life where
  store : BindingDB := {}
  now : Nat := 0
  bought : List UserSubscription := []

/-- What happens to subscriptions.  `delay` is how long ago the operation read
the clock; an expiry is one iteration of the task's loop. -/
inductive LifeOp where
  | tick (seconds : Nat)
  | buy (env : BuyEnv) (userId planId : Int) (source : String)
  | expire (env : ExpireEnv) (delay : Nat) (userId : Int)
  | invalidate (env : AdminEndEnv) (delay : Nat) (id : Int)
  | delete (env : AdminEndEnv) (delay : Nat) (id : Int)
deriving DecidableEq, Repr

/-- Buy a subscription of a plan that is for sale. -/
def Life.buy (cal : Calendar) (catalogue : Table SubscriptionPlan.id) (s : Life) (env : BuyEnv)
    (userId planId : Int) (source : String) : Life :=
  match catalogue.find? planId with
  | none => s
  | some plan =>
    match atomically (createSubscription cal env s.now userId plan source) s.store with
    | (.ok sub, store) => { s with store := store, bought := sub :: s.bought }
    | (.error _, store) => { s with store := store }

/-- The state after an operation, whether it succeeded or not. -/
def lifeStep (cal : Calendar) (catalogue : Table SubscriptionPlan.id) (s : Life) : LifeOp → Life
  | .tick seconds => { s with now := s.now + seconds }
  | .buy env userId planId source => s.buy cal catalogue env userId planId source
  | .expire env delay userId =>
    { s with store := { s.store with db := (expireUser env (s.now - delay) userId s.store.db).2 } }
  | .invalidate env delay id =>
    { s with store := (adminInvalidateUserSubscription env (s.now - delay) id s.store).2 }
  | .delete env delay id =>
    { s with store := (adminDeleteUserSubscription env (s.now - delay) id s.store).2 }

/-- The loop of `ExpireDueSubscriptions` expires users in turn, until one fails. -/
theorem expireLoop_exec (cal : Calendar) (catalogue : Table SubscriptionPlan.id) (env : Int → ExpireEnv)
    (delay : Nat) (users : List Int) (n : Nat) (s : Life) :
    ∃ k, { s with store := { s.store with db := (expireLoop env (s.now - delay) users n s.store.db).2 } }
      = exec (lifeStep cal catalogue) s ((users.take k).map fun u => .expire (env u) delay u) := by
  induction users generalizing n s with
  | nil => exact ⟨0, rfl⟩
  | cons userId rest ih =>
    rcases h : expireUser (env userId) (s.now - delay) userId s.store.db with ⟨⟨rows, - | e⟩, db'⟩
    · obtain ⟨k, hk⟩ := ih (n + rows) (lifeStep cal catalogue s (.expire (env userId) delay userId))
      refine ⟨k + 1, Eq.trans ?_ hk⟩
      simp only [lifeStep, expireLoop, h]
    · refine ⟨1, ?_⟩
      simp only [expireLoop, h, List.take_succ_cons, List.take_zero, List.map_cons, List.map_nil, exec_cons,
        exec_nil, lifeStep]

/-- **`ExpireDueSubscriptions` is a run of expirations** of users with a due
subscription, so that what holds along every run holds after it and at each of its
transactions. -/
theorem expireDueSubscriptions_exec (cal : Calendar) (catalogue : Table SubscriptionPlan.id)
    (env : Int → ExpireEnv) (queryOk : Bool) (order : List Int → List Int) (delay : Nat) (limit : Int)
    (s : Life) :
    ∃ users, users <+: order (s.store.db.usersToExpire (s.now - delay) limit) ∧
      { s with store := { s.store with
        db := (expireDueSubscriptions env queryOk order (s.now - delay) limit s.store.db).2 } }
        = exec (lifeStep cal catalogue) s (users.map fun u => .expire (env u) delay u) := by
  unfold expireDueSubscriptions
  split
  · exact ⟨[], List.nil_prefix, rfl⟩
  · obtain ⟨k, hk⟩ := expireLoop_exec cal catalogue env delay _ 0 s
    exact ⟨_, List.take_prefix k _, hk⟩

end MicrossApi
