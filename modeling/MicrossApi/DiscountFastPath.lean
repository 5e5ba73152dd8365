/-
MicrossApi/DiscountFastPath.lean

The plan copied to `users.discount_plan_id` against the bindings themselves.
Every write to the bindings of a user recomputes the copy, for the time of the
write; nothing recomputes it when a window opens or closes.  The state
therefore remembers, as a ghost, when the copy of each user was last computed,
and the invariant is that the copy is the plan in force at that time
(`Prices.Copied`).  From it follows when the two ways to resolve a discount
agree (`fast_path_agrees_iff`).

`BindingDB.Writes` says once what an operation may do to the bindings and the
copies; the operations that touch neither are dealt with by `Tx.Keeps`.
-/
import MicrossApi.DiscountTerms
import MicrossApi.StepSystem
import MicrossApi.SubscriptionLifecycle

namespace MicrossApi

open List StepSystem
open Tx hiding read

/-! ### The copies -/

/-- The plans, and the plan copied to each user. -/
def DB.planCopies (db : DB) : Table DiscountPlan.id × (Int → Option Int) :=
  (db.discountPlans, fun u => (db.users.find? u).map (·.discountPlanId))

/-- The plan copied to a user. -/
def BindingDB.copyOf (s : BindingDB) (u : Int) : Option Int := s.db.planCopies.2 u

variable {f : User → User} {hf : ∀ r, (f r).id = r.id} {v : Int} {u userId id : Int} {x : Unit}
  {user : Option Int} {plan : SubscriptionPlan} {sub : UserSubscription}

/-- Writing another column of `users`. -/
theorem planCopies_updateUser (db : DB) (v : Int) (h : ∀ r, (f r).discountPlanId = r.discountPlanId) :
    (db.updateUser v f hf).planCopies = db.planCopies := by
  refine Prod.ext rfl (funext fun u => ?_)
  show ((db.users.modify v f hf).find? u).map (·.discountPlanId) = _
  rw [Table.find?_modify]
  split
  · rw [Option.map_map]
    exact congrArg (Option.map · _) (funext h)
  · rfl

/-- What an operation that computes the copy of `user` at `now`, if of
anybody, does. -/
structure BindingDB.Writes (s s' : BindingDB) (user : Option Int) (now : Int) : Prop where
  plans : s'.db.discountPlans = s.db.discountPlans
  others : ∀ u, user ≠ some u →
    s'.enabledBindings u = s.enabledBindings u ∧ s'.copyOf u = s.copyOf u
  copied : ∀ u, user = some u → 0 < u → ∀ p, s'.copyOf u = some p → p = s'.activePlanId u now

theorem BindingDB.Writes.of_kept {s s' : BindingDB} (hb : s'.discountBindings = s.discountBindings)
    (hc : s'.db.planCopies = s.db.planCopies) (now : Int) : s.Writes s' none now where
  plans := congrArg Prod.fst hc
  others u _ := ⟨by rw [BindingDB.enabledBindings, hb]; rfl, congrFun (congrArg Prod.snd hc) u⟩
  copied u hu := by cases hu

/-- The bindings of one user were changed and the copy is computed again. -/
theorem writes_synced {s t : BindingDB} (now : Int) (hc : t.db.planCopies = s.db.planCopies)
    (hb : ∀ u, u ≠ v → t.enabledBindings u = s.enabledBindings u) :
    s.Writes (t.synced v now) (some v) now := by
  have hbindings : ∀ u, (t.synced v now).enabledBindings u = t.enabledBindings u := by
    intro u
    rw [BindingDB.enabledBindings, discountBindings_synced]
    rfl
  have hcopies : ∀ u, t.copyOf u = s.copyOf u := congrFun (congrArg Prod.snd hc)
  have hcopy : ∀ u, 0 < v → (t.synced v now).copyOf u
      = if u = v then (t.copyOf u).map (fun _ => t.activePlanId v now) else t.copyOf u := by
    intro u hv
    unfold BindingDB.synced
    rw [if_neg (by omega)]
    show ((t.db.users.modify v (fun r => { r with discountPlanId := t.activePlanId v now })
      fun _ => rfl).find? u).map (·.discountPlanId) = _
    rw [Table.find?_modify]
    split
    · rw [Option.map_map]
      show _ = ((t.db.users.find? u).map _).map _
      rw [Option.map_map]
      rfl
    · rfl
  have hne : ∀ {u}, some v ≠ some u → u ≠ v := fun hu e => hu (congrArg some e.symm)
  refine ⟨?_, fun u hu => ⟨?_, ?_⟩, ?_⟩
  · have hplans : (t.synced v now).db.discountPlans = t.db.discountPlans := by
      unfold BindingDB.synced
      split <;> rfl
    exact hplans.trans (congrArg Prod.fst hc)
  · rw [hbindings, hb u (hne hu)]
  · by_cases hv : 0 < v
    · rw [hcopy u hv, if_neg (hne hu), hcopies]
    · unfold BindingDB.synced
      rw [if_pos (by omega), hcopies]
  · rintro u hu hpos p hp
    obtain rfl := Option.some.inj hu
    rw [hcopy v hpos, if_pos rfl, Option.map_eq_some_iff] at hp
    obtain ⟨-, -, rfl⟩ := hp
    rw [BindingDB.activePlanId, BindingDB.activePlanId, hbindings]

/-! ### Operations on the bindings -/

section Bindings

variable {s s' : BindingDB} {now : Int} {env : BindEnv}

theorem filter_disabled {l : List DiscountBinding} {p : DiscountBinding → Prop} [DecidablePred p]
    (hp : ∀ b ∈ l, p b → b.subjectId = v) (hu : u ≠ v) :
    (l.map fun b => if p b then { b with enabled := false } else b).filter
        (fun b => b.subjectId = u ∧ b.enabled = true)
      = l.filter fun b => b.subjectId = u ∧ b.enabled = true := by
  induction l with
  | nil => rfl
  | cons b rest ih =>
    rw [map_cons, filter_cons, filter_cons, ih fun x hx => hp x (mem_cons_of_mem _ hx)]
    by_cases hb : p b
    · have hne : ¬ b.subjectId = u := fun e => hu (e.symm.trans (hp b (mem_cons_self ..) hb))
      rw [if_pos hb]
      simp [hne]
    · rw [if_neg hb]

theorem writes_create_sync {createOk syncOk : Bool} {b : DiscountBinding} {s₁ : BindingDB}
    {y : Unit} (hcreate : createBinding createOk b s = .ok (x, s₁))
    (hsync : syncUserDiscountPlanId syncOk now b.subjectId s₁ = .ok (y, s')) :
    s.Writes s' (some b.subjectId) now := by
  obtain ⟨-, hfree, rfl⟩ := ok_createBinding_iff.mp hcreate
  obtain ⟨-, rfl⟩ := ok_sync_iff.mp hsync
  refine writes_synced now rfl fun u hu => ?_
  have hnot : ¬ b.subjectId = u := fun e => hu e.symm
  unfold BindingDB.enabledBindings
  rw [Table.rows_insert hfree]
  simp [hnot]

theorem writes_bindDiscountPlan {binding : DiscountBinding}
    (h : bindDiscountPlan env now binding s = .ok (x, s')) : s.Writes s' (some binding.subjectId) now := by
  obtain ⟨_, s₂, hcreate, hsync⟩ := ok_bind_iff.mp (ok_bindDiscountPlan h)
  exact writes_create_sync (b := { binding with id := env.newId }) hcreate hsync

theorem writes_unbindDiscountPlan (h : unbindDiscountPlan env now id s = .ok (x, s')) :
    s.Writes s' ((s.discountBindings.find? id).map (·.subjectId)) now := by
  simp only [unbindDiscountPlan, ok_require_bind_iff, ok_fetch_bind_iff] at h
  obtain ⟨-, binding, hbinding, -, hsync⟩ := h
  obtain ⟨-, rfl⟩ := ok_sync_iff.mp hsync
  rw [hbinding]
  refine writes_synced now rfl fun u hu => filter_disabled (fun b hb hid => ?_) hu
  -- the row with the id is the binding that was read
  have hsame : s.discountBindings.find? id = some b := Table.find?_eq_some_iff.mpr ⟨hb, hid⟩
  rw [Option.mem_unique hsame hbinding]

theorem writes_unbindSubscription
    (h : unbindSubscriptionDiscountTx env now userId s = .ok (x, s')) : s.Writes s' (some userId) now := by
  simp only [unbindSubscriptionDiscountTx, ok_require_bind_iff] at h
  obtain ⟨-, -, hsync⟩ := h
  obtain ⟨-, rfl⟩ := ok_sync_iff.mp hsync
  refine writes_synced now rfl fun u hu => ?_
  unfold BindingDB.enabledBindings
  rw [Table.rows_updateWhere]
  exact filter_disabled (fun b _ hb => hb.2.1) hu

theorem writes_bindSubscription (h : bindSubscriptionDiscount env now userId plan sub s = .ok (x, s')) :
    s.Writes s' (if 0 < plan.discountPlanId then some userId else none) now := by
  unfold bindSubscriptionDiscount at h
  split at h
  next hnone =>
    obtain ⟨-, rfl⟩ := ok_pure_iff.mp h
    rw [if_neg (by omega)]
    exact .of_kept rfl rfl now
  next hsome =>
    obtain ⟨-, hrest⟩ := ok_require_bind_iff.mp h
    obtain ⟨_, s₁, hcreate, hsync⟩ := ok_bind_iff.mp hrest
    rw [if_pos (by omega)]
    exact writes_create_sync hcreate hsync

/-- The operation follows statements that touch no binding and no copy. -/
theorem BindingDB.Writes.after {t : BindingDB} (h : t.Writes s' user now)
    (hb : t.discountBindings = s.discountBindings) (hc : t.db.planCopies = s.db.planCopies) :
    s.Writes s' user now where
  plans := h.plans.trans (congrArg Prod.fst hc)
  others u hu := by
    obtain ⟨hbind, hcopy⟩ := h.others u hu
    obtain ⟨hbind', hcopy'⟩ := (BindingDB.Writes.of_kept hb hc now).others u nofun
    exact ⟨hbind.trans hbind', hcopy.trans hcopy'⟩
  copied := h.copied

end Bindings

/-! ### Statements that touch no copy -/

section Kept

theorem keeps_updateUser (h : ∀ r, (f r).discountPlanId = r.discountPlanId) :
    Tx.Keeps DB.planCopies (update fun db : DB => db.updateUser v f hf : Tx DB Err Unit) :=
  keeps_update fun db => planCopies_updateUser db v h

theorem keeps_getUserGroupByIdTx (readGroupOk : Bool) (userId : Int) :
    Tx.Keeps DB.planCopies (getUserGroupByIdTx readGroupOk userId) :=
  (keeps_require _ _).bind fun _ => (keeps_require _ _).bind fun _ => keeps_read _

theorem keeps_upgradeUserGroup (env : CreateEnv) (userId : Int) (upgradeGroup : String) :
    Tx.Keeps DB.planCopies (upgradeUserGroup env userId upgradeGroup) := by
  refine (keeps_pure _).ite ((keeps_getUserGroupByIdTx _ _).bind fun currentGroup => ?_)
  refine (keeps_pure _).ite ((keeps_require _ _).bind fun _ => ?_)
  refine Tx.Keeps.bind (keeps_updateUser ?_) fun _ => keeps_pure _
  exact fun _ => rfl

theorem keeps_enterGroup (updateGroupOk : Bool) (userId : Int) (currentGroup target : String) :
    Tx.Keeps DB.planCopies (enterGroup updateGroupOk userId currentGroup target) := by
  refine (keeps_pure _).ite ((keeps_require _ _).bind fun _ => ?_)
  refine Tx.Keeps.bind (keeps_updateUser ?_) fun _ => keeps_pure _
  exact fun _ => rfl

theorem keeps_downgrade (env : DowngradeEnv) (sub : UserSubscription) (now : Int) :
    Tx.Keeps DB.planCopies (downgradeUserGroupForSubscriptionTx env sub now) := by
  refine (keeps_pure _).ite ((keeps_getUserGroupByIdTx _ _).bind fun currentGroup => ?_)
  exact (keeps_read _).bind fun active => (keeps_pure _).ite (keeps_enterGroup _ _ _ _)

theorem keeps_expireUserTx (env : ExpireEnv) (now userId : Int) :
    Tx.Keeps DB.planCopies (expireUserTx env now userId) := by
  refine (keeps_require _ _).bind fun _ => Tx.Keeps.bind (keeps_update ?_) fun _ => ?_
  · exact fun _ => rfl
  refine (keeps_read _).bind fun active => (keeps_pure _).ite ((keeps_read _).bind fun last => ?_)
  cases last with
  | none => exact keeps_pure _
  | some =>
    refine (keeps_getUserGroupByIdTx _ _).bind fun currentGroup => ?_
    exact Tx.Keeps.bind (keeps_enterGroup _ _ _ _) fun _ => keeps_pure _

theorem keeps_adminDeleteTx (env : AdminEndEnv) (now id : Int) :
    Tx.Keeps DB.planCopies (adminDeleteTx env now id) := by
  refine (keeps_require _ _).bind fun _ => (keeps_fetch _ _).bind fun sub => ?_
  refine (keeps_downgrade _ _ _).bind fun target => (keeps_require _ _).bind fun _ => ?_
  refine Tx.Keeps.bind (keeps_update ?_) fun _ => keeps_pure _
  exact fun _ => rfl

end Kept

/-! ### Purchases, cancellations and codes -/

section Writers

variable {s s' : BindingDB} {now : Int}

theorem writes_createSubscription {cal : Calendar} {env : BuyEnv} {source : String}
    (h : createSubscription cal env now userId plan source s = .ok (sub, s')) :
    s.Writes s' (if 0 < plan.discountPlanId then some userId else none) now := by
  simp only [createSubscription, ok_require_bind_iff] at h
  obtain ⟨-, -, hlimit⟩ := h
  obtain ⟨_, db₁, hlim, hplan⟩ := ok_zoom_bind_iff.mp hlimit
  obtain rfl := ok_checkPurchaseLimit hlim
  obtain ⟨endUnix, -, hup⟩ := ok_lift_bind_iff.mp hplan
  obtain ⟨prev, db₂, hgroup, hins⟩ := ok_zoom_bind_iff.mp hup
  obtain ⟨_, db₃, hins, hbind⟩ := ok_zoom_bind_iff.mp hins
  obtain ⟨-, -, rfl⟩ := ok_insertSubscription_iff.mp hins
  obtain ⟨_, s₁, hbind, hpure⟩ := ok_bind_iff.mp hbind
  obtain ⟨-, rfl⟩ := ok_pure_iff.mp hpure
  exact (writes_bindSubscription (ok_mapError_iff.mp hbind)).after rfl
    (keeps_upgradeUserGroup _ _ _ _ prev db₂ hgroup)

theorem writes_adminInvalidateTx {env : AdminEndEnv} {t : String}
    (h : adminInvalidateTx env now id s = .ok (t, s')) :
    s.Writes s' ((s.db.userSubscriptions.find? id).map (·.userId)) now := by
  simp only [adminInvalidateTx, ok_require_bind_iff, ok_fetch_bind_iff] at h
  obtain ⟨-, sub, hsub, -, hmark⟩ := h
  obtain ⟨_, db₁, hmark, hdown⟩ := ok_zoom_bind_iff.mp hmark
  obtain rfl := ok_update_iff.mp hmark
  obtain ⟨target, db₂, hdown, hunbind⟩ := ok_zoom_bind_iff.mp hdown
  obtain ⟨_, s₁, hunbind, hpure⟩ := ok_bind_iff.mp hunbind
  obtain ⟨-, rfl⟩ := ok_pure_iff.mp hpure
  have hkept := keeps_downgrade _ _ _ _ target db₂ hdown
  rw [hsub]
  exact (writes_unbindSubscription (ok_mapError_iff.mp hunbind)).after rfl hkept

/-- The code's plan is one the customer does not have yet. -/
def BindingDB.codeBinds (s : BindingDB) (customerId : Int) (code : String) : Bool :=
  match s.customerCodes.rows.find? fun c => c.code = code with
  | none => false
  | some record =>
    decide (0 < record.planId) &&
      !(s.enabledBindings customerId).any fun b => b.planId = record.planId

theorem writes_bindCustomerCodeTx {env : CodeEnv} {customerId : Int} {code : String}
    (h : bindCustomerCodeTx env now customerId code s = .ok (x, s')) :
    s.Writes s' (if s.codeBinds customerId code then some customerId else none) now := by
  simp only [bindCustomerCodeTx, ok_require_bind_iff, ok_fetch_bind_iff,
    ok_read_bind_iff, ok_lift_bind_iff] at h
  obtain ⟨-, record, hrecord, -, customer, -, -, -, -, -, -, -, -, -, -, hparent⟩ := h
  obtain ⟨_, db₁, hparent, hbind⟩ := ok_zoom_bind_iff.mp hparent
  have hkept : db₁.planCopies = s.db.planCopies := by
    rw [ok_update_iff.mp hparent]
    exact planCopies_updateUser s.db customerId fun _ => rfl
  have hbinds : s.codeBinds customerId code = true ↔
      0 < record.planId ∧ (decide (0 < record.planId) &&
        (s.enabledBindings customerId).any fun b => decide (b.planId = record.planId)) = false := by
    unfold BindingDB.codeBinds
    rw [hrecord]
    by_cases hpos : 0 < record.planId <;> simp [hpos]
  split at hbind
  next hplan =>
    rw [if_pos (hbinds.mpr hplan)]
    obtain ⟨_, s₁, hquota, hrest⟩ := ok_bind_iff.mp hbind
    obtain rfl := ok_ensureDiscountBindingQuota hquota
    obtain ⟨_, s₂, hcreate, hrest⟩ := ok_bind_iff.mp hrest
    obtain ⟨_, s₃, hsync, hused⟩ := ok_bind_iff.mp hrest
    simp only [ok_require_bind_iff, ok_update_iff] at hused
    obtain ⟨-, rfl⟩ := hused
    have hwrites : s.Writes s₃ (some customerId) now :=
      (writes_create_sync (b := codeBinding env.bind.newId customerId record.planId)
        hcreate hsync).after rfl hkept
    exact ⟨hwrites.plans, hwrites.others, hwrites.copied⟩
  next hplan =>
    rw [if_neg (mt hbinds.mp hplan)]
    simp only [ok_require_bind_iff, ok_update_iff] at hbind
    obtain ⟨-, rfl⟩ := hbind
    refine BindingDB.Writes.of_kept ?_ hkept now
    rfl

end Writers

/-! ### Runs -/

/-- The store, the clock, and when the copy of each user was last computed. -/
structure Prices where
  store : BindingDB := {}
  now : Int := 0
  syncedAt : Int → Int := fun _ => 0

/-- What happens to bindings, and the two ways a subscription ends without a
word to them. -/
inductive PriceOp where
  | tick (seconds : Nat)
  | bind (env : BindEnv) (binding : DiscountBinding)
  | unbind (env : BindEnv) (id : Int)
  | useCode (env : CodeEnv) (customerId : Int) (rawCode : String)
  | buy (env : BuyEnv) (userId planId : Int) (source : String)
  | invalidate (env : AdminEndEnv) (id : Int)
  | expire (env : ExpireEnv) (userId : Int)
  | delete (env : AdminEndEnv) (id : Int)

/-- A transaction that computes the copy of `user`, if it goes through. -/
def Prices.commit {α : Type} (s : Prices) (r : Except Err α × BindingDB) (user : Option Int) : Prices :=
  match r with
  | (.ok _, store) =>
    { s with
      store := store
      syncedAt := fun u => if user = some u then s.now else s.syncedAt u }
  | (.error _, store) => { s with store := store }

/-- The state after an operation, whether it succeeded or not. -/
def priceStep (cal : Calendar) (catalogue : Table SubscriptionPlan.id) (s : Prices) : PriceOp → Prices
  | .tick seconds => { s with now := s.now + seconds }
  | .bind env binding =>
    s.commit (atomically (bindDiscountPlan env s.now binding) s.store) (some binding.subjectId)
  | .unbind env id =>
    s.commit (atomically (unbindDiscountPlan env s.now id) s.store)
      ((s.store.discountBindings.find? id).map (·.subjectId))
  | .useCode env customerId rawCode =>
    s.commit (bindCustomerCode env s.now customerId rawCode s.store)
      (if s.store.codeBinds customerId (env.toUpper (trimSpace rawCode)) then some customerId
        else none)
  | .buy env userId planId source =>
    match catalogue.find? planId with
    | none => s
    | some plan =>
      s.commit (atomically (createSubscription cal env s.now userId plan source) s.store)
        (if 0 < plan.discountPlanId then some userId else none)
  | .invalidate env id =>
    s.commit (adminInvalidateUserSubscription env s.now id s.store)
      ((s.store.db.userSubscriptions.find? id).map (·.userId))
  | .expire env userId =>
    { s with store := { s.store with db := (expireUser env s.now userId s.store.db).2 } }
  | .delete env id =>
    { s with store := (adminDeleteUserSubscription env s.now id s.store).2 }

/-- No binding yet, and nothing copied. -/
structure Prices.Fresh (s : Prices) : Prop where
  planIds : ∀ plan ∈ s.store.db.discountPlans.rows, 0 < plan.id
  bindings : s.store.discountBindings.rows = []
  copies : ∀ user ∈ s.store.db.users.rows, user.discountPlanId = 0

/-- The copy of each user is the plan that was in force when it was
computed. -/
structure Prices.Copied (s : Prices) : Prop where
  planIds : ∀ plan ∈ s.store.db.discountPlans.rows, 0 < plan.id
  copy : ∀ u, 0 < u → ∀ p, s.store.copyOf u = some p →
    p = s.store.activePlanId u (s.syncedAt u)

variable {store : BindingDB}

section Runs

variable {cal : Calendar} {catalogue : Table SubscriptionPlan.id} {s : Prices}

theorem Prices.Fresh.copied (h : s.Fresh) : s.Copied where
  planIds := h.planIds
  copy u _ p hp := by
    obtain ⟨user, huser, rfl⟩ := Option.map_eq_some_iff.mp hp
    have hnone : s.store.enabledBindings u = [] := by
      unfold BindingDB.enabledBindings
      rw [h.bindings]
      rfl
    rw [BindingDB.activePlanId, hnone]
    exact h.copies user (Table.mem_of_find? huser)

/-- Changing the store as `Writes` says and noting whose copy was computed
keeps the invariant. -/
theorem Prices.Copied.writes (h : s.Copied) (hw : s.store.Writes store user s.now) : ({ s with
      store := store
      syncedAt := fun u => if user = some u then s.now else s.syncedAt u } : Prices).Copied where
  planIds := by
    rw [hw.plans]
    exact h.planIds
  copy u hu p hp := by
    show p = store.activePlanId u (if user = some u then s.now else s.syncedAt u)
    by_cases hself : user = some u
    · rw [if_pos hself]
      exact hw.copied u hself hu p hp
    obtain ⟨hbindings, hcopy⟩ := hw.others u hself
    rw [if_neg hself, BindingDB.activePlanId, hbindings]
    exact h.copy u hu p (hcopy ▸ hp)

theorem Prices.Copied.kept (h : s.Copied) (hb : store.discountBindings = s.store.discountBindings)
    (hc : store.db.planCopies = s.store.db.planCopies) : ({ s with store := store } : Prices).Copied :=
  h.writes (.of_kept hb hc s.now)

theorem Prices.Copied.commit {α : Type} (h : s.Copied) {body : Tx BindingDB Err α}
    (hbody : ∀ a store, body s.store = .ok (a, store) → s.store.Writes store user s.now) :
    (s.commit (atomically body s.store) user).Copied := by
  obtain ⟨a, store, hrun, hres⟩ | ⟨e, -, hres⟩ := atomically_cases body s.store
  · rw [hres]
    exact h.writes (hbody a store hrun)
  · rw [hres]
    exact h

/-- **One operation keeps the invariant.** -/
theorem Prices.Copied.step (h : s.Copied) (op : PriceOp) : (priceStep cal catalogue s op).Copied := by
  cases op with
  | tick => exact ⟨h.planIds, h.copy⟩
  | bind => exact h.commit fun _ _ => writes_bindDiscountPlan
  | unbind => exact h.commit fun _ _ => writes_unbindDiscountPlan
  | useCode =>
    dsimp only [priceStep, bindCustomerCode]
    split
    · exact h
    split
    · exact h
    · exact h.commit fun _ _ => writes_bindCustomerCodeTx
  | buy env userId planId =>
    dsimp only [priceStep]
    rcases catalogue.find? planId with - | plan
    · exact h
    · exact h.commit fun _ _ => writes_createSubscription
  | invalidate =>
    dsimp only [priceStep, adminInvalidateUserSubscription]
    split
    · exact h
    · exact h.commit fun _ _ => writes_adminInvalidateTx
  | expire env userId =>
    refine h.kept rfl ?_
    obtain ⟨a, db, hrun, hres⟩ | ⟨e, -, hres⟩ :=
      atomically_cases (expireUserTx env s.now userId) s.store.db
    · unfold expireUser
      rw [hres]
      exact keeps_expireUserTx env s.now userId s.store.db a db hrun
    · unfold expireUser
      rw [hres]
  | delete env id =>
    dsimp only [priceStep, adminDeleteUserSubscription]
    split
    · exact h
    obtain ⟨a, store, hrun, hres⟩ | ⟨e, -, hres⟩ :=
      atomically_cases (onDB (adminDeleteTx env s.now id)) s.store
    · obtain ⟨db, hdb, rfl⟩ := ok_zoom_iff.mp hrun
      rw [hres]
      exact h.kept rfl (keeps_adminDeleteTx env s.now id s.store.db a db hdb)
    · rw [hres]
      exact h

/-- The copies after any run. -/
theorem Prices.Fresh.run (h : s.Fresh) (ops : List PriceOp) :
    (exec (priceStep cal catalogue) s ops).Copied := by
  refine exec_inv (fun s op hs => ?_) h.copied ops
  exact hs.step op

end Runs

/-! ### Agreement -/

/-- The copy of the user tells the truth at `t`: nothing that may price them
began or ended since it was computed. -/
def Prices.CopyCurrent (s : Prices) (u t : Int) : Prop :=
  0 < u → (s.store.db.users.find? u).isSome → ∀ b ∈ s.store.enabledBindings u,
    (s.store.db.livePlan b.planId).isSome → (b.InWindow (s.syncedAt u) ↔ b.InWindow t)
deriving Decidable

section Agreement

variable {pricing : Pricing} {m : String}

theorem livePlan_activePlanId_eq_iff {s : BindingDB} {τ t : Int} (hone : (s.enabledBindings u).length ≤ 1) :
    s.db.livePlan (s.activePlanId u τ) = s.db.livePlan (s.activePlanId u t) ↔
      ∀ b ∈ s.enabledBindings u, (s.db.livePlan b.planId).isSome → (b.InWindow τ ↔ b.InWindow t) := by
  rcases hb : s.enabledBindings u with - | ⟨b, rest⟩
  · unfold BindingDB.activePlanId
    rw [hb]
    exact ⟨fun _ _ hmem => (nomatch hmem), fun _ => rfl⟩
  obtain rfl : rest = [] := by
    rw [hb, length_cons] at hone
    exact eq_nil_of_length_eq_zero (by omega)
  have hzero : s.db.livePlan 0 = none := rfl
  rw [activePlanId_singleton hb, activePlanId_singleton hb, forall_mem_singleton]
  rcases hlive : s.db.livePlan b.planId with - | plan
  · refine ⟨fun _ => nofun, fun _ => ?_⟩
    split <;> split <;> simp [hlive, hzero]
  · by_cases hτ : b.InWindow τ <;> by_cases ht : b.InWindow t <;> simp [hlive, hzero, hτ, ht]

/-- Both answer with the list price, or the wholesale price, to whom there are
no bindings to read. -/
theorem agree_without_user (s : BindingDB) (t u : Int) (hm : trimSpace m ≠ "")
    (hu : ¬ (0 < u ∧ (s.db.users.find? u).isSome)) :
    resolveUserDiscountMulti pricing s t u m = some (resolveUserDiscount pricing s.db u m) := by
  have hmem : trimSpace m ∈ normalizeLookupValues [trimSpace m] := by
    rw [normalize_singleton hm]
    exact mem_singleton.mpr rfl
  have hfast : resolvePlanDiscount pricing s.db u m = {} := by
    unfold resolvePlanDiscount
    split
    · rfl
    have hnone : s.db.users.find? u = none :=
      Option.not_isSome_iff_eq_none.mp fun h => hu ⟨by omega, h⟩
    rw [hnone]
  have hmulti : (resolveMultiPlanDiscountForModels pricing s t u [trimSpace m] (trimSpace m)).1
      = some {} := by
    unfold resolveMultiPlanDiscountForModels loadDiscountContext
    rw [if_neg (not_not.mpr hmem)]
    split
    · rfl
    rw [if_neg fun h => hu ⟨by omega, h⟩]
    rfl
  unfold resolveUserDiscountMulti resolveUserDiscountDetailed resolveUserDiscountDetailedForModels
    resolveUserDiscount
  dsimp only
  rw [hmulti, hfast, wholesale_singleton _ _ _ hm]
  rfl

/-- Agreement in a state whose copies are right for the time they were
computed. -/
theorem Prices.Copied.agree_iff {s : Prices} (h : s.Copied) {t : Int}
    (hone : (s.store.enabledBindings u).length ≤ 1) :
    (resolveUserDiscountMulti pricing s.store t u m).map (·.terms)
        = some (resolveUserDiscount pricing s.store.db u m).terms ↔ trimSpace m ≠ "" ∧ s.CopyCurrent u t := by
  by_cases hm : trimSpace m = ""
  · rw [resolveMulti_blank _ _ _ hm]
    exact ⟨nofun, fun h => absurd hm h.1⟩
  by_cases hu : 0 < u ∧ (s.store.db.users.find? u).isSome
  · obtain ⟨hpos, huser⟩ := hu
    obtain ⟨user, hrow⟩ := Option.isSome_iff_exists.mp huser
    have hmem : trimSpace m ∈ normalizeLookupValues [trimSpace m] := by
      rw [normalize_singleton hm]
      exact mem_singleton.mpr rfl
    obtain ⟨r, hr, hterms⟩ := terms_resolveMulti pricing t h.planIds hpos huser hmem hone
    have hcopy : user.discountPlanId = s.store.activePlanId u (s.syncedAt u) :=
      h.copy u hpos _ (Option.map_eq_some_iff.mpr ⟨user, hrow, rfl⟩)
    have hfast := terms_resolvePlanDiscount pricing m hpos hrow
    rw [hcopy] at hfast
    have hmulti : resolveUserDiscountMulti pricing s.store t u m
        = some (pricing.applyWholesale r
            (resolveAgentWholesale pricing.toPriceBook s.store.db u m)) := by
      unfold resolveUserDiscountMulti resolveUserDiscountDetailed
        resolveUserDiscountDetailedForModels
      dsimp only
      rw [hr, wholesale_singleton _ _ _ hm]
      rfl
    rw [hmulti, Option.map_some, Option.some.injEq]
    -- both sides are the terms of a plan, and these show which plan it is
    have hplans : (pricing.applyWholesale r
          (resolveAgentWholesale pricing.toPriceBook s.store.db u m)).terms
        = (resolveUserDiscount pricing s.store.db u m).terms ↔
        s.store.db.livePlan (s.store.activePlanId u (s.syncedAt u))
          = s.store.db.livePlan (s.store.activePlanId u t) := by
      constructor
      · intro hsame
        have hplan : r.plan = (resolvePlanDiscount pricing s.store.db u m).plan := by
          have hsame := congrArg (·.2.2) hsame
          exact (plan_applyWholesale r _).symm.trans (hsame.trans (plan_applyWholesale _ _))
        have hr : r.plan = _ := (congrArg (·.2.2) hterms).trans (plan_termsOf _)
        have hf : (resolvePlanDiscount pricing s.store.db u m).plan = _ :=
          (congrArg (·.2.2) hfast).trans (plan_termsOf _)
        exact (hf.symm.trans hplan.symm).trans hr
      · intro hlive
        refine terms_applyWholesale ?_ _
        rw [hterms, hfast, hlive]
    rw [hplans, livePlan_activePlanId_eq_iff hone]
    exact ⟨fun hcond => ⟨hm, fun _ _ => hcond⟩, fun hcond => hcond.2 hpos huser⟩
  · rw [agree_without_user _ _ _ hm hu]
    refine ⟨fun _ => ⟨hm, fun hpos huser => absurd ⟨hpos, huser⟩ hu⟩, fun _ => rfl⟩

/-- **The fast path agrees with the facts** at a time exactly if, since the
user's copy was computed, the window of their binding has neither opened nor
closed, or the plan cannot price anything anyway. -/
theorem fast_path_agrees_iff (cal : Calendar) (catalogue : Table SubscriptionPlan.id) {s : Prices}
    (hfresh : s.Fresh) (ops : List PriceOp) (u t : Int)
    (hone : ((exec (priceStep cal catalogue) s ops).store.enabledBindings u).length ≤ 1) :
    (resolveUserDiscountMulti pricing (exec (priceStep cal catalogue) s ops).store t u m).map (·.terms)
        = some (resolveUserDiscount pricing (exec (priceStep cal catalogue) s ops).store.db u m).terms
      ↔ trimSpace m ≠ "" ∧ (exec (priceStep cal catalogue) s ops).CopyCurrent u t :=
  (hfresh.run ops).agree_iff hone

end Agreement

/-- User 1 and a plan at 0.8, bound to nobody. -/
def unboundPrices : Prices where
  store :=
    { db :=
        { users := ⟨[{ id := 1 }], by decide⟩
          discountPlans := ⟨[{ id := 7, baseDiscount := "0.8" }], by decide⟩ } }

theorem unboundPrices_fresh : unboundPrices.Fresh := ⟨by decide, rfl, by decide⟩

/-- The administrator binds the plan to the user until 1000. -/
def bindUntil1000 : PriceOp :=
  .bind { newId := 3 } { id := 0, subjectId := 1, planId := 7, effectiveTo := 1000 }

/-- Within the window the two agree. -/
theorem fast_path_agrees_within_window : unboundPrices.Fresh ∧
      ((exec (priceStep utcDays Table.empty) unboundPrices [bindUntil1000]).store.enabledBindings
        1).length ≤ 1 ∧ (resolveUserDiscountMulti demoPricing
            (exec (priceStep utcDays Table.empty) unboundPrices [bindUntil1000]).store 999 1
            "gpt-4").map (·.terms) = some (resolveUserDiscount demoPricing
            (exec (priceStep utcDays Table.empty) unboundPrices [bindUntil1000]).store.db 1
            "gpt-4").terms := by
  have hone : ((exec (priceStep utcDays Table.empty) unboundPrices
      [bindUntil1000]).store.enabledBindings 1).length ≤ 1 := by decide +kernel
  exact ⟨unboundPrices_fresh, hone,
    (fast_path_agrees_iff utcDays Table.empty unboundPrices_fresh [bindUntil1000] 1 999 hone).mpr
      ⟨by decide +kernel, by decide +kernel⟩⟩

/-- When the window has closed, the user still has the plan by the fast path
and pays the list price by the bindings. -/
theorem fast_path_outlives_window : unboundPrices.Fresh ∧
      ((exec (priceStep utcDays Table.empty) unboundPrices [bindUntil1000]).store.enabledBindings
        1).length ≤ 1 ∧ (resolveUserDiscount demoPricing
            (exec (priceStep utcDays Table.empty) unboundPrices [bindUntil1000]).store.db 1
            "gpt-4").discount = "0.800000" ∧ (resolveUserDiscountMulti demoPricing
            (exec (priceStep utcDays Table.empty) unboundPrices [bindUntil1000]).store 1000 1
            "gpt-4").map (fun r => (r.discount, r.source)) = some (discountNone, .default) :=
  ⟨unboundPrices_fresh, by decide +kernel, by decide +kernel, by decide +kernel⟩

end MicrossApi
