/-
MicrossApi/Subscriber.lean

One user's part of the life of subscriptions: their subscriptions, their
group, the enabled bindings they have from subscriptions, and what they
bought.  Whatever happens in the system, a user sees one of a few moves
(`Subscriber.Step`); `lifeStep_simulates` is the simulation, and what holds of
every chain of moves then holds of every user in every run.

The moves speak of the user's own subscriptions alone, so a statement about
one user need not mention the others, the tables or the failures.
-/
import MicrossApi.StepSystem
import MicrossApi.SubscriptionLifecycle

namespace MicrossApi

open List StepSystem

-- a view is compared field by field, never by computing a group
attribute [local irreducible] groupWithout groupAfterExpiry groupOr groupLeft trimSpace

/-! ### One user's view -/

/-- One user's part of a state. -/
@[ext] structure Subscriber where
  subs : List UserSubscription
  group : String
  bindings : List DiscountBinding
  now : Int
  bought : List UserSubscription

/-- What the user `u` sees of the system. -/
def Life.subscriber (s : Life) (u : Int) : Subscriber where
  subs := s.store.db.userSubscriptions.rows.filter (·.userId = u)
  group := s.store.db.groupOf u
  bindings := s.store.discountBindings.rows.filter (·.FromSubscription u)
  now := s.now
  bought := s.bought.filter (·.userId = u)

namespace Subscriber

/-- `sub` is what the user gets for buying `plan` now. -/
structure Offers (cal : Calendar) (catalogue : Table SubscriptionPlan.id) (u : Int)
    (x : Subscriber) (plan : SubscriptionPlan) (sub : UserSubscription) : Prop where
  plan_found : catalogue.find? sub.planId = some plan
  ends : calcPlanEndTime cal x.now plan = .ok sub.endTime
  starts : sub.startTime = x.now
  user : sub.userId = u
  active : sub.status = .active
  upgrade : sub.upgradeGroup = trimSpace plan.upgradeGroup
  downgrade : sub.downgradeGroup = trimSpace plan.downgradeGroup
  prev : sub.prevUserGroup = groupLeft x.group sub.upgradeGroup
  fresh : ∀ y ∈ x.subs, y.id ≠ sub.id

variable (x : Subscriber)

/-- The user buys `sub`. -/
def buy (u newId : Int) (plan : SubscriptionPlan) (sub : UserSubscription) : Subscriber :=
  { x with
    subs := x.subs ++ [sub]
    group := groupOr x.group sub.upgradeGroup
    bindings :=
      if plan.discountPlanId ≤ 0 then x.bindings
      else x.bindings ++ [subscriptionBinding newId u plan sub]
    bought := sub :: x.bought }

/-- The due ones of `subs` are marked. -/
def markDue (u t : Int) (subs : List UserSubscription) : List UserSubscription :=
  subs.map fun s => if s.userId = u ∧ s.Due t then { s with status := .expired } else s

/-- What has ended by `t` expires. -/
def expire (env : ExpireEnv) (u t : Int) : Subscriber :=
  { x with
    subs := markDue u t x.subs
    group := groupAfterExpiry env u (markDue u t x.subs) x.group t }

/-- The subscription `id` among `subs` is cancelled. -/
def markCancelled (t id : Int) (subs : List UserSubscription) : List UserSubscription :=
  subs.map fun s => if s.id = id then { s with status := .cancelled, endTime := t } else s

variable (env : DowngradeEnv)

/-- An administrator cancels `sub`. -/
def cancel (u t : Int) (sub : UserSubscription) : Subscriber :=
  { x with
    subs := markCancelled t sub.id x.subs
    group := groupWithout env u (markCancelled t sub.id x.subs) x.group sub t
    bindings := [] }

/-- An administrator deletes `sub`. -/
def remove (u t : Int) (sub : UserSubscription) : Subscriber :=
  { x with
    subs := x.subs.filter (·.id ≠ sub.id)
    group := groupWithout env u x.subs x.group sub t }

/-- The moves a user can see when `op` is performed; most operations are about
somebody else. -/
inductive Step (cal : Calendar) (catalogue : Table SubscriptionPlan.id) (u : Int)
    (x : Subscriber) : LifeOp → Subscriber → Prop where
  | stay (op : LifeOp) : Step cal catalogue u x op x
  | wait (d : Nat) : Step cal catalogue u x (.tick d) { x with now := x.now + d }
  | buy {env : BuyEnv} {planId : Int} {source : String} {plan : SubscriptionPlan}
      {sub : UserSubscription} (hplan : catalogue.find? planId = some plan)
      (h : Offers cal catalogue u x plan sub) :
      Step cal catalogue u x (.buy env u planId source) (x.buy u env.bind.newId plan sub)
  | expire (env : ExpireEnv) (delay : Nat) :
      Step cal catalogue u x (.expire env delay u) (x.expire env u (x.now - delay))
  | cancel {sub : UserSubscription} (env : AdminEndEnv) (delay : Nat) (hsub : sub ∈ x.subs) :
      Step cal catalogue u x (.invalidate env delay sub.id)
        (x.cancel env.downgrade u (x.now - delay) sub)
  | remove {sub : UserSubscription} (env : AdminEndEnv) (delay : Nat) (hsub : sub ∈ x.subs) :
      Step cal catalogue u x (.delete env delay sub.id)
        (x.remove env.downgrade u (x.now - delay) sub)

end Subscriber

/-! ### Marking subscriptions -/

/-- `y'` is `y` up to its status and end; an active `y'` is `y`. -/
structure UserSubscription.MarkOf (y' y : UserSubscription) : Prop where
  id : y'.id = y.id
  user : y'.userId = y.userId
  upgrade : y'.upgradeGroup = y.upgradeGroup
  downgrade : y'.downgradeGroup = y.downgradeGroup
  prev : y'.prevUserGroup = y.prevUserGroup
  active : y'.status = .active → y' = y

theorem UserSubscription.MarkOf.refl (y : UserSubscription) : y.MarkOf y :=
  ⟨rfl, rfl, rfl, rfl, rfl, fun _ => rfl⟩

variable {subs : List UserSubscription} {y' : UserSubscription} {u : Int}
  {g : UserSubscription → UserSubscription} {l : List UserSubscription}

theorem mem_markDue {t : Int}
    (h : y' ∈ Subscriber.markDue u t subs) : ∃ y ∈ subs, y'.MarkOf y ∧ y'.endTime = y.endTime ∧
      (y' = y ∧ ¬ (y.userId = u ∧ y.Due t) ∨ (y.userId = u ∧ y.Due t) ∧ y'.status = .expired) := by
  obtain ⟨y, hy, rfl⟩ := mem_map.mp h
  refine ⟨y, hy, ?_⟩
  by_cases hdue : y.userId = u ∧ y.Due t
  · rw [if_pos hdue]
    exact ⟨⟨rfl, rfl, rfl, rfl, rfl, fun h => by cases h⟩, rfl, Or.inr ⟨hdue, rfl⟩⟩
  · rw [if_neg hdue]
    exact ⟨.refl y, rfl, Or.inl ⟨rfl, hdue⟩⟩

theorem mem_markCancelled {t id : Int} (h : y' ∈ Subscriber.markCancelled t id subs) :
    ∃ y ∈ subs, y'.MarkOf y ∧ (y.id = id → y'.status = .cancelled) ∧ (y.id ≠ id → y' = y) := by
  obtain ⟨y, hy, rfl⟩ := mem_map.mp h
  refine ⟨y, hy, ?_⟩
  by_cases hid : y.id = id
  · rw [if_pos hid]
    exact ⟨⟨rfl, rfl, rfl, rfl, rfl, fun h => by cases h⟩, fun _ => rfl, fun h => absurd hid h⟩
  · rw [if_neg hid]
    exact ⟨.refl y, fun h => absurd h hid, fun _ => rfl⟩

/-! ### Selecting one user's rows -/

theorem filter_user_map (hg : ∀ r, (g r).userId = r.userId) :
    (l.map g).filter (·.userId = u) = (l.filter (·.userId = u)).map g := by
  rw [filter_map]
  congr 2
  funext r
  simp [hg r]

theorem map_filter_other (hg : ∀ r ∈ l, r.userId = u → g r = r) :
    (l.filter (·.userId = u)).map g = l.filter (·.userId = u) := by
  conv_rhs => rw [← map_id (l.filter _)]
  refine map_congr_left fun r hr => ?_
  obtain ⟨hmem, hu⟩ := mem_filter.mp hr
  exact hg r hmem (by simpa using hu)

/-- A user's group on leaving a subscription depends on their own ones. -/
theorem groupWithout_filter (env : DowngradeEnv) (u : Int) (l : List UserSubscription) (group : String)
    (sub : UserSubscription) (t : Int) : groupWithout env u (l.filter (·.userId = u)) group sub t
      = groupWithout env u l group sub t := by
  have hany : ((l.filter (·.userId = u)).any fun s => s.KeepsGroup u t ∧ s.id ≠ sub.id)
      = l.any fun s => s.KeepsGroup u t ∧ s.id ≠ sub.id := by
    rw [any_filter]
    congr 1
    funext s
    by_cases h : s.userId = u
    · simp [h]
    · simp [h, UserSubscription.KeepsGroup]
  unfold groupWithout
  rw [hany]

theorem groupAfterExpiry_filter (env : ExpireEnv) (u : Int) (l : List UserSubscription) (group : String)
    (t : Int) : groupAfterExpiry env u (l.filter (·.userId = u)) group t
      = groupAfterExpiry env u l group t := by
  have hany : ((l.filter (·.userId = u)).any fun s => s.KeepsGroup u t)
      = l.any fun s => s.KeepsGroup u t := by
    rw [any_filter]
    congr 1
    funext s
    by_cases h : s.userId = u
    · simp [h]
    · simp [h, UserSubscription.KeepsGroup]
  have hlast : lastExpired u (l.filter (·.userId = u)) = lastExpired u l := by
    unfold lastExpired
    rw [filter_filter]
    congr 2
    funext s
    by_cases h : s.userId = u <;> simp [h]
  unfold groupAfterExpiry
  rw [hany, hlast]

/-! ### The simulation -/

section Simulation

variable {cal : Calendar} {catalogue : Table SubscriptionPlan.id} {s : Life} {u : Int}

theorem filter_withSubscriptionBinding {t : Table DiscountBinding.id} {newId userId : Int}
    {plan : SubscriptionPlan} {sub : UserSubscription}
    (hfree : 0 < plan.discountPlanId → t.find? newId = none) :
    (withSubscriptionBinding t newId userId plan sub).rows.filter (·.FromSubscription u)
      = if plan.discountPlanId ≤ 0 ∨ userId ≠ u then t.rows.filter (·.FromSubscription u)
        else t.rows.filter (·.FromSubscription u) ++ [subscriptionBinding newId u plan sub] := by
  unfold withSubscriptionBinding
  by_cases hplan : plan.discountPlanId ≤ 0
  · rw [if_pos hplan, if_pos (Or.inl hplan)]
  rw [if_neg hplan, Table.rows_insert (hfree (by omega))]
  by_cases hu : userId = u
  · subst hu
    rw [if_neg (by simp [hplan])]
    simp [DiscountBinding.FromSubscription, subscriptionBinding]
  · simp [DiscountBinding.FromSubscription, subscriptionBinding, hu]

theorem id_ne_of_user {t : Table UserSubscription.id} {sub r : UserSubscription}
    (hsub : t.find? sub.id = some sub)
    (huser : sub.userId ≠ u) (hr : r ∈ t.rows) (hru : r.userId = u) : r.id ≠ sub.id := by
  intro hrid
  obtain rfl := Option.mem_unique hsub (Table.find?_eq_some_iff.mpr ⟨hr, hrid⟩)
  exact huser hru

theorem filter_unbound (t : Table DiscountBinding.id) (userId : Int) :
    (t.updateWhere (fun b => b.FromSubscription userId) (fun b => { b with enabled := false })
        (fun _ => rfl)).rows.filter (·.FromSubscription u)
      = if userId = u then [] else t.rows.filter (·.FromSubscription u) := by
  rw [Table.rows_updateWhere]
  by_cases h : userId = u
  · subst h
    rw [if_pos rfl, filter_eq_nil_iff]
    intro b hb
    obtain ⟨r, -, rfl⟩ := mem_map.mp hb
    by_cases hr : r.FromSubscription userId
    · rw [if_pos hr]
      simp [DiscountBinding.FromSubscription]
    · simp [hr]
  · rw [if_neg h]
    induction t.rows with
    | nil => rfl
    | cons b rest ih =>
      rw [map_cons, filter_cons, filter_cons, ih]
      by_cases hb : b.FromSubscription userId
      · have hne : ¬ b.subjectId = u := fun e => h (hb.2.1.symm.trans e)
        rw [if_pos hb]
        simp [DiscountBinding.FromSubscription, hne]
      · rw [if_neg hb]

/-- In the step from `s` to `s'` the user `u` sees one of their moves, and their
row stays. -/
def Simulates (cal : Calendar) (catalogue : Table SubscriptionPlan.id) (u : Int) (s : Life) (op : LifeOp)
    (s' : Life) : Prop :=
  Subscriber.Step cal catalogue u (s.subscriber u) op (s'.subscriber u) ∧
    (s'.store.db.users.find? u).isSome

variable (hu : (s.store.db.users.find? u).isSome)

include hu

theorem simulates_same {s' : Life} (op : LifeOp)
    (hstore : s'.store = s.store) (hnow : s'.now = s.now) (hbought : s'.bought = s.bought) :
    Simulates cal catalogue u s op s' := by
  have hview : s'.subscriber u = s.subscriber u := by
    unfold Life.subscriber
    rw [hstore, hnow, hbought]
  rw [Simulates, hview, hstore]
  exact ⟨.stay op, hu⟩

/-- What a user sees of a purchase: nothing, or their own. -/
theorem simulates_buy (env : BuyEnv) (userId planId : Int) (source : String) : Simulates cal catalogue u s
      (.buy env userId planId source) (s.buy cal catalogue env userId planId source) := by
  unfold Life.buy
  rcases hplan : catalogue.find? planId with - | plan
  · exact simulates_same hu _ rfl rfl rfl
  obtain ⟨sub, store, htx, hrun⟩ | ⟨e, -, hrun⟩ :=
    Tx.atomically_cases (createSubscription cal env s.now userId plan source) s.store
  · simp only [hrun]
    obtain ⟨endUnix, hend, hsub, hfree, hrows, hset, hid, hbindings⟩ := ok_createSubscription htx
    refine ⟨?_, (hset.present u).trans hu⟩
    by_cases huser : userId = u
    · -- the purchase is the user's own
      subst huser
      convert Subscriber.Step.buy hplan (?_ : Subscriber.Offers _ _ _ _ plan sub) using 1
      · apply Subscriber.ext
        · show store.db.userSubscriptions.rows.filter _ = _
          rw [hrows, Table.rows_insert hfree, filter_append]
          congr 1
          simp [hsub, subscriptionFromPlan]
        · show store.db.groupOf userId = _
          rw [hset.group userId hu, if_pos rfl, hsub]
          rfl
        · show store.discountBindings.rows.filter _ = _
          rw [hbindings, filter_withSubscriptionBinding hid]
          simp only [ne_eq, not_true_eq_false, or_false]
          rfl
        · rfl
        · show (sub :: s.bought).filter (·.userId = userId) = _
          rw [filter_cons_of_pos (by simp [hsub, subscriptionFromPlan])]
          rfl
      · have hkey : plan.id = planId := Table.key_of_find? hplan
        constructor
        case fresh =>
          intro y hy hyid
          exact Table.find?_eq_none_iff.mp hfree y (mem_of_mem_filter hy) hyid
        all_goals subst hsub
        case plan_found =>
          show catalogue.find? plan.id = some plan
          rw [hkey]
          exact hplan
        case ends => exact hend
        all_goals rfl
    · convert Subscriber.Step.stay _ using 1
      apply Subscriber.ext
      · show store.db.userSubscriptions.rows.filter _ = _
        rw [hrows, Table.rows_insert hfree]
        simp [hsub, subscriptionFromPlan, huser, Life.subscriber]
      · show store.db.groupOf u = _
        rw [hset.group u hu, if_neg (Ne.symm huser)]
        rfl
      · show store.discountBindings.rows.filter _ = _
        rw [hbindings, filter_withSubscriptionBinding hid, if_pos (Or.inr huser)]
        rfl
      · rfl
      · show (sub :: s.bought).filter (·.userId = u) = _
        rw [filter_cons_of_neg (by simp [hsub, subscriptionFromPlan, huser])]
        rfl
  · simp only [hrun]
    exact simulates_same hu _ rfl rfl rfl

theorem simulates_set {s' : Life} {op : LifeOp} {v : Int} {g : String}
    (hset : s.store.db.GroupSet s'.store.db v g) (hrest : s'.now = s.now ∧ s'.bought = s.bought)
    (hown : v = u → Subscriber.Step cal catalogue u (s.subscriber u) op { s.subscriber u with
      subs := (s'.subscriber u).subs, group := g, bindings := (s'.subscriber u).bindings })
    (hother : v ≠ u → (s'.subscriber u).subs = (s.subscriber u).subs ∧
      (s'.subscriber u).bindings = (s.subscriber u).bindings) : Simulates cal catalogue u s op s' := by
  refine ⟨?_, (hset.present u).trans hu⟩
  have hgroup := hset.group u hu
  have hnow : (s'.subscriber u).now = (s.subscriber u).now := congrArg Nat.cast hrest.1
  have hbought : (s'.subscriber u).bought = (s.subscriber u).bought := congrArg (filter _) hrest.2
  by_cases h : v = u
  · convert hown h
    exact Subscriber.ext rfl (hgroup.trans (if_pos h.symm)) rfl hnow hbought
  · have hview : s'.subscriber u = s.subscriber u :=
      Subscriber.ext (hother h).1 (hgroup.trans (if_neg (Ne.symm h))) (hother h).2 hnow hbought
    rw [hview]
    exact .stay op

theorem simulates_expire (env : ExpireEnv) (delay : Nat) (userId : Int) :
    let op := .expire env delay userId
    Simulates cal catalogue u s op (lifeStep cal catalogue s op) := by
  intro op
  set s' := lifeStep cal catalogue s op
  have hdb : s'.store.db
      = (Tx.atomically (expireUserTx env (s.now - delay) userId) s.store.db).2 := by
    show (expireUser env (s.now - delay) userId s.store.db).2 = _
    unfold expireUser
    rcases Tx.atomically (expireUserTx env (s.now - delay) userId) s.store.db with ⟨e | x, db⟩ <;> rfl
  obtain ⟨x, db, htx, hrun⟩ | ⟨e, -, hrun⟩ :=
    Tx.atomically_cases (expireUserTx env (s.now - delay) userId) s.store.db
  · replace hdb : s'.store.db = db := by rw [hdb, hrun]
    obtain ⟨hrows, hset⟩ := ok_expireUserTx htx
    -- the rows of `u` are the marked rows of `u`
    have hsubs : (s'.subscriber u).subs
        = Subscriber.markDue userId (s.now - delay) (s.subscriber u).subs := by
      show s'.store.db.userSubscriptions.rows.filter _ = _
      rw [hdb, hrows, DB.expireDue, Table.rows_updateWhere]
      apply filter_user_map
      intro r
      split <;> rfl
    rw [← groupAfterExpiry_filter, ← hrows, ← hdb] at hset
    refine simulates_set hu hset ⟨rfl, rfl⟩ (fun huser => ?_) fun huser => ⟨?_, rfl⟩
    · subst huser
      change s'.store.db.userSubscriptions.rows.filter _ = _ at hsubs
      show Subscriber.Step _ _ _ _ _ ⟨s'.store.db.userSubscriptions.rows.filter _, _, _, _, _⟩
      rw [hsubs]
      exact .expire env delay
    · rw [hsubs]
      apply map_filter_other
      intro r _ hr
      rw [if_neg]
      rintro ⟨h, -⟩
      exact huser (h.symm.trans hr)
  · rw [hrun] at hdb
    have hstore : s'.store = s.store := by
      show ({ s.store with db := s'.store.db } : BindingDB) = s.store
      rw [hdb]
    exact simulates_same hu _ hstore rfl rfl

theorem simulates_invalidate (env : AdminEndEnv) (delay : Nat) (id : Int) :
    let op := .invalidate env delay id
    Simulates cal catalogue u s op (lifeStep cal catalogue s op) := by
  intro op
  set s' := lifeStep cal catalogue s op
  have hstore : s'.store = (adminInvalidateUserSubscription env (s.now - delay) id s.store).2 := rfl
  unfold adminInvalidateUserSubscription at hstore
  split at hstore
  · exact simulates_same hu _ hstore rfl rfl
  obtain ⟨t, store, htx, hrun⟩ | ⟨e, -, hrun⟩ :=
    Tx.atomically_cases (adminInvalidateTx env (s.now - delay) id) s.store
  · replace hstore : s'.store = store := by rw [hstore, hrun]
    obtain ⟨sub, db₁, hsub, rfl, hrows, hset, hbindings⟩ := ok_adminInvalidateTx htx
    have hid : sub.id = id := Table.key_of_find? hsub
    subst hid
    have hsubs : (s'.subscriber u).subs
        = Subscriber.markCancelled (s.now - delay) sub.id (s.subscriber u).subs := by
      show s'.store.db.userSubscriptions.rows.filter _ = _
      rw [hstore, hrows]
      apply filter_user_map
      intro r
      split <;> rfl
    have hbound : (s'.subscriber u).bindings = if sub.userId = u then [] else (s.subscriber u).bindings := by
      show s'.store.discountBindings.rows.filter _ = _
      rw [hstore, hbindings, filter_unbound]
      rfl
    rw [← groupWithout_filter, ← hrows, ← hstore] at hset
    refine simulates_set hu hset ⟨rfl, rfl⟩ (fun huser => ?_) fun huser => ⟨?_, hbound.trans (if_neg huser)⟩
    · subst huser
      rw [hbound, if_pos rfl]
      change s'.store.db.userSubscriptions.rows.filter _ = _ at hsubs
      show Subscriber.Step _ _ _ _ _ ⟨s'.store.db.userSubscriptions.rows.filter _, _, _, _, _⟩
      rw [hsubs]
      exact .cancel env delay (mem_filter.mpr ⟨Table.mem_of_find? hsub, by simp⟩)
    · rw [hsubs]
      apply map_filter_other
      intro r hr hru
      rw [if_neg (id_ne_of_user hsub huser hr hru)]
  · rw [hrun] at hstore
    exact simulates_same hu _ hstore rfl rfl

theorem simulates_delete (env : AdminEndEnv) (delay : Nat) (id : Int) :
    let op := .delete env delay id
    Simulates cal catalogue u s op (lifeStep cal catalogue s op) := by
  intro op
  set s' := lifeStep cal catalogue s op
  have hstore : s'.store = (adminDeleteUserSubscription env (s.now - delay) id s.store).2 := rfl
  unfold adminDeleteUserSubscription at hstore
  split at hstore
  · exact simulates_same hu _ hstore rfl rfl
  obtain ⟨t, store, htx, hrun⟩ | ⟨e, -, hrun⟩ :=
    Tx.atomically_cases (onDB (adminDeleteTx env (s.now - delay) id)) s.store
  · rw [hrun] at hstore
    obtain ⟨db, hdelete, rfl⟩ := Tx.ok_zoom_iff.mp htx
    obtain ⟨sub, hsub, hrows, hset⟩ := ok_adminDeleteTx hdelete
    have hid : sub.id = id := Table.key_of_find? hsub
    subst hid
    have hdb : s'.store.db = db := congrArg (·.db) hstore
    have hbound : (s'.subscriber u).bindings = (s.subscriber u).bindings := by
      show s'.store.discountBindings.rows.filter _ = _
      rw [hstore]
      rfl
    have hsubs : (s'.subscriber u).subs = (s.subscriber u).subs.filter (·.id ≠ sub.id) := by
      show s'.store.db.userSubscriptions.rows.filter _ = (List.filter _ _).filter _
      rw [hdb, hrows]
      show (List.filter _ _).filter _ = _
      rw [filter_filter, filter_filter]
      congr 1
      funext r
      exact Bool.and_comm _ _
    rw [← groupWithout_filter, ← hdb] at hset
    refine simulates_set hu hset ⟨rfl, rfl⟩ (fun huser => ?_) fun huser => ⟨?_, hbound⟩
    · subst huser
      rw [hbound, hsubs]
      exact .remove env delay (mem_filter.mpr ⟨Table.mem_of_find? hsub, by simp⟩)
    · rw [hsubs, filter_eq_self]
      intro r hr
      obtain ⟨hmem, hru⟩ := mem_filter.mp hr
      simpa using id_ne_of_user hsub huser hmem (by simpa using hru)
  · rw [hrun] at hstore
    exact simulates_same hu _ hstore rfl rfl

/-- **Simulation**: whatever happens in the system, a user sees one of their
moves, and their row stays. -/
theorem lifeStep_simulates (op : LifeOp) : Simulates cal catalogue u s op (lifeStep cal catalogue s op) := by
  cases op with
  | tick d => exact ⟨.wait d, hu⟩
  | buy => exact simulates_buy hu ..
  | expire => exact simulates_expire hu ..
  | invalidate => exact simulates_invalidate hu ..
  | delete => exact simulates_delete hu ..

/-- What every move of a user keeps, if it meets `G`, holds in every state of a
run whose operations all meet it. -/
theorem subscriber_inv {I : Subscriber → Prop} {G : Subscriber → LifeOp → Prop}
    (hstep : ∀ x op x', G x op → Subscriber.Step cal catalogue u x op x' → I x → I x')
    (hs : I (s.subscriber u)) {ops : List LifeOp}
    (hG : Along (lifeStep cal catalogue) (fun s op => G (s.subscriber u) op) s ops) :
    I ((exec (lifeStep cal catalogue) s ops).subscriber u) := by
  have hboth := exec_inv_along
    (I := fun s => (s.store.db.users.find? u).isSome ∧ I (s.subscriber u))
    (fun s op h hI => by
      obtain ⟨hmove, hrow⟩ := lifeStep_simulates hI.1 op
      exact ⟨hrow, hstep _ op _ h hmove hI.2⟩)
    ⟨hu, hs⟩ hG
  exact hboth.2

end Simulation

/-! ### A small store -/

def demoLife : Life where
  store := { db := { users := ⟨[{ id := 1 }], List.nodup_singleton _⟩ } }

/-- User 1 buys the plan, which becomes the subscription `newId`. -/
def demoBuy (newId planId : Int) : LifeOp :=
  .buy { create := { now := 0, newId := newId }, bind := { newId := newId } } 1 planId "order"

end MicrossApi
