/-
MicrossApi/SubscriptionDiscounts.lean

The discounts a user has from subscriptions.  A purchase of a plan with a
discount writes a binding for the time of the subscription; a cancellation
switches *all* such bindings of the user off, and a deletion none.

So the bindings in force are those of the active subscriptions as long as
nothing but the last discounted subscription is cancelled and no running
discounted one is deleted (`MirroredOp`).  A binding is written for its whole
window, so the invariant speaks of every instant to come and not only of now
(`Mirrored`); a passing clock then costs nothing.
-/
import MicrossApi.Subscriber

namespace MicrossApi

open List StepSystem

/-! ### Discounts of subscriptions -/

variable (catalogue : Table SubscriptionPlan.id)

/-- The discount plan of a subscription, 0 being none. -/
def UserSubscription.discountOf (y : UserSubscription) : Int :=
  ((catalogue.find? y.planId).map (·.discountPlanId)).getD 0

/-- `y` is active at `t` and its plan has a discount. -/
def UserSubscription.Discounted (t : Int) (y : UserSubscription) : Prop :=
  y.status = .active ∧ t < y.endTime ∧ 0 < y.discountOf catalogue
deriving Decidable

/-- The plans the user is bound to now. -/
def Subscriber.boundPlans (x : Subscriber) : List Int :=
  (x.bindings.filter (·.InWindow x.now)).map (·.planId)

/-- The discount plans of the user's active subscriptions. -/
def Subscriber.discountPlans (x : Subscriber) : List Int :=
  (x.subs.filter (·.Discounted catalogue x.now)).map (·.discountOf catalogue)

/-! ### Bindings mirror subscriptions -/

/-- From now on the bindings in force are those of the active
subscriptions. -/
structure Mirrored (catalogue : Table SubscriptionPlan.id) (x : Subscriber) : Prop where
  bound : ∀ t, x.now ≤ t → ∀ b ∈ x.bindings, b.InWindow t →
    ∃ y ∈ x.subs, y.Discounted catalogue t ∧ y.discountOf catalogue = b.planId
  covered : ∀ t, x.now ≤ t → ∀ y ∈ x.subs, y.Discounted catalogue t →
    ∃ b ∈ x.bindings, b.InWindow t ∧ b.planId = y.discountOf catalogue
  clock : 0 ≤ x.now

/-- A plan with a discount is bought only if it ends after it starts; a subscription is
cancelled only while no other one of the user has a discount, and deleted only when
it has none itself. -/
def MirroredOp (cal : Calendar) (u : Int) (x : Subscriber) : LifeOp → Prop
  | .buy _ userId planId _ =>
    userId = u → ∀ plan ∈ catalogue.find? planId, 0 < plan.discountPlanId → plan.EndsAfter cal x.now
  | .invalidate _ _ id =>
    (∃ y ∈ x.subs, y.id = id) → ∀ y ∈ x.subs, y.id ≠ id → ¬ y.Discounted catalogue x.now
  | .delete _ _ id => ∀ y ∈ x.subs, y.id = id → ¬ y.Discounted catalogue x.now
  | _ => True

instance (catalogue cal u x op) : Decidable (MirroredOp catalogue cal u x op) := by
  unfold MirroredOp
  split <;> infer_instance

section Mirror

variable {cal : Calendar} {catalogue : Table SubscriptionPlan.id} {u : Int} {x x' : Subscriber}
  {y : UserSubscription} {newId : Int} {plan : SubscriptionPlan} {sub : UserSubscription}

theorem UserSubscription.Discounted.earlier {t t' : Int}
    (h : y.Discounted catalogue t) (ht : t' ≤ t) : y.Discounted catalogue t' :=
  ⟨h.1, lt_of_le_of_lt ht h.2.1, h.2.2⟩

/-- The binding of a purchase is in force while the subscription runs. -/
theorem inWindow_subscriptionBinding (hends : plan.EndsAfter cal x.now) (hnow : 0 ≤ x.now)
    (h : Subscriber.Offers cal catalogue u x plan sub) {t : Int} (ht : x.now ≤ t) :
    (subscriptionBinding newId u plan sub).InWindow t ↔ t < sub.endTime := by
  have hend := hends.lt h.ends
  show sub.startTime ≤ t ∧ ¬ (0 < sub.endTime ∧ sub.endTime ≤ t) ↔ _
  rw [h.starts]
  omega

theorem discountOf_bought
    (h : Subscriber.Offers cal catalogue u x plan sub) : sub.discountOf catalogue = plan.discountPlanId := by
  unfold UserSubscription.discountOf
  rw [h.plan_found]
  rfl

theorem mem_bindings_buy {b : DiscountBinding} : b ∈ (x.buy u newId plan sub).bindings ↔
      b ∈ x.bindings ∨ 0 < plan.discountPlanId ∧ b = subscriptionBinding newId u plan sub := by
  show b ∈ ite _ _ _ ↔ _
  by_cases hplan : plan.discountPlanId ≤ 0
  · rw [if_pos hplan]
    simp [not_lt.mpr hplan]
  · rw [if_neg hplan]
    simp [not_le.mp hplan]

theorem mem_subs_buy :
    y ∈ (x.buy u newId plan sub).subs ↔ y ∈ x.subs ∨ y = sub := by
  show y ∈ x.subs ++ [sub] ↔ _
  rw [mem_append, mem_singleton]

theorem mirrored_buy (hx : Mirrored catalogue x) (newId : Int)
    (h : Subscriber.Offers cal catalogue u x plan sub)
    (hends : 0 < plan.discountPlanId → plan.EndsAfter cal x.now) :
    Mirrored catalogue (x.buy u newId plan sub) := by
  have hdisc := discountOf_bought h
  refine ⟨fun t ht b hb hin => ?_, fun t ht y hy hyd => ?_, hx.clock⟩
  · obtain hb | ⟨hpos, rfl⟩ := mem_bindings_buy.mp hb
    · obtain ⟨y, hy, hyd⟩ := hx.bound t ht b hb hin
      exact ⟨y, mem_subs_buy.mpr (Or.inl hy), hyd⟩
    · have hend := (inWindow_subscriptionBinding (hends hpos) hx.clock h ht).mp hin
      exact ⟨sub, mem_subs_buy.mpr (Or.inr rfl), ⟨h.active, hend, hdisc ▸ hpos⟩, hdisc⟩
  · obtain hy | rfl := mem_subs_buy.mp hy
    · obtain ⟨b, hb, hin⟩ := hx.covered t ht y hy hyd
      exact ⟨b, mem_bindings_buy.mpr (Or.inl hb), hin⟩
    obtain ⟨-, hend, hpos⟩ := hyd
    refine ⟨_, mem_bindings_buy.mpr (Or.inr ⟨hdisc ▸ hpos, rfl⟩), ?_, hdisc.symm⟩
    exact (inWindow_subscriptionBinding (hends (hdisc ▸ hpos)) hx.clock h ht).mpr hend

theorem mirrored_expire (hx : Mirrored catalogue x) (env : ExpireEnv) {t₀ : Int}
    (ht₀ : t₀ ≤ x.now) : Mirrored catalogue (x.expire env u t₀) := by
  refine ⟨fun t ht b hb hin => ?_, fun t ht y' hy' hyd => ?_, hx.clock⟩
  · obtain ⟨y, hy, hyd, hplan⟩ := hx.bound t ht b hb hin
    -- what is active at `t` is not due at `t₀`
    have hdue : ¬ (y.userId = u ∧ y.Due t₀) := by
      rintro ⟨-, -, -, hle⟩
      have hlt := hyd.2.1
      have hnow : x.now ≤ t := ht
      omega
    exact ⟨y, mem_map.mpr ⟨y, hy, if_neg hdue⟩, hyd, hplan⟩
  · obtain ⟨y, hy, hmark, -⟩ := mem_markDue hy'
    obtain rfl := hmark.active hyd.1
    exact hx.covered t ht y' hy hyd

/-- Every move keeps the bindings mirrored, if it is as it should be. -/
theorem mirrored_step {op : LifeOp} (hop : MirroredOp catalogue cal u x op)
    (h : Subscriber.Step cal catalogue u x op x') (hx : Mirrored catalogue x) : Mirrored catalogue x' := by
  cases h with
  | stay => exact hx
  | wait d =>
    have hlater : x.now ≤ x.now + d := by omega
    exact ⟨fun t ht => hx.bound t (hlater.trans ht), fun t ht => hx.covered t (hlater.trans ht),
      hx.clock.trans hlater⟩
  | buy hplan hoffer => exact mirrored_buy hx _ hoffer (hop rfl _ hplan)
  | expire env => exact mirrored_expire hx env (by omega)
  | @cancel sub env delay hsub =>
    refine ⟨fun t ht b hb => (not_mem_nil hb).elim, fun t ht y' hy' hyd => ?_, hx.clock⟩
    -- nothing else has a discount
    obtain ⟨y, hy, -, hcancelled, hsame⟩ := mem_markCancelled hy'
    have hid : y.id ≠ sub.id := by
      intro hid
      have := hcancelled hid
      rw [hyd.1] at this
      cases this
    rw [hsame hid] at hyd
    exact absurd (hyd.earlier ht) (hop ⟨sub, hsub, rfl⟩ y hy hid)
  | @remove sub env delay hsub =>
    refine ⟨fun t ht b hb hin => ?_, fun t ht y hy => ?_, hx.clock⟩
    · obtain ⟨y, hy, hyd, hplan⟩ := hx.bound t ht b hb hin
      have hid : y.id ≠ sub.id := fun hid => hop y hy hid (hyd.earlier ht)
      exact ⟨y, mem_filter.mpr ⟨hy, decide_eq_true hid⟩, hyd, hplan⟩
    · exact hx.covered t ht y (mem_of_mem_filter hy)

/-- Mirrored bindings name the plans of the active subscriptions now. -/
theorem Mirrored.plans_eq (hx : Mirrored catalogue x) :
    x.boundPlans.toFinset = (x.discountPlans catalogue).toFinset := by
  ext plan
  simp only [Subscriber.boundPlans, Subscriber.discountPlans, mem_toFinset, mem_map,
    mem_filter, decide_eq_true_eq]
  constructor
  · rintro ⟨b, ⟨hb, hin⟩, rfl⟩
    obtain ⟨y, hy, hyd, hplan⟩ := hx.bound x.now le_rfl b hb hin
    exact ⟨y, ⟨hy, hyd⟩, hplan⟩
  · rintro ⟨y, ⟨hy, hyd⟩, rfl⟩
    obtain ⟨b, hb, hin, hplan⟩ := hx.covered x.now le_rfl y hy hyd
    exact ⟨b, ⟨hb, hin⟩, hplan⟩

/-- **Discounts follow subscriptions**, if those bought end after they start, no
subscription is cancelled while another one has a discount and none with a running
discount is deleted. -/
theorem discounts_follow_subscriptions (cal : Calendar) (catalogue : Table SubscriptionPlan.id)
    (s : Life) (ops : List LifeOp) (u : Int) (hu : (s.store.db.users.find? u).isSome)
    (hsubs : (s.subscriber u).subs = []) (hbindings : (s.subscriber u).bindings = [])
    (hmirror : Along (lifeStep cal catalogue)
      (fun s op => MirroredOp catalogue cal u (s.subscriber u) op) s ops) :
    let x := (exec (lifeStep cal catalogue) s ops).subscriber u
    x.boundPlans.toFinset = (x.discountPlans catalogue).toFinset := by
  have hstart : Mirrored catalogue (s.subscriber u) := by
    refine ⟨fun t _ b hb => ?_, fun t _ y hy => ?_, Int.natCast_nonneg s.now⟩
    · rw [hbindings] at hb
      cases hb
    · rw [hsubs] at hy
      cases hy
  have hrun := subscriber_inv hu (fun _ _ _ hop h => mirrored_step hop h) hstart hmirror
  exact hrun.plans_eq

end Mirror

/-! ### Deleting and cancelling -/

def discountedPlan : SubscriptionPlan :=
  { id := 1, durationUnit := .custom, customSeconds := 100, discountPlanId := 7 }

def otherDiscountedPlan : SubscriptionPlan :=
  { id := 2, durationUnit := .custom, customSeconds := 150, discountPlanId := 8 }

def demoDiscountPlans : Table SubscriptionPlan.id :=
  ⟨[discountedPlan, otherDiscountedPlan], by decide⟩

/-- A subscription that runs out, and another one that is cancelled and then
deleted. -/
theorem discounts_follow_subscriptions_in_turn :
    let ops := [demoBuy 1 1, .tick 50, demoBuy 2 2, .tick 50, .expire {} 0 1, .invalidate {} 0 2,
      .delete {} 0 2]
    let x := (exec (lifeStep utcDays demoDiscountPlans) demoLife ops).subscriber 1
    x.boundPlans.toFinset = (x.discountPlans demoDiscountPlans).toFinset := by
  intro ops
  exact discounts_follow_subscriptions utcDays demoDiscountPlans demoLife ops 1
    (by decide) (by decide) (by decide) (by decide +kernel)

/-- A deleted subscription leaves its discount in force; and cancelling one of
two takes the discount of both. -/
theorem discounts_outlive_deletion :
    let deleted := [demoBuy 1 1, .delete {} 0 1]
    let cancelled := [demoBuy 1 1, demoBuy 2 2, .invalidate {} 0 1]
    let x := (exec (lifeStep utcDays demoDiscountPlans) demoLife deleted).subscriber 1
    let y := (exec (lifeStep utcDays demoDiscountPlans) demoLife cancelled).subscriber 1
    (x.boundPlans = [7] ∧ x.discountPlans demoDiscountPlans = []) ∧
      y.boundPlans = [] ∧ y.discountPlans demoDiscountPlans = [8] := by
  decide +kernel

end MicrossApi
