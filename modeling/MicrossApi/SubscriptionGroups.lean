/-
MicrossApi/SubscriptionGroups.lean

The group of a user while subscriptions come and go.  A plan may move its
buyer into a group; when the subscription ends, the user leaves it for the
group held before *that* purchase, unless another active subscription has a
group, in which case nothing changes.

With several subscriptions at once this is not a stack: while one of them is
active the user keeps the group of the one bought last, even if that one has
ended (`Latest`), and after the last has ended the group may be that of an
earlier one.  It is the group the user began with whenever no subscription with a
group is bought before the one before it is settled (`AtHome`).
-/
import MicrossApi.Subscriber

namespace MicrossApi

open List StepSystem
open Subscriber (markDue)
open SubscriptionStatus (expired)

/-! ### Leaving a group -/

/-- The queries whose errors the code ignores are answered. -/
def QueriesAnswered : LifeOp → Prop
  | .expire env _ _ => env.activeQueryOk = true ∧ env.expiredQueryOk = true
  | .invalidate env _ _ => env.downgrade.activeQueryOk = true
  | .delete env _ _ => env.downgrade.activeQueryOk = true
  | .tick _ | .buy .. => True

instance : ∀ op, Decidable (QueriesAnswered op)
  | .tick _ | .buy .. | .expire .. | .invalidate .. | .delete .. => by
    dsimp only [QueriesAnswered]
    infer_instance

attribute [local irreducible] groupWithout groupAfterExpiry

variable {sub y : UserSubscription} {l subs : List UserSubscription} {u t : Int} {g g₀ : String}
  {env : DowngradeEnv} {x x' : Subscriber} {op : LifeOp} {cal : Calendar}
  {catalogue : Table SubscriptionPlan.id}

theorem UserSubscription.KeepsGroup.earlier {t' : Int}
    (h : y.KeepsGroup u t) (ht : t' ≤ t) : y.KeepsGroup u t' :=
  ⟨h.1, h.2.1, Int.lt_of_le_of_lt ht h.2.2.1, h.2.2.2⟩

/-- An id is that of one subscription. -/
def IdsApart (subs : List UserSubscription) : Prop := ∀ y ∈ subs, ∀ z ∈ subs, y.id = z.id → y = z

theorem ids_map {f : UserSubscription → UserSubscription}
    (hf : ∀ y, (f y).id = y.id) (hids : IdsApart subs) : IdsApart (subs.map f) := by
  intro y' hy' z' hz' hid
  obtain ⟨y, hy, rfl⟩ := mem_map.mp hy'
  obtain ⟨z, hz, rfl⟩ := mem_map.mp hz'
  rw [hf, hf] at hid
  rw [hids y hy z hz hid]

/-- Some subscriptions of `x` have ended by `t`, and `x'` is what is left.  While
one of them keeps the group, it stays. -/
structure Lapses (u t : Int) (x x' : Subscriber) : Prop where
  mark : ∀ y' ∈ x'.subs, ∃ y ∈ x.subs, y'.MarkOf y
  ids : IdsApart x.subs → IdsApart x'.subs
  rest : x'.now = x.now ∧ x'.bought = x.bought
  expired : ∀ y' ∈ x'.subs, y'.status = .expired → y' ∈ x.subs ∨
    ∃ y ∈ x.subs, y ∉ x'.subs ∧ y'.MarkOf y ∧ y.status = .active ∧ y'.endTime ≤ t
  kept : ∀ y ∈ x'.subs, y.KeepsGroup u t → x'.group = x.group

theorem lapses_expire {env : ExpireEnv} (henv : env.activeQueryOk = true) (x : Subscriber) :
    Lapses u t x (x.expire env u t) where
  mark y' hy' := by
    obtain ⟨y, hy, h, -⟩ := mem_markDue hy'
    exact ⟨y, hy, h⟩
  ids := ids_map fun y => by split <;> rfl
  rest := ⟨rfl, rfl⟩
  expired y' hy' _ := by
    obtain ⟨y, hy, hmark, hend, ⟨rfl, -⟩ | ⟨hdue, -⟩⟩ := mem_markDue hy'
    · exact .inl hy
    refine .inr ⟨y, hy, fun hmem => ?_, hmark, hdue.2.1, hend ▸ hdue.2.2.2⟩
    obtain ⟨z, -, -, -, ⟨rfl, hnot⟩ | ⟨-, hexp⟩⟩ := mem_markDue hmem
    · exact hnot hdue
    · rw [hdue.2.1] at hexp
      cases hexp
  kept y hy hk := by
    show groupAfterExpiry env u (markDue u t x.subs) x.group t = x.group
    unfold groupAfterExpiry
    exact if_pos ⟨henv, any_eq_true.mpr ⟨y, hy, decide_eq_true hk⟩⟩

theorem groupWithout_of_keeps (henv : env.activeQueryOk = true) (hy : y ∈ subs) (hk : y.KeepsGroup u t)
    (hid : y.id ≠ sub.id) : groupWithout env u subs g sub t = g := by
  unfold groupWithout
  split
  · rfl
  · exact if_pos ⟨henv, any_eq_true.mpr ⟨y, hy, decide_eq_true ⟨hk, hid⟩⟩⟩

theorem lapses_cancel (henv : env.activeQueryOk = true) (x : Subscriber) :
    Lapses u t x (x.cancel env u t sub) where
  mark y' hy' := by
    obtain ⟨y, hy, h, -⟩ := mem_markCancelled hy'
    exact ⟨y, hy, h⟩
  ids := ids_map fun y => by split <;> rfl
  rest := ⟨rfl, rfl⟩
  expired y' hy' hexp := by
    obtain ⟨y, hy, -, hcan, hsame⟩ := mem_markCancelled hy'
    by_cases hid : y.id = sub.id
    · rw [hcan hid] at hexp
      cases hexp
    · exact .inl (hsame hid ▸ hy)
  kept y' hy' hk := by
    obtain ⟨y, hy, hmark, hcan, -⟩ := mem_markCancelled hy'
    refine groupWithout_of_keeps henv hy' hk fun hid => ?_
    have hst := hcan (hmark.id.symm.trans hid)
    rw [hk.2.1] at hst
    cases hst

theorem lapses_remove (henv : env.activeQueryOk = true) (x : Subscriber) :
    Lapses u t x (x.remove env u t sub) where
  mark y hy := ⟨y, mem_of_mem_filter hy, .refl y⟩
  ids hids y hy z hz := hids y (mem_of_mem_filter hy) z (mem_of_mem_filter hz)
  rest := ⟨rfl, rfl⟩
  expired _ hy _ := .inl (mem_of_mem_filter hy)
  kept _ hy hk := groupWithout_of_keeps henv (mem_of_mem_filter hy) hk (of_decide_eq_true (mem_filter.mp hy).2)

/-! ### The subscription bought last -/

/-- The group of the subscription with a group that was bought last. -/
def lastUpgrade (bought : List UserSubscription) : Option String :=
  ((bought.filter (·.upgradeGroup ≠ "")).head?).map (·.upgradeGroup)

/-- While a subscription keeps the group, it is that of the one bought last. -/
def Latest (u : Int) (x : Subscriber) : Prop :=
  ∀ y ∈ x.subs, y.KeepsGroup u x.now → lastUpgrade x.bought = some x.group

variable {newId : Int} {plan : SubscriptionPlan}

theorem latest_buy (h : Latest u x) : Latest u (x.buy u newId plan sub) := by
  intro y hy hkeep
  show lastUpgrade (sub :: x.bought) = some (groupOr x.group sub.upgradeGroup)
  unfold lastUpgrade
  by_cases hup : sub.upgradeGroup = ""
  · -- it brings no group, so another one keeps it
    rw [filter_cons_of_neg (by simp [hup]), groupOr, if_pos hup]
    rcases mem_append.mp hy with hy | hy
    · exact h y hy hkeep
    · obtain rfl := mem_singleton.mp hy
      exact absurd hup hkeep.2.2.2
  · rw [filter_cons_of_pos (by simp [hup]), groupOr, if_neg hup]
    rfl

theorem latest_lapses (ht : t ≤ x.now) (h : Lapses u t x x') (hx : Latest u x) : Latest u x' := by
  intro y hy hkeep
  rw [h.rest.1] at hkeep
  obtain ⟨z, hz, hmark⟩ := h.mark y hy
  obtain rfl := hmark.active hkeep.2.1
  rw [h.rest.2, h.kept y hy (hkeep.earlier ht)]
  exact hx y hz hkeep

theorem latest_step (hop : QueriesAnswered op) (h : Subscriber.Step cal catalogue u x op x')
    (hx : Latest u x) : Latest u x' := by
  cases h with
  | stay => exact hx
  | wait d => exact fun y hy hkeep => hx y hy (hkeep.earlier (show x.now ≤ x.now + d by omega))
  | buy => exact latest_buy hx
  | expire => exact latest_lapses (by omega) (lapses_expire hop.1 x) hx
  | cancel => exact latest_lapses (by omega) (lapses_cancel hop x) hx
  | remove => exact latest_lapses (by omega) (lapses_remove hop x) hx

/-! ### Coming home -/

/-- An active subscription with a group. -/
def UserSubscription.Upgrading (y : UserSubscription) : Prop :=
  y.upgradeGroup ≠ "" ∧ y.status = .active
deriving Decidable

/-- What is so of each subscription of a user at home: it has no group to end in, and
remembers the first one, unless that is its own. -/
structure UserSubscription.Homely (g₀ : String) (u : Int) (y : UserSubscription) : Prop where
  user : y.userId = u
  plain : y.downgradeGroup = "" ∧ trimSpace y.upgradeGroup = y.upgradeGroup
  origin : y.upgradeGroup ≠ "" → y.prevUserGroup = if y.upgradeGroup = g₀ then "" else g₀

/-- `y` is the one active subscription with a group: the user is in its group, or
it is over and they are back in the first. -/
structure Away (g₀ : String) (x : Subscriber) (y : UserSubscription) : Prop where
  mem : y ∈ x.subs
  upgrading : y.Upgrading
  only : ∀ z ∈ x.subs, z.Upgrading → z = y
  ends : 0 < y.endTime
  last : ∀ z ∈ x.subs, z.upgradeGroup ≠ "" → z.status = .expired → z.endTime < y.endTime
  held : x.group = y.upgradeGroup ∨ y.endTime ≤ x.now ∧ x.group = g₀

/-- What holds of a user who buys no subscription with a group while another
one is unsettled: at most one is active, and without one they are where they
began. -/
structure AtHome (g₀ : String) (u : Int) (x : Subscriber) : Prop where
  homely : ∀ y ∈ x.subs, y.Homely g₀ u
  ids : IdsApart x.subs
  clock : 0 ≤ x.now
  ended : ∀ y ∈ x.subs, y.upgradeGroup ≠ "" → y.status = .expired → y.endTime ≤ x.now
  place : x.group = g₀ ∧ (∀ y ∈ x.subs, ¬ y.Upgrading) ∨ ∃ y, Away g₀ x y

theorem UserSubscription.Homely.mark {y' : UserSubscription} (hy : y.Homely g₀ u) (h : y'.MarkOf y) :
    y'.Homely g₀ u := by
  refine ⟨h.user.trans hy.user, ?_, ?_⟩
  · rw [h.downgrade, h.upgrade]
    exact hy.plain
  · rw [h.upgrade, h.prev]
    exact hy.origin

theorem forall_buy {P : UserSubscription → Prop} :
    (∀ y ∈ (x.buy u newId plan sub).subs, P y) ↔ (∀ y ∈ x.subs, P y) ∧ P sub := by
  show (∀ y ∈ x.subs ++ [sub], P y) ↔ _
  rw [forall_mem_append, forall_mem_singleton]

theorem lastEnded_cases (l : List UserSubscription) : l = [] ∧ lastEnded l = none ∨
    ∃ y ∈ l, lastEnded l = some y ∧ ∀ z ∈ l, z.endTime ≤ y.endTime := by
  induction l with
  | nil => exact .inl ⟨rfl, rfl⟩
  | cons s rest ih =>
    right
    obtain ⟨rfl, -⟩ | ⟨r, hr, hrest, hmax⟩ := ih
    · exact ⟨s, mem_cons_self, rfl, by simp⟩
    simp only [lastEnded, hrest]
    split
    · exact ⟨r, mem_cons_of_mem _ hr, rfl, forall_mem_cons.mpr ⟨by omega, hmax⟩⟩
    · refine ⟨s, mem_cons_self, rfl, forall_mem_cons.mpr ⟨le_rfl, fun z hz => ?_⟩⟩
      have := hmax z hz
      omega

/-- The one that an expiry looks at has a group, and of those expired it ended last. -/
theorem lastExpired_cases (h : ∀ y ∈ subs, y.Homely g₀ u) :
    lastExpired u subs = none ∧ (∀ z ∈ subs, z.upgradeGroup ≠ "" → z.status ≠ .expired) ∨
      ∃ y ∈ subs, lastExpired u subs = some y ∧ y.upgradeGroup ≠ "" ∧ y.status = .expired ∧
        ∀ z ∈ subs, z.upgradeGroup ≠ "" → z.status = .expired → z.endTime ≤ y.endTime := by
  have hin : ∀ z ∈ subs, z.upgradeGroup ≠ "" → z.status = .expired → z ∈ subs.filter fun s =>
      s.userId = u ∧ s.status = .expired ∧ (s.downgradeGroup ≠ "" ∨ s.upgradeGroup ≠ "") :=
    fun z hz hup hst => mem_filter.mpr ⟨hz, decide_eq_true ⟨(h z hz).user, hst, .inr hup⟩⟩
  obtain ⟨hnil, hnone⟩ | ⟨y, hmem, hlast, hmax⟩ := lastEnded_cases (subs.filter fun s =>
    s.userId = u ∧ s.status = .expired ∧ (s.downgradeGroup ≠ "" ∨ s.upgradeGroup ≠ ""))
  · exact .inl ⟨hnone, fun z hz hup hst => absurd (hin z hz hup hst) (hnil ▸ not_mem_nil)⟩
  · obtain ⟨hy, hkind⟩ := mem_filter.mp hmem
    obtain ⟨-, hexp, hkind⟩ := of_decide_eq_true hkind
    exact .inr ⟨y, hy, hlast, hkind.resolve_left fun hd => hd (h y hy).plain.1, hexp,
      fun z hz hup hst => hmax z (hin z hz hup hst)⟩

/-- Who leaves the active one is home. -/
theorem Away.leave (hy : Away g₀ x y) : (if x.group = y.upgradeGroup then g₀ else x.group) = g₀ := by
  split
  · rfl
  next hother => exact (hy.held.resolve_left hother).2

section Leave

variable (hg₀ : trimSpace g₀ = g₀) (hne : g₀ ≠ "")
include hg₀ hne

/-- Who leaves `y` from another group stays there, and from its own or the first
they come to the first. -/
theorem UserSubscription.Homely.leave (h : y.Homely g₀ u) (hup : y.upgradeGroup ≠ "") (g : String) :
    groupOr g (y.leaveFor g) = if g = y.upgradeGroup then g₀ else g := by
  unfold UserSubscription.leaveFor
  rw [h.plain.1, h.plain.2, trimSpace_empty, if_neg (by simp), ite_not, h.origin hup]
  by_cases hg : g = y.upgradeGroup
  · rw [if_pos hg, if_pos hg]
    split
    next hsame => exact (if_pos trimSpace_empty).trans (hg.trans hsame)
    · rw [hg₀]
      exact if_neg hne
  · rw [if_neg hg, if_neg hg]
    exact if_pos rfl

/-- The end of `sub` leads to the first group or changes nothing. -/
theorem groupWithout_homely (h : sub.Homely g₀ u) : groupWithout env u subs g sub t = g ∨
    groupWithout env u subs g sub t = g₀ := by
  unfold groupWithout
  rw [h.plain.2]
  split
  · exact .inl rfl
  next hup =>
    split
    · exact .inl rfl
    · have hsub : sub.upgradeGroup ≠ "" := fun he => hup ⟨by rw [h.plain.1]; rfl, he⟩
      rw [h.leave hg₀ hne hsub]
      split
      · exact .inr rfl
      · exact .inl rfl

theorem UserSubscription.Homely.expire (h : y.Homely g₀ u) (hup : y.upgradeGroup ≠ "") (g : String) :
    groupOr g (y.expiryTarget g) = if g = y.upgradeGroup then g₀ else g := by
  rw [← h.leave hg₀ hne hup]
  unfold UserSubscription.expiryTarget UserSubscription.leaveFor
  simp only [h.plain, trimSpace_empty, ne_eq, not_true_eq_false, if_false]
  by_cases hprev : trimSpace y.prevUserGroup = ""
  · rw [if_pos (Or.inr hprev), hprev, ite_self]
  · rw [if_neg (not_or.mpr ⟨hup, hprev⟩)]

theorem groupAfterExpiry_homely {env : ExpireEnv} (h : ∀ y ∈ subs, y.Homely g₀ u) :
    groupAfterExpiry env u subs g t = g ∨ groupAfterExpiry env u subs g t = g₀ := by
  unfold groupAfterExpiry
  split
  · exact .inl rfl
  rcases env.expiredQueryOk with - | -
  · exact .inl rfl
  rw [if_pos rfl]
  obtain ⟨hlast, -⟩ | ⟨y, hy, hlast, hup, -⟩ := lastExpired_cases h
  · rw [hlast]
    exact .inl rfl
  rw [hlast]
  dsimp only
  rw [(h y hy).expire hg₀ hne hup]
  split
  · exact .inr rfl
  · exact .inl rfl

/-- The active one ends, and no other keeps the group: the user comes home. -/
theorem Away.without (hy : Away g₀ x y) (hhome : y.Homely g₀ u)
    (hquiet : ∀ z ∈ l, z.KeepsGroup u t → z.id = y.id) : groupWithout env u l x.group y t = g₀ := by
  have hnone : ¬ (l.any fun z => z.KeepsGroup u t ∧ z.id ≠ y.id) = true := by
    intro h
    obtain ⟨z, hz, hk⟩ := any_eq_true.mp h
    obtain ⟨hk, hid⟩ := of_decide_eq_true hk
    exact hid (hquiet z hz hk)
  unfold groupWithout
  rw [hhome.plain.2, if_neg fun h => hy.upgrading.1 h.2, if_neg fun h => hnone h.2,
    hhome.leave hg₀ hne hy.upgrading.1, hy.leave]

/-- The active upgrade that is due is the last one expired, since all others had
ended before it: the user comes home. -/
theorem Away.expire_due {env : ExpireEnv} (henv : env.expiredQueryOk = true) (hy : Away g₀ x y)
    (hdue : y.userId = u ∧ y.Due t) (hhome : ∀ y ∈ markDue u t x.subs, y.Homely g₀ u)
    (hnone : ∀ y ∈ markDue u t x.subs, ¬ y.Upgrading) :
    groupAfterExpiry env u (markDue u t x.subs) x.group t = g₀ := by
  have hin : { y with status := expired } ∈ markDue u t x.subs := mem_map.mpr ⟨y, hy.mem, if_pos hdue⟩
  obtain ⟨-, hno⟩ | ⟨last, hmem, hlast, hup, hexp, hmax⟩ := lastExpired_cases hhome
  · exact absurd rfl (hno _ hin hy.upgrading.1)
  have hsame : last.upgradeGroup = y.upgradeGroup := by
    obtain ⟨z, hz, hmark, hend, ⟨rfl, -⟩ | ⟨hzdue, -⟩⟩ := mem_markDue hmem
    · have hle : y.endTime ≤ last.endTime := hmax { y with status := expired } hin hy.upgrading.1 rfl
      exact absurd (hy.last last hz hup hexp) (not_lt.mpr hle)
    · rw [hmark.upgrade] at hup ⊢
      rw [hy.only z hz ⟨hup, hzdue.2.1⟩]
  have hquiet : ¬ ((markDue u t x.subs).any fun s => s.KeepsGroup u t) = true := by
    intro h
    obtain ⟨z, hz, hk⟩ := any_eq_true.mp h
    have hk := of_decide_eq_true hk
    exact hnone z hz ⟨hk.2.2.2, hk.2.1⟩
  unfold groupAfterExpiry
  rw [if_neg fun h => hquiet h.2, if_pos henv, hlast]
  dsimp only
  rw [(hhome last hmem).expire hg₀ hne hup, hsame, hy.leave]

end Leave

section Moves

variable (hx : AtHome g₀ u x)
include hx

theorem atHome_wait (d : Nat) : AtHome g₀ u { x with now := x.now + d } := by
  have hlater : x.now ≤ x.now + d := by omega
  refine { hx with
    clock := hx.clock.trans hlater
    ended := fun y hy hup hexp => (hx.ended y hy hup hexp).trans hlater
    place := hx.place.imp_right ?_ }
  rintro ⟨y, hy⟩
  exact ⟨y, { hy with held := hy.held.imp_right fun h => ⟨h.1.trans hlater, h.2⟩ }⟩

theorem atHome_buy (hdown : trimSpace plan.downgradeGroup = "")
    (h : Subscriber.Offers cal catalogue u x plan sub)
    (hends : sub.upgradeGroup ≠ "" → x.now < sub.endTime)
    (hB : sub.upgradeGroup ≠ "" → ∀ y ∈ x.subs, ¬ y.Upgrading) : AtHome g₀ u (x.buy u newId plan sub) := by
  have hnew : sub.status ≠ .expired := by
    rw [h.active]
    nofun
  have hgroup : (x.buy u newId plan sub).group = groupOr x.group sub.upgradeGroup := rfl
  constructor
  case homely =>
    refine forall_buy.mpr ⟨hx.homely, h.user, ⟨h.downgrade.trans hdown, ?_⟩, fun hup => ?_⟩
    · rw [h.upgrade, trimSpace_trimSpace]
    -- bought at the first group
    have hg : x.group = g₀ := by
      obtain ⟨hg, -⟩ | ⟨y, hy⟩ := hx.place
      · exact hg
      · exact absurd hy.upgrading (hB hup y hy.mem)
    rw [h.prev, hg, groupLeft]
    simp only [hup, false_or, eq_comm]
  case ids =>
    exact forall_buy.mpr
      ⟨fun y hy => forall_buy.mpr ⟨hx.ids y hy, fun hid => absurd hid (h.fresh y hy)⟩,
        forall_buy.mpr ⟨fun z hz hid => absurd hid.symm (h.fresh z hz), fun _ => rfl⟩⟩
  case clock => exact hx.clock
  case ended => exact forall_buy.mpr ⟨hx.ended, fun _ hexp => absurd hexp hnew⟩
  case place =>
    rw [hgroup]
    by_cases hup : sub.upgradeGroup = ""
    · rw [groupOr, if_pos hup]
      refine hx.place.imp (fun h => ⟨h.1, forall_buy.mpr ⟨h.2, fun hu => hu.1 hup⟩⟩) ?_
      rintro ⟨y, hy⟩
      exact ⟨y, mem_append_left _ hy.mem, hy.upgrading,
        forall_buy.mpr ⟨hy.only, fun hu => absurd hup hu.1⟩, hy.ends,
        forall_buy.mpr ⟨hy.last, fun hne => absurd hup hne⟩, by
          rw [hgroup, groupOr, if_pos hup]
          exact hy.held⟩
    · refine .inr ⟨sub, mem_append_right _ mem_cons_self, ⟨hup, h.active⟩, forall_buy.mpr ⟨?_, fun _ => rfl⟩,
        hx.clock.trans_lt (hends hup), forall_buy.mpr ⟨?_, fun _ hexp => absurd hexp hnew⟩, .inl (if_neg hup)⟩
      · exact fun z hz hzu => absurd hzu (hB hup z hz)
      · exact fun z hz hzup hexp => (hx.ended z hz hzup hexp).trans_lt (hends hup)

/-- What ends leads to the first group or changes nothing, and the end of the one
that is away leads there. -/
theorem AtHome.lapses (ht : t ≤ x.now) (h : Lapses u t x x') (hto : x'.group = x.group ∨ x'.group = g₀)
    (hgone : ∀ y, Away g₀ x y → y ∉ x'.subs → (∀ z ∈ x'.subs, ¬ z.Upgrading) → x'.group = g₀) :
    AtHome g₀ u x' := by
  -- what is still active has not been touched
  have hold : ∀ y ∈ x'.subs, y.Upgrading → y ∈ x.subs := by
    intro y' hy' hyu
    obtain ⟨y, hy, hmark⟩ := h.mark y' hy'
    exact hmark.active hyu.2 ▸ hy
  obtain ⟨hnow, -⟩ := h.rest
  refine ⟨fun y' hy' => ?_, h.ids hx.ids, hnow ▸ hx.clock, fun y' hy' hup hexp => ?_, ?_⟩
  · obtain ⟨y, hy, hmark⟩ := h.mark y' hy'
    exact (hx.homely y hy).mark hmark
  · rw [hnow]
    obtain hy | ⟨y, -, -, -, -, hle⟩ := h.expired y' hy' hexp
    · exact hx.ended y' hy hup hexp
    · exact hle.trans ht
  obtain ⟨hg, hnone⟩ | ⟨y, hy⟩ := hx.place
  · exact .inl ⟨hto.elim (·.trans hg) id, fun y hy hyu => hnone y (hold y hy hyu) hyu⟩
  have honly : ∀ z ∈ x'.subs, z.Upgrading → z = y := fun z hz hzu => hy.only z (hold z hz hzu) hzu
  -- the one that is away is there unchanged, past its end or not, or it is gone
  by_cases hmem : y ∈ x'.subs
  · refine .inr ⟨y, hmem, hy.upgrading, honly, hy.ends, fun z hz hup hexp => ?_, ?_⟩
    · obtain hz' | ⟨w, hw, hnot, hmark, hactive, -⟩ := h.expired z hz hexp
      · exact hy.last z hz' hup hexp
      · rw [hy.only w hw ⟨hmark.upgrade ▸ hup, hactive⟩] at hnot
        exact absurd hmem hnot
    · rw [hnow]
      by_cases hover : y.endTime ≤ t
      · exact hto.elim (fun hg => hg ▸ hy.held) fun hg => .inr ⟨hover.trans ht, hg⟩
      · rw [h.kept y hmem ⟨(hx.homely y hy.mem).user, hy.upgrading.2, not_le.mp hover, hy.upgrading.1⟩]
        exact hy.held
  · have hnone : ∀ z ∈ x'.subs, ¬ z.Upgrading := fun z hz hzu => hmem (honly z hz hzu ▸ hz)
    exact .inl ⟨hgone y hy hmem hnone, hnone⟩

variable (hg₀ : trimSpace g₀ = g₀) (hne : g₀ ≠ "")
include hg₀ hne

theorem atHome_expire {env : ExpireEnv} (henv : env.activeQueryOk = true ∧ env.expiredQueryOk = true)
    (ht : t ≤ x.now) : AtHome g₀ u (x.expire env u t) := by
  have hhome : ∀ y ∈ markDue u t x.subs, y.Homely g₀ u := by
    intro y' hy'
    obtain ⟨y, hy, h, -⟩ := mem_markDue hy'
    exact (hx.homely y hy).mark h
  refine hx.lapses ht (lapses_expire henv.1 x)
    (groupAfterExpiry_homely hg₀ hne hhome) fun y hy hgone hnone => ?_
  refine hy.expire_due hg₀ hne henv.2 (not_not.mp fun hdue => hgone ?_) hhome hnone
  exact mem_map.mpr ⟨y, hy.mem, if_neg hdue⟩

theorem atHome_cancel (henv : env.activeQueryOk = true) (ht : t ≤ x.now) (hsub : sub ∈ x.subs) :
    AtHome g₀ u (x.cancel env u t sub) := by
  have hhome := hx.homely sub hsub
  refine hx.lapses ht (lapses_cancel henv x) (groupWithout_homely hg₀ hne hhome) fun y hy hgone hnone => ?_
  -- what is gone is what was cancelled
  have hid : y.id = sub.id := not_not.mp fun hid => hgone (mem_map.mpr ⟨y, hy.mem, if_neg hid⟩)
  obtain rfl := hx.ids y hy.mem sub hsub hid
  exact hy.without hg₀ hne hhome fun z hz hk => absurd ⟨hk.2.2.2, hk.2.1⟩ (hnone z hz)

theorem atHome_remove (henv : env.activeQueryOk = true) (ht : t ≤ x.now) (hsub : sub ∈ x.subs) :
    AtHome g₀ u (x.remove env u t sub) := by
  have hhome := hx.homely sub hsub
  refine hx.lapses ht (lapses_remove henv x) (groupWithout_homely hg₀ hne hhome) fun y hy hgone hnone => ?_
  have hid : y.id = sub.id := not_not.mp fun hid => hgone (mem_filter.mpr ⟨hy.mem, decide_eq_true hid⟩)
  obtain rfl := hx.ids y hy.mem sub hsub hid
  refine hy.without hg₀ hne hhome fun z hz hk => not_not.mp fun hzid => ?_
  exact hnone z (mem_filter.mpr ⟨hz, decide_eq_true hzid⟩) ⟨hk.2.2.2, hk.2.1⟩

end Moves

/-- The user `u` buys a plan with a group only if it ends after it starts, and while
none of their subscriptions with a group is active. -/
def BoughtAlone (cal : Calendar) (catalogue : Table SubscriptionPlan.id) (u : Int) (x : Subscriber) :
    LifeOp → Prop
  | .buy _ userId planId _ =>
    userId = u → ∀ plan ∈ catalogue.find? planId, trimSpace plan.upgradeGroup ≠ "" →
      plan.EndsAfter cal x.now ∧ ∀ y ∈ x.subs, ¬ y.Upgrading
  | _ => True

instance : ∀ op, Decidable (BoughtAlone cal catalogue u x op)
  | .tick _ | .buy .. | .expire .. | .invalidate .. | .delete .. => by
    dsimp only [BoughtAlone]
    infer_instance

theorem atHome_step (hg₀ : trimSpace g₀ = g₀) (hne : g₀ ≠ "")
    (hplans : ∀ p ∈ catalogue.rows, trimSpace p.downgradeGroup = "")
    (hq : QueriesAnswered op) (hop : BoughtAlone cal catalogue u x op)
    (h : Subscriber.Step cal catalogue u x op x') (hx : AtHome g₀ u x) : AtHome g₀ u x' := by
  cases h with
  | stay => exact hx
  | wait d => exact atHome_wait hx d
  | buy hplan hoffer =>
    have hboth : _ ≠ "" → _ := fun hup => hop rfl _ hplan (hoffer.upgrade ▸ hup)
    exact atHome_buy hx (hplans _ (Table.mem_of_find? hplan)) hoffer
      (fun hup => (hboth hup).1.lt hoffer.ends) fun hup => (hboth hup).2
  | expire => exact atHome_expire hx hg₀ hne hq (by omega)
  | cancel env delay hsub => exact atHome_cancel hx hg₀ hne hq (by omega) hsub
  | remove env delay hsub => exact atHome_remove hx hg₀ hne hq (by omega) hsub

/-! ### Runs -/

section Runs

variable {cal : Calendar} {catalogue : Table SubscriptionPlan.id} {u : Int} {g₀ : String}
  {s : Life} {ops : List LifeOp}

theorem atHome_start (hgroup : s.store.db.groupOf u = g₀) (hsubs : (s.subscriber u).subs = []) :
    AtHome g₀ u (s.subscriber u) := by
  have hnone : ∀ y, y ∉ (s.subscriber u).subs := by
    rw [hsubs]
    exact fun y => not_mem_nil
  constructor
  case clock => exact Int.natCast_nonneg s.now
  case place => exact .inl ⟨hgroup, fun y hy => absurd hy (hnone y)⟩
  all_goals exact fun y hy => absurd hy (hnone y)

/-- **The group follows the subscriptions.**  While an active one with a group
remains, the user's group is that of the one bought last.  If those with a group end
after they start and none was bought while another was active, it is that of the
active one, and with none left it is the group the user began with. -/
theorem group_follows_subscriptions (cal : Calendar) (catalogue : Table SubscriptionPlan.id)
    (s : Life) (ops : List LifeOp) (u : Int) (g₀ : String)
    (hplans : ∀ p ∈ catalogue.rows, trimSpace p.downgradeGroup = "") (hg₀ : trimSpace g₀ = g₀) (hne : g₀ ≠ "")
    (hu : (s.store.db.users.find? u).isSome) (hgroup : s.store.db.groupOf u = g₀)
    (hsubs : (s.subscriber u).subs = []) (hops : ∀ op ∈ ops, QueriesAnswered op) :
    let x := (exec (lifeStep cal catalogue) s ops).subscriber u
    (∀ y ∈ x.subs, y.KeepsGroup u x.now → lastUpgrade x.bought = some x.group) ∧
      (Along (lifeStep cal catalogue) (fun s op => BoughtAlone cal catalogue u (s.subscriber u) op)
          s ops →
        ((∀ y ∈ x.subs, y.status ≠ .active) → x.group = g₀) ∧
          ∀ y ∈ x.subs, y.KeepsGroup u x.now → x.group = y.upgradeGroup) := by
  intro x
  have hanswered : Along (lifeStep cal catalogue) (fun _ op => QueriesAnswered op) s ops :=
    along_of_forall hops s
  have hstart : Latest u (s.subscriber u) := by
    unfold Latest
    rw [hsubs]
    exact fun y hy => absurd hy not_mem_nil
  have hlatest : Latest u x := subscriber_inv hu (fun _ _ _ hop h => latest_step hop h) hstart hanswered
  refine ⟨hlatest, fun halone => ?_⟩
  have hhome : AtHome g₀ u x :=
    subscriber_inv hu (G := fun x op => QueriesAnswered op ∧ BoughtAlone cal catalogue u x op)
      (fun _ _ _ hop h => atHome_step hg₀ hne hplans hop.1 hop.2 h)
      (atHome_start hgroup hsubs) (hanswered.and halone)
  obtain ⟨hg, hnone⟩ | ⟨z, hz⟩ := hhome.place
  · exact ⟨fun _ => hg, fun y hy hkeep => absurd ⟨hkeep.2.2.2, hkeep.2.1⟩ (hnone y hy)⟩
  · refine ⟨fun hnone => absurd hz.upgrading.2 (hnone z hz.mem), fun y hy hkeep => ?_⟩
    obtain rfl := hz.only y hy ⟨hkeep.2.2.2, hkeep.2.1⟩
    exact hz.held.resolve_right fun h => absurd hkeep.2.2.1 (not_lt.mpr h.1)

/-! ### Two overlapping subscriptions -/

def vipPlan : SubscriptionPlan :=
  { id := 1, durationUnit := .custom, customSeconds := 100, upgradeGroup := "vip" }

def svipPlan : SubscriptionPlan :=
  { id := 2, durationUnit := .custom, customSeconds := 150, upgradeGroup := "svip" }

def demoPlans : Table SubscriptionPlan.id := ⟨[vipPlan, svipPlan], by decide⟩

/-- One after the other. -/
theorem group_follows_subscriptions_in_turn :
    let ops := [demoBuy 1 1, .tick 100, .expire {} 0 1, demoBuy 2 2, .invalidate {} 0 2]
    let x := (exec (lifeStep utcDays demoPlans) demoLife ops).subscriber 1
    x.group = "default" := by
  intro ops
  have h := group_follows_subscriptions utcDays demoPlans demoLife ops 1 "default"
    (by decide) (by decide) (by decide) (by decide) (by decide) (by decide) (by decide)
  exact (h.2 (by decide +kernel)).1 (by decide +kernel)

/-- Two at once.  After both have expired the user keeps the group of the
first; and when the second is cancelled, they keep its group although only the
first is active. -/
theorem group_outlives_overlapping_subscriptions :
    let later := [demoBuy 1 1, .tick 10, demoBuy 2 2, .tick 90, .expire {} 0 1, .tick 60,
      .expire {} 0 1]
    let cut := [demoBuy 1 1, .tick 10, demoBuy 2 2, .invalidate {} 0 2]
    let x := (exec (lifeStep utcDays demoPlans) demoLife later).subscriber 1
    let y := (exec (lifeStep utcDays demoPlans) demoLife cut).subscriber 1
    (demoLife.subscriber 1).group = "default" ∧
      (x.subs.map (·.status) = [.expired, .expired] ∧ x.group = "vip") ∧
      (y.subs.map (fun sub => (sub.upgradeGroup, sub.status))
          = [("vip", .active), ("svip", .cancelled)] ∧
        y.group = "svip") := by
  decide +kernel

/-! ### What was sold -/

/-- The active subscriptions are bought ones that began by now, with the end and
the groups that their plan gives them. -/
def Subscriber.AsSold (cal : Calendar) (catalogue : Table SubscriptionPlan.id) (x : Subscriber) : Prop :=
  ∀ y ∈ x.subs, y.status = .active → y ∈ x.bought ∧ y.startTime ≤ x.now ∧
    ∃ plan, catalogue.find? y.planId = some plan ∧ calcPlanEndTime cal y.startTime plan = .ok y.endTime ∧
      y.upgradeGroup = trimSpace plan.upgradeGroup ∧ y.downgradeGroup = trimSpace plan.downgradeGroup

theorem asSold_step {x x' : Subscriber} {op : LifeOp} (h : Subscriber.Step cal catalogue u x op x')
    (hx : x.AsSold cal catalogue) : x'.AsSold cal catalogue := by
  intro y hy hactive
  cases h with
  | stay => exact hx y hy hactive
  | wait d =>
    obtain ⟨hbought, hstart, hplan⟩ := hx y hy hactive
    exact ⟨hbought, hstart.trans (Int.le_add_of_nonneg_right (Int.natCast_nonneg d)), hplan⟩
  | buy _ hsub =>
    rcases mem_append.mp hy with hy | hy
    · exact (hx y hy hactive).imp_left (mem_cons_of_mem _)
    · obtain rfl := mem_singleton.mp hy
      exact ⟨mem_cons_self, hsub.starts.le, _, hsub.plan_found, hsub.starts ▸ hsub.ends, hsub.upgrade,
        hsub.downgrade⟩
  | expire =>
    obtain ⟨y₀, hy₀, hmark, -⟩ := mem_markDue hy
    obtain rfl := hmark.active hactive
    exact hx y hy₀ hactive
  | cancel =>
    obtain ⟨y₀, hy₀, hmark, -⟩ := mem_markCancelled hy
    obtain rfl := hmark.active hactive
    exact hx y hy₀ hactive
  | remove => exact hx y (mem_of_mem_filter hy) hactive

/-- **Active subscriptions are as they were sold**, whatever has happened: to
subscriptions of this user or another, in the hands of an administrator, or with
statements that failed. -/
theorem subscriptions_as_sold (hu : (s.store.db.users.find? u).isSome)
    (hsubs : (s.subscriber u).subs = []) (ops : List LifeOp) :
    ((exec (lifeStep cal catalogue) s ops).subscriber u).AsSold cal catalogue := by
  refine subscriber_inv hu (G := fun _ _ => True) (fun _ _ _ _ h => asSold_step h) ?_
    (along_of_forall (fun _ _ => trivial) s)
  intro y hy
  rw [hsubs] at hy
  cases hy

/-- User 1 has bought both plans; the first has expired. -/
theorem subscriptions_as_sold_in_turn :
    ((exec (lifeStep utcDays demoPlans) demoLife
      [demoBuy 1 1, .tick 10, demoBuy 2 2, .tick 90, .expire {} 0 1]).subscriber 1).AsSold utcDays demoPlans :=
  subscriptions_as_sold (by decide) (by decide) _

end Runs

end MicrossApi
