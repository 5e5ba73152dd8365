/-
MicrossApi/BindingLimit.lean

How many discount plans a subject may have at once
(`DiscountMaxPlansPerSubject`, model/discount_binding_limit.go).  `BindDiscountPlan`
and `BindCustomerCode` count before they insert; the binding of a purchase and the
price that an agent sets are inserted without a count.  Nothing keeps two counts
of one subject apart.

A call that has counted and not yet inserted has a place promised.  What is bound
and what is promised stays within the limit in runs in which a promise is made,
and an uncounted binding inserted, only where both together leave a place.
-/
import MicrossApi.BindingCalls

namespace MicrossApi

open List StepSystem Interleaving
open Tx hiding read
open BindingThread (finish next)

/-! ### Counting bindings -/

def DiscountBinding.subject (b : DiscountBinding) : DiscountSubject × Int :=
  (b.subjectType, b.subjectId)

/-- How many enabled bindings the subject has. -/
def BindingDB.bound (s : BindingDB) (x : DiscountSubject × Int) : Nat :=
  ((s.enabledBindings x.2).filter fun b => b.subjectType = x.1).length

variable {s s' : BindingDB} (x : DiscountSubject × Int) {b : DiscountBinding} {now : Int} {u : Unit}
  {st : BindingStore} {t : BindingThread} {a : BindingAnswer} {k n : Nat}

theorem bound_eq (s : BindingDB) : s.bound x =
      (s.discountBindings.rows.filter fun b => b.subject = x ∧ b.enabled = true).length := by
  rw [BindingDB.bound, BindingDB.enabledBindings, filter_filter]
  refine congrArg List.length (filter_congr fun b _ => ?_)
  rw [← Bool.decide_and]
  refine decide_eq_decide.mpr ?_
  rw [Prod.ext_iff]
  tauto

theorem bound_synced (s : BindingDB) (userId now : Int) :
    (s.synced userId now).bound x = s.bound x := by
  rw [bound_eq, bound_eq, discountBindings_synced]

theorem bound_disabled {p : DiscountBinding → Prop} [DecidablePred p] (h : s'.discountBindings.rows =
      s.discountBindings.rows.map fun b => if p b then { b with enabled := false } else b) :
    s'.bound x ≤ s.bound x := by
  rw [bound_eq, bound_eq, h, ← countP_eq_length_filter, ← countP_eq_length_filter, countP_map]
  refine countP_mono_left fun b _ hb => ?_
  rw [Function.comp_apply] at hb
  split at hb
  · simp at hb
  · exact hb

theorem bound_withoutAgentPrice (s : BindingDB) (customerId : Int) :
    (s.withoutAgentPrice customerId).bound x ≤ s.bound x :=
  bound_disabled x (Table.rows_updateWhere s.discountBindings (fun b => b.FromAgent customerId)
    (fun b => { b with enabled := false }) fun _ => rfl)

/-! ### What each transaction adds -/

theorem bound_create_sync {createOk syncOk : Bool}
    (h : (createBinding createOk b >>= fun _ => syncUserDiscountPlanId syncOk now b.subjectId) s =
      .ok (u, s')) :
    s'.bound x ≤ s.bound x ∨ b.subject = x ∧ s'.bound x ≤ s.bound x + 1 := by
  obtain ⟨_, s₁, hcreate, hsync⟩ := ok_bind_iff.mp h
  obtain ⟨-, hfree, rfl⟩ := ok_createBinding_iff.mp hcreate
  obtain ⟨-, rfl⟩ := ok_sync_iff.mp hsync
  have hrows : (s.discountBindings.insert b).rows = s.discountBindings.rows ++ [b] := Table.rows_insert hfree
  rw [bound_synced, bound_eq, bound_eq, hrows, filter_append, length_append, filter_singleton]
  by_cases hb : b.subject = x
  · refine .inr ⟨hb, Nat.add_le_add_left ?_ _⟩
    rw [cond_eq_ite]
    split
    · exact Nat.le_refl 1
    · exact Nat.zero_le 1
  · simp [hb]

variable {x} {env : BindEnv}

theorem bound_unbindDiscountPlan {id : Int}
    (h : unbindDiscountPlan env now id s = .ok (u, s')) : s'.bound x ≤ s.bound x := by
  simp only [unbindDiscountPlan, ok_require_bind_iff, ok_fetch_bind_iff] at h
  obtain ⟨-, binding, -, -, hsync⟩ := h
  obtain ⟨-, rfl⟩ := ok_sync_iff.mp hsync
  rw [bound_synced]
  exact bound_disabled x rfl

theorem bound_unbindSubscription {userId : Int}
    (h : unbindSubscriptionDiscountTx env now userId s = .ok (u, s')) : s'.bound x ≤ s.bound x := by
  simp only [unbindSubscriptionDiscountTx, ok_require_bind_iff] at h
  obtain ⟨-, -, hsync⟩ := h
  obtain ⟨-, rfl⟩ := ok_sync_iff.mp hsync
  rw [bound_synced]
  exact bound_disabled x (Table.rows_updateWhere s.discountBindings (fun b => b.FromSubscription userId)
    (fun b => { b with enabled := false }) fun _ => rfl)

theorem bound_bindSubscriptionDiscount {userId : Int} {plan : SubscriptionPlan}
    {sub : UserSubscription}
    (h : bindSubscriptionDiscount env now userId plan sub s = .ok (u, s')) : s'.bound x ≤ s.bound x ∨
      (0 < plan.discountPlanId ∧ (.user, userId) = x) ∧ s'.bound x ≤ s.bound x + 1 := by
  unfold bindSubscriptionDiscount at h
  split at h
  · obtain ⟨-, rfl⟩ := ok_pure_iff.mp h
    exact .inl (Nat.le_refl _)
  rename_i hplan
  simp only [ok_require_bind_iff] at h
  have hadd := bound_create_sync x (b := subscriptionBinding env.newId userId plan sub) h.2
  exact hadd.imp_right fun hx => ⟨⟨Int.not_le.mp hplan, hx.1⟩, hx.2⟩

theorem bound_setAgentCustomerDiscountTx {customerId planId : Int}
    (h : setAgentCustomerDiscountTx env now customerId planId s = .ok (u, s')) :
    s'.bound x ≤ s.bound x ∨ (0 < planId ∧ (.user, customerId) = x) ∧
      s'.bound x ≤ (s.withoutAgentPrice customerId).bound x + 1 := by
  simp only [setAgentCustomerDiscountTx, ok_require_bind_iff] at h
  obtain ⟨-, h⟩ := h
  split at h
  · obtain ⟨-, rfl⟩ := ok_sync_iff.mp h
    rw [bound_synced]
    exact .inl (bound_withoutAgentPrice x s customerId)
  next hplan =>
    rcases bound_create_sync x (b := agentBinding env.newId customerId planId) h with hx | hx
    · exact .inl (hx.trans (bound_withoutAgentPrice x s customerId))
    · exact .inr ⟨⟨Int.not_le.mp hplan, hx.1⟩, hx.2⟩

theorem bound_finishCustomerCode {env : CodeEnv} {customerId : Int} {record : CustomerCode}
    {insert : Bool} (h : finishCustomerCode env now customerId record insert s = .ok (u, s')) :
    s'.bound x ≤ s.bound x ∨ (insert = true ∧ (.user, customerId) = x) ∧ s'.bound x ≤ s.bound x + 1 := by
  simp only [finishCustomerCode, onDB, ok_zoom_bind_iff, ok_update_iff] at h
  obtain ⟨_, _, rfl, h⟩ := h
  obtain ⟨_, s₁, hinsert, h⟩ := ok_bind_iff.mp h
  simp only [ok_require_bind_iff, ok_update_iff] at h
  obtain ⟨-, rfl⟩ := h
  unfold insertCodeBinding at hinsert
  split at hinsert
  next hins =>
    have hadd := bound_create_sync x (b := codeBinding env.bind.newId customerId record.planId) hinsert
    exact hadd.imp_right fun hx => ⟨⟨hins, hx.1⟩, hx.2⟩
  · obtain ⟨-, rfl⟩ := ok_pure_iff.mp hinsert
    exact .inl (Nat.le_refl _)

/-- The count is below the limit where the check passes. -/
theorem bound_lt_of_quota {queryOk : Bool} {subjectType : DiscountSubject} {subjectId : Int}
    {r : Unit × BindingDB} (h : ensureDiscountBindingQuota queryOk subjectType subjectId s = .ok r) :
    s.bound (subjectType, subjectId) < discountMaxPlansPerSubject := by
  obtain ⟨u, s'⟩ := r
  simp only [ensureDiscountBindingQuota, ok_require_bind_iff, ok_read_bind_iff, ok_require_iff] at h
  exact h.2.1

/-! ### Places -/

/-- The places that a call has counted and not yet filled. -/
def BindingThread.promised (x : DiscountSubject × Int) : BindingThread → Nat
  | .create binding => if binding.subject = x then 1 else 0
  | .code (.commit customerId _ insert) => if insert = true ∧ (.user, customerId) = x then 1 else 0
  | _ => 0

/-- How many bindings of the subject stand when the next step of the call takes a
place: a count that succeeds, or an insert without a count. -/
def BindingThread.finds (x : DiscountSubject × Int) (s : BindingDB) : BindingThread → Option Nat
  | .quota binding =>
    if binding.subject = x ∧ s.bound x < discountMaxPlansPerSubject then some (s.bound x)
    else none
  | .code (.quota customerId _) =>
    if (.user, customerId) = x ∧ s.bound x < discountMaxPlansPerSubject then some (s.bound x)
    else none
  | .price customerId planId =>
    if 0 < planId ∧ (.user, customerId) = x then some ((s.withoutAgentPrice customerId).bound x)
    else none
  | .buy userId plan _ =>
    if 0 < plan.discountPlanId ∧ (.user, userId) = x then some (s.bound x) else none
  | _ => none

/-- A step takes a place of the subject only where, with the places promised
already, one is left. -/
def Roomy (x : DiscountSubject × Int) (p : Pool BindingStore BindingThread) :
    Op (Int × Int) BindingCall BindingAnswer → Prop
  | .go k _ => ∀ n ∈ p.threads[k]?.bind (·.finds x p.shared.tables),
      n + p.total (·.promised x) < discountMaxPlansPerSubject
  | _ => True

instance decidableRoomy (x p op) : Decidable (Roomy x p op) := by
  unfold Roomy
  split <;> infer_instance

/-- The last step of a call adds what its transaction adds, or nothing. -/
theorem BindingThread.finish_places {y : Tx BindingDB Err Unit}
    (h : ∀ s', y st.tables = .ok ((), s') → s'.bound x ≤ n) (hn : st.tables.bound x ≤ n) :
    (finish st k y).1.tables.bound x + (finish st k y).2.promised x ≤ n := by
  rcases st.commit_cases k y with ⟨s', hs', hc⟩ | ⟨e, hc⟩
  · rw [finish, hc]
    exact h s' hs'
  · rw [finish, hc]
    exact hn

/-- What a step of a call of `BindCustomerCode` takes of the places. -/
theorem CodeCall.next_places {c : CodeCall}
    (hroom : ∀ m ∈ (BindingThread.code c).finds x st.tables, m + n < discountMaxPlansPerSubject)
    (hn : st.tables.bound x + n ≤ discountMaxPlansPerSubject) :
    (c.next k a st).1.tables.bound x + n + (BindingThread.code (c.next k a st).2).promised x ≤
      discountMaxPlansPerSubject + (BindingThread.code c).promised x := by
  -- a step that only reads, to a place where nothing is promised
  have hstay : ∀ (locks : Locks BindingKey) (c' : CodeCall), (BindingThread.code c').promised x = 0 →
      ({ st with locks := locks } : BindingStore).tables.bound x + n + (BindingThread.code c').promised x ≤
        discountMaxPlansPerSubject + (BindingThread.code c).promised x := by
    intro locks c' hc'
    rw [hc']
    exact hn.trans (Nat.le_add_right _ _)
  have hnext := c.next_cases st k a
  generalize c.next k a st = p at hnext ⊢
  cases hnext with
  | fails | waitsForCode | locksCode | waitsForUser | locksUser | findsPlan | needsPlace | returns
    | ended => exact hstay _ _ rfl
  | needsNoPlace => exact hstay _ _ (by simp [BindingThread.promised])
  | @findsPlace customerId queryOk r record hquota =>
    by_cases hx : (.user, customerId) = x
    · -- the place is promised
      have hlt := bound_lt_of_quota hquota
      rw [hx] at hlt
      have hfree := hroom _ (if_pos ⟨hx, hlt⟩)
      show _ + n + (if true = true ∧ _ then 1 else 0) ≤ _
      rw [if_pos ⟨rfl, hx⟩]
      exact hfree
    · exact hstay _ _ (if_neg fun h => hx h.2)
  | @commits env now customerId record insert tables htables =>
    show tables.bound x + n + 0 ≤ _ + if insert = true ∧ (.user, customerId) = x then 1 else 0
    rcases bound_finishCustomerCode htables with hadd | ⟨hx, hadd⟩
    · exact (Nat.add_le_add_right hadd n).trans (hn.trans (Nat.le_add_right _ _))
    -- the place was promised
    rw [if_pos hx]
    omega

/-- **What a step takes of the places** it gives back, was promised or was free. -/
theorem BindingThread.next_places (hroom : ∀ m ∈ t.finds x st.tables, m + n < discountMaxPlansPerSubject)
    (hn : st.tables.bound x + n ≤ discountMaxPlansPerSubject) :
    (t.next k a st).1.tables.bound x + n + (t.next k a st).2.promised x ≤
      discountMaxPlansPerSubject + t.promised x := by
  have hstay : ∀ (locks : Locks BindingKey) (t' : BindingThread), t'.promised x = 0 →
      ({ st with locks := locks } : BindingStore).tables.bound x + n + t'.promised x ≤
        discountMaxPlansPerSubject + t.promised x := by
    intro locks t' ht'
    rw [ht']
    exact hn.trans (Nat.le_add_right _ _)
  have hfinish : ∀ y : Tx BindingDB Err Unit,
      (∀ s', y st.tables = .ok ((), s') → s'.bound x ≤ discountMaxPlansPerSubject + t.promised x - n) →
      (finish st k y).1.tables.bound x + n + (finish st k y).2.promised x ≤
        discountMaxPlansPerSubject + t.promised x := by
    intro y hy
    have hplaces := BindingThread.finish_places hy (k := k) (by omega)
    omega
  cases t with
  | existed | agentProfile | belongs =>
    dsimp only [next]
    split <;> exact hstay _ _ rfl
  | quota binding =>
    dsimp only [next]
    split
    · exact hstay _ _ rfl
    rename_i hquota
    by_cases hx : binding.subject = x
    · have hlt := bound_lt_of_quota hquota
      have hfree := hroom _ (if_pos ⟨hx, hx ▸ hlt⟩)
      show _ + n + (if _ then 1 else 0) ≤ _
      rw [if_pos hx]
      exact hfree
    · exact hstay _ _ (if_neg hx)
  | create binding =>
    refine hfinish _ fun s' hs' => ?_
    rcases bound_create_sync x (b := { binding with id := a.code.bind.newId }) hs' with
      hadd | ⟨hx, hadd⟩
    · omega
    · have hpromised : (BindingThread.create binding).promised x = 1 := if_pos hx
      omega
  | unbind =>
    refine hfinish _ fun s' hs' => ?_
    have hadd : s'.bound x ≤ st.tables.bound x := bound_unbindDiscountPlan hs'
    omega
  | platformPriced =>
    dsimp only [next]
    split
    · exact hstay _ _ rfl
    split
    · exact hstay _ _ rfl
    split <;> exact hstay _ _ rfl
  | shelf | lockBuyer =>
    dsimp only [next]
    split
    · exact hstay _ _ rfl
    split <;> exact hstay _ _ rfl
  | price =>
    refine hfinish _ fun s' hs' => ?_
    rcases bound_setAgentCustomerDiscountTx (x := x) hs' with hadd | ⟨hx, hadd⟩
    · omega
    · have hfree := hroom _ (if_pos hx)
      omega
  | buy =>
    refine hfinish _ fun s' hs' => ?_
    rcases bound_bindSubscriptionDiscount (x := x) hs' with hadd | ⟨hx, hadd⟩
    · omega
    · have hfree := hroom _ (if_pos hx)
      omega
  | endSubscription =>
    refine hfinish _ fun s' hs' => ?_
    have hadd : s'.bound x ≤ st.tables.bound x := bound_unbindSubscription hs'
    omega
  | code => exact CodeCall.next_places hroom hn
  | ended => exact hstay _ _ rfl

/-! ### Runs -/

/-- What is bound and what is promised is within the limit. -/
def Placed (x : DiscountSubject × Int) (p : Pool BindingStore BindingThread) : Prop :=
  p.shared.tables.bound x + p.total (·.promised x) ≤ discountMaxPlansPerSubject

theorem BindingCall.begin_promised (toUpper : String → String) (call : BindingCall)
    (x : DiscountSubject × Int) : (call.begin toUpper).promised x = 0 := by
  cases call with
  | setAgentCustomerDiscount =>
    dsimp only [BindingCall.begin]
    split <;> rfl
  | bindCustomerCode =>
    dsimp only [BindingCall.begin, CodeCall.begin]
    split
    · rfl
    split <;> rfl
  | _ => rfl

/-- **The limit on bindings**, in runs that leave the promised places free. -/
theorem binding_limit_holds (toUpper : String → String) (x : DiscountSubject × Int)
    (tables : BindingDB) (hlimit : tables.bound x ≤ discountMaxPlansPerSubject)
    {ops : List (Op (Int × Int) BindingCall BindingAnswer)}
    (hops : Along (bindingProgram toUpper).step (Roomy x) { shared := { tables } } ops) :
    (exec (bindingProgram toUpper).step { shared := { tables } } ops).shared.tables.bound x ≤
      discountMaxPlansPerSubject := by
  have hplaced : Placed x (exec (bindingProgram toUpper).step { shared := { tables } } ops) := by
    refine exec_inv_along (fun p op hroom (hp : Placed x p) => ?_) ?_ hops
    · cases op with
      | event e =>
        show (revokeCustomerCode p.shared e.1 e.2).tables.bound x + _ ≤ _
        dsimp only [revokeCustomerCode]
        split <;> exact hp
      | start call =>
        have hbegin : ((bindingProgram toUpper).start p.shared call).2.promised x = 0 :=
          call.begin_promised toUpper x
        rw [Placed, total_start, hbegin]
        exact hp
      | go k a =>
        rcases hk : p.threads[k]? with - | t
        · rw [step_go_none a hk]
          exact hp
        have htotal := total_go (P := bindingProgram toUpper) (·.promised x) a hk
        have hroom' : ∀ m ∈ t.finds x p.shared.tables,
            m + p.total (·.promised x) < discountMaxPlansPerSubject :=
          fun m hm => hroom m (Option.bind_eq_some_iff.mpr ⟨t, hk, hm⟩)
        have hnext := BindingThread.next_places (a := a) (k := k) hroom' hp
        have hshared : ((bindingProgram toUpper).step p (.go k a)).shared = (t.next k a p.shared).1 := by
          rw [step_go a hk]
          rfl
        rw [Placed, hshared]
        change _ + _ = _ + BindingThread.promised x (t.next k a p.shared).2 at htotal
        omega
    · exact hlimit
  exact (Nat.le_add_right _ _).trans hplaced

/-- A customer of an agent who has `n` plans from customer codes. -/
def customerBound (n : Nat) : BindingDB where
  db := { users := ⟨[{ id := 7, parentAgentId := 3 }], nodup_singleton _⟩ }
  discountBindings := (List.range n).foldl
    (fun t i => t.insert (codeBinding i 7 i)) Table.empty

/-- Every statement succeeds, a new row gets the id, and the agent sells plan 90. -/
def bindingAnswer (newId : Int) : BindingAnswer where
  code := { bind := { newId := newId }, toUpper := id, planEnabled := fun _ => some true }
  sellable := .ok [90]

/-- Two administrators bind a plan each, both counting before either inserts. -/
def twoBinds : List (Op (Int × Int) BindingCall BindingAnswer) :=
  [.start (.bindDiscountPlan { id := 0, subjectId := 7, planId := 90 }),
    .start (.bindDiscountPlan { id := 0, subjectId := 7, planId := 91 }),
    .go 0 (bindingAnswer 90), .go 1 (bindingAnswer 91), .go 0 (bindingAnswer 90),
    .go 1 (bindingAnswer 91), .go 0 (bindingAnswer 90), .go 1 (bindingAnswer 91)]

/-- A purchase of a plan that comes with a discount. -/
def onePurchase : List (Op (Int × Int) BindingCall BindingAnswer) :=
  [.start (.purchase 7 { id := 1, discountPlanId := 90 }
      { id := 1, userId := 7, planId := 1, amountTotal := 0, endTime := 100 }),
    .go 0 (bindingAnswer 90), .go 0 (bindingAnswer 90)]

/-- The agent sets a price. -/
def onePrice : List (Op (Int × Int) BindingCall BindingAnswer) :=
  [.start (.setAgentCustomerDiscount 3 7 90), .go 0 (bindingAnswer 90), .go 0 (bindingAnswer 90),
    .go 0 (bindingAnswer 90), .go 0 (bindingAnswer 90), .go 0 (bindingAnswer 90)]

/-- How many bindings the customer has after the run. -/
def boundAfter (n : Nat) (ops : List (Op (Int × Int) BindingCall BindingAnswer)) : Nat :=
  (exec (bindingProgram id).step { shared := { tables := customerBound n } } ops).shared.tables.bound
    (.user, 7)

theorem binding_limit_holds_for_two_binds :
    boundAfter 8 twoBinds = 10 ∧ boundAfter 8 twoBinds ≤ discountMaxPlansPerSubject :=
  ⟨by decide +kernel,
    binding_limit_holds id (.user, 7) (customerBound 8) (by decide +kernel) (by decide +kernel)⟩

/-- A purchase and an agent's price make an eleventh binding of ten, and two
administrators make a tenth and an eleventh of nine. -/
theorem binding_limit_exceeded : boundAfter 10 onePurchase = discountMaxPlansPerSubject + 1 ∧
      boundAfter 10 onePrice = discountMaxPlansPerSubject + 1 ∧
      boundAfter 9 twoBinds = discountMaxPlansPerSubject + 1 := by
  decide +kernel

end MicrossApi
