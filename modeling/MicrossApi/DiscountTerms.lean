/-
MicrossApi/DiscountTerms.lean

What a plan gives.  The two resolvers of a discount differ in where they take
the plan from; the terms (discount, source and plan) then depend on the plan
and the model alone: `Pricing.termsOf`.  This holds of the resolver that
trusts the copied plan id (`terms_resolvePlanDiscount`) and, for a user with
at most one enabled binding, of the one that reads the bindings
(`terms_resolveMulti`).
-/
import MicrossApi.DiscountResolve

namespace MicrossApi

open List

/-! ### Terms -/

/-- The terms of an answer: discount, source and plan. -/
def DiscountResolution.terms (r : DiscountResolution) :
    String × ResolvedFrom × Option DiscountPlan := (r.discount, r.source, r.plan)

/-- The plan with the id, if it may price anything. -/
def DB.livePlan (db : DB) (planId : Int) : Option DiscountPlan :=
  if planId ≤ 0 then none
  else ((db.discountPlans.find? planId).map (·.normalizeDefaults)).filter (·.enabled)

/-- The terms a plan gives for a model; without a plan the list price. -/
def Pricing.termsOf (pricing : Pricing) (modelName : String) :
    Option DiscountPlan → String × ResolvedFrom × Option DiscountPlan
  | none => (discountNone, .default, none)
  | some plan =>
    (pricing.formatResolvedDiscount plan.baseDiscount,
      (pricing.scopeOf plan.id modelName (pricing.resolveVendorName modelName)).1, some plan)

variable {b : DiscountBinding} {rules : List DiscountRule} {scope : DiscountScope} {u : Int} {s : BindingDB}

section Terms

variable {pricing : Pricing} {m : String}

theorem plan_termsOf (plan : Option DiscountPlan) : (pricing.termsOf m plan).2.2 = plan := by
  cases plan with
  | none | some => rfl

theorem plan_applyWholesale (r : DiscountResolution) (w : Option AgentWholesale) :
    (pricing.applyWholesale r w).plan = r.plan := by
  unfold Pricing.applyWholesale
  cases w with
  | none => rfl
  | some =>
    dsimp only
    split
    · rfl
    split
    · rfl
    split
    · rfl
    split <;> rfl

theorem terms_applyWholesale {r r' : DiscountResolution} (h : r.terms = r'.terms)
    (w : Option AgentWholesale) :
    (pricing.applyWholesale r w).terms = (pricing.applyWholesale r' w).terms := by
  obtain ⟨discount, source, rule, plan, planId⟩ := r
  obtain ⟨discount', source', rule', plan', planId'⟩ := r'
  obtain ⟨rfl, rfl, rfl⟩ := h
  unfold Pricing.applyWholesale
  cases w with
  | none => rfl
  | some =>
    dsimp only
    split
    · rfl
    split
    · rfl
    split
    · rfl
    split <;> rfl

/-- The copied plan alone decides the terms of `resolvePlanDiscount`. -/
theorem terms_resolvePlanDiscount (pricing : Pricing) (m : String) {db : DB} {user : User} (hu : 0 < u)
    (huser : db.users.find? u = some user) : (resolvePlanDiscount pricing db u m).terms
      = pricing.termsOf m (db.livePlan user.discountPlanId) := by
  unfold resolvePlanDiscount DB.livePlan
  rw [if_neg (by omega), huser]
  dsimp only
  by_cases hid : user.discountPlanId ≤ 0
  · rw [if_pos hid, if_pos hid]
    rfl
  rw [if_neg hid, if_neg hid]
  rcases db.discountPlans.find? user.discountPlanId with - | row
  · rfl
  rw [Option.map_some, Option.filter_some]
  dsimp only
  by_cases henabled : row.normalizeDefaults.enabled = true
  · rw [if_neg (by rw [henabled]; exact Bool.noConfusion), if_pos henabled]
    rfl
  · rw [if_pos (Bool.eq_false_iff.mpr henabled), if_neg henabled]
    rfl

theorem windowReason_eq_none_iff {now : Int} :
    b.windowReason now = none ↔ b.InWindow now := by
  unfold DiscountBinding.windowReason DiscountBinding.InWindow
  by_cases hfrom : now < b.effectiveFrom
  · rw [if_pos hfrom]
    exact ⟨nofun, fun h => absurd h.1 (by omega)⟩
  rw [if_neg hfrom]
  by_cases hto : 0 < b.effectiveTo ∧ b.effectiveTo ≤ now
  · rw [if_pos hto]
    exact ⟨nofun, fun h => absurd hto h.2⟩
  · rw [if_neg hto]
    exact ⟨fun _ => ⟨by omega, hto⟩, fun _ => rfl⟩

/-- Blanks around the name do not matter to a rule. -/
theorem pickDiscountRule_congr {v v' : String}
    (h : trimSpace v = trimSpace v') : pickDiscountRule rules scope v = pickDiscountRule rules scope v' := by
  unfold pickDiscountRule matchDiscountScope
  rw [h]

theorem pickDiscountRule_eq_none {v : String}
    (h : ∀ rule ∈ rules, ¬ (rule.enabled = true ∧ rule.scopeType = scope)) :
    pickDiscountRule rules scope v = none := by
  unfold pickDiscountRule
  split
  · rfl
  refine find?_eq_none.mpr fun rule hrule hmatch => h rule hrule ?_
  have hmatch := of_decide_eq_true hmatch
  exact ⟨hmatch.1, hmatch.2.1⟩

/-- The two resolvers put the vendor's name together differently, and one of
them only if there is a vendor's rule at all; the plan answers the same. -/
theorem scopeOf_batch {ctx : DiscountContext} (hb : b ∈ ctx.bindings)
    (hwindow : b.InWindow ctx.now) (hm : trimSpace m ∈ normalizeLookupValues [trimSpace m]) :
    pricing.scopeOf b.planId (trimSpace m) (if pricing.hasVendorScopeRules ctx then
          pricing.vendorNames (normalizeLookupValues [trimSpace m]) (trimSpace m) else "")
      = pricing.scopeOf b.planId m (pricing.resolveVendorName m) := by
  have hne := (mem_normalizeLookupValues.mp hm).1
  have hvendor : pickDiscountRule (pricing.rulesOf b.planId) .vendor
        (if pricing.hasVendorScopeRules ctx then
          pricing.vendorNames (normalizeLookupValues [trimSpace m]) (trimSpace m) else "")
      = pickDiscountRule (pricing.rulesOf b.planId) .vendor (pricing.resolveVendorName m) := by
    by_cases hrules : pricing.hasVendorScopeRules ctx = true
    · rw [if_pos hrules, vendorNames_eq hm]
      refine pickDiscountRule_congr ?_
      unfold Pricing.resolveVendorName
      rw [if_neg hne]
      rcases (pricing.models.find? (trimSpace m)).bind pricing.vendorOf with - | name
      · rfl
      · exact (trimSpace_trimSpace name).symm
    · have hno : ∀ rule ∈ pricing.rulesOf b.planId,
          ¬ (rule.enabled = true ∧ rule.scopeType = .vendor) := by
        intro rule hrule hvendor
        apply hrules
        refine any_eq_true.mpr ⟨b, hb, decide_eq_true ⟨windowReason_eq_none_iff.mpr hwindow, ?_⟩⟩
        exact any_eq_true.mpr ⟨rule, hrule, decide_eq_true hvendor⟩
      rw [pickDiscountRule_eq_none hno, pickDiscountRule_eq_none hno]
  unfold Pricing.scopeOf
  rw [hvendor, pickDiscountRule_congr (trimSpace_trimSpace m)]

theorem pickWinner_singleton (c : DiscountCandidate) :
    pricing.pickWinner [c] = if c.rejectReason.isSome then none else some c := rfl

section OneBinding

variable {db : DB} {b : DiscountBinding} {now : Int} {name vendor : String}

theorem terms_resolveModel_rejected (h : (pricing.candidateOf db now name vendor b).rejectReason.isSome) :
    (pricing.resolveModel db ⟨[b], now⟩ name vendor).1.terms = (discountNone, .default, none) := by
  unfold Pricing.resolveModel
  simp only [map_cons, map_nil, pickWinner_singleton]
  rw [if_pos h]
  rfl

theorem terms_resolveModel_accepted {c : DiscountCandidate}
    (hc : pricing.candidateOf db now name vendor b = c) (h : c.rejectReason = none) :
    (pricing.resolveModel db ⟨[b], now⟩ name vendor).1.terms
      = (c.discount, c.specificity.getD .default, c.plan) := by
  unfold Pricing.resolveModel
  simp only [map_cons, map_nil, pickWinner_singleton, hc]
  rw [if_neg (by rw [h]; exact Bool.noConfusion)]
  rfl

/-- The answer when there is one binding. -/
theorem terms_resolveModel_singleton (hids : ∀ plan ∈ db.discountPlans.rows, 0 < plan.id)
    (hscope : b.InWindow now →
      pricing.scopeOf b.planId name vendor = pricing.scopeOf b.planId m (pricing.resolveVendorName m)) :
    (pricing.resolveModel db ⟨[b], now⟩ name vendor).1.terms
      = pricing.termsOf m (if b.InWindow now then db.livePlan b.planId else none) := by
  by_cases hwindow : b.InWindow now
  · have hreason := windowReason_eq_none_iff.mpr hwindow
    rw [if_pos hwindow]
    rcases hrow : db.discountPlans.find? b.planId with - | row
    · have hlive : db.livePlan b.planId = none := by
        unfold DB.livePlan
        rw [hrow]
        exact ite_self none
      rw [hlive]
      apply terms_resolveModel_rejected
      unfold Pricing.candidateOf
      rw [hreason, hrow]
      rfl
    · have hid : row.id = b.planId := Table.key_of_find? hrow
      have hpos : ¬ b.planId ≤ 0 := by
        have := hids row (Table.mem_of_find? hrow)
        omega
      have hlive : db.livePlan b.planId
          = if row.normalizeDefaults.enabled then some row.normalizeDefaults else none := by
        unfold DB.livePlan
        rw [if_neg hpos, hrow, Option.map_some, Option.filter_some]
      rw [hlive]
      by_cases henabled : row.normalizeDefaults.enabled = true
      · rw [if_pos henabled]
        have hcandidate : pricing.candidateOf db now name vendor b
            = { binding := b
                plan := some row.normalizeDefaults
                rule := (pricing.scopeOf b.planId name vendor).2
                specificity := some (pricing.scopeOf b.planId name vendor).1
                discount := pricing.formatResolvedDiscount row.normalizeDefaults.baseDiscount } := by
          unfold Pricing.candidateOf
          rw [hreason, hrow, ← hid]
          dsimp only [Option.map_some]
          have hnormal : row.normalizeDefaults.id = row.id := rfl
          rw [if_neg (by rw [henabled]; exact Bool.noConfusion), hnormal]
        rw [terms_resolveModel_accepted hcandidate rfl, hscope hwindow, ← hid]
        rfl
      · rw [if_neg henabled]
        apply terms_resolveModel_rejected
        unfold Pricing.candidateOf
        rw [hreason, hrow]
        dsimp only [Option.map_some]
        rw [if_pos (Bool.eq_false_iff.mpr henabled)]
        rfl
  · rw [if_neg hwindow]
    apply terms_resolveModel_rejected
    obtain ⟨reason, hreason⟩ := Option.ne_none_iff_exists'.mp (mt windowReason_eq_none_iff.mp hwindow)
    unfold Pricing.candidateOf
    rw [hreason]
    rfl

end OneBinding

theorem activePlanId_singleton (hb : s.enabledBindings u = [b]) (now : Int) :
    s.activePlanId u now = if b.InWindow now then b.planId else 0 := by
  have henabled : b.enabled = true := by
    have hmem : b ∈ s.enabledBindings u := hb ▸ mem_singleton.mpr rfl
    exact (of_decide_eq_true (mem_filter.mp hmem).2).2
  unfold BindingDB.activePlanId pickActiveDiscountBinding
  rw [hb]
  show ((pickBinding now none b).map (·.planId)).getD 0 = _
  unfold pickBinding
  by_cases hwindow : b.InWindow now
  · rw [if_neg (by simp [henabled, hwindow]), if_pos hwindow]
    rfl
  · rw [if_pos (Or.inr hwindow), if_neg hwindow]
    rfl

/-- The bindings alone decide the terms of the resolver that reads them. -/
theorem terms_resolveMulti (pricing : Pricing) (t : Int)
    (hids : ∀ plan ∈ s.db.discountPlans.rows, 0 < plan.id) (hu : 0 < u)
    (huser : (s.db.users.find? u).isSome) (hm : trimSpace m ∈ normalizeLookupValues [trimSpace m])
    (hone : (s.enabledBindings u).length ≤ 1) :
    ∃ r, (resolveMultiPlanDiscountForModels pricing s t u [trimSpace m] (trimSpace m)).1 = some r ∧
      r.terms = pricing.termsOf m (s.db.livePlan (s.activePlanId u t)) := by
  unfold resolveMultiPlanDiscountForModels loadDiscountContext
  rw [if_neg (not_not.mpr hm), if_neg (by omega), if_pos huser]
  refine ⟨_, rfl, ?_⟩
  rcases hb : s.enabledBindings u with - | ⟨b, rest⟩
  · have hnone : s.activePlanId u t = 0 := by
      unfold BindingDB.activePlanId
      rw [hb]
      rfl
    rw [hnone]
    rfl
  · obtain rfl : rest = [] := by
      rw [hb, length_cons] at hone
      exact eq_nil_of_length_eq_zero (by omega)
    rw [activePlanId_singleton hb]
    refine (terms_resolveModel_singleton (m := m) hids fun hwindow => ?_).trans ?_
    · exact scopeOf_batch (mem_singleton.mpr rfl) hwindow hm
    · by_cases hwindow : b.InWindow t
      · rw [if_pos hwindow, if_pos hwindow]
      · rw [if_neg hwindow, if_neg hwindow]
        rfl

/-! ### One name -/

/-- A single name is looked up under its trimmed form. -/
theorem normalize_singleton (hm : trimSpace m ≠ "") :
    normalizeLookupValues [trimSpace m] = [trimSpace m] := by
  unfold normalizeLookupValues
  simp [trimSpace_trimSpace, hm]

theorem wholesale_singleton (book : PriceBook) (db : DB) (u : Int) (hm : trimSpace m ≠ "") :
    resolveAgentWholesaleForModels book db u [trimSpace m] (trimSpace m)
      = resolveAgentWholesale book db u m := by
  unfold resolveAgentWholesaleForModels resolveAgentWholesale PriceBook.candidates
  rw [normalize_singleton hm, trimSpace_trimSpace]
  by_cases hu : u ≤ 0
  · rw [if_pos hu, if_pos (Or.inl hu)]
  rw [if_neg hu, if_neg (not_or.mpr ⟨hu, hm⟩)]
  rcases book.agentTerms db u with - | ⟨markup, groups⟩
  · rfl
  · exact if_pos (mem_singleton.mpr rfl)

theorem resolveMulti_blank (s : BindingDB) (t u : Int) (hm : trimSpace m = "") :
    resolveUserDiscountMulti pricing s t u m = none := by
  unfold resolveUserDiscountMulti resolveUserDiscountDetailed resolveUserDiscountDetailedForModels
    resolveMultiPlanDiscountForModels
  rw [if_pos fun hmem => (mem_normalizeLookupValues.mp hmem).1 hm]
  rfl

end Terms

end MicrossApi
