/-
MicrossApi/DiscountResolve.lean

What a user pays for a model (model/discount_resolve.go,
model/discount_multi_resolve.go).  `ResolveUserDiscount` trusts the plan
copied to `users.discount_plan_id`; `ResolveUserDiscountMulti` reads all
enabled bindings of the user, lets each name its price for the model and picks
one: the most specific rule, then the source, then the price, then the newest
binding.  Both then compare with what the user pays as an agent.

The queries answer; the clock is read once per call.
-/
import MicrossApi.AgentWholesale
import MicrossApi.DiscountBinding

namespace MicrossApi

open List

/-! ### Rows -/

/-- `DiscountScope…`; nothing else is meant, but the column is a text. -/
inductive DiscountScope where
  | model
  | vendor
  | other (scope : String)
deriving DecidableEq, Repr

/-- A row of `discount_rules`; its own discount is no longer read. -/
structure DiscountRule where
  id : Int
  planId : Int
  scopeType : DiscountScope := .model
  scopeValue : String
  priority : Int := 0
  enabled : Bool := true
deriving DecidableEq, Repr

/-- A row of the model catalogue. -/
structure ModelMeta where
  modelName : String
  vendorId : Int := 0
deriving DecidableEq, Repr

/-- A row of `vendors`. -/
structure Vendor where
  id : Int
  name : String
deriving DecidableEq, Repr

/-- What prices depend on besides users, plans and bindings. -/
structure Pricing extends PriceBook where
  rules : Table DiscountRule.id := Table.empty
  models : Table ModelMeta.modelName := Table.empty
  vendors : Table Vendor.id := Table.empty

/-! ### Rules -/

/-- `strings.CutSuffix(s, "*")`. -/
def cutStar (s : String) : String × Bool :=
  if s.toList.getLast? = some '*' then (String.ofList s.toList.dropLast, true) else (s, false)

/-- `matchDiscountScope`. -/
def matchDiscountScope (scopeValue name : String) : Bool :=
  let scopeValue := trimSpace scopeValue
  let name := trimSpace name
  if scopeValue = "" ∨ name = "" then false
  else
    let (start, wildcard) := cutStar scopeValue
    if wildcard = false then scopeValue = name
    else if containsText start "*" then false
    else startsWith name start

/-- `pickDiscountRule`. -/
def pickDiscountRule (rules : List DiscountRule) (scopeType : DiscountScope) (scopeValue : String) :
    Option DiscountRule :=
  if trimSpace scopeValue = "" then none
  else
    rules.find? fun rule =>
      rule.enabled = true ∧ rule.scopeType = scopeType ∧
        matchDiscountScope rule.scopeValue scopeValue = true

/-- `priority DESC, id ASC`. -/
def DiscountRule.Before (a b : DiscountRule) : Prop :=
  b.priority < a.priority ∨ (a.priority = b.priority ∧ a.id ≤ b.id)

instance : DecidableRel DiscountRule.Before :=
  fun _ _ => inferInstanceAs (Decidable (_ ∨ _))

variable (pricing : Pricing)

/-- `GetDiscountRulesByPlanId`, and the group of one plan in the batch
query. -/
def Pricing.rulesOf (planId : Int) : List DiscountRule :=
  (pricing.rules.rows.filter (·.planId = planId)).insertionSort DiscountRule.Before

/-- `NormalizeDefaults`. -/
def DiscountPlan.normalizeDefaults (p : DiscountPlan) : DiscountPlan :=
  { p with
    baseDiscount := if p.baseDiscount = "" then discountNone else p.baseDiscount
    minDiscount := if p.minDiscount = "" then "0" else p.minDiscount
    topupConversionRate :=
      if p.topupConversionRate = "" then discountTopupConversionDefault else p.topupConversionRate }

/-- `formatResolvedDiscount`. -/
def Pricing.formatResolvedDiscount (raw : String) : String :=
  match pricing.newFromString (trimSpace raw) with
  | none => discountNone
  | some value => Rounding.stringFixed 6 value

/-- The name of the vendor of a catalogue row. -/
def Pricing.vendorOf (row : ModelMeta) : Option String :=
  if 0 < row.vendorId then (pricing.vendors.find? row.vendorId).map (·.name) else none

/-- `resolveVendorName`; no vendor is the empty name. -/
def Pricing.resolveVendorName (modelName : String) : String :=
  if trimSpace modelName = "" then ""
  else
    match (pricing.models.find? (trimSpace modelName)).bind pricing.vendorOf with
    | none => ""
    | some name => trimSpace name

/-- `GetVendorNamesByModelNames`, as the map it returns: a name that is not
there reads as empty. -/
def Pricing.vendorNames (modelNames : List String) (model : String) : String :=
  let nameList := normalizeLookupValues modelNames
  let rows := pricing.models.rows.filter (·.modelName ∈ nameList)
  let vendorIds := (rows.map (·.vendorId)).filter (0 < ·)
  let vendors := pricing.vendors.rows.filter (·.id ∈ vendorIds)
  ((rows.find? (·.modelName = model)).bind fun row =>
    (vendors.find? (·.id = row.vendorId)).map (·.name)).getD ""

/-! ### Resolutions -/

/-- `DiscountResolvedFrom…`. -/
inductive ResolvedFrom where
  | model
  | vendor
  | planBase
  | agentWholesale
  | default
deriving DecidableEq, Repr

/-- `DiscountResolution`. -/
structure DiscountResolution where
  discount : String := discountNone
  source : ResolvedFrom := .default
  rule : Option DiscountRule := none
  plan : Option DiscountPlan := none
  planId : Int := 0
deriving DecidableEq, Repr

/-- `applyWholesaleToResolution`, for a resolution that is there. -/
def Pricing.applyWholesale (resolution : DiscountResolution)
    (wholesale : Option AgentWholesale) : DiscountResolution :=
  match wholesale with
  | none => resolution
  | some w =>
    let replaced := { resolution with discount := w.discount, source := .agentWholesale, rule := none }
    if resolution.source = .default then replaced
    else
      match pricing.newFromString (trimSpace resolution.discount) with
      | none => resolution
      | some planValue =>
        match pricing.newFromString w.discount with
        | none => resolution
        | some wholesaleValue => if wholesaleValue < planValue then replaced else resolution

/-- What a plan says about a model: the model's rule, the vendor's, or its
base discount. -/
def Pricing.scopeOf (planId : Int) (modelName vendorName : String) : ResolvedFrom × Option DiscountRule :=
  match pickDiscountRule (pricing.rulesOf planId) .model modelName with
  | some rule => (.model, some rule)
  | none =>
    match pickDiscountRule (pricing.rulesOf planId) .vendor vendorName with
    | some rule => (.vendor, some rule)
    | none => (.planBase, none)

/-! ### By the plan copied to the user -/

/-- `resolvePlanDiscount`. -/
def resolvePlanDiscount (pricing : Pricing) (db : DB) (userId : Int) (modelName : String) :
    DiscountResolution :=
  if userId ≤ 0 then {}
  else
    match db.users.find? userId with
    | none => {}
    | some user =>
      if user.discountPlanId ≤ 0 then {}
      else
        match db.discountPlans.find? user.discountPlanId with
        | none => { planId := user.discountPlanId }
        | some row =>
          let plan := row.normalizeDefaults
          if plan.enabled = false then { planId := user.discountPlanId }
          else
            let (source, rule) :=
              pricing.scopeOf plan.id modelName (pricing.resolveVendorName modelName)
            { discount := pricing.formatResolvedDiscount plan.baseDiscount
              source := source
              rule := rule
              plan := some plan
              planId := user.discountPlanId }

/-- `ResolveUserDiscount`. -/
def resolveUserDiscount (pricing : Pricing) (db : DB) (userId : Int) (modelName : String) :
    DiscountResolution :=
  pricing.applyWholesale (resolvePlanDiscount pricing db userId modelName)
    (resolveAgentWholesale pricing.toPriceBook db userId modelName)

/-! ### By all bindings -/

/-- `DiscountCandidate`. -/
structure DiscountCandidate where
  binding : DiscountBinding
  plan : Option DiscountPlan := none
  rule : Option DiscountRule := none
  specificity : Option ResolvedFrom := none
  discount : String := ""
  rejectReason : Option String := none
deriving DecidableEq, Repr

/-- Why a binding is not in force at `now`. -/
def DiscountBinding.windowReason (b : DiscountBinding) (now : Int) : Option String :=
  if now < b.effectiveFrom then some "尚未到生效时间"
  else if 0 < b.effectiveTo ∧ b.effectiveTo ≤ now then some "已过生效时间"
  else none

/-- `discountSpecificityRank`. -/
def discountSpecificityRank : Option ResolvedFrom → Int
  | some .model => 0
  | some .vendor => 1
  | _ => 2

/-- `compareDiscountStrings`: negative if `a` is cheaper. -/
def Pricing.compareDiscountStrings (a b : String) : Int :=
  match pricing.newFromString (trimSpace a), pricing.newFromString (trimSpace b) with
  | none, none => 0
  | none, some _ => 1
  | some _, none => -1
  | some x, some y => if x < y then -1 else if y < x then 1 else 0

/-- `compareDiscountCandidates`: negative if `a` wins. -/
def Pricing.compareCandidates (a b : DiscountCandidate) : Int :=
  let specificity := discountSpecificityRank a.specificity - discountSpecificityRank b.specificity
  let source := discountSourceRank a.binding.source - discountSourceRank b.binding.source
  let price := pricing.compareDiscountStrings a.discount b.discount
  if specificity ≠ 0 then specificity
  else if source ≠ 0 then source
  else if price ≠ 0 then price
  else b.binding.id - a.binding.id

/-- `pickWinningDiscountCandidate`. -/
def Pricing.pickWinner (candidates : List DiscountCandidate) : Option DiscountCandidate :=
  candidates.foldl
    (fun winner c =>
      if c.rejectReason.isSome then winner
      else
        match winner with
        | none => some c
        | some w => if pricing.compareCandidates c w < 0 then some c else some w)
    none

/-- `markDiscountCandidateRejections` for one candidate; bindings are told
apart by their ids. -/
def Pricing.markRejection (winner c : DiscountCandidate) : DiscountCandidate :=
  if c.binding.id = winner.binding.id ∨ c.rejectReason.isSome then c
  else if discountSpecificityRank winner.specificity < discountSpecificityRank c.specificity then
    { c with rejectReason := some "具体度不如胜者：胜者命中了更具体的规则" }
  else if discountSourceRank winner.binding.source < discountSourceRank c.binding.source then
    { c with rejectReason := some "同具体度下定价方优先级低于胜者" }
  else if 0 < pricing.compareDiscountStrings c.discount winner.discount then
    { c with rejectReason := some "同具体度同来源下不如胜者便宜" }
  else { c with rejectReason := some "同具体度同来源同价格下绑定早于胜者" }

/-- `discountMultiContext`: the enabled bindings in the order of their ids,
and the time. -/
structure DiscountContext where
  bindings : List DiscountBinding
  now : Int

/-- `loadDiscountMultiContext`; a user who does not exist has no bindings. -/
def loadDiscountContext (s : BindingDB) (now userId : Int) : DiscountContext where
  bindings :=
    if (s.db.users.find? userId).isSome then
      (s.enabledBindings userId).insertionSort fun a b => a.id ≤ b.id
    else []
  now := now

/-- `hasVendorScopeRules`, over the plans of the bindings in force. -/
def Pricing.hasVendorScopeRules (ctx : DiscountContext) : Bool :=
  ctx.bindings.any fun b =>
    b.windowReason ctx.now = none ∧
      (pricing.rulesOf b.planId).any fun rule => rule.enabled = true ∧ rule.scopeType = .vendor

/-- What a binding says about the model. -/
def Pricing.candidateOf (db : DB) (now : Int) (modelName vendorName : String)
    (b : DiscountBinding) : DiscountCandidate :=
  match b.windowReason now with
  | some reason => { binding := b, rejectReason := some reason }
  | none =>
    match (db.discountPlans.find? b.planId).map (·.normalizeDefaults) with
    | none => { binding := b, rejectReason := some "方案已停用或已删除" }
    | some plan =>
      if plan.enabled = false then { binding := b, rejectReason := some "方案已停用或已删除" }
      else
        let (source, rule) := pricing.scopeOf plan.id modelName vendorName
        { binding := b
          plan := some plan
          rule := rule
          specificity := some source
          discount := pricing.formatResolvedDiscount plan.baseDiscount }

/-- `resolveModel`. -/
def Pricing.resolveModel (db : DB) (ctx : DiscountContext)
    (modelName vendorName : String) : DiscountResolution × List DiscountCandidate :=
  let candidates := ctx.bindings.map (pricing.candidateOf db ctx.now modelName vendorName)
  match pricing.pickWinner candidates with
  | none =>
    ({ planId := ((pickActiveDiscountBinding ctx.bindings ctx.now).map (·.planId)).getD 0 },
      candidates)
  | some winner =>
    ({ discount := winner.discount
       source := winner.specificity.getD .default
       rule := winner.rule
       plan := winner.plan
       planId := winner.binding.planId },
      candidates.map (pricing.markRejection winner))

/-- `resolveMultiPlanDiscountForModels`, as the maps it returns. -/
def resolveMultiPlanDiscountForModels (pricing : Pricing) (s : BindingDB) (now userId : Int)
    (modelNames : List String) (model : String) : Option DiscountResolution × List DiscountCandidate :=
  let nameList := normalizeLookupValues modelNames
  if model ∉ nameList then (none, [])
  else if userId ≤ 0 then (some {}, [])
  else
    let ctx := loadDiscountContext s now userId
    let vendorName :=
      if pricing.hasVendorScopeRules ctx then pricing.vendorNames nameList model else ""
    let (resolution, candidates) := pricing.resolveModel s.db ctx model vendorName
    (some resolution, candidates)

/-- `ResolveUserDiscountDetailedForModels`, as the maps it returns. -/
def resolveUserDiscountDetailedForModels (pricing : Pricing) (s : BindingDB) (now userId : Int)
    (modelNames : List String) (model : String) : Option DiscountResolution × List DiscountCandidate :=
  let (resolution, candidates) :=
    resolveMultiPlanDiscountForModels pricing s now userId modelNames model
  (resolution.map fun r => pricing.applyWholesale r
      (resolveAgentWholesaleForModels pricing.toPriceBook s.db userId modelNames model),
    candidates)

/-- `ResolveUserDiscountDetailed`. -/
def resolveUserDiscountDetailed (pricing : Pricing) (s : BindingDB) (now userId : Int)
    (modelName : String) : Option DiscountResolution × List DiscountCandidate :=
  resolveUserDiscountDetailedForModels pricing s now userId [trimSpace modelName]
    (trimSpace modelName)

/-- `ResolveUserDiscountMulti`. -/
def resolveUserDiscountMulti (pricing : Pricing) (s : BindingDB) (now userId : Int)
    (modelName : String) : Option DiscountResolution :=
  (resolveUserDiscountDetailed pricing s now userId modelName).1

/-! ### Batches -/

section Batch

variable {pricing : Pricing} {names : List String} {m : String}

/-- A name of the list is found under its trimmed form, unless it is blank. -/
theorem trim_mem_normalize (h : m ∈ names) :
    trimSpace m ∈ normalizeLookupValues names ↔ trimSpace m ≠ "" := by
  rw [mem_normalizeLookupValues]
  exact ⟨fun hm => hm.1, fun hm => ⟨hm, m, h, rfl⟩⟩

theorem mem_normalize_normalize {v : String} :
    v ∈ normalizeLookupValues (normalizeLookupValues names) ↔ v ∈ normalizeLookupValues names := by
  rw [mem_normalizeLookupValues]
  constructor
  · rintro ⟨-, w, hw, rfl⟩
    obtain ⟨-, z, -, hz⟩ := mem_normalizeLookupValues.mp hw
    rwa [← hz, trimSpace_trimSpace, hz]
  · intro hv
    obtain ⟨hne, z, -, hz⟩ := mem_normalizeLookupValues.mp hv
    exact ⟨hne, v, hv, by rw [← hz, trimSpace_trimSpace]⟩

theorem vendorNames_eq {v : String} (h : v ∈ normalizeLookupValues names) :
    pricing.vendorNames (normalizeLookupValues names) v
      = ((pricing.models.find? v).bind pricing.vendorOf).getD "" := by
  have hin := mem_normalize_normalize.mpr h
  unfold Pricing.vendorNames
  generalize normalizeLookupValues (normalizeLookupValues names) = nameList at hin
  set rows := pricing.models.rows.filter (·.modelName ∈ nameList)
  -- a model that was asked for is among the rows as in the catalogue
  have hrow : rows.find? (·.modelName = v) = pricing.models.find? v := by
    rw [find?_filter]
    show _ = pricing.models.rows.find? fun row => row.modelName = v
    congr 1
    funext row
    by_cases hname : row.modelName = v <;> simp [hname, hin]
  dsimp only
  rw [hrow]
  rcases hfind : pricing.models.find? v with - | row
  · rfl
  have hmem : row ∈ rows := mem_of_find?_eq_some (hrow.trans hfind)
  -- and so is its vendor, if it has one
  congr 1
  show Option.map _ _ = pricing.vendorOf row
  unfold Pricing.vendorOf
  rw [find?_filter]
  split_ifs with hpos
  · have hid : row.vendorId ∈ (rows.map (·.vendorId)).filter (0 < ·) :=
      mem_filter.mpr ⟨mem_map_of_mem hmem, decide_eq_true hpos⟩
    show _ = (pricing.vendors.rows.find? fun vendor => vendor.id = row.vendorId).map (·.name)
    congr 2
    funext vendor
    by_cases heq : vendor.id = row.vendorId
    · rw [heq]
      exact (decide_eq_true ⟨decide_eq_true hid, decide_eq_true rfl⟩).trans (decide_eq_true rfl).symm
    · simp only [heq, decide_false, Bool.false_eq_true, and_false]
  · rw [Option.map_eq_none_iff, find?_eq_none]
    intro vendor _ hvendor
    obtain ⟨hids, heq⟩ := of_decide_eq_true hvendor
    have hids := (mem_filter.mp (of_decide_eq_true hids)).2
    rw [of_decide_eq_true heq] at hids
    exact hpos (of_decide_eq_true hids)

theorem resolveMultiPlanDiscountForModels_eq (s : BindingDB) (now userId : Int) (h : m ∈ names) :
    resolveMultiPlanDiscountForModels pricing s now userId names (trimSpace m)
      = resolveMultiPlanDiscountForModels pricing s now userId [trimSpace m] (trimSpace m) := by
  have hsingle : trimSpace m ∈ normalizeLookupValues [trimSpace m] ↔ trimSpace m ≠ "" := by
    have hself := trim_mem_normalize (mem_singleton.mpr (rfl : trimSpace m = trimSpace m))
    rwa [trimSpace_trimSpace] at hself
  unfold resolveMultiPlanDiscountForModels
  by_cases hblank : trimSpace m = ""
  · rw [if_pos fun hm => (trim_mem_normalize h).mp hm hblank, if_pos fun hm => hsingle.mp hm hblank]
  have hin := (trim_mem_normalize h).mpr hblank
  have hin' := hsingle.mpr hblank
  rw [if_neg (not_not.mpr hin), if_neg (not_not.mpr hin'), vendorNames_eq hin, vendorNames_eq hin']

/-- **A batch answers each model as if it were asked for alone**: the same
price from the same source and plan, the same candidates with the same
reasons, and the same wholesale price. -/
theorem batch_resolution_eq_single (hbook : pricing.toPriceBook.Orders) (s : BindingDB)
    (now userId : Int) (h : m ∈ names) :
    resolveUserDiscountDetailedForModels pricing s now userId names (trimSpace m)
        = resolveUserDiscountDetailed pricing s now userId m ∧
      resolveAgentWholesaleForModels pricing.toPriceBook s.db userId names (trimSpace m)
        = resolveAgentWholesale pricing.toPriceBook s.db userId m := by
  have hwhole := resolveAgentWholesaleForModels_eq hbook s.db userId h
  have hwhole' := resolveAgentWholesaleForModels_eq hbook s.db userId
    (mem_singleton.mpr (rfl : trimSpace m = trimSpace m))
  rw [trimSpace_trimSpace] at hwhole'
  have hsame : resolveAgentWholesale pricing.toPriceBook s.db userId (trimSpace m)
      = resolveAgentWholesale pricing.toPriceBook s.db userId m := by
    unfold resolveAgentWholesale
    rw [trimSpace_trimSpace]
  refine ⟨?_, hwhole⟩
  unfold resolveUserDiscountDetailed resolveUserDiscountDetailedForModels
  rw [resolveMultiPlanDiscountForModels_eq s now userId h, hwhole, hwhole', hsame]

end Batch

/-- Two channels for `gpt-4`; `gpt-*` is priced by the rule of plan 7. -/
def demoPricing : Pricing where
  channels :=
    ⟨[{ id := 1, name := "a", costRatio := some "0.8" }, { id := 2, name := "b", costRatio := some "0.5" }],
      by decide⟩
  abilities :=
    [{ group := "default", model := "gpt-4", channelId := 1, enabled := true, priority := 0, weight := 0 },
      { group := "default", model := "gpt-4", channelId := 2, enabled := true, priority := 0, weight := 0 }]
  newFromString text :=
    if text = "0.5" then some (1 / 2)
    else if text = "0.8" ∨ text = "0.800000" then some (4 / 5)
    else if text = "0.550000" then some (11 / 20)
    else if text = "1.1" then some (11 / 10)
    else none
  orderByChannel l := l.insertionSort fun a b => a.2 ≤ b.2
  rules := ⟨[{ id := 1, planId := 7, scopeValue := "gpt-*" }], nodup_singleton _⟩

theorem demoPricing_orders : demoPricing.toPriceBook.Orders := orders_of_insertionSort rfl

/-- User 1 is an agent bound to plan 7. -/
def demoBound : BindingDB where
  db :=
    { users := ⟨[{ id := 1, subjectType := .agent, discountPlanId := 7 }], nodup_singleton _⟩
      agentProfiles := ⟨[{ userId := 1 }], nodup_singleton _⟩
      discountPlans := ⟨[{ id := 7, baseDiscount := "0.8" }], nodup_singleton _⟩ }
  discountBindings := ⟨[{ id := 1, subjectId := 1, planId := 7 }], nodup_singleton _⟩

/-- An agent's own price beats the plan's, in a list as alone. -/
theorem batch_resolution_of_two : demoPricing.toPriceBook.Orders ∧ " gpt-4" ∈ ["claude", " gpt-4"] ∧
      (resolveUserDiscountMulti demoPricing demoBound 100 1 "gpt-4").map (·.discount) = some "0.550000" ∧
      (resolveUserDiscountDetailedForModels demoPricing demoBound 100 1 ["claude", " gpt-4"]
          (trimSpace " gpt-4") = resolveUserDiscountDetailed demoPricing demoBound 100 1 " gpt-4" ∧
      resolveAgentWholesaleForModels demoPricing.toPriceBook demoBound.db 1 ["claude", " gpt-4"]
          (trimSpace " gpt-4") = resolveAgentWholesale demoPricing.toPriceBook demoBound.db 1 " gpt-4") := by
  have hmem : " gpt-4" ∈ ["claude", " gpt-4"] := by decide
  exact ⟨demoPricing_orders, hmem, by decide +kernel,
    batch_resolution_eq_single demoPricing_orders demoBound 100 1 hmem⟩

end MicrossApi
