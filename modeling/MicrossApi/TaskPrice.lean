/-
MicrossApi/TaskPrice.lean

The price factor of an asynchronous task is resolved twice: by
`HandleGroupRatio` (relay/helper/price.go, relay/helper/discount.go) from the
two groups of the request that submits it, and by
`RecalculateTaskQuotaByTokens` (service/task_billing.go) from the one group the
task has kept.  A ratio that is set for a pair of different groups is seen by
the first only.
-/
import MicrossApi.DiscountValidate

namespace MicrossApi

/-- `BillingDiscount`; the notes on the bindings not used are left out. -/
structure BillingDiscount where
  ratio : ℚ := 1
  source : Option ResolvedFrom := none
  planId : Int := 0

/-- `ResolveBillingDiscount`, with `EnableBillingDiscount`. -/
def resolveBillingDiscount (pricing : Pricing) (enableBillingDiscount : Bool) (s : BindingDB)
    (now userId : Int) (modelName : String) : BillingDiscount :=
  if enableBillingDiscount = false ∨ userId ≤ 0 then {}
  else
    match (resolveUserDiscountDetailed pricing s now userId modelName).1 with
    | none => {}
    | some resolution =>
      let ratio := pricing.billingRatio resolution.discount
      if ratio = 1 then {}
      else { ratio, source := some resolution.source, planId := resolution.planId }

/-- `GetGroupRatio`: the ratios of single groups are retired. -/
def getGroupRatio (_name : String) : ℚ := 1

/-- The setting `groupGroupRatioMap`. -/
abbrev GroupGroupRatios := String → Option (String → Option ℚ)

/-- `GetGroupGroupRatio`. -/
def getGroupGroupRatio (ratios : GroupGroupRatios) (userGroup usingGroup : String) : Option ℚ :=
  (ratios userGroup).bind (· usingGroup)

/-- `GroupRatioInfo`. -/
structure GroupRatioInfo where
  groupRatio : ℚ := 1
  groupSpecialRatio : ℚ := -1
  hasSpecialRatio : Bool := false
  discountRatio : ℚ := 0
  discountSource : Option ResolvedFrom := none
  discountPlanId : Int := 0

/-- `ApplyUserDiscountRatio`. -/
def applyUserDiscountRatio (discount : BillingDiscount) (info : GroupRatioInfo) : GroupRatioInfo :=
  if discount.ratio = 1 then info
  else { info with
    groupRatio := info.groupRatio * discount.ratio
    discountRatio := discount.ratio
    discountSource := discount.source
    discountPlanId := discount.planId }

/-- `HandleGroupRatio`: the group the request uses from now on, and its ratio. -/
def handleGroupRatio (ratios : GroupGroupRatios) (autoGroup : Option String)
    (userGroup usingGroup : String) (discount : BillingDiscount) : String × GroupRatioInfo :=
  let usingGroup := autoGroup.getD usingGroup
  (usingGroup, applyUserDiscountRatio discount <|
    match getGroupGroupRatio ratios userGroup usingGroup with
    | some ratio => { groupSpecialRatio := ratio, groupRatio := ratio, hasSpecialRatio := true }
    | none => { groupRatio := getGroupRatio usingGroup })

/-- The ratio `RecalculateTaskQuotaByTokens` multiplies by; without a group it
returns.  `storedGroup` is the group in the row of the user, if that is found. -/
def recalculatedGroupRatio (ratios : GroupGroupRatios) (taskGroup : String)
    (storedGroup : Option String) (discount : BillingDiscount) : Option ℚ :=
  let group := if taskGroup = "" then storedGroup.getD "" else taskGroup
  if group = "" then none
  else
    let finalGroupRatio := (getGroupGroupRatio ratios group group).getD (getGroupRatio group)
    some (if discount.ratio = 1 then finalGroupRatio else finalGroupRatio * discount.ratio)

/-- A discount is never a gift. -/
theorem ratio_resolveBillingDiscount_pos (pricing : Pricing) (enableBillingDiscount : Bool)
    (s : BindingDB) (now userId : Int) (modelName : String) :
    0 < (resolveBillingDiscount pricing enableBillingDiscount s now userId modelName).ratio := by
  have hbilling : ∀ discount, 0 < pricing.billingRatio discount := by
    intro discount
    unfold Pricing.billingRatio
    split
    · exact one_pos
    split_ifs with hrange
    · exact one_pos
    · exact not_le.mp fun h => hrange (Or.inl h)
  unfold resolveBillingDiscount
  split
  · exact one_pos
  split
  · exact one_pos
  dsimp only
  split
  · exact one_pos
  · exact hbilling _

/-- A discount that is not applied is the factor 1. -/
theorem ite_ratio (discount : BillingDiscount) (x : ℚ) :
    (if discount.ratio = 1 then x else x * discount.ratio) = x * discount.ratio := by
  split_ifs with h
  · rw [h, mul_one]
  · rfl

theorem groupRatio_handleGroupRatio (ratios : GroupGroupRatios) (autoGroup : Option String)
    (userGroup usingGroup : String) (discount : BillingDiscount) :
    (handleGroupRatio ratios autoGroup userGroup usingGroup discount).2.groupRatio
      = (getGroupGroupRatio ratios userGroup (autoGroup.getD usingGroup)).getD 1 * discount.ratio := by
  rw [← ite_ratio]
  show (applyUserDiscountRatio discount _).groupRatio = _
  unfold applyUserDiscountRatio
  rcases getGroupGroupRatio ratios userGroup (autoGroup.getD usingGroup) with - | ratio <;> split <;> rfl

/-- **When the recalculation keeps the submission's price.**  For every setting,
pair of groups and discount that the submission and the completion both find,
the recalculation of a task multiplies by the ratio of its submission exactly
when the pair of groups of the request has the ratio of the pair the
recalculation looks up, which is twice the group kept. -/
theorem recalculation_keeps_ratio_iff (pricing : Pricing) (enableBillingDiscount : Bool)
    (s : BindingDB) (now userId : Int) (modelName : String) (ratios : GroupGroupRatios)
    (autoGroup : Option String) (userGroup usingGroup : String) :
    let discount := resolveBillingDiscount pricing enableBillingDiscount s now userId modelName
    let submitted := handleGroupRatio ratios autoGroup userGroup usingGroup discount
    let group := if submitted.1 = "" then userGroup else submitted.1
    (∀ r ∈ recalculatedGroupRatio ratios submitted.1 (some userGroup) discount,
        r = submitted.2.groupRatio) ↔
      (group ≠ "" → (getGroupGroupRatio ratios userGroup submitted.1).getD 1
        = (getGroupGroupRatio ratios group group).getD 1) := by
  intro discount submitted group
  have hpos : discount.ratio ≠ 0 := (ratio_resolveBillingDiscount_pos ..).ne'
  have hsubmitted : submitted.2.groupRatio
      = (getGroupGroupRatio ratios userGroup submitted.1).getD 1 * discount.ratio :=
    groupRatio_handleGroupRatio ..
  have hrecalculated : recalculatedGroupRatio ratios submitted.1 (some userGroup) discount
      = if group = "" then none
        else some ((getGroupGroupRatio ratios group group).getD 1 * discount.ratio) := by
    rw [← ite_ratio]
    rfl
  rw [hsubmitted, hrecalculated]
  by_cases hgroup : group = ""
  · simp [hgroup]
  · simp [hgroup, hpos, eq_comm]

/-- Customers of the group "vip" pay half in the group "default". -/
def vipInDefault : GroupGroupRatios := fun userGroup =>
  if userGroup = "vip" then some fun usingGroup => if usingGroup = "default" then some (1 / 2) else none
  else none

/-- A task submitted at half the price is recalculated at the full one. -/
theorem recalculation_forgets_userGroup :
    (handleGroupRatio vipInDefault none "vip" "default" {}).2.groupRatio = 1 / 2 ∧
      recalculatedGroupRatio vipInDefault "default" (some "vip") {} = some 1 := by
  decide +kernel

end MicrossApi
