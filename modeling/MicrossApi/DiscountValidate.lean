/-
MicrossApi/DiscountValidate.lean

The check before a discount plan is saved (service/discount_validate.go,
model/discount_validate.go) against the cost filter of routing
(model/channel_cost_filter.go, service/channel_select.go,
model/discount_billing.go).  The check goes rule by rule: it collects the
channels of all models in the range of the rule and complains if not even the
cheapest leaves the margin.  Routing looks at one model at a time.

So a plan that passes is routable rule by rule
(`validated_rule_is_routable`), and not model by model
(`validated_model_unroutable`).

Names come from the catalogue in the order of their characters.
-/
import MicrossApi.DiscountTerms

namespace MicrossApi

open List

/-! ### The range of a rule -/

variable (pricing : Pricing)

/-- `findDiscountModelNamesByPrefix`. -/
def Pricing.findDiscountModelNamesByPrefix (start : String) : List String :=
  if trimSpace start = "" then []
  else
    ((pricing.models.rows.map (·.modelName)).filter fun name =>
      startsWith name (trimSpace start)).insertionSort (· ≤ ·)

/-- `findDiscountModelNamesByVendorName`. -/
def Pricing.findDiscountModelNamesByVendorName (vendorName : String) : List String :=
  if trimSpace vendorName = "" then []
  else
    let vendorIds := (pricing.vendors.rows.filter (·.name = trimSpace vendorName)).map (·.id)
    ((pricing.models.rows.filter (·.vendorId ∈ vendorIds)).map (·.modelName)).insertionSort (· ≤ ·)

/-- `GetDiscountScopeModelNames`. -/
def Pricing.getDiscountScopeModelNames (scopeType : DiscountScope) (scopeValue : String) : List String :=
  let scopeValue := trimSpace scopeValue
  if scopeValue = "" then []
  else
    match scopeType with
    | .model =>
      let (start, wildcard) := cutStar scopeValue
      if wildcard = true ∧ containsText start "*" = false then
        pricing.findDiscountModelNamesByPrefix start
      else [scopeValue]
    | .vendor => pricing.findDiscountModelNamesByVendorName scopeValue
    | .other _ => []

/-! ### The channels in a range -/

/-- What the loops over the models and their channels have found. -/
structure ScopeLines where
  channelNames : List String := []
  lowestCost : ℚ := 0
  costLines : Nat := 0
deriving DecidableEq

variable (book : PriceBook)

/-- The cost of a candidate; one that is not a positive number counts as not
recorded. -/
def PriceBook.lineCost (c : DiscountChannelCandidate) : Option ℚ :=
  match c.costRatio.bind book.newFromString with
  | none => none
  | some cost => if cost ≤ 0 then none else some cost

/-- The inner loop body; with a `channelId` only that channel counts. -/
def PriceBook.addLine (channelId : Int) (lines : ScopeLines) (c : DiscountChannelCandidate) : ScopeLines :=
  if 0 < channelId ∧ c.channelId ≠ channelId then lines
  else
    match book.lineCost c with
    | none => { lines with channelNames := lines.channelNames ++ [c.channelName] }
    | some cost =>
      { channelNames := lines.channelNames ++ [c.channelName]
        lowestCost :=
          if lines.lowestCost = 0 ∨ cost < lines.lowestCost then cost else lines.lowestCost
        costLines := lines.costLines + 1 }

variable (groups : List String)

/-- The two loops. -/
def PriceBook.scopeLines (channelId : Int) (modelNames : List String) : ScopeLines :=
  (modelNames.flatMap (book.candidatesByModels groups modelNames)).foldl (book.addLine channelId) {}

/-! ### The check -/

/-- `DiscountViolation…`. -/
inductive ViolationReason where
  | minAboveBase
  | costBreach
  | noChannel
deriving DecidableEq, Repr

/-- The `scope_type` of a complaint: the whole plan, or that of a rule. -/
inductive ValidateScope where
  | plan
  | rule (scope : DiscountScope)
deriving DecidableEq, Repr

/-- `DiscountValidateViolation`. -/
structure DiscountValidateViolation where
  scopeType : ValidateScope
  scopeValue : String
  discount : String
  reason : ViolationReason
  detail : String
  availableChannels : List String := []
deriving DecidableEq, Repr

/-- `DiscountValidateResult`. -/
structure DiscountValidateResult where
  passed : Bool
  minMarginRatio : String
  violations : List DiscountValidateViolation
  warnings : List String
deriving DecidableEq, Repr

/-- `dedupeSortedStrings`. -/
def dedupeSortedStrings (values : List String) : List String :=
  values.dedup.insertionSort (· ≤ ·)

/-- What the check says of one rule, and whether the channel asked about came
up. -/
structure RuleReport where
  violation : Option DiscountValidateViolation := none
  warning : Option String := none
  channelUsed : Bool := false
deriving DecidableEq, Repr

/-- The loop body over the rules. -/
def Pricing.validateRule (channelId : Int) (baseDiscount minMargin : ℚ) (rule : DiscountRule) : RuleReport :=
  if rule.enabled = false then {}
  else
    let scopeValue := trimSpace rule.scopeValue
    let discount := Rounding.stringFixed 6 baseDiscount
    let modelNames := pricing.getDiscountScopeModelNames rule.scopeType scopeValue
    let lines := pricing.scopeLines groups channelId modelNames
    let channelUsed := decide (0 < channelId ∧ lines.channelNames ≠ [])
    let lowest := Rounding.stringFixed 6 lines.lowestCost
    let floor := Rounding.stringFixed 6 (baseDiscount - minMargin)
    if modelNames = [] then
      { violation := some
          { scopeType := .rule rule.scopeType
            scopeValue := scopeValue
            discount := discount
            reason := .noChannel
            detail := "模型目录里没有这条规则覆盖的模型，这条规则打不到任何真实模型" } }
    else if lines.channelNames = [] then
      if 0 < channelId then {}
      else
        { violation := some
            { scopeType := .rule rule.scopeType
              scopeValue := scopeValue
              discount := discount
              reason := .noChannel
              detail := "这条规则覆盖的模型在当前分组下没有可用线路" } }
    else if lines.costLines = 0 then
      { warning := some s!"规则「{scopeValue}」范围内的可用线路都没录进货折扣，无法判断是否赔本"
        channelUsed := channelUsed }
    else if baseDiscount - minMargin < lines.lowestCost then
      { violation := some
          { scopeType := .rule rule.scopeType
            scopeValue := scopeValue
            discount := discount
            reason := .costBreach
            detail := s!"最低可用进货折扣 {lowest}，高于毛利底线 {floor}"
            availableChannels := dedupeSortedStrings lines.channelNames }
        channelUsed := channelUsed }
    else { channelUsed := channelUsed }

/-- The operators' settings: the margin, and which of the automatic groups a
user of group `auto` may use. -/
structure DiscountSettings where
  minMarginRatio : String := "0"
  selectable : String → Bool := fun _ => true

/-- `normalizeDiscountRatioText`. -/
def Pricing.normalizeDiscountRatioText (raw : String) : String :=
  match pricing.newFromString (trimSpace raw) with
  | none => "0.000000"
  | some value => Rounding.stringFixed 6 value

variable (settings : DiscountSettings)

/-- The margin the check works with, as a number and as a text. -/
def Pricing.validateMargin : ℚ × String :=
  let text := pricing.normalizeDiscountRatioText settings.minMarginRatio
  match pricing.newFromString text with
  | none => (0, "0.000000")
  | some value => (value, text)

/-- The number in a column; 0 if it is none. -/
def Pricing.columnValue (raw : String) : ℚ :=
  (pricing.newFromString (trimSpace raw)).getD 0

/-- The complaint about the plan itself. -/
def Pricing.planViolation (plan : DiscountPlan) : Option DiscountValidateViolation :=
  let minDiscount := pricing.columnValue plan.minDiscount
  let baseDiscount := pricing.columnValue plan.baseDiscount
  let minText := Rounding.stringFixed 6 minDiscount
  let baseText := Rounding.stringFixed 6 baseDiscount
  if baseDiscount < minDiscount then
    some
      { scopeType := .plan
        scopeValue := plan.name
        discount := baseText
        reason := .minAboveBase
        detail := s!"方案最低折扣 {minText} 高于基础折扣 {baseText}" }
  else none

/-- The warning about a column that is no number. -/
def Pricing.columnWarning (raw warning : String) : List String :=
  if pricing.newFromString (trimSpace raw) = none then [warning] else []

/-- `ValidateDiscountPlan`, once the plan and the groups are read. -/
def Pricing.validatePlan (plan : DiscountPlan)
    (groups : List String) (channelId : Int) : DiscountValidateResult :=
  let margin := pricing.validateMargin settings
  let reports := (pricing.rulesOf plan.id).map
    (pricing.validateRule groups channelId (pricing.columnValue plan.baseDiscount) margin.1)
  let violations := (pricing.planViolation plan).toList ++ reports.filterMap (·.violation)
  { passed := violations = []
    minMarginRatio := margin.2
    violations := violations
    warnings :=
      pricing.columnWarning plan.minDiscount "方案最低折扣无法解析，已按 0 处理" ++
        pricing.columnWarning plan.baseDiscount "方案基础折扣无法解析，已按 0 处理" ++
        reports.filterMap (·.warning) ++
        if 0 < channelId ∧ ¬ reports.any (·.channelUsed) then
          ["指定的线路不在任何规则的可用范围内，本次没有参与判断"]
        else [] }

/-- `candidateGroups`. -/
def Pricing.candidateGroups (userGroup : String) : List String :=
  if trimSpace userGroup = "" then ["default"]
  else if trimSpace userGroup = "auto" then
    (pricing.autoGroups.filter settings.selectable).reverse.dedup.reverse
  else [trimSpace userGroup]

/-- The groups whose channels are looked at. -/
def Pricing.validateGroups (db : DB) (userId : Int) : Except Err (List String) :=
  if 0 < userId then
    match db.users.find? userId with
    | none => .error (.text "客户不存在")
    | some user => .ok (pricing.candidateGroups settings user.group)
  else .ok ["default"]

/-- `ValidateDiscountPlan`. -/
def validateDiscountPlan (pricing : Pricing) (settings : DiscountSettings) (db : DB)
    (planId userId channelId : Int) : Except Err DiscountValidateResult :=
  match db.discountPlans.find? planId with
  | none => .error (.text "折扣方案不存在")
  | some row =>
    match pricing.validateGroups settings db userId with
    | .error e => .error e
    | .ok groups => .ok (pricing.validatePlan settings row.normalizeDefaults groups channelId)

/-! ### The budget of routing -/

/-- The ratio `ResolveBillingDiscount` bills at for a resolved discount; what
is no discount is 1. -/
def Pricing.billingRatio (discount : String) : ℚ :=
  match pricing.newFromString (trimSpace discount) with
  | none => 1
  | some value => if value ≤ 0 ∨ 1 < value then 1 else value

/-- `BuildChannelCostFilter`, for a customer billed at `ratio`. -/
def Pricing.buildChannelCostFilter
    (policy : Option DiscountRoutingPolicy) (ratio : ℚ) : Option ChannelCostFilter :=
  if ratio = 1 then none
  else some (newChannelCostFilter pricing.newFromString settings.minMarginRatio ratio policy)

/-- `ChannelPassesCostBudget`. -/
def Pricing.PassesCostBudget (filter : Option ChannelCostFilter) (c : Channel) : Prop :=
  ∀ f ∈ filter, f.Enabled → f.Passes pricing.newFromString c
deriving Decidable

/-! ### What the loops find -/

/-- `c` is a channel of the model in one of the groups, and the one asked
about if one is.  A name with blanks around it is never looked up. -/
def PriceBook.Serves (channelId : Int) (model : String) (c : Channel) : Prop :=
  trimSpace model = model ∧ model ≠ "" ∧
    (∃ a ∈ book.abilities, a.group ∈ normalizeLookupValues groups ∧ a.enabled = true ∧
      a.model = model ∧ book.channels.find? a.channelId = some c) ∧
    (0 < channelId → c.id = channelId)
deriving Decidable

variable {cost : ℚ} {lines : ScopeLines}

section Lines

variable {book : PriceBook} {channelId : Int} {c : DiscountChannelCandidate}
  {cs : List DiscountChannelCandidate}

/-- The check and routing read the cost of a channel alike. -/
theorem lineCost_build (c : Channel) :
    book.lineCost (buildDiscountChannelCandidate c) = c.knownCost book.newFromString := by
  unfold PriceBook.lineCost buildDiscountChannelCandidate Channel.knownCost
  rcases c.costRatio with - | raw
  · rfl
  dsimp only [Option.bind_some]
  split
  · split
    · rfl
    rename_i hnone hne
    rw [if_neg hne] at hnone
    simp only [Option.bind_some] at hnone
    rw [hnone]
  next cost hcost =>
    split at hcost
    · cases hcost
    rename_i hne
    simp only [Option.bind_some] at hcost
    rw [if_neg hne, hcost]

/-- A candidate the check looks at. -/
def Considered (channelId : Int) (c : DiscountChannelCandidate) : Prop :=
  ¬ (0 < channelId ∧ c.channelId ≠ channelId)

theorem addLine_unknown (channelId : Int)
    (hc : book.lineCost c = none) (lines : ScopeLines) :
    (book.addLine channelId lines c).lowestCost = lines.lowestCost ∧
      (book.addLine channelId lines c).costLines = lines.costLines := by
  unfold PriceBook.addLine
  rw [hc]
  split <;> exact ⟨rfl, rfl⟩

theorem addLine_cost (h : Considered channelId c)
    (hc : book.lineCost c = some cost) (lines : ScopeLines) : book.addLine channelId lines c
      = { channelNames := lines.channelNames ++ [c.channelName]
          lowestCost :=
            if lines.lowestCost = 0 ∨ cost < lines.lowestCost then cost else lines.lowestCost
          costLines := lines.costLines + 1 } := by
  unfold PriceBook.addLine
  rw [if_neg h, hc]

theorem addLine_grows (book : PriceBook) (channelId : Int) (lines : ScopeLines) (c : DiscountChannelCandidate) :
    lines.costLines ≤ (book.addLine channelId lines c).costLines ∧
      (lines.channelNames ≠ [] → (book.addLine channelId lines c).channelNames ≠ []) := by
  unfold PriceBook.addLine
  split
  · exact ⟨le_rfl, id⟩
  split
  · exact ⟨le_rfl, fun _ => append_ne_nil_of_right_ne_nil _ (cons_ne_nil _ _)⟩
  · exact ⟨Nat.le_succ _, fun _ => append_ne_nil_of_right_ne_nil _ (cons_ne_nil _ _)⟩

theorem foldl_addLine_grows (book : PriceBook) (channelId : Int) (cs : List DiscountChannelCandidate)
    (lines : ScopeLines) : lines.costLines ≤ (cs.foldl (book.addLine channelId) lines).costLines ∧
      (lines.channelNames ≠ [] → (cs.foldl (book.addLine channelId) lines).channelNames ≠ []) := by
  induction cs generalizing lines with
  | nil => exact ⟨le_rfl, id⟩
  | cons c rest ih =>
    obtain ⟨hcost, hnames⟩ := addLine_grows book channelId lines c
    obtain ⟨hcost', hnames'⟩ := ih (book.addLine channelId lines c)
    exact ⟨hcost.trans hcost', fun h => hnames' (hnames h)⟩

theorem counted_of_mem
    (hmem : c ∈ cs) (hcons : Considered channelId c) (hc : book.lineCost c = some cost) (lines : ScopeLines) :
    0 < (cs.foldl (book.addLine channelId) lines).costLines ∧
      (cs.foldl (book.addLine channelId) lines).channelNames ≠ [] := by
  induction cs generalizing lines with
  | nil => cases hmem
  | cons first rest ih =>
    rcases mem_cons.mp hmem with rfl | hmem
    · obtain ⟨hcost, hnames⟩ := foldl_addLine_grows book channelId rest
        (book.addLine channelId lines c)
      rw [addLine_cost hcons hc] at hcost hnames
      rw [foldl_cons, addLine_cost hcons hc]
      exact ⟨Nat.lt_of_lt_of_le (Nat.succ_pos _) hcost,
        hnames (append_ne_nil_of_right_ne_nil _ (cons_ne_nil _ _))⟩
    · exact ih hmem _

/-- The lowest cost so far is that of one of the candidates, once a cost is
counted. -/
def LowestSeen (book : PriceBook) (channelId : Int) (cs : List DiscountChannelCandidate)
    (lines : ScopeLines) : Prop :=
  lines.costLines = 0 ∧ lines.lowestCost = 0 ∨
    ∃ c ∈ cs, Considered channelId c ∧ book.lineCost c = some lines.lowestCost

theorem lowestSeen_addLine (h : LowestSeen book channelId cs lines) (hmem : c ∈ cs) :
    LowestSeen book channelId cs (book.addLine channelId lines c) := by
  by_cases hcons : Considered channelId c
  · rcases hcost : book.lineCost c with - | cost
    · obtain ⟨hlow, hlines⟩ := addLine_unknown channelId hcost lines
      unfold LowestSeen
      rw [hlow, hlines]
      exact h
    · rw [addLine_cost hcons hcost]
      refine Or.inr ?_
      split
      · exact ⟨c, hmem, hcons, hcost⟩
      next hkeep =>
        exact h.resolve_left fun hnone => hkeep (Or.inl hnone.2)
  · rw [PriceBook.addLine, if_pos (not_not.mp hcons)]
    exact h

theorem lowestSeen_foldl (cs : List DiscountChannelCandidate) :
    LowestSeen book channelId cs (cs.foldl (book.addLine channelId) {}) :=
  foldlRecOn cs _ (Or.inl ⟨rfl, rfl⟩) fun _ h _ hc => lowestSeen_addLine h hc

theorem mem_lines_iff (hbook : book.Orders) {groups names : List String} {d : DiscountChannelCandidate} :
    (d ∈ names.flatMap (book.candidatesByModels groups names) ∧ Considered channelId d) ↔
      ∃ m ∈ names, ∃ c, book.Serves groups channelId m c ∧ d = buildDiscountChannelCandidate c := by
  have hid : ∀ c, Considered channelId (buildDiscountChannelCandidate c) ↔
      (0 < channelId → c.id = channelId) := by
    intro c
    unfold Considered
    rw [not_and, not_ne_iff]
    rfl
  simp only [mem_flatMap, mem_candidatesByModels hbook]
  constructor
  · rintro ⟨⟨m, hm, hname, c, habilities, rfl⟩, hcons⟩
    obtain ⟨hne, w, -, rfl⟩ := mem_normalizeLookupValues.mp hname
    exact ⟨_, hm, c, ⟨trimSpace_trimSpace w, hne, habilities, (hid c).mp hcons⟩, rfl⟩
  · rintro ⟨m, hm, c, ⟨htrim, hne, habilities, hc⟩, rfl⟩
    refine ⟨⟨m, hm, ?_, c, habilities, rfl⟩, (hid c).mpr hc⟩
    exact mem_normalizeLookupValues.mpr ⟨hne, m, hm, htrim⟩

/-- What the loops find in a range where a channel has a cost: the cheapest
channel there. -/
theorem scopeLines_spec (hbook : book.Orders) {groups names : List String} {m : String} {c : Channel}
    (hm : m ∈ names) (hserves : book.Serves groups channelId m c)
    (hcost : (c.knownCost book.newFromString).isSome) :
    0 < (book.scopeLines groups channelId names).costLines ∧
      (book.scopeLines groups channelId names).channelNames ≠ [] ∧
      ∃ m' ∈ names, ∃ c', book.Serves groups channelId m' c' ∧
        c'.knownCost book.newFromString = some (book.scopeLines groups channelId names).lowestCost := by
  obtain ⟨cost, hcost⟩ := Option.isSome_iff_exists.mp hcost
  obtain ⟨hmem, hcons⟩ := (mem_lines_iff hbook).mpr ⟨m, hm, c, hserves, rfl⟩
  obtain ⟨hlines, hnames⟩ := counted_of_mem hmem hcons ((lineCost_build c).trans hcost) {}
  refine ⟨hlines, hnames, ?_⟩
  obtain ⟨hnone, -⟩ | ⟨d, hd, hdcons, hdcost⟩ :=
    lowestSeen_foldl (names.flatMap (book.candidatesByModels groups names))
  · exact absurd hnone hlines.ne'
  · obtain ⟨m', hm', c', hserves', rfl⟩ := (mem_lines_iff hbook).mp ⟨hd, hdcons⟩
    exact ⟨m', hm', c', hserves', (lineCost_build c').symm.trans hdcost⟩

end Lines

/-! ### The check against the budget -/

/-- `x` written with six places reads back as `x`: it has no more. -/
def Pricing.SixPlaces (x : ℚ) : Prop :=
  pricing.newFromString (Rounding.stringFixed 6 x) = some x
deriving Decidable

/-- The base discount and the margin are numbers as their columns keep them,
and the margin is not negative; `0.000000` is zero. -/
structure Pricing.Plain (pricing : Pricing) (settings : DiscountSettings) (plan : DiscountPlan) :
    Prop where
  base : ∀ x, pricing.newFromString (trimSpace plan.baseDiscount) = some x → pricing.SixPlaces x
  margin : ∀ x, pricing.newFromString (trimSpace settings.minMarginRatio) = some x →
    0 ≤ x ∧ pricing.SixPlaces x
  zero : pricing.SixPlaces 0

variable {rule : DiscountRule} {channelId : Int}

section Budget

variable {pricing : Pricing} {settings : DiscountSettings} {plan : DiscountPlan}

theorem trimSpace_stringFixed (places : ℕ) (x : ℚ) :
    trimSpace (Rounding.stringFixed places x) = Rounding.stringFixed places x := by
  refine trimSpace_eq_self fun c hc => ?_
  obtain hdigit | rfl | rfl := Rounding.mem_stringFixed hc
  · have hrange : 48 ≤ c.toNat ∧ c.toNat ≤ 57 := by
      simp only [Char.isDigit, Bool.and_eq_true, decide_eq_true_eq] at hdigit
      exact ⟨hdigit.1, hdigit.2⟩
    unfold isSpace
    simp only [Bool.or_eq_false_iff, Bool.and_eq_false_iff, decide_eq_false_iff_not]
    omega
  · rfl
  · rfl

theorem validateMargin_eq (h : pricing.Plain settings plan) (ratio : ℚ)
    (policy : Option DiscountRoutingPolicy) : (pricing.validateMargin settings).1
      = (newChannelCostFilter pricing.newFromString settings.minMarginRatio ratio policy).minMarginRatio := by
  have hzero : pricing.newFromString "0.000000" = some 0 := by
    rw [show "0.000000" = Rounding.stringFixed 6 0 by decide +kernel]
    exact h.zero
  unfold Pricing.validateMargin Pricing.normalizeDiscountRatioText newChannelCostFilter
  dsimp only
  rcases hmargin : pricing.newFromString (trimSpace settings.minMarginRatio) with - | x
  · rw [hzero]
  obtain ⟨hnonneg, hsix⟩ := h.margin x hmargin
  dsimp only
  rw [show pricing.newFromString (Rounding.stringFixed 6 x) = some x from hsix]
  rcases hnonneg.lt_or_eq with hx | rfl
  · rw [if_pos hx]
  · rw [if_neg (lt_irrefl 0)]

theorem validateMargin_nonneg (h : pricing.Plain settings plan) :
    0 ≤ (pricing.validateMargin settings).1 := by
  rw [validateMargin_eq h 0 none]
  unfold newChannelCostFilter
  split
  · exact le_rfl
  split
  · exact le_of_lt ‹_›
  · exact le_rfl

/-- A cost that the check lets pass is within the budget of a customer who
pays what the plan says. -/
theorem passes_of_le_floor (h : pricing.Plain settings plan) {c : Channel}
    (hcost : c.knownCost pricing.newFromString = some cost)
    (hfloor : cost ≤ pricing.columnValue plan.baseDiscount - (pricing.validateMargin settings).1)
    (policy : Option DiscountRoutingPolicy) (m : String) : pricing.PassesCostBudget
      (pricing.buildChannelCostFilter settings policy
        (pricing.billingRatio (pricing.termsOf m (some plan)).1)) c := by
  have hpos := knownCost_pos hcost
  have hmargin := validateMargin_nonneg h
  unfold Pricing.columnValue at hfloor
  show pricing.PassesCostBudget (pricing.buildChannelCostFilter settings policy
    (pricing.billingRatio (pricing.formatResolvedDiscount plan.baseDiscount))) c
  unfold Pricing.formatResolvedDiscount
  rcases hbase : pricing.newFromString (trimSpace plan.baseDiscount) with - | base
  · -- without a base discount the check lets no cost pass
    rw [hbase, Option.getD_none] at hfloor
    exact absurd hfloor (by linarith)
  rw [hbase] at hfloor
  have hsix : pricing.newFromString (Rounding.stringFixed 6 base) = some base := h.base base hbase
  unfold Pricing.billingRatio
  rw [trimSpace_stringFixed, hsix]
  dsimp only
  unfold Pricing.buildChannelCostFilter
  by_cases hrange : base ≤ 0 ∨ 1 < base
  · rw [if_pos hrange]
    exact nofun
  rw [if_neg hrange]
  intro f hf _
  split at hf
  · cases hf
  obtain rfl := Option.some.inj (Option.mem_def.mp hf)
  refine ⟨cost, hcost, ?_⟩
  unfold ChannelCostFilter.budget
  rw [← validateMargin_eq h]
  exact hfloor

/-- What a check without complaint says of an enabled rule. -/
theorem validateRule_violation_none {groups : List String} {base margin : ℚ} (henabled : rule.enabled = true)
    (h : (pricing.validateRule groups channelId base margin rule).violation = none) :
    let lines := pricing.scopeLines groups channelId
      (pricing.getDiscountScopeModelNames rule.scopeType (trimSpace rule.scopeValue))
    lines.channelNames = [] ∨ lines.costLines = 0 ∨ lines.lowestCost ≤ base - margin := by
  unfold Pricing.validateRule at h
  rw [if_neg (by rw [henabled]; exact Bool.noConfusion)] at h
  dsimp only at h ⊢
  split at h
  · exact absurd h (Option.some_ne_none _)
  split at h
  next hnames =>
    exact Or.inl hnames
  split at h
  next hlines =>
    exact Or.inr (Or.inl hlines)
  split at h
  · exact absurd h (Option.some_ne_none _)
  next hfloor =>
    exact Or.inr (Or.inr (not_lt.mp hfloor))

theorem violation_none_of_passed {groups : List String}
    (h : (pricing.validatePlan settings plan groups channelId).passed = true)
    (hrule : rule ∈ pricing.rulesOf plan.id) :
    (pricing.validateRule groups channelId (pricing.columnValue plan.baseDiscount)
      (pricing.validateMargin settings).1 rule).violation = none := by
  have hnil := append_eq_nil_iff.mp (of_decide_eq_true h)
  exact filterMap_eq_nil_iff.mp hnil.2 _ (mem_map_of_mem hrule)

theorem getDiscountScopeModelNames_trim (scopeType : DiscountScope) (scopeValue : String) :
    pricing.getDiscountScopeModelNames scopeType (trimSpace scopeValue)
      = pricing.getDiscountScopeModelNames scopeType scopeValue := by
  unfold Pricing.getDiscountScopeModelNames
  rw [trimSpace_trimSpace]

end Budget

/-- **A plan that passes the check is routable rule by rule**: if any channel
of any model in the range of an enabled rule has a recorded cost, one of them
is within the budget of a customer who pays what the plan says. -/
theorem validated_rule_is_routable {pricing : Pricing} (hbook : pricing.toPriceBook.Orders)
    {settings : DiscountSettings} {db : DB} {planId userId channelId : Int}
    {result : DiscountValidateResult} {row : DiscountPlan} {groups : List String}
    (hrun : validateDiscountPlan pricing settings db planId userId channelId = .ok result)
    (hpassed : result.passed = true) (hrow : db.discountPlans.find? planId = some row)
    (hgroups : pricing.validateGroups settings db userId = .ok groups)
    (hplain : pricing.Plain settings row.normalizeDefaults) {rule : DiscountRule}
    (hrule : rule ∈ pricing.rulesOf planId) (henabled : rule.enabled = true) {m : String} {c : Channel}
    (hm : m ∈ pricing.getDiscountScopeModelNames rule.scopeType rule.scopeValue)
    (hserves : pricing.Serves groups channelId m c)
    (hcost : (c.knownCost pricing.newFromString).isSome) (policy : Option DiscountRoutingPolicy) :
    ∃ m' ∈ pricing.getDiscountScopeModelNames rule.scopeType rule.scopeValue, ∃ c',
      pricing.Serves groups channelId m' c' ∧ pricing.PassesCostBudget
          (pricing.buildChannelCostFilter settings policy
            (pricing.billingRatio (pricing.termsOf m' (some row.normalizeDefaults)).1)) c' := by
  have hresult : pricing.validatePlan settings row.normalizeDefaults groups channelId = result := by
    unfold validateDiscountPlan at hrun
    rw [hrow, hgroups] at hrun
    exact Except.ok.inj hrun
  have hid : row.id = planId := Table.key_of_find? hrow
  rw [← hresult] at hpassed
  have hnone := validateRule_violation_none henabled
    (violation_none_of_passed hpassed (show rule ∈ pricing.rulesOf row.id by rw [hid]; exact hrule))
  obtain ⟨hlines, hnames, m', hm', c', hserves', hlowest⟩ := scopeLines_spec hbook hm hserves hcost
  rw [getDiscountScopeModelNames_trim] at hnone
  obtain hnil | hzero | hfloor := hnone
  · exact absurd hnil hnames
  · exact absurd hzero hlines.ne'
  · exact ⟨m', hm', c', hserves', passes_of_le_floor hplain hlowest hfloor policy m'⟩

/-- A rule over two models, the one with a channel at 0.5 and the other with
one at 0.9. -/
def rangePricing : Pricing where
  channels :=
    ⟨[{ id := 1, name := "a", costRatio := some "0.5" }, { id := 2, name := "b", costRatio := some "0.9" }],
      by decide⟩
  abilities :=
    [{ group := "default", model := "gpt-a", channelId := 1, enabled := true, priority := 0, weight := 0 },
      { group := "default", model := "gpt-b", channelId := 2, enabled := true, priority := 0, weight := 0 }]
  newFromString text :=
    if text = "0" ∨ text = "0.000000" then some 0
    else if text = "0.5" then some (1 / 2)
    else if text = "0.8" ∨ text = "0.800000" then some (4 / 5)
    else if text = "0.9" then some (9 / 10)
    else none
  orderByChannel l := l.insertionSort fun a b => a.2 ≤ b.2
  rules := ⟨[{ id := 1, planId := 7, scopeValue := "gpt-*" }], by decide⟩
  models := ⟨[{ modelName := "gpt-a" }, { modelName := "gpt-b" }], by decide⟩

/-- The plan sells at 0.8. -/
def rangePlan : DiscountPlan := { id := 7, baseDiscount := "0.8" }

def rangeDB : DB where
  discountPlans := ⟨[rangePlan], nodup_singleton _⟩

theorem rangePricing_orders : rangePricing.toPriceBook.Orders := orders_of_insertionSort rfl

theorem rangePlan_plain : rangePricing.Plain {} rangePlan.normalizeDefaults where
  base x hx := by
    have hvalue : rangePricing.newFromString (trimSpace rangePlan.normalizeDefaults.baseDiscount)
        = some (4 / 5) := by decide +kernel
    obtain rfl := Option.mem_unique hvalue hx
    decide +kernel
  margin x hx := by
    have hvalue : rangePricing.newFromString (trimSpace "0") = some 0 := by decide +kernel
    obtain rfl := Option.mem_unique hvalue hx
    exact ⟨le_rfl, by decide +kernel⟩
  zero := by decide +kernel

/-- The cheap model of the range carries the rule through the check. -/
theorem validated_rule_is_routable_in_range :
    ∃ result, validateDiscountPlan rangePricing {} rangeDB 7 0 0 = .ok result ∧ result.passed = true ∧
      ∃ m ∈ rangePricing.getDiscountScopeModelNames .model "gpt-*", ∃ c,
        rangePricing.Serves ["default"] 0 m c ∧ rangePricing.PassesCostBudget
            (rangePricing.buildChannelCostFilter {} none (rangePricing.billingRatio
                (rangePricing.termsOf m (some rangePlan.normalizeDefaults)).1)) c := by
  have hrun : validateDiscountPlan rangePricing {} rangeDB 7 0 0
      = .ok (rangePricing.validatePlan {} rangePlan.normalizeDefaults ["default"] 0) := rfl
  have hpassed : (rangePricing.validatePlan {} rangePlan.normalizeDefaults ["default"] 0).passed
      = true := by decide +kernel
  have hrule : ({ id := 1, planId := 7, scopeValue := "gpt-*" } : DiscountRule)
      ∈ rangePricing.rulesOf 7 := by decide +kernel
  refine ⟨_, hrun, hpassed, ?_⟩
  exact validated_rule_is_routable rangePricing_orders hrun hpassed rfl rfl rangePlan_plain
    hrule rfl (m := "gpt-b") (by decide +kernel)
    (c := { id := 2, name := "b", costRatio := some "0.9" }) (by decide +kernel)
    (by decide +kernel) none

/-- The dear model is in the range of a plan that passes, has a channel with a
recorded cost, and none that a customer of the plan may be sent to. -/
theorem validated_model_unroutable :
    (validateDiscountPlan rangePricing {} rangeDB 7 0 0).toOption.map (·.passed) = some true ∧
      "gpt-b" ∈ rangePricing.getDiscountScopeModelNames .model "gpt-*" ∧
      (rangePricing.scopeOf 7 "gpt-b" "").1 = .model ∧
      (∃ c ∈ rangePricing.channels.rows, rangePricing.Serves ["default"] 0 "gpt-b" c ∧
        (c.knownCost rangePricing.newFromString).isSome) ∧
      ∀ c ∈ rangePricing.channels.rows, rangePricing.Serves ["default"] 0 "gpt-b" c →
        ¬ rangePricing.PassesCostBudget (rangePricing.buildChannelCostFilter {} none
            (rangePricing.billingRatio
              (rangePricing.termsOf "gpt-b" (some rangePlan.normalizeDefaults)).1)) c := by
  decide +kernel

/-! ### The range of a rule and what billing matches -/

/-- Whether billing would match a rule of this scope to a row of the catalogue. -/
def Pricing.matchesRow (scopeType : DiscountScope) (scopeValue : String) (row : ModelMeta) : Bool :=
  match scopeType with
  | .model => matchDiscountScope scopeValue row.modelName
  | .vendor => matchDiscountScope scopeValue ((pricing.vendorOf row).getD "")
  | .other _ => false

/-- The text begins with a blank. -/
def BlankFirst (s : String) : Prop := s.toList.head?.any isSpace = true
deriving Decidable

/-- The range and the match of a model pattern with this start treat `name` alike.
An empty start has no range and matches every name but a blank one; blanks before
the name are taken off by the match only, and blanks at the end of the start by the
range only. -/
def StartSeen (start name : String) : Prop :=
  if start = "" then trimSpace name = ""
  else
    (BlankFirst name → startsWith (trimSpace name) start = false) ∧
      (trimSpace start ≠ start → startsWith name (trimSpace start) = true →
        startsWith (trimSpace name) start = true)
deriving Decidable

/-- The range and the match treat `name`, of a model or a vendor, alike: it has no
blanks around it where that matters, it is no pattern itself, a vendor is not named
by a pattern, and a pattern for models has a start that both see. -/
def ScopeSeen (scopeType : DiscountScope) (value name : String) : Prop :=
  value ≠ "" →
    if (cutStar value).2 = false then trimSpace name = value → name = value
    else if containsText (cutStar value).1 "*" = true then name ≠ value
    else if scopeType = .vendor then
      trimSpace name ≠ "" → startsWith (trimSpace name) (cutStar value).1 = true → name = value
    else StartSeen (cutStar value).1 name
deriving Decidable

section Range

variable {pricing : Pricing} {value name : String} {row : ModelMeta}

theorem matchDiscountScope_iff (scopeValue name : String) :
    matchDiscountScope scopeValue name = true ↔ trimSpace scopeValue ≠ "" ∧ trimSpace name ≠ "" ∧
      if (cutStar (trimSpace scopeValue)).2 = false then trimSpace scopeValue = trimSpace name
      else containsText (cutStar (trimSpace scopeValue)).1 "*" = false ∧
        startsWith (trimSpace name) (cutStar (trimSpace scopeValue)).1 = true := by
  unfold matchDiscountScope
  by_cases h : trimSpace scopeValue = "" ∨ trimSpace name = ""
  · rcases h with h | h <;> simp [h]
  obtain ⟨h₁, h₂⟩ := not_or.mp h
  split_ifs <;> simp_all

theorem startsWith_cutStar (s : String) : startsWith s (cutStar s).1 = true := by
  unfold cutStar startsWith
  split_ifs
  · simpa using dropLast_prefix s.toList
  · simp

theorem not_blankFirst_iff {s : String} : ¬ BlankFirst s ↔ s.toList.dropWhile isSpace = s.toList := by
  rw [dropWhile_eq_self_iff, BlankFirst]
  cases s.toList <;> simp

/-- What begins without a blank ends a text just when it ends it without the blanks
before it. -/
theorem suffix_dropWhile_iff {r : List Char} (hr : r.dropWhile isSpace = r) (m : List Char) :
    r <:+ m.dropWhile isSpace ↔ r <:+ m := by
  induction m with
  | nil => rfl
  | cons c m ih =>
    by_cases hc : isSpace c = true
    · rw [dropWhile_cons_of_pos hc, ih, suffix_cons_iff]
      refine (or_iff_right ?_).symm
      rintro rfl
      exact dropWhile_eq_self_iff.mp hr (Nat.zero_lt_succ _) hc
    · rw [dropWhile_cons_of_neg hc]

theorem prefix_rdropWhile_iff {q : List Char} (hq : q.rdropWhile isSpace = q) (l : List Char) :
    q <+: l.rdropWhile isSpace ↔ q <+: l := by
  have hrev : q.reverse.dropWhile isSpace = q.reverse := reverse_eq_iff.mp hq
  rw [List.rdropWhile, ← reverse_suffix, reverse_reverse, suffix_dropWhile_iff hrev, reverse_suffix]

theorem prefix_congr_head {q l : List Char} (hne : q ≠ []) (h : q <+: l) : l.head? = q.head? := by
  obtain ⟨r, rfl⟩ := h
  exact head?_append_of_ne_nil _ hne

theorem startsWith_iff {s start : String} : startsWith s start = true ↔ start.toList <+: s.toList :=
  isPrefixOf_iff_prefix

/-- **The range of a pattern and its match.** -/
theorem startSeen_iff {start name : String} (hstart : ¬ BlankFirst start) :
    (trimSpace start ≠ "" ∧ startsWith name (trimSpace start) = true ↔
      trimSpace name ≠ "" ∧ startsWith (trimSpace name) start = true) ↔ StartSeen start name := by
  unfold StartSeen
  by_cases hempty : start = ""
  · simp [hempty, trimSpace_empty, startsWith]
  rw [if_neg hempty]
  have hfront := not_blankFirst_iff.mp hstart
  have hcut : (trimSpace start).toList = start.toList.rdropWhile isSpace := by
    rw [toList_trimSpace, hfront]
  have hne : (trimSpace start).toList ≠ [] := by
    rw [hcut]
    intro h
    have hblank := dropWhile_eq_nil_iff.mpr (rdropWhile_eq_nil_iff.mp h)
    exact hempty (String.toList_eq_nil_iff.mp (hfront.symm.trans hblank))
  -- the trimmed start is how the start begins, and has no blanks around it
  have hinit : (trimSpace start).toList <+: start.toList := by
    rw [hcut]
    exact rdropWhile_prefix _ _
  have hfilled : startsWith (trimSpace name) start = true → trimSpace name ≠ "" := by
    intro h hname
    rw [hname, startsWith_iff] at h
    exact hempty (String.toList_eq_nil_iff.mp (prefix_nil.mp h))
  have hcut_ne : trimSpace start ≠ "" := fun h => hne (String.toList_eq_nil_iff.mpr h)
  by_cases hname : BlankFirst name
  · have hout : ¬ startsWith name (trimSpace start) = true := by
      rw [startsWith_iff]
      intro h
      rw [BlankFirst, prefix_congr_head hne h, ← prefix_congr_head hne hinit] at hname
      exact hstart hname
    refine ⟨fun h => ⟨fun _ => Bool.eq_false_iff.mpr fun hm => ?_, fun _ hin => absurd hin hout⟩, fun h => ?_⟩
    · exact hout (h.mpr ⟨hfilled hm, hm⟩).2
    · exact ⟨fun hin => absurd hin.2 hout, fun hm => absurd hm.2 (Bool.eq_false_iff.mp (h.1 hname))⟩
  · have hsame : startsWith name (trimSpace start) = true ↔
        startsWith (trimSpace name) (trimSpace start) = true := by
      have hname := not_blankFirst_iff.mp hname
      rw [startsWith_iff, startsWith_iff, hcut, toList_trimSpace, hname]
      exact (prefix_rdropWhile_iff (rdropWhile_idempotent _ _) _).symm
    refine ⟨fun h => ⟨fun hblank => absurd hblank hname, fun _ hin => (h.mp ⟨hcut_ne, hin⟩).2⟩,
      fun h => ⟨fun hin => ?_, fun hm => ?_⟩⟩
    · have hm : startsWith (trimSpace name) start = true := by
        by_cases hcutSelf : trimSpace start = start
        · rw [← hcutSelf]
          exact hsame.mp hin.2
        · exact h.2 hcutSelf hin.2
      exact ⟨hfilled hm, hm⟩
    · exact ⟨hcut_ne, hsame.mpr (startsWith_iff.mpr (hinit.trans (startsWith_iff.mp hm.2)))⟩

theorem not_blankFirst_cutStar {value : String} (hself : trimSpace value = value) :
    ¬ BlankFirst (cutStar value).1 := by
  intro hblank
  have hne : (cutStar value).1.toList ≠ [] := by
    intro h
    rw [BlankFirst, h] at hblank
    cases hblank
  rw [BlankFirst, ← prefix_congr_head hne (startsWith_iff.mp (startsWith_cutStar value))] at hblank
  exact not_blankFirst_iff.mpr (hself ▸ front_trimSpace value) hblank

/-- A name is in the range of a value: it is the value, or has the start of a model pattern. -/
def InRange (scopeType : DiscountScope) (value name : String) : Prop :=
  if (cutStar value).2 = true ∧ containsText (cutStar value).1 "*" = false ∧ scopeType = .model then
    trimSpace (cutStar value).1 ≠ "" ∧ startsWith name (trimSpace (cutStar value).1) = true
  else name = value

theorem mem_modelRange_iff (hrow : row ∈ pricing.models.rows) (scopeValue : String) :
    row.modelName ∈ pricing.getDiscountScopeModelNames .model scopeValue ↔
      trimSpace scopeValue ≠ "" ∧ InRange .model (trimSpace scopeValue) row.modelName := by
  unfold Pricing.getDiscountScopeModelNames InRange Pricing.findDiscountModelNamesByPrefix
  dsimp only
  split_ifs with hempty hstar hstart <;> try simp_all
  intro _
  exact ⟨row, hrow, rfl⟩

theorem mem_vendorRange_iff (hids : ∀ v ∈ pricing.vendors.rows, 0 < v.id) (hrow : row ∈ pricing.models.rows)
    (scopeValue : String) : row.modelName ∈ pricing.getDiscountScopeModelNames .vendor scopeValue ↔
      trimSpace scopeValue ≠ "" ∧ InRange .vendor (trimSpace scopeValue) ((pricing.vendorOf row).getD "") := by
  unfold Pricing.getDiscountScopeModelNames InRange Pricing.findDiscountModelNamesByVendorName
  have hself := trimSpace_trimSpace scopeValue
  generalize trimSpace scopeValue = value at hself
  by_cases hvalue : value = ""
  · simp [hvalue]
  rw [if_neg hvalue, hself, if_neg hvalue, mem_insertionSort, if_neg (by simp), and_iff_right hvalue]
  unfold Pricing.vendorOf
  constructor
  · intro h
    obtain ⟨row', hrow', hname⟩ := mem_map.mp h
    obtain ⟨hin, hvendor⟩ := mem_filter.mp hrow'
    obtain rfl := inj_on_of_nodup_map pricing.models.nodup hin hrow hname
    obtain ⟨v, hv, hid⟩ := mem_map.mp (of_decide_eq_true hvendor)
    obtain ⟨hv, hvname⟩ := mem_filter.mp hv
    rw [if_pos (hid ▸ hids v hv), Table.find?_eq_some_iff.mpr ⟨hv, hid⟩]
    exact of_decide_eq_true hvname
  · intro h
    refine mem_map_of_mem (mem_filter.mpr ⟨hrow, decide_eq_true ?_⟩)
    split_ifs at h with hpos
    · rcases hfind : pricing.vendors.find? row.vendorId with - | v
      · rw [hfind] at h
        exact absurd h.symm hvalue
      obtain ⟨hv, hid⟩ := Table.find?_eq_some_iff.mp hfind
      rw [hfind] at h
      exact mem_map.mpr ⟨v, mem_filter.mpr ⟨hv, decide_eq_true h⟩, hid⟩
    · exact absurd h.symm hvalue

/-- The two readings of one value. -/
theorem inRange_iff_match (hself : trimSpace value = value) {scopeType : DiscountScope}
    (hscope : scopeType = .model ∨ scopeType = .vendor) :
    (value ≠ "" ∧ InRange scopeType value name ↔ matchDiscountScope value name = true) ↔
      ScopeSeen scopeType value name := by
  have hown : name = value → trimSpace name = value := fun heq => by rw [heq, hself]
  rw [matchDiscountScope_iff, hself]
  unfold InRange ScopeSeen
  by_cases hvalue : value = ""
  · simp [hvalue]
  by_cases hstar : (cutStar value).2 = false
  · -- a plain value: only blanks around the name can matter
    simp only [hstar, ne_eq, hvalue, not_false_eq_true, true_and, forall_true_left]
    exact ⟨fun h htrim => h.mpr ⟨htrim ▸ hvalue, htrim.symm⟩,
      fun h => ⟨fun heq => ⟨hown heq ▸ hvalue, (hown heq).symm⟩, fun hm => h hm.2.symm⟩⟩
  by_cases htwo : containsText (cutStar value).1 "*" = true
  · simp [hstar, htwo]
  have hone : containsText (cutStar value).1 "*" = false := by simpa using htwo
  have hstart := startsWith_cutStar value
  rcases hscope with rfl | rfl
  · simpa [hstar, hone, hvalue] using startSeen_iff (not_blankFirst_cutStar hself)
  rw [if_neg (by simp), if_neg hstar, if_neg hstar, if_neg htwo]
  constructor
  · exact fun h _ hne hs => (h.mpr ⟨hvalue, hne, hone, hs⟩).2
  · refine fun h => ⟨fun hm => ?_, fun hm => ⟨hvalue, h hvalue hm.2.1 hm.2.2.2⟩⟩
    rw [hown hm.2]
    exact ⟨hvalue, hvalue, hone, hstart⟩

/-- **Range and match** agree on a model of the catalogue just when they see its
name, or its vendor's, alike. -/
theorem scopeRange_agrees_iff (hids : ∀ v ∈ pricing.vendors.rows, 0 < v.id) (hrow : row ∈ pricing.models.rows)
    (scopeType : DiscountScope) (scopeValue : String) :
    (row.modelName ∈ pricing.getDiscountScopeModelNames scopeType scopeValue ↔
        pricing.matchesRow scopeType scopeValue row = true) ↔
      match scopeType with
      | .model => ScopeSeen .model (trimSpace scopeValue) row.modelName
      | .vendor => ScopeSeen .vendor (trimSpace scopeValue) ((pricing.vendorOf row).getD "")
      | .other _ => True := by
  have hself := trimSpace_trimSpace scopeValue
  have htrim : ∀ name, matchDiscountScope scopeValue name = matchDiscountScope (trimSpace scopeValue) name := by
    intro name
    unfold matchDiscountScope
    rw [hself]
  cases scopeType with
  | model =>
    rw [mem_modelRange_iff hrow, Pricing.matchesRow, htrim]
    exact inRange_iff_match hself (.inl rfl)
  | vendor =>
    rw [mem_vendorRange_iff hids hrow, Pricing.matchesRow, htrim]
    exact inRange_iff_match hself (.inr rfl)
  | other => simp [Pricing.getDiscountScopeModelNames, Pricing.matchesRow]

end Range

/-- A catalogue with a model of the vendor `Anthropic`. -/
def vendorPricing : Pricing :=
  { rangePricing with
    models := ⟨[{ modelName := "claude", vendorId := 3 }], nodup_singleton _⟩
    vendors := ⟨[{ id := 3, name := "Anthropic" }], nodup_singleton _⟩ }

theorem scopeRange_agrees_on_name :
    ("claude" ∈ vendorPricing.getDiscountScopeModelNames .vendor " Anthropic" ↔
      vendorPricing.matchesRow .vendor " Anthropic" { modelName := "claude", vendorId := 3 } = true) ∧
    ("claude" ∈ vendorPricing.getDiscountScopeModelNames .model "cla*" ↔
      vendorPricing.matchesRow .model "cla*" { modelName := "claude", vendorId := 3 } = true) := by
  have hagrees := @scopeRange_agrees_iff vendorPricing { modelName := "claude", vendorId := 3 }
    (by simp [vendorPricing]) (by simp [vendorPricing])
  have hvendor : ScopeSeen .vendor (trimSpace " Anthropic") "Anthropic" := by decide +kernel
  have hmodel : ScopeSeen .model (trimSpace "cla*") "claude" := by decide +kernel
  exact ⟨(hagrees .vendor " Anthropic").mpr hvendor, (hagrees .model "cla*").mpr hmodel⟩

/-- A pattern for vendors, and a star alone, match in billing and have no range. -/
theorem scopeRange_patterns :
    vendorPricing.matchesRow .vendor "Anthro*" { modelName := "claude", vendorId := 3 } = true ∧
      vendorPricing.getDiscountScopeModelNames .vendor "Anthro*" = [] ∧
      vendorPricing.matchesRow .model "*" { modelName := "claude", vendorId := 3 } = true ∧
      vendorPricing.getDiscountScopeModelNames .model "*" = [] := by
  decide +kernel

end MicrossApi
