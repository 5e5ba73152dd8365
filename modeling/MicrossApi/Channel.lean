/-
MicrossApi/Channel.lean

Upstream channels, the abilities written for them and the cost filter of a
discounted customer (model/channel.go, model/ability.go,
model/channel_cost_filter.go, model/discount_routing_policy.go).

A channel serves the models and the groups it lists, separated by commas; an
ability is one such pair.  Its cost is the ratio at which the platform buys,
kept as text.  A customer billed at a ratio below 1 is only sent to channels
whose recorded cost leaves the platform its margin.

Ratios are exact decimals.  Weights are natural numbers and their sums do not
wrap.
-/
import Mathlib.Data.List.Sort
import MicrossApi.Database
import MicrossApi.Rounding

namespace MicrossApi

open List

/-! ### Lists in a column -/

/-- The pieces of a text between commas. -/
def splitChars : List Char → List (List Char)
  | [] => [[]]
  | c :: rest =>
    if c = ',' then [] :: splitChars rest
    else
      match splitChars rest with
      | [] => [[c]]
      | piece :: pieces => (c :: piece) :: pieces

/-- `strings.Split(s, ",")`. -/
def splitComma (s : String) : List String := (splitChars s.toList).map String.ofList

theorem splitComma_ne_nil (s : String) : splitComma s ≠ [] := by
  have hchars : splitChars s.toList ≠ [] := by
    cases s.toList with
    | nil => exact cons_ne_nil _ _
    | cons =>
      unfold splitChars
      split
      · exact cons_ne_nil _ _
      split <;> exact cons_ne_nil _ _
  unfold splitComma
  rwa [ne_eq, map_eq_nil_iff]

/-! ### Channels and abilities -/

/-- `ChannelStatus…`. -/
inductive ChannelStatus where
  | unknown
  | enabled
  | manuallyDisabled
  | autoDisabled
deriving DecidableEq, Repr

/-- `constant.ChannelTypeAdvancedCustom`. -/
def channelTypeAdvancedCustom : Int := 58

/-- A row of `channels`. -/
structure Channel where
  id : Int
  name : String := ""
  type : Int := 0
  status : ChannelStatus := .enabled
  models : String := ""
  group : String := "default"
  priority : Option Int := none
  weight : Option Nat := none
  costRatio : Option String := none
deriving DecidableEq, Repr

variable (c : Channel)

/-- `GetPriority`. -/
def Channel.getPriority : Int := c.priority.getD 0

/-- `GetWeight`. -/
def Channel.getWeight : Nat := c.weight.getD 0

/-- A row of `abilities`; the column's default replaces a missing priority. -/
structure Ability where
  group : String
  model : String
  channelId : Int
  enabled : Bool
  priority : Int
  weight : Nat
deriving DecidableEq, Repr

/-- The ability of `c` for one pair. -/
def Channel.ability (group model : String) : Ability where
  group := group
  model := model
  channelId := c.id
  enabled := c.status = .enabled
  priority := c.getPriority
  weight := c.getWeight

/-- The pairs in the order of the loops, the models outside. -/
def Channel.pairs : List (String × String) :=
  (splitComma c.models).flatMap fun model => (splitComma c.group).map fun group => (group, model)

/-- One round of the loop: a key that was seen is skipped. -/
def Channel.addAbility (acc : List String × List Ability)
    (pair : String × String) : List String × List Ability :=
  if pair.1 ++ "|" ++ pair.2 ∈ acc.1 then acc
  else ((pair.1 ++ "|" ++ pair.2) :: acc.1, acc.2 ++ [c.ability pair.1 pair.2])

/-- The rows of `AddAbilities`. -/
def Channel.addAbilities : List Ability :=
  (c.pairs.foldl c.addAbility ([], [])).2

/-- `c` lists the group and the model. -/
def Channel.Lists (group model : String) : Prop :=
  group ∈ splitComma c.group ∧ model ∈ splitComma c.models
deriving Decidable

variable {c : Channel}

theorem mem_pairs {group model : String} : (group, model) ∈ c.pairs ↔ c.Lists group model := by
  unfold Channel.pairs Channel.Lists
  simp only [mem_flatMap, mem_map, Prod.mk.injEq]
  constructor
  · rintro ⟨m, hm, g, hg, rfl, rfl⟩
    exact ⟨hg, hm⟩
  · rintro ⟨hg, hm⟩
    exact ⟨model, hm, group, hg, rfl, rfl⟩

variable {a : Ability} {pairs : List (String × String)}

theorem mem_foldl_addAbility {acc : List String × List Ability}
    (h : a ∈ (pairs.foldl c.addAbility acc).2) : a ∈ acc.2 ∨ ∃ pair ∈ pairs, a = c.ability pair.1 pair.2 := by
  induction pairs generalizing acc with
  | nil => exact Or.inl h
  | cons pair rest ih =>
    obtain hacc | ⟨pair', hmem, ha⟩ := ih h
    · unfold Channel.addAbility at hacc
      split at hacc
      · exact Or.inl hacc
      rcases mem_append.mp hacc with hacc | hacc
      · exact Or.inl hacc
      · exact Or.inr ⟨pair, mem_cons_self, mem_singleton.mp hacc⟩
    · exact Or.inr ⟨pair', mem_cons_of_mem _ hmem, ha⟩

theorem mem_addAbilities (h : a ∈ c.addAbilities) :
    c.Lists a.group a.model ∧ a = c.ability a.group a.model := by
  obtain hnil | ⟨⟨group, model⟩, hpair, rfl⟩ := mem_foldl_addAbility h
  · cases hnil
  · exact ⟨mem_pairs.mp hpair, rfl⟩

/-- Every key seen is that of an ability written. -/
def Keyed (acc : List String × List Ability) : Prop :=
  ∀ key ∈ acc.1, ∃ a ∈ acc.2, a.group ++ "|" ++ a.model = key

variable {acc : List String × List Ability}

theorem mem_addAbility_of_mem (h : a ∈ acc.2) (pair : String × String) : a ∈ (c.addAbility acc pair).2 := by
  unfold Channel.addAbility
  split
  · exact h
  · exact mem_append_left _ h

theorem mem_foldl_of_mem
    (h : a ∈ acc.2) (pairs : List (String × String)) : a ∈ (pairs.foldl c.addAbility acc).2 := by
  induction pairs generalizing acc with
  | nil => exact h
  | cons pair rest ih => exact ih (mem_addAbility_of_mem h pair)

theorem keyed_addAbility (h : Keyed acc) (pair : String × String) : Keyed (c.addAbility acc pair) ∧
      ∃ a ∈ (c.addAbility acc pair).2, a.group ++ "|" ++ a.model = pair.1 ++ "|" ++ pair.2 := by
  unfold Channel.addAbility
  split
  next hseen =>
    exact ⟨h, h _ hseen⟩
  have hnew : c.ability pair.1 pair.2 ∈ acc.2 ++ [c.ability pair.1 pair.2] :=
    mem_append_right _ (mem_singleton.mpr rfl)
  refine ⟨fun key hkey => ?_, ⟨_, hnew, rfl⟩⟩
  rcases mem_cons.mp hkey with rfl | hkey
  · exact ⟨_, hnew, rfl⟩
  · obtain ⟨a, ha, hk⟩ := h key hkey
    exact ⟨a, mem_append_left _ ha, hk⟩

theorem exists_ability_of_pair (h : Keyed acc) {pair : String × String} (hpair : pair ∈ pairs) :
    ∃ a ∈ (pairs.foldl c.addAbility acc).2, a.group ++ "|" ++ a.model = pair.1 ++ "|" ++ pair.2 := by
  induction pairs generalizing acc with
  | nil => cases hpair
  | cons first rest ih =>
    obtain ⟨hkeyed, a, ha, hkey⟩ := keyed_addAbility (c := c) h first
    rcases mem_cons.mp hpair with rfl | hpair
    · exact ⟨a, mem_foldl_of_mem ha rest, hkey⟩
    · exact ih hkeyed hpair

/-- Every group of a channel has an ability, whatever its name: two keys can
only collide over different models, and the first model comes first.  So
`InitChannelCache`, which takes its groups from the abilities, has a map for
every group it files a channel under. -/
theorem exists_ability_of_group {group : String} (h : group ∈ splitComma c.group) :
    ∃ a ∈ c.addAbilities, a.group = group := by
  obtain ⟨model, models, hmodels⟩ := exists_cons_of_ne_nil (splitComma_ne_nil c.models)
  have hpairs : c.pairs = (splitComma c.group).map (fun g => (g, model)) ++
      models.flatMap fun m => (splitComma c.group).map fun g => (g, m) := by
    unfold Channel.pairs
    rw [hmodels, flatMap_cons]
  have hstart : Keyed ([], []) := fun _ h => by cases h
  obtain ⟨a, ha, hkey⟩ := exists_ability_of_pair (c := c) hstart
    (mem_map.mpr ⟨group, h, rfl⟩ : (group, model) ∈ (splitComma c.group).map fun g => (g, model))
  have hmodel : a.model = model := by
    obtain hnil | ⟨pair, hpair, rfl⟩ := mem_foldl_addAbility ha
    · cases hnil
    · obtain ⟨g, -, rfl⟩ := mem_map.mp hpair
      rfl
  refine ⟨a, ?_, ?_⟩
  · unfold Channel.addAbilities
    rw [hpairs, foldl_append]
    exact mem_foldl_of_mem ha _
  · rw [hmodel] at hkey
    simpa using hkey

/-! ### Cost -/

variable (newFromString : String → Option ℚ)

/-- `channelCostRatio`: a cost that is missing, no number or not positive is
unknown. -/
def Channel.knownCost (c : Channel) : Option ℚ :=
  match c.costRatio with
  | none => none
  | some raw =>
    if trimSpace raw = "" then none
    else
      match newFromString (trimSpace raw) with
      | none => none
      | some parsed => if parsed ≤ 0 then none else some parsed

theorem knownCost_pos {newFromString : String → Option ℚ} {cost : ℚ}
    (h : c.knownCost newFromString = some cost) : 0 < cost := by
  unfold Channel.knownCost at h
  split at h
  · cases h
  split at h
  · cases h
  split at h
  · cases h
  split at h
  · cases h
  · obtain rfl := Option.some.inj h
    exact not_le.mp ‹_›

/-- `DiscountRoutingPolicy`. -/
structure DiscountRoutingPolicy where
  routingStrategy : String := "margin"
  allowCostBreach : Int := 0
deriving DecidableEq, Repr

/-- `PrioritizesMargin`; no policy is the default one. -/
def prioritizesMargin (policy : Option DiscountRoutingPolicy) : Bool :=
  policy.all fun p => p.routingStrategy ≠ "priority"

/-- `AllowsCostBreach`. -/
def allowsCostBreach (policy : Option DiscountRoutingPolicy) : Bool :=
  policy.any fun p => p.allowCostBreach = 1

/-- `ChannelCostFilter`, without the breach it records. -/
structure ChannelCostFilter where
  sellRatio : ℚ
  minMarginRatio : ℚ := 0
  prioritizeMargin : Bool := true
  allowCostBreach : Bool := false
deriving DecidableEq

/-- `NewChannelCostFilter`; `minMargin` is the operators' setting. -/
def newChannelCostFilter (minMargin : String)
    (sellRatio : ℚ) (policy : Option DiscountRoutingPolicy) : ChannelCostFilter where
  sellRatio := sellRatio
  minMarginRatio :=
    match newFromString (trimSpace minMargin) with
    | none => 0
    | some parsed => if 0 < parsed then parsed else 0
  prioritizeMargin := prioritizesMargin policy
  allowCostBreach := allowsCostBreach policy

variable (f : ChannelCostFilter)

/-- `Enabled`. -/
def ChannelCostFilter.Enabled : Prop := 0 < f.sellRatio ∧ f.sellRatio < 1
deriving Decidable

/-- `budget`. -/
def ChannelCostFilter.budget : ℚ := f.sellRatio - f.minMarginRatio

/-- The recorded cost of `c` is within the budget. -/
def ChannelCostFilter.Passes (c : Channel) : Prop :=
  ∃ cost, c.knownCost newFromString = some cost ∧ cost ≤ f.budget

instance (f : ChannelCostFilter) (newFromString : String → Option ℚ) (c : Channel) :
    Decidable (f.Passes newFromString c) :=
  decidable_of_iff ((c.knownCost newFromString).any fun cost => cost ≤ f.budget) (by
    simp only [ChannelCostFilter.Passes, Option.any_eq_true, decide_eq_true_eq])

/-- `CostBreach`. -/
structure CostBreach where
  channelId : Int
  channelName : String
  sellRatio : String
  costRatio : String
  lossRatio : String
deriving DecidableEq, Repr

/-- `recordBreach`: nothing is recorded for an unknown cost. -/
def ChannelCostFilter.recordBreach (c : Channel) : Option CostBreach :=
  (c.knownCost newFromString).map fun cost =>
    { channelId := c.id
      channelName := c.name
      sellRatio := Rounding.stringFixed 6 f.sellRatio
      costRatio := Rounding.stringFixed 6 cost
      lossRatio := Rounding.stringFixed 6 (cost - f.sellRatio) }

/-! ### The text of a breach -/

/-- `formatRatioAsDiscount`. -/
def formatRatioAsDiscount (ratio : ℚ) : String := Rounding.stringRounded 4 (ratio * 10)

/-- `formatLossRatio`. -/
def formatLossRatio (loss : ℚ) : String :=
  Rounding.stringFixed 1 ((if loss < 0 then 0 else loss) * 100) ++ " 个百分点"

/-- The parts of the text about losing lines, at most three of them named. -/
def losingParts (sellRatio : ℚ) (lines : List (String × ℚ)) : List String :=
  (lines.take 3).map (fun line =>
      s!"走「{line.1}」（进货 {formatRatioAsDiscount line.2} 折）每单亏 {formatLossRatio (line.2 - sellRatio)}") ++
    if 3 < lines.length then [s!"另有 {lines.length - 3} 条线路同样亏本"] else []

/-- The text about channels none of which passes. -/
def costBreachText (group model : String) (channels : List Channel) (f : ChannelCostFilter) : String :=
  let lines := channels.filterMap fun c => (c.knownCost newFromString).map fun cost => (c.name, cost)
  let unknown := (channels.filter fun c => c.knownCost newFromString = none).length
  let sorted := lines.insertionSort fun a b => a.2 ≤ b.2
  let parts := losingParts f.sellRatio sorted ++
    if 0 < unknown then [s!"另有 {unknown} 条线路未录进货折扣，无法判断是否保本"] else []
  let parts := if parts = [] then ["该模型下没有可用的线路"] else parts
  s!"当前折扣（{formatRatioAsDiscount f.sellRatio} 折）下没有不亏本的上游供应商线路（模型 {model}，分组 {group}）：" ++
    String.intercalate "、" parts ++ "。如需继续使用，请联系管理员为这个账号开通「允许走亏损线路」"

end MicrossApi
