/-
MicrossApi/ChannelRouting.lean

Choosing a channel for a request (model/channel_cache.go, model/ability.go,
model/channel_route_tier.go).  The choice is written twice: once over the
memory cache (`GetRandomSatisfiedChannel`), once over the tables
(`GetChannel`).  Both narrow a list of candidates by request path and by cost
and draw one by weight; they differ in where the list comes from.  The cache
offers every enabled channel that lists the model and builds tiers after the
cost filter; the tables offer only the abilities of the highest priority.

What both do with their list is one specification, `Routed`, so a statement
about either is a statement about its list.
-/
import Mathlib.Algebra.BigOperators.Ring.Finset
import Mathlib.Data.Prod.Lex
import Mathlib.Tactic.Ring
import MicrossApi.Channel
import MicrossApi.WeightedDraw

namespace MicrossApi

open List WeightedDraw

/-! ### The store and its cache -/

/-- The channels, and the abilities `AddAbilities` wrote for them. -/
structure RouteDB where
  channels : Table Channel.id
  abilities : List Ability
  written : ∀ a, a ∈ abilities ↔ ∃ c ∈ channels.rows, a ∈ c.addAbilities

/-- What lies outside: parsing a decimal, whether an Advanced Custom channel
has a route for a path and a model, and how the two sorts order equal
rows. -/
structure RouteEnv where
  newFromString : String → Option ℚ
  supportsPath : Channel → String → String → Bool
  sortByPriority : List Int → List Int
  orderByWeight : List Ability → List Ability

/-- The sorts lose nothing and add nothing. -/
structure RouteEnv.Sorts (env : RouteEnv) : Prop where
  byPriority : ∀ l, (env.sortByPriority l).Perm l
  byWeight : ∀ l, (env.orderByWeight l).Perm l

/-- The maps `InitChannelCache` builds. -/
structure ChannelCache where
  group2model2channels : String → String → List Int
  channelsIDM : Int → Option Channel

/-- The ids a channel enters under a group and a model, once for each time it
lists them. -/
def Channel.entries (c : Channel) (group model : String) : List Int :=
  if c.status = .enabled then
    (splitComma c.group).flatMap fun g =>
      (splitComma c.models).filterMap fun m => if g = group ∧ m = model then some c.id else none
  else []

variable (env : RouteEnv)

/-- `InitChannelCache`. -/
def initChannelCache (db : RouteDB) : ChannelCache where
  group2model2channels group model :=
    env.sortByPriority (db.channels.rows.flatMap fun c => c.entries group model)
  channelsIDM := db.channels.find?

/-! ### Filters -/

/-- Why no channel is chosen. -/
inductive RouteErr where
  | costBreach (message : String)
  | text (message : String)
deriving DecidableEq, Repr

/-- The channel may serve the path; only Advanced Custom channels are
checked. -/
def RouteEnv.servesPath (requestPath model : String) (c : Channel) : Bool :=
  requestPath = "" || c.type ≠ channelTypeAdvancedCustom || env.supportsPath c requestPath model

variable (lookup : Int → Option Channel)

/-- The id is that of a channel that may serve the path; a missing channel is
let through. -/
def servedOrMissing (requestPath model : String) (id : Int) : Bool :=
  (lookup id).all (env.servesPath requestPath model)

/-- `filterChannelsByRequestPathAndModel`. -/
def filterChannelsByRequestPathAndModel (requestPath model : String) (channels : List Int) : List Int :=
  channels.filter (servedOrMissing env lookup requestPath model)

/-- `filterAbilitiesByRequestPathAndModel`. -/
def filterAbilitiesByRequestPathAndModel
    (requestPath model : String) (abilities : List Ability) : List Ability :=
  abilities.filter fun a => servedOrMissing env lookup requestPath model a.channelId

/-- The channel `id` is known and passes the filter. -/
def passesCost (f : ChannelCostFilter) (id : Int) : Bool :=
  (lookup id).any fun c => f.Passes env.newFromString c

/-- `filterChannelsByCost`, and the same over the tables. -/
def filterChannelsByCost (f : ChannelCostFilter) (channels : List Int) : List Int :=
  channels.filter (passesCost env lookup f)

/-- `describeCostBreach`: the channels as they are listed. -/
def describeCostBreach (group model : String) (channels : List Int) (f : ChannelCostFilter) : String :=
  costBreachText env.newFromString group model (channels.filterMap lookup) f

/-- `describeCostBreachDB`: their rows, each once, as the table has them. -/
def describeCostBreachDB (table : Table Channel.id) (group model : String) (channels : List Int)
    (f : ChannelCostFilter) : String :=
  costBreachText env.newFromString group model (table.rows.filter (·.id ∈ channels)) f

variable (costFilter : Option ChannelCostFilter) (describe : List Int → ChannelCostFilter → String)

/-- What the cost filter leaves of the candidates, and whether a loss is
accepted. -/
def narrowByCost (channels : List Int) : Except RouteErr (List Int × Bool) :=
  match costFilter with
  | none => .ok (channels, false)
  | some f =>
    if f.Enabled then
      let kept := filterChannelsByCost env lookup f channels
      if kept = [] then
        if f.allowCostBreach then .ok (channels, true)
        else
          .error (.costBreach (describe channels f))
      else .ok (kept, false)
    else .ok (channels, false)

/-- A chosen channel and the breach recorded for it. -/
structure Selected where
  channel : Channel
  breach : Option CostBreach := none
deriving DecidableEq

/-- The choice of `c`. -/
def select (breaching : Bool) (c : Channel) : Selected where
  channel := c
  breach :=
    if breaching then costFilter.bind fun f => f.recordBreach env.newFromString c else none

/-! ### Tiers -/

/-- A candidate with the keys it is sorted by. -/
structure RouteCandidate where
  channel : Channel
  costRatio : ℚ
  costKnown : Bool
  priority : Int

def routeCandidate (c : Channel) : RouteCandidate where
  channel := c
  costRatio := (c.knownCost env.newFromString).getD 0
  costKnown := (c.knownCost env.newFromString).isSome
  priority := c.getPriority

variable (prioritizeMargin : Bool)

/-- The order of `buildChannelRouteTiers`. -/
def RouteCandidate.before (a b : RouteCandidate) : Bool :=
  if prioritizeMargin then
    if a.costKnown ≠ b.costKnown then a.costKnown
    else if a.costRatio ≠ b.costRatio then a.costRatio < b.costRatio
    else b.priority < a.priority
  else b.priority < a.priority

/-- `channelRouteTier`. -/
structure ChannelRouteTier where
  costRatio : ℚ
  costKnown : Bool
  priority : Int
  channels : List Int

/-- `sameRouteTier`. -/
def sameRouteTier (tier : ChannelRouteTier) (c : RouteCandidate) : Bool :=
  if tier.priority ≠ c.priority then false
  else if prioritizeMargin = false then true
  else if tier.costKnown ≠ c.costKnown then false
  else !c.costKnown || tier.costRatio = c.costRatio

/-- Append a candidate to the last tier, or open another one. -/
def addToTiers (tiers : List ChannelRouteTier) (c : RouteCandidate) : List ChannelRouteTier :=
  match tiers.getLast? with
  | some tier =>
    if sameRouteTier prioritizeMargin tier c then
      tiers.dropLast ++ [{ tier with channels := tier.channels ++ [c.channel.id] }]
    else tiers ++ [⟨c.costRatio, c.costKnown, c.priority, [c.channel.id]⟩]
  | none => [⟨c.costRatio, c.costKnown, c.priority, [c.channel.id]⟩]

/-- The error for an id that has no channel. -/
def missingChannel (id : Int) : RouteErr :=
  .text s!"数据库一致性错误，渠道# {id} 不存在，请联系管理员修复"

/-- The channels of a list of ids; the first missing one is an error. -/
def lookupAll (lookup : Int → Option Channel) : List Int → Except RouteErr (List Channel)
  | [] => .ok []
  | id :: rest =>
    match lookup id with
    | none => .error (missingChannel id)
    | some c => (lookupAll lookup rest).map (c :: ·)

/-- `buildChannelRouteTiers`. -/
def buildChannelRouteTiers (channels : List Int) : Except RouteErr (List ChannelRouteTier) :=
  let prioritizeMargin := costFilter.any (·.prioritizeMargin)
  (lookupAll lookup channels).map fun found =>
    ((found.map (routeCandidate env)).insertionSort
      fun a b => b.before prioritizeMargin a = false).foldl (addToTiers prioritizeMargin) []

/-! ### Choosing from the cache -/

/-- `handleThinkingBudgetModel`. -/
def handleThinkingBudgetModel (name start wildcard : String) : String :=
  if startsWith name start ∧ containsText name "-thinking-" then wildcard else name

/-- `FormatMatchingModelName`. -/
def formatMatchingModelName (name : String) : String :=
  let name :=
    if startsWith name "gemini-2.5-flash-lite" then
      handleThinkingBudgetModel name "gemini-2.5-flash-lite" "gemini-2.5-flash-lite-thinking-*"
    else if startsWith name "gemini-2.5-flash" then
      handleThinkingBudgetModel name "gemini-2.5-flash" "gemini-2.5-flash-thinking-*"
    else if startsWith name "gemini-2.5-pro" then
      handleThinkingBudgetModel name "gemini-2.5-pro" "gemini-2.5-pro-thinking-*"
    else name
  let name := if startsWith name "gpt-4-gizmo" then "gpt-4-gizmo-*" else name
  if startsWith name "gpt-4o-gizmo" then "gpt-4o-gizmo-*" else name

/-- The effective weights of a tier: all zero counts as 100 each, and small
ones are enlarged. -/
def smoothing (channels : List Channel) : Int × Int :=
  let sumWeight := (channels.map (·.getWeight)).sum
  if sumWeight = 0 then (1, 100)
  else if sumWeight / channels.length < 10 then (100, 0)
  else (1, 0)

def smoothedWeight (channels : List Channel) (c : Channel) : Int :=
  c.getWeight * (smoothing channels).1 + (smoothing channels).2

variable (intn : Nat → Nat)

/-- Draw a channel of a tier; `intn n` is a random number below `n`. -/
def drawChannel (channels : List Channel) : Option Channel :=
  let total := (channels.map (smoothedWeight channels)).sum
  pick (· < 0) (smoothedWeight channels) channels (intn total.toNat)

/-- The last part of `GetRandomSatisfiedChannel`, for more than one
candidate. -/
def drawFromTiers (env : RouteEnv) (lookup : Int → Option Channel)
    (costFilter : Option ChannelCostFilter) (breaching : Bool) (group model : String)
    (retry : Nat) (tiers : List ChannelRouteTier) : Except RouteErr (Option Selected) :=
  match tiers[min retry (tiers.length - 1)]? with
  | none => .error (.text s!"no channel found, group: {group}, model: {model}")
  | some tier => do
    let channels ← lookupAll lookup tier.channels
    if channels = [] then
      .error (.text s!"no channel found, group: {group}, model: {model}")
    else
      match drawChannel intn channels with
      | none => .error (.text "channel not found")
      | some c => .ok (some (select env costFilter breaching c))

/-- The candidates of the cache: by the exact name, or by the matching one. -/
def ChannelCache.candidates (cache : ChannelCache) (group model requestPath : String) : List Int :=
  let exact :=
    filterChannelsByRequestPathAndModel env cache.channelsIDM requestPath model
      (cache.group2model2channels group model)
  if exact = [] then
    filterChannelsByRequestPathAndModel env cache.channelsIDM requestPath model
      (cache.group2model2channels group (formatMatchingModelName model))
  else exact

/-- `GetRandomSatisfiedChannel` with the memory cache. -/
def getRandomSatisfiedChannel (env : RouteEnv) (cache : ChannelCache)
    (group model : String) (retry : Nat) (requestPath : String)
    (costFilter : Option ChannelCostFilter) : Except RouteErr (Option Selected) :=
  let channels := cache.candidates env group model requestPath
  if channels = [] then .ok none
  else do
    let (channels, breaching) ← narrowByCost env cache.channelsIDM costFilter
      (describeCostBreach env cache.channelsIDM group model) channels
    match channels with
    | [id] =>
      match cache.channelsIDM id with
      | some c => .ok (some (select env costFilter breaching c))
      | none => .error (missingChannel id)
    | _ =>
      let tiers ← buildChannelRouteTiers env cache.channelsIDM costFilter channels
      drawFromTiers intn env cache.channelsIDM costFilter breaching group model retry tiers

/-! ### Choosing from the tables -/

variable (db : RouteDB) (group model : String)

/-- The enabled abilities for a group and a model. -/
def RouteDB.enabledAbilities : List Ability :=
  db.abilities.filter fun a => a.group = group ∧ a.model = model ∧ a.enabled = true

/-- The priorities in use, the highest first. -/
def RouteDB.priorities : List Int :=
  ((db.enabledAbilities group model).map (·.priority)).dedup.insertionSort (· ≥ ·)

/-- `getPriority`. -/
def getPriority (retry : Nat) : Except RouteErr Int :=
  let priorities := db.priorities group model
  match priorities[min retry (priorities.length - 1)]? with
  | none => .error (.text "数据库一致性被破坏")
  | some priority => .ok priority

/-- `getChannelQuery`: the abilities of one priority, the highest at first. -/
def getChannelQuery (retry : Nat) : Except RouteErr (List Ability) := do
  let abilities := db.enabledAbilities group model
  if retry = 0 then
    .ok (abilities.filter fun a => some a.priority = (abilities.map (·.priority)).max?)
  else
    let priority ← getPriority db group model retry
    .ok (abilities.filter fun a => a.priority = priority)

/-- Draw an ability; every weight counts ten more than it says. -/
def drawAbility (abilities : List Ability) : Option Ability :=
  let weight := fun a : Ability => (a.weight : Int) + 10
  pick (· ≤ 0) weight abilities (intn (abilities.map weight).sum.toNat)

/-- `GetChannel`. -/
def getChannel (env : RouteEnv) (db : RouteDB) (group model : String)
    (retry : Nat) (requestPath : String) (costFilter : Option ChannelCostFilter) :
    Except RouteErr (Option Selected) := do
  let found ← getChannelQuery db group model retry
  let abilities := filterAbilitiesByRequestPathAndModel env db.channels.find? requestPath model
    (env.orderByWeight found)
  if abilities = [] then .ok none
  else
    let (kept, breaching) ←
      narrowByCost env db.channels.find? costFilter (describeCostBreachDB env db.channels group model)
        (abilities.map (·.channelId))
    match drawAbility intn (abilities.filter fun a => a.channelId ∈ kept) with
    | none => .error (.text "record not found")
    | some a =>
      match db.channels.find? a.channelId with
      | none => .error (.text "record not found")
      | some c => .ok (some (select env costFilter breaching c))

/-! ### What both do with their candidates -/

/-- **The routing rule** for the candidates `cands`: without any there is no
channel; if some pass the cost filter one of those is chosen; if none do, one
of all is chosen when a loss is allowed, and otherwise it is an error. -/
structure Routed (lookup : Int → Option Channel) (pass : Int → Bool) (allow : Bool)
    (cands : List Int) (r : Except RouteErr (Option Selected)) : Prop where
  none : cands = [] → r = .ok none
  chosen : cands ≠ [] → (∃ id ∈ cands, pass id) ∨ allow = true →
    ∃ sel, r = .ok (some sel) ∧ lookup sel.channel.id = some sel.channel ∧
      sel.channel.id ∈ cands ∧ ((∃ id ∈ cands, pass id) → pass sel.channel.id)
  breach : cands ≠ [] → (¬ ∃ id ∈ cands, pass id) → allow = false →
    ∃ message, r = .error (.costBreach message)

variable {l : List Int}

section Narrow

variable {env : RouteEnv} {lookup : Int → Option Channel} {f : ChannelCostFilter}
  {describe : List Int → ChannelCostFilter → String} {cands : List Int}

theorem narrowByCost_cases (hf : f.Enabled) : (∃ id ∈ cands, passesCost env lookup f id = true) ∧
        narrowByCost env lookup (some f) describe cands = .ok (filterChannelsByCost env lookup f cands, false) ∨
      (¬ ∃ id ∈ cands, passesCost env lookup f id = true) ∧
        narrowByCost env lookup (some f) describe cands =
          if f.allowCostBreach then .ok (cands, true) else .error (.costBreach (describe cands f)) := by
  have hnil : filterChannelsByCost env lookup f cands = [] ↔
    ¬ ∃ id ∈ cands, passesCost env lookup f id = true := by
    simp [filterChannelsByCost]
  by_cases hpass : ∃ id ∈ cands, passesCost env lookup f id = true
  · exact .inl ⟨hpass, by simp [narrowByCost, hf, hnil, hpass]⟩
  · exact .inr ⟨hpass, by simp [narrowByCost, hf, hnil.mpr hpass]⟩

theorem narrowByCost_subset {costFilter : Option ChannelCostFilter} {b : Bool} (hne : cands ≠ [])
    (h : narrowByCost env lookup costFilter describe cands = .ok (l, b)) : l ≠ [] ∧ ∀ id ∈ l, id ∈ cands := by
  unfold narrowByCost at h
  cases costFilter with
  | none =>
    obtain ⟨rfl, -⟩ : cands = l ∧ false = b := by simpa using h
    exact ⟨hne, fun _ hid => hid⟩
  | some f =>
    dsimp only at h
    split_ifs at h with _ hkept
    · obtain ⟨rfl, -⟩ : cands = l ∧ true = b := by simpa using h
      exact ⟨hne, fun _ hid => hid⟩
    · obtain ⟨rfl, -⟩ : filterChannelsByCost env lookup f cands = l ∧ false = b := by simpa using h
      exact ⟨hkept, fun _ => mem_of_mem_filter⟩
    · obtain ⟨rfl, -⟩ : cands = l ∧ false = b := by simpa using h
      exact ⟨hne, fun _ hid => hid⟩

/-- A result that is one of the narrowed candidates follows the rule. -/
theorem Routed.of_narrow (hf : f.Enabled) (hne : cands ≠ [])
    {next : List Int × Bool → Except RouteErr (Option Selected)}
    (hnext : ∀ l b, l ≠ [] → (∀ id ∈ l, id ∈ cands) →
      ∃ sel, next (l, b) = .ok (some sel) ∧ lookup sel.channel.id = some sel.channel ∧ sel.channel.id ∈ l) :
    Routed lookup (passesCost env lookup f) f.allowCostBreach cands
      (narrowByCost env lookup (some f) describe cands >>= next) := by
  rcases @narrowByCost_cases env lookup f describe cands hf with ⟨⟨id, hid, hp⟩, hrun⟩ | ⟨hpass, hrun⟩
  · rw [hrun]
    obtain ⟨sel, hsel, hrow, hmem⟩ := hnext _ false (ne_nil_of_mem (mem_filter.mpr ⟨hid, hp⟩))
      fun _ => mem_of_mem_filter
    obtain ⟨hcand, hkept⟩ := mem_filter.mp hmem
    refine ⟨fun h => absurd h hne, fun _ _ => ⟨sel, hsel, hrow, hcand, fun _ => hkept⟩, fun _ h => ?_⟩
    exact absurd ⟨id, hid, hp⟩ h
  · rw [hrun]
    refine ⟨fun h => absurd h hne, fun _ h => ?_, fun _ _ h => ?_⟩
    · rw [if_pos (h.resolve_left hpass)]
      obtain ⟨sel, hsel, hrow, hmem⟩ := hnext cands true hne fun _ h => h
      exact ⟨sel, hsel, hrow, hmem, fun h => absurd h hpass⟩
    · rw [h]
      exact ⟨_, rfl⟩

end Narrow

/-! ### Tiers partition the candidates -/

/-- What a channel is sorted by. -/
def routeKey (env : RouteEnv) (margin : Bool) (c : Channel) : WithTop ℚ ×ₗ ℤᵒᵈ :=
  toLex (if margin then (c.knownCost env.newFromString).elim ⊤ (fun cost => ↑cost) else ⊤,
    OrderDual.toDual c.getPriority)

section Tiers

variable {env : RouteEnv} {margin : Bool} {lookup : Int → Option Channel}

theorem lookupAll_ok (h : ∀ id ∈ l, ∃ c, lookup id = some c ∧ c.id = id) :
    ∃ cs, lookupAll lookup l = .ok cs ∧ cs.map (·.id) = l ∧ ∀ c ∈ cs, lookup c.id = some c := by
  induction l with
  | nil => exact ⟨[], rfl, rfl, fun c hc => by cases hc⟩
  | cons id rest ih =>
    obtain ⟨c, hc, hid⟩ := h id mem_cons_self
    obtain ⟨cs, hcs, hids, hrows⟩ := ih fun id' h' => h id' (mem_cons_of_mem _ h')
    refine ⟨c :: cs, ?_, ?_, ?_⟩
    · simp only [lookupAll, hc, hcs]
      rfl
    · rw [map_cons, hid, hids]
    · exact forall_mem_cons.mpr ⟨hid ▸ hc, hrows⟩

theorem before_iff (a b : Channel) : (routeCandidate env a).before margin (routeCandidate env b) = true ↔
      routeKey env margin a < routeKey env margin b := by
  unfold routeKey RouteCandidate.before routeCandidate
  rw [Prod.Lex.toLex_lt_toLex]
  cases margin with
  | false => simp
  | true =>
    rcases a.knownCost env.newFromString with - | x
    · rcases b.knownCost env.newFromString with - | y <;> simp
    rcases b.knownCost env.newFromString with - | y
    · simp
    · by_cases h : x = y <;> simp [h]

/-- The tier that a candidate opens, with these channels. -/
def RouteCandidate.tier (c : RouteCandidate) (channels : List Int) : ChannelRouteTier :=
  ⟨c.costRatio, c.costKnown, c.priority, channels⟩

theorem sameRouteTier_iff (a b : Channel) (channels : List Int) :
    sameRouteTier margin ((routeCandidate env a).tier channels) (routeCandidate env b) = true ↔
      routeKey env margin a = routeKey env margin b := by
  unfold routeKey sameRouteTier routeCandidate RouteCandidate.tier
  cases margin with
  | false => simp
  | true =>
    rcases a.knownCost env.newFromString with - | x
    · rcases b.knownCost env.newFromString with - | y <;> simp
    · rcases b.knownCost env.newFromString with - | y <;> simp [and_comm]

variable {κ : Type*} [LinearOrder κ]

/-- The tier of `x` among the channels seen: all that share its key. -/
def tierFor (env : RouteEnv) (key : Channel → κ) (seen : List Channel) (x : Channel) : ChannelRouteTier :=
  (routeCandidate env x).tier ((seen.filter fun c => key c = key x).map (·.id))

/-- The tiers of the channels seen so far, one for each of the `heads`. -/
structure Tiered (env : RouteEnv) (key : Channel → κ) (seen heads : List Channel)
    (tiers : List ChannelRouteTier) :
    Prop where
  eq : tiers = heads.map (tierFor env key seen)
  ascending : heads.Pairwise fun x y => key x < key y
  mem : ∀ x ∈ heads, x ∈ seen
  covers : ∀ c ∈ seen, ∃ x ∈ heads, key x = key c
  all : tiers.flatMap (·.channels) = seen.map (·.id)

variable {key : Channel → κ} {seen heads : List Channel} {tiers : List ChannelRouteTier} {c : Channel}

theorem tierFor_concat (seen : List Channel) (c x : Channel) : tierFor env key (seen ++ [c]) x =
      if key c = key x then (routeCandidate env x).tier ((tierFor env key seen x).channels ++ [c.id])
      else tierFor env key seen x := by
  unfold tierFor
  split_ifs with h
  · simp [h, RouteCandidate.tier]
  · simp [h]

variable (hsame : ∀ a b l, sameRouteTier margin ((routeCandidate env a).tier l) (routeCandidate env b) = true ↔
  key a = key b)

include hsame

/-- **One more channel**, with a key that is not below the others. -/
theorem tiered_add (h : Tiered env key seen heads tiers) (hc : ∀ x ∈ seen, key x ≤ key c) :
    ∃ heads', Tiered env key (seen ++ [c]) heads' (addToTiers margin tiers (routeCandidate env c)) := by
  obtain ⟨rfl, hasc, hmem, hcovers, hall⟩ := h
  rcases eq_nil_or_concat' heads with rfl | ⟨front, x, rfl⟩
  · obtain rfl : seen = [] := eq_nil_iff_forall_not_mem.mpr fun d hd => by simpa using hcovers d hd
    exact ⟨[c], by simp [addToTiers, tierFor, RouteCandidate.tier, routeCandidate], by simp, by simp, by simp,
      by simp [addToTiers, routeCandidate]⟩
  have hx : key x ≤ key c := hc x (hmem x (by simp))
  have hfront : ∀ y ∈ front, key y < key x :=
    fun y hy => (pairwise_append.mp hasc).2.2 y hy x (by simp)
  have hkept : front.map (tierFor env key (seen ++ [c])) = front.map (tierFor env key seen) := by
    refine map_congr_left fun y hy => ?_
    rw [tierFor_concat, if_neg ((hfront y hy).trans_le hx).ne']
  have hadd : addToTiers margin ((front ++ [x]).map (tierFor env key seen)) (routeCandidate env c) =
      if key x = key c then
        front.map (tierFor env key seen) ++
          [(routeCandidate env x).tier ((tierFor env key seen x).channels ++ [c.id])]
      else (front ++ [x]).map (tierFor env key seen) ++ [(routeCandidate env c).tier [c.id]] := by
    unfold addToTiers
    rw [map_append, map_singleton, getLast?_concat]
    simp only [dropLast_concat]
    exact if_congr (hsame x c _) rfl rfl
  rw [hadd]
  split_ifs with hkey
  · -- the last tier takes the channel
    refine ⟨front ++ [x], ?_, hasc, fun y hy => mem_append_left _ (hmem y hy), ?_, ?_⟩
    · rw [map_append, hkept, map_singleton, tierFor_concat, if_pos hkey.symm]
    · intro d hd
      rcases mem_append.mp hd with hd | hd
      · exact hcovers d hd
      · exact ⟨x, by simp, by rw [mem_singleton.mp hd, hkey]⟩
    · rw [map_append, ← hall]
      simp [RouteCandidate.tier]
  · -- a new tier; no channel seen has its key
    have hlt : ∀ y ∈ front ++ [x], key y < key c := by
      intro y hy
      rcases mem_append.mp hy with hy | hy
      · exact (hfront y hy).trans_le hx
      · rw [mem_singleton.mp hy]
        exact lt_of_le_of_ne hx hkey
    have hnone : seen.filter (fun d => key d = key c) = [] := by
      refine filter_eq_nil_iff.mpr fun d hd => ?_
      obtain ⟨y, hy, hyd⟩ := hcovers d hd
      simpa [← hyd] using (hlt y hy).ne
    refine ⟨front ++ [x] ++ [c], ?_, ?_, ?_, ?_, ?_⟩
    · have hnew : tierFor env key (seen ++ [c]) c = (routeCandidate env c).tier [c.id] := by
        simp [tierFor, hnone]
      rw [map_append (f := tierFor env key (seen ++ [c])), map_singleton, hnew]
      congr 1
      refine map_congr_left fun y hy => ?_
      rw [tierFor_concat, if_neg (hlt y hy).ne']
    · exact pairwise_append.mpr ⟨hasc, by simp, by simpa using hlt⟩
    · intro y hy
      exact (mem_append.mp hy).elim (fun hy => mem_append_left _ (hmem y hy)) (mem_append_right _)
    · intro d hd
      rcases mem_append.mp hd with hd | hd
      · obtain ⟨y, hy, hyd⟩ := hcovers d hd
        exact ⟨y, mem_append_left _ hy, hyd⟩
      · exact ⟨d, mem_append_right _ hd, rfl⟩
    · rw [flatMap_append, hall]
      simp [RouteCandidate.tier]

theorem tiered_foldl (cs : List Channel) (h : Tiered env key seen heads tiers)
    (hsorted : (seen ++ cs).Pairwise fun a b => key a ≤ key b) : ∃ heads', Tiered env key (seen ++ cs) heads'
      ((cs.map (routeCandidate env)).foldl (addToTiers margin) tiers) := by
  induction cs generalizing seen heads tiers with
  | nil => exact ⟨heads, by simpa using h⟩
  | cons c cs ih =>
    obtain ⟨heads', h'⟩ := tiered_add hsame h fun x hx => (pairwise_append.mp hsorted).2.2 x hx c (by simp)
    rw [append_cons] at hsorted ⊢
    exact ih h' hsorted

omit hsame

theorem filter_insertionSort {α : Type*} (key : α → κ) (l : List α) (k : κ) :
    (l.insertionSort fun a b => key a ≤ key b).filter (key · = k) = l.filter (key · = k) := by
  have hperm := (perm_insertionSort (fun a b => key a ≤ key b) l).filter (key · = k)
  have hsame : (l.filter (key · = k)).Pairwise fun a b => key a ≤ key b := by
    refine pairwise_of_forall_mem_list fun a ha b hb => ?_
    rw [of_decide_eq_true (mem_filter.mp ha).2, of_decide_eq_true (mem_filter.mp hb).2]
  have hsub := (sublist_insertionSort hsame filter_sublist).filter (key · = k)
  rw [filter_filter] at hsub
  simp only [Bool.and_self] at hsub
  exact (hsub.eq_of_length hperm.length_eq.symm).symm

theorem tiered_build (env : RouteEnv) (hl : ∀ id ∈ l, ∃ c, lookup id = some c ∧ c.id = id) :
    ∃ cs tiers heads, lookupAll lookup l = .ok cs ∧ cs.map (·.id) = l ∧ (∀ c ∈ cs, lookup c.id = some c) ∧
      buildChannelRouteTiers env lookup costFilter l = .ok tiers ∧
      let key := routeKey env (costFilter.any (·.prioritizeMargin))
      Tiered env key (cs.insertionSort fun a b => key a ≤ key b) heads tiers := by
  obtain ⟨cs, hcs, hids, hrows⟩ := lookupAll_ok hl
  generalize hm : costFilter.any (·.prioritizeMargin) = margin
  let le := fun a b : Channel => routeKey env margin a ≤ routeKey env margin b
  have hsort : (cs.map (routeCandidate env)).insertionSort (fun a b => b.before margin a = false)
      = (cs.insertionSort le).map (routeCandidate env) := by
    refine (map_insertionSort _ _ _ _ fun a _ b _ => ?_).symm
    rw [← Bool.not_eq_true, before_iff, not_lt]
  have hempty : Tiered env (routeKey env margin) [] [] [] := ⟨rfl, by simp, by simp, by simp, rfl⟩
  obtain ⟨heads, h⟩ := tiered_foldl sameRouteTier_iff (cs.insertionSort le) hempty
    (pairwise_insertionSort le cs)
  refine ⟨cs, _, heads, hcs, hids, hrows, ?_, h⟩
  unfold buildChannelRouteTiers
  rw [hcs, ← hsort, hm]
  rfl

/-- The key of the channel with this id. -/
def routeKeyOf (env : RouteEnv) (lookup : Int → Option Channel) (margin : Bool) (id : Int) : WithTop ℚ ×ₗ ℤᵒᵈ :=
  ((lookup id).map (routeKey env margin)).getD (toLex (⊤, 0))

/-- **Tiers partition the candidates**: together they are the candidates, each
is what shares one key, in the order of the candidates, and the keys ascend. -/
theorem buildChannelRouteTiers_partition (env : RouteEnv) (costFilter : Option ChannelCostFilter)
    {ids : List Int}
    (hids : ∀ id ∈ ids, ∃ c, lookup id = some c ∧ c.id = id) :
    let key := routeKeyOf env lookup (costFilter.any (·.prioritizeMargin))
    ∃ tiers, buildChannelRouteTiers env lookup costFilter ids = .ok tiers ∧
      (tiers.flatMap (·.channels)).Perm ids ∧
      (∀ t ∈ tiers, ∃ id ∈ ids, t.channels = ids.filter (key · = key id)) ∧
      tiers.Pairwise fun t t' => ∀ id ∈ t.channels, ∀ id' ∈ t'.channels, key id < key id' := by
  obtain ⟨cs, tiers, heads, -, rfl, hrows, hbuild, h⟩ := tiered_build costFilter env hids
  generalize costFilter.any (·.prioritizeMargin) = margin at h ⊢
  intro key
  have hkey : ∀ c ∈ cs, key c.id = routeKey env margin c := fun c hc => by
    simp only [key, routeKeyOf, hrows c hc, Option.map_some, Option.getD_some]
  have hhead : ∀ x ∈ heads, x ∈ cs := fun x hx => (mem_insertionSort _).mp (h.mem x hx)
  have htier : ∀ x ∈ heads, (tierFor env (routeKey env margin) (cs.insertionSort fun a b =>
      routeKey env margin a ≤ routeKey env margin b) x).channels =
        (cs.map (·.id)).filter (key · = key x.id) := by
    intro x hx
    rw [hkey x (hhead x hx), filter_map]
    show (List.filter _ _).map _ = _
    rw [filter_insertionSort (routeKey env margin)]
    congr 1
    refine filter_congr fun c hc => ?_
    rw [Function.comp_apply, hkey c hc]
  refine ⟨tiers, hbuild, ?_, ?_, ?_⟩
  · rw [h.all]
    exact (perm_insertionSort _ cs).map _
  · rw [h.eq]
    intro t ht
    obtain ⟨x, hx, rfl⟩ := mem_map.mp ht
    exact ⟨x.id, mem_map_of_mem (hhead x hx), htier x hx⟩
  · rw [h.eq, pairwise_map]
    refine h.ascending.imp_of_mem fun hx hy hlt id hid id' hid' => ?_
    rw [htier _ hx] at hid
    rw [htier _ hy] at hid'
    rw [of_decide_eq_true (mem_filter.mp hid).2, of_decide_eq_true (mem_filter.mp hid').2,
      hkey _ (hhead _ hx), hkey _ (hhead _ hy)]
    exact hlt

/-- Channel 4 has a higher priority at the cost of channels 2 and 3, channel 1 costs
more, and the cost of channel 5 is not known. -/
def costedChannel (id : Int) : Channel where
  id := id
  priority := if id = 1 then some 5 else if id = 4 then some 9 else if id = 5 then some 20 else none
  costRatio := if id = 1 then some "2" else if id = 5 then none else some "1"

theorem buildChannelRouteTiers_partition_costed :
    let env : RouteEnv := ⟨fun s => if s = "1" then some 1 else some 2, fun _ _ _ => true, id, id⟩
    ∃ tiers, buildChannelRouteTiers env (some ∘ costedChannel) (some { sellRatio := 1 }) [1, 2, 3, 4, 5]
        = .ok tiers ∧ tiers.map (·.channels) = [[4], [2, 3], [1], [5]] ∧
      (tiers.flatMap (·.channels)).Perm [1, 2, 3, 4, 5] := by
  intro env
  obtain ⟨tiers, hbuild, hperm, -⟩ := @buildChannelRouteTiers_partition (some ∘ costedChannel) env
    (some { sellRatio := 1 }) [1, 2, 3, 4, 5] fun id _ => ⟨costedChannel id, rfl, rfl⟩
  have htiers : (buildChannelRouteTiers env (some ∘ costedChannel) (some { sellRatio := 1 })
    [1, 2, 3, 4, 5]).map
      (·.map (·.channels)) = .ok [[4], [2, 3], [1], [5]] := by
    decide +kernel
  rw [hbuild] at htiers
  exact ⟨tiers, hbuild, Except.ok.inj htiers, hperm⟩

end Tiers

/-! ### The cache follows the rule -/

variable {cs : List Channel} {f : ChannelCostFilter}

section Cache

variable (env : RouteEnv) {lookup : Int → Option Channel} {cache : ChannelCache}

/-- `intn n` is below `n`, as `rand.Intn` is. -/
def Draws (intn : Nat → Nat) : Prop := ∀ n, 0 < n → intn n < n

/-- Every tier has channels, all of them from `ids`. -/
def TiersOf (ids : List Int) (tiers : List ChannelRouteTier) : Prop :=
  ∀ t ∈ tiers, t.channels ≠ [] ∧ ∀ id ∈ t.channels, id ∈ ids

/-- The tiers of known channels are there and hold nothing else. -/
theorem ok_buildChannelRouteTiers (hne : l ≠ []) (hl : ∀ id ∈ l, ∃ c, lookup id = some c ∧ c.id = id) :
    ∃ tiers, buildChannelRouteTiers env lookup costFilter l = .ok tiers ∧ TiersOf l tiers ∧ tiers ≠ [] := by
  obtain ⟨cs, tiers, heads, -, rfl, -, hbuild, h⟩ := tiered_build costFilter env hl
  refine ⟨tiers, hbuild, fun t ht => ?_, ?_⟩
  · rw [h.eq] at ht
    obtain ⟨x, hx, rfl⟩ := mem_map.mp ht
    refine ⟨fun hnil => ?_, fun id hid => ?_⟩
    · exact filter_eq_nil_iff.mp (map_eq_nil_iff.mp hnil) x (h.mem x hx) (decide_eq_true rfl)
    obtain ⟨c, hc, rfl⟩ := mem_map.mp hid
    exact mem_map_of_mem ((mem_insertionSort _).mp (mem_of_mem_filter hc))
  · rintro rfl
    have hlen := congrArg List.length h.all
    rw [length_map, length_insertionSort] at hlen
    exact hne (map_eq_nil_iff.mpr (length_eq_zero_iff.mp hlen.symm))

theorem sum_weights (cs : List Channel) (k a : Int) : (cs.map fun c => (c.getWeight : Int) * k + a).sum
      = ((cs.map (·.getWeight)).sum : Nat) * k + cs.length * a := by
  induction cs with
  | nil => simp
  | cons c rest ih =>
    simp only [map_cons, sum_cons, ih, length_cons]
    push_cast
    ring

theorem total_smoothedWeight_pos (hne : cs ≠ []) :
    0 < (cs.map (smoothedWeight cs)).sum := by
  have hlen : 0 < cs.length := length_pos_iff.mpr hne
  have htotal := sum_weights cs (smoothing cs).1 (smoothing cs).2
  rw [show smoothedWeight cs = fun c => (c.getWeight : Int) * (smoothing cs).1 + (smoothing cs).2
    from rfl, htotal]
  unfold smoothing
  dsimp only
  split
  next hzero =>
    omega
  · split <;> omega

variable {intn : Nat → Nat}

/-- A tier with channels yields one of them. -/
theorem drawChannel_isSome (hintn : Draws intn) (hne : cs ≠ []) : ∃ c ∈ cs, drawChannel intn cs = some c := by
  have hpos := total_smoothedWeight_pos hne
  have hdraw := hintn (cs.map (smoothedWeight cs)).sum.toNat (by omega)
  have hsome : (drawChannel intn cs).isSome := by
    refine pick_isSome (fun x hx => decide_eq_true hx) ?_ hne
    omega
  obtain ⟨c, hc⟩ := Option.isSome_iff_exists.mp hsome
  exact ⟨c, mem_of_pick hc, hc⟩

theorem ok_drawFromTiers (hintn : Draws intn)
    (hl : ∀ id ∈ l, ∃ c, lookup id = some c ∧ c.id = id) {tiers : List ChannelRouteTier}
    (htiers : TiersOf l tiers) (hne : tiers ≠ []) (breaching : Bool) (retry : Nat) :
    ∃ c, drawFromTiers intn env lookup costFilter breaching group model retry tiers
        = .ok (some (select env costFilter breaching c)) ∧ lookup c.id = some c ∧ c.id ∈ l := by
  have hlen : 0 < tiers.length := length_pos_iff.mpr hne
  have hlt : min retry (tiers.length - 1) < tiers.length := by omega
  obtain ⟨htier, hin⟩ := htiers _ (getElem_mem hlt)
  obtain ⟨cs, hcs, hids, hrows⟩ := lookupAll_ok fun id hid => hl id (hin id hid)
  have hcs_ne : cs ≠ [] := by
    rintro rfl
    exact htier hids.symm
  obtain ⟨c, hc, hdraw⟩ := drawChannel_isSome hintn hcs_ne
  refine ⟨c, ?_, hrows c hc, hin c.id ?_⟩
  · unfold drawFromTiers
    rw [getElem?_eq_getElem hlt]
    show (lookupAll lookup _ >>= _) = _
    rw [hcs]
    show (if cs = [] then _ else _) = _
    rw [if_neg hcs_ne, hdraw]
  · rw [← hids]
    exact mem_map.mpr ⟨c, hc, rfl⟩

/-- The end of `GetRandomSatisfiedChannel`: one candidate is taken, from
several one is drawn. -/
def chooseFrom (intn : Nat → Nat) (env : RouteEnv) (lookup : Int → Option Channel)
    (costFilter : Option ChannelCostFilter) (group model : String) (retry : Nat) :
    List Int × Bool → Except RouteErr (Option Selected)
  | ([id], breaching) =>
    match lookup id with
    | some c => .ok (some (select env costFilter breaching c))
    | none => .error (missingChannel id)
  | (channels, breaching) =>
    buildChannelRouteTiers env lookup costFilter channels >>=
      drawFromTiers intn env lookup costFilter breaching group model retry

theorem getRandomSatisfiedChannel_eq (cache : ChannelCache) (retry : Nat) (requestPath : String) :
    getRandomSatisfiedChannel intn env cache group model retry requestPath costFilter =
      if cache.candidates env group model requestPath = [] then .ok none
      else narrowByCost env cache.channelsIDM costFilter (describeCostBreach env cache.channelsIDM group model)
        (cache.candidates env group model requestPath) >>=
        chooseFrom intn env cache.channelsIDM costFilter group model retry := by
  unfold getRandomSatisfiedChannel
  dsimp only
  congr 2
  funext ⟨l, b⟩
  rcases l with - | ⟨id, - | ⟨id', rest⟩⟩ <;> rfl

theorem ok_chooseFrom (hintn : Draws intn) (hne : l ≠ [])
    (hl : ∀ id ∈ l, ∃ c, lookup id = some c ∧ c.id = id) (retry : Nat) (breaching : Bool) :
    ∃ c, chooseFrom intn env lookup costFilter group model retry (l, breaching)
        = .ok (some (select env costFilter breaching c)) ∧ lookup c.id = some c ∧ c.id ∈ l := by
  obtain ⟨tiers, htiers, hof, htne⟩ := ok_buildChannelRouteTiers costFilter env hne hl
  have hmany := ok_drawFromTiers costFilter group model env hintn hl hof htne breaching retry
  rcases l with - | ⟨id, - | ⟨id', rest⟩⟩
  · exact absurd rfl hne
  · obtain ⟨c, hc, hid⟩ := hl id mem_cons_self
    refine ⟨c, ?_, hid ▸ hc, mem_singleton.mpr hid⟩
    simp only [chooseFrom, hc]
  · show ∃ c, (buildChannelRouteTiers env lookup costFilter _ >>= _) = _ ∧ _
    rw [htiers]
    exact hmany

/-- What the cache holds is known to it. -/
def ChannelCache.Coherent (cache : ChannelCache) : Prop :=
  ∀ group model, ∀ id ∈ cache.group2model2channels group model,
    ∃ c, cache.channelsIDM id = some c ∧ c.id = id

theorem ChannelCache.Coherent.candidates (h : cache.Coherent)
    (group model requestPath : String) : ∀ id ∈ cache.candidates env group model requestPath,
      ∃ c, cache.channelsIDM id = some c ∧ c.id = id := by
  intro id hid
  unfold ChannelCache.candidates at hid
  dsimp only at hid
  split at hid <;> exact h _ _ id (mem_of_mem_filter hid)

theorem ok_getRandomSatisfiedChannel (hintn : Draws intn) (hcache : cache.Coherent)
    {costFilter : Option ChannelCostFilter} {group model : String} {retry : Nat} {requestPath : String}
    {sel : Selected}
    (h : getRandomSatisfiedChannel intn env cache group model retry requestPath costFilter = .ok (some sel)) :
    ∃ l b, narrowByCost env cache.channelsIDM costFilter (describeCostBreach env cache.channelsIDM group model)
        (cache.candidates env group model requestPath) = .ok (l, b) ∧
          sel = select env costFilter b sel.channel ∧
      cache.channelsIDM sel.channel.id = some sel.channel ∧ sel.channel.id ∈ l ∧
      ∀ id ∈ l, id ∈ cache.candidates env group model requestPath := by
  rw [getRandomSatisfiedChannel_eq] at h
  split_ifs at h with hne
  · cases h
  rcases hrun : narrowByCost env cache.channelsIDM costFilter
    (describeCostBreach env cache.channelsIDM group model)
    (cache.candidates env group model requestPath) with e | ⟨l, b⟩
  · rw [hrun] at h
    cases h
  obtain ⟨hl, hsub⟩ := narrowByCost_subset hne hrun
  obtain ⟨c, hc, hrow, hmem⟩ := ok_chooseFrom costFilter group model env hintn hl
    (fun id hid => hcache.candidates env group model requestPath id (hsub id hid)) retry b
  rw [hrun] at h
  obtain rfl : select env costFilter b c = sel := Option.some.inj (Except.ok.inj (hc.symm.trans h))
  exact ⟨l, b, rfl, rfl, hrow, hmem, hsub⟩

/-- **The cache follows the routing rule.** -/
theorem getRandomSatisfiedChannel_routed (hintn : Draws intn)
    (hcache : cache.Coherent) (hf : f.Enabled)
    (retry : Nat) (requestPath : String) :
    Routed cache.channelsIDM (passesCost env cache.channelsIDM f) f.allowCostBreach
      (cache.candidates env group model requestPath)
      (getRandomSatisfiedChannel intn env cache group model retry requestPath (some f)) := by
  have hknown := hcache.candidates env group model requestPath
  rw [getRandomSatisfiedChannel_eq]
  by_cases hne : cache.candidates env group model requestPath = []
  · rw [if_pos hne]
    exact ⟨fun _ => rfl, fun h => absurd hne h, fun h => absurd hne h⟩
  rw [if_neg hne]
  refine Routed.of_narrow hf hne fun l b hl hsub => ?_
  obtain ⟨c, hc, hrow, hmem⟩ := ok_chooseFrom (some f) group model env hintn hl
    (fun id hid => hknown id (hsub id hid)) retry b
  exact ⟨_, hc, hrow, hmem⟩

end Cache

/-! ### The tables follow the rule -/

section Tables

variable (env : RouteEnv) (db : RouteDB)

/-- The enabled abilities of the highest priority. -/
def RouteDB.topAbilities (group model : String) : List Ability :=
  let abilities := db.enabledAbilities group model
  abilities.filter fun a => some a.priority = (abilities.map (·.priority)).max?

/-- The candidates of the tables at the first try. -/
def RouteDB.candidates (group model requestPath : String) : List Int :=
  (filterAbilitiesByRequestPathAndModel env db.channels.find? requestPath model
    (env.orderByWeight (db.topAbilities group model))).map (·.channelId)

variable {env db}

theorem RouteDB.find?_of_ability {a : Ability} (h : a ∈ db.abilities) :
    ∃ c, db.channels.find? a.channelId = some c ∧ a ∈ c.addAbilities := by
  obtain ⟨c, hc, ha⟩ := (db.written a).mp h
  have hid : c.id = a.channelId := by
    rw [(mem_addAbilities ha).2]
    rfl
  exact ⟨c, Table.find?_eq_some_iff.mpr ⟨hc, hid⟩, ha⟩

theorem drawAbility_isSome {intn : Nat → Nat} (hintn : Draws intn) {abilities : List Ability}
    (hne : abilities ≠ []) : ∃ a ∈ abilities, drawAbility intn abilities = some a := by
  have hpos : 0 < (abilities.map fun a : Ability => (a.weight : Int) + 10).sum := by
    obtain ⟨a, rest, rfl⟩ := exists_cons_of_ne_nil hne
    have hrest : 0 ≤ (rest.map fun a : Ability => (a.weight : Int) + 10).sum :=
      sum_nonneg fun x hx => by
        obtain ⟨b, -, rfl⟩ := mem_map.mp hx
        omega
    rw [map_cons, sum_cons]
    omega
  have hdraw := hintn (abilities.map fun a : Ability => (a.weight : Int) + 10).sum.toNat (by omega)
  have hsome : (drawAbility intn abilities).isSome := by
    refine pick_isSome (fun x hx => decide_eq_true (le_of_lt hx)) ?_ hne
    omega
  obtain ⟨a, ha⟩ := Option.isSome_iff_exists.mp hsome
  exact ⟨a, mem_of_pick ha, ha⟩

/-- **The tables follow the routing rule.** -/
theorem getChannel_routed {intn : Nat → Nat} (hintn : Draws intn) (hsorts : env.Sorts)
    (hf : f.Enabled) (group model requestPath : String) :
    Routed db.channels.find? (passesCost env db.channels.find? f) f.allowCostBreach
      (db.candidates env group model requestPath)
      (getChannel intn env db group model 0 requestPath (some f)) := by
  unfold getChannel RouteDB.candidates
  show Routed _ _ _ _ ((Except.ok (db.topAbilities group model) >>= fun found => _))
  set abilities := filterAbilitiesByRequestPathAndModel env db.channels.find? requestPath model
    (env.orderByWeight (db.topAbilities group model)) with habilities
  show Routed _ _ _ _ (if abilities = [] then _ else _)
  have hwritten : ∀ a ∈ abilities, a ∈ db.abilities := by
    intro a ha
    have ha := (hsorts.byWeight _).mem_iff.mp (mem_of_mem_filter ha)
    exact mem_of_mem_filter (mem_of_mem_filter ha)
  by_cases hne : abilities = []
  · rw [hne]
    exact ⟨fun _ => rfl, fun h => absurd rfl h, fun h => absurd rfl h⟩
  rw [if_neg hne]
  refine Routed.of_narrow hf (by simpa using hne) fun l b hl hsub => ?_
  have hleft : (abilities.filter fun a => a.channelId ∈ l) ≠ [] := by
    obtain ⟨id, hid⟩ := exists_mem_of_ne_nil l hl
    obtain ⟨a, ha, rfl⟩ := mem_map.mp (hsub id hid)
    exact ne_nil_of_mem (mem_filter.mpr ⟨ha, decide_eq_true hid⟩)
  obtain ⟨a, ha, hdraw⟩ := drawAbility_isSome hintn hleft
  obtain ⟨ha, hal⟩ := mem_filter.mp ha
  obtain ⟨c, hc, -⟩ := RouteDB.find?_of_ability (hwritten a ha)
  have hid : c.id = a.channelId := Table.key_of_find? hc
  refine ⟨select env (some f) b c, ?_, ?_, ?_⟩
  · rw [← habilities]
    simp only [hdraw, hc]
  · show db.channels.find? c.id = some c
    rw [hid, hc]
  · show c.id ∈ l
    rw [hid]
    exact of_decide_eq_true hal

end Tables

/-! ### How often a channel is drawn -/

/-- The weight that counts for a channel of a tier: 100 each if all weights are
0, a hundredfold if the average is below 10. -/
def effectiveWeight (channels : List Channel) (c : Channel) : Nat :=
  let sumWeight := (channels.map (·.getWeight)).sum
  if sumWeight = 0 then 100
  else if sumWeight < 10 * channels.length then c.getWeight * 100
  else c.getWeight

/-- The place that the loop over a tier stops at. -/
def drawnChannel (channels : List Channel) (r : Nat) : Option Nat :=
  place (· < 0) (smoothedWeight channels) channels r

/-- The place that the loop over the abilities stops at. -/
def drawnAbility (abilities : List Ability) (r : Nat) : Option Nat :=
  place (· ≤ 0) (fun a => (a.weight : Int) + 10) abilities r

theorem smoothedWeight_eq {c : Channel} (hc : c ∈ cs) :
    smoothedWeight cs c = effectiveWeight cs c := by
  have hle := single_le_sum (fun _ _ => Nat.zero_le _) _ (mem_map_of_mem (f := (·.getWeight)) hc)
  have hlen : 0 < cs.length := length_pos_of_mem hc
  have havg := Nat.div_lt_iff_lt_mul (x := (cs.map (·.getWeight)).sum) (y := 10) hlen
  unfold smoothedWeight smoothing effectiveWeight
  dsimp only at hle ⊢
  split_ifs <;> simp <;> omega

/-- **How the draws are spread.**  Over a tier every number finds a channel, and
each is drawn as often as its weight says.  Over the abilities this is so only
if there is but one. -/
theorem draws_exact_iff {cs : List Channel} {abilities : List Ability} (hcs : cs ≠ []) (hne : abilities ≠ []) :
    let total := (cs.map (effectiveWeight cs)).sum
    (∀ r < total, ∃ i c, drawnChannel cs r = some i ∧ cs[i]? = some c ∧ drawChannel (fun _ => r) cs = some c) ∧
      (∀ i c, cs[i]? = some c → draws (drawnChannel cs) total i = effectiveWeight cs c) ∧
      ((∀ i a, abilities[i]? = some a →
          draws (drawnAbility abilities) (abilities.map fun a => a.weight + 10).sum i = a.weight + 10) ↔
        abilities.length = 1) := by
  intro total
  have htotal : (cs.map (smoothedWeight cs)).sum = total := by
    rw [map_congr_left fun c hc => smoothedWeight_eq hc, Nat.cast_list_sum, map_map]
    rfl
  refine ⟨fun r hr => ?_, fun i c => draws_below fun c hc => smoothedWeight_eq hc, ?_⟩
  · have hsome : (drawChannel (fun _ => r) cs).isSome :=
      pick_isSome (fun x hx => decide_eq_true hx) (by rw [htotal]; exact_mod_cast hr) hcs
    obtain ⟨c, hc⟩ := Option.isSome_iff_exists.mp hsome
    obtain ⟨i, hi, hci⟩ := Option.bind_eq_some_iff.mp ((pick_eq_place _ _).symm.trans hc)
    exact ⟨i, c, hi, hci, hc⟩
  · obtain ⟨a, rest, rfl⟩ := exists_cons_of_ne_nil hne
    have hfirst : draws (drawnAbility (a :: rest)) ((a.weight + 10) + (rest.map fun a => a.weight + 10).sum) 0
        = (a.weight + 10) + min _ 1 :=
      @draws_first _ (fun a : Ability => (a.weight : Int) + 10) a (a.weight + 10) rfl rest _
    rw [map_cons, sum_cons]
    constructor
    · intro h
      rw [h 0 a rfl] at hfirst
      rcases rest with - | ⟨b, rest⟩
      · rfl
      · rw [map_cons, sum_cons] at hfirst
        omega
    · intro hlen i a' ha'
      obtain rfl := length_eq_zero_iff.mp (Nat.succ.inj hlen)
      obtain ⟨rfl, rfl⟩ : i = 0 ∧ a = a' := by
        rcases i with - | i
        · exact ⟨rfl, Option.some.inj ha'⟩
        · cases ha'
      exact hfirst

/-- The abilities of channels 1, 2, … with these weights. -/
def weightedAbilities (weights : List Nat) : List Ability :=
  weights.zipIdx.map fun p => ⟨"default", "gpt", p.2 + 1, true, 0, p.1⟩

/-- Channels 1, 2, … with these weights. -/
def weightedChannels (weights : List Nat) : List Channel :=
  weights.zipIdx.map fun p => { id := p.2 + 1, weight := some p.1 }

/-- A tier of three channels, and one ability. -/
theorem draws_exact_weighted :
    (draws (drawnChannel (weightedChannels [2, 0, 7])) 900 0 = 200 ∧
      draws (drawnChannel (weightedChannels [2, 0, 7])) 900 1 = 0 ∧
      draws (drawnChannel (weightedChannels [2, 0, 7])) 900 2 = 700) ∧
      draws (drawnAbility (weightedAbilities [3])) 13 0 = 13 := by
  obtain ⟨-, hchannel, hability⟩ := @draws_exact_iff (weightedChannels [2, 0, 7]) (weightedAbilities [3])
    (cons_ne_nil _ _) (cons_ne_nil _ _)
  exact ⟨⟨hchannel 0 _ rfl, hchannel 1 _ rfl, hchannel 2 _ rfl⟩, hability.mpr rfl 0 _ rfl⟩

/-- Of two abilities of equal weight the first is drawn more often. -/
theorem draws_abilities_uneven : draws (drawnAbility (weightedAbilities [0, 0])) 20 0 = 11 ∧
      draws (drawnAbility (weightedAbilities [0, 0])) 20 1 = 9 := by
  decide

end MicrossApi
