/-
MicrossApi/ChannelStatus.lean

A channel's status in the memory cache (model/channel_cache.go), and the check
that a channel preferred by affinity has to pass (model/channel_cost_filter.go).

A channel enters a list of the cache once for each time it names the group and
the model, and disabling it takes it off each list once.  So a channel that
names a group or a model twice stays on a list (`disabled_not_selected`).

The check looks into the cache whether or not the cache is in use
(`channelPassesCostBudget_agrees_iff`).
-/
import MicrossApi.RoutingAgreement
import MicrossApi.StepSystem

namespace MicrossApi

open List StepSystem

/-! ### What changes the cache between two rebuilds -/

variable (cache : ChannelCache)

/-- `CacheUpdateChannelStatus`: the loop over a list stops at the first match. -/
def ChannelCache.updateChannelStatus (id : Int) (status : ChannelStatus) : ChannelCache where
  group2model2channels group model :=
    if status = .enabled then cache.group2model2channels group model
    else (cache.group2model2channels group model).erase id
  channelsIDM j := (cache.channelsIDM j).map fun c => if j = id then { c with status := status } else c

/-- `CacheUpdateChannel`: the lists stay as they are. -/
def ChannelCache.updateChannel (channel : Channel) : ChannelCache :=
  { cache with channelsIDM := Function.update cache.channelsIDM channel.id (some channel) }

/-- A change of the cache. -/
inductive CacheOp where
  | updateChannelStatus (id : Int) (status : ChannelStatus)
  | updateChannel (channel : Channel)

def ChannelCache.apply : CacheOp → ChannelCache
  | .updateChannelStatus id status => cache.updateChannelStatus id status
  | .updateChannel channel => cache.updateChannel channel

section Lists

variable {cache : ChannelCache} {group model : String}

/-- A change leaves the cache coherent and adds to no list. -/
theorem coherent_apply (h : cache.Coherent) (op : CacheOp) : (cache.apply op).Coherent ∧ ∀ group model,
      (cache.apply op).group2model2channels group model ⊆ cache.group2model2channels group model := by
  have hsub : ∀ group model,
      (cache.apply op).group2model2channels group model ⊆ cache.group2model2channels group model := by
    intro group model id hid
    cases op with
    | updateChannelStatus =>
      simp only [ChannelCache.apply, ChannelCache.updateChannelStatus] at hid
      split_ifs at hid
      · exact hid
      · exact mem_of_mem_erase hid
    | updateChannel => exact hid
  refine ⟨fun group model id hid => ?_, hsub⟩
  obtain ⟨c, hc, rfl⟩ := h group model id (hsub group model hid)
  cases op with
  | updateChannelStatus =>
    refine ⟨_, congrArg (Option.map _) hc, ?_⟩
    split_ifs <;> rfl
  | updateChannel channel =>
    rcases eq_or_ne c.id channel.id with heq | hne
    · rw [heq]
      exact ⟨channel, Function.update_self _ _ _, rfl⟩
    · exact ⟨c, (Function.update_of_ne hne _ _).trans hc, rfl⟩

theorem mem_of_getRandomSatisfiedChannel {env : RouteEnv} {intn : Nat → Nat} (hintn : Draws intn)
    (h : cache.Coherent)
    {retry : Nat} {requestPath : String} {costFilter : Option ChannelCostFilter} {sel : Selected}
    (hsel : getRandomSatisfiedChannel intn env cache group model retry requestPath costFilter =
      .ok (some sel)) :
    ∃ listed, sel.channel.id ∈ cache.group2model2channels group listed := by
  have hcand : ∀ id ∈ cache.candidates env group model requestPath,
      ∃ listed, id ∈ cache.group2model2channels group listed := by
    intro id hid
    unfold ChannelCache.candidates at hid
    dsimp only at hid
    split_ifs at hid <;> exact ⟨_, mem_of_mem_filter hid⟩
  obtain ⟨l, b, -, -, -, hmem, hsub⟩ := ok_getRandomSatisfiedChannel env hintn h hsel
  exact hcand _ (hsub _ hmem)

/-- A channel enters a list once for each time it names both. -/
theorem length_entries (c : Channel) (group model : String) : (c.entries group model).length =
      if c.status = .enabled then
        (splitComma c.group).count group * (splitComma c.models).count model
      else 0 := by
  have hmodels : ∀ g, ((splitComma c.models).filterMap fun m =>
    if g = group ∧ m = model then some c.id else none).length
      = if g = group then (splitComma c.models).count model else 0 := by
    intro g
    rw [length_filterMap_eq_countP]
    split_ifs with hg
    · exact countP_congr fun m _ => by simp [hg]
    · simp [hg]
  unfold Channel.entries
  split_ifs
  · rw [length_flatMap]
    induction splitComma c.group with
    | nil => simp
    | cons g groups ih =>
      rw [map_cons, hmodels]
      split_ifs with hg <;> simp_all [Nat.add_mul, Nat.add_comm]
  · rfl

theorem count_entries {rows : List Channel} (hnodup : (rows.map (·.id)).Nodup) {c : Channel} (hc : c ∈ rows) :
    (rows.flatMap (·.entries group model)).count c.id = (c.entries group model).length := by
  have hown : ∀ d : Channel, (d.entries group model).count d.id = (d.entries group model).length :=
    fun d => count_eq_length.mpr fun id hid => (mem_entries.mp hid).2.2
  have hother : ∀ d : Channel, d.id ≠ c.id → (d.entries group model).count c.id = 0 :=
    fun d hd => count_eq_zero.mpr fun hid => hd (mem_entries.mp hid).2.2
  induction rows with
  | nil => cases hc
  | cons d rest ih =>
    obtain ⟨hd, hrest⟩ := nodup_cons.mp hnodup
    rw [flatMap_cons, count_append]
    rcases mem_cons.mp hc with rfl | hc
    · rw [hown, count_eq_zero.mpr, Nat.add_zero]
      intro hid
      obtain ⟨d, hdr, hid⟩ := mem_flatMap.mp hid
      exact hd (mem_map.mpr ⟨d, hdr, (mem_entries.mp hid).2.2⟩)
    · rw [hother d fun heq => hd (mem_map.mpr ⟨c, hc, heq.symm⟩), ih hrest hc, Nat.zero_add]

end Lists

/-- The channel enters no list twice. -/
def Channel.ListedOnce (c : Channel) : Prop :=
  c.status = .enabled → (splitComma c.group).Nodup ∧ (splitComma c.models).Nodup
deriving Decidable

section Disabled

variable {env : RouteEnv} {db : RouteDB} {id : Int} {status : ChannelStatus}

theorem listedOnce_iff (c : Channel) : c.ListedOnce ↔ ∀ group model, (c.entries group model).length ≤ 1 := by
  simp only [length_entries]
  constructor
  · intro h group model
    split_ifs with henabled
    · obtain ⟨hg, hm⟩ := h henabled
      exact Nat.mul_le_mul (nodup_iff_count_le_one.mp hg group) (nodup_iff_count_le_one.mp hm model)
    · exact Nat.zero_le 1
  · intro h henabled
    obtain ⟨g, hg⟩ := exists_mem_of_ne_nil _ (splitComma_ne_nil c.group)
    obtain ⟨m, hm⟩ := exists_mem_of_ne_nil _ (splitComma_ne_nil c.models)
    simp only [henabled] at h
    refine ⟨nodup_iff_count_le_one.mpr fun group => ?_, nodup_iff_count_le_one.mpr fun model => ?_⟩
    · exact (Nat.le_mul_of_pos_right _ (count_pos_iff.mpr hm)).trans (h group m)
    · exact (Nat.le_mul_of_pos_left _ (count_pos_iff.mpr hg)).trans (h g model)

/-- **A disabled channel** is off all lists exactly if it was on none twice, and
then no request is sent to it until the cache is rebuilt. -/
theorem disabled_not_selected (hsorts : env.Sorts) (hstatus : status ≠ .enabled) :
    let cache := (initChannelCache env db).updateChannelStatus id status
    let once := ∀ c, db.channels.find? id = some c → c.ListedOnce
    ((∀ group model, id ∉ cache.group2model2channels group model) ↔ once) ∧
      (once → ∀ ops intn group model retry requestPath costFilter sel, Draws intn →
        getRandomSatisfiedChannel intn env (exec ChannelCache.apply cache ops) group model retry requestPath
            costFilter = .ok (some sel) →
          sel.channel.id ≠ id) := by
  intro cache once
  have hlist : ∀ group model, cache.group2model2channels group model
      = ((initChannelCache env db).group2model2channels group model).erase id := fun _ _ => if_neg hstatus
  have hoff : (∀ group model, id ∉ cache.group2model2channels group model) ↔ once := by
    simp only [hlist, ← count_eq_zero, count_erase_self]
    constructor
    · intro h c hc
      obtain rfl := Table.key_of_find? hc
      refine (listedOnce_iff c).mpr fun group model => ?_
      have hcount := h group model
      rw [show (initChannelCache env db).group2model2channels group model = env.sortByPriority _ from rfl,
        (hsorts.byPriority _).count_eq, count_entries db.channels.nodup (Table.mem_of_find? hc)] at hcount
      omega
    · intro h group model
      rcases hfind : db.channels.find? id with - | c
      · rw [count_eq_zero.mpr]
        intro hid
        obtain ⟨c, hc, -⟩ := (mem_group2model2channels hsorts).mp hid
        rw [hfind] at hc
        cases hc
      · obtain rfl := Table.key_of_find? hfind
        rw [show (initChannelCache env db).group2model2channels group model = env.sortByPriority _ from rfl,
          (hsorts.byPriority _).count_eq, count_entries db.channels.nodup (Table.mem_of_find? hfind)]
        exact Nat.sub_eq_zero_of_le ((listedOnce_iff c).mp (h c hfind) group model)
  refine ⟨hoff, fun honce ops intn group model retry requestPath costFilter sel hintn hsel heq => ?_⟩
  obtain ⟨hcache, -⟩ := coherent_apply (initChannelCache_coherent hsorts db) (.updateChannelStatus id status)
  have hstep : ∀ (s : ChannelCache) op, (s.Coherent ∧
    ∀ g m, s.group2model2channels g m ⊆ cache.group2model2channels g m) →
      (s.apply op).Coherent ∧
        ∀ g m, (s.apply op).group2model2channels g m ⊆ cache.group2model2channels g m := by
    rintro s op ⟨hs, hle⟩
    obtain ⟨hs', hle'⟩ := coherent_apply hs op
    exact ⟨hs', fun g m => List.Subset.trans (hle' g m) (hle g m)⟩
  obtain ⟨hrun, hsub⟩ := exec_inv hstep ⟨hcache, fun _ _ _ hid => hid⟩ ops
  obtain ⟨listed, hmem⟩ := mem_of_getRandomSatisfiedChannel hintn hrun hsel
  rw [heq] at hmem
  exact hoff.mpr honce group listed (hsub group listed hmem)

end Disabled

/-- A channel that names its model twice. -/
def listedTwiceDB : RouteDB where
  channels := { rows := [{ id := 1, models := "gpt,gpt" }], nodup := List.nodup_singleton _ }
  abilities := ({ id := 1, models := "gpt,gpt" } : Channel).addAbilities
  written a := by simp

theorem disabled_not_selected_once :
    2 ∉ ((initChannelCache demoRouteEnv (demoRouteDB 0)).updateChannelStatus 2
      .autoDisabled).group2model2channels "default" "gpt" :=
  (@disabled_not_selected _ (demoRouteDB 0) _ _ demoRouteEnv_sorts (by decide)).1.mpr (by decide) _ _

/-- It is disabled, and chosen. -/
theorem disabled_selected_twice : (getRandomSatisfiedChannel (fun _ => 0) demoRouteEnv
        ((initChannelCache demoRouteEnv listedTwiceDB).updateChannelStatus 1 .manuallyDisabled)
        "default" "gpt" 0 ""
        none).map (·.map (·.channel.id)) = .ok (some 1) := by
  decide +kernel

/-! ### The check of a preferred channel -/

variable (memoryCacheEnabled : Bool) (env : RouteEnv)

/-- The cache after `InitChannelCache`, which leaves it empty if it is not in use. -/
def activeCache (db : RouteDB) : ChannelCache :=
  if memoryCacheEnabled then initChannelCache env db
  else { group2model2channels := fun _ _ => [], channelsIDM := fun _ => none }

/-- `ChannelPassesCostBudget`. -/
def channelPassesCostBudget (cache : ChannelCache) (channelId : Int)
    (costFilter : Option ChannelCostFilter) : Bool :=
  costFilter.all fun f => ¬ f.Enabled || passesCost env cache.channelsIDM f channelId

/-- The cost filter of the selection in use: `filterChannelsByCost`, or
`filterChannelsByCostDB` over the rows. -/
def activeCostFilter (db : RouteDB) (f : ChannelCostFilter) : List Int → List Int :=
  filterChannelsByCost env
    (if memoryCacheEnabled then (initChannelCache env db).channelsIDM else db.channels.find?) f

/-- **The check agrees with the selection** if the cache is in use, or if the
channel is over the budget anyway. -/
theorem channelPassesCostBudget_agrees_iff (db : RouteDB) (id : Int)
    {f : ChannelCostFilter} (hf : f.Enabled) : (∀ channels, id ∈ channels →
        (channelPassesCostBudget env (activeCache memoryCacheEnabled env db) id (some f) = true ↔
          id ∈ activeCostFilter memoryCacheEnabled env db f channels)) ↔
      memoryCacheEnabled = true ∨ ∀ c, db.channels.find? id = some c → ¬ f.Passes env.newFromString c := by
  cases memoryCacheEnabled with
  | true =>
    refine iff_of_true (fun channels hid => ?_) (.inl rfl)
    simp [channelPassesCostBudget, activeCache, activeCostFilter, filterChannelsByCost, hf, hid]
  | false =>
    have hnever : channelPassesCostBudget env (activeCache false env db) id (some f) = false := by
      simp [channelPassesCostBudget, activeCache, passesCost, hf]
    simp only [hnever, activeCostFilter, filterChannelsByCost, mem_filter, passesCost]
    constructor
    · intro h
      have hid := h [id] (mem_singleton.mpr rfl)
      right
      intro c hc
      simpa [hc] using hid
    · intro h channels hid
      rcases hfind : db.channels.find? id with - | c
      · simp [hfind]
      · simpa [hid, hfind] using h.resolve_left Bool.false_ne_true c hfind

theorem channelPassesCostBudget_agrees_cached :
    channelPassesCostBudget demoRouteEnv (activeCache true demoRouteEnv (demoRouteDB 0)) 2 (some demoCostFilter)
        = true ∧ 2 ∈ activeCostFilter true demoRouteEnv (demoRouteDB 0) demoCostFilter [1, 2] := by
  have hpasses : channelPassesCostBudget demoRouteEnv (activeCache true demoRouteEnv (demoRouteDB 0)) 2
      (some demoCostFilter) = true := by decide +kernel
  have hagrees := (channelPassesCostBudget_agrees_iff true demoRouteEnv (demoRouteDB 0) 2
    (show demoCostFilter.Enabled by decide +kernel)).mpr (.inl rfl)
  exact ⟨hpasses, (hagrees [1, 2] (by decide)).mp hpasses⟩

/-- Without the cache a channel that the selection keeps fails the check. -/
theorem channelPassesCostBudget_uncached :
    channelPassesCostBudget demoRouteEnv (activeCache false demoRouteEnv (demoRouteDB 0)) 2
      (some demoCostFilter)
        = false ∧ 2 ∈ activeCostFilter false demoRouteEnv (demoRouteDB 0) demoCostFilter [1, 2] := by
  decide +kernel

end MicrossApi
