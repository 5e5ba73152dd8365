/-
MicrossApi/RoutingAgreement.lean

When the two channel selectors agree.  Over the rows, the cache chooses among
all enabled channels that list the model (`RouteDB.serving`), the tables among
those of the highest priority only (`RouteDB.topServing`).  Both follow the
routing rule on their own list, so they agree exactly when the shorter list
offers what the longer one does: a channel if there is one, and one within the
budget if there is one.

A cheaper channel of lower priority is the case in which they do not: the
cache takes it, the tables report that every channel loses money.
-/
import MicrossApi.ChannelRouting

namespace MicrossApi

open List

/-! ### The rows behind the candidates -/

/-- The enabled channels that list the group under the name `listed` and serve
the path. -/
def RouteDB.offered (env : RouteEnv) (db : RouteDB) (group listed model requestPath : String) :
    List Channel :=
  db.channels.rows.filter fun c =>
    c.status = .enabled ∧ c.Lists group listed ∧ env.servesPath requestPath model c = true

/-- The channels for a model: by its own name, or by the matching one. -/
def RouteDB.serving (env : RouteEnv) (db : RouteDB) (group model requestPath : String) : List Channel :=
  if db.offered env group model model requestPath = [] then
    db.offered env group (formatMatchingModelName model) model requestPath
  else db.offered env group model model requestPath

/-- The channels with an enabled ability of the highest priority that serve
the path. -/
def RouteDB.topServing (env : RouteEnv) (db : RouteDB) (group model requestPath : String) : List Channel :=
  db.channels.rows.filter fun c =>
    (∃ a ∈ db.topAbilities group model, a.channelId = c.id) ∧
      env.servesPath requestPath model c = true

section Rows

variable {env : RouteEnv} {db : RouteDB} {group model requestPath : String} {id : Int}

theorem mem_entries {c : Channel} :
    id ∈ c.entries group model ↔ c.status = .enabled ∧ c.Lists group model ∧ c.id = id := by
  unfold Channel.entries
  split
  next henabled =>
    simp only [mem_flatMap, mem_filterMap, Option.ite_none_right_eq_some, Option.some.injEq]
    constructor
    · rintro ⟨g, hg, m, hm, ⟨rfl, rfl⟩, rfl⟩
      exact ⟨henabled, ⟨hg, hm⟩, rfl⟩
    · rintro ⟨-, ⟨hg, hm⟩, rfl⟩
      exact ⟨group, hg, model, hm, ⟨rfl, rfl⟩, rfl⟩
  next hdisabled =>
    simp [hdisabled]

theorem mem_group2model2channels (hsorts : env.Sorts) :
    id ∈ (initChannelCache env db).group2model2channels group model ↔
      ∃ c, db.channels.find? id = some c ∧ c.status = .enabled ∧ c.Lists group model := by
  show id ∈ env.sortByPriority _ ↔ _
  rw [(hsorts.byPriority _).mem_iff, mem_flatMap]
  constructor
  · rintro ⟨c, hc, hid⟩
    obtain ⟨henabled, hlists, rfl⟩ := mem_entries.mp hid
    exact ⟨c, Table.find?_eq_some_iff.mpr ⟨hc, rfl⟩, henabled, hlists⟩
  · rintro ⟨c, hc, henabled, hlists⟩
    exact ⟨c, Table.mem_of_find? hc, mem_entries.mpr ⟨henabled, hlists, Table.key_of_find? hc⟩⟩

theorem initChannelCache_coherent (hsorts : env.Sorts) (db : RouteDB) :
    (initChannelCache env db).Coherent := by
  intro group model id hid
  obtain ⟨c, hc, -⟩ := (mem_group2model2channels hsorts).mp hid
  exact ⟨c, hc, Table.key_of_find? hc⟩

theorem mem_filtered (hsorts : env.Sorts) (listed : String) :
    id ∈ filterChannelsByRequestPathAndModel env (initChannelCache env db).channelsIDM requestPath
        model ((initChannelCache env db).group2model2channels group listed) ↔
      ∃ c ∈ db.offered env group listed model requestPath, c.id = id := by
  unfold filterChannelsByRequestPathAndModel RouteDB.offered
  simp only [mem_filter, mem_group2model2channels hsorts, decide_eq_true_eq]
  constructor
  · rintro ⟨⟨c, hc, henabled, hlists⟩, hserves⟩
    refine ⟨c, ⟨Table.mem_of_find? hc, henabled, hlists, ?_⟩, Table.key_of_find? hc⟩
    have hlookup : (initChannelCache env db).channelsIDM id = some c := hc
    simpa [servedOrMissing, hlookup] using hserves
  · rintro ⟨c, ⟨hc, henabled, hlists, hserves⟩, rfl⟩
    have hfind := Table.find?_eq_some_iff.mpr ⟨hc, rfl⟩
    refine ⟨⟨c, hfind, henabled, hlists⟩, ?_⟩
    have hlookup : (initChannelCache env db).channelsIDM c.id = some c := hfind
    simpa [servedOrMissing, hlookup] using hserves

theorem mem_cache_candidates (hsorts : env.Sorts) :
    id ∈ (initChannelCache env db).candidates env group model requestPath ↔
      ∃ c ∈ db.serving env group model requestPath, c.id = id := by
  have hnil : filterChannelsByRequestPathAndModel env (initChannelCache env db).channelsIDM
      requestPath model ((initChannelCache env db).group2model2channels group model) = [] ↔
      db.offered env group model model requestPath = [] := by
    simp only [eq_nil_iff_forall_not_mem, mem_filtered hsorts, not_exists, not_and]
    exact ⟨fun h c hc => h c.id c hc rfl, fun h id c hc _ => h c hc⟩
  unfold ChannelCache.candidates RouteDB.serving
  by_cases hexact : db.offered env group model model requestPath = []
  · rw [if_pos (hnil.mpr hexact), if_pos hexact]
    exact mem_filtered hsorts _
  · rw [if_neg fun h => hexact (hnil.mp h), if_neg hexact]
    exact mem_filtered hsorts _

/-- The candidates of the tables are the channels of the highest priority. -/
theorem mem_table_candidates (hsorts : env.Sorts) :
    id ∈ db.candidates env group model requestPath ↔
      ∃ c ∈ db.topServing env group model requestPath, c.id = id := by
  have htop : ∀ a ∈ db.topAbilities group model, ∃ c, db.channels.find? a.channelId = some c := by
    intro a ha
    obtain ⟨c, hc, -⟩ := RouteDB.find?_of_ability
      (mem_of_mem_filter (mem_of_mem_filter ha))
    exact ⟨c, hc⟩
  unfold RouteDB.candidates RouteDB.topServing filterAbilitiesByRequestPathAndModel
  simp only [mem_map, mem_filter, (hsorts.byWeight _).mem_iff, decide_eq_true_eq]
  constructor
  · rintro ⟨a, ⟨ha, hserves⟩, rfl⟩
    obtain ⟨c, hc⟩ := htop a ha
    have hid : c.id = a.channelId := Table.key_of_find? hc
    refine ⟨c, ⟨Table.mem_of_find? hc, ⟨a, ha, hid.symm⟩, ?_⟩, hid⟩
    simpa [servedOrMissing, hc] using hserves
  · rintro ⟨c, ⟨hc, ⟨a, ha, hid⟩, hserves⟩, rfl⟩
    refine ⟨a, ⟨ha, ?_⟩, hid⟩
    have hfind := Table.find?_eq_some_iff.mpr ⟨hc, hid.symm⟩
    simpa [servedOrMissing, hfind] using hserves

end Rows

/-! ### Filling the maps -/

section Maps

/-- What `InitChannelCache` files: the group, the model and the channel's id, in
the order of its loops. -/
def RouteDB.filings (db : RouteDB) : List (String × String × Int) :=
  db.channels.rows.flatMap fun c =>
    if c.status = .enabled then
      (splitComma c.group).flatMap fun g => (splitComma c.models).map fun m => (g, m, c.id)
    else []

variable (groups : List String) (lists : String → String → List Int)

/-- A turn of the innermost loop.  Only `groups` have a map; to write to that of
another group is a panic. -/
def fileChannel (x : String × String × Int) : Option (String → String → List Int) :=
  if x.1 ∈ groups then
    some fun g m => if x.1 = g ∧ x.2.1 = m then lists g m ++ [x.2.2] else lists g m
  else none

variable {groups}

theorem foldlM_fileChannel {l : List (String × String × Int)} (h : ∀ x ∈ l, x.1 ∈ groups) :
    l.foldlM (fileChannel groups) lists = some fun g m =>
      lists g m ++ l.filterMap fun x => if x.1 = g ∧ x.2.1 = m then some x.2.2 else none := by
  induction l generalizing lists with
  | nil => simp
  | cons x l ih =>
    obtain ⟨hx, hl⟩ := forall_mem_cons.mp h
    rw [foldlM_cons, fileChannel, if_pos hx, Option.bind_eq_bind, Option.bind_some, ih _ hl]
    congr 1
    funext g m
    by_cases hkey : x.1 = g ∧ x.2.1 = m <;> simp [hkey]

/-- **The loops of `InitChannelCache` never write to a missing map**, although they
take the maps from the abilities and the groups from the channels, and what they
build is what `initChannelCache` sorts. -/
theorem initChannelCache_fills_maps (db : RouteDB) :
    db.filings.foldlM (fileChannel (db.abilities.map (·.group))) (fun _ _ => []) =
      some fun g m => db.channels.rows.flatMap fun c => c.entries g m := by
  rw [foldlM_fileChannel]
  · congr 1
    funext g m
    rw [nil_append, RouteDB.filings, filterMap_flatMap]
    congr 1
    funext c
    unfold Channel.entries
    split
    · simp only [filterMap_flatMap, filterMap_map]
      rfl
    · rfl
  · intro x hx
    obtain ⟨c, hc, hx⟩ := mem_flatMap.mp hx
    split at hx
    · obtain ⟨g, hg, hx⟩ := mem_flatMap.mp hx
      obtain ⟨m, -, rfl⟩ := mem_map.mp hx
      obtain ⟨a, ha, hga⟩ := exists_ability_of_group hg
      exact mem_map.mpr ⟨a, (db.written a).mpr ⟨c, hc, ha⟩, hga⟩
    · cases hx

end Maps

/-! ### Outcomes -/

/-- How a choice ends. -/
inductive RouteClass where
  | noChannel
  | costBreach
  | channel
  | failed
deriving DecidableEq, Repr

def routeClass : Except RouteErr (Option Selected) → RouteClass
  | .ok none => .noChannel
  | .ok (some _) => .channel
  | .error (.costBreach _) => .costBreach
  | .error (.text _) => .failed

/-- The routing rule on rows: what becomes of the channels `rows`. -/
structure RowsRouted (env : RouteEnv) (f : ChannelCostFilter) (rows : List Channel)
    (r : Except RouteErr (Option Selected)) : Prop where
  none : rows = [] → routeClass r = .noChannel
  chosen : rows ≠ [] → (∃ c ∈ rows, f.Passes env.newFromString c) ∨ f.allowCostBreach = true →
    ∃ sel, r = .ok (some sel) ∧ sel.channel ∈ rows ∧
      ((∃ c ∈ rows, f.Passes env.newFromString c) → f.Passes env.newFromString sel.channel)
  breach : rows ≠ [] → (¬ ∃ c ∈ rows, f.Passes env.newFromString c) → f.allowCostBreach = false →
    routeClass r = .costBreach

section Outcomes

variable {env : RouteEnv} {db : RouteDB} {f : ChannelCostFilter} {rows : List Channel}
  {cands : List Int} {r : Except RouteErr (Option Selected)}

/-- The rule on ids is the rule on the rows they name. -/
theorem rowsRouted_of_routed (h : Routed db.channels.find? (passesCost env db.channels.find? f)
      f.allowCostBreach cands r)
    (hrows : ∀ c ∈ rows, c ∈ db.channels.rows) (hmem : ∀ id, id ∈ cands ↔ ∃ c ∈ rows, c.id = id) :
    RowsRouted env f rows r := by
  have hfind : ∀ c ∈ rows, db.channels.find? c.id = some c :=
    fun c hc => Table.find?_eq_some_iff.mpr ⟨hrows c hc, rfl⟩
  have hnil : cands = [] ↔ rows = [] := by
    simp only [eq_nil_iff_forall_not_mem, hmem, not_exists, not_and]
    exact ⟨fun h c hc => h c.id c hc rfl, fun h id c hc _ => h c hc⟩
  have hcost : ∀ c ∈ rows, (passesCost env db.channels.find? f c.id = true ↔
      f.Passes env.newFromString c) := by
    intro c hc
    simp [passesCost, hfind c hc]
  have hpass : (∃ id ∈ cands, passesCost env db.channels.find? f id = true) ↔
      ∃ c ∈ rows, f.Passes env.newFromString c := by
    constructor
    · rintro ⟨id, hid, hp⟩
      obtain ⟨c, hc, rfl⟩ := (hmem id).mp hid
      exact ⟨c, hc, (hcost c hc).mp hp⟩
    · rintro ⟨c, hc, hp⟩
      exact ⟨c.id, (hmem c.id).mpr ⟨c, hc, rfl⟩, (hcost c hc).mpr hp⟩
  refine ⟨fun hne => ?_, fun hne hsome => ?_, fun hne hnone hallow => ?_⟩
  · rw [h.none (hnil.mpr hne)]
    rfl
  · obtain ⟨sel, hsel, hrow, hcand, hp⟩ := h.chosen (fun e => hne (hnil.mp e))
      (hsome.imp_left hpass.mpr)
    -- the row of the chosen id is the channel returned
    obtain ⟨c, hc, hid⟩ := (hmem _).mp hcand
    have hsame : sel.channel = c := by
      rw [← hid, hfind c hc] at hrow
      exact (Option.some.inj hrow).symm
    refine ⟨sel, hsel, hsame ▸ hc, fun e => ?_⟩
    have hp := hp (hpass.mpr e)
    rw [hsame] at hp ⊢
    exact (hcost c hc).mp hp
  · obtain ⟨message, hr⟩ := h.breach (fun e => hne (hnil.mp e)) (fun e => hnone (hpass.mp e)) hallow
    rw [hr]
    rfl

theorem RowsRouted.class_of_ne_nil (h : RowsRouted env f rows r) (hne : rows ≠ []) :
    routeClass r = .channel ∨ routeClass r = .costBreach := by
  by_cases hsome : (∃ c ∈ rows, f.Passes env.newFromString c) ∨ f.allowCostBreach = true
  · obtain ⟨sel, rfl, -⟩ := h.chosen hne hsome
    exact Or.inl rfl
  · rw [not_or, Bool.not_eq_true] at hsome
    exact Or.inr (h.breach hne hsome.1 hsome.2)

/-- Two results, of a list and of a part of it, are as one exactly when the
part offers what the list does. -/
theorem rowsRouted_agree_iff {rows' : List Channel} {r' : Except RouteErr (Option Selected)}
    (hr : RowsRouted env f rows r) (hr' : RowsRouted env f rows' r') (hsub : rows' ⊆ rows) :
    (routeClass r = routeClass r' ∧ ((∃ c ∈ rows, f.Passes env.newFromString c) →
          routeClass r ≠ .costBreach ∧ routeClass r' ≠ .costBreach ∧
            (∀ sel, r = .ok (some sel) → f.Passes env.newFromString sel.channel) ∧
            ∀ sel, r' = .ok (some sel) → f.Passes env.newFromString sel.channel)) ↔ rows = [] ∨
        rows' ≠ [] ∧ ((∃ c ∈ rows, f.Passes env.newFromString c) →
          ∃ c ∈ rows', f.Passes env.newFromString c) := by
  constructor
  · rintro ⟨hclass, hbudget⟩
    refine or_iff_not_imp_left.mpr fun hne => ⟨fun hne' => ?_, fun hpass => ?_⟩
    · rw [hr'.none hne'] at hclass
      rcases hr.class_of_ne_nil hne with h | h <;> rw [h] at hclass <;> cases hclass
    · obtain ⟨-, hno, -, hwithin⟩ := hbudget hpass
      have hne' : rows' ≠ [] := by
        intro hne'
        obtain ⟨sel, hsel, -⟩ := hr.chosen hne (Or.inl hpass)
        rw [hr'.none hne', hsel] at hclass
        cases hclass
      by_contra hnone
      cases hallow : f.allowCostBreach with
      | false => exact hno (hr'.breach hne' hnone hallow)
      | true =>
        obtain ⟨sel, hsel, hmem, -⟩ := hr'.chosen hne' (Or.inr hallow)
        exact hnone ⟨sel.channel, hmem, hwithin sel hsel⟩
  · rintro (hnil | ⟨hne', hsome⟩)
    · have hnil' : rows' = [] := subset_nil.mp (hnil ▸ hsub)
      refine ⟨(hr.none hnil).trans (hr'.none hnil').symm, ?_⟩
      rintro ⟨c, hc, -⟩
      rw [hnil] at hc
      cases hc
    · have hne : rows ≠ [] := by
        rintro rfl
        exact hne' (subset_nil.mp hsub)
      by_cases hpass : ∃ c ∈ rows, f.Passes env.newFromString c
      · obtain ⟨sel, rfl, -, hp⟩ := hr.chosen hne (Or.inl hpass)
        obtain ⟨sel', rfl, -, hp'⟩ := hr'.chosen hne' (Or.inl (hsome hpass))
        refine ⟨rfl, fun _ => ⟨nofun, nofun, ?_, ?_⟩⟩
        · rintro _ ⟨⟩
          exact hp hpass
        · rintro _ ⟨⟩
          exact hp' (hsome hpass)
      · have hpass' : ¬ ∃ c ∈ rows', f.Passes env.newFromString c :=
          fun ⟨c, hc, hp⟩ => hpass ⟨c, hsub hc, hp⟩
        refine ⟨?_, fun h => absurd h hpass⟩
        cases hallow : f.allowCostBreach with
        | false => exact (hr.breach hne hpass hallow).trans (hr'.breach hne' hpass' hallow).symm
        | true =>
          obtain ⟨sel, rfl, -⟩ := hr.chosen hne (Or.inr hallow)
          obtain ⟨sel', rfl, -⟩ := hr'.chosen hne' (Or.inr hallow)
          rfl

end Outcomes

/-! ### Agreement -/

variable {intn : Nat → Nat}

section Agreement

variable {env : RouteEnv} (db : RouteDB) {f : ChannelCostFilter} (group model requestPath : String)

theorem topServing_subset :
    db.topServing env group model requestPath ⊆ db.serving env group model requestPath := by
  intro c hc
  obtain ⟨hrow, hkind⟩ := mem_filter.mp hc
  obtain ⟨⟨a, ha, hid⟩, hserves⟩ := of_decide_eq_true hkind
  obtain ⟨hmem, hpair⟩ := mem_filter.mp (mem_of_mem_filter ha)
  obtain ⟨hgroup, hmodel, henabled⟩ := of_decide_eq_true hpair
  obtain ⟨c', hc', hability⟩ := RouteDB.find?_of_ability hmem
  have hsame : c' = c := by
    have hfind := Table.find?_eq_some_iff.mpr ⟨hrow, hid.symm⟩
    rw [hc'] at hfind
    exact Option.some.inj hfind
  subst hsame
  obtain ⟨hlists, hform⟩ := mem_addAbilities hability
  have hstatus : c'.status = .enabled := by
    rw [hform] at henabled
    exact of_decide_eq_true henabled
  rw [hgroup, hmodel] at hlists
  have hoffered : c' ∈ db.offered env group model model requestPath :=
    mem_filter.mpr ⟨hrow, decide_eq_true ⟨hstatus, hlists, hserves⟩⟩
  unfold RouteDB.serving
  rw [if_neg (ne_nil_of_mem hoffered)]
  exact hoffered

theorem cache_routed (hsorts : env.Sorts) (hf : f.Enabled)
    (hintn : Draws intn) (retry : Nat) : RowsRouted env f (db.serving env group model requestPath)
      (getRandomSatisfiedChannel intn env (initChannelCache env db) group model retry requestPath
        (some f)) := by
  have h := getRandomSatisfiedChannel_routed group model env hintn
    (initChannelCache_coherent hsorts db) hf retry requestPath
  refine rowsRouted_of_routed h (fun c hc => ?_) fun id => mem_cache_candidates hsorts
  unfold RouteDB.serving at hc
  split at hc <;> exact mem_of_mem_filter hc

theorem tables_routed (hsorts : env.Sorts) (hf : f.Enabled) (hintn : Draws intn) :
    RowsRouted env f (db.topServing env group model requestPath)
      (getChannel intn env db group model 0 requestPath (some f)) :=
  rowsRouted_of_routed (getChannel_routed hintn hsorts hf group model requestPath)
    (fun _ hc => mem_of_mem_filter hc) fun _ => mem_table_candidates hsorts

/-- **The two selectors agree**, whatever is drawn, exactly when there is no
channel for the model or the channels of the highest priority offer what all
of them do: a channel that serves the path, and one within the budget if any
is. -/
theorem selectors_agree_iff (hsorts : env.Sorts) (hf : f.Enabled) : (∀ intn intn', Draws intn → Draws intn' →
      let cached := getRandomSatisfiedChannel intn env (initChannelCache env db) group model 0
        requestPath (some f)
      let stored := getChannel intn' env db group model 0 requestPath (some f)
      routeClass cached = routeClass stored ∧
        ((∃ c ∈ db.serving env group model requestPath, f.Passes env.newFromString c) →
          routeClass cached ≠ .costBreach ∧ routeClass stored ≠ .costBreach ∧
            (∀ sel, cached = .ok (some sel) → f.Passes env.newFromString sel.channel) ∧
            ∀ sel, stored = .ok (some sel) → f.Passes env.newFromString sel.channel)) ↔
      db.serving env group model requestPath = [] ∨
        db.topServing env group model requestPath ≠ [] ∧
          ((∃ c ∈ db.serving env group model requestPath, f.Passes env.newFromString c) →
            ∃ c ∈ db.topServing env group model requestPath, f.Passes env.newFromString c) := by
  have hagree := fun {intn intn' : Nat → Nat} (h : Draws intn) (h' : Draws intn') =>
    rowsRouted_agree_iff (cache_routed db group model requestPath hsorts hf h 0)
      (tables_routed db group model requestPath hsorts hf h')
      (topServing_subset db group model requestPath)
  have hzero : Draws fun _ => 0 := fun n hn => hn
  exact ⟨fun h => (hagree hzero hzero).mp (h _ _ hzero hzero),
    fun h intn intn' hintn hintn' => (hagree hintn hintn').mpr h⟩

end Agreement

/-! ### A cheaper channel of lower priority -/

/-- Two prices; the rows stay in the order they have. -/
def demoRouteEnv : RouteEnv where
  newFromString s := if s = "0.9" then some (9 / 10) else if s = "0.3" then some (3 / 10) else none
  supportsPath _ _ _ := true
  sortByPriority l := l
  orderByWeight l := l

theorem demoRouteEnv_sorts : demoRouteEnv.Sorts where
  byPriority l := .refl l
  byWeight l := .refl l

/-- A channel that loses money, of the given priority, and one that does not. -/
def demoChannels (priority : Int) : Table Channel.id where
  rows :=
    [{ id := 1, models := "gpt", priority := some priority, costRatio := some "0.9" },
      { id := 2, models := "gpt", costRatio := some "0.3" }]
  nodup := by simp

def demoRouteDB (priority : Int) : RouteDB where
  channels := demoChannels priority
  abilities := (demoChannels priority).rows.flatMap (·.addAbilities)
  written _ := mem_flatMap

def demoCostFilter : ChannelCostFilter := { sellRatio := 1 / 2 }

/-- With equal priorities both choose the channel within the budget. -/
theorem selectors_agree_on_equal_priorities :
    let cached := getRandomSatisfiedChannel (fun _ => 0) demoRouteEnv
      (initChannelCache demoRouteEnv (demoRouteDB 0)) "default" "gpt" 0 "" (some demoCostFilter)
    let stored := getChannel (fun _ => 0) demoRouteEnv (demoRouteDB 0) "default" "gpt" 0 ""
      (some demoCostFilter)
    routeClass cached = routeClass stored := by
  have h := (selectors_agree_iff (demoRouteDB 0) "default" "gpt" "" demoRouteEnv_sorts
    (show demoCostFilter.Enabled by decide +kernel)).mpr (Or.inr (by decide +kernel))
  exact (h (fun _ => 0) (fun _ => 0) (fun _ hn => hn) fun _ hn => hn).1

/-- With a higher priority for the other one, the tables report a breach. -/
theorem selectors_disagree_on_priorities :
    let cached := getRandomSatisfiedChannel (fun _ => 0) demoRouteEnv
      (initChannelCache demoRouteEnv (demoRouteDB 10)) "default" "gpt" 0 "" (some demoCostFilter)
    let stored := getChannel (fun _ => 0) demoRouteEnv (demoRouteDB 10) "default" "gpt" 0 ""
      (some demoCostFilter)
    routeClass cached = .channel ∧ routeClass stored = .costBreach ∧
      ∃ c ∈ (demoRouteDB 10).serving demoRouteEnv "default" "gpt" "",
        demoCostFilter.Passes demoRouteEnv.newFromString c := by
  decide +kernel

end MicrossApi
