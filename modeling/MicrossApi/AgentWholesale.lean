/-
MicrossApi/AgentWholesale.lean

What an agent pays for a model (model/agent_wholesale.go,
model/discount_simulate.go, model/model_meta.go): the cost of the cheapest
channel their group has for it, times their markup.  There is a function for
one model and one for a list of models, which asks the tables once for all of
them.

The batch query leaves the rows of different models in any order within one
channel; only the rows of one model are looked at together, and those are in
the order of their channels.  Hence the rows of a model do not depend on what
else was asked for (`candidatesByModels_eq`).
-/
import MicrossApi.Channel

namespace MicrossApi

open List

/-! ### Names to look up -/

/-- `normalizeLookupValues`: trimmed, without blanks, each once. -/
def normalizeLookupValues (values : List String) : List String :=
  ((values.map trimSpace).filter (· ≠ "")).reverse.dedup.reverse

theorem mem_normalizeLookupValues {values : List String} {v : String} :
    v ∈ normalizeLookupValues values ↔ v ≠ "" ∧ ∃ w ∈ values, trimSpace w = v := by
  unfold normalizeLookupValues
  simp only [mem_reverse, mem_dedup, mem_filter, mem_map, decide_eq_true_eq]
  exact and_comm

/-! ### Channels of a model -/

/-- The prices of channels as the store has them, with what lies outside:
parsing a decimal, how a query orders equal rows, and the operators' list of
automatic groups. -/
structure PriceBook where
  channels : Table Channel.id := Table.empty
  abilities : List Ability := []
  newFromString : String → Option ℚ
  orderByChannel : List (String × Int) → List (String × Int)
  autoGroups : List String := []

/-- `ORDER BY channel_id ASC` sorts what it is given. -/
structure PriceBook.Orders (book : PriceBook) : Prop where
  perm : ∀ l, (book.orderByChannel l).Perm l
  sorted : ∀ l, (book.orderByChannel l).Pairwise fun a b => a.2 ≤ b.2

theorem orders_of_insertionSort {book : PriceBook}
    (h : book.orderByChannel = fun l => l.insertionSort fun a b => a.2 ≤ b.2) : book.Orders where
  perm l := by
    rw [h]
    exact perm_insertionSort _ l
  sorted l := by
    rw [h]
    exact pairwise_insertionSort _ l

/-- `DiscountChannelCandidate`. -/
structure DiscountChannelCandidate where
  channelId : Int
  channelName : String
  costRatio : Option String
deriving DecidableEq, Repr

/-- `buildDiscountChannelCandidate`. -/
def buildDiscountChannelCandidate (c : Channel) : DiscountChannelCandidate where
  channelId := c.id
  channelName := c.name
  costRatio := c.costRatio.bind fun raw => if trimSpace raw = "" then none else some (trimSpace raw)

variable (book : PriceBook)

/-- The distinct pairs of model and channel among the enabled abilities. -/
def PriceBook.abilityPairs (groups names : List String) : List (String × Int) :=
  ((book.abilities.filter fun a => a.group ∈ groups ∧ a.model ∈ names ∧ a.enabled = true).map
    fun a => (a.model, a.channelId)).dedup

/-- `GetDiscountChannelCandidatesByModels`, as the map it returns. -/
def PriceBook.candidatesByModels (groups modelNames : List String)
    (model : String) : List DiscountChannelCandidate :=
  let rows := book.orderByChannel
    (book.abilityPairs (normalizeLookupValues groups) (normalizeLookupValues modelNames))
  (rows.filter (·.1 = model)).filterMap fun row =>
    (book.channels.find? row.2).map buildDiscountChannelCandidate

/-- `GetDiscountChannelCandidates`. -/
def PriceBook.candidates (groups : List String) (modelName : String) : List DiscountChannelCandidate :=
  book.candidatesByModels groups [trimSpace modelName] (trimSpace modelName)

section Candidates

variable {book : PriceBook} {groups names names' : List String} {model : String}

theorem mem_abilityPairs {p : String × Int} : p ∈ book.abilityPairs groups names ↔
      p.1 ∈ names ∧ ∃ a ∈ book.abilities, a.group ∈ groups ∧ a.enabled = true ∧ a.model = p.1 ∧
        a.channelId = p.2 := by
  unfold PriceBook.abilityPairs
  simp only [mem_dedup, mem_map, mem_filter, decide_eq_true_eq, Prod.ext_iff]
  constructor
  · rintro ⟨a, ⟨ha, hg, hm, he⟩, h1, h2⟩
    exact ⟨h1 ▸ hm, a, ha, hg, he, h1, h2⟩
  · rintro ⟨hm, a, ha, hg, he, h1, h2⟩
    exact ⟨a, ⟨ha, hg, h1 ▸ hm, he⟩, h1, h2⟩

theorem nodup_abilityPairs : (book.abilityPairs groups names).Nodup := nodup_dedup _

theorem ordered_pairs_eq (hbook : book.Orders) (h : model ∈ names) (h' : model ∈ names') :
    (book.orderByChannel (book.abilityPairs groups names)).filter (·.1 = model)
      = (book.orderByChannel (book.abilityPairs groups names')).filter (·.1 = model) := by
  have hperm : ((book.abilityPairs groups names).filter (·.1 = model)).Perm
      ((book.abilityPairs groups names').filter (·.1 = model)) := by
    refine (perm_ext_iff_of_nodup (nodup_abilityPairs.filter _)
      (nodup_abilityPairs.filter _)).mpr fun p => ?_
    simp only [mem_filter, mem_abilityPairs, decide_eq_true_eq]
    constructor
    · rintro ⟨⟨-, ha⟩, rfl⟩
      exact ⟨⟨h', ha⟩, rfl⟩
    · rintro ⟨⟨-, ha⟩, rfl⟩
      exact ⟨⟨h, ha⟩, rfl⟩
  have hboth := (((hbook.perm _).filter (·.1 = model)).trans hperm).trans
    ((hbook.perm _).filter (·.1 = model)).symm
  -- within one model the channel decides the row, so the order leaves no choice
  refine List.Perm.eq_of_pairwise (fun p q hp hq hpq hqp => ?_) ((hbook.sorted _).filter _)
    ((hbook.sorted _).filter _) hboth
  have hp : p.1 = model := of_decide_eq_true (mem_filter.mp hp).2
  have hq : q.1 = model := of_decide_eq_true (mem_filter.mp hq).2
  exact Prod.ext (hp.trans hq.symm) (le_antisymm hpq hqp)

/-- **The channels of a model do not depend on the other models asked for.** -/
theorem candidatesByModels_eq (hbook : book.Orders) (h : model ∈ names)
    (hmodel : trimSpace model = model) (hne : model ≠ "") :
    book.candidatesByModels groups names model = book.candidates groups model := by
  have hsingle : model ∈ normalizeLookupValues [model] :=
    mem_normalizeLookupValues.mpr ⟨hne, model, mem_singleton.mpr rfl, hmodel⟩
  have hnames : model ∈ normalizeLookupValues names :=
    mem_normalizeLookupValues.mpr ⟨hne, model, h, hmodel⟩
  unfold PriceBook.candidates PriceBook.candidatesByModels
  dsimp only
  rw [hmodel, ordered_pairs_eq hbook hnames hsingle]

theorem mem_candidatesByModels (hbook : book.Orders) {d : DiscountChannelCandidate} :
    d ∈ book.candidatesByModels groups names model ↔ model ∈ normalizeLookupValues names ∧
        ∃ c, (∃ a ∈ book.abilities, a.group ∈ normalizeLookupValues groups ∧ a.enabled = true ∧
          a.model = model ∧ book.channels.find? a.channelId = some c) ∧
          d = buildDiscountChannelCandidate c := by
  unfold PriceBook.candidatesByModels
  simp only [mem_filterMap, mem_filter, (hbook.perm _).mem_iff, mem_abilityPairs,
    decide_eq_true_eq, Option.map_eq_some_iff]
  constructor
  · rintro ⟨⟨_, _⟩, ⟨⟨hname, a, ha, hgroup, henabled, rfl, rfl⟩, rfl⟩, c, hc, rfl⟩
    exact ⟨hname, c, ⟨a, ha, hgroup, henabled, rfl, hc⟩, rfl⟩
  · rintro ⟨hname, c, ⟨a, ha, hgroup, henabled, rfl, hc⟩, rfl⟩
    exact ⟨(a.model, a.channelId), ⟨⟨hname, a, ha, hgroup, henabled, rfl, rfl⟩, rfl⟩, c, hc, rfl⟩

end Candidates

/-! ### The wholesale price -/

/-- `AgentWholesale`. -/
structure AgentWholesale where
  discount : String
  costRatio : String
  channelName : String
deriving DecidableEq, Repr

/-- The cost of a candidate, if it is one. -/
def PriceBook.candidateCost (c : DiscountChannelCandidate) : Option ℚ :=
  match c.costRatio with
  | none => none
  | some raw =>
    match book.newFromString (trimSpace raw) with
    | none => none
    | some cost => if cost ≤ 0 then none else some cost

/-- `lowestCostCandidate`: the first of the cheapest, with its name. -/
def PriceBook.lowestCostCandidate (candidates : List DiscountChannelCandidate) : Option (ℚ × String) :=
  candidates.foldl
    (fun lowest c =>
      match book.candidateCost c with
      | none => lowest
      | some cost =>
        match lowest with
        | none => some (cost, c.channelName)
        | some (l, name) => if cost < l then some (cost, c.channelName) else some (l, name))
    none

/-- `agentWholesaleGroups`. -/
def PriceBook.agentWholesaleGroups (userGroup : String) : List String :=
  if trimSpace userGroup = "" then ["default"]
  else if trimSpace userGroup = "auto" then
    if book.autoGroups = [] then ["default"] else book.autoGroups
  else [trimSpace userGroup]

/-- `EffectiveMarkupRatio`. -/
def AgentProfile.effectiveMarkupRatio (p : AgentProfile) : String :=
  if trimSpace p.markupRatio = "" then "1.1" else p.markupRatio

/-- The markup of an agent and the groups they buy in; none for anybody
else. -/
def PriceBook.agentTerms (db : DB) (userId : Int) : Option (ℚ × List String) :=
  match db.users.find? userId with
  | none => none
  | some user =>
    if user.subjectType ≠ .agent then none
    else
      match db.agentProfiles.find? userId with
      | none => none
      | some profile =>
        (book.newFromString (trimSpace profile.effectiveMarkupRatio)).map fun markup =>
          (markup, book.agentWholesaleGroups user.group)

/-- The price of a model with these channels. -/
def PriceBook.wholesaleOf (markup : ℚ) (candidates : List DiscountChannelCandidate) : Option AgentWholesale :=
  match book.lowestCostCandidate candidates with
  | none => none
  | some (lowestCost, channelName) =>
    if lowestCost * markup ≤ 0 ∨ 1 ≤ lowestCost * markup then none
    else
      some
        { discount := Rounding.stringFixed 6 (lowestCost * markup)
          costRatio := Rounding.stringFixed 6 lowestCost
          channelName := channelName }

/-- `ResolveAgentWholesale`. -/
def resolveAgentWholesale (book : PriceBook) (db : DB) (userId : Int) (modelName : String) :
    Option AgentWholesale :=
  if userId ≤ 0 ∨ trimSpace modelName = "" then none
  else
    match book.agentTerms db userId with
    | none => none
    | some (markup, groups) =>
      book.wholesaleOf markup (book.candidates groups (trimSpace modelName))

/-- `ResolveAgentWholesaleForModels`, as the map it returns. -/
def resolveAgentWholesaleForModels (book : PriceBook) (db : DB) (userId : Int)
    (modelNames : List String) (model : String) : Option AgentWholesale :=
  let nameList := normalizeLookupValues modelNames
  if userId ≤ 0 then none
  else
    match book.agentTerms db userId with
    | none => none
    | some (markup, groups) =>
      if model ∈ nameList then
        book.wholesaleOf markup (book.candidatesByModels groups nameList model)
      else none

/-- **The batch has the price of each model.** -/
theorem resolveAgentWholesaleForModels_eq {book : PriceBook} (hbook : book.Orders) (db : DB)
    (userId : Int) {modelNames : List String} {modelName : String} (h : modelName ∈ modelNames) :
    resolveAgentWholesaleForModels book db userId modelNames (trimSpace modelName)
      = resolveAgentWholesale book db userId modelName := by
  unfold resolveAgentWholesaleForModels resolveAgentWholesale
  by_cases hu : userId ≤ 0
  · rw [if_pos hu, if_pos (Or.inl hu)]
  rw [if_neg hu]
  by_cases hblank : trimSpace modelName = ""
  · have hout : trimSpace modelName ∉ normalizeLookupValues modelNames :=
      fun hm => (mem_normalizeLookupValues.mp hm).1 hblank
    rw [if_pos (Or.inr hblank)]
    rcases book.agentTerms db userId with - | ⟨markup, groups⟩
    · rfl
    · exact if_neg hout
  · have hin : trimSpace modelName ∈ normalizeLookupValues modelNames :=
      mem_normalizeLookupValues.mpr ⟨hblank, modelName, h, rfl⟩
    rw [if_neg (not_or.mpr ⟨hu, hblank⟩)]
    rcases book.agentTerms db userId with - | ⟨markup, groups⟩
    · rfl
    show (if trimSpace modelName ∈ normalizeLookupValues modelNames then _ else _) = _
    rw [if_pos hin, candidatesByModels_eq hbook hin (trimSpace_trimSpace modelName) hblank]

end MicrossApi
