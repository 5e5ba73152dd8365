/-
MicrossApi/BatchUpdate.lean

The batch updater (model/utils.go): quota changes are summed up in memory, one
map for each kind, and written to the database from time to time.  Recording
a change and taking a map are exclusive by the lock of the map; between and
after these sections everything interleaves, also several runs of
`batchUpdate`.  A state holds the maps, every run with what it has taken and
not yet applied, and the columns; a label is one exclusive section or one
statement.  Map iteration picks its entries in any order.

The sums in the maps are Go's `int`, so they are exact up to multiples of
`2 ^ 64`, and exact when none leaves the range.  Every row exists and every
statement succeeds.
-/
import Mathlib.Algebra.BigOperators.Ring.Finset
import Mathlib.Data.ZMod.Basic
import MicrossApi.StepSystem
import MicrossApi.Table

namespace MicrossApi

open List StepSystem

/-! ### Maps of changes -/

/-- `BatchUpdateType…`. -/
inductive BatchUpdateType where
  | userQuota
  | tokenQuota
  | usedQuota
  | channelUsedQuota
  | requestCount
deriving DecidableEq, Repr

/-- The types in the order of their numbers. -/
def batchUpdateTypes : List BatchUpdateType :=
  [.userQuota, .tokenQuota, .usedQuota, .channelUsedQuota, .requestCount]

/-- A value of type `int`. -/
def goInt (x : Int) : Int := x.bmod (2 ^ 64)

/-- `map[int]int`. -/
abbrev DeltaMap := Table (Prod.fst : Int × Int → Int)

namespace DeltaMap

/-- `store[id]`; what is not there reads as 0. -/
def value (m : DeltaMap) (id : Int) : Int := ((m.find? id).map Prod.snd).getD 0

/-- The section of `addNewRecord`. -/
def addNewRecord (m : DeltaMap) (id value : Int) : DeltaMap :=
  match m.find? id with
  | none => m.insert (id, value)
  | some _ => m.modify id (fun r => (r.1, goInt (r.2 + value))) (fun _ => rfl)

/-- Adding `v` leaves the range of `int`. -/
def Wraps (m : DeltaMap) (id v : Int) : Prop :=
  (m.find? id).isSome ∧ goInt (m.value id + v) ≠ m.value id + v
deriving Decidable

end DeltaMap

/-! ### The database -/

/-- The columns the updater writes, by the id of their row. -/
structure QuotaColumns where
  userQuota : Int → Int := fun _ => 0
  userUsedQuota : Int → Int := fun _ => 0
  userRequestCount : Int → Int := fun _ => 0
  tokenRemainQuota : Int → Int := fun _ => 0
  tokenUsedQuota : Int → Int := fun _ => 0
  channelUsedQuota : Int → Int := fun _ => 0

variable (db : QuotaColumns)

/-- The column a type is about. -/
def QuotaColumns.column : BatchUpdateType → Int → Int
  | .userQuota => db.userQuota
  | .tokenQuota => db.tokenRemainQuota
  | .usedQuota => db.userUsedQuota
  | .channelUsedQuota => db.channelUsedQuota
  | .requestCount => db.userRequestCount

/-- `column + value` in the row `id`. -/
def plusAt (column : Int → Int) (id value : Int) : Int → Int :=
  fun i => if i = id then column i + value else column i

/-- One entry to apply. -/
inductive BatchEntry where
  | token (id value : Int)
  | channel (id value : Int)
  | user (id quota usedQuota requestCount : Int)
deriving DecidableEq, Repr

/-- `increaseTokenQuota`, `updateChannelUsedQuota` and
`updateUserQuotaUsedQuotaAndRequestCount`. -/
def BatchEntry.apply (db : QuotaColumns) : BatchEntry → QuotaColumns
  | .token id value =>
    { db with
      tokenRemainQuota := plusAt db.tokenRemainQuota id value
      tokenUsedQuota := plusAt db.tokenUsedQuota id (-value) }
  | .channel id value => { db with channelUsedQuota := plusAt db.channelUsedQuota id value }
  | .user id quota usedQuota requestCount =>
    if quota = 0 ∧ usedQuota = 0 ∧ requestCount = 0 then db
    else
      { db with
        userQuota := plusAt db.userQuota id quota
        userUsedQuota := plusAt db.userUsedQuota id usedQuota
        userRequestCount := plusAt db.userRequestCount id requestCount }

/-! ### Runs of `batchUpdate` -/

/-- The maps a run has taken so far; those of the types still to come are
empty. -/
structure Taken where
  rest : List BatchUpdateType
  stores : BatchUpdateType → DeltaMap
  nodup : rest.Nodup
  fresh : ∀ t ∈ rest, stores t = Table.empty

/-- Where a run of `batchUpdate` is: looking for data, taking the maps, or
applying the groups of entries one after the other. -/
inductive BatchRun where
  | checking (rest : List BatchUpdateType)
  | swapping (taken : Taken)
  | applying (groups : List (List BatchEntry))
  | done

/-- Nothing is taken yet. -/
def Taken.nothing : Taken where
  rest := batchUpdateTypes
  stores _ := Table.empty
  nodup := by decide
  fresh _ _ := rfl

/-- Take the map `m` of the next type. -/
def Taken.take (x : Taken) {t : BatchUpdateType} {rest : List BatchUpdateType}
    (h : x.rest = t :: rest) (m : DeltaMap) : Taken where
  rest := rest
  stores u := if u = t then m else x.stores u
  nodup := (nodup_cons.mp (h ▸ x.nodup)).2
  fresh u hu := by
    have hne : u ≠ t := fun e => (nodup_cons.mp (h ▸ x.nodup)).1 (e ▸ hu)
    rw [if_neg hne]
    exact x.fresh u (h ▸ mem_cons_of_mem t hu)

/-- The users of the three maps that are applied together. -/
def Taken.userIDs (x : Taken) : List Int :=
  ((x.stores .userQuota).rows.map Prod.fst ++ (x.stores .usedQuota).rows.map Prod.fst ++
    (x.stores .requestCount).rows.map Prod.fst).dedup

/-- What there is to apply: the tokens, the channels, and then the users. -/
def Taken.groups (x : Taken) : List (List BatchEntry) :=
  [(x.stores .tokenQuota).rows.map fun r => .token r.1 r.2,
    (x.stores .channelUsedQuota).rows.map fun r => .channel r.1 r.2,
    x.userIDs.map fun id =>
      .user id ((x.stores .userQuota).value id) ((x.stores .usedQuota).value id)
        ((x.stores .requestCount).value id)]

/-- The maps and the columns, which all runs share. -/
structure Shared where
  stores : BatchUpdateType → DeltaMap := fun _ => Table.empty
  db : QuotaColumns := {}

/-- The next section or statement of a run; `pick` chooses among the entries
of the current group. -/
def BatchRun.advance (pick : Nat) (s : Shared) : BatchRun → Shared × BatchRun
  | .checking [] => (s, .done)
  | .checking (t :: rest) =>
    if (s.stores t).rows ≠ [] then (s, .swapping .nothing) else (s, .checking rest)
  | .swapping x =>
    match h : x.rest with
    | [] => (s, .applying x.groups)
    | t :: _ =>
      ({ s with stores := fun u => if u = t then Table.empty else s.stores u },
        .swapping (x.take h (s.stores t)))
  | .applying [] => (s, .done)
  | .applying ([] :: groups) => (s, .applying groups)
  | .applying ((e :: group) :: groups) =>
    match (e :: group)[pick]? with
    | none => (s, .applying ((e :: group) :: groups))
    | some entry =>
      ({ s with db := entry.apply s.db }, .applying ((e :: group).eraseIdx pick :: groups))
  | .done => (s, .done)

/-! ### The system -/

/-- The maps, the columns, and all runs so far. -/
structure Updater where
  shared : Shared := {}
  runs : List BatchRun := []

/-- A change is recorded, a run starts, or a run goes on. -/
inductive BatchOp where
  | addNewRecord (type : BatchUpdateType) (id value : Int)
  | batchUpdate
  | advance (run pick : Nat)
deriving DecidableEq, Repr

/-- One step of anybody. -/
def batchStep (s : Updater) : BatchOp → Updater
  | .addNewRecord t id value =>
    { s with
      shared :=
        { s.shared with
          stores := fun u =>
            if u = t then (s.shared.stores t).addNewRecord id value else s.shared.stores u } }
  | .batchUpdate => { s with runs := s.runs ++ [.checking batchUpdateTypes] }
  | .advance run pick =>
    match s.runs[run]? with
    | none => s
    | some r =>
      { shared := (r.advance pick s.shared).1
        runs := s.runs.set run (r.advance pick s.shared).2 }

/-! ### What is on its way -/

variable (t : BatchUpdateType)

/-- What an entry adds to the column of a type in a row. -/
def BatchEntry.delta (id : Int) : BatchEntry → Int
  | .token i value => if t = .tokenQuota ∧ i = id then value else 0
  | .channel i value => if t = .channelUsedQuota ∧ i = id then value else 0
  | .user i quota usedQuota requestCount =>
    if i = id then
      match t with
      | .userQuota => quota
      | .usedQuota => usedQuota
      | .requestCount => requestCount
      | .tokenQuota => 0
      | .channelUsedQuota => 0
    else 0

/-- What a run has taken out of the map of a type and not yet applied. -/
def BatchRun.inFlight (id : Int) : BatchRun → Int
  | .checking _ => 0
  | .swapping x => (x.stores t).value id
  | .applying groups => (groups.flatten.map (·.delta t id)).sum
  | .done => 0

/-- All that is taken and not yet applied. -/
def Updater.inFlight (s : Updater) (t : BatchUpdateType) (id : Int) : Int :=
  (s.runs.map (·.inFlight t id)).sum

/-- What waits in the map of a type. -/
def Updater.pending (s : Updater) (t : BatchUpdateType) (id : Int) : Int :=
  (s.shared.stores t).value id

/-- What a label records. -/
def BatchOp.delta (id : Int) : BatchOp → Int
  | .addNewRecord u i value => if u = t ∧ i = id then value else 0
  | .batchUpdate => 0
  | .advance _ _ => 0

/-- The sum of what was recorded for a row. -/
def recorded (ops : List BatchOp) (t : BatchUpdateType) (id : Int) : Int :=
  (ops.map (·.delta t id)).sum

/-- The step sums without leaving the range of `int`. -/
def StaysInRange (s : Updater) : BatchOp → Prop
  | .addNewRecord t id value => ¬ (s.shared.stores t).Wraps id value
  | .batchUpdate => True
  | .advance _ _ => True

instance (s op) : Decidable (StaysInRange s op) := by
  unfold StaysInRange
  split <;> infer_instance

section Steps

variable {t : BatchUpdateType} {id : Int}

theorem value_addNewRecord (m : DeltaMap) (i v : Int) : (m.addNewRecord i v).value id
      = if id = i then (if (m.find? i).isSome then goInt (m.value i + v) else m.value i + v)
        else m.value id := by
  unfold DeltaMap.addNewRecord DeltaMap.value
  rcases hfind : m.find? i with - | ⟨j, old⟩
  · have hfree : m.find? (Prod.fst (i, v)) = none := hfind
    rw [Table.find?_insert hfree]
    by_cases h : id = i <;> simp [h]
  · by_cases h : id = i
    · subst h
      simp [hfind]
    · simp [h]

theorem column_apply (e : BatchEntry) :
    (e.apply db).column t id = db.column t id + e.delta t id := by
  have hplus : ∀ (column : Int → Int) (i v : Int),
      plusAt column i v id = column id + if i = id then v else 0 := by
    intro column i v
    unfold plusAt
    by_cases h : id = i
    · rw [if_pos h, if_pos h.symm]
    · rw [if_neg h, if_neg (Ne.symm h), add_zero]
  cases e with
  | token | channel => cases t <;> simp [BatchEntry.apply, BatchEntry.delta, QuotaColumns.column, hplus]
  | user i q u c =>
    dsimp only [BatchEntry.apply]
    by_cases hzero : q = 0 ∧ u = 0 ∧ c = 0
    · obtain ⟨rfl, rfl, rfl⟩ := hzero
      cases t <;> simp [BatchEntry.delta]
    · rw [if_neg hzero]
      cases t <;> simp [BatchEntry.delta, QuotaColumns.column, hplus]

/-- The entries made of what was taken add up to it. -/
theorem sum_groups (x : Taken) : (x.groups.flatten.map (·.delta t id)).sum = (x.stores t).value id := by
  have htable : ∀ m : DeltaMap, (m.rows.map fun r => if r.1 = id then r.2 else 0).sum = m.value id :=
    fun m => m.sum_map_key id Prod.snd
  -- a user appears once, and every user with a value appears
  have hnodup : x.userIDs.Nodup := nodup_dedup _
  have husers : ∀ m : DeltaMap, (∀ r ∈ m.rows, r.1 ∈ x.userIDs) →
      (x.userIDs.map fun i => if i = id then m.value i else 0).sum = m.value id := by
    intro m hm
    rw [sum_map_ite_eq]
    by_cases hid : id ∈ x.userIDs
    · rw [count_eq_one_of_mem hnodup hid]
      simp
    have hnone : m.find? id = none := by
      refine Table.find?_eq_none_iff.mpr fun r hr e => hid ?_
      exact e ▸ hm r hr
    have hzero : m.value id = 0 := by
      unfold DeltaMap.value
      rw [hnone]
      rfl
    rw [hzero]
    simp
  have hquota := husers (x.stores .userQuota) fun r hr => by
    simp only [Taken.userIDs, mem_dedup, mem_append]
    exact Or.inl (Or.inl (mem_map_of_mem hr))
  have hused := husers (x.stores .usedQuota) fun r hr => by
    simp only [Taken.userIDs, mem_dedup, mem_append]
    exact Or.inl (Or.inr (mem_map_of_mem hr))
  have hcount := husers (x.stores .requestCount) fun r hr => by
    simp only [Taken.userIDs, mem_dedup, mem_append]
    exact Or.inr (mem_map_of_mem hr)
  cases t <;>
    simp [Taken.groups, BatchEntry.delta, Function.comp_def, htable, hquota, hused, hcount]

/-- A run moves amounts from the map over itself to the column, and loses
none. -/
theorem advance_conserves (t : BatchUpdateType) (id : Int) (pick : Nat) (s : Shared) (r : BatchRun) :
    (r.advance pick s).1.db.column t id + ((r.advance pick s).1.stores t).value id
        + (r.advance pick s).2.inFlight t id
      = s.db.column t id + (s.stores t).value id + r.inFlight t id := by
  cases r with
  | checking rest =>
    cases rest with
    | nil => rfl
    | cons =>
      dsimp only [BatchRun.advance]
      split <;> rfl
  | swapping x =>
    dsimp only [BatchRun.advance]
    split
    · show _ + _ + (x.groups.flatten.map (·.delta t id)).sum = _
      rw [sum_groups]
      rfl
    rename_i u rest hrest
    dsimp only [BatchRun.inFlight, Taken.take]
    by_cases hu : t = u
    · subst hu
      have hfresh : x.stores t = Table.empty := x.fresh t (hrest ▸ mem_cons_self)
      rw [if_pos rfl, if_pos rfl, hfresh]
      omega
    · rw [if_neg hu, if_neg hu]
  | applying groups =>
    cases groups with
    | nil => rfl
    | cons group =>
      cases group with
      | nil => rfl
      | cons e group =>
        dsimp only [BatchRun.advance]
        split
        · rfl
        rename_i entry hentry
        dsimp only [BatchRun.inFlight]
        have hsplit : ((e :: group).map (·.delta t id)).sum
            = entry.delta t id + (((e :: group).eraseIdx pick).map (·.delta t id)).sum := by
          obtain ⟨hlt, rfl⟩ := List.getElem?_eq_some_iff.mp hentry
          exact ((getElem_cons_eraseIdx_perm hlt).map (·.delta t id)).sum_eq.symm
        rw [column_apply, flatten_cons, flatten_cons, map_append,
          map_append, sum_append, sum_append]
        omega
  | done => rfl

variable (s : Updater)

/-- The column with everything on its way to it. -/
def Updater.total (t : BatchUpdateType) (id : Int) : Int :=
  s.shared.db.column t id + s.pending t id + s.inFlight t id

theorem total_advance (run pick : Nat) : (batchStep s (.advance run pick)).total t id = s.total t id := by
  dsimp only [batchStep]
  rcases hrun : s.runs[run]? with - | r
  · rfl
  obtain ⟨hlt, rfl⟩ := List.getElem?_eq_some_iff.mp hrun
  have hmoved := advance_conserves t id pick s.shared s.runs[run]
  dsimp only [Updater.total, Updater.pending, Updater.inFlight]
  rw [map_set, sum_set', dif_pos (by rw [length_map]; exact hlt), getElem_map]
  omega

theorem total_batchUpdate : (batchStep s .batchUpdate).total t id = s.total t id := by
  dsimp only [batchStep, Updater.total, Updater.pending, Updater.inFlight]
  rw [map_append, sum_append]
  show _ + (_ + (0 + 0)) = _
  omega

theorem total_addNewRecord (u : BatchUpdateType) (i v : Int) : (batchStep s (.addNewRecord u i v)).total t id
      = s.total t id + if u = t ∧ i = id then
          (if ((s.shared.stores u).find? i).isSome then goInt (s.pending u i + v)
            else s.pending u i + v) - s.pending u i
        else 0 := by
  dsimp only [batchStep, Updater.total, Updater.pending, Updater.inFlight]
  by_cases hu : t = u
  · subst hu
    rw [if_pos rfl, value_addNewRecord]
    by_cases hi : id = i
    · subst hi
      rw [if_pos (show t = t ∧ id = id from ⟨rfl, rfl⟩)]
      omega
    · omega
  · rw [if_neg hu, if_neg fun h => hu h.1.symm]
    omega

theorem total_step {s : Updater} {op : BatchOp} (h : StaysInRange s op) :
    (batchStep s op).total t id = s.total t id + op.delta t id := by
  cases op with
  | addNewRecord u i v =>
    rw [total_addNewRecord]
    dsimp only [BatchOp.delta]
    split
    next hrow =>
      split
      next hsome =>
        have hexact : goInt (s.pending u i + v) = s.pending u i + v := by
          by_contra hne
          exact h ⟨hsome, hne⟩
        omega
      · omega
    · rfl
  | batchUpdate =>
    rw [total_batchUpdate]
    exact (add_zero _).symm
  | advance =>
    rw [total_advance]
    exact (add_zero _).symm

theorem cast_goInt (x : Int) : ((goInt x : Int) : ZMod (2 ^ 64)) = x := by
  refine (ZMod.intCast_eq_intCast_iff _ _ _).mpr ?_
  exact Int.bmod_emod

/-- Every step adds what it records, up to multiples of `2 ^ 64`. -/
theorem cast_total_step (op : BatchOp) : (((batchStep s op).total t id : Int) : ZMod (2 ^ 64))
      = (s.total t id : Int) + (op.delta t id : Int) := by
  by_cases h : StaysInRange s op
  · rw [total_step h]
    push_cast
    rfl
  cases op with
  | addNewRecord =>
    obtain ⟨hsome, -⟩ := not_not.mp h
    rw [total_addNewRecord]
    dsimp only [BatchOp.delta]
    split
    · push_cast
      rw [cast_goInt]
      push_cast
      rw [add_sub_cancel_left]
    · push_cast
      rfl
  | batchUpdate | advance => exact absurd trivial h

end Steps

/-! ### A run that ends -/

/-- The types a run has not come to yet. -/
def BatchRun.ahead : BatchRun → List BatchUpdateType
  | .checking rest => rest
  | .swapping x => x.rest
  | .applying _ => []
  | .done => []

/-- The run has returned. -/
def BatchRun.Finished : BatchRun → Prop
  | .done => True
  | .checking _ => False
  | .swapping _ => False
  | .applying _ => False

instance (r : BatchRun) : Decidable r.Finished := by
  unfold BatchRun.Finished
  split <;> infer_instance

/-- The label records nothing. -/
def BatchOp.Silent : BatchOp → Prop
  | .addNewRecord _ _ _ => False
  | .batchUpdate => True
  | .advance _ _ => True

instance (op : BatchOp) : Decidable op.Silent := by
  unfold BatchOp.Silent
  split <;> infer_instance

/-- The maps of the types the `k`-th run has passed are empty. -/
def Passed (k : Nat) (s : Updater) : Prop :=
  ∃ r, s.runs[k]? = some r ∧ ∀ t, t ∉ r.ahead → (s.shared.stores t).rows = []

theorem mem_batchUpdateTypes : t ∈ batchUpdateTypes := by
  cases t <;> decide

theorem advance_empties (pick : Nat) (s : Shared) (r : BatchRun) {t : BatchUpdateType}
    (h : (s.stores t).rows = []) : ((r.advance pick s).1.stores t).rows = [] := by
  fun_cases BatchRun.advance pick s r with
  | case5 x u rest hrest =>
    show (if t = u then Table.empty else s.stores t).rows = []
    split
    · rfl
    · exact h
  | _ => exact h

theorem advance_passes (pick : Nat) (s : Shared) (r : BatchRun)
    (h : ∀ t, t ∉ r.ahead → (s.stores t).rows = [])
    (ht : t ∉ (r.advance pick s).2.ahead) : ((r.advance pick s).1.stores t).rows = [] := by
  by_cases hpassed : t ∉ r.ahead
  · exact advance_empties pick s r (h t hpassed)
  have hahead := not_not.mp hpassed
  revert ht
  fun_cases BatchRun.advance pick s r with
  | case1 => exact absurd hahead not_mem_nil
  | case2 u rest hdata => exact fun ht => absurd (mem_batchUpdateTypes t) ht
  | case3 u rest hdata =>
    intro ht
    obtain rfl : t = u := (mem_cons.mp hahead).resolve_right ht
    exact not_not.mp hdata
  | case4 x hrest =>
    have hahead : t ∈ x.rest := hahead
    rw [hrest] at hahead
    exact absurd hahead not_mem_nil
  | case5 x u rest hrest =>
    intro ht
    have hahead : t ∈ x.rest := hahead
    rw [hrest] at hahead
    obtain rfl : t = u := (mem_cons.mp hahead).resolve_right ht
    show (if t = t then Table.empty else s.stores t).rows = []
    rw [if_pos rfl]
    rfl
  | _ => exact absurd hahead not_mem_nil

theorem Passed.step {k : Nat} {s : Updater} (h : Passed k s) {op : BatchOp} (hop : op.Silent) :
    Passed k (batchStep s op) := by
  obtain ⟨r, hr, hempty⟩ := h
  cases op with
  | addNewRecord => exact absurd hop not_false
  | batchUpdate =>
    refine ⟨r, ?_, hempty⟩
    obtain ⟨hlt, -⟩ := List.getElem?_eq_some_iff.mp hr
    exact (getElem?_append_left hlt).trans hr
  | advance run pick =>
    dsimp only [batchStep]
    rcases hrun : s.runs[run]? with - | r'
    · exact ⟨r, hr, hempty⟩
    by_cases hk : run = k
    · subst hk
      obtain rfl := Option.mem_unique hrun hr
      obtain ⟨hlt, -⟩ := List.getElem?_eq_some_iff.mp hr
      exact ⟨_, getElem?_set_self hlt, fun t => advance_passes t pick s.shared r' hempty⟩
    · refine ⟨r, (getElem?_set_ne hk).trans hr, fun t ht => ?_⟩
      exact advance_empties pick s.shared r' (hempty t ht)

theorem BatchRun.Finished.eq_done {r : BatchRun} (h : r.Finished) : r = .done := by
  cases r with
  | done => rfl
  | checking | swapping | applying => exact absurd h not_false

theorem nothing_on_its_way {s : Updater} {after : List BatchOp} (hsilent : ∀ op ∈ after, op.Silent)
    (hdone : ∀ r ∈ (exec batchStep (batchStep s .batchUpdate) after).runs, r.Finished)
    (id : Int) : (exec batchStep (batchStep s .batchUpdate) after).pending t id = 0 ∧
      (exec batchStep (batchStep s .batchUpdate) after).inFlight t id = 0 := by
  have hstart : Passed s.runs.length (batchStep s .batchUpdate) := by
    refine ⟨.checking batchUpdateTypes, ?_, fun t ht => absurd (mem_batchUpdateTypes t) ht⟩
    exact getElem?_concat_length
  obtain ⟨r, hr, hempty⟩ := exec_inv_along (fun _ _ hop hs => hs.step hop) hstart
    (along_of_forall hsilent _)
  constructor
  · have hfinished := hdone r (mem_of_getElem? hr)
    have hrows := hempty t (by rw [hfinished.eq_done]; exact not_mem_nil)
    unfold Updater.pending DeltaMap.value Table.find?
    rw [hrows]
    rfl
  · refine sum_eq_zero fun x hx => ?_
    obtain ⟨r, hr, rfl⟩ := mem_map.mp hx
    rw [(hdone r hr).eq_done]
    rfl

/-! ### Conservation -/

/-- Equal as values of type `int`, and as numbers if nothing has left its
range. -/
def SameInt (inRange : Prop) (x y : Int) : Prop := x ≡ y [ZMOD 2 ^ 64] ∧ (inRange → x = y)

/-- Nothing recorded, nobody running. -/
def Updater.start (db : QuotaColumns) : Updater := { shared := { db := db } }

theorem total_updater_start (id : Int) :
    (Updater.start db).total t id = db.column t id := by
  show db.column t id + 0 + 0 = db.column t id
  omega

theorem exec_total {db : QuotaColumns} {ops : List BatchOp}
    (hrange : Along batchStep StaysInRange (.start db) ops) (id : Int) :
    (exec batchStep (.start db) ops).total t id = db.column t id + recorded ops t id := by
  have hsum := exec_sum_along (f := fun s => s.total t id) (w := fun op => op.delta t id)
    (fun s op hop => total_step hop) hrange
  rwa [total_updater_start] at hsum

theorem exec_total_modEq (ops : List BatchOp) (id : Int) :
    (exec batchStep (.start db) ops).total t id ≡ db.column t id + recorded ops t id [ZMOD 2 ^ 64] := by
  have hevery : Along batchStep (fun _ _ => True) (.start db) ops :=
    along_of_forall (fun _ _ => trivial) _
  have hsum := exec_sum_along (f := fun s => ((s.total t id : Int) : ZMod (2 ^ 64)))
    (w := fun op => ((op.delta t id : Int) : ZMod (2 ^ 64)))
    (fun s op _ => cast_total_step s op) hevery
  refine (ZMod.intCast_eq_intCast_iff _ _ (2 ^ 64)).mp ?_
  rw [hsum, total_updater_start, recorded, Int.cast_add, Int.cast_list_sum, map_map]
  rfl

/-- **The batch updater conserves changes**: at every point of every
interleaving the change of a column, what waits for it and what is on its way
add up to what was recorded; and when a `batchUpdate` that nothing was recorded
during and after has returned, and all others have, the column has it all. -/
theorem batch_updater_conserves (ops : List BatchOp) (t : BatchUpdateType) (id : Int) :
    SameInt (Along batchStep StaysInRange (.start db) ops)
        ((exec batchStep (.start db) ops).shared.db.column t id - db.column t id
          + (exec batchStep (.start db) ops).pending t id + (exec batchStep (.start db) ops).inFlight t id)
        (recorded ops t id) ∧
      ∀ before after, ops = before ++ .batchUpdate :: after → (∀ op ∈ after, op.Silent) →
        (∀ r ∈ (exec batchStep (.start db) ops).runs, r.Finished) →
        SameInt (Along batchStep StaysInRange (.start db) ops)
          ((exec batchStep (.start db) ops).shared.db.column t id - db.column t id) (recorded ops t id) := by
  have hall : SameInt (Along batchStep StaysInRange (.start db) ops)
      ((exec batchStep (.start db) ops).shared.db.column t id - db.column t id
        + (exec batchStep (.start db) ops).pending t id
        + (exec batchStep (.start db) ops).inFlight t id)
      (recorded ops t id) := by
    constructor
    · have htotal := exec_total_modEq db t ops id
      have hmoved := htotal.sub_right (db.column t id)
      dsimp only [Updater.total] at hmoved
      rw [add_sub_cancel_left] at hmoved
      refine Eq.trans (congrArg (· % 2 ^ 64) ?_) hmoved
      omega
    · intro hrange
      have htotal := exec_total t hrange id
      dsimp only [Updater.total] at htotal
      omega
  refine ⟨hall, ?_⟩
  rintro before after rfl hsilent hdone
  rw [exec_append] at hdone
  obtain ⟨hpending, hflight⟩ := nothing_on_its_way t hsilent hdone id
  rw [exec_append, exec_cons] at hall ⊢
  rwa [hpending, hflight, add_zero, add_zero] at hall

/-- A run takes the map of the user quotas, and a second change is recorded
before it goes on. -/
def demoRecords : List BatchOp :=
  [.addNewRecord .userQuota 1 5, .batchUpdate, .advance 0 0, .advance 0 0,
    .addNewRecord .userQuota 1 3]

/-- A second run overtakes the first. -/
def demoOvertaking : List BatchOp :=
  List.replicate 12 (.advance 1 0) ++ List.replicate 10 (.advance 0 0)

theorem batch_updater_conserves_overtaken :
    (exec batchStep (.start {}) (demoRecords ++ .batchUpdate :: demoOvertaking)).shared.db.column
        .userQuota 1 - 0 = 8 := by
  have h := (batch_updater_conserves {} _ .userQuota 1).2 demoRecords demoOvertaking rfl
    (by decide) (by decide +kernel)
  exact (h.2 (by decide +kernel)).trans (by decide)

end MicrossApi
