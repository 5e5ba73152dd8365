/-
MicrossApi/ChannelKeys.lean

Channels with several keys (model/channel.go) and the choice of the next key.

The keys of a channel are numbered.  Its `ChannelInfo` is one column and holds
the statuses of the keys as well as the position at which polling goes on.
Polling a cached channel is a round robin: the calls return the enabled
positions in turn (`polling_round_robin`).
-/
import Mathlib.Data.List.Rotate
import MicrossApi.Channel

namespace MicrossApi

open List

/-! ### The keys of a channel -/

/-- `MultiKeyMode`; a text other than the two constants is `unknown`. -/
inductive MultiKeyMode where
  | random
  | polling
  | unknown
deriving DecidableEq

/-- `ChannelInfo`.  A key that is not in the list of statuses is enabled. -/
structure ChannelInfo where
  isMultiKey : Bool := false
  multiKeyStatusList : Nat → ChannelStatus := fun _ => .enabled
  multiKeyPollingIndex : Int := 0
  multiKeyMode : MultiKeyMode := .random

/-- A channel with its keys; `keys` is no column and set in the cache only. -/
structure KeyedChannel extends Channel where
  key : String := ""
  keys : List String := []
  channelInfo : ChannelInfo := {}

/-- The positions of the enabled keys among `n`. -/
def ChannelInfo.enabledIdx (info : ChannelInfo) (n : Nat) : List Nat :=
  (range n).filter (info.multiKeyStatusList · = .enabled)

-- `common.Unmarshal` into a list, each element as it is written.
variable (unmarshal : String → Option (List String))

/-- `GetKeys`. -/
def KeyedChannel.getKeys (c : KeyedChannel) : List String :=
  if c.key = "" then []
  else if c.keys ≠ [] then c.keys
  else
    let trimmed := trimSpace c.key
    match if trimmed.toList.head? = some '[' then unmarshal trimmed else none with
    | some arr => arr
    | none =>
      (((c.key.toList.dropWhile (· = '\n')).rdropWhile (· = '\n')).splitOn '\n').map String.ofList

/-! ### The next key -/

/-- The positions in the order in which polling looks at them. -/
def pollOrder (n start : Nat) : List Nat := (range n).map fun i => (start + i) % n

/-- Where polling starts; an index out of range counts as 0. -/
def ChannelInfo.start (info : ChannelInfo) (n : Nat) : Nat :=
  if info.multiKeyPollingIndex < 0 ∨ info.multiKeyPollingIndex ≥ n then 0 else info.multiKeyPollingIndex.toNat

/-- `GetNextEnabledKey`: the key and its position, and the `ChannelInfo` that is
left in the channel if the deferred save is reached.  `intn` draws the key in
random mode, `cached` is what `CacheGetChannelInfo` returns. -/
def KeyedChannel.getNextEnabledKey (intn : Nat → Nat) (cached : Except String ChannelInfo) (c : KeyedChannel) :
    Except String (String × Nat) × Option ChannelInfo :=
  let keys := c.getKeys unmarshal
  let result idx : Except String (String × Nat) := .ok (keys.getD idx "", idx)
  if ¬ c.channelInfo.isMultiKey then (.ok (c.key, 0), none)
  else if keys = [] then (.error "no keys available", none)
  else
    match c.channelInfo.enabledIdx keys.length with
    | [] => (.error "no enabled keys", none)
    | first :: rest =>
      match c.channelInfo.multiKeyMode with
      | .random => (result ((first :: rest).getD (intn (first :: rest).length) first), none)
      | .unknown => (result first, none)
      | .polling =>
        match cached with
        | .error err => (.error err, none)
        | .ok info =>
          match (pollOrder keys.length (info.start keys.length)).find?
            (c.channelInfo.multiKeyStatusList · = .enabled) with
          | some idx => (result idx,
              some { c.channelInfo with multiKeyPollingIndex := ((idx + 1) % keys.length : Nat) })
          | none => (result first, some c.channelInfo)

/-- `k` calls on the cached channel, which is also what `CacheGetChannelInfo`
returns. -/
def KeyedChannel.nextKeys (intn : Nat → Nat) : Nat → KeyedChannel → List (Except String (String × Nat))
  | 0, _ => []
  | k + 1, c =>
    let out := c.getNextEnabledKey unmarshal intn (.ok c.channelInfo)
    out.1 :: nextKeys intn k { c with channelInfo := out.2.getD c.channelInfo }

/-! ### Polling is a round robin -/

variable {hits : List Nat} (info : ChannelInfo)

section Polling

variable {unmarshal : String → Option (List String)} (intn : Nat → Nat) {c : KeyedChannel}

theorem pollOrder_eq_rotate (n start : Nat) : pollOrder n start = (range n).rotate start := by
  refine ext_getElem (by simp [pollOrder]) fun i _ _ => ?_
  simp [pollOrder, getElem_rotate, Nat.add_comm]

/-- Past a position of the order the next order goes on. -/
theorem pollOrder_next {n start a : Nat} {before after : List Nat}
    (h : pollOrder n start = before ++ a :: after) :
    pollOrder n ((a + 1) % n) = after ++ (before ++ [a]) := by
  have hlength : before.length < n := by
    have hn : n = before.length + (after.length + 1) := by simpa [pollOrder] using congrArg length h
    omega
  have ha : (start + before.length) % n = a := by
    simpa [pollOrder, hlength] using congrArg (·[before.length]?) h
  rw [append_cons, pollOrder_eq_rotate] at h
  rw [← rotate_append_length_eq (before ++ [a]) after, ← h, rotate_rotate, length_append, length_singleton,
    pollOrder_eq_rotate, ← ha, Nat.mod_add_mod, Nat.add_assoc, ← rotate_mod _ (start + _), length_range]

/-- The enabled positions in the order in which the next calls reach them. -/
def ChannelInfo.turn (info : ChannelInfo) (n : Nat) : List Nat :=
  (pollOrder n (info.start n)).filter (info.multiKeyStatusList · = .enabled)

theorem turn_perm (n : Nat) : info.turn n ~ info.enabledIdx n := by
  unfold ChannelInfo.turn ChannelInfo.enabledIdx
  rw [pollOrder_eq_rotate]
  exact (rotate_perm _ _).filter _

theorem start_set {n i : Nat} (hi : i < n) :
    ChannelInfo.start { info with multiKeyPollingIndex := (i : Nat) } n = i := by
  unfold ChannelInfo.start
  rw [if_neg (by simp only; omega)]
  rfl

/-- The first of the turn is found, and comes last in the next turn. -/
theorem find?_pollOrder {info : ChannelInfo} {n a : Nat} (h : info.turn n = a :: hits) :
    (pollOrder n (info.start n)).find? (info.multiKeyStatusList · = .enabled) = some a ∧
      ChannelInfo.turn { info with multiKeyPollingIndex := ((a + 1) % n : Nat) } n = hits ++ [a] := by
  obtain ⟨before, after, hsplit, hbefore, ha, rfl⟩ := filter_eq_cons_iff.mp h
  have hpos : 0 < n := Nat.pos_of_ne_zero fun hzero => by simp [pollOrder, hzero] at hsplit
  refine ⟨find?_eq_some_iff_append.mpr ⟨ha, before, after, hsplit, by simpa using hbefore⟩, ?_⟩
  unfold ChannelInfo.turn
  rw [start_set info (Nat.mod_lt _ hpos), pollOrder_next hsplit, filter_append, filter_append,
    filter_eq_nil_iff.mpr hbefore, nil_append]
  simpa using ha

variable (hmulti : c.channelInfo.isMultiKey = true) (hpolling : c.channelInfo.multiKeyMode = .polling)
include hmulti hpolling

/-- A call returns the first of the turn and moves it to the end. -/
theorem getNextEnabledKey_turn {a : Nat} (h : c.channelInfo.turn (c.getKeys unmarshal).length = a :: hits) :
    ∃ info, c.getNextEnabledKey unmarshal intn (.ok c.channelInfo) =
        (.ok ((c.getKeys unmarshal).getD a "", a), some info) ∧
      info.isMultiKey = true ∧ info.multiKeyMode = .polling ∧
      info.turn (c.getKeys unmarshal).length = hits ++ [a] := by
  obtain ⟨hfind, hnext⟩ := find?_pollOrder h
  have hkeys : c.getKeys unmarshal ≠ [] := by
    intro hnil
    rw [hnil] at h
    cases h
  refine ⟨{ c.channelInfo with multiKeyPollingIndex := ((a + 1) % (c.getKeys unmarshal).length : Nat) }, ?_,
    hmulti, hpolling, hnext⟩
  unfold KeyedChannel.getNextEnabledKey
  rcases hidx : c.channelInfo.enabledIdx (c.getKeys unmarshal).length with - | ⟨first, rest⟩
  · have hperm := turn_perm c.channelInfo (c.getKeys unmarshal).length
    rw [h, hidx] at hperm
    cases hperm.eq_nil
  · simp only [hmulti, hkeys, hidx, hpolling, hfind, not_true_eq_false, if_false]

/-- The calls go round the turn. -/
theorem nextKeys_turn {turn : List Nat} (h : c.channelInfo.turn (c.getKeys unmarshal).length = turn)
    (hne : turn ≠ []) (k : Nat) : c.nextKeys unmarshal intn k = (range k).map fun j =>
      .ok ((c.getKeys unmarshal).getD ((turn.rotate j).headD 0) "", (turn.rotate j).headD 0) := by
  induction k generalizing c turn with
  | zero => rfl
  | succ k ih =>
    obtain ⟨a, hits, rfl⟩ := exists_cons_of_ne_nil hne
    obtain ⟨info, hcall, hmulti', hpolling', hnext⟩ := getNextEnabledKey_turn intn hmulti hpolling h
    have hrest := ih (c := { c with channelInfo := info }) hmulti' hpolling' hnext (by simp)
    rw [KeyedChannel.nextKeys, hcall, range_succ_eq_map, map_cons, map_map]
    refine congrArg _ (hrest.trans (map_congr_left fun j _ => ?_))
    simp only [Function.comp_apply, rotate_cons_succ]
    rfl

/-- **Polling a cached channel is a round robin**: after any calls, the next
`n` return each of the `n` enabled positions once, with the key there. -/
theorem polling_round_robin (m : Nat) (hsome : c.channelInfo.enabledIdx (c.getKeys unmarshal).length ≠ []) :
    let keys := c.getKeys unmarshal
    let enabled := c.channelInfo.enabledIdx keys.length
    ∃ idxs, idxs ~ enabled ∧ (c.nextKeys unmarshal intn (m + enabled.length)).drop m =
      idxs.map fun i => .ok (keys.getD i "", i) := by
  intro keys enabled
  have hperm : c.channelInfo.turn keys.length ~ enabled := turn_perm _ _
  generalize hturn : c.channelInfo.turn keys.length = turn at hperm
  have hne : turn ≠ [] := fun hnil => hsome (hnil ▸ hperm).nil_eq.symm
  refine ⟨turn.rotate m, (rotate_perm _ _).trans hperm, ?_⟩
  rw [nextKeys_turn intn hmulti hpolling hturn hne]
  refine ext_getElem (by simp [hperm.length_eq]) fun j hj hj' => ?_
  have hlt : j < (turn.rotate m).length := by simpa using hj'
  have hhead : (turn.rotate (m + j)).headD 0 = (turn.rotate m)[j] := by
    rw [← rotate_rotate, headD_eq_head?_getD, head?_rotate hlt, List.getElem?_eq_getElem hlt, Option.getD_some]
  simp only [getElem_drop, getElem_map, getElem_range, hhead]
  rfl

end Polling

/-- Two keys polled by turns, the index being out of range. -/
def demoKeys : KeyedChannel where
  id := 1
  key := "a\nb\nc"
  channelInfo := {
    isMultiKey := true
    multiKeyStatusList := fun i => if i = 1 then .autoDisabled else .enabled
    multiKeyPollingIndex := 7
    multiKeyMode := .polling }

theorem polling_round_robin_demo :
    ∃ idxs, idxs ~ [0, 2] ∧ (demoKeys.nextKeys (fun _ => none) (fun _ => 0) 3).drop 1 =
      idxs.map fun i => .ok (["a", "b", "c"].getD i "", i) :=
  @polling_round_robin (fun _ => none) (fun _ => 0) demoKeys rfl rfl 1 (by decide)

end MicrossApi
