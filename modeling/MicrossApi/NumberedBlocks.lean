/-
MicrossApi/NumberedBlocks.lean

Streams of numbered blocks.  A block is opened, is added to, and is closed;
several may be open at once.  `WellFormed` says what a reader of such a stream
relies on: blocks are opened in the order 0, 1, 2, …, and the events of one
number, taken out of the stream, are one opening, the additions, and one
closing, all of them fitting what was opened.

A writer is checked against a watchman that sees the events one by one and
remembers for each number what was opened and whether it is still open
(`watch`).  `follows_iff` says that the watchman lets a stream pass exactly when
each number has had, so far, a start of such a sequence; `wellFormed_iff` that a
stream is well formed exactly when it passes and nothing is left open.
-/
import Mathlib.Data.List.Induction
import Mathlib.Data.List.Range
import Mathlib.Logic.Function.Basic

namespace NumberedBlocks

open List

variable {κ δ : Type*}

/-- An event about the block of a number. -/
inductive BlockEvent (κ δ : Type*) where
  | start (i : Int) (k : κ)
  | delta (i : Int) (d : δ)
  | stop (i : Int) (d : δ)
deriving DecidableEq

/-- The number of the block. -/
def BlockEvent.index : BlockEvent κ δ → Int
  | .start i _ => i
  | .delta i _ => i
  | .stop i _ => i

/-- The number, if the event opens a block. -/
def BlockEvent.opened? : BlockEvent κ δ → Option Int
  | .start i _ => some i
  | _ => none

/-- The events about one block. -/
def about (i : Int) (evs : List (BlockEvent κ δ)) : List (BlockEvent κ δ) :=
  evs.filter (·.index = i)

/-- The numbers of the blocks in the order in which they are opened. -/
def starts (evs : List (BlockEvent κ δ)) : List Int := evs.filterMap BlockEvent.opened?

/-- The first `n` numbers. -/
def numbers (n : Nat) : List Int := (List.range n).map Nat.cast

/-- What a whole block looks like. -/
def Framed (fits : κ → δ → Prop) (i : Int) (evs : List (BlockEvent κ δ)) : Prop :=
  ∃ (k : κ) (ds : List δ) (d : δ), evs = .start i k :: ds.map (.delta i) ++ [.stop i d] ∧
    (∀ d' ∈ ds, fits k d') ∧ fits k d

/-- A stream in which every block is whole, and the blocks are numbered in order. -/
structure WellFormed (fits : κ → δ → Prop) (evs : List (BlockEvent κ δ)) : Prop where
  numbered : starts evs = numbers (starts evs).length
  framed : ∀ e ∈ evs, Framed fits e.index (about e.index evs)

section Lemmas

variable {i : Int} {e : BlockEvent κ δ} {evs : List (BlockEvent κ δ)}

@[simp] theorem about_nil : about i ([] : List (BlockEvent κ δ)) = [] := rfl

theorem about_concat (i : Int) (evs : List (BlockEvent κ δ)) (e : BlockEvent κ δ) :
    about i (evs ++ [e]) = about i evs ++ if e.index = i then [e] else [] := by
  rw [about, filter_append, filter_cons]
  simp only [decide_eq_true_eq]
  rfl

theorem about_concat_of_eq (h : e.index = i) : about i (evs ++ [e]) = about i evs ++ [e] := by
  rw [about_concat, if_pos h]

theorem about_concat_of_ne (h : e.index ≠ i) : about i (evs ++ [e]) = about i evs := by
  rw [about_concat, if_neg h, append_nil]

@[simp] theorem starts_nil : starts ([] : List (BlockEvent κ δ)) = [] := rfl

theorem starts_concat (evs : List (BlockEvent κ δ)) (e : BlockEvent κ δ) :
    starts (evs ++ [e]) = starts evs ++ e.opened?.toList := by
  cases e <;> simp [starts, BlockEvent.opened?]

@[simp] theorem length_numbers (n : Nat) : (numbers n).length = n := by
  simp [numbers]

theorem numbers_succ (n : Nat) : numbers (n + 1) = numbers n ++ [(n : Int)] := by
  simp [numbers, range_succ]

theorem mem_numbers {n : Nat} : i ∈ numbers n ↔ 0 ≤ i ∧ i < n := by
  simp only [numbers, mem_map, mem_range]
  constructor
  · rintro ⟨m, hm, rfl⟩
    omega
  · rintro ⟨h₀, h₁⟩
    exact ⟨i.toNat, by omega, by omega⟩

end Lemmas

/-! ### The watchman -/

/-- What the watchman remembers: for each number so far, what was opened and
whether it is open still. -/
abbrev Track (κ : Type*) := List (κ × Bool)

/-- What is known of the block of a number. -/
def Track.block (t : Track κ) (i : Int) : Option (κ × Bool) := if 0 ≤ i then t[i.toNat]? else none

/-- The watchman sees one event; `none` if it does not let it pass. -/
def watch (fits : κ → δ → Prop) [∀ k d, Decidable (fits k d)] (t : Track κ) :
    BlockEvent κ δ → Option (Track κ)
  | .start i k => if i = t.length then some (t ++ [(k, true)]) else none
  | .delta i d =>
    match t.block i with
    | some (k, true) => if fits k d then some t else none
    | _ => none
  | .stop i d =>
    match t.block i with
    | some (k, true) => if fits k d then some (t.set i.toNat (k, false)) else none
    | _ => none

/-- The events about a number so far, where `b` is what is known of its block. -/
def Described (fits : κ → δ → Prop) (i : Int) (b : Option (κ × Bool)) (evs : List (BlockEvent κ δ)) : Prop :=
  match b with
  | none => evs = []
  | some (k, true) => ∃ ds : List δ, evs = .start i k :: ds.map (.delta i) ∧ ∀ d ∈ ds, fits k d
  | some (k, false) => ∃ (ds : List δ) (d : δ),
      evs = .start i k :: ds.map (.delta i) ++ [.stop i d] ∧ (∀ d' ∈ ds, fits k d') ∧ fits k d

/-- The stream so far is one that leaves the watchman with `t`. -/
structure Follows (fits : κ → δ → Prop) (evs : List (BlockEvent κ δ)) (t : Track κ) : Prop where
  starts : starts evs = numbers t.length
  described : ∀ i, Described fits i (t.block i) (about i evs)

section Watch

variable {fits : κ → δ → Prop} {t t' : Track κ} {i : Int} {k : κ} {d : δ} {b : Bool}
  {evs : List (BlockEvent κ δ)} {e : BlockEvent κ δ}

theorem block_eq_some_iff {x : κ × Bool} : t.block i = some x ↔ 0 ≤ i ∧ t[i.toNat]? = some x := by
  unfold Track.block
  split_ifs with h <;> simp [h]

theorem block_natCast (t : Track κ) (n : Nat) : t.block n = t[n]? := by
  simp [Track.block]

theorem block_eq_none_iff : t.block i = none ↔ i < 0 ∨ (t.length : Int) ≤ i := by
  unfold Track.block
  split_ifs with h
  · rw [List.getElem?_eq_none_iff]
    omega
  · exact iff_of_true rfl (by omega)

theorem block_concat (t : Track κ) (x : κ × Bool) (i : Int) :
    Track.block (t ++ [x]) i = if i = t.length then some x else t.block i := by
  unfold Track.block
  split_ifs with h hi hi
  · rw [hi, Int.toNat_natCast, getElem?_concat_length]
  · rcases lt_or_ge i.toNat t.length with hlt | hge
    · rw [getElem?_append_left hlt]
    · rw [getElem?_eq_none (by simp; omega), getElem?_eq_none hge]
  · omega
  · rfl

theorem block_set (t : Track κ) (x : κ × Bool) (i j : Int) (hi : 0 ≤ i) (hlt : i < t.length) :
    Track.block (t.set i.toNat x) j = if j = i then some x else t.block j := by
  unfold Track.block
  split_ifs with hj hji hji
  · rw [hji, getElem?_set_self (by omega)]
  · rw [getElem?_set_ne (by omega)]
  · omega
  · rfl

/-- What can be said of a number after one more event about it. -/
theorem described_concat (hb : Described fits i (some (k, b)) (evs ++ [e])) :
    (e = .start i k ∧ b = true ∧ evs = []) ∨
      (∃ d, e = .delta i d ∧ b = true ∧ fits k d ∧ Described fits i (some (k, true)) evs) ∨
      ∃ d, e = .stop i d ∧ b = false ∧ fits k d ∧ Described fits i (some (k, true)) evs := by
  cases b with
  | true =>
    obtain ⟨ds, heq, hfits⟩ := hb
    rcases eq_nil_or_concat ds with rfl | ⟨ds, d, rfl⟩
    · obtain ⟨rfl, he⟩ := append_inj' (show evs ++ [e] = [] ++ [.start i k] from heq) rfl
      exact .inl ⟨(List.cons.inj he).1, rfl, rfl⟩
    have hsplit : evs ++ [e] = (.start i k :: ds.map (.delta i)) ++ [.delta i d] := by
      rw [heq, concat_eq_append, map_append]
      rfl
    obtain ⟨rfl, he⟩ := append_inj' hsplit rfl
    rw [concat_eq_append] at hfits
    refine .inr (.inl ⟨d, (List.cons.inj he).1, rfl, hfits d (by simp), ds, rfl, fun d' hd' => ?_⟩)
    exact hfits d' (mem_append_left _ hd')
  | false =>
    obtain ⟨ds, d, heq, hfits, hd⟩ := hb
    obtain ⟨rfl, he⟩ := append_inj' heq rfl
    exact .inr (.inr ⟨d, (List.cons.inj he).1, rfl, hd, ds, rfl, hfits⟩)

theorem described_delta (h : Described fits i (some (k, true)) evs) (hd : fits k d) :
    Described fits i (some (k, true)) (evs ++ [.delta i d]) := by
  obtain ⟨ds, rfl, hfits⟩ := h
  refine ⟨ds ++ [d], by simp, fun d' hd' => ?_⟩
  rcases mem_append.mp hd' with h | h
  · exact hfits d' h
  · rwa [mem_singleton.mp h]

variable [∀ k d, Decidable (fits k d)]

theorem watch_delta_iff :
    watch fits t (.delta i d) = some t' ↔ ∃ k, t.block i = some (k, true) ∧ fits k d ∧ t' = t := by
  dsimp only [watch]
  split
  next k hk =>
    split_ifs with hd <;> simp [hk, hd, eq_comm]
  rename_i hk
  simp only [reduceCtorEq, false_iff, not_exists, not_and]
  exact fun k h => absurd h (hk k)

theorem watch_stop_iff : watch fits t (.stop i d) = some t' ↔
      ∃ k, t.block i = some (k, true) ∧ fits k d ∧ t' = t.set i.toNat (k, false) := by
  dsimp only [watch]
  split
  next k hk =>
    split_ifs with hd <;> simp [hk, hd, eq_comm]
  rename_i hk
  simp only [reduceCtorEq, false_iff, not_exists, not_and]
  exact fun k h => absurd h (hk k)

theorem watch_start_iff : watch fits t (.start i k) = some t' ↔ i = t.length ∧ t' = t ++ [(k, true)] := by
  dsimp only [watch]
  split_ifs with h <;> simp [h, eq_comm]

/-- An event that passes leads from a stream so far to a stream so far. -/
theorem Follows.concat (h : Follows fits evs t) (hw : watch fits t e = some t') :
    Follows fits (evs ++ [e]) t' := by
  cases e with
  | start i k =>
    obtain ⟨hi, rfl⟩ := watch_start_iff.mp hw
    refine ⟨?_, fun j => ?_⟩
    · rw [starts_concat, h.starts, length_append, length_singleton, numbers_succ, ← hi]
      rfl
    · rw [block_concat, ← hi]
      split_ifs with hj
      · have hnone : t.block i = none := block_eq_none_iff.mpr (.inr (Int.le_of_eq hi.symm))
        have hnil : about i evs = [] := by
          have := h.described i
          rwa [hnone] at this
        subst hj
        rw [about_concat_of_eq (i := j) (e := .start j k) rfl, hnil]
        exact ⟨[], rfl, by simp⟩
      · rw [about_concat_of_ne (e := .start i k) (Ne.symm hj)]
        exact h.described j
  | delta i d =>
    obtain ⟨k, hk, hd, rfl⟩ := watch_delta_iff.mp hw
    refine ⟨?_, fun j => ?_⟩
    · rw [starts_concat, h.starts]
      exact append_nil _
    · rcases eq_or_ne i j with rfl | hj
      · have hdesc := h.described i
        rw [about_concat_of_eq (i := i) (e := .delta i d) rfl, hk]
        rw [hk] at hdesc
        exact described_delta hdesc hd
      · rw [about_concat_of_ne (e := .delta i d) hj]
        exact h.described j
  | stop i d =>
    obtain ⟨k, hk, hd, rfl⟩ := watch_stop_iff.mp hw
    have hin : 0 ≤ i ∧ i < t.length := by
      have := mt block_eq_none_iff.mpr (hk ▸ Option.some_ne_none _)
      omega
    refine ⟨?_, fun j => ?_⟩
    · rw [starts_concat, h.starts, length_set]
      exact append_nil _
    · rw [block_set t _ i j hin.1 hin.2]
      split_ifs with hj
      · subst hj
        have hdesc := h.described j
        rw [hk] at hdesc
        rw [about_concat_of_eq (i := j) (e := .stop j d) rfl]
        obtain ⟨ds, hevs, hfits⟩ := hdesc
        exact ⟨ds, d, by rw [hevs], hfits, hd⟩
      · rw [about_concat_of_ne (e := .stop i d) (Ne.symm hj)]
        exact h.described j

/-- What a stream so far was before its last event. -/
theorem Follows.of_concat (h : Follows fits (evs ++ [e]) t') :
    ∃ t, Follows fits evs t ∧ watch fits t e = some t' := by
  have hothers : ∀ j, e.index ≠ j → Described fits j (t'.block j) (about j evs) := by
    intro j hj
    have := h.described j
    rwa [about_concat_of_ne hj] at this
  have hown := h.described e.index
  rw [about_concat_of_eq rfl] at hown
  rcases hx : t'.block e.index with - | ⟨k, b⟩
  · rw [hx] at hown
    exact absurd hown (by simp [Described])
  rw [hx] at hown
  obtain ⟨hpos, hget⟩ := block_eq_some_iff.mp hx
  have hlt : e.index.toNat < t'.length := (List.getElem?_eq_some_iff.mp hget).1
  rcases described_concat hown with ⟨he, rfl, hnil⟩ | ⟨d, he, rfl, hd, hdesc⟩ | ⟨d, he, rfl, hd, hdesc⟩
  · -- the block was opened just now, so it is the last of the track
    have hstarts := h.starts
    rw [starts_concat, he] at hstarts
    obtain ⟨t, x, rfl⟩ : ∃ t x, t' = t ++ [x] := by
      rcases eq_nil_or_concat t' with rfl | ⟨t, x, rfl⟩
      · simp at hlt
      · exact ⟨t, x, concat_eq_append⟩
    rw [length_append, length_singleton, numbers_succ] at hstarts
    obtain ⟨hs, hi⟩ := append_inj' (show _ ++ [e.index] = _ ++ [_] from hstarts) rfl
    have hi : e.index = t.length := (List.cons.inj hi).1
    have hblock : x = (k, true) := by
      rw [block_concat, if_pos hi] at hx
      exact Option.some.inj hx
    refine ⟨t, ⟨hs, fun j => ?_⟩, ?_⟩
    · rcases eq_or_ne e.index j with rfl | hj
      · rw [block_eq_none_iff.mpr (.inr (Int.le_of_eq hi.symm)), hnil]
        rfl
      · have := hothers j hj
        rwa [block_concat, if_neg (by rw [← hi]; exact Ne.symm hj)] at this
    · rw [he, hblock]
      exact watch_start_iff.mpr ⟨hi, rfl⟩
  · refine ⟨t', ⟨?_, fun j => ?_⟩, ?_⟩
    · have := h.starts
      rw [starts_concat, he] at this
      simpa [BlockEvent.opened?] using this
    · rcases eq_or_ne e.index j with rfl | hj
      · rwa [hx]
      · exact hothers j hj
    · rw [he]
      exact watch_delta_iff.mpr ⟨k, hx, hd, rfl⟩
  · have hin : e.index < t'.length := by omega
    refine ⟨t'.set e.index.toNat (k, true), ⟨?_, fun j => ?_⟩, ?_⟩
    · have := h.starts
      rw [starts_concat, he] at this
      simpa [BlockEvent.opened?] using this
    · rw [block_set t' _ _ j hpos hin]
      split_ifs with hj
      · rwa [hj]
      · exact hothers j (Ne.symm hj)
    · have hw : watch fits (t'.set e.index.toNat (k, true)) (.stop e.index d) = some t' := by
        refine watch_stop_iff.mpr ⟨k, ?_, hd, ?_⟩
        · rw [block_set t' _ _ _ hpos hin, if_pos rfl]
        · obtain ⟨hlt, hval⟩ := List.getElem?_eq_some_iff.mp hget
          rw [set_set, ← hval, set_getElem_self]
      rwa [← he] at hw

/-- The watchman lets exactly the starts of well-formed streams pass. -/
theorem follows_iff : evs.foldlM (watch fits) [] = some t ↔ Follows fits evs t := by
  induction evs using List.reverseRecOn generalizing t with
  | nil =>
    constructor
    · rintro ⟨⟩
      exact ⟨rfl, fun i => by simp [Track.block, Described]⟩
    · intro h
      have hlen := congrArg List.length h.starts
      rw [length_numbers] at hlen
      rw [length_eq_zero_iff.mp hlen.symm]
      rfl
  | append_singleton evs e ih =>
    rw [foldlM_append]
    constructor
    · intro h
      obtain ⟨u, hu, hw⟩ := Option.bind_eq_some_iff.mp h
      exact (ih.mp hu).concat (by simpa using hw)
    · intro h
      obtain ⟨u, hu, hw⟩ := h.of_concat
      refine Option.bind_eq_some_iff.mpr ⟨u, ih.mpr hu, ?_⟩
      simpa using hw

omit [∀ k d, Decidable (fits k d)] in
/-- Whole blocks only, so far. -/
theorem Follows.wellFormed (h : Follows fits evs t) (hclosed : ∀ x ∈ t, x.2 = false) :
    WellFormed fits evs := by
  refine ⟨by rw [h.starts, length_numbers], fun e he => ?_⟩
  have hdesc := h.described e.index
  rcases hx : t.block e.index with - | ⟨k, b⟩
  · rw [hx] at hdesc
    have : e ∈ about e.index evs := by simpa [about] using he
    exact absurd this (by simp [show about e.index evs = [] from hdesc])
  obtain rfl : b = false := hclosed _ (mem_of_getElem? (block_eq_some_iff.mp hx).2)
  rw [hx] at hdesc
  obtain ⟨ds, d, heq, hfits, hd⟩ := hdesc
  exact ⟨k, ds, d, heq, hfits, hd⟩

omit [∀ k d, Decidable (fits k d)] in
theorem block_append_cons (t u : Track κ) (x : κ × Bool) : Track.block (t ++ x :: u) t.length = some x := by
  rw [block_natCast, getElem?_append_right (le_refl _), Nat.sub_self]
  rfl

theorem watch_delta_at (t u : Track κ) (h : fits k d) :
    watch fits (t ++ (k, true) :: u) (.delta t.length d) = some (t ++ (k, true) :: u) :=
  watch_delta_iff.mpr ⟨k, block_append_cons t u _, h, rfl⟩

theorem watch_stop_at (t u : Track κ) (h : fits k d) :
    watch fits (t ++ (k, true) :: u) (.stop t.length d) = some (t ++ (k, false) :: u) := by
  refine watch_stop_iff.mpr ⟨k, block_append_cons t u _, h, ?_⟩
  rw [Int.toNat_natCast, set_append_right _ _ (le_refl _), Nat.sub_self]
  rfl

/-- A block that was never opened cannot be added to. -/
theorem watch_delta_eq_none (h : (t.length : Int) ≤ i) : watch fits t (.delta i d) = none := by
  refine Option.eq_none_iff_forall_ne_some.mpr fun t' hw => ?_
  obtain ⟨k, hk, -⟩ := watch_delta_iff.mp hw
  rw [block_eq_none_iff.mpr (.inr h)] at hk
  cases hk

/-- A block that was never opened cannot be closed. -/
theorem watch_stop_eq_none (h : (t.length : Int) ≤ i) : watch fits t (.stop i d) = none := by
  refine Option.eq_none_iff_forall_ne_some.mpr fun t' hw => ?_
  obtain ⟨k, hk, -⟩ := watch_stop_iff.mp hw
  rw [block_eq_none_iff.mpr (.inr h)] at hk
  cases hk

theorem watch_start_eq_none (h : i ≠ t.length) : watch fits t (.start i k) = none := if_neg h

/-- The kinds of the blocks in the order in which they are opened. -/
def kinds (evs : List (BlockEvent κ δ)) : List (Int × κ) :=
  evs.filterMap fun
    | .start i k => some (i, k)
    | _ => none

theorem starts_eq_kinds (evs : List (BlockEvent κ δ)) : starts evs = (kinds evs).map Prod.fst := by
  rw [starts, kinds, map_filterMap]
  congr 1
  funext e
  cases e <;> rfl

theorem mem_kinds : (i, k) ∈ kinds evs ↔ .start i k ∈ evs := by
  rw [kinds, mem_filterMap]
  constructor
  · rintro ⟨e, he, heq⟩
    cases e with
    | start =>
      cases heq
      exact he
    | delta | stop => cases heq
  · exact fun h => ⟨_, h, rfl⟩

omit [∀ k d, Decidable (fits k d)] in
theorem WellFormed.follows (h : WellFormed fits evs) :
    Follows fits evs ((kinds evs).map fun x => (x.2, false)) := by
  have hlen : (starts evs).length = (kinds evs).length := by
    rw [starts_eq_kinds, length_map]
  refine ⟨by rw [length_map, ← hlen]; exact h.numbered, fun i => ?_⟩
  have hstart : ∀ k, .start i k ∈ evs → 0 ≤ i ∧ i < (kinds evs).length := by
    intro k hk
    have hi : i ∈ starts evs := by
      rw [starts_eq_kinds]
      exact mem_map.mpr ⟨(i, k), mem_kinds.mpr hk, rfl⟩
    rw [h.numbered, hlen] at hi
    exact mem_numbers.mp hi
  rcases hx : Track.block ((kinds evs).map fun x => (x.2, false)) i with - | ⟨k, b⟩
  · -- a number that was never opened
    have hout := block_eq_none_iff.mp hx
    rw [length_map] at hout
    rw [hx]
    refine filter_eq_nil_iff.mpr fun e he hi => ?_
    obtain rfl : e.index = i := by simpa using hi
    obtain ⟨k, ds, d, heq, -⟩ := h.framed e he
    have hk : .start e.index k ∈ about e.index evs := by rw [heq]; simp
    have := hstart k (mem_of_mem_filter hk)
    omega
  · obtain ⟨hpos, hget⟩ := block_eq_some_iff.mp hx
    rw [getElem?_map] at hget
    obtain ⟨⟨j, k'⟩, hj, heq⟩ := Option.map_eq_some_iff.mp hget
    obtain ⟨rfl, rfl⟩ := Prod.mk.inj heq
    rw [hx]
    -- the number of the opening event is its place
    have hji : j = i := by
      have h₁ : (starts evs)[i.toNat]? = some j := by rw [starts_eq_kinds, getElem?_map, hj]; rfl
      rw [h.numbered, numbers, getElem?_map, getElem?_range] at h₁
      · have := Option.some.inj h₁
        omega
      · rw [hlen]
        exact (List.getElem?_eq_some_iff.mp hj).1
    subst hji
    have hmem : .start j k' ∈ evs := mem_kinds.mp (mem_of_getElem? hj)
    obtain ⟨k, ds, d, heq, hfits, hd⟩ := h.framed _ hmem
    have hk : .start j k' ∈ about j evs := mem_filter.mpr ⟨hmem, by simp [BlockEvent.index]⟩
    rw [show about j evs = _ from heq] at hk
    obtain rfl : k' = k := by
      simpa [BlockEvent.index] using hk
    exact ⟨ds, d, heq, hfits, hd⟩

/-- A stream is well formed when it passes the watchman and leaves nothing open. -/
theorem wellFormed_iff :
    WellFormed fits evs ↔ ∃ t, evs.foldlM (watch fits) [] = some t ∧ ∀ x ∈ t, x.2 = false := by
  constructor
  · intro h
    refine ⟨_, follows_iff.mpr h.follows, fun x hx => ?_⟩
    obtain ⟨y, -, rfl⟩ := mem_map.mp hx
    rfl
  · rintro ⟨t, ht, hclosed⟩
    exact (follows_iff.mp ht).wellFormed hclosed

/-- What is known of the blocks at the end is what they were opened as. -/
theorem WellFormed.kinds_eq (h : WellFormed fits evs) (ht : evs.foldlM (watch fits) [] = some t) :
    (kinds evs).map Prod.snd = t.map Prod.fst := by
  have heq := Option.some.inj ((follows_iff.mpr h.follows).symm.trans ht)
  rw [← heq, map_map]
  rfl

end Watch

/-! ### Streams of other events -/

section View

variable {ε : Type*} (fits : κ → δ → Prop) [∀ k d, Decidable (fits k d)]
  (view : ε → Option (BlockEvent κ δ))

/-- The watchman sees what an event says about a block; other events do not pass. -/
def see (t : Track κ) (e : ε) : Option (Track κ) := (view e).bind (watch fits t)

/-- The watchman sees several. -/
def seeAll (t : Track κ) (es : List ε) : Option (Track κ) := es.foldlM (see fits view) t

variable {fits view} {t t' : Track κ} {es : List ε}

@[simp] theorem seeAll_nil (t : Track κ) : seeAll fits view t [] = some t := rfl

@[simp] theorem seeAll_cons (t : Track κ) (e : ε) (es : List ε) :
    seeAll fits view t (e :: es) = (see fits view t e).bind fun t' => seeAll fits view t' es := rfl

theorem seeAll_append (t : Track κ) (es es' : List ε) :
    seeAll fits view t (es ++ es') = (seeAll fits view t es).bind fun t' => seeAll fits view t' es' :=
  foldlM_append

theorem seeAll_append_iff {P : Prop} {u : Track κ} (h : ∀ v, seeAll fits view t es = some v ↔ P ∧ v = u)
    (es' : List ε) : seeAll fits view t (es ++ es') = some t' ↔ P ∧ seeAll fits view u es' = some t' := by
  rw [seeAll_append, Option.bind_eq_some_iff]
  simp only [h, and_assoc, exists_and_left, exists_eq_left]

/-- Only what the events say matters. -/
theorem seeAll_eq_map (t : Track κ) (es : List ε) :
    seeAll fits view t es = seeAll fits id t (es.map view) := by
  rw [seeAll, seeAll, foldlM_map]
  rfl

/-- What passes is a stream of blocks that passes. -/
theorem seeAll_eq_some_iff : seeAll fits view t es = some t' ↔
      ∃ blocks : List (BlockEvent κ δ), es.map view = blocks.map some ∧
        blocks.foldlM (watch fits) t = some t' := by
  induction es generalizing t with
  | nil =>
    constructor
    · intro h
      exact ⟨[], rfl, h⟩
    · rintro ⟨blocks, hmap, hfold⟩
      obtain rfl : blocks = [] := by simpa using hmap.symm
      exact hfold
  | cons e es ih =>
    rw [seeAll_cons, Option.bind_eq_some_iff]
    constructor
    · rintro ⟨u, hu, hrest⟩
      obtain ⟨b, hb, hw⟩ := Option.bind_eq_some_iff.mp hu
      obtain ⟨blocks, hmap, hfold⟩ := ih.mp hrest
      refine ⟨b :: blocks, by simp [hb, hmap], ?_⟩
      rw [foldlM_cons, hw]
      exact hfold
    · rintro ⟨blocks, hmap, hfold⟩
      cases blocks with
      | nil => simp at hmap
      | cons b blocks =>
        obtain ⟨hb, hmap⟩ := List.cons.inj hmap
        obtain ⟨u, hu, hrest⟩ := Option.bind_eq_some_iff.mp hfold
        exact ⟨u, Option.bind_eq_some_iff.mpr ⟨b, hb, hu⟩, ih.mpr ⟨blocks, hmap, hrest⟩⟩

end View

/-! ### Blocks with keys -/

section Keyed

variable {ρ : Type*} [DecidableEq ρ] {fits : κ → δ → Prop} [∀ k d, Decidable (fits k d)]
  {order : List ρ} (f : ρ → κ × Bool) {r : ρ} {n : Nat} {k : κ} {d : δ}

omit [DecidableEq ρ] in
theorem block_map (hr : order[n]? = some r) :
    Track.block (order.map f) n = some (f r) := by
  rw [block_natCast, getElem?_map, hr]
  rfl

omit [DecidableEq ρ] in
theorem watch_delta_key (hr : order[n]? = some r) : watch fits (order.map f) (.delta n d)
      = if (f r).2 = true ∧ fits (f r).1 d then some (order.map f) else none := by
  dsimp only [watch]
  rw [block_map f hr]
  rcases f r with ⟨k, - | -⟩ <;> simp

theorem watch_stop_key (hnodup : order.Nodup) (hr : order[n]? = some r) :
    watch fits (order.map f) (.stop n d)
      = if (f r).2 = true ∧ fits (f r).1 d then some (order.map (Function.update f r ((f r).1, false)))
        else none := by
  have hset : ∀ x, (order.map f).set n x = order.map (Function.update f r x) := by
    intro x
    apply ext_getElem?
    intro m
    rw [getElem?_set, getElem?_map, getElem?_map]
    obtain ⟨hn, hr'⟩ := List.getElem?_eq_some_iff.mp hr
    split_ifs with h₁ h₂
    · rw [← h₁, hr, Option.map_some, Function.update_self]
    · exact absurd (by simpa using hn) h₂
    rcases hm : order[m]? with - | r'
    · rfl
    have hne : r' ≠ r := by
      rintro rfl
      exact h₁ ((getElem?_inj hn hnodup).mp (hr.trans hm.symm))
    rw [Option.map_some, Option.map_some, Function.update_of_ne hne]
  dsimp only [watch]
  rw [block_map f hr, ← hset]
  rcases f r with ⟨k, - | -⟩ <;> simp

theorem watch_start_key (hr : r ∉ order) : watch fits (order.map f) (.start order.length k)
      = some ((order ++ [r]).map (Function.update f r (k, true))) := by
  refine watch_start_iff.mpr ⟨by simp, ?_⟩
  rw [map_append, map_singleton, Function.update_self]
  congr 1
  apply map_congr_left
  intro r' hr'
  rw [Function.update_of_ne]
  rintro rfl
  exact hr hr'

/-- The events that close some blocks, one after the other, each with a last
addition. -/
def closings (place : ρ → Nat) (name : ρ → δ) (rs : List ρ) : List (Option (BlockEvent κ δ)) :=
  rs.flatMap fun r => [some (.delta (place r) (name r)), some (.stop (place r) (name r))]

variable {f} {place : ρ → Nat} {name : ρ → δ} {rs : List ρ}

theorem seeAll_closings (hnodup : order.Nodup) (hrs : rs.Nodup)
    (hplace : ∀ r ∈ rs, order[place r]? = some r) (hopen : ∀ r ∈ rs, (f r).2 = true)
    (hfits : ∀ r ∈ rs, fits (f r).1 (name r)) : seeAll fits id (order.map f) (closings place name rs)
      = some (order.map fun r => if r ∈ rs then ((f r).1, false) else f r) := by
  induction rs generalizing f with
  | nil => simp [closings]
  | cons r rs ih =>
    obtain ⟨hr, hplace⟩ := forall_mem_cons.mp hplace
    obtain ⟨ho, hopen⟩ := forall_mem_cons.mp hopen
    obtain ⟨hf, hfits⟩ := forall_mem_cons.mp hfits
    obtain ⟨hnot, hrs⟩ := nodup_cons.mp hrs
    have hothers : ∀ r' ∈ rs, Function.update f r ((f r).1, false) r' = f r' := by
      intro r' hr'
      rw [Function.update_of_ne]
      rintro rfl
      exact hnot hr'
    have hrest := ih (f := Function.update f r ((f r).1, false)) hrs hplace
      (fun r' hr' => by rw [hothers r' hr']; exact hopen r' hr')
      (fun r' hr' => by rw [hothers r' hr']; exact hfits r' hr')
    show (watch fits (order.map f) (.delta (place r) (name r))).bind (fun t =>
      (watch fits t (.stop (place r) (name r))).bind fun t =>
        seeAll fits id t (closings place name rs)) = _
    rw [watch_delta_key f hr, if_pos ⟨ho, hf⟩, Option.bind_some, watch_stop_key f hnodup hr,
      if_pos ⟨ho, hf⟩, Option.bind_some, hrest]
    congr 1
    apply map_congr_left
    rintro r' -
    rcases eq_or_ne r' r with rfl | hne
    · simp [hnot]
    · simp [hne]

theorem seeAll_closings_eq_none (hnodup : order.Nodup) (hrs : rs.Nodup)
    (hplace : ∀ r ∈ rs, order[place r]? = some r) (hr : r ∈ rs) (hfits : ¬ fits (f r).1 (name r)) :
    seeAll fits id (order.map f) (closings place name rs) = none := by
  induction rs generalizing f with
  | nil => simp at hr
  | cons r' rs ih =>
    obtain ⟨hr', hplace⟩ := forall_mem_cons.mp hplace
    obtain ⟨hnot, hrs⟩ := nodup_cons.mp hrs
    show (watch fits (order.map f) (.delta (place r') (name r'))).bind (fun t =>
      (watch fits t (.stop (place r') (name r'))).bind fun t =>
        seeAll fits id t (closings place name rs)) = none
    rw [watch_delta_key f hr']
    split_ifs with h
    · rw [Option.bind_some, watch_stop_key f hnodup hr', if_pos h]
      have hne : r ≠ r' := by
        rintro rfl
        exact hfits h.2
      refine ih hrs hplace ((mem_cons.mp hr).resolve_left hne) ?_
      rwa [Function.update_of_ne hne]
    · rfl

end Keyed

end NumberedBlocks
