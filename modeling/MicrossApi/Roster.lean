/-
MicrossApi/Roster.lean

Rosters: lists of records that are told apart by a key and stand in the order in
which they were first heard of.  Something about a key goes to the record with
that key, and a key that is new gets a record at the end (`upsert`).

Several parties may keep rosters of the same things, each under keys of its own.
They agree as long as what stands in a place of one is related to what stands
there in the other, and what one or both are told of one thing leaves them in
agreement (`forall₂_modify`, `forall₂_modify_right`).
-/
import Mathlib.Data.List.Forall2
import Mathlib.Data.List.Nodup

namespace Roster

open List

variable {κ κ' α α' : Type*} [DecidableEq κ] [DecidableEq κ'] {key : α → κ} {key' : α' → κ'}
  {S : α → α' → Prop} {g : α' → α'}

/-- The place of a key. -/
def place (key : α → κ) (l : List α) (k : κ) : Option Nat := l.findIdx? fun x => key x = k

/-- The record of a key is changed, or a new one added. -/
def upsert (key : α → κ) (l : List α) (k : κ) (new : α) (change : α → α) : List α :=
  match place key l k with
  | some n => l.modify n change
  | none => l ++ [new]

/-! ### Places -/

section Place

variable {l : List α} {k : κ} {n : Nat} {x : α}

theorem place_eq_none_iff : place key l k = none ↔ k ∉ l.map key := by
  simp [place]

theorem place_eq_map (key : α → κ) (l : List α) (k : κ) : place key l k = place id (l.map key) k := by
  rw [place, place, findIdx?_map]
  rfl

theorem place_congr {key₂ : α' → κ} {l' : List α'} (h : l.map key = l'.map key₂) (k : κ) :
    place key l k = place key₂ l' k := by
  rw [place_eq_map, h, ← place_eq_map]

theorem getElem?_of_place (h : place key l k = some n) : ∃ x, l[n]? = some x ∧ key x = k := by
  obtain ⟨hn, hkey, -⟩ := findIdx?_eq_some_iff_getElem.mp h
  exact ⟨l[n], getElem?_eq_getElem hn, by simpa using hkey⟩

theorem lt_of_place (h : place key l k = some n) : n < l.length := by
  obtain ⟨x, hx, -⟩ := getElem?_of_place h
  exact (List.getElem?_eq_some_iff.mp hx).1

/-- Where keys are not repeated, the place of a key is where its record stands. -/
theorem place_of_getElem? (hnodup : (l.map key).Nodup) (hx : l[n]? = some x) (hk : key x = k) :
    place key l k = some n := by
  have hmem : k ∈ l.map key := mem_map.mpr ⟨x, mem_of_getElem? hx, hk⟩
  obtain ⟨m, hm⟩ := Option.ne_none_iff_exists'.mp fun h => place_eq_none_iff.mp h hmem
  obtain ⟨y, hy, hky⟩ := getElem?_of_place hm
  have hkeys : (l.map key)[m]? = (l.map key)[n]? := by
    rw [getElem?_map, getElem?_map, hx, hy, Option.map_some, Option.map_some, hk, hky]
  have hlt : m < (l.map key).length := by simpa using lt_of_place hm
  rw [hm, (getElem?_inj hlt hnodup).mp hkeys]

theorem place_concat (hx : key x ∉ l.map key) (k : κ) :
    place key (l ++ [x]) k = if k = key x then some l.length else place key l k := by
  rw [place, findIdx?_append]
  split_ifs with h
  · rw [show l.findIdx? (fun y => key y = k) = none from place_eq_none_iff.mpr (h ▸ hx)]
    simp [h]
  · have hne : ¬ key x = k := fun h' => h h'.symm
    simp [hne, place]

end Place

/-! ### Changes -/

section Change

variable {l : List α} {k : κ} {n : Nat} {x new : α} {change : α → α}

theorem upsert_of_some (h : place key l k = some n) : upsert key l k new change = l.modify n change := by
  rw [upsert, h]

theorem upsert_of_none (h : place key l k = none) : upsert key l k new change = l ++ [new] := by
  rw [upsert, h]

theorem getElem?_modify_self (hx : l[n]? = some x) (change : α → α) :
    (l.modify n change)[n]? = some (change x) := by
  simp [hx]

theorem getElem?_modify_of_ne {m : Nat} (h : m ≠ n) (change : α → α) : (l.modify n change)[m]? = l[m]? := by
  simp [Ne.symm h]

theorem map_modify {β : Type*} {f : α → β} (h : ∀ x, l[n]? = some x → f (change x) = f x) :
    (l.modify n change).map f = l.map f := by
  apply ext_getElem?
  intro m
  rw [getElem?_map, getElem?_map]
  rcases eq_or_ne m n with rfl | hne
  · rcases hx : l[m]? with - | x
    · simp [hx]
    · rw [getElem?_modify_self hx, Option.map_some, Option.map_some, h x hx]
  · rw [getElem?_modify_of_ne hne]

theorem modify_concat (l : List α) (x : α) (change : α → α) :
    (l ++ [x]).modify l.length change = l ++ [change x] := by
  induction l with
  | nil => rfl
  | cons y l ih => exact congrArg (y :: ·) ih

theorem mem_modify {y : α} (h : y ∈ l.modify n change) : y ∈ l ∨ ∃ x, l[n]? = some x ∧ y = change x := by
  obtain ⟨m, hm⟩ := mem_iff_getElem?.mp h
  rcases eq_or_ne m n with rfl | hne
  · rcases hx : l[m]? with - | x
    · simp [hx] at hm
    · rw [getElem?_modify_self hx] at hm
      exact .inr ⟨x, rfl, (Option.some.inj hm).symm⟩
  · rw [getElem?_modify_of_ne hne] at hm
    exact .inl (mem_of_getElem? hm)

theorem exists_mem_modify {P Q : α → Prop} (hx : l[n]? = some x) (h : ∀ y, P (change y) ↔ P y ∨ Q y) :
    (∃ y ∈ l.modify n change, P y) ↔ (∃ y ∈ l, P y) ∨ Q x := by
  constructor
  · rintro ⟨y, hy, hP⟩
    rcases mem_modify hy with hy | ⟨z, hz, rfl⟩
    · exact .inl ⟨y, hy, hP⟩
    · obtain rfl := Option.mem_unique hz hx
      exact ((h z).mp hP).imp_left fun hPz => ⟨z, mem_of_getElem? hz, hPz⟩
  · rintro (⟨y, hy, hP⟩ | hQ)
    · obtain ⟨m, hm⟩ := mem_iff_getElem?.mp hy
      rcases eq_or_ne m n with rfl | hne
      · exact ⟨_, mem_of_getElem? (getElem?_modify_self hm _), (h y).mpr (.inl hP)⟩
      · exact ⟨y, mem_of_getElem? ((getElem?_modify_of_ne hne _).trans hm), hP⟩
    · exact ⟨_, mem_of_getElem? (getElem?_modify_self hx _), (h x).mpr (.inr hQ)⟩

end Change

/-! ### Agreement -/

section Agreement

variable {R : α → α' → Prop} {l : List α} {l' : List α'} {n : Nat} {x : α}

theorem getElem?_of_forall₂ (h : List.Forall₂ R l l') (hx : l[n]? = some x) :
    ∃ y, l'[n]? = some y ∧ R x y := by
  induction h generalizing n with
  | nil => simp at hx
  | cons hxy hrest ih =>
    cases n with
    | zero =>
      obtain rfl := Option.some.inj hx
      exact ⟨_, rfl, hxy⟩
    | succ => exact ih hx

theorem forall₂_modify (h : List.Forall₂ R l l') {f : α → α}
    (hfg : ∀ x y, l[n]? = some x → l'[n]? = some y → R x y → R (f x) (g y)) :
    List.Forall₂ R (l.modify n f) (l'.modify n g) := by
  induction h generalizing n with
  | nil => cases n <;> exact .nil
  | cons hxy hrest ih =>
    cases n with
    | zero => exact .cons (hfg _ _ rfl rfl hxy) hrest
    | succ => exact .cons hxy (ih hfg)

theorem forall₂_of_getElem? (hlen : l.length = l'.length)
    (h : ∀ (n : Nat) x y, l[n]? = some x → l'[n]? = some y → S x y) : List.Forall₂ S l l' := by
  rw [forall₂_iff_get]
  refine ⟨hlen, fun n hn hn' => ?_⟩
  exact h n _ _ (getElem?_eq_getElem hn) (getElem?_eq_getElem hn')

/-- One of the two is told something of the thing in a place. -/
theorem forall₂_modify_right (h : List.Forall₂ R l l') (hx : l[n]? = some x)
    (hself : ∀ y, l'[n]? = some y → R x y → S x (g y))
    (hother : ∀ (m : Nat) x' y, m ≠ n → l[m]? = some x' → R x' y → S x' y) :
    List.Forall₂ S l (l'.modify n g) := by
  refine forall₂_of_getElem? ?_ fun m x' y' hx' hy' => ?_
  · rw [length_modify]
    exact h.length_eq
  · obtain ⟨y, hy, hxy⟩ := getElem?_of_forall₂ h hx'
    rcases eq_or_ne m n with rfl | hne
    · obtain rfl := Option.mem_unique hx hx'
      rw [getElem?_modify_self hy] at hy'
      obtain rfl := Option.some.inj hy'
      exact hself y hy hxy
    · rw [getElem?_modify_of_ne hne, hy] at hy'
      obtain rfl := Option.some.inj hy'
      exact hother m x' y hne hx' hxy

theorem forall₂_concat (h : List.Forall₂ R l l') {y : α'} (hxy : R x y) :
    List.Forall₂ R (l ++ [x]) (l' ++ [y]) :=
  rel_append h (.cons hxy .nil)

end Agreement

end Roster
