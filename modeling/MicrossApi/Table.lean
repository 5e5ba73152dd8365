/-
MicrossApi/Table.lean

Keyed tables.  A table is a list of rows no two of which share their primary
key; the uniqueness is a field, so a table that violates it cannot be built
and no proof has to carry it along.

The statements a program sends are `find?` (SELECT by key), `insert` (INSERT,
refused when the key is taken), `modify` (UPDATE … WHERE key = k, silent when
there is no such row), `save` (write a whole row back under its own key),
`updateWhere` (UPDATE … WHERE p) and `delete` (DELETE … WHERE key = k).
What the accounting proofs need of them is how each one moves a weighted sum
over the rows, `total`.
-/
import Mathlib.Algebra.BigOperators.Group.List.Basic
import Mathlib.Algebra.Ring.Int.Defs
import Mathlib.Data.List.Nodup

variable {ρ κ : Type} {key : ρ → κ}

/-- A table with primary key `key`. -/
structure Table (key : ρ → κ) where
  rows : List ρ
  nodup : (rows.map key).Nodup

namespace Table

open List

/-- The table without rows. -/
def empty : Table key := ⟨[], nodup_nil⟩

instance : Inhabited (Table key) := ⟨empty⟩

variable [DecidableEq κ] {k : κ} {r : ρ}

/-! ### Statements -/

variable (t : Table key)

/-- The row with primary key `k`. -/
def find? (k : κ) : Option ρ :=
  t.rows.find? fun r => key r = k

/-- Rewrite the row with key `k`, if there is one, keeping its key. -/
def modify (k : κ) (f : ρ → ρ) (hf : ∀ r, key (f r) = key r) : Table key where
  rows := t.rows.map fun r => if key r = k then f r else r
  nodup := by
    have hkeys : (t.rows.map fun r => if key r = k then f r else r).map key = t.rows.map key := by
      rw [map_map]
      refine map_congr_left fun r _ => ?_
      by_cases hr : key r = k <;> simp [hr, hf]
    rw [hkeys]
    exact t.nodup

/-- Write `r` over the row that has its key, if there is one. -/
def save (r : ρ) : Table key where
  rows := t.rows.map fun x => if key x = key r then r else x
  nodup := by
    have hkeys : (t.rows.map fun x => if key x = key r then r else x).map key
        = t.rows.map key := by
      rw [map_map]
      refine map_congr_left fun x _ => ?_
      by_cases hx : key x = key r <;> simp [hx]
    rw [hkeys]
    exact t.nodup

/-- Append a row whose key is not taken; a taken key leaves the table as it
is. -/
def insert (r : ρ) : Table key :=
  if h : key r ∈ t.rows.map key then t
  else ⟨t.rows ++ [r], by
    rw [map_append, map_singleton, nodup_append]
    refine ⟨t.nodup, nodup_singleton _, ?_⟩
    rintro a ha b hb rfl
    exact h (mem_singleton.mp hb ▸ ha)⟩

/-- Rewrite every row that satisfies `p`, keeping the keys. -/
def updateWhere (p : ρ → Bool) (f : ρ → ρ) (hf : ∀ r, key (f r) = key r) : Table key where
  rows := t.rows.map fun r => if p r then f r else r
  nodup := by
    have hkeys : (t.rows.map fun r => if p r then f r else r).map key = t.rows.map key := by
      rw [map_map]
      refine map_congr_left fun r _ => ?_
      by_cases hr : p r <;> simp [hr, hf]
    rw [hkeys]
    exact t.nodup

/-- Remove the row with key `k`, if there is one. -/
def delete (k : κ) : Table key where
  rows := t.rows.filter fun r => key r ≠ k
  nodup := t.nodup.sublist (filter_sublist.map key)

/-! ### Selecting -/

theorem find?_eq_some_iff {t : Table key} : t.find? k = some r ↔ r ∈ t.rows ∧ key r = k := by
  refine ⟨fun h => ⟨mem_of_find?_eq_some h, by simpa using find?_some h⟩, ?_⟩
  rintro ⟨hr, rfl⟩
  -- two rows of one key are the same row
  rcases h : t.find? (key r) with - | r'
  · have := find?_eq_none.mp h r hr
    simp at this
  have hr' : key r' = key r := by simpa using find?_some h
  have := inj_on_of_nodup_map t.nodup (mem_of_find?_eq_some h) hr hr'
  rw [this]

theorem find?_eq_none_iff {t : Table key} : t.find? k = none ↔ ∀ r ∈ t.rows, key r ≠ k := by
  simp [find?]

theorem mem_of_find? {t : Table key} (h : t.find? k = some r) : r ∈ t.rows :=
  (find?_eq_some_iff.mp h).1

theorem key_of_find? {t : Table key} (h : t.find? k = some r) : key r = k :=
  (find?_eq_some_iff.mp h).2

@[simp] theorem find?_modify (k j : κ) (f : ρ → ρ) (hf : ∀ r, key (f r) = key r) :
    (t.modify k f hf).find? j = if j = k then (t.find? j).map f else t.find? j := by
  simp only [find?, modify]
  induction t.rows with
  | nil => simp
  | cons r rs ih =>
    by_cases hr : key r = k
    · by_cases hj : k = j
      · simp [hr, hf, hj]
      · simp [hr, hf, hj, ih]
    · by_cases hj : key r = j
      · have hjk : ¬ j = k := fun h => hr (hj.trans h)
        simp [hj, hjk]
      · simp [hr, hj, ih]

theorem modify_of_find?_none {t : Table key} {f : ρ → ρ} {hf : ∀ r, key (f r) = key r}
    (h : t.find? k = none) : t.modify k f hf = t := by
  have hrows : (t.modify k f hf).rows = t.rows := by
    show t.rows.map _ = _
    conv_rhs => rw [← map_id t.rows]
    refine map_congr_left fun r hr => ?_
    rw [if_neg (find?_eq_none_iff.mp h r hr)]
    rfl
  exact (Table.mk.injEq ..).mpr hrows

@[simp] theorem find?_save (r : ρ) (j : κ) :
    (t.save r).find? j = if j = key r then (t.find? j).map (fun _ => r) else t.find? j := by
  simp only [find?, save]
  induction t.rows with
  | nil => simp
  | cons x xs ih =>
    by_cases hx : key x = key r
    · by_cases hj : key r = j
      · simp [hx, hj]
      · simp [hx, hj, ih]
    · by_cases hj : key x = j
      · have hjr : ¬ j = key r := fun h => hx (hj.trans h)
        simp [hj, hjr]
      · simp [hx, hj, ih]

theorem rows_insert {t : Table key} (h : t.find? (key r) = none) :
    (t.insert r).rows = t.rows ++ [r] := by
  have hk : key r ∉ t.rows.map key := by
    intro hmem
    obtain ⟨x, hx, hxr⟩ := mem_map.mp hmem
    exact find?_eq_none_iff.mp h x hx hxr
  simp [insert, hk]

theorem find?_insert {t : Table key} (h : t.find? (key r) = none) (j : κ) :
    (t.insert r).find? j = if j = key r then some r else t.find? j := by
  by_cases hj : j = key r
  · subst hj
    rw [if_pos rfl, find?_eq_some_iff, rows_insert h]
    exact ⟨by simp, rfl⟩
  · have hj' : ¬ key r = j := fun e => hj e.symm
    rw [if_neg hj, find?, rows_insert h]
    simp [find?, hj']

theorem insert_of_find?_some {t : Table key} {x : ρ} (h : t.find? (key r) = some x) : t.insert r = t := by
  have hk : key r ∈ t.rows.map key :=
    mem_map.mpr ⟨x, mem_of_find? h, key_of_find? h⟩
  simp [insert, hk]

omit [DecidableEq κ] in
theorem rows_updateWhere (p : ρ → Prop) [DecidablePred p] (f : ρ → ρ)
    (hf : ∀ r, key (f r) = key r) :
    (t.updateWhere (fun r => p r) f hf).rows = t.rows.map fun r => if p r then f r else r := by
  simp [updateWhere]

theorem find?_updateWhere (p : ρ → Bool) (f : ρ → ρ) (hf : ∀ r, key (f r) = key r) (k : κ) :
    (t.updateWhere p f hf).find? k = (t.find? k).map fun r => if p r then f r else r := by
  show (t.rows.map _).find? _ = _
  rw [find?_map]
  refine congrArg (Option.map _) (congrArg (List.find? · t.rows) (funext fun r => ?_))
  by_cases hr : p r <;> simp [hr, hf]

/-! ### Weighted sums over the rows -/

omit [DecidableEq κ] in
/-- Summing over the rows that satisfy `p` is summing a weight that vanishes
on the others. -/
theorem sum_map_filter (l : List ρ) (p : ρ → Bool) (w : ρ → Int) :
    ((l.filter p).map w).sum = (l.map fun r => if p r then w r else 0).sum := by
  induction l with
  | nil => rfl
  | cons r rs ih =>
    cases h : p r with
    | true | false => simp [h, ih]

/-- The sum of the weight `w` over all rows. -/
def total (w : ρ → Int) : Int := (t.rows.map w).sum

theorem total_insert {t : Table key} (h : t.find? (key r) = none) (w : ρ → Int) :
    (t.insert r).total w = t.total w + w r := by
  simp [total, rows_insert h]

/-- A row list with distinct keys is changed at one row at most, so writing
`r` moves the sum by the new weight minus the old. -/
theorem sum_map_save {l : List ρ} (hl : (l.map key).Nodup) {old : ρ} (hold : old ∈ l)
    (hk : key old = key r) (w : ρ → Int) : ((l.map fun x => if key x = key r then r else x).map w).sum
      = (l.map w).sum - w old + w r := by
  induction l with
  | nil => simp at hold
  | cons x xs ih =>
    rw [map_cons, nodup_cons] at hl
    rcases mem_cons.mp hold with rfl | hmem
    · -- the row written is the head; the tail has no row of this key
      have htail : xs.map (fun x => if key x = key r then r else x) = xs := by
        conv_rhs => rw [← map_id xs]
        refine map_congr_left fun y hy => ?_
        have hne : key y ≠ key r := by
          intro e
          exact hl.1 (mem_map.mpr ⟨y, hy, e.trans hk.symm⟩)
        simp [hne]
      simp only [map_cons, hk, if_true, htail, sum_cons]
      omega
    · have hne : key x ≠ key r := by
        intro e
        exact hl.1 (mem_map.mpr ⟨old, hmem, hk.trans e.symm⟩)
      have := ih hl.2 hmem
      simp only [map_cons, hne, if_false, sum_cons]
      omega

theorem total_save {t : Table key} {old : ρ} (h : t.find? (key r) = some old)
    (w : ρ → Int) : (t.save r).total w = t.total w - w old + w r :=
  sum_map_save t.nodup (mem_of_find? h) (key_of_find? h) w

theorem sum_map_key (k : κ) (w : ρ → Int) :
    (t.rows.map fun r => if key r = k then w r else 0).sum = ((t.find? k).map w).getD 0 := by
  obtain ⟨rows, hnodup⟩ := t
  show _ = ((rows.find? fun r => key r = k).map w).getD 0
  induction rows with
  | nil => rfl
  | cons r rs ih =>
    rw [map_cons, nodup_cons] at hnodup
    by_cases hr : key r = k
    · have hrest : rs.map (fun x => if key x = k then w x else 0) = rs.map fun _ => 0 := by
        refine map_congr_left fun x hx => if_neg fun e => ?_
        exact hnodup.1 (mem_map.mpr ⟨x, hx, e.trans hr.symm⟩)
      simp [hr, hrest]
    · simp [hr, ih hnodup.2]

end Table
