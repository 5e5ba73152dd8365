/-
MicrossApi/Tx.lean

Transactions.  The body of a transaction is a program over the state it may
change, failing with an error: `Tx σ ε α = σ → Except ε (α × σ)`.  Running it
with `atomically` keeps the new state when the body succeeds and the old one
when it fails, which is all that `BEGIN … COMMIT / ROLLBACK` means once row
locks make bodies exclusive.

A proof about a body never unfolds the monad: it peels a successful run apart
statement by statement with the `ok_…_bind_iff` lemma of each primitive, and
with `ok_bind_iff` where the statement is a program of its own.  What a program
leaves alone (`Keeps`) and what it does not look at (`Related`) is composed from
its statements.
-/
import Mathlib.Data.Option.Defs
import Mathlib.Logic.Basic

/-- A transaction body over state `σ` with errors `ε` and result `α`. -/
abbrev Tx (σ ε α : Type) := StateT σ (Except ε) α

namespace Tx

variable {σ ε α β : Type} {x : Tx σ ε α} {f : α → Tx σ ε β} {s : σ} {a : α} {s' : σ} {c : Prop}
  {e : ε} {u : Unit} {o : σ → Option α} {τ : Type} {put : τ → σ → τ} {get : τ → σ} {body : Tx σ ε α}

/-! ### Primitive statements -/

/-- Abort with `e` unless `c` holds. -/
def require (c : Prop) [Decidable c] (e : ε) : Tx σ ε Unit := fun s =>
  if c then .ok ((), s) else .error e

/-- Read a row; abort with `e` when there is none. -/
def fetch (o : σ → Option α) (e : ε) : Tx σ ε α := fun s =>
  match o s with
  | some a => .ok (a, s)
  | none => .error e

/-- Read a value of the current state. -/
def read (f : σ → α) : Tx σ ε α := fun s => .ok (f s, s)

/-- Change the state. -/
def update (f : σ → σ) : Tx σ ε Unit := fun s => .ok ((), f s)

/-- A value computed outside the transaction; its error aborts. -/
def lift (x : Except ε α) : Tx σ ε α := fun s =>
  match x with
  | .ok a => .ok (a, s)
  | .error e => .error e

/-- Abort. -/
def fail (e : ε) : Tx σ ε α := fun _ => .error e

/-- Run a program on a part of the state: `get` reads the part and `put`
writes it back. -/
def zoom {τ : Type} (get : τ → σ) (put : τ → σ → τ) (x : Tx σ ε α) : Tx τ ε α := fun t =>
  match x (get t) with
  | .ok (a, s) => .ok (a, put t s)
  | .error e => .error e

/-- Report errors as `f` rewrites them. -/
def mapError (f : ε → ε) (x : Tx σ ε α) : Tx σ ε α := fun s =>
  match x s with
  | .ok r => .ok r
  | .error e => .error (f e)

/-! ### Successful runs -/

theorem ok_bind_iff {s'' : σ} {b : β} : (x >>= f) s = .ok (b, s'') ↔
      ∃ a s', x s = .ok (a, s') ∧ f a s' = .ok (b, s'') := by
  change (x s >>= fun p => f p.1 p.2) = _ ↔ _
  rcases hx : x s with e | ⟨a, s'⟩
  · simp [bind, Except.bind]
  simp only [Except.ok.injEq, Prod.mk.injEq]
  constructor
  · intro h
    exact ⟨a, s', ⟨rfl, rfl⟩, h⟩
  · rintro ⟨a', t, ⟨rfl, rfl⟩, h⟩
    exact h

theorem pure_apply (a : α) (s : σ) : (pure a : Tx σ ε α) s = .ok (a, s) := rfl

theorem ok_pure_iff {b : α} : (pure a : Tx σ ε α) s = .ok (b, s') ↔ b = a ∧ s' = s := by
  simp only [pure_apply, Except.ok.injEq, Prod.mk.injEq, eq_comm]

theorem ok_require_iff [Decidable c] :
    require c e s = .ok (u, s') ↔ c ∧ s' = s := by
  by_cases hc : c
  · simp [require, hc, eq_comm]
  · simp [require, hc]

theorem ok_fetch_iff :
    fetch o e s = .ok (a, s') ↔ o s = some a ∧ s' = s := by
  rcases h : o s with - | b
  · simp [fetch, h]
  · simp only [fetch, h, Except.ok.injEq, Prod.mk.injEq, Option.some.injEq]
    exact ⟨fun h => ⟨h.1, h.2.symm⟩, fun h => ⟨h.1, h.2.symm⟩⟩

theorem ok_read_iff {f : σ → α} :
    (read f : Tx σ ε α) s = .ok (a, s') ↔ a = f s ∧ s' = s := by
  simp only [read, Except.ok.injEq, Prod.mk.injEq]
  exact ⟨fun h => ⟨h.1.symm, h.2.symm⟩, fun h => ⟨h.1.symm, h.2.symm⟩⟩

theorem ok_lift_iff {x : Except ε α} :
    (lift x : Tx σ ε α) s = .ok (a, s') ↔ x = .ok a ∧ s' = s := by
  rcases x with e | b
  · simp [lift]
  · simp only [lift, Except.ok.injEq, Prod.mk.injEq]
    exact ⟨fun h => ⟨h.1, h.2.symm⟩, fun h => ⟨h.1, h.2.symm⟩⟩

theorem ok_update_iff {f : σ → σ} :
    (update f : Tx σ ε Unit) s = .ok (u, s') ↔ s' = f s := by
  simp [update, eq_comm]

theorem ok_zoom_iff {t t' : τ} :
    zoom get put x t = .ok (a, t') ↔ ∃ s, x (get t) = .ok (a, s) ∧ t' = put t s := by
  rcases h : x (get t) with e | ⟨b, s⟩
  · simp [zoom, h]
  simp only [zoom, h, Except.ok.injEq, Prod.mk.injEq]
  constructor
  · rintro ⟨rfl, rfl⟩
    exact ⟨s, ⟨rfl, rfl⟩, rfl⟩
  · rintro ⟨_, ⟨rfl, rfl⟩, rfl⟩
    exact ⟨rfl, rfl⟩

theorem ok_mapError_iff {f : ε → ε} {r : α × σ} :
    mapError f x s = .ok r ↔ x s = .ok r := by
  rcases h : x s with e | r' <;> simp [mapError, h]

theorem not_ok_of_error (h : body s = .error e) (r : α × σ) :
    body s ≠ .ok r := by
  rw [h]
  simp

theorem not_ok_fail : (fail e : Tx σ ε α) s ≠ .ok (a, s') := by
  simp [fail]

/-! ### Successful runs that begin with a statement -/

section Peel

variable {s s' : σ} {b : β}

theorem ok_require_bind_iff [Decidable c] {f : Unit → Tx σ ε β} :
    (require c e >>= f) s = .ok (b, s') ↔ c ∧ f () s = .ok (b, s') := by
  simp only [ok_bind_iff, ok_require_iff]
  constructor
  · rintro ⟨_, _, ⟨hc, rfl⟩, h⟩
    exact ⟨hc, h⟩
  · rintro ⟨hc, h⟩
    exact ⟨(), s, ⟨hc, rfl⟩, h⟩

theorem ok_fetch_bind_iff :
    (fetch o e >>= f) s = .ok (b, s') ↔ ∃ a, o s = some a ∧ f a s = .ok (b, s') := by
  simp only [ok_bind_iff, ok_fetch_iff]
  constructor
  · rintro ⟨a, _, ⟨ha, rfl⟩, h⟩
    exact ⟨a, ha, h⟩
  · rintro ⟨a, ha, h⟩
    exact ⟨a, s, ⟨ha, rfl⟩, h⟩

theorem ok_read_bind_iff {g : σ → α} :
    (read g >>= f) s = .ok (b, s') ↔ f (g s) s = .ok (b, s') := by
  simp only [ok_bind_iff, ok_read_iff]
  constructor
  · rintro ⟨_, _, ⟨rfl, rfl⟩, h⟩
    exact h
  · intro h
    exact ⟨_, s, ⟨rfl, rfl⟩, h⟩

theorem ok_lift_bind_iff {x : Except ε α} :
    (lift x >>= f) s = .ok (b, s') ↔ ∃ a, x = .ok a ∧ f a s = .ok (b, s') := by
  simp only [ok_bind_iff, ok_lift_iff]
  constructor
  · rintro ⟨a, _, ⟨ha, rfl⟩, h⟩
    exact ⟨a, ha, h⟩
  · rintro ⟨a, ha, h⟩
    exact ⟨a, s, ⟨ha, rfl⟩, h⟩

theorem ok_update_bind_iff {g : σ → σ} {f : Unit → Tx σ ε β} :
    (update g >>= f) s = .ok (b, s') ↔ f () (g s) = .ok (b, s') := by
  simp only [ok_bind_iff, ok_update_iff]
  constructor
  · rintro ⟨_, _, rfl, h⟩
    exact h
  · intro h
    exact ⟨(), g s, rfl, h⟩

theorem ok_zoom_bind_iff {f : α → Tx τ ε β} {t t' : τ} : (zoom get put x >>= f) t = .ok (b, t') ↔
      ∃ a s, x (get t) = .ok (a, s) ∧ f a (put t s) = .ok (b, t') := by
  simp only [ok_bind_iff, ok_zoom_iff]
  constructor
  · rintro ⟨a, _, ⟨s, hs, rfl⟩, h⟩
    exact ⟨a, s, hs, h⟩
  · rintro ⟨a, s, hs, h⟩
    exact ⟨a, _, ⟨s, hs, rfl⟩, h⟩

end Peel

/-! ### Forward evaluation -/

theorem bind_of_ok (h : x s = .ok (a, s')) : (x >>= f) s = f a s' := by
  change (x s >>= fun p => f p.1 p.2) = _
  rw [h]
  rfl

theorem error_bind (h : x s = .error e) : (x >>= f) s = .error e := by
  change (x s >>= fun p => f p.1 p.2) = _
  rw [h]
  rfl

theorem require_bind [Decidable c] (hc : c) (e : ε) (f : Unit → Tx σ ε β) (s : σ) :
    (require c e >>= f) s = f () s :=
  bind_of_ok (ok_require_iff.mpr ⟨hc, rfl⟩)

theorem error_fetch (h : o s = none) (e : ε) : fetch o e s = .error e := by
  unfold fetch
  rw [h]

theorem read_bind (g : σ → α) (f : α → Tx σ ε β) (s : σ) : (read g >>= f) s = f (g s) s :=
  bind_of_ok (ok_read_iff.mpr ⟨rfl, rfl⟩)

/-! ### What a program leaves alone -/

section Keeps

variable {γ : Type} {v : σ → γ}

/-- Successful runs of `x` do not change the part `v` of the state. -/
def Keeps (v : σ → γ) (x : Tx σ ε α) : Prop := ∀ s a s', x s = .ok (a, s') → v s' = v s

theorem keeps_pure (a : α) : Keeps v (pure a : Tx σ ε α) := by
  intro s b s' h
  rw [(ok_pure_iff.mp h).2]

theorem keeps_require (c : Prop) [Decidable c] (e : ε) : Keeps v (require c e : Tx σ ε Unit) := by
  intro s b s' h
  rw [(ok_require_iff.mp h).2]

theorem keeps_fetch (o : σ → Option α) (e : ε) : Keeps v (fetch o e) := by
  intro s b s' h
  rw [(ok_fetch_iff.mp h).2]

theorem keeps_read (f : σ → α) : Keeps v (read f : Tx σ ε α) := by
  intro s b s' h
  rw [(ok_read_iff.mp h).2]

theorem keeps_update {f : σ → σ} (hf : ∀ s, v (f s) = v s) : Keeps v (update f : Tx σ ε Unit) := by
  intro s b s' h
  rw [ok_update_iff.mp h, hf]

theorem Keeps.bind (hx : Keeps v x) (hf : ∀ a, Keeps v (f a)) :
    Keeps v (x >>= f) := by
  intro s b s'' h
  obtain ⟨a, s', hxs, hfs⟩ := ok_bind_iff.mp h
  exact (hf a s' b s'' hfs).trans (hx s a s' hxs)

theorem Keeps.ite [Decidable c] {x y : Tx σ ε α} (hx : Keeps v x) (hy : Keeps v y) :
    Keeps v (if c then x else y) := by
  split
  · exact hx
  · exact hy

end Keeps

/-! ### Two runs side by side -/

section Related

variable {τ α' β' γ : Type} {R R' R'' : σ → τ → Prop} {Q : α → α' → Prop} {P : β → β' → Prop} {y : Tx τ ε α'}

/-- From states related by `R` both programs fail with the same error, or both
succeed with results related by `Q` and states related by `R'`. -/
def Related (R R' : σ → τ → Prop) (Q : α → α' → Prop) (x : Tx σ ε α) (y : Tx τ ε α') : Prop :=
  ∀ s t, R s t → (∃ e, x s = .error e ∧ y t = .error e) ∨
    ∃ a s' b t', x s = .ok (a, s') ∧ y t = .ok (b, t') ∧ Q a b ∧ R' s' t'

theorem related_pure {b : α'} (h : Q a b) : Related R R Q (pure a : Tx σ ε α) (pure b) :=
  fun s t hR => Or.inr ⟨a, s, b, t, rfl, rfl, h, hR⟩

theorem related_require {d : Prop} [Decidable c] [Decidable d] (h : c ↔ d) (e : ε) :
    Related R R Eq (require c e) (require d e) := by
  intro s t hR
  by_cases hc : c
  · exact Or.inr ⟨(), s, (), t, ok_require_iff.mpr ⟨hc, rfl⟩,
      ok_require_iff.mpr ⟨h.mp hc, rfl⟩, rfl, hR⟩
  · exact Or.inl ⟨e, if_neg hc, if_neg (mt h.mpr hc)⟩

theorem related_fetch {o' : τ → Option α'}
    (h : ∀ s t, R s t → Option.Rel Q (o s) (o' t)) (e : ε) : Related R R Q (fetch o e) (fetch o' e) := by
  intro s t hR
  have hrel := h s t hR
  rcases ho : o s with - | a
  · rcases ho' : o' t with - | b
    · exact Or.inl ⟨e, by simp [fetch, ho], by simp [fetch, ho']⟩
    · rw [ho, ho'] at hrel
      cases hrel
  rcases ho' : o' t with - | b
  · rw [ho, ho'] at hrel
    cases hrel
  rw [ho, ho'] at hrel
  cases hrel with
  | some hab =>
    exact Or.inr ⟨a, s, b, t, ok_fetch_iff.mpr ⟨ho, rfl⟩, ok_fetch_iff.mpr ⟨ho', rfl⟩,
      hab, hR⟩

theorem related_read {f : σ → α} {g : τ → α'} (h : ∀ s t, R s t → Q (f s) (g t)) :
    Related R R Q (read f : Tx σ ε α) (read g) :=
  fun s t hR => Or.inr ⟨f s, s, g t, t, rfl, rfl, h s t hR, hR⟩

theorem related_update {f : σ → σ} {g : τ → τ} (h : ∀ s t, R s t → R' (f s) (g t)) :
    Related R R' Eq (update f : Tx σ ε Unit) (update g) :=
  fun s t hR => Or.inr ⟨(), f s, (), g t, rfl, rfl, rfl, h s t hR⟩

theorem related_lift (x : Except ε α) : Related R R Eq (lift x : Tx σ ε α) (lift x) := by
  intro s t hR
  rcases x with e | a
  · exact Or.inl ⟨e, rfl, rfl⟩
  · exact Or.inr ⟨a, s, a, t, rfl, rfl, rfl, hR⟩

theorem Related.bind {g : α' → Tx τ ε β'} (hx : Related R R' Q x y)
    (hf : ∀ a b, Q a b → Related R' R'' P (f a) (g b)) : Related R R'' P (x >>= f) (y >>= g) := by
  intro s t hR
  obtain ⟨e, hxs, hyt⟩ | ⟨a, s', b, t', hxs, hyt, hab, hR'⟩ := hx s t hR
  · exact Or.inl ⟨e, error_bind hxs, error_bind hyt⟩
  · rw [bind_of_ok hxs, bind_of_ok hyt]
    exact hf a b hab s' t' hR'

/-- Both go on with the same result. -/
theorem Related.bind_eq {y : Tx τ ε α}
    {g : α → Tx τ ε β'} (hx : Related R R' Eq x y) (hf : ∀ a, Related R' R'' P (f a) (g a)) :
    Related R R'' P (x >>= f) (y >>= g) := by
  refine hx.bind fun a b hab => ?_
  rw [← hab]
  exact hf a

/-- Both check the same and go on. -/
theorem Related.guard [Decidable c] {x : Tx σ ε β} {y : Tx τ ε β'} (h : Related R R' P x y) :
    Related R R' P (require c e >>= fun _ => x) (require c e >>= fun _ => y) :=
  (related_require Iff.rfl e).bind_eq fun _ => h

/-- Both check the same and go on with what it says. -/
theorem Related.check [Decidable c] {x : Tx σ ε β} {y : Tx τ ε β'} (h : c → Related R R' P x y) :
    Related R R' P (require c e >>= fun _ => x) (require c e >>= fun _ => y) := by
  by_cases hc : c
  · exact (h hc).guard
  · exact fun _ _ _ => Or.inl ⟨e, error_bind (if_neg hc), error_bind (if_neg hc)⟩

theorem Related.ite {d : Prop} [Decidable c] [Decidable d] {x x' : Tx σ ε α} {y' : Tx τ ε α'}
    (h : c ↔ d) (hx : Related R R' Q x y) (hx' : Related R R' Q x' y') :
    Related R R' Q (if c then x else x') (if d then y else y') := by
  by_cases hc : c
  · rw [if_pos hc, if_pos (h.mp hc)]
    exact hx
  · rw [if_neg hc, if_neg (mt h.mpr hc)]
    exact hx'

theorem Related.zoom {σ' τ' : Type} {S S' : σ' → τ' → Prop} {get : σ' → σ} {put : σ' → σ → σ'}
    {get' : τ' → τ} {put' : τ' → τ → τ'} (hx : Related R R' Q x y)
    (hget : ∀ s t, S s t → R (get s) (get' t)) (hput : ∀ s t a b, S s t → R' a b → S' (put s a) (put' t b)) :
    Related S S' Q (zoom get put x) (zoom get' put' y) := by
  intro s t hS
  obtain ⟨e, hxs, hyt⟩ | ⟨a, s', b, t', hxs, hyt, hab, hR'⟩ := hx _ _ (hget s t hS)
  · exact Or.inl ⟨e, by simp [Tx.zoom, hxs], by simp [Tx.zoom, hyt]⟩
  · exact Or.inr ⟨a, _, b, _, ok_zoom_iff.mpr ⟨s', hxs, rfl⟩, ok_zoom_iff.mpr ⟨t', hyt, rfl⟩,
      hab, hput s t s' t' hS hR'⟩

/-- A part of the first state may be remembered. -/
theorem Related.remember (v : σ → γ) (h : ∀ c, Related (fun s t => R s t ∧ v s = c) R' Q x y) :
    Related R R' Q x y :=
  fun s t hR => h (v s) s t ⟨hR, rfl⟩

/-- From related states the program does the same. -/
def Blind (R : σ → σ → Prop) (x : Tx σ ε α) : Prop := Related R R Eq x x

end Related

/-! ### Running a transaction -/

/-- Run a body as a transaction: an error leaves the state as it was. -/
def atomically (body : Tx σ ε α) (s : σ) : Except ε α × σ :=
  match body s with
  | .ok (a, s') => (.ok a, s')
  | .error e => (.error e, s)

/-- A transaction either commits its body's state or changes nothing. -/
theorem atomically_cases (body : Tx σ ε α) (s : σ) :
    (∃ a s', body s = .ok (a, s') ∧ atomically body s = (.ok a, s')) ∨
      ∃ e, body s = .error e ∧ atomically body s = (.error e, s) := by
  rcases h : body s with e | ⟨a, s'⟩
  · exact Or.inr ⟨e, rfl, by simp [atomically, h]⟩
  · exact Or.inl ⟨a, s', rfl, by simp [atomically, h]⟩

/-- What every committed run of the body preserves, the transaction
preserves. -/
theorem atomically_inv {I : σ → Prop}
    (h : ∀ a s', body s = .ok (a, s') → I s') (hs : I s) : I (atomically body s).2 := by
  obtain ⟨a, s', hb, h'⟩ | ⟨e', -, h'⟩ := atomically_cases body s
  · rw [h']
    exact h a s' hb
  · rw [h']
    exact hs

/-- Transactions with related bodies answer alike and leave related states. -/
theorem Related.atomically {R : σ → τ → Prop} {y : Tx τ ε α} (h : Related R R Eq x y) {t : τ} (hR : R s t) :
    (atomically x s).1 = (atomically y t).1 ∧ R (atomically x s).2 (atomically y t).2 := by
  obtain ⟨e, hxs, hyt⟩ | ⟨a, s', b, t', hxs, hyt, rfl, hR'⟩ := h s t hR
  · simp only [Tx.atomically, hxs, hyt]
    exact ⟨trivial, hR⟩
  · simp only [Tx.atomically, hxs, hyt]
    exact ⟨trivial, hR'⟩

end Tx
