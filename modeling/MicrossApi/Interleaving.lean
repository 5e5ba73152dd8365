/-
MicrossApi/Interleaving.lean

Threads on a shared state.  A program says what an outside event does to the
shared state, how a thread starts and what its next step is; a pool is the
shared state with all threads so far, and a label names the event, the thread
that starts or the thread that goes on, with whatever its step is answered.
A run of `Program.step` is one interleaving, and all lists of labels are all of
them.

The proof rule is an invariant with assertions.  `Holds I A` says that `I` holds
of the shared state and that every thread has what `A` says of it.  A step keeps
it (`Holds.event`, `Holds.start`, `Holds.go`) when it keeps `I`, establishes
`A` of the thread that moves, and leaves `A` of the others alone.  Numbers of
threads, or amounts they are holding, are sums over the pool (`Pool.total`).
What a thread keeps of the call that started it is `exec_started`.
Threads that run transactions take the locks of rows (`Locks`), which are free
again when the transaction ends.
-/
import MicrossApi.StepSystem
import Mathlib.Algebra.Order.BigOperators.Group.List
import Mathlib.Algebra.Order.Group.Nat
import Mathlib.Algebra.Ring.Nat

namespace Interleaving

open List StepSystem

variable {σ τ ε ι α : Type*} {l : List τ} {t' : τ} {I : σ → Prop} {A : σ → Nat → τ → Prop}
  {R : ι → τ → Prop} {calls : List ι}

/-! ### Pools and programs -/

/-- A shared state and the threads that work on it, in the order they started. -/
structure Pool (σ τ : Type*) where
  shared : σ
  threads : List τ := []
deriving DecidableEq, Repr

/-- Something happens to the shared state, a thread starts, or one goes on. -/
inductive Op (ε ι α : Type*) where
  | event (e : ε)
  | start (i : ι)
  | go (k : Nat) (a : α)
deriving DecidableEq, Repr

/-- What the threads do.  A thread knows its own number. -/
structure Program (σ τ ε ι α : Type*) where
  event : σ → ε → σ
  start : σ → ι → σ × τ
  next : Nat → α → σ → τ → σ × τ

/-- One step of anybody. -/
def Program.step (P : Program σ τ ε ι α) (p : Pool σ τ) : Op ε ι α → Pool σ τ
  | .event e => { p with shared := P.event p.shared e }
  | .start i =>
    { shared := (P.start p.shared i).1, threads := p.threads ++ [(P.start p.shared i).2] }
  | .go k a =>
    match p.threads[k]? with
    | none => p
    | some t =>
      { shared := (P.next k a p.shared t).1, threads := p.threads.set k (P.next k a p.shared t).2 }

variable {P : Program σ τ ε ι α} {p : Pool σ τ} {k : Nat} {t : τ}

theorem step_go (a : α) (h : p.threads[k]? = some t) : P.step p (.go k a) =
      { shared := (P.next k a p.shared t).1
        threads := p.threads.set k (P.next k a p.shared t).2 } := by
  dsimp only [Program.step]
  rw [h]

theorem step_go_none (a : α) (h : p.threads[k]? = none) : P.step p (.go k a) = p := by
  dsimp only [Program.step]
  rw [h]

/-! ### The threads after a step -/

/-- After thread `k` has moved to `t'`, a thread is that one or an old one. -/
theorem getElem?_set_cases {j k : Nat} (h : (l.set k t')[j]? = some t) :
    (j = k ∧ t = t') ∨ (j ≠ k ∧ l[j]? = some t) := by
  rw [getElem?_set] at h
  split_ifs at h with hkj hlt
  · exact .inl ⟨hkj.symm, (Option.some.inj h).symm⟩
  · exact .inr ⟨fun hjk => hkj hjk.symm, h⟩

/-- After a thread `t'` has started, a thread is an old one or that one. -/
theorem getElem?_concat_cases {j : Nat} (h : (l ++ [t'])[j]? = some t) :
    l[j]? = some t ∨ (j = l.length ∧ t = t') := by
  rw [getElem?_append] at h
  split_ifs at h with hlt
  · exact .inl h
  · rw [getElem?_singleton] at h
    split_ifs at h with hj
    exact .inr ⟨by omega, (Option.some.inj h).symm⟩

/-- The thread that has moved. -/
theorem getElem?_set_of_some (t' : τ) (h : l[k]? = some t) : (l.set k t')[k]? = some t' :=
  getElem?_set_self (List.getElem?_eq_some_iff.mp h).1

/-- What all threads have after thread `k` has moved from `t` to `t'`, all had
before, if `t` had it. -/
theorem forall_mem_of_set {Q : τ → Prop} (hk : l[k]? = some t)
    (h : ∀ u ∈ l.set k t', Q u) : Q t' ∧ (Q t → ∀ u ∈ l, Q u) := by
  refine ⟨h t' (mem_of_getElem? (getElem?_set_of_some t' hk)), fun ht u hu => ?_⟩
  obtain ⟨j, hj⟩ := getElem?_of_mem hu
  by_cases hjk : j = k
  · subst hjk
    obtain rfl : t = u := Option.mem_unique hk hj
    exact ht
  · exact h u (mem_of_getElem? ((getElem?_set_ne (Ne.symm hjk)).trans hj))

/-! ### Assertions -/

/-- `I` holds of the shared state, and `A` of every thread. -/
structure Holds (I : σ → Prop) (A : σ → Nat → τ → Prop) (p : Pool σ τ) : Prop where
  shared : I p.shared
  thread : ∀ (j : Nat) (t : τ), p.threads[j]? = some t → A p.shared j t

theorem Holds.event {e : ε} (h : Holds I A p) (hI : I (P.event p.shared e))
    (hA : ∀ j t, A p.shared j t → A (P.event p.shared e) j t) : Holds I A (P.step p (.event e)) :=
  ⟨hI, fun j t ht => hA j t (h.thread j t ht)⟩

theorem Holds.start {i : ι} (h : Holds I A p) (hI : I (P.start p.shared i).1)
    (hA : ∀ j t, A p.shared j t → A (P.start p.shared i).1 j t)
    (hnew : A (P.start p.shared i).1 p.threads.length (P.start p.shared i).2) :
    Holds I A (P.step p (.start i)) := by
  refine ⟨hI, fun j t ht => ?_⟩
  rcases getElem?_concat_cases ht with ht | ⟨rfl, rfl⟩
  · exact hA j t (h.thread j t ht)
  · exact hnew

/-- **The step of a thread** keeps the shared invariant, gives the thread its
next assertion and does not interfere with the others. -/
theorem Holds.go {a : α} (h : Holds I A p) (hgo : ∀ t, p.threads[k]? = some t → I (P.next k a p.shared t).1 ∧
      A (P.next k a p.shared t).1 k (P.next k a p.shared t).2 ∧
      ∀ j u, j ≠ k → A p.shared j u → A (P.next k a p.shared t).1 j u) : Holds I A (P.step p (.go k a)) := by
  rcases hk : p.threads[k]? with - | t
  · rw [step_go_none a hk]
    exact h
  rw [step_go a hk]
  obtain ⟨hI, hself, hothers⟩ := hgo t hk
  refine ⟨hI, fun j u hu => ?_⟩
  rcases getElem?_set_cases hu with ⟨rfl, rfl⟩ | ⟨hj, hu⟩
  · exact hself
  · exact hothers j u hj (h.thread j u hu)

/-! ### The call a thread was started with -/

/-- The calls that have started, in the order of their threads. -/
def started : List (Op ε ι α) → List ι
  | [] => []
  | .start i :: ops => i :: started ops
  | _ :: ops => started ops

theorem started_cons (op : Op ε ι α) (ops : List (Op ε ι α)) :
    started (op :: ops) = started [op] ++ started ops := by
  cases op <;> rfl

/-- The threads are those of the calls, one for one, and have `R` of their calls. -/
structure Serves (R : ι → τ → Prop) (calls : List ι) (p : Pool σ τ) : Prop where
  length : p.threads.length = calls.length
  thread : ∀ (k : Nat) (t : τ), p.threads[k]? = some t → ∃ i, calls[k]? = some i ∧ R i t

theorem Serves.step (h : Serves R calls p) (hstart : ∀ s i, R i (P.start s i).2)
    (hnext : ∀ k a s t i, R i t → R i (P.next k a s t).2) (op : Op ε ι α) :
    Serves R (calls ++ started [op]) (P.step p op) := by
  cases op with
  | event => exact (append_nil calls).symm ▸ ⟨h.length, h.thread⟩
  | start i =>
    refine ⟨(length_append.trans (congrArg (· + 1) h.length)).trans length_append.symm, fun k t ht => ?_⟩
    rcases getElem?_concat_cases ht with ht | ⟨rfl, rfl⟩
    · obtain ⟨j, hj, hR⟩ := h.thread k t ht
      exact ⟨j, (getElem?_append_left (List.getElem?_eq_some_iff.mp hj).1).trans hj, hR⟩
    · exact ⟨i, by rw [h.length]; exact getElem?_concat_length, hstart _ i⟩
  | go k a =>
    rw [show calls ++ started [Op.go k a] = calls from append_nil calls]
    rcases hk : p.threads[k]? with - | t
    · rw [step_go_none a hk]
      exact h
    rw [step_go a hk]
    refine ⟨length_set.trans h.length, fun j u hu => ?_⟩
    rcases getElem?_set_cases hu with ⟨rfl, rfl⟩ | ⟨-, hu⟩
    · obtain ⟨i, hi, hR⟩ := h.thread j t hk
      exact ⟨i, hi, hnext j a _ t i hR⟩
    · exact h.thread j u hu

theorem Serves.exec (h : Serves R calls p) (hstart : ∀ s i, R i (P.start s i).2)
    (hnext : ∀ k a s t i, R i t → R i (P.next k a s t).2) (ops : List (Op ε ι α)) :
    Serves R (calls ++ started ops) (exec P.step p ops) := by
  induction ops generalizing p calls with
  | nil => exact (append_nil calls).symm ▸ h
  | cons op ops ih =>
    rw [started_cons, ← append_assoc]
    exact ih (h.step hstart hnext op)

/-- **Thread `k` serves the `k`-th call**: it has what a call starts with and no
step takes away. -/
theorem exec_started (hstart : ∀ s i, R i (P.start s i).2)
    (hnext : ∀ k a s t i, R i t → R i (P.next k a s t).2) (s : σ) (ops : List (Op ε ι α)) :
    Serves R (started ops) (exec P.step { shared := s } ops) := by
  have hempty : Serves R [] ({ shared := s } : Pool σ τ) := ⟨rfl, by simp⟩
  exact hempty.exec hstart hnext ops

/-! ### Sums over the threads -/

/-- The sum of `f` over all threads. -/
def Pool.total (f : τ → Nat) (p : Pool σ τ) : Nat := (p.threads.map f).sum

theorem sum_map_set (f : τ → Nat) (t' : τ) (h : l[k]? = some t) :
    ((l.set k t').map f).sum + f t = (l.map f).sum + f t' := by
  induction l generalizing k with
  | nil => cases h
  | cons u l ih =>
    cases k with
    | zero =>
      cases h
      simp only [set_cons_zero, map_cons, sum_cons]
      omega
    | succ =>
      have htail := ih h
      simp only [set_cons_succ, map_cons, sum_cons]
      omega

/-- A step changes the sum by what the thread that moves contributes. -/
theorem total_go (f : τ → Nat) (a : α) (h : p.threads[k]? = some t) :
    (P.step p (.go k a)).total f + f t = p.total f + f (P.next k a p.shared t).2 := by
  rw [step_go a h]
  exact sum_map_set f _ h

theorem total_start (f : τ → Nat) (i : ι) :
    (P.step p (.start i)).total f = p.total f + f (P.start p.shared i).2 := by
  show ((p.threads ++ [_]).map f).sum = _
  simp only [map_append, sum_append]
  rfl

/-- Where all other threads contribute nothing. -/
theorem total_eq_of_others {f : τ → Nat} (h : p.threads[k]? = some t)
    (hothers : ∀ j u, j ≠ k → p.threads[j]? = some u → f u = 0) : p.total f = f t := by
  show (p.threads.map f).sum = f t
  generalize p.threads = l at *
  induction l generalizing k with
  | nil => cases h
  | cons u l ih =>
    rw [map_cons, sum_cons]
    cases k with
    | zero =>
      cases h
      have hzero : ∀ v ∈ l, f v = 0 := by
        intro v hv
        obtain ⟨j, hj⟩ := getElem?_of_mem hv
        exact hothers (j + 1) v (Nat.succ_ne_zero j) hj
      rw [map_congr_left hzero, map_const', sum_replicate_nat, Nat.mul_zero, Nat.add_zero]
    | succ =>
      rw [hothers 0 u (Nat.succ_ne_zero _).symm rfl, Nat.zero_add]
      exact ih h fun j v hj hv => hothers (j + 1) v (fun hjk => hj (Nat.succ.inj hjk)) hv

theorem total_le_total {f g : τ → Nat} (h : ∀ t, f t ≤ g t) (p : Pool σ τ) : p.total f ≤ p.total g :=
  sum_le_sum fun t _ => h t

/-! ### Row locks -/

/-- Which thread holds the lock of a row. -/
def Locks (κ : Type*) : Type _ := κ → Option Nat

namespace Locks

variable {κ : Type*}

def free : Locks κ := fun _ => none

/-- Thread `k` does not have to wait for row `x`. -/
def CanTake (l : Locks κ) (x : κ) (k : Nat) : Prop := l x = none ∨ l x = some k
deriving Decidable

def take [DecidableEq κ] (l : Locks κ) (x : κ) (k : Nat) : Locks κ :=
  fun y => if y = x then some k else l y

/-- Thread `k` ends its transaction. -/
def release (l : Locks κ) (k : Nat) : Locks κ := fun y => if l y = some k then none else l y

variable {l : Locks κ} {x y : κ} {j k : Nat}

theorem take_self [DecidableEq κ] (l : Locks κ) (x : κ) (k : Nat) : l.take x k x = some k :=
  if_pos rfl

theorem take_mono [DecidableEq κ] (h : l y = some k) : l.take x k y = some k := by
  show (if y = x then some k else l y) = some k
  split
  · rfl
  · exact h

theorem take_other [DecidableEq κ] (hx : l.CanTake x k) (hj : j ≠ k) (h : l y = some j) :
    l.take x k y = some j := by
  refine (if_neg ?_).trans h
  rintro rfl
  rcases hx with hx | hx
  · rw [hx] at h
    cases h
  · exact hj (Option.mem_unique h hx)

theorem release_other (hj : j ≠ k) (h : l y = some j) : l.release k y = some j :=
  (if_neg fun hk => hj (Option.mem_unique h hk)).trans h

/-- Who need not wait for any row need not after taking one or giving all back. -/
theorem canTake_take [DecidableEq κ] (h : ∀ y, l.CanTake y k) (x y : κ) : (l.take x k).CanTake y k := by
  by_cases hy : y = x
  · exact .inr (if_pos hy)
  rcases h y with h | h
  · exact .inl ((if_neg hy).trans h)
  · exact .inr ((if_neg hy).trans h)

theorem canTake_release (h : ∀ y, l.CanTake y k) (y : κ) : (l.release k).CanTake y k := by
  by_cases hy : l y = some k
  · exact .inl (if_pos hy)
  · exact .inl ((if_neg hy).trans ((h y).resolve_right hy))

end Locks

end Interleaving
