/-
MicrossApi/Routing.lean

Pieces of text that come from sources and go to targets, or get lost.  What a
source sent and what a target received are concatenations over the pieces in
their order.

The question is when every source finds what it sent whole at a target of its
own (`Delivered`).  It does when no piece gets lost and the pieces with text
belong together at their targets just as they did at their sources (`OneToOne`).
Where no target mixes sources the converse holds too (`Delivered.oneToOne`): the
lengths leave no room for a loss, nor for more targets than sources.
-/
import Mathlib.Algebra.BigOperators.Group.Finset.Basic
import Mathlib.Algebra.BigOperators.Group.Finset.Piecewise
import Mathlib.Algebra.Order.BigOperators.Group.Finset

namespace Routing

open List

/-- A piece of text; one without a target is lost. -/
structure Piece (α β : Type*) where
  src : α
  dst : Option β
  text : String

variable {α β : Type*} {target : α → β}

/-! ### Collecting pieces -/

section Collect

variable {q r : Piece α β → Prop} [DecidablePred q] [DecidablePred r] {ps : List (Piece α β)}

/-- The text of the pieces with a property. -/
def collect (q : Piece α β → Prop) [DecidablePred q] (ps : List (Piece α β)) : String :=
  String.join (ps.map fun p => if q p then p.text else "")

@[simp] theorem collect_nil : collect q [] = "" := rfl

theorem collect_cons (p : Piece α β) (ps : List (Piece α β)) :
    collect q (p :: ps) = (if q p then p.text else "") ++ collect q ps := by
  simp [collect]

theorem collect_append (ps qs : List (Piece α β)) : collect q (ps ++ qs) = collect q ps ++ collect q qs := by
  simp [collect]

theorem collect_ne_empty_iff : collect q ps ≠ "" ↔ ∃ p ∈ ps, q p ∧ p.text ≠ "" := by
  induction ps with
  | nil => simp
  | cons p ps ih =>
    rw [collect_cons, ne_eq, String.append_eq_empty_iff, not_and_or, ← ne_eq, ← ne_eq, ih]
    by_cases hp : q p <;> simp

theorem length_collect_le (h : ∀ p ∈ ps, p.text ≠ "" → q p → r p) :
    (collect q ps).length ≤ (collect r ps).length := by
  induction ps with
  | nil => simp
  | cons p ps ih =>
    have ih := ih fun p hp => h p (mem_cons_of_mem _ hp)
    have hp := h p mem_cons_self
    rw [collect_cons, collect_cons]
    by_cases htext : p.text = ""
    · simpa [htext] using ih
    by_cases hq : q p
    · simpa [hq, hp htext hq] using ih
    · simpa [hq] using ih.trans (Nat.le_add_left _ _)

theorem collect_congr (h : ∀ p ∈ ps, p.text ≠ "" → (q p ↔ r p)) : collect q ps = collect r ps := by
  unfold collect
  congr 1
  apply map_congr_left
  intro p hp
  by_cases htext : p.text = ""
  · simp [htext]
  · simp [h p hp htext]

/-- Where the pieces with one property have the other and the lengths are the
same, the converse holds for the pieces with text. -/
theorem of_length_collect_eq (h : ∀ p ∈ ps, p.text ≠ "" → q p → r p)
    (hlen : (collect q ps).length = (collect r ps).length) : ∀ p ∈ ps, p.text ≠ "" → r p → q p := by
  induction ps with
  | nil => simp
  | cons p ps ih =>
    have htail : ∀ p ∈ ps, p.text ≠ "" → q p → r p := fun p hp => h p (mem_cons_of_mem _ hp)
    have hle := length_collect_le htail
    have hp := h p mem_cons_self
    rw [collect_cons, collect_cons, String.length_append, String.length_append] at hlen
    -- a piece that only the right side has leaves the left side too short
    have hhead : p.text ≠ "" → r p → q p := by
      intro htext hr
      by_contra hq
      have hpos : p.text.length ≠ 0 := by simpa using htext
      rw [if_neg hq, if_pos hr, String.length_empty] at hlen
      omega
    have hsame : (if q p then p.text else "").length = (if r p then p.text else "").length := by
      by_cases htext : p.text = ""
      · simp [htext]
      · simp only [show q p ↔ r p from ⟨hp htext, hhead htext⟩]
    rw [forall_mem_cons]
    exact ⟨hhead, ih htail (by omega)⟩

theorem collect_eq_iff (h : ∀ p ∈ ps, p.text ≠ "" → q p → r p) :
    collect q ps = collect r ps ↔ ∀ p ∈ ps, p.text ≠ "" → r p → q p := by
  constructor
  · intro heq
    exact of_length_collect_eq h (congrArg String.length heq)
  · intro h'
    exact collect_congr fun p hp htext => ⟨h p hp htext, h' p hp htext⟩

theorem sum_length_collect {γ : Type*} [DecidableEq γ] (key : Piece α β → Option γ) (C : Finset γ)
    (ps : List (Piece α β)) : ∑ c ∈ C, (collect (fun p => key p = some c) ps).length
      = (collect (fun p => ∃ c ∈ C, key p = some c) ps).length := by
  induction ps with
  | nil => simp
  | cons p ps ih =>
    simp only [collect_cons, String.length_append, Finset.sum_add_distrib]
    congr 1
    rcases key p with - | c
    · simp
    by_cases hc : c ∈ C
    · rw [Finset.sum_eq_single_of_mem c hc fun c' _ hne => by simp [hne.symm]]
      simp [hc]
    have hzero : ∀ c' ∈ C, (if some c = some c' then p.text else "").length = 0 := by
      intro c' hc'
      have hne : c ≠ c' := fun h => hc (h ▸ hc')
      simp [hne]
    rw [Finset.sum_eq_zero hzero]
    simp [hc]

end Collect

variable [DecidableEq α] [DecidableEq β] {ps : List (Piece α β)}

/-- All that the source sent. -/
def sent (a : α) (ps : List (Piece α β)) : String := collect (·.src = a) ps

/-- All that the target received. -/
def received (b : β) (ps : List (Piece α β)) : String := collect (·.dst = some b) ps

/-- Every source that sent something has a target of its own that received just that. -/
def Delivered (ps : List (Piece α β)) : Prop :=
  ∃ target : α → β, Set.InjOn target {a | sent a ps ≠ ""} ∧
    ∀ a, sent a ps ≠ "" → received (target a) ps = sent a ps

/-- No piece with text is lost, and two of them go to one target just when they
come from one source. -/
def OneToOne (ps : List (Piece α β)) : Prop :=
  (∀ p ∈ ps, p.text ≠ "" → p.dst ≠ none) ∧
    ∀ p ∈ ps, ∀ p' ∈ ps, p.text ≠ "" → p'.text ≠ "" → (p.src = p'.src ↔ p.dst = p'.dst)

instance : Decidable (OneToOne ps) := inferInstanceAs (Decidable (_ ∧ _))

/-- No target mixes sources. -/
def Unmixed (ps : List (Piece α β)) : Prop :=
  ∀ p ∈ ps, ∀ p' ∈ ps, p.text ≠ "" → p'.text ≠ "" → p.dst ≠ none → p.dst = p'.dst → p.src = p'.src

theorem OneToOne.delivered [Inhabited β] (h : OneToOne ps) : Delivered ps := by
  classical
  -- the target of some piece with text
  have hpiece : ∀ a, sent a ps ≠ "" → ∃ p ∈ ps, p.src = a ∧ p.text ≠ "" := fun a ha =>
    collect_ne_empty_iff.mp ha
  have htarget : ∀ a, ∃ b, sent a ps ≠ "" → ∃ p ∈ ps, p.src = a ∧ p.text ≠ "" ∧ p.dst = some b := by
    intro a
    by_cases ha : sent a ps = ""
    · exact ⟨default, fun h => absurd ha h⟩
    obtain ⟨p, hp, hsrc, htext⟩ := hpiece a ha
    obtain ⟨b, hb⟩ := Option.ne_none_iff_exists'.mp (h.1 p hp htext)
    exact ⟨b, fun _ => ⟨p, hp, hsrc, htext, hb⟩⟩
  choose target htarget using htarget
  refine ⟨target, ?_, ?_⟩
  · intro a ha a' ha' heq
    obtain ⟨p, hp, rfl, htext, hdst⟩ := htarget a ha
    obtain ⟨p', hp', rfl, htext', hdst'⟩ := htarget a' ha'
    exact (h.2 p hp p' hp' htext htext').mpr (by rw [hdst, hdst', heq])
  · intro a ha
    obtain ⟨p, hp, rfl, htext, hdst⟩ := htarget a ha
    refine (collect_eq_iff ?_).mpr ?_
    · intro p' hp' htext' hdst'
      exact (h.2 p' hp' p hp htext' htext).mpr (hdst'.trans hdst.symm)
    · intro p' hp' htext' hsrc'
      exact ((h.2 p' hp' p hp htext' htext).mp hsrc').trans hdst

/-- The sources that sent something. -/
def sources (ps : List (Piece α β)) : Finset α := ((ps.filter (·.text ≠ "")).map (·.src)).toFinset

omit [DecidableEq β] in
theorem mem_sources {a : α} : a ∈ sources ps ↔ sent a ps ≠ "" := by
  rw [sent, collect_ne_empty_iff]
  simp only [sources, mem_toFinset, mem_map, mem_filter, decide_eq_true_eq]
  constructor
  · rintro ⟨p, ⟨hp, htext⟩, hsrc⟩
    exact ⟨p, hp, hsrc, htext⟩
  · rintro ⟨p, hp, hsrc, htext⟩
    exact ⟨p, ⟨hp, htext⟩, hsrc⟩

omit [DecidableEq β] in
theorem src_mem_sources {p : Piece α β} (hp : p ∈ ps) (htext : p.text ≠ "") : p.src ∈ sources ps :=
  mem_sources.mpr (collect_ne_empty_iff.mpr ⟨p, hp, rfl, htext⟩)

/-- All that was sent arrives at the targets: their lengths leave no room for
anything else. -/
theorem arrives (hinj : Set.InjOn target {a | sent a ps ≠ ""})
    (hrec : ∀ a, sent a ps ≠ "" → received (target a) ps = sent a ps) :
    ∀ p ∈ ps, p.text ≠ "" → ∃ b ∈ (sources ps).image target, p.dst = some b := by
  have hlen : (collect (fun p => ∃ b ∈ (sources ps).image target, p.dst = some b) ps).length
      = (collect (fun _ => True) ps).length := by
    calc (collect (fun p => ∃ b ∈ (sources ps).image target, p.dst = some b) ps).length
        = ∑ b ∈ (sources ps).image target, (received b ps).length := (sum_length_collect (·.dst) _ ps).symm
      _ = ∑ a ∈ sources ps, (received (target a) ps).length :=
          Finset.sum_image fun a ha a' ha' => hinj (mem_sources.mp ha) (mem_sources.mp ha')
      _ = ∑ a ∈ sources ps, (sent a ps).length :=
          Finset.sum_congr rfl fun a ha => by rw [hrec a (mem_sources.mp ha)]
      _ = ∑ a ∈ sources ps, (collect (fun p => some p.src = some a) ps).length := by
          simp only [sent, Option.some.injEq]
      _ = (collect (fun p => ∃ a ∈ sources ps, some p.src = some a) ps).length :=
          sum_length_collect (fun p => some p.src) (sources ps) ps
      _ = (collect (fun _ => True) ps).length := by
          congr 1
          apply collect_congr
          intro p hp htext
          exact iff_true_intro ⟨p.src, src_mem_sources hp htext, rfl⟩
  intro p hp htext
  exact of_length_collect_eq (fun _ _ _ _ => trivial) hlen p hp htext trivial

/-- Where no target mixes sources, no source has two targets: there are no more
targets than sources. -/
theorem dst_eq_of_src_eq (hinj : Set.InjOn target {a | sent a ps ≠ ""})
    (hrec : ∀ a, sent a ps ≠ "" → received (target a) ps = sent a ps) (hu : Unmixed ps) :
    ∀ p ∈ ps, ∀ p' ∈ ps, p.text ≠ "" → p'.text ≠ "" → p.src = p'.src → p.dst = p'.dst := by
  have harrives := arrives hinj hrec
  intro p hp p' hp' htext htext' hsame
  -- the source that a target serves
  have hpiece : ∀ b ∈ (sources ps).image target, ∃ p ∈ ps, p.dst = some b ∧ p.text ≠ "" := by
    intro b hb
    obtain ⟨a, ha, rfl⟩ := Finset.mem_image.mp hb
    refine collect_ne_empty_iff.mp (?_ : received (target a) ps ≠ "")
    rw [hrec a (mem_sources.mp ha)]
    exact mem_sources.mp ha
  have : Nonempty (Piece α β) := ⟨p⟩
  choose! piece hpiece using hpiece
  have hof : ∀ q ∈ ps, q.text ≠ "" → ∀ b ∈ (sources ps).image target, q.dst = some b →
      (piece b).src = q.src := by
    intro q hq hqtext b hb hqb
    obtain ⟨hmem, hdst, htext⟩ := hpiece b hb
    exact hu _ hmem q hq htext hqtext (by rw [hdst]; exact Option.some_ne_none b) (hdst.trans hqb.symm)
  have hmaps : Set.MapsTo (fun b => (piece b).src) ((sources ps).image target : Set β) (sources ps) := by
    intro b hb
    obtain ⟨hmem, -, htext⟩ := hpiece b hb
    exact src_mem_sources hmem htext
  have hsurj : Set.SurjOn (fun b => (piece b).src) ((sources ps).image target) (sources ps) := by
    intro a ha
    obtain ⟨q, hq, rfl, hqtext⟩ := collect_ne_empty_iff.mp (mem_sources.mp ha)
    obtain ⟨b, hb, hqb⟩ := harrives q hq hqtext
    exact ⟨b, hb, hof q hq hqtext b hb hqb⟩
  have hinjOn := Finset.injOn_of_surjOn_of_card_le _ hmaps hsurj Finset.card_image_le
  obtain ⟨b, hb, hpb⟩ := harrives p hp htext
  obtain ⟨b', hb', hpb'⟩ := harrives p' hp' htext'
  have hbb' : b = b' := by
    apply hinjOn hb hb'
    show (piece b).src = (piece b').src
    rw [hof p hp htext b hb hpb, hof p' hp' htext' b' hb' hpb', hsame]
  rw [hpb, hpb', hbb']

/-- Where no target mixes sources, the converse holds. -/
theorem Delivered.oneToOne (h : Delivered ps) (hu : Unmixed ps) : OneToOne ps := by
  obtain ⟨target, hinj, hrec⟩ := h
  have hsome : ∀ p ∈ ps, p.text ≠ "" → p.dst ≠ none := by
    intro p hp htext
    obtain ⟨b, -, hb⟩ := arrives hinj hrec p hp htext
    rw [hb]
    exact Option.some_ne_none b
  refine ⟨hsome, fun p hp p' hp' htext htext' => ⟨?_, ?_⟩⟩
  · exact dst_eq_of_src_eq hinj hrec hu p hp p' hp' htext htext'
  · exact hu p hp p' hp' htext htext' (hsome p hp htext)

end Routing
