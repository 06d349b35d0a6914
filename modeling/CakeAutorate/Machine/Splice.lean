/-
# Splicing a list

A list is edited by cuts: each names a stretch of it, which may be empty, and what stands in its
place. Cuts that stand apart and are taken in order leave the rest of the list as it was: the
outcome is woven of the stretches that are kept and of what is fresh.
-/

import Mathlib.Data.List.Sort

namespace CakeAutorate.Machine

open List

variable {α τ υ : Type*}

/-- A stretch of a list, and what stands in its place. -/
structure Cut (τ : Type*) where
  start : ℕ
  stop : ℕ
  text : τ

def Cut.map (f : τ → υ) (c : Cut τ) : Cut υ := ⟨c.start, c.stop, f c.text⟩

/-- What a spliced list is made of. -/
inductive Piece (τ : Type*)
  | kept (start stop : ℕ)
  | fresh (cut : Cut τ)

def Piece.content (text : τ → List α) (original : List α) : Piece τ → List α
  | .kept start stop => (original.drop start).take (stop - start)
  | .fresh c => text c.text

def weave (length : ℕ) : ℕ → List (Cut τ) → List (Piece τ)
  | position, [] => [.kept position length]
  | position, c :: rest => .kept position c.start :: .fresh c :: weave length c.stop rest

def Follows (length : ℕ) : ℕ → List (Cut τ) → Prop
  | position, [] => position ≤ length
  | position, c :: rest => position ≤ c.start ∧ c.start ≤ c.stop ∧ Follows length c.stop rest

def Cut.Apart (c d : Cut τ) : Prop := c.stop ≤ d.start ∨ d.stop ≤ c.start

def Cut.le (c d : Cut τ) : Bool :=
  decide (c.start < d.start) || (c.start == d.start && decide (c.stop ≤ d.stop))

theorem Cut.le_iff {c d : Cut τ} :
    c.le d = true ↔ c.start < d.start ∨ c.start = d.start ∧ c.stop ≤ d.stop := by
  simp [Cut.le]

theorem Cut.Apart.symm {c d : Cut τ} (h : c.Apart d) : d.Apart c := Or.symm h

variable {position : ℕ} {cuts : List (Cut τ)} {length : ℕ}

theorem Follows.le (h : Follows length position cuts) : position ≤ length := by
  induction cuts generalizing position with
  | nil => exact h
  | cons c rest ih =>
    have hle := ih h.2.2
    have hstart := h.1
    have hstop := h.2.1
    omega

theorem follows_map {f : τ → υ} (h : Follows length position cuts) :
    Follows length position (cuts.map (Cut.map f)) := by
  induction cuts generalizing position with
  | nil => exact h
  | cons c rest ih => exact ⟨h.1, h.2.1, ih h.2.2⟩

theorem follows_of_sorted (hposition : position ≤ length)
    (hwithin : ∀ c ∈ cuts, position ≤ c.start ∧ c.start ≤ c.stop ∧ c.stop ≤ length)
    (hsorted : cuts.Pairwise fun c d => c.le d = true) (hapart : cuts.Pairwise Cut.Apart) :
    Follows length position cuts := by
  induction cuts generalizing position with
  | nil => exact hposition
  | cons c rest ih =>
    obtain ⟨hstart, hstop, hend⟩ := hwithin c mem_cons_self
    rw [pairwise_cons] at hsorted hapart
    refine ⟨hstart, hstop, ih hend (fun d hd => ?_) hsorted.2 hapart.2⟩
    have hle := Cut.le_iff.mp (hsorted.1 d hd)
    obtain ⟨hdstart, hdstop, hdend⟩ := hwithin d (mem_cons_of_mem _ hd)
    have hapart := hapart.1 d hd
    unfold Cut.Apart at hapart
    exact ⟨by omega, hdstop, hdend⟩

/-- **Cuts that stand apart follow one another once they are sorted.** -/
theorem follows_mergeSort (hwithin : ∀ c ∈ cuts, c.start ≤ c.stop ∧ c.stop ≤ length)
    (hapart : cuts.Pairwise Cut.Apart) : Follows length 0 (cuts.mergeSort Cut.le) := by
  have hperm := mergeSort_perm cuts Cut.le
  refine follows_of_sorted (Nat.zero_le _) (fun c hc => ?_) ?_ ?_
  · exact ⟨Nat.zero_le _, hwithin c (hperm.mem_iff.mp hc)⟩
  · refine pairwise_mergeSort (fun a b c hab hbc => ?_) (fun a b => ?_) cuts
    · rw [Cut.le_iff] at hab hbc ⊢
      omega
    · rw [Bool.or_eq_true, Cut.le_iff, Cut.le_iff]
      omega
  · exact (hperm.pairwise_iff Cut.Apart.symm).mpr hapart

theorem weave_ordered (h : Follows length position cuts) :
    (∀ start stop, .kept start stop ∈ weave length position cuts →
      position ≤ start ∧ start ≤ stop ∧ stop ≤ length) ∧
    (weave length position cuts).Pairwise fun p q =>
      ∀ start stop start' stop', p = .kept start stop → q = .kept start' stop' → stop ≤ start' := by
  induction cuts generalizing position with
  | nil =>
    refine ⟨fun start stop hmem => ?_, pairwise_singleton _ _⟩
    obtain ⟨rfl, rfl⟩ := Piece.kept.inj (mem_singleton.mp hmem)
    exact ⟨le_rfl, h, le_rfl⟩
  | cons c rest ih =>
    obtain ⟨hstart, hstop, hrest⟩ := h
    obtain ⟨hwithin, hordered⟩ := ih hrest
    have hend := hrest.le
    refine ⟨fun start stop hmem => ?_, ?_⟩
    · simp only [weave, mem_cons, Piece.kept.injEq, reduceCtorEq, false_or] at hmem
      rcases hmem with ⟨rfl, rfl⟩ | hmem
      · exact ⟨le_rfl, hstart, by omega⟩
      · have hle := hwithin start stop hmem
        omega
    · rw [weave, pairwise_cons, pairwise_cons]
      refine ⟨fun q hq start stop start' stop' hp hq' => ?_,
        fun _ _ _ _ _ _ hp => absurd hp (by simp), hordered⟩
      obtain ⟨rfl, rfl⟩ := Piece.kept.inj hp
      rw [hq', mem_cons] at hq
      rcases hq with hq | hq
      · cases hq
      · have hle := (hwithin start' stop' hq).1
        omega

/-- **A stretch that no cut meets is kept in one piece**, and what is fresh before it comes of cuts
that end before it. -/
theorem weave_keeps {length u v : ℕ} (h : Follows length position cuts) (hu : position ≤ u)
    (hv : v ≤ length) (hclear : ∀ c ∈ cuts, v ≤ c.start ∨ c.stop ≤ u) :
    ∃ front start stop back, weave length position cuts = front ++ .kept start stop :: back ∧
      start ≤ u ∧ v ≤ stop ∧ ∀ c, .fresh c ∈ front → c ∈ cuts ∧ c.stop ≤ u := by
  induction cuts generalizing position with
  | nil => exact ⟨[], position, length, [], rfl, hu, hv, fun c hc => absurd hc not_mem_nil⟩
  | cons c rest ih =>
    obtain ⟨hstart, hstop, hrest⟩ := h
    rcases hclear c mem_cons_self with hbefore | hafter
    · exact ⟨[], position, c.start, _, rfl, hu, hbefore, fun d hd => absurd hd not_mem_nil⟩
    · obtain ⟨front, start, stop, back, hweave, hlo, hhi, hfresh⟩ :=
        ih hrest hafter fun d hd => hclear d (mem_cons_of_mem _ hd)
      refine ⟨.kept position c.start :: .fresh c :: front, start, stop, back, ?_, hlo, hhi,
        fun d hd => ?_⟩
      · rw [weave, hweave, cons_append, cons_append]
      · simp only [mem_cons, reduceCtorEq, Piece.fresh.injEq, false_or] at hd
        rcases hd with rfl | hd
        · exact ⟨mem_cons_self, hafter⟩
        · exact ⟨mem_cons_of_mem _ (hfresh d hd).1, (hfresh d hd).2⟩

theorem fresh_mem_weave {c : Cut τ} : .fresh c ∈ weave length position cuts ↔ c ∈ cuts := by
  induction cuts generalizing position with
  | nil => simp only [weave, mem_singleton, reduceCtorEq, not_mem_nil]
  | cons d rest ih =>
    simp only [weave, mem_cons, reduceCtorEq, Piece.fresh.injEq, false_or, ih]

theorem flatMap_weave_map (f : υ → τ) (text : τ → List α) (original : List α) (length position : ℕ)
    (cuts : List (Cut υ)) :
    (weave length position (cuts.map (Cut.map f))).flatMap (Piece.content text original) =
      (weave length position cuts).flatMap (Piece.content (text ∘ f) original) := by
  induction cuts generalizing position with
  | nil => rfl
  | cons c rest ih =>
    simp only [map_cons, weave, flatMap_cons, Cut.map, ih]
    rfl

end CakeAutorate.Machine
