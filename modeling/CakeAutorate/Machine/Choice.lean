/-
# Choosing from a list

The best element of a list under a comparison, and the elements that no other one beats.
-/

import Mathlib.Data.Set.Finite.Basic
import Mathlib.Data.List.Basic
import Mathlib.Order.WellFounded

namespace CakeAutorate.Machine

open List

variable {α : Type*}

def maxBy (cmp : α → α → Ordering) : List α → Option α
  | [] => none
  | a :: rest => some (rest.foldl (fun best x => if cmp best x = .gt then best else x) a)

def minBy (cmp : α → α → Ordering) : List α → Option α
  | [] => none
  | a :: rest => some (rest.foldl (fun best x => if cmp best x = .gt then x else best) a)

theorem foldl_choice_mem {f : α → α → α} (hf : ∀ a b, f a b = a ∨ f a b = b) (rest : List α)
    (a : α) : rest.foldl f a ∈ a :: rest := by
  induction rest generalizing a with
  | nil => exact mem_singleton.mpr rfl
  | cons b rest ih =>
    rw [foldl_cons]
    rcases mem_cons.mp (ih (f a b)) with hhead | htail
    · rcases hf a b with hab | hab
      · rw [hhead, hab]
        exact mem_cons_self
      · rw [hhead, hab]
        exact mem_cons_of_mem _ mem_cons_self
    · exact mem_cons_of_mem _ (mem_cons_of_mem _ htail)

variable {cmp : α → α → Ordering} {l : List α} {a : α}

theorem maxBy_mem (h : maxBy cmp l = some a) : a ∈ l := by
  cases l with
  | nil => cases h
  | cons b rest =>
    cases h
    refine foldl_choice_mem (fun x y => ?_) rest b
    split
    · exact Or.inl rfl
    · exact Or.inr rfl

theorem minBy_mem (h : minBy cmp l = some a) : a ∈ l := by
  cases l with
  | nil => cases h
  | cons b rest =>
    cases h
    refine foldl_choice_mem (fun x y => ?_) rest b
    split
    · exact Or.inr rfl
    · exact Or.inl rfl

theorem maxBy_of_mem (h : a ∈ l) : ∃ b, maxBy cmp l = some b := by
  cases l with
  | nil => cases h
  | cons b rest => exact ⟨_, rfl⟩

theorem minBy_of_mem (h : a ∈ l) : ∃ b, minBy cmp l = some b := by
  cases l with
  | nil => cases h
  | cons b rest => exact ⟨_, rfl⟩

variable {r : α → α → Prop}

theorem foldl_choice_best (refl : ∀ a, r a a) (trans : ∀ a b c, r a b → r b c → r a c)
    {f : α → α → α} (hf : ∀ a b, r a (f a b) ∧ r b (f a b)) (rest : List α) (a : α) :
    ∀ b ∈ a :: rest, r b (rest.foldl f a) := by
  induction rest generalizing a with
  | nil =>
    intro b hb
    rw [mem_singleton.mp hb]
    exact refl a
  | cons c rest ih =>
    intro b hb
    have hstep := ih (f a c) (f a c) mem_cons_self
    rcases mem_cons.mp hb with rfl | hb
    · exact trans _ _ _ (hf b c).1 hstep
    · rcases mem_cons.mp hb with rfl | hb
      · exact trans _ _ _ (hf a b).2 hstep
      · exact ih (f a c) b (mem_cons_of_mem _ hb)

/-- **The greatest element is above the others**, in any order that the comparison respects. -/
theorem maxBy_greatest (refl : ∀ a, r a a) (trans : ∀ a b c, r a b → r b c → r a c)
    (hgt : ∀ a b, cmp a b = .gt → r b a) (hle : ∀ a b, cmp a b ≠ .gt → r a b) {m : α}
    (h : maxBy cmp l = some m) : ∀ b ∈ l, r b m := by
  cases l with
  | nil => cases h
  | cons a rest =>
    cases h
    refine foldl_choice_best refl trans (fun x y => ?_) rest a
    split
    · next hxy => exact ⟨refl x, hgt x y hxy⟩
    · next hxy => exact ⟨hle x y hxy, refl y⟩

theorem minBy_least (refl : ∀ a, r a a) (trans : ∀ a b c, r a b → r b c → r a c)
    (hgt : ∀ a b, cmp a b = .gt → r b a) (hle : ∀ a b, cmp a b ≠ .gt → r a b) {m : α}
    (h : minBy cmp l = some m) : ∀ b ∈ l, r m b := by
  cases l with
  | nil => cases h
  | cons a rest =>
    cases h
    have hbest := foldl_choice_best (r := fun x y => r y x) refl
      (fun x y z hxy hyz => trans z y x hyz hxy)
      (f := fun best x => if cmp best x = .gt then x else best) (fun x y => ?_) rest a
    · exact hbest
    · split
      · next hxy => exact ⟨hgt x y hxy, refl y⟩
      · next hxy => exact ⟨refl x, hle x y hxy⟩

theorem le_of_thenGt {α : Type} [LinearOrder α] {a b : α} {o : Ordering}
    (h : (compare a b).then o = .gt) : b ≤ a := by
  rcases Ordering.then_eq_gt.mp h with h | ⟨h, -⟩
  · exact (compare_gt_iff_gt.mp h).le
  · exact (compare_eq_iff_eq.mp h).ge

theorem le_of_thenNotGt {α : Type} [LinearOrder α] {a b : α} {o : Ordering}
    (h : (compare a b).then o ≠ .gt) : a ≤ b := by
  by_contra hlt
  exact h (Ordering.then_eq_gt.mpr (.inl (compare_gt_iff_gt.mpr (not_le.mp hlt))))

theorem two_le_length {a b : α} (ha : a ∈ l) (hb : b ∈ l) (hne : a ≠ b) : 2 ≤ l.length := by
  cases l with
  | nil => cases ha
  | cons c rest =>
    cases rest with
    | nil =>
      rw [mem_singleton] at ha hb
      exact absurd (ha.trans hb.symm) hne
    | cons d rest => exact Nat.le_add_left 2 rest.length

/-- **An unbeaten element.**  Some element of a list is beaten by none, under a relation that is
transitive and never holds of an element and itself. -/
theorem exists_unbeaten (irrefl : ∀ a, ¬r a a) (trans : ∀ a b c, r a b → r b c → r a c) (h : a ∈ l) :
    ∃ m ∈ l, ∀ b ∈ l, ¬r b m := by
  let beats (x y : { x // x ∈ l }) : Prop := r x.1 y.1
  have : Finite { x // x ∈ l } := finite_toSet l
  have : IsTrans { x // x ∈ l } beats := ⟨fun x y z => trans x.1 y.1 z.1⟩
  have : Std.Irrefl beats := ⟨fun x => irrefl x.1⟩
  have hwf : WellFounded beats := Finite.wellFounded_of_trans_of_irrefl beats
  obtain ⟨m, -, hm⟩ := hwf.has_min Set.univ ⟨⟨a, h⟩, trivial⟩
  exact ⟨m.1, m.2, fun b hb hbm => hm ⟨b, hb⟩ trivial hbm⟩

end CakeAutorate.Machine
