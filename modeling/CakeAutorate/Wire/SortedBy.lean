/-
# Sorting by a key

A list is sorted by a key, equal keys in the order in which they came.  What a sorted list says of the
list is its elements without their order: for every key that tells the elements apart, and for a
projection of the elements when an identity that the key respects tells them apart.
-/

import Mathlib.Data.List.Lex
import Mathlib.Data.List.Sort
import Mathlib.Data.Multiset.MapFold
import Mathlib.Data.Prod.Lex

namespace CakeAutorate.Wire

variable {α β κ ι : Type*} [LinearOrder κ] [LinearOrder ι]

/-- A stable sort by a key. -/
def sortBy (key : α → κ) (l : List α) : List α := l.insertionSort fun a b => key a ≤ key b

theorem sortBy_perm (key : α → κ) (l : List α) : (sortBy key l).Perm l :=
  List.perm_insertionSort _ l

theorem sortBy_pairwise (key : α → κ) (l : List α) :
    (sortBy key l).Pairwise fun a b => key a ≤ key b := by
  exact List.pairwise_insertionSort _ l

theorem eq_of_strict {ident : β → ι} {l l' : List β} (h : l.Pairwise fun a b => ident a < ident b)
    (h' : l'.Pairwise fun a b => ident a < ident b) (hperm : l.Perm l') : l = l' := by
  refine List.Perm.eq_of_pairwise (fun a b _ _ hab hba => ?_) h h' hperm
  exact absurd hab (lt_asymm hba)

variable {key : α → κ}

theorem sortBy_strict {ident : α → ι} {l : List α}
    (hmono : ∀ a b, key a ≤ key b → ident a ≤ ident b) (hnodup : (l.map ident).Nodup) :
    (sortBy key l).Pairwise fun a b => ident a < ident b := by
  have hdistinct : ((sortBy key l).map ident).Nodup :=
    (((sortBy_perm key l).map ident).nodup_iff).mpr hnodup
  rw [List.Nodup, List.pairwise_map] at hdistinct
  refine ((sortBy_pairwise key l).and hdistinct).imp fun {a b} hab => ?_
  exact lt_of_le_of_ne (hmono a b hab.1) hab.2

/-- **A projection of a sorted list is the projected elements without their order.** -/
theorem sortBy_map_eq_iff {ident : α → ι} {n : α → β} {ident' : β → ι} {l l' : List α}
    (hmono : ∀ a b, key a ≤ key b → ident a ≤ ident b) (hident : ∀ a, ident' (n a) = ident a)
    (hl : (l.map ident).Nodup) (hl' : (l'.map ident).Nodup) :
    (sortBy key l).map n = (sortBy key l').map n ↔
      ((l.map n : List β) : Multiset β) = (l'.map n : List β) := by
  have hperm : ∀ m : List α, ((sortBy key m).map n).Perm (m.map n) :=
    fun m => (sortBy_perm key m).map n
  have hstrict : ∀ m : List α, (m.map ident).Nodup →
      ((sortBy key m).map n).Pairwise fun a b => ident' a < ident' b := by
    intro m hm
    rw [List.pairwise_map]
    refine (sortBy_strict hmono hm).imp fun {a b} hab => ?_
    rw [hident, hident]
    exact hab
  rw [Multiset.coe_eq_coe]
  constructor
  · intro heq
    have hmid : ((sortBy key l).map n).Perm ((sortBy key l').map n) := by rw [heq]
    exact ((hperm l).symm.trans hmid).trans (hperm l')
  · intro heq
    exact eq_of_strict (hstrict l hl) (hstrict l' hl') (((hperm l).trans heq).trans (hperm l').symm)

/-- **A list sorted by a key that tells its elements apart is its elements without their order.** -/
theorem sortBy_eq_iff (hkey : Function.Injective key) {l l' : List α} :
    sortBy key l = sortBy key l' ↔ (l : Multiset α) = l' := by
  rw [Multiset.coe_eq_coe]
  constructor
  · intro heq
    have hmid : (sortBy key l).Perm (sortBy key l') := by rw [heq]
    exact ((sortBy_perm key l).symm.trans hmid).trans (sortBy_perm key l')
  · intro heq
    refine List.Perm.eq_of_pairwise (fun a b _ _ hab hba => hkey (le_antisymm hab hba))
      (sortBy_pairwise key l) (sortBy_pairwise key l') ?_
    exact ((sortBy_perm key l).trans heq).trans (sortBy_perm key l').symm

theorem lex_le_of {x x' : ι} {r r' : κ} {μ : Type*} [LinearOrder μ] {q q' : μ}
    (hle : toLex (x, r) ≤ toLex (x', r')) (hrest : r ≤ r' → q ≤ q') :
    toLex (x, q) ≤ toLex (x', q') := by
  rw [Prod.Lex.toLex_le_toLex] at hle ⊢
  rcases hle with hlt | ⟨heq, hle⟩
  · exact Or.inl hlt
  · exact Or.inr ⟨heq, hrest hle⟩

end CakeAutorate.Wire
