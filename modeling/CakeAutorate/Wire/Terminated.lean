/-
# Terminated words

A file of records is the records one after the other, each with a terminator behind it that
occurs in none of them.  Cut the file anywhere and leave out what comes before the first
terminator: what is left is again a file, of the last of the records.
-/

import Mathlib.Data.List.Basic
import Mathlib.Data.List.Infix

namespace CakeAutorate.Wire

open List

variable {α : Type*} {stop : α} {words : List (List α)}

/-- Words that each end with `stop`. -/
def terminated (stop : α) (words : List (List α)) : List α := words.flatMap fun w => w ++ [stop]

@[simp] theorem terminated_nil : terminated stop [] = [] := rfl

@[simp] theorem terminated_cons (word : List α) :
    terminated stop (word :: words) = word ++ stop :: terminated stop words := by
  rw [terminated, flatMap_cons, append_assoc]
  rfl

@[simp] theorem terminated_append (first second : List (List α)) :
    terminated stop (first ++ second) = terminated stop first ++ terminated stop second :=
  flatMap_append

theorem terminated_concat (word : List α) :
    terminated stop (words ++ [word]) = terminated stop words ++ (word ++ [stop]) := by
  rw [terminated_append, terminated_cons, terminated_nil]

variable [DecidableEq α]

/-- What follows the first `stop`. -/
def afterFirst (stop : α) : List α → List α
  | [] => []
  | a :: rest => if a = stop then rest else afterFirst stop rest

theorem length_afterFirst_le (l : List α) : (afterFirst stop l).length ≤ l.length := by
  induction l with
  | nil => exact le_rfl
  | cons a rest ih =>
    rw [afterFirst, length_cons]
    split
    · exact Nat.le_succ _
    · exact ih.trans (Nat.le_succ _)

theorem afterFirst_eq_nil {l : List α} (h : stop ∉ l) : afterFirst stop l = [] := by
  induction l with
  | nil => rfl
  | cons a rest ih =>
    have ha : a ≠ stop := fun heq => h (heq ▸ mem_cons_self)
    rw [afterFirst, if_neg ha]
    exact ih fun hmem => h (mem_cons_of_mem a hmem)

theorem afterFirst_word {word : List α} (h : stop ∉ word) (rest : List α) :
    afterFirst stop (word ++ stop :: rest) = rest := by
  induction word with
  | nil =>
    rw [nil_append, afterFirst, if_pos rfl]
  | cons a word ih =>
    have ha : a ≠ stop := fun heq => h (heq ▸ mem_cons_self)
    rw [cons_append, afterFirst, if_neg ha]
    exact ih fun hmem => h (mem_cons_of_mem a hmem)

/-- **A file that is cut anywhere** has the last of its words whole. -/
theorem afterFirst_drop (h : ∀ w ∈ words, stop ∉ w) (n : ℕ) :
    ∃ kept, kept <:+ words ∧
      afterFirst stop ((terminated stop words).drop n) = terminated stop kept := by
  induction words generalizing n with
  | nil =>
    refine ⟨[], suffix_refl _, ?_⟩
    rw [terminated_nil, drop_nil]
    rfl
  | cons word words ih =>
    have hword : stop ∉ word := h word mem_cons_self
    have hwords : ∀ w ∈ words, stop ∉ w := fun w hw => h w (mem_cons_of_mem word hw)
    rw [terminated_cons]
    by_cases hn : n ≤ word.length
    · -- the cut falls on this word or on its terminator
      refine ⟨words, suffix_cons word words, ?_⟩
      rw [drop_append_of_le_length hn]
      exact afterFirst_word (fun hmem => hword (mem_of_mem_drop hmem)) _
    · obtain ⟨kept, hkept, heq⟩ := ih hwords (n - word.length - 1)
      refine ⟨kept, hkept.trans (suffix_cons word words), ?_⟩
      have hdrop : (word ++ stop :: terminated stop words).drop n =
          (terminated stop words).drop (n - word.length - 1) := by
        obtain ⟨k, hk⟩ : ∃ k, n - word.length = k + 1 := ⟨n - word.length - 1, by omega⟩
        rw [drop_append, drop_of_length_le (by omega), nil_append, hk,
          drop_succ_cons, Nat.add_sub_cancel]
      rw [hdrop]
      exact heq

end CakeAutorate.Wire
