/-
# Lines of a growing text

The lines that a newline terminates and the bytes after the last newline, of a text that
continues a line already begun.  A text that grows keeps its lines, so splitting it piece by
piece, with the unterminated rest carried over, is splitting the whole.
-/

import CakeAutorate.Syscall.File

namespace CakeAutorate.Syscall

open List

def newline : UInt8 := 0x0a

/-- The lines that are terminated, the first of them begun with `line`. -/
def terminated : Bytes → Bytes → List Bytes
  | _, [] => []
  | line, b :: bytes =>
    if b = newline then line :: terminated [] bytes else terminated (line ++ [b]) bytes

/-- What follows the last newline, `line` included where there is none. -/
def unterminated : Bytes → Bytes → Bytes
  | line, [] => line
  | line, b :: bytes => if b = newline then unterminated [] bytes else unterminated (line ++ [b]) bytes

theorem terminated_append (line a b : Bytes) :
    terminated line (a ++ b) = terminated line a ++ terminated (unterminated line a) b := by
  induction a generalizing line with
  | nil => rfl
  | cons x a ih =>
    rw [cons_append, terminated, terminated, unterminated]
    split
    · rw [ih, cons_append]
    · rw [ih]

theorem unterminated_append (line a b : Bytes) :
    unterminated line (a ++ b) = unterminated (unterminated line a) b := by
  induction a generalizing line with
  | nil => rfl
  | cons x a ih =>
    rw [cons_append, unterminated, unterminated]
    split
    · rw [ih]
    · rw [ih]

theorem newline_notMem_unterminated {line : Bytes} (h : newline ∉ line) (bytes : Bytes) :
    newline ∉ unterminated line bytes := by
  induction bytes generalizing line with
  | nil => exact h
  | cons b bytes ih =>
    rw [unterminated]
    split
    · exact ih not_mem_nil
    · rename_i hb
      refine ih ?_
      rw [mem_append, mem_singleton, not_or]
      exact ⟨h, fun heq => hb heq.symm⟩

theorem split_of_notMem (line : Bytes) {bytes : Bytes} (h : newline ∉ bytes) :
    terminated line bytes = [] ∧ unterminated line bytes = line ++ bytes := by
  induction bytes generalizing line with
  | nil => exact ⟨rfl, (append_nil line).symm⟩
  | cons b bytes ih =>
    rw [mem_cons, not_or] at h
    have hb : ¬ b = newline := fun heq => h.1 heq.symm
    obtain ⟨hterminated, hrest⟩ := ih (line ++ [b]) h.2
    rw [terminated, if_neg hb, unterminated, if_neg hb]
    exact ⟨hterminated, by rw [hrest, append_assoc, singleton_append]⟩

theorem split_unterminated (bytes : Bytes) :
    terminated [] (unterminated [] bytes) = [] ∧
      unterminated [] (unterminated [] bytes) = unterminated [] bytes :=
  split_of_notMem [] (newline_notMem_unterminated not_mem_nil bytes)

/-- Every line and the rest are within a bound, and every line passes a test. -/
structure LinesFit (maximum : ℕ) (ok : Bytes → Bool) (line bytes : Bytes) : Prop where
  line_le : ∀ l ∈ terminated line bytes, l.length ≤ maximum
  line_ok : ∀ l ∈ terminated line bytes, ok l = true
  rest_le : (unterminated line bytes).length ≤ maximum

theorem LinesFit.begun_le {maximum : ℕ} {ok : Bytes → Bool} {line bytes : Bytes}
    (h : LinesFit maximum ok line bytes) : line.length ≤ maximum := by
  induction bytes generalizing line with
  | nil => exact h.rest_le
  | cons b bytes ih =>
    by_cases hb : b = newline
    · refine h.line_le line ?_
      rw [terminated, if_pos hb]
      exact mem_cons_self
    · have hle := @ih (line ++ [b]) ⟨by simpa [terminated, hb] using h.line_le,
        by simpa [terminated, hb] using h.line_ok, by simpa [unterminated, hb] using h.rest_le⟩
      rw [length_append] at hle
      omega

theorem LinesFit.of_append {maximum : ℕ} {ok : Bytes → Bool} {line a b : Bytes}
    (h : LinesFit maximum ok line (a ++ b)) : LinesFit maximum ok line a := by
  have hcontinued : LinesFit maximum ok (unterminated line a) b := by
    refine ⟨fun l hl => h.line_le l ?_, fun l hl => h.line_ok l ?_, ?_⟩
    · rw [terminated_append]; exact mem_append_right _ hl
    · rw [terminated_append]; exact mem_append_right _ hl
    · rw [← unterminated_append]; exact h.rest_le
  refine ⟨fun l hl => h.line_le l ?_, fun l hl => h.line_ok l ?_, hcontinued.begun_le⟩
  · rw [terminated_append]; exact mem_append_left _ hl
  · rw [terminated_append]; exact mem_append_left _ hl

end CakeAutorate.Syscall
