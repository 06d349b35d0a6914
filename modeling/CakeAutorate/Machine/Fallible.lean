/-
# Steps that may fail

A chain of steps that may fail comes to its end exactly if each step does.
-/

import Mathlib.Algebra.Group.Nat.Defs
import Mathlib.Data.List.Basic

namespace CakeAutorate

theorem bind_ok {ε α β : Type} {x : Except ε α} {k : α → Except ε β} {b : β} :
    (x >>= k) = .ok b ↔ ∃ a, x = .ok a ∧ k a = .ok b := by
  cases x <;> simp [bind, Except.bind]

theorem map_ok {ε α β : Type} {x : Except ε α} {f : α → β} {b : β} :
    x.map f = .ok b ↔ ∃ a, x = .ok a ∧ f a = b := by
  cases x <;> simp [Except.map]

theorem ok_of_toOption {ε α : Type} {x : Except ε α} {a : α} (h : x.toOption = some a) :
    x = .ok a := by
  cases x with
  | error e => cases h
  | ok b => exact congrArg _ (Option.some.inj h)

theorem exists_of_any {ε α : Type} {x : Except ε α} {p : α → Bool}
    (h : x.toOption.any p = true) : ∃ a, x = .ok a ∧ p a = true := by
  cases x with
  | error => cases h
  | ok a => exact ⟨a, rfl, h⟩

theorem exists_of_map {ε α β : Type} {x : Except ε α} {f : α → β} {b : β}
    (h : x.toOption.map f = some b) : ∃ a, x = .ok a ∧ f a = b := by
  obtain ⟨a, ha, hb⟩ := Option.map_eq_some_iff.mp h
  exact ⟨a, ok_of_toOption ha, hb⟩

section

variable {ε : Type} {error : ε} {ok : Bool} {u : Unit}

/-- Go on only if `ok`. -/
def check (ok : Bool) (error : ε) : Except ε Unit := if ok then .ok () else .error error

@[simp] theorem check_true : check true error = .ok () := rfl
@[simp] theorem check_false : check false error = .error error := rfl

theorem check_ok : check ok error = .ok u ↔ ok = true := by
  cases ok <;> simp

end

/-- A `u64` is a number below this one. -/
def u64Bound : ℕ := 2 ^ 64

/-- `u64::checked_add`, with the error that is made of `None`. -/
def checkedAdd (a b : ℕ) (error : String) : Except String ℕ :=
  if a + b < u64Bound then .ok (a + b) else .error error

theorem checkedAdd_eq_ok {a b n : ℕ} {error : String} :
    checkedAdd a b error = .ok n ↔ a + b < u64Bound ∧ n = a + b := by
  unfold checkedAdd
  split
  next h => simp [h, eq_comm]
  next h => simp [h]

end CakeAutorate
