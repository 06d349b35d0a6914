/-
# Programs under a schedule of faults

A schedule says, call by call, what becomes of a program: the call is made, it
fails, or the process dies before it.  What is left of the schedule is returned
with the outcome, so that the schedule of a sequence is that of its parts.
-/

import CakeAutorate.Syscall.Program
import Mathlib.Data.List.GetD

namespace CakeAutorate.Syscall

/-- What becomes of a call; `φ` are the ways in which one can fail. -/
inductive Move (φ : Type) : Type where
  | go
  | fail (how : φ)
  | die
  deriving DecidableEq

/-- What calls do, made or failed. -/
structure Host (σ C : Type) (R : C → Type) (φ : Type) where
  exec : (c : C) → σ → R c × σ
  failing : (c : C) → φ → σ → R c × σ

variable {σ C : Type} {R : C → Type} {φ ε α β : Type} (host : Host σ C R φ)

def Program.runMoves : Program C R ε α → List (Move φ) → σ → Outcome σ ε α × List (Move φ)
  | .ret r, moves, s => (.returned r s, moves)
  | .call c k, [], s => runMoves (k (host.exec c s).1) [] (host.exec c s).2
  | .call c k, .go :: moves, s => runMoves (k (host.exec c s).1) moves (host.exec c s).2
  | .call c k, .fail how :: moves, s =>
    runMoves (k (host.failing c how s).1) moves (host.failing c how s).2
  | .call _ _, .die :: moves, s => (.crashed s, moves)

def moveAt (moves : List (Move φ)) (i : ℕ) : Move φ := moves.getD i .go

theorem moveAt_drop (moves : List (Move φ)) (n i : ℕ) :
    moveAt (moves.drop n) i = moveAt moves (n + i) := by
  simp [moveAt, List.getD_eq_getElem?_getD, List.getElem?_drop]

namespace Program

variable {host}

@[simp] theorem runMoves_ret (r : Except ε α) (moves : List (Move φ)) (s : σ) :
    runMoves host (.ret r : Program C R ε α) moves s = (.returned r s, moves) := by
  cases moves <;> rfl

variable {c : C} {k : R c → Program C R ε α} {moves : List (Move φ)}

theorem runMoves_go {s : σ} (h : moveAt moves 0 = .go) :
    runMoves host (.call c k) moves s
      = runMoves host (k (host.exec c s).1) (moves.drop 1) (host.exec c s).2 := by
  cases moves with
  | nil => rfl
  | cons m moves =>
    obtain rfl : m = .go := h
    rfl

theorem runMoves_fail {s : σ} {how : φ} (h : moveAt moves 0 = .fail how) :
    runMoves host (.call c k) moves s
      = runMoves host (k (host.failing c how s).1) (moves.drop 1) (host.failing c how s).2 := by
  cases moves with
  | nil => cases h
  | cons m moves =>
    obtain rfl : m = .fail how := h
    rfl

theorem runMoves_die {s : σ} (h : moveAt moves 0 = .die) :
    runMoves host (.call c k) moves s = (.crashed s, moves.drop 1) := by
  cases moves with
  | nil => cases h
  | cons m moves =>
    obtain rfl : m = .die := h
    rfl

/-- **Sequencing**: the second part has what the first left of the schedule. -/
theorem runMoves_bind (p : Program C R ε α) (f : α → Program C R ε β) (moves : List (Move φ))
    (s : σ) : runMoves host (p >>= f) moves s = match runMoves host p moves s with
      | (.returned (.ok a) s', rest) => runMoves host (f a) rest s'
      | (.returned (.error e) s', rest) => (.returned (.error e) s', rest)
      | (.crashed s', rest) => (.crashed s', rest) := by
  induction p generalizing moves s with
  | ret r => cases r <;> simp
  | call c k ih =>
    cases moves with
    | nil => exact ih _ _ _
    | cons m moves =>
      cases m with
      | go => exact ih _ _ _
      | fail how => exact ih _ _ _
      | die => rfl

theorem runMoves_attempt (p : Program C R ε α) (moves : List (Move φ)) (s : σ) :
    runMoves host p.attempt moves s = match runMoves host p moves s with
      | (.returned r s', rest) => (.returned (.ok r) s', rest)
      | (.crashed s', rest) => (.crashed s', rest) := by
  induction p generalizing moves s with
  | ret r => simp [attempt]
  | call c k ih =>
    cases moves with
    | nil => exact ih _ _ _
    | cons m moves =>
      cases m with
      | go => exact ih _ _ _
      | fail how => exact ih _ _ _
      | die => rfl

end Program

end CakeAutorate.Syscall
