/-
# Runs of a machine

A machine is a step function over a type of states and a type of events; a run folds the
step over a list of events.  An invariant of one step is an invariant of every run, also
where the step keeps it only for events that a condition allows in the state they meet.
-/

import Mathlib.Data.List.Basic

namespace CakeAutorate.Machine

variable {σ ε : Type*} (step : σ → ε → σ)

def run (s : σ) (events : List ε) : σ := events.foldl step s

@[simp] theorem run_nil (s : σ) : run step s [] = s := rfl

@[simp] theorem run_cons (s : σ) (e : ε) (events : List ε) :
    run step s (e :: events) = run step (step s e) events := rfl

@[simp] theorem run_append (s : σ) (first second : List ε) :
    run step s (first ++ second) = run step (run step s first) second := List.foldl_append

def Along (allowed : σ → ε → Prop) : σ → List ε → Prop
  | _, [] => True
  | s, e :: events => allowed s e ∧ Along allowed (step s e) events

/-- A condition that can be decided of an event can be decided of a run. -/
instance Along.decidable (allowed : σ → ε → Prop) [∀ s e, Decidable (allowed s e)] :
    ∀ s events, Decidable (Along step allowed s events)
  | _, [] => inferInstanceAs (Decidable True)
  | s, e :: events =>
    have := Along.decidable allowed (step s e) events
    inferInstanceAs (Decidable (allowed s e ∧ Along step allowed (step s e) events))

variable {step} {P : σ → Prop} {allowed : σ → ε → Prop} {s : σ}

theorem Along.last {events : List ε} {e : ε} (h : Along step allowed s (events ++ [e])) :
    allowed (run step s events) e := by
  induction events generalizing s with
  | nil => exact h.1
  | cons e' events ih => exact ih h.2

theorem Along.of_append {first second : List ε} (h : Along step allowed s (first ++ second)) :
    Along step allowed s first := by
  induction first generalizing s with
  | nil => exact trivial
  | cons e first ih => exact ⟨h.1, ih h.2⟩

/-- **Invariants along allowed events.** -/
theorem run_along (hstep : ∀ s e, P s → allowed s e → P (step s e)) {events : List ε} (hs : P s)
    (h : Along step allowed s events) : P (run step s events) := by
  induction events generalizing s with
  | nil => exact hs
  | cons e events ih =>
    obtain ⟨he, hrest⟩ := h
    exact ih (hstep s e hs he) hrest

/-- **Invariants.** -/
theorem run_invariant (hstep : ∀ s e, P s → P (step s e)) (hs : P s) (events : List ε) :
    P (run step s events) := by
  induction events generalizing s with
  | nil => exact hs
  | cons e events ih => exact ih (hstep s e hs)

end CakeAutorate.Machine
