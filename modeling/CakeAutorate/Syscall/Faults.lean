/-
# Programs on a machine that refuses calls

A machine that nobody else uses and on which a call may be refused: it does what `exec` says, or
whatever `refused` allows it to answer and to leave behind.

`play`, here without other parties, and `playFor`, which stops after some calls, turn a run and a
crash into computations.
-/

import CakeAutorate.Syscall.Program
import Mathlib.Data.Nat.Notation

namespace CakeAutorate.Syscall

variable {σ C : Type} {R : C → Type} {ε α β : Type}

def System.faulty (exec : (c : C) → σ → R c × σ) (refused : (c : C) → σ → R c → σ → Prop)
    (torn : C → σ → σ → Prop) : System σ C R where
  step c s r s' := exec c s = (r, s') ∨ refused c s r s'
  torn
  env _ _ := False

section Rules

variable {exec : (c : C) → σ → R c × σ} {refused : (c : C) → σ → R c → σ → Prop}
  {torn : C → σ → σ → Prop} {Q : Except ε α → σ → Prop} {I : σ → Prop}

theorem System.faulty_quiet : (System.faulty exec refused torn).Quiet := fun _ _ h => h

theorem wp_faulty_ret {r : Except ε α} {s : σ} (hI : I s) (hQ : Q r s) :
    wp (.faulty exec refused torn) Q I (.ret r) s := by
  intro s' he
  obtain rfl := System.faulty_quiet.env_eq he
  exact ⟨hI, hQ⟩

theorem wp_faulty_call {c : C} {k : R c → Program C R ε α} {s : σ} (hI : I s)
    (ht : ∀ s', torn c s s' → I s')
    (hk : wp (.faulty exec refused torn) Q I (k (exec c s).1) (exec c s).2)
    (hr : ∀ r s', refused c s r s' → wp (.faulty exec refused torn) Q I (k r) s') :
    wp (.faulty exec refused torn) Q I (.call c k) s := by
  intro s' he
  obtain rfl := System.faulty_quiet.env_eq he
  refine ⟨hI, ht, fun r s'' hstep => ?_⟩
  rcases hstep with hanswer | hrefused
  · rw [hanswer] at hk
    exact hk
  · exact hr r s'' hrefused

end Rules

/-- The run on which no call is refused. -/
def answered (exec : (c : C) → σ → R c × σ) : Program C R ε α → σ → Except ε α × σ
  | .ret r, s => (r, s)
  | .call c k, s => answered exec (k (exec c s).1) (exec c s).2

def answeredFor (exec : (c : C) → σ → R c × σ) : ℕ → Program C R ε α → σ → σ
  | 0, _, s => s
  | _ + 1, .ret _, s => s
  | n + 1, .call c k, s => answeredFor exec n (k (exec c s).1) (exec c s).2

variable {exec : (c : C) → σ → R c × σ} {refused : (c : C) → σ → R c → σ → Prop}
  {torn : C → σ → σ → Prop}

/-- A run with the answers of `chosen`, which may be refusals. -/
theorem exec_chosen {chosen : (c : C) → σ → R c × σ}
    (h : ∀ c s, exec c s = chosen c s ∨ refused c s (chosen c s).1 (chosen c s).2)
    (p : Program C R ε α) (s : σ) :
    Exec (.faulty exec refused torn) p s
      (.returned (answered chosen p s).1 (answered chosen p s).2) := by
  induction p generalizing s with
  | ret r => exact .ret r s
  | call c k ih => exact .call (h c s) (ih _ _)

theorem exec_answered (p : Program C R ε α) (s : σ) :
    Exec (.faulty exec refused torn) p s
      (.returned (answered exec p s).1 (answered exec p s).2) :=
  exec_chosen (fun _ _ => .inl rfl) p s

theorem exec_answeredFor (n : ℕ) (p : Program C R ε α) (s : σ) :
    Exec (.faulty exec refused torn) p s (.crashed (answeredFor exec n p s)) := by
  induction n generalizing p s with
  | zero => exact .crash p s
  | succ n ih =>
    cases p with
    | ret r => exact .crash _ s
    | call c k => exact .call (.inl rfl) (ih _ _)

end CakeAutorate.Syscall
