/-
# Programs among other writers

What may be assumed between two calls is what the others cannot break: a `Stable` assertion.  The
rules here carry stable assertions through a program.

`play` runs a program with given moves of the others and is an execution; it turns a concrete
interleaving into a computation.
-/

import CakeAutorate.Syscall.Program

namespace CakeAutorate.Syscall

open Program

variable {σ δ C : Type} {R : C → Type} {ε α β : Type}

/-- Nobody else breaks `A`. -/
def System.Stable (S : System σ C R) (A : σ → Prop) : Prop := ∀ s s', S.env s s' → A s → A s'

theorem System.Stable.env {S : System σ C R} {A : σ → Prop} (hA : S.Stable A) {s s' : σ}
    (he : S.Env s s') (hs : A s) : A s' := by
  induction he with
  | refl => exact hs
  | tail _ hm ih => exact hA _ _ hm ih

section Rules

variable {S : System σ C R} {A B : σ → Prop} {Q : Except ε α → σ → Prop} {I : σ → Prop}

theorem System.Stable.and (hA : S.Stable A) (hB : S.Stable B) : S.Stable fun s => A s ∧ B s :=
  fun s s' he hs => ⟨hA s s' he hs.1, hB s s' he hs.2⟩

theorem wp_ret_stable (hA : S.Stable A) (hI : ∀ s, A s → I s) {r : Except ε α}
    (hQ : ∀ s, A s → Q r s) {s : σ} (hs : A s) : wp S Q I (.ret r) s := by
  intro s' he
  have hs' := hA.env he hs
  exact ⟨hI s' hs', hQ s' hs'⟩

theorem wp_call_stable (hA : S.Stable A) (hI : ∀ s, A s → I s) {c : C} {k : R c → Program C R ε α}
    (ht : ∀ s s', A s → S.torn c s s' → I s')
    (hk : ∀ s r s', A s → S.step c s r s' → wp S Q I (k r) s') {s : σ} (hs : A s) :
    wp S Q I (.call c k) s := by
  intro s' he
  have hs' := hA.env he hs
  exact ⟨hI s' hs', fun s'' => ht s' s'' hs', fun r s'' => hk s' r s'' hs'⟩

/-- A program all of whose calls keep `A` keeps `A`. -/
theorem Program.Only.wp_inv {P : C → Prop} (hA : S.Stable A) (hI : ∀ s, A s → I s)
    (ht : ∀ c s s', P c → A s → S.torn c s s' → I s')
    (hstep : ∀ c s r s', P c → A s → S.step c s r s' → A s') {p : Program C R ε α}
    (hp : p.Only P) {s : σ} (hs : A s) : wp S (fun _ s' => A s') I p s := by
  induction p generalizing s with
  | ret r => exact wp_ret_stable hA hI (fun _ hs => hs) hs
  | call c k ih =>
    exact wp_call_stable hA hI (fun s s' => ht c s s' hp.1)
      (fun s r s' hs' hr => ih r (hp.2 r) (hstep c s r s' hp.1 hs' hr)) hs

end Rules

/-- How reading calls behave in `S`: they answer as `exec` does on the part
`disk` of the state, and change nothing. -/
structure System.Reads (S : System σ C R) (disk : σ → δ) (exec : (c : C) → δ → R c × δ)
    (P : C → Prop) : Prop where
  step : ∀ c s r s', P c → S.step c s r s' → s' = s ∧ r = (exec c (disk s)).1
  torn : ∀ c s s', P c → ¬S.torn c s s'

section Reads

variable {S : System σ C R} {disk : σ → δ} {exec : (c : C) → δ → R c × δ} {torn : C → δ → δ → Prop}
  {P : C → Prop} {A : σ → Prop} {I : σ → Prop}

theorem Program.Only.wp_keep (hS : S.Reads disk exec P) (hA : S.Stable A) (hI : ∀ s, A s → I s)
    {p : Program C R ε α} (hp : p.Only P) {s : σ} (hs : A s) :
    wp S (fun _ s' => A s') I p s := by
  refine hp.wp_inv hA hI (fun c s s' hc _ ht => absurd ht (hS.torn c s s' hc)) ?_ hs
  intro c s r s' hc hs' hstep
  rw [(hS.step c s r s' hc hstep).1]
  exact hs'

/-- **Reading while nobody moves.**  Let `V` say that two disks look alike to
the calls `P`.  A reader that would answer `r` alone answers `r`, or else
somebody moved and `B` holds from then on. -/
theorem Program.Only.wp_answer {B : σ → Prop} {V : δ → δ → Prop} (hS : S.Reads disk exec P)
    (hA : S.Stable A) (hB : S.Stable B) (hI : ∀ s, A s → I s)
    (hsame : ∀ c d d', P c → V d d' → (exec c d').1 = (exec c d).1)
    {d : δ} (hmove : ∀ s s', S.env s s' → V d (disk s) → V d (disk s') ∨ B s')
    {r : Except ε α} {p : Program C R ε α} (hp : p.Only P) (hr : Syscall.Reads exec torn r p d)
    {s : σ} (hs : A s) (hd : V d (disk s)) :
    wp S (fun r' s' => A s' ∧ (B s' ∨ V d (disk s') ∧ r' = r)) I p s := by
  have hmoves : ∀ {s s'}, S.Env s s' → V d (disk s) ∨ B s → V d (disk s') ∨ B s' := by
    intro s s' he hs
    induction he with
    | refl => exact hs
    | tail _ hm ih =>
      rcases ih with h | h
      · exact hmove _ _ hm h
      · exact .inr (hB _ _ hm h)
  -- once somebody moved, the rest only has to keep `A` and `B`
  have hafter : ∀ (p : Program C R ε α), p.Only P → ∀ s, A s → B s →
      wp S (fun r' s' => A s' ∧ (B s' ∨ V d (disk s') ∧ r' = r)) I p s := by
    intro p hp s hs hb
    have := hp.wp_keep (s := s) hS (hA.and hB) (fun s h => hI s h.1) ⟨hs, hb⟩
    exact wp_post (fun _ s' h => ⟨h.1, .inl h.2⟩) this
  induction p generalizing s with
  | ret r' =>
    obtain rfl : r' = r := hr
    intro s' he
    have hs' := hA.env he hs
    refine ⟨hI s' hs', hs', ?_⟩
    rcases hmoves he (.inl hd) with h | h
    · exact .inr ⟨h, rfl⟩
    · exact .inl h
  | call c k ih =>
    intro s' he
    have hs' := hA.env he hs
    refine ⟨hI s' hs', fun s'' ht => absurd ht (hS.torn c s' s'' hp.1), fun r' s'' hstep => ?_⟩
    obtain ⟨rfl, rfl⟩ := hS.step c s' r' s'' hp.1 hstep
    rcases hmoves he (.inl hd) with h | h
    · rw [hsame c d (disk s'') hp.1 h]
      exact ih _ (hp.2 _) hr.2.2 hs' h
    · exact hafter _ (hp.2 _) s'' hs' h

end Reads

/-- Run a program; before each call the others make the moves that `moves` says. -/
def play (exec : (c : C) → σ → R c × σ) (moves : C → σ → σ) : Program C R ε α → σ → Except ε α × σ
  | .ret r, s => (r, s)
  | .call c k, s => play exec moves (k (exec c (moves c s)).1) (exec c (moves c s)).2

/-- Every call of that run is made where `ok` holds. -/
def allowed (ok : C → σ → Bool) (exec : (c : C) → σ → R c × σ) (moves : C → σ → σ) :
    Program C R ε α → σ → Bool
  | .ret _, _ => true
  | .call c k, s => ok c (moves c s) &&
      allowed ok exec moves (k (exec c (moves c s)).1) (exec c (moves c s)).2

theorem exec_play {S : System σ C R} {exec : (c : C) → σ → R c × σ} {moves : C → σ → σ}
    (ok : C → σ → Bool) (hstep : ∀ c s, ok c s = true → S.step c s (exec c s).1 (exec c s).2)
    (hmoves : ∀ c s, S.Env s (moves c s)) (p : Program C R ε α) (s : σ)
    (hok : allowed ok exec moves p s = true) :
    Exec S p s (.returned (play exec moves p s).1 (play exec moves p s).2) := by
  have hEnv : ∀ {s s' : σ} {p : Program C R ε α} {o : Outcome σ ε α}, S.Env s s' → Exec S p s' o →
      Exec S p s o := by
    intro s s' p o he ho
    induction he using Relation.ReflTransGen.head_induction_on with
    | refl => exact ho
    | head hm _ ih => exact .env hm ih
  induction p generalizing s with
  | ret r => exact .ret r s
  | call c k ih =>
    simp only [allowed, Bool.and_eq_true] at hok
    exact hEnv (hmoves c s) (.call (hstep c (moves c s) hok.1) (ih _ _ hok.2))

theorem allowed_true (exec : (c : C) → σ → R c × σ) (moves : C → σ → σ) (p : Program C R ε α)
    (s : σ) : allowed (fun _ _ => true) exec moves p s = true := by
  induction p generalizing s with
  | ret r => rfl
  | call c k ih => simp [allowed, ih]

end CakeAutorate.Syscall
