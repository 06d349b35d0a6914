/-
# Programs that make system calls

A program is the tree of the calls it makes: a call, then a program for each reply.  Nothing is
assumed about the calls.  What they do is said by a `System`: a step relation, the states that a
crash inside a call may leave, and what other parties may do between two calls.

`Exec` is the meaning of a program: it returns, or the machine stops before, inside or after one of
its calls.  `wp` is what has to hold before a program so that every return satisfies a postcondition
and every state on the way, torn ones included, a crash condition.
-/

import Mathlib.Logic.Relation
import Mathlib.Logic.Function.Basic

namespace CakeAutorate.Syscall

/-- A program over calls `C` with replies `R c`: it has returned, or it makes a
call and goes on with the reply. -/
inductive Program (C : Type) (R : C → Type) (ε α : Type) : Type where
  | ret (r : Except ε α)
  | call (c : C) (k : R c → Program C R ε α)

namespace Program

variable {C : Type} {R : C → Type} {ε α β : Type}

/-- Sequencing: an error ends the program, as `?` does. -/
def bind : Program C R ε α → (α → Program C R ε β) → Program C R ε β
  | .ret (.ok a), f => f a
  | .ret (.error e), _ => .ret (.error e)
  | .call c k, f => .call c fun r => bind (k r) f

instance : Monad (Program C R ε) where
  pure a := .ret (.ok a)
  bind

def orElse (h : ε → Program C R ε α) : Program C R ε α → Program C R ε α
  | .ret (.ok a) => .ret (.ok a)
  | .ret (.error e) => h e
  | .call c k => .call c fun r => orElse h (k r)

instance : MonadExcept ε (Program C R ε) where
  throw e := .ret (.error e)
  tryCatch p h := orElse h p

def perform (c : C) : Program C R ε (R c) := .call c fun r => .ret (.ok r)

/-- Run a program for its result, error or not: `match f() { Ok(..) .. Err(..) .. }`. -/
def attempt : Program C R ε α → Program C R ε (Except ε α)
  | .ret r => .ret (.ok r)
  | .call c k => .call c fun r => attempt (k r)

def lift (r : Except ε α) : Program C R ε α := .ret r

@[simp] theorem pure_eq (a : α) : (pure a : Program C R ε α) = .ret (.ok a) := rfl

@[simp] theorem throw_eq (e : ε) : (throw e : Program C R ε α) = .ret (.error e) := rfl

@[simp] theorem ret_ok_bind (a : α) (f : α → Program C R ε β) : (.ret (.ok a) >>= f) = f a := rfl

@[simp] theorem ret_error_bind (e : ε) (f : α → Program C R ε β) :
    (.ret (.error e) >>= f) = .ret (.error e) := rfl

@[simp] theorem call_bind (c : C) (k : R c → Program C R ε α) (f : α → Program C R ε β) :
    (.call c k >>= f) = .call c fun r => k r >>= f := rfl

@[simp] theorem perform_bind (c : C) (f : R c → Program C R ε β) :
    (perform c >>= f) = .call c f := rfl

theorem bind_bind {γ : Type} (p : Program C R ε α) (f : α → Program C R ε β)
    (g : β → Program C R ε γ) : ((p >>= f) >>= g) = (p >>= fun a => f a >>= g) := by
  induction p with
  | ret r => cases r <;> rfl
  | call c k ih =>
    simp only [call_bind]
    congr 1
    funext r
    exact ih r

theorem bind_ret (p : Program C R ε α) : (p >>= fun a => .ret (.ok a)) = p := by
  induction p with
  | ret r => cases r <;> rfl
  | call c k ih =>
    simp only [call_bind]
    congr 1
    funext r
    exact ih r

/-- Every call of the program satisfies `P`. -/
def Only (P : C → Prop) : Program C R ε α → Prop
  | .ret _ => True
  | .call c k => P c ∧ ∀ r, Only P (k r)

variable {P : C → Prop} {p : Program C R ε α}

theorem Only.bind {f : α → Program C R ε β} (hp : p.Only P) (hf : ∀ a, (f a).Only P) :
    (p >>= f).Only P := by
  induction p with
  | ret r =>
    cases r with
    | ok a => exact hf a
    | error e => trivial
  | call c k ih => exact ⟨hp.1, fun r => ih r (hp.2 r)⟩

theorem Only.attempt (hp : p.Only P) : p.attempt.Only P := by
  induction p with
  | ret r => trivial
  | call c k ih => exact ⟨hp.1, fun r => ih r (hp.2 r)⟩

theorem Only.mono {P' : C → Prop} (hp : p.Only P) (hPP : ∀ c, P c → P' c) : p.Only P' := by
  induction p with
  | ret r => trivial
  | call c k ih => exact ⟨hPP _ hp.1, fun r => ih r (hp.2 r)⟩

theorem only_perform {c : C} (hc : P c) : (perform c : Program C R ε (R c)).Only P :=
  ⟨hc, fun _ => trivial⟩

end Program

/-- What calls do: `step c s r s'` is a completed call, `torn c s s'` a crash
inside it, `env s s'` a move of somebody else. -/
structure System (σ C : Type) (R : C → Type) where
  step : (c : C) → σ → R c → σ → Prop
  torn : C → σ → σ → Prop
  env : σ → σ → Prop

/-- How a program can end. -/
inductive Outcome (σ ε α : Type) : Type where
  | returned (r : Except ε α) (s : σ)
  | crashed (s : σ)

def Outcome.state {σ ε α : Type} : Outcome σ ε α → σ
  | .returned _ s => s
  | .crashed s => s

/-- A return satisfies `Q`, and `I` holds wherever the program ended. -/
def Outcome.Meets {σ ε α : Type} (Q : Except ε α → σ → Prop) (I : σ → Prop) : Outcome σ ε α → Prop
  | .returned r s => I s ∧ Q r s
  | .crashed s => I s

variable {σ C : Type} {R : C → Type} {ε α β : Type}

/-- The executions of a program from a state, with the moves of others in
between and a crash at any point. -/
inductive Exec (S : System σ C R) : Program C R ε α → σ → Outcome σ ε α → Prop where
  | ret (r : Except ε α) (s : σ) : Exec S (.ret r) s (.returned r s)
  | crash (p : Program C R ε α) (s : σ) : Exec S p s (.crashed s)
  | env {p : Program C R ε α} {s s' : σ} {o : Outcome σ ε α} :
      S.env s s' → Exec S p s' o → Exec S p s o
  | torn {c : C} {k : R c → Program C R ε α} {s s' : σ} :
      S.torn c s s' → Exec S (.call c k) s (.crashed s')
  | call {c : C} {k : R c → Program C R ε α} {s s' : σ} {r : R c} {o : Outcome σ ε α} :
      S.step c s r s' → Exec S (k r) s' o → Exec S (.call c k) s o

theorem Exec.bind {S : System σ C R} {p : Program C R ε α} {f : α → Program C R ε β} {s s' : σ}
    {a : α} {o : Outcome σ ε β} (hp : Exec S p s (.returned (.ok a) s')) (hf : Exec S (f a) s' o) :
    Exec S (p >>= f) s o := by
  generalize hreturned : Outcome.returned (Except.ok a) s' = first at hp
  induction hp with
  | ret r s =>
    obtain ⟨rfl, rfl⟩ := Outcome.returned.inj hreturned
    exact hf
  | crash p s => cases hreturned
  | env hm _ ih => exact .env hm (ih hreturned)
  | torn ht => cases hreturned
  | call hs _ ih => exact .call hs (ih hreturned)

namespace System

/-- The same system, restricted to calls made where `ok` holds: its runs are
the runs of `S` whose calls all meet `ok`. -/
def restrict (S : System σ C R) (ok : C → σ → Prop) : System σ C R where
  step c s r s' := ok c s ∧ S.step c s r s'
  torn := S.torn
  env := S.env

def Env (S : System σ C R) : σ → σ → Prop := Relation.ReflTransGen S.env

def Quiet (S : System σ C R) : Prop := ∀ s s', ¬S.env s s'

theorem Quiet.env_eq {S : System σ C R} (h : S.Quiet) {s s' : σ} (hs : S.Env s s') : s' = s := by
  induction hs with
  | refl => rfl
  | tail _ hm => exact absurd hm (h _ _)

end System

/-- What has to hold before a program so that every return satisfies `Q` and
every state on the way satisfies `I`. -/
def wp (S : System σ C R) (Q : Except ε α → σ → Prop) (I : σ → Prop) : Program C R ε α → σ → Prop
  | .ret r, s => ∀ s', S.Env s s' → I s' ∧ Q r s'
  | .call c k, s => ∀ s', S.Env s s' → I s' ∧ (∀ s'', S.torn c s' s'' → I s'') ∧
      ∀ r s'', S.step c s' r s'' → wp S Q I (k r) s''

section Rules

variable {S : System σ C R} {Q Q' : Except ε α → σ → Prop} {I I' : σ → Prop} {p : Program C R ε α}
  {s : σ}

theorem wp_env {s' : σ} (h : wp S Q I p s) (he : S.Env s s') : wp S Q I p s' := by
  cases p with
  | ret r => exact fun s'' h'' => h s'' (he.trans h'')
  | call c k => exact fun s'' h'' => h s'' (he.trans h'')

theorem wp_now (h : wp S Q I p s) : I s := by
  cases p with
  | ret r => exact (h s .refl).1
  | call c k => exact (h s .refl).1

/-- **Soundness.**  What `wp` promises holds of every execution. -/
theorem wp_sound (h : wp S Q I p s) {o : Outcome σ ε α} (he : Exec S p s o) : o.Meets Q I := by
  induction he with
  | ret r s => exact h s .refl
  | crash p s => exact (wp_now h : I s)
  | env hm _ ih => exact ih (wp_env h (.single hm))
  | torn ht => exact (h _ .refl).2.1 _ ht
  | call hs _ ih => exact ih ((h _ .refl).2.2 _ _ hs)

theorem wp_mono (hQ : ∀ r s, Q r s → Q' r s) (hI : ∀ s, I s → I' s) (h : wp S Q I p s) :
    wp S Q' I' p s := by
  induction p generalizing s with
  | ret r => exact fun s' he => ⟨hI _ (h s' he).1, hQ _ _ (h s' he).2⟩
  | call c k ih =>
    intro s' he
    obtain ⟨h₁, h₂, h₃⟩ := h s' he
    exact ⟨hI _ h₁, fun s'' ht => hI _ (h₂ s'' ht), fun r s'' hs => ih r (h₃ r s'' hs)⟩

theorem wp_post (hQ : ∀ r s, Q r s → Q' r s) (h : wp S Q I p s) : wp S Q' I p s :=
  wp_mono hQ (fun _ => id) h

theorem wp_bind {Q : Except ε β → σ → Prop} {f : α → Program C R ε β}
    (h : wp S (fun r s => match r with
      | .ok a => wp S Q I (f a) s
      | .error e => Q (.error e) s) I p s) : wp S Q I (p >>= f) s := by
  induction p generalizing s with
  | ret r =>
    cases r with
    | ok a => exact (h s .refl).2
    | error e => exact h
  | call c k ih =>
    intro s' he
    obtain ⟨h₁, h₂, h₃⟩ := h s' he
    exact ⟨h₁, h₂, fun r s'' hs => ih r (h₃ r s'' hs)⟩

/-- The rule of `attempt`: the continuation sees the result as a value. -/
theorem wp_attempt {Q : Except ε (Except ε α) → σ → Prop} (h : wp S (fun r s => Q (.ok r) s) I p s) :
    wp S Q I p.attempt s := by
  induction p generalizing s with
  | ret r => exact h
  | call c k ih =>
    intro s' he
    obtain ⟨h₁, h₂, h₃⟩ := h s' he
    exact ⟨h₁, h₂, fun r s'' hs => ih r (h₃ r s'' hs)⟩

theorem wp_frame {J : σ → Prop} (hJenv : ∀ s s', S.env s s' → J s → J s')
    (hJstep : ∀ c s r s', S.step c s r s' → J s → J s') (hJ : J s) (h : wp S Q I p s) :
    wp S (fun r s => Q r s ∧ J s) I p s := by
  have hJE : ∀ {s s'}, S.Env s s' → J s → J s' := by
    intro s s' he hs
    induction he with
    | refl => exact hs
    | tail _ hm ih => exact hJenv _ _ hm ih
  induction p generalizing s with
  | ret r => exact fun s' he => ⟨(h s' he).1, (h s' he).2, hJE he hJ⟩
  | call c k ih =>
    intro s' he
    obtain ⟨h₁, h₂, h₃⟩ := h s' he
    exact ⟨h₁, h₂, fun r s'' hs => ih r (hJstep _ _ _ _ hs (hJE he hJ)) (h₃ r s'' hs)⟩

end Rules

/-- The system of a machine that nobody else uses: a call does what `exec` says. -/
def System.alone (exec : (c : C) → σ → R c × σ) (torn : C → σ → σ → Prop) : System σ C R where
  step c s r s' := exec c s = (r, s')
  torn
  env _ _ := False

section Alone

variable {exec : (c : C) → σ → R c × σ} {torn : C → σ → σ → Prop}
  {Q : Except ε α → σ → Prop} {I : σ → Prop}

theorem System.alone_quiet : (System.alone exec torn).Quiet := fun _ _ h => h

variable {r : Except ε α} {s : σ} {p : Program C R ε α} {f : α → Program C R ε β}

theorem wp_alone_ret (hI : I s) (hQ : Q r s) : wp (.alone exec torn) Q I (.ret r) s := by
  intro s' he
  obtain rfl := System.alone_quiet.env_eq he
  exact ⟨hI, hQ⟩

theorem wp_alone_call {c : C} {k : R c → Program C R ε α} (hI : I s) (ht : ∀ s', torn c s s' → I s')
    (hk : wp (.alone exec torn) Q I (k (exec c s).1) (exec c s).2) :
    wp (.alone exec torn) Q I (.call c k) s := by
  intro s' he
  obtain rfl := System.alone_quiet.env_eq he
  refine ⟨hI, ht, fun r s'' hs => ?_⟩
  rw [show exec c s' = (r, s'') from hs] at hk
  exact hk

/-- The program makes calls that change nothing and ends with `r`. -/
def Reads (exec : (c : C) → σ → R c × σ) (torn : C → σ → σ → Prop) (r : Except ε α) :
    Program C R ε α → σ → Prop
  | .ret r', _ => r' = r
  | .call c k, s => (exec c s).2 = s ∧ (∀ s', ¬torn c s s') ∧ Reads exec torn r (k (exec c s).1) s

theorem reads_ret (r : Except ε α) (s : σ) : Reads exec torn r (.ret r) s := rfl

theorem Reads.bind {a : α} {r : Except ε β} (hp : Reads exec torn (.ok a) p s)
    (hf : Reads exec torn r (f a) s) : Reads exec torn r (p >>= f) s := by
  induction p with
  | ret r' =>
    obtain rfl : r' = .ok a := hp
    exact hf
  | call c k ih => exact ⟨hp.1, hp.2.1, ih _ hp.2.2⟩

theorem Reads.bind_inv {b : β} (hr : Reads exec torn (.ok b) (p >>= f) s) :
    ∃ a, Reads exec torn (.ok a) p s ∧ Reads exec torn (.ok b) (f a) s := by
  induction p with
  | ret r =>
    cases r with
    | ok a => exact ⟨a, rfl, hr⟩
    | error e => cases hr
  | call c k ih =>
    obtain ⟨a, ha, hb⟩ := ih _ hr.2.2
    exact ⟨a, ⟨hr.1, hr.2.1, ha⟩, hb⟩

theorem Reads.bind_error {e : ε} (hp : Reads exec torn (.error e) p s) :
    Reads exec torn (.error e) (p >>= f) s := by
  induction p with
  | ret r' =>
    obtain rfl : r' = .error e := hp
    rfl
  | call c k ih => exact ⟨hp.1, hp.2.1, ih _ hp.2.2⟩

theorem Reads.attempt (hp : Reads exec torn r p s) : Reads exec torn (.ok r) p.attempt s := by
  induction p with
  | ret r' => exact congrArg _ hp
  | call c k ih => exact ⟨hp.1, hp.2.1, ih _ hp.2.2⟩

theorem Reads.wp (hp : Reads exec torn r p s) (hI : I s) (hQ : Q r s) :
    wp (.alone exec torn) Q I p s := by
  induction p with
  | ret r' =>
    obtain rfl : r' = r := hp
    exact wp_alone_ret hI hQ
  | call c k ih =>
    refine wp_alone_call hI (fun s' hs => absurd hs (hp.2.1 s')) ?_
    rw [hp.1]
    exact ih _ hp.2.2

theorem Reads.wp_bind {a : α} {Q : Except ε β → σ → Prop} (hp : Reads exec torn (.ok a) p s)
    (hf : Syscall.wp (.alone exec torn) Q I (f a) s) :
    Syscall.wp (.alone exec torn) Q I (p >>= f) s :=
  Syscall.wp_bind (hp.wp (wp_now hf) hf)

theorem Program.Only.reads {P : C → Prop} (hp : p.Only P)
    (hP : ∀ c, P c → (exec c s).2 = s ∧ ∀ s', ¬torn c s s') : ∃ r, Reads exec torn r p s := by
  induction p with
  | ret r => exact ⟨r, rfl⟩
  | call c k ih =>
    obtain ⟨r, hr⟩ := ih (exec c s).1 (hp.2 _)
    exact ⟨r, (hP c hp.1).1, (hP c hp.1).2, hr⟩

theorem Reads.runs (hp : Reads exec torn r p s) : Exec (.alone exec torn) p s (.returned r s) := by
  induction p with
  | ret r' =>
    obtain rfl : r' = r := hp
    exact .ret r' s
  | call c k ih =>
    have hstep : (System.alone exec torn).step c s (exec c s).1 s := Prod.ext rfl hp.1
    exact .call hstep (ih _ hp.2.2)

theorem exec_returns (p : Program C R ε α) (s : σ) :
    ∃ r s', Exec (.alone exec torn) p s (.returned r s') := by
  induction p generalizing s with
  | ret r => exact ⟨r, s, .ret r s⟩
  | call c k ih =>
    obtain ⟨r, s', hr⟩ := ih (exec c s).1 (exec c s).2
    exact ⟨r, s', .call rfl hr⟩

end Alone

end CakeAutorate.Syscall
