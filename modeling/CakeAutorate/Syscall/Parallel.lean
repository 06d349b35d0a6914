/-
# Programs of several parties

Parties run programs on one shared state, one call of one of them after the other.  A party takes up
requests: a request begins, its program makes its calls, and the request ends with what the program
returns.  A party may die at any point, also inside a call, and then takes up a new request like one
that is idle.

A contract says what each party may rely on and what it owes: an invariant of the state, what the
moves of the others keep for it, and a guard for each of its calls.  `Safe` is that a program keeps
its side.
-/

import CakeAutorate.Syscall.Interference

namespace CakeAutorate.Syscall

open Function

variable {P ρ σ C : Type} {R : C → Type} {ε α β : Type}

/-- What the parties do: their calls, a death inside one, a death between two; how a request
begins and ends; and what moves without a party. -/
structure Parties (P ρ σ C : Type) (R : C → Type) (ε α : Type) where
  body : P → ρ → Program C R ε α
  start : P → ρ → σ → σ → Prop
  finish : P → ρ → Except ε α → σ → σ → Prop
  step : P → (c : C) → σ → R c → σ → Prop
  torn : P → C → σ → σ → Prop
  die : P → σ → σ → Prop
  world : σ → σ → Prop

/-- The state, and what each party is at. -/
structure Pool (P ρ σ C : Type) (R : C → Type) (ε α : Type) where
  state : σ
  running : P → Option (ρ × Program C R ε α)

/-- The same parties, restricted to calls that are answered as `ok` allows. -/
def Parties.restrict (S : Parties P ρ σ C R ε α) (ok : (c : C) → σ → R c → Prop) :
    Parties P ρ σ C R ε α :=
  { S with step := fun p c s r s' => ok c s r ∧ S.step p c s r s' }

section Runs

variable [DecidableEq P] (S : Parties P ρ σ C R ε α)

/-- One move of a pool. -/
inductive Move₁ : Pool P ρ σ C R ε α → Pool P ρ σ C R ε α → Prop where
  | start {running : P → Option (ρ × Program C R ε α)} {s s' : σ} {p : P} {request : ρ} :
      running p = none → S.start p request s s' →
      Move₁ ⟨s, running⟩ ⟨s', update running p (some (request, S.body p request))⟩
  | call {running : P → Option (ρ × Program C R ε α)} {s s' : σ} {p : P} {request : ρ} {c : C}
      {k : R c → Program C R ε α} {r : R c} :
      running p = some (request, .call c k) → S.step p c s r s' →
      Move₁ ⟨s, running⟩ ⟨s', update running p (some (request, k r))⟩
  | torn {running : P → Option (ρ × Program C R ε α)} {s s' : σ} {p : P} {request : ρ} {c : C}
      {k : R c → Program C R ε α} :
      running p = some (request, .call c k) → S.torn p c s s' →
      Move₁ ⟨s, running⟩ ⟨s', update running p none⟩
  | finish {running : P → Option (ρ × Program C R ε α)} {s s' : σ} {p : P} {request : ρ}
      {r : Except ε α} :
      running p = some (request, .ret r) → S.finish p request r s s' →
      Move₁ ⟨s, running⟩ ⟨s', update running p none⟩
  | die {running : P → Option (ρ × Program C R ε α)} {s s' : σ} {p : P} :
      S.die p s s' → Move₁ ⟨s, running⟩ ⟨s', update running p none⟩
  | world {running : P → Option (ρ × Program C R ε α)} {s s' : σ} :
      S.world s s' → Move₁ ⟨s, running⟩ ⟨s', running⟩

def Reaches : Pool P ρ σ C R ε α → Pool P ρ σ C R ε α → Prop := Relation.ReflTransGen (Move₁ S)

theorem reaches_request {S : Parties P ρ σ C R ε α} {p : P} {request : ρ}
    {exec : (c : C) → σ → R c × σ}
    (hexec : ∀ c s, S.step p c s (exec c s).1 (exec c s).2) {s s₁ s₂ : σ}
    (hstart : S.start p request s s₁)
    (hfinish : S.finish p request (play exec (fun _ s => s) (S.body p request) s₁).1
      (play exec (fun _ s => s) (S.body p request) s₁).2 s₂) :
    Reaches S ⟨s, fun _ => none⟩ ⟨s₂, fun _ => none⟩ := by
  have hplay : ∀ (program : Program C R ε α) (s : σ) (running : P → Option (ρ × Program C R ε α)),
      running p = some (request, program) →
      Reaches S ⟨s, running⟩ ⟨(play exec (fun _ s => s) program s).2,
        update running p (some (request, .ret (play exec (fun _ s => s) program s).1))⟩ := by
    intro program
    induction program with
    | ret r =>
      intro s running hp
      have hsame : update running p (some (request, .ret r)) = running := by
        rw [← hp, update_eq_self]
      show Reaches S ⟨s, running⟩ ⟨s, update running p (some (request, .ret r))⟩
      rw [hsame]
      exact .refl
    | call c k ih =>
      intro s running hp
      refine .head (.call hp (hexec c s)) ?_
      have hrest := ih (exec c s).1 (exec c s).2
        (update running p (some (request, k (exec c s).1))) (update_self _ _ _)
      rw [update_idem] at hrest
      exact hrest
  refine .head (.start rfl hstart) ?_
  refine .trans (hplay _ _ _ (update_self _ _ _)) ?_
  rw [update_idem]
  have hidle : update (fun _ => none) p none =
      (fun _ => none : P → Option (ρ × Program C R ε α)) := update_eq_self p _
  have hmove := Move₁.finish (update_self p _ (fun _ => none)) hfinish
  rw [update_idem, hidle] at hmove
  exact .single hmove

theorem reaches_die {S : Parties P ρ σ C R ε α} {p : P} {s s' : σ} (hdie : S.die p s s') :
    Reaches S ⟨s, fun _ => none⟩ ⟨s', fun _ => none⟩ := by
  have hidle : update (fun _ => none) p none =
      (fun _ => none : P → Option (ρ × Program C R ε α)) := update_eq_self p _
  have hmove : Move₁ S ⟨s, fun _ => none⟩ ⟨s', update (fun _ => none) p none⟩ := .die hdie
  rw [hidle] at hmove
  exact .single hmove

end Runs

/-- What holds between the parties. -/
structure Contract (P ρ σ C : Type) (ε α : Type) where
  inv : σ → Prop
  rely : P → σ → σ → Prop
  guard : P → C → σ → Prop
  post : P → ρ → Except ε α → σ → Prop

/-- A program that keeps a contract: at each call its guard holds, and at the end `Q`. -/
def Safe (step : (c : C) → σ → R c → σ → Prop) (inv : σ → Prop) (rely : σ → σ → Prop)
    (guard : C → σ → Prop) (Q : Except ε α → σ → Prop) : Program C R ε α → σ → Prop
  | .ret r, s => ∀ s', rely s s' → inv s' → Q r s'
  | .call c k, s => ∀ s', rely s s' → inv s' → guard c s' ∧
      ∀ r s'', step c s' r s'' → inv s'' → Safe step inv rely guard Q (k r) s''

section Rules

variable {step : (c : C) → σ → R c → σ → Prop} {inv : σ → Prop} {rely : σ → σ → Prop}
  {guard : C → σ → Prop} {Q Q' : Except ε α → σ → Prop} {p : Program C R ε α}

theorem Safe.moved (htrans : ∀ s t u, rely s t → rely t u → rely s u) {s s' : σ}
    (h : Safe step inv rely guard Q p s) (hs : rely s s') : Safe step inv rely guard Q p s' := by
  cases p with
  | ret r => exact fun t ht hinv => h t (htrans _ _ _ hs ht) hinv
  | call c k => exact fun t ht hinv => h t (htrans _ _ _ hs ht) hinv

theorem Safe.mono (hQ : ∀ r s, inv s → Q r s → Q' r s) {s : σ} (h : Safe step inv rely guard Q p s) :
    Safe step inv rely guard Q' p s := by
  induction p generalizing s with
  | ret r => exact fun t ht hinv => hQ r t hinv (h t ht hinv)
  | call c k ih =>
    intro t ht hinv
    obtain ⟨hguard, hk⟩ := h t ht hinv
    exact ⟨hguard, fun r u hu hinv' => ih r (hk r u hu hinv')⟩

theorem Safe.bind {Q : Except ε β → σ → Prop} {f : α → Program C R ε β} {s : σ}
    (herror : ∀ e s, inv s → Q' (.error e) s → Q (.error e) s)
    (hf : ∀ a s, inv s → Q' (.ok a) s → Safe step inv rely guard Q (f a) s) (hrefl : ∀ s, rely s s)
    (h : Safe step inv rely guard Q' p s) : Safe step inv rely guard Q (p >>= f) s := by
  induction p generalizing s with
  | ret r =>
    cases r with
    | error e => exact fun t ht hinv => herror e t hinv (h t ht hinv)
    | ok a =>
      have hnext : ∀ t, rely s t → inv t → Safe step inv rely guard Q (f a) t :=
        fun t ht hinv => hf a t hinv (h t ht hinv)
      rw [Program.ret_ok_bind]
      cases hp : f a with
      | ret r =>
        intro t ht hinv
        have := hnext t ht hinv
        rw [hp] at this
        exact this t (hrefl t) hinv
      | call c k =>
        intro t ht hinv
        have := hnext t ht hinv
        rw [hp] at this
        exact this t (hrefl t) hinv
  | call c k ih =>
    intro t ht hinv
    obtain ⟨hguard, hk⟩ := h t ht hinv
    exact ⟨hguard, fun r u hu hinv' => ih r (hk r u hu hinv')⟩

/-- The rule of `attempt`: the rest sees the result as a value. -/
theorem Safe.attempt {Q : Except ε (Except ε α) → σ → Prop} {s : σ}
    (h : Safe step inv rely guard (fun r s => Q (.ok r) s) p s) :
    Safe step inv rely guard Q p.attempt s := by
  induction p generalizing s with
  | ret r => exact h
  | call c k ih =>
    intro t ht hinv
    obtain ⟨hguard, hk⟩ := h t ht hinv
    exact ⟨hguard, fun r u hu hinv' => ih r (hk r u hu hinv')⟩

end Rules

/-- Every move keeps a contract. -/
structure Contract.Kept (K : Contract P ρ σ C ε α) (S : Parties P ρ σ C R ε α) : Prop where
  trans : ∀ p s t u, K.rely p s t → K.rely p t u → K.rely p s u
  step : ∀ {p c s r s'}, K.inv s → K.guard p c s → S.step p c s r s' →
    K.inv s' ∧ ∀ q, q ≠ p → K.rely q s s'
  torn : ∀ {p c s s'}, K.inv s → K.guard p c s → S.torn p c s s' →
    K.inv s' ∧ ∀ q, q ≠ p → K.rely q s s'
  die : ∀ {p s s'}, K.inv s → S.die p s s' → K.inv s' ∧ ∀ q, q ≠ p → K.rely q s s'
  world : ∀ {s s'}, K.inv s → S.world s s' → K.inv s' ∧ ∀ q, K.rely q s s'
  start : ∀ {p request s s'}, K.inv s → S.start p request s s' →
    (K.inv s' ∧ ∀ q, q ≠ p → K.rely q s s') ∧
      Safe (S.step p) K.inv (K.rely p) (K.guard p) (K.post p request) (S.body p request) s'
  finish : ∀ {p request r s s'}, K.inv s → K.post p request r s → S.finish p request r s s' →
    K.inv s' ∧ ∀ q, q ≠ p → K.rely q s s'
  refl : ∀ {p s}, K.rely p s s

def Contract.Holds (K : Contract P ρ σ C ε α) (S : Parties P ρ σ C R ε α)
    (pool : Pool P ρ σ C R ε α) : Prop :=
  K.inv pool.state ∧ ∀ p request program, pool.running p = some (request, program) →
    Safe (S.step p) K.inv (K.rely p) (K.guard p) (K.post p request) program pool.state

section Soundness

variable [DecidableEq P] {S : Parties P ρ σ C R ε α} {K : Contract P ρ σ C ε α}

theorem Contract.Holds.update {running : P → Option (ρ × Program C R ε α)} {s s' : σ} {p : P}
    {next : Option (ρ × Program C R ε α)} (hK : K.Kept S) (h : K.Holds S ⟨s, running⟩)
    (hmove : K.inv s' ∧ ∀ q, q ≠ p → K.rely q s s')
    (hnext : ∀ request program, next = some (request, program) →
      Safe (S.step p) K.inv (K.rely p) (K.guard p) (K.post p request) program s') :
    K.Holds S ⟨s', update running p next⟩ := by
  refine ⟨hmove.1, ?_⟩
  intro q request program hq
  by_cases hqp : q = p
  · subst hqp
    have hat : Function.update running q next q = some (request, program) := hq
    rw [update_self] at hat
    exact hnext request program hat
  · have hat : Function.update running p next q = some (request, program) := hq
    rw [update_of_ne hqp] at hat
    exact (h.2 q request program hat).moved (hK.trans q) (hmove.2 q hqp)

variable {pool pool' : Pool P ρ σ C R ε α}

/-- **One move keeps a contract.** -/
theorem Contract.Kept.move (hK : K.Kept S) (hmove : Move₁ S pool pool') (h : K.Holds S pool) :
    K.Holds S pool' := by
  have hidle : ∀ request program, (none : Option (ρ × Program C R ε α)) = some (request, program) →
      ∀ p s, Safe (S.step p) K.inv (K.rely p) (K.guard p) (K.post p request) program s := by
    intro request program hnone
    cases hnone
  cases hmove with
  | start hp hstart =>
    obtain ⟨hkept, hsafe⟩ := hK.start h.1 hstart
    refine h.update hK hkept ?_
    intro request program heq
    obtain ⟨rfl, rfl⟩ := Prod.mk.inj (Option.some.inj heq)
    exact hsafe
  | call hp hstep =>
    obtain ⟨hguard, hk⟩ := h.2 _ _ _ hp _ hK.refl h.1
    have hkept := hK.step h.1 hguard hstep
    refine h.update hK hkept ?_
    intro request program heq
    obtain ⟨rfl, rfl⟩ := Prod.mk.inj (Option.some.inj heq)
    exact hk _ _ hstep hkept.1
  | torn hp htorn =>
    obtain ⟨hguard, -⟩ := h.2 _ _ _ hp _ hK.refl h.1
    exact h.update hK (hK.torn h.1 hguard htorn) fun request program heq =>
      hidle request program heq _ _
  | finish hp hfinish =>
    have hpost := h.2 _ _ _ hp _ hK.refl h.1
    exact h.update hK (hK.finish h.1 hpost hfinish) fun request program heq =>
      hidle request program heq _ _
  | die hdie =>
    exact h.update hK (hK.die h.1 hdie) fun request program heq => hidle request program heq _ _
  | world hworld =>
    obtain ⟨hinv, hrely⟩ := hK.world h.1 hworld
    refine ⟨hinv, fun q request program hq => ?_⟩
    exact (h.2 q request program hq).moved (hK.trans q) (hrely q)

/-- **Every pool that is reached keeps the contract.** -/
theorem Contract.Kept.reaches (hK : K.Kept S) (hreach : Reaches S pool pool') (h : K.Holds S pool) :
    K.Holds S pool' := by
  induction hreach with
  | refl => exact h
  | tail _ hmove ih => exact hK.move hmove ih

end Soundness

end CakeAutorate.Syscall
