/-
# Packets against nftables rules

A ruleset is evaluated packet by packet.  The rules of a chain are taken in order and the expressions
of a rule from the left: a match that fails ends its rule, and so does a value that cannot be read (a
packet without a socket, without a conntrack entry, of another family).  `return` ends the chain with
the policy, which is to accept.  A named set has a size: an update that does not fit ends its rule.

The names of the sets and counters of a table are parameters.
-/

import Mathlib.Data.List.Basic

namespace CakeAutorate.Nft

open Function

/-- The network family of a packet or of a conntrack entry. -/
inductive Family where
  | ipv4
  | ipv6
  deriving DecidableEq

/-- The direction of a packet within its conntrack entry. -/
inductive Direction where
  | original
  | reply
  deriving DecidableEq

/-- The conntrack entry of a packet, with its original tuple, and the packet's direction in it. -/
structure Conntrack where
  zone : ℕ
  direction : Direction
  family : Family
  source : ℕ
  destination : ℕ
  protocol : ℕ
  sourcePort : ℕ
  destinationPort : ℕ

/-- The credentials of a socket. -/
structure Socket where
  uid : ℕ
  gid : ℕ

/-- A packet at a hook. -/
structure Packet where
  family : Family
  conntrack : Option Conntrack
  socket : Option Socket
  inputDevice : String
  outputDevice : String
  destination : ℕ
  protocol : ℕ
  mark : BitVec 32
  length : ℕ

/-- A value that a rule compares. -/
inductive Value where
  | number (n : ℕ)
  | family (f : Family)
  | direction (d : Direction)
  | device (name : String)
  deriving DecidableEq

/-- What a rule reads of a packet. -/
inductive Selector where
  | nfproto
  | skuid
  | skgid
  | oifname
  | iifname
  | l4proto
  | ctZone
  | ctDirection
  | ctProtocol
  | ctSource (f : Family)
  | ctDestination (f : Family)
  | ctSourcePort
  | ctDestinationPort
  | payloadDestination (f : Family)
  deriving DecidableEq

def Selector.read (p : Packet) : Selector → Option Value
  | .nfproto => some (.family p.family)
  | .skuid => p.socket.map fun s => .number s.uid
  | .skgid => p.socket.map fun s => .number s.gid
  | .oifname => some (.device p.outputDevice)
  | .iifname => some (.device p.inputDevice)
  | .l4proto => some (.number p.protocol)
  | .ctZone => p.conntrack.map fun c => .number c.zone
  | .ctDirection => p.conntrack.map fun c => .direction c.direction
  | .ctProtocol => p.conntrack.map fun c => .number c.protocol
  | .ctSource f => (p.conntrack.filter fun c => c.family == f).map fun c => .number c.source
  | .ctDestination f =>
    (p.conntrack.filter fun c => c.family == f).map fun c => .number c.destination
  | .ctSourcePort => p.conntrack.map fun c => .number c.sourcePort
  | .ctDestinationPort => p.conntrack.map fun c => .number c.destinationPort
  | .payloadDestination f => if p.family = f then some (.number p.destination) else none

def readKey (p : Packet) (key : List Selector) : Option (List Value) := key.mapM (Selector.read p)

/-- An expression of a rule, over the names of sets and counters. -/
inductive Expr (σ κ : Type) where
  | equals (left : Selector) (right : Value)
  | differs (left : Selector) (right : Value)
  | oneOf (left : Selector) (right : List Value)
  | member (key : List Selector) (set : σ)
  | counter (name : κ)
  | mangleMark (clearMask fwmark : BitVec 32)
  | update (set : σ) (key : List Selector)
  | delete (set : σ) (key : List Selector)
  | returns
  | drop
  deriving DecidableEq

/-- A counter. -/
structure Counter where
  packets : ℕ
  bytes : ℕ

/-- The sets and counters of a table. -/
@[ext] structure Table (σ κ : Type) where
  sets : σ → List (List Value)
  counters : κ → Counter

variable {σ κ : Type} [DecidableEq σ] [DecidableEq κ]

def Table.empty : Table σ κ := ⟨fun _ => [], fun _ => ⟨0, 0⟩⟩

def count (counters : κ → Counter) (name : κ) (length : ℕ) : κ → Counter :=
  update counters name ⟨(counters name).packets + 1, (counters name).bytes + length⟩

def Table.withSet (t : Table σ κ) (set : σ) (elements : List (List Value)) : Table σ κ :=
  { t with sets := update t.sets set elements }

/-- What evaluation has changed so far: the table and the packet's mark. -/
structure State (σ κ : Type) where
  table : Table σ κ
  mark : BitVec 32

/-- How an expression or a rule ends: with the next one, out of the rule, or out of the chain. -/
inductive Flow (σ κ : Type) where
  | next (s : State σ κ)
  | broke (s : State σ κ)
  | returned (s : State σ κ)
  | dropped (s : State σ κ)

def Expr.eval (size : σ → ℕ) (p : Packet) (s : State σ κ) : Expr σ κ → Flow σ κ
  | .equals left right => if left.read p = some right then .next s else .broke s
  | .differs left right =>
    match left.read p with
    | none => .broke s
    | some value => if value = right then .broke s else .next s
  | .oneOf left right =>
    match left.read p with
    | none => .broke s
    | some value => if value ∈ right then .next s else .broke s
  | .member key set =>
    match readKey p key with
    | none => .broke s
    | some value => if value ∈ s.table.sets set then .next s else .broke s
  | .counter name => .next { s with table.counters := count s.table.counters name p.length }
  | .mangleMark clearMask fwmark => .next { s with mark := (s.mark &&& clearMask) ||| fwmark }
  | .update set key =>
    match readKey p key with
    | none => .broke s
    | some value =>
      if value ∈ s.table.sets set then .next s
      else if (s.table.sets set).length < size set then
        .next { s with table := s.table.withSet set (value :: s.table.sets set) }
      else .broke s
  | .delete set key =>
    match readKey p key with
    | none => .broke s
    | some value =>
      .next { s with table := s.table.withSet set ((s.table.sets set).filter (· ≠ value)) }
  | .returns => .returned s
  | .drop => .dropped s

def evalRule (size : σ → ℕ) (p : Packet) (s : State σ κ) : List (Expr σ κ) → Flow σ κ
  | [] => .next s
  | e :: rest =>
    match e.eval size p s with
    | .next s => evalRule size p s rest
    | .broke s => .broke s
    | .returned s => .returned s
    | .dropped s => .dropped s

def evalChain (size : σ → ℕ) (p : Packet) (s : State σ κ) : List (List (Expr σ κ)) → State σ κ × Bool
  | [] => (s, true)
  | rule :: rest =>
    match evalRule size p s rule with
    | .next s => evalChain size p s rest
    | .broke s => evalChain size p s rest
    | .returned s => (s, true)
    | .dropped s => (s, false)

def Expr.holds (p : Packet) : Expr σ κ → Bool
  | .equals left right => decide (left.read p = some right)
  | .differs left right => (left.read p).any fun value => decide (value ≠ right)
  | .oneOf left right => (left.read p).any fun value => decide (value ∈ right)
  | _ => false

def Expr.isGuard : Expr σ κ → Bool
  | .equals _ _ | .differs _ _ | .oneOf _ _ => true
  | _ => false

variable {size : σ → ℕ} {p : Packet} {s s' : State σ κ} {e : Expr σ κ} {rule : List (Expr σ κ)}

theorem eval_guard (h : e.isGuard = true) :
    e.eval size p s = if e.holds p then .next s else .broke s := by
  cases e with
  | equals left right => simp [Expr.eval, Expr.holds]
  | differs left right =>
    rcases hread : left.read p with _ | value
    · simp [Expr.eval, Expr.holds, hread]
    · by_cases hv : value = right <;> simp [Expr.eval, Expr.holds, hread, hv]
  | oneOf left right =>
    rcases hread : left.read p with _ | value
    · simp [Expr.eval, Expr.holds, hread]
    · by_cases hv : value ∈ right <;> simp [Expr.eval, Expr.holds, hread, hv]
  | member | counter | mangleMark | update | delete | returns | drop => cases h

/-- **Guards before the rest of a rule**: all of them hold, or the rule ends unchanged. -/
theorem evalRule_guards {guards rest : List (Expr σ κ)} (h : guards.all Expr.isGuard = true) :
    evalRule size p s (guards ++ rest) =
      if guards.all (Expr.holds p) then evalRule size p s rest else .broke s := by
  induction guards with
  | nil => rfl
  | cons e guards ih =>
    rw [List.all_cons, Bool.and_eq_true] at h
    rw [List.cons_append, evalRule, eval_guard h.1]
    by_cases he : e.holds p = true
    · simp [he, ih h.2]
    · simp [he]

theorem evalRule_guard {rest : List (Expr σ κ)} (h : e.isGuard = true) :
    evalRule size p s (e :: rest) = if e.holds p then evalRule size p s rest else .broke s := by
  rw [evalRule, eval_guard h]
  by_cases he : e.holds p = true
  · simp [he]
  · simp [he]

theorem evalRule_member {key : List Selector} {set : σ} {rest : List (Expr σ κ)} :
    evalRule size p s (.member key set :: rest) =
      if ∃ value, readKey p key = some value ∧ value ∈ s.table.sets set then
        evalRule size p s rest
      else .broke s := by
  rw [evalRule, Expr.eval]
  cases readKey p key with
  | none => simp
  | some value => by_cases hv : value ∈ s.table.sets set <;> simp [hv]

variable {rest : List (List (Expr σ κ))}

theorem evalChain_of_next (h : evalRule size p s rule = .next s') :
    evalChain size p s (rule :: rest) = evalChain size p s' rest := by
  rw [evalChain, h]

theorem evalChain_of_broke (h : evalRule size p s rule = .broke s') :
    evalChain size p s (rule :: rest) = evalChain size p s' rest := by
  rw [evalChain, h]

theorem evalChain_of_returned (h : evalRule size p s rule = .returned s') :
    evalChain size p s (rule :: rest) = (s', true) := by
  rw [evalChain, h]

theorem evalChain_of_dropped (h : evalRule size p s rule = .dropped s') :
    evalChain size p s (rule :: rest) = (s', false) := by
  rw [evalChain, h]

def Flow.state : Flow σ κ → State σ κ
  | .next s | .broke s | .returned s | .dropped s => s

theorem evalRule_keeps {P : State σ κ → Prop} (h : ∀ e ∈ rule, ∀ s, P s → P (e.eval size p s).state)
    (hs : P s) : P (evalRule size p s rule).state := by
  induction rule generalizing s with
  | nil => exact hs
  | cons e rule ih =>
    have he := h e List.mem_cons_self s hs
    rw [evalRule]
    cases heval : e.eval size p s with
    | next s' =>
      rw [heval] at he
      exact ih (fun e he => h e (List.mem_cons_of_mem _ he)) he
    | broke s' => rw [heval] at he; exact he
    | returned s' => rw [heval] at he; exact he
    | dropped s' => rw [heval] at he; exact he

theorem evalChain_keeps {P : State σ κ → Prop} {rules : List (List (Expr σ κ))}
    (h : ∀ rule ∈ rules, ∀ s, P s → P (evalRule size p s rule).state) (hs : P s) :
    P (evalChain size p s rules).1 := by
  induction rules generalizing s with
  | nil => exact hs
  | cons rule rules ih =>
    have hrule := h rule List.mem_cons_self s hs
    have hrest : ∀ rule ∈ rules, ∀ s, P s → P (evalRule size p s rule).state :=
      fun rule hmem => h rule (List.mem_cons_of_mem _ hmem)
    rw [evalChain]
    cases heval : evalRule size p s rule with
    | next s' => rw [heval] at hrule; exact ih hrest hrule
    | broke s' => rw [heval] at hrule; exact ih hrest hrule
    | returned s' => rw [heval] at hrule; exact hrule
    | dropped s' => rw [heval] at hrule; exact hrule

theorem eval_subset {set : σ} (h : ∀ key, e ≠ .update set key) (s : State σ κ) {value : List Value}
    (hv : value ∈ (e.eval size p s).state.table.sets set) : value ∈ s.table.sets set := by
  cases e with
  | equals left right => simp only [Expr.eval] at hv; split at hv <;> exact hv
  | differs left right =>
    simp only [Expr.eval] at hv
    split at hv
    · exact hv
    · split at hv <;> exact hv
  | oneOf left right =>
    simp only [Expr.eval] at hv
    split at hv
    · exact hv
    · split at hv <;> exact hv
  | member key set' =>
    simp only [Expr.eval] at hv
    split at hv
    · exact hv
    · split at hv <;> exact hv
  | update set' key =>
    have hne : set' ≠ set := by
      rintro rfl
      exact h key rfl
    simp only [Expr.eval] at hv
    split at hv
    · exact hv
    · split at hv
      · exact hv
      · split at hv
        · simpa [Flow.state, Table.withSet, update_of_ne (Ne.symm hne)] using hv
        · exact hv
  | delete set' key =>
    simp only [Expr.eval] at hv
    split at hv
    · exact hv
    · by_cases hset : set = set'
      · subst hset
        simp only [Flow.state, Table.withSet, update_self] at hv
        exact (List.mem_filter.mp hv).1
      · simpa [Flow.state, Table.withSet, update_of_ne hset] using hv
  | _ => exact hv

end CakeAutorate.Nft
