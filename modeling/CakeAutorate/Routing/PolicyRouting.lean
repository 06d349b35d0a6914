/-
# Policy routing

Rules are tried by ascending priority.  The first rule that selects a packet and whose
table has a route for it decides, and in the table the longest prefix does.  Packets and
devices are arbitrary types; a prefix is the set of packets it covers with its length.
-/

import Mathlib.Data.List.Nodup

namespace CakeAutorate.PolicyRouting

open List

variable {P D : Type*}

/-- A rule: its priority, the packets it selects and the table it looks up. -/
structure Rule (P : Type*) where
  priority : ℕ
  selects : P → Prop
  table : ℕ

/-- A route: the packets it covers, the length of its prefix and its device. -/
structure Route (P D : Type*) where
  covers : P → Prop
  length : ℕ
  device : D

/-- The longest prefix of a table that covers a packet. -/
structure Chosen (table : List (Route P D)) (packet : P) (route : Route P D) : Prop where
  mem : route ∈ table
  covers : route.covers packet
  longest : ∀ other ∈ table, other.covers packet → other.length ≤ route.length

/-- A packet is sent by a rule over a route: the rule selects it, the route is the one of
its table, and no rule before it had a route. -/
structure Routed (rules : List (Rule P)) (tables : ℕ → List (Route P D)) (packet : P)
    (rule : Rule P) (route : Route P D) : Prop where
  mem : rule ∈ rules
  selects : rule.selects packet
  chosen : Chosen (tables rule.table) packet route
  first : ∀ earlier ∈ rules, earlier.priority < rule.priority → earlier.selects packet →
    ∀ other ∈ tables earlier.table, ¬other.covers packet

theorem exists_chosen {table : List (Route P D)} {packet : P} {route : Route P D}
    (hmem : route ∈ table) (hcovers : route.covers packet) : ∃ best, Chosen table packet best := by
  induction table generalizing route with
  | nil => cases hmem
  | cons head tail ih =>
    by_cases htail : ∃ r ∈ tail, r.covers packet
    · obtain ⟨r, hr, hrc⟩ := htail
      obtain ⟨best, hbest⟩ := ih hr hrc
      by_cases hhead : head.covers packet ∧ best.length < head.length
      · refine ⟨head, mem_cons_self, hhead.1, fun other hother hcov => ?_⟩
        rcases mem_cons.1 hother with rfl | hother
        · exact Nat.le_refl _
        · exact Nat.le_trans (hbest.longest other hother hcov) (Nat.le_of_lt hhead.2)
      · refine ⟨best, mem_cons_of_mem _ hbest.mem, hbest.covers, fun other hother hcov => ?_⟩
        rcases mem_cons.1 hother with rfl | hother
        · exact Nat.le_of_not_lt fun hlt => hhead ⟨hcov, hlt⟩
        · exact hbest.longest other hother hcov
    · have honly : ∀ other ∈ tail, ¬other.covers packet := fun other hother hcov =>
        htail ⟨other, hother, hcov⟩
      have hhead : route = head := by
        rcases mem_cons.1 hmem with rfl | hmem
        · rfl
        · exact absurd hcovers (honly route hmem)
      subst hhead
      refine ⟨route, mem_cons_self, hcovers, fun other hother hcov => ?_⟩
      rcases mem_cons.1 hother with rfl | hother
      · exact Nat.le_refl _
      · exact absurd hcov (honly other hother)

/-- **What decides a packet.**  With distinct priorities, a rule that selects the packet,
has a route for it and comes after no other such rule is the one by which it is sent. -/
theorem routed_iff {rules : List (Rule P)} {tables : ℕ → List (Route P D)} {packet : P}
    {rule : Rule P} (hdistinct : (rules.map Rule.priority).Nodup) (hmem : rule ∈ rules)
    (hselects : rule.selects packet) (hroute : ∃ route ∈ tables rule.table, route.covers packet)
    (hfirst : ∀ earlier ∈ rules, earlier.priority < rule.priority → earlier.selects packet →
      ∀ other ∈ tables earlier.table, ¬other.covers packet) (rule' : Rule P) (route : Route P D) :
    Routed rules tables packet rule' route ↔
      rule' = rule ∧ Chosen (tables rule.table) packet route := by
  constructor
  · intro h
    have heq : rule' = rule := by
      rcases Nat.lt_trichotomy rule'.priority rule.priority with hlt | heq | hgt
      · exact absurd h.chosen.covers (hfirst rule' h.mem hlt h.selects route h.chosen.mem)
      · exact inj_on_of_nodup_map hdistinct h.mem hmem heq
      · obtain ⟨r, hr, hcov⟩ := hroute
        exact absurd hcov (h.first rule hmem hgt hselects r hr)
    subst heq
    exact ⟨rfl, h.chosen⟩
  · rintro ⟨rfl, hchosen⟩
    exact ⟨hmem, hselects, hchosen, hfirst⟩

end CakeAutorate.PolicyRouting
