/-
# The egress guard and the replies

What the egress chain does to a packet that the output chain accepted, and what the input chain does
to a reply.  The rule for loopback DNS in the input chain compares more than the set lookup does, so
that its guards hold of every registered flow is an invariant of the runs: an element gets into the
set by `register6` only, from a packet that met the same guards.
-/

import CakeAutorate.Accounting.Completeness

namespace CakeAutorate.Accounting

open Nft Machine List Expr

variable {socketOwner : NftSocketOwner} {routeMark : Option (BitVec 32 × BitVec 32)}
  {table owner device : String} {commands : List Command}

def egressRules (socketOwner : NftSocketOwner) (device : String) : List (List Expression) :=
  [allowDns socketOwner .ipv4 loopback4, allowDns socketOwner .ipv6 1,
    ownedSocket socketOwner ++ [wrongDevice device] ++ deny, late device]

def LoopbackDns (p : Packet) : Prop :=
  p.outputDevice = "lo" ∧ (p.protocol = 6 ∨ p.protocol = 17) ∧
    (∃ c, p.conntrack = some c ∧ c.destinationPort = 53) ∧
    ((p.family = .ipv4 ∧ p.destination = loopback4) ∨ (p.family = .ipv6 ∧ p.destination = 1))

def allowGuards (f : Family) (address : ℕ) : List Expression :=
  [.equals .oifname (.device "lo"), .equals (.payloadDestination f) (.number address),
    .oneOf .l4proto tcpUdp, .equals .ctDestinationPort (.number 53)]

theorem allowGuards_guards (f : Family) (address : ℕ) :
    (allowGuards f address).all isGuard = true := rfl

variable {size : FlowSet → ℕ} {p : Packet} {s : State FlowSet CounterName} {f : Family}
  {address : ℕ}

theorem allowGuards_holds :
    (allowGuards f address).all (holds p) = true ↔
      p.outputDevice = "lo" ∧ (p.family = f ∧ p.destination = address) ∧
        (p.protocol = 6 ∨ p.protocol = 17) ∧ ∃ c, p.conntrack = some c ∧ c.destinationPort = 53 := by
  have hdestination : (equals (.payloadDestination f) (.number address) : Expression).holds p =
      decide (p.family = f ∧ p.destination = address) := by
    by_cases hf : p.family = f
    · simp [holds, Selector.read, hf]
    · simp [holds, Selector.read, hf]
  have hport : (equals .ctDestinationPort (.number 53) : Expression).holds p = true ↔
      ∃ c, p.conntrack = some c ∧ c.destinationPort = 53 := by
    simp [holds, Selector.read]
  have hdevice : (equals .oifname (.device "lo") : Expression).holds p = true ↔
      p.outputDevice = "lo" := by
    simp [holds, Selector.read]
  have hprotocol : (oneOf .l4proto tcpUdp : Expression).holds p = true ↔
      p.protocol = 6 ∨ p.protocol = 17 := by
    simp [holds, Selector.read, tcpUdp]
  simp [allowGuards, hdevice, hdestination, hprotocol, hport]

theorem allowDns_eq (f : Family) (address : ℕ) :
    allowDns socketOwner f address =
      (ownedSocket socketOwner ++ allowGuards f address) ++ [.returns] := by
  simp [allowDns, allowGuards]

theorem allowDns_guards (f : Family) (address : ℕ) :
    (ownedSocket socketOwner ++ allowGuards f address).all isGuard = true := by
  rw [all_append, ownedSocket_guards, allowGuards_guards]
  rfl

theorem allowDns_broke (h : ¬(allowGuards f address).all (holds p) = true) :
    evalRule size p s (allowDns socketOwner f address) = .broke s := by
  rw [allowDns_eq]
  refine evalRule_broke (allowDns_guards f address) ?_
  rw [all_append, Bool.and_eq_true]
  exact fun hboth => h hboth.2

theorem allowDns_returned (howned : (ownedSocket socketOwner).all (holds p) = true)
    (h : (allowGuards f address).all (holds p) = true) :
    evalRule size p s (allowDns socketOwner f address) = .returned s := by
  rw [allowDns_eq, evalRule_held (allowDns_guards f address)]
  · rfl
  · rw [all_append, howned, h]
    rfl

theorem wrongDevice_holds : ((wrongDevice device).holds p) = true ↔ p.outputDevice ≠ device := by
  simp [wrongDevice, holds, Selector.read]

def lateGuards (device : String) : List Expression :=
  [.differs .oifname (.device "lo"), wrongDevice device]

theorem lateGuards_guards (device : String) : (lateGuards device).all isGuard = true := rfl

theorem lateGuards_holds :
    (lateGuards device).all (holds p) = true ↔ p.outputDevice ≠ "lo" ∧ p.outputDevice ≠ device := by
  have hlo : (differs .oifname (.device "lo") : Expression).holds p = true ↔
      p.outputDevice ≠ "lo" := by
    simp [holds, Selector.read]
  simp [lateGuards, hlo, wrongDevice_holds]

theorem late_eq (device : String) :
    late device = scope4 ++ member :: (lateGuards device ++ deny) := rfl

theorem late_unregistered
    (h : ¬(scope4.all (holds p) = true ∧
      ∃ value, readKey p flowKey = some value ∧ value ∈ s.table.sets .ownedFlows)) :
    evalRule size p s (late device) = .broke s := by
  rw [late_eq]
  exact unregistered_broke h

theorem late_permitted (h : ¬(p.outputDevice ≠ "lo" ∧ p.outputDevice ≠ device)) :
    evalRule size p s (late device) = .broke s := by
  rw [late_eq]
  by_cases hscope : scope4.all (holds p) = true
  · rw [evalRule_held scope4_guards hscope, member, evalRule_member]
    split
    · exact evalRule_broke (lateGuards_guards device) (fun hl => h (lateGuards_holds.mp hl))
    · rfl
  · exact evalRule_broke scope4_guards hscope

/-- **The egress chain of a packet of the owner**: loopback DNS and the permitted device are accepted
as they are; anything else is refused and counted. -/
theorem owned_egress (howned : (ownedSocket socketOwner).all (holds p) = true) :
    ((LoopbackDns p ∨ p.outputDevice = device) →
      evalChain size p s (egressRules socketOwner device) = (s, true)) ∧
    (¬LoopbackDns p → p.outputDevice ≠ device →
      evalChain size p s (egressRules socketOwner device) = (counted .faultEgress p s, false)) := by
  by_cases h4 : (allowGuards .ipv4 loopback4).all (holds p) = true
  · have hchain : evalChain size p s (egressRules socketOwner device) = (s, true) := by
      rw [egressRules, evalChain_of_returned (allowDns_returned howned h4)]
    obtain ⟨hdevice, hfamily, hprotocol, hport⟩ := allowGuards_holds.mp h4
    exact ⟨fun _ => hchain, fun hnot =>
      absurd ⟨hdevice, hprotocol, hport, Or.inl hfamily⟩ hnot⟩
  · by_cases h6 : (allowGuards .ipv6 1).all (holds p) = true
    · have hchain : evalChain size p s (egressRules socketOwner device) = (s, true) := by
        rw [egressRules, evalChain_of_broke (allowDns_broke h4),
          evalChain_of_returned (allowDns_returned howned h6)]
      obtain ⟨hdevice, hfamily, hprotocol, hport⟩ := allowGuards_holds.mp h6
      exact ⟨fun _ => hchain, fun hnot =>
        absurd ⟨hdevice, hprotocol, hport, Or.inr hfamily⟩ hnot⟩
    · have hnot : ¬LoopbackDns p := by
        rintro ⟨hdevice, hprotocol, hport, hfamily | hfamily⟩
        · exact h4 (allowGuards_holds.mpr ⟨hdevice, hfamily, hprotocol, hport⟩)
        · exact h6 (allowGuards_holds.mpr ⟨hdevice, hfamily, hprotocol, hport⟩)
      have hguards : (ownedSocket socketOwner ++ [wrongDevice device]).all isGuard = true := by
        rw [all_append, ownedSocket_guards]
        rfl
      rw [egressRules, evalChain_of_broke (allowDns_broke h4),
        evalChain_of_broke (allowDns_broke h6)]
      refine ⟨?_, ?_⟩
      · rintro (hdns | hdevice)
        · exact absurd hdns hnot
        · have hthird : evalRule size p s
              (ownedSocket socketOwner ++ [wrongDevice device] ++ deny) = .broke s := by
            refine evalRule_broke hguards ?_
            rw [all_append, Bool.and_eq_true]
            intro hboth
            have hwrong := hboth.2
            rw [all_cons, Bool.and_eq_true] at hwrong
            exact wrongDevice_holds.mp hwrong.1 hdevice
          rw [evalChain_of_broke hthird, evalChain_of_broke (late_permitted fun h => h.2 hdevice)]
          rfl
      · intro _ hdevice
        have hthird : evalRule size p s
            (ownedSocket socketOwner ++ [wrongDevice device] ++ deny) =
              .dropped (counted .faultEgress p s) := by
          rw [evalRule_held hguards]
          · rfl
          · rw [all_append, howned, all_cons, wrongDevice_holds.mpr hdevice]
            rfl
        rw [evalChain_of_dropped hthird]

/-- **The egress chain of a packet that is not the owner's**: the late rule alone concerns it. -/
theorem other_egress (hfails : ¬(ownedSocket socketOwner).all (holds p) = true) :
    evalChain size p s (egressRules socketOwner device) = evalChain size p s [late device] := by
  have hallow : ∀ (f : Family) (address : ℕ),
      evalRule size p s (allowDns socketOwner f address) = .broke s := by
    intro f address
    have hrule : allowDns socketOwner f address =
        ownedSocket socketOwner ++ (allowGuards f address ++ [.returns]) := by
      simp [allowDns, allowGuards]
    exact evalRule_broke (ownedSocket_guards _) hfails
  have hthird : evalRule size p s (ownedSocket socketOwner ++ [wrongDevice device] ++ deny) =
      .broke s := by
    rw [append_assoc]
    exact evalRule_broke (ownedSocket_guards _) hfails
  rw [egressRules, evalChain_of_broke (hallow _ _), evalChain_of_broke (hallow _ _),
    evalChain_of_broke hthird]

theorem ownedSocket_socketless (hsocket : p.socket = none) :
    ¬(ownedSocket socketOwner).all (holds p) = true := by
  intro h
  obtain ⟨s, hs, -⟩ := ownedSocket_holds.mp h
  rw [hsocket] at hs
  cases hs

theorem clear_socketless {scope : List Expression} {set : FlowSet} {key : List Selector}
    {rest : List (List Expression)} (hscope : scope.all isGuard = true)
    (hsocket : p.socket = none) :
    evalChain size p s (clearRules socketOwner scope set key ++ rest) = evalChain size p s rest :=
  clear_skipped hscope (by simp [holds, Selector.read, hsocket]) fun _ _ =>
    .inl (by simp [owned, holds, Selector.read, hsocket])

/-- **A packet that has outlived its socket is charged to the flow it belongs to.** -/
theorem outlived_output {value : List Value} (hsocket : p.socket = none)
    (hscope : scope4.all (holds p) = true) (hkey : readKey p flowKey = some value)
    (hmem : value ∈ s.table.sets .ownedFlows) :
    evalChain size p s (outputRules socketOwner routeMark) =
      ({ counted .tx p s with mark := routeMarked routeMark s.mark }, true) := by
  have hfails : ¬(ownedSocket socketOwner).all (holds p) = true :=
    ownedSocket_socketless hsocket
  have hdns : ¬dns6Output.all (holds p) = true := by
    intro h
    have hfamily := dns6Output_ipv6 h
    rw [scope4_ipv4 hscope] at hfamily
    cases hfamily
  have hregister : evalRule size p s (register socketOwner) = .broke s :=
    foreign_broke scope4_guards hfails
  have hregister6 : evalRule size p s (register6 socketOwner) = .broke s :=
    foreign_broke dns6Output_guards hfails
  rw [outputRules, evalChain_of_broke hregister, clear4, clear_socketless scope4_guards hsocket,
    evalChain_of_broke hregister6, clear6, clear_socketless dns6Output_guards hsocket,
    evalChain_of_broke (transmit6_unregistered fun h => hdns h.1),
    evalChain_of_returned (transmit_registered hscope hkey hmem)]

/-- **And refused on another device.** -/
theorem outlived_egress {value : List Value} (hsocket : p.socket = none)
    (hscope : scope4.all (holds p) = true) (hkey : readKey p flowKey = some value)
    (hmem : value ∈ s.table.sets .ownedFlows) (hlo : p.outputDevice ≠ "lo")
    (hdevice : p.outputDevice ≠ device) :
    evalChain size p s (egressRules socketOwner device) = (counted .faultEgress p s, false) := by
  have hlate : evalRule size p s (late device) = .dropped (counted .faultEgress p s) := by
    rw [late_eq, evalRule_held scope4_guards hscope, member, evalRule_member,
      if_pos ⟨value, hkey, hmem⟩,
      evalRule_held (lateGuards_guards device) (lateGuards_holds.mpr ⟨hlo, hdevice⟩)]
    rfl
  rw [other_egress (ownedSocket_socketless hsocket), evalChain_of_dropped hlate]

end CakeAutorate.Accounting
