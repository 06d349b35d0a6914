/-
# Packet runs

The packets that a table meets from its installation on, and what the accounting makes of the next
one. The output and egress chains are complete on any table. The input chain is complete on the
tables that a run leads to.
-/

import CakeAutorate.Accounting.EgressGuard

namespace CakeAutorate.Accounting

open Nft Machine List Expr Table

variable {socketOwner : NftSocketOwner} {routeMark : Option (BitVec 32 × BitVec 32)}
  {table owner device : String} {commands : List Command}
  {size : FlowSet → ℕ} {p : Packet} {s : State FlowSet CounterName}

def DnsTuple (value : List Value) : Prop :=
  ∃ protocol ∈ tcpUdp, ∃ source, value = [protocol, source, .number 53]

def DnsOnly (t : Ledger) : Prop := ∀ value ∈ t.sets .ownedDns6, DnsTuple value

/-- The tuple that `register6` reads is that of a DNS flow. -/
theorem dnsTuple_of_scope {value : List Value} (hscope : dns6Scope.all (holds p) = true)
    (hkey : readKey p dns6Key = some value) : DnsTuple value := by
  cases hconntrack : p.conntrack with
  | none => simp [readKey, dns6Key, Selector.read, hconntrack] at hkey
  | some c =>
    have hvalue : value =
        [.number c.protocol, .number c.sourcePort, .number c.destinationPort] := by
      simpa [readKey, dns6Key, Selector.read, hconntrack, eq_comm] using hkey
    simp only [dns6Scope, all_cons, all_nil, Bool.and_true, Bool.and_eq_true] at hscope
    obtain ⟨-, -, -, -, hprotocol, hport⟩ := hscope
    have hproto : Value.number c.protocol ∈ tcpUdp := by
      simpa [holds, Selector.read, hconntrack] using hprotocol
    have hdport : c.destinationPort = 53 := by
      simpa [holds, Selector.read, hconntrack] using hport
    exact ⟨.number c.protocol, hproto, .number c.sourcePort, by rw [hvalue, hdport]⟩

theorem dnsOnly_rule {rule : List Expression} (h : ∀ key, update .ownedDns6 key ∉ rule)
    (hs : DnsOnly s.table) : DnsOnly (evalRule size p s rule).state.table := by
  have hkeeps : ∀ e ∈ rule, ∀ s : State FlowSet CounterName, DnsOnly s.table →
      DnsOnly (e.eval size p s).state.table := by
    intro e he s hs value hvalue
    have hne : ∀ key, e ≠ .update .ownedDns6 key := by
      rintro key rfl
      exact h key he
    exact hs value (eval_subset hne s hvalue)
  exact evalRule_keeps (P := fun s => DnsOnly s.table) hkeeps hs

/-- `register6` adds the tuples of DNS flows. -/
theorem dnsOnly_register6 (hs : DnsOnly s.table) :
    DnsOnly (evalRule size p s (register6 socketOwner)).state.table := by
  have hguards : (dns6Output ++ ownedSocket socketOwner).all isGuard = true := by
    rw [all_append, dns6Output_guards, ownedSocket_guards]
    rfl
  rw [register6, evalRule_guards hguards]
  split
  · next hholds =>
    have hscope : dns6Scope.all (holds p) = true := by
      rw [all_append, dns6Output, all_append, Bool.and_eq_true, Bool.and_eq_true] at hholds
      exact hholds.1.1
    cases hkey : readKey p dns6Key with
    | none =>
      rw [evalRule, eval, hkey]
      exact hs
    | some value =>
      have hdns := dnsTuple_of_scope hscope hkey
      rw [evalRule, eval, hkey]
      by_cases hmem : value ∈ s.table.sets .ownedDns6
      · simpa [hmem, evalRule, Flow.state] using hs
      · by_cases hfits : (s.table.sets .ownedDns6).length < size .ownedDns6
        · simp only [hmem, hfits, if_true, if_false, evalRule, Flow.state]
          intro value' hvalue'
          rcases mem_cons.mp hvalue' with rfl | hold
          · exact hdns
          · exact hs value' hold
        · simpa [hmem, hfits, Flow.state] using hs
  · exact hs

theorem ownedSocket_not_update (owner : NftSocketOwner) (set : FlowSet) (key : List Selector) :
    update set key ∉ ownedSocket owner := by
  cases owner with
  | backendUid uid => simp [ownedSocket, owned, NftSocketOwner.probeGid]
  | probeRootGid gid => simp [ownedSocket, owned, NftSocketOwner.probeGid]

theorem clearRules_not_update {scope : List Expression} {set set' : FlowSet}
    {key key' : List Selector} (hscope : update set' key' ∉ scope) {rule : List Expression}
    (h : rule ∈ clearRules socketOwner scope set key) : update set' key' ∉ rule := by
  unfold clearRules at h
  rw [mem_append] at h
  rcases h with h | h
  · obtain rfl := mem_singleton.mp h
    simp [hscope]
  · split at h
    · cases h
    · obtain rfl := mem_singleton.mp h
      simp [hscope, owned]

theorem dnsOnly_output (hs : DnsOnly s.table) :
    ∀ rule ∈ outputRules socketOwner routeMark, DnsOnly (evalRule size p s rule).state.table := by
  intro rule hrule
  have hguards : ∀ key, update FlowSet.ownedDns6 key ∉ dns6Output := by
    intro key
    simp [dns6Output, dns6Scope, defaultZone, original]
  have hscope4 : ∀ key, update FlowSet.ownedDns6 key ∉ scope4 := by
    intro key
    simp [scope4, ipv4, defaultZone, original]
  rw [outputRules, mem_cons, mem_append, mem_cons, mem_append] at hrule
  rcases hrule with rfl | hrule | rfl | hrule | hrule
  · refine dnsOnly_rule (fun key => ?_) hs
    have howned := ownedSocket_not_update socketOwner .ownedDns6 key
    have h4 := hscope4 key
    simp only [register, mem_append, mem_singleton, not_or]
    exact ⟨⟨h4, howned⟩, by simp⟩
  · exact dnsOnly_rule (fun key => clearRules_not_update (hscope4 key) hrule) hs
  · exact dnsOnly_register6 hs
  · exact dnsOnly_rule (fun key => clearRules_not_update (hguards key) hrule) hs
  · have hlast : ∀ key, update FlowSet.ownedDns6 key ∉ rule := by
      intro key
      have howned := ownedSocket_not_update socketOwner .ownedDns6 key
      have hdns := hguards key
      simp only [mem_cons, not_mem_nil, or_false] at hrule
      rcases hrule with rfl | rfl | rfl | rfl
      · simp [transmit6, hdns, dns6Member]
      · cases routeMark with
        | none => simp [transmit, ipv4, defaultZone, original, member]
        | some pair => simp [transmit, ipv4, defaultZone, original, member]
      · simp [unregistered, ipv4, howned]
      · simp [familyRefusal, howned]
    exact dnsOnly_rule hlast hs

theorem dnsOnly_egress (hs : DnsOnly s.table) :
    ∀ rule ∈ egressRules socketOwner device, DnsOnly (evalRule size p s rule).state.table := by
  intro rule hrule
  refine dnsOnly_rule (fun key => ?_) hs
  have howned := ownedSocket_not_update socketOwner .ownedDns6 key
  simp only [egressRules, mem_cons, not_mem_nil, or_false] at hrule
  rcases hrule with rfl | rfl | rfl | rfl
  · simp [allowDns, howned]
  · simp [allowDns, howned]
  · simp [howned, wrongDevice, deny]
  · simp [late, ipv4, defaultZone, original, member, wrongDevice, deny]

theorem dnsOnly_input (hs : DnsOnly s.table) :
    ∀ rule ∈ [receive6, receive], DnsOnly (evalRule size p s rule).state.table := by
  intro rule hrule
  refine dnsOnly_rule (fun key => ?_) hs
  simp only [mem_cons, not_mem_nil, or_false] at hrule
  rcases hrule with rfl | rfl
  · simp [receive6, dns6Scope, defaultZone, replyDirection, dns6Member]
  · simp [receive, ipv4, defaultZone, replyDirection, member]

variable (h : routePinBatch table owner socketOwner routeMark device = .ok commands)

include h in
theorem rules_output : rulesOf .output commands = outputRules socketOwner routeMark :=
  (chains_of_batch h).1

include h in
theorem rules_egress : rulesOf .egress commands = egressRules socketOwner device :=
  (chains_of_batch h).2.2

variable {t : Ledger}

include h in
theorem dnsOnly_pass (chain : Chain) (p : Packet) (ht : DnsOnly t) :
    DnsOnly (pass commands chain t p).ledger := by
  have hrules : ∀ rule ∈ rulesOf chain commands, ∀ s : State FlowSet CounterName,
      DnsOnly s.table → DnsOnly (evalRule (sizeOf commands) p s rule).state.table := by
    intro rule hrule s hs
    cases chain with
    | output =>
      rw [rules_output h] at hrule
      exact dnsOnly_output hs rule hrule
    | input =>
      rw [(chains_of_batch h).2.1] at hrule
      exact dnsOnly_input hs rule hrule
    | egress =>
      rw [rules_egress h] at hrule
      exact dnsOnly_egress hs rule hrule
  have hstart : DnsOnly (⟨t, p.mark⟩ : State FlowSet CounterName).table := ht
  exact evalChain_keeps (P := fun s => DnsOnly s.table) hrules hstart

include h in
theorem dnsOnly_step (e : Event) (ht : DnsOnly t) : DnsOnly (step commands t e) := by
  cases e with
  | receive p => exact dnsOnly_pass h .input p ht
  | send p r =>
    show DnsOnly (send commands t p r).ledger
    have hout : DnsOnly (pass commands .output t p).ledger := dnsOnly_pass h .output p ht
    by_cases haccepted : (pass commands .output t p).accepted = true
    · rw [send, if_pos haccepted]
      exact dnsOnly_pass h .egress _ hout
    · rw [send, if_neg haccepted]
      exact hout

include h in
/-- **Every run keeps it.** -/
theorem dnsOnly_run (events : List Event) : DnsOnly (run (step commands) empty events) := by
  refine run_invariant (fun t e ht => dnsOnly_step h e ht) ?_ events
  intro value hvalue
  cases hvalue

def FlowRegistered (t : Ledger) (p : Packet) (c : Conntrack) : Prop :=
  p.conntrack = some c ∧ c.zone = 0 ∧
    ((p.family = .ipv4 ∧ c.family = .ipv4 ∧
        [.number c.source, .number c.destination, .number c.protocol, .number c.sourcePort,
          .number c.destinationPort] ∈ t.sets .ownedFlows) ∨
      (p.family = .ipv6 ∧ c.family = .ipv6 ∧ c.source = 1 ∧ c.destination = 1 ∧
        p.inputDevice = "lo" ∧
        [.number c.protocol, .number c.sourcePort, .number c.destinationPort] ∈ t.sets .ownedDns6))

/-- **A reply of a registered flow is counted once.** -/
theorem reply_input {c : Conntrack} (hs : DnsOnly s.table) (hflow : FlowRegistered s.table p c)
    (hreply : c.direction = .reply) :
    evalChain size p s [receive6, receive] = (counted .rx p s, true) := by
  obtain ⟨hconntrack, hzone, hset⟩ := hflow
  have hzero : defaultZone.holds p = true := by
    simp [defaultZone, holds, Selector.read, hconntrack, hzone]
  have hdirection : replyDirection.holds p = true := by
    simp [replyDirection, holds, Selector.read, hconntrack, hreply]
  rcases hset with ⟨hfamily, hctFamily, hmem⟩ | ⟨hfamily, hctFamily, hsource, hdest, hdevice, hmem⟩
  · have hfirst : evalRule size p s receive6 = .broke s := by
      refine evalRule_broke dns6Scope_guards fun hscope => ?_
      have hsix := dns6Scope_ipv6 hscope
      rw [hfamily] at hsix
      cases hsix
    have hkey : readKey p flowKey = some [.number c.source, .number c.destination,
        .number c.protocol, .number c.sourcePort, .number c.destinationPort] := by
      simp [readKey, flowKey, Selector.read, hconntrack, hctFamily, Option.filter]
    have hsecond : evalRule size p s receive = .next (counted .rx p s) := by
      rw [receive, evalRule_guard rfl, if_pos (ipv4_holds.mpr hfamily), evalRule_guard rfl,
        if_pos hzero, evalRule_guard rfl, if_pos hdirection, member, evalRule_member,
        if_pos ⟨_, hkey, hmem⟩]
      rfl
    rw [evalChain_of_broke hfirst, evalChain_of_next hsecond]
    rfl
  · have hkey : readKey p dns6Key =
        some [.number c.protocol, .number c.sourcePort, .number c.destinationPort] := by
      simp [readKey, dns6Key, Selector.read, hconntrack]
    obtain ⟨protocol, hprotocol, source, hvalue⟩ := hs _ hmem
    have hproto : Value.number c.protocol ∈ tcpUdp := by
      rw [cons.injEq] at hvalue
      rw [hvalue.1]
      exact hprotocol
    have hport : c.destinationPort = 53 := by
      simpa using (cons.inj (cons.inj (cons.inj hvalue).2).2).1
    have hscope : (dns6Scope ++ [.equals .iifname (.device "lo"), replyDirection]).all
        (holds p) = true := by
      simp [dns6Scope, defaultZone, replyDirection, holds, Selector.read, hconntrack, hfamily,
        hctFamily, hsource, hdest, hdevice, hport, hproto, hzone, hreply, Option.filter]
    have hfirst : evalRule size p s receive6 = .next (counted .rx p s) := by
      have hrule : receive6 = (dns6Scope ++ [.equals .iifname (.device "lo"), replyDirection]) ++
          [dns6Member, .counter .rx] := rfl
      rw [hrule, evalRule_held rfl hscope, dns6Member, evalRule_member, if_pos ⟨_, hkey, hmem⟩]
      rfl
    have hsecond : evalRule size p (counted .rx p s) receive = .broke (counted .rx p s) := by
      have hsix : ¬ipv4.holds p = true := by
        intro hfour
        rw [ipv4_holds.mp hfour] at hfamily
        cases hfamily
      rw [receive, evalRule_guard rfl, if_neg hsix]
    rw [evalChain_of_next hfirst, evalChain_of_broke hsecond]
    rfl

def Sends (socketOwner : NftSocketOwner) (p : Packet) : Prop :=
  ∃ socket, p.socket = some socket ∧ socketOwner.Owns socket

/-- A packet is transmitted: accepted, counted once in `tx`, and marked if it is IPv4. -/
def Transmitted (routeMark : Option (BitVec 32 × BitVec 32)) (t : Ledger) (p : Packet)
    (out : Passage) : Prop :=
  out.accepted = true ∧ out.ledger.counters = count t.counters .tx p.length ∧
    out.mark = if p.family = .ipv4 then routeMarked routeMark p.mark else p.mark

def Refused (t : Ledger) (p : Packet) (fault : CounterName) (out : Passage) : Prop :=
  out.accepted = false ∧ out.ledger.counters = count t.counters fault p.length

def LeftAlone (t : Ledger) (p : Packet) (out : Passage) : Prop :=
  out.accepted = true ∧ out.ledger.counters = t.counters ∧ out.mark = p.mark

include h in
theorem owned_pass (howned : Sends socketOwner p) :
    Transmitted routeMark t p (pass commands .output t p) ∨
      ∃ fault ∈ faultCounters, Refused t p fault (pass commands .output t p) := by
  have hresult : Accounted routeMark p ⟨t, p.mark⟩
      (evalChain (sizeOf commands) p ⟨t, p.mark⟩ (rulesOf .output commands)) := by
    rw [rules_output h]
    exact accounted_output (ownedSocket_holds.mpr howned)
  rcases hresult with htransmitted | ⟨hdropped, fault, hfault, hcount⟩
  · exact Or.inl htransmitted
  · exact Or.inr ⟨fault, hfault, hdropped, hcount⟩

include h in
theorem owned_guard (howned : Sends socketOwner p) :
    (LoopbackDns p ∨ p.outputDevice = device → LeftAlone t p (pass commands .egress t p)) ∧
      (¬LoopbackDns p → p.outputDevice ≠ device →
        Refused t p .faultEgress (pass commands .egress t p)) := by
  have hresult : (LoopbackDns p ∨ p.outputDevice = device →
        evalChain (sizeOf commands) p ⟨t, p.mark⟩ (rulesOf .egress commands) =
          (⟨t, p.mark⟩, true)) ∧
      (¬LoopbackDns p → p.outputDevice ≠ device →
        evalChain (sizeOf commands) p ⟨t, p.mark⟩ (rulesOf .egress commands) =
          (counted .faultEgress p ⟨t, p.mark⟩, false)) := by
    rw [rules_egress h]
    exact owned_egress (ownedSocket_holds.mpr howned)
  refine ⟨fun hallowed => ?_, fun hdns hdevice => ?_⟩
  · unfold LeftAlone pass
    rw [hresult.1 hallowed]
    exact ⟨rfl, rfl, rfl⟩
  · unfold Refused pass
    rw [hresult.2 hdns hdevice]
    exact ⟨rfl, rfl⟩

include h in
theorem foreign_send {socket : Socket} (hsocket : p.socket = some socket)
    (hforeign : ¬socketOwner.Owns socket) (r : Route) : LeftAlone t p (send commands t p r) := by
  obtain ⟨s', hchain, hcounters, hmark, hcleared⟩ :
      ∃ s', evalChain (sizeOf commands) p ⟨t, p.mark⟩ (outputRules socketOwner routeMark) =
          (s', true) ∧ s'.table.counters = t.counters ∧ s'.mark = p.mark ∧
        ∀ value, scope4.all (holds p) = true → readKey p flowKey = some value →
          value ∉ s'.table.sets .ownedFlows := foreign_output hsocket hforeign
  have hout : pass commands .output t p = ⟨s'.table, s'.mark, true⟩ := by
    unfold pass
    rw [rules_output h, hchain]
  have hfails : ¬(ownedSocket socketOwner).all (holds (routed p s'.mark r)) = true := by
    have hsame : (routed p s'.mark r).socket = some socket := hsocket
    exact ownedSocket_foreign hsame hforeign
  have hlate : evalRule (sizeOf commands) (routed p s'.mark r) ⟨s'.table, s'.mark⟩ (late device) =
      .broke ⟨s'.table, s'.mark⟩ := by
    refine late_unregistered ?_
    rintro ⟨hscope, value, hkey, hmem⟩
    exact hcleared value hscope hkey hmem
  have hegress : pass commands .egress s'.table (routed p s'.mark r) =
      ⟨s'.table, s'.mark, true⟩ := by
    unfold pass
    have hmark' : (routed p s'.mark r).mark = s'.mark := rfl
    rw [rules_egress h, hmark', other_egress hfails, evalChain_of_broke hlate]
    rfl
  have hsend : send commands t p r = ⟨s'.table, s'.mark, true⟩ := by
    rw [send, hout, if_pos rfl]
    exact hegress
  rw [hsend]
  exact ⟨rfl, hcounters, hmark⟩

include h in
theorem outlived_send {c : Conntrack} (hsocket : p.socket = none) (hflow : FlowRegistered t p c)
    (hfamily : p.family = .ipv4) (horiginal : c.direction = .original) :
    Transmitted routeMark t p (pass commands .output t p) ∧
      ∀ r : Route, r.device ≠ "lo" → r.device ≠ device →
        (send commands t p r).accepted = false ∧ (send commands t p r).ledger.counters =
          count (count t.counters .tx p.length) .faultEgress p.length := by
  obtain ⟨hconntrack, hzone, hset⟩ := hflow
  obtain ⟨hctFamily, hmem⟩ : c.family = .ipv4 ∧ [.number c.source, .number c.destination,
      .number c.protocol, .number c.sourcePort, .number c.destinationPort] ∈
        t.sets .ownedFlows := by
    rcases hset with ⟨-, hct, hmem⟩ | ⟨hsix, -⟩
    · exact ⟨hct, hmem⟩
    · rw [hfamily] at hsix
      cases hsix
  have hkey : readKey p flowKey = some [.number c.source, .number c.destination,
      .number c.protocol, .number c.sourcePort, .number c.destinationPort] := by
    simp [readKey, flowKey, Selector.read, hconntrack, hctFamily, Option.filter]
  have hscope : scope4.all (holds p) = true := by
    simp [scope4, ipv4, defaultZone, original, holds, Selector.read, hconntrack, hfamily,
      hzone, horiginal]
  have hchain : evalChain (sizeOf commands) p ⟨t, p.mark⟩ (outputRules socketOwner routeMark) =
      ({ counted .tx p ⟨t, p.mark⟩ with mark := routeMarked routeMark p.mark }, true) :=
    outlived_output hsocket hscope hkey hmem
  have hout : pass commands .output t p =
      ⟨(counted .tx p ⟨t, p.mark⟩).table, routeMarked routeMark p.mark, true⟩ := by
    unfold pass
    rw [rules_output h, hchain]
  refine ⟨?_, fun r hlo hdevice => ?_⟩
  · rw [hout]
    refine ⟨rfl, rfl, ?_⟩
    rw [if_pos hfamily]
  · have hegress : evalChain (sizeOf commands) (routed p (routeMarked routeMark p.mark) r)
        ⟨(counted .tx p ⟨t, p.mark⟩).table, routeMarked routeMark p.mark⟩
          (egressRules socketOwner device) =
        (counted .faultEgress (routed p (routeMarked routeMark p.mark) r)
          ⟨(counted .tx p ⟨t, p.mark⟩).table, routeMarked routeMark p.mark⟩, false) :=
      outlived_egress hsocket hscope hkey hmem hlo hdevice
    have hmark : (routed p (routeMarked routeMark p.mark) r).mark = routeMarked routeMark p.mark :=
      rfl
    rw [send, hout, if_pos rfl]
    unfold pass
    rw [rules_egress h, hmark, hegress]
    exact ⟨rfl, rfl⟩

/-- **The accounting is complete.**  After any packets from the installation on: a packet of the
owner is transmitted and counted once, or refused and counted in one fault counter; a reply of a
registered flow is counted once; a packet of another owner is left alone; and one that has outlived
its socket is treated as one of its flow. -/
theorem accounting_complete
    (h : routePinBatch table owner socketOwner routeMark device = .ok commands)
    (events : List Event) (t : Ledger) (ht : t = run (step commands) empty events)
    (p : Packet) :
    (Sends socketOwner p → Transmitted routeMark t p (pass commands .output t p) ∨
      ∃ fault ∈ faultCounters, Refused t p fault (pass commands .output t p)) ∧
    (∀ socket, p.socket = some socket → ¬socketOwner.Owns socket →
      ∀ r, LeftAlone t p (send commands t p r)) ∧
    (∀ c, FlowRegistered t p c → c.direction = .reply →
      (pass commands .input t p).accepted = true ∧
        (pass commands .input t p).ledger.counters = count t.counters .rx p.length) ∧
    (Sends socketOwner p →
      (LoopbackDns p ∨ p.outputDevice = device → LeftAlone t p (pass commands .egress t p)) ∧
      (¬LoopbackDns p → p.outputDevice ≠ device →
        Refused t p .faultEgress (pass commands .egress t p))) ∧
    (∀ c, p.socket = none → FlowRegistered t p c → p.family = .ipv4 → c.direction = .original →
      Transmitted routeMark t p (pass commands .output t p) ∧
        ∀ r : Route, r.device ≠ "lo" → r.device ≠ device →
          (send commands t p r).accepted = false ∧ (send commands t p r).ledger.counters =
            count (count t.counters .tx p.length) .faultEgress p.length) := by
  have hdns : DnsOnly t := by
    rw [ht]
    exact dnsOnly_run h events
  refine ⟨fun howned => owned_pass h howned, fun socket hsocket hforeign r =>
    foreign_send h hsocket hforeign r, fun c hflow hreply => ?_, fun howned =>
    owned_guard h howned, fun c hsocket hflow hfamily horiginal =>
    outlived_send h hsocket hflow hfamily horiginal⟩
  have hchain : evalChain (sizeOf commands) p ⟨t, p.mark⟩ [receive6, receive] =
      (counted .rx p ⟨t, p.mark⟩, true) := reply_input hdns hflow hreply
  unfold pass
  rw [(chains_of_batch h).2.1, hchain]
  exact ⟨rfl, rfl⟩

def probeConntrack : Conntrack := ⟨0, .original, .ipv4, 10, 20, 6, 40000, 443⟩

def probePacket : Packet :=
  ⟨.ipv4, some probeConntrack, some ⟨0, 77⟩, "", "wan", 20, 6, 0x00ff0001#32, 60⟩

def probeReply : Packet :=
  ⟨.ipv4, some { probeConntrack with direction := .reply }, none, "wan", "", 10, 6, 0#32, 52⟩

def probeBatch : List Command :=
  ((routePinBatch "table" "probe" (.probeRootGid 77) (some (0xff00ffff#32, 0x00010000#32))
    "wan").toOption).getD []

theorem accounting_complete_probe :
    (∃ t, t = run (step probeBatch) empty [.send probePacket ⟨"wan", 20⟩] ∧
      (Transmitted (some (0xff00ffff#32, 0x00010000#32)) t probePacket
          (pass probeBatch .output t probePacket) ∨
        ∃ fault ∈ faultCounters, Refused t probePacket fault
          (pass probeBatch .output t probePacket))) ∧
    (∃ t, t = run (step probeBatch) empty [.send probePacket ⟨"wan", 20⟩] ∧
      (pass probeBatch .input t probeReply).ledger.counters =
        count t.counters .rx probeReply.length) := by
  have hbatch : routePinBatch "table" "probe" (.probeRootGid 77)
      (some (0xff00ffff#32, 0x00010000#32)) "wan" = .ok probeBatch := by decide +kernel
  have howned : Sends (.probeRootGid 77) probePacket := by
    refine ⟨⟨0, 77⟩, rfl, rfl, fun gid hgid => ?_⟩
    exact Option.some.inj hgid
  have hmem : [.number 10, .number 20, .number 6, .number 40000, .number 443] ∈
      (run (step probeBatch) empty [.send probePacket ⟨"wan", 20⟩]).sets .ownedFlows := by
    decide +kernel
  refine ⟨⟨_, rfl, ?_⟩, ⟨_, rfl, ?_⟩⟩
  · exact (accounting_complete hbatch [.send probePacket ⟨"wan", 20⟩] _ rfl probePacket).1 howned
  · exact ((accounting_complete hbatch [.send probePacket ⟨"wan", 20⟩] _ rfl probeReply).2.2.1
      { probeConntrack with direction := .reply } ⟨rfl, rfl, Or.inl ⟨rfl, rfl, hmem⟩⟩ rfl).2

end CakeAutorate.Accounting
