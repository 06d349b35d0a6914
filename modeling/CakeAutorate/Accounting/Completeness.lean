/-
# The accounting of owned flows is complete

What happens to a packet is shown of an arbitrary table, and of the tables that a run leads to where
the contents of the sets matter.
-/

import CakeAutorate.Accounting.OwnedFlows

namespace CakeAutorate.Accounting

open Nft Machine List Or Expr NftSocketOwner

variable {socketOwner : NftSocketOwner} {routeMark : Option (BitVec 32 × BitVec 32)}
  {table owner device : String} {commands : List Command}

theorem rulesOf_append (chain : Chain) (first second : List Command) :
    rulesOf chain (first ++ second) = rulesOf chain first ++ rulesOf chain second :=
  filterMap_append

theorem rulesOf_output_map (rules : List (List Expression)) :
    rulesOf .output (rules.map (.addRule .output)) = rules := by
  induction rules with
  | nil => rfl
  | cons rule rules ih => exact congrArg (rule :: ·) ih

theorem rulesOf_other_map {chain : Chain} (hchain : chain ≠ .output) (rules : List (List Expression)) :
    rulesOf chain (rules.map (.addRule .output)) = [] := by
  induction rules with
  | nil => rfl
  | cons rule rules ih =>
    have hne : ¬Chain.output = chain := fun h => hchain h.symm
    rw [map_cons, rulesOf, filterMap_cons]
    simp only [hne, if_false]
    exact ih

def scope4 : List Expression := [ipv4, defaultZone, original]

def clear4 (owner : NftSocketOwner) : List (List Expression) :=
  clearRules owner scope4 .ownedFlows flowKey

def clear6 (owner : NftSocketOwner) : List (List Expression) :=
  clearRules owner dns6Output .ownedDns6 dns6Key

theorem chains_of_batch (h : routePinBatch table owner socketOwner routeMark device = .ok commands) :
    rulesOf .output commands = register socketOwner :: (clear4 socketOwner ++
        register6 socketOwner :: (clear6 socketOwner ++ [transmit6, transmit routeMark,
          unregistered socketOwner, familyRefusal socketOwner])) ∧
      rulesOf .input commands = [receive6, receive] ∧
      rulesOf .egress commands = [allowDns socketOwner .ipv4 loopback4, allowDns socketOwner .ipv6 1,
        ownedSocket socketOwner ++ [wrongDevice device] ++ deny, late device] := by
  unfold routePinBatch nftEgressGuardBatch at h
  split at h
  · cases h
  · cases h
    unfold nftOwnedRoutePinBatch accountingRules
    simp only [rulesOf_append, rulesOf_output_map]
    refine ⟨?_, ?_, ?_⟩
    · simp [rulesOf, clear4, clear6, scope4]
    · rw [rulesOf_other_map (by decide), rulesOf_other_map (by decide)]
      simp [rulesOf]
    · rw [rulesOf_other_map (by decide), rulesOf_other_map (by decide)]
      simp [rulesOf]

theorem scope4_guards : scope4.all isGuard = true := rfl

theorem ipv4_guards : [ipv4].all isGuard = true := rfl

theorem dns6Scope_guards : dns6Scope.all isGuard = true := rfl

theorem dns6Output_guards : dns6Output.all isGuard = true := rfl

theorem ownedSocket_guards (owner : NftSocketOwner) : (ownedSocket owner).all isGuard = true := by
  cases owner <;> rfl

variable {p : Packet} {guards scope : List Expression} {socket : Socket}

theorem ownedSocket_holds {owner : NftSocketOwner} :
    (ownedSocket owner).all (holds p) = true ↔ ∃ s, p.socket = some s ∧ owner.Owns s := by
  cases owner with
  | backendUid uid =>
    cases hsocket : p.socket with
    | none => simp [ownedSocket, owned, probeGid, holds, Selector.read, hsocket]
    | some s =>
      simp [ownedSocket, owned, NftSocketOwner.probeGid, NftSocketOwner.uid, holds,
        Selector.read, hsocket, NftSocketOwner.Owns]
  | probeRootGid gid =>
    cases hsocket : p.socket with
    | none => simp [ownedSocket, owned, probeGid, holds, Selector.read, hsocket]
    | some s =>
      simp [ownedSocket, owned, probeGid, uid, holds, Selector.read, hsocket, NftSocketOwner.Owns]

theorem ipv4_holds : (ipv4.holds p) = true ↔ p.family = .ipv4 := by
  simp [ipv4, holds, Selector.read]

theorem scope4_ipv4 (h : scope4.all (holds p) = true) : p.family = .ipv4 := by
  rw [scope4, all_cons, Bool.and_eq_true] at h
  exact ipv4_holds.mp h.1

theorem dns6Scope_ipv6 (h : dns6Scope.all (holds p) = true) : p.family = .ipv6 := by
  rw [dns6Scope, all_cons, Bool.and_eq_true] at h
  simpa [holds, Selector.read] using h.1

theorem dns6Output_ipv6 (h : dns6Output.all (holds p) = true) : p.family = .ipv6 := by
  rw [dns6Output, all_append, Bool.and_eq_true] at h
  exact dns6Scope_ipv6 h.1

variable {size : FlowSet → ℕ} {p : Packet} {s : State FlowSet CounterName} {rest : List Expression}

theorem evalRule_broke (hguards : guards.all isGuard = true) (h : ¬guards.all (holds p) = true) :
    evalRule size p s (guards ++ rest) = .broke s := by
  rw [evalRule_guards hguards, if_neg h]

theorem evalRule_held (hguards : guards.all isGuard = true) (h : guards.all (holds p) = true) :
    evalRule size p s (guards ++ rest) = evalRule size p s rest := by
  rw [evalRule_guards hguards, if_pos h]

variable {key : List Selector} {set : FlowSet}

/-- A packet that does not differ from the owner clears nothing. -/
theorem clear_skipped {rest : List (List Expression)} (hscope : scope.all isGuard = true)
    (huser : (differs .skuid (.number socketOwner.uid) : Expression).holds p = false)
    (hgroup : ∀ gid, socketOwner.probeGid = some gid → (owned socketOwner).holds p = false ∨
      (differs .skgid (.number gid) : Expression).holds p = false) :
    evalChain size p s (clearRules socketOwner scope set key ++ rest) = evalChain size p s rest := by
  have hfirst : evalRule size p s
      (scope ++ [.differs .skuid (.number socketOwner.uid), .delete set key]) = .broke s := by
    rw [evalRule_guards hscope, evalRule_guard rfl, huser]
    split
    · rfl
    · rfl
  unfold clearRules
  rw [append_assoc, singleton_append, evalChain_of_broke hfirst]
  split
  · rfl
  · next gid hprobe =>
    have hsecond : evalRule size p s
        (scope ++ [owned socketOwner, .differs .skgid (.number gid), .delete set key]) =
          .broke s := by
      rw [evalRule_guards hscope, evalRule_guard rfl, evalRule_guard rfl]
      rcases hgroup gid hprobe with h | h <;> simp [h]
    rw [singleton_append, evalChain_of_broke hsecond]

theorem clear_owned {rest : List (List Expression)} (hscope : scope.all isGuard = true)
    (howned : (ownedSocket socketOwner).all (holds p) = true) :
    evalChain size p s (clearRules socketOwner scope set key ++ rest) = evalChain size p s rest := by
  obtain ⟨socket, hsocket, huid, hgid⟩ := ownedSocket_holds.mp howned
  refine clear_skipped hscope ?_ fun gid hprobe => .inr ?_
  · simp [holds, Selector.read, hsocket, huid]
  · simp [holds, Selector.read, hsocket, hgid gid hprobe]

def cleared (scope : List Expression) (set : FlowSet) (key : List Selector) (p : Packet)
    (s : State FlowSet CounterName) : State FlowSet CounterName :=
  if scope.all (holds p) then
    match readKey p key with
    | none => s
    | some value =>
      { s with table := s.table.withSet set ((s.table.sets set).filter (· ≠ value)) }
  else s

/-- **A packet of another owner clears the tuple that it reuses.** -/
theorem clear_foreign {rest : List (List Expression)} (hscope : scope.all isGuard = true)
    (hsocket : p.socket = some socket) (hforeign : ¬socketOwner.Owns socket) :
    evalChain size p s (clearRules socketOwner scope set key ++ rest) =
      evalChain size p (cleared scope set key p s) rest := by
  have hdelete : ∀ s : State FlowSet CounterName, scope.all (holds p) = true →
      (evalRule size p s [.delete set key] = .next (cleared scope set key p s) ∨
        evalRule size p s [.delete set key] = .broke (cleared scope set key p s)) := by
    intro s hholds
    unfold cleared
    rw [if_pos hholds, evalRule, eval]
    cases readKey p key with
    | none => exact inr rfl
    | some value => exact inl rfl
  have huser : (differs .skuid (.number socketOwner.uid) : Expression).holds p =
      decide (socket.uid ≠ socketOwner.uid) := by
    simp [holds, Selector.read, hsocket]
  have howned : (owned socketOwner).holds p = decide (socket.uid = socketOwner.uid) := by
    simp [owned, holds, Selector.read, hsocket]
  unfold clearRules
  rw [append_assoc, singleton_append]
  by_cases hholds : scope.all (holds p) = true
  · by_cases huid : socket.uid = socketOwner.uid
    · -- the user is the owner's, so the group is another one
      have hfirst : evalRule size p s
          (scope ++ [.differs .skuid (.number socketOwner.uid), .delete set key]) = .broke s := by
        rw [evalRule_held hscope hholds, evalRule_guard rfl, huser, if_neg (by simp [huid])]
      rw [evalChain_of_broke hfirst]
      split
      · next hprobe => exact absurd ⟨huid, fun gid hgid => by rw [hprobe] at hgid; cases hgid⟩ hforeign
      · next gid hprobe =>
        have hgid : socket.gid ≠ gid := by
          intro hgid
          refine hforeign ⟨huid, fun gid' hgid' => ?_⟩
          rw [hprobe] at hgid'
          rw [hgid, Option.some.inj hgid']
        have hgroup : (differs .skgid (.number gid) : Expression).holds p = true := by
          simp [holds, Selector.read, hsocket, hgid]
        have hsecond : evalRule size p s
            (scope ++ [owned socketOwner, .differs .skgid (.number gid), .delete set key]) =
            evalRule size p s [.delete set key] := by
          rw [evalRule_held hscope hholds, evalRule_guard rfl, howned, if_pos (by simp [huid]),
            evalRule_guard rfl, if_pos hgroup]
        rcases hdelete s hholds with hd | hd
        · exact evalChain_of_next (hsecond.trans hd)
        · exact evalChain_of_broke (hsecond.trans hd)
    · have hfirst : evalRule size p s
          (scope ++ [.differs .skuid (.number socketOwner.uid), .delete set key]) =
          evalRule size p s [.delete set key] := by
        rw [evalRule_held hscope hholds, evalRule_guard rfl, huser, if_pos (by simp [huid])]
      have hgroup : ∀ (gid : ℕ) (s : State FlowSet CounterName), evalRule size p s
          (scope ++ [owned socketOwner, .differs .skgid (.number gid), .delete set key]) =
          .broke s := by
        intro gid s
        rw [evalRule_held hscope hholds, evalRule_guard rfl, howned, if_neg (by simp [huid])]
      rcases hdelete s hholds with hd | hd
      · rw [evalChain_of_next (hfirst.trans hd)]
        split
        · rfl
        · rw [singleton_append, evalChain_of_broke (hgroup _ _)]
      · rw [evalChain_of_broke (hfirst.trans hd)]
        split
        · rfl
        · rw [singleton_append, evalChain_of_broke (hgroup _ _)]
  · have hcleared : cleared scope set key p s = s := if_neg hholds
    rw [hcleared, evalChain_of_broke (evalRule_broke hscope hholds)]
    split
    · rfl
    · rw [singleton_append, evalChain_of_broke (evalRule_broke hscope hholds)]

def counted (name : CounterName) (p : Packet) (s : State FlowSet CounterName) :
    State FlowSet CounterName :=
  { s with table.counters := count s.table.counters name p.length }

def routeMarked (routeMark : Option (BitVec 32 × BitVec 32)) (mark : BitVec 32) : BitVec 32 :=
  match routeMark with
  | none => mark
  | some (clearMask, fwmark) => (mark &&& clearMask) ||| fwmark

theorem transmit_eq (routeMark : Option (BitVec 32 × BitVec 32)) :
    ∃ actions, transmit routeMark = scope4 ++ member :: actions ∧
      ∀ (size : FlowSet → ℕ) (p : Packet) (s : State FlowSet CounterName),
        evalRule size p s actions =
          .returned { counted .tx p s with mark := routeMarked routeMark s.mark } := by
  cases routeMark with
  | none => exact ⟨[.counter .tx, .returns], rfl, fun _ _ _ => rfl⟩
  | some pair =>
    exact ⟨[.counter .tx, .mangleMark pair.1 pair.2, .returns], rfl, fun _ _ _ => rfl⟩

variable {value : List Value}

/-- A registered IPv4 packet is counted in `tx`, marked and accepted. -/
theorem transmit_registered (hscope : scope4.all (holds p) = true)
    (hkey : readKey p flowKey = some value) (hmem : value ∈ s.table.sets .ownedFlows) :
    evalRule size p s (transmit routeMark) =
      .returned { counted .tx p s with mark := routeMarked routeMark s.mark } := by
  obtain ⟨actions, hrule, hactions⟩ := transmit_eq routeMark
  rw [hrule, evalRule_held scope4_guards hscope, member, evalRule_member,
    if_pos ⟨value, hkey, hmem⟩, hactions]

theorem unregistered_broke {actions : List Expression}
    (h : ¬(scope4.all (holds p) = true ∧
      ∃ value, readKey p flowKey = some value ∧ value ∈ s.table.sets .ownedFlows)) :
    evalRule size p s (scope4 ++ member :: actions) = .broke s := by
  by_cases hscope : scope4.all (holds p) = true
  · rw [evalRule_held scope4_guards hscope, member, evalRule_member,
      if_neg fun hmem => h ⟨hscope, hmem⟩]
  · exact evalRule_broke scope4_guards hscope

theorem transmit_unregistered
    (h : ¬(scope4.all (holds p) = true ∧
      ∃ value, readKey p flowKey = some value ∧ value ∈ s.table.sets .ownedFlows)) :
    evalRule size p s (transmit routeMark) = .broke s := by
  obtain ⟨actions, hrule, -⟩ := transmit_eq routeMark
  rw [hrule]
  exact unregistered_broke h

theorem transmit6_registered (hscope : dns6Output.all (holds p) = true)
    (hkey : readKey p dns6Key = some value) (hmem : value ∈ s.table.sets .ownedDns6) :
    evalRule size p s transmit6 = .returned (counted .tx p s) := by
  rw [transmit6, evalRule_held dns6Output_guards hscope, dns6Member, evalRule_member,
    if_pos ⟨value, hkey, hmem⟩]
  rfl

theorem transmit6_unregistered
    (h : ¬(dns6Output.all (holds p) = true ∧
      ∃ value, readKey p dns6Key = some value ∧ value ∈ s.table.sets .ownedDns6)) :
    evalRule size p s transmit6 = .broke s := by
  rw [transmit6]
  by_cases hscope : dns6Output.all (holds p) = true
  · rw [evalRule_held dns6Output_guards hscope, dns6Member, evalRule_member,
      if_neg fun hmem => h ⟨hscope, hmem⟩]
  · exact evalRule_broke dns6Output_guards hscope

theorem unregistered_refuses (howned : (ownedSocket socketOwner).all (holds p) = true)
    (hfamily : p.family = .ipv4) :
    evalRule size p s (unregistered socketOwner) = .dropped (counted .faultUnregistered p s) := by
  rw [unregistered, append_assoc, singleton_append, evalRule_guard rfl,
    if_pos (ipv4_holds.mpr hfamily), evalRule_held (ownedSocket_guards _) howned]
  rfl

theorem unregistered_passes (hfamily : p.family ≠ .ipv4) :
    evalRule size p s (unregistered socketOwner) = .broke s := by
  rw [unregistered, append_assoc, singleton_append, evalRule_guard rfl,
    if_neg fun h => hfamily (ipv4_holds.mp h)]

theorem familyRefusal_refuses (howned : (ownedSocket socketOwner).all (holds p) = true) :
    evalRule size p s (familyRefusal socketOwner) = .dropped (counted .faultFamily p s) := by
  rw [familyRefusal, evalRule_held (ownedSocket_guards _) howned]
  rfl

theorem update_cases (hkey : readKey p key = some value) :
    (∃ elements, value ∈ elements ∧ evalRule size p s [.update set key] =
      .next { s with table := s.table.withSet set elements }) ∨
    (value ∉ s.table.sets set ∧ evalRule size p s [.update set key] = .broke s) := by
  rw [evalRule, eval, hkey]
  by_cases hmem : value ∈ s.table.sets set
  · refine inl ⟨s.table.sets set, hmem, ?_⟩
    simp [hmem, Table.withSet, evalRule]
  · by_cases hfits : (s.table.sets set).length < size set
    · refine inl ⟨value :: s.table.sets set, mem_cons_self, ?_⟩
      simp [hmem, hfits, evalRule]
    · refine inr ⟨hmem, ?_⟩
      simp [hmem, hfits]

def outputRules (socketOwner : NftSocketOwner) (routeMark : Option (BitVec 32 × BitVec 32)) :
    List (List Expression) :=
  register socketOwner :: (clear4 socketOwner ++ register6 socketOwner :: (clear6 socketOwner ++
    [transmit6, transmit routeMark, unregistered socketOwner, familyRefusal socketOwner]))

def faultCounters : List CounterName := [.faultFamily, .faultUnregistered, .faultEgress]

def Accounted (routeMark : Option (BitVec 32 × BitVec 32)) (p : Packet)
    (s : State FlowSet CounterName) (result : State FlowSet CounterName × Bool) : Prop :=
  (result.2 = true ∧ result.1.table.counters = count s.table.counters .tx p.length ∧
    result.1.mark = if p.family = .ipv4 then routeMarked routeMark s.mark else s.mark) ∨
  (result.2 = false ∧ ∃ fault ∈ faultCounters,
    result.1.table.counters = count s.table.counters fault p.length)

theorem accounted_ipv4 (howned : (ownedSocket socketOwner).all (holds p) = true)
    (hfamily : p.family = .ipv4) (s : State FlowSet CounterName) :
    Accounted routeMark p s (evalChain size p s (clear4 socketOwner ++ register6 socketOwner ::
      (clear6 socketOwner ++ [transmit6, transmit routeMark, unregistered socketOwner,
        familyRefusal socketOwner]))) := by
  have hdns : ¬dns6Output.all (holds p) = true := by
    intro h
    rw [dns6Output_ipv6 h] at hfamily
    cases hfamily
  have hregister6 : evalRule size p s (register6 socketOwner) = .broke s := by
    rw [register6, append_assoc]
    exact evalRule_broke dns6Output_guards hdns
  rw [clear4, clear_owned scope4_guards howned, evalChain_of_broke hregister6, clear6,
    clear_owned dns6Output_guards howned,
    evalChain_of_broke (transmit6_unregistered fun h => hdns h.1)]
  by_cases hmember : scope4.all (holds p) = true ∧
      ∃ value, readKey p flowKey = some value ∧ value ∈ s.table.sets .ownedFlows
  · obtain ⟨hscope, value, hkey, hmem⟩ := hmember
    rw [evalChain_of_returned (transmit_registered hscope hkey hmem)]
    refine inl ⟨rfl, rfl, ?_⟩
    rw [if_pos hfamily]
  · rw [evalChain_of_broke (transmit_unregistered hmember),
      evalChain_of_dropped (unregistered_refuses howned hfamily)]
    exact inr ⟨rfl, .faultUnregistered, by decide, rfl⟩

theorem accounted_ipv6 (howned : (ownedSocket socketOwner).all (holds p) = true)
    (hfamily : p.family ≠ .ipv4) (s : State FlowSet CounterName) :
    Accounted routeMark p s (evalChain size p s (clear6 socketOwner ++
      [transmit6, transmit routeMark, unregistered socketOwner, familyRefusal socketOwner])) := by
  rw [clear6, clear_owned dns6Output_guards howned]
  by_cases hmember : dns6Output.all (holds p) = true ∧
      ∃ value, readKey p dns6Key = some value ∧ value ∈ s.table.sets .ownedDns6
  · obtain ⟨hscope, value, hkey, hmem⟩ := hmember
    rw [evalChain_of_returned (transmit6_registered hscope hkey hmem)]
    refine inl ⟨rfl, rfl, ?_⟩
    rw [if_neg hfamily]
    rfl
  · rw [evalChain_of_broke (transmit6_unregistered hmember),
      evalChain_of_broke (transmit_unregistered fun h => hfamily (scope4_ipv4 h.1)),
      evalChain_of_broke (unregistered_passes hfamily),
      evalChain_of_dropped (familyRefusal_refuses howned)]
    exact inr ⟨rfl, .faultFamily, by decide, rfl⟩

theorem register_cases (hguards : guards.all isGuard = true) :
    ∃ s' : State FlowSet CounterName, s'.table.counters = s.table.counters ∧ s'.mark = s.mark ∧
      ∀ rest, evalChain size p s ((guards ++ [.update set key]) :: rest) =
        evalChain size p s' rest := by
  by_cases hholds : guards.all (holds p) = true
  · cases hkey : readKey p key with
    | none =>
      refine ⟨s, rfl, rfl, fun rest => evalChain_of_broke ?_⟩
      rw [evalRule_held hguards hholds, evalRule, eval, hkey]
    | some value =>
      have hupdate : (∃ elements, value ∈ elements ∧ evalRule size p s [.update set key] =
          .next { s with table := s.table.withSet set elements }) ∨
          (value ∉ s.table.sets set ∧ evalRule size p s [.update set key] = .broke s) :=
        update_cases hkey
      rcases hupdate with ⟨elements, -, h⟩ | ⟨-, h⟩
      · refine ⟨{ s with table := s.table.withSet set elements }, rfl, rfl,
          fun rest => evalChain_of_next ?_⟩
        rw [evalRule_held hguards hholds]
        exact h
      · refine ⟨s, rfl, rfl, fun rest => evalChain_of_broke ?_⟩
        rw [evalRule_held hguards hholds]
        exact h
  · exact ⟨s, rfl, rfl, fun rest => evalChain_of_broke (evalRule_broke hguards hholds)⟩

/-- **A packet of the owner is accounted for.** -/
theorem accounted_output (howned : (ownedSocket socketOwner).all (holds p) = true) :
    Accounted routeMark p s (evalChain size p s (outputRules socketOwner routeMark)) := by
  have hregister : ((scope4 ++ ownedSocket socketOwner).all isGuard) = true := by
    rw [all_append, scope4_guards, ownedSocket_guards]
    rfl
  have hregister6 : ((dns6Output ++ ownedSocket socketOwner).all isGuard) = true := by
    rw [all_append, dns6Output_guards, ownedSocket_guards]
    rfl
  obtain ⟨s₁, hcounters, hmark, hfirst⟩ :
      ∃ s₁ : State FlowSet CounterName, s₁.table.counters = s.table.counters ∧ s₁.mark = s.mark ∧
        ∀ rest, evalChain size p s
          (((scope4 ++ ownedSocket socketOwner) ++ [.update .ownedFlows flowKey]) :: rest) =
            evalChain size p s₁ rest := register_cases hregister
  have hrule : register socketOwner = (scope4 ++ ownedSocket socketOwner) ++
    [.update .ownedFlows flowKey] := rfl
  rw [outputRules, hrule, hfirst]
  unfold Accounted
  rw [← hcounters, ← hmark]
  by_cases hfamily : p.family = .ipv4
  · exact accounted_ipv4 howned hfamily s₁
  · obtain ⟨s₂, hcounters₂, hmark₂, hsecond⟩ :
        ∃ s₂ : State FlowSet CounterName, s₂.table.counters = s₁.table.counters ∧
          s₂.mark = s₁.mark ∧ ∀ rest, evalChain size p s₁
            (((dns6Output ++ ownedSocket socketOwner) ++ [.update .ownedDns6 dns6Key]) :: rest) =
              evalChain size p s₂ rest := register_cases hregister6
    have hrule6 : register6 socketOwner = (dns6Output ++ ownedSocket socketOwner) ++
      [.update .ownedDns6 dns6Key] := rfl
    rw [clear4, clear_owned scope4_guards howned, hrule6, hsecond, ← hcounters₂, ← hmark₂]
    exact accounted_ipv6 howned hfamily s₂

theorem ownedSocket_foreign (hsocket : p.socket = some socket) (hforeign : ¬socketOwner.Owns socket) :
    ¬(ownedSocket socketOwner).all (holds p) = true := by
  intro h
  obtain ⟨s, hs, howns⟩ := ownedSocket_holds.mp h
  rw [hsocket] at hs
  rw [← Option.some.inj hs] at howns
  exact hforeign howns

theorem foreign_broke (hguards : guards.all isGuard = true)
    (hfails : ¬(ownedSocket socketOwner).all (holds p) = true) :
    evalRule size p s (guards ++ ownedSocket socketOwner ++ rest) = .broke s := by
  refine evalRule_broke ?_ ?_
  · rw [all_append, hguards, ownedSocket_guards]
    rfl
  · rw [all_append, Bool.and_eq_true]
    exact fun h => hfails h.2

theorem cleared_counters : (cleared scope set key p s).table.counters = s.table.counters := by
  unfold cleared
  split
  · split
    · rfl
    · rfl
  · rfl

theorem cleared_mark : (cleared scope set key p s).mark = s.mark := by
  unfold cleared
  split
  · split
    · rfl
    · rfl
  · rfl

theorem not_mem_cleared (hscope : scope.all (holds p) = true) (hkey : readKey p key = some value) :
    value ∉ (cleared scope set key p s).table.sets set := by
  unfold cleared
  rw [if_pos hscope, hkey]
  simp [Table.withSet]

theorem cleared_subset {set set' : FlowSet}
    (h : value ∈ (cleared scope set key p s).table.sets set') : value ∈ s.table.sets set' := by
  unfold cleared at h
  split at h
  · split at h
    · exact h
    · by_cases hset : set' = set
      · subst hset
        simp only [Table.withSet, Function.update_self] at h
        exact (mem_filter.mp h).1
      · simpa [Table.withSet, Function.update_of_ne hset] using h
  · exact h

/-- **A packet of another owner passes the output chain**: it is accepted, not marked and not
counted, and its tuple is no longer registered. -/
theorem foreign_output (hsocket : p.socket = some socket) (hforeign : ¬socketOwner.Owns socket) :
    ∃ s', evalChain size p s (outputRules socketOwner routeMark) = (s', true) ∧
      s'.table.counters = s.table.counters ∧ s'.mark = s.mark ∧
      ∀ value, scope4.all (holds p) = true → readKey p flowKey = some value →
        value ∉ s'.table.sets .ownedFlows := by
  have hfails := ownedSocket_foreign hsocket hforeign
  obtain ⟨s₁, hs₁⟩ : ∃ s₁, cleared scope4 .ownedFlows flowKey p s = s₁ := ⟨_, rfl⟩
  obtain ⟨s₂, hs₂⟩ : ∃ s₂, cleared dns6Output .ownedDns6 dns6Key p s₁ = s₂ := ⟨_, rfl⟩
  have hnot : ¬(scope4.all (holds p) = true ∧
      ∃ value, readKey p flowKey = some value ∧ value ∈ s₂.table.sets .ownedFlows) := by
    rintro ⟨hscope, value, hkey, hmem⟩
    rw [← hs₂] at hmem
    have hmem' := cleared_subset hmem
    rw [← hs₁] at hmem'
    exact not_mem_cleared hscope hkey hmem'
  have hnot6 : ¬(dns6Output.all (holds p) = true ∧
      ∃ value, readKey p dns6Key = some value ∧ value ∈ s₂.table.sets .ownedDns6) := by
    rintro ⟨hscope, value, hkey, hmem⟩
    rw [← hs₂] at hmem
    exact not_mem_cleared hscope hkey hmem
  refine ⟨s₂, ?_, ?_, ?_, fun value hscope hkey hmem => hnot ⟨hscope, value, hkey, hmem⟩⟩
  · have hregister : evalRule size p s (register socketOwner) = .broke s :=
      foreign_broke scope4_guards hfails
    have hregister6 : evalRule size p s₁ (register6 socketOwner) = .broke s₁ :=
      foreign_broke dns6Output_guards hfails
    have hunregistered : evalRule size p s₂ (unregistered socketOwner) = .broke s₂ :=
      foreign_broke ipv4_guards hfails
    have hrefusal : evalRule size p s₂ (familyRefusal socketOwner) = .broke s₂ :=
      evalRule_broke (ownedSocket_guards _) hfails
    rw [outputRules, evalChain_of_broke hregister, clear4,
      clear_foreign scope4_guards hsocket hforeign, hs₁, evalChain_of_broke hregister6, clear6,
      clear_foreign dns6Output_guards hsocket hforeign, hs₂,
      evalChain_of_broke (transmit6_unregistered hnot6),
      evalChain_of_broke (transmit_unregistered hnot), evalChain_of_broke hunregistered,
      evalChain_of_broke hrefusal]
    rfl
  · rw [← hs₂, cleared_counters, ← hs₁, cleared_counters]
  · rw [← hs₂, cleared_mark, ← hs₁, cleared_mark]

end CakeAutorate.Accounting
