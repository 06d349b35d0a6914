/-
# The accounting of owned flows

`owned_route_rules.rs`: the batch of nft commands that registers the flows of a socket owner, counts
their packets and refuses what it cannot account, and the guard that is appended to it, which refuses
what leaves through another device.  The source renders the commands as JSON; here they are data.

The packets that are sent pass the output chain and, if it accepts them, the egress chain of the
device they are routed to.  The packets that are received pass the input chain.
-/

import CakeAutorate.Accounting.Nft
import CakeAutorate.Machine.Run
import Mathlib.Data.Int.Notation

namespace CakeAutorate.Accounting

open Nft

inductive NftSocketOwner where
  | backendUid (uid : ℕ)
  | probeRootGid (gid : ℕ)

/-- The sets of a table. -/
inductive FlowSet where
  | ownedFlows
  | ownedDns6
  deriving DecidableEq

/-- The counters of a table. -/
inductive CounterName where
  | rx
  | tx
  | faultFamily
  | faultUnregistered
  | faultEgress
  deriving DecidableEq

/-- The chains of a table. -/
inductive Chain where
  | output
  | input
  | egress
  deriving DecidableEq

abbrev Expression := Expr FlowSet CounterName

/-- A command of a batch. -/
inductive Command where
  | createTable (name comment : String)
  | addSet (name : FlowSet) (type : List String) (size : ℕ)
  | addCounter (name : CounterName) (comment : String)
  | addChain (name : Chain) (type hook : String) (priority : ℤ)
  | addRule (chain : Chain) (expressions : List Expression)
  deriving DecidableEq

def maxAccountingFlows : ℕ := 4096

def flowAccountingOwnerSuffix : String := ":flow-v2"

def NftSocketOwner.uid : NftSocketOwner → ℕ
  | .backendUid uid => uid
  | .probeRootGid _ => 0

def NftSocketOwner.probeGid : NftSocketOwner → Option ℕ
  | .backendUid _ => none
  | .probeRootGid gid => some gid

/-- `key`: the original tuple of an IPv4 flow. -/
def flowKey : List Selector :=
  [.ctSource .ipv4, .ctDestination .ipv4, .ctProtocol, .ctSourcePort, .ctDestinationPort]

def dns6Key : List Selector := [.ctProtocol, .ctSourcePort, .ctDestinationPort]

def ipv4 : Expression := .equals .nfproto (.family .ipv4)

def defaultZone : Expression := .equals .ctZone (.number 0)

def original : Expression := .equals .ctDirection (.direction .original)

def replyDirection : Expression := .equals .ctDirection (.direction .reply)

def owned (owner : NftSocketOwner) : Expression := .equals .skuid (.number owner.uid)

/-- `owned` and, for a probe, its group. -/
def ownedSocket (owner : NftSocketOwner) : List Expression :=
  match owner.probeGid with
  | none => [owned owner]
  | some gid => [owned owner, .equals .skgid (.number gid)]

def member : Expression := .member flowKey .ownedFlows

def dns6Member : Expression := .member dns6Key .ownedDns6

/-- The protocols `tcp` and `udp`. -/
def tcpUdp : List Value := [.number 6, .number 17]

/-- `dns6_scope`: DNS from `::1` to `::1`. -/
def dns6Scope : List Expression :=
  [.equals .nfproto (.family .ipv6), defaultZone, .equals (.ctSource .ipv6) (.number 1),
    .equals (.ctDestination .ipv6) (.number 1), .oneOf .ctProtocol tcpUdp,
    .equals .ctDestinationPort (.number 53)]

def dns6Output : List Expression := dns6Scope ++ [.equals .oifname (.device "lo"), original]

/-- `transmit`: a registered flow is counted and, with a route mark, marked. -/
def transmit (routeMark : Option (BitVec 32 × BitVec 32)) : List Expression :=
  [ipv4, defaultZone, original, member, .counter .tx] ++ (match routeMark with
    | none => []
    | some (clearMask, fwmark) => [.mangleMark clearMask fwmark]) ++ [.returns]

section

variable (owner : NftSocketOwner)

def register : List Expression :=
  [ipv4, defaultZone, original] ++ ownedSocket owner ++ [.update .ownedFlows flowKey]

def unregistered : List Expression :=
  [ipv4] ++ ownedSocket owner ++ [.counter .faultUnregistered, .drop]

/-- `family`. -/
def familyRefusal : List Expression :=
  ownedSocket owner ++ [.counter .faultFamily, .drop]

def clearRules (scope : List Expression) (set : FlowSet) (key : List Selector) :
    List (List Expression) :=
  [scope ++ [.differs .skuid (.number owner.uid), .delete set key]] ++ match owner.probeGid with
    | none => []
    | some gid => [scope ++ [owned owner, .differs .skgid (.number gid), .delete set key]]

def register6 : List Expression :=
  dns6Output ++ ownedSocket owner ++ [.update .ownedDns6 dns6Key]

end

/-- `dns6_output`, once it counts. -/
def transmit6 : List Expression := dns6Output ++ [dns6Member, .counter .tx, .returns]

def receive6 : List Expression :=
  dns6Scope ++ [.equals .iifname (.device "lo"), replyDirection, dns6Member, .counter .rx]

def receive : List Expression := [ipv4, defaultZone, replyDirection, member, .counter .rx]

/-- `rules` of `nft_owned_route_pin_batch`. -/
def accountingRules (owner : NftSocketOwner) (routeMark : Option (BitVec 32 × BitVec 32)) :
    List Command :=
  [.addRule .output (register owner)] ++
  (clearRules owner [ipv4, defaultZone, original] .ownedFlows flowKey).map (.addRule .output) ++
  [.addRule .output (register6 owner)] ++
  (clearRules owner dns6Output .ownedDns6 dns6Key).map (.addRule .output) ++
  [.addRule .output transmit6, .addRule .input receive6, .addRule .output (transmit routeMark),
    .addRule .output (unregistered owner), .addRule .output (familyRefusal owner),
    .addRule .input receive]

def nftOwnedRoutePinBatch (table owner : String) (socketOwner : NftSocketOwner)
    (routeMark : Option (BitVec 32 × BitVec 32)) : List Command :=
  [.createTable table owner,
    .addSet .ownedFlows ["ipv4_addr", "ipv4_addr", "inet_proto", "inet_service", "inet_service"]
      maxAccountingFlows] ++
  ([.rx, .tx, .faultFamily, .faultUnregistered, .faultEgress] : List CounterName).map
    (fun name => .addCounter name (owner ++ flowAccountingOwnerSuffix)) ++
  [.addChain .output "route" "output" (-148), .addChain .input "filter" "input" (-148),
    .addSet .ownedDns6 ["inet_proto", "inet_service", "inet_service"] maxAccountingFlows] ++
  accountingRules socketOwner routeMark

/-- `is_safe_identifier` of `routing.rs`. -/
def isSafeIdentifier (value : String) : Bool :=
  !value.isEmpty && decide (value.utf8ByteSize ≤ 64) &&
    value.toList.all fun c => c.isAlphanum || ['-', '_', '.', ':', '@'].contains c

def allowDns (owner : NftSocketOwner) (f : Family) (address : ℕ) : List Expression :=
  ownedSocket owner ++
    [.equals .oifname (.device "lo"), .equals (.payloadDestination f) (.number address),
      .oneOf .l4proto tcpUdp, .equals .ctDestinationPort (.number 53), .returns]

def wrongDevice (device : String) : Expression := .differs .oifname (.device device)

def deny : List Expression := [.counter .faultEgress, .drop]

/-- `late`: a packet of a registered flow that has outlived its socket. -/
def late (device : String) : List Expression :=
  [ipv4, defaultZone, original, member, .differs .oifname (.device "lo"), wrongDevice device] ++ deny

/-- `127.0.0.1`. -/
def loopback4 : ℕ := 127 * 16777216 + 1

def nftEgressGuardBatch (batch : List Command) (socketOwner : NftSocketOwner) (device : String) :
    Except String (List Command) :=
  if isSafeIdentifier device = false then .error "speedtest-egress-device-invalid"
  else
    .ok (batch ++
      [.addChain .egress "filter" "postrouting" 300,
        .addRule .egress (allowDns socketOwner .ipv4 loopback4),
        .addRule .egress (allowDns socketOwner .ipv6 1),
        .addRule .egress (ownedSocket socketOwner ++ [wrongDevice device] ++ deny),
        .addRule .egress (late device)])

/-- The batch of `install_owned_route_pin_with`. -/
def routePinBatch (table owner : String) (socketOwner : NftSocketOwner)
    (routeMark : Option (BitVec 32 × BitVec 32)) (device : String) : Except String (List Command) :=
  nftEgressGuardBatch (nftOwnedRoutePinBatch table owner socketOwner routeMark) socketOwner device

def rulesOf (chain : Chain) (commands : List Command) : List (List Expression) :=
  commands.filterMap fun command =>
    match command with
    | .addRule c expressions => if c = chain then some expressions else none
    | .createTable _ _ | .addSet _ _ _ | .addCounter _ _ | .addChain _ _ _ _ => none

def sizeOf (commands : List Command) (set : FlowSet) : ℕ :=
  (commands.findSome? fun command =>
    match command with
    | .addSet name _ size => if name = set then some size else none
    | .createTable _ _ | .addCounter _ _ | .addChain _ _ _ _ | .addRule _ _ => none).getD 0

abbrev Ledger := Table FlowSet CounterName

/-- What a chain makes of a packet. -/
structure Passage where
  ledger : Ledger
  mark : BitVec 32
  accepted : Bool

def pass (commands : List Command) (chain : Chain) (t : Ledger) (p : Packet) : Passage :=
  let result := evalChain (sizeOf commands) p ⟨t, p.mark⟩ (rulesOf chain commands)
  ⟨result.1.table, result.1.mark, result.2⟩

/-- Where a packet is routed to: the device and the destination that it has after the output
chain. -/
structure Route where
  device : String
  destination : ℕ

def routed (p : Packet) (mark : BitVec 32) (r : Route) : Packet :=
  { p with outputDevice := r.device, destination := r.destination, mark }

/-- What happens to the table: a packet is sent to where it is routed, or one is received. -/
inductive Event where
  | send (p : Packet) (r : Route)
  | receive (p : Packet)

def send (commands : List Command) (t : Ledger) (p : Packet) (r : Route) : Passage :=
  let out := pass commands .output t p
  if out.accepted then pass commands .egress out.ledger (routed p out.mark r) else out

def step (commands : List Command) (t : Ledger) : Event → Ledger
  | .send p r => (send commands t p r).ledger
  | .receive p => (pass commands .input t p).ledger

def NftSocketOwner.Owns (owner : NftSocketOwner) (s : Socket) : Prop :=
  s.uid = owner.uid ∧ ∀ gid, owner.probeGid = some gid → s.gid = gid

end CakeAutorate.Accounting
