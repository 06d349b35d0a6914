/-
# Operation requests

The data model of `operations/protocol.rs`: the words of each enumeration, the
identity and the route of an operation, the request, and what `validate` accepts.
How addresses are written is the standard library's; `AddressText` says what is
used of it, that reading inverts writing.
-/

import CakeAutorate.Autotune.Context

namespace CakeAutorate.Protocol

open Wire
open Autotune (AutotuneProfile AccessMedium AccessEvidenceSource CapacityLearningPolicy)

/-- The octets of an address. -/
structure Ipv4Addr where
  a : UInt8
  b : UInt8
  c : UInt8
  d : UInt8
  deriving DecidableEq

/-- The address as a number. -/
def Ipv4Addr.bits (ip : Ipv4Addr) : ℕ :=
  ((ip.a.toNat * 256 + ip.b.toNat) * 256 + ip.c.toNat) * 256 + ip.d.toNat

def Ipv4Addr.isLoopback (ip : Ipv4Addr) : Bool := ip.a == 127

def Ipv4Addr.isLinkLocal (ip : Ipv4Addr) : Bool := ip.a == 169 && ip.b == 254

/-- An address of either family. -/
inductive IpAddr where
  | v4 (ip : Ipv4Addr)
  | v6 (ip : BitVec 128)
  deriving DecidableEq

/-- `Display` and `FromStr` of addresses: reading inverts writing, and an address
is written with at most 39 letters, digits, dots and colons. -/
structure AddressText where
  displayV4 : Ipv4Addr → Text
  parseV4 : Text → Option Ipv4Addr
  display : IpAddr → Text
  parse : Text → Option IpAddr
  parseV4_displayV4 : ∀ ip, parseV4 (displayV4 ip) = some ip
  parse_display : ∀ ip, parse (display ip) = some ip
  displayV4_ne_nil : ∀ ip, displayV4 ip ≠ []
  display_ne_nil : ∀ ip, display ip ≠ []
  displayV4_chars : ∀ ip, ∀ c ∈ displayV4 ip, isAsciiAlphanumeric c = true ∨ c = '.'
  display_chars : ∀ ip, ∀ c ∈ display ip, isAsciiAlphanumeric c = true ∨ c = '.' ∨ c = ':'
  displayV4_length : ∀ ip, (displayV4 ip).length ≤ 15
  display_length : ∀ ip, (display ip).length ≤ 39

/-- How much traffic an operation may cause. -/
inductive TrafficPolicy where
  | capped (maxBytes : UInt64)
  | unlimited
  deriving DecidableEq

def maxTrafficBudgetBytes : ℕ := 2 ^ 40

namespace TrafficPolicy

/-- `limit_bytes`. -/
def limitBytes : TrafficPolicy → Option UInt64
  | .capped maxBytes => some maxBytes
  | .unlimited => none

def validate (p : TrafficPolicy) : Except String Unit :=
  check (!p.limitBytes.any fun limit => decide (limit.toNat > maxTrafficBudgetBytes))
    "traffic budget must not exceed 1099511627776 bytes"

def isEmpty : TrafficPolicy → Bool
  | .capped maxBytes => maxBytes == 0
  | .unlimited => false

/-- `exceeded`. -/
def exceeded (p : TrafficPolicy) (consumedBytes : UInt64) : Bool :=
  match p with
  | .capped maxBytes => decide (consumedBytes > maxBytes)
  | .unlimited => false

end TrafficPolicy

/-- What is asked for. -/
inductive OperationKind where
  | fullAutotune
  | automaticRating
  | guidedRating
  | speedtest
  deriving DecidableEq

def OperationKind.asStr : OperationKind → String
  | .fullAutotune => "full_autotune"
  | .automaticRating => "automatic_rating"
  | .guidedRating => "guided_rating"
  | .speedtest => "speedtest"

def OperationKind.parse : Text → Option OperationKind :=
  ofWord [("full_autotune", .fullAutotune), ("automatic_rating", .automaticRating),
    ("guided_rating", .guidedRating), ("speedtest", .speedtest)]

/-- Who asks. -/
inductive OperationOrigin where
  | luci
  | scheduler
  | recovery
  | internal
  deriving DecidableEq

def OperationOrigin.asStr : OperationOrigin → String
  | .luci => "luci"
  | .scheduler => "scheduler"
  | .recovery => "recovery"
  | .internal => "internal"

def OperationOrigin.parse : Text → Option OperationOrigin :=
  ofWord [("luci", .luci), ("scheduler", .scheduler), ("recovery", .recovery),
    ("internal", .internal)]

/-- Whether the target is managed already. -/
inductive OperationTargetState where
  | existingManaged
  | absentBootstrap
  deriving DecidableEq

def OperationTargetState.asStr : OperationTargetState → String
  | .existingManaged => "existing_managed"
  | .absentBootstrap => "absent_bootstrap"

def OperationTargetState.parse : Text → Option OperationTargetState :=
  ofWord [("existing_managed", .existingManaged), ("absent_bootstrap", .absentBootstrap)]

/-- How the route is chosen. -/
inductive OperationRouteMode where
  | main
  | mwan3
  | explicit
  deriving DecidableEq

def OperationRouteMode.asStr : OperationRouteMode → String
  | .main => "main"
  | .mwan3 => "mwan3"
  | .explicit => "explicit"

def OperationRouteMode.parse : Text → Option OperationRouteMode :=
  ofWord [("main", .main), ("mwan3", .mwan3), ("explicit", .explicit)]

/-- Whether a raw measurement is made. -/
inductive CalibrationStrategy where
  | shapedOnly
  | fullRaw
  | reuseTrusted
  deriving DecidableEq

def CalibrationStrategy.asStr : CalibrationStrategy → String
  | .shapedOnly => "shaped_only"
  | .fullRaw => "full_raw"
  | .reuseTrusted => "reuse_trusted"

def CalibrationStrategy.parse : Text → Option CalibrationStrategy :=
  ofWord [("shaped_only", .shapedOnly), ("full_raw", .fullRaw), ("reuse_trusted", .reuseTrusted)]

/-- The directions of a speed test. -/
inductive SpeedtestDirection where
  | download
  | upload
  | both
  deriving DecidableEq

def SpeedtestDirection.asStr : SpeedtestDirection → String
  | .download => "download"
  | .upload => "upload"
  | .both => "both"

def SpeedtestDirection.parse : Text → Option SpeedtestDirection :=
  ofWord [("download", .download), ("upload", .upload), ("both", .both)]

/-- What a test leaves of the shaping. -/
inductive SpeedtestTopology where
  | current
  | unshaped
  deriving DecidableEq

def SpeedtestTopology.asStr : SpeedtestTopology → String
  | .current => "current"
  | .unshaped => "unshaped"

def SpeedtestTopology.parse : Text → Option SpeedtestTopology :=
  ofWord [("current", .current), ("unshaped", .unshaped)]

/-- Exactly so many lower-case digits, base 16. -/
def lowerHex (length : ℕ) (value : Text) : Bool :=
  byteLength value == length && value.all fun c => ('0' ≤ c && c ≤ '9') || ('a' ≤ c && c ≤ 'f')

/-- `require_lower_hex`. -/
def requireLowerHex (name : String) (value : Text) (length : ℕ) : Except String Unit :=
  check (lowerHex length value)
    (name ++ " must contain exactly " ++ toString length ++ " lowercase hexadecimal characters")

/-- Letters, digits and the given punctuation. -/
def safeIdentifier (minimum maximum : ℕ) (punctuation : String) (value : Text) : Bool :=
  decide (minimum ≤ byteLength value) && decide (byteLength value ≤ maximum) &&
    value.all fun c => isAsciiAlphanumeric c || (lit punctuation).contains c

/-- `require_safe_identifier`. -/
def requireSafeIdentifier (name : String) (value : Text) (minimum maximum : ℕ)
    (punctuation : String) : Except String Unit :=
  check (safeIdentifier minimum maximum punctuation value)
    (name ++ " contains unsupported characters or length")

/-- `validate_uci_section`. -/
def validateUciSection (section_ : Text) : Except String Unit :=
  check (!(section_.isEmpty || decide (byteLength section_ > 64)
    || section_.any fun c => !isAsciiAlphanumeric c && c != '_'))
    "managed SQM section name is invalid"

/-- `ok_or_else`. -/
def orError {α : Type} (value : Option α) (error : String) : Except String α :=
  match value with
  | some a => .ok a
  | none => .error error

theorem orError_eq_ok {α : Type} {value : Option α} {error : String} {a : α} :
    orError value error = .ok a ↔ value = some a := by
  cases value <;> simp [orError]

theorem orError_bind_ok {α β : Type} {value : Option α} {error : String}
    {k : α → Except String β} {b : β} :
    (orError value error >>= k) = .ok b ↔ ∃ a, value = some a ∧ k a = .ok b := by
  cases value <;> simp [orError, bind, Except.bind]

/-- The job, and the fingerprints of what it was asked about. -/
structure OperationIdentity where
  jobId : Text
  jobToken : Text
  instance_ : Text
  operation : OperationKind
  targetInterface : Text
  routeFingerprint : Text
  configFingerprint : Text
  sqmFingerprint : Text

def OperationIdentity.validate (i : OperationIdentity) : Except String Unit := do
  requireLowerHex "job_id" i.jobId 32
  requireLowerHex "job_token" i.jobToken 64
  requireSafeIdentifier "instance" i.instance_ 1 64 "_-"
  requireSafeIdentifier "target_interface" i.targetInterface 1 64 "._:@-"
  requireLowerHex "route_fingerprint" i.routeFingerprint 64
  requireLowerHex "config_fingerprint" i.configFingerprint 64
  requireLowerHex "sqm_fingerprint" i.sqmFingerprint 64

/-- The route that an operation is bound to. -/
structure OperationRouteIdentity where
  dnsServer : Option Ipv4Addr
  deviceIfindex : Option UInt32
  mode : OperationRouteMode
  mwan3Member : Option Text
  l3Device : Text
  sourceIp : Option IpAddr
  fwmark : Option UInt32
  routingTable : Option UInt32
  fwmarkMask : Option UInt32
  deriving DecidableEq

variable (net : AddressText)

/-- `explicit_dns_server`. -/
def explicitDnsServer (mode value : Text) : Except String (Option Ipv4Addr) := do
  if value.isEmpty then
    return none
  check (mode == lit "explicit") "route_dns_ipv4 requires explicit routing"
  let ip ← orError (net.parseV4 value) "route_dns_ipv4 must be an IPv4 address"
  check (!(ip.a == 0 || decide (ip.a ≥ 224) || ip.isLoopback || ip.isLinkLocal))
    "route_dns_ipv4 requires a non-loopback unicast server"
  return some ip

/-- A unicast IPv4 source. -/
def sourceValid : Option IpAddr → Bool
  | some (.v4 source) => source.a != 0 && !source.isLoopback && decide (source.a < 224)
  | _ => false

namespace OperationRouteIdentity

variable (r : OperationRouteIdentity)

/-- `validate`, the DNS server. -/
def validateDns : Except String Unit := do
  if let some server := r.dnsServer then
    let _ ← explicitDnsServer net (lit r.mode.asStr) (net.displayV4 server)

/-- `validate`, the mark mask. -/
def validateMask : Except String Unit := do
  if let some mask := r.fwmarkMask then
    check (!(r.mode == .main || mask == 0
      || (match r.fwmark with
        | none => true
        | some mark => mark == 0 || mark &&& ~~~mask != 0)))
      "route mask requires a nonzero contained policy mark"

/-- `validate`, what a mode requires. -/
def validateMode : Except String Unit :=
  match r.mode, r.mwan3Member with
  | .explicit, none =>
    check (!(!sourceValid r.sourceIp || r.deviceIfindex.isNone || r.fwmarkMask.isNone
      || !r.routingTable.any fun table => table != 0))
      "explicit route requires source, link, table and masked mark authority"
  | .explicit, some _ => throw "explicit route must not carry an mwan3 member"
  | .main, none => pure ()
  | .mwan3, some member => requireSafeIdentifier "mwan3_member" member 1 64 "_-"
  | .main, some _ => throw "main route must not carry an mwan3 member"
  | .mwan3, none => throw "mwan3 route requires a member"

def validate : Except String Unit := do
  r.validateDns net
  requireSafeIdentifier "l3_device" r.l3Device 1 64 "._:@-"
  check (!r.deviceIfindex.any fun index => index == 0 || r.fwmarkMask.isNone)
    "route link witness requires a positive index and policy mask"
  r.validateMask
  r.validateMode

end OperationRouteIdentity

/-- The rates that the traffic is planned with. -/
structure AutotuneTrafficPlan where
  downloadKbps : UInt64
  uploadKbps : UInt64

/-- `MAX_RATE_KBPS`, also the bound of the planning rates. -/
def maxRateKbps : ℕ := 100000000

def AutotuneTrafficPlan.validate (p : AutotuneTrafficPlan) : Except String Unit :=
  check (decide (1 ≤ p.downloadKbps.toNat) && decide (p.downloadKbps.toNat ≤ maxRateKbps)
    && decide (1 ≤ p.uploadKbps.toNat) && decide (p.uploadKbps.toNat ≤ maxRateKbps))
    "Auto-Tune planning rates must be in 1..=100000000 kbps"

/-- `OperationRequest`: everything an operation is started with. -/
structure OperationRequest where
  identity : OperationIdentity
  createdUnixMs : UInt64
  deadlineUnixMs : UInt64
  origin : OperationOrigin
  backend : Text
  speedtestDirection : Option SpeedtestDirection
  speedtestServerId : Option UInt64
  speedtestTopology : Option SpeedtestTopology
  route : OperationRouteIdentity
  targetState : OperationTargetState
  capturePolicy : Option AutotuneCapturePolicyId
  managedSqmSection : Option Text
  profile : Option AutotuneProfile
  strategy : Option CalibrationStrategy
  accessMedium : Option AccessMedium
  accessSource : Option AccessEvidenceSource
  accessConfidencePercent : UInt8
  capacityLearningPolicy : Option CapacityLearningPolicy
  serviceDlCapKbps : Option UInt64
  serviceUlCapKbps : Option UInt64
  allowSqmDisable : Bool
  allowActiveTraffic : Bool
  scheduledAutoApplyRequested : Bool
  trafficBudget : TrafficPolicy
  trafficPolicyExplicit : Bool
  trafficPlan : Option AutotuneTrafficPlan
  serverFailureRetries : Option UInt8

def maxServerFailureRetries : UInt8 := 10

namespace OperationRequest

variable (r : OperationRequest)

/-- Only Full Auto-Tune has a context. -/
def rejectAutotuneContext : Except String Unit :=
  check (!(r.accessMedium.isSome || r.accessSource.isSome || r.accessConfidencePercent != 0
    || r.capacityLearningPolicy.isSome || r.serviceDlCapKbps.isSome || r.serviceUlCapKbps.isSome))
    "only Full Auto-Tune may carry access context"

def rejectSpeedtestStopAuthorityOrAutotuneContext : Except String Unit := do
  let stopAuthority := r.serviceDlCapKbps.isSome || r.serviceUlCapKbps.isSome
  if !stopAuthority then
    return ← r.rejectAutotuneContext
  check (!(r.identity.operation != .speedtest || !r.trafficPolicyExplicit
    || r.trafficBudget == .unlimited))
    "only an explicit capped Speedtest may carry stopping rate authority"
  check (!(r.accessMedium.isSome || r.accessSource.isSome || r.accessConfidencePercent != 0
    || r.capacityLearningPolicy.isSome))
    "only Full Auto-Tune may carry access context"

/-- `validate`, the retries. -/
def validateRetries : Except String Unit := do
  if let some retries := r.serverFailureRetries then
    check (retries ≤ maxServerFailureRetries) "server failure retries must be between 0 and 10"
    check (r.identity.operation == .fullAutotune)
      "only Full Auto-Tune may carry server failure retries"

/-- `validate`, the planning rates. -/
def validatePlan : Except String Unit := do
  if let some plan := r.trafficPlan then
    plan.validate
    check (!(!r.trafficPolicyExplicit || r.identity.operation != .fullAutotune
      || r.origin == .scheduler))
      "planning rates require an explicit non-scheduled Full Auto-Tune request"

/-- `validate`, times and traffic. -/
def validateTraffic : Except String Unit := do
  check (r.createdUnixMs != 0) "created_unix_ms must be non-zero"
  check (r.createdUnixMs ≤ r.deadlineUnixMs) "deadline_unix_ms must not precede creation"
  r.trafficBudget.validate
  r.validatePlan
  check (!(r.trafficBudget == .unlimited && (!r.trafficPolicyExplicit || r.origin == .scheduler)))
    "unlimited traffic requires explicit non-scheduled request policy"
  check (!(r.scheduledAutoApplyRequested
    && (r.origin != .scheduler || r.identity.operation != .fullAutotune)))
    "scheduled Auto-Apply authority requires a scheduler Full Auto-Tune request"

/-- `validate`, the target state. -/
def validateTarget : Except String Unit := do
  if r.targetState == .absentBootstrap then
    check (r.identity.operation == .fullAutotune || r.identity.operation == .speedtest)
      "absent bootstrap target state is valid only for Full Auto-Tune or Speedtest"
    check (r.origin == .luci) "absent bootstrap target state requires a LuCI operation origin"
    check (!r.scheduledAutoApplyRequested)
      "absent bootstrap target state cannot request scheduled Auto-Apply"
    let plannedSqmSection ← orError r.managedSqmSection
      "absent bootstrap target state requires a planned managed SQM section"
    validateUciSection plannedSqmSection
    let policy ← orError r.capturePolicy
      "absent bootstrap target state requires an explicit capture policy"
    let _ ← policy.expand
  else
    check r.capturePolicy.isNone
      "only an absent bootstrap target may carry capture policy authority"

/-- `validate`, a Full Auto-Tune. -/
def validateFullAutotune : Except String Unit := do
  check (!(r.speedtestDirection.isSome || r.speedtestTopology.isSome))
    "Full Auto-Tune selects its test directions internally"
  check (r.speedtestServerId != some 0) "Full Auto-Tune speed-test server ID must be positive"
  check (!(r.profile.isNone || r.strategy.isNone)) "Full Auto-Tune requires a profile and strategy"
  check (!r.trafficBudget.isEmpty) "Full Auto-Tune requires a non-zero traffic budget"
  check (!(r.accessMedium.isNone || r.accessSource.isNone || r.capacityLearningPolicy.isNone))
    "Full Auto-Tune requires an explicit access context"
  check (r.accessConfidencePercent ≤ 100) "access confidence must be between 0 and 100"
  let managedSqmSection ← orError r.managedSqmSection
    "Full Auto-Tune requires the attested managed SQM section"
  requireSafeIdentifier "managed_sqm_section" managedSqmSection 1 64 "_-"

/-- `validate`, what a Speedtest carries and an Automatic Rating does not. -/
def validateSpeedtest : Except String Unit := do
  if r.identity.operation == .speedtest then
    check r.speedtestDirection.isSome "Speedtest requires an explicit direction"
    check r.speedtestTopology.isSome "Speedtest requires an explicit topology"
    check (r.speedtestServerId != some 0) "Speedtest server ID must be positive"
  else
    check (!(r.speedtestDirection.isSome || r.speedtestServerId.isSome || r.speedtestTopology.isSome))
      "only Speedtest may carry speed-test direction or server ID"

/-- `validate`, an Automatic Rating or a Speedtest. -/
def validateGenerated : Except String Unit := do
  check (!(r.profile.isSome || r.strategy.isSome))
    "only Full Auto-Tune may carry a profile or calibration strategy"
  check (!r.allowSqmDisable) "only Full Auto-Tune may allow SQM disable"
  check (!r.trafficBudget.isEmpty) "generated-traffic operation requires a non-zero budget"
  r.rejectSpeedtestStopAuthorityOrAutotuneContext
  check (!(r.identity.operation == .automaticRating && r.managedSqmSection.isSome))
    "Rating must not carry a managed SQM section"
  check (!(r.identity.operation == .speedtest && r.targetState == .existingManaged
    && r.managedSqmSection.isSome))
    "existing-instance Speedtest must not carry a planned SQM section"
  check (match r.route.sourceIp with
    | some (.v4 _) => true
    | _ => false)
    "generated-traffic operation requires an explicit IPv4 source"
  r.validateSpeedtest

/-- `validate`, a Guided Rating. -/
def validateGuided : Except String Unit := do
  check (!(r.profile.isSome || r.strategy.isSome))
    "only Full Auto-Tune may carry a profile or calibration strategy"
  check (!r.allowSqmDisable) "only Full Auto-Tune may allow SQM disable"
  r.rejectAutotuneContext
  check r.managedSqmSection.isNone "Rating must not carry a managed SQM section"
  check (!(r.speedtestDirection.isSome || r.speedtestServerId.isSome || r.speedtestTopology.isSome))
    "only Speedtest may carry speed-test direction or server ID"

/-- `validate`, one service cap. -/
def validateCap (name : String) (value : Option UInt64) : Except String Unit :=
  check (!value.any fun value => !(decide (100 ≤ value.toNat) && decide (value.toNat ≤ maxRateKbps)))
    (name ++ " must be between 100 and 100000000 kbit/s")

/-- `validate`, what an operation requires. -/
def validateOperation : Except String Unit :=
  match r.identity.operation with
  | .fullAutotune => r.validateFullAutotune
  | .automaticRating | .speedtest => r.validateGenerated
  | .guidedRating => r.validateGuided

def validate : Except String Unit := do
  r.validateRetries
  r.identity.validate
  r.route.validate net
  requireSafeIdentifier "backend" r.backend 1 32 "_-"
  r.validateTraffic
  r.validateTarget
  r.validateOperation
  validateCap "download service cap" r.serviceDlCapKbps
  validateCap "upload service cap" r.serviceUlCapKbps

end OperationRequest

end CakeAutorate.Protocol
