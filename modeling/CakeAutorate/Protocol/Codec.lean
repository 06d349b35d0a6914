/-
# The request codec

`OperationRequest::encode`, `encode_for_schema` and `decode`. The fields of a
request select one of 38 schemas: 4 to 22 by target state, traffic policy,
planning rates, mark mask, link index and DNS server, and 19 more for a request
that also carries server failure retries.
-/

import CakeAutorate.Protocol.Record

namespace CakeAutorate.Protocol

open Wire
open Autotune (AutotuneProfile AccessMedium AccessEvidenceSource CapacityLearningPolicy)

/-- A schema with retries is this far above the one without. -/
def retrySchemaOffset : ℕ := 19

/-- `retry_request_header`; the constant headers of schemas 4 to 22 are its values. -/
def retryRequestHeader (schema : ℕ) : Text :=
  lit "cake-autorate-operation\t" ++ (display schema ++ lit "\trequest")

/-- The header of a schema without retries. -/
def legacyRequestHeader (schema : ℕ) : Except String Text :=
  if 4 ≤ schema ∧ schema ≤ 22 then .ok (retryRequestHeader schema)
  else .error "unsupported operation request schema"

/-- `bool_text`. -/
def boolText (value : Bool) : Text := if value then lit "1" else lit "0"

/-- `parse_bool`. -/
def parseBool (value : Text) : Except String Bool :=
  if value = lit "0" then .ok false
  else if value = lit "1" then .ok true
  else .error "operation boolean must be exactly 0 or 1"

/-- `FromStr` of `u8`. -/
def parseUInt8 (value : Text) : Option UInt8 := (parseUInt (2 ^ 8) value).map UInt8.ofNat

/-- `FromStr` of `u32`. -/
def parseUInt32 (value : Text) : Option UInt32 := (parseUInt (2 ^ 32) value).map UInt32.ofNat

/-- `FromStr` of `u64`. -/
def parseUInt64 (value : Text) : Option UInt64 := (parseUInt (2 ^ 64) value).map UInt64.ofNat

/-- `parse_u64`. -/
def parseU64 (name : String) (value : Text) : Except String UInt64 :=
  orError (parseUInt64 value) ("invalid " ++ name)

/-- An empty value is none. -/
def optionalString (value : Text) : Option Text := if value.isEmpty then none else some value

/-- `optional_parsed`. -/
def optionalParsed {α : Type} (parse : Text → Option α) (name : String) (value : Text) :
    Except String (Option α) :=
  if value.isEmpty then .ok none else (orError (parse value) ("invalid " ++ name)).map some

/-- `parse_optional_enum`. -/
def parseOptionalEnum {α : Type} (value : Text) (parse : Text → Option α) (name : String) :
    Except String (Option α) :=
  if value.isEmpty then .ok none else (orError (parse value) ("unsupported " ++ name)).map some

/-- `value.map(..).unwrap_or_default()`. -/
def optionText {α : Type} (text : α → Text) (value : Option α) : Text := (value.map text).getD []

/-- The base schema of a schema without retries: what the mark mask, the link index and
the DNS server add is taken off. -/
def baseSchema (schema : ℕ) : ℕ :=
  if schema ≥ 19 then schema - 12
  else if schema ≥ 15 then schema - 8
  else if schema ≥ 11 then schema - 4
  else schema

/-- `matches!(base_schema, 6 | 8 | 10)`. -/
def bootstrapSchema (schema : ℕ) : Bool :=
  baseSchema schema == 6 || baseSchema schema == 8 || baseSchema schema == 10

namespace OperationRequest

variable (net : AddressText) (r : OperationRequest)

/-- `encode_for_schema`, the fields of the launch. -/
def launchFields : List Field :=
  [("job_id", r.identity.jobId), ("job_token", r.identity.jobToken),
   ("created_unix_ms", display r.createdUnixMs.toNat),
   ("deadline_unix_ms", display r.deadlineUnixMs.toNat),
   ("instance", r.identity.instance_),
   ("operation", lit r.identity.operation.asStr),
   ("origin", lit r.origin.asStr),
   ("backend", r.backend),
   ("speedtest_direction", optionText (fun value => lit value.asStr) r.speedtestDirection),
   ("speedtest_server_id", optionText (fun value => display value.toNat) r.speedtestServerId),
   ("speedtest_topology", optionText (fun value => lit value.asStr) r.speedtestTopology),
   ("target_interface", r.identity.targetInterface)]

/-- `encode_for_schema`, the target state. -/
def targetFields (schema : ℕ) : List Field :=
  if schema ≥ 5 then [("target_state", lit r.targetState.asStr)] else []

/-- `encode_for_schema`, the capture policy. -/
def captureFields (schema : ℕ) : Except String (List Field) := do
  if bootstrapSchema schema then
    let capturePolicy ← orError r.capturePolicy
      "operation request schema v6 requires capture policy authority"
    let digest ← capturePolicy.canonicalSha256
    return [("capture_policy", lit capturePolicy.asStr), ("capture_policy_sha256", digest)]
  else
    return []

/-- `encode_for_schema`, the fields of the route. -/
def routeFields : List Field :=
  [("managed_sqm_section", r.managedSqmSection.getD []), ("route_mode", lit r.route.mode.asStr),
   ("mwan3_member", r.route.mwan3Member.getD []),
   ("l3_device", r.route.l3Device),
   ("source_ip", optionText net.display r.route.sourceIp),
   ("fwmark", optionText (fun value => display value.toNat) r.route.fwmark),
   ("routing_table", optionText (fun value => display value.toNat) r.route.routingTable),
   ("route_fingerprint", r.identity.routeFingerprint),
   ("config_fingerprint", r.identity.configFingerprint),
   ("sqm_fingerprint", r.identity.sqmFingerprint)]

/-- `encode_for_schema`, the fields of the tuning. -/
def tuningFields : List Field :=
  [("profile", optionText (fun value => lit value.asStr) r.profile),
   ("strategy", optionText (fun value => lit value.asStr) r.strategy),
   ("access_medium", optionText (fun value => lit value.asStr) r.accessMedium),
   ("access_source", optionText (fun value => lit value.asStr) r.accessSource),
   ("access_confidence_percent", display r.accessConfidencePercent.toNat),
   ("capacity_learning_policy", optionText (fun value => lit value.asStr) r.capacityLearningPolicy),
   ("service_dl_cap_kbps", optionText (fun value => display value.toNat) r.serviceDlCapKbps),
   ("service_ul_cap_kbps", optionText (fun value => display value.toNat) r.serviceUlCapKbps),
   ("allow_sqm_disable", boolText r.allowSqmDisable),
   ("allow_active_traffic", boolText r.allowActiveTraffic),
   ("scheduled_auto_apply_requested", boolText r.scheduledAutoApplyRequested)]

/-- The word of a traffic policy. -/
def trafficWord : TrafficPolicy → Text
  | .capped _ => lit "capped"
  | .unlimited => lit "unlimited"

/-- `encode_for_schema`, the traffic budget. -/
def trafficFields (schema : ℕ) : List Field :=
  (if schema ≥ 7 then [("traffic_policy", trafficWord r.trafficBudget)] else [])
    ++ [("traffic_budget_bytes",
      optionText (fun value => display value.toNat) r.trafficBudget.limitBytes)]

/-- `encode_for_schema`, the planning rates. -/
def planFields : List Field :=
  match r.trafficPlan with
  | some plan => [("planning_dl_kbps", display plan.downloadKbps.toNat),
      ("planning_ul_kbps", display plan.uploadKbps.toNat)]
  | none => []

/-- `encode_for_schema`, the mark mask. -/
def maskFields : List Field :=
  match r.route.fwmarkMask with
  | some mask => [("fwmark_mask", display mask.toNat),
      ("traffic_policy_explicit", boolText r.trafficPolicyExplicit)]
  | none => []

/-- `encode_for_schema`, the link index. -/
def linkFields : List Field :=
  match r.route.deviceIfindex with
  | some index => [("device_ifindex", display index.toNat)]
  | none => []

/-- `encode_for_schema`, the DNS server. -/
def dnsFields : List Field :=
  match r.route.dnsServer with
  | some server => [("route_dns_ipv4", net.displayV4 server)]
  | none => []

/-- `encode_for_schema`, all the fields but the retries. -/
def fieldsForSchema (schema : ℕ) : Except String (List Field) := do
  let capture ← r.captureFields schema
  return r.launchFields ++ (r.targetFields schema ++ (capture ++ (r.routeFields net
    ++ (r.tuningFields ++ (r.trafficFields schema ++ (r.planFields ++ (r.maskFields
    ++ (r.linkFields ++ r.dnsFields net))))))))

/-- `encode_for_schema`, the record of the fields. -/
def encodeFields (fullSchema schema : ℕ) : Except String Text := do
  let fields ← r.fieldsForSchema net schema
  match r.serverFailureRetries with
  | some retries =>
    encodeRecord (retryRequestHeader fullSchema)
      (fields ++ [("server_failure_retries", display retries.toNat)])
  | none => encodeRecord (retryRequestHeader schema) fields

/-- `encode_for_schema`: what the schema cannot carry is refused. -/
def encodeForSchema (fullSchema : ℕ) : Except String Text := do
  check (decide (4 ≤ fullSchema) && decide (fullSchema ≤ 22)
    || decide (4 + retrySchemaOffset ≤ fullSchema) && decide (fullSchema ≤ 22 + retrySchemaOffset))
    "unsupported operation request schema"
  let retrySchema := decide (fullSchema > 22)
  check (retrySchema == r.serverFailureRetries.isSome)
    "request server retry encoding downgrade or mismatch"
  let schema := if retrySchema then fullSchema - retrySchemaOffset else fullSchema
  check (decide (schema ≥ 15) == r.route.deviceIfindex.isSome)
    "request route link encoding downgrade or mismatch"
  check (decide (schema ≥ 19) == r.route.dnsServer.isSome)
    "request route DNS encoding downgrade or mismatch"
  check (decide (schema ≥ 11) == r.route.fwmarkMask.isSome)
    "request route mask encoding downgrade or mismatch"
  r.validate net
  check (decide (baseSchema schema ≥ 9) == r.trafficPlan.isSome)
    "request planning encoding downgrade or mismatch"
  check (!(decide (schema < 11) && decide (schema ≥ 7) != r.trafficPolicyExplicit))
    "request traffic policy encoding downgrade or mismatch"
  check (!(!bootstrapSchema schema && r.targetState != .existingManaged))
    "managed operation request schema cannot represent absent bootstrap authority"
  check (!(!bootstrapSchema schema && r.capturePolicy.isSome))
    "managed operation request schema cannot represent capture policy authority"
  check (!(bootstrapSchema schema && r.targetState != .absentBootstrap))
    "operation request schema v6 is reserved for absent bootstrap authority"
  r.encodeFields net fullSchema schema

/-- The schema without retries that `encode` chooses. -/
def encodeLegacySchema : ℕ :=
  if r.route.fwmarkMask.isSome then
    let schema := match r.targetState, r.trafficPlan.isSome with
      | .existingManaged, false => 11
      | .absentBootstrap, false => 12
      | .existingManaged, true => 13
      | .absentBootstrap, true => 14
    if r.route.dnsServer.isSome then schema + 8
    else if r.route.deviceIfindex.isSome then schema + 4
    else schema
  else if r.trafficPlan.isSome then
    if r.targetState = .absentBootstrap then 10 else 9
  else if r.targetState = .absentBootstrap then
    if r.trafficPolicyExplicit then 8 else 6
  else if r.trafficPolicyExplicit then 7
  else 5

/-- `OperationRequest::encode`. -/
def encode : Except String Text :=
  r.encodeForSchema net
    (if r.serverFailureRetries.isSome then r.encodeLegacySchema + retrySchemaOffset
    else r.encodeLegacySchema)

open RecordReader

/-- A request of which nothing is read yet. -/
def unread : OperationRequest := {
  identity := {
    jobId := [], jobToken := [], instance_ := [], operation := .speedtest, targetInterface := [],
    routeFingerprint := [], configFingerprint := [], sqmFingerprint := [] },
  createdUnixMs := 0, deadlineUnixMs := 0, origin := .luci, backend := [],
  speedtestDirection := none, speedtestServerId := none, speedtestTopology := none,
  route := {
    dnsServer := none, deviceIfindex := none, mode := .main, mwan3Member := none, l3Device := [],
    sourceIp := none, fwmark := none, routingTable := none, fwmarkMask := none },
  targetState := .existingManaged, capturePolicy := none, managedSqmSection := none,
  profile := none, strategy := none, accessMedium := none, accessSource := none,
  accessConfidencePercent := 0, capacityLearningPolicy := none, serviceDlCapKbps := none,
  serviceUlCapKbps := none, allowSqmDisable := false, allowActiveTraffic := false,
  scheduledAutoApplyRequested := false, trafficBudget := .unlimited,
  trafficPolicyExplicit := false, trafficPlan := none, serverFailureRetries := none }

/-- `decode`, the fields of the launch. -/
def readLaunch : RecordReader OperationRequest := do
  let jobId ← field "job_id"
  let jobToken ← field "job_token"
  let createdUnixMs ← parseU64 "created_unix_ms" (← field "created_unix_ms")
  let deadlineUnixMs ← parseU64 "deadline_unix_ms" (← field "deadline_unix_ms")
  let instance_ ← field "instance"
  let operation ← orError (OperationKind.parse (← field "operation")) "unsupported operation"
  let origin ← orError (OperationOrigin.parse (← field "origin")) "unsupported operation origin"
  let backend ← field "backend"
  let speedtestDirection ← parseOptionalEnum (← field "speedtest_direction")
    SpeedtestDirection.parse "speed-test direction"
  let speedtestServerId ← optionalParsed parseUInt64 "speedtest_server_id"
    (← field "speedtest_server_id")
  let speedtestTopology ← parseOptionalEnum (← field "speedtest_topology")
    SpeedtestTopology.parse "speed-test topology"
  let targetInterface ← field "target_interface"
  return { unread with
    identity := { unread.identity with jobId, jobToken, instance_, operation, targetInterface },
    createdUnixMs, deadlineUnixMs, origin, backend, speedtestDirection, speedtestServerId,
    speedtestTopology }

/-- `decode`, the target state. -/
def readTargetState (schema : ℕ) : RecordReader OperationTargetState :=
  if schema ≥ 5 then do
    let value ← field "target_state"
    orError (OperationTargetState.parse value) "unsupported operation target state"
  else pure .existingManaged

/-- `decode`, the capture policy. -/
def readCapturePolicy (schema : ℕ) : RecordReader (Option AutotuneCapturePolicyId) :=
  if bootstrapSchema schema then do
    let policy ← orError (AutotuneCapturePolicyId.parse (← field "capture_policy"))
      "unsupported Auto-Tune capture policy"
    let digest ← field "capture_policy_sha256"
    let expected ← policy.canonicalSha256
    check (digest == expected) "Auto-Tune capture policy digest mismatch"
    return some policy
  else pure none

/-- `decode`, the fields of the route. -/
def readRoute : RecordReader OperationRequest := do
  let managedSqmSection := optionalString (← field "managed_sqm_section")
  let mode ← orError (OperationRouteMode.parse (← field "route_mode")) "unsupported route mode"
  let mwan3Member := optionalString (← field "mwan3_member")
  let l3Device ← field "l3_device"
  let sourceIp ← optionalParsed net.parse "source_ip" (← field "source_ip")
  let fwmark ← optionalParsed parseUInt32 "fwmark" (← field "fwmark")
  let routingTable ← optionalParsed parseUInt32 "routing_table" (← field "routing_table")
  let routeFingerprint ← field "route_fingerprint"
  let configFingerprint ← field "config_fingerprint"
  let sqmFingerprint ← field "sqm_fingerprint"
  return { r with
      identity := { r.identity with routeFingerprint, configFingerprint, sqmFingerprint }
      route := { r.route with mode, mwan3Member, l3Device, sourceIp, fwmark, routingTable }
      managedSqmSection }

/-- `decode`, the fields of the tuning. -/
def readTuning : RecordReader OperationRequest := do
  let profile ← parseOptionalEnum (← field "profile") AutotuneProfile.parse "Auto-Tune profile"
  let strategy ← parseOptionalEnum (← field "strategy") CalibrationStrategy.parse
    "calibration strategy"
  let accessMedium ← parseOptionalEnum (← field "access_medium") AccessMedium.parse "access medium"
  let accessSource ← parseOptionalEnum (← field "access_source") AccessEvidenceSource.parse
    "access source"
  let accessConfidencePercent ← orError (parseUInt8 (← field "access_confidence_percent"))
    "invalid access confidence"
  let capacityLearningPolicy ← parseOptionalEnum (← field "capacity_learning_policy")
    CapacityLearningPolicy.parse "capacity learning policy"
  let serviceDlCapKbps ← optionalParsed parseUInt64 "service_dl_cap_kbps"
    (← field "service_dl_cap_kbps")
  let serviceUlCapKbps ← optionalParsed parseUInt64 "service_ul_cap_kbps"
    (← field "service_ul_cap_kbps")
  let allowSqmDisable ← parseBool (← field "allow_sqm_disable")
  let allowActiveTraffic ← parseBool (← field "allow_active_traffic")
  let scheduledAutoApplyRequested ← parseBool (← field "scheduled_auto_apply_requested")
  return { r with
      profile, strategy, accessMedium, accessSource, accessConfidencePercent,
      capacityLearningPolicy, serviceDlCapKbps, serviceUlCapKbps, allowSqmDisable,
      allowActiveTraffic, scheduledAutoApplyRequested }

/-- `decode`, the traffic budget of a policy word and a limit. -/
def parseBudget (policy budget : Text) : Except String TrafficPolicy :=
  if policy = lit "capped" then (parseU64 "traffic_budget_bytes" budget).map .capped
  else if policy = lit "unlimited" ∧ budget.isEmpty then .ok .unlimited
  else .error "invalid explicit traffic policy or conflicting byte limit"

section

variable (schema : ℕ)

/-- `decode`, the traffic budget. -/
def readBudget : RecordReader TrafficPolicy :=
  if schema ≥ 7 then do
    let policy ← field "traffic_policy"
    let budget ← field "traffic_budget_bytes"
    parseBudget policy budget
  else do
    let budget ← field "traffic_budget_bytes"
    parseBudget (lit "capped") budget

/-- `decode`, the planning rates. -/
def readPlan : RecordReader (Option AutotuneTrafficPlan) :=
  if baseSchema schema ≥ 9 then do
    let downloadKbps ← parseU64 "planning_dl_kbps" (← field "planning_dl_kbps")
    let uploadKbps ← parseU64 "planning_ul_kbps" (← field "planning_ul_kbps")
    return some { downloadKbps, uploadKbps }
  else pure none

/-- `decode`, the mark mask and whether the traffic policy is explicit. -/
def readMask : RecordReader (Option UInt32 × Bool) :=
  if schema ≥ 11 then do
    let mask ← orError (parseUInt32 (← field "fwmark_mask")) "invalid route mark mask"
    let trafficPolicyExplicit ← parseBool (← field "traffic_policy_explicit")
    return (some mask, trafficPolicyExplicit)
  else pure (none, decide (schema ≥ 7))

/-- `decode`, the link index. -/
def readLink : RecordReader (Option UInt32) :=
  if schema ≥ 15 then do
    let index ← orError (parseUInt32 (← field "device_ifindex")) "invalid route link index"
    return some index
  else pure none

/-- `decode`, the DNS server. -/
def readDns : RecordReader (Option Ipv4Addr) :=
  if schema ≥ 19 then do
    let server ← orError (net.parseV4 (← field "route_dns_ipv4")) "invalid route DNS server"
    return some server
  else pure none

/-- `decode`, all the fields of a schema without retries. -/
def readFields : RecordReader OperationRequest := do
  let r ← readLaunch
  let targetState ← readTargetState schema
  let capturePolicy ← readCapturePolicy schema
  let r ← readRoute net { r with targetState, capturePolicy }
  let r ← readTuning r
  let trafficBudget ← readBudget schema
  let trafficPlan ← readPlan schema
  let (fwmarkMask, trafficPolicyExplicit) ← readMask schema
  let deviceIfindex ← readLink schema
  let dnsServer ← readDns net schema
  return { r with
    trafficBudget, trafficPlan, trafficPolicyExplicit,
    route := { r.route with fwmarkMask, deviceIfindex, dnsServer } }

end

/-- `decode` of a text whose header is of a schema without retries. -/
def decodeLegacy (input : Text) : Except String OperationRequest := do
  let schema ← orError
    ((List.range' 4 19).find? fun schema => (lines input).head? == some (retryRequestHeader schema))
    "operation record header mismatch"
  let request ← readRecord input (retryRequestHeader schema) (readFields net schema)
  request.validate net
  let canonical ← request.encodeForSchema net schema
  check (canonical == input) "operation request is not canonically encoded"
  return request

/-- The line of the retries. -/
def parseRetries (line : Text) : Except String UInt8 := do
  let retries ← orError (stripPrefix (lit "server_failure_retries=") line)
    "operation request server retries field missing"
  check (!(retries.isEmpty || decide (byteLength retries > 2) || !retries.all Char.isDigit))
    "invalid server failure retries"
  orError (parseUInt8 retries) "invalid server failure retries"

/-- The last line that is not empty. -/
def lastLine (rest : List Text) : Option ℕ :=
  (rest.reverse.findIdx? fun line => !line.isEmpty).map fun i => rest.length - 1 - i

/-- `decode` of a text with retries: the text of the schema without them. -/
def legacyText (header : Text) (rest : List Text) (input : Text) : Text :=
  header ++ rest.flatMap (fun line => '\n' :: line)
    ++ if input.getLast? = some '\n' then ['\n'] else []

/-- `decode` of a text whose header is of a schema with retries.  Its call on the text
without them reads a header without retries, so it is `decodeLegacy`. -/
def decodeRetry (fullSchema : ℕ) (input : Text) : Except String OperationRequest := do
  let rest := (lines input).tail
  let last ← orError (lastLine rest) "operation request is empty"
  let retries ← parseRetries (rest.getD last [])
  let legacyHeader ← legacyRequestHeader (fullSchema - retrySchemaOffset)
  let request ← decodeLegacy net
    (legacyText legacyHeader (rest.take last ++ rest.drop (last + 1)) input)
  let request := { request with serverFailureRetries := some retries }
  request.validate net
  let canonical ← request.encodeForSchema net fullSchema
  check (canonical == input) "operation request is not canonical"
  return request

/-- `OperationRequest::decode`. -/
def decode (input : Text) : Except String OperationRequest :=
  match (List.range' (4 + retrySchemaOffset) 19).find? fun schema =>
    (lines input).head? == some (retryRequestHeader schema) with
  | some fullSchema => decodeRetry net fullSchema input
  | none => decodeLegacy net input

end OperationRequest

end CakeAutorate.Protocol
