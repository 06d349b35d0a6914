/-
# Runtime permits, controls and baselines

`AutotuneRuntimePermit`, `RuntimeSnapshot` and `RuntimeBaseline` of
`operations/autotune_runtime.rs`, with `AutotuneRuntimeControl` and
`MeasurementTopology` of `operations/full_autotune.rs`.  A permit says what one
worker may ask of one instance until a deadline; a control asks for one topology
and its rates; a baseline is what stood there before.
-/

import CakeAutorate.Journal.Job
import CakeAutorate.Override.Namespace

namespace CakeAutorate.Override

open Wire Protocol Journal
open Autotune (AutotuneProfile LinkKind)

/-- Which directions are shaped. -/
inductive MeasurementTopology where
  | shapedBoth
  | rawBoth
  | rawDownload
  | rawUpload
  | downloadOnlyShaped
  | uploadOnlyShaped
  deriving DecidableEq

namespace MeasurementTopology

def downloadIsShaped : MeasurementTopology → Bool
  | .shapedBoth | .rawUpload | .downloadOnlyShaped => true
  | .rawBoth | .rawDownload | .uploadOnlyShaped => false

def uploadIsShaped : MeasurementTopology → Bool
  | .shapedBoth | .rawDownload | .uploadOnlyShaped => true
  | .rawBoth | .rawUpload | .downloadOnlyShaped => false

def isManagedBaseline : MeasurementTopology → Bool
  | .shapedBoth | .downloadOnlyShaped | .uploadOnlyShaped => true
  | .rawBoth | .rawDownload | .rawUpload => false

end MeasurementTopology

def validateOptionalRate (name : String) (value : Option ℕ) : Except String Unit :=
  check (!value.any fun rate => !(decide (100 ≤ rate) && decide (rate ≤ maxRateKbps)))
    ("runtime control " ++ name ++ " rate is outside the supported range")

def validateTopologyRates (topology : MeasurementTopology) (downloadKbps uploadKbps : Option ℕ) :
    Except String Unit := do
  validateOptionalRate "download" downloadKbps
  validateOptionalRate "upload" uploadKbps
  check (!(topology.downloadIsShaped != downloadKbps.isSome
    || topology.uploadIsShaped != uploadKbps.isSome))
    "runtime control rates contradict the requested SQM topology"

inductive RuntimeQdiscKind where
  | cake
  | cakeMq
  deriving DecidableEq

structure RuntimeRateBounds where
  minimumKbps : ℕ
  maximumKbps : ℕ
  deriving DecidableEq

def RuntimeRateBounds.validate (b : RuntimeRateBounds) (direction : String) : Except String Unit :=
  check (!(decide (b.minimumKbps < 100) || decide (b.minimumKbps > b.maximumKbps)
    || decide (b.maximumKbps > maxRateKbps)))
    (direction ++ " runtime permit rate bounds are invalid")

def RuntimeRateBounds.contains (b : RuntimeRateBounds) (value : ℕ) : Bool :=
  decide (b.minimumKbps ≤ value) && decide (value ≤ b.maximumKbps)

def maxAutotuneEvidenceRecords : ℕ := 257

def workerIncomplete (worker : ProcessIdentity) : Bool :=
  worker.pid == 0 || worker.processGroup == 0 || worker.starttimeTicks == 0

/-- A topology and its rates, as asked for. -/
structure AutotuneRuntimeControl where
  permitId : Text
  jobId : Text
  workerRunId : Text
  bootId : Text
  coordinatorGeneration : Text
  worker : ProcessIdentity
  sequence : ℕ
  deadlineBootMs : ℕ
  targetInterface : Text
  routeFingerprint : Text
  sqmFingerprint : Text
  topology : MeasurementTopology
  downloadKbps : Option ℕ
  uploadKbps : Option ℕ
  deriving DecidableEq

def AutotuneRuntimeControl.validate (c : AutotuneRuntimeControl) : Except String Unit := do
  requireHex "runtime control permit id" c.permitId 32
  requireHex "runtime control job id" c.jobId 32
  requireHex "runtime control worker run id" c.workerRunId 32
  requireHex "runtime control boot id" c.bootId 32
  requireHex "runtime control coordinator generation" c.coordinatorGeneration 32
  requireHex "runtime control route fingerprint" c.routeFingerprint 64
  requireHex "runtime control SQM fingerprint" c.sqmFingerprint 64
  check (!workerIncomplete c.worker) "runtime control worker identity is incomplete"
  check (!(c.sequence == 0 || decide (c.sequence > maxAutotuneEvidenceRecords)))
    "runtime control sequence is outside its bound"
  check (c.deadlineBootMs != 0) "runtime control monotonic deadline is missing"
  check (safeIdentifier 1 64 "._:@-" c.targetInterface)
    "runtime control target interface is invalid"
  validateTopologyRates c.topology c.downloadKbps c.uploadKbps

inductive RuntimePermitKind where
  | autotune
  | speedtestUnshaped
  deriving DecidableEq

/-- What stood before an override. -/
inductive RuntimeBaseline (α : Type) where
  | managed (value : α)
  | absent (witness : AbsentRuntimeBaseline)
  deriving DecidableEq

/-- What a worker may ask, and until when. -/
structure AutotuneRuntimePermit where
  dnsServer : Option Ipv4Addr
  probeAccountingRequired : Bool
  kind : RuntimePermitKind
  permitId : Text
  jobId : Text
  workerRunId : Text
  bootId : Text
  coordinatorGeneration : Text
  worker : ProcessIdentity
  instanceName : Text
  targetInterface : Text
  routeIdentity : Text
  routeFingerprint : Text
  sqmFingerprint : Text
  deadlineBootMs : ℕ
  maximumSequence : ℕ
  profile : AutotuneProfile
  linkKind : LinkKind
  baseline : RuntimeBaseline MeasurementTopology
  initialDownloadKbps : ℕ
  initialUploadKbps : ℕ
  downloadQdiscKind : RuntimeQdiscKind
  uploadQdiscKind : RuntimeQdiscKind
  allowBypassDownload : Bool
  allowBypassUpload : Bool
  downloadBounds : RuntimeRateBounds
  uploadBounds : RuntimeRateBounds
  deriving DecidableEq

/-- The number of a `mask=` or `ifindex=` field: not zero and as `Display` writes it. -/
def validNumber (field : Text) (head : String) : Bool :=
  (stripPrefix (lit head) field).any fun number =>
    (parseUInt (2 ^ 32) number).any fun parsed => parsed != 0 && display parsed == number

def requireRouteIdentity (value : Text) : Except String Unit := do
  check (!(value.isEmpty || decide (byteLength value > 512)
    || value.any fun c => decide (c.toNat < 32) || c.toNat == 127))
    "runtime permit route identity is invalid"
  if value.contains '=' then
    let fields := value.splitOn '|'
    let field := fun i => fields.getD i []
    let validShape :=
      (fields.length == 8 && field 0 == lit "explicit" && validNumber (field 7) "ifindex=")
        || (fields.length == 7 && field 0 == lit "mwan3")
    check (!(!validShape || (fields.take 6).any (fun f => f.contains '=')
      || !validNumber (field 6) "mask=")) "runtime permit route identity is invalid"

namespace AutotuneRuntimePermit

variable (net : AddressText) (p : AutotuneRuntimePermit)

def managedBaselineTopology : Except String MeasurementTopology :=
  match p.baseline with
  | .managed topology => .ok topology
  | .absent _ => .error "runtime permit does not have a managed baseline topology"

def speedtestUnshapedTopology : Option MeasurementTopology :=
  match p.allowBypassDownload, p.allowBypassUpload with
  | true, false => some .rawDownload
  | false, true => some .rawUpload
  | true, true => some .rawBoth
  | false, false => none

/-- `validate`, the DNS server. -/
def validateDns : Except String Unit := do
  if let some server := p.dnsServer then
    let _ ← explicitDnsServer net ((p.routeIdentity.splitOn '|').headD []) (net.displayV4 server)

/-- `validate`, the baseline. -/
def validateBaseline : Except String Unit :=
  match p.baseline with
  | .managed topology => do
    check topology.isManagedBaseline
      "runtime permit baseline must retain at least one managed CAKE direction"
    check (!((!topology.downloadIsShaped && p.downloadQdiscKind != .cake)
      || (!topology.uploadIsShaped && p.uploadQdiscKind != .cake)))
      "a direction missing from the managed baseline must use private CAKE"
  | .absent absent => do
    absent.validate
    check (p.kind == .autotune) "absent runtime baseline is supported only by Auto-Tune permits"
    check (!(absent.routeFingerprint != p.routeFingerprint
      || absent.targetInterface != p.targetInterface
      || absent.sqmFingerprint != p.sqmFingerprint
      || absent.kernelNamespaceSeed != p.permitId))
      "absent runtime baseline does not match its permit fingerprints"

/-- `validate`, what an unshaped speed test may carry. -/
def validateSpeedtest : Except String Unit :=
  check (!(p.kind == .speedtestUnshaped
    && (p.maximumSequence != 1 || p.profile != .bestOverall || p.linkKind != .unknown
      || p.managedBaselineTopology.toOption != some .shapedBoth
      || p.speedtestUnshapedTopology.isNone
      || p.downloadBounds.minimumKbps != p.initialDownloadKbps
      || p.downloadBounds.maximumKbps != p.initialDownloadKbps
      || p.uploadBounds.minimumKbps != p.initialUploadKbps
      || p.uploadBounds.maximumKbps != p.initialUploadKbps)))
    "unshaped Speed Test runtime permit has non-canonical policy"

def validate : Except String Unit := do
  requireHex "runtime permit id" p.permitId 32
  check (!(p.probeAccountingRequired && p.kind != .autotune))
    "probe accounting requires an Auto-Tune runtime permit"
  requireHex "runtime permit job id" p.jobId 32
  requireHex "runtime permit worker run id" p.workerRunId 32
  requireHex "runtime permit boot id" p.bootId 32
  requireHex "runtime permit coordinator generation" p.coordinatorGeneration 32
  requireHex "runtime permit route fingerprint" p.routeFingerprint 64
  requireHex "runtime permit SQM fingerprint" p.sqmFingerprint 64
  requireIdentifier "runtime permit instance" p.instanceName
  requireInterface p.targetInterface
  requireRouteIdentity p.routeIdentity
  p.validateDns net
  check (!workerIncomplete p.worker) "runtime permit worker identity is incomplete"
  check (!(p.deadlineBootMs == 0 || p.maximumSequence == 0
    || decide (p.maximumSequence > maxAutotuneEvidenceRecords)))
    "runtime permit lifetime or sequence bound is invalid"
  p.downloadBounds.validate "download"
  p.uploadBounds.validate "upload"
  p.validateBaseline
  check (!(!p.downloadBounds.contains p.initialDownloadKbps
    || !p.uploadBounds.contains p.initialUploadKbps))
    "runtime permit initial rates are outside their permitted bounds"
  p.validateSpeedtest

/-- `authorizes_identity`, the one control of an unshaped speed test. -/
def authorizesSpeedtest (c : AutotuneRuntimeControl) : Except String Unit := do
  let topology ← orError p.speedtestUnshapedTopology
    "unshaped Speed Test permit has no authorized bypass direction"
  let downloadKbps := if topology.downloadIsShaped then some p.initialDownloadKbps else none
  let uploadKbps := if topology.uploadIsShaped then some p.initialUploadKbps else none
  check (!(c.sequence != 1 || c.topology != topology || c.downloadKbps != downloadKbps
    || c.uploadKbps != uploadKbps))
    "unshaped Speed Test permit authorizes only its exact directional control"

/-- `authorizes_identity`, the bypasses and the rates of a calibration. -/
def authorizesRates (c : AutotuneRuntimeControl) : Except String Unit := do
  check (!(!c.topology.downloadIsShaped && !p.allowBypassDownload))
    "runtime permit does not allow download bypass"
  check (!(!c.topology.uploadIsShaped && !p.allowBypassUpload))
    "runtime permit does not allow upload bypass"
  check (!c.downloadKbps.any fun rate => !p.downloadBounds.contains rate)
    "download override is outside its permitted range"
  check (!c.uploadKbps.any fun rate => !p.uploadBounds.contains rate)
    "upload override is outside its permitted range"

def authorizesIdentity (instanceName : Text) (c : AutotuneRuntimeControl) : Except String Unit := do
  p.validate net
  c.validate
  check (!(p.instanceName != instanceName || p.permitId != c.permitId || p.jobId != c.jobId
    || p.workerRunId != c.workerRunId || p.bootId != c.bootId
    || p.coordinatorGeneration != c.coordinatorGeneration || p.worker != c.worker
    || p.targetInterface != c.targetInterface || p.routeFingerprint != c.routeFingerprint
    || p.sqmFingerprint != c.sqmFingerprint))
    "runtime control does not match its immutable permit"
  check (!decide (c.sequence > p.maximumSequence)) "runtime control sequence exceeds its permit"
  if p.kind = .speedtestUnshaped then p.authorizesSpeedtest c else p.authorizesRates c

def authorizes (instanceName : Text) (c : AutotuneRuntimeControl) (currentBootMs : ℕ) :
    Except String Unit := do
  p.authorizesIdentity net instanceName c
  check (!(currentBootMs == 0 || decide (currentBootMs ≥ c.deadlineBootMs)
    || decide (c.deadlineBootMs > p.deadlineBootMs)))
    "runtime control is outside its permitted lifetime"

variable {net} {p}

theorem authorizes_deadline {instanceName : Text} {c : AutotuneRuntimeControl} {now : ℕ}
    (h : p.authorizes net instanceName c now = .ok ()) : now ≠ 0 ∧ now < c.deadlineBootMs := by
  simp only [authorizes, bind_ok, exists_unit, check_ok] at h
  obtain ⟨-, h⟩ := h
  simp only [Bool.not_eq_true', Bool.or_eq_false_iff, beq_eq_false_iff_ne,
    decide_eq_false_iff_not] at h
  obtain ⟨⟨h₀, h₁⟩, -⟩ := h
  exact ⟨h₀, by omega⟩

theorem authorizes_sequence {instanceName : Text} {c : AutotuneRuntimeControl} {now : ℕ}
    (h : p.authorizes net instanceName c now = .ok ()) :
    0 < c.sequence ∧ c.sequence ≤ maxAutotuneEvidenceRecords := by
  simp only [authorizes, authorizesIdentity, AutotuneRuntimeControl.validate, bind_ok,
    exists_unit, check_ok] at h
  obtain ⟨⟨-, ⟨-, -, -, -, -, -, -, -, h, -⟩, -⟩, -⟩ := h
  simp only [Bool.not_eq_true', Bool.or_eq_false_iff, beq_eq_false_iff_ne,
    decide_eq_false_iff_not] at h
  omega

end AutotuneRuntimePermit

structure RuntimeSnapshot where
  targetInterface : Text
  routeFingerprint : Text
  sqmFingerprint : Text
  topology : MeasurementTopology
  downloadKbps : Option ℕ
  uploadKbps : Option ℕ
  downloadQdiscKind : Option RuntimeQdiscKind
  uploadQdiscKind : Option RuntimeQdiscKind
  deriving DecidableEq

def RuntimeSnapshot.validate (s : RuntimeSnapshot) : Except String Unit := do
  requireInterface s.targetInterface
  requireHex "runtime snapshot route fingerprint" s.routeFingerprint 64
  requireHex "runtime snapshot SQM fingerprint" s.sqmFingerprint 64
  validateTopologyRates s.topology s.downloadKbps s.uploadKbps
  check (!(s.downloadKbps.isSome != s.downloadQdiscKind.isSome
    || s.uploadKbps.isSome != s.uploadQdiscKind.isSome))
    "runtime snapshot qdisc kind does not match shaped directions"

/-- `RuntimeSnapshot::matches_control`; its permit argument is not read. -/
def RuntimeSnapshot.matchesControl (s : RuntimeSnapshot) (c : AutotuneRuntimeControl) : Bool :=
  s.targetInterface == c.targetInterface && s.routeFingerprint == c.routeFingerprint
    && s.sqmFingerprint == c.sqmFingerprint && s.topology == c.topology
    && s.downloadKbps == c.downloadKbps && s.uploadKbps == c.uploadKbps
    && s.downloadQdiscKind == c.downloadKbps.map (fun _ => .cake)
    && s.uploadQdiscKind == c.uploadKbps.map (fun _ => .cake)

abbrev RuntimeRestoreBaseline := RuntimeBaseline RuntimeSnapshot

namespace RuntimeBaseline

def validateRestoreBaseline : RuntimeRestoreBaseline → Except String Unit
  | .managed snapshot => snapshot.validate
  | .absent witness => witness.validate

/-- `validate_for_permit`, the two baselines compared. -/
def matchesPermit (p : AutotuneRuntimePermit) (b : RuntimeRestoreBaseline) : Except String Unit :=
  match p.baseline, b with
  | .managed topology, .managed snapshot =>
    check (!(snapshot.targetInterface != p.targetInterface
      || snapshot.routeFingerprint != p.routeFingerprint
      || snapshot.sqmFingerprint != p.sqmFingerprint || snapshot.topology != topology
      || (topology.downloadIsShaped && snapshot.downloadQdiscKind != some p.downloadQdiscKind)
      || (topology.uploadIsShaped && snapshot.uploadQdiscKind != some p.uploadQdiscKind)))
      "managed runtime restore baseline does not match its permit"
  | .absent expected, .absent actual =>
    check (actual == expected) "absent runtime restore baseline does not match its permit"
  | _, _ => throw "runtime permit and restore checkpoint use different baseline variants"

def validateForPermit (net : AddressText) (b : RuntimeRestoreBaseline)
    (p : AutotuneRuntimePermit) : Except String Unit := do
  p.validate net
  validateRestoreBaseline b
  matchesPermit p b

end RuntimeBaseline

/-- A permit that is valid until a minute after the boot. -/
def samplePermit : AutotuneRuntimePermit where
  dnsServer := none
  probeAccountingRequired := false
  kind := .autotune
  permitId := List.replicate 32 'a'
  jobId := List.replicate 32 'b'
  workerRunId := List.replicate 32 'c'
  bootId := List.replicate 32 'd'
  coordinatorGeneration := List.replicate 32 'e'
  worker := ⟨100, 100, 5000⟩
  instanceName := lit "wan_sqm"
  targetInterface := lit "wan"
  routeIdentity := lit "main|wan|192.0.2.2"
  routeFingerprint := List.replicate 64 '1'
  sqmFingerprint := List.replicate 64 '2'
  deadlineBootMs := 60000
  maximumSequence := 16
  profile := .bestOverall
  linkKind := .ethernet
  baseline := .managed .shapedBoth
  initialDownloadKbps := 90000
  initialUploadKbps := 18000
  downloadQdiscKind := .cake
  uploadQdiscKind := .cake
  allowBypassDownload := true
  allowBypassUpload := true
  downloadBounds := ⟨1000, 1000000⟩
  uploadBounds := ⟨1000, 1000000⟩

end CakeAutorate.Override
