/-
# The capture policy

`operations/autotune_capture_policy.rs`: a bootstrap request names a versioned
measurement policy and carries the digest of its expanded values.  Both policies
that exist expand, and their digests are 64 hex digits.
-/

import CakeAutorate.Machine.Fallible
import CakeAutorate.Wire.Text
import CakeAutorate.Syscall.Sha256

namespace CakeAutorate.Protocol

open Wire

/-- A literal as a text. -/
def lit (s : String) : Text := s.toList

theorem andThen_eq_ok {β : Type} {x : Except String Unit} {y : Except String β} {b : β} :
    (do x; y) = .ok b ↔ x = .ok () ∧ y = .ok b := by
  cases x <;> simp [bind, Except.bind]

theorem exists_unit {p : Unit → Prop} : (∃ a, p a) ↔ p () := ⟨fun ⟨_, h⟩ => h, fun h => ⟨_, h⟩⟩

/-- The value of a word in a table. -/
def ofWord {α : Type} (table : List (String × α)) (value : Text) : Option α :=
  (table.find? fun entry => lit entry.1 == value).map Prod.snd

/-- `byte.is_ascii_alphanumeric()`, on a character. -/
def isAsciiAlphanumeric (c : Char) : Bool :=
  ('0' ≤ c && c ≤ '9') || ('A' ≤ c && c ≤ 'Z') || ('a' ≤ c && c ≤ 'z')

/-- `STANDARD_REFLECTORS`. -/
def standardReflectors : List Text :=
  ["1.1.1.1", "1.0.0.1", "8.8.8.8", "8.8.4.4", "9.9.9.9", "9.9.9.10", "9.9.9.11", "94.140.14.15",
    "94.140.14.140", "94.140.14.141", "94.140.15.15", "94.140.15.16", "64.6.65.6", "156.154.70.1",
    "156.154.70.2", "156.154.70.3", "156.154.70.4", "156.154.70.5", "156.154.71.1", "156.154.71.2",
    "156.154.71.3", "156.154.71.4", "156.154.71.5", "208.67.220.2", "208.67.220.123",
    "208.67.220.220", "208.67.222.2", "208.67.222.123", "185.228.168.9", "185.228.168.10"].map lit

/-- The capture policies that a request may name. -/
inductive AutotuneCapturePolicyId where
  | standardV1
  | standardV2

namespace AutotuneCapturePolicyId

def asStr : AutotuneCapturePolicyId → String
  | .standardV1 => "standard_v1"
  | .standardV2 => "standard_v2"

def parse : Text → Option AutotuneCapturePolicyId :=
  ofWord [("standard_v1", .standardV1), ("standard_v2", .standardV2)]

end AutotuneCapturePolicyId

/-- How a capture measures: pingers, reflectors, transport, rates and CPU. -/
structure AutotuneCapturePolicy where
  id : AutotuneCapturePolicyId
  pingerMethod : Text
  activePingers : ℕ
  reflectors : List Text
  reflectorPingIntervalMs : ℕ
  reflectorResponseDeadlineMs : ℕ
  pingerTimeoutMs : ℕ
  transportBackend : Text
  transportEndpoint : Text
  transportBaselineLearningIntervalMs : ℕ
  transportLoadedIntervalMs : ℕ
  transportTimeoutMs : ℕ
  transportLoadHoldMs : ℕ
  transportMinLoadedCoveragePercent : ℕ
  rateSampleIntervalMs : ℕ
  maximumCounterDeltaSpanMs : ℕ
  loadThresholdKbps : ℕ
  reverseAckRatioPpm : ℕ
  cpuSampleIntervalMs : ℕ

def maxReflectors : ℕ := 64

def maxCapturePolicyBytes : ℕ := 16 * 1024

namespace AutotuneCapturePolicy

/-- The span that `validate` expects of a policy. -/
def expectedSpan : AutotuneCapturePolicyId → ℕ
  | .standardV1 => 600
  | .standardV2 => 1500

/-- `AutotuneCapturePolicy::validate`. -/
def validate (p : AutotuneCapturePolicy) : Except String Unit := do
  check (!(p.pingerMethod != lit "fping" || p.activePingers == 0
    || decide (p.activePingers > p.reflectors.length) || p.reflectors.isEmpty
    || decide (p.reflectors.length > maxReflectors)))
    "native Auto-Tune capture ICMP policy is invalid"
  check (p.reflectors.all fun reflector => !(reflector.isEmpty || decide (byteLength reflector > 255)
    || reflector.head? == some '-'
    || !reflector.all fun c => isAsciiAlphanumeric c || (lit ":.-").contains c))
    "native Auto-Tune capture reflector is invalid"
  check (!(p.reflectorPingIntervalMs == 0
    || decide (p.reflectorResponseDeadlineMs < p.reflectorPingIntervalMs)
    || decide (p.pingerTimeoutMs < p.reflectorResponseDeadlineMs)
    || p.transportBackend != lit "websocket" || !(lit "wss://").isPrefixOf p.transportEndpoint
    || decide (byteLength p.transportEndpoint > 512)
    || p.transportEndpoint.any (fun c => decide (c.toNat < 32) || c.toNat == 127)
    || p.transportBaselineLearningIntervalMs == 0 || p.transportLoadedIntervalMs == 0
    || p.transportTimeoutMs == 0 || p.transportLoadHoldMs == 0
    || !(decide (50 ≤ p.transportMinLoadedCoveragePercent)
      && decide (p.transportMinLoadedCoveragePercent ≤ 100))
    || !(decide (100 ≤ p.rateSampleIntervalMs) && decide (p.rateSampleIntervalMs ≤ 5000))
    || p.maximumCounterDeltaSpanMs != expectedSpan p.id
    || decide (p.maximumCounterDeltaSpanMs < p.rateSampleIntervalMs)
    || decide (p.maximumCounterDeltaSpanMs > p.transportLoadHoldMs / 2)
    || p.loadThresholdKbps == 0 || decide (p.reverseAckRatioPpm > 250000)
    || p.cpuSampleIntervalMs == 0))
    "native Auto-Tune capture timing policy is invalid"

/-- The schema in the canonical text. -/
def schemaVersion : AutotuneCapturePolicyId → ℕ
  | .standardV1 => 1
  | .standardV2 => 2

/-- The text of `AutotuneCapturePolicy::canonical_bytes`; the second policy also
names its span. -/
def canonicalText (p : AutotuneCapturePolicy) : Text :=
  let reflectors := List.intercalate (lit ",") (p.reflectors.map fun r => lit "\"" ++ r ++ lit "\"")
  let span := match p.id with
    | .standardV1 => []
    | .standardV2 =>
      lit "\"maximum_counter_delta_span_ms\":" ++ display p.maximumCounterDeltaSpanMs ++ lit ","
  [lit "\x7b\"autotune_capture_policy_schema_version\":", display (schemaVersion p.id),
    lit ",\"policy_id\":\"", lit p.id.asStr, lit "\",\"icmp\":\x7b\"method\":\"",
    p.pingerMethod, lit "\",\"active_count\":", display p.activePingers,
    lit ",\"reflectors\":[", reflectors, lit "],\"interval_ms\":",
    display p.reflectorPingIntervalMs, lit ",\"response_deadline_ms\":",
    display p.reflectorResponseDeadlineMs, lit ",\"probe_timeout_ms\":",
    display p.pingerTimeoutMs, lit "\x7d,\"transport\":\x7b\"backend\":\"", p.transportBackend,
    lit "\",\"endpoint\":\"", p.transportEndpoint, lit "\",\"baseline_learning_interval_ms\":",
    display p.transportBaselineLearningIntervalMs, lit ",\"loaded_interval_ms\":",
    display p.transportLoadedIntervalMs, lit ",\"timeout_ms\":", display p.transportTimeoutMs,
    lit ",\"load_hold_ms\":", display p.transportLoadHoldMs,
    lit ",\"minimum_loaded_coverage_percent\":", display p.transportMinLoadedCoveragePercent,
    lit "\x7d,\"load\":\x7b\"rate_sample_interval_ms\":", display p.rateSampleIntervalMs,
    lit ",", span, lit "\"active_threshold_kbps\":", display p.loadThresholdKbps,
    lit ",\"reverse_ack_ratio_ppm\":", display p.reverseAckRatioPpm,
    lit "\x7d,\"cpu\":\x7b\"sample_interval_ms\":", display p.cpuSampleIntervalMs,
    lit "\x7d\x7d\x7d\n"].flatten

/-- `canonical_bytes`, of a valid policy within its bound. -/
def canonicalBytes (p : AutotuneCapturePolicy) : Except String (List UInt8) := do
  p.validate
  let output := utf8 p.canonicalText
  check (output.length ≤ maxCapturePolicyBytes)
    "native Auto-Tune capture policy exceeds its byte bound"
  return output

def canonicalSha256 (p : AutotuneCapturePolicy) : Except String Text := do
  return asciiText (Syscall.sha256 (← p.canonicalBytes))

variable {p : AutotuneCapturePolicy}

theorem canonicalBytes_eq (hv : p.validate = .ok ())
    (hlen : (utf8 p.canonicalText).length ≤ maxCapturePolicyBytes) :
    p.canonicalBytes = .ok (utf8 p.canonicalText) := by
  simp [canonicalBytes, hv, hlen, bind, Except.bind, pure, Except.pure]

theorem canonicalSha256_eq {bytes : List UInt8} (hb : p.canonicalBytes = .ok bytes) :
    p.canonicalSha256 = .ok (asciiText (Syscall.sha256 bytes)) := by
  simp [canonicalSha256, hb, bind, Except.bind, pure, Except.pure]

end AutotuneCapturePolicy

namespace AutotuneCapturePolicyId

/-- The values that an identifier stands for. -/
def values (id : AutotuneCapturePolicyId) : AutotuneCapturePolicy where
  id
  pingerMethod := lit "fping"
  activePingers := 6
  reflectors := standardReflectors
  reflectorPingIntervalMs := 300
  reflectorResponseDeadlineMs := 1000
  pingerTimeoutMs := 10000
  transportBackend := lit "websocket"
  transportEndpoint := lit "wss://ping-bufferbloat.libreqos.com/ws"
  transportBaselineLearningIntervalMs := 1000
  transportLoadedIntervalMs := 1000
  transportTimeoutMs := 5000
  transportLoadHoldMs := 3000
  transportMinLoadedCoveragePercent := 70
  rateSampleIntervalMs := 200
  maximumCounterDeltaSpanMs := match id with
    | .standardV1 => 600
    | .standardV2 => 1500
  loadThresholdKbps := 2000
  reverseAckRatioPpm := 80000
  cpuSampleIntervalMs := 2000

/-- `expand`: the values, checked. -/
def expand (id : AutotuneCapturePolicyId) : Except String AutotuneCapturePolicy := do
  id.values.validate
  let _ ← id.values.canonicalBytes
  return id.values

def canonicalSha256 (id : AutotuneCapturePolicyId) : Except String Text := do
  (← id.expand).canonicalSha256

variable (id : AutotuneCapturePolicyId)

theorem validate_values : id.values.validate = .ok () := by
  cases id <;> decide +kernel

theorem canonicalBytes_values : id.values.canonicalBytes = .ok (utf8 id.values.canonicalText) := by
  have hlen : (utf8 id.values.canonicalText).length ≤ maxCapturePolicyBytes := by
    refine (byteLength_le id.values.canonicalText).trans ?_
    have : id.values.canonicalText.length ≤ 4096 := by cases id <;> decide +kernel
    unfold maxCapturePolicyBytes
    omega
  exact AutotuneCapturePolicy.canonicalBytes_eq (validate_values id) hlen

theorem expand_eq : id.expand = .ok id.values := by
  unfold expand
  rw [validate_values, canonicalBytes_values]
  rfl

/-- The hash that `canonical_sha256` comes to. -/
def digest (id : AutotuneCapturePolicyId) : Text :=
  asciiText (Syscall.sha256 (utf8 id.values.canonicalText))

theorem canonicalSha256_eq : id.canonicalSha256 = .ok id.digest := by
  have hsha := AutotuneCapturePolicy.canonicalSha256_eq (canonicalBytes_values id)
  simp [canonicalSha256, expand_eq, bind, Except.bind, digest, hsha]

end AutotuneCapturePolicyId

end CakeAutorate.Protocol
