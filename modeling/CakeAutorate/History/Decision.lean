/-
# History decisions

`operations/autotune_history.rs`: the record that an archive keeps for a route, what it may refer to,
and its text.  A decision is blocked when its sample is below half of its reference; the reference that
a successor inherits is then the blocked decision's own reference and never its low sample.

The text is that of `serde_json`, under its digest and with a newline.  What is used of the codec
besides the round trip is that it is compact and of ASCII characters, and that reading passes over the
newline.
-/

import CakeAutorate.Machine.Fallible
import CakeAutorate.Syscall.JsonText
import CakeAutorate.Syscall.Sha256
import CakeAutorate.Wire.Text

namespace CakeAutorate.History

open Syscall

def maxBytes : ℕ := 4096

def validHex (value : Bytes) (length : ℕ) : Bool := value.length == length && value.all hexDigit

/-- A measured sample of a job, which a later decision may refer to. -/
structure RawReference where
  jobId : Bytes
  reviewSha256 : Bytes
  createdUnixMs : UInt64
  downloadKbps : UInt64
  uploadKbps : UInt64
  deriving DecidableEq

/-- A decision about a route. -/
structure HistoryDecision where
  bootId : Bytes
  routeKey : Bytes
  requestSha256 : Bytes
  workerRunId : Bytes
  current : RawReference
  reference : Option RawReference
  deriving DecidableEq

/-- The condition of `RawReference::validate`. -/
def RawReference.wellFormed (r : RawReference) : Bool :=
  validHex r.jobId 32 && validHex r.reviewSha256 64 && r.createdUnixMs != 0 &&
    r.downloadKbps != 0 && r.uploadKbps != 0 && decide (r.downloadKbps ≤ 100000000) &&
    decide (r.uploadKbps ≤ 100000000)

def RawReference.validate (r : RawReference) : Except String Unit :=
  check r.wellFormed "history reference is invalid"

/-- The sample is below half of the reference in a direction. -/
def HistoryDecision.blocked (d : HistoryDecision) : Bool :=
  d.reference.any fun r =>
    decide (d.current.downloadKbps.toNat * 2 < r.downloadKbps.toNat) ||
      decide (d.current.uploadKbps.toNat * 2 < r.uploadKbps.toNat)

def HistoryDecision.validate (d : HistoryDecision) : Except String Unit := do
  check (validHex d.bootId 32 && validHex d.routeKey 64 && validHex d.requestSha256 64 &&
      validHex d.workerRunId 32)
    "history decision binding is invalid"
  d.current.validate
  match d.reference with
  | none => .ok ()
  | some r => do
    r.validate
    check (r.jobId != d.current.jobId && decide (r.createdUnixMs < d.current.createdUnixMs))
      "history reference is not an earlier distinct job"

def HistoryDecision.passesOn (previous : HistoryDecision) : Except String RawReference :=
  if previous.blocked then
    match previous.reference with
    | none => .error "blocked history has no reference"
    | some r => .ok r
  else .ok previous.current

/-- `HistoryDecision::inherit_reference`: the decision after it. -/
def HistoryDecision.inheritReference (d previous : HistoryDecision) :
    Except String HistoryDecision := do
  d.validate
  previous.validate
  check (d.reference.isNone && d.bootId == previous.bootId && d.routeKey == previous.routeKey &&
      decide (previous.current.createdUnixMs < d.current.createdUnixMs) &&
      previous.current.jobId != d.current.jobId)
    "history predecessor does not match this decision"
  let reference ← previous.passesOn
  let inherited := { d with reference := some reference }
  inherited.validate
  .ok inherited

/-- `RawReference::value`; the fields of a JSON object are kept in key order. -/
def RawReference.value (r : RawReference) : Json :=
  .obj [("created_unix_ms", .num r.createdUnixMs.toNat),
    ("download_kbps", .num r.downloadKbps.toNat), ("job_id", .str r.jobId),
    ("review_sha256", .str r.reviewSha256), ("upload_kbps", .num r.uploadKbps.toNat)]

def referenceValue : Option RawReference → Json
  | none => .null
  | some r => r.value

/-- The payload of `HistoryDecision::encode`. -/
def HistoryDecision.payload (d : HistoryDecision) : Json :=
  .obj [("blocked", .bool d.blocked), ("boot_id", .str d.bootId), ("current", d.current.value),
    ("reference", referenceValue d.reference), ("request_sha256", .str d.requestSha256),
    ("route_key", .str d.routeKey), ("schema_version", .num 1),
    ("worker_run_id", .str d.workerRunId)]

variable (serde : Serde)

/-- The document of `HistoryDecision::encode`. -/
def HistoryDecision.document (d : HistoryDecision) : Json :=
  .obj [("payload", d.payload), ("sha256", .str (sha256 (serde.toVec d.payload)))]

/-- The line of `HistoryDecision::encode`. -/
def HistoryDecision.line (d : HistoryDecision) : Bytes := serde.toVec (d.document serde) ++ [10]

def HistoryDecision.encode (d : HistoryDecision) : Except String Bytes := do
  d.validate
  check (decide ((d.line serde).length ≤ maxBytes)) "history decision exceeds bound"
  .ok (d.line serde)

def textField (value : Json) (name : String) : Except String Bytes :=
  match (value.get name).asStr with
  | none => .error ("history " ++ name ++ " is invalid")
  | some text => .ok text

def numberField (value : Json) (name : String) : Except String UInt64 :=
  match (value.get name).asU64 with
  | none => .error ("history " ++ name ++ " is invalid")
  | some n =>
    if n < 18446744073709551616 then .ok (UInt64.ofNat n)
    else .error ("history " ++ name ++ " is invalid")

def RawReference.parse (value : Json) : Except String RawReference := do
  let jobId ← textField value "job_id"
  let reviewSha256 ← textField value "review_sha256"
  let createdUnixMs ← numberField value "created_unix_ms"
  let downloadKbps ← numberField value "download_kbps"
  let uploadKbps ← numberField value "upload_kbps"
  .ok ⟨jobId, reviewSha256, createdUnixMs, downloadKbps, uploadKbps⟩

/-- The reference of `HistoryDecision::decode`. -/
def parseReference : Json → Except String (Option RawReference)
  | .null => .ok none
  | value => do
    let r ← RawReference.parse value
    .ok (some r)

def HistoryDecision.decode (input : Bytes) : Except String HistoryDecision := do
  check (decide (input.length ≤ maxBytes)) "history decision exceeds bound"
  match serde.fromSlice input with
  | none => .error "history JSON is invalid"
  | some value => do
    let payload := value.get "payload"
    let bootId ← textField payload "boot_id"
    let routeKey ← textField payload "route_key"
    let requestSha256 ← textField payload "request_sha256"
    let workerRunId ← textField payload "worker_run_id"
    let current ← RawReference.parse (payload.get "current")
    let reference ← parseReference (payload.get "reference")
    let decision : HistoryDecision :=
      ⟨bootId, routeKey, requestSha256, workerRunId, current, reference⟩
    let encoded ← decision.encode serde
    check (encoded == input) "history decision is noncanonical or corrupt"
    .ok decision

/-- What is used of `serde_json` on lines: it writes the compact text, of ASCII characters when
nothing is escaped, and reads it with a newline after it. -/
structure Lines : Prop where
  compact : ∀ v : Json, v.plain = true → (serde.toVec v).length = (Json.text v).length
  ascii : ∀ v : Json, v.plain = true → ∀ b ∈ serde.toVec v, b < 128
  newline : ∀ v : Json, v.plain = true → serde.fromSlice (serde.toVec v ++ [10]) = some v

end CakeAutorate.History
