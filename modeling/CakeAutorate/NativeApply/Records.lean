/-
# The records of a native Apply

The start request, the dispatch, the worker claim and the terminal receipt of
`operations/native_apply_coordinator.rs`, with what `validate` accepts of each.
A generation is a `u64`; it is counted up with a check for overflow.
-/

import CakeAutorate.Journal.Job

namespace CakeAutorate.NativeApply

open Wire Protocol Journal

def requireLowerHex (label : String) (value : Text) (length : ℕ) : Except String Unit :=
  check (lowerHex length value) (label ++ " is invalid")

/-- `validate_native_apply_option_id`. -/
def validateOptionId (optionId : Text) : Except String Unit :=
  check (!(optionId.isEmpty || decide (byteLength optionId > 32)
    || !optionId.all fun c => ('a' ≤ c && c ≤ 'z') || c == '_')) "native Apply option ID is invalid"

def required (value : Option Text) (label : String) : Except String Text :=
  orError value ("native Apply control request requires " ++ label)

/-- `generation.checked_add(1)`. -/
def nextGeneration (generation : ℕ) (error : String) : Except String ℕ :=
  if generation + 1 < 2 ^ 64 then .ok (generation + 1) else .error error

/-- `NativeApplyAcknowledgement`, in the order of its constructors. -/
inductive NativeApplyAcknowledgement where
  | downloadCandidateRealization
  | uploadCandidateRealization
  | downloadCapacityRetention
  | uploadCapacityRetention
  | downloadThroughputSafetyFloor
  | uploadThroughputSafetyFloor
  | downloadPhysicalCapacityLimited
  | uploadPhysicalCapacityLimited
  | downloadIcmpLatency
  | downloadTransportLatency
  | uploadIcmpLatency
  | uploadTransportLatency
  | measurementContaminated
  | measurementConfidence
  | downloadRawContaminated
  | downloadRawConfidence
  | downloadRawQualityTarget
  | uploadRawContaminated
  | uploadRawConfidence
  | uploadRawQualityTarget
  | downloadShapingBypassed
  | uploadShapingBypassed
  | sqmDisabled
  | topologyComparisonTrafficBudget
  | loadedLatencyUnobservable
  | shapedValidationIncomplete
  | topologyComparisonUnmeasurable
  | downloadRawBelowServerComparison
  | uploadRawBelowServerComparison
  | downloadSearchIncomplete
  | uploadSearchIncomplete
  | downloadShapedLoadUnmeasured
  | uploadShapedLoadUnmeasured
  deriving DecidableEq

/-- `require_sorted_acknowledgements`, at most `MAX_NATIVE_APPLY_ACKNOWLEDGEMENTS` of them. -/
def requireSortedAcknowledgements (values : List NativeApplyAcknowledgement) :
    Except String Unit := do
  check (decide (values.length ≤ 24)) "native Apply acknowledgement set exceeds its bound"
  check (decide (values.IsChain fun first second => first.ctorIdx < second.ctorIdx))
    "native Apply acknowledgement set is not strictly sorted"

inductive NativeApplyControlCommand where
  | start
  | status
  | watch
  | result
  deriving DecidableEq

structure NativeApplyControlRequest where
  requestId : Text
  command : NativeApplyControlCommand
  sourceJobId : Option Text
  applyJobId : Option Text
  applyJobToken : Option Text
  optionId : Option Text
  reviewSha256 : Option Text
  manifestSha256 : Option Text
  acknowledgements : List NativeApplyAcknowledgement
  observedGeneration : Option ℕ

namespace NativeApplyControlRequest

variable (r : NativeApplyControlRequest)

/-- `validate`, a start. -/
def validateStart : Except String Unit := do
  requireLowerHex "native Apply source job ID" (← required r.sourceJobId "source job ID") 32
  validateOptionId (← required r.optionId "option ID")
  requireLowerHex "native Apply Review digest" (← required r.reviewSha256 "Review digest") 64
  requireLowerHex "native Apply manifest digest" (← required r.manifestSha256 "manifest digest") 64
  check (!(r.applyJobId.isSome || r.applyJobToken.isSome))
    "native Apply start must not carry an Apply handle"
  check (!r.observedGeneration.isSome) "native Apply start must not carry a generation"

/-- `validate`, a query by handle. -/
def validateQuery : Except String Unit := do
  requireLowerHex "native Apply job ID" (← required r.applyJobId "Apply job ID") 32
  requireLowerHex "native Apply job token" (← required r.applyJobToken "Apply job token") 64
  check (!(r.sourceJobId.isSome || r.optionId.isSome || r.reviewSha256.isSome
    || r.manifestSha256.isSome || !r.acknowledgements.isEmpty))
    "native Apply status/result must carry only its Apply handle"
  if r.command = .watch then
    check r.observedGeneration.isSome "native Apply watch requires an observed generation"
  else
    check (!r.observedGeneration.isSome) "native Apply status/result must not carry a generation"

def validate : Except String Unit := do
  requireLowerHex "native Apply control request ID" r.requestId 32
  requireSortedAcknowledgements r.acknowledgements
  if r.command = .start then r.validateStart else r.validateQuery

end NativeApplyControlRequest

inductive NativeApplyDispatchState where
  | accepted
  | validating
  | applying
  deriving DecidableEq

structure NativeApplyVerifiedDispatchIdentity where
  workerRunId : Text
  sourceManifestSha256 : Text
  manifestSchemaVersion : ℕ
  targetState : Text

def NativeApplyVerifiedDispatchIdentity.validate (i : NativeApplyVerifiedDispatchIdentity) :
    Except String Unit := do
  requireLowerHex "native Apply worker run ID" i.workerRunId 32
  requireLowerHex "native Apply source manifest digest" i.sourceManifestSha256 64
  check (i.manifestSchemaVersion != 0) "native Apply manifest schema version is invalid"
  check (i.targetState == lit "existing_managed" || i.targetState == lit "absent_bootstrap")
    "native Apply target state is invalid"

/-- An apply that was given out. -/
structure NativeApplyDispatchRecord where
  state : NativeApplyDispatchState
  generation : ℕ
  applyJobId : Text
  applyJobToken : Text
  sourceJobId : Text
  workerRunId : Text
  optionId : Text
  reviewSha256 : Text
  sourceManifestSha256 : Text
  manifestSha256 : Text
  manifestSchemaVersion : ℕ
  targetState : Text
  acknowledgements : List NativeApplyAcknowledgement
  deriving DecidableEq

namespace NativeApplyDispatchRecord

variable (d : NativeApplyDispatchRecord)

def executable : Bool := d.state == .validating || d.state == .applying

def verifiedIdentity : Except String NativeApplyVerifiedDispatchIdentity := do
  check (d.state == .applying) "native Apply dispatch authority is not verified"
  let identity : NativeApplyVerifiedDispatchIdentity :=
    ⟨d.workerRunId, d.sourceManifestSha256, d.manifestSchemaVersion, d.targetState⟩
  identity.validate
  return identity

/-- `validate`, what a state carries. -/
def validateState : Except String Unit :=
  match d.state with
  | .accepted | .validating =>
    check (!(d.workerRunId != lit "none" || d.sourceManifestSha256 != lit "none"
      || d.manifestSchemaVersion != 0 || d.targetState != lit "none"))
      "unverified native Apply dispatch carries verified authority"
  | .applying => do
    let identity ← d.verifiedIdentity
    identity.validate

def validate : Except String Unit := do
  requireLowerHex "native Apply job ID" d.applyJobId 32
  requireLowerHex "native Apply job token" d.applyJobToken 64
  requireLowerHex "native Apply source job ID" d.sourceJobId 32
  check (d.generation != 0) "native Apply dispatch generation is invalid"
  validateOptionId d.optionId
  requireLowerHex "native Apply Review digest" d.reviewSha256 64
  requireLowerHex "native Apply manifest digest" d.manifestSha256 64
  d.validateState
  requireSortedAcknowledgements d.acknowledgements

def matchesStart (request : NativeApplyControlRequest) : Bool :=
  request.command == .start && request.sourceJobId == some d.sourceJobId
    && request.optionId == some d.optionId && request.reviewSha256 == some d.reviewSha256
    && request.manifestSha256 == some d.manifestSha256
    && request.acknowledgements == d.acknowledgements

def SameIntent (d' : NativeApplyDispatchRecord) : Prop :=
  d.sourceJobId = d'.sourceJobId ∧ d.optionId = d'.optionId ∧ d.reviewSha256 = d'.reviewSha256 ∧
    d.manifestSha256 = d'.manifestSha256 ∧ d.acknowledgements = d'.acknowledgements

variable {d} {d' : NativeApplyDispatchRecord} {request : NativeApplyControlRequest}

theorem matchesStart_iff : d.matchesStart request = true ↔
    request.command = .start ∧ request.sourceJobId = some d.sourceJobId ∧
      request.optionId = some d.optionId ∧ request.reviewSha256 = some d.reviewSha256 ∧
      request.manifestSha256 = some d.manifestSha256 ∧
      request.acknowledgements = d.acknowledgements := by
  simp only [matchesStart, Bool.and_eq_true, beq_iff_eq, and_assoc]

theorem sameIntent_of_matchesStart (h : d.matchesStart request = true)
    (h' : d'.matchesStart request = true) : d.SameIntent d' := by
  obtain ⟨-, hsource, hoption, hreview, hmanifest, hacks⟩ := matchesStart_iff.1 h
  obtain ⟨-, hsource', hoption', hreview', hmanifest', hacks'⟩ := matchesStart_iff.1 h'
  exact ⟨Option.some.inj (hsource.symm.trans hsource'),
    Option.some.inj (hoption.symm.trans hoption'),
    Option.some.inj (hreview.symm.trans hreview'),
    Option.some.inj (hmanifest.symm.trans hmanifest'), hacks.symm.trans hacks'⟩

theorem SameIntent.trans {d'' : NativeApplyDispatchRecord} (h : d.SameIntent d')
    (h' : d'.SameIntent d'') : d.SameIntent d'' :=
  ⟨h.1.trans h'.1, h.2.1.trans h'.2.1, h.2.2.1.trans h'.2.2.1, h.2.2.2.1.trans h'.2.2.2.1,
    h.2.2.2.2.trans h'.2.2.2.2⟩

theorem SameIntent.symm (h : d.SameIntent d') : d'.SameIntent d :=
  ⟨h.1.symm, h.2.1.symm, h.2.2.1.symm, h.2.2.2.1.symm, h.2.2.2.2.symm⟩

theorem SameIntent.matchesStart (h : d.SameIntent d') (hd : d.matchesStart request = true) :
    d'.matchesStart request = true := by
  obtain ⟨hsource, hoption, hreview, hmanifest, hacks⟩ := h
  rw [matchesStart_iff] at hd ⊢
  rwa [← hsource, ← hoption, ← hreview, ← hmanifest, ← hacks]

end NativeApplyDispatchRecord

/-- The worker that took it. -/
structure NativeApplyWorkerClaim where
  applyJobId : Text
  sourceJobId : Text
  dispatchGeneration : ℕ
  process : ProcessIdentity
  deriving DecidableEq

namespace NativeApplyWorkerClaim

variable (c : NativeApplyWorkerClaim)

def validate : Except String Unit := do
  requireLowerHex "native Apply worker job ID" c.applyJobId 32
  requireLowerHex "native Apply worker source job ID" c.sourceJobId 32
  check (!(decide (c.dispatchGeneration < 2) || decide (c.process.pid ≤ 1)
    || c.process.processGroup != c.process.pid || c.process.starttimeTicks == 0))
    "native Apply worker claim identity is invalid"

def forProcess (dispatch : NativeApplyDispatchRecord) (process : ProcessIdentity) :
    Except String NativeApplyWorkerClaim := do
  dispatch.validate
  check dispatch.executable "native Apply worker claim requires executable state"
  let claim : NativeApplyWorkerClaim :=
    ⟨dispatch.applyJobId, dispatch.sourceJobId, dispatch.generation, process⟩
  claim.validate
  return claim

def matchesDispatch (dispatch : NativeApplyDispatchRecord) : Bool :=
  c.applyJobId == dispatch.applyJobId && c.sourceJobId == dispatch.sourceJobId
    && decide (c.dispatchGeneration ≤ dispatch.generation) && dispatch.executable

theorem forProcess_eq_ok {dispatch : NativeApplyDispatchRecord} {process : ProcessIdentity}
    {c : NativeApplyWorkerClaim} (h : forProcess dispatch process = .ok c) :
    dispatch.executable = true ∧
      c = ⟨dispatch.applyJobId, dispatch.sourceJobId, dispatch.generation, process⟩ := by
  simp only [forProcess, bind_ok, exists_unit, check_ok, pure, Except.pure,
    Except.ok.injEq] at h
  obtain ⟨-, hexecutable, -, rfl⟩ := h
  exact ⟨hexecutable, rfl⟩

end NativeApplyWorkerClaim

inductive NativeApplyTerminalOutcome where
  | applied
  | alreadyApplied
  | rolledBack
  | failed
  deriving DecidableEq

def NativeApplyTerminalOutcome.success : NativeApplyTerminalOutcome → Bool
  | .applied | .alreadyApplied => true
  | .rolledBack | .failed => false

/-- What it came to. -/
structure NativeApplyTerminalRecord where
  dispatch : NativeApplyDispatchRecord
  outcome : NativeApplyTerminalOutcome
  recoveryCleared : Bool
  diagnostic : Text
  deriving DecidableEq

def NativeApplyTerminalRecord.validate (t : NativeApplyTerminalRecord) : Except String Unit := do
  t.dispatch.validate
  check (t.dispatch.state != .accepted)
    "native Apply terminal record was not advanced by the coordinator"
  check (!(decide (byteLength t.diagnostic > 512)
    || !t.diagnostic.all fun c => decide (32 ≤ c.toNat) && decide (c.toNat ≤ 126)))
    "native Apply terminal diagnostic is invalid"
  check (!(t.outcome.success && (!t.recoveryCleared || !t.diagnostic.isEmpty)))
    "successful native Apply terminal evidence is inconsistent"
  check (!(t.outcome.success && t.dispatch.state != .applying))
    "successful native Apply terminal was not applied"

/-- `bounded_native_apply_diagnostic`: graphic bytes and blanks, at most 480, trimmed. -/
def boundedDiagnostic (error : Text) : Text :=
  let text := ((utf8 error).map fun byte =>
    if byte == 0x20 || (0x21 ≤ byte && byte ≤ 0x7e) then Char.ofNat byte.toNat else ' ').take 480
  (text.dropWhile (· == ' ')).reverse.dropWhile (· == ' ') |>.reverse

end CakeAutorate.NativeApply
