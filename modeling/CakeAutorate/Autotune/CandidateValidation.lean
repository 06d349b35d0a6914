/-
# The validation of a shaped candidate

`validate_shaped_candidate` of `autotune.rs`: the sixteen gates, the verdicts and the score that are
read off them, and the correction of each direction.  Percentages, delays and rates between roundings
are rationals where the source has floats.

The source names a gate by a text such as `download-icmp-latency`, and asks of it whether it contains
`latency` or ends with `-cpu`.  Here a gate is named by its direction and its kind, which have the
text.
-/

import CakeAutorate.Autotune.SearchReview

namespace CakeAutorate.Autotune

structure DirectionValidationInput where
  observedLowKbps : ℕ
  candidateKbps : ℕ
  realizedKbps : ℕ
  achievedKbps : ℕ
  minimumKbps : ℕ
  maximumKbps : ℕ

structure DirectionLoadInput where
  icmpDeltaMs : ℚ
  transportDeltaMs : ℚ
  lossPercent : ℚ
  cpuPercent : ℚ

structure ValidationInput where
  profile : AutotuneProfile
  download : DirectionValidationInput
  upload : DirectionValidationInput
  downloadLoad : DirectionLoadInput
  uploadLoad : DirectionLoadInput
  thresholds : ValidationThresholds

structure DirectionValidationMetrics where
  candidateRealizationPercent : ℚ
  capacityRetentionPercent : ℚ
  candidateCapacityPercent : ℚ

inductive ValidationScope where
  | download
  | upload
  deriving DecidableEq

def ValidationScope.asStr : ValidationScope → String
  | .download => "download"
  | .upload => "upload"

/-- What a gate is about: the part of its code after the direction. -/
inductive GateKind where
  | candidateRealization
  | candidateRealizationMaximum
  | capacityRetention
  | throughputSafetyFloor
  | icmpLatency
  | transportLatency
  | packetLoss
  | cpu
  deriving DecidableEq

def GateKind.asStr : GateKind → String
  | .candidateRealization => "candidate-realization"
  | .candidateRealizationMaximum => "candidate-realization-maximum"
  | .capacityRetention => "capacity-retention"
  | .throughputSafetyFloor => "throughput-safety-floor"
  | .icmpLatency => "icmp-latency"
  | .transportLatency => "transport-latency"
  | .packetLoss => "packet-loss"
  | .cpu => "cpu"

/-- `gate.code.contains("latency")`. -/
def GateKind.isLatency : GateKind → Bool
  | .icmpLatency | .transportLatency => true
  | _ => false

/-- `gate.code.ends_with("-cpu")`. -/
def GateKind.isCpu : GateKind → Bool
  | .cpu => true
  | _ => false

def gateCode (scope : ValidationScope) (kind : GateKind) : String :=
  scope.asStr ++ "-" ++ kind.asStr

inductive GateComparison where
  | minimum
  | maximum
  | exclusiveMaximum

/-- `ValidationGate`: the scope and the kind make its code. -/
structure ValidationGate where
  scope : ValidationScope
  kind : GateKind
  required : Bool
  pass : Bool
  actual : ℚ
  limit : ℚ
  comparison : GateComparison

inductive CorrectionAction where
  | none
  | increase
  | decrease
  | mixed
  | retryMeasurement
  | infeasible
  deriving DecidableEq

structure DirectionCorrection where
  action : CorrectionAction
  scale : ℚ
  proposedKbps : ℕ
  requiredFloorKbps : ℕ
  predictedCapacityRetentionPercent : ℚ
  reason : String

structure ValidationCorrection where
  action : CorrectionAction
  feasible : Bool
  reason : String
  download : DirectionCorrection
  upload : DirectionCorrection

structure ValidationResult where
  profile : AutotuneProfile
  pass : Bool
  hardPass : Bool
  safetyPass : Bool
  profileObjectivesMet : Bool
  qualityTargetMet : Bool
  actualGrade : QualityClass
  score : ℚ
  effectiveDeltaMs : ℚ
  download : DirectionValidationMetrics
  upload : DirectionValidationMetrics
  downloadLoad : DirectionLoadInput
  uploadLoad : DirectionLoadInput
  gates : List ValidationGate
  correction : ValidationCorrection

def validateDirectionValidationInput (name : String) (input : DirectionValidationInput) :
    Except String Unit := do
  check (decide (input.observedLowKbps ≠ 0 ∧ input.candidateKbps ≠ 0 ∧ input.realizedKbps ≠ 0 ∧
      input.achievedKbps ≠ 0))
    (name ++ " observed, candidate, realized, and achieved rates must be positive")
  [("observed", input.observedLowKbps), ("candidate", input.candidateKbps),
      ("realized", input.realizedKbps), ("achieved", input.achievedKbps),
      ("minimum", input.minimumKbps), ("maximum", input.maximumKbps)].forM fun rate =>
    check (decide (rate.2 ≤ maxRate))
      (name ++ " " ++ rate.1 ++ " rate must not exceed 100000000 kbit/s")
  check (decide (input.minimumKbps ≠ 0 ∧ input.minimumKbps ≤ input.candidateKbps ∧
      input.candidateKbps ≤ input.maximumKbps))
    (name ++ " validation rates must be ordered minimum <= candidate <= maximum")

/-- `validate_direction_load_input`: each metric with its upper end. -/
def validateDirectionLoadInput (name : String) (input : DirectionLoadInput) : Except String Unit :=
  [("ICMP delta", input.icmpDeltaMs, maxLatencyMs, "60000"),
      ("transport delta", input.transportDeltaMs, maxLatencyMs, "60000"),
      ("loss percent", input.lossPercent, 100, "100"),
      ("CPU percent", input.cpuPercent, 100, "100")].forM fun metric =>
    check (within 0 metric.2.1 metric.2.2.1)
      (name ++ " " ++ metric.1 ++ " must be finite and between 0 and " ++ metric.2.2.2)

/-- `validate_validation_input`, the thresholds. -/
def validateThresholds (t : ValidationThresholds) : Except String Unit := do
  [("candidate realization minimum", t.candidateRealizationMinPercent),
      ("capacity retention minimum", t.capacityRetentionMinPercent),
      ("loss maximum", t.lossMaxPercent), ("CPU maximum", t.cpuMaxPercent)].forM fun threshold =>
    check (within 0 threshold.2 100) (threshold.1 ++ " must be between 0 and 100")
  check (within 100 t.candidateRealizationMaxPercent 200)
    "candidate realization maximum must be between 100 and 200"
  check (decide (t.candidateRealizationMinPercent ≤ t.candidateRealizationMaxPercent))
    "candidate realization maximum must not be below its minimum"
  [("ICMP delta maximum", t.icmpDeltaMaxMs),
      ("transport delta maximum", t.transportDeltaMaxMs)].forM fun threshold =>
    check (within 0 threshold.2 maxLatencyMs)
      (threshold.1 ++ " must be a finite number between 0 and 60000")

def validateValidationInput (input : ValidationInput) : Except String Unit := do
  validateDirectionValidationInput "download" input.download
  validateDirectionValidationInput "upload" input.upload
  validateDirectionLoadInput "download" input.downloadLoad
  validateDirectionLoadInput "upload" input.uploadLoad
  validateThresholds input.thresholds

def validationMetrics (input : DirectionValidationInput) : DirectionValidationMetrics where
  candidateRealizationPercent := input.realizedKbps * 100 / input.candidateKbps
  capacityRetentionPercent := input.achievedKbps * 100 / input.observedLowKbps
  candidateCapacityPercent := input.candidateKbps * 100 / input.observedLowKbps

section

variable (scope : ValidationScope) (kind : GateKind) (actual limit : ℚ)

def minimumGate : ValidationGate :=
  ⟨scope, kind, true, decide (limit ≤ actual), actual, limit, .minimum⟩

def advisoryMinimumGate : ValidationGate :=
  { minimumGate scope kind actual limit with required := false }

def maximumGate : ValidationGate :=
  ⟨scope, kind, true, decide (actual ≤ limit), actual, limit, .maximum⟩

def advisoryMaximumGate : ValidationGate :=
  { maximumGate scope kind actual limit with required := false }

def exclusiveMaximumGate : ValidationGate :=
  ⟨scope, kind, true, decide (actual < limit), actual, limit, .exclusiveMaximum⟩

end

def AutotuneProfile.qualityTargetRequired (profile : AutotuneProfile) : Bool := profile != .fair

namespace ValidationInput

section

variable (input : ValidationInput)

def rates : ValidationScope → DirectionValidationInput
  | .download => input.download
  | .upload => input.upload

def load : ValidationScope → DirectionLoadInput
  | .download => input.downloadLoad
  | .upload => input.uploadLoad

def metrics (scope : ValidationScope) : DirectionValidationMetrics :=
  validationMetrics (input.rates scope)

/-- `validate_shaped_candidate`, a gate of the vector. -/
def gate (scope : ValidationScope) : GateKind → ValidationGate
  | .candidateRealization =>
    minimumGate scope .candidateRealization (input.metrics scope).candidateRealizationPercent
      input.thresholds.candidateRealizationMinPercent
  | .candidateRealizationMaximum =>
    maximumGate scope .candidateRealizationMaximum (input.metrics scope).candidateRealizationPercent
      input.thresholds.candidateRealizationMaxPercent
  | .capacityRetention =>
    advisoryMinimumGate scope .capacityRetention (input.metrics scope).capacityRetentionPercent
      input.thresholds.capacityRetentionMinPercent
  | .throughputSafetyFloor =>
    advisoryMinimumGate scope .throughputSafetyFloor (input.metrics scope).capacityRetentionPercent
      throughputTrustFloorPercent
  | .icmpLatency =>
    exclusiveMaximumGate scope .icmpLatency (input.load scope).icmpDeltaMs
      input.thresholds.icmpDeltaMaxMs
  | .transportLatency =>
    exclusiveMaximumGate scope .transportLatency (input.load scope).transportDeltaMs
      input.thresholds.transportDeltaMaxMs
  | .packetLoss =>
    maximumGate scope .packetLoss (input.load scope).lossPercent input.thresholds.lossMaxPercent
  | .cpu =>
    advisoryMaximumGate scope .cpu (input.load scope).cpuPercent input.thresholds.cpuMaxPercent

end

def gateOrder : List (ValidationScope × GateKind) :=
  [(.download, .candidateRealization), (.upload, .candidateRealization),
    (.download, .candidateRealizationMaximum), (.upload, .candidateRealizationMaximum),
    (.download, .capacityRetention), (.upload, .capacityRetention),
    (.download, .throughputSafetyFloor), (.upload, .throughputSafetyFloor),
    (.download, .icmpLatency), (.download, .transportLatency), (.download, .packetLoss),
    (.download, .cpu),
    (.upload, .icmpLatency), (.upload, .transportLatency), (.upload, .packetLoss), (.upload, .cpu)]

/-- `validate_shaped_candidate`: a profile without a required quality target makes the latency gates
advisory. -/
def relax (input : ValidationInput) (g : ValidationGate) : ValidationGate :=
  { g with
    required := if !input.profile.qualityTargetRequired && g.kind.isLatency then false
      else g.required }

/-- `validate_shaped_candidate`, `gates`. -/
def gates (input : ValidationInput) : List ValidationGate :=
  gateOrder.map fun entry => input.relax (input.gate entry.1 entry.2)

end ValidationInput

def gatePass (gates : List ValidationGate) (scope : ValidationScope) (kind : GateKind) : Bool :=
  ((gates.find? fun g => g.scope == scope && g.kind == kind).map ValidationGate.pass).getD false

/-- `validation_score`, of one gate. -/
def gateScore (g : ValidationGate) : ℚ :=
  match g.comparison with
  | .minimum => if g.limit ≤ 0 then 100 else g.actual * 100 / g.limit
  | .maximum =>
    if g.actual ≤ g.limit ∨ g.actual ≤ 0 then 100
    else if g.limit ≤ 0 then 0
    else g.limit * 100 / g.actual
  | .exclusiveMaximum =>
    if g.actual < g.limit ∨ g.actual ≤ 0 then 100
    else if g.limit ≤ 0 then 0
    else g.limit * 100 / g.actual

def validationScore (gates : List ValidationGate) : ℚ :=
  min (max (((gates.filter fun g => !g.kind.isCpu).map gateScore).foldl min 100) 0) 100

/-- `rounded_rate`: what `checked_rounded_rate` refuses stops the program. -/
def roundedRate (rateKbps : ℚ) : Except SearchFailure ℕ :=
  (checkedRoundedRate rateKbps).mapError fun _ =>
    .panic "rate derived from previously validated bounded integer input"

section

variable (input : DirectionValidationInput) (metrics : DirectionValidationMetrics)

def requiredCandidateForFloor (floorPercent : ℚ) : ℕ :=
  let realization := metrics.candidateRealizationPercent / 100
  roundedSearchRate (input.observedLowKbps * (floorPercent / 100) / realization)

def predictedCapacityRetention (proposedKbps : ℕ) : ℚ :=
  metrics.capacityRetentionPercent * proposedKbps / input.candidateKbps

def holdDirectionCorrection (floorPercent : ℚ) : DirectionCorrection where
  action := .none
  scale := 1
  proposedKbps := input.candidateKbps
  requiredFloorKbps := requiredCandidateForFloor input metrics floorPercent
  predictedCapacityRetentionPercent := metrics.capacityRetentionPercent
  reason := "hold"

end

def retryDirectionCorrection (correction : DirectionCorrection) (reason : String) :
    DirectionCorrection :=
  { correction with action := .retryMeasurement, reason }

section

variable (input : DirectionValidationInput)

def infeasibleDirectionCorrection (metrics : DirectionValidationMetrics) (requiredFloorKbps : ℕ)
    (reason : String) : DirectionCorrection where
  action := .infeasible
  scale := 1
  proposedKbps := input.candidateKbps
  requiredFloorKbps
  predictedCapacityRetentionPercent := metrics.capacityRetentionPercent
  reason

def decreaseDirectionCorrection (metrics : DirectionValidationMetrics) (floorPercent : ℚ) :
    Except SearchFailure DirectionCorrection := do
  let required := max (requiredCandidateForFloor input metrics floorPercent) input.minimumKbps
  if input.candidateKbps ≤ required then
    return infeasibleDirectionCorrection input metrics required
      "capacity-floor-leaves-no-room-to-decrease"
  else
    let bounded ← roundedRate (input.candidateKbps * (95 / 100))
    let desired := max (max bounded input.minimumKbps) required
    if input.candidateKbps ≤ desired then
      return infeasibleDirectionCorrection input metrics required
        "bounded-decrease-rounds-to-current-rate"
    else
      return {
        action := .decrease
        scale := desired / input.candidateKbps
        proposedKbps := desired
        requiredFloorKbps := required
        predictedCapacityRetentionPercent := predictedCapacityRetention input metrics desired
        reason := "reduce-adverse-loaded-signal" }

/-- `increase_direction_correction`, `revision_upper`. -/
def revisionUpper (observedLowCeiling : ℚ) : Except SearchFailure ℕ := do
  let observed ← roundedRate (input.observedLowKbps * observedLowCeiling)
  let bounded ← roundedRate (input.candidateKbps * (120 / 100))
  return max (min (min observed input.maximumKbps) bounded) input.minimumKbps

def increaseDirectionCorrection (metrics : DirectionValidationMetrics)
    (floorPercent observedLowCeiling : ℚ) : Except SearchFailure DirectionCorrection := do
  let required := max (requiredCandidateForFloor input metrics floorPercent) input.minimumKbps
  let upper ← revisionUpper input observedLowCeiling
  if upper < required then
    return infeasibleDirectionCorrection input metrics required
      (if input.maximumKbps < required then "maximum-rate-below-required-floor"
        else "bounded-increase-below-required-floor")
  else
    let bounded ← roundedRate (input.candidateKbps * (105 / 100))
    let desired := min (max bounded required) upper
    if desired ≤ input.candidateKbps then
      return infeasibleDirectionCorrection input metrics required
        "bounded-increase-cannot-reach-required-floor"
    else
      return {
        action := .increase
        scale := desired / input.candidateKbps
        proposedKbps := desired
        requiredFloorKbps := required
        predictedCapacityRetentionPercent := predictedCapacityRetention input metrics desired
        reason := "increase-clean-link-capacity" }

end

/-- `validation_correction`, the gates of an adverse signal. -/
def adverseKinds : List GateKind := [.icmpLatency, .transportLatency, .packetLoss]

def directionValidationCorrection (input : DirectionValidationInput)
    (metrics : DirectionValidationMetrics) (floorPercent : ℚ) (gates : List ValidationGate)
    (scope : ValidationScope) (observedLowCeiling : ℚ) : Except SearchFailure DirectionCorrection :=
  let hold := holdDirectionCorrection input metrics floorPercent
  if gatePass gates scope .candidateRealization = false then
    .ok (retryDirectionCorrection hold "candidate-realization-too-low")
  else if gatePass gates scope .candidateRealizationMaximum = false then
    .ok (retryDirectionCorrection hold "candidate-realization-too-high")
  else if adverseKinds.any (fun kind => !gatePass gates scope kind) = true then
    decreaseDirectionCorrection input metrics floorPercent
  else if gatePass gates scope .capacityRetention = false then
    increaseDirectionCorrection input metrics floorPercent observedLowCeiling
  else .ok hold

def correctionActionForDirections (download upload : DirectionCorrection) : CorrectionAction :=
  match download.action, upload.action with
  | .none, .none => .none
  | .increase, .none | .none, .increase | .increase, .increase => .increase
  | .decrease, .none | .none, .decrease | .decrease, .decrease => .decrease
  | _, _ => .mixed

/-- `validation_correction`, the reason of a correction that can be made. -/
def feasibleReason : CorrectionAction → String
  | .increase => "clean-link-capacity-correction"
  | .decrease => "adverse-loaded-signal"
  | .mixed => "direction-specific-mixed-correction"
  | .none => "no-correction-required"
  | _ => "direction-specific-correction"

/-- `validation_correction`, the corrections of the directions taken together. -/
def combineCorrections (download upload : DirectionCorrection) : ValidationCorrection :=
  let both := [download, upload]
  if download.action = .retryMeasurement ∨ upload.action = .retryMeasurement then
    ⟨.retryMeasurement, false,
      if both.any (fun c => c.reason == "candidate-realization-too-high") then
        "candidate-realization-too-high"
      else "candidate-realization-too-low", download, upload⟩
  else if download.action = .infeasible ∨ upload.action = .infeasible then
    ⟨.infeasible, false,
      if both.any (fun c => c.action == .infeasible &&
          c.reason == "capacity-floor-leaves-no-room-to-decrease") then
        "safety-floor-blocks-rate-reduction"
      else if both.any (fun c => c.action == .infeasible &&
          c.reason == "maximum-rate-below-required-floor") then
        "maximum-rate-cannot-reach-safety-floor"
      else "bounded-correction-cannot-reach-safety-floor", download, upload⟩
  else
    let action := correctionActionForDirections download upload
    ⟨action, true, feasibleReason action, download, upload⟩

def validationCorrection (input : ValidationInput) (gates : List ValidationGate) (pass : Bool) :
    Except SearchFailure ValidationCorrection :=
  let floor := input.thresholds.capacityRetentionMinPercent
  if pass then
    .ok ⟨.none, true, "candidate-passed",
      holdDirectionCorrection input.download (input.metrics .download) floor,
      holdDirectionCorrection input.upload (input.metrics .upload) floor⟩
  else do
    let download ← directionValidationCorrection input.download (input.metrics .download) floor
      gates .download 1
    let upload ← directionValidationCorrection input.upload (input.metrics .upload) floor
      gates .upload 1
    return combineCorrections download upload

def allPass (gates : List ValidationGate) (keep : ValidationGate → Bool) : Bool :=
  (gates.filter keep).all ValidationGate.pass

/-- `validate_shaped_candidate`, the verdicts on the gates and what is measured. -/
def ValidationInput.verdict (input : ValidationInput) (correction : ValidationCorrection) :
    ValidationResult :=
  let gates := input.gates
  let effectiveDeltaMs := max (max (max input.downloadLoad.icmpDeltaMs
    input.downloadLoad.transportDeltaMs) input.uploadLoad.icmpDeltaMs)
    input.uploadLoad.transportDeltaMs
  { profile := input.profile
    pass := allPass gates fun g => g.required || g.kind.isLatency
    hardPass := allPass gates fun g => g.required
    safetyPass :=
      allPass gates (fun g =>
        g.required && !g.kind.isLatency && g.kind != .candidateRealization) &&
      decide (throughputTrustFloorPercent ≤ (input.metrics .download).candidateRealizationPercent) &&
      decide (throughputTrustFloorPercent ≤ (input.metrics .upload).candidateRealizationPercent)
    profileObjectivesMet := allPass gates fun g =>
      g.kind == .candidateRealization || g.kind == .capacityRetention
    qualityTargetMet := allPass gates fun g => g.kind.isLatency
    actualGrade := classifyQuality effectiveDeltaMs
    score := validationScore gates
    effectiveDeltaMs
    download := input.metrics .download
    upload := input.metrics .upload
    downloadLoad := input.downloadLoad
    uploadLoad := input.uploadLoad
    gates
    correction }

def validateShapedCandidate (input : ValidationInput) : Except SearchFailure ValidationResult := do
  (validateValidationInput input).mapError .error
  let pass := allPass input.gates fun g => g.required || g.kind.isLatency
  let correction ← validationCorrection input input.gates pass
  return input.verdict correction

end CakeAutorate.Autotune
