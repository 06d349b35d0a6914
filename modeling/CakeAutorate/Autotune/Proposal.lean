/-
# Calibration proposals

`AutotuneProposal` of `autotune.rs`: how a proposal is built from throughput samples, and the calls
that revise it.  Samples, scales and delays are rationals where the source has floats.  Of the
proposal's fields the model keeps those that a call reads or writes; the thresholds, the policy of
the adaptive ceiling and the queue settings are computed once and never changed by a call.

A call takes the proposal by mutable reference, so a call that is refused may have changed it: each
call here returns the proposal it leaves beside its result.
-/

import CakeAutorate.Autotune.Context
import CakeAutorate.Controller.AdaptiveCeiling
import Mathlib.Data.List.Sort

namespace CakeAutorate.Autotune

open Controller (roundRate)

/-- `MAX_RATE_KBPS`. -/
def maxRate : ℕ := 100000000

inductive SearchDirection where
  | download
  | upload
  deriving DecidableEq

inductive CeilingEvidence where
  | unvalidatedCandidate
  | shapedValidation
  | retainedConfiguration
  deriving DecidableEq

inductive CeilingCapSource where
  | measuredRaw
  | userServiceLimit
  | retainedConfiguration
  deriving DecidableEq

structure ProposalContext where
  accessMedium : Option AccessMedium
  accessSource : AccessEvidenceSource
  accessConfidencePercent : ℕ
  capacityLearningPolicy : Option CapacityLearningPolicy
  downloadServiceCapKbps : Option ℕ
  uploadServiceCapKbps : Option ℕ

structure LatencyBaseline where
  medianMs : ℚ
  p95Ms : ℚ
  samples : ℕ

/-- The rates proposed for a direction. -/
structure DirectionProposal where
  minimumKbps : ℕ
  explorationMinimumKbps : ℕ
  runtimeMinimumKbps : Option ℕ
  baseKbps : ℕ
  maximumKbps : ℕ
  testedSafeMaximumKbps : Option ℕ
  explorationCapKbps : ℕ
  absoluteCapKbps : ℕ
  serviceHardCapKbps : Option ℕ
  ceilingEvidence : CeilingEvidence
  capSource : CeilingCapSource
  observedLowKbps : ℕ
  observedMedianKbps : ℕ
  observedHighKbps : ℕ
  variability : ℚ
  deriving DecidableEq

/-- The proposal for both directions. -/
structure AutotuneProposal where
  profile : AutotuneProfile
  download : DirectionProposal
  upload : DirectionProposal
  warnings : List String
  deriving DecidableEq

/-- `checked_rounded_rate`: to the nearest hundred, at least 100 and at most `MAX_RATE_KBPS`.  What
is left is in range, so its last test has nothing to refuse. -/
def checkedRoundedRate (rateKbps : ℚ) : Except String ℕ :=
  if rateKbps ≤ 0 then .error "calculated rate must be a finite positive number"
  else
    let rounded := roundRate (max rateKbps 100 / 100) * 100
    if rounded > maxRate then .ok maxRate else .ok ⌊rounded⌋.toNat

def AccessMedium.variableExplorationFloor : AccessMedium → ℚ
  | .cellular | .leoSatellite => 35 / 100
  | .geoSatellite | .fixedWireless => 40 / 100
  | .sharedWired | .unknown => 50 / 100

def AutotuneProfile.explorationMinimumFactor (profile : AutotuneProfile) (variable_ : Bool)
    (observedLowKbps : ℚ) (direction : SearchDirection) : ℚ :=
  match profile with
  | .gaming | .gamingExtreme =>
    match direction with
    | .download =>
      if 500000 ≤ observedLowKbps then 25 / 100
      else if 100000 ≤ observedLowKbps then 40 / 100
      else if 25000 ≤ observedLowKbps then 55 / 100
      else 70 / 100
    | .upload =>
      if 500000 ≤ observedLowKbps then 25 / 100
      else if 100000 ≤ observedLowKbps then 30 / 100
      else if 20000 ≤ observedLowKbps then 50 / 100
      else 70 / 100
  | .bestOverall => if variable_ then 40 / 100 else 70 / 100
  | .variableLink => 35 / 100
  | .fair => 35 / 100

/-- `percentile` of sorted samples. -/
def percentile (sorted : List ℚ) (fraction : ℚ) : ℚ :=
  if sorted.length = 1 then sorted.getD 0 0
  else
    let position := min (max fraction 0) 1 * (sorted.length - 1 : ℕ)
    let lower := ⌊position⌋.toNat
    let upper := ⌈position⌉.toNat
    if lower = upper then sorted.getD lower 0
    else
      let weight := position - lower
      sorted.getD lower 0 * (1 - weight) + sorted.getD upper 0 * weight

def proposeDirection (samplesKbps : List ℚ) (profile : AutotuneProfile) (direction : SearchDirection)
    (accessMedium : Option AccessMedium) : Except String DirectionProposal := do
  let samples := samplesKbps.insertionSort (· ≤ ·)
  let low := if samples.length ≤ 3 then samples.getD 0 0 else percentile samples (20 / 100)
  let median := percentile samples (50 / 100)
  let high := percentile samples (90 / 100)
  let variability := max ((high - low) / max median 1) 0
  let factor := profile.explorationMinimumFactor (15 / 100 ≤ variability) low direction
  let minimumFactor :=
    if profile = .variableLink then
      (accessMedium.map AccessMedium.variableExplorationFloor).getD factor
    else factor
  let minimum ← checkedRoundedRate (low * minimumFactor)
  let observedLow ← checkedRoundedRate low
  let observedHigh ← checkedRoundedRate high
  let base := max observedLow minimum
  let maximum := max observedHigh base
  let observedMedian ← checkedRoundedRate median
  return {
    minimumKbps := minimum
    explorationMinimumKbps := minimum
    runtimeMinimumKbps := none
    baseKbps := base
    maximumKbps := maximum
    testedSafeMaximumKbps := none
    explorationCapKbps := maximum
    absoluteCapKbps := maximum
    serviceHardCapKbps := none
    ceilingEvidence := .unvalidatedCandidate
    capSource := .measuredRaw
    observedLowKbps := observedLow
    observedMedianKbps := observedMedian
    observedHighKbps := observedHigh
    variability }

def applyServiceCap (name : String) (serviceCapKbps : Option ℕ) (d : DirectionProposal) :
    Except String DirectionProposal :=
  match serviceCapKbps with
  | none => .ok d
  | some cap =>
    if ¬(100 ≤ cap ∧ cap ≤ maxRate) then
      .error (name ++ " service hard cap must be between 100 and 100000000 kbit/s")
    else if cap ≤ d.absoluteCapKbps then
      let maximum := min d.maximumKbps cap
      let base := min d.baseKbps maximum
      .ok { d with
        serviceHardCapKbps := some cap
        absoluteCapKbps := cap
        maximumKbps := maximum
        baseKbps := base
        explorationMinimumKbps := min d.explorationMinimumKbps base
        minimumKbps := min d.minimumKbps base
        capSource := .userServiceLimit }
    else .ok { d with serviceHardCapKbps := some cap }

/-- `validate_throughput_samples`; the text counts samples from one. -/
def validateThroughputSamples (name : String) (samples : List ℚ) : Except String Unit := do
  check (!samples.isEmpty) ("at least one " ++ name ++ " throughput sample is required")
  check (decide (samples.length ≤ 1024)) (name ++ " throughput sample count must not exceed 1024")
  samples.zipIdx.forM fun sample =>
    check (decide (0 < sample.1 ∧ sample.1 ≤ maxRate))
      (name ++ " throughput sample " ++ toString (sample.2 + 1) ++
        " must be finite and between 0 and 100000000 kbit/s")

def validateLatencyBaseline (baseline : LatencyBaseline) : Except String Unit := do
  check (decide (0 < baseline.medianMs ∧ baseline.medianMs ≤ 60000))
    "idle median must be finite and between 0 and 60000 ms"
  check (decide (baseline.medianMs ≤ baseline.p95Ms ∧ baseline.p95Ms ≤ 60000))
    "idle p95 must be finite, at least the median, and at most 60000 ms"
  check (decide (baseline.samples ≠ 0 ∧ baseline.samples ≤ 1000000))
    "idle sample count must be between 1 and 1000000"

/-- The warnings that `build_proposal_for_profile_with_context` gives about a profile. -/
def AutotuneProfile.warnings (profile : AutotuneProfile) (context : ProposalContext) : List String :=
  (if profile = .gaming ∨ profile = .gamingExtreme then
    ["Gaming uses native profile rules for outbound DSCP classification. Review or disable the built-in presets and add explicit application/network rules when needed.",
      "Gaming preserves ingress DSCP because download packets reach the SQM IFB before outbound nftables classification. Use Best overall when upstream markings are not trusted."]
  else
    ["Profile traffic rules classify outbound traffic with diffserv4. Download traffic remains best effort because WAN ingress reaches the SQM IFB before the native nftables rule hooks."])
  ++ (if profile = .fair then
    ["Fair prioritizes sustained throughput with a 90% retention objective and a separate 50% historical-throughput trust warning. Class C is a conditional goal; if the link cannot reach the objective, only a controlled candidate may be offered for explicit review instead of chasing bandwidth through excessive latency.",
      "When a validated no-SQM control is no worse than the best shaped candidate, Review may recommend disabling SQM. That choice is never applied automatically."]
  else [])
  ++ (if profile = .variableLink then
    [match context.accessMedium with
      | some .cellular | some .leoSatellite | none =>
        "Variable link may explore down to 35% of the conservative raw reference. Its runtime minimum is not trusted until Full Auto-Tune proves an actual CAKE-controlled latency knee."
      | some .geoSatellite | some .fixedWireless =>
        "Variable link may explore down to 40% of the conservative raw reference for this access medium. Its runtime minimum is accepted only from a tested CAKE-controlled latency knee."
      | some .sharedWired | some .unknown =>
        "Variable link keeps a 50% exploration floor because this shared or unknown access medium cannot safely justify a deeper automatic search."]
    ++ (if context.accessSource = .autoInconclusive then
      ["Access-medium auto-detection was inconclusive. Ethernet and PPPoE do not prove the provider medium; review the Variable Link access choice before applying scheduled learning."]
    else [])
    ++ (if context.capacityLearningPolicy = some .scheduledActive then
      ["Scheduled active capacity learning generates substantial download and upload traffic. Configure explicit daily and monthly traffic budgets before enabling unattended runs."]
    else [])
  else [])
  ++ (if profile = .gamingExtreme then
    ["Extreme A+ search may test a wide link as low as 25% of its conservative raw reference. Results below 70% retention are manual-only and are not recommended for continuous household use.",
      "Use Extreme A+ only for a time-limited latency-critical session after reviewing the measured throughput sacrifice; ordinary Gaming keeps the 70% exploration boundary."]
  else [])

/-- `build_proposal_for_profile_with_context`. -/
def buildProposal (downloadSamples uploadSamples : List ℚ) (baseline : LatencyBaseline)
    (linkKind : LinkKind) (profile : AutotuneProfile) (context : ProposalContext) :
    Except String AutotuneProposal := do
  validateThroughputSamples "download" downloadSamples
  validateThroughputSamples "upload" uploadSamples
  validateLatencyBaseline baseline
  check (decide (context.accessConfidencePercent ≤ 100))
    "access-medium confidence must be between 0 and 100"
  validateCapacityLearningServiceCaps context.capacityLearningPolicy context.downloadServiceCapKbps
    context.uploadServiceCapKbps
  let download ← proposeDirection downloadSamples profile .download context.accessMedium
  let upload ← proposeDirection uploadSamples profile .upload context.accessMedium
  let download ← applyServiceCap "download" context.downloadServiceCapKbps download
  let upload ← applyServiceCap "upload" context.uploadServiceCapKbps upload
  return {
    profile
    download
    upload
    warnings :=
      (if downloadSamples.length < 2 ∨ uploadSamples.length < 2 then
        ["Only one throughput sample was available; repeat calibration before trusting the limits."]
      else [])
      ++ (if 15 / 100 ≤ download.variability ∨ 15 / 100 ≤ upload.variability then
        ["Measured capacity is variable; conservative base rates and bounded adaptive ceiling are recommended."]
      else [])
      ++ (if linkKind = .unknown then
        ["Link-layer encapsulation could not be detected; verify overhead before applying the proposal."]
      else [])
      ++ profile.warnings context }

def validateBaseScale (scale : ℚ) : Except String Unit :=
  check (decide (35 / 100 ≤ scale ∧ scale ≤ 3 / 2))
    "base-rate revision scale must be between 0.35 and 1.5"

/-- `revise_direction_base`, the rate that a revision may reach: the observed low, within the
exploration cap.  A rate that `rounded_rate` cannot round stops the program. -/
def reviseUpper (d : DirectionProposal) : Except String ℕ :=
  (checkedRoundedRate d.observedLowKbps).map (min · d.explorationCapKbps)

/-- `revise_direction_base` with the ceiling 1. -/
def reviseDirectionBase (scale : ℚ) (d : DirectionProposal) : Except String DirectionProposal := do
  let upper ← reviseUpper d
  let scaled ← checkedRoundedRate (d.baseKbps * scale)
  let base := min (max scaled d.minimumKbps) (max upper d.minimumKbps)
  return { d with
    baseKbps := base
    maximumKbps :=
      if d.ceilingEvidence = .unvalidatedCandidate then max d.maximumKbps base else d.maximumKbps }

def setMeasuredRuntimeMinimum (profile : AutotuneProfile) (name : String) (measured : ℕ)
    (d : DirectionProposal) : Except String DirectionProposal := do
  check (profile == .variableLink || profile == .gaming || profile == .gamingExtreme)
    "measured runtime minimum overrides require variable_link, gaming or gaming_extreme"
  check (decide (d.explorationMinimumKbps ≤ measured ∧ measured ≤ d.baseKbps))
    ("measured " ++ name ++
      " runtime minimum must stay between the exploration minimum and selected base")
  return { d with minimumKbps := measured, runtimeMinimumKbps := some measured }

/-- `set_tested_safe_maximum`, of a direction for which one is given. -/
def setTestedSafeMaximum (name : String) (measured : Option ℕ) (d : DirectionProposal) :
    Except String DirectionProposal :=
  match measured with
  | none => .ok d
  | some measured => do
    check (measured == d.baseKbps)
      ("tested-safe " ++ name ++ " maximum must equal the exact selected base candidate")
    check (decide (d.minimumKbps ≤ measured ∧ measured ≤ d.explorationCapKbps))
      ("tested-safe " ++ name ++ " maximum must stay inside the measured exploration bounds")
    return { d with
      maximumKbps := measured
      testedSafeMaximumKbps := some measured
      ceilingEvidence := .shapedValidation
      absoluteCapKbps := min (max d.absoluteCapKbps measured) (max d.explorationCapKbps measured) }

/-- `set_measurement_base_rates`, its check of a direction. -/
def validateMeasurementBase (name : String) (candidateKbps : ℕ) (d : DirectionProposal) :
    Except String Unit :=
  check (decide (d.explorationMinimumKbps ≤ candidateKbps ∧ candidateKbps ≤ d.maximumKbps))
    (name ++ " measurement base must stay within the measured exploration interval")

/-- `constrain_direction`, the direction that is retained. -/
def retainDirection (retained : Option DirectionProposal) (d : DirectionProposal) :
    DirectionProposal :=
  match retained with
  | none => d
  | some retained =>
    { retained with ceilingEvidence := .retainedConfiguration, capSource := .retainedConfiguration }

/-- `constrain_direction`, `cap_bound`: the confirmed cap where it is positive, or the confirmed
maximum. -/
def capBound (confirmedMax confirmedCap : Option ℕ) : Option ℕ :=
  (confirmedCap.filter (0 < ·)).or confirmedMax

/-- `constrain_direction`, the bound of the cap. -/
def constrainCap (bound : Option ℕ) (d : DirectionProposal) : DirectionProposal :=
  match bound with
  | none => d
  | some cap =>
    let absoluteCap := min d.absoluteCapKbps cap
    let maximum := min d.maximumKbps absoluteCap
    let base := min d.baseKbps maximum
    let minimum := min d.minimumKbps base
    { d with
      absoluteCapKbps := absoluteCap
      explorationCapKbps := min d.explorationCapKbps cap
      maximumKbps := maximum
      testedSafeMaximumKbps := d.testedSafeMaximumKbps.map (min · maximum)
      baseKbps := base
      minimumKbps := minimum
      explorationMinimumKbps := min d.explorationMinimumKbps minimum
      runtimeMinimumKbps := d.runtimeMinimumKbps.map (min · base) }

/-- `constrain_direction`, the bound of the maximum. -/
def constrainMaximum (confirmedMax : Option ℕ) (d : DirectionProposal) : DirectionProposal :=
  match confirmedMax.filter (0 < ·) with
  | none => d
  | some bound =>
    let maximum := min d.maximumKbps bound
    let base := min d.baseKbps maximum
    { d with
      maximumKbps := maximum
      baseKbps := base
      minimumKbps := min d.minimumKbps base
      testedSafeMaximumKbps := d.testedSafeMaximumKbps.map (min · maximum)
      absoluteCapKbps := max d.absoluteCapKbps maximum
      explorationCapKbps := max d.explorationCapKbps maximum }

def constrainDirection (retained : Option DirectionProposal) (confirmedMax confirmedCap : Option ℕ)
    (d : DirectionProposal) : DirectionProposal :=
  constrainMaximum confirmedMax
    (constrainCap (capBound confirmedMax confirmedCap) (retainDirection retained d))

/-- How a call ends: it returns `Ok` or `Err`, or a rate that cannot be rounded stops the program. -/
inductive Outcome where
  | done
  | refused (message : String)
  | panicked
  deriving DecidableEq

namespace AutotuneProposal

section

variable (p : AutotuneProposal)

/-- The directions are updated one after the other: when the upload fails, the download has been
changed. -/
def updateBoth (failed : String → Outcome)
    (download upload : DirectionProposal → Except String DirectionProposal) :
    AutotuneProposal × Outcome :=
  match download p.download with
  | .error message => (p, failed message)
  | .ok changed =>
    match upload p.upload with
    | .error message => ({ p with download := changed }, failed message)
    | .ok changedUpload => ({ p with download := changed, upload := changedUpload }, .done)

def reviseBaseRatesByDirection (downloadScale uploadScale : ℚ) : AutotuneProposal × Outcome :=
  match (do validateBaseScale downloadScale; validateBaseScale uploadScale) with
  | .error message => (p, .refused message)
  | .ok () =>
    p.updateBoth (fun _ => .panicked) (reviseDirectionBase downloadScale)
      (reviseDirectionBase uploadScale)

/-- `set_measurement_base_rates`: the whole pair is checked first. -/
def setMeasurementBaseRates (downloadKbps uploadKbps : ℕ) : AutotuneProposal × Outcome :=
  match (do validateMeasurementBase "download" downloadKbps p.download
            validateMeasurementBase "upload" uploadKbps p.upload) with
  | .error message => (p, .refused message)
  | .ok () =>
    ({ p with
        download := { p.download with baseKbps := downloadKbps }
        upload := { p.upload with baseKbps := uploadKbps } }, .done)

def setMeasuredRuntimeMinimums (downloadKbps uploadKbps : ℕ) : AutotuneProposal × Outcome :=
  p.updateBoth .refused (setMeasuredRuntimeMinimum p.profile "download" downloadKbps)
    (setMeasuredRuntimeMinimum p.profile "upload" uploadKbps)

def setTestedSafeMaximums (downloadKbps uploadKbps : Option ℕ) : AutotuneProposal × Outcome :=
  p.updateBoth .refused (setTestedSafeMaximum "download" downloadKbps)
    (setTestedSafeMaximum "upload" uploadKbps)

def applyConservativeConstraints (retainDownload retainUpload : Option DirectionProposal)
    (downloadMax downloadCap uploadMax uploadCap : Option ℕ) : AutotuneProposal :=
  { p with
    download := constrainDirection retainDownload downloadMax downloadCap p.download
    upload := constrainDirection retainUpload uploadMax uploadCap p.upload
    warnings := p.warnings ++
      ["Conservative calibration constraints were applied: isolated speed-test samples were preserved and confirmed maxima/caps were never raised."] }

end

end AutotuneProposal

/-- A call on a proposal. -/
inductive ProposalCall where
  | reviseBaseRatesByDirection (downloadScale uploadScale : ℚ)
  | setMeasurementBaseRates (downloadKbps uploadKbps : ℕ)
  | setMeasuredRuntimeMinimums (downloadKbps uploadKbps : ℕ)
  | setTestedSafeMaximums (downloadKbps uploadKbps : Option ℕ)
  | applyConservativeConstraints (retainDownload retainUpload : Option DirectionProposal)
      (downloadMax downloadCap uploadMax uploadCap : Option ℕ)

namespace AutotuneProposal

def call (p : AutotuneProposal) : ProposalCall → AutotuneProposal × Outcome
  | .reviseBaseRatesByDirection download upload => p.reviseBaseRatesByDirection download upload
  | .setMeasurementBaseRates download upload => p.setMeasurementBaseRates download upload
  | .setMeasuredRuntimeMinimums download upload => p.setMeasuredRuntimeMinimums download upload
  | .setTestedSafeMaximums download upload => p.setTestedSafeMaximums download upload
  | .applyConservativeConstraints retainDownload retainUpload downloadMax downloadCap uploadMax
      uploadCap =>
    (p.applyConservativeConstraints retainDownload retainUpload downloadMax downloadCap uploadMax
      uploadCap, .done)

def step (p : AutotuneProposal) (c : ProposalCall) : AutotuneProposal := (p.call c).1

end AutotuneProposal

end CakeAutorate.Autotune
