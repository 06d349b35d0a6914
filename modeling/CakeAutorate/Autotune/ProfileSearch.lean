/-
# The evidence of a profile search

The input of `optimize_profile_direction` in `autotune.rs`, its validation, the metrics of an
observation, and the selectors that pick an observation for a profile.  Percentages, delays and
scores are rationals where the source has floats.

The source keeps observations and metrics in two vectors of one length and passes indices into them.
A `Sample` is what such an index stands for: the index, the observation and its metrics.
-/

import CakeAutorate.Autotune.Proposal
import CakeAutorate.Machine.Choice

namespace CakeAutorate.Autotune

open Machine (maxBy minBy)

/-- `QualityClass` of `transport_quality.rs`. -/
inductive QualityClass where
  | learning
  | aPlus
  | a
  | b
  | c
  | d
  | f
  deriving DecidableEq

/-- `classify_quality`, of a delay that is known. -/
def classifyQuality (deltaMs : ℚ) : QualityClass :=
  if deltaMs < 0 then .learning
  else if deltaMs < 5 then .aPlus
  else if deltaMs < 30 then .a
  else if deltaMs < 60 then .b
  else if deltaMs < 200 then .c
  else if deltaMs < 400 then .d
  else .f

def qualityGradeRank : QualityClass → ℕ
  | .aPlus => 0
  | .a => 1
  | .b => 2
  | .c => 3
  | .d => 4
  | .f | .learning => 5

structure ValidationThresholds where
  candidateRealizationMinPercent : ℚ
  candidateRealizationMaxPercent : ℚ
  capacityRetentionMinPercent : ℚ
  icmpDeltaMaxMs : ℚ
  transportDeltaMaxMs : ℚ
  lossMaxPercent : ℚ
  cpuMaxPercent : ℚ

def AutotuneProfile.targetDeltaMs : AutotuneProfile → ℚ
  | .gaming | .gamingExtreme => 5
  | .bestOverall => 30
  | .variableLink => 60
  | .fair => 200

def AutotuneProfile.capacityFloorPercent : AutotuneProfile → ℚ
  | .gaming | .gamingExtreme => 70
  | .bestOverall => 80
  | .variableLink => 70
  | .fair => 90

/-- `validation_thresholds`, the latency and the loss that a profile allows. -/
def AutotuneProfile.latencyAndLoss : AutotuneProfile → ℚ × ℚ
  | .gaming | .gamingExtreme => (5, 1)
  | .bestOverall => (30, 3)
  | .variableLink => (60, 3)
  | .fair => (200, 5)

def AutotuneProfile.validationThresholds (profile : AutotuneProfile) : ValidationThresholds where
  candidateRealizationMinPercent := 80
  candidateRealizationMaxPercent := 110
  capacityRetentionMinPercent := profile.capacityFloorPercent
  icmpDeltaMaxMs := profile.latencyAndLoss.1
  transportDeltaMaxMs := profile.latencyAndLoss.1
  lossMaxPercent := profile.latencyAndLoss.2
  cpuMaxPercent := 85

/-- What was measured at a rate. -/
structure SearchObservation where
  candidateKbps : ℕ
  realizedKbps : ℕ
  achievedKbps : ℕ
  icmpDeltaMs : ℚ
  transportDeltaMs : ℚ
  transportCensored : Bool
  lossPercent : ℚ
  cpuPercent : ℚ
  deriving DecidableEq

/-- How a measurement is judged. -/
structure SearchObservationMetrics where
  realizationPercent : ℚ
  retentionPercent : ℚ
  effectiveDeltaMs : ℚ
  grade : QualityClass
  transportCensored : Bool
  measurementReliable : Bool
  manualReviewable : Bool
  resourceSafe : Bool
  safetyPass : Bool
  capacityObjectiveMet : Bool
  targetMet : Bool
  balancedScore : ℚ
  deriving DecidableEq

/-- The search of one direction so far. -/
structure ProfileSearchInput where
  profile : AutotuneProfile
  direction : SearchDirection
  observedLowKbps : ℕ
  minimumKbps : ℕ
  upperKbps : ℕ
  thresholds : ValidationThresholds
  uncertaintyPercent : ℚ
  maxAttempts : ℕ
  observations : List SearchObservation

def maxProfileSearchObservations : ℕ := 12

def maxSameCandidateObservations : ℕ := 3

def throughputTrustFloorPercent : ℚ := 50

def maxLatencyMs : ℚ := 60000

def reviewLatencyMs : ℚ := 200

def within (low value high : ℚ) : Bool := decide (low ≤ value ∧ value ≤ high)

/-- `validate_profile_search_input`, the thresholds. -/
def ValidationThresholds.valid (t : ValidationThresholds) : Bool :=
  decide (0 ≤ t.candidateRealizationMinPercent) &&
  decide (t.candidateRealizationMinPercent ≤ t.candidateRealizationMaxPercent) &&
  decide (t.candidateRealizationMaxPercent ≤ 200) &&
  within 0 t.capacityRetentionMinPercent 100 && within 0 t.lossMaxPercent 100 &&
  within 0 t.cpuMaxPercent 100

/-- `validate_profile_search_input`, the rates of an observation. -/
def SearchObservation.ratesValid (minimumKbps upperKbps : ℕ) (o : SearchObservation) : Bool :=
  decide (minimumKbps ≤ o.candidateKbps ∧ o.candidateKbps ≤ upperKbps ∧ 0 < o.realizedKbps ∧
    o.realizedKbps ≤ maxRate ∧ 0 < o.achievedKbps ∧ o.achievedKbps ≤ maxRate)

/-- `validate_profile_search_input`, an observation; the text counts them from one. -/
def validateSearchObservation (minimumKbps upperKbps : ℕ) (index : ℕ) (o : SearchObservation) :
    Except String Unit := do
  let name := "search observation " ++ toString (index + 1) ++ " "
  check (o.ratesValid minimumKbps upperKbps) (name ++ "has an invalid rate")
  check (within 0 o.icmpDeltaMs maxLatencyMs) (name ++ "ICMP delta is outside the supported range")
  check (within 0 o.transportDeltaMs maxLatencyMs)
    (name ++ "transport delta is outside the supported range")
  check (within 0 o.lossPercent 100) (name ++ "loss is outside the supported range")
  check (within 0 o.cpuPercent 100) (name ++ "CPU is outside the supported range")

def validateProfileSearchInput (input : ProfileSearchInput) : Except String Unit := do
  check (decide (input.observedLowKbps ≠ 0 ∧ input.observedLowKbps ≤ maxRate))
    "search observed-low rate is outside the supported range"
  check (decide (input.minimumKbps ≠ 0 ∧ input.minimumKbps ≤ input.upperKbps ∧
      input.upperKbps ≤ maxRate))
    "search bounds must satisfy 0 < minimum <= upper <= global maximum"
  check (decide (input.observations ≠ [] ∧
      input.observations.length ≤ maxProfileSearchObservations))
    "search requires between 1 and 12 observations"
  check (decide (2 ≤ input.maxAttempts ∧ input.maxAttempts ≤ maxProfileSearchObservations))
    "search max attempts must be between 2 and 12"
  check (within 0 input.uncertaintyPercent 10) "search uncertainty must be between 0 and 10 percent"
  check input.thresholds.valid "search thresholds are invalid"
  input.observations.zipIdx.forM fun entry =>
    validateSearchObservation input.minimumKbps input.upperKbps entry.2 entry.1

/-- `f64::clamp` to the unit interval. -/
def clampUnit (x : ℚ) : ℚ := min (max x 0) 1

def evaluateSearchObservation (input : ProfileSearchInput) (o : SearchObservation) :
    SearchObservationMetrics :=
  let t := input.thresholds
  let realizationPercent : ℚ := o.realizedKbps * 100 / o.candidateKbps
  let retentionPercent : ℚ := o.achievedKbps * 100 / input.observedLowKbps
  let effectiveDeltaMs := max o.icmpDeltaMs o.transportDeltaMs
  let measurementReliable := !o.transportCensored &&
    decide (t.candidateRealizationMinPercent ≤ realizationPercent) &&
    decide (realizationPercent ≤ t.candidateRealizationMaxPercent)
  let resourceSafe := decide (o.lossPercent ≤ t.lossMaxPercent)
  let manualReviewable := decide (throughputTrustFloorPercent ≤ realizationPercent) &&
    decide (realizationPercent ≤ t.candidateRealizationMaxPercent) &&
    decide (throughputTrustFloorPercent ≤ retentionPercent) && resourceSafe &&
    (o.transportCensored || decide (realizationPercent < t.candidateRealizationMinPercent))
  let throughputComponent := clampUnit (retentionPercent / 100)
  let qualityComponent :=
    if effectiveDeltaMs ≤ 0 then 1 else clampUnit (input.profile.targetDeltaMs / effectiveDeltaMs)
  { realizationPercent
    retentionPercent
    effectiveDeltaMs
    grade := classifyQuality effectiveDeltaMs
    transportCensored := o.transportCensored
    measurementReliable
    manualReviewable
    resourceSafe
    safetyPass := measurementReliable && resourceSafe
    capacityObjectiveMet := decide (t.capacityRetentionMinPercent ≤ retentionPercent)
    targetMet := !o.transportCensored && decide (effectiveDeltaMs < input.profile.targetDeltaMs)
    balancedScore := (throughputComponent + qualityComponent) * 50 }

/-- An index into the observations and the metrics, with what stands there. -/
structure Sample where
  index : ℕ
  observation : SearchObservation
  metrics : SearchObservationMetrics

namespace Sample

def rate (s : Sample) : ℕ := s.observation.candidateKbps

def achieved (s : Sample) : ℕ := s.observation.achievedKbps

def delta (s : Sample) : ℚ := s.metrics.effectiveDeltaMs

end Sample

def samplesOf (observations : List SearchObservation) (metrics : List SearchObservationMetrics) :
    List Sample :=
  (observations.zip metrics).zipIdx.map fun entry => ⟨entry.2, entry.1.1, entry.1.2⟩

namespace ProfileSearchInput

def metrics (input : ProfileSearchInput) : List SearchObservationMetrics :=
  input.observations.map (evaluateSearchObservation input)

def samples (input : ProfileSearchInput) : List Sample :=
  samplesOf input.observations input.metrics

end ProfileSearchInput

/-- `rounded_rate_up`, which is `rounded_search_rate`: up to a hundred, at least 100 and at most
`MAX_RATE_KBPS`.  What is left is in range, so its assertion has nothing to refuse. -/
def roundedSearchRate (rateKbps : ℚ) : ℕ :=
  let rounded := ⌈max rateKbps 100 / 100⌉ * 100
  if (maxRate : ℤ) ≤ rounded then maxRate else rounded.toNat

def searchResolution (observedLowKbps : ℕ) : ℕ :=
  roundedSearchRate (max (observedLowKbps * (5 / 1000)) 100)

def candidateWasTested (samples : List Sample) (candidateKbps : ℕ) : Bool :=
  samples.any fun s => s.rate == candidateKbps

def achievedRatesRepeatable (leftKbps rightKbps : ℕ) : Bool :=
  let high : ℚ := max leftKbps rightKbps
  let low : ℚ := min leftKbps rightKbps
  decide (0 < high) && decide ((high - low) * 100 / high ≤ 5)

def rateRatioWithin (numeratorKbps denominatorKbps : ℕ) (minimumPercent maximumPercent : ℚ) : Bool :=
  decide (0 < denominatorKbps) &&
    within minimumPercent ((numeratorKbps : ℚ) * 100 / denominatorKbps) maximumPercent

def testedRates (samples : List Sample) : List ℕ :=
  ((samples.map Sample.rate).insertionSort (· ≤ ·)).dedup

def atRate (samples : List Sample) (candidateKbps : ℕ) : List Sample :=
  samples.filter fun s => s.rate == candidateKbps

def byThroughput (left right : Sample) : Ordering :=
  (compare left.achieved right.achieved).then (compare right.delta left.delta)

def byCaution (left right : Sample) : Ordering :=
  (compare left.delta right.delta).then (compare right.achieved left.achieved)

section

variable (samples : List Sample)

def bestTargetIndex : Option Sample :=
  maxBy byThroughput (samples.filter fun s => s.metrics.safetyPass && s.metrics.targetMet)

def bestNoCakeEffectIndex : Option Sample :=
  maxBy byThroughput (samples.filter fun s => s.metrics.safetyPass && s.metrics.targetMet &&
    decide (throughputTrustFloorPercent ≤ s.metrics.retentionPercent))

def bestTrustedQualityIndex : Option Sample :=
  minBy (fun left right =>
      ((compare (qualityGradeRank left.metrics.grade) (qualityGradeRank right.metrics.grade)).then
        (compare left.delta right.delta)).then (compare right.achieved left.achieved))
    (samples.filter fun s => s.metrics.safetyPass &&
      decide (throughputTrustFloorPercent ≤ s.metrics.retentionPercent))

def bestVariableOperatingCeilingIndex : Option Sample :=
  (bestTargetIndex samples).or (bestTrustedQualityIndex samples)

def bestQualityIndex : Option Sample :=
  minBy (fun left right =>
      ((compare (qualityGradeRank left.metrics.grade) (qualityGradeRank right.metrics.grade)).then
        (compare right.achieved left.achieved)).then (compare left.delta right.delta))
    (samples.filter fun s => s.metrics.safetyPass)

def bestBalancedIndex : Option Sample :=
  maxBy (fun left right =>
      (compare left.metrics.balancedScore right.metrics.balancedScore).then
        (compare left.achieved right.achieved))
    (samples.filter fun s => s.metrics.safetyPass)

end

def bestFairIndex (input : ProfileSearchInput) (samples : List Sample) : Option Sample := do
  let best ← ((samples.filter fun s => s.metrics.safetyPass).map Sample.achieved).max?
  let lower := (best : ℚ) * (1 - input.uncertaintyPercent / 100)
  minBy (fun left right =>
      (compare left.delta right.delta).then (compare right.achieved left.achieved))
    (samples.filter fun s => s.metrics.safetyPass && decide (lower ≤ s.achieved))

def bestSafeFallbackIndex (input : ProfileSearchInput) (samples : List Sample) : Option Sample :=
  match input.profile with
  | .gaming | .gamingExtreme => (bestTargetIndex samples).or (bestQualityIndex samples)
  | .bestOverall | .variableLink => (bestTargetIndex samples).or (bestBalancedIndex samples)
  | .fair => bestFairIndex input samples

def bestCensoredReviewIndex (samples : List Sample) : Option Sample :=
  maxBy (fun left right =>
      ((compare left.achieved right.achieved).then (compare left.rate right.rate)).then
        (compare right.delta left.delta))
    (samples.filter fun s => s.observation.transportCensored && s.metrics.manualReviewable)

def lowRealizationEvidenceEligible (profile : AutotuneProfile) (m : SearchObservationMetrics) :
    Bool :=
  m.resourceSafe && (profile == .fair || m.targetMet ||
    (profile == .variableLink && m.manualReviewable && decide (m.effectiveDeltaMs ≤ reviewLatencyMs)))

def lowRealizationDescentEvidenceEligible (input : ProfileSearchInput) (s : Sample) : Bool :=
  if input.profile = .variableLink ∧ s.metrics.realizationPercent < throughputTrustFloorPercent then
    decide (s.observation.lossPercent ≤ input.thresholds.lossMaxPercent) &&
      !s.metrics.transportCensored
  else lowRealizationEvidenceEligible input.profile s.metrics

def repeatableLowRealizationPeer (input : ProfileSearchInput) (samples : List Sample) (s : Sample) :
    Option Sample :=
  if input.thresholds.candidateRealizationMinPercent ≤ s.metrics.realizationPercent ∨
      lowRealizationEvidenceEligible input.profile s.metrics = false then none
  else
    samples.reverse.find? fun peer =>
      peer.index != s.index && peer.rate == s.rate &&
      decide (peer.metrics.realizationPercent < input.thresholds.candidateRealizationMinPercent) &&
      lowRealizationEvidenceEligible input.profile peer.metrics &&
      achievedRatesRepeatable peer.achieved s.achieved

structure LowRealizationReviewCandidate where
  selected : Sample
  candidateKbps : ℕ
  conservativeAchievedKbps : ℕ
  targetMet : Bool
  worstDeltaMs : ℚ

section

variable (samples : List Sample) (candidateKbps : ℕ)

/-- `low_realization_review_candidate`, the samples of a rate that are bounded. -/
def lowRealizationBounded : List Sample :=
  samples.filter fun s => s.rate == candidateKbps && s.metrics.manualReviewable &&
    decide (s.delta ≤ reviewLatencyMs)

/-- `low_realization_review_candidate`, those of them that another one repeats. -/
def lowRealizationRepeatable : List Sample :=
  (lowRealizationBounded samples candidateKbps).filter fun left =>
    (lowRealizationBounded samples candidateKbps).any fun right =>
      left.index != right.index && achievedRatesRepeatable left.achieved right.achieved

def lowRealizationReviewCandidate : Option LowRealizationReviewCandidate :=
  let repeatable := lowRealizationRepeatable samples candidateKbps
  if (lowRealizationBounded samples candidateKbps).length < 2 then none
  else if repeatable.length < 2 then none
  else do
    let conservative ← (repeatable.map Sample.achieved).min?
    let selected ← maxBy byCaution repeatable
    return {
      selected
      candidateKbps
      conservativeAchievedKbps := conservative
      targetMet := selected.metrics.targetMet
      worstDeltaMs := selected.delta }

end

def bestLowRealizationReviewIndex (samples : List Sample) : Option Sample :=
  (maxBy (fun left right : LowRealizationReviewCandidate =>
      (((compare left.targetMet right.targetMet).then
        (compare left.conservativeAchievedKbps right.conservativeAchievedKbps)).then
        (compare left.candidateKbps right.candidateKbps)).then
        (compare right.worstDeltaMs left.worstDeltaMs))
    ((testedRates samples).filterMap (lowRealizationReviewCandidate samples))).map
    LowRealizationReviewCandidate.selected

/-- `physical_capacity_limited_review_indices`, what disqualifies a rate. -/
def physicalCapacityDisqualifies (input : ProfileSearchInput) (s : Sample) : Bool :=
  let t := input.thresholds
  s.observation.transportCensored || !s.metrics.resourceSafe || !s.metrics.targetMet ||
    decide (t.cpuMaxPercent < s.observation.cpuPercent) ||
    decide (t.candidateRealizationMinPercent ≤ s.metrics.realizationPercent) ||
    decide (t.candidateRealizationMaxPercent < s.metrics.realizationPercent) ||
    decide (s.observation.realizedKbps < input.minimumKbps) ||
    !rateRatioWithin s.observation.realizedKbps s.observation.achievedKbps
      t.candidateRealizationMinPercent t.candidateRealizationMaxPercent

/-- `physical_capacity_limited_review_indices`, the samples of a rate that another one repeats. -/
def physicalCapacityRepeatable (group : List Sample) : List Sample :=
  group.filter fun left => group.any fun right =>
    left.index != right.index && achievedRatesRepeatable left.achieved right.achieved &&
    achievedRatesRepeatable left.observation.realizedKbps right.observation.realizedKbps

/-- `physical_capacity_limited_review_indices`, of one rate. -/
def physicalCapacityLimitedAt (input : ProfileSearchInput) (samples : List Sample)
    (candidateKbps : ℕ) : Option (List Sample) :=
  let group := atRate samples candidateKbps
  if group.length < 2 ∨ candidateKbps ≤ input.minimumKbps ∨
      group.any (physicalCapacityDisqualifies input) = true then none
  else
    let repeatable := physicalCapacityRepeatable group
    if 2 ≤ repeatable.length then some repeatable else none

def physicalCapacityLimitedReviewIndices (input : ProfileSearchInput) (samples : List Sample) :
    Option (List Sample) :=
  if input.profile ≠ .variableLink then none
  else
    maxBy (fun left right : List Sample =>
        (compare ((left.map Sample.achieved).min?.getD 0)
          ((right.map Sample.achieved).min?.getD 0)).then
          (compare ((left.map Sample.rate).head?.getD 0) ((right.map Sample.rate).head?.getD 0)))
      ((testedRates samples).filterMap (physicalCapacityLimitedAt input samples))

end CakeAutorate.Autotune
