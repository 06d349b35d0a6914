/-
# The decisions of a profile search

`optimize_profile_direction`, `optimize_variable_link_direction` and
`terminate_profile_direction_at_measured_boundary` of `autotune.rs`.  Each exit of the source builds
its result by `finish(action, reason, next, ..)`: here an exit returns these arguments, a decision,
and `finish` is applied to it at the end.
-/

import CakeAutorate.Autotune.SearchReview

namespace CakeAutorate.Autotune

open Sample

open Machine (maxBy minBy)

def checkedSub (left right : ℕ) : Except SearchFailure ℕ :=
  if right ≤ left then .ok (left - right)
  else .error (.panic "attempt to subtract with overflow")

def midpointCandidate (lower upper : ℕ) : Except SearchFailure ℕ := do
  let gap ← checkedSub upper lower
  return min (roundedSearchRate (lower + (gap : ℚ) / 2)) upper

def nextVariableLinkUnobservedCandidate (observedLowKbps minimumKbps currentKbps : ℕ) :
    Except String (Option ℕ) :=
  if observedLowKbps = 0 ∨ maxRate < observedLowKbps ∨ minimumKbps = 0 ∨
      currentKbps < minimumKbps ∨ maxRate < currentKbps then
    .error "variable-link unobserved search bounds are invalid"
  else
    let step := roundedSearchRate ((observedLowKbps : ℚ) * 15 / 100)
    let next := max (currentKbps - step) minimumKbps
    .ok (if next < currentKbps then some next else none)

def latencyFirstDescentCandidate (input : ProfileSearchInput) (samples : List Sample)
    (candidateKbps : ℕ) : Option ℕ := do
  let clean := samples.filter fun s => s.rate == candidateKbps &&
    decide (s.observation.lossPercent ≤ input.thresholds.lossMaxPercent) &&
    !s.observation.transportCensored && decide (0 < s.achieved)
  let achievedLow ← (clean.map achieved).min?
  let next := min (max (roundedSearchRate ((achievedLow : ℚ) * (9 / 10))) input.minimumKbps)
    (candidateKbps - 1)
  if input.minimumKbps ≤ next ∧ next < candidateKbps ∧ candidateWasTested samples next = false then
    some next
  else none

/-- `controlled_candidate_from_low_realization`, a sample that cannot be descended from. -/
def controlDisqualifies (input : ProfileSearchInput) (s : Sample) : Bool :=
  decide (input.thresholds.candidateRealizationMinPercent ≤ s.metrics.realizationPercent) ||
    !lowRealizationDescentEvidenceEligible input s

/-- `controlled_candidate_from_low_realization`, two samples repeat one another. -/
def hasRepeatablePair : List Sample → Bool
  | [] => false
  | left :: rest =>
    rest.any (fun right => achievedRatesRepeatable left.achieved right.achieved) ||
      hasRepeatablePair rest

def controlledCandidateFromLowRealization (input : ProfileSearchInput) (samples : List Sample)
    (candidateKbps : ℕ) : Option ℕ :=
  let group := atRate samples candidateKbps
  if group.length < 2 ∨ group.any (controlDisqualifies input) = true then none
  else if hasRepeatablePair group = false ∧ group.length < maxSameCandidateObservations then none
  else do
    let achievedLow ← (group.map achieved).min?
    let targetRealization := (input.thresholds.candidateRealizationMinPercent + 100) / 2
    let next := min
      (max (roundedSearchRate ((achievedLow : ℚ) * 100 / targetRealization)) input.minimumKbps)
      (candidateKbps - 1)
    if input.minimumKbps ≤ next ∧ next < candidateKbps then some next else none

/-- The arguments of `finish`. -/
structure Decision where
  action : ProfileSearchAction
  reason : String
  nextCandidateKbps : Option ℕ

def Decision.test (reason : String) (candidateKbps : ℕ) : Decision :=
  ⟨.test, reason, some candidateKbps⟩

def Decision.stop (action : ProfileSearchAction) (reason : String) : Decision := ⟨action, reason, none⟩

/-- What the exits of a search read: the input, its samples and the last of them. -/
structure SearchView where
  input : ProfileSearchInput
  samples : List Sample
  last : Sample

namespace SearchView

section

variable (v : SearchView)

/-- An attempt is left: `observations.len() < max_attempts`. -/
def attemptLeft : Bool := decide (v.input.observations.length < v.input.maxAttempts)

def duplicateCount : ℕ := (atRate v.samples v.last.rate).length

def repeatLeft : Bool :=
  decide (v.duplicateCount < maxSameCandidateObservations) && v.attemptLeft

/-- `resolution_kbps`. -/
def resolution : ℕ := searchResolution v.input.observedLowKbps

def untested (candidateKbps : ℕ) : Bool := !candidateWasTested v.samples candidateKbps

def bisect (lower upper : ℕ) : Except SearchFailure (Option ℕ) := do
  let gap ← checkedSub upper lower
  if v.resolution < gap then
    let next ← midpointCandidate lower upper
    return if lower < next ∧ next < upper ∧ v.untested next then some next else none
  else return none

def doneAction (s : Sample) : ProfileSearchAction :=
  if v.input.profile = .fair ∨ s.metrics.targetMet then .complete else .fallback

end

def gaming (v : SearchView) : Bool := v.input.profile == .gaming || v.input.profile == .gamingExtreme

section

variable (v : SearchView)

def uncontrolledDecision : Decision :=
  if v.repeatLeft then .test "repeat-low-candidate-realization" v.last.rate
  else
    match (if v.gaming && v.attemptLeft then
        latencyFirstDescentCandidate v.input v.samples v.last.rate else none) with
    | some next => .test "latency-first-descent-after-unrepeatable-realization" next
    | none => .stop .inconclusive "low-candidate-realization-not-repeatable"

def boundaryDecision (controlledCandidate : ℕ) (controlled : Sample) :
    Except SearchFailure Decision := do
  let next ← v.bisect controlledCandidate v.last.rate
  return match (if v.attemptLeft then next else none) with
  | some next => .test "bisect-controlled-shaper-boundary" next
  | none => .stop (v.doneAction controlled) "maximum-controlled-candidate-bounded"

def controlledDecision (controlledCandidate : ℕ) : Except SearchFailure Decision :=
  if v.untested controlledCandidate ∧ v.attemptLeft then
    .ok (.test
      (if (repeatableLowRealizationPeer v.input v.samples v.last).isSome then
        "lower-candidate-to-establish-shaper-control"
      else "lower-variable-candidate-to-establish-shaper-control") controlledCandidate)
  else
    match v.samples.find? (fun s => s.rate == controlledCandidate && s.metrics.safetyPass) with
    | some controlled => v.boundaryDecision controlledCandidate controlled
    | none => .ok (.stop .inconclusive "unable-to-establish-controlled-shaper-candidate")

/-- `optimize_profile_direction`, `!last_metrics.measurement_reliable`. -/
def unreliableDecision (selected : Option Sample) : Except SearchFailure Decision :=
  if v.input.thresholds.candidateRealizationMaxPercent < v.last.metrics.realizationPercent then
    .ok (if v.repeatLeft then .test "repeat-unreliable-realization" v.last.rate
      else .stop .inconclusive "repeated-candidate-realization-unreliable")
  else
    match (if v.attemptLeft then none else selected.filter fun s => s.metrics.safetyPass) with
    | some s => .ok (.stop (v.doneAction s) "bounded-attempt-limit-controlled-candidate")
    | none =>
      match controlledCandidateFromLowRealization v.input v.samples v.last.rate with
      | none => .ok v.uncontrolledDecision
      | some controlledCandidate => v.controlledDecision controlledCandidate

/-- `optimize_profile_direction`, `!last_metrics.resource_safe`. -/
def resourceUnsafeDecision : Decision :=
  if v.repeatLeft then .test "repeat-resource-unsafe-candidate" v.last.rate
  else .stop .inconclusive "resource-safety-failure-not-resolved"

/-- `optimize_profile_direction`, no attempt is left. -/
def attemptLimitDecision (selected : Option Sample) : Decision :=
  let safe := selected.any fun s => s.metrics.safetyPass
  let target := selected.any fun s => s.metrics.targetMet
  let action :=
    if v.input.profile = .fair ∧ safe then ProfileSearchAction.complete
    else if v.input.profile ≠ .fair ∧ v.input.profile ≠ .variableLink ∧ safe ∧ target then .complete
    else if selected.isSome then .fallback
    else .inconclusive
  .stop action (if action = .inconclusive then "bounded-attempt-limit-without-safe-candidate"
    else "bounded-attempt-limit")

def requiredRate : Option ℕ :=
  let required := roundedSearchRate ((v.input.observedLowKbps : ℚ) *
    (v.input.thresholds.capacityRetentionMinPercent / 100) /
    (v.last.metrics.realizationPercent / 100))
  if v.last.rate < required ∧ required ≤ v.input.upperKbps ∧ v.untested required then some required
  else none

def highestSafe : Option ℕ :=
  ((v.samples.filter fun s => s.metrics.safetyPass).map rate).max?

def lowestUnsafeAbove (lower : ℕ) : Option ℕ :=
  ((v.samples.filter fun s => decide (lower < s.rate) && !s.metrics.safetyPass).map rate).min?

def throughputBisect : Except SearchFailure (Option ℕ) :=
  match v.highestSafe with
  | none => .ok none
  | some lower =>
    match v.lowestUnsafeAbove lower with
    | none => .ok none
    | some upper => v.bisect lower upper

/-- `optimize_profile_direction`, the Fair profile. -/
def fairDecision (selected : Option Sample) : Except SearchFailure Decision :=
  match (if !v.last.metrics.safetyPass && v.last.metrics.resourceSafe then v.requiredRate
      else none) with
  | some required => .ok (.test "raise-rate-toward-throughput-floor" required)
  | none => do
    let middle ← v.throughputBisect
    return match middle with
    | some next => .test "bisect-throughput-safety-boundary" next
    | none =>
      if v.untested v.input.upperKbps then .test "test-throughput-upper-bound" v.input.upperKbps
      else
        let action :=
          if selected.any fun s => s.metrics.safetyPass then ProfileSearchAction.complete
          else if selected.isSome then .fallback
          else .inconclusive
        .stop action (if action = .inconclusive then "throughput-search-has-no-safe-candidate"
          else "throughput-optimum-bounded")

/-- `optimize_profile_direction`, the target is met below the required capacity. -/
def capacityDecision : Decision :=
  match v.requiredRate with
  | some required => .test "raise-rate-to-capacity-floor" required
  | none =>
    if v.untested v.input.upperKbps then .test "test-upper-for-capacity-floor" v.input.upperKbps
    else .stop .fallback "profile-target-conflicts-with-capacity-floor"

/-- `lower_target_pass_kbps`. -/
def lowerTargetPass : Option ℕ :=
  ((v.samples.filter fun s => s.metrics.safetyPass && s.metrics.targetMet).map rate).max?

/-- `upper_target_fail_kbps`. -/
def upperTargetFail (lower : ℕ) : Option ℕ :=
  ((v.samples.filter fun s => decide (lower < s.rate) && s.metrics.measurementReliable &&
    (!s.metrics.targetMet || !s.metrics.resourceSafe)).map rate).min?

/-- `optimize_profile_direction`, a rate met the target. -/
def targetDecision (lower : ℕ) : Except SearchFailure Decision :=
  match v.upperTargetFail lower with
  | some upper => do
    let middle ← v.bisect lower upper
    return match middle with
    | some next => .test "bisect-quality-boundary" next
    | none => .stop .complete "maximum-target-grade-bounded"
  | none =>
    .ok (if lower < v.input.upperKbps ∧ v.untested v.input.upperKbps then
        .test "test-quality-upper-bound" v.input.upperKbps
      else .stop .complete "maximum-target-grade-confirmed")

/-- `lowest_tested`, of every measured rate. -/
def lowestTested : ℕ := (v.samples.map rate).min?.getD v.last.rate

/-- `optimize_profile_direction`, no rate met the target. -/
def lowerQualityDecision (selected : Option Sample) : Except SearchFailure Decision :=
  if v.untested v.input.minimumKbps then do
    let next ← midpointCandidate v.input.minimumKbps v.lowestTested
    return .test "search-lower-quality-candidate"
      (if v.lowestTested ≤ next then v.input.minimumKbps else next)
  else if selected.isNone then .ok (.stop .inconclusive "profile-search-has-no-safe-candidate")
  else
    .ok (.stop .fallback (if v.gaming then "target-a-plus-unreachable-above-safety-floor"
      else "target-a-unreachable-use-balanced-fallback"))

/-- `optimize_profile_direction`, the last rate passed and an attempt is left. -/
def qualityDecision (selected : Option Sample) : Except SearchFailure Decision :=
  if v.last.metrics.resourceSafe && v.last.metrics.targetMet && !v.last.metrics.safetyPass then
    .ok v.capacityDecision
  else
    match v.lowerTargetPass with
    | some lower => v.targetDecision lower
    | none => v.lowerQualityDecision selected

/-- `optimize_profile_direction`, after the samples have been evaluated. -/
def decision (selected : Option Sample) : Except SearchFailure Decision :=
  if v.last.metrics.measurementReliable = false then v.unreliableDecision selected
  else if v.last.metrics.resourceSafe = false then .ok v.resourceUnsafeDecision
  else if v.attemptLeft = false then .ok (v.attemptLimitDecision selected)
  else if v.input.profile = .fair then v.fairDecision selected
  else v.qualityDecision selected

def profileSelectedIndex : Except SearchFailure (Option Sample) :=
  match v.input.profile with
  | .gaming | .gamingExtreme => .ok ((bestTargetIndex v.samples).or (bestQualityIndex v.samples))
  | .bestOverall => .ok ((bestTargetIndex v.samples).or (bestBalancedIndex v.samples))
  | .variableLink =>
    .error (.panic "internal error: entered unreachable code: handled before the legacy search")
  | .fair =>
    .ok ((bestFairIndex v.input v.samples).or
      (maxBy (fun left right => compare left.achieved right.achieved)
        (v.samples.filter fun s => s.metrics.resourceSafe)))

end

end SearchView

end CakeAutorate.Autotune
