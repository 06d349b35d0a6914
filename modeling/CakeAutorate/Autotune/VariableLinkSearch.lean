/-
# The decisions of a Variable Link search

`optimize_variable_link_direction` of `autotune.rs`: the search descends in fixed steps and looks for
the rate below which the latency stops improving.  The samples of a rate that passed are taken
together, and the rates are ordered from the highest.
-/

import CakeAutorate.Autotune.SearchDecision

namespace CakeAutorate.Autotune

open Decision

open Machine (maxBy minBy)

def variableLinkPlateauMinimumMs : ℚ := 3

structure VariableCandidateAggregate where
  candidateKbps : ℕ
  representative : Sample
  medianDeltaMs : ℚ
  repeatCount : ℕ
  deltaSpreadMs : ℚ

/-- `variable_candidate_aggregates`, of one rate. -/
def variableCandidateAggregate (samples : List Sample) (candidateKbps : ℕ) :
    Option VariableCandidateAggregate := do
  let passed := controlledAt samples candidateKbps
  let deltas := (passed.map Sample.delta).insertionSort (· ≤ ·)
  let median := percentile deltas (1 / 2)
  let representative ← minBy (fun left right =>
    compare |left.delta - median| |right.delta - median|) passed
  return {
    candidateKbps
    representative
    medianDeltaMs := median
    repeatCount := passed.length
    deltaSpreadMs := deltas.getLast?.getD median - deltas.head?.getD median }

/-- `variable_candidate_aggregates`, the highest rate first. -/
def variableCandidateAggregates (samples : List Sample) : List VariableCandidateAggregate :=
  (((samples.map Sample.rate).insertionSort (· ≥ ·)).dedup).filterMap
    (variableCandidateAggregate samples)

def variablePlateauThresholdMs (leftDeltaMs rightDeltaMs uncertaintyPercent : ℚ) : ℚ :=
  max variableLinkPlateauMinimumMs (max leftDeltaMs rightDeltaMs * (uncertaintyPercent / 100))

/-- The arguments of `finish`, with the values that most exits pass. -/
structure VariableDecision extends Decision where
  selected : Option Sample := none
  runtimeMinimum : Option Sample := none
  kneeDetected : Bool := false
  kneeConfidencePercent : ℕ := 0
  plateauImprovementMs : Option ℚ := none
  plateauThresholdMs : ℚ := variableLinkPlateauMinimumMs
  noCakeEffect : Bool := false
  noisy : Bool := false

namespace SearchView

def lowerAfterResourceLimit (v : SearchView) : Option ℕ :=
  ((controlledCandidateFromLowRealization v.input v.samples v.last.rate).or
    (match nextVariableLinkUnobservedCandidate v.input.observedLowKbps v.input.minimumKbps
        v.last.rate with
    | .ok next => next
    | .error _ => none)).filter fun next => decide (next < v.last.rate) && v.untested next

/-- `optimize_variable_link_direction`, `!last_metrics.resource_safe`. -/
def variableResourceDecision (v : SearchView) : VariableDecision :=
  match (if decide (2 ≤ v.duplicateCount) && v.attemptLeft then v.lowerAfterResourceLimit
      else none) with
  | some next =>
    { test "lower-variable-candidate-after-resource-limit" next with noisy := true }
  | none =>
    if v.repeatLeft then
      { test "repeat-resource-unsafe-variable-candidate" v.last.rate with noisy := true }
    else
      { stop .inconclusive "variable-candidate-resource-safety-inconclusive" with
        noisy := true }

/-- `optimize_variable_link_direction`, `!last_metrics.measurement_reliable`. -/
def variableUncontrolledDecision (v : SearchView) : VariableDecision :=
  match (controlledCandidateFromLowRealization v.input v.samples v.last.rate).filter
      fun next => decide (next < v.last.rate) && v.untested next && v.attemptLeft with
  | some next => { test "lower-variable-candidate-to-establish-shaper-control" next with }
  | none =>
    match (if lowRealizationEvidenceEligible v.input.profile v.last.metrics then
        bestLowRealizationReviewIndex v.samples else none) with
    | some s =>
      { stop .fallback "bounded-low-realization-review" with
        selected := some s, runtimeMinimum := some s }
    | none =>
      if v.repeatLeft then
        { test "repeat-uncontrolled-variable-candidate" v.last.rate with noisy := true }
      else
        { stop .inconclusive "variable-candidate-realization-inconclusive" with
          noisy := true }

def noisyStop (v : SearchView) (inconclusive : String) (threshold : ℚ) : VariableDecision :=
  match bestVariableOperatingCeilingIndex v.samples with
  | some s =>
    { stop .fallback "noisy-link-safe-review" with
      selected := some s, runtimeMinimum := some s, plateauThresholdMs := threshold, noisy := true }
  | none =>
    { stop .inconclusive inconclusive with
      plateauThresholdMs := threshold, noisy := true }

def noiseDecision (v : SearchView) (aggregates : List VariableCandidateAggregate) :
    Option VariableDecision :=
  match aggregates.find? (fun aggregate => aggregate.candidateKbps == v.last.rate) with
  | none => none
  | some aggregate =>
    let limit := max (aggregate.medianDeltaMs * (10 / 100)) (variableLinkPlateauMinimumMs * 2)
    if aggregate.deltaSpreadMs ≤ limit then none
    else if v.repeatLeft then
      some { test "repeat-noisy-variable-candidate" v.last.rate with
        plateauThresholdMs := limit, noisy := true }
    else some (v.noisyStop "noisy-link-candidate-did-not-converge" limit)

def monotoneDecision (v : SearchView) (aggregates : List VariableCandidateAggregate) :
    Option VariableDecision :=
  match aggregates.reverse with
  | lower :: higher :: _ =>
    let threshold := variablePlateauThresholdMs higher.medianDeltaMs lower.medianDeltaMs
      v.input.uncertaintyPercent
    if lower.medianDeltaMs ≤ higher.medianDeltaMs + threshold then none
    else if decide (lower.repeatCount < maxSameCandidateObservations) && v.attemptLeft then
      some { test "repeat-nonmonotonic-variable-candidate" lower.candidateKbps with
        plateauThresholdMs := threshold, noisy := true }
    else some (v.noisyStop "nonmonotonic-variable-link-after-retries" threshold)
  | _ => none

def improvements (v : SearchView) (aggregates : List VariableCandidateAggregate) : List (ℚ × ℚ) :=
  List.zipWith (fun higher lower : VariableCandidateAggregate =>
    (higher.medianDeltaMs - lower.medianDeltaMs,
      variablePlateauThresholdMs higher.medianDeltaMs lower.medianDeltaMs
        v.input.uncertaintyPercent)) aggregates aggregates.tail

/-- `repeat_count`. -/
def variableRepeatCount (v : SearchView) (aggregates : List VariableCandidateAggregate) : ℕ :=
  v.input.observations.length - aggregates.length

def kneeSelected (v : SearchView) (knee : VariableCandidateAggregate) : Sample :=
  (((bestTargetIndex v.samples).filter fun s => decide (knee.candidateKbps ≤ s.rate)).or
    ((bestBalancedIndex v.samples).filter fun s => decide (knee.candidateKbps ≤ s.rate))).getD
    knee.representative

section

variable (v : SearchView) (aggregates : List VariableCandidateAggregate)

def plateauDecision : Option VariableDecision :=
  match aggregates.reverse with
  | _ :: _ :: knee :: _ =>
    let improvements := v.improvements aggregates
    let lastTwo := improvements.drop (improvements.length - 2)
    let improvement := maxBy compare (lastTwo.map Prod.fst)
    let threshold :=
      (maxBy compare (lastTwo.map Prod.snd)).getD variableLinkPlateauMinimumMs
    if lastTwo.all (fun pair => decide (pair.1 ≤ pair.2)) = false then none
    else if (improvements.take (improvements.length - 2)).any
        (fun pair => decide (pair.2 < pair.1)) = false then
      match bestNoCakeEffectIndex v.samples with
      | some s =>
        some { stop .fallback "queue-outside-cake-control" with
          selected := some s, runtimeMinimum := some s, plateauImprovementMs := improvement,
          plateauThresholdMs := threshold, noCakeEffect := true }
      | none =>
        some { stop .inconclusive "queue-outside-cake-control-target-unmet" with
          plateauImprovementMs := improvement, plateauThresholdMs := threshold,
          noCakeEffect := true }
    else
      let selected := v.kneeSelected knee
      let action :=
        if selected.metrics.targetMet && selected.metrics.capacityObjectiveMet then
          ProfileSearchAction.complete
        else .fallback
      some { stop action "measured-variable-link-knee" with
        selected := some selected, runtimeMinimum := some knee.representative,
        kneeDetected := true,
        kneeConfidencePercent := min (80 + min (v.variableRepeatCount aggregates) 2 * 10) 100,
        plateauImprovementMs := improvement, plateauThresholdMs := threshold }
  | _ => none

/-- `lowest_tested`, of the rates that passed. -/
def lowestPassed : ℕ :=
  (aggregates.getLast?.map VariableCandidateAggregate.candidateKbps).getD v.last.rate

def descendDecision : Except SearchFailure VariableDecision :=
  let lowest := v.lowestPassed aggregates
  if lowest ≤ v.input.minimumKbps then
    match bestNoCakeEffectIndex v.samples with
    | some s =>
      .ok { stop .fallback "exploration-floor-reached" with
        selected := some s, runtimeMinimum := some s }
    | none =>
      .ok { stop .inconclusive "exploration-floor-reached-without-latency-knee" with }
  else if v.attemptLeft = false then
    .ok { stop .inconclusive "bounded-attempt-limit-before-latency-knee" with }
  else
    match nextVariableLinkUnobservedCandidate v.input.observedLowKbps v.input.minimumKbps lowest with
    | .error _ => .error (.panic "validated Variable Link search bounds")
    | .ok none =>
      .ok { stop .inconclusive "variable-link-search-cannot-make-progress" with }
    | .ok (some next) =>
      if v.untested next then .ok { test "descend-variable-link-fixed-step" next with }
      else .ok { stop .inconclusive "variable-link-search-cannot-make-progress" with }

/-- `optimize_variable_link_direction`, the exits after a measurement that passed. -/
def passedDecision : Except SearchFailure VariableDecision :=
  match ((v.noiseDecision aggregates).or (v.monotoneDecision aggregates)).or
      (v.plateauDecision aggregates) with
  | some d => .ok d
  | none => v.descendDecision aggregates

/-- `optimize_variable_link_direction`, its exits. -/
def variableDecision : Except SearchFailure VariableDecision :=
  if v.last.metrics.resourceSafe = false then .ok v.variableResourceDecision
  else if v.last.metrics.measurementReliable = false then .ok v.variableUncontrolledDecision
  else v.passedDecision aggregates

end

end SearchView

end CakeAutorate.Autotune
