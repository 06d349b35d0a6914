/-
# The profile search

`optimize_profile_direction` and `terminate_profile_direction_at_measured_boundary` of `autotune.rs`
as a whole: validation, the decision, `finish` with its terminal fallbacks, and the loop around it in
which the link answers each rate that is asked for.
-/

import CakeAutorate.Autotune.VariableLinkSearch

namespace CakeAutorate.Autotune

open Sample

open Machine (maxBy minBy)

/-- What `finish` has settled of a result. -/
structure Settled where
  action : ProfileSearchAction
  reason : String
  selected : Option Sample

def resolveTerminalSafeFallback (input : ProfileSearchInput) (samples : List Sample)
    (action : ProfileSearchAction) (selected : Option Sample) :
    ProfileSearchAction × Option Sample :=
  if action ≠ .inconclusive then (action, selected)
  else
    match (selected.filter fun s => s.metrics.safetyPass).or (bestSafeFallbackIndex input samples) with
    | some s => (.fallback, some s)
    | none => (.inconclusive, none)

def keepForReview (point : Option Sample) (reason : String) (settled : Settled) : Settled :=
  if settled.action ≠ .inconclusive then settled
  else
    match point with
    | none => settled
    | some s => ⟨.fallback, reason, some s⟩

/-- `finish`, its terminal fallbacks. -/
def settle (input : ProfileSearchInput) (samples : List Sample) (action : ProfileSearchAction)
    (reason : String) (selected : Option Sample) : Settled :=
  let resolved := resolveTerminalSafeFallback input samples action selected
  keepForReview (bestCensoredReviewIndex samples) "transport-deadline-censored-review"
    (keepForReview (bestLowRealizationReviewIndex samples) "bounded-low-realization-review"
      ⟨resolved.1, reason, resolved.2⟩)

def measuredRuntimeMinimum (samples : List Sample) : Option Sample :=
  minBy (fun left right => compare left.rate right.rate)
    (samples.filter fun s => s.metrics.safetyPass && s.metrics.targetMet)

namespace SearchView

/-- `optimize_profile_direction`, the result that `finish` aligns. -/
def result (v : SearchView) (selected : Option Sample) (d : Decision) : ProfileSearchResult :=
  let settled := settle v.input v.samples d.action d.reason selected
  { profile := v.input.profile
    direction := v.input.direction
    observedLowKbps := v.input.observedLowKbps
    action := settled.action
    reason := settled.reason
    nextCandidateKbps := d.nextCandidateKbps
    selectedIndex := settled.selected.map index
    lowerTargetPassKbps := v.lowerTargetPass
    upperTargetFailKbps := v.lowerTargetPass.bind v.upperTargetFail
    resolutionKbps := v.resolution
    maxAttempts := v.input.maxAttempts
    metrics := v.input.metrics
    observations := v.input.observations
    explorationMinimumKbps := v.input.minimumKbps
    runtimeMinimumIndex :=
      if v.gaming && settled.action.terminal then
        (measuredRuntimeMinimum v.samples).map index
      else none
    kneeDetected := false
    kneeConfidencePercent := 0
    plateauImprovementMs := none
    plateauThresholdMs := 0
    repeatCount := v.input.observations.length - (testedRates v.samples).length
    noCakeEffect := false
    noisy := false }

/-- `optimize_variable_link_direction`, the result that `finish` aligns. -/
def variableResult (v : SearchView) (aggregates : List VariableCandidateAggregate)
    (d : VariableDecision) : ProfileSearchResult :=
  let settled := settle v.input v.samples d.action d.reason d.selected
  { profile := v.input.profile
    direction := v.input.direction
    observedLowKbps := v.input.observedLowKbps
    action := settled.action
    reason := settled.reason
    nextCandidateKbps := d.nextCandidateKbps
    selectedIndex := settled.selected.map index
    lowerTargetPassKbps :=
      ((aggregates.filter fun aggregate => aggregate.representative.metrics.targetMet).map
        VariableCandidateAggregate.candidateKbps).max?
    upperTargetFailKbps := none
    resolutionKbps := v.resolution
    maxAttempts := v.input.maxAttempts
    metrics := v.input.metrics
    observations := v.input.observations
    explorationMinimumKbps := v.input.minimumKbps
    runtimeMinimumIndex := if d.kneeDetected then d.runtimeMinimum.map index else none
    kneeDetected := d.kneeDetected
    kneeConfidencePercent := d.kneeConfidencePercent
    plateauImprovementMs := d.plateauImprovementMs
    plateauThresholdMs := d.plateauThresholdMs
    repeatCount := v.variableRepeatCount aggregates
    noCakeEffect := d.noCakeEffect
    noisy := d.noisy }

section

variable (debugAssertions : Bool) (v : SearchView)

def optimizeVariableLinkDirection : Except SearchFailure ProfileSearchResult := do
  let aggregates := variableCandidateAggregates v.samples
  let d ← v.variableDecision aggregates
  alignTerminalSelectionWithRecommended debugAssertions (v.variableResult aggregates d)

/-- `optimize_profile_direction`, of another profile. -/
def optimizeDirection : Except SearchFailure ProfileSearchResult := do
  let selected ← v.profileSelectedIndex
  let d ← v.decision selected
  alignTerminalSelectionWithRecommended debugAssertions (v.result selected d)

/-- `optimize_profile_direction`, after validation. -/
def optimize : Except SearchFailure ProfileSearchResult :=
  if v.input.profile = .variableLink then v.optimizeVariableLinkDirection debugAssertions
  else v.optimizeDirection debugAssertions

end

end SearchView

def ProfileSearchInput.view (input : ProfileSearchInput) : Except SearchFailure SearchView :=
  match input.samples.getLast? with
  | none => .error (.panic "attempt to subtract with overflow")
  | some last => .ok ⟨input, input.samples, last⟩

/-- `validate_profile_search_input`, as a step of a search. -/
def checkInput (input : ProfileSearchInput) : Except SearchFailure Unit :=
  (validateProfileSearchInput input).mapError .error

def optimizeProfileDirection (debugAssertions : Bool) (input : ProfileSearchInput) :
    Except SearchFailure ProfileSearchResult := do
  checkInput input
  let v ← input.view
  v.optimize debugAssertions

/-- `PHYSICAL_CAPACITY_BELOW_CAKE_CANDIDATE_REVIEW_REASON`. -/
def physicalCapacityReason : String := "physical-capacity-below-cake-candidate-review"

def markReviewable (indices : List ℕ) (metrics : List SearchObservationMetrics) :
    List SearchObservationMetrics :=
  metrics.zipIdx.map fun entry =>
    if indices.contains entry.2 then { entry.1 with manualReviewable := true } else entry.1

/-- `terminate_profile_direction_at_measured_boundary`, the fallback to a physical bottleneck.  A
result that already has its reason keeps it. -/
def physicalFallback (input : ProfileSearchInput) (reason : String) (settled : Settled)
    (result : ProfileSearchResult) : Except SearchFailure ProfileSearchResult :=
  let settledResult := { result with
    action := settled.action
    reason := if result.reason = physicalCapacityReason then result.reason else reason
    nextCandidateKbps := none
    selectedIndex := settled.selected.map index }
  if settled.action ≠ .inconclusive then .ok settledResult
  else
    match physicalCapacityLimitedReviewIndices input input.samples with
    | none => .ok settledResult
    | some group =>
      match maxBy byCaution group with
      | none => .error (.panic "capacity-limited review indices are non-empty")
      | some s =>
        .ok { settledResult with
          action := .fallback
          reason := physicalCapacityReason
          selectedIndex := some s.index
          metrics := markReviewable (group.map index) result.metrics }

/-- `terminate_profile_direction_at_measured_boundary`, the runtime minimum. -/
def boundaryRuntimeMinimum (input : ProfileSearchInput) (result : ProfileSearchResult) :
    ProfileSearchResult :=
  { result with
    runtimeMinimumIndex :=
      if (input.profile = .gaming ∨ input.profile = .gamingExtreme) ∧ result.action = .fallback then
        (measuredRuntimeMinimum result.samples).map index
      else none }

section

variable (debugAssertions : Bool) (input : ProfileSearchInput) (reason : String)

/-- `terminate_profile_direction_at_measured_boundary`, of a search that has not ended. -/
def terminateSearch (result : ProfileSearchResult) : Except SearchFailure ProfileSearchResult := do
  let fallen ← physicalFallback input reason (settle input input.samples .inconclusive reason none)
    result
  alignTerminalSelectionWithRecommended debugAssertions (boundaryRuntimeMinimum input fallen)

def terminateProfileDirectionAtMeasuredBoundary : Except SearchFailure ProfileSearchResult := do
  checkInput input
  let result ← optimizeProfileDirection debugAssertions input
  if result.action.terminal then return result
  else terminateSearch debugAssertions input reason result

end

/-- What the link answers when a rate is measured. -/
structure LinkAnswer where
  realizedKbps : ℕ
  achievedKbps : ℕ
  icmpDeltaMs : ℚ
  transportDeltaMs : ℚ
  transportCensored : Bool
  lossPercent : ℚ
  cpuPercent : ℚ

namespace LinkAnswer

def observe (a : LinkAnswer) (candidateKbps : ℕ) : SearchObservation where
  candidateKbps
  realizedKbps := a.realizedKbps
  achievedKbps := a.achievedKbps
  icmpDeltaMs := a.icmpDeltaMs
  transportDeltaMs := a.transportDeltaMs
  transportCensored := a.transportCensored
  lossPercent := a.lossPercent
  cpuPercent := a.cpuPercent

/-- The measurement is one that a search accepts, whatever rate was asked for. -/
structure Admissible (a : LinkAnswer) : Prop where
  realized_pos : 0 < a.realizedKbps
  realized_le : a.realizedKbps ≤ maxRate
  achieved_pos : 0 < a.achievedKbps
  achieved_le : a.achievedKbps ≤ maxRate
  icmp : within 0 a.icmpDeltaMs maxLatencyMs = true
  transport : within 0 a.transportDeltaMs maxLatencyMs = true
  loss : within 0 a.lossPercent 100 = true
  cpu : within 0 a.cpuPercent 100 = true

end LinkAnswer

def ProfileSearchInput.observed (input : ProfileSearchInput) (o : SearchObservation) :
    ProfileSearchInput :=
  { input with observations := input.observations ++ [o] }

def searchRound (debugAssertions : Bool) (input : ProfileSearchInput) (a : LinkAnswer) :
    ProfileSearchInput :=
  match optimizeProfileDirection debugAssertions input with
  | .error _ => input
  | .ok result =>
    if result.action = .test then
      match result.nextCandidateKbps with
      | none => input
      | some candidateKbps => input.observed (a.observe candidateKbps)
    else input

end CakeAutorate.Autotune
