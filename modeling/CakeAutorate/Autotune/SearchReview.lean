/-
# The Review of a profile search

`ProfileSearchResult` of `autotune.rs` and what Review makes of one: a candidate for each measured
rate, the candidates that no other one beats, the options that are shown, and the alignment of the
selected observation with the first of them.

Review holds one debug assertion, which a build may have left out: whether it is compiled in is the
parameter `debugAssertions`.
-/

import CakeAutorate.Autotune.ProfileSearch

namespace CakeAutorate.Autotune

open Machine (maxBy minBy)

/-- How a call fails: it returns an error, or it stops the program. -/
inductive SearchFailure where
  | error (message : String)
  | panic (message : String)
  deriving DecidableEq

inductive ProfileSearchAction where
  | test
  | complete
  | fallback
  | inconclusive
  deriving DecidableEq

/-- The search ended with a selected observation: `Complete` or `Fallback`. -/
def ProfileSearchAction.terminal : ProfileSearchAction → Bool
  | .complete | .fallback => true
  | .test | .inconclusive => false

inductive ProfileSearchOptionRole where
  | recommended
  | qualityFirst
  | throughputFirst
  | balancedAlternative
  deriving DecidableEq

/-- A rate that a review may choose. -/
structure ProfileSearchOption where
  role : ProfileSearchOptionRole
  selectedIndex : ℕ
  candidateKbps : ℕ
  conservativeAchievedKbps : ℕ
  worstDeltaMs : ℚ
  grade : QualityClass
  transportCensored : Bool
  controlled : Bool
  manualReviewable : Bool
  targetMet : Bool
  capacityObjectiveMet : Bool
  autoApplyCandidate : Bool

/-- What the search decides. -/
structure ProfileSearchResult where
  profile : AutotuneProfile
  direction : SearchDirection
  observedLowKbps : ℕ
  action : ProfileSearchAction
  reason : String
  nextCandidateKbps : Option ℕ
  selectedIndex : Option ℕ
  lowerTargetPassKbps : Option ℕ
  upperTargetFailKbps : Option ℕ
  resolutionKbps : ℕ
  maxAttempts : ℕ
  metrics : List SearchObservationMetrics
  observations : List SearchObservation
  explorationMinimumKbps : ℕ
  runtimeMinimumIndex : Option ℕ
  kneeDetected : Bool
  kneeConfidencePercent : ℕ
  plateauImprovementMs : Option ℚ
  plateauThresholdMs : ℚ
  repeatCount : ℕ
  noCakeEffect : Bool
  noisy : Bool
  deriving DecidableEq

def ProfileSearchResult.samples (result : ProfileSearchResult) : List Sample :=
  samplesOf result.observations result.metrics

def maxProfileReviewOptions : ℕ := 3

structure ReviewCandidate where
  selectedIndex : ℕ
  candidateKbps : ℕ
  conservativeAchievedKbps : ℕ
  worstDeltaMs : ℚ
  transportCensored : Bool
  controlled : Bool
  targetMet : Bool
  capacityObjectiveMet : Bool

def ReviewCandidate.asOption (c : ReviewCandidate) (role : ProfileSearchOptionRole) :
    ProfileSearchOption :=
  let autoApplyCandidate :=
    c.controlled && !c.transportCensored && c.targetMet && c.capacityObjectiveMet
  { role
    selectedIndex := c.selectedIndex
    candidateKbps := c.candidateKbps
    conservativeAchievedKbps := c.conservativeAchievedKbps
    worstDeltaMs := c.worstDeltaMs
    grade := classifyQuality c.worstDeltaMs
    transportCensored := c.transportCensored
    controlled := c.controlled
    manualReviewable := !autoApplyCandidate
    targetMet := c.targetMet
    capacityObjectiveMet := c.capacityObjectiveMet
    autoApplyCandidate }

section

variable (samples : List Sample) (candidateKbps : ℕ)

/-- `review_candidate_for_rate`, the samples of a rate that passed. -/
def controlledAt : List Sample :=
  (atRate samples candidateKbps).filter fun s => s.metrics.safetyPass

/-- `review_candidate_for_rate`, the censored samples of a rate that can be reviewed. -/
def censoredAt : List Sample :=
  (atRate samples candidateKbps).filter fun s =>
    s.observation.transportCensored && s.metrics.manualReviewable

/-- `review_candidate_for_rate`, the samples of a rate that another one corroborates.  The bound on
the delay is asked of the sample and not of the one that corroborates it. -/
def corroboratedAt : List Sample :=
  (atRate samples candidateKbps).filter fun left =>
    left.metrics.manualReviewable && decide (left.delta ≤ reviewLatencyMs) &&
    (atRate samples candidateKbps).any fun right =>
      left.index != right.index && right.metrics.manualReviewable &&
      achievedRatesRepeatable left.achieved right.achieved

/-- `review_candidate_for_rate`, the samples that stand for a rate, and whether they passed. -/
def reviewGroup : Option (List Sample × Bool) :=
  if (atRate samples candidateKbps).isEmpty ∨
      (atRate samples candidateKbps).any (fun s => !s.metrics.resourceSafe) = true then none
  else if (controlledAt samples candidateKbps).isEmpty = false then
    some (controlledAt samples candidateKbps, true)
  else if (censoredAt samples candidateKbps).isEmpty = false then
    some (censoredAt samples candidateKbps, false)
  else
    (lowRealizationReviewCandidate samples candidateKbps).map fun _ =>
      (corroboratedAt samples candidateKbps, false)

/-- `review_candidate_for_rate`, its debug assertion: the slowest corroborated sample is as fast as
the low-realization candidate says.  It is reached where nothing passed and nothing was censored. -/
def conservativeAgrees : Bool :=
  if (atRate samples candidateKbps).isEmpty ∨
      (atRate samples candidateKbps).any (fun s => !s.metrics.resourceSafe) = true ∨
      (controlledAt samples candidateKbps).isEmpty = false ∨
      (censoredAt samples candidateKbps).isEmpty = false then true
  else
    match lowRealizationReviewCandidate samples candidateKbps with
    | none => true
    | some c =>
      c.conservativeAchievedKbps ==
        ((corroboratedAt samples candidateKbps).map Sample.achieved).min?.getD
          c.conservativeAchievedKbps

end

def reviewCandidateForRate (result : ProfileSearchResult) (candidateKbps : ℕ) :
    Option ReviewCandidate := do
  let group ← reviewGroup result.samples candidateKbps
  let conservative ← (group.1.map Sample.achieved).min?
  let selected ← maxBy byCaution group.1
  return {
    selectedIndex := selected.index
    candidateKbps
    conservativeAchievedKbps := conservative
    worstDeltaMs := selected.delta
    transportCensored := selected.observation.transportCensored
    controlled := group.2
    targetMet := selected.metrics.targetMet
    capacityObjectiveMet :=
      decide (result.profile.capacityFloorPercent ≤
        (conservative : ℚ) * 100 / result.observedLowKbps) }

def reviewCandidateBalancedScore (result : ProfileSearchResult) (c : ReviewCandidate) : ℚ :=
  clampUnit ((c.conservativeAchievedKbps : ℚ) / result.observedLowKbps) +
    clampUnit (result.profile.targetDeltaMs / max c.worstDeltaMs (1 / 1000))

/-- `profile_search_review_options`: a candidate of another rate is at least as good in every way,
and better in one. -/
def ReviewCandidate.dominates (other candidate : ReviewCandidate) : Bool :=
  other.candidateKbps != candidate.candidateKbps &&
  decide (candidate.controlled ≤ other.controlled) &&
  decide (candidate.conservativeAchievedKbps ≤ other.conservativeAchievedKbps) &&
  decide (other.worstDeltaMs ≤ candidate.worstDeltaMs) &&
  (other.controlled != candidate.controlled ||
    decide (candidate.conservativeAchievedKbps < other.conservativeAchievedKbps) ||
    decide (other.worstDeltaMs < candidate.worstDeltaMs))

/-- `profile_search_review_options`, the candidates. -/
def reviewCandidates (result : ProfileSearchResult) : List ReviewCandidate :=
  (testedRates result.samples).filterMap (reviewCandidateForRate result)

/-- `profile_search_review_options`, the candidates that no other one dominates. -/
def reviewFrontier (result : ProfileSearchResult) : List ReviewCandidate :=
  (reviewCandidates result).filter fun candidate =>
    !(reviewCandidates result).any fun other => other.dominates candidate

/-- `profile_search_review_options`, `throughput`. -/
def throughputCandidate (frontier : List ReviewCandidate) : Option ReviewCandidate :=
  maxBy (fun left right =>
      ((compare left.conservativeAchievedKbps right.conservativeAchievedKbps).then
        (compare right.worstDeltaMs left.worstDeltaMs)).then
        (compare left.candidateKbps right.candidateKbps)) frontier

/-- `profile_search_review_options`, `quality`. -/
def qualityCandidate (frontier : List ReviewCandidate) : Option ReviewCandidate :=
  minBy (fun left right =>
      ((compare left.worstDeltaMs right.worstDeltaMs).then
        (compare right.conservativeAchievedKbps left.conservativeAchievedKbps)).then
        (compare right.candidateKbps left.candidateKbps)) frontier

section

variable (result : ProfileSearchResult)

/-- `profile_search_review_options`, what a profile recommends when the selected rate is not in the
frontier. -/
def profileCandidate (frontier : List ReviewCandidate) : Option ReviewCandidate :=
  match result.profile with
  | .fair => throughputCandidate frontier
  | .gaming | .gamingExtreme | .variableLink =>
    maxBy (fun left right =>
        ((compare left.targetMet right.targetMet).then
          (compare left.conservativeAchievedKbps right.conservativeAchievedKbps)).then
          (compare right.worstDeltaMs left.worstDeltaMs)) frontier
  | .bestOverall =>
    maxBy (fun left right =>
        (compare (reviewCandidateBalancedScore result left)
          (reviewCandidateBalancedScore result right)).then
          (compare left.conservativeAchievedKbps right.conservativeAchievedKbps)) frontier

/-- `profile_search_review_options`, `selected_rate`. -/
def selectedRate : Option ℕ := do
  let index ← result.selectedIndex
  let observation ← result.observations[index]?
  return observation.candidateKbps

/-- `profile_search_review_options`, `recommended`. -/
def recommendedCandidate (frontier : List ReviewCandidate) : Option ReviewCandidate :=
  ((selectedRate result).bind fun rate => frontier.find? fun c => c.candidateKbps == rate).or
    (profileCandidate result frontier)

end

/-- `profile_search_review_options`: a candidate is shown once, under its first role. -/
def pushOption (options : List ProfileSearchOption)
    (entry : ProfileSearchOptionRole × Option ReviewCandidate) : List ProfileSearchOption :=
  match entry.2 with
  | none => options
  | some candidate =>
    if options.any (fun option => option.candidateKbps == candidate.candidateKbps) then options
    else options ++ [candidate.asOption entry.1]

section

variable (result : ProfileSearchResult) (frontier : List ReviewCandidate)

/-- `profile_search_review_options`, the options of the three roles. -/
def roleOptions : List ProfileSearchOption :=
  [(.recommended, recommendedCandidate result frontier), (.qualityFirst, qualityCandidate frontier),
    (.throughputFirst, throughputCandidate frontier)].foldl pushOption []

/-- `profile_search_review_options`, the alternatives that fill the list up: the candidates that are
not shown yet, the best score first. -/
def balancedAlternatives (options : List ProfileSearchOption) : List ProfileSearchOption :=
  let remaining := (frontier.filter fun candidate =>
    !options.any fun option => option.candidateKbps == candidate.candidateKbps).insertionSort
      fun left right =>
        ((compare (reviewCandidateBalancedScore result right)
          (reviewCandidateBalancedScore result left)).then
          (compare right.conservativeAchievedKbps left.conservativeAchievedKbps)) ≠ .gt
  (remaining.map fun candidate => candidate.asOption .balancedAlternative)

end

/-- `profile_search_review_options`. -/
def reviewOptions (result : ProfileSearchResult) : List ProfileSearchOption :=
  if result.action.terminal = false then []
  else
    let frontier := reviewFrontier result
    let options := roleOptions result frontier
    (options ++ balancedAlternatives result frontier options).take maxProfileReviewOptions

def assertionFailed : SearchFailure := .panic "assertion `left == right` failed"

/-- `profile_search_review_options` in a build: where debug assertions are compiled in, a rate that
fails the assertion of `review_candidate_for_rate` stops the program. -/
def profileSearchReviewOptions (debugAssertions : Bool) (result : ProfileSearchResult) :
    Except SearchFailure (List ProfileSearchOption) :=
  if debugAssertions ∧ result.action.terminal ∧
      (testedRates result.samples).all (conservativeAgrees result.samples) = false then
    .error assertionFailed
  else .ok (reviewOptions result)

/-- A `Complete` result must have passed and, except for the Fair profile, met the target. -/
def meetsObjective (profile : AutotuneProfile) (m : SearchObservationMetrics) : Bool :=
  m.safetyPass && (profile == .fair || m.targetMet)

/-- `align_terminal_selection_with_recommended`, given the recommended option. -/
def alignWith (result : ProfileSearchResult) (recommended : ProfileSearchOption) :
    Except SearchFailure ProfileSearchResult :=
  let aligned := { result with selectedIndex := some recommended.selectedIndex }
  if result.action = .complete then
    match result.metrics[recommended.selectedIndex]? with
    | none => .error (.panic "index out of bounds")
    | some m =>
      if meetsObjective result.profile m then .ok aligned
      else .ok { aligned with action := .fallback, reason := "conservative-review-downgrade" }
  else .ok aligned

def alignTerminalSelectionWithRecommended (debugAssertions : Bool) (result : ProfileSearchResult) :
    Except SearchFailure ProfileSearchResult :=
  if result.action.terminal then do
    let options ← profileSearchReviewOptions debugAssertions result
    match options.head? with
    | none => return result
    | some recommended => alignWith result recommended
  else .ok result

section

variable (result : ProfileSearchResult) (selectedIndex : ℕ) (recommended : ProfileSearchOption)

/-- `validate_review_alignment`, the recommended option is the selected observation. -/
def matchesSelected : Bool :=
  recommended.role == .recommended && recommended.selectedIndex == selectedIndex &&
  match result.observations[selectedIndex]? with
  | none => false
  | some observation =>
    observation.candidateKbps == recommended.candidateKbps &&
      observation.transportCensored == recommended.transportCensored

/-- `validate_review_alignment`, the checks of a recommended option. -/
def validateRecommended : Except SearchFailure Unit :=
  if matchesSelected result selectedIndex recommended = false then
    .error (.error "terminal profile-search selected observation does not match its recommended Review candidate")
  else
    match result.metrics[selectedIndex]? with
    | none => .error (.error "terminal profile-search selected metrics are missing")
    | some m =>
      if result.action = .complete ∧ meetsObjective result.profile m = false then
        .error (.error "terminal profile search claims Complete for a conservative candidate that did not satisfy its required objective")
      else .ok ()

end

def ProfileSearchResult.validateReviewAlignment (debugAssertions : Bool)
    (result : ProfileSearchResult) : Except SearchFailure Unit :=
  if result.action.terminal = false then .ok ()
  else
    match result.selectedIndex with
    | none => .error (.error "terminal profile search has no selected observation")
    | some selectedIndex => do
      let options ← profileSearchReviewOptions debugAssertions result
      match options.head? with
      | none => .error (.error "terminal profile search has no recommended Review candidate")
      | some recommended => validateRecommended result selectedIndex recommended

end CakeAutorate.Autotune
