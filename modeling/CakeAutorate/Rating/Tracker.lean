/-
# The connection rating

`QualityGradeTracker` of `quality_grade.rs`: idle transport samples make a baseline for each
endpoint, loaded samples of two planes, transport and ICMP, fill a window, and a window that is
complete when it is finished becomes the published rating.  Latencies and times are rationals
where the source has floats.
-/

import CakeAutorate.Autotune.ProfileSearch
import CakeAutorate.Wire.Text

namespace CakeAutorate.Rating

open Wire
open Autotune (QualityClass classifyQuality)

/-- `MIN_BASELINE_SAMPLES`. -/
def minBaselineSamples : ℕ := 20

/-- `MIN_LOADED_SAMPLES`. -/
def minLoadedSamples : ℕ := 20

/-- `BASELINE_WINDOW`. -/
def baselineWindow : ℕ := 120

/-- `QUALITY_GRADE_EVIDENCE_SOURCE`. -/
def qualityGradeEvidenceSource : String := "worst_of_icmp_and_transport"

/-- The rating of one direction, with the increase of each plane. -/
structure QualityGradeMetric where
  class_ : QualityClass
  increaseMs : ℚ
  loadedP90Ms : ℚ
  samples : ℕ
  evidenceSource : String
  icmpIncreaseMs : ℚ
  transportIncreaseMs : ℚ
  icmpSamples : ℕ
  transportSamples : ℕ

/-- `percentile`: between the two ranks that are nearest. -/
def percentile (values : List ℚ) (p : ℚ) : Option ℚ :=
  let sorted := values.insertionSort (· ≤ ·)
  if sorted = [] then none
  else
    let index := min (max p 0) 100 / 100 * ((sorted.length - 1 : ℕ) : ℚ)
    let lower := index.floor.toNat
    let upper := index.ceil.toNat
    if lower = upper then sorted[lower]?
    else
      let weight := index - lower
      some (sorted.getD lower 0 * (1 - weight) + sorted.getD upper 0 * weight)

/-- `clamp_increase_ms`: below 2 ms there is none. -/
def clampIncreaseMs (increaseMs : ℚ) : ℚ := if |increaseMs| < 2 then 0 else max increaseMs 0

/-- `transport_metric`. -/
def transportMetric (samples : List ℚ) (baselineP5Ms : ℚ) : Option (ℚ × ℚ) :=
  if samples.length < minLoadedSamples then none
  else (percentile samples 90).map fun loadedP90Ms =>
    (clampIncreaseMs (loadedP90Ms - baselineP5Ms), loadedP90Ms)

/-- `icmp_metric`. -/
def icmpMetric (samples : List ℚ) : Option ℚ :=
  if samples.length < minLoadedSamples then none
  else (percentile samples 90).map clampIncreaseMs

/-- `combined_metric`: the worse of the two planes. -/
def combinedMetric (transportSamples icmpSamples : List ℚ) (baselineP5Ms : ℚ) :
    Option QualityGradeMetric := do
  let (transportIncreaseMs, loadedP90Ms) ← transportMetric transportSamples baselineP5Ms
  let icmpIncreaseMs ← icmpMetric icmpSamples
  let increaseMs := max transportIncreaseMs icmpIncreaseMs
  some {
    class_ := classifyQuality increaseMs
    increaseMs
    loadedP90Ms
    samples := min transportSamples.length icmpSamples.length
    evidenceSource := qualityGradeEvidenceSource
    icmpIncreaseMs
    transportIncreaseMs
    icmpSamples := icmpSamples.length
    transportSamples := transportSamples.length }

/-- `quality_rank`. -/
def qualityRank : QualityClass → ℕ
  | .learning => 0
  | .f => 1
  | .d => 2
  | .c => 3
  | .b => 4
  | .a => 5
  | .aPlus => 6

/-- What a window comes to. -/
structure QualityGradeResult where
  class_ : QualityClass
  increaseMs : ℚ
  baselineP5Ms : ℚ
  endpoint : Text
  startedAt : ℚ
  completedAt : Option ℚ
  routeIdentity : Text
  partial_ : Bool
  incomplete : Bool
  dlSamples : ℕ
  ulSamples : ℕ
  bidirectionalSamples : ℕ
  completionReason : String
  captureJobId : Text
  captureGeneration : ℕ
  dl : Option QualityGradeMetric
  ul : Option QualityGradeMetric
  bidirectional : Option QualityGradeMetric

/-- The window of loaded samples that is open. -/
structure ActiveWindow where
  endpoint : Option Text
  baselineP5Ms : Option ℚ
  startedAt : ℚ
  lastTransportLoadedAt : Option ℚ
  lastIcmpLoadedAt : Option ℚ
  routeIdentity : Text
  captureJobId : Text
  captureGeneration : ℕ
  dl : List ℚ
  ul : List ℚ
  bidirectional : List ℚ
  icmpDl : List ℚ
  icmpUl : List ℚ
  icmpBidirectional : List ℚ

/-- The class and the completeness, from both directions. -/
def verdict : Option QualityGradeMetric → Option QualityGradeMetric →
    QualityClass × ℚ × Bool × Bool × String
  | some dl, some ul =>
    if qualityRank dl.class_ ≤ qualityRank ul.class_ then
      (dl.class_, max dl.increaseMs ul.increaseMs, false, false, "complete")
    else (ul.class_, max dl.increaseMs ul.increaseMs, false, false, "complete")
  | some dl, none => (dl.class_, dl.increaseMs, true, false, "upload_incomplete")
  | none, some ul => (ul.class_, ul.increaseMs, true, false, "download_incomplete")
  | none, none => (.learning, 0, false, true, "insufficient_directional_samples")

namespace ActiveWindow

def new (startedAt : ℚ) (routeIdentity captureJobId : Text) (captureGeneration : ℕ) :
    ActiveWindow where
  endpoint := none
  baselineP5Ms := none
  startedAt
  lastTransportLoadedAt := none
  lastIcmpLoadedAt := none
  routeIdentity
  captureJobId
  captureGeneration
  dl := []
  ul := []
  bidirectional := []
  icmpDl := []
  icmpUl := []
  icmpBidirectional := []

variable (w : ActiveWindow)

/-- The transport samples of a window. -/
def samples : ℕ := w.dl.length + w.ul.length + w.bidirectional.length

/-- A plane is silent for the grace. -/
def evidenceExpired (now graceS : ℚ) : Bool :=
  let transportAt := w.lastTransportLoadedAt.getD w.startedAt
  let icmpAt := w.lastIcmpLoadedAt.getD w.startedAt
  decide (now - transportAt ≥ graceS) || decide (now - icmpAt ≥ graceS)

/-- `finalize_remaining_s`. -/
def finalizeRemainingS (now graceS : ℚ) : ℚ :=
  let transportAt := w.lastTransportLoadedAt.getD w.startedAt
  let icmpAt := w.lastIcmpLoadedAt.getD w.startedAt
  max (min (graceS - (now - transportAt)) (graceS - (now - icmpAt))) 0

/-- The result, once the window has an endpoint. -/
def result (completedAt : Option ℚ) : Option QualityGradeResult := do
  let endpoint ← w.endpoint
  let baselineP5Ms ← w.baselineP5Ms
  let dl := combinedMetric w.dl w.icmpDl baselineP5Ms
  let ul := combinedMetric w.ul w.icmpUl baselineP5Ms
  let bidirectional := combinedMetric w.bidirectional w.icmpBidirectional baselineP5Ms
  let v := verdict dl ul
  some {
    class_ := v.1
    increaseMs := v.2.1
    baselineP5Ms
    endpoint
    startedAt := w.startedAt
    completedAt
    routeIdentity := w.routeIdentity
    partial_ := v.2.2.1
    incomplete := v.2.2.2.1
    dlSamples := w.dl.length
    ulSamples := w.ul.length
    bidirectionalSamples := w.bidirectional.length
    completionReason := v.2.2.2.2
    captureJobId := w.captureJobId
    captureGeneration := w.captureGeneration
    dl
    ul
    bidirectional }

/-- A sample joins the list of its load. -/
def pushTransport (latencyMs : ℚ) (dlLoaded ulLoaded : Bool) (timestamp : ℚ) : ActiveWindow :=
  let w := { w with lastTransportLoadedAt := some timestamp }
  if dlLoaded && ulLoaded then { w with bidirectional := w.bidirectional ++ [latencyMs] }
  else if dlLoaded then { w with dl := w.dl ++ [latencyMs] }
  else { w with ul := w.ul ++ [latencyMs] }

/-- An increase joins the list of its load, not below zero. -/
def pushIcmp (dlDeltaMs ulDeltaMs : ℚ) (dlLoaded ulLoaded : Bool) (timestamp : ℚ) : ActiveWindow :=
  let w := { w with lastIcmpLoadedAt := some timestamp }
  let dlDeltaMs := max dlDeltaMs 0
  let ulDeltaMs := max ulDeltaMs 0
  if dlLoaded && ulLoaded then
    { w with icmpBidirectional := w.icmpBidirectional ++ [max dlDeltaMs ulDeltaMs] }
  else if dlLoaded then { w with icmpDl := w.icmpDl ++ [dlDeltaMs] }
  else { w with icmpUl := w.icmpUl ++ [ulDeltaMs] }

end ActiveWindow

/-- The idle samples of each endpoint. -/
abbrev Baselines := List (Text × List ℚ)

/-- `push_back` and `pop_front` on one deque. -/
def slide (samples : List ℚ) (latencyMs : ℚ) : List ℚ :=
  (samples ++ [latencyMs]).drop (samples.length + 1 - baselineWindow)

/-- `entry(endpoint).or_default()` with a sample more. -/
def Baselines.push (endpoint : Text) (latencyMs : ℚ) : Baselines → Baselines
  | [] => [(endpoint, slide [] latencyMs)]
  | (key, samples) :: rest =>
    if key = endpoint then (key, slide samples latencyMs) :: rest
    else (key, samples) :: Baselines.push endpoint latencyMs rest

/-- `baselines.get(endpoint)`. -/
def Baselines.get (endpoint : Text) (baselines : Baselines) : Option (List ℚ) :=
  baselines.lookup endpoint

/-- The state of the tracker. -/
structure QualityGradeTracker where
  baselines : Baselines
  active : Option ActiveWindow
  latest : Option QualityGradeResult
  lastKnown : Option QualityGradeResult
  captureResult : Option QualityGradeResult
  captureJobId : Text
  captureGeneration : ℕ
  routeIdentity : Text
  sessionGraceS : ℚ

/-- What the tracker publishes. -/
structure QualityGradeSnapshot where
  state : String
  current : Option QualityGradeResult
  lastKnown : Option QualityGradeResult
  captureResult : Option QualityGradeResult
  collectedSamples : ℕ
  requiredSamples : ℕ
  baselineSamples : ℕ
  baselineRequiredSamples : ℕ
  dlSamples : ℕ
  ulSamples : ℕ
  bidirectionalSamples : ℕ
  finalizeRemainingS : Option ℚ
  baselineReady : Bool
  currentStale : Bool
  lastKnownStale : Bool

/-- `authoritative_complete_result`. -/
def QualityGradeSnapshot.authoritativeCompleteResult (s : QualityGradeSnapshot) :
    Option QualityGradeResult := do
  let result ← s.lastKnown
  if !s.lastKnownStale && result.completedAt.isSome && !result.partial_ && !result.incomplete
      && result.dl.isSome && result.ul.isSome then some result
  else none

namespace QualityGradeTracker

def new (sessionGraceS : ℚ) : QualityGradeTracker where
  baselines := []
  active := none
  latest := none
  lastKnown := none
  captureResult := none
  captureJobId := []
  captureGeneration := 0
  routeIdentity := []
  sessionGraceS := max sessionGraceS 1

variable (t : QualityGradeTracker)

def reset : QualityGradeTracker :=
  { t with
    baselines := []
    active := none
    latest := none
    lastKnown := none
    captureResult := none
    captureJobId := []
    captureGeneration := 0
    routeIdentity := [] }

/-- `set_route`: another route takes all but the last known result. -/
def setRoute (routeIdentity : Text) : QualityGradeTracker :=
  if t.routeIdentity = routeIdentity then t
  else
    { t with
      routeIdentity
      baselines := []
      active := none
      latest := none
      captureResult := none
      captureJobId := []
      captureGeneration := 0 }

/-- A complete result is kept, another one is only the latest. -/
def store (result : QualityGradeResult) : QualityGradeTracker :=
  if !result.partial_ && !result.incomplete then
    { t with
      lastKnown := some result
      captureResult := if !result.captureJobId.isEmpty && decide (result.captureGeneration > 0)
        then some result else t.captureResult
      latest := none }
  else { t with latest := some result }

/-- `finish_active`. -/
def finishActive (timestamp : ℚ) : QualityGradeTracker :=
  match t.active with
  | none => t
  | some active =>
    let t := { t with active := none }
    if active.samples = 0 then t
    else
      match active.result (some timestamp) with
      | none => t
      | some result => t.store result

/-- `begin_capture`. -/
def beginCapture (timestamp : ℚ) (jobId : Text) (generation : ℕ) : QualityGradeTracker :=
  { t.finishActive timestamp with
    latest := none
    captureResult := none
    captureJobId := jobId
    captureGeneration := generation }

/-- `cancel_capture`. -/
def cancelCapture : QualityGradeTracker :=
  { t with
    active := none
    latest := none
    captureResult := none
    captureJobId := []
    captureGeneration := 0 }

/-- `end_capture`. -/
def endCapture (timestamp : ℚ) : QualityGradeTracker :=
  { t.finishActive timestamp with captureJobId := [], captureGeneration := 0 }

/-- `baseline_p5`. -/
def baselineP5 (endpoint : Text) : Option ℚ := do
  let samples ← t.baselines.get endpoint
  if samples.length < minBaselineSamples then none else percentile samples 5

/-- A window whose evidence has expired is finished. -/
def expire (timestamp : ℚ) : QualityGradeTracker :=
  if (t.active.map fun active => active.evidenceExpired timestamp t.sessionGraceS).getD false then
    t.finishActive timestamp
  else t

/-- The open window, or a new one. -/
def window (timestamp : ℚ) : ActiveWindow :=
  t.active.getD (.new timestamp t.routeIdentity t.captureJobId t.captureGeneration)

/-- The first endpoint with a baseline is the one of the window. -/
def latch (endpoint : Text) (w : ActiveWindow) : ActiveWindow :=
  if w.endpoint.isNone then
    match t.baselineP5 endpoint with
    | none => w
    | some baselineP5Ms => { w with endpoint := some endpoint, baselineP5Ms := some baselineP5Ms }
  else w

/-- `observe`: an idle sample joins the baseline, a loaded one the window. -/
def observe (endpoint : Text) (latencyMs : ℚ) (dlLoaded ulLoaded : Bool) (timestamp : ℚ)
    (routeIdentity : Text) : QualityGradeTracker :=
  if latencyMs ≤ 0 then t
  else
    let t := t.setRoute routeIdentity
    if !dlLoaded && !ulLoaded then
      let t := { t with baselines := t.baselines.push endpoint latencyMs }
      t.expire timestamp
    else
      let t := t.expire timestamp
      let w := t.latch endpoint (t.window timestamp)
      if w.endpoint = some endpoint then
        { t with active := some (w.pushTransport latencyMs dlLoaded ulLoaded timestamp) }
      else { t with active := some w }

/-- `observe_icmp_delta`. -/
def observeIcmpDelta (dlDeltaMs ulDeltaMs : ℚ) (dlLoaded ulLoaded : Bool) (timestamp : ℚ)
    (routeIdentity : Text) : QualityGradeTracker :=
  if !dlLoaded && !ulLoaded then t
  else
    let t := (t.setRoute routeIdentity).expire timestamp
    { t with active := some ((t.window timestamp).pushIcmp dlDeltaMs ulDeltaMs dlLoaded ulLoaded
        timestamp) }

/-- `baseline_samples`: the most of any endpoint. -/
def baselineSamples : ℕ := (t.baselines.map fun b => b.2.length).foldl max 0

def baselineReady : Bool := t.baselines.any fun b => decide (b.2.length ≥ minBaselineSamples)

/-- What `snapshot` says of the current window: its state, its result and its samples. -/
def currentResult : String × Option QualityGradeResult × ℕ :=
  match t.active with
  | some active =>
    let current := active.result none
    (if current.isSome then "provisional" else "collecting", current, active.samples)
  | none =>
    match t.latest with
    | some latest => ("final", some latest, 0)
    | none => (if t.baselineReady then "baseline_ready" else "learning_baseline", none, 0)

/-- `snapshot`. -/
def snapshot (now : ℚ) : QualityGradeSnapshot where
  state := t.currentResult.1
  current := t.currentResult.2.1
  lastKnown := t.lastKnown
  captureResult := t.captureResult
  collectedSamples := t.currentResult.2.2
  requiredSamples := minLoadedSamples
  baselineSamples := t.baselineSamples
  baselineRequiredSamples := minBaselineSamples
  dlSamples := (t.active.map fun active => active.dl.length).getD 0
  ulSamples := (t.active.map fun active => active.ul.length).getD 0
  bidirectionalSamples := (t.active.map fun active => active.bidirectional.length).getD 0
  finalizeRemainingS := t.active.map fun active => active.finalizeRemainingS now t.sessionGraceS
  baselineReady := t.baselineReady
  currentStale :=
    (t.currentResult.2.1.map fun result => decide (result.routeIdentity ≠ t.routeIdentity)).getD false
  lastKnownStale :=
    (t.lastKnown.map fun result => decide (result.routeIdentity ≠ t.routeIdentity)).getD false

end QualityGradeTracker

/-- A call on the tracker. -/
inductive Call where
  | observe (endpoint : Text) (latencyMs : ℚ) (dlLoaded ulLoaded : Bool) (timestamp : ℚ)
      (routeIdentity : Text)
  | observeIcmpDelta (dlDeltaMs ulDeltaMs : ℚ) (dlLoaded ulLoaded : Bool) (timestamp : ℚ)
      (routeIdentity : Text)
  | setRoute (routeIdentity : Text)
  | beginCapture (timestamp : ℚ) (jobId : Text) (generation : ℕ)
  | cancelCapture
  | endCapture (timestamp : ℚ)
  | reset

def QualityGradeTracker.act (t : QualityGradeTracker) : Call → QualityGradeTracker
  | .observe endpoint latencyMs dlLoaded ulLoaded timestamp routeIdentity =>
    t.observe endpoint latencyMs dlLoaded ulLoaded timestamp routeIdentity
  | .observeIcmpDelta dlDeltaMs ulDeltaMs dlLoaded ulLoaded timestamp routeIdentity =>
    t.observeIcmpDelta dlDeltaMs ulDeltaMs dlLoaded ulLoaded timestamp routeIdentity
  | .setRoute routeIdentity => t.setRoute routeIdentity
  | .beginCapture timestamp jobId generation => t.beginCapture timestamp jobId generation
  | .cancelCapture => t.cancelCapture
  | .endCapture timestamp => t.endCapture timestamp
  | .reset => t.reset

end CakeAutorate.Rating
