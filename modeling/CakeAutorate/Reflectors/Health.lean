/-
# The health of the reflectors

`ReflectorState` and `ReflectorHealth` of `main.rs`: samples and missed deadlines of the reflectors
are counted as offences over a window, and a check replaces one active reflector by a spare one
when a comparison, the periodic refresh or the offences call for it.  The floats of the controller
are any type with their operations, its maps may change in any way between two checks, and every
reading of the clock is a number of its own.
-/

import CakeAutorate.Machine.Run
import Mathlib.Algebra.GroupWithZero.Nat
import Mathlib.Data.List.Nodup
import Mathlib.Data.List.Perm.Subperm
import Mathlib.Logic.Function.Basic

namespace CakeAutorate.Reflectors

open Machine List Function

/-- The operations of `f64` that are used. -/
structure Floats (F : Type) where
  zero : F
  infinity : F
  add : F → F → F
  sub : F → F → F
  min : F → F → F
  gt : F → F → Bool

/-- `Config`, what the health of reflectors depends on: durations in nanoseconds, thresholds in
microseconds. -/
structure Config (F : Type) where
  reflectors : List String
  detectionWindow : ℕ
  detectionThr : ℕ
  retainReflectorStats : Bool
  healthCheckInterval : ℕ
  comparisonInterval : ℕ
  replacementInterval : ℕ
  sumOwdBaselinesDeltaThrUs : F
  owdDeltaEwmaDeltaThrUs : F

/-- `PingerTiming`, the deadline as a duration and in milliseconds. -/
structure PingerTiming (F : Type) where
  responseDeadline : ℕ
  responseDeadlineMs : F

/-- `Sample`, what the health of reflectors reads. -/
structure Sample (F : Type) where
  reflector : String
  rttMs : F

/-- The readings of the clock by `check`, in the order of the code. -/
structure Clock where
  now : ℕ
  compared : ℕ
  comparedAt : ℕ
  refreshed : ℕ
  refreshedAt : ℕ
  deadlines : ℕ
  replacedAt : ℕ
  renewedAt : ℕ

structure ReflectorState (F : Type) where
  lastSeen : ℕ
  offences : List Bool
  offenceSum : ℕ
  samples : ℕ
  lastRttMs : F

section State

variable {F : Type} (fl : Floats F)

def ReflectorState.new (now window : ℕ) : ReflectorState F where
  lastSeen := now
  offences := replicate window false
  offenceSum := 0
  samples := 0
  lastRttMs := fl.zero

def ReflectorState.pushOffence (s : ReflectorState F) (offence : Bool) : ReflectorState F :=
  match s.offences with
  | [] => s
  | oldest :: rest =>
    let offenceSum := if oldest then s.offenceSum - 1 else s.offenceSum
    { s with
      offences := rest ++ [offence]
      offenceSum := if offence then offenceSum + 1 else offenceSum }

/-- The offences are counted over a whole window. -/
structure ReflectorState.Counts (window : ℕ) (s : ReflectorState F) : Prop where
  sum : s.offenceSum = s.offences.count true
  length : s.offences.length = window

variable {window : ℕ} {s : ReflectorState F}

theorem counts_new (now : ℕ) : (ReflectorState.new fl now window).Counts window where
  sum := by simp [ReflectorState.new, count_replicate]
  length := length_replicate

/-- **A push** keeps the count. -/
theorem ReflectorState.Counts.pushOffence (h : s.Counts window) (offence : Bool) :
    (s.pushOffence offence).Counts window := by
  unfold ReflectorState.pushOffence
  cases hwindow : s.offences with
  | nil => exact h
  | cons oldest rest =>
    have hsum := h.sum
    have hlength := h.length
    rw [hwindow] at hsum hlength
    constructor
    · show (if offence then _ + 1 else _) = (rest ++ [offence]).count true
      rw [count_append, hsum]
      cases oldest <;> cases offence <;> simp
    · show (rest ++ [offence]).length = window
      rw [length_append, length_singleton, ← hlength, length_cons]

end State

structure ReflectorHealth (F : Type) where
  timing : PingerTiming F
  states : String → Option (ReflectorState F)
  lastHealthCheck : ℕ
  lastReplacement : ℕ
  lastComparison : ℕ
  nextCandidateIdx : ℕ
  replacementSlot : ℕ

/-- `Controller`, the maps over reflectors. -/
structure Controller (F W : Type) where
  dlBaselineUs : String → Option F
  ulBaselineUs : String → Option F
  dlEwmaUs : String → Option F
  ulEwmaUs : String → Option F
  baselineWarmup : String → Option W

/-- What `check` works on. -/
structure World (F W : Type) where
  active : List String
  health : ReflectorHealth F
  controller : Controller F W

def nextSpareReflector (candidates active : List String) (start : ℕ) : Option (ℕ × String) :=
  if candidates.length ≤ active.length then none
  else (range candidates.length).findSome? fun offset =>
    let idx := (start + offset) % candidates.length
    (candidates[idx]?).bind fun candidate =>
      if active.contains candidate then none else some (idx, candidate)

section Health

variable {F W : Type} (fl : Floats F) (cfg : Config F)

def ReflectorHealth.new (active : List String) (timing : PingerTiming F) (now : ℕ) :
    ReflectorHealth F where
  timing
  states r := if r ∈ active then some (.new fl now cfg.detectionWindow) else none
  lastHealthCheck := now
  lastReplacement := now
  lastComparison := now
  nextCandidateIdx := active.length
  replacementSlot := 0

namespace ReflectorHealth

variable (h : ReflectorHealth F)

/-- `states.insert`. -/
def insert (r : String) (s : ReflectorState F) : ReflectorHealth F :=
  { h with states := update h.states r (some s) }

@[simp] theorem states_insert (r : String) (s : ReflectorState F) :
    (h.insert r s).states = update h.states r (some s) := rfl

/-- `states.entry(..).or_insert_with`. -/
def entry (r : String) (now : ℕ) : ReflectorState F :=
  (h.states r).getD (.new fl now cfg.detectionWindow)

def observeSample (sample : Sample F) (observedAt : ℕ) : ReflectorHealth F :=
  let state := h.entry fl cfg sample.reflector observedAt
  let state : ReflectorState F :=
    { state with
      lastSeen := if state.samples = 0 then observedAt else max state.lastSeen observedAt
      samples := min (state.samples + 1) (2 ^ 64 - 1)
      lastRttMs := sample.rttMs }
  let late := fl.gt sample.rttMs h.timing.responseDeadlineMs
  h.insert sample.reflector (if late then state.pushOffence true else state)

def ensureActiveStates (active : List String) (now : ℕ) : ReflectorHealth F :=
  { h with
    states := fun r =>
      (h.states r).or (if r ∈ active then some (.new fl now cfg.detectionWindow) else none) }

/-- `replace_active_reflector`, the window of a reflector that is not replaced. -/
def clearOffences (r : String) : ReflectorHealth F :=
  match h.states r with
  | none => h
  | some s =>
    h.insert r { s with offences := replicate cfg.detectionWindow false, offenceSum := 0 }

/-- `check_response_deadlines`, a reflector with the outcome of its deadline. -/
def judge (r : String) (now : ℕ) : ReflectorState F :=
  let state := h.entry fl cfg r now
  state.pushOffence (decide (now - state.lastSeen > h.timing.responseDeadline))

end ReflectorHealth

/-- `replace_active_reflector`, what the controller forgets. -/
def Controller.forget (c : Controller F W) (old next : String) : Controller F W :=
  let c := { c with
    baselineWarmup := update (update c.baselineWarmup old none) next none }
  if cfg.retainReflectorStats then c
  else { c with
    dlBaselineUs := update c.dlBaselineUs old none
    ulBaselineUs := update c.ulBaselineUs old none
    dlEwmaUs := update c.dlEwmaUs old none
    ulEwmaUs := update c.ulEwmaUs old none }

/-- `maybe_compare_reflectors`, the statistics of a reflector. -/
structure Stat (F : Type) where
  sum : F
  dlEwma : F
  ulEwma : F

def Controller.stat (c : Controller F W) (r : String) : Option (Stat F) := do
  let dlBaseline ← c.dlBaselineUs r
  let ulBaseline ← c.ulBaselineUs r
  let dlEwma ← c.dlEwmaUs r
  let ulEwma ← c.ulEwmaUs r
  return ⟨fl.add dlBaseline ulBaseline, dlEwma, ulEwma⟩

/-- `maybe_compare_reflectors`, a reflector that is too far from the best ones. -/
def exceeds (stats : List (Stat F)) (s : Stat F) : Bool :=
  let minSum := stats.foldl (fun m s => fl.min m s.sum) fl.infinity
  let minDlEwma := stats.foldl (fun m s => fl.min m s.dlEwma) fl.infinity
  let minUlEwma := stats.foldl (fun m s => fl.min m s.ulEwma) fl.infinity
  fl.gt (fl.sub s.sum minSum) cfg.sumOwdBaselinesDeltaThrUs
    || (fl.gt (fl.sub s.dlEwma minDlEwma) cfg.owdDeltaEwmaDeltaThrUs
      || fl.gt (fl.sub s.ulEwma minUlEwma) cfg.owdDeltaEwmaDeltaThrUs)

namespace World

variable (clock : Clock) (w : World F W)

def replaceActiveReflector (index : ℕ) : World F W × Bool :=
  match nextSpareReflector cfg.reflectors w.active w.health.nextCandidateIdx with
  | none => ({ w with health := w.health.clearOffences cfg (w.active.getD index "") }, false)
  | some (idx, next) =>
    let old := w.active.getD index ""
    let states :=
      if cfg.retainReflectorStats then w.health.states
      else update w.health.states old none
    let health : ReflectorHealth F :=
      { w.health with
        nextCandidateIdx := idx + 1, lastReplacement := clock.replacedAt, states }
    ({ active := w.active.set index next
       health := health.insert next (.new fl clock.renewedAt cfg.detectionWindow)
       controller := w.controller.forget cfg old next }, true)

def maybeCompareReflectors : World F W × Bool :=
  if cfg.comparisonInterval = 0
      ∨ clock.compared - w.health.lastComparison < cfg.comparisonInterval then (w, false)
  else
    let w : World F W := { w with health := { w.health with lastComparison := clock.comparedAt } }
    match w.active.mapM (w.controller.stat fl) with
    | none => (w, false)
    | some stats =>
      match stats.findIdx? (exceeds fl cfg stats) with
      | none => (w, false)
      | some index => w.replaceActiveReflector fl cfg clock index

def maybePeriodicRefresh : World F W × Bool :=
  if cfg.replacementInterval = 0
      ∨ clock.refreshed - w.health.lastReplacement < cfg.replacementInterval then (w, false)
  else if w.active = [] ∨ cfg.reflectors.length ≤ w.active.length then
    ({ w with health := { w.health with lastReplacement := clock.refreshedAt } }, false)
  else
    let slot := w.health.replacementSlot % w.active.length
    let health : ReflectorHealth F :=
      { w.health with replacementSlot := (w.health.replacementSlot + 1) % 2 ^ 64 }
    let w : World F W := { w with health }
    w.replaceActiveReflector fl cfg clock slot

/-- `check_response_deadlines`, over the rest of the active reflectors. -/
def checkFrom : List (String × ℕ) → World F W → World F W × Bool
  | [], w => (w, false)
  | (r, index) :: rest, w =>
    let state := w.health.judge fl cfg r clock.deadlines
    let w : World F W := { w with health := w.health.insert r state }
    if cfg.detectionThr ≤ state.offenceSum then w.replaceActiveReflector fl cfg clock index
    else checkFrom rest w

def checkResponseDeadlines : World F W × Bool := checkFrom fl cfg clock w.active.zipIdx w

def ensured : World F W :=
  let health := w.health.ensureActiveStates fl cfg w.active clock.now
  { w with health := { health with lastHealthCheck := clock.now } }

/-- A part of `check`, unless a part before it has replaced a reflector. -/
def orThen (first : World F W × Bool) (next : World F W → World F W × Bool) : World F W × Bool :=
  if first.2 then first else next first.1

/-- `ReflectorHealth::check`. -/
def check : World F W × Bool :=
  if clock.now - w.health.lastHealthCheck < cfg.healthCheckInterval then (w, false)
  else
    orThen (orThen ((w.ensured fl cfg clock).maybeCompareReflectors fl cfg clock)
      (maybePeriodicRefresh fl cfg clock)) (checkResponseDeadlines fl cfg clock)

end World

/-- What happens to the reflectors: a sample, a check, or a change of the controller's maps. -/
inductive Event (F W : Type)
  | observe (sample : Sample F) (observedAt : ℕ)
  | check (clock : Clock)
  | control (controller : Controller F W)

def step (w : World F W) : Event F W → World F W
  | .observe sample observedAt =>
    { w with health := w.health.observeSample fl cfg sample observedAt }
  | .check clock => (w.check fl cfg clock).1
  | .control controller => { w with controller }

end Health

end CakeAutorate.Reflectors
