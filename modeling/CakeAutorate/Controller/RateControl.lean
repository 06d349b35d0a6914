/-
# The rate of a direction

The part of `Controller` in `main.rs` that moves the shaper rate of one direction: the delay
controller (`update_direction`), the adaptive ceiling (`update_adaptive_ceilings` and the calls
that close a probe), the transport quality search and `set_min_shaper_rates`, each followed by
`clamp_rates`.  Rates, factors and delays are rationals where the source has floats; times are
nanoseconds since some start, and the duration since a later time is zero.
-/

import CakeAutorate.Controller.Config
import CakeAutorate.Controller.QualitySearch

namespace CakeAutorate.Controller

open Machine List

inductive LoadKind where
  | high
  | low
  | idle
  deriving DecidableEq

/-- `Duration::from_millis`. -/
def milliseconds (n : ℕ) : ℕ := n * 10 ^ 6

/-- `Duration::from_secs_f64`: to the nearest nanosecond, halves to the even one. -/
def secondsF64 (s : ℚ) : ℕ :=
  let floor := ⌊s * 10 ^ 9⌋.toNat
  let rest := s * 10 ^ 9 - floor
  if rest < 1 / 2 ∨ (rest = 1 / 2 ∧ floor % 2 = 0) then floor else floor + 1

def packetCompensationUs (packetSizeBits : ℕ) (shaperRateKbps : ℚ) : ℚ :=
  if packetSizeBits = 0 ∨ shaperRateKbps ≤ 0 then 0 else 1000 * packetSizeBits / shaperRateKbps

/-- `update_direction`, how far the delay is into the range of reductions. -/
def downFactor (delayThrUs downThrUs avgDeltaUs : ℚ) : ℚ :=
  if downThrUs ≤ delayThrUs then 1
  else if avgDeltaUs > delayThrUs then min ((avgDeltaUs - delayThrUs) / (downThrUs - delayThrUs)) 1
  else 0

/-- `update_direction`, how far the delay is into the range of growth. -/
def upFactor (delayThrUs upThrUs avgDeltaUs : ℚ) : ℚ :=
  if delayThrUs ≤ upThrUs then 1
  else if delayThrUs > avgDeltaUs then min ((delayThrUs - avgDeltaUs) / (delayThrUs - upThrUs)) 1
  else 0

/-- What `Controller` keeps for a direction. -/
structure RateDirection where
  shaperKbps : ℚ
  adaptive : AdaptiveCeilingDirection
  search : QualitySearchDirection
  lastBb : ℕ
  lastDecay : ℕ

/-- The arguments of `update_direction`. -/
structure DelayUpdate where
  kind : LoadKind
  bufferbloat : Bool
  avgDeltaUs : ℚ
  allowGrowth : Bool

/-- The arguments of `update_adaptive_ceilings` for a direction; the uplink is not offline, learning
or being checked again. -/
structure CeilingUpdate where
  uplinkReady : Bool
  kind : LoadKind
  achievedRateKbps : ℚ
  bufferbloat : Bool
  delayCount : ℕ
  avgDeltaUs : ℚ
  transportClean : Bool

namespace RateDirection

/-- `Controller::new`, the rate that the adaptive ceiling takes for safe. -/
def verifiedSafe (c : Config) (d : DirectionConfig) : ℚ :=
  if c.adaptiveCeilingEnabled && d.adaptiveCeilingEvidence == "legacy_unverified" then
    min d.baseShaperRateKbps d.maxShaperRateKbps
  else if c.adaptiveCeilingEnabled then d.adaptiveCeilingSafeKbps
  else d.maxShaperRateKbps

def new (c : Config) (d : DirectionConfig) (now : ℕ) : RateDirection where
  shaperKbps := d.baseShaperRateKbps
  adaptive := .newAtWithVerifiedSafe d.maxShaperRateKbps d.adaptiveCeilingCapKbps
    (verifiedSafe c d) now
  search := .new
  lastBb := now
  lastDecay := now

variable (c : Config) (d : DirectionConfig) (s : RateDirection)

def delayThrUs : ℚ :=
  d.owdDeltaDelayThrMs * 1000 + packetCompensationUs d.maxWirePacketSizeBits s.shaperKbps

def avgAdjustUpThrUs : ℚ :=
  d.avgOwdDeltaMaxAdjustUpThrMs * 1000 + packetCompensationUs d.maxWirePacketSizeBits s.shaperKbps

def avgAdjustDownThrUs : ℚ :=
  d.avgOwdDeltaMaxAdjustDownThrMs * 1000 + packetCompensationUs d.maxWirePacketSizeBits s.shaperKbps

/-- `update_direction`, `bb_ready`. -/
def bbReady (now : ℕ) : Bool := milliseconds c.bufferbloatRefractoryPeriodMs ≤ now - s.lastBb

/-- `update_direction`, `decay_ready`. -/
def decayReady (now : ℕ) : Bool := milliseconds c.decayRefractoryPeriodMs ≤ now - s.lastDecay

/-- `update_direction`, the factor of a reduction. -/
def downAdjust (avgDeltaUs : ℚ) : ℚ :=
  c.shaperRateMinAdjustDownBufferbloat
    - downFactor (s.delayThrUs d) (s.avgAdjustDownThrUs d) avgDeltaUs
      * (c.shaperRateMinAdjustDownBufferbloat - c.shaperRateMaxAdjustDownBufferbloat)

/-- `update_direction`, the factor of a growth step. -/
def upAdjust (avgDeltaUs : ℚ) : ℚ :=
  c.shaperRateMinAdjustUpLoadHigh
    - upFactor (s.delayThrUs d) (s.avgAdjustUpThrUs d) avgDeltaUs
      * (c.shaperRateMinAdjustUpLoadHigh - c.shaperRateMaxAdjustUpLoadHigh)

/-- `update_direction`, the rate after a step under low load. -/
def settledRate : ℚ :=
  if s.shaperKbps > d.baseShaperRateKbps then
    max (s.shaperKbps * c.shaperRateAdjustDownLoadLow) d.baseShaperRateKbps
  else if s.shaperKbps < d.baseShaperRateKbps then
    min (s.shaperKbps * c.shaperRateAdjustUpLoadLow) d.baseShaperRateKbps
  else s.shaperKbps

def withRate (rate : ℚ) : RateDirection :=
  { s with shaperKbps := rate, search := if rate < s.shaperKbps then .new else s.search }

def updateDirection (now : ℕ) (u : DelayUpdate) : RateDirection :=
  if !d.adjustShaperRate then s
  else if u.bufferbloat && s.bbReady c now then
    { s.withRate (s.shaperKbps * s.downAdjust c d u.avgDeltaUs) with lastBb := now, lastDecay := now }
  else if u.kind == .high && s.bbReady c now && u.allowGrowth then
    { s.withRate (s.shaperKbps * s.upAdjust c d u.avgDeltaUs) with lastDecay := now }
  else if (u.kind == .low || u.kind == .idle) && s.decayReady c now then
    { s.withRate (s.settledRate c d) with lastDecay := now }
  else s

/-- `update_adaptive_ceilings`, the policy. -/
def ceilingPolicy : AdaptiveCeilingPolicy where
  holdTime := secondsF64 c.adaptiveCeilingHoldTimeS
  probeStepPercent := c.adaptiveCeilingGrowthPercent
  probeDuration := secondsF64 c.adaptiveCeilingProbeDurationS
  cooldown := secondsF64 c.adaptiveCeilingCooldownS
  failedBoundTtl := secondsF64 c.adaptiveCeilingFailedBoundTtlS
  eligibilityGrace := secondsF64 (max c.reflectorResponseDeadlineS 1)
  minimumThroughputGainPercent := min (max (c.adaptiveCeilingGrowthPercent * (1 / 2)) 1) 5

/-- `update_adaptive_ceilings`, what a direction observes. -/
def ceilingObservation (u : CeilingUpdate) : AdaptiveCeilingObservation where
  eligible := d.adjustShaperRate && u.kind == .high && !u.bufferbloat
    && decide (u.delayCount < c.bufferbloatDetectionThr)
    && decide (u.avgDeltaUs ≤ s.avgAdjustUpThrUs d) && u.transportClean
  bufferbloat := u.bufferbloat
  shaperRateKbps := s.shaperKbps
  achievedRateKbps := u.achievedRateKbps

/-- `update_adaptive_ceilings`. -/
def updateAdaptiveCeiling (now : ℕ) (u : CeilingUpdate) : RateDirection :=
  if !c.adaptiveCeilingEnabled || !u.uplinkReady || !d.adjustShaperRate then s
  else { s with adaptive := (s.adaptive.observe now (s.ceilingObservation c d u) (ceilingPolicy c)).1 }

/-- `set_run_state`, `note_probe_gap` and `reset_adaptive_after_sustained_gap`: the calls that close
a probe, with an adaptive ceiling only. -/
def closeCeiling (close : AdaptiveCeilingDirection → AdaptiveCeilingDirection) : RateDirection :=
  if c.adaptiveCeilingEnabled && d.adjustShaperRate then { s with adaptive := close s.adaptive } else s

/-- `on_transport_probe`, the search of an adjusted direction and its request. -/
def searchQuality (policy : QualitySearchPolicy) (now : ℕ) (delta : Option ℚ) (root : ℚ) :
    RateDirection :=
  let after := s.search.observe now s.shaperKbps delta true root policy
  { s with search := after.1, shaperKbps := after.2.requestedRateKbps.getD s.shaperKbps }

/-- `set_min_shaper_rates`. -/
def setMinShaperRate : RateDirection :=
  if d.adjustShaperRate then { s with shaperKbps := max d.minShaperRateKbps 1, search := .new } else s

def clampRates : RateDirection :=
  if d.adjustShaperRate then
    s.withRate (clampRate d.minShaperRateKbps s.adaptive.effectiveMaxKbps s.shaperKbps)
  else s

end RateDirection

/-- What moves the rate of a direction. -/
inductive RateAction where
  | updateDirection (update : DelayUpdate)
  | updateAdaptiveCeiling (update : CeilingUpdate)
  | pauseCeiling (reason : String)
  | noteProbeGap
  | resetCeiling
  | searchQuality (policy : QualitySearchPolicy) (delta : Option ℚ) (root : ℚ)
  | setMinShaperRate

namespace RateDirection

def act (c : Config) (d : DirectionConfig) (s : RateDirection) (now : ℕ) : RateAction → RateDirection
  | .updateDirection update => s.updateDirection c d now update
  | .updateAdaptiveCeiling update => s.updateAdaptiveCeiling c d now update
  | .pauseCeiling reason => s.closeCeiling c d fun a => (a.pause now reason).1
  | .noteProbeGap => s.closeCeiling c d fun a => (a.abortProbeGap now).1
  | .resetCeiling => s.closeCeiling c d fun a => (a.resetToConfigured now).1
  | .searchQuality policy delta root => s.searchQuality policy now delta root
  | .setMinShaperRate => s.setMinShaperRate d

/-- A step: an action at a time, then `clamp_rates`. -/
def step (c : Config) (d : DirectionConfig) (s : RateDirection) (e : ℕ × RateAction) : RateDirection :=
  (s.act c d e.1 e.2).clampRates d

/-- A bufferbloat step: `update_direction` takes its first branch. -/
def Reduces (c : Config) (s : RateDirection) (now : ℕ) (u : DelayUpdate) : Prop :=
  u.bufferbloat = true ∧ s.bbReady c now = true

def Grows (c : Config) (s : RateDirection) (now : ℕ) (u : DelayUpdate) : Prop :=
  ¬Reduces c s now u ∧ u.kind = .high ∧ s.bbReady c now = true ∧ u.allowGrowth = true

def Toward (base old new : ℚ) : Prop := (base ≤ new ∧ new ≤ old) ∨ (old ≤ new ∧ new ≤ base)

/-- **The bounds of the rate**: the minimum, the effective maximum and the cap. -/
structure Bounds (d : DirectionConfig) (s : RateDirection) : Prop where
  min_le : max d.minShaperRateKbps 1 ≤ s.shaperKbps
  le_effective : s.shaperKbps ≤ s.adaptive.effectiveMaxKbps
  effective_le_cap : s.adaptive.effectiveMaxKbps ≤ s.adaptive.absoluteCapKbps

/-- **What `update_direction` does to the rate**, before and after it is clamped: a bufferbloat step
takes a factor between the two reductions, and a step under low load moves toward the base rate. -/
structure Steered (c : Config) (d : DirectionConfig) (s : RateDirection) (now : ℕ) (u : DelayUpdate) :
    Prop where
  reduces : Reduces c s now u → ∃ factor, c.shaperRateMaxAdjustDownBufferbloat ≤ factor ∧
    factor ≤ c.shaperRateMinAdjustDownBufferbloat ∧
    (s.updateDirection c d now u).shaperKbps = s.shaperKbps * factor ∧
    (s.updateDirection c d now u).shaperKbps ≤ s.shaperKbps ∧
    (s.step c d (now, .updateDirection u)).shaperKbps ≤ s.shaperKbps
  settles : ¬Reduces c s now u → u.kind ≠ .high →
    Toward d.baseShaperRateKbps s.shaperKbps (s.updateDirection c d now u).shaperKbps ∧
    Toward d.baseShaperRateKbps s.shaperKbps (s.step c d (now, .updateDirection u)).shaperKbps

/-- **The refractory period**: after a bufferbloat step no other one and no growth step comes sooner. -/
def Spaced (c : Config) (d : DirectionConfig) (start : ℕ) (events : List (ℕ × RateAction)) : Prop :=
  ∀ first now u mid now' u' rest,
    events = first ++ (now, .updateDirection u) :: (mid ++ (now', .updateDirection u') :: rest) →
    Reduces c (run (step c d) (new c d start) first) now u →
    (Reduces c (run (step c d) (new c d start) (first ++ (now, .updateDirection u) :: mid)) now' u' ∨
      Grows c (run (step c d) (new c d start) (first ++ (now, .updateDirection u) :: mid)) now' u') →
    now + milliseconds c.bufferbloatRefractoryPeriodMs ≤ now'

/-- The cap of the adaptive ceiling is not lifted by rounding: there is no adaptive ceiling, the cap
rounds to no more than itself, or the safe rate leaves no room for a probe below it. -/
def CapFits (c : Config) (d : DirectionConfig) : Prop :=
  c.adaptiveCeilingEnabled = false ∨ roundRate d.adaptiveCeilingCapKbps ≤ d.adaptiveCeilingCapKbps ∨
    d.adaptiveCeilingCapKbps ≤ verifiedSafe c d ∨
    roundRate d.adaptiveCeilingCapKbps ≤ verifiedSafe c d + epsilon

end RateDirection

theorem downFactor_mem (delay down avg : ℚ) :
    0 ≤ downFactor delay down avg ∧ downFactor delay down avg ≤ 1 := by
  unfold downFactor
  split
  · exact ⟨zero_le_one, le_rfl⟩
  · rename_i hdown
    split
    · rename_i havg
      refine ⟨le_min (div_nonneg (by linarith) (by linarith)) zero_le_one, min_le_right _ _⟩
    · exact ⟨le_rfl, zero_le_one⟩

theorem clampRate_mem {minimum ceiling : ℚ} (h : max minimum 1 ≤ ceiling) (rate : ℚ) :
    max minimum 1 ≤ clampRate minimum ceiling rate ∧ clampRate minimum ceiling rate ≤ ceiling :=
  ⟨le_min (le_max_right _ _) h, min_le_right _ _⟩

theorem clampRate_of_mem {minimum ceiling rate : ℚ} (hmin : max minimum 1 ≤ rate)
    (hle : rate ≤ ceiling) :
    clampRate minimum ceiling rate = rate := by
  rw [clampRate, max_eq_left hmin, min_eq_left hle]

theorem clampRate_le {minimum ceiling rate old : ℚ} (hmin : max minimum 1 ≤ old) (hle : rate ≤ old) :
    clampRate minimum ceiling rate ≤ old :=
  (min_le_left _ _).trans (max_le hle hmin)

namespace RateDirection

variable {c : Config} {d : DirectionConfig} {s : RateDirection} {start now : ℕ}

section

variable (h : d.Accepted c.adaptiveCeilingEnabled)
include h

theorem verifiedSafe_mem :
    d.baseShaperRateKbps ≤ verifiedSafe c d ∧ verifiedSafe c d ≤ d.maxShaperRateKbps := by
  unfold verifiedSafe
  split
  · exact ⟨le_min le_rfl h.base_le_max, min_le_right _ _⟩
  · rename_i hlegacy
    split
    · rename_i henabled
      refine h.safe_mem henabled ?_
      intro hsame
      exact hlegacy (by simp [henabled, hsame])
    · exact ⟨h.base_le_max, le_rfl⟩

theorem new_ceiling (start : ℕ) :
    (new c d start).adaptive.initialSafeCeilingKbps = verifiedSafe c d ∧
      (new c d start).adaptive.effectiveMaxKbps = verifiedSafe c d ∧
      (new c d start).adaptive.absoluteCapKbps = max d.adaptiveCeilingCapKbps d.maxShaperRateKbps := by
  obtain ⟨hbase, hmax⟩ := verifiedSafe_mem h
  have hone : 1 ≤ verifiedSafe c d := h.one_le_min.trans (h.min_le_base.trans hbase)
  have hclamped : min (min (max (verifiedSafe c d) 1) (max d.maxShaperRateKbps 1))
      (max d.adaptiveCeilingCapKbps d.maxShaperRateKbps) = verifiedSafe c d := by
    rw [max_eq_left hone, max_eq_left (hone.trans hmax), min_eq_left hmax]
    exact min_eq_left (le_max_of_le_right hmax)
  exact ⟨hclamped, hclamped, rfl⟩

theorem new_ordered (start : ℕ) : (new c d start).adaptive.Ordered :=
  AdaptiveCeilingDirection.ordered_new (h.one_le_min.trans (h.min_le_base.trans h.base_le_max)) _ _

end

/-- **The invariant**: the adaptive ceiling is one that its calls can reach, and the rate is between
its bounds. -/
structure Inv (c : Config) (d : DirectionConfig) (start : ℕ) (s : RateDirection) : Prop where
  keeps : (new c d start).adaptive.Keeps s.adaptive
  fixed : c.adaptiveCeilingEnabled = false → s.adaptive = (new c d start).adaptive
  min_le : max d.minShaperRateKbps 1 ≤ s.shaperKbps
  le_effective : s.shaperKbps ≤ s.adaptive.effectiveMaxKbps

section

variable (h : d.Accepted c.adaptiveCeilingEnabled)
include h

theorem base_le_effective (hkeeps : (new c d start).adaptive.Keeps s.adaptive) :
    d.baseShaperRateKbps ≤ s.adaptive.effectiveMaxKbps := by
  calc d.baseShaperRateKbps ≤ verifiedSafe c d := (verifiedSafe_mem h).1
    _ = s.adaptive.initialSafeCeilingKbps := by rw [hkeeps.initial, (new_ceiling h start).1]
    _ ≤ s.adaptive.safeCeilingKbps := hkeeps.ordered.initial_le
    _ ≤ s.adaptive.effectiveMaxKbps := hkeeps.ordered.safe_le

theorem min_le_base : max d.minShaperRateKbps 1 ≤ d.baseShaperRateKbps :=
  max_le h.min_le_base (h.one_le_min.trans h.min_le_base)

theorem new_inv (start : ℕ) : Inv c d start (new c d start) := by
  have hkeeps := AdaptiveCeilingDirection.Keeps.refl (new_ordered h start)
  exact ⟨hkeeps, fun _ => rfl, min_le_base h, base_le_effective h hkeeps⟩

end

theorem updateDirection_adaptive (u : DelayUpdate) :
    (s.updateDirection c d now u).adaptive = s.adaptive := by
  unfold updateDirection
  repeat' split
  all_goals rfl

theorem act_keeps {first : AdaptiveCeilingDirection} (h : first.Keeps s.adaptive)
    (hfixed : c.adaptiveCeilingEnabled = false → s.adaptive = first) (now : ℕ) (a : RateAction) :
    first.Keeps (s.act c d now a).adaptive ∧
      (c.adaptiveCeilingEnabled = false → (s.act c d now a).adaptive = first) := by
  have hclose : ∀ close : AdaptiveCeilingDirection → AdaptiveCeilingDirection,
      s.adaptive.Keeps (close s.adaptive) →
      first.Keeps (s.closeCeiling c d close).adaptive ∧
        (c.adaptiveCeilingEnabled = false → (s.closeCeiling c d close).adaptive = first) := by
    intro close hkeeps
    unfold closeCeiling
    split
    · rename_i henabled
      refine ⟨h.trans hkeeps, fun hdisabled => ?_⟩
      rw [hdisabled] at henabled
      cases henabled
    · exact ⟨h, hfixed⟩
  have hordered := h.ordered
  cases a with
  | updateDirection u =>
    simp only [act, updateDirection_adaptive]
    exact ⟨h, hfixed⟩
  | updateAdaptiveCeiling u =>
    simp only [act, updateAdaptiveCeiling]
    split
    · exact ⟨h, hfixed⟩
    · rename_i henabled
      refine ⟨h.trans (hordered.observe _ _), fun hdisabled => ?_⟩
      rw [hdisabled] at henabled
      exact absurd rfl henabled
  | pauseCeiling reason => exact hclose _ (hordered.pause reason)
  | noteProbeGap => exact hclose _ hordered.abortProbeGap
  | resetCeiling => exact hclose _ hordered.resetToConfigured
  | searchQuality policy delta root => exact ⟨h, hfixed⟩
  | setMinShaperRate =>
    simp only [act, setMinShaperRate]
    split
    · exact ⟨h, hfixed⟩
    · exact ⟨h, hfixed⟩

/-- `clamp_rates` of an adjusted direction. -/
theorem clampRates_shaper (hadjust : d.adjustShaperRate = true) :
    (s.clampRates d).shaperKbps =
      clampRate d.minShaperRateKbps s.adaptive.effectiveMaxKbps s.shaperKbps := by
  simp [clampRates, hadjust, withRate]

theorem clampRates_adaptive : (s.clampRates d).adaptive = s.adaptive := by
  unfold clampRates
  split <;> rfl

/-- **Every step keeps the invariant.** -/
theorem Inv.step (h : Inv c d start s) (haccepted : d.Accepted c.adaptiveCeilingEnabled)
    (hadjust : d.adjustShaperRate = true) (e : ℕ × RateAction) : Inv c d start (s.step c d e) := by
  obtain ⟨hkeeps, hfixed⟩ := act_keeps (d := d) h.keeps h.fixed e.1 e.2
  have hroom : max d.minShaperRateKbps 1 ≤ (s.act c d e.1 e.2).adaptive.effectiveMaxKbps :=
    (min_le_base haccepted).trans (base_le_effective haccepted hkeeps)
  obtain ⟨hmin, hle⟩ := clampRate_mem hroom (s.act c d e.1 e.2).shaperKbps
  refine ⟨?_, ?_, ?_, ?_⟩
  · rw [RateDirection.step, clampRates_adaptive]
    exact hkeeps
  · rw [RateDirection.step, clampRates_adaptive]
    exact hfixed
  · rw [RateDirection.step, clampRates_shaper hadjust]
    exact hmin
  · rw [RateDirection.step, clampRates_shaper hadjust, clampRates_adaptive]
    exact hle

theorem run_inv (haccepted : d.Accepted c.adaptiveCeilingEnabled) (hadjust : d.adjustShaperRate = true)
    (start : ℕ) (events : List (ℕ × RateAction)) :
    Inv c d start (run (RateDirection.step c d) (new c d start) events) :=
  run_invariant (fun _ e h => h.step haccepted hadjust e) (new_inv haccepted start) events

/-- **The bounds follow**, where rounding does not lift the cap. -/
theorem Inv.bounds (h : Inv c d start s) (haccepted : d.Accepted c.adaptiveCeilingEnabled)
    (hcap : CapFits c d) : Bounds d s := by
  obtain ⟨hinitial, heffective, habsolute⟩ := new_ceiling haccepted start
  have hstart :
      (new c d start).adaptive.effectiveMaxKbps ≤ (new c d start).adaptive.absoluteCapKbps := by
    rw [heffective, habsolute]
    exact le_max_of_le_right (verifiedSafe_mem haccepted).2
  refine ⟨h.min_le, h.le_effective, ?_⟩
  cases henabled : c.adaptiveCeilingEnabled with
  | false =>
    rw [h.fixed henabled]
    exact hstart
  | true =>
    have hmax : max d.adaptiveCeilingCapKbps d.maxShaperRateKbps = d.adaptiveCeilingCapKbps :=
      max_eq_left (haccepted.max_le_cap henabled)
    rw [h.keeps.cap]
    refine h.keeps.capped ?_ hstart
    rw [AdaptiveCeilingDirection.CapKept, habsolute, hinitial, hmax]
    rcases hcap with hdisabled | hfits
    · rw [henabled] at hdisabled
      cases hdisabled
    · exact hfits

theorem downAdjust_mem (hfactors : c.Factors) (s : RateDirection) (avg : ℚ) :
    c.shaperRateMaxAdjustDownBufferbloat ≤ s.downAdjust c d avg ∧
      s.downAdjust c d avg ≤ c.shaperRateMinAdjustDownBufferbloat := by
  obtain ⟨hzero, hone⟩ := downFactor_mem (s.delayThrUs d) (s.avgAdjustDownThrUs d) avg
  have hgap : 0 ≤ c.shaperRateMinAdjustDownBufferbloat - c.shaperRateMaxAdjustDownBufferbloat :=
    sub_nonneg.2 hfactors.maxDown_le
  have hlow := mul_nonneg hzero hgap
  have hhigh := mul_le_of_le_one_left hgap hone
  constructor
  · unfold downAdjust
    linarith
  · unfold downAdjust
    linarith

theorem settledRate_toward (hfactors : c.Factors) (hrate : 0 ≤ s.shaperKbps) :
    Toward d.baseShaperRateKbps s.shaperKbps (s.settledRate c d) := by
  unfold settledRate
  split
  · rename_i habove
    exact .inl ⟨le_max_right _ _, max_le (mul_le_of_le_one_right hrate hfactors.downLow_le_one)
      habove.le⟩
  · split
    · rename_i hbelow
      exact .inr ⟨le_min (le_mul_of_one_le_right hrate hfactors.upLow_ge_one) hbelow.le,
        min_le_right _ _⟩
    · rename_i habove hbelow
      exact .inl ⟨not_lt.1 hbelow, le_rfl⟩

theorem Toward.refl (base rate : ℚ) : Toward base rate rate := by
  rcases le_total base rate with h | h
  · exact .inl ⟨h, le_rfl⟩
  · exact .inr ⟨le_rfl, h⟩

theorem Toward.mem {base old new low high : ℚ} (h : Toward base old new) (hlow : low ≤ base)
    (hlow' : low ≤ old) (hhigh : base ≤ high) (hhigh' : old ≤ high) : low ≤ new ∧ new ≤ high := by
  rcases h with ⟨hbase, hold⟩ | ⟨hold, hbase⟩
  · exact ⟨hlow.trans hbase, hold.trans hhigh'⟩
  · exact ⟨hlow'.trans hold, hbase.trans hhigh⟩

theorem updateDirection_reduces (hadjust : d.adjustShaperRate = true) {u : DelayUpdate}
    (h : Reduces c s now u) :
    (s.updateDirection c d now u).shaperKbps = s.shaperKbps * s.downAdjust c d u.avgDeltaUs ∧
      (s.updateDirection c d now u).lastBb = now := by
  simp only [updateDirection, hadjust, h.1, h.2, Bool.not_true, Bool.false_eq_true, if_false,
    Bool.and_self, if_true, withRate, and_self]

theorem updateDirection_settles (hfactors : c.Factors) (hrate : 0 ≤ s.shaperKbps) {u : DelayUpdate}
    (h : ¬Reduces c s now u) (hkind : u.kind ≠ .high) :
    Toward d.baseShaperRateKbps s.shaperKbps (s.updateDirection c d now u).shaperKbps := by
  unfold updateDirection
  split
  · exact .refl _ _
  split
  · rename_i hreduces
    rw [Bool.and_eq_true] at hreduces
    exact absurd hreduces h
  split
  · rename_i hgrows
    simp [hkind] at hgrows
  split
  · exact settledRate_toward hfactors hrate
  · exact .refl _ _

/-- **A step of the delay controller.** -/
theorem Inv.steered (h : Inv c d start s) (haccepted : d.Accepted c.adaptiveCeilingEnabled)
    (hfactors : c.Factors) (hadjust : d.adjustShaperRate = true) (now : ℕ) (u : DelayUpdate) :
    Steered c d s now u := by
  have hrate : 0 ≤ s.shaperKbps := zero_le_one.trans ((le_max_right _ _).trans h.min_le)
  have hstep : (s.step c d (now, .updateDirection u)).shaperKbps = clampRate d.minShaperRateKbps
      s.adaptive.effectiveMaxKbps (s.updateDirection c d now u).shaperKbps := by
    rw [RateDirection.step, clampRates_shaper hadjust]
    simp [act, updateDirection_adaptive]
  constructor
  · intro hreduces
    obtain ⟨hlow, hhigh⟩ := downAdjust_mem (d := d) hfactors s u.avgDeltaUs
    obtain ⟨heq, -⟩ := updateDirection_reduces hadjust hreduces
    have hle : (s.updateDirection c d now u).shaperKbps ≤ s.shaperKbps := by
      rw [heq]
      exact mul_le_of_le_one_right hrate (hhigh.trans hfactors.minDown_le_one)
    refine ⟨_, hlow, hhigh, heq, hle, ?_⟩
    rw [hstep]
    exact clampRate_le h.min_le hle
  · intro hnot hkind
    have htoward := updateDirection_settles (d := d) hfactors hrate hnot hkind
    refine ⟨htoward, ?_⟩
    obtain ⟨hmin, hle⟩ := htoward.mem (min_le_base haccepted) h.min_le
      (base_le_effective haccepted h.keeps) h.le_effective
    rw [hstep, clampRate_of_mem hmin hle]
    exact htoward

theorem step_lastBb (e : ℕ × RateAction) :
    (s.step c d e).lastBb = s.lastBb ∨ (s.step c d e).lastBb = e.1 := by
  have hclamp : (s.step c d e).lastBb = (s.act c d e.1 e.2).lastBb := by
    rw [RateDirection.step, clampRates]
    split <;> rfl
  rw [hclamp]
  obtain ⟨now, a⟩ := e
  cases a with
  | updateDirection u =>
    simp only [act, updateDirection]
    split
    · exact .inl rfl
    split
    · exact .inr rfl
    split
    · exact .inl rfl
    split
    · exact .inl rfl
    · exact .inl rfl
  | updateAdaptiveCeiling u =>
    simp only [act, updateAdaptiveCeiling]
    split <;> exact .inl rfl
  | pauseCeiling reason =>
    simp only [act, closeCeiling]
    split <;> exact .inl rfl
  | noteProbeGap =>
    simp only [act, closeCeiling]
    split <;> exact .inl rfl
  | resetCeiling =>
    simp only [act, closeCeiling]
    split <;> exact .inl rfl
  | searchQuality policy delta root => exact .inl rfl
  | setMinShaperRate =>
    simp only [act, setMinShaperRate]
    split <;> exact .inl rfl

variable {events : List (ℕ × RateAction)}

theorem le_lastBb_run {t : ℕ} (hs : t ≤ s.lastBb) (htime : ∀ e ∈ events, t ≤ e.1) :
    t ≤ (run (RateDirection.step c d) s events).lastBb := by
  induction events generalizing s with
  | nil => exact hs
  | cons e events ih =>
    obtain ⟨he, hrest⟩ := forall_mem_cons.1 htime
    refine ih ?_ hrest
    rcases step_lastBb (c := c) (d := d) (s := s) e with heq | heq
    · exact heq ▸ hs
    · exact heq ▸ he

/-- **Nothing grows or is reduced again in the refractory period.** -/
theorem spaced (hadjust : d.adjustShaperRate = true)
    (htime : (start :: events.map Prod.fst).Pairwise (· ≤ ·)) : Spaced c d start events := by
  intro first now u mid now' u' rest heq hreduces hnext
  subst heq
  have hlater : (∀ e ∈ mid, now ≤ e.1) ∧ now ≤ now' := by
    rw [pairwise_cons] at htime
    have hpair := htime.2
    rw [map_append, map_cons, pairwise_append] at hpair
    have hcons := (pairwise_cons.1 hpair.2.1).1
    refine ⟨fun e he => hcons e.1 ?_, hcons now' ?_⟩
    · exact mem_map_of_mem (mem_append_left _ he)
    · exact mem_map_of_mem (f := Prod.fst) (mem_append_right _ mem_cons_self)
  have hready : bbReady c (run (RateDirection.step c d) (new c d start)
      (first ++ (now, .updateDirection u) :: mid)) now' = true := by
    rcases hnext with hreduces' | hgrows
    · exact hreduces'.2
    · exact hgrows.2.2.1
  have hset : now ≤ ((run (RateDirection.step c d) (new c d start) first).step c d
      (now, .updateDirection u)).lastBb := by
    have hmoved := (updateDirection_reduces hadjust hreduces).2
    rw [RateDirection.step, clampRates]
    split
    · exact hmoved.ge
    · exact hmoved.ge
  have hlast := le_lastBb_run (c := c) (d := d) hset hlater.1
  rw [run_append, run_cons] at hready
  have hwait := of_decide_eq_true hready
  omega

/-- **The rate controller keeps its bounds.**  For every accepted configuration whose cap is not
lifted by rounding: the rate lies between the minimum and the effective maximum, which is at most
the cap; the controller steers as `Steered` says; and bufferbloat steps keep the refractory period.
-/
theorem rate_controlled {c : Config} (hvalid : c.validate = .ok ()) {isDl : Bool}
    (hadjust : (c.direction isDl).adjustShaperRate = true) (hcap : CapFits c (c.direction isDl))
    {start : ℕ} {events : List (ℕ × RateAction)}
    (htime : (start :: events.map Prod.fst).Pairwise (· ≤ ·)) :
    Bounds (c.direction isDl)
      (run (step c (c.direction isDl)) (new c (c.direction isDl) start) events) ∧
    (∀ now u, Steered c (c.direction isDl)
      (run (step c (c.direction isDl)) (new c (c.direction isDl) start) events) now u) ∧
    Spaced c (c.direction isDl) start events := by
  have haccepted := Config.validate_accepted hvalid hadjust
  have hinv := run_inv haccepted hadjust start events
  exact ⟨hinv.bounds haccepted hcap,
    fun now u => hinv.steered haccepted (Config.validate_factors hvalid) hadjust now u,
    spaced hadjust htime⟩

def fractionalConfig : Config :=
  { Config.defaults with
    dl := ⟨true, 10, 100, 100, 0, 30, 10, 60, 1006 / 10, 0, "legacy_unverified"⟩
    ul := ⟨true, 10, 100, 100, 0, 30, 10, 60, 100, 0, "legacy_unverified"⟩
    connectionActiveThrKbps := 0
    adaptiveCeilingEnabled := true
    adaptiveCeilingHoldTimeS := 1
    adaptiveCeilingGrowthPercent := 5
    adaptiveCeilingProbeDurationS := 5
    adaptiveCeilingCooldownS := 10
    adaptiveCeilingFailedBoundTtlS := 600 }

def cleanLoad : CeilingUpdate := ⟨true, .high, 95, false, 0, 0, true⟩

theorem fractionalConfig_exceeds :
    fractionalConfig.validate = .ok () ∧ (fractionalConfig.direction true).adjustShaperRate = true ∧
      (0 :: [(0, RateAction.updateAdaptiveCeiling cleanLoad),
        (seconds 1, .updateAdaptiveCeiling cleanLoad)].map Prod.fst).Pairwise (· ≤ ·) ∧
      ¬Bounds (fractionalConfig.direction true)
        (run (step fractionalConfig (fractionalConfig.direction true))
          (new fractionalConfig (fractionalConfig.direction true) 0)
          [(0, .updateAdaptiveCeiling cleanLoad), (seconds 1, .updateAdaptiveCeiling cleanLoad)]) := by
  refine ⟨by decide +kernel, rfl, by decide +kernel, fun h => ?_⟩
  exact absurd h.effective_le_cap (by decide +kernel)

theorem fractionalConfig_upload :
    fractionalConfig.validate = .ok () ∧ CapFits fractionalConfig (fractionalConfig.direction false) ∧
      ∀ events : List (ℕ × RateAction), (0 :: events.map Prod.fst).Pairwise (· ≤ ·) →
        Bounds (fractionalConfig.direction false)
          (run (step fractionalConfig (fractionalConfig.direction false))
            (new fractionalConfig (fractionalConfig.direction false) 0) events) := by
  have hvalid : fractionalConfig.validate = .ok () := by decide +kernel
  have hcap : CapFits fractionalConfig (fractionalConfig.direction false) :=
    .inr (.inl (by decide +kernel))
  exact ⟨hvalid, hcap, fun events htime =>
    (rate_controlled hvalid rfl hcap htime).1⟩

end RateDirection

end CakeAutorate.Controller
