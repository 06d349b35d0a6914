/-
# The adaptive ceiling

`AdaptiveCeilingDirection` of `adaptive_ceiling.rs`: the outer loop that probes above the
rate known to be safe and falls back to it.  Rates are rationals where the source has
floats; times and durations are nanoseconds, and a duration since a later time is zero.
-/

import CakeAutorate.Machine.Run
import Mathlib.Data.Rat.Floor
import Mathlib.Tactic.Linarith

namespace CakeAutorate.Controller

open Option Machine

/-- `f64::round`: to the nearest integer, halves away from zero. -/
def roundRate (x : ℚ) : ℚ := if 0 ≤ x then ⌊x + 1 / 2⌋ else -⌊-x + 1 / 2⌋

/-- `f64::EPSILON`. -/
def epsilon : ℚ := 1 / 2 ^ 52

/-- `Duration::from_secs`. -/
def seconds (n : ℕ) : ℕ := n * 10 ^ 9

/-- `Duration::MAX`. -/
def maxDuration : ℕ := seconds (2 ^ 64 - 1) + 999999999

inductive AdaptiveCeilingPhase where
  | cruise
  | qualify
  | probeRamp
  | probeObserve
  | backoff
  deriving DecidableEq

def AdaptiveCeilingPhase.Probing (phase : AdaptiveCeilingPhase) : Prop :=
  phase = .probeRamp ∨ phase = .probeObserve

inductive AdaptiveCeilingChange where
  | raised (fromKbps toKbps : ℚ)
  | lowered (fromKbps toKbps : ℚ)

structure AdaptiveCeilingTransition where
  from_ : AdaptiveCeilingPhase
  to_ : AdaptiveCeilingPhase
  reason : String

structure AdaptiveCeilingUpdate where
  change : Option AdaptiveCeilingChange := none
  transition : Option AdaptiveCeilingTransition := none

structure AdaptiveCeilingPolicy where
  holdTime : ℕ
  probeStepPercent : ℚ
  probeDuration : ℕ
  cooldown : ℕ
  failedBoundTtl : ℕ
  eligibilityGrace : ℕ
  minimumThroughputGainPercent : ℚ

structure AdaptiveCeilingObservation where
  eligible : Bool
  bufferbloat : Bool
  shaperRateKbps : ℚ
  achievedRateKbps : ℚ

def rampTimeout (policy : AdaptiveCeilingPolicy) : ℕ :=
  max (max policy.holdTime (min (policy.probeDuration * 3) maxDuration)) (seconds 15)

def rateChange (fromKbps toKbps : ℚ) : Option AdaptiveCeilingChange :=
  if toKbps > fromKbps + epsilon then some (.raised fromKbps toKbps)
  else if toKbps + epsilon < fromKbps then some (.lowered fromKbps toKbps)
  else none

/-- The ceiling of one direction. -/
structure AdaptiveCeilingDirection where
  configuredMaxKbps : ℚ
  effectiveMaxKbps : ℚ
  absoluteCapKbps : ℚ
  initialSafeCeilingKbps : ℚ
  safeCeilingKbps : ℚ
  failedCeilingKbps : Option ℚ
  failedAt : Option ℕ
  probeTargetKbps : Option ℚ
  probeBaselineAchievedKbps : Option ℚ
  probePeakAchievedKbps : ℚ
  phase : AdaptiveCeilingPhase
  phaseSince : ℕ
  lastEligibleAt : Option ℕ
  lastTransitionReason : String

namespace AdaptiveCeilingDirection

def newAtWithVerifiedSafe (configuredMaxKbps absoluteCapKbps verifiedSafeKbps : ℚ) (now : ℕ) :
    AdaptiveCeilingDirection :=
  let absoluteCapKbps := max absoluteCapKbps configuredMaxKbps
  let verifiedSafeKbps :=
    min (min (max verifiedSafeKbps 1) (max configuredMaxKbps 1)) absoluteCapKbps
  { configuredMaxKbps
    effectiveMaxKbps := verifiedSafeKbps
    absoluteCapKbps
    initialSafeCeilingKbps := verifiedSafeKbps
    safeCeilingKbps := verifiedSafeKbps
    failedCeilingKbps := none
    failedAt := none
    probeTargetKbps := none
    probeBaselineAchievedKbps := none
    probePeakAchievedKbps := 0
    phase := .cruise
    phaseSince := now
    lastEligibleAt := none
    lastTransitionReason := "initialized" }

variable (d : AdaptiveCeilingDirection)

/-- `enter_phase`, the direction. -/
def inPhase (now : ℕ) (phase : AdaptiveCeilingPhase) (reason : String) : AdaptiveCeilingDirection :=
  { d with phase, phaseSince := now, lastTransitionReason := reason }

/-- `enter_phase`, the transition it returns. -/
def transition (phase : AdaptiveCeilingPhase) (reason : String) : AdaptiveCeilingTransition :=
  ⟨d.phase, phase, reason⟩

def closed : AdaptiveCeilingDirection :=
  { d with
    probeTargetKbps := none
    probeBaselineAchievedKbps := none
    probePeakAchievedKbps := 0
    effectiveMaxKbps := d.safeCeilingKbps
    lastEligibleAt := none }

def abortProbe (now : ℕ) (reason : String) : AdaptiveCeilingDirection × AdaptiveCeilingUpdate :=
  (d.closed.inPhase now .backoff reason,
    ⟨rateChange d.effectiveMaxKbps d.safeCeilingKbps, some (d.transition .backoff reason)⟩)

def expireFailedBound (now failedBoundTtl : ℕ) : AdaptiveCeilingDirection × AdaptiveCeilingUpdate :=
  match d.failedAt with
  | none => (d, {})
  | some failedAt =>
    if now - failedAt < failedBoundTtl then (d, {})
    else ({ d with
        failedCeilingKbps := none, failedAt := none, lastTransitionReason := "failed bound expired" },
      { transition := some ⟨d.phase, d.phase, "failed bound expired"⟩ })

def recordFailedBound (failedKbps : ℚ) (now : ℕ) : AdaptiveCeilingDirection :=
  { d with
    failedCeilingKbps := some ((d.failedCeilingKbps.map (min · failedKbps)).getD failedKbps)
    failedAt := some now }

def shaperAtCeiling (shaperRateKbps : ℚ) : Bool := shaperRateKbps ≥ d.effectiveMaxKbps * (98 / 100)

def eligibilityExpired (now grace : ℕ) : Bool :=
  match d.lastEligibleAt with
  | none => true
  | some last => now - last > grace

/-- `next_probe_target`, the target that is bounded by a failed ceiling. -/
def boundedTarget (probeStepPercent : ℚ) : Option ℚ :=
  let openTarget := d.safeCeilingKbps * (1 + probeStepPercent / 100)
  match d.failedCeilingKbps with
  | none => some openTarget
  | some failed =>
    if failed ≤ d.safeCeilingKbps + max (d.safeCeilingKbps * (5 / 1000)) 1000 then none
    else if failed > d.safeCeilingKbps then
      some (min openTarget (d.safeCeilingKbps + (failed - d.safeCeilingKbps) / 2))
    else none

/-- `next_probe_target`, the last step: at least one above the safe ceiling, at most the
cap, and only then rounded. -/
def roundedTarget (boundedTarget : ℚ) : ℚ :=
  roundRate (min (max boundedTarget (d.safeCeilingKbps + 1)) d.absoluteCapKbps)

def nextProbeTarget (probeStepPercent : ℚ) : Option ℚ :=
  if d.safeCeilingKbps ≥ d.absoluteCapKbps then none
  else match d.boundedTarget probeStepPercent with
    | none => none
    | some boundedTarget =>
      let target := d.roundedTarget boundedTarget
      if target > d.safeCeilingKbps + epsilon then some target else none

/-- `handle_bufferbloat`, the bounds it learns. -/
def learned (now : ℕ) (shaperRateKbps : ℚ) : AdaptiveCeilingDirection :=
  let failed := max (d.probeTargetKbps.getD d.effectiveMaxKbps) d.initialSafeCeilingKbps
  if failed > d.safeCeilingKbps then d.recordFailedBound failed now
  else if d.safeCeilingKbps > d.initialSafeCeilingKbps ∧ shaperRateKbps < d.safeCeilingKbps then
    { d.recordFailedBound d.safeCeilingKbps now with
      safeCeilingKbps := max shaperRateKbps d.initialSafeCeilingKbps }
  else d

def handleBufferbloat (now : ℕ) (shaperRateKbps : ℚ) :
    AdaptiveCeilingDirection × AdaptiveCeilingUpdate :=
  if d.phase = .backoff then (d, {})
  else
    let learned := d.learned now shaperRateKbps
    (learned.closed.inPhase now .backoff "confirmed bufferbloat",
      ⟨rateChange d.effectiveMaxKbps learned.safeCeilingKbps,
        some (d.transition .backoff "confirmed bufferbloat")⟩)

variable (now : ℕ) (o : AdaptiveCeilingObservation) (policy : AdaptiveCeilingPolicy)
  (update : AdaptiveCeilingUpdate)

/-- `observe` in `Cruise`. -/
def observeCruise : AdaptiveCeilingDirection × AdaptiveCeilingUpdate :=
  if o.eligible && d.shaperAtCeiling o.shaperRateKbps
      && (d.nextProbeTarget policy.probeStepPercent).isSome then
    (inPhase { d with
        probeBaselineAchievedKbps := some (max o.achievedRateKbps 0), probePeakAchievedKbps := 0 }
      now .qualify "clean high load qualification started",
      { update with
        transition := some (d.transition .qualify "clean high load qualification started") })
  else (d, update)

/-- `observe` in `Qualify`, the baseline. -/
def withBaseline : AdaptiveCeilingDirection :=
  if o.eligible then
    { d with
      probeBaselineAchievedKbps := some
        ((d.probeBaselineAchievedKbps.map (max · (max o.achievedRateKbps 0))).getD
          (max o.achievedRateKbps 0)) }
  else d

/-- `observe` in `Qualify`, back to `Cruise`. -/
def disqualified (reason : String) : AdaptiveCeilingDirection × AdaptiveCeilingUpdate :=
  (inPhase { d with probeBaselineAchievedKbps := none, probePeakAchievedKbps := 0 } now .cruise
      reason,
    { update with transition := some (d.transition .cruise reason) })

/-- `observe` in `Qualify`, with the baseline. -/
def observeQualified : AdaptiveCeilingDirection × AdaptiveCeilingUpdate :=
  if d.eligibilityExpired now policy.eligibilityGrace then
    d.disqualified now update "qualification grace expired"
  else if now - d.phaseSince ≥ policy.holdTime && o.eligible
      && d.shaperAtCeiling o.shaperRateKbps then
    match d.nextProbeTarget policy.probeStepPercent with
    | some target =>
      (inPhase { d with probeTargetKbps := some target, effectiveMaxKbps := target } now .probeRamp
          "bounded probe opened",
        ⟨rateChange d.effectiveMaxKbps target,
          some (d.transition .probeRamp "bounded probe opened")⟩)
    | none => d.disqualified now update "no probe space remains"
  else (d, update)

/-- `observe` in `Qualify`. -/
def observeQualify : AdaptiveCeilingDirection × AdaptiveCeilingUpdate :=
  (d.withBaseline o).observeQualified now o policy update

/-- `observe` in a probe, the largest achieved rate. -/
def withPeak : AdaptiveCeilingDirection :=
  if o.eligible then
    { d with probePeakAchievedKbps := max d.probePeakAchievedKbps (max o.achievedRateKbps 0) }
  else d

/-- `observe` in `ProbeRamp`, before the grace expires. -/
def observeRamp : AdaptiveCeilingDirection × AdaptiveCeilingUpdate :=
  let target := d.probeTargetKbps.getD d.safeCeilingKbps
  if o.eligible && o.shaperRateKbps ≥ target * (98 / 100) then
    (d.inPhase now .probeObserve "probe target reached",
      { update with transition := some (d.transition .probeObserve "probe target reached") })
  else if now - d.phaseSince ≥ rampTimeout policy then d.abortProbe now "probe ramp timed out"
  else (d, update)

/-- `observe` in `ProbeRamp`. -/
def observeProbeRamp : AdaptiveCeilingDirection × AdaptiveCeilingUpdate :=
  if d.eligibilityExpired now policy.eligibilityGrace then
    d.abortProbe now "probe ramp grace expired"
  else (d.withPeak o).observeRamp now o policy update

/-- `observe` in `ProbeObserve`, the gain a probe must have brought. -/
def requiredGain : ℚ :=
  let target := d.probeTargetKbps.getD d.safeCeilingKbps
  min (max (d.probeBaselineAchievedKbps.getD 0 * max policy.minimumThroughputGainPercent 0 / 100) 50)
    (max (max (target - d.safeCeilingKbps) 0 * (5 / 10)) 1)

/-- `observe` in `ProbeObserve`, the target is promoted. -/
def promoted : AdaptiveCeilingDirection × AdaptiveCeilingUpdate :=
  let target := d.probeTargetKbps.getD d.safeCeilingKbps
  (inPhase { d with
      safeCeilingKbps := target
      effectiveMaxKbps := target
      probeTargetKbps := none
      probeBaselineAchievedKbps := none
      probePeakAchievedKbps := 0 } now .backoff "probe confirmed safe",
    { update with transition := some (d.transition .backoff "probe confirmed safe") })

/-- `observe` in `ProbeObserve`, before the grace expires. -/
def observeResult : AdaptiveCeilingDirection × AdaptiveCeilingUpdate :=
  if o.eligible && now - d.phaseSince ≥ policy.probeDuration then
    let baseline := d.probeBaselineAchievedKbps.getD 0
    if baseline > 0 ∧ d.probePeakAchievedKbps + epsilon < baseline + d.requiredGain policy then
      d.abortProbe now "probe added no measurable throughput"
    else d.promoted now update
  else (d, update)

/-- `observe` in `ProbeObserve`. -/
def observeProbeObserve : AdaptiveCeilingDirection × AdaptiveCeilingUpdate :=
  if d.eligibilityExpired now policy.eligibilityGrace then
    d.abortProbe now "probe observation grace expired"
  else (d.withPeak o).observeResult now o policy update

/-- `observe` in `Backoff`. -/
def observeBackoff : AdaptiveCeilingDirection × AdaptiveCeilingUpdate :=
  if now - d.phaseSince ≥ policy.cooldown then
    (d.inPhase now .cruise "probe cooldown complete",
      { update with transition := some (d.transition .cruise "probe cooldown complete") })
  else (d, update)

/-- `observe`, the time of the last eligible observation. -/
def withEligible : AdaptiveCeilingDirection :=
  if o.eligible then { d with lastEligibleAt := some now } else d

/-- `observe`, by phase. -/
def observePhase : AdaptiveCeilingDirection × AdaptiveCeilingUpdate :=
  match d.phase with
  | .cruise => d.observeCruise now o policy update
  | .qualify => d.observeQualify now o policy update
  | .probeRamp => d.observeProbeRamp now o policy update
  | .probeObserve => d.observeProbeObserve now o policy update
  | .backoff => d.observeBackoff now policy update

def observe : AdaptiveCeilingDirection × AdaptiveCeilingUpdate :=
  let expired := d.expireFailedBound now policy.failedBoundTtl
  let current := expired.1.withEligible now o
  if o.bufferbloat then current.handleBufferbloat now o.shaperRateKbps
  else current.observePhase now o policy expired.2

def pause (reason : String) : AdaptiveCeilingDirection × AdaptiveCeilingUpdate :=
  (d.closed.inPhase now .cruise reason,
    ⟨rateChange d.effectiveMaxKbps d.safeCeilingKbps, some (d.transition .cruise reason)⟩)

def abortProbeGap : AdaptiveCeilingDirection × AdaptiveCeilingUpdate :=
  match d.phase with
  | .qualify | .probeRamp | .probeObserve => d.abortProbe now "probe response gap"
  | .cruise | .backoff => (d, {})

def resetToConfigured : AdaptiveCeilingDirection × AdaptiveCeilingUpdate :=
  (inPhase (closed { d with
      safeCeilingKbps := d.initialSafeCeilingKbps, failedCeilingKbps := none, failedAt := none })
      now .cruise "stall reset",
    ⟨rateChange d.effectiveMaxKbps d.initialSafeCeilingKbps,
      some (d.transition .cruise "stall reset")⟩)

end AdaptiveCeilingDirection

theorem epsilon_pos : (0 : ℚ) < epsilon := by norm_num [epsilon]

theorem roundRate_of_nonneg {x : ℚ} (hx : 0 ≤ x) : roundRate x = ⌊x + 1 / 2⌋ := if_pos hx

theorem roundRate_mono {x y : ℚ} (hx : 0 ≤ x) (hxy : x ≤ y) : roundRate x ≤ roundRate y := by
  rw [roundRate_of_nonneg hx, roundRate_of_nonneg (hx.trans hxy)]
  have hfloor : ⌊x + 1 / 2⌋ ≤ ⌊y + 1 / 2⌋ := Int.floor_le_floor (by linarith)
  exact_mod_cast hfloor

theorem roundRate_le {x : ℚ} (hx : 0 ≤ x) : roundRate x ≤ x + 1 / 2 := by
  rw [roundRate_of_nonneg hx]
  exact Int.floor_le _

namespace AdaptiveCeilingDirection

/-- The bounds that outlive a probe: the safe ceiling is at least the verified one, and a
failed ceiling is above it. -/
structure Sound (d : AdaptiveCeilingDirection) : Prop where
  one_le_initial : 1 ≤ d.initialSafeCeilingKbps
  one_le_cap : 1 ≤ d.absoluteCapKbps
  initial_le : d.initialSafeCeilingKbps ≤ d.safeCeilingKbps
  failed : ∀ f, d.failedCeilingKbps = some f → d.safeCeilingKbps < f

/-- **The order of the bounds.**  While a probe is open its target is above the safe
ceiling and below a failed one. -/
structure Ordered (d : AdaptiveCeilingDirection) : Prop extends Sound d where
  target : ∀ t, d.probeTargetKbps = some t →
    d.safeCeilingKbps < t ∧ ∀ f, d.failedCeilingKbps = some f → t < f
  effective : d.effectiveMaxKbps = d.probeTargetKbps.getD d.safeCeilingKbps
  probing : d.probeTargetKbps.isSome = true ↔ d.phase.Probing

def CapKept (d : AdaptiveCeilingDirection) : Prop :=
  roundRate d.absoluteCapKbps ≤ d.absoluteCapKbps ∨ d.absoluteCapKbps ≤ d.initialSafeCeilingKbps ∨
    roundRate d.absoluteCapKbps ≤ d.initialSafeCeilingKbps + epsilon

variable {d : AdaptiveCeilingDirection} {now : ℕ}

/-- **The next target** is above the safe ceiling, below a failed one, and at most the
rounded cap. -/
theorem nextProbeTarget_spec (h : d.Sound) {percent t : ℚ} (ht : d.nextProbeTarget percent = some t) :
    d.safeCeilingKbps < d.absoluteCapKbps ∧ d.safeCeilingKbps + epsilon < t ∧
      (∀ f, d.failedCeilingKbps = some f → t < f) ∧ t ≤ roundRate d.absoluteCapKbps := by
  have hsafe : 1 ≤ d.safeCeilingKbps := h.one_le_initial.trans h.initial_le
  unfold nextProbeTarget at ht
  split at ht
  · cases ht
  rename_i hroom
  cases hbounded : d.boundedTarget percent with
  | none =>
    rw [hbounded] at ht
    cases ht
  | some bounded =>
    simp only [hbounded] at ht
    split at ht
    · rename_i habove
      cases ht
      have hnonneg : 0 ≤ min (max bounded (d.safeCeilingKbps + 1)) d.absoluteCapKbps := by
        refine le_min ?_ (by linarith [h.one_le_cap])
        exact le_max_of_le_right (by linarith)
      refine ⟨not_le.1 hroom, habove, fun f hf => ?_, ?_⟩
      · have hround : d.roundedTarget bounded
            ≤ min (max bounded (d.safeCeilingKbps + 1)) d.absoluteCapKbps + 1 / 2 :=
          roundRate_le hnonneg
        have hmin : min (max bounded (d.safeCeilingKbps + 1)) d.absoluteCapKbps
            ≤ max bounded (d.safeCeilingKbps + 1) := min_le_left _ _
        simp only [boundedTarget, hf] at hbounded
        split at hbounded
        · cases hbounded
        · rename_i hgap
          split at hbounded
          · cases hbounded
            have hwide : d.safeCeilingKbps + 1000 < f := by
              have := le_max_right (d.safeCeilingKbps * (5 / 1000)) 1000
              linarith
            have hmax : max (min (d.safeCeilingKbps * (1 + percent / 100))
                (d.safeCeilingKbps + (f - d.safeCeilingKbps) / 2)) (d.safeCeilingKbps + 1)
                ≤ d.safeCeilingKbps + (f - d.safeCeilingKbps) / 2 :=
              max_le (min_le_right _ _) (by linarith)
            linarith
          · cases hbounded
      · exact roundRate_mono hnonneg (min_le_right _ _)
    · cases ht

theorem nextProbeTarget_le_cap (h : d.Sound) (hcap : d.CapKept) {percent t : ℚ}
    (ht : d.nextProbeTarget percent = some t) : t ≤ d.absoluteCapKbps := by
  obtain ⟨hroom, habove, -, hround⟩ := nextProbeTarget_spec h ht
  rcases hcap with hcap | hcap | hcap
  · exact hround.trans hcap
  · exact absurd (hcap.trans h.initial_le) (not_le.2 hroom)
  · linarith [h.initial_le]

variable {phase : AdaptiveCeilingPhase} {d' : AdaptiveCeilingDirection}

theorem Sound.shut (h : d.Sound) (hphase : ¬phase.Probing) (reason : String) :
    (d.closed.inPhase now phase reason).Ordered :=
  ⟨⟨h.one_le_initial, h.one_le_cap, h.initial_le, h.failed⟩, nofun, rfl,
    iff_of_false (by simp [closed, inPhase]) hphase⟩

theorem Sound.learned (h : d.Sound) (shaper : ℚ) : (d.learned now shaper).Sound := by
  unfold AdaptiveCeilingDirection.learned
  have hrecord : ∀ {failed : ℚ} {safe : ℚ}, safe ≤ d.safeCeilingKbps → safe < failed →
      ∀ f, (d.recordFailedBound failed now).failedCeilingKbps = some f → safe < f := by
    intro failed safe hsafe hlt f hf
    cases hold : d.failedCeilingKbps with
    | none =>
      simp only [recordFailedBound, hold, map_none, getD_none, some.injEq] at hf
      exact hf ▸ hlt
    | some old =>
      simp only [recordFailedBound, hold, map_some, getD_some, some.injEq] at hf
      exact hf ▸ lt_min (lt_of_le_of_lt hsafe (h.failed old hold)) hlt
  dsimp only
  split
  · rename_i hfailed
    exact ⟨h.one_le_initial, h.one_le_cap, h.initial_le, hrecord (le_refl _) hfailed⟩
  · split
    · rename_i hlower
      have hlt : max shaper d.initialSafeCeilingKbps < d.safeCeilingKbps := max_lt hlower.2 hlower.1
      exact ⟨h.one_le_initial, h.one_le_cap, le_max_right _ _, hrecord hlt.le hlt⟩
    · exact h

theorem Ordered.safe_le (h : d.Ordered) : d.safeCeilingKbps ≤ d.effectiveMaxKbps := by
  rw [h.effective]
  cases ht : d.probeTargetKbps with
  | none => exact le_refl _
  | some t => exact (h.target t ht).1.le

/-- **What a call keeps**: the order of the bounds, the cap and the verified ceiling, and,
when the cap is kept, the bound by it. -/
structure Keeps (d d' : AdaptiveCeilingDirection) : Prop where
  ordered : d'.Ordered
  cap : d'.absoluteCapKbps = d.absoluteCapKbps
  initial : d'.initialSafeCeilingKbps = d.initialSafeCeilingKbps
  capped : d.CapKept → d.effectiveMaxKbps ≤ d.absoluteCapKbps →
    d'.effectiveMaxKbps ≤ d.absoluteCapKbps

theorem Keeps.refl (h : d.Ordered) : d.Keeps d := ⟨h, rfl, rfl, fun _ hle => hle⟩

theorem Keeps.trans {d'' : AdaptiveCeilingDirection} (h : d.Keeps d') (h' : d'.Keeps d'') :
    d.Keeps d'' := by
  refine ⟨h'.ordered, h'.cap.trans h.cap, h'.initial.trans h.initial, fun hkept hle => ?_⟩
  have hkept' : d'.CapKept := by
    unfold CapKept
    rw [h.cap, h.initial]
    exact hkept
  have hle' := h'.capped hkept' (h.cap ▸ h.capped hkept hle)
  exact h.cap ▸ hle'

theorem Ordered.keeps_eq (h : d.Ordered)
    (hfailed : d'.failedCeilingKbps = d.failedCeilingKbps ∨ d'.failedCeilingKbps = none)
    (hsame : (d'.absoluteCapKbps, d'.initialSafeCeilingKbps, d'.safeCeilingKbps, d'.effectiveMaxKbps,
      d'.probeTargetKbps) = (d.absoluteCapKbps, d.initialSafeCeilingKbps, d.safeCeilingKbps,
      d.effectiveMaxKbps, d.probeTargetKbps)) (hphase : d'.phase.Probing ↔ d.phase.Probing) :
    d.Keeps d' := by
  simp only [Prod.mk.injEq] at hsame
  obtain ⟨hcap, hinitial, hsafe, heffective, htarget⟩ := hsame
  have hold : ∀ f, d'.failedCeilingKbps = some f → d.failedCeilingKbps = some f := by
    intro f hf
    rcases hfailed with hfailed | hfailed
    · exact hfailed.symm.trans hf
    · exact absurd (hfailed.symm.trans hf) (by simp)
  refine ⟨⟨⟨?_, ?_, ?_, fun f hf => ?_⟩, fun t ht => ?_, ?_, ?_⟩, hcap, hinitial, fun _ hle => ?_⟩
  · exact hinitial ▸ h.one_le_initial
  · exact hcap ▸ h.one_le_cap
  · rw [hinitial, hsafe]
    exact h.initial_le
  · rw [hsafe]
    exact h.failed f (hold f hf)
  · obtain ⟨habove, hbelow⟩ := h.target t (htarget.symm.trans ht)
    rw [hsafe]
    exact ⟨habove, fun f hf => hbelow f (hold f hf)⟩
  · rw [heffective, htarget, hsafe]
    exact h.effective
  · rw [htarget]
    exact h.probing.trans hphase.symm
  · rw [heffective]
    exact hle

theorem Sound.keeps_shut (h : d'.Sound) (hcap : d'.absoluteCapKbps = d.absoluteCapKbps)
    (hinitial : d'.initialSafeCeilingKbps = d.initialSafeCeilingKbps)
    (hsafe : d'.safeCeilingKbps ≤ d.effectiveMaxKbps) (hphase : ¬phase.Probing) (reason : String) :
    d.Keeps (d'.closed.inPhase now phase reason) :=
  ⟨h.shut hphase reason, hcap, hinitial, fun _ hle => hsafe.trans hle⟩

theorem not_probing_backoff : ¬AdaptiveCeilingPhase.backoff.Probing := by
  simp [AdaptiveCeilingPhase.Probing]

theorem not_probing_cruise : ¬AdaptiveCeilingPhase.cruise.Probing := by
  simp [AdaptiveCeilingPhase.Probing]

theorem not_probing_qualify : ¬AdaptiveCeilingPhase.qualify.Probing := by
  simp [AdaptiveCeilingPhase.Probing]

namespace Ordered

variable (h : d.Ordered) (o : AdaptiveCeilingObservation) (policy : AdaptiveCeilingPolicy)
  (update : AdaptiveCeilingUpdate)

include h

theorem abortProbe (reason : String) : d.Keeps (d.abortProbe now reason).1 :=
  h.toSound.keeps_shut rfl rfl h.safe_le not_probing_backoff reason

theorem expireFailedBound (ttl : ℕ) : d.Keeps (d.expireFailedBound now ttl).1 := by
  unfold AdaptiveCeilingDirection.expireFailedBound
  split
  · exact .refl h
  · split
    · exact .refl h
    · exact h.keeps_eq (.inr rfl) rfl Iff.rfl

theorem withEligible : d.Keeps (d.withEligible now o) := by
  unfold AdaptiveCeilingDirection.withEligible
  split
  · exact h.keeps_eq (.inl rfl) rfl Iff.rfl
  · exact .refl h

theorem withPeak : d.Keeps (d.withPeak o) := by
  unfold AdaptiveCeilingDirection.withPeak
  split
  · exact h.keeps_eq (.inl rfl) rfl Iff.rfl
  · exact .refl h

theorem withBaseline : d.Keeps (d.withBaseline o) := by
  unfold AdaptiveCeilingDirection.withBaseline
  split
  · exact h.keeps_eq (.inl rfl) rfl Iff.rfl
  · exact .refl h

theorem learned_safe_le (shaper : ℚ) :
    (d.learned now shaper).safeCeilingKbps ≤ d.effectiveMaxKbps ∧
      (d.learned now shaper).absoluteCapKbps = d.absoluteCapKbps ∧
      (d.learned now shaper).initialSafeCeilingKbps = d.initialSafeCeilingKbps := by
  unfold AdaptiveCeilingDirection.learned
  dsimp only
  split
  · exact ⟨h.safe_le, rfl, rfl⟩
  · split
    · rename_i hlower
      exact ⟨(max_lt hlower.2 hlower.1).le.trans h.safe_le, rfl, rfl⟩
    · exact ⟨h.safe_le, rfl, rfl⟩

theorem handleBufferbloat (shaper : ℚ) : d.Keeps (d.handleBufferbloat now shaper).1 := by
  unfold AdaptiveCeilingDirection.handleBufferbloat
  split
  · exact .refl h
  · have hlearned : (d.learned now shaper).Sound := h.toSound.learned shaper
    obtain ⟨hsafe, hcap, hinitial⟩ := h.learned_safe_le shaper
    exact hlearned.keeps_shut hcap hinitial hsafe not_probing_backoff _

theorem observeCruise (hphase : d.phase = .cruise) :
    d.Keeps (d.observeCruise now o policy update).1 := by
  unfold AdaptiveCeilingDirection.observeCruise
  split
  · refine h.keeps_eq (.inl rfl) rfl ?_
    rw [hphase]
    exact iff_of_false not_probing_qualify not_probing_cruise
  · exact .refl h

theorem disqualified (hphase : d.phase = .qualify) (reason : String) :
    d.Keeps (d.disqualified now update reason).1 := by
  refine h.keeps_eq (.inl rfl) rfl ?_
  rw [hphase]
  exact iff_of_false not_probing_cruise not_probing_qualify

theorem observeQualified (hphase : d.phase = .qualify) :
    d.Keeps (d.observeQualified now o policy update).1 := by
  unfold AdaptiveCeilingDirection.observeQualified
  split
  · exact h.disqualified update hphase _
  split
  · split
    · rename_i target htarget
      obtain ⟨-, habove, hbelow, -⟩ := nextProbeTarget_spec h.toSound htarget
      refine ⟨⟨⟨h.one_le_initial, h.one_le_cap, h.initial_le, h.failed⟩, fun t ht => ?_, rfl, ?_⟩,
        rfl, rfl, fun hkept _ => nextProbeTarget_le_cap h.toSound hkept htarget⟩
      · cases ht
        exact ⟨(lt_add_of_pos_right _ epsilon_pos).trans habove, hbelow⟩
      · exact iff_of_true rfl (.inl rfl)
    · exact h.disqualified update hphase _
  · exact .refl h

theorem observeQualify (hphase : d.phase = .qualify) :
    d.Keeps (d.observeQualify now o policy update).1 := by
  have hbaseline := h.withBaseline o
  have hsame : (d.withBaseline o).phase = .qualify := by
    unfold AdaptiveCeilingDirection.withBaseline
    split <;> exact hphase
  exact hbaseline.trans (hbaseline.ordered.observeQualified o policy update hsame)

theorem observeProbeRamp (hphase : d.phase = .probeRamp) :
    d.Keeps (d.observeProbeRamp now o policy update).1 := by
  unfold AdaptiveCeilingDirection.observeProbeRamp
  split
  · exact h.abortProbe _
  · have hpeak := h.withPeak o
    have hsame : (d.withPeak o).phase = .probeRamp := by
      unfold AdaptiveCeilingDirection.withPeak
      split <;> exact hphase
    refine hpeak.trans ?_
    unfold AdaptiveCeilingDirection.observeRamp
    dsimp only
    split
    · refine hpeak.ordered.keeps_eq (.inl rfl) rfl ?_
      rw [hsame]
      exact iff_of_true (.inr rfl) (.inl rfl)
    split
    · exact hpeak.ordered.abortProbe _
    · exact .refl hpeak.ordered

theorem promoted (hphase : d.phase = .probeObserve) : d.Keeps (d.promoted now update).1 := by
  obtain ⟨t, ht⟩ := isSome_iff_exists.1 (h.probing.2 (.inr hphase))
  obtain ⟨habove, hbelow⟩ := h.target t ht
  have heffective : d.effectiveMaxKbps = t := by rw [h.effective, ht, getD_some]
  simp only [AdaptiveCeilingDirection.promoted, ht, getD_some]
  refine ⟨⟨⟨h.one_le_initial, h.one_le_cap, h.initial_le.trans habove.le, hbelow⟩, nofun, rfl,
    iff_of_false (by simp [AdaptiveCeilingDirection.inPhase]) not_probing_backoff⟩, rfl, rfl,
    fun _ hle => ?_⟩
  exact heffective ▸ hle

theorem observeProbeObserve (hphase : d.phase = .probeObserve) :
    d.Keeps (d.observeProbeObserve now o policy update).1 := by
  unfold AdaptiveCeilingDirection.observeProbeObserve
  split
  · exact h.abortProbe _
  · have hpeak := h.withPeak o
    have hsame : (d.withPeak o).phase = .probeObserve := by
      unfold AdaptiveCeilingDirection.withPeak
      split <;> exact hphase
    refine hpeak.trans ?_
    unfold AdaptiveCeilingDirection.observeResult
    dsimp only
    split
    · split
      · exact hpeak.ordered.abortProbe _
      · exact hpeak.ordered.promoted update hsame
    · exact .refl hpeak.ordered

theorem observeBackoff (hphase : d.phase = .backoff) :
    d.Keeps (d.observeBackoff now policy update).1 := by
  unfold AdaptiveCeilingDirection.observeBackoff
  split
  · refine h.keeps_eq (.inl rfl) rfl ?_
    rw [hphase]
    exact iff_of_false not_probing_cruise not_probing_backoff
  · exact .refl h

theorem observePhase : d.Keeps (d.observePhase now o policy update).1 := by
  unfold AdaptiveCeilingDirection.observePhase
  split
  · exact h.observeCruise o policy update ‹_›
  · exact h.observeQualify o policy update ‹_›
  · exact h.observeProbeRamp o policy update ‹_›
  · exact h.observeProbeObserve o policy update ‹_›
  · exact h.observeBackoff policy update ‹_›

/-- **One observation.** -/
theorem observe : d.Keeps (d.observe now o policy).1 := by
  have hexpired : d.Keeps (d.expireFailedBound now policy.failedBoundTtl).1 :=
    h.expireFailedBound policy.failedBoundTtl
  have heligible : d.Keeps ((d.expireFailedBound now policy.failedBoundTtl).1.withEligible now o) :=
    hexpired.trans (hexpired.ordered.withEligible o)
  refine heligible.trans ?_
  unfold AdaptiveCeilingDirection.observe
  split
  · exact heligible.ordered.handleBufferbloat _
  · exact heligible.ordered.observePhase o policy _

theorem pause (reason : String) : d.Keeps (d.pause now reason).1 :=
  h.toSound.keeps_shut rfl rfl h.safe_le not_probing_cruise reason

theorem abortProbeGap : d.Keeps (d.abortProbeGap now).1 := by
  unfold AdaptiveCeilingDirection.abortProbeGap
  split
  · exact h.abortProbe _
  · exact h.abortProbe _
  · exact h.abortProbe _
  · exact .refl h
  · exact .refl h

theorem resetToConfigured : d.Keeps (d.resetToConfigured now).1 := by
  have hreset : Sound { d with
      safeCeilingKbps := d.initialSafeCeilingKbps, failedCeilingKbps := none, failedAt := none } :=
    ⟨h.one_le_initial, h.one_le_cap, le_refl _, fun f hf => absurd hf (by simp)⟩
  exact hreset.keeps_shut (d := d) rfl rfl (h.initial_le.trans h.safe_le) not_probing_cruise _

end Ordered

end AdaptiveCeilingDirection

/-- A call on a direction. -/
inductive CeilingCall where
  | observe (now : ℕ) (observation : AdaptiveCeilingObservation) (policy : AdaptiveCeilingPolicy)
  | pause (now : ℕ) (reason : String)
  | abortProbeGap (now : ℕ)
  | resetToConfigured (now : ℕ)

def CeilingCall.now : CeilingCall → ℕ
  | .observe now _ _ => now
  | .pause now _ => now
  | .abortProbeGap now => now
  | .resetToConfigured now => now

def CeilingCall.Admissible : CeilingCall → Prop
  | .observe _ _ policy => 0 ≤ policy.probeStepPercent ∧ 0 ≤ policy.minimumThroughputGainPercent
  | _ => True

namespace AdaptiveCeilingDirection

def call (d : AdaptiveCeilingDirection) : CeilingCall → AdaptiveCeilingDirection
  | .observe now observation policy => (d.observe now observation policy).1
  | .pause now reason => (d.pause now reason).1
  | .abortProbeGap now => (d.abortProbeGap now).1
  | .resetToConfigured now => (d.resetToConfigured now).1

variable {d : AdaptiveCeilingDirection}

theorem Ordered.call (h : d.Ordered) (c : CeilingCall) : d.Keeps (d.call c) := by
  cases c with
  | observe now observation policy => exact h.observe observation policy
  | pause now reason => exact h.pause reason
  | abortProbeGap now => exact h.abortProbeGap
  | resetToConfigured now => exact h.resetToConfigured

/-- **Any number of calls.** -/
theorem Ordered.run (h : d.Ordered) (calls : List CeilingCall) :
    d.Keeps (run AdaptiveCeilingDirection.call d calls) :=
  run_invariant (fun _ c hkeeps => hkeeps.trans (hkeeps.ordered.call c)) (Keeps.refl h) calls

/-- What the ceilings promise: verified, safe, effective and cap are in order; a probe's
target is the effective maximum; and what failed is above what is safe. -/
structure Bounded (d : AdaptiveCeilingDirection) : Prop where
  initial_le_safe : d.initialSafeCeilingKbps ≤ d.safeCeilingKbps
  safe_le_effective : d.safeCeilingKbps ≤ d.effectiveMaxKbps
  effective_le_cap : d.effectiveMaxKbps ≤ d.absoluteCapKbps
  effective_eq : d.effectiveMaxKbps = d.probeTargetKbps.getD d.safeCeilingKbps
  target_iff : d.probeTargetKbps.isSome = true ↔ d.phase = .probeRamp ∨ d.phase = .probeObserve
  safe_lt_failed : ∀ f, d.failedCeilingKbps = some f → d.safeCeilingKbps < f

theorem Ordered.bounded (h : d.Ordered) (hle : d.effectiveMaxKbps ≤ d.absoluteCapKbps) :
    d.Bounded :=
  ⟨h.initial_le, h.safe_le, hle, h.effective, h.probing, h.failed⟩

theorem ordered_new {configured cap : ℚ} (hconfigured : 1 ≤ configured) (verified : ℚ) (now : ℕ) :
    (newAtWithVerifiedSafe configured cap verified now).Ordered := by
  have hcap : 1 ≤ max cap configured := le_max_of_le_right hconfigured
  have hinitial : 1 ≤ min (min (max verified 1) (max configured 1)) (max cap configured) :=
    le_min (le_min (le_max_right _ _) (le_max_right _ _)) hcap
  exact ⟨⟨hinitial, hcap, le_refl _, nofun⟩, nofun, rfl,
    iff_of_false (by simp [newAtWithVerifiedSafe]) not_probing_cruise⟩

def eagerPolicy (cap : ℚ) : AdaptiveCeilingPolicy where
  holdTime := 0
  probeStepPercent := 100 * cap
  probeDuration := 0
  cooldown := 0
  failedBoundTtl := 0
  eligibilityGrace := 0
  minimumThroughputGainPercent := 0

def cleanAt (rate : ℚ) : AdaptiveCeilingObservation := ⟨true, false, rate, 0⟩

def eagerCalls (d : AdaptiveCeilingDirection) (now : ℕ) : List CeilingCall :=
  [.observe now (cleanAt d.safeCeilingKbps) (eagerPolicy d.absoluteCapKbps),
    .observe now (cleanAt d.safeCeilingKbps) (eagerPolicy d.absoluteCapKbps)]

theorem nextProbeTarget_eq_round {cap : ℚ} (hcap : d.absoluteCapKbps = cap)
    (hsafe : 1 ≤ d.safeCeilingKbps) (hfailed : d.failedCeilingKbps = none)
    (hroom : d.safeCeilingKbps < cap) (habove : d.safeCeilingKbps + epsilon < roundRate cap) :
    d.nextProbeTarget (100 * cap) = some (roundRate cap) := by
  subst hcap
  have hopen : d.absoluteCapKbps ≤ d.safeCeilingKbps * (1 + 100 * d.absoluteCapKbps / 100) := by
    have hmul : d.absoluteCapKbps ≤ d.safeCeilingKbps * d.absoluteCapKbps :=
      le_mul_of_one_le_left (by linarith) hsafe
    linarith
  have hclamped : d.roundedTarget (d.safeCeilingKbps * (1 + 100 * d.absoluteCapKbps / 100))
      = roundRate d.absoluteCapKbps := by
    rw [roundedTarget, min_eq_right (le_max_of_le_left hopen)]
  simp only [nextProbeTarget, boundedTarget, hfailed, not_le.2 hroom, if_false, hclamped,
    gt_iff_lt, habove, if_true]

/-- From `Cruise` the two observations open that probe. -/
theorem run_eagerCalls (hphase : d.phase = .cruise) (hfailedAt : d.failedAt = none)
    (hfailed : d.failedCeilingKbps = none) (heffective : d.effectiveMaxKbps = d.safeCeilingKbps)
    (hsafe : 1 ≤ d.safeCeilingKbps) (hroom : d.safeCeilingKbps < d.absoluteCapKbps)
    (habove : d.safeCeilingKbps + epsilon < roundRate d.absoluteCapKbps) (now : ℕ) :
    (run call d (eagerCalls d now)).effectiveMaxKbps = roundRate d.absoluteCapKbps ∧
      (run call d (eagerCalls d now)).absoluteCapKbps = d.absoluteCapKbps := by
  have hat : d.safeCeilingKbps * (98 / 100) ≤ d.safeCeilingKbps := by linarith
  have htarget : ∀ d' : AdaptiveCeilingDirection, d'.absoluteCapKbps = d.absoluteCapKbps →
      d'.safeCeilingKbps = d.safeCeilingKbps → d'.failedCeilingKbps = none →
      d'.nextProbeTarget (100 * d.absoluteCapKbps) = some (roundRate d.absoluteCapKbps) := by
    intro d' hcap hsame hnone
    exact nextProbeTarget_eq_round hcap (hsame ▸ hsafe) hnone (hsame ▸ hroom) (hsame ▸ habove)
  -- the first observation only moves to `Qualify`
  have hfirst : ∃ baseline reason, (d.observe now (cleanAt d.safeCeilingKbps)
      (eagerPolicy d.absoluteCapKbps)).1 = { d with
        lastEligibleAt := some now, probeBaselineAchievedKbps := baseline,
        probePeakAchievedKbps := 0, phase := .qualify, phaseSince := now,
        lastTransitionReason := reason } := by
    refine ⟨some 0, "clean high load qualification started", ?_⟩
    simp [observe, expireFailedBound, hfailedAt, withEligible, cleanAt, observePhase, hphase,
      observeCruise, shaperAtCeiling, heffective, hat, eagerPolicy, htarget, hfailed, inPhase]
  obtain ⟨baseline, reason, hfirst⟩ := hfirst
  simp only [eagerCalls, run_cons, run_nil, call, hfirst]
  constructor <;>
    simp [observe, expireFailedBound, hfailedAt, withEligible, cleanAt, observePhase,
      observeQualify, withBaseline, observeQualified, eligibilityExpired, shaperAtCeiling,
      heffective, hat, eagerPolicy, htarget, hfailed, inPhase]

/-- **The ceilings are bounded exactly when the cap does not round up into free room**: it rounds to
no more than itself, or the verified rate leaves no room for a probe below it. -/
theorem ceiling_bounded_iff {configured cap : ℚ} (hconfigured : 1 ≤ configured) (_hcap : 1 ≤ cap)
    (verified : ℚ) (start : ℕ) :
    (∀ calls : List CeilingCall, (start :: calls.map CeilingCall.now).Pairwise (· ≤ ·) →
      (∀ c ∈ calls, c.Admissible) →
      (run call (newAtWithVerifiedSafe configured cap verified start) calls).Bounded) ↔
    (roundRate (max cap configured) ≤ max cap configured ∨
      max cap configured ≤ min (max verified 1) configured ∨
      roundRate (max cap configured)
        ≤ min (min (max verified 1) configured) (max cap configured) + epsilon) := by
  have hone : max configured 1 = configured := max_eq_left hconfigured
  have hordered : (newAtWithVerifiedSafe configured cap verified start).Ordered :=
    ordered_new hconfigured verified start
  have hinitial : (newAtWithVerifiedSafe configured cap verified start).safeCeilingKbps
      = min (min (max verified 1) configured) (max cap configured) := by
    simp only [newAtWithVerifiedSafe, hone]
  have hkept : (newAtWithVerifiedSafe configured cap verified start).CapKept ↔
      (roundRate (max cap configured) ≤ max cap configured ∨
        max cap configured ≤ min (max verified 1) configured ∨
        roundRate (max cap configured)
          ≤ min (min (max verified 1) configured) (max cap configured) + epsilon) := by
    simp only [CapKept, newAtWithVerifiedSafe, hone, le_min_iff, le_refl, and_true]
  rw [← hkept]
  constructor
  · intro hall
    by_contra hover
    simp only [CapKept, not_or, not_le] at hover
    obtain ⟨hup, hroom, habove⟩ := hover
    have hrun := run_eagerCalls (d := newAtWithVerifiedSafe configured cap verified start) rfl rfl rfl
      rfl (hordered.one_le_initial) hroom habove start
    have hbounded := hall (eagerCalls (newAtWithVerifiedSafe configured cap verified start) start)
      (by simp [eagerCalls, CeilingCall.now]) ?_
    · have hle := hbounded.effective_le_cap
      rw [hrun.1, hrun.2] at hle
      exact absurd hle (not_le.2 hup)
    · have hpercent : (0 : ℚ) ≤ 100 * max cap configured := by
        have : (1 : ℚ) ≤ max cap configured := le_max_of_le_right hconfigured
        linarith
      simpa [eagerCalls, CeilingCall.Admissible, eagerPolicy, newAtWithVerifiedSafe] using hpercent
  · intro hcapKept calls _ _
    have hkeeps := hordered.run calls
    refine hkeeps.ordered.bounded ?_
    rw [hkeeps.cap]
    exact hkeeps.capped hcapKept (min_le_right _ _)

def fractionalCap : AdaptiveCeilingDirection := newAtWithVerifiedSafe 100 (1006 / 10) 100 0

theorem fractionalCap_exceeded :
    fractionalCap.absoluteCapKbps = 1006 / 10 ∧
      (run call fractionalCap (eagerCalls fractionalCap 0)).effectiveMaxKbps = 101 := by
  decide +kernel

theorem integerCap_bounded : roundRate (max 150 100) ≤ max 150 100 ∧
    ∀ calls : List CeilingCall,
      (0 :: calls.map CeilingCall.now).Pairwise (· ≤ ·) → (∀ c ∈ calls, c.Admissible) →
        (run call (newAtWithVerifiedSafe 100 150 100 0) calls).Bounded :=
  ⟨by decide +kernel,
    (ceiling_bounded_iff (by norm_num) (by norm_num) 100 0).2 (.inl (by decide +kernel))⟩

end AdaptiveCeilingDirection

end CakeAutorate.Controller
