/-
# The transport quality search

`QualitySearchDirection` of `transport_quality.rs`: the search that lowers the rate while the
transport delay stays above its target, and falls back to the best or the first rate of the episode
when it gives up.  Rates and delays are rationals where the source has floats, times are
nanoseconds.  The square root in the step factor is any number; the clamp of the source keeps the
factor between 0.70 and 0.97.

Another controller moves the same rate; whatever lowers it from outside resets the search.
-/

import CakeAutorate.Controller.AdaptiveCeiling

namespace CakeAutorate.Controller

open Machine Option

/-- `QualitySearchPolicy`; `max_steps` is a `u8`, and the floor comes from `throughput_floor`,
which is positive. -/
structure QualitySearchPolicy where
  targetDelayMs : ℚ
  floorKbps : ℚ
  maxSteps : ℕ
  observeDuration : ℕ
  cooldown : ℕ
  maxSteps_le : maxSteps ≤ 255
  floor_nonneg : 0 ≤ floorKbps

structure QualitySearchUpdate where
  requestedRateKbps : Option ℚ
  limited : Bool
  reason : String

structure QualitySearchDirection where
  steps : ℕ
  startRateKbps : Option ℚ
  startDeltaMs : Option ℚ
  bestRateKbps : Option ℚ
  bestDeltaMs : Option ℚ
  previousRateKbps : Option ℚ
  previousDeltaMs : Option ℚ
  lastStepAt : Option ℕ
  cooldownUntil : Option ℕ
  limited : Bool
  lastReason : String

namespace QualitySearchDirection

def new : QualitySearchDirection where
  steps := 0
  startRateKbps := none
  startDeltaMs := none
  bestRateKbps := none
  bestDeltaMs := none
  previousRateKbps := none
  previousDeltaMs := none
  lastStepAt := none
  cooldownUntil := none
  limited := false
  lastReason := "learning"

variable (d : QualitySearchDirection)

def resetEpisode : QualitySearchDirection :=
  { new with lastReason := d.lastReason }

def noChange (reason : String) : QualitySearchUpdate := ⟨none, d.limited, reason⟩

def noteCandidate (rate delta : ℚ) : QualitySearchDirection :=
  if d.bestDeltaMs.all fun best => delta + 1 < best then
    { d with bestRateKbps := some rate, bestDeltaMs := some delta }
  else d

/-- `fallback_rate`.  Without a start its delay is infinite, and the best rate is taken. -/
def fallbackRate : ℚ :=
  let startRate := d.startRateKbps.getD 1
  let bestRate := d.bestRateKbps.getD startRate
  match d.startDeltaMs with
  | none => bestRate
  | some startDelta =>
    let bestDelta := d.bestDeltaMs.getD startDelta
    if 30 ≤ startDelta - bestDelta ∨ (0 < startDelta ∧ bestDelta ≤ startDelta * (3 / 4)) then bestRate
    else startRate

def limit (now : ℕ) (cooldown : ℕ) (reason : String) : QualitySearchDirection × QualitySearchUpdate :=
  ({ d with limited := true, lastReason := reason, cooldownUntil := some (now + cooldown) },
    ⟨some d.fallbackRate, true, reason⟩)

section

variable (now : ℕ) (rate delta root : ℚ) (policy : QualitySearchPolicy)

/-- `observe`, from the check of the floor on: it gives up, or takes a step down. -/
def stepDown : QualitySearchDirection × QualitySearchUpdate :=
  if rate ≤ policy.floorKbps * (101 / 100) then
    d.limit now policy.cooldown "target_unreachable_above_throughput_floor"
  else if policy.maxSteps ≤ d.steps then
    d.limit now policy.cooldown "quality_search_step_limit"
  else
    let factor := min (max root (7 / 10)) (97 / 100)
    ({ d with previousRateKbps := some rate, previousDeltaMs := some delta, lastStepAt := some now,
              steps := min (d.steps + 1) 255, lastReason := "transport_latency_backoff" },
      ⟨some (max (rate * factor) policy.floorKbps), false, "transport_latency_backoff"⟩)

/-- `observe`, in an episode: the last step is given its time and judged. -/
def judge : QualitySearchDirection × QualitySearchUpdate :=
  match d.lastStepAt with
  | none => d.stepDown now rate delta root policy
  | some lastStepAt =>
    if now - lastStepAt < policy.observeDuration then (d, d.noChange "observing_candidate")
    else
      let previousDelta := d.previousDeltaMs.getD delta
      if 10 ≤ previousDelta - delta then
        (d.noteCandidate rate delta).stepDown now rate delta root policy
      else d.limit now policy.cooldown (if previousDelta + 5 < delta then "candidate_worsened_latency"
        else "candidate_no_meaningful_gain")

end

def cooled : QualitySearchDirection := if d.cooldownUntil.isSome then d.resetEpisode else d

def started (rate delta : ℚ) : QualitySearchDirection :=
  if d.startRateKbps.isNone then
    { d with startRateKbps := some rate, startDeltaMs := some delta, bestRateKbps := some rate,
             bestDeltaMs := some delta }
  else d

/-- `QualitySearchDirection::observe`; a delay that is not finite is none. -/
def observe (now : ℕ) (rate : ℚ) (delta : Option ℚ) (highLoad : Bool) (root : ℚ)
    (policy : QualitySearchPolicy) : QualitySearchDirection × QualitySearchUpdate :=
  match delta with
  | none => (d, d.noChange "waiting_for_high_load")
  | some delta =>
    if !highLoad then (d, d.noChange "waiting_for_high_load")
    else if rate < policy.floorKbps then
      ({ d.resetEpisode with lastReason := "icmp_rate_below_transport_floor" },
        d.resetEpisode.noChange "icmp_rate_below_transport_floor")
    else if delta ≤ policy.targetDelayMs then
      ({ d.resetEpisode with lastReason := "target_met" }, d.resetEpisode.noChange "target_met")
    else if d.cooldownUntil.any fun until_ => now < until_ then
      (d, d.noChange "quality_limited_cooldown")
    else (d.cooled.started rate delta).judge now rate delta root policy

end QualitySearchDirection

/-- `clamp_rates` of one direction. -/
def clampRate (minimum ceiling rate : ℚ) : ℚ := min (max rate (max minimum 1)) ceiling

/-- The rate and the search, and what is watched of them: the highest rate held since the last
reduction from outside, the backoff requests since the search was last reset or limited, and
the end of the cooldown while it is neither reset nor its target met. -/
structure SearchLoop where
  rate : ℚ
  search : QualitySearchDirection
  peak : ℚ
  backoffs : ℕ
  limitedUntil : Option ℕ

/-- What happens in a direction. -/
inductive SearchEvent where
  /-- `observe`; its request is applied and clamped. -/
  | observe (now : ℕ) (delta : Option ℚ) (highLoad : Bool) (root minimum ceiling : ℚ)
  | icmp (rate : ℚ)
  | clamp (minimum ceiling : ℚ)
  | setMin (minimum : ℚ)
  | reset

namespace SearchLoop

variable (policy : QualitySearchPolicy) (s : SearchLoop)

def forget : SearchLoop :=
  { s with search := .new, backoffs := 0, limitedUntil := none }

def moved (rate : ℚ) : SearchLoop :=
  if rate < s.rate then { s.forget with rate, peak := rate }
  else { s with rate, peak := max s.peak rate }

def observed (now : ℕ) (delta : Option ℚ) (highLoad : Bool) (root : ℚ) :
    QualitySearchDirection × QualitySearchUpdate :=
  s.search.observe now s.rate delta highLoad root policy

def settles (delta : Option ℚ) (highLoad : Bool) : Bool :=
  highLoad && delta.any fun x => s.rate < policy.floorKbps || x ≤ policy.targetDelayMs

def searched (now : ℕ) (delta : Option ℚ) (highLoad : Bool) (root : ℚ) : SearchLoop :=
  let after := s.observed policy now delta highLoad root
  match after.2.requestedRateKbps with
  | some rate =>
    { rate, search := after.1, peak := max s.peak rate
      backoffs := if after.2.limited then 0 else s.backoffs + 1
      limitedUntil := if after.2.limited then some (now + policy.cooldown) else none }
  | none =>
    if s.settles policy delta highLoad then
      { s with search := after.1, backoffs := 0, limitedUntil := none }
    else { s with search := after.1 }

def step (s : SearchLoop) : SearchEvent → SearchLoop
  | .observe now delta highLoad root minimum ceiling =>
    let t := s.searched policy now delta highLoad root
    if (s.observed policy now delta highLoad root).2.requestedRateKbps.isSome then
      t.moved (clampRate minimum ceiling t.rate)
    else t
  | .icmp rate => s.moved rate
  | .clamp minimum ceiling => s.moved (clampRate minimum ceiling s.rate)
  | .setMin minimum => (s.moved (max minimum 1)).forget
  | .reset => s.forget

def initial (rate : ℚ) : SearchLoop := ⟨rate, .new, rate, 0, none⟩

end SearchLoop

namespace QualitySearchDirection

variable {d : QualitySearchDirection}

/-- The rates that a search remembers lie between two bounds, and a start comes with a best. -/
structure Within (d : QualitySearchDirection) (low high : ℚ) : Prop where
  start : ∀ r, d.startRateKbps = some r → low ≤ r ∧ r ≤ high
  best : ∀ r, d.bestRateKbps = some r → low ≤ r ∧ r ≤ high
  best_of_start : d.startRateKbps.isSome → d.bestRateKbps.isSome

theorem Within.of_none (hstart : d.startRateKbps = none) (hbest : d.bestRateKbps = none)
    (low high : ℚ) : d.Within low high := by
  refine ⟨?_, ?_, ?_⟩
  · intro r hr; rw [hstart] at hr; cases hr
  · intro r hr; rw [hbest] at hr; cases hr
  · intro h; rw [hstart] at h; cases h

variable {low high : ℚ} {policy : QualitySearchPolicy}

theorem Within.mono {high' : ℚ} (h : d.Within low high) (hle : high ≤ high') : d.Within low high' :=
  ⟨fun r hr => ⟨(h.start r hr).1, (h.start r hr).2.trans hle⟩,
    fun r hr => ⟨(h.best r hr).1, (h.best r hr).2.trans hle⟩, h.best_of_start⟩

/-- An episode under way: it has a start, and no cooldown. -/
structure Underway (d : QualitySearchDirection) (low high : ℚ) : Prop extends Within d low high where
  started : d.startRateKbps.isSome
  cool : d.cooldownUntil = none

theorem cooled_within (h : d.Within low high) :
    d.cooled.Within low high ∧ d.cooled.cooldownUntil = none := by
  unfold cooled
  split
  · exact ⟨.of_none rfl rfl _ _, rfl⟩
  · rename_i hcool
    exact ⟨h, by simpa using hcool⟩

theorem started_underway {rate : ℚ} (h : d.Within low high) (hcool : d.cooldownUntil = none)
    (hlow : low ≤ rate) (hhigh : rate ≤ high) (delta : ℚ) :
    (d.started rate delta).Underway low high := by
  unfold QualitySearchDirection.started
  split
  · refine ⟨⟨?_, ?_, fun _ => rfl⟩, rfl, hcool⟩
    · intro r hr
      obtain rfl : rate = r := some.inj hr
      exact ⟨hlow, hhigh⟩
    · intro r hr
      obtain rfl : rate = r := some.inj hr
      exact ⟨hlow, hhigh⟩
  · rename_i hstart
    exact ⟨h, by simpa [isSome_iff_ne_none] using hstart, hcool⟩

theorem started_steps (d : QualitySearchDirection) (rate delta : ℚ) :
    (d.started rate delta).steps = d.steps ∧ (d.started rate delta).lastStepAt = d.lastStepAt := by
  unfold QualitySearchDirection.started
  split
  · exact ⟨rfl, rfl⟩
  · exact ⟨rfl, rfl⟩

theorem noteCandidate_underway {rate : ℚ} (h : d.Underway low high) (hlow : low ≤ rate)
    (hhigh : rate ≤ high) (delta : ℚ) : (d.noteCandidate rate delta).Underway low high := by
  unfold noteCandidate
  split
  · refine ⟨⟨h.start, ?_, fun _ => rfl⟩, h.started, h.cool⟩
    intro r hr
    obtain rfl : rate = r := some.inj hr
    exact ⟨hlow, hhigh⟩
  · exact h

theorem noteCandidate_steps (d : QualitySearchDirection) (rate delta : ℚ) :
    (d.noteCandidate rate delta).steps = d.steps := by
  unfold noteCandidate
  split <;> rfl

theorem Underway.fallback_mem (h : d.Underway low high) :
    low ≤ d.fallbackRate ∧ d.fallbackRate ≤ high := by
  obtain ⟨start, hstart⟩ := isSome_iff_exists.1 h.started
  obtain ⟨best, hbest⟩ := isSome_iff_exists.1 (h.best_of_start h.started)
  unfold fallbackRate
  simp only [hstart, hbest, getD_some]
  split
  · exact h.best best hbest
  · split
    · exact h.best best hbest
    · exact h.start start hstart

/-- What an episode can do: wait, give up, or take a step down. -/
inductive Judged (policy : QualitySearchPolicy) (low high : ℚ) (now : ℕ) (rate : ℚ)
    (d : QualitySearchDirection) : QualitySearchDirection × QualitySearchUpdate → Prop
  | waits (reason : String) (h : d.Underway low high) (hlast : d.lastStepAt.isSome) :
      Judged policy low high now rate d (d, d.noChange reason)
  | limits (after : QualitySearchDirection) (requested : ℚ) (reason : String)
      (h : after.Within low high) (hsteps : after.steps = d.steps)
      (hcooldown : after.cooldownUntil = some (now + policy.cooldown)) (hlow : low ≤ requested)
      (hhigh : requested ≤ high) : Judged policy low high now rate d
        (after, ⟨some requested, true, reason⟩)
  | backsOff (after : QualitySearchDirection) (requested : ℚ) (reason : String)
      (h : after.Underway low high) (hroom : d.steps < policy.maxSteps)
      (hsteps : after.steps = d.steps + 1) (hlow : low ≤ requested) (hhigh : requested ≤ rate) :
      Judged policy low high now rate d (after, ⟨some requested, false, reason⟩)

theorem limit_judged {now : ℕ} {rate : ℚ} (h : d.Underway low high) {e : QualitySearchDirection}
    (hsteps : d.steps = e.steps) (reason : String) :
    Judged policy low high now rate e (d.limit now policy.cooldown reason) :=
  .limits _ _ _ ⟨h.start, h.best, h.best_of_start⟩ hsteps rfl h.fallback_mem.1 h.fallback_mem.2

theorem stepDown_judged {now : ℕ} {rate delta root : ℚ} (h : d.Underway policy.floorKbps high)
    (hfloor : policy.floorKbps ≤ rate) {e : QualitySearchDirection} (hsteps : d.steps = e.steps) :
    Judged policy policy.floorKbps high now rate e (d.stepDown now rate delta root policy) := by
  unfold stepDown
  split
  · exact limit_judged h hsteps _
  split
  · exact limit_judged h hsteps _
  · rename_i hroom
    have hmax := policy.maxSteps_le
    have hrate : 0 ≤ rate := policy.floor_nonneg.trans hfloor
    refine .backsOff _ _ _ ⟨⟨h.start, h.best, h.best_of_start⟩, h.started, h.cool⟩ (by omega) ?_
      (le_max_right _ _) (max_le ?_ hfloor)
    · show min (d.steps + 1) 255 = e.steps + 1
      omega
    · have hfactor : min (max root (7 / 10)) (97 / 100) ≤ (1 : ℚ) :=
        (min_le_right _ _).trans (by norm_num)
      exact mul_le_of_le_one_right hrate hfactor

theorem judge_judged {now : ℕ} {rate delta root : ℚ} (h : d.Underway policy.floorKbps high)
    (hfloor : policy.floorKbps ≤ rate) (hhigh : rate ≤ high) :
    Judged policy policy.floorKbps high now rate d (d.judge now rate delta root policy) := by
  unfold judge
  split
  · exact stepDown_judged h hfloor rfl
  · rename_i lastStepAt hlast
    split
    · exact .waits _ h (by rw [hlast]; rfl)
    · simp only
      split
      · exact stepDown_judged (noteCandidate_underway h hfloor hhigh delta) hfloor
          (noteCandidate_steps d rate delta)
      · exact limit_judged h rfl _

end QualitySearchDirection

namespace SearchLoop

variable {policy : QualitySearchPolicy} {s : SearchLoop}

open QualitySearchDirection

/-- What holds of the rate and the search between events. -/
structure Inv (policy : QualitySearchPolicy) (s : SearchLoop) : Prop where
  rate_le : s.rate ≤ s.peak
  within : s.search.Within policy.floorKbps s.peak
  cooldown_eq : s.search.cooldownUntil = s.limitedUntil
  steps_eq : s.limitedUntil = none → s.search.steps = s.backoffs
  backoffs_le : s.backoffs ≤ policy.maxSteps
  backoffs_limited : s.limitedUntil.isSome → s.backoffs = 0

theorem initial_inv (policy : QualitySearchPolicy) (rate : ℚ) : Inv policy (initial rate) :=
  ⟨le_rfl, .of_none rfl rfl _ _, rfl, fun _ => rfl, Nat.zero_le _, nofun⟩

theorem Inv.forget (h : Inv policy s) : Inv policy s.forget :=
  ⟨h.rate_le, .of_none rfl rfl _ _, rfl, fun _ => rfl, Nat.zero_le _, nofun⟩

theorem Inv.moved (h : Inv policy s) (rate : ℚ) : Inv policy (s.moved rate) := by
  unfold SearchLoop.moved
  split
  · exact ⟨le_rfl, .of_none rfl rfl _ _, rfl, fun _ => rfl, Nat.zero_le _, nofun⟩
  · exact ⟨le_max_right _ _, h.within.mono (le_max_left _ _), h.cooldown_eq, h.steps_eq,
      h.backoffs_le, h.backoffs_limited⟩

/-- What a request of the search is: at least the floor, at most the highest rate held, from a
rate not below the floor, with a step left if it is a backoff, and not in a cooldown. -/
structure Requested (policy : QualitySearchPolicy) (s : SearchLoop) (now : ℕ) (limited : Bool)
    (requested : ℚ) : Prop where
  floor_le : policy.floorKbps ≤ requested
  le_peak : requested ≤ s.peak
  rate_ge : policy.floorKbps ≤ s.rate
  steps_left : limited = false → s.backoffs < policy.maxSteps
  cooled : ∀ until_, s.limitedUntil = some until_ → until_ ≤ now

theorem observed_cases (h : Inv policy s) (now : ℕ) (delta : Option ℚ) (highLoad : Bool) (root : ℚ) :
    (∃ after reason, s.observed policy now delta highLoad root = (after, after.noChange reason) ∧
      s.settles policy delta highLoad = true ∧ after.Within policy.floorKbps s.peak ∧
      after.cooldownUntil = none ∧ after.steps = 0) ∨
    (∃ reason, s.observed policy now delta highLoad root = (s.search, s.search.noChange reason) ∧
      s.settles policy delta highLoad = false) ∨
    (s.settles policy delta highLoad = false ∧ policy.floorKbps ≤ s.rate ∧
      (∀ until_, s.limitedUntil = some until_ → until_ ≤ now) ∧
      ∃ d : QualitySearchDirection, d.steps = s.backoffs ∧
        (d.lastStepAt.isSome → s.limitedUntil = none) ∧
        Judged policy policy.floorKbps s.peak now s.rate d
          (s.observed policy now delta highLoad root)) := by
  unfold observed observe settles
  cases delta with
  | none => exact .inr (.inl ⟨_, rfl, by simp⟩)
  | some delta =>
    cases highLoad with
    | false => exact .inr (.inl ⟨_, rfl, by simp⟩)
    | true =>
      simp only [Bool.not_true, Bool.false_eq_true, if_false, Bool.true_and, any_some]
      by_cases hfloor : s.rate < policy.floorKbps
      · rw [if_pos hfloor]
        exact .inl ⟨_, _, rfl, by simp [hfloor], .of_none rfl rfl _ _, rfl, rfl⟩
      rw [if_neg hfloor]
      by_cases htarget : delta ≤ policy.targetDelayMs
      · rw [if_pos htarget]
        exact .inl ⟨_, _, rfl, by simp [htarget], .of_none rfl rfl _ _, rfl, rfl⟩
      rw [if_neg htarget]
      have hsettles : (decide (s.rate < policy.floorKbps) ||
          decide (delta ≤ policy.targetDelayMs)) = false := by simp [hfloor, htarget]
      by_cases hcooling : (s.search.cooldownUntil.any fun until_ => now < until_) = true
      · rw [if_pos hcooling]
        exact .inr (.inl ⟨_, rfl, hsettles⟩)
      rw [if_neg hcooling]
      rw [not_lt] at hfloor
      obtain ⟨hwithin, hcool⟩ := cooled_within h.within
      obtain ⟨hsame, hlast⟩ := started_steps s.search.cooled s.rate delta
      refine .inr (.inr ⟨hsettles, hfloor, ?_, s.search.cooled.started s.rate delta, ?_, ?_,
        judge_judged (started_underway hwithin hcool hfloor h.rate_le delta) hfloor h.rate_le⟩)
      · intro until_ huntil
        rw [h.cooldown_eq, huntil] at hcooling
        simpa using hcooling
      · -- after a cooldown both counts start again
        rw [hsame, cooled]
        split
        · rename_i hsome
          rw [h.cooldown_eq] at hsome
          rw [h.backoffs_limited hsome]
          rfl
        · rename_i hnone
          rw [h.cooldown_eq] at hnone
          exact h.steps_eq (by simpa using hnone)
      · rw [hlast, cooled]
        split
        · intro hsome; cases hsome
        · rename_i hnone
          rw [h.cooldown_eq] at hnone
          exact fun _ => by simpa using hnone

/-- **Every request is within its bounds.** -/
theorem observed_request (h : Inv policy s) {now : ℕ} {delta : Option ℚ} {highLoad : Bool} {root q : ℚ}
    (hq : (s.observed policy now delta highLoad root).2.requestedRateKbps = some q) :
    Requested policy s now (s.observed policy now delta highLoad root).2.limited q := by
  rcases observed_cases h now delta highLoad root with
    ⟨after, reason, heq, -⟩ | ⟨reason, heq, -⟩ | ⟨-, hfloor, hcooled, d, hsteps, -, hjudged⟩
  · rw [heq] at hq; cases hq
  · rw [heq] at hq; cases hq
  · generalize s.observed policy now delta highLoad root = result at hq hjudged ⊢
    cases hjudged with
    | waits reason hd hlast => cases hq
    | limits after requested reason hafter hsame hcooldown hlow hhigh =>
      obtain rfl : requested = q := some.inj hq
      exact ⟨hlow, hhigh, hfloor, nofun, hcooled⟩
    | backsOff after requested reason hafter hroom hmore hlow hhigh =>
      obtain rfl : requested = q := some.inj hq
      exact ⟨hlow, hhigh.trans h.rate_le, hfloor, fun _ => by omega, hcooled⟩

theorem Inv.searched (h : Inv policy s) (now : ℕ) (delta : Option ℚ) (highLoad : Bool) (root : ℚ) :
    Inv policy (s.searched policy now delta highLoad root) := by
  unfold SearchLoop.searched
  rcases observed_cases h now delta highLoad root with
    ⟨after, reason, heq, hsettles, hwithin, hcool, hzero⟩ | ⟨reason, heq, hsettles⟩ |
      ⟨hsettles, hfloor, hcooled, d, hsteps, hlast, hjudged⟩
  · simp only [heq, noChange, hsettles, if_true]
    exact ⟨h.rate_le, hwithin, hcool, fun _ => hzero, Nat.zero_le _, nofun⟩
  · simp only [heq, noChange, hsettles]
    exact h
  · generalize s.observed policy now delta highLoad root = result at hjudged ⊢
    cases hjudged with
    | waits reason hd hwaiting =>
      have hnone := hlast hwaiting
      simp only [noChange, hsettles, Bool.false_eq_true, if_false]
      exact ⟨h.rate_le, hd.toWithin, by rw [hd.cool, hnone], fun _ => hsteps, h.backoffs_le,
        h.backoffs_limited⟩
    | limits after requested reason hafter hsame hcooldown hlow hhigh =>
      refine ⟨le_max_right _ _, hafter.mono (le_max_left _ _), hcooldown, nofun,
        Nat.zero_le _, fun _ => rfl⟩
    | backsOff after requested reason hafter hroom hmore hlow hhigh =>
      refine ⟨le_max_right _ _, hafter.toWithin.mono (le_max_left _ _), hafter.cool, fun _ => ?_,
        ?_, nofun⟩
      · show after.steps = s.backoffs + 1
        omega
      · show s.backoffs + 1 ≤ policy.maxSteps
        omega

/-- **Every event keeps the invariant.** -/
theorem Inv.step (h : Inv policy s) (e : SearchEvent) : Inv policy (step policy s e) := by
  cases e with
  | observe now delta highLoad root minimum ceiling =>
    have hsearched := h.searched now delta highLoad root
    unfold SearchLoop.step
    simp only
    split
    · exact hsearched.moved _
    · exact hsearched
  | icmp rate => exact h.moved rate
  | clamp minimum ceiling => exact h.moved _
  | setMin minimum => exact (h.moved _).forget
  | reset => exact h.forget

theorem run_inv (policy : QualitySearchPolicy) (rate : ℚ) (events : List SearchEvent) :
    Inv policy (run (step policy) (initial rate) events) :=
  run_invariant (P := Inv policy) (fun _ e h => h.step e) (initial_inv policy rate) events

/-- **The search never fights the other controller.**  After any events a request is at least the
floor, at most the highest rate held since the last reduction from outside, and not from a rate
below the floor; backoffs are at most `max_steps` in a row, and after a limit nothing is requested
before the cooldown has passed. -/
theorem search_never_fights (policy : QualitySearchPolicy) (rate : ℚ) (events : List SearchEvent) :
    (run (step policy) (initial rate) events).backoffs ≤ policy.maxSteps ∧
    ∀ now delta highLoad root q,
      ((run (step policy) (initial rate) events).observed policy now delta highLoad
        root).2.requestedRateKbps = some q →
      Requested policy (run (step policy) (initial rate) events) now
        ((run (step policy) (initial rate) events).observed
          policy now delta highLoad root).2.limited q :=
  ⟨(run_inv policy rate events).backoffs_le,
    fun _ _ _ _ _ hq => observed_request (run_inv policy rate events) hq⟩

/-- A backoff, no gain, and the fallback to the rate that the episode started at. -/
example :
    let policy : QualitySearchPolicy := ⟨30, 5000, 3, 1, 100, by decide, by decide⟩
    let s := run (step policy) (initial 10000)
      [.observe 5 (some 60) true (7 / 10) 1000 20000, .observe 9 (some 58) true (7 / 10) 1000 20000]
    s.rate = 10000 ∧ s.limitedUntil = some 109 := by
  decide +kernel

end SearchLoop

end CakeAutorate.Controller
