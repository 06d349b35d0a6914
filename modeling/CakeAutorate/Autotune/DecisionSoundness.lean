/-
# The exits of a profile search are sound

Every exit of the search is sound: it asks for a rate within the bounds while an attempt is left, or
it ends and asks for nothing, and an exit that ends with a result rests on a measurement.
-/

import CakeAutorate.Autotune.ReviewFrontier

namespace CakeAutorate.Autotune

open Machine List Option Bool Decision

/-- An observation that `validate_profile_search_input` accepts. -/
structure SearchObservation.Valid (minimumKbps upperKbps : ℕ) (o : SearchObservation) : Prop where
  rates : o.ratesValid minimumKbps upperKbps = true
  icmp : within 0 o.icmpDeltaMs maxLatencyMs = true
  transport : within 0 o.transportDeltaMs maxLatencyMs = true
  loss : within 0 o.lossPercent 100 = true
  cpu : within 0 o.cpuPercent 100 = true

/-- An input that `validate_profile_search_input` accepts. -/
structure ProfileSearchInput.Accepted (input : ProfileSearchInput) : Prop where
  low : input.observedLowKbps ≠ 0 ∧ input.observedLowKbps ≤ maxRate
  bounds : input.minimumKbps ≠ 0 ∧ input.minimumKbps ≤ input.upperKbps ∧ input.upperKbps ≤ maxRate
  observed : input.observations ≠ [] ∧ input.observations.length ≤ maxProfileSearchObservations
  attempts : 2 ≤ input.maxAttempts ∧ input.maxAttempts ≤ maxProfileSearchObservations
  uncertainty : within 0 input.uncertaintyPercent 10 = true
  thresholds : input.thresholds.valid = true
  valid : ∀ o ∈ input.observations, o.Valid input.minimumKbps input.upperKbps

theorem validateSearchObservation_ok {minimumKbps upperKbps index : ℕ} {o : SearchObservation} :
    validateSearchObservation minimumKbps upperKbps index o = .ok () ↔
      o.Valid minimumKbps upperKbps := by
  unfold validateSearchObservation
  simp only [bind_ok, check_ok, exists_and_left, exists_const]
  constructor
  · rintro ⟨hrates, hicmp, htransport, hloss, hcpu⟩
    exact ⟨hrates, hicmp, htransport, hloss, hcpu⟩
  · rintro ⟨hrates, hicmp, htransport, hloss, hcpu⟩
    exact ⟨hrates, hicmp, htransport, hloss, hcpu⟩

theorem forM_ok {α : Type} {f : α → Except String Unit} {l : List α} :
    l.forM f = .ok () ↔ ∀ a ∈ l, f a = .ok () := by
  induction l with
  | nil => exact ⟨fun _ a ha => absurd ha not_mem_nil, fun _ => rfl⟩
  | cons a l ih =>
    rw [forall_mem_cons, ← ih]
    show (f a >>= fun _ => l.forM f) = .ok () ↔ _
    rw [bind_ok]
    exact ⟨fun ⟨_, ha, hl⟩ => ⟨ha, hl⟩, fun ⟨ha, hl⟩ => ⟨(), ha, hl⟩⟩

variable {input : ProfileSearchInput} {v : SearchView}

theorem validate_iff : validateProfileSearchInput input = .ok () ↔ input.Accepted := by
  have hall : (∀ entry ∈ input.observations.zipIdx,
      validateSearchObservation input.minimumKbps input.upperKbps entry.2 entry.1 = .ok ()) ↔
      ∀ o ∈ input.observations, o.Valid input.minimumKbps input.upperKbps := by
    simp only [validateSearchObservation_ok]
    constructor
    · intro h o ho
      obtain ⟨i, hi⟩ := mem_iff_getElem?.mp ho
      exact h (o, i) (mem_zipIdx_iff_getElem?.mpr hi)
    · intro h entry hentry
      exact h entry.1 (mem_of_getElem? (mem_zipIdx_iff_getElem?.mp hentry))
  unfold validateProfileSearchInput
  simp only [bind_ok, check_ok, exists_and_left, exists_const, decide_eq_true_eq, forM_ok, hall]
  constructor
  · rintro ⟨hlow, hbounds, hobserved, hattempts, huncertainty, hthresholds, hvalid⟩
    exact ⟨hlow, hbounds, hobserved, hattempts, huncertainty, hthresholds, hvalid⟩
  · rintro ⟨hlow, hbounds, hobserved, hattempts, huncertainty, hthresholds, hvalid⟩
    exact ⟨hlow, hbounds, hobserved, hattempts, huncertainty, hthresholds, hvalid⟩

theorem checkInput_ok : checkInput input = .ok () ↔ input.Accepted := by
  rw [← validate_iff]
  unfold checkInput
  cases validateProfileSearchInput input with
  | error message => exact iff_of_false nofun nofun
  | ok u => exact iff_of_true rfl rfl

/-- What an exit finds: the samples of an accepted input, and one of them as the last. -/
structure SearchView.Sound (v : SearchView) : Prop where
  accepted : v.input.Accepted
  samples : v.samples = v.input.samples
  last : v.last ∈ v.samples

theorem ProfileSearchInput.Accepted.view (h : input.Accepted) :
    ∃ v, input.view = .ok v ∧ v.input = input ∧ v.Sound := by
  have hne : input.samples ≠ [] := by
    obtain ⟨o, rest, ho⟩ := exists_cons_of_ne_nil h.observed.1
    have hmem : (⟨0, o, evaluateSearchObservation input o⟩ : Sample) ∈ input.samples :=
      mem_samples.mpr ⟨by rw [ho]; rfl, rfl⟩
    exact ne_nil_of_mem hmem
  unfold ProfileSearchInput.view
  rw [getLast?_eq_some_getLast hne]
  exact ⟨_, rfl, rfl, h, rfl, getLast_mem hne⟩

/-- An accepted input is searched in its view. -/
theorem optimize_of_view (debugAssertions : Bool) (h : input.Accepted) (hview : input.view = .ok v) :
    optimizeProfileDirection debugAssertions input = v.optimize debugAssertions := by
  unfold optimizeProfileDirection
  rw [checkInput_ok.mpr h, hview]
  rfl

namespace SearchView.Sound

variable {v : SearchView}

theorem rate_mem (hv : v.Sound) {s : Sample} (hs : s ∈ v.samples) :
    v.input.minimumKbps ≤ s.rate ∧ s.rate ≤ v.input.upperKbps := by
  rw [hv.samples, mem_samples] at hs
  have hvalid := (hv.accepted.valid s.observation (mem_of_getElem? hs.1)).rates
  simp only [SearchObservation.ratesValid, decide_eq_true_eq] at hvalid
  exact ⟨hvalid.1, hvalid.2.1⟩

theorem safetyPass (hv : v.Sound) {s : Sample} (hs : s ∈ v.samples) :
    s.metrics.safetyPass = (s.metrics.measurementReliable && s.metrics.resourceSafe) := by
  rw [hv.samples, mem_samples] at hs
  rw [hs.2]
  rfl

end SearchView.Sound

theorem checkedSub_of_le {left right : ℕ} (h : right ≤ left) :
    checkedSub left right = .ok (left - right) := if_pos h

theorem le_roundedSearchRate {x : ℚ} {n : ℕ} (hn : n ≤ maxRate) (h : (n : ℚ) ≤ x) :
    n ≤ roundedSearchRate x := by
  unfold roundedSearchRate
  simp only
  split
  · exact hn
  · have hceil : max x 100 / 100 ≤ (⌈max x 100 / 100⌉ : ℚ) := Int.le_ceil _
    have hmax : x ≤ max x 100 := le_max_left _ _
    have hcast : (n : ℚ) ≤ ((⌈max x 100 / 100⌉ * 100 : ℤ) : ℚ) := by
      push_cast
      linarith
    have hint : (n : ℤ) ≤ ⌈max x 100 / 100⌉ * 100 := by exact_mod_cast hcast
    omega

theorem midpointCandidate_ok {lower upper : ℕ} (h : lower ≤ upper) (hupper : upper ≤ maxRate) :
    ∃ m, midpointCandidate lower upper = .ok m ∧ lower ≤ m := by
  unfold midpointCandidate
  rw [checkedSub_of_le h]
  refine ⟨_, rfl, le_min ?_ h⟩
  refine le_roundedSearchRate (h.trans hupper) ?_
  have : (0 : ℚ) ≤ ((upper - lower : ℕ) : ℚ) / 2 := by positivity
  linarith

theorem bisect_ok {lower upper : ℕ} (h : lower ≤ upper) (hupper : upper ≤ maxRate) :
    ∃ middle, v.bisect lower upper = .ok middle ∧
      ∀ next, middle = some next → lower < next ∧ next < upper ∧ v.untested next = true := by
  unfold SearchView.bisect
  rw [checkedSub_of_le h]
  obtain ⟨m, hm, -⟩ := midpointCandidate_ok h hupper
  simp only [bind, Except.bind, pure, Except.pure, hm]
  split
  · refine ⟨_, rfl, fun next hnext => ?_⟩
    split at hnext
    · next hinside =>
      cases hnext
      exact hinside
    · cases hnext
  · exact ⟨none, rfl, fun next hnext => (by cases hnext)⟩

theorem controlledCandidate_bounds {samples : List Sample} {candidate next : ℕ}
    (h : controlledCandidateFromLowRealization input samples candidate = some next) :
    input.minimumKbps ≤ next ∧ next < candidate := by
  unfold controlledCandidateFromLowRealization at h
  simp only at h
  split at h
  · cases h
  · split at h
    · cases h
    · simp only [bind, bind_eq_some_iff] at h
      obtain ⟨low, -, h⟩ := h
      split at h
      · next hbounds =>
        cases h
        exact hbounds
      · cases h

theorem latencyFirstDescentCandidate_bounds {samples : List Sample} {candidate next : ℕ}
    (h : latencyFirstDescentCandidate input samples candidate = some next) :
    input.minimumKbps ≤ next ∧ next < candidate ∧ candidateWasTested samples next = false := by
  unfold latencyFirstDescentCandidate at h
  simp only [bind, bind_eq_some_iff] at h
  obtain ⟨low, -, h⟩ := h
  split at h
  · next hbounds =>
    cases h
    exact hbounds
  · cases h

theorem nextVariableLink_bounds {observedLow minimum current next : ℕ}
    (h : nextVariableLinkUnobservedCandidate observedLow minimum current = .ok (some next)) :
    minimum ≤ next ∧ next < current := by
  unfold nextVariableLinkUnobservedCandidate at h
  split at h
  · cases h
  · have h := Except.ok.inj h
    split at h
    · next hlt =>
      cases h
      exact ⟨le_max_right _ _, hlt⟩
    · cases h

theorem requiredRate_bounds {required : ℕ} (h : v.requiredRate = some required) :
    v.last.rate < required ∧ required ≤ v.input.upperKbps ∧ v.untested required = true := by
  unfold SearchView.requiredRate at h
  simp only at h
  split at h
  · next hbounds =>
    cases h
    exact hbounds
  · cases h

def repeatReasons : List String :=
  ["repeat-unreliable-realization", "repeat-low-candidate-realization",
    "repeat-resource-unsafe-candidate", "repeat-resource-unsafe-variable-candidate",
    "repeat-uncontrolled-variable-candidate", "repeat-noisy-variable-candidate",
    "repeat-nonmonotonic-variable-candidate"]

theorem notMem_either {reasons : List String} {p : Prop} [Decidable p] {left right : String}
    (hleft : left ∉ reasons) (hright : right ∉ reasons) :
    (if p then left else right) ∉ reasons := by
  split
  · exact hleft
  · exact hright

def Grounded (samples : List Sample) : Prop :=
  (∃ s ∈ samples, s.metrics.safetyPass = true) ∨ ∃ s, bestLowRealizationReviewIndex samples = some s

/-- **A sound decision.**  It asks for a rate within the bounds while an attempt is left, and its
reason says whether the rate was measured before; or it asks for nothing, and what it ends with is
grounded. -/
structure Decision.Sound (v : SearchView) (d : Decision) : Prop where
  asks : d.action = .test → ∃ rate, d.nextCandidateKbps = some rate ∧
    v.input.minimumKbps ≤ rate ∧ rate ≤ v.input.upperKbps ∧
    v.input.observations.length < v.input.maxAttempts ∧
    (d.reason ∈ repeatReasons ↔ candidateWasTested v.samples rate = true)
  ends : d.action ≠ .test → d.nextCandidateKbps = none
  grounded : d.action.terminal = true → Grounded v.samples

namespace Decision.Sound

variable {v : SearchView} {reason : String}

theorem stop {action : ProfileSearchAction} (haction : action ≠ .test)
    (hgrounded : action.terminal = true → Grounded v.samples) :
    (stop action reason).Sound v :=
  ⟨fun h => absurd h haction, fun _ => rfl, hgrounded⟩

theorem inconclusive : (Decision.stop .inconclusive reason).Sound v :=
  stop (by decide) nofun

theorem again (hv : v.Sound) {s : Sample} (hs : s ∈ v.samples) (hleft : v.attemptLeft = true)
    (hreason : reason ∈ repeatReasons) : (test reason s.rate).Sound v := by
  refine ⟨fun _ => ⟨s.rate, rfl, (hv.rate_mem hs).1, (hv.rate_mem hs).2, of_decide_eq_true hleft, ?_⟩,
    fun h => absurd rfl h, nofun⟩
  exact iff_of_true hreason (candidateWasTested_iff.mpr ⟨s, hs, rfl⟩)

theorem ask {rate : ℕ} (hleft : v.attemptLeft = true) (hminimum : v.input.minimumKbps ≤ rate)
    (hupper : rate ≤ v.input.upperKbps) (huntested : v.untested rate = true)
    (hreason : reason ∉ repeatReasons) : (test reason rate).Sound v := by
  refine ⟨fun _ => ⟨rate, rfl, hminimum, hupper, of_decide_eq_true hleft, ?_⟩,
    fun h => absurd rfl h, nofun⟩
  unfold SearchView.untested at huntested
  rw [not_eq_true'] at huntested
  exact iff_of_false hreason (by rw [huntested]; decide)

end Decision.Sound

theorem attemptLeft_of_repeatLeft (h : v.repeatLeft = true) : v.attemptLeft = true :=
  (and_eq_true_iff.mp h).2

theorem sound_repeat (hv : v.Sound) {repeated ended : String} (hreason : repeated ∈ repeatReasons) :
    (if v.repeatLeft then test repeated v.last.rate
      else .stop .inconclusive ended).Sound v := by
  split
  · next h => exact .again hv hv.last (attemptLeft_of_repeatLeft h) hreason
  · exact .inconclusive

namespace SearchView

variable {v : SearchView}

theorem untested_of_not_tested {rate : ℕ} (h : candidateWasTested v.samples rate = false) :
    v.untested rate = true := by
  rw [untested, h]
  rfl

theorem doneAction_ne_test (s : Sample) : v.doneAction s ≠ .test := by
  unfold doneAction
  split
  · decide
  · decide

theorem sound_uncontrolledDecision (hv : v.Sound) : v.uncontrolledDecision.Sound v := by
  unfold uncontrolledDecision
  split
  · next h =>
    exact .again hv hv.last (attemptLeft_of_repeatLeft h) (by decide)
  · split
    · next next h =>
      split at h
      · next hgaming =>
        obtain ⟨hminimum, hlt, htested⟩ := latencyFirstDescentCandidate_bounds h
        exact .ask (and_eq_true_iff.mp hgaming).2 hminimum
          (hlt.le.trans (hv.rate_mem hv.last).2) (untested_of_not_tested htested) (by decide)
      · cases h
    · exact .inconclusive

theorem sound_boundaryDecision (hv : v.Sound) {candidate : ℕ} {s : Sample} (hs : s ∈ v.samples)
    (hrate : s.rate = candidate) (hpass : s.metrics.safetyPass = true)
    (hlt : candidate < v.last.rate) :
    ∃ d, v.boundaryDecision candidate s = .ok d ∧ d.Sound v := by
  have hlast := hv.rate_mem hv.last
  obtain ⟨middle, hmiddle, hinside⟩ :=
    bisect_ok (v := v) hlt.le (hlast.2.trans hv.accepted.bounds.2.2)
  unfold boundaryDecision
  rw [hmiddle]
  refine ⟨_, rfl, ?_⟩
  split
  · next next h =>
    split at h
    · next hleft =>
      obtain ⟨hlower, hupper, huntested⟩ := hinside next h
      have hminimum := (hv.rate_mem hs).1
      rw [hrate] at hminimum
      exact .ask hleft (hminimum.trans hlower.le) (hupper.le.trans hlast.2) huntested (by decide)
    · cases h
  · exact .stop (doneAction_ne_test s) fun _ => Or.inl ⟨s, hs, hpass⟩

theorem sound_controlledDecision (hv : v.Sound) {candidate : ℕ}
    (hminimum : v.input.minimumKbps ≤ candidate) (hlt : candidate < v.last.rate) :
    ∃ d, v.controlledDecision candidate = .ok d ∧ d.Sound v := by
  unfold controlledDecision
  split
  · next h =>
    refine ⟨_, rfl, Decision.Sound.ask h.2 hminimum (hlt.le.trans (hv.rate_mem hv.last).2) h.1 ?_⟩
    split
    · decide
    · decide
  · split
    · next s hfound =>
      have hs := find?_some hfound
      simp only [and_eq_true, beq_iff_eq] at hs
      exact sound_boundaryDecision hv (mem_of_find?_eq_some hfound) hs.1 hs.2 hlt
    · exact ⟨_, rfl, Decision.Sound.inconclusive⟩

variable {selected : Option Sample} {d : VariableDecision}

theorem sound_unreliableDecision (hv : v.Sound) (hselected : ∀ s, selected = some s → s ∈ v.samples) :
    ∃ d, v.unreliableDecision selected = .ok d ∧ d.Sound v := by
  unfold unreliableDecision
  split
  · exact ⟨_, rfl, sound_repeat hv (by decide)⟩
  · split
    · next s h =>
      refine ⟨_, rfl, Decision.Sound.stop (doneAction_ne_test s) fun _ => Or.inl ⟨s, ?_⟩⟩
      split at h
      · cases h
      · rw [filter_eq_some_iff] at h
        exact ⟨hselected s h.1, h.2⟩
    · split
      · exact ⟨_, rfl, sound_uncontrolledDecision hv⟩
      · next candidate h =>
        obtain ⟨hminimum, hlt⟩ := controlledCandidate_bounds h
        exact sound_controlledDecision hv hminimum hlt

theorem sound_attemptLimitDecision (hgrounded : Grounded v.samples) :
    (v.attemptLimitDecision selected).Sound v := by
  unfold attemptLimitDecision
  refine .stop ?_ fun _ => hgrounded
  split
  · decide
  · split
    · decide
    · split
      · decide
      · decide

section

variable (hv : v.Sound)
include hv

theorem throughputBisect_ok :
    ∃ middle, v.throughputBisect = .ok middle ∧
      ∀ next, middle = some next → v.input.minimumKbps ≤ next ∧ next ≤ v.input.upperKbps ∧
        v.untested next = true := by
  unfold throughputBisect
  split
  · exact ⟨none, rfl, fun next h => (by cases h)⟩
  · next lower hlower =>
    split
    · exact ⟨none, rfl, fun next h => (by cases h)⟩
    · next upper hupper =>
      obtain ⟨low, hlow, rfl⟩ := mem_map.mp (max?_mem hlower)
      obtain ⟨high, hhigh, rfl⟩ := mem_map.mp (min?_mem hupper)
      rw [mem_filter] at hlow hhigh
      simp only [and_eq_true, decide_eq_true_eq] at hhigh
      have hhighRate := hv.rate_mem hhigh.1
      obtain ⟨middle, hmiddle, hinside⟩ :=
        bisect_ok (v := v) hhigh.2.1.le (hhighRate.2.trans hv.accepted.bounds.2.2)
      refine ⟨middle, hmiddle, fun next hnext => ?_⟩
      obtain ⟨hlt, hlt', huntested⟩ := hinside next hnext
      exact ⟨(hv.rate_mem hlow.1).1.trans hlt.le, hlt'.le.trans hhighRate.2, huntested⟩

theorem sound_upper (hleft : v.attemptLeft = true) {reason : String}
    (huntested : v.untested v.input.upperKbps = true) (hreason : reason ∉ repeatReasons) :
    (test reason v.input.upperKbps).Sound v :=
  Decision.Sound.ask hleft hv.accepted.bounds.2.1 le_rfl huntested hreason

theorem sound_required (hleft : v.attemptLeft = true) {reason : String} {required : ℕ}
    (h : v.requiredRate = some required) (hreason : reason ∉ repeatReasons) :
    (test reason required).Sound v := by
  obtain ⟨hlt, hupper, huntested⟩ := requiredRate_bounds h
  exact .ask hleft ((hv.rate_mem hv.last).1.trans hlt.le) hupper huntested hreason

theorem sound_fairDecision (hleft : v.attemptLeft = true) (hgrounded : Grounded v.samples)
    (selected : Option Sample) : ∃ d, v.fairDecision selected = .ok d ∧ d.Sound v := by
  obtain ⟨middle, hmiddle, hinside⟩ := throughputBisect_ok hv
  unfold fairDecision
  split
  · next required h =>
    split at h
    · exact ⟨_, rfl, sound_required hv hleft h (by decide)⟩
    · cases h
  · rw [hmiddle]
    refine ⟨_, rfl, ?_⟩
    cases middle with
    | some next =>
      obtain ⟨hminimum, hupper, huntested⟩ := hinside next rfl
      exact .ask hleft hminimum hupper huntested (by decide)
    | none =>
      show (if _ then _ else _ : Decision).Sound v
      split
      · next huntested => exact sound_upper hv hleft huntested (by decide)
      · refine .stop ?_ fun _ => hgrounded
        split
        · decide
        · split
          · decide
          · decide

theorem sound_capacityDecision (hleft : v.attemptLeft = true) (hgrounded : Grounded v.samples) :
    v.capacityDecision.Sound v := by
  unfold capacityDecision
  split
  · next required h => exact sound_required hv hleft h (by decide)
  · split
    · next huntested => exact sound_upper hv hleft huntested (by decide)
    · exact .stop (by decide) fun _ => hgrounded

theorem sound_targetDecision (hleft : v.attemptLeft = true) (hgrounded : Grounded v.samples)
    {lower : ℕ} (hlower : v.lowerTargetPass = some lower) :
    ∃ d, v.targetDecision lower = .ok d ∧ d.Sound v := by
  obtain ⟨low, hlow, rfl⟩ := mem_map.mp (max?_mem hlower)
  have hlowRate := hv.rate_mem (mem_filter.mp hlow).1
  unfold targetDecision
  split
  · next upper hupper =>
    obtain ⟨high, hhigh, rfl⟩ := mem_map.mp (min?_mem hupper)
    rw [mem_filter] at hhigh
    simp only [and_eq_true, decide_eq_true_eq] at hhigh
    have hhighRate := hv.rate_mem hhigh.1
    obtain ⟨middle, hmiddle, hinside⟩ :=
      bisect_ok (v := v) hhigh.2.1.1.le (hhighRate.2.trans hv.accepted.bounds.2.2)
    rw [hmiddle]
    refine ⟨_, rfl, ?_⟩
    cases middle with
    | some next =>
      obtain ⟨hlt, hlt', huntested⟩ := hinside next rfl
      exact .ask hleft (hlowRate.1.trans hlt.le) (hlt'.le.trans hhighRate.2) huntested (by decide)
    | none => exact .stop (by decide) fun _ => hgrounded
  · refine ⟨_, rfl, ?_⟩
    split
    · next h => exact sound_upper hv hleft h.2 (by decide)
    · exact .stop (by decide) fun _ => hgrounded

theorem lowestTested_spec :
    v.input.minimumKbps ≤ v.lowestTested ∧ v.lowestTested ≤ v.input.upperKbps ∧
      ∀ s ∈ v.samples, v.lowestTested ≤ s.rate := by
  cases hmin : (v.samples.map Sample.rate).min? with
  | none =>
    rw [min?_eq_none_iff, map_eq_nil_iff] at hmin
    have hlast := hv.last
    rw [hmin] at hlast
    cases hlast
  | some low =>
    have hlow : v.lowestTested = low := by
      unfold lowestTested
      rw [hmin]
      rfl
    obtain ⟨s, hs, hrate⟩ := mem_map.mp (min?_mem hmin)
    rw [hlow, ← hrate]
    refine ⟨(hv.rate_mem hs).1, (hv.rate_mem hs).2, fun t ht => ?_⟩
    rw [hrate]
    exact (le_min?_iff hmin).mp le_rfl t.rate (mem_map_of_mem ht)

theorem sound_lowerQualityDecision (hleft : v.attemptLeft = true) (hgrounded : Grounded v.samples)
    (selected : Option Sample) : ∃ d, v.lowerQualityDecision selected = .ok d ∧ d.Sound v := by
  obtain ⟨hminimum, hupper, hlowest⟩ := lowestTested_spec hv
  unfold lowerQualityDecision
  split
  · next huntested =>
    obtain ⟨m, hm, hle⟩ := midpointCandidate_ok hminimum (hupper.trans hv.accepted.bounds.2.2)
    rw [hm]
    refine ⟨_, rfl, ?_⟩
    split
    · exact .ask hleft le_rfl hv.accepted.bounds.2.1 huntested (by decide)
    · next hlt =>
      have hlt : m < v.lowestTested := not_le.mp hlt
      -- every measured rate is above the midpoint
      have hfree : candidateWasTested v.samples m = false := by
        rw [eq_false_iff, Ne, candidateWasTested_iff]
        rintro ⟨s, hs, hrate⟩
        have := hlowest s hs
        omega
      exact .ask hleft hle (hlt.le.trans hupper) (untested_of_not_tested hfree) (by decide)
  · split
    · exact ⟨_, rfl, Decision.Sound.inconclusive⟩
    · exact ⟨_, rfl, Decision.Sound.stop (by decide) fun _ => hgrounded⟩

theorem sound_qualityDecision (hleft : v.attemptLeft = true) (hgrounded : Grounded v.samples)
    (selected : Option Sample) : ∃ d, v.qualityDecision selected = .ok d ∧ d.Sound v := by
  unfold qualityDecision
  split
  · exact ⟨_, rfl, sound_capacityDecision hv hleft hgrounded⟩
  · split
    · next lower hlower => exact sound_targetDecision hv hleft hgrounded hlower
    · exact sound_lowerQualityDecision hv hleft hgrounded selected

theorem grounded_last (hreliable : v.last.metrics.measurementReliable = true)
    (hsafe : v.last.metrics.resourceSafe = true) : Grounded v.samples := by
  refine Or.inl ⟨v.last, hv.last, ?_⟩
  rw [hv.safetyPass hv.last, hreliable, hsafe]
  rfl

/-- **Every exit of the search is sound**, and none stops the program. -/
theorem sound_decision (hselected : ∀ s, selected = some s → s ∈ v.samples) :
    ∃ d, v.decision selected = .ok d ∧ d.Sound v := by
  unfold decision
  split
  · exact sound_unreliableDecision hv hselected
  · next hreliable =>
    split
    · exact ⟨_, rfl, sound_repeat hv (by decide)⟩
    · next hsafe =>
      have hgrounded :=
        grounded_last hv (of_not_eq_false hreliable) (of_not_eq_false hsafe)
      split
      · exact ⟨_, rfl, sound_attemptLimitDecision hgrounded⟩
      · next hleft =>
        have hleft := of_not_eq_false hleft
        split
        · exact sound_fairDecision hv hleft hgrounded selected
        · exact sound_qualityDecision hv hleft hgrounded selected

end

theorem mem_aggregates {samples : List Sample} {a : VariableCandidateAggregate}
    (h : a ∈ variableCandidateAggregates samples) :
    a.representative ∈ samples ∧ a.representative.rate = a.candidateKbps := by
  obtain ⟨rate, -, ha⟩ := mem_filterMap.mp h
  unfold variableCandidateAggregate at ha
  simp only [bind, bind_eq_some_iff, pure, some.injEq] at ha
  obtain ⟨s, hs, rfl⟩ := ha
  exact mem_atRate.mp (mem_filter.mp (minBy_mem hs)).1

/-- A sound decision of a Variable Link search: an inconclusive one selects nothing. -/
structure VariableSound (v : SearchView) (d : VariableDecision) : Prop where
  decision : d.toDecision.Sound v
  unselected : d.action = .inconclusive → d.selected = none

theorem sound_variableResourceDecision (hv : v.Sound) :
    v.VariableSound v.variableResourceDecision := by
  unfold variableResourceDecision
  split
  · next next h =>
    split at h
    · next hleft =>
      have hleft := (and_eq_true_iff.mp hleft).2
      unfold lowerAfterResourceLimit at h
      rw [filter_eq_some_iff, and_eq_true, decide_eq_true_eq, or_eq_some_iff] at h
      obtain ⟨hnext, hlt, huntested⟩ := h
      have hminimum : v.input.minimumKbps ≤ next := by
        rcases hnext with hnext | ⟨-, hnext⟩
        · exact (controlledCandidate_bounds hnext).1
        · split at hnext
          · next h =>
            rw [hnext] at h
            exact (nextVariableLink_bounds h).1
          · cases hnext
      exact ⟨.ask hleft hminimum (hlt.le.trans (hv.rate_mem hv.last).2) huntested
        (by decide), nofun⟩
    · cases h
  · split
    · next h =>
      exact ⟨.again hv hv.last (attemptLeft_of_repeatLeft h) (by decide), nofun⟩
    · exact ⟨.inconclusive, fun _ => rfl⟩

theorem sound_variableUncontrolledDecision (hv : v.Sound) :
    v.VariableSound v.variableUncontrolledDecision := by
  unfold variableUncontrolledDecision
  split
  · next next h =>
    rw [filter_eq_some_iff, and_eq_true, and_eq_true, decide_eq_true_eq] at h
    obtain ⟨hnext, ⟨hlt, huntested⟩, hleft⟩ := h
    exact ⟨.ask hleft (controlledCandidate_bounds hnext).1
      (hlt.le.trans (hv.rate_mem hv.last).2) huntested (by decide), nofun⟩
  · split
    · next s h =>
      refine ⟨.stop (by decide) fun _ => Or.inr ⟨s, ?_⟩, nofun⟩
      split at h
      · exact h
      · cases h
    · split
      · next h =>
        exact ⟨.again hv hv.last (attemptLeft_of_repeatLeft h) (by decide), nofun⟩
      · exact ⟨.inconclusive, fun _ => rfl⟩

theorem sound_noisyStop (hgrounded : Grounded v.samples) (inconclusive : String) (threshold : ℚ) :
    v.VariableSound (v.noisyStop inconclusive threshold) := by
  unfold noisyStop
  split
  · exact ⟨.stop (by decide) fun _ => hgrounded, nofun⟩
  · exact ⟨.inconclusive, fun _ => rfl⟩

variable {aggregates : List VariableCandidateAggregate}

theorem sound_noiseDecision (hv : v.Sound) (hgrounded : Grounded v.samples)
    (h : v.noiseDecision aggregates = some d) : v.VariableSound d := by
  unfold noiseDecision at h
  split at h
  · cases h
  · simp only at h
    split at h
    · cases h
    · split at h
      · next hrepeat =>
        cases h
        exact ⟨.again hv hv.last (attemptLeft_of_repeatLeft hrepeat) (by decide), nofun⟩
      · cases h
        exact sound_noisyStop hgrounded _ _

theorem sound_monotoneDecision (hv : v.Sound) (hgrounded : Grounded v.samples)
    (h : v.monotoneDecision (variableCandidateAggregates v.samples) = some d) :
    v.VariableSound d := by
  unfold monotoneDecision at h
  split at h
  · next lower higher rest hreverse =>
    simp only at h
    split at h
    · cases h
    · split at h
      · next hrepeat =>
        cases h
        have hmem : lower ∈ variableCandidateAggregates v.samples := by
          rw [← mem_reverse, hreverse]
          exact mem_cons_self
        obtain ⟨hs, hrate⟩ := mem_aggregates hmem
        have hagain := Decision.Sound.again hv hs (and_eq_true_iff.mp hrepeat).2
          (by decide : "repeat-nonmonotonic-variable-candidate" ∈ repeatReasons)
        rw [hrate] at hagain
        exact ⟨hagain, nofun⟩
      · cases h
        exact sound_noisyStop hgrounded _ _
  · cases h

theorem sound_plateauDecision (hgrounded : Grounded v.samples)
    (h : v.plateauDecision aggregates = some d) : v.VariableSound d := by
  unfold plateauDecision at h
  split at h
  · simp only at h
    split at h
    · cases h
    · split at h
      · split at h
        · cases h
          exact ⟨.stop (by decide) fun _ => hgrounded, nofun⟩
        · cases h
          exact ⟨.inconclusive, fun _ => rfl⟩
      · cases h
        split
        · exact ⟨.stop (by decide) fun _ => hgrounded, nofun⟩
        · exact ⟨.stop (by decide) fun _ => hgrounded, nofun⟩
  · cases h

theorem lowestPassed_spec (hv : v.Sound) :
    ∃ s ∈ v.samples, s.rate = v.lowestPassed (variableCandidateAggregates v.samples) := by
  unfold lowestPassed
  cases hlast : (variableCandidateAggregates v.samples).getLast? with
  | none => exact ⟨v.last, hv.last, rfl⟩
  | some a =>
    obtain ⟨hs, hrate⟩ := mem_aggregates (mem_of_getLast? hlast)
    exact ⟨a.representative, hs, hrate⟩

theorem sound_descendDecision (hv : v.Sound) (hgrounded : Grounded v.samples) :
    ∃ d, v.descendDecision (variableCandidateAggregates v.samples) = .ok d ∧ v.VariableSound d := by
  obtain ⟨s, hs, hrate⟩ := lowestPassed_spec hv
  have hbounds := hv.rate_mem hs
  rw [hrate] at hbounds
  unfold descendDecision
  simp only
  split
  · split
    · exact ⟨_, rfl, Decision.Sound.stop (by decide) fun _ => hgrounded, nofun⟩
    · exact ⟨_, rfl, Decision.Sound.inconclusive, fun _ => rfl⟩
  · split
    · exact ⟨_, rfl, Decision.Sound.inconclusive, fun _ => rfl⟩
    · next hleft =>
      split
      · -- the bounds of an accepted input are the ones that the step asks for
        next message h =>
        exfalso
        have hlow := hv.accepted.low
        have hmaximum := hv.accepted.bounds
        unfold nextVariableLinkUnobservedCandidate at h
        rw [if_neg (by omega)] at h
        cases h
      · exact ⟨_, rfl, Decision.Sound.inconclusive, fun _ => rfl⟩
      · next next h =>
        obtain ⟨hminimum, hlt⟩ := nextVariableLink_bounds h
        split
        · next huntested =>
          exact ⟨_, rfl, Decision.Sound.ask (of_not_eq_false hleft) hminimum
            (hlt.le.trans hbounds.2) huntested (by decide), nofun⟩
        · exact ⟨_, rfl, Decision.Sound.inconclusive, fun _ => rfl⟩

theorem sound_passedDecision (hv : v.Sound) (hgrounded : Grounded v.samples) :
    ∃ d, v.passedDecision (variableCandidateAggregates v.samples) = .ok d ∧ v.VariableSound d := by
  unfold passedDecision
  split
  · next d h =>
    refine ⟨d, rfl, ?_⟩
    rw [or_eq_some_iff, or_eq_some_iff] at h
    rcases h with (h | ⟨-, h⟩) | ⟨-, h⟩
    · exact sound_noiseDecision hv hgrounded h
    · exact sound_monotoneDecision hv hgrounded h
    · exact sound_plateauDecision hgrounded h
  · exact sound_descendDecision hv hgrounded

/-- **Every exit of a Variable Link search is sound**, and none stops the program. -/
theorem sound_variableDecision (hv : v.Sound) :
    ∃ d, v.variableDecision (variableCandidateAggregates v.samples) = .ok d ∧
      v.VariableSound d := by
  unfold variableDecision
  split
  · exact ⟨_, rfl, sound_variableResourceDecision hv⟩
  · next hsafe =>
    split
    · exact ⟨_, rfl, sound_variableUncontrolledDecision hv⟩
    · next hreliable =>
      exact sound_passedDecision hv
        (grounded_last hv (of_not_eq_false hreliable) (of_not_eq_false hsafe))

end SearchView

end CakeAutorate.Autotune
