/-
# How often a rate is measured

A search repeats a rate while it was measured fewer than three times.  Every exit but one counts
all measurements of the last rate; the one for a lowest rate that is slower than the rate above it
counts only the measurements that passed.  So a rate is measured a fourth time exactly when this
exit finds a rate that was measured three times and did not pass each time.
-/

import CakeAutorate.Autotune.SearchBounds

namespace CakeAutorate.Autotune

open Machine List SearchView ProfileSearchInput Decision

def SearchView.Decides (v : SearchView) (rate : ℕ) : Prop :=
  (v.input.profile = .variableLink ∧ ∃ d,
    v.variableDecision (variableCandidateAggregates v.samples) = .ok d ∧ d.action = .test ∧
      d.nextCandidateKbps = some rate) ∨
  (v.input.profile ≠ .variableLink ∧ ∃ selected d, v.profileSelectedIndex = .ok selected ∧
    v.decision selected = .ok d ∧ d.action = .test ∧ d.nextCandidateKbps = some rate)

variable {input : ProfileSearchInput} {selected : Option Sample}

/-- `finish` asks exactly where the exit does. -/
theorem settle_test {samples : List Sample} {action : ProfileSearchAction} {reason : String} :
    (settle input samples action reason selected).action = .test ↔ action = .test := by
  by_cases h : action = .inconclusive
  · subst h
    refine iff_of_false ?_ (by decide)
    have hkeep : ∀ point reason (settled : Settled), settled.action ≠ .test →
        (keepForReview point reason settled).action ≠ .test := by
      intro point reason settled hsettled
      unfold keepForReview
      split
      · exact hsettled
      · split
        · exact hsettled
        · intro h
          cases h
    refine hkeep _ _ _ (hkeep _ _ _ ?_)
    unfold resolveTerminalSafeFallback
    rw [if_neg (by decide)]
    split
    · intro h
      cases h
    · intro h
      cases h
  · rw [settle_of_conclusive reason selected h]

variable {debugAssertions : Bool} {rate : ℕ}

/-- **A search asks for the rate that its exit asks for.** -/
theorem asks_iff (h : input.Accepted) :
    Asks debugAssertions input rate ↔ ∃ v, input.view = .ok v ∧ v.Decides rate := by
  obtain ⟨v, hview, hinput, hv⟩ := h.view
  have hsearch := optimize_of_view debugAssertions h hview
  -- a result that asks is not terminal, and is not changed by its alignment
  have halign : ∀ raw : ProfileSearchResult,
      (∃ result, alignTerminalSelectionWithRecommended debugAssertions raw = .ok result ∧
        result.action = .test ∧ result.nextCandidateKbps = some rate) ↔
      raw.action = .test ∧ raw.nextCandidateKbps = some rate := by
    intro raw
    constructor
    · rintro ⟨result, hok, htest, hnext⟩
      have haligned := aligned_of_ok hok
      exact ⟨haligned.asks.mp htest, haligned.next ▸ hnext⟩
    · rintro ⟨htest, hnext⟩
      refine ⟨raw, ?_, htest, hnext⟩
      unfold alignTerminalSelectionWithRecommended
      rw [if_neg]
      rw [htest]
      decide
  unfold Asks
  rw [hsearch]
  have hdecides : (∃ v, input.view = .ok v ∧ v.Decides rate) ↔ v.Decides rate := by
    rw [hview]
    constructor
    · rintro ⟨v', heq, hdecides⟩
      rw [Except.ok.inj heq]
      exact hdecides
    · exact fun hdecides => ⟨v, rfl, hdecides⟩
  rw [hdecides]
  by_cases hprofile : v.input.profile = .variableLink
  · obtain ⟨d, hd, -⟩ := sound_variableDecision hv
    have hoptimize : v.optimize debugAssertions = alignTerminalSelectionWithRecommended
        debugAssertions (v.variableResult (variableCandidateAggregates v.samples) d) := by
      unfold optimize optimizeVariableLinkDirection
      simp [if_pos hprofile, bind, Except.bind, hd]
    rw [hoptimize, halign]
    have hraw : (v.variableResult (variableCandidateAggregates v.samples) d).action = .test ↔
        d.action = .test := settle_test
    rw [hraw]
    constructor
    · rintro ⟨htest, hnext⟩
      exact .inl ⟨hprofile, d, hd, htest, hnext⟩
    · rintro (⟨-, d', hd', htest, hnext⟩ | ⟨hother, -⟩)
      · rw [hd, Except.ok.injEq] at hd'
        subst hd'
        exact ⟨htest, hnext⟩
      · exact absurd hprofile hother
  · obtain ⟨selected, hselected, hmem⟩ := profileSelectedIndex_ok hprofile
    obtain ⟨d, hd, -⟩ := sound_decision hv hmem
    have hoptimize : v.optimize debugAssertions = alignTerminalSelectionWithRecommended
        debugAssertions (v.result selected d) := by
      unfold optimize optimizeDirection
      simp [if_neg hprofile, hselected, bind, Except.bind, hd]
    rw [hoptimize, halign]
    have hraw : (v.result selected d).action = .test ↔ d.action = .test := settle_test
    rw [hraw]
    constructor
    · rintro ⟨htest, hnext⟩
      exact .inr ⟨hprofile, selected, d, hselected, hd, htest, hnext⟩
    · rintro (⟨hother, -⟩ | ⟨-, selected', d', hselected', hd', htest, hnext⟩)
      · exact absurd hother hprofile
      · rw [hselected, Except.ok.injEq] at hselected'
        subst hselected'
        rw [hd, Except.ok.injEq] at hd'
        subst hd'
        exact ⟨htest, hnext⟩

def Decision.RepeatsLast (v : SearchView) (d : Decision) : Prop :=
  d.reason ∈ repeatReasons → v.repeatLeft = true ∧ d.nextCandidateKbps = some v.last.rate

namespace SearchView

variable {v : SearchView} {d : Decision}

theorem repeatsLast_new (h : d.reason ∉ repeatReasons) : d.RepeatsLast v := fun hmem => absurd hmem h

theorem repeatsLast_test {reason : String} (h : reason ∉ repeatReasons) :
    (test reason rate).RepeatsLast v := repeatsLast_new h

theorem repeatsLast_stop {action : ProfileSearchAction} {reason : String}
    (h : reason ∉ repeatReasons) : (stop action reason).RepeatsLast v := repeatsLast_new h

theorem repeatsLast_either {p : Prop} [Decidable p] {left right : Decision}
    (hleft : left.RepeatsLast v) (hright : right.RepeatsLast v) :
    (if p then left else right).RepeatsLast v := by
  split
  · exact hleft
  · exact hright

theorem repeatsLast_repeat {repeated ended : String} (hended : ended ∉ repeatReasons) :
    (if v.repeatLeft then test repeated v.last.rate
      else .stop .inconclusive ended).RepeatsLast v := by
  intro hmem
  split at hmem
  · next h =>
    rw [if_pos h]
    exact ⟨h, rfl⟩
  · exact absurd hmem hended

theorem repeatsLast_uncontrolledDecision : v.uncontrolledDecision.RepeatsLast v := by
  unfold uncontrolledDecision
  split
  · next h => exact fun _ => ⟨h, rfl⟩
  · split
    · exact repeatsLast_test (by decide)
    · exact repeatsLast_stop (by decide)

theorem repeatsLast_controlledDecision {candidate : ℕ}
    (h : v.controlledDecision candidate = .ok d) : d.RepeatsLast v := by
  unfold controlledDecision at h
  split at h
  · cases h
    exact repeatsLast_test (notMem_either (by decide) (by decide))
  · split at h
    · unfold boundaryDecision at h
      obtain ⟨next, -, h⟩ := bind_ok.mp h
      cases h
      split
      · exact repeatsLast_test (by decide)
      · exact repeatsLast_stop (by decide)
    · cases h
      exact repeatsLast_stop (by decide)

theorem repeatsLast_unreliableDecision (h : v.unreliableDecision selected = .ok d) :
    d.RepeatsLast v := by
  unfold unreliableDecision at h
  split at h
  · cases h
    exact repeatsLast_repeat (by decide)
  · split at h
    · cases h
      exact repeatsLast_stop (by decide)
    · split at h
      · cases h
        exact repeatsLast_uncontrolledDecision
      · exact repeatsLast_controlledDecision h

theorem repeatsLast_fairDecision (h : v.fairDecision selected = .ok d) : d.RepeatsLast v := by
  unfold fairDecision at h
  split at h
  · cases h
    exact repeatsLast_test (by decide)
  · obtain ⟨middle, -, h⟩ := bind_ok.mp h
    cases h
    split
    · exact repeatsLast_test (by decide)
    · exact repeatsLast_either (repeatsLast_test (by decide))
        (repeatsLast_stop (notMem_either (by decide) (by decide)))

theorem repeatsLast_capacityDecision : v.capacityDecision.RepeatsLast v := by
  unfold capacityDecision
  split
  · exact repeatsLast_test (by decide)
  · exact repeatsLast_either (repeatsLast_test (by decide)) (repeatsLast_stop (by decide))

theorem repeatsLast_targetDecision {lower : ℕ} (h : v.targetDecision lower = .ok d) :
    d.RepeatsLast v := by
  unfold targetDecision at h
  split at h
  · obtain ⟨middle, -, h⟩ := bind_ok.mp h
    cases h
    split
    · exact repeatsLast_test (by decide)
    · exact repeatsLast_stop (by decide)
  · cases h
    exact repeatsLast_either (repeatsLast_test (by decide)) (repeatsLast_stop (by decide))

theorem repeatsLast_lowerQualityDecision (h : v.lowerQualityDecision selected = .ok d) :
    d.RepeatsLast v := by
  unfold lowerQualityDecision at h
  split at h
  · obtain ⟨next, -, h⟩ := bind_ok.mp h
    cases h
    exact repeatsLast_test (by decide)
  · split at h
    · cases h
      exact repeatsLast_stop (by decide)
    · cases h
      exact repeatsLast_stop (notMem_either (by decide) (by decide))

theorem repeatsLast_qualityDecision (h : v.qualityDecision selected = .ok d) : d.RepeatsLast v := by
  unfold qualityDecision at h
  split at h
  · cases h
    exact repeatsLast_capacityDecision
  · split at h
    · exact repeatsLast_targetDecision h
    · exact repeatsLast_lowerQualityDecision h

/-- **Every exit of the search of another profile counts all measurements.** -/
theorem repeatsLast_decision (h : v.decision selected = .ok d) : d.RepeatsLast v := by
  unfold decision at h
  split at h
  · exact repeatsLast_unreliableDecision h
  · split at h
    · cases h
      exact repeatsLast_repeat (by decide)
    · split at h
      · cases h
        exact repeatsLast_stop (notMem_either (by decide) (by decide))
      · split at h
        · exact repeatsLast_fairDecision h
        · exact repeatsLast_qualityDecision h

theorem repeatsLast_variableResourceDecision :
    v.variableResourceDecision.toDecision.RepeatsLast v := by
  unfold variableResourceDecision
  split
  · exact repeatsLast_test (by decide)
  · split
    · next h => exact fun _ => ⟨h, rfl⟩
    · exact repeatsLast_stop (by decide)

theorem repeatsLast_variableUncontrolledDecision :
    v.variableUncontrolledDecision.toDecision.RepeatsLast v := by
  unfold variableUncontrolledDecision
  split
  · exact repeatsLast_test (by decide)
  · split
    · exact repeatsLast_stop (by decide)
    · split
      · next h => exact fun _ => ⟨h, rfl⟩
      · exact repeatsLast_stop (by decide)

theorem repeatsLast_noisyStop {inconclusive : String} {threshold : ℚ}
    (h : inconclusive ∉ repeatReasons) :
    (v.noisyStop inconclusive threshold).toDecision.RepeatsLast v := by
  unfold noisyStop
  split
  · exact repeatsLast_stop (by decide)
  · exact repeatsLast_stop h

variable {aggregates : List VariableCandidateAggregate}

theorem repeatsLast_noiseDecision {d : VariableDecision} (h : v.noiseDecision aggregates = some d) :
    d.toDecision.RepeatsLast v := by
  unfold noiseDecision at h
  split at h
  · cases h
  · simp only at h
    split at h
    · cases h
    · split at h
      · next hleft =>
        cases h
        exact fun _ => ⟨hleft, rfl⟩
      · cases h
        exact repeatsLast_noisyStop (by decide)

theorem repeatsLast_plateauDecision {d : VariableDecision}
    (h : v.plateauDecision aggregates = some d) :
    d.toDecision.RepeatsLast v := by
  unfold plateauDecision at h
  split at h
  · simp only at h
    split at h
    · cases h
    · split at h
      · split at h
        · cases h
          exact repeatsLast_stop (by decide)
        · cases h
          exact repeatsLast_stop (by decide)
      · cases h
        exact repeatsLast_stop (by decide)
  · cases h

theorem repeatsLast_descendDecision {d : VariableDecision}
    (h : v.descendDecision aggregates = .ok d) :
    d.toDecision.RepeatsLast v := by
  unfold descendDecision at h
  simp only at h
  split at h
  · split at h
    · cases h
      exact repeatsLast_stop (by decide)
    · cases h
      exact repeatsLast_stop (by decide)
  · split at h
    · cases h
      exact repeatsLast_stop (by decide)
    · split at h
      · cases h
      · cases h
        exact repeatsLast_stop (by decide)
      · split at h
        · cases h
          exact repeatsLast_test (by decide)
        · cases h
          exact repeatsLast_stop (by decide)

def Converged (v : SearchView) : Prop :=
  ∀ aggregate, (variableCandidateAggregates v.samples).find?
      (fun aggregate => aggregate.candidateKbps == v.last.rate) = some aggregate →
    aggregate.deltaSpreadMs ≤
      max (aggregate.medianDeltaMs * (10 / 100)) (variableLinkPlateauMinimumMs * 2)

/-- The lowest rate that passed is slower than the one above it, and passed fewer than three times,
although it was measured three times. -/
def MissesRepeats (v : SearchView) : Prop :=
  ∃ lower higher rest, (variableCandidateAggregates v.samples).reverse = lower :: higher :: rest ∧
    higher.medianDeltaMs + variablePlateauThresholdMs higher.medianDeltaMs lower.medianDeltaMs
      v.input.uncertaintyPercent < lower.medianDeltaMs ∧
    lower.repeatCount < maxSameCandidateObservations ∧
    maxSameCandidateObservations ≤ (atRate v.samples lower.candidateKbps).length

/-- A state in which a Variable Link search measures a rate too often: the last measurement passed
and its rate has converged, an attempt is left, and the lowest rate misses its repeats. -/
structure Overruns (v : SearchView) : Prop where
  profile : v.input.profile = .variableLink
  safe : v.last.metrics.resourceSafe = true
  reliable : v.last.metrics.measurementReliable = true
  left : v.attemptLeft = true
  converged : v.Converged
  misses : v.MissesRepeats

theorem noiseDecision_eq_none :
    v.noiseDecision (variableCandidateAggregates v.samples) = none ↔ v.Converged := by
  unfold noiseDecision Converged
  cases hfind : (variableCandidateAggregates v.samples).find?
      (fun aggregate => aggregate.candidateKbps == v.last.rate) with
  | none => exact iff_of_true rfl (fun aggregate h => by cases h)
  | some aggregate =>
    simp only [Option.some.injEq, forall_eq']
    split
    · next hle => exact iff_of_true rfl hle
    · next hlt =>
      refine iff_of_false ?_ hlt
      split
      · intro h
        cases h
      · intro h
        cases h

theorem monotoneDecision_cases {d : VariableDecision} (h : v.monotoneDecision aggregates = some d) :
    d.toDecision.RepeatsLast v ∨ ∃ lower higher rest, aggregates.reverse = lower :: higher :: rest ∧
      higher.medianDeltaMs + variablePlateauThresholdMs higher.medianDeltaMs lower.medianDeltaMs
        v.input.uncertaintyPercent < lower.medianDeltaMs ∧
      lower.repeatCount < maxSameCandidateObservations ∧ v.attemptLeft = true ∧
      d.nextCandidateKbps = some lower.candidateKbps := by
  unfold monotoneDecision at h
  split at h
  · next lower higher rest hreverse =>
    simp only at h
    split at h
    · cases h
    · next hslower =>
      split at h
      · next hrepeat =>
        cases h
        obtain ⟨hcount, hleft⟩ := Bool.and_eq_true_iff.mp hrepeat
        exact .inr ⟨lower, higher, rest, hreverse, not_le.mp hslower, of_decide_eq_true hcount,
          hleft, rfl⟩
      · cases h
        exact .inl (repeatsLast_noisyStop (by decide))
  · cases h

theorem Overruns.decides (h : v.Overruns) :
    ∃ rate, v.Decides rate ∧ maxSameCandidateObservations ≤ (atRate v.samples rate).length := by
  obtain ⟨lower, higher, rest, hreverse, hslower, hcount, htimes⟩ := h.misses
  have hmonotone : v.monotoneDecision (variableCandidateAggregates v.samples) =
      some { test "repeat-nonmonotonic-variable-candidate" lower.candidateKbps with
        plateauThresholdMs := variablePlateauThresholdMs higher.medianDeltaMs lower.medianDeltaMs
          v.input.uncertaintyPercent, noisy := true } := by
    unfold monotoneDecision
    rw [hreverse]
    have hrepeat : (decide (lower.repeatCount < maxSameCandidateObservations) && v.attemptLeft) =
        true := by
      rw [h.left, Bool.and_true, decide_eq_true_eq]
      exact hcount
    simp only [if_neg (not_le.mpr hslower), if_pos hrepeat]
  have hdecision : v.variableDecision (variableCandidateAggregates v.samples) =
      .ok { test "repeat-nonmonotonic-variable-candidate" lower.candidateKbps with
        plateauThresholdMs := variablePlateauThresholdMs higher.medianDeltaMs lower.medianDeltaMs
          v.input.uncertaintyPercent, noisy := true } := by
    unfold variableDecision passedDecision
    rw [if_neg (by rw [h.safe]; decide), if_neg (by rw [h.reliable]; decide),
      noiseDecision_eq_none.mpr h.converged, Option.none_or, hmonotone]
    rfl
  exact ⟨lower.candidateKbps, .inl ⟨h.profile, _, hdecision, rfl, rfl⟩, htimes⟩

theorem repeatsLast_within_budget (hsound : d.Sound v) (hlast : d.RepeatsLast v)
    (htest : d.action = .test) (hnext : d.nextCandidateKbps = some rate) :
    (atRate v.samples rate).length < maxSameCandidateObservations := by
  obtain ⟨rate', hnext', -, -, -, hreason⟩ := hsound.asks htest
  obtain rfl := Option.some.inj (hnext'.symm.trans hnext)
  by_cases hrepeat : d.reason ∈ repeatReasons
  · obtain ⟨hleft, hrate⟩ := hlast hrepeat
    obtain rfl := Option.some.inj (hrate.symm.trans hnext')
    exact of_decide_eq_true (Bool.and_eq_true_iff.mp hleft).1
  · -- a rate that was not measured has no samples
    have hempty : atRate v.samples rate' = [] := by
      refine eq_nil_iff_forall_not_mem.mpr fun s hs => hrepeat (hreason.mpr ?_)
      exact candidateWasTested_iff.mpr ⟨s, mem_atRate.mp hs⟩
    rw [hempty]
    decide

/-- **A rate that is asked for was measured three times exactly in a state that overruns.** -/
theorem Decides.overruns_iff (hv : v.Sound) (h : v.Decides rate) :
    maxSameCandidateObservations ≤ (atRate v.samples rate).length ↔ v.Overruns := by
  constructor
  · intro htimes
    rcases h with ⟨hprofile, d, hd, htest, hnext⟩ | ⟨hprofile, selected, d, hselected, hd, htest, hnext⟩
    · obtain ⟨d', hd', hsound⟩ := sound_variableDecision hv
      cases hd.symm.trans hd'
      have hnot : ¬d.toDecision.RepeatsLast v := fun hlast =>
        absurd htimes (not_le.mpr (repeatsLast_within_budget hsound.decision hlast htest hnext))
      unfold variableDecision at hd
      split at hd
      · cases hd
        exact absurd repeatsLast_variableResourceDecision hnot
      · next hsafe =>
        split at hd
        · cases hd
          exact absurd repeatsLast_variableUncontrolledDecision hnot
        · next hreliable =>
          unfold passedDecision at hd
          split at hd
          · next hexit =>
            cases hd
            rcases Option.or_eq_some_iff.mp hexit with hexit | ⟨-, hexit⟩
            · rcases Option.or_eq_some_iff.mp hexit with hexit | ⟨hnoise, hexit⟩
              · exact absurd (repeatsLast_noiseDecision hexit) hnot
              · rcases monotoneDecision_cases hexit with
                  hlast | ⟨lower, higher, rest, hreverse, hslower, hcount, hleft, hlower⟩
                · exact absurd hlast hnot
                · cases hnext.symm.trans hlower
                  exact ⟨hprofile, by simpa using hsafe, by simpa using hreliable, hleft,
                    noiseDecision_eq_none.mp hnoise, lower, higher, rest, hreverse, hslower, hcount,
                    htimes⟩
            · exact absurd (repeatsLast_plateauDecision hexit) hnot
          · exact absurd (repeatsLast_descendDecision hd) hnot
    · obtain ⟨selected', hselected', hmem⟩ := profileSelectedIndex_ok hprofile
      cases hselected.symm.trans hselected'
      obtain ⟨d', hd', hsound⟩ := sound_decision hv hmem
      cases hd.symm.trans hd'
      exact absurd htimes
        (not_le.mpr (repeatsLast_within_budget hsound (repeatsLast_decision hd) htest hnext))
  · intro hover
    obtain ⟨rate', hdecides, htimes⟩ := hover.decides
    rcases h with ⟨-, d, hd, -, hnext⟩ | ⟨hprofile, -⟩
    · rcases hdecides with ⟨-, d', hd', -, hnext'⟩ | ⟨hprofile', -⟩
      · cases hd.symm.trans hd'
        cases hnext.symm.trans hnext'
        exact htimes
      · exact absurd hover.profile hprofile'
    · exact absurd hover.profile hprofile

end SearchView

def ProfileSearchInput.timesMeasured (input : ProfileSearchInput) (rate : ℕ) : ℕ :=
  input.observations.countP fun o => o.candidateKbps == rate

def ProfileSearchInput.Overruns (input : ProfileSearchInput) : Prop :=
  ∃ v, input.view = .ok v ∧ v.Overruns

theorem length_atRate (input : ProfileSearchInput) (rate : ℕ) :
    (atRate input.samples rate).length = input.timesMeasured rate := by
  have hobservations : input.samples.map Sample.observation = input.observations := by
    unfold ProfileSearchInput.samples samplesOf ProfileSearchInput.metrics
    rw [map_map]
    have hfst : (fun entry : (SearchObservation × SearchObservationMetrics) × ℕ => entry.1.1) =
        Prod.fst ∘ Prod.fst := rfl
    show List.map (fun entry : (SearchObservation × SearchObservationMetrics) × ℕ => entry.1.1) _ = _
    rw [hfst, ← map_map, zipIdx_map_fst, map_fst_zip]
    rw [length_map]
  unfold timesMeasured atRate
  rw [← hobservations, countP_map, countP_eq_length_filter]
  rfl

theorem timesMeasured_observed (input : ProfileSearchInput) (a : LinkAnswer) (asked rate : ℕ) :
    (input.observed (a.observe asked)).timesMeasured rate =
      input.timesMeasured rate + if asked = rate then 1 else 0 := by
  unfold timesMeasured observed
  simp [LinkAnswer.observe]

theorem timesMeasured_le_run (answers : List LinkAnswer) :
    input.timesMeasured rate ≤
      (run (searchRound debugAssertions) input answers).timesMeasured rate := by
  have hround : ∀ s a, input.timesMeasured rate ≤ s.timesMeasured rate →
      input.timesMeasured rate ≤ (searchRound debugAssertions s a).timesMeasured rate := ?_
  · exact run_invariant hround le_rfl answers
  intro s a hle
  rcases searchRound_cases debugAssertions s a with ⟨asked, -, heq⟩ | ⟨-, heq⟩
  · rw [heq, timesMeasured_observed]
    exact hle.trans (Nat.le_add_right _ _)
  · rw [heq]
    exact hle

theorem Asks.overruns_iff (haccepted : input.Accepted) (h : Asks debugAssertions input rate) :
    maxSameCandidateObservations ≤ input.timesMeasured rate ↔ input.Overruns := by
  obtain ⟨v, hview, hinput, hv⟩ := haccepted.view
  obtain ⟨v', hview', hdecides⟩ := (asks_iff haccepted).mp h
  cases hview.symm.trans hview'
  have hsamples : v.samples = input.samples := hinput ▸ hv.samples
  rw [← length_atRate, ← hsamples, hdecides.overruns_iff hv]
  constructor
  · exact fun hover => ⟨v, hview, hover⟩
  · rintro ⟨v', hview', hover⟩
    rw [Except.ok.inj (hview.symm.trans hview')]
    exact hover

theorem ProfileSearchInput.Overruns.asks (haccepted : input.Accepted) (h : input.Overruns) :
    ∃ rate, Asks debugAssertions input rate ∧
      maxSameCandidateObservations ≤ input.timesMeasured rate := by
  obtain ⟨v, hview, hover⟩ := h
  obtain ⟨rate, hdecides, -⟩ := hover.decides
  have hasks : Asks debugAssertions input rate :=
    (asks_iff haccepted).mpr ⟨v, hview, hdecides⟩
  exact ⟨rate, hasks, (hasks.overruns_iff haccepted).mpr ⟨v, hview, hover⟩⟩

theorem budget_round {a : LinkAnswer} (haccepted : input.Accepted)
    (hbudget : ∀ rate, input.timesMeasured rate ≤ maxSameCandidateObservations) :
    (∀ rate, (searchRound debugAssertions input a).timesMeasured rate ≤
      maxSameCandidateObservations) ↔ ¬input.Overruns := by
  constructor
  · intro hround hover
    obtain ⟨rate, hasks, -⟩ : ∃ rate, Asks debugAssertions input rate ∧
        maxSameCandidateObservations ≤ input.timesMeasured rate := hover.asks haccepted
    rcases searchRound_cases debugAssertions input a with ⟨asked, hasked, heq⟩ | ⟨hquiet, -⟩
    · have hover := (hasked.overruns_iff haccepted).mpr hover
      have hle := hround asked
      rw [heq, timesMeasured_observed, if_pos rfl] at hle
      omega
    · exact hquiet rate hasks
  · intro hover rate
    rcases searchRound_cases debugAssertions input a with ⟨asked, hasked, heq⟩ | ⟨-, heq⟩
    · rw [heq, timesMeasured_observed]
      by_cases hrate : asked = rate
      · subst hrate
        have hlt := not_le.mp fun htimes => hover ((hasked.overruns_iff haccepted).mp htimes)
        rw [if_pos rfl]
        omega
      · rw [if_neg hrate]
        exact hbudget rate
    · rw [heq]
      exact hbudget rate

/-- **A search keeps its repeat budget unless a slow lowest rate misses its repeats.**  For every
run that starts from one observation, whatever the link answers: no rate is measured more than
three times exactly if no state that is answered overruns. -/
theorem search_repeats_bounded (debugAssertions : Bool) (input : ProfileSearchInput)
    (haccepted : validateProfileSearchInput input = .ok ()) (hfirst : input.observations.length = 1)
    (answers : List LinkAnswer) (hanswers : ∀ a ∈ answers, a.Admissible) :
    (∀ rate, (run (searchRound debugAssertions) input answers).timesMeasured rate ≤
      maxSameCandidateObservations) ↔
    Along (searchRound debugAssertions) (fun s _ => ¬s.Overruns) input answers := by
  have hbudget : ∀ rate, input.timesMeasured rate ≤ maxSameCandidateObservations := by
    intro rate
    refine countP_le_length.trans ?_
    rw [hfirst]
    decide
  have hstart : Searched input input :=
    ⟨validate_iff.mp haccepted, rfl, rfl, rfl, le_max_left _ _⟩
  clear hfirst
  -- the induction keeps that the state is accepted and within the budget so far
  suffices hrun : ∀ s, Searched input s →
      (∀ rate, s.timesMeasured rate ≤ maxSameCandidateObservations) →
      ((∀ rate, (run (searchRound debugAssertions) s answers).timesMeasured rate ≤
        maxSameCandidateObservations) ↔
      Along (searchRound debugAssertions) (fun s _ => ¬s.Overruns) s answers) from
    hrun input hstart hbudget
  clear hstart hbudget
  induction answers with
  | nil => exact fun s _ hbudget => iff_of_true hbudget trivial
  | cons a answers ih =>
    intro s hs hbudget
    have hround : (∀ rate, (searchRound debugAssertions s a).timesMeasured rate ≤
        maxSameCandidateObservations) ↔ ¬s.Overruns := budget_round hs.accepted hbudget
    have hnext : Searched input (searchRound debugAssertions s a) :=
      searched_round (hanswers a mem_cons_self) hs
    have ih := ih (fun b hb => hanswers b (mem_cons_of_mem _ hb)) _ hnext
    show (∀ rate, (run (searchRound debugAssertions) (searchRound debugAssertions s a)
      answers).timesMeasured rate ≤ _) ↔ ¬s.Overruns ∧ Along _ _ _ answers
    constructor
    · intro hrun
      -- what a round measured too often stays measured too often
      have hafter := fun rate => (timesMeasured_le_run answers).trans (hrun rate)
      exact ⟨hround.mp hafter, (ih hafter).mp hrun⟩
    · rintro ⟨hover, halong⟩
      exact (ih (hround.mpr hover)).mpr halong

def slowStart : ProfileSearchInput where
  profile := .variableLink
  direction := .download
  observedLowKbps := 100000
  minimumKbps := 50000
  upperKbps := 100000
  thresholds := AutotuneProfile.variableLink.validationThresholds
  uncertaintyPercent := 3 / 2
  maxAttempts := 12
  observations := [⟨100000, 95000, 95000, 0, 20, false, 0, 50⟩]

def slowAnswer : LinkAnswer := ⟨85000, 80000, 0, 60, false, 0, 50⟩

def slowAnswers : List LinkAnswer :=
  [{ slowAnswer with lossPercent := 10 }, slowAnswer, slowAnswer, slowAnswer]

theorem slowAnswers_admissible : ∀ a ∈ slowAnswers, a.Admissible := by
  have hlossy : ({ slowAnswer with lossPercent := 10 } : LinkAnswer).Admissible := by
    constructor <;> decide
  have hslow : slowAnswer.Admissible := by
    constructor <;> decide
  unfold slowAnswers
  simp only [forall_mem_cons]
  exact ⟨hlossy, hslow, hslow, hslow, by simp⟩

theorem search_repeats_bounded_slow :
    ¬Along (searchRound true) (fun s _ => ¬s.Overruns) slowStart slowAnswers := by
  rw [← search_repeats_bounded true slowStart (by decide +kernel) (by decide) slowAnswers
    slowAnswers_admissible]
  intro hbudget
  exact absurd (hbudget 85000) (by decide +kernel)

theorem search_repeats_unbounded :
    validateProfileSearchInput slowStart = .ok () ∧ slowStart.observations.length = 1 ∧
      (∀ a ∈ slowAnswers, a.Admissible) ∧
      maxSameCandidateObservations <
        (run (searchRound true) slowStart slowAnswers).timesMeasured 85000 :=
  ⟨by decide +kernel, by decide, slowAnswers_admissible, by decide +kernel⟩

end CakeAutorate.Autotune
