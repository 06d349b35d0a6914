/-
# Which terminal searches are reviewable

The search selects single observations, and Review judges rates: a rate with one observation above
the loss limit has no candidate, also when another observation of it passed.
-/

import CakeAutorate.Autotune.SearchBounds

namespace CakeAutorate.Autotune

open Machine List Or Sample AutotuneProfile

/-- A rate has evidence: a sample passed, a censored one can be reviewed, or two of low realization
repeat one another. -/
def EvidenceAt (samples : List Sample) (rate : ℕ) : Prop :=
  controlledAt samples rate ≠ [] ∨ censoredAt samples rate ≠ [] ∨
    (lowRealizationReviewCandidate samples rate).isSome = true

instance (samples : List Sample) (rate : ℕ) : Decidable (EvidenceAt samples rate) :=
  inferInstanceAs (Decidable (_ ∨ _ ∨ _))

def LosslessAt (samples : List Sample) (rate : ℕ) : Prop :=
  ∀ s ∈ atRate samples rate, s.metrics.resourceSafe = true

instance (samples : List Sample) (rate : ℕ) : Decidable (LosslessAt samples rate) :=
  inferInstanceAs (Decidable (∀ s ∈ atRate samples rate, _))

/-- **Some evidence is free of loss.**  If a measured rate has evidence, one that has evidence has no
observation above the loss limit. -/
def ProfileSearchInput.EvidenceKept (input : ProfileSearchInput) : Prop :=
  (∃ rate ∈ testedRates input.samples, EvidenceAt input.samples rate) →
    ∃ rate ∈ testedRates input.samples, EvidenceAt input.samples rate ∧ LosslessAt input.samples rate

instance (input : ProfileSearchInput) : Decidable input.EvidenceKept :=
  inferInstanceAs (Decidable (_ → _))

variable {samples : List Sample} {rate : ℕ}

theorem lowRealization_isSome {s t : Sample} (hs : s ∈ lowRealizationBounded samples rate)
    (ht : t ∈ lowRealizationBounded samples rate) (hne : s.index ≠ t.index)
    (hrepeat : achievedRatesRepeatable s.achieved t.achieved = true)
    (hrepeat' : achievedRatesRepeatable t.achieved s.achieved = true) :
    (lowRealizationReviewCandidate samples rate).isSome = true := by
  have hdistinct : s ≠ t := fun heq => hne (congrArg index heq)
  have hmem : ∀ a b : Sample, a ∈ lowRealizationBounded samples rate →
      b ∈ lowRealizationBounded samples rate → a.index ≠ b.index →
      achievedRatesRepeatable a.achieved b.achieved = true →
      a ∈ lowRealizationRepeatable samples rate := by
    intro a b ha hb hab hrepeats
    rw [lowRealizationRepeatable, mem_filter, any_eq_true]
    refine ⟨ha, b, hb, ?_⟩
    rw [Bool.and_eq_true, bne_iff_ne]
    exact ⟨hab, hrepeats⟩
  have hs' := hmem s t hs ht hne hrepeat
  have ht' := hmem t s ht hs (Ne.symm hne) hrepeat'
  obtain ⟨selected, hselected⟩ : ∃ selected,
      maxBy byCaution (lowRealizationRepeatable samples rate) = some selected := maxBy_of_mem hs'
  unfold lowRealizationReviewCandidate
  simp only [if_neg (not_lt.mpr (two_le_length hs ht hdistinct)),
    if_neg (not_lt.mpr (two_le_length hs' ht' hdistinct))]
  cases hmin : ((lowRealizationRepeatable samples rate).map achieved).min? with
  | none =>
    rw [min?_eq_none_iff, map_eq_nil_iff] at hmin
    rw [hmin] at hs'
    cases hs'
  | some n =>
    rw [hselected]
    rfl

theorem exists_repeatable (h : (lowRealizationReviewCandidate samples rate).isSome = true) :
    ∃ s, s ∈ lowRealizationRepeatable samples rate := by
  obtain ⟨c, hc⟩ := Option.isSome_iff_exists.mp h
  obtain ⟨s, hs, -⟩ := mem_map.mp (min?_mem (lowRealization_conservative hc))
  exact ⟨s, hs⟩

theorem EvidenceAt.tested (h : EvidenceAt samples rate) : ∃ s ∈ samples, s.rate = rate := by
  rcases h with h | h | h
  · obtain ⟨s, hs⟩ := exists_mem_of_ne_nil _ h
    exact ⟨s, mem_atRate.mp (mem_filter.mp hs).1⟩
  · obtain ⟨s, hs⟩ := exists_mem_of_ne_nil _ h
    exact ⟨s, mem_atRate.mp (mem_filter.mp hs).1⟩
  · obtain ⟨s, hs⟩ := exists_repeatable h
    exact ⟨s, mem_atRate.mp (mem_filter.mp (repeatable_corroborated hs)).1⟩

theorem reviewGroup_some :
    (∃ group, reviewGroup samples rate = some group ∧ group.1 ≠ []) ↔
      EvidenceAt samples rate ∧ LosslessAt samples rate := by
  constructor
  · rintro ⟨group, h, -⟩
    unfold reviewGroup at h
    split at h
    · cases h
    · next hclean =>
      rw [not_or] at hclean
      have hlossless : LosslessAt samples rate := by
        intro s hs
        have := any_eq_false.mp (Bool.eq_false_iff.mpr hclean.2) s hs
        simpa using this
      refine ⟨?_, hlossless⟩
      split at h
      · next hcontrolled => exact inl (isEmpty_eq_false_iff.mp hcontrolled)
      · split at h
        · next hcensored => exact inr (inl (isEmpty_eq_false_iff.mp hcensored))
        · obtain ⟨c, hc, -⟩ := Option.map_eq_some_iff.mp h
          exact inr (inr (by rw [hc]; rfl))
  · rintro ⟨hevidence, hlossless⟩
    obtain ⟨s, hs⟩ := hevidence.tested
    have hmem := mem_atRate.mpr hs
    have hclean : ¬((atRate samples rate).isEmpty = true ∨
        (atRate samples rate).any (fun s => !s.metrics.resourceSafe) = true) := by
      rintro (hempty | hlost)
      · rw [List.isEmpty_iff] at hempty
        rw [hempty] at hmem
        cases hmem
      · obtain ⟨t, ht, hlost⟩ := any_eq_true.mp hlost
        rw [hlossless t ht] at hlost
        cases hlost
    unfold reviewGroup
    rw [if_neg hclean]
    split
    · next hcontrolled => exact ⟨_, rfl, isEmpty_eq_false_iff.mp hcontrolled⟩
    · next hcontrolled =>
      split
      · next hcensored => exact ⟨_, rfl, isEmpty_eq_false_iff.mp hcensored⟩
      · next hcensored =>
        simp only [Bool.not_eq_false, List.isEmpty_iff] at hcontrolled hcensored
        rcases hevidence with h | h | h
        · exact absurd hcontrolled h
        · exact absurd hcensored h
        · obtain ⟨c, hc⟩ := Option.isSome_iff_exists.mp h
          obtain ⟨t, ht⟩ := exists_repeatable h
          rw [hc]
          exact ⟨_, rfl, ne_nil_of_mem (repeatable_corroborated ht)⟩

variable {result : ProfileSearchResult}

theorem reviewCandidate_of_evidence
    (h : EvidenceAt result.samples rate ∧ LosslessAt result.samples rate) :
    ∃ c ∈ reviewCandidates result, c.candidateKbps = rate := by
  obtain ⟨group, hgroup, hne⟩ := reviewGroup_some.mpr h
  obtain ⟨s, hs⟩ := exists_mem_of_ne_nil _ hne
  obtain ⟨selected, hselected⟩ : ∃ selected, maxBy byCaution group.1 = some selected :=
    maxBy_of_mem hs
  cases hmin : (group.1.map achieved).min? with
  | none =>
    rw [min?_eq_none_iff, map_eq_nil_iff] at hmin
    exact absurd hmin hne
  | some n =>
    have hcandidate : ∃ c, reviewCandidateForRate result rate = some c := by
      unfold reviewCandidateForRate
      simp only [bind, hgroup, Option.bind_some, hmin, hselected]
      exact ⟨_, rfl⟩
    obtain ⟨c, hc⟩ := hcandidate
    have hrate := (reviewCandidateForRate_shows hc).1
    refine ⟨c, mem_reviewCandidates.mpr ?_, hrate⟩
    rw [hrate]
    exact hc

/-- **A rate has a Review candidate** exactly when it has evidence and no loss. -/
theorem exists_reviewCandidate :
    (∃ c, c ∈ reviewCandidates result) ↔
      ∃ rate, EvidenceAt result.samples rate ∧ LosslessAt result.samples rate := by
  constructor
  · rintro ⟨c, hc⟩
    refine ⟨c.candidateKbps, reviewGroup_some.mp ?_⟩
    have h := mem_reviewCandidates.mp hc
    unfold reviewCandidateForRate at h
    simp only [bind, Option.bind_eq_some_iff] at h
    obtain ⟨group, hgroup, n, hmin, -⟩ := h
    refine ⟨group, hgroup, fun hnil => ?_⟩
    rw [hnil] at hmin
    cases hmin
  · rintro ⟨rate, h⟩
    obtain ⟨c, hc, -⟩ := reviewCandidate_of_evidence h
    exact ⟨c, hc⟩

theorem evident_iff : Evident samples ↔ ∃ rate, EvidenceAt samples rate := by
  constructor
  · rintro ((⟨s, hs, hpass⟩ | ⟨s, hs⟩) | ⟨s, hs⟩)
    · refine ⟨s.rate, inl (ne_nil_of_mem (a := s) ?_)⟩
      exact mem_filter.mpr ⟨mem_atRate.mpr ⟨hs, rfl⟩, hpass⟩
    · obtain ⟨c, hc, -⟩ := Option.map_eq_some_iff.mp hs
      obtain ⟨rate, -, hrate⟩ := mem_filterMap.mp (maxBy_mem hc)
      exact ⟨rate, inr (inr (by rw [hrate]; rfl))⟩
    · obtain ⟨hmem, hcensored⟩ := maxBy_filter hs
      refine ⟨s.rate, inr (inl (ne_nil_of_mem (a := s) ?_))⟩
      exact mem_filter.mpr ⟨mem_atRate.mpr ⟨hmem, rfl⟩, hcensored⟩
  · rintro ⟨rate, hevidence⟩
    have htested := hevidence.tested
    rcases hevidence with h | h | h
    · obtain ⟨s, hs⟩ := exists_mem_of_ne_nil _ h
      rw [controlledAt, mem_filter, mem_atRate] at hs
      exact inl (inl ⟨s, hs.1.1, hs.2⟩)
    · obtain ⟨s, hs⟩ := exists_mem_of_ne_nil _ h
      rw [censoredAt, mem_filter, mem_atRate] at hs
      exact inr (maxBy_of_mem (mem_filter.mpr ⟨hs.1.1, hs.2⟩))
    · obtain ⟨c, hc⟩ := Option.isSome_iff_exists.mp h
      have hmem : c ∈ (testedRates samples).filterMap (lowRealizationReviewCandidate samples) :=
        mem_filterMap.mpr ⟨rate, mem_testedRates.mpr htested, hc⟩
      refine inl (inr ?_)
      obtain ⟨best, hbest⟩ := maxBy_of_mem hmem
      exact ⟨best.selected, Option.map_eq_some_iff.mpr ⟨best, hbest, rfl⟩⟩

variable {input : ProfileSearchInput}

theorem evidenceKept_iff (h : Evident input.samples) :
    input.EvidenceKept ↔ ∃ rate, EvidenceAt input.samples rate ∧ LosslessAt input.samples rate := by
  constructor
  · intro hkept
    obtain ⟨rate, hrate⟩ := evident_iff.mp h
    obtain ⟨clean, -, hclean⟩ := hkept ⟨rate, mem_testedRates.mpr hrate.tested, hrate⟩
    exact ⟨clean, hclean⟩
  · rintro ⟨rate, hrate⟩ -
    exact ⟨rate, mem_testedRates.mpr hrate.1.tested, hrate⟩

theorem evidenceKept_of_not_evident (h : ¬Evident input.samples) : input.EvidenceKept := by
  rintro ⟨rate, -, hrate⟩
  exact absurd (evident_iff.mpr ⟨rate, hrate⟩) h

/-- **A terminal search is reviewable** exactly when evidence is kept. -/
theorem optimize_aligned {debugAssertions : Bool} (haccepted : input.Accepted)
    (h : optimizeProfileDirection debugAssertions input = .ok result)
    (hterminal : result.action.terminal = true) :
    result.validateReviewAlignment debugAssertions = .ok () ↔ input.EvidenceKept := by
  obtain ⟨raw, heq, hsound⟩ := optimize_eq debugAssertions haccepted
  rw [heq] at h
  have hraw : raw.action.terminal = true := by
    rw [← (aligned_of_ok h).terminal]
    exact hterminal
  rw [validate_align_iff h hterminal, exists_reviewCandidate, hsound.samples,
    evidenceKept_iff (hsound.evident hraw)]

theorem achievedRatesRepeatable_comm (a b : ℕ) :
    achievedRatesRepeatable a b = achievedRatesRepeatable b a := by
  unfold achievedRatesRepeatable
  rw [max_comm, min_comm]

theorem getElem?_markReviewable (indices : List ℕ) (metrics : List SearchObservationMetrics)
    (i : ℕ) :
    (markReviewable indices metrics)[i]? = metrics[i]?.map fun m =>
      if indices.contains i then { m with manualReviewable := true } else m := by
  unfold markReviewable
  rw [getElem?_map, getElem?_zipIdx]
  cases metrics[i]? with
  | none => rfl
  | some m => simp

theorem physicalCapacity_group {group : List Sample}
    (h : physicalCapacityLimitedReviewIndices input input.samples = some group) :
    ∃ rate, LosslessAt input.samples rate ∧ ∃ s t, s ∈ group ∧ t ∈ group ∧
      s ∈ atRate input.samples rate ∧ t ∈ atRate input.samples rate ∧ s.index ≠ t.index ∧
      s.delta ≤ reviewLatencyMs ∧ t.delta ≤ reviewLatencyMs ∧
      achievedRatesRepeatable s.achieved t.achieved = true := by
  unfold physicalCapacityLimitedReviewIndices at h
  split at h
  · cases h
  · next hprofile =>
    obtain ⟨rate, -, hrate⟩ := mem_filterMap.mp (maxBy_mem h)
    unfold physicalCapacityLimitedAt at hrate
    simp only at hrate
    split at hrate
    · cases hrate
    · next hqualifies =>
      split at hrate
      · next hlength =>
        cases hrate
        simp only [not_or, Bool.not_eq_true] at hqualifies
        have hqualified : ∀ s ∈ atRate input.samples rate,
            physicalCapacityDisqualifies input s = false := by
          intro s hs
          have := any_eq_false.mp hqualifies.2.2 s hs
          exact Bool.eq_false_iff.mpr this
        have hsafe : ∀ s ∈ atRate input.samples rate,
            s.metrics.resourceSafe = true ∧ s.metrics.targetMet = true := by
          intro s hs
          have := hqualified s hs
          simp only [physicalCapacityDisqualifies, Bool.or_eq_false_iff, Bool.not_eq_false'] at this
          exact ⟨this.1.1.1.1.1.1.2, this.1.1.1.1.1.2⟩
        -- a sample that met the target of a Variable Link is within the latency bound
        have hdelta : ∀ s ∈ atRate input.samples rate, s.delta ≤ reviewLatencyMs := by
          intro s hs
          have htarget := (hsafe s hs).2
          have hmetrics := (mem_samples.mp (mem_atRate.mp hs).1).2
          have hprofile : input.profile = .variableLink := not_not.mp hprofile
          rw [hmetrics] at htarget
          simp only [evaluateSearchObservation, Bool.and_eq_true, decide_eq_true_eq, hprofile,
            targetDeltaMs] at htarget
          unfold delta reviewLatencyMs
          rw [hmetrics]
          simp only [evaluateSearchObservation]
          linarith [htarget.2]
        obtain ⟨s, hs⟩ : ∃ s, s ∈ physicalCapacityRepeatable (atRate input.samples rate) :=
          exists_mem_of_length_pos (by omega)
        have hpair := mem_filter.mp hs
        obtain ⟨t, ht, hst⟩ := any_eq_true.mp hpair.2
        simp only [Bool.and_eq_true, bne_iff_ne] at hst
        refine ⟨rate, fun s hs => (hsafe s hs).1, s, t, hs, ?_, hpair.1, ht, hst.1.1,
          hdelta s hpair.1, hdelta t ht, hst.1.2⟩
        refine mem_filter.mpr ⟨ht, any_eq_true.mpr ⟨s, hpair.1, ?_⟩⟩
        simp only [Bool.and_eq_true, bne_iff_ne]
        rw [achievedRatesRepeatable_comm, achievedRatesRepeatable_comm t.observation.realizedKbps]
        exact ⟨⟨Ne.symm hst.1.1, hst.1.2⟩, hst.2⟩
      · cases hrate

theorem physicalCapacity_evidence {group : List Sample}
    (h : physicalCapacityLimitedReviewIndices input input.samples = some group) :
    ∃ rate, EvidenceAt (samplesOf input.observations
        (markReviewable (group.map index) input.metrics)) rate ∧
      LosslessAt (samplesOf input.observations
        (markReviewable (group.map index) input.metrics)) rate := by
  obtain ⟨rate, hlossless, s, t, hs, ht, hsrate, htrate, hne, hsdelta, htdelta, hrepeat⟩ :=
    physicalCapacity_group h
  have hmarked : ∀ u ∈ group, u ∈ atRate input.samples rate → u.delta ≤ reviewLatencyMs →
      (⟨u.index, u.observation, { u.metrics with manualReviewable := true }⟩ : Sample) ∈
        lowRealizationBounded (samplesOf input.observations
          (markReviewable (group.map index) input.metrics)) rate := by
    intro u hu hrate hdelta
    obtain ⟨hmem, hrate⟩ := mem_atRate.mp hrate
    obtain ⟨ho, hm⟩ := mem_samplesOf.mp hmem
    rw [lowRealizationBounded, mem_filter, mem_samplesOf, getElem?_markReviewable, hm]
    have hcontains : (group.map index).contains u.index = true :=
      contains_iff_mem.mpr (mem_map_of_mem hu)
    refine ⟨⟨ho, by rw [Option.map_some, if_pos hcontains]⟩, ?_⟩
    simp only [Bool.and_eq_true, beq_iff_eq, decide_eq_true_eq]
    exact ⟨⟨hrate, trivial⟩, hdelta⟩
  refine ⟨rate, inr (inr ?_), ?_⟩
  · refine lowRealization_isSome (hmarked s hs hsrate hsdelta) (hmarked t ht htrate htdelta) hne
      hrepeat ?_
    rw [achievedRatesRepeatable_comm]
    exact hrepeat
  · intro u hu
    obtain ⟨hmem, hrate⟩ := mem_atRate.mp hu
    obtain ⟨ho, hm⟩ := mem_samplesOf.mp hmem
    rw [getElem?_markReviewable] at hm
    obtain ⟨m, hm', heq⟩ := Option.map_eq_some_iff.mp hm
    have hsafe : m.resourceSafe = true := by
      refine hlossless ⟨u.index, u.observation, m⟩ (mem_atRate.mpr ⟨?_, hrate⟩)
      exact mem_samplesOf.mpr ⟨ho, hm'⟩
    rw [← heq]
    split
    · exact hsafe
    · exact hsafe

theorem physicalFallback_cases {reason : String} {result fallen : ProfileSearchResult}
    (haccepted : input.Accepted) (hmetrics : result.metrics = input.metrics)
    (h : physicalFallback input reason (settle input input.samples .inconclusive reason none) result =
      .ok fallen) :
    fallen.observations = result.observations ∧
      (fallen.action.terminal = false ∨ Evident input.samples ∧ fallen.metrics = input.metrics ∨
        ¬Evident input.samples ∧ ∃ group,
          physicalCapacityLimitedReviewIndices input input.samples = some group ∧
          fallen.metrics = markReviewable (group.map index) input.metrics) := by
  have huncertainty : 0 ≤ input.uncertaintyPercent := (of_decide_eq_true haccepted.uncertainty).1
  have hnone : ∀ s : Sample, none = some s → s ∈ input.samples := by
    intro s hs
    cases hs
  have hsettled := settle_inconclusive reason huncertainty hnone
  unfold physicalFallback at h
  rcases hsettled with ⟨haction, hevident⟩ | ⟨haction, hevident⟩
  · rw [if_neg (by rw [haction]; decide)] at h
    split at h
    · cases h
      exact ⟨rfl, inl (by rw [haction]; rfl)⟩
    · next group hgroup =>
      split at h
      · cases h
      · cases h
        refine ⟨rfl, inr (inr ⟨hevident, group, hgroup, ?_⟩)⟩
        rw [hmetrics]
  · rw [if_pos (by rw [haction]; decide)] at h
    cases h
    exact ⟨rfl, inr (inl ⟨hevident, hmetrics⟩)⟩

/-- **A search that is ended at a measured boundary is reviewable** exactly when evidence is kept. -/
theorem terminate_aligned {debugAssertions : Bool} {reason : String} (haccepted : input.Accepted)
    (h : terminateProfileDirectionAtMeasuredBoundary debugAssertions input reason = .ok result)
    (hterminal : result.action.terminal = true) :
    result.validateReviewAlignment debugAssertions = .ok () ↔ input.EvidenceKept := by
  obtain ⟨_, -, h⟩ := bind_ok.mp h
  obtain ⟨searched, hsearched, h⟩ := bind_ok.mp h
  split at h
  · cases h
    exact optimize_aligned haccepted hsearched hterminal
  · obtain ⟨raw, heq, hsound⟩ := optimize_eq debugAssertions haccepted
    rw [heq] at hsearched
    have hkept := aligned_of_ok hsearched
    have hmetrics : searched.metrics = input.metrics := hkept.metrics.trans hsound.metrics
    have hobservations : searched.observations = input.observations :=
      hkept.observations.trans hsound.observations
    obtain ⟨fallen, hfallen, h⟩ := bind_ok.mp h
    obtain ⟨hsame, hcases⟩ := physicalFallback_cases haccepted hmetrics hfallen
    have hobserved : fallen.observations = input.observations := hsame.trans hobservations
    have hfallenTerminal : fallen.action.terminal = true := by
      have := (aligned_of_ok h).terminal
      rw [hterminal] at this
      exact this.symm
    have hsamples : (boundaryRuntimeMinimum input fallen).samples =
        samplesOf input.observations fallen.metrics := by
      rw [← hobserved]
      rfl
    rw [validate_align_iff h hterminal, exists_reviewCandidate, hsamples]
    rcases hcases with hquiet | ⟨hevident, hfallenMetrics⟩ | ⟨hnone, group, hgroup, hmarked⟩
    · rw [hfallenTerminal] at hquiet
      cases hquiet
    · rw [hfallenMetrics, evidenceKept_iff hevident]
      exact Iff.rfl
    · rw [hmarked]
      exact iff_of_true (physicalCapacity_evidence hgroup) (evidenceKept_of_not_evident hnone)

/-- **Which terminal searches are reviewable.**  For every accepted input, a terminal result of the
search, or of its termination at a measured boundary, passes `validate_review_alignment` exactly when
some rate with evidence has no observation above the loss limit, if any rate has evidence. -/
theorem review_aligned (debugAssertions : Bool) (input : ProfileSearchInput)
    (haccepted : validateProfileSearchInput input = .ok ()) :
    (∀ result, optimizeProfileDirection debugAssertions input = .ok result →
      result.action.terminal = true →
      (result.validateReviewAlignment debugAssertions = .ok () ↔ input.EvidenceKept)) ∧
    (∀ reason result,
      terminateProfileDirectionAtMeasuredBoundary debugAssertions input reason = .ok result →
      result.action.terminal = true →
      (result.validateReviewAlignment debugAssertions = .ok () ↔ input.EvidenceKept)) :=
  ⟨fun _ => optimize_aligned (validate_iff.mp haccepted),
    fun _ _ => terminate_aligned (validate_iff.mp haccepted)⟩

def reviewedSearch : ProfileSearchInput where
  profile := .bestOverall
  direction := .download
  observedLowKbps := 100000
  minimumKbps := 80000
  upperKbps := 100000
  thresholds := bestOverall.validationThresholds
  uncertaintyPercent := 3 / 2
  maxAttempts := 2
  observations := [⟨100000, 95000, 95000, 0, 20, false, 50, 50⟩,
    ⟨80000, 78000, 78000, 0, 20, false, 0, 50⟩]

theorem review_aligned_search :
    ∃ result, optimizeProfileDirection true reviewedSearch = .ok result ∧
      result.action.terminal = true ∧ result.validateReviewAlignment true = .ok () := by
  have hends : ((optimizeProfileDirection true reviewedSearch).toOption.any
      fun result => result.action.terminal) = true := by decide +kernel
  obtain ⟨result, hsearch, hends⟩ := exists_of_any hends
  have hkept := (review_aligned true reviewedSearch (by decide +kernel)).1 result hsearch hends
  exact ⟨result, hsearch, hends, hkept.mpr (by decide +kernel)⟩

def lossyRepeat : ProfileSearchInput where
  profile := .gaming
  direction := .download
  observedLowKbps := 1000
  minimumKbps := 500
  upperKbps := 1000
  thresholds := gaming.validationThresholds
  uncertaintyPercent := 1
  maxAttempts := 2
  observations := [⟨1000, 950, 950, 0, 3, false, 0, 50⟩, ⟨1000, 950, 950, 0, 3, false, 50, 50⟩]

theorem review_misaligned :
    validateProfileSearchInput lossyRepeat = .ok () ∧
      ((optimizeProfileDirection false lossyRepeat).map fun result =>
        (result.action, result.selectedIndex, result.validateReviewAlignment false)) =
        .ok (.fallback, some 0,
          .error (.error "terminal profile search has no recommended Review candidate")) := by
  decide +kernel

end CakeAutorate.Autotune
