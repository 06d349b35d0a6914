/-
# The boundary of a monotone link

A link on which every measurement is reliable and loss free, a higher rate achieves more, and a rate
meets the target exactly up to a boundary. The bracket of a search is the highest rate that passed
and the lowest one that failed above it, so no measured rate lies strictly between them.
-/

import CakeAutorate.Autotune.SearchAlignment

namespace CakeAutorate.Autotune

open Machine List SearchView

/-- **A monotone link**: every measurement is reliable and within the loss limit (a measurement
without loss is), a higher rate achieves more, and a rate meets the target exactly up to a
boundary. -/
structure ProfileSearchInput.MonotoneLink (input : ProfileSearchInput) (boundary : ℕ) : Prop where
  reliable : ∀ o ∈ input.observations,
    (evaluateSearchObservation input o).measurementReliable = true
  safe : ∀ o ∈ input.observations, (evaluateSearchObservation input o).resourceSafe = true
  increasing : ∀ o ∈ input.observations, ∀ o' ∈ input.observations,
    o.candidateKbps < o'.candidateKbps → o.achievedKbps < o'.achievedKbps
  target : ∀ o ∈ input.observations,
    ((evaluateSearchObservation input o).targetMet = true ↔ o.candidateKbps ≤ boundary)

/-- What the samples of a monotone link are: each passed, a higher rate achieved more, and the target
was met up to the boundary. -/
structure MonotoneSamples (samples : List Sample) (boundary : ℕ) : Prop where
  reliable : ∀ s ∈ samples, s.metrics.measurementReliable = true
  safe : ∀ s ∈ samples, s.metrics.resourceSafe = true
  passed : ∀ s ∈ samples, s.metrics.safetyPass = true
  increasing : ∀ s ∈ samples, ∀ t ∈ samples, s.rate < t.rate → s.achieved < t.achieved
  target : ∀ s ∈ samples, (s.metrics.targetMet = true ↔ s.rate ≤ boundary)

variable {input : ProfileSearchInput} {boundary : ℕ} {debugAssertions : Bool}

theorem ProfileSearchInput.MonotoneLink.samples (h : input.MonotoneLink boundary) :
    MonotoneSamples input.samples boundary := by
  have hobserved : ∀ s ∈ input.samples, s.observation ∈ input.observations := fun s hs =>
    mem_of_getElem? (mem_samples.mp hs).1
  have hmetrics : ∀ s ∈ input.samples,
      s.metrics = evaluateSearchObservation input s.observation := fun s hs => (mem_samples.mp hs).2
  have hreliable : ∀ s ∈ input.samples, s.metrics.measurementReliable = true := by
    intro s hs
    rw [hmetrics s hs]
    exact h.reliable _ (hobserved s hs)
  have hsafe : ∀ s ∈ input.samples, s.metrics.resourceSafe = true := by
    intro s hs
    rw [hmetrics s hs]
    exact h.safe _ (hobserved s hs)
  refine ⟨hreliable, hsafe, fun s hs => ?_, fun s hs t ht hlt => ?_, fun s hs => ?_⟩
  · have hreliable := hreliable s hs
    have hsafe := hsafe s hs
    rw [hmetrics s hs] at hreliable hsafe ⊢
    exact Bool.and_eq_true_iff.mpr ⟨hreliable, hsafe⟩
  · exact h.increasing _ (hobserved s hs) _ (hobserved t ht) hlt
  · rw [hmetrics s hs]
    exact h.target _ (hobserved s hs)

theorem midpointCandidate_inside {lower upper : ℕ} (h : lower + 200 < upper)
    (hupper : upper ≤ maxRate) :
    ∃ m, midpointCandidate lower upper = .ok m ∧ lower < m ∧ m < upper := by
  unfold midpointCandidate
  rw [checkedSub_of_le (by omega)]
  refine ⟨_, rfl, ?_⟩
  have hgap : ((upper - lower : ℕ) : ℚ) = (upper : ℚ) - lower := by
    rw [Nat.cast_sub (by omega)]
  have hwide : (lower : ℚ) + 200 < upper := by exact_mod_cast h
  have hinside : lower < roundedSearchRate (lower + ((upper - lower : ℕ) : ℚ) / 2) ∧
      roundedSearchRate (lower + ((upper - lower : ℕ) : ℚ) / 2) < upper := by
    rw [hgap]
    unfold roundedSearchRate
    generalize hx : (lower : ℚ) + ((upper : ℚ) - lower) / 2 = x
    have hx100 : max x 100 = x := max_eq_left (by linarith)
    rw [hx100]
    have hceil : x / 100 ≤ (⌈x / 100⌉ : ℚ) := Int.le_ceil _
    have hceil' : (⌈x / 100⌉ : ℚ) < x / 100 + 1 := Int.ceil_lt_add_one _
    have hlow : ((lower : ℤ) : ℚ) < ((⌈x / 100⌉ * 100 : ℤ) : ℚ) := by
      push_cast
      linarith
    have hhigh : ((⌈x / 100⌉ * 100 : ℤ) : ℚ) < ((upper : ℤ) : ℚ) := by
      push_cast
      linarith
    have hlow : (lower : ℤ) < ⌈x / 100⌉ * 100 := by exact_mod_cast hlow
    have hhigh : ⌈x / 100⌉ * 100 < (upper : ℤ) := by exact_mod_cast hhigh
    rw [if_neg (by omega)]
    omega
  omega

theorem bisect_none {v : SearchView} {lower upper : ℕ} (hle : lower ≤ upper)
    (hupper : upper ≤ maxRate) (h : v.bisect lower upper = .ok none) :
    upper ≤ lower + max v.resolution 200 ∨ ∃ s ∈ v.samples, lower < s.rate ∧ s.rate < upper := by
  by_cases hwide : lower + max v.resolution 200 < upper
  · right
    have hresolution : v.resolution < upper - lower := by
      have := le_max_left v.resolution 200
      omega
    have hapart : lower + 200 < upper := by
      have := le_max_right v.resolution 200
      omega
    obtain ⟨m, hm, hlow, hhigh⟩ := midpointCandidate_inside hapart hupper
    unfold bisect at h
    rw [checkedSub_of_le hle] at h
    simp only [bind, Except.bind, if_pos hresolution, hm, pure, Except.pure] at h
    have htested : ¬v.untested m = true := by
      intro huntested
      rw [if_pos ⟨hlow, hhigh, huntested⟩] at h
      cases h
    unfold untested at htested
    rw [Bool.not_eq_true', Bool.not_eq_false] at htested
    obtain ⟨s, hs, rfl⟩ := candidateWasTested_iff.mp htested
    exact ⟨s, hs, hlow, hhigh⟩
  · exact .inl (not_lt.mp hwide)

def boundaryReasons : List String :=
  ["maximum-target-grade-bounded", "maximum-target-grade-confirmed"]

namespace SearchView

variable {v : SearchView} {boundary : ℕ}

theorem lowerTargetPass_spec (hlink : MonotoneSamples v.samples boundary) {lower : ℕ}
    (h : v.lowerTargetPass = some lower) :
    lower ≤ boundary ∧ (∃ s ∈ v.samples, s.rate = lower) ∧
      ∀ s ∈ v.samples, s.metrics.targetMet = true → s.rate ≤ lower := by
  obtain ⟨low, hlow, rfl⟩ := mem_map.mp (max?_mem h)
  rw [mem_filter, Bool.and_eq_true] at hlow
  refine ⟨(hlink.target low hlow.1).mp hlow.2.2, ⟨low, hlow.1, rfl⟩, fun s hs htarget => ?_⟩
  refine (max?_le_iff h).mp le_rfl s.rate (mem_map_of_mem ?_)
  exact mem_filter.mpr ⟨hs, Bool.and_eq_true_iff.mpr ⟨hlink.passed s hs, htarget⟩⟩

/-- **A search that has found its boundary** is at the upper bound, or a rate close above failed. -/
theorem targetDecision_boundary (hv : v.Sound) (hlink : MonotoneSamples v.samples boundary)
    {lower : ℕ} (hlower : v.lowerTargetPass = some lower) {d : Decision}
    (hd : v.targetDecision lower = .ok d) (hreason : d.reason ∈ boundaryReasons) :
    d.action = .complete ∧ (lower = v.input.upperKbps ∨ ∃ s ∈ v.samples, lower < s.rate ∧
      s.rate ≤ lower + max v.resolution 200 ∧ s.metrics.targetMet = false) := by
  obtain ⟨-, ⟨low, hlow, rfl⟩, hpassed⟩ := lowerTargetPass_spec hlink hlower
  have hlowRate := hv.rate_mem hlow
  unfold targetDecision at hd
  split at hd
  · next upper hupper =>
    obtain ⟨high, hhigh, rfl⟩ := mem_map.mp (min?_mem hupper)
    rw [mem_filter] at hhigh
    simp only [Bool.and_eq_true, Bool.or_eq_true, Bool.not_eq_true', decide_eq_true_eq] at hhigh
    obtain ⟨hmem, ⟨hlt, -⟩, hfailed⟩ := hhigh
    have hfailed : high.metrics.targetMet = false := by
      rcases hfailed with hfailed | hfailed
      · exact hfailed
      · rw [hlink.safe high hmem] at hfailed
        cases hfailed
    obtain ⟨middle, hmiddle, hd⟩ := bind_ok.mp hd
    cases hd
    cases middle with
    | some next => exact absurd hreason (by show "bisect-quality-boundary" ∉ boundaryReasons; decide)
    | none =>
      refine ⟨rfl, .inr ⟨high, hmem, hlt, ?_, hfailed⟩⟩
      rcases bisect_none hlt.le ((hv.rate_mem hmem).2.trans hv.accepted.bounds.2.2) hmiddle with
        hclose | ⟨s, hs, hlow', hhigh'⟩
      · exact hclose
      · -- a rate inside the bracket passed and is too high, or failed and is too low
        by_cases htarget : s.metrics.targetMet = true
        · have := hpassed s hs htarget
          omega
        · have hfails : s ∈ v.samples.filter (fun s => decide (low.rate < s.rate) &&
              s.metrics.measurementReliable && (!s.metrics.targetMet || !s.metrics.resourceSafe)) := by
            refine mem_filter.mpr ⟨hs, ?_⟩
            simp only [Bool.and_eq_true, Bool.or_eq_true, Bool.not_eq_true', decide_eq_true_eq]
            exact ⟨⟨hlow', hlink.reliable s hs⟩, .inl (Bool.eq_false_iff.mpr htarget)⟩
          have := (le_min?_iff hupper).mp le_rfl s.rate (mem_map_of_mem hfails)
          omega
  · next hnone =>
    cases hd
    split at hreason
    · exact absurd hreason (by show "test-quality-upper-bound" ∉ boundaryReasons; decide)
    · next hconfirmed =>
      rw [if_neg hconfirmed]
      refine ⟨rfl, .inl ?_⟩
      by_contra hne
      have hlt : low.rate < v.input.upperKbps := lt_of_le_of_ne hlowRate.2 hne
      have htested : ¬v.untested v.input.upperKbps = true := fun h => hconfirmed ⟨hlt, h⟩
      unfold untested at htested
      rw [Bool.not_eq_true', Bool.not_eq_false] at htested
      obtain ⟨s, hs, hrate⟩ := candidateWasTested_iff.mp htested
      by_cases htarget : s.metrics.targetMet = true
      · have := hpassed s hs htarget
        omega
      · -- the upper bound failed, so there is a lowest rate that failed
        unfold upperTargetFail at hnone
        rw [min?_eq_none_iff, map_eq_nil_iff] at hnone
        have hfails := filter_eq_nil_iff.mp hnone s hs
        simp only [Bool.and_eq_true, Bool.or_eq_true, Bool.not_eq_true', decide_eq_true_eq] at hfails
        exact hfails ⟨⟨by omega, hlink.reliable s hs⟩, .inl (Bool.eq_false_iff.mpr htarget)⟩

def SeeksTarget (v : SearchView) : Prop :=
  v.input.profile = .gaming ∨ v.input.profile = .gamingExtreme ∨ v.input.profile = .bestOverall

theorem decision_boundary (hv : v.Sound) (hlink : MonotoneSamples v.samples boundary)
    (hseeks : v.SeeksTarget) {selected : Option Sample} {d : Decision}
    (hd : v.decision selected = .ok d) (hreason : d.reason ∈ boundaryReasons) :
    ∃ lower, v.lowerTargetPass = some lower ∧ v.targetDecision lower = .ok d := by
  have hfair : ¬v.input.profile = .fair := by
    intro hfair
    rcases hseeks with h | h | h
    · rw [h] at hfair
      cases hfair
    · rw [h] at hfair
      cases hfair
    · rw [h] at hfair
      cases hfair
  unfold decision at hd
  rw [if_neg (by rw [hlink.reliable _ hv.last]; decide),
    if_neg (by rw [hlink.safe _ hv.last]; decide)] at hd
  split at hd
  · cases hd
    -- out of attempts
    exact absurd hreason (notMem_either (by decide) (by decide))
  · unfold qualityDecision at hd
    rw [hlink.passed _ hv.last, Bool.not_true, Bool.and_false, if_neg (by decide)] at hd
    split at hd
    · next lower hlower => exact ⟨lower, hlower, hd⟩
    · -- no rate passed
      exfalso
      unfold lowerQualityDecision at hd
      split at hd
      · obtain ⟨next, -, hd⟩ := bind_ok.mp hd
        cases hd
        exact absurd hreason (by show "search-lower-quality-candidate" ∉ boundaryReasons; decide)
      · split at hd
        · cases hd
          exact absurd hreason
            (by show "profile-search-has-no-safe-candidate" ∉ boundaryReasons; decide)
        · cases hd
          exact absurd hreason (notMem_either (by decide) (by decide))

end SearchView

/-- `finish` gives a reason of its own, or the one of the exit. -/
theorem settle_reason {samples : List Sample} {action : ProfileSearchAction} {reason : String}
    {selected : Option Sample}
    (h : (settle input samples action reason selected).reason ∈ boundaryReasons) :
    reason ∈ boundaryReasons := by
  have hkeep : ∀ {point : Option Sample} {kept : String} {settled : Settled},
      kept ∉ boundaryReasons → (keepForReview point kept settled).reason ∈ boundaryReasons →
      settled.reason ∈ boundaryReasons := by
    intro point kept settled hkept hmem
    unfold keepForReview at hmem
    split at hmem
    · exact hmem
    · split at hmem
      · exact hmem
      · exact absurd hmem hkept
  exact hkeep (by decide) (hkeep (by decide) h)

variable {result : ProfileSearchResult}

theorem reviewCandidate_passed {rate : ℕ} {c : ReviewCandidate}
    (hpassed : ∀ s ∈ atRate result.samples rate, s.metrics.safetyPass = true)
    (h : reviewCandidateForRate result rate = some c) :
    (∃ s ∈ atRate result.samples rate, s.achieved = c.conservativeAchievedKbps) ∧
      (∀ s ∈ atRate result.samples rate, c.conservativeAchievedKbps ≤ s.achieved) ∧
      (∃ s ∈ atRate result.samples rate, s.delta = c.worstDeltaMs) ∧
      ∀ s ∈ atRate result.samples rate, s.delta ≤ c.worstDeltaMs := by
  unfold reviewCandidateForRate at h
  simp only [bind, Option.bind_eq_some_iff, pure, Option.some.injEq] at h
  obtain ⟨group, hgroup, conservative, hmin, selected, hselected, rfl⟩ := h
  have hall : controlledAt result.samples rate = atRate result.samples rate :=
    filter_eq_self.mpr hpassed
  have hsame : group.1 = atRate result.samples rate := by
    unfold reviewGroup at hgroup
    rw [hall] at hgroup
    split at hgroup
    · cases hgroup
    · next hclean =>
      rw [not_or] at hclean
      rw [if_pos (by simpa using hclean.1)] at hgroup
      rw [← Option.some.inj hgroup]
  rw [hsame] at hmin hselected
  obtain ⟨slow, hslow, hachieved⟩ := mem_map.mp (min?_mem hmin)
  refine ⟨⟨slow, hslow, hachieved⟩, fun s hs => ?_, ⟨selected, maxBy_mem hselected, rfl⟩, ?_⟩
  · exact (le_min?_iff hmin).mp le_rfl s.achieved (mem_map_of_mem hs)
  · refine maxBy_greatest (r := fun a b : Sample => a.delta ≤ b.delta) (fun _ => le_rfl)
      (fun _ _ _ => le_trans) (fun a b hgt => ?_) (fun a b hle => ?_) hselected
    · exact le_of_thenGt hgt
    · exact le_of_thenNotGt hle

/-- **The boundary is not dominated.**  The candidate of the highest rate that met the target is in
the frontier. -/
theorem frontier_boundary {lower : ℕ} (hlink : MonotoneSamples result.samples boundary)
    (hlower : ∃ s ∈ result.samples, s.rate = lower ∧ s.metrics.targetMet = true)
    (hpassed : ∀ s ∈ result.samples, s.metrics.targetMet = true → s.rate ≤ lower)
    (hdelta : ∀ s ∈ result.samples, ∀ t ∈ result.samples, s.metrics.targetMet = true →
      t.metrics.targetMet = false → s.delta < t.delta) :
    ∃ c ∈ reviewFrontier result, c.candidateKbps = lower := by
  obtain ⟨low, hlow, rfl, htarget⟩ := hlower
  have hat : ∀ {rate : ℕ}, ∀ s ∈ atRate result.samples rate, s ∈ result.samples ∧ s.rate = rate :=
    fun s hs => mem_atRate.mp hs
  have hsafety : ∀ {rate : ℕ}, ∀ s ∈ atRate result.samples rate, s.metrics.safetyPass = true :=
    fun s hs => hlink.passed s (hat s hs).1
  have hevidence : EvidenceAt result.samples low.rate ∧ LosslessAt result.samples low.rate := by
    refine ⟨.inl (ne_nil_of_mem (a := low) ?_), fun s hs => hlink.safe s (hat s hs).1⟩
    exact mem_filter.mpr ⟨mem_atRate.mpr ⟨hlow, rfl⟩, hlink.passed low hlow⟩
  obtain ⟨c, hc, hrate⟩ := reviewCandidate_of_evidence hevidence
  refine ⟨c, mem_filter.mpr ⟨hc, ?_⟩, hrate⟩
  rw [Bool.not_eq_true', any_eq_false]
  intro other hother hdominates
  simp only [ReviewCandidate.dominates, Bool.and_eq_true, decide_eq_true_eq, bne_iff_ne] at hdominates
  obtain ⟨⟨⟨⟨hne, -⟩, hachieved⟩, hworst⟩, -⟩ := hdominates
  have hcandidate := mem_reviewCandidates.mp hc
  rw [hrate] at hcandidate
  obtain ⟨⟨slow, hslow, hslowAchieved⟩, -, ⟨worst, hworstMem, hworstDelta⟩, -⟩ :=
    reviewCandidate_passed hsafety hcandidate
  obtain ⟨⟨t, ht, htAchieved⟩, -, -, hother'⟩ :=
    reviewCandidate_passed hsafety (mem_reviewCandidates.mp hother)
  rw [hrate] at hne
  have hslow' := hat slow hslow
  have ht' := hat t ht
  rcases lt_or_gt_of_ne hne with hbelow | habove
  · -- a lower rate achieved less
    have := hlink.increasing t ht'.1 slow hslow'.1 (by rw [ht'.2, hslow'.2]; exact hbelow)
    omega
  · -- a higher rate failed
    have hfailed : t.metrics.targetMet = false := by
      rw [Bool.eq_false_iff]
      intro htarget'
      have := hpassed t ht'.1 htarget'
      omega
    have hworst' := hat worst hworstMem
    have hmet : worst.metrics.targetMet = true := by
      refine (hlink.target worst hworst'.1).mpr ?_
      rw [hworst'.2]
      exact (hlink.target low hlow).mp htarget
    have hlt := hdelta worst hworst'.1 t ht'.1 hmet hfailed
    have hle := hother' t ht
    rw [hworstDelta] at hlt
    exact absurd (hlt.trans_le (hle.trans hworst)) (lt_irrefl _)

theorem aligned_reason {result aligned : ProfileSearchResult}
    (h : alignTerminalSelectionWithRecommended debugAssertions result = .ok aligned)
    (hreason : aligned.reason ∈ boundaryReasons) : result.reason ∈ boundaryReasons := by
  unfold alignTerminalSelectionWithRecommended at h
  split at h
  · cases hoptions : profileSearchReviewOptions debugAssertions result with
    | error failure =>
      rw [hoptions] at h
      cases h
    | ok options =>
      rw [hoptions] at h
      simp only [bind, Except.bind] at h
      cases hhead : options.head? with
      | none =>
        rw [hhead] at h
        cases h
        exact hreason
      | some recommended =>
        simp only [hhead] at h
        unfold alignWith at h
        split at h
        · split at h
          · cases h
          · split at h
            · cases h
              exact hreason
            · cases h
              exact absurd hreason (by decide : "conservative-review-downgrade" ∉ boundaryReasons)
        · cases h
          exact hreason
  · cases h
    exact hreason

theorem selectedRate_of_sample {s : Sample} (hs : s ∈ result.samples)
    (h : result.selectedIndex = some s.index) :
    selectedRate result = some s.rate := by
  unfold selectedRate
  rw [h]
  simp only [bind, Option.bind_some, (mem_samplesOf.mp hs).1, pure]
  rfl

/-- **Alignment keeps a selected rate** that is in the frontier. -/
theorem selectedRate_aligned {result aligned : ProfileSearchResult}
    (h : alignTerminalSelectionWithRecommended debugAssertions result = .ok aligned)
    (hterminal : result.action.terminal = true) {rate : ℕ}
    (hselected : selectedRate result = some rate)
    (hfrontier : ∃ c ∈ reviewFrontier result, c.candidateKbps = rate) :
    selectedRate aligned = some rate := by
  obtain ⟨c, hc, hrate⟩ := hfrontier
  obtain ⟨d, hd, hdrate⟩ : ∃ d, recommendedCandidate result (reviewFrontier result) = some d ∧
      d.candidateKbps = rate := by
    unfold recommendedCandidate
    rw [hselected, Option.bind_some]
    cases hfound : (reviewFrontier result).find? fun e => e.candidateKbps == rate with
    | none =>
      have hnone := find?_eq_none.mp hfound c hc
      exact absurd (beq_iff_eq.mpr hrate) hnone
    | some e =>
      have herate := find?_some hfound
      exact ⟨e, rfl, eq_of_beq herate⟩
  have hcandidate := reviewFrontier_subset (recommendedCandidate_mem hd)
  obtain ⟨-, s, hs, hsrate, hindex, -⟩ :=
    reviewCandidateForRate_shows (mem_reviewCandidates.mp hcandidate)
  unfold alignTerminalSelectionWithRecommended at h
  rw [if_pos hterminal] at h
  cases hoptions : profileSearchReviewOptions debugAssertions result with
  | error failure =>
    rw [hoptions] at h
    cases h
  | ok options =>
    obtain ⟨-, rfl⟩ := agrees_of_reviewOptions hterminal hoptions
    obtain ⟨action, reason, -, -, heq⟩ := alignWith_eq hcandidate hterminal
    rw [hoptions] at h
    simp only [bind, Except.bind, head_reviewOptions hterminal, hd, Option.map_some, heq] at h
    cases h
    rw [← hdrate, ← hsrate]
    exact selectedRate_of_sample hs (congrArg some hindex)

theorem run_fixed {answers : List LinkAnswer} :
    (run (searchRound debugAssertions) input answers).profile = input.profile ∧
      (run (searchRound debugAssertions) input answers).observedLowKbps = input.observedLowKbps := by
  have hround : ∀ s a, (s.profile = input.profile ∧ s.observedLowKbps = input.observedLowKbps) →
      ((searchRound debugAssertions s a).profile = input.profile ∧
        (searchRound debugAssertions s a).observedLowKbps = input.observedLowKbps) := by
    intro s a hs
    rcases searchRound_cases debugAssertions s a with ⟨rate, -, heq⟩ | ⟨-, heq⟩
    · rw [heq]
      exact hs
    · rw [heq]
      exact hs
  exact run_invariant hround ⟨rfl, rfl⟩ answers

theorem bestTarget_rate {v : SearchView} {lower : ℕ} (hlink : MonotoneSamples v.samples boundary)
    (hlower : v.lowerTargetPass = some lower) :
    ∃ s ∈ v.samples, bestTargetIndex v.samples = some s ∧ s.rate = lower ∧
      s.metrics.targetMet = true := by
  obtain ⟨low, hlow, rfl⟩ := mem_map.mp (max?_mem hlower)
  obtain ⟨s, hs⟩ : ∃ s, bestTargetIndex v.samples = some s := maxBy_of_mem hlow
  have hmem := mem_filter.mp (maxBy_mem hs)
  obtain ⟨-, -, hpassed⟩ := lowerTargetPass_spec hlink hlower
  have htarget := (Bool.and_eq_true_iff.mp hmem.2).2
  refine ⟨s, hmem.1, hs, ?_, htarget⟩
  have hgreatest : low.achieved ≤ s.achieved := by
    refine maxBy_greatest (r := fun a b : Sample => a.achieved ≤ b.achieved) (fun _ => le_rfl)
      (fun _ _ _ => le_trans) (fun a b hgt => ?_) (fun a b hle => ?_) hs low hlow
    · exact le_of_thenGt hgt
    · exact le_of_thenNotGt hle
  by_contra hne
  have hle := hpassed s hmem.1 htarget
  have := hlink.increasing s hmem.1 low (mem_filter.mp hlow).1 (lt_of_le_of_ne hle hne)
  omega

theorem delta_of_target (hlink : MonotoneSamples input.samples boundary) :
    ∀ s ∈ input.samples, ∀ t ∈ input.samples,
      s.metrics.targetMet = true → t.metrics.targetMet = false → s.delta < t.delta := by
  intro s hs t ht hmet hfailed
  have hreliable := hlink.reliable t ht
  have hs' := (mem_samples.mp hs).2
  have ht' := (mem_samples.mp ht).2
  unfold Sample.delta
  rw [ht'] at hreliable hfailed
  rw [hs'] at hmet
  rw [hs', ht']
  simp only [evaluateSearchObservation, Bool.and_eq_true, Bool.not_eq_true', decide_eq_true_eq,
    Bool.and_eq_false_iff, Bool.not_eq_false', decide_eq_false_iff_not, not_lt]
    at hreliable hfailed hmet ⊢
  rcases hfailed with hfailed | hfailed
  · rw [hreliable.1.1] at hfailed
    cases hfailed
  · exact hmet.2.trans_le hfailed

/-- **A search of a monotone link ends at its boundary**: what it selects passed, and it is the upper
bound or a rate close above it failed. -/
theorem search_boundary (haccepted : input.Accepted)
    (hseeks : input.profile = .gaming ∨ input.profile = .gamingExtreme ∨ input.profile =
      .bestOverall) (hlink : input.MonotoneLink boundary)
    (h : optimizeProfileDirection debugAssertions input = .ok result)
    (hreason : result.reason ∈ boundaryReasons) :
    ∃ selected, selectedRate result = some selected ∧ selected ≤ boundary ∧
      (selected = input.upperKbps ∨ ∃ s ∈ input.samples, selected < s.rate ∧
        s.rate ≤ selected + max (searchResolution input.observedLowKbps) 200 ∧
        s.metrics.targetMet = false) := by
  obtain ⟨v, hview, hinput, hv⟩ := haccepted.view
  have hsamples : v.samples = input.samples := hinput ▸ hv.samples
  have hsamplesLink := hlink.samples
  have hlink' : MonotoneSamples v.samples boundary := by
    rw [hsamples]
    exact hsamplesLink
  have hseeks' : v.SeeksTarget := by
    unfold SearchView.SeeksTarget
    rw [hinput]
    exact hseeks
  have hprofile : ¬v.input.profile = .variableLink := by
    rw [hinput]
    intro hvariable
    rw [hvariable] at hseeks
    rcases hseeks with h | h | h
    · cases h
    · cases h
    · cases h
  obtain ⟨selected, hselected, hmem⟩ := profileSelectedIndex_ok hprofile
  obtain ⟨d, hd, -⟩ := sound_decision hv hmem
  have hsearch : alignTerminalSelectionWithRecommended debugAssertions (v.result selected d) =
      .ok result := by
    rw [← h, optimize_of_view debugAssertions haccepted hview]
    unfold optimize optimizeDirection
    simp [bind, Except.bind, if_neg hprofile, hselected, hd]
  have hdreason : d.reason ∈ boundaryReasons := settle_reason (aligned_reason hsearch hreason)
  obtain ⟨lower, hlower, hdecision⟩ :=
    decision_boundary hv hlink' hseeks' hd hdreason
  obtain ⟨hcomplete, hclose⟩ :=
    targetDecision_boundary hv hlink' hlower hdecision hdreason
  obtain ⟨hle, -, hpassed⟩ := lowerTargetPass_spec hlink' hlower
  obtain ⟨best, hbest, hbestIndex, hrate, htarget⟩ := bestTarget_rate hlink' hlower
  have hsettled : settle v.input v.samples d.action d.reason selected =
      ⟨d.action, d.reason, selected⟩ :=
    settle_of_conclusive d.reason selected (by rw [hcomplete]; decide)
  have hraw : (v.result selected d).samples = input.samples := by
    rw [← hinput]
    rfl
  have hchosen : selected = some best := by
    unfold profileSelectedIndex at hselected
    rw [hinput] at hselected
    rcases hseeks with hprofile | hprofile | hprofile
    · rw [hprofile, hbestIndex] at hselected
      exact (Except.ok.inj hselected).symm
    · rw [hprofile, hbestIndex] at hselected
      exact (Except.ok.inj hselected).symm
    · rw [hprofile, hbestIndex] at hselected
      exact (Except.ok.inj hselected).symm
  have hindex : (v.result selected d).selectedIndex = some best.index := by
    show (settle v.input v.samples d.action d.reason selected).selected.map Sample.index = _
    rw [hsettled, hchosen]
    rfl
  have hterminal : (v.result selected d).action.terminal = true := by
    show (settle v.input v.samples d.action d.reason selected).action.terminal = true
    rw [hsettled, hcomplete]
    rfl
  refine ⟨lower, ?_, hle, ?_⟩
  · refine selectedRate_aligned hsearch hterminal ?_ ?_
    · rw [← hrate]
      refine selectedRate_of_sample ?_ hindex
      rw [hraw, ← hsamples]
      exact hbest
    · refine frontier_boundary (by rw [hraw]; exact hsamplesLink) ?_ ?_ ?_
      · rw [hraw, ← hsamples]
        exact ⟨best, hbest, hrate, htarget⟩
      · rw [hraw, ← hsamples]
        exact hpassed
      · rw [hraw]
        exact delta_of_target hsamplesLink
  · rw [← hinput, ← hv.samples]
    exact hclose

/-- **The bisection finds the boundary.**  When a search on a monotone link ends as bounded or as
confirmed, the selected rate met the target, and it is the upper bound or a rate no further above it
than the resolution or 200 kbit/s failed.  So no rate further up meets the target. -/
theorem search_finds_boundary (debugAssertions : Bool) (input : ProfileSearchInput)
    (haccepted : validateProfileSearchInput input = .ok ())
    (hseeks : input.profile = .gaming ∨ input.profile = .gamingExtreme ∨
      input.profile = .bestOverall)
    (answers : List LinkAnswer) (hanswers : ∀ a ∈ answers, a.Admissible) (boundary : ℕ)
    (hlink : (run (searchRound debugAssertions) input answers).MonotoneLink boundary)
    (result : ProfileSearchResult)
    (hresult : optimizeProfileDirection debugAssertions
      (run (searchRound debugAssertions) input answers) = .ok result)
    (hreason : result.reason = "maximum-target-grade-bounded" ∨
      result.reason = "maximum-target-grade-confirmed") :
    ∃ selected, selectedRate result = some selected ∧ selected ≤ boundary ∧
      (selected = input.upperKbps ∨
        ∃ o ∈ (run (searchRound debugAssertions) input answers).observations,
          selected < o.candidateKbps ∧
          o.candidateKbps ≤ selected + max (searchResolution input.observedLowKbps) 200 ∧
          (evaluateSearchObservation (run (searchRound debugAssertions) input answers) o).targetMet =
            false) ∧
      min boundary input.upperKbps ≤ selected + max (searchResolution input.observedLowKbps) 200 := by
  obtain ⟨hsearched, hfixed⟩ : Searched input (run (searchRound debugAssertions) input answers) ∧
      (run (searchRound debugAssertions) input answers).profile = input.profile ∧
      (run (searchRound debugAssertions) input answers).observedLowKbps = input.observedLowKbps :=
    ⟨searched_run (validate_iff.mp haccepted) hanswers, run_fixed⟩
  generalize run (searchRound debugAssertions) input answers = final at *
  obtain ⟨hprofile, hobserved⟩ := hfixed
  have hreason : result.reason ∈ boundaryReasons := by
    unfold boundaryReasons
    simp only [mem_cons, not_mem_nil, or_false]
    exact hreason
  obtain ⟨selected, hselected, hle, hclose⟩ :=
    search_boundary hsearched.accepted (by rw [hprofile]; exact hseeks) hlink hresult hreason
  rw [hobserved, hsearched.upper] at hclose
  refine ⟨selected, hselected, hle, ?_, ?_⟩
  · rcases hclose with hupper | ⟨s, hs, hlt, hnear, hfailed⟩
    · exact .inl hupper
    · obtain ⟨hmem, hmetrics⟩ := mem_samples.mp hs
      rw [hmetrics] at hfailed
      exact .inr ⟨s.observation, mem_of_getElem? hmem, hlt, hnear, hfailed⟩
  · rcases hclose with hupper | ⟨s, hs, hlt, hnear, hfailed⟩
    · rw [hupper]
      exact (min_le_right _ _).trans (Nat.le_add_right _ _)
    · have hbelow : ¬s.rate ≤ boundary := by
        intro hle
        rw [(hlink.samples.target s hs).mpr hle] at hfailed
        cases hfailed
      exact (min_le_left _ _).trans ((not_le.mp hbelow).le.trans hnear)

def narrowStart : ProfileSearchInput := { searchStart with maxAttempts := 8 }

/-- The answers at 90000, 95000, 92500, 93800, 93200 and 92900 of a link that bends at 93000. -/
def narrowAnswers : List LinkAnswer :=
  [⟨88200, 88200, 0, 20, false, 0, 50⟩, ⟨93100, 93100, 0, 50, false, 0, 50⟩,
    ⟨90650, 90650, 0, 20, false, 0, 50⟩, ⟨91924, 91924, 0, 50, false, 0, 50⟩,
    ⟨91336, 91336, 0, 50, false, 0, 50⟩, ⟨91042, 91042, 0, 20, false, 0, 50⟩]

theorem search_finds_boundary_narrow :
    ∃ result, optimizeProfileDirection true (run (searchRound true) narrowStart narrowAnswers)
        = .ok result ∧
      ∃ selected, selectedRate result = some selected ∧ selected ≤ 93000 ∧
        93000 ≤ selected + max (searchResolution narrowStart.observedLowKbps) 200 := by
  have hanswers : ∀ a ∈ narrowAnswers, a.Admissible := by
    simp only [narrowAnswers, forall_mem_cons]
    refine ⟨?_, ?_, ?_, ?_, ?_, ?_, fun _ h => absurd h not_mem_nil⟩ <;> constructor <;> decide
  have hlink : (run (searchRound true) narrowStart narrowAnswers).MonotoneLink 93000 := by
    constructor <;> decide +kernel
  have hreason : (optimizeProfileDirection true
      (run (searchRound true) narrowStart narrowAnswers)).map ProfileSearchResult.reason =
      .ok "maximum-target-grade-bounded" := by decide +kernel
  obtain ⟨result, hresult, hbounded⟩ := map_ok.mp hreason
  obtain ⟨selected, hselected, hle, -, hnear⟩ :=
    search_finds_boundary true narrowStart (by decide +kernel) (.inr (.inr rfl)) narrowAnswers
      hanswers 93000 hlink result hresult (.inl hbounded)
  exact ⟨result, hresult, selected, hselected, hle, hnear⟩

end CakeAutorate.Autotune
