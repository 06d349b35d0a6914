/-
# What Review makes of a result

The frontier of a result is not empty when some rate has a candidate.  The first option is then the
recommended one, and a result that was aligned with it passes `validate_review_alignment`; without a
candidate, no terminal result does.
-/

import CakeAutorate.Autotune.ProfileOptimizer
import CakeAutorate.Autotune.ProposalOrder

namespace CakeAutorate.Autotune

open Machine List Or ReviewCandidate

variable {s : Sample} {c : ReviewCandidate} {frontier : List ReviewCandidate}
  {debugAssertions : Bool}

theorem mem_samplesOf {observations : List SearchObservation}
    {metrics : List SearchObservationMetrics} :
    s ∈ samplesOf observations metrics ↔
      observations[s.index]? = some s.observation ∧ metrics[s.index]? = some s.metrics := by
  unfold samplesOf
  rw [mem_map]
  constructor
  · rintro ⟨⟨⟨o, m⟩, i⟩, hmem, rfl⟩
    rw [mem_zipIdx_iff_getElem?, getElem?_zip_eq_some] at hmem
    exact hmem
  · intro h
    refine ⟨((s.observation, s.metrics), s.index), ?_, rfl⟩
    rw [mem_zipIdx_iff_getElem?, getElem?_zip_eq_some]
    exact h

theorem mem_samples {input : ProfileSearchInput} :
    s ∈ input.samples ↔ input.observations[s.index]? = some s.observation ∧
      s.metrics = evaluateSearchObservation input s.observation := by
  unfold ProfileSearchInput.samples ProfileSearchInput.metrics
  rw [mem_samplesOf, getElem?_map]
  constructor
  · rintro ⟨ho, hm⟩
    rw [ho] at hm
    exact ⟨ho, (Option.some.inj hm).symm⟩
  · rintro ⟨ho, hm⟩
    rw [ho, hm]
    exact ⟨rfl, rfl⟩

variable {samples : List Sample} {rate : ℕ}

theorem mem_testedRates : rate ∈ testedRates samples ↔ ∃ s ∈ samples, s.rate = rate := by
  simp [testedRates]

theorem mem_atRate : s ∈ atRate samples rate ↔ s ∈ samples ∧ s.rate = rate := by
  simp [atRate]

theorem candidateWasTested_iff :
    candidateWasTested samples rate = true ↔ ∃ s ∈ samples, s.rate = rate := by
  simp [candidateWasTested]

theorem reviewGroup_subset {group : List Sample × Bool}
    (h : reviewGroup samples rate = some group) (hs : s ∈ group.1) :
    s ∈ samples ∧ s.rate = rate := by
  unfold reviewGroup at h
  rw [← mem_atRate]
  split at h
  · cases h
  · split at h
    · cases h
      exact (mem_filter.mp hs).1
    · split at h
      · cases h
        exact (mem_filter.mp hs).1
      · rw [Option.map_eq_some_iff] at h
        obtain ⟨c, -, rfl⟩ := h
        exact (mem_filter.mp hs).1

variable {result : ProfileSearchResult}

theorem reviewCandidateForRate_shows (h : reviewCandidateForRate result rate = some c) :
    c.candidateKbps = rate ∧ ∃ s ∈ result.samples, s.rate = rate ∧ c.selectedIndex = s.index ∧
      c.transportCensored = s.observation.transportCensored := by
  unfold reviewCandidateForRate at h
  simp only [bind, Option.bind_eq_some_iff, pure, Option.some.injEq] at h
  obtain ⟨group, hgroup, conservative, -, selected, hselected, rfl⟩ := h
  obtain ⟨hmem, hrate⟩ := reviewGroup_subset hgroup (maxBy_mem hselected)
  exact ⟨rfl, selected, hmem, hrate, rfl, rfl⟩

theorem mem_reviewCandidates :
    c ∈ reviewCandidates result ↔ reviewCandidateForRate result c.candidateKbps = some c := by
  unfold reviewCandidates
  rw [mem_filterMap]
  constructor
  · rintro ⟨rate, -, h⟩
    rw [(reviewCandidateForRate_shows h).1]
    exact h
  · intro h
    obtain ⟨s, hs, hrate, -⟩ := (reviewCandidateForRate_shows h).2
    exact ⟨c.candidateKbps, mem_testedRates.mpr ⟨s, hs, hrate⟩, h⟩

theorem reviewCandidates_unique {d : ReviewCandidate} (hc : c ∈ reviewCandidates result)
    (hd : d ∈ reviewCandidates result) (h : c.candidateKbps = d.candidateKbps) : c = d := by
  rw [mem_reviewCandidates] at hc hd
  rw [h, hd] at hc
  exact (Option.some.inj hc).symm

def ReviewCandidate.Beats (a b : ReviewCandidate) : Prop :=
  b.controlled ≤ a.controlled ∧ b.conservativeAchievedKbps ≤ a.conservativeAchievedKbps ∧
  a.worstDeltaMs ≤ b.worstDeltaMs ∧
  (b.controlled < a.controlled ∨ b.conservativeAchievedKbps < a.conservativeAchievedKbps ∨
    a.worstDeltaMs < b.worstDeltaMs)

theorem ReviewCandidate.Beats.irrefl (a : ReviewCandidate) : ¬a.Beats a := by
  rintro ⟨-, -, -, h | h | h⟩
  · exact lt_irrefl _ h
  · exact lt_irrefl _ h
  · exact lt_irrefl _ h

theorem ReviewCandidate.Beats.trans (a b c : ReviewCandidate) (hab : a.Beats b) (hbc : b.Beats c) :
    a.Beats c := by
  obtain ⟨hcontrolled, hachieved, hdelta, h⟩ := hab
  obtain ⟨hcontrolled', hachieved', hdelta', -⟩ := hbc
  refine ⟨hcontrolled'.trans hcontrolled, hachieved'.trans hachieved, hdelta.trans hdelta', ?_⟩
  rcases h with h | h | h
  · exact inl (hcontrolled'.trans_lt h)
  · exact inr (inl (hachieved'.trans_lt h))
  · exact inr (inr (h.trans_le hdelta'))

theorem ReviewCandidate.dominates_beats {a b : ReviewCandidate} (h : a.dominates b = true) :
    a.Beats b := by
  simp only [dominates, Bool.and_eq_true, Bool.or_eq_true, decide_eq_true_eq, bne_iff_ne] at h
  obtain ⟨⟨⟨⟨-, hcontrolled⟩, hachieved⟩, hdelta⟩, h⟩ := h
  refine ⟨hcontrolled, hachieved, hdelta, ?_⟩
  rcases h with (h | h) | h
  · exact inl (lt_of_le_of_ne hcontrolled (Ne.symm h))
  · exact inr (inl h)
  · exact inr (inr h)

theorem reviewFrontier_subset (h : c ∈ reviewFrontier result) : c ∈ reviewCandidates result :=
  (mem_filter.mp h).1

/-- **The frontier is not empty** when there is a candidate. -/
theorem exists_reviewFrontier (h : c ∈ reviewCandidates result) :
    ∃ d, d ∈ reviewFrontier result := by
  obtain ⟨m, hm, hbest⟩ :=
    exists_unbeaten ReviewCandidate.Beats.irrefl ReviewCandidate.Beats.trans h
  refine ⟨m, mem_filter.mpr ⟨hm, ?_⟩⟩
  rw [Bool.not_eq_true', any_eq_false]
  intro other hother hdominates
  exact hbest other hother (dominates_beats hdominates)

theorem profileCandidate_mem (h : profileCandidate result frontier = some c) : c ∈ frontier := by
  unfold profileCandidate throughputCandidate at h
  split at h
  all_goals exact maxBy_mem h

theorem exists_profileCandidate (result : ProfileSearchResult) (h : c ∈ frontier) :
    ∃ d, profileCandidate result frontier = some d := by
  unfold profileCandidate throughputCandidate
  split
  all_goals exact maxBy_of_mem h

theorem recommendedCandidate_mem (h : recommendedCandidate result frontier = some c) :
    c ∈ frontier := by
  unfold recommendedCandidate at h
  rw [Option.or_eq_some_iff] at h
  rcases h with h | ⟨-, h⟩
  · rw [Option.bind_eq_some_iff] at h
    obtain ⟨rate, -, h⟩ := h
    exact mem_of_find?_eq_some h
  · exact profileCandidate_mem h

theorem exists_recommendedCandidate (result : ProfileSearchResult) (h : c ∈ frontier) :
    ∃ d, recommendedCandidate result frontier = some d := by
  obtain ⟨d, hd⟩ := exists_profileCandidate result h
  unfold recommendedCandidate
  cases hfound : (selectedRate result).bind fun rate =>
      frontier.find? fun c => c.candidateKbps == rate with
  | none => exact ⟨d, by rw [Option.none_or, hd]⟩
  | some e => exact ⟨e, by rw [Option.some_or]⟩

theorem head_roleOptions (result : ProfileSearchResult)
    (h : recommendedCandidate result frontier = some c) :
    ∃ rest, roleOptions result frontier = c.asOption .recommended :: rest := by
  have hpush : ∀ (entries : List (ProfileSearchOptionRole × Option ReviewCandidate))
      (head : ProfileSearchOption) (rest : List ProfileSearchOption),
      ∃ rest', entries.foldl pushOption (head :: rest) = head :: rest' := by
    intro entries
    induction entries with
    | nil => exact fun head rest => ⟨rest, rfl⟩
    | cons entry entries ih =>
      intro head rest
      rw [foldl_cons]
      unfold pushOption
      split
      · exact ih head rest
      · split
        · exact ih head rest
        · exact ih head _
  have hfirst : pushOption [] (.recommended, recommendedCandidate result frontier) =
      [c.asOption .recommended] := by
    rw [h]
    rfl
  unfold roleOptions
  rw [foldl_cons, hfirst]
  exact hpush _ _ _

/-- **The first option** of a terminal result is the recommended candidate. -/
theorem head_reviewOptions (hterminal : result.action.terminal = true) :
    (reviewOptions result).head? =
      (recommendedCandidate result (reviewFrontier result)).map (·.asOption .recommended) := by
  unfold reviewOptions
  rw [if_neg (by rw [hterminal]; decide)]
  cases h : recommendedCandidate result (reviewFrontier result) with
  | some c =>
    obtain ⟨rest, hrest⟩ := head_roleOptions result h
    simp [hrest, maxProfileReviewOptions]
  | none =>
    have hempty : reviewFrontier result = [] := by
      refine eq_nil_iff_forall_not_mem.mpr fun c hc => ?_
      obtain ⟨d, hd⟩ := exists_recommendedCandidate result hc
      rw [h] at hd
      cases hd
    rw [hempty] at h
    simp only [hempty, roleOptions, h, qualityCandidate, throughputCandidate, minBy, maxBy,
      foldl_cons, foldl_nil, pushOption, balancedAlternatives, filter_nil,
      insertionSort_nil, map_nil, append_nil, take_nil, head?_nil,
      Option.map_none]

/-- Every rate passes the assertion of `review_candidate_for_rate`. -/
def ProfileSearchResult.Agrees (result : ProfileSearchResult) : Prop :=
  (testedRates result.samples).all (conservativeAgrees result.samples) = true

theorem reviewOptions_eq (h : debugAssertions = true → result.Agrees) :
    profileSearchReviewOptions debugAssertions result = .ok (reviewOptions result) := by
  refine if_neg ?_
  rintro ⟨hdebug, -, hfails⟩
  rw [h hdebug] at hfails
  cases hfails

theorem agrees_of_reviewOptions {options : List ProfileSearchOption}
    (hterminal : result.action.terminal = true)
    (h : profileSearchReviewOptions debugAssertions result = .ok options) :
    (debugAssertions = true → result.Agrees) ∧ options = reviewOptions result := by
  unfold profileSearchReviewOptions at h
  split at h
  · cases h
  · next hfails =>
    refine ⟨fun hdebug => ?_, (Except.ok.inj h).symm⟩
    by_contra hdisagrees
    exact hfails ⟨hdebug, hterminal, Bool.eq_false_iff.mpr hdisagrees⟩

theorem shown_lookup (hc : c ∈ reviewCandidates result) :
    ∃ o m, result.observations[c.selectedIndex]? = some o ∧
      result.metrics[c.selectedIndex]? = some m ∧ o.candidateKbps = c.candidateKbps ∧
      o.transportCensored = c.transportCensored := by
  obtain ⟨-, s, hs, hrate, hindex, hcensored⟩ :=
    reviewCandidateForRate_shows (mem_reviewCandidates.mp hc)
  obtain ⟨ho, hm⟩ := mem_samplesOf.mp hs
  rw [← hindex] at ho hm
  exact ⟨s.observation, s.metrics, ho, hm, hrate, hcensored.symm⟩

/-- What alignment with a candidate makes of a result: the candidate is selected, and a `Complete`
that does not meet its objective becomes a `Fallback`. -/
theorem alignWith_eq (hc : c ∈ reviewCandidates result)
    (hterminal : result.action.terminal = true) :
    ∃ action reason, action.terminal = true ∧
      (action = .complete → ∃ m, result.metrics[c.selectedIndex]? = some m ∧
        meetsObjective result.profile m = true) ∧
      alignWith result (c.asOption .recommended) =
        .ok { result with
          selectedIndex := some c.selectedIndex, action, reason } := by
  obtain ⟨o, m, -, hm, -⟩ := shown_lookup hc
  have hindex : (c.asOption .recommended).selectedIndex = c.selectedIndex := rfl
  unfold alignWith
  rw [hindex, hm]
  by_cases hcomplete : result.action = .complete
  · simp only [hcomplete, if_true]
    by_cases hmeets : meetsObjective result.profile m = true
    · refine ⟨.complete, result.reason, rfl, fun _ => ⟨m, rfl, hmeets⟩, ?_⟩
      rw [if_pos hmeets]
    · refine ⟨.fallback, "conservative-review-downgrade", rfl, fun h => (by cases h), ?_⟩
      rw [if_neg hmeets]
  · refine ⟨result.action, result.reason, hterminal, fun h => absurd h hcomplete, ?_⟩
    rw [if_neg hcomplete]

/-- **An aligned result is valid.**  After the alignment with the recommended candidate, Review
recommends that candidate again. -/
theorem validate_aligned (hagrees : debugAssertions = true → result.Agrees)
    (hc : recommendedCandidate result (reviewFrontier result) = some c)
    {action : ProfileSearchAction} {reason : String} (haction : action.terminal = true)
    (hcomplete : action = .complete → ∃ m, result.metrics[c.selectedIndex]? = some m ∧
      meetsObjective result.profile m = true) :
    ({ result with selectedIndex := some c.selectedIndex, action, reason } :
      ProfileSearchResult).validateReviewAlignment debugAssertions = .ok () := by
  have hfrontier : c ∈ reviewFrontier result := recommendedCandidate_mem hc
  have hcandidate : c ∈ reviewCandidates result := reviewFrontier_subset hfrontier
  obtain ⟨o, m, ho, hm, hrate, hcensored⟩ := shown_lookup hcandidate
  generalize haligned : ({ result with
    selectedIndex := some c.selectedIndex, action, reason } :
      ProfileSearchResult) = aligned
  have hselected : aligned.selectedIndex = some c.selectedIndex := by rw [← haligned]
  have haction' : aligned.action = action := by rw [← haligned]
  have hobservations : aligned.observations = result.observations := by rw [← haligned]
  have hmetrics : aligned.metrics = result.metrics := by rw [← haligned]
  have hprofile : aligned.profile = result.profile := by rw [← haligned]
  have hsame : reviewFrontier aligned = reviewFrontier result := by
    rw [← haligned]
    rfl
  have hagrees' : debugAssertions = true → aligned.Agrees := by
    rw [← haligned]
    exact hagrees
  -- the frontier has one candidate of the selected rate, so it is recommended again
  have hrecommended : recommendedCandidate aligned (reviewFrontier aligned) = some c := by
    have hselectedRate : selectedRate aligned = some c.candidateKbps := by
      unfold selectedRate
      rw [hselected, hobservations]
      simp [bind, ho, pure, hrate]
    unfold recommendedCandidate
    rw [hselectedRate, Option.bind_some, hsame]
    cases hfound : (reviewFrontier result).find? fun d => d.candidateKbps == c.candidateKbps with
    | none =>
      have hnone := find?_eq_none.mp hfound c hfrontier
      exact absurd (beq_self_eq_true _) hnone
    | some d =>
      have hd := reviewFrontier_subset (mem_of_find?_eq_some hfound)
      have heq : d.candidateKbps = c.candidateKbps := by
        have := find?_some hfound
        exact eq_of_beq this
      rw [Option.some_or, reviewCandidates_unique hd hcandidate heq]
  have hterminal : aligned.action.terminal = true := by rw [haction', haction]
  unfold ProfileSearchResult.validateReviewAlignment
  rw [if_neg (by rw [hterminal]; decide), hselected, reviewOptions_eq hagrees']
  simp only [bind, Except.bind, head_reviewOptions hterminal, hrecommended, Option.map_some]
  have hmatches : matchesSelected aligned c.selectedIndex (c.asOption .recommended) = true := by
    unfold matchesSelected
    rw [hobservations, ho]
    simp [asOption, hrate, hcensored]
  unfold validateRecommended
  rw [hmatches, hmetrics, hm, if_neg (by decide)]
  refine if_neg ?_
  rintro ⟨hc', hfails⟩
  rw [haction'] at hc'
  obtain ⟨m', hm', hmeets⟩ := hcomplete hc'
  rw [hm] at hm'
  cases hm'
  rw [hprofile, hmeets] at hfails
  cases hfails

/-- **Alignment.**  A terminal result that was aligned passes `validate_review_alignment` exactly
when some rate has a candidate. -/
theorem validate_align_iff {result aligned : ProfileSearchResult}
    (h : alignTerminalSelectionWithRecommended debugAssertions result = .ok aligned)
    (hterminal : aligned.action.terminal = true) :
    aligned.validateReviewAlignment debugAssertions = .ok () ↔ ∃ c, c ∈ reviewCandidates result := by
  unfold alignTerminalSelectionWithRecommended at h
  split at h
  · next hresult =>
    cases hoptions : profileSearchReviewOptions debugAssertions result with
    | error failure =>
      rw [hoptions] at h
      cases h
    | ok options =>
      obtain ⟨hagrees, rfl⟩ := agrees_of_reviewOptions hresult hoptions
      rw [hoptions] at h
      simp only [bind, Except.bind, head_reviewOptions hresult] at h
      cases hc : recommendedCandidate result (reviewFrontier result) with
      | none =>
        rw [hc] at h
        cases h
        have hnone : ¬∃ c, c ∈ reviewCandidates result := by
          rintro ⟨c, hmem⟩
          obtain ⟨d, hd⟩ := exists_reviewFrontier hmem
          obtain ⟨e, he⟩ := exists_recommendedCandidate result hd
          rw [hc] at he
          cases he
        refine iff_of_false ?_ hnone
        unfold ProfileSearchResult.validateReviewAlignment
        rw [if_neg (by rw [hresult]; decide)]
        cases hselected : result.selectedIndex with
        | none => intro h'; cases h'
        | some index =>
          simp only [hoptions, bind, Except.bind, head_reviewOptions hresult, hc, Option.map_none]
          intro h'
          cases h'
      | some c =>
        rw [hc] at h
        have hcandidate := reviewFrontier_subset (recommendedCandidate_mem hc)
        refine iff_of_true ?_ ⟨c, hcandidate⟩
        obtain ⟨action, reason, haction, hcomplete, heq⟩ := alignWith_eq hcandidate hresult
        simp only [Option.map_some, heq] at h
        cases h
        exact validate_aligned hagrees hc haction hcomplete
  · next hresult =>
    cases h
    exact absurd hterminal hresult

/-- What alignment keeps: the metrics and the observations, the next candidate, and whether the
search has ended. -/
structure Aligned (result aligned : ProfileSearchResult) : Prop where
  observations : aligned.observations = result.observations
  metrics : aligned.metrics = result.metrics
  next : aligned.nextCandidateKbps = result.nextCandidateKbps
  terminal : aligned.action.terminal = result.action.terminal
  asks : aligned.action = .test ↔ result.action = .test
  unended : result.action.terminal = false → aligned = result

/-- **Alignment returns** where debug assertions are left out or every rate passes. -/
theorem exists_aligned (h : debugAssertions = true → result.Agrees) :
    ∃ aligned, alignTerminalSelectionWithRecommended debugAssertions result = .ok aligned ∧
      Aligned result aligned := by
  unfold alignTerminalSelectionWithRecommended
  by_cases hresult : result.action.terminal = true
  · rw [if_pos hresult, reviewOptions_eq h]
    simp only [bind, Except.bind, head_reviewOptions hresult]
    cases hc : recommendedCandidate result (reviewFrontier result) with
    | none => exact ⟨result, rfl, rfl, rfl, rfl, rfl, Iff.rfl, fun _ => rfl⟩
    | some c =>
      obtain ⟨action, reason, haction, -, heq⟩ :=
        alignWith_eq (reviewFrontier_subset (recommendedCandidate_mem hc)) hresult
      refine ⟨_, heq, rfl, rfl, rfl, ?_, ?_, fun hfalse => ?_⟩
      · rw [hresult]
        exact haction
      · refine iff_of_false ?_ ?_
        · rintro rfl
          cases haction
        · intro htest
          rw [htest] at hresult
          cases hresult
      · rw [hresult] at hfalse
        cases hfalse
  · exact ⟨result, if_neg hresult, rfl, rfl, rfl, rfl, Iff.rfl, fun _ => rfl⟩

end CakeAutorate.Autotune
