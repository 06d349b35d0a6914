/-
# The bounds of a profile search

A sound decision is settled to a sound result, so an accepted input stays accepted when the link
answers, and the search ends within its attempts.  Alignment stops the program only where the debug
assertion of Review fails.
-/

import CakeAutorate.Autotune.DecisionSoundness

namespace CakeAutorate.Autotune

open Machine List Or SearchView Sample

def Evident (samples : List Sample) : Prop :=
  Grounded samples ∨ ∃ s, bestCensoredReviewIndex samples = some s

variable {s : Sample} {input : ProfileSearchInput} {debugAssertions : Bool}

variable {cmp : Sample → Sample → Ordering}

theorem maxBy_filter {p : Sample → Bool} {samples : List Sample}
    (h : maxBy cmp (samples.filter p) = some s) : s ∈ samples ∧ p s = true :=
  mem_filter.mp (maxBy_mem h)

theorem minBy_filter {p : Sample → Bool} {samples : List Sample}
    (h : minBy cmp (samples.filter p) = some s) : s ∈ samples ∧ p s = true :=
  mem_filter.mp (minBy_mem h)

section

variable {samples : List Sample}

theorem bestTargetIndex_passed (h : bestTargetIndex samples = some s) :
    s ∈ samples ∧ s.metrics.safetyPass = true :=
  ⟨(maxBy_filter h).1, (Bool.and_eq_true_iff.mp (maxBy_filter h).2).1⟩

theorem bestFairIndex_passed (h : bestFairIndex input samples = some s) :
    s ∈ samples ∧ s.metrics.safetyPass = true := by
  unfold bestFairIndex at h
  simp only [bind, Option.bind_eq_some_iff] at h
  obtain ⟨best, -, h⟩ := h
  exact ⟨(minBy_filter h).1, (Bool.and_eq_true_iff.mp (minBy_filter h).2).1⟩

theorem bestSafeFallbackIndex_passed (h : bestSafeFallbackIndex input samples = some s) :
    s ∈ samples ∧ s.metrics.safetyPass = true := by
  unfold bestSafeFallbackIndex at h
  split at h
  · rcases Option.or_eq_some_iff.mp h with h | ⟨-, h⟩
    · exact bestTargetIndex_passed h
    · exact minBy_filter h
  · rcases Option.or_eq_some_iff.mp h with h | ⟨-, h⟩
    · exact bestTargetIndex_passed h
    · exact minBy_filter h
  · rcases Option.or_eq_some_iff.mp h with h | ⟨-, h⟩
    · exact bestTargetIndex_passed h
    · exact maxBy_filter h
  · rcases Option.or_eq_some_iff.mp h with h | ⟨-, h⟩
    · exact bestTargetIndex_passed h
    · exact maxBy_filter h
  · exact bestFairIndex_passed h

theorem exists_bestFairIndex (huncertainty : 0 ≤ input.uncertaintyPercent) (hs : s ∈ samples)
    (hpass : s.metrics.safetyPass = true) : ∃ t, bestFairIndex input samples = some t := by
  have hmem : s.achieved ∈ (samples.filter fun s => s.metrics.safetyPass).map achieved :=
    mem_map_of_mem (mem_filter.mpr ⟨hs, hpass⟩)
  cases hbest : ((samples.filter fun s => s.metrics.safetyPass).map achieved).max? with
  | none =>
    rw [max?_eq_none_iff] at hbest
    rw [hbest] at hmem
    cases hmem
  | some best =>
    obtain ⟨t, ht, hachieved⟩ := mem_map.mp (max?_mem hbest)
    rw [mem_filter] at ht
    have hlower : (best : ℚ) * (1 - input.uncertaintyPercent / 100) ≤ t.achieved := by
      rw [hachieved]
      have hfactor : 1 - input.uncertaintyPercent / 100 ≤ 1 := by linarith
      have hnonneg : (0 : ℚ) ≤ best := Nat.cast_nonneg best
      nlinarith [mul_le_mul_of_nonneg_left hfactor hnonneg]
    unfold bestFairIndex
    rw [hbest]
    refine minBy_of_mem (a := t) (mem_filter.mpr ⟨ht.1, ?_⟩)
    rw [ht.2, decide_eq_true hlower]
    rfl

theorem bestSafeFallbackIndex_ne_none (huncertainty : 0 ≤ input.uncertaintyPercent)
    (hs : s ∈ samples) (hpass : s.metrics.safetyPass = true) :
    bestSafeFallbackIndex input samples ≠ none := by
  have hmem : s ∈ samples.filter fun s => s.metrics.safetyPass := mem_filter.mpr ⟨hs, hpass⟩
  have hquality : bestQualityIndex samples ≠ none := by
    obtain ⟨t, ht⟩ := minBy_of_mem hmem
    rw [bestQualityIndex, ht]
    exact Option.some_ne_none t
  have hbalanced : bestBalancedIndex samples ≠ none := by
    obtain ⟨t, ht⟩ := maxBy_of_mem hmem
    rw [bestBalancedIndex, ht]
    exact Option.some_ne_none t
  intro h
  unfold bestSafeFallbackIndex at h
  split at h
  · exact hquality (Option.or_eq_none_iff.mp h).2
  · exact hquality (Option.or_eq_none_iff.mp h).2
  · exact hbalanced (Option.or_eq_none_iff.mp h).2
  · exact hbalanced (Option.or_eq_none_iff.mp h).2
  · obtain ⟨t, ht⟩ := exists_bestFairIndex huncertainty hs hpass
    rw [ht] at h
    cases h

theorem settle_of_conclusive {action : ProfileSearchAction} (reason : String)
    (selected : Option Sample) (h : action ≠ .inconclusive) :
    settle input samples action reason selected = ⟨action, reason, selected⟩ := by
  unfold settle resolveTerminalSafeFallback
  simp [if_pos h, keepForReview]

theorem settle_inconclusive (reason : String) {selected : Option Sample}
    (huncertainty : 0 ≤ input.uncertaintyPercent) (hselected : ∀ s, selected = some s → s ∈ samples) :
    (settle input samples .inconclusive reason selected).action = .inconclusive ∧ ¬Evident samples ∨
      (settle input samples .inconclusive reason selected).action = .fallback ∧ Evident samples := by
  unfold settle resolveTerminalSafeFallback
  cases hsafe : (selected.filter fun s => s.metrics.safetyPass).or
      (bestSafeFallbackIndex input samples) with
  | some s =>
    refine inr ⟨rfl, inl (inl ⟨s, ?_⟩)⟩
    rcases Option.or_eq_some_iff.mp hsafe with h | ⟨-, h⟩
    · rw [Option.filter_eq_some_iff] at h
      exact ⟨hselected s h.1, h.2⟩
    · exact bestSafeFallbackIndex_passed h
  | none =>
    cases hlow : bestLowRealizationReviewIndex samples with
    | some s => exact inr ⟨rfl, inl (inr ⟨s, hlow⟩)⟩
    | none =>
      cases hcensored : bestCensoredReviewIndex samples with
      | some s => exact inr ⟨rfl, inr ⟨s, hcensored⟩⟩
      | none =>
        refine inl ⟨rfl, ?_⟩
        rintro ((⟨s, hs, hpass⟩ | ⟨s, hs⟩) | ⟨s, hs⟩)
        · exact absurd (Option.or_eq_none_iff.mp hsafe).2
            (bestSafeFallbackIndex_ne_none huncertainty hs hpass)
        · rw [hlow] at hs
          cases hs
        · rw [hcensored] at hs
          cases hs

end

/-- **A sound result**, before it is aligned: it keeps the evidence, it asks as a sound decision
does, and where it is terminal it rests on a measurement. -/
structure ProfileSearchResult.Sound (input : ProfileSearchInput) (result : ProfileSearchResult) :
    Prop where
  observations : result.observations = input.observations
  metrics : result.metrics = input.metrics
  asks : result.action = .test → ∃ rate, result.nextCandidateKbps = some rate ∧
    input.minimumKbps ≤ rate ∧ rate ≤ input.upperKbps ∧
    input.observations.length < input.maxAttempts ∧
    (result.reason ∈ repeatReasons ↔ candidateWasTested input.samples rate = true)
  ends : result.action ≠ .test → result.nextCandidateKbps = none
  evident : result.action.terminal = true → Evident input.samples

variable {result : ProfileSearchResult}

theorem ProfileSearchResult.Sound.of_settle {v : SearchView} (hv : v.Sound)
    (hinput : v.input = input) {d : Decision} (hd : d.Sound v) {selected : Option Sample}
    (hselected : d.action = .inconclusive → ∀ s, selected = some s → s ∈ v.samples)
    (hobservations : result.observations = input.observations)
    (hmetrics : result.metrics = input.metrics)
    (haction : result.action = (settle v.input v.samples d.action d.reason selected).action)
    (hreason : result.reason = (settle v.input v.samples d.action d.reason selected).reason)
    (hnext : result.nextCandidateKbps = d.nextCandidateKbps) : result.Sound input := by
  subst hinput
  by_cases hinconclusive : d.action = .inconclusive
  · have hnone : d.nextCandidateKbps = none := hd.ends (by rw [hinconclusive]; decide)
    have huncertainty : 0 ≤ v.input.uncertaintyPercent :=
      (of_decide_eq_true hv.accepted.uncertainty).1
    rw [hinconclusive] at haction
    have hsettled := settle_inconclusive d.reason huncertainty (hselected hinconclusive)
    refine ⟨hobservations, hmetrics, ?_, fun _ => hnext.trans hnone, ?_⟩
    · intro htest
      rw [haction] at htest
      rcases hsettled with ⟨h, -⟩ | ⟨h, -⟩
      · rw [h] at htest
        cases htest
      · rw [h] at htest
        cases htest
    · intro hterminal
      rw [haction] at hterminal
      rcases hsettled with ⟨h, -⟩ | ⟨-, h⟩
      · rw [h] at hterminal
        cases hterminal
      · rw [← hv.samples]
        exact h
  · rw [settle_of_conclusive d.reason selected hinconclusive] at haction hreason
    have haction : result.action = d.action := haction
    refine ⟨hobservations, hmetrics, ?_, ?_, ?_⟩
    · intro htest
      rw [hnext, hreason, ← hv.samples]
      exact hd.asks (haction.symm.trans htest)
    · intro hne
      rw [haction] at hne
      rw [hnext]
      exact hd.ends hne
    · intro hterminal
      rw [haction] at hterminal
      rw [← hv.samples]
      exact inl (hd.grounded hterminal)

theorem profileSelectedIndex_ok {v : SearchView} (hprofile : v.input.profile ≠ .variableLink) :
    ∃ selected, v.profileSelectedIndex = .ok selected ∧ ∀ s, selected = some s → s ∈ v.samples := by
  unfold profileSelectedIndex
  split
  · refine ⟨_, rfl, fun s h => ?_⟩
    rcases Option.or_eq_some_iff.mp h with h | ⟨-, h⟩
    · exact (maxBy_filter h).1
    · exact (minBy_filter h).1
  · refine ⟨_, rfl, fun s h => ?_⟩
    rcases Option.or_eq_some_iff.mp h with h | ⟨-, h⟩
    · exact (maxBy_filter h).1
    · exact (minBy_filter h).1
  · refine ⟨_, rfl, fun s h => ?_⟩
    rcases Option.or_eq_some_iff.mp h with h | ⟨-, h⟩
    · exact (maxBy_filter h).1
    · exact (maxBy_filter h).1
  · next h => exact absurd h hprofile
  · refine ⟨_, rfl, fun s h => ?_⟩
    rcases Option.or_eq_some_iff.mp h with h | ⟨-, h⟩
    · exact (bestFairIndex_passed h).1
    · exact (maxBy_filter h).1

/-- **The search of an accepted input aligns a sound result.** -/
theorem optimize_eq (debugAssertions : Bool) (h : input.Accepted) :
    ∃ result, optimizeProfileDirection debugAssertions input =
        alignTerminalSelectionWithRecommended debugAssertions result ∧ result.Sound input := by
  obtain ⟨v, hview, hinput, hv⟩ := h.view
  rw [optimize_of_view debugAssertions h hview]
  unfold optimize
  split
  · obtain ⟨d, hd, hsound⟩ := sound_variableDecision hv
    refine ⟨v.variableResult (variableCandidateAggregates v.samples) d, ?_, ?_⟩
    · unfold optimizeVariableLinkDirection
      simp [bind, Except.bind, hd]
    · refine .of_settle hv hinput hsound.decision ?_
        (by rw [← hinput]; rfl) (by rw [← hinput]; rfl) rfl rfl rfl
      intro hinconclusive s hs
      rw [hsound.unselected hinconclusive] at hs
      cases hs
  · next hprofile =>
    obtain ⟨selected, hselected, hmem⟩ := profileSelectedIndex_ok hprofile
    obtain ⟨d, hd, hsound⟩ := sound_decision hv hmem
    refine ⟨v.result selected d, ?_, ?_⟩
    · unfold optimizeDirection
      rw [hselected]
      simp [bind, Except.bind, hd]
    · exact .of_settle hv hinput hsound (fun _ => hmem)
        (by rw [← hinput]; rfl) (by rw [← hinput]; rfl) rfl rfl rfl

theorem ProfileSearchResult.Sound.samples (h : result.Sound input) :
    result.samples = input.samples := by
  unfold ProfileSearchResult.samples ProfileSearchInput.samples
  rw [h.observations, h.metrics]

theorem aligned_of_ok {result aligned : ProfileSearchResult}
    (h : alignTerminalSelectionWithRecommended debugAssertions result = .ok aligned) :
    Aligned result aligned := by
  have hagrees : debugAssertions = true → result.action.terminal = true → result.Agrees := by
    intro hdebug hterminal
    unfold alignTerminalSelectionWithRecommended at h
    rw [if_pos hterminal] at h
    cases hoptions : profileSearchReviewOptions debugAssertions result with
    | error failure =>
      rw [hoptions] at h
      cases h
    | ok options => exact (agrees_of_reviewOptions hterminal hoptions).1 hdebug
  by_cases hterminal : result.action.terminal = true
  · obtain ⟨aligned', heq, haligned⟩ := exists_aligned fun hdebug => hagrees hdebug hterminal
    rw [heq] at h
    cases h
    exact haligned
  · unfold alignTerminalSelectionWithRecommended at h
    rw [if_neg hterminal] at h
    cases h
    exact ⟨rfl, rfl, rfl, rfl, Iff.rfl, fun _ => rfl⟩

theorem optimize_bounded (haccepted : input.Accepted)
    (h : optimizeProfileDirection debugAssertions input = .ok result) :
    (result.action = .test → ∃ rate, result.nextCandidateKbps = some rate ∧
      input.minimumKbps ≤ rate ∧ rate ≤ input.upperKbps ∧
      input.observations.length < input.maxAttempts ∧
      (result.reason ∈ repeatReasons ↔ candidateWasTested input.samples rate = true)) ∧
    (result.action ≠ .test → result.nextCandidateKbps = none) := by
  obtain ⟨raw, heq, hsound⟩ := optimize_eq debugAssertions haccepted
  rw [heq] at h
  have haligned := aligned_of_ok h
  constructor
  · intro htest
    have hraw : raw.action = .test := haligned.asks.mp htest
    have hsame : result = raw := haligned.unended (by rw [hraw]; rfl)
    rw [hsame]
    exact hsound.asks hraw
  · intro hne
    rw [haligned.next]
    exact hsound.ends fun hraw => hne (haligned.asks.mpr hraw)

/-- The rate is one that Review judges by its low realization: nothing was lost, nothing passed and
nothing was censored, and two samples repeat one another. -/
def JudgedByLowRealization (samples : List Sample) (rate : ℕ) : Prop :=
  (∀ s ∈ atRate samples rate, s.metrics.resourceSafe = true) ∧ controlledAt samples rate = [] ∧
  censoredAt samples rate = [] ∧ (lowRealizationReviewCandidate samples rate).isSome = true

instance (samples : List Sample) (rate : ℕ) : Decidable (JudgedByLowRealization samples rate) :=
  inferInstanceAs (Decidable (_ ∧ _ ∧ _ ∧ _))

/-- **No slow corroboration.**  Of a rate that is judged by its low realization, no sample that a
slow one corroborates is below all those that corroborate one another within the latency bound. -/
def ProfileSearchInput.NoSlowCorroboration (input : ProfileSearchInput) : Prop :=
  ∀ rate ∈ testedRates input.samples, JudgedByLowRealization input.samples rate →
    ∀ s ∈ corroboratedAt input.samples rate,
      ∃ t ∈ lowRealizationRepeatable input.samples rate, t.achieved ≤ s.achieved

instance (input : ProfileSearchInput) : Decidable input.NoSlowCorroboration :=
  inferInstanceAs (Decidable (∀ rate ∈ testedRates input.samples, _ → _))

variable {rate : ℕ}

theorem repeatable_corroborated {samples : List Sample}
    (h : s ∈ lowRealizationRepeatable samples rate) : s ∈ corroboratedAt samples rate := by
  have hbounded : ∀ t ∈ lowRealizationBounded samples rate, t ∈ atRate samples rate ∧
      t.metrics.manualReviewable = true ∧ t.delta ≤ reviewLatencyMs := by
    intro t ht
    rw [lowRealizationBounded, mem_filter, Bool.and_eq_true, Bool.and_eq_true, beq_iff_eq,
      decide_eq_true_eq] at ht
    exact ⟨mem_atRate.mpr ⟨ht.1, ht.2.1.1⟩, ht.2.1.2, ht.2.2⟩
  rw [lowRealizationRepeatable, mem_filter, any_eq_true] at h
  obtain ⟨hs, t, ht, hpair⟩ := h
  rw [Bool.and_eq_true] at hpair
  obtain ⟨hrate, hmanual, hdelta⟩ := hbounded s hs
  obtain ⟨hrate', hmanual', -⟩ := hbounded t ht
  rw [corroboratedAt, mem_filter, Bool.and_eq_true, Bool.and_eq_true, any_eq_true]
  refine ⟨hrate, ⟨hmanual, decide_eq_true hdelta⟩, t, hrate', ?_⟩
  rw [Bool.and_eq_true, Bool.and_eq_true]
  exact ⟨⟨hpair.1, hmanual'⟩, hpair.2⟩

theorem lowRealization_conservative {samples : List Sample} {c : LowRealizationReviewCandidate}
    (h : lowRealizationReviewCandidate samples rate = some c) :
    ((lowRealizationRepeatable samples rate).map achieved).min? =
      some c.conservativeAchievedKbps := by
  unfold lowRealizationReviewCandidate at h
  simp only at h
  split at h
  · cases h
  · split at h
    · cases h
    · simp only [bind, Option.bind_eq_some_iff, pure, Option.some.injEq] at h
      obtain ⟨conservative, hmin, selected, -, rfl⟩ := h
      exact hmin

theorem min?_eq_of_subset {small large : List ℕ} {n : ℕ} (hmin : small.min? = some n)
    (hsubset : ∀ a ∈ small, a ∈ large) (hbound : ∀ a ∈ large, ∃ b ∈ small, b ≤ a) :
    large.min? = some n := by
  have hmem := min?_mem hmin
  cases hlarge : large.min? with
  | none =>
    rw [min?_eq_none_iff] at hlarge
    have := hsubset n hmem
    rw [hlarge] at this
    cases this
  | some m =>
    obtain ⟨b, hb, hle⟩ := hbound m (min?_mem hlarge)
    have hn : n ≤ b := (le_min?_iff hmin).mp le_rfl b hb
    have hm : m ≤ n := (le_min?_iff hlarge).mp le_rfl n (hsubset n hmem)
    rw [Option.some.injEq]
    omega

def ProfileSearchResult.NoSlowCorroboration (result : ProfileSearchResult) : Prop :=
  ∀ rate ∈ testedRates result.samples, JudgedByLowRealization result.samples rate →
    ∀ s ∈ corroboratedAt result.samples rate,
      ∃ t ∈ lowRealizationRepeatable result.samples rate, t.achieved ≤ s.achieved

/-- **The assertion of Review holds** exactly without slow corroboration. -/
theorem agrees_iff : result.Agrees ↔ result.NoSlowCorroboration := by
  -- a rate that is judged by its low realization is one for which the assertion is reached
  have hreached : ∀ rate ∈ testedRates result.samples, ∀ {c : LowRealizationReviewCandidate},
      JudgedByLowRealization result.samples rate →
      lowRealizationReviewCandidate result.samples rate = some c →
      (conservativeAgrees result.samples rate = true ↔
        ((corroboratedAt result.samples rate).map achieved).min? =
          some c.conservativeAchievedKbps) := by
    intro rate hrate c hjudged hc
    obtain ⟨hsafe, hcontrolled, hcensored, -⟩ := hjudged
    obtain ⟨s, hs⟩ := mem_testedRates.mp hrate
    have hat := mem_atRate.mpr hs
    unfold conservativeAgrees
    rw [if_neg, hc]
    · simp only [beq_iff_eq]
      obtain ⟨t, ht, -⟩ := mem_map.mp (min?_mem (lowRealization_conservative hc))
      cases hmin : ((corroboratedAt result.samples rate).map achieved).min? with
      | none =>
        rw [min?_eq_none_iff, map_eq_nil_iff] at hmin
        have := repeatable_corroborated ht
        rw [hmin] at this
        cases this
      | some n =>
        rw [Option.getD_some, Option.some.injEq]
        exact eq_comm
    · rintro (hempty | hlost | hpassed | hcensored')
      · rw [List.isEmpty_iff] at hempty
        rw [hempty] at hat
        cases hat
      · obtain ⟨t, ht, hlost⟩ := any_eq_true.mp hlost
        rw [hsafe t ht] at hlost
        cases hlost
      · rw [hcontrolled] at hpassed
        cases hpassed
      · rw [hcensored] at hcensored'
        cases hcensored'
  unfold ProfileSearchResult.Agrees
  rw [all_eq_true]
  constructor
  · intro h rate hrate hjudged s hs
    obtain ⟨c, hc⟩ := Option.isSome_iff_exists.mp hjudged.2.2.2
    have hmin := (hreached rate hrate hjudged hc).mp (h rate hrate)
    obtain ⟨t, ht, hachieved⟩ := mem_map.mp (min?_mem (lowRealization_conservative hc))
    refine ⟨t, ht, ?_⟩
    rw [hachieved]
    exact (le_min?_iff hmin).mp le_rfl s.achieved (mem_map_of_mem hs)
  · intro h rate hrate
    by_cases hjudged : JudgedByLowRealization result.samples rate
    · obtain ⟨c, hc⟩ := Option.isSome_iff_exists.mp hjudged.2.2.2
      refine (hreached rate hrate hjudged hc).mpr ?_
      refine min?_eq_of_subset (lowRealization_conservative hc) (fun a ha => ?_) (fun a ha => ?_)
      · obtain ⟨s, hs, rfl⟩ := mem_map.mp ha
        exact mem_map_of_mem (repeatable_corroborated hs)
      · obtain ⟨s, hs, rfl⟩ := mem_map.mp ha
        obtain ⟨t, ht, hle⟩ := h rate hrate hjudged s hs
        exact ⟨t.achieved, mem_map_of_mem ht, hle⟩
    · unfold conservativeAgrees
      split
      · rfl
      · next hreached =>
        simp only [not_or, List.isEmpty_iff, Bool.not_eq_true, Bool.not_eq_false] at hreached
        obtain ⟨-, hlost, hcontrolled, hcensored⟩ := hreached
        split
        · rfl
        · next c hc =>
          refine absurd ⟨fun s hs => ?_, hcontrolled, hcensored, by rw [hc]; rfl⟩ hjudged
          have := any_eq_false.mp hlost s hs
          simpa using this

theorem agrees_of_noSlowCorroboration (hsamples : result.samples = input.samples)
    (h : input.NoSlowCorroboration) :
    result.Agrees := by
  rw [agrees_iff]
  unfold ProfileSearchResult.NoSlowCorroboration
  rw [hsamples]
  exact h

/-- **The search of an accepted input returns**, where debug assertions are left out or no rate has a
slow corroboration. -/
theorem optimize_returns (haccepted : input.Accepted)
    (h : debugAssertions = true → input.NoSlowCorroboration) :
    ∃ result, optimizeProfileDirection debugAssertions input = .ok result := by
  obtain ⟨raw, heq, hsound⟩ := optimize_eq debugAssertions haccepted
  have hagrees : debugAssertions = true → raw.Agrees := fun hdebug =>
    agrees_of_noSlowCorroboration hsound.samples (h hdebug)
  obtain ⟨aligned, haligned, -⟩ := exists_aligned hagrees
  exact ⟨aligned, heq.trans haligned⟩

def Asks (debugAssertions : Bool) (input : ProfileSearchInput) (rate : ℕ) : Prop :=
  ∃ result, optimizeProfileDirection debugAssertions input = .ok result ∧ result.action = .test ∧
    result.nextCandidateKbps = some rate

theorem searchRound_cases (debugAssertions : Bool) (input : ProfileSearchInput) (a : LinkAnswer) :
    (∃ rate, Asks debugAssertions input rate ∧
      searchRound debugAssertions input a = input.observed (a.observe rate)) ∨
    (∀ rate, ¬Asks debugAssertions input rate) ∧ searchRound debugAssertions input a = input := by
  unfold searchRound
  cases hsearch : optimizeProfileDirection debugAssertions input with
  | error failure =>
    refine inr ⟨?_, rfl⟩
    rintro rate ⟨result, hresult, -⟩
    rw [hsearch] at hresult
    cases hresult
  | ok result =>
    by_cases htest : result.action = .test
    · cases hnext : result.nextCandidateKbps with
      | none =>
        refine inr ⟨?_, by simp only [htest, if_true, hnext]⟩
        rintro rate ⟨result', hresult', -, hnext'⟩
        rw [hsearch] at hresult'
        cases hresult'
        rw [hnext] at hnext'
        cases hnext'
      | some rate =>
        exact inl ⟨rate, ⟨result, hsearch, htest, hnext⟩, by simp only [htest, if_true, hnext]⟩
    · refine inr ⟨?_, if_neg htest⟩
      rintro rate ⟨result', hresult', htest', -⟩
      rw [hsearch] at hresult'
      cases hresult'
      exact htest htest'

theorem Asks.bounds (haccepted : input.Accepted) (h : Asks debugAssertions input rate) :
    input.minimumKbps ≤ rate ∧ rate ≤ input.upperKbps ∧
      input.observations.length < input.maxAttempts := by
  obtain ⟨result, hresult, htest, hnext⟩ := h
  obtain ⟨rate', hnext', hminimum, hupper, hleft, -⟩ :=
    (optimize_bounded haccepted hresult).1 htest
  rw [hnext] at hnext'
  cases hnext'
  exact ⟨hminimum, hupper, hleft⟩

theorem LinkAnswer.Admissible.valid {a : LinkAnswer} (ha : a.Admissible)
    {minimumKbps upperKbps rate : ℕ} (hminimum : minimumKbps ≤ rate) (hupper : rate ≤ upperKbps) :
    (a.observe rate).Valid minimumKbps upperKbps where
  rates := decide_eq_true ⟨hminimum, hupper, ha.realized_pos, ha.realized_le, ha.achieved_pos,
    ha.achieved_le⟩
  icmp := ha.icmp
  transport := ha.transport
  loss := ha.loss
  cpu := ha.cpu

/-- What every run keeps: the input is accepted, its bounds are those of the first one, and there
are no more observations than at first or than attempts. -/
structure Searched (first input : ProfileSearchInput) : Prop where
  accepted : input.Accepted
  minimum : input.minimumKbps = first.minimumKbps
  upper : input.upperKbps = first.upperKbps
  attempts : input.maxAttempts = first.maxAttempts
  count : input.observations.length ≤ max first.observations.length first.maxAttempts

/-- **A round keeps it.** -/
theorem searched_round {first : ProfileSearchInput} {a : LinkAnswer} (ha : a.Admissible)
    (h : Searched first input) : Searched first (searchRound debugAssertions input a) := by
  rcases searchRound_cases debugAssertions input a with ⟨rate, hasks, heq⟩ | ⟨-, heq⟩
  · obtain ⟨hminimum, hupper, hleft⟩ := hasks.bounds h.accepted
    have hlength : (input.observed (a.observe rate)).observations.length =
        input.observations.length + 1 := length_append
    have hattempts := h.accepted.attempts
    rw [heq]
    refine ⟨⟨h.accepted.low, h.accepted.bounds, ⟨?_, ?_⟩, h.accepted.attempts,
      h.accepted.uncertainty, h.accepted.thresholds, ?_⟩, h.minimum, h.upper, h.attempts, ?_⟩
    · exact append_ne_nil_of_right_ne_nil _ (cons_ne_nil _ _)
    · rw [hlength]
      omega
    · intro o ho
      rcases mem_append.mp ho with ho | ho
      · exact h.accepted.valid o ho
      · obtain rfl := mem_singleton.mp ho
        exact ha.valid hminimum hupper
    · rw [hlength]
      have := h.attempts
      omega
  · rw [heq]
    exact h

variable {answers : List LinkAnswer}

theorem searched_run (h : input.Accepted) (hanswers : ∀ a ∈ answers, a.Admissible) :
    Searched input (run (searchRound debugAssertions) input answers) := by
  have hstart : Searched input input := ⟨h, rfl, rfl, rfl, le_max_left _ _⟩
  induction answers using List.reverseRecOn with
  | nil => exact hstart
  | append_singleton answers a ih =>
    rw [run_append]
    refine searched_round (hanswers a (mem_append_right _ mem_cons_self)) ?_
    exact ih fun b hb => hanswers b (mem_append_left _ hb)

theorem length_of_asks
    (h : Asks debugAssertions (run (searchRound debugAssertions) input answers) rate) :
    (run (searchRound debugAssertions) input answers).observations.length =
      input.observations.length + answers.length := by
  induction answers using List.reverseRecOn generalizing rate with
  | nil => rfl
  | append_singleton answers a ih =>
    rw [run_append] at h ⊢
    simp only [run_cons, run_nil] at h ⊢
    rcases searchRound_cases debugAssertions (run (searchRound debugAssertions) input answers) a
      with ⟨rate', hasks, heq⟩ | ⟨hquiet, heq⟩
    · rw [heq]
      have hlength := ih hasks
      simp only [ProfileSearchInput.observed, length_append, length_cons, length_nil, hlength]
      omega
    · -- a search that asks for nothing is not changed by an answer, so it would not ask now
      rw [heq] at h
      exact absurd h (hquiet rate)

/-- **The search stops inside its bounds.**  Whatever the link answers, a call returns; it asks for
a rate within the bounds while an attempt is left, or for nothing; and after as many answers as
there are attempts the search has ended.  In a build with debug assertions this is of the states
without a slow corroboration. -/
theorem search_bounded (debugAssertions : Bool) (input : ProfileSearchInput)
    (haccepted : validateProfileSearchInput input = .ok ()) (answers : List LinkAnswer)
    (hanswers : ∀ a ∈ answers, a.Admissible)
    (hcorroborated : debugAssertions = true →
      (run (searchRound debugAssertions) input answers).NoSlowCorroboration) :
    ∃ result,
      optimizeProfileDirection debugAssertions
        (run (searchRound debugAssertions) input answers) = .ok result ∧
      (result.action = .test → ∃ rate, result.nextCandidateKbps = some rate ∧
        input.minimumKbps ≤ rate ∧ rate ≤ input.upperKbps ∧
        (run (searchRound debugAssertions) input answers).observations.length < input.maxAttempts ∧
        (result.reason ∈ repeatReasons ↔
          ∃ o ∈ (run (searchRound debugAssertions) input answers).observations,
            o.candidateKbps = rate)) ∧
      (result.action ≠ .test → result.nextCandidateKbps = none) ∧
      (run (searchRound debugAssertions) input answers).observations.length ≤
        max input.observations.length input.maxAttempts ∧
      (input.maxAttempts ≤ answers.length → result.action ≠ .test) := by
  have hsearched : Searched input (run (searchRound debugAssertions) input answers) :=
    searched_run (validate_iff.mp haccepted) hanswers
  have hlength : ∀ rate,
      Asks debugAssertions (run (searchRound debugAssertions) input answers) rate →
      (run (searchRound debugAssertions) input answers).observations.length =
        input.observations.length + answers.length := fun rate => length_of_asks
  generalize run (searchRound debugAssertions) input answers = final at *
  obtain ⟨result, hresult⟩ := optimize_returns hsearched.accepted hcorroborated
  obtain ⟨hasks, hends⟩ := optimize_bounded hsearched.accepted hresult
  refine ⟨result, hresult, fun htest => ?_, hends, hsearched.count, fun hanswered htest => ?_⟩
  · obtain ⟨rate, hnext, hminimum, hupper, hleft, hreason⟩ := hasks htest
    refine ⟨rate, hnext, hsearched.minimum ▸ hminimum, hsearched.upper ▸ hupper,
      hsearched.attempts ▸ hleft, hreason.trans ?_⟩
    rw [candidateWasTested_iff]
    constructor
    · rintro ⟨s, hs, hrate⟩
      exact ⟨s.observation, mem_of_getElem? (mem_samples.mp hs).1, hrate⟩
    · rintro ⟨o, ho, hrate⟩
      obtain ⟨i, hi⟩ := mem_iff_getElem?.mp ho
      exact ⟨⟨i, o, evaluateSearchObservation final o⟩, mem_samples.mpr ⟨hi, rfl⟩, hrate⟩
  · obtain ⟨rate, hnext, -, -, hleft, -⟩ := hasks htest
    have := hlength rate ⟨result, hresult, htest, hnext⟩
    have := hsearched.attempts
    omega

def searchStart : ProfileSearchInput where
  profile := .bestOverall
  direction := .download
  observedLowKbps := 100000
  minimumKbps := 80000
  upperKbps := 100000
  thresholds := AutotuneProfile.bestOverall.validationThresholds
  uncertaintyPercent := 3 / 2
  maxAttempts := 2
  observations := [⟨100000, 95000, 95000, 0, 50, false, 0, 50⟩]

def quietAnswer : LinkAnswer := ⟨88000, 88000, 0, 20, false, 0, 50⟩

theorem quietAnswer_admissible : quietAnswer.Admissible where
  realized_pos := by decide
  realized_le := by decide
  achieved_pos := by decide
  achieved_le := by decide
  icmp := by decide
  transport := by decide
  loss := by decide
  cpu := by decide

theorem search_bounded_start :
    ∃ result, optimizeProfileDirection true
        (run (searchRound true) searchStart [quietAnswer, quietAnswer]) = .ok result ∧
      result.action ≠ .test := by
  have hanswers : ∀ a ∈ [quietAnswer, quietAnswer], a.Admissible := by
    simp only [forall_mem_cons]
    exact ⟨quietAnswer_admissible, quietAnswer_admissible, by simp⟩
  obtain ⟨result, hresult, -, -, -, hended⟩ :=
    search_bounded true searchStart (by decide +kernel) [quietAnswer, quietAnswer] hanswers
      (by decide +kernel)
  exact ⟨result, hresult, hended (by decide)⟩

/-- Four measurements of one rate: two of them corroborate one another, and a slower one is
corroborated only by one above the latency bound. -/
def slowCorroboration : ProfileSearchInput where
  profile := .fair
  direction := .download
  observedLowKbps := 1000
  minimumKbps := 500
  upperKbps := 2000
  thresholds := AutotuneProfile.fair.validationThresholds
  uncertaintyPercent := 1
  maxAttempts := 4
  observations := [⟨2000, 1400, 1000, 0, 100, false, 0, 50⟩, ⟨2000, 1400, 1000, 0, 100, false, 0, 50⟩,
    ⟨2000, 1400, 900, 0, 100, false, 0, 50⟩, ⟨2000, 1400, 900, 0, 300, false, 0, 50⟩]

theorem search_panics :
    validateProfileSearchInput slowCorroboration = .ok () ∧
      optimizeProfileDirection true slowCorroboration = .error assertionFailed := by
  decide +kernel

end CakeAutorate.Autotune
