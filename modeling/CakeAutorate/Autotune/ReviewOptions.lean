/-
# What the options of a Review show

The options come from the frontier, at most one of each rate, so an option is a candidate under a
role.
-/

import CakeAutorate.Autotune.SearchAlignment

namespace CakeAutorate.Autotune

open Machine List ReviewCandidate Ordering

/-- **An option shows a group of samples of its rate**, none of the rate above the loss limit: the
group achieved the conservative rate and had at most the worst delay.  What can be applied
automatically passed in each repeat. -/
structure ProfileSearchOption.Shows (result : ProfileSearchResult) (o : ProfileSearchOption)
    (group : List Sample) (worst : Sample) : Prop where
  rate : ∀ s ∈ group, s ∈ result.samples ∧ s.rate = o.candidateKbps
  lossless : ∀ s ∈ result.samples, s.rate = o.candidateKbps → s.metrics.resourceSafe = true
  achieved : IsLeast {n | ∃ s ∈ group, s.achieved = n} o.conservativeAchievedKbps
  delta : IsGreatest {x | ∃ s ∈ group, s.delta = x} o.worstDeltaMs
  worst_mem : worst ∈ group
  worst_delta : worst.delta = o.worstDeltaMs
  index : o.selectedIndex = worst.index
  autoApply : o.autoApplyCandidate = true →
    (o.controlled = true ∧ ∀ s ∈ group, s.metrics.safetyPass = true) ∧
      (o.transportCensored = false ∧ worst.observation.transportCensored = false) ∧
      worst.metrics.targetMet = true ∧
      result.profile.capacityFloorPercent ≤
        (o.conservativeAchievedKbps : ℚ) * 100 / result.observedLowKbps

theorem delta_of_caution {group : List Sample} {worst : Sample}
    (h : maxBy byCaution group = some worst) : ∀ s ∈ group, s.delta ≤ worst.delta := by
  refine maxBy_greatest (r := fun a b : Sample => a.delta ≤ b.delta) (fun _ => le_rfl)
    (fun _ _ _ => le_trans) (fun a b hgt => ?_) (fun a b hle => ?_) h
  · exact le_of_thenGt hgt
  · exact le_of_thenNotGt hle

theorem reviewGroup_spec {samples : List Sample} {rate : ℕ} {group : List Sample × Bool}
    (h : reviewGroup samples rate = some group) :
    (∀ s ∈ samples, s.rate = rate → s.metrics.resourceSafe = true) ∧
      (group.2 = true → group.1 = controlledAt samples rate) := by
  unfold reviewGroup at h
  split at h
  · cases h
  · next hclean =>
    rw [not_or] at hclean
    refine ⟨fun s hs hrate => ?_, ?_⟩
    · have := any_eq_false.mp (Bool.eq_false_iff.mpr hclean.2) s (mem_atRate.mpr ⟨hs, hrate⟩)
      simpa using this
    · split at h
      · cases h
        exact fun _ => rfl
      · split at h
        · cases h
          intro hfalse
          cases hfalse
        · obtain ⟨c, -, rfl⟩ := Option.map_eq_some_iff.mp h
          intro hfalse
          cases hfalse

variable {c : ReviewCandidate} {result : ProfileSearchResult}

/-- **Every candidate shows a group of its rate**, under any role. -/
theorem reviewCandidates_shows (h : c ∈ reviewCandidates result) (role : ProfileSearchOptionRole) :
    ∃ group worst, (c.asOption role).Shows result group worst := by
  have h := mem_reviewCandidates.mp h
  generalize hrate : c.candidateKbps = rate at h
  unfold reviewCandidateForRate at h
  simp only [bind, Option.bind_eq_some_iff, pure, Option.some.injEq] at h
  obtain ⟨group, hgroup, conservative, hmin, worst, hworst, rfl⟩ := h
  obtain ⟨hlossless, hcontrolled⟩ := reviewGroup_spec hgroup
  refine ⟨group.1, worst, fun s hs => reviewGroup_subset hgroup hs, hlossless, ⟨?_, ?_⟩, ⟨?_, ?_⟩,
    maxBy_mem hworst, rfl, rfl, fun hauto => ?_⟩
  · obtain ⟨s, hs, hachieved⟩ := mem_map.mp (min?_mem hmin)
    exact ⟨s, hs, hachieved⟩
  · rintro n ⟨s, hs, rfl⟩
    exact (le_min?_iff hmin).mp le_rfl s.achieved (mem_map_of_mem hs)
  · exact ⟨worst, maxBy_mem hworst, rfl⟩
  · rintro x ⟨s, hs, rfl⟩
    exact delta_of_caution hworst s hs
  · simp only [asOption, Bool.and_eq_true, Bool.not_eq_true', decide_eq_true_eq] at hauto
    obtain ⟨⟨⟨hpassed, huncensored⟩, htarget⟩, hcapacity⟩ := hauto
    refine ⟨⟨hpassed, fun s hs => ?_⟩, ⟨huncensored, huncensored⟩, htarget, hcapacity⟩
    rw [hcontrolled hpassed] at hs
    exact (mem_filter.mp hs).2

/-- The options are candidates of the frontier under a role, each rate once. -/
structure OptionsFrom (frontier : List ReviewCandidate) (options : List ProfileSearchOption) :
    Prop where
  origin : ∀ o ∈ options, ∃ c ∈ frontier, ∃ role, o = c.asOption role
  distinct : (options.map ProfileSearchOption.candidateKbps).Nodup

def ReviewCandidate.ShownIn (c : ReviewCandidate) (options : List ProfileSearchOption) : Prop :=
  ∃ role, c.asOption role ∈ options

section Push

variable {frontier : List ReviewCandidate} {options : List ProfileSearchOption}

theorem pushOption_from
    (hunique : ∀ c ∈ frontier, ∀ d ∈ frontier, c.candidateKbps = d.candidateKbps → c = d)
    (h : OptionsFrom frontier options) (role : ProfileSearchOptionRole)
    {candidate : Option ReviewCandidate} (hcandidate : ∀ c, candidate = some c → c ∈ frontier) :
    OptionsFrom frontier (pushOption options (role, candidate)) ∧
      (∀ o ∈ options, o ∈ pushOption options (role, candidate)) ∧
      (∀ c, candidate = some c → c.ShownIn (pushOption options (role, candidate))) ∧
      (pushOption options (role, candidate)).length ≤ options.length + 1 := by
  unfold pushOption
  split
  · next hnone =>
    refine ⟨h, fun o ho => ho, fun c hc => ?_, Nat.le_succ _⟩
    have hnone : candidate = none := hnone
    rw [hnone] at hc
    cases hc
  · next c hc =>
    have hc : candidate = some c := hc
    subst hc
    have hmem := hcandidate c rfl
    split
    · next hshown =>
      obtain ⟨o, ho, hrate⟩ := any_eq_true.mp hshown
      obtain ⟨d, hd, role', rfl⟩ := h.origin o ho
      have hsame : d = c := hunique d hd c hmem (eq_of_beq hrate)
      subst hsame
      refine ⟨h, fun o ho => ho, fun c' hc' => ?_, Nat.le_succ _⟩
      cases hc'
      exact ⟨role', ho⟩
    · next hhidden =>
      refine ⟨⟨fun o ho => ?_, ?_⟩, fun o ho => mem_append_left _ ho, fun c' hc' => ?_, ?_⟩
      · rcases mem_append.mp ho with ho | ho
        · exact h.origin o ho
        · rw [mem_singleton.mp ho]
          exact ⟨c, hmem, role, rfl⟩
      · rw [map_append, nodup_append]
        refine ⟨h.distinct, nodup_singleton _, ?_⟩
        rintro rate hrate rate' hrate' rfl
        obtain ⟨o, ho, rfl⟩ := mem_map.mp hrate
        have hsame : o.candidateKbps = c.candidateKbps := mem_singleton.mp hrate'
        exact hhidden (any_eq_true.mpr ⟨o, ho, beq_iff_eq.mpr hsame⟩)
      · cases hc'
        exact ⟨role, mem_append_right _ (mem_singleton_self _)⟩
      · exact length_append.le

end Push

theorem reviewFrontier_unique :
    ∀ c ∈ reviewFrontier result, ∀ d ∈ reviewFrontier result,
      c.candidateKbps = d.candidateKbps → c = d :=
  fun _ hc _ hd h => reviewCandidates_unique (reviewFrontier_subset hc) (reviewFrontier_subset hd) h

theorem reviewFrontier_nodup (result : ProfileSearchResult) :
    ((reviewFrontier result).map candidateKbps).Nodup := by
  have htested : (testedRates result.samples).Nodup := nodup_dedup _
  have hcandidates : ((reviewCandidates result).map candidateKbps).Sublist
      (testedRates result.samples) := by
    unfold reviewCandidates
    induction testedRates result.samples with
    | nil => exact Sublist.refl _
    | cons rate rates ih =>
      rw [filterMap_cons]
      split
      · exact ih.cons _
      · next c hc =>
        rw [map_cons, (reviewCandidateForRate_shows hc).1]
        exact ih.cons_cons _
  exact ((filter_sublist.map _).trans hcandidates).nodup htested

theorem roleOptions_from (result : ProfileSearchResult) :
    OptionsFrom (reviewFrontier result) (roleOptions result (reviewFrontier result)) ∧
      (roleOptions result (reviewFrontier result)).length ≤ maxProfileReviewOptions ∧
      (∀ c, qualityCandidate (reviewFrontier result) = some c →
        c.ShownIn (roleOptions result (reviewFrontier result))) ∧
      ∀ c, throughputCandidate (reviewFrontier result) = some c →
        c.ShownIn (roleOptions result (reviewFrontier result)) := by
  have hempty : OptionsFrom (reviewFrontier result) [] :=
    ⟨fun o ho => absurd ho not_mem_nil, nodup_nil⟩
  obtain ⟨hfrom, -, -, hlength⟩ := pushOption_from reviewFrontier_unique hempty
    .recommended (fun c => recommendedCandidate_mem)
  obtain ⟨hfrom', -, hquality, hlength'⟩ := pushOption_from reviewFrontier_unique hfrom
    .qualityFirst (fun c => minBy_mem)
  obtain ⟨hfrom'', hkept, hthroughput, hlength''⟩ := pushOption_from reviewFrontier_unique
    hfrom' .throughputFirst (fun c => maxBy_mem)
  refine ⟨hfrom'', ?_, fun c hc => ?_, hthroughput⟩
  · have h0 : ([] : List ProfileSearchOption).length = 0 := rfl
    show _ ≤ 3
    exact hlength''.trans (by omega)
  · obtain ⟨role, hrole⟩ := hquality c hc
    exact ⟨role, hkept _ hrole⟩

/-- **The options of a terminal result**: candidates of the frontier, each rate once, at most three,
with the candidates of the roles. -/
theorem reviewOptions_from (hterminal : result.action.terminal = true) :
    OptionsFrom (reviewFrontier result) (reviewOptions result) ∧
      (reviewOptions result).length ≤ maxProfileReviewOptions ∧
      (∀ c, qualityCandidate (reviewFrontier result) = some c → c.ShownIn (reviewOptions result)) ∧
      ∀ c, throughputCandidate (reviewFrontier result) = some c →
        c.ShownIn (reviewOptions result) := by
  obtain ⟨hroles, hlength, hquality, hthroughput⟩ := roleOptions_from result
  unfold reviewOptions
  rw [if_neg (by rw [hterminal]; decide)]
  simp only
  generalize roleOptions result (reviewFrontier result) = roles at *
  -- the alternatives are the candidates whose rates are not shown yet
  have halternatives : ∀ o ∈ balancedAlternatives result (reviewFrontier result) roles,
      ∃ c ∈ reviewFrontier result, o = c.asOption .balancedAlternative ∧
        ∀ shown ∈ roles, shown.candidateKbps ≠ c.candidateKbps := by
    intro o ho
    obtain ⟨c, hc, rfl⟩ := mem_map.mp ho
    obtain ⟨hmem, hhidden⟩ := mem_filter.mp ((mem_insertionSort _).mp hc)
    rw [Bool.not_eq_true', any_eq_false] at hhidden
    exact ⟨c, hmem, rfl, fun shown hshown heq => hhidden shown hshown (beq_iff_eq.mpr heq)⟩
  have hnodup : ((balancedAlternatives result (reviewFrontier result) roles).map
      ProfileSearchOption.candidateKbps).Nodup := by
    unfold balancedAlternatives
    rw [map_map]
    refine (((perm_insertionSort _ _).map _).nodup_iff).mpr ?_
    exact (filter_sublist.map _).nodup (reviewFrontier_nodup result)
  have hall : OptionsFrom (reviewFrontier result)
      (roles ++ balancedAlternatives result (reviewFrontier result) roles) := by
    refine ⟨fun o ho => ?_, ?_⟩
    · rcases mem_append.mp ho with ho | ho
      · exact hroles.origin o ho
      · obtain ⟨c, hc, heq, -⟩ := halternatives o ho
        exact ⟨c, hc, _, heq⟩
    · rw [map_append, nodup_append]
      refine ⟨hroles.distinct, hnodup, ?_⟩
      rintro rate hrate rate' hrate' rfl
      obtain ⟨shown, hshown, hsame⟩ := mem_map.mp hrate
      obtain ⟨o, ho, hsame'⟩ := mem_map.mp hrate'
      obtain ⟨c, -, rfl, hhidden⟩ := halternatives o ho
      exact hhidden shown hshown (hsame.trans hsame'.symm)
  have hkept : ∀ c : ReviewCandidate, c.ShownIn roles → c.ShownIn
      ((roles ++ balancedAlternatives result (reviewFrontier result) roles).take
        maxProfileReviewOptions) := by
    rintro c ⟨role, hrole⟩
    refine ⟨role, ?_⟩
    rw [take_append, take_of_length_le hlength]
    exact mem_append_left _ hrole
  refine ⟨⟨fun o ho => hall.origin o (mem_of_mem_take ho), ?_⟩, length_take_le _ _,
    fun c hc => hkept c (hquality c hc), fun c hc => hkept c (hthroughput c hc)⟩
  exact ((take_sublist _ _).map _).nodup hall.distinct

def ReviewCandidate.BeatsOption (c : ReviewCandidate) (o : ProfileSearchOption) : Prop :=
  o.controlled ≤ c.controlled ∧ o.conservativeAchievedKbps ≤ c.conservativeAchievedKbps ∧
  c.worstDeltaMs ≤ o.worstDeltaMs ∧
  (o.controlled < c.controlled ∨ o.conservativeAchievedKbps < c.conservativeAchievedKbps ∨
    c.worstDeltaMs < o.worstDeltaMs)

/-- **Sound options.**  There are at most three, of different rates; each shows a group of its rate;
no candidate of any rate beats one; and the least delay and the greatest throughput of the frontier
are among them. -/
structure ProfileSearchResult.OptionsSound (result : ProfileSearchResult) : Prop where
  count : (reviewOptions result).length ≤ maxProfileReviewOptions
  distinct : ((reviewOptions result).map ProfileSearchOption.candidateKbps).Nodup
  shows : ∀ o ∈ reviewOptions result, ∃ group worst, o.Shows result group worst
  unbeaten : ∀ o ∈ reviewOptions result, ∀ c ∈ reviewCandidates result, ¬c.BeatsOption o
  quality : reviewFrontier result ≠ [] → ∃ o ∈ reviewOptions result,
    IsLeast {x | ∃ c ∈ reviewFrontier result, c.worstDeltaMs = x} o.worstDeltaMs
  throughput : reviewFrontier result ≠ [] → ∃ o ∈ reviewOptions result,
    IsGreatest {n | ∃ c ∈ reviewFrontier result, c.conservativeAchievedKbps = n}
      o.conservativeAchievedKbps

theorem qualityCandidate_least {frontier : List ReviewCandidate}
    (h : qualityCandidate frontier = some c) :
    IsLeast {x | ∃ d ∈ frontier, d.worstDeltaMs = x} c.worstDeltaMs := by
  refine ⟨⟨c, minBy_mem h, rfl⟩, ?_⟩
  rintro x ⟨d, hd, rfl⟩
  refine minBy_least (r := fun a b : ReviewCandidate => a.worstDeltaMs ≤ b.worstDeltaMs)
    (fun _ => le_rfl) (fun _ _ _ => le_trans) (fun a b hgt => ?_) (fun a b hle => ?_) h d hd
  · rw [then_assoc] at hgt
    exact le_of_thenGt hgt
  · rw [then_assoc] at hle
    exact le_of_thenNotGt hle

theorem throughputCandidate_greatest {frontier : List ReviewCandidate}
    (h : throughputCandidate frontier = some c) :
    IsGreatest {n | ∃ d ∈ frontier, d.conservativeAchievedKbps = n} c.conservativeAchievedKbps := by
  refine ⟨⟨c, maxBy_mem h, rfl⟩, ?_⟩
  rintro n ⟨d, hd, rfl⟩
  refine maxBy_greatest
    (r := fun a b : ReviewCandidate => a.conservativeAchievedKbps ≤ b.conservativeAchievedKbps)
    (fun _ => le_rfl) (fun _ _ _ => le_trans) (fun a b hgt => ?_) (fun a b hle => ?_) h d hd
  · rw [then_assoc] at hgt
    exact le_of_thenGt hgt
  · rw [then_assoc] at hle
    exact le_of_thenNotGt hle

theorem frontier_unbeaten {d : ReviewCandidate} (hc : c ∈ reviewFrontier result)
    (hd : d ∈ reviewCandidates result) (role : ProfileSearchOptionRole) :
    ¬d.BeatsOption (c.asOption role) := by
  rintro hbeats
  have hbeats : d.Beats c := hbeats
  by_cases hrate : d.candidateKbps = c.candidateKbps
  · rw [reviewCandidates_unique hd (reviewFrontier_subset hc) hrate] at hbeats
    exact ReviewCandidate.Beats.irrefl c hbeats
  · have hnot := (mem_filter.mp hc).2
    rw [Bool.not_eq_true', any_eq_false] at hnot
    refine hnot d hd ?_
    obtain ⟨hcontrolled, hachieved, hdelta, hbetter⟩ := hbeats
    simp only [dominates, Bool.and_eq_true, Bool.or_eq_true, decide_eq_true_eq, bne_iff_ne]
    refine ⟨⟨⟨⟨hrate, hcontrolled⟩, hachieved⟩, hdelta⟩, ?_⟩
    rcases hbetter with h | h | h
    · exact .inl (.inl (ne_of_gt h))
    · exact .inl (.inr h)
    · exact .inr h

/-- **The options of every terminal result are sound.** -/
theorem optionsSound (hterminal : result.action.terminal = true) : result.OptionsSound := by
  obtain ⟨hfrom, hcount, hquality, hthroughput⟩ := reviewOptions_from hterminal
  refine ⟨hcount, hfrom.distinct, fun o ho => ?_, fun o ho c hc => ?_, fun hne => ?_, fun hne => ?_⟩
  · obtain ⟨c, hc, role, rfl⟩ := hfrom.origin o ho
    exact reviewCandidates_shows (reviewFrontier_subset hc) role
  · obtain ⟨d, hd, role, rfl⟩ := hfrom.origin o ho
    exact frontier_unbeaten hd hc role
  · obtain ⟨c, hc⟩ := exists_mem_of_ne_nil _ hne
    obtain ⟨best, hbest⟩ : ∃ best, qualityCandidate (reviewFrontier result) = some best :=
      minBy_of_mem hc
    obtain ⟨role, hrole⟩ := hquality best hbest
    exact ⟨_, hrole, qualityCandidate_least hbest⟩
  · obtain ⟨c, hc⟩ := exists_mem_of_ne_nil _ hne
    obtain ⟨best, hbest⟩ : ∃ best, throughputCandidate (reviewFrontier result) = some best :=
      maxBy_of_mem hc
    obtain ⟨role, hrole⟩ := hthroughput best hbest
    exact ⟨_, hrole, throughputCandidate_greatest hbest⟩

/-- **Review options.**  The options of a terminal result are sound, and the two computations of the
group of low realization agree, exactly without a slow corroboration. -/
theorem review_options_sound (result : ProfileSearchResult)
    (hterminal : result.action.terminal = true) :
    (result.OptionsSound ∧ result.Agrees) ↔ result.NoSlowCorroboration := by
  rw [← agrees_iff]
  constructor
  · exact fun h => h.2
  · exact fun h => ⟨optionsSound hterminal, h⟩

instance (result : ProfileSearchResult) : Decidable result.NoSlowCorroboration :=
  inferInstanceAs (Decidable (∀ rate ∈ testedRates result.samples, _ → _))

theorem review_options_sound_search :
    ∃ result, optimizeProfileDirection true reviewedSearch = .ok result ∧
      result.OptionsSound ∧ result.Agrees := by
  have hends : ((optimizeProfileDirection true reviewedSearch).toOption.any fun result =>
      result.action.terminal && decide result.NoSlowCorroboration) = true := by decide +kernel
  obtain ⟨result, hsearch, hends⟩ := exists_of_any hends
  obtain ⟨hterminal, hslow⟩ := Bool.and_eq_true_iff.mp hends
  exact ⟨result, hsearch, (review_options_sound result hterminal).mpr (of_decide_eq_true hslow)⟩

theorem review_groups_disagree :
    ∃ result, optimizeProfileDirection false slowCorroboration = .ok result ∧
      result.action.terminal = true ∧ ¬result.Agrees := by
  have hends : ((optimizeProfileDirection false slowCorroboration).toOption.any fun result =>
      result.action.terminal && !(testedRates result.samples).all (conservativeAgrees result.samples))
      = true := by decide +kernel
  obtain ⟨result, hsearch, hends⟩ := exists_of_any hends
  obtain ⟨hterminal, hfails⟩ := Bool.and_eq_true_iff.mp hends
  refine ⟨result, hsearch, hterminal, fun hagrees => ?_⟩
  have hagrees : (testedRates result.samples).all (conservativeAgrees result.samples) = true :=
    hagrees
  rw [hagrees] at hfails
  cases hfails

end CakeAutorate.Autotune
