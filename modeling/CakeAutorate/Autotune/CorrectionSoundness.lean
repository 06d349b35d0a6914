/-
# What a validation proposes

A decrease is bounded from below by the rate at which the realized share of the candidate would
retain the floor, an increase is checked against the same rate, and both are compared with the
candidate after rounding, so that rounding cannot turn one into the other.
-/

import CakeAutorate.Autotune.CandidateValidation
import CakeAutorate.Autotune.DecisionSoundness

namespace CakeAutorate.Autotune

open List ValidationInput GateKind AutotuneProfile

section

variable (input : ValidationInput) (scope : ValidationScope) (kind : GateKind)

theorem gatePass_gates : gatePass input.gates scope kind = (input.gate scope kind).pass := by
  cases scope <;> cases kind <;> rfl

theorem gate_name :
    (input.gate scope kind).scope = scope ∧ (input.gate scope kind).kind = kind := by
  cases kind <;> exact ⟨rfl, rfl⟩

end

variable {input : ValidationInput} {d : DirectionValidationInput}

theorem mem_gates {g : ValidationGate} :
    g ∈ input.gates ↔ ∃ scope kind, g = input.relax (input.gate scope kind) := by
  unfold gates
  rw [mem_map]
  constructor
  · rintro ⟨entry, -, rfl⟩
    exact ⟨entry.1, entry.2, rfl⟩
  · rintro ⟨scope, kind, rfl⟩
    refine ⟨(scope, kind), ?_, rfl⟩
    cases scope <;> cases kind <;> decide

variable {gates : List ValidationGate}

theorem allPass_iff {keep : ValidationGate → Bool} :
    allPass gates keep = true ↔ ∀ g ∈ gates, keep g = true → g.pass = true := by
  unfold allPass
  rw [all_eq_true]
  constructor
  · exact fun h g hg hkeep => h g (mem_filter.mpr ⟨hg, hkeep⟩)
  · exact fun h g hg => h g (mem_filter.mp hg).1 (mem_filter.mp hg).2

theorem allPass_mono {keep kept : ValidationGate → Bool} (h : allPass gates keep = true)
    (hkept : ∀ g ∈ gates, kept g = true → keep g = true) :
    allPass gates kept = true :=
  allPass_iff.mpr fun g hg hkeep => allPass_iff.mp h g hg (hkept g hg hkeep)

/-- The rates of a direction that is accepted. -/
structure DirectionValidationInput.Valid (d : DirectionValidationInput) : Prop where
  observed_pos : 0 < d.observedLowKbps
  candidate_pos : 0 < d.candidateKbps
  realized_pos : 0 < d.realizedKbps
  achieved_pos : 0 < d.achievedKbps
  candidate_le : d.candidateKbps ≤ maxRate
  minimum : d.minimumKbps ≤ d.candidateKbps
  maximum : d.candidateKbps ≤ d.maximumKbps

/-- An input that is accepted: its rates, loads and thresholds are in range. -/
structure ValidationInput.Accepted (input : ValidationInput) : Prop where
  rates : ∀ scope, (input.rates scope).Valid
  delays : ∀ scope, 0 ≤ (input.load scope).icmpDeltaMs ∧ 0 ≤ (input.load scope).transportDeltaMs
  loss : ∀ scope, 0 ≤ (input.load scope).lossPercent
  realization : 0 ≤ input.thresholds.candidateRealizationMinPercent
  retention : 0 ≤ input.thresholds.capacityRetentionMinPercent
  realizationMax : 100 ≤ input.thresholds.candidateRealizationMaxPercent
  lossMax : 0 ≤ input.thresholds.lossMaxPercent
  delaysMax : 0 ≤ input.thresholds.icmpDeltaMaxMs ∧ 0 ≤ input.thresholds.transportDeltaMaxMs

theorem bind_unit {ε β : Type} {x : Except ε Unit} {k : Unit → Except ε β} {b : β} :
    (x >>= k) = .ok b ↔ x = .ok () ∧ k () = .ok b := by
  rw [bind_ok]
  constructor
  · rintro ⟨⟨⟩, hx, hk⟩
    exact ⟨hx, hk⟩
  · rintro ⟨hx, hk⟩
    exact ⟨(), hx, hk⟩

theorem validateDirectionValidationInput_ok {name : String}
    (h : validateDirectionValidationInput name d = .ok ()) : d.Valid := by
  unfold validateDirectionValidationInput at h
  simp only [bind_unit, check_ok, forM_ok, forall_mem_cons, decide_eq_true_eq] at h
  obtain ⟨hpositive, hlimits, hordered⟩ := h
  exact ⟨by omega, by omega, by omega, by omega, hlimits.2.1, hordered.2.1, hordered.2.2⟩

theorem validateDirectionLoadInput_ok {name : String} {l : DirectionLoadInput}
    (h : validateDirectionLoadInput name l = .ok ()) :
    (0 ≤ l.icmpDeltaMs ∧ 0 ≤ l.transportDeltaMs) ∧ 0 ≤ l.lossPercent := by
  unfold validateDirectionLoadInput at h
  simp only [check_ok, forM_ok, forall_mem_cons, within, decide_eq_true_eq] at h
  exact ⟨⟨h.1.1, h.2.1.1⟩, h.2.2.1.1⟩

theorem validateValidationInput_ok (h : validateValidationInput input = .ok ()) :
    input.Accepted := by
  unfold validateValidationInput at h
  simp only [bind_unit] at h
  obtain ⟨hdownload, hupload, hdownloadLoad, huploadLoad, hthresholds⟩ := h
  unfold validateThresholds at hthresholds
  simp only [bind_unit, check_ok, forM_ok, forall_mem_cons, within,
    decide_eq_true_eq] at hthresholds
  obtain ⟨hpercent, hmaximum, -, hdelays⟩ := hthresholds
  refine ⟨fun scope => ?_, fun scope => ?_, fun scope => ?_, hpercent.1.1, hpercent.2.1.1,
    hmaximum.1, hpercent.2.2.1.1, ⟨hdelays.1.1, hdelays.2.1.1⟩⟩
  · cases scope with
    | download => exact validateDirectionValidationInput_ok hdownload
    | upload => exact validateDirectionValidationInput_ok hupload
  · cases scope with
    | download => exact (validateDirectionLoadInput_ok hdownloadLoad).1
    | upload => exact (validateDirectionLoadInput_ok huploadLoad).1
  · cases scope with
    | download => exact (validateDirectionLoadInput_ok hdownloadLoad).2
    | upload => exact (validateDirectionLoadInput_ok huploadLoad).2

theorem roundedRate_ok {rate : ℚ} (h : 0 < rate) : ∃ n, roundedRate rate = .ok n := by
  unfold roundedRate checkedRoundedRate
  rw [if_neg (not_le.mpr h)]
  simp only
  split
  · exact ⟨_, rfl⟩
  · exact ⟨_, rfl⟩

theorem roundedSearchRate_ge (x : ℚ) : roundedSearchRate x = maxRate ∨ x ≤ roundedSearchRate x := by
  unfold roundedSearchRate
  simp only
  split
  · exact .inl rfl
  · have hceil : max x 100 / 100 ≤ (⌈max x 100 / 100⌉ : ℚ) := Int.le_ceil _
    have hmax : x ≤ max x 100 := le_max_left _ _
    have hhundred : (100 : ℚ) ≤ max x 100 := le_max_right _ _
    have hpositive : (0 : ℤ) ≤ ⌈max x 100 / 100⌉ * 100 := by
      have : (0 : ℚ) ≤ (⌈max x 100 / 100⌉ : ℚ) := by linarith
      have : (0 : ℤ) ≤ ⌈max x 100 / 100⌉ := by exact_mod_cast this
      omega
    refine .inr ?_
    have hcast : (((⌈max x 100 / 100⌉ * 100).toNat : ℤ) : ℚ) = ((⌈max x 100 / 100⌉ * 100 : ℤ) : ℚ) := by
      rw [Int.toNat_of_nonneg hpositive]
    have hcast' : ((⌈max x 100 / 100⌉ * 100).toNat : ℚ) = (⌈max x 100 / 100⌉ : ℚ) * 100 := by
      rw [← Int.cast_natCast, hcast]
      push_cast
      ring
    linarith

def DirectionValidationInput.RetainsFloor (d : DirectionValidationInput) (floorPercent : ℚ)
    (rate : ℕ) : Prop :=
  floorPercent * d.observedLowKbps / 100 ≤ rate * ((d.realizedKbps : ℚ) / d.candidateKbps)

theorem required_retains (hd : d.Valid) {floorPercent : ℚ} {rate : ℕ}
    (h : requiredCandidateForFloor d (validationMetrics d) floorPercent ≤ rate) :
    requiredCandidateForFloor d (validationMetrics d) floorPercent = maxRate ∨
      d.RetainsFloor floorPercent rate := by
  unfold requiredCandidateForFloor validationMetrics at h ⊢
  have hcandidate : (0 : ℚ) < d.candidateKbps := by exact_mod_cast hd.candidate_pos
  have hrealized : (0 : ℚ) < d.realizedKbps := by exact_mod_cast hd.realized_pos
  have hshare : (0 : ℚ) < (d.realizedKbps : ℚ) / d.candidateKbps := div_pos hrealized hcandidate
  have hrealization : (d.realizedKbps : ℚ) * 100 / d.candidateKbps / 100 =
      (d.realizedKbps : ℚ) / d.candidateKbps := by
    field_simp
  rw [hrealization] at h ⊢
  rcases roundedSearchRate_ge ((d.observedLowKbps : ℚ) * (floorPercent / 100) /
      ((d.realizedKbps : ℚ) / d.candidateKbps)) with hcapped | hge
  · exact .inl hcapped
  · refine .inr ?_
    have hrate : (roundedSearchRate ((d.observedLowKbps : ℚ) * (floorPercent / 100) /
        ((d.realizedKbps : ℚ) / d.candidateKbps)) : ℚ) ≤ rate := by exact_mod_cast h
    have hle := (div_le_iff₀ hshare).mp (hge.trans hrate)
    calc floorPercent * d.observedLowKbps / 100
        = (d.observedLowKbps : ℚ) * (floorPercent / 100) := by ring
      _ ≤ rate * ((d.realizedKbps : ℚ) / d.candidateKbps) := hle

theorem predicted_of_retains (hd : d.Valid) {floorPercent : ℚ} {rate : ℕ}
    (h : d.RetainsFloor floorPercent rate) (hachieved : d.realizedKbps ≤ d.achievedKbps) :
    floorPercent ≤ predictedCapacityRetention d (validationMetrics d) rate := by
  have hobserved : (0 : ℚ) < d.observedLowKbps := by exact_mod_cast hd.observed_pos
  have hshare : (rate : ℚ) * ((d.realizedKbps : ℚ) / d.candidateKbps) ≤
      rate * ((d.achievedKbps : ℚ) / d.candidateKbps) := by gcongr
  have hretained := h.trans hshare
  unfold predictedCapacityRetention validationMetrics
  calc floorPercent = floorPercent * d.observedLowKbps / 100 * 100 / d.observedLowKbps := by
        field_simp
    _ ≤ rate * ((d.achievedKbps : ℚ) / d.candidateKbps) * 100 / d.observedLowKbps := by gcongr
    _ = (d.achievedKbps : ℚ) * 100 / d.observedLowKbps * rate / d.candidateKbps := by
        field_simp

/-- **A sound correction**: within the bounds; a decrease follows an adverse gate and keeps the
required rate, an increase follows none and reaches it.  The required rate retains the floor unless
it is capped. -/
structure DirectionCorrection.Sound (d : DirectionValidationInput) (floorPercent : ℚ)
    (adverse : Prop) (c : DirectionCorrection) : Prop where
  bounds : d.minimumKbps ≤ c.proposedKbps ∧ c.proposedKbps ≤ d.maximumKbps
  decrease : c.action = .decrease → adverse ∧ c.proposedKbps < d.candidateKbps ∧
    c.requiredFloorKbps ≤ c.proposedKbps ∧ d.RetainsFloor floorPercent c.proposedKbps ∧
    (d.realizedKbps ≤ d.achievedKbps → floorPercent ≤ c.predictedCapacityRetentionPercent)
  increase : c.action = .increase → ¬adverse ∧ d.candidateKbps < c.proposedKbps ∧
    c.requiredFloorKbps ≤ c.proposedKbps ∧
    (c.requiredFloorKbps = maxRate ∨ d.RetainsFloor floorPercent c.proposedKbps ∧
      (d.realizedKbps ≤ d.achievedKbps → floorPercent ≤ c.predictedCapacityRetentionPercent))

section Direction

variable {d : DirectionValidationInput} {floorPercent : ℚ} {adverse : Prop}

theorem sound_unchanged (hd : d.Valid) {c : DirectionCorrection}
    (hproposed : c.proposedKbps = d.candidateKbps) (hdecrease : c.action ≠ .decrease)
    (hincrease : c.action ≠ .increase) : c.Sound d floorPercent adverse :=
  ⟨by rw [hproposed]; exact ⟨hd.minimum, hd.maximum⟩, fun h => absurd h hdecrease,
    fun h => absurd h hincrease⟩

theorem sound_infeasible (hd : d.Valid) (required : ℕ) (reason : String) :
    (infeasibleDirectionCorrection d (validationMetrics d) required reason).Sound d floorPercent
      adverse :=
  sound_unchanged hd rfl nofun nofun

theorem sound_decreaseDirectionCorrection (hd : d.Valid) (hadverse : adverse) :
    ∃ c, decreaseDirectionCorrection d (validationMetrics d) floorPercent = .ok c ∧
      c.Sound d floorPercent adverse := by
  have hcandidate : (0 : ℚ) < d.candidateKbps := by exact_mod_cast hd.candidate_pos
  obtain ⟨bounded, hbounded⟩ : ∃ n, roundedRate (d.candidateKbps * (95 / 100)) = .ok n :=
    roundedRate_ok (by positivity)
  unfold decreaseDirectionCorrection
  simp only [bind, Except.bind, pure, Except.pure, hbounded]
  split
  · exact ⟨_, rfl, sound_infeasible hd _ _⟩
  · next hrequired =>
    split
    · exact ⟨_, rfl, sound_infeasible hd _ _⟩
    · next hdesired =>
      refine ⟨_, rfl, ⟨?_, ?_⟩, fun _ => ?_, nofun⟩
      · exact (le_max_right _ _).trans (le_max_right _ _)
      · exact (not_le.mp hdesired).le.trans hd.maximum
      · have hkept := le_max_right (max bounded d.minimumKbps)
          (max (requiredCandidateForFloor d (validationMetrics d) floorPercent) d.minimumKbps)
        -- a capped rate would not be below the candidate
        have hretains : d.RetainsFloor floorPercent (max (max bounded d.minimumKbps)
            (max (requiredCandidateForFloor d (validationMetrics d) floorPercent)
              d.minimumKbps)) := by
          rcases required_retains hd ((le_max_left _ _).trans hkept) with hcapped | hretains
          · have hbelow := (le_max_left _ _).trans_lt (not_le.mp hrequired)
            rw [hcapped] at hbelow
            exact absurd hd.candidate_le (not_le.mpr hbelow)
          · exact hretains
        exact ⟨hadverse, not_le.mp hdesired, hkept, hretains, predicted_of_retains hd hretains⟩

theorem revisionUpper_ok (hd : d.Valid) :
    ∃ upper, revisionUpper d 1 = .ok upper ∧ upper ≤ d.maximumKbps := by
  have hcandidate : (0 : ℚ) < d.candidateKbps := by exact_mod_cast hd.candidate_pos
  have hobserved : (0 : ℚ) < d.observedLowKbps := by exact_mod_cast hd.observed_pos
  obtain ⟨observed, hround⟩ : ∃ n, roundedRate ((d.observedLowKbps : ℚ) * 1) = .ok n :=
    roundedRate_ok (by positivity)
  obtain ⟨bounded, hbounded⟩ : ∃ n, roundedRate (d.candidateKbps * (120 / 100)) = .ok n :=
    roundedRate_ok (by positivity)
  unfold revisionUpper
  simp only [bind, Except.bind, pure, Except.pure, hround, hbounded]
  refine ⟨_, rfl, max_le ?_ (hd.minimum.trans hd.maximum)⟩
  exact (min_le_left _ _).trans (min_le_right _ _)

theorem sound_increaseDirectionCorrection (hd : d.Valid) (hadverse : ¬adverse) :
    ∃ c, increaseDirectionCorrection d (validationMetrics d) floorPercent 1 = .ok c ∧
      c.Sound d floorPercent adverse := by
  have hcandidate : (0 : ℚ) < d.candidateKbps := by exact_mod_cast hd.candidate_pos
  obtain ⟨bounded, hbounded⟩ : ∃ n, roundedRate (d.candidateKbps * (105 / 100)) = .ok n :=
    roundedRate_ok (by positivity)
  obtain ⟨upper, hupper, hmaximum⟩ := revisionUpper_ok hd
  unfold increaseDirectionCorrection
  simp only [bind, Except.bind, pure, Except.pure, hbounded, hupper]
  split
  · exact ⟨_, rfl, sound_infeasible hd _ _⟩
  · next hrequired =>
    split
    · exact ⟨_, rfl, sound_infeasible hd _ _⟩
    · next hdesired =>
      have habove := not_le.mp hdesired
      have hreached := le_min (le_max_right bounded
        (max (requiredCandidateForFloor d (validationMetrics d) floorPercent) d.minimumKbps))
        (not_lt.mp hrequired)
      refine ⟨_, rfl, ⟨hd.minimum.trans habove.le, (min_le_right _ _).trans hmaximum⟩,
        by intro h; (cases h), fun _ => ⟨hadverse, habove, hreached, ?_⟩⟩
      rcases required_retains hd ((le_max_left _ _).trans hreached) with hcapped | hretains
      · -- the required rate is the greater of the capped one and the minimum
        have hminimum : d.minimumKbps ≤ maxRate := hd.minimum.trans hd.candidate_le
        exact .inl (by show max _ _ = maxRate; rw [hcapped]; exact max_eq_left hminimum)
      · exact .inr ⟨hretains, predicted_of_retains hd hretains⟩

end Direction

def ValidationInput.Adverse (input : ValidationInput) (scope : ValidationScope) : Prop :=
  ∃ kind ∈ adverseKinds, (input.gate scope kind).pass = false

/-- **The correction of a direction is sound**, and there is one. -/
theorem sound_directionValidationCorrection (h : input.Accepted) (scope : ValidationScope) :
    ∃ c, directionValidationCorrection (input.rates scope) (input.metrics scope)
        input.thresholds.capacityRetentionMinPercent input.gates scope 1 = .ok c ∧
      c.Sound (input.rates scope) input.thresholds.capacityRetentionMinPercent
        (input.Adverse scope) := by
  have hd := h.rates scope
  unfold directionValidationCorrection metrics
  simp only [gatePass_gates]
  split
  · exact ⟨_, rfl, sound_unchanged hd rfl nofun nofun⟩
  · split
    · exact ⟨_, rfl, sound_unchanged hd rfl nofun nofun⟩
    · split
      · next hadverse =>
        refine sound_decreaseDirectionCorrection hd ?_
        obtain ⟨kind, hkind, hfailed⟩ := any_eq_true.mp hadverse
        rw [Bool.not_eq_true'] at hfailed
        exact ⟨kind, hkind, hfailed⟩
      · next hclean =>
        split
        · refine sound_increaseDirectionCorrection hd ?_
          rintro ⟨kind, hkind, hfailed⟩
          refine hclean (any_eq_true.mpr ⟨kind, hkind, ?_⟩)
          rw [hfailed]
          rfl
        · exact ⟨_, rfl, sound_unchanged hd rfl nofun nofun⟩

def ValidationCorrection.direction (c : ValidationCorrection) : ValidationScope → DirectionCorrection
  | .download => c.download
  | .upload => c.upload

def DirectionCorrection.Blocks (c : DirectionCorrection) : Prop :=
  c.action = .retryMeasurement ∨ c.action = .infeasible

theorem combineCorrections_spec (download upload : DirectionCorrection) :
    (combineCorrections download upload).download = download ∧
      (combineCorrections download upload).upload = upload ∧
      ((combineCorrections download upload).feasible = true ↔ ¬download.Blocks ∧ ¬upload.Blocks) := by
  unfold combineCorrections DirectionCorrection.Blocks
  split
  · next hretry =>
    refine ⟨rfl, rfl, iff_of_false Bool.false_ne_true ?_⟩
    rintro ⟨hdownload, hupload⟩
    rcases hretry with h | h
    · exact hdownload (.inl h)
    · exact hupload (.inl h)
  · next hretry =>
    rw [not_or] at hretry
    split
    · next hinfeasible =>
      refine ⟨rfl, rfl, iff_of_false Bool.false_ne_true ?_⟩
      rintro ⟨hdownload, hupload⟩
      rcases hinfeasible with h | h
      · exact hdownload (.inr h)
      · exact hupload (.inr h)
    · next hinfeasible =>
      rw [not_or] at hinfeasible
      refine ⟨rfl, rfl, iff_of_true rfl ⟨?_, ?_⟩⟩
      · rintro (h | h)
        · exact hretry.1 h
        · exact hinfeasible.1 h
      · rintro (h | h)
        · exact hretry.2 h
        · exact hinfeasible.2 h

/-- **A correction exists, is sound in both directions**, and is feasible unless a direction blocks
it. -/
theorem validationCorrection_sound (h : input.Accepted) (pass : Bool) :
    ∃ c, validationCorrection input input.gates pass = .ok c ∧
      (∀ scope, (c.direction scope).Sound (input.rates scope)
        input.thresholds.capacityRetentionMinPercent (input.Adverse scope)) ∧
      (c.feasible = true ↔ ∀ scope, ¬(c.direction scope).Blocks) := by
  have hboth : ∀ {P : ValidationScope → Prop}, (∀ scope, P scope) ↔ P .download ∧ P .upload := by
    intro P
    constructor
    · exact fun h => ⟨h .download, h .upload⟩
    · rintro ⟨hdownload, hupload⟩ scope
      cases scope with
      | download => exact hdownload
      | upload => exact hupload
  unfold validationCorrection
  split
  · refine ⟨_, rfl, hboth.mpr ⟨?_, ?_⟩, iff_of_true rfl (hboth.mpr ⟨?_, ?_⟩)⟩
    · exact sound_unchanged (h.rates .download) rfl nofun nofun
    · exact sound_unchanged (h.rates .upload) rfl nofun nofun
    · rintro (h | h)
      · cases h
      · cases h
    · rintro (h | h)
      · cases h
      · cases h
  · obtain ⟨download, hdownload, hsound⟩ := sound_directionValidationCorrection h .download
    obtain ⟨upload, hupload, hsound'⟩ := sound_directionValidationCorrection h .upload
    have hdownload : directionValidationCorrection input.download (input.metrics .download)
        input.thresholds.capacityRetentionMinPercent input.gates .download 1 = .ok download :=
      hdownload
    have hupload : directionValidationCorrection input.upload (input.metrics .upload)
        input.thresholds.capacityRetentionMinPercent input.gates .upload 1 = .ok upload := hupload
    obtain ⟨hfirst, hsecond, hfeasible⟩ := combineCorrections_spec download upload
    refine ⟨combineCorrections download upload, ?_, hboth.mpr ⟨?_, ?_⟩, ?_⟩
    · simp [bind, Except.bind, hdownload, hupload, pure, Except.pure]
    · show (combineCorrections download upload).download.Sound _ _ _
      rw [hfirst]
      exact hsound
    · show (combineCorrections download upload).upload.Sound _ _ _
      rw [hsecond]
      exact hsound'
    · rw [hfeasible, hboth]
      show _ ↔ ¬(combineCorrections download upload).download.Blocks ∧
        ¬(combineCorrections download upload).upload.Blocks
      rw [hfirst, hsecond]

theorem le_foldl_min {x start : ℚ} {l : List ℚ} :
    x ≤ l.foldl min start ↔ x ≤ start ∧ ∀ y ∈ l, x ≤ y := by
  induction l generalizing start with
  | nil => simp
  | cons y l ih =>
    rw [foldl_cons, ih, le_min_iff, forall_mem_cons, and_assoc]

theorem validationScore_eq :
    validationScore gates = 100 ↔ ∀ g ∈ gates, g.kind.isCpu = false → 100 ≤ gateScore g := by
  have hscore : validationScore gates = 100 ↔
      (100 : ℚ) ≤ ((gates.filter fun g => !g.kind.isCpu).map gateScore).foldl min 100 := by
    unfold validationScore
    generalize ((gates.filter fun g => !g.kind.isCpu).map gateScore).foldl min 100 = least
    constructor
    · intro h
      by_contra hlt
      have hlt := not_le.mp hlt
      have : min (max least 0) 100 < 100 := by
        rw [min_lt_iff, max_lt_iff]
        exact .inl ⟨hlt, by norm_num⟩
      linarith
    · exact fun h => min_eq_right (h.trans (le_max_left _ _))
  rw [hscore, le_foldl_min]
  constructor
  · rintro ⟨-, h⟩ g hg hcpu
    refine h _ (mem_map_of_mem (mem_filter.mpr ⟨hg, ?_⟩))
    rw [hcpu]
    rfl
  · refine fun h => ⟨le_rfl, fun y hy => ?_⟩
    obtain ⟨g, hg, rfl⟩ := mem_map.mp hy
    obtain ⟨hg, hcpu⟩ := mem_filter.mp hg
    exact h g hg (by simpa using hcpu)

section Score

variable {scope : ValidationScope} {kind : GateKind} {actual limit : ℚ}

theorem minimumGate_score (hactual : 0 ≤ actual) :
    100 ≤ gateScore (minimumGate scope kind actual limit) ↔ limit ≤ actual := by
  unfold gateScore minimumGate
  simp only
  split
  · next hlimit => exact iff_of_true le_rfl (hlimit.trans hactual)
  · next hlimit =>
    rw [le_div_iff₀ (not_le.mp hlimit)]
    constructor
    · intro h
      linarith
    · intro h
      linarith

theorem maximumGate_score (hlimit : 0 ≤ limit) :
    100 ≤ gateScore (maximumGate scope kind actual limit) ↔ actual ≤ limit := by
  unfold gateScore maximumGate
  simp only
  split
  · next h =>
    refine iff_of_true le_rfl ?_
    rcases h with h | h
    · exact h
    · exact h.trans hlimit
  · next h =>
    rw [not_or, not_le, not_le] at h
    split
    · exact iff_of_false (by norm_num) (not_le.mpr h.1)
    · rw [le_div_iff₀ h.2]
      constructor
      · intro h'
        linarith
      · intro h'
        linarith

theorem exclusiveMaximumGate_score (hlimit : 0 ≤ limit) :
    100 ≤ gateScore (exclusiveMaximumGate scope kind actual limit) ↔
      actual < limit ∨ actual = limit := by
  rw [← le_iff_lt_or_eq]
  unfold gateScore exclusiveMaximumGate
  simp only
  split
  · next h =>
    refine iff_of_true le_rfl ?_
    rcases h with h | h
    · exact h.le
    · exact h.trans hlimit
  · next h =>
    rw [not_or, not_lt, not_le] at h
    split
    · next hzero => exact iff_of_false (by norm_num) (not_le.mpr (hzero.trans_lt h.2))
    · rw [le_div_iff₀ h.2]
      constructor
      · intro h'
        linarith
      · intro h'
        linarith

end Score

/-- **What scores 100**: a gate that passes, and a latency that is exactly at its limit. -/
theorem gateScore_iff (h : input.Accepted) (scope : ValidationScope) (kind : GateKind)
    (hcpu : kind.isCpu = false) :
    100 ≤ gateScore (input.gate scope kind) ↔ (input.gate scope kind).pass = true ∨
      kind.isLatency = true ∧ (input.gate scope kind).actual = (input.gate scope kind).limit := by
  have hrealization : 0 ≤ (input.metrics scope).candidateRealizationPercent := by
    unfold metrics validationMetrics
    positivity
  have hretention : 0 ≤ (input.metrics scope).capacityRetentionPercent := by
    unfold metrics validationMetrics
    positivity
  cases kind with
  | candidateRealization =>
    refine (minimumGate_score hrealization).trans ?_
    simp [gate, minimumGate, isLatency]
  | candidateRealizationMaximum =>
    refine (maximumGate_score (by linarith [h.realizationMax])).trans ?_
    simp [gate, maximumGate, isLatency]
  | capacityRetention =>
    refine (@minimumGate_score scope .capacityRetention _ _ hretention).trans ?_
    simp [gate, advisoryMinimumGate, minimumGate, isLatency]
  | throughputSafetyFloor =>
    refine (@minimumGate_score scope .throughputSafetyFloor _ _ hretention).trans ?_
    simp [gate, advisoryMinimumGate, minimumGate, isLatency]
  | icmpLatency =>
    refine (exclusiveMaximumGate_score h.delaysMax.1).trans ?_
    simp [gate, exclusiveMaximumGate, isLatency]
  | transportLatency =>
    refine (exclusiveMaximumGate_score h.delaysMax.2).trans ?_
    simp [gate, exclusiveMaximumGate, isLatency]
  | packetLoss =>
    refine (maximumGate_score h.lossMax).trans ?_
    simp [gate, maximumGate, isLatency]
  | cpu => cases hcpu

theorem safetyPass_of_hardPass {c : ValidationCorrection}
    (hthresholds : input.thresholds = input.profile.validationThresholds)
    (h : (input.verdict c).hardPass = true) : (input.verdict c).safetyPass = true := by
  have hrealized : ∀ scope,
      throughputTrustFloorPercent ≤ (input.metrics scope).candidateRealizationPercent := by
    intro scope
    have hpass := allPass_iff.mp h _ (mem_gates.mpr ⟨scope, .candidateRealization, rfl⟩) (by
      unfold relax
      simp [gate, minimumGate, isLatency])
    have hrealized : input.thresholds.candidateRealizationMinPercent ≤
        (input.metrics scope).candidateRealizationPercent := of_decide_eq_true hpass
    rw [hthresholds] at hrealized
    refine le_trans ?_ hrealized
    unfold validationThresholds throughputTrustFloorPercent
    norm_num
  unfold verdict
  simp only [Bool.and_eq_true, decide_eq_true_eq]
  refine ⟨⟨allPass_mono h fun g _ hkept => ?_, hrealized .download⟩, hrealized .upload⟩
  simp only [Bool.and_eq_true] at hkept
  exact hkept.1.1

/-- **Validation corrections are sound.**  Every accepted input has a result with sound corrections,
feasible unless a direction is to be measured again or cannot be corrected; a pass is a hard pass, a
hard pass is safe under the thresholds of the profile, and the score is 100 exactly when each gate
that counts passes. -/
theorem validation_sound (input : ValidationInput) (h : validateValidationInput input = .ok ()) :
    ∃ result, validateShapedCandidate input = .ok result ∧
      (∀ scope, (result.correction.direction scope).Sound (input.rates scope)
        input.thresholds.capacityRetentionMinPercent (input.Adverse scope)) ∧
      (result.correction.feasible = true ↔ ∀ scope, ¬(result.correction.direction scope).Blocks) ∧
      (result.pass = true → result.hardPass = true) ∧
      (input.thresholds = input.profile.validationThresholds →
        result.hardPass = true → result.safetyPass = true) ∧
      (result.score = 100 ↔ ∀ g ∈ result.gates, g.kind ≠ .cpu →
        g.pass = true ∨ g.kind.isLatency = true ∧ g.actual = g.limit) := by
  have haccepted := validateValidationInput_ok h
  obtain ⟨c, hc, hsound, hfeasible⟩ := validationCorrection_sound haccepted
    (allPass input.gates fun g => g.required || g.kind.isLatency)
  refine ⟨input.verdict c, ?_, hsound, hfeasible, fun hpass => ?_, safetyPass_of_hardPass, ?_⟩
  · unfold validateShapedCandidate
    rw [h]
    simp only [Except.mapError, bind, Except.bind, hc, pure, Except.pure]
  · exact allPass_mono hpass fun g _ hrequired => by rw [hrequired]; rfl
  · show validationScore input.gates = 100 ↔ ∀ g ∈ input.gates, _
    have hcpu : ∀ kind : GateKind, kind ≠ .cpu ↔ kind.isCpu = false := by
      intro kind
      cases kind <;> decide
    rw [validationScore_eq]
    refine forall₂_congr fun g hg => ?_
    rw [hcpu]
    refine forall_congr' fun hother => ?_
    obtain ⟨scope, kind, rfl⟩ := mem_gates.mp hg
    have hkind : (input.relax (input.gate scope kind)).kind = kind := (gate_name input scope kind).2
    rw [hkind] at hother ⊢
    exact gateScore_iff haccepted scope kind hother

def lowGoodput : DirectionValidationInput := ⟨100000, 100000, 100000, 60000, 40000, 110000⟩

def adverseCandidate : ValidationInput where
  profile := .bestOverall
  download := lowGoodput
  upload := lowGoodput
  downloadLoad := ⟨0, 150, 0, 50⟩
  uploadLoad := ⟨0, 150, 0, 50⟩
  thresholds := bestOverall.validationThresholds

def limitCandidate : ValidationInput where
  profile := .bestOverall
  download := { lowGoodput with achievedKbps := 95000 }
  upload := { lowGoodput with achievedKbps := 95000 }
  downloadLoad := ⟨0, 30, 0, 50⟩
  uploadLoad := ⟨0, 20, 0, 50⟩
  thresholds := bestOverall.validationThresholds

theorem validation_sound_limit :
    ∃ result, validateShapedCandidate limitCandidate = .ok result ∧ result.score = 100 := by
  obtain ⟨result, hresult, -, -, -, -, hscore⟩ :=
    validation_sound limitCandidate (by decide +kernel)
  refine ⟨result, hresult, hscore.mpr ?_⟩
  have hgates : ((validateShapedCandidate limitCandidate).toOption.all fun result =>
      result.gates.all fun g => g.kind == .cpu || g.pass ||
        (g.kind.isLatency && decide (g.actual = g.limit))) = true := by decide +kernel
  rw [hresult] at hgates
  intro g hg hother
  have hg := all_eq_true.mp hgates g hg
  simp only [Bool.or_eq_true, Bool.and_eq_true, beq_iff_eq, decide_eq_true_eq] at hg
  rcases hg with (hcpu | hpass) | hlimit
  · exact absurd hcpu hother
  · exact .inl hpass
  · exact .inr hlimit

theorem validation_unsound :
    ((validateShapedCandidate adverseCandidate).toOption.any fun result =>
      result.correction.download.action == .decrease &&
      decide (result.correction.download.predictedCapacityRetentionPercent <
        adverseCandidate.thresholds.capacityRetentionMinPercent)) = true ∧
    ((validateShapedCandidate limitCandidate).toOption.any fun result =>
      decide (result.score = 100) && result.gates.any fun g =>
        g.kind == .transportLatency && !g.pass) = true := by
  decide +kernel

end CakeAutorate.Autotune
