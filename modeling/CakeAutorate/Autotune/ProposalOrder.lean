/-
# The order of a proposal's rates

The rates of a direction form a chain from the exploration minimum up to the absolute cap, and the
cap stays within the service's hard cap. `build_proposal` makes such a proposal.
-/

import CakeAutorate.Autotune.Proposal

namespace CakeAutorate.Autotune

open Controller (roundRate roundRate_of_nonneg)
open Machine AutotuneProposal Option

/-- **The order of a direction's rates.** -/
structure DirectionProposal.Ordered (d : DirectionProposal) : Prop where
  floor_le : 100 ≤ d.explorationMinimumKbps
  exploration_le : d.explorationMinimumKbps ≤ d.minimumKbps
  minimum_le : d.minimumKbps ≤ d.baseKbps
  base_le : d.baseKbps ≤ d.maximumKbps
  maximum_le : d.maximumKbps ≤ d.absoluteCapKbps
  runtime_le : ∀ r, d.runtimeMinimumKbps = some r → r ≤ d.baseKbps
  tested_le : ∀ t, d.testedSafeMaximumKbps = some t → t ≤ d.maximumKbps
  cap_le : ∀ s, d.serviceHardCapKbps = some s → d.absoluteCapKbps ≤ s

/-- Both directions are in order. -/
structure AutotuneProposal.Ordered (p : AutotuneProposal) : Prop where
  download : p.download.Ordered
  upload : p.upload.Ordered

/-- The highest base rate that keeps the order: up to the cap while the maximum follows the base,
up to the maximum once it has been validated or retained. -/
def DirectionProposal.baseLimit (d : DirectionProposal) : ℕ :=
  if d.ceilingEvidence = .unvalidatedCandidate then d.absoluteCapKbps else d.maximumKbps

/-- A revision fits: the scaled base, or the reference that bounds it, is within the limit, and it
does not drop below a runtime minimum. -/
structure DirectionProposal.RevisionFits (d : DirectionProposal) (scale : ℚ) : Prop where
  above : ∀ upper scaled, reviseUpper d = .ok upper →
    checkedRoundedRate (d.baseKbps * scale) = .ok scaled →
    scaled ≤ d.baseLimit ∨ upper ≤ d.baseLimit
  below : ∀ upper scaled r, reviseUpper d = .ok upper →
    checkedRoundedRate (d.baseKbps * scale) = .ok scaled → d.runtimeMinimumKbps = some r →
    r ≤ d.minimumKbps ∨ r ≤ scaled ∧ r ≤ upper

/-- A measurement base fits: it is at least the minimum and the runtime minimum. -/
structure DirectionProposal.BaseFits (d : DirectionProposal) (candidate : ℕ) : Prop where
  minimum_le : d.minimumKbps ≤ candidate
  runtime_le : ∀ r, d.runtimeMinimumKbps = some r → r ≤ candidate

/-- Confirmed limits fit: what bounds the cap is at least 100, and a positive confirmed maximum is at
least the exploration minimum and the runtime minimum that the cap has left. -/
structure DirectionProposal.LimitsFit (d : DirectionProposal) (confirmedMax confirmedCap : Option ℕ) :
    Prop where
  cap : ∀ b, capBound confirmedMax confirmedCap = some b → 100 ≤ b
  maximum : ∀ b m, capBound confirmedMax confirmedCap = some b → confirmedMax = some m → 0 < m →
    min d.explorationMinimumKbps b ≤ m ∧ ∀ r, d.runtimeMinimumKbps = some r → min r b ≤ m

def ProposalCall.RetainsOrdered : ProposalCall → Prop
  | .applyConservativeConstraints retainDownload retainUpload _ _ _ _ =>
    (∀ d, retainDownload = some d → d.Ordered) ∧ (∀ d, retainUpload = some d → d.Ordered)
  | _ => True

def AutotuneProposal.Fits (p : AutotuneProposal) : ProposalCall → Prop
  | .reviseBaseRatesByDirection download upload =>
    p.download.RevisionFits download ∧ p.upload.RevisionFits upload
  | .setMeasurementBaseRates download upload => p.download.BaseFits download ∧ p.upload.BaseFits upload
  | .setMeasuredRuntimeMinimums _ _ => True
  | .setTestedSafeMaximums _ _ => True
  | .applyConservativeConstraints retainDownload retainUpload downloadMax downloadCap uploadMax
      uploadCap =>
    ((∀ d, retainDownload = some d → d.Ordered) ∧ (∀ d, retainUpload = some d → d.Ordered)) ∧
    (retainDirection retainDownload p.download).LimitsFit downloadMax downloadCap ∧
    (retainDirection retainUpload p.upload).LimitsFit uploadMax uploadCap

/-- A call that is refused leaves the proposal as it was if it checks before it changes anything, or
if it has nothing to change in the download before it refuses the upload. -/
def AutotuneProposal.ChecksFirst (p : AutotuneProposal) : ProposalCall → Prop
  | .setMeasuredRuntimeMinimums download _ =>
    ∀ d, setMeasuredRuntimeMinimum p.profile "download" download p.download = .ok d → d = p.download
  | .setTestedSafeMaximums download _ =>
    ∀ d, setTestedSafeMaximum "download" download p.download = .ok d → d = p.download
  | _ => True

theorem le_checkedRoundedRate {rate : ℚ} {n : ℕ} (h : checkedRoundedRate rate = .ok n) : 100 ≤ n := by
  unfold checkedRoundedRate at h
  split at h
  · cases h
  · simp only at h
    split at h
    · cases h
      decide
    · cases h
      have hone : (1 : ℚ) ≤ max rate 100 / 100 := by
        have : (100 : ℚ) ≤ max rate 100 := le_max_right _ _
        linarith
      have hfloor : (1 : ℤ) ≤ ⌊max rate 100 / 100 + 1 / 2⌋ := by
        rw [Int.le_floor]
        linarith
      have hround : (100 : ℤ) ≤ ⌊roundRate (max rate 100 / 100) * 100⌋ := by
        rw [roundRate_of_nonneg (by linarith), Int.le_floor]
        have hcast : (1 : ℚ) ≤ (⌊max rate 100 / 100 + 1 / 2⌋ : ℚ) := by exact_mod_cast hfloor
        linarith
      omega

/-- A direction that has just been proposed is in order, and only its measured rates are set. -/
structure DirectionProposal.Fresh (d : DirectionProposal) : Prop extends Ordered d where
  runtime_none : d.runtimeMinimumKbps = none
  tested_none : d.testedSafeMaximumKbps = none
  service_none : d.serviceHardCapKbps = none

variable {d : DirectionProposal} {profile : AutotuneProfile}

theorem proposeDirection_fresh {samples : List ℚ} {direction : SearchDirection}
    {medium : Option AccessMedium} (h : proposeDirection samples profile direction medium = .ok d) :
    d.Fresh := by
  simp only [proposeDirection, bind_ok, pure, Except.pure, Except.ok.injEq] at h
  obtain ⟨minimum, hminimum, low, hlow, high, hhigh, median, hmedian, rfl⟩ := h
  have hfloor := le_checkedRoundedRate hminimum
  refine ⟨⟨hfloor, le_rfl, le_max_right _ _, le_max_right _ _, le_rfl, ?_, ?_, ?_⟩, rfl, rfl, rfl⟩
  · intro r hr; cases hr
  · intro t ht; cases ht
  · intro s hs; cases hs

theorem applyServiceCap_ordered {name : String} {cap : Option ℕ} {d' : DirectionProposal}
    (hd : d.Fresh) (h : applyServiceCap name cap d = .ok d') : d'.Ordered := by
  obtain ⟨hordered, hruntime, htested, hservice⟩ := hd
  obtain ⟨hfloor, hexploration, hminimum, hbase, hmaximum, -, -, -⟩ := hordered
  unfold applyServiceCap at h
  split at h
  · cases h
    exact ⟨hfloor, hexploration, hminimum, hbase, hmaximum, by simp [hruntime], by simp [htested],
      by simp [hservice]⟩
  split at h
  · cases h
  rename_i cap hrange
  split at h
  · cases h
    refine ⟨?_, ?_, ?_, ?_, ?_, by simp [hruntime], by simp [htested], ?_⟩
    · show 100 ≤ min d.explorationMinimumKbps (min d.baseKbps (min d.maximumKbps cap))
      omega
    · show min d.explorationMinimumKbps (min d.baseKbps (min d.maximumKbps cap))
        ≤ min d.minimumKbps (min d.baseKbps (min d.maximumKbps cap))
      omega
    · exact min_le_right _ _
    · exact min_le_right _ _
    · exact min_le_right _ _
    · intro s hs
      exact (some.inj hs).le
  · rename_i habove
    cases h
    refine ⟨hfloor, hexploration, hminimum, hbase, hmaximum, by simp [hruntime], by simp [htested], ?_⟩
    intro s hs
    cases hs
    exact (not_le.1 habove).le

/-- **A proposal that is built is in order.** -/
theorem buildProposal_ordered {downloadSamples uploadSamples : List ℚ}
    {baseline : LatencyBaseline} {linkKind : LinkKind} {context : ProposalContext}
    {p : AutotuneProposal}
    (h : buildProposal downloadSamples uploadSamples baseline linkKind profile context = .ok p) :
    p.Ordered := by
  simp only [buildProposal, bind_ok, pure, Except.pure, Except.ok.injEq] at h
  obtain ⟨-, -, -, -, -, -, -, -, -, -, download, hdownload, upload, hupload, download', hdownload',
    upload', hupload', rfl⟩ := h
  exact ⟨applyServiceCap_ordered (proposeDirection_fresh hdownload) hdownload',
    applyServiceCap_ordered (proposeDirection_fresh hupload) hupload'⟩

theorem constrainMaximum_exploration (confirmedMax : Option ℕ) (d : DirectionProposal) :
    (constrainMaximum confirmedMax d).explorationMinimumKbps = d.explorationMinimumKbps := by
  unfold constrainMaximum
  split <;> rfl

namespace DirectionProposal.Ordered

variable {d d' : DirectionProposal} (hd : d.Ordered)

include hd

theorem revised {scale : ℚ} (hfits : d.RevisionFits scale) (h : reviseDirectionBase scale d = .ok d') :
    d'.Ordered := by
  obtain ⟨hfloor, hexploration, hminimum, hbase, hmaximum, -, htested, hcap⟩ := hd
  simp only [reviseDirectionBase, bind_ok, pure, Except.pure, Except.ok.injEq] at h
  obtain ⟨upper, hupper, scaled, hscaled, rfl⟩ := h
  have habove := hfits.above upper scaled hupper hscaled
  have hlimit : d.minimumKbps ≤ d.baseLimit := by
    unfold baseLimit
    split <;> omega
  have hreach : min (max scaled d.minimumKbps) (max upper d.minimumKbps) ≤ d.baseLimit := by omega
  have hruntime : ∀ r, d.runtimeMinimumKbps = some r →
      r ≤ min (max scaled d.minimumKbps) (max upper d.minimumKbps) := by
    intro r hr
    have hbelow := hfits.below upper scaled r hupper hscaled hr
    omega
  have hmin : d.minimumKbps ≤ min (max scaled d.minimumKbps) (max upper d.minimumKbps) := by omega
  unfold baseLimit at hreach
  -- the maximum follows the base only while it has not been validated
  split at hreach
  · rename_i hevidence
    simp only [hevidence, if_true]
    exact ⟨hfloor, hexploration, hmin, le_max_right _ _, max_le hmaximum hreach, hruntime,
      fun t ht => (htested t ht).trans (le_max_left _ _), hcap⟩
  · rename_i hevidence
    simp only [hevidence, if_false]
    exact ⟨hfloor, hexploration, hmin, hreach, hmaximum, hruntime, htested, hcap⟩

omit hd in
theorem revisionFits {scale : ℚ} (h : reviseDirectionBase scale d = .ok d') (hd' : d'.Ordered) :
    d.RevisionFits scale := by
  simp only [reviseDirectionBase, bind_ok, pure, Except.pure, Except.ok.injEq] at h
  obtain ⟨upper, hupper, scaled, hscaled, rfl⟩ := h
  have hbase := hd'.base_le
  have hmaximum := hd'.maximum_le
  constructor
  · intro upper' scaled' hupper' hscaled'
    rw [hupper] at hupper'
    rw [hscaled] at hscaled'
    cases hupper'
    cases hscaled'
    unfold baseLimit
    by_cases hevidence : d.ceilingEvidence = .unvalidatedCandidate
    · simp only [hevidence, if_true] at hbase hmaximum ⊢
      omega
    · simp only [hevidence, if_false] at hbase hmaximum ⊢
      omega
  · intro upper' scaled' r hupper' hscaled' hr
    rw [hupper] at hupper'
    rw [hscaled] at hscaled'
    cases hupper'
    cases hscaled'
    have hle : r ≤ min (max scaled d.minimumKbps) (max upper d.minimumKbps) := hd'.runtime_le r hr
    omega

variable {name : String}

theorem measured {measured : ℕ} (h : setMeasuredRuntimeMinimum profile name measured d = .ok d') :
    d'.Ordered := by
  simp only [setMeasuredRuntimeMinimum, bind_ok, check_ok, pure, Except.pure, Except.ok.injEq,
    decide_eq_true_eq] at h
  obtain ⟨-, -, -, hrange, rfl⟩ := h
  refine ⟨hd.floor_le, hrange.1, hrange.2, hd.base_le, hd.maximum_le, ?_, hd.tested_le, hd.cap_le⟩
  intro r hr
  cases hr
  exact hrange.2

theorem tested {measured : Option ℕ} (h : setTestedSafeMaximum name measured d = .ok d') :
    d'.Ordered := by
  unfold setTestedSafeMaximum at h
  split at h
  · cases h
    exact hd
  · rename_i measured
    simp only [bind_ok, check_ok, pure, Except.pure, Except.ok.injEq, decide_eq_true_eq,
      beq_iff_eq] at h
    obtain ⟨-, rfl, -, hrange, rfl⟩ := h
    have hbase : d.baseKbps ≤ d.absoluteCapKbps := hd.base_le.trans hd.maximum_le
    refine ⟨hd.floor_le, hd.exploration_le, hd.minimum_le, le_rfl, ?_, hd.runtime_le, ?_, ?_⟩
    · show d.baseKbps ≤ min (max d.absoluteCapKbps d.baseKbps) (max d.explorationCapKbps d.baseKbps)
      omega
    · intro t ht
      exact (some.inj ht).ge
    · intro s hs
      have hle := hd.cap_le s hs
      show min (max d.absoluteCapKbps d.baseKbps) (max d.explorationCapKbps d.baseKbps) ≤ s
      omega

theorem based {candidate : ℕ} (hfits : d.BaseFits candidate)
    (h : validateMeasurementBase name candidate d = .ok ()) :
    ({ d with baseKbps := candidate } : DirectionProposal).Ordered := by
  simp only [validateMeasurementBase, check_ok, decide_eq_true_eq] at h
  exact ⟨hd.floor_le, hd.exploration_le, hfits.minimum_le, h.2, hd.maximum_le, hfits.runtime_le,
    hd.tested_le, hd.cap_le⟩

theorem capped {bound : ℕ} (hbound : 100 ≤ bound) : (constrainCap (some bound) d).Ordered := by
  obtain ⟨hfloor, hexploration, hminimum, hbase, hmaximum, -, -, hcap⟩ := hd
  refine ⟨?_, min_le_right _ _, min_le_right _ _, min_le_right _ _, min_le_right _ _, ?_, ?_, ?_⟩
  · simp only [constrainCap]
    omega
  · intro r hr
    obtain ⟨r', -, rfl⟩ := map_eq_some_iff.1 hr
    exact min_le_right _ _
  · intro t ht
    obtain ⟨t', -, rfl⟩ := map_eq_some_iff.1 ht
    exact min_le_right _ _
  · intro s hs
    exact (min_le_left _ _).trans (hcap s hs)

theorem bounded {bound : ℕ} (hexploration : d.explorationMinimumKbps ≤ bound)
    (hruntime : ∀ r, d.runtimeMinimumKbps = some r → r ≤ bound) :
    (constrainMaximum (some bound) d).Ordered := by
  have hpos : 0 < bound := by
    have := hd.floor_le
    omega
  have hsome : (some bound).filter (0 < ·) = some bound := by simp [hpos]
  obtain ⟨hfloor, hle, hminimum, hbase, hmaximum, hruntime', -, hcap⟩ := hd
  simp only [constrainMaximum, hsome]
  refine ⟨hfloor, ?_, min_le_right _ _, min_le_right _ _, le_max_right _ _, ?_, ?_, ?_⟩
  · show d.explorationMinimumKbps ≤ min d.minimumKbps (min d.baseKbps (min d.maximumKbps bound))
    omega
  · intro r hr
    have hold := hruntime' r hr
    have hnew := hruntime r hr
    show r ≤ min d.baseKbps (min d.maximumKbps bound)
    omega
  · intro t ht
    obtain ⟨t', -, rfl⟩ := map_eq_some_iff.1 ht
    exact min_le_right _ _
  · intro s hs
    have hle := hcap s hs
    show max d.absoluteCapKbps (min d.maximumKbps bound) ≤ s
    omega

variable {confirmedMax confirmedCap : Option ℕ}

theorem constrained (hfits : d.LimitsFit confirmedMax confirmedCap) :
    (constrainMaximum confirmedMax (constrainCap (capBound confirmedMax confirmedCap) d)).Ordered := by
  cases hbound : capBound confirmedMax confirmedCap with
  | none =>
    have hmax : confirmedMax = none := (or_eq_none_iff.1 hbound).2
    subst hmax
    exact hd
  | some b =>
    have hcapped := hd.capped (hfits.cap b hbound)
    cases confirmedMax with
    | none => exact hcapped
    | some m =>
      rcases Nat.eq_zero_or_pos m with rfl | hpos
      · exact hcapped
      obtain ⟨hexploration, hruntime⟩ := hfits.maximum b m hbound rfl hpos
      refine hcapped.bounded ?_ ?_
      · simp only [constrainCap]
        omega
      · intro r hr
        obtain ⟨r', hr', rfl⟩ := map_eq_some_iff.1 hr
        have hle := hruntime r' hr'
        omega

theorem limitsFit
    (h : (constrainMaximum confirmedMax (constrainCap (capBound confirmedMax confirmedCap)
      d)).Ordered) :
    d.LimitsFit confirmedMax confirmedCap := by
  have hexp := hd.exploration_le
  have hmin := hd.minimum_le
  have hbase := hd.base_le
  have hcap := hd.maximum_le
  constructor
  · intro b hb
    rw [hb] at h
    have hfloor : 100 ≤ (constrainCap (some b) d).explorationMinimumKbps := by
      have := h.floor_le
      rwa [constrainMaximum_exploration] at this
    simp only [constrainCap] at hfloor
    omega
  · intro b m hb hm hpos
    subst hm
    rw [hb] at h
    have hsome : (some m).filter (0 < ·) = some m := by simp [hpos]
    have hminimum := h.exploration_le
    have hruntime := h.runtime_le
    simp only [constrainMaximum, hsome, constrainCap] at hminimum hruntime
    refine ⟨by omega, fun r hr => ?_⟩
    have hle := hruntime (min r (min d.baseKbps (min d.maximumKbps (min d.absoluteCapKbps b))))
      (by rw [hr]; rfl)
    have hold := hd.runtime_le r hr
    omega

end DirectionProposal.Ordered

theorem retainDirection_ordered {retained : Option DirectionProposal} (hd : d.Ordered)
    (hretained : ∀ r, retained = some r → r.Ordered) : (retainDirection retained d).Ordered := by
  cases retained with
  | none => exact hd
  | some r =>
    obtain ⟨hfloor, hexploration, hminimum, hbase, hmaximum, hruntime, htested, hcap⟩ :=
      hretained r rfl
    exact ⟨hfloor, hexploration, hminimum, hbase, hmaximum, hruntime, htested, hcap⟩

namespace AutotuneProposal

variable {p : AutotuneProposal}

theorem updateBoth_cases (p : AutotuneProposal) (failed : String → Outcome)
    (download upload : DirectionProposal → Except String DirectionProposal) :
    (∃ message, p.updateBoth failed download upload = (p, failed message)) ∨
    (∃ d message, download p.download = .ok d ∧
      p.updateBoth failed download upload = ({ p with download := d }, failed message)) ∨
    (∃ d u, download p.download = .ok d ∧ upload p.upload = .ok u ∧
      p.updateBoth failed download upload = ({ p with download := d, upload := u }, .done)) := by
  unfold updateBoth
  split
  · exact .inl ⟨_, rfl⟩
  · rename_i d hd
    split
    · exact .inr (.inl ⟨d, _, hd, rfl⟩)
    · rename_i u hu
      exact .inr (.inr ⟨d, u, hd, hu, rfl⟩)

theorem Ordered.updateBoth (h : p.Ordered) {failed : String → Outcome}
    {download upload : DirectionProposal → Except String DirectionProposal}
    (hdownload : ∀ d, download p.download = .ok d → d.Ordered)
    (hupload : ∀ d, upload p.upload = .ok d → d.Ordered) :
    (p.updateBoth failed download upload).1.Ordered := by
  rcases updateBoth_cases p failed download upload with
    ⟨message, heq⟩ | ⟨d, message, hd, heq⟩ | ⟨d, u, hd, hu, heq⟩
  · rw [heq]
    exact h
  · rw [heq]
    exact ⟨hdownload d hd, h.upload⟩
  · rw [heq]
    exact ⟨hdownload d hd, hupload u hu⟩

variable {c : ProposalCall}

/-- **Every call that fits keeps the order.** -/
theorem Ordered.step (h : p.Ordered) (hfits : p.Fits c) : (p.step c).Ordered := by
  cases c with
  | reviseBaseRatesByDirection download upload =>
    simp only [step, call, reviseBaseRatesByDirection]
    split
    · exact h
    · exact h.updateBoth (fun _ hd => h.download.revised hfits.1 hd)
        (fun _ hd => h.upload.revised hfits.2 hd)
  | setMeasurementBaseRates download upload =>
    simp only [step, call, setMeasurementBaseRates]
    split
    · exact h
    · rename_i hvalid
      obtain ⟨_, hdownload, hupload⟩ := bind_ok.1 hvalid
      exact ⟨h.download.based hfits.1 hdownload, h.upload.based hfits.2 hupload⟩
  | setMeasuredRuntimeMinimums download upload =>
    exact h.updateBoth (fun _ hd => h.download.measured hd) (fun _ hd => h.upload.measured hd)
  | setTestedSafeMaximums download upload =>
    exact h.updateBoth (fun _ hd => h.download.tested hd) (fun _ hd => h.upload.tested hd)
  | applyConservativeConstraints retainDownload retainUpload downloadMax downloadCap uploadMax
      uploadCap =>
      obtain ⟨⟨hretainDownload, hretainUpload⟩, hdownload, hupload⟩ := hfits
      exact ⟨(retainDirection_ordered h.download hretainDownload).constrained hdownload,
        (retainDirection_ordered h.upload hretainUpload).constrained hupload⟩

/-- **A call that ends well and leaves the order fits.** -/
theorem Ordered.fits (h : p.Ordered) (hretained : c.RetainsOrdered) (hdone : (p.call c).2 = .done)
    (h' : (p.step c).Ordered) : p.Fits c := by
  cases c with
  | reviseBaseRatesByDirection download upload =>
    simp only [AutotuneProposal.step, call, reviseBaseRatesByDirection] at hdone h'
    split at hdone
    · cases hdone
    · rename_i hvalid
      rw [hvalid] at h'
      rcases updateBoth_cases p (fun _ => .panicked) (reviseDirectionBase download)
        (reviseDirectionBase upload) with ⟨_, heq⟩ | ⟨d, _, hd, heq⟩ | ⟨d, u, hd, hu, heq⟩
      · rw [heq] at hdone; cases hdone
      · rw [heq] at hdone; cases hdone
      · simp only [heq] at h'
        exact ⟨h'.download.revisionFits hd, h'.upload.revisionFits hu⟩
  | setMeasurementBaseRates download upload =>
    simp only [AutotuneProposal.step, call, setMeasurementBaseRates] at hdone h'
    split at hdone
    · cases hdone
    · rename_i hvalid
      rw [hvalid] at h'
      exact ⟨⟨h'.download.minimum_le, h'.download.runtime_le⟩, h'.upload.minimum_le,
        h'.upload.runtime_le⟩
  | setMeasuredRuntimeMinimums download upload => exact trivial
  | setTestedSafeMaximums download upload => exact trivial
  | applyConservativeConstraints retainDownload retainUpload downloadMax downloadCap uploadMax
      uploadCap =>
      exact ⟨hretained, (retainDirection_ordered h.download hretained.1).limitsFit h'.download,
        (retainDirection_ordered h.upload hretained.2).limitsFit h'.upload⟩

/-- **A refused call changes nothing exactly if it checks first.** -/
theorem call_refused {message : String} (h : (p.call c).2 = .refused message) :
    (p.call c).1 = p ↔ p.ChecksFirst c := by
  have hboth : ∀ download upload : DirectionProposal → Except String DirectionProposal,
      (p.updateBoth .refused download upload).2 = .refused message →
      ((p.updateBoth .refused download upload).1 = p ↔
        ∀ d, download p.download = .ok d → d = p.download) := by
    intro download upload hrefused
    rcases hdownload : download p.download with _ | d
    · refine iff_of_true ?_ ?_
      · simp [updateBoth, hdownload]
      · intro d hd
        cases hd
    · rcases updateBoth_cases p .refused download upload with
        ⟨message', heq⟩ | ⟨d', message', hd', heq⟩ | ⟨d', u, -, -, heq⟩
      · -- the download is taken, so the call has not ended before it
        simp only [updateBoth, hdownload] at heq ⊢
        split at heq
        · obtain ⟨hsame, -⟩ := Prod.mk.inj heq
          refine iff_of_true hsame ?_
          intro d' hd'
          rw [← Except.ok.inj hd']
          exact congrArg AutotuneProposal.download hsame
        · cases (Prod.mk.inj heq).2
      · rw [hdownload] at hd'
        cases hd'
        rw [heq]
        constructor
        · intro hsame d' hd'
          rw [← Except.ok.inj hd']
          exact congrArg AutotuneProposal.download hsame
        · intro hsame
          rw [hsame d rfl]
      · rw [heq] at hrefused
        cases hrefused
  cases c with
  | reviseBaseRatesByDirection download upload =>
    refine iff_of_true ?_ trivial
    simp only [call, reviseBaseRatesByDirection] at h ⊢
    split
    · rfl
    · rename_i hvalid
      rw [hvalid] at h
      -- after the scales are checked only a panic can stop the call
      rcases updateBoth_cases p (fun _ => .panicked) (reviseDirectionBase download)
        (reviseDirectionBase upload) with ⟨_, heq⟩ | ⟨d, _, hd, heq⟩ | ⟨d, u, -, -, heq⟩
      · simp only [heq] at h; cases h
      · simp only [heq] at h; cases h
      · simp only [heq] at h; cases h
  | setMeasurementBaseRates download upload =>
    refine iff_of_true ?_ trivial
    simp only [call, setMeasurementBaseRates] at h ⊢
    split
    · rfl
    · rename_i hvalid
      rw [hvalid] at h
      cases h
  | setMeasuredRuntimeMinimums download upload => exact hboth _ _ h
  | setTestedSafeMaximums download upload => exact hboth _ _ h
  | applyConservativeConstraints retainDownload retainUpload downloadMax downloadCap uploadMax
      uploadCap => cases h

/-- **The order survives every sequence of calls that fit**, each in the proposal that it finds,
whether it succeeds or not.  The condition is exact: a call that ends well leaves the order if and
only if it fits, and one that is refused leaves the proposal as it was if and only if it checks
before it changes. -/
theorem proposal_ordered {downloadSamples uploadSamples : List ℚ} {baseline : LatencyBaseline}
    {linkKind : LinkKind} {profile : AutotuneProfile} {context : ProposalContext}
    {p : AutotuneProposal}
    (hbuilt : buildProposal downloadSamples uploadSamples baseline linkKind profile context = .ok p)
    {calls : List ProposalCall} (hfits : Along step Fits p calls) :
    (run step p calls).Ordered ∧
    ∀ c, (c.RetainsOrdered → ((run step p calls).call c).2 = .done →
        (((run step p calls).step c).Ordered ↔ (run step p calls).Fits c)) ∧
      ∀ message, ((run step p calls).call c).2 = .refused message →
        (((run step p calls).call c).1 = run step p calls ↔ (run step p calls).ChecksFirst c) := by
  have hordered : (run step p calls).Ordered :=
    run_along (P := Ordered) (fun _ c h hc => h.step hc) (buildProposal_ordered hbuilt) hfits
  refine ⟨hordered, fun c => ⟨fun hretained hdone => ⟨?_, ?_⟩, fun message => call_refused⟩⟩
  · exact hordered.fits hretained hdone
  · exact hordered.step

def sampleDirection : DirectionProposal where
  minimumKbps := 700
  explorationMinimumKbps := 700
  runtimeMinimumKbps := none
  baseKbps := 1000
  maximumKbps := 1000
  testedSafeMaximumKbps := none
  explorationCapKbps := 1000
  absoluteCapKbps := 1000
  serviceHardCapKbps := none
  ceilingEvidence := .unvalidatedCandidate
  capSource := .measuredRaw
  observedLowKbps := 1000
  observedMedianKbps := 1000
  observedHighKbps := 1000
  variability := 0

def sampleContext : ProposalContext := ⟨none, .legacyDefault, 0, none, none, none⟩

def sampleProposal : AutotuneProposal :=
  ⟨.gaming, sampleDirection, sampleDirection, AutotuneProfile.gaming.warnings sampleContext⟩

theorem sampleProposal_built :
    buildProposal [1000, 1000] [1000, 1000] ⟨10, 12, 20⟩ .ethernet .gaming sampleContext
      = .ok sampleProposal := by
  decide +kernel

def cappedContext : ProposalContext := ⟨none, .legacyDefault, 0, none, some 500, some 500⟩

def cappedDirection : DirectionProposal :=
  { sampleDirection with
    minimumKbps := 500, explorationMinimumKbps := 500, baseKbps := 500, maximumKbps := 500,
    absoluteCapKbps := 500, serviceHardCapKbps := some 500, capSource := .userServiceLimit }

def cappedProposal : AutotuneProposal :=
  ⟨.gaming, cappedDirection, cappedDirection, AutotuneProfile.gaming.warnings cappedContext⟩

theorem cappedProposal_disordered :
    buildProposal [1000, 1000] [1000, 1000] ⟨10, 12, 20⟩ .ethernet .gaming cappedContext
      = .ok cappedProposal ∧
    (cappedProposal.call (.reviseBaseRatesByDirection (3 / 2) (3 / 2))).2 = .done ∧
    ((cappedProposal.step (.reviseBaseRatesByDirection (3 / 2) (3 / 2))).call
      (.setTestedSafeMaximums (some 800) (some 800))).2 = .done ∧
    (run step cappedProposal [.reviseBaseRatesByDirection (3 / 2) (3 / 2),
      .setTestedSafeMaximums (some 800) (some 800)]).download.absoluteCapKbps = 800 ∧
    (run step cappedProposal [.reviseBaseRatesByDirection (3 / 2) (3 / 2),
      .setTestedSafeMaximums (some 800) (some 800)]).download.serviceHardCapKbps = some 500 ∧
    (sampleProposal.call (.setMeasuredRuntimeMinimums 900 100)).2 = .refused
      "measured upload runtime minimum must stay between the exploration minimum and selected base" ∧
    (sampleProposal.step (.setMeasuredRuntimeMinimums 900 100)) ≠ sampleProposal := by
  decide +kernel

def sampleCalls : List ProposalCall :=
  [.reviseBaseRatesByDirection (9 / 10) 1, .setMeasuredRuntimeMinimums 800 700,
    .setTestedSafeMaximums (some 900) none,
    .applyConservativeConstraints none none (some 850) (some 900) none none]

theorem revision_fits {d : DirectionProposal} {scale : ℚ} {scaled : ℕ}
    (hscaled : checkedRoundedRate (d.baseKbps * scale) = .ok scaled) (hle : scaled ≤ d.baseLimit)
    (hruntime : d.runtimeMinimumKbps = none) : d.RevisionFits scale := by
  constructor
  · intro upper scaled' _ h
    rw [hscaled] at h
    cases h
    exact .inl hle
  · intro upper scaled' r _ _ hr
    rw [hruntime] at hr
    cases hr

theorem sampleCalls_ordered :
    Along step Fits sampleProposal sampleCalls ∧ (run step sampleProposal sampleCalls).Ordered ∧
      (run step sampleProposal sampleCalls).download.baseKbps = 850 := by
  have hfits : Along step Fits sampleProposal sampleCalls := by
    have hdownload : sampleDirection.RevisionFits (9 / 10) :=
      revision_fits (show checkedRoundedRate (1000 * (9 / 10)) = .ok 900 by decide +kernel)
        (by decide +kernel) rfl
    have hupload : sampleDirection.RevisionFits 1 :=
      revision_fits (show checkedRoundedRate (1000 * 1) = .ok 1000 by decide +kernel)
        (by decide +kernel) rfl
    refine ⟨⟨hdownload, hupload⟩, trivial, trivial, ⟨⟨nofun, nofun⟩, ⟨?_, ?_⟩, ⟨?_, ?_⟩⟩, trivial⟩
    · intro b hb
      obtain rfl : 900 = b := some.inj hb
      decide
    · intro b m hb hm _
      obtain rfl : 900 = b := some.inj hb
      obtain rfl : 850 = m := some.inj hm
      refine ⟨by decide +kernel, fun r hr => ?_⟩
      have hmeasured : some r = some 800 := hr.symm.trans (by decide +kernel)
      cases hmeasured
      decide
    · intro b hb
      cases hb
    · intro b m hb
      cases hb
  exact ⟨hfits, (proposal_ordered sampleProposal_built hfits).1, by decide +kernel⟩

end AutotuneProposal

end CakeAutorate.Autotune
