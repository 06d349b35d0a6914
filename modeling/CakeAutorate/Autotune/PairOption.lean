/-
# Options of a pair

`confirmed_pair_option` of `operations/full_autotune.rs` turns a measurement of both directions at
their candidates into an option.  What keeps it from being applied by itself is acknowledged by
hand, or makes it an option that cannot be applied at all: four functions decide this, from the
same numbers, and agree.
-/

import CakeAutorate.Autotune.CorrectionSoundness
import CakeAutorate.Override.Permit
import Mathlib.Data.List.Destutter
import Mathlib.Data.List.ReduceOption

namespace CakeAutorate.Autotune

open List AutotuneProfile
open Override (MeasurementTopology)
open Protocol (SpeedtestDirection)

inductive NativeApplyAcknowledgement where
  | candidateRealization (scope : ValidationScope)
  | capacityRetention (scope : ValidationScope)
  | throughputSafetyFloor (scope : ValidationScope)
  | physicalCapacityLimited (scope : ValidationScope)
  | icmpLatency (scope : ValidationScope)
  | transportLatency (scope : ValidationScope)
  | measurementContaminated
  | measurementConfidence
  deriving DecidableEq

def ValidationScope.rank : ValidationScope → ℕ
  | .download => 0
  | .upload => 1

/-- The place of a constructor of the source, which has one for each direction; the latencies of a
direction stand together. -/
def NativeApplyAcknowledgement.rank : NativeApplyAcknowledgement → ℕ
  | .candidateRealization scope => 0 + scope.rank
  | .capacityRetention scope => 2 + scope.rank
  | .throughputSafetyFloor scope => 4 + scope.rank
  | .physicalCapacityLimited scope => 6 + scope.rank
  | .icmpLatency scope => 8 + 2 * scope.rank
  | .transportLatency scope => 9 + 2 * scope.rank
  | .measurementContaminated => 12
  | .measurementConfidence => 13

/-- A measurement, as the journal keeps it. -/
structure MeasurementEvidence where
  topology : MeasurementTopology
  direction : SpeedtestDirection
  candidateDlKbps : Option ℕ
  candidateUlKbps : Option ℕ
  achievedDlKbps : Option ℕ
  achievedUlKbps : Option ℕ
  realizedDlKbps : Option ℕ
  realizedUlKbps : Option ℕ
  loadReferenceDlKbps : Option ℕ
  loadReferenceUlKbps : Option ℕ
  icmpDeltaUs : ℕ
  transportDeltaUs : ℕ
  transportCensored : Bool
  lossPpm : ℕ
  cpuMilliPercent : ℕ
  backgroundConfidencePercent : ℕ
  contaminated : Bool

/-- A proposal with the thresholds that it is validated by. -/
structure ValidatedProposal extends AutotuneProposal where
  validationThresholds : ValidationThresholds

/-- A pair of rates that is not confirmed yet. -/
structure ProfilePairCandidate where
  role : ProfileSearchOptionRole
  downloadIndex : ℕ
  uploadIndex : ℕ
  downloadKbps : ℕ
  uploadKbps : ℕ

/-- A pair with its measurement. -/
structure NativeConfirmedPairOption where
  role : ProfileSearchOptionRole
  selectedDlKbps : ℕ
  selectedUlKbps : ℕ
  runtimeMinimumDlKbps : Option ℕ
  runtimeMinimumUlKbps : Option ℕ
  measurement : MeasurementEvidence
  validation : ValidationResult
  capacityLimitedReview : ValidationScope → Bool
  capacityAlignmentConfirmed : ValidationScope → Bool

namespace NativeConfirmedPairOption

variable (o : NativeConfirmedPairOption)

def measurementReliable : Bool :=
  !o.measurement.transportCensored && !o.measurement.contaminated &&
    decide (80 ≤ o.measurement.backgroundConfidencePercent)

def autoApplyPass : Bool :=
  o.validation.pass && o.validation.profileObjectivesMet && o.validation.qualityTargetMet &&
    o.measurementReliable && !o.capacityLimitedReview .download && !o.capacityLimitedReview .upload

/-- `required_acknowledgements`, of a gate that failed. -/
def acknowledgement (gate : ValidationGate) : Except String (Option NativeApplyAcknowledgement) :=
  let retained := "native Apply option retained non-overridable gate "
  match gate.kind with
  | .candidateRealization => .ok (some (.candidateRealization gate.scope))
  | .capacityRetention => .ok (some (.capacityRetention gate.scope))
  | .throughputSafetyFloor =>
    if o.capacityAlignmentConfirmed gate.scope then .ok (some (.throughputSafetyFloor gate.scope))
    else .error (retained ++ gateCode gate.scope gate.kind)
  | .icmpLatency => .ok (some (.icmpLatency gate.scope))
  | .transportLatency => .ok (some (.transportLatency gate.scope))
  | .cpu => .ok none
  | .candidateRealizationMaximum | .packetLoss =>
    .error (retained ++ gateCode gate.scope gate.kind)

/-- `required_acknowledgements`, what does not come from a gate. -/
def otherAcknowledgements : List NativeApplyAcknowledgement :=
  (if o.measurement.contaminated then [.measurementContaminated] else []) ++
  (if o.measurement.backgroundConfidencePercent < 80 then [.measurementConfidence] else []) ++
  (if o.measurement.transportCensored then [.measurementConfidence] else []) ++
  (if o.capacityLimitedReview .download then [.physicalCapacityLimited .download] else []) ++
  (if o.capacityLimitedReview .upload then [.physicalCapacityLimited .upload] else [])

/-- `sort_unstable` and `dedup`. -/
def normalized (values : List NativeApplyAcknowledgement) : List NativeApplyAcknowledgement :=
  (values.insertionSort fun a b => a.rank ≤ b.rank).destutter (· ≠ ·)

def requiredAcknowledgements : Except String (List NativeApplyAcknowledgement) := do
  let found ← (o.validation.gates.filter fun g => !g.pass).mapM o.acknowledgement
  let values := normalized (found.reduceOption ++ o.otherAcknowledgements)
  if o.autoApplyPass ≠ values.isEmpty then
    .error "native Apply pair acknowledgements do not match Auto-Apply evidence"
  else .ok values

/-- `manual_apply_eligible`, one direction at its usual throughput. -/
def normal (metrics : DirectionValidationMetrics) : Bool :=
  decide (throughputTrustFloorPercent ≤ metrics.candidateRealizationPercent) &&
    decide (throughputTrustFloorPercent ≤ metrics.capacityRetentionPercent)

def manualApplyEligible : Bool :=
  let thresholds := o.validation.profile.validationThresholds
  (normal o.validation.download || o.capacityAlignmentConfirmed .download) &&
    (normal o.validation.upload || o.capacityAlignmentConfirmed .upload) &&
    decide (o.validation.download.candidateRealizationPercent ≤
      thresholds.candidateRealizationMaxPercent) &&
    decide (o.validation.upload.candidateRealizationPercent ≤
      thresholds.candidateRealizationMaxPercent) &&
    decide ((o.measurement.lossPpm : ℚ) / 10000 ≤ thresholds.lossMaxPercent)

end NativeConfirmedPairOption

def ProfileSearchResult.physicalCapacityLimitedReviewFor (search : ProfileSearchResult)
    (candidateKbps : ℕ) : Bool :=
  search.action == .fallback && search.reason == physicalCapacityReason &&
    search.selectedIndex.any fun index =>
      (search.observations[index]?).any (fun o => o.candidateKbps == candidateKbps) &&
        (search.metrics[index]?).any fun m => m.manualReviewable && !m.safetyPass

def runtimeMinimumForCandidate (search : ProfileSearchResult) (candidateKbps : ℕ) :
    Except SearchFailure (Option ℕ) :=
  match search.runtimeMinimumIndex with
  | none => .ok none
  | some index =>
    match search.observations[index]? with
    | none => .error (.error "native Auto-Tune runtime minimum index is outside evidence")
    | some observation =>
      .ok (if observation.candidateKbps ≤ candidateKbps then some observation.candidateKbps
        else none)

def physicalCapacityLimitedPairDirectionReview (search : ProfileSearchResult)
    (candidateKbps achievedKbps realizedKbps : ℕ) (measurement : MeasurementEvidence)
    (validation : ValidationResult) (thresholds : ValidationThresholds) : Bool :=
  if !search.physicalCapacityLimitedReviewFor candidateKbps || achievedKbps == 0 ||
      decide (realizedKbps < search.explorationMinimumKbps) || measurement.transportCensored ||
      measurement.contaminated || decide (measurement.backgroundConfidencePercent < 80) ||
      decide (thresholds.lossMaxPercent < (measurement.lossPpm : ℚ) / 10000) ||
      decide (thresholds.cpuMaxPercent < (measurement.cpuMilliPercent : ℚ) / 1000) ||
      !validation.qualityTargetMet then false
  else
    let realizationPercent : ℚ := realizedKbps * 100 / candidateKbps
    let wireToGoodputPercent : ℚ := realizedKbps * 100 / achievedKbps
    decide (realizationPercent < thresholds.candidateRealizationMinPercent) &&
      decide (thresholds.candidateRealizationMinPercent ≤ wireToGoodputPercent) &&
        decide (wireToGoodputPercent ≤ thresholds.candidateRealizationMaxPercent)

/-- A field that a measurement has to have. -/
def measured (field : Option ℕ) (message : String) : Except SearchFailure ℕ :=
  match field with
  | some value => .ok value
  | none => .error (.error message)

def MeasurementEvidence.load (m : MeasurementEvidence) : DirectionLoadInput where
  icmpDeltaMs := m.icmpDeltaUs / 1000
  transportDeltaMs := m.transportDeltaUs / 1000
  lossPercent := m.lossPpm / 10000
  cpuPercent := m.cpuMilliPercent / 1000

def confirmedPairOption (proposal : ValidatedProposal)
    (downloadSearch uploadSearch : ProfileSearchResult) (candidate : ProfilePairCandidate)
    (m : MeasurementEvidence) : Except SearchFailure NativeConfirmedPairOption := do
  if m.topology ≠ .shapedBoth ∨ m.direction ≠ .both ∨
      m.candidateDlKbps ≠ some candidate.downloadKbps ∨
      m.candidateUlKbps ≠ some candidate.uploadKbps ∨
      m.loadReferenceDlKbps ≠ some candidate.downloadKbps ∨
      m.loadReferenceUlKbps ≠ some candidate.uploadKbps then
    throw (.error "native Auto-Tune pair measurement contradicts its exact option")
  let minimumDl ← runtimeMinimumForCandidate downloadSearch candidate.downloadKbps
  let minimumUl ← runtimeMinimumForCandidate uploadSearch candidate.uploadKbps
  let achievedDl ← measured m.achievedDlKbps "native Auto-Tune pair has no download result"
  let achievedUl ← measured m.achievedUlKbps "native Auto-Tune pair has no upload result"
  let realizedDl ← measured m.realizedDlKbps "native Auto-Tune pair has no download realization"
  let realizedUl ← measured m.realizedUlKbps "native Auto-Tune pair has no upload realization"
  let validation ← validateShapedCandidate {
    profile := proposal.profile
    download := {
      observedLowKbps := proposal.download.observedLowKbps
      candidateKbps := candidate.downloadKbps
      realizedKbps := realizedDl
      achievedKbps := achievedDl
      minimumKbps := minimumDl.getD proposal.download.explorationMinimumKbps
      maximumKbps := candidate.downloadKbps }
    upload := {
      observedLowKbps := proposal.upload.observedLowKbps
      candidateKbps := candidate.uploadKbps
      realizedKbps := realizedUl
      achievedKbps := achievedUl
      minimumKbps := minimumUl.getD proposal.upload.explorationMinimumKbps
      maximumKbps := candidate.uploadKbps }
    downloadLoad := m.load
    uploadLoad := m.load
    thresholds := proposal.validationThresholds }
  return {
    role := candidate.role
    selectedDlKbps := candidate.downloadKbps
    selectedUlKbps := candidate.uploadKbps
    runtimeMinimumDlKbps := minimumDl
    runtimeMinimumUlKbps := minimumUl
    measurement := m
    validation
    capacityLimitedReview := fun
      | .download => downloadSearch.physicalCapacityLimitedReviewFor candidate.downloadKbps
      | .upload => uploadSearch.physicalCapacityLimitedReviewFor candidate.uploadKbps
    capacityAlignmentConfirmed := fun
      | .download => physicalCapacityLimitedPairDirectionReview downloadSearch
          candidate.downloadKbps achievedDl realizedDl m validation proposal.validationThresholds
      | .upload => physicalCapacityLimitedPairDirectionReview uploadSearch candidate.uploadKbps
          achievedUl realizedUl m validation proposal.validationThresholds }

variable {o : NativeConfirmedPairOption} {input : ValidationInput} {gate : ValidationGate}
  {scope : ValidationScope}

/-- What an option rests on: a validation by its profile's thresholds, of the load that was
measured, and an alignment that is confirmed only of a capacity that is under review. -/
structure Confirmed (o : NativeConfirmedPairOption) (input : ValidationInput) : Prop where
  validation : ∃ correction, o.validation = input.verdict correction
  thresholds : input.thresholds = input.profile.validationThresholds
  load : ∀ scope, input.load scope = o.measurement.load
  limited : ∀ scope, o.capacityAlignmentConfirmed scope = true →
    o.capacityLimitedReview scope = true

theorem review_limited {search : ProfileSearchResult} {candidate achieved realized : ℕ}
    {m : MeasurementEvidence} {validation : ValidationResult} {thresholds : ValidationThresholds}
    (h : physicalCapacityLimitedPairDirectionReview search candidate achieved realized m validation
      thresholds = true) : search.physicalCapacityLimitedReviewFor candidate = true := by
  unfold physicalCapacityLimitedPairDirectionReview at h
  split at h
  · cases h
  · rename_i hall
    simp only [Bool.or_eq_true, not_or, Bool.not_eq_true', Bool.not_eq_false] at hall
    exact hall.1.1.1.1.1.1.1.1

theorem confirmed_of_ok {proposal : ValidatedProposal} {d u : ProfileSearchResult}
    {candidate : ProfilePairCandidate} {m : MeasurementEvidence}
    (hthresholds : proposal.validationThresholds = proposal.profile.validationThresholds)
    (h : confirmedPairOption proposal d u candidate m = .ok o) : ∃ input, Confirmed o input := by
  unfold confirmedPairOption at h
  split at h
  · cases h
  · obtain ⟨minimumDl, -, h⟩ := bind_ok.mp h
    obtain ⟨minimumUl, -, h⟩ := bind_ok.mp h
    obtain ⟨achievedDl, -, h⟩ := bind_ok.mp h
    obtain ⟨achievedUl, -, h⟩ := bind_ok.mp h
    obtain ⟨realizedDl, -, h⟩ := bind_ok.mp h
    obtain ⟨realizedUl, -, h⟩ := bind_ok.mp h
    obtain ⟨validation, hvalidation, h⟩ := bind_ok.mp h
    obtain ⟨⟨⟩, -, hvalidation⟩ := bind_ok.mp hvalidation
    obtain ⟨correction, -, hvalidation⟩ := bind_ok.mp hvalidation
    cases hvalidation
    cases h
    refine ⟨_, ⟨correction, rfl⟩, hthresholds, ?_, ?_⟩
    · rintro (_ | _) <;> rfl
    · rintro (_ | _) hconfirmed
      · exact review_limited hconfirmed
      · exact review_limited hconfirmed

theorem relax_pass (input : ValidationInput) (g : ValidationGate) :
    (input.relax g).pass = g.pass ∧ (input.relax g).kind = g.kind ∧
      (input.relax g).scope = g.scope ∧ (input.relax g).required =
        if !input.profile.qualityTargetRequired && g.kind.isLatency then false else g.required :=
  ⟨rfl, rfl, rfl, rfl⟩

variable {l : List NativeApplyAcknowledgement}

theorem mem_destutter' {a b : NativeApplyAcknowledgement} :
    a ∈ l.destutter' (· ≠ ·) b ↔ a = b ∨ a ∈ l := by
  induction l generalizing b with
  | nil => simp
  | cons c l ih =>
    rw [destutter'_cons]
    split
    · rw [mem_cons, ih, mem_cons]
    · rename_i hsame
      rw [ih, mem_cons, not_not.mp hsame, or_self_left]

theorem mem_normalized {a : NativeApplyAcknowledgement} :
    a ∈ NativeConfirmedPairOption.normalized l ↔ a ∈ l := by
  unfold NativeConfirmedPairOption.normalized
  rw [← mem_insertionSort (fun a b => a.rank ≤ b.rank) (l := l)]
  cases l.insertionSort fun a b => a.rank ≤ b.rank with
  | nil => rfl
  | cons b l => exact mem_destutter'.trans mem_cons.symm

theorem rank_injective : Function.Injective NativeApplyAcknowledgement.rank := by
  intro a b h
  rcases a with (_ | _) | (_ | _) | (_ | _) | (_ | _) | (_ | _) | (_ | _) | _ | _ <;>
    rcases b with (_ | _) | (_ | _) | (_ | _) | (_ | _) | (_ | _) | (_ | _) | _ | _ <;>
      first | rfl | cases h

theorem normalized_sorted (l : List NativeApplyAcknowledgement) :
    (NativeConfirmedPairOption.normalized l).Pairwise fun a b => a.rank < b.rank := by
  have hle : (NativeConfirmedPairOption.normalized l).Pairwise fun a b => a.rank ≤ b.rank :=
    (pairwise_insertionSort (fun a b : NativeApplyAcknowledgement => a.rank ≤ b.rank)
      l).sublist (destutter_sublist _ _)
  have hne : (NativeConfirmedPairOption.normalized l).IsChain (· ≠ ·) :=
    isChain_destutter _ _
  have hlt : (NativeConfirmedPairOption.normalized l).IsChain fun a b => a.rank < b.rank := by
    refine isChain_iff_getElem.mpr fun i hi => lt_of_le_of_ne ?_ fun heq => ?_
    · exact isChain_iff_getElem.mp hle.isChain i hi
    · exact isChain_iff_getElem.mp hne i hi (rank_injective heq)
  have htrans : IsTrans NativeApplyAcknowledgement fun a b => a.rank < b.rank :=
    ⟨fun _ _ _ => lt_trans⟩
  exact isChain_iff_pairwise.mp hlt

section

variable (hc : Confirmed o input) (h : o.manualApplyEligible = true)
  (hgate : gate ∈ o.validation.gates) (hfail : gate.pass = false)
include hc h hgate hfail

/-- **No option that can be applied has a failed gate beyond its trust boundary.** -/
theorem boundary :
    gate.kind ≠ .packetLoss ∧ gate.kind ≠ .candidateRealizationMaximum ∧
      (gate.kind = .throughputSafetyFloor → o.capacityAlignmentConfirmed gate.scope = true) := by
  obtain ⟨correction, hvalidation⟩ := hc.validation
  simp only [NativeConfirmedPairOption.manualApplyEligible, Bool.and_eq_true, Bool.or_eq_true,
    NativeConfirmedPairOption.normal, decide_eq_true_eq, hvalidation] at h
  obtain ⟨⟨⟨⟨hdl, hul⟩, hmaxDl⟩, hmaxUl⟩, hloss⟩ := h
  rw [hvalidation] at hgate
  obtain ⟨scope, kind, rfl⟩ := mem_gates.mp hgate
  replace hfail : (input.gate scope kind).pass = false := hfail
  obtain ⟨hscope, hkind⟩ := gate_name input scope kind
  show (input.gate scope kind).kind ≠ _ ∧ (input.gate scope kind).kind ≠ _ ∧
    ((input.gate scope kind).kind = _ → o.capacityAlignmentConfirmed (input.gate scope kind).scope
      = true)
  rw [hscope, hkind]
  refine ⟨?_, ?_, ?_⟩
  · rintro rfl
    have hpass : (input.load scope).lossPercent ≤ input.thresholds.lossMaxPercent := by
      rw [hc.load scope, hc.thresholds]
      exact hloss
    exact of_decide_eq_false hfail hpass
  · rintro rfl
    have hpass : (input.metrics scope).candidateRealizationPercent ≤
        input.thresholds.candidateRealizationMaxPercent := by
      rw [hc.thresholds]
      cases scope
      · exact hmaxDl
      · exact hmaxUl
    exact of_decide_eq_false hfail hpass
  · rintro rfl
    have hlow := of_decide_eq_false hfail
    cases scope
    · exact hdl.resolve_left fun hnormal => hlow hnormal.2
    · exact hul.resolve_left fun hnormal => hlow hnormal.2

/-- The acknowledgement of a gate that failed. -/
theorem acknowledgement_ok :
    ∃ a, o.acknowledgement gate = .ok a ∧ (a = none ↔ gate.kind = .cpu) := by
  obtain ⟨hloss, hmaximum, hfloor⟩ := boundary hc h hgate hfail
  unfold NativeConfirmedPairOption.acknowledgement
  cases hkind : gate.kind with
  | candidateRealization | capacityRetention | icmpLatency | transportLatency =>
    exact ⟨_, rfl, by simp⟩
  | throughputSafetyFloor =>
    dsimp only
    rw [if_pos (hfloor hkind)]
    exact ⟨_, rfl, by simp⟩
  | cpu => exact ⟨_, rfl, by simp⟩
  | candidateRealizationMaximum => exact absurd hkind hmaximum
  | packetLoss => exact absurd hkind hloss

end

theorem mapM_ok {α β : Type} {f : α → Except String β} {l : List α}
    (h : ∀ a ∈ l, ∃ b, f a = .ok b) :
    ∃ found, l.mapM f = .ok found ∧ ∀ b, b ∈ found ↔ ∃ a ∈ l, f a = .ok b := by
  induction l with
  | nil => exact ⟨[], rfl, by simp⟩
  | cons a l ih =>
    obtain ⟨⟨b, hb⟩, hrest⟩ := forall_mem_cons.mp h
    obtain ⟨found, hfound, hmem⟩ := ih hrest
    refine ⟨b :: found, ?_, fun c => ?_⟩
    · rw [mapM_cons, hb, hfound]
      rfl
    · rw [mem_cons, hmem, exists_mem_cons_iff, hb]
      simp only [Except.ok.injEq, eq_comm]

/-- An option is applied by itself exactly if there is nothing to acknowledge. -/
theorem autoApplyPass_iff (hc : Confirmed o input) (h : o.manualApplyEligible = true) :
    o.autoApplyPass = true ↔ o.otherAcknowledgements = [] ∧
      ∀ gate ∈ o.validation.gates, gate.pass = false → gate.kind = .cpu := by
  obtain ⟨correction, hvalidation⟩ := hc.validation
  have hpass : o.validation.pass = true ↔ ∀ g ∈ o.validation.gates,
      (g.required || g.kind.isLatency) = true → g.pass = true := by
    rw [hvalidation]
    exact allPass_iff
  have hobjectives : o.validation.profileObjectivesMet = true ↔ ∀ g ∈ o.validation.gates,
      (g.kind == .candidateRealization || g.kind == .capacityRetention) = true → g.pass = true := by
    rw [hvalidation]
    exact allPass_iff
  have hquality : o.validation.qualityTargetMet = true ↔ ∀ g ∈ o.validation.gates,
      g.kind.isLatency = true → g.pass = true := by
    rw [hvalidation]
    exact allPass_iff
  have hother : o.otherAcknowledgements = [] ↔ o.measurementReliable = true ∧
      o.capacityLimitedReview .download = false ∧ o.capacityLimitedReview .upload = false := by
    unfold NativeConfirmedPairOption.otherAcknowledgements
      NativeConfirmedPairOption.measurementReliable
    cases o.measurement.contaminated <;> cases o.measurement.transportCensored <;>
      cases o.capacityLimitedReview .download <;> cases o.capacityLimitedReview .upload <;>
        simp
  simp only [NativeConfirmedPairOption.autoApplyPass, Bool.and_eq_true, hpass, hobjectives,
    hquality, Bool.not_eq_true', hother]
  constructor
  · rintro ⟨⟨⟨⟨⟨hpass, hobjectives⟩, -⟩, hreliable⟩, hdl⟩, hul⟩
    refine ⟨⟨hreliable, hdl, hul⟩, fun g hg hfail => ?_⟩
    have hrequired : (g.required || g.kind.isLatency) = false := by
      by_contra hne
      exact Bool.false_ne_true (hfail.symm.trans (hpass g hg (Bool.eq_true_of_not_eq_false hne)))
    have hobjective :
        (g.kind == .candidateRealization || g.kind == .capacityRetention) = false := by
      by_contra hne
      exact Bool.false_ne_true
        (hfail.symm.trans (hobjectives g hg (Bool.eq_true_of_not_eq_false hne)))
    have hlimited : g.kind ≠ .throughputSafetyFloor := by
      intro hkind
      have hreview := hc.limited _ ((boundary hc h hg hfail).2.2 hkind)
      cases hscope : g.scope <;> rw [hscope] at hreview
      · exact Bool.false_ne_true (hdl.symm.trans hreview)
      · exact Bool.false_ne_true (hul.symm.trans hreview)
    rw [hvalidation] at hg
    obtain ⟨scope, kind, rfl⟩ := mem_gates.mp hg
    obtain ⟨-, hkind, -, hneeded⟩ := relax_pass input (input.gate scope kind)
    rw [hneeded] at hrequired
    rw [hkind, (gate_name input scope kind).2] at hrequired hobjective hlimited ⊢
    cases kind with
    | cpu => rfl
    | throughputSafetyFloor => exact absurd rfl hlimited
    | candidateRealization | capacityRetention => cases hobjective
    | icmpLatency | transportLatency => simp [GateKind.isLatency] at hrequired
    | candidateRealizationMaximum | packetLoss =>
      simp [GateKind.isLatency, ValidationInput.gate, maximumGate] at hrequired
  · rintro ⟨⟨hreliable, hdl, hul⟩, hall⟩
    have hgood : ∀ g ∈ o.validation.gates, g.kind ≠ .cpu → g.pass = true := by
      intro g hg hne
      by_contra hfail
      exact hne (hall g hg (Bool.eq_false_of_not_eq_true hfail))
    refine ⟨⟨⟨⟨⟨fun g hg hkeep => ?_, fun g hg hkeep => ?_⟩, fun g hg hkeep => ?_⟩, hreliable⟩,
      hdl⟩, hul⟩
    · by_cases hcpu : g.kind = .cpu
      · -- a CPU gate is advisory
        rw [hvalidation] at hg
        obtain ⟨scope, kind, rfl⟩ := mem_gates.mp hg
        obtain ⟨-, hkind, -, hneeded⟩ := relax_pass input (input.gate scope kind)
        rw [hkind, (gate_name input scope kind).2] at hcpu
        obtain rfl := hcpu
        rw [hneeded, hkind, (gate_name input scope .cpu).2] at hkeep
        simp [GateKind.isLatency, ValidationInput.gate, advisoryMaximumGate] at hkeep
      · exact hgood g hg hcpu
    · refine hgood g hg ?_
      rintro hcpu
      rw [hcpu] at hkeep
      cases hkeep
    · refine hgood g hg ?_
      rintro hcpu
      rw [hcpu] at hkeep
      cases hkeep

def sampleSearch : ProfileSearchResult where
  profile := .gaming
  direction := .download
  observedLowKbps := 1000
  action := .complete
  reason := ""
  nextCandidateKbps := none
  selectedIndex := none
  lowerTargetPassKbps := none
  upperTargetFailKbps := none
  resolutionKbps := 100
  maxAttempts := 4
  metrics := []
  observations := []
  explorationMinimumKbps := 700
  runtimeMinimumIndex := none
  kneeDetected := false
  kneeConfidencePercent := 0
  plateauImprovementMs := none
  plateauThresholdMs := 0
  repeatCount := 0
  noCakeEffect := false
  noisy := false

/-- A measurement that falls short of the retention objective. -/
def sampleMeasurement : MeasurementEvidence where
  topology := .shapedBoth
  direction := .both
  candidateDlKbps := some 1000
  candidateUlKbps := some 1000
  achievedDlKbps := some 600
  achievedUlKbps := some 950
  realizedDlKbps := some 990
  realizedUlKbps := some 990
  loadReferenceDlKbps := some 1000
  loadReferenceUlKbps := some 1000
  icmpDeltaUs := 1000
  transportDeltaUs := 1000
  transportCensored := false
  lossPpm := 0
  cpuMilliPercent := 0
  backgroundConfidencePercent := 90
  contaminated := false

end CakeAutorate.Autotune
