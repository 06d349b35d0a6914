/-
# The pairs that are confirmed

`profile_pair_candidates` of `autotune.rs` pairs the options of two searches by their roles.  The
replay of `full_autotune.rs` admits evidence of a pair whose rates were searched, once a pair and
for three pairs at most, and the confirmation looks for one record of every pair.
-/

import CakeAutorate.Autotune.ReviewOptions
import CakeAutorate.Autotune.PairOption

namespace CakeAutorate.Autotune

open List

open Machine (maxBy minBy maxBy_mem minBy_mem maxBy_of_mem minBy_of_mem maxBy_greatest minBy_least
  le_of_thenGt le_of_thenNotGt)
open Protocol (SpeedtestDirection)

/-- `profile_pair_candidates`, `pick`. -/
def pick (options : List ProfileSearchOption) : ProfileSearchOptionRole → Option ProfileSearchOption
  | .recommended => (options.find? fun o => o.role == .recommended).or options.head?
  | .qualityFirst =>
    minBy (fun left right => (compare left.worstDeltaMs right.worstDeltaMs).then
      (compare right.conservativeAchievedKbps left.conservativeAchievedKbps)) options
  | .throughputFirst =>
    maxBy (fun left right =>
      (compare left.conservativeAchievedKbps right.conservativeAchievedKbps).then
        (compare right.worstDeltaMs left.worstDeltaMs)) options
  | .balancedAlternative =>
    ((options.find? fun o => o.role == .balancedAlternative).or options[1]?).or options.head?

def ProfilePairCandidate.rates (p : ProfilePairCandidate) : ℕ × ℕ := (p.downloadKbps, p.uploadKbps)

/-- `profile_pair_candidates`, what it pushes for a role. -/
def pairOf (role : ProfileSearchOptionRole) (dl ul : ProfileSearchOption) : ProfilePairCandidate :=
  ⟨role, dl.selectedIndex, ul.selectedIndex, dl.candidateKbps, ul.candidateKbps⟩

/-- `profile_pair_candidates`, its loop: a pair of rates that is there already is left out, and the
third pair ends it. -/
def pushPairs (download upload : List ProfileSearchOption) :
    List ProfileSearchOptionRole → List ProfilePairCandidate →
    Except SearchFailure (List ProfilePairCandidate)
  | [], pairs => .ok pairs
  | role :: roles, pairs =>
    match pick download role, pick upload role with
    | none, _ => .error (.error "download profile option selection failed")
    | some _, none => .error (.error "upload profile option selection failed")
    | some dl, some ul =>
      if pairs.any (fun p => p.downloadKbps == dl.candidateKbps && p.uploadKbps == ul.candidateKbps)
      then pushPairs download upload roles pairs
      else
        let pairs := pairs ++ [pairOf role dl ul]
        if pairs.length = maxProfileReviewOptions then .ok pairs
        else pushPairs download upload roles pairs

def profilePairCandidates (debugAssertions : Bool) (download upload : ProfileSearchResult) :
    Except SearchFailure (List ProfilePairCandidate) := do
  if download.profile ≠ upload.profile ∨ download.direction ≠ .download ∨
      upload.direction ≠ .upload then
    throw (.error "profile pair candidates require matching download and upload searches")
  let downloadOptions ← profileSearchReviewOptions debugAssertions download
  let uploadOptions ← profileSearchReviewOptions debugAssertions upload
  if downloadOptions.isEmpty ∨ uploadOptions.isEmpty then
    throw (.error "profile pair candidates require reviewable evidence in both directions")
  let pairs ← pushPairs downloadOptions uploadOptions
    [.recommended, .qualityFirst, .throughputFirst, .balancedAlternative] []
  if pairs.isEmpty then throw (.error "profile pair candidate set is empty")
  return pairs

def MeasurementEvidence.candidate (m : MeasurementEvidence) : SearchDirection → Option ℕ
  | .download => m.candidateDlKbps
  | .upload => m.candidateUlKbps

def speedtestDirection : SearchDirection → SpeedtestDirection
  | .download => .download
  | .upload => .upload

/-- `search_observation`, of a measurement in a direction. -/
def searchObservation (direction : SearchDirection) (m : MeasurementEvidence) :
    Except SearchFailure SearchObservation := do
  let rates : Option ℕ × Option ℕ := match direction with
    | .download => (m.realizedDlKbps, m.achievedDlKbps)
    | .upload => (m.realizedUlKbps, m.achievedUlKbps)
  let candidate ← measured (m.candidate direction)
    "native Auto-Tune search observation has no candidate"
  let realized ← measured rates.1 "native Auto-Tune search observation has no realized rate"
  let achieved ← measured rates.2 "native Auto-Tune search observation has no achieved rate"
  return {
    candidateKbps := candidate
    realizedKbps := realized
    achievedKbps := achieved
    icmpDeltaMs := m.icmpDeltaUs / 1000
    transportDeltaMs := m.transportDeltaUs / 1000
    transportCensored := m.transportCensored
    lossPercent := m.lossPpm / 10000
    cpuPercent := m.cpuMilliPercent / 1000 }

/-- `native_profile_search_result`, what it observes: the measurements of its direction among those
of the live records of the directional search. -/
def searchObservations (direction : SearchDirection) (ms : List MeasurementEvidence) :
    Except SearchFailure (List SearchObservation) :=
  (ms.filter fun m => m.direction == speedtestDirection direction).mapM (searchObservation direction)

structure PairOptionUnavailableEvidence where
  candidateDlKbps : ℕ
  candidateUlKbps : ℕ

/-- `AutotuneReplayState`, what the evidence of pairs is checked against. -/
structure PairReplay where
  searchDownloadCandidates : List ℕ
  searchUploadCandidates : List ℕ
  pairMeasurements : List (ℕ × ℕ)
  pairUnavailable : List PairOptionUnavailableEvidence

namespace PairReplay

/-- `apply_measurement`, of a directional search: the candidate is pushed. -/
def applySearch (s : PairReplay) (m : MeasurementEvidence) : PairReplay :=
  match m.direction with
  | .download =>
    { s with searchDownloadCandidates := s.searchDownloadCandidates ++ m.candidateDlKbps.toList }
  | .upload =>
    { s with searchUploadCandidates := s.searchUploadCandidates ++ m.candidateUlKbps.toList }
  | .both => s

/-- There is evidence of the pair, or of three pairs. -/
def taken (s : PairReplay) (pair : ℕ × ℕ) : Bool :=
  s.pairMeasurements.contains pair ||
  s.pairUnavailable.any (fun v => v.candidateDlKbps == pair.1 && v.candidateUlKbps == pair.2) ||
  decide (maxProfileReviewOptions ≤ s.pairMeasurements.length + s.pairUnavailable.length)

/-- `apply_measurement`, the evidence of a pair. -/
def applyPairMeasurement (s : PairReplay) (m : MeasurementEvidence) :
    Except SearchFailure PairReplay := do
  if m.topology ≠ .shapedBoth ∨ m.direction ≠ .both then
    throw (.error "native Auto-Tune pair evidence is not bidirectional")
  let dl ← measured m.candidateDlKbps "native Auto-Tune pair evidence has no exact download rate"
  let ul ← measured m.candidateUlKbps "native Auto-Tune pair evidence has no exact upload rate"
  if m.loadReferenceDlKbps ≠ some dl ∨ m.loadReferenceUlKbps ≠ some ul ∨
      dl ∉ s.searchDownloadCandidates ∨ ul ∉ s.searchUploadCandidates then
    throw (.error "native Auto-Tune pair evidence is not bound to exact searched rates")
  if s.taken (dl, ul) then
    throw (.error "native Auto-Tune pair evidence is duplicated or outside its bound")
  return { s with pairMeasurements := s.pairMeasurements ++ [(dl, ul)] }

/-- `apply_pair_option_unavailable`, the checks of its pair. -/
def applyPairOptionUnavailable (s : PairReplay) (v : PairOptionUnavailableEvidence) :
    Except SearchFailure PairReplay :=
  if v.candidateDlKbps = 0 ∨ v.candidateUlKbps = 0 ∨
      v.candidateDlKbps ∉ s.searchDownloadCandidates ∨
      v.candidateUlKbps ∉ s.searchUploadCandidates ∨
      s.taken (v.candidateDlKbps, v.candidateUlKbps) then
    .error (.error "native Auto-Tune unavailable pair option is invalid or duplicate")
  else .ok { s with pairUnavailable := s.pairUnavailable ++ [v] }

end PairReplay

/-- What a pair ends with: a measurement, or that there is none. -/
inductive PairRecord where
  | measurement (m : MeasurementEvidence)
  | unavailable (v : PairOptionUnavailableEvidence)

def PairReplay.applyPair (s : PairReplay) : PairRecord → Except SearchFailure PairReplay
  | .measurement m => s.applyPairMeasurement m
  | .unavailable v => s.applyPairOptionUnavailable v

/-- `build_native_pair_confirmation_outcome`, what it keeps for a pair. -/
def recordOf (ms : List MeasurementEvidence) (vs : List PairOptionUnavailableEvidence)
    (p : ProfilePairCandidate) : Except SearchFailure PairRecord :=
  match ms.filter (fun m => m.candidateDlKbps == some p.downloadKbps &&
      m.candidateUlKbps == some p.uploadKbps),
    vs.filter (fun v => v.candidateDlKbps == p.downloadKbps &&
      v.candidateUlKbps == p.uploadKbps) with
  | [m], [] => .ok (.measurement m)
  | [], [v] => .ok (.unavailable v)
  | _, _ => .error (.error
      "native Auto-Tune pair option has missing or duplicate exact option evidence")

/-- `build_native_pair_confirmation_outcome`, the match of the records with the pairs. -/
def matchRecords (pairs : List ProfilePairCandidate) (ms : List MeasurementEvidence)
    (vs : List PairOptionUnavailableEvidence) : Except SearchFailure (List PairRecord) :=
  if ms.length + vs.length ≠ pairs.length then
    .error (.error
      "native Auto-Tune pair confirmation has missing or duplicate exact option evidence")
  else pairs.mapM (recordOf ms vs)

variable {options dls uls : List ProfileSearchOption} {pairs : List ProfilePairCandidate}
  {o : ProfileSearchOption}

theorem pick_mem {role : ProfileSearchOptionRole} (h : pick options role = some o) :
    o ∈ options := by
  cases role with
  | recommended =>
    rcases Option.or_eq_some_iff.mp h with h | ⟨-, h⟩
    · exact mem_of_find?_eq_some h
    · exact mem_of_mem_head? h
  | qualityFirst => exact minBy_mem h
  | throughputFirst => exact maxBy_mem h
  | balancedAlternative =>
    rcases Option.or_eq_some_iff.mp h with h | ⟨-, h⟩
    · rcases Option.or_eq_some_iff.mp h with h | ⟨-, h⟩
      · exact mem_of_find?_eq_some h
      · exact mem_of_getElem? h
    · exact mem_of_mem_head? h

theorem exists_pick (h : options ≠ []) (role : ProfileSearchOptionRole) :
    ∃ o, pick options role = some o := by
  obtain ⟨first, rest, rfl⟩ := exists_cons_of_ne_nil h
  cases role with
  | recommended => exact Option.isSome_iff_exists.mp (by simp [pick])
  | qualityFirst => exact minBy_of_mem mem_cons_self
  | throughputFirst => exact maxBy_of_mem mem_cons_self
  | balancedAlternative => exact Option.isSome_iff_exists.mp (by simp [pick])

def Pairs (pairs : List ProfilePairCandidate) (dl ul : ProfileSearchOption) : Prop :=
  (dl.candidateKbps, ul.candidateKbps) ∈ pairs.map ProfilePairCandidate.rates

/-- What the loop keeps: pairs of options, each once. -/
structure Paired (dls uls : List ProfileSearchOption) (pairs : List ProfilePairCandidate) : Prop where
  distinct : (pairs.map ProfilePairCandidate.rates).Nodup
  options : ∀ p ∈ pairs, ∃ dl ∈ dls, ∃ ul ∈ uls, p.rates = (dl.candidateKbps, ul.candidateKbps)

theorem Paired.nil : Paired dls uls [] :=
  ⟨nodup_nil, fun _ hp => absurd hp not_mem_nil⟩

theorem Paired.push (h : Paired dls uls pairs) {dl ul : ProfileSearchOption} (hdl : dl ∈ dls)
    (hul : ul ∈ uls) (hnew : ¬Pairs pairs dl ul) (role : ProfileSearchOptionRole) :
    Paired dls uls (pairs ++ [pairOf role dl ul]) := by
  refine ⟨?_, fun p hp => ?_⟩
  · rw [map_append, nodup_append]
    refine ⟨h.distinct, nodup_singleton _, ?_⟩
    rintro a ha b hb rfl
    rw [mem_singleton.mp hb] at ha
    exact hnew ha
  · rcases mem_append.mp hp with hp | hp
    · exact h.options p hp
    · rw [mem_singleton.mp hp]
      exact ⟨dl, hdl, ul, hul, rfl⟩

/-- The pair of each of these roles is there. -/
def Met (dls uls : List ProfileSearchOption) (roles : List ProfileSearchOptionRole)
    (pairs : List ProfilePairCandidate) : Prop :=
  ∀ role ∈ roles, ∀ dl ul, pick dls role = some dl → pick uls role = some ul → Pairs pairs dl ul

/-- **The loop** keeps the pairs it has, and reaches the pair of every role until it has three. -/
theorem pushPairs_spec (hd : dls ≠ []) (hu : uls ≠ []) :
    ∀ (roles : List ProfileSearchOptionRole) (pairs : List ProfilePairCandidate),
      Paired dls uls pairs → pairs.length < 3 →
      ∃ result, pushPairs dls uls roles pairs = .ok result ∧ Paired dls uls result ∧
        pairs <+: result ∧ result.length ≤ 3 ∧ Met dls uls (roles.take (3 - pairs.length)) result
  | [], pairs, h, hlen => ⟨pairs, rfl, h, prefix_refl _, hlen.le, by simp [Met]⟩
  | role :: roles, pairs, h, hlen => by
    obtain ⟨dl, hdl⟩ := exists_pick hd role
    obtain ⟨ul, hul⟩ := exists_pick hu role
    -- the pair of the first role stays, and the other roles are met by the rest of the loop
    have hmeets : ∀ {result : List ProfilePairCandidate}, Pairs result dl ul →
        Met dls uls (roles.take (2 - pairs.length)) result →
        Met dls uls ((role :: roles).take (3 - pairs.length)) result := by
      intro result hfirst hrest r hr dl' ul' hdl' hul'
      rw [show 3 - pairs.length = (2 - pairs.length) + 1 by omega, take_succ_cons] at hr
      rcases mem_cons.mp hr with rfl | hr
      · rw [hdl] at hdl'
        rw [hul] at hul'
        rw [← Option.some.inj hdl', ← Option.some.inj hul']
        exact hfirst
      · exact hrest r hr dl' ul' hdl' hul'
    have hany : pairs.any (fun p =>
        p.downloadKbps == dl.candidateKbps && p.uploadKbps == ul.candidateKbps) = true ↔
        Pairs pairs dl ul := by
      simp [Pairs, ProfilePairCandidate.rates]
    rw [pushPairs, hdl, hul]
    simp only
    split
    · next hthere =>
      obtain ⟨result, heq, hpaired, hpre, hle, hroles⟩ := pushPairs_spec hd hu roles pairs h hlen
      refine ⟨result, heq, hpaired, hpre, hle, hmeets ?_ fun r hr => hroles r ?_⟩
      · exact (hpre.map _).subset (hany.mp hthere)
      · exact take_prefix_take_left (by omega) |>.subset hr
    · next hnew =>
      have hpush := h.push (pick_mem hdl) (pick_mem hul) (fun hp => hnew (hany.mpr hp)) role
      have hlast : Pairs (pairs ++ [pairOf role dl ul]) dl ul := by
        simp [Pairs, ProfilePairCandidate.rates, pairOf]
      have hlength : (pairs ++ [pairOf role dl ul]).length = pairs.length + 1 := length_append
      rw [maxProfileReviewOptions]
      split
      · next hfull =>
        refine ⟨_, rfl, hpush, prefix_append _ _, by omega, hmeets hlast ?_⟩
        rw [show 2 - pairs.length = 0 by omega]
        simp [Met]
      · next hroom =>
        obtain ⟨result, heq, hpaired, hpre, hle, hroles⟩ :=
          pushPairs_spec hd hu roles _ hpush (by omega)
        refine ⟨result, heq, hpaired, (prefix_append _ _).trans hpre, hle,
          hmeets ((hpre.map _).subset hlast) fun r hr => hroles r ?_⟩
        exact take_prefix_take_left (by omega) |>.subset hr

theorem pick_quality (h : pick options .qualityFirst = some o) :
    IsLeast {x | ∃ a ∈ options, a.worstDeltaMs = x} o.worstDeltaMs := by
  refine ⟨⟨o, minBy_mem h, rfl⟩, ?_⟩
  rintro x ⟨a, ha, rfl⟩
  exact minBy_least (r := fun a b : ProfileSearchOption => a.worstDeltaMs ≤ b.worstDeltaMs)
    (fun _ => le_rfl) (fun _ _ _ => le_trans) (fun _ _ => le_of_thenGt)
    (fun _ _ => le_of_thenNotGt) h a ha

theorem pick_throughput (h : pick options .throughputFirst = some o) :
    IsGreatest {n | ∃ a ∈ options, a.conservativeAchievedKbps = n} o.conservativeAchievedKbps := by
  refine ⟨⟨o, maxBy_mem h, rfl⟩, ?_⟩
  rintro n ⟨a, ha, rfl⟩
  exact maxBy_greatest
    (r := fun a b : ProfileSearchOption => a.conservativeAchievedKbps ≤ b.conservativeAchievedKbps)
    (fun _ => le_rfl) (fun _ _ _ => le_trans) (fun _ _ => le_of_thenGt)
    (fun _ _ => le_of_thenNotGt) h a ha

section Searched

variable {debugAssertions : Bool} {input : ProfileSearchInput} {result : ProfileSearchResult}

/-- The result of a search, or of its end at a measured boundary. -/
def Produced (debugAssertions : Bool) (input : ProfileSearchInput) (result : ProfileSearchResult) :
    Prop :=
  optimizeProfileDirection debugAssertions input = .ok result ∨
    ∃ reason, terminateProfileDirectionAtMeasuredBoundary debugAssertions input reason = .ok result

theorem observations_of_optimize (h : optimizeProfileDirection debugAssertions input = .ok result) :
    input.Accepted ∧ result.observations = input.observations := by
  obtain ⟨_, hcheck, -⟩ := bind_ok.mp h
  have haccepted := checkInput_ok.mp hcheck
  obtain ⟨raw, heq, hsound⟩ := optimize_eq debugAssertions haccepted
  rw [heq] at h
  exact ⟨haccepted, (aligned_of_ok h).observations.trans hsound.observations⟩

/-- **A search keeps its observations**, and each of their rates is positive. -/
theorem Produced.observations (h : Produced debugAssertions input result) :
    result.observations = input.observations ∧ ∀ o ∈ input.observations, 0 < o.candidateKbps := by
  have hkept : input.Accepted ∧ result.observations = input.observations := by
    rcases h with h | ⟨reason, h⟩
    · exact observations_of_optimize h
    · obtain ⟨_, -, h⟩ := bind_ok.mp h
      obtain ⟨searched, hsearched, h⟩ := bind_ok.mp h
      obtain ⟨haccepted, hobservations⟩ := observations_of_optimize hsearched
      split at h
      · cases h
        exact ⟨haccepted, hobservations⟩
      · obtain ⟨raw, heq, hsound⟩ := optimize_eq debugAssertions haccepted
        rw [heq] at hsearched
        have hmetrics := (aligned_of_ok hsearched).metrics.trans hsound.metrics
        obtain ⟨fallen, hfallen, h⟩ := bind_ok.mp h
        have hsame := (physicalFallback_cases haccepted hmetrics hfallen).1
        exact ⟨haccepted, (aligned_of_ok h).observations.trans (hsame.trans hobservations)⟩
  refine ⟨hkept.2, fun o ho => ?_⟩
  have hvalid := (hkept.1.valid o ho).rates
  have := hkept.1.bounds.1
  simp only [SearchObservation.ratesValid, decide_eq_true_eq] at hvalid
  omega

section

variable (h : profileSearchReviewOptions debugAssertions result = .ok options)
include h

theorem option_measured (ho : o ∈ options) :
    result.action.terminal = true ∧ options = reviewOptions result ∧
      ∃ s ∈ result.observations, s.candidateKbps = o.candidateKbps := by
  have heq : options = reviewOptions result := by
    unfold profileSearchReviewOptions at h
    split at h
    · cases h
    · cases h
      rfl
  have hterminal : result.action.terminal = true := by
    by_contra hopen
    rw [heq, reviewOptions, if_pos (Bool.eq_false_iff.mpr hopen)] at ho
    cases ho
  refine ⟨hterminal, heq, ?_⟩
  rw [heq] at ho
  obtain ⟨c, hc, role, rfl⟩ := (reviewOptions_from hterminal).1.origin o ho
  obtain ⟨s, -, hs, -, hrate, -⟩ := shown_lookup (reviewFrontier_subset hc)
  exact ⟨s, mem_of_getElem? hs, hrate⟩

/-- **The first pick is the option that is recommended.** -/
theorem pick_recommended (ho : pick options .recommended = some o) : o.role = .recommended := by
  obtain ⟨hterminal, rfl, -⟩ := option_measured h (pick_mem ho)
  have hhead := head_reviewOptions hterminal
  cases hrecommended : recommendedCandidate result (reviewFrontier result) with
  | none =>
    rw [hrecommended, Option.map_none, head?_eq_none_iff] at hhead
    rw [hhead] at ho
    cases ho
  | some c =>
    rw [hrecommended] at hhead
    obtain ⟨rest, hrest⟩ := head?_eq_some_iff.mp hhead
    rw [hrest] at ho
    cases ho
    rfl

end

end Searched

theorem searchObservation_candidate {direction : SearchDirection} {m : MeasurementEvidence}
    {s : SearchObservation} (h : searchObservation direction m = .ok s) :
    m.candidate direction = some s.candidateKbps := by
  obtain ⟨candidate, hcandidate, h⟩ := bind_ok.mp h
  obtain ⟨realized, -, h⟩ := bind_ok.mp h
  obtain ⟨achieved, -, h⟩ := bind_ok.mp h
  cases h
  unfold measured at hcandidate
  split at hcandidate
  · next value heq =>
    cases hcandidate
    exact heq
  · cases hcandidate

namespace PairReplay

def searched (s : PairReplay) : SearchDirection → List ℕ
  | .download => s.searchDownloadCandidates
  | .upload => s.searchUploadCandidates

def start : PairReplay := ⟨[], [], [], []⟩

/-- The pairs that there is evidence of. -/
def told (s : PairReplay) : List (ℕ × ℕ) :=
  s.pairMeasurements ++ s.pairUnavailable.map fun v => (v.candidateDlKbps, v.candidateUlKbps)

theorem applySearch_searched (s : PairReplay) (m : MeasurementEvidence)
    (direction : SearchDirection) :
    (s.applySearch m).searched direction = s.searched direction ++
      if m.direction == speedtestDirection direction then (m.candidate direction).toList else [] := by
  unfold applySearch
  cases direction <;> cases h : m.direction <;>
    simp [searched, speedtestDirection, MeasurementEvidence.candidate]

/-- A directional search leaves the pairs alone, and pushes the rates that it observes. -/
theorem search_run (ms : List MeasurementEvidence) (s : PairReplay) :
    (ms.foldl applySearch s).told = s.told ∧
      ∀ direction observations, searchObservations direction ms = .ok observations →
        (ms.foldl applySearch s).searched direction =
          s.searched direction ++ observations.map SearchObservation.candidateKbps := by
  induction ms generalizing s with
  | nil =>
    refine ⟨rfl, fun direction observations h => ?_⟩
    cases h
    exact (append_nil _).symm
  | cons m ms ih =>
    obtain ⟨htold, hsearched⟩ := ih (s.applySearch m)
    have hframe : (s.applySearch m).told = s.told := by
      unfold applySearch
      split <;> rfl
    refine ⟨htold.trans hframe, fun direction observations h => ?_⟩
    unfold searchObservations at h
    rw [filter_cons] at h
    rw [foldl_cons]
    split at h
    · next hdirection =>
      rw [mapM_cons] at h
      obtain ⟨first, hfirst, h⟩ := bind_ok.mp h
      obtain ⟨rest, hrest, h⟩ := bind_ok.mp h
      cases h
      rw [hsearched direction rest hrest, applySearch_searched, if_pos hdirection,
        searchObservation_candidate hfirst, append_assoc]
      rfl
    · next hdirection =>
      rw [hsearched direction observations h, applySearch_searched, if_neg hdirection,
        append_nil]

end PairReplay

variable {ps : List ProfilePairCandidate} {rs : List PairRecord} {p : ProfilePairCandidate}
  {r : PairRecord}

/-- The record is one of the pair. -/
def PairRecord.For (p : ProfilePairCandidate) : PairRecord → Prop
  | .measurement m =>
    m.topology = .shapedBoth ∧ m.direction = .both ∧ m.candidateDlKbps = some p.downloadKbps ∧
      m.candidateUlKbps = some p.uploadKbps ∧ m.loadReferenceDlKbps = some p.downloadKbps ∧
      m.loadReferenceUlKbps = some p.uploadKbps
  | .unavailable v => v.candidateDlKbps = p.downloadKbps ∧ v.candidateUlKbps = p.uploadKbps

def PairRecord.measurement? : PairRecord → Option MeasurementEvidence
  | .measurement m => some m
  | .unavailable _ => none

def PairRecord.unavailable? : PairRecord → Option PairOptionUnavailableEvidence
  | .measurement _ => none
  | .unavailable v => some v

namespace PairReplay

theorem taken_eq_false {s : PairReplay} {pair : ℕ × ℕ} :
    s.taken pair = false ↔ pair ∉ s.told ∧ s.told.length < 3 := by
  have hlength : s.told.length = s.pairMeasurements.length + s.pairUnavailable.length := by
    simp [told]
  show _ ↔ _ ∧ s.told.length < maxProfileReviewOptions
  obtain ⟨dl, ul⟩ := pair
  simp only [taken, told, Bool.or_eq_false_iff, decide_eq_false_iff_not, not_le, contains_eq_mem,
    any_eq_false, mem_append, not_or, and_assoc]
  simp

/-- **A record of a pair that was searched is admitted**, where there is none of it yet. -/
theorem applyPair_ok {s : PairReplay} (hr : r.For p)
    (hd : p.downloadKbps ∈ s.searchDownloadCandidates) (hu : p.uploadKbps ∈ s.searchUploadCandidates)
    (hpos : 0 < p.downloadKbps ∧ 0 < p.uploadKbps) (hnew : p.rates ∉ s.told)
    (hroom : s.told.length < 3) :
    ∃ s', s.applyPair r = .ok s' ∧ (∀ direction, s'.searched direction = s.searched direction) ∧
      (∀ pair, pair ∈ s'.told ↔ pair ∈ s.told ∨ pair = p.rates) ∧
      s'.told.length = s.told.length + 1 := by
  have htaken : s.taken (p.downloadKbps, p.uploadKbps) = false := taken_eq_false.mpr ⟨hnew, hroom⟩
  cases r with
  | measurement m =>
    obtain ⟨htopology, hdirection, hdl, hul, hrefdl, hreful⟩ := hr
    refine ⟨{ s with pairMeasurements := s.pairMeasurements ++ [p.rates] }, ?_,
      fun direction => by cases direction <;> rfl, fun pair => ?_, ?_⟩
    · simp only [applyPair, applyPairMeasurement, htopology, hdirection, hdl, hul, hrefdl, hreful,
        measured, bind, Except.bind, htaken]
      simp [hd, hu, pure, Except.pure, ProfilePairCandidate.rates]
    · simp only [told, mem_append, mem_singleton]
      tauto
    · simp only [told, length_append, length_singleton]
      omega
  | unavailable v =>
    obtain ⟨hdl, hul⟩ := hr
    refine ⟨{ s with pairUnavailable := s.pairUnavailable ++ [v] }, ?_,
      fun direction => by cases direction <;> rfl, fun pair => ?_, ?_⟩
    · show s.applyPairOptionUnavailable v = _
      unfold applyPairOptionUnavailable
      rw [hdl, hul, htaken, if_neg (by simp [hd, hu]; omega)]
    · simp only [told, map_append, mem_append, map_singleton, mem_singleton,
        hdl, hul, or_assoc]
      rfl
    · simp [told, add_assoc]

/-- **The records of different pairs are admitted in order.** -/
theorem run_ok (h : Forall₂ PairRecord.For ps rs) :
    ∀ s : PairReplay, (ps.map ProfilePairCandidate.rates).Nodup → s.told.length + ps.length ≤ 3 →
      (∀ p ∈ ps, p.downloadKbps ∈ s.searchDownloadCandidates ∧
        p.uploadKbps ∈ s.searchUploadCandidates ∧ (0 < p.downloadKbps ∧ 0 < p.uploadKbps) ∧
        p.rates ∉ s.told) →
      ∃ s', rs.foldlM applyPair s = .ok s' := by
  induction h with
  | nil => exact fun s _ _ _ => ⟨s, rfl⟩
  | @cons p r ps rs hr _ ih =>
    intro s hnodup hlength hall
    obtain ⟨⟨hd, hu, hpos, hnew⟩, hrest⟩ := forall_mem_cons.mp hall
    rw [length_cons] at hlength
    obtain ⟨s', heq, hsearched, hpairs, hlength'⟩ := applyPair_ok hr hd hu hpos hnew (by omega)
    obtain ⟨hother, hnodup⟩ := nodup_cons.mp hnodup
    obtain ⟨final, hfinal⟩ := ih s' hnodup (by omega) fun q hq => by
      obtain ⟨hd, hu, hpos, hnew⟩ := hrest q hq
      have hsd : s'.searchDownloadCandidates = s.searchDownloadCandidates := hsearched .download
      have hsu : s'.searchUploadCandidates = s.searchUploadCandidates := hsearched .upload
      refine ⟨by rwa [hsd], by rwa [hsu], hpos, fun hmem => ?_⟩
      rcases (hpairs _).mp hmem with hmem | heq
      · exact hnew hmem
      · exact hother (heq ▸ mem_map_of_mem hq)
    exact ⟨final, by rw [foldlM_cons, heq]; exact hfinal⟩

end PairReplay

def PairRecord.isFor (p : ProfilePairCandidate) : PairRecord → Bool
  | .measurement m =>
    m.candidateDlKbps == some p.downloadKbps && m.candidateUlKbps == some p.uploadKbps
  | .unavailable v => v.candidateDlKbps == p.downloadKbps && v.candidateUlKbps == p.uploadKbps

theorem PairRecord.For.isFor_iff (h : r.For p) (q : ProfilePairCandidate) :
    r.isFor q = true ↔ p.rates = q.rates := by
  cases r with
  | measurement m =>
    obtain ⟨-, -, hdl, hul, -, -⟩ := h
    simp [PairRecord.isFor, hdl, hul, ProfilePairCandidate.rates]
  | unavailable v =>
    obtain ⟨hdl, hul⟩ := h
    simp [PairRecord.isFor, hdl, hul, ProfilePairCandidate.rates]

/-- **Each pair has one record**, after any records of other pairs. -/
theorem filter_isFor (h : Forall₂ PairRecord.For ps rs) :
    ∀ before : List PairRecord, (ps.map ProfilePairCandidate.rates).Nodup →
      (∀ p ∈ ps, ∀ r ∈ before, r.isFor p = false) →
      Forall₂ (fun p r => (before ++ rs).filter (PairRecord.isFor p) = [r]) ps rs := by
  induction h with
  | nil => exact fun _ _ _ => .nil
  | @cons p r ps rs hr hrs ih =>
    intro before hnodup hbefore
    obtain ⟨hother, hnodup⟩ := nodup_cons.mp hnodup
    obtain ⟨hp, hps⟩ := forall_mem_cons.mp hbefore
    have hrest : ∀ r' ∈ rs, r'.isFor p = false := by
      intro r' hr'
      rw [Bool.eq_false_iff]
      intro hfor
      obtain ⟨i, hi, rfl⟩ := mem_iff_getElem.mp hr'
      have hi' : i < ps.length := hrs.length_eq ▸ hi
      have hrates := ((hrs.get hi' hi).isFor_iff p).mp hfor
      exact hother (hrates ▸ mem_map_of_mem (getElem_mem hi'))
    refine .cons ?_ ?_
    · rw [filter_append, filter_eq_nil_iff.mpr (by simpa using hp), nil_append,
        filter_cons_of_pos ((hr.isFor_iff p).mpr rfl),
        filter_eq_nil_iff.mpr (by simpa using hrest)]
    · have := ih (before ++ [r]) hnodup fun q hq r' hr' => by
        rcases mem_append.mp hr' with hr' | hr'
        · exact hps q hq r' hr'
        · rw [mem_singleton.mp hr', Bool.eq_false_iff]
          intro hfor
          exact hother ((hr.isFor_iff q).mp hfor ▸ mem_map_of_mem hq)
      simpa using this

theorem filter_filterMap_eq {α β : Type} {f : α → Option β} {q : β → Bool} {p : α → Bool}
    (h : ∀ a b, f a = some b → q b = p a) (l : List α) :
    (l.filterMap f).filter q = (l.filter p).filterMap f := by
  rw [filter_filterMap, filterMap_filter]
  refine filterMap_congr fun a _ => ?_
  cases hf : f a with
  | none => simp
  | some b => simp [Option.filter, h a b hf]

theorem recordOf_ok (h : rs.filter (PairRecord.isFor p) = [r]) :
    recordOf (rs.filterMap PairRecord.measurement?) (rs.filterMap PairRecord.unavailable?) p =
      .ok r := by
  unfold recordOf
  rw [filter_filterMap_eq (p := PairRecord.isFor p) (by rintro (_ | _) _ ⟨⟩; rfl),
    filter_filterMap_eq (p := PairRecord.isFor p) (by rintro (_ | _) _ ⟨⟩; rfl), h]
  cases r <;> rfl

theorem mapM_of_forall₂ {f : ProfilePairCandidate → Except SearchFailure PairRecord}
    (h : Forall₂ (fun p r => f p = .ok r) ps rs) : ps.mapM f = .ok rs := by
  induction h with
  | nil => rfl
  | cons hr _ ih => rw [mapM_cons, hr, ih]; rfl

/-- **The confirmation finds one record of each pair.** -/
theorem matchRecords_ok (h : Forall₂ PairRecord.For ps rs)
    (hnodup : (ps.map ProfilePairCandidate.rates).Nodup) :
    matchRecords ps (rs.filterMap PairRecord.measurement?) (rs.filterMap PairRecord.unavailable?) =
      .ok rs := by
  have hlength : ∀ l : List PairRecord, (l.filterMap PairRecord.measurement?).length +
      (l.filterMap PairRecord.unavailable?).length = l.length := by
    intro l
    induction l with
    | nil => rfl
    | cons r l ih =>
      rw [length_cons, ← ih]
      cases r with
      | measurement m => exact Nat.add_right_comm ..
      | unavailable v => exact (Nat.add_assoc ..).symm
  unfold matchRecords
  rw [hlength, h.length_eq, if_neg (fun hne => hne rfl)]
  exact mapM_of_forall₂ ((filter_isFor h [] hnodup (by simp)).imp fun _ _ => recordOf_ok)

/-- **The pairs fit.**  There are one to three, all different; the first is of the two recommended
options; their rates were measured; and the lowest latencies and the highest throughputs meet. -/
structure PairsFit (d u : ProfileSearchResult) (dls uls : List ProfileSearchOption)
    (pairs : List ProfilePairCandidate) : Prop where
  count : 1 ≤ pairs.length ∧ pairs.length ≤ 3
  distinct : (pairs.map ProfilePairCandidate.rates).Nodup
  recommended : ∃ dl ∈ dls, ∃ ul ∈ uls, dl.role = .recommended ∧ ul.role = .recommended ∧
    pairs.head?.map ProfilePairCandidate.rates = some (dl.candidateKbps, ul.candidateKbps)
  measured : ∀ p ∈ pairs, (∃ s ∈ d.observations, s.candidateKbps = p.downloadKbps) ∧
    ∃ s ∈ u.observations, s.candidateKbps = p.uploadKbps
  quality : ∃ dl ∈ dls, ∃ ul ∈ uls, Pairs pairs dl ul ∧
    IsLeast {x | ∃ a ∈ dls, a.worstDeltaMs = x} dl.worstDeltaMs ∧
    IsLeast {x | ∃ a ∈ uls, a.worstDeltaMs = x} ul.worstDeltaMs
  throughput : ∃ dl ∈ dls, ∃ ul ∈ uls, Pairs pairs dl ul ∧
    IsGreatest {n | ∃ a ∈ dls, a.conservativeAchievedKbps = n} dl.conservativeAchievedKbps ∧
    IsGreatest {n | ∃ a ∈ uls, a.conservativeAchievedKbps = n} ul.conservativeAchievedKbps

theorem exists_pairsFit {debugAssertions : Bool} {d u : ProfileSearchResult}
    (hprofile : d.profile = u.profile) (hd : d.direction = .download) (hu : u.direction = .upload)
    (hdo : profileSearchReviewOptions debugAssertions d = .ok dls)
    (huo : profileSearchReviewOptions debugAssertions u = .ok uls) (hdn : dls ≠ []) (hun : uls ≠ []) :
    ∃ pairs, profilePairCandidates debugAssertions d u = .ok pairs ∧ PairsFit d u dls uls pairs := by
  obtain ⟨dl, hdl⟩ := exists_pick hdn .recommended
  obtain ⟨ul, hul⟩ := exists_pick hun .recommended
  -- the loop starts with the pair of the recommended options
  obtain ⟨pairs, heq, hpaired, ⟨rest, hrest⟩, hle, hroles⟩ := pushPairs_spec hdn hun
    [.qualityFirst, .throughputFirst, .balancedAlternative] [pairOf .recommended dl ul]
    (Paired.nil.push (pick_mem hdl) (pick_mem hul) not_mem_nil .recommended) (by simp)
  have hpairs : pushPairs dls uls [.recommended, .qualityFirst, .throughputFirst,
      .balancedAlternative] [] = .ok pairs := by
    rw [pushPairs, hdl, hul]
    exact heq
  refine ⟨pairs, ?_, ⟨by simp [← hrest], hle⟩, hpaired.distinct, ⟨dl, pick_mem hdl, ul, pick_mem hul,
    pick_recommended hdo hdl, pick_recommended huo hul,
    by simp [← hrest, ProfilePairCandidate.rates, pairOf]⟩, ?_, ?_, ?_⟩
  · simp [profilePairCandidates, hprofile, hd, hu, hdo, huo, hdn, hun, hpairs, ← hrest, bind,
      Except.bind, pure, Except.pure]
  · intro p hp
    obtain ⟨dl, hdl, ul, hul, hrates⟩ := hpaired.options p hp
    obtain ⟨hdrate, hurate⟩ := Prod.mk.inj hrates
    obtain ⟨-, -, s, hs, hsrate⟩ := option_measured hdo hdl
    obtain ⟨-, -, t, ht, htrate⟩ := option_measured huo hul
    exact ⟨⟨s, hs, hsrate.trans hdrate.symm⟩, t, ht, htrate.trans hurate.symm⟩
  · obtain ⟨dl, hdl⟩ := exists_pick hdn .qualityFirst
    obtain ⟨ul, hul⟩ := exists_pick hun .qualityFirst
    exact ⟨dl, pick_mem hdl, ul, pick_mem hul, hroles _ (by simp) dl ul hdl hul, pick_quality hdl,
      pick_quality hul⟩
  · obtain ⟨dl, hdl⟩ := exists_pick hdn .throughputFirst
    obtain ⟨ul, hul⟩ := exists_pick hun .throughputFirst
    exact ⟨dl, pick_mem hdl, ul, pick_mem hul, hroles _ (by simp) dl ul hdl hul, pick_throughput hdl,
      pick_throughput hul⟩

/-- **The pairs fit the journal that records them.**  For the results of two searches whose
observations are the measurements of the directional search, the pairs fit, the replay of these
measurements admits a record of each pair in order, and the confirmation finds those records. -/
theorem pair_candidates_fit (debugAssertions : Bool) (ms : List MeasurementEvidence)
    (downloadInput uploadInput : ProfileSearchInput) (d u : ProfileSearchResult)
    (hdm : searchObservations .download ms = .ok downloadInput.observations)
    (hum : searchObservations .upload ms = .ok uploadInput.observations)
    (hd : Produced debugAssertions downloadInput d) (hu : Produced debugAssertions uploadInput u)
    (hprofile : d.profile = u.profile) (hdd : d.direction = .download)
    (hud : u.direction = .upload) (hdo : profileSearchReviewOptions debugAssertions d = .ok dls)
    (huo : profileSearchReviewOptions debugAssertions u = .ok uls) (hdn : dls ≠ []) (hun : uls ≠ []) :
    ∃ pairs, profilePairCandidates debugAssertions d u = .ok pairs ∧ PairsFit d u dls uls pairs ∧
      ∀ rs : List PairRecord, Forall₂ PairRecord.For pairs rs →
        (∃ s, rs.foldlM PairReplay.applyPair (ms.foldl PairReplay.applySearch .start) = .ok s) ∧
        matchRecords pairs (rs.filterMap PairRecord.measurement?)
          (rs.filterMap PairRecord.unavailable?) = .ok rs := by
  obtain ⟨pairs, hpairs, hfit⟩ := exists_pairsFit hprofile hdd hud hdo huo hdn hun
  refine ⟨pairs, hpairs, hfit, fun rs hrs => ⟨?_, matchRecords_ok hrs hfit.distinct⟩⟩
  obtain ⟨htold, hsearched⟩ := PairReplay.search_run ms .start
  obtain ⟨hdobs, hdpos⟩ := hd.observations
  obtain ⟨huobs, hupos⟩ := hu.observations
  refine PairReplay.run_ok hrs _ hfit.distinct ?_ fun p hp => ?_
  · rw [htold]
    exact (Nat.zero_add _).trans_le hfit.count.2
  · obtain ⟨⟨s, hs, hsrate⟩, t, ht, htrate⟩ := hfit.measured p hp
    rw [hdobs] at hs
    rw [huobs] at ht
    rw [htold, ← hsrate, ← htrate]
    refine ⟨?_, ?_, ⟨hdpos s hs, hupos t ht⟩, not_mem_nil⟩
    · show _ ∈ PairReplay.searched _ .download
      rw [hsearched .download _ hdm]
      exact mem_append_right _ (mem_map_of_mem hs)
    · show _ ∈ PairReplay.searched _ .upload
      rw [hsearched .upload _ hum]
      exact mem_append_right _ (mem_map_of_mem ht)

/-- The measurements of a directional search: two rates of the download, then two of the upload. -/
def searchMeasurements : List MeasurementEvidence :=
  [⟨.shapedBoth, .download, some 100000, some 90000, some 95000, none, some 95000, none, none, none,
      0, 20000, false, 500000, 50000, 100, false⟩,
    ⟨.shapedBoth, .download, some 80000, some 90000, some 78000, none, some 78000, none, none, none,
      0, 20000, false, 0, 50000, 100, false⟩,
    ⟨.shapedBoth, .upload, some 80000, some 100000, none, some 95000, none, some 95000, none, none,
      0, 20000, false, 500000, 50000, 100, false⟩,
    ⟨.shapedBoth, .upload, some 80000, some 80000, none, some 78000, none, some 78000, none, none,
      0, 20000, false, 0, 50000, 100, false⟩]

def reviewedUpload : ProfileSearchInput := { reviewedSearch with direction := .upload }

theorem pair_candidates_fit_search :
    ∃ d u dls uls pairs, optimizeProfileDirection true reviewedSearch = .ok d ∧
      optimizeProfileDirection true reviewedUpload = .ok u ∧
      profilePairCandidates true d u = .ok pairs ∧ PairsFit d u dls uls pairs := by
  have hends : ((optimizeProfileDirection true reviewedSearch).toOption.any fun d =>
      (optimizeProfileDirection true reviewedUpload).toOption.any fun u =>
        decide (d.profile = u.profile) && decide (d.direction = .download) &&
        decide (u.direction = .upload) &&
        (profileSearchReviewOptions true d).toOption.any (fun dls => !dls.isEmpty) &&
        (profileSearchReviewOptions true u).toOption.any fun uls => !uls.isEmpty) = true := by
    decide +kernel
  have hdm : searchObservations .download searchMeasurements =
      .ok reviewedSearch.observations := by decide +kernel
  have hum : searchObservations .upload searchMeasurements =
      .ok reviewedUpload.observations := by decide +kernel
  obtain ⟨d, hd, hends⟩ := exists_of_any hends
  obtain ⟨u, hu, hends⟩ := exists_of_any hends
  simp only [Bool.and_eq_true, decide_eq_true_eq] at hends
  obtain ⟨⟨⟨⟨hprofile, hdd⟩, hud⟩, hdls⟩, huls⟩ := hends
  obtain ⟨dls, hdo, hdn⟩ := exists_of_any hdls
  obtain ⟨uls, huo, hun⟩ := exists_of_any huls
  obtain ⟨pairs, hpairs, hfit, -⟩ := pair_candidates_fit true searchMeasurements reviewedSearch
    reviewedUpload d u hdm hum (.inl hd) (.inl hu) hprofile hdd hud hdo huo
    (by simpa using hdn) (by simpa using hun)
  exact ⟨d, u, dls, uls, pairs, hd, hu, hpairs, hfit⟩

end CakeAutorate.Autotune
