/-
# The settings of the rate controller

What `validate_core` of `config_validation.rs` and `Config::validate` of `main.rs` check of the
fields that the rate control of a direction reads.  Settings are rationals where the source has
floats, so the tests for finite values have nothing to refuse.  The other fields of the source's
record (reflectors, pingers, interfaces, transport probes) are checked there as well; nothing here
reads them.
-/

import Mathlib.Data.Rat.Floor
import Mathlib.Tactic.Linarith
import CakeAutorate.Machine.Fallible

namespace CakeAutorate.Controller

/-- What a check reports: a field outside its range, with the bounds that the text names, or one
of the fixed texts. -/
inductive ConfigError where
  | range (name : String) (minimum maximum : ℚ)
  | text (message : String)
  deriving DecidableEq

/-- `rate_limits::MAX_RATE_KBPS`. -/
def maxRateKbps : ℚ := 100000000

/-- `MAX_TIMER_S`: `i32::MAX` milliseconds. -/
def maxTimerS : ℚ := 2147483647 / 1000

def minTimerS : ℚ := 1 / 10 ^ 9

/-- `f64::MIN_POSITIVE`. -/
def minPositive : ℚ := 1 / 2 ^ 1022

/-- The fields of `Config` that the source has once for each direction. -/
structure DirectionConfig where
  adjustShaperRate : Bool
  minShaperRateKbps : ℚ
  baseShaperRateKbps : ℚ
  maxShaperRateKbps : ℚ
  maxWirePacketSizeBits : ℕ
  owdDeltaDelayThrMs : ℚ
  avgOwdDeltaMaxAdjustUpThrMs : ℚ
  avgOwdDeltaMaxAdjustDownThrMs : ℚ
  adaptiveCeilingCapKbps : ℚ
  adaptiveCeilingSafeKbps : ℚ
  adaptiveCeilingEvidence : String

structure Config where
  dl : DirectionConfig
  ul : DirectionConfig
  connectionActiveThrKbps : ℚ
  shaperRateMinAdjustDownBufferbloat : ℚ
  shaperRateMaxAdjustDownBufferbloat : ℚ
  shaperRateAdjustDownLoadLow : ℚ
  shaperRateMinAdjustUpLoadHigh : ℚ
  shaperRateMaxAdjustUpLoadHigh : ℚ
  shaperRateAdjustUpLoadLow : ℚ
  bufferbloatRefractoryPeriodMs : ℕ
  decayRefractoryPeriodMs : ℕ
  bufferbloatDetectionWindow : ℕ
  bufferbloatDetectionThr : ℕ
  reflectorResponseDeadlineS : ℚ
  adaptiveCeilingEnabled : Bool
  adaptiveCeilingHoldTimeS : ℚ
  adaptiveCeilingGrowthPercent : ℚ
  adaptiveCeilingProbeDurationS : ℚ
  adaptiveCeilingCooldownS : ℚ
  adaptiveCeilingFailedBoundTtlS : ℚ

/-- `rate_limits`, the rates of a direction where no option sets them. -/
structure DefaultRates where
  minimum : ℕ
  base : ℕ
  maximum : ℕ

/-- `DEFAULT_MIN_DL_SHAPER_RATE_KBPS` and the two that follow. -/
def defaultDl : DefaultRates := ⟨5000, 20000, 80000⟩

/-- `DEFAULT_MIN_UL_SHAPER_RATE_KBPS` and the two that follow. -/
def defaultUl : DefaultRates := ⟨5000, 20000, 35000⟩

/-- `Config::defaults`, a direction. -/
def DirectionConfig.defaults (rates : DefaultRates) : DirectionConfig where
  adjustShaperRate := true
  minShaperRateKbps := rates.minimum
  baseShaperRateKbps := rates.base
  maxShaperRateKbps := rates.maximum
  maxWirePacketSizeBits := 0
  owdDeltaDelayThrMs := 30
  avgOwdDeltaMaxAdjustUpThrMs := 10
  avgOwdDeltaMaxAdjustDownThrMs := 60
  adaptiveCeilingCapKbps := rates.maximum
  adaptiveCeilingSafeKbps := 0
  adaptiveCeilingEvidence := "legacy_unverified"

def Config.defaults : Config where
  dl := .defaults defaultDl
  ul := .defaults defaultUl
  connectionActiveThrKbps := 2000
  shaperRateMinAdjustDownBufferbloat := 99 / 100
  shaperRateMaxAdjustDownBufferbloat := 75 / 100
  shaperRateAdjustDownLoadLow := 99 / 100
  shaperRateMinAdjustUpLoadHigh := 1
  shaperRateMaxAdjustUpLoadHigh := 104 / 100
  shaperRateAdjustUpLoadLow := 101 / 100
  bufferbloatRefractoryPeriodMs := 300
  decayRefractoryPeriodMs := 1000
  bufferbloatDetectionWindow := 6
  bufferbloatDetectionThr := 3
  reflectorResponseDeadlineS := 1
  adaptiveCeilingEnabled := false
  adaptiveCeilingHoldTimeS := 20
  adaptiveCeilingGrowthPercent := 3
  adaptiveCeilingProbeDurationS := 8
  adaptiveCeilingCooldownS := 30
  adaptiveCeilingFailedBoundTtlS := 900

def Config.direction (c : Config) (isDl : Bool) : DirectionConfig := if isDl then c.dl else c.ul

def bounded (name : String) (value minimum maximum : ℚ) : Except ConfigError Unit :=
  check (decide (minimum ≤ value ∧ value ≤ maximum)) (.range name minimum maximum)

/-- The `range!` of `validate_core`: several fields with one range. -/
def ranges (minimum maximum : ℚ) (fields : List (String × ℚ)) : Except ConfigError Unit :=
  fields.forM fun field => bounded field.1 field.2 minimum maximum

/-- `validate_core`, the rates of a direction: a direction that is not adjusted may be all zero. -/
def DirectionConfig.validateRates (d : DirectionConfig) (direction : String) :
    Except ConfigError Unit :=
  if !d.adjustShaperRate && d.minShaperRateKbps == 0 && d.baseShaperRateKbps == 0
      && d.maxShaperRateKbps == 0 then .ok ()
  else do
    ranges 1 maxRateKbps
      [(direction ++ " minimum rate", d.minShaperRateKbps),
        (direction ++ " base rate", d.baseShaperRateKbps),
        (direction ++ " maximum rate", d.maxShaperRateKbps)]
    check (decide (d.minShaperRateKbps ≤ d.baseShaperRateKbps
        ∧ d.baseShaperRateKbps ≤ d.maxShaperRateKbps))
      (.text (direction ++ " rates must satisfy min <= base <= max"))

/-- `validate_core`, the delay thresholds of a direction. -/
def DirectionConfig.validateThresholds (d : DirectionConfig) (direction : String) :
    Except ConfigError Unit :=
  check (decide (d.avgOwdDeltaMaxAdjustUpThrMs ≤ d.owdDeltaDelayThrMs
      ∧ d.owdDeltaDelayThrMs ≤ d.avgOwdDeltaMaxAdjustDownThrMs))
    (.text (direction ++ " delay thresholds must satisfy growth <= bloat <= maximum backoff"))

def Config.validateCore (c : Config) : Except ConfigError Unit := do
  c.dl.validateRates "download"
  c.ul.validateRates "upload"
  ranges 0 maxRateKbps
    [("connection_active_thr_kbps", c.connectionActiveThrKbps),
      ("adaptive_ceiling_dl_cap_kbps", c.dl.adaptiveCeilingCapKbps),
      ("adaptive_ceiling_ul_cap_kbps", c.ul.adaptiveCeilingCapKbps),
      ("adaptive_ceiling_dl_safe_kbps", c.dl.adaptiveCeilingSafeKbps),
      ("adaptive_ceiling_ul_safe_kbps", c.ul.adaptiveCeilingSafeKbps)]
  ranges minPositive 1
    [("shaper_rate_min_adjust_down_bufferbloat", c.shaperRateMinAdjustDownBufferbloat),
      ("shaper_rate_max_adjust_down_bufferbloat", c.shaperRateMaxAdjustDownBufferbloat),
      ("shaper_rate_adjust_down_load_low", c.shaperRateAdjustDownLoadLow)]
  ranges 1 maxRateKbps
    [("shaper_rate_min_adjust_up_load_high", c.shaperRateMinAdjustUpLoadHigh),
      ("shaper_rate_max_adjust_up_load_high", c.shaperRateMaxAdjustUpLoadHigh),
      ("shaper_rate_adjust_up_load_low", c.shaperRateAdjustUpLoadLow)]
  check (decide (c.shaperRateMaxAdjustDownBufferbloat ≤ c.shaperRateMinAdjustDownBufferbloat))
    (.text ("shaper_rate_max_adjust_down_bufferbloat must not exceed " ++
      "shaper_rate_min_adjust_down_bufferbloat"))
  check (decide (c.shaperRateMinAdjustUpLoadHigh ≤ c.shaperRateMaxAdjustUpLoadHigh))
    (.text ("shaper_rate_min_adjust_up_load_high must not exceed " ++
      "shaper_rate_max_adjust_up_load_high"))
  ranges 0 (maxTimerS * 1000)
    [("dl_owd_delta_delay_thr_ms", c.dl.owdDeltaDelayThrMs),
      ("ul_owd_delta_delay_thr_ms", c.ul.owdDeltaDelayThrMs),
      ("dl_avg_owd_delta_max_adjust_up_thr_ms", c.dl.avgOwdDeltaMaxAdjustUpThrMs),
      ("ul_avg_owd_delta_max_adjust_up_thr_ms", c.ul.avgOwdDeltaMaxAdjustUpThrMs),
      ("dl_avg_owd_delta_max_adjust_down_thr_ms", c.dl.avgOwdDeltaMaxAdjustDownThrMs),
      ("ul_avg_owd_delta_max_adjust_down_thr_ms", c.ul.avgOwdDeltaMaxAdjustDownThrMs)]
  c.dl.validateThresholds "download"
  c.ul.validateThresholds "upload"
  ranges minTimerS maxTimerS
    [("reflector_response_deadline_s", c.reflectorResponseDeadlineS),
      ("adaptive_ceiling_hold_time_s", c.adaptiveCeilingHoldTimeS),
      ("adaptive_ceiling_probe_duration_s", c.adaptiveCeilingProbeDurationS),
      ("adaptive_ceiling_failed_bound_ttl_s", c.adaptiveCeilingFailedBoundTtlS)]
  ranges 0 maxTimerS [("adaptive_ceiling_cooldown_s", c.adaptiveCeilingCooldownS)]
  check (decide (1 ≤ c.bufferbloatDetectionWindow ∧ c.bufferbloatDetectionWindow ≤ 4096))
    (.text "bufferbloat_detection_window must be between 1 and 4096")
  check (decide (c.bufferbloatDetectionThr ≠ 0
      ∧ c.bufferbloatDetectionThr ≤ c.bufferbloatDetectionWindow))
    (.text "bufferbloat_detection_thr must be between 1 and its window length")

/-- `Config::validate`, the activity threshold of a direction. -/
def Config.validateActive (c : Config) (d : DirectionConfig) (field : String) :
    Except ConfigError Unit :=
  check (!d.adjustShaperRate || decide (c.connectionActiveThrKbps ≤ d.minShaperRateKbps))
    (.text ("connection_active_thr_kbps cannot be greater than " ++ field))

/-- `Config::validate`, what the adaptive ceiling of a direction knows. -/
def DirectionConfig.validateEvidence (d : DirectionConfig) (direction : String) :
    Except ConfigError Unit := do
  check (["legacy_unverified", "shaped_validation", "retained_configuration",
      "user_configured"].contains d.adaptiveCeilingEvidence)
    (.text ("adaptive ceiling " ++ direction ++ " evidence is unsupported"))
  if d.adaptiveCeilingEvidence = "legacy_unverified" then
    check (decide (d.adaptiveCeilingSafeKbps = 0))
      (.text ("legacy-unverified adaptive ceiling " ++ direction ++ " must not claim a safe rate"))
  else
    check (decide (d.baseShaperRateKbps ≤ d.adaptiveCeilingSafeKbps
        ∧ d.adaptiveCeilingSafeKbps ≤ d.maxShaperRateKbps))
      (.text ("adaptive ceiling " ++ direction ++ " safe rate must stay between base and maximum"))

/-- `Config::validate`, the cap of a direction. -/
def DirectionConfig.validateCap (d : DirectionConfig) (cap maximum : String) :
    Except ConfigError Unit :=
  check (decide (d.maxShaperRateKbps ≤ d.adaptiveCeilingCapKbps))
    (.text (cap ++ " cannot be lower than " ++ maximum))

/-- `Config::validate`, the adaptive ceiling. -/
def Config.validateCeiling (c : Config) : Except ConfigError Unit := do
  c.dl.validateEvidence "download"
  c.ul.validateEvidence "upload"
  c.dl.validateCap "adaptive_ceiling_dl_cap_kbps" "max_dl_shaper_rate_kbps"
  c.ul.validateCap "adaptive_ceiling_ul_cap_kbps" "max_ul_shaper_rate_kbps"
  check (decide (0 < c.adaptiveCeilingHoldTimeS))
    (.text "adaptive_ceiling_hold_time_s must be greater than zero")
  check (decide (0 < c.adaptiveCeilingGrowthPercent ∧ c.adaptiveCeilingGrowthPercent ≤ 10))
    (.text "adaptive_ceiling_growth_percent must be greater than zero and no more than 10")
  check (decide (0 < c.adaptiveCeilingProbeDurationS))
    (.text "adaptive_ceiling_probe_duration_s must be greater than zero")
  check (decide (0 ≤ c.adaptiveCeilingCooldownS))
    (.text "adaptive_ceiling_cooldown_s must not be negative")
  check (decide (0 < c.adaptiveCeilingFailedBoundTtlS))
    (.text "adaptive_ceiling_failed_bound_ttl_s must be greater than zero")

def Config.validate (c : Config) : Except ConfigError Unit := do
  c.validateCore
  c.validateActive c.dl "min_dl_shaper_rate_kbps"
  c.validateActive c.ul "min_ul_shaper_rate_kbps"
  if c.adaptiveCeilingEnabled then c.validateCeiling

theorem both_ok {ε : Type} {x y : Except ε Unit} :
    (do x; y) = .ok () ↔ x = .ok () ∧ y = .ok () := by
  cases x <;> simp [bind, Except.bind]

theorem bounded_ok {name : String} {value minimum maximum : ℚ} :
    bounded name value minimum maximum = .ok () ↔ minimum ≤ value ∧ value ≤ maximum := by
  simp [bounded, check_ok]

theorem ranges_ok {minimum maximum : ℚ} {fields : List (String × ℚ)} :
    ranges minimum maximum fields = .ok () ↔
      ∀ field ∈ fields, minimum ≤ field.2 ∧ field.2 ≤ maximum := by
  induction fields with
  | nil =>
    constructor
    · intro _ field hfield
      cases hfield
    · intro _
      rfl
  | cons field fields ih =>
    have hsplit : ranges minimum maximum (field :: fields) = .ok () ↔
        bounded field.1 field.2 minimum maximum = .ok () ∧
          ranges minimum maximum fields = .ok () := both_ok
    rw [hsplit, bounded_ok, ih, List.forall_mem_cons]

/-- The order of the rates of a direction, and the room that the adaptive ceiling has. -/
structure DirectionConfig.Accepted (d : DirectionConfig) (ceilingEnabled : Bool) : Prop where
  one_le_min : 1 ≤ d.minShaperRateKbps
  min_le_base : d.minShaperRateKbps ≤ d.baseShaperRateKbps
  base_le_max : d.baseShaperRateKbps ≤ d.maxShaperRateKbps
  safe_mem : ceilingEnabled = true → d.adaptiveCeilingEvidence ≠ "legacy_unverified" →
    d.baseShaperRateKbps ≤ d.adaptiveCeilingSafeKbps ∧ d.adaptiveCeilingSafeKbps ≤ d.maxShaperRateKbps
  max_le_cap : ceilingEnabled = true → d.maxShaperRateKbps ≤ d.adaptiveCeilingCapKbps

/-- The order of the adjustment factors. -/
structure Config.Factors (c : Config) : Prop where
  maxDown_pos : 0 < c.shaperRateMaxAdjustDownBufferbloat
  maxDown_le : c.shaperRateMaxAdjustDownBufferbloat ≤ c.shaperRateMinAdjustDownBufferbloat
  minDown_le_one : c.shaperRateMinAdjustDownBufferbloat ≤ 1
  downLow_le_one : c.shaperRateAdjustDownLoadLow ≤ 1
  upLow_ge_one : 1 ≤ c.shaperRateAdjustUpLoadLow

variable {c : Config}

theorem DirectionConfig.validateRates_ok {d : DirectionConfig} {direction : String}
    (h : d.validateRates direction = .ok ()) (hadjust : d.adjustShaperRate = true) :
    1 ≤ d.minShaperRateKbps ∧ d.minShaperRateKbps ≤ d.baseShaperRateKbps ∧
      d.baseShaperRateKbps ≤ d.maxShaperRateKbps := by
  simp only [DirectionConfig.validateRates, hadjust, Bool.not_true, Bool.false_and,
    Bool.false_eq_true, if_false, both_ok, ranges_ok, check_ok, decide_eq_true_eq] at h
  obtain ⟨hranges, horder⟩ := h
  exact ⟨(hranges _ List.mem_cons_self).1, horder⟩

theorem DirectionConfig.validateEvidence_ok {d : DirectionConfig} {direction : String}
    (h : d.validateEvidence direction = .ok ())
    (hevidence : d.adaptiveCeilingEvidence ≠ "legacy_unverified") :
    d.baseShaperRateKbps ≤ d.adaptiveCeilingSafeKbps ∧
      d.adaptiveCeilingSafeKbps ≤ d.maxShaperRateKbps := by
  simp only [DirectionConfig.validateEvidence, both_ok, hevidence, if_false, check_ok,
    decide_eq_true_eq] at h
  exact h.2

theorem Config.validate_parts (h : c.validate = .ok ()) :
    c.validateCore = .ok () ∧ (c.adaptiveCeilingEnabled = true → c.validateCeiling = .ok ()) := by
  simp only [Config.validate, both_ok] at h
  obtain ⟨hcore, -, -, hceiling⟩ := h
  refine ⟨hcore, fun henabled => ?_⟩
  rwa [if_pos henabled] at hceiling

/-- **The rates of an adjusted direction are in order.** -/
theorem Config.validate_accepted (h : c.validate = .ok ()) {isDl : Bool}
    (hadjust : (c.direction isDl).adjustShaperRate = true) :
    (c.direction isDl).Accepted c.adaptiveCeilingEnabled := by
  obtain ⟨hcore, hceiling⟩ := validate_parts h
  simp only [Config.validateCore, both_ok] at hcore
  obtain ⟨hdl, hul, -⟩ := hcore
  have hparts : c.adaptiveCeilingEnabled = true →
      (c.dl.validateEvidence "download" = .ok () ∧
        c.dl.maxShaperRateKbps ≤ c.dl.adaptiveCeilingCapKbps) ∧
      (c.ul.validateEvidence "upload" = .ok () ∧
        c.ul.maxShaperRateKbps ≤ c.ul.adaptiveCeilingCapKbps) := by
    intro henabled
    have hparts := hceiling henabled
    simp only [Config.validateCeiling, both_ok, DirectionConfig.validateCap, check_ok,
      decide_eq_true_eq] at hparts
    obtain ⟨hevidenceDl, hevidenceUl, hcapDl, hcapUl, -⟩ := hparts
    exact ⟨⟨hevidenceDl, hcapDl⟩, hevidenceUl, hcapUl⟩
  cases isDl with
  | true =>
    obtain ⟨hone, hmin, hbase⟩ := DirectionConfig.validateRates_ok hdl hadjust
    exact ⟨hone, hmin, hbase, fun henabled =>
      DirectionConfig.validateEvidence_ok (hparts henabled).1.1, fun henabled =>
      (hparts henabled).1.2⟩
  | false =>
    obtain ⟨hone, hmin, hbase⟩ := DirectionConfig.validateRates_ok hul hadjust
    exact ⟨hone, hmin, hbase, fun henabled =>
      DirectionConfig.validateEvidence_ok (hparts henabled).2.1, fun henabled =>
      (hparts henabled).2.2⟩

/-- **So are the adjustment factors.** -/
theorem Config.validate_factors (h : c.validate = .ok ()) : c.Factors := by
  obtain ⟨hcore, -⟩ := validate_parts h
  simp only [Config.validateCore, both_ok, ranges_ok, check_ok, decide_eq_true_eq] at hcore
  obtain ⟨-, -, -, hdown, hup, hmaxDown, -⟩ := hcore
  have hpos : 0 < minPositive := by norm_num [minPositive]
  simp only [List.forall_mem_cons] at hdown hup
  exact ⟨hpos.trans_le hdown.2.1.1, hmaxDown, hdown.1.2, hdown.2.2.1.2, hup.2.2.1.1⟩

end CakeAutorate.Controller
