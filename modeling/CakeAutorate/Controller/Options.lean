/-
# The options of an instance as settings

`Config::from_uci_values` of `main.rs`, for the settings that the rate control of a direction reads,
and `managed_sqm_rate_policy_from_options` of `operations/sqm_recovery_openwrt.rs`, which reads the
same options once more and says between which rates the queue of the instance may run.  A decimal
is the number that it says, where the source has the nearest float.  Options of other settings
(routes, probes, reflectors, logs) are left out, with the errors that they report.
-/

import CakeAutorate.Controller.RateControl
import CakeAutorate.Sqm.Intent

namespace CakeAutorate.Controller

open Char

open Sqm (Options parseBool)

def digitValue (c : Char) : ℕ := c.toNat - '0'.toNat

def digitsValue (digits : List Char) : ℕ := digits.foldl (fun n c => n * 10 + digitValue c) 0

/-- `str::parse` for an unsigned integer below a limit, after the sign. -/
def accumulate (limit n : ℕ) : List Char → Except String ℕ
  | [] => .ok n
  | c :: rest =>
    if !c.isDigit then .error "invalid digit found in string"
    else if limit ≤ n * 10 + digitValue c then .error "number too large to fit in target type"
    else accumulate limit (n * 10 + digitValue c) rest

def afterPlus (cs : List Char) : List Char := if cs.head? = some '+' then cs.tail else cs

/-- `str::parse` for an unsigned integer below a limit. -/
def parseUInt (limit : ℕ) (value : String) : Except String ℕ :=
  if value.toList.isEmpty then .error "cannot parse integer from empty string"
  else if (afterPlus value.toList).isEmpty then .error "invalid digit found in string"
  else accumulate limit 0 (afterPlus value.toList)

/-- `str::parse::<u64>`. -/
def parseU64 (value : String) : Except String ℕ := parseUInt (2 ^ 64) value

section

variable (cs : List Char)

def afterSign : List Char :=
  if cs.head? = some '-' then cs.tail else afterPlus cs

def signed (q : ℚ) : ℚ := if cs.head? = some '-' then -q else q

def exponentOf : Option ℤ :=
  if cs.isEmpty then some 0
  else if cs.head?.map toLower = some 'e' then
    (Sqm.parseDigits (afterSign cs.tail)).map fun n =>
      if cs.tail.head? = some '-' then -(n : ℤ) else n
  else none

def fractionOf : List Char :=
  if cs.head? = some '.' then cs.tail.takeWhile isDigit else []

def afterFraction : List Char :=
  if cs.head? = some '.' then cs.tail.dropWhile isDigit else cs

def decimalOf : Option ℚ :=
  let whole := cs.takeWhile isDigit
  let fraction := fractionOf (cs.dropWhile isDigit)
  if whole.isEmpty && fraction.isEmpty then none
  else (exponentOf (afterFraction (cs.dropWhile isDigit))).map fun e : ℤ =>
    digitsValue (whole ++ fraction) * (10 : ℚ) ^ (e - fraction.length)

end

def f64Overflow : ℚ := 2 ^ 1024 - 2 ^ 970

/-- `str::parse::<f64>`: no number where the float is not finite. -/
def parseF64 (value : String) : Except String (Option ℚ) :=
  if value.toList.isEmpty then .error "cannot parse float from empty string"
  else
    match decimalOf (afterSign value.toList) with
    | some q => .ok (if q < f64Overflow then some (signed value.toList q) else none)
    | none =>
      if ["inf", "infinity", "nan"].any fun word =>
          (afterSign value.toList).map toLower == word.toList then .ok none
      else .error "invalid float literal"

def readAs {α : Type} (key : String) (read : Except String α) : Except ConfigError α :=
  read.mapError fun e => .text (key ++ ": " ++ e)

section

variable (o : Options) (key : String)

def setBool (default : Bool) : Except ConfigError Bool :=
  match o[key]? with
  | none => .ok default
  | some value => readAs key (parseBool value)

/-- `set_u64`, and `set_usize` where a word has 64 bits. -/
def setU64 (default : ℕ) : Except ConfigError ℕ :=
  match o[key]? with
  | none => .ok default
  | some value => readAs key (parseU64 value)

def setF64 (default : ℚ) : Except ConfigError ℚ :=
  match o[key]? with
  | none => .ok default
  | some value => do
    match ← readAs key (parseF64 value) with
    | some q => .ok q
    | none => .error (.text (key ++ " must be finite"))

end

def setString (o : Options) (key default : String) : String := o[key]?.getD default

variable (o : Options)

/-- `from_uci_values`, which directions are adjusted: `download_shaping_enabled` and
`upload_shaping_enabled` ask for SQM and a mode with that direction. -/
def readAdjusted (c : Config) : Except ConfigError Config := do
  let enabled ← setBool o "enabled" false
  let _ ← setBool o "manage_sqm" true
  let sqmEnabled ← setBool o "sqm_enabled" enabled
  let mode := setString o "sqm_direction_mode" "both"
  let adjustDl ← setBool o "adjust_dl_shaper_rate" c.dl.adjustShaperRate
  let adjustUl ← setBool o "adjust_ul_shaper_rate" c.ul.adjustShaperRate
  return { c with
    dl := { c.dl with
      adjustShaperRate := adjustDl && sqmEnabled && (mode == "both" || mode == "download_only") }
    ul := { c.ul with
      adjustShaperRate := adjustUl && sqmEnabled && (mode == "both" || mode == "upload_only") } }

/-- `from_uci_values`, the rates. -/
def readRates (c : Config) : Except ConfigError Config := do
  let minDl ← setF64 o "min_dl_shaper_rate_kbps" c.dl.minShaperRateKbps
  let baseDl ← setF64 o "base_dl_shaper_rate_kbps" c.dl.baseShaperRateKbps
  let maxDl ← setF64 o "max_dl_shaper_rate_kbps" c.dl.maxShaperRateKbps
  let minUl ← setF64 o "min_ul_shaper_rate_kbps" c.ul.minShaperRateKbps
  let baseUl ← setF64 o "base_ul_shaper_rate_kbps" c.ul.baseShaperRateKbps
  let maxUl ← setF64 o "max_ul_shaper_rate_kbps" c.ul.maxShaperRateKbps
  return { c with
    dl := { c.dl with
      minShaperRateKbps := minDl, baseShaperRateKbps := baseDl, maxShaperRateKbps := maxDl }
    ul := { c.ul with
      minShaperRateKbps := minUl, baseShaperRateKbps := baseUl, maxShaperRateKbps := maxUl } }

/-- `from_uci_values`, the adaptive ceiling: a cap that is not set is the maximum. -/
def readCeiling (c : Config) : Except ConfigError Config := do
  let enabled ← setBool o "adaptive_ceiling_enabled" c.adaptiveCeilingEnabled
  let capDl ← setF64 o "adaptive_ceiling_dl_cap_kbps" c.dl.maxShaperRateKbps
  let capUl ← setF64 o "adaptive_ceiling_ul_cap_kbps" c.ul.maxShaperRateKbps
  let safeDl ← setF64 o "adaptive_ceiling_dl_safe_kbps" c.dl.adaptiveCeilingSafeKbps
  let safeUl ← setF64 o "adaptive_ceiling_ul_safe_kbps" c.ul.adaptiveCeilingSafeKbps
  let holdTime ← setF64 o "adaptive_ceiling_hold_time_s" c.adaptiveCeilingHoldTimeS
  let growth ← setF64 o "adaptive_ceiling_growth_percent" c.adaptiveCeilingGrowthPercent
  let probe ← setF64 o "adaptive_ceiling_probe_duration_s" c.adaptiveCeilingProbeDurationS
  let cooldown ← setF64 o "adaptive_ceiling_cooldown_s" c.adaptiveCeilingCooldownS
  let ttl ← setF64 o "adaptive_ceiling_failed_bound_ttl_s" c.adaptiveCeilingFailedBoundTtlS
  return { c with
    dl := { c.dl with
      adaptiveCeilingCapKbps := capDl
      adaptiveCeilingSafeKbps := safeDl
      adaptiveCeilingEvidence :=
        setString o "adaptive_ceiling_dl_evidence" c.dl.adaptiveCeilingEvidence }
    ul := { c.ul with
      adaptiveCeilingCapKbps := capUl
      adaptiveCeilingSafeKbps := safeUl
      adaptiveCeilingEvidence :=
        setString o "adaptive_ceiling_ul_evidence" c.ul.adaptiveCeilingEvidence }
    adaptiveCeilingEnabled := enabled
    adaptiveCeilingHoldTimeS := holdTime
    adaptiveCeilingGrowthPercent := growth
    adaptiveCeilingProbeDurationS := probe
    adaptiveCeilingCooldownS := cooldown
    adaptiveCeilingFailedBoundTtlS := ttl }

/-- `from_uci_values`, when delay counts as bufferbloat. -/
def readDelays (c : Config) : Except ConfigError Config := do
  let active ← setF64 o "connection_active_thr_kbps" c.connectionActiveThrKbps
  let deadline ← setF64 o "reflector_response_deadline_s" c.reflectorResponseDeadlineS
  let window ← setU64 o "bufferbloat_detection_window" c.bufferbloatDetectionWindow
  let thr ← setU64 o "bufferbloat_detection_thr" c.bufferbloatDetectionThr
  let dl ← setF64 o "dl_owd_delta_delay_thr_ms" c.dl.owdDeltaDelayThrMs
  let ul ← setF64 o "ul_owd_delta_delay_thr_ms" c.ul.owdDeltaDelayThrMs
  let upDl ← setF64 o "dl_avg_owd_delta_max_adjust_up_thr_ms" c.dl.avgOwdDeltaMaxAdjustUpThrMs
  let upUl ← setF64 o "ul_avg_owd_delta_max_adjust_up_thr_ms" c.ul.avgOwdDeltaMaxAdjustUpThrMs
  let downDl ← setF64 o "dl_avg_owd_delta_max_adjust_down_thr_ms" c.dl.avgOwdDeltaMaxAdjustDownThrMs
  let downUl ← setF64 o "ul_avg_owd_delta_max_adjust_down_thr_ms" c.ul.avgOwdDeltaMaxAdjustDownThrMs
  return { c with
    dl := { c.dl with
      owdDeltaDelayThrMs := dl
      avgOwdDeltaMaxAdjustUpThrMs := upDl
      avgOwdDeltaMaxAdjustDownThrMs := downDl }
    ul := { c.ul with
      owdDeltaDelayThrMs := ul
      avgOwdDeltaMaxAdjustUpThrMs := upUl
      avgOwdDeltaMaxAdjustDownThrMs := downUl }
    connectionActiveThrKbps := active
    reflectorResponseDeadlineS := deadline
    bufferbloatDetectionWindow := window
    bufferbloatDetectionThr := thr }

/-- `from_uci_values`, the factors and how often they apply. -/
def readFactors (c : Config) : Except ConfigError Config := do
  let minDown ← setF64 o "shaper_rate_min_adjust_down_bufferbloat"
    c.shaperRateMinAdjustDownBufferbloat
  let maxDown ← setF64 o "shaper_rate_max_adjust_down_bufferbloat"
    c.shaperRateMaxAdjustDownBufferbloat
  let minUp ← setF64 o "shaper_rate_min_adjust_up_load_high" c.shaperRateMinAdjustUpLoadHigh
  let maxUp ← setF64 o "shaper_rate_max_adjust_up_load_high" c.shaperRateMaxAdjustUpLoadHigh
  let downLow ← setF64 o "shaper_rate_adjust_down_load_low" c.shaperRateAdjustDownLoadLow
  let upLow ← setF64 o "shaper_rate_adjust_up_load_low" c.shaperRateAdjustUpLoadLow
  let bufferbloat ← setU64 o "bufferbloat_refractory_period_ms" c.bufferbloatRefractoryPeriodMs
  let decay ← setU64 o "decay_refractory_period_ms" c.decayRefractoryPeriodMs
  return { c with
    shaperRateMinAdjustDownBufferbloat := minDown
    shaperRateMaxAdjustDownBufferbloat := maxDown
    shaperRateMinAdjustUpLoadHigh := minUp
    shaperRateMaxAdjustUpLoadHigh := maxUp
    shaperRateAdjustDownLoadLow := downLow
    shaperRateAdjustUpLoadLow := upLow
    bufferbloatRefractoryPeriodMs := bufferbloat
    decayRefractoryPeriodMs := decay }

/-- `Config::from_uci_values`. -/
def fromUciValues : Except ConfigError Config := do
  let c ← readAdjusted o .defaults
  let c ← readRates o c
  let c ← readCeiling o c
  let c ← readDelays o c
  let c ← readFactors o c
  c.validateCore
  return c

/-- `MAX_RATE_KBPS`. -/
def maxRate : ℕ := 100000000

structure ManagedSqmRatePolicy where
  minimumDownloadKbps : ℕ
  maximumDownloadKbps : ℕ
  minimumUploadKbps : ℕ
  maximumUploadKbps : ℕ
  deriving DecidableEq

def ManagedSqmRatePolicy.minimum (p : ManagedSqmRatePolicy) (isDl : Bool) : ℕ :=
  if isDl then p.minimumDownloadKbps else p.minimumUploadKbps

def ManagedSqmRatePolicy.maximum (p : ManagedSqmRatePolicy) (isDl : Bool) : ℕ :=
  if isDl then p.maximumDownloadKbps else p.maximumUploadKbps

/-- `ManagedSqmRatePolicy::validate`, a direction. -/
def validateBounds (minimum maximum : ℕ) (direction : String) : Except String Unit :=
  check (minimum != 0 && decide (minimum ≤ maximum) && decide (maximum ≤ maxRate))
    ("managed SQM " ++ direction ++ " controller bounds are invalid")

def ManagedSqmRatePolicy.validate (p : ManagedSqmRatePolicy) : Except String Unit := do
  validateBounds p.minimumDownloadKbps p.maximumDownloadKbps "download"
  validateBounds p.minimumUploadKbps p.maximumUploadKbps "upload"

def configuredIntegerRate (key : String) (default : ℕ) (allowZero : Bool) : Except String ℕ :=
  match o[key]? with
  | none => .ok default
  | some raw =>
    match parseU64 raw with
    | .error _ => .error ("managed SQM option " ++ key ++ " is not an unsigned decimal integer")
    | .ok value =>
      if (!allowZero && value == 0) || decide (maxRate < value) then
        .error ("managed SQM option " ++ key ++ " is not a bounded integer kbit/s value")
      else .ok value

/-- `managed_sqm_rate_policy_from_options`, whether the adaptive ceiling is on. -/
def adaptiveOption : Except String Bool :=
  if o["adaptive_ceiling_enabled"]? = none ∨ o["adaptive_ceiling_enabled"]? = some "0" then .ok false
  else if o["adaptive_ceiling_enabled"]? = some "1" then .ok true
  else .error "adaptive_ceiling_enabled must be exactly 0 or 1"

def managedSqmRatePolicyFromOptions : Except String ManagedSqmRatePolicy := do
  let minimumDl ← configuredIntegerRate o "min_dl_shaper_rate_kbps" defaultDl.minimum false
  let maximumDl ← configuredIntegerRate o "max_dl_shaper_rate_kbps" defaultDl.maximum false
  let minimumUl ← configuredIntegerRate o "min_ul_shaper_rate_kbps" defaultUl.minimum false
  let maximumUl ← configuredIntegerRate o "max_ul_shaper_rate_kbps" defaultUl.maximum false
  let adaptive ← adaptiveOption o
  let capDl ← configuredIntegerRate o "adaptive_ceiling_dl_cap_kbps" maximumDl true
  let capUl ← configuredIntegerRate o "adaptive_ceiling_ul_cap_kbps" maximumUl true
  check (decide (minimumDl ≤ maximumDl) && decide (minimumUl ≤ maximumUl))
    "managed SQM controller bounds are not ordered"
  check (!adaptive || (decide (maximumDl ≤ capDl) && decide (maximumUl ≤ capUl)))
    "adaptive ceiling cap is below the configured controller maximum"
  let policy : ManagedSqmRatePolicy :=
    { minimumDownloadKbps := minimumDl
      maximumDownloadKbps := if adaptive then max capDl maximumDl else maximumDl
      minimumUploadKbps := minimumUl
      maximumUploadKbps := if adaptive then max capUl maximumUl else maximumUl }
  policy.validate
  return policy

/-- `apply_shaper`, the bandwidth that is asked of `tc`. -/
def appliedRate (rate : ℚ) : ℕ := ⌊max (roundRate rate) 1⌋.toNat

end CakeAutorate.Controller
