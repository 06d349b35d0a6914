/-
# The configuration of a controller

`Config::from_uci_values` of `main.rs` with its defaults: the options that are set by name, in the
order of the source, and the ones that depend on others.  A `Config` maps the names of its options
to their settings.

Numbers with a fraction are left to the `Build`, with its features and the checks of `validate_core`
and `Config::validate` on the result.
-/

import CakeAutorate.Candidate.Words
import CakeAutorate.Sqm.Intent
import Mathlib.Data.Rat.Defs

namespace CakeAutorate.Candidate

open Wire Protocol Routing

/-- The setting of an option. -/
inductive Setting (F : Type) where
  | flag (b : Bool)
  | word (t : Text)
  | real (x : F)
  | count (n : ℕ)

/-- An option that is set by its name, with its default. -/
inductive Row where
  | flag (key : String) (default : Bool)
  | word (key : String) (default : String)
  | real (key : String) (default : ℚ)
  | u64 (key : String) (default : ℕ)
  | usize (key : String) (default : ℕ)

def Row.key : Row → String
  | .flag key _ => key
  | .word key _ => key
  | .real key _ => key
  | .u64 key _ => key
  | .usize key _ => key

def enabledRows : List Row := [ .flag "enabled" false, .flag "manage_sqm" true]

def sqmRows : List Row := [
  .flag "sqm_enabled" false, .word "sqm_direction_mode" "both", .word "sqm_section" "",
  .word "sqm_interface" "", .word "dl_if" "ifb-wan", .word "ul_if" "wan", .word "route_mode" "auto",
  .word "mwan3_member" ""]

/-- The backend, with the feature `calibration`. -/
def backendRows : List Row := [ .word "speedtest_backend" "auto"]

def watchRows : List Row := [
  .real "route_check_interval_s" 2, .flag "external_ip_check_enabled" false,
  .u64 "external_ip_check_interval_s" 3600, .word "external_ip_check_url" "https://api.ipify.org"]

def pathRows : List Row := [
  .word "rx_bytes_path" "", .word "tx_bytes_path" "", .flag "adjust_dl_shaper_rate" true,
  .flag "adjust_ul_shaper_rate" true]

def rateRows : List Row := [
  .real "min_dl_shaper_rate_kbps" 5000, .real "base_dl_shaper_rate_kbps" 20000,
  .real "max_dl_shaper_rate_kbps" 80000, .real "min_ul_shaper_rate_kbps" 5000,
  .real "base_ul_shaper_rate_kbps" 20000, .real "max_ul_shaper_rate_kbps" 35000,
  .flag "adaptive_ceiling_enabled" false, .real "adaptive_ceiling_dl_cap_kbps" 80000,
  .real "adaptive_ceiling_ul_cap_kbps" 35000, .real "adaptive_ceiling_dl_safe_kbps" 0,
  .real "adaptive_ceiling_ul_safe_kbps" 0, .word "adaptive_ceiling_dl_evidence" "legacy_unverified",
  .word "adaptive_ceiling_ul_evidence" "legacy_unverified", .real "adaptive_ceiling_hold_time_s" 20,
  .real "adaptive_ceiling_growth_percent" 3, .real "adaptive_ceiling_probe_duration_s" 8,
  .real "adaptive_ceiling_cooldown_s" 30, .real "adaptive_ceiling_failed_bound_ttl_s" 900]

/-- Probes and ratings, with the feature `transport-probes`. -/
def transportRows : List Row := [
  .flag "transport_latency_enabled" false, .flag "transport_controller_enabled" false,
  .word "transport_probe_backend" "websocket",
  .word "transport_probe_endpoint" "wss://ping-bufferbloat.libreqos.com/ws",
  .real "transport_probe_idle_interval_s" 15, .real "transport_probe_loaded_interval_s" 1,
  .u64 "transport_probe_timeout_s" 5, .real "transport_load_hold_s" 3,
  .real "transport_cpu_max_percent" 85, .real "rating_load_window_s" 2,
  .real "rating_load_enter_ratio" 0.6, .real "rating_load_exit_ratio" 0.4,
  .real "rating_load_hold_s" 1, .real "rating_load_dropout_s" 1.5,
  .real "rating_load_min_kbps" 2000, .real "rating_load_dominance_ratio" 1.5,
  .real "rating_capture_min_enter_ratio" 0.15, .real "rating_capture_peak_factor" 0.35,
  .real "rating_capture_contamination_ratio" 0.1, .real "rating_capture_ack_ratio" 0.08,
  .usize "rating_capture_quiet_s" 5, .usize "rating_capture_quiet_timeout_s" 30,
  .real "rating_capture_quiet_ratio" 0.05, .real "rating_capture_quiet_min_kbps" 1000,
  .real "rating_episode_gap_s" 30, .real "quality_target_delay_ms" 30,
  .usize "quality_search_max_steps" 3, .real "quality_search_observe_s" 6,
  .real "quality_search_cooldown_s" 900, .flag "throughput_guard_enabled" true,
  .real "throughput_guard_retention_percent" 80, .real "throughput_guard_dl_floor_kbps" 0,
  .real "throughput_guard_ul_floor_kbps" 0, .real "throughput_reference_dl_p20_kbps" 0,
  .real "throughput_reference_dl_p50_kbps" 0, .real "throughput_reference_ul_p20_kbps" 0,
  .real "throughput_reference_ul_p50_kbps" 0]

def pingerRows : List Row := [
  .real "connection_active_thr_kbps" 2000, .flag "enable_sleep_function" true,
  .real "sustained_idle_sleep_thr_s" 60, .flag "min_shaper_rates_enforcement" false,
  .usize "stall_detection_thr" 5, .real "connection_stall_thr_kbps" 10,
  .real "global_ping_response_timeout_s" 10, .word "pinger_method" "fping",
  .word "ping_extra_args" "", .word "ping_prefix_string" ""]

/-- The session, with the feature `calibration`. -/
def irttRows : List Row := [ .real "irtt_session_duration_m" 10]

def controlRows : List Row := [ .word "reflectors_url" "", .usize "reflectors_url_skip_lines" 1,
  .flag "randomize_reflectors" true, .flag "retain_reflector_stats" true, .usize "no_pingers" 6,
  .real "reflector_ping_interval_s" 0.3, .real "reflector_health_check_interval_s" 1,
  .real "reflector_response_deadline_s" 1, .usize "reflector_misbehaving_detection_window" 60,
  .usize "reflector_misbehaving_detection_thr" 3, .real "reflector_replacement_interval_mins" 60,
  .real "reflector_comparison_interval_mins" 1, .real "reflector_sum_owd_baselines_delta_thr_ms" 20,
  .real "reflector_owd_delta_ewma_delta_thr_ms" 10, .u64 "monitor_achieved_rates_interval_ms" 200,
  .usize "bufferbloat_detection_window" 6, .usize "bufferbloat_detection_thr" 3,
  .real "high_load_thr" 0.75, .real "dl_owd_delta_delay_thr_ms" 30,
  .real "ul_owd_delta_delay_thr_ms" 30, .real "dl_avg_owd_delta_max_adjust_up_thr_ms" 10,
  .real "ul_avg_owd_delta_max_adjust_up_thr_ms" 10,
  .real "dl_avg_owd_delta_max_adjust_down_thr_ms" 60,
  .real "ul_avg_owd_delta_max_adjust_down_thr_ms" 60, .real "alpha_baseline_increase" 0.001,
  .real "alpha_baseline_decrease" 0.9, .real "alpha_delta_ewma" 0.095,
  .real "shaper_rate_min_adjust_down_bufferbloat" 0.99,
  .real "shaper_rate_max_adjust_down_bufferbloat" 0.75,
  .real "shaper_rate_min_adjust_up_load_high" 1, .real "shaper_rate_max_adjust_up_load_high" 1.04,
  .real "shaper_rate_adjust_down_load_low" 0.99, .real "shaper_rate_adjust_up_load_low" 1.01,
  .u64 "bufferbloat_refractory_period_ms" 300, .u64 "decay_refractory_period_ms" 1000,
  .flag "output_processing_stats" false, .flag "output_summary_stats" false,
  .flag "output_load_stats" false, .flag "output_reflector_stats" false,
  .flag "output_cake_changes" false, .flag "output_cpu_stats" false,
  .flag "output_cpu_raw_stats" false, .flag "graph_history_enabled" false,
  .u64 "graph_history_interval_s" 10, .flag "log_to_file" true, .flag "debug" true,
  .flag "log_DEBUG_messages_to_syslog" false, .u64 "log_file_max_time_mins" 10,
  .u64 "log_file_max_size_KB" 2000, .word "log_file_path_override" "",
  .u64 "log_file_buffer_size_B" 512, .u64 "log_file_buffer_timeout_ms" 500,
  .flag "log_file_export_compress" true, .real "startup_wait_s" 0,
  .real "if_up_check_interval_s" 10, .u64 "monitor_cpu_usage_interval_ms" 2000]

def allRows : List Row :=
  enabledRows ++ sqmRows ++ backendRows ++ watchRows ++ pathRows ++ rateRows ++ transportRows
    ++ pingerRows ++ irttRows ++ controlRows

structure Config (F : Type) where
  instance_ : Text
  settings : String → Setting F
  explicitDnsServer : Option Ipv4Addr
  explicitRouteAuthority : Option ExplicitRouteAuthority
  reflectors : List Text
  transportProbeUrls : List Text
  irttServers : List Text

/-- A build of the daemon: its features and number formats, and the checks on a configuration. -/
structure Build (F : Type) where
  transportProbes : Bool
  calibration : Bool
  net : AddressText
  usizeBits : ℕ
  real : ℚ → F
  parseReal : Text → Except String F
  isFinite : F → Bool
  validateCore : Config F → Except String Unit
  validate : Config F → Except String Unit

namespace Config

variable {F : Type} (cfg : Config F)

def flag (key : String) : Bool :=
  match cfg.settings key with
  | .flag b => b
  | _ => false

def word (key : String) : Text :=
  match cfg.settings key with
  | .word t => t
  | _ => []

def set (key : String) (setting : Setting F) : Config F :=
  { cfg with settings := Function.update cfg.settings key setting }

def downloadShapingEnabled : Bool :=
  cfg.flag "sqm_enabled" && [lit "both", lit "download_only"].contains (cfg.word "sqm_direction_mode")

def uploadShapingEnabled : Bool :=
  cfg.flag "sqm_enabled" && [lit "both", lit "upload_only"].contains (cfg.word "sqm_direction_mode")

def counterPath (interface : Text) (counter : String) : Text :=
  lit "/sys/class/net/" ++ interface ++ lit "/statistics/" ++ lit counter

/-- `normalize_paths`, what is received. -/
def normalizeRx : Config F :=
  if cfg.word "rx_bytes_path" != [] then cfg
  else if cfg.downloadShapingEnabled then
    cfg.set "rx_bytes_path" (.word (counterPath (cfg.word "dl_if") "tx_bytes"))
  else cfg.set "rx_bytes_path" (.word (counterPath (cfg.word "sqm_interface") "rx_bytes"))

/-- `normalize_paths`, what is sent. -/
def normalizeTx : Config F :=
  if cfg.word "tx_bytes_path" != [] then cfg
  else cfg.set "tx_bytes_path" (.word (counterPath (cfg.word "ul_if")
    (if lit "ifb" <+: cfg.word "ul_if" ∨ lit "veth" <+: cfg.word "ul_if" then "rx_bytes"
      else "tx_bytes")))

end Config

def parseDigits (bound : ℕ) : ℕ → Text → Except String ℕ
  | n, [] => .ok n
  | n, c :: rest =>
    if !c.isDigit then .error "invalid digit found in string"
    else if bound ≤ 10 * n + (c.toNat - '0'.toNat) then
      .error "number too large to fit in target type"
    else parseDigits bound (10 * n + (c.toNat - '0'.toNat)) rest

/-- `str::parse` of an unsigned integer. -/
def parseInteger (bits : ℕ) (t : Text) : Except String ℕ :=
  match t with
  | [] => .error "cannot parse integer from empty string"
  | ['+'] => .error "invalid digit found in string"
  | '+' :: digits => parseDigits (2 ^ bits) 0 digits
  | digits => parseDigits (2 ^ bits) 0 digits

def words (value : Text) : List Text :=
  (value.splitOnP fun c => c == ',' || isWhitespace c).filter fun w => !w.isEmpty

def splitWhitespace (value : Text) : List Text :=
  (value.splitOnP isWhitespace).filter fun w => !w.isEmpty

def isHttpUrl (value : Text) : Bool := lit "http://" <+: value || lit "https://" <+: value

section Values

variable {F : Type} (b : Build F)

def Row.initial : Row → Setting F
  | .flag _ default => .flag default
  | .word _ default => .word (lit default)
  | .real _ default => .real (b.real default)
  | .u64 _ default => .count default
  | .usize _ default => .count default

def defaults (name : Text) : Config F where
  instance_ := name
  settings key :=
    if key = "sqm_section" then .word (lit "cake_" ++ name)
    else ((allRows.find? fun row => row.key = key).map (Row.initial b)).getD (.word [])
  explicitDnsServer := none
  explicitRouteAuthority := none
  reflectors := standardReflectors
  transportProbeUrls := [lit "https://speed.cloudflare.com/__down?bytes=0",
    lit "https://www.google.com/generate_204",
    lit "https://connectivitycheck.gstatic.com/generate_204"]
  irttServers := []

def named {α : Type} (key : String) (r : Except String α) : Except String α :=
  r.mapError fun e => s!"{key}: {e}"

/-- `set_bool`, `set_string`, `set_f64`, `set_u64` and `set_usize`: the value of an option. -/
def Row.parse (value : Text) : Row → Except String (Setting F)
  | .flag key _ => (named key (Sqm.parseBool (String.ofList value))).map .flag
  | .word _ _ => .ok (.word value)
  | .real key _ => do
    let x ← named key (b.parseReal value)
    if b.isFinite x then .ok (.real x) else .error s!"{key} must be finite"
  | .u64 key _ => (named key (parseInteger 64 value)).map .count
  | .usize key _ => (named key (parseInteger b.usizeBits value)).map .count

variable (single : String → Option Text) (lists : String → Option (List Text))

def setRow (cfg : Config F) (row : Row) : Except String (Config F) :=
  match single row.key with
  | none => .ok cfg
  | some value => (row.parse b value).map fun setting => cfg.set row.key setting

def setRows (rows : List Row) (cfg : Config F) : Except String (Config F) :=
  rows.foldlM (setRow b single) cfg

section

variable (cfg : Config F)

def setRoute : Except String (Config F) := do
  let field := fun key => (single key).getD []
  let dns ← explicitDnsServer b.net (cfg.word "route_mode") (field "route_dns_ipv4")
  let authority ← ExplicitRouteAuthority.fromFields (cfg.word "route_mode")
    (field "route_source_ipv4") (field "route_table") (field "route_fwmark")
    (field "route_fwmark_mask")
  return { cfg with explicitDnsServer := dns, explicitRouteAuthority := authority }

def presetInterfaces : Config F :=
  match (((single "wan_if").or (single "sqm_interface")).or
      (single "ul_if")).filter (· != []) with
  | none => cfg
  | some wan =>
    let cfg := (cfg.set "ul_if" (.word wan)).set "dl_if" (.word (lit "ifb4" ++ wan))
    if cfg.word "sqm_interface" = [] then cfg.set "sqm_interface" (.word wan) else cfg

def setInterfaces : Except String (Config F) := do
  let preset ← match single "auto_interface_preset" with
    | none => .ok true
    | some value => named "auto_interface_preset" (Sqm.parseBool (String.ofList value))
  let cfg := if preset then presetInterfaces single cfg else cfg
  return if cfg.word "sqm_interface" = [] then
    cfg.set "sqm_interface" (.word (cfg.word "ul_if")) else cfg

def maskDirections : Config F :=
  let cfg := if cfg.downloadShapingEnabled then cfg else cfg.set "adjust_dl_shaper_rate" (.flag false)
  if cfg.uploadShapingEnabled then cfg else cfg.set "adjust_ul_shaper_rate" (.flag false)

def fillCaps : Config F :=
  let cfg := if (single "adaptive_ceiling_dl_cap_kbps").isSome then cfg
    else cfg.set "adaptive_ceiling_dl_cap_kbps" (cfg.settings "max_dl_shaper_rate_kbps")
  if (single "adaptive_ceiling_ul_cap_kbps").isSome then cfg
    else cfg.set "adaptive_ceiling_ul_cap_kbps" (cfg.settings "max_ul_shaper_rate_kbps")

def listReflectors : Config F :=
  match lists "reflector", single "reflectors" with
  | some values, _ => { cfg with reflectors := values.filter fun v : Text => !v.isEmpty }
  | none, some value => { cfg with reflectors := words value }
  | none, none => cfg

def listUrls : Config F :=
  match lists "transport_probe_url", single "transport_probe_urls" with
  | some values, _ => { cfg with transportProbeUrls := values.filter isHttpUrl }
  | none, some value => { cfg with transportProbeUrls := (splitWhitespace value).filter isHttpUrl }
  | none, none => cfg

def listServers : Config F :=
  let servers := match lists "irtt_server", (single "irtt_servers").or (single "irtt_server") with
    | some values, _ => values.filter fun v : Text => !v.isEmpty
    | none, some value => words value
    | none, none => cfg.irttServers
  { cfg with irttServers := servers.eraseDups }

/-- The end of `from_uci_values`: lists and paths. -/
def setLists : Config F :=
  let cfg := listReflectors single lists cfg
  let cfg := if b.transportProbes then listUrls single lists cfg else cfg
  let cfg := if b.calibration then listServers single lists cfg else cfg
  let cfg := { cfg with reflectors := cfg.reflectors.eraseDups }
  let cfg := if b.calibration && cfg.word "pinger_method" == lit "irtt" then
    { cfg with reflectors := cfg.irttServers } else cfg
  cfg.normalizeRx.normalizeTx

end

def fromUciValues (name : Text) (o : Options) : Except String (Config F) := do
  let cfg ← setRows b o.single enabledRows (defaults b name)
  let cfg := cfg.set "sqm_enabled" (.flag (cfg.flag "enabled"))
  let cfg ← setRows b o.single sqmRows cfg
  let cfg ← setRoute b o.single cfg
  let cfg ← setRows b o.single ((if b.calibration then backendRows else []) ++ watchRows) cfg
  let cfg ← setInterfaces o.single cfg
  let cfg ← setRows b o.single pathRows cfg
  let cfg ← setRows b o.single (rateRows ++ if b.transportProbes then transportRows else [])
    (maskDirections cfg)
  let cfg ← setRows b o.single (pingerRows ++ (if b.calibration then irttRows else []) ++ controlRows)
    (fillCaps o.single cfg)
  let cfg := setLists b o.single o.lists cfg
  b.validateCore cfg
  return cfg

def fromUciText (name data : Text) : Except String (Config F) :=
  fromUciValues b name (readText name data)

end Values

end CakeAutorate.Candidate
