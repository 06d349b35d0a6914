/-
# The scheduler's view of the configuration

`parse_scheduled_instances` of `operations/scheduler_config.rs`: the text that `uci show` prints,
as sections with the raw values of the options that matter.  What a section means for the
scheduler, `parse_instance`, is a parameter: nothing here depends on it.
-/

import CakeAutorate.Routing.Attestation
import CakeAutorate.Scheduler.Cursor
import Std.Data.TreeMap

namespace CakeAutorate.SchedulerConfig

open Wire Protocol Scheduler

def maxUciBytes : ℕ := 256 * 1024

def maxScheduledInstances : ℕ := 64

def relevantOptions : List Text := [
  "enabled", "scheduled_autotune_enabled", "scheduled_autotune_interval_hours",
  "scheduled_autotune_idle_window_s", "scheduled_autotune_window_start_hour",
  "scheduled_autotune_window_end_hour", "scheduled_autotune_max_traffic_mb_day",
  "scheduled_autotune_max_traffic_mb_month", "scheduled_autotune_auto_apply",
  "connection_active_thr_kbps", "sqm_interface", "wan_if", "ul_if", "auto_interface_preset",
  "route_mode", "mwan3_member", "route_source_ipv4", "route_table", "route_fwmark",
  "route_fwmark_mask", "route_dns_ipv4", "autotune_profile", "autotune_calibration_strategy",
  "speedtest_backend", "access_medium", "access_medium_source",
  "access_medium_confidence_percent", "capacity_learning_policy", "runtime_learning_mode",
  "adaptive_ceiling_enabled", "service_dl_cap_kbps", "service_ul_cap_kbps"].map lit

structure SchedulerConfigIssue where
  section_ : Text
  message : String
  deriving DecidableEq

structure SchedulerConfigSnapshot (Instance : Type) where
  instances : List Instance
  issues : List SchedulerConfigIssue
  deriving DecidableEq

structure RawSection where
  kind : Option Text
  options : Std.TreeMap Text (List Text)
  unknownSchedulerOptions : List Text

/-- The state of the loop of `parse_scalar`. -/
structure ScalarState where
  value : Text
  quoted : Bool
  escaped : Bool
  started : Bool
  ended : Bool

/-- One character of `parse_scalar`. -/
def ScalarState.push (s : ScalarState) (c : Char) : Except String ScalarState :=
  if s.escaped then .ok { s with value := s.value ++ [c], escaped := false, started := true }
  else if c == '\\' then .ok { s with escaped := true, started := true }
  else if c == '\'' then .ok { s with quoted := !s.quoted, started := true }
  else if isWhitespace c && !s.quoted then
    .ok (if s.started then { s with ended := true } else s)
  else if s.ended then .error "scheduled UCI option contains multiple values"
  else .ok { s with value := s.value ++ [c], started := true }

def parseScalar (raw : Text) : Except String Text := do
  let s ← (Routing.trim raw).foldlM ScalarState.push ⟨[], false, false, false, false⟩
  if !s.started || s.quoted || s.escaped then .error "scheduled UCI scalar is incomplete"
  else .ok s.value

abbrev Sections := Std.TreeMap Text RawSection

def RawSection.read (section_ : RawSection) (name : Text) (option : Option Text) (raw : Text) :
    Except String RawSection :=
  match option with
  | none =>
    if section_.kind.isSome then
      .error s!"UCI section {String.ofList name} has a duplicate type"
    else do
      let kind ← parseScalar raw
      return { section_ with kind := some kind }
  | some option =>
    if relevantOptions.contains option then
      if !option.all fun c => isAsciiAlphanumeric c || c == '_' then
        .error s!"UCI option {String.ofList option} is invalid"
      else
        .ok { section_ with
          options := section_.options.insert option (section_.options.getD option [] ++ [raw]) }
    else if (lit "scheduled_autotune_") <+: option then
      .ok { section_ with
        unknownSchedulerOptions := section_.unknownSchedulerOptions ++ [option] }
    else .ok section_

def readLine (sections : Sections) (line : Text) (number : ℕ) : Except String Sections :=
  if line.isEmpty then .ok sections
  else match splitOnce '=' line with
    | none => .error s!"UCI line {number} has no value"
    | some (left, rawValue) =>
      match left.splitOn '.' with
      | package :: path =>
        if package != lit "cake-autorate" then
          .error s!"UCI line {number} belongs to another package"
        else match path with
          | [] => .error s!"UCI line {number} has no section"
          | name :: rest => do
            requireIdentifier "scheduler instance" name
            check (rest.length ≤ 1) s!"UCI line {number} has an invalid path"
            let section_ ← (sections.getD name ⟨none, {}, []⟩).read name rest.head? rawValue
            return sections.insert name section_
      | [] => .error s!"UCI line {number} belongs to another package"

def readLines (sections : Sections) : List Text → ℕ → Except String Sections
  | [], _ => .ok sections
  | line :: rest, number => do
    let sections ← readLine sections line number
    readLines sections rest (number + 1)

section Parse

variable {Instance : Type} (parseInstance : Text → RawSection → Except String Instance)

def readSections (snapshot : SchedulerConfigSnapshot Instance) :
    List (Text × RawSection) → Except String (SchedulerConfigSnapshot Instance)
  | [] => .ok snapshot
  | (name, section_) :: rest =>
    if section_.kind != some (lit "cake_autorate") then readSections snapshot rest
    else if maxScheduledInstances ≤ snapshot.instances.length + snapshot.issues.length then
      .error "too many CAKE Autorate instances for the native scheduler"
    else match parseInstance name section_ with
      | .ok config => readSections { snapshot with instances := snapshot.instances ++ [config] } rest
      | .error message =>
        readSections { snapshot with issues := snapshot.issues ++ [⟨name, message⟩] } rest

def parseScheduledInstances (input : Text) : Except String (SchedulerConfigSnapshot Instance) :=
  if maxUciBytes < byteLength input || input.contains '\x00' then
    .error "CAKE Autorate UCI snapshot exceeds its safe bound"
  else do
    let sections ← readLines {} (lines input) 1
    readSections parseInstance ⟨[], []⟩ sections.toList

end Parse

end CakeAutorate.SchedulerConfig
