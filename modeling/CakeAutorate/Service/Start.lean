/-
# What a service start prepares

`prepare_preset_edits` of `operations/service_config.rs` and, of `operations/service_lifecycle.rs`,
`plan_start` and `StartCandidate::prepare`.  The committed packages are read, the presets and the SQM
projection are planned, and what `uci` makes of the edits is checked and planned once more.  What
`uci` makes of them is a function, and so is whether the daemon accepts the configuration of an
instance; attestations of unchanged files are left out.
-/

import CakeAutorate.Controller.Options
import CakeAutorate.Sqm.Idempotence

namespace CakeAutorate.Service

open Sqm

structure PresetAction where
  section_ : String
  option : String
  value : String

/-- The package that is changed, and the plan. -/
structure Presets where
  package : UciPackage
  actions : List PresetAction

namespace Presets

def option (s : Presets) (section_ option : String) : Option String :=
  (s.package.get section_).bind (·.get option)

def validateMutation (section_ option value : String) : Except String Unit := do
  check (safeName section_ && safeName option) "preset mutation contains an unsafe UCI path"
  check (decide (value.utf8ByteSize ≤ 4096) && !value.toList.any isControl
      && !value.toList.contains '\'' && !value.toList.contains '\\')
    "preset mutation contains an unsafe UCI value"

def setOption (s : Presets) (section_ option value : String) : Except String Presets := do
  validateMutation section_ option value
  match s.package.get section_ with
  | none => .error ("UCI section " ++ section_ ++ " disappeared while planning")
  | some current =>
    if current.get option = some value then .ok s
    else do
      check (decide (s.actions.length < 4096)) "preset mutation plan exceeds its action limit"
      .ok ⟨s.package.put section_ (current.put option value), s.actions ++ [⟨section_, option, value⟩]⟩

def setIfEmpty (s : Presets) (section_ option value : String) : Except String Presets :=
  if value.isEmpty || (s.option section_ option).any fun item => !item.isEmpty then .ok s
  else s.setOption section_ option value

def first (s : Presets) (section_ : String) (names : List String) : Option String :=
  (names.filterMap (s.option section_)).find? fun value => !value.isEmpty

/-- `sync_interface_preset`. -/
def syncInterface (r : Resolver) (section_ : String) (s : Presets) : Except String Presets :=
  if !boolValue (s.option section_ "auto_interface_preset") true then .ok s
  else
    match s.first section_ ["wan_if", "sqm_interface", "ul_if"] with
    | none => .ok s
    | some configured => do
      let resolved ← r.resolve configured
      check (safeInterface resolved) ("resolved interface for " ++ section_ ++ " is unsafe")
      check (safeInterface ("ifb4" ++ resolved))
        ("derived download interface for " ++ section_ ++ " is unsafe")
      let s ← s.setOption section_ "wan_if" resolved
      let s ← s.setOption section_ "sqm_interface" resolved
      let s ← s.setOption section_ "ul_if" resolved
      s.setOption section_ "dl_if" ("ifb4" ++ resolved)

def halfRate (value : String) : String :=
  match Controller.parseU64 value with
  | .ok number => toString (number / 2 + number % 2)
  | .error _ => value

def syncDirectionRates (section_ sqm direction : String) (s : Presets) : Except String Presets :=
  match s.first section_ [sqm, "base_" ++ direction ++ "_shaper_rate_kbps"] with
  | none => .ok s
  | some rate => do
    let s ← s.setIfEmpty section_ ("base_" ++ direction ++ "_shaper_rate_kbps") rate
    let s ← s.setIfEmpty section_ ("max_" ++ direction ++ "_shaper_rate_kbps") rate
    s.setIfEmpty section_ ("min_" ++ direction ++ "_shaper_rate_kbps") (halfRate rate)

/-- `sync_rate_preset`. -/
def syncRates (section_ : String) (s : Presets) : Except String Presets :=
  if boolValue (s.option section_ "manual_rate_limits") false then .ok s
  else do
    let s ← syncDirectionRates section_ "sqm_download" "dl" s
    syncDirectionRates section_ "sqm_upload" "ul" s

def each (sync : String → Presets → Except String Presets) : List String → Presets →
    Except String Presets
  | [], s => .ok s
  | section_ :: rest, s => do
    let s ← sync section_ s
    each sync rest s

end Presets

def instanceNames (cake : UciPackage) : List String :=
  (cake.sections.toList.filter fun entry => entry.2.sectionType = "cake_autorate").map Prod.fst

def preparePresetEdits (cake : UciPackage) (r : Resolver) : Except String Presets := do
  let s ← Presets.each (Presets.syncInterface r) (instanceNames cake) ⟨cake, []⟩
  Presets.each Presets.syncRates (instanceNames cake) s

/-- `bool_option` of the service: only `1` is true. -/
def boolOption (c : UciSection) (key : String) (default : Bool) : Bool :=
  match c.get key with
  | none => default
  | some value => value == "1"

/-- `option(..).filter(|value| !value.is_empty())`. -/
def nonempty (c : UciSection) (key : String) : Option String :=
  (c.get key).filter fun value => !value.isEmpty

def parseRate (queue : UciSection) (key : String) : Except String ℕ :=
  match queue.get key with
  | none => .error ("SQM option " ++ key ++ " is missing")
  | some value =>
    match Controller.parseU64 value with
    | .ok rate => if rate ≤ 10000000000 then .ok rate
      else .error ("SQM option " ++ key ++ " is invalid")
    | .error _ => .error ("SQM option " ++ key ++ " is invalid")

def queueMatches (r : Resolver) (target : String) (queue : UciSection) : Except String Bool :=
  if queue.sectionType ≠ "queue" ∨ queue.get "enabled" ≠ some "1" then .ok false
  else
    match nonempty queue "interface" with
    | none => .ok false
    | some interface => do
      let resolved ← r.resolve interface
      return resolved == target

/-- `find_backing_queue`, the search for the only queue on a target. -/
def findMatch (r : Resolver) (target : String) : List (String × UciSection) →
    Option (String × UciSection) → Except String (Option (String × UciSection))
  | [], found => .ok found
  | entry :: rest, found => do
    let same ← queueMatches r target entry.2
    if !same then findMatch r target rest found
    else do
      check found.isNone ("multiple enabled SQM queues match managed target " ++ target)
      findMatch r target rest (some entry)

def findBackingQueue (sqm : UciPackage) (configured : Option String) (target : String) (r : Resolver) :
    Except String (Option (String × UciSection)) :=
  match configured with
  | some name =>
    match sqm.get name with
    | none => .ok none
    | some queue => do
      let same ← queueMatches r target queue
      return if same then some (name, queue) else none
  | none => findMatch r target sqm.sections.toList none

structure ManagedSqmAttestationSpec where
  instance_ : String
  sqmSection : String
  targetInterface : String
  uploadInterface : String
  downloadInterface : String
  directionMode : String
  minimumDownloadKbps : ℕ
  maximumDownloadKbps : ℕ
  minimumUploadKbps : ℕ
  maximumUploadKbps : ℕ
  deriving DecidableEq

structure ServiceStartPlan where
  instances : List String
  managed : List ManagedSqmAttestationSpec
  deriving DecidableEq

def maxInstances : ℕ := 64

def pushInstance (instances : List String) (name : String) : Except String (List String) := do
  check (decide (instances.length < maxInstances)) "service lifecycle exceeds its instance-count bound"
  check (!instances.contains name) "service lifecycle produced a duplicate instance"
  return instances ++ [name]

/-- What becomes of a section of the `cake-autorate` package. -/
inductive StartEntry where
  | skipped
  | manual
  | managed (spec : ManagedSqmAttestationSpec)

/-- `plan_start`, the rates of a queue fit its direction. -/
def ratesMatch (direction : String) (download upload : ℕ) : Bool :=
  !((direction != "upload_only" && download == 0) || (direction == "upload_only" && download != 0)
    || (direction != "download_only" && upload == 0)
    || (direction == "download_only" && upload != 0))

def startDirection (c : UciSection) : String := (nonempty c "sqm_direction_mode").getD "both"

def downloadInterface (c : UciSection) (target : String) : String :=
  (nonempty c "dl_if").getD ("ifb4" ++ target)

/-- `plan_start`, an instance on its target. -/
def planManaged (sqm : UciPackage) (r : Resolver) (name : String) (c : UciSection) (target : String) :
    Except String StartEntry := do
  match ← findBackingQueue sqm (nonempty c "sqm_section") target r with
  | none => return .skipped
  | some (queueName, queue) =>
    if queue.get ownerOption ≠ some name then return .skipped
    else do
      let download ← parseRate queue "download"
      let upload ← parseRate queue "upload"
      check (ratesMatch (startDirection c) download upload)
        ("service instance " ++ name ++ " SQM rates do not match its direction")
      check (safeInterface (downloadInterface c target))
        ("service instance " ++ name ++ " download interface is unsafe")
      return .managed
        { instance_ := name
          sqmSection := queueName
          targetInterface := target
          uploadInterface := target
          downloadInterface := downloadInterface c target
          directionMode := startDirection c
          minimumDownloadKbps := download
          maximumDownloadKbps := download
          minimumUploadKbps := upload
          maximumUploadKbps := upload }

/-- `plan_start`, one section. -/
def startEntry (sqm : UciPackage) (r : Resolver) (conflicts : Std.ExtTreeSet String) (name : String)
    (c : UciSection) : Except String StartEntry :=
  if c.sectionType ≠ "cake_autorate" ∨ boolOption c "enabled" false = false then .ok .skipped
  else if conflicts.contains name then .ok .skipped
  else if boolOption c "manage_sqm" true = false then .ok .manual
  else if boolOption c "sqm_enabled" false = false then .ok .skipped
  else if startDirection c = "off" then .ok .skipped
  else do
    check (["both", "download_only", "upload_only"].contains (startDirection c))
      ("service instance " ++ name ++ " has an invalid SQM direction")
    let targetName ← required (firstNonempty c ["sqm_interface", "ul_if", "wan_if"])
      ("service instance " ++ name ++ " has no SQM target")
    let target ← r.resolve targetName
    planManaged sqm r name c target

def ServiceStartPlan.push (p : ServiceStartPlan) (name : String) : StartEntry →
    Except String ServiceStartPlan
  | .skipped => .ok p
  | .manual => do
    let instances ← pushInstance p.instances name
    return { p with instances }
  | .managed spec => do
    let instances ← pushInstance p.instances name
    return ⟨instances, p.managed ++ [spec]⟩

/-- `plan_start`, the sections one after the other. -/
def startAll (sqm : UciPackage) (r : Resolver) (conflicts : Std.ExtTreeSet String) :
    List (String × UciSection) → ServiceStartPlan → Except String ServiceStartPlan
  | [], p => .ok p
  | (name, c) :: rest, p => do
    let entry ← startEntry sqm r conflicts name c
    let p ← p.push name entry
    startAll sqm r conflicts rest p

def planStart (cake sqm : UciPackage) (r : Resolver) (projection : SqmProjectionPlan) :
    Except String ServiceStartPlan :=
  startAll sqm r projection.conflicts cake.sections.toList ⟨[], []⟩

/-- `StartCandidate`: the packages that `uci` made, and what is planned on them. -/
structure StartCandidate where
  cake : UciPackage
  sqm : UciPackage
  projection : SqmProjectionPlan
  plan : ServiceStartPlan

/-- What lies outside: `CommittedSnapshot::prepare`, which has `uci` make the packages of the edits and
parses them, and `Config::from_uci_text` with `Config::validate` for an instance. -/
structure Outside where
  materialise : List PresetAction → List SqmAction → Except String (UciPackage × UciPackage)
  accepts : String → UciSection → Bool
  /-- `UciPackage::parse` takes safe names only. -/
  names_safe : ∀ {presets actions made}, materialise presets actions = .ok made →
    ∀ name c, made.1.get name = some c → safeName name = true

/-- `StartCandidate::prepare`, the packages that `uci` made. -/
def checkCandidate (outside : Outside) (r : Resolver) (projection : SqmProjectionPlan)
    (expected : ServiceStartPlan) (cake sqm : UciPackage) : Except String StartCandidate := do
  let presets ← preparePresetEdits cake r
  check presets.actions.isEmpty "service-start-preset-candidate-not-idempotent"
  let result := planProjection cake sqm r .all
  let verified ← result.1
  check (verified.actions.isEmpty && verified.managed == projection.managed
      && decide (verified.ingressInterfaces = projection.ingressInterfaces)
      && decide (verified.conflicts = projection.conflicts))
    "service-start-sqm-candidate-not-idempotent"
  (cake.sections.toList.filter fun entry => entry.2.sectionType = "cake_autorate").forM fun entry =>
    check (outside.accepts entry.1 entry.2) ("service-start-invalid-controller-config:" ++ entry.1)
  let plan ← planStart cake result.2 r verified
  check (decide (plan = expected)) "service-start-candidate-plan-changed"
  return ⟨cake, sqm, verified, plan⟩

/-- `StartCandidate::prepare`. -/
def prepare (outside : Outside) (r : Resolver) (cake sqm : UciPackage) :
    Except String StartCandidate := do
  let presets ← preparePresetEdits cake r
  let result := planProjection presets.package sqm r .all
  let projection ← result.1
  check projection.conflicts.isEmpty "service-start-conflicting-managed-targets"
  let expected ← planStart presets.package result.2 r projection
  let made ← outside.materialise presets.actions projection.actions
  checkCandidate outside r projection expected made.1 made.2

end CakeAutorate.Service
