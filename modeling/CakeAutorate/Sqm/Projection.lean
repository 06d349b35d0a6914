/-
# The SQM projection

`plan_projection` of `operations/sqm_projection.rs`: the edits that bring the `sqm` package in line
with the instances of the `cake-autorate` package.  The planner changes a copy of the package and
notes each change as an action.  The resolver is a function, so the cache of the source, which keeps
what the resolver said, has nothing to add and is left out.
-/

import CakeAutorate.Sqm.Intent
import Std.Data.ExtTreeSet

namespace CakeAutorate.Sqm

open Wire (isWhitespace)

inductive ProjectionScope where
  | all
  | instance_ (name : String)

inductive SqmAction where
  | addSection (section_ : String)
  | deleteSection (section_ : String)
  | set (section_ option value : String)
  | delete (section_ option : String)

structure SqmProjectionPlan where
  actions : List SqmAction := []
  managed : Bool := false
  interfaces : Std.ExtTreeSet String := ∅
  ingressInterfaces : Std.ExtTreeSet String := ∅
  conflicts : Std.ExtTreeSet String := ∅

/-- `InterfaceResolver`. -/
structure Resolver where
  resolve : String → Except String String
  supportsCakeMq : String → Except String Bool

/-- The package that is changed, and the plan. -/
structure Planning where
  sqm : UciPackage
  plan : SqmProjectionPlan

def ownerOption : String := "_cake_autorate_managed"

/-- `UciPackage` with a section put in. -/
def UciPackage.put (p : UciPackage) (name : String) (s : UciSection) : UciPackage :=
  ⟨p.sections.insert name s⟩

/-- `UciPackage` with a section taken out. -/
def UciPackage.remove (p : UciPackage) (name : String) : UciPackage := ⟨p.sections.erase name⟩

/-- `UciSection` with an option put in. -/
def UciSection.put (s : UciSection) (option value : String) : UciSection :=
  { s with options := s.options.insert option value }

/-- `UciSection` with an option taken out. -/
def UciSection.remove (s : UciSection) (option : String) : UciSection :=
  { s with options := s.options.erase option }

def firstNonempty (s : UciSection) (names : List String) : Option String :=
  (names.filterMap s.get).find? fun value => !value.isEmpty

/-- `resolve_cached`, without its cache. -/
def resolveCached (r : Resolver) (name : String) : Except String String := do
  let value ← r.resolve name
  check (safeInterface value && !value.toList.contains ',' && !value.toList.any isWhitespace)
    "resolved SQM interface is unsafe"
  return value

def validatePathValue (section_ option : String) (value : Option String) : Except String Unit := do
  check (safeName section_ && safeName option) "SQM projection contains an unsafe UCI path"
  check (value.all fun value => decide (value.utf8ByteSize ≤ 4096) && !value.toList.any isControl
      && !value.toList.contains '\'' && !value.toList.contains '\\')
    "SQM projection contains an unsafe UCI value"

namespace Planning

variable (s : Planning)

/-- `push_action`, after the package has been changed. -/
def pushAction (sqm : UciPackage) (action : SqmAction) : Except String Planning :=
  if 4096 ≤ s.plan.actions.length then .error "SQM projection exceeds its action limit"
  else .ok ⟨sqm, { s.plan with actions := s.plan.actions ++ [action] }⟩

def setOption (section_ option value : String) : Except String Planning := do
  validatePathValue section_ option (some value)
  match s.sqm.get section_ with
  | none => .error ("SQM section " ++ section_ ++ " is absent")
  | some target =>
    if target.get option = some value then .ok s
    else s.pushAction (s.sqm.put section_ (target.put option value)) (.set section_ option value)

def deleteOption (section_ option : String) : Except String Planning := do
  validatePathValue section_ option none
  match s.sqm.get section_ with
  | none => .ok s
  | some target =>
    if target.get option = none then .ok s
    else s.pushAction (s.sqm.put section_ (target.remove option)) (.delete section_ option)

def deleteSection (section_ : String) : Except String Planning := do
  check (safeName section_) "SQM section deletion contains an unsafe name"
  if s.sqm.get section_ = none then .ok s
  else s.pushAction (s.sqm.remove section_) (.deleteSection section_)

def ensureQueue (section_ : String) : Except String Planning :=
  match s.sqm.get section_ with
  | some value =>
    if value.sectionType = "queue" then .ok s
    else .error ("SQM section " ++ section_ ++ " exists with a foreign type")
  | none => s.pushAction (s.sqm.put section_ ⟨"queue", ∅⟩) (.addSection section_)

def assign (section_ : String) (a : String × Option String) : Except String Planning :=
  match a.2 with
  | some value => s.setOption section_ a.1 value
  | none => s.deleteOption section_ a.1

def assignAll (section_ : String) : List (String × Option String) → Planning → Except String Planning
  | [], s => .ok s
  | a :: rest, s => do
    let s ← s.assign section_ a
    assignAll section_ rest s

def managed : Planning := { s with plan := { s.plan with managed := true } }

/-- `cleanup_stale`, the sections that an owner has besides the one to keep. -/
def staleSections (sqm : UciPackage) (owner : String) (keep : Option String) : List String :=
  (sqm.sections.toList.filter fun entry =>
    some entry.1 ≠ keep ∧ entry.2.get ownerOption = some owner).map Prod.fst

/-- `cleanup_stale`, one section. -/
def dropStale (owner section_ : String) : Except String Planning := do
  let s ← if section_ = "cake_" ++ owner then s.deleteSection section_
    else s.deleteOption section_ ownerOption
  return s.managed

/-- `cleanup_stale`, the sections one after the other. -/
def dropAll (owner : String) : List String → Planning → Except String Planning
  | [], s => .ok s
  | section_ :: rest, s => do
    let s ← s.dropStale owner section_
    dropAll owner rest s

def cleanupStale (owner : String) (keep : Option String) : Except String Planning :=
  dropAll owner (staleSections s.sqm owner keep) s

end Planning

namespace UciSection

variable (c : UciSection)

/-- `manage_sqm`. -/
def manages : Bool := boolValue (c.get "manage_sqm") true

def enabled : Bool := boolValue (c.get "enabled") false

def sqmEnabled : Bool := boolValue (c.get "sqm_enabled") c.enabled

/-- `sqm_direction_mode`. -/
def direction : String := (c.get "sqm_direction_mode").getD "both"

def active : Bool := c.enabled && c.sqmEnabled && c.direction != "off"

def sqmSection (name : String) : String :=
  ((c.get "sqm_section").filter fun value => !value.isEmpty).getD ("cake_" ++ name)

/-- `detect_conflicts`, the interface that an instance claims. -/
def claimed : Option String :=
  if c.sectionType ≠ "cake_autorate" ∨ c.enabled = false ∨ c.manages = false then none
  else if c.sqmEnabled = false ∨ c.direction = "off" then none
  else firstNonempty c ["sqm_interface", "ul_if", "wan_if"]

end UciSection

def fixedOptions : List (String × String × String) :=
  [("sqm_debug_logging", "debug_logging", "0"), ("sqm_verbosity", "verbosity", "5"),
    ("sqm_script", "script", "piece_of_cake.qos"),
    ("sqm_qdisc_advanced", "qdisc_advanced", "0"),
    ("sqm_squash_dscp", "squash_dscp", "1"),
    ("sqm_squash_ingress", "squash_ingress", "1"),
    ("sqm_ingress_ecn", "ingress_ecn", "ECN"),
    ("sqm_egress_ecn", "egress_ecn", "NOECN"),
    ("sqm_qdisc_really_really_advanced", "qdisc_really_really_advanced", "0"),
    ("sqm_linklayer", "linklayer", "none"),
    ("sqm_overhead", "overhead", "0"),
    ("sqm_linklayer_advanced", "linklayer_advanced", "0"),
    ("sqm_tcMTU", "tcMTU", "2047"),
    ("sqm_tcTSIZE", "tcTSIZE", "128"),
    ("sqm_tcMPU", "tcMPU", "0"),
    ("sqm_linklayer_adaptation_mechanism", "linklayer_adaptation_mechanism", "default")]

def optionalOptions : List (String × String) :=
  [("sqm_ilimit", "ilimit"), ("sqm_elimit", "elimit"), ("sqm_itarget", "itarget"),
    ("sqm_etarget", "etarget"), ("sqm_iqdisc_opts", "iqdisc_opts"),
    ("sqm_eqdisc_opts", "eqdisc_opts")]

def headOptions (name : String) (active : Bool) : List (String × Option String) :=
  [(ownerOption, some name), ("enabled", some (flag active))]

def rateOptions (c : UciSection) (download upload : String) : List (String × Option String) :=
  [("download", some (if c.direction = "upload_only" then "0" else download)),
    ("upload", some (if c.direction = "download_only" then "0" else upload))]
  ++ fixedOptions.map (fun entry => (entry.2.1, some ((c.get entry.1).getD entry.2.2)))
  ++ [("qdisc", some "cake")]

def mqOptions (c : UciSection) (queue : Option UciSection) (useMq : Bool) :
    List (String × Option String) :=
  if useMq || (c.get "sqm_use_mq").isSome || (queue.bind (·.get "use_mq")).isSome then
    [("use_mq", some (flag useMq))]
  else []

def extraOptions (c : UciSection) : List (String × Option String) :=
  optionalOptions.map fun entry => (entry.2, (c.get entry.1).filter fun value => !value.isEmpty)

def detectConflicts (cake : UciPackage) (r : Resolver) : Except String (Std.ExtTreeSet String) := do
  let claims := cake.sections.toList.filterMap fun entry => entry.2.claimed.map fun name =>
    (entry.1, name)
  let targets ← claims.mapM fun claim => do
    let target ← resolveCached r claim.2
    return (claim.1, target)
  return Std.ExtTreeSet.ofList ((targets.filter fun entry =>
    1 < (targets.filter fun other => other.2 = entry.2).length).map Prod.fst)

def scopedInstances (cake : UciPackage) : ProjectionScope → Except String (List String)
  | .all => .ok ((cake.sections.toList.filter fun entry =>
    entry.2.sectionType = "cake_autorate").map Prod.fst)
  | .instance_ name =>
    match cake.get name with
    | some c =>
      if c.sectionType = "cake_autorate" then .ok [name]
      else .error ("cake-autorate instance " ++ name ++ " does not exist")
    | none => .error ("cake-autorate instance " ++ name ++ " does not exist")

/-- `reject_unmanaged_conflicts`, one queue. -/
def rejectQueue (r : Resolver) (keep target : String) (entry : String × UciSection) :
    Except String Unit :=
  if entry.2.get "enabled" ≠ some "1" then .ok ()
  else
    match (entry.2.get "interface").filter fun value => !value.isEmpty with
    | none => .ok ()
    | some interface => do
      let resolved ← resolveCached r interface
      check (resolved != target)
        (if ((entry.2.get ownerOption).filter fun value => !value.isEmpty).isSome then
          "managed SQM sections " ++ keep ++ " and " ++ entry.1 ++ " target " ++ target
        else
          "unmanaged SQM section " ++ entry.1 ++ " already owns target " ++ target ++
            "; explicitly select/adopt that section or resolve the conflict first")

/-- `reject_unmanaged_conflicts`, the queues one after the other. -/
def rejectQueues (r : Resolver) (keep target : String) : List (String × UciSection) →
    Except String Unit
  | [] => .ok ()
  | entry :: rest => do
    rejectQueue r keep target entry
    rejectQueues r keep target rest

def rejectUnmanagedConflicts (sqm : UciPackage) (r : Resolver) (keep target : String) :
    Except String Unit :=
  rejectQueues r keep target
    (sqm.sections.toList.filter fun entry => entry.1 ≠ keep ∧ entry.2.sectionType = "queue")

def required (value : Option String) (message : String) : Except String String :=
  match value with
  | some value => .ok value
  | none => .error message

/-- `project_instance`, the interfaces that it adds to the plan. -/
def Planning.withTarget (s : Planning) (c : UciSection) (target : String) : Planning :=
  { s with plan := { s.plan with
    interfaces := s.plan.interfaces.insert target
    ingressInterfaces := if c.direction = "upload_only" then s.plan.ingressInterfaces
      else s.plan.ingressInterfaces.insert target } }

/-- `project_instance`, an active queue. -/
def projectActive (r : Resolver) (name : String) (c : UciSection) (queue target : String)
    (s : Planning) : Except String Planning := do
  let intent ← validate c.options ((s.sqm.get queue).bind (·.get "use_mq")) r.supportsCakeMq
  let s := s.withTarget c target
  rejectUnmanagedConflicts s.sqm r queue target
  let download ← required (firstNonempty c ["sqm_download", "base_dl_shaper_rate_kbps"])
    ("instance " ++ name ++ " has no download rate")
  let upload ← required (firstNonempty c ["sqm_upload", "base_ul_shaper_rate_kbps"])
    ("instance " ++ name ++ " has no upload rate")
  let s ← Planning.assignAll queue (rateOptions c download upload) s
  let s ← Planning.assignAll queue (mqOptions c (s.sqm.get queue) intent.useMq) s
  let s ← Planning.assignAll queue (extraOptions c) s
  return s.managed

/-- `project_instance`, a queue that is managed and not in conflict. -/
def projectQueue (r : Resolver) (name : String) (c : UciSection) (queue : String) (s : Planning) :
    Except String Planning := do
  check (!((s.sqm.get queue).bind (·.get ownerOption)).any fun owner =>
      !owner.isEmpty && owner != name)
    "requested SQM section belongs to another CAKE Autorate instance"
  let s ← s.cleanupStale name (some queue)
  let s ← s.ensureQueue queue
  let s ← Planning.assignAll queue (headOptions name c.active) s
  let configured ← required (firstNonempty c ["sqm_interface", "ul_if"])
    ("instance " ++ name ++ " has no SQM interface")
  let target ← resolveCached r configured
  let s ← Planning.assignAll queue [("interface", some target)] s
  if c.active then projectActive r name c queue target s else .ok s.managed

def projectInstance (cake : UciPackage) (r : Resolver) (name : String) (s : Planning) :
    Except String Planning :=
  match cake.get name with
  | none => .error ("cake-autorate instance " ++ name ++ " disappeared")
  | some c =>
    if !safeName (c.sqmSection name) then .error ("instance " ++ name ++ " has an unsafe SQM section")
    else if !c.manages then s.cleanupStale name none
    else if !knownDirection c.direction then
      .error ("instance " ++ name ++ " has invalid SQM direction mode " ++ c.direction)
    else if s.plan.conflicts.contains name then s.cleanupStale name none
    else projectQueue r name c (c.sqmSection name) s

/-- `plan_projection_inner`, the instances one after the other. -/
def projectAll (cake : UciPackage) (r : Resolver) : List String → Planning → Except String Planning
  | [], s => .ok s
  | name :: rest, s => do
    let s ← projectInstance cake r name s
    projectAll cake r rest s

section

variable (cake sqm : UciPackage) (r : Resolver) (scope : ProjectionScope)

def planProjectionInner : Except String Planning := do
  let conflicts ← detectConflicts cake r
  let instances ← scopedInstances cake scope
  projectAll cake r instances ⟨sqm, { conflicts := conflicts }⟩

/-- `plan_projection`: the result, and the package that the caller is left with. -/
def planProjection : Except String SqmProjectionPlan × UciPackage :=
  match planProjectionInner cake sqm r scope with
  | .error message => (.error message, sqm)
  | .ok s => (.ok s.plan, s.sqm)

end

def UciPackage.perform (p : UciPackage) : SqmAction → UciPackage
  | .addSection section_ => p.put section_ ⟨"queue", ∅⟩
  | .deleteSection section_ => p.remove section_
  | .set section_ option value =>
    match p.get section_ with
    | some target => p.put section_ (target.put option value)
    | none => p
  | .delete section_ option =>
    match p.get section_ with
    | some target => p.put section_ (target.remove option)
    | none => p

def UciPackage.replay (p : UciPackage) (actions : List SqmAction) : UciPackage :=
  actions.foldl UciPackage.perform p

end CakeAutorate.Sqm
