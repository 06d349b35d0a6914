/-
# What a service stop takes down

`plan_stop` and `stop_plan_from_views` of `operations/service_lifecycle.rs`.  A stop takes down every
queue of the `sqm` package that is marked as managed, enabled or not; for the instances that run it
goes by the inputs that were stored for their controllers, not by what is committed since.  The
stored inputs are the packages that they hold; their text and the attestation of their records are
left out.
-/

import CakeAutorate.Service.Start

namespace CakeAutorate.Service

open Sqm Controller

structure ManagedSqmStopSpec where
  instance_ : String
  sqmSection : String
  targetInterface : String
  downloadInterface : String
  ratePolicy : Option ManagedSqmRatePolicy

structure ServiceStopPlan where
  cake : UciPackage
  sqm : UciPackage
  managed : List ManagedSqmStopSpec

def ownerOf (queue : UciSection) : Option String := nonempty queue ownerOption

/-- `plan_stop`, the rate policy of the controller of a queue. -/
def controllerPolicy (owner : String) : Option UciSection → Except String (Option ManagedSqmRatePolicy)
  | none => .ok none
  | some c =>
    match managedSqmRatePolicyFromOptions c.options with
    | .ok policy => .ok (some policy)
    | .error message =>
      .error ("managed SQM owner " ++ owner ++ " has an invalid rate policy: " ++ message)

/-- `plan_stop`, the interface that carries the download. -/
def stopDownload (controller : Option UciSection) (target : String) : String :=
  (controller.bind (nonempty · "dl_if")).getD ("ifb4" ++ target)

/-- `plan_stop`, a queue that is marked. -/
def stopQueue (cake : UciPackage) (r : Resolver) (managed : List ManagedSqmStopSpec)
    (section_ owner : String) (queue : UciSection) : Except String (List ManagedSqmStopSpec) := do
  check (safeName owner && safeName section_) "managed SQM stop ownership is unsafe"
  let targetName ← required (nonempty queue "interface")
    ("managed SQM section " ++ section_ ++ " has no target")
  let target ← r.resolve targetName
  check (safeInterface target) ("managed SQM section " ++ section_ ++ " resolved to an unsafe target")
  match managed.find? fun spec => spec.targetInterface = target with
  | some previous =>
    .error ("managed SQM sections " ++ previous.sqmSection ++ " and " ++ section_ ++
      " share stop target " ++ target)
  | none =>
    check ((cake.get owner).all fun c => c.sectionType == "cake_autorate")
      ("managed SQM owner " ++ owner ++ " is not a cake_autorate section")
    let policy ← controllerPolicy owner (cake.get owner)
    check (safeInterface (stopDownload (cake.get owner) target))
      ("managed SQM section " ++ section_ ++ " has an unsafe download interface")
    check (decide (managed.length < maxInstances))
      "service lifecycle exceeds its managed-SQM stop bound"
    return managed ++ [⟨owner, section_, target, stopDownload (cake.get owner) target, policy⟩]

/-- `plan_stop`, the sections one after the other. -/
def stopAll (cake : UciPackage) (r : Resolver) : List (String × UciSection) →
    List ManagedSqmStopSpec → Except String (List ManagedSqmStopSpec)
  | [], managed => .ok managed
  | (section_, queue) :: rest, managed =>
    if queue.sectionType ≠ "queue" then stopAll cake r rest managed
    else
      match ownerOf queue with
      | none => stopAll cake r rest managed
      | some owner => do
        let managed ← stopQueue cake r managed section_ owner queue
        stopAll cake r rest managed

def planStop (cake sqm : UciPackage) (r : Resolver) : Except String ServiceStopPlan := do
  let managed ← stopAll cake r sqm.sections.toList []
  return ⟨cake, sqm, managed⟩

/-- `Loaded`: the packages of a stored input. -/
structure Loaded where
  cake : UciPackage
  sqm : UciPackage

/-- What the stored inputs say together. -/
structure Views where
  cake : UciPackage
  oldSqm : UciPackage
  physical : Std.ExtTreeSet String

/-- `stop_plan_from_views`, a queue of a stored input. -/
def Views.addQueue (v : Views) (entry : String × UciSection) : Except String Views := do
  check (v.oldSqm.get entry.1).isNone "applied-stop-queue-ownership-conflict"
  return { v with
    oldSqm := v.oldSqm.put entry.1 entry.2
    physical := match entry.2.get "interface" with
      | some interface => v.physical.insert interface
      | none => v.physical }

/-- `stop_plan_from_views`, the queues of a stored input one after the other. -/
def Views.addQueues : List (String × UciSection) → Views → Except String Views
  | [], v => .ok v
  | entry :: rest, v => do
    let v ← v.addQueue entry
    Views.addQueues rest v

/-- `stop_plan_from_views`, the stored inputs one after the other. -/
def Views.addInputs : List (String × Loaded) → Views → Except String Views
  | [], v => .ok v
  | (name, input) :: rest, v => do
    match input.cake.get name with
    | none => .error "applied-stop-input-invalid"
    | some c =>
      let v ← Views.addQueues input.sqm.sections.toList { v with cake := v.cake.put name c }
      Views.addInputs rest v

/-- `stop_plan_from_views`, a committed section: whether what is stored takes its place. -/
def replaced (v : Views) (applied : List String) (entry : String × UciSection) : Except String Bool :=
  match entry.2.get ownerOption with
  | none => .ok false
  | some owner =>
    if applied.contains owner then .ok true
    else if ((v.oldSqm.get entry.1).isSome || (entry.2.get "interface").any v.physical.contains)
        && !owner.isEmpty then
      .error "applied-stop-queue-ownership-conflict"
    else .ok false

/-- `stop_plan_from_views`, the committed sections that go. -/
def removedNames (v : Views) (applied : List String) : List (String × UciSection) →
    Except String (List String)
  | [] => .ok []
  | entry :: rest => do
    let gone ← replaced v applied entry
    let names ← removedNames v applied rest
    return if gone then entry.1 :: names else names

/-- `Pinned`: an interface of a stored queue is a device already. -/
def pinned (r : Resolver) (physical : Std.ExtTreeSet String) : Resolver :=
  { r with resolve := fun name => if physical.contains name then .ok name else r.resolve name }

def stopPlanFromViews (cake sqm : UciPackage) (applied : List (String × Loaded)) (r : Resolver) :
    Except String ServiceStopPlan := do
  let v ← Views.addInputs applied ⟨cake, ⟨∅⟩, ∅⟩
  let names ← removedNames v (applied.map Prod.fst) sqm.sections.toList
  let kept := names.foldl UciPackage.remove sqm
  let merged := v.oldSqm.sections.toList.foldl (fun p entry => p.put entry.1 entry.2) kept
  planStop v.cake merged (pinned r v.physical)

/-- `prepared_sqm_show`, as the package that it holds. -/
def ownedQueues (sqm : UciPackage) (name : String) : UciPackage :=
  ⟨Std.ExtTreeMap.ofList (sqm.sections.toList.filter fun entry =>
    entry.2.get ownerOption = some name)⟩

/-- `store_with_reserve`, as the packages that an input holds. -/
def storedInput (cake sqm : UciPackage) (name : String) : Loaded :=
  ⟨⟨match cake.get name with
    | some c => Std.ExtTreeMap.ofList [(name, c)]
    | none => ∅⟩, ownedQueues sqm name⟩

def StartCandidate.inputs (k : StartCandidate) : List (String × Loaded) :=
  k.plan.instances.map fun name => (name, storedInput k.cake k.sqm name)

end CakeAutorate.Service
