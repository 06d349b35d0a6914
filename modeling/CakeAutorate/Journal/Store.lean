/-
# The journal store

`JournalStore` of `operations/journal.rs`: a directory with one entry for each job, and
in it the request, the anchor of the deadline (`operations/deadline.rs`) and the state.
`create` is a program of system calls on that directory; `open` and `scan` are what the
next coordinator does with what it finds.  The deadlines that the store keeps in memory
are left out, and the directory itself is there, since a store is made by opening it.
-/

import CakeAutorate.Journal.Codec
import CakeAutorate.Protocol.RoundTrip
import CakeAutorate.Routing.Attestation
import CakeAutorate.Syscall.Schedule

namespace CakeAutorate

namespace Protocol

open Wire Routing
open Autotune (validateCapacityLearningServiceCaps)

def explicitOperationAuthority (net : AddressText) (route : OperationRouteIdentity) :
    Except String ExplicitRouteAuthority := do
  route.validate net
  check (route.mode == .explicit) "explicit route authority requires explicit mode"
  let source ← orError route.sourceIp "explicit route source missing"
  let table ← orError route.routingTable "explicit route table missing"
  let mark ← orError route.fwmark "explicit route mark missing"
  let mask ← orError route.fwmarkMask "explicit route mask missing"
  let authority ← ExplicitRouteAuthority.fromFields (lit "explicit") (net.display source)
    (display table.toNat) (display mark.toNat) (display mask.toNat)
  orError authority "explicit route authority missing"

namespace OperationRequest

variable (net : AddressText) (r : OperationRequest)

/-- `validate_admission_policy`, a route that is bound to a link. -/
def validateLink : Except String Unit :=
  if r.route.deviceIfindex.isSome then do
    check (r.route.mode == .explicit) "link-qualified route execution is not available in this build"
    let _ ← explicitOperationAuthority net r.route
    check (!r.route.dnsServer.isNone)
      "explicit route operation requires an explicit IPv4 DNS server"
  else .ok ()

/-- `validate_admission_policy`, what an absent target may run. -/
def validateBootstrapOperation : Except String Unit :=
  match r.identity.operation with
  | .fullAutotune => do
    check (!(r.strategy != some .fullRaw || !r.allowSqmDisable))
      "absent bootstrap Full Auto-Tune requires Full Raw controls and directional SQM bypass authority"
    check (!(r.serviceDlCapKbps.isNone || r.serviceUlCapKbps.isNone))
      "absent bootstrap Full Auto-Tune requires explicit download and upload service caps as search authority"
  | .speedtest =>
    check (!(r.speedtestTopology != some .unshaped || r.allowSqmDisable || r.allowActiveTraffic))
      "absent bootstrap Speedtest requires a read-only unshaped policy"
  | _ => .error "absent bootstrap operation kind is unsupported for admission"

/-- `validate_admission_policy`, an absent target. -/
def validateBootstrap : Except String Unit := do
  check (r.backend == lit "speedtest-go")
    "absent bootstrap operation requires the native speedtest-go backend"
  check (match r.route.sourceIp with
      | some (.v4 _) => true
      | _ => false)
    "absent bootstrap operation requires an explicit IPv4 route source"
  r.validateBootstrapOperation

/-- `OperationRequest::validate_admission_policy`, in the builds that have a journal. -/
def validateAdmissionPolicy : Except String Unit := do
  r.validateLink net
  r.validate net
  validateCapacityLearningServiceCaps r.capacityLearningPolicy r.serviceDlCapKbps r.serviceUlCapKbps
  if r.targetState != .absentBootstrap then .ok () else r.validateBootstrap

end OperationRequest

end Protocol

namespace Journal

open Wire Protocol Syscall

/-- A file in the directory of a job. -/
inductive FileNode where
  | regular (uid mode : ℕ) (bytes : Bytes)
  | other

/-- The directory of a job. -/
structure JobDir where
  uid : ℕ
  mode : ℕ
  files : Text → Option FileNode

/-- An entry of the jobs directory: a directory, or anything else. -/
inductive Node where
  | directory (dir : JobDir)
  | other

/-- A name in a directory; one that is not UTF-8 has only a lossy text. -/
inductive EntryName where
  | utf8 (name : Text)
  | notUtf8 (lossy : Text)
  deriving DecidableEq

/-- `OsStr::to_string_lossy`. -/
def EntryName.toStringLossy : EntryName → Text
  | .utf8 name => name
  | .notUtf8 lossy => lossy

/-- The entries of the jobs directory, in the order in which `read_dir` lists them. -/
abbrev Entries := List (EntryName × Node)

def Entries.modifyDir (entries : Entries) (name : Text) (f : JobDir → JobDir) : Entries :=
  entries.map fun entry =>
    match entry with
    | (entryName, .directory dir) =>
      if entryName = .utf8 name then (entryName, .directory (f dir)) else entry
    | _ => entry

def Entries.findDir (entries : Entries) (name : Text) : Option JobDir :=
  entries.findSome? fun entry =>
    match entry with
    | (entryName, .directory dir) => if entryName = .utf8 name then some dir else none
    | _ => none

/-- Who runs the coordinator, the permissions that its new files lack, and where the jobs
are. -/
structure Owner where
  uid : ℕ
  umask : ℕ
  jobsDir : String

/-- A call on files in one directory. -/
inductive DirCall where
  | setPermissions (mode : ℕ)
  | createNew (file : Text)
  | setFilePermissions (file : Text) (mode : ℕ)
  | writeAll (file : Text) (bytes : Bytes)
  | syncFile (file : Text)
  | rename (source target : Text)
  | openDirectory
  | syncDirectory
  | removeFile (file : Text)

/-- A call on the jobs directory. -/
inductive FsCall where
  | createDir (name : Text)
  | inDir (name : Text) (call : DirCall)

abbrev IoResult (_ : FsCall) := Except String Unit

def JobDir.setFile (dir : JobDir) (name : Text) (file : Option FileNode) : JobDir :=
  { dir with files := fun n => if n = name then file else dir.files n }

def JobDir.modifyFile (dir : JobDir) (name : Text) (f : FileNode → FileNode) : JobDir :=
  dir.setFile name ((dir.files name).map f)

def FileNode.withMode (mode : ℕ) : FileNode → FileNode
  | .regular uid _ bytes => .regular uid mode bytes
  | .other => .other

def FileNode.append (more : Bytes) : FileNode → FileNode
  | .regular uid mode bytes => .regular uid mode (bytes ++ more)
  | .other => .other

/-- A permission mask, as `mode & !umask`. -/
def masked (mode umask : ℕ) : ℕ := mode - (mode &&& umask)

def DirCall.exec (owner : Owner) (dir : JobDir) : DirCall → Except String Unit × JobDir
  | .setPermissions mode => (.ok (), { dir with mode })
  | .createNew file =>
    if (dir.files file).isSome then (.error "File exists", dir)
    else (.ok (), dir.setFile file (some (.regular owner.uid (masked 0o666 owner.umask) [])))
  | .setFilePermissions file mode => (.ok (), dir.modifyFile file (.withMode mode))
  | .writeAll file bytes => (.ok (), dir.modifyFile file (.append bytes))
  | .syncFile _ => (.ok (), dir)
  | .rename source target =>
    match dir.files source with
    | none => (.error "No such file or directory", dir)
    | some file => (.ok (), (dir.setFile target (some file)).setFile source none)
  | .openDirectory => (.ok (), dir)
  | .syncDirectory => (.ok (), dir)
  | .removeFile file =>
    if (dir.files file).isNone then (.error "No such file or directory", dir)
    else (.ok (), dir.setFile file none)

/-- How a call fails: what it says, and for a write how much of it was written. -/
structure Failure where
  error : String
  written : ℕ

def DirCall.failing (how : Failure) (dir : JobDir) : DirCall → JobDir
  | .writeAll file bytes => dir.modifyFile file (.append (bytes.take how.written))
  | _ => dir

def FsCall.exec (owner : Owner) (entries : Entries) : FsCall → Except String Unit × Entries
  | .createDir name =>
    if entries.any fun entry => entry.1 == .utf8 name then (.error "File exists", entries)
    else (.ok (), entries ++ [(.utf8 name,
      .directory { uid := owner.uid, mode := masked 0o777 owner.umask, files := fun _ => none })])
  | .inDir name call =>
    match entries.findDir name with
    | none => (.error "No such file or directory", entries)
    | some dir => ((call.exec owner dir).1, entries.modifyDir name fun dir => (call.exec owner dir).2)

def FsCall.failing (how : Failure) (entries : Entries) : FsCall → Except String Unit × Entries
  | .createDir _ => (.error how.error, entries)
  | .inDir name call => (.error how.error, entries.modifyDir name fun dir => call.failing how dir)

def system (owner : Owner) : Host Entries FsCall IoResult Failure where
  exec call entries := call.exec owner entries
  failing call how entries := call.failing how entries

abbrev Io := Program FsCall IoResult String

namespace Io

/-- `call.map_err(|error| format!("..: {error}"))?`. -/
def call (c : FsCall) (message : String) : Io Unit :=
  Program.call c fun reply => Program.ret (reply.mapError fun error => message ++ ": " ++ error)

/-- `let _ = call`. -/
def ignore (c : FsCall) : Io Unit := Program.call c fun _ => Program.ret (.ok ())

def syncDirectory (dir : Text) (message : String) : Io Unit := do
  call (.inDir dir .openDirectory) message
  call (.inDir dir .syncDirectory) message

/-- If `body` fails, remove the temporary file and fail as it did. -/
def orRemove (dir temp : Text) (body : Io Unit) : Io Unit := do
  match ← body.attempt with
  | .ok () => pure ()
  | .error error =>
    ignore (.inDir dir (.removeFile temp))
    throw error

end Io

def requestFile : Text := lit "request"

def stateFile : Text := lit "state"

def deadlineFile : Text := lit "deadline"

def publishFile (dir temp name contents : Text) (messages : String → String) : Io Unit := do
  Io.call (.inDir dir (.createNew temp)) (messages "create")
  Io.call (.inDir dir (.setFilePermissions temp 0o600)) (messages "secure")
  Io.call (.inDir dir (.writeAll temp (utf8 contents))) (messages "write")
  Io.call (.inDir dir (.syncFile temp)) (messages "sync")
  Io.call (.inDir dir (.rename temp name)) (messages "publish")
  Io.syncDirectory dir (messages "directory")

/-- The texts of `atomic_write`. -/
def journalMessages (step : String) : String :=
  if step = "publish" then "unable to publish journal file"
  else if step = "directory" then "unable to sync journal directory"
  else "unable to " ++ step ++ " journal temporary file"

/-- The temporary name of `atomic_write`. -/
def tempName (name generation : Text) (sequence : ℕ) : Text :=
  '.' :: name ++ '.' :: generation ++ '.' :: display sequence ++ lit ".tmp"

def atomicWrite (dir name contents generation : Text) (sequence : ℕ) : Io Unit := do
  Program.lift (check (byteLength contents ≤ maxOperationRecordBytes)
    "journal payload exceeds its size bound")
  let temp := tempName name generation sequence
  Io.orRemove dir temp (publishFile dir temp name contents journalMessages)

structure DeadlineAnchor where
  bootId : Text
  deadlineBootMs : UInt64

namespace DeadlineAnchor

def after (bootId : Text) (nowBootMs durationMs : UInt64) : Except String DeadlineAnchor := do
  check (nowBootMs.toNat + durationMs.toNat < 2 ^ 64) "operation deadline overflows the boot clock"
  return { bootId, deadlineBootMs := nowBootMs + durationMs }

/-- `DeadlineAnchor::admit`. -/
def admitRequest (request : OperationRequest) (bootId : Text) (nowBootMs : UInt64) :
    Except String DeadlineAnchor := do
  check (request.createdUnixMs ≤ request.deadlineUnixMs) "operation deadline precedes its creation"
  after bootId nowBootMs (request.deadlineUnixMs - request.createdUnixMs)

def encode (anchor : DeadlineAnchor) : Text :=
  lit "cake-autorate-operation-deadline\t1\nboot_id=" ++ anchor.bootId ++ lit "\ndeadline_boot_ms="
    ++ display anchor.deadlineBootMs.toNat ++ ['\n']

end DeadlineAnchor

/-- The temporary name of `write_anchor`. -/
def deadlineTemp : Text := '.' :: deadlineFile ++ lit ".tmp"

/-- The texts of `write_anchor`. -/
def deadlineMessages (step : String) : String :=
  if step = "directory" then "unable to sync the job directory"
  else "unable to " ++ step ++ " the operation deadline"

/-- `deadline::write_anchor`. -/
def writeAnchor (dir : Text) (anchor : DeadlineAnchor) : Io Unit := do
  Io.ignore (.inDir dir (.removeFile deadlineTemp))
  Io.orRemove dir deadlineTemp
    (publishFile dir deadlineTemp deadlineFile anchor.encode deadlineMessages)

section Create

variable (net : AddressText) (coordinator : CoordinatorIdentity) (bootClock : Except String UInt64)
  (request : OperationRequest) (journal : JobJournal)

def sameJob : Bool :=
  request.identity.jobId == journal.jobId && request.identity.instance_ == journal.instance_
    && request.identity.targetInterface == journal.targetInterface
    && request.identity.sqmFingerprint == journal.sqmFingerprint

/-- `JournalStore::create`, what it checks before it touches the disk. -/
def admitted : Except String DeadlineAnchor := do
  request.validate net
  request.validateAdmissionPolicy net
  journal.validate
  check (sameJob request journal) "journal identity does not match its operation request"
  check (!(journal.bootId != coordinator.bootId
      || journal.coordinatorGeneration != coordinator.generation))
    "journal coordinator identity is stale"
  DeadlineAnchor.admitRequest request coordinator.bootId (← bootClock)

/-- `JournalStore::create`, the state file. -/
def writeState : Io Unit := do
  let stateText ← Program.lift journal.encode
  atomicWrite journal.jobId stateFile stateText coordinator.generation journal.sequence.toNat

/-- `JournalStore::create`, the three files. -/
def initializeFiles (anchor : DeadlineAnchor) (requestText : Text) : Io Unit := do
  atomicWrite journal.jobId requestFile requestText coordinator.generation 0
  writeAnchor journal.jobId anchor
  writeState coordinator journal

def create : Io Unit := do
  let anchor ← Program.lift (admitted net coordinator bootClock request journal)
  Io.call (.createDir journal.jobId) "unable to create job journal directory"
  Io.call (.inDir journal.jobId (.setPermissions 0o700)) "unable to secure job journal directory"
  let requestText ← Program.lift (request.encode net)
  match ← (initializeFiles coordinator journal anchor requestText).attempt with
  | .ok () => pure ()
  | .error error => throw ("unable to initialize job journal: " ++ error)

end Create

def secureExistingJobDir (owner : Owner) : Node → Except String JobDir
  | .directory dir =>
    if dir.uid != owner.uid || dir.mode &&& 0o077 != 0 then
      .error "job journal directory is unsafe or foreign-owned"
    else .ok dir
  | .other => .error "job journal directory is unsafe or foreign-owned"

/-- `read_bounded`, of a file in the directory of a job. -/
def readBounded (owner : Owner) (job : Text) (dir : JobDir) (file : Text) : Except String Text :=
  let path := owner.jobsDir ++ "/" ++ String.ofList job ++ "/" ++ String.ofList file
  match dir.files file with
  | none => .error ("unable to inspect " ++ path ++ ": No such file or directory")
  | some .other => .error (path ++ " is unsafe or foreign-owned")
  | some (.regular uid _ bytes) => do
    check (uid == owner.uid) (path ++ " is unsafe or foreign-owned")
    check (bytes.length ≤ maxOperationRecordBytes) (path ++ " exceeds its size bound")
    orError (fromUtf8 bytes) (path ++ " is not UTF-8")

/-- `require_lower_hex`, for the name of a job directory. -/
def jobName (name : Text) : Bool := lowerHex 32 name

def retiredJobPrefix : Text := lit ".retired-"

def retiredName (name : Text) : Bool := (stripPrefix retiredJobPrefix name).any jobName

def finishInterruptedRetirements (owner : Owner) : Entries → Except String Entries
  | [] => .ok []
  | (.notUtf8 _, _) :: _ => .error "journal retirement entry name is not UTF-8"
  | (.utf8 name, node) :: rest =>
    if retiredName name then do
      let _ ← secureExistingJobDir owner node
      finishInterruptedRetirements owner rest
    else do
      let rest ← finishInterruptedRetirements owner rest
      return (.utf8 name, node) :: rest

/-- The clocks that `open` reads: the wall clock and the boot clock. -/
structure Clocks where
  epochMs : Except String UInt64
  bootMs : Except String UInt64

section Open

variable (net : AddressText) (owner : Owner) (clocks : Clocks) (coordinator : CoordinatorIdentity)

def readRecords (job : Text) (dir : JobDir) : Except String (JobJournal × OperationRequest) := do
  let journal ← JobJournal.decode (← readBounded owner job dir stateFile)
  let request ← OperationRequest.decode net (← readBounded owner job dir requestFile)
  return (journal, request)

def lateAnchor (request : OperationRequest) : Except String DeadlineAnchor := do
  let now ← clocks.epochMs
  let remaining := if request.deadlineUnixMs ≤ now then 0 else request.deadlineUnixMs - now
  DeadlineAnchor.after coordinator.bootId (← clocks.bootMs) remaining

/-- `anchor_jobs_without_deadline`, one directory. -/
def anchorDir (job : Text) (dir : JobDir) : Except String JobDir :=
  match readRecords net owner job dir with
  | .error _ => .ok dir
  | .ok (journal, request) =>
    if journal.bootId ≠ coordinator.bootId then .ok dir
    else do
      let anchor ← lateAnchor clocks coordinator request
      return dir.setFile deadlineFile (some (.regular owner.uid 0o600 (utf8 anchor.encode)))

/-- `anchor_jobs_without_deadline`, one entry. -/
def anchorEntry (entry : EntryName × Node) : Except String (EntryName × Node) :=
  if jobName entry.1.toStringLossy then
    match secureExistingJobDir owner entry.2 with
    | .error _ => .ok entry
    | .ok dir =>
      if (dir.files deadlineFile).isSome then .ok entry
      else do
        let dir ← anchorDir net owner clocks coordinator entry.1.toStringLossy dir
        return (entry.1, .directory dir)
  else .ok entry

def anchorJobsWithoutDeadline : Entries → Except String Entries
  | [] => .ok []
  | entry :: rest => do
    let entry ← anchorEntry net owner clocks coordinator entry
    let rest ← anchorJobsWithoutDeadline rest
    return entry :: rest

/-- `JournalStore::open`: what it leaves in the directory. -/
def openStore (entries : Entries) : Except String Entries := do
  anchorJobsWithoutDeadline net owner clocks coordinator (← finishInterruptedRetirements owner entries)

end Open

inductive JournalDisposition where
  | queued
  | launching
  | liveProcess
  | deadBeforeMutation
  | settled
  | recoveryRequired
  | staleBoot

/-- A job that was found, and what is to be done. -/
structure ScannedJob where
  request : OperationRequest
  journal : JobJournal
  disposition : JournalDisposition

/-- The jobs found, and what is unsafe. -/
structure JournalScan where
  jobs : List ScannedJob
  unsafeEntries : List Text

section Scan

variable (net : AddressText) (owner : Owner) (coordinator : CoordinatorIdentity)
  (stillMatches : ProcessIdentity → Except String Bool)

/-- `scan_one`, the disposition of a job; `still_matches` reads the process table. -/
def dispositionOf (journal : JobJournal) : JournalDisposition :=
  if journal.bootId ≠ coordinator.bootId then .staleBoot
  else if journal.state.terminal && !journal.runtimeMutated then .settled
  else if journal.state.terminal then .recoveryRequired
  else
    match journal.process with
    | some process =>
      match stillMatches process with
      | .ok true => .liveProcess
      | .ok false => if journal.runtimeMutated then .recoveryRequired else .deadBeforeMutation
      | .error _ => .recoveryRequired
    | none =>
      if journal.runtimeMutated || journal.recoveryRequired then .recoveryRequired
      else if journal.state = .starting then .deadBeforeMutation
      else .queued

def scanOne (dir : JobDir) (directoryJobId : Text) : Except String ScannedJob := do
  let (journal, request) ← readRecords net owner directoryJobId dir
  if journal.state.terminal && !journal.runtimeMutated && !journal.recoveryRequired then .ok ()
  else request.validateAdmissionPolicy net
  check (!(request.identity.jobId != directoryJobId || journal.jobId != directoryJobId))
    "journal directory and record identity differ"
  check (!(request.identity.instance_ != journal.instance_
      || request.identity.targetInterface != journal.targetInterface
      || request.identity.sqmFingerprint != journal.sqmFingerprint))
    "journal request and state identity differ"
  return { request, journal, disposition := dispositionOf coordinator stillMatches journal }

/-- `JournalStore::scan`, one entry: a job, or what makes it unsafe. -/
def scanEntry (entry : EntryName × Node) : ScannedJob ⊕ Text :=
  let name := entry.1.toStringLossy
  if jobName name then
    match secureExistingJobDir owner entry.2 with
    | .error error => .inr (name ++ lit ": " ++ lit error)
    | .ok dir =>
      match scanOne net owner coordinator stillMatches dir name with
      | .ok job => .inl job
      | .error error => .inr (name ++ lit ": " ++ lit error)
  else .inr (lit "unsafe journal directory name: " ++ name)

def maxJournalDirectoryEntries : ℕ := 256

/-- The order of `scan.jobs`: by sequence, then by job. -/
def jobOrder (a b : ScannedJob) : Bool :=
  decide (a.journal.sequence < b.journal.sequence)
    || a.journal.sequence == b.journal.sequence
      && !(utf8 b.journal.jobId).lex (utf8 a.journal.jobId) (· < ·)

def scan (entries : Entries) : Except String JournalScan := do
  check (entries.length ≤ maxJournalDirectoryEntries)
    "journal directory entry count exceeds its hard safety bound"
  let found := entries.map (scanEntry net owner coordinator stillMatches)
  return {
    jobs := (found.filterMap Sum.getLeft?).insertionSort fun a b => jobOrder a b = true
    unsafeEntries := found.filterMap Sum.getRight? }

/-- What a coordinator that starts finds: `open`, then `scan`. -/
def reports (clocks : Clocks) (entries : Entries) : Except String JournalScan := do
  scan net owner coordinator stillMatches (← openStore net owner clocks coordinator entries)

end Scan

end Journal
end CakeAutorate
