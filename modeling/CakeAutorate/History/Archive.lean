/-
# The history archive

`HistoryDecision::archive` of `operations/autotune_history.rs` and the private-file functions of
`operations/autotune_apply_runtime.rs` that it uses, as a program of system calls on the archive
directory of one route.  The first decision of a route is written to its own file; a later one is
written to `.history-next`, which is renamed over the file.

Everything in the directory belongs to the program, has one link and is written by nobody else, so the
checks of owner, type and link count have nothing to refuse.  A crash inside a write leaves any first
part of what was to be written; every other call happens or does not.
-/

import CakeAutorate.History.Text
import CakeAutorate.Syscall.Program

namespace CakeAutorate.History

open Syscall

/-- The names of the directory: the file of the route and `.history-next`. -/
inductive Name where
  | route
  | next
  deriving DecidableEq

/-- A file: its mode and its bytes. -/
structure File where
  mode : ℕ
  bytes : Bytes

/-- The archive directory, with its mode when it exists. -/
structure Disk where
  directory : Option ℕ
  files : Name → Option File

def privateDirectory : ℕ := 0o700

def privateFile : ℕ := 0o600

def maxRoutes : ℕ := 64

/-- The system calls. -/
inductive Call where
  | statDirectory
  | createDirectory
  | secureDirectory
  | syncParent
  | syncDirectory
  | stat (name : Name)
  | read (name : Name)
  | list
  | createNew (name : Name)
  | write (name : Name) (bytes : Bytes)
  | sync (name : Name)
  | remove (name : Name)
  | publishNext

abbrev Reply : Call → Type
  | .statDirectory => Option ℕ
  | .stat _ => Option (ℕ × ℕ)
  | .read _ => Bytes
  | .list => ℕ
  | .createNew _ => Bool
  | _ => Unit

def Disk.put (s : Disk) (name : Name) (file : Option File) : Disk :=
  { s with files := Function.update s.files name file }

def Disk.append (s : Disk) (name : Name) (bytes : Bytes) : Disk :=
  s.put name ((s.files name).map fun f => { f with bytes := f.bytes ++ bytes })

def exec : (c : Call) → Disk → Reply c × Disk
  | .statDirectory, s => (s.directory, s)
  | .createDirectory, s => ((), { s with directory := some 0o755 })
  | .secureDirectory, s => ((), { s with directory := some privateDirectory })
  | .syncParent, s => ((), s)
  | .syncDirectory, s => ((), s)
  | .stat name, s => ((s.files name).map fun f => (f.mode, f.bytes.length), s)
  | .read name, s => (((s.files name).map File.bytes).getD [], s)
  | .list, s => (([Name.route, Name.next].filter fun n => (s.files n).isSome).length, s)
  | .createNew name, s =>
    match s.files name with
    | none => (true, s.put name (some ⟨privateFile, []⟩))
    | some _ => (false, s)
  | .write name bytes, s => ((), s.append name bytes)
  | .sync _, s => ((), s)
  | .remove name, s => ((), s.put name none)
  | .publishNext, s => ((), (s.put .route (s.files .next)).put .next none)

def torn : Call → Disk → Disk → Prop
  | .write name bytes, s, s' => ∃ start, start <+: bytes ∧ s' = s.append name start
  | _, _, _ => False

abbrev Prog := Program Call Reply String

abbrev machine : System Disk Call Reply := .alone exec torn

abbrev call (c : Call) : Prog (Reply c) := .perform c

def require (ok : Bool) (message : String) : Prog Unit := .lift (check ok message)

def requirePrivateDirectory : Prog Unit := do
  let mode ← call .statDirectory
  match mode with
  | none => throw "unable to inspect recovery directory"
  | some mode =>
    require (mode == privateDirectory) "native Apply recovery path is not a private directory"

def ensurePrivateDirectory : Prog Unit := do
  let mode ← call .statDirectory
  match mode with
  | none => do
    call .createDirectory
    call .secureDirectory
    call .syncParent
    requirePrivateDirectory
  | some mode =>
    if mode = privateDirectory then requirePrivateDirectory
    else do
      call .secureDirectory
      requirePrivateDirectory

def writeNewPrivateFile (name : Name) (bytes : Bytes) : Prog Unit := do
  let created ← call (.createNew name)
  require created "unable to create private native Apply file"
  call (.write name bytes)
  call (.sync name)
  let metadata ← call (.stat name)
  match metadata with
  | none => throw "unable to inspect native Apply private recovery file"
  | some (mode, _) =>
    require (mode == privateFile) "native Apply recovery file is not private and single-linked"

/-- `replace_private_file`, with `.history-next` as the temporary. -/
def replacePrivateFile (bytes : Bytes) : Prog Unit := do
  let stale ← call (.stat .next)
  if stale.isSome then do
    call (.remove .next)
    writeNewPrivateFile .next bytes
    call .publishNext
  else do
    writeNewPrivateFile .next bytes
    call .publishNext

def readPrivateRecoveryBounded (maximum : ℕ) : Prog Bytes := do
  let metadata ← call (.stat .route)
  match metadata with
  | none => throw "unable to inspect native Apply history decision"
  | some (mode, length) => do
    require (mode == privateFile)
      "native Apply recovery history decision is not private and single-linked"
    require (decide (length ≤ maximum)) "native Apply history decision file is unsafe or oversized"
    let bytes ← call (.read .route)
    require (decide (bytes.length ≤ maximum))
      "native Apply history decision exceeded its size bound"
    pure bytes

variable (serde : Serde)

/-- `HistoryDecision::read`. -/
def readDecision : Prog HistoryDecision := do
  requirePrivateDirectory
  let bytes ← readPrivateRecoveryBounded maxBytes
  match Wire.fromUtf8 bytes with
  | none => throw "history decision is not UTF-8"
  | some _ => .lift (HistoryDecision.decode serde bytes)

def HistoryDecision.publish (d : HistoryDecision) : Prog Unit := do
  let encoded ← .lift (d.encode serde)
  requirePrivateDirectory
  let metadata ← call (.stat .route)
  match metadata with
  | some _ => do
    let stored ← readDecision serde
    require (stored == d) "history decision is immutable"
    call .syncDirectory
  | none => do
    writeNewPrivateFile .route encoded
    call .syncDirectory

/-- What `HistoryDecision::archive` does about a stored decision. -/
def HistoryDecision.succeedStored (d previous : HistoryDecision) : Prog Unit := do
  require (previous.bootId == d.bootId && previous.routeKey == d.routeKey)
    "history archive binding changed"
  if previous.current.jobId = d.current.jobId then do
    require (previous == d) "history archive decision changed"
    call .syncDirectory
  else do
    require (decide (previous.current.createdUnixMs < d.current.createdUnixMs))
      "history archive refuses an out-of-order decision"
    let projected ← .lift ({ d with reference := none }.inheritReference previous)
    require (projected == d) "history archive trust chain changed"
    let encoded ← .lift (d.encode serde)
    replacePrivateFile encoded
    call .syncDirectory

def HistoryDecision.archive (d : HistoryDecision) : Prog Unit := do
  .lift d.validate
  ensurePrivateDirectory
  let metadata ← call (.stat .route)
  match metadata with
  | some _ => do
    let previous ← readDecision serde
    d.succeedStored serde previous
  | none => do
    let entries ← call .list
    require (decide (entries < maxRoutes)) "history archive route bound reached"
    d.publish serde

end CakeAutorate.History
