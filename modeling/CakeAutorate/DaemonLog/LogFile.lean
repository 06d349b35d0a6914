/-
# The bounded daemon log

`LogFile` of `logging.rs`: `open_with_limit`, `write_line`, `flush`, `rotate` and what they use,
as programs of system calls on the active file, the previous file and the compaction file.  The
fields of the `LogFile` are in the state too, so that an error leaves them as they are.

The directory and the lock file are one call, and so is the retirement of legacy archives: none
of them is about the three files.  These belong to the daemon, and nobody else writes them.
Sums that saturate in the source are sums here: they are above every limit either way.
-/

import CakeAutorate.DaemonLog.Record
import CakeAutorate.Syscall.Faults

namespace CakeAutorate.DaemonLog

open Syscall Wire Function

/-- The names: the log, and its siblings `.old` and `.tmp`. -/
inductive Name where
  | active
  | previous
  | temporary
  deriving DecidableEq

/-- A file, with the time of its last change. -/
structure Inode where
  bytes : Bytes
  mtime : ℕ

/-- What is seen of a file. -/
structure Metadata where
  inode : ℕ
  nlink : ℕ
  len : ℕ
  mtime : ℕ

/-- Errors. -/
inductive LogError where
  | notFound
  | invalid (message : String)
  | refused
  deriving DecidableEq

/-- `LogFile`, with the buffer of its `BufWriter`. -/
structure LogFile where
  file : ℕ
  buffer : Bytes
  activeMissingAfterRotation : Bool
  openedAt : ℕ
  bytesWritten : ℕ
  bytesPending : ℕ
  lastFlush : ℕ

def LogFile.none : LogFile := ⟨0, [], false, 0, 0, 0, 0⟩

/-- The files by name and by inode, the next inode, and the log. -/
structure World where
  names : Name → Option ℕ
  inodes : ℕ → Inode
  fresh : ℕ
  log : LogFile

namespace World

variable (s : World)

def nlink (i : ℕ) : ℕ :=
  ([Name.active, Name.previous, Name.temporary].filter fun n => s.names n = some i).length

def metadata (i : ℕ) : Metadata := ⟨i, s.nlink i, (s.inodes i).bytes.length, (s.inodes i).mtime⟩

def stat (name : Name) : Except LogError Metadata :=
  match s.names name with
  | none => .error .notFound
  | some i => .ok (s.metadata i)

def append (i : ℕ) (bytes : Bytes) : World :=
  { s with
    inodes := update s.inodes i ⟨(s.inodes i).bytes ++ bytes, (s.inodes i).mtime + 1⟩ }

def create (name : Name) : World :=
  { s with
    names := update s.names name (some s.fresh)
    inodes := update s.inodes s.fresh ⟨[], 0⟩
    fresh := s.fresh + 1 }

def rename (source target : Name) : World :=
  { s with
    names := update (update s.names target (s.names source)) source none }

def remove (name : Name) : World := { s with names := update s.names name none }

end World

/-- The calls that the system may refuse. -/
inductive Op where
  | symlinkMetadata (name : Name)
  | metadata (file : ℕ)
  | openFile (name : Name) (create : Bool)
  | createNew (name : Name)
  | setPermissions (file : ℕ)
  | readHead (file : ℕ) (count : ℕ)
  | readTail (file : ℕ) (count : ℕ)
  | write (file : ℕ) (bytes : Bytes)
  | rename (source target : Name)
  | remove (name : Name)
  | openNamespace
  | cleanupLegacy (count : ℕ)

abbrev Op.Answer : Op → Type
  | .symlinkMetadata _ => Metadata
  | .metadata _ => Metadata
  | .openFile _ _ => ℕ
  | .createNew _ => ℕ
  | .readHead _ _ => Bytes
  | .readTail _ _ => Bytes
  | _ => Unit

def Op.exec : (op : Op) → World → Except LogError op.Answer × World
  | .symlinkMetadata name, s => (s.stat name, s)
  | .metadata file, s => (.ok (s.metadata file), s)
  | .openFile name create, s =>
    match s.names name, create with
    | some i, _ => (.ok i, s)
    | none, true => (.ok s.fresh, s.create name)
    | none, false => (.error .notFound, s)
  | .createNew name, s =>
    match s.names name with
    | none => (.ok s.fresh, s.create name)
    | some _ => (.error (.invalid "File exists"), s)
  | .setPermissions _, s => (.ok (), s)
  | .readHead file count, s => (.ok ((s.inodes file).bytes.take count), s)
  | .readTail file count, s =>
    (.ok ((s.inodes file).bytes.drop ((s.inodes file).bytes.length - count)), s)
  | .write file bytes, s => (.ok (), s.append file bytes)
  | .rename source target, s =>
    match s.names source with
    | none => (.error .notFound, s)
    | some _ => (.ok (), s.rename source target)
  | .remove name, s =>
    match s.names name with
    | none => (.error .notFound, s)
    | some _ => (.ok (), s.remove name)
  | .openNamespace, s => (.ok (), s)
  | .cleanupLegacy _, s => (.ok (), s)

/-- What a refused call leaves: a write to the compaction file any first part of the bytes, every
other call nothing.  A write to the log itself is not refused. -/
def Op.Refused : Op → World → World → Prop
  | .write file bytes, s, s' =>
    s.names .temporary = some file ∧ ∃ start, start <+: bytes ∧ s' = s.append file start
  | _, s, s' => s' = s

/-- The calls: those of the system, the clock, and the fields of the log. -/
inductive Call where
  | io (op : Op)
  | now
  | self
  | set (f : LogFile → LogFile)

abbrev Reply : Call → Type
  | .io op => Except LogError op.Answer
  | .now => ℕ
  | .self => LogFile
  | .set _ => Unit

def exec : (c : Call) → World → Reply c × World
  | .io op, s => op.exec s
  | .now, s => (0, s)
  | .self, s => (s.log, s)
  | .set f, s => ((), { s with log := f s.log })

def refused (refusals : Bool) : (c : Call) → World → Reply c → World → Prop
  | .io op, s, r, s' => refusals = true ∧ r = .error .refused ∧ op.Refused s s'
  | .now, s, _, s' => s' = s
  | _, _, _, _ => False

def torn : Call → World → World → Prop
  | .io (.write file bytes), s, s' => ∃ start, start <+: bytes ∧ s' = s.append file start
  | _, _, _ => False

abbrev Prog := Program Call Reply LogError

abbrev machine (refusals : Bool) : System World Call Reply := .faulty exec (refused refusals) torn

abbrev call (c : Call) : Prog (Reply c) := .perform c

def perform (op : Op) : Prog op.Answer := do
  let answer ← call (.io op)
  .lift answer

def require (ok : Bool) (message : String) : Prog Unit :=
  .lift (if ok then .ok () else .error (.invalid message))

def onlyIf (condition : Prop) [Decidable condition] (p : Prog Unit) : Prog Unit :=
  if condition then p else pure ()

/-- `owned_regular`: everything is owned and regular, so it is the number of links. -/
def ownedRegular (m : Metadata) : Bool := m.nlink == 1

def sameFile (a b : Metadata) : Bool := a.inode == b.inode

def attestFile (path : Name) (file : ℕ) : Prog Metadata := do
  let current ← perform (.symlinkMetadata path)
  let opened ← perform (.metadata file)
  require (ownedRegular current && ownedRegular opened && sameFile current opened)
    "log path identity, ownership or link count changed"
  pure current

/-- What `open_file` makes of what stands under the path. -/
def mayOpen (create : Bool) : Except LogError Metadata → Except LogError Unit
  | .ok metadata =>
    if ownedRegular metadata then .ok ()
    else .error (.invalid "log path is not an owned single-link regular file")
  | .error error => if error = .notFound ∧ create = true then .ok () else .error error

def openFile (path : Name) (create : Bool) : Prog ℕ := do
  let metadata ← call (.io (.symlinkMetadata path))
  .lift (mayOpen create metadata)
  let file ← perform (.openFile path create)
  let _ ← attestFile path file
  pure file

/-- The bytes that `recover_compaction` takes for those of a compaction file. -/
def isMarked (head : Bytes) : Bool :=
  if head.length < compactionMarker.length then head.isPrefixOf compactionMarker
  else head == compactionMarker

/-- `recover_compaction` of a file that is there. -/
def discardCompaction (file : ℕ) : Prog Unit := do
  let metadata ← attestFile .temporary file
  require (metadata.len ≤ hardLogFileBytes) "unrecognized oversized log compaction file"
  let head ← perform (.readHead file compactionMarker.length)
  require (isMarked head) "foreign file occupies log compaction path"
  let _ ← attestFile .temporary file
  perform (.remove .temporary)

def recoverCompaction : Prog Unit := do
  let file ← (openFile .temporary false).attempt
  match file with
  | .error error => if error = .notFound then pure () else throw error
  | .ok file => discardCompaction file

/-- `compact_file`, the finished compaction file. -/
def installOutput (path : Name) (source : ℕ) (original : Metadata) (output : ℕ) : Prog Unit := do
  let current ← attestFile path source
  require (current.len == original.len && current.mtime == original.mtime)
    "log changed while compacting its retained tail"
  let _ ← attestFile .temporary output
  perform (.rename .temporary path)
  let _ ← attestFile path output
  pure ()

/-- The steps of `compact_file` whose failure it cleans up after. -/
def retainTail (path : Name) (limit source : ℕ) (original : Metadata) (output : ℕ) : Prog Unit := do
  perform (.write output (compactionMarker.take (min limit compactionMarker.length)))
  let tail ← perform (.readTail source (limit - min limit compactionMarker.length))
  onlyIf ((10 : UInt8) ∈ tail) (perform (.write output (afterFirst 10 tail)))
  installOutput path source original output

/-- `compact_file` after a failed step. -/
def discardOutput (output : ℕ) (error : LogError) : Prog ℕ := do
  let attested ← (attestFile .temporary output).attempt
  onlyIf (attested.isOk = true) (do
    let _ ← call (.io (.remove .temporary))
    pure ())
  throw error

/-- `compact_file` of a file above the limit. -/
def compactLong (path : Name) (limit source : ℕ) (original : Metadata) : Prog ℕ := do
  recoverCompaction
  let output ← perform (.createNew .temporary)
  let result ← (retainTail path limit source original output).attempt
  match result with
  | .ok () => pure output
  | .error error => discardOutput output error

def compactFile (path : Name) (limit : ℕ) : Prog ℕ := do
  let source ← openFile path false
  let original ← attestFile path source
  if original.len ≤ limit then pure source else compactLong path limit source original

/-- The capacity of a `BufWriter`. -/
def bufferCapacity : ℕ := 8 * 1024

/-- `BufWriter::flush_buf`. -/
def flushBuf : Prog Unit := do
  let log ← call .self
  onlyIf (log.buffer ≠ []) (do
    perform (.write log.file log.buffer)
    call (.set fun log => { log with buffer := [] }))

def push (bytes : Bytes) : Prog Unit :=
  call (.set fun log => { log with buffer := log.buffer ++ bytes })

/-- `BufWriter::write_all` of bytes that leave no spare capacity. -/
def writeAllCold (bytes : Bytes) : Prog Unit := do
  let log ← call .self
  onlyIf (bufferCapacity - log.buffer.length < bytes.length) flushBuf
  let log ← call .self
  if bufferCapacity ≤ bytes.length then perform (.write log.file bytes) else push bytes

/-- `BufWriter::write_all`. -/
def writeAll (bytes : Bytes) : Prog Unit := do
  let log ← call .self
  if bytes.length < bufferCapacity - log.buffer.length then push bytes else writeAllCold bytes

/-- `self.file = BufWriter::new(file)`: the old writer is dropped, which flushes it. -/
def replaceFile (file : ℕ) : Prog Unit := do
  let _ ← flushBuf.attempt
  call (.set fun log => { log with file, buffer := [] })

def flush : Prog Unit := do
  flushBuf
  let now ← call .now
  call (.set fun log => { log with bytesPending := 0, lastFlush := now })

def installNewActive : Prog Unit := do
  let active ← perform (.createNew .active)
  let _ ← attestFile .active active
  replaceFile active
  let opened ← call .now
  let flushed ← call .now
  call (.set fun log =>
    { log with
      activeMissingAfterRotation := false
      openedAt := opened
      bytesWritten := 0
      bytesPending := 0
      lastFlush := flushed })

/-- What `rotate` makes of what stands under the name of the previous file. -/
def mayReplace : Except LogError Metadata → Except LogError Unit
  | .ok metadata =>
    if ownedRegular metadata then .ok ()
    else .error (.invalid "unsafe previous-log path was preserved")
  | .error error => if error = .notFound then .ok () else .error error

def rotate : Prog Unit := do
  flush
  let log ← call .self
  let _ ← attestFile .active log.file
  let metadata ← call (.io (.symlinkMetadata .previous))
  .lift (mayReplace metadata)
  perform (.rename .active .previous)
  call (.set fun log => { log with activeMissingAfterRotation := true })
  installNewActive

/-- The settings of a call of `write_line`. -/
structure Settings where
  maxAge : ℕ
  maxSizeBytes : ℕ
  bufferSizeBytes : ℕ
  bufferTimeout : ℕ

/-- `write_line`, the active file that a failed rotation left missing. -/
def reinstall : Prog Unit := do
  let log ← call .self
  onlyIf (log.activeMissingAfterRotation = true) (do
    let _ ← attestFile .previous log.file
    installNewActive)

/-- `write_line`, an active file above the limit. -/
def boundActive (limit : ℕ) : Prog Unit := do
  let log ← call .self
  let _ ← attestFile .active log.file
  let metadata ← perform (.metadata log.file)
  call (.set fun log => { log with bytesWritten := metadata.len + log.buffer.length })
  onlyIf (limit < metadata.len + log.buffer.length) (do
    flush
    let file ← compactFile .active limit
    replaceFile file
    let metadata ← perform (.metadata file)
    call (.set fun log => { log with bytesWritten := metadata.len }))

/-- `write_line`, a previous file above the limit. -/
def boundPrevious (limit : ℕ) : Prog Unit := do
  let metadata ← call (.io (.symlinkMetadata .previous))
  match metadata with
  | .ok metadata =>
    onlyIf (limit < metadata.len) (do
      let _ ← compactFile .previous limit
      pure ())
  | .error error => if error = .notFound then pure () else throw error

def legacyCleanupBatch : ℕ := 32

/-- `write_line`, a rotation that the age of the file or the size of a record asks for. -/
def rotateFor (settings : Settings) (limit pending : ℕ) : Prog Unit := do
  let now ← call .now
  let log ← call .self
  onlyIf ((0 < settings.maxAge ∧ settings.maxAge ≤ now - log.openedAt) ∨
    limit < log.bytesWritten + pending) rotate

/-- `write_line`, all that comes before the record is written. -/
def prepare (line : Bytes) (settings : Settings) : Prog Unit := do
  reinstall
  boundActive (effectiveLimit settings.maxSizeBytes)
  boundPrevious (effectiveLimit settings.maxSizeBytes)
  perform (.cleanupLegacy legacyCleanupBatch)
  rotateFor settings (effectiveLimit settings.maxSizeBytes)
    ((boundedRecord line (effectiveLimit settings.maxSizeBytes)).length + 1)

/-- `write_line`, a record with its newline. -/
def commit (record : Bytes) (settings : Settings) : Prog Unit := do
  writeAll record
  writeAll [10]
  call (.set fun log =>
    { log with
      bytesWritten := log.bytesWritten + (record.length + 1)
      bytesPending := log.bytesPending + (record.length + 1) })
  let log ← call .self
  let now ← call .now
  onlyIf ((settings.bufferSizeBytes = 0 ∨ settings.bufferSizeBytes ≤ log.bytesPending) ∨
    (settings.bufferTimeout = 0 ∨ settings.bufferTimeout ≤ now - log.lastFlush)) flush

def writeLine (line : Bytes) (settings : Settings) : Prog Unit := do
  prepare line settings
  commit (boundedRecord line (effectiveLimit settings.maxSizeBytes)) settings

/-- `open_with_limit`, the previous file. -/
def openPrevious (limit : ℕ) : Prog Unit := do
  let previous ← (compactFile .previous limit).attempt
  match previous with
  | .ok previous => perform (.setPermissions previous)
  | .error error => if error = .notFound then pure () else throw error

/-- `open_with_limit`, the log of the files. -/
def attach (active : ℕ) : Prog Unit := do
  let metadata ← perform (.metadata active)
  let opened ← call .now
  let flushed ← call .now
  call (.set fun _ => ⟨active, [], false, opened, metadata.len, 0, flushed⟩)
  perform (.cleanupLegacy 128)

/-- `open_with_limit`, the two files. -/
def openFiles (limit : ℕ) : Prog Unit := do
  let active ← compactFile .active limit
  perform (.setPermissions active)
  openPrevious limit
  attach active

def openWithLimit (configuredLimit : ℕ) : Prog Unit := do
  perform .openNamespace
  recoverCompaction
  let _ ← openFile .active true
  openFiles (effectiveLimit configuredLimit)

end CakeAutorate.DaemonLog
