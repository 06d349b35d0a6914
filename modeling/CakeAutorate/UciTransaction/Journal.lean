/-
# The two-package publication

`operations/uci_transaction.rs`, function by function, as programs over the
calls of `UciTransaction.Disk`: the guarded reads and writes, `Root`, `Journal`
(prepare, load, publish, rollback in both modes), `publish`,
`recover_checked_with` and `accept_receipt`.

Left out, since nothing else works in the private directories: the device
comparison of `Root::attest`, its scan for foreign names, and the attestation of
the private copies of a `PreparedConfig`.  A lock is always granted: one process
holds the workspace at a time, and readers of a source finish.
-/

import CakeAutorate.UciTransaction.Disk

namespace CakeAutorate.UciTransaction

open Syscall Syscall.Program Version Package Identity

abbrev Prog := Program Call Reply String

def sys (c : Call) : Prog (Reply c) := perform c

def maxConfig : ℕ := 1024 * 1024

def maxReceipt : ℕ := 16384

/-- `OWNER`. -/
def ownerMark : Bytes := ascii "cake-autorate start transaction v1\n"

/-- `RECEIPT`. -/
def receiptMark : Bytes := ascii "cake-autorate start receipt v1\n"

/-- `ACCEPTED`. -/
def acceptedMark : Bytes := ascii "cake-autorate start transaction retired v1\n"

/-- Go on only if `ok`. -/
def ensure (ok : Bool) (error : String) : Prog Unit :=
  if ok then pure () else throw error

/-- Do `f` for both packages, in order. -/
def eachPackage (f : Package → Prog Unit) : Prog Unit := do
  f .cakeAutorate
  f .sqm

/-- `Directory::attest`. -/
def attest (d : Dir) : Prog Unit := do
  ensure (← sys (Call.attest d)) "committed-uci-directory-unsafe-or-replaced"

/-- `Directory::open`. -/
def openDir (d : Dir) (create : Bool) : Prog Unit := do
  if create then
    ensure (← sys (Call.mkdir d)) "committed-uci-directory-create-failed"
  ensure (← sys (Call.existsDir d)) "committed-uci-io"
  attest d

def sync (d : Dir) : Prog Unit := do
  attest d
  sys Call.fsync

/-- `exists`, for a directory in its parent. -/
def existsDir (parent child : Dir) : Prog Bool := do
  attest parent
  sys (Call.existsDir child)

/-- `exists`, for a file of a transaction directory. -/
def existsEntry (p : Place) (e : Entry) : Prog Bool := do
  attest (.work p)
  return (← sys (Call.stat (.entry p e))).isSome

variable (h : Host)

/-- The checks of `file_identity` on one `stat`: a regular file of ours that
nobody else may write (or, private, read). -/
def safe (isPrivate : Bool) (f : Inode) : Bool :=
  f.mode &&& 0o170000 == 0o100000 && f.uid == h.uid &&
    f.mode &&& (if isPrivate then 0o077 else 0o022) == 0

def fileIdentity (l : Loc) (opened : Inode) (isPrivate : Bool) : Prog Identity := do
  match ← sys (Call.stat l) with
  | none => throw "committed-uci-io"
  | some named =>
    ensure (safe h isPrivate named && safe h isPrivate opened) "committed-uci-file-unsafe"
    if isPrivate then
      ensure (← sys (Call.linked l opened)) "committed-uci-file-unsafe"
    ensure (of h named == of h opened) "committed-uci-file-replaced"
    return of h opened

/-- `read_file`: the open file, contents and all. -/
def readFile (l : Loc) (maximum : ℕ) (isPrivate : Bool) : Prog Inode := do
  match ← sys (Call.open l) with
  | none => throw "committed-uci-io"
  | some file =>
    let before ← fileIdentity h l file isPrivate
    ensure (before.len ≤ maximum) "committed-uci-file-too-large"
    let again ← fileIdentity h l file isPrivate
    ensure (file.bytes.length ≤ maximum && again == before) "committed-uci-file-changed-during-read"
    return file

/-- `regular`: a readable file with a single link. -/
def regular (l : Loc) (maximum : ℕ) (isPrivate : Bool) : Prog Inode := do
  let file ← readFile h l maximum isPrivate
  ensure (← sys (Call.linked l file)) "uci-transaction-hardlink-refused"
  return file

def Version.ofFile (f : Inode) : Version := of h f.bytes (Identity.of h f)

/-- `Version::matches` of a file as read. -/
def Version.matchesFile (v : Version) (f : Inode) (moved : Bool) : Bool :=
  v.matches h f.bytes (Identity.of h f) moved

def writeNew (p : Place) (e : Entry) (bytes : Bytes) : Prog Unit := do
  attest (.work p)
  ensure (← sys (Call.create p e)) "uci-transaction-io"
  sys (Call.write p e bytes)
  sys Call.fsync
  attest (.work p)
  match ← sys (Call.open (.entry p e)) with
  | none => throw "committed-uci-io"
  | some file =>
    let _ ← fileIdentity h (.entry p e) file true

/-- The error of a failed `renameat2`. -/
def renamed : Renamed → Prog Unit
  | .done => pure ()
  | .targetExists => throw "uci-transaction-rename-target-exists"
  | .failed => throw "uci-transaction-atomic-rename-failed"

/-- `rename`, between the directories `source` and `target`. -/
def renameBetween (source target : Dir) (rename : Prog Renamed) : Prog Unit := do
  attest source
  attest target
  renamed (← rename)
  sync source
  sync target

/-- `rename` inside a transaction directory. -/
def renameEntry (p : Place) (old new : Entry) : Prog Unit :=
  renameBetween (.work p) (.work p) (sys (Call.rename p old new))

/-- `rename` of a package with its swap, `exchange = true`. -/
def exchangeSwap (i : Package) (site : Exchange) : Prog Unit :=
  renameBetween .config (.work .pending) (sys (Call.exchange i site))

def receiptInvalid : String := "uci-transaction-receipt-invalid"

/-- `ok_or` on the fields of a receipt. -/
def require {α : Type} (a : Option α) : Except String α :=
  match a with
  | some a => .ok a
  | none => .error receiptInvalid

def hash (value : Json) : Except String Bytes :=
  require (value.asStr.filter fun s => s.length == 64 && s.all hexDigit)

/-- `Version::json`; the fields of a JSON object are kept in key order. -/
def Version.json (v : Version) : Json :=
  .obj [("ctime", .num v.identity.ctime), ("ctime_ns", .num v.identity.ctimeNs),
    ("dev", .num v.identity.dev), ("gid", .num v.identity.gid), ("ino", .num v.identity.ino),
    ("len", .num v.identity.len), ("mode", .num v.identity.mode), ("mtime", .num v.identity.mtime),
    ("mtime_ns", .num v.identity.mtimeNs), ("sha256", .str v.sha256), ("uid", .num v.identity.uid)]

/-- The checks of `Version::parse` on an identity. -/
def Identity.refused (i : Identity) : Bool :=
  decide (i.len > maxConfig) || i.uid != h.uid || i.mode &&& 0o170000 != 0o100000
    || i.mode &&& 0o022 != 0 || !(decide (0 ≤ i.mtimeNs) && decide (i.mtimeNs < 1000000000))
    || !(decide (0 ≤ i.ctimeNs) && decide (i.ctimeNs < 1000000000))

def Version.parse (value : Json) : Except String Version := do
  let identity : Identity := {
    dev := ← require (value.get "dev").asU64
    ino := ← require (value.get "ino").asU64
    len := ← require (value.get "len").asU64
    uid := ← require (value.get "uid").asU64
    gid := ← require (value.get "gid").asU64
    mode := ← require (value.get "mode").asU64
    mtime := ← require (value.get "mtime").asI64
    mtimeNs := ← require (value.get "mtime_ns").asI64
    ctime := ← require (value.get "ctime").asI64
    ctimeNs := ← require (value.get "ctime_ns").asI64 }
  if identity.refused h then
    throw receiptInvalid
  return ⟨identity, ← hash (value.get "sha256")⟩

def writeReceipt (p : Place) (e : Entry) (value : Json) : Prog Unit := do
  let bytes := receiptMark ++ h.serde.toVec value
  ensure (bytes.length ≤ maxReceipt) "uci-transaction-receipt-too-large"
  writeNew h p e bytes
  sync (.work p)

def parseReceipt (bytes : Bytes) : Except String Json :=
  if receiptMark <+: bytes then
    match h.serde.fromSlice (bytes.drop receiptMark.length) with
    | none => .error receiptInvalid
    | some value => if (value.get "schema").asU64 == some 1 then .ok value else .error receiptInvalid
  else .error receiptInvalid

def readReceipt (p : Place) (e : Entry) : Prog Json := do
  let file ← regular h (.entry p e) maxReceipt true
  lift (parseReceipt h file.bytes)

def Root.attest : Prog Unit := do
  UciTransaction.attest .config
  UciTransaction.attest .root

/-- Read every name, as the loop of `Root::inspect` does. -/
def Root.inspectEach (p : Place) : List Entry → Prog Unit
  | [] => pure ()
  | e :: rest => do
    let _ ← regular h (.entry p e) (if e.isSwap then maxConfig else maxReceipt) (!e.isSwap)
    inspectEach p rest

def Root.inspect (p : Place) : Prog (List Entry) := do
  Root.attest
  UciTransaction.attest (.work p)
  let names ← sys (Call.names p)
  Root.inspectEach h p names
  return names

/-- Remove files, as the loop of `Root::clean_retired` does. -/
def Root.removeEach : List Entry → Prog Unit
  | [] => pure ()
  | e :: rest => do
    UciTransaction.attest (.work .garbage)
    ensure (← sys (Call.unlink .garbage e)) "uci-transaction-io"
    removeEach rest

def Root.cleanRetired : Prog Unit := do
  if ← existsDir .root (.work .garbage) then
    openDir (.work .garbage) false
    let names ← Root.inspect h .garbage
    if !names.isEmpty then
      let marker ← regular h (.entry .garbage .accepted) maxReceipt true
      ensure (marker.bytes == acceptedMark) "uci-transaction-retirement-unproven"
      Root.removeEach (names.filter (· ≠ .accepted))
      sync (.work .garbage)
      ensure (← sys (Call.unlink .garbage .accepted)) "uci-transaction-io"
      sync (.work .garbage)
    UciTransaction.attest (.work .garbage)
    ensure (← sys (Call.rmdir .garbage)) "uci-transaction-io"
    sync .root

def Root.open : Prog Unit := do
  openDir .config false
  openDir .root true
  ensure (← sys Call.openLock) "uci-transaction-io"
  Root.attest
  Root.cleanRetired h

/-- Put the `accepted` marker in place, if it is not there. -/
def Root.markAccepted : Prog Unit := do
  if !(← existsEntry .pending .accepted) then
    if ← existsEntry .pending .acceptedTmp then
      let part ← regular h (.entry .pending .acceptedTmp) maxReceipt true
      ensure (part.bytes <+: acceptedMark) "uci-transaction-retirement-unproven"
      ensure (← sys (Call.unlink .pending .acceptedTmp)) "uci-transaction-io"
    writeNew h .pending .acceptedTmp acceptedMark
    renameEntry .pending .acceptedTmp .accepted

/-- The second half of `Root::retire`. -/
def Root.retireMarked : Prog Unit := do
  let marker ← regular h (.entry .pending .accepted) maxReceipt true
  ensure (marker.bytes == acceptedMark) "uci-transaction-retirement-unproven"
  sync (.work .pending)
  renameBetween .root .root (sys Call.retire)
  Root.cleanRetired h

def Root.retire : Prog Unit := do
  let _ ← Root.inspect h .pending
  Root.markAccepted h
  Root.retireMarked h

/-- `PreparedConfig`: two committed sources as captured, and the candidate
bytes.  `capture` and `prepare` refuse an unsafe or oversized file; `st_mode`
has sixteen bits. -/
structure PreparedConfig where
  original : Package → Inode
  candidate : Package → Bytes
  original_safe : ∀ i, safe h false (original i) = true
  original_mode : ∀ i, (original i).mode < 0o200000
  original_len : ∀ i, (original i).bytes.length ≤ maxConfig
  candidate_len : ∀ i, (candidate i).length ≤ maxConfig

variable {h} in
def PreparedConfig.attest (c : PreparedConfig h) : Prog Unit := do
  UciTransaction.attest .config
  eachPackage fun i => do
    let file ← readFile h (.package i) maxConfig false
    ensure (of h file == of h (c.original i) &&
      file.bytes == (c.original i).bytes) "committed-uci-source-changed"

structure Journal where
  before : Package → Version
  after : Package → Version
  changed : Package → Bool

/-- The `intent` receipt. -/
def intentJson (before : Package → Version) (changed : Package → Bool)
    (candidate : Package → Bytes) : Json :=
  let entry (i : Package) : Json :=
    .obj [("after_len", .num (candidate i).length), ("after_sha256", .str (h.sha256 (candidate i))),
      ("before", (before i).json), ("changed", .bool (changed i)), ("name", .str i.name)]
  .obj [("entries", .arr [entry .cakeAutorate, entry .sqm]), ("schema", .num 1)]

/-- The `ready` receipt. -/
def readyJson (after : Package → Version) : Json :=
  .obj [("after", .arr [(after .cakeAutorate).json, (after .sqm).json]), ("schema", .num 1)]

/-- Write the swap of a changed package, as the loop of `Journal::prepare` does. -/
def Journal.stage (c : PreparedConfig h) (before : Package → Version) (changed : Package → Bool)
    (i : Package) : Prog Version := do
  if !changed i then
    return before i
  c.attest
  Root.attest
  writeNew h .pending (.swap i) (c.candidate i)
  let original := (before i).identity
  if !(← sys (Call.chown .pending (.swap i) original.uid original.gid)) then
    throw "uci-transaction-metadata-copy-failed"
  -- `S_IFREG` stays; `set_permissions` sets the twelve permission bits
  if !(← sys (Call.chmod .pending (.swap i) (0o100000 + original.mode % 0o10000))) then
    throw "uci-transaction-metadata-copy-failed"
  sys Call.fsync
  let file ← regular h (.entry .pending (.swap i)) maxConfig false
  ensure (file.bytes == c.candidate i) "uci-transaction-candidate-changed"
  return ofFile h file

/-- The second half of `Journal::prepare`: the swaps and the ready receipt. -/
def Journal.stageBoth (c : PreparedConfig h) (before : Package → Version)
    (changed : Package → Bool) : Prog Journal := do
  let first ← Journal.stage h c before changed .cakeAutorate
  let second ← Journal.stage h c before changed .sqm
  let after := pick first second
  c.attest
  Root.attest
  writeReceipt h .pending .readyTmp (readyJson after)
  renameEntry .pending .readyTmp .ready
  return ⟨before, after, changed⟩

def Journal.prepare (c : PreparedConfig h) : Prog Journal := do
  c.attest
  Root.open h
  if ← existsDir .root (.work .pending) then
    throw "uci-transaction-recovery-pending"
  openDir (.work .pending) true
  writeNew h .pending .owner ownerMark
  sync (.work .pending)
  sync .root
  let before := fun i => ofFile h (c.original i)
  let changed := fun i => c.candidate i != (c.original i).bytes
  writeReceipt h .pending .intent (intentJson h before changed c.candidate)
  Journal.stageBoth h c before changed

/-- `filter(|a| a.len() == 2)` on an array of a receipt. -/
def pairOf (value : Json) : Except String (Json × Json) :=
  match value.asArray with
  | some [a, b] => .ok (a, b)
  | _ => .error receiptInvalid

/-- The checks of `Journal::load` on one entry of the intent; the result is its
`changed` flag. -/
def Journal.loadEntry (entry : Json) (i : Package) (before after : Version) :
    Except String Bool := do
  let changed ← require (entry.get "changed").asBool
  if (entry.get "name").asStr != some i.name
      || (← hash (entry.get "after_sha256")) != after.sha256
      || (entry.get "after_len").asU64 != some after.identity.len
      || before.identity.uid != after.identity.uid
      || before.identity.gid != after.identity.gid
      || before.identity.mode != after.identity.mode
      || (!changed && (before.identity != after.identity || before.sha256 != after.sha256)) then
    throw receiptInvalid
  return changed

def Journal.parse (intent ready : Json) : Except String Journal := do
  let (entry₀, entry₁) ← pairOf (intent.get "entries")
  let (after₀, after₁) ← pairOf (ready.get "after")
  let before₀ ← Version.parse h (entry₀.get "before")
  let before₁ ← Version.parse h (entry₁.get "before")
  let after₀ ← Version.parse h after₀
  let after₁ ← Version.parse h after₁
  let changed₀ ← Journal.loadEntry entry₀ .cakeAutorate before₀ after₀
  let changed₁ ← Journal.loadEntry entry₁ .sqm before₁ after₁
  return ⟨pick before₀ before₁, pick after₀ after₁, pick changed₀ changed₁⟩

def Journal.load : Prog Journal := do
  let _ ← Root.inspect h .pending
  let owner ← regular h (.entry .pending .owner) maxReceipt true
  ensure (owner.bytes == ownerMark) "uci-transaction-owner-invalid"
  let intent ← readReceipt h .pending .intent
  let ready ← readReceipt h .pending .ready
  lift (Journal.parse h intent ready)

def lockSources : Prog Unit := do
  Root.attest
  eachPackage fun i => do
    let file ← regular h (.package i) maxConfig false
    ensure (← sys (Call.flock file)) "uci-transaction-source-busy"

def publicMatches (i : Package) (version : Version) (moved : Bool) : Prog Bool := do
  Root.attest
  let file ← regular h (.package i) maxConfig false
  return version.matchesFile h file moved

def readSwap (i : Package) : Prog Inode :=
  regular h (.entry .pending (.swap i)) maxConfig false

/-- The error of `version_bytes` when neither file is the version. -/
def versionMissing : String := "uci-transaction-recovery-version-missing"

/-- One path of the loop of `Journal::version_bytes`. -/
def versionAt (l : Loc) (version : Version) : Prog (Option Bytes) := do
  match ← sys (Call.stat l) with
  | none => return none
  | some _ =>
    let file ← regular h l maxConfig false
    return if version.matchesFile h file true then some file.bytes else none

def versionBytes (i : Package) (version : Version) : Prog Bytes := do
  match ← versionAt h (.package i) version with
  | some bytes => return bytes
  | none =>
    match ← versionAt h (.entry .pending (.swap i)) version with
    | some bytes => return bytes
    | none => throw versionMissing

namespace Journal

variable (j : Journal)

/-- The `displaced` receipt. -/
def displacedJson (i : Package) (displaced : Version) : Json :=
  .obj [("candidate", (j.after i).json), ("name", .str i.name), ("schema", .num 1),
    ("version", displaced.json)]

/-- One package of `Journal::recovery_views`: its before and after bytes. -/
def recoveryView (i : Package) : Prog (Bytes × Bytes) := do
  let after ← match ← attempt (versionBytes h i (j.after i)) with
    | .ok bytes => pure bytes
    | .error error =>
      throw (if error = versionMissing then "uci-transaction-recovery-conflict" else error)
  match ← attempt (versionBytes h i (j.before i)) with
  | .ok before => return (before, after)
  | .error error =>
    if error = versionMissing then
      let proof ← readReceipt h .pending .displaced
      let displaced ← lift (Version.parse h (proof.get "version"))
      let candidate ← lift (Version.parse h (proof.get "candidate"))
      if (proof.get "name").asStr != some i.name || candidate.identity != (j.after i).identity
          || candidate.sha256 != (j.after i).sha256 then
        throw "uci-transaction-displacement-unproven"
      return (← versionBytes h i displaced, after)
    else
      throw error

/-- `Journal::recovery_views`: the before and the after bytes of both packages. -/
def recoveryViews : Prog ((Package → Bytes) × (Package → Bytes)) := do
  let first ← recoveryView h j .cakeAutorate
  let second ← recoveryView h j .sqm
  return (pick first.1 second.1, pick first.2 second.2)

/-- One round of the loop of `Journal::attest_applied`. -/
def attestAppliedMember (i : Package) : Prog Unit := do
  if !(← publicMatches h i (j.after i) (j.changed i)) then
    throw "uci-transaction-published-source-changed"
  if j.changed i then
    let file ← readSwap h i
    if !(j.before i).matchesFile h file true then
      throw "uci-transaction-displaced-source-changed"

def attestApplied : Prog Unit := do
  let _ ← Root.inspect h .pending
  eachPackage (attestAppliedMember h j)

/-- The recheck of member `k` before the exchange of member `i`. -/
def recheck (i k : Package) : Prog Unit := do
  let applied := decide (k = .cakeAutorate ∧ i = .sqm) && j.changed k
  if !(← publicMatches h k (if applied then j.after k else j.before k) applied) then
    throw "uci-transaction-source-changed-before-exchange"

/-- One round of the loop of `Journal::publish`. -/
def publishMember (checkpoint : ℕ → Except String Unit) (i : Package) : Prog Unit := do
  lift (checkpoint (2 * pick 0 1 i))
  let _ ← Root.inspect h .pending
  eachPackage (recheck h j i)
  if j.changed i then
    let file ← readSwap h i
    if !(j.after i).matchesFile h file false then
      throw "uci-transaction-candidate-changed"
    lift (checkpoint (2 * pick 0 1 i + 1))
    exchangeSwap i .publish
    let file ← readSwap h i
    if !(j.before i).matchesFile h file true then
      writeReceipt h .pending .displacedTmp (displacedJson j i (ofFile h file))
      renameEntry .pending .displacedTmp .displaced
      throw "uci-transaction-concurrent-commit-displaced"

def publish (c : PreparedConfig h) (checkpoint : ℕ → Except String Unit) : Prog Unit := do
  lockSources h
  c.attest
  eachPackage (publishMember h j checkpoint)
  lift (checkpoint 4)
  attestApplied h j

/-- `Journal::swap_to_restore`: the version to put back, and whether it is a
commit that the publication displaced. -/
def swapToRestore (i : Package) : Prog (Version × Bool) := do
  let displaced ← readSwap h i
  let file ← readSwap h i
  let foreign ←
    if (j.before i).matchesFile h file true then
      pure false
    else do
      let proof ← readReceipt h .pending .displaced
      let expected ← lift (Version.parse h (proof.get "version"))
      let candidate ← lift (Version.parse h (proof.get "candidate"))
      if (proof.get "name").asStr != some i.name || !expected.matchesFile h file false
          || candidate.identity != (j.after i).identity
          || candidate.sha256 != (j.after i).sha256 then
        throw "uci-transaction-displacement-unproven"
      pure true
  if displaced.ino == (j.after i).identity.ino && h.dev == (j.after i).identity.dev then
    throw "uci-transaction-recovery-conflict"
  return (Version.ofFile h displaced, foreign)

/-- The checks of `Journal::restore_swaps` after the exchange of a member, with
the undo of that exchange. -/
def checkRestored (i : Package) (displaced : Version) : Prog Unit := do
  if !(← publicMatches h i displaced true) then
    throw "uci-transaction-recovery-conflict"
  let file ← readSwap h i
  if !(j.after i).matchesFile h file true then
    -- a writer won the gap during the rollback itself: give its inode back
    let foreign := .ofFile h file
    if !(← publicMatches h i displaced true) then
      throw "uci-transaction-recovery-conflict"
    exchangeSwap i (.undo displaced)
    if !(← publicMatches h i foreign true) then
      throw "uci-transaction-recovery-conflict"
    throw "uci-transaction-recovery-conflict"

section

variable (restore : Package → Option Version) (checkpoint : Package → Prog Unit)

/-- One round of the loop of `Journal::restore_swaps`. -/
def restoreMember (i : Package) : Prog Unit := do
  match restore i with
  | none => pure ()
  | some displaced =>
    if !(← publicMatches h i (j.after i) true) then
      throw "uci-transaction-recovery-conflict"
    let current ← readSwap h i
    if (ofFile h current) != displaced then
      throw "uci-transaction-recovery-conflict"
    checkpoint i
    exchangeSwap i .restore
    checkRestored h j i displaced

/-- `Journal::restore_swaps`: last member first. -/
def restoreSwaps : Prog Unit := do
  restoreMember h j restore checkpoint .sqm
  restoreMember h j restore checkpoint .cakeAutorate

end

/-- The preflight of `Journal::rollback_with_status` for one member: the version
to restore, if any, and whether it is a foreign commit. -/
def preflight (i : Package) : Prog (Option Version × Bool) := do
  if !j.changed i then
    if !(← publicMatches h i (j.before i) false) then
      throw "uci-transaction-recovery-conflict"
    return (none, false)
  else if ← publicMatches h i (j.after i) true then
    let (displaced, foreign) ← swapToRestore h j i
    return (some displaced, foreign)
  else if !(← publicMatches h i (j.before i) true) then
    throw "uci-transaction-recovery-conflict"
  else
    let file ← readSwap h i
    if !(j.after i).matchesFile h file true then
      throw "uci-transaction-recovery-conflict"
    return (none, false)

/-- `Journal::rollback_with_status`.  The checkpoint sees the member about to be
restored, or none at the end. -/
def rollbackWithStatus (checkpoint : Option Package → Bool → Prog Unit) : Prog Bool := do
  lockSources h
  let _ ← Root.inspect h .pending
  let (first, foreign₀) ← preflight h j .cakeAutorate
  let (second, foreign₁) ← preflight h j .sqm
  let foreignRestored := foreign₀ || foreign₁
  restoreSwaps h j (pick first second) fun i => checkpoint (some i) foreignRestored
  checkpoint none foreignRestored
  Root.retire h
  return foreignRestored

def rollback : Prog Bool := rollbackWithStatus h j fun _ _ => pure ()

/-- `Journal::public_version`: the public file as it is now. -/
def publicVersion (i : Package) : Prog Inode := do
  Root.attest
  regular h (.package i) maxConfig false

/-- The second half of `recoveryViewKeepingLater`. -/
def viewBefore (i : Package) (after : Bytes) : Prog (Bytes × Bytes) := do
  match ← attempt (versionBytes h i (j.before i)) with
  | .ok before => return (before, after)
  | .error error =>
    if error = versionMissing then
      if ← existsEntry .pending .displaced then
        let proof ← readReceipt h .pending .displaced
        if (proof.get "name").asStr == some i.name then
          let displaced ← lift (Version.parse h (proof.get "version"))
          return (← versionBytes h i displaced, after)
      let file ← publicVersion h i
      return (file.bytes, after)
    else
      throw error

/-- One package of `Journal::recovery_views_keeping_later`: a version that is no
longer anywhere was replaced by a later commit, whose bytes stand in. -/
def recoveryViewKeepingLater (i : Package) : Prog (Bytes × Bytes) := do
  let after ← match ← attempt (versionBytes h i (j.after i)) with
    | .ok bytes => pure bytes
    | .error error =>
      if error = versionMissing then do
        let file ← publicVersion h i
        pure file.bytes
      else throw error
  viewBefore h j i after

def recoveryViewsKeepingLater : Prog ((Package → Bytes) × (Package → Bytes)) := do
  let first ← recoveryViewKeepingLater h j .cakeAutorate
  let second ← recoveryViewKeepingLater h j .sqm
  return (pick first.1 second.1, pick first.2 second.2)

/-- The choice of `Journal::rollback_keeping_later` for one member: the version
to restore, if this transaction's publication is still public and untouched. -/
def keepOrRestore (i : Package) : Prog (Option Version) := do
  if !j.changed i then
    return none
  if !(← publicMatches h i (j.after i) true) then
    return none
  let (displaced, _) ← swapToRestore h j i
  return some displaced

/-- `Journal::rollback_keeping_later`; the result is the receipt of what is
public afterwards. -/
def rollbackKeepingLater
    (checkpoint : Option Package → (Package → Version) → Prog Unit) : Prog (Package → Version) := do
  lockSources h
  let _ ← Root.inspect h .pending
  let public₀ ← publicVersion h .cakeAutorate
  let public₁ ← publicVersion h .sqm
  let first ← keepOrRestore h j .cakeAutorate
  let second ← keepOrRestore h j .sqm
  let receipt := pick (first.getD (ofFile h public₀)) (second.getD (ofFile h public₁))
  restoreSwaps h j (pick first second) fun i => checkpoint (some i) receipt
  checkpoint none receipt
  Root.retire h
  return receipt

end Journal

/-- `SourceReceipt::attest`. -/
def attestReceipt (versions : Package → Version) : Prog Unit := do
  openDir .config false
  eachPackage fun i => do
    let file ← regular h (.package i) maxConfig false
    ensure ((versions i).matchesFile h file true) "uci-transaction-source-receipt-changed"
  attest .config

/-- `publish`: the journal of the publication, or none when nothing changed. -/
def publish (c : PreparedConfig h) : Prog (Option Journal) := do
  c.attest
  if c.candidate .cakeAutorate == (c.original .cakeAutorate).bytes &&
      c.candidate .sqm == (c.original .sqm).bytes then
    -- an unchanged candidate is not journalled, but still refuses an outstanding one
    if ← existsDir .config .root then
      openDir .root false
      if ← existsDir .root (.work .pending) then
        throw "uci-transaction-recovery-pending"
    c.attest
    return none
  let j ← Journal.prepare h c
  match ← attempt (Journal.publish h j c fun _ => .ok ()) with
  | .ok _ => return some j
  | .error error =>
    match ← attempt (Journal.rollback h j) with
    | .ok _ => throw error
    | .error _ => throw "uci-transaction-recovery-required"

/-- `PublishedConfig::rollback`. -/
def rollbackPublished (c : PreparedConfig h) : Option Journal → Prog Unit
  | some j => do
    if ← Journal.rollback h j then
      throw "uci-transaction-concurrent-commit-preserved"
  | none => c.attest

inductive LaterCommits where
  | refuse
  | keep
  deriving DecidableEq

/-- `RecoveryCheck`, and from where the callback is called: a callback with a
state of its own is then a function of it. -/
inductive RecoveryCheck where
  | absent (site : ℕ)
  | restored (receipt : Package → Version)
  | versions (before after : Package → Bytes)

def originalsPublic : Prog Unit := do
  let intent ← readReceipt h .pending .intent
  let (entry₀, entry₁) ← lift (pairOf (intent.get "entries"))
  eachPackage fun i => do
    let entry := pick entry₀ entry₁ i
    let before ← lift (parse h (entry.get "before"))
    let file ← regular h (.package i) maxConfig false
    if (entry.get "name").asStr != some i.name || !before.matchesFile h file false then
      throw "uci-transaction-readiness-unproven"

section

variable (j : Journal) (check : RecoveryCheck → Except String Unit)

/-- `recover_checked_with`, the rollback of a loaded journal in the mode `Keep`. -/
def recoverKeep : Prog (Option (Package → Version)) := do
  let (before, after) ← Journal.recoveryViewsKeepingLater h j
  lift (check (.versions before after))
  let restored ← Journal.rollbackKeepingLater h j fun step receipt => do
    match step with
    | some i => lift (check (.absent (4 + pick 0 1 i)))
    | none =>
      lift (check (.absent 6))
      attestReceipt h receipt
      lift (check (.restored receipt))
      attestReceipt h receipt
  attestReceipt h restored
  lift (check (.absent 7))
  attestReceipt h restored
  return some restored

/-- `recover_checked_with`, the rollback of a loaded journal in the mode `Refuse`. -/
def recoverRefuse : Prog (Option (Package → Version)) := do
  let (before, after) ← Journal.recoveryViews h j
  lift (check (.versions before after))
  let foreign ← Journal.rollbackWithStatus h j fun step foreignRestored => do
    match step with
    | some i => lift (check (.absent (4 + pick 0 1 i)))
    | none =>
      lift (check (.absent 6))
      if !foreignRestored then
        attestReceipt h j.before
        lift (check (.restored j.before))
        attestReceipt h j.before
  if foreign then
    throw "uci-transaction-concurrent-commit-preserved"
  attestReceipt h j.before
  lift (check (.absent 7))
  attestReceipt h j.before
  return some j.before

end

section

variable (expected : Option (Package → Version)) (later : LaterCommits)
  (check : RecoveryCheck → Except String Unit)

/-- `recover_checked_with`, the end: a ready transaction. -/
def recoverReady : Prog (Option (Package → Version)) := do
  let j ← Journal.load h
  match expected with
  | none => pure ()
  | some versions =>
    ensure (versions .cakeAutorate == j.after .cakeAutorate && versions .sqm == j.after .sqm)
      "uci-transaction-recovery-receipt-mismatch"
  match later with
  | .keep => recoverKeep h j check
  | .refuse => recoverRefuse h j check

/-- `recover_checked_with`, once a `pending` directory is found. -/
def recoverPending : Prog (Option (Package → Version)) := do
  openDir (.work .pending) false
  let names ← Root.inspect h .pending
  if names.isEmpty then
    lift (check (.absent 1))
    ensure (← sys (Call.rmdir .pending)) "uci-transaction-io"
    sync .root
    return none
  let owner ← regular h (.entry .pending .owner) maxReceipt true
  ensure (owner.bytes <+: ownerMark) "uci-transaction-owner-invalid"
  if ← existsEntry .pending .accepted then
    lift (check (.absent 2))
    Root.retire h
    return none
  if !(← existsEntry .pending .ready) then
    if (← existsEntry .pending .displaced) || (← existsEntry .pending .displacedTmp) then
      throw "uci-transaction-readiness-unproven"
    if later = .refuse &&
        (names.contains (.swap .cakeAutorate) || names.contains (.swap .sqm)) then
      originalsPublic h
    lift (check (.absent 3))
    Root.retire h
    return none
  recoverReady h expected later check

def recoverCheckedWith : Prog (Option (Package → Version)) := do
  lift (check (.absent 0))
  openDir .config false
  if !(← existsDir .config .root) then
    return none
  Root.open h
  if !(← existsDir .root (.work .pending)) then
    return none
  recoverPending h expected later check

end

/-- `accept_receipt`, with the answers of `attest_runtime` in call order. -/
def acceptReceipt (expected : Package → Version) (attestRuntime : ℕ → Except String Unit) :
    Prog Unit := do
  attestReceipt h expected
  lift (attestRuntime 0)
  openDir .config false
  if !(← existsDir .config .root) then
    attestReceipt h expected
    lift (attestRuntime 1)
    attestReceipt h expected
  else
    Root.open h
    if !(← existsDir .root (.work .pending)) then
      attestReceipt h expected
      lift (attestRuntime 1)
      attestReceipt h expected
    else
      openDir (.work .pending) false
      let j ← Journal.load h
      ensure (expected .cakeAutorate == j.after .cakeAutorate && expected .sqm == j.after .sqm)
        "uci-transaction-acceptance-receipt-mismatch"
      Journal.attestApplied h j
      attestReceipt h expected
      lift (attestRuntime 1)
      Journal.attestApplied h j
      Root.retire h
      attestReceipt h expected
      lift (attestRuntime 2)
      attestReceipt h expected

end CakeAutorate.UciTransaction
