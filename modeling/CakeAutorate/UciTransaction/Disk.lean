/-
# The config directory and the `.start-uci` workspace

The state that `operations/uci_transaction.rs` works on: the two public
packages of the config directory, the private directory `.start-uci` with its
`lock`, and in it the `pending` and `garbage` directories, each holding at most
the ten names of `NAMES`.

One call here is one system call of the source.  Renames are atomic, a write
that is interrupted leaves a prefix of its bytes, and what was written before a
call is still there after a crash (every write of the source is followed by an
`fsync` of the file and of its directory before the next step relies on it).
Inode numbers are never reused.  An open file keeps its contents: files are
replaced, never written in place.
-/

import CakeAutorate.Syscall.Program
import CakeAutorate.Syscall.Sha256

namespace CakeAutorate.UciTransaction

open Syscall Function

/-- `PACKAGES`, in order. -/
inductive Package where
  | cakeAutorate
  | sqm
  deriving DecidableEq

namespace Package

def name : Package → Bytes
  | .cakeAutorate => ascii "cake-autorate"
  | .sqm => ascii "sqm"

/-- The array `[a, b]` over the two packages. -/
def pick {α : Type} (a b : α) : Package → α
  | .cakeAutorate => a
  | .sqm => b

@[simp] theorem pick_cakeAutorate {α : Type} (a b : α) : pick a b .cakeAutorate = a := rfl
@[simp] theorem pick_sqm {α : Type} (a b : α) : pick a b .sqm = b := rfl

end Package

/-- The names a transaction directory may hold. -/
inductive Entry where
  | owner
  | intent
  | swap (i : Package)
  | readyTmp
  | ready
  | accepted
  | acceptedTmp
  | displaced
  | displacedTmp
  deriving DecidableEq

/-- `NAMES`. -/
def Entry.all : List Entry :=
  [.owner, .intent, .swap .cakeAutorate, .swap .sqm, .readyTmp, .ready, .accepted, .acceptedTmp,
    .displaced, .displacedTmp]

theorem Entry.mem_all (e : Entry) : e ∈ Entry.all := by
  rcases e with _ | _ | (_ | _) | _ | _ | _ | _ | _ | _ <;> simp [Entry.all]

/-- `name.ends_with(".swap")`. -/
def Entry.isSwap : Entry → Bool
  | .swap _ => true
  | _ => false

abbrev Work := Directory Entry

/-- The two places of a transaction directory. -/
inductive Place where
  | pending
  | garbage

/-- The directories the transaction opens and attests. -/
inductive Dir where
  | config
  | root
  | work (p : Place)

/-- The files it opens. -/
inductive Loc where
  | package (i : Package)
  | entry (p : Place) (e : Entry)

/-- What the machine supplies: the effective user and its group, the device,
the clock at each event, SHA-256 in lower-case hex and the JSON codec. -/
structure Host where
  uid : ℕ
  gid : ℕ
  dev : ℕ
  clock : ℕ → Timestamp
  sha256 : Bytes → Bytes
  serde : Serde
  sha256_length : ∀ bytes, (sha256 bytes).length = 64
  sha256_hex : ∀ bytes, (sha256 bytes).all hexDigit = true

/-- The disk: the public packages, `.start-uci`, its `lock` and the two transaction directories. 
`supply` numbers the events, and with them the inodes.  The last two fields are history that no call
reads. -/
structure Disk where
  packages : Package → Inode
  root : Bool
  lock : Bool
  pending : Option Work
  garbage : Option Work
  supply : ℕ
  accepting : Bool
  accepted : Bool

namespace Disk

section

variable (s : Disk)

def work : Place → Option Work
  | .pending => s.pending
  | .garbage => s.garbage

def setWork : Place → Option Work → Disk
  | .pending, w => { s with pending := w }
  | .garbage, w => { s with garbage := w }

def lookup : Loc → Option Inode
  | .package i => some (s.packages i)
  | .entry p e => (s.work p).bind (· e)

def hasDir : Dir → Bool
  | .config => true
  | .root => s.root
  | .work p => (s.work p).isSome

def tick : Disk := { s with supply := s.supply + 1 }

/-- The history of a rename to the name `e`. -/
def note (e : Entry) : Disk :=
  { s with accepted := s.accepted || (s.accepting && e == .accepted) }

/-- Change the file `e` of the directory at `p`, if both exist. -/
def modify (p : Place) (e : Entry) (g : Inode → Inode) : Disk :=
  match s.work p with
  | some w =>
    match w e with
    | some f => s.setWork p (some (update w e (some (g f))))
    | none => s
  | none => s

end

end Disk

/-- `Identity`: what `stat` says of a file. -/
structure Identity where
  dev : ℕ
  ino : ℕ
  len : ℕ
  uid : ℕ
  gid : ℕ
  mode : ℕ
  mtime : ℤ
  mtimeNs : ℤ
  ctime : ℤ
  ctimeNs : ℤ
  deriving DecidableEq

def Identity.of (h : Host) (f : Inode) : Identity where
  dev := h.dev
  ino := f.ino
  len := f.bytes.length
  uid := f.uid
  gid := f.gid
  mode := f.mode
  mtime := f.mtime.sec
  mtimeNs := f.mtime.nsec
  ctime := f.ctime.sec
  ctimeNs := f.ctime.nsec

/-- `Version`: an identity and the digest of the contents. -/
structure Version where
  identity : Identity
  sha256 : Bytes
  deriving DecidableEq

def Version.of (h : Host) (bytes : Bytes) (identity : Identity) : Version :=
  ⟨identity, h.sha256 bytes⟩

/-- `Version::matches`: a moved file may have another `ctime`. -/
def Version.matches (h : Host) (v : Version) (bytes : Bytes) (actual : Identity) (moved : Bool) :
    Bool :=
  let actual := if moved then
    { actual with ctime := v.identity.ctime, ctimeNs := v.identity.ctimeNs } else actual
  actual == v.identity && h.sha256 bytes == v.sha256

/-- Which of the three exchanges of a public package with its swap this is:
the publication, the restore, or the restore's own undo, which has just seen
the version `displaced` at the public name. -/
inductive Exchange where
  | publish
  | restore
  | undo (displaced : Version)

/-- The system calls of the transaction. -/
inductive Call where
  /-- `symlink_metadata` of a directory. -/
  | existsDir (d : Dir)
  /-- `DirBuilder::create` with mode `0700`; also true when it exists. -/
  | mkdir (d : Dir)
  | openLock
  | attest (d : Dir)
  | names (p : Place)
  /-- `symlink_metadata` of a file. -/
  | stat (l : Loc)
  /-- `open` for reading, `O_NOFOLLOW`. -/
  | open (l : Loc)
  /-- `fstat` of an open file, for its link count: its name still leads to it. -/
  | linked (l : Loc) (f : Inode)
  | flock (f : Inode)
  /-- `open` with `O_CREAT | O_EXCL` and mode `0600`. -/
  | create (p : Place) (e : Entry)
  /-- `write_all` to the file just created. -/
  | write (p : Place) (e : Entry) (bytes : Bytes)
  /-- `fchown` and `fchmod` of a swap. -/
  | chown (p : Place) (e : Entry) (uid gid : ℕ)
  | chmod (p : Place) (e : Entry) (mode : ℕ)
  /-- `fsync` of a file or a directory. -/
  | fsync
  | unlink (p : Place) (e : Entry)
  | rmdir (p : Place)
  /-- `renameat2` with `RENAME_NOREPLACE` inside a transaction directory. -/
  | rename (p : Place) (old new : Entry)
  | retire
  /-- `renameat2` with `RENAME_EXCHANGE` of a package and its swap in `pending`. -/
  | exchange (i : Package) (site : Exchange)

/-- How `renameat2` answers: done, `EEXIST`, or any other error. -/
inductive Renamed where
  | done
  | targetExists
  | failed

abbrev Reply : Call → Type
  | .names _ => List Entry
  | .stat _ => Option Inode
  | .open _ => Option Inode
  | .fsync => Unit
  | .write .. => Unit
  | .rename .. | .retire | .exchange .. => Renamed
  | .existsDir _ | .mkdir _ | .openLock | .attest _ | .linked .. | .flock _ | .create ..
  | .chown .. | .chmod .. | .unlink .. | .rmdir _ => Bool

variable (h : Host)

/-- The new file of `create`: empty, private, with the next inode number. -/
def newFile (n : ℕ) : Inode where
  ino := n
  mode := 0o100600
  uid := h.uid
  gid := h.gid
  mtime := h.clock n
  ctime := h.clock n
  bytes := []

def exec : (c : Call) → Disk → Reply c × Disk
  | .existsDir d, s => (s.hasDir d, s)
  | .mkdir .config, s => (true, s)
  | .mkdir .root, s => (true, { s with root := true })
  | .mkdir (.work p), s =>
    match s.work p with
    | some _ => (true, s)
    | none => (true, s.setWork p (some fun _ => none))
  | .openLock, s => (s.root, { s with lock := s.lock || s.root })
  | .attest d, s => (s.hasDir d, s)
  | .names p, s => ((s.work p).elim [] fun w => w.names Entry.all, s)
  | .stat l, s => (s.lookup l, s)
  | .open l, s => (s.lookup l, s)
  | .linked l f, s => ((s.lookup l).any fun g => g.ino = f.ino, s)
  | .flock _, s => (true, s)
  | .create p e, s =>
    match s.work p with
    | some w =>
      match w e with
      | none => (true, (s.setWork p (some (update w e (some (newFile h s.supply))))).tick)
      | some _ => (false, s)
    | none => (false, s)
  | .write p e bytes, s => ((), (s.modify p e fun f => f.append bytes (h.clock s.supply)).tick)
  | .chown p e uid gid, s =>
    (true, (s.modify p e fun f => { f with uid, gid, ctime := h.clock s.supply }).tick)
  | .chmod p e mode, s =>
    (true, (s.modify p e fun f => { f with mode, ctime := h.clock s.supply }).tick)
  | .fsync, s => ((), s)
  | .unlink p e, s =>
    match s.work p with
    | some w =>
      match w e with
      | some _ => (true, s.setWork p (some (update w e none)))
      | none => (false, s)
    | none => (false, s)
  | .rmdir p, s =>
    match s.work p with
    | some w => if w.names Entry.all = [] then (true, s.setWork p none) else (false, s)
    | none => (false, s)
  | .rename p old new, s =>
    match s.work p with
    | some w =>
      match w old, w new with
      | some f, none =>
        (.done, ((s.setWork p (some (update (update w old none) new
          (some (f.touch (h.clock s.supply)))))).note new).tick)
      | some _, some _ => (.targetExists, s)
      | none, _ => (.failed, s)
    | none => (.failed, s)
  | .retire, s =>
    match s.pending, s.garbage with
    | some w, none => (.done, { s with pending := none, garbage := some w })
    | some _, some _ => (.targetExists, s)
    | none, _ => (.failed, s)
  | .exchange i _, s =>
    match s.pending with
    | some w =>
      match w (.swap i) with
      | some f =>
        (.done, ({ s with
          packages := update s.packages i (f.touch (h.clock s.supply))
          pending := some (update w (.swap i)
            (some ((s.packages i).touch (h.clock s.supply)))) } : Disk).tick)
      | none => (.failed, s)
    | none => (.failed, s)

def torn : Call → Disk → Disk → Prop
  | .write p e bytes, s, s' => ∃ part, part <+: bytes ∧ s' = (exec h (.write p e part) s).2
  | _, _, _ => False

end CakeAutorate.UciTransaction
