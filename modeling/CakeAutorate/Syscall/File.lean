/-
# Files and directories

A regular file is an inode: its number, owner, mode, times and bytes.  A
directory is a partial map from the names it may hold to inodes; each inode has
one name.  The clock is read once per change, so a file's times say when its
data (`mtime`) and when its inode (`ctime`) last changed; a rename changes
`ctime` only.
-/

import Mathlib.Data.List.Infix
import Mathlib.Logic.Function.Basic

namespace CakeAutorate.Syscall

abbrev Bytes := List UInt8

def ascii (s : String) : Bytes := s.toList.map fun c => UInt8.ofNat c.toNat

/-- A `timespec`: seconds and nanoseconds within the second. -/
structure Timestamp where
  sec : ℤ
  nsec : ℕ
  nsec_lt : nsec < 1000000000

/-- A regular file. -/
structure Inode where
  ino : ℕ
  mode : ℕ
  uid : ℕ
  gid : ℕ
  mtime : Timestamp
  ctime : Timestamp
  bytes : Bytes

namespace Inode

/-- A rename, `chmod` or `chown` touches the inode, not the data. -/
def touch (f : Inode) (t : Timestamp) : Inode := { f with ctime := t }

def append (f : Inode) (bytes : Bytes) (t : Timestamp) : Inode :=
  { f with bytes := f.bytes ++ bytes, mtime := t, ctime := t }

def SameFile (f g : Inode) : Prop := f.touch g.ctime = g

variable (f : Inode) (t : Timestamp)

@[simp] theorem touch_bytes : (f.touch t).bytes = f.bytes := rfl
@[simp] theorem touch_ino : (f.touch t).ino = f.ino := rfl
@[simp] theorem touch_uid : (f.touch t).uid = f.uid := rfl
@[simp] theorem touch_mode : (f.touch t).mode = f.mode := rfl
@[simp] theorem touch_ctime : (f.touch t).ctime = t := rfl
@[simp] theorem touch_touch (t u : Timestamp) : (f.touch t).touch u = f.touch u := rfl

@[simp] theorem sameFile_refl : f.SameFile f := rfl

@[simp] theorem sameFile_touch : f.SameFile (f.touch t) := rfl

theorem SameFile.touch {f g : Inode} (h : f.SameFile g) (t : Timestamp) : f.SameFile (g.touch t) := by
  rw [← h]
  rfl

theorem SameFile.bytes_eq {f g : Inode} (h : f.SameFile g) : g.bytes = f.bytes := by
  rw [← h]; rfl

theorem SameFile.ino_eq {f g : Inode} (h : f.SameFile g) : g.ino = f.ino := by
  rw [← h]; rfl

end Inode

/-- A directory whose names are drawn from `N`. -/
abbrev Directory (N : Type) := N → Option Inode

/-- The names of a directory, in the order of `all`. -/
def Directory.names {N : Type} (all : List N) (d : Directory N) : List N :=
  all.filter fun n => (d n).isSome

theorem Directory.mem_names {N : Type} {all : List N} {d : Directory N} {n : N} :
    n ∈ d.names all ↔ n ∈ all ∧ ∃ f, d n = some f := by
  simp [names, Option.isSome_iff_exists]

end CakeAutorate.Syscall
