/-
# The reader of the scheduler's policy

`SchedulerConfigReader` of `operations/scheduler_config.rs`, among other processes that stage,
commit and revert changes of the two packages it asks `uci` about. `Uci` is what libuci holds and
prints.

Every `uci set`, `commit` and `revert` gives the files that it writes an identity that they never
had before. So a policy that is answered again from the cache is the one in force.
-/

import CakeAutorate.SchedulerConfig.Snapshot
import CakeAutorate.Syscall.Faults
import CakeAutorate.Syscall.Interference

namespace CakeAutorate.SchedulerConfig

open Wire Syscall Function

/-- `POLICY_PACKAGES`. -/
inductive Package where
  | cakeAutorate
  | sqm
  deriving DecidableEq

def policyPackages : List Package := [.cakeAutorate, .sqm]

/-- The committed file of a package and the file of its staged changes. -/
inductive PolicyFile where
  | config (package : Package)
  | delta (package : Package)
  deriving DecidableEq

def policyFiles : List PolicyFile :=
  [.config .cakeAutorate, .delta .cakeAutorate, .config .sqm, .delta .sqm]

structure FileIdentity where
  device : ℕ
  inode : ℕ
  size : ℕ
  modified : ℤ × ℤ
  changed : ℤ × ℤ
  deriving DecidableEq

/-- What libuci holds of a package, and how the tool prints it. -/
structure Uci (Config Change : Type) where
  apply : Config → Change → Config
  printed : Config → Text
  line : Change → Text

/-- A package: the committed configuration, and the staged changes in their order. -/
structure Staging (Config Change : Type) where
  committed : Config
  staged : List Change

abbrev Policy (Config Change : Type) := Package → Staging Config Change

/-- What the cache of the reader holds: the files as they were inspected, and the answer. -/
structure Last (Instance : Type) where
  inputs : List (Option FileIdentity)
  committed : Bool
  snapshot : SchedulerConfigSnapshot Instance

section Reader

variable {Config Change Instance : Type}

def Clean (m : Policy Config Change) : Prop := ∀ p, (m p).staged = []

/-- `uci show`: the committed package with its staged changes applied. -/
def Uci.show_ (uci : Uci Config Change) (p : Staging Config Change) : Text :=
  uci.printed (p.staged.foldl uci.apply p.committed)

/-- `uci changes`: the staged changes. -/
def Uci.changes (uci : Uci Config Change) (p : Staging Config Change) : Text :=
  p.staged.flatMap uci.line

/-- `output.trim().is_empty()`. -/
def blank (output : Text) : Bool := (Routing.trim output).isEmpty

/-- The packages, the files and the reader.  `had` holds the identities that a file has had;
`since` the policies in force from the start of the last read on, and `replies` whether its
queries found no change; `origin` is `since` of the read that filled the cache. -/
structure World (Config Change Instance : Type) where
  policy : Policy Config Change
  identity : PolicyFile → Option FileIdentity
  had : PolicyFile → List (Option FileIdentity)
  last : Option (Last Instance)
  origin : List (Policy Config Change)
  since : List (Policy Config Change)
  replies : List Bool

namespace World

variable (w : World Config Change Instance)

def started : World Config Change Instance := { w with since := [w.policy], replies := [] }

def setPackage (p : Package) (staging : Staging Config Change) : World Config Change Instance :=
  { w with
    policy := update w.policy p staging
    since := w.since ++ [update w.policy p staging] }

def touch (f : PolicyFile) (i : FileIdentity) : World Config Change Instance :=
  { w with
    identity := update w.identity f (some i)
    had := update w.had f (some i :: w.had f) }

def inputs : List (Option FileIdentity) := policyFiles.map w.identity

/-- The policies in force while the read that asked `uci` for the answer of this one ran. -/
def moments : List (Policy Config Change) := if w.replies = [] then w.origin else w.since

end World

/-- A `uci set`, `uci commit` or `uci revert` of somebody else. -/
inductive Foreign (uci : Uci Config Change) :
    World Config Change Instance → World Config Change Instance → Prop where
  | set (w : World Config Change Instance) (p : Package) (change : Change) (i : FileIdentity) :
      some i ∉ w.had (.delta p) →
      Foreign uci w ((w.setPackage p ⟨(w.policy p).committed, (w.policy p).staged ++ [change]⟩).touch
        (.delta p) i)
  | commit (w : World Config Change Instance) (p : Package) (i j : FileIdentity) :
      some i ∉ w.had (.config p) → some j ∉ w.had (.delta p) →
      Foreign uci w (((w.setPackage p
        ⟨(w.policy p).staged.foldl uci.apply (w.policy p).committed, []⟩).touch (.config p) i).touch
          (.delta p) j)
  | revert (w : World Config Change Instance) (p : Package) (kept : List Change) (i : FileIdentity) :
      kept.Sublist (w.policy p).staged → some i ∉ w.had (.delta p) →
      Foreign uci w ((w.setPackage p ⟨(w.policy p).committed, kept⟩).touch (.delta p) i)

/-- The steps of a read. -/
inductive Call (Instance : Type) where
  | inspect (f : PolicyFile)
  | recall
  | forget
  | uciChanges (p : Package)
  | uciShow
  | remember (last : Last Instance)

abbrev Reply : Call Instance → Type
  | .inspect _ => Except Unit (Option FileIdentity)
  | .recall => Option (Last Instance)
  | .uciChanges _ => Except String Text
  | .uciShow => Except String Text
  | _ => Unit

def perform (uci : Uci Config Change) :
    (c : Call Instance) → World Config Change Instance → Reply c × World Config Change Instance
  | .inspect f, w => (.ok (w.identity f), w)
  | .recall, w => (w.last, w)
  | .forget, w => ((), { w with last := none })
  | .uciChanges p, w =>
    (.ok (uci.changes (w.policy p)),
      { w with replies := w.replies ++ [blank (uci.changes (w.policy p))] })
  | .uciShow, w => (.ok (uci.show_ (w.policy .cakeAutorate)), w)
  | .remember last, w => ((), { w with last := some last, origin := w.since })

def Refused : (c : Call Instance) → World Config Change Instance → Reply c →
    World Config Change Instance → Prop
  | .inspect _, w, r, w' => w' = w ∧ r = .error ()
  | .uciChanges _, w, r, w' => w' = w ∧ ∃ e, r = .error e
  | .uciShow, w, r, w' => w' = w ∧ ∃ e, r = .error e
  | _, _, _, _ => False

abbrev Read (Instance α : Type) := Program (Call Instance) Reply String α

/-- `SchedulerConfigReader::inputs`. -/
def inspectAll : List PolicyFile → Read Instance (Option (List (Option FileIdentity)))
  | [] => pure (some [])
  | f :: rest => .call (.inspect f) fun
    | .error _ => pure none
    | .ok input => do
      let inputs ← inspectAll rest
      return inputs.map (input :: ·)

def configurationCommitted : List Package → Read Instance Bool
  | [] => pure true
  | p :: rest => .call (.uciChanges p) fun
    | .error e => throw e
    | .ok output => if !blank output then pure false else configurationCommitted rest

def reusable (inputs : Option (List (Option FileIdentity))) (last : Option (Last Instance)) :
    Option (Last Instance) :=
  last.filter fun last => inputs = some last.inputs

variable (parseInstance : Text → RawSection → Except String Instance)

def scheduledInstances : Read Instance (SchedulerConfigSnapshot Instance) :=
  .call .uciShow fun
    | .error e => throw e
    | .ok raw => .lift (parseScheduledInstances parseInstance raw)

/-- `self.last = Some(..)`, when the files could be inspected. -/
def remember (inputs : Option (List (Option FileIdentity))) (committed : Bool)
    (snapshot : SchedulerConfigSnapshot Instance) :
    Read Instance (Bool × SchedulerConfigSnapshot Instance) :=
  match inputs with
  | none => pure (committed, snapshot)
  | some inputs => .call (.remember ⟨inputs, committed, snapshot⟩) fun _ =>
    pure (committed, snapshot)

/-- `SchedulerConfigReader::read`, after the cache. -/
def query (inputs : Option (List (Option FileIdentity))) :
    Read Instance (Bool × SchedulerConfigSnapshot Instance) :=
  .call .forget fun _ => do
    let committed ← configurationCommitted policyPackages
    let snapshot ← scheduledInstances parseInstance
    remember inputs committed snapshot

def read : Read Instance (Bool × SchedulerConfigSnapshot Instance) := do
  let inputs ← inspectAll policyFiles
  .call .recall fun last =>
    match reusable inputs last with
    | some last => pure (last.committed, last.snapshot)
    | none => query parseInstance inputs

end Reader
end CakeAutorate.SchedulerConfig
