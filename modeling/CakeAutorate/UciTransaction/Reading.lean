/-
# Which functions only read

Most calls of the transaction look at the disk and leave it alone: the
attestations, `stat`, `open`, `read_dir`, `flock` and `fsync`. The functions
made of these calls alone are listed here. Whatever such a function answers, it
has changed nothing.
-/

import CakeAutorate.UciTransaction.Journal

namespace CakeAutorate.UciTransaction

open Syscall Syscall.Program Journal

/-- A call that changes nothing and looks only at files in `L`. -/
def Call.At (L : Loc → Prop) : Call → Prop
  | .stat l | .open l | .linked l _ => L l
  | .existsDir _ | .attest _ | .names _ | .flock _ | .fsync => True
  | _ => False

abbrev ReadsAt {α : Type} (L : Loc → Prop) (p : Prog α) : Prop := p.Only (Call.At L)

abbrev ReadsOnly {α : Type} (p : Prog α) : Prop := ReadsAt (fun _ => True) p

variable {L : Loc → Prop}

theorem Call.At.exec_eq {c : Call} (hc : c.At L) (h : Host) (s : Disk) : (exec h c s).2 = s := by
  cases c <;> first | rfl | exact hc.elim

theorem Call.At.not_torn {c : Call} (hc : c.At L) (h : Host) (s s' : Disk) : ¬torn h c s s' := by
  cases c <;> first | exact fun ht => ht | exact hc.elim

variable {h : Host}

theorem readsAt_lift {α : Type} (r : Except String α) : ReadsAt L (lift r : Prog α) := trivial

theorem readsAt_call {α : Type} {c : Call} {k : Reply c → Prog α} (hc : c.At L)
    (hk : ∀ r, ReadsAt L (k r)) : ReadsAt L (sys c >>= k) :=
  ⟨hc, hk⟩

theorem readsAt_ensure (ok : Bool) (error : String) : ReadsAt L (ensure ok error) := by
  cases ok <;> trivial

theorem readsAt_attest (d : Dir) : ReadsAt L (attest d) :=
  readsAt_call (by trivial) fun _ => readsAt_ensure _ _

theorem readsAt_openDir (d : Dir) : ReadsAt L (openDir d false) :=
  readsAt_call (by trivial) fun _ => (readsAt_ensure _ _).bind fun _ => readsAt_attest d

theorem readsAt_sync (d : Dir) : ReadsAt L (sync d) :=
  (readsAt_attest d).bind fun _ => only_perform (by trivial)

theorem readsAt_existsDir (parent child : Dir) : ReadsAt L (existsDir parent child) :=
  (readsAt_attest parent).bind fun _ => only_perform (by trivial)

variable {p : Place} {i : Package}

theorem readsAt_existsEntry {e : Entry} (hl : L (.entry p e)) : ReadsAt L (existsEntry p e) :=
  (readsAt_attest _).bind fun _ => readsAt_call hl fun _ => trivial

theorem readsAt_fileIdentity {l : Loc} (hl : L l) (f : Inode) (isPrivate : Bool) :
    ReadsAt L (fileIdentity h l f isPrivate) := by
  refine readsAt_call hl fun named => ?_
  cases named with
  | none => trivial
  | some named =>
    refine (readsAt_ensure _ _).bind fun _ => ?_
    cases isPrivate with
    | false => exact (readsAt_ensure _ _).bind fun _ => trivial
    | true =>
      exact readsAt_call hl fun _ => (readsAt_ensure _ _).bind fun _ =>
        (readsAt_ensure _ _).bind fun _ => trivial

theorem readsAt_readFile {l : Loc} (hl : L l) (maximum : ℕ) (isPrivate : Bool) :
    ReadsAt L (readFile h l maximum isPrivate) := by
  refine readsAt_call hl fun file => ?_
  cases file with
  | none => trivial
  | some file =>
    exact (readsAt_fileIdentity hl _ _).bind fun _ => (readsAt_ensure _ _).bind fun _ =>
      (readsAt_fileIdentity hl _ _).bind fun _ => (readsAt_ensure _ _).bind fun _ => trivial

theorem readsAt_regular {l : Loc} (hl : L l) (maximum : ℕ) (isPrivate : Bool) :
    ReadsAt L (regular h l maximum isPrivate) :=
  (readsAt_readFile hl _ _).bind fun _ => readsAt_call hl fun _ =>
    (readsAt_ensure _ _).bind fun _ => trivial

theorem readsAt_readReceipt {e : Entry} (hl : L (.entry p e)) : ReadsAt L (readReceipt h p e) :=
  (readsAt_regular hl _ _).bind fun _ => readsAt_lift _

theorem readsAt_eachPackage {f : Package → Prog Unit} (hf : ∀ i, ReadsAt L (f i)) :
    ReadsAt L (eachPackage f) :=
  (hf _).bind fun _ => hf _

theorem readsAt_rootAttest : ReadsAt L Root.attest :=
  (readsAt_attest _).bind fun _ => readsAt_attest _

theorem readsAt_inspectEach (hl : ∀ e, L (.entry p e)) (es : List Entry) :
    ReadsAt L (Root.inspectEach h p es) := by
  induction es with
  | nil => trivial
  | cons e es ih => exact (readsAt_regular (hl e) _ _).bind fun _ => ih

theorem readsAt_inspect (hl : ∀ e, L (.entry p e)) : ReadsAt L (Root.inspect h p) :=
  readsAt_rootAttest.bind fun _ => (readsAt_attest _).bind fun _ =>
    readsAt_call (by trivial) fun _ => (readsAt_inspectEach hl _).bind fun _ => trivial

theorem readsAt_load (hl : ∀ e, L (.entry .pending e)) : ReadsAt L (load h) :=
  (readsAt_inspect hl).bind fun _ => (readsAt_regular (hl _) _ _).bind fun _ =>
    (readsAt_ensure _ _).bind fun _ => (readsAt_readReceipt (hl _)).bind fun _ =>
    (readsAt_readReceipt (hl _)).bind fun _ => readsAt_lift _

theorem readsAt_publicMatches (hl : L (.package i)) (v : Version) (moved : Bool) :
    ReadsAt L (publicMatches h i v moved) :=
  readsAt_rootAttest.bind fun _ => (readsAt_regular hl _ _).bind fun _ => trivial

theorem readsAt_readSwap (hl : L (.entry .pending (.swap i))) : ReadsAt L (readSwap h i) :=
  readsAt_regular hl _ _

variable (j : Journal)

theorem readsAt_swapToRestore (hl : ∀ e, L (.entry .pending e)) :
    ReadsAt L (j.swapToRestore h i) := by
  refine (readsAt_readSwap (hl _)).bind fun displaced => (readsAt_readSwap (hl _)).bind fun file => ?_
  simp only [pure_eq, throw_eq, ret_ok_bind, ret_error_bind]
  split
  · split <;> trivial
  · refine (readsAt_readReceipt (hl _)).bind fun _ => (readsAt_lift _).bind fun _ =>
      (readsAt_lift _).bind fun _ => ?_
    split
    · trivial
    · split <;> trivial

theorem readsOnly_inspect (p : Place) : ReadsOnly (Root.inspect h p) :=
  readsAt_inspect fun _ => trivial

theorem readsOnly_load : ReadsOnly (load h) := readsAt_load fun _ => trivial

theorem readsOnly_regular (l : Loc) (maximum : ℕ) (isPrivate : Bool) :
    ReadsOnly (regular h l maximum isPrivate) :=
  readsAt_regular trivial _ _

theorem readsOnly_readReceipt (p : Place) (e : Entry) : ReadsOnly (readReceipt h p e) :=
  readsAt_readReceipt trivial

theorem readsOnly_configAttest (c : PreparedConfig h) : ReadsOnly c.attest :=
  (readsAt_attest _).bind fun _ => readsAt_eachPackage fun _ =>
    (readsAt_readFile trivial _ _).bind fun _ => readsAt_ensure _ _

theorem readsOnly_lockSources : ReadsOnly (lockSources h) :=
  readsAt_rootAttest.bind fun _ => readsAt_eachPackage fun _ =>
    (readsOnly_regular _ _ _).bind fun _ => readsAt_call (by trivial) fun _ => readsAt_ensure _ _

variable (i : Package)

theorem readsOnly_publicMatches (v : Version) (moved : Bool) :
    ReadsOnly (publicMatches h i v moved) :=
  readsAt_publicMatches trivial _ _

theorem readsOnly_versionAt (l : Loc) (v : Version) : ReadsOnly (versionAt h l v) := by
  refine readsAt_call (by trivial) fun named => ?_
  cases named with
  | none => trivial
  | some named => exact (readsOnly_regular _ _ _).bind fun _ => trivial

theorem readsOnly_versionBytes (v : Version) : ReadsOnly (versionBytes h i v) := by
  refine (readsOnly_versionAt _ _).bind fun bytes => ?_
  cases bytes with
  | some bytes => trivial
  | none =>
    refine (readsOnly_versionAt _ _).bind fun bytes => ?_
    cases bytes <;> trivial

theorem readsOnly_recheck (i k : Package) : ReadsOnly (j.recheck h i k) := by
  refine (readsOnly_publicMatches _ _ _).bind fun same => ?_
  cases same <;> trivial

theorem readsOnly_attestAppliedMember :
    ReadsOnly (j.attestAppliedMember h i) := by
  refine (readsOnly_publicMatches _ _ _).bind fun same => ?_
  cases same with
  | false => trivial
  | true =>
    cases hc : j.changed i with
    | false => trivial
    | true =>
      refine (readsAt_readSwap trivial).bind fun file => ?_
      cases (j.before i).matchesFile h file true <;> trivial

theorem readsOnly_attestApplied : ReadsOnly (j.attestApplied h) :=
  (readsOnly_inspect _).bind fun _ => readsAt_eachPackage (readsOnly_attestAppliedMember j)

theorem readsOnly_attestReceipt (versions : Package → Version) :
    ReadsOnly (attestReceipt h versions) :=
  (readsAt_openDir _).bind fun _ => (readsAt_eachPackage fun _ =>
    (readsOnly_regular _ _ _).bind fun _ => readsAt_ensure _ _).bind fun _ => readsAt_attest _

theorem readsOnly_publicVersion : ReadsOnly (publicVersion h i) :=
  readsAt_rootAttest.bind fun _ => readsOnly_regular _ _ _

theorem readsOnly_recoveryView : ReadsOnly (j.recoveryView h i) := by
  refine (readsOnly_versionBytes _ _).attempt.bind fun after => ?_
  cases after with
  | error e => trivial
  | ok after =>
    refine (readsOnly_versionBytes _ _).attempt.bind fun before => ?_
    cases before with
    | ok before => trivial
    | error e =>
      dsimp only
      split
      · refine (readsOnly_readReceipt _ _).bind fun _ => (readsAt_lift _).bind fun _ =>
          (readsAt_lift _).bind fun _ => ?_
        split
        · trivial
        · exact (readsOnly_versionBytes _ _).bind fun _ => trivial
      · trivial

theorem readsOnly_recoveryViews : ReadsOnly (j.recoveryViews h) :=
  (readsOnly_recoveryView _ _).bind fun _ => (readsOnly_recoveryView _ _).bind fun _ => trivial

theorem readsOnly_viewBefore (after : Bytes) :
    ReadsOnly (j.viewBefore h i after) := by
  refine (readsOnly_versionBytes _ _).attempt.bind fun before => ?_
  cases before with
  | ok before => trivial
  | error e =>
    dsimp only
    have hlast : ReadsOnly (do
        let file ← publicVersion h i
        return (file.bytes, after) : Prog (Bytes × Bytes)) :=
      (readsOnly_publicVersion _).bind fun _ => trivial
    split
    · refine (readsAt_existsEntry trivial).bind fun there => ?_
      cases there with
      | false => exact hlast
      | true =>
        refine (readsOnly_readReceipt _ _).bind fun proof => ?_
        split
        · exact (readsAt_lift _).bind fun _ => (readsOnly_versionBytes _ _).bind fun _ => trivial
        · exact hlast
    · trivial

theorem readsOnly_recoveryViewKeepingLater :
    ReadsOnly (j.recoveryViewKeepingLater h i) := by
  refine (readsOnly_versionBytes _ _).attempt.bind fun after => ?_
  cases after with
  | ok after => exact readsOnly_viewBefore j i after
  | error e =>
    dsimp only
    split
    · exact (readsOnly_publicVersion _).bind fun file => readsOnly_viewBefore j i file.bytes
    · trivial

theorem readsOnly_recoveryViewsKeepingLater :
    ReadsOnly (j.recoveryViewsKeepingLater h) :=
  (readsOnly_recoveryViewKeepingLater _ _).bind fun _ =>
    (readsOnly_recoveryViewKeepingLater _ _).bind fun _ => trivial

theorem readsOnly_originalsPublic : ReadsOnly (originalsPublic h) := by
  refine (readsOnly_readReceipt _ _).bind fun _ => (readsAt_lift _).bind fun entries =>
    readsAt_eachPackage fun i => (readsAt_lift _).bind fun _ =>
      (readsOnly_regular _ _ _).bind fun _ => ?_
  split <;> trivial

end CakeAutorate.UciTransaction
