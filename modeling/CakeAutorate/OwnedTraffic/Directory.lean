/-
# The directory of a job

The files that owned accounting keeps in a job's directory, the journal of the debits that were
appended, and the kernel's counters.  A call may be refused or cut by a crash.  The creation of a
file and the write into it are one call: what is left when it does not come to its end is the
file with some beginning of the bytes, none of them included.  A rename happens or does not.  An
append may have happened although it is reported as failed.

Three fields of `World` are only for the statements: the range of the counters that a debit
covers, the writes that were cut, and whether the counters were read before they were frozen.
-/

import CakeAutorate.OwnedTraffic.Checkpoint
import CakeAutorate.Syscall.Faults

namespace CakeAutorate.OwnedTraffic

open Syscall Syscall.Program Option Protocol

/-- The files of a worker: `owned-traffic-checkpoint-{worker}` with its `owned-intent` and
`owned-next`, and `owned-traffic-cutoff-{worker}` with its `cutoff-next` and
`cutoff-incomplete`. -/
inductive Name where
  | checkpoint
  | ownedIntent
  | ownedNext
  | cutoff
  | cutoffNext
  | cutoffIncomplete
  deriving DecidableEq

/-- A debit of the journal, with the counters that it was computed from. -/
structure Appended where
  debit : SpeedtestTrafficDebit
  since : OwnedTrafficSnapshot
  upto : OwnedTrafficSnapshot

/-- A write that did not come to its end: what was left of which bytes. -/
structure Cut where
  name : Name
  left : Bytes
  whole : Bytes

/-- The state that the calls act on. -/
structure World where
  files : Name → Option Bytes
  journal : List Appended
  kernel : OwnedTrafficSnapshot
  frozen : Bool
  /-- The counters were read while they were not frozen. -/
  early : Bool
  cuts : List Cut

namespace World

variable (w : World)

def set (name : Name) (content : Option Bytes) : World :=
  { w with files := Function.update w.files name content }

def cut (name : Name) (left whole : Bytes) : World :=
  { w.set name (some left) with cuts := w.cuts ++ [⟨name, left, whole⟩] }

def append (a : Appended) : World := { w with journal := w.journal ++ [a] }

variable {w} (name : Name) (content : Option Bytes)

@[simp] theorem set_self :
    (w.set name content).files name = content := by
  simp [set]

theorem set_ne {name other : Name} (h : other ≠ name) (content : Option Bytes) :
    (w.set name content).files other = w.files other := by
  simp [set, Function.update_of_ne h]

@[simp] theorem set_journal :
    (w.set name content).journal = w.journal := rfl

@[simp] theorem cut_self (left whole : Bytes) :
    (w.cut name left whole).files name = some left := set_self name (some left)

theorem cut_ne {name other : Name} (h : other ≠ name) (left whole : Bytes) :
    (w.cut name left whole).files other = w.files other := set_ne h (some left)

end World

/-- What `symlink_metadata` answers. -/
inductive Lstat where
  | found
  | absent
  | error

/-- The calls that succeed or do not. -/
inductive Op where
  | requirePrivateDirectory
  /-- `open_new_private` and `write_all`. -/
  | createNew (name : Name) (bytes : Bytes)
  | syncAll (name : Name)
  /-- `strict_regular_metadata` of a private file, its mode and its links. -/
  | attest (name : Name)
  | rename (source target : Name)
  | removeFile (name : Name)
  | syncDirectory
  | appendDebit (a : Appended)
  | freeze

/-- The calls. -/
inductive Call where
  | run (op : Op)
  | symlinkMetadata (name : Name)
  /-- `read_private_recovery_bounded`. -/
  | read (name : Name) (maximum : ℕ)
  | observe

abbrev Reply : Call → Type
  | .run _ => Bool
  | .symlinkMetadata _ => Lstat
  | .read _ _ => Option Bytes
  | .observe => Option OwnedTrafficSnapshot

abbrev Prog (α : Type) : Type := Program Call Reply String α

def Op.exec : Op → World → Bool × World
  | .requirePrivateDirectory, w => (true, w)
  | .createNew name bytes, w =>
    if (w.files name).isSome then (false, w) else (true, w.set name (some bytes))
  | .syncAll name, w => ((w.files name).isSome, w)
  | .attest name, w => ((w.files name).isSome, w)
  | .rename source target, w =>
    match w.files source with
    | some bytes => (true, (w.set source none).set target (some bytes))
    | none => (false, w)
  | .removeFile name, w =>
    if (w.files name).isSome then (true, w.set name none) else (false, w)
  | .syncDirectory, w => (true, w)
  | .appendDebit a, w => (true, w.append a)
  | .freeze, w => (true, { w with frozen := true })

def Op.Partly : Op → World → World → Prop
  | .createNew name bytes, w, w' => w.files name = none ∧
    ((∃ left, left <+: bytes ∧ left ≠ bytes ∧ w' = w.cut name left bytes) ∨
      w' = w.set name (some bytes))
  | .appendDebit a, w, w' => w' = w.append a
  | _, _, _ => False

def World.observed (w : World) : World := { w with early := w.early || !w.frozen }

def exec : (c : Call) → World → Reply c × World
  | .run op, w => op.exec w
  | .symlinkMetadata name, w => (if (w.files name).isSome then .found else .absent, w)
  | .read name maximum, w => ((w.files name).filter fun bytes => decide (bytes.length ≤ maximum), w)
  | .observe, w => (some w.kernel, w.observed)

def refused : (c : Call) → World → Reply c → World → Prop
  | .run op, w, r, w' => r = false ∧ (w' = w ∨ op.Partly w w')
  | .symlinkMetadata _, w, r, w' => r = .error ∧ w' = w
  | .read _ _, w, r, w' => r = none ∧ w' = w
  | .observe, w, r, w' => r = none ∧ w' = w.observed

def torn : Call → World → World → Prop
  | .run op, w, w' => op.Partly w w'
  | _, _, _ => False

def machine : System World Call Reply := .faulty exec refused torn

def succeed (op : Op) (error : String) : Prog Unit :=
  .call (.run op) fun r => .ret (check r error)

def requirePrivateDirectory : Prog Unit :=
  succeed .requirePrivateDirectory "native Apply recovery path is not a private directory"

def syncDirectory : Prog Unit := succeed .syncDirectory "unable to sync native Apply directory"

def readPrivateRecoveryBounded (name : Name) (maximum : ℕ) (label : String) : Prog Bytes :=
  .call (.read name maximum) fun r => .ret (orError r ("unable to read native Apply " ++ label))

def writeNewPrivateFile (name : Name) (bytes : Bytes) : Prog Unit := do
  succeed (.createNew name bytes) "unable to create private native Apply file"
  succeed (.syncAll name) "unable to sync private recovery file"
  succeed (.attest name) "native Apply recovery file is not private and single-linked"

/-- `symlink_metadata` of a file, for what to do when it is there and when it is not. -/
def whether {α : Type} (name : Name) (error : String) (found absent : Prog α) : Prog α :=
  .call (.symlinkMetadata name) fun
    | .found => found
    | .absent => absent
    | .error => throw error

def replacePrivateFile (path temp : Name) (bytes : Bytes) : Prog Unit := do
  whether temp "unable to inspect native Apply path"
    (do
      succeed (.attest temp) "stale recovery state temporary has multiple links"
      succeed (.removeFile temp) "unable to remove stale recovery state")
    (pure ())
  writeNewPrivateFile temp bytes
  succeed (.rename temp path) "unable to publish recovery state transition"

section Rules

variable {α : Type} {Q : Except String α → World → Prop} {I : World → Prop} {w : World}

theorem wp_ret {r : Except String α} (hI : I w) (hQ : Q r w) : wp machine Q I (.ret r) w :=
  wp_faulty_ret hI hQ

theorem wp_lift {ε : Except String α} (hI : I w) (hQ : Q ε w) : wp machine Q I (Program.lift ε) w :=
  wp_faulty_ret hI hQ

variable {error : String}

section

variable {Q : Except String Unit → World → Prop}

theorem wp_succeed {op : Op} (hI : I w)
    (hdone : (op.exec w).1 = true → I (op.exec w).2 ∧ Q (.ok ()) (op.exec w).2)
    (hkept : (op.exec w).1 = false → (op.exec w).2 = w) (hfail : Q (.error error) w)
    (hpart : ∀ w', op.Partly w w' → I w' ∧ Q (.error error) w') :
    wp machine Q I (succeed op error) w := by
  refine wp_faulty_call hI (fun w' h => (hpart w' h).1) ?_ ?_
  · show wp machine Q I (.ret (check (op.exec w).1 error)) (op.exec w).2
    cases hr : (op.exec w).1 with
    | true =>
      obtain ⟨hI', hQ'⟩ := hdone hr
      exact wp_ret hI' hQ'
    | false =>
      rw [hkept hr]
      exact wp_ret hI hfail
  · rintro r w' ⟨rfl, rfl | h⟩
    · exact wp_ret hI hfail
    · exact wp_ret (hpart w' h).1 (hpart w' h).2

theorem wp_still {op : Op} (hstill : (op.exec w).2 = w) (hpart : ∀ w', ¬op.Partly w w') (hI : I w)
    (hdone : (op.exec w).1 = true → Q (.ok ()) w) (hfail : Q (.error error) w) :
    wp machine Q I (succeed op error) w := by
  refine wp_succeed hI ?_ (fun _ => hstill) hfail fun w' h => absurd h (hpart w')
  intro hr
  rw [hstill]
  exact ⟨hI, hdone hr⟩

theorem wp_requirePrivateDirectory (hI : I w) (hok : Q (.ok ()) w) (herr : ∀ e, Q (.error e) w) :
    wp machine Q I requirePrivateDirectory w :=
  wp_still rfl (fun _ => id) hI (fun _ => hok) (herr _)

theorem wp_syncDirectory (hI : I w) (hok : Q (.ok ()) w) (herr : ∀ e, Q (.error e) w) :
    wp machine Q I syncDirectory w :=
  wp_still rfl (fun _ => id) hI (fun _ => hok) (herr _)

end

variable {name : Name}

theorem wp_read {Q : Except String Bytes → World → Prop} {maximum : ℕ} {label : String} (hI : I w)
    (hok : ∀ bytes, w.files name = some bytes → bytes.length ≤ maximum → Q (.ok bytes) w)
    (herr : ∀ e, Q (.error e) w) :
    wp machine Q I (readPrivateRecoveryBounded name maximum label) w := by
  refine wp_faulty_call hI (fun _ h => absurd h id) ?_ ?_
  · show wp machine Q I (.ret (orError
      ((w.files name).filter fun bytes => decide (bytes.length ≤ maximum)) _)) w
    refine wp_ret hI ?_
    cases hread : (w.files name).filter fun bytes => decide (bytes.length ≤ maximum) with
    | none => exact herr _
    | some bytes =>
      obtain ⟨hfile, hlength⟩ := filter_eq_some_iff.mp hread
      exact hok bytes hfile (of_decide_eq_true hlength)
  · rintro r w' ⟨rfl, rfl⟩
    exact wp_ret hI (herr _)

theorem wp_whether {found absent : Prog α} (hI : I w)
    (hfound : ∀ bytes, w.files name = some bytes → wp machine Q I found w)
    (habsent : w.files name = none → wp machine Q I absent w) (herr : Q (.error error) w) :
    wp machine Q I (whether name error found absent) w := by
  refine wp_faulty_call hI (fun _ h => absurd h id) ?_ ?_
  · cases hname : w.files name with
    | none =>
      have hreply : exec (.symlinkMetadata name) w = (.absent, w) := by
        simp [exec, hname]
      rw [hreply]
      exact habsent hname
    | some bytes =>
      have hreply : exec (.symlinkMetadata name) w = (.found, w) := by
        simp [exec, hname]
      rw [hreply]
      exact hfound bytes hname
  · rintro r w' ⟨rfl, rfl⟩
    exact wp_ret hI herr

theorem wp_writeNewPrivateFile {Q : Except String Unit → World → Prop} {bytes : Bytes} (hI : I w)
    (hcut : w.files name = none → ∀ left, left <+: bytes → left ≠ bytes →
      I (w.cut name left bytes) ∧ ∀ e, Q (.error e) (w.cut name left bytes))
    (hwhole : w.files name = none → I (w.set name (some bytes)) ∧ ∀ r, Q r (w.set name (some bytes)))
    (hnone : ∀ e, Q (.error e) w) : wp machine Q I (writeNewPrivateFile name bytes) w := by
  refine wp_bind (wp_succeed hI ?_ ?_ (hnone _) ?_)
  · intro hr
    have habsent : w.files name = none := by
      by_contra h
      have hsome : (w.files name).isSome = true := isSome_iff_ne_none.mpr h
      simp only [Op.exec, hsome, if_true] at hr
      cases hr
    have hexec : (Op.createNew name bytes).exec w = (true, w.set name (some bytes)) := by
      simp [Op.exec, habsent]
    rw [hexec]
    obtain ⟨hI', hQ'⟩ := hwhole habsent
    refine ⟨hI', wp_bind (wp_still rfl (fun _ => id) hI' ?_ (hQ' _))⟩
    intro _
    exact wp_still rfl (fun _ => id) hI' (fun _ => hQ' _) (hQ' _)
  · intro hr
    simp only [Op.exec] at hr ⊢
    split at hr
    · rename_i hsome
      rw [if_pos hsome]
    · cases hr
  · rintro w' ⟨habsent, ⟨left, hleft, hne, rfl⟩ | rfl⟩
    · obtain ⟨hI', hQ'⟩ := hcut habsent left hleft hne
      exact ⟨hI', hQ' _⟩
    · obtain ⟨hI', hQ'⟩ := hwhole habsent
      exact ⟨hI', hQ' _⟩

theorem wp_rename {Q : Except String Unit → World → Prop} {source target : Name} {bytes : Bytes}
    (hsource : w.files source = some bytes) (hI : I w)
    (hdone : I ((w.set source none).set target (some bytes)) ∧
      Q (.ok ()) ((w.set source none).set target (some bytes)))
    (hfail : Q (.error error) w) : wp machine Q I (succeed (.rename source target) error) w := by
  have hexec : (Op.rename source target).exec w
      = (true, (w.set source none).set target (some bytes)) := by
    simp [Op.exec, hsource]
  refine wp_succeed hI ?_ ?_ hfail fun _ h => absurd h id
  · intro _
    rw [hexec]
    exact hdone
  · intro hr
    rw [hexec] at hr
    cases hr

end Rules

end CakeAutorate.OwnedTraffic
