/-
# Crash safety of the publication

`Reach` puts the operations of the transaction in any order, each one completed
or cut off by a crash at any system call, with nobody else at work.  Whatever
happened, the next recovery that completes leaves no directory behind and both
packages with their original bytes, or both with the candidate bytes if an
acceptance had put its marker in place.
-/

import CakeAutorate.UciTransaction.Recovery
import CakeAutorate.Syscall.JsonText

namespace CakeAutorate.UciTransaction

open Syscall Syscall.Program PreparedConfig

/-- The operations on one candidate pair. -/
inductive Op where
  | publish
  | publishThenRollback
  | recover (expected : Option (Package → Version)) (later : LaterCommits)
      (check : RecoveryCheck → Except String Unit)
  | accept (expected : Package → Version) (attestRuntime : ℕ → Except String Unit)

def Op.program {h : Host} (c : PreparedConfig h) : Op → Prog Unit
  | .publish => do let _ ← UciTransaction.publish h c
  | .publishThenRollback => UciTransaction.publish h c >>= rollbackPublished h c
  | .recover expected later check => do let _ ← recoverCheckedWith h expected later check
  | .accept expected attestRuntime => acceptReceipt h expected attestRuntime

def Op.accepting : Op → Bool
  | .accept .. => true
  | _ => false

def Disk.begin (s : Disk) (accepting : Bool) : Disk := { s with accepting }

/-- The disk before the publication: the captured files are public, and no
transaction is there. -/
structure Initial {h : Host} (c : PreparedConfig h) (s : Disk) : Prop where
  public_eq : ∀ i, s.packages i = c.original i
  pending : s.pending = none
  garbage : s.garbage = none
  accepted : s.accepted = false
  supply : ∀ i, (c.original i).ino < s.supply

/-- The disks that operations lead to, each of them completed or crashed. -/
inductive Reach {h : Host} (c : PreparedConfig h) (s₀ : Disk) : Disk → Prop where
  | start : Reach c s₀ s₀
  | op {s : Disk} (op : Op) {o : Outcome Disk String Unit} (hs : Reach c s₀ s)
      (he : Exec (alone h) (op.program c) (s.begin op.accepting) o) : Reach c s₀ o.state

variable {h : Host} {c : PreparedConfig h} {s s₀ : Disk}

theorem Initial.inv (hs : Initial c s) : Inv c s where
  supply := hs.supply
  garbage w hw := by rw [hs.garbage] at hw; cases hw
  phase := by
    refine .idle hs.pending ⟨fun i => ?_, fun i => ?_⟩
    · rw [hs.public_eq]; exact c.readable i
    · rw [hs.public_eq, hs.accepted]; rfl

theorem Inv.begin (hi : Inv c s) (accepting : Bool) : Inv c (s.begin accepting) := by
  refine ⟨hi.supply, hi.garbage, ?_⟩
  cases hi.phase with
  | idle hp hpub => exact .idle hp (hpub.congr rfl rfl)
  | setup w hr hp ha hs hpub => exact .setup w hr hp ha hs hpub
  | ready a w hr =>
    refine .ready a w { hr with member := fun i => ?_ }
    cases hr.member i with
    | same hc hp => exact .same hc hp
    | before g hc hw hp hg => exact .before g hc hw hp hg
    | after g hc hw hp hg => exact .after g hc hw hp hg
  | retiring w hr hp hg hm ho hpub => exact .retiring w hr hp hg hm ho (hpub.congr rfl rfl)

theorem wp_discard {α : Type} {p : Prog α} {I : Disk → Prop} {Q : Except String α → Disk → Prop}
    (hp : wp (alone h) Q I p s) (hQ : ∀ r s', Q r s' → I s') :
    wp (alone h) (fun _ s' => I s') I (do let _ ← p) s := by
  refine wp_bind (wp_post ?_ hp)
  rintro (e | a) s' hs'
  · exact hQ _ s' hs'
  · exact wp_alone_ret (hQ _ s' hs') (hQ _ s' hs')

theorem Inv.op (hi : Inv c s) (op : Op) {o : Outcome Disk String Unit}
    (he : Exec (alone h) (op.program c) (s.begin op.accepting) o) : Inv c o.state := by
  have hwp : wp (alone h) (fun _ s' => Inv c s') (Inv c) (op.program c) (s.begin op.accepting) := by
    cases op with
    | publish => exact wp_discard (wp_publish (hi.begin _) rfl) fun _ _ hs' => hs'.1
    | publishThenRollback => exact wp_publishThenRollback (hi.begin _) rfl
    | recover expected later check =>
      exact wp_discard (wp_recover (hi.begin _) rfl expected later check) fun _ _ hs' => hs'.1
    | accept expected attestRuntime => exact wp_accept (hi.begin _) rfl expected attestRuntime
  have := wp_sound hwp he
  cases o with
  | returned r s' => exact this.1
  | crashed s' => exact this

theorem Reach.inv (h₀ : Initial c s₀) (hs : Reach c s₀ s) : Inv c s := by
  induction hs with
  | start => exact h₀.inv
  | op op _ he ih => exact ih.op op he

/-- **Crash safety.**  After any run of publications, rollbacks, recoveries and acceptances, each
completed or cut off anywhere, a recovery that is not refused succeeds, leaves no transaction
directory, and leaves both packages original, or both candidates once an acceptance has renamed its
marker into place. -/
theorem recover_original_or_accepted (h₀ : Initial c s₀) (hs : Reach c s₀ s)
    (expected : Option (Package → Version)) (later : LaterCommits)
    (check : RecoveryCheck → Except String Unit) (hcheck : Granted check)
    (hexpected : Expected h expected (s.begin false)) :
    (∃ r s', Exec (alone h) (recoverCheckedWith h expected later check) (s.begin false)
      (.returned r s')) ∧
    ∀ r s', Exec (alone h) (recoverCheckedWith h expected later check) (s.begin false)
        (.returned r s') →
      (∃ receipt, r = .ok receipt) ∧ s'.pending = none ∧ s'.garbage = none ∧
        ∀ i, (s'.packages i).bytes =
          if s.accepted then c.candidate i else (c.original i).bytes := by
  refine ⟨exec_returns _ _, fun r s' he => ?_⟩
  have hi := (hs.inv h₀).begin false
  obtain ⟨-, -, hsettle⟩ := wp_sound (wp_recover hi rfl expected later check) he
  obtain ⟨hok, hp, hg, -, hbytes⟩ := hsettle (not_not_intro ⟨hcheck, hexpected⟩)
  exact ⟨hok, hp, hg, hbytes⟩

def Host.router : Host where
  uid := 0
  gid := 0
  dev := 1
  clock n := ⟨n, 0, by decide⟩
  sha256 := Syscall.sha256
  serde := Json.compact
  sha256_length := Syscall.sha256_length
  sha256_hex := Syscall.sha256_hex

def PreparedConfig.router : PreparedConfig .router where
  original i :=
    { ino := Package.pick 1 2 i, mode := 0o100644, uid := 0, gid := 0, mtime := ⟨0, 0, by decide⟩,
      ctime := ⟨0, 0, by decide⟩
      bytes := Package.pick (ascii "config cake-autorate 'wan'\n") (ascii "config queue 'wan'\n") i }
  candidate := Package.pick (ascii "config cake-autorate 'wan'\n\toption enabled '1'\n")
    (ascii "config queue 'wan'\n")
  original_safe i := by cases i <;> decide
  original_mode i := by cases i <;> decide
  original_len i := by cases i <;> decide
  candidate_len i := by cases i <;> decide

def Disk.router : Disk where
  packages := PreparedConfig.router.original
  root := false
  lock := false
  pending := none
  garbage := none
  supply := 3
  accepting := false
  accepted := false

theorem initial_router : Initial PreparedConfig.router Disk.router where
  public_eq _ := rfl
  pending := rfl
  garbage := rfl
  accepted := rfl
  supply i := by cases i <;> decide

theorem recover_original_after_publish : ∃ s, Reach router Disk.router s ∧
    (∃ r s', Exec (alone .router) (recoverCheckedWith .router none .refuse fun _ => .ok ())
      (s.begin false) (.returned r s')) ∧
    ∀ r s', Exec (alone .router) (recoverCheckedWith .router none .refuse fun _ => .ok ())
        (s.begin false) (.returned r s') →
      (∃ receipt, r = .ok receipt) ∧ s'.pending = none ∧ s'.garbage = none ∧
        ∀ i, (s'.packages i).bytes = if s.accepted then router.candidate i
          else (router.original i).bytes := by
  obtain ⟨r, s, he⟩ : ∃ r s, Exec (alone .router) (Op.publish.program router)
      (Disk.router.begin false) (.returned r s) := exec_returns _ _
  have hs : Reach router Disk.router s := .op .publish .start he
  exact ⟨s, hs, recover_original_or_accepted initial_router hs none .refuse _ (fun _ => rfl)
    (fun _ hv => by cases hv)⟩

end CakeAutorate.UciTransaction
