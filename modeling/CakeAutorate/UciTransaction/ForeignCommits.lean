/-
# Commits of other writers

`Run` puts publications, rollbacks and recoveries in any order, for any candidates, among other
writers who commit at any moment.  A commit between the last check of an undo and the undo's
exchange is lost: the undo exchanges it into the swap in place of the commit it meant to give back,
and a recovery that keeps later commits then retires the directory with it.
-/

import CakeAutorate.UciTransaction.KeepingPublication
import CakeAutorate.UciTransaction.CrashSafety

namespace CakeAutorate.UciTransaction

open Syscall Syscall.Program Shared PreparedConfig Package

/-- An operation on the config directory, short of an acceptance. -/
inductive Task (h : Host) where
  | publish (c : PreparedConfig h)
  | publishThenRollback (c : PreparedConfig h)
  | recover (expected : Option (Package → Version)) (later : LaterCommits)
      (check : RecoveryCheck → Except String Unit)

def Task.program {h : Host} : Task h → Prog Unit
  | .publish c => do let _ ← UciTransaction.publish h c
  | .publishThenRollback c => UciTransaction.publish h c >>= rollbackPublished h c
  | .recover expected later check => do let _ ← recoverCheckedWith h expected later check

def Task.Captured {h : Host} : Task h → Shared → Prop
  | .publish c, s | .publishThenRollback c, s => UciTransaction.Captured c s
  | .recover .., _ => True

/-- Before the first operation: no transaction is there, and what others have
committed is public. -/
structure Untouched (s : Shared) : Prop where
  numbered : ∀ i, (s.disk.packages i).ino < s.disk.supply
  last : ∀ i f, s.last i = some f → f.ino < s.disk.supply ∧ f.SameFile (s.disk.packages i)
  pending : s.disk.pending = none

/-- The runs of operations, one after the other, that all return. -/
inductive Run (h : Host) (S : System Shared Call Reply) (s₀ : Shared) : Shared → Prop where
  | start : Run h S s₀ s₀
  | commit {s s' : Shared} (hs : Run h S s₀ s) (he : S.env s s') : Run h S s₀ s'
  | task {s s' : Shared} {r : Except String Unit} (task : Task h) (hs : Run h S s₀ s)
      (hc : task.Captured s) (he : Exec S task.program s (.returned r s')) : Run h S s₀ s'

variable {h : Host} {s s₀ : Shared}

theorem Untouched.safe (hs : Untouched s) : Safe h s := by
  refine .settled ⟨fun i f hf => (hs.last i f hf).1, hs.numbered, fun w i g hw => ?_⟩
    (fun i f hf => (hs.last i f hf).2) fun w hw => ?_
  · rw [hs.pending] at hw
    cases hw
  · rw [hs.pending] at hw
    cases hw

theorem wp_keepingDiscard {α : Type} {p : Prog α} {Q : Except String α → Shared → Prop}
    (hp : wp (careful h) Q Stored p s) (hQ : ∀ r s', Q r s' → Safe h s') :
    EndsSafe h (do let _ ← p) s := by
  refine wp_bind (wp_post ?_ hp)
  rintro (e | a) s' hs'
  · exact hQ _ s' hs'
  · exact wp_safe_ret (hQ _ s' hs')

theorem wp_task (task : Task h) (hs : Safe h s) (hc : task.Captured s) :
    wp (careful h) (fun _ s' => Safe h s') Stored task.program s := by
  cases task with
  | publish c => exact wp_keepingDiscard (wp_keepingPublish hs hc) fun _ _ hs' => hs'.1
  | publishThenRollback c => exact wp_keepingPublishThenRollback hs hc
  | recover expected later check =>
    exact wp_keepingDiscard (wp_keepingRecover expected later check hs) fun _ _ hs' => hs'

theorem Run.safe (h₀ : Untouched s₀) (hs : Run h (careful h) s₀ s) : Safe h s := by
  induction hs with
  | start => exact h₀.safe
  | commit _ he ih => exact stable_safe _ _ he ih
  | task task _ hc he ih => exact (wp_sound (wp_task task ih hc) he).2

/-- **No commit of another writer is lost**, in any run in which nobody commits a package between
the last check of an undo and its exchange: the last commit to each package is its public file or
its swap, at every moment. -/
theorem foreign_commits_kept (h₀ : Untouched s₀) (hs : Run h (careful h) s₀ s)
    (task : Task h) (hc : task.Captured s) {o : Outcome Shared String Unit}
    (he : Exec (careful h) task.program s o) : Stored s ∧ Stored o.state := by
  have hsafe := hs.safe h₀
  refine ⟨hsafe.stored, ?_⟩
  have hmeets := wp_sound (wp_task task hsafe hc) he
  cases o with
  | returned r s' => exact hmeets.1
  | crashed s' => exact hmeets

def digests : List (Bytes × Bytes) :=
  [(ascii "config cake-autorate 'wan'\n",
    ascii "ddca476bb95216205e300e9a1c138754723ef2ae7463c6dbd4de022fc7f69836"),
   (ascii "config queue 'wan'\n",
    ascii "62ac9b8edc05466beb5dd2eb5496e8845118ba1d20eaf60f2d561b696e903aa0"),
   (ascii "config cake-autorate 'wan'\n\toption enabled '1'\n",
    ascii "9f1fa8f2b9f944f1f8316c36050e1a92be98bb8b3c7e0a37c99f08e31618b73d"),
   (ascii "config cake-autorate 'lan'\n",
    ascii "29651d3a02fdefb4aba405c6e6cace3148a3ef853d2cd8b9f565122fc774a4ed"),
   (ascii "config cake-autorate 'guest'\n",
    ascii "b2d9704173cf8749cf118e94786e67719bd973bdfae497d575e2b405737ecc0e")]

def notedSha256 (bytes : Bytes) : Bytes := (digests.lookup bytes).getD (sha256 bytes)

theorem digests_eq : digests.all (fun d => sha256 d.1 == d.2) = true := by decide +kernel

theorem notedSha256_eq (bytes : Bytes) : notedSha256 bytes = sha256 bytes := by
  unfold notedSha256
  cases hd : digests.lookup bytes with
  | none => rfl
  | some d =>
    obtain ⟨l₁, l₂, hl, -⟩ := List.lookup_eq_some_iff.1 hd
    have := List.all_eq_true.1 digests_eq (bytes, d) (by rw [hl]; simp)
    simpa using (beq_iff_eq.1 this).symm

theorem zero_lt_second : 0 < 1000000000 := Nat.zero_lt_succ _

def Host.noted : Host where
  uid := 0
  gid := 0
  dev := 1
  clock n := ⟨n, 0, zero_lt_second⟩
  sha256 := notedSha256
  serde := Json.compact
  sha256_length bytes := by rw [notedSha256_eq]; exact Syscall.sha256_length bytes
  sha256_hex bytes := by rw [notedSha256_eq]; exact Syscall.sha256_hex bytes

def committed (n : ℕ) (bytes : Bytes) : Inode where
  ino := n
  mode := 0o100644
  uid := 0
  gid := 0
  mtime := ⟨0, 0, zero_lt_second⟩
  ctime := ⟨0, 0, zero_lt_second⟩
  bytes

theorem noted_original (i : Package) :
    let file := pick (committed 1 (ascii "config cake-autorate 'wan'\n"))
      (committed 2 (ascii "config queue 'wan'\n")) i
    safe .noted false file = true ∧ file.mode < 0o200000 ∧ file.bytes.length ≤ maxConfig := by
  cases i <;> decide

theorem noted_candidate (i : Package) :
    (pick (ascii "config cake-autorate 'wan'\n\toption enabled '1'\n")
      (ascii "config queue 'wan'\n") i).length ≤ maxConfig := by
  cases i <;> decide

def PreparedConfig.noted : PreparedConfig .noted where
  original := pick (committed 1 (ascii "config cake-autorate 'wan'\n"))
    (committed 2 (ascii "config queue 'wan'\n"))
  candidate := pick (ascii "config cake-autorate 'wan'\n\toption enabled '1'\n")
    (ascii "config queue 'wan'\n")
  original_safe i := (noted_original i).1
  original_mode i := (noted_original i).2.1
  original_len i := (noted_original i).2.2
  candidate_len i := noted_candidate i

def Shared.noted : Shared where
  disk := { Disk.router with packages := PreparedConfig.noted.original }
  last _ := none

theorem untouched_noted : Untouched noted where
  numbered i := by cases i <;> decide
  last i f hf := by cases hf
  pending := rfl

def sharedExec (h : Host) (call : Call) (s : Shared) : Reply call × Shared :=
  ((exec h call s.disk).1, ⟨(exec h call s.disk).2, s.last⟩)

def oneWriter : Call → Shared → Shared
  | .exchange .cakeAutorate .publish, s =>
    s.commit .cakeAutorate (committed s.disk.supply (ascii "config cake-autorate 'lan'\n"))
  | _, s => s

def carefully : Call → Shared → Bool
  | .exchange i (.undo displaced), s => displaced.matchesFile .noted (s.disk.packages i) true
  | _, _ => true

theorem careful_of_carefully {call : Call} {s : Shared} (hc : carefully call s = true) :
    Careful .noted call s := by
  cases call with
  | exchange i site =>
    cases site with
    | undo displaced => exact hc
    | publish | restore => trivial
  | _ => trivial

def Shared.after (s : Shared) (moves : Call → Shared → Shared) (task : Task .noted) : Shared :=
  (play (sharedExec .noted) moves task.program s).2

variable {moves : Call → Shared → Shared}

theorem exec_after {S : System Shared Call Reply} (ok : Call → Shared → Bool)
    (hstep : ∀ call s, ok call s = true →
      S.step call s (sharedExec .noted call s).1 (sharedExec .noted call s).2)
    (hmoves : ∀ call s, S.Env s (moves call s)) (task : Task .noted) (s : Shared)
    (hok : allowed ok (sharedExec .noted) moves task.program s = true) :
    ∃ r, Exec S task.program s (.returned r (s.after moves task)) :=
  ⟨_, exec_play ok hstep hmoves task.program s hok⟩

theorem given_back_eq : allowed carefully (sharedExec .noted) oneWriter
      (Task.publish PreparedConfig.noted).program noted = true ∧
    ((noted.after oneWriter (.publish .noted)).last .cakeAutorate).isSome = true ∧
    (noted.after oneWriter (.publish .noted)).disk.pending.isNone = true := by
  decide +kernel

theorem foreign_commit_given_back : ∃ r s', Exec (careful .noted)
      (Task.publish noted).program noted (.returned r s') ∧
    (s'.last .cakeAutorate).isSome = true ∧ s'.disk.pending.isNone = true ∧
    Stored noted ∧ Stored s' := by
  have hstep : ∀ call s, carefully call s = true → (careful .noted).step call s
      (sharedExec .noted call s).1 (sharedExec .noted call s).2 :=
    fun _ _ hc => ⟨careful_of_carefully hc, rfl, rfl⟩
  have hmoves : ∀ call s, (careful .noted).Env s (oneWriter call s) := by
    intro call s
    unfold oneWriter
    split
    · exact .single ⟨.cakeAutorate, _, rfl, rfl⟩
    · exact .refl
  have hc : (Task.publish noted).Captured noted := by
    intro i
    cases i <;> decide
  have hkept : ∀ r s', Exec (careful .noted) (Task.publish noted).program noted
      (.returned r s') → Stored noted ∧ Stored s' :=
    fun r s' he => foreign_commits_kept untouched_noted .start _ hc he
  obtain ⟨hok, hlast, hnone⟩ := given_back_eq
  obtain ⟨r, he⟩ := exec_after carefully hstep hmoves _ _ hok
  exact ⟨r, _, he, hlast, hnone, hkept r _ he⟩

def twoWriters : Call → Shared → Shared
  | .exchange .cakeAutorate .restore, s =>
    s.commit .cakeAutorate (committed s.disk.supply (ascii "config cake-autorate 'lan'\n"))
  | .exchange .cakeAutorate (.undo _), s =>
    s.commit .cakeAutorate (committed s.disk.supply (ascii "config cake-autorate 'guest'\n"))
  | _, s => s

theorem env_twoWriters (call : Call) (s : Shared) : (shared .noted).Env s (twoWriters call s) := by
  have hcommit : ∀ i bytes, (shared .noted).Env s (s.commit i (committed s.disk.supply bytes)) :=
    fun i bytes => .single ⟨i, _, rfl, rfl⟩
  unfold twoWriters
  split
  · exact hcommit _ _
  · exact hcommit _ _
  · exact .refl

def Shared.undone : Shared :=
  (noted.after (fun _ s => s) (.publish .noted)).after twoWriters
    (.recover none .refuse fun _ => .ok ())

def Shared.kept : Shared := undone.after (fun _ s => s) (.recover none .keep fun _ => .ok ())

theorem run_after {s₀ s : Shared} {task : Task .noted} (hs : Run .noted (shared .noted) s₀ s)
    (hc : task.Captured s) (hmoves : ∀ call s, (shared .noted).Env s (moves call s)) :
    Run .noted (shared .noted) s₀ (s.after moves task) := by
  have hstep : ∀ call s, (shared .noted).step call s (sharedExec .noted call s).1
      (sharedExec .noted call s).2 := fun _ _ => ⟨rfl, rfl⟩
  obtain ⟨r, he⟩ := exec_after (fun _ _ => true) (fun call s _ => hstep call s) hmoves task s
    (allowed_true _ _ _ _)
  exact .task task hs hc he

theorem run_kept : Run .noted (shared .noted) noted kept := by
  refine run_after (run_after (run_after .start ?_ fun _ _ => .refl) trivial env_twoWriters) trivial
    fun _ _ => .refl
  intro i
  cases i <;> decide

theorem kept_eq : kept.disk.pending.isNone = true ∧
    (kept.disk.packages .cakeAutorate).bytes = ascii "config cake-autorate 'lan'\n" ∧
    (kept.last .cakeAutorate).map Inode.bytes = some (ascii "config cake-autorate 'guest'\n") := by
  decide +kernel

/-- **A commit is lost**: not every run keeps the last commit to each package. -/
theorem foreign_commit_lost : ¬∀ (h : Host) (s₀ s : Shared), Untouched s₀ →
    Run h (shared h) s₀ s → Stored s := by
  intro hall
  obtain ⟨hnone, hpub, hlast⟩ := kept_eq
  obtain ⟨f, hf, hbytes⟩ := Option.map_eq_some_iff.1 hlast
  rcases hall .noted _ _ untouched_noted run_kept .cakeAutorate with hat | ⟨w, g, hw, -⟩
  · have := (hat f hf).bytes_eq
    rw [hpub, hbytes] at this
    exact absurd this (by decide)
  · rw [hw] at hnone
    cases hnone

end CakeAutorate.UciTransaction
