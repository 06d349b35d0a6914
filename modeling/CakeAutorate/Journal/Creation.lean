/-
# Creating a job under faults

`JournalStore::create` makes the directory of the job first and publishes its state
last; in between a failed call, or the death of the process, leaves a directory without
a state.  Nothing removes it, and the next scan lists it as an unsafe entry.
-/

import CakeAutorate.Journal.LifeCycle
import CakeAutorate.Journal.Store

namespace CakeAutorate.Journal

open Wire Protocol Syscall List OperationRequest JobDir Io DirCall JobJournal Entries

def made (entries : Entries) (job : Text) (dir : JobDir) : Entries :=
  entries ++ [(.utf8 job, .directory dir)]

def Fresh (entries : Entries) (job : Text) : Prop := ∀ entry ∈ entries, entry.1 ≠ .utf8 job

section Calls

variable {entries : Entries} {job : Text} (hfresh : Fresh entries job) (owner : Owner)

include hfresh

theorem findDir_made (dir : JobDir) : (made entries job dir).findDir job = some dir := by
  have hnone : (entries : Entries).findDir job = none := by
    rw [findDir, findSome?_eq_none_iff]
    rintro ⟨name, node⟩ hmem
    cases node with
    | other => rfl
    | directory d => simp [hfresh _ hmem]
  unfold made
  unfold findDir at hnone ⊢
  rw [findSome?_append, hnone]
  simp

theorem modifyDir_made (dir : JobDir) (f : JobDir → JobDir) :
    (made entries job dir).modifyDir job f = made entries job (f dir) := by
  have hsame : (entries : Entries).modifyDir job f = entries := by
    conv_rhs => rw [← map_id entries]
    refine map_congr_left fun entry hmem => ?_
    obtain ⟨name, node⟩ := entry
    cases node with
    | other => rfl
    | directory d => simp [hfresh _ hmem]
  unfold made
  unfold modifyDir at hsame ⊢
  rw [map_append, hsame]
  simp

theorem exec_made (call : DirCall) (dir : JobDir) :
    (FsCall.inDir job call).exec owner (made entries job dir)
      = ((call.exec owner dir).1, made entries job (call.exec owner dir).2) := by
  simp [FsCall.exec, findDir_made hfresh, modifyDir_made hfresh]

theorem failing_made (call : DirCall) (dir : JobDir) (how : Failure) :
    (FsCall.inDir job call).failing how (made entries job dir)
      = (.error how.error, made entries job (call.failing how dir)) := by
  simp [FsCall.failing, modifyDir_made hfresh]

end Calls

/-- The program stopped short, with a directory that satisfies `Inv`. -/
def Stopped (Inv : JobDir → Prop) (entries : Entries) (job : Text)
    (o : Outcome Entries String Unit) : Prop :=
  ∃ dir, Inv dir ∧ (o = .crashed (made entries job dir) ∨
    ∃ error, o = .returned (.error error) (made entries job dir))

theorem Stopped.mono {Inv Inv' : JobDir → Prop} {entries : Entries} {job : Text}
    {o : Outcome Entries String Unit} (h : Stopped Inv entries job o)
    (himp : ∀ dir, Inv dir → Inv' dir) : Stopped Inv' entries job o := by
  obtain ⟨dir, hdir, ho⟩ := h
  exact ⟨dir, himp dir hdir, ho⟩

section Runs

variable {entries : Entries} {job : Text} (hfresh : Fresh entries job) (owner : Owner)
  {Inv : JobDir → Prop} {moves : List (Move Failure)} {dir : JobDir}

abbrev runMade (owner : Owner) (entries : Entries) (job : Text) (p : Io Unit)
    (moves : List (Move Failure)) (dir : JobDir) :
    Outcome Entries String Unit × List (Move Failure) :=
  p.runMoves (system owner) moves (made entries job dir)

include hfresh

/-- **One call**, the `k`-th of the schedule: it is made and the program goes on, or the program
stops here. -/
theorem run_call (k : ℕ) {Q : Outcome Entries String Unit × List (Move Failure) → Prop}
    {call : DirCall} {message : String} {f : Unit → Io Unit} (hinv : Inv dir)
    (hfail : ∀ how, Inv (call.failing how dir)) (hok : (call.exec owner dir).1 = .ok ())
    (hstop : moveAt moves k ≠ .go → ∀ result, Stopped Inv entries job result.1 → Q result)
    (hgo : moveAt moves k = .go →
      Q (runMade owner entries job (f ()) (moves.drop (k + 1)) (call.exec owner dir).2)) :
    Q (runMade owner entries job (Io.call (.inDir job call) message >>= f) (moves.drop k) dir) := by
  have hhead : moveAt (moves.drop k) 0 = moveAt moves k := moveAt_drop moves k 0
  unfold runMade Io.call
  rw [Program.call_bind]
  cases hmove : moveAt moves k with
  | go =>
    rw [Program.runMoves_go (hhead.trans hmove), drop_drop]
    have hrest := hgo hmove
    simp only [system, exec_made hfresh, hok]
    exact hrest
  | fail how =>
    refine hstop (by simp [hmove]) _ ?_
    rw [Program.runMoves_fail (hhead.trans hmove)]
    simp only [system, failing_made hfresh]
    exact ⟨_, hfail how, .inr ⟨message ++ ": " ++ how.error, by simp [Except.mapError]⟩⟩
  | die =>
    refine hstop (by simp [hmove]) _ ?_
    rw [Program.runMoves_die (hhead.trans hmove)]
    exact ⟨dir, hinv, .inl rfl⟩

theorem run_ignore {call : DirCall} {f : Unit → Io Unit} (hfail : ∀ how, call.failing how dir = dir) :
    moveAt moves 0 ≠ .die ∧
      (∃ next, (next = dir ∨ next = (call.exec owner dir).2) ∧
        runMade owner entries job (ignore (.inDir job call) >>= f) moves dir
          = runMade owner entries job (f ()) (moves.drop 1) next) ∨
    moveAt moves 0 = .die ∧ (runMade owner entries job (ignore (.inDir job call) >>= f) moves dir).1
      = .crashed (made entries job dir) := by
  unfold runMade ignore
  rw [Program.call_bind]
  cases hmove : moveAt moves 0 with
  | go =>
    refine .inl ⟨by simp, _, .inr rfl, ?_⟩
    rw [Program.runMoves_go hmove]
    simp only [system, exec_made hfresh]
    rfl
  | fail how =>
    refine .inl ⟨by simp, _, .inl rfl, ?_⟩
    rw [Program.runMoves_fail hmove]
    simp only [system, failing_made hfresh, hfail how]
    rfl
  | die =>
    refine .inr ⟨rfl, ?_⟩
    rw [Program.runMoves_die hmove]

theorem run_orRemove {temp : Text} {body : Io Unit}
    (hremove : ∀ d, Inv d → Inv (d.setFile temp none)) :
    (∀ s rest, runMade owner entries job body moves dir = (.returned (.ok ()) s, rest) →
      runMade owner entries job (orRemove job temp body) moves dir = (.returned (.ok ()) s, rest)) ∧
    (Stopped Inv entries job (runMade owner entries job body moves dir).1 →
      Stopped Inv entries job
        (runMade owner entries job (orRemove job temp body) moves dir).1) := by
  have hrun : runMade owner entries job (orRemove job temp body) moves dir =
      match runMade owner entries job body moves dir with
      | (.returned (.ok ()) s, rest) => (.returned (.ok ()) s, rest)
      | (.returned (.error e) s, rest) => Program.runMoves (system owner)
          (ignore (.inDir job (.removeFile temp)) >>= fun _ => throw e) rest s
      | (.crashed s, rest) => (.crashed s, rest) := by
    unfold runMade orRemove
    rw [Program.runMoves_bind, Program.runMoves_attempt]
    obtain ⟨o, rest⟩ := body.runMoves (system owner) moves (made entries job dir)
    cases o with
    | crashed s => rfl
    | returned r s =>
      cases r with
      | ok u => simp
      | error e => rfl
  refine ⟨fun s rest hbody => by rw [hrun, hbody], fun hbody => ?_⟩
  rw [hrun]
  generalize runMade owner entries job body moves dir = result at hbody
  obtain ⟨o, rest⟩ := result
  obtain ⟨d, hd, rfl | ⟨e, rfl⟩⟩ := hbody
  · exact ⟨d, hd, .inl rfl⟩
  · -- The clean-up is one more call, on the directory that the body left.
    have hclean := @run_ignore _ _ hfresh owner rest d (.removeFile temp) (fun _ => throw e)
      fun _ => rfl
    obtain ⟨-, next, hnext, hgo⟩ | ⟨-, hdie⟩ := hclean
    · have hinv : Inv next := by
        rcases hnext with rfl | rfl
        · exact hd
        · simp only [exec]
          split
          · exact hd
          · exact hremove d hd
      exact ⟨next, hinv, .inr ⟨e, by
        show (runMade owner entries job _ rest d).1 = _
        rw [hgo, runMade, Program.throw_eq, Program.runMoves_ret]⟩⟩
    · exact ⟨d, hd, .inl hdie⟩

end Runs

def SameBut (temp : Text) (dir dir' : JobDir) : Prop :=
  dir'.uid = dir.uid ∧ dir'.mode = dir.mode ∧ ∀ n, n ≠ temp → dir'.files n = dir.files n

theorem sameBut_refl (temp : Text) (dir : JobDir) : SameBut temp dir dir := ⟨rfl, rfl, fun _ _ => rfl⟩

variable {dir : JobDir}

theorem SameBut.setFile {temp : Text} {dir' : JobDir} (h : SameBut temp dir dir')
    (file : Option FileNode) : SameBut temp dir (dir'.setFile temp file) := by
  refine ⟨h.1, h.2.1, fun n hn => ?_⟩
  simp only [JobDir.setFile, if_neg hn]
  exact h.2.2 n hn

def JobDir.withFile (dir : JobDir) (owner : Owner) (name contents : Text) : JobDir :=
  dir.setFile name (some (.regular owner.uid 0o600 (utf8 contents)))

theorem withFile_other {owner : Owner} {name contents other : Text} (hname : other ≠ name) :
    (dir.withFile owner name contents).files other = dir.files other := by
  simp [withFile, setFile, hname]

/-- How publishing a file can end: after seven calls with the file in place; with the file in
place, but short of the last calls; or short of the rename, with at most a temporary file. -/
def Publishes (entries : Entries) (job temp : Text) (dir final : JobDir)
    (moves : List (Move Failure)) (result : Outcome Entries String Unit × List (Move Failure)) :
    Prop :=
  (∀ i < 7, moveAt moves i = .go) ∧
      result = (.returned (.ok ()) (made entries job final), moves.drop 7) ∨
    (∀ i < 5, moveAt moves i = .go) ∧ (∃ i < 7, moveAt moves i ≠ .go) ∧
      Stopped (Eq final) entries job result.1 ∨
    (∃ i < 5, moveAt moves i ≠ .go) ∧ Stopped (SameBut temp dir) entries job result.1

section Publishing

variable {entries : Entries} {job : Text} (hfresh : Fresh entries job) (owner : Owner)
  {moves : List (Move Failure)} {dir : JobDir} {temp name contents : Text}

include hfresh

theorem run_publishFile (htemp : dir.files temp = none) (hname : name ≠ temp)
    (messages : String → String) : Publishes entries job temp dir
      (dir.withFile owner name contents) moves
      (runMade owner entries job (publishFile job temp name contents messages) moves dir) := by
  have hstop : ∀ i < 5, moveAt moves i ≠ .go → ∀ result, Stopped (SameBut temp dir) entries job
      result.1 → Publishes entries job temp dir (dir.withFile owner name contents) moves result :=
    fun i hi hmove _ hresult => .inr (.inr ⟨⟨i, hi, hmove⟩, hresult⟩)
  have hsame := sameBut_refl temp dir
  -- Up to the rename, only the temporary file changes.
  refine run_call hfresh owner 0 hsame (fun _ => hsame) (by simp [exec, htemp])
    (hstop 0 (by decide)) fun h0 => ?_
  have hcreated : (exec owner dir (.createNew temp)).2
      = dir.setFile temp (some (.regular owner.uid (masked 0o666 owner.umask) [])) := by
    simp [exec, htemp]
  rw [hcreated]
  refine run_call hfresh owner 1 (hsame.setFile _) (fun _ => hsame.setFile _) rfl
    (hstop 1 (by decide)) fun h1 => ?_
  refine run_call hfresh owner 2 ((hsame.setFile _).setFile _) (fun _ => ((hsame.setFile _).setFile
    _).setFile _) rfl (hstop 2 (by decide)) fun h2 => ?_
  refine run_call hfresh owner 3 (((hsame.setFile _).setFile _).setFile _)
    (fun _ => ((hsame.setFile _).setFile _).setFile _) rfl (hstop 3 (by decide)) fun h3 => ?_
  refine run_call hfresh owner 4 (((hsame.setFile _).setFile _).setFile _)
    (fun _ => ((hsame.setFile _).setFile _).setFile _)
    (by simp [exec, JobDir.setFile, JobDir.modifyFile]) (hstop 4 (by decide)) fun h4 => ?_
  -- From the rename on, the file is in place.
  generalize hrenamed : (exec owner _ (.rename temp name)).2 = renamed
  have hfinal : renamed = dir.withFile owner name contents := by
    rw [← hrenamed, JobDir.withFile]
    simp only [exec, JobDir.setFile, JobDir.modifyFile, if_true, Option.map_some,
      FileNode.withMode, FileNode.append, nil_append, JobDir.mk.injEq, true_and]
    funext n
    by_cases hn : n = temp
    · simp [hn, htemp, Ne.symm hname]
    · simp [hn]
  rw [hfinal]
  have hgo : ∀ i < 5, moveAt moves i = .go := by
    intro i hi
    interval_cases i <;> assumption
  have hshort : ∀ i < 7, moveAt moves i ≠ .go → ∀ result,
      Stopped (Eq (dir.withFile owner name contents)) entries job result.1 →
      Publishes entries job temp dir (dir.withFile owner name contents) moves result :=
    fun i hi hmove _ hresult => .inr (.inl ⟨hgo, ⟨i, hi, hmove⟩, hresult⟩)
  refine run_call hfresh owner 5 rfl (fun _ => rfl) rfl (hshort 5 (by decide)) fun h5 => ?_
  rw [← Program.bind_ret (Io.call _ _)]
  refine run_call hfresh owner 6 rfl (fun _ => rfl) rfl (hshort 6 (by decide)) fun h6 => ?_
  refine .inl ⟨?_, Program.runMoves_ret _ _ _⟩
  intro i hi
  interval_cases i <;> assumption

theorem Publishes.orRemove {body : Io Unit} {final : JobDir} (hfinal : final.files temp = none)
    (h : Publishes entries job temp dir final moves (runMade owner entries job body moves dir)) :
    Publishes entries job temp dir final moves
      (runMade owner entries job (orRemove job temp body) moves dir) := by
  rcases h with ⟨hgo, hresult⟩ | ⟨hgo, hshort, hstopped⟩ | ⟨hshort, hstopped⟩
  · refine .inl ⟨hgo, ?_⟩
    exact (@run_orRemove _ _ hfresh owner (fun _ => True) _ _ _ _ fun _ _ => trivial).1 _ _ hresult
  · refine .inr (.inl ⟨hgo, hshort, (run_orRemove hfresh owner ?_).2 hstopped⟩)
    rintro d rfl
    have hsame : final.setFile temp none = final := by
      have hfiles : (fun n => if n = temp then none else final.files n) = final.files := by
        funext n
        split
        · rename_i hn
          rw [hn, hfinal]
        · rfl
      unfold setFile
      rw [hfiles]
    exact hsame.symm
  · exact .inr (.inr ⟨hshort, (run_orRemove hfresh owner fun d hd => hd.setFile none).2 hstopped⟩)

/-- **`atomic_write`.** -/
theorem run_atomicWrite {generation : Text} {sequence : ℕ}
    (hsize : byteLength contents ≤ maxOperationRecordBytes)
    (htemp : dir.files (tempName name generation sequence) = none)
    (hname : name ≠ tempName name generation sequence) :
    Publishes entries job (tempName name generation sequence) dir
      (dir.withFile owner name contents) moves
      (runMade owner entries job (atomicWrite job name contents generation sequence) moves dir) := by
  have hcheck : check (decide (byteLength contents ≤ maxOperationRecordBytes))
      "journal payload exceeds its size bound" = .ok () := by simp [hsize]
  unfold atomicWrite
  rw [hcheck]
  exact (run_publishFile hfresh owner htemp hname journalMessages).orRemove hfresh owner
    ((withFile_other hname.symm).trans htemp)

/-- **`write_anchor`**: one call more, to remove what an earlier process may have left. -/
theorem run_writeAnchor {anchor : DeadlineAnchor} (htemp : dir.files deadlineTemp = none) :
    moveAt moves 0 ≠ .die ∧ Publishes entries job deadlineTemp dir
      (dir.withFile owner deadlineFile anchor.encode) (moves.drop 1)
      (runMade owner entries job (writeAnchor job anchor) moves dir) ∨
    moveAt moves 0 = .die ∧ Stopped (Eq dir) entries job
      (runMade owner entries job (writeAnchor job anchor) moves dir).1 := by
  have hname : deadlineFile ≠ deadlineTemp := by decide
  have hclean := @run_ignore _ _ hfresh owner moves dir (.removeFile deadlineTemp)
    (fun _ => .orRemove job deadlineTemp
      (publishFile job deadlineTemp deadlineFile anchor.encode deadlineMessages)) fun _ => rfl
  obtain ⟨hmove, next, hnext, hrun⟩ | ⟨hmove, hdie⟩ := hclean
  · have hsame : next = dir := by
      rcases hnext with rfl | rfl
      · rfl
      · simp [exec, htemp]
    refine .inl ⟨hmove, ?_⟩
    rw [writeAnchor, hrun, hsame]
    exact (run_publishFile hfresh owner htemp hname deadlineMessages).orRemove hfresh owner
      ((withFile_other hname.symm).trans htemp)
  · exact .inr ⟨hmove, dir, rfl, .inl hdie⟩

end Publishing

section Sequence

variable {entries : Entries} {job : Text} {owner : Owner} {moves : List (Move Failure)}
  {dir : JobDir} {p : Io Unit} {f : Unit → Io Unit}

theorem run_bind_ok {dir' : JobDir} {rest : List (Move Failure)}
    (h : runMade owner entries job p moves dir = (.returned (.ok ()) (made entries job dir'), rest)) :
    runMade owner entries job (p >>= f) moves dir = runMade owner entries job (f ()) rest dir' := by
  unfold runMade at h ⊢
  rw [Program.runMoves_bind, h]

theorem run_bind_stopped {Inv : JobDir → Prop}
    (h : Stopped Inv entries job (runMade owner entries job p moves dir).1) :
    Stopped Inv entries job (runMade owner entries job (p >>= f) moves dir).1 := by
  unfold runMade at h ⊢
  rw [Program.runMoves_bind]
  generalize Program.runMoves (system owner) p moves (made entries job dir) = result at h
  obtain ⟨o, rest⟩ := result
  obtain ⟨d, hd, rfl | ⟨e, rfl⟩⟩ := h
  · exact ⟨d, hd, .inl rfl⟩
  · exact ⟨d, hd, .inr ⟨e, rfl⟩⟩

end Sequence

def filled (owner : Owner) (dir : JobDir) (requestText anchorText stateText : Text) : JobDir :=
  ((dir.withFile owner requestFile requestText).withFile owner deadlineFile anchorText).withFile
    owner stateFile stateText

/-- No call is disturbed up to the one that publishes the state; only the removal of an old
temporary file, the eighth of them, may fail. -/
def Undisturbed (moves : List (Move Failure)) : Prop :=
  ∀ i < 20, moveAt moves i = .go ∨ i = 7 ∧ moveAt moves i ≠ .die

/-- The program ended with a directory that satisfies `P`. -/
def EndsWith (P : JobDir → Prop) (entries : Entries) (job : Text)
    (o : Outcome Entries String Unit) : Prop :=
  ∃ dir, P dir ∧ o.state = made entries job dir

theorem Stopped.endsWith {Inv : JobDir → Prop} {entries : Entries} {job : Text}
    {o : Outcome Entries String Unit} (h : Stopped Inv entries job o) :
    EndsWith Inv entries job o := by
  obtain ⟨dir, hdir, rfl | ⟨e, rfl⟩⟩ := h
  · exact ⟨dir, hdir, rfl⟩
  · exact ⟨dir, hdir, rfl⟩

section Files

variable {entries : Entries} (owner : Owner) {moves : List (Move Failure)} {dir : JobDir}
  {coordinator : CoordinatorIdentity} {journal : JobJournal} {anchor : DeadlineAnchor}
  {requestText : Text}

theorem tempName_ne {name other generation : Text} {sequence : ℕ} (h : other.head? ≠ some '.') :
    other ≠ tempName name generation sequence := by
  rintro rfl
  exact h rfl

theorem SameBut.stateless {temp : Text} {dir dir' : JobDir} (h : SameBut temp dir dir')
    (htemp : stateFile ≠ temp) (hdir : dir.files stateFile = none) :
    dir'.files stateFile = none := by rw [h.2.2 _ htemp, hdir]

section

variable (hfresh : Fresh entries journal.jobId) (hv : journal.validate = .ok ())
include hfresh hv

theorem run_stateFile
    (htemp : dir.files (tempName stateFile coordinator.generation journal.sequence.toNat) = none)
    (hstate : dir.files stateFile = none) :
    (∀ i < 5, moveAt moves i = .go) ∧ EndsWith (Eq (dir.withFile owner stateFile journal.text))
        entries journal.jobId
        (runMade owner entries journal.jobId (writeState coordinator journal) moves dir).1 ∨
      (∃ i < 5, moveAt moves i ≠ .go) ∧ EndsWith (fun d => d.files stateFile = none) entries
        journal.jobId
        (runMade owner entries journal.jobId (writeState coordinator journal) moves dir).1 := by
  have hne : stateFile ≠ tempName stateFile coordinator.generation journal.sequence.toNat :=
    tempName_ne (by decide)
  have hwrite : writeState coordinator journal = atomicWrite journal.jobId stateFile journal.text
      coordinator.generation journal.sequence.toNat := by
    unfold writeState
    rw [encode_text hv]
    rfl
  rw [hwrite]
  rcases run_atomicWrite hfresh owner (text_size hv) htemp hne with
    ⟨hgo, hrun⟩ | ⟨hgo, -, hstopped⟩ | ⟨hshort, hstopped⟩
  · refine .inl ⟨fun i hi => hgo i (by omega), _, rfl, ?_⟩
    rw [hrun]
    rfl
  · exact .inl ⟨hgo, hstopped.endsWith⟩
  · exact .inr ⟨hshort, (hstopped.mono fun d hd => hd.stateless hne hstate).endsWith⟩

theorem run_laterFiles (hdeadline : dir.files deadlineTemp = none)
    (htemp : dir.files (tempName stateFile coordinator.generation journal.sequence.toNat) = none)
    (hstate : dir.files stateFile = none) :
    (moveAt moves 0 ≠ .die ∧ ∀ i, 1 ≤ i → i < 13 → moveAt moves i = .go) ∧
        EndsWith (Eq ((dir.withFile owner deadlineFile anchor.encode).withFile owner stateFile
          journal.text)) entries journal.jobId (runMade owner entries journal.jobId (do
            writeAnchor journal.jobId anchor; writeState coordinator journal) moves dir).1 ∨
      (moveAt moves 0 = .die ∨ ∃ i, 1 ≤ i ∧ i < 13 ∧ moveAt moves i ≠ .go) ∧
        EndsWith (fun d => d.files stateFile = none) entries journal.jobId
          (runMade owner entries journal.jobId (do
            writeAnchor journal.jobId anchor; writeState coordinator journal) moves dir).1 := by
  have hpublished : (dir.withFile owner deadlineFile anchor.encode).files stateFile = none :=
    (withFile_other (by decide)).trans hstate
  obtain ⟨hmove, hpublishes⟩ | ⟨hmove, hstopped⟩ :=
    @run_writeAnchor _ _ hfresh owner moves dir anchor hdeadline
  · rcases hpublishes with
      ⟨hgo, hrun⟩ | ⟨-, ⟨i, hi, hshort⟩, hstopped⟩ | ⟨⟨i, hi, hshort⟩, hstopped⟩
    · rw [run_bind_ok hrun, drop_drop]
      have hlast := @run_stateFile _ owner (moves.drop (1 + 7)) _ coordinator journal hfresh hv
        ((withFile_other (tempName_ne (by decide)).symm).trans htemp) hpublished
      rcases hlast with ⟨hgo', hends⟩ | ⟨⟨i, hi, hshort⟩, hends⟩
      · refine .inl ⟨⟨hmove, fun i hi1 hi13 => ?_⟩, hends⟩
        by_cases hi : i < 8
        · have := hgo (i - 1) (by omega)
          rwa [moveAt_drop, Nat.add_sub_of_le hi1] at this
        · have := hgo' (i - 8) (by omega)
          rwa [moveAt_drop, show 1 + 7 + (i - 8) = i by omega] at this
      · rw [moveAt_drop] at hshort
        exact .inr ⟨.inr ⟨1 + 7 + i, by omega, by omega, hshort⟩, hends⟩
    · rw [moveAt_drop] at hshort
      refine .inr ⟨.inr ⟨1 + i, by omega, by omega, hshort⟩, ?_⟩
      refine (run_bind_stopped (hstopped.mono ?_)).endsWith
      rintro d rfl
      exact hpublished
    · rw [moveAt_drop] at hshort
      refine .inr ⟨.inr ⟨1 + i, by omega, by omega, hshort⟩, ?_⟩
      exact (run_bind_stopped (hstopped.mono fun d hd =>
        hd.stateless (by decide) hstate)).endsWith
  · refine .inr ⟨.inl hmove, (run_bind_stopped (hstopped.mono ?_)).endsWith⟩
    rintro d rfl
    exact hstate

/-- **The three files**: all of them, or no state. -/
theorem run_initializeFiles (hsize : byteLength requestText ≤ maxOperationRecordBytes)
    (hempty : ∀ name, dir.files name = none) :
    Undisturbed moves ∧ EndsWith (Eq (filled owner dir requestText anchor.encode journal.text))
        entries journal.jobId (runMade owner entries journal.jobId
          (initializeFiles coordinator journal anchor requestText) moves dir).1 ∨
      ¬Undisturbed moves ∧ EndsWith (fun d => d.files stateFile = none) entries journal.jobId
        (runMade owner entries journal.jobId
          (initializeFiles coordinator journal anchor requestText) moves dir).1 := by
  have hdisturbed : ∀ i < 20, moveAt moves i ≠ .go → (i = 7 → moveAt moves i = .die) →
      ¬Undisturbed moves := by
    intro i hi hgo hdie hundisturbed
    rcases hundisturbed i hi with h | ⟨rfl, h⟩
    · exact hgo h
    · exact h (hdie rfl)
  have hother : ∀ name, name ≠ requestFile →
      (dir.withFile owner requestFile requestText).files name = none :=
    fun name hname => (withFile_other hname).trans (hempty _)
  unfold initializeFiles
  rcases @run_atomicWrite _ _ hfresh owner moves dir requestFile requestText
    coordinator.generation 0 hsize (hempty _) (tempName_ne (by decide)) with
    ⟨hgo, hrun⟩ | ⟨-, ⟨i, hi, hmove⟩, hstopped⟩ | ⟨⟨i, hi, hmove⟩, hstopped⟩
  · rw [run_bind_ok hrun]
    rcases @run_laterFiles _ owner (moves.drop 7) _ coordinator journal anchor hfresh hv
      (hother _ (by decide)) (hother _ (tempName_ne (by decide)).symm) (hother _ (by decide)) with
      ⟨⟨hunlink, hlater⟩, hends⟩ | ⟨hshort, hends⟩
    · refine .inl ⟨fun i hi => ?_, hends⟩
      rcases Nat.lt_trichotomy i 7 with h | rfl | h
      · exact .inl (hgo i h)
      · rw [moveAt_drop] at hunlink
        exact .inr ⟨rfl, hunlink⟩
      · have := hlater (i - 7) (by omega) (by omega)
        rw [moveAt_drop, show 7 + (i - 7) = i by omega] at this
        exact .inl this
    · refine .inr ⟨?_, hends⟩
      rcases hshort with hdie | ⟨i, hi1, hi13, hmove⟩
      · rw [moveAt_drop] at hdie
        exact hdisturbed 7 (by omega) (by simp [hdie]) fun _ => hdie
      · rw [moveAt_drop] at hmove
        exact hdisturbed (7 + i) (by omega) hmove (by omega)
  · refine .inr ⟨hdisturbed i (by omega) hmove (by omega), ?_⟩
    refine (run_bind_stopped (hstopped.mono ?_)).endsWith
    rintro d rfl
    exact hother _ (by decide)
  · refine .inr ⟨hdisturbed i (by omega) hmove (by omega), ?_⟩
    exact (run_bind_stopped (hstopped.mono fun d hd =>
      hd.stateless (tempName_ne (by decide)) (hempty _))).endsWith

end

end Files

/-- The calls of `create` after the first, up to the one that publishes the state, are not
disturbed; only the tenth, the removal of an old temporary file, may fail. -/
def Uninterrupted (moves : List (Move Failure)) : Prop :=
  ∀ i, 1 ≤ i → i < 22 → moveAt moves i = .go ∨ i = 9 ∧ moveAt moves i ≠ .die

theorem uninterrupted_iff {moves : List (Move Failure)} :
    Uninterrupted moves ↔ moveAt moves 1 = .go ∧ Undisturbed (moves.drop 2) := by
  constructor
  · intro h
    constructor
    · rcases h 1 (by decide) (by decide) with hgo | ⟨hne, -⟩
      · exact hgo
      · cases hne
    · intro i hi
      rw [moveAt_drop]
      rcases h (2 + i) (by omega) (by omega) with hgo | ⟨hnine, hdie⟩
      · exact .inl hgo
      · exact .inr ⟨by omega, hdie⟩
  · rintro ⟨hfirst, hrest⟩ i hi1 hi22
    by_cases hi : i = 1
    · exact .inl (hi ▸ hfirst)
    · have hmove := hrest (i - 2) (by omega)
      rw [moveAt_drop, show 2 + (i - 2) = i by omega] at hmove
      rcases hmove with hgo | ⟨hseven, hdie⟩
      · exact .inl hgo
      · exact .inr ⟨by omega, hdie⟩

def privateDir (owner : Owner) : JobDir where
  uid := owner.uid
  mode := 0o700
  files _ := none

def completeDir (net : AddressText) (owner : Owner) (request : OperationRequest)
    (journal : JobJournal) (anchor : DeadlineAnchor) : JobDir :=
  filled owner (privateDir owner) (request.requestText net request.schema) anchor.encode
    journal.text

section Outcome

variable {net : AddressText} {owner : Owner} {coordinator : CoordinatorIdentity}
  {bootClock : Except String UInt64} {request : OperationRequest} {journal : JobJournal}
  {anchor : DeadlineAnchor} {entries : Entries} {moves : List (Move Failure)}

/-- The state in which `create` ends. -/
def created (net : AddressText) (owner : Owner) (coordinator : CoordinatorIdentity)
    (bootClock : Except String UInt64) (request : OperationRequest) (journal : JobJournal)
    (moves : List (Move Failure)) (entries : Entries) : Entries :=
  ((create net coordinator bootClock request journal).runMoves (system owner) moves entries).1.state

/-- The checks that `create` makes first. -/
theorem admitted_facts (h : admitted net coordinator bootClock request journal = .ok anchor) :
    request.validate net = .ok () ∧ request.validateAdmissionPolicy net = .ok () ∧
      journal.validate = .ok () ∧ sameJob request journal = true := by
  simp only [admitted, bind_ok, exists_unit, check_ok] at h
  obtain ⟨hrequest, hpolicy, hjournal, hsame, -⟩ := h
  exact ⟨hrequest, hpolicy, hjournal, hsame⟩

theorem created_of_refused {error : String}
    (h : admitted net coordinator bootClock request journal = .error error) :
    created net owner coordinator bootClock request journal moves entries = entries := by
  unfold created create
  rw [h]
  simp [Program.lift, Outcome.state]

theorem created_of_unmade (h : admitted net coordinator bootClock request journal = .ok anchor)
    (hunmade : moveAt moves 0 ≠ .go ∨ ¬Fresh entries journal.jobId) :
    created net owner coordinator bootClock request journal moves entries = entries := by
  unfold created create call
  rw [h]
  simp only [Program.lift, Program.ret_ok_bind, Program.call_bind]
  cases hmove : moveAt moves 0 with
  | fail how =>
    rw [Program.runMoves_fail hmove]
    simp [system, FsCall.failing, Except.mapError, Outcome.state]
  | die =>
    rw [Program.runMoves_die hmove]
    rfl
  | go =>
    have hexists : (entries.any fun entry => entry.1 == .utf8 journal.jobId) = true := by
      rcases hunmade with hne | hnot
      · exact absurd hmove hne
      · unfold Fresh at hnot
        push Not at hnot
        obtain ⟨entry, hmem, hname⟩ := hnot
        exact any_eq_true.2 ⟨entry, hmem, by simpa using hname⟩
    rw [Program.runMoves_go hmove]
    simp [system, FsCall.exec, hexists, Except.mapError, Outcome.state]

/-- What `create` says of a failure does not change what it left. -/
theorem state_attempt (p : Io Unit) (message : String) (s : Entries) :
    ((do
      match ← p.attempt with
      | .ok () => pure ()
      | .error error => throw (message ++ error) : Io Unit).runMoves (system owner) moves s).1.state
      = (p.runMoves (system owner) moves s).1.state := by
  rw [Program.runMoves_bind, Program.runMoves_attempt]
  obtain ⟨o, rest⟩ := p.runMoves (system owner) moves s
  cases o with
  | crashed s => rfl
  | returned r s =>
    cases r with
    | ok u => simp
    | error e => simp [Outcome.state]

/-- **Once the directory is made**: the complete job, or a directory without a state. -/
theorem created_of_made (h : admitted net coordinator bootClock request journal = .ok anchor)
    (hmove : moveAt moves 0 = .go) (hfresh : Fresh entries journal.jobId) :
    Uninterrupted moves ∧ created net owner coordinator bootClock request journal moves entries
        = made entries journal.jobId (completeDir net owner request journal anchor) ∨
      ¬Uninterrupted moves ∧ ∃ dir, dir.files stateFile = none ∧
        created net owner coordinator bootClock request journal moves entries
          = made entries journal.jobId dir := by
  obtain ⟨hrequest, -, hjournal, -⟩ := admitted_facts h
  have hencode : request.encode net = .ok (request.requestText net request.schema) :=
    encode_eq_ok.2 ⟨hrequest, rfl⟩
  have hsize : byteLength (request.requestText net request.schema) ≤ maxOperationRecordBytes := by
    have hfacts := facts hrequest
    exact byteLength_requestText_le hfacts (schema_represents hfacts).supported.2
  have hnone : (entries.any fun entry => entry.1 == .utf8 journal.jobId) = false := by
    rw [any_eq_false]
    intro entry hmem
    simpa using hfresh entry hmem
  have hrun : created net owner coordinator bootClock request journal moves entries
      = (runMade owner entries journal.jobId (do
          call (.inDir journal.jobId (.setPermissions 0o700))
            "unable to secure job journal directory"
          match ← (initializeFiles coordinator journal anchor
            (request.requestText net request.schema)).attempt with
          | .ok () => pure ()
          | .error error => throw ("unable to initialize job journal: " ++ error))
        (moves.drop 1) { privateDir owner with mode := masked 0o777 owner.umask }).1.state := by
    unfold created create
    rw [h, hencode]
    simp only [Program.lift, Program.ret_ok_bind]
    unfold call
    rw [Program.call_bind, Program.runMoves_go hmove]
    simp only [system, FsCall.exec, hnone]
    rfl
  rw [hrun, uninterrupted_iff]
  refine @run_call _ _ hfresh owner (fun d => d.files stateFile = none) moves _ 1 (fun result =>
    (moveAt moves 1 = .go ∧ Undisturbed (moves.drop 2)) ∧ result.1.state
        = made entries journal.jobId (completeDir net owner request journal anchor) ∨
      ¬(moveAt moves 1 = .go ∧ Undisturbed (moves.drop 2)) ∧ ∃ dir, dir.files stateFile = none ∧
        result.1.state = made entries journal.jobId dir)
    _ _ _ ?_ ?_ ?_ (fun hne result hstopped => ?_) fun hgo => ?_
  · rfl
  · exact fun _ => rfl
  · rfl
  · exact .inr ⟨fun hall => hne hall.1, hstopped.endsWith⟩
  · rw [runMade, state_attempt]
    rcases @run_initializeFiles _ owner (moves.drop 2) (privateDir owner) coordinator journal anchor
      _ hfresh hjournal hsize (fun _ => rfl) with
      ⟨hundisturbed, dir, rfl, hstate⟩ | ⟨hdisturbed, hends⟩
    · exact .inl ⟨⟨hgo, hundisturbed⟩, hstate⟩
    · exact .inr ⟨fun hall => hdisturbed hall.2, hends⟩

end Outcome

def survivors (entries : Entries) : Entries :=
  entries.filter fun entry => !retiredName entry.1.toStringLossy

/-- `open` finishes the interrupted retirements, and nothing else. -/
theorem finish_eq_ok {owner : Owner} {entries kept : Entries}
    (h : finishInterruptedRetirements owner entries = .ok kept) : kept = survivors entries := by
  induction entries generalizing kept with
  | nil => exact (Except.ok.inj h).symm
  | cons entry rest ih =>
    obtain ⟨name, node⟩ := entry
    cases name with
    | notUtf8 lossy => cases h
    | utf8 name =>
      unfold finishInterruptedRetirements at h
      cases hretired : retiredName name with
      | true =>
        simp only [hretired, if_true, bind_ok] at h
        obtain ⟨-, -, hrest⟩ := h
        simp [survivors, EntryName.toStringLossy, hretired, ih hrest]
      | false =>
        simp only [hretired, Bool.false_eq_true, if_false, bind_ok] at h
        obtain ⟨kept', hrest, hkept⟩ := h
        cases hkept
        simp [survivors, EntryName.toStringLossy, hretired, ih hrest]

theorem finish_made {owner : Owner} {entries kept : Entries} {job : Text}
    (hjob : retiredName job = false) (h : finishInterruptedRetirements owner entries = .ok kept) :
    finishInterruptedRetirements owner (made entries job dir) = .ok (made kept job dir) := by
  induction entries generalizing kept with
  | nil =>
    cases h
    simp [made, finishInterruptedRetirements, hjob, bind, Except.bind, pure, Except.pure]
  | cons entry rest ih =>
    obtain ⟨name, node⟩ := entry
    cases name with
    | notUtf8 lossy => cases h
    | utf8 name =>
      unfold made at ih ⊢
      rw [cons_append]
      unfold finishInterruptedRetirements at h ⊢
      cases hretired : retiredName name with
      | true =>
        simp only [hretired, if_true, bind_ok] at h ⊢
        obtain ⟨secured, hsecure, hrest⟩ := h
        exact ⟨secured, hsecure, ih hrest⟩
      | false =>
        simp only [hretired, Bool.false_eq_true, if_false, bind_ok] at h ⊢
        obtain ⟨kept', hrest, hkept⟩ := h
        cases hkept
        exact ⟨_, ih hrest, rfl⟩

section Next

variable {net : AddressText} {owner : Owner} {clocks : Clocks} {next : CoordinatorIdentity}
  {stillMatches : ProcessIdentity → Except String Bool} {entries kept anchored : Entries}
  {job : Text} {dir : JobDir}

theorem secure_eq_ok {secured : JobDir}
    (h : secureExistingJobDir owner (.directory dir) = .ok secured) : secured = dir := by
  simp only [secureExistingJobDir] at h
  split at h
  · cases h
  · exact (Except.ok.inj h).symm

theorem anchorEntry_made (h : (dir.files deadlineFile).isSome ∨ dir.files stateFile = none) :
    anchorEntry net owner clocks next (.utf8 job, .directory dir)
      = .ok (.utf8 job, .directory dir) := by
  unfold anchorEntry
  split
  · cases hsecure : secureExistingJobDir owner (.directory dir) with
    | error e => rfl
    | ok secured =>
      obtain rfl := secure_eq_ok hsecure
      rcases h with hdeadline | hstate
      · simp [hdeadline]
      · have hunread : ∃ e, readRecords net owner job secured = .error e := by
          unfold readRecords readBounded
          rw [hstate]
          exact ⟨_, rfl⟩
        obtain ⟨e, hunread⟩ := hunread
        by_cases hdeadline : (secured.files deadlineFile).isSome
        · simp [hdeadline]
        · simp only [hdeadline, anchorDir, EntryName.toStringLossy, hunread]
          rfl
  · rfl

section

variable (h : anchorJobsWithoutDeadline net owner clocks next kept = .ok anchored)
include h

theorem anchor_append {entry : EntryName × Node}
    (hentry : anchorEntry net owner clocks next entry = .ok entry) :
    anchorJobsWithoutDeadline net owner clocks next (kept ++ [entry]) = .ok (anchored ++ [entry]) := by
  induction kept generalizing anchored with
  | nil =>
    cases h
    simp [anchorJobsWithoutDeadline, hentry, bind, Except.bind, pure, Except.pure]
  | cons e rest ih =>
    simp only [cons_append, anchorJobsWithoutDeadline, bind_ok] at h ⊢
    obtain ⟨e', he', rest', hrest, hanchored⟩ := h
    cases hanchored
    exact ⟨e', he', _, ih hrest, rfl⟩

theorem anchor_length : anchored.length = kept.length := by
  induction kept generalizing anchored with
  | nil =>
    cases h
    rfl
  | cons e rest ih =>
    simp only [anchorJobsWithoutDeadline, bind_ok] at h
    obtain ⟨e', -, rest', hrest, hanchored⟩ := h
    cases hanchored
    simp [ih hrest]

end

/-- What `open` makes of a directory that gained a job. -/
theorem openStore_made (hjob : retiredName job = false)
    (hdir : (dir.files deadlineFile).isSome ∨ dir.files stateFile = none) {opened : Entries}
    (h : openStore net owner clocks next entries = .ok opened) :
    openStore net owner clocks next (made entries job dir) = .ok (made opened job dir) ∧
      opened.length = (survivors entries).length := by
  simp only [openStore, bind_ok] at h ⊢
  obtain ⟨kept, hkept, hopened⟩ := h
  refine ⟨⟨_, finish_made hjob hkept, anchor_append hopened (anchorEntry_made hdir)⟩, ?_⟩
  rw [anchor_length hopened, finish_eq_ok hkept]

theorem scan_eq_ok {found : JournalScan} (h : scan net owner next stillMatches entries = .ok found) :
    entries.length ≤ maxJournalDirectoryEntries ∧
      found.jobs.Perm ((entries.map (scanEntry net owner next stillMatches)).filterMap
        Sum.getLeft?) ∧
      found.unsafeEntries
        = (entries.map (scanEntry net owner next stillMatches)).filterMap Sum.getRight? := by
  simp only [scan, bind_ok, exists_unit, check_ok, decide_eq_true_eq] at h
  obtain ⟨hlength, hfound⟩ := h
  cases hfound
  exact ⟨hlength, perm_insertionSort _ _, rfl⟩

theorem scan_of_length (h : entries.length ≤ maxJournalDirectoryEntries) :
    ∃ found, scan net owner next stillMatches entries = .ok found := by
  simp only [scan, h, decide_true, check_true]
  exact ⟨_, rfl⟩

theorem scanEntry_stateless (hname : jobName job = true) (hstate : dir.files stateFile = none) :
    ∃ error, scanEntry net owner next stillMatches (.utf8 job, .directory dir) = .inr error := by
  simp only [scanEntry, EntryName.toStringLossy, hname, if_true]
  cases hsecure : secureExistingJobDir owner (.directory dir) with
  | error e => exact ⟨_, rfl⟩
  | ok secured =>
    obtain rfl := secure_eq_ok hsecure
    have hunread : ∃ e, scanOne net owner next stillMatches secured job = .error e := by
      unfold scanOne readRecords readBounded
      rw [hstate]
      exact ⟨_, rfl⟩
    obtain ⟨e, hunread⟩ := hunread
    simp only [hunread]
    exact ⟨_, rfl⟩

theorem readBounded_of_file {file contents : Text}
    (hfile : dir.files file = some (.regular owner.uid 0o600 (utf8 contents)))
    (hsize : byteLength contents ≤ maxOperationRecordBytes) :
    readBounded owner job dir file = .ok contents := by
  have hlength : decide ((utf8 contents).length ≤ maxOperationRecordBytes) = true :=
    decide_eq_true hsize
  simp [readBounded, hfile, hlength, bind, Except.bind, fromUtf8_utf8, orError]

end Next

section Complete

variable {net : AddressText} {owner : Owner} {coordinator next : CoordinatorIdentity}
  {bootClock : Except String UInt64} {stillMatches : ProcessIdentity → Except String Bool}
  {request : OperationRequest} {journal : JobJournal} {anchor : DeadlineAnchor}

/-- The job that `create` was asked for, as the next scan reports it. -/
def scannedJob (next : CoordinatorIdentity) (stillMatches : ProcessIdentity → Except String Bool)
    (request : OperationRequest) (journal : JobJournal) : ScannedJob where
  request
  journal
  disposition := dispositionOf next stillMatches journal

theorem scanEntry_complete (h : admitted net coordinator bootClock request journal = .ok anchor) :
    scanEntry net owner next stillMatches
        (.utf8 journal.jobId, .directory (completeDir net owner request journal anchor))
      = .inl (scannedJob next stillMatches request journal) := by
  obtain ⟨hrequest, hpolicy, hjournal, hsame⟩ := admitted_facts h
  have hfacts := facts hrequest
  have hrepresents := schema_represents hfacts
  have hname : jobName journal.jobId = true := (facts hjournal).jobId
  have hsecure : secureExistingJobDir owner (.directory (completeDir net owner request journal anchor))
      = .ok (completeDir net owner request journal anchor) := by
    simp [secureExistingJobDir, completeDir, filled, privateDir, withFile, setFile]
  have hstate : readBounded owner journal.jobId (completeDir net owner request journal anchor)
      stateFile = .ok journal.text := by
    refine readBounded_of_file ?_ (text_size hjournal)
    simp [completeDir, filled, withFile, setFile]
  have hread : readBounded owner journal.jobId (completeDir net owner request journal anchor)
      requestFile = .ok (request.requestText net request.schema) := by
    have hne : requestFile ≠ stateFile ∧ requestFile ≠ deadlineFile := by decide
    refine readBounded_of_file ?_ (byteLength_requestText_le hfacts hrepresents.supported.2)
    simp [completeDir, filled, withFile, setFile, hne]
  have hrecords : readRecords net owner journal.jobId (completeDir net owner request journal anchor)
      = .ok (journal, request) := by
    simp only [readRecords, hstate, hread, bind, Except.bind, decode_text hjournal,
      decode_requestText hrequest hrepresents]
    rfl
  simp only [sameJob, Bool.and_eq_true, beq_iff_eq] at hsame
  obtain ⟨⟨⟨hjob, hinstance⟩, hinterface⟩, hsqm⟩ := hsame
  have hone : scanOne net owner next stillMatches (completeDir net owner request journal anchor)
      journal.jobId = .ok (scannedJob next stillMatches request journal) := by
    simp only [scanOne, hrecords, bind, Except.bind, hjob, hinstance, hinterface, hsqm,
      bne_self_eq_false,
      Bool.or_self, Bool.not_false, check_true, hpolicy]
    split <;> rfl
  simp [scanEntry, EntryName.toStringLossy, hname, hsecure, hone]

/-- What the next coordinator finds is what was there, or that and the complete new job, and no
new unsafe entry. -/
def Atomic (before after : JournalScan) (job : ScannedJob) : Prop :=
  after.unsafeEntries.Perm before.unsafeEntries ∧
    (after.jobs.Perm before.jobs ∨ after.jobs.Perm (job :: before.jobs))

/-- When creating a job is atomic: it is refused before the disk is touched, or its directory is
not made, or nothing disturbs the calls that follow until the state is published, and there was
room for one more entry. -/
def AtomicWhen (net : AddressText) (coordinator : CoordinatorIdentity)
    (bootClock : Except String UInt64) (request : OperationRequest) (journal : JobJournal)
    (moves : List (Move Failure)) (entries : Entries) : Prop :=
  (∃ error, admitted net coordinator bootClock request journal = .error error) ∨
    moveAt moves 0 ≠ .go ∨ ¬Fresh entries journal.jobId ∨
    Uninterrupted moves ∧ (survivors entries).length < maxJournalDirectoryEntries

theorem not_retired {name : Text} (h : jobName name = true) : retiredName name = false := by
  unfold retiredName stripPrefix
  rw [if_neg]
  · rfl
  · rintro ⟨rest, rfl⟩
    simp only [jobName, lowerHex, Bool.and_eq_true, all_eq_true] at h
    exact absurd (h.2 '.' (by simp [retiredJobPrefix, lit])) (by decide)

theorem reports_made {clocks : Clocks} {entries : Entries} {before : JournalScan} {job : Text}
    {dir : JobDir} (hjob : jobName job = true)
    (hdir : (dir.files deadlineFile).isSome ∨ dir.files stateFile = none)
    (hbefore : reports net owner next stillMatches clocks entries = .ok before) :
    ((survivors entries).length < maxJournalDirectoryEntries → ∃ after,
      reports net owner next stillMatches clocks (made entries job dir) = .ok after) ∧
    ∀ after, reports net owner next stillMatches clocks (made entries job dir) = .ok after →
      (survivors entries).length < maxJournalDirectoryEntries ∧
      (∀ found, scanEntry net owner next stillMatches (.utf8 job, .directory dir) = .inl found →
        after.unsafeEntries = before.unsafeEntries ∧ after.jobs.Perm (found :: before.jobs)) ∧
      (∀ error, scanEntry net owner next stillMatches (.utf8 job, .directory dir) = .inr error →
        after.unsafeEntries = before.unsafeEntries ++ [error]) := by
  simp only [reports, bind_ok] at hbefore
  obtain ⟨opened, hopened, hscan⟩ := hbefore
  obtain ⟨hmade, hlength⟩ := openStore_made (not_retired hjob) hdir hopened
  have hreports : reports net owner next stillMatches clocks (made entries job dir)
      = scan net owner next stillMatches (made opened job dir) := by
    simp [reports, hmade, bind, Except.bind]
  obtain ⟨-, hjobs, hreasons⟩ := scan_eq_ok hscan
  have hgrown : (made opened job dir).length = (survivors entries).length + 1 := by
    simp [made, hlength]
  rw [hreports]
  refine ⟨fun hroom => scan_of_length (by omega), fun after hafter => ?_⟩
  obtain ⟨hbound, hjobs', hreasons'⟩ := scan_eq_ok hafter
  simp only [made, map_append, filterMap_append] at hjobs' hreasons'
  refine ⟨by omega, fun found hfound => ?_, fun error herror => ?_⟩
  · rw [hreasons, hreasons']
    simp only [map_cons, map_nil, hfound, filterMap_cons, filterMap_nil,
      Sum.getRight?_inl, append_nil, Sum.getLeft?_inl, true_and] at hjobs' ⊢
    calc after.jobs.Perm _ := hjobs'
      List.Perm _ (found :: _) := perm_append_singleton _ _
      List.Perm _ (found :: before.jobs) := hjobs.symm.cons found
  · rw [hreasons, hreasons']
    simp [herror]

/-- **When `create` is atomic.**  Whatever was in the store, whatever fails and wherever the process
dies: the next `open` and `scan` report the jobs that were there, or those and the complete new job,
and no new unsafe entry, exactly when `AtomicWhen` holds. -/
theorem create_atomic_iff {clocks : Clocks} {entries : Entries} {before : JournalScan}
    (hbefore : reports net owner next stillMatches clocks entries = .ok before)
    (moves : List (Move Failure)) :
    (∃ after, reports net owner next stillMatches clocks
        (created net owner coordinator bootClock request journal moves entries) = .ok after ∧
      Atomic before after (scannedJob next stillMatches request journal)) ↔
    AtomicWhen net coordinator bootClock request journal moves entries := by
  have hsame : ∀ s, s = entries → ∃ after, reports net owner next stillMatches clocks s = .ok after ∧
      Atomic before after (scannedJob next stillMatches request journal) := by
    rintro s rfl
    exact ⟨before, hbefore, .refl _, .inl (.refl _)⟩
  cases hadmitted : admitted net coordinator bootClock request journal with
  | error e =>
    exact iff_of_true (hsame _ (created_of_refused hadmitted)) (.inl ⟨e, hadmitted⟩)
  | ok anchor =>
    by_cases hunmade : moveAt moves 0 ≠ .go ∨ ¬Fresh entries journal.jobId
    · exact iff_of_true (hsame _ (created_of_unmade hadmitted hunmade))
        (.inr (hunmade.elim .inl fun h => .inr (.inl h)))
    · push Not at hunmade
      obtain ⟨hmove, hfresh⟩ := hunmade
      have hname : jobName journal.jobId = true :=
        (facts (admitted_facts hadmitted).2.2.1).jobId
      rcases @created_of_made net owner _ _ _ _ _ _ _ hadmitted hmove hfresh with
        ⟨hundisturbed, hcreated⟩ | ⟨hdisturbed, dir, hstate, hcreated⟩
      · have hdir : ((completeDir net owner request journal anchor).files deadlineFile).isSome := by
          have hne : deadlineFile ≠ stateFile := by decide
          simp [completeDir, filled, withFile, setFile, hne]
        obtain ⟨hscanned, hreport⟩ := reports_made hname (.inl hdir) hbefore
        rw [hcreated]
        constructor
        · rintro ⟨after, hafter, -⟩
          exact .inr (.inr (.inr ⟨hundisturbed, (hreport after hafter).1⟩))
        · rintro (⟨e, he⟩ | hne | hnot | ⟨-, hroom⟩)
          · rw [hadmitted] at he
            cases he
          · exact absurd hmove hne
          · exact absurd hfresh hnot
          · obtain ⟨after, hafter⟩ := hscanned hroom
            obtain ⟨hreasons, hjobs⟩ := (hreport after hafter).2.1 _ (scanEntry_complete hadmitted)
            exact ⟨after, hafter, .of_eq hreasons, .inr hjobs⟩
      · obtain ⟨-, hreport⟩ := reports_made hname (.inr hstate) hbefore
        obtain ⟨error, herror⟩ := @scanEntry_stateless net owner next stillMatches _ _ hname hstate
        rw [hcreated]
        refine iff_of_false ?_ ?_
        · rintro ⟨after, hafter, hperm, -⟩
          have hlength := hperm.length_eq
          rw [(hreport after hafter).2.2 error herror, length_append] at hlength
          simp at hlength
        · rintro (⟨e, he⟩ | hne | hnot | ⟨hundisturbed, -⟩)
          · rw [hadmitted] at he
            cases he
          · exact absurd hmove hne
          · exact absurd hfresh hnot
          · exact hdisturbed hundisturbed

end Complete

def sampleOwner : Owner := ⟨0, 0o022, "/var/lib/cake-autorate/jobs"⟩

def sampleClocks : Clocks := ⟨.ok 1785568000000, .ok 60000⟩

/-- What the next coordinator finds after `create` in a store. -/
def sampleReport (moves : List (Move Failure)) (entries : Entries) : Except String JournalScan :=
  reports addressText sampleOwner sampleCoordinator (fun _ => .ok false) sampleClocks
    (created addressText sampleOwner sampleCoordinator (.ok 60000) managedRequest sampleJournal
      moves entries)

/-- A store with a file in it that is no job. -/
def strayStore : Entries := [(.utf8 (lit "stray"), .other)]

/-- Beside a stray file, and with a process that dies once the state is published, `create` adds the
job. -/
theorem sampleReport_complete :
    ∃ after, sampleReport (List.replicate 22 .go ++ [.die]) strayStore = .ok after ∧
      Atomic ⟨[], [lit "unsafe journal directory name: stray"]⟩ after
        (scannedJob sampleCoordinator (fun _ => .ok false) managedRequest sampleJournal) :=
  (create_atomic_iff rfl _).2 (.inr (.inr (.inr
    ⟨fun i _ hi => .inl (by interval_cases i <;> rfl), by decide⟩)))

theorem sampleReport_unsafe :
    reports addressText sampleOwner sampleCoordinator (fun _ => .ok false) sampleClocks []
      = .ok ⟨[], []⟩ ∧
    ∃ after, sampleReport [.go, .die] [] = .ok after ∧ after.unsafeEntries.length = 1 ∧
      ∀ job, ¬Atomic ⟨[], []⟩ after job := by
  refine ⟨rfl, _, rfl, by decide +kernel, fun job hatomic => ?_⟩
  have hlength := hatomic.1.length_eq
  exact absurd hlength (by decide +kernel)

end CakeAutorate.Journal
