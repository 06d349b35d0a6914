/-
# A policy is taken when it is committed

The two guarantees of the reader, and the run in which it takes a policy that nobody has committed:
a process stages a change after the reader has asked for the staged changes and before it asks for
the configuration.
-/

import CakeAutorate.SchedulerConfig.Runs

namespace CakeAutorate.SchedulerConfig

open Wire Protocol Syscall

/-- **The policy that is read.**  In a run in which every `uci show` is timely, a read that finds
nothing staged answers a configuration that was committed while the read that asked `uci` ran; and
in every run, a read during which nobody moves answers what a fresh reader would. -/
theorem reader_takes_committed {Config Change Instance : Type} (uci : Uci Config Change)
    (parseInstance : Text → RawSection → Except String Instance) :
    (∀ (w w' : World Config Change Instance) (snapshot : SchedulerConfigSnapshot Instance),
      Reached uci parseInstance true w →
      Exec ((machine uci).restrict (Allowed true)) (read parseInstance) w.started
        (.returned (.ok (true, snapshot)) w') →
      Backed uci parseInstance w'.moments snapshot) ∧
    (∀ (w w' : World Config Change Instance) (a : Bool × SchedulerConfigSnapshot Instance),
      Reached uci parseInstance false w →
      Exec (quiet uci) (read parseInstance) w.started (.returned (.ok a) w') →
      (answered (perform uci) (read parseInstance) { w.started with last := none }).1 = .ok a) := by
  constructor
  · intro w w' snapshot hw hread
    have hanswers := (wp_sound (wp_read hw.kept) hread).2
    exact hanswers.2 snapshot rfl rfl
  · intro w w' a hw hread
    have hdirect := (wp_sound (quiet_read hw.kept) hread).2
    rw [answered_fresh]
    exact hdirect a rfl

def textUci : Uci Text Text where
  apply _ change := change
  printed config := config
  line change := change

def withoutPolicy (_ : Text) (_ : RawSection) : Except String Unit :=
  .error "scheduled capacity learning policy is missing"

def emptyPackages : World Text Text Unit where
  policy _ := ⟨[], []⟩
  identity _ := none
  had _ := [none]
  last := none
  origin := []
  since := []
  replies := []

/-- A section's name and one of its options. -/
def intervalPolicy (name : Text) (section_ : RawSection) : Except String (Text × Text) :=
  match section_.options.getD (lit "scheduled_autotune_interval_hours") [] with
  | [raw] => do
    let hours ← parseScalar raw
    return (name, hours)
  | _ => .error "scheduled capacity learning policy is missing"

def policyEvery (hours : String) : Text :=
  lit "cake-autorate.wan='cake_autorate'\n" ++
    lit s!"cake-autorate.wan.scheduled_autotune_interval_hours='{hours}'\n"

def fileAt (inode : ℕ) : FileIdentity := ⟨1, inode, 0, (10, 0), (10, 0)⟩

section Moves

variable (n : ℕ) (change : Text) (w : World Text Text (Text × Text))

/-- Somebody's `uci set`. -/
def changed : World Text Text (Text × Text) :=
  (w.setPackage .cakeAutorate ⟨(w.policy .cakeAutorate).committed,
    (w.policy .cakeAutorate).staged ++ [change]⟩).touch (.delta .cakeAutorate) (fileAt n)

/-- Somebody's `uci commit`. -/
def settled : World Text Text (Text × Text) :=
  ((w.setPackage .cakeAutorate ⟨(w.policy .cakeAutorate).staged.foldl textUci.apply
    (w.policy .cakeAutorate).committed, []⟩).touch (.config .cakeAutorate) (fileAt n)).touch
      (.delta .cakeAutorate) (fileAt (n + 1))

end Moves

/-- A policy is committed, and somebody sets another and commits it. -/
def hourly : World Text Text (Text × Text) :=
  settled 2 (changed 1 (policyEvery "1")
    { policy := fun p => ⟨if p = .cakeAutorate then policyEvery "24" else [], []⟩
      identity := fun _ => none
      had := fun _ => [none]
      last := none
      origin := []
      since := []
      replies := [] })

/-- Before `uci show`, somebody sets a third one and commits it. -/
def commitsBeforeShow : Call (Text × Text) → World Text Text (Text × Text) →
    World Text Text (Text × Text)
  | .uciShow, w =>
    if some (fileAt 4) ∉ w.had (.delta .cakeAutorate) ∧
        some (fileAt 5) ∉ w.had (.config .cakeAutorate) ∧
        some (fileAt 6) ∉ (changed 4 (policyEvery "48") w).had (.delta .cakeAutorate) then
      settled 5 (changed 4 (policyEvery "48") w)
    else w
  | _, w => w

theorem commitsBeforeShow_env (c : Call (Text × Text)) (w : World Text Text (Text × Text)) :
    (machine textUci).Env w (commitsBeforeShow c w) := by
  cases c with
  | uciShow =>
    rw [commitsBeforeShow]
    split
    · rename_i hfresh
      obtain ⟨hset, hconfig, hdelta⟩ := hfresh
      exact .tail (.single (.set w .cakeAutorate _ (fileAt 4) hset))
        (.commit _ .cakeAutorate (fileAt 5) (fileAt 6) hconfig hdelta)
    · exact .refl
  | _ => exact .refl

/-- `Timely`, as far as it is computed. -/
def timelyAt : Call (Text × Text) → World Text Text (Text × Text) → Bool
  | .uciShow, w => (w.policy .cakeAutorate).staged.isEmpty && w.since.any fun m =>
    (m .cakeAutorate).staged.isEmpty && (m .sqm).staged.isEmpty &&
      (m .cakeAutorate).committed == (w.policy .cakeAutorate).committed
  | _, _ => true

theorem timelyAt_allowed {c : Call (Text × Text)} {w : World Text Text (Text × Text)}
    (h : timelyAt c w = true) (timely : Bool) : Allowed timely c w := by
  rintro - rfl -
  rw [timelyAt, Bool.and_eq_true, List.any_eq_true] at h
  obtain ⟨hstaged, m, hm, hmoment⟩ := h
  simp only [Bool.and_eq_true, List.isEmpty_iff, beq_iff_eq] at hstaged hmoment
  refine ⟨hstaged, m, hm, fun p => ?_, hmoment.2⟩
  cases p
  · exact hmoment.1.1
  · exact hmoment.1.2

/-- The read during which the third policy is committed. -/
def committedMeanwhile : Except String (Bool × SchedulerConfigSnapshot (Text × Text)) ×
    World Text Text (Text × Text) :=
  play (perform textUci) commitsBeforeShow (read intervalPolicy) hourly.started

/-- The next read, which fills the cache. -/
def filled : Except String (Bool × SchedulerConfigSnapshot (Text × Text)) ×
    World Text Text (Text × Text) :=
  play (perform textUci) (fun _ w => w) (read intervalPolicy) committedMeanwhile.2.started

/-- The read after it. -/
def cached : Except String (Bool × SchedulerConfigSnapshot (Text × Text)) ×
    World Text Text (Text × Text) :=
  answered (perform textUci) (read intervalPolicy) filled.2.started

/-- **A policy that is committed while it is read** is the one that is taken, and is answered from the
cache later. -/
theorem committed_policy_taken :
    committedMeanwhile.1 = .ok (true, ⟨[(lit "wan", lit "48")], []⟩) ∧
    Backed textUci intervalPolicy committedMeanwhile.2.moments ⟨[(lit "wan", lit "48")], []⟩ ∧
    cached.1 = .ok (true, ⟨[(lit "wan", lit "48")], []⟩) ∧ cached.2.replies = [] ∧
    (answered (perform textUci) (read intervalPolicy) { filled.2.started with last := none }).1 =
      .ok (true, ⟨[(lit "wan", lit "48")], []⟩) := by
  have hstart : ∀ timely, Reached textUci intervalPolicy timely hourly := fun timely =>
    .foreign (.foreign (.start _ rfl fun _ => List.mem_cons_self)
      (.set _ .cakeAutorate _ (fileAt 1) (by decide)))
        (.commit _ .cakeAutorate (fileAt 2) (fileAt 3) (by decide) (by decide))
  have hstep : ∀ (timely : Bool) (c : Call (Text × Text)) (w : World Text Text (Text × Text)),
      timelyAt c w = true → ((machine textUci).restrict (Allowed timely)).step c w
        (perform textUci c w).1 (perform textUci c w).2 :=
    fun timely c w h => ⟨timelyAt_allowed h timely, .inl rfl⟩
  have hanswer : committedMeanwhile.1 = .ok (true, ⟨[(lit "wan", lit "48")], []⟩) := by
    decide +kernel
  have hcached : cached.1 = .ok (true, ⟨[(lit "wan", lit "48")], []⟩) := by decide +kernel
  have hread : ∀ timely, Exec ((machine textUci).restrict (Allowed timely)) (read intervalPolicy)
      hourly.started (.returned committedMeanwhile.1 committedMeanwhile.2) := fun timely =>
    exec_play timelyAt (hstep timely) commitsBeforeShow_env _ _ (by decide +kernel)
  have hfilled : Exec ((machine textUci).restrict (Allowed false)) (read intervalPolicy)
      committedMeanwhile.2.started (.returned filled.1 filled.2) := by
    refine exec_play (fun _ _ => true) (fun c w _ => ?_) (fun _ _ => .refl) _ _
      (allowed_true _ _ _ _)
    exact ⟨fun h => absurd h Bool.false_ne_true, .inl rfl⟩
  have hquiet : Exec (quiet textUci) (read intervalPolicy) filled.2.started
      (.returned cached.1 cached.2) := exec_answered _ _
  rw [hcached] at hquiet
  have hmade := hread true
  rw [hanswer] at hmade
  exact ⟨hanswer, (reader_takes_committed textUci intervalPolicy).1 _ _ _ (hstart true) hmade,
    hcached, by decide +kernel, (reader_takes_committed textUci intervalPolicy).2 _ _ _
      (.read (.read (hstart false) (hread false)) hfilled) hquiet⟩

def addedSection : Text := lit "cake-autorate.wan='cake_autorate'\n"

def stagedFile : FileIdentity := ⟨1, 7, addedSection.length, (10, 0), (10, 0)⟩

/-- Before `uci show`, somebody adds the section and does not commit it. -/
def stagesBeforeShow : Call Unit → World Text Text Unit → World Text Text Unit
  | .uciShow, w =>
    if some stagedFile ∈ w.had (.delta .cakeAutorate) then w
    else (w.setPackage .cakeAutorate ⟨(w.policy .cakeAutorate).committed,
      (w.policy .cakeAutorate).staged ++ [addedSection]⟩).touch (.delta .cakeAutorate) stagedFile
  | _, w => w

def stagedSnapshot : SchedulerConfigSnapshot Unit :=
  ⟨[], [⟨lit "wan", "scheduled capacity learning policy is missing"⟩]⟩

theorem stagesBeforeShow_env (c : Call Unit) (w : World Text Text Unit) :
    (machine textUci).Env w (stagesBeforeShow c w) := by
  cases c with
  | uciShow =>
    by_cases hhad : some stagedFile ∈ w.had (.delta .cakeAutorate)
    · rw [stagesBeforeShow, if_pos hhad]
      exact .refl
    · rw [stagesBeforeShow, if_neg hhad]
      exact .single (.set w .cakeAutorate addedSection stagedFile hhad)
  | _ => exact .refl

theorem moments_of_staging :
    (play (perform textUci) stagesBeforeShow (read withoutPolicy) emptyPackages.started).2.moments =
    [emptyPackages.policy, Function.update emptyPackages.policy .cakeAutorate
      ⟨[], [addedSection]⟩] := rfl

/-- **A staged policy is taken for a committed one.** -/
theorem staged_policy_taken : ∃ (w w' : World Text Text Unit)
    (snapshot : SchedulerConfigSnapshot Unit), Reached textUci withoutPolicy false w ∧
      Exec (machine textUci) (read withoutPolicy) w.started (.returned (.ok (true, snapshot)) w') ∧
      ¬Backed textUci withoutPolicy w'.moments snapshot := by
  have hstep : ∀ (c : Call Unit) (s : World Text Text Unit), (fun _ _ => true) c s = true →
      (machine textUci).step c s (perform textUci c s).1 (perform textUci c s).2 :=
    fun _ _ _ => .inl rfl
  have hrun := exec_play (fun _ _ => true) hstep stagesBeforeShow_env (read withoutPolicy)
    emptyPackages.started (allowed_true _ _ _ _)
  have hanswer : (play (perform textUci) stagesBeforeShow (read withoutPolicy)
      emptyPackages.started).1 = .ok (true, stagedSnapshot) := by decide +kernel
  rw [hanswer] at hrun
  refine ⟨_, _, _, .start emptyPackages rfl fun _ => List.mem_cons_self, hrun, ?_⟩
  rintro ⟨m, hm, hclean, hparse⟩
  rw [moments_of_staging, List.mem_cons, List.mem_singleton] at hm
  rcases hm with rfl | rfl
  · have hempty : parseScheduledInstances withoutPolicy [] ≠ .ok stagedSnapshot := by
      decide +kernel
    exact hempty hparse
  · have hstaged := hclean .cakeAutorate
    rw [Function.update_self] at hstaged
    cases hstaged

end CakeAutorate.SchedulerConfig
