/-
# The schedule cursor

`ScheduleCursor` and `evaluate_schedule` of `operations/scheduler.rs`: the durable
cursor of one instance, and the decision whether its due slot may run now.  A failed
attempt leaves a fence that holds while due time, generations and retry sequence stay
the same; a success moves the due time by an interval.  Times and counters are `u64`
values: an addition that leaves the range is refused where the source checks it.
-/

import CakeAutorate.Protocol.Request

namespace CakeAutorate.Scheduler

open Wire Protocol

def maxExactBytes : ℕ := 9007199254740991

def requireIdentifier (name : String) (value : Text) : Except String Unit :=
  check (!(value.isEmpty || decide (byteLength value > 64)
    || !value.all fun c => isAsciiAlphanumeric c || (lit "_.:-").contains c))
    (name ++ " is invalid")

def requireLowerHex (name : String) (value : Text) (bytes : ℕ) : Except String Unit :=
  check (lowerHex bytes value) (name ++ " is invalid")

structure SchedulerGenerations where
  configFingerprint : Text
  routeFingerprint : Text
  runtimeSequence : ℕ
  coordinatorGeneration : Text
  deriving DecidableEq

def SchedulerGenerations.validate (g : SchedulerGenerations) : Except String Unit := do
  requireLowerHex "scheduler config fingerprint" g.configFingerprint 64
  requireLowerHex "scheduler route fingerprint" g.routeFingerprint 64
  check (g.runtimeSequence != 0) "scheduler runtime sequence must be non-zero"
  requireLowerHex "scheduler coordinator generation" g.coordinatorGeneration 32

/-- An attempt that failed, and under what. -/
structure FailedAttemptFence where
  dueUnixS : ℕ
  intervalS : ℕ
  generations : SchedulerGenerations
  explicitRetrySequence : ℕ
  deriving DecidableEq

namespace FailedAttemptFence

def validate (f : FailedAttemptFence) : Except String Unit := do
  check (!(f.dueUnixS == 0 || f.intervalS == 0))
    "failed scheduler attempt is missing its due time or interval"
  f.generations.validate

def blocks (f : FailedAttemptFence) (dueUnixS : ℕ) (generations : SchedulerGenerations)
    (explicitRetrySequence : ℕ) : Bool :=
  f.dueUnixS == dueUnixS && f.generations == generations
    && f.explicitRetrySequence == explicitRetrySequence

end FailedAttemptFence

/-- Where the schedule of an instance stands. -/
structure ScheduleCursor where
  instance_ : Text
  sequence : ℕ
  initialDueUnixS : ℕ
  lastSuccessUnixS : Option ℕ
  failedAttempt : Option FailedAttemptFence
  deriving DecidableEq

namespace ScheduleCursor

variable (c : ScheduleCursor)

/-- `validate`, the fence. -/
def validateFence : Except String Unit :=
  match c.failedAttempt with
  | some fence => fence.validate
  | none => .ok ()

def validate : Except String Unit := do
  requireIdentifier "scheduler instance" c.instance_
  check (!(c.sequence == 0 || c.initialDueUnixS == 0)) "scheduler cursor identity is incomplete"
  c.validateFence

def new (instance_ : Text) (initialDueUnixS : ℕ) : Except String ScheduleCursor := do
  let cursor : ScheduleCursor :=
    { instance_, sequence := 1, initialDueUnixS, lastSuccessUnixS := none, failedAttempt := none }
  cursor.validate
  return cursor

/-- `due_unix_s`, an interval after the last success. -/
def intervalDue (intervalS : ℕ) : Except String ℕ :=
  match c.lastSuccessUnixS with
  | some last => checkedAdd last intervalS "scheduler due time overflow"
  | none => .ok c.initialDueUnixS

def dueUnixS (intervalS : ℕ) : Except String ℕ := do
  check (intervalS != 0) "scheduler interval must be non-zero"
  let intervalDue ← c.intervalDue intervalS
  return max intervalDue c.initialDueUnixS

/-- The checks of `record_failure` before it writes the cursor. -/
def failureChecks (fence : FailedAttemptFence) : Except String ℕ := do
  fence.validate
  let due ← c.dueUnixS fence.intervalS
  check (fence.dueUnixS == due) "scheduler failure does not belong to the current due slot"
  checkedAdd c.sequence 1 "scheduler cursor sequence overflow"

/-- `ScheduleCursor::record_failure`: the sequence and the fence are written before the
cursor is validated. -/
def recordFailure (fence : FailedAttemptFence) : ScheduleCursor × Except String Unit :=
  match c.failureChecks fence with
  | .error e => (c, .error e)
  | .ok sequence =>
    let next := { c with sequence, failedAttempt := some fence }
    (next, next.validate)

/-- The checks of `record_success` before it writes the cursor. -/
def successChecks (intervalS dueUnixS completedUnixS : ℕ) : Except String ℕ := do
  let due ← c.dueUnixS intervalS
  check (dueUnixS == due) "scheduler completion does not belong to the current due slot"
  check (!(dueUnixS == 0 || decide (completedUnixS < dueUnixS)))
    "scheduler completion precedes its due calendar slot"
  check (!c.lastSuccessUnixS.any fun last => decide (completedUnixS < last))
    "scheduler completion time moved backwards"
  checkedAdd c.sequence 1 "scheduler cursor sequence overflow"

/-- `ScheduleCursor::record_success`: the cursor is written before it is validated. -/
def recordSuccess (intervalS dueUnixS completedUnixS : ℕ) : ScheduleCursor × Except String Unit :=
  match c.successChecks intervalS dueUnixS completedUnixS with
  | .error e => (c, .error e)
  | .ok sequence =>
    let next := { c with sequence, lastSuccessUnixS := some completedUnixS, failedAttempt := none }
    (next, next.validate)

end ScheduleCursor

inductive SchedulerBlock where
  | disabled
  | clockMovedBackwards
  | windowClosed
  | configurationPending
  | recoveryPending
  | manualJobPriority
  | coordinatorBusy
  | routeNotReady
  | runtimeNotReady
  | quietWindowPending
  | accountingUnavailable
  | budgetExhausted
  | unchangedFailedAttempt
  deriving DecidableEq

/-- What an evaluation answers. -/
inductive SchedulerDecision where
  | dormant (block : SchedulerBlock)
  | wakeAt (unixS : ℕ)
  | awaitState (block : SchedulerBlock)
  | coalesced
  | admitted (dueUnixS trafficBudget : ℕ)
  deriving DecidableEq

structure SchedulerGates where
  configurationCommitted : Bool
  recoveryClear : Bool
  manualJobPending : Bool
  coordinatorIdle : Bool
  routeReady : Bool
  runtimeReady : Bool
  quietWindowReady : Bool
  accountingHealthy : Bool
  scheduledJobActive : Bool

/-- What an evaluation looks at. -/
structure SchedulerObservation where
  nowUnixS : ℕ
  windowOpen : Bool
  nextWindowOpenUnixS : Option ℕ
  generations : SchedulerGenerations
  explicitRetrySequence : ℕ
  gates : SchedulerGates

def SchedulerGates.firstClosed (g : SchedulerGates) : Option SchedulerBlock :=
  ([(g.configurationCommitted, SchedulerBlock.configurationPending),
    (g.recoveryClear, .recoveryPending),
    (!g.manualJobPending, .manualJobPriority),
    (g.coordinatorIdle, .coordinatorBusy),
    (g.routeReady, .routeNotReady),
    (g.runtimeReady, .runtimeNotReady),
    (g.quietWindowReady, .quietWindowPending),
    (g.accountingHealthy, .accountingUnavailable)].find? fun gate => !gate.1).map Prod.snd

/-- `evaluate_schedule`, the fence of a failed attempt: whether it blocks. -/
def fenceBlocks (failedAttempt : Option FailedAttemptFence) (dueUnixS : ℕ)
    (observation : SchedulerObservation) : Except String Bool :=
  match failedAttempt with
  | none => .ok false
  | some failure =>
    let sameAuthority := failure.generations == observation.generations
      && failure.explicitRetrySequence == observation.explicitRetrySequence
    if sameAuthority && failure.dueUnixS != dueUnixS then
      .error "scheduler due time changed without a configuration or retry generation"
    else .ok (failure.blocks dueUnixS observation.generations observation.explicitRetrySequence)

section

variable (maximumJobTrafficBytes availableTrafficBytes dueUnixS : ℕ) (cursor : ScheduleCursor)
  (observation : SchedulerObservation)

/-- `evaluate_schedule`, what is left once the slot is due and open. -/
def admitDue : Except String SchedulerDecision := do
  if ← fenceBlocks cursor.failedAttempt dueUnixS observation then
    return .awaitState .unchangedFailedAttempt
  else do
    check (!(decide (maximumJobTrafficBytes > maxExactBytes)
      || decide (availableTrafficBytes > maxExactBytes)))
      "scheduler traffic budget exceeds the exact accounting range"
    if min maximumJobTrafficBytes availableTrafficBytes = 0 then
      return .awaitState .budgetExhausted
    else return .admitted dueUnixS (min maximumJobTrafficBytes availableTrafficBytes)

/-- `evaluate_schedule`, from the due time on. -/
def evaluateDue : Except String SchedulerDecision :=
  if observation.nowUnixS < dueUnixS then .ok (.wakeAt dueUnixS)
  else if !observation.windowOpen then
    match observation.nextWindowOpenUnixS with
    | some next =>
      if next > observation.nowUnixS then .ok (.wakeAt next) else .ok (.awaitState .windowClosed)
    | none => .ok (.awaitState .windowClosed)
  else if observation.gates.scheduledJobActive then .ok .coalesced
  else match observation.gates.firstClosed with
    | some block => .ok (.awaitState block)
    | none => admitDue maximumJobTrafficBytes availableTrafficBytes dueUnixS cursor observation

end

def evaluateSchedule (enabled : Bool) (intervalS maximumJobTrafficBytes availableTrafficBytes : ℕ)
    (cursor : ScheduleCursor) (observation : SchedulerObservation) :
    Except String SchedulerDecision := do
  cursor.validate
  observation.generations.validate
  if !enabled then return .dormant .disabled
  else if cursor.lastSuccessUnixS.any fun last => decide (observation.nowUnixS < last) then
    return .awaitState .clockMovedBackwards
  else do
    let dueUnixS ← cursor.dueUnixS intervalS
    evaluateDue maximumJobTrafficBytes availableTrafficBytes dueUnixS cursor observation

theorem dueUnixS_eq_ok {c : ScheduleCursor} {intervalS due : ℕ} (h : c.dueUnixS intervalS = .ok due) :
    due = max c.initialDueUnixS ((c.lastSuccessUnixS.map (· + intervalS)).getD 0) := by
  simp only [ScheduleCursor.dueUnixS, bind_ok, exists_unit] at h
  obtain ⟨-, interval, hinterval, hdue⟩ := h
  obtain rfl : max interval c.initialDueUnixS = due := Except.ok.inj hdue
  unfold ScheduleCursor.intervalDue at hinterval
  cases hlast : c.lastSuccessUnixS with
  | none =>
    rw [hlast] at hinterval
    obtain rfl : c.initialDueUnixS = interval := Except.ok.inj hinterval
    simp
  | some last =>
    rw [hlast] at hinterval
    obtain ⟨-, rfl⟩ := checkedAdd_eq_ok.1 hinterval
    simp [max_comm]

/-- **What an admission says**: the slot is due now, no fence of the same authority is
left, and the budget is what the job may use and the ledger has. -/
theorem evaluateSchedule_admitted {enabled : Bool} {intervalS maximum available due budget : ℕ}
    {c : ScheduleCursor} {o : SchedulerObservation}
    (h : evaluateSchedule enabled intervalS maximum available c o = .ok (.admitted due budget)) :
    c.dueUnixS intervalS = .ok due ∧ due ≤ o.nowUnixS ∧
      (∀ f, c.failedAttempt = some f → f.generations = o.generations →
        f.explicitRetrySequence ≠ o.explicitRetrySequence) ∧
      budget = min maximum available ∧ 1 ≤ budget := by
  simp only [evaluateSchedule, andThen_eq_ok] at h
  obtain ⟨-, -, h⟩ := h
  split at h
  · cases h
  split at h
  · cases h
  obtain ⟨d, hdue, h⟩ := bind_ok.1 h
  unfold evaluateDue at h
  split at h
  · cases h
  split at h
  · split at h
    · split at h <;> cases h
    · cases h
  split at h
  · cases h
  split at h
  · cases h
  obtain ⟨blocked, hfence, h⟩ := bind_ok.1 h
  split at h
  · cases h
  rename_i hblocked
  obtain ⟨-, h⟩ := andThen_eq_ok.1 h
  split at h
  · cases h
  have hadmit : SchedulerDecision.admitted d (min maximum available) = .admitted due budget :=
    Except.ok.inj h
  obtain ⟨rfl, rfl⟩ := SchedulerDecision.admitted.inj hadmit
  refine ⟨hdue, by omega, fun f hf hgen hretry => hblocked ?_, rfl, by omega⟩
  -- with the same authority the fence is either an error or a block
  rw [hf] at hfence
  simp only [fenceBlocks, hgen, hretry, beq_self_eq_true, Bool.and_self, Bool.true_and] at hfence
  split at hfence
  · cases hfence
  · rename_i hsame
    have hd : f.dueUnixS = d := by simpa using hsame
    cases hfence
    simp [FailedAttemptFence.blocks, hgen, hretry, hd]

namespace ScheduleCursor

variable {c : ScheduleCursor}

theorem validate_eq_ok : c.validate = .ok () ↔
    requireIdentifier "scheduler instance" c.instance_ = .ok () ∧ c.sequence ≠ 0 ∧
      c.initialDueUnixS ≠ 0 ∧ c.validateFence = .ok () := by
  simp only [validate, andThen_eq_ok, check_ok, Bool.not_eq_true', Bool.or_eq_false_iff,
    beq_eq_false_iff_ne, and_assoc]

theorem failureChecks_eq_ok {fence : FailedAttemptFence} {n : ℕ}
    (h : c.failureChecks fence = .ok n) : fence.validate = .ok () ∧
      c.dueUnixS fence.intervalS = .ok fence.dueUnixS ∧ c.sequence + 1 < u64Bound ∧
      n = c.sequence + 1 := by
  simp only [failureChecks, bind_ok, exists_unit, check_ok, beq_iff_eq, checkedAdd_eq_ok] at h
  obtain ⟨hvalid, due, hdue, rfl, hlt, hn⟩ := h
  exact ⟨hvalid, hdue, hlt, hn⟩

theorem successChecks_eq_ok {intervalS due completed n : ℕ}
    (h : c.successChecks intervalS due completed = .ok n) : c.dueUnixS intervalS = .ok due ∧
      due ≤ completed ∧ (∀ last, c.lastSuccessUnixS = some last → last ≤ completed) ∧
      c.sequence + 1 < u64Bound ∧ n = c.sequence + 1 := by
  simp only [successChecks, bind_ok, exists_unit, check_ok, beq_iff_eq, checkedAdd_eq_ok,
    Bool.not_eq_true', Bool.or_eq_false_iff, decide_eq_false_iff_not, not_lt] at h
  obtain ⟨_, hdue, rfl, hcompleted, hlast, hlt, hn⟩ := h
  refine ⟨hdue, hcompleted.2, fun last hl => ?_, hlt, hn⟩
  simpa [hl] using hlast

/-- **What `record_failure` can do** to a valid cursor. -/
theorem recordFailure_cases (hv : c.validate = .ok ()) (fence : FailedAttemptFence) :
    (∃ e, c.recordFailure fence = (c, .error e)) ∨
      (c.recordFailure fence = ({ c with sequence := c.sequence + 1, failedAttempt := some fence },
        .ok ()) ∧ fence.validate = .ok () ∧ c.dueUnixS fence.intervalS = .ok fence.dueUnixS) := by
  unfold recordFailure
  split
  · exact .inl ⟨_, rfl⟩
  · rename_i n hn
    obtain ⟨hfence, hdue, -, rfl⟩ := failureChecks_eq_ok hn
    obtain ⟨hid, -, hinitial, -⟩ := validate_eq_ok.1 hv
    have hnext : validate { c with sequence := c.sequence + 1, failedAttempt := some fence }
        = .ok () := validate_eq_ok.2 ⟨hid, by simp, hinitial, hfence⟩
    exact .inr ⟨by simp only [hnext], hfence, hdue⟩

/-- **What `record_success` can do** to a valid cursor. -/
theorem recordSuccess_cases (hv : c.validate = .ok ()) (intervalS due completed : ℕ) :
    (∃ e, c.recordSuccess intervalS due completed = (c, .error e)) ∨
      (c.recordSuccess intervalS due completed = ({ c with
          sequence := c.sequence + 1, lastSuccessUnixS := some completed, failedAttempt := none },
        .ok ()) ∧ c.dueUnixS intervalS = .ok due ∧ due ≤ completed ∧
        ∀ last, c.lastSuccessUnixS = some last → last ≤ completed) := by
  unfold recordSuccess
  split
  · exact .inl ⟨_, rfl⟩
  · rename_i n hn
    obtain ⟨hdue, hle, hlast, -, rfl⟩ := successChecks_eq_ok hn
    obtain ⟨hid, -, hinitial, -⟩ := validate_eq_ok.1 hv
    have hnext : validate { c with
        sequence := c.sequence + 1, lastSuccessUnixS := some completed, failedAttempt := none }
        = .ok () := validate_eq_ok.2 ⟨hid, by simp, hinitial, rfl⟩
    exact .inr ⟨by simp only [hnext], hdue, hle, hlast⟩

end ScheduleCursor

/-- A call on the cursor; an evaluation only reads it. -/
inductive Event where
  | evaluate (enabled : Bool) (intervalS maximum available : ℕ) (observation : SchedulerObservation)
  | failure (fence : FailedAttemptFence)
  | success (intervalS dueUnixS completedUnixS : ℕ)

namespace ScheduleCursor

def step (c : ScheduleCursor) : Event → ScheduleCursor
  | .evaluate .. => c
  | .failure fence => (c.recordFailure fence).1
  | .success intervalS due completed => (c.recordSuccess intervalS due completed).1

def run (c : ScheduleCursor) (events : List Event) : ScheduleCursor := events.foldl step c

def Quiet (generations : SchedulerGenerations) (retry : ℕ) : ScheduleCursor → List Event → Prop
  | _, [] => True
  | c, event :: events =>
    (match event with
      | .evaluate .. => True
      | .failure fence => (c.recordFailure fence).2 = .ok () →
          fence.generations = generations ∧ fence.explicitRetrySequence = retry
      | .success intervalS due completed => (c.recordSuccess intervalS due completed).2 ≠ .ok ()) ∧
    Quiet generations retry (c.step event) events

variable {c : ScheduleCursor}

theorem validate_step (hv : c.validate = .ok ()) (event : Event) :
    (c.step event).validate = .ok () := by
  obtain ⟨hid, -, hinitial, -⟩ := validate_eq_ok.1 hv
  cases event with
  | evaluate => exact hv
  | failure fence =>
    rcases recordFailure_cases hv fence with ⟨e, he⟩ | ⟨he, hfence, -⟩
    · rw [step, he]
      exact hv
    · rw [step, he]
      exact validate_eq_ok.2 ⟨hid, by simp, hinitial, hfence⟩
  | success intervalS due completed =>
    rcases recordSuccess_cases hv intervalS due completed with ⟨e, he⟩ | ⟨he, -⟩
    · rw [step, he]
      exact hv
    · rw [step, he]
      exact validate_eq_ok.2 ⟨hid, by simp, hinitial, rfl⟩

theorem validate_run (hv : c.validate = .ok ()) (events : List Event) :
    (c.run events).validate = .ok () := by
  induction events generalizing c with
  | nil => exact hv
  | cons event events ih => exact ih (validate_step hv event)

def Fenced (generations : SchedulerGenerations) (retry : ℕ) (c : ScheduleCursor) : Prop :=
  ∃ fence, c.failedAttempt = some fence ∧ fence.generations = generations ∧
    fence.explicitRetrySequence = retry

theorem Fenced.run {generations : SchedulerGenerations} {retry : ℕ} {events : List Event}
    (hv : c.validate = .ok ()) (h : c.Fenced generations retry)
    (hquiet : Quiet generations retry c events) : (c.run events).Fenced generations retry := by
  induction events generalizing c with
  | nil => exact h
  | cons event events ih =>
    obtain ⟨hevent, hrest⟩ := hquiet
    refine ih (validate_step hv event) ?_ hrest
    cases event with
    | evaluate => exact h
    | failure fence =>
      rcases recordFailure_cases hv fence with ⟨e, he⟩ | ⟨he, -⟩
      · rw [step, he]
        exact h
      · rw [step, he]
        exact ⟨fence, rfl, hevent (by rw [he])⟩
    | success intervalS due completed =>
      rcases recordSuccess_cases hv intervalS due completed with ⟨e, he⟩ | ⟨he, -⟩
      · rw [step, he]
        exact h
      · exact absurd (by rw [he]) hevent

theorem lastSuccess_run {t : ℕ} {events : List Event} (hv : c.validate = .ok ())
    (h : ∃ last, c.lastSuccessUnixS = some last ∧ t ≤ last) :
    ∃ last, (c.run events).lastSuccessUnixS = some last ∧ t ≤ last := by
  induction events generalizing c with
  | nil => exact h
  | cons event events ih =>
    refine ih (validate_step hv event) ?_
    obtain ⟨last, hlast, hle⟩ := h
    cases event with
    | evaluate => exact ⟨last, hlast, hle⟩
    | failure fence =>
      rcases recordFailure_cases hv fence with ⟨e, he⟩ | ⟨he, -⟩ <;> rw [step, he] <;>
        exact ⟨last, hlast, hle⟩
    | success intervalS due completed =>
      rcases recordSuccess_cases hv intervalS due completed with ⟨e, he⟩ | ⟨he, -, -, hmono⟩
      · rw [step, he]
        exact ⟨last, hlast, hle⟩
      · rw [step, he]
        exact ⟨completed, rfl, hle.trans (hmono last hlast)⟩

/-- **A failed slot is not retried by the passage of time.**  On a cursor that any calls wrote:
after a failure nothing is admitted under the same authority before a success or another failure; an
admission names the due slot and a budget that is there; slots after a success are an interval
later; and a call that fails changes nothing. -/
theorem failed_slot_not_retried {instance_ : Text} {initialDueUnixS : ℕ} {c₀ : ScheduleCursor}
    (h₀ : ScheduleCursor.new instance_ initialDueUnixS = .ok c₀) (before : List Event) :
    (∀ fence, ((c₀.run before).recordFailure fence).2 = .ok () →
      ∀ after, Quiet fence.generations fence.explicitRetrySequence
        ((c₀.run before).recordFailure fence).1 after →
      ∀ enabled intervalS maximum available o due budget, o.generations = fence.generations →
        o.explicitRetrySequence = fence.explicitRetrySequence →
        evaluateSchedule enabled intervalS maximum available
          (((c₀.run before).recordFailure fence).1.run after) o ≠ .ok (.admitted due budget)) ∧
    (∀ enabled intervalS maximum available o due budget,
      evaluateSchedule enabled intervalS maximum available (c₀.run before) o
          = .ok (.admitted due budget) →
        due = max (c₀.run before).initialDueUnixS
            (((c₀.run before).lastSuccessUnixS.map (· + intervalS)).getD 0) ∧
        due ≤ o.nowUnixS ∧ 1 ≤ budget ∧ budget ≤ min maximum available) ∧
    (∀ interval₁ due₁ completed, ((c₀.run before).recordSuccess interval₁ due₁ completed).2 = .ok () →
      ∀ after enabled intervalS maximum available o due budget,
        evaluateSchedule enabled intervalS maximum available
            (((c₀.run before).recordSuccess interval₁ due₁ completed).1.run after) o
          = .ok (.admitted due budget) → completed + intervalS ≤ due) ∧
    (∀ c : ScheduleCursor, c.validate = .ok () →
      (∀ fence e, (c.recordFailure fence).2 = .error e → (c.recordFailure fence).1 = c) ∧
      (∀ intervalS due completed e, (c.recordSuccess intervalS due completed).2 = .error e →
        (c.recordSuccess intervalS due completed).1 = c)) := by
  have hv : (c₀.run before).validate = .ok () := by
    refine validate_run ?_ before
    simp only [ScheduleCursor.new, andThen_eq_ok] at h₀
    obtain ⟨hvalid, hnew⟩ := h₀
    cases hnew
    exact hvalid
  generalize c₀.run before = c at hv ⊢
  refine ⟨fun fence hok after hquiet enabled intervalS maximum available o due budget hgen hretry
    hadmit => ?_, ?_, ?_, fun c hc => ⟨fun fence e he => ?_, fun intervalS due completed e he => ?_⟩⟩
  · rcases recordFailure_cases hv fence with ⟨e, he⟩ | ⟨he, -⟩
    · rw [he] at hok
      cases hok
    · have hstep : (c.recordFailure fence).1.validate = .ok () := validate_step hv (.failure fence)
      have hfenced : (c.recordFailure fence).1.Fenced fence.generations
          fence.explicitRetrySequence := by
        rw [he]
        exact ⟨fence, rfl, rfl, rfl⟩
      obtain ⟨f, hf, hfg, hfr⟩ := hfenced.run hstep hquiet
      have hfree := (evaluateSchedule_admitted hadmit).2.2.1 f hf (hfg.trans hgen.symm)
      exact hfree (hfr.trans hretry.symm)
  · intro enabled intervalS maximum available o due budget hadmit
    obtain ⟨hdue, hnow, -, hbudget, hpos⟩ := evaluateSchedule_admitted hadmit
    exact ⟨dueUnixS_eq_ok hdue, hnow, hpos, hbudget.le⟩
  · intro interval₁ due₁ completed hok after enabled intervalS maximum available o due budget hadmit
    rcases recordSuccess_cases hv interval₁ due₁ completed with ⟨e, he⟩ | ⟨he, -⟩
    · rw [he] at hok
      cases hok
    · have hstep : (c.recordSuccess interval₁ due₁ completed).1.validate = .ok () :=
        validate_step hv (.success interval₁ due₁ completed)
      have hkept : ∃ last, (((c.recordSuccess interval₁ due₁ completed).1.run after).lastSuccessUnixS
          = some last ∧ completed ≤ last) :=
        lastSuccess_run hstep ⟨completed, by rw [he], le_refl completed⟩
      obtain ⟨last, hlast, hle⟩ := hkept
      have hdue := dueUnixS_eq_ok (evaluateSchedule_admitted hadmit).1
      rw [hlast] at hdue
      simp only [Option.map_some, Option.getD_some] at hdue
      omega
  · rcases recordFailure_cases hc fence with ⟨e', he'⟩ | ⟨he', -⟩
    · rw [he']
    · rw [he'] at he
      cases he
  · rcases recordSuccess_cases hc intervalS due completed with ⟨e', he'⟩ | ⟨he', -⟩
    · rw [he']
    · rw [he'] at he
      cases he

def sampleGenerations (runtimeSequence : ℕ) : SchedulerGenerations where
  configFingerprint := List.replicate 64 'a'
  routeFingerprint := List.replicate 64 'b'
  runtimeSequence
  coordinatorGeneration := List.replicate 32 'c'

def sampleObservation (nowUnixS runtimeSequence : ℕ) : SchedulerObservation where
  nowUnixS
  windowOpen := true
  nextWindowOpenUnixS := none
  generations := sampleGenerations runtimeSequence
  explicitRetrySequence := 0
  gates := ⟨true, true, false, true, true, true, true, true, false⟩

def sampleFence (runtimeSequence : ℕ) : FailedAttemptFence :=
  ⟨100, 60, sampleGenerations runtimeSequence, 0⟩

def sampleCursor : ScheduleCursor := ⟨lit "wan", 1, 100, none, none⟩

def lateFence : FailedAttemptFence := ⟨180, 60, sampleGenerations 1, 0⟩

/-- A completed slot, and the one after it, which fails. -/
def failedCursor : ScheduleCursor × Except String Unit :=
  (sampleCursor.run [.success 60 100 120]).recordFailure lateFence

theorem sampleCursor_stays_fenced :
    ScheduleCursor.new (lit "wan") 100 = .ok sampleCursor ∧ failedCursor.2 = .ok () ∧
      ∀ now, evaluateSchedule true 60 10 10
        (failedCursor.1.run [.failure lateFence, .success 60 100 200]) (sampleObservation now 1)
          ≠ .ok (.admitted 180 10) := by
  have hnew : ScheduleCursor.new (lit "wan") 100 = .ok sampleCursor := by decide +kernel
  have hfailed : failedCursor.2 = .ok () := by decide +kernel
  have hquiet : Quiet lateFence.generations 0 failedCursor.1
      [.failure lateFence, .success 60 100 200] :=
    ⟨fun _ => ⟨rfl, rfl⟩, by decide +kernel, trivial⟩
  refine ⟨hnew, hfailed, fun now => ?_⟩
  exact (failed_slot_not_retried hnew [.success 60 100 120]).1 lateFence hfailed _ hquiet true 60 10
    10 (sampleObservation now 1) 180 10 rfl rfl

theorem second_authority_lifts_fence :
    ∃ c₁ c₂ : ScheduleCursor, ScheduleCursor.new (lit "wan") 100 = .ok sampleCursor ∧
      sampleCursor.recordFailure (sampleFence 1) = (c₁, .ok ()) ∧
      evaluateSchedule true 60 10 10 c₁ (sampleObservation 200 2) = .ok (.admitted 100 10) ∧
      c₁.recordFailure (sampleFence 2) = (c₂, .ok ()) ∧
      evaluateSchedule true 60 10 10 c₂ (sampleObservation 300 1) = .ok (.admitted 100 10) := by
  refine ⟨⟨lit "wan", 2, 100, none, some (sampleFence 1)⟩,
    ⟨lit "wan", 3, 100, none, some (sampleFence 2)⟩, ?_, ?_, ?_, ?_, ?_⟩ <;> decide +kernel

end ScheduleCursor

end CakeAutorate.Scheduler
