/-
# The journal of a job

`JobJournal` of `operations/journal.rs` and the states of `operations/state.rs`.
An operation works on `&mut self`: it is an `Update`, a function of the journal
that answers `Ok` or `Err` and leaves a journal in both cases, the one it had
written so far where it fails.
-/

import CakeAutorate.Protocol.Codec

namespace CakeAutorate.Journal

open Wire Protocol

inductive OperationState where
  | queued
  | starting
  | running
  | cancelling
  | recovering
  | reviewReady
  | completed
  | failed
  | cancelled
  deriving DecidableEq

namespace OperationState

def asStr : OperationState → String
  | .queued => "queued"
  | .starting => "starting"
  | .running => "running"
  | .cancelling => "cancelling"
  | .recovering => "recovering"
  | .reviewReady => "review_ready"
  | .completed => "completed"
  | .failed => "failed"
  | .cancelled => "cancelled"

def parse : Text → Option OperationState :=
  ofWord [("queued", .queued), ("starting", .starting), ("running", .running),
    ("cancelling", .cancelling), ("recovering", .recovering), ("review_ready", .reviewReady),
    ("completed", .completed), ("failed", .failed), ("cancelled", .cancelled)]

/-- `{state:?}`. -/
def debug : OperationState → String
  | .queued => "Queued"
  | .starting => "Starting"
  | .running => "Running"
  | .cancelling => "Cancelling"
  | .recovering => "Recovering"
  | .reviewReady => "ReviewReady"
  | .completed => "Completed"
  | .failed => "Failed"
  | .cancelled => "Cancelled"

/-- The edges of `validate_transition`. -/
def allowed : OperationState → OperationState → Bool
  | .queued, to_ => (to_ matches .starting | .cancelling | .failed | .cancelled)
  | .starting, to_ => (to_ matches .running | .cancelling | .recovering | .failed | .cancelled)
  | .running, to_ =>
    (to_ matches .cancelling | .recovering | .reviewReady | .completed | .failed | .cancelled)
  | .cancelling, to_ => (to_ matches .recovering | .failed | .cancelled)
  | .recovering, to_ => (to_ matches .reviewReady | .completed | .failed | .cancelled)
  | .reviewReady, _ | .completed, _ | .failed, _ | .cancelled, _ => false

def terminal : OperationState → Bool
  | .reviewReady | .completed | .failed | .cancelled => true
  | _ => false

theorem allowed_of_terminal {from_ to_ : OperationState} (h : from_.terminal = true) :
    allowed from_ to_ = false := by
  cases from_ <;> first | rfl | cases h

end OperationState

def validateTransition (from_ to_ : OperationState) : Except String Unit :=
  check (from_.allowed to_)
    ("invalid calibration job transition: " ++ from_.debug ++ " -> " ++ to_.debug)

structure ProcessIdentity where
  pid : UInt32
  processGroup : UInt32
  starttimeTicks : UInt64
  deriving DecidableEq

/-- `CoordinatorIdentity`; its own process identity is not read here. -/
structure CoordinatorIdentity where
  bootId : Text
  generation : Text

/-- The state of a job that survives the process. -/
structure JobJournal where
  jobId : Text
  bootId : Text
  coordinatorGeneration : Text
  state : OperationState
  sequence : UInt64
  heavyTraffic : Bool
  heavyLeaseAcquired : Bool
  instance_ : Text
  targetInterface : Text
  sqmFingerprint : Text
  process : Option ProcessIdentity
  runtimeOwnerProcess : Option ProcessIdentity
  workerRunId : Option Text
  terminalKind : Option Text
  terminalState : Option Text
  publicationBootId : Option Text
  publicationGeneration : Option Text
  diagnosticCode : Option Text
  reconcileAttempts : UInt32
  runtimeMutated : Bool
  recoveryRequired : Bool
  historyDecisionRequired : Bool
  deriving DecidableEq

/-- `require_lower_hex` of the journal. -/
def requireHex (name : String) (value : Text) (length : ℕ) : Except String Unit :=
  check (lowerHex length value)
    ("journal " ++ name ++ " must be " ++ toString length ++ " lowercase hex bytes")

/-- `require_identifier` of the journal. -/
def requireIdentifier (name : String) (value : Text) (extra : String) : Except String Unit :=
  check (safeIdentifier 1 64 extra value) ("journal " ++ name ++ " is unsafe")

def checkSome {α : Type} (value : Option α) (f : α → Except String Unit) : Except String Unit :=
  match value with
  | none => .ok ()
  | some a => f a

theorem checkSome_eq_ok {α : Type} {value : Option α} {f : α → Except String Unit} :
    checkSome value f = .ok () ↔ ∀ a, value = some a → f a = .ok () := by
  cases value <;> simp [checkSome]

def ProcessIdentity.nonZero (p : ProcessIdentity) : Bool :=
  !(p.pid == 0 || p.processGroup == 0 || p.starttimeTicks == 0)

namespace JobJournal

def validateIdentity (j : JobJournal) : Except String Unit := do
  requireHex "job_id" j.jobId 32
  requireHex "boot_id" j.bootId 32
  requireHex "coordinator_generation" j.coordinatorGeneration 32
  requireIdentifier "instance" j.instance_ "_-"
  requireIdentifier "target_interface" j.targetInterface "._:@-"
  requireHex "sqm_fingerprint" j.sqmFingerprint 64

def validateOwner (j : JobJournal) (process : ProcessIdentity) : Except String Unit := do
  check process.nonZero "runtime owner process identity must be non-zero"
  check (!(j.workerRunId.isNone || !j.heavyTraffic || j.state.terminal))
    "runtime owner requires a live, armed heavy-traffic job"
  check (!(j.process.any fun worker =>
      worker == process || worker.processGroup == process.processGroup))
    "runtime owner must be isolated from the operation worker process group"

def validatePublication (j : JobJournal) : Except String Unit :=
  match j.publicationBootId, j.publicationGeneration with
  | none, none => .ok ()
  | some bootId, some generation => do
    requireHex "publication_boot_id" bootId 32
    requireHex "publication_generation" generation 32
    check (!(!(j.state matches .reviewReady | .completed)
        || j.terminalKind != some (lit "result") || j.terminalState != some (lit "complete")
        || j.runtimeMutated || j.recoveryRequired || j.process.isSome
        || j.runtimeOwnerProcess.isSome))
      "native publication identity requires an inert completed Review"
  | _, _ => .error "native publication identity is partial"

def validate (j : JobJournal) : Except String Unit := do
  j.validateIdentity
  check (j.sequence != 0) "journal sequence must be non-zero"
  check (!(j.recoveryRequired && !j.runtimeMutated))
    "recovery cannot be required without a runtime mutation"
  check (!(j.heavyLeaseAcquired && !j.heavyTraffic))
    "light operation cannot own the heavy-traffic lease"
  checkSome j.process fun process =>
    check process.nonZero "journal process identity must be non-zero"
  checkSome j.runtimeOwnerProcess j.validateOwner
  checkSome j.workerRunId fun runId => requireHex "worker_run_id" runId 32
  checkSome j.terminalKind fun kind =>
    check (!(kind != lit "result" && kind != lit "error")) "journal terminal kind is unsupported"
  checkSome j.terminalState fun state => requireIdentifier "terminal_state" state "_-"
  checkSome j.diagnosticCode fun code => requireIdentifier "diagnostic_code" code "_-"
  check (!decide (j.reconcileAttempts.toNat > 1000000))
    "journal reconciliation attempt count is unreasonable"
  check (!(j.process.isSome && j.workerRunId.isNone))
    "journal process requires an attached worker run identity"
  check (!(j.terminalKind.isSome != j.terminalState.isSome)) "journal terminal evidence is partial"
  check (!(j.terminalKind.isSome && !j.state.terminal))
    "journal terminal evidence requires a terminal state"
  j.validatePublication

/-- The journal that `queued` validates. -/
def initial (request : OperationRequest) (coordinator : CoordinatorIdentity) (heavyTraffic : Bool) :
    JobJournal where
  jobId := request.identity.jobId
  bootId := coordinator.bootId
  coordinatorGeneration := coordinator.generation
  state := .queued
  sequence := 1
  heavyTraffic
  heavyLeaseAcquired := false
  instance_ := request.identity.instance_
  targetInterface := request.identity.targetInterface
  sqmFingerprint := request.identity.sqmFingerprint
  process := none
  runtimeOwnerProcess := none
  workerRunId := none
  terminalKind := none
  terminalState := none
  publicationBootId := none
  publicationGeneration := none
  diagnosticCode := none
  reconcileAttempts := 0
  runtimeMutated := false
  recoveryRequired := false
  historyDecisionRequired := request.trafficPolicyExplicit
    && request.identity.operation == .fullAutotune && request.strategy == some .fullRaw
    && request.allowSqmDisable

def queued (net : AddressText) (request : OperationRequest) (coordinator : CoordinatorIdentity)
    (heavyTraffic : Bool) : Except String JobJournal := do
  request.validate net
  let journal := initial request coordinator heavyTraffic
  journal.validate
  return journal

end JobJournal

/-- A method on `&mut self`. -/
abbrev Update := EStateM String JobJournal

namespace Update

def lift (x : Except String Unit) : Update Unit := fun j =>
  match x with
  | .ok () => .ok () j
  | .error e => .error e j

/-- `self.validate()`. -/
def validated : Update Unit := fun j => lift j.validate j

/-- `self.sequence.checked_add(1)`. -/
def nextSequence : Update Unit := fun j =>
  if j.sequence.toNat + 1 < 2 ^ 64 then .ok () { j with sequence := j.sequence + 1 }
  else .error "journal sequence overflow" j

variable {α : Type} {f : Unit → Update α} {j j' : JobJournal} {a : α}

theorem bind_ok {β : Type} {x : Update α} {f : α → Update β} {b : β} :
    (x >>= f) j = .ok b j' ↔ ∃ a j₁, x j = .ok a j₁ ∧ f a j₁ = .ok b j' := by
  simp only [bind, EStateM.bind]
  cases x j <;> simp

theorem unit_bind_ok {x : Update Unit} :
    (x >>= f : Update α) j = .ok a j' ↔ ∃ j₁, x j = .ok () j₁ ∧ f () j₁ = .ok a j' := by
  rw [bind_ok, exists_unit]

theorem get_bind_ok {f : JobJournal → Update α} :
    (get >>= f : Update α) j = .ok a j' ↔ f j j = .ok a j' := Iff.rfl

theorem lift_eq_ok {x : Except String Unit} {u : Unit} :
    lift x j = .ok u j' ↔ x = .ok () ∧ j' = j := by
  unfold lift
  cases x with
  | error e => simp
  | ok a => simp [eq_comm]

theorem lift_bind_ok {x : Except String Unit} :
    (lift x >>= f : Update α) j = .ok a j' ↔ x = .ok () ∧ f () j = .ok a j' := by
  simp [unit_bind_ok, lift_eq_ok]

theorem validated_eq_ok {u : Unit} :
    validated j = .ok u j' ↔ j.validate = .ok () ∧ j' = j := lift_eq_ok

theorem modify_eq_ok {f : JobJournal → JobJournal} {u : PUnit} :
    (modify f : Update PUnit) j = .ok u j' ↔ j' = f j := by
  show EStateM.Result.ok PUnit.unit (f j) = .ok u j' ↔ j' = f j
  simp [eq_comm]

theorem modify_bind_ok {g : JobJournal → JobJournal} {f : PUnit → Update α} :
    (modify g >>= f : Update α) j = .ok a j' ↔ f () (g j) = .ok a j' := by
  simp [unit_bind_ok, modify_eq_ok]

theorem nextSequence_eq_ok {u : Unit} :
    nextSequence j = .ok u j' ↔
      j.sequence.toNat + 1 < 2 ^ 64 ∧ j' = { j with sequence := j.sequence + 1 } := by
  unfold nextSequence
  split <;> simp_all [eq_comm]

theorem nextSequence_bind_ok :
    (nextSequence >>= f : Update α) j = .ok a j' ↔ j.sequence.toNat + 1 < 2 ^ 64 ∧
      f () { j with sequence := j.sequence + 1 } = .ok a j' := by
  simp [unit_bind_ok, nextSequence_eq_ok]

end Update

namespace JobJournal

open Update

def transition (next : OperationState) : Update Unit := do
  lift (validateTransition (← get).state next)
  nextSequence
  modify fun j => { j with state := next }
  validated

variable {j j' : JobJournal}

theorem transition_eq_ok {next : OperationState} {u : Unit} :
    transition next j = .ok u j' ↔ j.state.allowed next = true ∧ j.sequence.toNat + 1 < 2 ^ 64 ∧
      { j with sequence := j.sequence + 1, state := next }.validate = .ok () ∧
      j' = { j with sequence := j.sequence + 1, state := next } := by
  simp only [transition, get_bind_ok, lift_bind_ok, nextSequence_bind_ok,
    modify_bind_ok, validated_eq_ok, validateTransition, check_ok]

theorem transition_bind_ok {α : Type} {next : OperationState} {f : Unit → Update α} {a : α} :
    (transition next >>= f : Update α) j = .ok a j' ↔
      j.state.allowed next = true ∧ j.sequence.toNat + 1 < 2 ^ 64 ∧
      { j with sequence := j.sequence + 1, state := next }.validate = .ok () ∧
      f () { j with sequence := j.sequence + 1, state := next } = .ok a j' := by
  simp only [unit_bind_ok, transition_eq_ok, and_assoc, exists_eq_left, exists_and_left]

def failBeforeRuntimeMutation (diagnosticCode : Text) : Update Unit := do
  let j ← get
  lift (check (!(j.runtimeMutated || j.recoveryRequired || j.process.isSome))
    "preflight failure cannot settle a runtime-owning journal")
  transition .failed
  lift (requireIdentifier "diagnostic_code" diagnosticCode "_-")
  modify fun j => { j with diagnosticCode := some diagnosticCode, heavyLeaseAcquired := false }
  validated

def markHeavyLeaseAcquired : Update Unit := do
  let j ← get
  lift (check (!(!j.heavyTraffic || j.heavyLeaseAcquired))
    "heavy lease is not required or is already journalled")
  lift (check (!(j.state != .queued || j.runtimeMutated || j.recoveryRequired || j.process.isSome))
    "heavy lease can be armed only before runtime mutation")
  nextSequence
  modify fun j => { j with heavyLeaseAcquired := true }
  validated

def markBootstrapHeavyLeaseAcquired : Update Unit := do
  let j ← get
  lift (check (!(!j.heavyTraffic || j.heavyLeaseAcquired))
    "bootstrap heavy lease is not required or is already journalled")
  lift (check (!(j.state != .running || j.runtimeMutated || j.recoveryRequired || j.process.isNone
      || j.runtimeOwnerProcess.isNone || j.workerRunId.isNone))
    "bootstrap heavy lease requires an attached parked worker and runtime owner")
  nextSequence
  modify fun j => { j with heavyLeaseAcquired := true }
  validated

def releaseHeavyLeaseDuringRecovery : Update Unit := do
  let j ← get
  lift (check (!(!j.heavyTraffic || !j.heavyLeaseAcquired || j.state != .recovering
      || !j.runtimeMutated || !j.recoveryRequired))
    "heavy lease can be detached only from an exact runtime recovery")
  nextSequence
  modify fun j => { j with heavyLeaseAcquired := false }
  validated

def armNativeWorker (workerRunId : Text) : Update Unit := do
  let j ← get
  lift (check (!(j.runtimeMutated || j.recoveryRequired || j.process.isSome))
    "native worker cannot arm a runtime-owning journal")
  transition .starting
  lift (requireHex "worker_run_id" workerRunId 32)
  modify fun j => { j with workerRunId := some workerRunId }
  validated

def attachNativeRunning (process : ProcessIdentity) (workerRunId : Text) : Update Unit := do
  let j ← get
  lift (check (!(j.state != .starting || j.runtimeMutated || j.recoveryRequired
      || j.process.isSome))
    "native worker can attach only to an armed non-mutating journal")
  lift (check (j.workerRunId == some workerRunId)
    "native worker identity differs from the armed journal")
  transition .running
  modify fun j => { j with process := some process }
  validated

def armAttachedRuntimeMutation : Update Unit := do
  let j ← get
  lift (check (!(j.state != .running || j.runtimeMutated || j.recoveryRequired || j.process.isNone
      || j.workerRunId.isNone || !j.heavyTraffic || !j.heavyLeaseAcquired))
    "runtime mutation can arm only for an attached, leased native worker")
  nextSequence
  modify fun j => { j with runtimeMutated := true, recoveryRequired := true }
  validated

/-- Work on a clone, kept only if it validates: `let mut staged = self.clone(); ..`. -/
def staged (x : Update Unit) : Update Unit := fun j =>
  match (do nextSequence; x; validated) j with
  | .ok () j' => .ok () j'
  | .error e _ => .error e j

theorem staged_eq_ok {x : Update Unit} {u : Unit} :
    staged x j = .ok u j' ↔ j.sequence.toNat + 1 < 2 ^ 64 ∧
      x { j with sequence := j.sequence + 1 } = .ok () j' ∧ j'.validate = .ok () := by
  have hrun : staged x j = .ok u j' ↔ (do nextSequence; x; validated) j = .ok () j' := by
    unfold staged
    cases (do nextSequence; x; validated) j <;> simp
  rw [hrun, nextSequence_bind_ok, unit_bind_ok]
  simp only [validated_eq_ok]
  constructor
  · rintro ⟨hlt, j₁, hx, hv, rfl⟩
    exact ⟨hlt, hx, hv⟩
  · rintro ⟨hlt, hx, hv⟩
    exact ⟨hlt, j', hx, hv, rfl⟩

def attachBootstrapRuntimeOwner (process : ProcessIdentity) : Update Unit := do
  let j ← get
  lift (check (!(j.state != .running || j.runtimeMutated || j.recoveryRequired || j.process.isNone
      || j.workerRunId.isNone || !j.heavyTraffic || j.runtimeOwnerProcess.isSome))
    "bootstrap runtime owner can attach only to a parked heavy-traffic worker")
  staged (modify fun j => { j with runtimeOwnerProcess := some process })

def armAttachedBootstrapRuntimeMutation : Update Unit := do
  let j ← get
  lift (check (!j.runtimeOwnerProcess.isNone)
    "bootstrap runtime mutation requires an attached runtime owner")
  armAttachedRuntimeMutation

def clearBootstrapRuntimeOwner : Update Unit := do
  let j ← get
  lift (check (!(j.runtimeOwnerProcess.isNone || j.state.terminal))
    "bootstrap runtime owner is not attached to a live job")
  staged (modify fun j => { j with runtimeOwnerProcess := none })

def replaceBootstrapRuntimeOwnerDuringRecovery (process : ProcessIdentity) : Update Unit := do
  let j ← get
  lift (check (!(j.state != .recovering || !j.runtimeMutated || !j.recoveryRequired
      || j.workerRunId.isNone || !j.heavyTraffic))
    "bootstrap runtime owner can be replaced only during exact recovery")
  staged (modify fun j => { j with runtimeOwnerProcess := some process })

def stopAttachedBeforeRuntimeMutation (diagnosticCode : Text) : Update Unit := do
  let j ← get
  lift (check (!(j.state != .running || j.runtimeMutated || j.recoveryRequired || j.process.isNone
      || j.workerRunId.isNone))
    "only an attached parked worker can stop before mutation")
  lift (requireIdentifier "diagnostic_code" diagnosticCode "_-")
  transition .cancelling
  modify fun j => { j with diagnosticCode := some diagnosticCode }
  validated

def nativeTerminal (terminalState : Text) : Option (OperationState × String) :=
  if terminalState = lit "complete" then some (.completed, "result")
  else if terminalState = lit "cancelled" then some (.cancelled, "error")
  else if terminalState = lit "incomplete" ∨ terminalState = lit "failed" then
    some (.failed, "error")
  else none

section

variable (terminalState : Text) (diagnosticCode : Option Text)

/-- `JobJournal::settle_native_terminal`, from the terminal that the word names. -/
def settleNativeAs :
    Option (OperationState × String) → Update Unit
  | none => lift (.error "native terminal state is unsupported")
  | some (next, kind) => do
    lift (validateTransition (← get).state next)
    nextSequence
    modify fun j => { j with
      state := next, process := none, runtimeOwnerProcess := none
      terminalKind := some (lit kind), terminalState := some terminalState
      heavyLeaseAcquired := false, diagnosticCode }
    validated

def settleNativeTerminal : Update Unit := do
  let j ← get
  lift (check (!(j.runtimeMutated || j.recoveryRequired || j.workerRunId.isNone))
    "native terminal cannot settle a runtime-owning or unarmed journal")
  settleNativeAs terminalState diagnosticCode (nativeTerminal terminalState)

def runtimeTerminal : Option (OperationState × String) :=
  if terminalState = lit "complete" ∧ diagnosticCode = none then some (.reviewReady, "result")
  else if terminalState = lit "cancelled" then some (.cancelled, "error")
  else if terminalState = lit "inconclusive" ∨ terminalState = lit "failed" then
    some (.failed, "error")
  else none

def speedtestTerminal : Option (OperationState × String) :=
  if terminalState = lit "complete" ∧ diagnosticCode = none then some (.completed, "result")
  else if terminalState = lit "cancelled" then some (.cancelled, "error")
  else if terminalState = lit "failed" then some (.failed, "error")
  else none

end

def restored (j : JobJournal) : Bool :=
  !(j.state != .recovering || !j.runtimeMutated || !j.recoveryRequired || j.workerRunId.isNone
    || j.process.isSome)

def publish (j : JobJournal) (complete : Bool) : JobJournal :=
  if complete then { j with
    publicationBootId := some j.bootId, publicationGeneration := some j.coordinatorGeneration }
  else { j with publicationBootId := none, publicationGeneration := none }

section

variable (terminalState : Text) (diagnosticCode : Option Text)

/-- `JobJournal::settle_native_runtime_terminal`, from the terminal that the word names. -/
def settleRuntimeAs :
    Option (OperationState × String) → Update Unit
  | none => lift (.error "native runtime terminal state is unsupported")
  | some (next, kind) => do
    transition next
    modify fun j => { j with
      terminalKind := some (lit kind), terminalState := some terminalState }
    modify fun j => j.publish (terminalState = lit "complete" ∧ diagnosticCode = none)
    modify fun j => { j with
      runtimeMutated := false, recoveryRequired := false, heavyLeaseAcquired := false
      diagnosticCode }
    validated

def settleNativeRuntimeTerminal : Update Unit := do
  let j ← get
  lift (check j.restored "native runtime terminal requires an exactly restored recovering journal")
  settleRuntimeAs terminalState diagnosticCode (runtimeTerminal terminalState diagnosticCode)

/-- `JobJournal::settle_native_speedtest_runtime_terminal`, from the terminal that the word
names. -/
def settleSpeedtestAs :
    Option (OperationState × String) → Update Unit
  | none => lift (.error "native Speed Test runtime terminal state is unsupported")
  | some (next, kind) => do
    transition next
    modify fun j => { j with
      terminalKind := some (lit kind), terminalState := some terminalState
      runtimeMutated := false, recoveryRequired := false, heavyLeaseAcquired := false
      diagnosticCode }
    validated

def settleNativeSpeedtestRuntimeTerminal : Update Unit := do
  let j ← get
  lift (check j.restored
    "native Speed Test runtime terminal requires an exactly restored recovering journal")
  settleSpeedtestAs terminalState diagnosticCode (speedtestTerminal terminalState diagnosticCode)

end

def requireRecovery (diagnosticCode : Text) : Update Unit := do
  if (← get).state != .recovering then
    transition .recovering
  else
    nextSequence
  modify fun j => { j with
    process := none, runtimeMutated := true, recoveryRequired := true
    diagnosticCode := some diagnosticCode }
  validated

end JobJournal

end CakeAutorate.Journal
