/-
# A coordinator and its workers

The parties of a native Apply over the three records of the store: the coordinator of
`operations/coordinator.rs`, which admits, rearms, reconciles and launches, and the workers, which
claim, verify, execute and complete (`run_native_apply_worker`, `execute_native_apply_worker`).  An
event takes one party from one durable write to the next; a party can fail or die between any two of
its writes.

The world also keeps what no record keeps: every receipt that was ever durable, the job ids that the
kernel gave out, and the processes that it started.
-/

import CakeAutorate.Machine.Run
import CakeAutorate.NativeApply.Store

namespace CakeAutorate.NativeApply

open Wire Protocol Journal NativeApplyCoordinatorStore

/-- Where a worker process stands. -/
inductive WorkerPhase where
  | launched (applyJobId : Text)
  /-- It has removed the claim of a dead process and takes its own. -/
  | reclaiming (dispatch : NativeApplyDispatchRecord) (claim : NativeApplyWorkerClaim)
  /-- It holds its claim and works on a dispatch. -/
  | executing (claim : NativeApplyWorkerClaim) (dispatch : NativeApplyDispatchRecord)
  /-- It has published a receipt and has to remove the active dispatch. -/
  | publishing (claim : NativeApplyWorkerClaim) (terminal : NativeApplyTerminalRecord)
  | finishing (claim : NativeApplyWorkerClaim)
  deriving DecidableEq

def WorkerPhase.claim : WorkerPhase → Option NativeApplyWorkerClaim
  | .launched _ | .reclaiming _ _ => none
  | .executing claim _ | .publishing claim _ | .finishing claim => some claim

def WorkerPhase.job : WorkerPhase → Option Text
  | .launched applyJobId => some applyJobId
  | .reclaiming dispatch _ => some dispatch.applyJobId
  | .executing _ _ | .publishing _ _ | .finishing _ => none

/-- Where the coordinator stands. -/
inductive CoordinatorPhase where
  | ready
  | creating (candidate : NativeApplyDispatchRecord)
  | retiring
  /-- A reconciliation has to look at the worker claim. -/
  | validated (dispatch : NativeApplyDispatchRecord)
  /-- A reconciliation has answered that a worker is to be launched. -/
  | launching (dispatch : NativeApplyDispatchRecord)
  deriving DecidableEq

/-- The store, the parties, and what was seen of them. -/
structure World where
  store : NativeApplyCoordinatorStore
  workers : ProcessIdentity → Option WorkerPhase
  coordinator : CoordinatorPhase
  /-- `native_apply_child`: the worker process that this coordinator started. -/
  child : Option ProcessIdentity
  receipts : List NativeApplyTerminalRecord
  issued : List Text
  processes : List ProcessIdentity

def World.start : World where
  store := ⟨none, none, none⟩
  workers := fun _ => none
  coordinator := .ready
  child := none
  receipts := []
  issued := []
  processes := []

/-- `still_matches`: the process is alive. -/
def World.live (w : World) (p : ProcessIdentity) : Bool := (w.workers p).isSome

/-- `try_wait` of `native_apply_child` finds it running. -/
def World.childRuns (w : World) : Bool := w.child.any w.live

/-- `run_native_apply_worker`, until its first durable write. -/
def startWorker (s : NativeApplyCoordinatorStore) (live : ProcessIdentity → Bool)
    (applyJobId : Text) (process : ProcessIdentity) :
    Except String (NativeApplyCoordinatorStore × WorkerPhase) := do
  let active ← orError s.active "native Apply worker has no durable dispatch"
  check (!(active.applyJobId != applyJobId || !active.executable))
    "native Apply worker dispatch identity is not executable"
  let claim ← NativeApplyWorkerClaim.forProcess active process
  let (s', existing) ← s.claimWorker active claim
  match existing with
  | none => return (s', .executing claim active)
  | some existing =>
    if existing = claim then return (s', .executing claim active)
    else if live existing.process then
      throw "native Apply dispatch is already owned by a live worker"
    else return (← s.removeWorkerClaim existing, .reclaiming active claim)

/-- `run_native_apply_worker`, after the claim of a dead process was removed. -/
def restartWorker (s : NativeApplyCoordinatorStore) (dispatch : NativeApplyDispatchRecord)
    (claim : NativeApplyWorkerClaim) :
    Except String (NativeApplyCoordinatorStore × WorkerPhase) := do
  let (s', existing) ← s.claimWorker dispatch claim
  check existing.isNone "native Apply worker claim raced with another owner"
  return (s', .executing claim dispatch)

/-- What verification, execution and recovery gave a worker. -/
inductive Execution where
  /-- The transaction was committed. -/
  | committed (outcome : NativeApplyTerminalOutcome) (recoveryCleared : Bool)
  | failed (error : Text)
  /-- Recovery left the transaction pending. -/
  | pending (diagnostic : Text)
  /-- A transaction was recovered; `readiness` is what the controllers answered after. -/
  | recovered (jobId workerRunId : Text) (recoveryCleared rolledForward : Bool)
      (readiness : Except Text Unit)
  | nothing

def readinessDiagnostic (error : Text) : Text :=
  boundedDiagnostic (lit ("native Apply recovered its durable configuration, " ++
    "but controller readiness failed: ") ++ error)

def recoveredReceipt (active : NativeApplyDispatchRecord) (recoveryCleared rolledForward : Bool) :
    Except Text Unit → NativeApplyTerminalRecord
  | .error error => ⟨active, .failed, recoveryCleared, readinessDiagnostic error⟩
  | .ok () =>
    if rolledForward then ⟨active, .applied, recoveryCleared, []⟩
    else ⟨active, .rolledBack, recoveryCleared,
      lit "native Apply was rolled back during coordinator recovery"⟩

/-- The receipt that a worker publishes for an execution, if it does:
`settle_native_apply_recovery_attempt` reads the active dispatch again. -/
def executionReceipt (s : NativeApplyCoordinatorStore) (dispatch : NativeApplyDispatchRecord) :
    Execution → Except String (Option NativeApplyTerminalRecord)
  | .committed outcome recoveryCleared => .ok (some ⟨dispatch, outcome, recoveryCleared, []⟩)
  | .failed error => .ok (some ⟨dispatch, .failed, true, boundedDiagnostic error⟩)
  | .pending diagnostic => .ok (some ⟨dispatch, .failed, false, boundedDiagnostic diagnostic⟩)
  | .nothing => .ok none
  | .recovered jobId workerRunId recoveryCleared rolledForward readiness =>
    match s.active with
    | none => .ok none
    | some active => do
      check (active.state == .applying)
        "native Apply recovery exists before verified mutation authority"
      check (!(active.sourceJobId != jobId || active.workerRunId != workerRunId))
        "native Apply recovery identity differs from its coordinator dispatch"
      return some (recoveredReceipt active recoveryCleared rolledForward readiness)

/-- What can happen next. -/
inductive Event where
  /-- A start request is handled with a new job id and token. -/
  | admission (request : NativeApplyControlRequest) (applyJobId applyJobToken : Text)
      (gate : Except String Unit)
  | create
  /-- A start request whose receipt is there is rearmed. -/
  | rearm (request : NativeApplyControlRequest) (expected : NativeApplyTerminalRecord)
      (applyJobId applyJobToken : Text) (gate : Except String Unit)
  | retire
  | reconcile
  /-- A reconciliation looks at the worker claim. -/
  | lookAtClaim
  | spawn (process : ProcessIdentity)
  | coordinatorStops
  /-- A worker process looks for its dispatch and claims it. -/
  | claim (process : ProcessIdentity)
  /-- A worker claims its dispatch after it has removed a dead claim. -/
  | reclaim (process : ProcessIdentity)
  /-- A worker has verified its dispatch, or could not. -/
  | verify (process : ProcessIdentity) (result : Except Text NativeApplyVerifiedDispatchIdentity)
  | execute (process : ProcessIdentity) (execution : Execution)
  | removeActive (process : ProcessIdentity)
  /-- A worker fails and goes on to remove its claim. -/
  | workerFails (process : ProcessIdentity)
  | removeClaim (process : ProcessIdentity)
  | workerDies (process : ProcessIdentity)

def Event.worker : Event → Option ProcessIdentity
  | .claim p | .reclaim p | .verify p _ | .execute p _ | .removeActive p | .workerFails p
  | .removeClaim p | .workerDies p => some p
  | .admission _ _ _ _ | .create | .rearm _ _ _ _ _ | .retire | .reconcile | .lookAtClaim | .spawn _
  | .coordinatorStops => none

/-- The dispatch that `handle_native_apply_control` admits for a start request. -/
def candidateFor (request : NativeApplyControlRequest) (applyJobId applyJobToken : Text) :
    NativeApplyDispatchRecord where
  state := .accepted
  generation := 1
  applyJobId
  applyJobToken
  sourceJobId := request.sourceJobId.getD []
  workerRunId := lit "none"
  optionId := request.optionId.getD []
  reviewSha256 := request.reviewSha256.getD []
  sourceManifestSha256 := lit "none"
  manifestSha256 := request.manifestSha256.getD []
  manifestSchemaVersion := 0
  targetState := lit "none"
  acknowledgements := request.acknowledgements

namespace World

variable (w : World)

section

variable (process : ProcessIdentity)

def goesOn (phase : WorkerPhase) : World :=
  { w with workers := Function.update w.workers process (some phase) }

def exits : World :=
  { w with workers := Function.update w.workers process none }

def publishes (claim : NativeApplyWorkerClaim) (receipt : Option NativeApplyTerminalRecord) :
    World :=
  match receipt with
  | none => w.goesOn process (.finishing claim)
  | some terminal =>
    match w.store.complete terminal with
    | .error _ => w.goesOn process (.finishing claim)
    | .ok s =>
      { w.goesOn process (.publishing claim terminal) with
        store := s
        receipts := terminal :: w.receipts }

end

/-- `handle_native_apply_control` of a start request, until a durable write. -/
def handleStart (request : NativeApplyControlRequest) (applyJobId applyJobToken : Text)
    (gate : Except String Unit) : World :=
  let w := { w with issued := applyJobId :: w.issued }
  match w.store.admitWithGate request (candidateFor request applyJobId applyJobToken) gate with
  | .error _ => w
  | .ok (s, .answered _) => { w with store := s }
  | .ok (s, .creating candidate) => { w with store := s, coordinator := .creating candidate }

/-- `rearm_terminal_with_gate`, until a durable write. -/
def rearm (request : NativeApplyControlRequest) (expected : NativeApplyTerminalRecord)
    (applyJobId applyJobToken : Text) (gate : Except String Unit) : World :=
  let w := { w with issued := applyJobId :: w.issued }
  match w.store.rearmTerminalWithGate request expected
      (candidateFor request applyJobId applyJobToken) gate with
  | .error _ => w
  | .ok (s, _) => { w with store := s, coordinator := .retiring }

def follow (s : NativeApplyCoordinatorStore) : NativeApplyWorkerReadiness → World
  | .launch dispatch => { w with store := s, coordinator := .launching dispatch }
  | .idle | .live _ => { w with store := s, coordinator := .ready }

/-- `reconcile_native_apply_worker`, until a durable write. -/
def reconcile : World :=
  match w.store.reconcile w.live with
  | .error _ => w
  | .ok (s, .answered readiness) => w.follow s readiness
  | .ok (s, .validated dispatch) => { w with store := s, coordinator := .validated dispatch }

/-- `drive_native_apply_inner`: as long as its child runs, the coordinator waits for it. -/
def driveNativeApplyInner : World :=
  if w.childRuns then w else { w with child := none }.reconcile

section

variable (process : ProcessIdentity)

/-- `spawn_native_apply_worker`. -/
def spawn (dispatch : NativeApplyDispatchRecord) : World :=
  let w := { w with coordinator := .ready }
  match dispatch.validate with
  | .error _ => w
  | .ok () =>
    if dispatch.executable then
      { w.goesOn process (.launched dispatch.applyJobId) with
        child := some process
        processes := process :: w.processes }
    else w

def claims (answer : Except String (NativeApplyCoordinatorStore × WorkerPhase)) : World :=
  match answer with
  | .error _ => w.exits process
  | .ok (s, phase) => { w.goesOn process phase with store := s }

def verifies (claim : NativeApplyWorkerClaim) (dispatch : NativeApplyDispatchRecord) :
    Except Text NativeApplyVerifiedDispatchIdentity → World
  | .error error =>
    w.publishes process claim (some ⟨dispatch, .failed, true, boundedDiagnostic error⟩)
  | .ok verified =>
    match w.store.markApplying dispatch verified with
    | .error _ => w.goesOn process (.finishing claim)
    | .ok (s, applying) => { w.goesOn process (.executing claim applying) with store := s }

end

def coordinatorStep : Event → World
  | .admission request applyJobId applyJobToken gate =>
    match w.coordinator with
    | .ready => w.handleStart request applyJobId applyJobToken gate
    | _ => w
  | .create =>
    match w.coordinator with
    | .creating candidate =>
      match w.store.writeNewActive candidate with
      | .error _ => { w with coordinator := .ready }
      | .ok s => { w with store := s, coordinator := .ready }
    | _ => w
  | .rearm request expected applyJobId applyJobToken gate =>
    match w.coordinator with
    | .ready => w.rearm request expected applyJobId applyJobToken gate
    | _ => w
  | .retire =>
    match w.coordinator with
    | .retiring => { w with store := w.store.removeTerminal, coordinator := .ready }
    | _ => w
  | .reconcile =>
    match w.coordinator with
    | .ready => w.driveNativeApplyInner
    | _ => w
  | .lookAtClaim =>
    match w.coordinator with
    | .validated dispatch =>
      match w.store.reconcileClaim w.live dispatch with
      | .error _ => { w with coordinator := .ready }
      | .ok (s, readiness) => w.follow s readiness
    | _ => w
  | .spawn process =>
    match w.coordinator with
    | .launching dispatch => w.spawn process dispatch
    | _ => w
  | .coordinatorStops => { w with coordinator := .ready, child := none }
  | _ => w

def workerStep (process : ProcessIdentity) (phase : WorkerPhase) : Event → World
  | .claim _ =>
    match phase with
    | .launched applyJobId => w.claims process (startWorker w.store w.live applyJobId process)
    | _ => w
  | .reclaim _ =>
    match phase with
    | .reclaiming dispatch claim => w.claims process (restartWorker w.store dispatch claim)
    | _ => w
  | .verify _ result =>
    match phase with
    | .executing claim dispatch =>
      if dispatch.state = .validating then w.verifies process claim dispatch result else w
    | _ => w
  | .execute _ execution =>
    match phase with
    | .executing claim dispatch =>
      if dispatch.state = .applying then
        match executionReceipt w.store dispatch execution with
        | .error _ => w.goesOn process (.finishing claim)
        | .ok receipt => w.publishes process claim receipt
      else w
    | _ => w
  | .removeActive _ =>
    match phase with
    | .publishing claim _ =>
      { w.goesOn process (.finishing claim) with store := w.store.removeActive }
    | _ => w
  | .workerFails _ =>
    match phase.claim with
    | some claim => w.goesOn process (.finishing claim)
    | none => w.exits process
  | .removeClaim _ =>
    match phase with
    | .finishing claim =>
      match w.store.removeWorkerClaim claim with
      | .error _ => w.exits process
      | .ok s => { w.exits process with store := s }
    | _ => w
  | .workerDies _ => w.exits process
  | _ => w

/-- **One event.** -/
def step (e : Event) : World :=
  match e.worker with
  | none => w.coordinatorStep e
  | some p =>
    match w.workers p with
    | none => w
    | some phase => w.workerStep p phase e

def readiness : Event → Option NativeApplyWorkerReadiness
  | .reconcile =>
    match w.coordinator with
    | .ready =>
      if w.childRuns then none
      else
        match w.store.reconcile w.live with
        | .ok (_, .answered readiness) => some readiness
        | _ => none
    | _ => none
  | .lookAtClaim =>
    match w.coordinator with
    | .validated dispatch =>
      match w.store.reconcileClaim w.live dispatch with
      | .ok (_, readiness) => some readiness
      | .error _ => none
    | _ => none
  | _ => none

end World

variable {s s' : NativeApplyCoordinatorStore}

theorem startWorker_eq_ok {live : ProcessIdentity → Bool} {applyJobId : Text}
    {process : ProcessIdentity} {phase : WorkerPhase}
    (h : startWorker s live applyJobId process = .ok (s', phase)) :
    ∃ active claim, s.active = some active ∧ active.applyJobId = applyJobId ∧
      claim.process = process ∧ claim.matchesDispatch active = true ∧
      (s.claim = none ∧ s' = { s with claim := some claim } ∧ phase = .executing claim active ∨
        s.claim = some claim ∨
        (∀ held, s.claim = some held → live held.process = false) ∧
          s' = { s with claim := none } ∧ phase = .reclaiming active claim) := by
  simp only [startWorker, bind_ok, exists_unit, check_ok, orError_eq_ok] at h
  obtain ⟨active, hactive, hjob, claim, hclaim, ⟨s₁, existing⟩, hs₁, h⟩ := h
  simp only [Bool.not_eq_true', Bool.or_eq_false_iff, bne_eq_false_iff_eq] at hjob
  obtain ⟨-, rfl⟩ := NativeApplyWorkerClaim.forProcess_eq_ok hclaim
  obtain ⟨-, hmatches, hexisting, htaken, -⟩ :=
    claimWorker_eq_ok hs₁
  refine ⟨active, _, hactive, hjob.1, rfl, hmatches, ?_⟩
  cases existing with
  | none =>
    cases h
    exact .inl ⟨hexisting, htaken rfl, rfl⟩
  | some held =>
    simp only at h
    split at h
    · rename_i hsame
      exact .inr (.inl (hsame ▸ hexisting))
    · split at h
      · cases h
      · rename_i hdead
        simp only [bind_ok, pure, Except.pure, Except.ok.injEq, Prod.mk.injEq] at h
        obtain ⟨s₂, hs₂, rfl, rfl⟩ := h
        refine .inr (.inr ⟨?_, removeWorkerClaim_eq_ok hs₂, rfl⟩)
        intro held' hheld'
        cases hheld'.symm.trans hexisting
        simpa using hdead

theorem restartWorker_eq_ok {dispatch : NativeApplyDispatchRecord} {claim : NativeApplyWorkerClaim}
    {phase : WorkerPhase} (h : restartWorker s dispatch claim = .ok (s', phase)) :
    s.active = some dispatch ∧ claim.matchesDispatch dispatch = true ∧ s.claim = none ∧
      s' = { s with claim := some claim } ∧ phase = .executing claim dispatch := by
  simp only [restartWorker, bind_ok, exists_unit, check_ok, pure, Except.pure,
    Except.ok.injEq, Prod.mk.injEq, Option.isNone_iff_eq_none] at h
  obtain ⟨⟨s₁, existing⟩, hs₁, hnone, rfl, rfl⟩ := h
  obtain ⟨hactive, hmatches, hexisting, htaken, -⟩ :=
    claimWorker_eq_ok hs₁
  have hnone : existing = none := hnone
  subst hnone
  exact ⟨hactive, hmatches, hexisting, htaken rfl, rfl⟩

end CakeAutorate.NativeApply
