/-
# The store of a native Apply

`NativeApplyCoordinatorStore` of `operations/native_apply_coordinator.rs` with its
three records, and `reconcile_native_apply_worker` of `operations/coordinator.rs`.
An operation that makes two durable writes is cut between them: its first part
answers what is left to do, so that a crash can come there.  A record is written
as a whole; what `encode` checks before is that it is valid.
-/

import CakeAutorate.NativeApply.Records

namespace CakeAutorate.NativeApply

open Wire Protocol Journal Except Bool

/-- `NativeApplyCoordinatorStore`: the active dispatch, the worker claim and the terminal
receipt. -/
structure NativeApplyCoordinatorStore where
  active : Option NativeApplyDispatchRecord
  claim : Option NativeApplyWorkerClaim
  terminal : Option NativeApplyTerminalRecord

inductive NativeApplyAdmission where
  | created (dispatch : NativeApplyDispatchRecord)
  | existing (dispatch : NativeApplyDispatchRecord)
  | terminal (receipt : NativeApplyTerminalRecord)

/-- An admission that is answered, or that has removed the receipt of another request and
still has to write its dispatch. -/
inductive Admitting where
  | answered (admission : NativeApplyAdmission)
  | creating (candidate : NativeApplyDispatchRecord)

inductive NativeApplyWorkerReadiness where
  | idle
  | live (process : ProcessIdentity)
  | launch (dispatch : NativeApplyDispatchRecord)
  deriving DecidableEq

/-- A reconciliation that is answered, or that has marked the dispatch as validating and
still has to look at the worker claim. -/
inductive Reconciling where
  | answered (readiness : NativeApplyWorkerReadiness)
  | validated (dispatch : NativeApplyDispatchRecord)

def anotherActive : String := "another native Apply request is already active"

def authoritiesConflict : String := "native Apply active and terminal authorities conflict"

namespace NativeApplyCoordinatorStore

variable (s : NativeApplyCoordinatorStore)

/-- `write_new_private_file` of the active dispatch. -/
def writeNewActive (dispatch : NativeApplyDispatchRecord) :
    Except String NativeApplyCoordinatorStore := do
  check s.active.isNone "unable to create private native Apply file"
  return { s with active := some dispatch }

def removeActive : NativeApplyCoordinatorStore := { s with active := none }

def removeTerminal : NativeApplyCoordinatorStore := { s with terminal := none }

section

variable (start : NativeApplyControlRequest)

/-- `admit_with_gate`, where both an active dispatch and a receipt are there. -/
def admitBoth (active : NativeApplyDispatchRecord) (terminal : NativeApplyTerminalRecord) :
    Except String (NativeApplyCoordinatorStore × Admitting) :=
  if terminal.dispatch = active then
    if !terminal.dispatch.matchesStart start then .error anotherActive
    else .ok (s.removeActive, .answered (.terminal terminal))
  else if active.generation > terminal.dispatch.generation ∧ active.matchesStart start ∧
      terminal.dispatch.matchesStart start then
    .ok (s.removeTerminal, .answered (.existing active))
  else if !active.matchesStart start ∨ !terminal.dispatch.matchesStart start then
    .error anotherActive
  else .error authoritiesConflict

/-- `admit_with_gate`, from the records on; `gate` is what `authorize_new` answers. -/
def admitRecords (candidate : NativeApplyDispatchRecord) (gate : Except String Unit) :
    Except String (NativeApplyCoordinatorStore × Admitting) :=
  match s.active, s.terminal with
  | some active, some terminal => s.admitBoth start active terminal
  | some active, none =>
    if active.matchesStart start then .ok (s, .answered (.existing active))
    else .error anotherActive
  | none, some terminal =>
    if terminal.dispatch.matchesStart start then .ok (s, .answered (.terminal terminal))
    else do
      gate
      return (s.removeTerminal, .creating candidate)
  | none, none => do
    gate
    return (← s.writeNewActive candidate, .answered (.created candidate))

def admitWithGate (candidate : NativeApplyDispatchRecord) (gate : Except String Unit) :
    Except String (NativeApplyCoordinatorStore × Admitting) := do
  start.validate
  check (start.command == .start) "native Apply admission requires a start request"
  candidate.validate
  check (candidate.matchesStart start)
    "native Apply admitted identity differs from its start request"
  s.admitRecords start candidate gate

/-- `NativeApplyCoordinatorStore::rearm_terminal_with_gate`, until the receipt that it
replaces has to be removed. -/
def rearmTerminalWithGate (expected : NativeApplyTerminalRecord)
    (candidate : NativeApplyDispatchRecord) (gate : Except String Unit) :
    Except String (NativeApplyCoordinatorStore × NativeApplyDispatchRecord) := do
  start.validate
  check (start.command == .start) "native Apply terminal rearm requires a start request"
  expected.validate
  candidate.validate
  check (!(!expected.dispatch.matchesStart start || !candidate.matchesStart start))
    "native Apply terminal rearm identity differs from its start request"
  check (candidate.state == .accepted) "native Apply terminal rearm requires an accepted candidate"
  check s.active.isNone "native Apply terminal cannot be rearmed while a dispatch is active"
  check s.claim.isNone "native Apply terminal cannot be rearmed while a worker claim exists"
  let current ← orError s.terminal "native Apply terminal disappeared before rearm"
  check (current == expected) "native Apply terminal changed before rearm"
  let generation ← nextGeneration expected.dispatch.generation
    "native Apply dispatch generation overflowed during rearm"
  let rearmed := { candidate with generation }
  rearmed.validate
  gate
  return (← s.writeNewActive rearmed, rearmed)

end

def markValidating (expected : NativeApplyDispatchRecord) :
    Except String (NativeApplyCoordinatorStore × NativeApplyDispatchRecord) := do
  let current ← orError s.active "native Apply dispatch disappeared before execution"
  check (current == expected) "native Apply dispatch identity changed before execution"
  check (current.state == .accepted) "native Apply validation transition requires accepted state"
  let generation ← nextGeneration current.generation "native Apply dispatch generation overflowed"
  let next := { current with state := .validating, generation }
  next.validate
  return ({ s with active := some next }, next)

def markApplying (expected : NativeApplyDispatchRecord)
    (verified : NativeApplyVerifiedDispatchIdentity) :
    Except String (NativeApplyCoordinatorStore × NativeApplyDispatchRecord) := do
  verified.validate
  let current ← orError s.active "native Apply dispatch disappeared before mutation"
  check (current == expected) "native Apply dispatch identity changed before mutation"
  check (current.state == .validating) "native Apply mutation transition requires validating state"
  let generation ← nextGeneration current.generation "native Apply dispatch generation overflowed"
  let next := { current with
    state := .applying
    generation
    workerRunId := verified.workerRunId
    sourceManifestSha256 := verified.sourceManifestSha256
    manifestSchemaVersion := verified.manifestSchemaVersion
    targetState := verified.targetState }
  next.validate
  return ({ s with active := some next }, next)

/-- `NativeApplyCoordinatorStore::complete`, until the active dispatch has to be removed. -/
def complete (terminal : NativeApplyTerminalRecord) :
    Except String NativeApplyCoordinatorStore := do
  terminal.validate
  let active ← orError s.active "native Apply dispatch disappeared before terminal publication"
  check (active == terminal.dispatch) "native Apply terminal identity differs from active dispatch"
  return { s with terminal := some terminal }

def claimWorker (expected : NativeApplyDispatchRecord) (claim : NativeApplyWorkerClaim) :
    Except String (NativeApplyCoordinatorStore × Option NativeApplyWorkerClaim) := do
  expected.validate
  claim.validate
  check (!(!claim.matchesDispatch expected || claim.dispatchGeneration != expected.generation))
    "native Apply worker claim differs from its dispatch"
  let active ← orError s.active "native Apply dispatch disappeared before worker claim"
  check (active == expected) "native Apply dispatch changed before worker claim"
  match s.claim with
  | some existing => return (s, some existing)
  | none => return ({ s with claim := some claim }, none)

def removeWorkerClaim (expected : NativeApplyWorkerClaim) :
    Except String NativeApplyCoordinatorStore :=
  match s.claim with
  | none => .ok s
  | some current => do
    check (current == expected) "native Apply worker claim changed before cleanup"
    return { s with claim := none }

variable (live : ProcessIdentity → Bool)

/-- `reconcile_native_apply_worker`, from the worker claim on. -/
def reconcileClaim (executable : NativeApplyDispatchRecord) :
    Except String (NativeApplyCoordinatorStore × NativeApplyWorkerReadiness) :=
  match s.claim with
  | none => .ok (s, .launch executable)
  | some claim =>
    if live claim.process then
      if !claim.matchesDispatch executable then
        .error "live native Apply worker claim differs from active dispatch"
      else .ok (s, .live claim.process)
    else do
      return (← s.removeWorkerClaim claim, .launch executable)

/-- `reconcile_native_apply_worker`, where no dispatch is active. -/
def reconcileIdle : Except String (NativeApplyCoordinatorStore × NativeApplyWorkerReadiness) :=
  match s.claim with
  | none => .ok (s, .idle)
  | some claim =>
    if live claim.process then .ok (s, .live claim.process)
    else do
      return (← s.removeWorkerClaim claim, .idle)

/-- `reconcile_native_apply_worker`. -/
def reconcile : Except String (NativeApplyCoordinatorStore × Reconciling) :=
  match s.active with
  | none => (s.reconcileIdle live).map fun answer => (answer.1, .answered answer.2)
  | some active =>
    if active.state = .accepted then
      (s.markValidating active).map fun answer => (answer.1, .validated answer.2)
    else (s.reconcileClaim live active).map fun answer => (answer.1, .answered answer.2)

variable {s} {live}

theorem nextGeneration_eq_ok {generation next : ℕ} {error : String} :
    nextGeneration generation error = .ok next ↔
      generation + 1 < 2 ^ 64 ∧ next = generation + 1 := by
  unfold nextGeneration
  split <;> simp_all [eq_comm]

variable {s' : NativeApplyCoordinatorStore} {d : NativeApplyDispatchRecord}

theorem writeNewActive_eq_ok {dispatch : NativeApplyDispatchRecord} :
    s.writeNewActive dispatch = .ok s' ↔
      s.active = none ∧ s' = { s with active := some dispatch } := by
  simp only [writeNewActive, bind_ok, exists_unit, check_ok, pure, Except.pure,
    Except.ok.injEq, Option.isNone_iff_eq_none]
  exact and_congr_right fun _ => eq_comm

/-- What an admission does when it succeeds. -/
inductive Admitted (s : NativeApplyCoordinatorStore) (start : NativeApplyControlRequest)
    (candidate : NativeApplyDispatchRecord) : NativeApplyCoordinatorStore → Admitting → Prop where
  | settled {terminal : NativeApplyTerminalRecord} (active : s.active = some terminal.dispatch)
      (receipt : s.terminal = some terminal) :
      Admitted s start candidate s.removeActive (.answered (.terminal terminal))
  /-- The active dispatch is newer than the receipt: the receipt is removed. -/
  | newer {active : NativeApplyDispatchRecord} {terminal : NativeApplyTerminalRecord}
      (present : s.active = some active) (receipt : s.terminal = some terminal)
      (generation : terminal.dispatch.generation < active.generation) :
      Admitted s start candidate s.removeTerminal (.answered (.existing active))
  /-- The records are the request's own. -/
  | kept {admission : NativeApplyAdmission} : Admitted s start candidate s (.answered admission)
  | clears {terminal : NativeApplyTerminalRecord} (absent : s.active = none)
      (receipt : s.terminal = some terminal)
      (other : terminal.dispatch.matchesStart start = false) :
      Admitted s start candidate s.removeTerminal (.creating candidate)
  | creates (absent : s.active = none) (receipt : s.terminal = none) :
      Admitted s start candidate { s with active := some candidate }
        (.answered (.created candidate))

variable {start : NativeApplyControlRequest} {terminal : NativeApplyTerminalRecord}

theorem admitBoth_admitted {candidate active : NativeApplyDispatchRecord} {a : Admitting}
    (hactive : s.active = some active) (hterminal : s.terminal = some terminal)
    (h : s.admitBoth start active terminal = .ok (s', a)) : Admitted s start candidate s' a := by
  unfold admitBoth at h
  split at h
  · rename_i hsame
    split at h
    · cases h
    · cases h
      exact .settled (hsame ▸ hactive) hterminal
  · split at h
    · rename_i hnewer
      cases h
      exact .newer hactive hterminal hnewer.1
    · split at h <;> cases h

variable {candidate : NativeApplyDispatchRecord} {gate : Except String Unit}

/-- **Admission.** -/
theorem admitWithGate_admitted {a : Admitting}
    (h : s.admitWithGate start candidate gate = .ok (s', a)) :
    candidate.matchesStart start = true ∧ Admitted s start candidate s' a := by
  simp only [admitWithGate, bind_ok, exists_unit, check_ok] at h
  obtain ⟨-, -, -, hmatches, h⟩ := h
  refine ⟨hmatches, ?_⟩
  unfold admitRecords at h
  split at h
  · rename_i active terminal hactive hterminal
    exact admitBoth_admitted hactive hterminal h
  · split at h
    · cases h
      exact .kept
    · cases h
  · rename_i terminal hactive hterminal
    split at h
    · cases h
      exact .kept
    · rename_i hother
      simp only [bind_ok, exists_unit, pure] at h
      obtain ⟨-, h⟩ := h
      cases h
      exact .clears hactive hterminal (by simpa using hother)
  · rename_i hactive hterminal
    simp only [bind_ok, exists_unit, pure, writeNewActive_eq_ok] at h
    obtain ⟨-, s₁, ⟨-, rfl⟩, h⟩ := h
    cases h
    exact .creates hactive hterminal

theorem gate_of_admitWithGate {answer : NativeApplyCoordinatorStore × Admitting}
    (hactive : s.active = none)
    (hother : ∀ terminal, s.terminal = some terminal → terminal.dispatch.matchesStart start =
      false) (h : s.admitWithGate start candidate gate = .ok answer) : gate = .ok () := by
  simp only [admitWithGate, bind_ok, exists_unit, check_ok, admitRecords, hactive] at h
  obtain ⟨-, -, -, -, h⟩ := h
  cases hterminal : s.terminal with
  | none =>
    simp only [hterminal, bind_ok, exists_unit] at h
    exact h.1
  | some terminal =>
    simp only [hterminal, hother terminal hterminal, false_eq_true, if_false, bind_ok,
      exists_unit] at h
    exact h.1

/-- **Rearming** replaces a receipt by a dispatch of the next generation. -/
theorem rearm_eq_ok {expected : NativeApplyTerminalRecord}
    (h : s.rearmTerminalWithGate start expected candidate gate = .ok (s', d)) :
    s.active = none ∧ s.claim = none ∧ s.terminal = some expected ∧
      expected.dispatch.SameIntent candidate ∧ candidate.state = .accepted ∧
      d = { candidate with generation := expected.dispatch.generation + 1 } ∧
      s' = { s with active := some d } := by
  simp only [rearmTerminalWithGate, bind_ok, exists_unit, check_ok, orError_eq_ok,
    nextGeneration_eq_ok, writeNewActive_eq_ok, pure] at h
  obtain ⟨-, -, -, -, hmatches, hstate, -, hclaim, current, hterminal, hcurrent, -, ⟨-, rfl⟩, -,
    -, s₁, ⟨hactive, rfl⟩, rfl, rfl⟩ := h
  obtain rfl : current = expected := by simpa using hcurrent
  simp only [not_eq_true', or_eq_false_iff, not_eq_false'] at hmatches
  exact ⟨hactive, by simpa using hclaim, hterminal,
    NativeApplyDispatchRecord.sameIntent_of_matchesStart hmatches.1 hmatches.2,
    by simpa using hstate, rfl, rfl⟩

variable {expected : NativeApplyDispatchRecord}

/-- **`mark_validating`.** -/
theorem markValidating_eq_ok (h : s.markValidating expected = .ok (s', d)) :
    s.active = some expected ∧ expected.state = .accepted ∧
      d = { expected with state := .validating, generation := expected.generation + 1 } ∧
      s' = { s with active := some d } := by
  simp only [markValidating, bind_ok, exists_unit, check_ok, orError_eq_ok,
    nextGeneration_eq_ok, pure] at h
  obtain ⟨current, hactive, hcurrent, hstate, -, ⟨-, rfl⟩, -, rfl, rfl⟩ := h
  obtain rfl : current = expected := by simpa using hcurrent
  exact ⟨hactive, by simpa using hstate, rfl, rfl⟩

/-- **`mark_applying`** keeps the handle and the intent of a dispatch. -/
theorem markApplying_eq_ok {verified : NativeApplyVerifiedDispatchIdentity}
    (h : s.markApplying expected verified = .ok (s', d)) :
    s.active = some expected ∧ d.state = .applying ∧ d.generation = expected.generation + 1 ∧
      d.applyJobId = expected.applyJobId ∧ expected.SameIntent d ∧
      s' = { s with active := some d } := by
  simp only [markApplying, bind_ok, exists_unit, check_ok, orError_eq_ok,
    nextGeneration_eq_ok, pure] at h
  obtain ⟨-, current, hactive, hcurrent, -, -, ⟨-, rfl⟩, -, rfl, rfl⟩ := h
  obtain rfl : current = expected := by simpa using hcurrent
  exact ⟨hactive, rfl, rfl, rfl, ⟨rfl, rfl, rfl, rfl, rfl⟩, rfl⟩

/-- **`complete`** publishes a receipt for the active dispatch. -/
theorem complete_eq_ok (h : s.complete terminal = .ok s') :
    s.active = some terminal.dispatch ∧ s' = { s with terminal := some terminal } := by
  simp only [complete, bind_ok, exists_unit, check_ok, orError_eq_ok, pure, Except.pure,
    Except.ok.injEq] at h
  obtain ⟨-, active, hactive, hsame, rfl⟩ := h
  obtain rfl : active = terminal.dispatch := by simpa using hsame
  exact ⟨hactive, rfl⟩

/-- **`claim_worker`** takes the claim where there is none. -/
theorem claimWorker_eq_ok {claim : NativeApplyWorkerClaim}
    {existing : Option NativeApplyWorkerClaim}
    (h : s.claimWorker expected claim = .ok (s', existing)) :
    s.active = some expected ∧ claim.matchesDispatch expected = true ∧ s.claim = existing ∧
      (existing = none → s' = { s with claim := some claim }) ∧ (existing ≠ none → s' = s) := by
  simp only [claimWorker, bind_ok, exists_unit, check_ok, orError_eq_ok] at h
  obtain ⟨-, -, hmatches, active, hactive, hsame, h⟩ := h
  obtain rfl : active = expected := by simpa using hsame
  simp only [not_eq_true', or_eq_false_iff, not_eq_false'] at hmatches
  refine ⟨hactive, hmatches.1, ?_⟩
  split at h
  · rename_i held hclaim
    cases h
    exact ⟨hclaim, by simp, by simp⟩
  · rename_i hclaim
    cases h
    exact ⟨hclaim, by simp, by simp⟩

/-- **`remove_worker_claim`** leaves no claim. -/
theorem removeWorkerClaim_eq_ok {expected : NativeApplyWorkerClaim}
    (h : s.removeWorkerClaim expected = .ok s') : s' = { s with claim := none } := by
  unfold removeWorkerClaim at h
  split at h
  · rename_i hclaim
    cases h
    rw [← hclaim]
  · simp only [bind_ok, exists_unit, check_ok, pure, Except.pure, Except.ok.injEq] at h
    exact h.2.symm

variable {readiness : NativeApplyWorkerReadiness}

theorem reconcileClaim_eq_ok {executable : NativeApplyDispatchRecord}
    (h : s.reconcileClaim live executable = .ok (s', readiness)) :
    (∃ claim, s.claim = some claim ∧ live claim.process = true ∧ s' = s ∧
        readiness = .live claim.process) ∨
      ((∀ claim, s.claim = some claim → live claim.process = false) ∧
        s' = { s with claim := none } ∧ readiness = .launch executable) := by
  unfold reconcileClaim at h
  split at h
  · rename_i hclaim
    cases h
    exact .inr ⟨by simp [hclaim], by rw [← hclaim], rfl⟩
  · rename_i claim hclaim
    split at h
    · rename_i hlive
      split at h
      · cases h
      · cases h
        exact .inl ⟨claim, hclaim, hlive, rfl, rfl⟩
    · rename_i hdead
      simp only [bind_ok, pure] at h
      obtain ⟨s₁, hs₁, rfl, rfl⟩ := h
      exact .inr ⟨by simpa [hclaim] using hdead, removeWorkerClaim_eq_ok hs₁, rfl⟩

theorem reconcileIdle_eq_ok (h : s.reconcileIdle live = .ok (s', readiness)) :
    (∀ d, readiness ≠ .launch d) ∧
      (s' = s ∨ (∀ claim, s.claim = some claim → live claim.process = false) ∧
        s' = { s with claim := none }) := by
  unfold reconcileIdle at h
  split at h
  · cases h
    exact ⟨by simp, .inl rfl⟩
  · rename_i claim hclaim
    split at h
    · cases h
      exact ⟨by simp, .inl rfl⟩
    · rename_i hdead
      simp only [bind_ok, pure] at h
      obtain ⟨s₁, hs₁, rfl, rfl⟩ := h
      exact ⟨by simp, .inr ⟨by simpa [hclaim] using hdead, removeWorkerClaim_eq_ok hs₁⟩⟩

end NativeApplyCoordinatorStore

end CakeAutorate.NativeApply
