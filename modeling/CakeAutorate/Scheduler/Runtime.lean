/-
# Scheduled requests and their durable record

`operations/scheduler_runtime.rs` over `operations/scheduler_store.rs`: a scheduled job is
reserved, and later settled, marked or acknowledged, in the memory of the caller, and the
state is then persisted.  A store holds one record an instance; a read may fail, and a
write may fail before or after its record was published.

A settlement writes the ledger before the cursor.  A cursor that then refuses leaves the
ledger settled in memory alone.
-/

import CakeAutorate.Scheduler.Ledger
import CakeAutorate.Protocol.RoundTrip

namespace CakeAutorate.Scheduler

open Wire Protocol ScheduleCursor Except Option List Function

structure SchedulerInstanceState where
  cursor : ScheduleCursor
  budget : BudgetLedger
  operatorWarning : Option Text
  deriving DecidableEq

namespace SchedulerInstanceState

/-- `validate`, the operator warning. -/
def validateWarning (s : SchedulerInstanceState) : Except String Unit :=
  match s.operatorWarning with
  | none => .ok ()
  | some warning =>
    check (!(warning.isEmpty || decide (byteLength warning > 512)
      || (utf8 warning).any fun byte => decide (byte < 0x20) || byte == 0x7f))
      "scheduler operator warning is not a bounded visible string"

def validate (s : SchedulerInstanceState) : Except String Unit := do
  s.cursor.validate
  s.budget.validate
  check (s.cursor.instance_ == s.budget.instance_) "scheduler cursor and budget instances differ"
  s.validateWarning

def new (cursor : ScheduleCursor) (budget : BudgetLedger) :
    Except String SchedulerInstanceState := do
  let state : SchedulerInstanceState := { cursor, budget, operatorWarning := none }
  state.validate
  return state

end SchedulerInstanceState

/-- The records of a `SchedulerStore`, as the states they encode. -/
abbrev Store := Text → Option SchedulerInstanceState

/-- How `atomic_write` ends: the record is published, is not, or is and the error is that
of the directory's sync. -/
inductive WriteOutcome where
  | published
  | lost (error : String)
  | unsynced (error : String)

/-- `SchedulerStore::load_state`; `read` is the error of a read that failed. -/
def Store.loadState (store : Store) (read : Except String Unit) (instance_ : Text) :
    Except String (Option SchedulerInstanceState) := do
  requireIdentifier "scheduler instance" instance_
  read
  check (!(store instance_).any fun state => state.cursor.instance_ != instance_)
    "scheduler state filename and identity differ"
  return store instance_

def Store.persistState (store : Store) (state : SchedulerInstanceState) (outcome : WriteOutcome) :
    Store × Except String Unit :=
  match state.validate with
  | .error e => (store, .error e)
  | .ok () =>
    match outcome with
    | .published => (update store state.cursor.instance_ (some state), .ok ())
    | .lost e => (store, .error e)
    | .unsynced e => (update store state.cursor.instance_ (some state), .error e)

/-- `ScheduledInstanceConfig`, the fields read here. -/
structure ScheduledInstanceConfig where
  instance_ : Text
  instanceEnabled : Bool
  scheduledEnabled : Bool
  intervalS : ℕ
  dailyLimitBytes : ℕ
  monthlyLimitBytes : ℕ
  autoApply : Bool

def ScheduledInstanceConfig.enabled (c : ScheduledInstanceConfig) : Bool :=
  c.instanceEnabled && c.scheduledEnabled

inductive ScheduledSettlement where
  | success
  | failed

structure ScheduledReservation where
  reservationId : Text
  jobId : Text
  dueUnixS : ℕ
  trafficBudget : ℕ

/-- The error of a call: raised before `persist_state` was called, or by it. -/
inductive CallError where
  | refused (error : String)
  | unpersisted (error : String)
  deriving DecidableEq

/-- What a call leaves: the store, the caller's state and the result. -/
structure Left (α : Type) where
  store : Store
  state : SchedulerInstanceState
  result : Except CallError α

/-- `store.persist_state(state)` at the end of a call. -/
def persisted {α : Type} (store : Store) (state : SchedulerInstanceState) (outcome : WriteOutcome)
    (value : α) : Left α :=
  match store.persistState state outcome with
  | (store, .ok ()) => ⟨store, state, .ok value⟩
  | (store, .error e) => ⟨store, state, .error (.unpersisted e)⟩

def buildInitialSchedulerState (config : ScheduledInstanceConfig) (nowUnixS : ℕ)
    (day month : Text) (monthlyChargedBytes : ℕ) : Except String SchedulerInstanceState := do
  check (nowUnixS != 0) "scheduler cannot initialize from a zero wall clock"
  let budget ← BudgetLedger.new config.instance_ day month config.dailyLimitBytes
    config.monthlyLimitBytes
  let charged := { budget with monthlyChargedBytes }
  charged.validate
  let cursor ← new config.instance_ nowUnixS
  SchedulerInstanceState.new cursor charged

/-- `load_or_initialize_state`, the state before its limits are configured. -/
def existingOrInitial (existing : Option SchedulerInstanceState) (config : ScheduledInstanceConfig)
    (nowUnixS : ℕ) (day month : Text) : Except String SchedulerInstanceState :=
  match existing with
  | some state => .ok state
  | none => buildInitialSchedulerState config nowUnixS day month 0

section

variable (store : Store) (read : Except String Unit) (config : ScheduledInstanceConfig)
  (nowUnixS : ℕ) (day month : Text)

/-- `load_or_initialize_state`, the record found and the state to return. -/
def loadedState : Except String (Option SchedulerInstanceState × SchedulerInstanceState) := do
  check (nowUnixS != 0) "scheduler cannot initialize from a zero wall clock"
  let existing ← store.loadState read config.instance_
  let before ← existingOrInitial existing config nowUnixS day month
  let budget ← before.budget.reconfigured day month config.dailyLimitBytes config.monthlyLimitBytes
  return (existing, { before with budget })

/-- `load_or_initialize_state`: a state that is new or was changed is persisted. -/
def loadOrInitializeState (outcome : WriteOutcome) :
    Store × Except CallError SchedulerInstanceState :=
  match loadedState store read config nowUnixS day month with
  | .error e => (store, .error (.refused e))
  | .ok (existing, state) =>
    if existing = some state then (store, .ok state)
    else ((persisted store state outcome state).store, (persisted store state outcome state).result)

end

variable (net : AddressText)

/-- `reserve_scheduled_request`, the decision. -/
def scheduledDecision (config : ScheduledInstanceConfig) (state : SchedulerInstanceState)
    (observation : SchedulerObservation) (request : OperationRequest) :
    Except String SchedulerDecision := do
  state.validate
  request.validate net
  check (request.origin == .scheduler) "native scheduler request has an untrusted origin"
  check (request.scheduledAutoApplyRequested == config.autoApply)
    "native scheduler request Auto-Apply authority differs from committed policy"
  check (!(request.identity.instance_ != config.instance_
    || state.cursor.instance_ != config.instance_
    || request.identity.configFingerprint != observation.generations.configFingerprint
    || request.identity.routeFingerprint != observation.generations.routeFingerprint))
    "native scheduler request and observed authority differ"
  let available ← state.budget.availableBytes
  let requestBudget ← orError request.trafficBudget.limitBytes
    "scheduled requests require a finite traffic cap"
  let decision ← evaluateSchedule config.enabled config.intervalS requestBudget.toNat available
    state.cursor observation
  match decision with
  | .admitted _ trafficBudget =>
    check (trafficBudget == requestBudget.toNat)
      "live scheduled request exceeds the admitted traffic budget"
    return decision
  | _ => return decision

def reserveScheduledRequest (store : Store) (config : ScheduledInstanceConfig)
    (state : SchedulerInstanceState) (observation : SchedulerObservation)
    (request : OperationRequest) (reservationId day month : Text) (outcome : WriteOutcome) :
    Left (SchedulerDecision × Option ScheduledReservation) :=
  match scheduledDecision net config state observation request with
  | .error e => ⟨store, state, .error (.refused e)⟩
  | .ok (.admitted dueUnixS trafficBudget) =>
    match state.budget.reserve reservationId request.identity.jobId day month
      ⟨dueUnixS, config.intervalS, observation.generations, observation.explicitRetrySequence⟩
      trafficBudget with
    | (budget, .error e) => ⟨store, { state with budget }, .error (.refused e)⟩
    | (budget, .ok ()) => persisted store { state with budget } outcome
        (.admitted dueUnixS trafficBudget,
          some ⟨reservationId, request.identity.jobId, dueUnixS, trafficBudget⟩)
  | .ok decision => ⟨store, state, .ok (decision, none)⟩

def ScheduleCursor.settle (c : ScheduleCursor) (authority : FailedAttemptFence)
    (completedUnixS : ℕ) : ScheduledSettlement → ScheduleCursor × Except String Unit
  | .success => c.recordSuccess authority.intervalS authority.dueUnixS completedUnixS
  | .failed => c.recordFailure authority

section

variable (store : Store) (state : SchedulerInstanceState)

def closeAttempt (cursor : ScheduleCursor × Except String Unit) (outcome : WriteOutcome) :
    Left Unit :=
  match cursor with
  | (cursor, .error e) => ⟨store, { state with cursor }, .error (.refused e)⟩
  | (cursor, .ok ()) =>
    match SchedulerInstanceState.validate { state with cursor } with
    | .error e => ⟨store, { state with cursor }, .error (.refused e)⟩
    | .ok () => persisted store { state with cursor } outcome ()

def settleScheduledRequest (reservationId jobId day month : Text)
    (completedUnixS consumedTrafficBytes : ℕ) (settlement : ScheduledSettlement)
    (outcome : WriteOutcome) : Left Unit :=
  match state.budget.reservation with
  | none => ⟨store, state, .error (.refused "scheduled settlement has no durable reservation")⟩
  | some reservation =>
    match state.budget.settle reservationId jobId day month consumedTrafficBytes with
    | (budget, .error e) => ⟨store, { state with budget }, .error (.refused e)⟩
    | (budget, .ok ()) => closeAttempt store { state with budget }
        (state.cursor.settle reservation.authority completedUnixS settlement) outcome

def markScheduledAccountingUnknown (reservationId jobId : Text) (outcome : WriteOutcome) :
    Left Unit :=
  match state.budget.reservation with
  | none =>
    ⟨store, state, .error (.refused "unknown scheduled accounting has no durable reservation")⟩
  | some reservation =>
    match state.budget.markAccountingUnknown reservationId jobId with
    | (budget, .error e) => ⟨store, { state with budget }, .error (.refused e)⟩
    | (budget, .ok ()) => closeAttempt store { state with budget }
        (state.cursor.recordFailure reservation.authority) outcome

def acknowledgeScheduledAccountingUnknown (outcome : WriteOutcome) : Left ℕ :=
  match state.budget.acknowledgeAccountingUnknown with
  | (budget, .error e) => ⟨store, { state with budget }, .error (.refused e)⟩
  | (budget, .ok charged) =>
    match SchedulerInstanceState.validate { state with budget } with
    | .error e => ⟨store, { state with budget }, .error (.refused e)⟩
    | .ok () => persisted store { state with budget } outcome charged

end

namespace BudgetLedger

variable {l next : BudgetLedger}

def Commits (l next : BudgetLedger) : Prop :=
  next.instance_ = l.instance_ ∧ (l.validate = .ok () → next.validate = .ok ())

theorem Commits.trans {m : BudgetLedger} (h : l.Commits m) (h' : m.Commits next) : l.Commits next :=
  ⟨h'.1.trans h.1, fun hv => h'.2 (h.2 hv)⟩

theorem commits_of_sealed {m : BudgetLedger} (h : m.sealed = .ok next)
    (hm : m.instance_ = l.instance_) : l.Commits next := by
  obtain ⟨rfl, hvalid⟩ := sealed_eq_ok h
  exact ⟨hm, fun _ => hvalid⟩

variable {day month : Text}

theorem commits_of_rolled (h : l.rolled day month = .ok next) : l.Commits next := by
  simp only [rolled, bind_ok, exists_unit] at h
  obtain ⟨-, -, h⟩ := h
  split at h
  · cases h
    exact ⟨rfl, id⟩
  · exact commits_of_sealed h rfl

theorem commits_of_reconfigured {daily monthly : ℕ}
    (h : l.reconfigured day month daily monthly = .ok next) :
    l.Commits next ∧ next.reservation = l.reservation := by
  simp only [reconfigured, bind_ok, exists_unit] at h
  obtain ⟨-, -, -, -, rolled, hrolled, h⟩ := h
  obtain ⟨-, -, -, -, hreservation⟩ := withLimits_eq_ok h
  refine ⟨(commits_of_rolled hrolled).trans ?_,
    hreservation.trans (rolls_of_rolled hrolled).reservation⟩
  unfold withLimits at h
  split at h
  · cases h
    exact ⟨rfl, id⟩
  · exact commits_of_sealed h rfl

variable {reservationId jobId : Text}

theorem commits_of_reserved {authority : FailedAttemptFence} {bytes : ℕ}
    (h : l.reserved reservationId jobId day month authority bytes = .ok next) :
    l.Commits next ∧
      next.reservation = some ⟨reservationId, jobId, day, month, bytes, authority⟩ := by
  simp only [reserved, bind_ok] at h
  obtain ⟨rolled, hrolled, h⟩ := h
  obtain ⟨-, -, -, hsome, -⟩ := withReservation_eq_ok h
  simp only [withReservation, bind_ok, exists_unit] at h
  obtain ⟨-, -, _, -, -, _, -, _, -, h⟩ := h
  exact ⟨(commits_of_rolled hrolled).trans (commits_of_sealed h rfl), hsome⟩

theorem commits_of_settled {consumed : ℕ}
    (h : l.settled reservationId jobId day month consumed = .ok next) :
    l.Commits next ∧ next.reservation = none := by
  simp only [settled, bind_ok, exists_unit] at h
  obtain ⟨-, r, -, rolled, hrolled, h⟩ := h
  obtain ⟨-, hnone, -⟩ := withoutSettled_eq_ok h
  simp only [withoutSettled, bind_ok] at h
  obtain ⟨_, -, _, -, h⟩ := h
  exact ⟨(commits_of_rolled hrolled).trans (commits_of_sealed h rfl), hnone⟩

theorem commits_of_marked (h : l.marked reservationId jobId = .ok next) :
    l.Commits next ∧ next.reservation = l.reservation ∧ next.sequence = l.sequence + 1 := by
  simp only [marked, bind_ok] at h
  obtain ⟨_, -, h⟩ := h
  refine ⟨commits_of_sealed h rfl, ?_⟩
  obtain ⟨rfl, -⟩ := sealed_eq_ok h
  exact ⟨rfl, rfl⟩

theorem commits_of_acknowledged {charged : ℕ} (h : l.acknowledged = .ok (charged, next)) :
    l.Commits next ∧ next.reservation = none := by
  simp only [acknowledged, bind_ok, exists_unit] at h
  obtain ⟨-, _, -, sealed, hsealed, h⟩ := h
  obtain ⟨-, rfl⟩ := Prod.mk.inj (ok.inj h)
  refine ⟨commits_of_sealed hsealed rfl, ?_⟩
  obtain ⟨rfl, -⟩ := sealed_eq_ok hsealed
  rfl

end BudgetLedger

namespace ScheduleCursor

variable {c : ScheduleCursor}

section

variable (hv : c.validate = .ok ())
include hv

variable {fence : FailedAttemptFence}

theorem recordFailure_ok_iff (hfence : fence.validate = .ok ())
    (hdue : c.dueUnixS fence.intervalS = .ok fence.dueUnixS) :
    (c.recordFailure fence).2 = .ok () ↔ c.sequence + 1 < u64Bound := by
  constructor
  · intro h
    unfold recordFailure at h
    split at h
    · cases h
    · rename_i n hn
      exact (failureChecks_eq_ok hn).2.2.1
  · intro hlt
    have hchecks : c.failureChecks fence = .ok (c.sequence + 1) := by
      simp only [failureChecks, bind_ok, exists_unit, check_ok, beq_iff_eq, checkedAdd_eq_ok]
      exact ⟨hfence, _, hdue, rfl, hlt, trivial⟩
    rcases recordFailure_cases hv fence with ⟨e, he⟩ | ⟨he, -⟩
    · unfold recordFailure at he
      rw [hchecks] at he
      obtain ⟨hsame, -⟩ := Prod.mk.inj he
      have hsequence := congrArg sequence hsame
      simp at hsequence
    · rw [he]

variable {intervalS due : ℕ}

theorem due_pos (h : c.dueUnixS intervalS = .ok due) :
    due ≠ 0 ∧ ∀ last, c.lastSuccessUnixS = some last → last ≤ due := by
  obtain ⟨-, -, hinitial, -⟩ := validate_eq_ok.1 hv
  have hdue := dueUnixS_eq_ok h
  refine ⟨by omega, fun last hlast => ?_⟩
  rw [hlast] at hdue
  simp only [map_some, getD_some] at hdue
  omega

theorem recordSuccess_ok_iff (hdue : c.dueUnixS intervalS = .ok due) (completed : ℕ) :
    (c.recordSuccess intervalS due completed).2 = .ok () ↔
      c.sequence + 1 < u64Bound ∧ due ≤ completed := by
  obtain ⟨hpos, hlast⟩ := due_pos hv hdue
  constructor
  · intro h
    unfold recordSuccess at h
    split at h
    · cases h
    · rename_i n hn
      obtain ⟨-, hle, -, hlt, -⟩ := successChecks_eq_ok hn
      exact ⟨hlt, hle⟩
  · rintro ⟨hlt, hle⟩
    have hchecks : c.successChecks intervalS due completed = .ok (c.sequence + 1) := by
      simp only [successChecks, bind_ok, exists_unit, check_ok, beq_iff_eq, checkedAdd_eq_ok,
        Bool.not_eq_true', Bool.or_eq_false_iff, decide_eq_false_iff_not, not_lt,
        beq_eq_false_iff_ne]
      refine ⟨due, hdue, rfl, ⟨hpos, hle⟩, ?_, hlt, trivial⟩
      cases hl : c.lastSuccessUnixS with
      | none => rfl
      | some last => simpa using (hlast last hl).trans hle
    rcases recordSuccess_cases hv intervalS due completed with ⟨e, he⟩ | ⟨he, -⟩
    · unfold recordSuccess at he
      rw [hchecks] at he
      obtain ⟨hsame, -⟩ := Prod.mk.inj he
      have hsequence := congrArg sequence hsame
      simp at hsequence
    · rw [he]

theorem recordFailure_slot (hfence : fence.validate = .ok ())
    (hdue : c.dueUnixS fence.intervalS = .ok fence.dueUnixS) :
    (c.recordFailure fence).2
      ≠ .error "scheduler failure does not belong to the current due slot" := by
  intro h
  by_cases hlt : c.sequence + 1 < u64Bound
  · rw [(recordFailure_ok_iff hv hfence hdue).2 hlt] at h
    cases h
  · have hchecks : c.failureChecks fence = .error "scheduler cursor sequence overflow" := by
      simp [failureChecks, hfence, hdue, checkedAdd, hlt, bind, Except.bind]
    rw [recordFailure, hchecks] at h
    exact absurd (Except.error.inj h) (by decide)

theorem recordSuccess_slot (hdue : c.dueUnixS intervalS = .ok due) (completed : ℕ) :
    (c.recordSuccess intervalS due completed).2
      ≠ .error "scheduler completion does not belong to the current due slot" := by
  intro h
  obtain ⟨hpos, hlast⟩ := due_pos hv hdue
  by_cases hle : due ≤ completed
  · by_cases hlt : c.sequence + 1 < u64Bound
    · rw [(recordSuccess_ok_iff hv hdue completed).2 ⟨hlt, hle⟩] at h
      cases h
    · have hmono : (c.lastSuccessUnixS.any fun last => decide (completed < last)) = false := by
        cases hl : c.lastSuccessUnixS with
        | none => rfl
        | some last => simpa using (hlast last hl).trans hle
      have hchecks : c.successChecks intervalS due completed
          = .error "scheduler cursor sequence overflow" := by
        have hzero : (due == 0) = false := beq_eq_false_iff_ne.2 hpos
        have hlate : decide (completed < due) = false := decide_eq_false (by omega)
        simp [successChecks, hdue, hzero, hlate, hmono, checkedAdd, hlt, bind, Except.bind]
      rw [recordSuccess, hchecks] at h
      exact absurd (Except.error.inj h) (by decide)
  · have hchecks : c.successChecks intervalS due completed
        = .error "scheduler completion precedes its due calendar slot" := by
      simp [successChecks, hdue, Nat.lt_of_not_le hle, bind, Except.bind]
    rw [recordSuccess, hchecks] at h
    exact absurd (Except.error.inj h) (by decide)

end

end ScheduleCursor

namespace SchedulerInstanceState

variable {s : SchedulerInstanceState} {budget : BudgetLedger}

theorem validate_eq_ok : s.validate = .ok () ↔ s.cursor.validate = .ok () ∧
    s.budget.validate = .ok () ∧ s.cursor.instance_ = s.budget.instance_ ∧
    s.validateWarning = .ok () := by
  simp [validate, andThen_eq_ok, check_ok]

/-- A valid state whose outstanding reservation is for the current due slot. -/
structure Coherent (s : SchedulerInstanceState) : Prop where
  valid : s.validate = .ok ()
  due : ∀ r, s.budget.reservation = some r →
    s.cursor.dueUnixS r.authority.intervalS = .ok r.authority.dueUnixS

theorem authority_valid (h : s.validate = .ok ()) {r : BudgetReservation}
    (hr : s.budget.reservation = some r) : r.authority.validate = .ok () := by
  obtain ⟨-, hbudget, -, -⟩ := validate_eq_ok.1 h
  simp only [BudgetLedger.validate, BudgetLedger.validateReservation, hr, andThen_eq_ok,
    BudgetReservation.validate] at hbudget
  exact hbudget.2.2.2.2.2.2.2.2.1.2.2.2.1

theorem Coherent.withBudget (h : s.Coherent) (hcommit : s.budget.Commits budget)
    (hdue : ∀ r, budget.reservation = some r →
      s.cursor.dueUnixS r.authority.intervalS = .ok r.authority.dueUnixS) :
    Coherent { s with budget } := by
  obtain ⟨hcursor, hbudget, hinstance, hwarning⟩ := validate_eq_ok.1 h.valid
  exact ⟨validate_eq_ok.2 ⟨hcursor, hcommit.2 hbudget, hinstance.trans hcommit.1.symm, hwarning⟩, hdue⟩

theorem Coherent.withFailure (h : s.Coherent) (fence : FailedAttemptFence) :
    Coherent { s with cursor := (s.cursor.recordFailure fence).1 } := by
  obtain ⟨hcursor, hbudget, hinstance, hwarning⟩ := validate_eq_ok.1 h.valid
  have hvalid := validate_step hcursor (.failure fence)
  rcases recordFailure_cases hcursor fence with ⟨e, he⟩ | ⟨he, -⟩
  · rw [he]
    exact h
  · refine ⟨validate_eq_ok.2 ⟨hvalid, hbudget, ?_, hwarning⟩, ?_⟩
    · rw [he]
      exact hinstance
    · intro r hr
      rw [he]
      exact h.due r hr

theorem Coherent.withSuccess (h : s.Coherent) (hnone : s.budget.reservation = none)
    (intervalS due completed : ℕ) :
    Coherent { s with cursor := (s.cursor.recordSuccess intervalS due completed).1 } := by
  obtain ⟨hcursor, hbudget, hinstance, hwarning⟩ := validate_eq_ok.1 h.valid
  have hvalid := validate_step hcursor (.success intervalS due completed)
  refine ⟨validate_eq_ok.2 ⟨hvalid, hbudget, ?_, hwarning⟩,
    fun r hr => absurd (hnone.symm.trans hr) (by simp)⟩
  rcases recordSuccess_cases hcursor intervalS due completed with ⟨e, he⟩ | ⟨he, -⟩ <;>
    rw [he] <;> exact hinstance

theorem Coherent.withSettlement (h : s.Coherent) (hnone : s.budget.reservation = none)
    (authority : FailedAttemptFence) (completed : ℕ) (settlement : ScheduledSettlement) :
    Coherent { s with cursor := (s.cursor.settle authority completed settlement).1 } := by
  cases settlement with
  | success => exact h.withSuccess hnone _ _ _
  | failed => exact h.withFailure authority

end SchedulerInstanceState

def Store.Coherent (store : Store) : Prop := ∀ i s, store i = some s → s.Coherent

variable {s : SchedulerInstanceState} {config : ScheduledInstanceConfig}

theorem Store.Coherent.update {store : Store} (h : store.Coherent) (hs : s.Coherent) (i : Text) :
    Store.Coherent (update store i (some s)) := by
  intro j t ht
  by_cases hj : j = i
  · subst hj
    rw [update_self] at ht
    exact some.inj ht ▸ hs
  · rw [update_of_ne hj] at ht
    exact h j t ht

/-- **What persisting can do**: the state stays, the records stay coherent, and no error is
raised before. -/
theorem persisted_spec {α : Type} {store : Store} (h : store.Coherent) (hs : s.Coherent)
    (outcome : WriteOutcome) (value : α) :
    (persisted store s outcome value).state = s ∧ (persisted store s outcome value).store.Coherent ∧
      (∀ e, (persisted store s outcome value).result ≠ .error (.refused e)) ∧
      ∀ a, (persisted store s outcome value).result = .ok a → a = value := by
  unfold persisted Store.persistState
  rw [hs.valid]
  cases outcome with
  | published => exact ⟨rfl, h.update hs _, nofun, fun a ha => (ok.inj ha).symm⟩
  | lost e => exact ⟨rfl, h, nofun, nofun⟩
  | unsynced e => exact ⟨rfl, h.update hs _, nofun, nofun⟩

/-- **How an attempt is closed**: refused exactly when the cursor refuses. -/
theorem closeAttempt_spec {store : Store} {cursor : ScheduleCursor × Except String Unit}
    (h : store.Coherent) (hs : SchedulerInstanceState.Coherent { s with cursor := cursor.1 })
    (outcome : WriteOutcome) :
    (closeAttempt store s cursor outcome).state = { s with cursor := cursor.1 } ∧
      (closeAttempt store s cursor outcome).store.Coherent ∧
      ((∃ e, (closeAttempt store s cursor outcome).result = .error (.refused e)) ↔
        cursor.2 ≠ .ok ()) := by
  obtain ⟨cursor, result⟩ := cursor
  cases result with
  | error e => exact ⟨rfl, h, fun _ => nofun, fun _ => ⟨e, rfl⟩⟩
  | ok u =>
    obtain ⟨hstate, hstore, hresult, -⟩ := persisted_spec h hs outcome ()
    have hvalid : SchedulerInstanceState.validate { s with cursor } = .ok () := hs.valid
    simp only [closeAttempt, hvalid]
    refine ⟨hstate, hstore, ?_, fun hne => absurd rfl hne⟩
    rintro ⟨e, he⟩
    exact absurd he (hresult e)

/-- A call on a loaded state. -/
inductive StateCall where
  | reserve (config : ScheduledInstanceConfig) (observation : SchedulerObservation)
      (request : OperationRequest) (reservationId day month : Text) (outcome : WriteOutcome)
  | settle (reservationId jobId day month : Text) (completedUnixS consumedTrafficBytes : ℕ)
      (settlement : ScheduledSettlement) (outcome : WriteOutcome)
  | markUnknown (reservationId jobId : Text) (outcome : WriteOutcome)
  | acknowledgeUnknown (outcome : WriteOutcome)

def Left.done {α : Type} (left : Left α) : Left Unit :=
  ⟨left.store, left.state, left.result.map fun _ => ()⟩

def StateCall.apply (store : Store) (s : SchedulerInstanceState) : StateCall → Left Unit
  | .reserve config observation request reservationId day month outcome =>
    (reserveScheduledRequest net store config s observation request reservationId day month
      outcome).done
  | .settle reservationId jobId day month completed consumed settlement outcome =>
    settleScheduledRequest store s reservationId jobId day month completed consumed settlement
      outcome
  | .markUnknown reservationId jobId outcome =>
    markScheduledAccountingUnknown store s reservationId jobId outcome
  | .acknowledgeUnknown outcome => (acknowledgeScheduledAccountingUnknown store s outcome).done

/-- **When a refused call changes nothing**: a settlement or a mark that the ledger accepts
finds a cursor with a sequence left, and a success is not dated before its slot. -/
def StateCall.Met (s : SchedulerInstanceState) : StateCall → Prop
  | .settle reservationId jobId day month completed consumed settlement _ =>
    (∃ next, s.budget.settled reservationId jobId day month consumed = .ok next) →
      s.cursor.sequence + 1 < u64Bound ∧
        (settlement = .success → ∀ r, s.budget.reservation = some r →
          r.authority.dueUnixS ≤ completed)
  | .markUnknown reservationId jobId _ =>
    (∃ next, s.budget.marked reservationId jobId = .ok next) → s.cursor.sequence + 1 < u64Bound
  | _ => True

/-- A call of the runtime: a state is loaded, or the one in memory is worked on. -/
inductive RuntimeCall where
  | load (read : Except String Unit) (config : ScheduledInstanceConfig) (nowUnixS : ℕ)
      (day month : Text) (outcome : WriteOutcome)
  | work (call : StateCall)

/-- The durable records, and the state that the caller holds. -/
structure World where
  store : Store
  memory : Option SchedulerInstanceState

namespace World

def empty : World := ⟨fun _ => none, none⟩

def step (w : World) : RuntimeCall → World
  | .load read config now day month outcome =>
    match loadOrInitializeState w.store read config now day month outcome with
    | (store, .ok s) => ⟨store, some s⟩
    | (store, .error _) => { w with store }
  | .work call =>
    match w.memory with
    | none => w
    | some s => ⟨(call.apply net w.store s).store, some (call.apply net w.store s).state⟩

def run (w : World) (calls : List RuntimeCall) : World := calls.foldl (step net) w

/-- Memory and records are coherent. -/
structure Coherent (w : World) : Prop where
  store : w.store.Coherent
  memory : ∀ s, w.memory = some s → s.Coherent

end World

variable {net}

theorem scheduledDecision_admitted {o : SchedulerObservation} {request : OperationRequest}
    {due budget : ℕ} (h : scheduledDecision net config s o request = .ok (.admitted due budget)) :
    s.cursor.dueUnixS config.intervalS = .ok due := by
  simp only [scheduledDecision, bind_ok, exists_unit] at h
  obtain ⟨-, -, -, -, -, available, -, requestBudget, -, decision, hdecision, h⟩ := h
  split at h
  · simp only [bind_ok, exists_unit] at h
    obtain ⟨-, h⟩ := h
    obtain ⟨rfl, rfl⟩ := SchedulerDecision.admitted.inj (ok.inj h)
    exact (evaluateSchedule_admitted hdecision).1
  · rename_i hne
    exact absurd (ok.inj h) (hne due budget)

/-- **What a call leaves**: everything is coherent, and a refused call changes nothing
exactly when its condition is met. -/
structure Leaves (store : Store) (s : SchedulerInstanceState) (met : Prop) (left : Left Unit) :
    Prop where
  coherent : left.state.Coherent
  records : left.store.Coherent
  unchanged : (∀ e, left.result = .error (.refused e) → left.state = s ∧ left.store = store) ↔ met

variable {store : Store} {s : SchedulerInstanceState}

theorem Leaves.done {α : Type} {left : Left α} (hstate : left.state.Coherent)
    (hstore : left.store.Coherent)
    (h : ∀ e, left.result = .error (.refused e) → left.state = s ∧ left.store = store) :
    Leaves store s True left.done := by
  refine ⟨hstate, hstore, iff_of_true (fun e he => ?_) trivial⟩
  unfold Left.done at he
  cases hresult : left.result with
  | ok a =>
    rw [hresult] at he
    cases he
  | error e' =>
    rw [hresult] at he
    cases he
    exact h e hresult

section

variable (h : store.Coherent)
include h

theorem reserve_leaves (hs : s.Coherent) (config : ScheduledInstanceConfig)
    (o : SchedulerObservation) (request : OperationRequest) (reservationId day month : Text)
    (outcome : WriteOutcome) :
    Leaves store s True (reserveScheduledRequest net store config s o request reservationId day month
      outcome).done := by
  unfold reserveScheduledRequest
  split
  · exact .done hs h fun _ _ => ⟨rfl, rfl⟩
  · rename_i due budget hdecision
    simp only [BudgetLedger.reserve, BudgetLedger.commit]
    cases hnext : s.budget.reserved reservationId request.identity.jobId day month
        ⟨due, config.intervalS, o.generations, o.explicitRetrySequence⟩ budget with
    | error e => exact .done hs h fun _ _ => ⟨rfl, rfl⟩
    | ok next =>
      obtain ⟨hcommit, hreservation⟩ := BudgetLedger.commits_of_reserved hnext
      have hnow : SchedulerInstanceState.Coherent { s with budget := next } := by
        refine hs.withBudget hcommit fun r hr => ?_
        cases hreservation.symm.trans hr
        exact scheduledDecision_admitted hdecision
      obtain ⟨hstate, hstore, hresult, -⟩ := persisted_spec h hnow outcome
        (SchedulerDecision.admitted due budget,
          some (ScheduledReservation.mk reservationId request.identity.jobId due budget))
      exact .done (hstate ▸ hnow) hstore fun e he => absurd he (hresult e)
  · exact .done hs h fun _ _ => ⟨rfl, rfl⟩

theorem acknowledge_leaves (hs : s.Coherent) (outcome : WriteOutcome) :
    Leaves store s True (acknowledgeScheduledAccountingUnknown store s outcome).done := by
  unfold acknowledgeScheduledAccountingUnknown BudgetLedger.acknowledgeAccountingUnknown
  cases hnext : s.budget.acknowledged with
  | error e => exact .done hs h fun _ _ => ⟨rfl, rfl⟩
  | ok result =>
    obtain ⟨hcommit, hnone⟩ := BudgetLedger.commits_of_acknowledged hnext
    have hnow : SchedulerInstanceState.Coherent { s with budget := result.2 } :=
      hs.withBudget hcommit fun r hr => absurd (hnone.symm.trans hr) (by simp)
    obtain ⟨hstate, hstore, hresult, -⟩ := persisted_spec h hnow outcome result.1
    simp only [hnow.valid]
    refine .done ?_ hstore fun e he => absurd he (hresult e)
    rw [hstate]
    exact hnow

theorem closeAttempt_leaves {budget : BudgetLedger} {cursor : ScheduleCursor × Except String Unit}
    {met : Prop} (hbudget : budget ≠ s.budget)
    (hnow : SchedulerInstanceState.Coherent { s with cursor := cursor.1, budget })
    (hmet : met ↔ cursor.2 = .ok ()) (outcome : WriteOutcome) :
    Leaves store s met (closeAttempt store { s with budget } cursor outcome) := by
  have hspec : (closeAttempt store { s with budget } cursor outcome).state
      = { s with cursor := cursor.1, budget } ∧
      (closeAttempt store { s with budget } cursor outcome).store.Coherent ∧
      ((∃ e, (closeAttempt store { s with budget } cursor outcome).result = .error (.refused e)) ↔
        cursor.2 ≠ .ok ()) := closeAttempt_spec h hnow outcome
  obtain ⟨hstate, hstore, hrefused⟩ := hspec
  refine ⟨hstate ▸ hnow, hstore, ?_⟩
  rw [hmet]
  constructor
  · intro hsame
    by_contra hne
    obtain ⟨e, he⟩ := hrefused.2 hne
    have hs := hstate.symm.trans (hsame e he).1
    exact hbudget (congrArg SchedulerInstanceState.budget hs)
  · intro hok e he
    exact absurd hok (hrefused.1 ⟨e, he⟩)

theorem refused_leaves {met : Prop} (hs : s.Coherent) (hmet : met) (e : String) :
    Leaves store s met ⟨store, s, .error (.refused e)⟩ :=
  ⟨hs, h, iff_of_true (fun _ _ => ⟨rfl, rfl⟩) hmet⟩

theorem settle_leaves (hs : s.Coherent) (reservationId jobId day month : Text)
    (completed consumed : ℕ) (settlement : ScheduledSettlement) (outcome : WriteOutcome) :
    Leaves store s (StateCall.Met s
        (.settle reservationId jobId day month completed consumed settlement outcome))
      (settleScheduledRequest store s reservationId jobId day month completed consumed settlement
        outcome) := by
  unfold settleScheduledRequest BudgetLedger.settle BudgetLedger.commit
  cases hr : s.budget.reservation with
  | none =>
    refine refused_leaves h hs (fun hnext => ?_) _
    obtain ⟨next, hnext⟩ := hnext
    simp only [BudgetLedger.settled, bind_ok, exists_unit] at hnext
    obtain ⟨-, r, hexact, -⟩ := hnext
    exact absurd (hr.symm.trans (BudgetLedger.exactReservation_eq_ok hexact)) (by simp)
  | some r =>
    cases hnext : s.budget.settled reservationId jobId day month consumed with
    | error e =>
      refine refused_leaves h hs (fun haccepted => ?_) e
      obtain ⟨next, haccepted⟩ := haccepted
      exact absurd (hnext.symm.trans haccepted) (by simp)
    | ok next =>
      obtain ⟨hcommit, hnone⟩ := BudgetLedger.commits_of_settled hnext
      have hsettled : SchedulerInstanceState.Coherent { s with budget := next } :=
        hs.withBudget hcommit fun r hr => absurd (hnone.symm.trans hr) (by simp)
      have hchanged : next ≠ s.budget := by
        rintro rfl
        exact absurd (hnone.symm.trans hr) (by simp)
      refine closeAttempt_leaves h hchanged
        (hsettled.withSettlement hnone r.authority completed settlement) ?_ outcome
      obtain ⟨hcursor, -⟩ := SchedulerInstanceState.validate_eq_ok.1 hs.valid
      have hdue := hs.due r hr
      have hvalid := SchedulerInstanceState.authority_valid hs.valid hr
      cases settlement with
      | success =>
        have hiff := recordSuccess_ok_iff hcursor hdue completed
        simpa [StateCall.Met, hnext, hr, settle] using hiff.symm
      | failed =>
        have hiff := recordFailure_ok_iff hcursor hvalid hdue
        simpa [StateCall.Met, hnext, settle] using hiff.symm

theorem markUnknown_leaves (hs : s.Coherent) (reservationId jobId : Text) (outcome : WriteOutcome) :
    Leaves store s (StateCall.Met s (.markUnknown reservationId jobId outcome))
      (markScheduledAccountingUnknown store s reservationId jobId outcome) := by
  unfold markScheduledAccountingUnknown BudgetLedger.markAccountingUnknown BudgetLedger.commit
  cases hr : s.budget.reservation with
  | none =>
    refine refused_leaves h hs (fun hnext => ?_) _
    obtain ⟨next, hnext⟩ := hnext
    simp only [BudgetLedger.marked, bind_ok] at hnext
    obtain ⟨r, hexact, -⟩ := hnext
    exact absurd (hr.symm.trans (BudgetLedger.exactReservation_eq_ok hexact)) (by simp)
  | some r =>
    cases hnext : s.budget.marked reservationId jobId with
    | error e =>
      refine refused_leaves h hs (fun haccepted => ?_) e
      obtain ⟨next, haccepted⟩ := haccepted
      exact absurd (hnext.symm.trans haccepted) (by simp)
    | ok next =>
      obtain ⟨hcommit, hsame, hsequence⟩ := BudgetLedger.commits_of_marked hnext
      have hmarked : SchedulerInstanceState.Coherent { s with budget := next } :=
        hs.withBudget hcommit fun r hr => hs.due r (hsame.symm.trans hr)
      have hchanged : next ≠ s.budget := by
        rintro rfl
        omega
      refine closeAttempt_leaves h hchanged (hmarked.withFailure r.authority) ?_ outcome
      obtain ⟨hcursor, -⟩ := SchedulerInstanceState.validate_eq_ok.1 hs.valid
      have hiff := recordFailure_ok_iff hcursor
        (SchedulerInstanceState.authority_valid hs.valid hr) (hs.due r hr)
      simpa [StateCall.Met, hnext] using hiff.symm

/-- **One call on a coherent state.** -/
theorem StateCall.leaves (hs : s.Coherent) (call : StateCall) :
    Leaves store s (call.Met s) (call.apply net store s) := by
  cases call with
  | reserve => exact reserve_leaves h hs _ _ _ _ _ _ _
  | settle => exact settle_leaves h hs _ _ _ _ _ _ _ _
  | markUnknown => exact markUnknown_leaves h hs _ _ _
  | acknowledgeUnknown => exact acknowledge_leaves h hs _

end

theorem buildInitial_coherent {now : ℕ} {day month : Text} {charged : ℕ}
    (h : buildInitialSchedulerState config now day month charged = .ok s) : s.Coherent := by
  simp only [buildInitialSchedulerState, bind_ok, exists_unit] at h
  obtain ⟨-, budget, hbudget, -, cursor, -, h⟩ := h
  simp only [BudgetLedger.new, bind_ok, exists_unit] at hbudget
  obtain ⟨-, hbudget⟩ := hbudget
  cases hbudget
  simp only [SchedulerInstanceState.new, bind_ok, exists_unit] at h
  obtain ⟨hvalid, h⟩ := h
  cases h
  refine ⟨hvalid, ?_⟩
  intro r hr
  cases hr

theorem loadedState_coherent {read : Except String Unit} {now : ℕ} {day month : Text}
    {existing : Option SchedulerInstanceState} (h : store.Coherent)
    (hload : loadedState store read config now day month = .ok (existing, s)) : s.Coherent := by
  simp only [loadedState, bind_ok, exists_unit] at hload
  obtain ⟨-, found, hfound, before, hbefore, budget, hbudget, hload⟩ := hload
  obtain ⟨-, rfl⟩ := Prod.mk.inj (ok.inj hload)
  have hcoherent : before.Coherent := by
    unfold existingOrInitial at hbefore
    split at hbefore
    · cases hbefore
      simp only [Store.loadState, bind_ok, exists_unit] at hfound
      obtain ⟨-, -, -, hfound⟩ := hfound
      exact h _ _ (ok.inj hfound)
    · exact buildInitial_coherent hbefore
  obtain ⟨hcommit, hreservation⟩ := BudgetLedger.commits_of_reconfigured hbudget
  exact hcoherent.withBudget hcommit fun r hr => hcoherent.due r (hreservation.symm.trans hr)

namespace World

variable {w : World}

theorem Coherent.step (h : w.Coherent) (call : RuntimeCall) : (w.step net call).Coherent := by
  cases call with
  | load read config now day month outcome =>
    simp only [World.step, loadOrInitializeState]
    cases hload : loadedState w.store read config now day month with
    | error e => exact ⟨h.store, h.memory⟩
    | ok found =>
      obtain ⟨existing, s⟩ := found
      have hs := loadedState_coherent h.store hload
      obtain ⟨-, hstore, -, hvalue⟩ := persisted_spec h.store hs outcome s
      by_cases hsame : existing = some s
      · simp only [if_pos hsame]
        exact ⟨h.store, fun t ht => some.inj ht ▸ hs⟩
      · simp only [if_neg hsame]
        cases hresult : (persisted w.store s outcome s).result with
        | error e => exact ⟨hstore, h.memory⟩
        | ok t =>
          refine ⟨hstore, fun t' ht => ?_⟩
          obtain rfl := hvalue t hresult
          exact some.inj ht ▸ hs
  | work call =>
    simp only [World.step]
    split
    · exact h
    · rename_i s hs
      have hleaves : Leaves w.store s (call.Met s) (call.apply net w.store s) :=
        call.leaves h.store (h.memory s hs)
      exact ⟨hleaves.records, fun t ht => some.inj ht ▸ hleaves.coherent⟩

theorem Coherent.run (h : w.Coherent) (calls : List RuntimeCall) : (w.run net calls).Coherent := by
  induction calls generalizing w with
  | nil => exact h
  | cons call calls ih => exact ih (h.step call)

theorem coherent_empty : empty.Coherent := ⟨nofun, nofun⟩

/-- **Reservation and cursor stay coherent.**  After every run, with any reads and writes failing:
an outstanding reservation is for the current due slot; a call that is refused before it persists
changes nothing exactly when `StateCall.Met` holds before it; and a load that is refused writes no
record. -/
theorem settlement_coherent (net : AddressText) (calls : List RuntimeCall) :
    let w := empty.run net calls
    (∀ s, (w.memory = some s ∨ ∃ i, w.store i = some s) → ∀ r, s.budget.reservation = some r →
      s.cursor.dueUnixS r.authority.intervalS = .ok r.authority.dueUnixS ∧
      (s.cursor.recordFailure r.authority).2
        ≠ .error "scheduler failure does not belong to the current due slot" ∧
      ∀ completed, (s.cursor.recordSuccess r.authority.intervalS r.authority.dueUnixS completed).2
        ≠ .error "scheduler completion does not belong to the current due slot") ∧
    (∀ s, w.memory = some s → ∀ call : StateCall,
      (∀ e, (call.apply net w.store s).result = .error (.refused e) →
        (call.apply net w.store s).state = s ∧ (call.apply net w.store s).store = w.store) ↔
      call.Met s) ∧
    (∀ read config now day month outcome e,
      (loadOrInitializeState w.store read config now day month outcome).2 = .error (.refused e) →
      (loadOrInitializeState w.store read config now day month outcome).1 = w.store) := by
  intro w
  have hw : w.Coherent := coherent_empty.run calls
  refine ⟨fun s hs r hr => ?_, fun s hs call => ?_, ?_⟩
  · have hcoherent : s.Coherent := by
      rcases hs with hs | ⟨i, hs⟩
      · exact hw.memory s hs
      · exact hw.store i s hs
    have hdue := hcoherent.due r hr
    have hauthority := SchedulerInstanceState.authority_valid hcoherent.valid hr
    obtain ⟨hcursor, -⟩ := SchedulerInstanceState.validate_eq_ok.1 hcoherent.valid
    exact ⟨hdue, recordFailure_slot hcursor hauthority hdue,
      fun completed => recordSuccess_slot hcursor hdue completed⟩
  · exact (call.leaves hw.store (hw.memory s hs)).unchanged
  · intro read config now day month outcome e he
    unfold loadOrInitializeState at he ⊢
    cases hload : loadedState w.store read config now day month with
    | error e => rfl
    | ok found =>
      obtain ⟨existing, s⟩ := found
      have hs := loadedState_coherent hw.store hload
      by_cases hsame : existing = some s
      · simp only [if_pos hsame]
      · simp only [hload, if_neg hsame] at he
        exact absurd he ((persisted_spec hw.store hs outcome s).2.2.1 e)

def sampleConfig : ScheduledInstanceConfig :=
  ⟨lit "wan_sqm", true, true, 60, 10000000000, 100000000000, false⟩

def sampleRequest : OperationRequest := { managedRequest with origin := .scheduler }

def sampleReady : SchedulerObservation :=
  { sampleObservation 100 1 with
    generations := ⟨replicate 64 'c', replicate 64 'b', 1, replicate 32 'e'⟩ }

def sampleReserved : World :=
  empty.run addressText
    [.load (.ok ()) sampleConfig 100 (lit "20260301") (lit "202603") .published,
      .work (.reserve sampleConfig sampleReady sampleRequest (replicate 32 'a')
        (lit "20260301") (lit "202603") .published)]

def sampleState : SchedulerInstanceState where
  cursor := ⟨lit "wan_sqm", 1, 100, none, none⟩
  budget := ⟨lit "wan_sqm", 2, lit "20260301", lit "202603", 10000000000, 100000000000, 4294967296,
    4294967296, false, some ⟨replicate 32 'a', lit "0123456789abcdef0123456789abcdef",
      lit "20260301", lit "202603", 4294967296, ⟨100, 60, sampleReady.generations, 0⟩⟩⟩
  operatorWarning := none

def sampleSettle : StateCall :=
  .settle (replicate 32 'a') (lit "0123456789abcdef0123456789abcdef") (lit "20260301")
    (lit "202603") 99 5 .success .published

theorem sampleSettle_half_done : sampleReserved.memory = some sampleState ∧
    sampleReserved.store (lit "wan_sqm") = some sampleState ∧
    (sampleSettle.apply addressText sampleReserved.store sampleState).result
      = .error (.refused "scheduler completion precedes its due calendar slot") ∧
    (sampleSettle.apply addressText sampleReserved.store sampleState).state.budget.reservation
      = none ∧
    (sampleSettle.apply addressText sampleReserved.store sampleState).store (lit "wan_sqm")
      = some sampleState := by
  decide +kernel

end World

end CakeAutorate.Scheduler
