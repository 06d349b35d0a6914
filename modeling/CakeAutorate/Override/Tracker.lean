/-
# The runtime override tracker

`RuntimeOverrideTracker` of `operations/autotune_runtime.rs`: who owns the
temporary override of an instance, and which action the driver has to take next.
An operation on `&mut self` is a function to the tracker after it and the action;
`recover_after_restart` makes the tracker of a restarted instance.
`Effect` lists what an operation can do.
-/

import CakeAutorate.Override.Permit

namespace CakeAutorate.Override

open Wire Protocol

inductive RuntimeAckState where
  | applied
  | restoring
  | restored
  | rejected

/-- What a worker is told of its control. -/
structure AutotuneRuntimeAck where
  permitId : Text
  jobId : Text
  workerRunId : Text
  sequence : ℕ
  updatedBootMs : ℕ
  targetInterface : Text
  routeFingerprint : Text
  sqmFingerprint : Text
  state : RuntimeAckState
  topology : Option MeasurementTopology
  downloadKbps : Option ℕ
  uploadKbps : Option ℕ
  diagnosticCode : Option String

section

variable (c : AutotuneRuntimeControl) (currentBootMs : ℕ)

def appliedAck : AutotuneRuntimeAck where
  permitId := c.permitId
  jobId := c.jobId
  workerRunId := c.workerRunId
  sequence := c.sequence
  updatedBootMs := currentBootMs
  targetInterface := c.targetInterface
  routeFingerprint := c.routeFingerprint
  sqmFingerprint := c.sqmFingerprint
  state := .applied
  topology := some c.topology
  downloadKbps := c.downloadKbps
  uploadKbps := c.uploadKbps
  diagnosticCode := none

def restorationAck (state : RuntimeAckState) : AutotuneRuntimeAck where
  permitId := c.permitId
  jobId := c.jobId
  workerRunId := c.workerRunId
  sequence := c.sequence
  updatedBootMs := currentBootMs
  targetInterface := c.targetInterface
  routeFingerprint := c.routeFingerprint
  sqmFingerprint := c.sqmFingerprint
  state
  topology := none
  downloadKbps := none
  uploadKbps := none
  diagnosticCode := none

def rejectedAck (diagnosticCode : String) : AutotuneRuntimeAck where
  permitId := c.permitId
  jobId := c.jobId
  workerRunId := c.workerRunId
  sequence := max c.sequence 1
  updatedBootMs := max currentBootMs 1
  targetInterface := c.targetInterface
  routeFingerprint := c.routeFingerprint
  sqmFingerprint := c.sqmFingerprint
  state := .rejected
  topology := none
  downloadKbps := none
  uploadKbps := none
  diagnosticCode := some diagnosticCode

end

def rejectionCode (error : String) : String :=
  if lit "lifetime" <:+: lit error then "permit-lifetime-invalid"
  else if lit "bypass" <:+: lit error then "topology-not-permitted"
  else if lit "range" <:+: lit error then "rate-not-permitted"
  else "permit-mismatch"

inductive RuntimeOverridePhase where
  | idle
  | applying
  | applied
  | restoring
  | restored
  deriving DecidableEq

inductive RuntimeRestoreReason where
  | applyFailed
  | appliedAttestationMismatch
  | controlMissing
  | permitMissing
  | deadlineExpired
  | workerIdentityMismatch
  | routeDrift
  | baselineAttestationUnavailable
  | sqmDrift
  | runtimeDrift
  | sequenceConflict
  | instanceRestarted
  deriving DecidableEq

inductive RuntimeIdentityHealth where
  | matches
  | drifted
  | unavailable
  deriving DecidableEq

/-- What the instance does next. -/
inductive RuntimeOverrideAction where
  | none
  | malformedControl
  | apply (control : AutotuneRuntimeControl)
  | restore (baseline : RuntimeRestoreBaseline) (reason : RuntimeRestoreReason)
      (ack : AutotuneRuntimeAck)
  | publishAck (ack : AutotuneRuntimeAck)

structure RuntimeOverrideHealth where
  currentBootMs : ℕ
  permitPresent : Bool
  controlPresent : Bool
  workerIdentityMatches : Bool
  routeIdentity : Text
  baselineIdentity : RuntimeIdentityHealth
  appliedRuntimeMatches : Bool

structure RuntimeRouteRearmHealth where
  currentBootMs : ℕ
  restoreIntentPresent : Bool
  workerIdentityMatches : Bool
  routeIdentity : Text
  baselineIdentity : RuntimeIdentityHealth
  baselineRuntimeMatches : Bool

/-- An override, from its claim to its end. -/
structure RuntimeOverrideSession where
  permit : AutotuneRuntimePermit
  baseline : RuntimeRestoreBaseline
  control : AutotuneRuntimeControl
  appliedAck : Option AutotuneRuntimeAck
  restoreReason : Option RuntimeRestoreReason
  restoreStartedBootMs : Option ℕ

def RuntimeOverrideSession.restoring (s : RuntimeOverrideSession) (reason : RuntimeRestoreReason)
    (now : ℕ) : RuntimeOverrideSession :=
  { s with
    restoreReason := some reason
    restoreStartedBootMs := some (s.restoreStartedBootMs.getD (max now 1)) }

structure RuntimeOverrideTracker where
  instanceName : Text
  phase : RuntimeOverridePhase
  session : Option RuntimeOverrideSession

def sameOwner (p : AutotuneRuntimePermit) (permitId jobId workerRunId : Text) : Bool :=
  p.permitId == permitId && p.jobId == jobId && p.workerRunId == workerRunId

/-- `sequence.saturating_add(1)` of a `u32`. -/
def saturatingNext (sequence : ℕ) : ℕ := min (sequence + 1) (2 ^ 32 - 1)

/-- `sequence.checked_add(1)` of a `u32`. -/
def checkedNext (sequence : ℕ) : Option ℕ :=
  if sequence + 1 < 2 ^ 32 then some (sequence + 1) else none

namespace RuntimeOverrideTracker

variable (net : AddressText) (t : RuntimeOverrideTracker)

def idle (instanceName : Text) : RuntimeOverrideTracker where
  instanceName
  phase := .idle
  session := none

def new (instanceName : Text) : Except String RuntimeOverrideTracker := do
  requireIdentifier "runtime tracker instance" instanceName
  return idle instanceName

def reject (c : AutotuneRuntimeControl) (now : ℕ) (code : String) :
    RuntimeOverrideTracker × RuntimeOverrideAction :=
  (t, .publishAck (rejectedAck c now code))

def beginRestore (reason : RuntimeRestoreReason) (now : ℕ) :
    RuntimeOverrideTracker × RuntimeOverrideAction :=
  match t.session with
  | none => (t, .none)
  | some s =>
    ({ t with phase := .restoring, session := some (s.restoring reason now) },
      .restore s.baseline reason
        (restorationAck s.control (s.restoreStartedBootMs.getD (max now 1)) .restoring))

/-- `submit`, on an idle tracker. -/
def submitIdle (permit : AutotuneRuntimePermit) (control : AutotuneRuntimeControl)
    (baseline : Option RuntimeRestoreBaseline) (now : ℕ) :
    RuntimeOverrideTracker × RuntimeOverrideAction :=
  match baseline with
  | none => t.reject control now "baseline-required"
  | some baseline =>
    match baseline.validateForPermit net permit with
    | .error _ => t.reject control now "baseline-mismatch"
    | .ok () =>
      ({ t with
          phase := .applying
          session := some
            { permit
              baseline
              control
              appliedAck := none
              restoreReason := none
              restoreStartedBootMs := none } },
        .apply control)

/-- `submit`, on a tracker with a session. -/
def submitOwned (s : RuntimeOverrideSession) (permit : AutotuneRuntimePermit)
    (control : AutotuneRuntimeControl) (now : ℕ) :
    RuntimeOverrideTracker × RuntimeOverrideAction :=
  if !sameOwner s.permit permit.permitId permit.jobId permit.workerRunId then
    t.reject control now "runtime-owner-busy"
  else if s.permit ≠ permit then t.beginRestore .sequenceConflict now
  else if t.phase = .restoring ∨ t.phase = .restored then
    t.reject control now "runtime-restoration-pending"
  else if control.sequence = s.control.sequence then
    if control ≠ s.control then t.beginRestore .sequenceConflict now
    else (t, (s.appliedAck.map .publishAck).getD .none)
  else if control.sequence ≠ saturatingNext s.control.sequence then
    t.beginRestore .sequenceConflict now
  else
    ({ t with
        phase := .applying
        session := some { s with control, appliedAck := none } },
      .apply control)

def submit (permit : AutotuneRuntimePermit) (control : AutotuneRuntimeControl)
    (baseline : Option RuntimeRestoreBaseline) (now : ℕ) :
    RuntimeOverrideTracker × RuntimeOverrideAction :=
  match control.validate with
  | .error _ => (t, .malformedControl)
  | .ok () =>
    match permit.authorizes net t.instanceName control now with
    | .error error => t.reject control now (rejectionCode error)
    | .ok () =>
      if t.phase = .idle then t.submitIdle net permit control baseline now
      else
        match t.session with
        | none => t.reject control now "tracker-state-invalid"
        | some s => t.submitOwned s permit control now

/-- `rearm_after_route_recovery`, on a tracker with a session. -/
def rearmOwned (s : RuntimeOverrideSession) (permit : AutotuneRuntimePermit)
    (control : AutotuneRuntimeControl) (health : RuntimeRouteRearmHealth) :
    RuntimeOverrideTracker × RuntimeOverrideAction :=
  if t.phase ≠ .restored ∨ s.restoreReason ≠ some .routeDrift then
    t.reject control health.currentBootMs "runtime-rearm-not-eligible"
  else if health.restoreIntentPresent then
    t.reject control health.currentBootMs "runtime-rearm-restore-pending"
  else if s.permit ≠ permit then
    t.reject control health.currentBootMs "runtime-rearm-owner-mismatch"
  else if checkedNext s.control.sequence ≠ some control.sequence then
    t.reject control health.currentBootMs "runtime-rearm-sequence-mismatch"
  else if { s.control with sequence := control.sequence } ≠ control then
    t.reject control health.currentBootMs "runtime-rearm-control-mismatch"
  else if !health.workerIdentityMatches then
    t.reject control health.currentBootMs "runtime-rearm-worker-mismatch"
  else if health.routeIdentity ≠ s.permit.routeIdentity ∨ health.baselineIdentity ≠ .matches
      ∨ !health.baselineRuntimeMatches then
    (t, .none)
  else
    ({ t with
        phase := .applying
        session := some { s with
          control
          appliedAck := none
          restoreReason := none
          restoreStartedBootMs := none } },
      .apply control)

def rearmAfterRouteRecovery (permit : AutotuneRuntimePermit) (control : AutotuneRuntimeControl)
    (health : RuntimeRouteRearmHealth) : RuntimeOverrideTracker × RuntimeOverrideAction :=
  match control.validate with
  | .error _ => (t, .malformedControl)
  | .ok () =>
    match permit.authorizes net t.instanceName control health.currentBootMs with
    | .error error => t.reject control health.currentBootMs (rejectionCode error)
    | .ok () =>
      match t.session with
      | none => t.reject control health.currentBootMs "runtime-rearm-owner-missing"
      | some s => t.rearmOwned s permit control health

/-- A snapshot attests a control in time: `confirm_applied` does not restore. -/
def attests (attested : RuntimeSnapshot) (control : AutotuneRuntimeControl) (now : ℕ) : Bool :=
  !(now == 0 || decide (now ≥ control.deadlineBootMs) || !attested.validate.isOk
    || !attested.matchesControl control)

def confirmApplied (attested : RuntimeSnapshot) (now : ℕ) :
    RuntimeOverrideTracker × RuntimeOverrideAction :=
  if t.phase ≠ .applying then (t, .none)
  else
    match t.session with
    | none => (t, .none)
    | some s =>
      if !attests attested s.control now then t.beginRestore .appliedAttestationMismatch now
      else
        let ack := Override.appliedAck s.control now
        ({ t with phase := .applied, session := some { s with appliedAck := some ack } },
          .publishAck ack)

def applyFailed (now : ℕ) : RuntimeOverrideTracker × RuntimeOverrideAction :=
  if t.phase = .applying ∨ t.phase = .applied then t.beginRestore .applyFailed now
  else (t, .none)

def tickReason (s : RuntimeOverrideSession) (health : RuntimeOverrideHealth) :
    Option RuntimeRestoreReason :=
  if !health.permitPresent then some .permitMissing
  else if !health.controlPresent then some .controlMissing
  else if health.currentBootMs = 0 ∨ health.currentBootMs ≥ s.control.deadlineBootMs then
    some .deadlineExpired
  else if !health.workerIdentityMatches then some .workerIdentityMismatch
  else if health.routeIdentity ≠ s.permit.routeIdentity then some .routeDrift
  else if health.baselineIdentity = .unavailable then some .baselineAttestationUnavailable
  else if health.baselineIdentity = .drifted then some .sqmDrift
  else if t.phase = .applied ∧ !health.appliedRuntimeMatches then some .runtimeDrift
  else none

def tick (health : RuntimeOverrideHealth) : RuntimeOverrideTracker × RuntimeOverrideAction :=
  if ¬(t.phase = .applying ∨ t.phase = .applied) then (t, .none)
  else
    match t.session with
    | none => (t, .none)
    | some s =>
      match t.tickReason s health with
      | some reason => t.beginRestore reason health.currentBootMs
      | none => (t, .none)

def confirmRestored (attested : RuntimeRestoreBaseline) (now : ℕ) :
    RuntimeOverrideTracker × RuntimeOverrideAction :=
  if t.phase ≠ .restoring then (t, .none)
  else
    match t.session with
    | none => (t, .none)
    | some s =>
      if now = 0 ∨ attested ≠ s.baseline ∨ !attested.validateRestoreBaseline.isOk then (t, .none)
      else
        ({ t with phase := .restored }, .publishAck (restorationAck s.control now .restored))

def retryRestore (now : ℕ) : RuntimeOverrideAction :=
  if t.phase ≠ .restoring then .none
  else
    match t.session with
    | none => .none
    | some s =>
      match s.restoreReason with
      | none => .none
      | some reason =>
        .restore s.baseline reason
          (restorationAck s.control (s.restoreStartedBootMs.getD (max now 1)) .restoring)

def release (permitId jobId workerRunId : Text) : Except String RuntimeOverrideTracker := do
  check (t.phase == .restored) "runtime override cannot be released before restoration"
  let s ← orError t.session "runtime override session is missing"
  check (sameOwner s.permit permitId jobId workerRunId)
    "runtime override release identity does not match"
  return { t with phase := .idle, session := none }

section

variable (instanceName : Text) (permit : AutotuneRuntimePermit) (control : AutotuneRuntimeControl)
  (baseline : RuntimeRestoreBaseline) (now : ℕ)

def recovered : RuntimeOverrideTracker where
  instanceName
  phase := .restoring
  session := some
    { permit
      baseline
      control
      appliedAck := none
      restoreReason := some .instanceRestarted
      restoreStartedBootMs := some (max now 1) }

def recoverAfterRestart : Except String (RuntimeOverrideTracker × RuntimeOverrideAction) := do
  permit.validate net
  control.validate
  baseline.validateForPermit net permit
  permit.authorizesIdentity net instanceName control
  return (recovered instanceName permit control baseline now,
    .restore baseline .instanceRestarted (restorationAck control (max now 1) .restoring))

end

end RuntimeOverrideTracker

/-- What can be asked of the tracker of an instance. -/
inductive OverrideEvent where
  | submit (permit : AutotuneRuntimePermit) (control : AutotuneRuntimeControl)
      (baseline : Option RuntimeRestoreBaseline) (now : ℕ)
  | rearmAfterRouteRecovery (permit : AutotuneRuntimePermit) (control : AutotuneRuntimeControl)
      (health : RuntimeRouteRearmHealth)
  | confirmApplied (attested : RuntimeSnapshot) (now : ℕ)
  | applyFailed (now : ℕ)
  | tick (health : RuntimeOverrideHealth)
  | confirmRestored (attested : RuntimeRestoreBaseline) (now : ℕ)
  | retryRestore (now : ℕ)
  | release (permitId jobId workerRunId : Text)
  | recoverAfterRestart (instanceName : Text) (permit : AutotuneRuntimePermit)
      (control : AutotuneRuntimeControl) (baseline : RuntimeRestoreBaseline) (now : ℕ)

namespace OverrideEvent

def now : OverrideEvent → Option ℕ
  | .submit _ _ _ now => some now
  | .rearmAfterRouteRecovery _ _ health => some health.currentBootMs
  | .confirmApplied _ now => some now
  | .applyFailed now => some now
  | .tick health => some health.currentBootMs
  | .confirmRestored _ now => some now
  | .retryRestore now => some now
  | .release _ _ _ => none
  | .recoverAfterRestart _ _ _ _ now => some now

def isRestart : OverrideEvent → Bool
  | .recoverAfterRestart .. => true
  | _ => false

end OverrideEvent

/-- The tracker of the instance and the action, after an event; a release and a recovery
that fail leave the tracker as it is. -/
def RuntimeOverrideTracker.act (net : AddressText) (t : RuntimeOverrideTracker) :
    OverrideEvent → RuntimeOverrideTracker × RuntimeOverrideAction
  | .submit permit control baseline now => t.submit net permit control baseline now
  | .rearmAfterRouteRecovery permit control health =>
    t.rearmAfterRouteRecovery net permit control health
  | .confirmApplied attested now => t.confirmApplied attested now
  | .applyFailed now => t.applyFailed now
  | .tick health => t.tick health
  | .confirmRestored attested now => t.confirmRestored attested now
  | .retryRestore now => (t, t.retryRestore now)
  | .release permitId jobId workerRunId =>
    match t.release permitId jobId workerRunId with
    | .ok t' => (t', .none)
    | .error _ => (t, .none)
  | .recoverAfterRestart instanceName permit control baseline now =>
    match recoverAfterRestart net instanceName permit control baseline now with
    | .ok answer => answer
    | .error _ => (t, .none)

section

variable (s : RuntimeOverrideSession) (control : AutotuneRuntimeControl)

def RuntimeOverrideSession.next : RuntimeOverrideSession :=
  { s with control, appliedAck := none }

def RuntimeOverrideSession.rearmed : RuntimeOverrideSession :=
  { s with
    control
    appliedAck := none
    restoreReason := none
    restoreStartedBootMs := none }

end

def RuntimeOverrideAction.Quiet : RuntimeOverrideAction → Prop
  | .none | .malformedControl => True
  | .publishAck ack => ack.state = .rejected
  | .apply _ | .restore .. => False

def RuntimeOverridePhase.Working (p : RuntimeOverridePhase) : Prop := p = .applying ∨ p = .applied

def RuntimeOverridePhase.Settling (p : RuntimeOverridePhase) : Prop :=
  p = .restoring ∨ p = .restored

/-- What an event does to a tracker, and the action that it asks for. -/
inductive Effect (net : AddressText) (t : RuntimeOverrideTracker) :
    OverrideEvent → RuntimeOverrideTracker → RuntimeOverrideAction → Prop where
  | stays {e : OverrideEvent} {a : RuntimeOverrideAction} (quiet : a.Quiet) : Effect net t e t a
  /-- The restoration under way is asked for again. -/
  | retries {now : ℕ} {baseline : RuntimeRestoreBaseline} {reason : RuntimeRestoreReason}
      {ack : AutotuneRuntimeAck} (phase : t.phase = .restoring) :
      Effect net t (.retryRestore now) t (.restore baseline reason ack)
  /-- The control at work is submitted again, and its acknowledgement is published again. -/
  | replays {permit : AutotuneRuntimePermit} {control : AutotuneRuntimeControl}
      {baseline : Option RuntimeRestoreBaseline} {now : ℕ} {s : RuntimeOverrideSession}
      {ack : AutotuneRuntimeAck}
      (authorised : permit.authorizes net t.instanceName control now = .ok ())
      (session : t.session = some s) (same : control = s.control)
      (held : s.appliedAck = some ack) :
      Effect net t (.submit permit control baseline now) t (.publishAck ack)
  | opens {permit : AutotuneRuntimePermit} {control : AutotuneRuntimeControl}
      {baseline : RuntimeRestoreBaseline} {now : ℕ} (phase : t.phase = .idle)
      (authorised : permit.authorizes net t.instanceName control now = .ok ()) :
      Effect net t (.submit permit control (some baseline) now)
        { t with
          phase := .applying
          session := some ⟨permit, baseline, control, none, none, none⟩ }
        (.apply control)
  | advances {control : AutotuneRuntimeControl} {baseline : Option RuntimeRestoreBaseline}
      {now : ℕ} {s : RuntimeOverrideSession} (phase : t.phase.Working)
      (session : t.session = some s)
      (authorised : s.permit.authorizes net t.instanceName control now = .ok ())
      (sequence : control.sequence = s.control.sequence + 1) :
      Effect net t (.submit s.permit control baseline now)
        { t with phase := .applying, session := some (s.next control) } (.apply control)
  /-- The control that a route drift interrupted is taken up again. -/
  | rearms {control : AutotuneRuntimeControl} {health : RuntimeRouteRearmHealth}
      {s : RuntimeOverrideSession} (phase : t.phase = .restored) (session : t.session = some s)
      (reason : s.restoreReason = some .routeDrift)
      (authorised : s.permit.authorizes net t.instanceName control health.currentBootMs = .ok ())
      (sequence : control.sequence = s.control.sequence + 1)
      (same : control = { s.control with sequence := control.sequence }) :
      Effect net t (.rearmAfterRouteRecovery s.permit control health)
        { t with phase := .applying, session := some (s.rearmed control) } (.apply control)
  | confirms {attested : RuntimeSnapshot} {now : ℕ} {s : RuntimeOverrideSession}
      (phase : t.phase = .applying) (session : t.session = some s)
      (attests : RuntimeOverrideTracker.attests attested s.control now = true) :
      Effect net t (.confirmApplied attested now)
        { t with
          phase := .applied
          session := some { s with appliedAck := some (appliedAck s.control now) } }
        (.publishAck (appliedAck s.control now))
  | interrupts {e : OverrideEvent} {reason : RuntimeRestoreReason} {now : ℕ}
      {s : RuntimeOverrideSession} {ack : AutotuneRuntimeAck} (phase : t.phase.Working)
      (event : e.isRestart = false) (session : t.session = some s) :
      Effect net t e { t with phase := .restoring, session := some (s.restoring reason now) }
        (.restore s.baseline reason ack)
  /-- The owner comes with another permit after the restoration has begun. -/
  | conflicts {permit : AutotuneRuntimePermit} {control : AutotuneRuntimeControl}
      {baseline : Option RuntimeRestoreBaseline} {now : ℕ} {s : RuntimeOverrideSession}
      {ack : AutotuneRuntimeAck} (phase : t.phase.Settling) (session : t.session = some s)
      (authorised : permit.authorizes net t.instanceName control now = .ok ())
      (owner : sameOwner s.permit permit.permitId permit.jobId permit.workerRunId = true)
      (other : s.permit ≠ permit) :
      Effect net t (.submit permit control baseline now)
        { t with phase := .restoring, session := some (s.restoring .sequenceConflict now) }
        (.restore s.baseline .sequenceConflict ack)
  | settles {now : ℕ} {s : RuntimeOverrideSession} {ack : AutotuneRuntimeAck}
      (phase : t.phase = .restoring) (session : t.session = some s)
      (state : ack.state = .restored) :
      Effect net t (.confirmRestored s.baseline now) { t with phase := .restored } (.publishAck ack)
  | releases {permitId jobId workerRunId : Text} (phase : t.phase = .restored)
      (session : t.session ≠ none) :
      Effect net t (.release permitId jobId workerRunId)
        { t with phase := .idle, session := none } .none
  | recovers {instanceName : Text} {permit : AutotuneRuntimePermit}
      {control : AutotuneRuntimeControl} {baseline : RuntimeRestoreBaseline} {now : ℕ}
      {ack : AutotuneRuntimeAck} :
      Effect net t (.recoverAfterRestart instanceName permit control baseline now)
        (RuntimeOverrideTracker.recovered instanceName permit control baseline now)
        (.restore baseline .instanceRestarted ack)

namespace Effect

variable {net : AddressText} {t : RuntimeOverrideTracker} {now : ℕ}

theorem rejects {e : OverrideEvent} {c : AutotuneRuntimeControl} {code : String} :
    Effect net t e (t.reject c now code).1 (t.reject c now code).2 := by
  apply Effect.stays
  simp [RuntimeOverrideTracker.reject, RuntimeOverrideAction.Quiet, rejectedAck]

variable {s : RuntimeOverrideSession} {permit : AutotuneRuntimePermit}
  {control : AutotuneRuntimeControl}

/-- `begin_restore` on a control at work. -/
theorem beginsRestore {e : OverrideEvent} {reason : RuntimeRestoreReason} (phase : t.phase.Working)
    (event : e.isRestart = false) (session : t.session = some s) :
    Effect net t e (t.beginRestore reason now).1 (t.beginRestore reason now).2 := by
  rw [RuntimeOverrideTracker.beginRestore, session]
  exact .interrupts phase event session

variable {baseline : Option RuntimeRestoreBaseline}

/-- `submit` on an idle tracker. -/
theorem of_submitIdle (phase : t.phase = .idle)
    (authorised : permit.authorizes net t.instanceName control now = .ok ()) :
    Effect net t (.submit permit control baseline now)
      (t.submitIdle net permit control baseline now).1
      (t.submitIdle net permit control baseline now).2 := by
  unfold RuntimeOverrideTracker.submitIdle
  split
  · exact rejects
  · split
    · exact rejects
    · exact .opens phase authorised

theorem saturatingNext_eq {n m : ℕ} (h : m = saturatingNext n) (hn : m ≠ n)
    (hm : m ≤ maxAutotuneEvidenceRecords) : m = n + 1 := by
  unfold saturatingNext at h
  unfold maxAutotuneEvidenceRecords at hm
  omega

/-- `submit` on a tracker with a session. -/
theorem of_submitOwned (phase : t.phase ≠ .idle) (session : t.session = some s)
    (authorised : permit.authorizes net t.instanceName control now = .ok ()) :
    Effect net t (.submit permit control baseline now)
      (t.submitOwned s permit control now).1 (t.submitOwned s permit control now).2 := by
  have hphase : t.phase.Working ∨ t.phase.Settling := by
    revert phase
    unfold RuntimeOverridePhase.Working RuntimeOverridePhase.Settling
    cases t.phase <;> simp
  unfold RuntimeOverrideTracker.submitOwned
  split
  · exact rejects
  rename_i howner
  split
  · rename_i hother
    obtain hwork | hsettle := hphase
    · exact beginsRestore hwork rfl session
    · rw [RuntimeOverrideTracker.beginRestore, session]
      exact .conflicts hsettle session authorised (by simpa using howner) hother
  rename_i hpermit
  obtain rfl : s.permit = permit := not_not.1 hpermit
  split
  · exact rejects
  rename_i hsettle
  have hwork : t.phase.Working := hphase.resolve_right hsettle
  split
  · split
    · exact beginsRestore hwork rfl session
    · rename_i hsame
      obtain rfl : control = s.control := not_not.1 hsame
      cases hack : s.appliedAck with
      | none => exact .stays trivial
      | some ack => exact .replays authorised session rfl hack
  · rename_i hne
    split
    · exact beginsRestore hwork rfl session
    · rename_i hnext
      have hseq := saturatingNext_eq (not_not.1 hnext) hne
        (AutotuneRuntimePermit.authorizes_sequence authorised).2
      exact .advances hwork session authorised hseq

/-- `submit`. -/
theorem of_submit (permit : AutotuneRuntimePermit) (control : AutotuneRuntimeControl)
    (baseline : Option RuntimeRestoreBaseline) (now : ℕ) :
    Effect net t (.submit permit control baseline now) (t.submit net permit control baseline now).1
      (t.submit net permit control baseline now).2 := by
  unfold RuntimeOverrideTracker.submit
  split
  · exact .stays trivial
  split
  · exact rejects
  rename_i authorised
  split
  · rename_i phase
    exact of_submitIdle phase authorised
  · rename_i phase
    split
    · exact rejects
    · rename_i s session
      exact of_submitOwned phase session authorised

/-- `rearm_after_route_recovery` on a tracker with a session. -/
theorem of_rearmOwned {health : RuntimeRouteRearmHealth} (session : t.session = some s)
    (authorised : permit.authorizes net t.instanceName control health.currentBootMs = .ok ()) :
    Effect net t (.rearmAfterRouteRecovery permit control health)
      (t.rearmOwned s permit control health).1 (t.rearmOwned s permit control health).2 := by
  unfold RuntimeOverrideTracker.rearmOwned
  split
  · exact rejects
  rename_i heligible
  obtain ⟨hphase, hreason⟩ := not_or.1 heligible
  split
  · exact rejects
  split
  · exact rejects
  rename_i hpermit
  obtain rfl : s.permit = permit := not_not.1 hpermit
  split
  · exact rejects
  rename_i hnext
  split
  · exact rejects
  rename_i hsame
  split
  · exact rejects
  split
  · exact .stays trivial
  · have hseq : control.sequence = s.control.sequence + 1 := by
      have h := not_not.1 hnext
      unfold checkedNext at h
      split at h
      · exact (Option.some.inj h).symm
      · cases h
    exact .rearms (not_not.1 hphase) session (not_not.1 hreason) authorised hseq
      (not_not.1 hsame).symm

/-- `rearm_after_route_recovery`. -/
theorem of_rearm (permit : AutotuneRuntimePermit) (control : AutotuneRuntimeControl)
    (health : RuntimeRouteRearmHealth) :
    Effect net t (.rearmAfterRouteRecovery permit control health)
      (t.rearmAfterRouteRecovery net permit control health).1
      (t.rearmAfterRouteRecovery net permit control health).2 := by
  unfold RuntimeOverrideTracker.rearmAfterRouteRecovery
  split
  · exact .stays trivial
  split
  · exact rejects
  rename_i authorised
  split
  · exact rejects
  · rename_i s session
    exact of_rearmOwned session authorised

/-- `confirm_applied`. -/
theorem of_confirmApplied (attested : RuntimeSnapshot) (now : ℕ) :
    Effect net t (.confirmApplied attested now) (t.confirmApplied attested now).1
      (t.confirmApplied attested now).2 := by
  unfold RuntimeOverrideTracker.confirmApplied
  split
  · exact .stays trivial
  rename_i hphase
  have phase : t.phase = .applying := not_not.1 hphase
  split
  · exact .stays trivial
  rename_i s session
  split
  · exact beginsRestore (.inl phase) rfl session
  · rename_i hattests
    exact .confirms phase session (by simpa using hattests)

/-- `tick`. -/
theorem of_tick (health : RuntimeOverrideHealth) :
    Effect net t (.tick health) (t.tick health).1 (t.tick health).2 := by
  unfold RuntimeOverrideTracker.tick
  split
  · exact .stays trivial
  rename_i phase
  split
  · exact .stays trivial
  rename_i s session
  split
  · exact beginsRestore (not_not.1 phase) rfl session
  · exact .stays trivial

/-- `confirm_restored`. -/
theorem of_confirmRestored (attested : RuntimeRestoreBaseline) (now : ℕ) :
    Effect net t (.confirmRestored attested now) (t.confirmRestored attested now).1
      (t.confirmRestored attested now).2 := by
  unfold RuntimeOverrideTracker.confirmRestored
  split
  · exact .stays trivial
  rename_i phase
  split
  · exact .stays trivial
  rename_i s session
  split
  · exact .stays trivial
  · rename_i hattested
    obtain ⟨-, hbaseline, -⟩ := (not_or.trans (and_congr_right fun _ => not_or)).1 hattested
    obtain rfl : attested = s.baseline := not_not.1 hbaseline
    exact .settles (not_not.1 phase) session rfl

/-- `retry_restore`. -/
theorem of_retryRestore (now : ℕ) : Effect net t (.retryRestore now) t (t.retryRestore now) := by
  unfold RuntimeOverrideTracker.retryRestore
  split
  · exact .stays trivial
  rename_i phase
  split
  · exact .stays trivial
  split
  · exact .stays trivial
  · exact .retries (not_not.1 phase)

/-- `release` lets go of a restored session only. -/
theorem release_eq_ok {t' : RuntimeOverrideTracker} {permitId jobId workerRunId : Text}
    (h : t.release permitId jobId workerRunId = .ok t') :
    t.phase = .restored ∧ (∃ s, t.session = some s) ∧
      t' = { t with phase := .idle, session := none } := by
  simp only [RuntimeOverrideTracker.release, bind_ok, exists_unit, check_ok,
    orError_eq_ok, pure, Except.pure, Except.ok.injEq] at h
  obtain ⟨hphase, s, hs, -, rfl⟩ := h
  exact ⟨by simpa using hphase, ⟨s, hs⟩, rfl⟩

/-- `recover_after_restart` makes a tracker that restores. -/
theorem recover_eq_ok {instanceName : Text} {baseline : RuntimeRestoreBaseline}
    {answer : RuntimeOverrideTracker × RuntimeOverrideAction}
    (h : RuntimeOverrideTracker.recoverAfterRestart net instanceName permit control baseline now =
      .ok answer) :
    answer = (.recovered instanceName permit control baseline now,
      .restore baseline .instanceRestarted (restorationAck control (max now 1) .restoring)) := by
  simp only [RuntimeOverrideTracker.recoverAfterRestart, bind_ok, exists_unit, pure,
    Except.pure, Except.ok.injEq] at h
  obtain ⟨-, -, -, -, rfl⟩ := h
  rfl

end Effect

/-- **Every event has one of the effects.** -/
theorem RuntimeOverrideTracker.act_effect (net : AddressText) (t : RuntimeOverrideTracker)
    (e : OverrideEvent) : Effect net t e (t.act net e).1 (t.act net e).2 := by
  cases e with
  | submit permit control baseline now => exact .of_submit permit control baseline now
  | rearmAfterRouteRecovery permit control health => exact .of_rearm permit control health
  | confirmApplied attested now => exact .of_confirmApplied attested now
  | applyFailed now =>
    show Effect net t _ (t.applyFailed now).1 (t.applyFailed now).2
    unfold RuntimeOverrideTracker.applyFailed
    split
    · rename_i phase
      cases session : t.session with
      | none =>
        rw [RuntimeOverrideTracker.beginRestore, session]
        exact .stays trivial
      | some s => exact .beginsRestore phase rfl session
    · exact .stays trivial
  | tick health => exact .of_tick health
  | confirmRestored attested now => exact .of_confirmRestored attested now
  | retryRestore now => exact .of_retryRestore now
  | release permitId jobId workerRunId =>
    simp only [RuntimeOverrideTracker.act]
    split
    · rename_i t' h
      obtain ⟨phase, ⟨s, session⟩, rfl⟩ := Effect.release_eq_ok h
      exact .releases phase (by simp [session])
    · exact .stays trivial
  | recoverAfterRestart instanceName permit control baseline now =>
    simp only [RuntimeOverrideTracker.act]
    split
    · rename_i answer h
      rw [Effect.recover_eq_ok h]
      exact .recovers
    · exact .stays trivial

end CakeAutorate.Override
