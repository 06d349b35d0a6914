/-
# Ownership of a runtime override

The phases move as they should exactly when nothing is submitted, on a restored tracker, by its
owner with another permit: `submit` compares the permits before it looks at the phase, so such a
submission takes a restored tracker back to its restoration.
-/

import CakeAutorate.Machine.Run
import CakeAutorate.Override.Tracker
import CakeAutorate.Protocol.RoundTrip

namespace CakeAutorate.Override

open Wire Protocol Journal Machine RuntimeOverrideTracker Option List

/-- A tracker and what was seen of its present session: the last control that it handed
out, the attestation that confirmed this control and its time, and the baseline that was
attested since. -/
structure History where
  tracker : RuntimeOverrideTracker
  lastApply : Option AutotuneRuntimeControl
  attested : Option (RuntimeSnapshot × ℕ)
  restored : Option RuntimeRestoreBaseline

namespace History

def start (instanceName : Text) : History where
  tracker := .idle instanceName
  lastApply := none
  attested := none
  restored := none

def renewed (e : OverrideEvent) (t : RuntimeOverrideTracker) : RuntimeOverrideAction → Bool
  | .restore .. => e.isRestart || t.phase == .idle
  | _ => t.phase == .idle

def carried (h : History) (e : OverrideEvent) (t : RuntimeOverrideTracker)
    (a : RuntimeOverrideAction) : History :=
  if renewed e t a then ⟨t, none, none, none⟩ else { h with tracker := t }

def observe (h : History) (e : OverrideEvent) (t : RuntimeOverrideTracker)
    (a : RuntimeOverrideAction) : History :=
  match a with
  | .apply control => ⟨t, some control, none, none⟩
  | .restore .. => { h.carried e t a with restored := none }
  | .publishAck ack =>
    match e, ack.state with
    | .confirmApplied snapshot now, .applied =>
      { h.carried e t a with attested := some (snapshot, now) }
    | .confirmRestored baseline _, .restored =>
      { h.carried e t a with restored := some baseline }
    | _, _ => h.carried e t a
  | _ => h.carried e t a

def step (net : AddressText) (h : History) (e : OverrideEvent) : History :=
  h.observe e (h.tracker.act net e).1 (h.tracker.act net e).2

end History

/-- The moves of the phase. -/
inductive PhaseMove : RuntimeOverridePhase → RuntimeOverridePhase → Prop where
  | opens : PhaseMove .idle .applying
  | confirms : PhaseMove .applying .applied
  | advances : PhaseMove .applied .applying
  | interruptsApplying : PhaseMove .applying .restoring
  | interruptsApplied : PhaseMove .applied .restoring
  | settles : PhaseMove .restoring .restored
  | releases : PhaseMove .restored .idle
  | rearms : PhaseMove .restored .applying

def SessionPresent (t : RuntimeOverrideTracker) : Prop := t.session ≠ none ↔ t.phase ≠ .idle

def TakesUp (control interrupted : AutotuneRuntimeControl) : Prop :=
  control = { interrupted with sequence := control.sequence }

def RearmsLast (h : History) (e : OverrideEvent) : Prop :=
  ∃ permit control health interrupted,
    e = .rearmAfterRouteRecovery permit control health ∧
      h.lastApply = some interrupted ∧ TakesUp control interrupted

def IsRelease (e : OverrideEvent) : Prop :=
  ∃ permitId jobId workerRunId, e = .release permitId jobId workerRunId

/-- An applied acknowledgement is for the control handed out last, which was attested
before its deadline, and it is published before this deadline. -/
def AckOfLast (h : History) (e : OverrideEvent) (ack : AutotuneRuntimeAck) : Prop :=
  ∃ control snapshot attestedAt now,
    h.lastApply = some control ∧ h.attested = some (snapshot, attestedAt) ∧
      ack = appliedAck control attestedAt ∧ snapshot.validate = .ok () ∧
      snapshot.matchesControl control = true ∧ attestedAt ≠ 0 ∧
      attestedAt < control.deadlineBootMs ∧ e.now = some now ∧ now < control.deadlineBootMs

/-- An event on a tracker with a history leads to a tracker `t` and an action `a` as the
owner of an override may rely on. -/
structure Sound (net : AddressText) (h : History) (e : OverrideEvent) (t : RuntimeOverrideTracker)
    (a : RuntimeOverrideAction) : Prop where
  present : SessionPresent h.tracker ∧ SessionPresent t
  owner : e.isRestart = false → ∀ s s', h.tracker.session = some s → t.session = some s' →
    s'.permit = s.permit ∧ s'.baseline = s.baseline
  authorised : ∀ control, a = .apply control → ∃ s now, t.session = some s ∧
    s.control = control ∧ e.now = some now ∧
      s.permit.authorizes net t.instanceName control now = .ok ()
  consecutive : ∀ control last, a = .apply control → h.lastApply = some last →
    control.sequence = last.sequence + 1
  acknowledged : ∀ ack, a = .publishAck ack → ack.state = .applied →
    AckOfLast (h.observe e t a) e ack
  moves : e.isRestart = false → t.phase = h.tracker.phase ∨ PhaseMove h.tracker.phase t.phase
  rearmed : e.isRestart = false → h.tracker.phase = .restored → t.phase = .applying → RearmsLast h e
  kept : e.isRestart = false → h.tracker.phase = .restored → t.phase ≠ .restored →
    IsRelease e ∨ RearmsLast h e
  released : ∀ permitId jobId workerRunId t', e = .release permitId jobId workerRunId →
    h.tracker.release permitId jobId workerRunId = .ok t' →
      ∃ s, h.tracker.session = some s ∧ h.restored = some s.baseline

def Conflict (net : AddressText) (t : RuntimeOverrideTracker) : OverrideEvent → Prop
  | .submit permit control _ now =>
    t.phase = .restored ∧ permit.authorizes net t.instanceName control now = .ok () ∧
      ∃ s, t.session = some s ∧
        sameOwner s.permit permit.permitId permit.jobId permit.workerRunId = true ∧
        s.permit ≠ permit
  | _ => False

/-- What was written down agrees with what the tracker holds. -/
structure Consistent (h : History) : Prop where
  present : SessionPresent h.tracker
  idle : h.tracker.phase = .idle → h.lastApply = none ∧ h.attested = none ∧ h.restored = none
  last : ∀ s, h.tracker.session = some s → ∀ control, h.lastApply = some control →
    control = s.control
  working : ∀ s, h.tracker.session = some s →
    h.tracker.phase.Working ∨ s.restoreReason = some .routeDrift → h.lastApply = some s.control
  acked : ∀ s ack, h.tracker.session = some s → s.appliedAck = some ack →
    h.lastApply = some s.control ∧ ∃ snapshot attestedAt,
      h.attested = some (snapshot, attestedAt) ∧ ack = appliedAck s.control attestedAt ∧
        attests snapshot s.control attestedAt = true
  restored : h.tracker.phase = .restored → ∀ s, h.tracker.session = some s →
    h.restored = some s.baseline

/-- What `confirm_applied` checks. -/
theorem attests_iff {snapshot : RuntimeSnapshot} {control : AutotuneRuntimeControl} {now : ℕ} :
    attests snapshot control now = true ↔
      now ≠ 0 ∧ now < control.deadlineBootMs ∧ snapshot.validate = .ok () ∧
        snapshot.matchesControl control = true := by
  have hok : snapshot.validate.isOk = true ↔ snapshot.validate = .ok () := by
    cases snapshot.validate with
    | error _ => simp [Except.isOk, Except.toBool]
    | ok _ => simp [Except.isOk, Except.toBool]
  simp only [attests, Bool.not_eq_true', Bool.or_eq_false_iff,
    beq_eq_false_iff_ne, decide_eq_false_iff_not, Bool.not_eq_false', not_le, hok, ge_iff_le,
    and_assoc, ne_eq]

namespace Consistent

variable {net : AddressText} {h : History} {e : OverrideEvent} {t : RuntimeOverrideTracker}
  {a : RuntimeOverrideAction}

theorem start (instanceName : Text) : Consistent (.start instanceName) where
  present := by simp [SessionPresent, History.start, RuntimeOverrideTracker.idle]
  idle := fun _ => ⟨rfl, rfl, rfl⟩
  last := by intro s hs; cases hs
  working := by intro s hs; cases hs
  acked := by intro s ack hs; cases hs
  restored := by intro hphase; cases hphase

theorem observe_quiet (hc : Consistent h) (quiet : a.Quiet) : h.observe e h.tracker a = h := by
  have hcarried : (∀ b r k, a ≠ .restore b r k) → h.carried e h.tracker a = h := by
    intro hne
    have hrenewed : History.renewed e h.tracker a = (h.tracker.phase == .idle) := by
      cases a with
      | restore b r k => exact absurd rfl (hne b r k)
      | none | malformedControl | apply _ | publishAck _ => rfl
    unfold History.carried
    rw [hrenewed]
    split
    · rename_i hidle
      obtain ⟨h₁, h₂, h₃⟩ := hc.idle (by simpa using hidle)
      obtain ⟨tracker, lastApply, attested, restored⟩ := h
      subst h₁ h₂ h₃
      rfl
    · rfl
  cases a with
  | none => exact hcarried (by intros; nofun)
  | malformedControl => exact hcarried (by intros; nofun)
  | apply control => exact absurd quiet id
  | restore b r k => exact absurd quiet id
  | publishAck ack =>
    have hstate : ack.state = .rejected := quiet
    unfold History.observe
    simp only [hstate]
    exact hcarried (by intros; nofun)

variable {control : AutotuneRuntimeControl} {s : RuntimeOverrideSession} {ack : AutotuneRuntimeAck}

theorem of_apply (hphase : t.phase = .applying) (hs : t.session = some s)
    (hcontrol : s.control = control) (hack : s.appliedAck = none) :
    Consistent (h.observe e t (.apply control)) where
  present := by simp [SessionPresent, History.observe, hphase, hs]
  idle := by simp [History.observe, hphase]
  last := by
    intro s' hs' c hc
    obtain rfl : s = s' := some.inj (hs.symm.trans hs')
    exact (some.inj hc).symm.trans hcontrol.symm
  working := by
    intro s' hs' _
    obtain rfl : s = s' := some.inj (hs.symm.trans hs')
    rw [hcontrol]
    rfl
  acked := by
    intro s' ack hs' hack'
    obtain rfl : s = s' := some.inj (hs.symm.trans hs')
    rw [hack] at hack'
    cases hack'
  restored := by simp [History.observe, hphase]

variable {now : ℕ}

theorem of_restoring {reason : RuntimeRestoreReason} (hc : Consistent h)
    (hs : h.tracker.session = some s) (hevent : e.isRestart = false)
    (hreason : reason = .routeDrift → h.tracker.phase.Working) :
    Consistent (h.observe e
      { h.tracker with phase := .restoring, session := some (s.restoring reason now) }
      (.restore s.baseline reason ack)) := by
  have hobserve : h.observe e
      { h.tracker with phase := .restoring, session := some (s.restoring reason now) }
      (.restore s.baseline reason ack) =
      ⟨{ h.tracker with phase := .restoring, session := some (s.restoring reason now) },
        h.lastApply, h.attested, none⟩ := by
    simp [History.observe, History.carried, History.renewed, hevent]
  rw [hobserve]
  refine { present := ?_, idle := ?_, last := ?_, working := ?_, acked := ?_, restored := ?_ }
  · simp [SessionPresent]
  · intro hphase
    cases hphase
  · intro s' hs' control hcontrol
    cases hs'
    exact hc.last s hs control hcontrol
  · intro s' hs' hwork
    cases hs'
    obtain hwork | hdrift := hwork
    · obtain hwork | hwork := hwork <;> cases hwork
    · exact hc.working s hs (.inl (hreason (some.inj hdrift)))
  · intro s' ack' hs' hack
    cases hs'
    exact hc.acked s ack' hs hack
  · intro hphase
    cases hphase

variable {permit : AutotuneRuntimePermit}

theorem observe_replay {baseline : Option RuntimeRestoreBaseline} (hc : Consistent h)
    (hs : h.tracker.session = some s) :
    h.observe (.submit permit control baseline now) h.tracker (.publishAck ack) = h := by
  have hphase : h.tracker.phase ≠ .idle := hc.present.1 (by simp [hs])
  simp [History.observe, History.carried, History.renewed, hphase]

theorem of_confirm {snapshot : RuntimeSnapshot} (hc : Consistent h)
    (hphase : h.tracker.phase = .applying) (hs : h.tracker.session = some s)
    (hattests : attests snapshot s.control now = true) :
    Consistent (h.observe (.confirmApplied snapshot now)
      { h.tracker with
        phase := .applied
        session := some { s with appliedAck := some (appliedAck s.control now) } }
      (.publishAck (appliedAck s.control now))) := by
  have hlast : h.lastApply = some s.control := hc.working s hs (.inl (.inl hphase))
  refine { present := ?_, idle := ?_, last := ?_, working := ?_, acked := ?_, restored := ?_ }
  · simp [SessionPresent, History.observe, History.carried, History.renewed, appliedAck]
  · intro hidle
    simp [History.observe, History.carried, History.renewed, appliedAck] at hidle
  · intro s' hs' control hcontrol
    cases hs'
    exact some.inj (hcontrol.symm.trans hlast)
  · intro s' hs' _
    cases hs'
    exact hlast
  · intro s' ack hs' hack
    cases hs'
    cases hack
    exact ⟨hlast, snapshot, now, rfl, rfl, hattests⟩
  · intro hrestored
    simp [History.observe, History.carried, History.renewed, appliedAck] at hrestored

theorem of_settle (hc : Consistent h) (hs : h.tracker.session = some s)
    (hstate : ack.state = .restored) :
    Consistent (h.observe (.confirmRestored s.baseline now) { h.tracker with phase := .restored }
      (.publishAck ack)) := by
  have hobserve : h.observe (.confirmRestored s.baseline now)
      { h.tracker with phase := .restored } (.publishAck ack) =
      ⟨{ h.tracker with phase := .restored }, h.lastApply, h.attested, some s.baseline⟩ := by
    simp [History.observe, History.carried, History.renewed, hstate]
  rw [hobserve]
  refine {
    present := ?_, idle := ?_, last := hc.last, working := ?_, acked := hc.acked, restored := ?_ }
  · simp [SessionPresent, hs]
  · intro hidle
    cases hidle
  · intro s' hs' hwork
    obtain hwork | hdrift := hwork
    · obtain hwork | hwork := hwork <;> cases hwork
    · exact hc.working s' hs' (.inr hdrift)
  · intro _ s' hs'
    obtain rfl : s = s' := some.inj (hs.symm.trans hs')
    rfl

theorem of_recover {instanceName : Text} {baseline : RuntimeRestoreBaseline} :
    Consistent (h.observe (.recoverAfterRestart instanceName permit control baseline now)
      (.recovered instanceName permit control baseline now)
      (.restore baseline .instanceRestarted ack)) := by
  have hobserve : h.observe (.recoverAfterRestart instanceName permit control baseline now)
      (.recovered instanceName permit control baseline now)
      (.restore baseline .instanceRestarted ack) =
      ⟨.recovered instanceName permit control baseline now, none, none, none⟩ := rfl
  rw [hobserve]
  refine { present := ?_, idle := ?_, last := ?_, working := ?_, acked := ?_, restored := ?_ }
  · simp [SessionPresent, recovered]
  · intro hidle
    cases hidle
  · intro s hs c hcontrol
    cases hcontrol
  · intro s hs hwork
    cases hs
    obtain (hwork | hwork) | hdrift := hwork
    · cases hwork
    · cases hwork
    · cases hdrift
  · intro s k hs hack
    cases hs
    cases hack
  · intro hrestored
    cases hrestored

/-- **The invariant is kept by every effect.** -/
theorem observe (hc : Consistent h) (heffect : Effect net h.tracker e t a) :
    Consistent (h.observe e t a) := by
  cases heffect with
  | stays quiet => rwa [hc.observe_quiet quiet]
  | @retries now baseline reason ack phase =>
    have hobserve : h.observe (.retryRestore now) h.tracker (.restore baseline reason ack) =
        { h with restored := none } := by
      simp [History.observe, History.carried, History.renewed, OverrideEvent.isRestart, phase]
    rw [hobserve]
    exact
      { present := hc.present
        idle := fun hidle => by simp [phase] at hidle
        last := hc.last
        working := hc.working
        acked := hc.acked
        restored := fun hrestored => by simp [phase] at hrestored }
  | replays authorised session same held => rwa [hc.observe_replay session]
  | confirms phase session attests => exact hc.of_confirm phase session attests
  | interrupts phase event session => exact hc.of_restoring session event fun _ => phase
  | conflicts phase session authorised owner other =>
    exact hc.of_restoring session rfl (by intro h; cases h)
  | settles phase session state => exact hc.of_settle session state
  | releases phase session =>
    exact
      { present := by simp [SessionPresent, History.observe, History.carried, History.renewed]
        idle := fun _ => by simp [History.observe, History.carried, History.renewed]
        last := by intro s hs; simp [History.observe, History.carried, History.renewed] at hs
        working := by intro s hs; simp [History.observe, History.carried, History.renewed] at hs
        acked := by intro s k hs; simp [History.observe, History.carried, History.renewed] at hs
        restored := by
          intro hphase
          simp [History.observe, History.carried, History.renewed] at hphase }
  | recovers => exact of_recover
  | _ => exact of_apply rfl rfl rfl rfl

end Consistent

namespace Effect

variable {net : AddressText} {h : History} {e : OverrideEvent} {t : RuntimeOverrideTracker}
  {a : RuntimeOverrideAction}

theorem observe_tracker : (h.observe e t a).tracker = t := by
  have hcarried : (h.carried e t a).tracker = t := by
    unfold History.carried
    split <;> rfl
  unfold History.observe
  split
  · rfl
  · exact hcarried
  · split <;> exact hcarried
  · exact hcarried

theorem owner_kept (heffect : Effect net h.tracker e t a) (hevent : e.isRestart = false)
    {s s' : RuntimeOverrideSession} (hs : h.tracker.session = some s) (hs' : t.session = some s')
    (hc : Consistent h) : s'.permit = s.permit ∧ s'.baseline = s.baseline := by
  have hsame : ∀ {r r' : RuntimeOverrideSession}, h.tracker.session = some r →
      t.session = some r' → r'.permit = r.permit ∧ r'.baseline = r.baseline →
      s'.permit = s.permit ∧ s'.baseline = s.baseline := by
    intro r r' hr hr' hkept
    obtain rfl : r = s := some.inj (hr.symm.trans hs)
    obtain rfl : r' = s' := some.inj (hr'.symm.trans hs')
    exact hkept
  cases heffect with
  | stays quiet => exact hsame hs hs ⟨rfl, rfl⟩
  | retries phase => exact hsame hs hs ⟨rfl, rfl⟩
  | replays authorised session same held => exact hsame hs hs ⟨rfl, rfl⟩
  | opens phase authorised => exact absurd phase (hc.present.1 (by simp [hs]))
  | advances phase session authorised sequence => exact hsame session rfl ⟨rfl, rfl⟩
  | rearms phase session reason authorised sequence same => exact hsame session rfl ⟨rfl, rfl⟩
  | confirms phase session attests => exact hsame session rfl ⟨rfl, rfl⟩
  | interrupts phase event session => exact hsame session rfl ⟨rfl, rfl⟩
  | conflicts phase session authorised owner other => exact hsame session rfl ⟨rfl, rfl⟩
  | settles phase session state => exact hsame hs hs ⟨rfl, rfl⟩
  | releases phase session => cases hs'
  | recovers => cases hevent

theorem apply_authorised {control : AutotuneRuntimeControl}
    (heffect : Effect net h.tracker e t (.apply control)) :
    ∃ s now, t.session = some s ∧ s.control = control ∧ e.now = some now ∧
      s.permit.authorizes net t.instanceName control now = .ok () := by
  cases heffect with
  | stays quiet => exact absurd quiet id
  | opens phase authorised => exact ⟨_, _, rfl, rfl, rfl, authorised⟩
  | advances phase session authorised sequence => exact ⟨_, _, rfl, rfl, rfl, authorised⟩
  | rearms phase session reason authorised sequence same =>
    exact ⟨_, _, rfl, rfl, rfl, authorised⟩

theorem apply_consecutive {control last : AutotuneRuntimeControl}
    (heffect : Effect net h.tracker e t (.apply control)) (hc : Consistent h)
    (hlast : h.lastApply = some last) : control.sequence = last.sequence + 1 := by
  cases heffect with
  | stays quiet => exact absurd quiet id
  | opens phase authorised =>
    rw [(hc.idle phase).1] at hlast
    cases hlast
  | advances phase session authorised sequence => rw [hc.last _ session last hlast, sequence]
  | rearms phase session reason authorised sequence same =>
    rw [hc.last _ session last hlast, sequence]

theorem ack_of_last {ack : AutotuneRuntimeAck}
    (heffect : Effect net h.tracker e t (.publishAck ack)) (hc : Consistent h)
    (hstate : ack.state = .applied) : AckOfLast (h.observe e t (.publishAck ack)) e ack := by
  cases heffect with
  | stays quiet => cases hstate.symm.trans quiet
  | settles phase session state => cases hstate.symm.trans state
  | replays authorised session same held =>
    rw [hc.observe_replay session]
    obtain ⟨hlast, snapshot, attestedAt, hattested, hack, hattests⟩ := hc.acked _ _ session held
    obtain ⟨h₀, h₁, hvalid, hmatches⟩ := attests_iff.1 hattests
    subst same
    exact ⟨_, snapshot, attestedAt, _, hlast, hattested, hack, hvalid, hmatches, h₀, h₁, rfl,
      (AutotuneRuntimePermit.authorizes_deadline authorised).2⟩
  | confirms phase session attests =>
    obtain ⟨h₀, h₁, hvalid, hmatches⟩ := attests_iff.1 attests
    have hlast := hc.working _ session (.inl (.inl phase))
    exact ⟨_, _, _, _, hlast, rfl, rfl, hvalid, hmatches, h₀, h₁, rfl, h₁⟩

theorem move_of_working {p : RuntimeOverridePhase} (hp : p.Working) : PhaseMove p .restoring := by
  obtain rfl | rfl := hp
  · exact .interruptsApplying
  · exact .interruptsApplied

section

variable (heffect : Effect net h.tracker e t a)
include heffect

theorem phase_moves (hevent : e.isRestart = false) (hconflict : ¬ Conflict net h.tracker e) :
    t.phase = h.tracker.phase ∨ PhaseMove h.tracker.phase t.phase := by
  cases heffect with
  | opens phase authorised =>
    rw [phase]
    exact .inr .opens
  | advances phase session authorised sequence =>
    obtain phase | phase := phase
    · exact .inl phase.symm
    · rw [phase]
      exact .inr .advances
  | rearms phase session reason authorised sequence same =>
    rw [phase]
    exact .inr .rearms
  | confirms phase session attests =>
    rw [phase]
    exact .inr .confirms
  | interrupts phase event session => exact .inr (move_of_working phase)
  | conflicts phase session authorised owner other =>
    obtain phase | phase := phase
    · exact .inl phase.symm
    · exact absurd ⟨phase, authorised, _, session, owner, other⟩ hconflict
  | settles phase session state =>
    rw [phase]
    exact .inr .settles
  | releases phase session =>
    rw [phase]
    exact .inr .releases
  | recovers => cases hevent
  | _ => exact .inl rfl

theorem restored_left (hc : Consistent h) (hevent : e.isRestart = false)
    (hrestored : h.tracker.phase = .restored) (hleft : t.phase ≠ .restored) :
    Conflict net h.tracker e ∨ (IsRelease e ∧ t.phase = .idle) ∨ RearmsLast h e := by
  cases heffect with
  | opens phase authorised => cases phase.symm.trans hrestored
  | advances phase session authorised sequence =>
    obtain phase | phase := phase <;> cases phase.symm.trans hrestored
  | rearms phase session reason authorised sequence same =>
    exact .inr (.inr ⟨_, _, _, _, rfl, hc.working _ session (.inr reason), same⟩)
  | confirms phase session attests => cases phase.symm.trans hrestored
  | interrupts phase event session =>
    obtain phase | phase := phase <;> cases phase.symm.trans hrestored
  | conflicts phase session authorised owner other =>
    exact .inl ⟨hrestored, authorised, _, session, owner, other⟩
  | settles phase session state => exact absurd rfl hleft
  | releases phase session => exact .inr (.inl ⟨⟨_, _, _, rfl⟩, rfl⟩)
  | recovers => cases hevent
  | _ => exact absurd hrestored hleft

/-- **A step without a conflict is sound.** -/
theorem sound (hc : Consistent h) (hconflict : ¬ Conflict net h.tracker e) : Sound net h e t a where
  present := by
    have hafter := (hc.observe heffect).present
    rw [observe_tracker] at hafter
    exact ⟨hc.present, hafter⟩
  owner := fun hevent _ _ hs hs' => heffect.owner_kept hevent hs hs' hc
  authorised := by
    rintro control rfl
    exact heffect.apply_authorised
  consecutive := by
    rintro control last rfl hlast
    exact heffect.apply_consecutive hc hlast
  acknowledged := by
    rintro ack rfl hstate
    exact heffect.ack_of_last hc hstate
  moves := fun hevent => heffect.phase_moves hevent hconflict
  rearmed := by
    intro hevent hrestored hphase
    have hleft : t.phase ≠ .restored := by simp [hphase]
    obtain h | ⟨-, hidle⟩ | h := heffect.restored_left hc hevent hrestored hleft
    · exact absurd h hconflict
    · cases hidle.symm.trans hphase
    · exact h
  kept := by
    intro hevent hrestored hleft
    obtain h | ⟨h, -⟩ | h := heffect.restored_left hc hevent hrestored hleft
    · exact absurd h hconflict
    · exact .inl h
    · exact .inr h
  released := by
    rintro permitId jobId workerRunId t' - hrelease
    obtain ⟨hphase, ⟨s, hs⟩, -⟩ := release_eq_ok hrelease
    exact ⟨s, hs, hc.restored hphase s hs⟩

end

end Effect

variable {net : AddressText} {e : OverrideEvent} {h : History}

theorem AutotuneRuntimePermit.authorizes_validate {p : AutotuneRuntimePermit} {instanceName : Text}
    {c : AutotuneRuntimeControl} {now : ℕ} (h : p.authorizes net instanceName c now = .ok ()) :
    c.validate = .ok () := by
  simp only [authorizes, authorizesIdentity, bind_ok, exists_unit] at h
  exact h.1.2.1

/-- **A conflict takes a restored tracker back to its restoration.** -/
theorem act_of_conflict {t : RuntimeOverrideTracker} (h : Conflict net t e) :
    t.phase = .restored ∧ (t.act net e).1.phase = .restoring := by
  cases e with
  | submit permit control baseline now =>
    obtain ⟨hphase, hauth, s, hs, howner, hother⟩ := h
    refine ⟨hphase, ?_⟩
    have hvalid := AutotuneRuntimePermit.authorizes_validate hauth
    simp [act, submit, hvalid, hauth, hphase, hs, submitOwned, howner, hother, beginRestore]
  | rearmAfterRouteRecovery _ _ _ => exact absurd h id
  | confirmApplied _ _ => exact absurd h id
  | applyFailed _ => exact absurd h id
  | tick _ => exact absurd h id
  | confirmRestored _ _ => exact absurd h id
  | retryRestore _ => exact absurd h id
  | release _ _ _ => exact absurd h id
  | recoverAfterRestart _ _ _ _ _ => exact absurd h id

theorem step_tracker : (h.step net e).tracker = (h.tracker.act net e).1 := Effect.observe_tracker

def SoundStep (net : AddressText) (h : History) (e : OverrideEvent) : Prop :=
  Sound net h e (h.tracker.act net e).1 (h.tracker.act net e).2

theorem soundStep_iff (hc : Consistent h) : SoundStep net h e ↔ ¬ Conflict net h.tracker e := by
  constructor
  · intro hsound hconflict
    obtain ⟨hbefore, hafter⟩ := act_of_conflict hconflict
    have hevent : e.isRestart = false := by
      cases e with
      | recoverAfterRestart _ _ _ _ _ => exact absurd hconflict id
      | _ => rfl
    obtain hsame | hmove := hsound.moves hevent
    · rw [hbefore, hafter] at hsame
      cases hsame
    · rw [hbefore, hafter] at hmove
      cases hmove
  · exact (h.tracker.act_effect net e).sound hc

theorem Consistent.step (hc : Consistent h) (e : OverrideEvent) :
    Consistent (h.step net e) := hc.observe (h.tracker.act_effect net e)

theorem along_soundStep_iff (hc : Consistent h) (events : List OverrideEvent) :
    Along (History.step net) (SoundStep net) h events ↔
      Along (History.step net) (fun h e => ¬ Conflict net h.tracker e) h events := by
  induction events generalizing h with
  | nil => exact Iff.rfl
  | cons e events ih => exact and_congr (soundStep_iff hc) (ih (hc.step e))

/-- **Ownership of a runtime override.**  In every run on the tracker of an instance, every
step is as the owner may rely on exactly when no step is a submission, on a restored
tracker, by its owner with another permit. -/
theorem override_ownership_iff (net : AddressText) (instanceName : Text)
    (events : List OverrideEvent) :
    Along (History.step net) (SoundStep net) (.start instanceName) events ↔
      Along (History.step net) (fun h e => ¬ Conflict net h.tracker e) (.start instanceName)
        events :=
  along_soundStep_iff (Consistent.start instanceName) events

def sampleControl : AutotuneRuntimeControl where
  permitId := samplePermit.permitId
  jobId := samplePermit.jobId
  workerRunId := samplePermit.workerRunId
  bootId := samplePermit.bootId
  coordinatorGeneration := samplePermit.coordinatorGeneration
  worker := samplePermit.worker
  sequence := 1
  deadlineBootMs := 50000
  targetInterface := samplePermit.targetInterface
  routeFingerprint := samplePermit.routeFingerprint
  sqmFingerprint := samplePermit.sqmFingerprint
  topology := .shapedBoth
  downloadKbps := some 80000
  uploadKbps := some 16000

def sampleSnapshot (downloadKbps uploadKbps : ℕ) : RuntimeSnapshot where
  targetInterface := samplePermit.targetInterface
  routeFingerprint := samplePermit.routeFingerprint
  sqmFingerprint := samplePermit.sqmFingerprint
  topology := .shapedBoth
  downloadKbps := some downloadKbps
  uploadKbps := some uploadKbps
  downloadQdiscKind := some .cake
  uploadQdiscKind := some .cake

def sampleEvents : List OverrideEvent :=
  [.submit samplePermit sampleControl (some (.managed (sampleSnapshot 90000 18000))) 1000,
    .confirmApplied (sampleSnapshot 80000 16000) 2000,
    .tick ⟨3000, true, true, true, lit "main|wan|198.51.100.7", .matches, true⟩,
    .confirmRestored (.managed (sampleSnapshot 90000 18000)) 4000]

def sampleConflict : OverrideEvent :=
  .submit { samplePermit with deadlineBootMs := 70000 } sampleControl none 5000

/-- **A restored tracker is taken back to its restoration** by its owner with a permit of a
later deadline, so not every run is sound. -/
theorem later_permit_reopens_restoration :
    (run (History.step addressText) (.start (lit "wan_sqm")) sampleEvents).tracker.phase
        = .restored ∧
      (run (History.step addressText) (.start (lit "wan_sqm"))
        (sampleEvents ++ [sampleConflict])).tracker.phase = .restoring ∧
      ¬ Along (History.step addressText) (SoundStep addressText) (.start (lit "wan_sqm"))
        (sampleEvents ++ [sampleConflict]) := by
  have hbefore : (run (History.step addressText) (.start (lit "wan_sqm"))
      sampleEvents).tracker.phase = .restored := by decide +kernel
  have hafter : (run (History.step addressText) (.start (lit "wan_sqm"))
      (sampleEvents ++ [sampleConflict])).tracker.phase = .restoring := by decide +kernel
  refine ⟨hbefore, hafter, ?_⟩
  rintro ⟨-, -, -, -, hlast, -⟩
  have hsound : SoundStep addressText (run (History.step addressText) (.start (lit "wan_sqm"))
      sampleEvents) sampleConflict := hlast
  have hmoves := hsound.moves rfl
  rw [← step_tracker, hbefore] at hmoves
  rw [run_append, run_cons, run_nil] at hafter
  rw [hafter] at hmoves
  obtain hsame | hmove := hmoves
  · cases hsame
  · cases hmove

end CakeAutorate.Override
