/-
# The life cycle of a journal

Every run of the operations of `JobJournal`, from `JobJournal::queued` on.  A call
that fails is not counted: the coordinator calls an operation on a clone and drops
it.  `Advance` says once what a call that succeeded has done; the invariants of a
run follow from it.
-/

import CakeAutorate.Journal.Job
import CakeAutorate.Machine.Run
import CakeAutorate.Protocol.RoundTrip

namespace CakeAutorate.Journal

open Wire Protocol Update JobJournal Machine

/-- A call of an operation of `JobJournal`. -/
inductive Call where
  | transition (next : OperationState)
  | failBeforeRuntimeMutation (diagnosticCode : Text)
  | markHeavyLeaseAcquired
  | markBootstrapHeavyLeaseAcquired
  | releaseHeavyLeaseDuringRecovery
  | armNativeWorker (workerRunId : Text)
  | attachNativeRunning (process : ProcessIdentity) (workerRunId : Text)
  | armAttachedRuntimeMutation
  | attachBootstrapRuntimeOwner (process : ProcessIdentity)
  | armAttachedBootstrapRuntimeMutation
  | clearBootstrapRuntimeOwner
  | replaceBootstrapRuntimeOwnerDuringRecovery (process : ProcessIdentity)
  | stopAttachedBeforeRuntimeMutation (diagnosticCode : Text)
  | settleNativeTerminal (terminalState : Text) (diagnosticCode : Option Text)
  | settleNativeRuntimeTerminal (terminalState : Text) (diagnosticCode : Option Text)
  | settleNativeSpeedtestRuntimeTerminal (terminalState : Text) (diagnosticCode : Option Text)
  | requireRecovery (diagnosticCode : Text)

namespace Call

def update : Call → Update Unit
  | .transition next => JobJournal.transition next
  | .failBeforeRuntimeMutation code => JobJournal.failBeforeRuntimeMutation code
  | .markHeavyLeaseAcquired => JobJournal.markHeavyLeaseAcquired
  | .markBootstrapHeavyLeaseAcquired => JobJournal.markBootstrapHeavyLeaseAcquired
  | .releaseHeavyLeaseDuringRecovery => JobJournal.releaseHeavyLeaseDuringRecovery
  | .armNativeWorker runId => JobJournal.armNativeWorker runId
  | .attachNativeRunning process runId => JobJournal.attachNativeRunning process runId
  | .armAttachedRuntimeMutation => JobJournal.armAttachedRuntimeMutation
  | .attachBootstrapRuntimeOwner process => JobJournal.attachBootstrapRuntimeOwner process
  | .armAttachedBootstrapRuntimeMutation => JobJournal.armAttachedBootstrapRuntimeMutation
  | .clearBootstrapRuntimeOwner => JobJournal.clearBootstrapRuntimeOwner
  | .replaceBootstrapRuntimeOwnerDuringRecovery process =>
    JobJournal.replaceBootstrapRuntimeOwnerDuringRecovery process
  | .stopAttachedBeforeRuntimeMutation code => JobJournal.stopAttachedBeforeRuntimeMutation code
  | .settleNativeTerminal state code => JobJournal.settleNativeTerminal state code
  | .settleNativeRuntimeTerminal state code => JobJournal.settleNativeRuntimeTerminal state code
  | .settleNativeSpeedtestRuntimeTerminal state code =>
    JobJournal.settleNativeSpeedtestRuntimeTerminal state code
  | .requireRecovery code => JobJournal.requireRecovery code

def result (c : Call) (j : JobJournal) : Option JobJournal :=
  match c.update j with
  | .ok () j' => some j'
  | .error _ _ => none

theorem result_eq_some {c : Call} {j j' : JobJournal} :
    c.result j = some j' ↔ c.update j = .ok () j' := by
  unfold result
  cases c.update j <;> simp

def step (j : JobJournal) (c : Call) : JobJournal := (c.result j).getD j

end Call

/-- What a call that succeeded has done. -/
structure Advance (c : Call) (j j' : JobJournal) : Prop where
  valid : j'.validate = .ok ()
  sequence : j'.sequence.toNat = j.sequence.toNat + 1
  edge : j'.state = j.state ∨ j.state.allowed j'.state = true
  live : j.state.terminal = false
  owned : j'.runtimeMutated = j.runtimeMutated ∧ j'.recoveryRequired = j.recoveryRequired ∨
    j'.runtimeMutated = false ∧ j'.recoveryRequired = false ∨
    j'.runtimeMutated = true ∧ j'.recoveryRequired = true ∧
      (j.state = .running ∧ j'.state = .running ∧ j'.process.isSome ∧ j'.heavyLeaseAcquired ∨
        ∃ code, c = .requireRecovery code)
  published : j'.publicationBootId = j.publicationBootId ∧
      j'.publicationGeneration = j.publicationGeneration ∨
    j'.publicationBootId = none ∧ j'.publicationGeneration = none ∨
    c = .settleNativeRuntimeTerminal (lit "complete") none ∧ j.state = .recovering ∧
      j.runtimeMutated = true

theorem toNat_succ {n : UInt64} (h : n.toNat + 1 < 2 ^ 64) : (n + 1).toNat = n.toNat + 1 := by
  exact Nat.mod_eq_of_lt h

theorem live_of_allowed {from_ to_ : OperationState} (h : from_.allowed to_ = true) :
    from_.terminal = false := by
  by_contra hterminal
  rw [OperationState.allowed_of_terminal (by simpa using hterminal)] at h
  cases h

variable {j j' : JobJournal} {code : Option Text} {process : ProcessIdentity} {terminalState : Text}

theorem advance_transition {next : OperationState} (h : transition next j = .ok () j') :
    Advance (.transition next) j j' := by
  obtain ⟨hedge, hlt, hv, rfl⟩ := transition_eq_ok.1 h
  exact ⟨hv, toNat_succ hlt, .inr hedge, live_of_allowed hedge, .inl ⟨rfl, rfl⟩, .inl ⟨rfl, rfl⟩⟩

theorem advance_failBeforeRuntimeMutation {code : Text}
    (h : failBeforeRuntimeMutation code j = .ok () j') :
    Advance (.failBeforeRuntimeMutation code) j j' := by
  simp only [failBeforeRuntimeMutation, get_bind_ok, lift_bind_ok, modify_bind_ok,
    validated_eq_ok, transition_bind_ok] at h
  obtain ⟨-, hedge, hlt, -, -, hv, rfl⟩ := h
  exact ⟨hv, toNat_succ hlt, .inr hedge, live_of_allowed hedge, .inl ⟨rfl, rfl⟩, .inl ⟨rfl, rfl⟩⟩

theorem advance_markHeavyLeaseAcquired (h : markHeavyLeaseAcquired j = .ok () j') :
    Advance .markHeavyLeaseAcquired j j' := by
  simp only [markHeavyLeaseAcquired, get_bind_ok, lift_bind_ok, check_ok,
    nextSequence_bind_ok, modify_bind_ok, validated_eq_ok] at h
  obtain ⟨-, hguard, hlt, hv, rfl⟩ := h
  obtain ⟨⟨⟨hstate, -⟩, -⟩, -⟩ : ((j.state = .queued ∧ _) ∧ _) ∧ _ := by simpa using hguard
  exact ⟨hv, toNat_succ hlt, .inl rfl, by rw [hstate]; rfl, .inl ⟨rfl, rfl⟩, .inl ⟨rfl, rfl⟩⟩

theorem advance_markBootstrapHeavyLeaseAcquired (h : markBootstrapHeavyLeaseAcquired j = .ok () j') :
    Advance .markBootstrapHeavyLeaseAcquired j j' := by
  simp only [markBootstrapHeavyLeaseAcquired, get_bind_ok, lift_bind_ok, check_ok,
    nextSequence_bind_ok, modify_bind_ok, validated_eq_ok] at h
  obtain ⟨-, hguard, hlt, hv, rfl⟩ := h
  have hstate : j.state = .running := by simp_all
  exact ⟨hv, toNat_succ hlt, .inl rfl, by rw [hstate]; rfl, .inl ⟨rfl, rfl⟩, .inl ⟨rfl, rfl⟩⟩

theorem advance_releaseHeavyLeaseDuringRecovery (h : releaseHeavyLeaseDuringRecovery j = .ok () j') :
    Advance .releaseHeavyLeaseDuringRecovery j j' := by
  simp only [releaseHeavyLeaseDuringRecovery, get_bind_ok, lift_bind_ok, check_ok,
    nextSequence_bind_ok, modify_bind_ok, validated_eq_ok] at h
  obtain ⟨hguard, hlt, hv, rfl⟩ := h
  have hstate : j.state = .recovering := by simp_all
  exact ⟨hv, toNat_succ hlt, .inl rfl, by rw [hstate]; rfl, .inl ⟨rfl, rfl⟩, .inl ⟨rfl, rfl⟩⟩

theorem advance_armNativeWorker {runId : Text} (h : armNativeWorker runId j = .ok () j') :
    Advance (.armNativeWorker runId) j j' := by
  simp only [armNativeWorker, get_bind_ok, lift_bind_ok, modify_bind_ok, validated_eq_ok,
    transition_bind_ok] at h
  obtain ⟨-, hedge, hlt, -, -, hv, rfl⟩ := h
  exact ⟨hv, toNat_succ hlt, .inr hedge, live_of_allowed hedge, .inl ⟨rfl, rfl⟩, .inl ⟨rfl, rfl⟩⟩

theorem advance_attachNativeRunning {runId : Text}
    (h : attachNativeRunning process runId j = .ok () j') :
    Advance (.attachNativeRunning process runId) j j' := by
  simp only [attachNativeRunning, get_bind_ok, lift_bind_ok, modify_bind_ok,
    validated_eq_ok, transition_bind_ok] at h
  obtain ⟨-, -, hedge, hlt, -, hv, rfl⟩ := h
  exact ⟨hv, toNat_succ hlt, .inr hedge, live_of_allowed hedge, .inl ⟨rfl, rfl⟩, .inl ⟨rfl, rfl⟩⟩

theorem armAttachedRuntimeMutation_eq_ok (h : armAttachedRuntimeMutation j = .ok () j') :
    j.state = .running ∧ j.process.isSome ∧ j.heavyLeaseAcquired ∧ j.sequence.toNat + 1 < 2 ^ 64 ∧
      j'.validate = .ok () ∧ j' = { j with
        sequence := j.sequence + 1, runtimeMutated := true, recoveryRequired := true } := by
  simp only [armAttachedRuntimeMutation, get_bind_ok, lift_bind_ok, check_ok,
    nextSequence_bind_ok, modify_bind_ok, validated_eq_ok] at h
  obtain ⟨hguard, hlt, hv, rfl⟩ := h
  have hstate : j.state = .running := by simp_all
  have hprocess : j.process.isSome := by simp_all
  have hlease : j.heavyLeaseAcquired = true := by simp_all
  exact ⟨hstate, hprocess, hlease, hlt, hv, rfl⟩

theorem advance_armAttachedRuntimeMutation {c : Call} (h : armAttachedRuntimeMutation j = .ok () j') :
    Advance c j j' := by
  obtain ⟨hstate, hprocess, hlease, hlt, hv, rfl⟩ := armAttachedRuntimeMutation_eq_ok h
  exact ⟨hv, toNat_succ hlt, .inl rfl, by rw [hstate]; rfl,
    .inr (.inr ⟨rfl, rfl, .inl ⟨hstate, hstate, hprocess, hlease⟩⟩), .inl ⟨rfl, rfl⟩⟩

theorem advance_attachBootstrapRuntimeOwner (h : attachBootstrapRuntimeOwner process j = .ok () j') :
    Advance (.attachBootstrapRuntimeOwner process) j j' := by
  simp only [attachBootstrapRuntimeOwner, get_bind_ok, lift_bind_ok, check_ok,
    staged_eq_ok, modify_eq_ok] at h
  obtain ⟨hguard, hlt, rfl, hv⟩ := h
  have hstate : j.state = .running := by simp_all
  exact ⟨hv, toNat_succ hlt, .inl rfl, by rw [hstate]; rfl, .inl ⟨rfl, rfl⟩, .inl ⟨rfl, rfl⟩⟩

theorem advance_clearBootstrapRuntimeOwner (h : clearBootstrapRuntimeOwner j = .ok () j') :
    Advance .clearBootstrapRuntimeOwner j j' := by
  simp only [clearBootstrapRuntimeOwner, get_bind_ok, lift_bind_ok, check_ok,
    staged_eq_ok, modify_eq_ok] at h
  obtain ⟨hguard, hlt, rfl, hv⟩ := h
  have hlive : j.state.terminal = false := by simp_all
  exact ⟨hv, toNat_succ hlt, .inl rfl, hlive, .inl ⟨rfl, rfl⟩, .inl ⟨rfl, rfl⟩⟩

theorem advance_replaceBootstrapRuntimeOwnerDuringRecovery
    (h : replaceBootstrapRuntimeOwnerDuringRecovery process j = .ok () j') :
    Advance (.replaceBootstrapRuntimeOwnerDuringRecovery process) j j' := by
  simp only [replaceBootstrapRuntimeOwnerDuringRecovery, get_bind_ok, lift_bind_ok,
    check_ok, staged_eq_ok, modify_eq_ok] at h
  obtain ⟨hguard, hlt, rfl, hv⟩ := h
  have hstate : j.state = .recovering := by simp_all
  exact ⟨hv, toNat_succ hlt, .inl rfl, by rw [hstate]; rfl, .inl ⟨rfl, rfl⟩, .inl ⟨rfl, rfl⟩⟩

theorem advance_stopAttachedBeforeRuntimeMutation {code : Text}
    (h : stopAttachedBeforeRuntimeMutation code j = .ok () j') :
    Advance (.stopAttachedBeforeRuntimeMutation code) j j' := by
  simp only [stopAttachedBeforeRuntimeMutation, get_bind_ok, lift_bind_ok,
    modify_bind_ok, validated_eq_ok, transition_bind_ok] at h
  obtain ⟨-, -, hedge, hlt, -, hv, rfl⟩ := h
  exact ⟨hv, toNat_succ hlt, .inr hedge, live_of_allowed hedge, .inl ⟨rfl, rfl⟩, .inl ⟨rfl, rfl⟩⟩

theorem advance_settleNativeTerminal (h : settleNativeTerminal terminalState code j = .ok () j') :
    Advance (.settleNativeTerminal terminalState code) j j' := by
  simp only [settleNativeTerminal, get_bind_ok, lift_bind_ok] at h
  obtain ⟨-, h⟩ := h
  cases hnext : nativeTerminal terminalState with
  | none =>
    rw [hnext] at h
    cases h
  | some terminal =>
    rw [hnext] at h
    simp only [settleNativeAs, get_bind_ok, lift_bind_ok, validateTransition, check_ok,
      nextSequence_bind_ok, modify_bind_ok, validated_eq_ok] at h
    obtain ⟨hedge, hlt, hv, rfl⟩ := h
    exact ⟨hv, toNat_succ hlt, .inr hedge, live_of_allowed hedge, .inl ⟨rfl, rfl⟩, .inl ⟨rfl, rfl⟩⟩

theorem restored_facts (h : j.restored = true) :
    j.state = .recovering ∧ j.runtimeMutated = true := by
  unfold restored at h
  constructor <;> simp_all

theorem advance_settleNativeRuntimeTerminal
    (h : settleNativeRuntimeTerminal terminalState code j = .ok () j') :
    Advance (.settleNativeRuntimeTerminal terminalState code) j j' := by
  simp only [settleNativeRuntimeTerminal, get_bind_ok, lift_bind_ok, check_ok] at h
  obtain ⟨hrestored, h⟩ := h
  obtain ⟨hstate, hmutated⟩ := restored_facts hrestored
  cases hnext : runtimeTerminal terminalState code with
  | none =>
    rw [hnext] at h
    cases h
  | some terminal =>
    rw [hnext] at h
    simp only [settleRuntimeAs, modify_bind_ok, validated_eq_ok, transition_bind_ok] at h
    obtain ⟨hedge, hlt, -, hv, rfl⟩ := h
    -- Only a `complete` without a diagnostic publishes; the other terminals clear both fields.
    by_cases hcomplete : terminalState = lit "complete" ∧ code = none
    · obtain ⟨rfl, rfl⟩ := hcomplete
      exact ⟨hv, toNat_succ hlt, .inr hedge, live_of_allowed hedge, .inr (.inl ⟨rfl, rfl⟩),
        .inr (.inr ⟨rfl, hstate, hmutated⟩)⟩
    · simp only [publish, decide_eq_true_eq, if_neg hcomplete] at hv ⊢
      exact ⟨hv, toNat_succ hlt, .inr hedge, live_of_allowed hedge, .inr (.inl ⟨rfl, rfl⟩),
        .inr (.inl ⟨rfl, rfl⟩)⟩

theorem advance_settleNativeSpeedtestRuntimeTerminal
    (h : settleNativeSpeedtestRuntimeTerminal terminalState code j = .ok () j') :
    Advance (.settleNativeSpeedtestRuntimeTerminal terminalState code) j j' := by
  simp only [settleNativeSpeedtestRuntimeTerminal, get_bind_ok, lift_bind_ok] at h
  obtain ⟨-, h⟩ := h
  cases hnext : speedtestTerminal terminalState code with
  | none =>
    rw [hnext] at h
    cases h
  | some terminal =>
    rw [hnext] at h
    simp only [settleSpeedtestAs, modify_bind_ok, validated_eq_ok, transition_bind_ok] at h
    obtain ⟨hedge, hlt, -, hv, rfl⟩ := h
    exact ⟨hv, toNat_succ hlt, .inr hedge, live_of_allowed hedge, .inr (.inl ⟨rfl, rfl⟩),
      .inl ⟨rfl, rfl⟩⟩

theorem advance_requireRecovery {code : Text} (h : requireRecovery code j = .ok () j') :
    Advance (.requireRecovery code) j j' := by
  simp only [requireRecovery, get_bind_ok] at h
  split at h
  · simp only [transition_bind_ok, modify_bind_ok, validated_eq_ok] at h
    obtain ⟨hedge, hlt, -, hv, rfl⟩ := h
    exact ⟨hv, toNat_succ hlt, .inr hedge, live_of_allowed hedge,
      .inr (.inr ⟨rfl, rfl, .inr ⟨code, rfl⟩⟩), .inl ⟨rfl, rfl⟩⟩
  · rename_i hstate
    have hstate : j.state = .recovering := by simpa using hstate
    simp only [nextSequence_bind_ok, modify_bind_ok, validated_eq_ok] at h
    obtain ⟨hlt, hv, rfl⟩ := h
    exact ⟨hv, toNat_succ hlt, .inl rfl, by rw [hstate]; rfl,
      .inr (.inr ⟨rfl, rfl, .inr ⟨code, rfl⟩⟩), .inl ⟨rfl, rfl⟩⟩

/-- **One call.** -/
theorem advance_of_ok {c : Call} (h : c.update j = .ok () j') : Advance c j j' := by
  cases c with
  | transition next => exact advance_transition h
  | failBeforeRuntimeMutation code => exact advance_failBeforeRuntimeMutation h
  | markHeavyLeaseAcquired => exact advance_markHeavyLeaseAcquired h
  | markBootstrapHeavyLeaseAcquired => exact advance_markBootstrapHeavyLeaseAcquired h
  | releaseHeavyLeaseDuringRecovery => exact advance_releaseHeavyLeaseDuringRecovery h
  | armNativeWorker runId => exact advance_armNativeWorker h
  | attachNativeRunning process runId => exact advance_attachNativeRunning h
  | armAttachedRuntimeMutation => exact advance_armAttachedRuntimeMutation h
  | attachBootstrapRuntimeOwner process => exact advance_attachBootstrapRuntimeOwner h
  | armAttachedBootstrapRuntimeMutation =>
    simp only [Call.update, armAttachedBootstrapRuntimeMutation, get_bind_ok,
      lift_bind_ok] at h
    exact advance_armAttachedRuntimeMutation h.2
  | clearBootstrapRuntimeOwner => exact advance_clearBootstrapRuntimeOwner h
  | replaceBootstrapRuntimeOwnerDuringRecovery process =>
    exact advance_replaceBootstrapRuntimeOwnerDuringRecovery h
  | stopAttachedBeforeRuntimeMutation code => exact advance_stopAttachedBeforeRuntimeMutation h
  | settleNativeTerminal state code => exact advance_settleNativeTerminal h
  | settleNativeRuntimeTerminal state code => exact advance_settleNativeRuntimeTerminal h
  | settleNativeSpeedtestRuntimeTerminal state code =>
    exact advance_settleNativeSpeedtestRuntimeTerminal h
  | requireRecovery code => exact advance_requireRecovery h

/-- What holds of every journal of a run. -/
structure Sound (j : JobJournal) : Prop where
  valid : j.validate = .ok ()
  owned : j.runtimeMutated = j.recoveryRequired

theorem Advance.sound {c : Call} (h : Advance c j j') (hj : Sound j) : Sound j' := by
  refine ⟨h.valid, ?_⟩
  obtain ⟨hm, hr⟩ | ⟨hm, hr⟩ | ⟨hm, hr, -⟩ := h.owned
  · rw [hm, hr, hj.owned]
  · rw [hm, hr]
  · rw [hm, hr]

theorem Call.step_sound (j : JobJournal) (c : Call) (hj : Sound j) : Sound (c.step j) := by
  unfold Call.step
  cases hc : c.result j with
  | some j' => exact (advance_of_ok (Call.result_eq_some.1 hc)).sound hj
  | none => exact hj

theorem sound_queued {net : AddressText} {request : OperationRequest}
    {coordinator : CoordinatorIdentity} {heavyTraffic : Bool}
    (h : queued net request coordinator heavyTraffic = .ok j) : Sound j := by
  simp only [queued, bind_ok, exists_unit] at h
  obtain ⟨-, hv, hj⟩ := h
  cases hj
  exact ⟨hv, rfl⟩

/-- What `validate` asks of a publication identity. -/
theorem published_inert (h : j.validate = .ok ())
    (hp : j.publicationBootId.isSome ∨ j.publicationGeneration.isSome) :
    (j.state = .reviewReady ∨ j.state = .completed) ∧ j.terminalKind = some (lit "result") ∧
      j.terminalState = some (lit "complete") ∧ j.runtimeMutated = false ∧
      j.recoveryRequired = false ∧ j.process = none ∧ j.runtimeOwnerProcess = none := by
  have hpublication : j.validatePublication = .ok () := by
    simp only [validate, andThen_eq_ok] at h
    tauto
  unfold validatePublication at hpublication
  split at hpublication
  · rename_i hb hg
    simp [hb, hg] at hp
  · simp only [andThen_eq_ok, check_ok] at hpublication
    obtain ⟨-, -, hcheck⟩ := hpublication
    have hstate : j.state = .reviewReady ∨ j.state = .completed := by
      cases hs : j.state <;> simp [hs] at hcheck ⊢
    simp_all
  · cases hpublication

/-- **The life cycle.**  In every run from a queued journal: the journal validates, its flags agree,
and every further call that succeeds finds it live, raises the sequence by one and follows an edge
of `validate_transition` or none; it mutates and publishes only where that is allowed. -/
theorem journal_life_cycle {net : AddressText} {request : OperationRequest}
    {coordinator : CoordinatorIdentity} {heavyTraffic : Bool} {j₀ : JobJournal}
    (h₀ : queued net request coordinator heavyTraffic = .ok j₀) (calls : List Call) :
    let j := run Call.step j₀ calls
    j.validate = .ok () ∧ j.runtimeMutated = j.recoveryRequired ∧
      (j.publicationBootId.isSome ∨ j.publicationGeneration.isSome →
        (j.state = .reviewReady ∨ j.state = .completed) ∧ j.runtimeMutated = false ∧
          j.recoveryRequired = false ∧ j.process = none ∧ j.runtimeOwnerProcess = none) ∧
      ∀ (c : Call) (j' : JobJournal), c.update j = .ok () j' →
        j.state.terminal = false ∧ j'.validate = .ok () ∧
        j'.sequence.toNat = j.sequence.toNat + 1 ∧
        (j'.state = j.state ∨ validateTransition j.state j'.state = .ok ()) ∧
        (j.runtimeMutated = false → j'.runtimeMutated = true →
          j.state = .running ∧ j'.state = .running ∧ j'.process.isSome ∧ j'.heavyLeaseAcquired ∨
            ∃ code, c = .requireRecovery code) ∧
        (j.publicationBootId = none → j.publicationGeneration = none →
          j'.publicationBootId.isSome ∨ j'.publicationGeneration.isSome →
          c = .settleNativeRuntimeTerminal (lit "complete") none ∧ j.state = .recovering ∧
            j.runtimeMutated = true) := by
  intro j
  have hj : Sound j := run_invariant Call.step_sound (sound_queued h₀) calls
  refine ⟨hj.valid, hj.owned, fun hp => ?_, fun c j' hc => ?_⟩
  · obtain ⟨hstate, -, -, hrest⟩ := published_inert hj.valid hp
    exact ⟨hstate, hrest⟩
  · have ha := advance_of_ok hc
    refine ⟨ha.live, ha.valid, ha.sequence, ?_, fun hm hm' => ?_, fun hb hg hp => ?_⟩
    · simpa only [validateTransition, check_ok] using ha.edge
    · obtain ⟨heq, -⟩ | ⟨hfalse, -⟩ | ⟨-, -, harmed⟩ := ha.owned
      · rw [heq, hm] at hm'
        cases hm'
      · rw [hfalse] at hm'
        cases hm'
      · exact harmed
    · obtain ⟨heqb, heqg⟩ | ⟨hnoneb, hnoneg⟩ | hsettled := ha.published
      · simp [heqb, heqg, hb, hg] at hp
      · simp [hnoneb, hnoneg] at hp
      · exact hsettled

def sampleCoordinator : CoordinatorIdentity :=
  ⟨lit "11111111111111111111111111111111", lit "22222222222222222222222222222222"⟩

def sampleRunId : Text := lit "88888888888888888888888888888888"

def sampleCalls : List Call :=
  [.markHeavyLeaseAcquired, .armNativeWorker sampleRunId,
    .attachNativeRunning ⟨42, 42, 100⟩ sampleRunId, .armAttachedRuntimeMutation,
    .requireRecovery (lit "native-worker-exited")]

def sampleJournal : JobJournal := initial managedRequest sampleCoordinator true

theorem queued_sampleJournal :
    queued addressText managedRequest sampleCoordinator true = .ok sampleJournal := rfl

def sampleReview : JobJournal := { sampleJournal with
  state := .reviewReady, sequence := 7, workerRunId := some sampleRunId
  terminalKind := some (lit "result"), terminalState := some (lit "complete")
  publicationBootId := some sampleCoordinator.bootId
  publicationGeneration := some sampleCoordinator.generation }

theorem settle_sampleCalls : (Call.settleNativeRuntimeTerminal (lit "complete") none).result
    (run Call.step sampleJournal sampleCalls) = some sampleReview := by decide +kernel

theorem sampleCalls_reviewed : (run Call.step sampleJournal sampleCalls).state = .recovering ∧
    (run Call.step sampleJournal sampleCalls).runtimeMutated = true ∧
    sampleReview.validate = .ok () ∧ sampleReview.publicationBootId.isSome := by
  obtain ⟨-, -, -, hstep⟩ := journal_life_cycle queued_sampleJournal sampleCalls
  obtain ⟨-, hvalid, -, -, -, hpublished⟩ := hstep _ _ (Call.result_eq_some.1 settle_sampleCalls)
  obtain ⟨-, hstate, hmutated⟩ :=
    hpublished (by decide +kernel) (by decide +kernel) (.inl (by decide +kernel))
  exact ⟨hstate, hmutated, hvalid, rfl⟩

end CakeAutorate.Journal
