/-
# A native Apply reaches one final answer

The answer is final, over every run of a coordinator and its workers, as long as nobody takes up a
dispatch whose receipt is already there.  A worker that stops between the two writes of `complete`
leaves both; `admit` clears such a pair up, but `reconcile` and a worker that was launched before do
not look at the receipt.  It also needs that no dispatch is created while a worker that has
completed still holds its claim, which `rearm_terminal` checks and `admit` does not.
-/

import CakeAutorate.NativeApply.World

namespace CakeAutorate.NativeApply

open NativeApplyDispatchRecord NativeApplyWorkerReadiness

open Wire Protocol Journal Machine Function NativeApplyCoordinatorStore List Option

def Fresh (w : World) : Event → Prop
  | .admission _ applyJobId _ _ | .rearm _ _ applyJobId _ _ => applyJobId ∉ w.issued
  | .spawn process => process ∉ w.processes
  | _ => True

/-- The active dispatch has its receipt: a worker stopped between the two writes of
`complete`. -/
def Settled (w : World) : Prop :=
  ∃ terminal, w.store.terminal = some terminal ∧ w.store.active = some terminal.dispatch

def Hasty (w : World) : Event → Prop
  | .reconcile => w.coordinator = .ready ∧ w.childRuns = false ∧ Settled w ∧
      ∀ claim, w.store.claim = some claim → w.live claim.process = false
  | .claim process => Settled w ∧ w.store.claim = none ∧ ∃ active, w.store.active = some active ∧
      w.workers process = some (.launched active.applyJobId)
  | .reclaim process => Settled w ∧ w.store.claim = none ∧
      ∃ active, w.store.active = some active ∧
        ∃ claim, w.workers process = some (.reclaiming active claim)
  | .admission request _ _ gate => w.coordinator = .ready ∧ gate = .ok () ∧ w.store.active = none ∧
      (∀ terminal, w.store.terminal = some terminal →
        terminal.dispatch.matchesStart request = false) ∧
      ∃ claim, w.store.claim = some claim ∧ w.live claim.process = true
  | _ => False

instance Fresh.decidable (w : World) : ∀ e, Decidable (Fresh w e)
  | .admission _ applyJobId _ _ | .rearm _ _ applyJobId _ _ =>
    inferInstanceAs (Decidable (applyJobId ∉ w.issued))
  | .spawn process => inferInstanceAs (Decidable (process ∉ w.processes))
  | .create | .retire | .reconcile | .lookAtClaim | .coordinatorStops | .claim _ | .reclaim _
  | .verify _ _ | .execute _ _ | .removeActive _ | .workerFails _ | .removeClaim _
  | .workerDies _ => inferInstanceAs (Decidable True)

instance Settled.decidable (w : World) : Decidable (Settled w) :=
  inferInstanceAs (Decidable (∃ terminal ∈ w.store.terminal,
    w.store.active = some terminal.dispatch))

/-- Whether a worker waits to claim a dispatch again. -/
instance decidableReclaiming (phase : Option WorkerPhase) (d : NativeApplyDispatchRecord) :
    Decidable (∃ claim, phase = some (.reclaiming d claim)) :=
  match phase with
  | some (.reclaiming d' claim) =>
    decidable_of_iff (d' = d) ⟨fun h => ⟨claim, by rw [h]⟩, by rintro ⟨c, h⟩; cases h; rfl⟩
  | none => isFalse (by simp)
  | some (.launched _) | some (.executing _ _) | some (.publishing _ _) | some (.finishing _) =>
    isFalse (by simp)

theorem error_ne_unit (message : String) : (.error message : Except String Unit) ≠ .ok () := by
  intro h
  cases h

def decidableOpen : (gate : Except String Unit) → Decidable (gate = .ok ())
  | .ok () => isTrue rfl
  | .error message => isFalse (error_ne_unit message)

instance Hasty.decidable (w : World) : ∀ e, Decidable (Hasty w e)
  | .reconcile =>
    inferInstanceAs (Decidable (w.coordinator = .ready ∧ w.childRuns = false ∧ Settled w ∧
      ∀ claim ∈ w.store.claim, w.live claim.process = false))
  | .claim process =>
    inferInstanceAs (Decidable (Settled w ∧ w.store.claim = none ∧ ∃ active ∈ w.store.active,
      w.workers process = some (.launched active.applyJobId)))
  | .reclaim process =>
    inferInstanceAs (Decidable (Settled w ∧ w.store.claim = none ∧ ∃ active ∈ w.store.active,
      ∃ claim, w.workers process = some (.reclaiming active claim)))
  | .admission request _ _ gate =>
    have : Decidable (gate = .ok ()) := decidableOpen gate
    inferInstanceAs (Decidable (w.coordinator = .ready ∧ gate = .ok () ∧ w.store.active = none ∧
      (∀ terminal ∈ w.store.terminal, terminal.dispatch.matchesStart request = false) ∧
      ∃ claim ∈ w.store.claim, w.live claim.process = true))
  | .create | .rearm _ _ _ _ _ | .retire | .lookAtClaim | .spawn _ | .coordinatorStops
  | .verify _ _ | .execute _ _ | .removeActive _ | .workerFails _ | .removeClaim _
  | .workerDies _ => inferInstanceAs (Decidable False)

def Holds (w : World) (process : ProcessIdentity) (claim : NativeApplyWorkerClaim) : Prop :=
  ∃ phase, w.workers process = some phase ∧ phase.claim = some claim

/-- A step as the owner of a native Apply may rely on. -/
structure Sound (w : World) (e : Event) : Prop where
  /-- No worker is launched for a job that has a receipt. -/
  launched : ∀ dispatch, w.readiness e = some (.launch dispatch) →
    ∀ receipt ∈ w.receipts, receipt.dispatch.applyJobId ≠ dispatch.applyJobId
  /-- Every receipt that is durable is remembered, and a job keeps its outcome. -/
  recorded : ∀ terminal, (w.step e).store.terminal = some terminal → terminal ∈ (w.step e).receipts
  outcome : ∀ receipt ∈ w.receipts, ∀ receipt' ∈ (w.step e).receipts,
    receipt'.dispatch.applyJobId = receipt.dispatch.applyJobId → receipt'.outcome = receipt.outcome
  /-- A receipt that takes another's place is for a later generation of another job. -/
  replaced : ∀ terminal terminal', w.store.terminal = some terminal →
    (w.step e).store.terminal = some terminal' → terminal' ≠ terminal →
      terminal.dispatch.generation < terminal'.dispatch.generation ∧
        terminal.dispatch.applyJobId ≠ terminal'.dispatch.applyJobId
  /-- A dispatch that is changed gets a higher generation, also when it is rearmed. -/
  generation : ∀ active active', w.store.active = some active →
    (w.step e).store.active = some active' → active' ≠ active →
      active.generation < active'.generation
  rearmed : ∀ request expected applyJobId applyJobToken gate active,
    e = .rearm request expected applyJobId applyJobToken gate → w.store.active = none →
      (w.step e).store.active = some active →
        w.store.terminal = some expected ∧ expected.dispatch.generation < active.generation
  /-- One worker at most holds the claim, which is durable and for the active dispatch. -/
  alone : ∀ process process' claim claim', Holds (w.step e) process claim →
    Holds (w.step e) process' claim' → process = process'
  owns : ∀ process claim, Holds (w.step e) process claim → (w.step e).store.claim = some claim ∧
    claim.process = process ∧
      ∀ active, (w.step e).store.active = some active → claim.matchesDispatch active = true
  /-- The request that owns the active dispatch is not refused for what is stored: where a
  valid start fails, it is because the gate does. -/
  admitted : ∀ request candidate gate error, request.validate = .ok () →
    request.command = .start → candidate.validate = .ok () →
    candidate.matchesStart request = true →
    (∀ active, w.store.active = some active → active.matchesStart request = true) →
    w.store.admitWithGate request candidate gate = .error error → gate = .error error

/-- The records agree with the receipts and with each other: an active dispatch that has a receipt
is stored with it; one that has none is of a later generation than the one stored. -/
structure RecordsOk (s : NativeApplyCoordinatorStore) (receipts : List NativeApplyTerminalRecord)
    (issued : List Text) : Prop where
  recorded : ∀ terminal, s.terminal = some terminal → terminal ∈ receipts
  unique : ∀ receipt ∈ receipts, ∀ receipt' ∈ receipts,
    receipt.dispatch.applyJobId = receipt'.dispatch.applyJobId → receipt = receipt'
  receiptsIssued : ∀ receipt ∈ receipts, receipt.dispatch.applyJobId ∈ issued
  activeIssued : ∀ active, s.active = some active → active.applyJobId ∈ issued
  pair : ∀ active terminal, s.active = some active → s.terminal = some terminal →
    terminal.dispatch = active ∨
      terminal.dispatch.generation < active.generation ∧ terminal.dispatch.SameIntent active
  settled : ∀ active, s.active = some active → ∀ receipt ∈ receipts,
    receipt.dispatch.applyJobId = active.applyJobId →
      s.terminal = some receipt ∧ receipt.dispatch = active

def WorkerOk (w : World) (process : ProcessIdentity) : WorkerPhase → Prop
  | .launched applyJobId => applyJobId ∈ w.issued
  | .reclaiming dispatch claim => dispatch.applyJobId ∈ w.issued ∧ claim.process = process
  | .executing claim dispatch => w.store.claim = some claim ∧ claim.process = process ∧
      w.store.active = some dispatch ∧ claim.matchesDispatch dispatch = true ∧
      ∀ receipt ∈ w.receipts, receipt.dispatch.applyJobId ≠ dispatch.applyJobId
  | .publishing claim terminal => w.store.claim = some claim ∧ claim.process = process ∧
      w.store.terminal = some terminal ∧ claim.matchesDispatch terminal.dispatch = true ∧
      ∀ active, w.store.active = some active → active = terminal.dispatch
  | .finishing claim => w.store.claim = some claim ∧ claim.process = process ∧
      ∀ active, w.store.active = some active → claim.matchesDispatch active = true

def Pending (w : World) (job : Text) : Prop :=
  (∃ active, w.store.active = some active ∧ active.state = .accepted ∧ active.applyJobId = job) ∨
    (∃ candidate, w.coordinator = .creating candidate ∧ candidate.applyJobId = job) ∨
    ∃ dispatch, w.coordinator = .validated dispatch ∧ dispatch.applyJobId = job

def Untouched (w : World) (job : Text) : Prop :=
  (∀ process phase, w.workers process = some phase → phase.claim = none ∧ phase.job ≠ some job) ∧
    ∀ receipt ∈ w.receipts, receipt.dispatch.applyJobId ≠ job

def CoordinatorOk (w : World) : CoordinatorPhase → Prop
  | .ready => True
  | .creating candidate => w.store.active = none ∧ w.store.terminal = none ∧
      candidate.applyJobId ∈ w.issued
  | .retiring => ∃ active, w.store.active = some active ∧ active.state = .accepted
  | .validated dispatch => w.store.active = some dispatch ∧ dispatch.executable = true
  | .launching dispatch => dispatch.applyJobId ∈ w.issued ∧
      ∀ active, w.store.active = some active → active.state ≠ .accepted

/-- The records agree with the parties. -/
structure Inv (w : World) : Prop where
  records : RecordsOk w.store w.receipts w.issued
  workers : ∀ process phase, w.workers process = some phase → WorkerOk w process phase
  claim : ∀ claim, w.store.claim = some claim → claim.process ∈ w.processes ∧
    ∀ phase, w.workers claim.process = some phase → phase.claim = some claim
  processes : ∀ process phase, w.workers process = some phase → process ∈ w.processes
  untouched : ∀ job, Pending w job → Untouched w job
  coordinator : CoordinatorOk w w.coordinator

theorem executable_of_matches {claim : NativeApplyWorkerClaim} {d : NativeApplyDispatchRecord}
    (h : claim.matchesDispatch d = true) : d.executable = true := by
  simp only [NativeApplyWorkerClaim.matchesDispatch, Bool.and_eq_true] at h
  exact h.2

theorem not_accepted {d : NativeApplyDispatchRecord} (h : d.executable = true) :
    d.state ≠ .accepted := by
  intro hstate
  simp [executable, hstate] at h

variable {w : World} {phase : WorkerPhase}

theorem WorkerOk.congr {w' : World} {process : ProcessIdentity} (h : WorkerOk w process phase)
    (hclaim : phase.claim = none) (hissued : ∀ job ∈ w.issued, job ∈ w'.issued) :
    WorkerOk w' process phase := by
  cases phase with
  | launched job => exact hissued _ h
  | reclaiming d c => exact ⟨hissued _ h.1, h.2⟩
  | _ => cases hclaim

theorem WorkerOk.same {w' : World} {process : ProcessIdentity} (h : WorkerOk w process phase)
    (hstore : w'.store = w.store) (hreceipts : w'.receipts = w.receipts)
    (hissued : w'.issued = w.issued) : WorkerOk w' process phase := by
  cases phase <;> simpa only [WorkerOk, hstore, hreceipts, hissued] using h

theorem CoordinatorOk.same {w' : World} {phase : CoordinatorPhase} (h : CoordinatorOk w phase)
    (hactive : w'.store.active = w.store.active) (hterminal : w'.store.terminal = w.store.terminal)
    (hissued : w'.issued = w.issued) : CoordinatorOk w' phase := by
  cases phase <;> simp only [CoordinatorOk, hactive, hterminal, hissued] at h ⊢
  all_goals exact h

theorem WorkerOk.held {process : ProcessIdentity} {claim : NativeApplyWorkerClaim}
    (h : WorkerOk w process phase) (hclaim : phase.claim = some claim) :
    w.store.claim = some claim ∧ claim.process = process ∧
      ∀ active, w.store.active = some active → claim.matchesDispatch active = true := by
  cases phase with
  | launched job => cases hclaim
  | reclaiming d c => cases hclaim
  | executing c d =>
    cases hclaim
    obtain ⟨h₁, h₂, h₃, h₄, -⟩ := h
    refine ⟨h₁, h₂, fun active hactive => ?_⟩
    cases h₃.symm.trans hactive
    exact h₄
  | publishing c t =>
    cases hclaim
    obtain ⟨h₁, h₂, -, h₄, h₅⟩ := h
    refine ⟨h₁, h₂, fun active hactive => ?_⟩
    rw [h₅ active hactive]
    exact h₄
  | finishing c =>
    cases hclaim
    exact h

namespace Inv

variable {w w' : World} {process : ProcessIdentity} {claim : NativeApplyWorkerClaim}

theorem start : Inv .start where
  records := by constructor <;> simp [World.start]
  workers := by simp [World.start]
  claim := by simp [World.start]
  processes := by simp [World.start]
  untouched := by simp [World.start, Pending]
  coordinator := trivial

section

variable (h : Inv w)
include h

theorem others (hheld : Holds w process claim) {q : ProcessIdentity} (hne : q ≠ process)
    (hq : w.workers q = some phase) : phase.claim = none := by
  obtain ⟨phase', hp, hclaim⟩ := hheld
  obtain ⟨hstore, hprocess, -⟩ := (h.workers _ _ hp).held hclaim
  cases hcq : phase.claim with
  | none => rfl
  | some c =>
    obtain ⟨hstore', hprocess', -⟩ := (h.workers _ _ hq).held hcq
    cases hstore.symm.trans hstore'
    exact absurd (hprocess'.symm.trans hprocess) hne

theorem coordinated {phase : CoordinatorPhase} (hphase : w.coordinator = phase) :
    CoordinatorOk w phase := hphase ▸ h.coordinator

theorem not_pending (hheld : Holds w process claim) (job : Text) : ¬ Pending w job := by
  intro hpending
  obtain ⟨phase, hp, hclaim⟩ := hheld
  have hnone := ((h.untouched job hpending).1 process phase hp).1
  rw [hnone] at hclaim
  cases hclaim

theorem unclaimed (hnone : w.store.claim = none) {q : ProcessIdentity}
    (hq : w.workers q = some phase) : phase.claim = none := by
  cases hcq : phase.claim with
  | none => rfl
  | some c =>
    obtain ⟨hstore, -⟩ := (h.workers _ _ hq).held hcq
    rw [hnone] at hstore
    cases hstore

theorem unclaimed_of_dead
    (hdead : ∀ claim, w.store.claim = some claim → w.live claim.process = false) :
    ∀ q phase, w.workers q = some phase → phase.claim = none := by
  intro q phase hq
  cases hcq : phase.claim with
  | none => rfl
  | some c =>
    obtain ⟨hstore, hprocess, -⟩ := (h.workers q phase hq).held hcq
    have hlive := hdead c hstore
    rw [hprocess] at hlive
    simp [World.live, hq] at hlive

/-- **A worker that holds its claim moves.**  What has to be shown is about the records and
about this worker only. -/
theorem moves (hheld : Holds w process claim)
    (hothers : ∀ q, q ≠ process → w'.workers q = w.workers q)
    (hself : ∀ phase, w'.workers process = some phase →
      WorkerOk w' process phase ∧ phase.claim = some claim)
    (hissued : w'.issued = w.issued) (hprocesses : w'.processes = w.processes)
    (hcoordinator : w'.coordinator = w.coordinator)
    (hrecords : RecordsOk w'.store w'.receipts w'.issued)
    (hclaim : w'.store.claim = none ∨ w'.store.claim = w.store.claim)
    (hactive : w'.store.active = w.store.active ∨ w'.store.active = none ∨
      ∃ d, w'.store.active = some d ∧ d.executable = true) :
    Inv w' := by
  have hheld' := hheld
  obtain ⟨phase₀, hp₀, hclaim₀⟩ := hheld'
  obtain ⟨hstore, hprocess, -⟩ := (h.workers _ _ hp₀).held hclaim₀
  have hnone : ∀ q phase, q ≠ process → w'.workers q = some phase →
      w.workers q = some phase ∧ phase.claim = none := by
    intro q phase hne hq
    rw [hothers q hne] at hq
    exact ⟨hq, h.others hheld hne hq⟩
  have haccepted : ∀ active, w'.store.active = some active → active.state ≠ .accepted := by
    intro active ha
    obtain hsame | hgone | ⟨d, hd, hexecutable⟩ := hactive
    · intro hstate
      exact h.not_pending hheld active.applyJobId (.inl ⟨active, hsame ▸ ha, hstate, rfl⟩)
    · rw [hgone] at ha
      cases ha
    · cases hd.symm.trans ha
      exact not_accepted hexecutable
  refine ⟨hrecords, ?_, ?_, ?_, ?_, ?_⟩
  · intro q phase hq
    by_cases hne : q = process
    · subst hne
      exact (hself phase hq).1
    · obtain ⟨hq', hunclaimed⟩ := hnone q phase hne hq
      exact (h.workers q phase hq').congr hunclaimed (by simp [hissued])
  · intro c hc
    obtain hgone | hsame := hclaim
    · rw [hgone] at hc
      cases hc
    · rw [hsame, hstore] at hc
      cases hc
      refine ⟨by rw [hprocesses]; exact (h.claim claim hstore).1, ?_⟩
      intro phase hphase
      rw [hprocess] at hphase
      exact (hself phase hphase).2
  · intro q phase hq
    rw [hprocesses]
    by_cases hne : q = process
    · subst hne
      exact h.processes q phase₀ hp₀
    · exact h.processes q phase (hnone q phase hne hq).1
  · intro job hpending
    obtain ⟨active, ha, hstate, -⟩ | hcreating | hvalidated := hpending
    · exact absurd hstate (haccepted active ha)
    · exact absurd (.inr (.inl (hcoordinator ▸ hcreating))) (h.not_pending hheld job)
    · exact absurd (.inr (.inr (hcoordinator ▸ hvalidated))) (h.not_pending hheld job)
  · have hok := h.coordinator
    rw [hcoordinator]
    cases hphase : w.coordinator with
    | ready => trivial
    | creating candidate =>
      exact absurd (.inr (.inl ⟨candidate, hphase, rfl⟩)) (h.not_pending hheld _)
    | validated dispatch =>
      exact absurd (.inr (.inr ⟨dispatch, hphase, rfl⟩)) (h.not_pending hheld _)
    | retiring =>
      rw [hphase] at hok
      obtain ⟨active, ha, hstate⟩ := hok
      exact absurd (.inl ⟨active, ha, hstate, rfl⟩) (h.not_pending hheld _)
    | launching dispatch =>
      rw [hphase] at hok
      exact ⟨hissued ▸ hok.1, haccepted⟩

/-- The worker goes on with its claim. -/
theorem movesOn (hheld : Holds w process claim) {s : NativeApplyCoordinatorStore}
    {receipts : List NativeApplyTerminalRecord}
    (hself : WorkerOk { w.goesOn process phase with store := s, receipts } process phase)
    (hphase : phase.claim = some claim) (hrecords : RecordsOk s receipts w.issued)
    (hclaim : s.claim = w.store.claim)
    (hactive : s.active = w.store.active ∨ s.active = none ∨
      ∃ d, s.active = some d ∧ d.executable = true) :
    Inv { w.goesOn process phase with store := s, receipts } := by
  refine h.moves hheld (fun q hne => ?_) (fun phase' hphase' => ?_) rfl rfl rfl hrecords
    (.inr hclaim) hactive
  · simp [World.goesOn, update_of_ne hne]
  · simp only [World.goesOn, update_self] at hphase'
    cases hphase'
    exact ⟨hself, hphase⟩

theorem relabel {workers' : ProcessIdentity → Option WorkerPhase}
    (hsub : ∀ q phase, workers' q = some phase →
      WorkerOk w q phase ∧ ∃ phase₀, w.workers q = some phase₀ ∧
        phase.claim = phase₀.claim ∧ phase.job = phase₀.job) :
    Inv { w with workers := workers' } where
  records := h.records
  workers q phase hq := (hsub q phase hq).1.same rfl rfl rfl
  claim := by
    intro c hc
    refine ⟨(h.claim c hc).1, fun phase hphase => ?_⟩
    obtain ⟨-, phase₀, hp₀, hclaim, -⟩ := hsub _ phase hphase
    rw [hclaim]
    exact (h.claim c hc).2 phase₀ hp₀
  processes := by
    intro q phase hq
    obtain ⟨-, phase₀, hp₀, -⟩ := hsub q phase hq
    exact h.processes q phase₀ hp₀
  untouched := by
    intro job hpending
    refine ⟨fun q phase hq => ?_, (h.untouched job hpending).2⟩
    obtain ⟨-, phase₀, hp₀, hclaim, hjob⟩ := hsub q phase hq
    rw [hclaim, hjob]
    exact (h.untouched job hpending).1 q phase₀ hp₀
  coordinator := h.coordinator.same rfl rfl rfl

theorem exits : Inv (w.exits process) := by
  refine h.relabel fun q phase hq => ?_
  rw [update_apply] at hq
  split at hq
  · cases hq
  · exact ⟨h.workers q phase hq, phase, hq, rfl, rfl⟩

end

variable {d : NativeApplyDispatchRecord}

section

variable (h : Inv w)
include h

theorem waits {phase₀ : WorkerPhase} (hp : w.workers process = some phase₀)
    (hclaim : phase₀.claim = none) (hjob : phase₀.job = some d.applyJobId)
    (hissued : d.applyJobId ∈ w.issued) (hprocess : claim.process = process) :
    Inv (w.goesOn process (.reclaiming d claim)) := by
  refine h.relabel fun q phase hq => ?_
  rw [update_apply] at hq
  split at hq
  · rename_i hsame
    subst hsame
    cases hq
    exact ⟨⟨hissued, hprocess⟩, phase₀, hp, hclaim.symm, hjob.symm⟩
  · exact ⟨h.workers q phase hq, phase, hq, rfl, rfl⟩

theorem dropsClaim (hdead : ∀ claim, w.store.claim = some claim → w.live claim.process = false) :
    Inv { w with store := { w.store with claim := none } } := by
  have hunclaimed := h.unclaimed_of_dead hdead
  refine ⟨{ h.records with }, ?_, ?_, h.processes,
    h.untouched, ?_⟩
  · intro q phase hq
    exact (h.workers q phase hq).congr (hunclaimed q phase hq) (by simp)
  · intro c hc
    cases hc
  · exact h.coordinator.same rfl rfl rfl

/-- **A worker takes the claim** and begins with a dispatch that has no receipt. -/
theorem takes {phase₀ : WorkerPhase} (hp : w.workers process = some phase₀)
    (hjob : phase₀.job = some d.applyJobId) (hclaim : w.store.claim = none)
    (hactive : w.store.active = some d) (hmatches : claim.matchesDispatch d = true)
    (hprocess : claim.process = process)
    (hsettled : ∀ receipt ∈ w.receipts, receipt.dispatch.applyJobId ≠ d.applyJobId) :
    Inv { w.goesOn process (.executing claim d) with
      store := { w.store with claim := some claim } } := by
  have hexecutable := executable_of_matches hmatches
  -- the job is not pending: this worker was started for it
  have hpending : ¬ Pending w d.applyJobId := by
    intro hpending
    exact ((h.untouched _ hpending).1 process phase₀ hp).2 hjob
  have hnone : ∀ job, ¬ Pending w job := by
    rintro job (⟨active, ha, hstate, -⟩ | ⟨candidate, hcreating, -⟩ | ⟨dispatch, hval, -⟩)
    · cases ha.symm.trans hactive
      exact not_accepted hexecutable hstate
    · have hok := h.coordinated hcreating
      rw [hok.1] at hactive
      cases hactive
    · have hok := h.coordinated hval
      obtain rfl := some.inj (hok.1.symm.trans hactive)
      exact hpending (.inr (.inr ⟨dispatch, hval, rfl⟩))
  refine ⟨{ h.records with }, ?_, ?_, ?_, ?_, ?_⟩
  · intro q phase hq
    simp only [World.goesOn, update_apply] at hq
    split at hq
    · rename_i hsame
      subst hsame
      cases hq
      exact ⟨rfl, hprocess, hactive, hmatches, hsettled⟩
    · exact (h.workers q phase hq).congr (h.unclaimed hclaim hq) (by simp [World.goesOn])
  · intro c hc
    cases hc
    rw [hprocess]
    refine ⟨h.processes process phase₀ hp, fun phase hphase => ?_⟩
    simp only [World.goesOn, update_self] at hphase
    cases hphase
    rfl
  · intro q phase hq
    simp only [World.goesOn, update_apply] at hq
    split at hq
    · rename_i hsame
      subst hsame
      exact h.processes q phase₀ hp
    · exact h.processes q phase hq
  · intro job hjob'
    exact absurd hjob' (hnone job)
  · exact h.coordinator.same rfl rfl rfl

theorem issues (job : Text) : Inv { w with issued := job :: w.issued } := { h with
  records :=
    { h.records with
      receiptsIssued := fun receipt hr => mem_cons_of_mem _ (h.records.receiptsIssued receipt hr)
      activeIssued := fun active ha => mem_cons_of_mem _ (h.records.activeIssued active ha) }
  workers := by
    intro q phase hq
    have hok := h.workers q phase hq
    cases phase with
    | launched j => exact mem_cons_of_mem _ hok
    | reclaiming d c => exact ⟨mem_cons_of_mem _ hok.1, hok.2⟩
    | _ => exact hok
  coordinator := by
    have hok := h.coordinator
    revert hok
    cases w.coordinator with
    | creating c => exact fun hok => ⟨hok.1, hok.2.1, mem_cons_of_mem _ hok.2.2⟩
    | launching d => exact fun hok => ⟨mem_cons_of_mem _ hok.1, hok.2⟩
    | _ => exact id }

theorem turns {phase : CoordinatorPhase} (hok : CoordinatorOk w phase)
    (hcreating : ∀ candidate, phase = .creating candidate → Untouched w candidate.applyJobId)
    (hvalidated : ∀ dispatch, phase = .validated dispatch → Untouched w dispatch.applyJobId) :
    Inv { w with coordinator := phase } := { h with
  workers q ph hq := (h.workers q ph hq).same rfl rfl rfl
  untouched := by
    rintro job (hactive | ⟨candidate, hc, rfl⟩ | ⟨dispatch, hd, rfl⟩)
    · exact h.untouched job (.inl hactive)
    · exact hcreating candidate hc
    · exact hvalidated dispatch hd
  coordinator := hok.same rfl rfl rfl }

theorem child (child : Option ProcessIdentity) : Inv { w with child } := { h with
  workers q ph hq := (h.workers q ph hq).same rfl rfl rfl
  coordinator := h.coordinator.same rfl rfl rfl }

theorem turnsReady : Inv { w with coordinator := .ready } :=
  h.turns trivial nofun nofun

theorem turnsLaunching (hactive : w.store.active = some d) (hexecutable : d.executable = true) :
    Inv { w with coordinator := .launching d } := by
  refine h.turns ⟨h.records.activeIssued d hactive, fun active ha => ?_⟩ nofun nofun
  cases hactive.symm.trans ha
  exact not_accepted hexecutable

theorem removesActive {terminal : NativeApplyTerminalRecord} (hready : w.coordinator = .ready)
    (hterminal : w.store.terminal = some terminal)
    (hactive : w.store.active = some terminal.dispatch) :
    Inv { w with store := w.store.removeActive } := { h with
  records := { h.records with activeIssued := nofun, pair := nofun, settled := nofun }
  workers := by
    intro q phase hq
    have hok := h.workers q phase hq
    cases phase with
    | launched j => exact hok
    | reclaiming d c => exact hok
    | executing c d =>
      -- its dispatch has no receipt, and the active one has
      obtain ⟨-, -, hactive', -, hnone⟩ := hok
      cases hactive.symm.trans hactive'
      exact absurd rfl (hnone terminal (h.records.recorded terminal hterminal))
    | publishing c t => exact ⟨hok.1, hok.2.1, hok.2.2.1, hok.2.2.2.1, nofun⟩
    | finishing c => exact ⟨hok.1, hok.2.1, nofun⟩
  untouched := by
    rintro job (⟨active, ha, -⟩ | ⟨candidate, hc, -⟩ | ⟨dispatch, hd, -⟩)
    · cases ha
    · rw [show w.coordinator = .creating candidate from hc] at hready
      cases hready
    · rw [show w.coordinator = .validated dispatch from hd] at hready
      cases hready
  coordinator := by
    rw [hready]
    trivial }

theorem removesTerminal
    (hother : ∀ active terminal, w.store.active = some active → w.store.terminal = some terminal →
      terminal.dispatch ≠ active)
    (hworkers : ∀ q c t, w.workers q ≠ some (.publishing c t)) :
    Inv { w with store := w.store.removeTerminal } := { h with
  records :=
    { h.records with
      recorded := nofun
      pair := nofun
      settled := by
        intro active ha receipt hr hjob
        obtain ⟨hterminal, hsame⟩ := h.records.settled active ha receipt hr hjob
        exact absurd hsame (hother active receipt ha hterminal) }
  workers := by
    intro q phase hq
    have hok := h.workers q phase hq
    cases phase with
    | publishing c t => exact absurd hq (hworkers q c t)
    | _ => exact hok
  coordinator := by
    have hok := h.coordinator
    revert hok
    cases w.coordinator with
    | creating c => exact fun hok => ⟨hok.1, rfl, hok.2.2⟩
    | _ => exact id }

/-- **A dispatch is created** for a job that nobody has touched. -/
theorem creates {phase : CoordinatorPhase} (hissued : d.applyJobId ∈ w.issued)
    (huntouched : Untouched w d.applyJobId)
    (hterminal : ∀ terminal, w.store.terminal = some terminal →
      terminal.dispatch.generation < d.generation ∧ terminal.dispatch.SameIntent d)
    (hphase : phase = .ready ∨ phase = .retiring ∧ d.state = .accepted) :
    Inv { w with store := { w.store with active := some d }, coordinator := phase } := { h with
  records :=
    { h.records with
      activeIssued := by
        intro active ha
        cases ha
        exact hissued
      pair := by
        intro active t ha ht
        cases ha
        exact .inr (hterminal t ht)
      settled := by
        intro active ha receipt hr hjob
        cases ha
        exact absurd hjob (huntouched.2 receipt hr) }
  workers := by
    intro q phase hq
    exact (h.workers q phase hq).congr (huntouched.1 q phase hq).1 (by simp)
  untouched := by
    rintro job (⟨active, ha, -, rfl⟩ | ⟨candidate, hc, -⟩ | ⟨dispatch, hd, -⟩)
    · cases ha
      exact huntouched
    · obtain rfl | ⟨rfl, -⟩ := hphase <;> cases hc
    · obtain rfl | ⟨rfl, -⟩ := hphase <;> cases hd
  coordinator := by
    obtain rfl | ⟨rfl, hstate⟩ := hphase
    · trivial
    · exact ⟨d, rfl, hstate⟩ }

/-- **A dispatch is marked as validating.** -/
theorem validates {active : NativeApplyDispatchRecord} (hactive : w.store.active = some active)
    (hstate : active.state = .accepted)
    (hd : d = { active with state := .validating, generation := active.generation + 1 }) :
    Inv { w with
      store := { w.store with active := some d }
      coordinator := .validated d } := by
  have huntouched : Untouched w active.applyJobId :=
    h.untouched _ (.inl ⟨active, hactive, hstate, rfl⟩)
  have hjob : d.applyJobId = active.applyJobId := by rw [hd]
  have hexecutable : d.executable = true := by rw [hd]; rfl
  refine ⟨?_, ?_, h.claim, h.processes, ?_, ?_⟩
  · refine ⟨h.records.recorded, h.records.unique, h.records.receiptsIssued, ?_, ?_, ?_⟩
    · intro active' ha
      cases ha
      rw [hjob]
      exact h.records.activeIssued active hactive
    · intro active' terminal ha ht
      cases ha
      obtain hsame | ⟨hgeneration, hintent⟩ := h.records.pair active terminal hactive ht
      · exact absurd (congrArg _ hsame) (huntouched.2 terminal (h.records.recorded terminal ht))
      · refine .inr ⟨?_, ?_⟩
        · rw [hd]
          exact Nat.lt_succ_of_lt hgeneration
        · rw [hd]
          exact hintent
    · intro active' ha receipt hr hsame
      cases ha
      rw [hjob] at hsame
      exact absurd hsame (huntouched.2 receipt hr)
  · intro q phase hq
    exact (h.workers q phase hq).congr (huntouched.1 q phase hq).1 (by simp)
  · rintro job (⟨active', ha, hstate', -⟩ | ⟨candidate, hc, -⟩ | ⟨dispatch, hv, rfl⟩)
    · cases ha
      exact absurd hstate' (not_accepted hexecutable)
    · cases hc
    · obtain rfl := CoordinatorPhase.validated.inj hv
      rw [hjob]
      exact huntouched
  · exact ⟨rfl, hexecutable⟩

/-- **A worker process is started.** -/
theorem spawns (hlaunching : w.coordinator = .launching d) (hfresh : process ∉ w.processes) :
    Inv { w with
      coordinator := .ready
      workers := Function.update w.workers process (some (.launched d.applyJobId))
      processes := process :: w.processes } := by
  have hok := h.coordinated hlaunching
  refine ⟨h.records, ?_, ?_, ?_, ?_, trivial⟩
  · intro q phase hq
    simp only [update_apply] at hq
    split at hq
    · cases hq
      exact hok.1
    · exact (h.workers q phase hq).same rfl rfl rfl
  · intro c hc
    obtain ⟨hknown, hphase⟩ := h.claim c hc
    refine ⟨mem_cons_of_mem _ hknown, fun phase hq => ?_⟩
    simp only [update_apply] at hq
    split at hq
    · rename_i hsame
      exact absurd (hsame ▸ hknown) hfresh
    · exact hphase phase hq
  · intro q phase hq
    simp only [update_apply] at hq
    split at hq
    · rename_i hsame
      exact hsame ▸ mem_cons_self
    · exact mem_cons_of_mem _ (h.processes q phase hq)
  · rintro job (⟨active, ha, hstate, -⟩ | ⟨candidate, hc, -⟩ | ⟨dispatch, hv, -⟩)
    · exact absurd hstate (hok.2 active ha)
    · cases hc
    · cases hv

theorem untouched_of_fresh {job : Text} (hfresh : job ∉ w.issued)
    (hunclaimed : ∀ q phase, w.workers q = some phase → phase.claim = none) : Untouched w job := by
  refine ⟨fun q phase hq => ⟨hunclaimed q phase hq, fun hjob => ?_⟩, fun receipt hr hjob => ?_⟩
  · have hok := h.workers q phase hq
    cases phase with
    | launched j =>
      cases hjob
      exact hfresh hok
    | reclaiming d c =>
      cases hjob
      exact hfresh hok.1
    | _ => cases hjob
  · exact hfresh (hjob ▸ h.records.receiptsIssued receipt hr)

end

end Inv

/-- What a step may change of the records. -/
structure Moved (w w' : World) : Prop where
  receipts : ∀ receipt ∈ w.receipts, receipt ∈ w'.receipts
  terminal : ∀ terminal, w'.store.terminal = some terminal →
    w.store.terminal = some terminal ∨ w.store.active = some terminal.dispatch
  active : ∀ active active', w.store.active = some active → w'.store.active = some active' →
    active' = active ∨ active.generation < active'.generation

theorem Moved.kept {w' : World} (hreceipts : w'.receipts = w.receipts)
    (hterminal : w'.store.terminal = w.store.terminal ∨ w'.store.terminal = none)
    (hactive : w'.store.active = w.store.active ∨ w'.store.active = none ∨
      w.store.active = none) : Moved w w' where
  receipts := by simp [hreceipts]
  terminal := by
    intro terminal ht
    obtain h | h := hterminal
    · exact .inl (h ▸ ht)
    · rw [h] at ht
      cases ht
  active := by
    intro active active' ha ha'
    obtain h | h | h := hactive
    · rw [h] at ha'
      exact .inl (some.inj (ha'.symm.trans ha))
    · rw [h] at ha'
      cases ha'
    · rw [h] at ha
      cases ha

/-- A step that keeps the invariant. -/
structure Step (w w' : World) : Prop where
  inv : Inv w'
  moved : Moved w w'

namespace Step

variable {w : World} {process : ProcessIdentity} {claim : NativeApplyWorkerClaim}

theorem quiet {w' : World} (h : Inv w') (hreceipts : w'.receipts = w.receipts)
    (hterminal : w'.store.terminal = w.store.terminal)
    (hactive : w'.store.active = w.store.active) : Step w w' :=
  ⟨h, .kept hreceipts (.inl hterminal) (.inl hactive)⟩

theorem refl (h : Inv w) : Step w w := quiet h rfl rfl rfl

theorem exits (h : Inv w) : Step w (w.exits process) :=
  quiet h.exits rfl rfl rfl

theorem finishes (h : Inv w) (hheld : Holds w process claim) :
    Step w (w.goesOn process (.finishing claim)) := by
  obtain ⟨phase, hp, hclaim⟩ := hheld
  have hok := (h.workers _ _ hp).held hclaim
  exact ⟨h.movesOn ⟨phase, hp, hclaim⟩ hok rfl h.records rfl (.inl rfl),
    .kept rfl (.inl rfl) (.inl rfl)⟩

variable {d : NativeApplyDispatchRecord} {s : NativeApplyCoordinatorStore} {applyJobId : Text}

section

variable (h : Inv w)
include h

/-- **A worker publishes a receipt** for the dispatch that it works on. -/
theorem publishes (hp : w.workers process = some (.executing claim d))
    (receipt : Option NativeApplyTerminalRecord) : Step w (w.publishes process claim receipt) := by
  have hheld : Holds w process claim := ⟨_, hp, rfl⟩
  unfold World.publishes
  split
  · exact finishes h hheld
  rename_i terminal
  split
  · exact finishes h hheld
  rename_i s hs
  obtain ⟨hactive, rfl⟩ := complete_eq_ok hs
  obtain ⟨hclaim, hprocess, hactive', hmatches, hnone⟩ := h.workers _ _ hp
  cases hactive.symm.trans hactive'
  have hrecords : RecordsOk { w.store with terminal := some terminal } (terminal :: w.receipts)
      w.issued := by
    refine ⟨?_, ?_, ?_, h.records.activeIssued, ?_, ?_⟩
    · intro t ht
      cases ht
      exact mem_cons_self
    · intro r hr r' hr' hjob
      obtain rfl | hold := mem_cons.1 hr
      · obtain rfl | hold' := mem_cons.1 hr'
        · rfl
        · exact absurd hjob.symm (hnone r' hold')
      · obtain rfl | hold' := mem_cons.1 hr'
        · exact absurd hjob (hnone r hold)
        · exact h.records.unique r hold r' hold' hjob
    · intro r hr
      obtain rfl | hold := mem_cons.1 hr
      · exact h.records.activeIssued _ hactive
      · exact h.records.receiptsIssued r hold
    · intro active t ha ht
      cases ht
      exact .inl (some.inj (hactive.symm.trans ha))
    · intro active ha r hr hjob
      cases hactive.symm.trans ha
      obtain rfl | hold := mem_cons.1 hr
      · exact ⟨rfl, rfl⟩
      · exact absurd hjob (hnone r hold)
  refine ⟨h.movesOn hheld ⟨hclaim, hprocess, rfl, hmatches,
    fun active ha => some.inj (ha.symm.trans hactive)⟩ rfl hrecords rfl (.inl rfl), ?_⟩
  · refine ⟨fun r hr => mem_cons_of_mem _ hr, ?_, ?_⟩
    · intro t ht
      cases ht
      exact .inr hactive
    · intro active active' ha ha'
      exact .inl (some.inj (ha'.symm.trans ha))

/-- **A worker marks its dispatch as applying**, or publishes that it could not verify it. -/
theorem verifies (hp : w.workers process = some (.executing claim d))
    (result : Except Text NativeApplyVerifiedDispatchIdentity) :
    Step w (w.verifies process claim d result) := by
  have hheld : Holds w process claim := ⟨_, hp, rfl⟩
  unfold World.verifies
  split
  · exact publishes h hp _
  split
  · exact finishes h hheld
  rename_i s applying hs
  obtain ⟨hactive, hstate, hgeneration, hjob, hintent, rfl⟩ :=
    markApplying_eq_ok hs
  obtain ⟨hclaim, hprocess, -, hmatches, hnone⟩ := h.workers _ _ hp
  have hexecutable : applying.executable = true := by
    simp [executable, hstate]
  have hmatches' : claim.matchesDispatch applying = true := by
    simp only [NativeApplyWorkerClaim.matchesDispatch, Bool.and_eq_true, beq_iff_eq,
      decide_eq_true_eq] at hmatches ⊢
    obtain ⟨⟨⟨h₁, h₂⟩, h₃⟩, -⟩ := hmatches
    exact ⟨⟨⟨h₁.trans hjob.symm, h₂.trans hintent.1⟩, by omega⟩, hexecutable⟩
  have hrecords : RecordsOk { w.store with active := some applying } w.receipts w.issued := by
    refine ⟨h.records.recorded, h.records.unique, h.records.receiptsIssued, ?_, ?_, ?_⟩
    · intro active ha
      cases ha
      rw [hjob]
      exact h.records.activeIssued d hactive
    · intro active t ha ht
      cases ha
      obtain hsame | ⟨hlt, hintent'⟩ := h.records.pair d t hactive ht
      · exact absurd (congrArg _ hsame) (hnone t (h.records.recorded t ht))
      · exact .inr ⟨by omega, hintent'.trans hintent⟩
    · intro active ha r hr hsame
      cases ha
      exact absurd (hsame.trans hjob) (hnone r hr)
  refine ⟨h.movesOn hheld ⟨hclaim, hprocess, rfl, hmatches',
    fun r hr => by rw [hjob]; exact hnone r hr⟩ rfl hrecords rfl
    (.inr (.inr ⟨applying, rfl, hexecutable⟩)), ?_⟩
  · refine ⟨fun r hr => hr, fun t ht => .inl ht, ?_⟩
    intro active active' ha ha'
    cases hactive.symm.trans ha
    cases ha'
    exact .inr (by omega)

/-- **A worker removes the active dispatch** whose receipt it has published. -/
theorem removesActive {terminal : NativeApplyTerminalRecord}
    (hp : w.workers process = some (.publishing claim terminal)) :
    Step w { w.goesOn process (.finishing claim) with store := w.store.removeActive } := by
  obtain ⟨hclaim, hprocess, -⟩ := h.workers _ _ hp
  have hrecords : RecordsOk w.store.removeActive w.receipts w.issued :=
    { h.records with activeIssued := nofun, pair := nofun, settled := nofun }
  exact ⟨h.movesOn ⟨_, hp, rfl⟩ ⟨hclaim, hprocess, nofun⟩ rfl hrecords rfl (.inr (.inl rfl)),
    .kept rfl (.inl rfl) (.inr (.inl rfl))⟩

/-- **A worker removes its claim** and exits. -/
theorem removesClaim (hp : w.workers process = some (.finishing claim))
    (hs : w.store.removeWorkerClaim claim = .ok s) :
    Step w { w.exits process with store := s } := by
  obtain rfl := removeWorkerClaim_eq_ok hs
  have hrecords : RecordsOk { w.store with claim := none } w.receipts w.issued :=
    { h.records with }
  refine ⟨h.moves ⟨_, hp, rfl⟩ ?_ ?_ rfl rfl rfl hrecords (.inl rfl) (.inl rfl),
    .kept rfl (.inl rfl) (.inl rfl)⟩
  · intro q hne
    simp [World.exits, update_of_ne hne]
  · intro phase' hphase'
    simp [World.exits] at hphase'

/-- **A worker claims its dispatch**, or it exits. -/
theorem claims (hhasty : ¬ Hasty w (.claim process))
    (hp : w.workers process = some (.launched applyJobId)) :
    Step w (w.claims process (startWorker w.store w.live applyJobId process)) := by
  unfold World.claims
  split
  · exact exits h
  rename_i s phase hs
  obtain ⟨active, claim, hactive, rfl, hprocess, hmatches, hcases⟩ := startWorker_eq_ok hs
  obtain ⟨hnone, rfl, rfl⟩ | hheld | ⟨hdead, rfl, rfl⟩ := hcases
  · refine quiet (h.takes hp rfl hnone hactive hmatches hprocess ?_) rfl rfl rfl
    intro receipt hr hjob
    obtain ⟨hterminal, rfl⟩ := h.records.settled active hactive receipt hr hjob
    exact hhasty ⟨⟨receipt, hterminal, hactive⟩, hnone, _, hactive, hp⟩
  · -- a process that was only started holds no claim
    have hphase := (h.claim claim hheld).2 (.launched active.applyJobId) (hprocess ▸ hp)
    cases hphase
  · have hdropped := h.dropsClaim hdead
    exact ⟨hdropped.waits hp rfl rfl (h.records.activeIssued active hactive) hprocess,
      .kept rfl (.inl rfl) (.inl rfl)⟩

/-- **A worker claims its dispatch again**, or it exits. -/
theorem reclaims (hhasty : ¬ Hasty w (.reclaim process))
    (hp : w.workers process = some (.reclaiming d claim)) :
    Step w (w.claims process (restartWorker w.store d claim)) := by
  unfold World.claims
  split
  · exact exits h
  rename_i s phase hs
  obtain ⟨hactive, hmatches, hnone, rfl, rfl⟩ := restartWorker_eq_ok hs
  obtain ⟨-, hprocess⟩ := h.workers _ _ hp
  refine quiet (h.takes hp rfl hnone hactive hmatches hprocess ?_) rfl rfl rfl
  intro receipt hr hjob
  obtain ⟨hterminal, rfl⟩ := h.records.settled d hactive receipt hr hjob
  exact hhasty ⟨⟨receipt, hterminal, hactive⟩, hnone, _, hactive, _, hp⟩

/-- **Every event of a worker.** -/
theorem of_worker {e : Event} (he : e.worker = some process) (hhasty : ¬ Hasty w e)
    (hp : w.workers process = some phase) : Step w (w.workerStep process phase e) := by
  cases e with
  | claim q =>
    cases he
    cases phase with
    | launched job => exact claims h hhasty hp
    | _ => exact refl h
  | reclaim q =>
    cases he
    cases phase with
    | reclaiming d c => exact reclaims h hhasty hp
    | _ => exact refl h
  | verify q result =>
    cases phase with
    | executing c d =>
      simp only [World.workerStep]
      split
      · exact verifies h hp result
      · exact refl h
    | _ => exact refl h
  | execute q execution =>
    cases phase with
    | executing c d =>
      simp only [World.workerStep]
      split
      · split
        · exact finishes h ⟨_, hp, rfl⟩
        · exact publishes h hp _
      · exact refl h
    | _ => exact refl h
  | removeActive q =>
    cases phase with
    | publishing c t => exact removesActive h hp
    | _ => exact refl h
  | workerFails q =>
    simp only [World.workerStep]
    split
    · rename_i c hc
      exact finishes h ⟨phase, hp, hc⟩
    · exact exits h
  | removeClaim q =>
    cases phase with
    | finishing c =>
      simp only [World.workerStep]
      split
      · exact exits h
      · rename_i s hs
        exact removesClaim h hp hs
    | _ => exact refl h
  | workerDies q => exact exits h
  | _ => cases he

theorem admits {request : NativeApplyControlRequest} {applyJobToken : Text}
    {gate : Except String Unit} (hready : w.coordinator = .ready) (hfresh : applyJobId ∉ w.issued)
    (hhasty : ¬ Hasty w (.admission request applyJobId applyJobToken gate)) :
    Step w (w.handleStart request applyJobId applyJobToken gate) := by
  have hissues := h.issues applyJobId
  -- where the dispatch is new, no live process holds the claim
  have huntouched {answer} (hs : w.store.admitWithGate request
        (candidateFor request applyJobId applyJobToken) gate = .ok answer)
      (hactive : w.store.active = none)
      (hother : ∀ terminal, w.store.terminal = some terminal →
        terminal.dispatch.matchesStart request = false) : Untouched w applyJobId := by
    have hgate := gate_of_admitWithGate hactive hother hs
    refine h.untouched_of_fresh hfresh (h.unclaimed_of_dead fun claim hclaim => ?_)
    by_contra hlive
    exact hhasty ⟨hready, hgate, hactive, hother, claim, hclaim, by simpa using hlive⟩
  simp only [World.handleStart]
  split
  · exact quiet hissues rfl rfl rfl
  · rename_i s admission hs
    obtain ⟨-, hadmitted⟩ := admitWithGate_admitted hs
    cases hadmitted with
    | settled hactive hterminal =>
      exact ⟨hissues.removesActive hready hterminal hactive, .kept rfl (.inl rfl) (.inr (.inl rfl))⟩
    | @newer active terminal hactive hterminal hgeneration =>
      have hne : terminal.dispatch ≠ active := by
        rintro rfl
        exact absurd hgeneration (lt_irrefl _)
      refine ⟨hissues.removesTerminal ?_ ?_, .kept rfl (.inr rfl) (.inl rfl)⟩
      · intro active' terminal' ha ht
        cases hactive.symm.trans ha
        cases hterminal.symm.trans ht
        exact hne
      · intro q c t hq
        obtain ⟨-, -, ht, -, hdispatch⟩ := h.workers _ _ hq
        cases hterminal.symm.trans ht
        exact hne (hdispatch active hactive).symm
    | kept => exact quiet hissues rfl rfl rfl
    | creates hactive hterminal =>
      have hnone : ∀ terminal, w.store.terminal = some terminal → False := by
        intro terminal ht
        rw [show w.store.terminal = none from hterminal] at ht
        cases ht
      refine ⟨hissues.creates mem_cons_self
        (huntouched hs hactive fun terminal ht => (hnone terminal ht).elim)
        (fun terminal ht => (hnone terminal ht).elim) (.inl hready),
        .kept rfl (.inl rfl) (.inr (.inr hactive))⟩
  · rename_i s candidate hs
    obtain ⟨-, hadmitted⟩ := admitWithGate_admitted hs
    cases hadmitted with
    | clears hactive hterminal hother =>
      have huntouched := huntouched hs hactive fun terminal' ht => by
        cases hterminal.symm.trans ht
        exact hother
      have hremoved := hissues.removesTerminal
        (fun active terminal ha => by
          rw [show w.store.active = none from hactive] at ha
          cases ha)
        (fun q c t hq => by cases (huntouched.1 q _ hq).1)
      refine ⟨hremoved.turns ⟨hactive, rfl, mem_cons_self⟩ ?_ ?_, .kept rfl (.inr rfl) (.inl rfl)⟩
      · intro candidate hc
        obtain rfl := CoordinatorPhase.creating.inj hc
        exact huntouched
      · intro dispatch hd
        cases hd

/-- **An admission writes its dispatch.** -/
theorem creates {candidate : NativeApplyDispatchRecord}
    (hcreating : w.coordinator = .creating candidate)
    (hs : w.store.writeNewActive candidate = .ok s) :
    Step w { w with store := s, coordinator := .ready } := by
  obtain ⟨hactive, rfl⟩ := writeNewActive_eq_ok.1 hs
  obtain ⟨-, hterminal, hissued⟩ := h.coordinated hcreating
  have huntouched := h.untouched _ (.inr (.inl ⟨candidate, hcreating, rfl⟩))
  refine ⟨h.creates hissued huntouched ?_ (.inl rfl), .kept rfl (.inl rfl) (.inr (.inr hactive))⟩
  intro terminal ht
  rw [hterminal] at ht
  cases ht

/-- **A receipt is rearmed.** -/
theorem rearms {request : NativeApplyControlRequest} {expected : NativeApplyTerminalRecord}
    {applyJobToken : Text} {gate : Except String Unit} (hfresh : applyJobId ∉ w.issued) :
    Step w (w.rearm request expected applyJobId applyJobToken gate) := by
  have hissues := h.issues applyJobId
  simp only [World.rearm]
  split
  · exact quiet hissues rfl rfl rfl
  rename_i s d hs
  obtain ⟨hactive, hclaim, hterminal, hintent, hstate, rfl, rfl⟩ :=
    rearm_eq_ok hs
  have huntouched := h.untouched_of_fresh hfresh fun q phase hq => h.unclaimed hclaim hq
  refine ⟨hissues.creates mem_cons_self huntouched ?_ (.inr ⟨rfl, hstate⟩),
    .kept rfl (.inl rfl) (.inr (.inr hactive))⟩
  intro terminal ht
  cases hterminal.symm.trans ht
  exact ⟨Nat.lt_succ_self _, hintent⟩

/-- **A rearm removes the receipt that it replaced.** -/
theorem retires (hretiring : w.coordinator = .retiring) :
    Step w { w with store := w.store.removeTerminal, coordinator := .ready } := by
  obtain ⟨active, hactive, hstate⟩ := h.coordinated hretiring
  have huntouched := h.untouched _ (.inl ⟨active, hactive, hstate, rfl⟩)
  refine ⟨(h.removesTerminal ?_ ?_).turnsReady, .kept rfl (.inr rfl) (.inl rfl)⟩
  · rintro active' terminal ha ht rfl
    cases hactive.symm.trans ha
    exact huntouched.2 terminal (h.records.recorded terminal ht) rfl
  · intro q c t hq
    cases (huntouched.1 q _ hq).1

/-- **A reconciliation looks at the worker claim.** -/
theorem looksAtClaim (hactive : w.store.active = some d) (hexecutable : d.executable = true)
    {readiness : NativeApplyWorkerReadiness}
    (hs : w.store.reconcileClaim w.live d = .ok (s, readiness)) :
    Step w (w.follow s readiness) := by
  obtain ⟨claim, -, -, rfl, rfl⟩ | ⟨hdead, rfl, rfl⟩ :=
    reconcileClaim_eq_ok hs
  · exact quiet h.turnsReady rfl rfl rfl
  · exact quiet ((h.dropsClaim hdead).turnsLaunching hactive hexecutable) rfl rfl rfl

theorem idles {readiness : NativeApplyWorkerReadiness}
    (hs : w.store.reconcileIdle w.live = .ok (s, readiness)) : Step w (w.follow s readiness) := by
  obtain ⟨hlaunch, hstore⟩ := reconcileIdle_eq_ok hs
  have hfollow : w.follow s readiness = { w with store := s, coordinator := .ready } := by
    cases readiness with
    | launch d => exact absurd rfl (hlaunch d)
    | idle => rfl
    | live p => rfl
  rw [hfollow]
  obtain rfl | ⟨hdead, rfl⟩ := hstore
  · exact quiet h.turnsReady rfl rfl rfl
  · exact quiet ((h.dropsClaim hdead).turnsReady) rfl rfl rfl

/-- **A reconciliation.** -/
theorem reconciles : Step w w.reconcile := by
  unfold World.reconcile reconcile
  cases hactive : w.store.active with
  | none =>
    cases hs : w.store.reconcileIdle w.live with
    | error e => exact refl h
    | ok answer => exact idles h hs
  | some active =>
    by_cases hstate : active.state = .accepted
    · cases hs : w.store.markValidating active with
      | error e => simpa [hstate, hs, Except.map] using refl h
      | ok answer =>
        obtain ⟨-, -, hd, hstore⟩ := markValidating_eq_ok hs
        have hmoved : Moved w { w with store := answer.1, coordinator := .validated answer.2 } := by
          refine ⟨fun r hr => hr, ?_, ?_⟩
          · intro terminal ht
            rw [hstore] at ht
            exact .inl ht
          · intro a a' ha ha'
            rw [hstore] at ha'
            cases hactive.symm.trans ha
            cases ha'
            rw [hd]
            exact .inr (Nat.lt_succ_self _)
        have hinv := h.validates hactive hstate hd
        rw [← hstore] at hinv
        simpa [hstate, hs, Except.map] using (⟨hinv, hmoved⟩ : Step w _)
    · have hexecutable : active.executable = true := by
        unfold executable
        revert hstate
        cases active.state <;> simp
      cases hs : w.store.reconcileClaim w.live active with
      | error e => simpa [hstate, hs, Except.map] using refl h
      | ok answer =>
        simpa [hstate, hs, Except.map] using looksAtClaim h hactive hexecutable hs

/-- **The coordinator drives a native Apply.** -/
theorem drives : Step w w.driveNativeApplyInner := by
  unfold World.driveNativeApplyInner
  split
  · exact refl h
  · have hstep := reconciles (h.child none)
    exact ⟨hstep.inv, hstep.moved.receipts, hstep.moved.terminal, hstep.moved.active⟩

/-- **A worker process is started**, or its dispatch is none to execute. -/
theorem spawns (hlaunching : w.coordinator = .launching d) (hfresh : process ∉ w.processes) :
    Step w (w.spawn process d) := by
  simp only [World.spawn]
  split
  · exact quiet h.turnsReady rfl rfl rfl
  split
  · exact quiet ((h.spawns hlaunching hfresh).child (some process)) rfl rfl rfl
  · exact quiet h.turnsReady rfl rfl rfl

/-- **Every event of the coordinator.** -/
theorem of_coordinator {e : Event} (hfresh : Fresh w e) (hhasty : ¬ Hasty w e) :
    Step w (w.coordinatorStep e) := by
  cases e with
  | admission request applyJobId applyJobToken gate =>
    simp only [World.coordinatorStep]
    split
    · rename_i hready
      exact admits h hready hfresh hhasty
    · exact refl h
  | create =>
    simp only [World.coordinatorStep]
    split
    · rename_i candidate hcreating
      split
      · exact quiet h.turnsReady rfl rfl rfl
      · rename_i s hs
        exact creates h hcreating hs
    · exact refl h
  | rearm request expected applyJobId applyJobToken gate =>
    simp only [World.coordinatorStep]
    split
    · exact rearms h hfresh
    · exact refl h
  | retire =>
    simp only [World.coordinatorStep]
    split
    · rename_i hretiring
      exact retires h hretiring
    · exact refl h
  | reconcile =>
    simp only [World.coordinatorStep]
    split
    · exact drives h
    · exact refl h
  | lookAtClaim =>
    simp only [World.coordinatorStep]
    split
    · rename_i d hvalidated
      have hok := h.coordinated hvalidated
      split
      · exact quiet h.turnsReady rfl rfl rfl
      · rename_i s readiness hs
        exact looksAtClaim h hok.1 hok.2 hs
    · exact refl h
  | spawn process =>
    simp only [World.coordinatorStep]
    split
    · rename_i d hlaunching
      exact spawns h hlaunching hfresh
    · exact refl h
  | coordinatorStops => exact quiet (h.turnsReady.child none) rfl rfl rfl
  | _ => exact refl h

/-- **Every event keeps the invariant.** -/
theorem of_event {e : Event} (hfresh : Fresh w e) (hhasty : ¬ Hasty w e) : Step w (w.step e) := by
  unfold World.step
  split
  · exact of_coordinator h hfresh hhasty
  · rename_i p hp
    split
    · exact refl h
    · rename_i phase hphase
      exact of_worker h hp hhasty hphase

end

end Step

section

variable {w : World} {e : Event}

/-- A reconciliation that answers `Launch` at once is for the active dispatch, and no live
process holds the claim. -/
theorem reconcile_launch {s s' : NativeApplyCoordinatorStore} {live : ProcessIdentity → Bool}
    {dispatch : NativeApplyDispatchRecord}
    (h : s.reconcile live = .ok (s', .answered (.launch dispatch))) :
    s.active = some dispatch ∧ ∀ claim, s.claim = some claim → live claim.process = false := by
  unfold reconcile at h
  split at h
  · obtain ⟨answer, hs, h⟩ := map_ok.mp h
    simp only [Prod.mk.injEq, Reconciling.answered.injEq] at h
    obtain ⟨hlaunch, -⟩ := reconcileIdle_eq_ok hs
    exact absurd h.2 (hlaunch dispatch)
  · rename_i active hactive
    split at h
    · obtain ⟨answer, -, h⟩ := map_ok.mp h
      simp at h
    · obtain ⟨answer, hs, h⟩ := map_ok.mp h
      simp only [Prod.mk.injEq, Reconciling.answered.injEq] at h
      obtain ⟨claim, -, -, -, hlive⟩ | ⟨hdead, -, hlaunch⟩ :=
        reconcileClaim_eq_ok hs
      · rw [hlive] at h
        cases h.2
      · rw [hlaunch] at h
        obtain rfl := launch.inj h.2
        exact ⟨hactive, hdead⟩

theorem Inv.launched (h : Inv w) (hhasty : ¬ Hasty w e) {dispatch : NativeApplyDispatchRecord}
    (hlaunch : w.readiness e = some (.launch dispatch)) :
    ∀ receipt ∈ w.receipts, receipt.dispatch.applyJobId ≠ dispatch.applyJobId := by
  cases e with
  | reconcile =>
    simp only [World.readiness] at hlaunch
    split at hlaunch
    · rename_i hready
      split at hlaunch
      · cases hlaunch
      · rename_i hchild
        split at hlaunch
        · rename_i s readiness hs
          cases hlaunch
          obtain ⟨hactive, hdead⟩ := reconcile_launch hs
          intro receipt hr hjob
          obtain ⟨hterminal, rfl⟩ := h.records.settled dispatch hactive receipt hr hjob
          exact hhasty ⟨hready, by simpa using hchild, ⟨receipt, hterminal, hactive⟩, hdead⟩
        · cases hlaunch
    · cases hlaunch
  | lookAtClaim =>
    simp only [World.readiness] at hlaunch
    split at hlaunch
    · rename_i d hvalidated
      split at hlaunch
      · rename_i s readiness hs
        cases hlaunch
        obtain ⟨claim, -, -, -, hlive⟩ | ⟨-, -, hd⟩ :=
          reconcileClaim_eq_ok hs
        · cases hlive
        · obtain rfl := launch.inj hd
          exact (h.untouched _ (.inr (.inr ⟨_, hvalidated, rfl⟩))).2
      · cases hlaunch
    · cases hlaunch
  | _ => cases hlaunch

theorem rearm_generation {request : NativeApplyControlRequest}
    {expected : NativeApplyTerminalRecord} {applyJobId applyJobToken : Text}
    {gate : Except String Unit} {active : NativeApplyDispatchRecord} (hnone : w.store.active = none)
    (hactive : (w.step (.rearm request expected applyJobId applyJobToken gate)).store.active =
      some active) :
    w.store.terminal = some expected ∧ expected.dispatch.generation < active.generation := by
  simp only [World.step, Event.worker, World.coordinatorStep] at hactive
  split at hactive
  · simp only [World.rearm] at hactive
    split at hactive
    · rw [hnone] at hactive
      cases hactive
    · rename_i s d hs
      obtain ⟨-, -, hterminal, -, -, hd, rfl⟩ := rearm_eq_ok hs
      cases hactive
      rw [hd]
      exact ⟨hterminal, Nat.lt_succ_self _⟩
  · rw [hnone] at hactive
    cases hactive

theorem Inv.admitted (h : Inv w) {request : NativeApplyControlRequest}
    {candidate : NativeApplyDispatchRecord} {gate : Except String Unit} {error : String}
    (hvalid : request.validate = .ok ()) (hstart : request.command = .start)
    (hcandidate : candidate.validate = .ok ()) (hmatches : candidate.matchesStart request = true)
    (howns : ∀ active, w.store.active = some active → active.matchesStart request = true)
    (herror : w.store.admitWithGate request candidate gate = .error error) :
    gate = .error error := by
  simp only [admitWithGate, hvalid, hstart, hcandidate, hmatches, check] at herror
  replace herror : w.store.admitRecords request candidate gate = .error error := herror
  unfold admitRecords at herror
  split at herror
  · -- both records are there: they are a pair, or the dispatch is newer
    rename_i active terminal hactive hterminal
    have hactive' := howns active hactive
    unfold admitBoth at herror
    obtain rfl | ⟨hgeneration, hintent⟩ := h.records.pair active terminal hactive hterminal
    · simp [hactive'] at herror
    · have hterminal' := hintent.symm.matchesStart hactive'
      have hne : terminal.dispatch ≠ active := by
        rintro rfl
        exact absurd hgeneration (lt_irrefl _)
      simp [hne, hgeneration, hactive', hterminal'] at herror
  · rename_i active hactive hterminal
    simp [howns active hactive] at herror
  · split at herror
    · cases herror
    · cases gate with
      | error error' =>
        cases herror
        rfl
      | ok u => cases herror
  · rename_i hactive hterminal
    cases gate with
    | error error' =>
      cases herror
      rfl
    | ok u =>
      simp [writeNewActive, hactive, bind, Except.bind, pure, Except.pure] at herror

/-- **One step is sound.** -/
theorem Inv.sound (h : Inv w) (hfresh : Fresh w e) (hhasty : ¬ Hasty w e) : Sound w e := by
  obtain ⟨hinv, hmoved⟩ := Step.of_event h hfresh hhasty
  -- a job has one receipt, also after the step
  have hunique : ∀ terminal receipt, terminal ∈ w.receipts → receipt ∈ (w.step e).receipts →
      receipt.dispatch.applyJobId = terminal.dispatch.applyJobId → receipt = terminal :=
    fun terminal receipt ht hr hjob =>
      hinv.records.unique receipt hr terminal (hmoved.receipts terminal ht) hjob
  constructor
  case launched => exact fun dispatch hlaunch => h.launched hhasty hlaunch
  case recorded => exact hinv.records.recorded
  case outcome =>
    intro receipt hr receipt' hr' hjob
    rw [hunique receipt receipt' hr hr' hjob]
  case replaced =>
    intro terminal terminal' ht ht' hne
    have hrecorded := h.records.recorded terminal ht
    have hrecorded' := hinv.records.recorded terminal' ht'
    have hjob : terminal.dispatch.applyJobId ≠ terminal'.dispatch.applyJobId :=
      fun hjob => hne (hunique terminal terminal' hrecorded hrecorded' hjob.symm)
    obtain hsame | hactive := hmoved.terminal terminal' ht'
    · exact absurd (some.inj (hsame.symm.trans ht)) hne
    · obtain hdispatch | ⟨hgeneration, -⟩ := h.records.pair _ terminal hactive ht
      · exact absurd (congrArg _ hdispatch) hjob
      · exact ⟨hgeneration, hjob⟩
  case generation =>
    intro active active' ha ha' hne
    obtain hsame | hgeneration := hmoved.active active active' ha ha'
    · exact absurd hsame hne
    · exact hgeneration
  case rearmed =>
    rintro request expected applyJobId applyJobToken gate active rfl hnone hactive
    exact rearm_generation hnone hactive
  case alone =>
    rintro process process' claim claim' ⟨phase, hp, hclaim⟩ ⟨phase', hp', hclaim'⟩
    obtain ⟨hstore, hprocess, -⟩ := (hinv.workers _ _ hp).held hclaim
    obtain ⟨hstore', hprocess', -⟩ := (hinv.workers _ _ hp').held hclaim'
    cases hstore.symm.trans hstore'
    exact hprocess.symm.trans hprocess'
  case owns =>
    rintro process claim ⟨phase, hp, hclaim⟩
    exact (hinv.workers _ _ hp).held hclaim
  case admitted =>
    intro request candidate gate error hvalid hstart hcandidate hmatches howns herror
    exact h.admitted hvalid hstart hcandidate hmatches howns herror

end

theorem sound_along (h : Inv w) (events : List Event)
    (hevents : Along World.step (fun w e => Fresh w e ∧ ¬ Hasty w e) w events) :
    Along World.step Sound w events := by
  induction events generalizing w with
  | nil => trivial
  | cons e events ih =>
    obtain ⟨⟨hfresh, hhasty⟩, hrest⟩ := hevents
    exact ⟨h.sound hfresh hhasty, ih (Step.of_event h hfresh hhasty).inv hrest⟩

/-- **A native Apply reaches one final answer** in every run in which nobody takes up a
dispatch whose receipt is there or creates one while a worker holds its claim. -/
theorem native_apply_one_final_answer (events : List Event)
    (hevents : Along World.step (fun w e => Fresh w e ∧ ¬ Hasty w e) .start events) :
    Along World.step Sound .start events :=
  sound_along .start events hevents

def sampleRequest : NativeApplyControlRequest where
  requestId := replicate 32 '1'
  command := .start
  sourceJobId := some (replicate 32 '2')
  applyJobId := none
  applyJobToken := none
  optionId := some (lit "balanced")
  reviewSha256 := some (replicate 64 '3')
  manifestSha256 := some (replicate 64 '4')
  acknowledgements := [.downloadIcmpLatency, .uploadIcmpLatency]
  observedGeneration := none

def sampleVerified : NativeApplyVerifiedDispatchIdentity where
  workerRunId := replicate 32 '5'
  sourceManifestSha256 := replicate 64 '6'
  manifestSchemaVersion := 1
  targetState := lit "existing_managed"

def sampleProcess (pid : UInt32) : ProcessIdentity := ⟨pid, pid, 4711⟩

def sampleWorker (pid : UInt32) (execution : Execution) : List Event :=
  [.reconcile, .lookAtClaim, .spawn (sampleProcess pid), .claim (sampleProcess pid),
    .verify (sampleProcess pid) (.ok sampleVerified), .execute (sampleProcess pid) execution]

def sampleApply (execution : Execution) : List Event :=
  .admission sampleRequest (replicate 32 'a') (replicate 64 'b') (.ok ()) ::
    sampleWorker 100 execution

def sampleReceipt : NativeApplyTerminalRecord where
  dispatch :=
    { candidateFor sampleRequest (replicate 32 'a') (replicate 64 'b') with
      state := .applying
      generation := 3
      workerRunId := sampleVerified.workerRunId
      sourceManifestSha256 := sampleVerified.sourceManifestSha256
      manifestSchemaVersion := sampleVerified.manifestSchemaVersion
      targetState := sampleVerified.targetState }
  outcome := .failed
  recoveryCleared := true
  diagnostic := lit "controller is not ready"

def sampleRearmed : List Event :=
  sampleApply (.failed (lit "controller is not ready")) ++
    [.removeActive (sampleProcess 100), .removeClaim (sampleProcess 100),
      .rearm sampleRequest sampleReceipt (replicate 32 'c') (replicate 64 'd') (.ok ()),
      .retire] ++
    sampleWorker 200 (.committed .applied true) ++
    [.removeActive (sampleProcess 200), .removeClaim (sampleProcess 200)]

theorem rearmed_one_final_answer :
    (run World.step .start sampleRearmed).receipts.map (·.outcome) = [.applied, .failed] ∧
      Along World.step Sound .start sampleRearmed :=
  ⟨by decide +kernel, native_apply_one_final_answer _ (by decide +kernel)⟩

def sampleCrash : List Event :=
  sampleApply (.committed .applied true) ++ [.workerDies (sampleProcess 100)]

def sampleRelaunch : List Event :=
  [.reconcile, .spawn (sampleProcess 200), .claim (sampleProcess 200),
    .execute (sampleProcess 200) (.failed (lit "controller is not ready"))]

def sampleOverlap : List Event :=
  sampleApply (.committed .applied true) ++ [.removeActive (sampleProcess 100),
    .admission { sampleRequest with optionId := some (lit "latency") } (replicate 32 'e')
      (replicate 64 'f') (.ok ())]

def sampleClaim : NativeApplyWorkerClaim :=
  ⟨replicate 32 'a', replicate 32 '2', 2, sampleProcess 100⟩

/-- **A dispatch whose receipt is durable is launched again**, and the job's outcome is
replaced; and a dispatch is created next to a live worker of another one.  So not every run
is sound. -/
theorem settled_dispatch_is_launched_again :
    Along World.step Fresh .start (sampleCrash ++ sampleRelaunch) ∧
      (∃ dispatch, (run World.step .start sampleCrash).readiness .reconcile =
          some (.launch dispatch) ∧
        ∃ receipt ∈ (run World.step .start sampleCrash).receipts,
          receipt.outcome = .applied ∧ receipt.dispatch = dispatch) ∧
      (run World.step .start (sampleCrash ++ sampleRelaunch)).store.terminal = some sampleReceipt ∧
      ¬ Along World.step Sound .start (sampleCrash ++ [.reconcile]) ∧
      ¬ Along World.step Sound .start (sampleOverlap ++ [.create]) := by
  have hlaunch : (run World.step .start sampleCrash).readiness .reconcile =
      some (.launch sampleReceipt.dispatch) := by decide +kernel
  have hreceipt : ({ sampleReceipt with outcome := .applied, diagnostic := [] } :
      NativeApplyTerminalRecord) ∈ (run World.step .start sampleCrash).receipts := by
    decide +kernel
  refine ⟨by decide +kernel, ⟨_, hlaunch, _, hreceipt, rfl, rfl⟩, by decide +kernel, ?_, ?_⟩
  · intro hsound
    exact hsound.last.launched _ hlaunch _ hreceipt rfl
  · intro hsound
    have hheld : Holds ((run World.step .start sampleOverlap).step .create) (sampleProcess 100)
        sampleClaim := ⟨.finishing sampleClaim, by decide +kernel, rfl⟩
    obtain ⟨-, -, hmatches⟩ := hsound.last.owns _ _ hheld
    -- the new dispatch is only accepted, and of another job
    have hactive : ((run World.step .start sampleOverlap).step .create).store.active =
        some (candidateFor { sampleRequest with optionId := some (lit "latency") }
          (replicate 32 'e') (replicate 64 'f')) := by decide +kernel
    exact absurd (hmatches _ hactive) (by decide)

end CakeAutorate.NativeApply
