/-
# Retirement of probes and the owner of their accounting

The four records of `RuntimeOverrideStore` (`operations/autotune_runtime_store.rs`) that stand for
the probes of an unbounded history of runs: the permit, the retirement request, the retirement
receipt and the accounting owner.  Each is one slot that an atomic write replaces; a write can fail,
and it can take effect and its answer be lost.

A log keeps every request and every acknowledgement that was recorded.  That a retired run is not
accepted as owner again holds exactly as long as no owner is offered for it after another run's
request has taken the place of its own: the request is the tombstone, and the slot has room for one.
-/

import CakeAutorate.Machine.Run
import CakeAutorate.Override.Permit
import CakeAutorate.Protocol.RoundTrip

namespace CakeAutorate.Override

open Wire Protocol Journal Machine List

/-- `ProbeRetirement`: a run of a job. -/
structure ProbeRetirement where
  jobId : Text
  workerRunId : Text
  deriving DecidableEq

/-- `ProbeRetirement::encode`, what it checks. -/
def ProbeRetirement.validate (r : ProbeRetirement) : Except String Unit := do
  requireHex "job_id" r.jobId 32
  requireHex "worker_run_id" r.workerRunId 32

structure ProbeAccountingOwner where
  jobId : Text
  workerRunId : Text
  permitId : Text
  bootId : Text
  routeFingerprint : Text
  backendUid : UInt32
  probeGid : UInt32
  deriving DecidableEq

namespace ProbeAccountingOwner

variable (owner : ProbeAccountingOwner)

def run : ProbeRetirement := ⟨owner.jobId, owner.workerRunId⟩

/-- `ProbeAccountingOwner::encode`, what it checks. -/
def validate : Except String Unit := do
  requireHex "job_id" owner.jobId 32
  requireHex "worker_run_id" owner.workerRunId 32
  requireHex "permit_id" owner.permitId 32
  requireHex "boot_id" owner.bootId 32
  requireHex "route_fingerprint" owner.routeFingerprint 64
  check (!(owner.backendUid == 0 || owner.backendUid == 0xffffffff
    || owner.probeGid == 0 || owner.probeGid == 0xffffffff))
    "probe accounting credentials are invalid"

def attests (permit : AutotuneRuntimePermit) : Except String Unit := do
  owner.validate
  check (!(!permit.probeAccountingRequired || permit.kind != .autotune
    || owner.jobId != permit.jobId || owner.workerRunId != permit.workerRunId
    || owner.permitId != permit.permitId || owner.bootId != permit.bootId
    || owner.routeFingerprint != permit.routeFingerprint))
    "probe accounting owner does not match its permit"

end ProbeAccountingOwner

/-- The records of a `RuntimeOverrideStore` that the probes of an instance are under. -/
structure ProbeRecords where
  permit : Option AutotuneRuntimePermit
  request : Option ProbeRetirement
  receipt : Option ProbeRetirement
  owner : Option ProbeAccountingOwner

/-- What becomes of an `atomic_write`: it takes effect, it does not, or it does and the
answer is lost. -/
inductive AtomicWrite where
  | written
  | failed (error : String)
  | unsynced (error : String)

namespace AtomicWrite

def apply (o : AtomicWrite) (before after : ProbeRecords) : ProbeRecords × Except String Unit :=
  match o with
  | .written => (after, .ok ())
  | .failed error => (before, .error error)
  | .unsynced error => (after, .error error)

def durable : AtomicWrite → Bool
  | .written | .unsynced _ => true
  | .failed _ => false

end AtomicWrite

namespace ProbeRecords

variable (net : AddressText) (s : ProbeRecords)

section

variable (permit : AutotuneRuntimePermit)

/-- `RuntimeOverrideStore::publish_permit`. -/
def publishPermit (o : AtomicWrite) : ProbeRecords × Except String Unit :=
  match permit.validate net with
  | .error error => (s, .error error)
  | .ok () => o.apply s { s with permit := some permit }

/-- `publish_probe_accounting_owner`, what it requires of the permit and of the request. -/
def ownerChecks (owner : ProbeAccountingOwner) : Except String Unit := do
  owner.attests permit
  check (decide (s.permit = some permit)) "probe accounting permit changed before publication"
  check (decide (s.request ≠ some owner.run)) "probe accounting owner is retired"

/-- `RuntimeOverrideStore::publish_probe_accounting_owner`. -/
def publishProbeAccountingOwner (owner : ProbeAccountingOwner) (o : AtomicWrite) :
    ProbeRecords × Except String Unit :=
  match s.ownerChecks permit owner with
  | .error error => (s, .error error)
  | .ok () =>
    match s.owner with
    | none => o.apply s { s with owner := some owner }
    | some previous =>
      if previous = owner then (s, .ok ())
      else if previous.run = owner.run then
        (s, .error "probe accounting identity cannot change during a run")
      else if s.receipt ≠ some previous.run then
        (s, .error "previous probe accounting owner is not retired")
      else o.apply s { s with owner := some owner }

end

/-- `RuntimeOverrideStore::request_probe_retirement`. -/
def requestProbeRetirement (record : ProbeRetirement) (o : AtomicWrite) :
    ProbeRecords × Except String Bool :=
  match record.validate with
  | .error error => (s, .error error)
  | .ok () =>
    if s.request ≠ some record then
      if s.request.isSome ∧ s.receipt ≠ s.request then
        (s, .error "previous probe retirement is still pending")
      else
        let answer := o.apply s { s with request := some record }
        (answer.1, answer.2.map fun _ => false)
    else (s, .ok (decide (s.receipt = some record)))

/-- `RuntimeOverrideStore::acknowledge_probe_retirement`. -/
def acknowledgeProbeRetirement (record : ProbeRetirement) (o : AtomicWrite) :
    ProbeRecords × Except String Unit :=
  if s.request ≠ some record then
    (s, .error "probe retirement acknowledgement has no exact request")
  else
    match record.validate with
    | .error error => (s, .error error)
    | .ok () => o.apply s { s with receipt := some record }

end ProbeRecords

/-- A call on the store, or a crash after which it is opened again. -/
inductive ProbeCall where
  | publishPermit (permit : AutotuneRuntimePermit) (write : AtomicWrite)
  | publishOwner (permit : AutotuneRuntimePermit) (owner : ProbeAccountingOwner)
      (write : AtomicWrite)
  | request (record : ProbeRetirement) (write : AtomicWrite)
  | acknowledge (record : ProbeRetirement) (write : AtomicWrite)
  | reopen

def ProbeRecords.act (net : AddressText) (s : ProbeRecords) : ProbeCall → ProbeRecords
  | .publishPermit permit o => (s.publishPermit net permit o).1
  | .publishOwner permit owner o => (s.publishProbeAccountingOwner permit owner o).1
  | .request record o => (s.requestProbeRetirement record o).1
  | .acknowledge record o => (s.acknowledgeProbeRetirement record o).1
  | .reopen => s

/-- What was recorded: a request that took the slot, or an acknowledgement. -/
inductive ProbeEntry where
  | requested (run : ProbeRetirement)
  | acknowledged (run : ProbeRetirement)
  deriving DecidableEq

/-- The records with what was recorded of requests and acknowledgements, newest first. -/
structure ProbeHistory where
  records : ProbeRecords
  log : List ProbeEntry

namespace ProbeHistory

def start : ProbeHistory := ⟨⟨none, none, none, none⟩, []⟩

def acknowledges (h : ProbeHistory) (record : ProbeRetirement) (o : AtomicWrite) : Bool :=
  decide (h.records.request = some record) && o.durable && record.validate.isOk

def entries (net : AddressText) (h : ProbeHistory) : ProbeCall → List ProbeEntry
  | .request record o =>
    if (h.records.act net (.request record o)).request ≠ h.records.request then
      [.requested record]
    else []
  | .acknowledge record o => if h.acknowledges record o then [.acknowledged record] else []
  | .publishPermit _ _ | .publishOwner _ _ _ | .reopen => []

def step (net : AddressText) (h : ProbeHistory) (call : ProbeCall) : ProbeHistory :=
  ⟨h.records.act net call, h.entries net call ++ h.log⟩

end ProbeHistory

def RetiredNow (r : ProbeRetirement) (log : List ProbeEntry) : Prop :=
  ∃ newer older, log = newer ++ .requested r :: older ∧ .acknowledged r ∈ newer ∧
    ∀ other, .requested other ∉ newer

def RetiredBefore (r : ProbeRetirement) (log : List ProbeEntry) : Prop :=
  ∃ newer older, log = newer ++ .requested r :: older ∧ .acknowledged r ∈ newer

def Accepted (s : ProbeRecords) (permit : AutotuneRuntimePermit) (owner : ProbeAccountingOwner)
    (o : AtomicWrite) : Prop :=
  (s.publishProbeAccountingOwner permit owner o).2 = .ok () ∨
    s.owner ≠ some owner ∧ (s.publishProbeAccountingOwner permit owner o).1.owner = some owner

/-- A call as the owners of runs may rely on it. -/
structure SoundProbeCall (net : AddressText) (h : ProbeHistory) (call : ProbeCall) : Prop where
  /-- True is answered only to a run whose request was acknowledged after it. -/
  retired : ∀ record o, call = .request record o →
    (h.records.requestProbeRetirement record o).2 = .ok true → RetiredNow record h.log
  /-- The owner of a run is replaced by another run's only after its retirement. -/
  replaced : ∀ owner owner', h.records.owner = some owner →
    (h.records.act net call).owner = some owner' → owner'.run ≠ owner.run →
      RetiredBefore owner.run h.log
  /-- A request that was not acknowledged is not overwritten. -/
  overwritten : ∀ r, h.records.request = some r → (h.records.act net call).request ≠ some r →
    RetiredNow r h.log
  /-- A run whose retirement was acknowledged is not accepted as owner. -/
  fenced : ∀ permit owner o, call = .publishOwner permit owner o →
    Accepted h.records permit owner o → .acknowledged owner.run ∉ h.log

/-- An owner is offered for a retired run after another run's request took the slot, and
nothing else stands against it: its permit is published, and the owner slot is free, its
own, or held by a run of which the receipt is. -/
def Late (h : ProbeHistory) : ProbeCall → Prop
  | .publishOwner permit owner o =>
    .acknowledged owner.run ∈ h.log ∧ h.records.request ≠ some owner.run ∧
      owner.attests permit = .ok () ∧ h.records.permit = some permit ∧
      (h.records.owner = some owner ∨ o.durable = true ∧
        ∀ previous, h.records.owner = some previous → previous.run ≠ owner.run ∧
          h.records.receipt = some previous.run)
  | _ => False

namespace ProbeRecords

variable {net : AddressText} {s : ProbeRecords} (permit : AutotuneRuntimePermit)

theorem publishPermit_frame (o : AtomicWrite) :
    (s.publishPermit net permit o).1.request = s.request ∧
      (s.publishPermit net permit o).1.receipt = s.receipt ∧
      (s.publishPermit net permit o).1.owner = s.owner := by
  unfold publishPermit
  split
  · exact ⟨rfl, rfl, rfl⟩
  · cases o <;> exact ⟨rfl, rfl, rfl⟩

def Vacant (s : ProbeRecords) (owner : ProbeAccountingOwner) : Prop :=
  ∀ previous, s.owner = some previous → previous.run ≠ owner.run ∧ s.receipt = some previous.run

/-- **An owner is published**: it is the one already, or it takes the slot. -/
theorem publishOwner_cases {permit : AutotuneRuntimePermit} {owner : ProbeAccountingOwner}
    {o : AtomicWrite} (hchecks : s.ownerChecks permit owner = .ok ()) :
    (s.owner = some owner ∧ s.publishProbeAccountingOwner permit owner o = (s, .ok ())) ∨
      (s.Vacant owner ∧ s.owner ≠ some owner ∧
        s.publishProbeAccountingOwner permit owner o = o.apply s { s with owner := some owner }) ∨
      (s.owner ≠ some owner ∧ ¬ s.Vacant owner ∧
        ∃ error, s.publishProbeAccountingOwner permit owner o = (s, .error error)) := by
  simp only [publishProbeAccountingOwner, hchecks]
  cases howner : s.owner with
  | none =>
    refine .inr (.inl ⟨fun previous hp => ?_, by simp, rfl⟩)
    rw [howner] at hp
    cases hp
  | some previous =>
    by_cases hsame : previous = owner
    · subst hsame
      exact .inl ⟨rfl, if_pos rfl⟩
    have hne : some previous ≠ some owner := fun h => hsame (Option.some.inj h)
    by_cases hrun : previous.run = owner.run
    · refine .inr (.inr ⟨hne, fun hvacant => (hvacant previous howner).1 hrun, ?_⟩)
      exact ⟨_, by simp only [if_neg hsame, if_pos hrun]; rfl⟩
    by_cases hreceipt : s.receipt = some previous.run
    · refine .inr (.inl ⟨fun other hother => ?_, hne, ?_⟩)
      · cases howner.symm.trans hother
        exact ⟨hrun, hreceipt⟩
      · simp [if_neg hsame, if_neg hrun, if_neg (not_not.2 hreceipt)]
    · refine .inr (.inr ⟨hne, fun hvacant => hreceipt (hvacant previous howner).2, ?_⟩)
      exact ⟨_, by simp only [if_neg hsame, if_neg hrun, if_pos hreceipt]; rfl⟩

theorem publishOwner_frame (owner : ProbeAccountingOwner) (o : AtomicWrite) :
    (s.publishProbeAccountingOwner permit owner o).1.request = s.request ∧
      (s.publishProbeAccountingOwner permit owner o).1.receipt = s.receipt ∧
      ((s.publishProbeAccountingOwner permit owner o).1.owner = s.owner ∨ s.Vacant owner ∧
        (s.publishProbeAccountingOwner permit owner o).1.owner = some owner) := by
  cases hchecks : s.ownerChecks permit owner with
  | error error =>
    have heq : s.publishProbeAccountingOwner permit owner o = (s, .error error) := by
      simp [publishProbeAccountingOwner, hchecks]
    rw [heq]
    exact ⟨rfl, rfl, .inl rfl⟩
  | ok u =>
    have hcases := publishOwner_cases (o := o) hchecks
    obtain ⟨-, heq⟩ | ⟨hvacant, -, heq⟩ | ⟨-, -, error, heq⟩ := hcases
    · rw [heq]
      exact ⟨rfl, rfl, .inl rfl⟩
    · rw [heq]
      cases o with
      | written => exact ⟨rfl, rfl, .inr ⟨hvacant, rfl⟩⟩
      | failed error => exact ⟨rfl, rfl, .inl rfl⟩
      | unsynced error => exact ⟨rfl, rfl, .inr ⟨hvacant, rfl⟩⟩
    · rw [heq]
      exact ⟨rfl, rfl, .inl rfl⟩

/-- **A request** leaves the records, or takes the slot of an acknowledged one. -/
theorem request_cases (record : ProbeRetirement) (o : AtomicWrite) :
    (s.requestProbeRetirement record o).1 = s ∨
      s.request ≠ some record ∧ (s.request = none ∨ s.receipt = s.request) ∧
        (s.requestProbeRetirement record o).1 = { s with request := some record } := by
  unfold requestProbeRetirement
  split
  · exact .inl rfl
  · split
    · rename_i hne
      split
      · exact .inl rfl
      · rename_i hfree
        have hfree : s.request = none ∨ s.receipt = s.request := by
          cases hrequest : s.request with
          | none => exact .inl rfl
          | some r =>
            by_contra hnot
            push Not at hnot
            exact hfree ⟨by simp [hrequest], by rw [hrequest]; exact hnot.2⟩
        cases o with
        | written => exact .inr ⟨hne, hfree, rfl⟩
        | failed error => exact .inl rfl
        | unsynced error => exact .inr ⟨hne, hfree, rfl⟩
    · exact .inl rfl

theorem request_true {record : ProbeRetirement} {o : AtomicWrite}
    (h : (s.requestProbeRetirement record o).2 = .ok true) :
    s.request = some record ∧ s.receipt = some record := by
  unfold requestProbeRetirement at h
  split at h
  · cases h
  · split at h
    · split at h
      · cases h
      · cases o <;> cases h
    · rename_i hsame
      simp only [Except.ok.injEq, decide_eq_true_eq] at h
      exact ⟨not_not.1 hsame, h⟩

end ProbeRecords

/-- **An acknowledgement** writes the receipt, or leaves the records. -/
theorem ProbeHistory.acknowledge_records (h : ProbeHistory) (record : ProbeRetirement)
    (o : AtomicWrite) : (h.records.acknowledgeProbeRetirement record o).1 =
      if h.acknowledges record o then { h.records with receipt := some record } else h.records := by
  unfold ProbeRecords.acknowledgeProbeRetirement ProbeHistory.acknowledges
  by_cases hrequest : h.records.request = some record
  · rw [if_neg (not_not.2 hrequest)]
    cases hvalid : record.validate with
    | error error => simp [Except.isOk, Except.toBool]
    | ok u => cases o <;> simp [hrequest, AtomicWrite.apply, AtomicWrite.durable, Except.isOk,
        Except.toBool]
  · rw [if_pos hrequest]
    simp [hrequest]

def LastRequested (r : ProbeRetirement) (log : List ProbeEntry) : Prop :=
  ∃ newer older, log = newer ++ .requested r :: older ∧ ∀ other, .requested other ∉ newer

variable {r : ProbeRetirement} {log : List ProbeEntry} {h : ProbeHistory}

theorem RetiredNow.before (h : RetiredNow r log) : RetiredBefore r log := by
  obtain ⟨newer, older, heq, hmem, -⟩ := h
  exact ⟨newer, older, heq, hmem⟩

theorem RetiredBefore.cons (h : RetiredBefore r log) (entry : ProbeEntry) :
    RetiredBefore r (entry :: log) := by
  obtain ⟨newer, older, heq, hmem⟩ := h
  exact ⟨entry :: newer, older, by rw [heq]; rfl, mem_cons_of_mem _ hmem⟩

theorem LastRequested.acknowledged (h : LastRequested r log) :
    RetiredNow r (.acknowledged r :: log) := by
  obtain ⟨newer, older, heq, hnone⟩ := h
  refine ⟨.acknowledged r :: newer, older, by rw [heq]; rfl, mem_cons_self, ?_⟩
  intro other hother
  obtain hsame | hmem := mem_cons.1 hother
  · cases hsame
  · exact hnone other hmem

theorem LastRequested.cons {r' : ProbeRetirement} (h : LastRequested r log) :
    LastRequested r (.acknowledged r' :: log) := by
  obtain ⟨newer, older, heq, hnone⟩ := h
  refine ⟨.acknowledged r' :: newer, older, by rw [heq]; rfl, ?_⟩
  intro other hother
  obtain hsame | hmem := mem_cons.1 hother
  · cases hsame
  · exact hnone other hmem

/-- The slots agree with the log. -/
structure ProbeHistory.Agrees (h : ProbeHistory) : Prop where
  last : ∀ r, h.records.request = some r → LastRequested r h.log
  empty : h.records.request = none → h.records.receipt = none
  now : ∀ r, h.records.request = some r → h.records.receipt = some r → RetiredNow r h.log
  before : ∀ r, h.records.receipt = some r → RetiredBefore r h.log

namespace ProbeHistory.Agrees

variable {net : AddressText} {h : ProbeHistory}

theorem start : ProbeHistory.start.Agrees where
  last := nofun
  empty := fun _ => rfl
  now := nofun
  before := nofun

theorem kept (hh : h.Agrees) {s : ProbeRecords} (hrequest : s.request = h.records.request)
    (hreceipt : s.receipt = h.records.receipt) : Agrees ⟨s, h.log⟩ where
  last := by intro r hr; exact hh.last r (hrequest ▸ hr)
  empty := by intro hr; exact hreceipt.trans (hh.empty (hrequest ▸ hr))
  now := by intro r hr hr'; exact hh.now r (hrequest ▸ hr) (hreceipt ▸ hr')
  before := by intro r hr; exact hh.before r (hreceipt ▸ hr)

/-- **Every call keeps the agreement.** -/
theorem step (hh : h.Agrees) (call : ProbeCall) : (h.step net call).Agrees := by
  cases call with
  | publishPermit permit o =>
    obtain ⟨hrequest, hreceipt, -⟩ := ProbeRecords.publishPermit_frame permit o
    exact hh.kept hrequest hreceipt
  | publishOwner permit owner o =>
    obtain ⟨hrequest, hreceipt, -⟩ := ProbeRecords.publishOwner_frame permit owner o
    exact hh.kept hrequest hreceipt
  | reopen => exact hh.kept rfl rfl
  | request record o =>
    have hcases : h.records.act net (.request record o) = h.records ∨ _ :=
      ProbeRecords.request_cases record o
    obtain heq | ⟨hne, hfree, heq⟩ := hcases
    · have hstep : h.step net (.request record o) = h := by
        simp [ProbeHistory.step, ProbeHistory.entries, heq]
      rw [hstep]
      exact hh
    · replace heq : h.records.act net (.request record o) =
          { h.records with request := some record } := heq
      have hstep : h.step net (.request record o) =
          ⟨{ h.records with request := some record }, .requested record :: h.log⟩ := by
        simp [ProbeHistory.step, ProbeHistory.entries, heq, hne.symm]
      rw [hstep]
      -- the receipt is the request's that is replaced
      have hreceipt : h.records.receipt ≠ some record := by
        obtain hnone | hsame := hfree
        · rw [hh.empty hnone]
          simp
        · rw [hsame]
          exact hne
      refine ⟨?_, ?_, ?_, ?_⟩
      · intro r hr
        cases hr
        exact ⟨[], h.log, rfl, fun other hother => by cases hother⟩
      · intro hr
        cases hr
      · intro r hr hr'
        cases hr
        exact absurd hr' hreceipt
      · intro r hr
        exact (hh.before r hr).cons _
  | acknowledge record o =>
    simp only [ProbeHistory.step, ProbeHistory.entries, ProbeRecords.act, h.acknowledge_records]
    split
    · rename_i hacknowledges
      have hrequest : h.records.request = some record := by
        simp only [ProbeHistory.acknowledges, Bool.and_eq_true, decide_eq_true_eq] at hacknowledges
        exact hacknowledges.1.1
      have hnow := (hh.last record hrequest).acknowledged
      refine ⟨?_, ?_, ?_, ?_⟩
      · intro r hr
        exact (hh.last r hr).cons
      · intro hr
        rw [show h.records.request = none from hr] at hrequest
        cases hrequest
      · intro r hr hr'
        cases hr'
        exact hnow
      · intro r hr
        cases hr
        exact hnow.before
    · exact hh

theorem replaced (hh : h.Agrees) {call : ProbeCall} {owner owner' : ProbeAccountingOwner}
    (howner : h.records.owner = some owner) (hnext : (h.records.act net call).owner = some owner')
    (hne : owner'.run ≠ owner.run) : RetiredBefore owner.run h.log := by
  have hkept : ∀ s : ProbeRecords, s.owner = h.records.owner → s.owner ≠ some owner' := by
    intro s hs hs'
    cases howner.symm.trans (hs.symm.trans hs')
    exact hne rfl
  cases call with
  | publishPermit permit o =>
    have hsame : (h.records.act net (.publishPermit permit o)).owner = h.records.owner :=
      (ProbeRecords.publishPermit_frame permit o).2.2
    exact absurd hnext (hkept _ hsame)
  | publishOwner permit next o =>
    obtain ⟨-, -, hsame | ⟨hvacant, -⟩⟩ :=
      ProbeRecords.publishOwner_frame (s := h.records) permit next o
    · exact absurd hnext (hkept _ hsame)
    · exact hh.before _ (hvacant owner howner).2
  | request record o =>
    have hsame : (h.records.act net (.request record o)).owner = h.records.owner := by
      obtain heq | ⟨-, -, heq⟩ := ProbeRecords.request_cases (s := h.records) record o <;>
        simp [ProbeRecords.act, heq]
    exact absurd hnext (hkept _ hsame)
  | acknowledge record o =>
    refine absurd hnext (hkept _ ?_)
    simp only [ProbeRecords.act, h.acknowledge_records]
    split <;> rfl
  | reopen => exact absurd hnext (hkept _ rfl)

theorem overwritten (hh : h.Agrees) {call : ProbeCall} {r : ProbeRetirement}
    (hrequest : h.records.request = some r) (hnext : (h.records.act net call).request ≠ some r) :
    RetiredNow r h.log := by
  have hkept : ∀ s : ProbeRecords, s.request = h.records.request → s.request = some r :=
    fun s hs => hs.trans hrequest
  cases call with
  | publishPermit permit o =>
    have hsame : (h.records.act net (.publishPermit permit o)).request = h.records.request :=
      (ProbeRecords.publishPermit_frame permit o).1
    exact absurd (hkept _ hsame) hnext
  | publishOwner permit owner o =>
    obtain ⟨hsame, -⟩ := ProbeRecords.publishOwner_frame (s := h.records) permit owner o
    exact absurd (hkept _ hsame) hnext
  | request record o =>
    obtain heq | ⟨-, hnone | hsame, -⟩ := ProbeRecords.request_cases (s := h.records) record o
    · exact absurd (hkept _ (congrArg ProbeRecords.request heq)) hnext
    · rw [hnone] at hrequest
      cases hrequest
    · exact hh.now r hrequest (hsame.trans hrequest)
  | acknowledge record o =>
    refine absurd (hkept _ ?_) hnext
    simp only [ProbeRecords.act, h.acknowledge_records]
    split <;> rfl
  | reopen => exact absurd hrequest hnext

end ProbeHistory.Agrees

variable {permit : AutotuneRuntimePermit}

/-- **An owner is accepted** exactly when its checks pass and the slot is its own, or it can
be had and is written. -/
theorem accepted_iff {s : ProbeRecords} {owner : ProbeAccountingOwner} {o : AtomicWrite} :
    Accepted s permit owner o ↔
      s.ownerChecks permit owner = .ok () ∧
        (s.owner = some owner ∨ o.durable = true ∧ s.Vacant owner) := by
  unfold Accepted
  cases hchecks : s.ownerChecks permit owner with
  | error error =>
    have heq : s.publishProbeAccountingOwner permit owner o = (s, .error error) := by
      simp [ProbeRecords.publishProbeAccountingOwner, hchecks]
    rw [heq]
    simp
  | ok u =>
    have hcases := ProbeRecords.publishOwner_cases (o := o) hchecks
    obtain ⟨hsame, heq⟩ | ⟨hvacant, hne, heq⟩ | ⟨hne, hnot, error, heq⟩ := hcases
    · rw [heq]
      simp [hsame]
    · rw [heq]
      cases o <;> simp [AtomicWrite.apply, AtomicWrite.durable, hvacant, hne]
    · rw [heq]
      simp [hne, hnot]

theorem late_iff {owner : ProbeAccountingOwner} {o : AtomicWrite} :
    Late h (.publishOwner permit owner o) ↔
      Accepted h.records permit owner o ∧ .acknowledged owner.run ∈ h.log := by
  rw [accepted_iff]
  simp only [Late, ProbeRecords.ownerChecks, ProbeRecords.Vacant, bind_ok, exists_unit,
    check_ok, decide_eq_true_eq]
  constructor
  · rintro ⟨hlog, hrequest, hattests, hpermit, hslot⟩
    exact ⟨⟨⟨hattests, hpermit, hrequest⟩, hslot⟩, hlog⟩
  · rintro ⟨⟨⟨hattests, hpermit, hrequest⟩, hslot⟩, hlog⟩
    exact ⟨hlog, hrequest, hattests, hpermit, hslot⟩

/-- **A call is sound** exactly when it is not a late offer. -/
theorem ProbeHistory.Agrees.sound_iff {net : AddressText} (hh : h.Agrees) (call : ProbeCall) :
    SoundProbeCall net h call ↔ ¬ Late h call := by
  constructor
  · intro hsound hlate
    cases call with
    | publishOwner permit owner o =>
      obtain ⟨haccepted, hlog⟩ := late_iff.1 hlate
      exact hsound.fenced permit owner o rfl haccepted hlog
    | publishPermit permit o => exact hlate
    | request record o => exact hlate
    | acknowledge record o => exact hlate
    | reopen => exact hlate
  · intro hnot
    constructor
    · rintro record o rfl htrue
      obtain ⟨hrequest, hreceipt⟩ := ProbeRecords.request_true htrue
      exact hh.now record hrequest hreceipt
    · intro owner owner' howner hnext hne
      exact hh.replaced howner hnext hne
    · intro r hrequest hnext
      exact hh.overwritten hrequest hnext
    · rintro permit owner o rfl haccepted hlog
      exact hnot (late_iff.2 ⟨haccepted, hlog⟩)

theorem ProbeHistory.Agrees.along_iff {net : AddressText} (hh : h.Agrees) (calls : List ProbeCall) :
    Along (ProbeHistory.step net) (SoundProbeCall net) h calls ↔
      Along (ProbeHistory.step net) (fun h call => ¬ Late h call) h calls := by
  induction calls generalizing h with
  | nil => exact Iff.rfl
  | cons call calls ih =>
    exact and_congr (hh.sound_iff call) (ih (hh.step call))

/-- **Probes are retired and their accounting is owned** as it should be in exactly those
runs in which no owner is offered for a retired run after another run's request took the
slot of its own. -/
theorem probe_retirement_iff (net : AddressText) (calls : List ProbeCall) :
    Along (ProbeHistory.step net) (SoundProbeCall net) .start calls ↔
      Along (ProbeHistory.step net) (fun h call => ¬ Late h call) .start calls :=
  ProbeHistory.Agrees.start.along_iff calls

def probePermit : AutotuneRuntimePermit := { samplePermit with probeAccountingRequired := true }

def probeOwner : ProbeAccountingOwner where
  jobId := probePermit.jobId
  workerRunId := probePermit.workerRunId
  permitId := probePermit.permitId
  bootId := probePermit.bootId
  routeFingerprint := probePermit.routeFingerprint
  backendUid := 32769
  probeGid := 32770

def probeRuns : List ProbeCall :=
  [.publishPermit probePermit .written, .publishOwner probePermit probeOwner .written,
    .request probeOwner.run .written, .acknowledge probeOwner.run .written,
    .request ⟨replicate 32 'b', replicate 32 'f'⟩ .written]

/-- **A retired run is accepted as owner again** after another run's request, so not every
run of calls is sound. -/
theorem retired_owner_accepted_again :
    .acknowledged probeOwner.run ∈ (run (ProbeHistory.step addressText) .start probeRuns).log ∧
      (((run (ProbeHistory.step addressText) .start
        probeRuns).records.publishProbeAccountingOwner probePermit probeOwner .written).2 =
          .ok ()) ∧
      ¬ Along (ProbeHistory.step addressText) (SoundProbeCall addressText) .start
        (probeRuns ++ [.publishOwner probePermit probeOwner .written]) := by
  have hlog : .acknowledged probeOwner.run ∈
      (run (ProbeHistory.step addressText) .start probeRuns).log := by decide +kernel
  have hanswer : ((run (ProbeHistory.step addressText) .start
      probeRuns).records.publishProbeAccountingOwner probePermit probeOwner .written).2.toOption =
        some () := by decide +kernel
  have haccepted : ((run (ProbeHistory.step addressText) .start
      probeRuns).records.publishProbeAccountingOwner probePermit probeOwner .written).2 =
        .ok () := by
    revert hanswer
    cases ((run (ProbeHistory.step addressText) .start
      probeRuns).records.publishProbeAccountingOwner probePermit probeOwner .written).2 with
    | error error => intro h; cases h
    | ok u => intro _; rfl
  refine ⟨hlog, haccepted, fun hsound => ?_⟩
  exact hsound.last.fenced _ _ _ rfl (.inl haccepted) hlog

end CakeAutorate.Override
