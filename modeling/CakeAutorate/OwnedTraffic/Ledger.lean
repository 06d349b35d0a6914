/-
# The ledger of owned traffic

`publish_bound`, `commit_debit_with_intent` and `verify_owned_accounting_checkpoint` of
`operations/speedtest.rs`, and `OwnedTrafficLedger`, the cursor in memory that drives them.  A
session is a directory with the ledger that is on it, if there is one; a call of `checkpoint` may
fail or be cut by a crash, which loses the ledger, and a ledger is loaded from the checkpoint that
the directory holds.
-/

import CakeAutorate.OwnedTraffic.Directory

namespace CakeAutorate.OwnedTraffic

open Syscall Syscall.Program Protocol OwnedTrafficCheckpoint

def readCheckpoint (r : Reader) (name : Name) (label : String) (b : Binding) :
    Prog OwnedTrafficCheckpoint := do
  let bytes ← readPrivateRecoveryBounded name 4096 label
  lift (decodeBound r bytes b)

/-- `symlink_metadata` of a file that must not be there. -/
def requireAbsent (name : Name) (present error : String) : Prog Unit :=
  whether name error (throw present) (pure ())

namespace OwnedTrafficCheckpoint

/-- `previous.sequence.checked_add(1) != Some(self.sequence)`, `delta_since` and the debit that
must not be empty. -/
def follows (point previous : OwnedTrafficCheckpoint) (gap empty : String) : Except String Unit := do
  check (decide (previous.sequence + 1 < u32Bound ∧ previous.sequence + 1 = point.sequence)) gap
  let delta ← point.counters.deltaSince previous.counters
  check (!(delta.rxBytes == 0 && delta.txBytes == 0)) empty

section

variable (r : Reader) (b : Binding) (point : OwnedTrafficCheckpoint)

/-- `OwnedTrafficCheckpoint::publish_bound`, the file. -/
def publishFile (encoded : Bytes) : Prog Unit :=
  whether .checkpoint "unable to inspect owned traffic checkpoint"
    (do
      let previous ← readCheckpoint r .checkpoint "owned traffic checkpoint" b
      if previous = point then pure ()
      else do
        lift (point.follows previous "owned traffic checkpoint sequence is not contiguous"
          "owned traffic checkpoint has no new bytes")
        replacePrivateFile .checkpoint .ownedNext encoded)
    (do
      lift (check (decide (point.sequence = 0)) "owned traffic checkpoint origin is missing")
      writeNewPrivateFile .checkpoint encoded)

def publishBound : Prog Unit := do
  requirePrivateDirectory
  let encoded ← lift (point.encodeBound b)
  requireAbsent .ownedNext "owned traffic checkpoint has unresolved staging residue"
    "unable to inspect owned traffic staging"
  publishFile r b point encoded
  syncDirectory

def commitDebitWithIntent (appendDebit : Prog Unit) : Prog Unit := do
  requirePrivateDirectory
  let previous ← readCheckpoint r .checkpoint "owned traffic checkpoint" b
  lift (point.follows previous "owned debit intent is not contiguous" "owned debit intent is empty")
  let encoded ← lift (point.encodeBound b)
  writeNewPrivateFile .ownedIntent encoded
  syncDirectory
  appendDebit
  publishBound r b point
  let intent ← readPrivateRecoveryBounded .ownedIntent 4096 "owned debit intent"
  lift (check (intent == encoded) "owned debit intent changed before acknowledgement")
  succeed (.removeFile .ownedIntent) "unable to acknowledge owned debit intent"
  syncDirectory

end

end OwnedTrafficCheckpoint

structure OwnedTrafficLedger where
  authority : TrafficPolicy
  committed : OwnedTrafficCheckpoint
  persistenceUncertain : Bool

namespace OwnedTrafficLedger

def fromVerifiedCheckpoint (authority : TrafficPolicy) (committed : OwnedTrafficCheckpoint) :
    Except String OwnedTrafficLedger := do
  let total ← committed.counters.totalBytes
  check (!(committed.sequence == 0 && total != 0)) "initial owned traffic checkpoint is not zero"
  .ok { authority, committed, persistenceUncertain := false }

section

variable (ledger : OwnedTrafficLedger) (observed : OwnedTrafficSnapshot)

/-- `OwnedTrafficLedger::checkpoint`, what an observation adds. -/
def measure : Except String (Bool × SpeedtestTrafficDebit) := do
  let total ← observed.totalBytes
  let debit ← observed.deltaSince ledger.committed.counters
  .ok (ledger.authority.exceeded (UInt64.ofNat total), debit)

/-- `OwnedTrafficLedger::checkpoint`: the ledger after it, and its answer.  The ledger is
uncertain from the start of the call to its success. -/
def checkpoint (persist : OwnedTrafficCheckpoint → SpeedtestTrafficDebit → Prog Unit) :
    Prog (OwnedTrafficLedger × Except String Bool) :=
  let uncertain := { ledger with persistenceUncertain := true }
  if ledger.persistenceUncertain then
    pure (ledger, .error "owned traffic persistence is uncertain")
  else match ledger.measure observed with
    | .error error => pure (uncertain, .error error)
    | .ok (exceeded, debit) =>
      if debit.rxBytes ≠ 0 ∨ debit.txBytes ≠ 0 then
        if ledger.committed.sequence + 1 < u32Bound then do
          let next := { sequence := ledger.committed.sequence + 1, counters := observed }
          let persisted ← (persist next debit).attempt
          pure (match persisted with
            | .ok () => ({ ledger with committed := next }, .ok exceeded)
            | .error error => (uncertain, .error error))
        else pure (uncertain, .error "owned traffic sequence overflow")
      else pure (ledger, .ok exceeded)

end

/-- `commit_owned_snapshot`: a debit is appended under an intent.  What it puts before the text of
an error is left out. -/
def commitOwnedSnapshot (r : Reader) (b : Binding) (ledger : OwnedTrafficLedger)
    (observed : OwnedTrafficSnapshot) (lifecycle : Bool) :
    Prog (OwnedTrafficLedger × Except String Bool) :=
  ledger.checkpoint observed fun point debit =>
    point.commitDebitWithIntent r b
      (succeed (.appendDebit ⟨{ debit with lifecycle }, ledger.committed.counters, point.counters⟩)
        "owned debit append failed")

end OwnedTrafficLedger

/-- What a request is read for here. -/
structure OwnedRequest where
  jobId : Bytes
  encode : Except String Bytes
  trafficPolicyExplicit : Bool

def OwnedRequest.binding (request : OwnedRequest) (worker : Bytes) : Except String Binding := do
  let text ← request.encode
  .ok { job := request.jobId, worker, requestSha256 := sha256 text }

def OwnedTrafficCheckpoint.totals (point : OwnedTrafficCheckpoint) (rx tx : String) :
    Except String (ℕ × ℕ × ℕ) := do
  let received ← checkedAdd point.counters.backend.rxBytes point.counters.probes.rxBytes rx
  let sent ← checkedAdd point.counters.backend.txBytes point.counters.probes.txBytes tx
  .ok (point.sequence, received, sent)

def verifyOwnedAccountingCheckpoint (r : Reader) (request : OwnedRequest) (worker : Bytes) :
    Prog (ℕ × ℕ × ℕ) := do
  lift (check request.trafficPolicyExplicit "owned accounting requires an explicit traffic policy")
  lift (check (hexOf 32 worker) "owned accounting worker identity is invalid")
  requirePrivateDirectory
  requireAbsent .ownedIntent "owned traffic checkpoint has an unacknowledged debit intent"
    "unable to inspect owned debit intent"
  requireAbsent .ownedNext "owned traffic checkpoint has unresolved staging residue"
    "unable to inspect owned traffic staging"
  let bytes ← readPrivateRecoveryBounded .checkpoint 4096 "owned traffic checkpoint"
  let b ← lift (request.binding worker)
  let checkpoint ← lift (decodeBound r bytes b)
  lift (checkpoint.totals "owned traffic RX overflow" "owned traffic TX overflow")

/-- A directory, and the ledger that is on it. -/
structure Session where
  world : World
  ledger : Option OwnedTrafficLedger

/-- The session after a call of `checkpoint`: a crash loses the ledger. -/
def Session.after (o : Outcome World String (OwnedTrafficLedger × Except String Bool)) : Session :=
  match o with
  | .returned (.ok (ledger, _)) world => ⟨world, some ledger⟩
  | .returned (.error _) world => ⟨world, none⟩
  | .crashed world => ⟨world, none⟩

variable (r : Reader) (b : Binding)

/-- What can happen to a session.  `seen` says which observations there may be. -/
inductive Move (seen : OwnedTrafficSnapshot → Prop) : Session → Session → Prop where
  | checkpoint {w : World} {ledger : OwnedTrafficLedger} {observed : OwnedTrafficSnapshot}
      {lifecycle : Bool} {o : Outcome World String (OwnedTrafficLedger × Except String Bool)} :
      seen observed → Exec machine (ledger.commitOwnedSnapshot r b observed lifecycle) w o →
      Move seen ⟨w, some ledger⟩ (Session.after o)
  | reload {w : World} {held : Option OwnedTrafficLedger} {bytes : Bytes}
      {point : OwnedTrafficCheckpoint} {authority : TrafficPolicy} {ledger : OwnedTrafficLedger} :
      w.files .checkpoint = some bytes →
      decodeBound r bytes b = .ok point →
      OwnedTrafficLedger.fromVerifiedCheckpoint authority point = .ok ledger →
      Move seen ⟨w, held⟩ ⟨w, some ledger⟩
  | dropped {s : Session} : Move seen s ⟨s.world, none⟩

/-- A directory with a published origin and nothing else. -/
structure Origin (w : World) : Prop where
  published : ∃ bytes, w.files .checkpoint = some bytes ∧ decodeBound r bytes b = .ok ⟨0, .zero⟩
  others : ∀ name, name ≠ .checkpoint → w.files name = none
  journal : w.journal = []

/-- The sessions that a published origin leads to. -/
inductive Reached (seen : OwnedTrafficSnapshot → Prop) (w₀ : World) : Session → Prop where
  | origin : Origin r b w₀ → Reached seen w₀ ⟨w₀, none⟩
  | step {s s' : Session} : Reached seen w₀ s → Move r b seen s s' → Reached seen w₀ s'

end CakeAutorate.OwnedTraffic
