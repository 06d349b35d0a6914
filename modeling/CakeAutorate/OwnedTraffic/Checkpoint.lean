/-
# Counters of owned traffic and the records they are kept in

The pure part of the owned accounting of `operations/speedtest.rs`: the four cumulative kernel
counters, the debit between two readings of them, and the checkpoint that is bound to a job, a
worker and a request.  A record is accepted only as the bytes that its own reading is written as,
so a checkpoint that is read is the one that was written.
-/

import CakeAutorate.Protocol.Request
import CakeAutorate.Syscall.JsonCut

namespace CakeAutorate.OwnedTraffic

open Syscall Protocol Except List Json

/-- A `u32` is a number below this one. -/
def u32Bound : ℕ := 2 ^ 32

structure SpeedtestTrafficCounters where
  rxBytes : ℕ
  txBytes : ℕ
  deriving DecidableEq

structure OwnedTrafficSnapshot where
  backend : SpeedtestTrafficCounters
  probes : SpeedtestTrafficCounters
  deriving DecidableEq

structure SpeedtestTrafficDebit where
  lifecycle : Bool
  rxBytes : ℕ
  txBytes : ℕ

def counterDeltas (before after : SpeedtestTrafficCounters) : Except String (ℕ × ℕ) :=
  if after.rxBytes < before.rxBytes ∨ after.txBytes < before.txBytes then
    .error "speedtest-counter-reset"
  else .ok (after.rxBytes - before.rxBytes, after.txBytes - before.txBytes)

namespace OwnedTrafficSnapshot

def zero : OwnedTrafficSnapshot := ⟨⟨0, 0⟩, ⟨0, 0⟩⟩

def rx (s : OwnedTrafficSnapshot) : ℕ := s.backend.rxBytes + s.probes.rxBytes

def tx (s : OwnedTrafficSnapshot) : ℕ := s.backend.txBytes + s.probes.txBytes

/-- No counter of the first is above that of the second. -/
structure Below (s t : OwnedTrafficSnapshot) : Prop where
  backendRx : s.backend.rxBytes ≤ t.backend.rxBytes
  backendTx : s.backend.txBytes ≤ t.backend.txBytes
  probesRx : s.probes.rxBytes ≤ t.probes.rxBytes
  probesTx : s.probes.txBytes ≤ t.probes.txBytes

theorem Below.refl (s : OwnedTrafficSnapshot) : s.Below s := ⟨le_rfl, le_rfl, le_rfl, le_rfl⟩

variable {s : OwnedTrafficSnapshot}

theorem Below.trans {t u : OwnedTrafficSnapshot} (hst : s.Below t) (htu : t.Below u) : s.Below u :=
  ⟨hst.backendRx.trans htu.backendRx, hst.backendTx.trans htu.backendTx,
    hst.probesRx.trans htu.probesRx, hst.probesTx.trans htu.probesTx⟩

theorem Below.rx_le {t : OwnedTrafficSnapshot} (h : s.Below t) : s.rx ≤ t.rx :=
  Nat.add_le_add h.backendRx h.probesRx

theorem Below.tx_le {t : OwnedTrafficSnapshot} (h : s.Below t) : s.tx ≤ t.tx :=
  Nat.add_le_add h.backendTx h.probesTx

def totalBytes (s : OwnedTrafficSnapshot) : Except String ℕ := do
  let error := "owned traffic cumulative counter overflow"
  let bytes ← checkedAdd s.backend.rxBytes s.backend.txBytes error
  let bytes ← checkedAdd bytes s.probes.rxBytes error
  checkedAdd bytes s.probes.txBytes error

theorem totalBytes_eq_ok {n : ℕ} :
    s.totalBytes = .ok n ↔ s.rx + s.tx < u64Bound ∧ s.rx + s.tx = n := by
  simp only [totalBytes, rx, tx, bind_ok, checkedAdd_eq_ok]
  constructor
  · rintro ⟨_, ⟨-, rfl⟩, _, ⟨-, rfl⟩, h, rfl⟩
    constructor <;> omega
  · rintro ⟨h, rfl⟩
    refine ⟨_, ⟨by omega, rfl⟩, _, ⟨by omega, rfl⟩, by omega, by omega⟩

def deltaSince (s previous : OwnedTrafficSnapshot) : Except String SpeedtestTrafficDebit := do
  let backend ← counterDeltas previous.backend s.backend
  let probes ← counterDeltas previous.probes s.probes
  let rxBytes ← checkedAdd backend.1 probes.1 "owned traffic RX delta overflow"
  let txBytes ← checkedAdd backend.2 probes.2 "owned traffic TX delta overflow"
  let _ ← checkedAdd rxBytes txBytes "owned traffic total delta overflow"
  .ok { lifecycle := false, rxBytes, txBytes }

theorem counterDeltas_eq_ok {before after : SpeedtestTrafficCounters} {d : ℕ × ℕ} :
    counterDeltas before after = .ok d ↔
      (before.rxBytes ≤ after.rxBytes ∧ before.txBytes ≤ after.txBytes) ∧
        (after.rxBytes - before.rxBytes, after.txBytes - before.txBytes) = d := by
  unfold counterDeltas
  split
  · constructor
    · intro h
      cases h
    · rintro ⟨⟨hrx, htx⟩, -⟩
      omega
  · rw [ok.injEq]
    constructor
    · intro h
      refine ⟨?_, h⟩
      omega
    · exact fun h => h.2

theorem deltaSince_eq_ok {previous : OwnedTrafficSnapshot} {d : SpeedtestTrafficDebit} :
    s.deltaSince previous = .ok d ↔ previous.Below s ∧
      (s.rx - previous.rx) + (s.tx - previous.tx) < u64Bound ∧
        d = ⟨false, s.rx - previous.rx, s.tx - previous.tx⟩ := by
  simp only [deltaSince, bind_ok, counterDeltas_eq_ok, checkedAdd_eq_ok, ok.injEq]
  constructor
  · rintro ⟨_, ⟨⟨h₁, h₂⟩, rfl⟩, _, ⟨⟨h₃, h₄⟩, rfl⟩, _, ⟨-, rfl⟩, _, ⟨-, rfl⟩, _, ⟨h, -⟩, rfl⟩
    refine ⟨⟨h₁, h₂, h₃, h₄⟩, ?_, ?_⟩
    · simp only [rx, tx]
      omega
    · simp only [rx, tx, SpeedtestTrafficDebit.mk.injEq, true_and]
      constructor <;> omega
  · rintro ⟨⟨h₁, h₂, h₃, h₄⟩, h, rfl⟩
    simp only [rx, tx] at h ⊢
    refine ⟨_, ⟨⟨h₁, h₂⟩, rfl⟩, _, ⟨⟨h₃, h₄⟩, rfl⟩, _, ⟨?_, rfl⟩, _, ⟨?_, rfl⟩, _, ⟨?_, rfl⟩, ?_⟩
    · omega
    · omega
    · omega
    · simp only [SpeedtestTrafficDebit.mk.injEq, true_and]
      constructor <;> omega

end OwnedTrafficSnapshot

/-- What a record is bound to: the job, the worker and the digest of the request. -/
structure Binding where
  job : Bytes
  worker : Bytes
  requestSha256 : Bytes

def hexOf (length : ℕ) (value : Bytes) : Bool :=
  value.length == length && value.all hexDigit

def sealed (payload : Json) : Json :=
  .obj [("payload", payload), ("sha256", .str (sha256 payload.bytes))]

def record (payload : Json) : Bytes := (sealed payload).bytes

/-- The text of a record, with the line end that `encode_bound` puts behind it. -/
def line (payload : Json) : Bytes := record payload ++ [0x0a]

structure OwnedTrafficCheckpoint where
  sequence : ℕ
  counters : OwnedTrafficSnapshot
  deriving DecidableEq

namespace OwnedTrafficCheckpoint

/-- `OwnedTrafficCheckpoint::encode_bound`, the payload. -/
def payload (point : OwnedTrafficCheckpoint) (b : Binding) : Json :=
  .obj [("accounting", .str (ascii "owned-ip-system-dns-estimate-v1")),
    ("backend_rx", .num point.counters.backend.rxBytes),
    ("backend_tx", .num point.counters.backend.txBytes), ("job_id", .str b.job),
    ("probe_rx", .num point.counters.probes.rxBytes),
    ("probe_tx", .num point.counters.probes.txBytes), ("request_sha256", .str b.requestSha256),
    ("schema_version", .num 1), ("sequence", .num point.sequence), ("worker_run_id", .str b.worker)]

def encodeBound (point : OwnedTrafficCheckpoint) (b : Binding) : Except String Bytes := do
  check (hexOf 32 b.job && hexOf 32 b.worker && hexOf 64 b.requestSha256)
    "owned traffic checkpoint identity is invalid"
  let total ← point.counters.totalBytes
  check (decide (point.sequence = 0) == decide (total = 0)) "owned traffic checkpoint origin is invalid"
  .ok (line (point.payload b))

/-- `payload[key].as_u64()`. -/
def number (payload : Json) (key : String) : Except String ℕ :=
  orError ((payload.get key).asU64.filter fun n => decide (n < u64Bound))
    "owned traffic checkpoint counter is invalid"

/-- `OwnedTrafficCheckpoint::decode_bound`, the fields. -/
def fields (payload : Json) : Except String OwnedTrafficCheckpoint := do
  let sequence ← number payload "sequence"
  check (decide (sequence < u32Bound)) "owned traffic sequence is too large"
  let backendRx ← number payload "backend_rx"
  let backendTx ← number payload "backend_tx"
  let probeRx ← number payload "probe_rx"
  let probeTx ← number payload "probe_tx"
  .ok { sequence, counters := ⟨⟨backendRx, backendTx⟩, ⟨probeRx, probeTx⟩⟩ }

def decodeBound (r : Reader) (input : Bytes) (b : Binding) :
    Except String OwnedTrafficCheckpoint := do
  check (decide (input.length ≤ 4096)) "owned traffic checkpoint is oversized"
  let value ← orError (r.read input).toOption "owned traffic checkpoint JSON is invalid"
  let point ← fields (value.get "payload")
  let encoded ← point.encodeBound b
  check (encoded == input) "owned traffic checkpoint binding or integrity mismatch"
  .ok point

end OwnedTrafficCheckpoint

theorem plain_of_hexOf {value : Bytes} {n : ℕ} (h : hexOf n value = true) :
    value.all plainByte = true := by
  rw [hexOf, Bool.and_eq_true] at h
  exact plain_of_hex h.2

theorem length_of_hexOf {value : Bytes} {n : ℕ} (h : hexOf n value = true) : value.length = n := by
  rw [hexOf, Bool.and_eq_true, beq_iff_eq] at h
  exact h.1

theorem length_line_le (payload : Json) : (line payload).length ≤ (text payload).length + 100 := by
  have hkeys : "payload".toList.length = 7 ∧ "sha256".toList.length = 6 := by decide +kernel
  have hdigest := length_str (sha256 payload.bytes)
  rw [sha256_length] at hdigest
  rw [line, record, sealed, bytes, length_append, length_map, text]
  simp only [textFields, quoted, length_cons, length_append, length_nil, hkeys.1, hkeys.2]
  omega

theorem sealed_plain {payload : Json} (h : payload.plain = true) : (sealed payload).plain = true := by
  have hdigest := plain_of_hex (sha256_hex payload.bytes)
  have hpayload : "payload".toList.all plainChar = true := by decide
  have hsha256 : "sha256".toList.all plainChar = true := by decide
  simp only [sealed, plain, plainFields, h, hpayload, hsha256, hdigest, Bool.and_true]

theorem read_line (r : Reader) {payload : Json} (h : payload.plain = true) :
    r.read (line payload) = .ok (sealed payload) := r.read_line _ (sealed_plain h)

@[simp] theorem sealed_payload (payload : Json) : (sealed payload).get "payload" = payload := rfl

namespace OwnedTrafficCheckpoint

variable {point : OwnedTrafficCheckpoint} {b : Binding} {encoded : Bytes}

/-- What a checkpoint that is written satisfies. -/
structure Written (point : OwnedTrafficCheckpoint) (b : Binding) : Prop where
  job : hexOf 32 b.job = true
  worker : hexOf 32 b.worker = true
  request : hexOf 64 b.requestSha256 = true
  total : point.counters.rx + point.counters.tx < u64Bound
  origin : point.sequence = 0 ↔ point.counters.rx + point.counters.tx = 0

theorem encodeBound_eq_ok :
    point.encodeBound b = .ok encoded ↔ Written point b ∧ encoded = line (point.payload b) := by
  simp only [encodeBound, bind_ok, exists_unit, check_ok, Bool.and_eq_true,
    OwnedTrafficSnapshot.totalBytes_eq_ok, ok.injEq, beq_iff_eq, decide_eq_decide]
  constructor
  · rintro ⟨⟨⟨hjob, hworker⟩, hrequest⟩, _, ⟨htotal, rfl⟩, horigin, rfl⟩
    exact ⟨⟨hjob, hworker, hrequest, htotal, horigin⟩, rfl⟩
  · rintro ⟨h, rfl⟩
    exact ⟨⟨⟨h.job, h.worker⟩, h.request⟩, _, ⟨h.total, rfl⟩, h.origin, rfl⟩

theorem Written.plain (h : Written point b) : (point.payload b).plain = true := by
  have hjob := plain_of_hexOf h.job
  have hworker := plain_of_hexOf h.worker
  have hrequest := plain_of_hexOf h.request
  have hname : (ascii "owned-ip-system-dns-estimate-v1").all Json.plainByte = true := by decide
  have hkeys : (["accounting", "backend_rx", "backend_tx", "job_id", "probe_rx", "probe_tx",
    "request_sha256", "schema_version", "sequence", "worker_run_id"].all
      fun key => key.toList.all Json.plainChar) = true := by decide
  simp only [all_cons, all_nil, Bool.and_true, Bool.and_eq_true] at hkeys
  simp only [payload, Json.plain, Json.plainFields, hjob, hworker, hrequest, hname, hkeys,
    Bool.and_true]

theorem fields_payload (h : Written point b) (hsequence : point.sequence < u32Bound) :
    fields (point.payload b) = .ok point := by
  have htotal := h.total
  simp only [OwnedTrafficSnapshot.rx, OwnedTrafficSnapshot.tx] at htotal
  have hnumber : ∀ (key : String) (n : ℕ), (point.payload b).get key = .num n → n < u64Bound →
      number (point.payload b) key = .ok n := by
    intro key n hget hn
    simp [number, hget, orError, Option.filter, hn]
  have hwide : point.sequence < u64Bound := hsequence.trans (by decide)
  simp only [fields, bind_ok, exists_unit, check_ok, decide_eq_true_eq]
  refine ⟨_, hnumber _ _ rfl hwide, hsequence, _, hnumber _ _ rfl ?_, _, hnumber _ _ rfl ?_,
    _, hnumber _ _ rfl ?_, _, hnumber _ _ rfl ?_, rfl⟩
  all_goals omega

theorem length_line (h : Written point b) (hsequence : point.sequence < u32Bound) :
    (line (point.payload b)).length ≤ 4096 := by
  have htotal := h.total
  simp only [OwnedTrafficSnapshot.rx, OwnedTrafficSnapshot.tx] at htotal
  have hwide : u64Bound < 10 ^ 20 := by decide
  have hnarrow : u32Bound < 10 ^ 20 := by decide
  have hnumber : ∀ n : ℕ, n < 10 ^ 20 → (text (.num n)).length ≤ 20 :=
    fun n hn => length_number (by decide) hn
  have hnumbers := And.intro (hnumber point.counters.backend.rxBytes (by omega))
    (hnumber point.counters.backend.txBytes (by omega))
  have hnumbers' := And.intro (hnumber point.counters.probes.rxBytes (by omega))
    (hnumber point.counters.probes.txBytes (by omega))
  have hsequence' := hnumber point.sequence (by omega)
  have hschema : (text (.num 1)).length = 1 := by decide +kernel
  have hlengths := And.intro (length_of_hexOf h.job) (length_of_hexOf h.worker)
  have hdigest := length_of_hexOf h.request
  have htexts := And.intro (length_str b.job) (length_str b.worker)
  have htexts' := And.intro (length_str b.requestSha256)
    (length_str (sha256 (point.payload b).bytes))
  have hname := length_str (ascii "owned-ip-system-dns-estimate-v1")
  have hnameLength : (ascii "owned-ip-system-dns-estimate-v1").length = 31 := by decide +kernel
  have hkeys : "accounting".toList.length = 10 ∧ "backend_rx".toList.length = 10 ∧
      "backend_tx".toList.length = 10 ∧ "job_id".toList.length = 6 ∧
      "probe_rx".toList.length = 8 ∧ "probe_tx".toList.length = 8 ∧
      "request_sha256".toList.length = 14 ∧ "schema_version".toList.length = 14 ∧
      "sequence".toList.length = 8 ∧ "worker_run_id".toList.length = 13 := by decide +kernel
  obtain ⟨h₁, h₂, h₃, h₄, h₅, h₆, h₇, h₈, h₉, h₁₀⟩ := hkeys
  have hpayload : (text (point.payload b)).length ≤ 1000 := by
    rw [payload, text]
    simp only [textFields, quoted, length_cons, length_append,
      length_nil, h₁, h₂, h₃, h₄, h₅, h₆, h₇, h₈, h₉, h₁₀]
    omega
  exact (length_line_le _).trans (by omega)

variable {r : Reader}

/-- **A checkpoint that is read is the one that was written**, whatever it is read for. -/
theorem eq_of_decodeBound {q : OwnedTrafficCheckpoint} {b' : Binding} (h : Written point b)
    (hsequence : point.sequence < u32Bound)
    (hread : decodeBound r (line (point.payload b)) b' = .ok q) : q = point := by
  simp only [decodeBound, bind_ok, exists_unit, check_ok, read_line r h.plain,
    Except.toOption, orError_eq_ok, Option.some.injEq] at hread
  obtain ⟨-, _, rfl, p, hp, _, -, -, hq⟩ := hread
  rw [sealed_payload, fields_payload h hsequence, Except.ok.injEq] at hp
  rw [← hp, Except.ok.injEq] at hq
  exact hq.symm

/-- **One that was written is read.** -/
theorem decodeBound_line (h : Written point b) (hsequence : point.sequence < u32Bound) :
    decodeBound r (line (point.payload b)) b = .ok point := by
  simp only [decodeBound, bind_ok, exists_unit, check_ok, read_line r h.plain,
    Except.toOption, orError_eq_ok, decide_eq_true_eq]
  refine ⟨length_line h hsequence, _, rfl, point, fields_payload h hsequence, _,
    encodeBound_eq_ok.mpr ⟨h, rfl⟩, ?_, rfl⟩
  exact beq_self_eq_true _

theorem written_of_decodeBound {input : Bytes} (h : decodeBound r input b = .ok point) :
    Written point b ∧ input = line (point.payload b) := by
  simp only [decodeBound, bind_ok, exists_unit, check_ok] at h
  obtain ⟨-, value, -, p, -, encoded, hencoded, heq, hp⟩ := h
  obtain ⟨hwritten, hline⟩ := encodeBound_eq_ok.mp hencoded
  rw [ok.injEq] at hp
  rw [← hp, ← beq_iff_eq.mp heq]
  exact ⟨hwritten, hline⟩

end OwnedTrafficCheckpoint

end CakeAutorate.OwnedTraffic
