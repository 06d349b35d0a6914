/-
# The file of a candidate transfer

`config_transfer.rs`: identities, and the header of 192 bytes that a transfer's file
starts with.

| bytes | field |
| --- | --- |
| 0 .. 27 | magic |
| 32 .. 64 | request id |
| 64 .. 72 | length, little-endian |
| 72 .. 80 | created, little-endian |
| 80 .. 112 | token |
| 112 .. 176 | digest |

The bytes between are zero.  What `Record.bytes` writes `Record.read` reads, whatever
body follows; a header that was cut off is recognised by its magic.
-/

import CakeAutorate.Syscall.Sha256

namespace CakeAutorate.Transfer

open Syscall List

/-- `identity`: 32 lower-case hex digits. -/
def identity (value : Bytes) : Bool := value.length == 32 && value.all hexDigit

/-- `digest_identity`: 64 lower-case hex digits. -/
def digestIdentity (value : Bytes) : Bool := value.length == 64 && value.all hexDigit

/-- A text that passed `identity`. -/
def Identity := { value : Bytes // identity value = true }
  deriving DecidableEq

/-- A text that passed `digest_identity`. -/
def Digest := { value : Bytes // digestIdentity value = true }
  deriving DecidableEq

def Identity.of? (value : Bytes) : Option Identity :=
  if h : identity value = true then some ⟨value, h⟩ else none

def Digest.of? (value : Bytes) : Option Digest :=
  if h : digestIdentity value = true then some ⟨value, h⟩ else none

theorem Identity.length (i : Identity) : i.1.length = 32 := by
  have h := i.2
  simp only [identity, Bool.and_eq_true, beq_iff_eq] at h
  exact h.1

theorem Digest.length (d : Digest) : d.1.length = 64 := by
  have h := d.2
  simp only [digestIdentity, Bool.and_eq_true, beq_iff_eq] at h
  exact h.1

@[simp] theorem Identity.of?_eq_some {value : Bytes} {i : Identity} :
    Identity.of? value = some i ↔ value = i.1 := by
  unfold Identity.of?
  constructor
  · intro h
    split at h
    · cases h; rfl
    · cases h
  · rintro rfl
    rw [dif_pos i.2]
    rfl

@[simp] theorem Digest.of?_eq_some {value : Bytes} {d : Digest} :
    Digest.of? value = some d ↔ value = d.1 := by
  unfold Digest.of?
  constructor
  · intro h
    split at h
    · cases h; rfl
    · cases h
  · rintro rfl
    rw [dif_pos d.2]
    rfl

/-- `config_candidate::digest`. -/
def digest (bytes : Bytes) : Digest :=
  ⟨sha256 bytes, by simp [digestIdentity, sha256_length, sha256_hex]⟩

/-- `format!("{byte:02x}")` of each byte. -/
def hexText (random : Bytes) : Bytes :=
  random.flatMap fun b => [Sha256.digit (b.toNat / 16), Sha256.digit b.toNat]

theorem hexText_length (random : Bytes) : (hexText random).length = 2 * random.length := by
  induction random with
  | nil => rfl
  | cons b rest ih =>
    simp only [hexText, flatMap_cons, length_append, length_cons, length_nil] at ih ⊢
    omega

theorem hexText_hex (random : Bytes) : (hexText random).all hexDigit = true := by
  simp [hexText, Sha256.hexDigit_digit]

abbrev Random := { bytes : Bytes // bytes.length = 16 }

def Random.token (r : Random) : Identity :=
  ⟨hexText r.1, by simp [identity, hexText_length, hexText_hex, r.2]⟩

/-- The `k` little-endian bytes of a number. -/
def leBytes : ℕ → ℕ → Bytes
  | 0, _ => []
  | k + 1, n => UInt8.ofNat n :: leBytes k (n / 256)

def fromLeBytes : Bytes → ℕ
  | [] => 0
  | b :: rest => b.toNat + 256 * fromLeBytes rest

@[simp] theorem leBytes_length (k n : ℕ) : (leBytes k n).length = k := by
  induction k generalizing n with
  | zero => rfl
  | succ k ih => simp [leBytes, ih]

theorem fromLeBytes_leBytes (k n : ℕ) (h : n < 256 ^ k) : fromLeBytes (leBytes k n) = n := by
  induction k generalizing n with
  | zero => simp only [pow_zero, Nat.lt_one_iff] at h; simp [leBytes, fromLeBytes, h]
  | succ k ih =>
    have hrest : n / 256 < 256 ^ k := by
      exact Nat.div_lt_of_lt_mul (by omega)
    rw [leBytes, fromLeBytes, ih _ hrest, UInt8.toNat_ofNat']
    omega

def MAGIC : Bytes := ascii "cake-candidate-transfer-v1\n"
def HEADER : ℕ := 192
def TTL_S : ℕ := 120
/-- `config_candidate::MAX_INPUT_BYTES`. -/
def MAX_INPUT_BYTES : ℕ := 256 * 1024

/-- `Record`.  Every one that the store builds or reads has passed these checks. -/
structure Record where
  requestId : Identity
  token : Identity
  length : ℕ
  created : UInt64
  digest : Digest
  length_pos : 0 < length
  length_le : length ≤ MAX_INPUT_BYTES

namespace Record

variable (r : Record)

def bytes : Bytes :=
  MAGIC ++ (replicate 5 0 ++ (r.requestId.1 ++ (leBytes 8 r.length ++
    (leBytes 8 r.created.toNat ++ (r.token.1 ++ (r.digest.1 ++ replicate 16 0))))))

/-- `Record::read`.  A text that is not UTF-8 is no identity, so the two refusals of the
source are one. -/
def read (content : Bytes) (token : Identity) : Except String Record :=
  if content.length < HEADER then .error "candidate-storage-io" else
  let data := content.take HEADER
  let length := fromLeBytes ((data.drop 64).take 8)
  if data.take MAGIC.length != MAGIC || (data.drop MAGIC.length).take 5 != replicate 5 0
      || data.drop 176 != replicate 16 0 then
    .error "candidate-storage-unrecognized"
  else
    match Identity.of? ((data.drop 32).take 32), Digest.of? ((data.drop 112).take 64) with
    | some requestId, some digest =>
      if h : (data.drop 80).take 32 = token.1 ∧ 0 < length ∧ length ≤ MAX_INPUT_BYTES then
        .ok { requestId, token, length,
              created := UInt64.ofNat (fromLeBytes ((data.drop 72).take 8)), digest,
              length_pos := h.2.1, length_le := h.2.2 }
      else .error "candidate-storage-unrecognized"
    | _, _ => .error "candidate-storage-unrecognized"

def live (now : UInt64) : Bool :=
  r.created.toNat ≤ now.toNat && now.toNat - r.created.toNat ≤ TTL_S

theorem magic_length : MAGIC.length = 27 := by decide

@[simp] theorem bytes_length : r.bytes.length = HEADER := by
  simp [bytes, magic_length, r.requestId.length, r.token.length, r.digest.length, HEADER]

end Record

theorem drop_append_add {α : Type*} (first rest : List α) {n m : ℕ} (h : n = first.length + m) :
    (first ++ rest).drop n = rest.drop m := by
  rw [h, drop_append]
  simp

theorem take_append_length {α : Type*} (first rest : List α) {n : ℕ} (h : n = first.length) :
    (first ++ rest).take n = first := by
  rw [h, take_append]
  simp

namespace Record

variable (r : Record)

/-! The fields of a header, by their offsets. -/

theorem bytes_take_magic : r.bytes.take MAGIC.length = MAGIC := take_append_length _ _ rfl

theorem bytes_drop_27 : r.bytes.drop MAGIC.length = replicate 5 0 ++ (r.requestId.1 ++
    (leBytes 8 r.length ++ (leBytes 8 r.created.toNat ++ (r.token.1 ++ (r.digest.1 ++
      replicate 16 0))))) := by
  rw [bytes, drop_append_add _ _ (Nat.add_zero _).symm, drop_zero]

theorem bytes_drop_32 : r.bytes.drop 32 = r.requestId.1 ++ (leBytes 8 r.length ++
    (leBytes 8 r.created.toNat ++ (r.token.1 ++ (r.digest.1 ++ replicate 16 0)))) := by
  have hmagic := magic_length
  rw [bytes, drop_append_add (m := 5) _ _ (by omega), drop_append_add (m := 0) _ _ (by simp),
    drop_zero]

theorem bytes_drop_64 : r.bytes.drop 64 = leBytes 8 r.length ++ (leBytes 8 r.created.toNat ++
    (r.token.1 ++ (r.digest.1 ++ replicate 16 0))) := by
  have hid := r.requestId.length
  rw [show 64 = 32 + 32 from rfl, ← drop_drop, bytes_drop_32,
    drop_append_add (m := 0) _ _ (by omega), drop_zero]

theorem bytes_drop_72 : r.bytes.drop 72 = leBytes 8 r.created.toNat ++
    (r.token.1 ++ (r.digest.1 ++ replicate 16 0)) := by
  rw [show 72 = 64 + 8 from rfl, ← drop_drop, bytes_drop_64,
    drop_append_add (m := 0) _ _ (by simp), drop_zero]

theorem bytes_drop_80 : r.bytes.drop 80 = r.token.1 ++ (r.digest.1 ++ replicate 16 0) := by
  rw [show 80 = 72 + 8 from rfl, ← drop_drop, bytes_drop_72,
    drop_append_add (m := 0) _ _ (by simp), drop_zero]

theorem bytes_drop_112 : r.bytes.drop 112 = r.digest.1 ++ replicate 16 0 := by
  have htok := r.token.length
  rw [show 112 = 80 + 32 from rfl, ← drop_drop, bytes_drop_80,
    drop_append_add (m := 0) _ _ (by omega), drop_zero]

theorem bytes_drop_176 : r.bytes.drop 176 = replicate 16 0 := by
  have hdig := r.digest.length
  rw [show 176 = 112 + 64 from rfl, ← drop_drop, bytes_drop_112,
    drop_append_add (m := 0) _ _ (by omega), drop_zero]

/-- **The header is read back**, whatever body follows. -/
theorem read_bytes (body : Bytes) : read (r.bytes ++ body) r.token = .ok r := by
  have hcontent : ¬ (r.bytes ++ body).length < HEADER := by simp
  have hdata : (r.bytes ++ body).take HEADER = r.bytes := take_append_length _ _ (by simp)
  have hzeros : (r.bytes.drop MAGIC.length).take 5 = replicate 5 0 := by
    rw [bytes_drop_27]; exact take_append_length _ _ (by simp)
  have hrequest : Identity.of? ((r.bytes.drop 32).take 32) = some r.requestId := by
    rw [bytes_drop_32, take_append_length _ _ r.requestId.length.symm, Identity.of?_eq_some]
  have hlength : fromLeBytes ((r.bytes.drop 64).take 8) = r.length := by
    rw [bytes_drop_64, take_append_length _ _ (by simp)]
    refine fromLeBytes_leBytes 8 _ ?_
    have := r.length_le
    unfold MAX_INPUT_BYTES at this
    omega
  have hcreated : UInt64.ofNat (fromLeBytes ((r.bytes.drop 72).take 8)) = r.created := by
    rw [bytes_drop_72, take_append_length _ _ (by simp),
      fromLeBytes_leBytes 8 _ (by simpa using r.created.toNat_lt), UInt64.ofNat_toNat]
  have htoken : (r.bytes.drop 80).take 32 = r.token.1 := by
    rw [bytes_drop_80]; exact take_append_length _ _ r.token.length.symm
  have hdigest : Digest.of? ((r.bytes.drop 112).take 64) = some r.digest := by
    rw [bytes_drop_112, take_append_length _ _ r.digest.length.symm, Digest.of?_eq_some]
  unfold read
  simp only [hdata, bytes_take_magic, hzeros, hrequest, hlength, hcreated, htoken, hdigest,
    bytes_drop_176]
  simp [r.length_pos, r.length_le]

variable {r}

theorem read_short {content : Bytes} (h : content.length < HEADER) (token : Identity) :
    read content token = .error "candidate-storage-io" := by
  rw [read, if_pos h]

theorem read_token {content : Bytes} {token : Identity} {r : Record}
    (h : read content token = .ok r) : r.token = token := by
  unfold read at h
  split at h
  · cases h
  simp only at h
  split at h
  · cases h
  split at h
  · split at h
    · cases h; rfl
    · cases h
  · cases h

end Record

def candidateSuffix : Bytes := ascii ".candidate"

/-- `Store::path`, the name within the store. -/
def fileName (token : Identity) : Bytes := token.1 ++ candidateSuffix

def lockName : Bytes := ascii ".lock"

/-- The token that `records` takes from a name. -/
def candidateToken (name : Bytes) : Option Identity :=
  if candidateSuffix.isSuffixOf name then
    Identity.of? (name.take (name.length - candidateSuffix.length))
  else none

theorem fileName_injective {t u : Identity} (h : fileName t = fileName u) : t = u :=
  Subtype.ext (append_cancel_right h)

@[simp] theorem candidateToken_eq_some {name : Bytes} {t : Identity} :
    candidateToken name = some t ↔ name = fileName t := by
  unfold candidateToken
  constructor
  · intro h
    split at h
    · rename_i hsuffix
      obtain ⟨front, hfront⟩ := isSuffixOf_iff_suffix.1 hsuffix
      rw [Identity.of?_eq_some, ← hfront, length_append, Nat.add_sub_cancel,
        take_append_length _ _ rfl] at h
      rw [← hfront, h, fileName]
    · cases h
  · rintro rfl
    have hsuffix : candidateSuffix.isSuffixOf (fileName t) = true :=
      isSuffixOf_iff_suffix.2 ⟨t.1, rfl⟩
    rw [if_pos hsuffix, Identity.of?_eq_some, fileName, length_append, Nat.add_sub_cancel,
      take_append_length _ _ rfl]

@[simp] theorem candidateToken_fileName (t : Identity) : candidateToken (fileName t) = some t :=
  candidateToken_eq_some.2 rfl

theorem candidateToken_lockName : candidateToken lockName = none := by decide

end CakeAutorate.Transfer
