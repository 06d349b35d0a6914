/-
# The store of candidate transfers

`Store` and `dispatch` of `config_transfer.rs`.  The store is a private directory, in the
order in which it lists its entries; a call runs under the lock of that directory, so it
is one function of it.  A call reads the boot clock and the wall clock once, and one of
its system calls may fail: the lock is held, the scan stops at an entry, a write stores
only the first of its bytes, or another operation fails before it has changed anything.

What `config_candidate::validate_bytes` answers is a parameter.
-/

import CakeAutorate.Transfer.Record

namespace CakeAutorate.Transfer

open Syscall

def CHUNK_BYTES : ℕ := 1024
def MAX_ACTIVE : ℕ := 4
def MAX_SCAN : ℕ := 64

/-- An entry of the directory: a private file. -/
structure Entry where
  name : Bytes
  content : Bytes
  mtime : ℤ

/-- The directory, in the order of `read_dir`. -/
abbrev Dir := List Entry

namespace Dir

def find (d : Dir) (name : Bytes) : Option Entry := List.find? (fun e => e.name = name) d

def create (d : Dir) (position : ℕ) (e : Entry) : Dir := d.take position ++ e :: d.drop position

/-- `remove_file`. -/
def unlink (d : Dir) (name : Bytes) : Dir := d.filter fun e => e.name ≠ name

def extend (d : Dir) (name : Bytes) (bytes : Bytes) (stamp : ℤ) : Dir :=
  d.map fun e => if e.name = name then { e with content := e.content ++ bytes, mtime := stamp } else e

end Dir

/-- What goes wrong in a call. -/
inductive Fault where
  | none
  | busy
  /-- The scan stops at an entry. -/
  | scan (entries : ℕ)
  /-- Another operation fails, or the call ends, before it has changed anything. -/
  | stop
  /-- A write stores only so many bytes and fails, or the call ends in it.  The header of a
  new transfer is removed again. -/
  | write (stored : ℕ)
  /-- The call ends while it writes the header of a new transfer: so many bytes stay. -/
  | torn (stored : ℕ)
  deriving DecidableEq

/-- The surroundings of a call. -/
structure Call where
  /-- Seconds on the boot clock. -/
  now : UInt64
  /-- Seconds on the wall clock. -/
  wall : ℤ
  /-- From `/dev/urandom`. -/
  random : Random
  /-- Where the directory lists a new file. -/
  position : ℕ
  /-- The time that a write leaves. -/
  stamp : ℤ
  fault : Fault

/-- A call in progress: it answers `Ok` or `Err` and leaves a directory in both cases. -/
abbrev Action := EStateM String Dir

/-- `if refused { return Err(code) }`. -/
def refuseIf (refused : Prop) [Decidable refused] (code : String) : Action Unit :=
  if refused then throw code else pure ()

/-- What the scan makes of an entry. -/
inductive Verdict where
  | foreign
  | retired
  | live (r : Record)

/-- The body of the loop in `Store::records`. -/
def inspect (now : UInt64) (wall : ℤ) (e : Entry) : Except String Verdict :=
  match candidateToken e.name with
  | none => .ok .foreign
  | some token =>
    if e.content.length < HEADER then
      if !(e.content.take MAGIC.length).isPrefixOf MAGIC then .error "candidate-storage-unrecognized"
      else if wall < 0 then .error "candidate-storage-io"
      else if e.mtime < 0 ∨ wall < e.mtime ∨ (TTL_S : ℤ) < wall - e.mtime then .ok .retired
      else .error "candidate-storage-partial-header"
    else
      match Record.read e.content token with
      | .error code => .error code
      | .ok r =>
        if HEADER + r.length < e.content.length then .error "candidate-storage-length-invalid"
        else if r.live now then .ok (.live r)
        else .ok .retired

/-- The loop of `Store::records` from an index on: the entries that it leaves, and what
it answers. -/
def scan (c : Call) : ℕ → Dir → Dir × Except String (List Record)
  | _, [] => ([], .ok [])
  | index, e :: rest =>
    if c.fault = .scan index then (e :: rest, .error "candidate-storage-io")
    else if MAX_SCAN ≤ index then (e :: rest, .error "candidate-storage-scan-limit")
    else
      match inspect c.now c.wall e with
      | .error code => (e :: rest, .error code)
      | .ok .foreign => (e :: (scan c (index + 1) rest).1, (scan c (index + 1) rest).2)
      | .ok .retired => scan c (index + 1) rest
      | .ok (.live r) =>
        (e :: (scan c (index + 1) rest).1, (scan c (index + 1) rest).2.map fun rs => r :: rs)

def records (c : Call) : Action (List Record) := fun d =>
  match scan c 0 d with
  | (after, .ok rs) => .ok rs after
  | (after, .error code) => .error code after

/-- `Store::open`, the checks of the directory itself left out: the lock file is made on
first use. -/
def openStore (c : Call) : Action Unit := do
  let d ← get
  match d.find lockName with
  | none => set (d.create c.position ⟨lockName, [], c.stamp⟩)
  | some e => refuseIf (e.content ≠ []) "candidate-storage-lock-unsafe"
  refuseIf (c.fault = .busy) "candidate-storage-busy"

def remove (c : Call) (name : Bytes) : Action Unit := do
  refuseIf (c.fault = .stop) "candidate-storage-io"
  modify fun d => d.unlink name

/-- The answer to `begin`. -/
def begun (token : Identity) : Json :=
  .obj [("token", .str token.1), ("chunk_bytes", .num CHUNK_BYTES)]

/-- The file that `begin` creates and writes the header to. -/
def createFile (c : Call) (r : Record) : Action Json := do
  let d ← get
  refuseIf ((d.find (fileName r.token)).isSome ∨ c.fault = .stop) "candidate-storage-io"
  match c.fault with
  | .write _ => throw "candidate-storage-io"
  | .torn stored =>
    set (d.create c.position ⟨fileName r.token, r.bytes.take stored, c.stamp⟩)
    throw "candidate-storage-io"
  | _ =>
    set (d.create c.position ⟨fileName r.token, r.bytes, c.stamp⟩)
    return begun r.token

def begin (c : Call) (requestId : Identity) (length : ℕ) (digest : Bytes) : Action Json :=
  match Digest.of? digest with
  | none => throw "candidate-begin-invalid"
  | some digest =>
    if h : 0 < length ∧ length ≤ MAX_INPUT_BYTES then do
      let rs ← records c
      match rs.find? fun r => r.requestId = requestId with
      | some r =>
        refuseIf (r.length ≠ length ∨ r.digest ≠ digest) "candidate-request-conflict"
        return begun r.token
      | none =>
        refuseIf (MAX_ACTIVE ≤ rs.length) "candidate-storage-full"
        createFile c { requestId, token := c.random.token, length,
                       created := c.now, digest, length_pos := h.1, length_le := h.2 }
    else throw "candidate-begin-invalid"

def path (token : Bytes) : Action Identity :=
  match Identity.of? token with
  | none => throw "candidate-token-invalid"
  | some token => return token

def load (c : Call) (token : Bytes) (requestId : Identity) : Action (Entry × Record) := do
  let token ← path token
  match (← get).find (fileName token) with
  | none => throw "candidate-storage-io"
  | some e =>
    match Record.read e.content token with
    | .error code => throw code
    | .ok r =>
      refuseIf (r.requestId ≠ requestId) "candidate-request-mismatch"
      if !r.live c.now then do
        remove c e.name
        throw "candidate-expired"
      else do
        refuseIf (HEADER + r.length < e.content.length) "candidate-storage-length-invalid"
        return (e, r)

def hexValue (b : UInt8) : Option ℕ :=
  if 0x30 ≤ b ∧ b ≤ 0x39 then some (b.toNat - 0x30)
  else if 0x61 ≤ b ∧ b ≤ 0x66 then some (b.toNat - 0x57)
  else if 0x41 ≤ b ∧ b ≤ 0x46 then some (b.toNat - 0x37)
  else none

/-- `u8::from_str_radix(.., 16)` of two characters: a leading plus is a sign. -/
def fromStrRadix (a b : UInt8) : Option UInt8 :=
  if a = 0x2b then (hexValue b).map UInt8.ofNat
  else (hexValue a).bind fun x => (hexValue b).map fun y => UInt8.ofNat (16 * x + y)

def decodePairs : Bytes → Option Bytes
  | [] => some []
  | [_] => none
  | a :: b :: rest => (fromStrRadix a b).bind fun x => (decodePairs rest).map fun xs => x :: xs

/-- The chunk of an append, `none` for "candidate-chunk-invalid". -/
def decodeChunk (hex : Bytes) : Option Bytes :=
  if hex.isEmpty || CHUNK_BYTES * 2 < hex.length || hex.length % 2 != 0
      || hex.any (fun b => 0x80 ≤ b) then none
  else decodePairs hex

/-- The write of `append`, if there is anything to write. -/
def writeChunk (c : Call) (name : Bytes) (bytes : Bytes) : Action Unit :=
  if bytes = [] then pure () else
  match c.fault with
  | .stop => throw "candidate-storage-io"
  | .write stored => do
    modify fun d => d.extend name (bytes.take stored) c.stamp
    throw "candidate-storage-io"
  | _ => modify fun d => d.extend name bytes c.stamp

def append (c : Call) (token : Bytes) (requestId : Identity) (offset : ℕ) (hex : Bytes) :
    Action Json :=
  match decodeChunk hex with
  | none => throw "candidate-chunk-invalid"
  | some bytes => do
    let (e, r) ← load c token requestId
    refuseIf (e.content.length < HEADER) "candidate-storage-length-invalid"
    let current := e.content.length - HEADER
    let end_ := offset + bytes.length
    refuseIf (current < offset ∨ r.length < end_) "candidate-chunk-offset-invalid"
    let overlap := min (current - offset) bytes.length
    refuseIf ((e.content.drop (HEADER + offset)).take overlap ≠ bytes.take overlap)
      "candidate-chunk-conflict"
    writeChunk c e.name (bytes.drop overlap)
    return .obj [("next_offset", .num (max current end_ : ℕ))]

/-- The receipt of `finish`, from what the validation answered. -/
def receipt (requestId : Identity) (digest : Digest) (result : Json) : Json :=
  if (result.lookup "request_id").isNone ∧ (result.get "valid").asBool = some false then
    (result.insert "request_id" (.str requestId.1)).insert "candidate_sha256" (.str digest.1)
  else if (result.get "request_id").asStr ≠ some requestId.1 then
    .obj [("schema_version", .num 1), ("validation_scope", .str (ascii "controller-sqm")),
      ("request_id", .str requestId.1), ("candidate_sha256", .str digest.1), ("valid", .bool false),
      ("code", .str (ascii "candidate-body-identity-invalid"))]
  else result

/-- `Store::finish`.  The file is removed whether its digest is right or not. -/
def finish (validateBytes : Bytes → Json) (c : Call) (token : Bytes) (requestId : Identity) :
    Action Json := do
  let (e, r) ← load c token requestId
  refuseIf (e.content.length ≠ HEADER + r.length) "candidate-incomplete"
  let bytes := (e.content.drop HEADER).take (r.length + 1)
  remove c e.name
  refuseIf (bytes.length ≠ r.length ∨ digest bytes ≠ r.digest) "candidate-digest-mismatch"
  return .obj [("validation", receipt requestId r.digest (validateBytes bytes))]

/-- The answer to both forms of `cancel`. -/
def cancelled : Json := .obj [("cancelled", .bool true)]

def cancel (c : Call) (token : Bytes) (requestId : Identity) : Action Json := do
  let identity ← path token
  if ((← get).find (fileName identity)).isNone then
    return cancelled
  else do
    let (e, _) ← load c token requestId
    remove c e.name
    return cancelled

def cancelRequest (c : Call) (requestId : Identity) (digest : Bytes) : Action Json :=
  match Digest.of? digest with
  | none => throw "candidate-digest-invalid"
  | some digest => do
    match (← records c).find? fun r => r.requestId = requestId with
    | some r =>
      refuseIf (r.digest ≠ digest) "candidate-request-conflict"
      cancel c r.token.1 requestId
    | none => return cancelled

def required {α : Type} (field : Option α) (code : String) : Action α :=
  match field with
  | none => throw code
  | some a => return a

/-- The methods of `dispatch`. -/
def serve (validateBytes : Bytes → Json) (c : Call) (method : String) (request : Json)
    (requestId : Identity) : Action Json :=
  let token := required (request.get "token").asStr "candidate-token-invalid"
  let sha256 := required (request.get "sha256").asStr "candidate-digest-invalid"
  let number := fun key =>
    required ((request.get key).asU64.filter fun n => n < 2 ^ 64) "candidate-number-invalid"
  match method with
  | "begin" => do begin c requestId (← number "length") (← sha256)
  | "append" => do
    append c (← token) requestId (← number "offset")
      (← required (request.get "data").asStr "candidate-chunk-invalid")
  | "finish" => do finish validateBytes c (← token) requestId
  | "cancel" =>
    match (request.get "token").asStr with
    | some (b :: rest) => cancel c (b :: rest) requestId
    | _ => do cancelRequest c requestId (← sha256)
  | _ => throw "candidate-method-invalid"

def accepted (requestId : Identity) (data : Json) : Json :=
  .obj [("schema_version", .num 1), ("request_id", .str requestId.1), ("ok", .bool true),
    ("result", data)]

def dispatch (validateBytes : Bytes → Json) (c : Call) (method : String) (request : Json) :
    Action Json := do
  let requestId ← required ((request.get "request_id").asStr.bind Identity.of?)
    "candidate-request-id-invalid"
  openStore c
  let _ ← if method ≠ "begin" then records c else pure []
  let data ← serve validateBytes c method request requestId
  return accepted requestId data

end CakeAutorate.Transfer
