/-
# The wire codec of routed queries

`query` and `answer` of `routed_dns.rs`: an address query for a host, and what a reply says about
it.  A packet is a list of bytes.  An index outside it is an error of the code where it looks with
`get`, and a panic of its own where it does not.
-/

import CakeAutorate.Machine.Fallible
import CakeAutorate.Protocol.Request
import Mathlib.Data.List.Sort

namespace CakeAutorate.RoutedDns

open Protocol

abbrev Bytes := List UInt8

/-- How a call fails: with an error, or by an index that is out of bounds. -/
inductive Failure
  | error (message : String)
  | panicked
deriving DecidableEq

def maxPacket : ℕ := 4096

def maxRecords : ℕ := 64

def invalid : Failure := .error "routed-dns-invalid-response"

/-- `if .. { return Err(INVALID.into()) }`. -/
def require (ok : Bool) : Except Failure Unit := if ok then .ok () else .error invalid

theorem require_ok {ok : Bool} {u : Unit} : require ok = .ok u ↔ ok = true := by
  cases ok <;> simp [require]

/-- `u8::to_ascii_lowercase`. -/
def lower (b : UInt8) : UInt8 := if 0x41 ≤ b ∧ b ≤ 0x5a then b + 0x20 else b

/-- A byte of a label: a letter, a digit, `-` or `_`. -/
def isLabelByte (b : UInt8) : Bool :=
  (0x30 ≤ b && b ≤ 0x39) || (0x41 ≤ b && b ≤ 0x5a) || (0x61 ≤ b && b ≤ 0x7a) || b == 0x2d ||
    b == 0x5f

/-- `query`, a label that is refused. -/
def badLabel (label : Bytes) : Bool :=
  label.isEmpty || decide (label.length > 63) || label.head? == some 0x2d
    || label.getLast? == some 0x2d || !label.all isLabelByte

def wireLabel (label : Bytes) : Bytes := UInt8.ofNat label.length :: label.map lower

/-- `u16::to_be_bytes`. -/
def beBytes (n : UInt16) : Bytes := [(n >>> 8).toUInt8, n.toUInt8]

def hostLabels (host : Bytes) : List Bytes :=
  (if host.getLast? = some 0x2e then host.dropLast else host).splitOn 0x2e

def queryHeader (id : UInt16) : Bytes := beBytes id ++ [1, 0, 0, 1, 0, 0, 0, 0, 0, 0]

def query (host : Bytes) (id : UInt16) : Except Failure Bytes :=
  let plain := if host.getLast? = some 0x2e then host.dropLast else host
  if plain.isEmpty ∨ plain.length > 253 then .error (.error "routed-dns-invalid-host")
  else if (hostLabels host).any badLabel then .error (.error "routed-dns-invalid-host")
  else .ok (queryHeader id ++ (hostLabels host).flatMap wireLabel ++ [0, 0, 1, 0, 1])

def word (packet : Bytes) (offset : ℕ) : Except Failure ℕ :=
  match packet[offset]?, packet[offset + 1]? with
  | some high, some low => .ok (256 * high.toNat + low.toNat)
  | _, _ => .error invalid

/-- `packet.get(..).ok_or(INVALID)?`. -/
def byte (packet : Bytes) (at_ : ℕ) : Except Failure UInt8 :=
  match packet[at_]? with
  | some b => .ok b
  | none => .error invalid

/-- `packet.get(start..start + size).ok_or(INVALID)?`. -/
def slice (packet : Bytes) (start size : ℕ) : Except Failure Bytes := do
  require (decide (start + size ≤ packet.length))
  return (packet.drop start).take size

def pointerTarget (w : ℕ) : ℕ := w &&& 0x3fff

/-- The loop of `name`: its bound, the offset, whether it has jumped, the cursor of the caller and
the bytes so far. -/
def nameFrom (packet : Bytes) : ℕ → ℕ → Bool → ℕ → Bytes → Except Failure (Bytes × ℕ)
  | 0, _, _, _, _ => .error invalid
  | bound + 1, at_, jumped, cursor, result => do
    let size ← byte packet at_
    if size &&& 0xc0 = 0xc0 then
      let target := pointerTarget (← word packet at_)
      if target < 12 ∨ at_ ≤ target then .error invalid
      else nameFrom packet bound target true (if jumped then cursor else at_ + 2) result
    else if size ≤ 63 then
      if result.length + size.toNat + 1 > 255 then .error invalid
      else
        let label ← slice packet (at_ + 1) size.toNat
        let result := result ++ size :: label.map lower
        let next := at_ + 1 + size.toNat
        let cursor := if jumped then cursor else next
        if size = 0 then .ok (result, cursor)
        else nameFrom packet bound next jumped cursor result
    else .error invalid

/-- `name`: the expanded name, and the cursor behind it. -/
def name (packet : Bytes) (cursor : ℕ) : Except Failure (Bytes × ℕ) :=
  nameFrom packet 128 cursor false cursor []

/-- A record: its owner, type and class, and where its data are. -/
structure Record where
  owner : Bytes
  kind : ℕ
  class_ : ℕ
  start : ℕ
  length : ℕ
deriving DecidableEq

/-- `answer`, the record at an offset, with the offset behind it. -/
def readRecord (packet : Bytes) (at_ : ℕ) : Except Failure (Record × ℕ) := do
  let (owner, at_) ← name packet at_
  let kind ← word packet at_
  let class_ ← word packet (at_ + 2)
  let length ← word packet (at_ + 8)
  let start := at_ + 10
  require (decide (start + length ≤ packet.length))
  return ({ owner, kind, class_, start, length }, start + length)

/-- `packet[at]`. -/
def index (packet : Bytes) (at_ : ℕ) : Except Failure UInt8 :=
  match packet[at_]? with
  | some b => .ok b
  | none => .error .panicked

/-- What was found in the answer section. -/
structure Found where
  addresses : List (Bytes × Ipv4Addr) := []
  aliases : List (Bytes × Bytes) := []

/-- `answer`, what a record of the answer section adds. -/
def Found.read (found : Found) (packet : Bytes) (r : Record) : Except Failure Found := do
  if r.class_ ≠ 1 then return found
  else if r.kind = 1 then
    require (decide (r.length = 4))
    let a ← index packet r.start
    let b ← index packet (r.start + 1)
    let c ← index packet (r.start + 2)
    let d ← index packet (r.start + 3)
    return { found with addresses := found.addresses ++ [(r.owner, ⟨a, b, c, d⟩)] }
  else if r.kind = 5 then
    let (target, cursor) ← name packet r.start
    require (decide (cursor = r.start + r.length))
    return { found with aliases := found.aliases ++ [(r.owner, target)] }
  else return found

/-- `answer`, the records: how many are left in the answer section, and how many in all. -/
def readRecords (packet : Bytes) : ℕ → ℕ → ℕ → Found → Except Failure (Found × ℕ)
  | _, 0, at_, found => .ok (found, at_)
  | answers, total + 1, at_, found => do
    let (r, next) ← readRecord packet at_
    let found ← if 0 < answers then found.read packet r else .ok found
    readRecords packet (answers - 1) total next found

/-- `Vec::dedup`. -/
def dedup : List Ipv4Addr → List Ipv4Addr
  | [] => []
  | [ip] => [ip]
  | ip :: next :: rest => if ip = next then dedup (next :: rest) else ip :: dedup (next :: rest)

/-- `sort` and `dedup`. -/
def normal (ips : List Ipv4Addr) : List Ipv4Addr :=
  dedup (ips.insertionSort fun a b => a.bits ≤ b.bits)

def addressesOf (found : Found) (owner : Bytes) : List Ipv4Addr :=
  normal ((found.addresses.filter fun p => p.1 = owner).map Prod.snd)

/-- `answer`, the walk along the aliases: how many names may still be visited, and which have
been. -/
def walk (found : Found) : ℕ → Bytes → List Bytes → Except Failure (List Ipv4Addr)
  | 0, _, _ => .error (.error "routed-dns-alias-limit")
  | bound + 1, current, seen => do
    require (!seen.contains current)
    match found.aliases.filter fun p => p.1 = current with
    | (_, target) :: others =>
      require (!(others.any (fun p => p.2 ≠ target)
        || found.addresses.any fun p => p.1 = current))
      walk found bound target (current :: seen)
    | [] =>
      let result := addressesOf found current
      if result.isEmpty ∨ result.length > 32 then .error (.error "routed-dns-no-bounded-answer")
      else .ok result

/-- `request[12..request.len() - 4]`. -/
def requestName (request : Bytes) : Except Failure Bytes :=
  if 12 ≤ request.length - 4 ∧ 4 ≤ request.length then
    .ok ((request.drop 12).take (request.length - 4 - 12))
  else .error .panicked

def answer (packet request : Bytes) : Except Failure (List Ipv4Addr) := do
  require (decide (12 ≤ packet.length ∧ packet.length ≤ maxPacket))
  require (decide (17 ≤ request.length))
  require ((← word packet 0) == (← word request 0))
  require ((← word packet 2) &&& 0xfa4f == 0x8000)
  require ((← word packet 4) == 1)
  let answers ← word packet 6
  let authorities ← word packet 8
  let additional ← word packet 10
  let total := answers + authorities + additional
  require (decide (total ≤ maxRecords))
  let (question, at_) ← name packet 12
  let asked ← requestName request
  require (question == asked && (packet.drop at_).take 4 == [0, 1, 0, 1])
  let (found, at_) ← readRecords packet answers total (at_ + 4) {}
  require (decide (at_ = packet.length))
  walk found 9 question []

end CakeAutorate.RoutedDns
