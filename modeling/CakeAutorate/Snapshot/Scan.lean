/-
# The scan of an nft snapshot

`parse_nft_snapshot` of `owned_route_rules.rs`: serde_json reads the document, and keeps the last of
two members with one key; a scan of its own over the bytes refuses a key that comes twice.  JSON is
given by its texts, over what a reader takes for a scalar and for the characters of a string.
-/

import CakeAutorate.Syscall.File

namespace CakeAutorate.Snapshot

open Syscall (Bytes ascii)

/-- How a call fails: with an error, or by a slice that is out of bounds. -/
inductive Failure
  | error (message : String)
  | panicked
deriving DecidableEq

/-- A JSON value, whose objects have their members as they are written. -/
inductive Value
  | scalar (raw : Bytes)
  | str (s : Bytes)
  | arr (items : List Value)
  | obj (members : List (Bytes × Value))

/-- Characters of a string in which every quote is escaped. -/
inductive Closed : Bytes → Prop
  | nil : Closed []
  | byte {b : UInt8} {rest : Bytes} (hquote : b ≠ 0x22) (hescape : b ≠ 0x5c) (hrest : Closed rest) :
      Closed (b :: rest)
  | escape {b : UInt8} {rest : Bytes} (hrest : Closed rest) : Closed (0x5c :: b :: rest)

/-- The words of JSON: which bytes are a literal or a number, the number that they are, and the
string that characters between quotes stand for. -/
structure Words where
  scalar : Bytes → Prop
  asU64 : Bytes → Option ℕ
  unescape : Bytes → Option Bytes
  scalar_plain : ∀ raw, scalar raw → ∀ b ∈ raw, b ≠ 0x22 ∧ b ≠ 0x7b ∧ b ≠ 0x7d
  unescape_closed : ∀ raw s, unescape raw = some s → Closed raw

def White (w : Bytes) : Prop := ∀ b ∈ w, b = 0x20 ∨ b = 0x09 ∨ b = 0x0a ∨ b = 0x0d

def quote (raw : Bytes) : Bytes := 0x22 :: raw ++ [0x22]

mutual

/-- The texts of a value. -/
inductive Words.Text (words : Words) : Value → Bytes → Prop
  | scalar {raw : Bytes} (h : words.scalar raw) : words.Text (.scalar raw) raw
  | str {raw s : Bytes} (h : words.unescape raw = some s) : words.Text (.str s) (quote raw)
  | arr {items : List Value} {t : Bytes} (h : words.Items items t) :
      words.Text (.arr items) (0x5b :: t ++ [0x5d])
  | obj {members : List (Bytes × Value)} {t : Bytes} (h : words.Members members t) :
      words.Text (.obj members) (0x7b :: t ++ [0x7d])

/-- The texts between the brackets of an array. -/
inductive Words.Items (words : Words) : List Value → Bytes → Prop
  | empty {w : Bytes} (hw : White w) : words.Items [] w
  | one {v : Value} {w t w' : Bytes} (hw : White w) (hv : words.Text v t) (hw' : White w') :
      words.Items [v] (w ++ t ++ w')
  | cons {v v' : Value} {vs : List Value} {t t' : Bytes} (hv : words.Items [v] t)
      (hvs : words.Items (v' :: vs) t') : words.Items (v :: v' :: vs) (t ++ 0x2c :: t')

/-- The texts between the braces of an object. -/
inductive Words.Members (words : Words) : List (Bytes × Value) → Bytes → Prop
  | empty {w : Bytes} (hw : White w) : words.Members [] w
  | one {key raw : Bytes} {v : Value} {w w' t : Bytes} (hw : White w)
      (hkey : words.unescape raw = some key) (hw' : White w') (hv : words.Items [v] t) :
      words.Members [(key, v)] (w ++ quote raw ++ w' ++ 0x3a :: t)
  | cons {m m' : Bytes × Value} {ms : List (Bytes × Value)} {t t' : Bytes}
      (hm : words.Members [m] t) (hms : words.Members (m' :: ms) t') :
      words.Members (m :: m' :: ms) (t ++ 0x2c :: t')

end

def Words.Document (words : Words) (v : Value) (input : Bytes) : Prop := words.Items [v] input

/-- `serde_json::from_slice`, for a value and for a string: what is a JSON text is read, and
nothing else. -/
structure Serde extends Words where
  fromSlice : Bytes → Option Value
  fromSlice_document : ∀ input v, fromSlice input = some v → toWords.Document v input
  document_fromSlice : ∀ input v, toWords.Document v input → ∃ v', fromSlice input = some v'
  stringFromSlice : Bytes → Option Bytes
  string_quoted : ∀ raw s, unescape raw = some s → stringFromSlice (quote raw) = some s

/-- `MAX_NFT_SNAPSHOT_BYTES`. -/
def maxSnapshotBytes : ℕ := 256 * 1024

/-- `speedtest-route-pin-json-invalid`. -/
def invalid : Failure := .error "speedtest-route-pin-json-invalid"

def closing : Bytes → ℕ
  | [] => 0
  | [b] => if b = 0x22 then 0 else if b = 0x5c then 2 else 1
  | b :: c :: rest =>
    if b = 0x22 then 0 else if b = 0x5c then 2 + closing rest else 1 + closing (c :: rest)

/-- `u8::is_ascii_whitespace`. -/
def isAsciiWhitespace (b : UInt8) : Bool :=
  b == 0x20 || b == 0x09 || b == 0x0a || b == 0x0c || b == 0x0d

def colonNext (rest : Bytes) : Bool := (rest.dropWhile isAsciiWhitespace).head? == some 0x3a

def pushKey (serde : Serde) (text : Bytes) (scopes : List (List Bytes)) :
    Except Failure (List (List Bytes)) :=
  match serde.stringFromSlice text, scopes with
  | some key, keys :: outer =>
    if key.length > 128 ∨ keys.length = 64 ∨ keys.contains key then .error invalid
    else .ok ((keys ++ [key]) :: outer)
  | _, _ => .error invalid

def scan (serde : Serde) (rest : Bytes) (scopes : List (List Bytes)) : Except Failure Unit :=
  match rest with
  | [] => .ok ()
  | b :: tail =>
    if b = 0x7b then
      if scopes.length = 16 then .error invalid else scan serde tail ([] :: scopes)
    else if b = 0x7d then
      match scopes with
      | [] => .error invalid
      | _ :: outer => scan serde tail outer
    else if b = 0x22 then
      let size := 1 + closing tail + 1
      let next := (b :: tail).drop size
      if colonNext next then
        -- `input[start..index]`
        if tail.length + 1 < size then .error .panicked
        else pushKey serde ((b :: tail).take size) scopes >>= fun scopes => scan serde next scopes
      else scan serde next scopes
    else scan serde tail scopes
termination_by rest.length
decreasing_by all_goals simp only [List.length_cons, List.length_drop]; omega

def parseNftSnapshot (serde : Serde) (input : Bytes) : Except Failure Value :=
  if input.length > maxSnapshotBytes then .error invalid
  else
    match serde.fromSlice input with
    | none => .error invalid
    | some v => scan serde input [] >>= fun _ => .ok v

end CakeAutorate.Snapshot
