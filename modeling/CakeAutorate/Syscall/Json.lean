/-
# JSON values

The values that durable receipts are made of, and the accessors that their
readers use: `value["key"]` is `null` when absent, and the typed views answer
`none` on a value of another type.  Turning a value into bytes and back is left
to a `Serde`, of which only the round trip is asked, and only for values whose
strings need no escape.
-/

import CakeAutorate.Syscall.File

namespace CakeAutorate.Syscall

/-- A JSON value; numbers are integers. -/
inductive Json where
  | null
  | bool (b : Bool)
  | num (n : ℤ)
  | str (s : Bytes)
  | arr (items : List Json)
  | obj (fields : List (String × Json))

namespace Json

/-- `value["key"]`. -/
def get : Json → String → Json
  | .obj fields, key => ((fields.find? fun f => f.1 = key).map Prod.snd).getD .null
  | _, _ => .null

/-- `value.get("key")`. -/
def lookup : Json → String → Option Json
  | .obj fields, key => (fields.find? fun f => f.1 = key).map Prod.snd
  | _, _ => none

/-- `value["key"] = field` of an object. -/
def insert : Json → String → Json → Json
  | .obj fields, key, field =>
    if fields.any fun f => f.1 = key then
      .obj (fields.map fun f => if f.1 = key then (key, field) else f)
    else .obj (fields ++ [(key, field)])
  | v, _, _ => v

/-- `Value::as_u64`, the width left out. -/
def asU64 : Json → Option ℕ
  | .num n => if 0 ≤ n then some n.toNat else none
  | _ => none

/-- `Value::as_i64`, the width left out. -/
def asI64 : Json → Option ℤ
  | .num n => some n
  | _ => none

/-- `Value::as_bool`. -/
def asBool : Json → Option Bool
  | .bool b => some b
  | _ => none

/-- `Value::as_str`. -/
def asStr : Json → Option Bytes
  | .str s => some s
  | _ => none

/-- `Value::as_array`. -/
def asArray : Json → Option (List Json)
  | .arr items => some items
  | _ => none

@[simp] theorem asU64_num (n : ℕ) : asU64 (.num n) = some n := by simp [asU64]

@[simp] theorem asI64_num (n : ℤ) : asI64 (.num n) = some n := rfl

def plainByte (b : UInt8) : Bool := 0x20 ≤ b && b < 0x7f && b != 0x22 && b != 0x5c

def plainChar (c : Char) : Bool := 0x20 ≤ c.toNat && c.toNat < 0x7f && c != '"' && c != '\\'

mutual

def plain : Json → Bool
  | .null | .bool _ | .num _ => true
  | .str s => s.all plainByte
  | .arr items => plainItems items
  | .obj fields => plainFields fields

/-- `plain` on the items of an array. -/
def plainItems : List Json → Bool
  | [] => true
  | v :: vs => plain v && plainItems vs

/-- `plain` on the fields of an object, keys included. -/
def plainFields : List (String × Json) → Bool
  | [] => true
  | (k, v) :: fs => k.toList.all plainChar && plain v && plainFields fs

end

end Json

/-- A JSON codec: `serde_json::to_vec` and `serde_json::from_slice`. -/
structure Serde where
  toVec : Json → Bytes
  fromSlice : Bytes → Option Json
  fromSlice_toVec : ∀ v : Json, v.plain → fromSlice (toVec v) = some v

end CakeAutorate.Syscall
