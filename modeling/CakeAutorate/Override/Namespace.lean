/-
# The private kernel namespace of a calibration

`TemporaryTopologyIdentity` and `AbsentRuntimeBaseline` of
`operations/autotune_runtime.rs`.  The names, handles and marks of the temporary
links are derived from the permit id; a baseline that says that no managed SQM
was there carries the id that they are derived from.
-/

import Mathlib.Data.List.DropRight
import CakeAutorate.Topology.Snapshot

namespace CakeAutorate.Override

open Wire Protocol CakeAutorate.Topology

/-- `require_lower_hex` of `autotune_runtime.rs`, `require_hex` of `full_autotune.rs`. -/
def requireHex (name : String) (value : Text) (length : ℕ) : Except String Unit :=
  check (lowerHex length value)
    (name ++ " must be exactly " ++ toString length ++ " lowercase hexadecimal characters")

def requireIdentifier (name : String) (value : Text) : Except String Unit :=
  check (safeIdentifier 1 64 "._-" value) (name ++ " is invalid")

def requireInterface (value : Text) : Except String Unit :=
  check (safeIdentifier 1 64 "._:@-" value) "runtime permit target interface is invalid"

/-- `str::strip_suffix` of one character. -/
def stripSuffix (c : Char) (t : Text) : Option Text :=
  if t.getLast? = some c then some t.dropLast else none

/-- `char::to_digit(16)`. -/
def hexDigitValue (c : Char) : Option ℕ :=
  if '0' ≤ c ∧ c ≤ '9' then some (c.toNat - 48)
  else if 'a' ≤ c ∧ c ≤ 'f' then some (c.toNat - 87)
  else if 'A' ≤ c ∧ c ≤ 'F' then some (c.toNat - 55)
  else none

def hexDigits (n : ℕ) : Text → Option ℕ
  | [] => some n
  | c :: rest => (hexDigitValue c).bind fun digit => hexDigits (16 * n + digit) rest

/-- `from_str_radix(_, 16)` of an unsigned integer below `bound`. -/
def fromHex (bound : ℕ) (t : Text) : Option ℕ :=
  let digits := if t.head? = some '+' then t.tail else t
  if digits.isEmpty then none
  else (hexDigits 0 digits).filter fun n => decide (n < bound)

def validateQdiscHandle (name : String) (value : Text) : Except String Unit := do
  let hex ← orError (stripSuffix ':' value) (name ++ " is invalid")
  check (!(hex.isEmpty || decide (byteLength hex > 4) || !lowerHex (byteLength hex) hex))
    (name ++ " is invalid")

def parseQdiscHandle (value : Text) : Except String UInt32 := do
  validateQdiscHandle "temporary qdisc handle" value
  let major ← orError (fromHex (2 ^ 32) (value.rdropWhile (· == ':')))
    "temporary qdisc handle is invalid"
  return UInt32.ofNat major <<< 16

/-- `decode_lower_hex`, pair by pair. -/
def decodePairs : Text → Except String (List UInt8)
  | high :: low :: rest => do
    let byte ← orError (fromHex 256 [high, low]) "lower-hex byte string is invalid"
    return UInt8.ofNat byte :: (← decodePairs rest)
  | _ => .ok []

def decodeLowerHex (value : Text) : Except String (List UInt8) := do
  check (byteLength value % 2 == 0) "lower-hex byte string has an odd length"
  decodePairs value

structure TemporaryTopologyIdentity where
  ifbName : Text
  ifbAlias : Text
  ifbIfindex : Option UInt32
  targetQdiscHandle : Text
  ifbQdiscHandle : Text
  ingressQdiscHandle : Text
  redirectPreference : UInt16
  redirectFilterHandle : UInt32
  redirectActionIndex : UInt32
  redirectActionCookie : Text

def privateU32RootFilterHandle : UInt32 := 0x80000000

namespace TemporaryTopologyIdentity

def validate (t : TemporaryTopologyIdentity) : Except String Unit := do
  requireInterface t.ifbName
  check (decide (byteLength t.ifbName ≤ 15)) "temporary IFB name exceeds the kernel interface limit"
  requireIdentifier "temporary IFB alias" t.ifbAlias
  check (t.ifbIfindex != some 0) "temporary IFB ifindex is invalid"
  validateQdiscHandle "temporary target qdisc handle" t.targetQdiscHandle
  validateQdiscHandle "temporary IFB qdisc handle" t.ifbQdiscHandle
  check (t.targetQdiscHandle != t.ifbQdiscHandle) "temporary CAKE qdisc handles must be distinct"
  check (t.ingressQdiscHandle == lit "ffff:") "temporary ingress qdisc handle is unsupported"
  check (decide (49152 ≤ t.redirectPreference) && decide (t.redirectPreference ≤ 50175))
    "temporary redirect preference is outside its private range"
  check (!(t.redirectFilterHandle &&& 0xfffff000 != privateU32RootFilterHandle
    || t.redirectFilterHandle &&& 0x00000fff == 0))
    "temporary redirect filter handle is not a terminal node in the private u32 root"
  check (t.redirectActionIndex &&& 0xff000000 == 0xca000000)
    "temporary redirect action index is outside its private range"
  requireHex "temporary redirect action cookie" t.redirectActionCookie 32

def plannedForPermit (permitId : Text) : Except String TemporaryTopologyIdentity := do
  requireHex "temporary topology permit id" permitId 32
  let handleSeed := permitId.take 3
  let preferenceSeed ← orError (fromHex (2 ^ 16) (permitId.take 4))
    "temporary topology preference seed is invalid"
  let identitySeed ← orError (fromHex (2 ^ 32) (permitId.take 8))
    "temporary topology identity seed is invalid"
  let seed := UInt32.ofNat identitySeed
  let identity : TemporaryTopologyIdentity :=
    { ifbName := lit "catf" ++ permitId.take 8
      ifbAlias := lit "cake-autotune-" ++ permitId
      ifbIfindex := none
      targetQdiscHandle := lit "a" ++ handleSeed ++ lit ":"
      ifbQdiscHandle := lit "b" ++ handleSeed ++ lit ":"
      ingressQdiscHandle := lit "ffff:"
      redirectPreference := 49152 + UInt16.ofNat preferenceSeed % 1024
      redirectFilterHandle := privateU32RootFilterHandle ||| max (seed &&& 0x00000fff) 1
      redirectActionIndex := 0xca000000 ||| (seed &&& 0x00ffffff)
      redirectActionCookie := permitId }
  identity.validate
  return identity

def privateNamespace (t : TemporaryTopologyIdentity) : Except String PrivateNamespaceRecord := do
  t.validate
  let target ← parseQdiscHandle t.targetQdiscHandle
  let ifb ← parseQdiscHandle t.ifbQdiscHandle
  let ingress ← parseQdiscHandle t.ingressQdiscHandle
  let cookie ← decodeLowerHex t.redirectActionCookie
  let record : PrivateNamespaceRecord :=
    { linkNames := [t.ifbName]
      linkAliases := [t.ifbAlias]
      qdiscHandles := [target, ifb, ingress]
      filterHandles := [privateU32RootFilterHandle, t.redirectFilterHandle]
      filterPriorities := [t.redirectPreference]
      actionIdentities :=
        [{ kind := lit "mirred", index := t.redirectActionIndex, cookie := some cookie }] }
  record.validate.mapError KernelTopologyError.toText
  return record

end TemporaryTopologyIdentity

structure AbsentRuntimeBaseline where
  plannedSqmSection : Text
  targetInterface : Text
  targetIfindex : UInt32
  routeFingerprint : Text
  configFingerprint : Text
  sqmFingerprint : Text
  kernelTopologyFingerprint : Text
  kernelNamespaceSeed : Text
  deriving DecidableEq

def AbsentRuntimeBaseline.validate (b : AbsentRuntimeBaseline) : Except String Unit := do
  validateUciSection b.plannedSqmSection
  requireInterface b.targetInterface
  check (!(b.targetIfindex == 0 || decide (b.targetIfindex.toNat > 2 ^ 31 - 1)))
    "absent runtime baseline target ifindex is invalid"
  requireHex "absent runtime baseline route fingerprint" b.routeFingerprint 64
  requireHex "absent runtime baseline config fingerprint" b.configFingerprint 64
  requireHex "absent runtime baseline SQM fingerprint" b.sqmFingerprint 64
  requireHex "absent runtime baseline kernel topology fingerprint" b.kernelTopologyFingerprint 64
  requireHex "absent runtime baseline kernel namespace seed" b.kernelNamespaceSeed 32
  let temporary ← TemporaryTopologyIdentity.plannedForPermit b.kernelNamespaceSeed
  check (!(temporary.ifbName == b.targetInterface || temporary.ifbAlias == b.targetInterface))
    "absent runtime baseline private namespace collides with its target"
  let _ ← temporary.privateNamespace

end CakeAutorate.Override
