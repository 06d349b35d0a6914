/-
# The canonical encoding of a snapshot

`CanonicalWriter` and the `encode_*` functions of `operations/kernel_topology.rs`.  The writer is the
list of the bytes written so far; each of its operations refuses what would cross the limit.  The
allocation that it asks for is taken to succeed.

The keys are the orders that `derive(Ord)` gives: the fields in their order, numbers by value, texts
and byte strings by their bytes, an absent value first.
-/

import CakeAutorate.Topology.Snapshot
import CakeAutorate.Wire.SelfDelimiting
import CakeAutorate.Wire.SortedBy
import Mathlib.Order.WithBot

namespace CakeAutorate.Topology

open Wire Protocol

/-- `KERNEL_TOPOLOGY_SCHEMA`. -/
def kernelTopologySchema : UInt16 := 3

def maxCanonicalBytes : ℕ := 256 * 1024

/-- `CANONICAL_DOMAIN`. -/
def canonicalDomain : List UInt8 :=
  utf8 "cake-autorate-kernel-topology".toList

/-- An operation of `CanonicalWriter`: from the bytes before it to the bytes after it. -/
abbrev Encode := List UInt8 → Except KernelTopologyError (List UInt8)

def checkedU32 (value : ℕ) (label : String) : Except KernelTopologyError ℕ :=
  if value < 256 ^ 4 then .ok value else .error (.limit (label ++ " exceeds u32"))

/-- `ensure_additional`. -/
def ensureAdditional (bytes : List UInt8) (additional : ℕ) : Check :=
  check (decide (bytes.length + additional ≤ maxCanonicalBytes))
    (.limit "canonical kernel topology exceeds its byte bound")

def append (value : List UInt8) : Encode := fun bytes => do
  ensureAdditional bytes value.length
  .ok (bytes ++ value)

/-- Operations one after another. -/
def inOrder : List Encode → Encode
  | [], bytes => .ok bytes
  | op :: rest, bytes => op bytes >>= inOrder rest

def u8 (value : UInt8) : Encode := append [value]

def u16 (value : UInt16) : Encode := append (beBytes 2 value.toNat)

def u32 (value : UInt32) : Encode := append (beBytes 4 value.toNat)

def u64 (value : UInt64) : Encode := append (beBytes 8 value.toNat)

/-- `bytes`: a length, then the bytes. -/
def bytes (value : List UInt8) : Encode := fun written => do
  let length ← checkedU32 value.length "canonical byte string"
  ensureAdditional written (4 + value.length)
  .ok (written ++ beBytes 4 length ++ value)

def string (value : Text) : Encode := bytes (utf8 value)

/-- `optional_bytes`. -/
def optionalBytes : Option (List UInt8) → Encode
  | none => u8 0
  | some value => fun written => do
    let length ← checkedU32 value.length "canonical optional byte string"
    ensureAdditional written (5 + value.length)
    .ok (written ++ [1] ++ beBytes 4 length ++ value)

def optionalString (value : Option Text) : Encode := optionalBytes (value.map utf8)

def optionalU32 : Option UInt32 → Encode
  | none => u8 0
  | some value => fun written => do
    ensureAdditional written 5
    .ok (written ++ [1] ++ beBytes 4 value.toNat)

/-- A count, then the values. -/
def countedValues {α : Type} (label : String) (encode : α → Encode) (values : List α) : Encode :=
  fun written => do
    let count ← checkedU32 values.length label
    let written ← append (beBytes 4 count) written
    inOrder (values.map encode) written

def strings (values : List Text) : Encode := countedValues "string count" string values

def u32s (values : List UInt32) : Encode := countedValues "u32 identity count" u32 values

def u16s (values : List UInt16) : Encode := countedValues "u16 identity count" u16 values

/-- `copy_from_slice` at a position. -/
def patch (written : List UInt8) (position : ℕ) (value : List UInt8) : List UInt8 :=
  written.take position ++ value ++ written.drop (position + value.length)

/-- `record`: the length is written when the payload is. -/
def record (tag : UInt16) (encode : Encode) : Encode := fun written => do
  ensureAdditional written 6
  let tagged := written ++ beBytes 2 tag.toNat
  let started := tagged ++ beBytes 4 0
  let finished ← encode started
  let length ← checkedU32 (finished.length - started.length) "canonical record"
  .ok (patch finished tagged.length (beBytes 4 length))

/-- `collection`: a record of counted records. -/
def collection {α : Type} (tag : UInt16) (encode : α → Encode) (values : List α) : Encode :=
  record tag
    (countedValues "canonical collection count" (fun value => record 1 (encode value)) values)

/-- The order of `Vec<u8>` and of texts. -/
def bytesKey (value : List UInt8) : List ℕ := value.map UInt8.toNat

/-- The order of `String`. -/
def textKey (value : Text) : List ℕ := bytesKey (utf8 value)

/-- The order of an `Option`. -/
def optionKey {α κ : Type} (key : α → κ) (value : Option α) : WithBot κ := value.map key

/-- The order of `CanonicalConfigAttribute`. -/
def attributeKey (a : CanonicalConfigAttribute) : List ℕ ×ₗ Bool ×ₗ List ℕ :=
  toLex (a.path.map UInt16.toNat, toLex (a.networkByteOrder, bytesKey a.value))

/-- The order of `CanonicalConfig`. -/
def configKey (c : CanonicalConfig) : List (List ℕ ×ₗ Bool ×ₗ List ℕ) :=
  c.attributes.map attributeKey

/-- The order of `KernelLinkKind`. -/
def kindKey : KernelLinkKind → WithBot (List ℕ)
  | .absent => none
  | .named kind => some (textKey kind)

/-- The order of `LinkRecord`. -/
def linkKey (l : LinkRecord) : ℕ ×ₗ List ℕ ×ₗ WithBot (List ℕ) ×ₗ WithBot (List ℕ) ×ₗ WithBot ℕ :=
  toLex (l.ifindex.toNat, toLex (textKey l.name, toLex (optionKey textKey l.aliasName,
    toLex (kindKey l.kind, optionKey UInt32.toNat l.parentIfindex))))

/-- The order of `QdiscRecord`. -/
def qdiscKey (q : QdiscRecord) : ℕ ×ₗ ℕ ×ₗ ℕ ×ₗ List ℕ ×ₗ List (List ℕ ×ₗ Bool ×ₗ List ℕ) :=
  toLex (q.ifindex.toNat, toLex (q.parent.toNat, toLex (q.handle.toNat,
    toLex (textKey q.kind, configKey q.options))))

/-- The order of `PrivateActionIdentity`. -/
def identityKey (i : PrivateActionIdentity) : List ℕ ×ₗ ℕ ×ₗ WithBot (List ℕ) :=
  toLex (textKey i.kind, toLex (i.index.toNat, optionKey bytesKey i.cookie))

/-- The order that `encode_sorted_filters` sorts by. -/
def filterKey (f : FilterRecord) : ℕ ×ₗ ℕ ×ₗ ℕ ×ₗ ℕ ×ₗ ℕ ×ₗ ℕ ×ₗ List ℕ :=
  toLex (f.ifindex.toNat, toLex (f.parent.toNat, toLex (f.chain.toNat, toLex (f.priority.toNat,
    toLex (f.protocol.toNat, toLex (f.handle.toNat, textKey f.kind))))))

/-- The source address of `encode_route`. -/
def encodeSource : Option IpAddr → Encode
  | none => u8 0
  | some (.v4 ip) => inOrder [u8 4, bytes [ip.a, ip.b, ip.c, ip.d]]
  | some (.v6 ip) => inOrder [u8 6, bytes (beBytes 16 ip.toNat)]

/-- `encode_route`: neither the mask nor the interface index. -/
def encodeRoute (route : OperationRouteIdentity) : Encode :=
  inOrder [string (lit route.mode.asStr), optionalString route.mwan3Member, string route.l3Device,
    encodeSource route.sourceIp, optionalU32 route.fwmark, optionalU32 route.routingTable]

/-- The kind of `encode_link`. -/
def encodeLinkKind : KernelLinkKind → Encode
  | .absent => u8 0
  | .named kind => inOrder [u8 1, string kind]

/-- `encode_link`. -/
def encodeLink (link : LinkRecord) : Encode :=
  inOrder [u32 link.ifindex, string link.name, optionalString link.aliasName,
    encodeLinkKind link.kind, optionalU32 link.parentIfindex]

/-- The attributes in order. -/
def CanonicalConfig.normalized (config : CanonicalConfig) : CanonicalConfig :=
  ⟨sortBy attributeKey config.attributes⟩

/-- One attribute of `encode_config`. -/
def encodeAttribute (a : CanonicalConfigAttribute) : Encode :=
  inOrder [u16s a.path, u8 (if a.networkByteOrder then 1 else 0), bytes a.value]

/-- `encode_config`. -/
def encodeConfig (config : CanonicalConfig) : Encode := fun written => do
  config.validate "canonical configuration"
  collection 1 encodeAttribute config.normalized.attributes written

/-- `encode_action_identity`. -/
def encodeActionIdentity (identity : PrivateActionIdentity) : Encode := fun written => do
  identity.validate "action identity"
  inOrder [string identity.kind, u32 identity.index, optionalBytes identity.cookie] written

def encodeActionIdentities (tag : UInt16) (identities : List PrivateActionIdentity) : Encode :=
  collection tag encodeActionIdentity (sortBy identityKey identities)

def encodeActionIdentityValues (identities : List PrivateActionIdentity) : Encode :=
  countedValues "action identity count" (fun i => record 1 (encodeActionIdentity i))
    (sortBy identityKey identities)

def PrivateNamespaceRecord.normalized (n : PrivateNamespaceRecord) : PrivateNamespaceRecord :=
  { linkNames := sortBy textKey n.linkNames
    linkAliases := sortBy textKey n.linkAliases
    qdiscHandles := sortBy UInt32.toNat n.qdiscHandles
    filterHandles := sortBy UInt32.toNat n.filterHandles
    filterPriorities := sortBy UInt16.toNat n.filterPriorities
    actionIdentities := sortBy identityKey n.actionIdentities }

/-- `encode_namespace`. -/
def encodeNamespace (n : PrivateNamespaceRecord) : Encode :=
  inOrder [strings n.linkNames, strings n.linkAliases, u32s n.qdiscHandles, u32s n.filterHandles,
    u16s n.filterPriorities, encodeActionIdentityValues n.actionIdentities]

def encodeSortedLinks (tag : UInt16) (links : List LinkRecord) : Encode :=
  collection tag encodeLink (sortBy linkKey links)

/-- One qdisc of `encode_sorted_qdiscs`. -/
def encodeQdisc (q : QdiscRecord) : Encode :=
  inOrder [u32 q.ifindex, u32 q.parent, u32 q.handle, string q.kind, encodeConfig q.options]

def encodeSortedQdiscs (tag : UInt16) (qdiscs : List QdiscRecord) : Encode :=
  collection tag encodeQdisc (sortBy qdiscKey qdiscs)

/-- The target of `encode_action`. -/
def encodeTarget : ActionTarget → Encode
  | .none => u8 0
  | .mirred direction targetIfindex => inOrder [u8 1, u8 direction.tag, u32 targetIfindex]

/-- `encode_action`. -/
def encodeAction (action : ActionRecord) : Encode :=
  inOrder [u16 action.order, u32 action.actionIndex, string action.kind,
    optionalBytes action.cookie, encodeConfig action.options, encodeTarget action.target]

/-- One filter of `encode_sorted_filters`. -/
def encodeFilter (f : FilterRecord) : Encode :=
  inOrder [u32 f.ifindex, u32 f.parent, u32 f.chain, u16 f.priority, u16 f.protocol, u32 f.handle,
    string f.kind, encodeConfig f.options,
    countedValues "action count" (fun action => record 1 (encodeAction action))
      (sortBy (fun action : ActionRecord => action.order.toNat) f.actions)]

def encodeSortedFilters (tag : UInt16) (filters : List FilterRecord) : Encode :=
  collection tag encodeFilter (sortBy filterKey filters)

/-- `canonical_bytes`: the witness of a valid snapshot. -/
def KernelTopologySnapshot.canonicalBytes (net : AddressText) (s : KernelTopologySnapshot) :
    Except KernelTopologyError (List UInt8) := do
  s.validate net
  inOrder
    [bytes canonicalDomain, u16 kernelTopologySchema, record 1 (encodeRoute s.route),
      record 2 (inOrder [u64 s.netnsCookie, encodeLink s.target]),
      record 3 (encodeNamespace s.privateNamespace.normalized),
      encodeSortedLinks 4 s.privateLinks,
      encodeSortedQdiscs 5 s.rootQdiscs,
      encodeSortedQdiscs 6 s.ingressQdiscs,
      encodeSortedFilters 7 s.ingressFilters,
      encodeSortedFilters 8 s.egressFilters,
      encodeActionIdentities 9 s.privateActions] []

end CakeAutorate.Topology
