/-
# Kernel topology snapshots

The records of `operations/kernel_topology.rs` and what `KernelTopologySnapshot::validate` accepts.
The sets that the checks insert into are lists here, and the texts are those of the source.
-/

import CakeAutorate.Protocol.Request

namespace CakeAutorate.Topology

open Wire Protocol

def tcHRoot : UInt32 := 0xffffffff

def tcHIngress : UInt32 := 0xfffffff1

def tcHClsactHandle : UInt32 := 0xffff0000

def tcHMinIngress : UInt32 := 0xfffffff2

def tcHMinEgress : UInt32 := 0xfffffff3

def maxQdiscs : ℕ := 128

def maxFilters : ℕ := 512

def maxActionsPerFilter : ℕ := 16

def maxPrivateLinks : ℕ := 64

def maxNamespaceIdentities : ℕ := 128

def maxAttributePath : ℕ := 8

def maxConfigBytes : ℕ := 16 * 1024

def maxConfigAttributes : ℕ := 128

def maxActionCookieBytes : ℕ := 16

def maxInterfaceNameBytes : ℕ := 15

def maxAliasBytes : ℕ := 256

def maxKindBytes : ℕ := 32

/-- The errors of `KernelTopologyError` that a snapshot can meet. -/
inductive KernelTopologyError where
  | invalid (message : String)
  | limit (message : String)

/-- `Display` of `KernelTopologyError`. -/
def KernelTopologyError.toText : KernelTopologyError → String
  | .invalid message => message
  | .limit message => message

/-- What `validate` answers. -/
abbrev Check := Except KernelTopologyError Unit

/-- `u8::is_ascii_alphanumeric`. -/
def asciiAlphanumeric (b : UInt8) : Bool :=
  (decide (48 ≤ b) && decide (b ≤ 57)) || (decide (65 ≤ b) && decide (b ≤ 90)) ||
    (decide (97 ≤ b) && decide (b ≤ 122))

/-- `u8::is_ascii_graphic`. -/
def asciiGraphic (b : UInt8) : Bool := decide (33 ≤ b) && decide (b ≤ 126)

section

variable (label : String) (value : Text)

/-- `validate_identifier`. -/
def validateIdentifier (maximum : ℕ) (punctuation : Text) : Check :=
  check (!(value.isEmpty || decide (maximum < byteLength value) ||
      (utf8 value).any fun b => !asciiAlphanumeric b && !(utf8 punctuation).contains b))
    (.invalid (label ++ " is invalid"))

def validateInterface : Check :=
  validateIdentifier label value maxInterfaceNameBytes ['.', '_', ':', '@', '-']

def validateKind : Check :=
  validateIdentifier label value maxKindBytes ['_', '-']

/-- `validate_alias`. -/
def validateAlias : Check :=
  check (!(value.isEmpty || decide (maxAliasBytes < byteLength value) ||
      (utf8 value).any fun b => !asciiGraphic b && b != 32))
    (.invalid (label ++ " is invalid"))

end

def validKernelIfindex (ifindex : UInt32) : Bool := ifindex != 0 && decide (ifindex ≤ 0x7fffffff)

/-- Each item is checked, then inserted into a set; one that is in it is refused. -/
def insertEach {α κ : Type} [DecidableEq κ] (valid : α → Check) (key : α → κ)
    (duplicate : KernelTopologyError) : List κ → List α → Except KernelTopologyError (List κ)
  | seen, [] => .ok seen
  | seen, item :: rest => do
    valid item
    check (!decide (key item ∈ seen)) duplicate
    insertEach valid key duplicate (key item :: seen) rest

def checkEach {α : Type} (valid : α → Check) : List α → Check
  | [] => .ok ()
  | item :: rest => do
    valid item
    checkEach valid rest

/-- `ensure_unique`. -/
def ensureUnique {α : Type} [DecidableEq α] (values : List α) (label : String) : Check := do
  let _ ← insertEach (fun _ => .ok ()) id (.invalid (label ++ " contain duplicate identities")) []
    values

/-- A netlink attribute: its path and its bytes. -/
structure CanonicalConfigAttribute where
  path : List UInt16
  networkByteOrder : Bool
  value : List UInt8

/-- The attributes of an object. -/
structure CanonicalConfig where
  attributes : List CanonicalConfigAttribute

/-- The loop of `CanonicalConfig::validate`: the paths and the bytes so far. -/
def CanonicalConfig.validateAttributes (label : String) :
    List (List UInt16) → ℕ → List CanonicalConfigAttribute → Check
  | _, _, [] => .ok ()
  | paths, bytes, attr :: rest => do
    check (!(attr.path.isEmpty || decide (maxAttributePath < attr.path.length) ||
        attr.path.contains 0))
      (.invalid (label ++ " contains an invalid attribute path"))
    check (!paths.contains attr.path) (.invalid (label ++ " contains a duplicate attribute path"))
    check (decide (bytes + attr.path.length * 2 + attr.value.length ≤ maxConfigBytes))
      (.limit (label ++ " exceeds its byte bound"))
    validateAttributes label (attr.path :: paths)
      (bytes + attr.path.length * 2 + attr.value.length) rest

def CanonicalConfig.validate (config : CanonicalConfig) (label : String) : Check := do
  check (decide (config.attributes.length ≤ maxConfigAttributes))
    (.limit (label ++ " attribute count exceeds its bound"))
  validateAttributes label [] 0 config.attributes

/-- `IFLA_INFO_KIND`, if there is one. -/
inductive KernelLinkKind where
  | absent
  | named (kind : Text)

def KernelLinkKind.validate (kind : KernelLinkKind) (label : String) : Check :=
  match kind with
  | .absent => .ok ()
  | .named kind => validateKind label kind

/-- A link. -/
structure LinkRecord where
  ifindex : UInt32
  name : Text
  aliasName : Option Text
  kind : KernelLinkKind
  parentIfindex : Option UInt32

/-- `LinkRecord::validate`. -/
def LinkRecord.validate (link : LinkRecord) (label : String) : Check := do
  check (validKernelIfindex link.ifindex && !link.parentIfindex.any fun i => !validKernelIfindex i)
    (.invalid (label ++ " has an invalid ifindex"))
  validateInterface (label ++ " name") link.name
  link.kind.validate (label ++ " kind")
  match link.aliasName with
  | none => .ok ()
  | some aliasName => validateAlias (label ++ " alias") aliasName

/-- A name and an alias, neither of which another link has. -/
def insertLinkIdentities (identities : List Text) (link : LinkRecord) :
    Except KernelTopologyError (List Text) :=
  let collision : KernelTopologyError :=
    .invalid "snapshot contains an ambiguous link name or alias collision"
  if link.name ∈ identities then .error collision
  else
    match link.aliasName with
    | none => .ok (link.name :: identities)
    | some aliasName =>
      if aliasName ∈ link.name :: identities then .error collision
      else .ok (aliasName :: link.name :: identities)

/-- The loop of `validate` over the private links: the indexes and the identities so far. -/
def validateLinks : List UInt32 → List Text → List LinkRecord → Except KernelTopologyError (List UInt32)
  | known, _, [] => .ok known
  | known, identities, link :: rest => do
    link.validate "private link"
    check (!decide (link.ifindex ∈ known)) (.invalid "snapshot contains duplicate link identity")
    let identities ← insertLinkIdentities identities link
    validateLinks (link.ifindex :: known) identities rest

/-- The identity of an action: its index and its cookie. -/
structure PrivateActionIdentity where
  kind : Text
  index : UInt32
  cookie : Option (List UInt8)

/-- A cookie is not empty and not too long. -/
def cookieValid (cookie : Option (List UInt8)) : Bool :=
  !cookie.any fun c => c.isEmpty || decide (maxActionCookieBytes < c.length)

def PrivateActionIdentity.validate (identity : PrivateActionIdentity) (label : String) : Check := do
  validateKind (label ++ " kind") identity.kind
  check (identity.index != 0) (.invalid (label ++ " index must be non-zero"))
  check (cookieValid identity.cookie) (.limit (label ++ " cookie is empty or exceeds its bound"))

/-- The loop of `validate_action_identity_set`. -/
def validateActionIdentities (label : String) (requireUniqueCookies : Bool) :
    List (Text × UInt32) → List (Text × List UInt8) → List PrivateActionIdentity → Check
  | _, _, [] => .ok ()
  | keys, cookies, identity :: rest => do
    check (!decide ((identity.kind, identity.index) ∈ keys))
      (.invalid (label ++ " contain duplicate kind/index identities"))
    let cookies ←
      match identity.cookie with
      | none => .ok cookies
      | some cookie =>
        if requireUniqueCookies then do
          check (!decide ((identity.kind, cookie) ∈ cookies))
            (.invalid (label ++ " contain duplicate kind/cookie identities"))
          .ok ((identity.kind, cookie) :: cookies)
        else .ok cookies
    validateActionIdentities label requireUniqueCookies ((identity.kind, identity.index) :: keys)
      cookies rest

/-- `validate_action_identity_set`. -/
def validateActionIdentitySet (identities : List PrivateActionIdentity) (label : String)
    (requireUniqueCookies : Bool) : Check :=
  validateActionIdentities label requireUniqueCookies [] [] identities

/-- What the program itself may create in the kernel. -/
structure PrivateNamespaceRecord where
  linkNames : List Text
  linkAliases : List Text
  qdiscHandles : List UInt32
  filterHandles : List UInt32
  filterPriorities : List UInt16
  actionIdentities : List PrivateActionIdentity

def PrivateNamespaceRecord.validate (n : PrivateNamespaceRecord) : Check := do
  checkEach (fun (bound : String × ℕ) => check (decide (bound.2 ≤ maxNamespaceIdentities))
      (.limit (bound.1 ++ " exceed the bounded identity count")))
    [("private link names", n.linkNames.length), ("private link aliases", n.linkAliases.length),
      ("private qdisc handles", n.qdiscHandles.length),
      ("private filter handles", n.filterHandles.length),
      ("private filter priorities", n.filterPriorities.length),
      ("private action identities", n.actionIdentities.length)]
  checkEach (validateInterface "private namespace link name") n.linkNames
  checkEach (validateAlias "private namespace link alias") n.linkAliases
  check (!(n.qdiscHandles.contains 0 || n.filterHandles.contains 0 ||
      n.filterPriorities.contains 0))
    (.invalid "private namespace numeric identities must be non-zero")
  checkEach (fun i : PrivateActionIdentity => i.validate "private action identity")
    n.actionIdentities
  ensureUnique n.linkNames "private link names"
  ensureUnique n.linkAliases "private link aliases"
  ensureUnique n.qdiscHandles "private qdisc handles"
  ensureUnique n.filterHandles "private filter handles"
  ensureUnique n.filterPriorities "private filter priorities"
  validateActionIdentitySet n.actionIdentities "private action identities" true
  let _ ← insertEach (fun _ => .ok ()) id
    (.invalid "private link names and aliases contain an ambiguous identity") []
    (n.linkNames ++ n.linkAliases)

/-- A queueing discipline. -/
structure QdiscRecord where
  ifindex : UInt32
  parent : UInt32
  handle : UInt32
  kind : Text
  options : CanonicalConfig

def QdiscRecord.validate (known : List UInt32) (qdisc : QdiscRecord) : Check := do
  check (decide (qdisc.ifindex ∈ known)) (.invalid "qdisc references an unobserved interface")
  validateKind "qdisc kind" qdisc.kind
  qdisc.options.validate "qdisc options"

/-- What `mirred` does with a packet. -/
inductive MirredDirection where
  | egressRedirect
  | ingressRedirect
  | egressMirror
  | ingressMirror

def MirredDirection.tag : MirredDirection → UInt8
  | .egressRedirect => 1
  | .ingressRedirect => 2
  | .egressMirror => 3
  | .ingressMirror => 4

/-- Where an action sends a packet. -/
inductive ActionTarget where
  | none
  | mirred (direction : MirredDirection) (targetIfindex : UInt32)

/-- An action of a filter. -/
structure ActionRecord where
  order : UInt16
  actionIndex : UInt32
  kind : Text
  cookie : Option (List UInt8)
  options : CanonicalConfig
  target : ActionTarget

/-- `ActionRecord::validate`: `mirred`, and no other, has a target. -/
def ActionRecord.validate (known : List UInt32) (action : ActionRecord) : Check := do
  check (action.order != 0 && action.actionIndex != 0)
    (.invalid "action order and index must be non-zero")
  validateKind "action kind" action.kind
  action.options.validate "action options"
  check (cookieValid action.cookie) (.limit "action cookie is empty or exceeds its bound")
  match decide (action.kind = ['m', 'i', 'r', 'r', 'e', 'd']), action.target with
  | true, .mirred _ targetIfindex =>
    check (decide (targetIfindex ∈ known))
      (.invalid "mirred action targets an unobserved interface")
  | true, .none => .error (.invalid "mirred action has no typed target")
  | false, .mirred _ _ => .error (.invalid "non-mirred action carries a mirred target")
  | false, .none => .ok ()

/-- A filter with its actions. -/
structure FilterRecord where
  ifindex : UInt32
  parent : UInt32
  chain : UInt32
  priority : UInt16
  protocol : UInt16
  handle : UInt32
  kind : Text
  options : CanonicalConfig
  actions : List ActionRecord

/-- The loop of `FilterRecord::validate` over the actions: the orders and the indexes so far. -/
def validateActions (known : List UInt32) :
    List UInt16 → List UInt32 → List ActionRecord → Except KernelTopologyError (List UInt16)
  | orders, _, [] => .ok orders
  | orders, indexes, action :: rest => do
    action.validate known
    check (!(decide (action.order ∈ orders) || decide (action.actionIndex ∈ indexes)))
      (.invalid "filter contains duplicate action order or index")
    validateActions known (action.order :: orders) (action.actionIndex :: indexes) rest

/-- `FilterRecord::validate`: the orders count from one. -/
def FilterRecord.validate (known : List UInt32) (filter : FilterRecord) : Check := do
  check (decide (filter.ifindex ∈ known)) (.invalid "filter references an unobserved interface")
  check (filter.priority != 0 && filter.protocol != 0 && filter.handle != 0)
    (.invalid "filter priority, protocol and handle must be non-zero")
  check (decide (filter.actions.length ≤ maxActionsPerFilter))
    (.limit "filter action count exceeds its bound")
  validateKind "filter kind" filter.kind
  filter.options.validate "filter options"
  let orders ← validateActions known [] [] filter.actions
  check ((orders.map UInt16.toNat).insertionSort (· ≤ ·) ==
      List.range' 1 (UInt16.ofNat orders.length).toNat)
    (.invalid "filter action orders must be contiguous from one")

/-- What identifies a filter. -/
def filterIdentity (f : FilterRecord) : UInt32 × UInt32 × UInt32 × UInt16 × UInt16 × UInt32 :=
  (f.ifindex, f.parent, f.chain, f.priority, f.protocol, f.handle)

/-- What was observed around the target link. -/
structure KernelTopologySnapshot where
  netnsCookie : UInt64
  route : OperationRouteIdentity
  target : LinkRecord
  privateNamespace : PrivateNamespaceRecord
  privateLinks : List LinkRecord
  rootQdiscs : List QdiscRecord
  ingressQdiscs : List QdiscRecord
  ingressFilters : List FilterRecord
  egressFilters : List FilterRecord
  privateActions : List PrivateActionIdentity

/-- `OperationRouteIdentity::validate`, with its text as an error of the topology. -/
def validateRoute (net : AddressText) (route : OperationRouteIdentity) : Check :=
  match route.validate net with
  | .ok () => .ok ()
  | .error message => .error (.invalid message)

def validateRootQdisc (known : List UInt32) (qdisc : QdiscRecord) : Check := do
  qdisc.validate known
  check (qdisc.parent == tcHRoot) (.invalid "root qdisc record has a non-root parent")

/-- An `ingress` or `clsact` qdisc of the target. -/
def validateIngressQdisc (target : LinkRecord) (known : List UInt32) (qdisc : QdiscRecord) :
    Check := do
  qdisc.validate known
  check (qdisc.ifindex == target.ifindex && qdisc.parent == tcHIngress &&
      qdisc.handle == tcHClsactHandle &&
      (qdisc.kind == ['i', 'n', 'g', 'r', 'e', 's', 's'] ||
        qdisc.kind == ['c', 'l', 's', 'a', 'c', 't']))
    (.invalid "ingress qdisc is not bound to the target ingress/clsact hook")

/-- A filter of the target at a hook. -/
def validateHookFilter (target : LinkRecord) (hook : UInt32) (message : String)
    (known : List UInt32) (filter : FilterRecord) : Check := do
  filter.validate known
  check (filter.ifindex == target.ifindex && filter.parent == hook) (.invalid message)

/-- The bounds that `validate` puts on the collections. -/
def KernelTopologySnapshot.validateBounds (s : KernelTopologySnapshot) : Check := do
  check (decide (s.privateLinks.length ≤ maxPrivateLinks))
    (.limit "private link count exceeds its bound")
  check (decide (s.rootQdiscs.length + s.ingressQdiscs.length ≤ maxQdiscs))
    (.limit "qdisc count exceeds its bound")
  check (decide (s.ingressFilters.length + s.egressFilters.length ≤ maxFilters))
    (.limit "filter count exceeds its bound")
  check (decide (s.privateActions.length ≤ maxNamespaceIdentities))
    (.limit "private action count exceeds its bound")

/-- `KernelTopologySnapshot::validate`. -/
def KernelTopologySnapshot.validate (net : AddressText) (s : KernelTopologySnapshot) : Check := do
  check (s.netnsCookie != 0) (.invalid "network namespace cookie must be non-zero")
  validateRoute net s.route
  s.target.validate "target link"
  s.privateNamespace.validate
  check (s.route.l3Device == s.target.name)
    (.invalid "snapshot target link does not match route L3 device")
  s.validateBounds
  checkEach (fun i : PrivateActionIdentity => i.validate "observed private action") s.privateActions
  validateActionIdentitySet s.privateActions "observed private actions" false
  let identities ← insertLinkIdentities [] s.target
  let known ← validateLinks [s.target.ifindex] identities s.privateLinks
  let slots ← insertEach (validateRootQdisc known) (fun q => (q.ifindex, q.parent))
    (.invalid "snapshot contains duplicate qdisc slot") [] s.rootQdiscs
  let _ ← insertEach (validateIngressQdisc s.target known) (fun q => (q.ifindex, q.parent))
    (.invalid "snapshot contains duplicate qdisc slot") slots s.ingressQdiscs
  let filters ← insertEach
    (validateHookFilter s.target tcHMinIngress
      "ingress filter is not bound to the target ingress hook" known)
    filterIdentity (.invalid "snapshot contains duplicate filter identity") [] s.ingressFilters
  let _ ← insertEach
    (validateHookFilter s.target tcHMinEgress
      "egress filter is not bound to the target egress hook" known)
    filterIdentity (.invalid "snapshot contains duplicate filter identity") filters s.egressFilters
  check (s.ingressFilters.isEmpty || !s.ingressQdiscs.isEmpty)
    (.invalid "ingress filters are present without an ingress/clsact qdisc")
  check (s.egressFilters.isEmpty ||
      s.ingressQdiscs.any fun q => q.kind == ['c', 'l', 's', 'a', 'c', 't'])
    (.invalid "egress filters are present without a clsact qdisc")

end CakeAutorate.Topology
