/-
# The facts of a topology

A snapshot without the orders of its collections. The canonical bytes determine the facts, except
three fields of the route that `encode_route` leaves out, and are determined by them.
-/

import CakeAutorate.Topology.Codes

namespace CakeAutorate.Topology

open CanonicalConfigAttribute

open Wire Protocol List OperationRouteIdentity ActionRecord LinkRecord KernelLinkKind

/-- A qdisc, its attributes in no order. -/
structure QdiscFact where
  ifindex : UInt32
  parent : UInt32
  handle : UInt32
  kind : Text
  options : Multiset CanonicalConfigAttribute

/-- An action, its attributes in no order. -/
structure ActionFact where
  order : UInt16
  actionIndex : UInt32
  kind : Text
  cookie : Option (List UInt8)
  options : Multiset CanonicalConfigAttribute
  target : ActionTarget

/-- A filter, its attributes and actions in no order. -/
structure FilterFact where
  ifindex : UInt32
  parent : UInt32
  chain : UInt32
  priority : UInt16
  protocol : UInt16
  handle : UInt32
  kind : Text
  options : Multiset CanonicalConfigAttribute
  actions : Multiset ActionFact

/-- A private namespace, its identities in no order. -/
structure NamespaceFact where
  linkNames : Multiset Text
  linkAliases : Multiset Text
  qdiscHandles : Multiset UInt32
  filterHandles : Multiset UInt32
  filterPriorities : Multiset UInt16
  actionIdentities : Multiset PrivateActionIdentity

/-- What a snapshot says of the kernel besides the route. -/
structure TopologyFact where
  netnsCookie : UInt64
  target : LinkRecord
  privateNamespace : NamespaceFact
  privateLinks : Multiset LinkRecord
  rootQdiscs : Multiset QdiscFact
  ingressQdiscs : Multiset QdiscFact
  ingressFilters : Multiset FilterFact
  egressFilters : Multiset FilterFact
  privateActions : Multiset PrivateActionIdentity

/-- A qdisc, its attributes in no order. -/
def QdiscRecord.fact (q : QdiscRecord) : QdiscFact :=
  ⟨q.ifindex, q.parent, q.handle, q.kind, q.options.attributes⟩

def ActionRecord.fact (a : ActionRecord) : ActionFact :=
  ⟨a.order, a.actionIndex, a.kind, a.cookie, a.options.attributes, a.target⟩

def FilterRecord.fact (f : FilterRecord) : FilterFact :=
  ⟨f.ifindex, f.parent, f.chain, f.priority, f.protocol, f.handle, f.kind, f.options.attributes,
    (f.actions.map ActionRecord.fact : List ActionFact)⟩

def PrivateNamespaceRecord.fact (n : PrivateNamespaceRecord) : NamespaceFact :=
  ⟨n.linkNames, n.linkAliases, n.qdiscHandles, n.filterHandles, n.filterPriorities,
    n.actionIdentities⟩

/-- A snapshot, its collections in no order. -/
def KernelTopologySnapshot.fact (s : KernelTopologySnapshot) : TopologyFact where
  netnsCookie := s.netnsCookie
  target := s.target
  privateNamespace := s.privateNamespace.fact
  privateLinks := s.privateLinks
  rootQdiscs := (s.rootQdiscs.map QdiscRecord.fact : List QdiscFact)
  ingressQdiscs := (s.ingressQdiscs.map QdiscRecord.fact : List QdiscFact)
  ingressFilters := (s.ingressFilters.map FilterRecord.fact : List FilterFact)
  egressFilters := (s.egressFilters.map FilterRecord.fact : List FilterFact)
  privateActions := s.privateActions

theorem bytesKey_injective : Function.Injective bytesKey :=
  map_injective_iff.mpr fun _ _ h => UInt8.toNat_inj.mp h

theorem utf8_injective : Function.Injective utf8 := by
  intro s t h
  have hs := fromUtf8_utf8 s
  rw [h, fromUtf8_utf8 t] at hs
  exact (Option.some.inj hs).symm

theorem textKey_injective : Function.Injective textKey := bytesKey_injective.comp utf8_injective

variable {α β : Type} {f : α → List UInt8} {π : α → β}

theorem optionKey_injective {κ : Type} {key : α → κ} (h : Function.Injective key) :
    Function.Injective (optionKey key) := Option.map_injective h

theorem attributeKey_injective : Function.Injective attributeKey := by
  intro a b h
  simp only [attributeKey, toLex_inj, Prod.mk.injEq] at h
  obtain ⟨hpath, hnbo, hvalue⟩ := h
  have hpaths : a.path = b.path :=
    map_injective_iff.mpr (fun _ _ hn => UInt16.toNat_inj.mp hn) hpath
  cases a
  simp_all [bytesKey_injective.eq_iff]

theorem kindKey_injective : Function.Injective kindKey := by
  intro a b h
  cases a with
  | absent =>
    cases b with
    | absent => rfl
    | named kind => exact absurd h (by simp [kindKey])
  | named kind =>
    cases b with
    | absent => exact absurd h (by simp [kindKey])
    | named kind' => rw [textKey_injective (Option.some.inj h)]

theorem linkKey_injective : Function.Injective linkKey := by
  intro a b h
  simp only [linkKey, toLex_inj, Prod.mk.injEq] at h
  obtain ⟨hindex, hname, halias, hkind, hparent⟩ := h
  have hindex' := UInt32.toNat_inj.mp hindex
  have hname' := textKey_injective hname
  have halias' := optionKey_injective textKey_injective halias
  have hkind' := kindKey_injective hkind
  have hparent' : a.parentIfindex = b.parentIfindex :=
    optionKey_injective (fun _ _ hn => UInt32.toNat_inj.mp hn) hparent
  cases a
  simp_all

theorem identityKey_injective : Function.Injective identityKey := by
  intro a b h
  simp only [identityKey, toLex_inj, Prod.mk.injEq] at h
  obtain ⟨hkind, hindex, hcookie⟩ := h
  have hkind' := textKey_injective hkind
  have hindex' := UInt32.toNat_inj.mp hindex
  have hcookie' := optionKey_injective bytesKey_injective hcookie
  cases a
  simp_all

theorem reads_text : Reads textCode id :=
  (reads_sized.comp utf8).mono fun _ _ h => utf8_injective h

theorem reads_optionText : Reads (optionCode textCode) id :=
  reads_text.optionCode.mono fun _ _ h => by simpa using h

theorem reads_optionU32 : Reads (optionCode u32Code) id :=
  reads_u32.optionCode.mono fun _ _ h => by simpa [u32Code] using h

theorem reads_optionBytes : Reads (optionCode sized) id :=
  reads_sized.optionCode.mono fun _ _ h => by simpa using h

theorem reads_record (h : Reads f π) (tag : UInt16) : Reads (fun a => recordCode tag (f a)) π :=
  ((reads_const (beBytes 2 tag.toNat)).append h.sized).mono fun _ _ heq => (Prod.ext_iff.mp heq).2

theorem reads_records (h : Reads f π) :
    Reads (counted fun a => recordCode 1 (f a)) (List.map π) := by
  refine (reads_record h 1).counted fun a => ?_
  show 0 < (recordCode 1 (f a)).length
  rw [recordCode, length_append, length_beBytes]
  omega

theorem reads_collection (h : Reads f π) (tag : UInt16) :
    Reads (collectionCode tag f) (List.map π) :=
  reads_record (reads_records h) tag

theorem reads_mode : Reads (fun m : OperationRouteMode => textCode (lit m.asStr)) id := by
  refine (reads_text.comp fun m : OperationRouteMode => lit m.asStr).mono fun m m' h => ?_
  have hword : m.asStr = m'.asStr := String.toList_inj.mp h
  cases m <;> cases m' <;> first | rfl | exact absurd hword (by decide)

theorem ipv4_of_bytes {ip ip' : Ipv4Addr}
    (h : [ip.a, ip.b, ip.c, ip.d] = [ip'.a, ip'.b, ip'.c, ip'.d]) :
    ip = ip' := by
  cases ip
  cases ip'
  simpa using h

theorem ipv6_of_bytes {ip ip' : BitVec 128} (h : beBytes 16 ip.toNat = beBytes 16 ip'.toNat) :
    ip = ip' := by
  have hbound : (256 : ℕ) ^ 16 = 2 ^ 128 := by norm_num
  refine BitVec.eq_of_toNat_eq (beBytes_inj_of_lt ?_ ?_ h)
  · rw [hbound]
    exact ip.isLt
  · rw [hbound]
    exact ip'.isLt

theorem reads_source : Reads sourceCode id := by
  intro a b r s ha hb heq
  have hpayload : ∀ v w : List UInt8, (sized v).length < wordBound → (sized w).length < wordBound →
      sized v ++ r = sized w ++ s → v = w ∧ r = s := fun v w hv hw => reads_sized v w r s hv hw
  rcases a with - | ip | ip <;> rcases b with - | ip' | ip'
  · exact ⟨rfl, (cons.inj heq).2⟩
  · exact absurd (cons.inj heq).1 (by decide)
  · exact absurd (cons.inj heq).1 (by decide)
  · exact absurd (cons.inj heq).1 (by decide)
  · obtain ⟨hbytes, hrs⟩ := hpayload _ _ (by simp [wordBound]) (by simp [wordBound])
      (cons.inj heq).2
    exact ⟨by rw [ipv4_of_bytes hbytes], hrs⟩
  · exact absurd (cons.inj heq).1 (by decide)
  · exact absurd (cons.inj heq).1 (by decide)
  · exact absurd (cons.inj heq).1 (by decide)
  · obtain ⟨hbytes, hrs⟩ := hpayload _ _ (by simp [wordBound]) (by simp [wordBound])
      (cons.inj heq).2
    exact ⟨by rw [ipv6_of_bytes hbytes], hrs⟩

/-- What `encode_route` encodes of a route. -/
def encodedRoute (r : OperationRouteIdentity) : OperationRouteIdentity :=
  { r with dnsServer := none, deviceIfindex := none, fwmarkMask := none }

theorem reads_route : Reads routeCode encodedRoute := by
  have h := (reads_mode.comp mode).append
    ((reads_optionText.comp mwan3Member).append
      ((reads_text.comp l3Device).append
        ((reads_source.comp sourceIp).append
          ((reads_optionU32.comp fwmark).append (reads_optionU32.comp routingTable)))))
  refine h.mono fun a b hab => ?_
  simp only [id_eq, Prod.mk.injEq] at hab
  obtain ⟨hmode, hmember, hdevice, hsource, hmark, htable⟩ := hab
  rw [encodedRoute, encodedRoute, hmode, hmember, hdevice, hsource, hmark, htable]

theorem reads_link : Reads linkCode id := by
  have h := (reads_u32.comp ifindex).append ((reads_text.comp name).append
    ((reads_optionText.comp aliasName).append
      ((reads_optionText.comp fun l : LinkRecord => l.kind.name?).append
        (reads_optionU32.comp parentIfindex))))
  refine h.mono fun a b hab => ?_
  simp only [id_eq, Prod.mk.injEq] at hab
  obtain ⟨hindex, hname, halias, hkind, hparent⟩ := hab
  have hkind' : a.kind = b.kind := by
    rcases hka : a.kind with - | kind <;> rcases hkb : b.kind with - | kind'
    · rfl
    · simp [hka, hkb, name?] at hkind
    · simp [hka, hkb, name?] at hkind
    · simpa [hka, hkb, name?] using hkind
  cases a
  simp_all

theorem reads_attribute : Reads attributeCode id := by
  have hflag : Reads (fun f : Bool => beBytes 1 (if f then 1 else 0)) id := by
    refine reads_fixed 1 (fun _ => length_beBytes 1 _) fun f g h => ?_
    cases f <;> cases g <;> first | rfl | exact absurd h (by decide)
  have hpath : Reads (counted u16Code) id := by
    have hnonempty : Nonempty u16Code := fun v => by rw [u16Code, length_beBytes]; omega
    exact (reads_u16.counted hnonempty).mono fun _ _ h => by simpa using h
  have h := (hpath.comp path).append ((hflag.comp networkByteOrder).append (reads_sized.comp value))
  refine h.mono fun a b hab => ?_
  cases a
  cases b
  simpa using hab

theorem reads_config : Reads configCode fun c =>
    (c.attributes : Multiset CanonicalConfigAttribute) := by
  have h := (reads_collection reads_attribute 1).comp fun c : CanonicalConfig => c.normalized.attributes
  refine h.mono fun a b hab => ?_
  rw [map_id, map_id] at hab
  exact (sortBy_eq_iff attributeKey_injective).mp hab

theorem reads_identity : Reads identityCode id := by
  have h := (reads_text.comp PrivateActionIdentity.kind).append
    ((reads_u32.comp PrivateActionIdentity.index).append
      (reads_optionBytes.comp PrivateActionIdentity.cookie))
  refine h.mono fun a b hab => ?_
  cases a
  cases b
  simpa using hab

theorem reads_qdisc : Reads qdiscCode QdiscRecord.fact := by
  have h := (reads_u32.comp QdiscRecord.ifindex).append ((reads_u32.comp QdiscRecord.parent).append
    ((reads_u32.comp QdiscRecord.handle).append ((reads_text.comp QdiscRecord.kind).append
      (reads_config.comp QdiscRecord.options))))
  refine h.mono fun a b hab => ?_
  simp only [id_eq, Prod.mk.injEq] at hab
  obtain ⟨hindex, hparent, hhandle, hkind, hoptions⟩ := hab
  rw [QdiscRecord.fact, QdiscRecord.fact, hindex, hparent, hhandle, hkind, hoptions]

theorem reads_target : Reads (fun t : ActionTarget => optionCode targetCode t.fields?) id := by
  have htag : Reads (fun d : MirredDirection => beBytes 1 d.tag.toNat) id := by
    refine reads_fixed 1 (fun _ => length_beBytes 1 _) fun d d' h => ?_
    cases d <;> cases d' <;> first | rfl | exact absurd h (by decide)
  have hfields : Reads targetCode id :=
    (htag.comp Prod.fst).append (reads_u32.comp Prod.snd)
  refine (hfields.optionCode.comp ActionTarget.fields?).mono fun t t' h => ?_
  rcases t with - | ⟨d, i⟩ <;> rcases t' with - | ⟨d', i'⟩
  · rfl
  · cases h
  · cases h
  · simpa [ActionTarget.fields?] using h

theorem reads_action : Reads actionCode fact := by
  have h := (reads_u16.comp order).append
    ((reads_u32.comp actionIndex).append ((reads_text.comp kind).append
      ((reads_optionBytes.comp cookie).append
        ((reads_config.comp options).append (reads_target.comp target)))))
  refine h.mono fun a b hab => ?_
  simp only [id_eq, Prod.mk.injEq] at hab
  obtain ⟨horder, hindex, hkind, hcookie, hoptions, htarget⟩ := hab
  rw [fact, fact, horder, hindex, hkind, hcookie, hoptions, htarget]

abbrev orderKey (a : ActionRecord) : ℕ := a.order.toNat

theorem reads_filter : Reads filterCode FilterRecord.fact := by
  have h := (reads_u32.comp FilterRecord.ifindex).append
    ((reads_u32.comp FilterRecord.parent).append ((reads_u32.comp FilterRecord.chain).append
      ((reads_u16.comp FilterRecord.priority).append ((reads_u16.comp FilterRecord.protocol).append
        ((reads_u32.comp FilterRecord.handle).append ((reads_text.comp FilterRecord.kind).append
          ((reads_config.comp FilterRecord.options).append
            ((reads_records reads_action).comp fun f : FilterRecord => sortBy orderKey f.actions))))))))
  refine h.mono fun a b hab => ?_
  simp only [id_eq, Prod.mk.injEq] at hab
  obtain ⟨hindex, hparent, hchain, hpriority, hprotocol, hhandle, hkind, hoptions, hactions⟩ := hab
  have hmulti : (a.actions.map ActionRecord.fact : Multiset ActionFact) =
      (b.actions.map ActionRecord.fact : List ActionFact) := by
    have hperm : ∀ f : FilterRecord, ((sortBy orderKey f.actions).map ActionRecord.fact).Perm
        (f.actions.map ActionRecord.fact) := fun f => (sortBy_perm _ _).map _
    exact Multiset.coe_eq_coe.mpr ((hperm a).symm.trans (hactions ▸ hperm b))
  rw [FilterRecord.fact, FilterRecord.fact, hindex, hparent, hchain, hpriority, hprotocol, hhandle,
    hkind, hoptions, hmulti]

end CakeAutorate.Topology
