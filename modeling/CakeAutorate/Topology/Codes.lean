/-
# The codes of a snapshot

What each `encode_*` function appends, as a list of bytes of its own, and that these lists read
back: two of them are equal only for equal records, up to the orders that the encoding sorts away.
The records without these orders are the facts.
-/

import CakeAutorate.Machine.Fallible
import CakeAutorate.Topology.Encoding

namespace CakeAutorate.Topology

open Wire Protocol List Except

/-- An operation appends `w`, and does not cross the limit. -/
def Emits (op : Encode) (w : List UInt8) : Prop :=
  ∀ before after, op before = .ok after → after = before ++ w ∧
    (before.length ≤ maxCanonicalBytes → after.length ≤ maxCanonicalBytes)

theorem ensureAdditional_ok {bytes : List UInt8} {additional : ℕ} {u : Unit} :
    ensureAdditional bytes additional = .ok u ↔ bytes.length + additional ≤ maxCanonicalBytes := by
  rw [ensureAdditional, check_ok, decide_eq_true_eq]

theorem checkedU32_ok {value n : ℕ} {label : String} (h : checkedU32 value label = .ok n) :
    n = value := by
  unfold checkedU32 at h
  split at h
  · exact (ok.inj h).symm
  · cases h

theorem emits_append (value : List UInt8) : Emits (append value) value := by
  intro before after h
  obtain ⟨_, hfits, hafter⟩ := bind_ok.mp h
  rw [ensureAdditional_ok] at hfits
  have heq : after = before ++ value := (ok.inj hafter).symm
  refine ⟨heq, fun _ => ?_⟩
  rw [heq, length_append]
  exact hfits

theorem emits_nil : Emits (inOrder []) [] := by
  intro before after h
  have heq : after = before := (ok.inj h).symm
  exact ⟨by rw [heq, append_nil], fun hb => by rw [heq]; exact hb⟩

variable {w : List UInt8} {op : Encode}

theorem emits_cons {rest : List Encode} {w' : List UInt8} (h : Emits op w)
    (hrest : Emits (inOrder rest) w') : Emits (inOrder (op :: rest)) (w ++ w') := by
  intro before after hrun
  obtain ⟨mid, hop, hafter⟩ := bind_ok.mp hrun
  obtain ⟨hmid, hfits⟩ := h before mid hop
  obtain ⟨heq, hfits'⟩ := hrest mid after hafter
  exact ⟨by rw [heq, hmid, append_assoc], fun hb => hfits' (hfits hb)⟩

theorem emits_last (h : Emits op w) : Emits (inOrder [op]) w := by
  have hall := emits_cons h emits_nil
  rwa [append_nil] at hall

theorem emits_u8 (value : UInt8) : Emits (u8 value) (beBytes 1 value.toNat) := by
  have hbytes : beBytes 1 value.toNat = [value] := by simp [beBytes]
  rw [hbytes]
  exact emits_append [value]

theorem emits_bytes (value : List UInt8) : Emits (bytes value) (sized value) := by
  intro before after h
  obtain ⟨length, hlength, h⟩ := bind_ok.mp h
  obtain ⟨_, hfits, hafter⟩ := bind_ok.mp h
  rw [ensureAdditional_ok] at hfits
  have heq : after = before ++ sized value := by
    rw [← ok.inj hafter, checkedU32_ok hlength, sized, append_assoc]
  refine ⟨heq, fun _ => ?_⟩
  rw [heq, length_append, length_sized]
  exact hfits

theorem emits_optionalBytes (value : Option (List UInt8)) :
    Emits (optionalBytes value) (optionCode sized value) := by
  cases value with
  | none => exact emits_append [0]
  | some value =>
    intro before after h
    obtain ⟨length, hlength, h⟩ := bind_ok.mp h
    obtain ⟨_, hfits, hafter⟩ := bind_ok.mp h
    rw [ensureAdditional_ok] at hfits
    have heq : after = before ++ optionCode sized (some value) := by
      rw [← ok.inj hafter, checkedU32_ok hlength, optionCode, sized, append_assoc, append_assoc]
      rfl
    refine ⟨heq, fun _ => ?_⟩
    rw [heq, length_append, optionCode, length_cons, length_sized]
    omega

theorem emits_optionalU32 (value : Option UInt32) :
    Emits (optionalU32 value) (optionCode (fun v : UInt32 => beBytes 4 v.toNat) value) := by
  cases value with
  | none => exact emits_append [0]
  | some value =>
    intro before after h
    obtain ⟨_, hfits, hafter⟩ := bind_ok.mp h
    rw [ensureAdditional_ok] at hfits
    have heq : after = before ++ optionCode (fun v : UInt32 => beBytes 4 v.toNat) (some value) := by
      rw [← ok.inj hafter, optionCode, append_assoc]
      rfl
    refine ⟨heq, fun _ => ?_⟩
    rw [heq, length_append, optionCode, length_cons, length_beBytes]
    exact hfits

theorem emits_countedValues {α : Type} {label : String} {encode : α → Encode} {f : α → List UInt8}
    (h : ∀ a, Emits (encode a) (f a)) (values : List α) :
    Emits (countedValues label encode values) (counted f values) := by
  have hall : ∀ as : List α, Emits (inOrder (as.map encode)) (as.flatMap f) := by
    intro as
    induction as with
    | nil => exact emits_nil
    | cons a as ih => exact emits_cons (h a) ih
  intro before after hrun
  obtain ⟨count, hcount, hrun⟩ := bind_ok.mp hrun
  obtain ⟨mid, happend, hafter⟩ := bind_ok.mp hrun
  obtain ⟨hmid, hfits⟩ := emits_append _ before mid happend
  obtain ⟨heq, hfits'⟩ := hall values mid after hafter
  refine ⟨?_, fun hb => hfits' (hfits hb)⟩
  rw [heq, hmid, checkedU32_ok hcount, counted, append_assoc]

/-- What `record` appends. -/
def recordCode (tag : UInt16) (w : List UInt8) : List UInt8 := beBytes 2 tag.toNat ++ sized w

theorem patch_zero (before value w : List UInt8) (n : ℕ) (hn : value.length = n) :
    patch (before ++ beBytes n 0 ++ w) before.length value = before ++ value ++ w := by
  unfold patch
  have htake : (before ++ beBytes n 0 ++ w).take before.length = before := by
    rw [append_assoc, take_left]
  have hdrop : (before ++ beBytes n 0 ++ w).drop (before.length + value.length) = w := by
    have hlength : before.length + value.length = (before ++ beBytes n 0).length := by
      rw [length_append, length_beBytes, hn]
    rw [hlength, drop_left]
  rw [htake, hdrop]

theorem emits_record {tag : UInt16} (h : Emits op w) :
    Emits (record tag op) (recordCode tag w) := by
  intro before after hrun
  obtain ⟨_, hfits, hrun⟩ := bind_ok.mp hrun
  rw [ensureAdditional_ok] at hfits
  obtain ⟨finished, hop, hrun⟩ := bind_ok.mp hrun
  obtain ⟨length, hlength, hafter⟩ := bind_ok.mp hrun
  obtain ⟨hfinished, hbound⟩ := h _ finished hop
  have hsize : length = w.length := by
    rw [checkedU32_ok hlength, hfinished, length_append]
    omega
  have heq : after = before ++ recordCode tag w := by
    rw [← ok.inj hafter, hfinished, patch_zero _ _ _ 4 (length_beBytes 4 _), hsize,
      recordCode, sized, append_assoc, append_assoc]
  refine ⟨heq, fun _ => ?_⟩
  have hstarted : (before ++ beBytes 2 tag.toNat ++ beBytes 4 0).length ≤ maxCanonicalBytes := by
    rw [length_append, length_append, length_beBytes, length_beBytes]
    omega
  have hlast := hbound hstarted
  rw [hfinished, length_append, length_append, length_append, length_beBytes,
    length_beBytes] at hlast
  rw [heq, length_append, recordCode, length_append, length_beBytes, length_sized]
  omega

/-- What `collection` appends. -/
def collectionCode {α : Type} (tag : UInt16) (f : α → List UInt8) (values : List α) : List UInt8 :=
  recordCode tag (counted (fun a => recordCode 1 (f a)) values)

theorem emits_collection {α : Type} {tag : UInt16} {encode : α → Encode} {f : α → List UInt8}
    (h : ∀ a, Emits (encode a) (f a)) (values : List α) :
    Emits (collection tag encode values) (collectionCode tag f values) :=
  emits_record (emits_countedValues (fun a => emits_record (h a)) values)

/-- What `string` appends. -/
def textCode (value : Text) : List UInt8 := sized (utf8 value)

/-- What `u32` appends. -/
def u32Code (value : UInt32) : List UInt8 := beBytes 4 value.toNat

/-- What `u16` appends. -/
def u16Code (value : UInt16) : List UInt8 := beBytes 2 value.toNat

/-- What `encode_route` appends for the source address. -/
def sourceCode : Option IpAddr → List UInt8
  | none => beBytes 1 0
  | some (.v4 ip) => beBytes 1 4 ++ sized [ip.a, ip.b, ip.c, ip.d]
  | some (.v6 ip) => beBytes 1 6 ++ sized (beBytes 16 ip.toNat)

/-- What `encode_route` appends. -/
def routeCode (r : OperationRouteIdentity) : List UInt8 :=
  textCode (lit r.mode.asStr) ++ (optionCode textCode r.mwan3Member ++ (textCode r.l3Device ++
    (sourceCode r.sourceIp ++ (optionCode u32Code r.fwmark ++ optionCode u32Code r.routingTable))))

def KernelLinkKind.name? : KernelLinkKind → Option Text
  | .absent => none
  | .named kind => some kind

/-- What `encode_link` appends. -/
def linkCode (l : LinkRecord) : List UInt8 :=
  u32Code l.ifindex ++ (textCode l.name ++ (optionCode textCode l.aliasName ++
    (optionCode textCode l.kind.name? ++ optionCode u32Code l.parentIfindex)))

/-- What `encode_config` appends for an attribute. -/
def attributeCode (a : CanonicalConfigAttribute) : List UInt8 :=
  counted u16Code a.path ++ (beBytes 1 (if a.networkByteOrder then 1 else 0) ++ sized a.value)

/-- What `encode_config` appends. -/
def configCode (c : CanonicalConfig) : List UInt8 :=
  collectionCode 1 attributeCode c.normalized.attributes

/-- What `encode_action_identity` appends. -/
def identityCode (i : PrivateActionIdentity) : List UInt8 :=
  textCode i.kind ++ (u32Code i.index ++ optionCode sized i.cookie)

/-- What `encode_namespace` appends. -/
def namespaceCode (n : PrivateNamespaceRecord) : List UInt8 :=
  counted textCode n.linkNames ++ (counted textCode n.linkAliases ++
    (counted u32Code n.qdiscHandles ++ (counted u32Code n.filterHandles ++
      (counted u16Code n.filterPriorities ++
        counted (fun i => recordCode 1 (identityCode i)) (sortBy identityKey n.actionIdentities)))))

/-- What `encode_sorted_qdiscs` appends for a qdisc. -/
def qdiscCode (q : QdiscRecord) : List UInt8 :=
  u32Code q.ifindex ++ (u32Code q.parent ++ (u32Code q.handle ++
    (textCode q.kind ++ configCode q.options)))

def ActionTarget.fields? : ActionTarget → Option (MirredDirection × UInt32)
  | .none => Option.none
  | .mirred direction targetIfindex => some (direction, targetIfindex)

/-- What `encode_action` appends for a target. -/
def targetCode (t : MirredDirection × UInt32) : List UInt8 := beBytes 1 t.1.tag.toNat ++ u32Code t.2

/-- What `encode_action` appends. -/
def actionCode (a : ActionRecord) : List UInt8 :=
  u16Code a.order ++ (u32Code a.actionIndex ++ (textCode a.kind ++ (optionCode sized a.cookie ++
    (configCode a.options ++ optionCode targetCode a.target.fields?))))

/-- What `encode_sorted_filters` appends for a filter. -/
def filterCode (f : FilterRecord) : List UInt8 :=
  u32Code f.ifindex ++ (u32Code f.parent ++ (u32Code f.chain ++ (u16Code f.priority ++
    (u16Code f.protocol ++ (u32Code f.handle ++ (textCode f.kind ++ (configCode f.options ++
      counted (fun a => recordCode 1 (actionCode a))
        (sortBy (fun a : ActionRecord => a.order.toNat) f.actions))))))))

/-- What `canonical_bytes` returns. -/
def snapshotCode (s : KernelTopologySnapshot) : List UInt8 :=
  sized canonicalDomain ++ (u16Code kernelTopologySchema ++ (recordCode 1 (routeCode s.route) ++
    (recordCode 2 (beBytes 8 s.netnsCookie.toNat ++ linkCode s.target) ++
      (recordCode 3 (namespaceCode s.privateNamespace.normalized) ++
        (collectionCode 4 linkCode (sortBy linkKey s.privateLinks) ++
          (collectionCode 5 qdiscCode (sortBy qdiscKey s.rootQdiscs) ++
            (collectionCode 6 qdiscCode (sortBy qdiscKey s.ingressQdiscs) ++
              (collectionCode 7 filterCode (sortBy filterKey s.ingressFilters) ++
                (collectionCode 8 filterCode (sortBy filterKey s.egressFilters) ++
                  collectionCode 9 identityCode (sortBy identityKey s.privateActions))))))))))

theorem emits_optionalString (value : Option Text) :
    Emits (optionalString value) (optionCode textCode value) := by
  have hcode : optionCode textCode value = optionCode sized (value.map utf8) := by
    cases value with
    | none => rfl
    | some value => rfl
  rw [hcode]
  exact emits_optionalBytes _

theorem emits_source (source : Option IpAddr) : Emits (encodeSource source) (sourceCode source) := by
  rcases source with - | ip | ip
  · exact emits_u8 0
  · exact emits_cons (emits_u8 4) (emits_last (emits_bytes _))
  · exact emits_cons (emits_u8 6) (emits_last (emits_bytes _))

theorem emits_route (r : OperationRouteIdentity) : Emits (encodeRoute r) (routeCode r) :=
  emits_cons (emits_bytes _) (emits_cons (emits_optionalString _) (emits_cons (emits_bytes _)
    (emits_cons (emits_source _) (emits_cons (emits_optionalU32 _)
      (emits_last (emits_optionalU32 _))))))

theorem emits_linkKind (kind : KernelLinkKind) :
    Emits (encodeLinkKind kind) (optionCode textCode kind.name?) := by
  cases kind with
  | absent => exact emits_append [0]
  | named kind => exact emits_cons (emits_append [1]) (emits_last (emits_bytes _))

theorem emits_link (l : LinkRecord) : Emits (encodeLink l) (linkCode l) :=
  emits_cons (emits_append _) (emits_cons (emits_bytes _) (emits_cons (emits_optionalString _)
    (emits_cons (emits_linkKind _) (emits_last (emits_optionalU32 _)))))

theorem emits_attribute (a : CanonicalConfigAttribute) :
    Emits (encodeAttribute a) (attributeCode a) := by
  have hflag : Emits (u8 (if a.networkByteOrder then 1 else 0))
      (beBytes 1 (if a.networkByteOrder then 1 else 0)) := by
    have hbyte := emits_u8 (if a.networkByteOrder then 1 else 0)
    cases hnbo : a.networkByteOrder with
    | true => simpa [hnbo] using hbyte
    | false => simpa [hnbo] using hbyte
  exact emits_cons (emits_countedValues (fun _ => emits_append _) a.path)
    (emits_cons hflag (emits_last (emits_bytes _)))

theorem emits_checked {check : Check} (h : Emits op w) :
    Emits (fun written => do
      check
      op written) w := by
  intro before after hrun
  obtain ⟨_, -, hafter⟩ := bind_ok.mp hrun
  exact h before after hafter

theorem emits_config (c : CanonicalConfig) : Emits (encodeConfig c) (configCode c) :=
  emits_checked (emits_collection emits_attribute c.normalized.attributes)

theorem emits_identity (i : PrivateActionIdentity) :
    Emits (encodeActionIdentity i) (identityCode i) :=
  emits_checked (emits_cons (emits_bytes _) (emits_cons (emits_append _)
    (emits_last (emits_optionalBytes _))))

theorem emits_namespace (n : PrivateNamespaceRecord) :
    Emits (encodeNamespace n) (namespaceCode n) :=
  emits_cons (emits_countedValues (fun _ => emits_bytes _) _)
    (emits_cons (emits_countedValues (fun _ => emits_bytes _) _)
      (emits_cons (emits_countedValues (fun _ => emits_append _) _)
        (emits_cons (emits_countedValues (fun _ => emits_append _) _)
          (emits_cons (emits_countedValues (fun _ => emits_append _) _)
            (emits_last (emits_countedValues (fun i => emits_record (emits_identity i)) _))))))

theorem emits_qdisc (q : QdiscRecord) : Emits (encodeQdisc q) (qdiscCode q) :=
  emits_cons (emits_append _) (emits_cons (emits_append _) (emits_cons (emits_append _)
    (emits_cons (emits_bytes _) (emits_last (emits_config _)))))

theorem emits_target (t : ActionTarget) : Emits (encodeTarget t) (optionCode targetCode t.fields?) := by
  cases t with
  | none => exact emits_append [0]
  | mirred direction targetIfindex =>
    exact emits_cons (emits_append [1]) (emits_cons (emits_u8 _) (emits_last (emits_append _)))

theorem emits_action (a : ActionRecord) : Emits (encodeAction a) (actionCode a) :=
  emits_cons (emits_append _) (emits_cons (emits_append _) (emits_cons (emits_bytes _)
    (emits_cons (emits_optionalBytes _) (emits_cons (emits_config _)
      (emits_last (emits_target _))))))

theorem emits_filter (f : FilterRecord) : Emits (encodeFilter f) (filterCode f) :=
  emits_cons (emits_append _) (emits_cons (emits_append _) (emits_cons (emits_append _)
    (emits_cons (emits_append _) (emits_cons (emits_append _) (emits_cons (emits_append _)
      (emits_cons (emits_bytes _) (emits_cons (emits_config _)
        (emits_last (emits_countedValues (fun a => emits_record (emits_action a)) _)))))))))

/-- **`canonical_bytes` returns the code of a valid snapshot**, within its bound. -/
theorem canonicalBytes_ok {net : AddressText} {s : KernelTopologySnapshot} {b : List UInt8}
    (h : s.canonicalBytes net = .ok b) :
    s.validate net = .ok () ∧ b = snapshotCode s ∧ b.length ≤ maxCanonicalBytes := by
  obtain ⟨_, hvalid, hrun⟩ := bind_ok.mp h
  have hemits := emits_cons (emits_bytes canonicalDomain)
    (emits_cons (emits_append (u16Code kernelTopologySchema))
      (emits_cons (emits_record (emits_route s.route))
        (emits_cons (emits_record (emits_cons (emits_append (beBytes 8 s.netnsCookie.toNat))
            (emits_last (emits_link s.target))))
          (emits_cons (emits_record (emits_namespace s.privateNamespace.normalized))
            (emits_cons (emits_collection emits_link (sortBy linkKey s.privateLinks))
              (emits_cons (emits_collection emits_qdisc (sortBy qdiscKey s.rootQdiscs))
                (emits_cons (emits_collection emits_qdisc (sortBy qdiscKey s.ingressQdiscs))
                  (emits_cons (emits_collection emits_filter (sortBy filterKey s.ingressFilters))
                    (emits_cons (emits_collection emits_filter (sortBy filterKey s.egressFilters))
                      (emits_last (emits_collection emits_identity
                        (sortBy identityKey s.privateActions)))))))))))) [] b hrun
  obtain ⟨hcode, hbound⟩ := hemits
  exact ⟨hvalid, hcode, hbound (Nat.zero_le _)⟩

end CakeAutorate.Topology
