/-
# The canonical bytes and the topology

Two snapshots have the same canonical bytes exactly when their facts and what is encoded of their
routes are the same. A valid snapshot keeps its records apart, so that each collection can be sorted
in one way only.
-/

import CakeAutorate.Topology.Facts
import CakeAutorate.Protocol.RoundTrip

namespace CakeAutorate.Topology

open Wire Protocol List PrivateNamespaceRecord

variable {α : Type} {s : KernelTopologySnapshot}

theorem insertEach_ok {κ : Type} [DecidableEq κ] {valid : α → Check} {key : α → κ}
    {duplicate : KernelTopologyError} {items : List α} {seen seen' : List κ}
    (h : insertEach valid key duplicate seen items = .ok seen') :
    (items.map key).Nodup ∧ (∀ item ∈ items, key item ∉ seen) ∧
      ∀ item ∈ items, valid item = .ok () := by
  induction items generalizing seen with
  | nil => exact ⟨nodup_nil, by simp, by simp⟩
  | cons item rest ih =>
    obtain ⟨_, hcheck, h⟩ := bind_ok.mp h
    obtain ⟨_, hnew, h⟩ := bind_ok.mp h
    rw [check_ok] at hnew
    have hnotin : key item ∉ seen := by simpa using hnew
    obtain ⟨hnodup, hfresh, hchecks⟩ := ih h
    refine ⟨?_, ?_, ?_⟩
    · rw [map_cons, nodup_cons]
      refine ⟨fun hmem => ?_, hnodup⟩
      obtain ⟨other, hother, hsame⟩ := mem_map.mp hmem
      exact hfresh other hother (by rw [hsame]; exact mem_cons_self)
    · intro other hother
      rcases mem_cons.mp hother with rfl | hother
      · exact hnotin
      · exact fun hmem => hfresh other hother (mem_cons_of_mem _ hmem)
    · intro other hother
      rcases mem_cons.mp hother with rfl | hother
      · exact hcheck
      · exact hchecks other hother

variable {known : List UInt32}

theorem validateActions_nodup {orders orders' : List UInt16} {indexes : List UInt32}
    {actions : List ActionRecord} (h : validateActions known orders indexes actions = .ok orders') :
    (actions.map ActionRecord.order).Nodup ∧ ∀ a ∈ actions, a.order ∉ orders := by
  induction actions generalizing orders indexes with
  | nil => exact ⟨nodup_nil, by simp⟩
  | cons action rest ih =>
    obtain ⟨_, -, h⟩ := bind_ok.mp h
    obtain ⟨_, hnew, h⟩ := bind_ok.mp h
    rw [check_ok] at hnew
    have hnotin : action.order ∉ orders := by
      intro hmem
      simp [hmem] at hnew
    obtain ⟨hnodup, hfresh⟩ := ih h
    refine ⟨?_, ?_⟩
    · rw [map_cons, nodup_cons]
      refine ⟨fun hmem => ?_, hnodup⟩
      obtain ⟨other, hother, hsame⟩ := mem_map.mp hmem
      exact hfresh other hother (by rw [hsame]; exact mem_cons_self)
    · intro other hother
      rcases mem_cons.mp hother with rfl | hother
      · exact hnotin
      · exact fun hmem => hfresh other hother (mem_cons_of_mem _ hmem)

/-- No two actions have one order. -/
def FilterRecord.OrdersDistinct (f : FilterRecord) : Prop := (f.actions.map orderKey).Nodup

theorem FilterRecord.validate_orders {f : FilterRecord} (h : f.validate known = .ok ()) :
    f.OrdersDistinct := by
  iterate 5 obtain ⟨_, -, h⟩ := bind_ok.mp h
  obtain ⟨orders, hactions, -⟩ := bind_ok.mp h
  have hnodup := (validateActions_nodup hactions).1.map fun _ _ hn => UInt16.toNat_inj.mp hn
  rwa [map_map] at hnodup

/-- The slot of a qdisc. -/
def slotKey (q : QdiscRecord) : ℕ ×ₗ ℕ := toLex (q.ifindex.toNat, q.parent.toNat)

/-- What identifies a filter. -/
def filterIdentityKey (f : FilterRecord) : ℕ ×ₗ ℕ ×ₗ ℕ ×ₗ ℕ ×ₗ ℕ ×ₗ ℕ :=
  toLex (f.ifindex.toNat, toLex (f.parent.toNat, toLex (f.chain.toNat, toLex (f.priority.toNat,
    toLex (f.protocol.toNat, f.handle.toNat)))))

theorem nodup_of_nodup {κ ι : Type} {key : α → κ} {ident : α → ι} {items : List α}
    (h : (items.map key).Nodup) (hident : ∀ a b, ident a = ident b → key a = key b) :
    (items.map ident).Nodup := by
  rw [List.Nodup, pairwise_map] at h ⊢
  exact h.imp fun {a b} hne heq => hne (hident a b heq)

/-- What the collections of a snapshot keep apart. -/
structure KernelTopologySnapshot.Distinct (s : KernelTopologySnapshot) : Prop where
  rootSlots : (s.rootQdiscs.map slotKey).Nodup
  ingressSlots : (s.ingressQdiscs.map slotKey).Nodup
  ingressIdentities : (s.ingressFilters.map filterIdentityKey).Nodup
  egressIdentities : (s.egressFilters.map filterIdentityKey).Nodup
  ingressOrders : ∀ f ∈ s.ingressFilters, f.OrdersDistinct
  egressOrders : ∀ f ∈ s.egressFilters, f.OrdersDistinct

variable (q q' : QdiscRecord)

theorem slot_of_key (h : slotKey q = slotKey q') :
    (q.ifindex, q.parent) = (q'.ifindex, q'.parent) := by
  simp only [slotKey, toLex_inj, Prod.mk.injEq] at h
  rw [UInt32.toNat_inj.mp h.1, UInt32.toNat_inj.mp h.2]

variable (f f' : FilterRecord)

theorem identity_of_key (h : filterIdentityKey f = filterIdentityKey f') :
    filterIdentity f = filterIdentity f' := by
  simp only [filterIdentityKey, toLex_inj, Prod.mk.injEq] at h
  obtain ⟨hindex, hparent, hchain, hpriority, hprotocol, hhandle⟩ := h
  rw [filterIdentity, filterIdentity, UInt32.toNat_inj.mp hindex, UInt32.toNat_inj.mp hparent,
    UInt32.toNat_inj.mp hchain, UInt16.toNat_inj.mp hpriority, UInt16.toNat_inj.mp hprotocol,
    UInt32.toNat_inj.mp hhandle]

theorem validateHookFilter_orders {target : LinkRecord} {hook : UInt32} {message : String}
    {f : FilterRecord} (h : validateHookFilter target hook message known f = .ok ()) :
    f.OrdersDistinct := by
  obtain ⟨_, hvalid, -⟩ := bind_ok.mp h
  exact FilterRecord.validate_orders hvalid

/-- **A valid snapshot keeps them apart.** -/
theorem KernelTopologySnapshot.distinct_of_validate {net : AddressText}
    (h : s.validate net = .ok ()) : s.Distinct := by
  iterate 9 obtain ⟨_, -, h⟩ := bind_ok.mp h
  obtain ⟨known, -, h⟩ := bind_ok.mp h
  obtain ⟨slots, hroot, h⟩ := bind_ok.mp h
  obtain ⟨_, hingress, h⟩ := bind_ok.mp h
  obtain ⟨filters, hingressFilters, h⟩ := bind_ok.mp h
  obtain ⟨_, hegressFilters, -⟩ := bind_ok.mp h
  exact {
    rootSlots := nodup_of_nodup (insertEach_ok hroot).1 slot_of_key
    ingressSlots := nodup_of_nodup (insertEach_ok hingress).1 slot_of_key
    ingressIdentities := nodup_of_nodup (insertEach_ok hingressFilters).1 identity_of_key
    egressIdentities := nodup_of_nodup (insertEach_ok hegressFilters).1 identity_of_key
    ingressOrders := fun f hf =>
      validateHookFilter_orders ((insertEach_ok hingressFilters).2.2 f hf)
    egressOrders := fun f hf =>
      validateHookFilter_orders ((insertEach_ok hegressFilters).2.2 f hf) }

theorem slot_mono (h : qdiscKey q ≤ qdiscKey q') : slotKey q ≤ slotKey q' :=
  lex_le_of h fun h => by
    rw [Prod.Lex.toLex_le_toLex] at h
    rcases h with hlt | ⟨heq, -⟩
    · exact le_of_lt hlt
    · exact le_of_eq heq

theorem filterIdentity_mono (h : filterKey f ≤ filterKey f') :
    filterIdentityKey f ≤ filterIdentityKey f' :=
  lex_le_of h fun h => lex_le_of h fun h => lex_le_of h fun h => lex_le_of h fun h =>
    lex_le_of h fun h => by
      rw [Prod.Lex.toLex_le_toLex] at h
      rcases h with hlt | ⟨heq, -⟩
      · exact le_of_lt hlt
      · exact le_of_eq heq

def QdiscFact.slot (q : QdiscFact) : ℕ ×ₗ ℕ := toLex (q.ifindex.toNat, q.parent.toNat)

def FilterFact.identity (f : FilterFact) : ℕ ×ₗ ℕ ×ₗ ℕ ×ₗ ℕ ×ₗ ℕ ×ₗ ℕ :=
  toLex (f.ifindex.toNat, toLex (f.parent.toNat, toLex (f.chain.toNat, toLex (f.priority.toNat,
    toLex (f.protocol.toNat, f.handle.toNat)))))

def ActionFact.rank (a : ActionFact) : ℕ := a.order.toNat

theorem sorted_qdiscs {l l' : List QdiscRecord} (hl : (l.map slotKey).Nodup)
    (hl' : (l'.map slotKey).Nodup) :
    (sortBy qdiscKey l).map QdiscRecord.fact = (sortBy qdiscKey l').map QdiscRecord.fact ↔
      ((l.map QdiscRecord.fact : List QdiscFact) : Multiset QdiscFact) =
        (l'.map QdiscRecord.fact : List QdiscFact) := by
  have hslot : ∀ q : QdiscRecord, q.fact.slot = slotKey q := fun _ => rfl
  exact sortBy_map_eq_iff slot_mono hslot hl hl'

theorem sorted_filters {l l' : List FilterRecord} (hl : (l.map filterIdentityKey).Nodup)
    (hl' : (l'.map filterIdentityKey).Nodup) :
    (sortBy filterKey l).map FilterRecord.fact = (sortBy filterKey l').map FilterRecord.fact ↔
      ((l.map FilterRecord.fact : List FilterFact) : Multiset FilterFact) =
        (l'.map FilterRecord.fact : List FilterFact) := by
  have hidentity : ∀ f : FilterRecord, f.fact.identity = filterIdentityKey f := fun _ => rfl
  exact sortBy_map_eq_iff filterIdentity_mono hidentity hl hl'

theorem sorted_actions {l l' : List ActionRecord} (hl : (l.map orderKey).Nodup)
    (hl' : (l'.map orderKey).Nodup) :
    (sortBy orderKey l).map ActionRecord.fact = (sortBy orderKey l').map ActionRecord.fact ↔
      ((l.map ActionRecord.fact : List ActionFact) : Multiset ActionFact) =
        (l'.map ActionRecord.fact : List ActionFact) := by
  have horder : ∀ a : ActionRecord, a.fact.rank = orderKey a := fun _ => rfl
  exact sortBy_map_eq_iff (fun _ _ h => h) horder hl hl'

variable {l l' : List α}

theorem map_code_of_fact {β : Type} {fact : α → β} {code : α → List UInt8} {P : α → Prop}
    (h : ∀ a b, P a → P b → fact a = fact b → code a = code b) (hl : ∀ a ∈ l, P a)
    (hl' : ∀ a ∈ l', P a) (heq : l.map fact = l'.map fact) : l.map code = l'.map code := by
  induction l generalizing l' with
  | nil =>
    cases l' with
    | nil => rfl
    | cons b l' => cases heq
  | cons a l ih =>
    cases l' with
    | nil => cases heq
    | cons b l' =>
      obtain ⟨hfact, hrest⟩ := cons.inj heq
      have ha := hl a mem_cons_self
      have hb := hl' b mem_cons_self
      rw [map_cons, map_cons, h a b ha hb hfact,
        ih (fun x hx => hl x (mem_cons_of_mem _ hx))
          (fun x hx => hl' x (mem_cons_of_mem _ hx)) hrest]

theorem counted_congr {code : α → List UInt8} (h : l.map code = l'.map code) :
    counted (fun a => recordCode 1 (code a)) l = counted (fun a => recordCode 1 (code a)) l' := by
  have hlength : l.length = l'.length := by
    have hmaps := congrArg List.length h
    simpa using hmaps
  have hflat : ∀ m : List α, m.flatMap (fun a => recordCode 1 (code a)) =
      ((m.map code).map (recordCode 1)).flatten := by
    intro m
    rw [map_map]
    rfl
  rw [counted, counted, hlength, hflat l, hflat l', h]

theorem configCode_congr {c c' : CanonicalConfig}
    (h : (c.attributes : Multiset CanonicalConfigAttribute) = c'.attributes) :
    configCode c = configCode c' := by
  have hsorted : c.normalized.attributes = c'.normalized.attributes :=
    (sortBy_eq_iff attributeKey_injective).mpr h
  rw [configCode, configCode, hsorted]

theorem qdiscCode_congr (h : q.fact = q'.fact) : qdiscCode q = qdiscCode q' := by
  simp only [QdiscRecord.fact, QdiscFact.mk.injEq] at h
  obtain ⟨hindex, hparent, hhandle, hkind, hoptions⟩ := h
  rw [qdiscCode, qdiscCode, hindex, hparent, hhandle, hkind, configCode_congr hoptions]

theorem actionCode_congr (a a' : ActionRecord) (h : a.fact = a'.fact) :
    actionCode a = actionCode a' := by
  simp only [ActionRecord.fact, ActionFact.mk.injEq] at h
  obtain ⟨horder, hindex, hkind, hcookie, hoptions, htarget⟩ := h
  rw [actionCode, actionCode, horder, hindex, hkind, hcookie, htarget, configCode_congr hoptions]

theorem filterCode_congr (hf : f.OrdersDistinct) (hf' : f'.OrdersDistinct) (h : f.fact = f'.fact) :
    filterCode f = filterCode f' := by
  simp only [FilterRecord.fact, FilterFact.mk.injEq] at h
  obtain ⟨hindex, hparent, hchain, hpriority, hprotocol, hhandle, hkind, hoptions, hactions⟩ := h
  have hsorted := (sorted_actions hf hf').mpr hactions
  have hcodes : (sortBy orderKey f.actions).map actionCode =
      (sortBy orderKey f'.actions).map actionCode :=
    map_code_of_fact (P := fun _ => True) (fun a b _ _ => actionCode_congr a b)
      (fun _ _ => trivial) (fun _ _ => trivial) hsorted
  have hcounted := counted_congr hcodes
  rw [filterCode, filterCode, hindex, hparent, hchain, hpriority, hprotocol, hhandle, hkind,
    configCode_congr hoptions, hcounted]

theorem namespaceCode_congr {n n' : PrivateNamespaceRecord} (h : n.fact = n'.fact) :
    namespaceCode n.normalized = namespaceCode n'.normalized := by
  simp only [fact, NamespaceFact.mk.injEq] at h
  obtain ⟨hnames, haliases, hqdiscs, hfilters, hpriorities, hidentities⟩ := h
  have hnormal : n.normalized = n'.normalized := by
    rw [normalized, normalized,
      (sortBy_eq_iff textKey_injective).mpr hnames, (sortBy_eq_iff textKey_injective).mpr haliases,
      (sortBy_eq_iff fun _ _ hn => UInt32.toNat_inj.mp hn).mpr hqdiscs,
      (sortBy_eq_iff fun _ _ hn => UInt32.toNat_inj.mp hn).mpr hfilters,
      (sortBy_eq_iff fun _ _ hn => UInt16.toNat_inj.mp hn).mpr hpriorities,
      (sortBy_eq_iff identityKey_injective).mpr hidentities]
  rw [hnormal]

variable {s' : KernelTopologySnapshot}

/-- **The facts and the encoded route determine the code.** -/
theorem snapshotCode_congr (hs : s.Distinct) (hs' : s'.Distinct)
    (hroute : encodedRoute s.route = encodedRoute s'.route) (h : s.fact = s'.fact) :
    snapshotCode s = snapshotCode s' := by
  simp only [KernelTopologySnapshot.fact, TopologyFact.mk.injEq] at h
  obtain ⟨hcookie, htarget, hnamespace, hlinks, hroot, hingress, hingressFilters, hegressFilters,
    hactions⟩ := h
  have hqdiscs : ∀ {l l' : List QdiscRecord} (tag : UInt16), (l.map slotKey).Nodup →
      (l'.map slotKey).Nodup → ((l.map QdiscRecord.fact : List QdiscFact) : Multiset QdiscFact) =
        (l'.map QdiscRecord.fact : List QdiscFact) →
      collectionCode tag qdiscCode (sortBy qdiscKey l) =
        collectionCode tag qdiscCode (sortBy qdiscKey l') := by
    intro l l' tag hl hl' heq
    have hcodes := map_code_of_fact (P := fun _ => True) (fun a b _ _ => qdiscCode_congr a b)
      (fun _ _ => trivial) (fun _ _ => trivial) ((sorted_qdiscs hl hl').mpr heq)
    rw [collectionCode, collectionCode, counted_congr hcodes]
  have hfilters : ∀ {l l' : List FilterRecord} (tag : UInt16), (l.map filterIdentityKey).Nodup →
      (l'.map filterIdentityKey).Nodup → (∀ f ∈ l, f.OrdersDistinct) →
      (∀ f ∈ l', f.OrdersDistinct) →
      ((l.map FilterRecord.fact : List FilterFact) : Multiset FilterFact) =
        (l'.map FilterRecord.fact : List FilterFact) →
      collectionCode tag filterCode (sortBy filterKey l) =
        collectionCode tag filterCode (sortBy filterKey l') := by
    intro l l' tag hl hl' hords hords' heq
    have hmem : ∀ m : List FilterRecord, (∀ f ∈ m, f.OrdersDistinct) →
        ∀ f ∈ sortBy filterKey m, f.OrdersDistinct :=
      fun m hm f hf => hm f ((sortBy_perm filterKey m).mem_iff.mp hf)
    have hcodes := map_code_of_fact (P := FilterRecord.OrdersDistinct) filterCode_congr
      (hmem l hords) (hmem l' hords') ((sorted_filters hl hl').mpr heq)
    rw [collectionCode, collectionCode, counted_congr hcodes]
  have hrouteCode : routeCode s.route = routeCode s'.route := by
    simp only [encodedRoute, OperationRouteIdentity.mk.injEq] at hroute
    obtain ⟨-, -, hmode, hmember, hdevice, hsource, hmark, htable, -⟩ := hroute
    rw [routeCode, routeCode, hmode, hmember, hdevice, hsource, hmark, htable]
  rw [snapshotCode, snapshotCode, hrouteCode, hcookie, htarget, namespaceCode_congr hnamespace,
    (sortBy_eq_iff linkKey_injective).mpr hlinks, hqdiscs 5 hs.rootSlots hs'.rootSlots hroot,
    hqdiscs 6 hs.ingressSlots hs'.ingressSlots hingress,
    hfilters 7 hs.ingressIdentities hs'.ingressIdentities hs.ingressOrders hs'.ingressOrders
      hingressFilters,
    hfilters 8 hs.egressIdentities hs'.egressIdentities hs.egressOrders hs'.egressOrders
      hegressFilters,
    (sortBy_eq_iff identityKey_injective).mpr hactions]

theorem reads_texts : Reads (counted textCode) id := by
  have hnonempty : Nonempty textCode := fun v => by rw [textCode, length_sized]; omega
  exact (reads_text.counted hnonempty).mono fun _ _ h => by simpa using h

theorem reads_u32s : Reads (counted u32Code) id := by
  have hnonempty : Nonempty u32Code := fun v => by rw [u32Code, length_beBytes]; omega
  exact (reads_u32.counted hnonempty).mono fun _ _ h => by simpa using h

theorem reads_u16s : Reads (counted u16Code) id := by
  have hnonempty : Nonempty u16Code := fun v => by rw [u16Code, length_beBytes]; omega
  exact (reads_u16.counted hnonempty).mono fun _ _ h => by simpa using h

theorem reads_namespace :
    Reads (fun n : PrivateNamespaceRecord => namespaceCode n.normalized) fact := by
  have h := (reads_texts.comp linkNames).append
    ((reads_texts.comp linkAliases).append
      ((reads_u32s.comp qdiscHandles).append
        ((reads_u32s.comp filterHandles).append
          ((reads_u16s.comp filterPriorities).append
            ((reads_records reads_identity).comp fun n : PrivateNamespaceRecord =>
              sortBy identityKey n.actionIdentities)))))
  refine (h.comp normalized).mono fun n n' hn => ?_
  simp only [id_eq, map_id, Prod.mk.injEq, normalized] at hn
  obtain ⟨hnames, haliases, hqdiscs, hfilters, hpriorities, hidentities⟩ := hn
  have hidentities' := (sortBy_eq_iff identityKey_injective).mp hidentities
  have hunsort : ∀ m : List PrivateActionIdentity,
      (sortBy identityKey m : Multiset PrivateActionIdentity) = m :=
    fun m => Multiset.coe_eq_coe.mpr (sortBy_perm identityKey m)
  rw [hunsort, hunsort] at hidentities'
  rw [fact, fact,
    (sortBy_eq_iff textKey_injective).mp hnames, (sortBy_eq_iff textKey_injective).mp haliases,
    (sortBy_eq_iff fun _ _ hx => UInt32.toNat_inj.mp hx).mp hqdiscs,
    (sortBy_eq_iff fun _ _ hx => UInt32.toNat_inj.mp hx).mp hfilters,
    (sortBy_eq_iff fun _ _ hx => UInt16.toNat_inj.mp hx).mp hpriorities, hidentities']

theorem facts_of_sorted {β κ : Type} [LinearOrder κ] {key : α → κ} {fact : α → β}
    (h : (sortBy key l).map fact = (sortBy key l').map fact) :
    ((l.map fact : List β) : Multiset β) = (l'.map fact : List β) := by
  have hperm : ∀ m : List α, ((sortBy key m).map fact).Perm (m.map fact) :=
    fun m => (sortBy_perm key m).map fact
  exact Multiset.coe_eq_coe.mpr ((hperm l).symm.trans (h ▸ hperm l'))

/-- **The code of a snapshot reads the encoded route and the facts.** -/
theorem reads_snapshot : Reads snapshotCode fun s => (encodedRoute s.route, s.fact) := by
  have hlink := (reads_u64.comp KernelTopologySnapshot.netnsCookie).append
    (reads_link.comp KernelTopologySnapshot.target)
  have h := (reads_const (sized canonicalDomain)).append
    ((reads_const (u16Code kernelTopologySchema)).append
      (((reads_record reads_route 1).comp KernelTopologySnapshot.route).append
        ((reads_record hlink 2).append
          (((reads_record reads_namespace 3).comp KernelTopologySnapshot.privateNamespace).append
            (((reads_collection reads_link 4).comp fun s : KernelTopologySnapshot =>
                sortBy linkKey s.privateLinks).append
              (((reads_collection reads_qdisc 5).comp fun s : KernelTopologySnapshot =>
                  sortBy qdiscKey s.rootQdiscs).append
                (((reads_collection reads_qdisc 6).comp fun s : KernelTopologySnapshot =>
                    sortBy qdiscKey s.ingressQdiscs).append
                  (((reads_collection reads_filter 7).comp fun s : KernelTopologySnapshot =>
                      sortBy filterKey s.ingressFilters).append
                    (((reads_collection reads_filter 8).comp fun s : KernelTopologySnapshot =>
                        sortBy filterKey s.egressFilters).append
                      ((reads_collection reads_identity 9).comp fun s : KernelTopologySnapshot =>
                        sortBy identityKey s.privateActions))))))))))
  refine h.mono fun s s' hs => ?_
  simp only [id_eq, map_id, Prod.mk.injEq, true_and] at hs
  obtain ⟨hroute, ⟨hcookie, htarget⟩, hnamespace, hlinks, hroot, hingress, hingressFilters,
    hegressFilters, hactions⟩ := hs
  rw [Prod.mk.injEq]
  refine ⟨hroute, ?_⟩
  rw [KernelTopologySnapshot.fact, KernelTopologySnapshot.fact, hcookie, htarget, hnamespace,
    (sortBy_eq_iff linkKey_injective).mp hlinks, facts_of_sorted hroot, facts_of_sorted hingress,
    facts_of_sorted hingressFilters, facts_of_sorted hegressFilters,
    (sortBy_eq_iff identityKey_injective).mp hactions]

/-- **The canonical bytes are the encoded route and the facts.** -/
theorem canonicalBytes_eq_iff {net : AddressText} {b b' : List UInt8}
    (h : s.canonicalBytes net = .ok b) (h' : s'.canonicalBytes net = .ok b') :
    b = b' ↔ encodedRoute s.route = encodedRoute s'.route ∧ s.fact = s'.fact := by
  obtain ⟨hvalid, hcode, hbound⟩ := canonicalBytes_ok h
  obtain ⟨hvalid', hcode', hbound'⟩ := canonicalBytes_ok h'
  have hmax : maxCanonicalBytes < wordBound := by decide
  constructor
  · intro heq
    have hsame : snapshotCode s ++ [] = snapshotCode s' ++ [] := by rw [← hcode, ← hcode', heq]
    have hread := reads_snapshot s s' [] [] (by rw [← hcode]; omega) (by rw [← hcode']; omega) hsame
    exact Prod.mk.inj hread.1
  · rintro ⟨hroute, hfact⟩
    rw [hcode, hcode']
    exact snapshotCode_congr (KernelTopologySnapshot.distinct_of_validate hvalid)
      (KernelTopologySnapshot.distinct_of_validate hvalid') hroute hfact

/-- The fields of a route that `encode_route` leaves out. -/
def unencodedRoute (r : OperationRouteIdentity) : Option Ipv4Addr × Option UInt32 × Option UInt32 :=
  (r.dnsServer, r.deviceIfindex, r.fwmarkMask)

theorem route_eq_iff {r r' : OperationRouteIdentity} :
    r = r' ↔ encodedRoute r = encodedRoute r' ∧ unencodedRoute r = unencodedRoute r' := by
  constructor
  · rintro rfl
    exact ⟨rfl, rfl⟩
  · rintro ⟨hencoded, hrest⟩
    simp only [encodedRoute, OperationRouteIdentity.mk.injEq] at hencoded
    simp only [unencodedRoute, Prod.mk.injEq] at hrest
    cases r
    cases r'
    simp_all

/-- **When the canonical bytes are as good as the topology.**  They are unless the routes differ in
the DNS server, the interface index or the mark mask and the snapshots in nothing else. -/
theorem witness_determines {net : AddressText} {s s' : KernelTopologySnapshot} {b b' : List UInt8}
    (h : s.canonicalBytes net = .ok b) (h' : s'.canonicalBytes net = .ok b') :
    (b = b' ↔ s.route = s'.route ∧ s.fact = s'.fact) ↔
      unencodedRoute s.route = unencodedRoute s'.route ∨
        encodedRoute s.route ≠ encodedRoute s'.route ∨ s.fact ≠ s'.fact := by
  have hroute : s.route = s'.route ↔ encodedRoute s.route = encodedRoute s'.route ∧
      unencodedRoute s.route = unencodedRoute s'.route := route_eq_iff
  rw [canonicalBytes_eq_iff h h', hroute]
  by_cases hencoded : encodedRoute s.route = encodedRoute s'.route
  · by_cases hfact : s.fact = s'.fact
    · simp [hencoded, hfact]
    · simp [hfact]
  · simp [hencoded]

/-- A snapshot whose route has a mask. -/
def maskedSnapshot (mask : UInt32) : KernelTopologySnapshot where
  netnsCookie := 1
  route :=
    { dnsServer := none, deviceIfindex := some 7, mode := .explicit, mwan3Member := none
      l3Device := ['w', 'a', 'n'], sourceIp := some (.v4 ⟨192, 0, 2, 2⟩), fwmark := some 256
      routingTable := some 100, fwmarkMask := some mask }
  target := ⟨7, ['w', 'a', 'n'], none, .absent, none⟩
  privateNamespace := ⟨[], [], [], [], [], []⟩
  privateLinks := []
  rootQdiscs := [⟨7, tcHRoot, 65536, ['c', 'a', 'k', 'e'], ⟨[⟨[1], false, [2]⟩]⟩⟩]
  ingressQdiscs := []
  ingressFilters := []
  egressFilters := []
  privateActions := []

theorem maskedSnapshot_encodes :
    ((maskedSnapshot 0x3f00).canonicalBytes addressText).toOption.isSome = true ∧
      ((maskedSnapshot 0x1f00).canonicalBytes addressText).toOption.isSome = true := by
  decide +kernel

theorem canonicalBytes_of_isSome (h : (s.canonicalBytes addressText).toOption.isSome = true) :
    ∃ b, s.canonicalBytes addressText = .ok b :=
  (Option.isSome_iff_exists.mp h).imp fun _ => ok_of_toOption

theorem witness_determines_masked :
    ∃ b b', (maskedSnapshot 0x3f00).canonicalBytes addressText = .ok b ∧
      (maskedSnapshot 0x1f00).canonicalBytes addressText = .ok b' ∧
      ((b = b' ↔ (maskedSnapshot 0x3f00).route = (maskedSnapshot 0x1f00).route ∧
          (maskedSnapshot 0x3f00).fact = (maskedSnapshot 0x1f00).fact) ↔
        unencodedRoute (maskedSnapshot 0x3f00).route =
            unencodedRoute (maskedSnapshot 0x1f00).route ∨
          encodedRoute (maskedSnapshot 0x3f00).route ≠ encodedRoute (maskedSnapshot 0x1f00).route ∨
            (maskedSnapshot 0x3f00).fact ≠ (maskedSnapshot 0x1f00).fact) := by
  obtain ⟨b, hb⟩ := canonicalBytes_of_isSome maskedSnapshot_encodes.1
  obtain ⟨b', hb'⟩ := canonicalBytes_of_isSome maskedSnapshot_encodes.2
  exact ⟨b, b', hb, hb', witness_determines hb hb'⟩

theorem witness_hides_mask :
    ∃ b b', (maskedSnapshot 0x3f00).canonicalBytes addressText = .ok b ∧
      (maskedSnapshot 0x1f00).canonicalBytes addressText = .ok b' ∧
      ¬(b = b' ↔ (maskedSnapshot 0x3f00).route = (maskedSnapshot 0x1f00).route ∧
        (maskedSnapshot 0x3f00).fact = (maskedSnapshot 0x1f00).fact) := by
  obtain ⟨b, hb⟩ := canonicalBytes_of_isSome maskedSnapshot_encodes.1
  obtain ⟨b', hb'⟩ := canonicalBytes_of_isSome maskedSnapshot_encodes.2
  have hsame : b = b' := (canonicalBytes_eq_iff hb hb').mpr ⟨by decide, rfl⟩
  refine ⟨b, b', hb, hb', fun hiff => ?_⟩
  exact absurd (hiff.mp hsame).1 (by decide)

end CakeAutorate.Topology
