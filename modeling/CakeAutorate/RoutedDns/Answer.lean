/-
# An accepted reply, and that no reply panics

The walk along the aliases stops at a name without one, where every name that can be reached from
the question but the last has no addresses.  So the list that `answer` gives has the addresses of
all the names that are reached, each once, in their order.  An index is only taken inside of a
record, and a record that is read fits in its packet.
-/

import CakeAutorate.RoutedDns.Reading

namespace CakeAutorate.RoutedDns

open Protocol Relation List

variable {ip : Ipv4Addr} {found : Found} {packet : Bytes}

theorem bits_inj {ip' : Ipv4Addr} (h : ip.bits = ip'.bits) : ip = ip' := by
  obtain ⟨a, b, c, d⟩ := ip
  obtain ⟨a', b', c', d'⟩ := ip'
  simp only [Ipv4Addr.bits] at h
  have hb := b.toNat_lt
  have hc := c.toNat_lt
  have hd := d.toNat_lt
  have hb' := b'.toNat_lt
  have hc' := c'.toNat_lt
  have hd' := d'.toNat_lt
  rw [Ipv4Addr.mk.injEq]
  refine ⟨UInt8.toNat_inj.mp ?_, UInt8.toNat_inj.mp ?_, UInt8.toNat_inj.mp ?_,
    UInt8.toNat_inj.mp ?_⟩ <;> omega

variable (ips : List Ipv4Addr)

theorem mem_dedup : ip ∈ dedup ips ↔ ip ∈ ips := by
  fun_induction dedup ips with
  | case1 => exact Iff.rfl
  | case2 => exact Iff.rfl
  | case3 next rest ih => simp [ih]
  | case4 head next rest hne ih => rw [mem_cons, ih, mem_cons (l := next :: rest)]

theorem length_dedup_le : (dedup ips).length ≤ ips.length := by
  fun_induction dedup ips with
  | case1 => exact le_rfl
  | case2 => exact le_rfl
  | case3 next rest ih => exact Nat.le_succ_of_le ih
  | case4 head next rest hne ih => exact Nat.succ_le_succ ih

/-- **What is sorted is strictly sorted** without its duplicates. -/
theorem dedup_sorted {ips : List Ipv4Addr} (h : ips.Pairwise fun a b => a.bits ≤ b.bits) :
    (dedup ips).Pairwise fun a b => a.bits < b.bits := by
  fun_induction dedup ips with
  | case1 => exact List.Pairwise.nil
  | case2 => exact pairwise_singleton _ _
  | case3 next rest ih => exact ih h.of_cons
  | case4 head next rest hne ih =>
    obtain ⟨hhead, htail⟩ := pairwise_cons.mp h
    refine pairwise_cons.mpr ⟨fun ip hip => ?_, ih htail⟩
    have hlt : head.bits < next.bits :=
      lt_of_le_of_ne (hhead next mem_cons_self) fun hkey => hne (bits_inj hkey)
    rcases mem_cons.mp ((mem_dedup _).mp hip) with rfl | hip
    · exact hlt
    · exact hlt.trans_le ((pairwise_cons.mp htail).1 ip hip)

theorem mem_normal {ips : List Ipv4Addr} : ip ∈ normal ips ↔ ip ∈ ips := by
  rw [normal, mem_dedup, mem_insertionSort]

theorem normal_sorted : (normal ips).Pairwise fun a b => a.bits < b.bits := by
  exact dedup_sorted (pairwise_insertionSort _ ips)

theorem length_normal_le : (normal ips).length ≤ ips.length := by
  have h := length_dedup_le (ips.insertionSort fun a b => a.bits ≤ b.bits)
  rwa [length_insertionSort] at h

theorem mem_addressesOf {owner : Bytes} :
    ip ∈ addressesOf found owner ↔ (owner, ip) ∈ found.addresses := by
  rw [addressesOf, mem_normal, mem_map]
  constructor
  · rintro ⟨⟨owner', ip'⟩, hmem, rfl⟩
    obtain ⟨hmem, howner⟩ := mem_filter.mp hmem
    rw [← of_decide_eq_true howner]
    exact hmem
  · intro hmem
    exact ⟨(owner, ip), mem_filter.mpr ⟨hmem, decide_eq_true rfl⟩, rfl⟩

def Found.Aliased (found : Found) (owner target : Bytes) : Prop := (owner, target) ∈ found.aliases

theorem mem_aliases {current owner target : Bytes} :
    ((owner, target) ∈ found.aliases.filter fun p => p.1 = current) ↔
      found.Aliased owner target ∧ owner = current := by
  rw [mem_filter]
  exact and_congr_right fun _ => decide_eq_true_iff

/-- **The walk** ends at a name that is reached, and no other name that is reached has an
address. -/
theorem walk_sound {bound : ℕ} {current : Bytes} {seen : List Bytes} {list : List Ipv4Addr}
    (h : walk found bound current seen = .ok list) :
    (list ≠ [] ∧ list.length ≤ 32) ∧ ∃ last, list = addressesOf found last ∧
      ReflTransGen found.Aliased current last ∧ ∀ owner, ReflTransGen found.Aliased current owner →
        owner = last ∨ ∀ ip, (owner, ip) ∉ found.addresses := by
  induction bound generalizing current seen with
  | zero => cases h
  | succ bound ih =>
    obtain ⟨_, _, h⟩ := bind_ok.mp h
    cases hfilter : found.aliases.filter fun p => p.1 = current with
    | nil =>
      rw [hfilter] at h
      dsimp only at h
      split at h
      · cases h
      · rename_i hbounds
        obtain ⟨hempty, hlong⟩ := not_or.mp hbounds
        cases h
        refine ⟨⟨fun hnil => hempty (by rw [hnil]; rfl), Nat.not_lt.mp hlong⟩, current, rfl,
          .refl, fun owner howner => ?_⟩
        rcases howner.cases_head with rfl | ⟨target, htarget, _⟩
        · exact .inl rfl
        · have hmem := mem_aliases.mpr ⟨htarget, rfl⟩
          rw [hfilter] at hmem
          cases hmem
    | cons p others =>
      obtain ⟨owner, target⟩ := p
      rw [hfilter] at h
      obtain ⟨_, hrequire, h⟩ := bind_ok.mp h
      have hfirst : (owner, target) ∈ found.aliases.filter fun p => p.1 = current := by
        rw [hfilter]
        exact mem_cons_self
      obtain ⟨hmem, rfl⟩ := mem_aliases.mp hfirst
      have hrequire := require_ok.mp hrequire
      rw [Bool.not_eq_true', Bool.or_eq_false_iff] at hrequire
      obtain ⟨hothers, haddresses⟩ := hrequire
      have hsame : ∀ target', found.Aliased owner target' → target' = target := by
        intro target' htarget'
        have hmem' := mem_aliases.mpr ⟨htarget', rfl⟩
        rw [hfilter] at hmem'
        rcases mem_cons.mp hmem' with heq | hother
        · exact (Prod.mk.inj heq).2
        · have hall := any_eq_false.mp hothers _ hother
          simpa using hall
      have hnone : ∀ ip, (owner, ip) ∉ found.addresses := by
        intro ip hip
        exact any_eq_false.mp haddresses _ hip (decide_eq_true rfl)
      obtain ⟨hbounds, last, hlist, hlast, hreached⟩ := ih h
      refine ⟨hbounds, last, hlist, hlast.head hmem, fun owner' howner' => ?_⟩
      rcases howner'.cases_head with rfl | ⟨target', htarget', hrest⟩
      · exact .inr hnone
      · rw [hsame target' htarget'] at hrest
        exact hreached owner' hrest

def Safe {α : Type} (x : Except Failure α) : Prop := x ≠ .error .panicked

theorem Safe.ok {α : Type} (a : α) : Safe (Except.ok a : Except Failure α) := by
  intro h
  cases h

theorem Safe.error {α : Type} (message : String) :
    Safe (Except.error (.error message) : Except Failure α) := by
  intro h
  cases h

theorem Safe.bind {α β : Type} {x : Except Failure α} {k : α → Except Failure β} (hx : Safe x)
    (hk : ∀ a, x = .ok a → Safe (k a)) : Safe (x >>= k) := by
  cases x with
  | ok a => exact hk a rfl
  | error failure =>
    intro h
    exact hx (congrArg Except.error (Except.error.inj h))

theorem require_safe (ok : Bool) : Safe (require ok) := by
  cases ok
  · exact .error _
  · exact .ok _

section

variable (packet : Bytes)

theorem word_safe (offset : ℕ) : Safe (word packet offset) := by
  unfold word
  split
  · exact .ok _
  · exact .error _

theorem byte_safe (at_ : ℕ) : Safe (byte packet at_) := by
  unfold byte
  split
  · exact .ok _
  · exact .error _

theorem slice_safe (start size : ℕ) : Safe (slice packet start size) :=
  (require_safe _).bind fun _ _ => Safe.ok _

theorem nameFrom_safe (bound at_ : ℕ) (jumped : Bool) (cursor : ℕ) (result : Bytes) :
    Safe (nameFrom packet bound at_ jumped cursor result) := by
  induction bound generalizing at_ jumped cursor result with
  | zero => exact .error _
  | succ bound ih =>
    refine (byte_safe packet at_).bind fun size _ => ?_
    split
    · refine (word_safe packet at_).bind fun w _ => ?_
      dsimp only
      split
      · exact .error _
      · exact ih _ _ _ _
    · split
      · split
        · exact .error _
        · refine (slice_safe packet _ _).bind fun label _ => ?_
          dsimp only
          split
          · exact .ok _
          · exact ih _ _ _ _
      · exact .error _

theorem name_safe (cursor : ℕ) : Safe (name packet cursor) :=
  nameFrom_safe packet 128 cursor false cursor []

theorem readRecord_safe (at_ : ℕ) : Safe (readRecord packet at_) := by
  refine (name_safe packet at_).bind fun p _ => ?_
  iterate 3 refine (word_safe packet _).bind fun _ _ => ?_
  exact (require_safe _).bind fun _ _ => Safe.ok _

end

theorem index_safe {at_ : ℕ} (h : at_ < packet.length) : Safe (index packet at_) := by
  unfold index
  rw [getElem?_eq_getElem h]
  exact .ok _

/-- **The four bytes of an address** are inside of the record. -/
theorem read_safe (found : Found) {r : Record} (hfits : r.start + r.length ≤ packet.length) :
    Safe (found.read packet r) := by
  unfold Found.read
  split
  · exact .ok _
  · split
    · refine (require_safe _).bind fun _ hrequire => ?_
      have hlength : r.length = 4 := of_decide_eq_true (require_ok.mp hrequire)
      iterate 4 refine (index_safe (by omega)).bind fun _ _ => ?_
      exact .ok _
    · split
      · refine (name_safe packet _).bind fun _ _ => ?_
        exact (require_safe _).bind fun _ _ => Safe.ok _
      · exact .ok _

theorem readRecords_safe (packet : Bytes) (answers total at_ : ℕ) (found : Found) :
    Safe (readRecords packet answers total at_ found) := by
  induction total generalizing answers at_ found with
  | zero => exact .ok _
  | succ total ih =>
    refine (readRecord_safe packet at_).bind fun p hp => ?_
    dsimp only
    split
    · exact (read_safe found (readRecord_sound hp).fits).bind fun _ _ => ih _ _ _
    · exact ih _ _ _

theorem walk_safe (found : Found) (bound : ℕ) (current : Bytes) (seen : List Bytes) :
    Safe (walk found bound current seen) := by
  induction bound generalizing current seen with
  | zero => exact .error _
  | succ bound ih =>
    refine (require_safe _).bind fun _ _ => ?_
    split
    · exact (require_safe _).bind fun _ _ => ih _ _
    · dsimp only
      split
      · exact .error _
      · exact .ok _

/-- **No packet and no request panic.** -/
theorem answer_safe (packet request : Bytes) : Safe (answer packet request) := by
  refine (require_safe _).bind fun _ _ => ?_
  refine (require_safe _).bind fun _ hlong => ?_
  have hlength : 17 ≤ request.length := of_decide_eq_true (require_ok.mp hlong)
  refine (word_safe _ _).bind fun _ _ => (word_safe _ _).bind fun _ _ => ?_
  iterate 3 refine (require_safe _).bind fun _ _ => (word_safe _ _).bind fun _ _ => ?_
  refine (word_safe _ _).bind fun _ _ => (word_safe _ _).bind fun _ _ => ?_
  refine (require_safe _).bind fun _ _ => (name_safe _ _).bind fun _ _ => ?_
  have hname : Safe (requestName request) := by
    unfold requestName
    rw [if_pos ⟨by omega, by omega⟩]
    exact .ok _
  refine hname.bind fun _ _ => (require_safe _).bind fun _ _ => ?_
  refine (readRecords_safe _ _ _ _ _).bind fun _ _ => ?_
  exact (require_safe _).bind fun _ _ => walk_safe _ _ _ _

def Reaches (packet : Bytes) (rs : List Record) : Bytes → Bytes → Prop :=
  ReflTransGen fun owner target => ∃ r ∈ rs, r.owner = owner ∧ AliasRecord packet r target

/-- The addresses of a reply to a request: its question is the one that was asked, its records
fill it, and the list has the addresses of its answer section whose owners are reached. -/
structure Answered (packet request : Bytes) (list : List Ipv4Addr) : Prop where
  sorted : list.Pairwise fun a b => a.bits < b.bits
  bounded : 1 ≤ list.length ∧ list.length ≤ 32
  exactly : ∃ question behind answers others, requestName request = .ok question ∧
    NameAt packet 12 question behind ∧ word packet 6 = .ok answers.length ∧
    RecordsAt packet (behind + 4) (answers ++ others) packet.length ∧
    ∀ ip, ip ∈ list ↔ ∃ r ∈ answers, AddressRecord packet r ip ∧
      Reaches packet answers question r.owner

/-- **What an accepted reply says.** -/
theorem answer_sound {request : Bytes} {list : List Ipv4Addr} (h : answer packet request = .ok list) :
    Answered packet request list := by
  iterate 9 obtain ⟨_, _, h⟩ := bind_ok.mp h
  obtain ⟨answers, hanswers, h⟩ := bind_ok.mp h
  obtain ⟨authorities, _, h⟩ := bind_ok.mp h
  obtain ⟨additional, _, h⟩ := bind_ok.mp h
  obtain ⟨_, _, h⟩ := bind_ok.mp h
  obtain ⟨⟨question, behind⟩, hname, h⟩ := bind_ok.mp h
  obtain ⟨asked, hasked, h⟩ := bind_ok.mp h
  obtain ⟨_, hquestion, h⟩ := bind_ok.mp h
  obtain ⟨⟨found, end_⟩, hrecords, h⟩ := bind_ok.mp h
  obtain ⟨_, hend, h⟩ := bind_ok.mp h
  have hsame : question = asked :=
    eq_of_beq (Bool.and_eq_true_iff.mp (require_ok.mp hquestion)).1
  have hend : end_ = packet.length := of_decide_eq_true (require_ok.mp hend)
  obtain ⟨rs, hlength, hrs, hfinds⟩ := readRecords_sound (finds_nil packet) hrecords
  obtain ⟨⟨hne, hle⟩, last, hlist, hlast, hreached⟩ := walk_sound h
  have hreaches : ReflTransGen found.Aliased = Reaches packet (rs.take answers) := by
    refine congrArg ReflTransGen (funext fun owner => funext fun target => propext ?_)
    exact hfinds.aliases owner target
  rw [hreaches] at hlast hreached
  refine ⟨?_, ⟨length_pos_iff.mpr hne, hle⟩, question, behind, rs.take answers,
    rs.drop answers, hsame ▸ hasked, name_sound hname, ?_, ?_, fun ip => ?_⟩
  · rw [hlist]
    exact normal_sorted _
  · rw [length_take, hanswers, Nat.min_eq_left (by omega)]
  · rw [take_append_drop, ← hend]
    exact hrs
  · rw [hlist, mem_addressesOf]
    constructor
    · intro hip
      obtain ⟨r, hr, howner, haddress⟩ := (hfinds.addresses last ip).mp hip
      rw [← howner] at hlast
      exact ⟨r, hr, haddress, hlast⟩
    · rintro ⟨r, hr, haddress, hreach⟩
      have hip := (hfinds.addresses r.owner ip).mpr ⟨r, hr, rfl, haddress⟩
      rcases hreached _ hreach with howner | hnone
      · rwa [howner] at hip
      · exact absurd hip (hnone ip)

end CakeAutorate.RoutedDns
