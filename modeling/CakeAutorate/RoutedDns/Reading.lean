/-
# What a reply says

The names and records of a packet, as the wire format gives them: a name is its labels, in lower
case, up to the empty one, where a pointer stands for the name at an earlier offset.  What the codec
reads is such a name or record, and a packet has one at an offset at most.
-/

import CakeAutorate.RoutedDns.Codec
import Mathlib.Logic.Relation

namespace CakeAutorate.RoutedDns

open Protocol Except List Option

/-- A name at an offset, and the offset behind it. -/
inductive NameAt (packet : Bytes) : ℕ → Bytes → ℕ → Prop
  | root {at_ : ℕ} (hsize : packet[at_]? = some 0) : NameAt packet at_ [0] (at_ + 1)
  | label {at_ next : ℕ} {size : UInt8} {rest : Bytes} (hsize : packet[at_]? = some size)
      (hne : size ≠ 0) (hle : size ≤ 63) (hfits : at_ + 1 + size.toNat ≤ packet.length)
      (hrest : NameAt packet (at_ + 1 + size.toNat) rest next) :
      NameAt packet at_ (size :: ((packet.drop (at_ + 1)).take size.toNat).map lower ++ rest) next
  | pointer {at_ w next : ℕ} {size : UInt8} {rest : Bytes} (hsize : packet[at_]? = some size)
      (hpointer : size &&& 0xc0 = 0xc0) (hw : word packet at_ = .ok w)
      (hlow : 12 ≤ pointerTarget w) (hback : pointerTarget w < at_)
      (hrest : NameAt packet (pointerTarget w) rest next) : NameAt packet at_ rest (at_ + 2)

/-- A record at an offset, and the offset behind it. -/
structure RecordAt (packet : Bytes) (at_ : ℕ) (r : Record) (next : ℕ) : Prop where
  fields : ∃ behind, NameAt packet at_ r.owner behind ∧ word packet behind = .ok r.kind ∧
    word packet (behind + 2) = .ok r.class_ ∧ word packet (behind + 8) = .ok r.length ∧
    r.start = behind + 10
  next : next = r.start + r.length
  fits : r.start + r.length ≤ packet.length

/-- Records one behind the other. -/
inductive RecordsAt (packet : Bytes) : ℕ → List Record → ℕ → Prop
  | nil (at_ : ℕ) : RecordsAt packet at_ [] at_
  | cons {at_ next end_ : ℕ} {r : Record} {rs : List Record} (hr : RecordAt packet at_ r next)
      (hrs : RecordsAt packet next rs end_) : RecordsAt packet at_ (r :: rs) end_

/-- A record of class IN that gives an address. -/
structure AddressRecord (packet : Bytes) (r : Record) (ip : Ipv4Addr) : Prop where
  class_ : r.class_ = 1
  kind : r.kind = 1
  length : r.length = 4
  data : (packet.drop r.start).take 4 = [ip.a, ip.b, ip.c, ip.d]

/-- A record of class IN that gives another name. -/
structure AliasRecord (packet : Bytes) (r : Record) (target : Bytes) : Prop where
  class_ : r.class_ = 1
  kind : r.kind = 5
  data : NameAt packet r.start target (r.start + r.length)

variable {packet expanded : Bytes} {at_ : ℕ} {r : Record} {rs : List Record}

theorem byte_ok {b : UInt8} : byte packet at_ = .ok b ↔ packet[at_]? = some b := by
  unfold byte
  cases packet[at_]? <;> simp

theorem slice_ok {start size : ℕ} {bytes : Bytes} :
    slice packet start size = .ok bytes ↔
      start + size ≤ packet.length ∧ bytes = (packet.drop start).take size := by
  unfold slice
  rw [bind_ok]
  constructor
  · rintro ⟨_, hrequire, h⟩
    exact ⟨of_decide_eq_true (require_ok.mp hrequire), (ok.inj h).symm⟩
  · rintro ⟨hfits, rfl⟩
    exact ⟨(), require_ok.mpr (decide_eq_true hfits), rfl⟩

theorem pointer_not_small : ∀ b : UInt8, b ≤ 63 → b &&& 0xc0 ≠ 0xc0 :=
  Wire.forall_byte (by decide +kernel)

/-- **A name that is read** is the one in the packet. -/
theorem nameFrom_sound {bound cursor next : ℕ} {jumped : Bool} {result : Bytes}
    (h : nameFrom packet bound at_ jumped cursor result = .ok (expanded, next)) :
    ∃ rest behind, NameAt packet at_ rest behind ∧ expanded = result ++ rest ∧
      next = if jumped then cursor else behind := by
  induction bound generalizing at_ jumped cursor result with
  | zero => cases h
  | succ bound ih =>
    obtain ⟨size, hbyte, h⟩ := bind_ok.mp h
    have hsize := byte_ok.mp hbyte
    by_cases hpointer : size &&& 0xc0 = 0xc0
    · rw [if_pos hpointer] at h
      obtain ⟨w, hw, h⟩ := bind_ok.mp h
      by_cases htarget : pointerTarget w < 12 ∨ at_ ≤ pointerTarget w
      · rw [if_pos htarget] at h
        cases h
      · rw [if_neg htarget] at h
        obtain ⟨hlow, hback⟩ := not_or.mp htarget
        obtain ⟨rest, behind, hname, hexpanded, hnext⟩ := ih h
        refine ⟨rest, at_ + 2, .pointer hsize hpointer hw (Nat.not_lt.mp hlow)
          (Nat.not_le.mp hback) hname, hexpanded, ?_⟩
        rw [hnext, if_pos rfl]
    · rw [if_neg hpointer] at h
      by_cases hle : size ≤ 63
      · rw [if_pos hle] at h
        by_cases hlong : result.length + size.toNat + 1 > 255
        · rw [if_pos hlong] at h
          cases h
        · rw [if_neg hlong] at h
          obtain ⟨label, hlabel, h⟩ := bind_ok.mp h
          obtain ⟨hfits, rfl⟩ := slice_ok.mp hlabel
          by_cases hzero : size = 0
          · rw [if_pos hzero] at h
            obtain ⟨rfl, rfl⟩ := Prod.mk.inj (ok.inj h)
            subst hzero
            exact ⟨[0], at_ + 1, .root hsize, rfl, rfl⟩
          · rw [if_neg hzero] at h
            obtain ⟨rest, behind, hname, hexpanded, hnext⟩ := ih h
            refine ⟨_, behind, .label hsize hzero hle hfits hname, ?_, ?_⟩
            · rw [hexpanded, append_assoc]
            · rw [hnext]
              cases jumped <;> rfl
      · rw [if_neg hle] at h
        cases h

theorem name_sound {cursor next : ℕ} (h : name packet cursor = .ok (expanded, next)) :
    NameAt packet cursor expanded next := by
  obtain ⟨rest, behind, hname, rfl, rfl⟩ := nameFrom_sound h
  exact hname

/-- **There is one name** at an offset. -/
theorem NameAt.unique {next next' : ℕ} {expanded' : Bytes} (h : NameAt packet at_ expanded next)
    (h' : NameAt packet at_ expanded' next') : expanded = expanded' ∧ next = next' := by
  induction h generalizing expanded' next' with
  | root hsize =>
    cases h' with
    | root => exact ⟨rfl, rfl⟩
    | label hsize' hne => exact absurd (some.inj (hsize'.symm.trans hsize)) hne
    | pointer hsize' hpointer =>
      rw [some.inj (hsize'.symm.trans hsize)] at hpointer
      exact absurd hpointer (by decide)
  | label hsize hne hle hfits _ ih =>
    cases h' with
    | root hsize' => exact absurd (some.inj (hsize.symm.trans hsize')) hne
    | label hsize' _ _ _ hrest' =>
      cases hsize.symm.trans hsize'
      obtain ⟨rfl, rfl⟩ := ih hrest'
      exact ⟨rfl, rfl⟩
    | pointer hsize' hpointer =>
      rw [some.inj (hsize'.symm.trans hsize)] at hpointer
      exact absurd hpointer (pointer_not_small _ hle)
  | pointer hsize hpointer hw _ _ _ ih =>
    cases h' with
    | root hsize' =>
      rw [some.inj (hsize.symm.trans hsize')] at hpointer
      exact absurd hpointer (by decide)
    | label hsize' _ hle =>
      rw [some.inj (hsize.symm.trans hsize')] at hpointer
      exact absurd hpointer (pointer_not_small _ hle)
    | pointer _ _ hw' _ _ hrest' =>
      cases hw.symm.trans hw'
      exact ⟨(ih hrest').1, rfl⟩

theorem readRecord_sound {next : ℕ} (h : readRecord packet at_ = .ok (r, next)) :
    RecordAt packet at_ r next := by
  obtain ⟨⟨owner, behind⟩, hname, h⟩ := bind_ok.mp h
  obtain ⟨kind, hkind, h⟩ := bind_ok.mp h
  obtain ⟨class_, hclass, h⟩ := bind_ok.mp h
  obtain ⟨length, hlength, h⟩ := bind_ok.mp h
  obtain ⟨_, hfits, h⟩ := bind_ok.mp h
  obtain ⟨rfl, rfl⟩ := Prod.mk.inj (ok.inj h)
  exact ⟨⟨behind, name_sound hname, hkind, hclass, hlength, rfl⟩, rfl,
    of_decide_eq_true (require_ok.mp hfits)⟩

theorem index_ok {b : UInt8} : index packet at_ = .ok b ↔ packet[at_]? = some b := by
  unfold index
  cases packet[at_]? <;> simp

theorem take_four {a b c d : UInt8} :
    (packet.drop at_).take 4 = [a, b, c, d] ↔ packet[at_]? = some a ∧ packet[at_ + 1]? = some b ∧
      packet[at_ + 2]? = some c ∧ packet[at_ + 3]? = some d := by
  have hget : ∀ i, packet[at_ + i]? = (packet.drop at_)[i]? := fun i => by rw [getElem?_drop]
  rw [hget 1, hget 2, hget 3, show packet[at_]? = (packet.drop at_)[0]? from hget 0]
  generalize packet.drop at_ = rest
  rcases rest with _ | ⟨a', _ | ⟨b', _ | ⟨c', _ | ⟨d', rest⟩⟩⟩⟩ <;> simp

/-- What the addresses and aliases of some records are. -/
structure Finds (packet : Bytes) (rs : List Record) (found : Found) : Prop where
  addresses : ∀ owner ip, (owner, ip) ∈ found.addresses ↔
    ∃ r ∈ rs, r.owner = owner ∧ AddressRecord packet r ip
  aliases : ∀ owner target, (owner, target) ∈ found.aliases ↔
    ∃ r ∈ rs, r.owner = owner ∧ AliasRecord packet r target

theorem finds_nil (packet : Bytes) : Finds packet [] {} where
  addresses := by simp
  aliases := by simp

theorem Finds.other {found : Found} (h : Finds packet rs found)
    (hip : ∀ ip, ¬AddressRecord packet r ip) (htarget : ∀ target, ¬AliasRecord packet r target) :
    Finds packet (rs ++ [r]) found where
  addresses owner ip := by
    rw [h.addresses]
    simp [or_and_right, exists_or, hip]
  aliases owner target := by
    rw [h.aliases]
    simp [or_and_right, exists_or, htarget]

/-- **What a record adds.** -/
theorem Finds.read {found found' : Found} (h : Finds packet rs found)
    (hread : found.read packet r = .ok found') : Finds packet (rs ++ [r]) found' := by
  unfold Found.read at hread
  by_cases hclass : r.class_ ≠ 1
  · rw [if_pos hclass] at hread
    rw [← ok.inj hread]
    exact h.other (fun _ hr => hclass hr.class_) fun _ hr => hclass hr.class_
  · rw [if_neg hclass] at hread
    rw [ne_eq, not_not] at hclass
    by_cases hkind : r.kind = 1
    · rw [if_pos hkind] at hread
      obtain ⟨_, hlength, hread⟩ := bind_ok.mp hread
      obtain ⟨a, ha, hread⟩ := bind_ok.mp hread
      obtain ⟨b, hb, hread⟩ := bind_ok.mp hread
      obtain ⟨c, hc, hread⟩ := bind_ok.mp hread
      obtain ⟨d, hd, hread⟩ := bind_ok.mp hread
      have hdata : (packet.drop r.start).take 4 = [a, b, c, d] :=
        take_four.mpr ⟨index_ok.mp ha, index_ok.mp hb, index_ok.mp hc, index_ok.mp hd⟩
      have hrecord : ∀ ip, AddressRecord packet r ip ↔ ip = ⟨a, b, c, d⟩ := by
        intro ip
        constructor
        · intro hr
          have hsame := hr.data.symm.trans hdata
          cases ip
          simpa using hsame
        · rintro rfl
          exact ⟨hclass, hkind, of_decide_eq_true (require_ok.mp hlength), hdata⟩
      have halias : ∀ target, ¬AliasRecord packet r target := fun _ hr =>
        absurd (hkind.symm.trans hr.kind) (by decide)
      rw [← ok.inj hread]
      constructor
      · intro owner ip
        rw [mem_append, h.addresses]
        simp [or_and_right, exists_or, hrecord, eq_comm]
      · intro owner target
        rw [h.aliases]
        simp [or_and_right, exists_or, halias]
    · rw [if_neg hkind] at hread
      by_cases hkind' : r.kind = 5
      · rw [if_pos hkind'] at hread
        obtain ⟨⟨target, cursor⟩, hname, hread⟩ := bind_ok.mp hread
        obtain ⟨_, hcursor, hread⟩ := bind_ok.mp hread
        have hdata := name_sound hname
        rw [of_decide_eq_true (require_ok.mp hcursor)] at hdata
        have hrecord : ∀ target', AliasRecord packet r target' ↔ target' = target := by
          intro target'
          constructor
          · intro hr
            exact (hr.data.unique hdata).1
          · rintro rfl
            exact ⟨hclass, hkind', hdata⟩
        have haddress : ∀ ip, ¬AddressRecord packet r ip := fun _ hr => hkind hr.kind
        rw [← ok.inj hread]
        constructor
        · intro owner ip
          rw [h.addresses]
          simp [or_and_right, exists_or, haddress]
        · intro owner target'
          rw [mem_append, h.aliases]
          simp [or_and_right, exists_or, hrecord, eq_comm]
      · rw [if_neg hkind'] at hread
        rw [← ok.inj hread]
        exact h.other (fun _ hr => hkind hr.kind) fun _ hr => hkind' hr.kind

/-- **The records that are read** are those of the packet, and what is found is what those of the
answer section give. -/
theorem readRecords_sound {answers total end_ : ℕ} {before : List Record} {found found' : Found}
    (hfound : Finds packet before found)
    (h : readRecords packet answers total at_ found = .ok (found', end_)) :
    ∃ rs, rs.length = total ∧ RecordsAt packet at_ rs end_ ∧
      Finds packet (before ++ rs.take answers) found' := by
  induction total generalizing answers at_ before found with
  | zero =>
    obtain ⟨rfl, rfl⟩ := Prod.mk.inj (ok.inj h)
    refine ⟨[], rfl, .nil _, ?_⟩
    rw [take_nil, append_nil]
    exact hfound
  | succ total ih =>
    obtain ⟨⟨r, next⟩, hrecord, h⟩ := bind_ok.mp h
    dsimp only at h
    have hr := readRecord_sound hrecord
    cases answers with
    | zero =>
      obtain ⟨rs, hlength, hrs, hfinds⟩ := ih hfound h
      exact ⟨r :: rs, congrArg Nat.succ hlength, .cons hr hrs, hfinds⟩
    | succ answers =>
      obtain ⟨mid, hmid, h⟩ := bind_ok.mp h
      obtain ⟨rs, hlength, hrs, hfinds⟩ := ih (hfound.read hmid) h
      refine ⟨r :: rs, congrArg Nat.succ hlength, .cons hr hrs, ?_⟩
      rw [append_assoc, singleton_append] at hfinds
      exact hfinds

end CakeAutorate.RoutedDns
