/-
# Receipts read back what was written

The versions and receipts that `Journal::prepare` writes are the ones that
`Journal::load` reads: `Version::parse` inverts `Version::json` on every file
that passed the guarded read, and an intent with its ready receipt parses to the
journal they were written from.
-/

import CakeAutorate.UciTransaction.Steps

namespace CakeAutorate.UciTransaction

open Syscall Syscall.Program Identity Json Journal PreparedConfig

variable {h : Host}

theorem matchesFile_self (f : Inode) (moved : Bool) :
    (Version.ofFile h f).matchesFile h f moved = true := by
  cases moved <;> simp [Version.ofFile, Version.matchesFile, Version.of, Version.matches]

variable {f : Inode} {c : PreparedConfig h} {a : Package → Inode}

theorem matchesFile_of_sameFile {g : Inode} (hfg : f.SameFile g) :
    (Version.ofFile h f).matchesFile h g true = true := by
  rw [← hfg]
  simp [Version.ofFile, Version.matchesFile, Version.of, Version.matches, of, Inode.touch]

theorem matchesFile_of_ino_ne {g : Inode} (hfg : f.ino ≠ g.ino) (moved : Bool) :
    (Version.ofFile h f).matchesFile h g moved = false := by
  cases moved <;>
    simp [Version.ofFile, Version.matchesFile, Version.of, Version.matches, of] <;>
    intro hi <;> exact absurd hi.symm hfg

theorem Identity.of_inj {g : Inode} (hi : of h f = of h g) (hb : f.bytes = g.bytes) : f = g := by
  rcases f with ⟨_, _, _, _, ⟨_, _, _⟩, ⟨_, _, _⟩, _⟩
  rcases g with ⟨_, _, _, _, ⟨_, _, _⟩, ⟨_, _, _⟩, _⟩
  simp only [of, mk.injEq, Int.natCast_inj] at hi
  simp_all

theorem sha256_plain (bytes : Bytes) : (h.sha256 bytes).all plainByte = true :=
  plain_of_hex (h.sha256_hex bytes)

theorem hash_sha256 (bytes : Bytes) : hash (.str (h.sha256 bytes)) = .ok (h.sha256 bytes) := by
  simp [hash, asStr, require, Option.filter, h.sha256_length, h.sha256_hex]

theorem not_refused (hf : Readable h false maxConfig f) : (of h f).refused h = false := by
  obtain ⟨hs, hl⟩ := hf
  simp only [safe, Bool.and_eq_true, beq_iff_eq, Bool.false_eq_true, if_false] at hs
  have hm := f.mtime.nsec_lt
  have hc := f.ctime.nsec_lt
  have hbound : ∀ n : ℕ, n < 1000000000 →
      (decide (0 ≤ (n : ℤ)) && decide ((n : ℤ) < 1000000000)) = true := by
    intro n hn
    rw [Bool.and_eq_true, decide_eq_true_iff, decide_eq_true_iff]
    omega
  have hlen : decide (f.bytes.length > maxConfig) = false := decide_eq_false (by omega)
  simp only [refused, of, hlen, hs.1.1, hs.1.2, hs.2, hbound _ hm, hbound _ hc,
    bne_self_eq_false, Bool.not_true, Bool.or_self]

theorem require_some {α : Type} (a : α) : require (some a) = .ok a := rfl

theorem ok_bind {α β : Type} (a : α) (f : α → Except String β) : (Except.ok a >>= f) = f a := rfl

theorem parse_json (hf : Readable h false maxConfig f) :
    Version.parse h (Version.ofFile h f).json = .ok (Version.ofFile h f) := by
  have hr : (Version.ofFile h f).identity.refused h = false := not_refused hf
  have hh : UciTransaction.hash (.str (Version.ofFile h f).sha256) =
      .ok (Version.ofFile h f).sha256 := hash_sha256 _
  generalize Version.ofFile h f = v at hr hh
  have h₁ : v.json.get "dev" = .num v.identity.dev := rfl
  have h₂ : v.json.get "ino" = .num v.identity.ino := rfl
  have h₃ : v.json.get "len" = .num v.identity.len := rfl
  have h₄ : v.json.get "uid" = .num v.identity.uid := rfl
  have h₅ : v.json.get "gid" = .num v.identity.gid := rfl
  have h₆ : v.json.get "mode" = .num v.identity.mode := rfl
  have h₇ : v.json.get "mtime" = .num v.identity.mtime := rfl
  have h₈ : v.json.get "mtime_ns" = .num v.identity.mtimeNs := rfl
  have h₉ : v.json.get "ctime" = .num v.identity.ctime := rfl
  have h₁₀ : v.json.get "ctime_ns" = .num v.identity.ctimeNs := rfl
  have h₁₁ : v.json.get "sha256" = .str v.sha256 := rfl
  simp only [Version.parse, h₁, h₂, h₃, h₄, h₅, h₆, h₇, h₈, h₉, h₁₀, h₁₁, asU64_num,
    asI64_num, require_some, ok_bind, hr, hh]
  rfl

theorem plain_json (f : Inode) : ((Version.ofFile h f).json).plain = true := by
  simp only [Version.json, plain, plainFields, Bool.and_eq_true, Version.ofFile,
    Version.of, sha256_plain, and_true]
  decide

theorem parseReceipt_bytes {v : Json} (hv : v.plain = true)
    (hs : (v.get "schema").asU64 = some 1) : parseReceipt h (receiptBytes h v) = .ok v := by
  simp [parseReceipt, receiptBytes, h.serde.fromSlice_toVec v hv, hs]

def PreparedConfig.changed (c : PreparedConfig h) (i : Package) : Bool :=
  c.candidate i != (c.original i).bytes

theorem PreparedConfig.readable (c : PreparedConfig h) (i : Package) :
    Readable h false maxConfig (c.original i) :=
  ⟨c.original_safe i, c.original_len i⟩

/-- The files that a finished preparation means to make public: the staged swap
of a changed package, the original of an unchanged one. -/
structure Staged (c : PreparedConfig h) (a : Package → Inode) : Prop where
  bytes : ∀ i, (a i).bytes = c.candidate i
  uid : ∀ i, (a i).uid = (c.original i).uid
  gid : ∀ i, (a i).gid = (c.original i).gid
  mode : ∀ i, (a i).mode = (c.original i).mode
  unchanged : ∀ i, c.changed i = false → a i = c.original i
  ino : ∀ i, c.changed i = true → (a i).ino ≠ (c.original i).ino

theorem Staged.readable (ha : Staged c a) (i : Package) : Readable h false maxConfig (a i) := by
  refine ⟨?_, by rw [ha.bytes]; exact c.candidate_len i⟩
  have := c.original_safe i
  simp only [safe] at this ⊢
  rw [ha.mode, ha.uid]
  exact this

def PreparedConfig.intent (c : PreparedConfig h) : Json :=
  intentJson h (fun i => Version.ofFile h (c.original i)) c.changed c.candidate

def readyOf (h : Host) (a : Package → Inode) : Json := readyJson fun i => Version.ofFile h (a i)

def PreparedConfig.journal (c : PreparedConfig h) (a : Package → Inode) : Journal :=
  ⟨fun i => Version.ofFile h (c.original i), fun i => Version.ofFile h (a i), c.changed⟩

theorem intent_plain (c : PreparedConfig h) : c.intent.plain = true := by
  simp only [intent, intentJson, plain, plainFields, plainItems,
    Bool.and_eq_true, plain_json, sha256_plain, and_true]
  decide

theorem readyOf_plain (a : Package → Inode) : (readyOf h a).plain = true := by
  simp only [readyOf, readyJson, plain, plainFields, plainItems, Bool.and_eq_true,
    plain_json, and_true]
  decide

theorem parseReceipt_intent (c : PreparedConfig h) :
    parseReceipt h (receiptBytes h c.intent) = .ok c.intent :=
  parseReceipt_bytes (intent_plain c) rfl

theorem parseReceipt_readyOf (a : Package → Inode) :
    parseReceipt h (receiptBytes h (readyOf h a)) = .ok (readyOf h a) :=
  parseReceipt_bytes (readyOf_plain a) rfl

def PreparedConfig.entry (c : PreparedConfig h) (i : Package) : Json :=
  .obj [("after_len", .num (c.candidate i).length),
    ("after_sha256", .str (h.sha256 (c.candidate i))),
    ("before", (Version.ofFile h (c.original i)).json), ("changed", .bool (c.changed i)),
    ("name", .str i.name)]

theorem pairOf_entries (c : PreparedConfig h) :
    pairOf (c.intent.get "entries") = .ok (c.entry .cakeAutorate, c.entry .sqm) := rfl

/-- Each entry passes the checks of `Journal::load`. -/
theorem loadEntry_entry (ha : Staged c a) (i : Package) :
    loadEntry (c.entry i) i (Version.ofFile h (c.original i)) (Version.ofFile h (a i)) =
      .ok (c.changed i) := by
  have h₁ : (c.entry i).get "changed" = .bool (c.changed i) := rfl
  have h₂ : (c.entry i).get "name" = .str i.name := rfl
  have h₃ : (c.entry i).get "after_sha256" = .str (h.sha256 (c.candidate i)) := rfl
  have h₄ : (c.entry i).get "after_len" = .num (c.candidate i).length := rfl
  have hs : (Version.ofFile h (a i)).sha256 = h.sha256 (c.candidate i) := by
    rw [← ha.bytes]; rfl
  have hl : (Version.ofFile h (a i)).identity.len = (c.candidate i).length := by
    rw [← ha.bytes]; rfl
  have hu : (Version.ofFile h (a i)).identity.uid = (Version.ofFile h (c.original i)).identity.uid :=
    ha.uid i
  have hg : (Version.ofFile h (a i)).identity.gid = (Version.ofFile h (c.original i)).identity.gid :=
    ha.gid i
  have hm : (Version.ofFile h (a i)).identity.mode =
      (Version.ofFile h (c.original i)).identity.mode := ha.mode i
  have hsame : (!c.changed i && ((Version.ofFile h (c.original i)).identity !=
      (Version.ofFile h (a i)).identity || (Version.ofFile h (c.original i)).sha256 !=
      (Version.ofFile h (a i)).sha256)) = false := by
    cases hc : c.changed i with
    | true => rfl
    | false => simp [ha.unchanged i hc]
  simp only [loadEntry, h₁, h₂, h₃, h₄, asBool, asStr, asU64_num,
    require_some, ok_bind, hash_sha256, hu, hg, hm, hsame]
  simp [hs, hl]
  rfl

/-- **A journal as written is read back.** -/
theorem parse_journal (ha : Staged c a) : parse h c.intent (readyOf h a) = .ok (c.journal a) := by
  have hpair : pairOf ((readyOf h a).get "after") =
      .ok ((Version.ofFile h (a .cakeAutorate)).json, (Version.ofFile h (a .sqm)).json) := rfl
  have hbefore : ∀ i, (c.entry i).get "before" = (Version.ofFile h (c.original i)).json :=
    fun _ => rfl
  simp only [parse, pairOf_entries, hpair, ok_bind, hbefore, parse_json (c.readable _),
    parse_json (ha.readable _), loadEntry_entry ha]
  congr 2 <;> funext i <;> cases i <;> rfl

end CakeAutorate.UciTransaction
