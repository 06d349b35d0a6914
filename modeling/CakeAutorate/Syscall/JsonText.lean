/-
# Compact JSON text

A codec for `Json`: the text without blanks that `serde_json::to_vec` writes,
and a reader of such text.  Strings are written as they are, so the round trip
holds for the values whose strings need no escape.
-/

import CakeAutorate.Syscall.Json
import Mathlib.Algebra.GroupWithZero.Nat

namespace CakeAutorate.Syscall
open List Nat

namespace Json

def charOf (b : UInt8) : Char := Char.ofNat b.toNat

def byteOf (c : Char) : UInt8 := UInt8.ofNat c.toNat

theorem toNat_charOf (b : UInt8) : (charOf b).toNat = b.toNat := by
  have hb := b.toNat_lt
  have hv : b.toNat.isValidChar := by
    left
    omega
  unfold charOf Char.ofNat
  rw [dif_pos hv]
  rfl

theorem byteOf_charOf (b : UInt8) : byteOf (charOf b) = b := by
  simp [byteOf, toNat_charOf]

theorem charOf_byteOf {c : Char} (hc : c.toNat < 256) : charOf (byteOf c) = c := by
  simp [charOf, byteOf, mod_eq_of_lt hc]

def number (n : ℤ) : List Char :=
  if n < 0 then '-' :: toDigits 10 n.natAbs else toDigits 10 n.natAbs

def quoted (s : List Char) : List Char := '"' :: (s ++ ['"'])

mutual

def text : Json → List Char
  | .null => ['n', 'u', 'l', 'l']
  | .bool true => ['t', 'r', 'u', 'e']
  | .bool false => ['f', 'a', 'l', 's', 'e']
  | .num n => number n
  | .str s => quoted (s.map charOf)
  | .arr [] => ['[', ']']
  | .arr (v :: vs) => '[' :: (text v ++ textItems vs)
  | .obj [] => ['{', '}']
  | .obj ((k, v) :: fs) => '{' :: (quoted k.toList ++ ':' :: (text v ++ textFields fs))

def textItems : List Json → List Char
  | [] => [']']
  | v :: vs => ',' :: (text v ++ textItems vs)

def textFields : List (String × Json) → List Char
  | [] => ['}']
  | (k, v) :: fs => ',' :: (quoted k.toList ++ ':' :: (text v ++ textFields fs))

end

def readDigits (cs : List Char) : Option (ℕ × List Char) :=
  match cs.span Char.isDigit with
  | ([], _) => none
  | (ds, rest) => some (ofDigitChars 10 ds 0, rest)

def readString (cs : List Char) : Option (List Char × List Char) :=
  match cs.span (· ≠ '"') with
  | (s, '"' :: rest) => some (s, rest)
  | _ => none

mutual

def readValue : ℕ → List Char → Option (Json × List Char)
  | 0, _ => none
  | _ + 1, 'n' :: 'u' :: 'l' :: 'l' :: rest => some (.null, rest)
  | _ + 1, 't' :: 'r' :: 'u' :: 'e' :: rest => some (.bool true, rest)
  | _ + 1, 'f' :: 'a' :: 'l' :: 's' :: 'e' :: rest => some (.bool false, rest)
  | _ + 1, '"' :: rest => do
    let (s, rest) ← readString rest
    return (.str (s.map byteOf), rest)
  | _ + 1, '[' :: ']' :: rest => some (.arr [], rest)
  | n + 1, '[' :: rest => do
    let (v, rest) ← readValue n rest
    let (vs, rest) ← readItems n rest
    return (.arr (v :: vs), rest)
  | _ + 1, '{' :: '}' :: rest => some (.obj [], rest)
  | n + 1, '{' :: '"' :: rest => do
    let (k, rest) ← readString rest
    let (v, rest) ← readMember n rest
    let (fs, rest) ← readFields n rest
    return (.obj ((String.ofList k, v) :: fs), rest)
  | _ + 1, '-' :: rest => do
    let (n, rest) ← readDigits rest
    return (.num (-n), rest)
  | _ + 1, cs => do
    let (n, rest) ← readDigits cs
    return (.num n, rest)

def readMember : ℕ → List Char → Option (Json × List Char)
  | n + 1, ':' :: rest => readValue n rest
  | _, _ => none

def readItems : ℕ → List Char → Option (List Json × List Char)
  | _ + 1, ']' :: rest => some ([], rest)
  | n + 1, ',' :: rest => do
    let (v, rest) ← readValue n rest
    let (vs, rest) ← readItems n rest
    return (v :: vs, rest)
  | _, _ => none

def readFields : ℕ → List Char → Option (List (String × Json) × List Char)
  | _ + 1, '}' :: rest => some ([], rest)
  | n + 1, ',' :: '"' :: rest => do
    let (k, rest) ← readString rest
    let (v, rest) ← readMember n rest
    let (fs, rest) ← readFields n rest
    return ((String.ofList k, v) :: fs, rest)
  | _, _ => none

end

def Ends (rest : List Char) : Prop := ∀ c ∈ rest.head?, c.isDigit = false

theorem span_append {p : Char → Bool} {ds rest : List Char} (hd : ∀ c ∈ ds, p c = true)
    (hr : ∀ c ∈ rest.head?, p c = false) : (ds ++ rest).span p = (ds, rest) := by
  rw [span_eq_takeWhile_dropWhile]
  have h₁ : rest.takeWhile p = [] := by
    cases rest with
    | nil => rfl
    | cons c cs => simp [hr c (by simp)]
  have h₂ : rest.dropWhile p = rest := by
    cases rest with
    | nil => rfl
    | cons c cs => simp [hr c (by simp)]
  rw [takeWhile_append_of_pos hd, dropWhile_append_of_pos hd, h₁, h₂, append_nil]

theorem readDigits_toDigits (n : ℕ) {rest : List Char} (hr : Ends rest) :
    readDigits (toDigits 10 n ++ rest) = some (n, rest) := by
  have hd : ∀ c ∈ toDigits 10 n, c.isDigit = true :=
    fun c hc => isDigit_of_mem_toDigits (by decide) (by decide) hc
  unfold readDigits
  rw [span_append hd hr]
  cases hcs : toDigits 10 n with
  | nil => exact absurd hcs toDigits_ne_nil
  | cons d ds => simp [← hcs, ofDigitChars_ten_toDigits]

theorem charOf_ne_quote {b : UInt8} (hb : plainByte b = true) : charOf b ≠ '"' := by
  intro h
  have : b.toNat = 0x22 := by
    rw [← toNat_charOf, h]
    rfl
  have hb' : b = 0x22 := UInt8.toNat_inj.1 this
  subst hb'
  revert hb
  decide

variable {s : List Char}

theorem readString_append (hs : ∀ c ∈ s, c ≠ '"') (rest : List Char) :
    readString (s ++ '"' :: rest) = some (s, rest) := by
  unfold readString
  rw [span_append (fun c hc => by simpa using hs c hc) (by simp)]
  rfl

theorem ne_quote_of_plain {s : Bytes} (hs : s.all plainByte = true) :
    ∀ c ∈ s.map charOf, c ≠ '"' := by
  intro c hc
  obtain ⟨b, hb, rfl⟩ := mem_map.1 hc
  exact charOf_ne_quote (all_eq_true.1 hs b hb)

theorem ne_quote_of_plainKey {k : String} (hk : k.toList.all plainChar = true) :
    ∀ c ∈ k.toList, c ≠ '"' := by
  intro c hc
  have := all_eq_true.1 hk c hc
  simp only [plainChar, Bool.and_eq_true, bne_iff_ne] at this
  exact this.1.2

theorem map_byteOf_charOf (s : Bytes) : (s.map charOf).map byteOf = s := by
  simp [map_map, Function.comp_def, byteOf_charOf]

theorem text_head (v : Json) : ∃ c cs, text v = c :: cs ∧ c ≠ ']' := by
  match v with
  | .null => exact ⟨_, _, rfl, by decide⟩
  | .bool true => exact ⟨_, _, rfl, by decide⟩
  | .bool false => exact ⟨_, _, rfl, by decide⟩
  | .str s => exact ⟨_, _, rfl, by decide⟩
  | .arr [] => exact ⟨_, _, rfl, by decide⟩
  | .arr (v :: vs) => exact ⟨_, _, rfl, by decide⟩
  | .obj [] => exact ⟨_, _, rfl, by decide⟩
  | .obj (f :: fs) => exact ⟨_, _, rfl, by decide⟩
  | .num n =>
    by_cases hn : n < 0
    · exact ⟨'-', _, by simp only [text, number, hn, if_true]; rfl, by decide⟩
    · cases hcs : toDigits 10 n.natAbs with
      | nil => exact absurd hcs toDigits_ne_nil
      | cons d ds =>
        refine ⟨d, ds, by simp only [text, number, hn, if_false, hcs], ?_⟩
        rintro rfl
        have := isDigit_of_mem_toDigits (c := ']') (n := n.natAbs) (b := 10) (by decide)
          (by decide) (by rw [hcs]; simp)
        revert this
        decide

theorem ends_cons {c : Char} (hc : c.isDigit = false) (cs : List Char) : Ends (c :: cs) := by
  intro d hd
  simp only [head?_cons, Option.mem_def, Option.some.injEq] at hd
  rw [← hd]
  exact hc

theorem textItems_ends (vs : List Json) (rest : List Char) : Ends (textItems vs ++ rest) := by
  cases vs <;> exact ends_cons (by decide) _

theorem textFields_ends (fs : List (String × Json)) (rest : List Char) :
    Ends (textFields fs ++ rest) := by
  cases fs <;> exact ends_cons (by decide) _

theorem readValue_digits (m n : ℕ) {rest : List Char} (hr : Ends rest) :
    readValue (m + 1) (toDigits 10 n ++ rest) = some (.num n, rest) := by
  cases hcs : toDigits 10 n with
  | nil => exact absurd hcs toDigits_ne_nil
  | cons d ds =>
    have hd : d.isDigit = true := isDigit_of_mem_toDigits (n := n) (b := 10) (by decide)
      (by decide) (by rw [hcs]; simp)
    have hread := readDigits_toDigits n hr
    rw [hcs] at hread
    have hne : ∀ c : Char, c.isDigit = false → d ≠ c := by
      rintro c hc rfl
      rw [hd] at hc
      cases hc
    rw [readValue.eq_def]
    split <;> simp_all

mutual

theorem readValue_text (v : Json) (hv : v.plain = true) (n : ℕ) (rest : List Char)
    (hn : (text v).length ≤ n) (hr : Ends rest) :
    readValue n (text v ++ rest) = some (v, rest) := by
  obtain ⟨m, rfl⟩ : ∃ m, n = m + 1 := by
    obtain ⟨c, cs, hc, -⟩ := text_head v
    rw [hc, length_cons] at hn
    exact ⟨n - 1, by omega⟩
  match v with
  | .null => rfl
  | .bool true => rfl
  | .bool false => rfl
  | .num k =>
    by_cases hk : k < 0
    · have hcast : -((k.natAbs : ℕ) : ℤ) = k := by omega
      simp only [text, number, hk, if_true, cons_append, readValue,
        readDigits_toDigits _ hr, Option.bind_eq_bind, Option.bind_some, Option.pure_def, hcast]
    · have hcast : ((k.natAbs : ℕ) : ℤ) = k := by omega
      simp only [text, number, hk, if_false, readValue_digits _ _ hr, hcast]
  | .str s =>
    simp only [text, quoted, cons_append, append_assoc, nil_append, readValue,
      readString_append (ne_quote_of_plain hv), Option.bind_eq_bind, Option.bind_some,
      Option.pure_def, map_byteOf_charOf]
  | .arr [] => rfl
  | .arr (v :: vs) =>
    simp only [plain, plainItems, Bool.and_eq_true] at hv
    obtain ⟨c, cs, hc, hne⟩ := text_head v
    simp only [text, length_cons, length_append] at hn
    have hfirst := readValue_text v hv.1 m (textItems vs ++ rest) (by omega) (textItems_ends vs rest)
    have hrest := readItems_text vs hv.2 m rest (by omega)
    rw [text, hc]
    -- the first item does not begin with the bracket of an empty array
    rw [readValue.eq_def]
    split <;> simp_all
  | .obj [] => rfl
  | .obj ((k, v) :: fs) =>
    simp only [plain, plainFields, Bool.and_eq_true] at hv
    simp only [text, quoted, length_cons, length_append] at hn
    have hfirst := readMember_text v hv.1.2 m (textFields fs ++ rest) (by omega)
      (textFields_ends fs rest)
    have hrest := readFields_text fs hv.2 m rest (by omega)
    simp only [text, quoted, cons_append, append_assoc, nil_append, readValue,
      readString_append (ne_quote_of_plainKey hv.1.1), hfirst, hrest, Option.bind_eq_bind,
      Option.bind_some, Option.pure_def, String.ofList_toList]

theorem readMember_text (v : Json) (hv : v.plain = true) (n : ℕ) (rest : List Char)
    (hn : (text v).length + 1 ≤ n) (hr : Ends rest) :
    readMember n (':' :: (text v ++ rest)) = some (v, rest) := by
  obtain ⟨m, rfl⟩ : ∃ m, n = m + 1 := ⟨n - 1, by omega⟩
  exact readValue_text v hv m rest (by omega) hr

theorem readItems_text (vs : List Json) (hv : plainItems vs = true) (n : ℕ) (rest : List Char)
    (hn : (textItems vs).length ≤ n) : readItems n (textItems vs ++ rest) = some (vs, rest) := by
  match vs with
  | [] =>
    obtain ⟨m, rfl⟩ : ∃ m, n = m + 1 := ⟨n - 1, by simp [textItems] at hn; omega⟩
    rfl
  | v :: vs =>
    simp only [plainItems, Bool.and_eq_true] at hv
    simp only [textItems, length_cons, length_append] at hn
    obtain ⟨m, rfl⟩ : ∃ m, n = m + 1 := ⟨n - 1, by omega⟩
    have hfirst := readValue_text v hv.1 m (textItems vs ++ rest) (by omega) (textItems_ends vs rest)
    have hrest := readItems_text vs hv.2 m rest (by omega)
    simp [textItems, readItems, hfirst, hrest]

theorem readFields_text (fs : List (String × Json)) (hf : plainFields fs = true) (n : ℕ)
    (rest : List Char) (hn : (textFields fs).length ≤ n) :
    readFields n (textFields fs ++ rest) = some (fs, rest) := by
  match fs with
  | [] =>
    obtain ⟨m, rfl⟩ : ∃ m, n = m + 1 := ⟨n - 1, by simp [textFields] at hn; omega⟩
    rfl
  | (k, v) :: fs =>
    simp only [plainFields, Bool.and_eq_true] at hf
    simp only [textFields, quoted, length_cons, length_append] at hn
    obtain ⟨m, rfl⟩ : ∃ m, n = m + 1 := ⟨n - 1, by omega⟩
    have hfirst := readMember_text v hf.1.2 m (textFields fs ++ rest) (by omega)
      (textFields_ends fs rest)
    have hrest := readFields_text fs hf.2 m rest (by omega)
    simp only [textFields, quoted, cons_append, append_assoc, nil_append, readFields,
      readString_append (ne_quote_of_plainKey hf.1.1), hfirst, hrest, Option.bind_eq_bind,
      Option.bind_some, Option.pure_def, String.ofList_toList]

end

theorem number_lt (n : ℤ) : ∀ c ∈ number n, c.toNat < 128 := by
  have hd : ∀ c ∈ toDigits 10 n.natAbs, c.toNat < 128 := by
    intro c hc
    have := isDigit_of_mem_toDigits (by decide) (by decide) hc
    simp only [Char.isDigit, Bool.and_eq_true, decide_eq_true_eq, UInt32.le_iff_toNat_le] at this
    have h₂ : c.val.toNat ≤ 57 := this.2
    exact lt_of_le_of_lt h₂ (by decide)
  intro c hc
  unfold number at hc
  split at hc
  · rcases mem_cons.1 hc with rfl | hc
    · decide
    · exact hd c hc
  · exact hd c hc

theorem quoted_lt (hs : ∀ c ∈ s, c.toNat < 128) : ∀ c ∈ quoted s, c.toNat < 128 := by
  intro c hc
  simp only [quoted, mem_cons, mem_append, not_mem_nil, or_false] at hc
  rcases hc with rfl | hc | rfl
  · decide
  · exact hs c hc
  · decide

theorem key_lt {k : String} (hk : k.toList.all plainChar = true) : ∀ c ∈ k.toList, c.toNat < 128 := by
  intro c hc
  have := all_eq_true.1 hk c hc
  simp only [plainChar, Bool.and_eq_true, decide_eq_true_eq] at this
  omega

theorem lt_of_all (hs : (s.all fun c => c.toNat < 128) = true) : ∀ c ∈ s, c.toNat < 128 := by
  simpa using hs

mutual

theorem text_lt (v : Json) (hv : v.plain = true) : ∀ c ∈ text v, c.toNat < 128 := by
  match v with
  | .null => exact lt_of_all (by decide)
  | .bool true => exact lt_of_all (by decide)
  | .bool false => exact lt_of_all (by decide)
  | .num n => exact number_lt n
  | .str s =>
    refine quoted_lt fun c hc => ?_
    obtain ⟨b, hb, rfl⟩ := mem_map.1 hc
    have hplain := all_eq_true.1 hv b hb
    simp only [plainByte, Bool.and_eq_true, decide_eq_true_eq] at hplain
    have hlt := UInt8.lt_iff_toNat_lt.1 hplain.1.1.2
    rw [toNat_charOf]
    exact lt_trans hlt (by decide)
  | .arr [] => exact lt_of_all (by decide)
  | .arr (v :: vs) =>
    simp only [plain, plainItems, Bool.and_eq_true] at hv
    intro c hc
    simp only [text, mem_cons, mem_append] at hc
    rcases hc with rfl | hc | hc
    · decide
    · exact text_lt v hv.1 c hc
    · exact textItems_lt vs hv.2 c hc
  | .obj [] => exact lt_of_all (by decide)
  | .obj ((k, v) :: fs) =>
    simp only [plain, plainFields, Bool.and_eq_true] at hv
    intro c hc
    simp only [text, mem_cons, mem_append] at hc
    rcases hc with rfl | hc | rfl | hc | hc
    · decide
    · exact quoted_lt (key_lt hv.1.1) c hc
    · decide
    · exact text_lt v hv.1.2 c hc
    · exact textFields_lt fs hv.2 c hc

theorem textItems_lt (vs : List Json) (hv : plainItems vs = true) :
    ∀ c ∈ textItems vs, c.toNat < 128 := by
  match vs with
  | [] => exact lt_of_all (by decide)
  | v :: vs =>
    simp only [plainItems, Bool.and_eq_true] at hv
    intro c hc
    simp only [textItems, mem_cons, mem_append] at hc
    rcases hc with rfl | hc | hc
    · decide
    · exact text_lt v hv.1 c hc
    · exact textItems_lt vs hv.2 c hc

theorem textFields_lt (fs : List (String × Json)) (hf : plainFields fs = true) :
    ∀ c ∈ textFields fs, c.toNat < 128 := by
  match fs with
  | [] => exact lt_of_all (by decide)
  | (k, v) :: fs =>
    simp only [plainFields, Bool.and_eq_true] at hf
    intro c hc
    simp only [textFields, mem_cons, mem_append] at hc
    rcases hc with rfl | hc | rfl | hc | hc
    · decide
    · exact quoted_lt (key_lt hf.1.1) c hc
    · decide
    · exact text_lt v hf.1.2 c hc
    · exact textFields_lt fs hf.2 c hc

end

theorem length_number {n k : ℕ} (hk : 0 < k) (hn : n < 10 ^ k) : (number n).length ≤ k := by
  have hnonneg : ¬((n : ℤ) < 0) := by omega
  exact (length_toDigits_le_iff (by decide) hk).mpr hn

theorem length_str (value : Bytes) : (text (.str value)).length = value.length + 2 := by
  simp [text, quoted]

def compact : Serde where
  toVec v := (text v).map byteOf
  fromSlice bytes :=
    match readValue bytes.length (bytes.map charOf) with
    | some (v, []) => some v
    | _ => none
  fromSlice_toVec v hv := by
    have hid : ((text v).map byteOf).map charOf = text v := by
      rw [map_map, map_congr_left (g := id), map_id]
      exact fun c hc => charOf_byteOf (lt_trans (text_lt v hv c hc) (by decide))
    have := readValue_text v hv (text v).length [] le_rfl nofun
    rw [append_nil] at this
    simp only [length_map, hid, this]

end Json
end CakeAutorate.Syscall
