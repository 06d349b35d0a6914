/-
# Text on a wire

Text is a list of characters, as a `str` is a sequence of Unicode scalar values;
its length on the wire is that of its UTF-8 form. Here are the pieces that line
records are made of: lines, `key=value` splitting, percent escapes of every byte
that is not unreserved, and decimal numbers.
-/

import Mathlib.Data.List.Basic
import Mathlib.Data.UInt
import Mathlib.Tactic.IntervalCases

namespace CakeAutorate.Wire

open List Char Nat

/-- Text: the characters of a `str`. -/
abbrev Text := List Char

/-- `str::as_bytes`. -/
def utf8 (t : Text) : List UInt8 := t.flatMap String.utf8EncodeChar

/-- `str::len`. -/
def byteLength (t : Text) : ℕ := (utf8 t).length

/-- `String::from_utf8`. -/
def fromUtf8 (bytes : List UInt8) : Option Text := bytes.toByteArray.utf8Decode?.map Array.toList

theorem fromUtf8_utf8 (t : Text) : fromUtf8 (utf8 t) = some t := by
  have : (utf8 t).toByteArray = t.utf8Encode := rfl
  rw [fromUtf8, this, utf8Decode?_utf8Encode]
  simp

@[simp] theorem utf8_append (s t : Text) : utf8 (s ++ t) = utf8 s ++ utf8 t := by simp [utf8]

@[simp] theorem byteLength_append (s t : Text) :
    byteLength (s ++ t) = byteLength s + byteLength t := by
  simp [byteLength]

@[simp] theorem byteLength_nil : byteLength [] = 0 := rfl

@[simp] theorem byteLength_cons (c : Char) (t : Text) :
    byteLength (c :: t) = c.utf8Size + byteLength t := by
  simp [byteLength, utf8]

theorem byteLength_le (t : Text) : byteLength t ≤ 4 * t.length := by
  induction t with
  | nil => simp
  | cons c t ih =>
    have := c.utf8Size_le_four
    simp only [byteLength_cons, length_cons]
    omega

/-- The characters of ASCII bytes. -/
def asciiText (bytes : List UInt8) : Text := bytes.map fun b => ofNat b.toNat

theorem toNat_ofNat_byte (b : UInt8) : (ofNat b.toNat).toNat = b.toNat := by
  have hb : b.toNat < 256 := UInt8.toNat_lt b
  have hv : b.toNat.isValidChar := .inl (by omega)
  unfold ofNat
  rw [dif_pos hv]
  rfl

theorem utf8_asciiText {bytes : List UInt8} (hb : ∀ b ∈ bytes, b.toNat < 128) :
    utf8 (asciiText bytes) = bytes := by
  induction bytes with
  | nil => rfl
  | cons b bytes ih =>
    have h₀ : b.toNat < 128 := hb b (by simp)
    have hval : (ofNat b.toNat).val.toNat = b.toNat := toNat_ofNat_byte b
    have hsize : (ofNat b.toNat).utf8Size = 1 := by
      unfold utf8Size
      rw [if_pos]
      rw [UInt32.le_iff_toNat_le, hval]
      exact le_of_lt_succ h₀
    have hhead : String.utf8EncodeChar (ofNat b.toNat) = [b] := by
      rw [String.utf8EncodeChar_eq_singleton hsize]
      congr 1
      rw [← UInt8.toNat_inj, UInt32.toNat_toUInt8, hval]
      omega
    have htail := ih fun b' hb' => hb b' (by simp [hb'])
    simp only [utf8, asciiText, map_cons, flatMap_cons, hhead] at htail ⊢
    rw [htail]
    rfl

theorem byteLength_ascii {t : Text} (ht : ∀ c ∈ t, c.toNat < 128) : byteLength t = t.length := by
  induction t with
  | nil => rfl
  | cons c t ih =>
    have hc : c.utf8Size = 1 := by
      unfold utf8Size
      rw [if_pos]
      exact le_of_lt_succ (ht c (by simp))
    rw [byteLength_cons, hc, ih fun d hd => ht d (by simp [hd]), length_cons, add_comm]

/-- A line without the carriage return at its end. -/
def chomp (line : Text) : Text :=
  if line.getLast? = some '\r' then line.dropLast else line

/-- The lines of a text whose first characters `cur` (backwards) are read. -/
def linesFrom (cur : Text) : Text → List Text
  | [] => if cur.isEmpty then [] else [cur.reverse]
  | c :: rest =>
    if c = '\n' then chomp cur.reverse :: linesFrom [] rest else linesFrom (c :: cur) rest

/-- `str::lines`. -/
def lines (t : Text) : List Text := linesFrom [] t

theorem getLast?_ne_return {line : Text} (hr : '\r' ∉ line) : line.getLast? ≠ some '\r' :=
  fun hlast => hr (mem_of_getLast? hlast)

theorem linesFrom_line (cur line rest : Text) (hn : '\n' ∉ line) :
    linesFrom cur (line ++ '\n' :: rest) = chomp (cur.reverse ++ line) :: lines rest := by
  induction line generalizing cur with
  | nil => simp [linesFrom, lines]
  | cons c line ih =>
    have hc : c ≠ '\n' := fun h => hn (by simp [h])
    have htail : '\n' ∉ line := fun h => hn (by simp [h])
    simp only [cons_append, linesFrom, hc, if_false]
    rw [ih (c :: cur) htail]
    simp

theorem lines_line {line : Text} (rest : Text) (hn : '\n' ∉ line)
    (hr : line.getLast? ≠ some '\r') : lines (line ++ '\n' :: rest) = line :: lines rest := by
  rw [lines, linesFrom_line [] line rest hn]
  simp [chomp, hr]

theorem lines_printed {ls : List Text} (hn : ∀ l ∈ ls, '\n' ∉ l)
    (hr : ∀ l ∈ ls, l.getLast? ≠ some '\r') :
    lines (ls.flatMap fun l => l ++ ['\n']) = ls := by
  induction ls with
  | nil => rfl
  | cons l ls ih =>
    have htail := ih (fun l' h' => hn l' (mem_cons_of_mem _ h'))
      (fun l' h' => hr l' (mem_cons_of_mem _ h'))
    rw [flatMap_cons, append_assoc, singleton_append,
      lines_line _ (hn l mem_cons_self) (hr l mem_cons_self), htail]

/-- `str::split_once` at a character. -/
def splitOnce (c : Char) : Text → Option (Text × Text)
  | [] => none
  | d :: rest =>
    if d = c then some ([], rest)
    else (splitOnce c rest).map fun p => (d :: p.1, p.2)

variable {c : Char}

theorem splitOnce_append {key : Text} (value : Text) (hk : c ∉ key) :
    splitOnce c (key ++ c :: value) = some (key, value) := by
  induction key with
  | nil => simp [splitOnce]
  | cons d key ih =>
    have hd : d ≠ c := fun h => hk (by simp [h])
    have htail : c ∉ key := fun h => hk (by simp [h])
    simp [splitOnce, hd, ih htail]

theorem splitOnce_eq_none {t : Text} (h : c ∉ t) : splitOnce c t = none := by
  induction t with
  | nil => rfl
  | cons d t ih =>
    have hd : d ≠ c := fun heq => h (by simp [heq])
    simp [splitOnce, hd, ih fun hmem => h (by simp [hmem])]

theorem splitOnce_eq_some {t key value : Text} (h : splitOnce c t = some (key, value)) :
    t = key ++ c :: value := by
  induction t generalizing key value with
  | nil => cases h
  | cons d t ih =>
    unfold splitOnce at h
    split at h
    · rename_i hd
      obtain ⟨rfl, rfl⟩ := Prod.mk.inj (Option.some.inj h)
      rw [hd, nil_append]
    · simp only [Option.map_eq_some_iff, Prod.mk.injEq, Prod.exists] at h
      obtain ⟨key', value', hrest, rfl, rfl⟩ := h
      rw [ih hrest, cons_append]

/-- `str::strip_prefix`. -/
def stripPrefix (head t : Text) : Option Text :=
  if head <+: t then some (t.drop head.length) else none

theorem stripPrefix_append (head t : Text) : stripPrefix head (head ++ t) = some t := by
  simp [stripPrefix]

/-- A byte that stands for itself: a letter, a digit, or one of `-._~`. -/
def unreserved (b : UInt8) : Bool :=
  (0x30 ≤ b && b ≤ 0x39) || (0x41 ≤ b && b ≤ 0x5a) || (0x61 ≤ b && b ≤ 0x7a) || b == 0x2d ||
    b == 0x2e || b == 0x5f || b == 0x7e

/-- An upper-case digit, base 16. -/
def hexDigit (n : UInt8) : UInt8 := if n < 10 then 0x30 + n else 0x37 + n

/-- `percent_encode`, of a byte. -/
def percentByte (b : UInt8) : List UInt8 :=
  if unreserved b then [b] else [0x25, hexDigit (b >>> 4), hexDigit (b &&& 0x0f)]

/-- `percent_encode`. -/
def percentEncode (value : Text) : Text := asciiText ((utf8 value).flatMap percentByte)

/-- `hex_value`. -/
def hexValue (b : UInt8) : Option UInt8 :=
  if 0x30 ≤ b ∧ b ≤ 0x39 then some (b - 0x30)
  else if 0x41 ≤ b ∧ b ≤ 0x46 then some (b - 0x41 + 10)
  else none

/-- Why an escaped text is refused. -/
inductive PercentError where
  | truncated
  | notUpperHex
  | rawByte
  | notUtf8
  | control

/-- `percent_decode`, the bytes. -/
def percentDecodeBytes : List UInt8 → Except PercentError (List UInt8)
  | [] => .ok []
  | b :: rest =>
    if b = 0x25 then
      match rest with
      | high :: low :: rest =>
        match hexValue high, hexValue low with
        | some high, some low => do
          return (high <<< 4 ||| low) :: (← percentDecodeBytes rest)
        | _, _ => .error .notUpperHex
      | _ => .error .truncated
    else if unreserved b then do
      return b :: (← percentDecodeBytes rest)
    else .error .rawByte

/-- `percent_decode`. -/
def percentDecode (value : Text) : Except PercentError Text := do
  let bytes ← percentDecodeBytes (utf8 value)
  match fromUtf8 bytes with
  | none => .error .notUtf8
  | some decoded =>
    if decoded.contains '\x00' || decoded.contains '\r' then .error .control else .ok decoded

theorem forall_byte {p : UInt8 → Prop} (h : ∀ n : Fin 256, p (UInt8.ofNat n)) : ∀ b, p b := by
  intro b
  have := h ⟨b.toNat, UInt8.toNat_lt b⟩
  simpa using this

theorem hexValue_hexDigit : ∀ n : UInt8, n < 16 → hexValue (hexDigit n) = some n :=
  forall_byte (by decide +kernel)

theorem hexDigit_unreserved : ∀ n : UInt8, n < 16 → unreserved (hexDigit n) = true :=
  forall_byte (by decide +kernel)

theorem unreserved_lt : ∀ b : UInt8, unreserved b = true → b.toNat < 128 :=
  forall_byte (by decide +kernel)

theorem hexDigit_lt (n : UInt8) (hn : n < 16) : (hexDigit n).toNat < 128 :=
  unreserved_lt _ (hexDigit_unreserved n hn)

theorem unreserved_ne (b : UInt8) (hb : unreserved b = true) : b ≠ 0x25 := by
  rintro rfl
  exact absurd hb (by decide)

theorem nibbles : ∀ b : UInt8,
    b >>> 4 < 16 ∧ b &&& 0x0f < 16 ∧ (b >>> 4) <<< 4 ||| b &&& 0x0f = b :=
  forall_byte (by decide +kernel)

theorem percentByte_lt (b : UInt8) : ∀ x ∈ percentByte b, x.toNat < 128 := by
  intro x hx
  unfold percentByte at hx
  split at hx
  · rename_i hu
    rw [mem_singleton] at hx
    rw [hx]
    exact unreserved_lt b hu
  · simp only [mem_cons, not_mem_nil, or_false] at hx
    obtain ⟨h₁, h₂, -⟩ := nibbles b
    rcases hx with rfl | rfl | rfl
    · decide
    · exact hexDigit_lt _ h₁
    · exact hexDigit_lt _ h₂

theorem percentDecodeBytes_percentByte (b : UInt8) {rest decoded : List UInt8}
    (hrest : percentDecodeBytes rest = .ok decoded) :
    percentDecodeBytes (percentByte b ++ rest) = .ok (b :: decoded) := by
  unfold percentByte
  split
  · rename_i hu
    rw [singleton_append, percentDecodeBytes.eq_def]
    simp only [unreserved_ne b hu, hu, if_false, if_true, hrest]
    rfl
  · obtain ⟨h₁, h₂, h₃⟩ := nibbles b
    simp only [cons_append, nil_append]
    rw [percentDecodeBytes.eq_def]
    simp only [if_true, hexValue_hexDigit _ h₁, hexValue_hexDigit _ h₂, h₃, hrest]
    rfl

theorem percentDecodeBytes_flatMap (bytes : List UInt8) :
    percentDecodeBytes (bytes.flatMap percentByte) = .ok bytes := by
  induction bytes with
  | nil => rfl
  | cons b bytes ih =>
    exact percentDecodeBytes_percentByte b ih

theorem utf8_percentEncode (value : Text) :
    utf8 (percentEncode value) = (utf8 value).flatMap percentByte := by
  refine utf8_asciiText fun x hx => ?_
  obtain ⟨b, -, hb⟩ := mem_flatMap.1 hx
  exact percentByte_lt b x hb

variable {value : Text}

/-- **An escaped text reads back**, unless it holds NUL or a carriage return. -/
theorem percentDecode_percentEncode (h₀ : '\x00' ∉ value) (h₁ : '\r' ∉ value) :
    percentDecode (percentEncode value) = .ok value := by
  have hc : (value.contains '\x00' || value.contains '\r') = false := by
    simp [h₀, h₁]
  simp only [percentDecode, utf8_percentEncode, percentDecodeBytes_flatMap, bind, Except.bind,
    fromUtf8_utf8, hc]
  rfl

theorem percentEncode_mem (hc : c ∈ percentEncode value) :
    ∃ b : UInt8, c = ofNat b.toNat ∧ (unreserved b = true ∨ b = 0x25) := by
  obtain ⟨x, hx, rfl⟩ := mem_map.1 hc
  refine ⟨x, rfl, ?_⟩
  obtain ⟨b, -, hb⟩ := mem_flatMap.1 hx
  obtain ⟨h₁, h₂, -⟩ := nibbles b
  unfold percentByte at hb
  split at hb
  · rename_i hu
    rw [mem_singleton] at hb
    rw [hb]
    exact .inl hu
  · simp only [mem_cons, not_mem_nil, or_false] at hb
    rcases hb with rfl | rfl | rfl
    · exact .inr rfl
    · exact .inl (hexDigit_unreserved _ h₁)
    · exact .inl (hexDigit_unreserved _ h₂)

theorem not_mem_percentEncode (hc : c = '\n' ∨ c = '\r' ∨ c = '=') : c ∉ percentEncode value := by
  intro hmem
  obtain ⟨b, hb, hu⟩ := percentEncode_mem hmem
  have hval : c.toNat = b.toNat := by rw [hb]; exact toNat_ofNat_byte b
  have hbad : ∀ b : UInt8, (unreserved b = true ∨ b = 0x25) →
      b.toNat ≠ 10 ∧ b.toNat ≠ 13 ∧ b.toNat ≠ 61 := forall_byte (by decide +kernel)
  obtain ⟨h₁, h₂, h₃⟩ := hbad b hu
  rcases hc with rfl | rfl | rfl
  · exact h₁ hval.symm
  · exact h₂ hval.symm
  · exact h₃ hval.symm

theorem percentEncode_digits (h : ∀ c ∈ value, c.isDigit = true) : percentEncode value = value := by
  have hdigit : ∀ c : Char, c.isDigit = true →
      asciiText ((String.utf8EncodeChar c).flatMap percentByte) = [c] := by
    intro c hc
    simp only [isDigit, Bool.and_eq_true, decide_eq_true_eq, ge_iff_le,
      UInt32.le_iff_toNat_le] at hc
    have hlow : 48 ≤ c.toNat := hc.1
    have hhigh : c.toNat ≤ 57 := hc.2
    have hchar : c = ofNat c.toNat := (ofNat_toNat c).symm
    rw [hchar]
    generalize c.toNat = n at hlow hhigh
    interval_cases n <;> decide
  induction value with
  | nil => rfl
  | cons c value ih =>
    have htail := ih fun d hd => h d (by simp [hd])
    have hhead := hdigit c (h c (by simp))
    simp only [percentEncode, utf8, asciiText, flatMap_cons, flatMap_append,
      map_append] at htail hhead ⊢
    rw [hhead, htail]
    rfl

theorem byteLength_percentEncode_le (value : Text) :
    byteLength (percentEncode value) ≤ 3 * byteLength value := by
  have hbyte : ∀ b : UInt8, (percentByte b).length ≤ 3 := forall_byte (by decide +kernel)
  rw [byteLength, utf8_percentEncode, byteLength]
  generalize utf8 value = bytes
  induction bytes with
  | nil => simp
  | cons b bytes ih =>
    have := hbyte b
    simp only [flatMap_cons, length_append, length_cons]
    omega

/-- `char::is_whitespace`. -/
def isWhitespace (c : Char) : Bool :=
  let n := c.toNat
  (0x9 ≤ n && n ≤ 0xd) || (0x2000 ≤ n && n ≤ 0x200a)
    || [0x20, 0x85, 0xa0, 0x1680, 0x2028, 0x2029, 0x202f, 0x205f, 0x3000].contains n

/-- `Display` of an unsigned integer. -/
def display (n : ℕ) : Text := toDigits 10 n

/-- `FromStr` of an unsigned integer below `bound`: an optional plus sign, then digits. -/
def parseUInt (bound : ℕ) (t : Text) : Option ℕ :=
  let digits := if t.head? = some '+' then t.tail else t
  if digits.isEmpty || !digits.all isDigit then none
  else
    let n := ofDigitChars 10 digits 0
    if n < bound then some n else none

theorem display_isDigit {n : ℕ} (hc : c ∈ display n) : c.isDigit = true :=
  isDigit_of_mem_toDigits (by decide) (by decide) hc

theorem display_ne_nil (n : ℕ) : display n ≠ [] := toDigits_ne_nil

theorem parseUInt_display {bound n : ℕ} (hn : n < bound) : parseUInt bound (display n) = some n := by
  have hhead : (display n).head? ≠ some '+' := by
    intro h
    exact absurd (display_isDigit (mem_of_head? h)) (by decide)
  have hempty : (display n).isEmpty = false := by simpa using display_ne_nil n
  have hall : (display n).all isDigit = true := by
    rw [all_eq_true]
    exact fun c hc => display_isDigit hc
  have hval : ofDigitChars 10 (display n) 0 = n := ofDigitChars_ten_toDigits
  simp [parseUInt, hhead, hempty, hall, hval, hn]

theorem length_display_le {n k : ℕ} (hk : 0 < k) (hn : n < 10 ^ k) : (display n).length ≤ k :=
  (length_toDigits_le_iff (by decide) hk).2 hn

end CakeAutorate.Wire
