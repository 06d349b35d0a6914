/-
# The words of JSON

The literals, numbers and strings that `serde_json` reads, as `Words`, and the texts that nft prints:
one space after every comma and colon, and strings without an escape.
-/

import CakeAutorate.Snapshot.Bounded
import CakeAutorate.Wire.Text

namespace CakeAutorate.Snapshot

open List
open Syscall (Bytes ascii)

def isDigit (b : UInt8) : Bool := 0x30 ≤ b && b ≤ 0x39

/-- An exponent, or nothing. -/
def exponent : Bytes → Bool
  | [] => true
  | e :: rest =>
    let digits := if rest.head? = some 0x2b ∨ rest.head? = some 0x2d then rest.tail else rest
    (e == 0x65 || e == 0x45) && !digits.isEmpty && digits.all isDigit

/-- What may come after the whole part of a number. -/
def fraction : Bytes → Bool
  | 0x2e :: rest => !(rest.takeWhile isDigit).isEmpty && exponent (rest.dropWhile isDigit)
  | rest => exponent rest

/-- A number of JSON: no zero comes before another digit of the whole part. -/
def number (raw : Bytes) : Bool :=
  let raw := if raw.head? = some 0x2d then raw.tail else raw
  let whole := raw.takeWhile isDigit
  !whole.isEmpty && (whole == [0x30] || whole.head? != some 0x30) && fraction (raw.dropWhile isDigit)

def literals : List Bytes := [ascii "null", ascii "true", ascii "false"]

def numberBytes : Bytes := ascii "0123456789+-.eE"

def scalar (raw : Bytes) : Bool :=
  literals.contains raw || (raw.all numberBytes.contains && number raw)

def asU64 (raw : Bytes) : Option ℕ :=
  if number raw && raw.all isDigit then
    some (raw.foldl (fun n b => 10 * n + (b.toNat - 0x30)) 0) |>.filter (· < 2 ^ 64)
  else none

def hexValue (b : UInt8) : Option ℕ :=
  if isDigit b then some (b.toNat - 0x30)
  else if 0x41 ≤ b ∧ b ≤ 0x46 then some (b.toNat - 0x37)
  else if 0x61 ≤ b ∧ b ≤ 0x66 then some (b.toNat - 0x57)
  else none

/-- The four digits after `\u`. -/
def codeUnit (a b c d : UInt8) : Option ℕ := do
  let digits ← [a, b, c, d].mapM hexValue
  return digits.foldl (16 * · + ·) 0

def escapes : List (UInt8 × UInt8) := [(0x22, 0x22), (0x5c, 0x5c), (0x2f, 0x2f), (0x62, 0x08),
  (0x66, 0x0c), (0x6e, 0x0a), (0x72, 0x0d), (0x74, 0x09)]

/-- The characters between quotes; two surrogates are one character. -/
def characters : Bytes → Option Bytes
  | [] => some []
  | 0x5c :: 0x75 :: a :: b :: c :: d :: rest => do
    let unit ← codeUnit a b c d
    if unit < 0xd800 ∨ 0xdfff < unit then
      let s ← characters rest
      return Wire.utf8 [Char.ofNat unit] ++ s
    else match rest with
      | 0x5c :: 0x75 :: a :: b :: c :: d :: rest => do
        let low ← codeUnit a b c d
        if unit < 0xdc00 ∧ 0xdc00 ≤ low ∧ low ≤ 0xdfff then
          let s ← characters rest
          return Wire.utf8 [Char.ofNat (0x10000 + (unit - 0xd800) * 0x400 + (low - 0xdc00))] ++ s
        else none
      | _ => none
  | 0x5c :: b :: rest => do
    let c ← escapes.lookup b
    let s ← characters rest
    return c :: s
  | b :: rest => if b < 0x20 then none else (characters rest).map (b :: ·)

/-- No quote but behind a backslash. -/
def closed : Bytes → Bool
  | [] => true
  | 0x5c :: _ :: rest => closed rest
  | b :: rest => b != 0x22 && b != 0x5c && closed rest

theorem closed_iff {raw : Bytes} (h : closed raw = true) : Closed raw := by
  fun_induction closed raw with
  | case1 => exact .nil
  | case2 b rest ih => exact .escape (ih h)
  | case3 b rest hne ih =>
    simp only [Bool.and_eq_true, bne_iff_ne] at h
    exact .byte h.1.1 h.1.2 (ih h.2)

def unescape (raw : Bytes) : Option Bytes :=
  if closed raw then (characters raw).filter fun s => (Wire.fromUtf8 s).isSome else none

/-- **JSON's words.** -/
def jsonWords : Words where
  scalar raw := scalar raw = true
  asU64
  unescape
  scalar_plain raw h b hb := by
    have hbytes : (literals.flatten ++ numberBytes).all fun b => b ≠ 0x22 ∧ b ≠ 0x7b ∧ b ≠ 0x7d := by
      decide
    refine of_decide_eq_true (all_eq_true.mp hbytes b (mem_append.mpr ?_))
    rw [scalar, Bool.or_eq_true, Bool.and_eq_true, all_eq_true, contains_iff_mem] at h
    rcases h with h | ⟨h, -⟩
    · exact .inl (mem_flatten.mpr ⟨raw, h, hb⟩)
    · exact .inr (contains_iff_mem.mp (h b hb))
  unescape_closed raw s h := by
    rw [unescape] at h
    split at h
    · rename_i hclosed
      exact closed_iff hclosed
    · cases h

mutual

/-- What nft prints of a value. -/
def Value.print : Value → Bytes
  | .scalar raw => raw
  | .str s => quote s
  | .arr items => 0x5b :: printItems items ++ [0x5d]
  | .obj members => 0x7b :: printMembers members ++ [0x7d]

def printItems : List Value → Bytes
  | [] => []
  | [v] => v.print
  | v :: v' :: rest => v.print ++ 0x2c :: 0x20 :: printItems (v' :: rest)

def printMembers : List (Bytes × Value) → Bytes
  | [] => []
  | [(key, v)] => quote key ++ 0x3a :: 0x20 :: v.print
  | (key, v) :: m :: rest =>
    quote key ++ 0x3a :: 0x20 :: v.print ++ 0x2c :: 0x20 :: printMembers (m :: rest)

end

mutual

/-- Its scalars are words, and its strings stand for themselves. -/
def Value.plain : Value → Bool
  | .scalar raw => scalar raw
  | .str s => unescape s == some s
  | .arr items => plainItems items
  | .obj members => plainMembers members

def plainItems : List Value → Bool
  | [] => true
  | v :: rest => v.plain && plainItems rest

def plainMembers : List (Bytes × Value) → Bool
  | [] => true
  | (key, v) :: rest => unescape key == some key && v.plain && plainMembers rest

end

section Texts

variable {words : Words} {v : Value} {items : List Value} {members : List (Bytes × Value)}
  {t : Bytes}

theorem Words.Text.item (h : words.Text v t) : words.Items [v] t := by
  have hitem : words.Items [v] ([] ++ t ++ []) := .one nofun h nofun
  rwa [nil_append, append_nil] at hitem

theorem White.cons {w : Bytes} (h : White w) : White (0x20 :: w) := by
  rintro b (_ | ⟨_, hb⟩)
  · exact .inl rfl
  · exact h b hb

theorem Words.Items.space (h : words.Items (v :: items) t) :
    words.Items (v :: items) (0x20 :: t) := by
  cases h with
  | one hw hv hw' => exact .one hw.cons hv hw'
  | cons hv hvs =>
    cases hv with
    | one hw hv hw' => exact .cons (.one hw.cons hv hw') hvs

theorem Words.Members.space {m : Bytes × Value} (h : words.Members (m :: members) t) :
    words.Members (m :: members) (0x20 :: t) := by
  cases h with
  | one hw hkey hw' hv => exact .one hw.cons hkey hw' hv
  | cons hm hms =>
    cases hm with
    | one hw hkey hw' hv => exact .cons (.one hw.cons hkey hw' hv) hms

theorem Words.Text.member {key : Bytes} (hkey : words.unescape key = some key)
    (h : words.Text v t) : words.Members [(key, v)] (quote key ++ 0x3a :: 0x20 :: t) := by
  have hmember : words.Members [(key, v)] ([] ++ quote key ++ [] ++ 0x3a :: 0x20 :: t) :=
    .one nofun hkey nofun h.item.space
  simpa using hmember

end Texts

mutual

/-- **What nft prints of a plain value** is a text of it. -/
theorem print_text : ∀ v : Value, v.plain = true → jsonWords.Text v v.print
  | .scalar _, h => .scalar h
  | .str _, h => .str (beq_iff_eq.mp h)
  | .arr items, h => .arr (printItems_items items h)
  | .obj members, h => .obj (printMembers_members members h)

theorem printItems_items : ∀ items, plainItems items = true →
    jsonWords.Items items (printItems items)
  | [], _ => .empty nofun
  | [v], h => (print_text v (Bool.and_eq_true _ _ ▸ h).1).item
  | v :: v' :: rest, h =>
    have hv := Bool.and_eq_true _ _ ▸ h
    .cons (print_text v hv.1).item (printItems_items (v' :: rest) hv.2).space

theorem printMembers_members : ∀ members, plainMembers members = true →
    jsonWords.Members members (printMembers members)
  | [], _ => .empty nofun
  | [(key, v)], h => by
    simp only [plainMembers, Bool.and_eq_true, beq_iff_eq] at h
    exact (print_text v h.1.2).member h.1.1
  | (key, v) :: m :: rest, h => by
    have hrest := printMembers_members (m :: rest)
    simp only [plainMembers, Bool.and_eq_true, beq_iff_eq] at h hrest
    have hmembers := (print_text v h.1.2).member h.1.1
    exact (Words.Members.cons hmembers (hrest h.2).space)

end

theorem print_document {v : Value} (h : v.plain = true) : jsonWords.Document v v.print :=
  (print_text v h).item

/-- A reader of JSON, of which it is known what it reads of the printed texts of some values. -/
noncomputable def serdeOf (known : List Value) (hplain : ∀ v ∈ known, v.plain = true) : Serde where
  toWords := jsonWords
  fromSlice input :=
    open Classical in
    (known.find? fun v => v.print = input).or
      (if h : ∃ v, jsonWords.Document v input then some h.choose else none)
  fromSlice_document input v h := by
    rcases Option.or_eq_some_iff.mp h with hfind | ⟨-, h⟩
    · have hprint : v.print = input := by simpa using find?_some hfind
      rw [← hprint]
      exact print_document (hplain v (mem_of_find?_eq_some hfind))
    · split at h
      · rename_i hdocument
        exact Option.some.inj h ▸ hdocument.choose_spec
      · cases h
  document_fromSlice input v h := by
    have hdocument : ∃ v, jsonWords.Document v input := ⟨v, h⟩
    rw [dif_pos hdocument]
    cases known.find? fun v => v.print = input with
    | none => exact ⟨_, rfl⟩
    | some v => exact ⟨v, rfl⟩
  stringFromSlice text := unescape (text.drop 1).dropLast
  string_quoted raw s h := by
    have hraw : ((quote raw).drop 1).dropLast = raw := by simp [quote]
    rw [hraw]
    exact h

end CakeAutorate.Snapshot
