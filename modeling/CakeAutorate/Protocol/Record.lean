/-
# Records

The line records of `operations/protocol.rs`: a header, one `key=value` line for
each field in a fixed order, and an empty line.  `RecordReader` is the source's
reader, a state of the lines that are left; `Reads` says that a reader consumes
the lines of some fields and returns a value, whatever follows them.
-/

import CakeAutorate.Protocol.Request

namespace CakeAutorate.Protocol

open Wire List

/-- `MAX_OPERATION_RECORD_BYTES`. -/
def maxOperationRecordBytes : ℕ := 8 * 1024

/-- A key and its value. -/
abbrev Field := String × Text

/-- A field as a line, its value escaped. -/
def fieldLine (field : Field) : Text := lit field.1 ++ '=' :: percentEncode field.2

/-- The lines of the fields. -/
def bodyText (fields : List Field) : Text :=
  (fields.map fieldLine).flatMap fun line => line ++ ['\n']

/-- The text that `encode_record` builds. -/
def recordText (header : Text) (fields : List Field) : Text :=
  header ++ '\n' :: (bodyText fields ++ ['\n'])

/-- `encode_record`. -/
def encodeRecord (header : Text) (fields : List Field) : Except String Text := do
  let out := recordText header fields
  check (byteLength out ≤ maxOperationRecordBytes) "operation record exceeds 8192 bytes"
  return out

/-- What `percent_decode` says of a text that it refuses. -/
def percentMessage : PercentError → String
  | .truncated => "truncated percent escape in operation field"
  | .notUpperHex => "operation percent escapes must use uppercase hexadecimal"
  | .rawByte => "operation field contains a non-canonical raw byte"
  | .notUtf8 => "operation field is not valid UTF-8"
  | .control => "operation field contains a forbidden control byte"

/-- `RecordReader`: the lines that are left. -/
abbrev RecordReader := StateT (List Text) (Except String)

namespace RecordReader

/-- `RecordReader::new`: the lines after the header. -/
def new (input header : Text) : Except String (List Text) := do
  check (byteLength input ≤ maxOperationRecordBytes) "operation record exceeds 8192 bytes"
  check (!(input.contains '\r' || !(lit "\n\n").isSuffixOf input))
    "operation record must use LF and end with one empty line"
  match lines input with
  | first :: rest =>
    check (first == header) "unsupported operation record header or version"
    return rest
  | [] => throw "unsupported operation record header or version"

/-- `RecordReader::field`. -/
def field (expected : String) : RecordReader Text := fun left =>
  match left with
  | [] => .error ("missing operation field " ++ expected)
  | line :: rest =>
    match splitOnce '=' line with
    | none => .error ("malformed operation field " ++ expected)
    | some (key, value) =>
      if key ≠ lit expected then
        .error ("expected operation field " ++ expected ++ ", received " ++ String.ofList key)
      else
        match percentDecode value with
        | .error e => .error (percentMessage e)
        | .ok decoded => .ok (decoded, rest)

/-- `RecordReader::finish`: one empty line is left. -/
def finish : RecordReader Unit := fun left =>
  if left = [[]] then .ok ((), [])
  else .error "operation record has trailing or unknown fields"

/-- A header, what `reader` reads, and the end. -/
def readRecord {α : Type} (input header : Text) (reader : RecordReader α) : Except String α := do
  let left ← new input header
  let (a, left) ← reader.run left
  let _ ← finish.run left
  return a

end RecordReader

/-- A value that a field can carry: `percent_decode` refuses NUL and carriage return. -/
def Writable (value : Text) : Prop := '\x00' ∉ value ∧ '\r' ∉ value

/-- A key that ends at its `=` and stays on its line. -/
def PlainKey (key : String) : Prop := '=' ∉ lit key ∧ '\n' ∉ lit key ∧ '\r' ∉ lit key

instance (key : String) : Decidable (PlainKey key) := inferInstanceAs (Decidable (_ ∧ _ ∧ _))

/-- The reader consumes the lines of the fields and returns the value. -/
structure Reads {α : Type} (reader : RecordReader α) (fields : List Field) (a : α) : Prop where
  plain : ∀ f ∈ fields, PlainKey f.1
  run : ∀ rest, reader.run (fields.map fieldLine ++ rest) = .ok (a, rest)

namespace Reads

variable {α β : Type}

theorem pure (a : α) : Reads (Pure.pure a) [] a := ⟨by simp, fun _ => rfl⟩

variable {fs : List Field} {k : α → RecordReader β}

theorem bind {x : RecordReader α} {gs : List Field} {a : α} {b : β} (hx : Reads x fs a)
    (hk : Reads (k a) gs b) : Reads (x >>= k) (fs ++ gs) b := by
  constructor
  · intro f hf
    rcases mem_append.1 hf with hf | hf
    · exact hx.plain f hf
    · exact hk.plain f hf
  · intro rest
    have hx := hx.run (gs.map fieldLine ++ rest)
    rw [StateT.run_bind, map_append, append_assoc, hx]
    exact hk.run rest

theorem field {key : String} {value : Text} (hk : PlainKey key) (hv : Writable value) :
    Reads (RecordReader.field key) [(key, value)] value := by
  refine ⟨by simpa using hk, fun rest => ?_⟩
  show RecordReader.field key (fieldLine (key, value) :: rest) = .ok (value, rest)
  simp only [RecordReader.field, fieldLine, splitOnce_append _ hk.1, ne_eq, not_true_eq_false,
    if_false, percentDecode_percentEncode hv.1 hv.2]

theorem field_bind {key : String} {value : Text} {k : Text → RecordReader β} {b : β}
    (hk : PlainKey key) (hv : Writable value) (h : Reads (k value) fs b) :
    Reads (RecordReader.field key >>= k) ((key, value) :: fs) b :=
  (Reads.field hk hv).bind h

theorem lift {e : Except String α} {a : α} (he : e = .ok a) :
    Reads (liftM e : RecordReader α) [] a := by
  subst he
  exact .pure a

theorem lift_bind {e : Except String α} {a : α} {b : β} (he : e = .ok a) (h : Reads (k a) fs b) :
    Reads (liftM e >>= k) fs b := by
  subst he
  exact h

end Reads

theorem fieldLine_newline {field : Field} (hk : '\n' ∉ lit field.1) : '\n' ∉ fieldLine field := by
  simp only [fieldLine, mem_append, mem_cons, not_or]
  exact ⟨hk, by decide, not_mem_percentEncode (.inl rfl)⟩

theorem fieldLine_return {field : Field} (hk : '\r' ∉ lit field.1) : '\r' ∉ fieldLine field := by
  simp only [fieldLine, mem_append, mem_cons, not_or]
  exact ⟨hk, by decide, not_mem_percentEncode (.inr (.inl rfl))⟩

variable {fields : List Field} {header : Text}

theorem lines_recordText (hn : '\n' ∉ header) (hr : '\r' ∉ header) (hf : ∀ f ∈ fields, PlainKey f.1) :
    lines (recordText header fields) = header :: (fields.map fieldLine ++ [[]]) := by
  have hbody : bodyText fields ++ ['\n'] =
      (fields.map fieldLine ++ [[]]).flatMap fun l => l ++ ['\n'] := by simp [bodyText]
  rw [recordText, hbody, lines_line _ hn (getLast?_ne_return hr), lines_printed]
  · simp only [mem_append, mem_map, mem_singleton]
    rintro l (⟨f, hf', rfl⟩ | rfl)
    · exact fieldLine_newline (hf f hf').2.1
    · exact not_mem_nil
  · simp only [mem_append, mem_map, mem_singleton]
    rintro l (⟨f, hf', rfl⟩ | rfl)
    · exact getLast?_ne_return (fieldLine_return (hf f hf').2.2)
    · simp

theorem recordText_suffix (header : Text) (fields : List Field) :
    ∃ t, recordText header fields = t ++ lit "\n\n" := by
  have hbody : ∀ (ls : List Text) (h : Text),
      ∃ t, h ++ '\n' :: ls.flatMap (fun line => line ++ ['\n']) = t ++ ['\n'] := by
    intro ls
    induction ls with
    | nil => exact fun h => ⟨h, rfl⟩
    | cons l ls ih =>
      intro h
      obtain ⟨t, ht⟩ := ih (h ++ '\n' :: l)
      exact ⟨t, by simpa using ht⟩
  obtain ⟨t, ht⟩ := hbody (fields.map fieldLine) header
  refine ⟨t, ?_⟩
  rw [recordText, bodyText, ← cons_append, ← append_assoc, ht, append_assoc]
  rfl

theorem recordText_return (hr : '\r' ∉ header) (hf : ∀ f ∈ fields, PlainKey f.1) :
    '\r' ∉ recordText header fields := by
  simp only [recordText, bodyText, mem_append, mem_cons, mem_flatMap, mem_map,
    not_mem_nil, or_false, not_or, not_exists, not_and]
  refine ⟨hr, by decide, ?_, by decide⟩
  rintro l ⟨f, hf', rfl⟩
  exact ⟨fieldLine_return (hf f hf').2.2, by decide⟩

/-- **A record reads back**: what reads its fields reads it. -/
theorem readRecord_recordText {α : Type} {reader : RecordReader α} {a : α} (hn : '\n' ∉ header)
    (hr : '\r' ∉ header) (hlen : byteLength (recordText header fields) ≤ maxOperationRecordBytes)
    (h : Reads reader fields a) :
    RecordReader.readRecord (recordText header fields) header reader = .ok a := by
  have hsuffix : (lit "\n\n").isSuffixOf (recordText header fields) = true := by
    obtain ⟨t, ht⟩ := recordText_suffix header fields
    rw [ht, isSuffixOf_iff_suffix]
    exact suffix_append _ _
  have hnew : RecordReader.new (recordText header fields) header
      = .ok (fields.map fieldLine ++ [[]]) := by
    have hreturn : (recordText header fields).contains '\r' = false := by
      simpa using recordText_return hr h.plain
    simp only [RecordReader.new, lines_recordText hn hr h.plain, hlen, decide_true, hreturn, hsuffix,
      beq_self_eq_true, check_true, Bool.not_true, Bool.or_self, Bool.not_false]
    rfl
  simp only [RecordReader.readRecord, hnew, bind, Except.bind, h.run [[]]]
  rfl

/-- The lines of the fields take at most `n` bytes. -/
def Fits (n : ℕ) (fields : List Field) : Prop := byteLength (bodyText fields) ≤ n

namespace Fits

theorem nil : Fits 0 [] := Nat.le_refl 0

theorem mono {m n : ℕ} (h : Fits m fields) (hmn : m ≤ n) : Fits n fields :=
  Nat.le_trans h hmn

theorem cons {n bound : ℕ} {key : String} {value : Text} {fields : List Field}
    (hvalue : byteLength value ≤ bound) (h : Fits n fields) :
    Fits (byteLength (lit key) + 2 + 3 * bound + n) ((key, value) :: fields) := by
  have hpercent := byteLength_percentEncode_le value
  have heq : Char.utf8Size '=' = 1 := by decide
  have hnl : Char.utf8Size '\n' = 1 := by decide
  simp only [Fits, bodyText, fieldLine, map_cons, flatMap_cons, byteLength_append, byteLength_cons,
    byteLength_nil, heq, hnl] at h ⊢
  omega

theorem append {m n : ℕ} {fs gs : List Field} (hf : Fits m fs) (hg : Fits n gs) :
    Fits (m + n) (fs ++ gs) := by
  simp only [Fits, bodyText, map_append, flatMap_append, byteLength_append] at hf hg ⊢
  omega

end Fits

theorem byteLength_recordText_le {fields : List Field} {n : ℕ} (h : Fits n fields) :
    byteLength (recordText header fields) ≤ byteLength header + 2 + n := by
  have hnl : Char.utf8Size '\n' = 1 := by decide
  unfold Fits at h
  simp only [recordText, byteLength_append, byteLength_cons, byteLength_nil, hnl]
  omega

end CakeAutorate.Protocol
