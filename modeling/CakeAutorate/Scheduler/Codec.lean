/-
# The records of the scheduler

`encode` and `decode` of `ScheduleCursor`, `BudgetLedger` and `SchedulerInstanceState` in
`operations/scheduler.rs`.  A cursor and a ledger are lines of a name and a value behind a tab, in
a fixed order; a fence or a reservation that is absent is a dash in each of its fields.  The record
of an instance holds both, and a warning, behind their lengths in bytes.  Each reader ends with a
comparison of its input with the text of what it read.
-/

import CakeAutorate.Scheduler.Runtime

namespace CakeAutorate.Scheduler

open Wire Protocol List ScheduleCursor SchedulerInstanceState Nat

/-- A codec of values that are validated: it writes what is valid, reads back what it wrote, and
reads nothing else. -/
structure Canonical {α : Type} (fits : α → Prop) (validate : α → Except String Unit)
    (encode : α → Except String Text) (decode : Text → Except String α) : Prop where
  writes : ∀ a, (∃ t, encode a = .ok t) ↔ validate a = .ok ()
  fails : ∀ a e, encode a = .error e ↔ validate a = .error e
  reads : ∀ a, fits a → validate a = .ok () → ∃ t, encode a = .ok t ∧ decode t = .ok a
  only : ∀ t a, decode t = .ok a → encode a = .ok t

def encodeWith {α : Type} (validate : α → Except String Unit) (text : α → Text) (a : α) :
    Except String Text := do
  validate a
  return text a

def decodeWith {α : Type} (read : Text → Except String α) (validate : α → Except String Unit)
    (encode : α → Except String Text) (notCanonical : String) (input : Text) :
    Except String α := do
  let a ← read input
  validate a
  let again ← encode a
  check (again == input) notCanonical
  return a

section Codec

variable {α : Type} {fits : α → Prop} {validate : α → Except String Unit} {text : α → Text}
  {read : Text → Except String α} {notCanonical : String}

theorem encodeWith_valid {a : α} (h : validate a = .ok ()) :
    encodeWith validate text a = .ok (text a) := by
  rw [encodeWith, h]
  rfl

/-- **A codec is canonical** if it reads what it writes of a valid value. -/
theorem canonical_of_reads (h : ∀ a, fits a → validate a = .ok () → read (text a) = .ok a) :
    Canonical fits validate (encodeWith validate text)
      (decodeWith read validate (encodeWith validate text) notCanonical) where
  writes a := by
    cases hvalid : validate a with
    | error e => simp [encodeWith, hvalid]
    | ok u => simp [encodeWith_valid hvalid]
  fails a e := by
    cases hvalid : validate a with
    | error e' => simp [encodeWith, hvalid]
    | ok u => simp [encodeWith_valid hvalid]
  reads a hfits hvalid := by
    refine ⟨text a, encodeWith_valid hvalid, ?_⟩
    rw [decodeWith, h a hfits hvalid]
    show (do
      validate a
      let again ← encodeWith validate text a
      check (again == text a) notCanonical
      return a) = _
    rw [hvalid, encodeWith_valid hvalid]
    show (do
      check (text a == text a) notCanonical
      return a) = _
    rw [beq_self_eq_true]
    rfl
  only t a hdecode := by
    obtain ⟨b, -, hdecode⟩ := bind_ok.1 hdecode
    obtain ⟨-, hdecode⟩ := andThen_eq_ok.1 hdecode
    obtain ⟨again, hagain, hdecode⟩ := bind_ok.1 hdecode
    obtain ⟨hsame, hdecode⟩ := andThen_eq_ok.1 hdecode
    rw [← Except.ok.inj hdecode, hagain]
    exact congrArg Except.ok (eq_of_beq (check_ok.1 hsame))

end Codec

def fieldLine (f : String × Text) : Text := lit f.1 ++ '\t' :: f.2

def recordText (header : Text) (fields : List (String × Text)) : Text :=
  header ++ '\n' :: (fields.map fieldLine).flatMap fun line => line ++ ['\n']

/-- `OrderedRecord`: the lines that are left. -/
abbrev OrderedRecord := List Text

def OrderedRecord.new (input header : Text) : Except String OrderedRecord := do
  check (!(input.getLast? != some '\n' || input.contains '\x00'))
    "scheduler record is not a complete text record"
  let record := lines input
  check (record.head? == some header) "scheduler record header is invalid"
  return record.tail

def OrderedRecord.field (record : OrderedRecord) (expected : String) :
    Except String (Text × OrderedRecord) := do
  let line ← orError record.head? ("scheduler record field " ++ expected ++ " is missing")
  let parts ← orError (splitOnce '\t' line)
    ("scheduler record field " ++ expected ++ " is malformed")
  check (!(parts.1 != lit expected || parts.2.isEmpty || parts.2.contains '\t'))
    ("scheduler record field " ++ expected ++ " is invalid")
  return (parts.2, record.tail)

def OrderedRecord.finish (record : OrderedRecord) : Except String Unit :=
  check record.isEmpty "scheduler record has unexpected fields"

def parseU64 (name : String) (value : Text) : Except String ℕ := do
  check (!(value.isEmpty || decide (byteLength value > 1) && value.head? == some '0'))
    (name ++ " is not canonical")
  orError (parseUInt u64Bound value) (name ++ " is not an unsigned integer")

def optionalU64 (value : Option ℕ) : Text := value.elim ['-'] display

def parseOptionalU64 (name : String) (value : Text) : Except String (Option ℕ) :=
  if value = ['-'] then .ok none else (parseU64 name value).map some

def isWordChar (c : Char) : Bool := isAsciiAlphanumeric c || (lit "_.:-").contains c

/-- A value that stands in a field: some characters of an identifier. -/
structure IsWord (value : Text) : Prop where
  ne : value ≠ []
  short : value.length ≤ 64
  chars : value.all isWordChar = true

variable {value : Text}

theorem IsWord.notMem (h : IsWord value) {c : Char} (hc : isWordChar c = false) : c ∉ value := by
  intro hmem
  rw [all_eq_true.mp h.chars c hmem] at hc
  cases hc

def isFieldName (name : String) : Bool :=
  (lit name).all isWordChar && decide ((lit name).length ≤ 64)

variable {name : String}

theorem isFieldName_chars (h : isFieldName name = true) : ∀ c ∈ lit name, isWordChar c = true :=
  all_eq_true.mp (Bool.and_eq_true_iff.mp h).1

theorem field_line (hname : isFieldName name = true) (hvalue : IsWord value)
    (rest : OrderedRecord) :
    OrderedRecord.field (fieldLine (name, value) :: rest) name = .ok (value, rest) := by
  have htab : isWordChar '\t' = false := by decide
  have hsplit : splitOnce '\t' (fieldLine (name, value)) = some (lit name, value) := by
    refine splitOnce_append value fun hmem => ?_
    rw [isFieldName_chars hname _ hmem] at htab
    cases htab
  have hempty : value.isEmpty = false := by simpa using hvalue.ne
  have hcontains : value.contains '\t' = false := by simpa using hvalue.notMem htab
  simp only [OrderedRecord.field, head?_cons, orError, hsplit, bne_self_eq_false, hempty,
    hcontains, Bool.or_self, Bool.not_false, check_true, tail_cons, bind, Except.bind, pure,
    Except.pure]

theorem forall_mem_of_all {α : Type} {p : α → Prop} [DecidablePred p] {l : List α}
    (h : l.all (fun a => decide (p a)) = true) : ∀ a ∈ l, p a := fun a ha =>
  of_decide_eq_true (all_eq_true.mp h a ha)

theorem new_recordText {header : Text} {fields : List (String × Text)}
    (hheader : ∀ c ∈ header, c ≠ '\n' ∧ c ≠ '\r' ∧ c ≠ '\x00')
    (hfields : ∀ f ∈ fields, isFieldName f.1 = true ∧ IsWord f.2) :
    OrderedRecord.new (recordText header fields) header = .ok (fields.map fieldLine) := by
  have hline : ∀ f ∈ fields, ∀ c ∈ fieldLine f, isWordChar c = true ∨ c = '\t' := by
    intro f hf c hc
    obtain ⟨hname, hvalue⟩ := hfields f hf
    rcases mem_append.mp hc with hc | hc
    · exact .inl (isFieldName_chars hname c hc)
    · rcases mem_cons.mp hc with rfl | hc
      · exact .inr rfl
      · exact .inl (all_eq_true.mp hvalue.chars c hc)
  have hnot : ∀ d, isWordChar d = false → d ≠ '\t' → ∀ l ∈ fields.map fieldLine, d ∉ l := by
    intro d hd htab l hl hmem
    obtain ⟨f, hf, rfl⟩ := mem_map.mp hl
    rcases hline f hf d hmem with h | h
    · rw [h] at hd
      cases hd
    · exact htab h
  have hlines : lines (recordText header fields) = header :: fields.map fieldLine := by
    rw [recordText, lines_line _ (fun h => (hheader _ h).1 rfl)
        (getLast?_ne_return fun h => (hheader _ h).2.1 rfl),
      lines_printed (hnot '\n' (by decide) (by decide))
        fun l hl => getLast?_ne_return (hnot '\r' (by decide) (by decide) l hl)]
  have hlast : (recordText header fields).getLast? = some '\n' := by
    have hend : ∀ ls : List Text, ∃ t,
        '\n' :: ls.flatMap (fun line => line ++ ['\n']) = t ++ ['\n'] := by
      intro ls
      induction ls using List.reverseRecOn with
      | nil => exact ⟨[], rfl⟩
      | append_singleton ls line _ =>
        refine ⟨'\n' :: ls.flatMap (fun line => line ++ ['\n']) ++ line, ?_⟩
        simp
    obtain ⟨t, ht⟩ := hend (fields.map fieldLine)
    rw [recordText, ht, ← append_assoc, getLast?_concat]
  have hnul : (recordText header fields).contains '\x00' = false := by
    have hnone : '\x00' ∉ recordText header fields := by
      intro hmem
      rcases mem_append.mp hmem with hmem | hmem
      · exact (hheader _ hmem).2.2 rfl
      · rcases mem_cons.mp hmem with hmem | hmem
        · exact absurd hmem (by decide)
        · obtain ⟨l, hl, hmem⟩ := mem_flatMap.mp hmem
          rcases mem_append.mp hmem with hmem | hmem
          · exact hnot '\x00' (by decide) (by decide) l hl hmem
          · exact absurd (mem_singleton.mp hmem) (by decide)
    simpa using hnone
  simp only [OrderedRecord.new, hlast, hnul, hlines, bne_self_eq_false, Bool.or_self,
    Bool.not_false, check_true, head?_cons, beq_self_eq_true, tail_cons, bind,
    Except.bind, pure, Except.pure]

theorem isWordChar_digit {c : Char} (h : c.isDigit = true) : isWordChar c = true := by
  have hrange : '0' ≤ c ∧ c ≤ '9' := by
    simp only [Char.isDigit, Bool.and_eq_true, decide_eq_true_eq, ge_iff_le] at h
    exact h
  simp [isWordChar, isAsciiAlphanumeric, hrange.1, hrange.2]

variable {n : ℕ}

theorem isWord_display (hn : n < u64Bound) : IsWord (display n) := by
  refine ⟨display_ne_nil n, ?_, ?_⟩
  · have hlength := length_display_le (k := 20) (by decide) (lt_trans hn (by decide))
    omega
  · exact all_eq_true.mpr fun _ hc => isWordChar_digit (display_isDigit hc)

theorem isWord_dash : IsWord ['-'] := ⟨by decide, by decide, by decide⟩

theorem head_display (hn : 0 < n) : (display n).head? ≠ some '0' := by
  induction n using Nat.strong_induction_on with
  | _ n ih =>
    rw [display]
    by_cases hsmall : n < 10
    · interval_cases n <;> decide
    · rw [toDigits_of_base_le (by omega) (by omega)]
      have hprev := ih (n / 10) (by omega) (by omega)
      obtain ⟨c, cs, hcs⟩ := exists_cons_of_ne_nil (display_ne_nil (n / 10))
      rw [display] at hcs hprev
      rw [hcs] at hprev ⊢
      exact hprev

theorem parseU64_display (name : String) (hn : n < u64Bound) :
    parseU64 name (display n) = .ok n := by
  have hempty : (display n).isEmpty = false := by simpa using display_ne_nil n
  have hcanonical : (decide (byteLength (display n) > 1) && (display n).head? == some '0') =
      false := by
    rcases Nat.eq_zero_or_pos n with rfl | hpos
    · decide
    · have hhead := head_display hpos
      rw [Bool.and_eq_false_iff]
      right
      simpa using hhead
  simp [parseU64, hempty, hcanonical, parseUInt_display hn, orError, bind, Except.bind]

theorem isWord_optionalU64 {value : Option ℕ} (hvalue : ∀ n, value = some n → n < u64Bound) :
    IsWord (optionalU64 value) := by
  cases value with
  | none => exact isWord_dash
  | some n => exact isWord_display (hvalue n rfl)

theorem display_ne_dash (n : ℕ) : display n ≠ ['-'] := by
  intro h
  have hdigit := display_isDigit (n := n) (c := '-') (by rw [h]; exact mem_cons_self)
  exact absurd hdigit (by decide)

theorem parseOptionalU64_optional (name : String) {value : Option ℕ}
    (hvalue : ∀ n, value = some n → n < u64Bound) :
    parseOptionalU64 name (optionalU64 value) = .ok value := by
  cases value with
  | none => rfl
  | some n =>
    rw [parseOptionalU64, optionalU64, Option.elim_some, if_neg (display_ne_dash n),
      parseU64_display name (hvalue n rfl)]
    rfl

/-- The fields of a fence. -/
structure FenceTexts where
  due : Text
  interval : Text
  config : Text
  route : Text
  runtime : Text
  coordinator : Text
  retry : Text

def FenceTexts.all (t : FenceTexts) : List Text :=
  [t.due, t.interval, t.config, t.route, t.runtime, t.coordinator, t.retry]

def FenceTexts.absent : FenceTexts := ⟨['-'], ['-'], ['-'], ['-'], ['-'], ['-'], ['-']⟩

def FailedAttemptFence.texts (f : FailedAttemptFence) : FenceTexts where
  due := display f.dueUnixS
  interval := display f.intervalS
  config := f.generations.configFingerprint
  route := f.generations.routeFingerprint
  runtime := display f.generations.runtimeSequence
  coordinator := f.generations.coordinatorGeneration
  retry := display f.explicitRetrySequence

def FenceTexts.read (t : FenceTexts) (dueName intervalName runtimeName retryName : String) :
    Except String FailedAttemptFence := do
  let dueUnixS ← parseU64 dueName t.due
  let intervalS ← parseU64 intervalName t.interval
  let runtimeSequence ← parseU64 runtimeName t.runtime
  let explicitRetrySequence ← parseU64 retryName t.retry
  return {
    dueUnixS, intervalS, explicitRetrySequence
    generations := {
      configFingerprint := t.config, routeFingerprint := t.route, runtimeSequence,
      coordinatorGeneration := t.coordinator } }

/-- The numbers of a fence are `u64` values. -/
structure FailedAttemptFence.Fits (f : FailedAttemptFence) : Prop where
  due : f.dueUnixS < u64Bound
  interval : f.intervalS < u64Bound
  runtime : f.generations.runtimeSequence < u64Bound
  retry : f.explicitRetrySequence < u64Bound

theorem FailedAttemptFence.Fits.read {f : FailedAttemptFence} (h : f.Fits)
    (dueName intervalName runtimeName retryName : String) :
    f.texts.read dueName intervalName runtimeName retryName = .ok f := by
  simp only [FenceTexts.read, texts, parseU64_display _ h.due, parseU64_display _ h.interval,
    parseU64_display _ h.runtime, parseU64_display _ h.retry, bind, Except.bind, pure, Except.pure]

theorem length_le_byteLength (t : Text) : t.length ≤ byteLength t := by
  induction t with
  | nil => exact le_refl _
  | cons c t ih =>
    have hsize := c.utf8Size_pos
    rw [byteLength_cons, length_cons]
    omega

theorem isWord_lowerHex (hn : 1 < n) (hn' : n ≤ 64) (h : lowerHex n value = true) :
    IsWord value ∧ value ≠ ['-'] := by
  simp only [lowerHex, Bool.and_eq_true, beq_iff_eq] at h
  obtain ⟨hlength, hchars⟩ := h
  have hdash : value ≠ ['-'] := by
    rintro rfl
    have hone : byteLength ['-'] = 1 := by decide
    omega
  refine ⟨⟨?_, ?_, all_eq_true.mpr fun c hc => ?_⟩, hdash⟩
  · rintro rfl
    rw [byteLength_nil] at hlength
    omega
  · have hbytes := length_le_byteLength value
    omega
  · have hrange := all_eq_true.mp hchars c hc
    simp only [Bool.or_eq_true, Bool.and_eq_true, decide_eq_true_eq] at hrange
    rcases hrange with hdigit | hletter
    · simp [isWordChar, isAsciiAlphanumeric, hdigit.1, hdigit.2]
    · have hz : c ≤ 'z' := Char.le_trans hletter.2 (by decide)
      simp [isWordChar, isAsciiAlphanumeric, hletter.1, hz]

theorem requireLowerHex_ok (h : requireLowerHex name value n = .ok ()) : lowerHex n value = true :=
  check_ok.1 h

theorem FailedAttemptFence.texts_word {f : FailedAttemptFence} (h : f.validate = .ok ())
    (hfits : f.Fits) : ∀ t ∈ f.texts.all, IsWord t ∧ t ≠ ['-'] := by
  simp only [validate, SchedulerGenerations.validate, andThen_eq_ok] at h
  obtain ⟨-, hconfig, hroute, -, hcoordinator⟩ := h
  have hnumber : ∀ {n}, n < u64Bound → IsWord (display n) ∧ display n ≠ ['-'] := fun hn =>
    ⟨isWord_display hn, display_ne_dash _⟩
  intro t ht
  simp only [FenceTexts.all, texts, mem_cons, not_mem_nil, or_false] at ht
  rcases ht with rfl | rfl | rfl | rfl | rfl | rfl | rfl
  · exact hnumber hfits.due
  · exact hnumber hfits.interval
  · exact isWord_lowerHex (by decide) (by decide) (requireLowerHex_ok hconfig)
  · exact isWord_lowerHex (by decide) (by decide) (requireLowerHex_ok hroute)
  · exact hnumber hfits.runtime
  · exact isWord_lowerHex (by decide) (by decide) (requireLowerHex_ok hcoordinator)
  · exact hnumber hfits.retry

def optionalGroup {β : Type} (texts : List Text) (read : Except String β) (partialGroup : String) :
    Except String (Option β) :=
  if texts.all (· == ['-']) then .ok none
  else if texts.all (· != ['-']) then read.map some
  else .error partialGroup

theorem optionalGroup_present {β : Type} {texts : List Text} {read : Except String β} {b : β}
    {partialGroup : String} (hne : texts ≠ []) (h : ∀ t ∈ texts, t ≠ ['-']) (hread : read = .ok b) :
    optionalGroup texts read partialGroup = .ok (some b) := by
  have hall : texts.all (· != ['-']) = true := by
    rw [all_eq_true]
    intro t ht
    simpa using h t ht
  have hnone : ¬texts.all (· == ['-']) = true := by
    intro hdash
    obtain ⟨t, rest, rfl⟩ := exists_cons_of_ne_nil hne
    exact h t mem_cons_self (eq_of_beq (all_eq_true.mp hdash t mem_cons_self))
  rw [optionalGroup, if_neg hnone, if_pos hall, hread]
  rfl

def cursorHeader : Text := lit "cake-autorate-native-schedule\t2"

namespace ScheduleCursor

def fenceTexts (c : ScheduleCursor) : FenceTexts :=
  c.failedAttempt.elim .absent FailedAttemptFence.texts

/-- `encode`, the fields. -/
def fields (c : ScheduleCursor) : List (String × Text) := [ ("instance", c.instance_),
  ("sequence", display c.sequence),
  ("initial_due_unix_s", display c.initialDueUnixS),
  ("last_success_unix_s", optionalU64 c.lastSuccessUnixS),
  ("failed_due_unix_s", c.fenceTexts.due),
  ("failed_interval_s", c.fenceTexts.interval),
  ("failed_config_fingerprint", c.fenceTexts.config),
  ("failed_route_fingerprint", c.fenceTexts.route),
  ("failed_runtime_sequence", c.fenceTexts.runtime),
  ("failed_coordinator_generation", c.fenceTexts.coordinator),
  ("failed_explicit_retry_sequence", c.fenceTexts.retry)]

def encode (c : ScheduleCursor) : Except String Text :=
  encodeWith validate (fun c => recordText cursorHeader c.fields) c

/-- `decode`, the fields. -/
def readFields (input : Text) : Except String ScheduleCursor := do
  let record ← OrderedRecord.new input cursorHeader
  let (instance_, record) ← record.field "instance"
  let (sequence, record) ← record.field "sequence"
  let sequence ← parseU64 "scheduler sequence" sequence
  let (initialDue, record) ← record.field "initial_due_unix_s"
  let initialDueUnixS ← parseU64 "scheduler initial due time" initialDue
  let (lastSuccess, record) ← record.field "last_success_unix_s"
  let lastSuccessUnixS ← parseOptionalU64 "scheduler last success" lastSuccess
  let (due, record) ← record.field "failed_due_unix_s"
  let (interval, record) ← record.field "failed_interval_s"
  let (config, record) ← record.field "failed_config_fingerprint"
  let (route, record) ← record.field "failed_route_fingerprint"
  let (runtime, record) ← record.field "failed_runtime_sequence"
  let (coordinator, record) ← record.field "failed_coordinator_generation"
  let (retry, record) ← record.field "failed_explicit_retry_sequence"
  record.finish
  let texts : FenceTexts := { due, interval, config, route, runtime, coordinator, retry }
  let failedAttempt ← optionalGroup texts.all
    (texts.read "failed scheduler due time" "failed scheduler interval"
      "failed scheduler runtime sequence" "failed scheduler retry sequence")
    "scheduler failed-attempt fence is partial"
  return { instance_, sequence, initialDueUnixS, lastSuccessUnixS, failedAttempt }

def decode : Text → Except String ScheduleCursor :=
  decodeWith readFields validate encode "scheduler cursor record is not canonical"

/-- The numbers of a cursor are `u64` values. -/
structure Fits (c : ScheduleCursor) : Prop where
  sequence : c.sequence < u64Bound
  initialDue : c.initialDueUnixS < u64Bound
  lastSuccess : ∀ n, c.lastSuccessUnixS = some n → n < u64Bound
  fence : ∀ f, c.failedAttempt = some f → f.Fits

variable {c : ScheduleCursor}

theorem instance_word (h : requireIdentifier name value = .ok ()) : IsWord value := by
  have hvalid := check_ok.1 h
  simp only [Bool.not_eq_true', Bool.or_eq_false_iff, Bool.not_eq_false',
    decide_eq_false_iff_not] at hvalid
  refine ⟨?_, ?_, hvalid.2⟩
  · rintro rfl
    exact absurd hvalid.1.1 (by decide)
  · have hbytes := length_le_byteLength value
    omega

section

variable (h : c.validate = .ok ()) (hfits : c.Fits)
include h hfits

theorem fenceTexts_word : ∀ t ∈ c.fenceTexts.all, IsWord t := by
  obtain ⟨-, -, -, hfence⟩ := validate_eq_ok.1 h
  cases hfailed : c.failedAttempt with
  | none =>
    intro t ht
    rw [fenceTexts, hfailed] at ht
    have hdash : t = ['-'] := by
      simpa [FenceTexts.absent, FenceTexts.all] using ht
    rw [hdash]
    exact isWord_dash
  | some f =>
    rw [validateFence, hfailed] at hfence
    intro t ht
    rw [fenceTexts, hfailed] at ht
    exact (f.texts_word hfence (hfits.fence f hfailed) t ht).1

theorem fenceGroup_read (dueName intervalName runtimeName retryName partialGroup : String) :
    optionalGroup c.fenceTexts.all
      (c.fenceTexts.read dueName intervalName runtimeName retryName) partialGroup =
      .ok c.failedAttempt := by
  obtain ⟨-, -, -, hfence⟩ := validate_eq_ok.1 h
  cases hfailed : c.failedAttempt with
  | none =>
    rw [fenceTexts, hfailed]
    rfl
  | some f =>
    rw [validateFence, hfailed] at hfence
    rw [fenceTexts, hfailed]
    have hfence' := hfits.fence f hfailed
    exact optionalGroup_present (cons_ne_nil _ _)
      (fun t ht => (f.texts_word hfence hfence' t ht).2) (hfence'.read ..)

theorem fields_word : ∀ f ∈ c.fields, isFieldName f.1 = true ∧ IsWord f.2 := by
  obtain ⟨hinstance, -, -, -⟩ := validate_eq_ok.1 h
  have hfence := fenceTexts_word h hfits
  simp only [FenceTexts.all, forall_mem_cons, not_mem_nil, false_imp_iff,
    implies_true, and_true] at hfence
  obtain ⟨hdue, hinterval, hconfig, hroute, hruntime, hcoordinator, hretry⟩ := hfence
  simp only [fields, forall_mem_cons, not_mem_nil, false_imp_iff, implies_true, and_true]
  exact ⟨⟨by decide, instance_word hinstance⟩, ⟨by decide, isWord_display hfits.sequence⟩,
    ⟨by decide, isWord_display hfits.initialDue⟩,
    ⟨by decide, isWord_optionalU64 hfits.lastSuccess⟩, ⟨by decide, hdue⟩,
    ⟨by decide, hinterval⟩, ⟨by decide, hconfig⟩, ⟨by decide, hroute⟩, ⟨by decide, hruntime⟩,
    ⟨by decide, hcoordinator⟩, ⟨by decide, hretry⟩⟩

/-- **A cursor** is read back from its fields. -/
theorem readFields_recordText : readFields (recordText cursorHeader c.fields) = .ok c := by
  have hwords := fields_word h hfits
  have hnew := @new_recordText cursorHeader _ (forall_mem_of_all (by decide)) hwords
  simp only [fields, forall_mem_cons, not_mem_nil, false_imp_iff, implies_true, and_true] at hwords
  obtain ⟨⟨-, hinstance⟩, ⟨-, hsequence⟩, ⟨-, hinitial⟩, ⟨-, hlast⟩, ⟨-, hdue⟩, ⟨-, hinterval⟩,
    ⟨-, hconfig⟩, ⟨-, hroute⟩, ⟨-, hruntime⟩, ⟨-, hcoordinator⟩, -, hretry⟩ := hwords
  let texts : FenceTexts := ⟨c.fenceTexts.due, c.fenceTexts.interval, c.fenceTexts.config,
    c.fenceTexts.route, c.fenceTexts.runtime, c.fenceTexts.coordinator, c.fenceTexts.retry⟩
  have hgroup : optionalGroup texts.all (texts.read "failed scheduler due time"
      "failed scheduler interval" "failed scheduler runtime sequence"
      "failed scheduler retry sequence") "scheduler failed-attempt fence is partial" =
      .ok c.failedAttempt := fenceGroup_read h hfits _ _ _ _ _
  unfold readFields
  rw [hnew]
  simp (disch := first | assumption | decide)
    only [fields, map_cons, map_nil, bind, Except.bind, field_line,
      parseU64_display _ hfits.sequence, parseU64_display _ hfits.initialDue,
      parseOptionalU64_optional _ hfits.lastSuccess, OrderedRecord.finish, isEmpty_nil,
      check_true, pure, Except.pure]
  rw [hgroup]

end

/-- **The cursor's record** is canonical. -/
theorem canonical : Canonical Fits validate encode decode :=
  canonical_of_reads fun _ hfits hvalid => readFields_recordText hvalid hfits

theorem encode_valid (h : c.validate = .ok ()) :
    c.encode = .ok (recordText cursorHeader c.fields) := encodeWith_valid h

end ScheduleCursor

def budgetHeader : Text := lit "cake-autorate-native-schedule-budget\t2"

/-- The fields of a reservation. -/
structure ReservationTexts where
  id : Text
  job : Text
  day : Text
  month : Text
  bytes : Text
  authority : FenceTexts

def ReservationTexts.all (t : ReservationTexts) : List Text :=
  t.id :: t.job :: t.day :: t.month :: t.bytes :: t.authority.all

def ReservationTexts.absent : ReservationTexts := ⟨['-'], ['-'], ['-'], ['-'], ['-'], .absent⟩

def BudgetReservation.texts (r : BudgetReservation) : ReservationTexts where
  id := r.reservationId
  job := r.jobId
  day := r.day
  month := r.month
  bytes := display r.reservedBytes
  authority := r.authority.texts

def ReservationTexts.read (t : ReservationTexts) : Except String BudgetReservation := do
  let reservedBytes ← parseU64 "scheduler reservation" t.bytes
  let authority ← t.authority.read "scheduler reservation due time"
    "scheduler reservation interval" "scheduler reservation runtime sequence"
    "scheduler reservation retry sequence"
  return {
    reservationId := t.id, jobId := t.job, day := t.day, month := t.month, reservedBytes,
    authority }

theorem validatePeriod_ok {day month : Text} (h : validatePeriod day month = .ok ()) :
    (IsWord day ∧ day ≠ ['-']) ∧ IsWord month ∧ month ≠ ['-'] := by
  simp only [validatePeriod, andThen_eq_ok] at h
  have hvalid := check_ok.1 h.1
  simp only [Bool.not_eq_true', Bool.or_eq_false_iff, bne_eq_false_iff_eq, Bool.not_eq_false'] at hvalid
  obtain ⟨⟨⟨⟨hday, hmonth⟩, hdayDigits⟩, hmonthDigits⟩, -⟩ := hvalid
  have hdigits : ∀ {t : Text} {n : ℕ}, 1 < n → n ≤ 64 → byteLength t = n →
      t.all Char.isDigit = true → IsWord t ∧ t ≠ ['-'] := by
    intro t n hn hn' hlength hall
    refine ⟨⟨?_, ?_, ?_⟩, ?_⟩
    · rintro rfl
      rw [byteLength_nil] at hlength
      omega
    · have hbytes := length_le_byteLength t
      omega
    · rw [all_eq_true] at hall ⊢
      exact fun c hc => isWordChar_digit (hall c hc)
    · rintro rfl
      exact absurd hall (by decide)
  exact ⟨hdigits (by decide) (by decide) hday hdayDigits,
    hdigits (by decide) (by decide) hmonth hmonthDigits⟩

theorem accounted_lt (h : validateAccountedBytes name n = .ok ()) : n < u64Bound := by
  have hle : n ≤ maxExactBytes := by simpa using check_ok.1 h
  rw [maxExactBytes] at hle
  rw [u64Bound]
  omega

theorem BudgetReservation.texts_word {r : BudgetReservation} (h : r.validate = .ok ())
    (hfits : r.authority.Fits) : ∀ t ∈ r.texts.all, IsWord t ∧ t ≠ ['-'] := by
  simp only [validate, andThen_eq_ok] at h
  obtain ⟨hid, hjob, hperiod, hauthority, -, hbytes⟩ := h
  obtain ⟨hday, hmonth⟩ := validatePeriod_ok hperiod
  intro t ht
  simp only [ReservationTexts.all, texts, mem_cons] at ht
  rcases ht with rfl | rfl | rfl | rfl | rfl | ht
  · exact isWord_lowerHex (by decide) (by decide) (requireLowerHex_ok hid)
  · exact isWord_lowerHex (by decide) (by decide) (requireLowerHex_ok hjob)
  · exact hday
  · exact hmonth
  · exact ⟨isWord_display (accounted_lt hbytes), display_ne_dash _⟩
  · exact r.authority.texts_word hauthority hfits t ht

theorem BudgetReservation.texts_read {r : BudgetReservation} (h : r.validate = .ok ())
    (hfits : r.authority.Fits) : r.texts.read = .ok r := by
  simp only [validate, andThen_eq_ok] at h
  simp only [ReservationTexts.read, texts, parseU64_display _ (accounted_lt h.2.2.2.2.2),
    hfits.read, bind, Except.bind, pure, Except.pure]

namespace BudgetLedger

def reservationTexts (l : BudgetLedger) : ReservationTexts :=
  l.reservation.elim .absent BudgetReservation.texts

/-- `encode`, the fields. -/
def fields (l : BudgetLedger) : List (String × Text) := [ ("instance", l.instance_),
  ("sequence", display l.sequence),
  ("day", l.day),
  ("month", l.month),
  ("daily_limit_bytes", display l.dailyLimitBytes),
  ("monthly_limit_bytes", display l.monthlyLimitBytes),
  ("daily_charged_bytes", display l.dailyChargedBytes),
  ("monthly_charged_bytes", display l.monthlyChargedBytes),
  ("accounting_blocked", if l.accountingBlocked then ['1'] else ['0']),
  ("reservation_id", l.reservationTexts.id),
  ("reservation_job_id", l.reservationTexts.job),
  ("reservation_day", l.reservationTexts.day),
  ("reservation_month", l.reservationTexts.month),
  ("reservation_bytes", l.reservationTexts.bytes),
  ("reservation_due_unix_s", l.reservationTexts.authority.due),
  ("reservation_interval_s", l.reservationTexts.authority.interval),
  ("reservation_config_fingerprint", l.reservationTexts.authority.config),
  ("reservation_route_fingerprint", l.reservationTexts.authority.route),
  ("reservation_runtime_sequence", l.reservationTexts.authority.runtime),
  ("reservation_coordinator_generation", l.reservationTexts.authority.coordinator),
  ("reservation_explicit_retry_sequence", l.reservationTexts.authority.retry)]

def encode (l : BudgetLedger) : Except String Text :=
  encodeWith validate (fun l => recordText budgetHeader l.fields) l

/-- `decode`, the accounting flag. -/
def readFlag (value : Text) : Except String Bool :=
  if value = ['0'] then .ok false
  else if value = ['1'] then .ok true
  else .error "scheduler accounting flag is invalid"

/-- `decode`, the fields. -/
def readFields (input : Text) : Except String BudgetLedger := do
  let record ← OrderedRecord.new input budgetHeader
  let (instance_, record) ← record.field "instance"
  let (sequence, record) ← record.field "sequence"
  let sequence ← parseU64 "scheduler budget sequence" sequence
  let (day, record) ← record.field "day"
  let (month, record) ← record.field "month"
  let (dailyLimit, record) ← record.field "daily_limit_bytes"
  let dailyLimitBytes ← parseU64 "daily scheduler limit" dailyLimit
  let (monthlyLimit, record) ← record.field "monthly_limit_bytes"
  let monthlyLimitBytes ← parseU64 "monthly scheduler limit" monthlyLimit
  let (dailyCharged, record) ← record.field "daily_charged_bytes"
  let dailyChargedBytes ← parseU64 "daily scheduler charge" dailyCharged
  let (monthlyCharged, record) ← record.field "monthly_charged_bytes"
  let monthlyChargedBytes ← parseU64 "monthly scheduler charge" monthlyCharged
  let (flag, record) ← record.field "accounting_blocked"
  let accountingBlocked ← readFlag flag
  let (id, record) ← record.field "reservation_id"
  let (job, record) ← record.field "reservation_job_id"
  let (reservationDay, record) ← record.field "reservation_day"
  let (reservationMonth, record) ← record.field "reservation_month"
  let (bytes, record) ← record.field "reservation_bytes"
  let (due, record) ← record.field "reservation_due_unix_s"
  let (interval, record) ← record.field "reservation_interval_s"
  let (config, record) ← record.field "reservation_config_fingerprint"
  let (route, record) ← record.field "reservation_route_fingerprint"
  let (runtime, record) ← record.field "reservation_runtime_sequence"
  let (coordinator, record) ← record.field "reservation_coordinator_generation"
  let (retry, record) ← record.field "reservation_explicit_retry_sequence"
  record.finish
  let texts : ReservationTexts :=
    { id, job, day := reservationDay, month := reservationMonth, bytes
      authority := { due, interval, config, route, runtime, coordinator, retry } }
  let reservation ← optionalGroup texts.all texts.read "scheduler budget reservation is partial"
  return {
    instance_, sequence, day, month, dailyLimitBytes, monthlyLimitBytes, dailyChargedBytes,
    monthlyChargedBytes, accountingBlocked, reservation }

def decode : Text → Except String BudgetLedger :=
  decodeWith readFields validate encode "scheduler budget record is not canonical"

/-- The numbers of a ledger that its checks do not bound are `u64` values. -/
structure Fits (l : BudgetLedger) : Prop where
  sequence : l.sequence < u64Bound
  reservation : ∀ r, l.reservation = some r → r.authority.Fits

variable {l : BudgetLedger}

section

variable (h : l.validateReservation = .ok ())
include h

theorem reservation_valid {r : BudgetReservation} (hr : l.reservation = some r) :
    r.validate = .ok () := by
  simp only [validateReservation, hr, andThen_eq_ok] at h
  exact h.1

theorem reservationTexts_word (hfits : l.Fits) : ∀ t ∈ l.reservationTexts.all, IsWord t := by
  cases hreservation : l.reservation with
  | none =>
    intro t ht
    rw [reservationTexts, hreservation] at ht
    have hdash : t = ['-'] := by
      simpa [ReservationTexts.absent, ReservationTexts.all, FenceTexts.absent,
        FenceTexts.all] using ht
    rw [hdash]
    exact isWord_dash
  | some r =>
    intro t ht
    rw [reservationTexts, hreservation] at ht
    exact (r.texts_word (reservation_valid h hreservation)
      (hfits.reservation r hreservation) t ht).1

theorem reservationGroup_read (hfits : l.Fits) (partialGroup : String) :
    optionalGroup l.reservationTexts.all l.reservationTexts.read partialGroup =
      .ok l.reservation := by
  cases hreservation : l.reservation with
  | none =>
    rw [reservationTexts, hreservation]
    rfl
  | some r =>
    have hvalid := reservation_valid h hreservation
    rw [reservationTexts, hreservation]
    have hauthority := hfits.reservation r hreservation
    exact optionalGroup_present (cons_ne_nil _ _)
      (fun t ht => (r.texts_word hvalid hauthority t ht).2) (r.texts_read hvalid hauthority)

end

theorem fields_word (h : l.validate = .ok ()) (hfits : l.Fits) :
    ∀ f ∈ l.fields, isFieldName f.1 = true ∧ IsWord f.2 := by
  simp only [validate, andThen_eq_ok] at h
  obtain ⟨hinstance, -, hperiod, hdailyLimit, hmonthlyLimit, hdailyCharged, hmonthlyCharged, -,
    hreservation⟩ := h
  obtain ⟨⟨hday, -⟩, hmonth, -⟩ := validatePeriod_ok hperiod
  have htexts := reservationTexts_word hreservation hfits
  simp only [ReservationTexts.all, FenceTexts.all, forall_mem_cons, not_mem_nil,
    false_imp_iff, implies_true, and_true] at htexts
  obtain ⟨hid, hjob, hrday, hrmonth, hbytes, hdue, hinterval, hconfig, hroute, hruntime,
    hcoordinator, hretry⟩ := htexts
  have hflag : IsWord (if l.accountingBlocked then ['1'] else ['0']) := by
    cases l.accountingBlocked
    · exact ⟨by decide, by decide, by decide⟩
    · exact ⟨by decide, by decide, by decide⟩
  simp only [fields, forall_mem_cons, not_mem_nil, false_imp_iff, implies_true, and_true]
  exact ⟨⟨by decide, instance_word hinstance⟩,
    ⟨by decide, isWord_display hfits.sequence⟩, ⟨by decide, hday⟩, ⟨by decide, hmonth⟩,
    ⟨by decide, isWord_display (accounted_lt hdailyLimit)⟩,
    ⟨by decide, isWord_display (accounted_lt hmonthlyLimit)⟩,
    ⟨by decide, isWord_display (accounted_lt hdailyCharged)⟩,
    ⟨by decide, isWord_display (accounted_lt hmonthlyCharged)⟩, ⟨by decide, hflag⟩,
    ⟨by decide, hid⟩, ⟨by decide, hjob⟩, ⟨by decide, hrday⟩, ⟨by decide, hrmonth⟩,
    ⟨by decide, hbytes⟩, ⟨by decide, hdue⟩, ⟨by decide, hinterval⟩, ⟨by decide, hconfig⟩,
    ⟨by decide, hroute⟩, ⟨by decide, hruntime⟩, ⟨by decide, hcoordinator⟩, ⟨by decide, hretry⟩⟩

/-- **A ledger** is read back from its fields. -/
theorem readFields_recordText (h : l.validate = .ok ()) (hfits : l.Fits) :
    readFields (recordText budgetHeader l.fields) = .ok l := by
  have hwords := fields_word h hfits
  have hnew := @new_recordText budgetHeader _ (forall_mem_of_all (by decide)) hwords
  simp only [fields, forall_mem_cons, not_mem_nil, false_imp_iff, implies_true, and_true] at hwords
  obtain ⟨⟨-, hinstance⟩, ⟨-, hsequence⟩, ⟨-, hday⟩, ⟨-, hmonth⟩, ⟨-, hdl⟩, ⟨-, hml⟩, ⟨-, hdc⟩,
    ⟨-, hmc⟩, ⟨-, hflag⟩, ⟨-, hid⟩, ⟨-, hjob⟩, ⟨-, hrday⟩, ⟨-, hrmonth⟩, ⟨-, hbytes⟩, ⟨-, hdue⟩,
    ⟨-, hinterval⟩, ⟨-, hconfig⟩, ⟨-, hroute⟩, ⟨-, hruntime⟩, ⟨-, hcoordinator⟩, -, hretry⟩ :=
    hwords
  simp only [validate, andThen_eq_ok] at h
  obtain ⟨-, -, -, hdailyLimit, hmonthlyLimit, hdailyCharged, hmonthlyCharged, -, hreservation⟩ := h
  have hreadFlag : readFlag (if l.accountingBlocked then ['1'] else ['0']) =
      .ok l.accountingBlocked := by
    cases l.accountingBlocked <;> rfl
  let texts : ReservationTexts := ⟨l.reservationTexts.id, l.reservationTexts.job,
    l.reservationTexts.day, l.reservationTexts.month, l.reservationTexts.bytes,
    ⟨l.reservationTexts.authority.due, l.reservationTexts.authority.interval,
      l.reservationTexts.authority.config, l.reservationTexts.authority.route,
      l.reservationTexts.authority.runtime, l.reservationTexts.authority.coordinator,
      l.reservationTexts.authority.retry⟩⟩
  have hgroup : optionalGroup texts.all texts.read "scheduler budget reservation is partial" =
      .ok l.reservation := reservationGroup_read hreservation hfits _
  unfold readFields
  rw [hnew]
  simp (disch := first | assumption | decide)
    only [fields, map_cons, map_nil, bind, Except.bind, field_line,
      parseU64_display _ hfits.sequence, parseU64_display _ (accounted_lt hdailyLimit),
      parseU64_display _ (accounted_lt hmonthlyLimit),
      parseU64_display _ (accounted_lt hdailyCharged),
      parseU64_display _ (accounted_lt hmonthlyCharged), hreadFlag, OrderedRecord.finish,
      isEmpty_nil, check_true, pure, Except.pure]
  rw [hgroup]

/-- **The ledger's record** is canonical. -/
theorem canonical : Canonical Fits validate encode decode :=
  canonical_of_reads fun _ hfits hvalid => readFields_recordText hvalid hfits

theorem encode_valid (h : l.validate = .ok ()) :
    l.encode = .ok (recordText budgetHeader l.fields) := encodeWith_valid h

end BudgetLedger

/-- `INSTANCE_STATE_HEADER_V2`. -/
def instanceStateHeader : Text := lit "cake-autorate-native-scheduler-state\t2"

/-- `str::splitn`. -/
def splitN (c : Char) : ℕ → Text → List Text
  | 0, _ => []
  | 1, t => [t]
  | n + 2, t =>
    match splitOnce c t with
    | none => [t]
    | some (first, rest) => first :: splitN c (n + 1) rest

theorem splitN_line {c : Char} {line : Text} (h : c ∉ line) (n : ℕ) (rest : Text) :
    splitN c (n + 2) (line ++ c :: rest) = line :: splitN c (n + 1) rest := by
  rw [splitN, splitOnce_append rest h]

/-- `parse_length_field`.  A `usize` has 64 bits. -/
def parseLengthField (expected : String) (line : Text) : Except String ℕ := do
  let parts ← orError (splitOnce '\t' line) "scheduler instance state length field is malformed"
  if parts.1 ≠ lit expected then
    .error ("scheduler instance state expected " ++ expected ++ ", found " ++ String.ofList parts.1)
  else parseU64 "scheduler instance state payload length" parts.2

theorem parseLengthField_line (hname : isFieldName name = true) (hn : n < u64Bound) :
    parseLengthField name (fieldLine (name, display n)) = .ok n := by
  have hsplit : splitOnce '\t' (fieldLine (name, display n)) = some (lit name, display n) := by
    refine splitOnce_append _ fun hmem => ?_
    exact absurd (isFieldName_chars hname _ hmem) (by decide)
  simp [parseLengthField, hsplit, orError, bind, Except.bind, parseU64_display _ hn]

namespace SchedulerInstanceState

def partsText (cursor budget warning : Text) : Text :=
  instanceStateHeader ++ '\n' :: fieldLine ("cursor_bytes", display (byteLength cursor)) ++
    '\n' :: fieldLine ("budget_bytes", display (byteLength budget)) ++
    '\n' :: fieldLine ("warning_bytes", display (byteLength warning)) ++
    '\n' :: cursor ++ budget ++ warning

def encode (s : SchedulerInstanceState) : Except String Text := do
  s.validate
  let cursor ← s.cursor.encode
  let budget ← s.budget.encode
  return partsText cursor budget (s.operatorWarning.getD [])

/-- `decode`, the lines of the lengths and the bytes of the parts. -/
def readParts (input : Text) : Except String (List UInt8 × List UInt8 × List UInt8) := do
  let ls := splitN '\n' 5 input
  check (ls[0]? == some instanceStateHeader) "scheduler instance state header is invalid"
  let cursorBytes ← parseLengthField "cursor_bytes"
    (← orError ls[1]? "scheduler instance state is missing cursor length")
  let budgetBytes ← parseLengthField "budget_bytes"
    (← orError ls[2]? "scheduler instance state is missing budget length")
  let warningBytes ← parseLengthField "warning_bytes"
    (← orError ls[3]? "scheduler instance state is missing warning length")
  let payload ← orError ls[4]? "scheduler instance state is missing its payload"
  let both ← checkedAdd cursorBytes budgetBytes "scheduler instance state length overflow"
  let expected ← checkedAdd both warningBytes "scheduler instance state length overflow"
  check ((utf8 payload).length == expected) "scheduler instance state payload length mismatch"
  let remainder := (utf8 payload).drop cursorBytes
  return ((utf8 payload).take cursorBytes, remainder.take budgetBytes, remainder.drop budgetBytes)

/-- `decode`, the warning. -/
def readWarning (bytes : List UInt8) : Except String (Option Text) :=
  if bytes.isEmpty then .ok none
  else (orError (fromUtf8 bytes) "scheduler operator warning is not UTF-8").map some

/-- `decode`, the state. -/
def readState (input : Text) : Except String SchedulerInstanceState := do
  let (cursor, budget, warning) ← readParts input
  let cursor ← orError (fromUtf8 cursor) "scheduler cursor state is not UTF-8"
  let budget ← orError (fromUtf8 budget) "scheduler budget state is not UTF-8"
  let cursor ← decode cursor
  let budget ← BudgetLedger.decode budget
  let state ← new cursor budget
  let operatorWarning ← readWarning warning
  return { state with operatorWarning }

def decode : Text → Except String SchedulerInstanceState :=
  decodeWith readState validate encode "scheduler instance state is not canonical"

def text (s : SchedulerInstanceState) : Text :=
  partsText (recordText cursorHeader s.cursor.fields) (recordText budgetHeader s.budget.fields)
    (s.operatorWarning.getD [])

/-- The numbers of a state are `u64` values. -/
structure Fits (s : SchedulerInstanceState) : Prop where
  cursor : s.cursor.Fits
  budget : s.budget.Fits

variable {s : SchedulerInstanceState}

theorem encode_eq : encode = encodeWith validate text := by
  funext s
  cases hvalid : s.validate with
  | error e => simp [encode, encodeWith, hvalid, bind, Except.bind]
  | ok u =>
    obtain ⟨hcursor, hbudget, -, -⟩ := validate_eq_ok.1 hvalid
    rw [encodeWith_valid hvalid, encode, hvalid, encode_valid hcursor,
      BudgetLedger.encode_valid hbudget]
    rfl

theorem byteLength_recordText {header : Text} {fields : List (String × Text)}
    (hfields : ∀ f ∈ fields, isFieldName f.1 = true ∧ IsWord f.2) :
    byteLength (recordText header fields) ≤ 4 * (header.length + 1 + 130 * fields.length) := by
  have hbody : ((fields.map fieldLine).flatMap fun line => line ++ ['\n']).length ≤
      130 * fields.length := by
    induction fields with
    | nil => exact le_refl _
    | cons f fields ih =>
      obtain ⟨hname, hvalue⟩ := hfields f mem_cons_self
      have hshort := of_decide_eq_true (Bool.and_eq_true_iff.mp hname).2
      have hvalueShort := hvalue.short
      have hrest := ih fun g hg => hfields g (mem_cons_of_mem _ hg)
      simp only [map_cons, flatMap_cons, length_append, fieldLine,
        length_cons, length_nil] at hrest ⊢
      omega
  have hbytes := byteLength_le (recordText header fields)
  rw [recordText, length_append, length_cons] at hbytes
  refine hbytes.trans (mul_le_mul_left 4 ?_)
  rw [add_assoc, add_comm 1]
  exact Nat.add_le_add_left (Nat.succ_le_succ hbody) _

theorem readParts_partsText {cursor budget warning : Text}
    (hlength : byteLength cursor + byteLength budget + byteLength warning < u64Bound) :
    readParts (partsText cursor budget warning) = .ok (utf8 cursor, utf8 budget, utf8 warning) := by
  have hline : ∀ {name : String} (n : ℕ), isFieldName name = true →
      '\n' ∉ fieldLine (name, display n) := by
    intro name n hname hmem
    rcases mem_append.mp hmem with hmem | hmem
    · exact absurd (isFieldName_chars hname _ hmem) (by decide)
    · rcases mem_cons.mp hmem with hmem | hmem
      · exact absurd hmem (by decide)
      · exact absurd (display_isDigit hmem) (by decide)
  have hsplit : splitN '\n' 5 (partsText cursor budget warning) =
      [instanceStateHeader, fieldLine ("cursor_bytes", display (byteLength cursor)),
        fieldLine ("budget_bytes", display (byteLength budget)),
        fieldLine ("warning_bytes", display (byteLength warning)), cursor ++ (budget ++ warning)] := by
    simp only [partsText, append_assoc, cons_append]
    rw [splitN_line (by decide), splitN_line (hline _ (by decide)),
      splitN_line (hline _ (by decide)), splitN_line (hline _ (by decide))]
    rfl
  have hcursor : byteLength cursor < u64Bound := by omega
  have hbudget : byteLength budget < u64Bound := by omega
  have hwarning : byteLength warning < u64Bound := by omega
  have hboth : checkedAdd (byteLength cursor) (byteLength budget)
      "scheduler instance state length overflow" = .ok (byteLength cursor + byteLength budget) :=
    checkedAdd_eq_ok.2 ⟨by omega, rfl⟩
  have hall : checkedAdd (byteLength cursor + byteLength budget) (byteLength warning)
      "scheduler instance state length overflow" =
        .ok (byteLength cursor + byteLength budget + byteLength warning) :=
    checkedAdd_eq_ok.2 ⟨hlength, rfl⟩
  have hpayload : (utf8 (cursor ++ (budget ++ warning))).length =
      byteLength cursor + byteLength budget + byteLength warning := by
    show byteLength (cursor ++ (budget ++ warning)) = _
    rw [byteLength_append, byteLength_append, add_assoc]
  unfold readParts
  rw [hsplit]
  simp (disch := first | assumption | decide)
    only [getElem?_cons_zero, getElem?_cons_succ, beq_self_eq_true, check_true, orError,
      parseLengthField_line, hboth, hall, hpayload, bind, Except.bind, pure, Except.pure]
  have htake : (utf8 cursor ++ (utf8 budget ++ utf8 warning)).take (byteLength cursor) =
      utf8 cursor := take_left
  have hdrop : (utf8 cursor ++ (utf8 budget ++ utf8 warning)).drop (byteLength cursor) =
      utf8 budget ++ utf8 warning := drop_left
  have htake' : (utf8 budget ++ utf8 warning).take (byteLength budget) = utf8 budget :=
    take_left
  have hdrop' : (utf8 budget ++ utf8 warning).drop (byteLength budget) = utf8 warning :=
    drop_left
  rw [utf8_append, utf8_append, htake, hdrop, htake', hdrop']

theorem readWarning_utf8 (h : s.validateWarning = .ok ()) :
    readWarning (utf8 (s.operatorWarning.getD [])) = .ok s.operatorWarning ∧
      byteLength (s.operatorWarning.getD []) ≤ 512 := by
  cases hwarning : s.operatorWarning with
  | none => exact ⟨rfl, by decide⟩
  | some warning =>
    simp only [validateWarning, hwarning] at h
    have hvalid := check_ok.1 h
    simp only [Bool.not_eq_true', Bool.or_eq_false_iff, decide_eq_false_iff_not] at hvalid
    have hbytes : (utf8 warning).isEmpty = false := by
      cases warning with
      | nil => exact absurd hvalid.1.1 (by decide)
      | cons c rest =>
        have hsize := c.utf8Size_pos
        have hlength : byteLength (c :: rest) = (utf8 (c :: rest)).length := rfl
        rw [byteLength_cons] at hlength
        cases hcs : utf8 (c :: rest) with
        | nil =>
          rw [hcs, length_nil] at hlength
          omega
        | cons b bs => rfl
    refine ⟨?_, by simpa using hvalid.1.2⟩
    rw [Option.getD_some, readWarning, hbytes, fromUtf8_utf8]
    rfl

/-- **A state** is read back from its text. -/
theorem readState_text (hfits : s.Fits) (h : s.validate = .ok ()) : readState s.text = .ok s := by
  obtain ⟨hcursor, hbudget, hinstance, hwarning⟩ := validate_eq_ok.1 h
  obtain ⟨hread, hshort⟩ := readWarning_utf8 hwarning
  have hcursorShort : byteLength (recordText cursorHeader s.cursor.fields) ≤ 100000 := by
    refine (byteLength_recordText (fields_word hcursor hfits.cursor)).trans ?_
    show 4 * (cursorHeader.length + 1 + 130 * 11) ≤ 100000
    decide
  have hbudgetShort : byteLength (recordText budgetHeader s.budget.fields) ≤ 100000 := by
    refine (byteLength_recordText (BudgetLedger.fields_word hbudget hfits.budget)).trans ?_
    show 4 * (budgetHeader.length + 1 + 130 * 21) ≤ 100000
    decide
  have hlength : byteLength (recordText cursorHeader s.cursor.fields) +
      byteLength (recordText budgetHeader s.budget.fields) +
        byteLength (s.operatorWarning.getD []) < u64Bound := by
    rw [u64Bound]
    omega
  obtain ⟨_, hcursorText, hcursorRead⟩ := canonical.reads _ hfits.cursor hcursor
  rw [encode_valid hcursor] at hcursorText
  rw [← Except.ok.inj hcursorText] at hcursorRead
  obtain ⟨_, hbudgetText, hbudgetRead⟩ := BudgetLedger.canonical.reads _ hfits.budget hbudget
  rw [BudgetLedger.encode_valid hbudget] at hbudgetText
  rw [← Except.ok.inj hbudgetText] at hbudgetRead
  have hnew : new s.cursor s.budget = .ok ⟨s.cursor, s.budget, none⟩ := by
    have hvalid : validate ⟨s.cursor, s.budget, none⟩ = .ok () :=
      validate_eq_ok.2 ⟨hcursor, hbudget, hinstance, rfl⟩
    simp [new, hvalid, bind, Except.bind, pure, Except.pure]
  unfold readState
  rw [text, readParts_partsText hlength]
  simp only [fromUtf8_utf8, orError, hcursorRead, hbudgetRead, hnew, hread, bind, Except.bind,
    pure, Except.pure]

end SchedulerInstanceState

/-- **The scheduler's records** are canonical: each valid value has one text, and each text that is
read is the one of its value. -/
theorem records_canonical : Canonical ScheduleCursor.Fits validate encode decode ∧
    Canonical BudgetLedger.Fits BudgetLedger.validate BudgetLedger.encode BudgetLedger.decode ∧
    Canonical SchedulerInstanceState.Fits validate
      SchedulerInstanceState.encode SchedulerInstanceState.decode := by
  refine ⟨canonical, BudgetLedger.canonical, ?_⟩
  rw [SchedulerInstanceState.decode, SchedulerInstanceState.encode_eq]
  exact canonical_of_reads fun s hfits hvalid => readState_text hfits hvalid

end CakeAutorate.Scheduler
