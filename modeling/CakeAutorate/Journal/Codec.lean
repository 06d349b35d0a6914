/-
# The record of a journal

`JobJournal::encode` and `JobJournal::decode`: a header, a `name=value` line for each
field in a fixed order, and nothing else.  There are three schemas, the plain one, one
with a runtime owner and one with a publication identity, and a prefix for a job that
needs a history decision.  A valid journal has a record, and it reads back.
-/

import CakeAutorate.Journal.Job
import CakeAutorate.Protocol.Valid

namespace CakeAutorate.Journal

open Wire Protocol List

/-- `JOURNAL_HEADER`, `RUNTIME_OWNER_JOURNAL_HEADER` and `PUBLICATION_JOURNAL_HEADER`. -/
def journalHeader (schema : ℕ) : Text :=
  lit "cake-autorate-calibration\t" ++ display schema ++ lit "\tjournal"

def historyJournalPrefix : Text :=
  lit "cake-autorate-calibration\t5\tjournal\nhistory_decision_required=1\n"

def plainLine (field : Field) : Text := lit field.1 ++ '=' :: field.2

def plainRecord (header : Text) (fields : List Field) : Text :=
  header ++ '\n' :: (fields.map plainLine).flatMap fun line => line ++ ['\n']

namespace JobJournal

variable (j : JobJournal)

def baseFields : List Field :=
  [("job_id", j.jobId), ("boot_id", j.bootId),
    ("coordinator_generation", j.coordinatorGeneration), ("state", lit j.state.asStr),
    ("sequence", display j.sequence.toNat), ("heavy_traffic", boolText j.heavyTraffic),
    ("heavy_lease_acquired", boolText j.heavyLeaseAcquired), ("instance", j.instance_),
    ("target_interface", j.targetInterface), ("sqm_fingerprint", j.sqmFingerprint),
    ("process_pid", optionText (fun p => display p.pid.toNat) j.process),
    ("process_group", optionText (fun p => display p.processGroup.toNat) j.process),
    ("process_starttime", optionText (fun p => display p.starttimeTicks.toNat) j.process),
    ("worker_run_id", j.workerRunId.getD []), ("terminal_kind", j.terminalKind.getD []),
    ("terminal_state", j.terminalState.getD []), ("diagnostic_code", j.diagnosticCode.getD []),
    ("reconcile_attempts", display j.reconcileAttempts.toNat),
    ("runtime_mutated", boolText j.runtimeMutated),
    ("recovery_required", boolText j.recoveryRequired)]

def ownerFields (owner : ProcessIdentity) : List Field :=
  [("runtime_owner_pid", display owner.pid.toNat),
    ("runtime_owner_group", display owner.processGroup.toNat),
    ("runtime_owner_starttime", display owner.starttimeTicks.toNat)]

def schemaFields (schema : ℕ) : List Field :=
  if schema = 3 then (j.runtimeOwnerProcess.map ownerFields).getD []
  else if schema = 4 then
    [("publication_boot_id", j.publicationBootId.getD []),
      ("publication_generation", j.publicationGeneration.getD [])]
  else []

def encodeForSchema (schema : ℕ) : Except String Text := do
  j.validate
  check (!j.historyDecisionRequired) "history-required journal cannot use a legacy schema"
  check (decide (2 ≤ schema ∧ schema ≤ 4)) "unsupported journal encoding schema"
  check (!(schema == 2 && j.runtimeOwnerProcess.isSome))
    "journal schema 2 cannot encode a runtime owner"
  check (!(schema == 3 && j.runtimeOwnerProcess.isNone)) "journal schema 3 requires a runtime owner"
  check (!(schema == 4 && (j.runtimeOwnerProcess.isSome || j.publicationBootId.isNone
      || j.publicationGeneration.isNone)))
    "journal schema 4 requires an inert native publication identity"
  check (!(schema != 4 && (j.publicationBootId.isSome || j.publicationGeneration.isSome)))
    "journal schema 2/3 cannot encode native publication identity"
  let output := plainRecord (journalHeader schema) (j.baseFields ++ j.schemaFields schema)
  check (byteLength output ≤ maxOperationRecordBytes) "journal record exceeds its size bound"
  return output

/-- The schema that `encode` picks. -/
def schema : ℕ :=
  if j.publicationBootId.isSome then 4 else if j.runtimeOwnerProcess.isSome then 3 else 2

def withoutHistory : JobJournal := { j with historyDecisionRequired := false }

def encode : Except String Text :=
  if j.historyDecisionRequired then do
    let inner ← j.withoutHistory.encodeForSchema j.schema
    let encoded := historyJournalPrefix ++ inner
    check (byteLength encoded ≤ maxOperationRecordBytes) "journal record exceeds its size bound"
    return encoded
  else j.encodeForSchema j.schema

end JobJournal

def field (expected : String) : RecordReader Text := fun left =>
  match left with
  | [] => .error ("journal is missing field " ++ expected)
  | line :: rest =>
    match splitOnce '=' line with
    | none => .error ("journal field " ++ expected ++ " is malformed")
    | some (name, value) =>
      if name ≠ lit expected || value.any fun c => c == '\r' || c == '\n' || c == '=' then
        .error ("journal expected field " ++ expected)
      else .ok (value, rest)

/-- `parse_bool` of the journal. -/
def parseFlag (value : Text) : Except String Bool :=
  if value = lit "0" then .ok false
  else if value = lit "1" then .ok true
  else .error "journal boolean is not canonical"

/-- `parse_u64` and `parse_u32` of the journal. -/
def parseNumber {α : Type} (parse : Text → Option α) (name : String) (value : Text) :
    Except String α :=
  orError (parse value) ("journal field " ++ name ++ " is not an unsigned integer")

/-- The three texts of the worker's process. -/
structure ProcessText where
  pid : Text
  group : Text
  starttime : Text

def ProcessText.parse (p : ProcessText) : Except String (Option ProcessIdentity) :=
  match p.pid.isEmpty, p.group.isEmpty, p.starttime.isEmpty with
  | true, true, true => .ok none
  | false, false, false => do
    let pid ← parseNumber parseUInt32 "process_pid" p.pid
    let processGroup ← parseNumber parseUInt32 "process_group" p.group
    let starttimeTicks ← parseNumber parseUInt64 "process_starttime" p.starttime
    return some { pid, processGroup, starttimeTicks }
  | _, _, _ => .error "journal process identity is partial"

namespace JobJournal

/-- `decode`, the fields of every schema. -/
def readBase : RecordReader (JobJournal × ProcessText) := do
  let jobId ← field "job_id"
  let bootId ← field "boot_id"
  let coordinatorGeneration ← field "coordinator_generation"
  let state ← orError (OperationState.parse (← field "state")) "unsupported journal state"
  let sequence ← parseNumber parseUInt64 "sequence" (← field "sequence")
  let heavyTraffic ← parseFlag (← field "heavy_traffic")
  let heavyLeaseAcquired ← parseFlag (← field "heavy_lease_acquired")
  let instance_ ← field "instance"
  let targetInterface ← field "target_interface"
  let sqmFingerprint ← field "sqm_fingerprint"
  let pid ← field "process_pid"
  let group ← field "process_group"
  let starttime ← field "process_starttime"
  let workerRunId := optionalString (← field "worker_run_id")
  let terminalKind := optionalString (← field "terminal_kind")
  let terminalState := optionalString (← field "terminal_state")
  let diagnosticCode := optionalString (← field "diagnostic_code")
  let reconcileAttempts ← parseNumber parseUInt32 "reconcile_attempts" (← field "reconcile_attempts")
  let runtimeMutated ← parseFlag (← field "runtime_mutated")
  let recoveryRequired ← parseFlag (← field "recovery_required")
  return ({
    jobId, bootId, coordinatorGeneration, state, sequence, heavyTraffic, heavyLeaseAcquired,
    instance_, targetInterface, sqmFingerprint, process := none, runtimeOwnerProcess := none,
    workerRunId, terminalKind, terminalState, publicationBootId := none,
    publicationGeneration := none, diagnosticCode, reconcileAttempts, runtimeMutated,
    recoveryRequired, historyDecisionRequired := false }, { pid, group, starttime })

/-- `decode`, the runtime owner of schema 3. -/
def readOwner : RecordReader (Option ProcessIdentity) := do
  let pid ← field "runtime_owner_pid"
  let group ← field "runtime_owner_group"
  let starttime ← field "runtime_owner_starttime"
  let pid ← parseNumber parseUInt32 "runtime_owner_pid" pid
  let processGroup ← parseNumber parseUInt32 "runtime_owner_group" group
  let starttimeTicks ← parseNumber parseUInt64 "runtime_owner_starttime" starttime
  return some { pid, processGroup, starttimeTicks }

/-- `decode`, the publication identity of schema 4. -/
def readPublication : RecordReader (Option Text × Option Text) := do
  let bootId ← field "publication_boot_id"
  let generation ← field "publication_generation"
  return (some bootId, some generation)

/-- `decode`, the runtime owner if the schema has one. -/
def readOwnerFor (schema : ℕ) : RecordReader (Option ProcessIdentity) :=
  if schema = 3 then readOwner else pure none

/-- `decode`, the publication identity if the schema has one. -/
def readPublicationFor (schema : ℕ) : RecordReader (Option Text × Option Text) :=
  if schema = 4 then readPublication else pure (none, none)

/-- `decode`, all fields of a schema. -/
def readFields (schema : ℕ) : RecordReader (JobJournal × ProcessText) := do
  let (journal, process) ← readBase
  let owner ← readOwnerFor schema
  let publication ← readPublicationFor schema
  return ({ journal with
    runtimeOwnerProcess := owner, publicationBootId := publication.1,
    publicationGeneration := publication.2 }, process)

def headerSchema (header : Text) : Option ℕ := [2, 3, 4].find? fun n => journalHeader n == header

/-- `decode`, the lines after the header of a schema. -/
def decodeLines (input : Text) (schema : ℕ) (left : List Text) : Except String JobJournal := do
  let ((journal, process), left) ← (readFields schema).run left
  check left.isEmpty "journal record contains unknown fields"
  let process ← process.parse
  let journal := { journal with process }
  journal.validate
  let canonical ← journal.encodeForSchema schema
  check (canonical == input) "journal record is not canonically encoded"
  return journal

/-- `decode`, a record without the history prefix; it may be the inside of one with it. -/
def decodeRecord (input : Text) : Except String JobJournal := do
  check (!(decide (byteLength input > maxOperationRecordBytes) || input.getLast? != some '\n'))
    "journal record is not bounded and newline-terminated"
  match lines input with
  | [] => throw "journal record header is missing"
  | header :: left =>
    match headerSchema header with
    | none => throw "unsupported journal record header"
    | some schema => decodeLines input schema left

/-- `decode`, a record with the history prefix. -/
def decodeHistory (input inner : Text) : Except String JobJournal := do
  check (!(lit "cake-autorate-calibration\t5\t").isPrefixOf inner) "nested history journal is invalid"
  let journal ← decodeRecord inner
  let journal := { journal with historyDecisionRequired := true }
  check ((← journal.encode) == input) "history journal is not canonical"
  return journal

def decode (input : Text) : Except String JobJournal := do
  check (!(decide (byteLength input > maxOperationRecordBytes) || input.getLast? != some '\n'))
    "journal record is not bounded and newline-terminated"
  match stripPrefix historyJournalPrefix input with
  | some inner => decodeHistory input inner
  | none => decodeRecord input

end JobJournal

/-- A text of at most `bound` bytes that a line can carry as it is. -/
structure Plain (bound : ℕ) (value : Text) : Prop where
  size : byteLength value ≤ bound
  chars : ∀ c ∈ value, printable c = true ∧ c ≠ '='

instance (bound : ℕ) (value : Text) : Decidable (Plain bound value) :=
  decidable_of_iff (byteLength value ≤ bound ∧ (value.all fun c => printable c && c != '=') = true)
    ⟨fun h => ⟨h.1, by simpa using h.2⟩, fun h => ⟨h.1, by simpa using h.chars⟩⟩

variable {n : ℕ} {value : Text}

theorem Plain.mono {m : ℕ} (h : Plain m value) (hmn : m ≤ n) : Plain n value :=
  ⟨h.size.trans hmn, h.chars⟩

theorem Plain.not_mem (h : Plain n value) {c : Char} (hc : c = '\n' ∨ c = '\r' ∨ c = '=') :
    c ∉ value := by
  intro hmem
  obtain ⟨hprintable, hequals⟩ := h.chars c hmem
  rcases hc with rfl | rfl | rfl
  · exact absurd hprintable (by decide)
  · exact absurd hprintable (by decide)
  · exact hequals rfl

theorem plain_nil (bound : ℕ) : Plain bound [] := ⟨Nat.zero_le _, by simp⟩

theorem plain_of_alphanumeric {bound : ℕ} (hsize : byteLength value ≤ bound)
    (h : ∀ c ∈ value, isAsciiAlphanumeric c = true) : Plain bound value := by
  refine ⟨hsize, fun c hc => ⟨printable_of_alphanumeric (h c hc), ?_⟩⟩
  rintro rfl
  exact absurd (h _ hc) (by decide)

theorem plain_of_hex (h : lowerHex n value = true) : Plain n value := by
  refine plain_of_alphanumeric (lowerHex_short h).size fun c hc => ?_
  simp only [lowerHex, Bool.and_eq_true, all_eq_true] at h
  have hhex := h.2 c hc
  simp only [isAsciiAlphanumeric, Bool.or_eq_true, Bool.and_eq_true, decide_eq_true_eq,
    Char.le_def, UInt32.le_iff_toNat_le] at hhex ⊢
  have hf : 'f'.val.toNat = 102 := rfl
  have hz : 'z'.val.toNat = 122 := rfl
  omega

theorem plain_of_identifier {minimum maximum : ℕ} {punctuation : String}
    (hp : (lit punctuation).all (fun c => printable c && c != '=') = true)
    (h : safeIdentifier minimum maximum punctuation value = true) : Plain maximum value := by
  have hplain : ∀ c ∈ lit punctuation, printable c = true ∧ c ≠ '=' := by simpa using hp
  have hprintable : (lit punctuation).all printable = true :=
    all_eq_true.2 fun c hc => (hplain c hc).1
  refine ⟨(safeIdentifier_short hprintable h).size, fun c hc => ?_⟩
  simp only [safeIdentifier, Bool.and_eq_true, all_eq_true, Bool.or_eq_true, contains_iff_mem] at h
  rcases h.2 c hc with halpha | hpunct
  · refine ⟨printable_of_alphanumeric halpha, ?_⟩
    rintro rfl
    exact absurd halpha (by decide)
  · exact hplain c hpunct

theorem plain_display {k : ℕ} (hk : 0 < k) (hn : n < 10 ^ k) : Plain k (display n) :=
  plain_of_alphanumeric (display_short hk hn).size
    fun _ hc => alphanumeric_of_digit (display_isDigit hc)

theorem plain_uint32 (n : UInt32) : Plain 64 (display n.toNat) :=
  (plain_display (k := 10) (by decide) (n.toNat_lt.trans (by decide))).mono (by decide)

theorem plain_uint64 (n : UInt64) : Plain 64 (display n.toNat) :=
  (plain_display (k := 20) (by decide) (n.toNat_lt.trans (by decide))).mono (by decide)

theorem plain_boolText (b : Bool) : Plain 64 (boolText b) := by
  cases b <;> decide

theorem plain_optionText {α : Type} {text : α → Text} {value : Option α}
    (h : ∀ a, Plain 64 (text a)) : Plain 64 (optionText text value) := by
  cases value with
  | none => exact plain_nil 64
  | some a => exact h a

theorem plain_getD {value : Option Text} (h : ∀ t, value = some t → Plain 64 t ∧ t ≠ []) :
    Plain 64 (value.getD []) := by
  cases value with
  | none => exact plain_nil 64
  | some t => exact (h t rfl).1

theorem optionalString_getD {value : Option Text}
    (h : ∀ t, value = some t → Plain 64 t ∧ t ≠ []) : optionalString (value.getD []) = value := by
  cases value with
  | none => rfl
  | some t => simp [optionalString, (h t rfl).2]

theorem parseFlag_boolText (b : Bool) : parseFlag (boolText b) = .ok b := by cases b <;> rfl

theorem OperationState.codec : WordCodec asStr parse := codec_words (by rintro ⟨⟩ <;> decide)

/-- What its fields are made of. -/
structure JobJournal.Facts (j : JobJournal) : Prop where
  jobId : lowerHex 32 j.jobId = true
  bootId : lowerHex 32 j.bootId = true
  coordinatorGeneration : lowerHex 32 j.coordinatorGeneration = true
  instance_ : Plain 64 j.instance_
  targetInterface : Plain 64 j.targetInterface
  sqmFingerprint : Plain 64 j.sqmFingerprint
  workerRunId : ∀ t, j.workerRunId = some t → Plain 64 t ∧ t ≠ []
  terminalKind : ∀ t, j.terminalKind = some t → Plain 64 t ∧ t ≠ []
  terminalState : ∀ t, j.terminalState = some t → Plain 64 t ∧ t ≠ []
  diagnosticCode : ∀ t, j.diagnosticCode = some t → Plain 64 t ∧ t ≠ []
  publication : j.publicationBootId = none ∧ j.publicationGeneration = none ∨
    ∃ b g, j.publicationBootId = some b ∧ j.publicationGeneration = some g ∧
      Plain 64 b ∧ Plain 64 g ∧ j.runtimeOwnerProcess = none

theorem lowerHex_ne_nil (h : lowerHex (n + 1) value = true) : value ≠ [] := by
  rintro rfl
  simp [lowerHex] at h

theorem publication_facts {j : JobJournal} (h : j.validatePublication = .ok ()) :
    j.publicationBootId = none ∧ j.publicationGeneration = none ∨
    ∃ b g, j.publicationBootId = some b ∧ j.publicationGeneration = some g ∧
      Plain 64 b ∧ Plain 64 g ∧ j.runtimeOwnerProcess = none := by
  unfold JobJournal.validatePublication at h
  split at h
  · rename_i hb hg
    exact .inl ⟨hb, hg⟩
  · rename_i b g hb hg
    simp only [andThen_eq_ok, requireHex, check_ok] at h
    obtain ⟨hbhex, hghex, hinert⟩ := h
    have howner : j.runtimeOwnerProcess = none := by simp_all
    exact .inr ⟨b, g, hb, hg, (plain_of_hex hbhex).mono (by decide),
      (plain_of_hex hghex).mono (by decide), howner⟩
  · cases h

theorem JobJournal.facts {j : JobJournal} (h : j.validate = .ok ()) : j.Facts := by
  simp only [JobJournal.validate, JobJournal.validateIdentity, andThen_eq_ok, requireHex,
    requireIdentifier, check_ok, checkSome_eq_ok] at h
  obtain ⟨⟨hjob, hboot, hgeneration, hinstance, hinterface, hsqm⟩, -, -, -, -, -, hrun, hkind,
    hstate, hcode, -, -, -, -, hpublication⟩ := h
  refine ⟨hjob, hboot, hgeneration, plain_of_identifier (by decide) hinstance,
    plain_of_identifier (by decide) hinterface, plain_of_hex hsqm, fun t ht => ?_, fun t ht => ?_,
    fun t ht => ?_, fun t ht => ?_, publication_facts hpublication⟩
  · exact ⟨(plain_of_hex (hrun t ht)).mono (by decide), lowerHex_ne_nil (hrun t ht)⟩
  · have hword : t = lit "result" ∨ t = lit "error" := by
      have := hkind t ht
      simp only [Bool.not_eq_true', Bool.and_eq_false_iff, bne_eq_false_iff_eq] at this
      exact this
    rcases hword with rfl | rfl
    · exact ⟨by decide, by decide⟩
    · exact ⟨by decide, by decide⟩
  · exact ⟨plain_of_identifier (by decide) (hstate t ht), safeIdentifier_ne_nil (hstate t ht)⟩
  · exact ⟨plain_of_identifier (by decide) (hcode t ht), safeIdentifier_ne_nil (hcode t ht)⟩

def ReadsLines {α : Type} (reader : RecordReader α) (fields : List Field) (a : α) : Prop :=
  ∀ rest, reader.run (fields.map plainLine ++ rest) = .ok (a, rest)

namespace ReadsLines

variable {α β : Type}

theorem pure (a : α) : ReadsLines (Pure.pure a) [] a := fun _ => rfl

variable {fs : List Field} {k : α → RecordReader β}

theorem bind {x : RecordReader α} {gs : List Field} {a : α} {b : β} (hx : ReadsLines x fs a)
    (hk : ReadsLines (k a) gs b) : ReadsLines (x >>= k) (fs ++ gs) b := by
  intro rest
  rw [StateT.run_bind, map_append, append_assoc, hx (gs.map plainLine ++ rest)]
  exact hk rest

theorem field_bind {key : String} {k : Text → RecordReader β} {b : β} (hk : '=' ∉ lit key)
    (hv : Plain 64 value) (h : ReadsLines (k value) fs b) :
    ReadsLines (field key >>= k) ((key, value) :: fs) b := by
  have hfield : ReadsLines (field key) [(key, value)] value := by
    intro rest
    have hclean : (value.any fun c => c == '\r' || c == '\n' || c == '=') = false := by
      rw [any_eq_false]
      intro c hc
      simp only [Bool.or_eq_true, beq_iff_eq, not_or]
      refine ⟨⟨?_, ?_⟩, ?_⟩
      · rintro rfl
        exact hv.not_mem (.inr (.inl rfl)) hc
      · rintro rfl
        exact hv.not_mem (.inl rfl) hc
      · rintro rfl
        exact hv.not_mem (.inr (.inr rfl)) hc
    show Journal.field key (plainLine (key, value) :: rest) = .ok (value, rest)
    simp [Journal.field, plainLine, splitOnce_append _ hk, hclean]
  exact hfield.bind h

theorem lift_bind {e : Except String α} {a : α} {b : β} (he : e = .ok a) (h : ReadsLines (k a) fs b) :
    ReadsLines (liftM e >>= k) fs b := by
  subst he
  exact h

end ReadsLines

theorem TextCodec.parseNumber_eq {α : Type} {text : α → Text} {parse : Text → Option α}
    {bound : ℕ} (c : TextCodec text parse bound) (a : α) (name : String) :
    parseNumber parse name (text a) = .ok a := c.orError_eq a _

namespace JobJournal

variable {j : JobJournal}

def processText (j : JobJournal) : ProcessText where
  pid := optionText (fun p => display p.pid.toNat) j.process
  group := optionText (fun p => display p.processGroup.toNat) j.process
  starttime := optionText (fun p => display p.starttimeTicks.toNat) j.process

theorem parse_processText : j.processText.parse = .ok j.process := by
  unfold processText ProcessText.parse
  cases j.process with
  | none => rfl
  | some p =>
    have hpid : (display p.pid.toNat).isEmpty = false := by simpa using display_ne_nil _
    have hgroup : (display p.processGroup.toNat).isEmpty = false := by simpa using display_ne_nil _
    have hstart : (display p.starttimeTicks.toNat).isEmpty = false := by
      simpa using display_ne_nil _
    simp only [optionText, Option.map_some, Option.getD_some, hpid, hgroup, hstart]
    rw [TextCodec.parseNumber_eq codec_uint32 p.pid,
      TextCodec.parseNumber_eq codec_uint32 p.processGroup,
      TextCodec.parseNumber_eq codec_uint64 p.starttimeTicks]
    rfl

def base (j : JobJournal) : JobJournal := { j with
  process := none, runtimeOwnerProcess := none, publicationBootId := none
  publicationGeneration := none, historyDecisionRequired := false }

theorem reads_base (f : j.Facts) : ReadsLines readBase j.baseFields (j.base, j.processText) := by
  refine .field_bind (by decide) ((plain_of_hex f.jobId).mono (by decide)) ?_
  refine .field_bind (by decide) ((plain_of_hex f.bootId).mono (by decide)) ?_
  refine .field_bind (by decide) ((plain_of_hex f.coordinatorGeneration).mono (by decide)) ?_
  refine .field_bind (by decide) ?_ ?_
  · cases j.state <;> decide
  refine .lift_bind (OperationState.codec.orError_eq _ _) ?_
  refine .field_bind (by decide) (plain_uint64 _) ?_
  refine .lift_bind (TextCodec.parseNumber_eq codec_uint64 _ _) ?_
  refine .field_bind (by decide) (plain_boolText _) ?_
  refine .lift_bind (parseFlag_boolText _) ?_
  refine .field_bind (by decide) (plain_boolText _) ?_
  refine .lift_bind (parseFlag_boolText _) ?_
  refine .field_bind (by decide) f.instance_ ?_
  refine .field_bind (by decide) f.targetInterface ?_
  refine .field_bind (by decide) f.sqmFingerprint ?_
  iterate 2 refine .field_bind (by decide) (plain_optionText fun _ => plain_uint32 _) ?_
  refine .field_bind (by decide) (plain_optionText fun _ => plain_uint64 _) ?_
  refine .field_bind (by decide) (plain_getD f.workerRunId) ?_
  refine .field_bind (by decide) (plain_getD f.terminalKind) ?_
  refine .field_bind (by decide) (plain_getD f.terminalState) ?_
  refine .field_bind (by decide) (plain_getD f.diagnosticCode) ?_
  refine .field_bind (by decide) (plain_uint32 _) ?_
  refine .lift_bind (TextCodec.parseNumber_eq codec_uint32 _ _) ?_
  refine .field_bind (by decide) (plain_boolText _) ?_
  refine .lift_bind (parseFlag_boolText _) ?_
  refine .field_bind (by decide) (plain_boolText _) ?_
  refine .lift_bind (parseFlag_boolText _) ?_
  rw [optionalString_getD f.workerRunId, optionalString_getD f.terminalKind,
    optionalString_getD f.terminalState, optionalString_getD f.diagnosticCode]
  exact .pure _

theorem reads_owner (owner : ProcessIdentity) :
    ReadsLines readOwner (ownerFields owner) (some owner) := by
  iterate 2 refine .field_bind (by decide) (plain_uint32 _) ?_
  refine .field_bind (by decide) (plain_uint64 _) ?_
  iterate 2 refine .lift_bind (TextCodec.parseNumber_eq codec_uint32 _ _) ?_
  refine .lift_bind (TextCodec.parseNumber_eq codec_uint64 _ _) ?_
  exact .pure _

theorem reads_publication {b g : Text} (hb : Plain 64 b) (hg : Plain 64 g) :
    ReadsLines readPublication [("publication_boot_id", b), ("publication_generation", g)]
      (some b, some g) := by
  refine .field_bind (by decide) hb ?_
  refine .field_bind (by decide) hg ?_
  exact .pure _

def recorded (j : JobJournal) : JobJournal := { j with
  process := none, historyDecisionRequired := false }

theorem reads_schemaFields (f : j.Facts) : ∃ fs gs, j.schemaFields j.schema = fs ++ gs ∧
    ReadsLines (readOwnerFor j.schema) fs j.runtimeOwnerProcess ∧
    ReadsLines (readPublicationFor j.schema) gs (j.publicationBootId, j.publicationGeneration) := by
  obtain ⟨hb, hg⟩ | ⟨b, g, hb, hg, hbp, hgp, howner⟩ := f.publication
  · cases howner : j.runtimeOwnerProcess with
    | none =>
      have hschema : j.schema = 2 := by simp [schema, hb, howner]
      rw [hschema, hb, hg]
      exact ⟨[], [], by simp [schemaFields], .pure _, .pure _⟩
    | some owner =>
      have hschema : j.schema = 3 := by simp [schema, hb, howner]
      rw [hschema, hb, hg]
      exact ⟨ownerFields owner, [], by simp [schemaFields, howner], reads_owner owner, .pure _⟩
  · have hschema : j.schema = 4 := by simp [schema, hb]
    rw [hschema, hb, hg, howner]
    exact ⟨[], [("publication_boot_id", b), ("publication_generation", g)],
      by simp [schemaFields, hb, hg], .pure _, reads_publication hbp hgp⟩

theorem reads_fields (f : j.Facts) :
    ReadsLines (readFields j.schema) (j.baseFields ++ j.schemaFields j.schema)
      (j.recorded, j.processText) := by
  obtain ⟨fs, gs, hfields, howner, hpublication⟩ := reads_schemaFields f
  refine (reads_base f).bind ?_
  rw [hfields]
  refine howner.bind ?_
  rw [← append_nil gs]
  exact hpublication.bind (.pure _)

end JobJournal

def PlainFields (fields : List Field) : Prop :=
  ∀ f ∈ fields, (PlainKey f.1 ∧ byteLength (lit f.1) ≤ 24) ∧ Plain 64 f.2

variable {fields : List Field}

theorem plainFields_cons {key : String} (hk : PlainKey key ∧ byteLength (lit key) ≤ 24)
    (hv : Plain 64 value) (h : PlainFields fields) :
    PlainFields ((key, value) :: fields) := by
  intro f hf
  rcases mem_cons.1 hf with rfl | hf
  · exact ⟨hk, hv⟩
  · exact h f hf

theorem plainFields_nil : PlainFields [] := by
  intro f hf
  cases hf

theorem PlainFields.append {fs gs : List Field} (hf : PlainFields fs) (hg : PlainFields gs) :
    PlainFields (fs ++ gs) := by
  intro f hmem
  rcases mem_append.1 hmem with h | h
  · exact hf f h
  · exact hg f h

theorem PlainFields.line (h : PlainFields fields) {line : Text} (hl : line ∈ fields.map plainLine) :
    '\n' ∉ line ∧ '\r' ∉ line ∧ byteLength line + 1 ≤ 90 := by
  obtain ⟨f, hf, rfl⟩ := mem_map.1 hl
  obtain ⟨⟨⟨-, hkn, hkr⟩, hksize⟩, hv⟩ := h f hf
  have hequals : '='.utf8Size = 1 := by decide
  refine ⟨?_, ?_, ?_⟩
  · simp only [plainLine, mem_append, mem_cons, not_or]
    exact ⟨hkn, by decide, hv.not_mem (.inl rfl)⟩
  · simp only [plainLine, mem_append, mem_cons, not_or]
    exact ⟨hkr, by decide, hv.not_mem (.inr (.inl rfl))⟩
  · have := hv.size
    simp only [plainLine, byteLength_append, byteLength_cons]
    omega

theorem PlainFields.lines_eq (h : PlainFields fields) {header : Text} (hn : '\n' ∉ header)
    (hr : '\r' ∉ header) :
    lines (plainRecord header fields) = header :: fields.map plainLine := by
  rw [plainRecord, lines_line _ hn (getLast?_ne_return hr),
    lines_printed (fun l hl => (h.line hl).1) fun l hl => getLast?_ne_return (h.line hl).2.1]

theorem getLast_plainRecord (header : Text) (fields : List Field) :
    (plainRecord header fields).getLast? = some '\n' := by
  unfold plainRecord
  rw [getLast?_append_cons]
  induction fields.map plainLine with
  | nil => rfl
  | cons l ls ih =>
    rw [flatMap_cons, append_assoc, singleton_append, ← cons_append, getLast?_append_cons]
    exact ih

theorem PlainFields.size (h : PlainFields fields) (header : Text) :
    byteLength (plainRecord header fields) ≤ byteLength header + 1 + 90 * fields.length := by
  have hbody : byteLength ((fields.map plainLine).flatMap fun line => line ++ ['\n'])
      ≤ 90 * fields.length := by
    induction fields with
    | nil => exact Nat.zero_le _
    | cons f fields ih =>
      have hline := (h.line (mem_cons_self : plainLine f ∈ (f :: fields).map plainLine)).2.2
      have htail := ih fun g hg => h g (mem_cons_of_mem _ hg)
      have hnewline : byteLength ['\n'] = 1 := by decide
      simp only [map_cons, flatMap_cons, byteLength_append, length_cons, hnewline]
      omega
  have hnewline : '\n'.utf8Size = 1 := by decide
  simp only [plainRecord, byteLength_append, byteLength_cons, hnewline]
  omega

namespace JobJournal

variable {j : JobJournal}

theorem plainFields_base (f : j.Facts) : PlainFields j.baseFields := by
  refine plainFields_cons (by decide) ((plain_of_hex f.jobId).mono (by decide)) ?_
  refine plainFields_cons (by decide) ((plain_of_hex f.bootId).mono (by decide)) ?_
  refine plainFields_cons (by decide) ((plain_of_hex f.coordinatorGeneration).mono (by decide)) ?_
  refine plainFields_cons (by decide) ?_ ?_
  · cases j.state <;> decide
  refine plainFields_cons (by decide) (plain_uint64 _) ?_
  iterate 2 refine plainFields_cons (by decide) (plain_boolText _) ?_
  refine plainFields_cons (by decide) f.instance_ ?_
  refine plainFields_cons (by decide) f.targetInterface ?_
  refine plainFields_cons (by decide) f.sqmFingerprint ?_
  iterate 2 refine plainFields_cons (by decide) (plain_optionText fun _ => plain_uint32 _) ?_
  refine plainFields_cons (by decide) (plain_optionText fun _ => plain_uint64 _) ?_
  refine plainFields_cons (by decide) (plain_getD f.workerRunId) ?_
  refine plainFields_cons (by decide) (plain_getD f.terminalKind) ?_
  refine plainFields_cons (by decide) (plain_getD f.terminalState) ?_
  refine plainFields_cons (by decide) (plain_getD f.diagnosticCode) ?_
  refine plainFields_cons (by decide) (plain_uint32 _) ?_
  refine plainFields_cons (by decide) (plain_boolText _) ?_
  exact plainFields_cons (by decide) (plain_boolText _) plainFields_nil

theorem plainFields_schema (f : j.Facts) : PlainFields (j.schemaFields j.schema) ∧
    (j.schemaFields j.schema).length ≤ 3 := by
  obtain ⟨hb, hg⟩ | ⟨b, g, hb, hg, hbp, hgp, howner⟩ := f.publication
  · cases howner : j.runtimeOwnerProcess with
    | none =>
      have hschema : j.schema = 2 := by simp [schema, hb, howner]
      have hfields : j.schemaFields j.schema = [] := by simp [schemaFields, hschema]
      rw [hfields]
      exact ⟨plainFields_nil, Nat.zero_le _⟩
    | some owner =>
      have hschema : j.schema = 3 := by simp [schema, hb, howner]
      have hfields : j.schemaFields j.schema = ownerFields owner := by
        simp [schemaFields, hschema, howner]
      rw [hfields]
      exact ⟨plainFields_cons (by decide) (plain_uint32 _) <| plainFields_cons (by decide)
        (plain_uint32 _) <| plainFields_cons (by decide) (plain_uint64 _) plainFields_nil,
        Nat.le_refl 3⟩
  · have hschema : j.schema = 4 := by simp [schema, hb]
    have hfields : j.schemaFields j.schema
        = [("publication_boot_id", b), ("publication_generation", g)] := by
      simp [schemaFields, hschema, hb, hg]
    rw [hfields]
    exact ⟨plainFields_cons (by decide) hbp <| plainFields_cons (by decide) hgp plainFields_nil,
      by simp⟩

def recordOf (j : JobJournal) : Text :=
  plainRecord (journalHeader j.schema) (j.baseFields ++ j.schemaFields j.schema)

theorem schema_cases (j : JobJournal) : j.schema = 2 ∨ j.schema = 3 ∨ j.schema = 4 := by
  unfold schema
  split
  · exact .inr (.inr rfl)
  · split
    · exact .inr (.inl rfl)
    · exact .inl rfl

theorem journalHeader_plain (j : JobJournal) : '\n' ∉ journalHeader j.schema ∧
    '\r' ∉ journalHeader j.schema ∧ byteLength (journalHeader j.schema) ≤ 40 ∧
    headerSchema (journalHeader j.schema) = some j.schema := by
  rcases schema_cases j with h | h | h <;> rw [h] <;> decide +kernel

theorem recordOf_size (f : j.Facts) : byteLength j.recordOf ≤ 2200 := by
  have hplain := (plainFields_base f).append (plainFields_schema f).1
  have hsize := hplain.size (journalHeader j.schema)
  have hheader := (journalHeader_plain j).2.2.1
  have hlength := (plainFields_schema f).2
  have hbase : j.baseFields.length = 20 := rfl
  rw [length_append, hbase] at hsize
  unfold recordOf
  omega

/-- The schema that `encode` picks fits the journal. -/
theorem encodeForSchema_schema (hv : j.validate = .ok ()) (hh : j.historyDecisionRequired = false) :
    j.encodeForSchema j.schema = .ok j.recordOf := by
  have f := facts hv
  have hsize : byteLength j.recordOf ≤ maxOperationRecordBytes :=
    (recordOf_size f).trans (by decide)
  simp only [encodeForSchema, andThen_eq_ok, check_ok, hh, hv, true_and]
  refine ⟨rfl, ?_, ?_, ?_, ?_, ?_, decide_eq_true hsize, rfl⟩
  · rcases schema_cases j with h | h | h <;> rw [h] <;> decide
  all_goals
    obtain ⟨hb, hg⟩ | ⟨b, g, hb, hg, -, -, howner⟩ := f.publication
    · cases howner : j.runtimeOwnerProcess <;> simp [schema, hb, hg, howner]
    · simp [schema, hb, hg, howner]

theorem decodeRecord_recordOf (hv : j.validate = .ok ())
    (hh : j.historyDecisionRequired = false) : decodeRecord j.recordOf = .ok j := by
  have f := facts hv
  have hplain := (plainFields_base f).append (plainFields_schema f).1
  obtain ⟨hn, hr, -, hschema⟩ := journalHeader_plain j
  have hlines : lines j.recordOf
      = journalHeader j.schema :: (j.baseFields ++ j.schemaFields j.schema).map plainLine :=
    hplain.lines_eq hn hr
  have hsize : decide (byteLength j.recordOf > maxOperationRecordBytes) = false := by
    have hle : byteLength j.recordOf ≤ maxOperationRecordBytes :=
      (recordOf_size f).trans (by decide)
    exact decide_eq_false (by omega)
  have hlast : (j.recordOf.getLast? != some '\n') = false := by
    rw [recordOf, getLast_plainRecord]
    rfl
  have hread := reads_fields f []
  rw [append_nil] at hread
  have hjournal : { j.recorded with process := j.process } = j := by simp [recorded, ← hh]
  simp only [decodeRecord, hsize, hlast, hlines, hschema, decodeLines, hread, Bool.or_self,
    Bool.not_false, check_true, bind, Except.bind, parse_processText, hjournal, hv,
    encodeForSchema_schema hv hh, isEmpty_nil, beq_self_eq_true]
  rfl

theorem not_history_recordOf (j : JobJournal) :
    ¬lit "cake-autorate-calibration\t5\t" <+: j.recordOf := by
  have hhead : lit "cake-autorate-calibration\t5\t"
      = lit "cake-autorate-calibration\t" ++ lit "5\t" := by decide
  have hrecord : j.recordOf = lit "cake-autorate-calibration\t" ++ (display j.schema ++
      (lit "\tjournal" ++ '\n' :: ((j.baseFields ++ j.schemaFields j.schema).map plainLine).flatMap
        fun line => line ++ ['\n'])) := by
    simp [recordOf, plainRecord, journalHeader]
  rw [hhead, hrecord, prefix_append_right_inj]
  have hfive : lit "5\t" = ['5', '\t'] := by decide
  have hdigits : display 2 = ['2'] ∧ display 3 = ['3'] ∧ display 4 = ['4'] := by decide +kernel
  rcases schema_cases j with h | h | h <;> simp [h, hfive, hdigits]

theorem validate_withoutHistory (hv : j.validate = .ok ()) : j.withoutHistory.validate = .ok () := hv

/-- The text that `encode` writes. -/
def text (j : JobJournal) : Text :=
  if j.historyDecisionRequired then historyJournalPrefix ++ j.withoutHistory.recordOf
  else j.recordOf

theorem text_size (hv : j.validate = .ok ()) : byteLength j.text ≤ maxOperationRecordBytes := by
  have hstarts : byteLength historyJournalPrefix ≤ 100 := by decide +kernel
  have hbound : 2300 ≤ maxOperationRecordBytes := by decide
  unfold text
  split
  · have hsize := recordOf_size (facts (validate_withoutHistory hv))
    rw [byteLength_append]
    omega
  · have hsize := recordOf_size (facts hv)
    omega

theorem encode_text (hv : j.validate = .ok ()) : j.encode = .ok j.text := by
  have hsize := text_size hv
  unfold encode text at *
  split
  · rename_i hh
    rw [if_pos hh] at hsize
    have hinner : j.withoutHistory.encodeForSchema j.schema = .ok j.withoutHistory.recordOf :=
      encodeForSchema_schema (validate_withoutHistory hv) rfl
    simp only [hinner, bind, Except.bind, hsize, decide_true, check_true]
    rfl
  · rename_i hh
    exact encodeForSchema_schema hv (by simpa using hh)

/-- **A journal reads back.** -/
theorem decode_text (hv : j.validate = .ok ()) : decode j.text = .ok j := by
  have hsize : decide (byteLength j.text > maxOperationRecordBytes) = false :=
    decide_eq_false (by have := text_size hv; omega)
  have hstarts : lit "cake-autorate-calibration\t5\t" <+: historyJournalPrefix := by decide +kernel
  cases hh : j.historyDecisionRequired with
  | false =>
    have htext : j.text = j.recordOf := by simp [text, hh]
    have hlast : (j.text.getLast? != some '\n') = false := by
      rw [htext, recordOf, getLast_plainRecord]
      rfl
    have hplain : stripPrefix historyJournalPrefix j.text = none := by
      rw [htext, stripPrefix, if_neg]
      exact fun h => not_history_recordOf j (hstarts.trans h)
    simp only [decode, hsize, hlast, Bool.or_self, Bool.not_false, check_true, hplain]
    rw [htext]
    exact decodeRecord_recordOf hv hh
  | true =>
    have htext : j.text = historyJournalPrefix ++ j.withoutHistory.recordOf := by simp [text, hh]
    have hlast : (j.text.getLast? != some '\n') = false := by
      have hrecord : j.withoutHistory.recordOf.getLast? = some '\n' := getLast_plainRecord _ _
      rw [htext, getLast?_append, hrecord]
      rfl
    have hinner : stripPrefix historyJournalPrefix j.text = some j.withoutHistory.recordOf := by
      rw [htext, stripPrefix_append]
    have hnested : (lit "cake-autorate-calibration\t5\t").isPrefixOf j.withoutHistory.recordOf
        = false := by
      rw [Bool.eq_false_iff]
      exact fun h => not_history_recordOf _ (List.isPrefixOf_iff_prefix.1 h)
    have hdecode := decodeRecord_recordOf (validate_withoutHistory hv) rfl
    have hjournal : { j.withoutHistory with historyDecisionRequired := true } = j := by
      simp [withoutHistory, ← hh]
    simp only [decode, hsize, hlast, Bool.or_self, Bool.not_false, check_true, hinner,
      decodeHistory, hnested, hdecode, bind, Except.bind, hjournal, encode_text hv,
      beq_self_eq_true]
    rfl

end JobJournal

end CakeAutorate.Journal
