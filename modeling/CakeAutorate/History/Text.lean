/-
# The text of a valid decision

A valid decision has a text within the bound, which reads back as it; and what reads as a decision is
the text of that decision, which is valid.
-/

import CakeAutorate.History.Decision

namespace CakeAutorate.History

open Syscall List RawReference Json

variable {serde : Serde} {d : HistoryDecision}

/-- What `validate` accepts. -/
structure HistoryDecision.Valid (d : HistoryDecision) : Prop where
  boot : validHex d.bootId 32 = true
  route : validHex d.routeKey 64 = true
  request : validHex d.requestSha256 64 = true
  worker : validHex d.workerRunId 32 = true
  current : d.current.wellFormed = true
  reference : ∀ r, d.reference = some r → r.wellFormed = true ∧ r.jobId ≠ d.current.jobId ∧
    r.createdUnixMs < d.current.createdUnixMs

theorem validate_ok : d.validate = .ok () ↔ d.Valid := by
  unfold HistoryDecision.validate
  constructor
  · intro h
    obtain ⟨_, hbinding, h⟩ := bind_ok.mp h
    obtain ⟨_, hcurrent, h⟩ := bind_ok.mp h
    rw [check_ok, Bool.and_eq_true, Bool.and_eq_true, Bool.and_eq_true] at hbinding
    obtain ⟨⟨⟨hboot, hroute⟩, hrequest⟩, hworker⟩ := hbinding
    rw [validate, check_ok] at hcurrent
    refine ⟨hboot, hroute, hrequest, hworker, hcurrent, fun r hr => ?_⟩
    rw [hr] at h
    obtain ⟨_, hformed, hearlier⟩ := bind_ok.mp h
    rw [validate, check_ok] at hformed
    rw [check_ok, Bool.and_eq_true] at hearlier
    exact ⟨hformed, by simpa using hearlier.1, by simpa using hearlier.2⟩
  · rintro ⟨hboot, hroute, hrequest, hworker, hcurrent, hreference⟩
    rw [hboot, hroute, hrequest, hworker, validate, hcurrent]
    cases hr : d.reference with
    | none => rfl
    | some r =>
      obtain ⟨hformed, hjob, hcreated⟩ := hreference r hr
      have hearlier : (r.jobId != d.current.jobId &&
          decide (r.createdUnixMs < d.current.createdUnixMs)) = true := by
        simp [hjob, hcreated]
      simp only [validate, hformed, hearlier]
      rfl

theorem validate_error (h : ¬d.Valid) : ∃ e, d.validate = .error e := by
  cases hd : d.validate with
  | error e => exact ⟨e, rfl⟩
  | ok u => exact absurd (validate_ok.mp hd) h

theorem validHex_length {value : Bytes} {length : ℕ} (h : validHex value length = true) :
    value.length = length := by
  rw [validHex, Bool.and_eq_true, beq_iff_eq] at h
  exact h.1

theorem plain_of_validHex {value : Bytes} {length : ℕ} (h : validHex value length = true) :
    value.all plainByte = true := by
  rw [validHex, Bool.and_eq_true] at h
  exact plain_of_hex h.2

variable {r : RawReference}

theorem RawReference.jobId_hex (h : r.wellFormed = true) :
    validHex r.jobId 32 = true ∧ validHex r.reviewSha256 64 = true := by
  simp only [wellFormed, Bool.and_eq_true] at h
  exact ⟨h.1.1.1.1.1.1, h.1.1.1.1.1.2⟩

theorem keys_plain : ∀ k ∈ [("job_id", 6), ("review_sha256", 13), ("created_unix_ms", 15),
    ("download_kbps", 13), ("upload_kbps", 11), ("schema_version", 14), ("boot_id", 7),
    ("route_key", 9), ("request_sha256", 14), ("worker_run_id", 13), ("current", 7),
    ("reference", 9), ("blocked", 7), ("payload", 7), ("sha256", 6)],
    k.1.toList.all plainChar = true ∧ k.1.toList.length = k.2 := by decide +kernel

theorem value_plain (h : r.wellFormed = true) : r.value.plain = true := by
  obtain ⟨hjob, hreview⟩ := jobId_hex h
  have hkeys := keys_plain
  simp only [mem_cons, not_mem_nil, or_false, forall_eq_or_imp, forall_eq] at hkeys
  simp only [value, plain, plainFields, hkeys,
    plain_of_validHex hjob, plain_of_validHex hreview, Bool.and_self]

theorem payload_plain (h : d.Valid) : d.payload.plain = true := by
  have hkeys := keys_plain
  simp only [mem_cons, not_mem_nil, or_false, forall_eq_or_imp, forall_eq] at hkeys
  have hreference : (referenceValue d.reference).plain = true := by
    cases hr : d.reference with
    | none => rfl
    | some r => exact value_plain (h.reference r hr).1
  simp only [HistoryDecision.payload, plain, plainFields, hkeys,
    plain_of_validHex h.boot, plain_of_validHex h.route, plain_of_validHex h.request,
    plain_of_validHex h.worker, value_plain h.current, hreference, Bool.and_self]

theorem document_plain (h : d.Valid) : (d.document serde).plain = true := by
  have hkeys := keys_plain
  simp only [mem_cons, not_mem_nil, or_false, forall_eq_or_imp, forall_eq] at hkeys
  simp only [HistoryDecision.document, plain, plainFields, hkeys,
    payload_plain h, plain_of_hex (sha256_hex _), Bool.and_self]

theorem number_length (n : UInt64) : (number n.toNat).length ≤ 20 :=
  length_number (by decide) (n.toNat_lt.trans (by decide))

theorem value_length (h : r.wellFormed = true) : (text r.value).length ≤ 300 := by
  obtain ⟨hjob, hreview⟩ := jobId_hex h
  have hnumbers := number_length r.createdUnixMs
  have hdownload := number_length r.downloadKbps
  have hupload := number_length r.uploadKbps
  have hjob' := validHex_length hjob
  have hreview' := validHex_length hreview
  have hkeys := keys_plain
  simp only [mem_cons, not_mem_nil, or_false, forall_eq_or_imp, forall_eq] at hkeys
  simp only [value, text, textFields, quoted, length_cons,
    length_append, length_nil, length_map, hkeys, hjob', hreview']
  omega

theorem payload_length (h : d.Valid) : (text d.payload).length ≤ 1500 := by
  have hcurrent := value_length h.current
  have hreference : (text (referenceValue d.reference)).length ≤ 300 := by
    cases hr : d.reference with
    | none => decide
    | some r => exact value_length (h.reference r hr).1
  have hblocked : (text (.bool d.blocked)).length ≤ 5 := by
    cases d.blocked <;> decide
  have hkeys := keys_plain
  simp only [mem_cons, not_mem_nil, or_false, forall_eq_or_imp, forall_eq] at hkeys
  have htexts := And.intro (length_str d.bootId) (length_str d.routeKey)
  have hlengths := And.intro (validHex_length h.boot) (validHex_length h.route)
  have htexts' := And.intro (length_str d.requestSha256) (length_str d.workerRunId)
  have hlengths' := And.intro (validHex_length h.request) (validHex_length h.worker)
  have hschema : (text (.num 1)).length ≤ 20 := number_length 1
  rw [HistoryDecision.payload, text]
  simp only [textFields, quoted, length_cons, length_append, length_nil, hkeys]
  omega

/-- **The line of a valid decision is within the bound.** -/
theorem line_length (hserde : Lines serde) (h : d.Valid) : (d.line serde).length ≤ maxBytes := by
  have hpayload := payload_length h
  have hkeys := keys_plain
  simp only [mem_cons, not_mem_nil, or_false, forall_eq_or_imp, forall_eq] at hkeys
  have hdigest := length_str (sha256 (serde.toVec d.payload))
  rw [sha256_length] at hdigest
  have htext : (text (d.document serde)).length ≤ 2000 := by
    rw [HistoryDecision.document, text]
    simp only [textFields, quoted, length_cons, length_append, length_nil, hkeys]
    omega
  rw [HistoryDecision.line, length_append, hserde.compact _ (document_plain h),
    length_cons, length_nil]
  unfold maxBytes
  omega

theorem encode_line (hserde : Lines serde) (h : d.Valid) : d.encode serde = .ok (d.line serde) := by
  rw [HistoryDecision.encode, validate_ok.mpr h]
  simp only [line_length hserde h, check, decide_true, if_true]
  rfl

theorem numberField_num {value : Json} {name : String} {n : UInt64}
    (h : value.get name = .num n.toNat) : numberField value name = .ok n := by
  have hn := n.toNat_lt
  rw [numberField, h, asU64_num]
  simp only [hn, if_true]
  rw [UInt64.ofNat_toNat]

theorem textField_str {value : Json} {name : String} {text : Bytes}
    (h : value.get name = .str text) : textField value name = .ok text := by
  rw [textField, h]
  rfl

theorem parse_value (r : RawReference) : parse r.value = .ok r := by
  have hjob : textField r.value "job_id" = .ok r.jobId := textField_str rfl
  have hreview : textField r.value "review_sha256" = .ok r.reviewSha256 := textField_str rfl
  have hcreated : numberField r.value "created_unix_ms" = .ok r.createdUnixMs :=
    numberField_num rfl
  have hdownload : numberField r.value "download_kbps" = .ok r.downloadKbps := numberField_num rfl
  have hupload : numberField r.value "upload_kbps" = .ok r.uploadKbps := numberField_num rfl
  rw [parse, hjob, hreview, hcreated, hdownload, hupload]
  rfl

theorem parseReference_value (r : Option RawReference) :
    parseReference (referenceValue r) = .ok r := by
  cases r with
  | none => rfl
  | some r =>
    have hparse := parse_value r
    rw [value] at hparse
    rw [referenceValue, value, parseReference, hparse]
    · rfl
    · intro h
      cases h

/-- **The line of a valid decision reads back as it.** -/
theorem decode_line (hserde : Lines serde) (h : d.Valid) :
    HistoryDecision.decode serde (d.line serde) = .ok d := by
  have hread : serde.fromSlice (d.line serde) = some (d.document serde) :=
    hserde.newline _ (document_plain h)
  have hboot : textField d.payload "boot_id" = .ok d.bootId := textField_str rfl
  have hroute : textField d.payload "route_key" = .ok d.routeKey := textField_str rfl
  have hrequest : textField d.payload "request_sha256" = .ok d.requestSha256 := textField_str rfl
  have hworker : textField d.payload "worker_run_id" = .ok d.workerRunId := textField_str rfl
  have hsame : check (d.line serde == d.line serde) "history decision is noncanonical or corrupt" =
      .ok () := check_ok.mpr (by simp)
  rw [HistoryDecision.decode, hread]
  refine bind_ok.mpr ⟨(), check_ok.mpr (decide_eq_true (line_length hserde h)), ?_⟩
  refine bind_ok.mpr ⟨d.bootId, hboot, bind_ok.mpr ⟨d.routeKey, hroute, ?_⟩⟩
  refine bind_ok.mpr ⟨d.requestSha256, hrequest, bind_ok.mpr ⟨d.workerRunId, hworker, ?_⟩⟩
  refine bind_ok.mpr ⟨d.current, parse_value d.current, ?_⟩
  refine bind_ok.mpr ⟨d.reference, parseReference_value d.reference, ?_⟩
  exact bind_ok.mpr ⟨d.line serde, encode_line hserde h, bind_ok.mpr ⟨(), hsame, rfl⟩⟩

theorem line_utf8 (hserde : Lines serde) (h : d.Valid) :
    ∃ text, Wire.fromUtf8 (d.line serde) = some text := by
  have hascii : ∀ b ∈ d.line serde, b.toNat < 128 := by
    intro b hb
    rw [HistoryDecision.line, mem_append, mem_singleton] at hb
    rcases hb with hb | rfl
    · exact UInt8.lt_iff_toNat_lt.mp (hserde.ascii _ (document_plain h) b hb)
    · decide
  refine ⟨Wire.asciiText (d.line serde), ?_⟩
  have hbytes := Wire.utf8_asciiText hascii
  have hread := Wire.fromUtf8_utf8 (Wire.asciiText (d.line serde))
  rwa [hbytes] at hread

end CakeAutorate.History
