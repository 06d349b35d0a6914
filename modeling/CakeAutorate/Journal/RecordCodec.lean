/-
# What `decode` accepts

The converse of `decode_text`: a text that `decode` accepts is the record of its result, under the
one schema that the result picks, and a history prefix stands in front of a record without one.
`decode` checks the schema that it was given against the text; that it is the schema that `encode`
picks is because each schema refuses the journals of the others.
-/

import CakeAutorate.Journal.Codec

namespace CakeAutorate.Journal

open Wire Protocol Bool Except

namespace JobJournal

variable {j : JobJournal} {input : Text} {n : ℕ}

theorem encodeForSchema_facts (h : j.encodeForSchema n = .ok input) :
    j.validate = .ok () ∧ j.historyDecisionRequired = false ∧ n = j.schema := by
  simp only [encodeForSchema, andThen_eq_ok, check_ok, not_eq_true', and_eq_false_iff,
    decide_eq_true_eq] at h
  obtain ⟨hvalid, hhistory, hbounds, htwo, hthree, hfour, hother, -⟩ := h
  refine ⟨hvalid, hhistory, ?_⟩
  unfold schema
  rcases (by omega : n = 2 ∨ n = 3 ∨ n = 4) with rfl | rfl | rfl
  · rcases htwo with htwo | htwo
    · cases htwo
    rcases hother with hother | hother
    · cases hother
    rw [or_eq_false_iff] at hother
    rw [hother.1, htwo]
    rfl
  · rcases hthree with hthree | hthree
    · cases hthree
    rcases hother with hother | hother
    · cases hother
    rw [or_eq_false_iff] at hother
    have howner : j.runtimeOwnerProcess.isSome = true := by
      rw [← Option.not_isNone, hthree]
      rfl
    rw [hother.1, howner]
    rfl
  · rcases hfour with hfour | hfour
    · cases hfour
    rw [or_eq_false_iff, or_eq_false_iff] at hfour
    have hboot : j.publicationBootId.isSome = true := by
      rw [← Option.not_isNone, hfour.1.2]
      rfl
    rw [hboot]
    rfl

theorem encodeForSchema_eq_recordOf (h : j.encodeForSchema n = .ok input) : input = j.recordOf := by
  obtain ⟨hvalid, hhistory, rfl⟩ := encodeForSchema_facts h
  rw [encodeForSchema_schema hvalid hhistory, ok.injEq] at h
  exact h.symm

theorem validate_of_encode (h : j.encode = .ok input) : j.validate = .ok () := by
  unfold encode at h
  split at h
  · obtain ⟨inner, hinner, -⟩ := bind_ok.mp h
    exact (encodeForSchema_facts hinner).1
  · exact (encodeForSchema_facts h).1

theorem decodeRecord_eq_ok (h : decodeRecord input = .ok j) :
    j.validate = .ok () ∧ j.historyDecisionRequired = false ∧ input = j.recordOf := by
  obtain ⟨-, h⟩ := andThen_eq_ok.mp h
  split at h
  · cases h
  · split at h
    · cases h
    · obtain ⟨⟨⟨journal, process⟩, left⟩, -, h⟩ := bind_ok.mp h
      obtain ⟨-, h⟩ := andThen_eq_ok.mp h
      obtain ⟨process, -, h⟩ := bind_ok.mp h
      obtain ⟨-, h⟩ := andThen_eq_ok.mp h
      obtain ⟨canonical, hcanonical, h⟩ := bind_ok.mp h
      obtain ⟨hsame, h⟩ := andThen_eq_ok.mp h
      rw [check_ok, beq_iff_eq] at hsame
      rw [hsame] at hcanonical
      cases h
      obtain ⟨hvalid, hhistory, -⟩ := encodeForSchema_facts hcanonical
      exact ⟨hvalid, hhistory, encodeForSchema_eq_recordOf hcanonical⟩

/-- **What is accepted is the record of the result.** -/
theorem decode_eq_ok (h : decode input = .ok j) : j.encode = .ok input := by
  obtain ⟨-, h⟩ := andThen_eq_ok.mp h
  split at h
  · obtain ⟨-, h⟩ := andThen_eq_ok.mp h
    obtain ⟨journal, -, h⟩ := bind_ok.mp h
    obtain ⟨encoded, hencoded, h⟩ := bind_ok.mp h
    obtain ⟨hsame, h⟩ := andThen_eq_ok.mp h
    rw [check_ok, beq_iff_eq] at hsame
    cases h
    rw [hencoded, hsame]
  · obtain ⟨hvalid, hhistory, rfl⟩ := decodeRecord_eq_ok h
    rw [encode_text hvalid, text, hhistory]
    rfl

theorem decode_prefixed {inner : Text} (h : decode (historyJournalPrefix ++ inner) = .ok j) :
    j.historyDecisionRequired = true ∧ decodeRecord inner = .ok j.withoutHistory ∧
      ¬lit "cake-autorate-calibration\t5\t" <+: inner := by
  obtain ⟨-, h⟩ := andThen_eq_ok.mp h
  rw [stripPrefix_append] at h
  obtain ⟨hnested, h⟩ := andThen_eq_ok.mp h
  obtain ⟨journal, hjournal, h⟩ := bind_ok.mp h
  obtain ⟨encoded, -, h⟩ := bind_ok.mp h
  obtain ⟨-, h⟩ := andThen_eq_ok.mp h
  cases h
  obtain ⟨-, hhistory, -⟩ := decodeRecord_eq_ok hjournal
  refine ⟨rfl, ?_, ?_⟩
  · rw [hjournal]
    exact congrArg ok (by simp [withoutHistory, ← hhistory])
  · rw [check_ok, not_eq_true', eq_false_iff] at hnested
    exact fun hstarts => hnested (List.isPrefixOf_iff_prefix.mpr hstarts)

/-- **The codec of journal records.**  A journal is encoded exactly when it is valid, its record
reads back, and a text that is accepted is the record of its result, under one schema only and
behind the history prefix exactly when the result needs it. -/
theorem journal_record_codec :
    (∀ j : JobJournal, (∃ input, j.encode = .ok input) ↔ j.validate = .ok ()) ∧
      (∀ (j : JobJournal) input, j.encode = .ok input → decode input = .ok j) ∧
      (∀ input (j : JobJournal), decode input = .ok j → j.encode = .ok input) ∧
      (∀ (j j' : JobJournal) m n input, j.encodeForSchema m = .ok input →
        j'.encodeForSchema n = .ok input → m = n ∧ j = j') ∧
      (∀ input (j : JobJournal), decode input = .ok j →
        input = (if j.historyDecisionRequired then historyJournalPrefix else [])
          ++ plainRecord (journalHeader j.schema) (j.baseFields ++ j.schemaFields j.schema) ∧
        (j.historyDecisionRequired = true ↔ historyJournalPrefix <+: input)) ∧
      ∀ (inner : Text) (j : JobJournal),
        decode (historyJournalPrefix ++ (historyJournalPrefix ++ inner)) ≠ .ok j := by
  have hread : ∀ (j : JobJournal) input, j.encode = .ok input → decode input = .ok j := by
    intro j input h
    have hvalid := validate_of_encode h
    rw [encode_text hvalid, ok.injEq] at h
    rw [← h]
    exact decode_text hvalid
  have hstarts : lit "cake-autorate-calibration\t5\t" <+: historyJournalPrefix := by
    decide +kernel
  refine ⟨fun j => ⟨fun ⟨_, h⟩ => validate_of_encode h, fun h => ⟨_, encode_text h⟩⟩, hread,
    fun input j h => decode_eq_ok h, ?_, ?_, ?_⟩
  · intro j j' m n input h h'
    obtain ⟨hvalid, hhistory, rfl⟩ := encodeForSchema_facts h
    obtain ⟨hvalid', hhistory', rfl⟩ := encodeForSchema_facts h'
    have hj := encodeForSchema_eq_recordOf h
    have hj' := encodeForSchema_eq_recordOf h'
    have hsame := decodeRecord_recordOf hvalid hhistory
    rw [← hj, hj', decodeRecord_recordOf hvalid' hhistory', ok.injEq] at hsame
    exact ⟨congrArg schema hsame.symm, hsame.symm⟩
  · intro input j h
    have hencode := decode_eq_ok h
    have hvalid := validate_of_encode hencode
    rw [encode_text hvalid, ok.injEq] at hencode
    cases hhistory : j.historyDecisionRequired with
    | true =>
      have htext : input = historyJournalPrefix ++ j.withoutHistory.recordOf := by
        rw [← hencode, text, hhistory]
        rfl
      refine ⟨htext, fun _ => ?_, fun _ => rfl⟩
      rw [htext]
      exact List.prefix_append _ _
    | false =>
      have htext : input = j.recordOf := by
        rw [← hencode, text, hhistory]
        rfl
      refine ⟨htext, fun hfalse => ?_, fun hprefix => ?_⟩
      · cases hfalse
      · rw [htext] at hprefix
        exact absurd (hstarts.trans hprefix) (not_history_recordOf j)
  · intro inner j h
    obtain ⟨-, -, hnested⟩ := decode_prefixed h
    exact hnested (hstarts.trans (List.prefix_append _ _))

end JobJournal

end CakeAutorate.Journal
