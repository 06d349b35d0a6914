/-
# Records of the daemon log

`bounded_record` and the retained tail of `compact_file` in `logging.rs`, on bytes: a line is the
UTF-8 form of a `str`.  A file of the log is a retention marker, if it has been compacted, and
complete records; its compaction is again one, of the last of the records.

`Kept` is what the log is for.
-/

import CakeAutorate.Wire.Terminated
import CakeAutorate.Wire.Text

namespace CakeAutorate.DaemonLog

open Wire List

abbrev Bytes := List UInt8

def hardLogFileBytes : ℕ := 16 * 1024 * 1024

def maxRecordBytes : ℕ := 16 * 1024

def markerLine : Bytes := utf8 "LOG_RETENTION_TRUNCATED".toList

def compactionMarker : Bytes := markerLine ++ [10]

theorem length_compactionMarker : compactionMarker.length = 24 := by decide

def effectiveLimit (configured : ℕ) : ℕ :=
  if configured = 0 then hardLogFileBytes else min configured hardLogFileBytes

theorem effectiveLimit_le (configured : ℕ) : effectiveLimit configured ≤ hardLogFileBytes := by
  unfold effectiveLimit
  split
  · exact le_rfl
  · exact Nat.min_le_right _ _

/-- `str::is_char_boundary`. -/
def isCharBoundary (text : Bytes) (index : ℕ) : Bool :=
  index = 0 || (match text[index]? with
    | none => index = text.length
    | some b => b < 0x80 || 0xc0 ≤ b)

/-- The loop of `bounded_record`: the last boundary up to `end_`. -/
def boundaryUpTo (line : Bytes) : ℕ → ℕ
  | 0 => 0
  | end_ + 1 => if isCharBoundary line (end_ + 1) then end_ + 1 else boundaryUpTo line end_

def truncatedMark : Bytes := utf8 " [truncated]".toList

def boundedRecord (line : Bytes) (limit : ℕ) : Bytes :=
  let maximum := min limit maxRecordBytes - 1
  if line.length ≤ maximum then line
  else
    let marker := if 12 ≤ maximum then truncatedMark else []
    line.take (boundaryUpTo line (maximum - marker.length)) ++ marker

theorem boundaryUpTo_le (line : Bytes) (end_ : ℕ) : boundaryUpTo line end_ ≤ end_ := by
  induction end_ with
  | zero => exact le_rfl
  | succ end_ ih =>
    rw [boundaryUpTo]
    split
    · exact le_rfl
    · exact ih.trans (Nat.le_succ _)

/-- **A record with its newline** is within the limit and the bound of a record. -/
theorem length_boundedRecord {limit : ℕ} (hlimit : 0 < limit) (line : Bytes) :
    (boundedRecord line limit).length + 1 ≤ min limit maxRecordBytes := by
  have hmax : 0 < maxRecordBytes := by decide
  unfold boundedRecord
  by_cases hfits : line.length ≤ min limit maxRecordBytes - 1
  · rw [if_pos hfits]
    omega
  · rw [if_neg hfits]
    by_cases hmark : 12 ≤ min limit maxRecordBytes - 1
    · have hlength : truncatedMark.length = 12 := by decide
      have hcut := boundaryUpTo_le line (min limit maxRecordBytes - 1 - truncatedMark.length)
      rw [if_pos hmark, length_append, length_take]
      omega
    · have hcut := boundaryUpTo_le line (min limit maxRecordBytes - 1 - ([] : Bytes).length)
      rw [if_neg hmark, append_nil, length_take]
      omega

theorem newline_notMem_boundedRecord {line : Bytes} (hline : (10 : UInt8) ∉ line) (limit : ℕ) :
    (10 : UInt8) ∉ boundedRecord line limit := by
  have hmark : (10 : UInt8) ∉ truncatedMark := by decide
  have htake : ∀ n, (10 : UInt8) ∉ line.take n := fun n hmem => hline (mem_of_mem_take hmem)
  unfold boundedRecord
  by_cases hfits : line.length ≤ min limit maxRecordBytes - 1
  · rw [if_pos hfits]
    exact hline
  · rw [if_neg hfits]
    intro hmem
    rcases mem_append.mp hmem with hmem | hmem
    · exact htake _ hmem
    · split at hmem
      · exact hmark hmem
      · cases hmem

def logBytes (headed : Bool) (records : List Bytes) : Bytes :=
  (if headed then compactionMarker else []) ++ terminated 10 records

def compacted (limit : ℕ) (bytes : Bytes) : Bytes :=
  compactionMarker.take (min limit compactionMarker.length) ++
    afterFirst 10 (bytes.drop (bytes.length - (limit - min limit compactionMarker.length)))

theorem logBytes_concat (headed : Bool) (records : List Bytes) (record : Bytes) :
    logBytes headed (records ++ [record]) = logBytes headed records ++ (record ++ [10]) := by
  rw [logBytes, terminated_concat, ← append_assoc]
  rfl

theorem length_compacted_le (limit : ℕ) (bytes : Bytes) :
    (compacted limit bytes).length ≤ limit := by
  have htail : (afterFirst 10 (bytes.drop (bytes.length -
      (limit - min limit compactionMarker.length)))).length ≤ _ := length_afterFirst_le _
  rw [length_drop] at htail
  rw [compacted, length_append, length_take]
  omega

/-- **A file that is compacted** keeps the last of its records, behind one marker. -/
theorem compacted_logBytes {limit : ℕ} {headed : Bool} {records : List Bytes}
    (hlimit : compactionMarker.length ≤ limit) (hlong : limit < (logBytes headed records).length)
    (hrecords : ∀ r ∈ records, (10 : UInt8) ∉ r) :
    ∃ kept, kept <:+ records ∧ compacted limit (logBytes headed records) = logBytes true kept := by
  have hmarker : compactionMarker.take (min limit compactionMarker.length) = compactionMarker := by
    rw [Nat.min_eq_right hlimit, take_length]
  have hafter : ∃ kept, kept <:+ records ∧
      afterFirst 10 ((logBytes headed records).drop ((logBytes headed records).length -
        (limit - min limit compactionMarker.length))) = terminated 10 kept := by
    -- what is left out is longer than a marker
    have hpast : compactionMarker.length ≤ (logBytes headed records).length -
        (limit - min limit compactionMarker.length) := by
      omega
    generalize (logBytes headed records).length - (limit - min limit compactionMarker.length) = n
      at hpast
    cases headed with
    | false => exact afterFirst_drop hrecords n
    | true =>
      obtain ⟨k, rfl⟩ := Nat.exists_eq_add_of_le hpast
      obtain ⟨kept, hkept, heq⟩ := afterFirst_drop hrecords k
      refine ⟨kept, hkept, ?_⟩
      have hdrop : (logBytes true records).drop (compactionMarker.length + k) =
          (terminated 10 records).drop k := drop_length_add_append k
      rw [hdrop]
      exact heq
  obtain ⟨kept, hkept, heq⟩ := hafter
  refine ⟨kept, hkept, ?_⟩
  rw [compacted, hmarker, heq]
  rfl

def IsRecord (r : Bytes) : Prop := (10 : UInt8) ∉ r ∧ r.length + 1 ≤ maxRecordBytes

/-- **What the log keeps** of the records written. -/
structure Kept (written : List Bytes) (previous active : Bytes) : Prop where
  records : ∀ r ∈ written, IsRecord r
  blocks : ∃ before older gap newer headedOlder headedNewer,
    written = before ++ older ++ gap ++ newer ∧ previous = logBytes headedOlder older ∧
      active = logBytes headedNewer newer ∧ (headedNewer = false → gap = [])

variable {written : List Bytes} {previous active : Bytes} {limit : ℕ}

theorem kept_nil : Kept [] [] [] where
  records := by
    intro r hr
    cases hr
  blocks := ⟨[], [], [], [], false, false, rfl, rfl, rfl, fun _ => rfl⟩

theorem Kept.rotate (h : Kept written previous active) : Kept written active [] := by
  obtain ⟨before, older, gap, newer, headedOlder, headedNewer, hwritten, -, hactive, -⟩ := h.blocks
  refine ⟨h.records, before ++ older ++ gap, newer, [], [], headedNewer, false, ?_, hactive, rfl,
    fun _ => rfl⟩
  rw [append_nil, append_nil]
  exact hwritten

def EndsWith (written : List Bytes) (record previous active : Bytes) : Prop :=
  ∃ before older gap newer headedOlder headedNewer,
    written ++ [record] = before ++ older ++ gap ++ (newer ++ [record]) ∧
      previous = logBytes headedOlder older ∧ active = logBytes headedNewer (newer ++ [record]) ∧
        (headedNewer = false → gap = [])

section

variable (h : Kept written previous active)
include h

theorem Kept.endsWith (record : Bytes) :
    EndsWith written record previous (active ++ (record ++ [10])) := by
  obtain ⟨before, older, gap, newer, headedOlder, headedNewer, rfl, hprevious, rfl, hgap⟩ := h.blocks
  refine ⟨before, older, gap, newer, headedOlder, headedNewer, ?_, hprevious, ?_, hgap⟩
  · rw [append_assoc]
  · exact (logBytes_concat headedNewer newer record).symm

theorem Kept.write {record : Bytes} (hrecord : IsRecord record) :
    Kept (written ++ [record]) previous (active ++ (record ++ [10])) := by
  obtain ⟨before, older, gap, newer, headedOlder, headedNewer, hwritten, hprevious, hactive, hgap⟩ :=
    h.endsWith record
  refine ⟨?_, before, older, gap, newer ++ [record], headedOlder, headedNewer, hwritten, hprevious,
    hactive, hgap⟩
  intro r hr
  rcases mem_append.mp hr with hr | hr
  · exact h.records r hr
  · rw [mem_singleton.mp hr]
    exact hrecord

theorem Kept.compactActive (hlimit : compactionMarker.length ≤ limit)
    (hlong : limit < active.length) : Kept written previous (compacted limit active) := by
  obtain ⟨before, older, gap, newer, headedOlder, headedNewer, rfl, hprevious, rfl, -⟩ := h.blocks
  have hnewer : ∀ r ∈ newer, (10 : UInt8) ∉ r :=
    fun r hr => (h.records r (mem_append_right _ hr)).1
  obtain ⟨kept, ⟨dropped, rfl⟩, heq⟩ := compacted_logBytes hlimit hlong hnewer
  refine ⟨h.records, before, older, gap ++ dropped, kept, headedOlder, true, ?_, hprevious, heq, ?_⟩
  · simp
  · intro hfalse
    cases hfalse

theorem Kept.compactPrevious (hlimit : compactionMarker.length ≤ limit)
    (hlong : limit < previous.length) : Kept written (compacted limit previous) active := by
  obtain ⟨before, older, gap, newer, headedOlder, headedNewer, rfl, rfl, hactive, hgap⟩ := h.blocks
  have holder : ∀ r ∈ older, (10 : UInt8) ∉ r := by
    intro r hr
    refine (h.records r ?_).1
    simp only [mem_append]
    exact .inl (.inl (.inr hr))
  obtain ⟨kept, ⟨dropped, rfl⟩, heq⟩ := compacted_logBytes hlimit hlong holder
  refine ⟨h.records, before ++ dropped, kept, gap, newer, true, headedNewer, ?_, heq, hactive, hgap⟩
  simp

end

end CakeAutorate.DaemonLog
