/-
# The daemon log keeps whole records in order

A run of the log: calls of `write_line` and `flush`, each of which may fail, a process that stops
with nothing buffered or crashes before a record is written, and `open_with_limit` after it.

What is buffered is lost in a crash.  Both compaction of the active file and rotation flush it
first, but the previous file is compacted with records in the buffer; a crash there leaves a gap.
-/

import CakeAutorate.DaemonLog.Writing

namespace CakeAutorate.DaemonLog

open Syscall Wire List World Op

variable {refusals : Bool} {s t : World} {written : List Bytes} {line record : Bytes} {limit : ℕ}

theorem Up.counts (h : Up written s) {log : LogFile} (hfile : log.file = s.log.file)
    (hbuffer : log.buffer = s.log.buffer)
    (hmissing : log.activeMissingAfterRotation = s.log.activeMissingAfterRotation) :
    Up written { s with log } := by
  refine ⟨⟨h.named.distinct, h.named.old⟩, h.marked, ?_, ?_⟩
  · show Kept written (s.bytesAt .previous) (s.bytesAt .active ++ log.buffer)
    rw [hbuffer]
    exact h.kept
  · rcases h.place with hlive | hplace | hstale
    · exact .inl ⟨hlive.active.trans (congrArg some hfile.symm), hmissing.trans hlive.missing⟩
    · exact .inr (.inl ⟨hplace.previous.trans (congrArg some hfile.symm),
        hmissing.trans hplace.missing, hbuffer.trans hplace.buffer, hplace.active⟩)
    · refine .inr (.inr ⟨?_, hmissing.trans hstale.missing, hbuffer.trans hstale.buffer⟩)
      intro heq
      exact hstale.active (heq.trans (congrArg some hfile))

variable {Q : Except LogError Unit → World → Prop}

/-- **`write_line`**, the active file that is missing. -/
theorem wp_reinstall (h : Up written s)
    (hok : ∀ t, Up written t → t.log.activeMissingAfterRotation = false → Q (.ok ()) t)
    (herr : ∀ e t, Up written t → Q (.error e) t) :
    wp (machine refusals) Q (Idle written) reinstall s := by
  refine wp_self h.idle (wp_onlyIf h.idle ?_ ?_)
  · intro hset
    have hmissing : Missing s := by
      rcases h.place with hlive | hmissing | hstale
      · rw [hlive.missing] at hset
        cases hset
      · exact hmissing
      · rw [hstale.missing] at hset
        cases hset
    refine wp_bind (wp_attest h.named h.idle ?_ fun e _ => herr e s h)
    intro _
    exact wp_install h hmissing (fun t ht hlive _ _ => hok t ht hlive.missing) herr
  · intro hset
    exact hok s h (Bool.not_eq_true _ ▸ hset)

/-- **`write_line`**, an active file above the limit. -/
theorem wp_boundActive (h : Up written s) (hmissing : s.log.activeMissingAfterRotation = false)
    (hlow : compactionMarker.length ≤ limit) (hhigh : limit ≤ hardLogFileBytes)
    (hok : ∀ t, Up written t → Live t → t.activeBytes.length ≤ limit →
      t.log.bytesWritten = t.activeBytes.length → Q (.ok ()) t)
    (herr : ∀ e t, Up written t → Q (.error e) t) :
    wp (machine refusals) Q (Idle written) (boundActive limit) s := by
  refine wp_self h.idle (wp_bind (wp_attest h.named h.idle ?_ fun e _ => herr e s h))
  intro hactive
  have hmetadata : ∀ file, (Op.metadata file).exec s = (.ok (s.metadata file), s) := fun _ => rfl
  refine wp_bind (wp_answers trivial (hmetadata _) h.idle h.idle ?_ fun e _ => herr e s h)
  have hlength : (s.metadata s.log.file).len + s.log.buffer.length = s.activeBytes.length := by
    rw [activeBytes, bytesAt_some hactive, length_append]
    rfl
  have hup : Up written { s with log := { s.log with
      bytesWritten := (s.metadata s.log.file).len + s.log.buffer.length } } :=
    h.counts rfl rfl rfl
  refine wp_bind (wp_set h.idle hup.idle ?_)
  generalize hs₁ : ({ s with log := { s.log with
    bytesWritten := (s.metadata s.log.file).len + s.log.buffer.length } } : World) = s₁ at hup
  have hlive₁ : Live s₁ := by
    rw [← hs₁]
    exact ⟨hactive, hmissing⟩
  have hactive₁ : s₁.activeBytes = s.activeBytes := by
    rw [← hs₁]
    rfl
  refine wp_onlyIf hup.idle ?_ ?_
  · intro _
    refine wp_bind (wp_flush (fun _ => idle_of_busy) hup.idle hup.free ?_)
    intro t ht hbuffer
    obtain ⟨hupt, -, -, hlivet⟩ := hup.flushed ht hbuffer
    replace hlivet := hlivet hlive₁
    refine ⟨hupt.idle, wp_bind (wp_compactFile hupt.named hupt.marked (by decide) hlow hhigh ?_ ?_ ?_)⟩
    · intro u hu
      exact (hu.up_active hupt hlivet hbuffer hlow).idle
    · intro file u hu hfile hulength
      obtain ⟨hdown, -⟩ := hu.down_active (hupt.idle hbuffer) hlow
      have hbufferu : u.log.buffer = [] := hu.log ▸ hbuffer
      refine wp_bind (wp_replaceFile hbufferu (fun _ => hdown) (fun _ => hdown.withLog _) ?_)
      have hlast : ∀ count, Up written { u with log := { u.log with
          file := file, buffer := [], bytesWritten := count } } := by
        intro count
        refine ⟨⟨hdown.named.distinct, hdown.named.old⟩, hdown.marked, ?_,
          .inl ⟨hfile, hu.log ▸ hlivet.missing⟩⟩
        show Kept written (u.bytesAt .previous) (u.bytesAt .active ++ [])
        rw [append_nil]
        exact hdown.kept
      have hmetadata' : (metadata file).exec { u with log := { u.log with
          file := file, buffer := [] } } = (.ok (metadata { u with log := { u.log with
            file := file, buffer := [] } } file), { u with log := { u.log with
              file := file, buffer := [] } }) := rfl
      refine wp_bind (wp_answers trivial hmetadata' (fun _ => hdown.withLog _)
        (fun _ => hdown.withLog _) ?_ fun e _ => herr e _ (hlast u.log.bytesWritten))
      refine wp_set (fun _ => hdown.withLog _) (fun _ => hdown.withLog _) ?_
      have hbytes : (u.inodes file).bytes.length = (u.bytesAt .active ++ []).length := by
        rw [bytesAt_some hfile, append_nil]
      refine hok _ (hlast _) ⟨hfile, hu.log ▸ hlivet.missing⟩ ?_ hbytes
      show (u.bytesAt .active ++ []).length ≤ limit
      rw [append_nil]
      exact hulength
    · intro e u hu _
      exact herr e u (hu.up_active hupt hlivet hbuffer hlow)
  · intro hfits
    rw [hlength] at hfits
    refine hok s₁ hup hlive₁ ?_ ?_
    · rw [hactive₁]
      exact not_lt.mp hfits
    · rw [hactive₁, ← hs₁]
      exact hlength

/-- **`write_line`**, a previous file above the limit. -/
theorem wp_boundPrevious (h : Up written s) (hlive : Live s)
    (hlow : compactionMarker.length ≤ limit) (hhigh : limit ≤ hardLogFileBytes)
    (hok : ∀ t, Up written t → Live t → t.activeBytes = s.activeBytes → t.log = s.log →
      (t.bytesAt .previous).length ≤ limit → Q (.ok ()) t)
    (herr : ∀ e t, Up written t → Q (.error e) t) :
    wp (machine refusals) Q (Idle written) (boundPrevious limit) s := by
  refine wp_io trivial h.idle ?_ fun _ => wp_ret h.idle (herr _ s h)
  dsimp only [Op.exec]
  cases hprevious : s.names .previous with
  | none =>
    rw [stat_none hprevious]
    refine wp_ret h.idle (hok s h hlive rfl rfl ?_)
    rw [bytesAt_none hprevious]
    exact Nat.zero_le _
  | some i =>
    rw [stat_some hprevious]
    refine wp_onlyIf h.idle ?_ ?_
    · intro _
      refine wp_bind (wp_compactFile h.named h.marked (by decide) hlow hhigh ?_ ?_ ?_)
      · intro t ht
        exact (ht.up_previous h hlive hlow).1.idle
      · intro file t ht _ hlength
        obtain ⟨hup, hlive', hactive⟩ := ht.up_previous h hlive hlow
        exact wp_ret hup.idle (hok t hup hlive' hactive ht.log hlength)
      · intro e t ht _
        exact herr e t (ht.up_previous h hlive hlow).1
    · intro hfits
      refine hok s h hlive rfl rfl ?_
      rw [bytesAt_some hprevious]
      exact not_lt.mp hfits

/-- There is room for a record, and the previous file is within the limit. -/
structure Room (written : List Bytes) (limit pending : ℕ) (s : World) : Prop where
  up : Up written s
  live : Live s
  active : s.activeBytes.length + pending ≤ limit
  previous : (s.bytesAt .previous).length ≤ limit

variable (settings : Settings)

/-- **`write_line`**, up to the record. -/
theorem wp_prepare (h : Up written s)
    (hlow : compactionMarker.length ≤ effectiveLimit settings.maxSizeBytes) :
    wp (machine refusals) (fun r t => Up written t ∧ (r = .ok () →
        Room written (effectiveLimit settings.maxSizeBytes)
          ((boundedRecord line (effectiveLimit settings.maxSizeBytes)).length + 1) t))
      (Idle written) (prepare line settings) s := by
  have hhigh := effectiveLimit_le settings.maxSizeBytes
  unfold prepare
  generalize effectiveLimit settings.maxSizeBytes = limit at hlow hhigh
  have hpending : (boundedRecord line limit).length + 1 ≤ limit := by
    have hlength := length_compactionMarker
    exact (length_boundedRecord (by omega) line).trans (Nat.min_le_left _ _)
  have herr : ∀ (e : LogError) t, Up written t → Up written t ∧ (Except.error e = .ok () →
      Room written limit ((boundedRecord line limit).length + 1) t) := by
    intro e t ht
    refine ⟨ht, fun heq => ?_⟩
    cases heq
  refine wp_bind (wp_reinstall h ?_ herr)
  intro s₁ hup₁ hmissing₁
  refine wp_bind (wp_boundActive hup₁ hmissing₁ hlow hhigh ?_ herr)
  intro s₂ hup₂ hlive₂ hlength₂ hcount₂
  refine wp_bind (wp_boundPrevious hup₂ hlive₂ hlow hhigh ?_ herr)
  intro s₃ hup₃ hlive₃ hactive₃ hlog₃ hprevious₃
  have hcleanup : (cleanupLegacy legacyCleanupBatch).exec s₃ = (.ok (), s₃) := rfl
  refine wp_bind (wp_answers trivial hcleanup hup₃.idle hup₃.idle ?_ fun e _ => herr e s₃ hup₃)
  refine wp_clock hup₃.idle fun now => wp_self hup₃.idle (wp_onlyIf hup₃.idle ?_ ?_)
  · intro _
    refine wp_rotate hup₃ hlive₃ ?_ herr
    intro t ht hlivet hactivet hprevioust
    refine ⟨ht, fun _ => ⟨ht, hlivet, ?_, ?_⟩⟩
    · rw [hactivet]
      exact (Nat.zero_add _).trans_le hpending
    · rw [hprevioust, hactive₃]
      exact hlength₂
  · intro hnot
    refine ⟨hup₃, fun _ => ⟨hup₃, hlive₃, ?_, hprevious₃⟩⟩
    have hcount : s₃.log.bytesWritten = s₃.activeBytes.length := by
      rw [hlog₃, hcount₂, hactive₃]
    rw [not_or, hcount] at hnot
    exact not_lt.mp hnot.2

/-- What the log keeps right after a record. -/
structure Recorded (written : List Bytes) (record : Bytes) (limit : ℕ) (s : World) : Prop where
  active : s.activeBytes.length ≤ limit
  previous : (s.bytesAt .previous).length ≤ limit
  records : ∀ r ∈ written ++ [record], IsRecord r
  blocks : EndsWith written record (s.bytesAt .previous) s.activeBytes

/-- **`write_line`**, the record. -/
theorem wp_commit (hrecord : IsRecord record) (h : Room written limit (record.length + 1) s) :
    wp (machine refusals) (fun r t => r = .ok () ∧ Up (written ++ [record]) t ∧
        Recorded written record limit t) (fun _ => True) (commit record settings) s := by
  have hfree : s.names .temporary ≠ some s.log.file := by
    intro htemp
    have heq := h.up.named.distinct .active .temporary _ h.live.active htemp
    cases heq
  have hdone : ∀ t, Logged s t (record ++ [10]) →
      Up (written ++ [record]) t ∧ Recorded written record limit t := by
    intro t ht
    obtain ⟨hn, hm, hprevious, hactive⟩ := ht.extends h.up.named h.up.marked h.live
    have hkept := h.up.kept.write hrecord
    refine ⟨⟨hn, hm, ?_, .inl (ht.live h.live)⟩, ⟨?_, ?_, hkept.records, ?_⟩⟩
    · rw [hprevious, hactive]
      exact hkept
    · have hroom := h.active
      rw [hactive, length_append, length_append]
      exact hroom
    · rw [hprevious]
      exact h.previous
    · rw [hprevious, hactive]
      exact h.up.kept.endsWith record
  refine wp_bind (wp_writeAll hfree ?_)
  intro t ht
  refine wp_bind (wp_writeAll ?_ ?_)
  · rw [ht.names, ht.file]
    exact hfree
  intro u hu
  have hlogged := ht.trans hu
  refine wp_bind (wp_set trivial trivial ?_)
  have hcounted : ∀ log : LogFile, log.file = u.log.file → log.buffer = u.log.buffer →
      log.activeMissingAfterRotation = u.log.activeMissingAfterRotation →
      Logged s { u with log } (record ++ [10]) := by
    intro log hfile hbuffer hmissing
    refine ⟨hlogged.names, hlogged.fresh, hlogged.inodes, hfile.trans hlogged.file,
      hmissing.trans hlogged.missing, ?_⟩
    rw [hbuffer]
    exact hlogged.bytes
  have hlogged' := hcounted { u.log with
    bytesWritten := u.log.bytesWritten + (record.length + 1)
    bytesPending := u.log.bytesPending + (record.length + 1) } rfl rfl rfl
  refine wp_self trivial (wp_clock trivial fun now => wp_onlyIf trivial ?_ ?_)
  · intro _
    refine wp_flush (fun _ _ => trivial) trivial ?_ ?_
    · intro _
      rw [hlogged'.names, hlogged'.file]
      exact hfree
    · intro v hv _
      have hall := hlogged'.trans hv
      rw [append_nil] at hall
      exact ⟨trivial, rfl, hdone v hall⟩
  · intro _
    exact ⟨rfl, hdone _ hlogged'⟩

/-- **`write_line`.** -/
theorem wp_writeLine (hline : (10 : UInt8) ∉ line) (h : Up written s)
    (hlow : compactionMarker.length ≤ effectiveLimit settings.maxSizeBytes) :
    wp (machine refusals) (fun r t =>
        (r = .ok () ∧
          Up (written ++ [boundedRecord line (effectiveLimit settings.maxSizeBytes)]) t ∧
            Recorded written (boundedRecord line (effectiveLimit settings.maxSizeBytes))
              (effectiveLimit settings.maxSizeBytes) t) ∨ (r ≠ .ok () ∧ Up written t))
      (fun _ => True) (writeLine line settings) s := by
  have hrecord : IsRecord (boundedRecord line (effectiveLimit settings.maxSizeBytes)) := by
    have hlength := length_compactionMarker
    exact ⟨newline_notMem_boundedRecord hline _,
      (length_boundedRecord (by omega) line).trans (Nat.min_le_right _ _)⟩
  refine wp_bind (wp_mono ?_ (fun _ _ => trivial) (wp_prepare settings h hlow))
  intro r t ht
  cases r with
  | ok _ => exact wp_post (fun _ _ h' => .inl h') (wp_commit settings hrecord (ht.2 rfl))
  | error e =>
    refine .inr ⟨?_, ht.1⟩
    intro heq
    cases heq

/-- **`open_file`** of a file that is created when it is not there. -/
theorem wp_openCreate {path : Name} {I : World → Prop} {Q : Except LogError ℕ → World → Prop}
    (hn : Named s) (hI : I s) (hI' : s.names path = none → I (s.create path))
    (hsome : ∀ file, s.names path = some file → Q (.ok file) s)
    (hnone : s.names path = none → Q (.ok s.fresh) (s.create path))
    (herr : ∀ e t, t = s ∨ (s.names path = none ∧ t = s.create path) → Refusal refusals e →
      Q (.error e) t) :
    wp (machine refusals) Q I (openFile path true) s := by
  have hplain : (Op.openFile path true).Plain := trivial
  have hrefused : ∀ e, Refusal refusals e → Q (.error e) s := fun e he => herr e s (.inl rfl) he
  refine wp_io trivial hI ?_ fun hrefusals => wp_ret hI (hrefused _ ⟨hrefusals, rfl⟩)
  show wp _ _ _ (Program.lift (mayOpen true (s.stat path)) >>= _) s
  cases hpath : s.names path with
  | none =>
    rw [stat_none hpath]
    show wp _ _ _ (perform (.openFile path true) >>= _) s
    have hopen : Op.exec (.openFile path true) s = (.ok s.fresh, s.create path) := by
      simp [Op.exec, hpath]
    refine wp_bind (wp_answers hplain hopen hI (hI' hpath) ?_ hrefused)
    refine wp_bind (wp_attest (hn.create path) (hI' hpath) ?_ ?_)
    · intro _
      exact wp_ret (hI' hpath) (hnone hpath)
    · intro e he
      rcases he with hrefusal | hne
      · exact herr e _ (.inr ⟨hpath, rfl⟩) hrefusal
      · exact absurd (create_names s path) hne
  | some i =>
    have howned : ownedRegular (s.metadata i) = true := beq_iff_eq.mpr (hn.nlink hpath)
    have hmay : mayOpen true (.ok (s.metadata i)) = .ok () := if_pos howned
    rw [stat_some hpath, hmay]
    show wp _ _ _ (perform (.openFile path true) >>= _) s
    have hopen : Op.exec (.openFile path true) s = (.ok i, s) := by
      simp [Op.exec, hpath]
    refine wp_bind (wp_answers hplain hopen hI hI ?_ hrefused)
    refine wp_bind (wp_attest hn hI ?_ ?_)
    · intro _
      exact wp_ret hI (hsome i hpath)
    · intro e he
      rcases he with hrefusal | hne
      · exact hrefused e hrefusal
      · exact absurd hpath hne

/-- What the log keeps when it is opened. -/
structure Opened (written : List Bytes) (limit : ℕ) (s : World) : Prop where
  active : s.activeBytes.length ≤ limit
  previous : (s.bytesAt .previous).length ≤ limit
  kept : Kept written (s.bytesAt .previous) s.activeBytes

/-- What `open_with_limit` may answer. -/
def OpenPost (refusals : Bool) (written : List Bytes) (limit : ℕ) (r : Except LogError Unit)
    (t : World) : Prop :=
  (r = .ok () ∧ Up written t ∧ Opened written limit t) ∨
    (r ≠ .ok () ∧ refusals = true ∧ Down written t)

theorem openPost_error {e : LogError} (hd : Down written t) (he : Refusal refusals e) :
    OpenPost refusals written limit (.error e) t := by
  refine .inr ⟨?_, he.1, hd⟩
  intro heq
  cases heq

/-- **`open_with_limit`**, the log of the files. -/
theorem wp_attach {file : ℕ} (hd : Down written s) (hactive : s.names .active = some file)
    (hlength : (s.bytesAt .active).length ≤ limit)
    (hprevious : (s.bytesAt .previous).length ≤ limit) :
    wp (machine refusals) (OpenPost refusals written limit) (Down written) (attach file) s := by
  have hmetadata : (metadata file).exec s = (.ok (s.metadata file), s) := rfl
  refine wp_bind (wp_answers trivial hmetadata hd hd ?_ fun e he => openPost_error hd he)
  refine wp_clock hd fun opened => wp_clock hd fun flushed => ?_
  refine wp_bind (wp_set hd (hd.withLog _) ?_)
  have hcleanup : ∀ t : World, (cleanupLegacy 128).exec t = (.ok (), t) := fun _ => rfl
  refine wp_answers trivial (hcleanup _) (hd.withLog _) (hd.withLog _) (.inl ⟨rfl, ?_, ?_⟩)
    fun e he => openPost_error (hd.withLog _) he
  · refine ⟨⟨hd.named.distinct, hd.named.old⟩, hd.marked, ?_, .inl ⟨hactive, rfl⟩⟩
    show Kept written (s.bytesAt .previous) (s.bytesAt .active ++ [])
    rw [append_nil]
    exact hd.kept
  · refine ⟨?_, hprevious, ?_⟩
    · show (s.bytesAt .active ++ []).length ≤ limit
      rw [append_nil]
      exact hlength
    · show Kept written (s.bytesAt .previous) (s.bytesAt .active ++ [])
      rw [append_nil]
      exact hd.kept

/-- **`open_with_limit`**, the two files. -/
theorem wp_openFiles {file : ℕ} (hd : Down written s) (hactive : s.names .active = some file)
    (hlow : compactionMarker.length ≤ limit) (hhigh : limit ≤ hardLogFileBytes) :
    wp (machine refusals) (OpenPost refusals written limit) (Down written) (openFiles limit) s := by
  have hpermissions : ∀ (file : ℕ) (t : World), (setPermissions file).exec t = (.ok (), t) :=
    fun _ _ => rfl
  refine wp_bind (wp_compactFile hd.named hd.marked (by decide) hlow hhigh
    (fun t ht => (ht.down_active hd hlow).1) ?_ ?_)
  · intro active t ht hactivet hlengtht
    have hdt := (ht.down_active hd hlow).1
    refine wp_bind (wp_answers trivial (hpermissions _ _) hdt hdt ?_ fun e he =>
      openPost_error hdt he)
    have hdown : ∀ u, Compacting .previous limit t u → Down written u ∧
        u.names .active = some active ∧ (u.bytesAt .active).length ≤ limit := by
      intro u hu
      obtain ⟨hnames, hbytes⟩ := hu.others .active (by decide) (by decide)
      refine ⟨⟨hu.named, hu.marked, ?_⟩, hnames.trans hactivet, ?_⟩
      · rw [hbytes]
        exact hu.kept_previous hdt.kept hlow
      · rw [hbytes]
        exact hlengtht
    refine wp_bind (wp_bind (wp_attempt (wp_compactFile hdt.named hdt.marked (by decide) hlow hhigh
      (fun u hu => (hdown u hu).1) ?_ ?_)))
    · intro previous u hu _ hlengthu
      obtain ⟨hdu, hactiveu, hlengthu'⟩ := hdown u hu
      exact wp_answers trivial (hpermissions _ _) hdu hdu
        (wp_attach hdu hactiveu hlengthu' hlengthu) fun e he => openPost_error hdu he
    · intro e u hu he
      obtain ⟨hdu, hactiveu, hlengthu⟩ := hdown u hu
      rcases he with ⟨hrefusals, rfl⟩ | ⟨rfl, hnone⟩
      · exact wp_ret hdu (openPost_error hdu ⟨hrefusals, rfl⟩)
      · refine wp_ret hdu (wp_attach hdu hactiveu hlengthu ?_)
        rcases hu.file with ⟨hsame, hbytes⟩ | ⟨hlong, -, -⟩
        · rw [bytesAt_none (hsame.trans hnone)]
          exact Nat.zero_le _
        · rw [bytesAt_none hnone] at hlong
          exact absurd hlong (Nat.not_lt_zero _)
  · intro e t ht he
    rcases he with hrefusal | ⟨-, hnone⟩
    · exact openPost_error (ht.down_active hd hlow).1 hrefusal
    · rw [hactive] at hnone
      cases hnone

/-- **`open_with_limit`** after a call that was cut off. -/
theorem wp_open (configured : ℕ) (h : Down written s)
    (hlow : compactionMarker.length ≤ effectiveLimit configured) :
    wp (machine refusals) (OpenPost refusals written (effectiveLimit configured)) (Down written)
      (openWithLimit configured) s := by
  have hhigh := effectiveLimit_le configured
  have hnamespace : openNamespace.exec s = (.ok (), s) := rfl
  refine wp_bind (wp_answers trivial hnamespace h h ?_ fun e he => openPost_error h he)
  have hremoved : Down written (s.remove .temporary) := by
    refine ⟨h.named.remove .temporary, marked_remove s, ?_⟩
    exact h.kept
  refine wp_bind (wp_recover h.named h.marked h hremoved ?_ fun e he => openPost_error h he)
  generalize s.remove .temporary = t at hremoved
  have hcreated : t.names .active = none → Down written (t.create .active) := by
    intro hnone
    have hkept := hremoved.kept
    rw [bytesAt_none hnone] at hkept
    refine ⟨hremoved.named.create .active, ?_, ?_⟩
    · rw [Marked, hremoved.named.create_bytesAt (by decide)]
      exact hremoved.marked
    · rw [hremoved.named.create_bytesAt (by decide), create_bytesAt]
      exact hkept
  refine wp_bind (wp_openCreate hremoved.named hremoved hcreated ?_ ?_ ?_)
  · intro file hfile
    exact wp_openFiles hremoved hfile hlow hhigh
  · intro hnone
    exact wp_openFiles (hcreated hnone) (create_names t .active) hlow hhigh
  · rintro e u (rfl | ⟨hnone, rfl⟩) hrefusal
    · exact openPost_error hremoved hrefusal
    · exact openPost_error (hcreated hnone) hrefusal

def World.down (s : World) : World := { s with log := .none }

def World.empty : World := ⟨fun _ => none, fun _ => ⟨[], 0⟩, 0, .none⟩

/-- Runs of the log, open or not, with the records written; `crashes` are the states in which a
call may be cut off before its record is written. -/
inductive Run (crashes : World → Prop) : List Bytes → Bool → World → Prop where
  | start : Run crashes [] false .empty
  | opened {written : List Bytes} {s t : World} (limit : ℕ) : Run crashes written false s →
      compactionMarker.length ≤ effectiveLimit limit →
      Exec (machine true) (openWithLimit limit) s (.returned (.ok ()) t) →
      Run crashes written true t
  | openFailed {written : List Bytes} {s t : World} {e : LogError} (limit : ℕ) :
      Run crashes written false s → compactionMarker.length ≤ effectiveLimit limit →
      Exec (machine true) (openWithLimit limit) s (.returned (.error e) t) →
      Run crashes written false t.down
  | openCrashed {written : List Bytes} {s t : World} (limit : ℕ) : Run crashes written false s →
      compactionMarker.length ≤ effectiveLimit limit →
      Exec (machine true) (openWithLimit limit) s (.crashed t) → Run crashes written false t.down
  | wrote {written : List Bytes} {s t : World} (line : Bytes) (settings : Settings) :
      Run crashes written true s → (10 : UInt8) ∉ line →
      compactionMarker.length ≤ effectiveLimit settings.maxSizeBytes →
      Exec (machine true) (writeLine line settings) s (.returned (.ok ()) t) →
      Run crashes (written ++ [boundedRecord line (effectiveLimit settings.maxSizeBytes)]) true t
  | failed {written : List Bytes} {s t : World} {e : LogError} (line : Bytes) (settings : Settings) :
      Run crashes written true s → (10 : UInt8) ∉ line →
      compactionMarker.length ≤ effectiveLimit settings.maxSizeBytes →
      Exec (machine true) (writeLine line settings) s (.returned (.error e) t) →
      Run crashes written true t
  | crashed {written : List Bytes} {s t : World} (line : Bytes) (settings : Settings) :
      Run crashes written true s →
      compactionMarker.length ≤ effectiveLimit settings.maxSizeBytes →
      Exec (machine true) (prepare line settings) s (.crashed t) → crashes t →
      Run crashes written false t.down
  | flushed {written : List Bytes} {s t : World} {r : Except LogError Unit} :
      Run crashes written true s → Exec (machine true) flush s (.returned r t) →
      Run crashes written true t
  | stopped {written : List Bytes} {s : World} : Run crashes written true s → s.log.buffer = [] →
      Run crashes written false s.down

def NothingBuffered (s : World) : Prop := s.log.buffer = []

/-- **Every run** in which nothing is buffered at a crash. -/
theorem Run.holds {isOpen : Bool} (h : Run NothingBuffered written isOpen s) :
    (isOpen = true → Up written s) ∧ (isOpen = false → Down written s) := by
  have hopen : ∀ {written s}, Up written s →
      (true = true → Up written s) ∧ (true = false → Down written s) :=
    fun h => ⟨fun _ => h, fun heq => absurd heq (by decide)⟩
  have hclosed : ∀ {written s}, Down written s →
      (false = true → Up written s) ∧ (false = false → Down written s) :=
    fun h => ⟨fun heq => absurd heq (by decide), fun _ => h⟩
  induction h with
  | start =>
    refine hclosed ⟨⟨?_, ?_⟩, marked_none rfl, kept_nil⟩
    · intro a b i ha
      cases ha
    · intro a i ha
      cases ha
  | opened limit _ hlow hexec ih =>
    rcases (wp_sound (wp_open limit (ih.2 rfl) hlow) hexec).2 with ⟨-, hup, -⟩ | ⟨hne, -⟩
    · exact hopen hup
    · exact absurd rfl hne
  | openFailed limit _ hlow hexec ih =>
    exact hclosed ((wp_sound (wp_open limit (ih.2 rfl) hlow) hexec).1.withLog _)
  | openCrashed limit _ hlow hexec ih =>
    have hdown : Down _ _ := wp_sound (wp_open limit (ih.2 rfl) hlow) hexec
    exact hclosed (hdown.withLog _)
  | wrote line settings _ hline hlow hexec ih =>
    rcases (wp_sound (wp_writeLine settings hline (ih.1 rfl) hlow) hexec).2 with
      ⟨-, hup, -⟩ | ⟨hne, -⟩
    · exact hopen hup
    · exact absurd rfl hne
  | failed line settings _ hline hlow hexec ih =>
    rcases (wp_sound (wp_writeLine settings hline (ih.1 rfl) hlow) hexec).2 with
      ⟨heq, -⟩ | ⟨-, hup⟩
    · cases heq
    · exact hopen hup
  | crashed line settings _ hlow hexec hcrash ih =>
    have hidle : Idle _ _ := wp_sound (wp_prepare settings (ih.1 rfl) hlow) hexec
    exact hclosed ((hidle hcrash).withLog _)
  | @flushed written s t r _ hexec ih =>
    have hup := ih.1 rfl
    have hwp : wp (machine true) (fun _ t => Up written t) (fun _ => True) flush s := by
      refine wp_flush (fun _ _ => trivial) trivial hup.free ?_
      intro t ht hbuffer
      exact ⟨trivial, (hup.flushed ht hbuffer).1⟩
    exact hopen (wp_sound hwp hexec).2
  | stopped _ hbuffer ih =>
    exact hclosed (((ih.1 rfl).idle hbuffer).withLog _)

/-- **What a run promises.** -/
structure Retains (written : List Bytes) (isOpen : Bool) (s : World) : Prop where
  /-- A call that succeeds leaves two blocks of the records written, the last of which is its own. -/
  write : isOpen = true → ∀ line settings t, (10 : UInt8) ∉ line →
    compactionMarker.length ≤ effectiveLimit settings.maxSizeBytes →
    Exec (machine true) (writeLine line settings) s (.returned (.ok ()) t) →
    Recorded written (boundedRecord line (effectiveLimit settings.maxSizeBytes))
      (effectiveLimit settings.maxSizeBytes) t
  /-- The log is opened again unless a call is refused, and nothing is lost or doubled. -/
  reopen : isOpen = false → ∀ configured r t, compactionMarker.length ≤ effectiveLimit configured →
    Exec (machine false) (openWithLimit configured) s (.returned r t) →
    r = .ok () ∧ Opened written (effectiveLimit configured) t

/-- **The log keeps whole records in order**, in every run in which nothing is buffered at a
crash. -/
theorem log_retains {isOpen : Bool} (h : Run NothingBuffered written isOpen s) :
    Retains written isOpen s := by
  obtain ⟨hup, hdown⟩ := h.holds
  refine ⟨?_, ?_⟩
  · intro hopen line settings t hline hlow hexec
    rcases (wp_sound (wp_writeLine settings hline (hup hopen) hlow) hexec).2 with
      ⟨-, -, hrecorded⟩ | ⟨hne, -⟩
    · exact hrecorded
    · exact absurd rfl hne
  · intro hclosed configured r t hlow hexec
    rcases (wp_sound (wp_open configured (hdown hclosed) hlow) hexec).2 with
      ⟨hr, -, hopened⟩ | ⟨-, hrefusals, -⟩
    · exact ⟨hr, hopened⟩
    · cases hrefusals

def unbuffered (maxSizeBytes : ℕ) : Settings := ⟨0, maxSizeBytes, 0, 0⟩

def buffered (maxSizeBytes : ℕ) : Settings := ⟨0, maxSizeBytes, 100000, 1⟩

def lineOf (letter : UInt8) (length : ℕ) : Bytes := List.replicate length letter

def World.after (s : World) (p : Prog Unit) : World := (answered exec p s).2

theorem exec_after {p : Prog Unit} (hok : (answered exec p s).1 = .ok ()) :
    Exec (machine true) p s (.returned (.ok ()) (s.after p)) := by
  have hexec : Exec (machine true) p s _ := exec_answered p s
  rw [hok] at hexec
  exact hexec

def firstOpened : World := empty.after (openWithLimit 100)

def threeRecords : World :=
  ((firstOpened.after (writeLine (lineOf 97 40) (unbuffered 100))).after
    (writeLine (lineOf 97 40) (unbuffered 100))).after (writeLine (lineOf 98 40) (unbuffered 100))

def fourRecords : World := threeRecords.after (writeLine (lineOf 99 10) (buffered 100))

def fourWritten : List Bytes := [lineOf 97 40, lineOf 97 40, lineOf 98 40, lineOf 99 10]

theorem run_four (crashes : World → Prop) : Run crashes fourWritten true fourRecords := by
  have hlow : compactionMarker.length ≤ effectiveLimit 100 := by decide
  have hopened : Run crashes [] true firstOpened :=
    .opened 100 .start hlow (exec_after (by decide +kernel))
  have hfirst := hopened.wrote (lineOf 97 40) (unbuffered 100) (by decide) hlow
    (exec_after (by decide +kernel))
  have hsecond := hfirst.wrote (lineOf 97 40) (unbuffered 100) (by decide) hlow
    (exec_after (by decide +kernel))
  have hthird := hsecond.wrote (lineOf 98 40) (unbuffered 100) (by decide) hlow
    (exec_after (by decide +kernel))
  have hfourth := hthird.wrote (lineOf 99 10) (buffered 100) (by decide) hlow
    (exec_after (by decide +kernel))
  have hrecords : ∀ letter length, length ≤ 40 →
      boundedRecord (lineOf letter length) (effectiveLimit 100) = lineOf letter length := by
    intro letter length hlength
    have hmaximum : min (effectiveLimit 100) maxRecordBytes - 1 = 99 := by decide
    refine if_pos ?_
    rw [hmaximum, lineOf, length_replicate]
    omega
  have hlimits : (unbuffered 100).maxSizeBytes = 100 ∧ (buffered 100).maxSizeBytes = 100 :=
    ⟨rfl, rfl⟩
  rw [hlimits.1, hlimits.2, hrecords 97 40 le_rfl, hrecords 98 40 le_rfl,
    hrecords 99 10 (by decide)] at hfourth
  exact hfourth

theorem log_retains_four : Run NothingBuffered fourWritten true fourRecords ∧
    Retains fourWritten true fourRecords :=
  ⟨run_four NothingBuffered, log_retains (run_four NothingBuffered)⟩

def InsideCompaction (s : World) : Prop := (s.names .temporary).isSome = true

def cutOff : World := answeredFor exec 16 (prepare (lineOf 100 10) (buffered 60)) fourRecords

def reopened : World := cutOff.down.after (openWithLimit 60)

/-- **The buffered record is lost**: the next one stands right behind the one before it. -/
theorem buffered_record_lost : Run InsideCompaction fourWritten true reopened ∧
    ∃ t, Exec (machine true) (writeLine (lineOf 100 10) (unbuffered 60)) reopened
      (.returned (.ok ()) t) ∧
      ¬EndsWith fourWritten (lineOf 100 10) (t.bytesAt .previous) t.activeBytes := by
  have hlow : compactionMarker.length ≤ effectiveLimit 60 := by decide
  have hcut : Exec (machine true) (prepare (lineOf 100 10) (buffered 60)) fourRecords
      (.crashed cutOff) := exec_answeredFor 16 _ _
  have hinside : InsideCompaction cutOff := by
    show (cutOff.names .temporary).isSome = true
    decide +kernel
  have hcrashed := (run_four InsideCompaction).crashed _ _ hlow hcut hinside
  refine ⟨hcrashed.opened 60 hlow (exec_after (by decide +kernel)), _,
    exec_after (by decide +kernel), ?_⟩
  have hactive : ∀ newer ∈ fourWritten.tails, ∀ headed,
      (reopened.after (writeLine (lineOf 100 10) (unbuffered 60))).activeBytes ≠
        logBytes headed (newer ++ [lineOf 100 10]) := by
    decide +kernel
  rintro ⟨before, older, gap, newer, headedOlder, headedNewer, hwritten, -, hbytes, -⟩
  refine hactive newer ?_ headedNewer hbytes
  rw [← append_assoc] at hwritten
  have hsplit := append_cancel_right hwritten
  rw [mem_tails, hsplit]
  exact suffix_append _ _

end CakeAutorate.DaemonLog
