/-
# One call of the daemon log

What `write_line`, `flush` and `open_with_limit` keep.  Between two calls the records are in the
previous file and in the active one, buffered bytes included, and the log is in one of three
places: it writes the active file; it has rotated and failed to create a new one; or it holds a
file that is no longer the active one, and then every call fails until the log is opened again.
-/

import CakeAutorate.DaemonLog.Compaction

namespace CakeAutorate.DaemonLog

open Syscall Wire World List

variable {refusals : Bool} {α : Type} {I : World → Prop} {s t u : World} {written : List Bytes}
  {bytes more : Bytes} {limit : ℕ}

/-- Bytes have gone to the file of the log, or to its buffer. -/
structure Logged (s t : World) (bytes : Bytes) : Prop where
  names : t.names = s.names
  fresh : t.fresh = s.fresh
  inodes : ∀ i, i ≠ s.log.file → t.inodes i = s.inodes i
  file : t.log.file = s.log.file
  missing : t.log.activeMissingAfterRotation = s.log.activeMissingAfterRotation
  bytes : (t.inodes s.log.file).bytes ++ t.log.buffer =
    (s.inodes s.log.file).bytes ++ s.log.buffer ++ bytes

theorem logged_nil (s : World) : Logged s s [] :=
  ⟨rfl, rfl, fun _ _ => rfl, rfl, rfl, (append_nil _).symm⟩

theorem Logged.trans (h : Logged s t bytes) (h' : Logged t u more) : Logged s u (bytes ++ more) where
  names := h'.names.trans h.names
  fresh := h'.fresh.trans h.fresh
  inodes := fun i hi => (h'.inodes i (h.file ▸ hi)).trans (h.inodes i hi)
  file := h'.file.trans h.file
  missing := h'.missing.trans h.missing
  bytes := by
    have hbytes := h'.bytes
    rw [h.file] at hbytes
    rw [hbytes, h.bytes, append_assoc]

theorem Logged.named (h : Logged s t bytes) (hn : Named s) : Named t := by
  refine ⟨?_, ?_⟩
  · rw [h.names]
    exact hn.distinct
  · rw [h.names, h.fresh]
    exact hn.old

theorem Logged.bytesAt (h : Logged s t bytes) {name : Name} (hname : s.names name ≠ some s.log.file) :
    t.bytesAt name = s.bytesAt name := by
  cases hi : s.names name with
  | none => rw [bytesAt_none hi, bytesAt_none (h.names ▸ hi)]
  | some i =>
    have hne : i ≠ s.log.file := fun heq => hname (heq ▸ hi)
    rw [bytesAt_some hi, bytesAt_some (h.names ▸ hi), h.inodes i hne]

theorem Logged.bytesAt_flushed (h : Logged s t []) (hs : s.log.buffer = []) (ht : t.log.buffer = [])
    (name : Name) : t.bytesAt name = s.bytesAt name := by
  have hbytes := h.bytes
  rw [hs, ht, append_nil, append_nil, append_nil] at hbytes
  by_cases hname : s.names name = some s.log.file
  · rw [bytesAt_some hname, bytesAt_some (h.names ▸ hname), hbytes]
  · exact h.bytesAt hname

variable {Q : Except LogError Unit → World → Prop}

/-- **`flush_buf`.** -/
theorem wp_flushBuf (hbusy : ∀ t : World, t.log.buffer ≠ [] → I t) (hI : I s)
    (hfree : s.log.buffer ≠ [] → s.names .temporary ≠ some s.log.file)
    (hok : ∀ t, Logged s t [] → t.log.buffer = [] → I t ∧ Q (.ok ()) t) :
    wp (machine refusals) Q I flushBuf s := by
  refine wp_self hI (wp_onlyIf hI ?_ ?_)
  · intro hbuffer
    have happend : ∀ start, I (s.append s.log.file start) := fun start => hbusy _ hbuffer
    refine wp_bind (wp_write hI (fun start _ => happend start) ?_ ?_)
    · have hlogged : Logged s { s.append s.log.file s.log.buffer with
          log := { s.log with buffer := [] } } [] := by
        refine ⟨rfl, rfl, ?_, rfl, rfl, ?_⟩
        · intro i hi
          exact Function.update_of_ne hi _ _
        · show ((s.append s.log.file s.log.buffer).inodes s.log.file).bytes ++ [] = _
          rw [append_bytes, append_nil]
      obtain ⟨hI', hQ⟩ := hok _ hlogged rfl
      exact wp_set (happend _) hI' hQ
    · intro e start _ htemp _
      exact absurd htemp (hfree hbuffer)
  · intro hbuffer
    exact (hok s (logged_nil s) (not_not.mp hbuffer)).2

theorem wp_flushBuf_nil (hbuffer : s.log.buffer = []) (hI : I s) (hok : Q (.ok ()) s) :
    wp (machine refusals) Q I flushBuf s :=
  wp_self hI (wp_onlyIf hI (fun hne => absurd hbuffer hne) fun _ => hok)

/-- **Another file for the log**, when nothing is buffered. -/
theorem wp_replaceFile {file : ℕ} (hbuffer : s.log.buffer = []) (hI : I s)
    (hI' : I { s with log := { s.log with file, buffer := [] } })
    (hok : Q (.ok ()) { s with log := { s.log with file, buffer := [] } }) :
    wp (machine refusals) Q I (replaceFile file) s :=
  wp_bind (wp_attempt (wp_flushBuf_nil hbuffer hI (wp_set hI hI' hok)))

/-- **`flush`.** -/
theorem wp_flush (hbusy : ∀ t : World, t.log.buffer ≠ [] → I t) (hI : I s)
    (hfree : s.log.buffer ≠ [] → s.names .temporary ≠ some s.log.file)
    (hok : ∀ t, Logged s t [] → t.log.buffer = [] → I t ∧ Q (.ok ()) t) :
    wp (machine refusals) Q I flush s := by
  have hlater : ∀ t : World, Logged s t [] → t.log.buffer = [] → ∀ now,
      Logged s { t with log := { t.log with bytesPending := 0, lastFlush := now } } [] := by
    intro t ht _ now
    exact ⟨ht.names, ht.fresh, ht.inodes, ht.file, ht.missing, ht.bytes⟩
  refine wp_bind (wp_flushBuf hbusy hI hfree ?_)
  intro t ht hbuffer
  have hIt := (hok t ht hbuffer).1
  refine ⟨hIt, wp_clock hIt fun now => ?_⟩
  obtain ⟨hI', hQ⟩ := hok _ (hlater t ht hbuffer now) hbuffer
  exact wp_set hIt hI' hQ

theorem logged_push (s : World) (bytes : Bytes) :
    Logged s { s with log := { s.log with buffer := s.log.buffer ++ bytes } } bytes :=
  ⟨rfl, rfl, fun _ _ => rfl, rfl, rfl, (append_assoc _ _ _).symm⟩

/-- **`write_all`** of the buffer. -/
theorem wp_writeAll (hfree : s.names .temporary ≠ some s.log.file)
    (hok : ∀ t, Logged s t bytes → Q (.ok ()) t) :
    wp (machine refusals) Q (fun _ => True) (writeAll bytes) s := by
  refine wp_self trivial ?_
  by_cases hspare : bytes.length < bufferCapacity - s.log.buffer.length
  · rw [if_pos hspare]
    exact wp_set trivial trivial (hok _ (logged_push s bytes))
  · rw [if_neg hspare]
    refine wp_self trivial ?_
    -- a buffer from which the rest does not spill over is empty when the bytes fill it
    have hrest : ∀ t, Logged s t [] → (bufferCapacity ≤ bytes.length → t.log.buffer = []) →
        wp (machine refusals) Q (fun _ => True)
          (if bufferCapacity ≤ bytes.length then perform (.write t.log.file bytes) else push bytes)
          t := by
      intro t ht hempty
      by_cases hfills : bufferCapacity ≤ bytes.length
      · rw [if_pos hfills]
        have hbuffer := hempty hfills
        refine wp_write trivial (fun _ _ => trivial) ?_ ?_
        · have hdirect : Logged t (t.append t.log.file bytes) bytes := by
            refine ⟨rfl, rfl, fun i hi => Function.update_of_ne hi _ _, rfl, rfl, ?_⟩
            show ((t.append t.log.file bytes).inodes t.log.file).bytes ++ t.log.buffer = _
            rw [append_bytes, hbuffer, append_nil, append_nil]
          exact hok _ (ht.trans hdirect)
        · intro e start _ htemp _
          rw [ht.names, ht.file] at htemp
          exact absurd htemp hfree
      · rw [if_neg hfills]
        exact wp_set trivial trivial (hok _ (ht.trans (logged_push t bytes)))
    refine wp_bind (wp_onlyIf trivial ?_ ?_)
    · intro _
      refine wp_flushBuf (fun _ _ => trivial) trivial (fun _ => hfree) ?_
      intro t ht hbuffer
      exact ⟨trivial, wp_self trivial (hrest t ht fun _ => hbuffer)⟩
    · intro hfits
      refine wp_self trivial (hrest s (logged_nil s) fun hfills => ?_)
      have hcapacity : 0 < bufferCapacity := by decide
      exact eq_nil_of_length_eq_zero (by omega)

/-- What is left when the process ends. -/
structure Down (written : List Bytes) (s : World) : Prop where
  named : Named s
  marked : Marked s
  kept : Kept written (s.bytesAt .previous) (s.bytesAt .active)

def Idle (written : List Bytes) (s : World) : Prop := s.log.buffer = [] → Down written s

def World.activeBytes (s : World) : Bytes := s.bytesAt .active ++ s.log.buffer

/-- The log writes the active file. -/
structure Live (s : World) : Prop where
  active : s.names .active = some s.log.file
  missing : s.log.activeMissingAfterRotation = false

/-- A rotation has not created a new active file. -/
structure Missing (s : World) : Prop where
  previous : s.names .previous = some s.log.file
  missing : s.log.activeMissingAfterRotation = true
  buffer : s.log.buffer = []
  active : s.bytesAt .active = []

/-- The log holds a file that is no longer the active one. -/
structure Stale (s : World) : Prop where
  active : s.names .active ≠ some s.log.file
  missing : s.log.activeMissingAfterRotation = false
  buffer : s.log.buffer = []

/-- **What holds of an open log** between two calls. -/
structure Up (written : List Bytes) (s : World) : Prop where
  named : Named s
  marked : Marked s
  kept : Kept written (s.bytesAt .previous) s.activeBytes
  place : Live s ∨ Missing s ∨ Stale s

theorem idle_of_busy (h : s.log.buffer ≠ []) : Idle written s := fun hbuffer => absurd hbuffer h

theorem World.activeBytes_flushed (h : s.log.buffer = []) : s.activeBytes = s.bytesAt .active := by
  rw [activeBytes, h, append_nil]

theorem Up.idle (h : Up written s) : Idle written s := by
  intro hbuffer
  refine ⟨h.named, h.marked, ?_⟩
  rw [← activeBytes_flushed hbuffer]
  exact h.kept

theorem Down.withLog (h : Down written s) (log : LogFile) : Down written { s with log } :=
  ⟨⟨h.named.distinct, h.named.old⟩, h.marked, h.kept⟩

theorem Missing.up (h : Missing s) (hd : Down written s) : Up written s := by
  refine ⟨hd.named, hd.marked, ?_, .inr (.inl h)⟩
  rw [activeBytes_flushed h.buffer]
  exact hd.kept

theorem Up.free (h : Up written s) (hbuffer : s.log.buffer ≠ []) :
    s.names .temporary ≠ some s.log.file := by
  rcases h.place with hlive | hmissing | hstale
  · intro htemp
    have heq := h.named.distinct .active .temporary _ hlive.active htemp
    cases heq
  · exact absurd hmissing.buffer hbuffer
  · exact absurd hstale.buffer hbuffer

theorem Logged.live (h : Logged s t bytes) (hlive : Live s) : Live t := by
  refine ⟨?_, h.missing.trans hlive.missing⟩
  rw [h.names, h.file]
  exact hlive.active

/-- **What bytes that go to the active file change.** -/
theorem Logged.extends (h : Logged s t bytes) (hn : Named s) (hm : Marked s) (hlive : Live s) :
    Named t ∧ Marked t ∧ t.bytesAt .previous = s.bytesAt .previous ∧
      t.activeBytes = s.activeBytes ++ bytes := by
  have hother : ∀ name, name ≠ .active → t.bytesAt name = s.bytesAt name := by
    intro name hname
    refine h.bytesAt fun hsome => hname ?_
    exact hn.distinct name .active _ hsome hlive.active
  refine ⟨h.named hn, ?_, hother .previous (by decide), ?_⟩
  · rw [Marked, hother .temporary (by decide)]
    exact hm
  · rw [activeBytes, activeBytes, bytesAt_some hlive.active, bytesAt_some (h.names ▸ hlive.active)]
    exact h.bytes

theorem Up.flushed (h : Up written s) (hlogged : Logged s t []) (hbuffer : t.log.buffer = []) :
    Up written t ∧ t.bytesAt .previous = s.bytesAt .previous ∧ t.activeBytes = s.activeBytes ∧
      (Live s → Live t) := by
  rcases h.place with hlive | hplace
  · obtain ⟨hn, hm, hprevious, hactive⟩ := hlogged.extends h.named h.marked hlive
    rw [append_nil] at hactive
    refine ⟨⟨hn, hm, ?_, .inl (hlogged.live hlive)⟩, hprevious, hactive, fun _ => hlogged.live hlive⟩
    rw [hprevious, hactive]
    exact h.kept
  · have hempty : s.log.buffer = [] := by
      rcases hplace with hmissing | hstale
      · exact hmissing.buffer
      · exact hstale.buffer
    have hbytes := hlogged.bytesAt_flushed hempty hbuffer
    have hactive : t.activeBytes = s.activeBytes := by
      rw [activeBytes_flushed hempty, activeBytes_flushed hbuffer, hbytes]
    refine ⟨⟨hlogged.named h.named, ?_, ?_, ?_⟩, hbytes .previous, hactive, fun hlive =>
      hlogged.live hlive⟩
    · rw [Marked, hbytes]
      exact h.marked
    · rw [hbytes, hactive]
      exact h.kept
    · refine .inr ?_
      rcases hplace with hmissing | hstale
      · refine .inl ⟨?_, hlogged.missing.trans hmissing.missing, hbuffer, ?_⟩
        · rw [hlogged.names, hlogged.file]
          exact hmissing.previous
        · rw [hbytes]
          exact hmissing.active
      · refine .inr ⟨?_, hlogged.missing.trans hstale.missing, hbuffer⟩
        rw [hlogged.names, hlogged.file]
        exact hstale.active

/-- **`install_new_active`.** -/
theorem wp_install (h : Up written s) (hmissing : Missing s)
    (hok : ∀ t, Up written t → Live t → t.activeBytes = [] →
      t.bytesAt .previous = s.bytesAt .previous → Q (.ok ()) t)
    (herr : ∀ e t, Up written t → Q (.error e) t) :
    wp (machine refusals) Q (Idle written) installNewActive s := by
  have hkept := h.kept
  rw [activeBytes_flushed hmissing.buffer, hmissing.active] at hkept
  refine wp_bind (wp_perform trivial h.idle ?_ ?_)
  · intro file hfile
    cases hactive : s.names .active with
    | some i =>
      simp only [Op.exec, hactive] at hfile
      cases hfile
    | none =>
      have hcreate : (Op.createNew .active).exec s = (.ok s.fresh, s.create .active) := by
        simp [Op.exec, hactive]
      rw [hcreate] at hfile ⊢
      obtain rfl : s.fresh = file := Except.ok.inj hfile
      have hnamed := h.named.create .active
      have hprevious : (s.create .active).bytesAt .previous = s.bytesAt .previous :=
        h.named.create_bytesAt (by decide)
      have hmarked : Marked (s.create .active) := by
        rw [Marked, h.named.create_bytesAt (by decide)]
        exact h.marked
      have hdown : Down written (s.create .active) := by
        refine ⟨hnamed, hmarked, ?_⟩
        rw [hprevious, create_bytesAt]
        exact hkept
      have hmissing' : Missing (s.create .active) := by
        refine ⟨?_, hmissing.missing, hmissing.buffer, create_bytesAt s .active⟩
        exact hmissing.previous
      have hup := hmissing'.up hdown
      refine ⟨hup.idle, wp_bind (wp_attest hnamed hup.idle ?_ fun e _ => herr e _ hup)⟩
      intro _
      refine wp_bind (wp_replaceFile hmissing.buffer hup.idle (fun _ => hdown.withLog _) ?_)
      refine wp_clock (fun _ => hdown.withLog _) fun opened => ?_
      refine wp_clock (fun _ => hdown.withLog _) fun flushed => ?_
      refine wp_set (fun _ => hdown.withLog _) (fun _ => hdown.withLog _) ?_
      have hactive' : (s.create .active).names .active = some s.fresh := create_names s .active
      have hempty : (s.create .active).bytesAt .active ++ [] = [] := by
        rw [create_bytesAt, append_nil]
      refine hok _ ⟨⟨hnamed.distinct, hnamed.old⟩, hmarked, ?_, .inl ⟨hactive', rfl⟩⟩
        ⟨hactive', rfl⟩ hempty hprevious
      show Kept written ((s.create .active).bytesAt .previous)
        ((s.create .active).bytesAt .active ++ [])
      rw [hprevious, hempty]
      exact hkept
  · intro e _
    exact herr e s h

/-- **`rotate`.** -/
theorem wp_rotate (h : Up written s) (hlive : Live s)
    (hok : ∀ t, Up written t → Live t → t.activeBytes = [] →
      t.bytesAt .previous = s.activeBytes → Q (.ok ()) t)
    (herr : ∀ e t, Up written t → Q (.error e) t) :
    wp (machine refusals) Q (Idle written) rotate s := by
  refine wp_bind (wp_flush (fun _ => idle_of_busy) h.idle h.free ?_)
  intro t ht hbuffer
  obtain ⟨hup, hprevious, hactive, hlive'⟩ := h.flushed ht hbuffer
  replace hlive' := hlive' hlive
  refine ⟨hup.idle, wp_self hup.idle ?_⟩
  refine wp_bind (wp_attest hup.named hup.idle ?_ fun e _ => herr e t hup)
  intro _
  -- from the rename on
  have hrotate : wp (machine refusals) Q (Idle written) (do
      perform (.rename .active .previous)
      call (.set fun log => { log with activeMissingAfterRotation := true })
      installNewActive) t := by
    have hrename : (Op.rename .active .previous).exec t = (.ok (), t.rename .active .previous) := by
      simp [Op.exec, hlive'.active]
    have hbytes : (t.rename .active .previous).bytesAt .previous = s.activeBytes := by
      rw [rename_bytesAt (by decide), ← activeBytes_flushed hbuffer, hactive]
    have hempty : (t.rename .active .previous).bytesAt .active = [] :=
      bytesAt_none (rename_source t _ _)
    have hmarked : Marked (t.rename .active .previous) := by
      have htemp : (t.rename .active .previous).bytesAt .temporary = t.bytesAt .temporary := by
        rfl
      exact hup.marked
    have hnamed : Named (t.rename .active .previous) := hup.named.rename (by decide)
    have hkept : Kept written ((t.rename .active .previous).bytesAt .previous)
        ((t.rename .active .previous).bytesAt .active) := by
      rw [hbytes, hempty]
      exact h.kept.rotate
    have hdown : Down written (t.rename .active .previous) := ⟨hnamed, hmarked, hkept⟩
    refine wp_bind (wp_answers trivial hrename hup.idle (fun _ => hdown) ?_ fun e _ => herr e t hup)
    refine wp_bind (wp_set (fun _ => hdown) (fun _ => hdown.withLog _) ?_)
    have hmissing : Missing { t.rename .active .previous with
        log := { t.log with activeMissingAfterRotation := true } } := by
      refine ⟨?_, rfl, hbuffer, hempty⟩
      exact hlive'.active
    refine wp_install (hmissing.up (hdown.withLog _)) hmissing ?_ herr
    intro u hu hliveu hactiveu hpreviousu
    exact hok u hu hliveu hactiveu (hpreviousu.trans hbytes)
  refine wp_io trivial hup.idle ?_ fun _ => wp_ret hup.idle (herr _ t hup)
  show wp _ _ _ (Program.lift (mayReplace (t.stat .previous)) >>= _) t
  cases hstat : t.names .previous with
  | none =>
    rw [stat_none hstat]
    exact hrotate
  | some i =>
    have howned : ownedRegular (t.metadata i) = true := beq_iff_eq.mpr (hup.named.nlink hstat)
    have hmay : mayReplace (.ok (t.metadata i)) = .ok () := if_pos howned
    rw [stat_some hstat, hmay]
    exact hrotate

theorem Compacting.down_active (h : Compacting .active limit s t) (hd : Down written s)
    (hlow : compactionMarker.length ≤ limit) :
    Down written t ∧ t.bytesAt .previous = s.bytesAt .previous := by
  have hprevious := (h.others .previous (by decide) (by decide)).2
  refine ⟨⟨h.named, h.marked, ?_⟩, hprevious⟩
  rw [hprevious]
  rcases h.file with ⟨-, hsame⟩ | ⟨hlong, -, hcompacted⟩
  · rw [hsame]
    exact hd.kept
  · rw [hcompacted]
    exact hd.kept.compactActive hlow hlong

theorem Compacting.kept_previous (h : Compacting .previous limit s t) {active : Bytes}
    (hk : Kept written (s.bytesAt .previous) active) (hlow : compactionMarker.length ≤ limit) :
    Kept written (t.bytesAt .previous) active := by
  rcases h.file with ⟨-, hsame⟩ | ⟨hlong, -, hcompacted⟩
  · rw [hsame]
    exact hk
  · rw [hcompacted]
    exact hk.compactPrevious hlow hlong

theorem Compacting.up_active (h : Compacting .active limit s t) (hup : Up written s)
    (hlive : Live s) (hbuffer : s.log.buffer = []) (hlow : compactionMarker.length ≤ limit) :
    Up written t := by
  obtain ⟨hdown, -⟩ := h.down_active (hup.idle hbuffer) hlow
  have hbuffer' : t.log.buffer = [] := h.log ▸ hbuffer
  have hmissing : t.log.activeMissingAfterRotation = false := h.log ▸ hlive.missing
  refine ⟨hdown.named, hdown.marked, ?_, ?_⟩
  · rw [activeBytes_flushed hbuffer']
    exact hdown.kept
  · rcases h.file with ⟨hsame, -⟩ | ⟨-, ⟨i, hi, hnew⟩, -⟩
    · refine .inl ⟨?_, hmissing⟩
      rw [hsame, h.log]
      exact hlive.active
    · refine .inr (.inr ⟨?_, hmissing, hbuffer'⟩)
      have hold := hup.named.old .active _ hlive.active
      rw [hnew, h.log]
      intro heq
      have := Option.some.inj heq
      omega

theorem Compacting.up_previous (h : Compacting .previous limit s t) (hup : Up written s)
    (hlive : Live s) (hlow : compactionMarker.length ≤ limit) :
    Up written t ∧ Live t ∧ t.activeBytes = s.activeBytes := by
  obtain ⟨hnames, hbytes⟩ := h.others .active (by decide) (by decide)
  have hlive' : Live t := by
    refine ⟨?_, h.log ▸ hlive.missing⟩
    rw [hnames, h.log]
    exact hlive.active
  have hactive : t.activeBytes = s.activeBytes := by
    rw [activeBytes, activeBytes, hbytes, h.log]
  refine ⟨⟨h.named, h.marked, ?_, .inl hlive'⟩, hlive', hactive⟩
  rw [hactive]
  exact h.kept_previous hup.kept hlow

end CakeAutorate.DaemonLog
