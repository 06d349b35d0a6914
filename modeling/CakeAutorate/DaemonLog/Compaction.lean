/-
# Compaction of a log file

What `compact_file` leaves at every point where it may end, crash included: the file is what it was,
or it has been compacted, and what stands under the compaction name is what `recover_compaction`
takes for its own.
-/

import CakeAutorate.DaemonLog.Rules

namespace CakeAutorate.DaemonLog

open Syscall Wire List Function World

variable {refusals : Bool} {α : Type} {I : World → Prop} {s s' t : World} {path : Name}
  {limit source : ℕ} {bytes : Bytes} {name other : Name}

theorem World.remove_names (h : other ≠ name) : (s.remove name).names other = s.names other :=
  update_of_ne h _ _

theorem World.remove_self (s : World) (name : Name) : (s.remove name).names name = none :=
  update_self _ _ _

theorem World.remove_bytesAt (h : other ≠ name) :
    (s.remove name).bytesAt other = s.bytesAt other := by
  rw [bytesAt, remove_names h]
  rfl

theorem World.create_names (s : World) (name : Name) : (s.create name).names name = some s.fresh :=
  update_self _ _ _

theorem World.create_other (h : other ≠ name) : (s.create name).names other = s.names other :=
  update_of_ne h _ _

theorem World.create_bytes (s : World) (name : Name) :
    ((s.create name).inodes s.fresh).bytes = [] := by
  simp [create]

theorem World.append_bytes (s : World) (i : ℕ) (more : Bytes) :
    ((s.append i more).inodes i).bytes = (s.inodes i).bytes ++ more := by
  simp [append]

theorem World.rename_source (s : World) (source target : Name) :
    (s.rename source target).names source = none :=
  update_self _ _ _

theorem World.rename_target {target source : Name} (h : target ≠ source) :
    (s.rename source target).names target = s.names source := by
  simp [rename, h]

theorem World.rename_names {target source name : Name} (hsource : name ≠ source)
    (htarget : name ≠ target) : (s.rename source target).names name = s.names name := by
  simp [rename, hsource, htarget]

theorem World.remove_none {name : Name} (h : s.names name = none) : s.remove name = s := by
  rw [remove, ← h, update_eq_self]

theorem Named.remove (h : Named s) (name : Name) : Named (s.remove name) := by
  have hnames : ∀ a i, (s.remove name).names a = some i → s.names a = some i := by
    intro a i ha
    by_cases heq : a = name
    · subst heq
      rw [remove_self] at ha
      cases ha
    · rwa [remove_names heq] at ha
  refine ⟨?_, ?_⟩
  · intro a b i ha hb
    exact h.distinct a b i (hnames a i ha) (hnames b i hb)
  · intro a i ha
    exact h.old a i (hnames a i ha)

theorem Named.rename (h : Named s) {source target : Name} (hne : target ≠ source) :
    Named (s.rename source target) := by
  have hnames : ∀ a i, (s.rename source target).names a = some i →
      a ≠ source ∧ s.names (if a = target then source else a) = some i := by
    intro a i ha
    have hsource : a ≠ source := by
      rintro rfl
      rw [rename_source] at ha
      cases ha
    refine ⟨hsource, ?_⟩
    by_cases htarget : a = target
    · subst htarget
      rwa [if_pos rfl, ← rename_target hne]
    · rwa [if_neg htarget, ← rename_names hsource htarget]
  refine ⟨?_, ?_⟩
  · intro a b i ha hb
    obtain ⟨has, ha'⟩ := hnames a i ha
    obtain ⟨hbs, hb'⟩ := hnames b i hb
    have hab := h.distinct _ _ i ha' hb'
    by_cases hat : a = target
    · by_cases hbt : b = target
      · exact hat.trans hbt.symm
      · rw [if_pos hat, if_neg hbt] at hab
        exact absurd hab.symm hbs
    · rw [if_neg hat] at hab
      by_cases hbt : b = target
      · rw [if_pos hbt] at hab
        exact absurd hab has
      · rwa [if_neg hbt] at hab
  · intro a i ha
    exact h.old _ i (hnames a i ha).2

theorem Named.create (h : Named s) (name : Name) : Named (s.create name) := by
  have hnames : ∀ a i, (s.create name).names a = some i →
      (a = name ∧ i = s.fresh) ∨ (a ≠ name ∧ s.names a = some i ∧ i < s.fresh) := by
    intro a i ha
    by_cases heq : a = name
    · subst heq
      rw [create_names] at ha
      exact .inl ⟨rfl, (Option.some.inj ha).symm⟩
    · rw [create_other heq] at ha
      exact .inr ⟨heq, ha, h.old a i ha⟩
  refine ⟨?_, ?_⟩
  · intro a b i ha hb
    rcases hnames a i ha with ⟨rfl, rfl⟩ | ⟨_, ha', hlt⟩
    · rcases hnames b _ hb with ⟨rfl, -⟩ | ⟨_, _, hlt⟩
      · rfl
      · exact absurd hlt (lt_irrefl _)
    · rcases hnames b i hb with ⟨rfl, rfl⟩ | ⟨_, hb', -⟩
      · exact absurd hlt (lt_irrefl _)
      · exact h.distinct a b i ha' hb'
  · intro a i ha
    rcases hnames a i ha with ⟨_, rfl⟩ | ⟨_, _, hlt⟩
    · exact Nat.lt_succ_self _
    · exact hlt.trans (Nat.lt_succ_self _)

theorem Named.create_bytesAt (h : Named s) (hne : other ≠ name) :
    (s.create name).bytesAt other = s.bytesAt other := by
  have hnames : (s.create name).names other = s.names other := create_other hne
  cases hother : s.names other with
  | none => rw [bytesAt_none hother, bytesAt_none (hnames.trans hother)]
  | some i =>
    have hinode : (s.create name).inodes i = s.inodes i :=
      update_of_ne (h.old other i hother).ne _ _
    rw [bytesAt_some hother, bytesAt_some (hnames.trans hother), hinode]

theorem World.create_bytesAt (s : World) (name : Name) : (s.create name).bytesAt name = [] := by
  rw [bytesAt_some (s.create_names name), create_bytes]

theorem World.rename_bytesAt {source target : Name} (h : target ≠ source) :
    (s.rename source target).bytesAt target = s.bytesAt source := by
  rw [bytesAt, rename_target h]
  rfl

/-- Bytes that `recover_compaction` takes for its own. -/
def MarkedBytes (bytes : Bytes) : Prop :=
  bytes.length ≤ hardLogFileBytes ∧ (bytes <+: compactionMarker ∨ compactionMarker <+: bytes)

def Marked (s : World) : Prop := MarkedBytes (s.bytesAt .temporary)

theorem markedBytes_nil : MarkedBytes [] := ⟨Nat.zero_le _, .inl nil_prefix⟩

theorem marked_none (h : s.names .temporary = none) : Marked s := by
  rw [Marked, bytesAt_none h]
  exact markedBytes_nil

theorem marked_remove (s : World) : Marked (s.remove .temporary) :=
  marked_none (remove_self s .temporary)

theorem MarkedBytes.isMarked (h : MarkedBytes bytes) :
    isMarked (bytes.take compactionMarker.length) = true := by
  have hwhole : ∀ b : Bytes, compactionMarker <+: b →
      DaemonLog.isMarked (b.take compactionMarker.length) = true := by
    rintro b ⟨rest, rfl⟩
    rw [take_left]
    decide
  rcases h.2 with hstart | hwhole'
  · by_cases hlength : bytes.length < compactionMarker.length
    · rw [take_of_length_le hlength.le, DaemonLog.isMarked, if_pos hlength]
      exact isPrefixOf_iff_prefix.mpr hstart
    · rw [hstart.eq_of_length_le (not_lt.mp hlength)]
      exact hwhole _ (prefix_refl _)
  · exact hwhole _ hwhole'

variable {Q : Except LogError Unit → World → Prop}

/-- **`recover_compaction`** removes the compaction file. -/
theorem wp_recover (hn : Named s) (hm : Marked s) (hI : I s) (hI' : I (s.remove .temporary))
    (hok : Q (.ok ()) (s.remove .temporary)) (herr : ∀ e, Refusal refusals e → Q (.error e) s) :
    wp (machine refusals) Q I recoverCompaction s := by
  refine wp_bind (wp_attempt (wp_openFile hn hI ?_ ?_))
  · intro file hfile
    refine wp_bind (wp_attest hn hI ?_ ?_)
    · intro _
      have hbytes : s.bytesAt .temporary = (s.inodes file).bytes := bytesAt_some hfile
      refine wp_bind (wp_require hI ?_ ?_)
      · intro _
        have hread : (Op.readHead file compactionMarker.length).exec s =
            (.ok ((s.inodes file).bytes.take compactionMarker.length), s) := rfl
        refine wp_bind (wp_answers trivial hread hI hI ?_ herr)
        refine wp_bind (wp_require hI ?_ ?_)
        · intro _
          refine wp_bind (wp_attest hn hI ?_ ?_)
          · intro _
            have hremove : (Op.remove .temporary).exec s = (.ok (), s.remove .temporary) := by
              simp [Op.exec, hfile]
            exact wp_answers trivial hremove hI hI' hok herr
          · intro e he
            rcases he with hrefusal | hne
            · exact herr e hrefusal
            · exact absurd hfile hne
        · intro hfalse
          rw [Marked, hbytes] at hm
          rw [hm.isMarked] at hfalse
          cases hfalse
      · intro hfalse
        rw [Marked, hbytes] at hm
        exact absurd hm.1 (of_decide_eq_false hfalse)
    · intro e he
      rcases he with hrefusal | hne
      · exact herr e hrefusal
      · exact absurd hfile hne
  · intro e he
    rcases he with ⟨hrefusals, rfl⟩ | ⟨rfl, hnone⟩
    · exact wp_ret hI (herr _ ⟨hrefusals, rfl⟩)
    · rw [remove_none hnone] at hok
      exact wp_ret hI hok

/-- A state with a compaction file of some bytes, and otherwise another state. -/
structure Draft (s s' : World) (bytes : Bytes) : Prop where
  log : s'.log = s.log
  fresh : s'.fresh = s.fresh + 1
  output : s'.names .temporary = some s.fresh
  names : ∀ name, name ≠ .temporary → s'.names name = s.names name
  inodes : ∀ i, i ≠ s.fresh → s'.inodes i = s.inodes i
  bytes : (s'.inodes s.fresh).bytes = bytes

theorem draft_create (s : World) : Draft s (s.create .temporary) [] where
  log := rfl
  fresh := rfl
  output := s.create_names .temporary
  names := fun _ h => create_other h
  inodes := fun _ h => update_of_ne h _ _
  bytes := s.create_bytes .temporary

section

variable (h : Draft s s' bytes)
include h

theorem Draft.append (more : Bytes) : Draft s (s'.append s.fresh more) (bytes ++ more) where
  log := h.log
  fresh := h.fresh
  output := h.output
  names := h.names
  inodes := fun i hi => (update_of_ne hi _ _).trans (h.inodes i hi)
  bytes := (s'.append_bytes s.fresh more).trans (by rw [h.bytes])

theorem Draft.named (hn : Named s) : Named s' := by
  have hnames : s'.names = (s.create .temporary).names := by
    funext name
    by_cases htemp : name = .temporary
    · rw [htemp, h.output, create_names]
    · rw [h.names name htemp, create_other htemp]
  have hcreate := hn.create .temporary
  refine ⟨?_, ?_⟩
  · rw [hnames]
    exact hcreate.distinct
  · rw [hnames, h.fresh]
    exact hcreate.old

theorem Draft.inode (hn : Named s) {name : Name} {i : ℕ} (hname : s.names name = some i) :
    s'.inodes i = s.inodes i :=
  h.inodes i (hn.old name i hname).ne

theorem Draft.bytesAt (hn : Named s) {name : Name} (hne : name ≠ .temporary) :
    s'.bytesAt name = s.bytesAt name := by
  cases hname : s.names name with
  | none => rw [bytesAt_none hname, bytesAt_none ((h.names name hne).trans hname)]
  | some i =>
    rw [bytesAt_some hname, bytesAt_some ((h.names name hne).trans hname), h.inode hn hname]

theorem Draft.marked (hb : MarkedBytes bytes) : Marked s' := by
  rw [Marked, bytesAt_some h.output, h.bytes]
  exact hb

end

/-- What a compaction leaves, wherever it ends. -/
structure Compacting (path : Name) (limit : ℕ) (s s' : World) : Prop where
  log : s'.log = s.log
  named : Named s'
  marked : Marked s'
  fresh : s.fresh ≤ s'.fresh
  others : ∀ name, name ≠ path → name ≠ .temporary →
    s'.names name = s.names name ∧ s'.bytesAt name = s.bytesAt name
  file : (s'.names path = s.names path ∧ s'.bytesAt path = s.bytesAt path) ∨
    (limit < (s.bytesAt path).length ∧ (∃ i, s.fresh ≤ i ∧ s'.names path = some i) ∧
      s'.bytesAt path = compacted limit (s.bytesAt path))

theorem compacting_refl (hn : Named s) (hm : Marked s) : Compacting path limit s s where
  log := rfl
  named := hn
  marked := hm
  fresh := le_rfl
  others := fun _ _ _ => ⟨rfl, rfl⟩
  file := .inl ⟨rfl, rfl⟩

theorem Compacting.remove (h : Compacting path limit s t) (hpath : path ≠ .temporary) :
    Compacting path limit s (t.remove .temporary) where
  log := h.log
  named := h.named.remove .temporary
  marked := marked_remove t
  fresh := h.fresh
  others := by
    intro name hname htemp
    obtain ⟨hsame, hbytes⟩ := h.others name hname htemp
    exact ⟨(remove_names htemp).trans hsame, (remove_bytesAt htemp).trans hbytes⟩
  file := by
    rw [remove_names hpath, remove_bytesAt hpath]
    exact h.file

theorem Compacting.removed (h : Compacting path limit (s.remove .temporary) t)
    (hpath : path ≠ .temporary) : Compacting path limit s t where
  log := h.log
  named := h.named
  marked := h.marked
  fresh := h.fresh
  others := by
    intro name hname htemp
    obtain ⟨hsame, hbytes⟩ := h.others name hname htemp
    exact ⟨hsame.trans (remove_names htemp), hbytes.trans (remove_bytesAt htemp)⟩
  file := by
    have hfile := h.file
    rw [remove_names hpath, remove_bytesAt hpath] at hfile
    exact hfile

theorem Draft.compacting (h : Draft s t bytes) (hn : Named s) (hb : MarkedBytes bytes)
    (hpath : path ≠ .temporary) : Compacting path limit s t where
  log := h.log
  named := h.named hn
  marked := h.marked hb
  fresh := h.fresh ▸ Nat.le_succ _
  others := fun name _ htemp => ⟨h.names name htemp, h.bytesAt hn htemp⟩
  file := .inl ⟨h.names path hpath, h.bytesAt hn hpath⟩

theorem Draft.renamed (h : Draft s t (compacted limit (s.bytesAt path))) (hn : Named s)
    (hpath : path ≠ .temporary) (hlong : limit < (s.bytesAt path).length) :
    Compacting path limit s (t.rename .temporary path) ∧
      (t.rename .temporary path).names path = some s.fresh := by
  have htemp : (t.rename .temporary path).names .temporary = none := t.rename_source _ _
  have hnew : (t.rename .temporary path).names path = some s.fresh := by
    rw [← h.output]
    exact rename_target hpath
  have hsame : ∀ name, name ≠ path → name ≠ .temporary →
      (t.rename .temporary path).names name = t.names name := by
    intro name hname hne
    exact rename_names hne hname
  refine ⟨⟨h.log, (h.named hn).rename hpath, marked_none htemp, ?_, ?_,
    .inr ⟨hlong, ⟨_, le_rfl, hnew⟩, ?_⟩⟩, hnew⟩
  · exact h.fresh ▸ Nat.le_succ _
  · intro name hname hne
    refine ⟨(hsame name hname hne).trans (h.names name hne), ?_⟩
    have hbytes : (t.rename .temporary path).bytesAt name = t.bytesAt name := by
      rw [World.bytesAt, hsame name hname hne]
      rfl
    exact hbytes.trans (h.bytesAt hn hne)
  · rw [bytesAt_some hnew]
    exact h.bytes

/-- **The finished compaction file** is put in the place of the file. -/
theorem wp_installOutput (hn : Named s) (hpath : path ≠ .temporary)
    (hsource : s.names path = some source) {original : Metadata}
    (hsame : original.len = (s.metadata source).len ∧ original.mtime = (s.metadata source).mtime)
    (hlong : limit < (s.bytesAt path).length)
    (hmarked : MarkedBytes (compacted limit (s.bytesAt path)))
    (hd : Draft s t (compacted limit (s.bytesAt path)))
    (hI : ∀ t, Compacting path limit s t → I t)
    (hok : ∀ t, Compacting path limit s t → t.names path = some s.fresh → (t.bytesAt path).length
      ≤ limit → Q (.ok ()) t)
    (herr : ∀ e t, Compacting path limit s t → Refusal refusals e → Q (.error e) t) :
    wp (machine refusals) Q I (installOutput path source original s.fresh) t := by
  have hc : Compacting path limit s t := hd.compacting hn hmarked hpath
  have hIt := hI t hc
  have hnt := hd.named hn
  have hpatht : t.names path = some source := (hd.names path hpath).trans hsource
  refine wp_bind (wp_attest hnt hIt ?_ ?_)
  · intro _
    have hsame' : (t.metadata source).len = original.len ∧
        (t.metadata source).mtime = original.mtime := by
      rw [hsame.1, hsame.2]
      simp [metadata, hd.inode hn hsource]
    refine wp_bind (wp_require hIt ?_ ?_)
    · intro _
      refine wp_bind (wp_attest hnt hIt ?_ ?_)
      · intro _
        obtain ⟨hc', hnew⟩ := hd.renamed hn hpath hlong
        have hrename : (Op.rename .temporary path).exec t = (.ok (), t.rename .temporary path) := by
          simp [Op.exec, hd.output]
        refine wp_bind (wp_answers trivial hrename hIt (hI _ hc') ?_ fun e he => herr e t hc he)
        refine wp_bind (wp_attest hc'.named (hI _ hc') ?_ ?_)
        · intro _
          refine wp_ret (hI _ hc') (hok _ hc' hnew ?_)
          rcases hc'.file with ⟨hold, -⟩ | ⟨-, -, heq⟩
          · rw [hnew, hsource] at hold
            exact absurd (hn.old path source hsource) (Option.some.inj hold ▸ lt_irrefl _)
          · rw [heq]
            exact length_compacted_le limit _
        · intro e he
          rcases he with hrefusal | hne
          · exact herr e _ hc' hrefusal
          · exact absurd hnew hne
      · intro e he
        rcases he with hrefusal | hne
        · exact herr e t hc hrefusal
        · exact absurd hd.output hne
    · intro hfalse
      rw [hsame'.1, hsame'.2] at hfalse
      simp at hfalse
  · intro e he
    rcases he with hrefusal | hne
    · exact herr e t hc hrefusal
    · exact absurd hpatht hne

/-- **The steps of a compaction**, from the new compaction file on. -/
theorem wp_retainTail (hn : Named s) (hpath : path ≠ .temporary)
    (hlow : compactionMarker.length ≤ limit) (hhigh : limit ≤ hardLogFileBytes)
    (hsource : s.names path = some source) {original : Metadata}
    (hsame : original.len = (s.metadata source).len ∧ original.mtime = (s.metadata source).mtime)
    (hlong : limit < (s.bytesAt path).length) (hd : Draft s t [])
    (hI : ∀ t, Compacting path limit s t → I t)
    (hok : ∀ t, Compacting path limit s t → t.names path = some s.fresh → (t.bytesAt path).length
      ≤ limit → Q (.ok ()) t)
    (herr : ∀ e t, Compacting path limit s t → Refusal refusals e → Q (.error e) t) :
    wp (machine refusals) Q I (retainTail path limit source original s.fresh) t := by
  have hmin : min limit compactionMarker.length = compactionMarker.length := Nat.min_eq_right hlow
  have hbytes : s.bytesAt path = (s.inodes source).bytes := bytesAt_some hsource
  have hmarker : MarkedBytes compactionMarker :=
    ⟨by decide, .inl (prefix_refl _)⟩
  have hstart : ∀ start, start <+: compactionMarker → MarkedBytes start := by
    intro start hstart
    exact ⟨hstart.length_le.trans hmarker.1, .inl hstart⟩
  -- the tail that is kept
  have hcompacted : ∀ tail, tail = (s.inodes source).bytes.drop
      ((s.inodes source).bytes.length - (limit - min limit compactionMarker.length)) →
      compactionMarker ++ afterFirst 10 tail = compacted limit (s.bytesAt path) := by
    rintro tail rfl
    rw [compacted, hbytes, hmin, take_length]
  unfold retainTail
  rw [hmin, take_length]
  refine wp_bind (wp_write (hI t (hd.compacting hn markedBytes_nil hpath)) ?_ ?_ ?_)
  · intro start hprefix
    have hdraft := hd.append start
    exact hI _ (hdraft.compacting hn (hstart start hprefix) hpath)
  · have hd₁ := hd.append compactionMarker
    rw [nil_append] at hd₁
    generalize t.append s.fresh compactionMarker = t₁ at hd₁
    have hI₁ := hI t₁ (hd₁.compacting hn hmarker hpath)
    have hinode := hd₁.inode hn hsource
    have hread : (Op.readTail source (limit - compactionMarker.length)).exec t₁ =
        (.ok ((s.inodes source).bytes.drop ((s.inodes source).bytes.length -
          (limit - compactionMarker.length))), t₁) := by
      rw [Op.exec, hinode]
    refine wp_bind (wp_answers trivial hread hI₁ hI₁ ?_ fun e he =>
      herr e t₁ (hd₁.compacting hn hmarker hpath) he)
    generalize htail : (s.inodes source).bytes.drop ((s.inodes source).bytes.length -
      (limit - compactionMarker.length)) = tail
    have hwhole := hcompacted tail (by rw [hmin]; exact htail.symm)
    have hlength := length_compacted_le limit (s.bytesAt path)
    have hmarked : ∀ start, start <+: afterFirst 10 tail →
        MarkedBytes (compactionMarker ++ start) := by
      intro start hprefix
      have hle := hprefix.length_le
      rw [← hwhole, length_append] at hlength
      refine ⟨?_, .inr (prefix_append _ _)⟩
      rw [length_append]
      omega
    have hmark₂ : MarkedBytes (compacted limit (s.bytesAt path)) := by
      rw [← hwhole]
      exact hmarked _ (prefix_refl _)
    refine wp_bind (wp_onlyIf hI₁ ?_ ?_)
    · intro _
      refine wp_write hI₁ ?_ ?_ ?_
      · intro start hprefix
        exact hI _ ((hd₁.append start).compacting hn (hmarked start hprefix) hpath)
      · have hd₂ := hd₁.append (afterFirst 10 tail)
        rw [hwhole] at hd₂
        exact wp_installOutput hn hpath hsource hsame hlong hmark₂ hd₂ hI hok herr
      · intro e start hrefusal _ hprefix
        exact herr e _ ((hd₁.append start).compacting hn (hmarked start hprefix) hpath) hrefusal
    · intro hnewline
      rw [afterFirst_eq_nil hnewline, append_nil] at hwhole
      rw [hwhole] at hd₁
      exact wp_installOutput hn hpath hsource hsame hlong hmark₂ hd₁ hI hok herr
  · intro e start hrefusal _ hprefix
    have hdraft := hd.append start
    exact herr e _ (hdraft.compacting hn (hstart start hprefix) hpath) hrefusal

/-- **`compact_file`.** -/
theorem wp_compactFile {Q : Except LogError ℕ → World → Prop} (hn : Named s) (hm : Marked s)
    (hpath : path ≠ .temporary) (hlow : compactionMarker.length ≤ limit)
    (hhigh : limit ≤ hardLogFileBytes) (hI : ∀ t, Compacting path limit s t → I t)
    (hok : ∀ file t, Compacting path limit s t → t.names path = some file →
      (t.bytesAt path).length ≤ limit → Q (.ok file) t)
    (herr : ∀ e t, Compacting path limit s t →
      Refusal refusals e ∨ (e = .notFound ∧ s.names path = none) → Q (.error e) t) :
    wp (machine refusals) Q I (compactFile path limit) s := by
  have hrefl : Compacting path limit s s := compacting_refl hn hm
  have hIs := hI s hrefl
  refine wp_bind (wp_openFile hn hIs ?_ (herr · s hrefl))
  intro source hsource
  have hbytes : s.bytesAt path = (s.inodes source).bytes := bytesAt_some hsource
  refine wp_bind (wp_attest hn hIs ?_ ?_)
  · intro _
    show wp _ _ _ (if (s.metadata source).len ≤ limit then _ else _) s
    by_cases hshort : (s.metadata source).len ≤ limit
    · rw [if_pos hshort]
      refine wp_ret hIs (hok source s hrefl hsource ?_)
      rw [hbytes]
      exact hshort
    · rw [if_neg hshort]
      have hlong : limit < (s.bytesAt path).length := by
        rw [hbytes]
        exact not_le.mp hshort
      have hn' := hn.remove .temporary
      have hremoved : ∀ {t}, Compacting path limit (s.remove .temporary) t →
          Compacting path limit s t := fun h => h.removed hpath
      have hrefl' := hrefl.remove hpath
      refine wp_bind (wp_recover hn hm hIs (hI _ hrefl') ?_ fun e he => herr e s hrefl (.inl he))
      have hcreate : (Op.createNew .temporary).exec (s.remove .temporary) =
          (.ok s.fresh, (s.remove .temporary).create .temporary) := by
        rfl
      have hd : Draft (s.remove .temporary) ((s.remove .temporary).create .temporary) [] :=
        draft_create _
      have hcd := hremoved (hd.compacting hn' markedBytes_nil hpath)
      refine wp_bind (wp_answers trivial hcreate (hI _ hrefl') (hI _ hcd) ?_ fun e he =>
        herr e _ hrefl' (.inl he))
      refine wp_bind (wp_attempt (wp_retainTail hn' hpath hlow hhigh
        ((remove_names hpath).trans hsource) ⟨rfl, rfl⟩ ?_ hd (fun t ht => hI t (hremoved ht)) ?_ ?_))
      · rw [remove_bytesAt hpath]
        exact hlong
      · intro t ht hnew hlength
        exact wp_ret (hI t (hremoved ht)) (hok _ t (hremoved ht) hnew hlength)
      · intro e t ht hrefusal
        have hc := hremoved ht
        have hIt := hI t hc
        refine wp_bind (wp_attempt (wp_attest hc.named hIt ?_ ?_))
        · intro houtput
          have hremove : (Op.remove .temporary).exec t = (.ok (), t.remove .temporary) := by
            simp [Op.exec, houtput]
          have hcr := hc.remove hpath
          refine wp_io trivial hIt ?_ fun _ => wp_ret hIt (herr e t hc (.inl hrefusal))
          rw [hremove]
          exact wp_ret (hI _ hcr) (herr e _ hcr (.inl hrefusal))
        · intro e' _
          exact wp_ret hIt (herr e t hc (.inl hrefusal))
  · intro e he
    rcases he with hrefusal | hne
    · exact herr e s hrefl (.inl hrefusal)
    · exact absurd hsource hne

end CakeAutorate.DaemonLog
