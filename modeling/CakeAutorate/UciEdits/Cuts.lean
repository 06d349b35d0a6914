/-
# What is cut and what is inserted

The replacements and insertions of `render`, with what each of them writes: a replacement stands in
the span of a statement that its section's patch touches, an insertion stands at the end of a statement
or of the file.  They stand apart, so the output is woven of them and of what is kept.
-/

import CakeAutorate.UciEdits.Patches
import Mathlib.Data.List.Pairwise

namespace CakeAutorate.UciEdits

open Syscall Machine List Cut Or Std.ExtTreeMap Option List.Pairwise

/-- A line that edits write. -/
inductive Line
  | option (key value : Bytes)
  | config (kind section_ : Bytes)

def Line.text : Line → Bytes
  | .option key value => 0x09 :: (ascii "option " ++ key ++ [0x20] ++ quoted value) ++ [newline]
  | .config kind a => configLine kind a

/-- What stands in the place of a cut. -/
inductive Fresh
  | removed
  | rewritten (key value : Bytes)
  | lines (lead : Bool) (written : List Line)

/-- The bytes of what stands in the place of a cut, with a newline before the lines where `lead` says
so. -/
def Fresh.text : Fresh → Bytes
  | .removed => []
  | .rewritten key value => ascii "option " ++ key ++ [0x20] ++ quoted value
  | .lines lead written => (if lead then [newline] else []) ++ written.flatMap Line.text

theorem optionText_ok {key value : Bytes} (h : quotable value = true) :
    optionText key value = .ok (Fresh.rewritten key value).text := by
  unfold optionText quote
  rw [if_pos h]
  simp [Except.map, Fresh.text]

theorem optionLine_ok {key value : Bytes} (h : quotable value = true) :
    optionLine key value = .ok (Line.option key value).text := by
  rw [optionLine, optionText_ok h]
  simp [Except.map, Fresh.text, Line.text]

theorem optionLines_ok {options : List (Bytes × Bytes)} (h : ∀ o ∈ options, quotable o.2 = true) :
    optionLines options = .ok ((options.map fun o => Line.option o.1 o.2).flatMap Line.text) := by
  induction options with
  | nil => rfl
  | cons o rest ih =>
    rw [optionLines, optionLine_ok (h o mem_cons_self),
      ih fun o' ho' => h o' (mem_cons_of_mem _ ho')]
    rfl

/-- What a chain says of its statements. -/
structure Placed (total position : ℕ) (s : Statement) : Prop where
  position : position ≤ s.start
  start : s.start < s.tokenEnd
  tokenEnd : s.tokenEnd ≤ s.stop
  stop : s.stop ≤ total
  key : s.command = .option ∨ s.command = .list →
    ∃ key, s.arguments.head? = some key ∧ validName key = true

variable {total position : ℕ} {current : Option Bytes} {s : Statement} {p : SectionPatch}
  {c : Cut Fresh} {cuts : List (Cut Fresh)} {insertions : Insertions}

section

variable {statements : List Statement}

theorem Chained.placed (h : Chained total position current statements) :
    ∀ s ∈ statements, Placed total position s := by
  induction statements generalizing position current with
  | nil => exact fun s hs => absurd hs not_mem_nil
  | cons s rest ih =>
    obtain ⟨hposition, hstart, htoken, -, hkey, hrest⟩ := h
    intro s' hs'
    rcases mem_cons.mp hs' with rfl | hs'
    · exact ⟨hposition, hstart, htoken, hrest.le, hkey⟩
    · have hplaced := ih hrest s' hs'
      have hle := hplaced.position
      exact ⟨by omega, hplaced.start, hplaced.tokenEnd, hplaced.stop, hplaced.key⟩

theorem Chained.ordered (h : Chained total position current statements) :
    statements.Pairwise fun s t => s.stop ≤ t.start := by
  induction statements generalizing position current with
  | nil => exact nil
  | cons s rest ih =>
    exact pairwise_cons.mpr ⟨fun t ht => (h.2.2.2.2.2.placed t ht).position, ih h.2.2.2.2.2⟩

theorem Chained.trichotomy (h : Chained total position current statements) {t : Statement}
    (hs : s ∈ statements) (ht : t ∈ statements) : s = t ∨ s.stop ≤ t.start ∨ t.stop ≤ s.start := by
  have hsymm : Std.Symm fun s t : Statement => s.stop ≤ t.start ∨ t.stop ≤ s.start :=
    ⟨fun _ _ => symm⟩
  have hsym : statements.Pairwise fun s t => s.stop ≤ t.start ∨ t.stop ≤ s.start :=
    h.ordered.imp inl
  by_cases heq : s = t
  · exact inl heq
  · exact inr (hsym.forall hs ht heq)

end

/-- What a patch does with a statement of its section. -/
inductive CutOf (p : SectionPatch) (s : Statement) : Cut Fresh → Prop
  | struck (h : p.struck = true) : CutOf p s ⟨s.start, s.stop, .removed⟩
  | dropped {key : Bytes} {value : Option Bytes} (command : s.command = .option ∨ s.command = .list)
      (head : s.arguments.head? = some key) (option : p.options[key]? = some value) :
      CutOf p s ⟨s.start, s.stop, .removed⟩
  | rewritten {key value : Bytes} (command : s.command = .option ∨ s.command = .list)
      (head : s.arguments.head? = some key) (option : p.options[key]? = some (some value)) :
      CutOf p s ⟨s.start, s.tokenEnd, .rewritten key value⟩

theorem CutOf.start (h : CutOf p s c) : c.start = s.start := by
  cases h <;> rfl

theorem CutOf.stop (h : CutOf p s c) (hs : Placed total position s) :
    s.start < c.stop ∧ c.stop ≤ s.stop := by
  have hstart := hs.start
  have htoken := hs.tokenEnd
  cases h
  · exact ⟨by simp only; omega, le_rfl⟩
  · exact ⟨by simp only; omega, le_rfl⟩
  · exact ⟨hstart, htoken⟩

/-- What the statements of a section give. -/
structure Replaced (p : SectionPatch) (last : Option ℕ) (statements : List Statement)
    (cuts : List (Cut Fresh)) (last' : Option ℕ) : Prop where
  cut : ∀ c ∈ cuts, ∃ s ∈ statements, s.command ≠ .package ∧ CutOf p s c
  ordered : cuts.Pairwise fun c d => c.stop ≤ d.start
  ended : ∀ at_, last' = some at_ → last = some at_ ∨ ∃ s ∈ statements, s.stop = at_
  found : last.isSome = true ∨ (∃ s ∈ statements, s.command = .config) → last'.isSome = true

variable {last last' : Option ℕ} {rest : List Statement}

theorem Replaced.skip (h : Replaced p last rest cuts last') (hs : s.command ≠ .config) :
    Replaced p last (s :: rest) cuts last' := by
  refine ⟨fun c hc => ?_, h.ordered, fun at_ hat => ?_, fun hfound => h.found ?_⟩
  · obtain ⟨t, ht, hcut⟩ := h.cut c hc
    exact ⟨t, mem_cons_of_mem _ ht, hcut⟩
  · rcases h.ended at_ hat with hlast | ⟨t, ht, hstop⟩
    · exact inl hlast
    · exact inr ⟨t, mem_cons_of_mem _ ht, hstop⟩
  · rcases hfound with hlast | ⟨t, ht, hconfig⟩
    · exact inl hlast
    · rcases mem_cons.mp ht with rfl | ht
      · exact absurd hconfig hs
      · exact inr ⟨t, ht, hconfig⟩

theorem Replaced.pass (h : Replaced p (some s.stop) rest cuts last') :
    Replaced p last (s :: rest) cuts last' := by
  refine ⟨fun c hc => ?_, h.ordered, fun at_ hat => ?_, fun _ => h.found (inl rfl)⟩
  · obtain ⟨t, ht, hcut⟩ := h.cut c hc
    exact ⟨t, mem_cons_of_mem _ ht, hcut⟩
  · rcases h.ended at_ hat with hlast | ⟨t, ht, hstop⟩
    · exact inr ⟨s, mem_cons_self, some.inj hlast⟩
    · exact inr ⟨t, mem_cons_of_mem _ ht, hstop⟩

theorem Replaced.cons (h : Replaced p (some s.stop) rest cuts last') (hs : Placed total position s)
    (hordered : ∀ t ∈ rest, s.stop ≤ t.start) (hpackage : s.command ≠ .package) (hc : CutOf p s c) :
    Replaced p last (s :: rest) (c :: cuts) last' := by
  have hpass : Replaced p last (s :: rest) cuts last' := h.pass
  refine ⟨fun d hd => ?_, pairwise_cons.mpr ⟨fun d hd => ?_, h.ordered⟩, hpass.ended, hpass.found⟩
  · rcases mem_cons.mp hd with rfl | hd
    · exact ⟨s, mem_cons_self, hpackage, hc⟩
    · exact hpass.cut d hd
  · obtain ⟨t, ht, -, hcut⟩ := h.cut d hd
    have hstop := (hc.stop hs).2
    have hle := hordered t ht
    rw [hcut.start]
    omega

/-- **The replacements of a section.** -/
theorem replace_spec {statements : List Statement}
    (hplaced : ∀ s ∈ statements, Placed total position s)
    (hordered : statements.Pairwise fun s t => s.stop ≤ t.start)
    (hquotes : ∀ key value : Bytes, p.options[key]? = some (some value) → quotable value = true)
    (seen : List Bytes) (last : Option ℕ) :
    ∃ cuts seen' last', replace p seen last statements = .ok (cuts.map (map Fresh.text), seen', last') ∧
      Replaced p last statements cuts last' := by
  induction statements generalizing seen last with
  | nil =>
    refine ⟨[], seen, last, rfl, fun c hc => absurd hc not_mem_nil, nil, fun at_ hat => inl hat, ?_⟩
    rintro (hlast | ⟨s, hs, -⟩)
    · exact hlast
    · exact absurd hs not_mem_nil
  | cons s rest ih =>
    rw [pairwise_cons] at hordered
    have hs := hplaced s mem_cons_self
    have ih := ih (fun t ht => hplaced t (mem_cons_of_mem _ ht)) hordered.2
    by_cases hpackage : s.command = .package
    · obtain ⟨cuts, seen', last', hrest, hspec⟩ := ih seen last
      exact ⟨cuts, seen', last', by rw [replace, if_pos hpackage, hrest],
        hspec.skip (by rw [hpackage]; decide)⟩
    by_cases hstruck : p.struck = true
    · obtain ⟨cuts, seen', last', hrest, hspec⟩ := ih seen (some s.stop)
      refine ⟨_ :: cuts, seen', last', ?_, hspec.cons hs hordered.1 hpackage (.struck hstruck)⟩
      rw [replace, if_neg hpackage, if_pos hstruck, hrest]
      rfl
    by_cases hconfig : s.command = .config
    · obtain ⟨cuts, seen', last', hrest, hspec⟩ := ih seen (some s.stop)
      exact ⟨cuts, seen', last', by rw [replace, if_neg hpackage, if_neg hstruck, if_pos hconfig,
        hrest],
        hspec.pass⟩
    have hcommand : s.command = .option ∨ s.command = .list := by
      cases hc : s.command <;> simp_all
    obtain ⟨key, hhead, hvalid⟩ := hs.key hcommand
    have hname : name (s.arguments.head?.getD []) = .ok key := by
      rw [hhead]
      exact name_ok.mpr ⟨hvalid, rfl⟩
    rw [replace, if_neg hpackage, if_neg hstruck, if_neg hconfig, hname]
    simp only [bind, Except.bind]
    cases hoption : p.options[key]? with
    | none =>
      obtain ⟨cuts, seen', last', hrest, hspec⟩ := ih seen (some s.stop)
      exact ⟨cuts, seen', last', hrest, hspec.pass⟩
    | some value =>
      cases value with
      | none =>
        obtain ⟨cuts, seen', last', hrest, hspec⟩ := ih seen (some s.stop)
        refine ⟨_ :: cuts, seen', last', ?_,
          hspec.cons hs hordered.1 hpackage (.dropped hcommand hhead hoption)⟩
        rw [hrest]
        rfl
      | some value =>
        by_cases hseen : key ∈ seen
        · obtain ⟨cuts, seen', last', hrest, hspec⟩ := ih seen (some s.stop)
          refine ⟨_ :: cuts, seen', last', ?_,
            hspec.cons hs hordered.1 hpackage (.dropped hcommand hhead hoption)⟩
          simp only [if_pos hseen]
          rw [hrest]
          rfl
        · obtain ⟨cuts, seen', last', hrest, hspec⟩ := ih (key :: seen) (some s.stop)
          refine ⟨_ :: cuts, seen', last', ?_,
            hspec.cons hs hordered.1 hpackage (.rewritten hcommand hhead hoption)⟩
          simp only [if_neg hseen, optionText_ok (hquotes key value hoption)]
          rw [hrest]
          rfl

def Line.Asked (edits : List Edit) : Line → Prop
  | .option key value => ∃ a, .set a key value ∈ edits
  | .config kind a => .addSection a kind ∈ edits

def Line.MayStand (edits : List Edit) (length at_ : ℕ) (line : Line) : Prop :=
  line.Asked edits ∧ ∀ kind a, line = .config kind a → at_ = length

/-- An insertion stands at the end of a statement or of the file, and is made of lines that the edits
ask for. -/
structure Inserted (statements : List Statement) (edits : List Edit) (length at_ : ℕ) (text : Bytes) :
    Prop where
  place : at_ = length ∨ ∃ s ∈ statements, s.stop = at_
  lines : ∃ lead written, text = (Fresh.lines lead written).text ∧
    ∀ line ∈ written, line.MayStand edits length at_

def Sited (statements : List Statement) (edits : List Edit) (length : ℕ) (insertions : Insertions) :
    Prop :=
  ∀ (at_ : ℕ) (text : Bytes), insertions[at_]? = some text → Inserted statements edits length at_ text

section

variable {statements : List Statement} {edits : List Edit} {original : Bytes}

theorem Sited.insertText (h : Sited statements edits original.length insertions) (at_ : ℕ)
    (written : List Line) (hplace : at_ = original.length ∨ ∃ s ∈ statements, s.stop = at_)
    (hwritten : ∀ line ∈ written, line.MayStand edits original.length at_) :
    Sited statements edits original.length
      (insertText original insertions at_ (written.flatMap Line.text)) := by
  intro k text hk
  simp only [UciEdits.insertText, Std.ExtTreeMap.getElem?_insert, Std.LawfulEqCmp.compare_eq_iff_eq]
    at hk
  split at hk
  · rename_i heq
    subst heq
    refine ⟨hplace, ?_⟩
    cases hk
    split
    · exact ⟨true, written, rfl, hwritten⟩
    · cases hold : insertions[at_]? with
      | none => exact ⟨false, written, rfl, hwritten⟩
      | some old =>
        obtain ⟨lead, before, rfl, hbefore⟩ := (h at_ old hold).lines
        refine ⟨lead, before ++ written, ?_, fun line hline => ?_⟩
        · simp [Fresh.text]
        · rcases mem_append.mp hline with hline | hline
          · exact hbefore line hline
          · exact hwritten line hline
  · exact h k text hk

theorem insertMissing_spec (last : Option ℕ) (options : List (Bytes × Bytes))
    (hlast : options ≠ [] → last.isSome = true)
    (hplace : ∀ at_, last = some at_ → ∃ s ∈ statements, s.stop = at_)
    (hoptions : ∀ o ∈ options, (∃ a, .set a o.1 o.2 ∈ edits) ∧ quotable o.2 = true)
    (h : Sited statements edits original.length insertions) :
    ∃ insertions', insertMissing original last insertions options = .ok insertions' ∧
      Sited statements edits original.length insertions' := by
  induction options generalizing insertions with
  | nil => exact ⟨insertions, rfl, h⟩
  | cons o rest ih =>
    obtain ⟨at_, hat⟩ := isSome_iff_exists.mp (hlast (cons_ne_nil _ _))
    subst hat
    obtain ⟨hasked, hquotes⟩ := hoptions o mem_cons_self
    have hsited := h.insertText at_ [.option o.1 o.2] (inr (hplace at_ rfl)) ?_
    · obtain ⟨insertions', hrest, hsited'⟩ := ih (fun _ => hlast (cons_ne_nil _ _))
        (fun o' ho' => hoptions o' (mem_cons_of_mem _ ho')) hsited
      refine ⟨insertions', ?_, hsited'⟩
      rw [insertMissing]
      simp only [optionLine_ok hquotes, bind, Except.bind]
      rw [← hrest, flatMap_cons, flatMap_nil, append_nil]
    · intro line hline
      rw [mem_singleton.mp hline]
      exact ⟨hasked, fun kind a heq => (by cases heq)⟩

end

theorem mem_values {o : Bytes × Bytes} : o ∈ p.values ↔ p.options[o.1]? = some (some o.2) := by
  unfold SectionPatch.values
  rw [mem_filterMap]
  constructor
  · rintro ⟨entry, hentry, heq⟩
    obtain ⟨value, hvalue, rfl⟩ := map_eq_some_iff.mp heq
    rw [← hvalue]
    exact mem_toList_iff_getElem?_eq_some.mp hentry
  · intro h
    exact ⟨(o.1, some o.2), mem_toList_iff_getElem?_eq_some.mpr h, rfl⟩

/-- A file, the edits, and the patches that they make. -/
structure Edited (original : Bytes) (edits : List Edit) (statements : List Statement)
    (sections : Sections) (patches : Patches) : Prop where
  parsed : UciEdits.statements original = .ok (statements, sections)
  collected : collect sections edits = .ok patches

variable {original : Bytes} {edits : List Edit} {statements : List Statement} {sections : Sections}
  {patches : Patches}

/-- The cuts and insertions of some patches. -/
structure Progress (original : Bytes) (edits : List Edit) (statements : List Statement)
    (entries : List (Bytes × SectionPatch)) (cuts : List (Cut Fresh)) (insertions : Insertions) :
    Prop where
  cut : ∀ c ∈ cuts, ∃ entry ∈ entries, ∃ s ∈ statements, s.section_ = some entry.1 ∧
    s.command ≠ .package ∧ CutOf entry.2 s c
  apart : cuts.Pairwise Cut.Apart
  sited : Sited statements edits original.length insertions

section

variable (he : Edited original edits statements sections patches)
include he

theorem Progress.patchSection {done : List (Bytes × SectionPatch)}
    (h : Progress original edits statements done cuts insertions) {entry : Bytes × SectionPatch}
    (hentry : patches[entry.1]? = some entry.2) (hnew : ∀ e ∈ done, e.1 ≠ entry.1) :
    ∃ cuts' insertions',
      UciEdits.patchSection original statements (cuts.map (map Fresh.text), insertions) entry =
        .ok (cuts'.map (map Fresh.text), insertions') ∧
      Progress original edits statements (done ++ [entry]) cuts' insertions' := by
  have hchained := (statements_chained he.parsed).2.1
  have hsourced := sourced_of_collect he.collected hentry
  have hfilter : ∀ s ∈ statements.filter fun s => s.section_ = some entry.1,
      s ∈ statements ∧ s.section_ = some entry.1 := by
    intro s hs
    obtain ⟨hmem, hsection⟩ := mem_filter.mp hs
    exact ⟨hmem, of_decide_eq_true hsection⟩
  obtain ⟨own, seen, last, hreplace, hspec⟩ := replace_spec
    (fun s hs => hchained.placed s (hfilter s hs).1)
    (hchained.ordered.sublist filter_sublist) (fun key value hvalue =>
      (hsourced.values key value hvalue).2) [] none
  -- the cuts of this section stand apart from those of the sections before it
  have hcut : ∀ c ∈ cuts ++ own, ∃ e ∈ done ++ [entry], ∃ s ∈ statements, s.section_ = some e.1 ∧
      s.command ≠ .package ∧ CutOf e.2 s c := by
    intro c hc
    rcases mem_append.mp hc with hc | hc
    · obtain ⟨e, hedone, hrest⟩ := h.cut c hc
      exact ⟨e, mem_append_left _ hedone, hrest⟩
    · obtain ⟨s, hs, hpackage, hcut⟩ := hspec.cut c hc
      exact ⟨entry, mem_append_right _ (mem_singleton.mpr rfl), s, (hfilter s hs).1,
        (hfilter s hs).2, hpackage, hcut⟩
  have hapart : (cuts ++ own).Pairwise Cut.Apart := by
    refine pairwise_append.mpr ⟨h.apart, hspec.ordered.imp inl, fun c hc d hd => ?_⟩
    obtain ⟨e, hedone, s, hs, hsection, -, hscut⟩ := h.cut c hc
    obtain ⟨t, ht, -, htcut⟩ := hspec.cut d hd
    obtain ⟨ht, htsection⟩ := hfilter t ht
    have hne : s ≠ t := by
      rintro rfl
      rw [hsection] at htsection
      exact hnew e hedone (some.inj htsection)
    have hsstop := hscut.stop (hchained.placed s hs)
    have htstop := htcut.stop (hchained.placed t ht)
    unfold Cut.Apart
    rw [hscut.start, htcut.start]
    rcases (hchained.trichotomy hs ht).resolve_left hne with hst | hts
    · exact inl (by omega)
    · exact inr (by omega)
  have happend : (cuts.map (Cut.map Fresh.text)) ++ own.map (Cut.map Fresh.text) =
      (cuts ++ own).map (Cut.map Fresh.text) := (map_append).symm
  simp only [UciEdits.patchSection, hreplace, bind, Except.bind, happend]
  split
  · exact ⟨cuts ++ own, insertions, rfl, hcut, hapart, h.sited⟩
  · rename_i hstruck
    have hmissing : ∀ o ∈ entry.2.values.filter fun o => o.1 ∉ seen, o ∈ entry.2.values :=
      fun o ho => (mem_filter.mp ho).1
    have hoptions : ∀ o ∈ entry.2.values.filter fun o => o.1 ∉ seen,
        (∃ a, .set a o.1 o.2 ∈ edits) ∧ quotable o.2 = true := by
      intro o ho
      obtain ⟨hset, hquotes⟩ := hsourced.values o.1 o.2 (mem_values.mp (hmissing o ho))
      exact ⟨⟨entry.1, hset⟩, hquotes⟩
    -- a section that is edited and not new has a `config`
    have hlast : (entry.2.values.filter fun o => o.1 ∉ seen) ≠ [] → last.isSome = true := by
      intro hne
      obtain ⟨o, ho⟩ := exists_mem_of_ne_nil _ hne
      have hnamed := hsourced.named o.1 _ (mem_values.mp (hmissing o ho))
      have hsections := (statements_chained he.parsed).2.2 entry.1
      obtain ⟨s, hs, hconfig, hsection⟩ := hsections.mp (hnamed.resolve_right hstruck)
      exact hspec.found (inr ⟨s, mem_filter.mpr ⟨hs, decide_eq_true hsection⟩, hconfig⟩)
    have hplace : ∀ at_, last = some at_ → ∃ s ∈ statements, s.stop = at_ := by
      intro at_ hat
      rcases hspec.ended at_ hat with hnone | ⟨s, hs, hstop⟩
      · cases hnone
      · exact ⟨s, (hfilter s hs).1, hstop⟩
    obtain ⟨insertions', hinsert, hsited⟩ := insertMissing_spec last _ hlast hplace hoptions h.sited
    refine ⟨cuts ++ own, insertions', ?_, hcut, hapart, hsited⟩
    rw [hinsert]
    rfl

theorem Progress.patchSections {done entries : List (Bytes × SectionPatch)}
    (h : Progress original edits statements done cuts insertions)
    (hentries : ∀ e ∈ entries, patches[e.1]? = some e.2)
    (hnew : (done ++ entries).Pairwise fun e e' => e.1 ≠ e'.1) :
    ∃ cuts' insertions',
      entries.foldlM (UciEdits.patchSection original statements)
        (cuts.map (map Fresh.text), insertions) = .ok (cuts'.map (map Fresh.text), insertions') ∧
      Progress original edits statements (done ++ entries) cuts' insertions' := by
  induction entries generalizing done cuts insertions with
  | nil => exact ⟨cuts, insertions, rfl, by rw [append_nil]; exact h⟩
  | cons entry rest ih =>
    have hbefore : ∀ e ∈ done, e.1 ≠ entry.1 := fun e hedone =>
      (pairwise_append.mp hnew).2.2 e hedone entry mem_cons_self
    obtain ⟨cuts₁, insertions₁, hfirst, hprogress⟩ :=
      h.patchSection he (hentries entry mem_cons_self) hbefore
    have hsplit : done ++ entry :: rest = (done ++ [entry]) ++ rest := by
      rw [append_assoc, singleton_append]
    rw [hsplit] at hnew ⊢
    obtain ⟨cuts₂, insertions₂, hrest, hprogress'⟩ :=
      ih hprogress (fun e hemem => hentries e (mem_cons_of_mem _ hemem)) hnew
    refine ⟨cuts₂, insertions₂, ?_, hprogress'⟩
    rw [foldlM_cons, hfirst]
    exact hrest

theorem Sited.appendSections {entries : List (Bytes × SectionPatch)}
    (h : Sited statements edits original.length insertions)
    (hentries : ∀ e ∈ entries, patches[e.1]? = some e.2) :
    ∃ insertions', entries.foldlM (appendSection original) insertions = .ok insertions' ∧
      Sited statements edits original.length insertions' := by
  induction entries generalizing insertions with
  | nil => exact ⟨insertions, rfl, h⟩
  | cons entry rest ih =>
    have hsourced := sourced_of_collect he.collected (hentries entry mem_cons_self)
    have hrest := fun e hemem => hentries e (mem_cons_of_mem _ hemem)
    rw [foldlM_cons]
    cases hadd : entry.2.add with
    | none =>
      obtain ⟨insertions', htail, hsited⟩ := ih h hrest
      refine ⟨insertions', ?_, hsited⟩
      rw [appendSection, hadd]
      exact htail
    | some kind =>
      have hquotes : ∀ o ∈ entry.2.values, quotable o.2 = true := fun o ho =>
        (hsourced.values o.1 o.2 (mem_values.mp ho)).2
      have hsited := h.insertText original.length
        (.config kind entry.1 :: entry.2.values.map fun o => .option o.1 o.2)
        (inl rfl) ?_
      · obtain ⟨insertions', htail, hsited'⟩ := ih hsited hrest
        refine ⟨insertions', ?_, hsited'⟩
        rw [appendSection, hadd]
        simp only [optionLines_ok hquotes, Except.map, bind, Except.bind]
        exact htail
      · intro line hline
        rcases mem_cons.mp hline with rfl | hline
        · exact ⟨hsourced.add kind hadd, fun _ _ _ => rfl⟩
        · obtain ⟨o, ho, rfl⟩ := mem_map.mp hline
          exact ⟨⟨entry.1, (hsourced.values o.1 o.2 (mem_values.mp ho)).1⟩, fun _ _ _ => rfl⟩

end

/-- What `splice` writes is woven of the cuts. -/
theorem splice_ok {output result : Bytes} {cuts : List (Cut Bytes)}
    (h : splice original position output cuts = .ok result) :
    result = output ++ (weave original.length position cuts).flatMap (Piece.content id original) := by
  induction cuts generalizing position output with
  | nil =>
    rw [splice] at h
    split at h
    · cases h
    · cases h
      rw [weave, flatMap_singleton, Piece.content, take_of_length_le]
      rw [length_drop]
  | cons c rest ih =>
    rw [splice] at h
    split at h
    · cases h
    · simp only at h
      split at h
      · cases h
      · rw [ih h, weave, flatMap_cons, flatMap_cons]
        simp [Piece.content]

theorem splice_error {output : Bytes} {cuts : List (Cut Bytes)} {e : String}
    (hfollows : Follows original.length position cuts)
    (h : splice original position output cuts = .error e) : e = "uci-edit-output-too-large" := by
  induction cuts generalizing position output with
  | nil =>
    rw [splice] at h
    split at h
    · exact (Except.error.inj h).symm
    · cases h
  | cons c rest ih =>
    obtain ⟨hstart, -, hrest⟩ := hfollows
    rw [splice, if_neg (by omega)] at h
    simp only at h
    split at h
    · exact (Except.error.inj h).symm
    · exact ih hrest h

def Planned (edits : List Edit) (statements : List Statement) (patches : Patches) (length : ℕ)
    (c : Cut Fresh) : Prop :=
  (∃ a p, patches[a]? = some p ∧ ∃ s ∈ statements, s.section_ = some a ∧ s.command ≠ .package ∧
      CutOf p s c) ∨
    ∃ at_ lead written, c = ⟨at_, at_, .lines lead written⟩ ∧
      (at_ = length ∨ ∃ s ∈ statements, s.stop = at_) ∧
      ∀ line ∈ written, line.MayStand edits length at_

theorem exists_insertedCuts {insertions : List (ℕ × Bytes)} {length : ℕ}
    (h : ∀ i ∈ insertions, Inserted statements edits length i.1 i.2) :
    ∃ cuts : List (Cut Fresh),
      (insertions.map fun i => (⟨i.1, i.1, i.2⟩ : Cut Bytes)) = cuts.map (Cut.map Fresh.text) ∧
      ∀ c ∈ cuts, ∃ at_ lead written, c = ⟨at_, at_, .lines lead written⟩ ∧
        (at_ = length ∨ ∃ s ∈ statements, s.stop = at_) ∧
        ∀ line ∈ written, line.MayStand edits length at_ := by
  induction insertions with
  | nil => exact ⟨[], rfl, fun c hc => absurd hc not_mem_nil⟩
  | cons i rest ih =>
    obtain ⟨cuts, hcuts, hspec⟩ := ih fun j hj => h j (mem_cons_of_mem _ hj)
    obtain ⟨hplace, lead, written, htext, hwritten⟩ := h i mem_cons_self
    refine ⟨⟨i.1, i.1, .lines lead written⟩ :: cuts, ?_, fun c hc => ?_⟩
    · rw [map_cons, map_cons, hcuts, Cut.map, htext]
    · rcases mem_cons.mp hc with rfl | hc
      · exact ⟨i.1, lead, written, rfl, hplace, hwritten⟩
      · exact hspec c hc

/-- **The output is spliced of cuts that the edits ask for, one after another.** -/
theorem render_cuts (he : Edited original edits statements sections patches)
    (hcount : edits.length ≤ maxEdits)
    (hpayload : checkPayload 0 (edits.flatMap Edit.fields) = .ok ()) :
    ∃ cuts : List (Cut Fresh), Follows original.length 0 cuts ∧
      (∀ c ∈ cuts, Planned edits statements patches original.length c) ∧
      render original edits = splice original 0 [] (cuts.map (map Fresh.text)) := by
  have hchained := (statements_chained he.parsed).2.1
  have hentries : ∀ e ∈ patches.toList, patches[e.1]? = some e.2 :=
    fun e hemem => mem_toList_iff_getElem?_eq_some.mp hemem
  have hkeys : patches.toList.Pairwise fun e e' => e.1 ≠ e'.1 := by
    refine distinct_keys_toList.imp fun hne heq => hne ?_
    rw [heq]
    exact Std.ReflCmp.compare_self
  have hnone : Progress original edits statements [] [] ∅ :=
    ⟨fun c hc => absurd hc not_mem_nil, nil, fun at_ text htext => by simp at htext⟩
  obtain ⟨replaced, insertions, hsections, hprogress⟩ := hnone.patchSections he hentries hkeys
  obtain ⟨insertions', happend, hsited⟩ := hprogress.sited.appendSections he hentries
  obtain ⟨inserted, hinserted, hinsertedSpec⟩ := exists_insertedCuts
    fun (i : ℕ × Bytes) (hi : i ∈ insertions'.toList) =>
      hsited i.1 i.2 (mem_toList_iff_getElem?_eq_some.mp hi)
  have hplanned : ∀ c ∈ replaced ++ inserted, Planned edits statements patches original.length c := by
    intro c hc
    rcases mem_append.mp hc with hc | hc
    · obtain ⟨entry, hentry, s, hs, hsection, hpackage, hcut⟩ := hprogress.cut c hc
      exact inl ⟨entry.1, entry.2, hentries entry hentry, s, hs, hsection, hpackage, hcut⟩
    · exact inr (hinsertedSpec c hc)
  have hwithin : ∀ c ∈ replaced ++ inserted, c.start ≤ c.stop ∧ c.stop ≤ original.length := by
    intro c hc
    rcases hplanned c hc with ⟨a, p, -, s, hs, -, -, hcut⟩ | ⟨at_, lead, written, rfl, hplace, -⟩
    · have hplaced := hchained.placed s hs
      have hstop := hcut.stop hplaced
      have hend := hplaced.stop
      rw [hcut.start]
      omega
    · refine ⟨le_rfl, ?_⟩
      rcases hplace with heq | ⟨s, hs, hstop⟩
      · exact heq.le
      · have hend := (hchained.placed s hs).stop
        simp only
        omega
  -- an insertion stands apart from a replacement, and from another insertion
  have hapart : (replaced ++ inserted).Pairwise Cut.Apart := by
    refine pairwise_append.mpr ⟨hprogress.apart, ?_, fun c hc d hd => ?_⟩
    · refine pairwise_of_forall_mem_list fun c hc d hd => ?_
      obtain ⟨at_, lead, written, rfl, -⟩ := hinsertedSpec c hc
      obtain ⟨at', lead', written', rfl, -⟩ := hinsertedSpec d hd
      exact Nat.le_total at_ at'
    · obtain ⟨entry, -, s, hs, -, -, hcut⟩ := hprogress.cut c hc
      obtain ⟨at_, lead, written, rfl, hplace, -⟩ := hinsertedSpec d hd
      have hplaced := hchained.placed s hs
      have hstop := hcut.stop hplaced
      have hend := hplaced.stop
      unfold Cut.Apart
      rw [hcut.start]
      rcases hplace with heq | ⟨t, ht, htstop⟩
      · simp only
        omega
      · have htplaced := hchained.placed t ht
        have htstart := htplaced.start
        have httoken := htplaced.tokenEnd
        rcases hchained.trichotomy hs ht with rfl | hst | hts
        · exact inl (by simp only; omega)
        · exact inl (by simp only; omega)
        · exact inr (by simp only; omega)
  refine ⟨(replaced ++ inserted).mergeSort le, follows_mergeSort hwithin hapart, fun c hc => ?_, ?_⟩
  · exact hplanned c ((mergeSort_perm _ _).mem_iff.mp hc)
  · have hsort := map_mergeSort (l := replaced ++ inserted) (r := le) (s := le)
      (f := map Fresh.text) fun _ _ _ _ => rfl
    simp only [render, if_neg (Nat.not_lt.mpr hcount), hpayload, he.parsed, he.collected, bind,
      Except.bind]
    have hsections' : patches.toList.foldlM (patchSection original statements) ([], ∅) =
        .ok (replaced.map (map Fresh.text), insertions) := hsections
    rw [hsections']
    simp only [happend]
    rw [hinserted, ← map_append, hsort]

end CakeAutorate.UciEdits
