/-
# What a rendering leaves alone

The output of `render` is woven of stretches of the file and of the lines that the edits write. The
stretches are in the order of the file, every statement that the edits do not touch is kept in one
of them from its first byte to its last, and so is what stands between the statements: blanks,
semicolons and comments.
-/

import CakeAutorate.UciEdits.View

namespace CakeAutorate
open List Or Nat UciEdits

namespace UciEdits

open Syscall Machine

def Strikes (edits : List Edit) (a : Bytes) : Prop :=
  .deleteSection a ∈ edits ∨ ∃ kind, .addSection a kind ∈ edits

def Changes (edits : List Edit) (a key : Bytes) : Prop :=
  (∃ value, .set a key value ∈ edits) ∨ .delete a key ∈ edits

/-- A statement of a named section that the edits delete or add anew, or an option or list of a named
section whose key they set or delete. -/
def Touched (edits : List Edit) (s : Statement) : Prop :=
  ∃ a, s.section_ = some a ∧ s.command ≠ .package ∧
    (Strikes edits a ∨ ((s.command = .option ∨ s.command = .list) ∧
      ∃ key, s.arguments.head? = some key ∧ Changes edits a key))

def gaps (length : ℕ) : ℕ → List Statement → List (ℕ × ℕ)
  | position, [] => [(position, length)]
  | position, s :: rest => (position, s.start) :: gaps length s.stop rest

def KeptWhole (pieces : List (Piece Fresh)) (u v : ℕ) : Prop :=
  ∃ start stop, .kept start stop ∈ pieces ∧ start ≤ u ∧ v ≤ stop

def headersOf (statements : List Statement) : Piece Fresh → List Statement
  | .kept start stop =>
    statements.filter fun s => s.command = .config ∧ start ≤ s.start ∧ s.stop ≤ stop
  | .fresh _ => []

def WritesNoHeader : Piece Fresh → Prop
  | .kept _ _ => True
  | .fresh c => ∀ lead written, c.text = .lines lead written → ∀ kind a, .config kind a ∉ written

/-- A statement stands in the output under the header that it stood under: no new header is before it,
and the last header of the file before it is the one that was. -/
def StaysInSection (statements : List Statement) (pieces : List (Piece Fresh)) (s : Statement) : Prop :=
  ∃ front start stop back, pieces = front ++ .kept start stop :: back ∧ start ≤ s.start ∧
    s.stop ≤ stop ∧
    (∀ p ∈ front, WritesNoHeader p) ∧
    ((front ++ [.kept start s.start]).flatMap (headersOf statements)).getLast? =
      (headersOf statements (.kept 0 s.start)).getLast?

def Fresh.Asked (edits : List Edit) : Fresh → Prop
  | .removed => True
  | .rewritten key value => ∃ a, .set a key value ∈ edits
  | .lines _ written => ∀ line ∈ written, line.Asked edits

/-- The pieces of an output against the file and the edits. -/
structure Framed (original : Bytes) (edits : List Edit) (statements : List Statement)
    (pieces : List (Piece Fresh)) : Prop where
  ordered : pieces.Pairwise fun p q =>
    ∀ start stop start' stop', p = .kept start stop → q = .kept start' stop' → stop ≤ start'
  within : ∀ start stop, .kept start stop ∈ pieces → start ≤ stop ∧ stop ≤ original.length
  byte : ∀ i < original.length, (∀ s ∈ statements, Touched edits s → ¬ (s.start ≤ i ∧ i < s.stop)) →
    KeptWhole pieces i (i + 1)
  statement : ∀ s ∈ statements, ¬ Touched edits s → KeptWhole pieces s.start s.stop
  between : ∀ g ∈ gaps original.length 0 statements, KeptWhole pieces g.1 g.2
  section_ : ∀ s ∈ statements, s.command ≠ .config → ¬ Touched edits s →
    (∀ a, s.section_ = some a → ¬ Strikes edits a) → StaysInSection statements pieces s
  asked : ∀ c, .fresh c ∈ pieces → c.text.Asked edits

variable {original output : Bytes} {edits : List Edit} {statements : List Statement}
  {sections : Sections} {patches : Patches} {p : SectionPatch} {s : Statement} {total : ℕ}
  {current : Option Bytes}

theorem strikes_of_struck {a : Bytes} (h : Sourced sections a edits p) (hp : p.struck = true) :
    Strikes edits a := by
  rw [SectionPatch.struck, Bool.or_eq_true] at hp
  rcases hp with hdelete | hadd
  · exact inl (h.delete hdelete)
  · obtain ⟨kind, hkind⟩ := Option.isSome_iff_exists.mp hadd
    exact inr ⟨kind, h.add kind hkind⟩

theorem changes_of_option {a key : Bytes} {value : Option Bytes} (h : Sourced sections a edits p)
    (hp : p.options[key]? = some value) : Changes edits a key := by
  cases value with
  | none => exact inr (h.drops key hp)
  | some value => exact inl ⟨value, (h.values key value hp).1⟩

theorem CutOf.touched {a : Bytes} {c : Cut Fresh} (h : CutOf p s c)
    (hsourced : Sourced sections a edits p) (hsection : s.section_ = some a)
    (hpackage : s.command ≠ .package) : Touched edits s := by
  refine ⟨a, hsection, hpackage, ?_⟩
  cases h with
  | struck hstruck => exact inl (strikes_of_struck hsourced hstruck)
  | dropped command head option => exact inr ⟨command, _, head, changes_of_option hsourced option⟩
  | rewritten command head option => exact inr ⟨command, _, head, changes_of_option hsourced option⟩

def Clear (edits : List Edit) (statements : List Statement) (u v : ℕ) : Prop :=
  ∀ s ∈ statements, v ≤ s.start ∨ s.stop ≤ u ∨ (¬ Touched edits s ∧ s.start = u ∧ s.stop = v)

theorem Clear.cut {u v : ℕ} (h : Clear edits statements u v)
    (he : Edited original edits statements sections patches) (hv : v ≤ original.length) {c : Cut Fresh}
    (hc : Planned edits statements patches original.length c) : v ≤ c.start ∨ c.stop ≤ u := by
  have hchained := (statements_chained he.parsed).2.1
  rcases hc with ⟨a, p, hp, s, hs, hsection, hpackage, hcut⟩ | ⟨at_, lead, written, rfl, hplace, -⟩
  · have hstop := hcut.stop (hchained.placed s hs)
    rcases h s hs with hbefore | hafter | ⟨huntouched, -⟩
    · exact inl (by rw [hcut.start]; exact hbefore)
    · exact inr (hstop.2.trans hafter)
    · exact absurd (hcut.touched (sourced_of_collect he.collected hp) hsection hpackage) huntouched
  · rcases hplace with heq | ⟨s, hs, hstop⟩
    · exact inl (by rw [heq]; exact hv)
    · have hplaced := hchained.placed s hs
      have hstart := hplaced.start
      have htoken := hplaced.tokenEnd
      rcases h s hs with hbefore | hafter | ⟨-, -, hend⟩
      · exact inl (by simp only; omega)
      · exact inr (by simp only; omega)
      · exact inl (by simp only; omega)

theorem clear_statement {position : ℕ} (h : Chained total position current statements)
    (hs : s ∈ statements) (huntouched : ¬ Touched edits s) :
    Clear edits statements s.start s.stop := by
  intro t ht
  rcases h.trichotomy hs ht with rfl | hst | hts
  · exact inr (inr ⟨huntouched, rfl, rfl⟩)
  · exact inl hst
  · exact inr (inl hts)

theorem gaps_clear {position : ℕ} (h : Chained total position current statements) {g : ℕ × ℕ}
    (hg : g ∈ gaps total position statements) :
    position ≤ g.1 ∧ g.1 ≤ g.2 ∧ g.2 ≤ total ∧ ∀ s ∈ statements, g.2 ≤ s.start ∨ s.stop ≤ g.1 := by
  induction statements generalizing position current with
  | nil =>
    obtain rfl := mem_singleton.mp hg
    exact ⟨le_rfl, h, le_rfl, fun s hs => absurd hs not_mem_nil⟩
  | cons s rest ih =>
    have hplaced := h.placed s mem_cons_self
    obtain ⟨hposition, hstart, htoken, -, -, hrest⟩ := h
    have hend := hplaced.stop
    rcases mem_cons.mp hg with rfl | hg
    · refine ⟨le_rfl, hposition, by simp only; omega, fun t ht => inl ?_⟩
      rcases mem_cons.mp ht with rfl | ht
      · exact le_rfl
      · have hle := (hrest.placed t ht).position
        omega
    · obtain ⟨hlo, hmid, hhi, hclear⟩ := ih hrest hg
      refine ⟨by omega, hmid, hhi, fun t ht => ?_⟩
      rcases mem_cons.mp ht with rfl | ht
      · exact inr hlo
      · exact hclear t ht

theorem section_of_header {position : ℕ} (h : Chained total position current statements)
    (hs : s ∈ statements) (hcommand : s.command ≠ .config) :
    s.section_ = ((statements.filter fun t => t.command = .config ∧ t.stop ≤ s.start).getLast?.map
      Statement.section_).getD current := by
  induction statements generalizing position current with
  | nil => exact absurd hs not_mem_nil
  | cons t rest ih =>
    obtain ⟨-, hstart, htoken, hsection, -, hrest⟩ := h
    rcases mem_cons.mp hs with rfl | hs
    · have hnone : ((s :: rest).filter fun t => t.command = .config ∧ t.stop ≤ s.start) = [] := by
        refine filter_eq_nil_iff.mpr fun t ht => ?_
        rw [decide_eq_true_eq, not_and]
        intro _
        rcases mem_cons.mp ht with rfl | ht
        · omega
        · have hplaced := hrest.placed t ht
          have hle := hplaced.position
          have hlt := hplaced.start
          have hle' := hplaced.tokenEnd
          omega
      rw [hnone]
      exact hsection hcommand
    · have hbefore := (hrest.placed s hs).position
      rw [ih hrest hs]
      by_cases ht : t.command = .config
      · rw [filter_cons_of_pos (by simpa [ht] using hbefore), getLast?_cons]
        cases (rest.filter fun t => t.command = .config ∧ t.stop ≤ s.start).getLast? <;> rfl
      · rw [filter_cons_of_neg (by simp [ht]), hsection ht]

theorem before_getLast {α : Type} {R : α → α → Prop} {l : List α} {x : α} (h : l.Pairwise R)
    (hx : l.getLast? = some x) : ∀ y ∈ l, y = x ∨ R y x := by
  obtain ⟨front, rfl⟩ := getLast?_eq_some_iff.mp hx
  intro y hy
  rcases mem_append.mp hy with hy | hy
  · exact inr ((pairwise_append.mp h).2.2 y hy x (mem_singleton.mpr rfl))
  · exact inl (mem_singleton.mp hy)

theorem headersOf_ordered {p q : Piece Fresh}
    (h : ∀ start stop start' stop', p = .kept start stop → q = .kept start' stop' → stop ≤ start') :
    ∀ t ∈ headersOf statements p, ∀ t' ∈ headersOf statements q, t.stop ≤ t'.start := by
  intro t ht t' ht'
  cases p with
  | fresh c => exact absurd ht not_mem_nil
  | kept start stop =>
    cases q with
    | fresh c => exact absurd ht' not_mem_nil
    | kept start' stop' =>
      have hle := h start stop start' stop' rfl rfl
      simp only [headersOf, mem_filter, decide_eq_true_eq] at ht ht'
      omega

/-- **The header above a statement is the header that was above it.** -/
theorem staysInSection (he : Edited original edits statements sections patches)
    {cuts : List (Cut Fresh)} (hfollows : Follows original.length 0 cuts)
    (hplanned : ∀ c ∈ cuts, Planned edits statements patches original.length c)
    (hs : s ∈ statements) (hcommand : s.command ≠ .config) (huntouched : ¬ Touched edits s)
    (hstrikes : ∀ a, s.section_ = some a → ¬ Strikes edits a) :
    StaysInSection statements (weave original.length 0 cuts) s := by
  have hchained := (statements_chained he.parsed).2.1
  have hplaced := hchained.placed s hs
  have hstart := hplaced.start
  have htoken := hplaced.tokenEnd
  have hend := hplaced.stop
  obtain ⟨front, start, stop, back, hweave, hlo, hhi, hfresh⟩ := weave_keeps hfollows (zero_le _) hend
    fun c hc => (clear_statement hchained hs huntouched).cut he hend (hplanned c hc)
  obtain ⟨hwithin, hordered⟩ := weave_ordered hfollows
  have hordered' := hordered
  rw [hweave] at hordered'
  obtain ⟨hfront, hback, hcross⟩ := pairwise_append.mp hordered'
  refine ⟨front, start, stop, back, hweave, hlo, hhi, fun p hp => ?_, ?_⟩
  · -- new headers stand at the end of the file
    cases p with
    | kept _ _ => exact trivial
    | fresh c =>
      intro lead written htext kind a hmem
      obtain ⟨hc, hcstop⟩ := hfresh c hp
      rcases hplanned c hc with ⟨b, p, -, t, -, -, -, hcut⟩ | ⟨at_, lead', written', rfl, -, hlines⟩
      · cases hcut <;> cases htext
      · cases htext
        have hat := (hlines _ hmem).2 kind a rfl
        have hcstop : at_ ≤ s.start := hcstop
        omega
  · -- the headers before the statement, in the output and in the file
    have hmem : ∀ t ∈ (front ++ [Piece.kept start s.start]).flatMap (headersOf statements),
        t ∈ headersOf statements (.kept 0 s.start) := by
      intro t ht
      obtain ⟨p, hp, ht⟩ := mem_flatMap.mp ht
      cases p with
      | fresh c => exact absurd ht not_mem_nil
      | kept lo hi =>
        have hle : hi ≤ s.start := by
          rcases mem_append.mp hp with hp | hp
          · exact (hcross _ hp _ mem_cons_self lo hi start stop rfl rfl).trans hlo
          · obtain ⟨-, rfl⟩ := Piece.kept.inj (mem_singleton.mp hp)
            exact le_rfl
        simp only [headersOf, mem_filter, decide_eq_true_eq] at ht ⊢
        exact ⟨ht.1, ht.2.1, zero_le _, ht.2.2.2.trans hle⟩
    cases hlast : (headersOf statements (.kept 0 s.start)).getLast? with
    | none =>
      rw [getLast?_eq_none_iff] at hlast ⊢
      rw [hlast] at hmem
      exact eq_nil_iff_forall_not_mem.mpr fun t ht => absurd (hmem t ht) not_mem_nil
    | some header =>
      have hheader := mem_of_getLast? hlast
      simp only [headersOf, mem_filter, decide_eq_true_eq] at hheader
      obtain ⟨hheaderMem, hconfig, -, hheaderStop⟩ := hheader
      -- the header is untouched, since its section is the statement's
      have hsection : s.section_ = header.section_ := by
        have hsection := section_of_header hchained hs hcommand
        have hsame : (statements.filter fun t => t.command = .config ∧ t.stop ≤ s.start) =
            headersOf statements (.kept 0 s.start) := by
          simp [headersOf]
        rw [hsame, hlast] at hsection
        exact hsection
      have hheaderUntouched : ¬ Touched edits header := by
        rintro ⟨a, ha, -, hstruck | ⟨hoption, -⟩⟩
        · exact hstrikes a (hsection.trans ha) hstruck
        · rw [hconfig] at hoption
          rcases hoption with hoption | hoption <;> cases hoption
      have hheaderPlaced := hchained.placed header hheaderMem
      have hheaderStart := hheaderPlaced.start
      have hheaderToken := hheaderPlaced.tokenEnd
      obtain ⟨front', lo, hi, back', hweave', hlo', hhi', -⟩ := weave_keeps hfollows (zero_le _)
        hheaderPlaced.stop
        fun c hc => (clear_statement hchained hheaderMem hheaderUntouched).cut he hheaderPlaced.stop
          (hplanned c hc)
      have hpiece : Piece.kept lo hi ∈ front ++ .kept start stop :: back := by
        rw [← hweave, hweave']
        exact mem_append_right _ mem_cons_self
      have hfound : header ∈ (front ++ [Piece.kept start s.start]).flatMap (headersOf statements) := by
        rw [mem_flatMap]
        rcases mem_append.mp hpiece with hpiece | hpiece
        · refine ⟨_, mem_append_left _ hpiece, ?_⟩
          simp only [headersOf, mem_filter, decide_eq_true_eq]
          exact ⟨hheaderMem, hconfig, hlo', hhi'⟩
        · rcases mem_cons.mp hpiece with heq | hpiece
          · obtain ⟨rfl, rfl⟩ := Piece.kept.inj heq
            refine ⟨_, mem_append_right _ (mem_singleton.mpr rfl), ?_⟩
            simp only [headersOf, mem_filter, decide_eq_true_eq]
            exact ⟨hheaderMem, hconfig, hlo', hheaderStop⟩
          · have hafter := (pairwise_cons.mp hback).1 _ hpiece start stop lo hi rfl rfl
            omega
      -- both lists of headers are in the order of the file
      have hsorted : (headersOf statements (.kept 0 s.start)).Pairwise
          fun t t' : Statement => t.stop ≤ t'.start :=
        hchained.ordered.sublist filter_sublist
      have hsorted' : ((front ++ [Piece.kept start s.start]).flatMap (headersOf statements)).Pairwise
          fun t t' : Statement => t.stop ≤ t'.start := by
        refine pairwise_flatMap.mpr ⟨fun p _ => ?_, ?_⟩
        · cases p with
          | kept _ _ => exact hchained.ordered.sublist filter_sublist
          | fresh _ => exact List.Pairwise.nil
        · refine pairwise_append.mpr ⟨hfront.imp headersOf_ordered, pairwise_singleton _ _,
            fun p hp q hq => ?_⟩
          rw [mem_singleton.mp hq]
          refine headersOf_ordered fun lo₁ hi₁ lo₂ hi₂ hkept hkept' => ?_
          obtain ⟨rfl, -⟩ := Piece.kept.inj hkept'
          exact hcross p hp _ mem_cons_self lo₁ hi₁ start stop hkept rfl
      cases hlast' : ((front ++ [Piece.kept start s.start]).flatMap
        (headersOf statements)).getLast? with
      | none =>
        rw [getLast?_eq_none_iff.mp hlast'] at hfound
        exact absurd hfound not_mem_nil
      | some last =>
        have hlastMem := hmem last (mem_of_getLast? hlast')
        have hlastStart := (hchained.placed last (mem_filter.mp hlastMem).1).start
        have hlastToken := (hchained.placed last (mem_filter.mp hlastMem).1).tokenEnd
        rcases before_getLast hsorted hlast last hlastMem with heq | hle
        · rw [heq]
        · rcases before_getLast hsorted' hlast' header hfound with heq | hle'
          · rw [heq]
          · omega

/-- **What `render` leaves alone.** -/
theorem framed (he : Edited original edits statements sections patches) {cuts : List (Cut Fresh)}
    (hfollows : Follows original.length 0 cuts)
    (hplanned : ∀ c ∈ cuts, Planned edits statements patches original.length c) :
    Framed original edits statements (weave original.length 0 cuts) := by
  have hchained := (statements_chained he.parsed).2.1
  obtain ⟨hwithin, hordered⟩ := weave_ordered hfollows
  have hkept : ∀ u v, v ≤ original.length → Clear edits statements u v →
      KeptWhole (weave original.length 0 cuts) u v := by
    intro u v hv hclear
    obtain ⟨front, start, stop, back, hweave, hlo, hhi, -⟩ := weave_keeps hfollows (zero_le u) hv
      fun c hc => hclear.cut he hv (hplanned c hc)
    refine ⟨start, stop, ?_, hlo, hhi⟩
    rw [hweave]
    exact mem_append_right _ mem_cons_self
  have hstatement : ∀ s ∈ statements, ¬ Touched edits s →
      KeptWhole (weave original.length 0 cuts) s.start s.stop := fun s hs huntouched =>
    hkept _ _ (hchained.placed s hs).stop (clear_statement hchained hs huntouched)
  refine ⟨hordered, fun start stop hmem => (hwithin start stop hmem).2, fun i hi hclear => ?_,
    hstatement,
    fun g hg => ?_, fun s hs hcommand huntouched hstrikes => ?_, fun c hc => ?_⟩
  · -- a byte stands in a statement or between them
    by_cases hin : ∃ s ∈ statements, s.start ≤ i ∧ i < s.stop
    · obtain ⟨s, hs, hstart, hstop⟩ := hin
      obtain ⟨start, stop, hmem, hlo, hhi⟩ :=
        hstatement s hs fun htouched => hclear s hs htouched ⟨hstart, hstop⟩
      exact ⟨start, stop, hmem, hlo.trans hstart, succ_le_of_lt (lt_of_lt_of_le hstop hhi)⟩
    · refine hkept i (i + 1) hi fun s hs => ?_
      by_cases hbefore : i < s.start
      · exact inl hbefore
      · refine inr (inl (not_lt.mp fun hlt => hin ⟨s, hs, not_lt.mp hbefore, hlt⟩))
  · obtain ⟨-, -, hend, hclear⟩ := gaps_clear hchained hg
    exact hkept _ _ hend fun s hs => (hclear s hs).imp_right inl
  · exact staysInSection he hfollows hplanned hs hcommand huntouched hstrikes
  · rcases hplanned c (fresh_mem_weave.mp hc) with ⟨a, p, hp, s, -, -, -, hcut⟩ | ⟨_, _, _, rfl, -,
      hlines⟩
    · cases hcut with
      | struck _ => exact trivial
      | dropped _ _ _ => exact trivial
      | rewritten _ _ option => exact ⟨a, ((sourced_of_collect he.collected hp).values _ _ option).1⟩
    · exact fun line hline => (hlines line hline).1

theorem payload_of_check {fields : List Bytes} (htotal : total ≤ maxBytes)
    (h : checkPayload total fields = .ok ()) : total + (fields.map List.length).sum ≤ maxBytes := by
  induction fields generalizing total with
  | nil => exact htotal
  | cons field rest ih =>
    rw [checkPayload] at h
    split at h
    · cases h
    · rename_i hfits
      have hrest := ih (not_lt.mp hfits) h
      rw [map_cons, sum_cons]
      omega

theorem perm_of_ofSection {edits edits' : List Edit}
    (hsame : ∀ a, ofSection a edits' = ofSection a edits) : edits'.Perm edits := by
  have hcount : ∀ (e : Edit) (l : List Edit), (ofSection e.section_ l).count e = l.count e := by
    intro e l
    exact count_filter (by simp)
  refine perm_iff_count.mpr fun e => ?_
  rw [← hcount e edits', hsame, hcount]

/-- **The order of the edits matters within each section only.** -/
theorem render_reordered {edits' : List Edit} (hsame : ∀ a, ofSection a edits' = ofSection a edits)
    (h : render original edits = .ok output) : render original edits' = .ok output := by
  obtain ⟨hcount, hpayload, result, sections, patches, he⟩ := edited_of_render h
  have hperm := perm_of_ofSection hsame
  have hpayload' : checkPayload 0 (edits'.flatMap Edit.fields) = .ok () := by
    refine checkPayload_ok ?_
    rw [((hperm.flatMap_right Edit.fields).map List.length).sum_nat]
    exact payload_of_check (zero_le _) hpayload
  have hcount' : edits'.length ≤ maxEdits := by rw [hperm.length_eq]; exact hcount
  have hcollected := collect_reordered hsame he.collected
  rw [← h]
  simp only [render, if_neg (not_lt.mpr hcount), if_neg (not_lt.mpr hcount'), hpayload, hpayload',
    he.parsed, he.collected, hcollected, bind, Except.bind]

/-- **No edits.** -/
theorem render_nil (hparsed : UciEdits.statements original = .ok (statements, sections)) :
    render original [] = .ok original := by
  have hsize := (statements_chained hparsed).1
  have hnone : splice original 0 [] [] = .ok original := by
    rw [splice, drop_zero, nil_append]
    simp [if_neg (not_lt.mpr hsize)]
  have hpatches : (∅ : Patches).toList = [] := rfl
  have hinsertions : (∅ : Insertions).toList = [] := rfl
  have hcollected : collect sections [] = .ok ∅ := rfl
  simp only [render, length_nil, not_lt_zero, if_false, flatMap_nil, checkPayload, hparsed,
    hcollected, hpatches, foldlM_nil, pure, Except.pure, bind, Except.bind, hinsertions, map_nil,
    append_nil, mergeSort_nil, hnone]

/-- **Nothing is touched that the edits did not ask for.**  The output is woven of stretches of the
file in their order, which hold every untouched statement under its header, and of what the edits
write; no edits leave the file as it was; and the order of the edits matters within each section
only. -/
theorem render_frame (h : render original edits = .ok output) :
    ∃ statements sections pieces, UciEdits.statements original = .ok (statements, sections) ∧
      output = pieces.flatMap (Piece.content Fresh.text original) ∧
      Framed original edits statements pieces ∧ render original [] = .ok original ∧
      ∀ edits', (∀ a, ofSection a edits' = ofSection a edits) →
        render original edits' = .ok output := by
  obtain ⟨hcount, hpayload, result, sections, patches, he⟩ := edited_of_render h
  obtain ⟨cuts, hfollows, hplanned, hrender⟩ := render_cuts he hcount hpayload
  have hwoven := splice_ok (hrender.symm.trans h)
  rw [nil_append, flatMap_weave_map] at hwoven
  exact ⟨result, sections, weave original.length 0 cuts, he.parsed, hwoven,
    framed he hfollows hplanned, render_nil he.parsed, fun edits' hsame => render_reordered hsame h⟩

/-- A file with a `package` line after a named section, before another one. -/
def packageFile : Bytes := ascii "config t 'a'\npackage p\nconfig t 'b'\n\toption k 'v'\n"

/-- The first section is written to, then deleted. -/
def packageEdits : List Edit :=
  [.set (ascii "a") (ascii "k") (ascii "v"), .deleteSection (ascii "a")]

def packageOutput : Bytes := ascii "package p\nconfig t 'b'\n\toption k 'v'\n"

theorem packageFile_rendered : render packageFile packageEdits = .ok packageOutput :=
  ok_of_toOption (by decide +kernel)

theorem render_frame_package :
    ∃ statements sections pieces, UciEdits.statements packageFile = .ok (statements, sections) ∧
      packageOutput = pieces.flatMap (Piece.content Fresh.text packageFile) ∧
      Framed packageFile packageEdits statements pieces ∧ render packageFile [] = .ok packageFile ∧
      ∀ edits', (∀ a, ofSection a edits' = ofSection a packageEdits) →
        render packageFile edits' = .ok packageOutput :=
  render_frame packageFile_rendered

/-- **A `package` line is left to another section** where the named section around it is deleted. -/
theorem package_leaves_section :
    ¬ ∀ (original output : Bytes) (edits : List Edit) (before after : List Statement)
      (sections sections' : Sections), render original edits = .ok output →
      UciEdits.statements original = .ok (before, sections) →
      UciEdits.statements output = .ok (after, sections') →
      ∀ s ∈ before, s.command = .package →
        ∃ t ∈ after, t.command = .package ∧ t.arguments = s.arguments ∧ t.section_ = s.section_ := by
  intro hclaim
  have hbefore :
    (statements packageFile).toOption.map (fun r => r.1.map fun s => (s.command, s.section_)) =
      some [(.config, some (ascii "a")), (.package, some (ascii "a")), (.config, some (ascii "b")),
        (.option, some (ascii "b"))] := by decide +kernel
  have hafter : (statements packageOutput).toOption.map (fun r => r.1.map Statement.section_) =
      some [none, some (ascii "b"), some (ascii "b")] := by decide +kernel
  obtain ⟨parsed, hparsed, hlist⟩ := exists_of_map hbefore
  obtain ⟨parsed', hparsed', hlist'⟩ := exists_of_map hafter
  have hsome : (Command.package, some (ascii "a")) ∈
      parsed.1.map fun s => (s.command, s.section_) := by
    rw [hlist]
    exact mem_cons_of_mem _ mem_cons_self
  obtain ⟨s, hs, heq⟩ := mem_map.mp hsome
  obtain ⟨hcommand, hsection⟩ := Prod.mk.inj heq
  obtain ⟨t, ht, -, -, htsection⟩ := hclaim packageFile packageOutput _ parsed.1 parsed'.1
    parsed.2 parsed'.2 packageFile_rendered hparsed hparsed' s hs hcommand
  have hnone : t.section_ ∈ parsed'.1.map Statement.section_ := mem_map_of_mem ht
  rw [hlist', htsection, hsection] at hnone
  revert hnone
  decide

end UciEdits
end CakeAutorate
