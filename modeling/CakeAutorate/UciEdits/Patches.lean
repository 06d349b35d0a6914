/-
# The patches of an edit list

What one edit does to the patch of its section, and that the patch of a section comes of the edits of
that section alone, in their order.
-/

import CakeAutorate.UciEdits.Render

namespace CakeAutorate.UciEdits

open Syscall List Std.ExtTreeMap SectionPatch

/-- What an edit makes of a patch. -/
inductive Patched (sections : Sections) (p : SectionPatch) : Edit → SectionPatch → Prop
  | added {a kind : Bytes} (valid : validName kind = true)
      (absent : ((sections.contains a && !p.delete) || p.add.isSome) = false) :
      Patched sections p (.addSection a kind) ⟨some kind, false, ∅⟩
  | deleted {a : Bytes} (known : (sections.contains a || p.add.isSome || p.delete) = true) :
      Patched sections p (.deleteSection a) ⟨none, true, ∅⟩
  | written {a option value : Bytes} (valid : validName option = true) (quotes : quotable value = true)
      (present : p.missing sections a = false) :
      Patched sections p (.set a option value)
        { p with options := p.options.insert option (some value) }
  | dropped {a option : Bytes} (valid : validName option = true)
      (present : p.missing sections a = false) :
      Patched sections p (.delete a option) { p with options := p.options.insert option none }

variable {sections : Sections} {p : SectionPatch} {e : Edit} {patches : Patches} {a : Bytes}
  {edits : List Edit} {p' : SectionPatch}

/-- **One edit.** -/
theorem patchEdit_ok : patchEdit sections p e = .ok p' ↔ Patched sections p e p' := by
  constructor
  · intro h
    cases e with
    | addSection a kind =>
      obtain ⟨_, hname, hrest⟩ := bind_ok.mp h
      obtain ⟨hvalid, rfl⟩ := name_ok.mp hname
      split at hrest
      · cases hrest
      · rename_i habsent
        cases hrest
        exact .added hvalid (Bool.eq_false_iff.mpr habsent)
    | deleteSection a =>
      rw [patchEdit] at h
      split at h
      · cases h
      · rename_i hknown
        cases h
        refine .deleted ?_
        cases hc : sections.contains a <;> cases hadd : p.add <;> cases hdelete : p.delete <;>
          simp_all
    | set a option value =>
      obtain ⟨_, hname, hrest⟩ := bind_ok.mp h
      obtain ⟨hvalid, rfl⟩ := name_ok.mp hname
      split at hrest
      · cases hrest
      · rename_i hpresent
        unfold quote at hrest
        split at hrest
        · rename_i hquotes
          cases hrest
          exact .written hvalid hquotes (Bool.eq_false_iff.mpr hpresent)
        · cases hrest
    | delete a option =>
      obtain ⟨_, hname, hrest⟩ := bind_ok.mp h
      obtain ⟨hvalid, rfl⟩ := name_ok.mp hname
      split at hrest
      · cases hrest
      · rename_i hpresent
        cases hrest
        exact .dropped hvalid (Bool.eq_false_iff.mpr hpresent)
  · intro h
    cases h with
    | added hvalid habsent =>
      rw [patchEdit, name_ok.mpr ⟨hvalid, rfl⟩]
      simp [bind, Except.bind, habsent]
    | @deleted a hknown =>
      rw [patchEdit, if_neg]
      cases hc : sections.contains a <;> cases hadd : p.add <;> cases hdelete : p.delete <;>
        simp_all
    | written hvalid hquotes hpresent =>
      rw [patchEdit, name_ok.mpr ⟨hvalid, rfl⟩]
      simp only [bind, Except.bind, hpresent, Bool.false_eq_true, if_false, quote, hquotes, if_true]
      rfl
    | dropped hvalid hpresent =>
      rw [patchEdit, name_ok.mpr ⟨hvalid, rfl⟩]
      simp [bind, Except.bind, hpresent]

variable {patches' : Patches}

theorem applyEdit_ok :
    applyEdit sections patches e = .ok patches' ↔
      validName e.section_ = true ∧ ∃ p, Patched sections (patches[e.section_]?.getD .empty) e p ∧
        patches' = patches.insert e.section_ p := by
  simp only [applyEdit, bind_ok, name_ok, patchEdit_ok]
  constructor
  · rintro ⟨_, ⟨hvalid, rfl⟩, p, hp, h⟩
    exact ⟨hvalid, p, hp, (Except.ok.inj h).symm⟩
  · rintro ⟨hvalid, p, hp, rfl⟩
    exact ⟨_, ⟨hvalid, rfl⟩, p, hp, rfl⟩

def ofSection (a : Bytes) (edits : List Edit) : List Edit := edits.filter fun e => e.section_ = a

def ownPatch (sections : Sections) (p : SectionPatch) (edits : List Edit) :
    Except String SectionPatch :=
  edits.foldlM (patchEdit sections) p

@[simp] theorem ofSection_cons_self (e : Edit) (rest : List Edit) :
    ofSection e.section_ (e :: rest) = e :: ofSection e.section_ rest := by
  unfold ofSection
  rw [filter_cons_of_pos (by simp)]

theorem ofSection_cons_of_ne (h : e.section_ ≠ a) (rest : List Edit) :
    ofSection a (e :: rest) = ofSection a rest := by
  unfold ofSection
  rw [filter_cons_of_neg (by simpa using h)]

variable {rest : List Edit}

theorem ownPatch_cons :
    ownPatch sections p (e :: rest) = .ok p' ↔
      ∃ q, Patched sections p e q ∧ ownPatch sections q rest = .ok p' := by
  simp only [ownPatch, foldlM_cons, bind_ok, patchEdit_ok]

theorem foldlM_applyEdit_cons :
    (e :: rest).foldlM (applyEdit sections) patches = .ok patches' ↔
      validName e.section_ = true ∧ ∃ p, Patched sections (patches[e.section_]?.getD .empty) e p ∧
        rest.foldlM (applyEdit sections) (patches.insert e.section_ p) = .ok patches' := by
  simp only [foldlM_cons, bind_ok, applyEdit_ok]
  constructor
  · rintro ⟨_, ⟨hvalid, p, hp, rfl⟩, h⟩
    exact ⟨hvalid, p, hp, h⟩
  · rintro ⟨hvalid, p, hp, h⟩
    exact ⟨_, ⟨hvalid, p, hp, rfl⟩, h⟩

/-- The patches by the edits of each section. -/
structure Collected (sections : Sections) (patches : Patches) (edits : List Edit) (patches' : Patches) :
    Prop where
  valid : ∀ e ∈ edits, validName e.section_ = true
  own : ∀ a, ownPatch sections (patches[a]?.getD .empty) (ofSection a edits) =
    .ok (patches'[a]?.getD .empty)
  entries : ∀ a, patches'[a]?.isSome = true ↔ patches[a]?.isSome = true ∨ ofSection a edits ≠ []

theorem insert_getD {b : Bytes} :
    (patches.insert a p)[b]? = if a = b then some p else patches[b]? := by
  simp only [Std.ExtTreeMap.getElem?_insert, Std.LawfulEqCmp.compare_eq_iff_eq]

/-- **The patch of a section comes of its own edits.** -/
theorem foldlM_applyEdit :
    edits.foldlM (applyEdit sections) patches = .ok patches' ↔
      Collected sections patches edits patches' := by
  induction edits generalizing patches with
  | nil =>
    constructor
    · intro h
      cases h
      exact ⟨fun e he => absurd he not_mem_nil, fun a => rfl, fun a => by simp [ofSection]⟩
    · intro h
      have hsame : patches = patches' := by
        refine ext_getElem? fun a => ?_
        have hown : patches[a]?.getD .empty = patches'[a]?.getD .empty := Except.ok.inj (h.own a)
        have hentry := h.entries a
        cases hp : patches[a]? <;> cases hp' : patches'[a]? <;>
          simp_all [ofSection]
      rw [hsame]
      rfl
  | cons e rest ih =>
    rw [foldlM_applyEdit_cons]
    constructor
    · rintro ⟨hvalid, p, hp, hrest⟩
      have hcollected := ih.mp hrest
      refine ⟨fun e' he' => ?_, fun a => ?_, fun a => ?_⟩
      · rcases mem_cons.mp he' with rfl | he'
        · exact hvalid
        · exact hcollected.valid e' he'
      · have hown := hcollected.own a
        rw [insert_getD] at hown
        by_cases ha : e.section_ = a
        · subst ha
          rw [if_pos rfl] at hown
          rw [ofSection_cons_self, ownPatch_cons]
          exact ⟨p, hp, hown⟩
        · rw [if_neg ha] at hown
          rw [ofSection_cons_of_ne ha]
          exact hown
      · rw [hcollected.entries a, insert_getD]
        by_cases ha : e.section_ = a
        · subst ha
          simp
        · rw [if_neg ha, ofSection_cons_of_ne ha]
    · intro h
      have hown := h.own e.section_
      rw [ofSection_cons_self, ownPatch_cons] at hown
      obtain ⟨p, hp, hown⟩ := hown
      refine ⟨h.valid e mem_cons_self, p, hp, ih.mpr ⟨fun e' he' => ?_, fun a => ?_, fun a => ?_⟩⟩
      · exact h.valid e' (mem_cons_of_mem _ he')
      · rw [insert_getD]
        by_cases ha : e.section_ = a
        · subst ha
          rw [if_pos rfl]
          exact hown
        · rw [if_neg ha, ← ofSection_cons_of_ne ha rest]
          exact h.own a
      · rw [h.entries a, insert_getD]
        by_cases ha : e.section_ = a
        · subst ha
          simp
        · rw [if_neg ha, ofSection_cons_of_ne ha]

theorem collect_ok :
    collect sections edits = .ok patches ↔ Collected sections ∅ edits patches := foldlM_applyEdit

/-- **The order of the edits matters within each section only.** -/
theorem collect_reordered {edits' : List Edit} (hsame : ∀ a, ofSection a edits' = ofSection a edits)
    (h : collect sections edits = .ok patches) : collect sections edits' = .ok patches := by
  rw [collect_ok] at h ⊢
  refine ⟨fun e he => ?_, fun a => ?_, fun a => ?_⟩
  · have hmem : e ∈ ofSection e.section_ edits' := mem_filter.mpr ⟨he, by simp⟩
    rw [hsame] at hmem
    exact h.valid e (mem_filter.mp hmem).1
  · rw [hsame]
    exact h.own a
  · rw [hsame]
    exact h.entries a

/-- What a patch of a section holds is what its edits say. -/
structure Sourced (sections : Sections) (a : Bytes) (edits : List Edit) (p : SectionPatch) : Prop where
  delete : p.delete = true → .deleteSection a ∈ edits
  add : ∀ kind, p.add = some kind → .addSection a kind ∈ edits
  values : ∀ key value : Bytes, p.options[key]? = some (some value) →
    .set a key value ∈ edits ∧ quotable value = true
  drops : ∀ key : Bytes, p.options[key]? = some none → .delete a key ∈ edits
  named : ∀ (key : Bytes) (value : Option Bytes), p.options[key]? = some value →
    a ∈ sections ∨ p.struck = true

theorem Sourced.empty (sections : Sections) (a : Bytes) (edits : List Edit) :
    Sourced sections a edits .empty := by
  refine ⟨fun h => ?_, fun kind h => ?_, fun key value h => ?_, fun key h => ?_, fun key value h => ?_⟩
  · cases h
  · cases h
  · simp [SectionPatch.empty] at h
  · simp [SectionPatch.empty] at h
  · simp [SectionPatch.empty] at h

theorem options_insert {options : Std.ExtTreeMap Bytes (Option Bytes)} {option key : Bytes}
    {value : Option Bytes} :
    (options.insert option value)[key]? = if option = key then some value else options[key]? := by
  simp only [Std.ExtTreeMap.getElem?_insert, Std.LawfulEqCmp.compare_eq_iff_eq]

theorem of_not_missing (h : p.missing sections a = false) : a ∈ sections ∨ p.struck = true := by
  simp only [missing, Bool.or_eq_false_iff, Bool.and_eq_false_iff, Bool.not_eq_false'] at h
  rcases h.2 with hmem | hadd
  · exact Or.inl (contains_iff_mem.mp hmem)
  · right
    rw [struck, Bool.or_eq_true]
    cases hp : p.add with
    | none => rw [hp] at hadd; cases hadd
    | some kind => exact Or.inr rfl

theorem Sourced.patched (h : Sourced sections a edits p) (ha : e.section_ = a) (he : e ∈ edits)
    (hp : Patched sections p e p') : Sourced sections a edits p' := by
  subst ha
  cases hp with
  | added valid absent =>
    refine ⟨fun h => (by cases h), fun kind' hkind => ?_, fun key value hkey => ?_, fun key hkey => ?_,
      fun key value hkey => ?_⟩
    · cases hkind
      exact he
    · simp at hkey
    · simp at hkey
    · simp at hkey
  | deleted known =>
    refine ⟨fun _ => he, fun kind' hkind => (by cases hkind), fun key value hkey => ?_,
      fun key hkey => ?_,
      fun key value hkey => ?_⟩
    · simp at hkey
    · simp at hkey
    · simp at hkey
  | @written a option value valid quotes present =>
    refine ⟨h.delete, h.add, fun key value' hkey => ?_, fun key hkey => ?_, fun key value' hkey => ?_⟩
    · rw [options_insert] at hkey
      split at hkey
      · rename_i heq
        cases hkey
        rw [← heq]
        exact ⟨he, quotes⟩
      · exact h.values key value' hkey
    · rw [options_insert] at hkey
      split at hkey
      · cases hkey
      · exact h.drops key hkey
    · exact of_not_missing present
  | @dropped a option valid present =>
    refine ⟨h.delete, h.add, fun key value' hkey => ?_, fun key hkey => ?_, fun key value' hkey => ?_⟩
    · rw [options_insert] at hkey
      split at hkey
      · cases hkey
      · exact h.values key value' hkey
    · rw [options_insert] at hkey
      split at hkey
      · rename_i heq
        rw [← heq]
        exact he
      · exact h.drops key hkey
    · exact of_not_missing present

theorem Sourced.own (h : Sourced sections a edits p)
    (hrest : ∀ e ∈ rest, e.section_ = a ∧ e ∈ edits) (hown : ownPatch sections p rest = .ok p') :
    Sourced sections a edits p' := by
  induction rest generalizing p with
  | nil =>
    cases hown
    exact h
  | cons e rest ih =>
    obtain ⟨q, hq, hown⟩ := ownPatch_cons.mp hown
    obtain ⟨ha, he⟩ := hrest e mem_cons_self
    exact ih (h.patched ha he hq) (fun e' he' => hrest e' (mem_cons_of_mem _ he')) hown

theorem sourced_of_collect (h : collect sections edits = .ok patches) (hp : patches[a]? = some p) :
    Sourced sections a edits p := by
  have hown := (collect_ok.mp h).own a
  rw [hp] at hown
  refine (Sourced.empty sections a edits).own (fun e he => ?_) hown
  obtain ⟨hmem, ha⟩ := mem_filter.mp he
  exact ⟨of_decide_eq_true ha, hmem⟩

end CakeAutorate.UciEdits
