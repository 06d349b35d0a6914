/-
# The view that edits are expected to leave

`expected_view` of `uci_edits.rs` replays the edits on the view that `uci show` gives of the file,
and `prepare_with` refuses a rendered file whose view differs. The two refuse the same lists but for
the deletion of a section that an earlier edit has deleted, which only the view refuses.
-/

import CakeAutorate.UciEdits.Cuts

namespace CakeAutorate.UciEdits

open Syscall Machine List Or Std.ExtTreeMap Edit

inductive SectionKey
  | named (name : Bytes)
  | anonymous (index : ℕ)
  deriving DecidableEq

/-- `ShowView`: the value of a section header, or of an option of a section. -/
abbrev ShowView := SectionKey × Option Bytes → Option Bytes

def header (a : Bytes) : SectionKey × Option Bytes := (.named a, none)

/-- `BTreeMap::insert` and `BTreeMap::remove`. -/
def ShowView.put (view : ShowView) (key : SectionKey × Option Bytes) (value : Option Bytes) :
    ShowView :=
  fun key' => if key' = key then value else view key'

/-- One edit of `expected_view`. -/
def expectEdit (view : ShowView) (e : Edit) : Except String ShowView := do
  let a ← name e.section_
  match e with
  | .addSection _ kind => do
      let kind ← name kind
      if (view (header a)).isSome then .error "uci-edit-show-add-existing"
      else .ok (view.put (header a) (some kind))
  | .deleteSection _ =>
    if (view (header a)).isNone then .error "uci-edit-show-target-missing"
    else .ok fun key => if key.1 = .named a then none else view key
  | .set _ option value =>
    if (view (header a)).isNone then .error "uci-edit-show-target-missing"
    else do
      let option ← name option
      -- uci_set with an empty scalar deletes the option
      if value.isEmpty then .ok (view.put (.named a, some option) none)
      else (quote value).map fun value => view.put (.named a, some option) (some value)
  | .delete _ option =>
    if (view (header a)).isNone then .error "uci-edit-show-target-missing"
    else (name option).map fun option => view.put (.named a, some option) none

def expectedView (view : ShowView) (edits : List Edit) : Except String ShowView :=
  edits.foldlM expectEdit view

def presentAfter (a : Bytes) (there : Bool) : Edit → Bool
  | .addSection b _ => if b = a then true else there
  | .deleteSection b => if b = a then false else there
  | _ => there

def present (sections : Sections) (edits : List Edit) (a : Bytes) : Bool :=
  edits.foldl (presentAfter a) (sections.contains a)

def Edit.adds (a : Bytes) : Edit → Bool
  | .addSection b _ => b = a
  | _ => false

def known (sections : Sections) (edits : List Edit) (a : Bytes) : Bool :=
  sections.contains a || edits.any (adds a)

/-- An edit that cannot be carried out after some others: a name or a value that is not one, a section
that is added while it is there, edited while it is not, or deleted without ever having been there. -/
def Edit.faulty (sections : Sections) (before : List Edit) (e : Edit) : Bool :=
  !validName e.section_ || match e with
    | .addSection a kind => !validName kind || present sections before a
    | .deleteSection a => !known sections before a
    | .set a option value => !validName option || !quotable value || !present sections before a
    | .delete a option => !validName option || !present sections before a

def Edit.redeletes (sections : Sections) (before : List Edit) : Edit → Bool
  | .deleteSection a => known sections before a && !present sections before a
  | _ => false

def Meets (bad : List Edit → Edit → Bool) (before edits : List Edit) : Prop :=
  ∃ front e back, edits = front ++ e :: back ∧ bad (before ++ front) e = true

def Faulty (sections : Sections) (edits : List Edit) : Prop :=
  Meets (fun before e => e.faulty sections before) [] edits

def Redeletes (sections : Sections) (edits : List Edit) : Prop :=
  Meets (fun before e => e.redeletes sections before) [] edits

/-- A patch and what the edits before have left of its section. -/
structure Tied (sections : Sections) (before : List Edit) (a : Bytes) (p : SectionPatch) : Prop where
  present : present sections before a = (p.add.isSome || (sections.contains a && !p.delete))
  known : known sections before a = (sections.contains a || p.add.isSome || p.delete)
  once : (p.delete && p.add.isSome) = false

section

variable (sections : Sections) (before : List Edit) (e : Edit) (a : Bytes)

theorem present_concat :
    present sections (before ++ [e]) a = presentAfter a (present sections before a) e := by
  unfold present
  rw [foldl_append, foldl_cons, foldl_nil]

theorem known_concat :
    known sections (before ++ [e]) a = (known sections before a || e.adds a) := by
  unfold known
  rw [any_append, any_cons, any_nil, Bool.or_false, Bool.or_assoc]

end

variable {sections : Sections} {p : SectionPatch} {e : Edit} {edits before : List Edit}

theorem known_of_present {a : Bytes} (h : present sections before a = true) :
    known sections before a = true := by
  induction before using List.reverseRecOn with
  | nil => exact (Bool.or_eq_true _ _).mpr (inl h)
  | append_singleton before e ih =>
    rw [known_concat, Bool.or_eq_true]
    rw [present_concat] at h
    cases e with
    | addSection b kind =>
      by_cases hb : b = a
      · exact inr (decide_eq_true hb)
      · rw [presentAfter, if_neg hb] at h
        exact inl (ih h)
    | deleteSection b =>
      by_cases hb : b = a
      · rw [presentAfter, if_pos hb] at h
        cases h
      · rw [presentAfter, if_neg hb] at h
        exact inl (ih h)
    | set b option value => exact inl (ih h)
    | delete b option => exact inl (ih h)

theorem Tied.empty (sections : Sections) (a : Bytes) : Tied sections [] a .empty := by
  refine ⟨?_, ?_, rfl⟩
  · simp [UciEdits.present, SectionPatch.empty]
  · simp [UciEdits.known, SectionPatch.empty]

theorem Tied.other {a : Bytes} (h : Tied sections before a p) (hne : e.section_ ≠ a) :
    Tied sections (before ++ [e]) a p := by
  refine ⟨?_, ?_, h.once⟩
  · rw [present_concat, ← h.present]
    cases e with
    | addSection b kind => exact if_neg hne
    | deleteSection b => exact if_neg hne
    | set b option value => rfl
    | delete b option => rfl
  · rw [known_concat, ← h.known]
    cases e with
    | addSection b kind =>
      have hadds : adds a (.addSection b kind) = false := decide_eq_false hne
      rw [hadds, Bool.or_false]
    | deleteSection b => exact Bool.or_false _
    | set b option value => exact Bool.or_false _
    | delete b option => exact Bool.or_false _

/-- **What one edit leaves.** -/
theorem Tied.patched {p' : SectionPatch} (h : Tied sections before e.section_ p)
    (hp : Patched sections p e p') :
    Tied sections (before ++ [e]) e.section_ p' := by
  cases hp with
  | @added a kind valid absent =>
    refine ⟨?_, ?_, rfl⟩
    · rw [present_concat, section_, presentAfter, if_pos rfl]
      rfl
    · have hadds : adds a (.addSection a kind) = true := decide_eq_true rfl
      rw [known_concat, section_, hadds]
      simp
  | @deleted a hknown =>
    have hbefore := h.known
    refine ⟨?_, ?_, rfl⟩
    · rw [present_concat, section_, presentAfter, if_pos rfl]
      simp
    · rw [known_concat, hbefore, section_, hknown]
      simp
  | @written a option value valid quotes hpresent =>
    exact ⟨by rw [present_concat]; exact h.present,
      by rw [known_concat]; exact (Bool.or_false _).trans h.known,
      h.once⟩
  | @dropped a option valid hpresent =>
    exact ⟨by rw [present_concat]; exact h.present,
      by rw [known_concat]; exact (Bool.or_false _).trans h.known,
      h.once⟩

theorem Tied.missing {a : Bytes} (h : Tied sections before a p) :
    p.missing sections a = !UciEdits.present sections before a := by
  have honce := h.once
  rw [h.present, SectionPatch.missing]
  cases hdelete : p.delete <;> cases hadd : p.add <;> cases hc : sections.contains a <;> simp_all

/-- **The renderer takes an edit unless it is faulty.** -/
theorem Tied.patched_iff (h : Tied sections before e.section_ p) :
    (validName e.section_ = true ∧ ∃ p', Patched sections p e p') ↔
      e.faulty sections before = false := by
  unfold faulty
  rw [Bool.or_eq_false_iff, Bool.not_eq_false']
  refine and_congr_right fun _ => ?_
  cases e with
  | addSection a kind =>
    simp only [Bool.or_eq_false_iff, Bool.not_eq_false']
    have hpresent :
      UciEdits.present sections before a = ((sections.contains a && !p.delete) || p.add.isSome) :=
      h.present.trans (Bool.or_comm _ _)
    constructor
    · rintro ⟨p', hp⟩
      cases hp with
      | added valid absent => exact ⟨valid, hpresent.trans absent⟩
    · rintro ⟨valid, habsent⟩
      exact ⟨_, .added valid (hpresent.symm.trans habsent)⟩
  | deleteSection a =>
    simp only [Bool.not_eq_false']
    have hknown : UciEdits.known sections before a =
        (sections.contains a || p.add.isSome || p.delete) := h.known
    constructor
    · rintro ⟨p', hp⟩
      cases hp with
      | deleted hdeleted => exact hknown.trans hdeleted
    · intro hdeleted
      exact ⟨_, .deleted (hknown.symm.trans hdeleted)⟩
  | set a option value =>
    simp only [Bool.or_eq_false_iff, Bool.not_eq_false']
    have hmissing : p.missing sections a = !UciEdits.present sections before a := Tied.missing h
    constructor
    · rintro ⟨p', hp⟩
      cases hp with
      | written valid quotes hpresent =>
        rw [hmissing, Bool.not_eq_false'] at hpresent
        exact ⟨⟨valid, quotes⟩, hpresent⟩
    · rintro ⟨⟨valid, quotes⟩, hpresent⟩
      exact ⟨_, .written valid quotes (by rw [hmissing, hpresent]; rfl)⟩
  | delete a option =>
    simp only [Bool.or_eq_false_iff, Bool.not_eq_false']
    have hmissing : p.missing sections a = !UciEdits.present sections before a := Tied.missing h
    constructor
    · rintro ⟨p', hp⟩
      cases hp with
      | dropped valid hpresent =>
        rw [hmissing, Bool.not_eq_false'] at hpresent
        exact ⟨valid, hpresent⟩
    · rintro ⟨valid, hpresent⟩
      exact ⟨_, .dropped valid (by rw [hmissing, hpresent]; rfl)⟩

def Headed (sections : Sections) (before : List Edit) (view : ShowView) : Prop :=
  ∀ a, (view (header a)).isSome = present sections before a

theorem put_option_header (view : ShowView) (a option : Bytes) (value : Option Bytes) (b : Bytes) :
    view.put (.named a, some option) value (header b) = view (header b) := by
  unfold ShowView.put header
  simp

/-- What an edit makes of a view. -/
inductive Expected (view : ShowView) : Edit → ShowView → Prop
  | added {a kind : Bytes} (valid : validName kind = true) (absent : (view (header a)).isSome = false) :
      Expected view (.addSection a kind) (view.put (header a) (some kind))
  | deleted {a : Bytes} (there : (view (header a)).isSome = true) :
      Expected view (.deleteSection a) (fun key => if key.1 = .named a then none else view key)
  | written {a option value : Bytes} (valid : validName option = true) (quotes : quotable value = true)
      (there : (view (header a)).isSome = true) :
      Expected view (.set a option value)
        (view.put (.named a, some option) (if value.isEmpty then none else some (quoted value)))
  | dropped {a option : Bytes} (valid : validName option = true)
      (there : (view (header a)).isSome = true) :
      Expected view (.delete a option) (view.put (.named a, some option) none)

theorem name_of_valid {value : Bytes} (h : validName value = true) : name value = .ok value :=
  name_ok.mpr ⟨h, rfl⟩

/-- **One edit of the view.** -/
theorem expectEdit_ok {view view' : ShowView} :
    expectEdit view e = .ok view' ↔ validName e.section_ = true ∧ Expected view e view' := by
  constructor
  · intro h
    obtain ⟨_, hname, h⟩ := bind_ok.mp h
    obtain ⟨hvalid, rfl⟩ := name_ok.mp hname
    refine ⟨hvalid, ?_⟩
    cases e with
    | addSection a kind =>
      obtain ⟨_, hkind, h⟩ := bind_ok.mp h
      obtain ⟨hkindValid, rfl⟩ := name_ok.mp hkind
      split at h
      · cases h
      · rename_i habsent
        cases h
        exact .added hkindValid (Bool.eq_false_iff.mpr habsent)
    | deleteSection a =>
      change (if (view (header a)).isNone then _ else _) = _ at h
      split at h
      · cases h
      · rename_i hthere
        cases h
        exact .deleted (Option.isNone_eq_false_iff.mp (eq_false_of_ne_true hthere))
    | set a option value =>
      change (if (view (header a)).isNone then _ else _) = _ at h
      split at h
      · cases h
      · rename_i hthere
        have hthere := Option.isNone_eq_false_iff.mp (eq_false_of_ne_true hthere)
        obtain ⟨_, hoption, h⟩ := bind_ok.mp h
        obtain ⟨hoptionValid, rfl⟩ := name_ok.mp hoption
        split at h
        · rename_i hempty
          cases h
          have hquotes : quotable value = true := by
            rw [List.isEmpty_iff.mp hempty]
            decide
          have hwritten := Expected.written hoptionValid hquotes hthere
          rwa [if_pos hempty] at hwritten
        · rename_i hempty
          unfold quote at h
          split at h
          · rename_i hquotes
            cases h
            have hwritten := Expected.written hoptionValid hquotes hthere
            rwa [if_neg hempty] at hwritten
          · cases h
    | delete a option =>
      change (if (view (header a)).isNone then _ else _) = _ at h
      split at h
      · cases h
      · rename_i hthere
        obtain ⟨_, hoption, h⟩ := map_ok.mp h
        obtain ⟨hoptionValid, rfl⟩ := name_ok.mp hoption
        cases h
        exact .dropped hoptionValid (Option.isNone_eq_false_iff.mp (eq_false_of_ne_true hthere))
  · rintro ⟨hvalid, h⟩
    unfold expectEdit
    rw [name_of_valid hvalid]
    cases h with
    | added valid absent =>
      simp only [bind, Except.bind, name_of_valid valid]
      exact if_neg (Bool.eq_false_iff.mp absent)
    | deleted there =>
      simp only [bind, Except.bind, ← Option.not_isSome, section_, there]
      rfl
    | @written a option value valid quotes there =>
      simp only [bind, Except.bind, ← Option.not_isSome, section_, there, name_of_valid valid, quote,
        if_pos quotes]
      by_cases hempty : value.isEmpty = true
      · simp only [hempty]
        rfl
      · simp only [hempty]
        rfl
    | dropped valid there =>
      simp only [bind, Except.bind, ← Option.not_isSome, section_, there, name_of_valid valid]
      rfl

variable {view : ShowView}

/-- **The view takes an edit unless it is faulty or deletes again.** -/
theorem Headed.expected_iff (h : Headed sections before view) :
    (∃ view', expectEdit view e = .ok view') ↔
      e.faulty sections before = false ∧ e.redeletes sections before = false := by
  simp only [expectEdit_ok, exists_and_left]
  unfold faulty
  rw [Bool.or_eq_false_iff, Bool.not_eq_false', and_assoc]
  refine and_congr_right fun _ => ?_
  cases e with
  | addSection a kind =>
    simp only [Bool.or_eq_false_iff, Bool.not_eq_false', redeletes, and_true]
    constructor
    · rintro ⟨view', hview⟩
      cases hview with
      | added valid absent => exact ⟨valid, (h a).symm.trans absent⟩
    · rintro ⟨valid, habsent⟩
      exact ⟨_, .added valid ((h a).trans habsent)⟩
  | deleteSection a =>
    simp only [Bool.not_eq_false', redeletes, Bool.and_eq_false_iff]
    constructor
    · rintro ⟨view', hview⟩
      cases hview with
      | deleted there =>
        have hpresent := (h a).symm.trans there
        exact ⟨known_of_present hpresent, inr hpresent⟩
    · rintro ⟨hknown, hunknown | hpresent⟩
      · rw [hknown] at hunknown
        cases hunknown
      · exact ⟨_, .deleted ((h a).trans hpresent)⟩
  | set a option value =>
    simp only [Bool.or_eq_false_iff, Bool.not_eq_false', redeletes, and_true]
    constructor
    · rintro ⟨view', hview⟩
      cases hview with
      | written valid quotes there => exact ⟨⟨valid, quotes⟩, (h a).symm.trans there⟩
    · rintro ⟨⟨valid, quotes⟩, hpresent⟩
      exact ⟨_, .written valid quotes ((h a).trans hpresent)⟩
  | delete a option =>
    simp only [Bool.or_eq_false_iff, Bool.not_eq_false', redeletes, and_true]
    constructor
    · rintro ⟨view', hview⟩
      cases hview with
      | dropped valid there => exact ⟨valid, (h a).symm.trans there⟩
    · rintro ⟨valid, hpresent⟩
      exact ⟨_, .dropped valid ((h a).trans hpresent)⟩

/-- **The headers of the view after an edit.** -/
theorem Headed.expected {view view' : ShowView} (h : Headed sections before view)
    (hview : Expected view e view') :
    Headed sections (before ++ [e]) view' := by
  intro b
  rw [present_concat, ← h b]
  cases hview with
  | @added a kind valid absent =>
    rw [presentAfter]
    by_cases ha : a = b
    · subst ha
      rw [if_pos rfl, ShowView.put, if_pos rfl]
      rfl
    · rw [if_neg ha, ShowView.put, if_neg]
      simpa [header] using fun heq => ha heq.symm
  | @deleted a there =>
    rw [presentAfter]
    by_cases ha : a = b
    · subst ha
      simp [header]
    · rw [if_neg ha]
      have hne : ¬ (header b).1 = .named a := by
        simpa [header] using fun heq => ha heq.symm
      simp [if_neg hne]
  | @written a option value valid quotes there =>
    rw [put_option_header]
    rfl
  | @dropped a option valid there =>
    rw [put_option_header]
    rfl

theorem not_meets_nil (bad : List Edit → Edit → Bool) (before : List Edit) : ¬ Meets bad before [] := by
  rintro ⟨front, e, back, heq, -⟩
  exact append_ne_nil_of_right_ne_nil front (cons_ne_nil e back) heq.symm

theorem meets_cons {bad : List Edit → Edit → Bool} {rest : List Edit} :
    Meets bad before (e :: rest) ↔ bad before e = true ∨ Meets bad (before ++ [e]) rest := by
  constructor
  · rintro ⟨front, e', back, heq, hbad⟩
    cases front with
    | nil =>
      obtain ⟨rfl, rfl⟩ := cons.inj heq
      rw [append_nil] at hbad
      exact inl hbad
    | cons f front =>
      obtain ⟨rfl, rfl⟩ := cons.inj heq
      refine inr ⟨front, e', back, rfl, ?_⟩
      rw [append_assoc, singleton_append]
      exact hbad
  · rintro (hbad | ⟨front, e', back, rfl, hbad⟩)
    · exact ⟨[], e, rest, rfl, by rw [append_nil]; exact hbad⟩
    · refine ⟨e :: front, e', back, rfl, ?_⟩
      rw [append_assoc, singleton_append] at hbad
      exact hbad

/-- **The renderer collects a list unless an edit of it is faulty.** -/
theorem collects_iff {patches : Patches}
    (h : ∀ a, Tied sections before a (patches[a]?.getD .empty)) :
    (∃ patches', edits.foldlM (applyEdit sections) patches = .ok patches') ↔
      ¬ Meets (fun before e => e.faulty sections before) before edits := by
  induction edits generalizing before patches with
  | nil => exact ⟨fun _ => not_meets_nil _ _, fun _ => ⟨patches, rfl⟩⟩
  | cons e rest ih =>
    rw [meets_cons, not_or, Bool.not_eq_true, ← (h e.section_).patched_iff]
    have hnext : ∀ p, Patched sections (patches[e.section_]?.getD .empty) e p →
        ∀ a, Tied sections (before ++ [e]) a ((patches.insert e.section_ p)[a]?.getD .empty) := by
      intro p hp a
      rw [insert_getD]
      by_cases ha : e.section_ = a
      · subst ha
        rw [if_pos rfl]
        exact (h e.section_).patched hp
      · rw [if_neg ha]
        exact (h a).other ha
    constructor
    · rintro ⟨patches', hrest⟩
      obtain ⟨hvalid, p, hp, hrest⟩ := foldlM_applyEdit_cons.mp hrest
      exact ⟨⟨hvalid, p, hp⟩, (ih (hnext p hp)).mp ⟨patches', hrest⟩⟩
    · rintro ⟨⟨hvalid, p, hp⟩, hrest⟩
      obtain ⟨patches', hrest⟩ := (ih (hnext p hp)).mpr hrest
      exact ⟨patches', foldlM_applyEdit_cons.mpr ⟨hvalid, p, hp, hrest⟩⟩

/-- **The view takes a list unless an edit of it is faulty or deletes again.** -/
theorem expects_iff (h : Headed sections before view) :
    (∃ view', edits.foldlM expectEdit view = .ok view') ↔
      ¬ Meets (fun before e => e.faulty sections before) before edits ∧
        ¬ Meets (fun before e => e.redeletes sections before) before edits := by
  induction edits generalizing before view with
  | nil => exact ⟨fun _ => ⟨not_meets_nil _ _, not_meets_nil _ _⟩, fun _ => ⟨view, rfl⟩⟩
  | cons e rest ih =>
    have hstep := h.expected_iff (e := e)
    rw [meets_cons, meets_cons, not_or, not_or, Bool.not_eq_true, Bool.not_eq_true, foldlM_cons]
    constructor
    · rintro ⟨view', hrest⟩
      obtain ⟨between, hedit, hrest⟩ := bind_ok.mp hrest
      obtain ⟨hfaulty, hredeletes⟩ := hstep.mp ⟨between, hedit⟩
      obtain ⟨hfaults, hagain⟩ := (ih (h.expected (expectEdit_ok.mp hedit).2)).mp ⟨view', hrest⟩
      exact ⟨⟨hfaulty, hfaults⟩, hredeletes, hagain⟩
    · rintro ⟨⟨hfaulty, hfaults⟩, hredeletes, hagain⟩
      obtain ⟨between, hedit⟩ := hstep.mpr ⟨hfaulty, hredeletes⟩
      obtain ⟨view', hrest⟩ := (ih (h.expected (expectEdit_ok.mp hedit).2)).mpr ⟨hfaults, hagain⟩
      refine ⟨view', ?_⟩
      rw [hedit]
      exact hrest

theorem checkPayload_ok {total : ℕ} {fields : List Bytes}
    (h : total + (fields.map List.length).sum ≤ maxBytes) : checkPayload total fields = .ok () := by
  induction fields generalizing total with
  | nil => rfl
  | cons field rest ih =>
    rw [map_cons, sum_cons] at h
    rw [checkPayload, if_neg (by omega)]
    exact ih (by omega)

theorem edited_of_render {original output : Bytes} (h : render original edits = .ok output) :
    edits.length ≤ maxEdits ∧ checkPayload 0 (edits.flatMap fields) = .ok () ∧
      ∃ statements sections patches, Edited original edits statements sections patches := by
  unfold render at h
  split at h
  · cases h
  · rename_i hcount
    obtain ⟨_, hpayload, h⟩ := bind_ok.mp h
    obtain ⟨⟨result, sections⟩, hparsed, h⟩ := bind_ok.mp h
    obtain ⟨patches, hcollected, -⟩ := bind_ok.mp h
    exact ⟨Nat.not_lt.mp hcount, hpayload, result, sections, patches, hparsed, hcollected⟩

/-- **The renderer takes a list within the limits unless an edit of it is faulty.** -/
theorem renders_iff {original : Bytes} {result : List Statement}
    (hparsed : statements original = .ok (result, sections)) (hcount : edits.length ≤ maxEdits)
    (hpayload : payload edits ≤ maxBytes)
    (hsize : render original edits ≠ .error "uci-edit-output-too-large") :
    (∃ output, render original edits = .ok output) ↔ ¬ Faulty sections edits := by
  have htied : ∀ a, Tied sections [] a ((∅ : Patches)[a]?.getD .empty) := by
    intro a
    exact .empty sections a
  unfold Faulty
  rw [← collects_iff htied]
  constructor
  · rintro ⟨output, hrender⟩
    obtain ⟨-, -, result', sections', patches, he⟩ := edited_of_render hrender
    have hsame := hparsed.symm.trans he.parsed
    cases hsame
    exact ⟨patches, he.collected⟩
  · rintro ⟨patches, hcollected⟩
    have hchecked : checkPayload 0 (edits.flatMap fields) = .ok () :=
      checkPayload_ok (by rw [Nat.zero_add]; exact hpayload)
    obtain ⟨cuts, hfollows, -, hrender⟩ := render_cuts ⟨hparsed, hcollected⟩ hcount hchecked
    cases hsplice : splice original 0 [] (cuts.map (Cut.map Fresh.text)) with
    | ok output => exact ⟨output, hrender.trans hsplice⟩
    | error message =>
      have hmessage := splice_error (follows_map hfollows) hsplice
      rw [hmessage] at hsplice
      exact absurd (hrender.trans hsplice) hsize

/-- **The view takes a list unless an edit of it is faulty or deletes again.** -/
theorem views_iff (hview : ∀ a, (view (header a)).isSome = true ↔ a ∈ sections) :
    (∃ view', expectedView view edits = .ok view') ↔
      ¬ Faulty sections edits ∧ ¬ Redeletes sections edits := by
  refine expects_iff fun a => ?_
  rw [present, foldl_nil, Bool.eq_iff_iff, hview]
  exact contains_iff_mem.symm

def sampleFile : Bytes := ascii "config t 'a'\n"

def sampleView : ShowView := fun key => if key = header (ascii "a") then some (ascii "t") else none

theorem sampleFile_sections : ∃ result sections, statements sampleFile = .ok (result, sections) ∧
    ∀ a, (sampleView (header a)).isSome = true ↔ a ∈ sections := by
  have hparsed : (statements sampleFile).toOption.map (fun r => r.2.toList) =
      some [(ascii "a", ascii "t")] := by decide +kernel
  obtain ⟨⟨result, sections⟩, hstatements, hlist⟩ := exists_of_map hparsed
  have hget : ∀ a : Bytes, sections[a]?.isSome = true ↔ a = ascii "a" := by
    intro a
    rw [Option.isSome_iff_exists]
    simp [← mem_toList_iff_getElem?_eq_some, hlist, Prod.mk.injEq]
  refine ⟨result, sections, hstatements, fun a => ?_⟩
  rw [← isSome_getElem?_iff_mem, hget]
  simp [sampleView, header]

/-- **The two interpreters agree** on a list within the limits exactly where no edit deletes a section
that an earlier one has deleted, or some edit is one that both refuse. -/
theorem interpreters_agree_iff {original : Bytes} {edits : List Edit} {result : List Statement}
    {sections : Sections} {view : ShowView} (hparsed : statements original = .ok (result, sections))
    (hview : ∀ a, (view (header a)).isSome = true ↔ a ∈ sections) (hcount : edits.length ≤ maxEdits)
    (hpayload : payload edits ≤ maxBytes)
    (hsize : render original edits ≠ .error "uci-edit-output-too-large") :
    ((∃ output, render original edits = .ok output) ↔ ∃ view', expectedView view edits = .ok view') ↔
      ¬ Redeletes sections edits ∨ Faulty sections edits := by
  rw [renders_iff hparsed hcount hpayload hsize, views_iff hview]
  tauto

/-- A section is written to, then deleted. -/
def sampleEdits : List Edit :=
  [.set (ascii "a") (ascii "k") (ascii "v"), .set (ascii "a") (ascii "l") (ascii "w"),
    .deleteSection (ascii "a")]

theorem interpreters_agree_sample : ∃ result sections,
    statements sampleFile = .ok (result, sections) ∧
      (((∃ output, render sampleFile sampleEdits = .ok output) ↔
          ∃ view', expectedView sampleView sampleEdits = .ok view') ↔
        ¬ Redeletes sections sampleEdits ∨ Faulty sections sampleEdits) := by
  obtain ⟨result, sections, hparsed, hview⟩ := sampleFile_sections
  have hrendered : (render sampleFile sampleEdits).toOption.isSome = true := by decide +kernel
  refine ⟨result, sections, hparsed,
    interpreters_agree_iff hparsed hview (by decide) (by decide +kernel) fun herror => ?_⟩
  rw [herror] at hrendered
  cases hrendered

def deletedTwice : List Edit := [.deleteSection (ascii "a"), .deleteSection (ascii "a")]

/-- **A section deleted twice**: the renderer takes the edits and the view refuses them. -/
theorem interpreters_disagree :
    ¬ ∀ (original : Bytes) (edits : List Edit) (result : List Statement) (sections : Sections)
      (view : ShowView), statements original = .ok (result, sections) →
      (∀ a, (view (header a)).isSome = true ↔ a ∈ sections) → edits.length ≤ maxEdits →
      payload edits ≤ maxBytes → render original edits ≠ .error "uci-edit-output-too-large" →
      ((∃ output, render original edits = .ok output) ↔
        ∃ view', expectedView view edits = .ok view') := by
  intro hclaim
  obtain ⟨result, sections, hparsed, hview⟩ := sampleFile_sections
  have hrender : render sampleFile deletedTwice = .ok [] := ok_of_toOption (by decide +kernel)
  have hrefused : (expectedView sampleView deletedTwice).toOption.isNone = true := by
    decide +kernel
  have hagree := hclaim sampleFile deletedTwice result sections sampleView hparsed hview (by decide)
    (by decide +kernel) (fun herror => by rw [hrender] at herror; cases herror)
  obtain ⟨view', hview'⟩ := hagree.mp ⟨[], hrender⟩
  rw [hview'] at hrefused
  cases hrefused

end CakeAutorate.UciEdits
