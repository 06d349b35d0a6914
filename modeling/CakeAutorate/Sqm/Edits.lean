/-
# What the edits of a projection do

One lemma for each edit of the planner: how the package changes, and that the change is the one that
the noted actions make when they are replayed.
-/

import CakeAutorate.Sqm.Projection

namespace CakeAutorate.Sqm

open List UciPackage Std.ExtTreeMap

theorem UciPackage.get_put (p : UciPackage) (name other : String) (x : UciSection) :
    (p.put name x).get other = if name = other then some x else p.get other := by
  simp only [put, get, Std.ExtTreeMap.getElem?_insert, Std.LawfulEqCmp.compare_eq_iff_eq]

theorem UciPackage.get_remove (p : UciPackage) (name other : String) :
    (p.remove name).get other = if name = other then none else p.get other := by
  simp only [remove, get, getElem?_erase, Std.LawfulEqCmp.compare_eq_iff_eq]

theorem UciSection.get_put (x : UciSection) (option other value : String) :
    (x.put option value).get other = if option = other then some value else x.get other := by
  simp only [UciSection.put, UciSection.get, Std.ExtTreeMap.getElem?_insert,
    Std.LawfulEqCmp.compare_eq_iff_eq]

theorem UciSection.get_remove (x : UciSection) (option other : String) :
    (x.remove option).get other = if option = other then none else x.get other := by
  simp only [UciSection.remove, UciSection.get, getElem?_erase, Std.LawfulEqCmp.compare_eq_iff_eq]

variable {p : UciPackage} {r : Resolver} {name : String}

theorem UciPackage.mem_toList {x : UciSection} :
    (name, x) ∈ p.sections.toList ↔ p.get name = some x :=
  mem_toList_iff_getElem?_eq_some

def SqmAction.section_ : SqmAction → String
  | .addSection section_ => section_
  | .deleteSection section_ => section_
  | .set section_ _ _ => section_
  | .delete section_ _ => section_

theorem perform_get {a : SqmAction} (h : a.section_ ≠ name) :
    (p.perform a).get name = p.get name := by
  cases a with
  | addSection section_ => exact (get_put ..).trans (if_neg h)
  | deleteSection section_ => exact (get_remove ..).trans (if_neg h)
  | set section_ option value =>
    simp only [perform]
    split
    · exact (get_put ..).trans (if_neg h)
    · rfl
  | delete section_ option =>
    simp only [perform]
    split
    · exact (get_put ..).trans (if_neg h)
    · rfl

theorem replay_append (p : UciPackage) (first second : List SqmAction) :
    p.replay (first ++ second) = (p.replay first).replay second := foldl_append

theorem replay_get {actions : List SqmAction} (h : ∀ a ∈ actions, a.section_ ≠ name) :
    (p.replay actions).get name = p.get name := by
  induction actions generalizing p with
  | nil => rfl
  | cons a actions ih =>
    obtain ⟨ha, hrest⟩ := forall_mem_cons.1 h
    exact (ih hrest).trans (perform_get ha)

/-- **A change of the planner**: the package is the one that the new actions make of the old one,
they change only some sections, and the conflicts stay. -/
structure Reaches (touched : String → Prop) (s t : Planning) : Prop where
  replayed : ∃ new, t.plan.actions = s.plan.actions ++ new ∧ t.sqm = s.sqm.replay new ∧
    ∀ a ∈ new, touched a.section_
  conflicts : t.plan.conflicts = s.plan.conflicts

namespace Reaches

variable {touched touched' : String → Prop} {s t u : Planning}

theorem refl (touched : String → Prop) (s : Planning) : Reaches touched s s :=
  ⟨⟨[], (append_nil _).symm, rfl, fun a ha => by cases ha⟩, rfl⟩

theorem trans (h : Reaches touched s t) (h' : Reaches touched t u) : Reaches touched s u := by
  obtain ⟨new, hactions, hsqm, htouched⟩ := h.replayed
  obtain ⟨new', hactions', hsqm', htouched'⟩ := h'.replayed
  refine ⟨⟨new ++ new', ?_, ?_, ?_⟩, h'.conflicts.trans h.conflicts⟩
  · rw [hactions', hactions, append_assoc]
  · rw [replay_append, ← hsqm, hsqm']
  · intro a ha
    rcases mem_append.1 ha with ha | ha
    · exact htouched a ha
    · exact htouched' a ha

theorem mono (h : Reaches touched s t) (hle : ∀ name, touched name → touched' name) :
    Reaches touched' s t := by
  obtain ⟨new, hactions, hsqm, htouched⟩ := h.replayed
  exact ⟨⟨new, hactions, hsqm, fun a ha => hle _ (htouched a ha)⟩, h.conflicts⟩

theorem get (h : Reaches touched s t) {name : String} (hname : ¬touched name) :
    t.sqm.get name = s.sqm.get name := by
  obtain ⟨new, -, hsqm, htouched⟩ := h.replayed
  rw [hsqm]
  refine replay_get fun a ha hsame => hname ?_
  rw [← hsame]
  exact htouched a ha

end Reaches

namespace Planning

variable {s t : Planning} {queue option value : String}

theorem pushAction_ok {sqm : UciPackage} {a : SqmAction} (h : s.pushAction sqm a = .ok t)
    (hsqm : sqm = s.sqm.perform a) : t.sqm = sqm ∧ Reaches (· = a.section_) s t := by
  unfold pushAction at h
  split at h
  · cases h
  · cases h
    refine ⟨rfl, ⟨⟨[a], rfl, hsqm, ?_⟩, rfl⟩⟩
    intro a' ha'
    rw [mem_singleton.1 ha']

/-- A section with one option changed. -/
structure Assigned (a : String × Option String) (x x' : UciSection) : Prop where
  sectionType : x'.sectionType = x.sectionType
  here : x'.get a.1 = a.2
  elsewhere : ∀ o, o ≠ a.1 → x'.get o = x.get o

variable {x : UciSection} {keep : Option String}

theorem setOption_ok (h : s.setOption queue option value = .ok t) (hx : s.sqm.get queue = some x) :
    validatePathValue queue option (some value) = .ok () ∧ Reaches (· = queue) s t ∧
      ∃ x', t.sqm.get queue = some x' ∧ Assigned (option, some value) x x' := by
  simp only [setOption, bind_ok, hx] at h
  obtain ⟨u, hvalid, h⟩ := h
  refine ⟨hvalid, ?_⟩
  split at h
  · rename_i hsame
    cases h
    exact ⟨.refl _ _, x, hx, rfl, hsame, fun _ _ => rfl⟩
  · obtain ⟨hsqm, hreaches⟩ := pushAction_ok h (by simp [perform, hx])
    refine ⟨hreaches, x.put option value, ?_, rfl, ?_, ?_⟩
    · rw [hsqm, get_put, if_pos rfl]
    · rw [UciSection.get_put, if_pos rfl]
    · intro o ho
      rw [UciSection.get_put, if_neg ho.symm]

theorem deleteOption_ok (h : s.deleteOption queue option = .ok t) (hx : s.sqm.get queue = some x) :
    validatePathValue queue option none = .ok () ∧ Reaches (· = queue) s t ∧
      ∃ x', t.sqm.get queue = some x' ∧ Assigned (option, none) x x' := by
  simp only [deleteOption, bind_ok, hx] at h
  obtain ⟨u, hvalid, h⟩ := h
  refine ⟨hvalid, ?_⟩
  split at h
  · rename_i hsame
    cases h
    exact ⟨.refl _ _, x, hx, rfl, hsame, fun _ _ => rfl⟩
  · obtain ⟨hsqm, hreaches⟩ := pushAction_ok h (by simp [perform, hx])
    refine ⟨hreaches, x.remove option, ?_, rfl, ?_, ?_⟩
    · rw [hsqm, get_put, if_pos rfl]
    · rw [UciSection.get_remove, if_pos rfl]
    · intro o ho
      rw [UciSection.get_remove, if_neg ho.symm]

variable {a : String × Option String}

theorem assign_ok (h : s.assign queue a = .ok t) (hx : s.sqm.get queue = some x) :
    validatePathValue queue a.1 a.2 = .ok () ∧ Reaches (· = queue) s t ∧
      ∃ x', t.sqm.get queue = some x' ∧ Assigned a x x' := by
  obtain ⟨option, _ | value⟩ := a
  · exact deleteOption_ok h hx
  · exact setOption_ok h hx

theorem assign_noop (hx : s.sqm.get queue = some x) (hsame : x.get a.1 = a.2)
    (hvalid : validatePathValue queue a.1 a.2 = .ok ()) : s.assign queue a = .ok s := by
  obtain ⟨option, _ | value⟩ := a
  · simp only [assign, deleteOption, bind_ok, hx]
    exact ⟨(), hvalid, if_pos hsame⟩
  · simp only [assign, setOption, bind_ok, hx]
    exact ⟨(), hvalid, if_pos hsame⟩

def Has (queue : String) (x : UciSection) (options : List (String × Option String)) : Prop :=
  ∀ a ∈ options, x.get a.1 = a.2 ∧ validatePathValue queue a.1 a.2 = .ok ()

variable {options : List (String × Option String)}

/-- **Options of different names**: afterwards the section has them, and the others are kept. -/
theorem assignAll_ok (hnodup : (options.map Prod.fst).Nodup) (h : assignAll queue options s = .ok t)
    (hx : s.sqm.get queue = some x) :
    Reaches (· = queue) s t ∧ ∃ x', t.sqm.get queue = some x' ∧ x'.sectionType = x.sectionType ∧
      Has queue x' options ∧ ∀ o, o ∉ options.map Prod.fst → x'.get o = x.get o := by
  induction options generalizing s x with
  | nil =>
    cases h
    exact ⟨.refl _ _, x, hx, rfl, forall_mem_nil _, fun _ _ => rfl⟩
  | cons a rest ih =>
    obtain ⟨hnotin, hnodup⟩ := nodup_cons.1 hnodup
    simp only [assignAll, bind_ok] at h
    obtain ⟨s', ha, hrest⟩ := h
    obtain ⟨hvalid, hreaches, x', hx', hassigned⟩ := assign_ok ha hx
    obtain ⟨hreaches', x'', hx'', htype, hhas, hother⟩ := ih hnodup hrest hx'
    refine ⟨hreaches.trans hreaches', x'', hx'', htype.trans hassigned.sectionType, ?_, ?_⟩
    · intro b hb
      rcases mem_cons.1 hb with rfl | hb
      · exact ⟨(hother _ hnotin).trans hassigned.here, hvalid⟩
      · exact hhas b hb
    · intro o ho
      rw [map_cons, mem_cons, not_or] at ho
      exact (hother o ho.2).trans (hassigned.elsewhere o ho.1)

theorem assignAll_noop (hx : s.sqm.get queue = some x) (hhas : Has queue x options) :
    assignAll queue options s = .ok s := by
  induction options with
  | nil => rfl
  | cons a rest ih =>
    obtain ⟨ha, hrest⟩ := forall_mem_cons.1 hhas
    simp only [assignAll, bind_ok]
    exact ⟨s, assign_noop hx ha.1 ha.2, ih hrest⟩

/-- A section lost at most its owner. -/
structure Disowned (x x' : UciSection) : Prop where
  sectionType : x'.sectionType = x.sectionType
  owner : x'.get ownerOption = x.get ownerOption ∨ x'.get ownerOption = none
  elsewhere : ∀ o, o ≠ ownerOption → x'.get o = x.get o

theorem Disowned.refl (x : UciSection) : Disowned x x := ⟨rfl, .inl rfl, fun _ _ => rfl⟩

theorem Disowned.trans {x' x'' : UciSection} (h : Disowned x x') (h' : Disowned x' x'') :
    Disowned x x'' := by
  refine ⟨h'.sectionType.trans h.sectionType, ?_, fun o ho =>
    (h'.elsewhere o ho).trans (h.elsewhere o ho)⟩
  rcases h'.owner with howner | howner
  · rw [howner]
    exact h.owner
  · exact .inr howner

def OnlyDisowned (sqm sqm' : UciPackage) : Prop :=
  ∀ name x', sqm'.get name = some x' → ∃ x, sqm.get name = some x ∧ Disowned x x'

theorem OnlyDisowned.trans {p p' p'' : UciPackage} (h : OnlyDisowned p p')
    (h' : OnlyDisowned p' p'') : OnlyDisowned p p'' := by
  intro name x'' hx''
  obtain ⟨x', hx', hdisowned'⟩ := h' name x'' hx''
  obtain ⟨x, hx, hdisowned⟩ := h name x' hx'
  exact ⟨x, hx, hdisowned.trans hdisowned'⟩

theorem dropStale_ok {owner name : String} (h : s.dropStale owner name = .ok t) :
    Reaches (· = name) s t ∧ OnlyDisowned s.sqm t.sqm ∧
      ∀ x, t.sqm.get name = some x → x.get ownerOption = none := by
  have hmanaged : ∀ u : Planning, u.managed = t →
      (Reaches (· = name) s u ∧ OnlyDisowned s.sqm u.sqm ∧
        ∀ x, u.sqm.get name = some x → x.get ownerOption = none) →
      Reaches (· = name) s t ∧ OnlyDisowned s.sqm t.sqm ∧
        ∀ x, t.sqm.get name = some x → x.get ownerOption = none := by
    rintro u rfl ⟨hreaches, hdisowned, hnone⟩
    exact ⟨⟨hreaches.replayed, hreaches.conflicts⟩, hdisowned, hnone⟩
  unfold dropStale at h
  split at h
  · simp only [bind_ok, pure, Except.pure, Except.ok.injEq] at h
    obtain ⟨u, hdelete, hu⟩ := h
    refine hmanaged u hu ?_
    simp only [deleteSection, bind_ok] at hdelete
    obtain ⟨-, -, hdelete⟩ := hdelete
    split at hdelete
    · rename_i habsent
      cases hdelete
      refine ⟨.refl _ _, fun m x hx => ⟨x, hx, .refl x⟩, fun x hx => ?_⟩
      rw [habsent] at hx
      cases hx
    · obtain ⟨hsqm, hreaches⟩ := pushAction_ok hdelete rfl
      refine ⟨hreaches, fun m x hx => ?_, fun x hx => ?_⟩
      · rw [hsqm, get_remove] at hx
        split at hx
        · cases hx
        · exact ⟨x, hx, .refl x⟩
      · rw [hsqm, get_remove, if_pos rfl] at hx
        cases hx
  · simp only [bind_ok, pure, Except.pure, Except.ok.injEq] at h
    obtain ⟨u, hdelete, hu⟩ := h
    refine hmanaged u hu ?_
    rcases hx : s.sqm.get name with _ | x
    · simp only [deleteOption, bind_ok, hx] at hdelete
      obtain ⟨-, -, hdelete⟩ := hdelete
      cases hdelete
      refine ⟨.refl _ _, fun m x hx => ⟨x, hx, .refl x⟩, fun x hx' => ?_⟩
      rw [hx] at hx'
      cases hx'
    · obtain ⟨-, hreaches, x', hx', hassigned⟩ := deleteOption_ok hdelete hx
      refine ⟨hreaches, fun m y hy => ?_, fun y hy => ?_⟩
      · by_cases hm : m = name
        · subst hm
          rw [hx'] at hy
          cases hy
          exact ⟨x, hx, hassigned.sectionType, .inr hassigned.here, hassigned.elsewhere⟩
        · rw [hreaches.get hm] at hy
          exact ⟨y, hy, .refl y⟩
      · rw [hx'] at hy
        cases hy
        exact hassigned.here

variable {owner : String}

theorem dropAll_ok {names : List String} (h : dropAll owner names s = .ok t) :
    Reaches (· ∈ names) s t ∧ OnlyDisowned s.sqm t.sqm ∧
      ∀ name ∈ names, ∀ x, t.sqm.get name = some x → x.get ownerOption = none := by
  induction names generalizing s with
  | nil =>
    cases h
    exact ⟨.refl _ _, fun m x hx => ⟨x, hx, .refl x⟩, fun m hm => by cases hm⟩
  | cons name rest ih =>
    simp only [dropAll, bind_ok] at h
    obtain ⟨u, hname, hrest⟩ := h
    obtain ⟨hreaches, hdisowned, hnone⟩ := dropStale_ok hname
    obtain ⟨hreaches', hdisowned', hnone'⟩ := ih hrest
    refine ⟨(hreaches.mono ?_).trans (hreaches'.mono ?_), hdisowned.trans hdisowned', ?_⟩
    · rintro m rfl
      exact mem_cons_self
    · intro m hm
      exact mem_cons_of_mem _ hm
    · intro m hm x hx
      rcases mem_cons.1 hm with rfl | hm
      · obtain ⟨y, hy, hlost⟩ := hdisowned' m x hx
        rcases hlost.owner with howner | howner
        · rw [howner]
          exact hnone y hy
        · exact howner
      · exact hnone' m hm x hx

def Owns (sqm : UciPackage) (owner name : String) : Prop :=
  ∃ x, sqm.get name = some x ∧ x.get ownerOption = some owner

def Free (sqm : UciPackage) (owner : String) (keep : Option String) : Prop :=
  ∀ name, Owns sqm owner name → some name = keep

theorem mem_staleSections {sqm : UciPackage} {owner name : String} :
    name ∈ staleSections sqm owner keep ↔ some name ≠ keep ∧ Owns sqm owner name := by
  simp only [staleSections, mem_map, mem_filter, decide_eq_true_eq, Prod.exists, Owns]
  constructor
  · rintro ⟨m, x, ⟨hmem, hkeep, howner⟩, rfl⟩
    exact ⟨hkeep, x, mem_toList.1 hmem, howner⟩
  · rintro ⟨hkeep, x, hx, howner⟩
    exact ⟨name, x, ⟨mem_toList.2 hx, hkeep, howner⟩, rfl⟩

/-- **`cleanup_stale`**: the owner is left with the section to keep. -/
theorem cleanupStale_ok (h : s.cleanupStale owner keep = .ok t) :
    Reaches (fun name => some name ≠ keep ∧ Owns s.sqm owner name) s t ∧
      OnlyDisowned s.sqm t.sqm ∧ Free t.sqm owner keep := by
  obtain ⟨hreaches, hdisowned, hnone⟩ := dropAll_ok h
  refine ⟨hreaches.mono fun name hname => mem_staleSections.1 hname, hdisowned, ?_⟩
  rintro name ⟨x', hx', howner⟩
  by_contra hkeep
  obtain ⟨x, hx, hlost⟩ := hdisowned name x' hx'
  have howned : x.get ownerOption = some owner := by
    rcases hlost.owner with hsame | hlost
    · rw [← hsame]
      exact howner
    · rw [hlost] at howner
      cases howner
  have hmem : name ∈ staleSections s.sqm owner keep := mem_staleSections.2 ⟨hkeep, x, hx, howned⟩
  rw [hnone name hmem x' hx'] at howner
  cases howner

theorem cleanupStale_noop (h : Free s.sqm owner keep) : s.cleanupStale owner keep = .ok s := by
  have hnil : staleSections s.sqm owner keep = [] := by
    rw [eq_nil_iff_forall_not_mem]
    intro name hname
    obtain ⟨hkeep, howner⟩ := mem_staleSections.1 hname
    exact hkeep (h name howner)
  rw [cleanupStale, hnil]
  rfl

/-- **`ensure_queue`**: afterwards the section is a queue; one that was there is kept. -/
theorem ensureQueue_ok (h : s.ensureQueue queue = .ok t) :
    Reaches (· = queue) s t ∧ ∃ x, t.sqm.get queue = some x ∧ x.sectionType = "queue" := by
  unfold ensureQueue at h
  split at h
  · rename_i x hx
    split at h
    · rename_i htype
      cases h
      exact ⟨.refl _ _, x, hx, htype⟩
    · cases h
  · obtain ⟨hsqm, hreaches⟩ := pushAction_ok h rfl
    refine ⟨hreaches, ⟨"queue", ∅⟩, ?_, rfl⟩
    rw [hsqm, get_put, if_pos rfl]

theorem ensureQueue_noop (hx : s.sqm.get queue = some x) (htype : x.sectionType = "queue") :
    s.ensureQueue queue = .ok s := by
  simp [ensureQueue, hx, htype]

end Planning

def Clear (sqm : UciPackage) (r : Resolver) (keep target : String) : Prop :=
  ∀ name x, sqm.get name = some x → name ≠ keep → x.sectionType = "queue" →
    x.get "enabled" = some "1" → ∀ interface, x.get "interface" = some interface →
    interface ≠ "" → ∃ resolved, resolveCached r interface = .ok resolved ∧ resolved ≠ target

theorem rejectQueue_ok {keep target name : String} {x : UciSection} :
    rejectQueue r keep target (name, x) = .ok () ↔
      (x.get "enabled" = some "1" → ∀ interface, x.get "interface" = some interface →
        interface ≠ "" → ∃ resolved, resolveCached r interface = .ok resolved ∧ resolved ≠ target) := by
  unfold rejectQueue
  by_cases henabled : x.get "enabled" = some "1"
  · rw [if_neg (not_not.2 henabled)]
    rcases hi : x.get "interface" with _ | i
    · simp [henabled]
    · by_cases hempty : i = ""
      · subst hempty
        have hnone : (some "").filter (fun value => !value.isEmpty) = none := by decide +kernel
        simp only [hnone, true_iff]
        intro _ interface hinterface hne
        exact absurd (Option.some.inj hinterface).symm hne
      · have hsome : (some i).filter (fun value => !value.isEmpty) = some i := by
          simp [Option.filter, hempty]
        simp only [hsome, bind_ok, check_ok]
        constructor
        · rintro ⟨resolved, hresolved, hne⟩ - interface hinterface -
          cases hinterface
          exact ⟨resolved, hresolved, by simpa using hne⟩
        · intro hclear
          obtain ⟨resolved, hresolved, hne⟩ := hclear henabled i rfl hempty
          exact ⟨resolved, hresolved, by simpa using hne⟩
  · rw [if_pos henabled]
    simp [henabled]

theorem rejectQueues_ok {keep target : String} {entries : List (String × UciSection)} :
    rejectQueues r keep target entries = .ok () ↔
      ∀ entry ∈ entries, rejectQueue r keep target entry = .ok () := by
  induction entries with
  | nil => simp [rejectQueues]
  | cons entry rest ih =>
    simp only [rejectQueues, bind_ok, forall_mem_cons, ← ih]
    constructor
    · rintro ⟨_, hentry, hrest⟩
      exact ⟨hentry, hrest⟩
    · rintro ⟨hentry, hrest⟩
      exact ⟨(), hentry, hrest⟩

/-- **`reject_unmanaged_conflicts`** passes exactly if no other queue has the target. -/
theorem rejectUnmanagedConflicts_ok {sqm : UciPackage} {keep target : String} :
    rejectUnmanagedConflicts sqm r keep target = .ok () ↔ Clear sqm r keep target := by
  simp only [rejectUnmanagedConflicts, rejectQueues_ok, mem_filter, decide_eq_true_eq,
    Prod.forall, mem_toList, rejectQueue_ok, Clear]
  constructor
  · intro h name x hx hname htype
    exact h name x ⟨hx, hname, htype⟩
  · rintro h name x ⟨hx, hname, htype⟩
    exact h name x hx hname htype

def Resolver.Settles (r : Resolver) : Prop :=
  ∀ name value, r.resolve name = .ok value → r.resolve value = .ok value

theorem resolveCached_ok {name value : String} (h : resolveCached r name = .ok value) :
    r.resolve name = .ok value ∧ value ≠ "" := by
  simp only [resolveCached, bind_ok, check_ok, pure, Except.pure, Except.ok.injEq] at h
  obtain ⟨value', hresolve, -, hsafe, rfl⟩ := h
  refine ⟨hresolve, ?_⟩
  rintro rfl
  exact absurd hsafe (by decide +kernel)

theorem resolveCached_settles (hr : r.Settles) {name value : String}
    (h : resolveCached r name = .ok value) : resolveCached r value = .ok value := by
  simp only [resolveCached, bind_ok, check_ok, pure, Except.pure, Except.ok.injEq] at h ⊢
  obtain ⟨value', hresolve, u, hsafe, rfl⟩ := h
  exact ⟨value', hr _ _ hresolve, u, hsafe, rfl⟩

end CakeAutorate.Sqm
