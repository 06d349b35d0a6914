/-
# Stopping by what was stored

`stop_plan_from_views` on the inputs that a start stores of its own packages: the stored sections are
the committed ones, so the stop is the stop of the packages, unless a section that another owner marks
has the interface of a stored queue.
-/

import CakeAutorate.Service.Stopped

namespace CakeAutorate.Service

open Sqm List UciPackage Except

variable {cake sqm : UciPackage} {r : Resolver} {p : UciPackage} {e : String × UciSection}
  {v : Views} {applied : List String}

theorem package_ext {q : UciPackage} (h : ∀ name, p.get name = q.get name) : p = q := by
  exact congrArg mk (Std.ExtTreeMap.ext_getElem? fun name => h name)

variable {names : List String}

theorem get_foldl_remove {name : String} :
    (names.foldl remove p).get name = if name ∈ names then none else p.get name := by
  induction names generalizing p with
  | nil => rw [foldl_nil, if_neg not_mem_nil]
  | cons n rest ih =>
    rw [foldl_cons, ih, get_remove]
    by_cases hrest : name ∈ rest
    · rw [if_pos hrest, if_pos (mem_cons_of_mem _ hrest)]
    · by_cases hn : n = name
      · simp [hn]
      · simp [hn, hrest, Ne.symm hn]

theorem get_foldl_put {entries : List (String × UciSection)} {name : String}
    (hdistinct : entries.Pairwise fun a b => a.1 ≠ b.1) :
    (∀ x, (name, x) ∈ entries →
      (entries.foldl (fun p entry => p.put entry.1 entry.2) p).get name = some x) ∧
    ((∀ x, (name, x) ∉ entries) →
      (entries.foldl (fun p entry => p.put entry.1 entry.2) p).get name = p.get name) := by
  induction entries generalizing p with
  | nil => exact ⟨fun x hx => absurd hx not_mem_nil, fun _ => rfl⟩
  | cons e rest ih =>
    obtain ⟨hfirst, hrest⟩ := pairwise_cons.1 hdistinct
    obtain ⟨hin, hout⟩ := ih (p := p.put e.1 e.2) hrest
    refine ⟨fun x hx => ?_, fun hnone => ?_⟩
    · rcases mem_cons.1 hx with rfl | hx
      · rw [foldl_cons, hout fun y hy => hfirst _ hy rfl, get_put]
        simp
      · exact hin x hx
    · rw [foldl_cons, hout fun x hx => hnone x (mem_cons_of_mem _ hx), get_put]
      refine if_neg ?_
      rintro rfl
      exact hnone e.2 mem_cons_self

theorem toList_distinct (p : UciPackage) : p.sections.toList.Pairwise fun a b => a.1 ≠ b.1 := by
  refine (Std.ExtTreeMap.distinct_keys_toList (t := p.sections)).imp ?_
  intro a b hab hsame
  exact hab (by rw [hsame]; exact Std.ReflCmp.compare_self)

theorem get_ownedQueues {owner name : String} {x : UciSection} :
    (ownedQueues sqm owner).get name = some x ↔
    sqm.get name = some x ∧ x.get ownerOption = some owner := by
  have hdistinct : (sqm.sections.toList.filter fun entry =>
      entry.2.get ownerOption = some owner).Pairwise fun a b => ¬compare a.1 b.1 = .eq :=
    Std.ExtTreeMap.distinct_keys_toList.filter _
  constructor
  · intro h
    by_cases hmem : ∃ y, (name, y) ∈ sqm.sections.toList.filter fun entry =>
        entry.2.get ownerOption = some owner
    · obtain ⟨y, hy⟩ := hmem
      have hget : (ownedQueues sqm owner).get name = some y :=
        Std.ExtTreeMap.getElem?_ofList_of_mem Std.ReflCmp.compare_self hdistinct hy
      rw [h] at hget
      cases hget
      obtain ⟨hin, howner⟩ := mem_filter.1 hy
      exact ⟨mem_toList.1 hin, of_decide_eq_true howner⟩
    · have hnone : (ownedQueues sqm owner).get name = none := by
        refine Std.ExtTreeMap.getElem?_ofList_of_contains_eq_false ?_
        rw [Bool.eq_false_iff]
        intro hcontains
        rw [contains_iff_mem] at hcontains
        obtain ⟨e, he, rfl⟩ := mem_map.1 hcontains
        exact hmem ⟨e.2, he⟩
      rw [h] at hnone
      cases hnone
  · rintro ⟨hget, howner⟩
    refine Std.ExtTreeMap.getElem?_ofList_of_mem Std.ReflCmp.compare_self hdistinct ?_
    exact mem_filter.2 ⟨mem_toList.2 hget, decide_eq_true howner⟩

theorem addQueue_ok (hnone : v.oldSqm.get e.1 = none) :
    ∃ v', v.addQueue e = .ok v' ∧ v'.cake = v.cake ∧ v'.oldSqm = v.oldSqm.put e.1 e.2 ∧
      ∀ i, v'.physical.contains i = true ↔
        e.2.get "interface" = some i ∨ v.physical.contains i = true := by
  cases hinterface : e.2.get "interface" with
  | none =>
    refine ⟨{ v with oldSqm := v.oldSqm.put e.1 e.2 }, ?_, rfl, rfl, fun i => by simp⟩
    simp only [Views.addQueue, bind_ok, check_ok, hnone, hinterface, pure]
    exact ⟨(), by trivial, by trivial⟩
  | some interface =>
    refine ⟨{ v with
      oldSqm := v.oldSqm.put e.1 e.2
      physical := v.physical.insert interface }, ?_, rfl, rfl, fun i => ?_⟩
    · simp only [Views.addQueue, bind_ok, check_ok, hnone, hinterface, pure]
      exact ⟨(), by trivial, by trivial⟩
    · simp [Std.ExtTreeSet.contains_insert]

variable {entries : List (String × UciSection)}

theorem addQueues_ok (hdistinct : entries.Pairwise fun a b => a.1 ≠ b.1)
    (hfresh : ∀ e ∈ entries, v.oldSqm.get e.1 = none) :
    ∃ v', Views.addQueues entries v = .ok v' ∧ v'.cake = v.cake ∧
      (∀ s x, v'.oldSqm.get s = some x ↔ v.oldSqm.get s = some x ∨ (s, x) ∈ entries) ∧
      ∀ i, v'.physical.contains i = true ↔
        v.physical.contains i = true ∨ ∃ e ∈ entries, e.2.get "interface" = some i := by
  induction entries generalizing v with
  | nil => exact ⟨v, rfl, rfl, fun s x => by simp, fun i => by simp⟩
  | cons e rest ih =>
    obtain ⟨hfirst, hrest⟩ := pairwise_cons.1 hdistinct
    obtain ⟨hnone, hothers⟩ := forall_mem_cons.1 hfresh
    obtain ⟨v₁, hv₁, hcake₁, hold₁, hphysical₁⟩ := addQueue_ok hnone
    have hfresh₁ : ∀ a ∈ rest, v₁.oldSqm.get a.1 = none := by
      intro a ha
      rw [hold₁, get_put, if_neg (hfirst a ha), hothers a ha]
    obtain ⟨v', hv', hcake, hold, hphysical⟩ := ih hrest hfresh₁
    refine ⟨v', ?_, hcake.trans hcake₁, fun s x => ?_, fun i => ?_⟩
    · simp only [Views.addQueues, bind_ok]
      exact ⟨v₁, hv₁, hv'⟩
    · rw [hold s x, hold₁, get_put, mem_cons]
      by_cases hs : e.1 = s
      · subst hs
        rw [if_pos rfl, hnone]
        constructor
        · rintro (hsame | hmem)
          · exact .inr (.inl (by rw [← Option.some.inj hsame]))
          · exact .inr (.inr hmem)
        · rintro (hbad | hsame | hmem)
          · cases hbad
          · exact .inl (by rw [← hsame])
          · exact .inr hmem
      · rw [if_neg hs]
        constructor
        · rintro (hget | hmem)
          · exact .inl hget
          · exact .inr (.inr hmem)
        · rintro (hget | hsame | hmem)
          · exact .inl hget
          · exact absurd (congrArg Prod.fst hsame).symm hs
          · exact .inr hmem
    · rw [hphysical i, hphysical₁ i, exists_mem_cons_iff, or_assoc, or_left_comm]

/-- What the stored inputs of some instances say. -/
structure Holds (cake sqm : UciPackage) (done : List String) (v : Views) : Prop where
  cake_eq : v.cake = cake
  stored : ∀ s x, v.oldSqm.get s = some x ↔
    sqm.get s = some x ∧ ∃ n ∈ done, x.get ownerOption = some n
  physical : ∀ i, v.physical.contains i = true ↔
    ∃ s x n, sqm.get s = some x ∧ n ∈ done ∧ x.get ownerOption = some n ∧ x.get "interface" = some i

theorem holds_nil : Holds cake sqm [] ⟨cake, ⟨∅⟩, ∅⟩ := by
  refine ⟨rfl, fun s x => ?_, fun i => ?_⟩
  · simp [UciPackage.get]
  · simp

theorem storedInput_get {name : String} {c : UciSection} (hc : cake.get name = some c) :
    (storedInput cake sqm name).cake.get name = some c := by
  unfold storedInput UciPackage.get
  rw [show cake.sections[name]? = some c from hc]
  refine Std.ExtTreeMap.getElem?_ofList_of_mem (k := name) Std.ReflCmp.compare_self ?_ mem_cons_self
  exact pairwise_singleton _ _

theorem mem_ownedQueues {owner : String} :
    e ∈ (ownedQueues sqm owner).sections.toList ↔
      sqm.get e.1 = some e.2 ∧ e.2.get ownerOption = some owner := by
  rw [← get_ownedQueues]
  exact @mem_toList _ e.1 e.2

theorem Holds.next {done : List String} {name : String} {c : UciSection} (h : Holds cake sqm done v)
    (hc : cake.get name = some c) (hfresh : name ∉ done) :
    ∃ v', Views.addQueues (ownedQueues sqm name).sections.toList
        { v with cake := v.cake.put name c } = .ok v' ∧ Holds cake sqm (done ++ [name]) v' := by
  have hnew : ∀ e ∈ (ownedQueues sqm name).sections.toList, v.oldSqm.get e.1 = none := by
    intro e he
    obtain ⟨hget, howner⟩ := mem_ownedQueues.1 he
    cases hold : v.oldSqm.get e.1 with
    | none => rfl
    | some x =>
      obtain ⟨hx, n, hn, hxn⟩ := (h.stored e.1 x).1 hold
      rw [hget] at hx
      rw [← Option.some.inj hx, howner] at hxn
      exact absurd (Option.some.inj hxn ▸ hn) hfresh
  obtain ⟨v', hv', hcake, hold, hphysical⟩ := addQueues_ok
    (v := { v with cake := v.cake.put name c }) (toList_distinct _) hnew
  refine ⟨v', hv', ?_, fun s x => ?_, fun i => ?_⟩
  · rw [hcake]
    refine package_ext fun n => ?_
    rw [get_put, h.cake_eq]
    split
    · rename_i hn
      rw [← hn, hc]
    · rfl
  · rw [hold s x, mem_ownedQueues]
    rw [h.stored s x]
    constructor
    · rintro (⟨hx, n, hn, hxn⟩ | ⟨hx, hxn⟩)
      · exact ⟨hx, n, mem_append_left _ hn, hxn⟩
      · exact ⟨hx, name, mem_append_right _ mem_cons_self, hxn⟩
    · rintro ⟨hx, n, hn, hxn⟩
      rcases mem_append.1 hn with hn | hn
      · exact .inl ⟨hx, n, hn, hxn⟩
      · exact .inr ⟨hx, mem_singleton.1 hn ▸ hxn⟩
  · rw [hphysical i]
    rw [h.physical i]
    constructor
    · rintro (⟨s, x, n, hx, hn, hxn, hi⟩ | ⟨e, he, hi⟩)
      · exact ⟨s, x, n, hx, mem_append_left _ hn, hxn, hi⟩
      · obtain ⟨hx, hxn⟩ := mem_ownedQueues.1 he
        exact ⟨e.1, e.2, name, hx, mem_append_right _ mem_cons_self, hxn, hi⟩
    · rintro ⟨s, x, n, hx, hn, hxn, hi⟩
      rcases mem_append.1 hn with hn | hn
      · exact .inl ⟨s, x, n, hx, hn, hxn, hi⟩
      · exact .inr ⟨(s, x), mem_ownedQueues.2 ⟨hx, mem_singleton.1 hn ▸ hxn⟩, hi⟩

/-- **The stored inputs say together what the packages say** of the instances. -/
theorem addInputs_ok {names done : List String} (h : Holds cake sqm done v)
    (hnodup : (done ++ names).Nodup) (hconfigured : ∀ n ∈ names, ∃ c, cake.get n = some c) :
    ∃ v', Views.addInputs (names.map fun name => (name, storedInput cake sqm name)) v = .ok v' ∧
      Holds cake sqm (done ++ names) v' := by
  induction names generalizing done v with
  | nil => exact ⟨v, rfl, (append_nil done).symm ▸ h⟩
  | cons name rest ih =>
    obtain ⟨⟨c, hc⟩, hrest⟩ := forall_mem_cons.1 hconfigured
    have hfresh : name ∉ done := by
      intro hmem
      exact (nodup_append.1 hnodup).2.2 name hmem name mem_cons_self rfl
    obtain ⟨v₁, hv₁, h₁⟩ := h.next hc hfresh
    have hsplit : done ++ name :: rest = (done ++ [name]) ++ rest := by
      rw [append_assoc]
      rfl
    rw [hsplit] at hnodup ⊢
    obtain ⟨v', hv', h'⟩ := ih h₁ hnodup hrest
    refine ⟨v', ?_, h'⟩
    simp only [map_cons, Views.addInputs, storedInput_get hc, bind_ok]
    exact ⟨v₁, hv₁, hv'⟩

theorem removedNames_ok :
    (∃ names, removedNames v applied entries = .ok names) ↔
      ∀ e ∈ entries, ∃ gone, replaced v applied e = .ok gone := by
  induction entries with
  | nil => exact ⟨fun _ _ hnone => absurd hnone not_mem_nil, fun _ => ⟨[], rfl⟩⟩
  | cons e rest ih =>
    simp only [removedNames, bind_ok, pure, Except.pure, Except.ok.injEq, forall_mem_cons]
    rw [← ih]
    constructor
    · rintro ⟨_, gone, hgone, names, hnames, rfl⟩
      exact ⟨⟨gone, hgone⟩, names, hnames⟩
    · rintro ⟨⟨gone, hgone⟩, names, hnames⟩
      exact ⟨_, gone, hgone, names, hnames, rfl⟩

theorem mem_removedNames (h : removedNames v applied entries = .ok names) (name : String) :
    name ∈ names ↔ ∃ e ∈ entries, e.1 = name ∧ replaced v applied e = .ok true := by
  induction entries generalizing names with
  | nil =>
    cases h
    simp
  | cons e rest ih =>
    simp only [removedNames, bind_ok, pure, Except.pure, Except.ok.injEq] at h
    obtain ⟨gone, hgone, others, hothers, rfl⟩ := h
    rw [exists_mem_cons_iff, ← ih hothers]
    cases gone with
    | true => simp [hgone, eq_comm]
    | false => simp [hgone]

theorem replaced_ok :
    (∃ gone, replaced v applied e = .ok gone) ↔ ∀ owner, e.2.get ownerOption = some owner →
      owner ∉ applied → owner ≠ "" → v.oldSqm.get e.1 = none ∧
        ∀ i, e.2.get "interface" = some i → v.physical.contains i = false := by
  unfold replaced
  cases e.2.get ownerOption with
  | none => simp
  | some owner =>
    by_cases happlied : owner ∈ applied
    · simp [happlied]
    · by_cases hempty : owner = ""
      · subst hempty
        simp [happlied]
      · cases v.oldSqm.get e.1 with
        | some x => simp [happlied, hempty]
        | none =>
          cases e.2.get "interface" with
          | none => simp [happlied]
          | some i => cases hi : v.physical.contains i <;> simp [happlied, hempty, hi]

theorem replaced_true :
    replaced v applied e = .ok true ↔ ∃ owner ∈ applied, e.2.get ownerOption = some owner := by
  unfold replaced
  cases howner : e.2.get ownerOption with
  | none => simp
  | some owner =>
    by_cases happlied : owner ∈ applied
    · simp [happlied]
    · simp only [contains_iff_mem, happlied, if_false, Option.some.injEq, exists_eq_right']
      constructor
      · intro h
        split at h <;> cases h
      · exact fun h => absurd h id

def Undisturbed (sqm : UciPackage) (started : String → Prop) : Prop :=
  ∀ s x owner i s' x' n, sqm.get s = some x → x.get ownerOption = some owner → ¬started owner →
    owner ≠ "" → x.get "interface" = some i → sqm.get s' = some x' → started n →
    x'.get ownerOption = some n → x'.get "interface" ≠ some i

theorem Holds.undisturbed (h : Holds cake sqm names v) :
    (∀ e ∈ sqm.sections.toList, ∃ gone, replaced v names e = .ok gone) ↔
      Undisturbed sqm (· ∈ names) := by
  simp only [replaced_ok, Prod.forall, mem_toList]
  constructor
  · intro hall s x owner i s' x' n hx howner hother hne hi hx' hn hxn hi'
    have hfree := (hall s x hx owner howner hother hne).2 i hi
    rw [(h.physical i).2 ⟨s', x', n, hx', hn, hxn, hi'⟩] at hfree
    cases hfree
  · intro hfree s x hx owner howner hother hne
    constructor
    · cases hold : v.oldSqm.get s with
      | none => rfl
      | some y =>
        obtain ⟨hy, n, hn, hyn⟩ := (h.stored s y).1 hold
        rw [hx] at hy
        rw [← Option.some.inj hy, howner] at hyn
        exact absurd (Option.some.inj hyn ▸ hn) hother
    · intro i hi
      rw [Bool.eq_false_iff]
      intro hphysical
      obtain ⟨s', x', n, hx', hn, hxn, hi'⟩ := (h.physical i).1 hphysical
      exact hfree s x owner i s' x' n hx howner hother hne hi hx' hn hxn hi'

theorem Holds.merged {names removed : List String} (h : Holds cake sqm names v)
    (hremoved : removedNames v names sqm.sections.toList = .ok removed) :
    v.oldSqm.sections.toList.foldl (fun p entry => p.put entry.1 entry.2)
      (removed.foldl remove sqm) = sqm := by
  refine package_ext fun name => ?_
  obtain ⟨hin, hout⟩ := @get_foldl_put (removed.foldl remove sqm) _ name (toList_distinct v.oldSqm)
  cases hold : v.oldSqm.get name with
  | some x =>
    rw [hin x (mem_toList.2 hold)]
    exact ((h.stored name x).1 hold).1.symm
  | none =>
    have hnone : ∀ x, (name, x) ∉ v.oldSqm.sections.toList := by
      intro x hx
      rw [mem_toList.1 hx] at hold
      cases hold
    rw [hout hnone, get_foldl_remove]
    refine if_neg fun hmem => ?_
    obtain ⟨e, he, rfl, hgone⟩ := (mem_removedNames hremoved name).1 hmem
    obtain ⟨owner, happlied, howner⟩ := replaced_true.1 hgone
    have hget : sqm.get e.1 = some e.2 := mem_toList.1 he
    rw [(h.stored e.1 e.2).2 ⟨hget, owner, happlied, howner⟩] at hold
    cases hold

theorem pinned_eq {physical : Std.ExtTreeSet String}
    (h : ∀ i, physical.contains i = true → r.resolve i = .ok i) : pinned r physical = r := by
  have hresolve : (fun name => if physical.contains name then .ok name else r.resolve name) =
      r.resolve := by
    funext name
    split
    · rename_i hname
      rw [h name hname]
    · rfl
  exact congrArg (Resolver.mk · _) hresolve

/-- **A stop by what a start stored is the stop of its packages**, if nothing disturbs it. -/
theorem stopPlanFromViews_ok (hnodup : names.Nodup)
    (hconfigured : ∀ n ∈ names, ∃ c, cake.get n = some c)
    (hdevice : ∀ s x n i, sqm.get s = some x → n ∈ names → x.get ownerOption = some n → x.get
      "interface" = some i → r.resolve i = .ok i) {plan : ServiceStopPlan} :
    stopPlanFromViews cake sqm (names.map fun name => (name, storedInput cake sqm name)) r = .ok plan ↔
      Undisturbed sqm (· ∈ names) ∧ planStop cake sqm r = .ok plan := by
  obtain ⟨v, hv, hholds⟩ := @addInputs_ok cake sqm _ names _ holds_nil hnodup hconfigured
  rw [nil_append] at hholds
  have hpinned : pinned r v.physical = r := by
    refine pinned_eq fun i hi => ?_
    obtain ⟨s, x, n, hx, hn, hxn, hxi⟩ := (hholds.physical i).1 hi
    exact hdevice s x n i hx hn hxn hxi
  have happlied : (names.map fun name => (name, storedInput cake sqm name)).map Prod.fst = names := by
    rw [map_map]
    exact map_id names
  simp only [stopPlanFromViews, hv, happlied, bind_ok, ok.injEq, exists_eq_left', hpinned,
    hholds.cake_eq]
  rw [← hholds.undisturbed, ← removedNames_ok]
  constructor
  · rintro ⟨removed, hremoved, hplan⟩
    rw [hholds.merged hremoved] at hplan
    exact ⟨⟨removed, hremoved⟩, hplan⟩
  · rintro ⟨⟨removed, hremoved⟩, hplan⟩
    refine ⟨removed, hremoved, ?_⟩
    rw [hholds.merged hremoved]
    exact hplan

end CakeAutorate.Service
