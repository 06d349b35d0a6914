/-
# The queues that a start sets up

What a prepared start says of the packages that `uci` made: every instance is settled, none is in
conflict, and the start plan names the queues that are marked and enabled.  It names them all exactly
where the service reads the switches of an instance as the projection does: only `1` switches an
instance on here, and a `sqm_enabled` that is absent switches it off.
-/

import CakeAutorate.Service.Start

namespace CakeAutorate.Service

open Sqm List UciPackage ServiceStartPlan UciSection

variable {cake sqm : UciPackage} {r : Resolver}

/-- What `prepare` has seen to. -/
structure Prepared (r : Resolver) (k : StartCandidate) : Prop where
  safe : ∀ name c, k.cake.get name = some c → safeName name = true
  settled : ∀ name, InScope k.cake .all name → Settled k.cake r k.projection.conflicts k.sqm name
  clear : ∀ name, k.projection.conflicts.contains name = false
  planned : planStart k.cake k.sqm r k.projection = .ok k.plan

theorem settled_of_projection (hr : r.Settles)
    (hsafe : ∀ name c, cake.get name = some c → safeName name = true)
    {plan : SqmProjectionPlan} (h : (planProjection cake sqm r .all).1 = .ok plan)
    (hactions : plan.actions = []) : (planProjection cake sqm r .all).2 = sqm ∧
      ∀ name, InScope cake .all name → Settled cake r plan.conflicts sqm name := by
  unfold planProjection at h ⊢
  split at h
  · cases h
  rename_i t ht
  cases h
  simp only [planProjectionInner, bind_ok] at ht
  obtain ⟨conflicts, -, names, hnames, hall⟩ := ht
  have hscope := scopedInstances_ok hnames
  have hnonempty : ∀ n ∈ [] ++ names, n ≠ "" := by
    intro n hn
    obtain ⟨-, c, hc, -⟩ := (hscope n).1 hn
    exact CakePackage.name_ne ⟨cake, hsafe⟩ hc
  obtain ⟨hreaches, hsettled⟩ := projectAll_ok hr hnonempty hall (forall_mem_nil _)
  obtain ⟨new, hnew, hsqm, -⟩ := hreaches.replayed
  rw [hactions] at hnew
  obtain rfl : new = [] := by simpa using hnew.symm
  have hsame : t.sqm = sqm := hsqm
  rw [hreaches.conflicts]
  refine ⟨hsame, fun name hname => ?_⟩
  exact hsame ▸ hsettled name ((hscope name).2 hname)

/-- **A start that is prepared.** -/
theorem prepare_ok {outside : Outside} {k : StartCandidate} (hr : r.Settles)
    (h : prepare outside r cake sqm = .ok k) : Prepared r k := by
  simp only [prepare, bind_ok, check_ok] at h
  obtain ⟨presets, -, projection, -, u, hclear, expected, -, made, hmade, hcheck⟩ := h
  simp only [checkCandidate, bind_ok, check_ok, pure, Except.pure, Except.ok.injEq] at hcheck
  obtain ⟨again, -, u₁, -, verified, hverified, u₂, hsame, u₃, -, plan, hplan, u₄, -, rfl⟩ := hcheck
  simp only [Bool.and_eq_true, List.isEmpty_iff, decide_eq_true_eq] at hsame
  obtain ⟨⟨⟨hactions, -⟩, -⟩, hconflicts⟩ := hsame
  obtain ⟨hresult, hsettled⟩ := settled_of_projection hr (outside.names_safe hmade) hverified hactions
  refine ⟨outside.names_safe hmade, hsettled, fun name => ?_, ?_⟩
  · show verified.conflicts.contains name = false
    rw [hconflicts]
    rw [Std.ExtTreeSet.isEmpty_iff.1 hclear]
    exact Std.ExtTreeSet.contains_empty
  · rw [hresult] at hplan
    exact hplan

variable {conflicts : Std.ExtTreeSet String} {entries : List (String × UciSection)}

/-- **The plan lists what becomes of the sections**, one after the other. -/
theorem startAll_ok {p q : ServiceStartPlan} (h : startAll sqm r conflicts entries p = .ok q) :
    (∀ e ∈ entries, ∃ entry, startEntry sqm r conflicts e.1 e.2 = .ok entry) ∧
    (∀ name, name ∈ q.instances ↔ name ∈ p.instances ∨ ∃ e ∈ entries, e.1 = name ∧
      ∃ entry, startEntry sqm r conflicts e.1 e.2 = .ok entry ∧ entry ≠ .skipped) ∧
    ∃ specs, q.managed = p.managed ++ specs ∧
      (∀ spec, spec ∈ specs ↔ ∃ e ∈ entries, startEntry sqm r conflicts e.1 e.2 = .ok (.managed spec)) ∧
      ((∀ e ∈ entries, ∀ spec, startEntry sqm r conflicts e.1 e.2 = .ok (.managed spec) →
        spec.instance_ = e.1) → (specs.map (·.instance_)).Sublist (entries.map Prod.fst)) := by
  induction entries generalizing p with
  | nil =>
    cases h
    refine ⟨nofun, fun name => by simp, [], (append_nil _).symm, fun spec => by simp, fun _ => ?_⟩
    exact Sublist.refl _
  | cons e rest ih =>
    simp only [startAll, bind_ok] at h
    obtain ⟨entry, hentry, p₁, hpush, hrest⟩ := h
    obtain ⟨hall, hinstances, specs, hspecs, hmem, hsub⟩ := ih hrest
    refine ⟨forall_mem_cons.2 ⟨⟨entry, hentry⟩, hall⟩, ?_⟩
    cases entry with
    | skipped =>
      cases hpush
      refine ⟨fun n => ?_, specs, hspecs, fun spec => ?_, fun hnames => ?_⟩
      · rw [hinstances n]
        simp [hentry]
      · rw [hmem spec]
        simp [hentry]
      · exact (hsub fun e he => hnames e (mem_cons_of_mem _ he)).cons _
    | manual =>
      simp only [push, pushInstance, bind_ok, check_ok, pure, Except.pure,
        Except.ok.injEq] at hpush
      obtain ⟨_, ⟨_, -, _, -, rfl⟩, rfl⟩ := hpush
      refine ⟨fun n => ?_, specs, hspecs, fun spec => ?_, fun hnames => ?_⟩
      · rw [hinstances n]
        simp [hentry, or_assoc, eq_comm]
      · rw [hmem spec]
        simp [hentry]
      · exact (hsub fun e he => hnames e (mem_cons_of_mem _ he)).cons _
    | managed spec₁ =>
      simp only [push, pushInstance, bind_ok, check_ok, pure, Except.pure,
        Except.ok.injEq] at hpush
      obtain ⟨_, ⟨_, -, _, -, rfl⟩, rfl⟩ := hpush
      refine ⟨fun n => ?_, spec₁ :: specs, ?_, fun spec => ?_, fun hnames => ?_⟩
      · rw [hinstances n]
        simp [hentry, or_assoc, eq_comm]
      · rw [hspecs, append_assoc]
        rfl
      · rw [mem_cons, hmem spec]
        simp [hentry, eq_comm]
      · rw [map_cons, map_cons, hnames _ mem_cons_self spec₁ hentry]
        exact (hsub fun e he => hnames e (mem_cons_of_mem _ he)).cons_cons _

theorem startAll_nodup {p q : ServiceStartPlan} (h : startAll sqm r conflicts entries p = .ok q)
    (hp : p.instances.Nodup) : q.instances.Nodup := by
  induction entries generalizing p with
  | nil =>
    cases h
    exact hp
  | cons e rest ih =>
    simp only [startAll, bind_ok] at h
    obtain ⟨entry, -, p₁, hpush, hrest⟩ := h
    have hpushed : ∀ instances, pushInstance p.instances e.1 = .ok instances → instances.Nodup := by
      intro instances hinstances
      simp only [pushInstance, bind_ok, check_ok, pure, Except.pure, Except.ok.injEq] at hinstances
      obtain ⟨-, -, -, hfresh, rfl⟩ := hinstances
      rw [Bool.not_eq_true', ← Bool.not_eq_true, contains_iff_mem] at hfresh
      refine nodup_append.2 ⟨hp, pairwise_singleton _ _, ?_⟩
      intro a ha b hb hab
      exact hfresh (mem_singleton.1 hb ▸ hab ▸ ha)
    refine ih hrest ?_
    cases entry with
    | skipped =>
      cases hpush
      exact hp
    | manual =>
      simp only [push, bind_ok, pure, Except.pure, Except.ok.injEq] at hpush
      obtain ⟨instances, hinstances, rfl⟩ := hpush
      exact hpushed instances hinstances
    | managed spec =>
      simp only [push, bind_ok, pure, Except.pure, Except.ok.injEq] at hpush
      obtain ⟨instances, hinstances, rfl⟩ := hpush
      exact hpushed instances hinstances

variable {name : String} {c : UciSection}

/-- The switches of an instance, as the service reads them. -/
structure Switched (c : UciSection) : Prop where
  enabled : c.get "enabled" = some "1"
  managed : c.get "manage_sqm" = none ∨ c.get "manage_sqm" = some "1"
  sqmEnabled : c.get "sqm_enabled" = some "1"

theorem boolOption_true {key : String} {default : Bool} : boolOption c key default = true ↔
    (default = true ∧ c.get key = none) ∨ c.get key = some "1" := by
  unfold boolOption
  cases c.get key with
  | none => simp
  | some value => simp

variable {target : String}

theorem queueMatches_true {x : UciSection} (h : queueMatches r target x = .ok true) :
    x.sectionType = "queue" ∧ x.get "enabled" = some "1" ∧
      ∃ interface, nonempty x "interface" = some interface ∧ r.resolve interface = .ok target := by
  unfold queueMatches at h
  split at h
  · cases h
  · rename_i hqueue
    rw [not_or, not_not, not_not] at hqueue
    refine ⟨hqueue.1, hqueue.2, ?_⟩
    split at h
    · cases h
    · rename_i interface hinterface
      simp only [bind_ok, pure, Except.pure, Except.ok.injEq, beq_iff_eq] at h
      obtain ⟨resolved, hresolved, rfl⟩ := h
      exact ⟨interface, hinterface, hresolved⟩

theorem findMatch_ok {found result : Option (String × UciSection)}
    (h : findMatch r target entries found = .ok result) :
    (∀ e, result = some e → found = some e ∨ (e ∈ entries ∧ queueMatches r target e.2 = .ok true)) ∧
    ((found.isSome = true ∨ ∃ e ∈ entries, queueMatches r target e.2 = .ok true) →
      result.isSome = true) := by
  induction entries generalizing found with
  | nil =>
    cases h
    refine ⟨fun e he => .inl he, ?_⟩
    rintro (hfound | ⟨e, he, -⟩)
    · exact hfound
    · cases he
  | cons entry rest ih =>
    simp only [findMatch, bind_ok] at h
    obtain ⟨same, hsame, h⟩ := h
    cases same with
    | false =>
      obtain ⟨hfrom, hsome⟩ := ih h
      refine ⟨fun e he => ?_, ?_⟩
      · rcases hfrom e he with hfound | ⟨hmem, hmatch⟩
        · exact .inl hfound
        · exact .inr ⟨mem_cons_of_mem _ hmem, hmatch⟩
      · rintro (hfound | ⟨e, he, hmatch⟩)
        · exact hsome (.inl hfound)
        · rcases mem_cons.1 he with rfl | hrest
          · rw [hsame] at hmatch
            cases hmatch
          · exact hsome (.inr ⟨e, hrest, hmatch⟩)
    | true =>
      simp only [Bool.not_true, Bool.false_eq_true, if_false, bind_ok] at h
      obtain ⟨-, -, h⟩ := h
      obtain ⟨hfrom, hsome⟩ := ih h
      refine ⟨fun e he => ?_, fun _ => hsome (.inl rfl)⟩
      rcases hfrom e he with hfound | ⟨hmem, hmatch⟩
      · cases hfound
        exact .inr ⟨mem_cons_self, hsame⟩
      · exact .inr ⟨mem_cons_of_mem _ hmem, hmatch⟩

theorem findBackingQueue_some {configured : Option String} {section_ : String} {x : UciSection}
    (h : findBackingQueue sqm configured target r = .ok (some (section_, x))) :
    sqm.get section_ = some x ∧ queueMatches r target x = .ok true := by
  cases configured with
  | none =>
    rcases (findMatch_ok h).1 _ rfl with hnone | ⟨hmem, hmatch⟩
    · cases hnone
    · exact ⟨mem_toList.1 hmem, hmatch⟩
  | some name =>
    simp only [findBackingQueue] at h
    split at h
    · cases h
    · rename_i queue hqueue
      simp only [bind_ok, pure, Except.pure, Except.ok.injEq] at h
      obtain ⟨same, hsame, hsome⟩ := h
      split at hsome
      · obtain ⟨rfl, rfl⟩ := Prod.mk.inj (Option.some.inj hsome)
        rename_i htrue
        exact ⟨hqueue, htrue ▸ hsame⟩
      · cases hsome

/-- **What a managed entry says.** -/
structure ManagedEntry (sqm : UciPackage) (r : Resolver) (name : String) (c : UciSection)
    (spec : ManagedSqmAttestationSpec) : Prop where
  sectionType : c.sectionType = "cake_autorate"
  switched : Switched c
  instance_eq : spec.instance_ = name
  download_eq : spec.downloadInterface = downloadInterface c spec.targetInterface
  queue : ∃ x, sqm.get spec.sqmSection = some x ∧ x.get ownerOption = some name ∧
    queueMatches r spec.targetInterface x = .ok true

theorem planManaged_managed {spec : ManagedSqmAttestationSpec}
    (h : planManaged sqm r name c target = .ok (.managed spec)) :
    spec.instance_ = name ∧ spec.targetInterface = target ∧
      spec.downloadInterface = downloadInterface c target ∧
      ∃ x, sqm.get spec.sqmSection = some x ∧ x.get ownerOption = some name ∧
        queueMatches r target x = .ok true := by
  simp only [planManaged, bind_ok] at h
  obtain ⟨found, hfound, h⟩ := h
  cases found with
  | none => cases h
  | some entry =>
    obtain ⟨section_, x⟩ := entry
    obtain ⟨hx, hmatch⟩ := findBackingQueue_some hfound
    dsimp only at h
    split at h
    · cases h
    · rename_i howner
      simp only [bind_ok, pure, Except.pure, Except.ok.injEq, StartEntry.managed.injEq] at h
      obtain ⟨download, -, upload, -, -, -, -, -, rfl⟩ := h
      exact ⟨rfl, rfl, rfl, x, hx, not_not.1 howner, hmatch⟩

theorem startEntry_managed {spec : ManagedSqmAttestationSpec}
    (h : startEntry sqm r conflicts name c = .ok (.managed spec)) : ManagedEntry sqm r name c spec := by
  unfold startEntry at h
  split at h
  · cases h
  rename_i hhead
  rw [not_or, not_not, Bool.not_eq_false, boolOption_true] at hhead
  split at h
  · cases h
  split at h
  · cases h
  rename_i hmanage
  rw [Bool.not_eq_false, boolOption_true] at hmanage
  split at h
  · cases h
  rename_i hsqm
  rw [Bool.not_eq_false, boolOption_true] at hsqm
  split at h
  · cases h
  simp only [bind_ok] at h
  obtain ⟨-, -, targetName, -, target, -, h⟩ := h
  obtain ⟨hinstance, htarget, hdownload, hqueue⟩ := planManaged_managed h
  refine ⟨hhead.1, ⟨?_, ?_, ?_⟩, hinstance, htarget ▸ hdownload, htarget ▸ hqueue⟩
  · rcases hhead.2 with ⟨hfalse, -⟩ | hone
    · cases hfalse
    · exact hone
  · rcases hmanage with ⟨-, hnone⟩ | hone
    · exact .inl hnone
    · exact .inr hone
  · rcases hsqm with ⟨hfalse, -⟩ | hone
    · cases hfalse
    · exact hone

theorem firstNonempty_append {names : List String} (more : List String) {value : String}
    (h : firstNonempty c names = some value) : firstNonempty c (names ++ more) = some value := by
  unfold firstNonempty at h ⊢
  rw [filterMap_append, find?_append, h]
  rfl

theorem startDirection_eq (hknown : knownDirection c.direction = true) :
    startDirection c = c.direction := by
  unfold startDirection direction nonempty
  cases hget : c.get "sqm_direction_mode" with
  | none => rfl
  | some value =>
    have hne : value.isEmpty = false := by
      by_contra hempty
      rw [Bool.not_eq_false, String.isEmpty_iff] at hempty
      rw [direction, hget, hempty] at hknown
      exact absurd hknown (by decide +kernel)
    simp [Option.filter, hne]

variable {section_ target : String} {x : UciSection}

theorem settled_matches (hr : r.Settles) (h : QueueSettled r name c section_ target sqm x)
    (hactive : c.active = true) : queueMatches r target x = .ok true := by
  obtain ⟨configured, -, hresolved⟩ := h.configured
  obtain ⟨hresolve, hne⟩ := resolveCached_ok (resolveCached_settles hr hresolved)
  have henabled : x.get "enabled" = some "1" := by
    rw [h.enabled, hactive]
    rfl
  have hinterface : nonempty x "interface" = some target := by
    simp [nonempty, h.target_eq, Option.filter, hne]
  unfold queueMatches
  rw [if_neg (by rw [not_or, not_not, not_not]; exact ⟨h.sectionType, henabled⟩)]
  simp [hinterface, hresolve, bind, Except.bind, pure, Except.pure]

theorem settled_only_match (h : QueueSettled r name c section_ target sqm x)
    (hactive : c.active = true) {other : String} {y : UciSection} (hy : sqm.get other = some y)
    (hmatch : queueMatches r target y = .ok true) : other = section_ := by
  by_contra hne
  obtain ⟨htype, henabled, interface, hinterface, hresolve⟩ := queueMatches_true hmatch
  obtain ⟨hget, hnonempty⟩ := Option.filter_eq_some_iff.1 hinterface
  have hinterfaceNe : interface ≠ "" := by
    rintro rfl
    exact absurd hnonempty (by decide +kernel)
  obtain ⟨resolved, hresolved, hother⟩ :=
    (h.active hactive).clear other y hy hne htype henabled interface hget hinterfaceNe
  rw [(resolveCached_ok hresolved).1] at hresolve
  exact hother (Except.ok.inj hresolve)

section

variable (hr : r.Settles) (h : QueueSettled r name c (c.sqmSection name) target sqm x)
  (hactive : c.active = true)
include hr h hactive

theorem settled_found {result : Option (String × UciSection)}
    (hfound : findBackingQueue sqm (nonempty c "sqm_section") target r = .ok result) :
    result = some (c.sqmSection name, x) := by
  have hmatches := settled_matches hr h hactive
  have hresult : ∀ e, result = some e → e = (c.sqmSection name, x) := by
    rintro ⟨other, y⟩ rfl
    obtain ⟨hy, hmatch⟩ := findBackingQueue_some hfound
    obtain rfl := settled_only_match h hactive hy hmatch
    rw [h.get] at hy
    rw [Option.some.inj hy]
  have hsome : result.isSome = true := by
    cases hconfigured : nonempty c "sqm_section" with
    | none =>
      rw [hconfigured] at hfound
      refine (findMatch_ok hfound).2 (.inr ⟨(c.sqmSection name, x), ?_, hmatches⟩)
      exact mem_toList.2 h.get
    | some configured =>
      have hsection : c.sqmSection name = configured := by
        have hfilter : (c.get "sqm_section").filter (fun value => !value.isEmpty) = some configured :=
          hconfigured
        rw [sqmSection, hfilter, Option.getD_some]
      rw [hconfigured] at hfound
      simp only [findBackingQueue, ← hsection, h.get, hmatches, bind, Except.bind, pure, Except.pure,
        if_true, Except.ok.injEq] at hfound
      rw [← hfound]
      rfl
  obtain ⟨e, he⟩ := Option.isSome_iff_exists.1 hsome
  rw [he, hresult e he]

/-- **An active instance with its switches at `1` is started with its queue.** -/
theorem startEntry_of_switched (htype : c.sectionType = "cake_autorate")
    (hknown : knownDirection c.direction = true) (hclear : conflicts.contains name = false)
    (hswitched : Switched c) {entry : StartEntry}
    (hentry : startEntry sqm r conflicts name c = .ok entry) :
    ∃ spec, entry = .managed spec ∧ spec.sqmSection = c.sqmSection name := by
  have henabled : boolOption c "enabled" false = true := boolOption_true.2 (.inr hswitched.enabled)
  have hsqm : boolOption c "sqm_enabled" false = true := boolOption_true.2 (.inr hswitched.sqmEnabled)
  have hmanage : boolOption c "manage_sqm" true = true :=
    boolOption_true.2 (hswitched.managed.imp (⟨rfl, ·⟩) id)
  have hdirection : startDirection c ≠ "off" := by
    rw [startDirection_eq hknown]
    simp only [active, Bool.and_eq_true, bne_iff_ne] at hactive
    exact hactive.2
  obtain ⟨configured, hconfigured, hresolved⟩ := h.configured
  have htargetName : firstNonempty c ["sqm_interface", "ul_if", "wan_if"] = some configured :=
    firstNonempty_append ["wan_if"] hconfigured
  have hresolve := (resolveCached_ok hresolved).1
  unfold startEntry at hentry
  rw [if_neg (by rw [not_or, not_not, Bool.not_eq_false]; exact ⟨htype, henabled⟩),
    if_neg (by rw [hclear]; decide), if_neg (by rw [hmanage]; decide), if_neg (by rw [hsqm]; decide),
    if_neg hdirection] at hentry
  simp only [bind_ok, required_ok, htargetName, Option.some.injEq, exists_eq_left', hresolve,
    Except.ok.injEq] at hentry
  obtain ⟨-, -, hplan⟩ := hentry
  simp only [planManaged, bind_ok] at hplan
  obtain ⟨result, hresult, hplan⟩ := hplan
  obtain rfl := settled_found hr h hactive hresult
  simp only [h.owner, ne_eq, not_true_eq_false, if_false, bind_ok, pure, Except.pure,
    Except.ok.injEq] at hplan
  obtain ⟨download, -, upload, -, -, -, -, -, rfl⟩ := hplan
  exact ⟨_, rfl, rfl⟩

end

namespace Prepared

variable {k : StartCandidate}

theorem mem_instances (h : Prepared r k) : name ∈ k.plan.instances ↔ ∃ c, k.cake.get name = some c ∧
    ∃ entry, startEntry k.sqm r k.projection.conflicts name c = .ok entry ∧ entry ≠ .skipped := by
  obtain ⟨-, hinstances, -⟩ := startAll_ok h.planned
  rw [hinstances name]
  constructor
  · rintro (hnone | ⟨e, he, rfl, hentry⟩)
    · cases hnone
    · exact ⟨e.2, mem_toList.1 he, hentry⟩
  · rintro ⟨c, hc, hentry⟩
    exact .inr ⟨(name, c), mem_toList.2 hc, rfl, hentry⟩

variable {spec : ManagedSqmAttestationSpec}

theorem mem_managed (h : Prepared r k) : spec ∈ k.plan.managed ↔
    ∃ name c, k.cake.get name = some c ∧
      startEntry k.sqm r k.projection.conflicts name c = .ok (.managed spec) := by
  obtain ⟨-, -, specs, hspecs, hmem, -⟩ := startAll_ok h.planned
  obtain rfl : k.plan.managed = specs := hspecs
  rw [hmem spec]
  constructor
  · rintro ⟨e, he, hentry⟩
    exact ⟨e.1, e.2, mem_toList.1 he, hentry⟩
  · rintro ⟨name, c, hc, hentry⟩
    exact ⟨(name, c), mem_toList.2 hc, hentry⟩

theorem entry_ok (h : Prepared r k) (hc : k.cake.get name = some c) :
    ∃ entry, startEntry k.sqm r k.projection.conflicts name c = .ok entry := by
  obtain ⟨hall, -⟩ := startAll_ok h.planned
  exact hall (name, c) (mem_toList.2 hc)

theorem instances_nodup (h : Prepared r k) : (k.plan.managed.map (·.instance_)).Nodup := by
  obtain ⟨-, -, specs, hspecs, -, hsub⟩ := startAll_ok h.planned
  obtain rfl : k.plan.managed = specs := hspecs
  refine (hsub fun e he spec hentry => (startEntry_managed hentry).instance_eq).nodup ?_
  have hkeys := Std.ExtTreeMap.nodup_keys (t := k.cake.sections)
  rwa [← Std.ExtTreeMap.map_fst_toList_eq_keys] at hkeys

theorem managedEntry (h : Prepared r k) (hspec : spec ∈ k.plan.managed) :
    ∃ c, k.cake.get spec.instance_ = some c ∧ ManagedEntry k.sqm r spec.instance_ c spec := by
  obtain ⟨name, c, hc, hentry⟩ := h.mem_managed.1 hspec
  have hmanaged := startEntry_managed hentry
  rw [hmanaged.instance_eq]
  exact ⟨c, hc, hmanaged⟩

end Prepared

end CakeAutorate.Service
