/-
# A projection is exact and final

The argument is about one instance at a time.  `Settled` says of a package that projecting an
instance would change nothing.  Projecting an instance settles it, and projecting another one leaves
it settled: the other one cannot touch a queue that is marked as this one's, marks nothing as this
one's, and is refused if it wants this one's device.
-/

import CakeAutorate.Sqm.Edits

namespace CakeAutorate.Sqm

open Planning List Option Prod Except Std.ExtTreeMap UciPackage

/-- The names that `rateOptions` writes. -/
def rateNames : List String := ["download", "upload"] ++ fixedOptions.map (·.2.1) ++ ["qdisc"]

/-- The names that `extraOptions` writes. -/
def extraNames : List String := optionalOptions.map snd

variable (c : UciSection)

theorem rateOptions_names (download upload : String) :
    (rateOptions c download upload).map fst = rateNames := rfl

theorem extraOptions_names : (extraOptions c).map fst = extraNames := rfl

theorem mqOptions_names (queue : Option UciSection) (useMq : Bool) :
    ∀ o ∈ (mqOptions c queue useMq).map fst, o = "use_mq" := by
  unfold mqOptions
  split
  · intro o ho
    exact mem_singleton.1 ho
  · intro o ho
    cases ho

theorem rateNames_nodup : rateNames.Nodup := by decide +kernel

theorem extraNames_nodup : extraNames.Nodup := by decide +kernel

theorem mqOptions_nodup (queue : Option UciSection) (useMq : Bool) :
    ((mqOptions c queue useMq).map fst).Nodup := by
  unfold mqOptions
  split
  · exact pairwise_singleton _ _
  · exact List.Pairwise.nil

variable {queue target : String} {x c : UciSection} {s t : Planning} {sqm : UciPackage}

theorem Planning.Has.of_kept {x' : UciSection} {options : List (String × Option String)}
    (h : Has queue x options) (hkept : ∀ o ∈ options.map fst, x'.get o = x.get o) :
    Has queue x' options := by
  intro a ha
  exact ⟨(hkept a.1 (mem_map_of_mem ha)).trans (h a ha).1, (h a ha).2⟩

variable {r : Resolver} {cake : UciPackage}

/-- The options of an active queue are those that its instance asks for, and its device is free. -/
structure ActiveSettled (r : Resolver) (c : UciSection) (queue target : String) (sqm : UciPackage)
    (x : UciSection) : Prop where
  intent : ∃ intent, validate c.options (x.get "use_mq") r.supportsCakeMq = .ok intent ∧
    Has queue x (mqOptions c (some x) intent.useMq)
  clear : Clear sqm r queue target
  rates : ∃ download upload, firstNonempty c ["sqm_download", "base_dl_shaper_rate_kbps"] = some
    download ∧
    firstNonempty c ["sqm_upload", "base_ul_shaper_rate_kbps"] = some upload ∧
    Has queue x (rateOptions c download upload)
  extra : Has queue x (extraOptions c)

/-- A queue has what every managed queue has, and its instance owns no other. -/
structure QueueSettled (r : Resolver) (name : String) (c : UciSection) (queue target : String)
    (sqm : UciPackage) (x : UciSection) : Prop where
  get : sqm.get queue = some x
  sectionType : x.sectionType = "queue"
  free : Free sqm name (some queue)
  head : Has queue x (headOptions name c.active)
  configured : ∃ configured, firstNonempty c ["sqm_interface", "ul_if"] = some configured ∧
    resolveCached r configured = .ok target
  interface : Has queue x [("interface", some target)]
  active : c.active = true → ActiveSettled r c queue target sqm x

/-- What becomes of an instance: it is not managed or in conflict and owns nothing, or it has its
queue. -/
inductive Fate (r : Resolver) (conflicts : Std.ExtTreeSet String) (sqm : UciPackage) (name : String)
    (c : UciSection) : Prop
  | unmanaged (hmanages : c.manages = false) (hfree : Free sqm name none)
  | conflicting (hmanages : c.manages = true) (hdirection : knownDirection c.direction = true)
      (hconflict : conflicts.contains name = true) (hfree : Free sqm name none)
  | queued (hmanages : c.manages = true) (hdirection : knownDirection c.direction = true)
      (hconflict : conflicts.contains name = false) (target : String) (x : UciSection)
      (hqueue : QueueSettled r name c (c.sqmSection name) target sqm x)

/-- **Projecting an instance would change nothing.** -/
def Settled (cake : UciPackage) (r : Resolver) (conflicts : Std.ExtTreeSet String) (sqm : UciPackage)
    (name : String) : Prop :=
  ∃ c, cake.get name = some c ∧ safeName (c.sqmSection name) = true ∧ Fate r conflicts sqm name c

theorem required_ok {value : Option String} {message v : String} :
    required value message = .ok v ↔ value = some v := by
  cases value <;> simp [required]

variable {name : String}

theorem projectActive_noop (hx : s.sqm.get queue = some x)
    (h : ActiveSettled r c queue target s.sqm x) :
    projectActive r name c queue target s = .ok (s.withTarget c target).managed := by
  obtain ⟨intent, hintent, hmq⟩ := h.intent
  obtain ⟨download, upload, hdownload, hupload, hrates⟩ := h.rates
  have hx' : (s.withTarget c target).sqm.get queue = some x := hx
  simp only [projectActive, bind_ok, hx, bind_some]
  refine ⟨intent, hintent, (), rejectUnmanagedConflicts_ok.2 h.clear, download,
    required_ok.2 hdownload, upload, required_ok.2 hupload, _, assignAll_noop hx' hrates, _, ?_, _,
    assignAll_noop hx' h.extra, rfl⟩
  rw [hx']
  exact assignAll_noop hx' hmq

/-- A planning with the same package, actions and conflicts. -/
structure Same (s t : Planning) : Prop where
  sqm : t.sqm = s.sqm
  actions : t.plan.actions = s.plan.actions
  conflicts : t.plan.conflicts = s.plan.conflicts

theorem Same.trans {u : Planning} (h : Same s t) (h' : Same t u) : Same s u :=
  ⟨h'.sqm.trans h.sqm, h'.actions.trans h.actions, h'.conflicts.trans h.conflicts⟩

theorem projectQueue_noop (h : QueueSettled r name c queue target s.sqm x) :
    ∃ t, projectQueue r name c queue s = .ok t ∧ Same s t := by
  obtain ⟨configured, hconfigured, htarget⟩ := h.configured
  have howner : x.get ownerOption = some name := (h.head _ mem_cons_self).1
  have hown : (!((s.sqm.get queue).bind (·.get ownerOption)).any fun owner =>
      !owner.isEmpty && owner != name) = true := by
    rw [h.get, bind_some, howner]
    simp
  have hinterface : assignAll queue [("interface", some target)] s = .ok s :=
    assignAll_noop h.get h.interface
  cases hactive : c.active with
  | false =>
    refine ⟨s.managed, ?_, ⟨rfl, rfl, rfl⟩⟩
    have hhead := hactive ▸ assignAll_noop h.get h.head
    simp only [projectQueue, bind_ok, check_ok, hactive, Bool.false_eq_true, if_false]
    exact ⟨(), hown, s, cleanupStale_noop h.free, s, ensureQueue_noop h.get h.sectionType, s, hhead,
      configured, required_ok.2 hconfigured, target, htarget, s, hinterface, rfl⟩
  | true =>
    refine ⟨(s.withTarget c target).managed, ?_, ⟨rfl, rfl, rfl⟩⟩
    have hhead := hactive ▸ assignAll_noop h.get h.head
    simp only [projectQueue, bind_ok, check_ok, hactive, if_true]
    exact ⟨(), hown, s, cleanupStale_noop h.free, s, ensureQueue_noop h.get h.sectionType, s, hhead,
      configured, required_ok.2 hconfigured, target, htarget, s, hinterface,
      projectActive_noop h.get (h.active hactive)⟩

/-- **Nothing is done for a settled instance.** -/
theorem Settled.noop (h : Settled cake r s.plan.conflicts s.sqm name) :
    ∃ t, projectInstance cake r name s = .ok t ∧ Same s t := by
  obtain ⟨c, hc, hsafe, hfate⟩ := h
  simp only [projectInstance, hc, hsafe, Bool.not_true, Bool.false_eq_true, if_false]
  cases hfate with
  | unmanaged hmanages hfree =>
    simp only [hmanages, Bool.not_false, if_true]
    exact ⟨s, cleanupStale_noop hfree, rfl, rfl, rfl⟩
  | conflicting hmanages hdirection hconflict hfree =>
    simp only [hmanages, hdirection, hconflict, Bool.not_true, Bool.false_eq_true, if_false, if_true]
    exact ⟨s, cleanupStale_noop hfree, rfl, rfl, rfl⟩
  | queued hmanages hdirection hconflict target x hqueue =>
    simp only [hmanages, hdirection, hconflict, Bool.not_true, Bool.false_eq_true, if_false]
    exact projectQueue_noop hqueue

theorem Clear.of_reaches (h : Clear s.sqm r queue target) (hreaches : Reaches (· = queue) s t) :
    Clear t.sqm r queue target := by
  intro name x hx hname
  rw [hreaches.get hname] at hx
  exact h name x hx hname

theorem mq_settled {x' : UciSection} {intent : CakeIntent}
    (hintent : validate c.options (x.get "use_mq") r.supportsCakeMq = .ok intent)
    (hhas : Has queue x' (mqOptions c (some x) intent.useMq))
    (hother : mqOptions c (some x) intent.useMq = [] → x'.get "use_mq" = x.get "use_mq") :
    validate c.options (x'.get "use_mq") r.supportsCakeMq = .ok intent ∧
      Has queue x' (mqOptions c (some x') intent.useMq) := by
  by_cases hwritten : (intent.useMq || (c.get "sqm_use_mq").isSome ||
      ((some x).bind (·.get "use_mq")).isSome) = true
  · have hlist : mqOptions c (some x) intent.useMq = [("use_mq", some (flag intent.useMq))] :=
      if_pos hwritten
    rw [hlist] at hhas
    have hvalue : x'.get "use_mq" = some (flag intent.useMq) := (hhas _ mem_cons_self).1
    have hlist' : mqOptions c (some x') intent.useMq = [("use_mq", some (flag intent.useMq))] :=
      if_pos (by rw [bind_some, hvalue]; simp)
    rw [hvalue, hlist']
    exact ⟨validate_flag hintent, hhas⟩
  · have hlist : mqOptions c (some x) intent.useMq = [] := if_neg hwritten
    have hsame := hother hlist
    have hlist' : mqOptions c (some x') intent.useMq = [] :=
      if_neg (by rw [bind_some, hsame]; exact hwritten)
    rw [hsame, hlist']
    exact ⟨hintent, forall_mem_nil _⟩

def activeNames : List String := rateNames ++ ["use_mq"] ++ extraNames

theorem projectActive_ok (hx : s.sqm.get queue = some x)
    (h : projectActive r name c queue target s = .ok t) :
    Reaches (· = queue) s t ∧ ∃ x', t.sqm.get queue = some x' ∧ x'.sectionType = x.sectionType ∧
      ActiveSettled r c queue target t.sqm x' ∧ ∀ o, o ∉ activeNames → x'.get o = x.get o := by
  simp only [projectActive, bind_ok, hx, bind_some, pure, Except.pure, Except.ok.injEq] at h
  obtain ⟨intent, hintent, _, hreject, download, hdownload, upload, hupload, s₁, hrates, s₂, hmq, s₃,
    hextra, rfl⟩ := h
  have hx₀ : (s.withTarget c target).sqm.get queue = some x := hx
  obtain ⟨hreaches₁, x₁, hx₁, htype₁, hhas₁, hother₁⟩ :=
    assignAll_ok (rateOptions_names c download upload ▸ rateNames_nodup) hrates hx₀
  rw [hx₁] at hmq
  obtain ⟨hreaches₂, x₂, hx₂, htype₂, hhas₂, hother₂⟩ :=
    assignAll_ok (mqOptions_nodup c _ _) hmq hx₁
  obtain ⟨hreaches₃, x₃, hx₃, htype₃, hhas₃, hother₃⟩ :=
    assignAll_ok (extraOptions_names c ▸ extraNames_nodup) hextra hx₂
  rw [rateOptions_names] at hother₁
  rw [extraOptions_names] at hother₃
  have hmqnames := mqOptions_names c (some x₁) intent.useMq
  have hkept₂ : ∀ o, o ≠ "use_mq" → x₂.get o = x₁.get o := fun o ho =>
    hother₂ o fun hmem => ho (hmqnames o hmem)
  have hreaches : Reaches (· = queue) s s₃.managed := by
    obtain ⟨⟨new, hactions, hsqm, htouched⟩, hconflicts⟩ :=
      (hreaches₁.trans hreaches₂).trans hreaches₃
    exact ⟨⟨new, hactions, hsqm, htouched⟩, hconflicts⟩
  refine ⟨hreaches, x₃, hx₃, htype₃.trans (htype₂.trans htype₁), ⟨?_, ?_, ?_, ?_⟩, ?_⟩
  · -- the number of queues is not among the other names
    have hintent₁ : validate c.options (x₁.get "use_mq") r.supportsCakeMq = .ok intent := by
      rw [hother₁ "use_mq" (by decide +kernel)]
      exact hintent
    have hsame₃ : x₃.get "use_mq" = x₂.get "use_mq" := hother₃ "use_mq" (by decide +kernel)
    have hhas : Has queue x₃ (mqOptions c (some x₁) intent.useMq) := by
      refine hhas₂.of_kept fun o ho => ?_
      rw [hmqnames o ho]
      exact hsame₃
    refine ⟨intent, mq_settled hintent₁ hhas fun hnil => ?_⟩
    rw [hsame₃, hother₂ "use_mq" (by rw [hnil]; exact not_mem_nil)]
  · exact .of_reaches (s := s) (rejectUnmanagedConflicts_ok.1 hreject) hreaches
  · refine ⟨download, upload, required_ok.1 hdownload, required_ok.1 hupload,
      hhas₁.of_kept fun o ho => ?_⟩
    have hnames : ∀ o ∈ rateNames, o ∉ extraNames ∧ o ≠ "use_mq" := by decide +kernel
    rw [hother₃ o (hnames o ho).1, hkept₂ o (hnames o ho).2]
  · exact hhas₃
  · intro o ho
    simp only [activeNames, mem_append, mem_singleton, not_or] at ho
    rw [hother₃ o ho.2, hkept₂ o ho.1.2, hother₁ o ho.1.1]

theorem Planning.Free.of_reaches (h : Free s.sqm name (some queue))
    (hreaches : Reaches (· = queue) s t) : Free t.sqm name (some queue) := by
  rintro other ⟨x, hx, howner⟩
  by_cases hother : other = queue
  · rw [hother]
  · rw [hreaches.get hother] at hx
    exact h other ⟨x, hx, howner⟩

/-- **A queue is settled by projecting it**, and before that it was not another instance's. -/
theorem projectQueue_ok (h : projectQueue r name c queue s = .ok t) :
    Reaches (fun other => other = queue ∨ Owns s.sqm name other) s t ∧
      (∀ owner, Owns s.sqm owner queue → owner = "" ∨ owner = name) ∧
      (∀ other, other ≠ queue → ∀ x', t.sqm.get other = some x' →
        ∃ x, s.sqm.get other = some x ∧ Disowned x x') ∧
      ∃ target x, QueueSettled r name c queue target t.sqm x := by
  simp only [projectQueue, bind_ok, check_ok] at h
  obtain ⟨_, hown, s₁, hclean, s₂, hqueue, s₃, hhead, configured, hconfigured, target, htarget, s₄,
    hinterface, hlast⟩ := h
  obtain ⟨hreaches₁, hdisowned, hfree⟩ := cleanupStale_ok hclean
  obtain ⟨hreaches₂, x₂, hx₂, htype₂⟩ := ensureQueue_ok hqueue
  have hheadNodup : ((headOptions name c.active).map fst).Nodup := by
    show [ownerOption, "enabled"].Nodup
    decide +kernel
  obtain ⟨hreaches₃, x₃, hx₃, htype₃, hhas₃, -⟩ := assignAll_ok hheadNodup hhead hx₂
  have hone : ([("interface", some target)].map fst).Nodup := pairwise_singleton _ _
  obtain ⟨hreaches₄, x₄, hx₄, htype₄, hhas₄, hother₄⟩ := assignAll_ok hone hinterface hx₃
  have hheld : Has queue x₄ (headOptions name c.active) := by
    refine hhas₃.of_kept fun o ho => hother₄ o ?_
    have hnames : ∀ o ∈ [ownerOption, "enabled"], o ∉ ["interface"] := by decide +kernel
    exact hnames o ho
  have hmiddle : Reaches (· = queue) s₁ s₄ := (hreaches₂.trans hreaches₃).trans hreaches₄
  -- what is left is the active part, which changes the queue only
  have hend : Reaches (· = queue) s₄ t ∧ ∃ x, t.sqm.get queue = some x ∧
      x.sectionType = x₄.sectionType ∧ (∀ o, o ∉ activeNames → x.get o = x₄.get o) ∧
      (c.active = true → ActiveSettled r c queue target t.sqm x) := by
    split at hlast
    · obtain ⟨hreaches, x, hx, htype, hsettled, hother⟩ := projectActive_ok hx₄ hlast
      exact ⟨hreaches, x, hx, htype, hother, fun _ => hsettled⟩
    · rename_i hactive
      cases hlast
      exact ⟨⟨⟨[], (append_nil _).symm, rfl, forall_mem_nil _⟩, rfl⟩, x₄, hx₄, rfl,
        fun _ _ => rfl, fun hcontra => absurd hcontra hactive⟩
  obtain ⟨hreaches₅, x, hx, htype, hother, hactive⟩ := hend
  have hafter : Reaches (· = queue) s₁ t := hmiddle.trans hreaches₅
  refine ⟨(hreaches₁.mono ?_).trans (hafter.mono ?_), ?_, ?_, target, x, ?_⟩
  · intro other hother
    exact .inr hother.2
  · intro other hother
    exact .inl hother
  · rintro owner ⟨x', hx', howner⟩
    rw [hx', bind_some, howner, any_some, Bool.not_eq_true', Bool.and_eq_false_iff] at hown
    rcases hown with hempty | hsame
    · exact .inl (by simpa using hempty)
    · exact .inr (by simpa using hsame)
  · intro other hne x' hx'
    rw [hafter.get hne] at hx'
    exact hdisowned other x' hx'
  · have hnames : ∀ o ∈ [ownerOption, "enabled", "interface"], o ∉ activeNames := by decide +kernel
    refine ⟨hx, htype.trans (htype₄.trans (htype₃.trans htype₂)), hfree.of_reaches hafter,
      hheld.of_kept fun o ho => hother o (hnames o (mem_append_left ["interface"] ho)),
      ⟨configured, required_ok.1 hconfigured, htarget⟩,
      hhas₄.of_kept fun o ho => hother o (hnames o ?_), hactive⟩
    exact mem_append_right [ownerOption, "enabled"] ho

def QueueOf (cake : UciPackage) (conflicts : Std.ExtTreeSet String) (name queue : String) : Prop :=
  ∃ c, cake.get name = some c ∧ c.manages = true ∧ conflicts.contains name = false ∧
    queue = c.sqmSection name

/-- **What projecting an instance does**: it changes its queue and what it owns, takes a queue from
nobody, lets the other sections lose at most their owner, and is settled. -/
structure Projected (cake : UciPackage) (r : Resolver) (name : String) (s t : Planning) : Prop where
  reaches : Reaches (fun other => QueueOf cake s.plan.conflicts name other ∨ Owns s.sqm name other) s t
  untaken : ∀ queue owner, QueueOf cake s.plan.conflicts name queue → Owns s.sqm owner queue →
    owner = "" ∨ owner = name
  disowned : ∀ other, ¬QueueOf cake s.plan.conflicts name other → ∀ x', t.sqm.get other = some x' →
    ∃ x, s.sqm.get other = some x ∧ Disowned x x'
  settled : Settled cake r s.plan.conflicts t.sqm name

theorem projectInstance_ok (h : projectInstance cake r name s = .ok t) :
    Projected cake r name s t := by
  unfold projectInstance at h
  split at h
  · cases h
  rename_i c hc
  split at h
  · cases h
  rename_i hsafe
  have hsafe : safeName (c.sqmSection name) = true := by simpa using hsafe
  -- without a queue only what is owned is changed
  have hfreed : ∀ hnone : ∀ queue, ¬QueueOf cake s.plan.conflicts name queue,
      s.cleanupStale name none = .ok t → (Free t.sqm name none → Fate r s.plan.conflicts t.sqm name c) →
      Projected cake r name s t := by
    intro hnone hclean hfate
    obtain ⟨hreaches, hdisowned, hfree⟩ := cleanupStale_ok hclean
    exact ⟨hreaches.mono fun other hother => .inr hother.2,
      fun queue owner hqueue => absurd hqueue (hnone queue),
      fun other _ x' hx' => hdisowned other x' hx', c, hc, hsafe, hfate hfree⟩
  split at h
  · rename_i hmanages
    have hmanages : c.manages = false := by simpa using hmanages
    refine hfreed ?_ h (.unmanaged hmanages)
    rintro queue ⟨c', hc', hmanages', -⟩
    rw [hc] at hc'
    cases hc'
    rw [hmanages] at hmanages'
    cases hmanages'
  rename_i hmanages
  have hmanages : c.manages = true := by simpa using hmanages
  split at h
  · cases h
  rename_i hdirection
  have hdirection : knownDirection c.direction = true := by simpa using hdirection
  split at h
  · rename_i hconflict
    refine hfreed ?_ h (.conflicting hmanages hdirection hconflict)
    rintro queue ⟨c', -, -, hconflict', -⟩
    rw [hconflict] at hconflict'
    cases hconflict'
  rename_i hconflict
  have hconflict : s.plan.conflicts.contains name = false := Bool.eq_false_iff.2 hconflict
  obtain ⟨hreaches, huntaken, hdisowned, target, x, hqueue⟩ := projectQueue_ok h
  have hiff : ∀ queue, QueueOf cake s.plan.conflicts name queue ↔ queue = c.sqmSection name := by
    intro queue
    constructor
    · rintro ⟨c', hc', -, -, hsame⟩
      rw [hc] at hc'
      cases hc'
      exact hsame
    · intro hsame
      exact ⟨c, hc, hmanages, hconflict, hsame⟩
  refine ⟨?_, ?_, ?_, c, hc, hsafe, .queued hmanages hdirection hconflict target x hqueue⟩
  · simpa only [hiff] using hreaches
  · intro queue owner hq howns
    rw [(hiff queue).1 hq] at howns
    exact huntaken owner howns
  · intro other hother x' hx'
    exact hdisowned other (fun hsame => hother ((hiff other).2 hsame)) x' hx'

section

variable (h : QueueSettled r name c queue target sqm x)
include h

theorem QueueSettled.owner : x.get ownerOption = some name :=
  (h.head _ mem_cons_self).1

theorem QueueSettled.enabled : x.get "enabled" = some (flag c.active) :=
  (h.head _ (mem_cons_of_mem _ mem_cons_self)).1

theorem QueueSettled.target_eq : x.get "interface" = some target :=
  (h.interface _ mem_cons_self).1

theorem QueueSettled.active_of_enabled (henabled : x.get "enabled" = some "1") :
    c.active = true := by
  rw [h.enabled] at henabled
  cases hactive : c.active with
  | true => rfl
  | false =>
    rw [hactive] at henabled
    exact absurd (some.inj henabled) (by decide +kernel)

end

theorem QueueSettled.distinct (hr : r.Settles) {name name' queue' target' : String}
    {c' x' : UciSection} (h : QueueSettled r name c queue target sqm x)
    (h' : QueueSettled r name' c' queue' target' sqm x') (hne : queue' ≠ queue)
    (henabled : x.get "enabled" = some "1") (henabled' : x'.get "enabled" = some "1") :
    target' ≠ target := by
  obtain ⟨configured, -, hresolved⟩ := h'.configured
  have hclear := (h.active (h.active_of_enabled henabled)).clear queue' x' h'.get hne h'.sectionType
    henabled' target' h'.target_eq (resolveCached_ok hresolved).2
  obtain ⟨resolved, hsame, hother⟩ := hclear
  rw [resolveCached_settles hr hresolved] at hsame
  rw [ok.inj hsame]
  exact hother

theorem Settled.of_queueOf {name section_ : String} (h : Settled cake r conflicts sqm name)
    (hqueue : QueueOf cake conflicts name section_) (hx : sqm.get section_ = some x) :
    ∃ c target, QueueSettled r name c section_ target sqm x := by
  obtain ⟨c, hc, hmanages, hconflict, rfl⟩ := hqueue
  obtain ⟨c', hc', -, hfate⟩ := h
  rw [hc] at hc'
  cases hc'
  cases hfate with
  | unmanaged hno _ => rw [hmanages] at hno; cases hno
  | conflicting _ _ hyes _ => rw [hconflict] at hyes; cases hyes
  | queued _ _ _ target y hsettled =>
    have hsame := hsettled.get
    rw [hx] at hsame
    cases hsame
    exact ⟨c, target, hsettled⟩

/-- **Projecting another instance leaves an instance settled.** -/
theorem Projected.keeps (hr : r.Settles) {name other : String} (h : Projected cake r other s t)
    (hne : other ≠ name) (hname : name ≠ "") (hsettled : Settled cake r s.plan.conflicts s.sqm name) :
    Settled cake r s.plan.conflicts t.sqm name := by
  obtain ⟨c, hc, hsafe, hfate⟩ := hsettled
  -- the other instance marks its own queue only
  have hfree : ∀ keep, Free s.sqm name keep → Free t.sqm name keep := by
    rintro keep hfree section_ ⟨x', hx', howner⟩
    by_cases hqueue : QueueOf cake s.plan.conflicts other section_
    · obtain ⟨c', target, hother⟩ := h.settled.of_queueOf hqueue hx'
      rw [hother.owner] at howner
      exact absurd (some.inj howner) hne
    · obtain ⟨x, hx, hdisowned⟩ := h.disowned section_ hqueue x' hx'
      rcases hdisowned.owner with hsame | hnone
      · exact hfree section_ ⟨x, hx, hsame ▸ howner⟩
      · rw [hnone] at howner
        cases howner
  refine ⟨c, hc, hsafe, ?_⟩
  cases hfate with
  | unmanaged hmanages hnone => exact .unmanaged hmanages (hfree none hnone)
  | conflicting hmanages hdirection hconflict hnone =>
    exact .conflicting hmanages hdirection hconflict (hfree none hnone)
  | queued hmanages hdirection hconflict target x hqueue =>
    have howns : Owns s.sqm name (c.sqmSection name) := ⟨x, hqueue.get, hqueue.owner⟩
    have hnotqueue : ¬QueueOf cake s.plan.conflicts other (c.sqmSection name) := by
      intro hcontra
      rcases h.untaken _ _ hcontra howns with hempty | hsame
      · exact hname hempty
      · exact hne hsame.symm
    have hsame : t.sqm.get (c.sqmSection name) = s.sqm.get (c.sqmSection name) := by
      refine h.reaches.get ?_
      rintro (hcontra | ⟨x', hx', howner⟩)
      · exact hnotqueue hcontra
      · rw [hqueue.get] at hx'
        cases hx'
        rw [hqueue.owner] at howner
        exact hne (some.inj howner).symm
    refine .queued hmanages hdirection hconflict target x ⟨hsame.trans hqueue.get,
      hqueue.sectionType, hfree _ hqueue.free, hqueue.head, hqueue.configured, hqueue.interface, ?_⟩
    intro hactive
    obtain ⟨hintent, hclear, hrates, hextra⟩ := hqueue.active hactive
    refine ⟨hintent, ?_, hrates, hextra⟩
    intro section_ x' hx' hsection htype henabled interface hinterface hnonempty
    by_cases hother : QueueOf cake s.plan.conflicts other section_
    · -- its own queue: it was refused if it wanted this device
      obtain ⟨c', target', hsettled'⟩ := h.settled.of_queueOf hother hx'
      rw [hsettled'.target_eq] at hinterface
      obtain rfl := some.inj hinterface
      obtain ⟨configured', -, hresolved'⟩ := hsettled'.configured
      refine ⟨target', resolveCached_settles hr hresolved', ?_⟩
      obtain ⟨configured, -, hresolved⟩ := hqueue.configured
      have hmine : x.get "enabled" = some "1" := by
        rw [hqueue.enabled, hactive]
        rfl
      have hclear' := (hsettled'.active (hsettled'.active_of_enabled henabled)).clear
        (c.sqmSection name) x (hsame.trans hqueue.get) (Ne.symm hsection) hqueue.sectionType hmine
        target hqueue.target_eq (resolveCached_ok hresolved).2
      obtain ⟨resolved, hsame', hdifferent⟩ := hclear'
      rw [resolveCached_settles hr hresolved] at hsame'
      rw [← ok.inj hsame'] at hdifferent
      exact hdifferent.symm
    · obtain ⟨y, hy, hdisowned⟩ := h.disowned section_ hother x' hx'
      have hnames : "enabled" ≠ ownerOption ∧ "interface" ≠ ownerOption := by decide +kernel
      refine hclear section_ y hy hsection (hdisowned.sectionType ▸ htype) ?_ interface ?_ hnonempty
      · rw [← hdisowned.elsewhere _ hnames.1]
        exact henabled
      · rw [← hdisowned.elsewhere _ hnames.2]
        exact hinterface

/-- **The instances one after the other.**  The package is what the new actions make of it, sections
that no instance asks for or owns are kept, and every instance is settled at the end. -/
theorem projectAll_ok (hr : r.Settles) {names done : List String}
    (hnames : ∀ n ∈ done ++ names, n ≠ "") (h : projectAll cake r names s = .ok t)
    (hdone : ∀ n ∈ done, Settled cake r s.plan.conflicts s.sqm n) :
    Reaches (fun section_ => ∃ n ∈ names, QueueOf cake s.plan.conflicts n section_ ∨
      Owns s.sqm n section_) s t ∧ ∀ n ∈ done ++ names, Settled cake r s.plan.conflicts t.sqm n := by
  induction names generalizing s done with
  | nil =>
    cases h
    refine ⟨.refl _ _, fun n hn => hdone n ?_⟩
    simpa using hn
  | cons name rest ih =>
    simp only [projectAll, bind_ok] at h
    obtain ⟨u, hname, hrest⟩ := h
    have hprojected := projectInstance_ok hname
    have hconflicts := hprojected.reaches.conflicts
    have hsettled : ∀ n ∈ done ++ [name], Settled cake r u.plan.conflicts u.sqm n := by
      intro n hn
      rw [hconflicts]
      by_cases hsame : name = n
      · exact hsame ▸ hprojected.settled
      · refine hprojected.keeps hr hsame (hnames n ?_) (hdone n ?_)
        · rcases mem_append.1 hn with hn | hn
          · exact mem_append_left _ hn
          · exact absurd (mem_singleton.1 hn).symm hsame
        · rcases mem_append.1 hn with hn | hn
          · exact hn
          · exact absurd (mem_singleton.1 hn).symm hsame
    obtain ⟨hreaches, hall⟩ := ih (by simpa using hnames) hrest hsettled
    rw [hconflicts] at hreaches hall
    refine ⟨(hprojected.reaches.mono ?_).trans (hreaches.mono ?_), by simpa using hall⟩
    · intro section_ htouched
      exact ⟨name, mem_cons_self, htouched⟩
    · rintro section_ ⟨n, hn, hqueue | ⟨x', hx', howner⟩⟩
      · exact ⟨n, mem_cons_of_mem _ hn, .inl hqueue⟩
      · -- an owner that a section has now it had before, unless the section was a queue
        by_cases hqueue : QueueOf cake s.plan.conflicts name section_
        · exact ⟨name, mem_cons_self, .inl hqueue⟩
        · obtain ⟨x, hx, hdisowned⟩ := hprojected.disowned section_ hqueue x' hx'
          rcases hdisowned.owner with hsame | hnone
          · exact ⟨n, mem_cons_of_mem _ hn, .inr ⟨x, hx, hsame ▸ howner⟩⟩
          · rw [hnone] at howner
            cases howner

theorem projectAll_noop {names : List String}
    (h : ∀ n ∈ names, Settled cake r s.plan.conflicts s.sqm n) :
    ∃ t, projectAll cake r names s = .ok t ∧ Same s t := by
  induction names generalizing s with
  | nil => exact ⟨s, rfl, rfl, rfl, rfl⟩
  | cons name rest ih =>
    obtain ⟨hname, hrest⟩ := forall_mem_cons.1 h
    obtain ⟨u, hu, hsame⟩ := hname.noop
    have hsettled : ∀ n ∈ rest, Settled cake r u.plan.conflicts u.sqm n := by
      rw [hsame.conflicts, hsame.sqm]
      exact hrest
    obtain ⟨t, ht, hsame'⟩ := ih hsettled
    refine ⟨t, ?_, hsame.trans hsame'⟩
    simp only [projectAll, bind_ok]
    exact ⟨u, hu, ht⟩

def InScope (cake : UciPackage) (scope : ProjectionScope) (name : String) : Prop :=
  (scope = .all ∨ scope = .instance_ name) ∧
    ∃ c, cake.get name = some c ∧ c.sectionType = "cake_autorate"

theorem scopedInstances_ok {scope : ProjectionScope} {names : List String}
    (h : scopedInstances cake scope = .ok names) (name : String) :
    name ∈ names ↔ InScope cake scope name := by
  cases scope with
  | all =>
    cases h
    simp only [List.mem_map, mem_filter, decide_eq_true_eq, Prod.exists, InScope, true_or, true_and]
    constructor
    · rintro ⟨n, c, ⟨hmem, htype⟩, rfl⟩
      exact ⟨c, mem_toList.1 hmem, htype⟩
    · rintro ⟨c, hc, htype⟩
      exact ⟨name, c, ⟨mem_toList.2 hc, htype⟩, rfl⟩
  | instance_ only =>
    simp only [scopedInstances] at h
    split at h
    · rename_i c hc
      split at h
      · rename_i htype
        cases h
        simp only [mem_singleton, InScope, reduceCtorEq, false_or, ProjectionScope.instance_.injEq]
        constructor
        · rintro rfl
          exact ⟨rfl, c, hc, htype⟩
        · rintro ⟨rfl, -⟩
          rfl
      · cases h
    · cases h

theorem targets_names {claims targets : List (String × String)}
    (h : (claims.mapM fun claim => do
      let target ← resolveCached r claim.2
      return (claim.1, target) : Except String (List (String × String))) = .ok targets) :
    targets.map fst = claims.map fst := by
  induction claims generalizing targets with
  | nil =>
    cases h
    rfl
  | cons claim rest ih =>
    simp only [mapM_cons, bind_ok, pure, Except.pure, Except.ok.injEq] at h
    obtain ⟨_, ⟨target, -, rfl⟩, others, hothers, rfl⟩ := h
    rw [map_cons, map_cons, ih hothers]

variable {conflicts : Std.ExtTreeSet String}

theorem detectConflicts_configured (h : detectConflicts cake r = .ok conflicts)
    (hname : conflicts.contains name = true) :
    ∃ c, cake.get name = some c ∧ c.sectionType = "cake_autorate" := by
  simp only [detectConflicts, bind_ok, pure, Except.pure, Except.ok.injEq] at h
  obtain ⟨targets, htargets, rfl⟩ := h
  have hmem : name ∈ targets.map fst := by
    have hin : name ∈ (targets.filter fun entry =>
        1 < (targets.filter fun other => other.2 = entry.2).length).map fst := by
      simpa using hname
    obtain ⟨entry, hentry, rfl⟩ := mem_map.1 hin
    exact mem_map_of_mem (mem_filter.1 hentry).1
  rw [targets_names htargets] at hmem
  obtain ⟨claim, hclaim, rfl⟩ := mem_map.1 hmem
  obtain ⟨⟨n, c⟩, hentry, hclaimed⟩ := mem_filterMap.1 hclaim
  obtain ⟨interface, hinterface, rfl⟩ := map_eq_some_iff.1 hclaimed
  refine ⟨c, mem_toList.1 hentry, ?_⟩
  by_contra htype
  rw [UciSection.claimed, if_pos (.inl htype)] at hinterface
  cases hinterface

/-- A `cake-autorate` package as `UciPackage::parse` reads it: its section names are safe. -/
structure CakePackage extends UciPackage where
  safe : ∀ name c, toUciPackage.get name = some c → safeName name = true

theorem CakePackage.name_ne (cake : CakePackage) (h : cake.get name = some c) : name ≠ "" := by
  rintro rfl
  exact absurd (cake.safe "" c h) (by decide +kernel)

/-- **What a successful projection promises.** -/
structure Exact (cake : CakePackage) (sqm : UciPackage) (r : Resolver) (scope : ProjectionScope)
    (plan : SqmProjectionPlan) (result : UciPackage) : Prop where
  /-- The actions make the package. -/
  replayed : sqm.replay plan.actions = result
  /-- Planning again finds nothing to do. -/
  final : ∃ plan', planProjection cake.toUciPackage result r scope = (.ok plan', result) ∧
    plan'.actions = [] ∧ plan'.conflicts = plan.conflicts
  /-- A section that no instance in the scope asks for or owns is kept. -/
  frame : ∀ section_, (∀ name, InScope cake.toUciPackage scope name →
    ¬QueueOf cake.toUciPackage plan.conflicts name section_ ∧ ¬Owns sqm name section_) →
    result.get section_ = sqm.get section_
  /-- Over all instances, two enabled queues that configured instances own have different devices. -/
  distinct : scope = .all → ∀ a b x y owner owner' interface interface' device device', a ≠ b →
    result.get a = some x → result.get b = some y →
    x.get ownerOption = some owner → y.get ownerOption = some owner' →
    (∃ c, cake.get owner = some c ∧ c.sectionType = "cake_autorate") →
    (∃ c, cake.get owner' = some c ∧ c.sectionType = "cake_autorate") →
    x.get "enabled" = some "1" → y.get "enabled" = some "1" →
    x.get "interface" = some interface → y.get "interface" = some interface' →
    r.resolve interface = .ok device → r.resolve interface' = .ok device' → device ≠ device'
  /-- An instance in the scope that is in conflict owns nothing. -/
  yields : ∀ name, scope = .all ∨ scope = .instance_ name → plan.conflicts.contains name = true →
    ∀ section_, ¬Owns result name section_

theorem Settled.queue_of_owns {name section_ : String} (h : Settled cake r conflicts sqm name)
    (hx : sqm.get section_ = some x) (howner : x.get ownerOption = some name) :
    ∃ c target, QueueSettled r name c section_ target sqm x := by
  obtain ⟨c, -, -, hfate⟩ := h
  have howns : Owns sqm name section_ := ⟨x, hx, howner⟩
  cases hfate with
  | unmanaged _ hfree => cases hfree section_ howns
  | conflicting _ _ _ hfree => cases hfree section_ howns
  | queued _ _ _ target y hqueue =>
    obtain rfl : section_ = c.sqmSection name := some.inj (hqueue.free section_ howns)
    have hsame := hqueue.get
    rw [hx] at hsame
    cases hsame
    exact ⟨c, target, hqueue⟩

/-- **The projection is exact and final.**  For every package, scope and resolver that settles, a
projection that succeeds is `Exact`; and one that fails leaves the caller's package as it was. -/
theorem projection_exact (cake : CakePackage) (sqm : UciPackage) (hr : r.Settles)
    (scope : ProjectionScope) :
    (∀ plan result, planProjection cake.toUciPackage sqm r scope = (.ok plan, result) →
      Exact cake sqm r scope plan result) ∧
    ∀ message result, planProjection cake.toUciPackage sqm r scope = (.error message, result) →
      result = sqm := by
  constructor
  · intro plan result h
    unfold planProjection at h
    split at h
    · cases (mk.inj h).1
    rename_i t ht
    obtain ⟨hplan, rfl⟩ := mk.inj h
    cases hplan
    simp only [planProjectionInner, bind_ok] at ht
    obtain ⟨conflicts, hconflicts, names, hnames, hall⟩ := ht
    have hscope := scopedInstances_ok hnames
    have hnonempty : ∀ n ∈ [] ++ names, n ≠ "" := by
      intro n hn
      obtain ⟨-, c, hc, -⟩ := (hscope n).1 hn
      exact cake.name_ne hc
    obtain ⟨hreaches, hsettled⟩ := projectAll_ok hr hnonempty hall (forall_mem_nil _)
    have hsame : t.plan.conflicts = conflicts := hreaches.conflicts
    obtain ⟨new, hactions, hsqm, -⟩ := hreaches.replayed
    obtain ⟨u, hu, hidle⟩ := projectAll_noop (s := ⟨t.sqm, { conflicts := conflicts }⟩) hsettled
    refine ⟨?_, ⟨u.plan, ?_, hidle.actions, hidle.conflicts.trans hsame.symm⟩, ?_, ?_, ?_⟩
    · rw [hactions, hsqm]
      rfl
    · have hinner : planProjectionInner cake.toUciPackage t.sqm r scope = .ok u := by
        simp only [planProjectionInner, bind_ok]
        exact ⟨conflicts, hconflicts, names, hnames, hu⟩
      simp only [planProjection, hinner, hidle.sqm]
    · intro section_ huntouched
      refine hreaches.get ?_
      rintro ⟨n, hn, htouched⟩
      obtain ⟨hqueue, howns⟩ := huntouched n ((hscope n).1 hn)
      rcases htouched with htouched | htouched
      · exact hqueue (hsame ▸ htouched)
      · exact howns htouched
    · rintro rfl a b x y owner owner' interface interface' device device' hab hx hy howner howner'
        hconfigured hconfigured' henabled henabled' hinterface hinterface' hdevice hdevice'
      have hmem : owner ∈ names := (hscope owner).2 ⟨.inl rfl, hconfigured⟩
      have hmem' : owner' ∈ names := (hscope owner').2 ⟨.inl rfl, hconfigured'⟩
      obtain ⟨c, target, hqueue⟩ := (hsettled owner hmem).queue_of_owns hx howner
      obtain ⟨c', target', hqueue'⟩ := (hsettled owner' hmem').queue_of_owns hy howner'
      have hne := hqueue.distinct hr hqueue' (Ne.symm hab) henabled henabled'
      have hdev : ∀ {n : String} {d : UciSection} {q g : String} {z : UciSection} {i v : String},
          QueueSettled r n d q g t.sqm z → z.get "interface" = some i → r.resolve i = .ok v →
            v = g := by
        intro n d q g z i v hsettled' hi hv
        rw [hsettled'.target_eq] at hi
        cases hi
        obtain ⟨configured, -, hresolved⟩ := hsettled'.configured
        rw [(resolveCached_ok (resolveCached_settles hr hresolved)).1] at hv
        exact (ok.inj hv).symm
      rw [hdev hqueue hinterface hdevice, hdev hqueue' hinterface' hdevice']
      exact hne.symm
    · intro name hcovered hconflict section_ howns
      rw [hsame] at hconflict
      have hmem : name ∈ names :=
        (hscope name).2 ⟨hcovered, detectConflicts_configured hconflicts hconflict⟩
      obtain ⟨c, -, -, hfate⟩ := hsettled name hmem
      cases hfate with
      | unmanaged _ hfree => cases hfree section_ howns
      | conflicting _ _ _ hfree => cases hfree section_ howns
      | queued _ _ hnot _ _ _ =>
        have hcontra : conflicts.contains name = false := hnot
        rw [hconflict] at hcontra
        cases hcontra
  · intro message result h
    unfold planProjection at h
    split at h
    · exact (mk.inj h).2.symm
    · cases (mk.inj h).1

def plainResolver : Resolver := ⟨.ok, fun _ => .ok false⟩

theorem plainResolver_settles : plainResolver.Settles := by
  intro name value h
  rfl

def sampleInstance (device : String) : UciSection :=
  ⟨"cake_autorate", ofList [("enabled", "1"), ("sqm_interface", device),
    ("sqm_download", "20000"), ("sqm_upload", "10000")]⟩

def sampleCake (device : String) : UciPackage :=
  ⟨ofList [("lan", sampleInstance "eth0"), ("wan", sampleInstance device)]⟩

def sampleSqm : UciPackage :=
  ⟨ofList [("cake_wan", UciSection.mk "queue" (ofList [(ownerOption, "wan")]))]⟩

theorem sampleCake_safe (device name : String) (c : UciSection)
    (h : (sampleCake device).get name = some c) : safeName name = true := by
  have hmem := UciPackage.mem_toList.2 h
  have hkeys : ∀ entry ∈ (sampleCake device).sections.toList, safeName entry.1 = true := by
    have hlist : (sampleCake device).sections.toList
        = [("lan", sampleInstance "eth0"), ("wan", sampleInstance device)] := rfl
    rw [hlist]
    intro entry hentry
    simp only [mem_cons, not_mem_nil, or_false] at hentry
    rcases hentry with rfl | rfl
    · decide +kernel
    · show safeName "wan" = true
      decide +kernel
  exact hkeys _ hmem

theorem conflict_out_of_scope : plainResolver.Settles ∧
    ((planProjection (sampleCake "eth0") sampleSqm plainResolver (.instance_ "lan")).1.toOption.map
      fun plan => plan.conflicts.contains "wan") = some true ∧
    (((planProjection (sampleCake "eth0") sampleSqm plainResolver (.instance_ "lan")).2.get
      "cake_wan").bind (·.get ownerOption)) = some "wan" :=
  ⟨plainResolver_settles, by decide +kernel, by decide +kernel⟩

theorem sampleCake_exact :
    ((planProjection (sampleCake "eth1") sampleSqm plainResolver (.instance_ "lan")).1.toOption.map
      fun plan => plan.actions.length) = some 23 ∧
    ∀ plan result, planProjection (sampleCake "eth1") sampleSqm plainResolver (.instance_ "lan")
        = (.ok plan, result) →
      Exact ⟨sampleCake "eth1", sampleCake_safe "eth1"⟩ sampleSqm plainResolver (.instance_ "lan") plan
        result :=
  ⟨by decide +kernel, (projection_exact ⟨sampleCake "eth1", sampleCake_safe "eth1"⟩ sampleSqm
    plainResolver_settles (.instance_ "lan")).1⟩

end CakeAutorate.Sqm
