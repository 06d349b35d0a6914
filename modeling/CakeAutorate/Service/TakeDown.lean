/-
# What a start sets up, a stop takes down

The queues that a start plan lists are taken down by a stop, of the packages or by the stored
inputs, exactly if three things hold of the packages: the switches of the active instances are the
ones that the service reads, every marked queue can be taken down by itself on its own device, and
nothing that another instance marks has the interface of a queue of a started one.

The first one can fail: an instance that leaves `sqm_enabled` out has its queue projected, and is
not started.
-/

import CakeAutorate.Service.Views

namespace CakeAutorate.Service

open Sqm Option Except Std.ExtTreeMap UciSection

variable {r : Resolver} {k : StartCandidate}

/-- A queue that is enabled and marked by an instance of the candidate. -/
structure Running (k : StartCandidate) (section_ name : String) (x : UciSection) : Prop where
  get : k.sqm.get section_ = some x
  sectionType : x.sectionType = "queue"
  enabled : x.get "enabled" = some "1"
  owner : x.get ownerOption = some name
  configured : ∃ c, k.cake.get name = some c ∧ c.sectionType = "cake_autorate"

def sameQueue (spec : ManagedSqmAttestationSpec) (stop : ManagedSqmStopSpec) : Bool :=
  stop.instance_ == spec.instance_ && stop.sqmSection == spec.sqmSection
    && stop.targetInterface == spec.targetInterface
    && stop.downloadInterface == spec.downloadInterface

/-- **What a start sets up, a stop can take down.** -/
structure TakenDown (r : Resolver) (k : StartCandidate) : Prop where
  /-- Every running queue is in the plan, once. -/
  listed : ∀ section_ name x, Running k section_ name x →
    k.plan.managed.countP (fun spec => spec.sqmSection == section_) = 1
  /-- Every entry of the plan is of a running queue, on its target. -/
  named : ∀ spec ∈ k.plan.managed, ∃ x interface, Running k spec.sqmSection spec.instance_ x ∧
    x.get "interface" = some interface ∧ r.resolve interface = .ok spec.targetInterface
  stops : ∃ plan, planStop k.cake k.sqm r = .ok plan
  /-- A stop by the stored inputs has every entry, once. -/
  applied : ∃ plan, stopPlanFromViews k.cake k.sqm k.inputs r = .ok plan ∧
    ∀ spec ∈ k.plan.managed, plan.managed.countP (sameQueue spec) = 1

/-- The service starts a section, by its switches. -/
structure Starts (c : UciSection) : Prop where
  sectionType : c.sectionType = "cake_autorate"
  enabled : boolOption c "enabled" false = true
  managed : boolOption c "manage_sqm" true = true →
    boolOption c "sqm_enabled" false = true ∧ startDirection c ≠ "off"

/-- **When a start can be taken down.** -/
structure Clean (cake sqm : UciPackage) (r : Resolver) : Prop where
  /-- An active instance has its switches at `1`. -/
  switched : ∀ name c, cake.get name = some c → c.sectionType = "cake_autorate" → c.manages = true →
    c.active = true → Switched c
  ready : StopReady cake sqm r
  undisturbed : Undisturbed sqm fun name => ∃ c, cake.get name = some c ∧ Starts c

variable {c : UciSection} {spec : ManagedSqmAttestationSpec}

theorem Switched.manages (h : Switched c) : c.manages = true := by
  unfold UciSection.manages
  rcases h.managed with hnone | hone
  · rw [hnone]
    rfl
  · rw [hone]
    decide +kernel

theorem Starts.switched (h : Starts c) (hmanage : boolOption c "manage_sqm" true = true) :
    Switched c := by
  have hone : ∀ {key}, boolOption c key false = true → c.get key = some "1" := by
    intro key hkey
    rcases boolOption_true.1 hkey with ⟨hfalse, -⟩ | hone
    · cases hfalse
    · exact hone
  exact ⟨hone h.enabled, (boolOption_true.1 hmanage).imp And.right id, hone (h.managed hmanage).1⟩

theorem Starts.active (h : Starts c) (hmanage : boolOption c "manage_sqm" true = true) :
    c.active = true := by
  have hswitched := h.switched hmanage
  have hvalue : boolValue (some "1") false = true := by decide +kernel
  have henabled : c.enabled = true := by
    rw [UciSection.enabled, hswitched.enabled, hvalue]
  have hsqm : c.sqmEnabled = true := by
    rw [sqmEnabled, hswitched.sqmEnabled, henabled]
    decide +kernel
  have hdirection : c.direction ≠ "off" := by
    intro hoff
    refine (h.managed hmanage).2 ?_
    unfold direction at hoff
    unfold startDirection nonempty
    cases hget : c.get "sqm_direction_mode" with
    | none =>
      rw [hget] at hoff
      exact absurd hoff (by decide +kernel)
    | some value =>
      rw [hget] at hoff
      obtain rfl : value = "off" := hoff
      decide +kernel
  simp [UciSection.active, henabled, hsqm, hdirection]

namespace Prepared

variable {c : UciSection} {name : String}

theorem fate (h : Prepared r k) (hc : k.cake.get name = some c)
    (htype : c.sectionType = "cake_autorate") : Fate r k.projection.conflicts k.sqm name c := by
  obtain ⟨c', hc', -, hfate⟩ := h.settled name ⟨.inl rfl, c, hc, htype⟩
  rw [hc] at hc'
  exact some.inj hc' ▸ hfate

theorem queued (h : Prepared r k) (hc : k.cake.get name = some c)
    (htype : c.sectionType = "cake_autorate") (hmanages : c.manages = true) :
    knownDirection c.direction = true ∧
      ∃ target x, QueueSettled r name c (c.sqmSection name) target k.sqm x := by
  cases h.fate hc htype with
  | unmanaged hno hfree =>
    rw [hno] at hmanages
    cases hmanages
  | conflicting hyes hdirection hconflict hfree =>
    rw [h.clear name] at hconflict
    cases hconflict
  | queued hyes hdirection hconflict target x hqueue => exact ⟨hdirection, target, x, hqueue⟩

theorem owned (h : Prepared r k) {name section_ : String} {x : UciSection}
    (hc : k.cake.get name = some c) (htype : c.sectionType = "cake_autorate")
    (hx : k.sqm.get section_ = some x) (howner : x.get ownerOption = some name) :
    c.manages = true ∧ section_ = c.sqmSection name ∧
      ∃ target, QueueSettled r name c (c.sqmSection name) target k.sqm x := by
  have howns : Planning.Owns k.sqm name section_ := ⟨x, hx, howner⟩
  cases h.fate hc htype with
  | unmanaged _ hfree => cases hfree section_ howns
  | conflicting _ _ _ hfree => cases hfree section_ howns
  | queued hmanages _ _ target y hqueue =>
    obtain rfl : section_ = c.sqmSection name := some.inj (hqueue.free section_ howns)
    have hsame := hqueue.get
    rw [hx] at hsame
    cases hsame
    exact ⟨hmanages, rfl, target, hqueue⟩

/-- An active instance with its switches at `1` has an entry. -/
theorem entry_of_switched (hr : r.Settles) (h : Prepared r k) (hc : k.cake.get name = some c)
    (htype : c.sectionType = "cake_autorate") (hmanages : c.manages = true)
    (hactive : c.active = true) (hswitched : Switched c) :
    ∃ spec, startEntry k.sqm r k.projection.conflicts name c = .ok (.managed spec) ∧
      spec.sqmSection = c.sqmSection name := by
  obtain ⟨entry, hentry⟩ := h.entry_ok hc
  obtain ⟨hknown, target, x, hqueue⟩ := h.queued hc htype hmanages
  obtain ⟨spec, rfl, hsection⟩ := startEntry_of_switched hr hqueue hactive htype hknown (h.clear name)
    hswitched hentry
  exact ⟨spec, hentry, hsection⟩

/-- **The plan starts the sections that have their switches on.** -/
theorem started_iff (hr : r.Settles) (h : Prepared r k) :
    name ∈ k.plan.instances ↔ ∃ c, k.cake.get name = some c ∧ Starts c := by
  rw [h.mem_instances]
  constructor
  · rintro ⟨c, hc, entry, hentry, hnot⟩
    refine ⟨c, hc, ?_⟩
    unfold startEntry at hentry
    split at hentry
    · exact absurd (ok.inj hentry).symm hnot
    rename_i hhead
    rw [not_or, not_not, Bool.not_eq_false] at hhead
    split at hentry
    · exact absurd (ok.inj hentry).symm hnot
    refine ⟨hhead.1, hhead.2, fun hmanage => ?_⟩
    rw [if_neg (by rw [hmanage]; decide)] at hentry
    split at hentry
    · exact absurd (ok.inj hentry).symm hnot
    rename_i hsqm
    split at hentry
    · exact absurd (ok.inj hentry).symm hnot
    rename_i hdirection
    exact ⟨Bool.not_eq_false _ ▸ hsqm, hdirection⟩
  · rintro ⟨c, hc, hstarts⟩
    refine ⟨c, hc, ?_⟩
    cases hmanage : boolOption c "manage_sqm" true with
    | false =>
      refine ⟨.manual, ?_, nofun⟩
      unfold startEntry
      rw [if_neg (by rw [not_or, not_not, Bool.not_eq_false]; exact ⟨hstarts.sectionType,
        hstarts.enabled⟩), h.clear name, if_neg (by decide), if_pos hmanage]
    | true =>
      have hswitched := hstarts.switched hmanage
      obtain ⟨spec, hspec, -⟩ := h.entry_of_switched hr hc hstarts.sectionType hswitched.manages
        (hstarts.active hmanage) hswitched
      exact ⟨_, hspec, nofun⟩

end Prepared

theorem Prepared.running (h : Prepared r k) (hspec : spec ∈ k.plan.managed) :
    ∃ c x interface, k.cake.get spec.instance_ = some c ∧
      spec.downloadInterface = downloadInterface c spec.targetInterface ∧
      Running k spec.sqmSection spec.instance_ x ∧ nonempty x "interface" = some interface ∧
      r.resolve interface = .ok spec.targetInterface := by
  obtain ⟨c, hc, hmanaged⟩ := h.managedEntry hspec
  obtain ⟨x, hx, howner, hmatch⟩ := hmanaged.queue
  obtain ⟨htype, henabled, interface, hinterface, hresolve⟩ := queueMatches_true hmatch
  exact ⟨c, x, interface, hc, hmanaged.download_eq,
    ⟨hx, htype, henabled, howner, c, hc, hmanaged.sectionType⟩, hinterface, hresolve⟩

theorem Running.active (h : Prepared r k) {section_ name : String} {x : UciSection}
    (hx : Running k section_ name x) : ∃ c, k.cake.get name = some c ∧
      c.sectionType = "cake_autorate" ∧ c.manages = true ∧ c.active = true ∧
      section_ = c.sqmSection name := by
  obtain ⟨c, hc, htype⟩ := hx.configured
  obtain ⟨hmanages, hsection, target, hqueue⟩ := h.owned hc htype hx.get hx.owner
  exact ⟨c, hc, htype, hmanages, hqueue.active_of_enabled hx.enabled, hsection⟩

theorem Prepared.counted (h : Prepared r k) {section_ name : String} {x : UciSection}
    (hx : Running k section_ name x) (hspec : spec ∈ k.plan.managed)
    (hsection : spec.sqmSection = section_) :
    k.plan.managed.countP (fun spec => spec.sqmSection == section_) = 1 := by
  have howner : ∀ s ∈ k.plan.managed, s.sqmSection = section_ → s.instance_ = name := by
    intro s hs hsame
    obtain ⟨-, y, -, -, -, hy, -⟩ := h.running hs
    have hget := hy.get
    rw [hsame, hx.get] at hget
    have hmark := hy.owner
    rw [← some.inj hget, hx.owner] at hmark
    exact (some.inj hmark).symm
  refine countP_eq_one (f := ManagedSqmAttestationSpec.instance_) h.instances_nodup hspec
    (beq_iff_eq.2 hsection) fun s hs hsame => ?_
  rw [howner s hs (beq_iff_eq.1 hsame), howner spec hspec hsection]

theorem Prepared.listed_iff (hr : r.Settles) (h : Prepared r k) :
    (∀ section_ name x, Running k section_ name x →
      k.plan.managed.countP (fun spec => spec.sqmSection == section_) = 1) ↔
    ∀ name c, k.cake.get name = some c → c.sectionType = "cake_autorate" → c.manages = true →
      c.active = true → Switched c := by
  constructor
  · intro hlisted name c hc htype hmanages hactive
    obtain ⟨-, target, x, hqueue⟩ := h.queued hc htype hmanages
    have henabled : x.get "enabled" = some "1" := by
      rw [hqueue.enabled, hactive]
      rfl
    have hcount := hlisted (c.sqmSection name) name x
      ⟨hqueue.get, hqueue.sectionType, henabled, hqueue.owner, c, hc, htype⟩
    obtain ⟨spec, hspec, hsection⟩ := List.countP_pos_iff.1 (by rw [hcount]; exact Nat.one_pos)
    obtain ⟨c', hc', hmanaged⟩ := h.managedEntry hspec
    obtain ⟨y, hy, howner, -⟩ := hmanaged.queue
    -- the entry is of the section that the instance marks, hence of the instance
    rw [beq_iff_eq.1 hsection, hqueue.get] at hy
    rw [← some.inj hy, hqueue.owner] at howner
    rw [← some.inj howner, hc] at hc'
    exact some.inj hc' ▸ hmanaged.switched
  · intro hswitched section_ name x hx
    obtain ⟨c, hc, htype, hmanages, hactive, rfl⟩ := hx.active h
    obtain ⟨spec, hentry, hsection⟩ := h.entry_of_switched hr hc htype hmanages hactive
      (hswitched name c hc htype hmanages hactive)
    exact h.counted hx (h.mem_managed.2 ⟨name, c, hc, hentry⟩) hsection

theorem undisturbed_congr {sqm : UciPackage} {started started' : String → Prop}
    (h : ∀ name, started name ↔ started' name) :
    Undisturbed sqm started ↔ Undisturbed sqm started' := by
  obtain rfl : started = started' := funext fun name => propext (h name)
  rfl

theorem Prepared.stop_ok (hr : r.Settles) (h : Prepared r k) {plan : ServiceStopPlan} :
    stopPlanFromViews k.cake k.sqm k.inputs r = .ok plan ↔
      Undisturbed k.sqm (fun name => ∃ c, k.cake.get name = some c ∧ Starts c) ∧
        planStop k.cake k.sqm r = .ok plan := by
  rw [← undisturbed_congr fun name => h.started_iff hr]
  refine stopPlanFromViews_ok (startAll_nodup h.planned List.nodup_nil) (fun name hname => ?_) ?_
  · obtain ⟨c, hc, -⟩ := (h.started_iff hr).1 hname
    exact ⟨c, hc⟩
  · intro s x name i hx hname howner hi
    obtain ⟨c, hc, hstarts⟩ := (h.started_iff hr).1 hname
    obtain ⟨-, -, target, hqueue⟩ := h.owned hc hstarts.sectionType hx howner
    obtain ⟨configured, -, hresolved⟩ := hqueue.configured
    have htarget := hqueue.target_eq
    rw [hi] at htarget
    rw [some.inj htarget]
    exact (resolveCached_ok (resolveCached_settles hr hresolved)).1

theorem Prepared.stops_once (h : Prepared r k) {plan : ServiceStopPlan}
    (hplan : planStop k.cake k.sqm r = .ok plan) (hspec : spec ∈ k.plan.managed) :
    plan.managed.countP (sameQueue spec) = 1 := by
  obtain ⟨c, x, interface, hc, hdownload, hx, hinterface, hresolve⟩ := h.running hspec
  have hname : spec.instance_ ≠ "" := CakePackage.name_ne ⟨k.cake, h.safe⟩ hc
  have hmarked : Marked k.sqm spec.sqmSection spec.instance_ x := by
    refine ⟨hx.get, hx.sectionType, ?_⟩
    simp [ownerOf, nonempty, hx.owner, Option.filter, hname]
  obtain ⟨stop, hstop, hstops⟩ := planStop_entry hplan hmarked
  obtain ⟨interface', hinterface', hresolve'⟩ := hstops.target
  rw [hinterface] at hinterface'
  rw [← some.inj hinterface', hresolve] at hresolve'
  have htarget : stop.targetInterface = spec.targetInterface := (ok.inj hresolve').symm
  have hsame : sameQueue spec stop = true := by
    have hdownload' := hstops.download
    rw [hc, htarget] at hdownload'
    simp only [sameQueue, Bool.and_eq_true, beq_iff_eq]
    exact ⟨⟨⟨hstops.instance_eq, hstops.section_eq⟩, htarget⟩, hdownload'.trans hdownload.symm⟩
  refine countP_eq_one (f := ManagedSqmStopSpec.sqmSection) (planStop_nodup hplan) hstop hsame ?_
  intro other _ hother
  simp only [sameQueue, Bool.and_eq_true, beq_iff_eq] at hother
  rw [hother.1.1.2, hstops.section_eq]

/-- **When a start can be taken down.**  Exactly if the packages that `uci` made are `Clean`. -/
theorem taken_down_iff {outside : Outside} {cake sqm : UciPackage} (hr : r.Settles)
    (h : prepare outside r cake sqm = .ok k) : TakenDown r k ↔ Clean k.cake k.sqm r := by
  have hprepared := prepare_ok hr h
  constructor
  · intro htaken
    obtain ⟨plan, hplan, -⟩ := htaken.applied
    exact ⟨(hprepared.listed_iff hr).1 htaken.listed, planStop_iff.1 htaken.stops,
      ((hprepared.stop_ok hr).1 hplan).1⟩
  · intro hclean
    obtain ⟨plan, hplan⟩ := planStop_iff.2 hclean.ready
    refine ⟨(hprepared.listed_iff hr).2 hclean.switched, fun spec hspec => ?_, ⟨plan, hplan⟩, plan,
      (hprepared.stop_ok hr).2 ⟨hclean.undisturbed, hplan⟩,
      fun spec hspec => hprepared.stops_once hplan hspec⟩
    obtain ⟨-, x, interface, -, -, hx, hinterface, hresolve⟩ := hprepared.running hspec
    exact ⟨x, interface, hx, nonempty_get hinterface, hresolve⟩

/-- `uci` with nothing to do. -/
def unchanged (cake : CakePackage) (sqm : UciPackage) : Outside where
  materialise presets actions :=
    if presets.isEmpty && actions.isEmpty then .ok (cake.toUciPackage, sqm)
    else .error "changed"
  accepts _ _ := true
  names_safe h name c hc := by
    split at h
    · cases h
      exact cake.safe name c hc
    · cases h

section

variable (more : List (String × String))

def presetInstance (device : String) : UciSection :=
  ⟨"cake_autorate", ofList ([("enabled", "1"), ("wan_if", device),
    ("sqm_interface", device), ("ul_if", device), ("dl_if", "ifb4" ++ device),
    ("base_dl_shaper_rate_kbps", "20000"), ("max_dl_shaper_rate_kbps", "20000"),
    ("min_dl_shaper_rate_kbps", "10000"), ("base_ul_shaper_rate_kbps", "10000"),
    ("max_ul_shaper_rate_kbps", "10000"), ("min_ul_shaper_rate_kbps", "5000"),
    ("sqm_download", "20000"), ("sqm_upload", "10000")] ++ more)⟩

def presetUci : UciPackage :=
  ⟨ofList [("lan", presetInstance more "eth1"), ("wan", presetInstance more "eth0")]⟩

theorem presetInstance_safe (name : String) (c : UciSection)
    (h : (presetUci more).get name = some c) : safeName name = true := by
  have hmem := UciPackage.mem_toList.2 h
  have hlist : (presetUci more).sections.toList
      = [("lan", presetInstance more "eth1"), ("wan", presetInstance more "eth0")] := rfl
  rw [hlist] at hmem
  rcases List.mem_cons.mp hmem with heq | hmem
  · rw [(Prod.mk.inj heq).1]
    decide +kernel
  · rw [(Prod.mk.inj (List.mem_singleton.mp hmem)).1]
    decide +kernel

def presetCake : CakePackage := ⟨presetUci more, presetInstance_safe more⟩

end

def presetQueue (owner device : String) : UciSection :=
  mk "queue" (ofList [(ownerOption, owner),
    ("debug_logging", "0"), ("download", "20000"), ("egress_ecn", "NOECN"), ("enabled", "1"),
    ("ingress_ecn", "ECN"), ("interface", device), ("linklayer", "none"),
    ("linklayer_adaptation_mechanism", "default"), ("linklayer_advanced", "0"), ("overhead", "0"),
    ("qdisc", "cake"), ("qdisc_advanced", "0"), ("qdisc_really_really_advanced", "0"),
    ("script", "piece_of_cake.qos"), ("squash_dscp", "1"), ("squash_ingress", "1"), ("tcMPU", "0"),
    ("tcMTU", "2047"), ("tcTSIZE", "128"), ("upload", "10000"), ("verbosity", "5")])

def presetSqm : UciPackage :=
  ⟨ofList [("cake_lan", presetQueue "lan" "eth1"), ("cake_wan", presetQueue "wan" "eth0")]⟩

def presetStart (more : List (String × String)) : Except String StartCandidate :=
  prepare (unchanged (presetCake more) presetSqm) plainResolver (presetCake more).toUciPackage presetSqm

/-- With `sqm_enabled` at `1`. -/
theorem switched_taken_down : ∃ k, presetStart [("sqm_enabled", "1")] = .ok k ∧
    k.plan.instances = ["lan", "wan"] ∧ (TakenDown plainResolver k ↔ Clean k.cake k.sqm plainResolver) := by
  have hplan : (presetStart [("sqm_enabled", "1")]).toOption.map (·.plan.instances) =
      some ["lan", "wan"] := by decide +kernel
  obtain ⟨k, hk, hinstances⟩ := exists_of_map hplan
  exact ⟨k, hk, hinstances, taken_down_iff plainResolver_settles hk⟩

theorem queue_without_controller : plainResolver.Settles ∧ ∃ k, presetStart [] = .ok k ∧
    k.plan.managed = [] ∧ (∃ x, Running k "cake_wan" "wan" x) ∧ ¬TakenDown plainResolver k := by
  have hk : (presetStart []).toOption.any (fun k => k.plan.managed.isEmpty
      && ((k.sqm.get "cake_wan").any fun x => x.sectionType == "queue"
        && x.get "enabled" == some "1" && x.get ownerOption == some "wan")
      && (k.cake.get "wan").any (·.sectionType == "cake_autorate")) = true := by
    decide +kernel
  obtain ⟨k, hstart, hk⟩ := exists_of_any hk
  simp only [Bool.and_eq_true, List.isEmpty_iff, any_eq_true, beq_iff_eq] at hk
  obtain ⟨⟨hmanaged, x, hx, ⟨htype, henabled⟩, howner⟩, c, hc, hcake⟩ := hk
  have hrunning : Running k "cake_wan" "wan" x := ⟨hx, htype, henabled, howner, c, hc, hcake⟩
  refine ⟨plainResolver_settles, k, hstart, hmanaged, ⟨x, hrunning⟩, fun htaken => ?_⟩
  have hcount := htaken.listed "cake_wan" "wan" x hrunning
  rw [hmanaged] at hcount
  exact absurd hcount (by decide)

end CakeAutorate.Service
