/-
# What a stop needs

When `plan_stop` succeeds: every marked queue can be taken down by itself, no two of them have the
same device, and they are not too many.  Stopping by the stored inputs of a start is the same stop,
unless something that is not a queue claims the interface of a stored queue.
-/

import CakeAutorate.Service.Started
import CakeAutorate.Service.Stop
import Mathlib.Data.List.Forall2
import Mathlib.Data.List.Pairwise

namespace CakeAutorate.Service

open Sqm Controller List Option

variable {cake sqm : UciPackage} {r : Resolver}

/-- A queue that is marked. -/
structure Marked (sqm : UciPackage) (section_ owner : String) (x : UciSection) : Prop where
  get : sqm.get section_ = some x
  sectionType : x.sectionType = "queue"
  owner : ownerOf x = some owner

/-- The stop entry of a marked queue. -/
structure StopsAs (cake : UciPackage) (r : Resolver) (section_ owner : String) (x : UciSection)
    (spec : ManagedSqmStopSpec) : Prop where
  safe : safeName owner = true ∧ safeName section_ = true
  target : ∃ interface, nonempty x "interface" = some interface ∧
    r.resolve interface = .ok spec.targetInterface
  target_safe : safeInterface spec.targetInterface = true
  configured : (cake.get owner).all (fun c => c.sectionType == "cake_autorate") = true
  policy : controllerPolicy owner (cake.get owner) = .ok spec.ratePolicy
  download : spec.downloadInterface = stopDownload (cake.get owner) spec.targetInterface
  download_safe : safeInterface spec.downloadInterface = true
  instance_eq : spec.instance_ = owner
  section_eq : spec.sqmSection = section_

variable {x : UciSection} {plan : ServiceStopPlan} {section_ owner : String}

variable {managed managed' : List ManagedSqmStopSpec}

theorem stopQueue_ok :
    stopQueue cake r managed section_ owner x = .ok managed' ↔
      ∃ spec, StopsAs cake r section_ owner x spec ∧
        (∀ s ∈ managed, s.targetInterface ≠ spec.targetInterface) ∧ managed.length < maxInstances ∧
        managed' = managed ++ [spec] := by
  simp only [stopQueue, bind_ok, check_ok, required_ok, Bool.and_eq_true]
  constructor
  · rintro ⟨-, hsafe, interface, hinterface, target, htarget, -, htargetSafe, h⟩
    cases hfind : managed.find? fun spec => spec.targetInterface = target with
    | some previous =>
      rw [hfind] at h
      cases h
    | none =>
      rw [hfind] at h
      simp only [bind_ok, check_ok, pure, Except.pure, Except.ok.injEq, decide_eq_true_eq] at h
      obtain ⟨-, hconfigured, policy, hpolicy, -, hdownload, -, hlength, rfl⟩ := h
      refine ⟨_, ⟨hsafe, ⟨interface, hinterface, htarget⟩, htargetSafe, hconfigured, hpolicy, rfl,
        hdownload, rfl, rfl⟩, ?_, hlength, rfl⟩
      intro s hs hsame
      exact absurd (decide_eq_true hsame) (find?_eq_none.1 hfind s hs)
  · rintro ⟨spec, h, hdistinct, hlength, rfl⟩
    obtain ⟨interface, hinterface, htarget⟩ := h.target
    refine ⟨(), h.safe, interface, hinterface, spec.targetInterface, htarget, (), h.target_safe, ?_⟩
    have hfind : (managed.find? fun s => s.targetInterface = spec.targetInterface) = none := by
      rw [find?_eq_none]
      intro s hs
      simpa using hdistinct s hs
    rw [hfind]
    simp only [bind_ok, check_ok, pure, Except.pure, Except.ok.injEq, decide_eq_true_eq]
    refine ⟨(), h.configured, spec.ratePolicy, h.policy, (), h.download ▸ h.download_safe, (),
      hlength, ?_⟩
    rw [← h.download, ← h.instance_eq, ← h.section_eq]

def markedOf (entries : List (String × UciSection)) : List (String × String × UciSection) :=
  entries.filterMap fun entry =>
    if entry.2.sectionType = "queue" then (ownerOf entry.2).map fun owner => (entry.1, owner, entry.2)
    else none

theorem mem_markedOf :
    (section_, owner, x) ∈ markedOf sqm.sections.toList ↔ Marked sqm section_ owner x := by
  simp only [markedOf, mem_filterMap, Prod.exists]
  constructor
  · rintro ⟨s, y, hmem, hmarked⟩
    split at hmarked
    · rename_i htype
      obtain ⟨o, howner, heq⟩ := map_eq_some_iff.1 hmarked
      obtain ⟨rfl, rfl, rfl⟩ := heq
      exact ⟨UciPackage.mem_toList.1 hmem, htype, howner⟩
    · cases hmarked
  · intro h
    refine ⟨section_, x, UciPackage.mem_toList.2 h.get, ?_⟩
    rw [if_pos h.sectionType, h.owner]
    rfl

/-- **The stop plan lists the marked queues**, each as it stops by itself, on different devices. -/
theorem stopAll_ok {entries : List (String × UciSection)} :
    stopAll cake r entries managed = .ok managed' ↔
      ∃ specs, List.Forall₂ (fun e spec => StopsAs cake r e.1 e.2.1 e.2.2 spec) (markedOf entries)
        specs ∧
        specs.Pairwise (fun a b => a.targetInterface ≠ b.targetInterface) ∧
        (∀ s ∈ managed, ∀ spec ∈ specs, s.targetInterface ≠ spec.targetInterface) ∧
        (specs ≠ [] → managed.length + specs.length ≤ maxInstances) ∧ managed' = managed ++ specs := by
  induction entries generalizing managed with
  | nil =>
    constructor
    · intro h
      cases h
      exact ⟨[], .nil, .nil, fun _ _ _ hnone => absurd hnone not_mem_nil, fun h => absurd rfl h,
        (append_nil _).symm⟩
    · rintro ⟨specs, hspecs, -, -, -, rfl⟩
      cases hspecs
      rw [append_nil]
      rfl
  | cons entry rest ih =>
    obtain ⟨section_, x⟩ := entry
    by_cases htype : x.sectionType = "queue"
    · cases howner : ownerOf x with
      | none =>
        have hskip : markedOf ((section_, x) :: rest) = markedOf rest := by
          simp [markedOf, htype, howner]
        rw [hskip, ← ih]
        simp [stopAll, htype, howner]
      | some owner =>
        have hcons : markedOf ((section_, x) :: rest) = (section_, owner, x) :: markedOf rest := by
          simp [markedOf, htype, howner]
        have hstep : stopAll cake r ((section_, x) :: rest) managed = .ok managed' ↔
            ∃ next, stopQueue cake r managed section_ owner x = .ok next ∧
              stopAll cake r rest next = .ok managed' := by
          simp [stopAll, htype, howner, bind_ok]
        rw [hstep, hcons]
        constructor
        · rintro ⟨next, hnext, hrest⟩
          obtain ⟨spec, hspec, hfresh, hlength, rfl⟩ := stopQueue_ok.1 hnext
          obtain ⟨specs, hspecs, hpair, hdistinct, hbound, rfl⟩ := ih.1 hrest
          refine ⟨spec :: specs, .cons hspec hspecs, pairwise_cons.2 ⟨?_, hpair⟩, ?_, ?_, ?_⟩
          · intro b hb
            exact hdistinct spec (mem_append_right _ mem_cons_self) b hb
          · intro s hs b hb
            rcases mem_cons.1 hb with rfl | hb
            · exact hfresh s hs
            · exact hdistinct s (mem_append_left _ hs) b hb
          · intro _
            rw [length_cons]
            by_cases hnil : specs = []
            · subst hnil
              rw [length_nil]
              omega
            · have hroom := hbound hnil
              rw [length_append, length_singleton] at hroom
              omega
          · rw [append_assoc]
            rfl
        · rintro ⟨specs, hspecs, hpair, hdistinct, hbound, rfl⟩
          cases hspecs with
          | cons hspec hspecs =>
            rename_i spec specs
            obtain ⟨hfirst, hpair⟩ := pairwise_cons.1 hpair
            have hroom := hbound nofun
            rw [length_cons] at hroom
            refine ⟨managed ++ [spec], stopQueue_ok.2 ⟨spec, hspec, ?_, by omega, rfl⟩,
              ih.2 ⟨specs, hspecs, hpair, ?_, ?_, ?_⟩⟩
            · intro s hs
              exact hdistinct s hs spec mem_cons_self
            · intro s hs b hb
              rcases mem_append.1 hs with hs | hs
              · exact hdistinct s hs b (mem_cons_of_mem _ hb)
              · rw [mem_singleton.1 hs]
                exact hfirst b hb
            · intro _
              rw [length_append, length_singleton]
              omega
            · rw [append_assoc]
              rfl
    · have hskip : markedOf ((section_, x) :: rest) = markedOf rest := by
        simp [markedOf, htype]
      rw [hskip, ← ih]
      simp [stopAll, htype]

section Lists

variable {α β : Type} {l : List α} {m : List β} {R : α → β → Prop}

theorem forall₂_pairwise {P : α → α → Prop} {S : β → β → Prop} (h : List.Forall₂ R l m)
    (himp : ∀ a ∈ l, ∀ a' ∈ l, ∀ b b', R a b → R a' b' → P a a' → S b b') (hl : l.Pairwise P) :
    m.Pairwise S := by
  induction h with
  | nil => exact .nil
  | @cons a b l m hab hrest ih =>
    obtain ⟨hfirst, hl⟩ := pairwise_cons.1 hl
    refine pairwise_cons.2 ⟨fun b' hb' => ?_, ih (fun a ha a' ha' => himp a
      (mem_cons_of_mem _ ha) a' (mem_cons_of_mem _ ha')) hl⟩
    obtain ⟨i, hi, rfl⟩ := getElem_of_mem hb'
    have hi' : i < l.length := hrest.length_eq ▸ hi
    exact himp a mem_cons_self _ (mem_cons_of_mem _ (getElem_mem hi')) b _ hab
      (hrest.get hi' hi) (hfirst _ (getElem_mem hi'))

theorem forall₂_exists (h : ∀ a ∈ l, ∃ b, R a b) : ∃ m, List.Forall₂ R l m := by
  induction l with
  | nil => exact ⟨[], .nil⟩
  | cons a l ih =>
    obtain ⟨⟨b, hb⟩, hrest⟩ := forall_mem_cons.1 h
    obtain ⟨m, hm⟩ := ih hrest
    exact ⟨b :: m, .cons hb hm⟩

theorem forall₂_mem (h : List.Forall₂ R l m) {a : α} (ha : a ∈ l) : ∃ b ∈ m, R a b := by
  obtain ⟨i, hi, rfl⟩ := getElem_of_mem ha
  have hi' : i < m.length := h.length_eq ▸ hi
  exact ⟨_, getElem_mem hi', h.get hi hi'⟩

theorem countP_eq_one {f : α → β} {p : α → Bool} {a : α} (hnodup : (l.map f).Nodup) (ha : a ∈ l)
    (hp : p a = true) (hall : ∀ b ∈ l, p b = true → f b = f a) : l.countP p = 1 := by
  induction l with
  | nil => cases ha
  | cons b l ih =>
    rw [map_cons, nodup_cons] at hnodup
    rw [countP_cons]
    by_cases hb : p b = true
    · -- then no later entry passes: it would have the same image
      have hnone : l.countP p = 0 := by
        rw [countP_eq_zero]
        intro c hc hpc
        refine hnodup.1 ?_
        rw [hall b mem_cons_self hb, ← hall c (mem_cons_of_mem _ hc) hpc]
        exact mem_map_of_mem hc
      rw [hnone, if_pos hb]
    · rw [if_neg hb, Nat.add_zero]
      refine ih hnodup.2 ?_ fun c hc => hall c (mem_cons_of_mem _ hc)
      rcases mem_cons.1 ha with rfl | hmem
      · exact absurd hp hb
      · exact hmem

end Lists

/-- What a marked queue needs to be taken down by itself. -/
structure CanStop (cake : UciPackage) (r : Resolver) (section_ owner : String) (x : UciSection) :
    Prop where
  safe : safeName owner = true ∧ safeName section_ = true
  device : ∃ interface device, nonempty x "interface" = some interface ∧
    r.resolve interface = .ok device ∧ safeInterface device = true ∧
    safeInterface (stopDownload (cake.get owner) device) = true
  controller : ∀ c, cake.get owner = some c → c.sectionType = "cake_autorate" ∧
    ∃ policy, managedSqmRatePolicyFromOptions c.options = .ok policy

theorem controllerPolicy_ok {owner : String} {controller : Option UciSection} :
    (∃ policy, controllerPolicy owner controller = .ok policy) ↔
      ∀ c, controller = some c → ∃ policy, managedSqmRatePolicyFromOptions c.options = .ok policy := by
  cases controller with
  | none => simp [controllerPolicy]
  | some c =>
    simp only [controllerPolicy, some.injEq, forall_eq']
    cases managedSqmRatePolicyFromOptions c.options with
    | ok policy => simp
    | error message => simp

theorem canStop_iff :
    CanStop cake r section_ owner x ↔ ∃ spec, StopsAs cake r section_ owner x spec := by
  constructor
  · intro h
    obtain ⟨interface, device, hinterface, hdevice, hsafe, hdownload⟩ := h.device
    obtain ⟨policy, hpolicy⟩ := (@controllerPolicy_ok owner _).2 fun c hc => (h.controller c hc).2
    refine ⟨⟨owner, section_, device, stopDownload (cake.get owner) device, policy⟩, h.safe,
      ⟨interface, hinterface, hdevice⟩, hsafe, ?_, hpolicy, rfl, hdownload, rfl, rfl⟩
    cases hc : cake.get owner with
    | none => rfl
    | some c => exact beq_iff_eq.2 (h.controller c hc).1
  · rintro ⟨spec, h⟩
    obtain ⟨interface, hinterface, hdevice⟩ := h.target
    refine ⟨h.safe, ⟨interface, spec.targetInterface, hinterface, hdevice, h.target_safe,
      h.download ▸ h.download_safe⟩, fun c hc => ⟨?_, ?_⟩⟩
    · have hconfigured := h.configured
      rw [hc] at hconfigured
      exact beq_iff_eq.1 hconfigured
    · exact controllerPolicy_ok.1 ⟨_, h.policy⟩ c hc

/-- **What a stop needs.** -/
structure StopReady (cake sqm : UciPackage) (r : Resolver) : Prop where
  each : ∀ section_ owner x, Marked sqm section_ owner x → CanStop cake r section_ owner x
  distinct : ∀ a b owner owner' x y interface interface' device, a ≠ b → Marked sqm a owner x →
    Marked sqm b owner' y → x.get "interface" = some interface → y.get "interface" = some interface' →
    r.resolve interface = .ok device → r.resolve interface' ≠ .ok device
  bounded : (markedOf sqm.sections.toList).length ≤ maxInstances

theorem markedOf_sections : (markedOf sqm.sections.toList).Pairwise fun a b => a.1 ≠ b.1 := by
  have hkeys := Std.ExtTreeMap.distinct_keys_toList (t := sqm.sections)
  refine Pairwise.filterMap _ ?_ hkeys
  intro a b hab c hc d hd
  split at hc
  · split at hd
    · obtain ⟨o, -, rfl⟩ := map_eq_some_iff.1 hc
      obtain ⟨o', -, rfl⟩ := map_eq_some_iff.1 hd
      intro hsame
      exact hab (by dsimp only at hsame; rw [hsame]; exact Std.ReflCmp.compare_self)
    · cases hd
  · cases hc

theorem planStop_ok : planStop cake sqm r = .ok plan ↔
    ∃ specs, List.Forall₂ (fun e spec => StopsAs cake r e.1 e.2.1 e.2.2 spec)
        (markedOf sqm.sections.toList) specs ∧
      specs.Pairwise (fun a b => a.targetInterface ≠ b.targetInterface) ∧
      specs.length ≤ maxInstances ∧ plan = ⟨cake, sqm, specs⟩ := by
  simp only [planStop, bind_ok, pure, Except.pure, Except.ok.injEq, stopAll_ok, nil_append]
  constructor
  · rintro ⟨specs, ⟨_, hspecs, hpair, -, hbound, rfl⟩, rfl⟩
    refine ⟨specs, hspecs, hpair, ?_, rfl⟩
    by_cases hnil : specs = []
    · rw [hnil]
      exact Nat.zero_le _
    · simpa using hbound hnil
  · rintro ⟨specs, hspecs, hpair, hbound, rfl⟩
    exact ⟨specs, ⟨specs, hspecs, hpair, fun s hs => absurd hs not_mem_nil,
      fun _ => by simpa using hbound, rfl⟩, rfl⟩

theorem nonempty_get {key value : String} (h : nonempty x key = some value) :
    x.get key = some value := (filter_eq_some_iff.1 h).1

/-- **A stop succeeds exactly when the package is ready for it.** -/
theorem planStop_iff : (∃ plan, planStop cake sqm r = .ok plan) ↔ StopReady cake sqm r := by
  constructor
  · rintro ⟨plan, hplan⟩
    obtain ⟨specs, hspecs, hpair, hbound, -⟩ := planStop_ok.1 hplan
    refine ⟨fun section_ owner x hx => ?_, ?_, hspecs.length_eq ▸ hbound⟩
    · obtain ⟨spec, -, hspec⟩ := forall₂_mem hspecs (mem_markedOf.2 hx)
      exact canStop_iff.2 ⟨spec, hspec⟩
    · have hdistinct : (markedOf sqm.sections.toList).Pairwise fun a b => ∀ i j d,
          a.2.2.get "interface" = some i → b.2.2.get "interface" = some j →
          ¬(r.resolve i = .ok d ∧ r.resolve j = .ok d) := by
        refine forall₂_pairwise hspecs.flip ?_ hpair
        intro s _ s' _ e e' hs hs' hne i j d hi hj hboth
        obtain ⟨i', hi', hdevice⟩ := StopsAs.target hs
        obtain ⟨j', hj', hdevice'⟩ := StopsAs.target hs'
        rw [nonempty_get hi', some.injEq] at hi
        rw [nonempty_get hj', some.injEq] at hj
        rw [hi, hboth.1] at hdevice
        rw [hj, hboth.2] at hdevice'
        exact hne ((Except.ok.inj hdevice).symm.trans (Except.ok.inj hdevice'))
      intro a b owner owner' x y i j d hab hx hy hi hj hdi hdj
      have hsymm : Std.Symm fun a b : String × String × UciSection => ∀ i j d,
          a.2.2.get "interface" = some i → b.2.2.get "interface" = some j →
          ¬(r.resolve i = .ok d ∧ r.resolve j = .ok d) :=
        ⟨fun e e' hne i j d hi hj hboth => hne j i d hj hi hboth.symm⟩
      refine hdistinct.forall (mem_markedOf.2 hx) (mem_markedOf.2 hy) ?_ i j d hi hj ⟨hdi, hdj⟩
      intro hsame
      exact hab (congrArg Prod.fst hsame)
  · intro h
    obtain ⟨specs, hspecs⟩ := forall₂_exists (R := fun e spec => StopsAs cake r e.1 e.2.1 e.2.2 spec)
      (l := markedOf sqm.sections.toList)
      fun e he => canStop_iff.1 (h.each e.1 e.2.1 e.2.2 (mem_markedOf.1 he))
    refine ⟨⟨cake, sqm, specs⟩, planStop_ok.2 ⟨specs, hspecs, ?_, hspecs.length_eq ▸ h.bounded, rfl⟩⟩
    refine forall₂_pairwise hspecs ?_ markedOf_sections
    intro a ha b hb s s' hs hs' hne hsame
    obtain ⟨i, hi, hdevice⟩ := hs.target
    obtain ⟨j, hj, hdevice'⟩ := hs'.target
    refine h.distinct a.1 b.1 a.2.1 b.2.1 a.2.2 b.2.2 i j s.targetInterface hne (mem_markedOf.1 ha)
      (mem_markedOf.1 hb) (nonempty_get hi) (nonempty_get hj) hdevice ?_
    rw [hdevice', hsame]

theorem planStop_entry (h : planStop cake sqm r = .ok plan) (hx : Marked sqm section_ owner x) :
    ∃ spec ∈ plan.managed, StopsAs cake r section_ owner x spec := by
  obtain ⟨specs, hspecs, -, -, rfl⟩ := planStop_ok.1 h
  exact forall₂_mem hspecs (mem_markedOf.2 hx)

theorem planStop_nodup (h : planStop cake sqm r = .ok plan) :
    (plan.managed.map (·.sqmSection)).Nodup := by
  obtain ⟨specs, hspecs, -, -, rfl⟩ := planStop_ok.1 h
  refine pairwise_map.2 (forall₂_pairwise hspecs ?_ markedOf_sections)
  intro a _ b _ s s' hs hs' hne
  rw [hs.section_eq, hs'.section_eq]
  exact hne

end CakeAutorate.Service
