/-
# What is published

One call at a time, from the parts of `Soundness` to the whole history: a tracker has of its
history what it should, and so every rating that is ever published is the complete result of an
episode of its own.
-/

import CakeAutorate.Rating.Soundness

namespace CakeAutorate.Rating

open Wire Machine List QualityGradeTracker Option
open Autotune (classifyQuality)

variable {g : ℚ} {history since before window : List Call} {t : QualityGradeTracker}
  {episodes : List Episode} {w : ActiveWindow} {c : Call} {timestamp : ℚ} {dl ul : Bool}
  {e route : Text}

theorem loadOf_isSome (h : (!dl && !ul) = false) : ∃ load, loadOf dl ul = some load := by
  cases dl <;> cases ul
  · cases h
  · exact ⟨_, rfl⟩
  · exact ⟨_, rfl⟩
  · exact ⟨_, rfl⟩

variable {load : Load}

theorem pushTransport_fields (hload : loadOf dl ul = some load) (w : ActiveWindow) (v time : ℚ) :
    (w.pushTransport v dl ul time).dl = (if load = .download then w.dl ++ [v] else w.dl) ∧
      (w.pushTransport v dl ul time).ul = (if load = .upload then w.ul ++ [v] else w.ul) ∧
        (w.pushTransport v dl ul time).lastTransportLoadedAt = some time := by
  cases dl <;> cases ul <;> cases hload <;> exact ⟨rfl, rfl, rfl⟩

theorem pushTransport_keeps (w : ActiveWindow) (v : ℚ) (dl ul : Bool) (time : ℚ) :
    (w.pushTransport v dl ul time).endpoint = w.endpoint ∧
      (w.pushTransport v dl ul time).baselineP5Ms = w.baselineP5Ms ∧
        (w.pushTransport v dl ul time).routeIdentity = w.routeIdentity ∧
          (w.pushTransport v dl ul time).icmpDl = w.icmpDl ∧
            (w.pushTransport v dl ul time).icmpUl = w.icmpUl ∧
              (w.pushTransport v dl ul time).lastIcmpLoadedAt = w.lastIcmpLoadedAt := by
  cases dl <;> cases ul <;> exact ⟨rfl, rfl, rfl, rfl, rfl, rfl⟩

theorem pushIcmp_fields (hload : loadOf dl ul = some load) (w : ActiveWindow) (d u time : ℚ) :
    (w.pushIcmp d u dl ul time).icmpDl =
        (if load = .download then w.icmpDl ++ [icmpValue d u load] else w.icmpDl) ∧
      (w.pushIcmp d u dl ul time).icmpUl =
          (if load = .upload then w.icmpUl ++ [icmpValue d u load] else w.icmpUl) ∧
        (w.pushIcmp d u dl ul time).lastIcmpLoadedAt = some time := by
  cases dl <;> cases ul <;> cases hload <;> exact ⟨rfl, rfl, rfl⟩

theorem pushIcmp_keeps (w : ActiveWindow) (d u : ℚ) (dl ul : Bool) (time : ℚ) :
    (w.pushIcmp d u dl ul time).endpoint = w.endpoint ∧
      (w.pushIcmp d u dl ul time).baselineP5Ms = w.baselineP5Ms ∧
        (w.pushIcmp d u dl ul time).routeIdentity = w.routeIdentity ∧
          (w.pushIcmp d u dl ul time).dl = w.dl ∧ (w.pushIcmp d u dl ul time).ul = w.ul ∧
            (w.pushIcmp d u dl ul time).lastTransportLoadedAt = w.lastTransportLoadedAt := by
  cases dl <;> cases ul <;> exact ⟨rfl, rfl, rfl, rfl, rfl, rfl⟩

theorem window_gaps {graceS : ℚ}
    (h : ∀ w, t.active = some w → w.evidenceExpired timestamp graceS = false) :
    (∀ time, (t.window timestamp).lastTransportLoadedAt = some time → timestamp - time < graceS) ∧
      ∀ time, (t.window timestamp).lastIcmpLoadedAt = some time → timestamp - time < graceS := by
  unfold window
  cases hactive : t.active with
  | none =>
    constructor
    · intro time htime
      cases htime
    · intro time htime
      cases htime
  | some w =>
    have hfresh := h w hactive
    rw [ActiveWindow.evidenceExpired, Bool.or_eq_false_iff, decide_eq_false_iff_not,
      decide_eq_false_iff_not] at hfresh
    constructor
    · intro time htime
      rw [getD_some] at htime
      rw [htime, getD_some] at hfresh
      exact lt_of_not_ge hfresh.1
    · intro time htime
      rw [getD_some] at htime
      rw [htime, getD_some] at hfresh
      exact lt_of_not_ge hfresh.2

/-- **The baseline of an endpoint** is that of the idle samples since the route changed. -/
theorem Told.baseline (h : Told g history since t episodes)
    (hsince : since = sinceRouteChange g history ∨ since = []) {endpoint : Text} {b : ℚ}
    (hb : t.baselineP5 endpoint = some b) : BaselineAt g history endpoint b := by
  obtain ⟨samples, hget, hb⟩ := bind_eq_some_iff.mp hb
  have hidle := h.idle endpoint
  rw [hget, getD_some] at hidle
  split at hb
  · cases hb
  · rename_i henough
    have hlength : samples.length ≤ (idleOf endpoint since).length := by
      rw [hidle, lastOf, length_drop]
      omega
    rcases hsince with rfl | rfl
    · refine ⟨by omega, ?_⟩
      rw [← hidle]
      exact hb
    · have hzero : samples.length ≤ 0 := hlength
      have : 0 < minBaselineSamples := by decide
      omega

theorem Latched.push {opening latched : List Call} (h : Latched g before opening latched e w)
    {v time : ℚ} (hload : loadOf dl ul = some load) (hv : 0 < v)
    (hgap : ∀ last, w.lastTransportLoadedAt = some last → time - last < grace g) :
    Latched g before opening (latched ++ [.observe e v dl ul time route]) e
      (w.pushTransport v dl ul time) := by
  have hc : (Call.observe e v dl ul time route).transport e = some ⟨load, v, time⟩ := by
    rw [Call.transport, if_pos ⟨rfl, hv⟩, hload, map_some]
  obtain ⟨hdl, hul, hlast⟩ := pushTransport_fields hload w v time
  obtain ⟨hendpoint, hbaseline, -⟩ := pushTransport_keeps w v dl ul time
  obtain ⟨first, rest, rfl, hfirst⟩ := h.begun
  refine ⟨hendpoint.trans h.endpoint, ⟨first, rest ++ [_], rfl, hfirst⟩, ?_, ?_⟩
  · rw [hbaseline]
    exact h.baseline
  · rw [transportOf_push _ hc, hdl, hul, hlast]
    exact h.plane.push ⟨load, v, time⟩ hgap

theorem Unlatched.latch (h : Unlatched w) {v time b : ℚ} (hload : loadOf dl ul = some load)
    (hv : 0 < v) (hb : BaselineAt g (before ++ window) e b) :
    Latched g before window [.observe e v dl ul time route] e
      (({ w with endpoint := some e, baselineP5Ms := some b } : ActiveWindow).pushTransport
        v dl ul time) := by
  have hc : (Call.observe e v dl ul time route).transport e = some ⟨load, v, time⟩ := by
    rw [Call.transport, if_pos ⟨rfl, hv⟩, hload, map_some]
  obtain ⟨hdl, hul, hlast⟩ := pushTransport_fields hload
    ({ w with endpoint := some e, baselineP5Ms := some b } : ActiveWindow) v time
  obtain ⟨hendpoint, hbaseline, -⟩ := pushTransport_keeps
    ({ w with endpoint := some e, baselineP5Ms := some b } : ActiveWindow) v dl ul time
  refine ⟨hendpoint, ⟨_, [], rfl, ?_⟩, ⟨b, hbaseline, hb⟩, ?_⟩
  · rw [hc]
    rfl
  · have hempty : Plane g [] w.dl w.ul w.lastTransportLoadedAt :=
      ⟨h.dl, h.ul, h.last, isChain_nil⟩
    rw [hdl, hul, hlast]
    refine (congrArg (fun samples => Plane g samples _ _ _) (transportOf_push [] hc)).mpr ?_
    refine hempty.push ⟨load, v, time⟩ fun last hsome => ?_
    rw [h.last] at hsome
    cases hsome

/-- What is known of a whole history. -/
abbrev Whole (g : ℚ) (history : List Call) (episodes : List Episode) : Prop :=
  Told g history (sinceRouteChange g history) (tracked g history) episodes

theorem since_append (hc : c.isReset = false)
    (hroute : ((tracked g history).act c).routeIdentity = route) :
    (if (tracked g history).routeIdentity = route then sinceRouteChange g history else []) ++ [c] =
      sinceRouteChange g (history ++ [c]) := by
  rw [sinceRouteChange_append, changesRoute, hc, Bool.false_or, hroute]
  by_cases hsame : (tracked g history).routeIdentity = route
  · have hkept : decide (route ≠ (tracked g history).routeIdentity) = false :=
      decide_eq_false (not_not.mpr hsame.symm)
    rw [hkept, if_pos hsame]
    rfl
  · have hchanged : decide (route ≠ (tracked g history).routeIdentity) = true :=
      decide_eq_true (Ne.symm hsame)
    rw [hchanged, if_neg hsame]
    rfl

theorem Told.ended (h : Told g history since t episodes) {t' : QualityGradeTracker}
    (hgrace : t'.sessionGraceS = t.sessionGraceS) (hbaselines : t'.baselines = t.baselines)
    (hactive : t'.active = none) (hc : ∀ e, c.idle e = none)
    (hstored : ∀ r, t'.lastKnown = some r ∨ t'.latest = some r ∨ t'.captureResult = some r →
      t.lastKnown = some r ∨ t.latest = some r ∨ t.captureResult = some r) :
    Told g (history ++ [c]) (since ++ [c]) t' episodes := by
  refine h.append hgrace ?_ ?_ hstored
  · intro e
    rw [hbaselines]
    exact h.idle_skip hc e
  · intro w hw
    rw [hactive] at hw
    cases hw

section

variable (h : Whole g history episodes)
include h

/-- **An idle sample.** -/
theorem whole_idle {v time : ℚ} (hv : 0 < v) :
    ∃ episodes', episodes <:+ episodes' ∧
      Whole g (history ++ [.observe e v false false time route]) episodes' := by
  have hact : (tracked g history).act (.observe e v false false time route) =
      ({ (tracked g history).setRoute route with
          baselines := ((tracked g history).setRoute route).baselines.push e v } :
        QualityGradeTracker).expire time := by
    show (tracked g history).observe e v false false time route = _
    rw [observe, if_neg (not_le.mpr hv)]
    rfl
  have hset := h.setRoute route
  have hrouted := setRoute_route (tracked g history) route
  have hroute : ((tracked g history).act (.observe e v false false time route)).routeIdentity =
      route := by
    rw [hact, expire_route]
    exact hrouted
  have hpushed := hset.skip (c := .observe e v false false time route)
    (((tracked g history).setRoute route).baselines.push e v) ?_ ?_ rfl ?_
  · obtain ⟨episodes', hsuffix, htold, -⟩ := hpushed.expire time
    rw [since_append rfl hroute, ← hact, ← tracked_append] at htold
    exact ⟨episodes', hsuffix, htold⟩
  · intro e'
    rw [get_push, hset.idle e', idleOf_append]
    by_cases he : e' = e
    · subst he
      have hone : idleOf e' [.observe e' v false false time route] = [v] := by
        rw [idleOf, filterMap_cons, Call.idle, if_pos ⟨rfl, hv, rfl⟩, filterMap_nil]
      rw [if_pos rfl, hone, slide_lastOf]
    · have hnone : idleOf e' [.observe e v false false time route] = [] := by
        rw [idleOf, filterMap_cons, Call.idle, if_neg fun hall => he hall.1.symm, filterMap_nil]
      rw [if_neg he, hnone, append_nil]
  · rw [tracked_append, hroute, hrouted]
  · intro e'
    rw [Call.transport]
    split
    · rfl
    · rfl

/-- **A loaded transport sample.** -/
theorem whole_loaded {v time : ℚ} (hv : 0 < v) (hloaded : (!dl && !ul) = false) :
    ∃ episodes', episodes <:+ episodes' ∧
      Whole g (history ++ [.observe e v dl ul time route]) episodes' := by
  obtain ⟨load, hload⟩ := loadOf_isSome hloaded
  obtain ⟨episodes', hsuffix, htold, hfresh⟩ := (h.setRoute route).expire time
  have hroute₁ : (((tracked g history).setRoute route).expire time).routeIdentity = route := by
    rw [expire_route, setRoute_route]
  have hact : (tracked g history).act (.observe e v dl ul time route) =
      (let t := ((tracked g history).setRoute route).expire time
       let w := t.latch e (t.window time)
       if w.endpoint = some e then
        { t with active := some (w.pushTransport v dl ul time) }
       else { t with active := some w }) := by
    show (tracked g history).observe e v dl ul time route = _
    rw [observe, if_neg (not_le.mpr hv), hloaded]
    rfl
  -- from here on `t` is the tracker where the sample arrives
  generalize ((tracked g history).setRoute route).expire time = t at htold hfresh hroute₁ hact
  simp only [] at hact
  have hsince : (if (tracked g history).routeIdentity = route then sinceRouteChange g history
      else []) = sinceRouteChange g history ∨ (if (tracked g history).routeIdentity = route then
        sinceRouteChange g history else []) = [] := by
    split
    · exact .inl rfl
    · exact .inr rfl
  obtain ⟨hgapTransport, -⟩ := window_gaps hfresh
  obtain ⟨hwroute, before, window, hhistory, hof, hbefore⟩ := htold.windowOf time
  generalize t.window time = w at hgapTransport hwroute hof hact
  have hidle : ∀ e', (Call.observe e v dl ul time route).idle e' = none := by
    intro e'
    rw [Call.idle, if_neg fun hall => ?_]
    rw [hload] at hall
    cases hall.2.2
  have hicmp : (Call.observe e v dl ul time route).icmp = none := rfl
  have hother : ∀ e', e' ≠ e → (Call.observe e v dl ul time route).transport e' = none :=
    fun e' hne => if_neg fun hall => hne hall.1.symm
  -- a window of the history with this call, from what it holds of the samples
  have hfinal : ∀ {w' : ActiveWindow}, (tracked g history).act (.observe e v dl ul time route) =
        { t with active := some w' } → w'.routeIdentity = w.routeIdentity →
      w'.icmpDl = w.icmpDl → w'.icmpUl = w.icmpUl → w'.lastIcmpLoadedAt = w.lastIcmpLoadedAt →
      TransportOf g before (window ++ [.observe e v dl ul time route]) w' →
      Whole g (history ++ [.observe e v dl ul time route]) episodes' := by
    intro w' hact' hroute' hdl hul hlast htransport
    have hrouteNow : ((tracked g history).act (.observe e v dl ul time route)).routeIdentity =
        route := by
      rw [hact']
      exact hroute₁
    rw [Whole, ← since_append rfl hrouteNow, tracked_append, hact']
    refine htold.append rfl (htold.idle_skip hidle) ?_ (fun r hr => hr)
    · intro w'' hw''
      cases hw''
      refine ⟨hroute'.trans hwroute, before, window ++ [.observe e v dl ul time route], ?_,
        ⟨?_, ?_, htransport⟩, hbefore⟩
      · rw [hhistory, append_assoc]
      · rw [hroute']
        refine hof.route.concat ?_
        rw [← hhistory, tracked_append, hrouteNow, hwroute, hroute₁]
      · rw [icmpOf_skip window hicmp, hdl, hul, hlast]
        exact hof.icmp
  have hpushed : ∀ {w' : ActiveWindow}, t.latch e w = w' → w'.endpoint = some e →
      w'.routeIdentity = w.routeIdentity → w'.icmpDl = w.icmpDl → w'.icmpUl = w.icmpUl →
      w'.lastIcmpLoadedAt = w.lastIcmpLoadedAt →
      TransportOf g before (window ++ [.observe e v dl ul time route])
        (w'.pushTransport v dl ul time) →
      Whole g (history ++ [.observe e v dl ul time route]) episodes' := by
    intro w' hlatch hendpoint hroute' hdl hul hlast htransport
    rw [hlatch, if_pos hendpoint] at hact
    obtain ⟨-, -, hkroute, hkdl, hkul, hklast⟩ := pushTransport_keeps w' v dl ul time
    exact hfinal hact (hkroute.trans hroute') (hkdl.trans hdl) (hkul.trans hul)
      (hklast.trans hlast) htransport
  refine ⟨episodes', hsuffix, ?_⟩
  rcases hof.transport with hun | ⟨e', opening, latched, hsplit, hlatched⟩
  · -- nothing is latched yet: this sample latches if its endpoint has a baseline
    cases hb : t.baselineP5 e with
    | none =>
      have hsame : t.latch e w = w := by
        simp [latch, hun.endpoint, hb]
      have hnot : w.endpoint ≠ some e := by
        rw [hun.endpoint]
        exact nofun
      rw [hsame, if_neg hnot] at hact
      exact hfinal hact rfl rfl rfl rfl (.inl hun)
    | some b =>
      have hlatch : t.latch e w = { w with endpoint := some e, baselineP5Ms := some b } := by
        simp [latch, hun.endpoint, hb]
      refine hpushed hlatch rfl rfl rfl rfl rfl (.inr ⟨e, window, [_], rfl, ?_⟩)
      refine hun.latch hload hv ?_
      rw [← hhistory]
      exact htold.baseline hsince hb
  · have hsame : t.latch e w = w := by
      rw [latch, hlatched.endpoint]
      rfl
    by_cases he : e' = e
    · subst he
      refine hpushed hsame hlatched.endpoint rfl rfl rfl rfl (.inr ⟨e', opening,
        latched ++ [.observe e' v dl ul time route], ?_, hlatched.push hload hv hgapTransport⟩)
      rw [hsplit, append_assoc]
    · have hnot : w.endpoint ≠ some e := by
        rw [hlatched.endpoint]
        exact fun heq => he (some.inj heq)
      rw [hsame, if_neg hnot] at hact
      refine hfinal hact rfl rfl rfl rfl (hof.transport.skip ?_)
      intro e'' he''
      rw [hlatched.endpoint] at he''
      rw [← some.inj he'']
      exact hother e' he

/-- **A loaded ICMP sample.** -/
theorem whole_icmp {d u time : ℚ} (hloaded : (!dl && !ul) = false) :
    ∃ episodes', episodes <:+ episodes' ∧
      Whole g (history ++ [.observeIcmpDelta d u dl ul time route]) episodes' := by
  obtain ⟨load, hload⟩ := loadOf_isSome hloaded
  obtain ⟨episodes', hsuffix, htold, hfresh⟩ := (h.setRoute route).expire time
  have hroute₁ : (((tracked g history).setRoute route).expire time).routeIdentity = route := by
    rw [expire_route, setRoute_route]
  have hact : (tracked g history).act (.observeIcmpDelta d u dl ul time route) =
      (let t := ((tracked g history).setRoute route).expire time
       { t with active := some ((t.window time).pushIcmp d u dl ul time) }) := by
    show (tracked g history).observeIcmpDelta d u dl ul time route = _
    rw [observeIcmpDelta, hloaded]
    rfl
  generalize ((tracked g history).setRoute route).expire time = t at htold hfresh hroute₁ hact
  simp only [] at hact
  obtain ⟨-, hgapIcmp⟩ := window_gaps hfresh
  obtain ⟨hwroute, before, window, hhistory, hof, hbefore⟩ := htold.windowOf time
  generalize t.window time = w at hgapIcmp hwroute hof hact
  have hrouteNow : ((tracked g history).act (.observeIcmpDelta d u dl ul time route)).routeIdentity =
      route := by
    rw [hact]
    exact hroute₁
  have hc : (Call.observeIcmpDelta d u dl ul time route).icmp =
      some ⟨load, icmpValue d u load, time⟩ := by
    rw [Call.icmp, hload, map_some]
  obtain ⟨hdl, hul, hlast⟩ := pushIcmp_fields hload w d u time
  obtain ⟨hendpoint, hbaseline, hkroute, hkdl, hkul, hklast⟩ := pushIcmp_keeps w d u dl ul time
  have hidle : ∀ e, (Call.observeIcmpDelta d u dl ul time route).idle e = none := fun _ => rfl
  refine ⟨episodes', hsuffix, ?_⟩
  rw [Whole, ← since_append rfl hrouteNow, tracked_append, hact]
  refine htold.append rfl (htold.idle_skip hidle) ?_ (fun r hr => hr)
  · intro w' hw'
    cases hw'
    refine ⟨hkroute.trans hwroute, before, window ++ [.observeIcmpDelta d u dl ul time route], ?_,
      ⟨?_, ?_, ?_⟩, hbefore⟩
    · rw [hhistory, append_assoc]
    · rw [hkroute]
      refine hof.route.concat ?_
      rw [← hhistory, tracked_append, hrouteNow, hwroute, hroute₁]
    · rw [icmpOf_push window hc, hdl, hul, hlast]
      exact hof.icmp.push ⟨load, icmpValue d u load, time⟩ hgapIcmp
    · have hskip := hof.transport.skip (c := .observeIcmpDelta d u dl ul time route)
        (fun _ _ => rfl)
      rcases hskip with hun | ⟨e, opening, latched, hsplit, hlatched⟩
      · exact .inl ⟨hendpoint.trans hun.endpoint, hbaseline.trans hun.baseline, hkdl.trans hun.dl,
          hkul.trans hun.ul, hklast.trans hun.last⟩
      · refine .inr ⟨e, opening, latched, hsplit, hendpoint.trans hlatched.endpoint, hlatched.begun,
          ?_, ?_⟩
        · rw [hbaseline]
          exact hlatched.baseline
        · rw [hkdl, hkul, hklast]
          exact hlatched.plane

theorem whole_quiet (hact : (tracked g history).act c = tracked g history)
    (hreset : c.isReset = false) (hicmp : c.icmp = none) (htransport : ∀ e, c.transport e = none)
    (hidle : ∀ e, c.idle e = none) : Whole g (history ++ [c]) episodes := by
  have hskip := h.skip (c := c) (tracked g history).baselines (h.idle_skip hidle)
    (by rw [tracked_append, hact]) hicmp htransport
  have hsince := since_append hreset (congrArg routeIdentity hact)
  rw [if_pos rfl] at hsince
  rw [Whole, tracked_append, hact, ← hsince]
  exact hskip

/-- **A call.** -/
theorem whole_act (c : Call) :
    ∃ episodes', episodes <:+ episodes' ∧ Whole g (history ++ [c]) episodes' := by
  -- a call that keeps the route and leaves no window open
  have hended : ∀ {t' : QualityGradeTracker} {episodes' : List Episode}, c.isReset = false →
      (tracked g history).act c = t' → episodes <:+ episodes' →
      t'.routeIdentity = (tracked g history).routeIdentity →
      Told g (history ++ [c]) (sinceRouteChange g history ++ [c]) t' episodes' →
      ∃ episodes', episodes <:+ episodes' ∧ Whole g (history ++ [c]) episodes' := by
    intro t' episodes' hreset hact hsuffix hroute htold
    have hsince := since_append hreset ((congrArg routeIdentity hact).trans hroute)
    rw [if_pos rfl] at hsince
    rw [hsince, ← hact, ← tracked_append] at htold
    exact ⟨episodes', hsuffix, htold⟩
  cases c with
  | observe e v dl ul time route =>
    by_cases hv : 0 < v
    · by_cases hloaded : (!dl && !ul) = false
      · exact whole_loaded h hv hloaded
      · have hflags : dl = false ∧ ul = false := by
          cases dl <;> cases ul <;> simp_all
        obtain ⟨rfl, rfl⟩ := hflags
        exact whole_idle h hv
    · refine ⟨episodes, suffix_refl _, whole_quiet h ?_ rfl rfl ?_ ?_⟩
      · exact if_pos (not_lt.mp hv)
      · exact fun e' => if_neg fun hall => hv hall.2
      · exact fun e' => if_neg fun hall => hv hall.2.1
  | observeIcmpDelta d u dl ul time route =>
    by_cases hloaded : (!dl && !ul) = false
    · exact whole_icmp h hloaded
    · have hflags : dl = false ∧ ul = false := by
        cases dl <;> cases ul <;> simp_all
      obtain ⟨rfl, rfl⟩ := hflags
      exact ⟨episodes, suffix_refl _, whole_quiet h rfl rfl rfl (fun _ => rfl) fun _ => rfl⟩
  | setRoute route =>
    have hset := h.setRoute route
    have hroute := setRoute_route (tracked g history) route
    have hskip := hset.skip (c := .setRoute route) ((tracked g history).setRoute route).baselines
      (hset.idle_skip fun _ => rfl) (by rw [tracked_append]; rfl) rfl (fun _ => rfl)
    have hsince := since_append (c := .setRoute route) rfl hroute
    rw [hsince] at hskip
    refine ⟨episodes, suffix_refl _, ?_⟩
    rw [Whole, tracked_append]
    exact hskip
  | beginCapture time jobId generation =>
    obtain ⟨episodes', hsuffix, htold, hnone⟩ := h.finish time
    obtain ⟨hroute, hbaselines, hgrace⟩ := finishActive_keeps (tracked g history) time
    refine hended rfl rfl hsuffix hroute (htold.ended rfl rfl hnone (fun _ => rfl) ?_)
    rintro r (hr | hr | hr)
    · exact .inl hr
    · cases hr
    · cases hr
  | cancelCapture =>
    refine hended rfl rfl (suffix_refl _) rfl (h.ended rfl rfl rfl (fun _ => rfl) ?_)
    rintro r (hr | hr | hr)
    · exact .inl hr
    · cases hr
    · cases hr
  | endCapture time =>
    obtain ⟨episodes', hsuffix, htold, hnone⟩ := h.finish time
    obtain ⟨hroute, hbaselines, hgrace⟩ := finishActive_keeps (tracked g history) time
    exact hended rfl rfl hsuffix hroute (htold.ended rfl rfl hnone (fun _ => rfl) fun r hr => hr)
  | reset =>
    refine ⟨episodes, suffix_refl _, ?_⟩
    have hsince : sinceRouteChange g (history ++ [.reset]) = [.reset] := by
      rw [sinceRouteChange_append]
      rfl
    rw [Whole, hsince, tracked_append]
    refine h.append rfl (fun _ => rfl) ?_ ?_
    · intro w hw
      cases hw
    · rintro r (hr | hr | hr)
      · cases hr
      · cases hr
      · cases hr

end

/-- What the result of a complete episode comes to. -/
structure Episode.Complete (e : Episode) : Prop where
  dlTransport : minLoadedSamples ≤ (valuesOf .download (transportOf e.endpoint e.latched)).length
  dlIcmp : minLoadedSamples ≤ (valuesOf .download (icmpOf e.calls)).length
  ulTransport : minLoadedSamples ≤ (valuesOf .upload (transportOf e.endpoint e.latched)).length
  ulIcmp : minLoadedSamples ≤ (valuesOf .upload (icmpOf e.calls)).length
  grade : ∃ dl ul, e.result.dl = some dl ∧ e.result.ul = some ul ∧
    e.result.increaseMs = max dl.increaseMs ul.increaseMs ∧
      e.result.class_ = classifyQuality e.result.increaseMs

theorem clampIncreaseMs_nonneg (v : ℚ) : 0 ≤ clampIncreaseMs v := by
  unfold clampIncreaseMs
  split
  · exact le_rfl
  · exact le_max_right _ _

theorem combinedMetric_some {transport icmp : List ℚ} {b : ℚ} {m : QualityGradeMetric}
    (h : combinedMetric transport icmp b = some m) : minLoadedSamples ≤ transport.length ∧
      minLoadedSamples ≤ icmp.length ∧ 0 ≤ m.increaseMs ∧
        m.class_ = classifyQuality m.increaseMs := by
  obtain ⟨p, htransport, h⟩ := bind_eq_some_iff.mp h
  obtain ⟨i, hicmp, h⟩ := bind_eq_some_iff.mp h
  cases h
  unfold transportMetric at htransport
  unfold icmpMetric at hicmp
  split at htransport
  · cases htransport
  split at hicmp
  · cases hicmp
  refine ⟨by omega, by omega, ?_, rfl⟩
  obtain ⟨p90, -, rfl⟩ := map_eq_some_iff.mp htransport
  exact le_trans (clampIncreaseMs_nonneg _) (le_max_left _ _)

theorem qualityRank_anti {a b : ℚ} (ha : 0 ≤ a) (hab : a ≤ b) :
    qualityRank (classifyQuality b) ≤ qualityRank (classifyQuality a) := by
  have hna : ¬a < 0 := not_lt.mpr ha
  have hnb : ¬b < 0 := not_lt.mpr (ha.trans hab)
  have hle : ∀ c : ℚ, b < c → a < c := fun c hc => lt_of_le_of_lt hab hc
  unfold classifyQuality
  rw [if_neg hna, if_neg hnb]
  by_cases h5 : b < 5
  · rw [if_pos h5, if_pos (hle 5 h5)]
  rw [if_neg h5]
  by_cases h30 : b < 30
  · rw [if_pos h30, if_pos (hle 30 h30)]
    split <;> decide
  by_cases h60 : b < 60
  · rw [if_pos h60, if_pos (hle 60 h60)]
    split_ifs <;> decide
  by_cases h200 : b < 200
  · rw [if_pos h200, if_pos (hle 200 h200)]
    split_ifs <;> decide
  by_cases h400 : b < 400
  · rw [if_pos h400, if_pos (hle 400 h400)]
    split_ifs <;> decide
  split_ifs <;> decide

theorem qualityRank_injective : Function.Injective qualityRank := by
  intro class_ other h
  cases class_ <;> cases other <;> first | rfl | exact absurd h (by decide)

/-- **Two metrics come to the larger increase**, and to its class. -/
theorem verdict_complete {dl ul : QualityGradeMetric} (hdl : 0 ≤ dl.increaseMs)
    (hul : 0 ≤ ul.increaseMs) (hdlClass : dl.class_ = classifyQuality dl.increaseMs)
    (hulClass : ul.class_ = classifyQuality ul.increaseMs) :
    (verdict (some dl) (some ul)).2.1 = max dl.increaseMs ul.increaseMs ∧
      (verdict (some dl) (some ul)).1 = classifyQuality (max dl.increaseMs ul.increaseMs) := by
  by_cases hrank : qualityRank dl.class_ ≤ qualityRank ul.class_
  · have hverdict : verdict (some dl) (some ul) =
        (dl.class_, max dl.increaseMs ul.increaseMs, false, false, "complete") := if_pos hrank
    rw [hverdict]
    refine ⟨rfl, ?_⟩
    rw [hdlClass, hulClass] at hrank
    rcases le_total ul.increaseMs dl.increaseMs with hle | hle
    · rw [max_eq_left hle]
      exact hdlClass
    · rw [max_eq_right hle, hdlClass]
      exact qualityRank_injective (le_antisymm hrank (qualityRank_anti hdl hle))
  · have hverdict : verdict (some dl) (some ul) =
        (ul.class_, max dl.increaseMs ul.increaseMs, false, false, "complete") := if_neg hrank
    rw [hverdict]
    refine ⟨rfl, ?_⟩
    rw [hdlClass, hulClass] at hrank
    rcases le_total ul.increaseMs dl.increaseMs with hle | hle
    · exact absurd (qualityRank_anti hul hle) hrank
    · rw [max_eq_right hle]
      exact hulClass

theorem authoritative_some {now : ℚ} {r : QualityGradeResult}
    (h : (t.snapshot now).authoritativeCompleteResult = some r) :
    t.lastKnown = some r ∧ r.routeIdentity = t.routeIdentity ∧ r.dl.isSome ∧ r.ul.isSome := by
  obtain ⟨r', hknown, h⟩ := bind_eq_some_iff.mp h
  replace hknown : t.lastKnown = some r' := hknown
  split at h
  · rename_i hall
    obtain rfl := some.inj h
    simp only [Bool.and_eq_true] at hall
    obtain ⟨⟨⟨⟨⟨hstale, -⟩, -⟩, -⟩, hdl⟩, hul⟩ := hall
    refine ⟨hknown, ?_, hdl, hul⟩
    have hfresh : (t.snapshot now).lastKnownStale =
        decide (r'.routeIdentity ≠ t.routeIdentity) := by
      show (t.lastKnown.map _).getD false = _
      rw [hknown]
      rfl
    rw [hfresh] at hstale
    simpa using hstale
  · cases h

theorem Episode.Sound.complete {e : Episode} (h : e.Sound g history)
    (hdl : e.result.dl.isSome) (hul : e.result.ul.isSome) : e.Complete := by
  obtain ⟨dl, hdl⟩ := isSome_iff_exists.mp hdl
  obtain ⟨ul, hul⟩ := isSome_iff_exists.mp hul
  obtain ⟨hdlTransport, hdlIcmp, hdlNonneg, hdlClass⟩ := combinedMetric_some (h.dl ▸ hdl)
  obtain ⟨hulTransport, hulIcmp, hulNonneg, hulClass⟩ := combinedMetric_some (h.ul ▸ hul)
  obtain ⟨hincrease, hclass⟩ := verdict_complete hdlNonneg hulNonneg hdlClass hulClass
  have hverdict := h.verdict
  rw [hdl, hul] at hverdict
  have hclassEq : e.result.class_ = (Rating.verdict (some dl) (some ul)).1 :=
    congrArg Prod.fst hverdict
  have hincreaseEq : e.result.increaseMs = (Rating.verdict (some dl) (some ul)).2.1 :=
    congrArg (fun v => v.2.1) hverdict
  refine ⟨hdlTransport, hdlIcmp, hulTransport, hulIcmp, dl, ul, hdl, hul, ?_, ?_⟩
  · rw [hincreaseEq, hincrease]
  · rw [hclassEq, hclass, hincreaseEq, hincrease]

/-- **The first call.** -/
theorem whole_new (g : ℚ) : Whole g [] [] where
  grace := rfl
  idle := fun _ => rfl
  active := by
    intro w hw
    cases hw
  sound := by
    intro e he
    cases he
  apart := List.Pairwise.nil
  stored := by
    rintro r (hr | hr | hr)
    · cases hr
    · cases hr
    · cases hr

/-- **The published rating is sound.**  Whatever is published after any of the calls is of the
current route and the result of a complete episode, and episodes have no call in common. -/
theorem rating_sound (sessionGraceS : ℚ) (history : List Call) :
    ∃ episodes : List Episode, (∀ e ∈ episodes, e.Sound sessionGraceS history) ∧
      (episodes.Pairwise fun e e' => e'.stop ≤ e.first) ∧
      ∀ calls, calls <+: history → ∀ now r,
        ((tracked sessionGraceS calls).snapshot now).authoritativeCompleteResult = some r →
        r.routeIdentity = (tracked sessionGraceS calls).routeIdentity ∧
          ∃ e ∈ episodes, e.result = r ∧ e.stop ≤ calls.length ∧ e.Complete := by
  have hwhole : ∃ episodes, Whole sessionGraceS history episodes ∧ ∀ calls, calls <+: history →
      ∀ r, (tracked sessionGraceS calls).lastKnown = some r →
        ∃ e ∈ episodes, e.result = r ∧ e.stop ≤ calls.length := by
    induction history using reverseRecOn with
    | nil =>
      refine ⟨[], whole_new sessionGraceS, ?_⟩
      intro calls hcalls r hr
      rw [prefix_nil.mp hcalls] at hr
      cases hr
    | append_singleton history c ih =>
      obtain ⟨episodes, htold, hknown⟩ := ih
      obtain ⟨episodes', hsuffix, htold'⟩ := whole_act htold c
      refine ⟨episodes', htold', ?_⟩
      intro calls hcalls r hr
      rcases prefix_concat_iff.mp hcalls with rfl | hold
      · obtain ⟨e, he, hresult⟩ := htold'.stored r (.inl hr)
        exact ⟨e, he, hresult, (htold'.sound e he).stop_le⟩
      · obtain ⟨e, he, hresult⟩ := hknown calls hold r hr
        exact ⟨e, hsuffix.subset he, hresult⟩
  obtain ⟨episodes, htold, hknown⟩ := hwhole
  refine ⟨episodes, htold.sound, htold.apart, ?_⟩
  intro calls hcalls now r hr
  obtain ⟨hlast, hroute, hdl, hul⟩ := authoritative_some hr
  obtain ⟨e, he, rfl, hstop⟩ := hknown calls hcalls r hlast
  exact ⟨hroute, e, he, rfl, hstop, (htold.sound e he).complete hdl hul⟩

/-- The calls before the first sample of one direction: idle ones, a sample under load in both
directions, and then idle ones again. -/
def openedByBoth : List Call :=
  replicate 20 (.observe ['e'] 10 false false 0 ['r']) ++
    [.observe ['e'] 50 true true 1 ['r']] ++ replicate 120 (.observe ['e'] 30 false false 1 ['r'])

/-- Loaded samples enough of each direction. -/
def bothComplete : List Call :=
  replicate 20 (.observe ['e'] 100 true false 2 ['r']) ++
    replicate 20 (.observeIcmpDelta 40 0 true false 2 ['r']) ++
      replicate 20 (.observe ['e'] 100 false true 3 ['r']) ++
        replicate 20 (.observeIcmpDelta 0 40 false true 3 ['r'])

/-- They end the capture. -/
def eachDirection : List Call := bothComplete ++ [.endCapture 4]

theorem both_directions_take_baseline :
    ∃ r, ((tracked 30 (openedByBoth ++ eachDirection)).snapshot 5).authoritativeCompleteResult =
        some r ∧
      ∀ n, 20 ≤ n → n ≤ 120 →
        percentile (lastOf n (idleOf ['e'] openedByBoth)) 5 ≠ some r.baselineP5Ms := by
  have hpublished : (((tracked 30 (openedByBoth ++ eachDirection)).snapshot
      5).authoritativeCompleteResult.map QualityGradeResult.baselineP5Ms) = some 10 := by
    decide +kernel
  obtain ⟨r, hr, hbaseline⟩ := map_eq_some_iff.mp hpublished
  have hlate : ∀ n < 121, 20 ≤ n →
      percentile (lastOf n (idleOf ['e'] openedByBoth)) 5 ≠ some 10 := by
    decide +kernel
  refine ⟨r, hr, fun n hlow hhigh => ?_⟩
  rw [hbaseline]
  exact hlate n (by omega) hlow

end CakeAutorate.Rating
