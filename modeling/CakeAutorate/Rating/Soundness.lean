/-
# The published rating is sound

What each part of a call does to what a tracker has of its history: a route change drops the
window and the idle samples, a window that is finished becomes an episode, and a sample is
appended to the stretch of its window.  From that every rating that is ever published is the
result of an episode that is complete, and the episodes are disjoint.
-/

import CakeAutorate.Rating.Episodes

namespace CakeAutorate.Rating

open Wire Machine List QualityGradeTracker Option
open Autotune (QualityClass classifyQuality)

variable {g : ℚ} {history since before window : List Call} {t : QualityGradeTracker}
  {episodes : List Episode} {w : ActiveWindow} {c : Call} {timestamp : ℚ}

section

variable (t : QualityGradeTracker)

/-- What `finish_active` can do. -/
theorem finishActive_cases (timestamp : ℚ) :
    (t.active = none ∧ t.finishActive timestamp = t) ∨
      ∃ w, t.active = some w ∧ (t.finishActive timestamp = { t with active := none } ∨
        ∃ r, w.result (some timestamp) = some r ∧
          t.finishActive timestamp = ({ t with active := none } : QualityGradeTracker).store r) := by
  unfold finishActive
  cases hactive : t.active with
  | none => exact .inl ⟨rfl, rfl⟩
  | some w =>
    refine .inr ⟨w, rfl, ?_⟩
    simp only []
    by_cases hsamples : w.samples = 0
    · rw [if_pos hsamples]
      exact .inl rfl
    · rw [if_neg hsamples]
      cases hresult : w.result (some timestamp) with
      | none => exact .inl rfl
      | some r => exact .inr ⟨r, rfl, rfl⟩

theorem store_keeps (r : QualityGradeResult) :
    (t.store r).baselines = t.baselines ∧ (t.store r).active = t.active ∧
      (t.store r).routeIdentity = t.routeIdentity ∧ (t.store r).sessionGraceS = t.sessionGraceS := by
  unfold store
  split
  · exact ⟨rfl, rfl, rfl, rfl⟩
  · exact ⟨rfl, rfl, rfl, rfl⟩

theorem finishActive_keeps (timestamp : ℚ) :
    (t.finishActive timestamp).routeIdentity = t.routeIdentity ∧
      (t.finishActive timestamp).baselines = t.baselines ∧
        (t.finishActive timestamp).sessionGraceS = t.sessionGraceS := by
  rcases finishActive_cases t timestamp with ⟨-, heq⟩ | ⟨w, -, heq | ⟨r, -, heq⟩⟩
  · rw [heq]
    exact ⟨rfl, rfl, rfl⟩
  · rw [heq]
    exact ⟨rfl, rfl, rfl⟩
  · obtain ⟨hbaselines, -, hroute, hgrace⟩ :=
      store_keeps ({ t with active := none } : QualityGradeTracker) r
    rw [heq]
    exact ⟨hroute, hbaselines, hgrace⟩

theorem expire_route (timestamp : ℚ) : (t.expire timestamp).routeIdentity = t.routeIdentity := by
  unfold expire
  split
  · exact (finishActive_keeps t timestamp).1
  · rfl

end

theorem stored_store {t : QualityGradeTracker} {r r' : QualityGradeResult}
    (h : (t.store r).lastKnown = some r' ∨ (t.store r).latest = some r' ∨
      (t.store r).captureResult = some r') :
    r' = r ∨ t.lastKnown = some r' ∨ t.latest = some r' ∨ t.captureResult = some r' := by
  unfold store at h
  split at h
  · rcases h with h | h | h
    · exact .inl (some.inj h).symm
    · cases h
    · simp only [] at h
      split at h
      · exact .inl (some.inj h).symm
      · exact .inr (.inr (.inr h))
  · rcases h with h | h | h
    · exact .inr (.inl h)
    · exact .inl (some.inj h).symm
    · exact .inr (.inr (.inr h))

/-- **The result of a window** that is finished is the result of an episode. -/
theorem WindowOf.episode (hw : WindowOf g before window w) {completedAt : Option ℚ}
    {r : QualityGradeResult} (hr : w.result completedAt = some r) :
    ∃ opening latched endpoint, window = opening ++ latched ∧
      (⟨before, opening, latched, endpoint, r⟩ : Episode).Sound g (before ++ window) := by
  obtain ⟨endpoint, hendpoint, hr⟩ := bind_eq_some_iff.mp hr
  obtain ⟨baseline, hbaseline, hr⟩ := bind_eq_some_iff.mp hr
  cases hr
  rcases hw.transport with hun | ⟨e, opening, latched, hsplit, hlatched⟩
  · rw [hun.endpoint] at hendpoint
    cases hendpoint
  · obtain rfl : e = endpoint := by
      rw [hlatched.endpoint] at hendpoint
      exact some.inj hendpoint
    obtain ⟨b, hb, hat⟩ := hlatched.baseline
    obtain rfl : b = baseline := by
      rw [hb] at hbaseline
      exact some.inj hbaseline
    subst hsplit
    refine ⟨opening, latched, e, rfl, prefix_refl _, hlatched.begun, hw.route, rfl, hat,
      hlatched.plane.apart, hw.icmp.apart, ?_, ?_, rfl⟩
    · show combinedMetric w.dl w.icmpDl b = _
      rw [hlatched.plane.dl, hw.icmp.dl]
      rfl
    · show combinedMetric w.ul w.icmpUl b = _
      rw [hlatched.plane.ul, hw.icmp.ul]
      rfl

theorem Episode.Sound.mono {e : Episode} {history' : List Call} (h : e.Sound g history)
    (hlonger : history <+: history') : e.Sound g history' :=
  { h with part := h.part.trans hlonger }

theorem Episode.Sound.stop_le {e : Episode} (h : e.Sound g history) : e.stop ≤ history.length :=
  h.part.length_le

/-- **A window is finished.** -/
theorem Told.finish (h : Told g history since t episodes) (timestamp : ℚ) :
    ∃ episodes', episodes <:+ episodes' ∧
      Told g history since (t.finishActive timestamp) episodes' ∧
        (t.finishActive timestamp).active = none := by
  rcases finishActive_cases t timestamp with ⟨hnone, heq⟩ | ⟨w, hw, heq | ⟨r, hr, heq⟩⟩
  · rw [heq]
    exact ⟨episodes, suffix_refl _, h, hnone⟩
  · rw [heq]
    refine ⟨episodes, suffix_refl _, { h with active := ?_ }, rfl⟩
    intro w' hw'
    cases hw'
  · obtain ⟨hroute, before, window, hhistory, hof, hbefore⟩ := h.active w hw
    obtain ⟨opening, latched, endpoint, hsplit, hsound⟩ := hof.episode hr
    obtain ⟨hbaselines, hactive, -, hgrace⟩ :=
      store_keeps ({ t with active := none } : QualityGradeTracker) r
    rw [heq]
    refine ⟨⟨before, opening, latched, endpoint, r⟩ :: episodes, suffix_cons _ _, ?_, hactive⟩
    refine ⟨hgrace.trans h.grace, ?_, ?_, ?_, ?_, ?_⟩
    · intro e
      rw [hbaselines]
      exact h.idle e
    · intro w' hw'
      rw [hactive] at hw'
      cases hw'
    · intro e he
      rcases mem_cons.mp he with rfl | hold
      · rw [hhistory]
        exact hsound
      · exact h.sound e hold
    · exact pairwise_cons.mpr ⟨hbefore, h.apart⟩
    · intro r' hr'
      rcases stored_store hr' with rfl | hold
      · exact ⟨_, mem_cons_self, rfl⟩
      · obtain ⟨e, he, hresult⟩ := h.stored r' hold
        exact ⟨e, mem_cons_of_mem _ he, hresult⟩

theorem Told.expire (h : Told g history since t episodes) (timestamp : ℚ) :
    ∃ episodes', episodes <:+ episodes' ∧ Told g history since (t.expire timestamp) episodes' ∧
      ∀ w, (t.expire timestamp).active = some w →
        w.evidenceExpired timestamp (Rating.grace g) = false := by
  unfold QualityGradeTracker.expire
  by_cases hexpired : (t.active.map fun active =>
      active.evidenceExpired timestamp t.sessionGraceS).getD false = true
  · rw [if_pos hexpired]
    obtain ⟨episodes', hsuffix, htold, hnone⟩ := h.finish timestamp
    refine ⟨episodes', hsuffix, htold, ?_⟩
    intro w hw
    rw [hnone] at hw
    cases hw
  · rw [if_neg hexpired]
    refine ⟨episodes, suffix_refl _, h, ?_⟩
    intro w hw
    rw [hw, map_some, getD_some, h.grace] at hexpired
    exact Bool.eq_false_iff.mpr hexpired

theorem setRoute_route (t : QualityGradeTracker) (route : Text) :
    (t.setRoute route).routeIdentity = route := by
  unfold setRoute
  split
  · assumption
  · rfl

theorem Told.setRoute (h : Told g history since t episodes) (route : Text) :
    Told g history (if t.routeIdentity = route then since else []) (t.setRoute route) episodes := by
  unfold QualityGradeTracker.setRoute
  by_cases hsame : t.routeIdentity = route
  · rw [if_pos hsame, if_pos hsame]
    exact h
  · rw [if_neg hsame, if_neg hsame]
    refine { h with idle := fun _ => rfl, active := ?_, stored := ?_ }
    · intro w hw
      cases hw
    · intro r hr
      rcases hr with hr | hr | hr
      · exact h.stored r (.inl hr)
      · cases hr
      · cases hr

theorem RouteKept.concat {route : Text} (h : RouteKept g before window route)
    (hnext : (tracked g (before ++ window ++ [c])).routeIdentity = route) :
    RouteKept g before (window ++ [c]) route := by
  intro start hne hstart
  rcases prefix_concat_iff.mp hstart with rfl | hold
  · rw [← append_assoc]
    exact hnext
  · exact h start hne hold

theorem icmpOf_skip (window : List Call) (hc : c.icmp = none) :
    icmpOf (window ++ [c]) = icmpOf window := by
  have hnone : icmpOf [c] = [] := by
    rw [icmpOf, filterMap_cons, hc, filterMap_nil]
  rw [icmpOf_append, hnone, append_nil]

theorem icmpOf_push (window : List Call) {s : Sample} (hc : c.icmp = some s) :
    icmpOf (window ++ [c]) = icmpOf window ++ [s] := by
  have hone : icmpOf [c] = [s] := by
    rw [icmpOf, filterMap_cons, hc, filterMap_nil]
  rw [icmpOf_append, hone]

theorem transportOf_skip {e : Text} (calls : List Call) (hc : c.transport e = none) :
    transportOf e (calls ++ [c]) = transportOf e calls := by
  have hnone : transportOf e [c] = [] := by
    rw [transportOf, filterMap_cons, hc, filterMap_nil]
  rw [transportOf_append, hnone, append_nil]

theorem transportOf_push {e : Text} (calls : List Call) {s : Sample} (hc : c.transport e = some s) :
    transportOf e (calls ++ [c]) = transportOf e calls ++ [s] := by
  have hone : transportOf e [c] = [s] := by
    rw [transportOf, filterMap_cons, hc, filterMap_nil]
  rw [transportOf_append, hone]

theorem TransportOf.skip (h : TransportOf g before window w)
    (hc : ∀ e, w.endpoint = some e → c.transport e = none) :
    TransportOf g before (window ++ [c]) w := by
  rcases h with hun | ⟨e, opening, latched, rfl, hlatched⟩
  · exact .inl hun
  · have hsame := transportOf_skip latched (hc e hlatched.endpoint)
    obtain ⟨first, rest, rfl, hfirst⟩ := hlatched.begun
    refine .inr ⟨e, opening, (first :: rest) ++ [c], append_assoc _ _ _, ?_⟩
    refine ⟨hlatched.endpoint, ⟨first, rest ++ [c], rfl, hfirst⟩, hlatched.baseline, ?_⟩
    rw [hsame]
    exact hlatched.plane

section

variable (h : Told g history since t episodes)
include h

theorem Told.windowOf (timestamp : ℚ) :
    (t.window timestamp).routeIdentity = t.routeIdentity ∧
      ∃ before window, history = before ++ window ∧ WindowOf g before window (t.window timestamp) ∧
        ∀ e ∈ episodes, e.stop ≤ before.length := by
  unfold window
  cases hactive : t.active with
  | some w => exact h.active w hactive
  | none =>
    refine ⟨rfl, history, [], (append_nil _).symm, ⟨?_, ?_, ?_⟩, fun e he => (h.sound e he).stop_le⟩
    · intro start hne hstart
      exact absurd (prefix_nil.mp hstart) hne
    · exact ⟨rfl, rfl, rfl, isChain_nil⟩
    · exact .inl ⟨rfl, rfl, rfl, rfl, rfl⟩

theorem Told.append {t' : QualityGradeTracker} {since' : List Call}
    (hgrace : t'.sessionGraceS = t.sessionGraceS)
    (hidle : ∀ e, (t'.baselines.get e).getD [] = lastOf baselineWindow (idleOf e since'))
    (hactive : ∀ w, t'.active = some w → w.routeIdentity = t'.routeIdentity ∧
      ∃ before window, history ++ [c] = before ++ window ∧ WindowOf g before window w ∧
      ∀ e ∈ episodes, e.stop ≤ before.length)
    (hstored : ∀ r, t'.lastKnown = some r ∨ t'.latest = some r ∨ t'.captureResult = some r →
      t.lastKnown = some r ∨ t.latest = some r ∨ t.captureResult = some r) :
    Told g (history ++ [c]) since' t' episodes where
  grace := hgrace.trans h.grace
  idle := hidle
  active := hactive
  sound e he := (h.sound e he).mono (prefix_append _ _)
  apart := h.apart
  stored r hr := h.stored r (hstored r hr)

theorem Told.skip (baselines : Baselines)
    (hidle : ∀ e, (baselines.get e).getD [] = lastOf baselineWindow (idleOf e (since ++ [c])))
    (hroute : (tracked g (history ++ [c])).routeIdentity = t.routeIdentity) (hicmp : c.icmp = none)
    (htransport : ∀ e, c.transport e = none) :
    Told g (history ++ [c]) (since ++ [c]) { t with baselines } episodes := by
  refine h.append rfl hidle ?_ (fun r hr => hr)
  intro w hw
  obtain ⟨hsame, before, window, rfl, hof, hbefore⟩ := h.active w hw
  refine ⟨hsame, before, window ++ [c], append_assoc _ _ _, ?_, hbefore⟩
  refine ⟨hof.route.concat ?_, ?_, hof.transport.skip fun e _ => htransport e⟩
  · rw [hroute, hsame]
  · rw [icmpOf_skip window hicmp]
    exact hof.icmp

theorem Told.idle_skip (hc : ∀ e, c.idle e = none) (e : Text) :
    (t.baselines.get e).getD [] = lastOf baselineWindow (idleOf e (since ++ [c])) := by
  have hnone : idleOf e [c] = [] := by
    rw [idleOf, filterMap_cons, hc e, filterMap_nil]
  rw [idleOf_append, hnone, append_nil]
  exact h.idle e

end

end CakeAutorate.Rating
