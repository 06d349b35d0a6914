/-
# A capture that is cancelled

`begin_capture` and `cancel_capture` of `quality_grade.rs`, with samples in between. The tracker
that is left has no window and no result of the capture, so what it publishes later is made of later
samples. The result of a window that was complete before is not taken back.
-/

import CakeAutorate.Rating.Published

namespace CakeAutorate.Rating

open Wire Machine QualityGradeTracker List

/-- The route and the time of a call that counts as a sample. -/
def Call.sampled : Call → Option (Text × ℚ)
  | .observe _ latencyMs _ _ timestamp route =>
    if 0 < latencyMs then some (route, timestamp) else none
  | .observeIcmpDelta _ _ dlLoaded ulLoaded timestamp route =>
    if dlLoaded || ulLoaded then some (route, timestamp) else none
  | _ => none

/-- `observe` or `observe_icmp_delta`. -/
def Call.isSample : Call → Bool
  | .observe .. | .observeIcmpDelta .. => true
  | _ => false

/-- The window expires at this time with a complete result. -/
def QualityGradeTracker.closes (t : QualityGradeTracker) (timestamp : ℚ) : Bool :=
  t.active.any fun w => w.evidenceExpired timestamp t.sessionGraceS && decide (w.samples ≠ 0) &&
    (w.result (some timestamp)).any fun r => !r.partial_ && !r.incomplete

/-- The call first stores the window that expires. -/
def QualityGradeTracker.commits (t : QualityGradeTracker) (c : Call) : Bool :=
  c.sampled.any fun s => (t.setRoute s.1).closes s.2

/-- A capture, some calls, and its end by `cancel_capture`. -/
def QualityGradeTracker.cancelled (t : QualityGradeTracker) (timestamp : ℚ) (jobId : Text)
    (generation : ℕ) (calls : List Call) : QualityGradeTracker :=
  (run act (t.beginCapture timestamp jobId generation) calls).cancelCapture

variable {t : QualityGradeTracker} {calls : List Call} {c : Call} {w : ActiveWindow}
  {known : Option QualityGradeResult} {timestamp : ℚ}

theorem expire_lastKnown (h : t.closes timestamp = false) :
    (t.expire timestamp).lastKnown = t.lastKnown := by
  unfold expire
  split
  · rename_i hexpired
    unfold finishActive
    unfold closes at h
    cases hactive : t.active with
    | none => rfl
    | some w =>
      rw [hactive, Option.map_some, Option.getD_some] at hexpired
      rw [hactive, Option.any_some, hexpired, Bool.true_and] at h
      dsimp only
      split
      · rfl
      · rename_i hsamples
        rw [decide_eq_true hsamples, Bool.true_and] at h
        cases hresult : w.result (some timestamp) with
        | none => rfl
        | some r =>
          rw [hresult, Option.any_some] at h
          dsimp only
          unfold store
          rw [if_neg (by rw [h]; exact Bool.false_ne_true)]
  · rfl

theorem setRoute_lastKnown (t : QualityGradeTracker) (route : Text) :
    (t.setRoute route).lastKnown = t.lastKnown := by
  unfold setRoute
  split
  · rfl
  · rfl

theorem act_lastKnown (hc : c.isSample = true) (h : t.commits c = false) :
    (t.act c).lastKnown = t.lastKnown := by
  cases c with
  | observe endpoint latencyMs dl ul time route =>
    show (t.observe endpoint latencyMs dl ul time route).lastKnown = t.lastKnown
    unfold observe
    split
    · rfl
    · rename_i hpositive
      have hcloses : (t.setRoute route).closes time = false := by
        simpa [commits, Call.sampled, not_le.mp hpositive] using h
      have hkept : ((t.setRoute route).expire time).lastKnown = t.lastKnown :=
        (expire_lastKnown hcloses).trans (setRoute_lastKnown t route)
      dsimp only
      split
      · refine (expire_lastKnown ?_).trans (setRoute_lastKnown t route)
        exact hcloses
      · split
        · exact hkept
        · exact hkept
  | observeIcmpDelta d u dl ul time route =>
    show (t.observeIcmpDelta d u dl ul time route).lastKnown = t.lastKnown
    unfold observeIcmpDelta
    split
    · rfl
    · rename_i hloaded
      have hcloses : (t.setRoute route).closes time = false := by
        cases dl <;> cases ul <;>
          simp_all [commits, Call.sampled]
      exact (expire_lastKnown hcloses).trans (setRoute_lastKnown t route)
  | setRoute | beginCapture | cancelCapture | endCapture | reset => cases hc

theorem act_route {route : Text} (hc : c.isSample = true)
    (hroute : ∀ s ∈ c.sampled, s.1 = route) (h : t.routeIdentity = route) :
    (t.act c).routeIdentity = route := by
  cases c with
  | observe endpoint latencyMs dl ul time r =>
    show (t.observe endpoint latencyMs dl ul time r).routeIdentity = route
    unfold observe
    split
    · exact h
    · rename_i hpositive
      have hr : r = route := hroute (r, time) (by simp [Call.sampled, not_le.mp hpositive])
      dsimp only
      split
      · rw [expire_route]
        exact (setRoute_route t r).trans hr
      · have hset : ((t.setRoute r).expire time).routeIdentity = route :=
          (expire_route _ _).trans ((setRoute_route t r).trans hr)
        split
        · exact hset
        · exact hset
  | observeIcmpDelta d u dl ul time r =>
    show (t.observeIcmpDelta d u dl ul time r).routeIdentity = route
    unfold observeIcmpDelta
    split
    · exact h
    · rename_i hloaded
      have hr : r = route := hroute (r, time) (by cases dl <;> cases ul <;> simp_all [Call.sampled])
      exact (expire_route _ _).trans ((setRoute_route t r).trans hr)
  | setRoute | beginCapture | cancelCapture | endCapture | reset => cases hc

theorem run_route {route : Text} (hcalls : Along act
      (fun t c => c.isSample = true ∧ t.commits c = false) t calls)
    (hroute : ∀ c ∈ calls, ∀ s ∈ c.sampled, s.1 = route) (h : t.routeIdentity = route) :
    (run act t calls).routeIdentity = route := by
  induction calls generalizing t with
  | nil => exact h
  | cons c calls ih =>
    obtain ⟨hc, hrest⟩ := hcalls
    refine ih hrest (fun c hc => hroute c (mem_cons_of_mem _ hc)) ?_
    exact act_route hc.1 (hroute c mem_cons_self) h

theorem authoritative_congr {t' : QualityGradeTracker} (hknown : t'.lastKnown = t.lastKnown)
    (hroute : t'.routeIdentity = t.routeIdentity) (now : ℚ) :
    (t'.snapshot now).authoritativeCompleteResult =
      (t.snapshot now).authoritativeCompleteResult := by
  have hstale : (t'.snapshot now).lastKnownStale = (t.snapshot now).lastKnownStale := by
    show (t'.lastKnown.map fun r => decide (r.routeIdentity ≠ t'.routeIdentity)).getD false = _
    rw [hknown, hroute]
    rfl
  have hsame : (t'.snapshot now).lastKnown = (t.snapshot now).lastKnown := hknown
  unfold QualityGradeSnapshot.authoritativeCompleteResult
  rw [hstale, hsame]

/-- The loaded transport sample of a call. -/
def Call.heard : Call → Option Sample
  | .observe _ latencyMs dlLoaded ulLoaded time _ =>
    (loadOf dlLoaded ulLoaded).map fun load => ⟨load, latencyMs, time⟩
  | _ => none

/-- What a window holds is of these calls. -/
structure Heard (calls : List Call) (w : ActiveWindow) : Prop where
  dl : w.dl.Sublist (valuesOf .download (calls.filterMap Call.heard))
  ul : w.ul.Sublist (valuesOf .upload (calls.filterMap Call.heard))
  bidirectional : w.bidirectional.Sublist (valuesOf .both (calls.filterMap Call.heard))
  icmpDl : w.icmpDl.Sublist (valuesOf .download (icmpOf calls))
  icmpUl : w.icmpUl.Sublist (valuesOf .upload (icmpOf calls))
  icmpBidirectional : w.icmpBidirectional.Sublist (valuesOf .both (icmpOf calls))

/-- The window is of these calls, and so are the results, but for one that was known before. -/
structure Fresh (known : Option QualityGradeResult) (calls : List Call)
    (t : QualityGradeTracker) : Prop where
  window : ∀ w, t.active = some w → Heard calls w
  result : ∀ r, t.lastKnown = some r ∨ t.latest = some r ∨ t.captureResult = some r →
    known = some r ∨ ∃ w completedAt, Heard calls w ∧ w.result completedAt = some r

theorem valuesOf_sublist {load : Load} {a b : List Sample} (h : a.Sublist b) :
    (valuesOf load a).Sublist (valuesOf load b) := (h.filter _).map _

theorem Heard.more (h : Heard calls w) (c : Call) : Heard (calls ++ [c]) w := by
  have htransport : (calls.filterMap Call.heard).Sublist ((calls ++ [c]).filterMap Call.heard) :=
    (sublist_append_left _ _).filterMap _
  have hicmp : (icmpOf calls).Sublist (icmpOf (calls ++ [c])) :=
    (sublist_append_left _ _).filterMap _
  exact
    { dl := h.dl.trans (valuesOf_sublist htransport)
      ul := h.ul.trans (valuesOf_sublist htransport)
      bidirectional := h.bidirectional.trans (valuesOf_sublist htransport)
      icmpDl := h.icmpDl.trans (valuesOf_sublist hicmp)
      icmpUl := h.icmpUl.trans (valuesOf_sublist hicmp)
      icmpBidirectional := h.icmpBidirectional.trans (valuesOf_sublist hicmp) }

section

variable (h : Fresh known calls t)
include h

theorem Fresh.more (c : Call) : Fresh known (calls ++ [c]) t where
  window w hw := (h.window w hw).more c
  result r hr := (h.result r hr).imp_right fun ⟨w, at_, hw, hresult⟩ => ⟨w, at_, hw.more c, hresult⟩

theorem Fresh.finish (timestamp : ℚ) : Fresh known calls (t.finishActive timestamp) := by
  rcases finishActive_cases t timestamp with ⟨-, heq⟩ | ⟨w, hw, heq | ⟨r, hr, heq⟩⟩
  · rw [heq]
    exact h
  · rw [heq]
    exact ⟨fun w hw => (by cases hw), h.result⟩
  · rw [heq]
    refine ⟨fun w' hw' => ?_, fun r' hr' => ?_⟩
    · rw [(store_keeps _ r).2.1] at hw'
      cases hw'
    · rcases stored_store hr' with rfl | hold
      · exact .inr ⟨w, _, h.window w hw, hr⟩
      · exact h.result r' hold

theorem Fresh.expire (timestamp : ℚ) : Fresh known calls (t.expire timestamp) := by
  unfold QualityGradeTracker.expire
  split
  · exact h.finish timestamp
  · exact h

theorem Fresh.setRoute (route : Text) : Fresh known calls (t.setRoute route) := by
  unfold QualityGradeTracker.setRoute
  split
  · exact h
  · refine ⟨fun w hw => (by cases hw), fun r hr => h.result r ?_⟩
    rcases hr with hr | hr | hr
    · exact .inl hr
    · cases hr
    · cases hr

end

theorem heard_new (timestamp : ℚ) (route jobId : Text) (generation : ℕ) :
    Heard calls (.new timestamp route jobId generation) := by
  constructor <;> exact nil_sublist _

theorem Fresh.windowAt (h : Fresh known calls t) (timestamp : ℚ) :
    Heard calls (t.window timestamp) := by
  unfold QualityGradeTracker.window
  cases hactive : t.active with
  | none => exact heard_new _ _ _ _
  | some w => exact h.window w hactive

theorem Heard.latch (h : Heard calls w) (t : QualityGradeTracker) (endpoint : Text) :
    Heard calls (t.latch endpoint w) := by
  unfold QualityGradeTracker.latch
  split
  · split
    · exact h
    · exact { h with }
  · exact h

theorem Heard.transport (h : Heard calls w) {load : Load} {dl ul : Bool}
    (hload : loadOf dl ul = some load) (endpoint : Text) (v time : ℚ) (route : Text) :
    Heard (calls ++ [.observe endpoint v dl ul time route]) (w.pushTransport v dl ul time) := by
  have hmore := h.more (.observe endpoint v dl ul time route)
  have hheard : (calls ++ [Call.observe endpoint v dl ul time route]).filterMap Call.heard =
      calls.filterMap Call.heard ++ [⟨load, v, time⟩] := by
    simp [filterMap_append, Call.heard, hload]
  have hpush : ∀ {values : List ℚ} {samples : List Sample},
      values.Sublist (valuesOf load samples) →
        (values ++ [v]).Sublist (valuesOf load (samples ++ [⟨load, v, time⟩])) := by
    intro values samples hsub
    rw [valuesOf_concat, if_pos rfl]
    exact hsub.append_right _
  cases dl <;> cases ul <;> cases hload
  · exact { hmore with ul := hheard ▸ hpush h.ul }
  · exact { hmore with dl := hheard ▸ hpush h.dl }
  · exact { hmore with bidirectional := hheard ▸ hpush h.bidirectional }

theorem Heard.icmp (h : Heard calls w) {load : Load} {dl ul : Bool}
    (hload : loadOf dl ul = some load) (d u time : ℚ) (route : Text) :
    Heard (calls ++ [.observeIcmpDelta d u dl ul time route]) (w.pushIcmp d u dl ul time) := by
  have hmore := h.more (.observeIcmpDelta d u dl ul time route)
  have hicmp : icmpOf (calls ++ [Call.observeIcmpDelta d u dl ul time route]) =
      icmpOf calls ++ [⟨load, icmpValue d u load, time⟩] := by
    simp [icmpOf, filterMap_append, Call.icmp, hload]
  have hpush : ∀ {values : List ℚ}, values.Sublist (valuesOf load (icmpOf calls)) →
      (values ++ [icmpValue d u load]).Sublist
        (valuesOf load (icmpOf (calls ++ [.observeIcmpDelta d u dl ul time route]))) := by
    intro values hsub
    rw [hicmp, valuesOf_concat, if_pos rfl]
    exact hsub.append_right _
  cases dl <;> cases ul <;> cases hload
  · exact { hmore with icmpUl := hpush h.icmpUl }
  · exact { hmore with icmpDl := hpush h.icmpDl }
  · exact { hmore with icmpBidirectional := hpush h.icmpBidirectional }

/-- **Any call** keeps what is published to the samples since. -/
theorem Fresh.act (h : Fresh known calls t) (c : Call) : Fresh known (calls ++ [c]) (t.act c) := by
  have hmore := h.more c
  cases c with
  | observe endpoint v dl ul time route =>
    show Fresh known _ (t.observe endpoint v dl ul time route)
    unfold observe
    split
    · exact hmore
    · dsimp only
      split
      · have hbaselines : Fresh known (calls ++ [.observe endpoint v dl ul time route])
            { t.setRoute route with
              baselines := (t.setRoute route).baselines.push endpoint v } :=
          { hmore.setRoute route with }
        exact hbaselines.expire time
      · rename_i hloaded
        obtain ⟨load, hload⟩ := loadOf_isSome (by simpa using hloaded)
        have hready := (h.setRoute route).expire time
        have hwindow := (hready.windowAt time).latch ((t.setRoute route).expire time) endpoint
        split
        · refine ⟨fun w hw => ?_, (hready.more _).result⟩
          cases hw
          exact hwindow.transport hload endpoint v time route
        · refine ⟨fun w hw => ?_, (hready.more _).result⟩
          cases hw
          exact hwindow.more _
  | observeIcmpDelta d u dl ul time route =>
    show Fresh known _ (t.observeIcmpDelta d u dl ul time route)
    unfold observeIcmpDelta
    split
    · exact hmore
    · rename_i hloaded
      obtain ⟨load, hload⟩ := loadOf_isSome (by simpa using hloaded)
      have hready := (h.setRoute route).expire time
      refine ⟨fun w hw => ?_, (hready.more _).result⟩
      cases hw
      exact (hready.windowAt time).icmp hload d u time route
  | setRoute route => exact hmore.setRoute route
  | beginCapture time jobId generation =>
    have hfinished := hmore.finish time
    refine ⟨hfinished.window, fun r hr => hfinished.result r ?_⟩
    rcases hr with hr | hr | hr
    · exact .inl hr
    · cases hr
    · cases hr
  | cancelCapture =>
    refine ⟨fun w hw => (by cases hw), fun r hr => hmore.result r ?_⟩
    rcases hr with hr | hr | hr
    · exact .inl hr
    · cases hr
    · cases hr
  | endCapture time =>
    have hfinished := hmore.finish time
    exact ⟨hfinished.window, hfinished.result⟩
  | reset =>
    refine ⟨fun w hw => (by cases hw), fun r hr => ?_⟩
    rcases hr with hr | hr | hr <;> cases hr

/-- **A capture that is cancelled leaves no trace**, if no complete window ended in it. -/
theorem capture_discarded (t : QualityGradeTracker) (timestamp : ℚ) (jobId : Text)
    (generation : ℕ) (calls : List Call)
    (hcalls : Along act (fun t c => c.isSample = true ∧ t.commits c = false)
      (t.beginCapture timestamp jobId generation) calls) :
    (t.cancelled timestamp jobId generation calls).lastKnown =
        (t.beginCapture timestamp jobId generation).lastKnown ∧
      (t.cancelled timestamp jobId generation calls).captureResult = none ∧
      ((∀ c ∈ calls, ∀ s ∈ c.sampled, s.1 = t.routeIdentity) → ∀ now,
        ((t.cancelled timestamp jobId generation calls).snapshot now).authoritativeCompleteResult =
          ((t.beginCapture timestamp jobId generation).snapshot now).authoritativeCompleteResult) ∧
      ∀ later, Fresh (t.beginCapture timestamp jobId generation).lastKnown later
        (run act (t.cancelled timestamp jobId generation calls) later) := by
  have hknown : (t.cancelled timestamp jobId generation calls).lastKnown =
      (t.beginCapture timestamp jobId generation).lastKnown := by
    show (run act (t.beginCapture timestamp jobId generation) calls).lastKnown = _
    refine run_along (P := fun s => s.lastKnown =
      (t.beginCapture timestamp jobId generation).lastKnown) ?_ rfl hcalls
    exact fun s c hs hc => (act_lastKnown hc.1 hc.2).trans hs
  refine ⟨hknown, rfl, fun hroute now => ?_, fun later => ?_⟩
  · have hbegun : (t.beginCapture timestamp jobId generation).routeIdentity = t.routeIdentity :=
      (finishActive_keeps t timestamp).1
    have hsame : (t.cancelled timestamp jobId generation calls).routeIdentity =
        (t.beginCapture timestamp jobId generation).routeIdentity := by
      rw [hbegun]
      exact run_route hcalls hroute hbegun
    exact authoritative_congr hknown hsame now
  · induction later using reverseRecOn with
    | nil =>
      refine ⟨fun w hw => (by cases hw), fun r hr => ?_⟩
      rcases hr with hr | hr | hr
      · exact .inl (hknown.symm.trans hr)
      · cases hr
      · cases hr
    | append_singleton later c ih =>
      rw [run_append]
      exact ih.act c

/-- A tracker with a baseline. -/
def readyTracker : QualityGradeTracker :=
  tracked 30 (replicate 20 (.observe ['e'] 10 false false 0 ['r']))

theorem capture_discarded_ready :
    (readyTracker.cancelled 1 ['j'] 1 bothComplete).lastKnown =
        (readyTracker.beginCapture 1 ['j'] 1).lastKnown ∧
      (readyTracker.cancelled 1 ['j'] 1 bothComplete).captureResult = none ∧
      ((∀ c ∈ bothComplete, ∀ s ∈ c.sampled, s.1 = readyTracker.routeIdentity) → ∀ now,
        ((readyTracker.cancelled 1 ['j'] 1 bothComplete).snapshot now).authoritativeCompleteResult =
          ((readyTracker.beginCapture 1 ['j'] 1).snapshot now).authoritativeCompleteResult) ∧
      ∀ later, Fresh (readyTracker.beginCapture 1 ['j'] 1).lastKnown later
        (run act (readyTracker.cancelled 1 ['j'] 1 bothComplete) later) :=
  capture_discarded readyTracker 1 ['j'] 1 bothComplete (by decide +kernel)

theorem silence_commits_capture :
    (readyTracker.beginCapture 1 ['j'] 1).lastKnown = none ∧
      ((readyTracker.cancelled 1 ['j'] 1 (bothComplete ++
        [.observe ['e'] 100 true false 40 ['r']])).lastKnown.map
          QualityGradeResult.captureJobId) = some ['j'] := by
  decide +kernel

end CakeAutorate.Rating
