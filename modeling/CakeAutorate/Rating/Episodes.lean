/-
# The samples behind a rating

The history of a tracker is the list of its calls. An episode is a stretch of it: the calls of one
window, split at the first transport sample, which latches the endpoint and its baseline.
-/

import CakeAutorate.Rating.Tracker
import Mathlib.Data.List.Chain

namespace CakeAutorate.Rating

open Wire Machine List
open Autotune (QualityClass classifyQuality)

/-- The load that a sample was taken under. -/
inductive Load where
  | download
  | upload
  | both
  deriving DecidableEq

/-- The load, of the two flags of a call. -/
def loadOf : Bool → Bool → Option Load
  | true, true => some .both
  | true, false => some .download
  | false, true => some .upload
  | false, false => none

/-- A loaded sample of one plane. -/
structure Sample where
  load : Load
  value : ℚ
  time : ℚ

/-- The increase that counts under a load. -/
def icmpValue (dlDeltaMs ulDeltaMs : ℚ) : Load → ℚ
  | .both => max (max dlDeltaMs 0) (max ulDeltaMs 0)
  | .download => max dlDeltaMs 0
  | .upload => max ulDeltaMs 0

namespace Call

/-- The loaded sample of an endpoint that a call brings. -/
def transport (endpoint : Text) : Call → Option Sample
  | .observe e latencyMs dlLoaded ulLoaded time _ =>
    if e = endpoint ∧ 0 < latencyMs then
      (loadOf dlLoaded ulLoaded).map fun load => ⟨load, latencyMs, time⟩
    else none
  | _ => none

/-- The loaded ICMP sample that a call brings. -/
def icmp : Call → Option Sample
  | .observeIcmpDelta dlDeltaMs ulDeltaMs dlLoaded ulLoaded time _ =>
    (loadOf dlLoaded ulLoaded).map fun load => ⟨load, icmpValue dlDeltaMs ulDeltaMs load, time⟩
  | _ => none

/-- The idle sample of an endpoint that a call brings. -/
def idle (endpoint : Text) : Call → Option ℚ
  | .observe e latencyMs dlLoaded ulLoaded _ _ =>
    if e = endpoint ∧ 0 < latencyMs ∧ loadOf dlLoaded ulLoaded = none then some latencyMs else none
  | _ => none

def isReset : Call → Bool
  | .reset => true
  | _ => false

end Call

def transportOf (endpoint : Text) (calls : List Call) : List Sample :=
  calls.filterMap (Call.transport endpoint)

def icmpOf (calls : List Call) : List Sample := calls.filterMap Call.icmp

def idleOf (endpoint : Text) (calls : List Call) : List ℚ := calls.filterMap (Call.idle endpoint)

/-- The values taken under a load. -/
def valuesOf (load : Load) (samples : List Sample) : List ℚ :=
  (samples.filter fun s => s.load = load).map Sample.value

/-- No two samples in a row are a grace apart. -/
def Apart (graceS : ℚ) (samples : List Sample) : Prop :=
  samples.IsChain fun a b => b.time - a.time < graceS

def lastOf {α : Type} (n : ℕ) (l : List α) : List α := l.drop (l.length - n)

def grace (sessionGraceS : ℚ) : ℚ := max sessionGraceS 1

/-- The tracker after some calls. -/
def tracked (sessionGraceS : ℚ) (calls : List Call) : QualityGradeTracker :=
  run QualityGradeTracker.act (.new sessionGraceS) calls

/-- The call sets another route, or resets. -/
def changesRoute (t : QualityGradeTracker) (c : Call) : Bool :=
  c.isReset || decide ((t.act c).routeIdentity ≠ t.routeIdentity)

/-- The calls from the last change of the route on. -/
def sinceRouteChange (sessionGraceS : ℚ) (calls : List Call) : List Call :=
  (calls.foldl (fun (s : QualityGradeTracker × List Call) c =>
    (s.1.act c, if changesRoute s.1 c then [c] else s.2 ++ [c])) (.new sessionGraceS, [])).2

theorem tracked_append (g : ℚ) (calls : List Call) (c : Call) :
    tracked g (calls ++ [c]) = (tracked g calls).act c := by
  rw [tracked, tracked, run_append, run_cons, run_nil]

theorem sinceRouteChange_append (g : ℚ) (calls : List Call) (c : Call) :
    sinceRouteChange g (calls ++ [c]) =
      if changesRoute (tracked g calls) c then [c] else sinceRouteChange g calls ++ [c] := by
  have hfirst : ∀ (calls : List Call) (s : QualityGradeTracker × List Call),
      (calls.foldl (fun (s : QualityGradeTracker × List Call) c =>
        (s.1.act c, if changesRoute s.1 c then [c] else s.2 ++ [c])) s).1 =
          run QualityGradeTracker.act s.1 calls := by
    intro calls
    induction calls with
    | nil => exact fun _ => rfl
    | cons c calls ih => exact fun s => ih _
  rw [sinceRouteChange, foldl_append, foldl_cons, foldl_nil, hfirst]
  rfl

/-- A window of the history: the calls before it, those before its first transport sample, and
those from that sample on; with the endpoint of the sample and what the window came to. -/
structure Episode where
  before : List Call
  opening : List Call
  latched : List Call
  endpoint : Text
  result : QualityGradeResult

namespace Episode

variable (e : Episode)

/-- The calls of an episode. -/
def calls : List Call := e.opening ++ e.latched

/-- Where its window starts. -/
def first : ℕ := e.before.length

/-- Where it ends. -/
def stop : ℕ := (e.before ++ e.calls).length

end Episode

/-- The route stays the same all through a window. -/
def RouteKept (g : ℚ) (before window : List Call) (route : Text) : Prop :=
  ∀ start, start ≠ [] → start <+: window → (tracked g (before ++ start)).routeIdentity = route

/-- The baseline that an endpoint has after some calls. -/
structure BaselineAt (g : ℚ) (calls : List Call) (endpoint : Text) (baselineP5Ms : ℚ) : Prop where
  enough : minBaselineSamples ≤ (idleOf endpoint (sinceRouteChange g calls)).length
  percentile : percentile (lastOf baselineWindow (idleOf endpoint (sinceRouteChange g calls))) 5 =
    some baselineP5Ms

/-- **What an episode says** of its result. -/
structure Episode.Sound (g : ℚ) (history : List Call) (e : Episode) : Prop where
  part : e.before ++ e.calls <+: history
  begun : ∃ c rest, e.latched = c :: rest ∧ (c.transport e.endpoint).isSome
  route : RouteKept g e.before e.calls e.result.routeIdentity
  endpoint : e.result.endpoint = e.endpoint
  baseline : BaselineAt g (e.before ++ e.opening) e.endpoint e.result.baselineP5Ms
  transportApart : Apart (grace g) (transportOf e.endpoint e.latched)
  icmpApart : Apart (grace g) (icmpOf e.calls)
  dl : e.result.dl = combinedMetric (valuesOf .download (transportOf e.endpoint e.latched))
    (valuesOf .download (icmpOf e.calls)) e.result.baselineP5Ms
  ul : e.result.ul = combinedMetric (valuesOf .upload (transportOf e.endpoint e.latched))
    (valuesOf .upload (icmpOf e.calls)) e.result.baselineP5Ms
  verdict : (e.result.class_, e.result.increaseMs, e.result.partial_, e.result.incomplete,
    e.result.completionReason) = Rating.verdict e.result.dl e.result.ul

/-- The samples of one plane, as the lists and the time that a window keeps of them. -/
structure Plane (g : ℚ) (samples : List Sample) (dl ul : List ℚ) (last : Option ℚ) : Prop where
  dl : dl = valuesOf .download samples
  ul : ul = valuesOf .upload samples
  last : last = samples.getLast?.map Sample.time
  apart : Apart (grace g) samples

/-- The transport samples of a window that is latched. -/
structure Latched (g : ℚ) (before opening latched : List Call) (e : Text) (w : ActiveWindow) :
    Prop where
  endpoint : w.endpoint = some e
  begun : ∃ c rest, latched = c :: rest ∧ (c.transport e).isSome
  baseline : ∃ baselineP5Ms, w.baselineP5Ms = some baselineP5Ms ∧
    BaselineAt g (before ++ opening) e baselineP5Ms
  plane : Plane g (transportOf e latched) w.dl w.ul w.lastTransportLoadedAt

/-- A window before its first transport sample. -/
structure Unlatched (w : ActiveWindow) : Prop where
  endpoint : w.endpoint = none
  baseline : w.baselineP5Ms = none
  dl : w.dl = []
  ul : w.ul = []
  last : w.lastTransportLoadedAt = none

/-- A window without an endpoint yet, or with one. -/
def TransportOf (g : ℚ) (before window : List Call) (w : ActiveWindow) : Prop :=
  Unlatched w ∨ ∃ endpoint opening latched, window = opening ++ latched ∧
    Latched g before opening latched endpoint w

/-- A window holds what the calls of its stretch brought. -/
structure WindowOf (g : ℚ) (before window : List Call) (w : ActiveWindow) : Prop where
  route : RouteKept g before window w.routeIdentity
  icmp : Plane g (icmpOf window) w.icmpDl w.icmpUl w.lastIcmpLoadedAt
  transport : TransportOf g before window w

/-- **What a tracker has of its history.** -/
structure Told (g : ℚ) (history since : List Call) (t : QualityGradeTracker)
    (episodes : List Episode) : Prop where
  grace : t.sessionGraceS = grace g
  idle : ∀ endpoint, (t.baselines.get endpoint).getD [] = lastOf baselineWindow (idleOf endpoint since)
  active : ∀ w, t.active = some w → w.routeIdentity = t.routeIdentity ∧
    ∃ before window, history = before ++ window ∧ WindowOf g before window w ∧
      ∀ e ∈ episodes, e.stop ≤ before.length
  sound : ∀ e ∈ episodes, e.Sound g history
  apart : episodes.Pairwise fun e e' => e'.stop ≤ e.first
  stored : ∀ r, t.lastKnown = some r ∨ t.latest = some r ∨ t.captureResult = some r →
    ∃ e ∈ episodes, e.result = r

variable {g : ℚ} {history since before window : List Call} {t : QualityGradeTracker}
  {episodes : List Episode} {w : ActiveWindow} {c : Call}

@[simp] theorem icmpOf_append (a b : List Call) : icmpOf (a ++ b) = icmpOf a ++ icmpOf b :=
  filterMap_append

@[simp] theorem transportOf_append (endpoint : Text) (a b : List Call) :
    transportOf endpoint (a ++ b) = transportOf endpoint a ++ transportOf endpoint b :=
  filterMap_append

@[simp] theorem idleOf_append (endpoint : Text) (a b : List Call) :
    idleOf endpoint (a ++ b) = idleOf endpoint a ++ idleOf endpoint b :=
  filterMap_append

theorem valuesOf_concat (load : Load) (samples : List Sample) (s : Sample) :
    valuesOf load (samples ++ [s]) =
      if s.load = load then valuesOf load samples ++ [s.value] else valuesOf load samples := by
  by_cases hload : s.load = load
  · simp [valuesOf, hload]
  · simp [valuesOf, hload]

theorem Apart.concat {samples : List Sample} {s : Sample} {graceS : ℚ} (h : Apart graceS samples)
    (hlast : ∀ time, samples.getLast?.map Sample.time = some time → s.time - time < graceS) :
    Apart graceS (samples ++ [s]) := by
  refine isChain_append.mpr ⟨h, isChain_singleton s, ?_⟩
  intro x hx y hy
  obtain rfl : s = y := Option.some.inj hy
  refine hlast x.time ?_
  rw [Option.mem_def.mp hx, Option.map_some]

theorem Plane.push {samples : List Sample} {dl ul : List ℚ} {last : Option ℚ}
    (h : Plane g samples dl ul last) (s : Sample)
    (hgap : ∀ time, last = some time → s.time - time < grace g) :
    Plane g (samples ++ [s]) (if s.load = .download then dl ++ [s.value] else dl)
      (if s.load = .upload then ul ++ [s.value] else ul) (some s.time) := by
  refine ⟨?_, ?_, ?_, h.apart.concat fun time htime => hgap time (h.last.trans htime)⟩
  · rw [valuesOf_concat, h.dl]
  · rw [valuesOf_concat, h.ul]
  · rw [getLast?_concat, Option.map_some]

theorem slide_lastOf (values : List ℚ) (v : ℚ) :
    slide (lastOf baselineWindow values) v = lastOf baselineWindow (values ++ [v]) := by
  have hlength : (lastOf baselineWindow values).length = min values.length baselineWindow := by
    rw [lastOf, length_drop]
    omega
  rw [slide, hlength, lastOf, lastOf, length_append, length_singleton]
  by_cases hshort : values.length ≤ baselineWindow
  · have hall : values.length - baselineWindow = 0 := by omega
    have hmin : min values.length baselineWindow = values.length := by omega
    rw [hall, hmin, drop_zero]
  · have hmin : min values.length baselineWindow = baselineWindow := by omega
    have hone : baselineWindow + 1 - baselineWindow = 1 := by omega
    have hpos : values.length - baselineWindow < values.length := by
      have : 0 < baselineWindow := by decide
      omega
    rw [hmin, hone, ← drop_append_of_le_length (by omega), drop_drop]
    congr 1
    omega

theorem get_push (baselines : Baselines) (endpoint e : Text) (v : ℚ) :
    ((baselines.push endpoint v).get e).getD [] =
      if e = endpoint then slide ((baselines.get e).getD []) v else (baselines.get e).getD [] := by
  induction baselines with
  | nil =>
    by_cases he : e = endpoint
    · subst he
      simp [Baselines.push, Baselines.get]
    · have hne : (e == endpoint) = false := beq_eq_false_iff_ne.mpr he
      simp [Baselines.push, Baselines.get, he, lookup_cons, hne]
  | cons entry rest ih =>
    obtain ⟨key, samples⟩ := entry
    unfold Baselines.get at ih ⊢
    by_cases hkey : key = endpoint
    · subst hkey
      by_cases he : e = key
      · subst he
        simp [Baselines.push]
      · have hne : (e == key) = false := beq_eq_false_iff_ne.mpr he
        simp [Baselines.push, he, lookup_cons, hne]
    · by_cases he : e = key
      · subst he
        simp [Baselines.push, hkey]
      · have hne : (e == key) = false := beq_eq_false_iff_ne.mpr he
        simp only [Baselines.push, if_neg hkey, lookup_cons, hne]
        exact ih

end CakeAutorate.Rating
