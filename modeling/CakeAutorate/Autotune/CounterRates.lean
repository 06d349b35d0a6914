/-
# The rates of the counters

`AutotuneCounterRateTracker` of `operations/autotune_counter.rs`: reads of the byte counters of a
device become deltas, for the volume, and rate windows, for the load.  A delta lies between two
consecutive reads; a rate window reaches back over some of them.  Times are nanoseconds, and rates are
rationals where the source has floats.
-/

import CakeAutorate.Machine.Run
import Mathlib.Algebra.BigOperators.Group.List.Basic
import Mathlib.Algebra.GroupWithZero.Nat
import Mathlib.Algebra.Order.Ring.Rat
import Mathlib.Data.List.Chain
import Mathlib.Data.List.Infix
import Mathlib.Tactic.Positivity

namespace CakeAutorate.Autotune

open List Option Machine

/-- `Duration::from_millis`. -/
def millis (n : ℕ) : ℕ := n * 10 ^ 6

def rateWindow : ℕ := millis 1000

def rateMinSpan : ℕ := millis 800

def maxRateHistorySamples : ℕ := 32

structure SpeedtestTrafficCounters where
  rxBytes : ℕ
  txBytes : ℕ

structure AutotuneCounterRateWindow where
  downloadKbps : ℚ
  uploadKbps : ℚ
  observedStart : ℕ
  observedEnd : ℕ
  fresh : Bool

structure AutotuneCounterDelta where
  downloadBytes : ℕ
  uploadBytes : ℕ
  observedStart : ℕ
  observedEnd : ℕ
  withinMaximumSpan : Bool

structure AutotuneCounterObservation where
  rateWindow : Option AutotuneCounterRateWindow := none
  delta : Option AutotuneCounterDelta := none

abbrev CounterRead := ℕ × SpeedtestTrafficCounters

structure AutotuneCounterRateTracker where
  minInterval : ℕ
  maximumDeltaSpan : ℕ
  history : List CounterRead
  lastRead : ℕ
  lastSample : Option AutotuneCounterRateWindow

namespace AutotuneCounterRateTracker

/-- `new` and `new_with_maximum_delta_span`, from the two spans that they are made of. -/
def fresh (minInterval maximumDeltaSpan now : ℕ) : AutotuneCounterRateTracker :=
  ⟨minInterval, maximumDeltaSpan, [], if minInterval ≤ now then now - minInterval else now, none⟩

def reset (t : AutotuneCounterRateTracker) (now : ℕ) : AutotuneCounterRateTracker :=
  { t with history := [], lastRead := now, lastSample := none }

end AutotuneCounterRateTracker

/-- `observe_counters_with_delta`, whether a read cannot follow another one. -/
def regressed (previous current : CounterRead) : Bool :=
  decide (current.1 ≤ previous.1) || decide (current.2.rxBytes < previous.2.rxBytes)
    || decide (current.2.txBytes < previous.2.txBytes)

/-- `observe_counters_with_delta`, the delta between two reads. -/
def counterDelta (maximumDeltaSpan : ℕ) (previous current : CounterRead) : AutotuneCounterDelta where
  downloadBytes := current.2.rxBytes - previous.2.rxBytes
  uploadBytes := current.2.txBytes - previous.2.txBytes
  observedStart := previous.1
  observedEnd := current.1
  withinMaximumSpan := decide (current.1 - previous.1 ≤ maximumDeltaSpan)

/-- `observe_counters_with_delta`, the history without what is too old: two reads are kept, and the
newest one that is as old as the window. -/
def trimAge (cutoff : ℕ) : List CounterRead → List CounterRead
  | a :: b :: c :: rest =>
    if b.1 ≤ cutoff then trimAge cutoff (b :: c :: rest) else a :: b :: c :: rest
  | history => history

/-- `observe_counters_with_delta`, the trimmed history. -/
def trim (now : ℕ) (history : List CounterRead) : List CounterRead :=
  let recent := if rateWindow ≤ now then trimAge (now - rateWindow) history else history
  recent.drop (recent.length - maxRateHistorySamples)

/-- `Duration::as_secs_f64`. -/
def seconds (span : ℕ) : ℚ := span / 10 ^ 9

def kbps (bytes span : ℕ) : ℚ := bytes * 8 / seconds span / 1000

/-- `observe_counters_with_delta`, the rate window between two reads. -/
def counterWindow (oldest current : CounterRead) : AutotuneCounterRateWindow where
  downloadKbps := kbps (current.2.rxBytes - oldest.2.rxBytes) (current.1 - oldest.1)
  uploadKbps := kbps (current.2.txBytes - oldest.2.txBytes) (current.1 - oldest.1)
  observedStart := oldest.1
  observedEnd := current.1
  fresh := true

namespace AutotuneCounterRateTracker

/-- `observe_counters_with_delta`, the rate window that the trimmed history gives. -/
def rated (t : AutotuneCounterRateTracker) (current : CounterRead)
    (delta : Option AutotuneCounterDelta) : AutotuneCounterRateTracker × AutotuneCounterObservation :=
  match t.history.head? with
  | none => ({ t with lastSample := none }, { delta := delta })
  | some oldest =>
    if current.1 - oldest.1 < rateMinSpan then ({ t with lastSample := none }, { delta := delta })
    else if seconds (current.1 - oldest.1) ≤ 0 then (t.reset current.1, {})
    else
      ({ t with lastSample := some (counterWindow oldest current) },
        { rateWindow := some (counterWindow oldest current), delta })

def observeCountersWithDelta (t : AutotuneCounterRateTracker) (now : ℕ)
    (current : Option SpeedtestTrafficCounters) :
    AutotuneCounterRateTracker × AutotuneCounterObservation :=
  match current with
  | none => (t.reset now, {})
  | some counters =>
    let current : CounterRead := (now, counters)
    let previous := t.history.getLast?
    if previous.any (regressed · current) then ({ t.reset now with history := [current] }, {})
    else
      let delta := previous.map (counterDelta t.maximumDeltaSpan · current)
      if delta.any fun value => !value.withinMaximumSpan then
        -- the read starts a new sequence, so that no later window bridges the gap
        ({ t with history := [current], lastSample := none, lastRead := now }, { delta := delta })
      else
        rated { t with history := trim now (t.history ++ [current]), lastRead := now } current delta

end AutotuneCounterRateTracker

/-- What happens to a tracker. -/
inductive CounterEvent where
  | observe (now : ℕ) (current : Option SpeedtestTrafficCounters)
  | reset (now : ℕ)

def CounterEvent.read (r : CounterRead) : CounterEvent := .observe r.1 (some r.2)

namespace AutotuneCounterRateTracker

def perform (t : AutotuneCounterRateTracker) : CounterEvent →
    AutotuneCounterRateTracker × AutotuneCounterObservation
  | .observe now current => t.observeCountersWithDelta now current
  | .reset now => (t.reset now, {})

def step (t : AutotuneCounterRateTracker) (e : CounterEvent) : AutotuneCounterRateTracker :=
  (t.perform e).1

def deltas (t : AutotuneCounterRateTracker) : List CounterEvent → List AutotuneCounterDelta
  | [] => []
  | e :: events => (t.perform e).2.delta.toList ++ deltas (t.step e) events

end AutotuneCounterRateTracker

def Follows (maximumDeltaSpan : ℕ) (previous current : CounterRead) : Prop :=
  regressed previous current = false ∧ current.1 - previous.1 ≤ maximumDeltaSpan

def CounterEvent.readTime : CounterEvent → Option ℕ
  | .observe now (some _) => some now
  | _ => none

theorem regressed_false {previous current : CounterRead} : regressed previous current = false ↔
    previous.1 < current.1 ∧ previous.2.rxBytes ≤ current.2.rxBytes ∧
      previous.2.txBytes ≤ current.2.txBytes := by
  simp only [regressed, Bool.or_eq_false_iff, decide_eq_false_iff_not, not_le, not_lt, and_assoc]

theorem trimAge_suffix (cutoff : ℕ) : ∀ history, trimAge cutoff history <:+ history
  | [] | [_] | [_, _] => suffix_rfl
  | a :: b :: c :: rest => by
      rw [trimAge]
      split
      · exact (trimAge_suffix cutoff (b :: c :: rest)).trans (suffix_cons a _)
      · exact suffix_rfl

theorem trim_suffix (now : ℕ) (history : List CounterRead) : trim now history <:+ history := by
  refine (drop_suffix _ _).trans ?_
  split
  · exact trimAge_suffix _ history
  · exact suffix_rfl

theorem trim_length (now : ℕ) (history : List CounterRead) :
    (trim now history).length ≤ maxRateHistorySamples := by
  unfold trim
  rw [length_drop]
  omega

theorem trimAge_ne_nil (cutoff : ℕ) : ∀ history, history ≠ [] → trimAge cutoff history ≠ []
  | [], h => absurd rfl h
  | [_], _ | [_, _], _ => cons_ne_nil _ _
  | a :: b :: c :: rest, _ => by
      rw [trimAge]
      split
      · exact trimAge_ne_nil cutoff (b :: c :: rest) (cons_ne_nil _ _)
      · exact cons_ne_nil _ _

theorem trim_last (now : ℕ) (history : List CounterRead) (current : CounterRead) :
    (trim now (history ++ [current])).getLast? = some current := by
  have hrecent : (if rateWindow ≤ now then trimAge (now - rateWindow) (history ++ [current])
      else history ++ [current]) ≠ [] := by
    split
    · exact trimAge_ne_nil _ _ (by simp)
    · simp
  have hne : trim now (history ++ [current]) ≠ [] := by
    unfold trim
    rw [← length_pos_iff] at hrecent ⊢
    have hmaximum : 0 < maxRateHistorySamples := by decide
    rw [length_drop]
    omega
  obtain ⟨earlier, hearlier⟩ := trim_suffix now (history ++ [current])
  have hlast := congrArg List.getLast? hearlier
  rw [getLast?_append_of_ne_nil _ hne, getLast?_concat] at hlast
  exact hlast

namespace AutotuneCounterRateTracker

/-- What a tracker keeps of its events. -/
structure Kept (maximumDeltaSpan : ℕ) (t : AutotuneCounterRateTracker) (events : List CounterEvent) :
    Prop where
  span : t.maximumDeltaSpan = maximumDeltaSpan
  suffix : t.history.map CounterEvent.read <:+ events
  linked : t.history.IsChain (Follows maximumDeltaSpan)
  short : t.history.length ≤ maxRateHistorySamples

variable {maximumDeltaSpan now : ℕ} {t : AutotuneCounterRateTracker} {events : List CounterEvent}
  {current : CounterRead}

theorem kept_nil (h : t.maximumDeltaSpan = maximumDeltaSpan) (hnil : t.history = []) :
    Kept maximumDeltaSpan t events := by
  refine ⟨h, ?_, ?_, ?_⟩
  · rw [hnil]
    exact nil_suffix
  · rw [hnil]
    exact .nil
  · rw [hnil]
    exact Nat.zero_le _

theorem kept_singleton (h : t.maximumDeltaSpan = maximumDeltaSpan) (hone : t.history = [current]) :
    Kept maximumDeltaSpan t (events ++ [.read current]) := by
  refine ⟨h, ?_, ?_, ?_⟩
  · rw [hone]
    exact suffix_append _ _
  · rw [hone]
    exact .singleton _
  · rw [hone]
    show 1 ≤ maxRateHistorySamples
    decide

theorem Kept.append (h : Kept maximumDeltaSpan t events)
    (hfollows : ∀ previous ∈ t.history.getLast?, Follows maximumDeltaSpan previous current)
    {t' : AutotuneCounterRateTracker} (hspan : t'.maximumDeltaSpan = t.maximumDeltaSpan)
    (hhistory : t'.history = trim now (t.history ++ [current])) :
    Kept maximumDeltaSpan t' (events ++ [.read current]) := by
  have hsuffix := trim_suffix now (t.history ++ [current])
  refine ⟨hspan.trans h.span, ?_, ?_, ?_⟩
  · rw [hhistory]
    refine (hsuffix.map CounterEvent.read).trans ?_
    rw [map_append]
    obtain ⟨earlier, hearlier⟩ := h.suffix
    exact ⟨earlier, by rw [← hearlier, append_assoc]; rfl⟩
  · rw [hhistory]
    refine IsChain.suffix ?_ hsuffix
    refine isChain_append.2 ⟨h.linked, .singleton _, ?_⟩
    intro previous hprevious a ha
    cases ha
    exact hfollows previous hprevious
  · rw [hhistory]
    exact trim_length _ _

theorem rated_spec (t : AutotuneCounterRateTracker) (current : CounterRead)
    (delta : Option AutotuneCounterDelta) :
    (t.rated current delta).1.history = t.history ∧
    (t.rated current delta).1.maximumDeltaSpan = t.maximumDeltaSpan ∧
    (t.rated current delta).2.delta = delta ∧
    ∀ w, (t.rated current delta).2.rateWindow = some w → ∃ oldest, t.history.head? = some oldest ∧
      rateMinSpan ≤ current.1 - oldest.1 ∧ w = counterWindow oldest current := by
  cases hhead : t.history.head? with
  | none =>
    have hrated : t.rated current delta = ({ t with lastSample := none }, { delta := delta }) := by
      unfold rated
      rw [hhead]
    rw [hrated]
    exact ⟨rfl, rfl, rfl, nofun⟩
  | some oldest =>
    by_cases hshort : current.1 - oldest.1 < rateMinSpan
    · have hrated : t.rated current delta = ({ t with lastSample := none }, { delta := delta }) := by
        unfold rated
        rw [hhead]
        exact if_pos hshort
      rw [hrated]
      exact ⟨rfl, rfl, rfl, nofun⟩
    · have hpositive : ¬seconds (current.1 - oldest.1) ≤ 0 := by
        have hspan : 0 < current.1 - oldest.1 :=
          (by decide : 0 < rateMinSpan).trans_le (not_lt.1 hshort)
        rw [not_le]
        unfold seconds
        positivity
      have hrated :
        t.rated current delta = ({ t with lastSample := some (counterWindow oldest current) },
          { rateWindow := some (counterWindow oldest current), delta }) := by
        unfold rated
        rw [hhead]
        exact (if_neg hshort).trans (if_neg hpositive)
      rw [hrated]
      refine ⟨rfl, rfl, rfl, fun w hw => ⟨oldest, rfl, not_lt.1 hshort, ?_⟩⟩
      exact (some.inj hw).symm

/-- **What a read does**: it starts a new history, with or without a delta, or follows the last one. -/
theorem observe_read (t : AutotuneCounterRateTracker) (current : CounterRead) :
    (∃ previous, t.history.getLast? = some previous ∧ regressed previous current = true ∧
      t.perform (.read current) = ({ t.reset current.1 with history := [current] }, {})) ∨
    (∃ previous, t.history.getLast? = some previous ∧ regressed previous current = false ∧
      t.maximumDeltaSpan < current.1 - previous.1 ∧
      t.perform (.read current) =
        ({ t with history := [current], lastSample := none, lastRead := current.1 },
          { delta := some (counterDelta t.maximumDeltaSpan previous current) })) ∨
    ((∀ previous ∈ t.history.getLast?, Follows t.maximumDeltaSpan previous current) ∧
      t.perform (.read current) =
        rated { t with history := trim current.1 (t.history ++ [current]), lastRead := current.1 }
          current (t.history.getLast?.map (counterDelta t.maximumDeltaSpan · current))) := by
  simp only [perform, CounterEvent.read, observeCountersWithDelta]
  cases hlast : t.history.getLast? with
  | none => exact .inr (.inr ⟨nofun, rfl⟩)
  | some previous =>
    cases hregressed : regressed previous current with
    | true =>
      refine .inl ⟨previous, rfl, hregressed, ?_⟩
      rw [if_pos (by rw [any_some]; exact hregressed)]
    | false =>
      by_cases hwithin : current.1 - previous.1 ≤ t.maximumDeltaSpan
      · refine .inr (.inr ⟨?_, ?_⟩)
        · intro p hp
          cases hp
          exact ⟨hregressed, hwithin⟩
        · rw [if_neg (by rw [any_some, hregressed]; exact Bool.false_ne_true), if_neg]
          simp only [map_some, any_some, counterDelta, Bool.not_eq_true',
            decide_eq_false_iff_not, not_not]
          exact hwithin
      · refine .inr (.inl ⟨previous, rfl, hregressed, not_le.1 hwithin, ?_⟩)
        rw [if_neg (by rw [any_some, hregressed]; exact Bool.false_ne_true), if_pos]
        · rfl
        · simp only [map_some, any_some, counterDelta, Bool.not_eq_true',
            decide_eq_false_iff_not]
          exact hwithin

/-- **Every event keeps it.** -/
theorem step_kept (h : Kept maximumDeltaSpan t events) (e : CounterEvent) :
    Kept maximumDeltaSpan (t.step e) (events ++ [e]) := by
  match e with
  | .reset now => exact kept_nil h.span rfl
  | .observe now none => exact kept_nil h.span rfl
  | .observe now (some counters) =>
    show Kept maximumDeltaSpan (t.perform (.read (now, counters))).1 (events ++ [.read (now, counters)])
    rcases t.observe_read (now, counters) with ⟨-, -, -, hresult⟩ |
      ⟨previous, -, -, -, hresult⟩ | ⟨hfollows, hresult⟩
    · rw [hresult]
      exact kept_singleton h.span rfl
    · rw [hresult]
      exact kept_singleton h.span rfl
    · rw [hresult]
      obtain ⟨hhistory, hspan, -⟩ := rated_spec
        { t with history := trim now (t.history ++ [(now, counters)]), lastRead := now }
        (now, counters) (t.history.getLast?.map (counterDelta t.maximumDeltaSpan · (now, counters)))
      exact h.append (h.span ▸ hfollows) hspan hhistory

theorem run_kept (minInterval maximumDeltaSpan start : ℕ) (events : List CounterEvent) :
    Kept maximumDeltaSpan (run step (fresh minInterval maximumDeltaSpan start) events) events := by
  induction events using List.reverseRecOn with
  | nil => exact kept_nil rfl rfl
  | append_singleton events e ih =>
    rw [run_append]
    exact step_kept ih e

theorem step_last (t : AutotuneCounterRateTracker) (current : CounterRead) :
    (t.step (.read current)).history.getLast? = some current := by
  unfold step
  rcases t.observe_read current with ⟨-, -, -, hresult⟩ |
    ⟨previous, -, -, -, hresult⟩ | ⟨-, hresult⟩
  · rw [hresult]
    rfl
  · rw [hresult]
    rfl
  · rw [hresult, (rated_spec _ _ _).1]
    exact trim_last _ _ _

theorem delta_of_read {previous : CounterRead} (hlast : t.history.getLast? = some previous)
    (hnot : regressed previous current = false) : (t.perform (.read current)).2.delta =
      some (counterDelta t.maximumDeltaSpan previous current) := by
  rcases t.observe_read current with ⟨p, hp, hregressed, -⟩ | ⟨p, hp, -, -, hresult⟩ | ⟨-, hresult⟩
  · rw [hlast] at hp
    cases hp
    rw [hnot] at hregressed
    cases hregressed
  · rw [hlast] at hp
    cases hp
    rw [hresult]
  · rw [hresult, (rated_spec _ _ _).2.2.1, hlast]
    rfl

theorem delta_of_event (t : AutotuneCounterRateTracker) (e : CounterEvent) {d : AutotuneCounterDelta}
    (h : (t.perform e).2.delta = some d) : ∃ current previous, e = .read current ∧
      t.history.getLast? = some previous ∧ d = counterDelta t.maximumDeltaSpan previous current := by
  match e with
  | .reset now => cases h
  | .observe now none => cases h
  | .observe now (some counters) =>
    have hread : CounterEvent.observe now (some counters) = .read (now, counters) := rfl
    rw [hread] at h
    refine ⟨(now, counters), ?_⟩
    rcases t.observe_read (now, counters) with ⟨-, -, -, hresult⟩ | ⟨p, hp, -, -, hresult⟩ |
      ⟨-, hresult⟩
    · rw [hresult] at h
      cases h
    · rw [hresult] at h
      exact ⟨p, rfl, hp, (some.inj h).symm⟩
    · rw [hresult, (rated_spec _ _ _).2.2.1] at h
      obtain ⟨p, hp, rfl⟩ := map_eq_some_iff.1 h
      exact ⟨p, rfl, hp, rfl⟩

/-- **The deltas of a stretch sum up to what the counters counted.** -/
theorem deltas_sum (reads : List CounterRead) {first : CounterRead}
    (hlast : t.history.getLast? = some first)
    (hstretch : (first :: reads).IsChain fun a b => regressed a b = false) {last : CounterRead}
    (hend : (first :: reads).getLast? = some last) :
    ((t.deltas (reads.map CounterEvent.read)).map (·.downloadBytes)).sum
        = last.2.rxBytes - first.2.rxBytes ∧
      ((t.deltas (reads.map CounterEvent.read)).map (·.uploadBytes)).sum
        = last.2.txBytes - first.2.txBytes ∧
      first.2.rxBytes ≤ last.2.rxBytes ∧ first.2.txBytes ≤ last.2.txBytes := by
  induction reads generalizing t first with
  | nil =>
    obtain rfl : first = last := by simpa using hend
    simp [deltas]
  | cons current reads ih =>
    obtain ⟨hnot, hrest⟩ := isChain_cons_cons.1 hstretch
    obtain ⟨hrx, htx, hrxle, htxle⟩ := ih (t.step_last current) hrest hend
    obtain ⟨-, hrxfirst, htxfirst⟩ := regressed_false.1 hnot
    simp only [map_cons, deltas, delta_of_read hlast hnot, toList_some,
      cons_append, nil_append, sum_cons, hrx, htx, counterDelta]
    omega

theorem step_history (t : AutotuneCounterRateTracker) (e : CounterEvent) {r : CounterRead}
    (hr : (t.step e).history.getLast? = some r) : e = .read r := by
  match e with
  | .reset now => cases hr
  | .observe now none => cases hr
  | .observe now (some counters) =>
    have hlast := t.step_last (now, counters)
    have hsame : some (now, counters) = some r := hlast.symm.trans hr
    cases hsame
    rfl

/-- **No two deltas overlap**, while the clock does not go back. -/
theorem deltas_pairwise (t : AutotuneCounterRateTracker) (events : List CounterEvent)
    (htimed : (events.filterMap CounterEvent.readTime).Pairwise (· ≤ ·))
    {bound : ℕ} (hbound : ∀ time ∈ events.filterMap CounterEvent.readTime, bound ≤ time)
    (hlast : ∀ r ∈ t.history.getLast?, bound ≤ r.1) :
    (t.deltas events).Pairwise (fun a b => a.observedEnd ≤ b.observedStart) ∧
      ∀ d ∈ t.deltas events, bound ≤ d.observedStart := by
  induction events generalizing t bound with
  | nil => exact ⟨.nil, fun d hd => absurd hd not_mem_nil⟩
  | cons e events ih =>
    -- the read that an event was bounds the reads after it from below
    have hrest : ∀ {b}, (∀ time ∈ events.filterMap CounterEvent.readTime, b ≤ time) →
        (∀ r, e = .read r → b ≤ r.1) →
        ((t.step e).deltas events).Pairwise (fun a b => a.observedEnd ≤ b.observedStart) ∧
          ∀ d ∈ (t.step e).deltas events, b ≤ d.observedStart := by
      intro b hb he
      refine ih (t.step e) ?_ hb fun r hr => he r (t.step_history e hr)
      rw [filterMap_cons] at htimed
      split at htimed
      · exact htimed
      · exact (pairwise_cons.1 htimed).2
    have hlater : ∀ time ∈ events.filterMap CounterEvent.readTime, bound ≤ time := by
      intro time htime
      refine hbound time ?_
      rw [filterMap_cons]
      split
      · exact htime
      · exact mem_cons_of_mem _ htime
    have hread : ∀ r, e = .read r → bound ≤ r.1 := by
      rintro r rfl
      exact hbound r.1 (mem_filterMap.2 ⟨_, mem_cons_self, rfl⟩)
    rw [deltas]
    cases hdelta : (t.perform e).2.delta with
    | none => exact hrest hlater hread
    | some d =>
      obtain ⟨current, previous, rfl, hprevious, rfl⟩ := t.delta_of_event e hdelta
      have htimes : ∀ time ∈ events.filterMap CounterEvent.readTime, current.1 ≤ time := by
        exact fun time => rel_of_pairwise_cons htimed
      obtain ⟨hpair, hafter⟩ := hrest htimes fun r hr => by
        injection hr with htime hcounters
        exact htime.le
      refine ⟨pairwise_cons.2 ⟨hafter, hpair⟩, fun d hd => ?_⟩
      rcases mem_cons.1 hd with rfl | hd
      · exact hlast previous hprevious
      · exact (hread current rfl).trans (hafter d hd)

/-- A rate window over a stretch of consecutive reads. -/
structure Covers (maximumDeltaSpan : ℕ) (stretch : List CounterRead) (oldest current : CounterRead)
    (w : AutotuneCounterRateWindow) : Prop where
  oldest_eq : stretch.head? = some oldest
  current_eq : stretch.getLast? = some current
  linked : stretch.IsChain (Follows maximumDeltaSpan)
  observedStart : w.observedStart = oldest.1
  observedEnd : w.observedEnd = current.1
  span : w.observedStart + rateMinSpan ≤ w.observedEnd
  download : w.downloadKbps = ((current.2.rxBytes : ℚ) - oldest.2.rxBytes) * 8
    / (((w.observedEnd : ℚ) - w.observedStart) / 10 ^ 9) / 1000
  upload : w.uploadKbps = ((current.2.txBytes : ℚ) - oldest.2.txBytes) * 8
    / (((w.observedEnd : ℚ) - w.observedStart) / 10 ^ 9) / 1000

theorem chain_le {reads : List CounterRead} (h : reads.IsChain (Follows maximumDeltaSpan))
    {oldest current : CounterRead} (holdest : reads.head? = some oldest)
    (hcurrent : reads.getLast? = some current) : oldest.1 ≤ current.1 ∧
      oldest.2.rxBytes ≤ current.2.rxBytes ∧ oldest.2.txBytes ≤ current.2.txBytes := by
  induction reads generalizing oldest with
  | nil => cases holdest
  | cons a reads ih =>
    cases holdest
    cases reads with
    | nil =>
      obtain rfl : a = current := by simpa using hcurrent
      exact ⟨le_refl _, le_refl _, le_refl _⟩
    | cons b reads =>
      obtain ⟨hfollows, hrest⟩ := isChain_cons_cons.1 h
      obtain ⟨htime, hrx, htx⟩ := ih hrest rfl hcurrent
      obtain ⟨htime', hrx', htx'⟩ := regressed_false.1 hfollows.1
      exact ⟨htime'.le.trans htime, hrx'.trans hrx, htx'.trans htx⟩

/-- **A rate window covers a stretch of reads** that ends with the current one. -/
theorem window_covers (h : Kept maximumDeltaSpan t events) (e : CounterEvent)
    {w : AutotuneCounterRateWindow} (hw : (t.perform e).2.rateWindow = some w) :
    ∃ stretch oldest current, e = .read current ∧ stretch.map CounterEvent.read <:+ events ++ [e] ∧
      Covers maximumDeltaSpan stretch oldest current w := by
  match e with
  | .reset now => cases hw
  | .observe now none => cases hw
  | .observe now (some counters) =>
    have hkept := step_kept h (.read (now, counters))
    have hcurrent := t.step_last (now, counters)
    have hread : CounterEvent.observe now (some counters) = .read (now, counters) := rfl
    rw [hread] at hw ⊢
    rcases t.observe_read (now, counters) with ⟨-, -, -, hresult⟩ | ⟨p, -, -, -, hresult⟩ |
      ⟨-, hresult⟩
    · rw [hresult] at hw
      cases hw
    · rw [hresult] at hw
      cases hw
    · obtain ⟨hhistory, -, -, hwindow⟩ := rated_spec
        { t with history := trim now (t.history ++ [(now, counters)]), lastRead := now }
        (now, counters) (t.history.getLast?.map (counterDelta t.maximumDeltaSpan · (now, counters)))
      rw [hresult] at hw
      obtain ⟨oldest, holdest, hspan, rfl⟩ := hwindow w hw
      have hhead : (t.step (.read (now, counters))).history.head? = some oldest := by
        unfold step
        rw [hresult, hhistory]
        exact holdest
      obtain ⟨htime, hrx, htx⟩ := chain_le hkept.linked hhead hcurrent
      refine ⟨_, oldest, (now, counters), rfl, hkept.suffix, hhead, hcurrent, hkept.linked, rfl, rfl,
        ?_, ?_, ?_⟩
      · show oldest.1 + rateMinSpan ≤ now
        omega
      · show kbps (counters.rxBytes - oldest.2.rxBytes) (now - oldest.1) = _
        unfold kbps seconds
        rw [Nat.cast_sub hrx, Nat.cast_sub htime]
        rfl
      · show kbps (counters.txBytes - oldest.2.txBytes) (now - oldest.1) = _
        unfold kbps seconds
        rw [Nat.cast_sub htx, Nat.cast_sub htime]
        rfl

/-- **Each byte is counted once.**  For every sequence of reads and resets: the deltas of a stretch
sum up to the difference of the counters at its ends, a rate window ends with the current read, the
history is bounded, and where times do not decrease no two deltas overlap. -/
theorem counters_counted_once (minInterval maximumDeltaSpan start : ℕ) (events : List CounterEvent) :
    let t := fresh minInterval maximumDeltaSpan start
    (∀ first reads last, ((first :: reads).IsChain fun a b => regressed a b = false) →
      (first :: reads).getLast? = some last →
      let stretch := (run step t (events ++ [.read first])).deltas (reads.map CounterEvent.read)
      (stretch.map (·.downloadBytes)).sum = last.2.rxBytes - first.2.rxBytes ∧
        (stretch.map (·.uploadBytes)).sum = last.2.txBytes - first.2.txBytes ∧
        first.2.rxBytes ≤ last.2.rxBytes ∧ first.2.txBytes ≤ last.2.txBytes) ∧
    (∀ e w, ((run step t events).perform e).2.rateWindow = some w →
      ∃ stretch oldest current, e = .read current ∧
        stretch.map CounterEvent.read <:+ events ++ [e] ∧
        Covers maximumDeltaSpan stretch oldest current w) ∧
    (run step t events).history.length ≤ maxRateHistorySamples ∧
    ((events.filterMap CounterEvent.readTime).Pairwise (· ≤ ·) →
      (t.deltas events).Pairwise fun a b => a.observedEnd ≤ b.observedStart) := by
  intro t
  have h := run_kept minInterval maximumDeltaSpan start events
  refine ⟨fun first reads last hstretch hend => ?_, fun e w hw => window_covers h e hw, h.short,
    fun htimed => ?_⟩
  · refine deltas_sum reads ?_ hstretch hend
    rw [run_append]
    exact step_last _ first
  · exact (t.deltas_pairwise events htimed (fun _ _ => Nat.zero_le _) nofun).1

def readAt (ms bytes : ℕ) : CounterEvent := .read (millis ms, ⟨bytes, bytes⟩)

theorem readAt_pairwise : ((fresh (millis 200) (millis 600) 0).deltas
      [readAt 1000 10, readAt 1200 20, readAt 1400 40]).Pairwise
        (fun a b => a.observedEnd ≤ b.observedStart) ∧
    ((fresh (millis 200) (millis 600) 0).deltas
      [readAt 1000 10, readAt 1200 20, readAt 1400 40]).length = 2 :=
  ⟨(counters_counted_once (millis 200) (millis 600) 0
    [readAt 1000 10, readAt 1200 20, readAt 1400 40]).2.2.2 (by decide +kernel), by decide +kernel⟩

theorem clock_back_overlaps : ¬((fresh (millis 200) (millis 600) 0).deltas
    [readAt 1000 10, readAt 1400 20, readAt 1100 30, readAt 1300 40]).Pairwise
      fun a b => a.observedEnd ≤ b.observedStart ∨ b.observedEnd ≤ a.observedStart := by
  decide +kernel

end AutotuneCounterRateTracker

end CakeAutorate.Autotune
