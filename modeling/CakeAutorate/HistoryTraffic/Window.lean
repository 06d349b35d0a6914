/-
# The window of the traffic history

`Window` of `history_traffic.rs`: the average of a window is the difference of two counters over the
time between them, the peak is the largest rate between two observations that follow each other.  An
observation that is not later than the last one is dropped, a counter that goes back starts the
window anew, and a summary keeps the last observation as the first of the next window.
-/

import Mathlib.Algebra.BigOperators.Group.List.Basic
import Mathlib.Algebra.Order.Field.Rat
import Mathlib.Order.Bounds.Basic
import Mathlib.Tactic.Positivity
import Mathlib.Tactic.Ring

namespace CakeAutorate.HistoryTraffic

open List

/-- The counters at a time, in nanoseconds. -/
structure Observation where
  time : ℕ
  rx : ℕ
  tx : ℕ

structure Window where
  first : Option Observation := none
  last : Option Observation := none
  peakDl : ℚ := 0
  peakUl : ℚ := 0

structure Summary where
  averageDlKbps : ℚ
  averageUlKbps : ℚ
  peakDlKbps : ℚ
  peakUlKbps : ℚ
  observedSeconds : ℚ

def checkedSub (a b : ℕ) : Option ℕ := if b ≤ a then some (a - b) else none

/-- `duration_since`, in seconds. -/
def secondsSince (later earlier : Observation) : ℚ :=
  ((later.time - earlier.time : ℕ) : ℚ) / 1000000000

def kbps (bytes : ℕ) (seconds : ℚ) : ℚ := bytes * (8 / 1000) / seconds

namespace Window

/-- The end of `observe`. -/
def accept (w : Window) (current : Observation) : Window :=
  { w with first := w.first.or (some current), last := some current }

def observe (w : Window) (current : Observation) : Option Window :=
  match w.last with
  | none => some (w.accept current)
  | some previous =>
    if current.time ≤ previous.time then some w
    else if current.rx < previous.rx ∨ current.tx < previous.tx then
      some (Window.accept {} current)
    else
      match checkedSub current.rx previous.rx, checkedSub current.tx previous.tx with
      | some rx, some tx =>
        let seconds := secondsSince current previous
        some (Window.accept { w with
          peakDl := max w.peakDl (kbps rx seconds)
          peakUl := max w.peakUl (kbps tx seconds) } current)
      | _, _ => none

def finish (w : Window) : Option (Option Summary × Window) :=
  match w.first, w.last with
  | some first, some last =>
    if last.time ≤ first.time then some (none, w)
    else
      match checkedSub last.rx first.rx, checkedSub last.tx first.tx with
      | some rx, some tx =>
        let seconds := secondsSince last first
        some (some ⟨kbps rx seconds, kbps tx seconds, w.peakDl, w.peakUl, seconds⟩,
          { w with first := some last, peakDl := 0, peakUl := 0 })
      | _, _ => none
  | _, _ => some (none, w)

end Window

inductive Call
  | observe (o : Observation)
  | finish

/-- A summary, and the interval that it is of. -/
structure Report where
  opened : Observation
  closed : Observation
  summary : Summary

structure Log where
  window : Window := {}
  reports : List Report := []

def Log.step (l : Log) : Call → Option Log
  | .observe o => (l.window.observe o).map fun w => { l with window := w }
  | .finish =>
    match l.window.finish, l.window.first, l.window.last with
    | some (some summary, w), some first, some last =>
      some ⟨w, ⟨first, last, summary⟩ :: l.reports⟩
    | some (_, w), _, _ => some { l with window := w }
    | none, _, _ => none

def run (calls : List Call) : Option Log := calls.foldlM Log.step {}

def keep : List Observation → Call → List Observation
  | kept, .finish => kept
  | [], .observe o => [o]
  | p :: kept, .observe o => if o.time ≤ p.time then p :: kept else o :: p :: kept

def accepted (calls : List Call) : List Observation := calls.foldl keep []

def rate (counter : Observation → ℕ) (p q : Observation) : ℚ :=
  kbps (counter q - counter p) (secondsSince q p)

def Regressed (p q : Observation) : Prop := q.rx < p.rx ∨ q.tx < p.tx

/-- `q` is the observation that was accepted after `p`, and both are in the interval. -/
structure Within (kept : List Observation) (opened closed p q : Observation) : Prop where
  next : [q, p] <:+: kept
  opened_le : opened.time ≤ p.time
  le_closed : q.time ≤ closed.time

/-- What a summary says of one counter. -/
structure Report.Says (r : Report) (kept : List Observation) (counter : Observation → ℕ)
    (average peak : ℚ) : Prop where
  grows : counter r.opened ≤ counter r.closed
  exact : average * r.summary.observedSeconds =
    ((counter r.closed : ℚ) - counter r.opened) * (8 / 1000)
  average_le : average ≤ peak
  peak_greatest :
    IsGreatest {x | ∃ p q, Within kept r.opened r.closed p q ∧ x = rate counter p q} peak

/-- A summary is right about its interval. -/
structure Report.Exact (r : Report) (kept : List Observation) : Prop where
  opened_mem : r.opened ∈ kept
  closed_mem : r.closed ∈ kept
  ordered : r.opened.time < r.closed.time
  seconds : r.summary.observedSeconds = secondsSince r.closed r.opened
  dl : r.Says kept Observation.rx r.summary.averageDlKbps r.summary.peakDlKbps
  ul : r.Says kept Observation.tx r.summary.averageUlKbps r.summary.peakUlKbps

/-- An interval that ends at `a` goes on at `b`, unless a counter went back in between. -/
def Adjoins (kept : List Observation) (a b : Observation) : Prop :=
  a = b ∨ ∃ p q, Within kept a b p q ∧ Regressed p q

def Steady (kept : List Observation) (opened closed : Observation) : Prop :=
  ∀ p q, Within kept opened closed p q → ¬Regressed p q

variable {kept rest span : List Observation} {counter : Observation → ℕ} {o p q : Observation}
  {l : Log} {r : Report}

def peak (counter : Observation → ℕ) : List Observation → ℚ
  | q :: p :: span => max (peak counter (p :: span)) (rate counter p q)
  | _ => 0

/-- The window has seen these observations since it was opened, the newest first. -/
structure Spans (w : Window) (span : List Observation) : Prop where
  first : w.first = span.getLast?
  last : w.last = span.head?
  steady : span.IsChain fun q p => p.rx ≤ q.rx ∧ p.tx ≤ q.tx
  peakDl : w.peakDl = peak Observation.rx span
  peakUl : w.peakUl = peak Observation.tx span

theorem secondsSince_pos (h : p.time < q.time) : 0 < secondsSince q p := by
  have hpos : (0 : ℚ) < ((q.time - p.time : ℕ) : ℚ) := by exact_mod_cast Nat.sub_pos_of_lt h
  exact div_pos hpos (by norm_num)

theorem secondsSince_add (hop : o.time ≤ p.time) (hpq : p.time ≤ q.time) :
    secondsSince q o = secondsSince q p + secondsSince p o := by
  rw [secondsSince, secondsSince, secondsSince, ← add_div, ← Nat.cast_add]
  congr 2
  omega

theorem kbps_mul {bytes : ℕ} (h : p.time < q.time) :
    kbps bytes (secondsSince q p) * secondsSince q p = bytes * (8 / 1000) :=
  div_mul_cancel₀ _ (secondsSince_pos h).ne'

/-- **The peak is the greatest rate** of two neighbours. -/
theorem greatest_peak (h : (q :: p :: span).Pairwise fun q p => p.time < q.time) :
    IsGreatest {x | ∃ a b, [b, a] <:+: q :: p :: span ∧ x = rate counter a b}
      (peak counter (q :: p :: span)) := by
  induction span generalizing q p with
  | nil =>
    have hrate : 0 ≤ rate counter p q := by
      refine div_nonneg (by positivity) (secondsSince_pos ?_).le
      exact (pairwise_cons.mp h).1 p mem_cons_self
    refine ⟨⟨p, q, infix_refl _, max_eq_right hrate⟩, ?_⟩
    rintro x ⟨a, b, hpart, rfl⟩
    obtain ⟨rfl, rfl⟩ : b = q ∧ a = p := by simpa using hpart.eq_of_length rfl
    exact le_max_right _ _
  | cons o span ih =>
    obtain ⟨⟨a, b, hpart, hmax⟩, hbound⟩ := @ih o p h.of_cons
    constructor
    · rcases max_choice (peak counter (p :: o :: span)) (rate counter p q) with heq | heq
      · exact ⟨a, b, hpart.trans (suffix_cons _ _).isInfix, heq.trans hmax⟩
      · exact ⟨p, q, ⟨[], o :: span, rfl⟩, heq⟩
    · rintro x ⟨a, b, hpart, rfl⟩
      rcases infix_cons_iff.mp hpart with hfirst | hlater
      · obtain ⟨hb, hnext⟩ := cons_prefix_cons.mp hfirst
        rw [hb, (cons_prefix_cons.mp hnext).1]
        exact le_max_right _ _
      · exact le_max_of_le_left (hbound ⟨a, b, hlater, rfl⟩)

theorem bytes_le (htimes : span.Pairwise fun q p => p.time < q.time)
    (hgrows : span.IsChain fun q p => counter p ≤ counter q) {first last : Observation}
    (hfirst : first ∈ span.getLast?) (hlast : last ∈ span.head?) :
    counter first ≤ counter last ∧ first.time ≤ last.time ∧
      ((counter last : ℚ) - counter first) * (8 / 1000) ≤
        peak counter span * secondsSince last first := by
  induction span generalizing last with
  | nil => cases hlast
  | cons q span ih =>
    obtain rfl : q = last := by simpa using hlast
    cases span with
    | nil =>
      obtain rfl : q = first := by simpa using hfirst
      simp [peak]
    | cons p span =>
      have hpq : p.time < q.time := (pairwise_cons.mp htimes).1 p mem_cons_self
      have hcounter : counter p ≤ counter q := (isChain_cons_cons.mp hgrows).1
      obtain ⟨hle, htime, hbytes⟩ := @ih htimes.of_cons (isChain_cons_cons.mp hgrows).2 p
        (by simpa using hfirst) rfl
      refine ⟨hle.trans hcounter, htime.trans hpq.le, ?_⟩
      have hstep : ((counter q : ℚ) - counter p) * (8 / 1000) =
          rate counter p q * secondsSince q p := by
        rw [rate, kbps_mul hpq, Nat.cast_sub hcounter]
      have hfar : 0 ≤ secondsSince p first := by
        rw [secondsSince]
        positivity
      calc ((counter q : ℚ) - counter first) * (8 / 1000)
          = ((counter q : ℚ) - counter p) * (8 / 1000) +
              ((counter p : ℚ) - counter first) * (8 / 1000) := by ring
        _ ≤ rate counter p q * secondsSince q p + peak counter (p :: span) * secondsSince p first :=
            add_le_add hstep.le hbytes
        _ ≤ peak counter (q :: p :: span) * secondsSince q p +
              peak counter (q :: p :: span) * secondsSince p first :=
            add_le_add (mul_le_mul_of_nonneg_right (le_max_right _ _) (secondsSince_pos hpq).le)
              (mul_le_mul_of_nonneg_right (le_max_left _ _) hfar)
        _ = peak counter (q :: p :: span) * secondsSince q first := by
            rw [secondsSince_add htime hpq.le, mul_add]

theorem infix_span (htimes : (span ++ rest).Pairwise fun q p => p.time < q.time)
    {first : Observation} (hfirst : first ∈ span.getLast?) (hpart : [q, p] <:+: span ++ rest)
    (hle : first.time ≤ p.time) : [q, p] <:+: span := by
  induction span with
  | nil => cases hfirst
  | cons a span ih =>
    have hearlier : ∀ b ∈ rest, b.time < first.time := fun b hb =>
      (pairwise_append.mp htimes).2.2 first (mem_of_getLast? hfirst) b hb
    rcases infix_cons_iff.mp hpart with hhead | hlater
    · obtain ⟨hq, hhead⟩ := cons_prefix_cons.mp hhead
      cases span with
      | nil =>
        have hp : p ∈ rest := by simpa using hhead.subset mem_cons_self
        exact absurd (hearlier p hp) (by omega)
      | cons b span =>
        rw [hq, (cons_prefix_cons.mp hhead).1]
        exact ⟨[], span, rfl⟩
    · cases span with
      | nil =>
        have hp : p ∈ rest := hlater.subset (by simp)
        exact absurd (hearlier p hp) (by omega)
      | cons b span =>
        exact (ih htimes.of_cons (by simpa using hfirst) hlater).trans (suffix_cons _ _).isInfix

theorem within_cons_iff {opened closed a b : Observation} (h : closed.time < o.time) :
    Within (o :: kept) opened closed a b ↔ Within kept opened closed a b := by
  constructor
  · rintro ⟨hnext, hopened, hclosed⟩
    rcases infix_cons_iff.mp hnext with hhead | hlater
    · have hb : b = o := (cons_prefix_cons.mp hhead).1
      rw [hb] at hclosed
      omega
    · exact ⟨hlater, hopened, hclosed⟩
  · rintro ⟨hnext, hopened, hclosed⟩
    exact ⟨hnext.trans (suffix_cons _ _).isInfix, hopened, hclosed⟩

theorem Adjoins.cons {a b : Observation} (h : Adjoins kept a b) : Adjoins (o :: kept) a b := by
  refine h.imp id ?_
  rintro ⟨p, q, ⟨hnext, hopened, hclosed⟩, hregressed⟩
  exact ⟨p, q, ⟨hnext.trans (suffix_cons _ _).isInfix, hopened, hclosed⟩, hregressed⟩

theorem Report.Says.cons {average most : ℚ} (h : r.Says kept counter average most)
    (hlater : r.closed.time < o.time) : r.Says (o :: kept) counter average most := by
  refine { h with peak_greatest := ?_ }
  simp only [within_cons_iff hlater]
  exact h.peak_greatest

theorem Report.Exact.cons (h : r.Exact kept) (hlater : r.closed.time < o.time) :
    r.Exact (o :: kept) where
  opened_mem := mem_cons_of_mem _ h.opened_mem
  closed_mem := mem_cons_of_mem _ h.closed_mem
  ordered := h.ordered
  seconds := h.seconds
  dl := h.dl.cons hlater
  ul := h.ul.cons hlater

/-- The invariant of the window and of the summaries that it has given. -/
structure Inv (kept : List Observation) (l : Log) : Prop where
  times : kept.Pairwise fun q p => p.time < q.time
  span : ∃ span rest, kept = span ++ rest ∧ (span = [] → rest = []) ∧ Spans l.window span
  exact : ∀ r ∈ l.reports, r.Exact kept
  before : ∀ r ∈ l.reports, ∀ first ∈ l.window.first, r.closed.time ≤ first.time
  newest : ∀ r ∈ l.reports.head?, ∀ first ∈ l.window.first, Adjoins kept r.closed first
  apart : l.reports.Pairwise fun later earlier => earlier.closed.time ≤ later.opened.time
  adjoin : l.reports.IsChain fun later earlier => Adjoins kept earlier.closed later.opened

theorem Inv.cons (h : Inv kept l) (hlater : ∀ p ∈ kept, p.time < o.time) {w : Window}
    (hspan : ∃ span rest, o :: kept = span ++ rest ∧ (span = [] → rest = []) ∧ Spans w span)
    (hbefore : ∀ r ∈ l.reports, ∀ first ∈ w.first, r.closed.time ≤ first.time)
    (hnewest : ∀ r ∈ l.reports.head?, ∀ first ∈ w.first, Adjoins (o :: kept) r.closed first) :
    Inv (o :: kept) { l with window := w } where
  times := pairwise_cons.mpr ⟨hlater, h.times⟩
  span := hspan
  exact r hr := (h.exact r hr).cons (hlater _ (h.exact r hr).closed_mem)
  before := hbefore
  newest := hnewest
  apart := h.apart
  adjoin := h.adjoin.imp fun _ _ hab => hab.cons

theorem checkedSub_of_le {a b : ℕ} (h : b ≤ a) : checkedSub a b = some (a - b) := if_pos h

theorem spans_singleton (o : Observation) : Spans (Window.accept {} o) [o] where
  first := rfl
  last := rfl
  steady := isChain_singleton _
  peakDl := rfl
  peakUl := rfl

/-- **One observation.** -/
theorem Inv.observe (h : Inv kept l) (o : Observation) :
    ∃ w, l.window.observe o = some w ∧ Inv (keep kept (.observe o)) { l with window := w } := by
  obtain ⟨span, rest, rfl, hempty, hspans⟩ := h.span
  cases span with
  | nil =>
    obtain rfl := hempty rfl
    have hreports : l.reports = [] := eq_nil_iff_forall_not_mem.mpr fun r hr => by
      cases (h.exact r hr).opened_mem
    have hw : l.window.observe o = some (Window.accept l.window o) := by
      rw [Window.observe, hspans.last]
      rfl
    have hsame : Window.accept l.window o = Window.accept {} o := by
      simp [Window.accept, hspans.first, hspans.peakDl, hspans.peakUl, peak]
    refine ⟨_, hw, h.cons (by simp) ⟨[o], [], rfl, by simp, hsame ▸ spans_singleton o⟩ ?_ ?_⟩
    · rw [hreports]
      simp
    · rw [hreports]
      simp
  | cons p span =>
    have hlast : l.window.last = some p := hspans.last
    by_cases hstale : o.time ≤ p.time
    · refine ⟨l.window, by rw [Window.observe, hlast]; exact if_pos hstale, ?_⟩
      have hkeep : keep (p :: span ++ rest) (.observe o) = p :: span ++ rest := if_pos hstale
      rw [hkeep]
      exact h
    · have hlater : ∀ a ∈ p :: span ++ rest, a.time < o.time := by
        intro a ha
        rcases mem_cons.mp ha with rfl | ha
        · omega
        · have hap := (pairwise_cons.mp h.times).1 a ha
          omega
      have hkeep : keep (p :: span ++ rest) (.observe o) = o :: (p :: span ++ rest) :=
        if_neg hstale
      obtain ⟨first, hfirst⟩ : ∃ first, l.window.first = some first :=
        ⟨_, hspans.first.trans (getLast?_eq_some_getLast (cons_ne_nil p span))⟩
      have hold : first.time ≤ p.time := by
        have hmem := mem_of_getLast? (hspans.first.symm.trans hfirst)
        rcases mem_cons.mp hmem with rfl | hmem
        · exact le_rfl
        · exact ((pairwise_cons.mp h.times).1 first (mem_append_left _ hmem)).le
      rw [hkeep]
      by_cases hregressed : o.rx < p.rx ∨ o.tx < p.tx
      · -- the window starts anew, and what was open is in no summary
        refine ⟨.accept {} o, ?_, h.cons hlater ⟨[o], _, rfl, by simp, spans_singleton o⟩ ?_ ?_⟩
        · rw [Window.observe, hlast]
          dsimp only
          rw [if_neg hstale, if_pos hregressed]
        · rintro r hr _ ⟨⟩
          exact (hlater _ (h.exact r hr).closed_mem).le
        · rintro r hr _ ⟨⟩
          have hr' := mem_of_mem_head? hr
          refine .inr ⟨p, o, ⟨⟨[], span ++ rest, rfl⟩, ?_, le_rfl⟩, hregressed⟩
          exact (h.before r hr' first hfirst).trans hold
      · obtain ⟨hrx, htx⟩ := not_or.mp hregressed
        refine ⟨.accept { l.window with
            peakDl := max l.window.peakDl (rate Observation.rx p o)
            peakUl := max l.window.peakUl (rate Observation.tx p o) } o, ?_,
          h.cons hlater ⟨o :: p :: span, rest, rfl, by simp, ?_⟩ ?_ ?_⟩
        · rw [Window.observe, hlast]
          dsimp only
          rw [if_neg hstale, if_neg hregressed, checkedSub_of_le (by omega),
            checkedSub_of_le (by omega)]
          rfl
        · exact
            { first := by rw [Window.accept, hfirst]; exact hfirst.symm.trans hspans.first
              last := rfl
              steady := hspans.steady.cons_cons ⟨by omega, by omega⟩
              peakDl := congrArg (max · _) hspans.peakDl
              peakUl := congrArg (max · _) hspans.peakUl }
        · intro r hr a ha
          rw [Window.accept, hfirst] at ha
          exact h.before r hr a (hfirst.trans ha)
        · intro r hr a ha
          rw [Window.accept, hfirst] at ha
          exact (h.newest r hr a (hfirst.trans ha)).cons

theorem Report.Says.of_span (htimes : (span ++ rest).Pairwise fun q p => p.time < q.time)
    (hgrows : span.IsChain fun q p => counter p ≤ counter q) (hfirst : r.opened ∈ span.getLast?)
    (hlast : r.closed ∈ span.head?) (hordered : r.opened.time < r.closed.time)
    (hseconds : r.summary.observedSeconds = secondsSince r.closed r.opened) :
    r.Says (span ++ rest) counter
      (kbps (counter r.closed - counter r.opened) (secondsSince r.closed r.opened))
      (peak counter span) := by
  have hspan := (pairwise_append.mp htimes).1
  obtain ⟨hle, -, hbytes⟩ := bytes_le hspan hgrows hfirst hlast
  have hexact : kbps (counter r.closed - counter r.opened) (secondsSince r.closed r.opened) *
      secondsSince r.closed r.opened =
        ((counter r.closed : ℚ) - counter r.opened) * (8 / 1000) := by
    rw [kbps_mul hordered, Nat.cast_sub hle]
  refine ⟨hle, hseconds ▸ hexact, ?_, ?_⟩
  · refine le_of_mul_le_mul_right ?_ (secondsSince_pos hordered)
    rw [hexact]
    exact hbytes
  · obtain ⟨q, p, others, rfl⟩ : ∃ q p others, span = q :: p :: others := by
      match span, hfirst, hlast with
      | [q], hfirst, hlast =>
        obtain rfl : q = r.opened := by simpa using hfirst
        obtain h : r.opened = r.closed := by simpa using hlast
        rw [h] at hordered
        exact absurd hordered (lt_irrefl _)
      | q :: p :: others, _, _ => exact ⟨q, p, others, rfl⟩
    obtain ⟨⟨a, b, hpart, hmax⟩, hbound⟩ := @greatest_peak others counter p q hspan
    have hclosed : ∀ x ∈ q :: p :: others, x.time ≤ r.closed.time := by
      obtain rfl : q = r.closed := by simpa using hlast
      intro x hx
      rcases mem_cons.mp hx with rfl | hx
      · exact le_rfl
      · exact ((pairwise_cons.mp hspan).1 x hx).le
    have hopened : ∀ x ∈ q :: p :: others, r.opened.time ≤ x.time := by
      obtain ⟨front, hfront⟩ := getLast?_eq_some_iff.mp hfirst
      rw [hfront] at hspan ⊢
      intro x hx
      rcases mem_append.mp hx with hx | hx
      · exact ((pairwise_append.mp hspan).2.2 x hx _ mem_cons_self).le
      · rw [mem_singleton.mp hx]
    constructor
    · refine ⟨a, b, ⟨hpart.trans ⟨[], rest, rfl⟩, ?_, ?_⟩, hmax⟩
      · exact hopened a (hpart.subset (by simp))
      · exact hclosed b (hpart.subset (by simp))
    · rintro x ⟨a, b, ⟨hnext, hle, -⟩, rfl⟩
      exact hbound ⟨a, b, infix_span htimes hfirst hnext hle, rfl⟩

/-- **A window that is finished.** -/
theorem Inv.finish (h : Inv kept l) : ∃ l', l.step .finish = some l' ∧ Inv kept l' := by
  obtain ⟨span, rest, rfl, hempty, hspans⟩ := h.span
  cases span with
  | nil =>
    have hnone : l.step .finish = some l := by
      rw [Log.step, Window.finish, hspans.first]
      rfl
    exact ⟨l, hnone, h⟩
  | cons q span =>
    have hlast : l.window.last = some q := hspans.last
    obtain ⟨first, hfirst⟩ : ∃ first, l.window.first = some first :=
      ⟨_, hspans.first.trans (getLast?_eq_some_getLast (cons_ne_nil q span))⟩
    have hget : first ∈ (q :: span).getLast? := hspans.first.symm.trans hfirst
    by_cases hshort : q.time ≤ first.time
    · have hnone : l.step .finish = some l := by
        rw [Log.step, Window.finish, hfirst, hlast]
        dsimp only
        rw [if_pos hshort]
      exact ⟨l, hnone, h⟩
    · have hordered : first.time < q.time := not_le.mp hshort
      have hspan := (pairwise_append.mp h.times).1
      have hgrows_rx := hspans.steady.imp fun _ _ h => h.1
      have hgrows_tx := hspans.steady.imp fun _ _ h => h.2
      obtain ⟨hrx, -⟩ := bytes_le hspan hgrows_rx hget rfl
      obtain ⟨htx, -⟩ := bytes_le hspan hgrows_tx hget rfl
      let r : Report := ⟨first, q, kbps (q.rx - first.rx) (secondsSince q first),
        kbps (q.tx - first.tx) (secondsSince q first), l.window.peakDl, l.window.peakUl,
        secondsSince q first⟩
      refine ⟨⟨{ first := some q, last := some q }, r :: l.reports⟩, ?_, ?_⟩
      · rw [Log.step, Window.finish, hfirst, hlast]
        dsimp only
        rw [if_neg hshort, checkedSub_of_le hrx, checkedSub_of_le htx]
      · have hr : r.Exact (q :: span ++ rest) :=
          { opened_mem := mem_append_left _ (mem_of_getLast? hget)
            closed_mem := mem_cons_self
            ordered := hordered
            seconds := rfl
            dl := by
              have hsays := @Report.Says.of_span rest (q :: span) Observation.rx r h.times
                hgrows_rx hget rfl hordered rfl
              rw [← hspans.peakDl] at hsays
              exact hsays
            ul := by
              have hsays := @Report.Says.of_span rest (q :: span) Observation.tx r h.times
                hgrows_tx hget rfl hordered rfl
              rw [← hspans.peakUl] at hsays
              exact hsays }
        exact
          { times := h.times
            span := ⟨[q], span ++ rest, rfl, by simp, ⟨rfl, rfl, isChain_singleton _, rfl, rfl⟩⟩
            exact := forall_mem_cons.mpr ⟨hr, h.exact⟩
            before := by
              rintro a ha _ ⟨⟩
              rcases mem_cons.mp ha with rfl | ha
              · exact le_rfl
              · exact (h.before a ha first hfirst).trans hordered.le
            newest := by
              rintro _ ⟨⟩ _ ⟨⟩
              exact .inl rfl
            apart := pairwise_cons.mpr ⟨fun a ha => h.before a ha first hfirst, h.apart⟩
            adjoin := by
              refine isChain_cons.mpr ⟨fun a ha => ?_, h.adjoin⟩
              exact h.newest a ha first hfirst }

theorem sum_adjoining {average : Report → ℚ} {segment : List Report}
    (hexact : ∀ a ∈ r :: segment, average a * a.summary.observedSeconds =
      ((counter a.closed : ℚ) - counter a.opened) * (8 / 1000))
    (hadjoin : (r :: segment).IsChain fun later earlier => earlier.closed = later.opened)
    (first : Report) (hfirst : first ∈ (r :: segment).getLast?) :
    ((r :: segment).map fun a => average a * a.summary.observedSeconds).sum =
      ((counter r.closed : ℚ) - counter first.opened) * (8 / 1000) := by
  induction segment generalizing r with
  | nil =>
    obtain rfl : r = first := by simpa using hfirst
    simpa using hexact r mem_cons_self
  | cons a segment ih =>
    obtain ⟨hnext, hadjoin⟩ := isChain_cons_cons.mp hadjoin
    have hrest := ih (fun b hb => hexact b (mem_cons_of_mem _ hb)) hadjoin (by simpa using hfirst)
    rw [map_cons, sum_cons, hrest, hexact r mem_cons_self, hnext]
    ring

/-- What a log says, of the observations that count. -/
structure Log.Sound (l : Log) (kept : List Observation) : Prop where
  last : l.window.last = kept.head?
  stale : ∀ p ∈ kept.head?, ∀ o : Observation, o.time ≤ p.time → l.window.observe o = some l.window
  exact : ∀ r ∈ l.reports, r.Exact kept
  apart : l.reports.Pairwise fun later earlier => earlier.closed.time ≤ later.opened.time
  adjoin : l.reports.IsChain fun later earlier => Adjoins kept earlier.closed later.opened
  add_up : ∀ segment, segment <:+: l.reports → ∀ newest ∈ segment.head?,
    ∀ oldest ∈ segment.getLast?, Steady kept oldest.opened newest.closed →
      (segment.map fun a => a.summary.averageDlKbps * a.summary.observedSeconds).sum =
        ((newest.closed.rx : ℚ) - oldest.opened.rx) * (8 / 1000) ∧
      (segment.map fun a => a.summary.averageUlKbps * a.summary.observedSeconds).sum =
        ((newest.closed.tx : ℚ) - oldest.opened.tx) * (8 / 1000)

theorem Inv.add_up (h : Inv kept l) {segment : List Report} (hpart : segment <:+: l.reports)
    {newest oldest : Report} (hnewest : newest ∈ segment.head?)
    (holdest : oldest ∈ segment.getLast?)
    (hsteady : Steady kept oldest.opened newest.closed) :
    segment.IsChain fun later earlier => earlier.closed = later.opened := by
  have hadjoin := h.adjoin.infix hpart
  have hapart := h.apart.sublist hpart.sublist
  have hexact : ∀ a ∈ segment, a.opened.time < a.closed.time := fun a ha =>
    (h.exact a (hpart.subset ha)).ordered
  induction segment generalizing newest with
  | nil => exact isChain_nil
  | cons r segment ih =>
    obtain rfl : r = newest := by simpa using hnewest
    cases segment with
    | nil => exact isChain_singleton _
    | cons a segment =>
      have holdest' : oldest ∈ (a :: segment).getLast? := by simpa using holdest
      have hle : a.closed.time ≤ r.opened.time :=
        (pairwise_cons.mp hapart).1 a mem_cons_self
      have hr := hexact r mem_cons_self
      have hold : oldest.opened.time ≤ a.closed.time := by
        rcases mem_cons.mp (mem_of_getLast? holdest') with rfl | hmem
        · exact (hexact _ (by simp)).le
        · have hbefore := (pairwise_cons.mp hapart.of_cons).1 oldest hmem
          have ha := hexact a (by simp)
          have ho := hexact oldest (by simp [hmem])
          omega
      obtain ⟨hnext, hadjoin⟩ := isChain_cons_cons.mp hadjoin
      refine isChain_cons_cons.mpr ⟨?_, ?_⟩
      · rcases hnext with heq | ⟨p, q, hwithin, hregressed⟩
        · exact heq
        · have hp := hwithin.opened_le
          have hq := hwithin.le_closed
          exact absurd hregressed (hsteady p q ⟨hwithin.next, by omega, by omega⟩)
      · refine ih ((suffix_cons _ _).isInfix.trans hpart) rfl holdest' ?_ hadjoin
          hapart.of_cons fun b hb => hexact b (mem_cons_of_mem _ hb)
        intro p q hwithin
        exact hsteady p q ⟨hwithin.next, hwithin.opened_le, by
          have hq := hwithin.le_closed
          omega⟩

theorem Inv.sound (h : Inv kept l) : l.Sound kept := by
  have hlast : l.window.last = kept.head? := by
    obtain ⟨span, rest, rfl, hempty, hspans⟩ := h.span
    cases span with
    | nil =>
      rw [hempty rfl]
      exact hspans.last
    | cons p span => exact hspans.last
  refine ⟨hlast, fun p hp o hle => ?_, h.exact, h.apart, h.adjoin, ?_⟩
  · rw [Window.observe, hlast, hp]
    exact if_pos hle
  · intro segment hpart newest hnewest oldest holdest hsteady
    have hchain := h.add_up hpart hnewest holdest hsteady
    have hexact : ∀ a ∈ segment, a.Exact kept := fun a ha => h.exact a (hpart.subset ha)
    cases segment with
    | nil => cases hnewest
    | cons r segment =>
      obtain rfl : r = newest := by simpa using hnewest
      exact ⟨sum_adjoining (fun a ha => (hexact a ha).dl.exact) hchain oldest holdest,
        sum_adjoining (fun a ha => (hexact a ha).ul.exact) hchain oldest holdest⟩

theorem Inv.step (h : Inv kept l) (c : Call) : ∃ l', l.step c = some l' ∧ Inv (keep kept c) l' := by
  cases c with
  | observe o =>
    obtain ⟨w, hw, hinv⟩ := h.observe o
    exact ⟨_, by rw [Log.step, hw]; rfl, hinv⟩
  | finish =>
    have hkeep : keep kept .finish = kept := by cases kept <;> rfl
    exact h.finish

theorem Inv.run (h : Inv kept l) (calls : List Call) :
    ∃ l', calls.foldlM Log.step l = some l' ∧ Inv (calls.foldl keep kept) l' := by
  induction calls generalizing kept l with
  | nil => exact ⟨l, rfl, h⟩
  | cons c calls ih =>
    obtain ⟨l₁, hstep, h₁⟩ := h.step c
    obtain ⟨l', hrun, h'⟩ := ih h₁
    exact ⟨l', by rw [foldlM_cons, hstep]; exact hrun, h'⟩

theorem inv_new : Inv [] {} where
  times := List.Pairwise.nil
  span := ⟨[], [], rfl, fun _ => rfl, ⟨rfl, rfl, isChain_nil, rfl, rfl⟩⟩
  exact := by simp
  before := by simp
  newest := by simp
  apart := List.Pairwise.nil
  adjoin := isChain_nil

end CakeAutorate.HistoryTraffic
