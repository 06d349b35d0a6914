/-
# The baseline warm-up

`BaselineWarmup` of `latency_baseline.rs`: the first baseline of a reflector is the median of three
frames of one quiet period, which three distinct counter frames prove to be quiet.  Latencies are
rationals where the source has floats, absent where the float is not finite; times are nanoseconds,
and a duration since a later time is zero.
-/

import Mathlib.Algebra.Order.Ring.Rat
import Mathlib.Data.List.Sort

namespace CakeAutorate.Controller

open List Option Function

/-- A value for each direction. -/
structure Directions (α : Type) where
  download : α
  upload : α
  deriving DecidableEq

structure BaselineObservation where
  owdUs : Directions (Option ℚ)
  now : ℕ
  loadEpoch : ℕ
  quiet : Bool

structure BaselinePolicy where
  maximumLoadAge : ℕ
  minimumQuietSpan : ℕ
  maximumSpreadUs : Directions ℚ

/-- `BaselineWarmup`; the ring of three is a function of the slot. -/
structure BaselineWarmup where
  epoch : ℕ
  lastLoad : Option ℕ
  quietSince : Option ℕ
  values : Fin 3 → Directions ℚ
  count : ℕ
  next : Fin 3

def BaselineWarmup.new (epoch : ℕ) : BaselineWarmup := ⟨epoch, none, none, fun _ => ⟨0, 0⟩, 0, 0⟩

def BaselineObservation.value (o : BaselineObservation) : Option (Directions ℚ) :=
  match o.owdUs with
  | ⟨some download, some upload⟩ => some ⟨download, upload⟩
  | _ => none

/-- `BaselineWarmup::observe`, whether the load data of a frame is recent. -/
def BaselineObservation.recent (o : BaselineObservation) (epoch : ℕ) (policy : BaselinePolicy) : Bool :=
  decide (epoch < o.loadEpoch) && decide (o.loadEpoch ≤ o.now)
    && decide (o.now - o.loadEpoch ≤ policy.maximumLoadAge)

/-- `BaselineWarmup::observe`, one direction of the three values. -/
def median (spread a b c : ℚ) : Option ℚ :=
  match [a, b, c].insertionSort (· ≤ ·) with
  | [low, middle, high] => if high - low > spread then none else some middle
  | _ => none

/-- `BaselineWarmup::observe`, both directions of the ring. -/
def medians (policy : BaselinePolicy) (values : Fin 3 → Directions ℚ) : Option (Directions ℚ) := do
  let download ← median policy.maximumSpreadUs.download (values 0).download (values 1).download
    (values 2).download
  let upload ← median policy.maximumSpreadUs.upload (values 0).upload (values 1).upload
    (values 2).upload
  return ⟨download, upload⟩

def BaselineWarmup.observe (w : BaselineWarmup) (o : BaselineObservation) (policy : BaselinePolicy) :
    BaselineWarmup × Option (Directions ℚ) :=
  match o.recent w.epoch policy && o.quiet, o.value with
  | true, some value =>
    -- a counter frame is used once, not once for each reply that it was cached for
    if w.lastLoad.any fun last => decide (o.loadEpoch ≤ last) then (w, none)
    else
      let since := w.quietSince.getD o.loadEpoch
      let w := { w with
        lastLoad := some o.loadEpoch
        quietSince := some since
        values := update w.values w.next value
        next := w.next + 1
        count := min (w.count + 1) 3 }
      if w.count ≠ 3 ∨ o.now - since < policy.minimumQuietSpan then (w, none)
      else (w, medians policy w.values)
  | _, _ => ({ w with quietSince := none, count := 0, next := 0 }, none)

def BaselineWarmup.after (epoch : ℕ) (policy : BaselinePolicy) :
    List BaselineObservation → BaselineWarmup
  | [] => .new epoch
  | o :: history => ((BaselineWarmup.after epoch policy history).observe o policy).1

variable (epoch : ℕ) (policy : BaselinePolicy)

/-- A frame that is quiet and finite, with load data that is recent when it comes. -/
structure BaselineObservation.Sound (o : BaselineObservation) : Prop where
  quiet : o.quiet = true
  finite : o.value.isSome = true
  later : epoch < o.loadEpoch
  present : o.loadEpoch ≤ o.now
  recent : o.now - o.loadEpoch ≤ policy.maximumLoadAge

instance (o : BaselineObservation) : Decidable (o.Sound epoch policy) :=
  decidable_of_iff (o.quiet = true ∧ o.value.isSome = true ∧ epoch < o.loadEpoch ∧
      o.loadEpoch ≤ o.now ∧ o.now - o.loadEpoch ≤ policy.maximumLoadAge)
    ⟨fun ⟨h₁, h₂, h₃, h₄, h₅⟩ => ⟨h₁, h₂, h₃, h₄, h₅⟩,
      fun h => ⟨h.quiet, h.finite, h.later, h.present, h.recent⟩⟩

/-- The frames that are accepted: the sound ones whose counter frame is newer than those of all the
frames accepted before. -/
def accepted : List BaselineObservation → List BaselineObservation
  | [] => []
  | o :: history =>
    if o.Sound epoch policy ∧ ∀ a ∈ accepted history, a.loadEpoch < o.loadEpoch then
      o :: accepted history
    else accepted history

def quietRun : List BaselineObservation → List BaselineObservation
  | [] => []
  | o :: history =>
    if ¬o.Sound epoch policy then []
    else if ∀ a ∈ accepted epoch policy history, a.loadEpoch < o.loadEpoch then
      o :: quietRun history
    else quietRun history

def IsMedian (values : List ℚ) (m : ℚ) : Prop :=
  m ∈ values ∧ 2 ≤ values.countP (· ≤ m) ∧ 2 ≤ values.countP (m ≤ ·)

/-- Three values differ by at most a bound, and their median is `m`. -/
structure Agreement (spread : ℚ) (values : List ℚ) (m : ℚ) : Prop where
  close : ∀ x ∈ values, ∀ y ∈ values, x - y ≤ spread
  median : IsMedian values m

/-- **What proves a baseline**: the newest frame `o` is accepted, it and the two frames `a` and `b`
accepted before it are of one quiet run, the run began long enough ago, and the three agree. -/
def Proves (o : BaselineObservation) (history : List BaselineObservation)
    (baseline : Directions ℚ) : Prop :=
  ∃ a b older rest start x y z, accepted epoch policy (o :: history) = o :: a :: b :: older ∧
    (∀ last ∈ accepted epoch policy history, last.loadEpoch < o.loadEpoch) ∧
    quietRun epoch policy (o :: history) = o :: a :: b :: rest ∧
    (o :: a :: b :: rest).getLast? = some start ∧
    start.loadEpoch + policy.minimumQuietSpan ≤ o.now ∧
    o.value = some x ∧ a.value = some y ∧ b.value = some z ∧
    Agreement policy.maximumSpreadUs.download [x.download, y.download, z.download] baseline.download ∧
    Agreement policy.maximumSpreadUs.upload [x.upload, y.upload, z.upload] baseline.upload

def Timed (history : List BaselineObservation) : Prop := history.Pairwise fun later earlier =>
  earlier.now ≤ later.now

theorem Agreement.perm {spread m : ℚ} {values others : List ℚ} (hperm : values.Perm others)
    (h : Agreement spread values m) : Agreement spread others m := by
  refine ⟨fun x hx y hy => h.close x (hperm.mem_iff.2 hx) y (hperm.mem_iff.2 hy),
    hperm.mem_iff.1 h.median.1, ?_, ?_⟩
  · rw [← hperm.countP_eq]
    exact h.median.2.1
  · rw [← hperm.countP_eq]
    exact h.median.2.2

theorem agree_sorted {spread low middle high m : ℚ} (hlow : low ≤ middle) (hhigh : middle ≤ high) :
    Agreement spread [low, middle, high] m ↔ high - low ≤ spread ∧ m = middle := by
  constructor
  · rintro ⟨hclose, hmem, hbelow, habove⟩
    refine ⟨hclose high (by simp) low (by simp), ?_⟩
    simp only [mem_cons, not_mem_nil, or_false] at hmem
    rcases hmem with rfl | rfl | rfl
    · -- two values are at most the least one
      by_contra hne
      have hlt : m < middle := lt_of_le_of_ne hlow hne
      simp [hlt.not_ge, (hlt.trans_le hhigh).not_ge] at hbelow
    · rfl
    · by_contra hne
      have hlt : middle < m := lt_of_le_of_ne hhigh (Ne.symm hne)
      simp [hlt.not_ge, (hlow.trans_lt hlt).not_ge] at habove
  · rintro ⟨hspread, rfl⟩
    have hmedian : IsMedian [low, m, high] m := by
      refine ⟨by simp, ?_, ?_⟩
      · simp [countP_cons, hlow]
      · simp [countP_cons, hhigh]
    refine ⟨fun x hx y hy => ?_, hmedian⟩
    simp only [mem_cons, not_mem_nil, or_false] at hx hy
    have hxhigh : x ≤ high := by
      rcases hx with rfl | rfl | rfl
      · exact hlow.trans hhigh
      · exact hhigh
      · exact le_refl _
    have hylow : low ≤ y := by
      rcases hy with rfl | rfl | rfl
      · exact le_refl _
      · exact hlow
      · exact hlow.trans hhigh
    exact (sub_le_sub hxhigh hylow).trans hspread

theorem median_iff {spread a b c m : ℚ} :
    median spread a b c = some m ↔ Agreement spread [a, b, c] m := by
  have hperm := perm_insertionSort (· ≤ ·) [a, b, c]
  have hsorted := pairwise_insertionSort (· ≤ ·) [a, b, c]
  have hlength := hperm.length_eq
  unfold median
  generalize [a, b, c].insertionSort (· ≤ ·) = sorted at hperm hsorted hlength
  match sorted, hlength with
  | [low, middle, high], _ =>
    simp only [pairwise_cons, mem_cons, not_mem_nil, or_false, forall_eq_or_imp,
      forall_eq] at hsorted
    have hagree : Agreement spread [a, b, c] m ↔ Agreement spread [low, middle, high] m :=
      ⟨.perm hperm.symm, Agreement.perm hperm⟩
    rw [hagree, agree_sorted hsorted.1.1 hsorted.2.1]
    show (if high - low > spread then none else some middle) = some m ↔ _
    by_cases hspread : high - low ≤ spread
    · rw [if_neg hspread.not_gt, some.injEq]
      exact ⟨fun h => ⟨hspread, h.symm⟩, fun h => h.2.symm⟩
    · rw [if_pos (not_le.1 hspread)]
      exact ⟨nofun, fun h => absurd h.1 hspread⟩

theorem medians_iff {values : Fin 3 → Directions ℚ} {baseline : Directions ℚ} :
    medians policy values = some baseline ↔
      Agreement policy.maximumSpreadUs.download
        [(values 0).download, (values 1).download, (values 2).download] baseline.download ∧
      Agreement policy.maximumSpreadUs.upload
        [(values 0).upload, (values 1).upload, (values 2).upload] baseline.upload := by
  simp only [medians, ← median_iff, bind, bind_eq_some_iff, pure, some.injEq]
  constructor
  · rintro ⟨download, hdownload, upload, hupload, rfl⟩
    exact ⟨hdownload, hupload⟩
  · rintro ⟨hdownload, hupload⟩
    exact ⟨_, hdownload, _, hupload, rfl⟩

variable {epoch : ℕ} {policy : BaselinePolicy} {o : BaselineObservation}
  {history : List BaselineObservation}

/-- **No counter frame is used twice.** -/
theorem accepted_decreasing : ∀ history, (accepted epoch policy history).Pairwise
    fun later earlier => earlier.loadEpoch < later.loadEpoch
  | [] => .nil
  | o :: history => by
      rw [accepted]
      split
      · rename_i h
        exact pairwise_cons.2 ⟨h.2, accepted_decreasing history⟩
      · exact accepted_decreasing history

theorem accepted_newest : (∀ a ∈ accepted epoch policy history, a.loadEpoch < o.loadEpoch) ↔
    ∀ last, (accepted epoch policy history).head?.map (·.loadEpoch) = some last →
      last < o.loadEpoch := by
  have hdecreasing := @accepted_decreasing epoch policy history
  cases haccepted : accepted epoch policy history with
  | nil => simp
  | cons a rest =>
    rw [haccepted] at hdecreasing
    simp only [forall_mem_cons, head?_cons, map_some, some.injEq, forall_eq']
    constructor
    · exact And.left
    · intro ha
      exact ⟨ha, fun b hb => (rel_of_pairwise_cons hdecreasing hb).trans ha⟩

/-- The state after some frames. -/
structure Tracks (epoch : ℕ) (policy : BaselinePolicy) (w : BaselineWarmup)
    (history : List BaselineObservation) : Prop where
  epoch_eq : w.epoch = epoch
  lastLoad : w.lastLoad = (accepted epoch policy history).head?.map (·.loadEpoch)
  quietSince : w.quietSince = (quietRun epoch policy history).getLast?.map (·.loadEpoch)
  count : w.count = min (quietRun epoch policy history).length 3
  /-- Behind the next slot lie the newest values of the run. -/
  ring : ∀ (i : Fin 3) a, (quietRun epoch policy history)[i.val]? = some a →
    a.value = some (w.values (w.next - 1 - i))

theorem tracks_new : Tracks epoch policy (.new epoch) [] := ⟨rfl, rfl, rfl, rfl, nofun⟩

variable {w : BaselineWarmup}

theorem sound_iff (hepoch : w.epoch = epoch) :
    (o.recent w.epoch policy && o.quiet) = true ∧ o.value.isSome = true ↔ o.Sound epoch policy := by
  rw [hepoch]
  simp only [BaselineObservation.recent, Bool.and_eq_true, decide_eq_true_eq]
  constructor
  · rintro ⟨⟨⟨⟨hlater, hpresent⟩, hrecent⟩, hquiet⟩, hfinite⟩
    exact ⟨hquiet, hfinite, hlater, hpresent, hrecent⟩
  · intro h
    exact ⟨⟨⟨⟨h.later, h.present⟩, h.recent⟩, h.quiet⟩, h.finite⟩

theorem observe_unsound (hepoch : w.epoch = epoch) (h : ¬o.Sound epoch policy) :
    w.observe o policy = ({ w with quietSince := none, count := 0, next := 0 }, none) := by
  unfold BaselineWarmup.observe
  rw [← sound_iff hepoch] at h
  split
  · rename_i value hgood hvalue
    exact absurd ⟨hgood, by rw [hvalue]; rfl⟩ h
  · rfl

theorem observe_used (hepoch : w.epoch = epoch) (h : o.Sound epoch policy)
    (hused : (w.lastLoad.any fun last => decide (o.loadEpoch ≤ last)) = true) :
    w.observe o policy = (w, none) := by
  obtain ⟨hgood, hfinite⟩ := (sound_iff hepoch).2 h
  obtain ⟨value, hvalue⟩ := isSome_iff_exists.1 hfinite
  unfold BaselineWarmup.observe
  rw [hgood, hvalue]
  exact if_pos hused

def BaselineWarmup.push (w : BaselineWarmup) (o : BaselineObservation) (value : Directions ℚ) :
    BaselineWarmup :=
  { w with
    lastLoad := some o.loadEpoch
    quietSince := some (w.quietSince.getD o.loadEpoch)
    values := update w.values w.next value
    next := w.next + 1
    count := min (w.count + 1) 3 }

theorem observe_accepted (hepoch : w.epoch = epoch) (h : o.Sound epoch policy)
    (hfresh : (w.lastLoad.any fun last => decide (o.loadEpoch ≤ last)) = false)
    {value : Directions ℚ} (hvalue : o.value = some value) :
    (w.observe o policy).1 = w.push o value ∧ ∀ baseline, (w.observe o policy).2 = some baseline ↔
      (w.push o value).count = 3 ∧
      policy.minimumQuietSpan ≤ o.now - w.quietSince.getD o.loadEpoch ∧
      medians policy (w.push o value).values = some baseline := by
  obtain ⟨hgood, -⟩ := (sound_iff hepoch).2 h
  have hobserve : w.observe o policy = if (w.push o value).count ≠ 3 ∨
      o.now - w.quietSince.getD o.loadEpoch < policy.minimumQuietSpan then (w.push o value, none)
      else (w.push o value, medians policy (w.push o value).values) := by
    unfold BaselineWarmup.observe
    rw [hgood, hvalue]
    show (if _ then _ else _) = _
    rw [if_neg (by rw [hfresh]; exact Bool.false_ne_true)]
    rfl
  rw [hobserve]
  split
  · rename_i hearly
    refine ⟨rfl, fun baseline => ⟨nofun, ?_⟩⟩
    rintro ⟨hcount, hspan, -⟩
    rcases hearly with hfew | hshort
    · exact absurd hcount hfew
    · exact absurd hspan (not_le.2 hshort)
  · rename_i hlate
    rw [not_or, not_not, not_lt] at hlate
    exact ⟨rfl, fun baseline => ⟨fun h => ⟨hlate.1, hlate.2, h⟩, fun h => h.2.2⟩⟩

theorem fresh_iff (h : Tracks epoch policy w history) :
    (w.lastLoad.any fun last => decide (o.loadEpoch ≤ last)) = false ↔
      ∀ a ∈ accepted epoch policy history, a.loadEpoch < o.loadEpoch := by
  rw [accepted_newest, ← h.lastLoad]
  cases w.lastLoad <;> simp

theorem push_ring {value : Directions ℚ} (i : Fin 3) :
    (w.push o value).values ((w.push o value).next - 1 - i) =
      if i = 0 then value else w.values (w.next - 1 - (i - 1)) := by
  have hslots : ∀ next i : Fin 3, (next + 1 - 1 - i = next ↔ i = 0) ∧
      next + 1 - 1 - i = next - 1 - (i - 1) := by
    decide
  obtain ⟨hslot, hbehind⟩ := hslots w.next i
  show update w.values w.next value (w.next + 1 - 1 - i) = _
  by_cases hi : i = 0
  · rw [if_pos hi, hslot.2 hi, update_self]
  · rw [if_neg hi, update_of_ne (fun hsame => hi (hslot.1 hsame)), hbehind]

/-- **A frame is tracked.** -/
theorem observe_tracks (h : Tracks epoch policy w history) :
    Tracks epoch policy (w.observe o policy).1 (o :: history) := by
  by_cases hsound : o.Sound epoch policy
  · cases hused : (w.lastLoad.any fun last => decide (o.loadEpoch ≤ last)) with
    | true =>
      have hold : ¬∀ a ∈ accepted epoch policy history, a.loadEpoch < o.loadEpoch := by
        rw [← fresh_iff h, hused]
        decide
      have haccepted : accepted epoch policy (o :: history) = accepted epoch policy history := by
        rw [accepted, if_neg fun hboth => hold hboth.2]
      have hrun : quietRun epoch policy (o :: history) = quietRun epoch policy history := by
        rw [quietRun, if_neg (not_not.2 hsound), if_neg hold]
      rw [observe_used h.epoch_eq hsound hused]
      exact ⟨h.epoch_eq, haccepted ▸ h.lastLoad, hrun ▸ h.quietSince, hrun ▸ h.count, hrun ▸ h.ring⟩
    | false =>
      obtain ⟨value, hvalue⟩ := isSome_iff_exists.1 hsound.finite
      have hfresh := (fresh_iff h).1 hused
      have hrun : quietRun epoch policy (o :: history) = o :: quietRun epoch policy history := by
        rw [quietRun, if_neg (not_not.2 hsound), if_pos hfresh]
      rw [(observe_accepted h.epoch_eq hsound hused hvalue).1]
      refine ⟨h.epoch_eq, ?_, ?_, ?_, fun i a ha => ?_⟩
      · rw [accepted, if_pos ⟨hsound, hfresh⟩]
        rfl
      · rw [hrun]
        show some (w.quietSince.getD o.loadEpoch) = _
        rw [h.quietSince]
        cases hlast : quietRun epoch policy history with
        | nil => rfl
        | cons a rest =>
          rfl
      · rw [hrun, length_cons]
        show min (w.count + 1) 3 = _
        rw [h.count]
        omega
      · rw [hrun] at ha
        rw [push_ring]
        by_cases hi : i = 0
        · subst hi
          obtain rfl : o = a := some.inj ha
          rw [if_pos rfl, hvalue]
        · rw [if_neg hi]
          refine h.ring (i - 1) a ?_
          have hslots : ∀ i : Fin 3, i ≠ 0 → i.val = (i - 1).val + 1 := by
            decide
          rw [hslots i hi, getElem?_cons_succ] at ha
          exact ha
  · rw [observe_unsound h.epoch_eq hsound]
    have hrun : quietRun epoch policy (o :: history) = [] := by
      rw [quietRun, if_pos hsound]
    refine ⟨h.epoch_eq, ?_, ?_, ?_, ?_⟩
    · rw [accepted, if_neg fun hboth => hsound hboth.1]
      exact h.lastLoad
    · rw [hrun]
      rfl
    · rw [hrun]
      rfl
    · rw [hrun]
      exact nofun

theorem after_tracks (epoch : ℕ) (policy : BaselinePolicy) : ∀ history,
    Tracks epoch policy (.after epoch policy history) history
  | [] => tracks_new
  | _ :: history => observe_tracks (after_tracks epoch policy history)

theorem accepted_sound : ∀ history, ∀ a ∈ accepted epoch policy history, a.Sound epoch policy
  | [], _, ha => absurd ha not_mem_nil
  | o :: history, a, ha => by
      rw [accepted] at ha
      split at ha
      · rename_i h
        rcases mem_cons.1 ha with rfl | ha
        · exact h.1
        · exact accepted_sound history a ha
      · exact accepted_sound history a ha

theorem quietRun_accepted : ∀ history,
    ∃ older, accepted epoch policy history = quietRun epoch policy history ++ older
  | [] => ⟨[], rfl⟩
  | o :: history => by
      obtain ⟨older, holder⟩ := quietRun_accepted history
      by_cases hsound : o.Sound epoch policy
      · by_cases hfresh : ∀ a ∈ accepted epoch policy history, a.loadEpoch < o.loadEpoch
        · refine ⟨older, ?_⟩
          rw [accepted, if_pos ⟨hsound, hfresh⟩, quietRun, if_neg (not_not.2 hsound), if_pos hfresh,
            holder]
          rfl
        · refine ⟨older, ?_⟩
          rw [accepted, if_neg fun hboth => hfresh hboth.2, quietRun, if_neg (not_not.2 hsound),
            if_neg hfresh, holder]
      · refine ⟨accepted epoch policy (o :: history), ?_⟩
        rw [quietRun, if_pos hsound]
        rfl

theorem quietRun_mem {history : List BaselineObservation} {a : BaselineObservation}
    (ha : a ∈ quietRun epoch policy history) : a ∈ history ∧ a.Sound epoch policy := by
  constructor
  · induction history with
    | nil => exact ha
    | cons o history ih =>
      rw [quietRun] at ha
      split at ha
      · cases ha
      · split at ha
        · rcases mem_cons.1 ha with rfl | ha
          · exact mem_cons_self
          · exact mem_cons_of_mem _ (ih ha)
        · exact mem_cons_of_mem _ (ih ha)
  · obtain ⟨older, holder⟩ := @quietRun_accepted epoch policy history
    exact accepted_sound history a (holder ▸ mem_append_left _ ha)

theorem ring_perm (values : Fin 3 → Directions ℚ) (next : Fin 3) (f : Directions ℚ → ℚ) :
    [f (values (next - 1 - 0)), f (values (next - 1 - 1)), f (values (next - 1 - 2))].Perm
      [f (values 0), f (values 1), f (values 2)] := by
  have hslots : ∀ next : Fin 3, [next - 1 - 0, next - 1 - 1, next - 1 - 2].Perm [0, 1, 2] := by
    decide
  exact (hslots next).map fun slot => f (values slot)

theorem ring_medians (h : Tracks epoch policy w history) {a b c : BaselineObservation}
    {rest : List BaselineObservation} {x y z : Directions ℚ}
    (hrun : quietRun epoch policy history = a :: b :: c :: rest) (hx : a.value = some x)
    (hy : b.value = some y) (hz : c.value = some z) {baseline : Directions ℚ} :
    medians policy w.values = some baseline ↔
      Agreement policy.maximumSpreadUs.download [x.download, y.download, z.download] baseline.download ∧
      Agreement policy.maximumSpreadUs.upload [x.upload, y.upload, z.upload] baseline.upload := by
  have hring := h.ring
  rw [hrun] at hring
  have ha := hring 0 a rfl
  have hb := hring 1 b rfl
  have hc := hring 2 c rfl
  rw [hx, some.injEq] at ha
  rw [hy, some.injEq] at hb
  rw [hz, some.injEq] at hc
  have hdownload := ring_perm w.values w.next (·.download)
  have hupload := ring_perm w.values w.next (·.upload)
  rw [← ha, ← hb, ← hc] at hdownload hupload
  rw [medians_iff]
  constructor
  · rintro ⟨hd, hu⟩
    exact ⟨hd.perm hdownload.symm, hu.perm hupload.symm⟩
  · rintro ⟨hd, hu⟩
    exact ⟨hd.perm hdownload, hu.perm hupload⟩

/-- **A baseline is learned from a quiet period, and only from one.**  For frames whose times do not
decrease, the newest gives a baseline exactly if they prove it. -/
theorem baseline_learned (epoch : ℕ) (policy : BaselinePolicy) (o : BaselineObservation)
    (history : List BaselineObservation) (htimed : Timed (o :: history)) :
    (∀ baseline, ((BaselineWarmup.after epoch policy history).observe o policy).2 = some baseline ↔
      Proves epoch policy o history baseline) ∧
    (∀ a ∈ accepted epoch policy (o :: history), a.Sound epoch policy) ∧
    (accepted epoch policy (o :: history)).Pairwise
      fun later earlier => earlier.loadEpoch < later.loadEpoch := by
  refine ⟨fun baseline => ?_, accepted_sound _, accepted_decreasing _⟩
  have h := after_tracks epoch policy history
  generalize BaselineWarmup.after epoch policy history = w at h
  have hnext := observe_tracks (o := o) h
  by_cases hsound : o.Sound epoch policy
  swap
  · rw [observe_unsound h.epoch_eq hsound]
    refine ⟨nofun, ?_⟩
    rintro ⟨a, b, older, rest, start, x, y, z, -, -, hrun, -⟩
    rw [quietRun, if_pos hsound] at hrun
    cases hrun
  cases hused : (w.lastLoad.any fun last => decide (o.loadEpoch ≤ last)) with
  | true =>
    rw [observe_used h.epoch_eq hsound hused]
    refine ⟨nofun, ?_⟩
    rintro ⟨a, b, older, rest, start, x, y, z, -, hfresh, -⟩
    rw [(fresh_iff h).2 hfresh] at hused
    cases hused
  | false =>
    obtain ⟨value, hvalue⟩ := isSome_iff_exists.1 hsound.finite
    have hfresh := (fresh_iff h).1 hused
    obtain ⟨hstate, hanswer⟩ := observe_accepted h.epoch_eq hsound hused hvalue
    rw [hstate] at hnext
    rw [hanswer]
    have hsince : ∀ {rest start}, quietRun epoch policy (o :: history) = o :: rest →
        (o :: rest).getLast? = some start → w.quietSince.getD o.loadEpoch = start.loadEpoch := by
      intro rest start hrun hstart
      have hquiet := hnext.quietSince
      rw [hrun, hstart] at hquiet
      exact some.inj hquiet
    constructor
    · rintro ⟨hcount, hspan, hmedians⟩
      rw [hnext.count] at hcount
      have hlength : 3 ≤ (quietRun epoch policy (o :: history)).length := by omega
      have hhead : quietRun epoch policy (o :: history) = o :: quietRun epoch policy history := by
        rw [quietRun, if_neg (not_not.2 hsound), if_pos hfresh]
      rw [hhead, length_cons] at hlength
      match hrest : quietRun epoch policy history, hlength with
      | a :: b :: rest, _ =>
        rw [hrest] at hhead
        obtain ⟨older, holder⟩ := @quietRun_accepted epoch policy (o :: history)
        rw [hhead] at holder
        have hin : ∀ f ∈ a :: b :: rest, f ∈ history ∧ f.Sound epoch policy := by
          rw [← hrest]
          exact fun f => quietRun_mem
        obtain ⟨y, hy⟩ := isSome_iff_exists.1 (hin a (by simp)).2.finite
        obtain ⟨z, hz⟩ := isSome_iff_exists.1 (hin b (by simp)).2.finite
        have hlast : (o :: a :: b :: rest).getLast? =
            some ((o :: a :: b :: rest).getLast (cons_ne_nil _ _)) :=
          getLast?_eq_some_getLast _
        generalize (o :: a :: b :: rest).getLast (cons_ne_nil _ _) = start at hlast
        rw [hsince hhead hlast] at hspan
        -- the run began before the newest frame came
        have hbefore : start.loadEpoch ≤ o.now := by
          rcases mem_cons.1 (mem_of_getLast? hlast) with rfl | hmem
          · exact hsound.present
          · obtain ⟨hhistory, hstart⟩ := hin start hmem
            exact hstart.present.trans (rel_of_pairwise_cons htimed hhistory)
        refine ⟨a, b, rest ++ older, rest, start, value, y, z, holder, hfresh, hhead, hlast, ?_,
          hvalue, hy, hz, (ring_medians hnext hhead hvalue hy hz).1 hmedians⟩
        omega
    · rintro ⟨a, b, older, rest, start, x, y, z, -, -, hrun, hstart, hspan, hx, hy, hz, hagree⟩
      refine ⟨?_, ?_, (ring_medians hnext hrun hx hy hz).2 hagree⟩
      · rw [hnext.count, hrun]
        simp
      · rw [hsince hrun hstart]
        omega

def quietFrame (load : ℕ) (us : ℚ) : BaselineObservation := ⟨⟨some us, some us⟩, load, load, true⟩

theorem quietFrames_learned :
    Proves 0 ⟨200, 600, ⟨10000, 10000⟩⟩ (quietFrame 700 299000)
      [quietFrame 400 301000, quietFrame 100 300000] ⟨300000, 300000⟩ :=
  ((baseline_learned 0 ⟨200, 600, ⟨10000, 10000⟩⟩ (quietFrame 700 299000)
    [quietFrame 400 301000, quietFrame 100 300000] (by simp [Timed, quietFrame])).1 _).1
    (by decide +kernel)

end CakeAutorate.Controller
