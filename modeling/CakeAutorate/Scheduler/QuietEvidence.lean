/-
# Evidence of a quiet link

`QuietEvidence` of `operations/scheduler_runtime.rs`: the snapshots that the rating publishes, read on
every wake of the coordinator, become evidence that the link was quiet for a window.  Rates are
rationals where the source has floats, absent where the float is not finite; a time is a `u64`.

The evidence is a function of all the snapshots that were read, newest first here.  One is regressed
if its time lies before that of the snapshot read before it: it is dropped, and the next one is not
compared with it.
-/

import Mathlib.Algebra.Order.Ring.Rat
import Mathlib.Data.List.Chain

namespace CakeAutorate.Scheduler

open List Option

def schedulerRuntimeFreshnessMs : ℕ := 5000

/-- `RatingRuntimeSnapshot`, what the evidence reads of it. -/
structure RatingSnapshot where
  updatedUnixMs : ℕ
  runtimeGeneration : ℕ
  dlAchievedKbps : Option ℚ
  ulAchievedKbps : Option ℚ
  updated_lt : updatedUnixMs < 2 ^ 64

/-- `QuietEvidence::observe`, the combined rate. -/
def RatingSnapshot.rate (s : RatingSnapshot) : Option ℚ := do
  let download ← s.dlAchievedKbps
  let upload ← s.ulAchievedKbps
  return download + upload

/-- `QuietEvidence::observe`, whether a snapshot is eligible. -/
def RatingSnapshot.eligible (threshold : ℕ) (s : RatingSnapshot) : Bool :=
  s.runtimeGeneration != 0 && s.updatedUnixMs != 0
    && s.rate.any fun rate => decide (0 ≤ rate) && decide (rate ≤ (threshold : ℚ))

structure QuietEvidence where
  runtimeGeneration : Option ℕ := none
  firstSnapshotUnixMs : Option ℕ := none
  lastSnapshotUnixMs : Option ℕ := none

namespace QuietEvidence

def start (s : RatingSnapshot) : QuietEvidence :=
  ⟨some s.runtimeGeneration, some s.updatedUnixMs, some s.updatedUnixMs⟩

/-- `saturating_mul`. -/
def requiredMs (windowS : ℕ) : ℕ := min (windowS * 1000) (2 ^ 64 - 1)

/-- `QuietEvidence::observe`, whether the window is long enough. -/
def spans (q : QuietEvidence) (s : RatingSnapshot) (windowS : ℕ) : Bool :=
  q.firstSnapshotUnixMs.any fun first => decide (requiredMs windowS ≤ s.updatedUnixMs - first)

def observe (q : QuietEvidence) (s : RatingSnapshot) (threshold windowS : ℕ) :
    QuietEvidence × Bool :=
  if s.eligible threshold = false ∨ q.runtimeGeneration ≠ some s.runtimeGeneration then
    (if s.eligible threshold then start s else {}, false)
  else if q.lastSnapshotUnixMs.any fun last => decide (s.updatedUnixMs < last) then
    -- joined to neither side of the interval: the next snapshot starts a new one
    ({}, false)
  else if q.lastSnapshotUnixMs.any fun last =>
      decide (schedulerRuntimeFreshnessMs < s.updatedUnixMs - last) then
    (start s, false)
  else if q.lastSnapshotUnixMs.any fun last => decide (s.updatedUnixMs = last) then
    (q, q.spans s windowS)
  else ({ q with lastSnapshotUnixMs := some s.updatedUnixMs }, q.spans s windowS)

def after (threshold windowS : ℕ) : List RatingSnapshot → QuietEvidence
  | [] => {}
  | s :: earlier => ((after threshold windowS earlier).observe s threshold windowS).1

def answer (threshold windowS : ℕ) (s : RatingSnapshot) (earlier : List RatingSnapshot) : Bool :=
  ((after threshold windowS earlier).observe s threshold windowS).2

end QuietEvidence

/-- **A snapshot is regressed**: eligible, of the generation of the one read before it, which is
eligible and not regressed, and of an earlier time. -/
def Regressed (threshold : ℕ) : RatingSnapshot → List RatingSnapshot → Prop
  | _, [] => False
  | s, p :: earlier => s.eligible threshold = true ∧ p.eligible threshold = true ∧
      ¬Regressed threshold p earlier ∧ s.runtimeGeneration = p.runtimeGeneration ∧
      s.updatedUnixMs < p.updatedUnixMs

instance (threshold : ℕ) : ∀ s earlier, Decidable (Regressed threshold s earlier)
  | _, [] => inferInstanceAs (Decidable False)
  | s, p :: earlier =>
    have := instDecidableRegressed threshold p earlier
    inferInstanceAs (Decidable (s.eligible threshold = true ∧ p.eligible threshold = true ∧
      ¬Regressed threshold p earlier ∧ s.runtimeGeneration = p.runtimeGeneration ∧
      s.updatedUnixMs < p.updatedUnixMs))

/-- A snapshot continues the one before it. -/
structure Continues (later earlier : RatingSnapshot) : Prop where
  generation : later.runtimeGeneration = earlier.runtimeGeneration
  ordered : earlier.updatedUnixMs ≤ later.updatedUnixMs
  fresh : later.updatedUnixMs - earlier.updatedUnixMs ≤ schedulerRuntimeFreshnessMs

def QuietRun (threshold : ℕ) : List RatingSnapshot → List RatingSnapshot → Prop
  | [], _ => True
  | s :: run, before => s.eligible threshold = true ∧ ¬Regressed threshold s (run ++ before) ∧
      (∀ p ∈ run.head?, Continues s p) ∧ QuietRun threshold run before

/-- **The snapshots end in a quiet run that spans the window.** -/
def Quiet (threshold windowS : ℕ) (history : List RatingSnapshot) : Prop :=
  ∃ run before newest oldest, history = run ++ before ∧ QuietRun threshold run before ∧
    run.head? = some newest ∧ run.getLast? = some oldest ∧
    oldest.updatedUnixMs + windowS * 1000 ≤ newest.updatedUnixMs

variable {threshold windowS : ℕ} {s : RatingSnapshot} {history : List RatingSnapshot}

instance (later earlier : RatingSnapshot) : Decidable (Continues later earlier) :=
  decidable_of_iff (later.runtimeGeneration = earlier.runtimeGeneration ∧
      earlier.updatedUnixMs ≤ later.updatedUnixMs ∧
      later.updatedUnixMs - earlier.updatedUnixMs ≤ schedulerRuntimeFreshnessMs)
    ⟨fun ⟨h₁, h₂, h₃⟩ => ⟨h₁, h₂, h₃⟩, fun h => ⟨h.generation, h.ordered, h.fresh⟩⟩

def longest (threshold : ℕ) : List RatingSnapshot → List RatingSnapshot
  | [] => []
  | s :: earlier =>
    if s.eligible threshold = true ∧ ¬Regressed threshold s earlier then
      s :: if ∀ p ∈ (longest threshold earlier).head?, Continues s p then longest threshold earlier
        else []
    else []

theorem longest_head : (longest threshold history).head? = history.head?.filter fun s =>
    s.eligible threshold && !decide (Regressed threshold s history.tail) := by
  cases history with
  | nil => rfl
  | cons s earlier =>
    rw [longest]
    by_cases hs : s.eligible threshold = true ∧ ¬Regressed threshold s earlier
    · rw [if_pos hs]
      simp [Option.filter, hs]
    · rw [if_neg hs]
      by_cases heligible : s.eligible threshold = true
      · have hregressed : Regressed threshold s earlier := by
          by_contra hnot
          exact hs ⟨heligible, hnot⟩
        simp [Option.filter, hregressed]
      · simp [Option.filter, heligible]

theorem regressed_iff : Regressed threshold s history ↔ s.eligible threshold = true ∧
    ∃ p ∈ (longest threshold history).head?, s.runtimeGeneration = p.runtimeGeneration ∧
      s.updatedUnixMs < p.updatedUnixMs := by
  rw [longest_head]
  cases history with
  | nil => simp [Regressed]
  | cons p earlier =>
    simp only [Regressed, head?_cons, tail_cons, mem_def, filter_eq_some_iff,
      some.injEq, Bool.and_eq_true, Bool.not_eq_true']
    constructor
    · rintro ⟨hs, hp, hnot, hgeneration, hlt⟩
      exact ⟨hs, p, ⟨rfl, hp, decide_eq_false hnot⟩, hgeneration, hlt⟩
    · rintro ⟨hs, _, ⟨rfl, hp, hnot⟩, hgeneration, hlt⟩
      exact ⟨hs, hp, of_decide_eq_false hnot, hgeneration, hlt⟩

theorem longest_quiet : ∀ history, ∃ before, history = longest threshold history ++ before ∧
    QuietRun threshold (longest threshold history) before
  | [] => ⟨[], rfl, trivial⟩
  | s :: earlier => by
      obtain ⟨before, hbefore, hquiet⟩ := longest_quiet earlier
      rw [longest]
      split
      · rename_i hs
        split
        · rename_i hcontinues
          exact ⟨before, congrArg (s :: ·) hbefore, hs.1, hbefore ▸ hs.2, hcontinues, hquiet⟩
        · exact ⟨earlier, rfl, hs.1, hs.2, nofun, trivial⟩
      · exact ⟨s :: earlier, rfl, trivial⟩

variable {run before : List RatingSnapshot}

section

variable (h : QuietRun threshold run before)
include h

theorem QuietRun.le_longest : ∃ more, longest threshold (run ++ before) = run ++ more := by
  induction run with
  | nil => exact ⟨_, rfl⟩
  | cons s run ih =>
    obtain ⟨heligible, hnot, hcontinues, hrun⟩ := h
    obtain ⟨more, hmore⟩ := ih hrun
    rw [cons_append, longest, if_pos ⟨heligible, hnot⟩]
    cases run with
    | nil => exact ⟨_, rfl⟩
    | cons p rest =>
      have hhead : ∀ q ∈ (p :: rest ++ more).head?, Continues s q := hcontinues
      exact ⟨more, by rw [hmore, if_pos hhead]; rfl⟩

theorem QuietRun.oldest_le {oldest : RatingSnapshot} (holdest : run.getLast? = some oldest) :
    ∀ s ∈ run, oldest.updatedUnixMs ≤ s.updatedUnixMs := by
  induction run with
  | nil => exact nofun
  | cons s run ih =>
    obtain ⟨-, -, hcontinues, hrun⟩ := h
    cases run with
    | nil =>
      obtain rfl : s = oldest := by simpa using holdest
      intro a ha
      rw [mem_singleton.1 ha]
    | cons p rest =>
      have hrest := ih hrun holdest
      intro a ha
      rcases mem_cons.1 ha with rfl | ha
      · exact (hrest p mem_cons_self).trans (hcontinues p rfl).ordered
      · exact hrest a ha

theorem QuietRun.eligible : ∀ s ∈ run, s.eligible threshold = true := by
  induction run with
  | nil => exact nofun
  | cons s run ih =>
    intro a ha
    rcases mem_cons.1 ha with rfl | ha
    · exact h.1
    · exact ih h.2.2.2 a ha

end

/-- **The window is spanned exactly if the longest quiet run spans it.** -/
theorem quiet_iff : Quiet threshold windowS history ↔ ∃ newest oldest,
    (longest threshold history).head? = some newest ∧
    (longest threshold history).getLast? = some oldest ∧
    oldest.updatedUnixMs + windowS * 1000 ≤ newest.updatedUnixMs := by
  constructor
  · rintro ⟨run, before, newest, oldest, rfl, hquiet, hnewest, holdest, hspan⟩
    obtain ⟨more, hmore⟩ := hquiet.le_longest
    obtain ⟨before', hbefore', hlongest⟩ := @longest_quiet threshold (run ++ before)
    rw [hmore] at hlongest ⊢
    cases run with
    | nil => cases hnewest
    | cons s rest =>
      have hlast : (s :: rest ++ more).getLast? =
          some ((s :: rest ++ more).getLast (cons_ne_nil _ _)) :=
        getLast?_eq_some_getLast _
      refine ⟨newest, _, hnewest, hlast, ?_⟩
      have hle := hlongest.oldest_le hlast oldest (mem_append_left _ (mem_of_getLast? holdest))
      omega
  · rintro ⟨newest, oldest, hnewest, holdest, hspan⟩
    obtain ⟨before, hbefore, hquiet⟩ := @longest_quiet threshold history
    exact ⟨_, before, newest, oldest, hbefore, hquiet, hnewest, holdest, hspan⟩

/-- The evidence of the longest quiet run. -/
structure Tracks (threshold : ℕ) (q : QuietEvidence) (history : List RatingSnapshot) : Prop where
  generation : q.runtimeGeneration = (longest threshold history).head?.map (·.runtimeGeneration)
  first : q.firstSnapshotUnixMs = (longest threshold history).getLast?.map (·.updatedUnixMs)
  last : q.lastSnapshotUnixMs = (longest threshold history).head?.map (·.updatedUnixMs)

theorem tracks_of_nil {history : List RatingSnapshot} (h : longest threshold history = []) :
    Tracks threshold {} history := by
  refine ⟨?_, ?_, ?_⟩ <;> rw [h] <;> rfl

theorem tracks_start {history : List RatingSnapshot} (h : longest threshold history = [s]) :
    Tracks threshold (.start s) history := by
  refine ⟨?_, ?_, ?_⟩ <;> rw [h] <;> rfl

variable {q : QuietEvidence}

section

variable (h : Tracks threshold q history)
include h

theorem observe_continues (hs : s.eligible threshold = true) {p : RatingSnapshot}
    {rest : List RatingSnapshot} (hp : longest threshold history = p :: rest)
    (hcontinues : Continues s p) :
    longest threshold (s :: history) = s :: p :: rest ∧
    q.observe s threshold windowS =
      ({ q with lastSnapshotUnixMs := some s.updatedUnixMs }, q.spans s windowS) := by
  have hgeneration : q.runtimeGeneration = some s.runtimeGeneration := by
    rw [h.generation, hp, hcontinues.generation]
    rfl
  have hlast : q.lastSnapshotUnixMs = some p.updatedUnixMs := by
    rw [h.last, hp]
    rfl
  have hnot : ¬Regressed threshold s history := by
    rw [regressed_iff, hp]
    rintro ⟨-, _, hhead, -, hlt⟩
    cases hhead
    exact absurd hcontinues.ordered (not_le.2 hlt)
  constructor
  · rw [longest, if_pos ⟨hs, hnot⟩, hp, if_pos]
    intro _ hhead
    cases hhead
    exact hcontinues
  · have hordered := hcontinues.ordered
    have hfresh := hcontinues.fresh
    unfold QuietEvidence.observe
    rw [if_neg (by rw [not_or, not_not, Bool.not_eq_false]; exact ⟨hs, hgeneration⟩), hlast]
    simp only [any_some, decide_eq_true_eq, if_neg (not_lt.2 hordered), if_neg (not_lt.2 hfresh)]
    split
    · rename_i hsame
      rw [hsame, ← hlast]
    · rfl

theorem observe_otherwise
    (hother : ¬(s.eligible threshold = true ∧ ∃ p ∈ (longest threshold history).head?, Continues s p)) :
    Tracks threshold (q.observe s threshold windowS).1 (s :: history) ∧
      (q.observe s threshold windowS).2 = false ∧
      ∀ p rest, longest threshold (s :: history) = s :: p :: rest → False := by
  by_cases hs : s.eligible threshold = true
  swap
  · have hnil : longest threshold (s :: history) = [] := by
      rw [longest, if_neg fun hboth => hs hboth.1]
    have hobserve : q.observe s threshold windowS = ({}, false) := by
      unfold QuietEvidence.observe
      rw [Bool.not_eq_true] at hs
      rw [if_pos (.inl hs), hs]
      rfl
    rw [hobserve, hnil]
    exact ⟨tracks_of_nil hnil, rfl, nofun⟩
  have hbroken : ∀ p ∈ (longest threshold history).head?, ¬Continues s p :=
    fun p hp hcontinues => hother ⟨hs, p, hp, hcontinues⟩
  by_cases hregressed : Regressed threshold s history
  · -- dropped: the evidence is given up with the run
    have hnil : longest threshold (s :: history) = [] := by
      rw [longest, if_neg fun hboth => hboth.2 hregressed]
    obtain ⟨-, p, hp, hgeneration, hlt⟩ := regressed_iff.1 hregressed
    have hobserve : q.observe s threshold windowS = ({}, false) := by
      unfold QuietEvidence.observe
      rw [if_neg (by
        rw [not_or, not_not, Bool.not_eq_false, h.generation, hp, hgeneration]
        exact ⟨hs, rfl⟩), h.last, hp]
      exact if_pos (decide_eq_true hlt)
    rw [hobserve, hnil]
    exact ⟨tracks_of_nil hnil, rfl, nofun⟩
  · have hone : longest threshold (s :: history) = [s] := by
      rw [longest, if_pos ⟨hs, hregressed⟩]
      cases hrun : longest threshold history with
      | nil =>
        split <;> rfl
      | cons p rest =>
        rw [if_neg]
        intro hall
        exact hbroken p (by rw [hrun]; rfl) (hall p rfl)
    have hobserve : q.observe s threshold windowS = (.start s, false) := by
      unfold QuietEvidence.observe
      split
      · rfl
      rename_i hhead
      rw [not_or, not_not, Bool.not_eq_false, h.generation] at hhead
      obtain ⟨p, hp, hgeneration⟩ := map_eq_some_iff.1 hhead.2
      have hordered : p.updatedUnixMs ≤ s.updatedUnixMs := by
        rw [regressed_iff] at hregressed
        by_contra hlt
        exact hregressed ⟨hs, p, hp, hgeneration.symm, not_le.1 hlt⟩
      have hstale : schedulerRuntimeFreshnessMs < s.updatedUnixMs - p.updatedUnixMs := by
        by_contra hfresh
        exact hbroken p hp ⟨hgeneration.symm, hordered, not_lt.1 hfresh⟩
      rw [h.last, hp]
      simp [hstale, hordered]
    rw [hobserve, hone]
    exact ⟨tracks_start hone, rfl, nofun⟩

theorem observe_tracks : Tracks threshold (q.observe s threshold windowS).1 (s :: history) := by
  by_cases hcontinues : s.eligible threshold = true ∧
      ∃ p ∈ (longest threshold history).head?, Continues s p
  · obtain ⟨hs, p, hp, hcontinues⟩ := hcontinues
    cases hrun : longest threshold history with
    | nil =>
      rw [hrun] at hp
      cases hp
    | cons a rest =>
      rw [hrun] at hp
      cases hp
      obtain ⟨hlongest, hobserve⟩ := @observe_continues _ windowS _ _ _ h hs _ _ hrun hcontinues
      rw [hobserve]
      refine ⟨?_, ?_, ?_⟩
      · rw [hlongest]
        rw [h.generation, hrun, head?_cons, map_some, ← hcontinues.generation]
        rfl
      · rw [hlongest, getLast?_cons_cons, ← hrun]
        exact h.first
      · rw [hlongest]
        rfl
  · exact (observe_otherwise h hcontinues).1

end

theorem after_tracks (threshold windowS : ℕ) : ∀ history,
    Tracks threshold (.after threshold windowS history) history
  | [] => tracks_of_nil rfl
  | _ :: history => observe_tracks (after_tracks threshold windowS history)

theorem eligible_time (h : s.eligible threshold = true) : s.updatedUnixMs ≠ 0 := by
  simp only [RatingSnapshot.eligible, Bool.and_eq_true, bne_iff_ne] at h
  exact h.1.2

/-- **A snapshot is answered by the run that it ends.** -/
theorem answer_iff (hwindow : 0 < windowS) : QuietEvidence.answer threshold windowS s history = true ↔
    Quiet threshold windowS (s :: history) := by
  have h := after_tracks threshold windowS history
  unfold QuietEvidence.answer
  generalize QuietEvidence.after threshold windowS history = q at h
  rw [quiet_iff]
  by_cases hcontinues : s.eligible threshold = true ∧
      ∃ p ∈ (longest threshold history).head?, Continues s p
  · obtain ⟨hs, p, hp, hcontinues⟩ := hcontinues
    cases hrun : longest threshold history with
    | nil =>
      rw [hrun] at hp
      cases hp
    | cons a rest =>
      rw [hrun] at hp
      obtain rfl := some.inj hp
      obtain ⟨hlongest, hobserve⟩ := @observe_continues _ windowS _ _ _ h hs _ _ hrun hcontinues
      have hlast : (a :: rest).getLast? = some ((a :: rest).getLast (cons_ne_nil _ _)) :=
        getLast?_eq_some_getLast _
      generalize (a :: rest).getLast (cons_ne_nil _ _) = oldest at hlast
      have hfirst : q.firstSnapshotUnixMs = some oldest.updatedUnixMs := by
        rw [h.first, hrun, hlast]
        rfl
      -- the times of the run lie between its oldest and the newest
      obtain ⟨before, hbefore, hquiet⟩ := @longest_quiet threshold (s :: history)
      rw [hlongest] at hquiet
      have holdest : (s :: a :: rest).getLast? = some oldest := by
        exact hlast
      have hpositive := eligible_time (hquiet.eligible oldest (mem_of_getLast? holdest))
      have hbound := s.updated_lt
      have hspans : q.spans s windowS = true ↔
          oldest.updatedUnixMs + windowS * 1000 ≤ s.updatedUnixMs := by
        rw [QuietEvidence.spans, hfirst, any_some, decide_eq_true_eq, QuietEvidence.requiredMs]
        omega
      rw [hobserve, hlongest, holdest]
      constructor
      · intro htrue
        exact ⟨s, oldest, rfl, rfl, hspans.1 htrue⟩
      · rintro ⟨newest, _, hnewest, hsame, hspan⟩
        cases hnewest
        cases hsame
        exact hspans.2 hspan
  · obtain ⟨htracks, hfalse, hshort⟩ := @observe_otherwise _ windowS _ _ _ h hcontinues
    rw [hfalse]
    refine ⟨nofun, ?_⟩
    rintro ⟨newest, oldest, hnewest, holdest, hspan⟩
    -- a run of one snapshot spans nothing
    match hlongest : longest threshold (s :: history) with
    | [] =>
      rw [hlongest] at hnewest
      cases hnewest
    | [a] =>
      rw [hlongest] at hnewest holdest
      obtain rfl : a = newest := by simpa using hnewest
      obtain rfl : a = oldest := by simpa using holdest
      omega
    | a :: b :: rest =>
      have ha : a = s := by
        rw [longest] at hlongest
        split at hlongest
        · exact (cons.inj hlongest).1.symm
        · cases hlongest
      exact (hshort b rest (ha ▸ hlongest)).elim

/-- **A snapshot that is read again changes nothing**, unless it was dropped. -/
theorem after_reread : QuietEvidence.after threshold windowS (s :: s :: history) =
    QuietEvidence.after threshold windowS (s :: history) ↔ ¬Regressed threshold s history := by
  have h := after_tracks threshold windowS (s :: history)
  show ((QuietEvidence.after threshold windowS (s :: history)).observe s threshold windowS).1 = _ ↔ _
  generalize QuietEvidence.after threshold windowS (s :: history) = q at h
  by_cases hs : s.eligible threshold = true
  · by_cases hregressed : Regressed threshold s history
    · -- it starts a window the second time
      have hnil : longest threshold (s :: history) = [] := by
        rw [longest, if_neg fun hboth => hboth.2 hregressed]
      have hfirst := h.first
      have hgeneration := h.generation
      rw [hnil] at hfirst hgeneration
      have hobserve : q.observe s threshold windowS = (.start s, false) := by
        unfold QuietEvidence.observe
        rw [if_pos (.inr (by rw [hgeneration]; nofun)), if_pos hs]
      rw [hobserve]
      refine ⟨fun hsame => ?_, fun hnot => absurd hregressed hnot⟩
      rw [← hsame] at hfirst
      cases hfirst
    · refine ⟨fun _ => hregressed, fun _ => ?_⟩
      have hself : Continues s s := ⟨rfl, le_refl _, by rw [Nat.sub_self]; exact Nat.zero_le _⟩
      have hrun : ∃ rest, longest threshold (s :: history) = s :: rest := by
        rw [longest, if_pos ⟨hs, hregressed⟩]
        exact ⟨_, rfl⟩
      obtain ⟨rest, hrest⟩ := hrun
      rw [(observe_continues h hs hrest hself).2]
      have hlast := h.last
      rw [hrest] at hlast
      exact congrArg _ hlast.symm
  · refine ⟨fun _ hregressed => hs (regressed_iff.1 hregressed).1, fun _ => ?_⟩
    have hnil : longest threshold (s :: history) = [] := by
      rw [longest, if_neg fun hboth => hs hboth.1]
    have hfirst := h.first
    have hgeneration := h.generation
    have hlast := h.last
    rw [hnil] at hfirst hgeneration hlast
    unfold QuietEvidence.observe
    rw [Bool.not_eq_true] at hs
    rw [if_pos (.inl hs), hs]
    cases q
    cases hfirst
    cases hgeneration
    cases hlast
    rfl

theorem after_append {later other : List RatingSnapshot}
    (h : QuietEvidence.after threshold windowS history = .after threshold windowS other) :
    QuietEvidence.after threshold windowS (later ++ history) =
      .after threshold windowS (later ++ other) := by
  induction later with
  | nil => exact h
  | cons x later ih =>
    show ((QuietEvidence.after threshold windowS (later ++ history)).observe x threshold windowS).1 = _
    rw [ih]
    rfl

def snapshotsAt (times : List (Fin 60000)) : List RatingSnapshot :=
  times.map fun time => ⟨time.val, 7, some 100, some 0, time.isLt.trans (by omega)⟩

/-- **What the evidence says.**  Every snapshot is answered by the quiet run that it ends; and
reading a snapshot again leaves the evidence as it was exactly if the snapshot is not regressed. -/
theorem quiet_evidence (threshold windowS : ℕ) (hwindow : 0 < windowS) (s : RatingSnapshot)
    (history : List RatingSnapshot) :
    (QuietEvidence.answer threshold windowS s history = true ↔ Quiet threshold windowS (s :: history)) ∧
    ((∀ n, QuietEvidence.after threshold windowS (List.replicate n s ++ s :: history) =
      .after threshold windowS (s :: history)) ↔ ¬Regressed threshold s history) ∧
    (¬Regressed threshold s history → ∀ n later x,
      QuietEvidence.answer threshold windowS x (later ++ (List.replicate n s ++ s :: history)) =
        QuietEvidence.answer threshold windowS x (later ++ s :: history)) := by
  have hreread : ¬Regressed threshold s history → ∀ n,
      QuietEvidence.after threshold windowS (List.replicate n s ++ s :: history) =
        .after threshold windowS (s :: history) := by
    intro hnot n
    induction n with
    | zero => rfl
    | succ n ih =>
      have hstep := @after_append _ _ _ [s] _ ih
      rw [replicate_succ]
      exact hstep.trans (after_reread.2 hnot)
  refine ⟨answer_iff hwindow, ⟨fun hall => after_reread.1 (hall 1), hreread⟩, fun hnot n later x => ?_⟩
  unfold QuietEvidence.answer
  rw [after_append (hreread hnot n)]

theorem quiet_halfMinute : QuietEvidence.answer 2000 30 ⟨32000, 7, some 100, some 0, by omega⟩
    (snapshotsAt [27000, 22000, 17000, 12000, 7000, 2000]) = true :=
  (quiet_evidence 2000 30 (by decide) ⟨32000, 7, some 100, some 0, by omega⟩
    (snapshotsAt [27000, 22000, 17000, 12000, 7000, 2000])).1.2
    ⟨⟨32000, 7, some 100, some 0, by omega⟩ ::
      snapshotsAt [27000, 22000, 17000, 12000, 7000, 2000], [],
      ⟨32000, 7, some 100, some 0, by omega⟩, ⟨2000, 7, some 100, some 0, by omega⟩, rfl, by
        simp only [snapshotsAt, map_cons, map_nil, QuietRun]
        decide +kernel, rfl, rfl, by decide⟩

theorem regressed_reread :
    QuietEvidence.answer 2000 30 ⟨32000, 7, some 100, some 0, by omega⟩
      (snapshotsAt [27000, 22000, 17000, 12000, 7000, 2000, 6000]) = false ∧
    QuietEvidence.answer 2000 30 ⟨32000, 7, some 100, some 0, by omega⟩
      (snapshotsAt [27000, 22000, 17000, 12000, 7000, 2000, 2000, 6000]) = true := by
  constructor <;> decide +kernel

end CakeAutorate.Scheduler
