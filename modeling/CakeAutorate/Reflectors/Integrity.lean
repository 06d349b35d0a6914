/-
# The integrity of the reflectors

Each part of a check keeps the active reflectors, or replaces one of them by a spare one.
-/

import CakeAutorate.Reflectors.Health
import Mathlib.Data.Int.Notation

namespace CakeAutorate.Reflectors

open Machine List ReflectorHealth World Option Nat Bool Function

variable {candidates active : List String}

theorem nextSpare_some {start idx : ℕ} {next : String}
    (h : nextSpareReflector candidates active start = some (idx, next)) :
    next ∈ candidates ∧ next ∉ active := by
  unfold nextSpareReflector at h
  split at h
  · cases h
  · obtain ⟨offset, -, hoffset⟩ := exists_of_findSome?_eq_some h
    obtain ⟨candidate, hcandidate, hspare⟩ := bind_eq_some_iff.mp hoffset
    split at hspare
    · cases hspare
    · rename_i hactive
      obtain ⟨-, rfl⟩ := Prod.mk.inj (some.inj hspare)
      exact ⟨mem_of_getElem? hcandidate, by simpa using hactive⟩

/-- **There is none** only if every configured reflector is active. -/
theorem nextSpare_eq_none_iff (hactive : active.Nodup) (hsub : active ⊆ candidates) (start : ℕ) :
    nextSpareReflector candidates active start = none ↔ ∀ c ∈ candidates, c ∈ active := by
  constructor
  · intro h c hc
    unfold nextSpareReflector at h
    split at h
    · rename_i hlength
      have hperm := (hactive.subperm hsub).perm_of_length_le hlength
      exact hperm.mem_iff.mpr hc
    · rw [findSome?_eq_none_iff] at h
      obtain ⟨j, hj, hget⟩ := getElem_of_mem hc
      -- The offset at which the index comes round to `c`.
      have hround : (start + (j + candidates.length - start % candidates.length) %
          candidates.length) % candidates.length = j := by
        have hstart : start % candidates.length < candidates.length :=
          mod_lt _ (by omega)
        rw [Nat.add_mod_mod, ← Nat.mod_add_mod, ← Nat.add_sub_assoc (by omega), Nat.add_sub_cancel_left,
          add_mod_right, mod_eq_of_lt hj]
      have hoffset := h ((j + candidates.length - start % candidates.length) % candidates.length)
        (mem_range.mpr (mod_lt _ (by omega)))
      dsimp only at hoffset
      rw [hround, getElem?_eq_getElem hj, hget, bind_some] at hoffset
      by_contra hnot
      rw [if_neg (by simpa using hnot)] at hoffset
      cases hoffset
  · intro hall
    cases hnext : nextSpareReflector candidates active start with
    | none => rfl
    | some p =>
      obtain ⟨hc, hnot⟩ := @nextSpare_some _ _ _ p.1 p.2 hnext
      exact absurd (hall _ hc) hnot

section Parts

variable {F W : Type} {fl : Floats F} {cfg : Config F} {clock : Clock} {w w' w'' : World F W}

def Counted (cfg : Config F) (h : ReflectorHealth F) : Prop :=
  ∀ r s, h.states r = some s → s.Counts cfg.detectionWindow

/-- Nothing is replaced: only the times and the states of active reflectors may change. -/
structure Kept (cfg : Config F) (w w' : World F W) : Prop where
  active : w'.active = w.active
  controller : w'.controller = w.controller
  others : ∀ r ∉ w.active, w'.health.states r = w.health.states r
  counted : Counted cfg w.health → Counted cfg w'.health

theorem Kept.refl (w : World F W) : Kept cfg w w := ⟨rfl, rfl, fun _ _ => rfl, id⟩

theorem Kept.trans (h : Kept cfg w w') (h' : Kept cfg w' w'') : Kept cfg w w'' where
  active := h'.active.trans h.active
  controller := h'.controller.trans h.controller
  others r hr := by
    have hr' : r ∉ w'.active := by rwa [h.active]
    exact (h'.others r hr').trans (h.others r hr)
  counted hcounted := h'.counted (h.counted hcounted)

/-- All that is known of a reflector. -/
structure SameState (w w' : World F W) (r : String) : Prop where
  state : w'.health.states r = w.health.states r
  dlBaseline : w'.controller.dlBaselineUs r = w.controller.dlBaselineUs r
  ulBaseline : w'.controller.ulBaselineUs r = w.controller.ulBaselineUs r
  dlEwma : w'.controller.dlEwmaUs r = w.controller.dlEwmaUs r
  ulEwma : w'.controller.ulEwmaUs r = w.controller.ulEwmaUs r
  warmup : w'.controller.baselineWarmup r = w.controller.baselineWarmup r

/-- Nothing is known of a reflector. -/
structure Forgotten (w : World F W) (r : String) : Prop where
  state : w.health.states r = none
  dlBaseline : w.controller.dlBaselineUs r = none
  ulBaseline : w.controller.ulBaselineUs r = none
  dlEwma : w.controller.dlEwmaUs r = none
  ulEwma : w.controller.ulEwmaUs r = none
  warmup : w.controller.baselineWarmup r = none

/-- A reflector starts afresh: no offence, no sample, no warm-up; its statistics stay. -/
structure Fresh (fl : Floats F) (cfg : Config F) (w w' : World F W) (r : String) : Prop where
  state : ∃ now, w'.health.states r = some (.new fl now cfg.detectionWindow)
  dlBaseline : w'.controller.dlBaselineUs r = w.controller.dlBaselineUs r
  ulBaseline : w'.controller.ulBaselineUs r = w.controller.ulBaselineUs r
  dlEwma : w'.controller.dlEwmaUs r = w.controller.dlEwmaUs r
  ulEwma : w'.controller.ulEwmaUs r = w.controller.ulEwmaUs r
  warmup : w'.controller.baselineWarmup r = none

/-- An active reflector is replaced by a spare one. -/
structure Replaced (fl : Floats F) (cfg : Config F) (w w' : World F W) (old next : String) :
    Prop where
  active : ∃ i, w.active[i]? = some old ∧ w'.active = w.active.set i next
  configured : next ∈ cfg.reflectors
  spare : next ∉ w.active
  forgotten : cfg.retainReflectorStats = false → Forgotten w' old
  fresh : Fresh fl cfg w w' next
  others : ∀ r, r ≠ old → r ≠ next → SameState w w' r
  counted : Counted cfg w.health → Counted cfg w'.health

def HasSpare (cfg : Config F) (w : World F W) : Prop := ∃ r ∈ cfg.reflectors, r ∉ w.active

/-- What the later parts of a check depend on is the same. -/
structure Unjudged (w w' : World F W) : Prop where
  active : w'.active = w.active
  states : w'.health.states = w.health.states
  timing : w'.health.timing = w.health.timing

theorem Unjudged.trans (h : Unjudged w w') (h' : Unjudged w' w'') : Unjudged w w'' :=
  ⟨h'.active.trans h.active, h'.states.trans h.states, h'.timing.trans h.timing⟩

theorem Unjudged.judge (h : Unjudged w w') (r : String) (now : ℕ) :
    w'.health.judge fl cfg r now = w.health.judge fl cfg r now := by
  unfold ReflectorHealth.judge entry
  rw [h.states, h.timing]

/-- **The first `n` active reflectors are judged** by their deadlines, and no other state has changed. -/
structure Judged (fl : Floats F) (cfg : Config F) (clock : Clock) (n : ℕ) (w w' : World F W) :
    Prop where
  active : w'.active = w.active
  controller : w'.controller = w.controller
  timing : w'.health.timing = w.health.timing
  states : ∀ r, w'.health.states r = if r ∈ w.active.take n then
    some (w.health.judge fl cfg r clock.deadlines) else w.health.states r

theorem Unjudged.judged (h : Unjudged w w') (hcontroller : w'.controller = w.controller) :
    Judged fl cfg clock 0 w w' :=
  ⟨h.active, hcontroller, h.timing, fun r => by simp [h.states]⟩

theorem Judged.trans {n : ℕ} (h : Unjudged w w') (hcontroller : w'.controller = w.controller)
    (h' : Judged fl cfg clock n w' w'') : Judged fl cfg clock n w w'' where
  active := h'.active.trans h.active
  controller := h'.controller.trans hcontroller
  timing := h'.timing.trans h.timing
  states r := by rw [h'.states, h.active, h.judge, h.states]

/-- Nothing is replaced, or a reflector is after some of them have been judged. -/
def Outcome (fl : Floats F) (cfg : Config F) (clock : Clock) (w : World F W)
    (result : World F W × Bool) : Prop :=
  (result.2 = false ∧ Kept cfg w result.1) ∨
    result.2 = true ∧ ∃ n mid old next, Judged fl cfg clock n w mid ∧
      Replaced fl cfg mid result.1 old next

theorem outcome_kept (h : Kept cfg w w') : Outcome fl cfg clock w (w', false) := .inl ⟨rfl, h⟩

variable {result : World F W × Bool}

theorem Outcome.kept (h : Outcome fl cfg clock w result) (hresult : ¬result.2 = true) :
    Kept cfg w result.1 :=
  h.elim And.right fun hreplaced => absurd hreplaced.1 hresult

/-- What comes before changes no state if there is a spare reflector. -/
theorem Outcome.after (h : Kept cfg w w') (hsame : HasSpare cfg w → Unjudged w w')
    (hresult : Outcome fl cfg clock w' result) : Outcome fl cfg clock w result := by
  rcases hresult with ⟨hfalse, hkept⟩ | ⟨htrue, n, mid, old, next, hjudged, hreplaced⟩
  · exact .inl ⟨hfalse, h.trans hkept⟩
  · have hspare : HasSpare cfg w := by
      refine ⟨next, hreplaced.configured, ?_⟩
      rw [← h.active, ← hjudged.active]
      exact hreplaced.spare
    exact .inr ⟨htrue, n, mid, old, next, .trans (hsame hspare) h.controller hjudged, hreplaced⟩

variable {next : World F W → World F W × Bool} {first : World F W × Bool}

theorem Outcome.orThen (hfirst : Outcome fl cfg clock w first)
    (hsame : HasSpare cfg w → first.2 = false → Unjudged w first.1)
    (hnext : Kept cfg w first.1 → Outcome fl cfg clock first.1 (next first.1)) :
    Outcome fl cfg clock w (orThen first next) := by
  unfold World.orThen
  rcases hfirst with ⟨hfalse, hkept⟩ | ⟨htrue, hreplaced⟩
  · rw [if_neg (by simp [hfalse])]
    exact (hnext hkept).after hkept fun hspare => hsame hspare hfalse
  · rw [if_pos htrue]
    exact .inr ⟨htrue, hreplaced⟩

theorem unjudged_orThen (hfirst : first.2 = false → Unjudged w first.1)
    (hnext : first.2 = false → (next first.1).2 = false → Unjudged first.1 (next first.1).1)
    (h : (orThen first next).2 = false) : Unjudged w (orThen first next).1 := by
  unfold World.orThen at h ⊢
  split at h
  · rename_i htrue
    rw [htrue] at h
    cases h
  · rename_i hfalse
    rw [if_neg hfalse]
    have hfalse := eq_false_iff.mpr hfalse
    exact (hfirst hfalse).trans (hnext hfalse h)

variable {h : ReflectorHealth F} {n : ℕ}

theorem counted_insert (hcounted : Counted cfg h) (r : String) {s : ReflectorState F}
    (hs : s.Counts cfg.detectionWindow) : Counted cfg (h.insert r s) := by
  intro r' s' hs'
  by_cases hr : r' = r
  · rw [states_insert, hr, update_self] at hs'
    rw [← some.inj hs']
    exact hs
  · rw [states_insert, update_of_ne hr] at hs'
    exact hcounted r' s' hs'

theorem kept_insert {r : String} (hr : r ∈ w.active) {s : ReflectorState F}
    (hs : Counted cfg w.health → s.Counts cfg.detectionWindow) :
    Kept cfg w { w with health := w.health.insert r s } where
  active := rfl
  controller := rfl
  others r' hr' := update_of_ne (fun heq => hr' (by rwa [heq])) _ _
  counted hcounted := counted_insert hcounted r (hs hcounted)

theorem counts_entry (hcounted : Counted cfg w.health) (r : String) (now : ℕ) :
    (w.health.entry fl cfg r now).Counts cfg.detectionWindow := by
  unfold entry
  cases hstate : w.health.states r with
  | none => exact counts_new fl now
  | some s => exact hcounted r s hstate

theorem kept_clear {r : String} (hr : r ∈ w.active) :
    Kept cfg w { w with health := w.health.clearOffences cfg r } := by
  unfold clearOffences
  cases hstate : w.health.states r with
  | none => exact .refl w
  | some s =>
    refine kept_insert hr fun _ => ⟨?_, length_replicate⟩
    simp [count_replicate]

/-- **A replacement** of the reflector at an index. -/
theorem replace_cases {index : ℕ} (hindex : index < w.active.length) :
    ((w.replaceActiveReflector fl cfg clock index).2 = false ∧
      Kept cfg w (w.replaceActiveReflector fl cfg clock index).1) ∨
    (w.replaceActiveReflector fl cfg clock index).2 = true ∧ ∃ old next,
      Replaced fl cfg w (w.replaceActiveReflector fl cfg clock index).1 old next := by
  have hold : w.active[index]? = some (w.active.getD index "") := by
    rw [getD_eq_getElem?_getD, getElem?_eq_getElem hindex, getD_some]
  unfold replaceActiveReflector
  cases hnext : nextSpareReflector cfg.reflectors w.active w.health.nextCandidateIdx with
  | none => exact .inl ⟨rfl, kept_clear (mem_of_getElem? hold)⟩
  | some p =>
    obtain ⟨idx, next⟩ := p
    obtain ⟨hconfigured, hspare⟩ := nextSpare_some hnext
    generalize hname : w.active.getD index "" = old at hold
    have hne : next ≠ old := fun heq => hspare (heq ▸ mem_of_getElem? hold)
    refine .inr ⟨rfl, old, next, ?_⟩
    refine ⟨⟨index, hold, rfl⟩, hconfigured, hspare, fun hretain => ?_, ?_, ?_, ?_⟩
    · constructor <;>
        simp [Controller.forget, hretain, hne.symm]
    · refine ⟨⟨clock.renewedAt, by simp⟩, ?_, ?_, ?_, ?_, ?_⟩ <;>
        cases hretain : cfg.retainReflectorStats <;>
        simp [Controller.forget, hretain, hne]
    · intro r hrold hrnext
      constructor <;> cases hretain : cfg.retainReflectorStats <;>
        simp [Controller.forget, hretain, hrold, hrnext]
    · intro hcounted
      refine counted_insert ?_ next (counts_new fl _)
      intro r s hs
      cases hretain : cfg.retainReflectorStats with
      | true =>
        simp only [hretain, if_true] at hs
        exact hcounted r s hs
      | false =>
        simp only [hretain, false_eq_true, if_false] at hs
        by_cases hr : r = old
        · rw [hr, update_self] at hs
          cases hs
        · rw [update_of_ne hr] at hs
          exact hcounted r s hs

theorem Judged.replace {n index : ℕ} (h : Judged fl cfg clock n w w') (hkept : Kept cfg w w')
    (hindex : index < w.active.length) :
    Outcome fl cfg clock w (w'.replaceActiveReflector fl cfg clock index) := by
  rw [← h.active] at hindex
  rcases @replace_cases _ _ fl cfg clock w' _ hindex with
    ⟨hfalse, hcleared⟩ | ⟨htrue, old, next, hreplaced⟩
  · exact .inl ⟨hfalse, hkept.trans hcleared⟩
  · exact .inr ⟨htrue, n, w', old, next, h, hreplaced⟩

theorem length_of_mapM {α β : Type} {f : α → Option β} {as : List α} {bs : List β}
    (h : as.mapM f = some bs) : bs.length = as.length := by
  induction as generalizing bs with
  | nil =>
    rw [← some.inj h]
    rfl
  | cons a as ih =>
    rw [mapM_cons] at h
    obtain ⟨b, -, h⟩ := bind_eq_some_iff.mp h
    obtain ⟨rest, hrest, h⟩ := bind_eq_some_iff.mp h
    rw [← some.inj h, length_cons, length_cons, ih hrest]

theorem kept_times (hstates : h.states = w.health.states) : Kept cfg w { w with health := h } where
  active := rfl
  controller := rfl
  others r _ := congrFun hstates r
  counted hcounted r s hs := hcounted r s (by rwa [hstates] at hs)

/-- **The comparison.** -/
theorem outcome_compare : Outcome fl cfg clock w (w.maybeCompareReflectors fl cfg clock) := by
  unfold maybeCompareReflectors
  by_cases hdue : cfg.comparisonInterval = 0
      ∨ clock.compared - w.health.lastComparison < cfg.comparisonInterval
  · rw [if_pos hdue]
    exact outcome_kept (Kept.refl w)
  · rw [if_neg hdue]
    dsimp only
    cases hstats : w.active.mapM (w.controller.stat fl) with
    | none => exact outcome_kept (kept_times rfl)
    | some stats =>
      dsimp only
      cases hfind : stats.findIdx? (exceeds fl cfg stats) with
      | none => exact outcome_kept (kept_times rfl)
      | some index =>
        have hindex : index < w.active.length := by
          rw [← length_of_mapM hstats]
          exact (findIdx?_eq_some_iff_getElem.mp hfind).1
        have hsame :
          Unjudged w { w with health := { w.health with lastComparison := clock.comparedAt } } :=
          ⟨rfl, rfl, rfl⟩
        exact (hsame.judged rfl).replace (kept_times rfl) hindex

/-- **The periodic refresh.** -/
theorem outcome_refresh : Outcome fl cfg clock w (w.maybePeriodicRefresh fl cfg clock) := by
  unfold maybePeriodicRefresh
  by_cases hdue : cfg.replacementInterval = 0
      ∨ clock.refreshed - w.health.lastReplacement < cfg.replacementInterval
  · rw [if_pos hdue]
    exact outcome_kept (Kept.refl w)
  · rw [if_neg hdue]
    by_cases hfull : w.active = [] ∨ cfg.reflectors.length ≤ w.active.length
    · rw [if_pos hfull]
      exact outcome_kept (kept_times rfl)
    · rw [if_neg hfull]
      have hslot : w.health.replacementSlot % w.active.length < w.active.length :=
        mod_lt _ (length_pos_iff.mpr fun hnil => hfull (.inl hnil))
      dsimp only
      generalize hturned : (w.health.replacementSlot + 1) % 2 ^ 64 = turned
      have hsame : Unjudged w { w with health := { w.health with replacementSlot := turned } } :=
        ⟨rfl, rfl, rfl⟩
      exact (hsame.judged rfl).replace (kept_times rfl) hslot

variable {rest : List (String × ℕ)}

/-- **The deadlines** of the active reflectors after the first `n`. -/
theorem outcome_checkFrom (hnodup : w.active.Nodup) (hrest : w.active.zipIdx.drop n = rest)
    (hjudged : Judged fl cfg clock n w w') (hkept : Kept cfg w w') :
    Outcome fl cfg clock w (checkFrom fl cfg clock rest w') := by
  induction rest generalizing n w' with
  | nil => exact outcome_kept hkept
  | cons p rest ih =>
    obtain ⟨r, index⟩ := p
    have hget : w.active.zipIdx[n]? = some (r, index) := by
      rw [← Nat.add_zero n, ← getElem?_drop, hrest]
      rfl
    have hdrop : w.active.zipIdx.drop (n + 1) = rest := by rw [← tail_drop, hrest, tail_cons]
    rw [getElem?_zipIdx, Nat.zero_add] at hget
    obtain ⟨r, hr, hpair⟩ := map_eq_some_iff.mp hget
    obtain ⟨rfl, rfl⟩ := Prod.mk.inj hpair
    have hlength : n < w.active.length := (List.getElem?_eq_some_iff.mp hr).1
    have hnew : r ∉ w.active.take n := by
      intro hmem
      have hdistinct := hnodup.sublist (take_sublist (n + 1) _)
      rw [take_add_one, hr] at hdistinct
      exact (nodup_append.mp hdistinct).2.2 r hmem r (by simp) rfl
    have hentry :
      w'.health.judge fl cfg r clock.deadlines = w.health.judge fl cfg r clock.deadlines := by
      have hstate : w'.health.states r = w.health.states r := by rw [hjudged.states, if_neg hnew]
      unfold judge entry
      rw [hstate, hjudged.timing]
    let judged := w'.health.insert r (w'.health.judge fl cfg r clock.deadlines)
    have hinsert : Kept cfg w { w' with health := judged } := by
      refine hkept.trans (kept_insert ?_ fun hcounted => (counts_entry hcounted r _).pushOffence _)
      rw [hjudged.active]
      exact mem_of_getElem? hr
    have hnext : Judged fl cfg clock (n + 1) w { w' with health := judged } := by
      refine ⟨hjudged.active, hjudged.controller, hjudged.timing, fun r' => ?_⟩
      rw [states_insert, hentry, take_add_one, hr]
      by_cases hsame : r' = r
      · rw [hsame, update_self, if_pos (by simp)]
      · rw [update_of_ne hsame, hjudged.states]
        simp [hsame]
    rw [checkFrom]
    split
    · exact hnext.replace hinsert hlength
    · exact ih hdrop hnext hinsert

/-- **The deadlines.** -/
theorem outcome_deadlines (hnodup : w.active.Nodup) :
    Outcome fl cfg clock w (w.checkResponseDeadlines fl cfg clock) :=
  outcome_checkFrom hnodup rfl (Unjudged.judged ⟨rfl, rfl, rfl⟩ rfl) (Kept.refl w)

theorem kept_ensured : Kept cfg w (w.ensured fl cfg clock) where
  active := rfl
  controller := rfl
  others r hr := by
    simp [ensured, ensureActiveStates, hr]
  counted hcounted r s hs := by
    rcases or_eq_some_iff.mp hs with hstate | ⟨-, hnew⟩
    · exact hcounted r s hstate
    · split at hnew
      · rw [← some.inj hnew]
        exact counts_new fl _
      · cases hnew

/-- The active reflectors are distinct and configured, and every window is counted. -/
structure Sound (cfg : Config F) (n : ℕ) (w : World F W) : Prop where
  length : w.active.length = n
  nodup : w.active.Nodup
  subset : w.active ⊆ cfg.reflectors
  counted : Counted cfg w.health

def ComparisonCalls (fl : Floats F) (cfg : Config F) (clock : Clock) (w : World F W) : Prop :=
  cfg.comparisonInterval ≠ 0 ∧ cfg.comparisonInterval ≤ clock.compared - w.health.lastComparison ∧
    ∃ stats, w.active.mapM (w.controller.stat fl) = some stats ∧
      ∃ s ∈ stats, exceeds fl cfg stats s = true

def RefreshCalls (cfg : Config F) (clock : Clock) (w : World F W) : Prop :=
  cfg.replacementInterval ≠ 0 ∧
    cfg.replacementInterval ≤ clock.refreshed - w.health.lastReplacement ∧ w.active ≠ []

section

variable (fl : Floats F) (cfg : Config F) (clock : Clock) (w : World F W)

def DeadlineCalls : Prop :=
  ∃ r ∈ w.active, cfg.detectionThr ≤ (w.health.judge fl cfg r clock.deadlines).offenceSum

def CalledFor : Prop :=
  cfg.healthCheckInterval ≤ clock.now - w.health.lastHealthCheck ∧
    (ComparisonCalls fl cfg clock w ∨ RefreshCalls cfg clock w ∨
      DeadlineCalls fl cfg clock (w.ensured fl cfg clock))

end

section

variable (hnodup : w.active.Nodup) (hsub : w.active ⊆ cfg.reflectors)
include hnodup hsub

theorem replace_iff (index : ℕ) :
    (w.replaceActiveReflector fl cfg clock index).2 = true ↔ HasSpare cfg w := by
  have hnone := nextSpare_eq_none_iff hnodup hsub w.health.nextCandidateIdx
  unfold replaceActiveReflector
  cases hnext : nextSpareReflector cfg.reflectors w.active w.health.nextCandidateIdx with
  | none =>
    constructor
    · intro h
      cases h
    · rintro ⟨r, hr, hspare⟩
      exact absurd (hnone.mp hnext r hr) hspare
  | some p => exact ⟨fun _ => ⟨p.2, nextSpare_some hnext⟩, fun _ => rfl⟩

theorem compare_iff :
    ((w.maybeCompareReflectors fl cfg clock).2 = true ↔
      ComparisonCalls fl cfg clock w ∧ HasSpare cfg w) ∧
    (HasSpare cfg w → (w.maybeCompareReflectors fl cfg clock).2 = false →
      Unjudged w (w.maybeCompareReflectors fl cfg clock).1 ∧
      (w.maybeCompareReflectors fl cfg clock).1.health.lastReplacement =
        w.health.lastReplacement) := by
  unfold maybeCompareReflectors ComparisonCalls
  by_cases hdue : cfg.comparisonInterval = 0
      ∨ clock.compared - w.health.lastComparison < cfg.comparisonInterval
  · rw [if_pos hdue]
    refine ⟨⟨fun h => absurd h false_ne_true, fun h => ?_⟩, fun _ _ => ⟨⟨rfl, rfl, rfl⟩, rfl⟩⟩
    obtain ⟨⟨hne, hle, -⟩, -⟩ := h
    rcases hdue with hzero | hless
    · exact absurd hzero hne
    · exact absurd hless (Nat.not_lt.mpr hle)
  · rw [if_neg hdue]
    obtain ⟨hne, hless⟩ := not_or.mp hdue
    dsimp only
    cases hstats : w.active.mapM (w.controller.stat fl) with
    | none =>
      refine ⟨⟨fun h => absurd h false_ne_true, fun h => ?_⟩, fun _ _ => ⟨⟨rfl, rfl, rfl⟩, rfl⟩⟩
      obtain ⟨⟨-, -, stats, hsome, -⟩, -⟩ := h
      cases hsome
    | some stats =>
      dsimp only
      cases hfind : stats.findIdx? (exceeds fl cfg stats) with
      | none =>
        refine ⟨⟨fun h => absurd h false_ne_true, fun h => ?_⟩, fun _ _ => ⟨⟨rfl, rfl, rfl⟩, rfl⟩⟩
        obtain ⟨⟨-, -, stats', hsome, s, hs, hexceeds⟩, -⟩ := h
        rw [← some.inj hsome] at hs hexceeds
        rw [findIdx?_eq_none_iff.mp hfind s hs] at hexceeds
        cases hexceeds
      | some index =>
        obtain ⟨hindex, hexceeds, -⟩ := findIdx?_eq_some_iff_getElem.mp hfind
        have hreplace := @replace_iff F W fl cfg clock
          { w with health := { w.health with lastComparison := clock.comparedAt } }
          hnodup hsub index
        constructor
        · rw [hreplace]
          refine ⟨fun h => ⟨⟨hne, Nat.not_lt.mp hless, stats, rfl, stats[index],
            getElem_mem hindex, hexceeds⟩, h⟩, fun h => h.2⟩
        · intro hspare hfalse
          rw [hreplace.mpr hspare] at hfalse
          cases hfalse

theorem refresh_iff :
    ((w.maybePeriodicRefresh fl cfg clock).2 = true ↔ RefreshCalls cfg clock w ∧ HasSpare cfg w) ∧
    (HasSpare cfg w → (w.maybePeriodicRefresh fl cfg clock).2 = false →
      Unjudged w (w.maybePeriodicRefresh fl cfg clock).1) := by
  unfold maybePeriodicRefresh RefreshCalls
  by_cases hdue : cfg.replacementInterval = 0
      ∨ clock.refreshed - w.health.lastReplacement < cfg.replacementInterval
  · rw [if_pos hdue]
    refine ⟨⟨fun h => absurd h false_ne_true, fun h => ?_⟩, fun _ _ => ⟨rfl, rfl, rfl⟩⟩
    obtain ⟨⟨hne, hle, -⟩, -⟩ := h
    rcases hdue with hzero | hless
    · exact absurd hzero hne
    · exact absurd hless (Nat.not_lt.mpr hle)
  · rw [if_neg hdue]
    obtain ⟨hne, hless⟩ := not_or.mp hdue
    by_cases hfull : w.active = [] ∨ cfg.reflectors.length ≤ w.active.length
    · rw [if_pos hfull]
      refine ⟨⟨fun h => absurd h false_ne_true, fun h => ?_⟩, fun _ _ => ⟨rfl, rfl, rfl⟩⟩
      obtain ⟨⟨-, -, hactive⟩, r, hr, hspare⟩ := h
      have hperm := (hnodup.subperm hsub).perm_of_length_le (hfull.resolve_left hactive)
      exact absurd (hperm.mem_iff.mpr hr) hspare
    · rw [if_neg hfull]
      have hreplace := @replace_iff F W fl cfg clock { w with health :=
        { w.health with replacementSlot := (w.health.replacementSlot + 1) % 2 ^ 64 } }
        hnodup hsub (w.health.replacementSlot % w.active.length)
      constructor
      · rw [hreplace]
        exact ⟨fun h => ⟨⟨hne, Nat.not_lt.mp hless, fun hnil => hfull (.inl hnil)⟩, h⟩,
          fun h => h.2⟩
      · intro hspare hfalse
        rw [hreplace.mpr hspare] at hfalse
        cases hfalse

end

theorem judge_insert {r r' : String} (hne : r' ≠ r) (s : ReflectorState F) (now : ℕ) :
    (h.insert r s).judge fl cfg r' now = h.judge fl cfg r' now := by
  have hentry : (h.insert r s).entry fl cfg r' now = h.entry fl cfg r' now := by
    rw [entry, states_insert, update_of_ne hne]
    rfl
  rw [judge, hentry]
  rfl

theorem checkFrom_iff (hdistinct : (rest.map Prod.fst).Nodup) (hnodup : w.active.Nodup)
    (hsub : w.active ⊆ cfg.reflectors) :
    (checkFrom fl cfg clock rest w).2 = true ↔
      (∃ r ∈ rest.map Prod.fst,
        cfg.detectionThr ≤ (w.health.judge fl cfg r clock.deadlines).offenceSum) ∧
      HasSpare cfg w := by
  induction rest generalizing w with
  | nil =>
    constructor
    · intro h
      cases h
    · rintro ⟨⟨r, hr, -⟩, -⟩
      cases hr
  | cons p rest ih =>
    obtain ⟨r, index⟩ := p
    rw [map_cons, nodup_cons] at hdistinct
    rw [checkFrom]
    let judged := w.health.insert r (w.health.judge fl cfg r clock.deadlines)
    have hreplace := @replace_iff F W fl cfg clock { w with health := judged } hnodup hsub index
    have hnext := @ih { w with health := judged } hdistinct.2 hnodup hsub
    by_cases hthr : cfg.detectionThr ≤ (w.health.judge fl cfg r clock.deadlines).offenceSum
    · rw [if_pos hthr, hreplace]
      exact ⟨fun h => ⟨⟨r, mem_cons_self, hthr⟩, h⟩, fun h => h.2⟩
    · rw [if_neg hthr, hnext]
      have hsame : ∀ r' ∈ rest.map Prod.fst, judged.judge fl cfg r' clock.deadlines =
          w.health.judge fl cfg r' clock.deadlines := by
        intro r' hr'
        have hne : r' ≠ r := by
          rintro rfl
          exact hdistinct.1 hr'
        exact judge_insert hne _ _
      constructor
      · rintro ⟨⟨r', hr', hcount⟩, hspare⟩
        rw [hsame r' hr'] at hcount
        exact ⟨⟨r', mem_cons_of_mem _ hr', hcount⟩, hspare⟩
      · rintro ⟨⟨r', hr', hcount⟩, hspare⟩
        rcases mem_cons.mp hr' with rfl | hr'
        · exact absurd hcount hthr
        · refine ⟨⟨r', hr', ?_⟩, hspare⟩
          rw [hsame r' hr']
          exact hcount

theorem deadlines_iff (hnodup : w.active.Nodup) (hsub : w.active ⊆ cfg.reflectors) :
    (w.checkResponseDeadlines fl cfg clock).2 = true ↔
      DeadlineCalls fl cfg clock w ∧ HasSpare cfg w := by
  have hnames : w.active.zipIdx.map Prod.fst = w.active := zipIdx_map_fst 0 w.active
  have hfrom := @checkFrom_iff F W fl cfg clock w w.active.zipIdx (by rwa [hnames]) hnodup hsub
  rw [hnames] at hfrom
  exact hfrom

theorem hasSpare_of_active (h : w'.active = w.active) : HasSpare cfg w' ↔ HasSpare cfg w := by
  rw [HasSpare, h]
  exact Iff.rfl

theorem refreshCalls_of_unjudged (h : Unjudged w w')
    (hlast : w'.health.lastReplacement = w.health.lastReplacement) :
    RefreshCalls cfg clock w' ↔ RefreshCalls cfg clock w := by
  rw [RefreshCalls, hlast, h.active]
  exact Iff.rfl

theorem Unjudged.deadlineCalls (h : Unjudged w w') :
    DeadlineCalls fl cfg clock w' ↔ DeadlineCalls fl cfg clock w := by
  unfold DeadlineCalls
  simp [h.active, h.judge]

/-- **A check replaces** a reflector exactly when it is called for and there is a spare one. -/
theorem check_iff (hnodup : w.active.Nodup) (hsub : w.active ⊆ cfg.reflectors) :
    (w.check fl cfg clock).2 = true ↔ CalledFor fl cfg clock w ∧ HasSpare cfg w := by
  unfold World.check CalledFor
  by_cases hdue : clock.now - w.health.lastHealthCheck < cfg.healthCheckInterval
  · rw [if_pos hdue]
    exact ⟨fun h => absurd h false_ne_true, fun h => absurd hdue (Nat.not_lt.mpr h.1.1)⟩
  · rw [if_neg hdue]
    have hle := Nat.not_lt.mp hdue
    generalize hw : w.ensured fl cfg clock = w₁
    have hactive : w₁.active = w.active := by rw [← hw]; rfl
    have hcompareCalls : ComparisonCalls fl cfg clock w₁ ↔ ComparisonCalls fl cfg clock w := by
      rw [← hw]
      exact Iff.rfl
    have hrefreshCalls : RefreshCalls cfg clock w₁ ↔ RefreshCalls cfg clock w := by
      rw [← hw]
      exact Iff.rfl
    rw [← hcompareCalls, ← hrefreshCalls, ← hasSpare_of_active hactive]
    rw [← hactive] at hnodup hsub
    obtain ⟨hcompare, hafterCompare⟩ := @compare_iff F W fl cfg clock w₁ hnodup hsub
    by_cases hcompared : (w₁.maybeCompareReflectors fl cfg clock).2 = true
    · obtain ⟨hcalls, hspare⟩ := hcompare.mp hcompared
      have hparts : orThen (orThen (w₁.maybeCompareReflectors fl cfg clock)
          (maybePeriodicRefresh fl cfg clock)) (checkResponseDeadlines fl cfg clock) =
          w₁.maybeCompareReflectors fl cfg clock := by
        simp [orThen, if_pos hcompared]
      rw [hparts]
      exact ⟨fun _ => ⟨⟨hle, .inl hcalls⟩, hspare⟩, fun _ => hcompared⟩
    · have hkept₂ := outcome_compare.kept hcompared
      have hsecond : orThen (w₁.maybeCompareReflectors fl cfg clock)
          (maybePeriodicRefresh fl cfg clock) =
          (w₁.maybeCompareReflectors fl cfg clock).1.maybePeriodicRefresh fl cfg clock := by
        rw [orThen, if_neg hcompared]
      rw [hsecond]
      generalize (w₁.maybeCompareReflectors fl cfg clock).1 = w₂ at hafterCompare hkept₂
      have hsame : HasSpare cfg w₁ → Unjudged w₁ w₂ ∧
          w₂.health.lastReplacement = w₁.health.lastReplacement := fun hspare =>
        hafterCompare hspare (eq_false_iff.mpr hcompared)
      have hspare₂ : HasSpare cfg w₂ ↔ HasSpare cfg w₁ := hasSpare_of_active hkept₂.active
      have hnodup₂ : w₂.active.Nodup := by rwa [hkept₂.active]
      have hsub₂ : w₂.active ⊆ cfg.reflectors := by rwa [hkept₂.active]
      obtain ⟨hrefresh, hafterRefresh⟩ := @refresh_iff F W fl cfg clock w₂ hnodup₂ hsub₂
      by_cases hrefreshed : (w₂.maybePeriodicRefresh fl cfg clock).2 = true
      · obtain ⟨hcalls, hspare⟩ := hrefresh.mp hrefreshed
        obtain ⟨hunjudged, hlast⟩ := hsame (hspare₂.mp hspare)
        rw [orThen, if_pos hrefreshed]
        exact ⟨fun _ => ⟨⟨hle, .inr (.inl ((refreshCalls_of_unjudged hunjudged hlast).mp hcalls))⟩,
          hspare₂.mp hspare⟩, fun _ => hrefreshed⟩
      · have hkept₃ := outcome_refresh.kept hrefreshed
        rw [orThen, if_neg hrefreshed]
        generalize (w₂.maybePeriodicRefresh fl cfg clock).1 = w₃ at hafterRefresh hkept₃
        have hnodup₃ : w₃.active.Nodup := by rwa [hkept₃.active]
        have hsub₃ : w₃.active ⊆ cfg.reflectors := by rwa [hkept₃.active]
        have hspare₃ : HasSpare cfg w₃ ↔ HasSpare cfg w₂ := hasSpare_of_active hkept₃.active
        have hdeadlines : HasSpare cfg w₁ →
            (DeadlineCalls fl cfg clock w₃ ↔ DeadlineCalls fl cfg clock w₁) := fun hspare =>
          (hafterRefresh (hspare₂.mpr hspare) (eq_false_iff.mpr hrefreshed)).deadlineCalls.trans
            (hsame hspare).1.deadlineCalls
        rw [deadlines_iff hnodup₃ hsub₃, hspare₃, hspare₂]
        constructor
        · rintro ⟨hcalls, hspare⟩
          exact ⟨⟨hle, .inr (.inr ((hdeadlines hspare).mp hcalls))⟩, hspare⟩
        · rintro ⟨⟨-, hcomparison | hperiodic | hcalls⟩, hspare⟩
          · exact absurd (hcompare.mpr ⟨hcomparison, hspare⟩) hcompared
          · obtain ⟨hunjudged, hlast⟩ := hsame hspare
            exact absurd (hrefresh.mpr ⟨(refreshCalls_of_unjudged hunjudged hlast).mpr hperiodic,
              hspare₂.mpr hspare⟩) hrefreshed
          · exact ⟨(hdeadlines hspare).mpr hcalls, hspare⟩

/-- **A check** keeps the world, or replaces a reflector after it has judged some. -/
theorem check_cases (hnodup : w.active.Nodup) (hsub : w.active ⊆ cfg.reflectors) :
    ((w.check fl cfg clock).2 = false ∧ Kept cfg w (w.check fl cfg clock).1) ∨
    (w.check fl cfg clock).2 = true ∧ ∃ n mid old next,
      Judged fl cfg clock n (w.ensured fl cfg clock) mid ∧
        Replaced fl cfg mid (w.check fl cfg clock).1 old next := by
  unfold World.check
  split
  · exact .inl ⟨rfl, Kept.refl w⟩
  · have hensured : (w.ensured fl cfg clock).active = w.active := rfl
    rw [← hensured] at hnodup hsub
    generalize hw : w.ensured fl cfg clock = w₁ at hnodup hsub ⊢
    have hcompare := (@compare_iff F W fl cfg clock w₁ hnodup hsub).2
    have hrefresh : ∀ w₂ : World F W, w₂.active = w₁.active → HasSpare cfg w₁ →
        (w₂.maybePeriodicRefresh fl cfg clock).2 = false →
        Unjudged w₂ (w₂.maybePeriodicRefresh fl cfg clock).1 := fun w₂ hactive hspare =>
      (@refresh_iff F W fl cfg clock w₂ (by rwa [hactive]) (by rwa [hactive])).2
        ((hasSpare_of_active hactive).mpr hspare)
    have hparts :=
      ((@outcome_compare F W fl cfg clock w₁).orThen (fun hspare hfalse => (hcompare hspare hfalse).1)
      fun _ => outcome_refresh).orThen
        (fun hspare => unjudged_orThen (fun hfalse => (hcompare hspare hfalse).1) fun hfalse =>
          hrefresh _ (hcompare hspare hfalse).1.active hspare)
        fun hkept => @outcome_deadlines F W fl cfg clock _ (by rwa [hkept.active])
    rcases hparts with ⟨hfalse, hkept⟩ | hreplaced
    · exact .inl ⟨hfalse, (hw ▸ kept_ensured).trans hkept⟩
    · exact .inr hreplaced

theorem Judged.counted (h : Judged fl cfg clock n w w') (hcounted : Counted cfg w.health) :
    Counted cfg w'.health := by
  intro r s hs
  rw [h.states] at hs
  split at hs
  · rw [← some.inj hs]
    exact (counts_entry hcounted r _).pushOffence _
  · exact hcounted r s hs

theorem sound_kept (h : Sound cfg n w) (hkept : Kept cfg w w') : Sound cfg n w' where
  length := by rw [hkept.active, h.length]
  nodup := by rw [hkept.active]; exact h.nodup
  subset := by rw [hkept.active]; exact h.subset
  counted := hkept.counted h.counted

/-- **A replacement** keeps the active reflectors distinct and configured. -/
theorem sound_replaced {old next : String} (h : Sound cfg n w)
    (hreplaced : Replaced fl cfg w w' old next) : Sound cfg n w' := by
  obtain ⟨i, -, hactive⟩ := hreplaced.active
  constructor
  · rw [hactive, length_set, h.length]
  · rw [hactive]
    exact h.nodup.set hreplaced.spare
  · rw [hactive]
    intro r hr
    rcases mem_or_eq_of_mem_set hr with hr | rfl
    · exact h.subset hr
    · exact hreplaced.configured
  · exact hreplaced.counted h.counted

theorem sound_check (h : Sound cfg n w) : Sound cfg n (w.check fl cfg clock).1 := by
  rcases check_cases h.nodup h.subset with ⟨-, hkept⟩ | ⟨-, m, mid, old, next, hjudged, hreplaced⟩
  · exact sound_kept h hkept
  · have hensured : Sound cfg n (w.ensured fl cfg clock) := sound_kept h kept_ensured
    refine sound_replaced ⟨?_, ?_, ?_, hjudged.counted hensured.counted⟩ hreplaced
    · rw [hjudged.active]; exact hensured.length
    · rw [hjudged.active]; exact hensured.nodup
    · rw [hjudged.active]; exact hensured.subset

theorem counted_observe (hcounted : Counted cfg w.health) (sample : Sample F) (observedAt : ℕ) :
    Counted cfg (w.health.observeSample fl cfg sample observedAt) := by
  have hentry := @counts_entry _ _ fl _ _ hcounted sample.reflector observedAt
  refine counted_insert hcounted _ ?_
  split
  · refine .pushOffence ?_ true
    exact ⟨hentry.sum, hentry.length⟩
  · exact ⟨hentry.sum, hentry.length⟩

theorem sound_step (h : Sound cfg n w) (e : Event F W) : Sound cfg n (step fl cfg w e) := by
  cases e with
  | observe sample observedAt => exact ⟨h.length, h.nodup, h.subset, counted_observe h.counted _ _⟩
  | check clock => exact sound_check h
  | control controller => exact ⟨h.length, h.nodup, h.subset, h.counted⟩

def start (fl : Floats F) (cfg : Config F) (active : List String) (timing : PingerTiming F)
    (now : ℕ) (controller : Controller F W) : World F W :=
  ⟨active, .new fl cfg active timing now, controller⟩

theorem sound_start {active : List String} (hnodup : active.Nodup) (hsub : active ⊆ cfg.reflectors)
    (timing : PingerTiming F) (now : ℕ) (controller : Controller F W) :
    Sound cfg active.length (start fl cfg active timing now controller) where
  length := rfl
  nodup := hnodup
  subset := hsub
  counted r s hs := by
    simp only [start, new] at hs
    split at hs
    · rw [← some.inj hs]
      exact counts_new fl _
    · cases hs

/-- **The reflectors** after any events: the active ones stay as many, distinct and configured, and
every window is counted; the next check replaces one by a spare one exactly when that is called for
and there is one, before which at most the deadlines of some active reflectors are judged; what
replaces it starts afresh, and the replacement changes nothing else. -/
theorem reflectors_sound {active : List String} (hnodup : active.Nodup)
    (hsub : active ⊆ cfg.reflectors) (timing : PingerTiming F) (now : ℕ)
    (controller : Controller F W) (events : List (Event F W)) (clock : Clock) :
    let w := run (step fl cfg) (start fl cfg active timing now controller) events
    Sound cfg active.length w ∧
    ((w.check fl cfg clock).2 = true ↔ CalledFor fl cfg clock w ∧ HasSpare cfg w) ∧
    ((w.check fl cfg clock).2 = false → Kept cfg w (w.check fl cfg clock).1) ∧
    ((w.check fl cfg clock).2 = true → ∃ n mid old next,
      Judged fl cfg clock n (w.ensured fl cfg clock) mid ∧
        Replaced fl cfg mid (w.check fl cfg clock).1 old next) := by
  intro w
  have hsound : Sound cfg active.length w :=
    run_invariant (P := Sound cfg active.length) (fun _ e h => sound_step h e)
      (sound_start hnodup hsub timing now controller) events
  refine ⟨hsound, check_iff hsound.nodup hsound.subset, fun hfalse => ?_, fun htrue => ?_⟩
  · rcases check_cases hsound.nodup hsound.subset with ⟨-, hkept⟩ | ⟨htrue, -⟩
    · exact hkept
    · rw [hfalse] at htrue
      cases htrue
  · rcases check_cases hsound.nodup hsound.subset with ⟨hfalse, -⟩ | ⟨-, hreplaced⟩
    · rw [htrue] at hfalse
      cases hfalse
    · exact hreplaced

end Parts

def wholeNumbers : Floats ℤ where
  zero := 0
  infinity := 1000000
  add := (· + ·)
  sub := (· - ·)
  min
  gt a b := decide (a > b)

def twoReflectors : Config ℤ where
  reflectors := ["a", "b"]
  detectionWindow := 2
  detectionThr := 1
  retainReflectorStats := false
  healthCheckInterval := 1
  comparisonInterval := 0
  replacementInterval := 0
  sumOwdBaselinesDeltaThrUs := 0
  owdDeltaEwmaDeltaThrUs := 0

def lateSpare : World ℤ ℕ :=
  run (step wholeNumbers twoReflectors)
    (start wholeNumbers twoReflectors ["a"] ⟨5, 5⟩ 0
      ⟨fun _ => none, fun _ => none, fun _ => none, fun _ => none, fun _ => none⟩)
    [.observe ⟨"b", 9⟩ 3]

def lateClock : Clock := ⟨50, 50, 50, 50, 50, 50, 50, 50⟩

/-- A spare reflector of three, of which two are active. -/
def threeReflectors : Config ℤ := { twoReflectors with reflectors := ["a", "b", "c"] }

/-- One reflector has answered late, and the other has not answered since the start. -/
def silentSecond : World ℤ ℕ :=
  run (step wholeNumbers threeReflectors)
    (start wholeNumbers threeReflectors ["a", "b"] ⟨5, 5⟩ 0
      ⟨fun r => if r = "b" then some 7 else none, fun _ => none, fun _ => none, fun _ => none,
        fun _ => none⟩)
    [.observe ⟨"c", 9⟩ 3, .observe ⟨"a", 2⟩ 46]

/-- The check judges both, and replaces the second. -/
theorem silentSecond_sound :
    (silentSecond.check wholeNumbers threeReflectors lateClock).1.active = ["a", "c"] ∧
    Sound threeReflectors 2 silentSecond ∧
    (CalledFor wholeNumbers threeReflectors lateClock silentSecond ∧
      HasSpare threeReflectors silentSecond) ∧
    ∃ n mid old next,
      Judged wholeNumbers threeReflectors lateClock n
        (silentSecond.ensured wholeNumbers threeReflectors lateClock) mid ∧
      Replaced wholeNumbers threeReflectors mid
        (silentSecond.check wholeNumbers threeReflectors lateClock).1 old next := by
  have hsound := @reflectors_sound ℤ ℕ wholeNumbers threeReflectors ["a", "b"] (by decide)
    (by decide) ⟨5, 5⟩ 0
    ⟨fun r => if r = "b" then some 7 else none, fun _ => none, fun _ => none, fun _ => none,
      fun _ => none⟩ [.observe ⟨"c", 9⟩ 3, .observe ⟨"a", 2⟩ 46] lateClock
  have hreplaces : (silentSecond.check wholeNumbers threeReflectors lateClock).2 = true := by
    decide +kernel
  exact ⟨by decide +kernel, hsound.1, hsound.2.1.mp hreplaces, hsound.2.2.2 hreplaces⟩

theorem incoming_loses_offence :
    (lateSpare.check wholeNumbers twoReflectors lateClock).1.active = ["b"] ∧
    (lateSpare.health.states "b").map ReflectorState.offenceSum = some 1 ∧
    ((lateSpare.check wholeNumbers twoReflectors lateClock).1.health.states "b").map
      ReflectorState.offenceSum = some 0 := by
  refine ⟨?_, ?_, ?_⟩ <;> decide +kernel

end CakeAutorate.Reflectors
