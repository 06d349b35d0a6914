/-
# The rates that the attester admits

What the rate policy of a managed queue says of an instance whose options the daemon accepts.  The
policy reads fewer spellings than the daemon: where it reads the options at all, it reads the
numbers that the daemon reads, and every bandwidth that a run of the rate control asks for lies
between its bounds.
-/

import CakeAutorate.Controller.Options
import Mathlib.Data.List.TakeWhile

namespace CakeAutorate.Controller

open Machine DirectionConfig Except Nat List Config ManagedSqmRatePolicy AdaptiveCeilingDirection
open Sqm (Options parseBool)

variable {n : ℕ}

theorem accumulate_ok {limit : ℕ} {cs : List Char} {m : ℕ} (h : accumulate limit n cs = .ok m)
    (hn : n < limit) : cs.all Char.isDigit = true ∧
      cs.foldl (fun n c => n * 10 + digitValue c) n = m ∧ m < limit := by
  induction cs generalizing n with
  | nil =>
    cases h
    exact ⟨rfl, rfl, hn⟩
  | cons c rest ih =>
    unfold accumulate at h
    split at h
    · cases h
    · rename_i hdigit
      split at h
      · cases h
      · rename_i hfits
        obtain ⟨hall, hfold, hm⟩ := ih h (by omega)
        refine ⟨?_, hfold, hm⟩
        rw [all_cons, hall, Bool.and_true]
        simpa using hdigit

theorem takeWhile_of_all {α : Type} {p : α → Bool} {xs : List α} (h : xs.all p = true) :
    xs.takeWhile p = xs ∧ xs.dropWhile p = [] := by
  rw [all_eq_true] at h
  exact ⟨takeWhile_eq_self_iff.2 h, dropWhile_eq_nil_iff.2 h⟩

theorem decimalOf_digits {cs : List Char} (hne : cs ≠ []) (h : cs.all Char.isDigit = true) :
    decimalOf cs = some (digitsValue cs : ℚ) := by
  obtain ⟨htake, hdrop⟩ := takeWhile_of_all h
  have hempty : cs.isEmpty = false := by
    rw [isEmpty_eq_false_iff]
    exact hne
  simp only [decimalOf, htake, hdrop, hempty, Bool.false_and, Bool.false_eq_true, if_false]
  simp [fractionOf, afterFraction, exponentOf]

/-- **Both parsers agree** on what is an unsigned integer. -/
theorem parseF64_of_parseU64 {value : String} (h : parseU64 value = .ok n) :
    parseF64 value = .ok (some (n : ℚ)) := by
  unfold parseU64 parseUInt at h
  split at h
  · cases h
  · rename_i hvalue
    split at h
    · cases h
    · rename_i hdigits
      obtain ⟨hall, hfold, hlt⟩ := accumulate_ok h (by norm_num)
      have hne : afterPlus value.toList ≠ [] := by simpa using hdigits
      -- a minus sign is no digit
      have hminus : value.toList.head? ≠ some '-' := by
        intro hhead
        obtain ⟨rest, hrest⟩ : ∃ rest, value.toList = '-' :: rest := by
          cases hcs : value.toList with
          | nil => simp [hcs] at hhead
          | cons c rest =>
            rw [hcs, head?_cons, Option.some.injEq] at hhead
            exact ⟨rest, by rw [hhead]⟩
        have hplus : afterPlus value.toList = '-' :: rest := by
          rw [hrest]
          rfl
        rw [hplus] at hall
        exact absurd hall (by simp)
      have hsign : afterSign value.toList = afterPlus value.toList := if_neg hminus
      have hsigned : signed value.toList (n : ℚ) = n := if_neg hminus
      have hfits : (n : ℚ) < f64Overflow := by
        have hcast : (n : ℚ) < 2 ^ 64 := by exact_mod_cast hlt
        exact hcast.trans (by decide +kernel)
      have hdecimal : decimalOf (afterPlus value.toList) = some (n : ℚ) := by
        rw [decimalOf_digits hne hall, digitsValue, hfold]
      rw [parseF64, if_neg hvalue, hsign, hdecimal]
      simp [hfits, hsigned]

variable {o : Options} {key : String} {default n : ℕ} {allowZero : Bool}

def IntegerOption (o : Options) (key : String) (minimum : ℕ) : Prop :=
  ∀ value, o[key]? = some value → ∃ n, parseU64 value = .ok n ∧ minimum ≤ n ∧ n ≤ maxRate

theorem configuredIntegerRate_eq_ok : configuredIntegerRate o key default allowZero = .ok n ↔
    (o[key]? = none ∧ default = n) ∨
      ∃ raw, o[key]? = some raw ∧ parseU64 raw = .ok n ∧ (allowZero = true ∨ 1 ≤ n) ∧ n ≤ maxRate := by
  unfold configuredIntegerRate
  cases hvalue : o[key]? with
  | none => simp
  | some raw =>
    cases hparsed : parseU64 raw with
    | error e => simp [hparsed]
    | ok value =>
      simp only [reduceCtorEq, false_and, false_or, Option.some.injEq, exists_eq_left', hparsed,
        ok.injEq]
      constructor
      · intro h
        split at h
        · cases h
        · rename_i hbounds
          cases h
          simp only [Bool.or_eq_true, Bool.and_eq_true, Bool.not_eq_true', beq_iff_eq,
            decide_eq_true_eq, not_or, not_and, not_lt] at hbounds
          refine ⟨rfl, ?_, hbounds.2⟩
          cases allowZero with
          | true => exact .inl rfl
          | false => exact .inr (one_le_iff_ne_zero.2 (hbounds.1 rfl))
      · rintro ⟨rfl, hzero, hle⟩
        rw [if_neg]
        simp only [Bool.or_eq_true, Bool.and_eq_true, Bool.not_eq_true', beq_iff_eq,
          decide_eq_true_eq, not_or, not_and, not_lt]
        refine ⟨fun hallow => ?_, hle⟩
        rcases hzero with hallow' | hone
        · rw [hallow] at hallow'
          cases hallow'
        · exact one_le_iff_ne_zero.1 hone

theorem configuredIntegerRate_iff (default : ℕ) (allowZero : Bool) :
    (∃ n, configuredIntegerRate o key default allowZero = .ok n) ↔
      IntegerOption o key (if allowZero then 0 else 1) := by
  simp only [configuredIntegerRate_eq_ok]
  constructor
  · rintro ⟨n, ⟨hnone, -⟩ | ⟨raw, hsome, hparsed, hzero, hle⟩⟩ value hvalue
    · rw [hnone] at hvalue
      cases hvalue
    · rw [hsome, Option.some.injEq] at hvalue
      refine ⟨n, hvalue ▸ hparsed, ?_, hle⟩
      rcases hzero with rfl | hone
      · exact zero_le n
      · split
        · exact zero_le n
        · exact hone
  · intro h
    cases hvalue : o[key]? with
    | none => exact ⟨default, .inl ⟨rfl, rfl⟩⟩
    | some raw =>
      obtain ⟨n, hparsed, hmin, hle⟩ := h raw hvalue
      refine ⟨n, .inr ⟨raw, rfl, hparsed, ?_, hle⟩⟩
      cases allowZero with
      | true => exact .inl rfl
      | false => exact .inr hmin

theorem setF64_of_configured {q : ℚ} (h : configuredIntegerRate o key default allowZero = .ok n)
    (hq : setF64 o key default = .ok q) : q = n := by
  unfold setF64 at hq
  rcases configuredIntegerRate_eq_ok.1 h with ⟨hnone, rfl⟩ | ⟨raw, hsome, hparsed, -⟩
  · rw [hnone] at hq
    exact (ok.inj hq).symm
  · rw [hsome] at hq
    simp only [readAs, parseF64_of_parseU64 hparsed] at hq
    exact (ok.inj hq).symm

theorem configured_le (h : configuredIntegerRate o key default allowZero = .ok n)
    (hdefault : default ≤ maxRate) : n ≤ maxRate := by
  rcases configuredIntegerRate_eq_ok.1 h with ⟨-, rfl⟩ | ⟨raw, -, -, -, hle⟩
  · exact hdefault
  · exact hle

theorem one_le_configured (h : configuredIntegerRate o key default false = .ok n)
    (hdefault : 1 ≤ default) : 1 ≤ n := by
  rcases configuredIntegerRate_eq_ok.1 h with ⟨-, rfl⟩ | ⟨raw, -, -, hone, -⟩
  · exact hdefault
  · simpa using hone

/-- What an accepted configuration took from the options that the policy reads as well. -/
structure ReadFrom (o : Options) (c : Config) : Prop where
  minDl : setF64 o "min_dl_shaper_rate_kbps" defaultDl.minimum = .ok c.dl.minShaperRateKbps
  maxDl : setF64 o "max_dl_shaper_rate_kbps" defaultDl.maximum = .ok c.dl.maxShaperRateKbps
  minUl : setF64 o "min_ul_shaper_rate_kbps" defaultUl.minimum = .ok c.ul.minShaperRateKbps
  maxUl : setF64 o "max_ul_shaper_rate_kbps" defaultUl.maximum = .ok c.ul.maxShaperRateKbps
  enabled : setBool o "adaptive_ceiling_enabled" false = .ok c.adaptiveCeilingEnabled
  capDl : setF64 o "adaptive_ceiling_dl_cap_kbps" c.dl.maxShaperRateKbps =
    .ok c.dl.adaptiveCeilingCapKbps
  capUl : setF64 o "adaptive_ceiling_ul_cap_kbps" c.ul.maxShaperRateKbps =
    .ok c.ul.adaptiveCeilingCapKbps

def Config.policyView (c : Config) : (ℚ × ℚ × ℚ) × (ℚ × ℚ × ℚ) × Bool :=
  ((c.dl.minShaperRateKbps, c.dl.maxShaperRateKbps, c.dl.adaptiveCeilingCapKbps),
    (c.ul.minShaperRateKbps, c.ul.maxShaperRateKbps, c.ul.adaptiveCeilingCapKbps),
    c.adaptiveCeilingEnabled)

variable {c c' : Config}

theorem readAdjusted_view (h : readAdjusted o c = .ok c') : c'.policyView = c.policyView := by
  simp only [readAdjusted, bind_ok, pure, Except.pure, Except.ok.injEq] at h
  obtain ⟨_, -, _, -, _, -, _, -, _, -, rfl⟩ := h
  rfl

theorem readDelays_view (h : readDelays o c = .ok c') : c'.policyView = c.policyView := by
  simp only [readDelays, bind_ok, pure, Except.pure, Except.ok.injEq] at h
  obtain ⟨_, -, _, -, _, -, _, -, _, -, _, -, _, -, _, -, _, -, _, -, rfl⟩ := h
  rfl

theorem readFactors_view (h : readFactors o c = .ok c') : c'.policyView = c.policyView := by
  simp only [readFactors, bind_ok, pure, Except.pure, Except.ok.injEq] at h
  obtain ⟨_, -, _, -, _, -, _, -, _, -, _, -, _, -, _, -, rfl⟩ := h
  rfl

/-- **The daemon reads the options of the policy.** -/
theorem fromUciValues_ok (h : fromUciValues o = .ok c) :
    ReadFrom o c ∧ c.validateCore = .ok () := by
  simp only [fromUciValues, bind_ok, pure, Except.pure, Except.ok.injEq] at h
  obtain ⟨c₁, hadjusted, c₂, hrates, c₃, hceiling, c₄, hdelays, c₅, hfactors, u, hcore, rfl⟩ := h
  have hview := (readFactors_view hfactors).trans (readDelays_view hdelays)
  have hview₁ := readAdjusted_view hadjusted
  simp only [readRates, bind_ok, pure, Except.pure, Except.ok.injEq] at hrates
  obtain ⟨minDl, hminDl, _, -, maxDl, hmaxDl, minUl, hminUl, _, -, maxUl, hmaxUl, rfl⟩ := hrates
  simp only [readCeiling, bind_ok, pure, Except.pure, Except.ok.injEq] at hceiling
  obtain ⟨enabled, henabled, capDl, hcapDl, capUl, hcapUl, _, -, _, -, _, -, _, -, _, -, _, -, _, -,
    rfl⟩ := hceiling
  simp only [policyView, Prod.mk.injEq] at hview hview₁
  obtain ⟨⟨hcminDl, hcmaxDl, hccapDl⟩, ⟨hcminUl, hcmaxUl, hccapUl⟩, hcenabled⟩ := hview
  obtain ⟨⟨h₁minDl, h₁maxDl, -⟩, ⟨h₁minUl, h₁maxUl, -⟩, h₁enabled⟩ := hview₁
  refine ⟨⟨?_, ?_, ?_, ?_, ?_, ?_, ?_⟩, hcore⟩
  · rw [hcminDl, ← hminDl, h₁minDl]
    rfl
  · rw [hcmaxDl, ← hmaxDl, h₁maxDl]
    rfl
  · rw [hcminUl, ← hminUl, h₁minUl]
    rfl
  · rw [hcmaxUl, ← hmaxUl, h₁maxUl]
    rfl
  · rw [hcenabled, ← henabled, h₁enabled]
    rfl
  · rw [hccapDl, hcmaxDl, ← hcapDl]
  · rw [hccapUl, hcmaxUl, ← hcapUl]

theorem DirectionConfig.ordered_of_core {d : DirectionConfig} {direction : String}
    (h : d.validateRates direction = .ok ()) (hmin : d.minShaperRateKbps ≠ 0) :
    d.minShaperRateKbps ≤ d.baseShaperRateKbps ∧ d.baseShaperRateKbps ≤ d.maxShaperRateKbps := by
  have hnonzero : (!d.adjustShaperRate && d.minShaperRateKbps == 0 && d.baseShaperRateKbps == 0
      && d.maxShaperRateKbps == 0) = false := by
    have hbeq : (d.minShaperRateKbps == 0) = false := by simpa using hmin
    rw [hbeq, Bool.and_false, Bool.false_and, Bool.false_and]
  simp only [validateRates, hnonzero, Bool.false_eq_true, if_false, both_ok,
    check_ok, decide_eq_true_eq] at h
  exact h.2

/-- The spelling that the policy reads: integers in range, and `0` or `1`. -/
structure Spelled (o : Options) : Prop where
  minDl : IntegerOption o "min_dl_shaper_rate_kbps" 1
  maxDl : IntegerOption o "max_dl_shaper_rate_kbps" 1
  minUl : IntegerOption o "min_ul_shaper_rate_kbps" 1
  maxUl : IntegerOption o "max_ul_shaper_rate_kbps" 1
  enabled : ∀ value, o["adaptive_ceiling_enabled"]? = some value → value = "0" ∨ value = "1"
  capDl : IntegerOption o "adaptive_ceiling_dl_cap_kbps" 0
  capUl : IntegerOption o "adaptive_ceiling_ul_cap_kbps" 0

def Config.CapsFit (c : Config) : Prop :=
  c.adaptiveCeilingEnabled = true → c.dl.maxShaperRateKbps ≤ c.dl.adaptiveCeilingCapKbps ∧
    c.ul.maxShaperRateKbps ≤ c.ul.adaptiveCeilingCapKbps

/-- **What the policy is read from.** -/
structure PolicyOf (o : Options) (minDl maxDl minUl maxUl capDl capUl : ℕ) (adaptive : Bool) :
    Prop where
  minDlRead : configuredIntegerRate o "min_dl_shaper_rate_kbps" defaultDl.minimum false = .ok minDl
  maxDlRead : configuredIntegerRate o "max_dl_shaper_rate_kbps" defaultDl.maximum false = .ok maxDl
  minUlRead : configuredIntegerRate o "min_ul_shaper_rate_kbps" defaultUl.minimum false = .ok minUl
  maxUlRead : configuredIntegerRate o "max_ul_shaper_rate_kbps" defaultUl.maximum false = .ok maxUl
  adaptiveRead : adaptiveOption o = .ok adaptive
  capDlRead : configuredIntegerRate o "adaptive_ceiling_dl_cap_kbps" maxDl true = .ok capDl
  capUlRead : configuredIntegerRate o "adaptive_ceiling_ul_cap_kbps" maxUl true = .ok capUl

theorem adaptiveOption_iff : (∃ b, adaptiveOption o = .ok b) ↔
    ∀ value, o["adaptive_ceiling_enabled"]? = some value → value = "0" ∨ value = "1" := by
  unfold adaptiveOption
  constructor
  · rintro ⟨b, hb⟩ value hvalue
    rw [hvalue] at hb
    by_contra hneither
    rw [not_or] at hneither
    simp [hneither.1, hneither.2] at hb
  · intro h
    cases hvalue : o["adaptive_ceiling_enabled"]? with
    | none => exact ⟨false, by simp⟩
    | some value =>
      rcases h value hvalue with rfl | rfl
      · exact ⟨false, by simp⟩
      · exact ⟨true, by simp⟩

theorem setBool_of_adaptive {b b' : Bool} (h : adaptiveOption o = .ok b)
    (hb : setBool o "adaptive_ceiling_enabled" false = .ok b') : b' = b := by
  unfold adaptiveOption at h
  unfold setBool at hb
  split at h
  · cases h
    rename_i hoff
    rcases hoff with hnone | hzero
    · rw [hnone] at hb
      exact (ok.inj hb).symm
    · rw [hzero] at hb
      have hword : readAs "adaptive_ceiling_enabled" (parseBool "0") = .ok false := by rfl
      exact (ok.inj (hword.symm.trans hb)).symm
  · split at h
    · cases h
      rename_i hone
      rw [hone] at hb
      have hword : readAs "adaptive_ceiling_enabled" (parseBool "1") = .ok true := by rfl
      exact (ok.inj (hword.symm.trans hb)).symm
    · cases h

theorem spelled_iff : (∃ minDl maxDl minUl maxUl capDl capUl adaptive,
    PolicyOf o minDl maxDl minUl maxUl capDl capUl adaptive) ↔ Spelled o := by
  constructor
  · rintro ⟨minDl, maxDl, minUl, maxUl, capDl, capUl, adaptive, h⟩
    exact ⟨(configuredIntegerRate_iff _ false).1 ⟨_, h.minDlRead⟩,
      (configuredIntegerRate_iff _ false).1 ⟨_, h.maxDlRead⟩,
      (configuredIntegerRate_iff _ false).1 ⟨_, h.minUlRead⟩,
      (configuredIntegerRate_iff _ false).1 ⟨_, h.maxUlRead⟩,
      adaptiveOption_iff.1 ⟨_, h.adaptiveRead⟩,
      (configuredIntegerRate_iff _ true).1 ⟨_, h.capDlRead⟩,
      (configuredIntegerRate_iff _ true).1 ⟨_, h.capUlRead⟩⟩
  · intro h
    obtain ⟨minDl, hminDl⟩ := (configuredIntegerRate_iff defaultDl.minimum false).2 h.minDl
    obtain ⟨maxDl, hmaxDl⟩ := (configuredIntegerRate_iff defaultDl.maximum false).2 h.maxDl
    obtain ⟨minUl, hminUl⟩ := (configuredIntegerRate_iff defaultUl.minimum false).2 h.minUl
    obtain ⟨maxUl, hmaxUl⟩ := (configuredIntegerRate_iff defaultUl.maximum false).2 h.maxUl
    obtain ⟨adaptive, hadaptive⟩ := adaptiveOption_iff.2 h.enabled
    obtain ⟨capDl, hcapDl⟩ := (configuredIntegerRate_iff maxDl true).2 h.capDl
    obtain ⟨capUl, hcapUl⟩ := (configuredIntegerRate_iff maxUl true).2 h.capUl
    exact ⟨minDl, maxDl, minUl, maxUl, capDl, capUl, adaptive, hminDl, hmaxDl, hminUl, hmaxUl,
      hadaptive, hcapDl, hcapUl⟩

def policyOf (minDl maxDl minUl maxUl capDl capUl : ℕ) (adaptive : Bool) : ManagedSqmRatePolicy :=
  { minimumDownloadKbps := minDl
    maximumDownloadKbps := if adaptive then max capDl maxDl else maxDl
    minimumUploadKbps := minUl
    maximumUploadKbps := if adaptive then max capUl maxUl else maxUl }

theorem managed_eq_ok {p : ManagedSqmRatePolicy} : managedSqmRatePolicyFromOptions o = .ok p ↔
    ∃ minDl maxDl minUl maxUl capDl capUl adaptive,
      PolicyOf o minDl maxDl minUl maxUl capDl capUl adaptive ∧ (minDl ≤ maxDl ∧ minUl ≤ maxUl) ∧
      (adaptive = true → maxDl ≤ capDl ∧ maxUl ≤ capUl) ∧
      p = policyOf minDl maxDl minUl maxUl capDl capUl adaptive ∧ p.validate = .ok () := by
  simp only [managedSqmRatePolicyFromOptions, bind_ok, check_ok, pure, Except.pure,
    Except.ok.injEq]
  constructor
  · rintro ⟨minDl, hminDl, maxDl, hmaxDl, minUl, hminUl, maxUl, hmaxUl, adaptive, hadaptive, capDl,
      hcapDl, capUl, hcapUl, _, horder, _, hcaps, _, hvalid, rfl⟩
    simp only [Bool.and_eq_true, decide_eq_true_eq, Bool.or_eq_true, Bool.not_eq_true'] at horder hcaps
    refine ⟨minDl, maxDl, minUl, maxUl, capDl, capUl, adaptive,
      ⟨hminDl, hmaxDl, hminUl, hmaxUl, hadaptive, hcapDl, hcapUl⟩, horder, fun hon => ?_, rfl, hvalid⟩
    rcases hcaps with hoff | hcaps
    · rw [hon] at hoff
      cases hoff
    · exact hcaps
  · rintro ⟨minDl, maxDl, minUl, maxUl, capDl, capUl, adaptive, h, horder, hcaps, rfl, hvalid⟩
    refine ⟨minDl, h.minDlRead, maxDl, h.maxDlRead, minUl, h.minUlRead, maxUl, h.maxUlRead, adaptive,
      h.adaptiveRead, capDl, h.capDlRead, capUl, h.capUlRead, (), ?_, (), ?_, (), hvalid, rfl⟩
    · simpa using horder
    · cases adaptive with
      | false => rfl
      | true => simpa using hcaps rfl

variable {minDl maxDl minUl maxUl capDl capUl : ℕ} {adaptive : Bool}

/-- **The numbers of the policy are those of the daemon.** -/
structure Agree (c : Config) (minDl maxDl minUl maxUl capDl capUl : ℕ) (adaptive : Bool) : Prop where
  minDl_eq : c.dl.minShaperRateKbps = minDl
  maxDl_eq : c.dl.maxShaperRateKbps = maxDl
  minUl_eq : c.ul.minShaperRateKbps = minUl
  maxUl_eq : c.ul.maxShaperRateKbps = maxUl
  capDl_eq : c.dl.adaptiveCeilingCapKbps = capDl
  capUl_eq : c.ul.adaptiveCeilingCapKbps = capUl
  adaptive_eq : c.adaptiveCeilingEnabled = adaptive

theorem PolicyOf.agree (h : PolicyOf o minDl maxDl minUl maxUl capDl capUl adaptive)
    (hread : ReadFrom o c) : Agree c minDl maxDl minUl maxUl capDl capUl adaptive := by
  have hmaxDl := setF64_of_configured h.maxDlRead hread.maxDl
  have hmaxUl := setF64_of_configured h.maxUlRead hread.maxUl
  have hcapDl := hread.capDl
  have hcapUl := hread.capUl
  rw [hmaxDl] at hcapDl
  rw [hmaxUl] at hcapUl
  exact ⟨setF64_of_configured h.minDlRead hread.minDl, hmaxDl,
    setF64_of_configured h.minUlRead hread.minUl, hmaxUl, setF64_of_configured h.capDlRead hcapDl,
    setF64_of_configured h.capUlRead hcapUl, setBool_of_adaptive h.adaptiveRead hread.enabled⟩

theorem Agree.ordered (h : Agree c minDl maxDl minUl maxUl capDl capUl adaptive)
    (hcore : c.validateCore = .ok ()) (hminDl : 1 ≤ minDl) (hminUl : 1 ≤ minUl) :
    minDl ≤ maxDl ∧ minUl ≤ maxUl := by
  simp only [validateCore, both_ok] at hcore
  obtain ⟨hdl, hul, -⟩ := hcore
  have hnonzero : ∀ {n : ℕ}, 1 ≤ n → (n : ℚ) ≠ 0 := fun hn => by exact_mod_cast (by omega)
  have hdl' := ordered_of_core hdl (by rw [h.minDl_eq]; exact hnonzero hminDl)
  have hul' := ordered_of_core hul (by rw [h.minUl_eq]; exact hnonzero hminUl)
  have hdlLe := hdl'.1.trans hdl'.2
  have hulLe := hul'.1.trans hul'.2
  rw [h.minDl_eq, h.maxDl_eq] at hdlLe
  rw [h.minUl_eq, h.maxUl_eq] at hulLe
  exact ⟨by exact_mod_cast hdlLe, by exact_mod_cast hulLe⟩

theorem Agree.capsFit (h : Agree c minDl maxDl minUl maxUl capDl capUl adaptive) :
    c.CapsFit ↔ (adaptive = true → maxDl ≤ capDl ∧ maxUl ≤ capUl) := by
  unfold Config.CapsFit
  rw [h.adaptive_eq, h.maxDl_eq, h.capDl_eq, h.maxUl_eq, h.capUl_eq, cast_le, cast_le]

theorem validateBounds_ok {minimum maximum : ℕ} {direction : String} :
    validateBounds minimum maximum direction = .ok () ↔
      1 ≤ minimum ∧ minimum ≤ maximum ∧ maximum ≤ maxRate := by
  simp [validateBounds, check_ok, one_le_iff_ne_zero, and_assoc]

theorem policyOf_valid (h : PolicyOf o minDl maxDl minUl maxUl capDl capUl adaptive)
    (hdl : minDl ≤ maxDl) (hul : minUl ≤ maxUl) :
    (policyOf minDl maxDl minUl maxUl capDl capUl adaptive).validate = .ok () := by
  have hmaxDl := configured_le h.maxDlRead (by decide)
  have hmaxUl := configured_le h.maxUlRead (by decide)
  have hcapDl := configured_le h.capDlRead hmaxDl
  have hcapUl := configured_le h.capUlRead hmaxUl
  have hminDl := one_le_configured h.minDlRead (by decide)
  have hminUl := one_le_configured h.minUlRead (by decide)
  simp only [ManagedSqmRatePolicy.validate, policyOf, both_ok, validateBounds_ok]
  cases adaptive with
  | false => exact ⟨⟨hminDl, hdl, hmaxDl⟩, hminUl, hul, hmaxUl⟩
  | true =>
    exact ⟨⟨hminDl, le_max_of_le_right hdl, max_le hcapDl hmaxDl⟩, hminUl, le_max_of_le_right hul,
      max_le hcapUl hmaxUl⟩

/-- **There is a policy exactly when the options are spelled so and the caps fit.** -/
theorem policy_iff (hread : ReadFrom o c) (hcore : c.validateCore = .ok ()) :
    (∃ p, managedSqmRatePolicyFromOptions o = .ok p) ↔ Spelled o ∧ c.CapsFit := by
  constructor
  · rintro ⟨p, hp⟩
    obtain ⟨minDl, maxDl, minUl, maxUl, capDl, capUl, adaptive, h, -, hcaps, -⟩ := managed_eq_ok.1 hp
    exact ⟨spelled_iff.1 ⟨_, _, _, _, _, _, _, h⟩, (h.agree hread).capsFit.2 hcaps⟩
  · rintro ⟨hspelled, hcaps⟩
    obtain ⟨minDl, maxDl, minUl, maxUl, capDl, capUl, adaptive, h⟩ := spelled_iff.2 hspelled
    have hagree := h.agree hread
    obtain ⟨hdl, hul⟩ := hagree.ordered hcore (one_le_configured h.minDlRead (by decide))
      (one_le_configured h.minUlRead (by decide))
    exact ⟨_, managed_eq_ok.2 ⟨_, _, _, _, _, _, _, h, ⟨hdl, hul⟩, hagree.capsFit.1 hcaps, rfl,
      policyOf_valid h hdl hul⟩⟩

theorem roundRate_natCast (n : ℕ) : roundRate (n : ℚ) = n := by
  have hfloor : ⌊(n : ℚ) + 1 / 2⌋ = n := by
    rw [Int.floor_eq_iff]
    constructor
    · norm_num
    · norm_num
  rw [roundRate_of_nonneg (cast_nonneg n), hfloor]
  rfl

theorem le_appliedRate {rate : ℚ} (h : (n : ℚ) ≤ roundRate rate) : n ≤ appliedRate rate := by
  have hfloor : (n : ℤ) ≤ ⌊max (roundRate rate) 1⌋ := by
    rw [Int.le_floor]
    exact_mod_cast h.trans (le_max_left _ _)
  unfold appliedRate
  omega

theorem appliedRate_le {rate : ℚ} (hn : 1 ≤ n) (hrate : 0 ≤ rate) (h : rate ≤ n) :
    appliedRate rate ≤ n := by
  have hround : roundRate rate ≤ n := roundRate_natCast n ▸ roundRate_mono hrate h
  have hmax : max (roundRate rate) 1 ≤ (n : ℚ) := max_le hround (by exact_mod_cast hn)
  have hfloor : ⌊max (roundRate rate) 1⌋ ≤ (n : ℤ) := by
    have := Int.floor_le_floor hmax
    rwa [Int.floor_natCast] at this
  unfold appliedRate
  omega

namespace RateDirection

variable {d : DirectionConfig} {s : RateDirection} {start : ℕ}

/-- A step, after `refresh_wire_packet_sizes` may have found another size. -/
def stepRefreshed (c : Config) (d : DirectionConfig) (s : RateDirection) (e : ℕ × ℕ × RateAction) :
    RateDirection :=
  s.step c { d with maxWirePacketSizeBits := e.1 } e.2

def floorRate (c : Config) (d : DirectionConfig) : ℚ :=
  min (max d.minShaperRateKbps 1) (new c d 0).adaptive.effectiveMaxKbps

/-- **The invariant** of a run of a direction whose ceiling may start below its minimum. -/
structure Within (c : Config) (d : DirectionConfig) (start : ℕ) (s : RateDirection) : Prop where
  keeps : (new c d start).adaptive.Keeps s.adaptive
  fixed : c.adaptiveCeilingEnabled = false → s.adaptive = (new c d start).adaptive
  floor_le : floorRate c d ≤ s.shaperKbps
  le_max : s.shaperKbps ≤ max d.baseShaperRateKbps s.adaptive.effectiveMaxKbps

/-- The rates of an adjusted direction that `validate_core` accepts. -/
structure Rates (d : DirectionConfig) : Prop where
  adjusted : d.adjustShaperRate = true
  one_le_min : 1 ≤ d.minShaperRateKbps
  min_le_base : d.minShaperRateKbps ≤ d.baseShaperRateKbps
  base_le_max : d.baseShaperRateKbps ≤ d.maxShaperRateKbps

theorem new_within (h : Rates d) (start : ℕ) : Within c d start (new c d start) := by
  have hmax : 1 ≤ d.maxShaperRateKbps := h.one_le_min.trans (h.min_le_base.trans h.base_le_max)
  refine ⟨.refl (ordered_new hmax _ _), fun _ => rfl, ?_, le_max_left _ _⟩
  exact (min_le_left _ _).trans (max_le h.min_le_base (h.one_le_min.trans h.min_le_base))

/-- **Every step keeps it.** -/
theorem Within.step (h : Within c d start s) (hadjust : d.adjustShaperRate = true)
    (e : ℕ × ℕ × RateAction) : Within c d start (stepRefreshed c d s e) := by
  obtain ⟨bits, now, a⟩ := e
  obtain ⟨hkeeps, hfixed⟩ := act_keeps (d := { d with maxWirePacketSizeBits := bits }) h.keeps
    h.fixed now a
  have hadaptive : (stepRefreshed c d s (bits, now, a)).adaptive
      = (s.act c { d with maxWirePacketSizeBits := bits } now a).adaptive := clampRates_adaptive
  have hshaper : (stepRefreshed c d s (bits, now, a)).shaperKbps = clampRate d.minShaperRateKbps
      (s.act c { d with maxWirePacketSizeBits := bits } now a).adaptive.effectiveMaxKbps
      (s.act c { d with maxWirePacketSizeBits := bits } now a).shaperKbps := clampRates_shaper hadjust
  have hfirst : (new c d 0).adaptive.effectiveMaxKbps
      ≤ (s.act c { d with maxWirePacketSizeBits := bits } now a).adaptive.effectiveMaxKbps := by
    calc (new c d 0).adaptive.effectiveMaxKbps = (new c d start).adaptive.initialSafeCeilingKbps := rfl
      _ = _ := hkeeps.initial.symm
      _ ≤ _ := hkeeps.ordered.initial_le
      _ ≤ _ := hkeeps.ordered.safe_le
  refine ⟨hadaptive ▸ hkeeps, fun hoff => hadaptive.trans (hfixed hoff), ?_, ?_⟩
  · rw [hshaper]
    exact le_min ((min_le_left _ _).trans (le_max_right _ _)) ((min_le_right _ _).trans hfirst)
  · rw [hshaper, hadaptive]
    exact (min_le_right _ _).trans (le_max_right _ _)

theorem run_within (h : Rates d) (start : ℕ) (events : List (ℕ × ℕ × RateAction)) :
    Within c d start (run (stepRefreshed c d) (new c d start) events) :=
  run_invariant (fun _ e hwithin => hwithin.step h.adjusted e) (new_within h start) events

def topRate (c : Config) (d : DirectionConfig) : ℚ :=
  if c.adaptiveCeilingEnabled then max d.adaptiveCeilingCapKbps d.maxShaperRateKbps
  else d.maxShaperRateKbps

theorem Within.le_top (h : Within c d start s) (hrates : Rates d) {top : ℕ} (htop : topRate c d = top) :
    s.shaperKbps ≤ top := by
  have hmax : 1 ≤ d.maxShaperRateKbps :=
    hrates.one_le_min.trans (hrates.min_le_base.trans hrates.base_le_max)
  have hbase : d.baseShaperRateKbps ≤ topRate c d := by
    unfold topRate
    split
    · exact hrates.base_le_max.trans (le_max_right _ _)
    · exact hrates.base_le_max
  rw [← htop]
  refine h.le_max.trans (max_le hbase ?_)
  cases henabled : c.adaptiveCeilingEnabled with
  | false =>
    rw [h.fixed henabled, topRate, henabled, if_neg (by decide)]
    calc (new c d start).adaptive.effectiveMaxKbps
        ≤ max d.maxShaperRateKbps 1 := (min_le_left _ _).trans (min_le_right _ _)
      _ = d.maxShaperRateKbps := max_eq_left hmax
  | true =>
    have hcap : (new c d start).adaptive.absoluteCapKbps = topRate c d := by
      rw [topRate, henabled, if_pos rfl]
      rfl
    rw [← hcap]
    refine h.keeps.capped (.inl ?_) (min_le_right _ _)
    rw [hcap, htop, roundRate_natCast]

def SafeFits (c : Config) (d : DirectionConfig) : Prop :=
  c.adaptiveCeilingEnabled = true → d.adaptiveCeilingEvidence ≠ "legacy_unverified" →
    d.minShaperRateKbps ≤ roundRate (max d.adaptiveCeilingSafeKbps 1)

theorem le_round_floor (h : Rates d) (hsafe : SafeFits c d) {minimum : ℕ}
    (hminimum : d.minShaperRateKbps = minimum) : (minimum : ℚ) ≤ roundRate (floorRate c d) := by
  have habove : ∀ rate, d.minShaperRateKbps ≤ rate → (minimum : ℚ) ≤ roundRate rate := by
    intro rate hrate
    rw [hminimum] at hrate
    exact roundRate_natCast minimum ▸ roundRate_mono (cast_nonneg _) hrate
  have hmax := h.min_le_base.trans h.base_le_max
  have hfirst : (minimum : ℚ) ≤ roundRate (max (verifiedSafe c d) 1) := by
    unfold verifiedSafe
    split
    · exact habove _ ((le_min h.min_le_base hmax).trans (le_max_left _ _))
    · rename_i hlegacy
      split
      · rename_i henabled
        rw [← hminimum]
        refine hsafe henabled fun hevidence => hlegacy ?_
        simp [henabled, hevidence]
      · exact habove _ (hmax.trans (le_max_left _ _))
  have hceiling : (minimum : ℚ) ≤ roundRate (new c d 0).adaptive.effectiveMaxKbps := by
    show (minimum : ℚ) ≤ roundRate (min (min (max (verifiedSafe c d) 1) (max d.maxShaperRateKbps 1))
      (max d.adaptiveCeilingCapKbps d.maxShaperRateKbps))
    rcases min_choice (min (max (verifiedSafe c d) 1) (max d.maxShaperRateKbps 1))
      (max d.adaptiveCeilingCapKbps d.maxShaperRateKbps) with heq | heq
    · rw [heq]
      rcases min_choice (max (verifiedSafe c d) 1) (max d.maxShaperRateKbps 1) with heq' | heq'
      · rw [heq']
        exact hfirst
      · rw [heq']
        exact habove _ (hmax.trans (le_max_left _ _))
    · rw [heq]
      exact habove _ (hmax.trans (le_max_right _ _))
  unfold floorRate
  rcases min_choice (max d.minShaperRateKbps 1) (new c d 0).adaptive.effectiveMaxKbps with heq | heq
  · rw [heq]
    exact habove _ (le_max_left _ _)
  · rw [heq]
    exact hceiling

/-- **The rounded rate lies between the bounds**, in every run. -/
theorem appliedRate_mem (h : Rates d) (hsafe : SafeFits c d) {minimum top : ℕ}
    (hminimum : d.minShaperRateKbps = minimum) (htop : topRate c d = top) (start : ℕ)
    (events : List (ℕ × ℕ × RateAction)) :
    minimum ≤ appliedRate (run (stepRefreshed c d) (new c d start) events).shaperKbps ∧
      appliedRate (run (stepRefreshed c d) (new c d start) events).shaperKbps ≤ top := by
  have hwithin := run_within (c := c) h start events
  have hmax : 1 ≤ d.maxShaperRateKbps := h.one_le_min.trans (h.min_le_base.trans h.base_le_max)
  have hordered : (new c d 0).adaptive.Ordered := ordered_new hmax _ _
  have hfloor : 0 ≤ floorRate c d := by
    refine zero_le_one.trans (le_min (le_max_right _ _) ?_)
    exact hordered.one_le_initial
  have htopOne : 1 ≤ top := by
    have hle : (1 : ℚ) ≤ topRate c d := by
      unfold topRate
      split
      · exact hmax.trans (le_max_right _ _)
      · exact hmax
    rw [htop] at hle
    exact_mod_cast hle
  refine ⟨le_appliedRate ?_, appliedRate_le htopOne (hfloor.trans hwithin.floor_le)
    (hwithin.le_top h htop)⟩
  exact (le_round_floor h hsafe hminimum).trans (roundRate_mono hfloor hwithin.floor_le)

end RateDirection

namespace RateDirection

theorem PolicyOf.bounds (h : PolicyOf o minDl maxDl minUl maxUl capDl capUl adaptive)
    (hread : ReadFrom o c) (isDl : Bool) :
    (c.direction isDl).minShaperRateKbps
        = ((policyOf minDl maxDl minUl maxUl capDl capUl adaptive).minimum isDl : ℕ) ∧
      topRate c (c.direction isDl)
        = ((policyOf minDl maxDl minUl maxUl capDl capUl adaptive).maximum isDl : ℕ) := by
  have hagree := h.agree hread
  cases isDl with
  | true =>
    refine ⟨hagree.minDl_eq, ?_⟩
    simp only [topRate, direction, if_true, hagree.adaptive_eq, hagree.capDl_eq,
      hagree.maxDl_eq, policyOf, ManagedSqmRatePolicy.maximum]
    split
    · exact (cast_max _ _).symm
    · rfl
  | false =>
    refine ⟨hagree.minUl_eq, ?_⟩
    simp only [topRate, direction, Bool.false_eq_true, if_false, hagree.adaptive_eq,
      hagree.capUl_eq, hagree.maxUl_eq, policyOf, ManagedSqmRatePolicy.maximum]
    split
    · exact (cast_max _ _).symm
    · rfl

theorem rates_of_core (hcore : c.validateCore = .ok ()) {isDl : Bool}
    (hadjust : (c.direction isDl).adjustShaperRate = true) : Rates (c.direction isDl) := by
  simp only [validateCore, both_ok] at hcore
  obtain ⟨hdl, hul, -⟩ := hcore
  cases isDl with
  | true =>
    obtain ⟨hone, hmin, hbase⟩ := validateRates_ok hdl hadjust
    exact ⟨hadjust, hone, hmin, hbase⟩
  | false =>
    obtain ⟨hone, hmin, hbase⟩ := validateRates_ok hul hadjust
    exact ⟨hadjust, hone, hmin, hbase⟩

/-- **What the attester admits.**  There is a policy exactly when the options are spelled as it
reads them and the caps are not below the maxima; and then every bandwidth of a run lies between its
bounds, provided a verified rate is not below the minimum. -/
theorem rate_admitted {o : Options} {c : Config} (h : fromUciValues o = .ok c) :
    ((∃ p, managedSqmRatePolicyFromOptions o = .ok p) ↔ Spelled o ∧ c.CapsFit) ∧
    ∀ p, managedSqmRatePolicyFromOptions o = .ok p → ∀ isDl,
      (c.direction isDl).adjustShaperRate = true → SafeFits c (c.direction isDl) →
      ∀ (start : ℕ) (events : List (ℕ × ℕ × RateAction)),
        p.minimum isDl ≤ appliedRate (run (stepRefreshed c (c.direction isDl))
          (new c (c.direction isDl) start) events).shaperKbps ∧
        appliedRate (run (stepRefreshed c (c.direction isDl))
          (new c (c.direction isDl) start) events).shaperKbps ≤ p.maximum isDl := by
  obtain ⟨hread, hcore⟩ := fromUciValues_ok h
  refine ⟨policy_iff hread hcore, fun p hp isDl hadjust hsafe start events => ?_⟩
  obtain ⟨minDl, maxDl, minUl, maxUl, capDl, capUl, adaptive, hpolicy, -, -, rfl, -⟩ :=
    managed_eq_ok.1 hp
  obtain ⟨hminimum, htop⟩ := PolicyOf.bounds hpolicy hread isDl
  exact appliedRate_mem (rates_of_core hcore hadjust) hsafe hminimum htop start events

/-- A download-only instance whose upload is explicitly unshaped. -/
def unshapedOptions : Options :=
  .ofList [("enabled", "1"), ("sqm_direction_mode", "download_only"),
    ("min_ul_shaper_rate_kbps", "0"), ("base_ul_shaper_rate_kbps", "0"),
    ("max_ul_shaper_rate_kbps", "0")]

theorem unshaped_refused :
    ((fromUciValues unshapedOptions).toOption.any fun c =>
      c.dl.adjustShaperRate && !c.ul.adjustShaperRate) = true ∧
    (managedSqmRatePolicyFromOptions unshapedOptions).toOption = none := by
  decide +kernel

def integerOptions : Options :=
  .ofList [("enabled", "yes"), ("adaptive_ceiling_enabled", "1"), ("min_dl_shaper_rate_kbps", "+6000"),
    ("base_dl_shaper_rate_kbps", "2.5e4"), ("adaptive_ceiling_dl_cap_kbps", "90000")]

def integerConfig : Config := (fromUciValues integerOptions).toOption.getD .defaults

theorem integerOptions_admitted :
    (managedSqmRatePolicyFromOptions integerOptions).toOption = some ⟨6000, 90000, 5000, 35000⟩ ∧
    ∀ (start : ℕ) (events : List (ℕ × ℕ × RateAction)),
      6000 ≤ appliedRate (run (stepRefreshed integerConfig (integerConfig.direction true))
        (new integerConfig (integerConfig.direction true) start) events).shaperKbps ∧
      appliedRate (run (stepRefreshed integerConfig (integerConfig.direction true))
        (new integerConfig (integerConfig.direction true) start) events).shaperKbps ≤ 90000 := by
  have hsome : (fromUciValues integerOptions).toOption.isSome = true := by decide +kernel
  have hok : fromUciValues integerOptions = .ok integerConfig := by
    refine ok_of_toOption ?_
    obtain ⟨c, hc⟩ := Option.isSome_iff_exists.1 hsome
    rw [integerConfig, hc, Option.getD_some]
  have hpolicy : (managedSqmRatePolicyFromOptions integerOptions).toOption
      = some ⟨6000, 90000, 5000, 35000⟩ := by decide +kernel
  have hlegacy : integerConfig.dl.adaptiveCeilingEvidence = "legacy_unverified" := by decide +kernel
  exact ⟨hpolicy, (rate_admitted hok).2 _ (ok_of_toOption hpolicy) true (by decide +kernel)
    (fun _ hother => absurd hlegacy hother)⟩

end RateDirection

end CakeAutorate.Controller
