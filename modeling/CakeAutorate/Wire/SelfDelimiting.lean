/-
# Self-delimiting codes

A code reads a projection if two of its words, whatever follows them, start equal texts only when
the projections agree and the same text follows. Such codes are closed under concatenation, counted
lists, optional values and length-prefixed records. Lengths are four bytes, and the words that are
compared are shorter than what four bytes can say.
-/

import Mathlib.Algebra.Order.Ring.Nat
import Mathlib.Data.List.Basic
import Mathlib.Data.UInt

namespace CakeAutorate.Wire

open List Nat

/-- The `n` bytes of a number, the most significant first. -/
def beBytes : ℕ → ℕ → List UInt8
  | 0, _ => []
  | n + 1, v => UInt8.ofNat (v / 256 ^ n) :: beBytes n v

@[simp] theorem length_beBytes (n v : ℕ) : (beBytes n v).length = n := by
  induction n with
  | zero => rfl
  | succ n ih => rw [beBytes, length_cons, ih]

theorem beBytes_inj {n v w : ℕ} (h : beBytes n v = beBytes n w) : v % 256 ^ n = w % 256 ^ n := by
  induction n with
  | zero => rw [pow_zero, mod_one, mod_one]
  | succ n ih =>
    obtain ⟨hbyte, hrest⟩ := cons.inj h
    have hhigh : v / 256 ^ n % 256 = w / 256 ^ n % 256 := by
      have hnat := congrArg UInt8.toNat hbyte
      simpa using hnat
    have hlow := ih hrest
    rw [pow_succ, mod_mul, mod_mul, hlow, hhigh]

theorem beBytes_inj_of_lt {n v w : ℕ} (hv : v < 256 ^ n) (hw : w < 256 ^ n)
    (h : beBytes n v = beBytes n w) : v = w := by
  have hmod := beBytes_inj h
  rwa [mod_eq_of_lt hv, mod_eq_of_lt hw] at hmod

variable {α β γ : Type*}

/-- Lengths and counts are four bytes. -/
def wordBound : ℕ := 256 ^ 4

/-- Code that ends itself: it tells `π a` and what follows. -/
def Reads (f : α → List UInt8) (π : α → β) : Prop :=
  ∀ a b r s, (f a).length < wordBound → (f b).length < wordBound → f a ++ r = f b ++ s →
    π a = π b ∧ r = s

variable {f : α → List UInt8} {π : α → β}

theorem Reads.mono {ρ : α → γ} (h : Reads f π) (hπρ : ∀ a b, π a = π b → ρ a = ρ b) :
    Reads f ρ := by
  intro a b r s ha hb heq
  obtain ⟨hπ, hrs⟩ := h a b r s ha hb heq
  exact ⟨hπρ a b hπ, hrs⟩

theorem Reads.comp (h : Reads f π) (g : γ → α) : Reads (fun c => f (g c)) fun c => π (g c) :=
  fun a b => h (g a) (g b)

theorem Reads.append {g : α → List UInt8} {ρ : α → γ} (hf : Reads f π) (hg : Reads g ρ) :
    Reads (fun a => f a ++ g a) fun a => (π a, ρ a) := by
  intro a b r s ha hb heq
  rw [length_append] at ha hb
  rw [append_assoc, append_assoc] at heq
  obtain ⟨hπ, hrest⟩ := hf a b _ _ (by omega) (by omega) heq
  obtain ⟨hρ, hrs⟩ := hg a b r s (by omega) (by omega) hrest
  exact ⟨Prod.ext hπ hρ, hrs⟩

theorem reads_fixed (n : ℕ) (hlength : ∀ a, (f a).length = n) (hinj : ∀ a b, f a = f b → π a = π b) :
    Reads f π := by
  intro a b r s _ _ heq
  obtain ⟨hfg, hrs⟩ := append_inj heq (by rw [hlength, hlength])
  exact ⟨hinj a b hfg, hrs⟩

theorem reads_const (w : List UInt8) : Reads (fun _ : α => w) fun _ => () :=
  reads_fixed w.length (fun _ => rfl) fun _ _ _ => rfl

theorem reads_u16 : Reads (fun v : UInt16 => beBytes 2 v.toNat) id := by
  refine reads_fixed 2 (fun v => length_beBytes 2 _) fun v w h => ?_
  exact UInt16.toNat_inj.mp (beBytes_inj_of_lt v.toNat_lt w.toNat_lt h)

theorem reads_u32 : Reads (fun v : UInt32 => beBytes 4 v.toNat) id := by
  refine reads_fixed 4 (fun v => length_beBytes 4 _) fun v w h => ?_
  exact UInt32.toNat_inj.mp (beBytes_inj_of_lt v.toNat_lt w.toNat_lt h)

theorem reads_u64 : Reads (fun v : UInt64 => beBytes 8 v.toNat) id := by
  refine reads_fixed 8 (fun v => length_beBytes 8 _) fun v w h => ?_
  exact UInt64.toNat_inj.mp (beBytes_inj_of_lt v.toNat_lt w.toNat_lt h)

/-- A length, then the bytes. -/
def sized (w : List UInt8) : List UInt8 := beBytes 4 w.length ++ w

@[simp] theorem length_sized (w : List UInt8) : (sized w).length = 4 + w.length := by
  rw [sized, length_append, length_beBytes]

/-- **A length and what follows it.** -/
theorem reads_sized : Reads sized id := by
  intro v w r s hv hw heq
  rw [length_sized] at hv hw
  rw [sized, sized, append_assoc, append_assoc] at heq
  obtain ⟨hlength, hrest⟩ := append_inj heq (by simp)
  unfold wordBound at hv hw
  have hsame : v.length = w.length := beBytes_inj_of_lt (by omega) (by omega) hlength
  exact append_inj hrest hsame

theorem Reads.sized (h : Reads f π) : Reads (fun a => sized (f a)) π := by
  intro a b r s ha hb heq
  obtain ⟨hword, hrs⟩ := reads_sized (f a) (f b) r s ha hb heq
  rw [length_sized] at ha hb
  obtain ⟨hπ, -⟩ := h a b [] [] (by omega) (by omega) (congrArg (· ++ []) hword)
  exact ⟨hπ, hrs⟩

/-- A byte that says whether there is a value, then the value. -/
def optionCode (f : α → List UInt8) : Option α → List UInt8
  | none => [0]
  | some a => 1 :: f a

theorem Reads.optionCode (h : Reads f π) : Reads (optionCode f) (Option.map π) := by
  intro a b r s ha hb heq
  cases a with
  | none =>
    cases b with
    | none => exact ⟨rfl, (cons.inj heq).2⟩
    | some b => exact absurd (cons.inj heq).1 (by decide)
  | some a =>
    cases b with
    | none => exact absurd (cons.inj heq).1 (by decide)
    | some b =>
      rw [Wire.optionCode, length_cons] at ha hb
      obtain ⟨hπ, hrs⟩ := h a b r s (by omega) (by omega) (cons.inj heq).2
      exact ⟨congrArg some hπ, hrs⟩

theorem Reads.flatMap (h : Reads f π) :
    ∀ (as bs : List α) (r s : List UInt8), as.length = bs.length →
      (as.flatMap f).length < wordBound → (bs.flatMap f).length < wordBound →
      as.flatMap f ++ r = bs.flatMap f ++ s → as.map π = bs.map π ∧ r = s := by
  intro as
  induction as with
  | nil =>
    intro bs r s hlength _ _ heq
    obtain rfl := length_eq_zero_iff.mp hlength.symm
    exact ⟨rfl, heq⟩
  | cons a as ih =>
    intro bs r s hlength ha hb heq
    cases bs with
    | nil => simp at hlength
    | cons b bs =>
      rw [flatMap_cons, length_append] at ha hb
      rw [flatMap_cons, flatMap_cons, append_assoc, append_assoc] at heq
      obtain ⟨hπ, hrest⟩ := h a b _ _ (by omega) (by omega) heq
      have hlength' : as.length = bs.length := by simpa using hlength
      obtain ⟨hmap, hrs⟩ := ih bs r s hlength' (by omega) (by omega) hrest
      exact ⟨by rw [map_cons, map_cons, hπ, hmap], hrs⟩

/-- A count, then the codes of the values. -/
def counted (f : α → List UInt8) (as : List α) : List UInt8 :=
  beBytes 4 as.length ++ as.flatMap f

/-- Every value is written with a byte at least. -/
def Nonempty (f : α → List UInt8) : Prop := ∀ a, 0 < (f a).length

theorem length_le_flatMap (h : Nonempty f) (as : List α) : as.length ≤ (as.flatMap f).length := by
  induction as with
  | nil => exact le_refl 0
  | cons a as ih =>
    have ha := h a
    rw [flatMap_cons, length_append, length_cons]
    omega

theorem Reads.counted (h : Reads f π) (hne : Nonempty f) : Reads (counted f) (List.map π) := by
  intro as bs r s ha hb heq
  rw [Wire.counted, length_append, length_beBytes] at ha hb
  rw [Wire.counted, Wire.counted, append_assoc, append_assoc] at heq
  obtain ⟨hcount, hrest⟩ := append_inj heq (by simp)
  have hsize := length_le_flatMap hne as
  have hsize' := length_le_flatMap hne bs
  unfold wordBound at ha hb
  have hlength : as.length = bs.length := beBytes_inj_of_lt (by omega) (by omega) hcount
  exact h.flatMap as bs r s hlength (by unfold wordBound; omega) (by unfold wordBound; omega) hrest

end CakeAutorate.Wire
