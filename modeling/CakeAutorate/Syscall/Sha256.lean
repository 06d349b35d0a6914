/-
# SHA-256

The digest of FIPS 180-4 as a function on bytes, and its lower-case hex form,
which is what the sources store and compare.  The proofs use of it only that a
digest in hex has 64 digits.
-/

import CakeAutorate.Syscall.Json
import Mathlib.Algebra.Group.Nat.Defs

namespace CakeAutorate.Syscall

open List UInt8

def hexDigit (b : UInt8) : Bool := (0x30 ≤ b && b ≤ 0x39) || (0x61 ≤ b && b ≤ 0x66)

namespace Sha256

def roundConstants : List UInt32 :=
  [0x428a2f98, 0x71374491, 0xb5c0fbcf, 0xe9b5dba5, 0x3956c25b, 0x59f111f1, 0x923f82a4, 0xab1c5ed5,
   0xd807aa98, 0x12835b01, 0x243185be, 0x550c7dc3, 0x72be5d74, 0x80deb1fe, 0x9bdc06a7, 0xc19bf174,
   0xe49b69c1, 0xefbe4786, 0x0fc19dc6, 0x240ca1cc, 0x2de92c6f, 0x4a7484aa, 0x5cb0a9dc, 0x76f988da,
   0x983e5152, 0xa831c66d, 0xb00327c8, 0xbf597fc7, 0xc6e00bf3, 0xd5a79147, 0x06ca6351, 0x14292967,
   0x27b70a85, 0x2e1b2138, 0x4d2c6dfc, 0x53380d13, 0x650a7354, 0x766a0abb, 0x81c2c92e, 0x92722c85,
   0xa2bfe8a1, 0xa81a664b, 0xc24b8b70, 0xc76c51a3, 0xd192e819, 0xd6990624, 0xf40e3585, 0x106aa070,
   0x19a4c116, 0x1e376c08, 0x2748774c, 0x34b0bcb5, 0x391c0cb3, 0x4ed8aa4a, 0x5b9cca4f, 0x682e6ff3,
   0x748f82ee, 0x78a5636f, 0x84c87814, 0x8cc70208, 0x90befffa, 0xa4506ceb, 0xbef9a3f7, 0xc67178f2]

/-- The eight words of the state. -/
structure Words where
  a : UInt32
  b : UInt32
  c : UInt32
  d : UInt32
  e : UInt32
  f : UInt32
  g : UInt32
  h : UInt32

def initial : Words :=
  ⟨0x6a09e667, 0xbb67ae85, 0x3c6ef372, 0xa54ff53a, 0x510e527f, 0x9b05688c, 0x1f83d9ab, 0x5be0cd19⟩

/-- Rotation to the right, `0 < n < 32`. -/
def rotr (x : UInt32) (n : UInt32) : UInt32 := (x >>> n) ||| (x <<< (32 - n))

def pad (message : Bytes) : Bytes :=
  let zeros := (119 - message.length % 64) % 64
  let bits := 8 * message.length
  message ++ 0x80 :: replicate zeros 0 ++ (range 8).map fun i => ofNat (bits / 2 ^ (8 * (7 - i)))

def words : Bytes → List UInt32
  | b₀ :: b₁ :: b₂ :: b₃ :: rest =>
    ((b₀.toUInt32 <<< 24) ||| (b₁.toUInt32 <<< 16) ||| (b₂.toUInt32 <<< 8) ||| b₃.toUInt32) ::
      words rest
  | _ => []

def nextWord (w : List UInt32) : UInt32 :=
  let w₂ := w.getD 1 0
  let w₇ := w.getD 6 0
  let w₁₅ := w.getD 14 0
  let w₁₆ := w.getD 15 0
  let s₀ := rotr w₁₅ 7 ^^^ rotr w₁₅ 18 ^^^ (w₁₅ >>> 3)
  let s₁ := rotr w₂ 17 ^^^ rotr w₂ 19 ^^^ (w₂ >>> 10)
  w₁₆ + s₀ + w₇ + s₁

/-- The schedule extended by `n` words, latest first. -/
def extend : ℕ → List UInt32 → List UInt32
  | 0, w => w
  | n + 1, w => extend n (nextWord w :: w)

def round (s : Words) (k w : UInt32) : Words :=
  let s₁ := rotr s.e 6 ^^^ rotr s.e 11 ^^^ rotr s.e 25
  let ch := (s.e &&& s.f) ^^^ (~~~s.e &&& s.g)
  let t₁ := s.h + s₁ + ch + k + w
  let s₀ := rotr s.a 2 ^^^ rotr s.a 13 ^^^ rotr s.a 22
  let maj := (s.a &&& s.b) ^^^ (s.a &&& s.c) ^^^ (s.b &&& s.c)
  ⟨t₁ + (s₀ + maj), s.a, s.b, s.c, s.d + t₁, s.e, s.f, s.g⟩

def compress (s : Words) (block : Bytes) : Words :=
  let schedule := (extend 48 (words block).reverse).reverse
  let t := (roundConstants.zip schedule).foldl (fun t kw => round t kw.1 kw.2) s
  ⟨s.a + t.a, s.b + t.b, s.c + t.c, s.d + t.d, s.e + t.e, s.f + t.f, s.g + t.g, s.h + t.h⟩

def compressAll : ℕ → Words → Bytes → Words
  | 0, s, _ => s
  | n + 1, s, bytes => compressAll n (compress s (bytes.take 64)) (bytes.drop 64)

def digit (n : ℕ) : UInt8 := if n % 16 < 10 then ofNat (0x30 + n % 16) else ofNat (0x57 + n % 16)

def hexWord (w : UInt32) : Bytes := (range 8).map fun i => digit (w.toNat / 16 ^ (7 - i))

end Sha256

open Sha256 in
def sha256 (message : Bytes) : Bytes :=
  let padded := pad message
  let s := compressAll (padded.length / 64) initial padded
  [s.a, s.b, s.c, s.d, s.e, s.f, s.g, s.h].flatMap hexWord

theorem Sha256.hexDigit_digit (n : ℕ) : hexDigit (digit n) = true := by
  have hall : ∀ m < 16, hexDigit (digit m) = true := by decide
  have := hall (n % 16) (Nat.mod_lt _ (by decide))
  rwa [digit, Nat.mod_mod, ← digit] at this

theorem sha256_length (message : Bytes) : (sha256 message).length = 64 := by
  simp [sha256, Sha256.hexWord, flatMap]

theorem plainByte_of_hexDigit {b : UInt8} (h : hexDigit b = true) : Json.plainByte b = true := by
  simp only [hexDigit, Bool.or_eq_true, Bool.and_eq_true, decide_eq_true_eq, UInt8.le_iff_toNat_le]
    at h
  simp only [Json.plainByte, Bool.and_eq_true, decide_eq_true_eq, bne_iff_ne, ne_eq,
    UInt8.le_iff_toNat_le, UInt8.lt_iff_toNat_lt, ← UInt8.toNat_inj]
  simp only [UInt8.reduceToNat] at h ⊢
  omega

theorem plain_of_hex {value : Bytes} (h : value.all hexDigit = true) :
    value.all Json.plainByte = true := by
  rw [all_eq_true] at h ⊢
  exact fun b hb => plainByte_of_hexDigit (h b hb)

theorem sha256_hex (message : Bytes) : (sha256 message).all hexDigit = true := by
  simp [sha256, Sha256.hexWord, Sha256.hexDigit_digit, flatMap]

end CakeAutorate.Syscall
