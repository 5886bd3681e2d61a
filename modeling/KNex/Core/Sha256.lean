import Mathlib

/-!
# SHA-256

The hash of FIPS 180-4 on strings of bits: padding (5.1.1), parsing (5.2.1), the functions (4.1.2),
the message schedule and the compression (6.2.2), with words as 32-bit vectors. Numbers are written
and read most significant bit first (`bitsOf`, `natOf`).

`zeros_least` is the standard's condition on the number of zeros of the padding. The other lemmas
are what an implementation on bytes is compared by: how bits of numbers split (`bitsOf_add`), how a
string of bits is read (`natOf_append`, `natOf_bitsOf`), and how the hexadecimal digits of a word
are written (`hexDigits_eq_pad`).
-/
namespace KNex.Core.Sha256

/-! ## Bits -/

/-- The last `w` binary digits of a number, the most significant first. -/
def bitsOf : Nat → Nat → List Bool
  | 0, _ => []
  | w + 1, n => n.testBit w :: bitsOf w n

/-- The number that a string of bits denotes. -/
def natOf (bits : List Bool) : Nat := bits.foldl (fun n bit => 2 * n + bit.toNat) 0

/-- The bits of a string of bytes. -/
def bytesBits (bytes : List UInt8) : List Bool := bytes.flatMap fun byte => bitsOf 8 byte.toNat

@[simp] theorem length_bitsOf : ∀ w n : Nat, (bitsOf w n).length = w
  | 0, _ => rfl
  | w + 1, n => by rw [bitsOf, List.length_cons, length_bitsOf w n]

theorem bitsOf_add (n v : Nat) : ∀ u : Nat, bitsOf (u + v) n = bitsOf u (n / 2 ^ v) ++ bitsOf v n
  | 0 => by rw [Nat.zero_add]; rfl
  | u + 1 => by
    rw [show u + 1 + v = (u + v) + 1 by omega, bitsOf, bitsOf_add n v u, bitsOf,
      Nat.testBit_div_two_pow, List.cons_append, Nat.add_comm u v]

theorem bitsOf_mod (n : Nat) {k : Nat} : ∀ {w : Nat}, w ≤ k → bitsOf w (n % 2 ^ k) = bitsOf w n
  | 0, _ => rfl
  | w + 1, h => by
    rw [bitsOf, bitsOf, bitsOf_mod n (by omega), Nat.testBit_mod_two_pow]
    simp only [show w < k by omega, decide_true, Bool.true_and]

theorem natOf_foldl (bits : List Bool) : ∀ n : Nat,
    bits.foldl (fun n bit => 2 * n + bit.toNat) n = n * 2 ^ bits.length + natOf bits := by
  induction bits with
  | nil => intro n; simp [natOf]
  | cons bit bits ih =>
    intro n
    unfold natOf
    rw [List.foldl_cons, List.foldl_cons, ih, ih (2 * 0 + bit.toNat), List.length_cons,
      Nat.pow_succ]
    ring

theorem natOf_append (a b : List Bool) : natOf (a ++ b) = natOf a * 2 ^ b.length + natOf b := by
  rw [natOf, List.foldl_append, natOf_foldl]
  rfl

theorem natOf_bitsOf (n : Nat) : ∀ w : Nat, natOf (bitsOf w n) = n % 2 ^ w
  | 0 => by simp [bitsOf, natOf, Nat.mod_one]
  | w + 1 => by
    rw [bitsOf, ← List.singleton_append, natOf_append, natOf_bitsOf n w, length_bitsOf,
      show natOf [n.testBit w] = (n.testBit w).toNat by simp [natOf],
      Nat.testBit_eq_decide_div_mod_eq, Nat.pow_succ, Nat.mod_mul]
    rcases Nat.mod_two_eq_zero_or_one (n / 2 ^ w) with h | h
    · simp [h]
    · simp [h, Nat.add_comm]

theorem bytesBits_append (a b : List UInt8) : bytesBits (a ++ b) = bytesBits a ++ bytesBits b :=
  List.flatMap_append

@[simp] theorem length_bytesBits (bytes : List UInt8) :
    (bytesBits bytes).length = 8 * bytes.length := by
  induction bytes with
  | nil => rfl
  | cons byte bytes ih =>
    rw [bytesBits, List.flatMap_cons, List.length_append, length_bitsOf]
    rw [bytesBits] at ih
    rw [ih, List.length_cons]
    omega

theorem drop_bytesBits (bytes : List UInt8) : ∀ n : Nat,
    (bytesBits bytes).drop (8 * n) = bytesBits (bytes.drop n) := by
  induction bytes with
  | nil => intro n; simp [bytesBits]
  | cons byte bytes ih =>
    intro n
    cases n with
    | zero => rfl
    | succ n =>
      have hcons : bytesBits (byte :: bytes) = bitsOf 8 byte.toNat ++ bytesBits bytes := rfl
      rw [hcons, List.drop_succ_cons, ← ih n, show 8 * (n + 1) = 8 + 8 * n by omega,
        ← List.drop_drop, List.drop_left' (length_bitsOf 8 byte.toNat)]

/-! ## The hash -/

abbrev Word := BitVec 32

def ch (x y z : Word) : Word := (x &&& y) ^^^ (~~~x &&& z)

def maj (x y z : Word) : Word := (x &&& y) ^^^ (x &&& z) ^^^ (y &&& z)

def bigSigma0 (x : Word) : Word := x.rotateRight 2 ^^^ x.rotateRight 13 ^^^ x.rotateRight 22

def bigSigma1 (x : Word) : Word := x.rotateRight 6 ^^^ x.rotateRight 11 ^^^ x.rotateRight 25

def smallSigma0 (x : Word) : Word := x.rotateRight 7 ^^^ x.rotateRight 18 ^^^ (x >>> 3)

def smallSigma1 (x : Word) : Word := x.rotateRight 17 ^^^ x.rotateRight 19 ^^^ (x >>> 10)

/-- The first 32 bits of the fractional parts of the cube roots of the first 64 primes. -/
def constants : List Word := [
  0x428a2f98, 0x71374491, 0xb5c0fbcf, 0xe9b5dba5, 0x3956c25b, 0x59f111f1, 0x923f82a4, 0xab1c5ed5,
  0xd807aa98, 0x12835b01, 0x243185be, 0x550c7dc3, 0x72be5d74, 0x80deb1fe, 0x9bdc06a7, 0xc19bf174,
  0xe49b69c1, 0xefbe4786, 0x0fc19dc6, 0x240ca1cc, 0x2de92c6f, 0x4a7484aa, 0x5cb0a9dc, 0x76f988da,
  0x983e5152, 0xa831c66d, 0xb00327c8, 0xbf597fc7, 0xc6e00bf3, 0xd5a79147, 0x06ca6351, 0x14292967,
  0x27b70a85, 0x2e1b2138, 0x4d2c6dfc, 0x53380d13, 0x650a7354, 0x766a0abb, 0x81c2c92e, 0x92722c85,
  0xa2bfe8a1, 0xa81a664b, 0xc24b8b70, 0xc76c51a3, 0xd192e819, 0xd6990624, 0xf40e3585, 0x106aa070,
  0x19a4c116, 0x1e376c08, 0x2748774c, 0x34b0bcb5, 0x391c0cb3, 0x4ed8aa4a, 0x5b9cca4f, 0x682e6ff3,
  0x748f82ee, 0x78a5636f, 0x84c87814, 0x8cc70208, 0x90befffa, 0xa4506ceb, 0xbef9a3f7, 0xc67178f2]

/-- The hash value between two blocks, and the working variables within one. -/
structure Hash where
  a : Word
  b : Word
  c : Word
  d : Word
  e : Word
  f : Word
  g : Word
  h : Word
  deriving DecidableEq

def Hash.words (v : Hash) : List Word := [v.a, v.b, v.c, v.d, v.e, v.f, v.g, v.h]

/-- The first 32 bits of the fractional parts of the square roots of the first eight primes. -/
def initial : Hash where
  a := 0x6a09e667
  b := 0xbb67ae85
  c := 0x3c6ef372
  d := 0xa54ff53a
  e := 0x510e527f
  f := 0x9b05688c
  g := 0x1f83d9ab
  h := 0x5be0cd19

/-- The message schedule of a block of sixteen words. -/
def schedule (block : Nat → Word) (t : Nat) : Word :=
  if t < 16 then block t
  else smallSigma1 (schedule block (t - 2)) + schedule block (t - 7) +
    smallSigma0 (schedule block (t - 15)) + schedule block (t - 16)

def round (v : Hash) (k w : Word) : Hash :=
  let t1 := v.h + bigSigma1 v.e + ch v.e v.f v.g + k + w
  let t2 := bigSigma0 v.a + maj v.a v.b v.c
  { a := t1 + t2, b := v.a, c := v.b, d := v.c, e := v.d + t1, f := v.e, g := v.f, h := v.g }

def Hash.add (u v : Hash) : Hash where
  a := u.a + v.a
  b := u.b + v.b
  c := u.c + v.c
  d := u.d + v.d
  e := u.e + v.e
  f := u.f + v.f
  g := u.g + v.g
  h := u.h + v.h

def compress (v : Hash) (block : Nat → Word) : Hash :=
  v.add ((List.range 64).foldl (fun v t => round v (constants.getD t 0) (schedule block t)) v)

/-- The number of zeros between the bit `1` and the length. -/
def zeros (length : Nat) : Nat := (960 - (length + 1) % 512) % 512

def pad (message : List Bool) : List Bool :=
  message ++ true :: List.replicate (zeros message.length) false ++ bitsOf 64 message.length

/-- Word `t` of block `i`. -/
def blockWord (padded : List Bool) (i t : Nat) : Word :=
  BitVec.ofNat 32 (natOf ((padded.drop (512 * i + 32 * t)).take 32))

def hash (message : List Bool) : Hash :=
  (List.range ((pad message).length / 512)).foldl
    (fun v i => compress v (blockWord (pad message) i)) initial

/-- `zeros` is the smallest solution of the standard's equation. -/
theorem zeros_least (length : Nat) : (length + 1 + zeros length) % 512 = 448 ∧
    ∀ k < zeros length, (length + 1 + k) % 512 ≠ 448 := by
  unfold zeros
  exact ⟨by omega, fun k hk => by omega⟩

/-! ## Hexadecimal digits -/

/-- The last `w` hexadecimal digits of a number, the most significant first. -/
def hexDigits : Nat → Nat → List Char
  | 0, _ => []
  | w + 1, n => hexDigits w (n / 16) ++ [Nat.digitChar (n % 16)]

theorem hexDigits_zero : ∀ w : Nat, hexDigits w 0 = List.replicate w '0'
  | 0 => rfl
  | w + 1 => by
    rw [hexDigits, Nat.zero_div, hexDigits_zero w, List.replicate_succ']
    rfl

/-- The digits of a number without leading zeros, padded. -/
theorem hexDigits_eq_pad : ∀ {w n : Nat}, 0 < w → n < 16 ^ w →
    List.replicate (w - (Nat.toDigits 16 n).length) '0' ++ Nat.toDigits 16 n = hexDigits w n
  | w + 1, n, _, hn => by
    by_cases h16 : n < 16
    · rw [Nat.toDigits_of_lt_base h16, hexDigits, Nat.div_eq_of_lt h16, hexDigits_zero,
        Nat.mod_eq_of_lt h16]
      rfl
    · have hw : 0 < w := by
        rcases Nat.eq_zero_or_pos w with rfl | hw
        · omega
        · exact hw
      have hdiv : n / 16 < 16 ^ w := by
        rw [Nat.div_lt_iff_lt_mul (by omega)]
        rwa [Nat.pow_succ] at hn
      rw [Nat.toDigits_of_base_le (by omega) (by omega), hexDigits, ← hexDigits_eq_pad hw hdiv,
        List.length_append, List.length_singleton, Nat.add_sub_add_right, List.append_assoc]

end KNex.Core.Sha256
