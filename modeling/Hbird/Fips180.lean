import Mathlib

namespace Hbird.Fips180

abbrev Word := BitVec 32

def ch (x y z : Word) : Word := (x &&& y) ^^^ (~~~x &&& z)

def maj (x y z : Word) : Word := (x &&& y) ^^^ (x &&& z) ^^^ (y &&& z)

def bigSigma0 (x : Word) : Word := x.rotateRight 2 ^^^ x.rotateRight 13 ^^^ x.rotateRight 22

def bigSigma1 (x : Word) : Word := x.rotateRight 6 ^^^ x.rotateRight 11 ^^^ x.rotateRight 25

def smallSigma0 (x : Word) : Word := x.rotateRight 7 ^^^ x.rotateRight 18 ^^^ (x >>> 3)

def smallSigma1 (x : Word) : Word := x.rotateRight 17 ^^^ x.rotateRight 19 ^^^ (x >>> 10)

/-- The first 64 primes. -/
def primes : List Nat := (List.range 312).filter fun p => decide p.Prime

theorem primes_eq : primes =
    [2, 3, 5, 7, 11, 13, 17, 19, 23, 29, 31, 37, 41, 43, 47, 53, 59, 61, 67, 71, 73, 79, 83, 89, 97,
      101, 103, 107, 109, 113, 127, 131, 137, 139, 149, 151, 157, 163, 167, 173, 179, 181, 191, 193,
      197, 199, 211, 223, 227, 229, 233, 239, 241, 251, 257, 263, 269, 271, 277, 281, 283, 293, 307,
      311] := by
  decide +kernel

/-- The first 32 bits of the fractional part of a root. -/
def fractionBits (degree p : Nat) : Word := BitVec.ofNat 32 (Nat.nthRoot degree (p * 2 ^ (32 * degree)))

/-- The constants `K_t`, from the cube roots of the primes. -/
def constant (t : Nat) : Word := fractionBits 3 (primes.getD t 0)

/-- The eight words of a hash value. -/
structure Hash where
  a : Word
  b : Word
  c : Word
  d : Word
  e : Word
  f : Word
  g : Word
  h : Word
  deriving DecidableEq

/-- The initial hash value, from the square roots of the first eight primes. -/
def initial : Hash :=
  let root (t : Nat) : Word := fractionBits 2 (primes.getD t 0)
  ⟨root 0, root 1, root 2, root 3, root 4, root 5, root 6, root 7⟩

/-- A bit string as a number, the first bit the highest. -/
def ofBits (bits : List Bool) : Nat := bits.foldl (fun n b => 2 * n + b.toNat) 0

/-- The bits of a word, the highest first. -/
def toBits {w : Nat} (x : BitVec w) : List Bool := (List.range w).map x.getMsbD

/-- The number of zeros behind the single one: the least that makes the length 448 modulo 512. -/
def zeros (l : Nat) : Nat := (447 + 512 - l % 512) % 512

/-- The message, a one, zeros, and the length in 64 bits. -/
def pad (message : List Bool) : List Bool :=
  message ++ true :: List.replicate (zeros message.length) false ++
    toBits (BitVec.ofNat 64 message.length)

/-- Block `i` of 512 bits. -/
def block (bits : List Bool) (i : Nat) : List Bool := (bits.drop (512 * i)).take 512

/-- Word `t` of a block. -/
def blockWord (bits : List Bool) (t : Nat) : Word :=
  BitVec.ofNat 32 (ofBits ((bits.drop (32 * t)).take 32))

/-- The message schedule `W_t`. -/
def schedule (m : Nat → Word) (t : Nat) : Word :=
  if t < 16 then m t
  else smallSigma1 (schedule m (t - 2)) + schedule m (t - 7) + smallSigma0 (schedule m (t - 15)) +
    schedule m (t - 16)

/-- The working variables after one more round. -/
def round (v : Hash) (k w : Word) : Hash :=
  let t1 := v.h + bigSigma1 v.e + ch v.e v.f v.g + k + w
  let t2 := bigSigma0 v.a + maj v.a v.b v.c
  ⟨t1 + t2, v.a, v.b, v.c, v.d + t1, v.e, v.f, v.g⟩

def compress (s : Hash) (bits : List Bool) : Hash :=
  let v := (List.range 64).foldl (fun v t => round v (constant t) (schedule (blockWord bits) t)) s
  ⟨v.a + s.a, v.b + s.b, v.c + s.c, v.d + s.d, v.e + s.e, v.f + s.f, v.g + s.g, v.h + s.h⟩

def Hash.words (s : Hash) : List Word := [s.a, s.b, s.c, s.d, s.e, s.f, s.g, s.h]

/-- SHA-256 of a bit string. The standard has it for messages below 2^64 bits; a longer one gets
the lowest 64 bits of its length. -/
def sha256 (message : List Bool) : List Bool :=
  let bits := pad message
  let final := (List.range (bits.length / 512)).foldl (fun s i => compress s (block bits i)) initial
  final.words.flatMap toBits

/-- Four bits a digit. -/
def hexOfBits : List Bool → List Char
  | a :: b :: c :: d :: bits => Nat.digitChar (ofBits [a, b, c, d]) :: hexOfBits bits
  | _ => []

/-- The bits of a byte string, each byte with its highest bit first. -/
def bitsOf (data : List UInt8) : List Bool := data.flatMap fun b => toBits b.toBitVec

theorem length_toBits {w : Nat} (x : BitVec w) : (toBits x).length = w := by simp [toBits]

theorem length_bitsOf (data : List UInt8) : (bitsOf data).length = 8 * data.length := by
  induction data with
  | nil => rfl
  | cons b data ih =>
    rw [bitsOf, List.flatMap_cons, List.length_append, length_toBits, List.length_cons]
    rw [bitsOf] at ih
    omega

theorem bitsOf_append (data data' : List UInt8) : bitsOf (data ++ data') = bitsOf data ++ bitsOf data' :=
  List.flatMap_append

theorem foldl_bits (bits : List Bool) (n : Nat) :
    bits.foldl (fun n b => 2 * n + b.toNat) n = n * 2 ^ bits.length + ofBits bits := by
  induction bits generalizing n with
  | nil => simp [ofBits]
  | cons b bits ih =>
    have hb : ofBits (b :: bits) = b.toNat * 2 ^ bits.length + ofBits bits := by
      simpa [ofBits] using ih b.toNat
    rw [List.foldl_cons, ih, hb, List.length_cons, pow_succ]
    ring

theorem ofBits_append (bits bits' : List Bool) :
    ofBits (bits ++ bits') = ofBits bits * 2 ^ bits'.length + ofBits bits' := by
  rw [ofBits, List.foldl_append, foldl_bits]
  rfl

theorem toNat_getMsbD {w : Nat} (x : BitVec w) {i : Nat} (hi : i < w) :
    (x.getMsbD i).toNat = x.toNat / 2 ^ (w - 1 - i) % 2 := by
  rw [BitVec.getMsbD, decide_eq_true hi, Bool.true_and, BitVec.getLsbD, Nat.toNat_testBit]

/-- The bits of a word stand for the word. -/
theorem ofBits_toBits {w : Nat} (x : BitVec w) : ofBits (toBits x) = x.toNat := by
  have h : ∀ n ≤ w, ofBits ((List.range n).map x.getMsbD) = x.toNat / 2 ^ (w - n) := by
    intro n hn
    induction n with
    | zero => simp [ofBits, Nat.div_eq_of_lt x.isLt]
    | succ n ih =>
      have hlast : ofBits [x.getMsbD n] = x.toNat / 2 ^ (w - (n + 1)) % 2 := by
        have hw : w - 1 - n = w - (n + 1) := by omega
        rw [← hw, ← toNat_getMsbD x (by omega)]
        simp [ofBits]
      have hhalf : x.toNat / 2 ^ (w - n) = x.toNat / 2 ^ (w - (n + 1)) / 2 := by
        have hw : w - n = w - (n + 1) + 1 := by omega
        rw [Nat.div_div_eq_div_mul, ← pow_succ, hw]
      rw [List.range_succ, List.map_append, List.map_singleton, ofBits_append, ih (by omega), hlast,
        hhalf, List.length_singleton]
      omega
  rw [toBits, h w le_rfl, Nat.sub_self, pow_zero, Nat.div_one]

theorem ofBits_lt (bits : List Bool) : ofBits bits < 2 ^ bits.length := by
  induction bits with
  | nil => simp [ofBits]
  | cons b bits ih =>
    have hb : ofBits (b :: bits) = b.toNat * 2 ^ bits.length + ofBits bits :=
      (foldl_bits bits (2 * 0 + b.toNat)).trans (by simp)
    have hle : b.toNat ≤ 1 := Bool.toNat_le b
    rw [hb, List.length_cons, pow_succ]
    nlinarith

/-- A bit string is known by its length and the number that it stands for. -/
theorem ofBits_injective {bits bits' : List Bool} (hlen : bits.length = bits'.length)
    (h : ofBits bits = ofBits bits') : bits = bits' := by
  induction bits generalizing bits' with
  | nil => exact (List.length_eq_zero_iff.mp hlen.symm).symm
  | cons b bits ih =>
    cases bits' with
    | nil => cases hlen
    | cons b' bits' =>
      have hlen' : bits.length = bits'.length := Nat.succ.inj hlen
      have hb : b.toNat * 2 ^ bits.length + ofBits bits =
          b'.toNat * 2 ^ bits.length + ofBits bits' := by
        have h₁ := (foldl_bits bits (2 * 0 + b.toNat)).symm
        have h₂ := (foldl_bits bits' (2 * 0 + b'.toNat)).symm
        rw [← hlen'] at h₂
        simpa using h₁.trans (h.trans h₂.symm)
      have hlt := ofBits_lt bits
      have hlt' := ofBits_lt bits'
      rw [← hlen'] at hlt'
      cases b <;> cases b' <;> simp only [Bool.toNat_true, Bool.toNat_false] at hb
      · rw [ih hlen' (by omega)]
      · omega
      · omega
      · rw [ih hlen' (by omega)]

theorem ofBits_bitsOf_cons (b : UInt8) (data : List UInt8) :
    ofBits (bitsOf (b :: data)) = b.toNat * 2 ^ (8 * data.length) + ofBits (bitsOf data) := by
  rw [← length_bitsOf, ← UInt8.toNat_toBitVec, ← ofBits_toBits, ← ofBits_append]
  rfl

end Hbird.Fips180
