import Mathlib

namespace Hbird.Sha256

/-- The working variables of the compression, or the hash between two blocks. -/
structure State where
  a : UInt32
  b : UInt32
  c : UInt32
  d : UInt32
  e : UInt32
  f : UInt32
  g : UInt32
  h : UInt32
  deriving DecidableEq, Repr

def roundConstants : List UInt32 :=
  [0x428a2f98, 0x71374491, 0xb5c0fbcf, 0xe9b5dba5, 0x3956c25b, 0x59f111f1, 0x923f82a4,
    0xab1c5ed5, 0xd807aa98, 0x12835b01, 0x243185be, 0x550c7dc3, 0x72be5d74, 0x80deb1fe,
    0x9bdc06a7, 0xc19bf174, 0xe49b69c1, 0xefbe4786, 0x0fc19dc6, 0x240ca1cc, 0x2de92c6f,
    0x4a7484aa, 0x5cb0a9dc, 0x76f988da, 0x983e5152, 0xa831c66d, 0xb00327c8, 0xbf597fc7,
    0xc6e00bf3, 0xd5a79147, 0x06ca6351, 0x14292967, 0x27b70a85, 0x2e1b2138, 0x4d2c6dfc,
    0x53380d13, 0x650a7354, 0x766a0abb, 0x81c2c92e, 0x92722c85, 0xa2bfe8a1, 0xa81a664b,
    0xc24b8b70, 0xc76c51a3, 0xd192e819, 0xd6990624, 0xf40e3585, 0x106aa070, 0x19a4c116,
    0x1e376c08, 0x2748774c, 0x34b0bcb5, 0x391c0cb3, 0x4ed8aa4a, 0x5b9cca4f, 0x682e6ff3,
    0x748f82ee, 0x78a5636f, 0x84c87814, 0x8cc70208, 0x90befffa, 0xa4506ceb, 0xbef9a3f7,
    0xc67178f2]

def initial : State :=
  ⟨0x6a09e667, 0xbb67ae85, 0x3c6ef372, 0xa54ff53a, 0x510e527f, 0x9b05688c, 0x1f83d9ab, 0x5be0cd19⟩

def rotateRight (x n : UInt32) : UInt32 := (x >>> n) ||| (x <<< (32 - n))

def bigEndian64 (n : UInt64) : List UInt8 :=
  ([56, 48, 40, 32, 24, 16, 8, 0] : List UInt64).map fun i => (n >>> i).toUInt8

/-- The data, `0x80`, zeros up to 56 modulo 64, and the number of bits. -/
def pad (data : List UInt8) : List UInt8 :=
  data ++ 0x80 :: List.replicate ((119 - data.length % 64) % 64) 0 ++
    bigEndian64 (UInt64.ofNat data.length * 8)

def word : List UInt8 → UInt32
  | [p, q, r, s] => p.toUInt32 <<< 24 ||| q.toUInt32 <<< 16 ||| r.toUInt32 <<< 8 ||| s.toUInt32
  | _ => 0

/-- Put `n` more words before those that are there, the last one first. -/
def extend : Nat → List UInt32 → List UInt32
  | 0, w => w
  | n + 1, w =>
    let x := w.getD 14 0
    let y := w.getD 1 0
    let s0 := rotateRight x 7 ^^^ rotateRight x 18 ^^^ (x >>> 3)
    let s1 := rotateRight y 17 ^^^ rotateRight y 19 ^^^ (y >>> 10)
    extend n ((w.getD 15 0 + s0 + w.getD 6 0 + s1) :: w)

def schedule (chunk : List UInt8) : List UInt32 :=
  (extend 48 ((chunk.toChunks 4).map word).reverse).reverse

def round (v : State) (kw : UInt32 × UInt32) : State :=
  let s1 := rotateRight v.e 6 ^^^ rotateRight v.e 11 ^^^ rotateRight v.e 25
  let ch := (v.e &&& v.f) ^^^ (~~~v.e &&& v.g)
  let t1 := v.h + s1 + ch + kw.1 + kw.2
  let s0 := rotateRight v.a 2 ^^^ rotateRight v.a 13 ^^^ rotateRight v.a 22
  let maj := (v.a &&& v.b) ^^^ (v.a &&& v.c) ^^^ (v.b &&& v.c)
  ⟨t1 + (s0 + maj), v.a, v.b, v.c, v.d + t1, v.e, v.f, v.g⟩

def compress (s : State) (chunk : List UInt8) : State :=
  let v := (roundConstants.zip (schedule chunk)).foldl round s
  ⟨s.a + v.a, s.b + v.b, s.c + v.c, s.d + v.d, s.e + v.e, s.f + v.f, s.g + v.g, s.h + v.h⟩

def hexDigits : List Char :=
  ['0', '1', '2', '3', '4', '5', '6', '7', '8', '9', 'a', 'b', 'c', 'd', 'e', 'f']

/-- Eight digits, zeros in front included. -/
def hex (x : UInt32) : List Char :=
  ([28, 24, 20, 16, 12, 8, 4, 0] : List UInt32).map fun i => hexDigits.getD ((x >>> i).toNat % 16) '0'

def words (s : State) : List UInt32 := [s.a, s.b, s.c, s.d, s.e, s.f, s.g, s.h]

/-- `sha256_hex`, with the padding in closed form and the schedule as a list. -/
def sha256Hex (data : List UInt8) : List Char :=
  (words (((pad data).toChunks 64).foldl compress initial)).flatMap hex

theorem mem_hexDigits {x : UInt32} {c : Char} (hc : c ∈ hex x) : c ∈ hexDigits := by
  obtain ⟨i, -, rfl⟩ := List.mem_map.mp hc
  have hlt : (x >>> i).toNat % 16 < hexDigits.length := Nat.mod_lt _ (by decide)
  rw [List.getD_eq_getElem _ _ hlt]
  exact List.getElem_mem hlt

theorem length_sha256Hex (data : List UInt8) : (sha256Hex data).length = 64 := by
  simp [sha256Hex, words, hex]

theorem mem_sha256Hex {data : List UInt8} {c : Char} (hc : c ∈ sha256Hex data) : c ∈ hexDigits := by
  obtain ⟨x, -, hc⟩ := List.mem_flatMap.mp hc
  exact mem_hexDigits hc

/-- The digest of the empty text. -/
example : sha256Hex [] =
    "e3b0c44298fc1c149afbf4c8996fb92427ae41e4649b934ca495991b7852b855".toList := by
  decide +kernel

end Hbird.Sha256
