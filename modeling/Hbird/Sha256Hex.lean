import Hbird.Fips180
import Hbird.Sha256

namespace Hbird.Sha256Hex

open Hbird.Sha256 (State initial roundConstants rotateRight round word hex words bigEndian64)

/-- `while msg.len() % 64 != 56 { msg.push(0); }` -/
def pushZeros (msg : List UInt8) : List UInt8 :=
  if msg.length % 64 = 56 then msg else pushZeros (msg ++ [0])
termination_by (56 + 64 - msg.length % 64) % 64
decreasing_by
  rw [List.length_append, List.length_singleton]
  omega

/-- The padded message. -/
def padded (data : List UInt8) : List UInt8 :=
  pushZeros (data ++ [0x80]) ++ bigEndian64 (UInt64.ofNat data.length * 8)

/-- `chunks_exact`: what is left of the last chunk is dropped. -/
def chunksExact {α : Type} (n : Nat) (l : List α) : List (List α) :=
  if 0 < n ∧ n ≤ l.length then l.take n :: chunksExact n (l.drop n) else []
termination_by l.length
decreasing_by
  rw [List.length_drop]
  omega

/-- `for (i, word) in chunk.chunks_exact(4).enumerate() { w[i] = …; }` -/
def loadWords (w : List UInt32) (chunk : List UInt8) : List UInt32 :=
  (chunksExact 4 chunk).zipIdx.foldl (fun w p => w.set p.2 (word p.1)) w

/-- `w[i]` from those in front of it. -/
def scheduleWord (w : List UInt32) (i : Nat) : UInt32 :=
  let x := w.getD (i - 15) 0
  let y := w.getD (i - 2) 0
  let s0 := rotateRight x 7 ^^^ rotateRight x 18 ^^^ (x >>> 3)
  let s1 := rotateRight y 17 ^^^ rotateRight y 19 ^^^ (y >>> 10)
  w.getD (i - 16) 0 + s0 + w.getD (i - 7) 0 + s1

/-- `for i in 16..64 { w[i] = …; }` -/
def extendWords (w : List UInt32) : List UInt32 :=
  (List.range' 16 48).foldl (fun w i => w.set i (scheduleWord w i)) w

/-- `for i in 0..64 { … }` over the working variables. -/
def rounds (w : List UInt32) (h : State) : State :=
  (List.range 64).foldl (fun v i => round v (roundConstants.getD i 0, w.getD i 0)) h

/-- `h[0] = h[0].wrapping_add(a);` and so on. -/
def addState (h v : State) : State :=
  ⟨h.a + v.a, h.b + v.b, h.c + v.c, h.d + v.d, h.e + v.e, h.f + v.f, h.g + v.g, h.h + v.h⟩

/-- One turn of the loop over the blocks, with the hash and the schedule that the last turn left. -/
def block (s : State × List UInt32) (chunk : List UInt8) : State × List UInt32 :=
  let w := extendWords (loadWords s.2 chunk)
  (addState s.1 (rounds w s.1), w)

def sha256Hex (data : List UInt8) : List Char :=
  (words ((chunksExact 64 (padded data)).foldl block (initial, List.replicate 64 0)).1).flatMap hex

section Padding

open Fips180

variable {α : Type}

theorem pushZeros_eq (msg : List UInt8) :
    pushZeros msg = msg ++ List.replicate ((56 + 64 - msg.length % 64) % 64) 0 := by
  fun_induction pushZeros msg with
  | case1 msg h => simp [h]
  | case2 msg h ih =>
    have hcount : (56 + 64 - msg.length % 64) % 64 =
        (56 + 64 - (msg ++ [0]).length % 64) % 64 + 1 := by
      rw [List.length_append, List.length_singleton]
      omega
    rw [ih, hcount, List.replicate_succ, List.append_assoc]
    rfl

theorem length_padded (data : List UInt8) : (padded data).length % 64 = 0 := by
  rw [padded, pushZeros_eq]
  simp only [List.length_append, List.length_replicate, bigEndian64, List.length_map,
    List.length_cons, List.length_nil]
  omega

theorem chunksExact_append {n : Nat} (hn : 0 < n) {c l : List α} (hc : c.length = n) :
    chunksExact n (c ++ l) = c :: chunksExact n l := by
  rw [chunksExact, if_pos ⟨hn, by rw [List.length_append, hc]; omega⟩, List.take_left' hc,
    List.drop_left' hc]

/-- Chunks of a list whose length is a multiple leave nothing out. -/
theorem flatten_chunksExact {n : Nat} (hn : 0 < n) (l : List α) (h : l.length % n = 0) :
    (chunksExact n l).flatten = l := by
  fun_induction chunksExact n l with
  | case1 l hl ih =>
    have hrest : (l.drop n).length % n = 0 := by
      rw [List.length_drop, ← Nat.mod_eq_sub_mod hl.2]
      exact h
    rw [List.flatten_cons, ih hrest, List.take_append_drop]
  | case2 l hl =>
    have hlt : l.length < n := by omega
    rw [Nat.mod_eq_of_lt hlt] at h
    rw [List.length_eq_zero_iff.mp h]
    rfl

theorem length_of_mem_chunksExact {n : Nat} {c l : List α} (hc : c ∈ chunksExact n l) :
    c.length = n := by
  fun_induction chunksExact n l with
  | case1 l hl ih =>
    obtain rfl | hc := List.mem_cons.mp hc
    · exact List.length_take_of_le hl.2
    · exact ih hc
  | case2 l hl => cases hc

theorem bitsOf_zeros (n : Nat) : bitsOf (List.replicate n 0) = List.replicate (8 * n) false := by
  induction n with
  | zero => rfl
  | succ n ih =>
    have hzero : bitsOf [0] = List.replicate 8 false := by decide
    rw [List.replicate_succ, ← List.singleton_append, bitsOf_append, ih, hzero, List.replicate_append_replicate]
    congr 1
    omega

theorem bitsOf_bigEndian64 (x : UInt64) : bitsOf (bigEndian64 x) = toBits x.toBitVec := by
  refine ofBits_injective (by rw [length_bitsOf, length_toBits]; rfl) ?_
  have hx : x.toNat < 2 ^ 64 := x.toNat_lt
  have hnil : ofBits (bitsOf []) = 0 := rfl
  rw [ofBits_toBits, UInt64.toNat_toBitVec]
  simp only [bigEndian64, List.map_cons, List.map_nil, ofBits_bitsOf_cons, List.length_cons,
    List.length_nil, UInt64.toNat_toUInt8, UInt64.toNat_shiftRight, UInt64.reduceToNat,
    Nat.shiftRight_eq_div_pow, hnil, Nat.reduceMod, Nat.reducePow, Nat.reduceMul, Nat.reduceAdd]
  omega

theorem bitsOf_padded (data : List UInt8) : bitsOf (padded data) = pad (bitsOf data) := by
  have hone : bitsOf [0x80] = true :: List.replicate 7 false := by decide
  have hlength : (UInt64.ofNat data.length * 8).toBitVec = BitVec.ofNat 64 (bitsOf data).length := by
    rw [length_bitsOf]
    apply BitVec.eq_of_toNat_eq
    simp
    omega
  have hzeros : 7 + 8 * ((56 + 64 - (data ++ [0x80]).length % 64) % 64) = zeros (bitsOf data).length := by
    rw [length_bitsOf, List.length_append, List.length_singleton, zeros]
    omega
  rw [padded, pushZeros_eq, bitsOf_append, bitsOf_append, bitsOf_append, bitsOf_bigEndian64, bitsOf_zeros,
    hone, hlength, pad, ← hzeros, List.replicate_add]
  simp only [List.append_assoc, List.cons_append]

end Padding

section Words

open Fips180

theorem toBitVec_rotateRight (x n : UInt32) (h : 0 < n.toNat ∧ n.toNat < 32) :
    (rotateRight x n).toBitVec = x.toBitVec.rotateRight n.toNat := by
  have hn : n.toNat % 32 = n.toNat := Nat.mod_eq_of_lt h.2
  have hsub : (32 - n).toNat = 32 - n.toNat := by
    rw [UInt32.toNat_sub_of_le]
    · rfl
    · rw [UInt32.le_iff_toNat_le]
      exact h.2.le
  have hm : (32 - n.toNat) % 32 = 32 - n.toNat := Nat.mod_eq_of_lt (by omega)
  apply BitVec.eq_of_toNat_eq
  rw [BitVec.rotateRight_def, hn, UInt32.toNat_toBitVec, rotateRight, UInt32.toNat_or,
    UInt32.toNat_shiftRight, UInt32.toNat_shiftLeft, hsub, hn, hm, BitVec.toNat_or,
    BitVec.toNat_ushiftRight, BitVec.toNat_shiftLeft, UInt32.toNat_toBitVec]

theorem or_shiftLeft (a : Nat) {b i : Nat} (hb : b < 2 ^ i) : a * 2 ^ i ||| b = a * 2 ^ i + b := by
  rw [← Nat.shiftLeft_eq, Nat.shiftLeft_add_eq_or_of_lt hb]

theorem toBitVec_word {chunk : List UInt8} (h : chunk.length = 4) :
    (word chunk).toBitVec = BitVec.ofNat 32 (ofBits (bitsOf chunk)) := by
  match chunk, h with
  | [p, q, r, s], _ =>
    have hnil : ofBits (bitsOf []) = 0 := rfl
    have hp : p.toNat < 256 := p.toNat_lt
    have hq : q.toNat < 256 := q.toNat_lt
    have hr : r.toNat < 256 := r.toNat_lt
    have hs : s.toNat < 256 := s.toNat_lt
    have hshift : ∀ n i : Nat, n < 256 → i ≤ 24 → n <<< (i % 32) % 2 ^ 32 = n * 2 ^ i := by
      intro n i hn hi
      have hpow : 2 ^ i ≤ 2 ^ 24 := Nat.pow_le_pow_right (by decide) hi
      rw [Nat.mod_eq_of_lt (by omega : i < 32), Nat.shiftLeft_eq, Nat.mod_eq_of_lt]
      calc n * 2 ^ i ≤ n * 2 ^ 24 := Nat.mul_le_mul_left n hpow
        _ < 2 ^ 32 := by omega
    have hpq : p.toNat * 2 ^ 24 ||| q.toNat * 2 ^ 16 = (p.toNat * 256 + q.toNat) * 2 ^ 16 := by
      rw [or_shiftLeft _ (by omega)]
      ring
    have hpqr : (p.toNat * 256 + q.toNat) * 2 ^ 16 ||| r.toNat * 2 ^ 8 =
        ((p.toNat * 256 + q.toNat) * 256 + r.toNat) * 2 ^ 8 := by
      rw [or_shiftLeft _ (by omega)]
      ring
    have hpqrs : ((p.toNat * 256 + q.toNat) * 256 + r.toNat) * 2 ^ 8 ||| s.toNat =
        ((p.toNat * 256 + q.toNat) * 256 + r.toNat) * 2 ^ 8 + s.toNat := or_shiftLeft _ hs
    apply BitVec.eq_of_toNat_eq
    simp only [ofBits_bitsOf_cons, hnil, List.length_cons, List.length_nil, word,
      UInt32.toNat_toBitVec, BitVec.toNat_ofNat, UInt32.toNat_or, UInt32.toNat_shiftLeft,
      UInt8.toNat_toUInt32, UInt32.reduceToNat]
    rw [hshift _ 24 hp (by decide), hshift _ 16 hq (by decide), hshift _ 8 hr (by decide), hpq, hpqr,
      hpqrs]
    omega

theorem toNat_getMsbD_four (x : UInt32) (i : Nat) (hi : i < 29) :
    ofBits [x.toBitVec.getMsbD i, x.toBitVec.getMsbD (i + 1), x.toBitVec.getMsbD (i + 2),
      x.toBitVec.getMsbD (i + 3)] = x.toNat / 2 ^ (28 - i) % 16 := by
  have hbit : ∀ j, j < 4 → (x.toBitVec.getMsbD (i + j)).toNat = x.toNat / 2 ^ (28 - i) / 2 ^ (3 - j) % 2 := by
    intro j hj
    have hexp : 32 - 1 - (i + j) = 28 - i + (3 - j) := by omega
    rw [toNat_getMsbD _ (by omega), hexp, pow_add, ← Nat.div_div_eq_div_mul, UInt32.toNat_toBitVec]
  have h0 := hbit 0 (by omega)
  have h1 := hbit 1 (by omega)
  have h2 := hbit 2 (by omega)
  have h3 := hbit 3 (by omega)
  simp only [Nat.add_zero] at h0
  simp only [ofBits, List.foldl_cons, List.foldl_nil, h0, h1, h2, h3]
  omega

theorem hexOfBits_toBits (x : UInt32) : hexOfBits (toBits x.toBitVec) = hex x := by
  have hdigit : ∀ n < 16, Nat.digitChar n = Sha256.hexDigits.getD n '0' := by decide
  have hrange : List.range 32 = [0, 1, 2, 3, 4, 5, 6, 7, 8, 9, 10, 11, 12, 13, 14, 15, 16, 17, 18,
    19, 20, 21, 22, 23, 24, 25, 26, 27, 28, 29, 30, 31] := by decide
  have hfour : ∀ i, i < 29 → Nat.digitChar (ofBits [x.toBitVec.getMsbD i, x.toBitVec.getMsbD (i + 1),
      x.toBitVec.getMsbD (i + 2), x.toBitVec.getMsbD (i + 3)]) =
      Sha256.hexDigits.getD (x.toNat / 2 ^ (28 - i) % 16) '0' := by
    intro i hi
    rw [toNat_getMsbD_four x i hi, hdigit _ (Nat.mod_lt _ (by decide))]
  have hshift : ∀ i : UInt32, i.toNat < 32 → (x >>> i).toNat = x.toNat / 2 ^ i.toNat := by
    intro i hi
    rw [UInt32.toNat_shiftRight, Nat.mod_eq_of_lt hi, Nat.shiftRight_eq_div_pow]
  rw [toBits, hrange]
  simp only [List.map_cons, List.map_nil, hexOfBits, hex, hfour 0 (by decide), hfour 4 (by decide),
    hfour 8 (by decide), hfour 12 (by decide), hfour 16 (by decide), hfour 20 (by decide),
    hfour 24 (by decide), hfour 28 (by decide)]
  rw [hshift 28 (by decide), hshift 24 (by decide), hshift 20 (by decide), hshift 16 (by decide),
    hshift 12 (by decide), hshift 8 (by decide), hshift 4 (by decide), hshift 0 (by decide)]
  rfl

end Words

section Schedule

open Fips180

variable {α : Type}

theorem chunksExact_eq_map {n : Nat} (hn : 0 < n) (l : List α) :
    chunksExact n l = (List.range (l.length / n)).map fun i => (l.drop (n * i)).take n := by
  fun_induction chunksExact n l with
  | case1 l hl ih =>
    have hlen : l.length / n = (l.drop n).length / n + 1 := by
      rw [List.length_drop, Nat.div_eq_sub_div hn hl.2]
    rw [ih, hlen, List.range_succ_eq_map, List.map_cons, List.map_map, Nat.mul_zero, List.drop_zero]
    refine congrArg _ (List.map_congr_left fun i _ => ?_)
    rw [Function.comp_apply, List.drop_drop, Nat.succ_eq_add_one, Nat.mul_add, Nat.mul_one, Nat.add_comm]
  | case2 l hl =>
    rw [Nat.div_eq_of_lt (by omega)]
    rfl

theorem drop_bitsOf (data : List UInt8) (n : Nat) : (bitsOf data).drop (8 * n) = bitsOf (data.drop n) := by
  induction n generalizing data with
  | zero => rfl
  | succ n ih =>
    cases data with
    | nil => rfl
    | cons b data =>
      have hb : (toBits b.toBitVec).length = 8 := length_toBits _
      rw [List.drop_succ_cons, ← ih, Nat.mul_add, Nat.mul_one, Nat.add_comm, ← List.drop_drop]
      exact congrArg (List.drop (8 * n)) (List.drop_left' hb)

theorem take_bitsOf (data : List UInt8) (n : Nat) : (bitsOf data).take (8 * n) = bitsOf (data.take n) := by
  induction n generalizing data with
  | zero => rfl
  | succ n ih =>
    cases data with
    | nil => rfl
    | cons b data =>
      have hb : (toBits b.toBitVec).length = 8 := length_toBits _
      have hcons : ∀ data, bitsOf (b :: data) = toBits b.toBitVec ++ bitsOf data := fun _ => rfl
      rw [List.take_succ_cons, hcons, hcons, ← ih, List.take_append, hb, List.take_of_length_le (by omega)]
      congr 2

theorem getD_set (w : List UInt32) (i t : Nat) (x : UInt32) (hi : i < w.length) :
    (w.set i x).getD t 0 = if t = i then x else w.getD t 0 := by
  rw [List.getD_eq_getElem?_getD, List.getElem?_set]
  by_cases ht : i = t
  · subst ht
    simp [hi]
  · have ht' : t ≠ i := fun h => ht h.symm
    simp [ht, ht', List.getD_eq_getElem?_getD]

theorem getD_loaded (cs : List (List UInt8)) (k : Nat) (w : List UInt32) (hk : k + cs.length ≤ w.length) :
    ((cs.zipIdx k).foldl (fun w p => w.set p.2 (word p.1)) w).length = w.length ∧
      ∀ t, ((cs.zipIdx k).foldl (fun w p => w.set p.2 (word p.1)) w).getD t 0 =
        if k ≤ t ∧ t < k + cs.length then word (cs.getD (t - k) []) else w.getD t 0 := by
  induction cs generalizing k w with
  | nil =>
    refine ⟨rfl, fun t => ?_⟩
    rw [if_neg (by rw [List.length_nil]; omega)]
    rfl
  | cons c cs ih =>
    rw [List.length_cons] at hk
    obtain ⟨hlen, hget⟩ := ih (k + 1) (w.set k (word c)) (by rw [List.length_set]; omega)
    rw [List.zipIdx_cons, List.foldl_cons]
    refine ⟨by rw [hlen, List.length_set], fun t => ?_⟩
    rw [hget t, getD_set _ _ _ _ (by omega), List.length_cons]
    by_cases ht : t = k
    · subst ht
      rw [if_neg (by omega), if_pos rfl, if_pos (by omega), Nat.sub_self]
      rfl
    · by_cases hin : k + 1 ≤ t ∧ t < k + 1 + cs.length
      · have hsub : t - k = t - (k + 1) + 1 := by omega
        rw [if_pos hin, if_pos (by omega), hsub]
        rfl
      · rw [if_neg hin, if_neg ht, if_neg (by omega)]

/-- The words of a block, as the standard numbers them. -/
theorem loadWords_spec {w : List UInt32} (hw : w.length = 64) {chunk : List UInt8}
    (hchunk : chunk.length = 64) : (loadWords w chunk).length = 64 ∧
      ∀ t < 16, ((loadWords w chunk).getD t 0).toBitVec = blockWord (bitsOf chunk) t := by
  have hchunks := chunksExact_eq_map (by decide : 0 < 4) chunk
  rw [hchunk] at hchunks
  have hlen : (chunksExact 4 chunk).length = 16 := by
    rw [hchunks]
    simp
  obtain ⟨hlength, hget⟩ := getD_loaded (chunksExact 4 chunk) 0 w (by omega)
  refine ⟨hlength.trans hw, fun t ht => ?_⟩
  have hword : (chunksExact 4 chunk).getD t [] = (chunk.drop (4 * t)).take 4 := by
    rw [hchunks]
    simp [List.getD_eq_getElem?_getD, ht]
  have hbits : (bitsOf chunk).drop (32 * t) = bitsOf (chunk.drop (4 * t)) := by
    rw [← drop_bitsOf, ← Nat.mul_assoc]
  rw [loadWords, hget t, if_pos (by omega), Nat.sub_zero, hword, blockWord, hbits,
    toBitVec_word (by rw [List.length_take, List.length_drop]; omega)]
  exact congrArg (fun bits => BitVec.ofNat 32 (ofBits bits)) (take_bitsOf _ 4).symm

theorem scheduleWord_spec {w : List UInt32} {m : Nat → Word} {i : Nat} (hi : 16 ≤ i)
    (hw : ∀ t < i, (w.getD t 0).toBitVec = schedule m t) :
    (scheduleWord w i).toBitVec = schedule m i := by
  rw [schedule, if_neg (by omega), ← hw (i - 2) (by omega), ← hw (i - 7) (by omega),
    ← hw (i - 15) (by omega), ← hw (i - 16) (by omega)]
  have hshift : ∀ x n : UInt32, n.toNat < 32 → (x >>> n).toBitVec = x.toBitVec >>> n.toNat := by
    intro x n hn
    apply BitVec.eq_of_toNat_eq
    rw [UInt32.toNat_toBitVec, UInt32.toNat_shiftRight, Nat.mod_eq_of_lt hn, BitVec.toNat_ushiftRight,
      UInt32.toNat_toBitVec]
  simp only [scheduleWord, smallSigma0, smallSigma1, UInt32.toBitVec_add, UInt32.toBitVec_xor]
  rw [toBitVec_rotateRight _ 7 (by decide), toBitVec_rotateRight _ 18 (by decide),
    toBitVec_rotateRight _ 17 (by decide), toBitVec_rotateRight _ 19 (by decide),
    hshift _ 3 (by decide), hshift _ 10 (by decide)]
  simp only [UInt32.reduceToNat]
  ac_rfl

theorem extendWords_spec {w : List UInt32} (hw : w.length = 64) {m : Nat → Word}
    (hm : ∀ t < 16, (w.getD t 0).toBitVec = m t) : (extendWords w).length = 64 ∧
      ∀ t < 64, ((extendWords w).getD t 0).toBitVec = schedule m t := by
  have h : ∀ n ≤ 48,
      ((List.range' 16 n).foldl (fun w i => w.set i (scheduleWord w i)) w).length = 64 ∧
      ∀ t < 16 + n, (((List.range' 16 n).foldl (fun w i => w.set i (scheduleWord w i)) w).getD t
        0).toBitVec = schedule m t := by
    intro n hn
    induction n with
    | zero =>
      refine ⟨hw, fun t ht => ?_⟩
      rw [schedule, if_pos ht, ← hm t ht]
      rfl
    | succ n ih =>
      obtain ⟨hlen, hget⟩ := ih (by omega)
      rw [List.range'_1_concat, List.foldl_append, List.foldl_cons, List.foldl_nil]
      refine ⟨by rw [List.length_set, hlen], fun t ht => ?_⟩
      rw [getD_set _ _ _ _ (by omega)]
      by_cases hlast : t = 16 + n
      · rw [if_pos hlast, hlast]
        exact scheduleWord_spec (by omega) hget
      · rw [if_neg hlast]
        exact hget t (by omega)
  exact h 48 le_rfl

end Schedule

section Digest

open Fips180

def toHash (s : State) : Hash :=
  ⟨s.a.toBitVec, s.b.toBitVec, s.c.toBitVec, s.d.toBitVec, s.e.toBitVec, s.f.toBitVec, s.g.toBitVec,
    s.h.toBitVec⟩

theorem toHash_initial : toHash initial = Fips180.initial := by
  simp only [Fips180.initial, primes_eq]
  decide +kernel

theorem roundConstants_spec : ∀ t < 64, (roundConstants.getD t 0).toBitVec = constant t := by
  simp only [constant, primes_eq]
  decide +kernel

theorem toHash_round (v : State) (k w : UInt32) :
    toHash (Sha256.round v (k, w)) = Fips180.round (toHash v) k.toBitVec w.toBitVec := by
  simp only [Sha256.round, Fips180.round, toHash, UInt32.toBitVec_add, UInt32.toBitVec_xor,
    UInt32.toBitVec_and, UInt32.toBitVec_not, bigSigma0, bigSigma1, ch, maj]
  rw [toBitVec_rotateRight _ 6 (by decide), toBitVec_rotateRight _ 11 (by decide),
    toBitVec_rotateRight _ 25 (by decide), toBitVec_rotateRight _ 2 (by decide),
    toBitVec_rotateRight _ 13 (by decide), toBitVec_rotateRight _ 22 (by decide)]
  rfl

theorem toHash_rounds {w : List UInt32} {m : Nat → Word}
    (hw : ∀ t < 64, (w.getD t 0).toBitVec = schedule m t) (h : State) :
    toHash (rounds w h) =
      (List.range 64).foldl (fun v t => Fips180.round v (constant t) (schedule m t)) (toHash h) := by
  have hfold : ∀ ts : List Nat, (∀ t ∈ ts, t < 64) → ∀ v : State,
      toHash (ts.foldl (fun v i => Sha256.round v (roundConstants.getD i 0, w.getD i 0)) v) =
        ts.foldl (fun v t => Fips180.round v (constant t) (schedule m t)) (toHash v) := by
    intro ts hts
    induction ts with
    | nil => exact fun _ => rfl
    | cons t ts ih =>
      obtain ⟨ht, hts⟩ := List.forall_mem_cons.mp hts
      intro v
      rw [List.foldl_cons, List.foldl_cons, ih hts, toHash_round, roundConstants_spec t ht, hw t ht]
  exact hfold _ (fun t ht => List.mem_range.mp ht) h

theorem toHash_addState (h v : State) : toHash (addState h v) = ⟨(toHash v).a + (toHash h).a,
    (toHash v).b + (toHash h).b, (toHash v).c + (toHash h).c, (toHash v).d + (toHash h).d,
    (toHash v).e + (toHash h).e, (toHash v).f + (toHash h).f, (toHash v).g + (toHash h).g,
    (toHash v).h + (toHash h).h⟩ := by
  simp only [addState, toHash, UInt32.toBitVec_add, BitVec.add_comm]

theorem addState_rounds {w : List UInt32} {bits : List Bool}
    (hw : ∀ t < 64, (w.getD t 0).toBitVec = schedule (blockWord bits) t) (h : State) :
    toHash (addState h (rounds w h)) = Fips180.compress (toHash h) bits := by
  rw [toHash_addState, toHash_rounds hw, Fips180.compress]

/-- A turn of the loop is a step of the standard, whatever the schedule held before. -/
theorem block_spec {h : State} {w : List UInt32} (hw : w.length = 64) {chunk : List UInt8}
    (hchunk : chunk.length = 64) : ∃ h' w', block (h, w) chunk = (h', w') ∧ w'.length = 64 ∧
      toHash h' = Fips180.compress (toHash h) (bitsOf chunk) := by
  obtain ⟨hlen, hload⟩ := loadWords_spec hw hchunk
  have hloaded : ∀ w' : List UInt32, w' = loadWords w chunk → ∃ h₁ w₁,
      (addState h (rounds (extendWords w') h), extendWords w') = (h₁, w₁) ∧ w₁.length = 64 ∧
        toHash h₁ = Fips180.compress (toHash h) (bitsOf chunk) := by
    rintro w' rfl
    obtain ⟨hlength, hschedule⟩ := extendWords_spec hlen hload
    exact ⟨_, _, rfl, hlength, addState_rounds hschedule h⟩
  exact hloaded _ rfl

theorem blocks_spec (chunks : List (List UInt8)) (hchunks : ∀ c ∈ chunks, c.length = 64)
    (h : State) {w : List UInt32} (hw : w.length = 64) : toHash (chunks.foldl block (h, w)).1 =
      (chunks.map bitsOf).foldl Fips180.compress (toHash h) := by
  induction chunks generalizing h w with
  | nil => rfl
  | cons c chunks ih =>
    obtain ⟨hc, hchunks⟩ := List.forall_mem_cons.mp hchunks
    obtain ⟨h', w', hblock, hw', hstep⟩ := block_spec hw hc
    rw [List.foldl_cons, hblock, ih hchunks _ hw', hstep, List.map_cons, List.foldl_cons]

/-- The blocks of the padded message are those of the standard's. -/
theorem map_bitsOf_chunks (data : List UInt8) : (chunksExact 64 (padded data)).map bitsOf =
    (List.range ((pad (bitsOf data)).length / 512)).map (Fips180.block (pad (bitsOf data))) := by
  have hlen : (pad (bitsOf data)).length / 512 = (padded data).length / 64 := by
    rw [← bitsOf_padded, length_bitsOf]
    omega
  rw [chunksExact_eq_map (by decide), hlen, List.map_map]
  refine List.map_congr_left fun i _ => ?_
  have hdrop : 512 * i = 8 * (64 * i) := by omega
  rw [Function.comp_apply, Fips180.block, ← bitsOf_padded, hdrop, drop_bitsOf]
  exact (take_bitsOf _ 64).symm

theorem hexOfBits_append {bits bits' : List Bool} (h : bits.length % 4 = 0) :
    hexOfBits (bits ++ bits') = hexOfBits bits ++ hexOfBits bits' := by
  fun_induction hexOfBits bits with
  | case1 a b c d bits ih =>
    have hrest : bits.length % 4 = 0 := by
      simp only [List.length_cons] at h
      omega
    exact congrArg _ (ih hrest)
  | case2 bits hbits =>
    match bits with
    | [] => rfl
    | [_] => cases h
    | [_, _] => cases h
    | [_, _, _] => cases h
    | a :: b :: c :: d :: bits => exact absurd rfl (hbits a b c d bits)

theorem hexOfBits_words (ws : List UInt32) :
    hexOfBits (ws.flatMap fun x => toBits x.toBitVec) = ws.flatMap hex := by
  induction ws with
  | nil => rfl
  | cons x ws ih =>
    rw [List.flatMap_cons, List.flatMap_cons, hexOfBits_append (by rw [length_toBits]), ih,
      hexOfBits_toBits]

theorem sha256Hex_spec (data : List UInt8) : sha256Hex data = hexOfBits (sha256 (bitsOf data)) := by
  have hblocks := blocks_spec (chunksExact 64 (padded data))
    (fun c hc => length_of_mem_chunksExact hc) initial (List.length_replicate (n := 64) (a := 0))
  rw [map_bitsOf_chunks, List.foldl_map, toHash_initial] at hblocks
  rw [sha256Hex, ← hexOfBits_words, sha256, ← hblocks]
  rfl

end Digest

section Functional

variable {α : Type}

theorem toChunks_go {n : Nat} (hn : 0 < n) (xs : List α) (acc : Array α) (out : Array (List α))
    (hacc : 0 < acc.size ∧ acc.size ≤ n) (hlen : (acc.size + xs.length) % n = 0) :
    List.toChunks.go n xs acc out = out.toList ++ chunksExact n (acc.toList ++ xs) := by
  induction xs generalizing acc out with
  | nil =>
    have hsize : acc.toList.length = n := by
      rw [Array.length_toList]
      obtain hlt | heq := Nat.lt_or_eq_of_le hacc.2
      · rw [List.length_nil, Nat.add_zero, Nat.mod_eq_of_lt hlt] at hlen
        omega
      · exact heq
    have hrest : chunksExact n ([] : List α) = [] := by
      rw [chunksExact, if_neg]
      simp only [List.length_nil]
      omega
    rw [chunksExact_append hn hsize, hrest]
    simp [List.toChunks.go]
  | cons x xs ih =>
    rw [List.length_cons] at hlen
    by_cases hfull : acc.size = n
    · have hsize : acc.toList.length = n := hfull
      have hpush : (Array.mkEmpty n).push x = #[x] := rfl
      rw [chunksExact_append hn hsize, List.toChunks.go, if_pos (by simpa using hfull), hpush,
        ih #[x] _ ⟨Nat.one_pos, hn⟩ (by
          rw [hfull, Nat.add_mod_left] at hlen
          rw [← hlen]
          exact congrArg (· % n) (Nat.add_comm 1 _))]
      simp
    · rw [List.toChunks.go, if_neg (by simpa using hfull), ih (acc.push x) _
        (by rw [Array.size_push]; omega) (by rw [Array.size_push, ← hlen]; congr 1; omega)]
      simp

theorem toChunks_eq {n : Nat} (hn : 0 < n) (l : List α) (h : l.length % n = 0) :
    l.toChunks n = chunksExact n l := by
  obtain ⟨n, rfl⟩ := Nat.exists_eq_succ_of_ne_zero (Nat.ne_of_gt hn)
  cases l with
  | nil =>
    rw [chunksExact, if_neg (by simp)]
    rfl
  | cons x xs =>
    have hgo := toChunks_go hn xs #[x] #[] ⟨Nat.one_pos, hn⟩ (by rw [← h]; congr 1; simp; omega)
    exact hgo.trans (by simp)

theorem getD_reverse (w : List UInt32) {i : Nat} (hi : i < w.length) :
    w.reverse.getD (w.length - 1 - i) 0 = w.getD i 0 := by
  have hsub : w.length - 1 - (w.length - 1 - i) = i := by omega
  rw [List.getD_eq_getElem?_getD, List.getElem?_reverse (by omega), hsub, List.getD_eq_getElem?_getD]

/-- The words of a schedule that is kept with the last one first. -/
theorem getD_extend {m : Nat → Fips180.Word} (n : Nat) {w : List UInt32} (hw : 16 ≤ w.length)
    (hm : ∀ t < w.length, (w.reverse.getD t 0).toBitVec = Fips180.schedule m t) :
    (Sha256.extend n w).length = w.length + n ∧ ∀ t < w.length + n,
      ((Sha256.extend n w).reverse.getD t 0).toBitVec = Fips180.schedule m t := by
  induction n generalizing w with
  | zero => exact ⟨rfl, hm⟩
  | succ n ih =>
    have hword : scheduleWord w.reverse w.length =
        w.getD 15 0 + (rotateRight (w.getD 14 0) 7 ^^^ rotateRight (w.getD 14 0) 18 ^^^
          (w.getD 14 0 >>> 3)) + w.getD 6 0 + (rotateRight (w.getD 1 0) 17 ^^^
          rotateRight (w.getD 1 0) 19 ^^^ (w.getD 1 0 >>> 10)) := by
      rw [scheduleWord, ← getD_reverse w (by omega : 15 < _), ← getD_reverse w (by omega : 14 < _),
        ← getD_reverse w (by omega : 6 < _), ← getD_reverse w (by omega : 1 < _)]
      simp only [Nat.sub_sub, Nat.reduceAdd]
    have hnew := scheduleWord_spec hw hm
    rw [hword] at hnew
    have hstep : ∀ x : UInt32, x.toBitVec = Fips180.schedule m w.length →
        ∀ t < (x :: w).length, ((x :: w).reverse.getD t 0).toBitVec = Fips180.schedule m t := by
      intro x hx t ht
      rw [List.reverse_cons, List.getD_eq_getElem?_getD]
      by_cases hlast : t < w.length
      · rw [List.getElem?_append_left (by rwa [List.length_reverse]), ← List.getD_eq_getElem?_getD]
        exact hm t hlast
      · obtain rfl : t = w.length := by
          rw [List.length_cons] at ht
          omega
        rw [List.getElem?_append_right (by rw [List.length_reverse])]
        simpa using hx
    obtain ⟨hlen, hget⟩ := ih (w := _ :: w) (by rw [List.length_cons]; omega) (hstep _ hnew)
    refine ⟨?_, fun t ht => hget t (by rw [List.length_cons]; omega)⟩
    rw [Sha256.extend, hlen, List.length_cons]
    omega

theorem pad_eq_padded (data : List UInt8) : Sha256.pad data = padded data := by
  have hcount : (119 - data.length % 64) % 64 = (56 + 64 - (data ++ [0x80]).length % 64) % 64 := by
    rw [List.length_append, List.length_singleton]
    omega
  rw [Sha256.pad, padded, pushZeros_eq, hcount]
  simp only [List.append_assoc, List.cons_append, List.nil_append]

theorem eq_of_spec {w w' : List UInt32} {m : Nat → Fips180.Word} (hlen : w.length = 64)
    (hlen' : w'.length = 64) (hw : ∀ t < 64, (w.getD t 0).toBitVec = Fips180.schedule m t)
    (hw' : ∀ t < 64, (w'.getD t 0).toBitVec = Fips180.schedule m t) : w = w' := by
  refine List.ext_getElem (hlen.trans hlen'.symm) fun t ht ht' => ?_
  have h := (hw t (by omega)).trans (hw' t (by omega)).symm
  rw [List.getD_eq_getElem _ _ ht, List.getD_eq_getElem _ _ ht'] at h
  exact UInt32.toBitVec_inj.mp h

theorem schedule_eq {w : List UInt32} (hw : w.length = 64) {chunk : List UInt8}
    (hchunk : chunk.length = 64) : Sha256.schedule chunk = extendWords (loadWords w chunk) := by
  obtain ⟨hlen, hload⟩ := loadWords_spec hw hchunk
  obtain ⟨hlength, hget⟩ := extendWords_spec hlen hload
  have hwords : (chunk.toChunks 4).map word =
      (List.range 16).map fun t => word ((chunk.drop (4 * t)).take 4) := by
    rw [toChunks_eq (by decide) _ (by rw [hchunk]), chunksExact_eq_map (by decide), hchunk, List.map_map]
    rfl
  have hfirst : ∀ t < 16, (((chunk.toChunks 4).map word).getD t 0).toBitVec =
      Fips180.schedule (Fips180.blockWord (Fips180.bitsOf chunk)) t := by
    intro t ht
    have hbits : (Fips180.bitsOf chunk).drop (32 * t) = Fips180.bitsOf (chunk.drop (4 * t)) := by
      rw [← drop_bitsOf, ← Nat.mul_assoc]
    have hword : ((chunk.toChunks 4).map word).getD t 0 = word ((chunk.drop (4 * t)).take 4) := by
      rw [hwords]
      simp [List.getD_eq_getElem?_getD, ht]
    rw [hword, Fips180.schedule, if_pos ht, Fips180.blockWord, hbits,
      toBitVec_word (by rw [List.length_take, List.length_drop]; omega)]
    exact congrArg (fun bits => BitVec.ofNat 32 (Fips180.ofBits bits)) (take_bitsOf _ 4).symm
  have hsixteen : ((chunk.toChunks 4).map word).reverse.length = 16 := by
    rw [hwords]
    simp
  obtain ⟨hextended, hwhole⟩ := getD_extend 48 (w := ((chunk.toChunks 4).map word).reverse)
    (by rw [hsixteen]) (fun t ht => by rw [List.reverse_reverse]; exact hfirst t (by omega))
  rw [hsixteen] at hextended hwhole
  exact eq_of_spec (by rw [Sha256.schedule, List.length_reverse, hextended]) hlength hwhole hget

theorem zip_rounds {w : List UInt32} (hw : w.length = 64) (h : State) :
    (roundConstants.zip w).foldl round h = rounds w h := by
  have hzip : roundConstants.zip w =
      (List.range 64).map fun i => (roundConstants.getD i 0, w.getD i 0) := by
    have hconstants : roundConstants.length = 64 := rfl
    refine List.ext_getElem (by simp [hw, hconstants]) fun i hi _ => ?_
    rw [List.length_zip, hw, hconstants] at hi
    rw [List.getElem_zip, List.getElem_map, List.getElem_range, List.getD_eq_getElem _ _ (by omega),
      List.getD_eq_getElem _ _ (by omega)]
  rw [hzip, List.foldl_map, rounds]

theorem foldl_block (chunks : List (List UInt8)) (hchunks : ∀ c ∈ chunks, c.length = 64) (h : State)
    {w : List UInt32} (hw : w.length = 64) :
    (chunks.foldl block (h, w)).1 = chunks.foldl Sha256.compress h := by
  induction chunks generalizing h w with
  | nil => rfl
  | cons c chunks ih =>
    obtain ⟨hc, hchunks⟩ := List.forall_mem_cons.mp hchunks
    have hlen : (Sha256.schedule c).length = 64 := by
      rw [schedule_eq hw hc]
      obtain ⟨hlen, hload⟩ := loadWords_spec hw hc
      exact (extendWords_spec hlen hload).1
    have hstep : block (h, w) c = (Sha256.compress h c, Sha256.schedule c) := by
      rw [block, Sha256.compress, ← schedule_eq hw hc, zip_rounds hlen]
      rfl
    rw [List.foldl_cons, hstep, ih hchunks _ hlen, List.foldl_cons]

/-- The digest with the padding in closed form and the schedule as a list is the one with the
loops. -/
theorem functional_eq (data : List UInt8) : Sha256.sha256Hex data = sha256Hex data := by
  have hblocks := foldl_block (chunksExact 64 (padded data))
    (fun c hc => length_of_mem_chunksExact hc) initial (List.length_replicate (n := 64) (a := 0))
  rw [sha256Hex, hblocks, Sha256.sha256Hex, pad_eq_padded, toChunks_eq (by decide) _ (length_padded data)]

end Functional

end Hbird.Sha256Hex
