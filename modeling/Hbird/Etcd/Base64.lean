import Hbird.Etcd.KeyMaterial
import Hbird.Rfc4648

namespace Hbird.Etcd

open Hbird.Rfc4648

variable {n shift : Nat} {input : List UInt8}

theorem digit_alphabet : ∀ i < 64, digit (alphabet.getD i 'A') = some i := by
  decide +kernel

theorem digit_sextet (n shift : Nat) : digit (sextet n shift) = some (n / 2 ^ shift % 64) :=
  digit_alphabet _ (Nat.mod_lt _ (by decide))

theorem isSome_sextet (n shift : Nat) : (digit (sextet n shift)).isSome := by
  rw [digit_sextet]
  rfl

theorem octet_toNat (b : UInt8) {m : Nat} (h : m = b.toNat) : octet m = b := by
  rw [octet, h, UInt8.ofNat_toNat]

theorem decode_base64Chars (input : List UInt8) : decode (base64Chars input) = some input := by
  induction input using base64Chars.induct with
  | case1 => rfl
  | case2 b0 =>
    have h0 := b0.toNat_lt
    rw [base64Chars, decode_one (digit_sextet _ _) (digit_sextet _ _), decodeOne, if_pos (by omega),
      octet_toNat b0 (by omega)]
  | case3 b0 b1 =>
    have h0 := b0.toNat_lt
    have h1 := b1.toNat_lt
    rw [base64Chars, decode_two (digit_sextet _ _) (digit_sextet _ _) (digit_sextet _ _), decodeTwo,
      if_pos (by omega), octet_toNat b0 (by omega), octet_toNat b1 (by omega)]
  | case4 b0 b1 b2 rest ih =>
    have h0 := b0.toNat_lt
    have h1 := b1.toNat_lt
    have h2 := b2.toNat_lt
    rw [base64Chars, decode_three (digit_sextet _ _) (digit_sextet _ _) (digit_sextet _ _)
      (digit_sextet _ _), ih, decodeThree, octet_toNat b0 (by omega), octet_toNat b1 (by omega),
      octet_toNat b2 (by omega)]
    rfl

theorem isPadded_base64Chars (input : List UInt8) : IsPadded input.length (base64Chars input) := by
  induction input using base64Chars.induct with
  | case1 => exact ⟨rfl, [], rfl, fun c hc => absurd hc List.not_mem_nil⟩
  | case2 b0 =>
    rw [base64Chars]
    refine ⟨by simp, [sextet (b0.toNat * 2 ^ 16) 18, sextet (b0.toNat * 2 ^ 16) 12], rfl, ?_⟩
    simp [isSome_sextet]
  | case3 b0 b1 =>
    rw [base64Chars]
    refine ⟨by simp, [sextet (b0.toNat * 2 ^ 16 + b1.toNat * 2 ^ 8) 18,
      sextet (b0.toNat * 2 ^ 16 + b1.toNat * 2 ^ 8) 12,
      sextet (b0.toNat * 2 ^ 16 + b1.toNat * 2 ^ 8) 6], rfl, ?_⟩
    simp [isSome_sextet]
  | case4 b0 b1 b2 rest ih =>
    rw [base64Chars]
    exact ih.group (by simp [isSome_sextet])

/-- Every text is padded base64 of the right length, and is read back as the octets it is made of. -/
theorem base64Encode_roundTrip :
    (∀ input, IsPadded input.length (base64Encode input).toList ∧
      decode (base64Encode input).toList = some input) ∧ Function.Injective base64Encode := by
  have htext : ∀ input, (base64Encode input).toList = base64Chars input := fun input =>
    String.toList_ofList
  refine ⟨fun input => ?_, fun input input' h => ?_⟩
  · rw [htext]
    exact ⟨isPadded_base64Chars input, decode_base64Chars input⟩
  · refine Option.some.inj ?_
    rw [← decode_base64Chars input, ← decode_base64Chars input', ← htext, ← htext, h]

end Hbird.Etcd
