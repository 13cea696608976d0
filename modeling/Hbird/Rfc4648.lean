import Mathlib

namespace Hbird.Rfc4648

/-- The value of a character of the standard alphabet. -/
def digit (c : Char) : Option Nat :=
  if 'A' ≤ c ∧ c ≤ 'Z' then some (c.toNat - 'A'.toNat)
  else if 'a' ≤ c ∧ c ≤ 'z' then some (c.toNat - 'a'.toNat + 26)
  else if '0' ≤ c ∧ c ≤ '9' then some (c.toNat - '0'.toNat + 52)
  else if c = '+' then some 62
  else if c = '/' then some 63
  else none

def octet (n : Nat) : UInt8 := UInt8.ofNat n

/-- The octets of a last group with two characters of padding. -/
def decodeOne (x y : Nat) : Option (List UInt8) :=
  if y % 16 = 0 then some [octet (x * 4 + y / 16)] else none

/-- The octets of a last group with one character of padding. -/
def decodeTwo (x y z : Nat) : Option (List UInt8) :=
  if z % 4 = 0 then some [octet (x * 4 + y / 16), octet (y % 16 * 16 + z / 4)] else none

def decodeThree (x y z w : Nat) : List UInt8 :=
  [octet (x * 4 + y / 16), octet (y % 16 * 16 + z / 4), octet (z % 4 * 64 + w)]

/-- Padded base64, with padding only at the end and no bits behind the data. -/
def decode : List Char → Option (List UInt8)
  | [] => some []
  | a :: b :: c :: d :: rest =>
    (digit a).bind fun x => (digit b).bind fun y =>
      if c = '=' ∧ d = '=' ∧ rest = [] then decodeOne x y
      else (digit c).bind fun z =>
        if d = '=' ∧ rest = [] then decodeTwo x y z
        else (digit d).bind fun w => (decode rest).map (decodeThree x y z w ++ ·)
  | _ => none

/-- Whole groups of four: characters of the alphabet, and as many of padding as octets lack in the last
group of three. -/
def IsPadded (length : Nat) (text : List Char) : Prop :=
  text.length = 4 * ((length + 2) / 3) ∧
    ∃ digits, text = digits ++ List.replicate ((3 - length % 3) % 3) '=' ∧
      ∀ c ∈ digits, (digit c).isSome

variable {a b c d : Char} {x y z w : Nat} {rest : List Char}

theorem digit_pad : digit '=' = none := by decide

theorem decode_one (ha : digit a = some x) (hb : digit b = some y) :
    decode [a, b, '=', '='] = decodeOne x y := by
  simp [decode, ha, hb]

theorem decode_two (ha : digit a = some x) (hb : digit b = some y) (hc : digit c = some z) :
    decode [a, b, c, '='] = decodeTwo x y z := by
  have hpad : c ≠ '=' := by
    rintro rfl
    rw [digit_pad] at hc
    cases hc
  simp [decode, ha, hb, hc, hpad]

theorem decode_three (ha : digit a = some x) (hb : digit b = some y) (hc : digit c = some z)
    (hd : digit d = some w) :
    decode (a :: b :: c :: d :: rest) = (decode rest).map (decodeThree x y z w ++ ·) := by
  have hpad : c ≠ '=' := by
    rintro rfl
    rw [digit_pad] at hc
    cases hc
  have hpad' : d ≠ '=' := by
    rintro rfl
    rw [digit_pad] at hd
    cases hd
  simp [decode, ha, hb, hc, hd, hpad, hpad']

theorem IsPadded.group {length : Nat} {text : List Char} (h : IsPadded length text)
    (hall : ∀ e ∈ [a, b, c, d], (digit e).isSome) :
    IsPadded (length + 3) (a :: b :: c :: d :: text) := by
  obtain ⟨hlength, digits, rfl, hdigits⟩ := h
  have hmod : (length + 3) % 3 = length % 3 := Nat.add_mod_right length 3
  refine ⟨?_, [a, b, c, d] ++ digits, ?_, ?_⟩
  · simp only [List.length_cons]
    omega
  · rw [hmod]
    rfl
  · exact List.forall_mem_append.mpr ⟨hall, hdigits⟩

end Hbird.Rfc4648
