import Mathlib

namespace Hbird.Ipv4

/-- What a text of decimal digits stands for. -/
def value (s : List Char) : Nat := Nat.ofDigitChars 10 s 0

/-- Digits, and no zero before others. -/
def isDecimal (s : List Char) : Bool :=
  s ≠ [] && s.all Char.isDigit && !(decide (1 < s.length) && s.head? == some '0')

/-- `is_decimal_in_range`: up to three digits. -/
def isDecimalInRange (s : List Char) (max : Nat) : Bool :=
  isDecimal s && decide (s.length ≤ 3) && decide (value s ≤ max)

/-- Dotted decimal, in the only form that `Ipv4Addr::from_str` takes. -/
def isAddress (s : List Char) : Bool :=
  let parts := s.splitOn '.'
  parts.length == 4 && parts.all (isDecimalInRange · 255)

def fromOctets (octets : List Nat) : Nat := octets.foldl (fun n o => 256 * n + o) 0

/-- The address as a number. -/
def toNat (s : List Char) : Nat := fromOctets ((s.splitOn '.').map value)

/-- An address, by its text. -/
structure Address where
  text : List Char
  valid : isAddress text = true
  deriving DecidableEq

/-- `parse::<Ipv4Addr>`. -/
def parse (s : List Char) : Option Address :=
  if h : isAddress s = true then some ⟨s, h⟩ else none

section Decimal

variable {s t : List Char}

theorem isDecimal_iff : isDecimal s = true ↔
    s ≠ [] ∧ (∀ c ∈ s, c.isDigit = true) ∧ (1 < s.length → s.head? ≠ some '0') := by
  simp only [isDecimal, Bool.and_eq_true, Bool.not_eq_true', Bool.and_eq_false_iff,
    decide_eq_true_eq, decide_eq_false_iff_not, List.all_eq_true, beq_eq_false_iff_ne, and_assoc,
    imp_iff_not_or]

theorem digitChar_toNat {c : Char} (hc : c.isDigit = true) :
    c.toNat - '0'.toNat < 10 ∧ Nat.digitChar (c.toNat - '0'.toNat) = c := by
  have hrange : 48 ≤ c.toNat ∧ c.toNat ≤ 57 := by
    simp only [Char.isDigit, Bool.and_eq_true, decide_eq_true_eq, ge_iff_le,
      UInt32.le_iff_toNat_le] at hc
    exact hc
  have hback : Char.ofNat c.toNat = c := Char.ofNat_toNat c
  obtain ⟨hlo, hhi⟩ := hrange
  generalize c.toNat = n at hlo hhi hback
  subst hback
  interval_cases n <;> decide

/-- Further digits behind a number that is not zero. -/
theorem toDigits_append {acc : Nat} (hacc : 0 < acc) (h : ∀ c ∈ s, c.isDigit = true) :
    Nat.toDigits 10 acc ++ s = Nat.toDigits 10 (Nat.ofDigitChars 10 s acc) := by
  induction s generalizing acc with
  | nil => simp
  | cons c s ih =>
    obtain ⟨hc, hs⟩ := List.forall_mem_cons.mp h
    obtain ⟨hlt, hchar⟩ := digitChar_toNat hc
    have hpos : 0 < 10 * acc + (c.toNat - '0'.toNat) := by omega
    have hdigit : Nat.toDigits 10 (c.toNat - '0'.toNat) = [c] := by
      rw [Nat.toDigits_of_lt_base hlt, hchar]
    calc Nat.toDigits 10 acc ++ c :: s
        = (Nat.toDigits 10 acc ++ Nat.toDigits 10 (c.toNat - '0'.toNat)) ++ s := by
            rw [hdigit, List.append_assoc, List.singleton_append]
      _ = Nat.toDigits 10 (10 * acc + (c.toNat - '0'.toNat)) ++ s := by
        rw [Nat.toDigits_append_toDigits (by decide) hacc hlt]
      _ = Nat.toDigits 10 (Nat.ofDigitChars 10 (c :: s) acc) := by
        rw [ih hpos hs, Nat.ofDigitChars_cons]

/-- A text without leading zeros is the only one for its value. -/
theorem toDigits_value (h : isDecimal s = true) : Nat.toDigits 10 (value s) = s := by
  obtain ⟨hne, hdigits, hzero⟩ := isDecimal_iff.mp h
  obtain ⟨c, cs, rfl⟩ := List.exists_cons_of_ne_nil hne
  obtain ⟨hc, hcs⟩ := List.forall_mem_cons.mp hdigits
  obtain ⟨hlt, hchar⟩ := digitChar_toNat hc
  have hdigit : Nat.toDigits 10 (c.toNat - '0'.toNat) = [c] := by
    rw [Nat.toDigits_of_lt_base hlt, hchar]
  have hvalue : value (c :: cs) = Nat.ofDigitChars 10 cs (c.toNat - '0'.toNat) := by
    rw [value, Nat.ofDigitChars_cons, Nat.mul_zero, Nat.zero_add]
  cases hrest : cs with
  | nil =>
    rw [hrest] at hvalue
    rw [hvalue, Nat.ofDigitChars_nil, hdigit]
  | cons d ds =>
    have hpos : 0 < c.toNat - '0'.toNat := by
      by_contra hle
      have hz : c = '0' := by
        rw [← hchar, Nat.eq_zero_of_not_pos hle]
        rfl
      exact hzero (by simp [hrest]) (by rw [hz]; rfl)
    rw [← hrest, hvalue, ← toDigits_append hpos hcs, hdigit]
    rfl

theorem head_toDigits {n : Nat} (hn : 0 < n) : (Nat.toDigits 10 n).head? ≠ some '0' := by
  induction n using Nat.strong_induction_on with
  | _ n ih =>
    by_cases hlt : n < 10
    · rw [Nat.toDigits_of_lt_base hlt]
      interval_cases n <;> decide
    · have hrest := ih (n / 10) (Nat.div_lt_self hn (by decide)) (by omega)
      rw [Nat.toDigits_of_base_le (by decide) (by omega),
        List.head?_append_of_ne_nil _ Nat.toDigits_ne_nil]
      exact hrest

theorem isDecimal_toDigits (n : Nat) : isDecimal (Nat.toDigits 10 n) = true := by
  refine isDecimal_iff.mpr ⟨Nat.toDigits_ne_nil, ?_, fun hlength => ?_⟩
  · exact fun c hc => Nat.isDigit_of_mem_toDigits (by decide) (by decide) hc
  · refine head_toDigits (Nat.pos_of_ne_zero fun hzero => ?_)
    rw [hzero, Nat.toDigits_zero] at hlength
    exact absurd hlength (by decide)

theorem value_toDigits (n : Nat) : value (Nat.toDigits 10 n) = n :=
  Nat.ofDigitChars_toDigits (by decide) (by decide)

theorem isDecimalInRange_iff {max : Nat} : isDecimalInRange s max = true ↔
    isDecimal s = true ∧ s.length ≤ 3 ∧ value s ≤ max := by
  simp [isDecimalInRange, and_assoc]

theorem isDecimalInRange_toDigits {n max : Nat} (hn : n ≤ max) (hmax : max < 1000) :
    isDecimalInRange (Nat.toDigits 10 n) max = true := by
  refine isDecimalInRange_iff.mpr ⟨isDecimal_toDigits n, ?_, by rwa [value_toDigits]⟩
  exact (Nat.length_toDigits_le_iff (by decide) (by decide)).mpr (by omega)

/-- A text in range is the digits of a number in range. -/
theorem isDecimalInRange_iff_toDigits {max : Nat} (hmax : max < 1000) :
    isDecimalInRange s max = true ↔ ∃ n ≤ max, s = Nat.toDigits 10 n := by
  constructor
  · intro h
    obtain ⟨hdecimal, -, hle⟩ := isDecimalInRange_iff.mp h
    exact ⟨value s, hle, (toDigits_value hdecimal).symm⟩
  · rintro ⟨n, hn, rfl⟩
    exact isDecimalInRange_toDigits hn hmax

end Decimal

section Address

variable {s t : List Char}

theorem isAddress_iff : isAddress s = true ↔ ∃ a b c d, s.splitOn '.' = [a, b, c, d] ∧
    ∀ p ∈ [a, b, c, d], isDecimalInRange p 255 = true := by
  simp only [isAddress, Bool.and_eq_true, beq_iff_eq, List.all_eq_true]
  constructor
  · rintro ⟨hlength, hall⟩
    obtain ⟨a, b, c, d, habcd⟩ := List.length_eq_four.mp hlength
    exact ⟨a, b, c, d, habcd, habcd ▸ hall⟩
  · rintro ⟨a, b, c, d, habcd, hall⟩
    rw [habcd]
    exact ⟨rfl, hall⟩

theorem fromOctets_four (a b c d : Nat) :
    fromOctets [a, b, c, d] = 256 * (256 * (256 * a + b) + c) + d := by
  simp [fromOctets]

theorem toNat_lt (h : isAddress s = true) : toNat s < 2 ^ 32 := by
  obtain ⟨a, b, c, d, hs, hall⟩ := isAddress_iff.mp h
  have hle : ∀ p ∈ [a, b, c, d], value p ≤ 255 := fun p hp =>
    (isDecimalInRange_iff.mp (hall p hp)).2.2
  have ha := hle a (by simp)
  have hb := hle b (by simp)
  have hc := hle c (by simp)
  have hd := hle d (by simp)
  rw [toNat, hs, List.map_cons, List.map_cons, List.map_cons, List.map_cons, List.map_nil,
    fromOctets_four]
  omega

theorem parse_eq_some {a : Address} : parse s = some a ↔ a.text = s := by
  rw [parse]
  constructor
  · intro h
    split_ifs at h
    cases h
    rfl
  · rintro rfl
    rw [dif_pos a.valid]

end Address

end Hbird.Ipv4
