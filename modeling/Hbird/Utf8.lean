import Mathlib

namespace Hbird.Utf8

/-- A character whose first bytes were read: how many more it has, and what the next may be. -/
structure Pending where
  value : Nat
  more : Nat
  low : Nat
  high : Nat
  tail : 0x80 ≤ low

def Pending.any (value more : Nat) : Pending := ⟨value, more, 0x80, 0xbf, le_rfl⟩

def replacement : Char := Char.ofNat 0xfffd

/-- The first byte of a character. -/
def start (b : Nat) : List Char × Option Pending :=
  if b < 0x80 then ([Char.ofNat b], none)
  else if 0xc2 ≤ b ∧ b ≤ 0xdf then ([], some (.any (b - 0xc0) 0))
  else if b = 0xe0 then ([], some ⟨0, 1, 0xa0, 0xbf, by decide⟩)
  else if b = 0xed then ([], some ⟨0xd, 1, 0x80, 0x9f, by decide⟩)
  else if 0xe1 ≤ b ∧ b ≤ 0xef then ([], some (.any (b - 0xe0) 1))
  else if b = 0xf0 then ([], some ⟨0, 2, 0x90, 0xbf, by decide⟩)
  else if 0xf1 ≤ b ∧ b ≤ 0xf3 then ([], some (.any (b - 0xf0) 2))
  else if b = 0xf4 then ([], some ⟨4, 2, 0x80, 0x8f, by decide⟩)
  else ([replacement], none)

def step : Option Pending → Nat → List Char × Option Pending
  | none, b => start b
  | some p, b =>
    if p.low ≤ b ∧ b ≤ p.high then
      match p.more with
      | 0 => ([Char.ofNat (p.value * 64 + b % 64)], none)
      | more + 1 => ([], some (.any (p.value * 64 + b % 64) more))
    else (replacement :: (start b).1, (start b).2)

/-- What is left of a character that the bytes end in. -/
def flush : Option Pending → List Char
  | none => []
  | some _ => [replacement]

def decodeFrom : Option Pending → List UInt8 → List Char
  | p, [] => flush p
  | p, b :: bs => (step p b.toNat).1 ++ decodeFrom (step p b.toNat).2 bs

/-- `String::from_utf8_lossy`: every longest beginning of a character that does not go on as one
becomes a replacement character. -/
def fromUtf8Lossy (bytes : List UInt8) : List Char := decodeFrom none bytes

/-- The bytes of a text. -/
def encode (text : List Char) : List UInt8 := text.flatMap String.utf8EncodeChar

variable {p : Option Pending} {bs cs : List UInt8}

theorem decodeFrom_lineFeed (p : Option Pending) (bs : List UInt8) :
    decodeFrom p (0x0a :: bs) = flush p ++ '\n' :: decodeFrom none bs := by
  cases p with
  | none => rfl
  | some p =>
    have hlow : ¬ (p.low ≤ (0x0a : UInt8).toNat ∧ (0x0a : UInt8).toNat ≤ p.high) := by
      rintro ⟨h, -⟩
      have htail := p.tail
      have hten : (0x0a : UInt8).toNat = 10 := rfl
      omega
    rw [decodeFrom, step, if_neg hlow]
    rfl

/-- A line feed is the end of whatever stands before it. -/
theorem fromUtf8Lossy_append (bs cs : List UInt8) :
    fromUtf8Lossy (bs ++ 0x0a :: cs) = fromUtf8Lossy bs ++ '\n' :: fromUtf8Lossy cs := by
  have hgen : ∀ p, decodeFrom p (bs ++ 0x0a :: cs) = decodeFrom p bs ++ '\n' :: decodeFrom none cs := by
    induction bs with
    | nil => exact fun p => decodeFrom_lineFeed p cs
    | cons b bs ih =>
      intro p
      rw [List.cons_append, decodeFrom, ih, decodeFrom, List.append_assoc]
  exact hgen none

section Char

variable {b n value : Nat} {q : Pending}

theorem start_two (hl : 0xc2 ≤ b) (hh : b ≤ 0xdf) : start b = ([], some (.any (b - 0xc0) 0)) := by
  rw [start, if_neg (by omega), if_pos ⟨hl, hh⟩]

theorem start_three (hl : 0xe0 ≤ b) (hh : b ≤ 0xef) :
    ∃ q, start b = ([], some q) ∧ q.value = b - 0xe0 ∧ q.more = 1 ∧
      q.low = (if b = 0xe0 then 0xa0 else 0x80) ∧ q.high = if b = 0xed then 0x9f else 0xbf := by
  rw [start, if_neg (by omega), if_neg (by omega)]
  by_cases h1 : b = 0xe0
  · subst h1
    exact ⟨_, rfl, rfl, rfl, rfl, rfl⟩
  · rw [if_neg h1]
    by_cases h2 : b = 0xed
    · subst h2
      exact ⟨_, rfl, rfl, rfl, rfl, rfl⟩
    · rw [if_neg h2, if_pos ⟨by omega, hh⟩]
      exact ⟨_, rfl, rfl, rfl, (if_neg h1).symm, (if_neg h2).symm⟩

theorem start_four (hl : 0xf0 ≤ b) (hh : b ≤ 0xf4) :
    ∃ q, start b = ([], some q) ∧ q.value = b - 0xf0 ∧ q.more = 2 ∧
      q.low = (if b = 0xf0 then 0x90 else 0x80) ∧ q.high = if b = 0xf4 then 0x8f else 0xbf := by
  rw [start, if_neg (by omega), if_neg (by omega), if_neg (by omega), if_neg (by omega),
    if_neg (by omega)]
  by_cases h1 : b = 0xf0
  · subst h1
    exact ⟨_, rfl, rfl, rfl, rfl, rfl⟩
  · rw [if_neg h1]
    by_cases h2 : b = 0xf4
    · subst h2
      exact ⟨_, rfl, rfl, rfl, rfl, rfl⟩
    · rw [if_pos ⟨by omega, by omega⟩]
      exact ⟨_, rfl, rfl, rfl, (if_neg h1).symm, (if_neg h2).symm⟩

theorem step_more (hl : q.low ≤ b) (hh : b ≤ q.high) (hn : q.more = n + 1) :
    step (some q) b = ([], some (.any (q.value * 64 + b % 64) n)) := by
  rw [step, if_pos ⟨hl, hh⟩, hn]

theorem step_last (hl : q.low ≤ b) (hh : b ≤ q.high) (hn : q.more = 0) :
    step (some q) b = ([Char.ofNat (q.value * 64 + b % 64)], none) := by
  rw [step, if_pos ⟨hl, hh⟩, hn]

/-- A byte that a character goes on with. -/
def tailByte (v : Nat) : UInt8 := UInt8.ofNat (v % 64 + 0x80)

theorem toNat_tailByte (v : Nat) : (tailByte v).toNat = v % 64 + 0x80 :=
  UInt8.toNat_ofNat_of_lt' (by rw [UInt8.size]; omega)

theorem within_any (value more v : Nat) : (Pending.any value more).low ≤ v % 64 + 0x80 ∧
    v % 64 + 0x80 ≤ (Pending.any value more).high := by
  change 0x80 ≤ _ ∧ _ ≤ 0xbf
  omega

theorem decodeFrom_last (value v : Nat) (bs : List UInt8) :
    decodeFrom (some (.any value 0)) (tailByte v :: bs) =
      Char.ofNat (value * 64 + v % 64) :: decodeFrom none bs := by
  have hmod : (v % 64 + 0x80) % 64 = v % 64 := by omega
  obtain ⟨hl, hh⟩ := within_any value 0 v
  rw [decodeFrom, toNat_tailByte, step_last hl hh rfl, hmod]
  rfl

theorem decodeFrom_more (value more v : Nat) (bs : List UInt8) :
    decodeFrom (some (.any value (more + 1))) (tailByte v :: bs) =
      decodeFrom (some (.any (value * 64 + v % 64) more)) bs := by
  have hmod : (v % 64 + 0x80) % 64 = v % 64 := by omega
  obtain ⟨hl, hh⟩ := within_any value (more + 1) v
  rw [decodeFrom, toNat_tailByte, step_more hl hh rfl, hmod]
  rfl

/-- The four lengths of a character's bytes. -/
theorem encodeChar_eq (c : Char) : String.utf8EncodeChar c =
    if c.toNat ≤ 0x7f then [UInt8.ofNat c.toNat]
    else if c.toNat ≤ 0x7ff then [UInt8.ofNat (c.toNat / 64 % 32 + 0xc0), tailByte c.toNat]
    else if c.toNat ≤ 0xffff then
      [UInt8.ofNat (c.toNat / 4096 % 16 + 0xe0), tailByte (c.toNat / 64), tailByte c.toNat]
    else [UInt8.ofNat (c.toNat / 262144 % 8 + 0xf0), tailByte (c.toNat / 4096),
      tailByte (c.toNat / 64), tailByte c.toNat] := rfl

theorem decodeFrom_encodeChar (c : Char) (bs : List UInt8) :
    decodeFrom none (String.utf8EncodeChar c ++ bs) = c :: decodeFrom none bs := by
  have hvalid : c.toNat < 0xd800 ∨ 0xdfff < c.toNat ∧ c.toNat < 0x110000 := c.valid
  have hofNat : Char.ofNat c.toNat = c := Char.ofNat_toNat c
  rw [encodeChar_eq]
  split_ifs with h1 h2 h3
  · have hb : (UInt8.ofNat c.toNat).toNat = c.toNat :=
      UInt8.toNat_ofNat_of_lt' (by rw [UInt8.size]; omega)
    rw [List.singleton_append, decodeFrom, hb, step, start, if_pos (by omega), hofNat]
    rfl
  · have hb : (UInt8.ofNat (c.toNat / 64 % 32 + 0xc0)).toNat = c.toNat / 64 + 0xc0 := by
      rw [UInt8.toNat_ofNat_of_lt' (by rw [UInt8.size]; omega)]
      omega
    have hval : (c.toNat / 64 + 0xc0 - 0xc0) * 64 + c.toNat % 64 = c.toNat := by omega
    rw [List.cons_append, decodeFrom, hb, step, start_two (by omega) (by omega)]
    change decodeFrom (some (.any _ 0)) (tailByte c.toNat :: bs) = _
    rw [decodeFrom_last, hval, hofNat]
  · have hb : (UInt8.ofNat (c.toNat / 4096 % 16 + 0xe0)).toNat = c.toNat / 4096 + 0xe0 := by
      rw [UInt8.toNat_ofNat_of_lt' (by rw [UInt8.size]; omega)]
      omega
    obtain ⟨q, hq, hvalue, hmore, hlow, hhigh⟩ :=
      start_three (b := c.toNat / 4096 + 0xe0) (by omega) (by omega)
    have hstep : step (some q) (tailByte (c.toNat / 64)).toNat =
        ([], some (.any (q.value * 64 + c.toNat / 64 % 64) 0)) := by
      have hmod : (c.toNat / 64 % 64 + 0x80) % 64 = c.toNat / 64 % 64 := by omega
      rw [toNat_tailByte, step_more _ _ hmore, hmod]
      · rw [hlow]
        split_ifs <;> omega
      · rw [hhigh]
        split_ifs <;> omega
    have hval : (q.value * 64 + c.toNat / 64 % 64) * 64 + c.toNat % 64 = c.toNat := by
      rw [hvalue]
      omega
    rw [List.cons_append, decodeFrom, hb, step, hq]
    change decodeFrom (some q) (tailByte (c.toNat / 64) :: tailByte c.toNat :: bs) = _
    rw [decodeFrom, hstep]
    change decodeFrom (some (.any _ 0)) (tailByte c.toNat :: bs) = _
    rw [decodeFrom_last, hval, hofNat]
  · have hb : (UInt8.ofNat (c.toNat / 262144 % 8 + 0xf0)).toNat = c.toNat / 262144 + 0xf0 := by
      rw [UInt8.toNat_ofNat_of_lt' (by rw [UInt8.size]; omega)]
      omega
    obtain ⟨q, hq, hvalue, hmore, hlow, hhigh⟩ :=
      start_four (b := c.toNat / 262144 + 0xf0) (by omega) (by omega)
    have hstep : step (some q) (tailByte (c.toNat / 4096)).toNat =
        ([], some (.any (q.value * 64 + c.toNat / 4096 % 64) 1)) := by
      have hmod : (c.toNat / 4096 % 64 + 0x80) % 64 = c.toNat / 4096 % 64 := by omega
      rw [toNat_tailByte, step_more _ _ hmore, hmod]
      · rw [hlow]
        split_ifs <;> omega
      · rw [hhigh]
        split_ifs <;> omega
    have hval : ((q.value * 64 + c.toNat / 4096 % 64) * 64 + c.toNat / 64 % 64) * 64 +
        c.toNat % 64 = c.toNat := by
      rw [hvalue]
      omega
    rw [List.cons_append, decodeFrom, hb, step, hq]
    change decodeFrom (some q) (tailByte (c.toNat / 4096) :: tailByte (c.toNat / 64) ::
      tailByte c.toNat :: bs) = _
    rw [decodeFrom, hstep]
    change decodeFrom (some (.any _ 1)) (tailByte (c.toNat / 64) :: tailByte c.toNat :: bs) = _
    rw [decodeFrom_more, decodeFrom_last, hval, hofNat]

end Char

theorem fromUtf8Lossy_encode (text : List Char) : fromUtf8Lossy (encode text) = text := by
  induction text with
  | nil => rfl
  | cons c text ih =>
    rw [fromUtf8Lossy, encode, List.flatMap_cons, decodeFrom_encodeChar]
    exact congrArg _ ih

end Hbird.Utf8
