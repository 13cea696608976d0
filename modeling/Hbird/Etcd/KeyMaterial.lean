import Hbird.Text

namespace Hbird.Etcd

open Hbird.Text

/-- Year, month, day, hour, minute and second of an epoch second, after `civil_from_days`. -/
def civilFromEpoch (epochSecs : Nat) : Nat × Nat × Nat × Nat × Nat × Nat :=
  let days := epochSecs / 86400
  let rem := epochSecs % 86400
  let z := days + 719468
  let era := z / 146097
  let doe := z % 146097
  let yoe := (doe - doe / 1460 + doe / 36524 - doe / 146096) / 365
  let doy := doe - (365 * yoe + yoe / 4 - yoe / 100)
  let mp := (5 * doy + 2) / 153
  let d := doy - (153 * mp + 2) / 5 + 1
  let m := if mp < 10 then mp + 3 else mp - 9
  let y := yoe + era * 400 + if m ≤ 2 then 1 else 0
  (y, m, d, rem / 3600, rem % 3600 / 60, rem % 60)

/-- `{n:0width}`. -/
def zeroPadded (width n : Nat) : String :=
  let digits := Nat.toDigits 10 n
  String.ofList (List.replicate (width - digits.length) '0' ++ digits)

def rotationKeyName (epochSecs : Nat) : String :=
  match civilFromEpoch epochSecs with
  | (y, m, d, hh, mm, ss) => "key-" ++ zeroPadded 4 y ++ zeroPadded 2 m ++ zeroPadded 2 d ++
      zeroPadded 2 hh ++ zeroPadded 2 mm ++ zeroPadded 2 ss

def alphabet : List Char :=
  "ABCDEFGHIJKLMNOPQRSTUVWXYZabcdefghijklmnopqrstuvwxyz0123456789+/".toList

def sextet (n shift : Nat) : Char := alphabet.getD (n / 2 ^ shift % 64) 'A'

def base64Chars : List UInt8 → List Char
  | [] => []
  | [b0] =>
    let n := b0.toNat * 2 ^ 16
    [sextet n 18, sextet n 12, '=', '=']
  | [b0, b1] =>
    let n := b0.toNat * 2 ^ 16 + b1.toNat * 2 ^ 8
    [sextet n 18, sextet n 12, sextet n 6, '=']
  | b0 :: b1 :: b2 :: rest =>
    let n := b0.toNat * 2 ^ 16 + b1.toNat * 2 ^ 8 + b2.toNat
    sextet n 18 :: sextet n 12 :: sextet n 6 :: sextet n 0 :: base64Chars rest

def base64Encode (input : List UInt8) : String := String.ofList (base64Chars input)

/-- What `random_key_bytes` reads. -/
abbrev KeyBytes := { bytes : List UInt8 // bytes.length = 32 }

/-- The characters of names and secrets. -/
def isKeyChar (c : Char) : Bool := c.isAlphanum || c == '-' || c == '+' || c == '/' || c == '='

theorem isKeyChar_zeroPadded {width n : Nat} {c : Char} (h : c ∈ (zeroPadded width n).toList) :
    isKeyChar c = true := by
  rw [zeroPadded, String.toList_ofList] at h
  obtain h | h := List.mem_append.mp h
  · obtain rfl := List.eq_of_mem_replicate h
    decide
  · have hd : c.isDigit = true := Nat.isDigit_of_mem_toDigits (by decide) (by decide) h
    simp [isKeyChar, Char.isAlphanum, hd]

theorem isKeyChar_rotationKeyName {epochSecs : Nat} {c : Char}
    (h : c ∈ (rotationKeyName epochSecs).toList) : isKeyChar c = true := by
  unfold rotationKeyName at h
  simp only [String.toList_append, List.mem_append] at h
  obtain (((((h | h) | h) | h) | h) | h) | h := h
  · rw [show "key-".toList = ['k', 'e', 'y', '-'] from String.toList_ofList] at h
    exact List.all_eq_true.mp (by decide : ['k', 'e', 'y', '-'].all isKeyChar = true) c h
  all_goals exact isKeyChar_zeroPadded h

theorem isKeyChar_alphabet : ∀ c ∈ alphabet, isKeyChar c = true :=
  List.all_eq_true.mp (by decide)

theorem isKeyChar_sextet (n shift : Nat) : isKeyChar (sextet n shift) = true := by
  refine isKeyChar_alphabet _ ?_
  have hlen : n / 2 ^ shift % 64 < alphabet.length :=
    (Nat.mod_lt _ (by decide)).trans_eq (by decide)
  rw [sextet, List.getD, List.getElem?_eq_getElem hlen]
  exact List.getElem_mem hlen

theorem isKeyChar_pad : isKeyChar '=' = true := by decide

theorem isKeyChar_base64Chars {input : List UInt8} : ∀ c ∈ base64Chars input, isKeyChar c = true := by
  induction input using base64Chars.induct with
  | case1 => simp [base64Chars]
  | case2 b0 => simp [base64Chars, isKeyChar_sextet, isKeyChar_pad]
  | case3 b0 b1 => simp [base64Chars, isKeyChar_sextet, isKeyChar_pad]
  | case4 b0 b1 b2 rest ih => simpa [base64Chars, isKeyChar_sextet] using ih

theorem isKeyChar_base64Encode {input : List UInt8} {c : Char}
    (h : c ∈ (base64Encode input).toList) : isKeyChar c = true := by
  rw [base64Encode, String.toList_ofList] at h
  exact isKeyChar_base64Chars c h

example : rotationKeyName 1782000000 = "key-20260621000000" := by decide +kernel

end Hbird.Etcd
