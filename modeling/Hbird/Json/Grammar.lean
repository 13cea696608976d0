import Mathlib

namespace Hbird.Json

/-- A JSON value; a number is kept as its text. -/
inductive Value : Type
  | null
  | bool (b : Bool)
  | number (text : String)
  | str (s : String)
  | array (items : List Value)
  | object (entries : List (String × Value))

/-- The grammar of RFC 8259 and, where `relaxed` is true, the one that permits zeros in front of a
number and a plus sign as the first of the four characters behind `\u`. -/
structure Dialect where
  relaxed : Bool

def rfc : Dialect := ⟨false⟩

def relaxed : Dialect := ⟨true⟩

def isWs (c : Char) : Bool := c = ' ' || c = '\t' || c = '\n' || c = '\r'

def IsWs (w : List Char) : Prop := ∀ c ∈ w, isWs c = true

def Digits (ds : List Char) : Prop := ds ≠ [] ∧ ∀ c ∈ ds, c.isDigit = true

def hexDigit (c : Char) : Option Nat :=
  if c.isDigit then some (c.toNat - '0'.toNat)
  else if 'a' ≤ c ∧ c ≤ 'f' then some (c.toNat - 'a'.toNat + 10)
  else if 'A' ≤ c ∧ c ≤ 'F' then some (c.toNat - 'A'.toNat + 10)
  else none

def hexValue (ds : List Char) : Option Nat :=
  ds.foldlM (fun n c => (hexDigit c).map (16 * n + ·)) 0

/-- What may follow the first digit of a number. -/
def inNumber (c : Char) : Bool := c.isDigit || ['.', 'e', 'E', '+', '-'].contains c

/-- The characters that stand behind a backslash for another one. -/
def shortEscapes : List (Char × Char) :=
  [('"', '"'), ('\\', '\\'), ('/', '/'), ('b', '\x08'), ('f', '\x0c'), ('n', '\n'), ('r', '\r'),
    ('t', '\t')]

/-- `P` between blanks. -/
def Padded {α : Type} (P : α → List Char → Prop) (a : α) (s : List Char) : Prop :=
  ∃ w t w', IsWs w ∧ P a t ∧ IsWs w' ∧ s = w ++ t ++ w'

/-- Texts of `as` with commas between them, in brackets. -/
def IsList {α : Type} (P : α → List Char → Prop) (opening closing : Char) (as : List α)
    (s : List Char) : Prop :=
  (as = [] ∧ ∃ w, IsWs w ∧ s = opening :: w ++ [closing]) ∨
    (as ≠ [] ∧ ∃ parts, List.Forall₂ P as parts ∧
      s = opening :: [','].intercalate parts ++ [closing])

namespace Dialect

variable (d : Dialect)

def Integer (ds : List Char) : Prop :=
  Digits ds ∧ (ds = ['0'] ∨ ds.head? ≠ some '0' ∨ d.relaxed = true)

def Number (s : List Char) : Prop :=
  ∃ sign int frac exp, s = sign ++ int ++ frac ++ exp ∧ (sign = [] ∨ sign = ['-']) ∧
    d.Integer int ∧ (frac = [] ∨ ∃ ds, Digits ds ∧ frac = '.' :: ds) ∧
    (exp = [] ∨ ∃ e sign' ds, (e = 'e' ∨ e = 'E') ∧
      (sign' = [] ∨ sign' = ['+'] ∨ sign' = ['-']) ∧ Digits ds ∧ exp = e :: sign' ++ ds)

def Hex4 (t : List Char) (n : Nat) : Prop :=
  t.length = 4 ∧
    (hexValue t = some n ∨ d.relaxed = true ∧ ∃ ds, t = '+' :: ds ∧ hexValue ds = some n)

/-- The ways to write a character in a string. -/
inductive Character : Char → List Char → Prop
  | raw {c : Char} (hc : 0x20 ≤ c.toNat) (hquote : c ≠ '"') (hslash : c ≠ '\\') : Character c [c]
  | short {c e : Char} (h : (e, c) ∈ shortEscapes) : Character c ['\\', e]
  | unicode {c : Char} {t : List Char} (h : d.Hex4 t c.toNat) : Character c ('\\' :: 'u' :: t)
  | pair {c : Char} {t t' : List Char} {high low : Nat} (h : d.Hex4 t high) (h' : d.Hex4 t' low)
      (hhigh : 0xD800 ≤ high ∧ high ≤ 0xDBFF) (hlow : 0xDC00 ≤ low ∧ low ≤ 0xDFFF)
      (hc : c.toNat = 0x10000 + (high - 0xD800) * 1024 + (low - 0xDC00)) :
      Character c ('\\' :: 'u' :: t ++ '\\' :: 'u' :: t')

def Str (text : String) (s : List Char) : Prop :=
  ∃ parts, List.Forall₂ d.Character text.toList parts ∧ s = '"' :: parts.flatten ++ ['"']

def Member (P : Value → List Char → Prop) (entry : String × Value) (s : List Char) : Prop :=
  ∃ k t, Padded d.Str entry.1 k ∧ Padded P entry.2 t ∧ s = k ++ ':' :: t

/-- The texts of a value that has at most this many levels. -/
def Text : Nat → Value → List Char → Prop
  | 0, _, _ => False
  | k + 1, v, s =>
    match v with
    | .null => s = ['n', 'u', 'l', 'l']
    | .bool true => s = ['t', 'r', 'u', 'e']
    | .bool false => s = ['f', 'a', 'l', 's', 'e']
    | .number text => s = text.toList ∧ d.Number s
    | .str text => d.Str text s
    | .array items => IsList (Padded (Text k)) '[' ']' items s
    | .object entries => IsList (d.Member (Text k)) '{' '}' entries s

end Dialect

end Hbird.Json
