import Hbird.Json.Grammar

namespace Hbird.Json.MiniJson

/-- What a reader makes of the input from the cursor on: a value and what is left behind it, or
none. A loop that has used up its fuel is `unfinished`. -/
inductive Reading (α : Type) : Type
  | rejected
  | read (value : α) (rest : List Char)
  | unfinished

namespace Reading

variable {α β : Type}

/-- `?`. -/
def andThen (r : Reading α) (f : α → List Char → Reading β) : Reading β :=
  match r with
  | .rejected => .rejected
  | .read a rest => f a rest
  | .unfinished => .unfinished

def map (f : α → β) (r : Reading α) : Reading β := r.andThen fun a rest => .read (f a) rest

end Reading

def maxDepth : Nat := 64

def skipWs (s : List Char) : List Char := s.dropWhile isWs

def eat (expected : Char) : List Char → Reading Unit
  | [] => .rejected
  | c :: rest => if c = expected then .read () rest else .rejected

def keyword (word : List Char) (s : List Char) : Reading Unit :=
  if word.isPrefixOf s then .read () (s.drop word.length) else .rejected

def skipDigits (s : List Char) : Reading Unit :=
  if s.takeWhile Char.isDigit = [] then .rejected else .read () (s.dropWhile Char.isDigit)

def skipSign (signs : List Char) : List Char → List Char
  | [] => []
  | c :: rest => if c ∈ signs then rest else c :: rest

def skipFraction : List Char → Reading Unit
  | '.' :: rest => skipDigits rest
  | s => .read () s

def skipExponent : List Char → Reading Unit
  | [] => .read () []
  | c :: rest => if c = 'e' ∨ c = 'E' then skipDigits (skipSign ['+', '-'] rest) else .read () (c :: rest)

def number (s : List Char) : Reading String :=
  (skipDigits (skipSign ['-'] s)).andThen fun _ s₁ =>
  (skipFraction s₁).andThen fun _ s₂ =>
  (skipExponent s₂).andThen fun _ rest =>
  .read (String.ofList (s.take (s.length - rest.length))) rest

/-- `u32::from_str_radix` with radix 16: a plus sign may stand in front of the digits. -/
def fromStrRadix16 : List Char → Option Nat
  | [] => none
  | ['+'] => none
  | '+' :: ds => hexValue ds
  | ds => hexValue ds

def hex4 (s : List Char) : Reading Nat :=
  if s.length < 4 then .rejected
  else match fromStrRadix16 (s.take 4) with
    | some n => .read n (s.drop 4)
    | none => .rejected

/-- `char::from_u32`. -/
def fromU32 (n : Nat) : Option Char := if n.isValidChar then some (Char.ofNat n) else none

def unicodeEscape (s : List Char) : Reading Char :=
  (hex4 s).andThen fun first s₁ =>
  if 0xD800 ≤ first ∧ first ≤ 0xDBFF then
    (eat '\\' s₁).andThen fun _ s₂ =>
    (eat 'u' s₂).andThen fun _ s₃ =>
    (hex4 s₃).andThen fun second rest =>
    if 0xDC00 ≤ second ∧ second ≤ 0xDFFF then
      match fromU32 (0x10000 + (first - 0xD800) * 1024 + (second - 0xDC00)) with
      | some c => .read c rest
      | none => .rejected
    else .rejected
  else match fromU32 first with
    | some c => .read c s₁
    | none => .rejected

/-- One turn of the loop of `string`, where no quote closes it. -/
def character : List Char → Reading Char
  | [] => .rejected
  | '\\' :: [] => .rejected
  | '\\' :: e :: rest =>
    match shortEscapes.lookup e with
    | some c => .read c rest
    | none => if e = 'u' then unicodeEscape rest else .rejected
  | c :: rest => if c.toNat < 0x20 then .rejected else .read c rest

def characters : Nat → List Char → List Char → Reading String
  | 0, _, _ => .unfinished
  | _ + 1, '"' :: rest, out => .read (String.ofList out) rest
  | n + 1, s, out => (character s).andThen fun c rest => characters n rest (out ++ [c])

def string (s : List Char) : Reading String :=
  (eat '"' s).andThen fun _ rest => characters (rest.length + 1) rest []

/-- The loops of `array` and `object`. -/
def separated {α : Type} (item : List Char → Reading α) (closing : Char) :
    Nat → List Char → List α → Reading (List α)
  | 0, _, _ => .unfinished
  | n + 1, s, items => (item s).andThen fun a s₁ =>
    match skipWs s₁ with
    | [] => .rejected
    | c :: rest =>
      if c = ',' then separated item closing n rest (items ++ [a])
      else if c = closing then .read (items ++ [a]) rest
      else .rejected

def bracketed {α : Type} (item : List Char → Reading α) (opening closing : Char) (s : List Char) :
    Reading (List α) :=
  (eat opening s).andThen fun _ s₁ =>
  match eat closing (skipWs s₁) with
  | .read _ rest => .read [] rest
  | _ => separated item closing ((skipWs s₁).length + 1) (skipWs s₁) []

def member (value : List Char → Reading Value) (s : List Char) : Reading (String × Value) :=
  (string (skipWs s)).andThen fun key s₁ =>
  (eat ':' (skipWs s₁)).andThen fun _ s₂ =>
  (value s₂).map fun v => (key, v)

/-- `value`, with so many levels left. -/
def value : Nat → List Char → Reading Value
  | 0, _ => .rejected
  | k + 1, s =>
    match skipWs s with
    | [] => .rejected
    | c :: rest =>
      if c = 'n' then (keyword ['n', 'u', 'l', 'l'] (c :: rest)).map fun _ => .null
      else if c = 't' then (keyword ['t', 'r', 'u', 'e'] (c :: rest)).map fun _ => .bool true
      else if c = 'f' then (keyword ['f', 'a', 'l', 's', 'e'] (c :: rest)).map fun _ => .bool false
      else if c = '"' then (string (c :: rest)).map .str
      else if c = '[' then (bracketed (value k) '[' ']' (c :: rest)).map .array
      else if c = '{' then (bracketed (member (value k)) '{' '}' (c :: rest)).map .object
      else if c = '-' ∨ c.isDigit then (number (c :: rest)).map .number
      else .rejected

/-- `parse`: depths from 0 to `maxDepth`, and nothing but blanks behind the value. -/
def parse (input : List Char) : Option Value :=
  match value (maxDepth + 1) input with
  | .read v rest => if skipWs rest = [] then some v else none
  | _ => none

end Hbird.Json.MiniJson
