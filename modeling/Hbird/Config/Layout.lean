import Hbird.Config.Parser

namespace Hbird.Config

open Hbird.Text

/-- How an element of an array is written. -/
inductive Style : Type
  | bare
  | single
  | double
  deriving DecidableEq, Repr

namespace Style

/-- No quote, parenthesis or `#`, and no white space. -/
def IsPlain (c : Char) : Prop := isWhitespace c = false ∧ c ∉ ['"', '\'', '(', ')', '#']

instance (c : Char) : Decidable (IsPlain c) := inferInstanceAs (Decidable (_ ∧ _))

/-- The texts that can be written so. -/
def Allows : Style → List Char → Prop
  | .bare, text => text ≠ [] ∧ ∀ c ∈ text, IsPlain c
  | .single, text => '\'' ∉ text ∧ '\n' ∉ text
  | .double, text => '"' ∉ text ∧ '\n' ∉ text

instance decidableAllows : (style : Style) → (text : List Char) → Decidable (style.Allows text)
  | .bare, text =>
    have := List.decidableBAll IsPlain text
    inferInstanceAs (Decidable (text ≠ [] ∧ ∀ c ∈ text, IsPlain c))
  | .single, text => inferInstanceAs (Decidable ('\'' ∉ text ∧ '\n' ∉ text))
  | .double, text => inferInstanceAs (Decidable ('"' ∉ text ∧ '\n' ∉ text))

def render : Style → List Char → List Char
  | .bare, text => text
  | .single, text => '\'' :: text ++ ['\'']
  | .double, text => '"' :: text ++ ['"']

end Style

structure Element where
  style : Style
  text : List Char
  allows : style.Allows text

def Element.render (e : Element) : List Char := e.style.render e.text

def IsBlank (s : List Char) : Prop := ∀ c ∈ s, isWhitespace c = true

instance (s : List Char) : Decidable (IsBlank s) :=
  List.decidableBAll (fun c => isWhitespace c = true) s

/-- White space stands between any two elements of a line. -/
def Spaced : List (List Char × Element) → Prop
  | [] => True
  | first :: rest => IsBlank first.1 ∧ ∀ item ∈ rest, item.1 ≠ [] ∧ IsBlank item.1

/-- What a line holds of an array: elements, each behind its white space, and a comment. -/
structure Line where
  items : List (List Char × Element)
  trail : List Char
  comment : Option (List Char)
  spaced : Spaced items
  blank : IsBlank trail

namespace Line

def elements (l : Line) : List Element := l.items.map (·.2)

def renderItems (items : List (List Char × Element)) : List Char :=
  items.flatMap fun item => item.1 ++ item.2.render

def renderComment : Option (List Char) → List Char
  | none => []
  | some text => '#' :: text

def render (l : Line) : List Char := renderItems l.items ++ (l.trail ++ renderComment l.comment)

/-- A comment has white space before it, or the line to itself. -/
def IsLed (l : Line) : Prop := l.comment.isSome → l.trail ≠ [] ∨ l.items = []

/-- A comment that has the line to itself, or none. -/
def IsPure (l : Line) : Prop := l.comment.isSome → l.items = []

end Line

/-- An array assignment as it can stand in a file: on one line, or with line ends between its
elements, `init` being what stands before them. -/
structure ArrayText where
  indent : List Char
  key : List Char
  init : List Line
  last : Line
  tail : List Char
  indent_blank : IsBlank indent
  key_valid : isValidKey key = true
  led : ∀ l ∈ init, l.IsLed
  -- Behind the parenthesis a comment needs white space as well.
  opening_led : ∀ l ∈ init.head?, l.comment.isSome → l.items = [] → l.trail ≠ []
  last_comment : last.comment = none

namespace ArrayText

def elements (a : ArrayText) : List Element := a.init.flatMap Line.elements ++ a.last.elements

def texts (a : ArrayText) : List String := a.elements.map fun e => String.ofList e.text

def lastLine (a : ArrayText) : List Char := a.last.render ++ ')' :: a.tail

/-- The lines of the file. -/
def lines (a : ArrayText) : List (List Char) :=
  match a.init with
  | [] => [a.indent ++ (a.key ++ '=' :: '(' :: a.lastLine)]
  | l :: ls => (a.indent ++ (a.key ++ '=' :: '(' :: l.render)) :: (ls.map Line.render ++ [a.lastLine])

/-- Nothing stands behind the closing parenthesis but white space and a comment behind it. -/
def TailOk (a : ArrayText) : Prop :=
  IsBlank a.tail ∨ ∃ space text, a.tail = space ++ '#' :: text ∧ IsBlank space ∧ space ≠ []

/-- Its elements are all that the text assigns; with anything else behind it, it is refused. -/
def IsRead (a : ArrayText) (text : String) : Prop :=
  (a.TailOk → tokenize text = .ok [(String.ofList a.key, 1, .array a.texts)]) ∧
    (¬ a.TailOk → ∃ e, tokenize text = .error e)

/-- No closing parenthesis in an element or a comment, no comment on the opening line or behind
an element. -/
structure IsClean (a : ArrayText) : Prop where
  elements : ∀ e ∈ a.elements, ')' ∉ e.text
  comments : ∀ l ∈ a.init, ∀ text ∈ l.comment, ')' ∉ text
  opening : ∀ l ∈ a.init.head?, l.comment = none
  pure : ∀ l ∈ a.init, l.IsPure

end ArrayText

/-- Where the text leaves its reader: between elements, inside quotes, or inside a bare element. -/
def modeAfter : Mode → List Char → Mode
  | mode, [] => mode
  | .between, c :: cs =>
    if isWhitespace c then modeAfter .between cs
    else if c = '"' ∨ c = '\'' then modeAfter (.quoted c) cs
    else modeAfter .bare cs
  | .quoted quote, c :: cs =>
    if c = quote then modeAfter .between cs else modeAfter (.quoted quote) cs
  | .bare, c :: cs => if isWhitespace c then modeAfter .between cs else modeAfter .bare cs

/-- The text leaves a quote open. -/
def LeavesQuoteOpen (text : List Char) : Prop := ∃ quote, modeAfter .between text = .quoted quote

/-- Behind the first line of an array: the text before the first closing parenthesis, without the
blank lines and the lines that are comments, and the lines behind the one that it stands on. -/
def untilParenLines : List Char → List (List Char) → List Char × List (List Char)
  | text, [] => (text, [])
  | text, line :: lines =>
    match find ')' line with
    | some (before, _) => (text ++ before, lines)
    | none => untilParenLines (if isSkipped line then text else text ++ line ++ [' ']) lines

def untilParen (first : List Char) (lines : List (List Char)) : List Char × List (List Char) :=
  match find ')' first with
  | some (before, _) => (before, lines)
  | none => untilParenLines (first ++ [' ']) lines

/-- A line that assigns a scalar. -/
def AssignsScalar (line : List Char) : Prop :=
  ∃ key rhs text, find '=' (trimStart line) = some (key, rhs) ∧ isValidKey key = true ∧
    parseScalar 0 line rhs = .ok text

namespace ArrayText

/-- What stands behind the opening parenthesis on its line, and the lines after it. -/
def opened (a : ArrayText) : List Char × List (List Char) :=
  match a.init with
  | [] => (a.lastLine, [])
  | l :: ls => (l.render, ls.map Line.render ++ [a.lastLine])

/-- The text before the first closing parenthesis leaves a quote open, or a line behind it cannot
stand on its own. -/
def IsMangled (a : ArrayText) : Prop :=
  LeavesQuoteOpen (untilParen a.opened.1 a.opened.2).1 ∨
    ∃ line ∈ (untilParen a.opened.1 a.opened.2).2, isSkipped line = false ∧ ¬ AssignsScalar line

end ArrayText

end Hbird.Config
