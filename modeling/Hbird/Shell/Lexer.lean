import Mathlib

namespace Hbird.Shell

/-- A character of a word, or an expansion that stands in it. -/
inductive Mark : Type
  | bare (c : Char)
  | quoted (c : Char)
  | expansion (text : List Char) (inDouble : Bool)
  deriving DecidableEq, Repr

abbrev Word := List Mark

inductive Token : Type
  | word (word : Word)
  | operator (c : Char)
  | hereOperator
  | document (body : List Char)
  deriving DecidableEq, Repr

/-- Where the reading of a line is. -/
inductive Mode : Type
  | blank
  | word
  | single
  | double
  | escape (inWord : Bool)
  | escapeDouble
  | dollar (inDouble : Bool)
  | name (inDouble : Bool) (text : List Char)
  | command (inDouble : Bool) (text : List Char)
  | comment
  | less
  | hereOperator
  | document (delimiter line body : List Char)
  deriving DecidableEq, Repr

/-- A here-document: its delimiter is the next word, or its text begins behind the next line
feed. -/
inductive Here : Type
  | none
  | awaited
  | pending (delimiter : List Char)
  deriving DecidableEq, Repr

structure State where
  mode : Mode
  word : Word
  out : List Token
  here : Here
  deriving DecidableEq, Repr

def isBlank (c : Char) : Bool := c == ' ' || c == '\t'

def isOperator (c : Char) : Bool :=
  c == '\n' || c == ';' || c == '&' || c == '|' || c == '<' || c == '>' || c == '(' || c == ')'

def isBackquote (c : Char) : Bool := c.toNat == 0x60

def beginsName (c : Char) : Bool := c.isAlpha || c == '_'

def isNameChar (c : Char) : Bool := c.isAlphanum || c == '_'

/-- A parameter of one character. -/
def isParameter (c : Char) : Bool :=
  c.isDigit || c == '@' || c == '*' || c == '#' || c == '?' || c == '-' || c == '$' || c == '!'

def Mark.char? : Mark → Option Char
  | .bare c => some c
  | .quoted c => some c
  | .expansion _ _ => none

def Mark.isQuoted : Mark → Bool
  | .quoted _ => true
  | _ => false

/-- The text of a word in which nothing is expanded. -/
def Word.text? (w : Word) : Option (List Char) := w.mapM Mark.char?

namespace State

def start : State := ⟨.blank, [], [], .none⟩

def push (s : State) (inDouble : Bool) (m : Mark) : State :=
  { s with mode := if inDouble then .double else .word, word := s.word ++ [m] }

/-- A delimiter without quotes, which would have its document expanded, is not read. -/
def endWord (s : State) : Option State :=
  match s.here with
  | .awaited =>
    if s.word.any Mark.isQuoted then
      (Word.text? s.word).map fun d => ⟨.blank, [], s.out ++ [.word s.word], .pending d⟩
    else none
  | here => some ⟨.blank, [], s.out ++ [.word s.word], here⟩

/-- An operator, one character at a time, behind the last word. -/
def operator (s : State) (c : Char) : Option State :=
  match s.here with
  | .awaited => none
  | .none =>
    if c = '<' then some { s with mode := .less }
    else some { s with out := s.out ++ [.operator c] }
  | .pending d =>
    if c = '<' then some { s with mode := .less }
    else if c = '\n' then 
      some { s with mode := .document d [] [], out := s.out ++ [.operator c], here := .none }
    else some { s with out := s.out ++ [.operator c] }

/-- A character that belongs to a word outside quotes. -/
def char (s : State) (inWord : Bool) (c : Char) : Option State :=
  if c = '\'' then some { s with mode := .single }
  else if c = '"' then some { s with mode := .double }
  else if c = '\\' then some { s with mode := .escape inWord }
  else if c = '$' then some { s with mode := .dollar false }
  else if isBackquote c then none
  else some (s.push false (.bare c))

def blankStep (s : State) (c : Char) : Option State :=
  if isBlank c then some s
  else if isOperator c then s.operator c
  else if c = '#' then some { s with mode := .comment }
  else s.char false c

def wordStep (s : State) (c : Char) : Option State :=
  if isBlank c then s.endWord
  else if isOperator c then s.endWord.bind (·.operator c)
  else s.char true c

def doubleStep (s : State) (c : Char) : Option State :=
  if c = '"' then some { s with mode := .word }
  else if c = '\\' then some { s with mode := .escapeDouble }
  else if c = '$' then some { s with mode := .dollar true }
  else if isBackquote c then none
  else some (s.push true (.quoted c))

/-- Back in the word, inside double quotes or outside. -/
def resume (s : State) (inDouble : Bool) (c : Char) : Option State :=
  if inDouble then s.doubleStep c else s.wordStep c

/-- A dollar sign that begins no expansion stands for itself. `${`, `$[`, `$'` and `$"` are not
read. -/
def dollarStep (s : State) (inDouble : Bool) (c : Char) : Option State :=
  if beginsName c then some { s with mode := .name inDouble [c] }
  else if isParameter c then some (s.push inDouble (.expansion [c] inDouble))
  else if c = '(' then some { s with mode := .command inDouble [] }
  else if c = '{' ∨ c = '[' ∨ inDouble = false ∧ (c = '\'' ∨ c = '"') then none
  else if inDouble then (s.push true (.quoted '$')).doubleStep c
  else (s.push false (.bare '$')).wordStep c

/-- The command of a substitution, up to the first closing parenthesis: one with quotes, comments
or expansions of its own is not read. -/
def commandStep (s : State) (inDouble : Bool) (text : List Char) (c : Char) : Option State :=
  if c = ')' then some (s.push inDouble (.expansion ('(' :: text) inDouble))
  else if c = '\'' ∨ c = '"' ∨ c = '\\' ∨ c = '$' ∨ c = '(' ∨ c = '#' ∨ isBackquote c then none
  else some { s with mode := .command inDouble (text ++ [c]) }

def step (s : State) (c : Char) : Option State :=
  match s.mode with
  | .blank => s.blankStep c
  | .word => s.wordStep c
  | .single =>
    if c = '\'' then some { s with mode := .word }
    else some { s with word := s.word ++ [.quoted c] }
  | .double => s.doubleStep c
  | .escape inWord =>
    if c = '\n' then some { s with mode := if inWord then .word else .blank }
    else some (s.push false (.quoted c))
  | .escapeDouble =>
    if c = '$' ∨ c = '"' ∨ c = '\\' ∨ isBackquote c then some (s.push true (.quoted c))
    else if c = '\n' then some { s with mode := .double }
    else some ((s.push true (.quoted '\\')).push true (.quoted c))
  | .dollar inDouble => s.dollarStep inDouble c
  | .name inDouble text =>
    if isNameChar c then some { s with mode := .name inDouble (text ++ [c]) }
    else (s.push inDouble (.expansion text inDouble)).resume inDouble c
  | .command inDouble text => s.commandStep inDouble text c
  | .comment => if c = '\n' then State.operator { s with mode := .blank } c else some s
  | .less =>
    if c = '<' then
      if s.here = .none then some { s with mode := .hereOperator, out := s.out ++ [.hereOperator] }
      else none
    else blankStep { s with mode := .blank, out := s.out ++ [.operator '<'] } c
  | .hereOperator =>
    if c = '-' then none else blankStep { s with mode := .blank, here := .awaited } c
  | .document d line body =>
    if c ≠ '\n' then some { s with mode := .document d (line ++ [c]) body }
    else if line = d then some { s with mode := .blank, out := s.out ++ [.document body] }
    else some { s with mode := .document d [] (body ++ line ++ ['\n']) }

def ended (s : State) : Option (List Token) := if s.here = .none then some s.out else none

/-- The tokens at the end of a line. Quotes that are not closed and a backslash that nothing
follows are refused. -/
def finish (s : State) : Option (List Token) :=
  match s.mode with
  | .blank => s.ended
  | .comment => s.ended
  | .word => s.endWord.bind ended
  | .dollar false => (s.push false (.bare '$')).endWord.bind ended
  | .name false text => (s.push false (.expansion text false)).endWord.bind ended
  | .document d line body => if line = d then some (s.out ++ [.document body]) else none
  | _ => none

def run (s : State) : List Char → Option State
  | [] => some s
  | c :: cs => (s.step c).bind (·.run cs)

end State

/-- The tokens of a shell line. -/
def tokens (line : List Char) : Option (List Token) := (State.start.run line).bind State.finish

section Words

/-- How far a word is on the way to a pattern: outside brackets, behind an opening one, behind
its negation, inside, or past a character that makes it one. -/
inductive Glob : Type
  | outside
  | opened
  | negated
  | inside
  | pattern
  deriving DecidableEq, Repr

def Glob.next : Glob → Mark → Glob
  | .pattern, _ => .pattern
  | g, .bare c =>
    if c = '*' ∨ c = '?' then .pattern
    else if c = '/' then .outside
    else match g with
      | .outside => if c = '[' then .opened else .outside
      | .opened => if c = '!' ∨ c = '^' then .negated else .inside
      | .negated => .inside
      | _ => if c = ']' then .pattern else .inside
  | g, .quoted c => if c = '/' then .outside else if g = .outside then .outside else .inside
  | g, .expansion _ _ => g

/-- A word that the names of files may take the place of. -/
def Word.isPattern (w : Word) : Bool := w.foldl Glob.next .outside == .pattern

/-- Whether a word begins with a tilde and a login name. -/
inductive Tilde : Type
  | start
  | login
  | found
  | absent
  deriving DecidableEq, Repr

def Tilde.next : Tilde → Mark → Tilde
  | .start, .bare c => if c = '~' then .login else .absent
  | .login, .bare c => if c = '/' then .found else .login
  | .found, _ => .found
  | _, _ => .absent

def Word.isTilde (w : Word) : Bool :=
  match w.foldl Tilde.next .start with
  | .login => true
  | .found => true
  | _ => false

/-- The text of a word that is the same on every host: without expansions, no pattern, no
tilde, and none of the words that `braces`, if the shell has such, makes others of. -/
def Word.fixed? (braces : Word → Bool) (w : Word) : Option (List Char) :=
  if w.isPattern || w.isTilde || braces w then none else w.text?

def Token.fixed? (braces : Word → Bool) : Token → Option (List Char)
  | .word w => w.fixed? braces
  | _ => none

/-- The arguments of a line that is one simple command, its words the same on every host. -/
def argv (braces : Word → Bool) (line : List Char) : Option (List (List Char)) :=
  (tokens line).bind fun ts => ts.mapM (Token.fixed? braces)

end Words

end Hbird.Shell
