import Hbird.ExportArgocd.Rewrite

namespace Hbird.ExportArgocd

open Hbird.Lines Hbird.Text

inductive Kind : Type
  | cluster
  | context
  | user
  deriving DecidableEq, Repr

/-- A text on one line. -/
abbrev OneLine := { text : List Char // '\n' ∉ text }

def isBlank (c : Char) : Bool := c == ' ' || c == '\t'

/-- What stands behind the colon of a key, up to the end of the line. -/
structure Value where
  text : List Char
  blank : text.head?.any isBlank = true
  oneLine : '\n' ∉ text
  deriving DecidableEq

def spaces (n : Nat) : List Char := List.replicate n ' '

/-- What stands in front of a key: spaces, or the dash of a list item between spaces. -/
structure Lead where
  indent : Nat
  dash : Option Nat
  deriving DecidableEq, Repr

def Lead.text (lead : Lead) : List Char :=
  spaces lead.indent ++ match lead.dash with
    | none => []
    | some gap => '-' :: spaces (gap + 1)

def Kind.referenceKey : Kind → List Char
  | .cluster => "cluster:".toList
  | .context => "current-context:".toList
  | .user => "user:".toList

/-- A line, with what it is to the clusters, contexts and users. -/
inductive Line : Type
  | unrelated (text : OneLine)
  | definition (k : Kind) (lead : Lead) (value : Value)
  | reference (k : Kind) (indent : Nat) (value : Value)
  | server (indent : Nat) (value : Option Value)

def Line.text : Line → List Char
  | .unrelated text => text.1
  | .definition _ lead value => lead.text ++ "name:".toList ++ value.text
  | .reference k indent value => spaces indent ++ k.referenceKey ++ value.text
  | .server indent value => spaces indent ++ "server:".toList ++ (value.map Value.text).getD []

/-- A line inside the body of a list item. -/
inductive Nested : Kind → Type
  | server (value : Option Value) : Nested .cluster
  | cluster (value : Value) : Nested .context
  | user (value : Value) : Nested .context
  | other {k : Kind} (text : OneLine) : Nested k

def Nested.line {k : Kind} (column : Nat) : Nested k → Line
  | .server value => .server column value
  | .cluster value => .reference .cluster column value
  | .user value => .reference .user column value
  | .other text => .unrelated text

/-- A key of a list item: its name, or its body, indented further by `extra + 1`. -/
inductive Member (k : Kind) : Type
  | name (value : Value)
  | body (note : OneLine) (extra : Nat) (lines : List (Nested k))

def Kind.bodyKey : Kind → List Char
  | .cluster => "cluster:".toList
  | .context => "context:".toList
  | .user => "user:".toList

theorem lineFeed_spaces (n : Nat) : '\n' ∉ spaces n := fun h =>
  absurd (List.eq_of_mem_replicate h) (by decide)

theorem Lead.lineFeed (lead : Lead) : '\n' ∉ lead.text := by
  rw [Lead.text, List.mem_append, not_or]
  refine ⟨lineFeed_spaces _, ?_⟩
  cases lead.dash with
  | none => exact List.not_mem_nil
  | some gap => exact List.not_mem_cons_of_ne_of_not_mem (by decide) (lineFeed_spaces _)

theorem Kind.lineFeed_bodyKey (k : Kind) : '\n' ∉ k.bodyKey := by
  cases k <;> decide

theorem Kind.lineFeed_referenceKey (k : Kind) : '\n' ∉ k.referenceKey := by
  cases k <;> decide

/-- The line of a body's key. -/
def bodyLine (k : Kind) (lead : Lead) (note : OneLine) : OneLine :=
  ⟨lead.text ++ k.bodyKey ++ note.1, by
    simp only [List.mem_append, not_or]
    exact ⟨⟨lead.lineFeed, k.lineFeed_bodyKey⟩, note.2⟩⟩

def Member.lines {k : Kind} (lead : Lead) (column : Nat) : Member k → List Line
  | .name value => [.definition k lead value]
  | .body note extra lines =>
    .unrelated (bodyLine k lead note) :: lines.map (Nested.line (column + extra + 1))

/-- The dash of a list item: in front of the first key, or on a line of its own. -/
inductive Dash : Type
  | inline (gap : Nat)
  | alone (note : OneLine) (extra : Nat)

/-- An item of a list; between its keys there may be other lines. -/
structure Item (k : Kind) where
  ahead : List OneLine
  dash : Dash
  first : Member k
  members : List (Member k ⊕ OneLine)

def dashLine (indent : Nat) (note : OneLine) : OneLine :=
  ⟨spaces indent ++ '-' :: note.1, by
    rw [List.mem_append, List.mem_cons, not_or, not_or]
    exact ⟨lineFeed_spaces _, by decide, note.2⟩⟩

def memberLines {k : Kind} (column : Nat) : Member k ⊕ OneLine → List Line
  | .inl member => member.lines ⟨column, none⟩ column
  | .inr text => [.unrelated text]

def Item.lines {k : Kind} (indent : Nat) (item : Item k) : List Line :=
  item.ahead.map .unrelated ++ match item.dash with
    | .inline gap =>
      item.first.lines ⟨indent, some gap⟩ (indent + gap + 2) ++
        item.members.flatMap (memberLines (indent + gap + 2))
    | .alone note extra =>
      .unrelated (dashLine indent note) :: (item.first.lines ⟨indent + extra + 1, none⟩
        (indent + extra + 1) ++ item.members.flatMap (memberLines (indent + extra + 1)))

def Kind.listKey : Kind → List Char
  | .cluster => "clusters:".toList
  | .context => "contexts:".toList
  | .user => "users:".toList

def listLine (k : Kind) (note : OneLine) : OneLine :=
  ⟨k.listKey ++ note.1, by
    rw [List.mem_append, not_or]
    exact ⟨by cases k <;> decide, note.2⟩⟩

/-- A part of the document; the items of a list are indented by `indent`, or not at all. -/
inductive Part : Type
  | list (k : Kind) (note : OneLine) (indent : Nat) (items : List (Item k))
  | currentContext (value : Value)
  | other (text : OneLine)

def Part.lines : Part → List Line
  | .list k note indent items => .unrelated (listLine k note) :: items.flatMap (Item.lines indent)
  | .currentContext value => [.reference .context 0 value]
  | .other text => [.unrelated text]

/-- A kubeconfig in block style. -/
structure Kubeconfig where
  parts : List Part
  final : Bool

def Kubeconfig.lines (d : Kubeconfig) : List Line := d.parts.flatMap Part.lines

def textOfLines (final : Bool) (ls : List Line) : List Char := textOf '\n' final (ls.map Line.text)

def Kubeconfig.text (d : Kubeconfig) : List Char := textOfLines d.final d.lines

/-- The same key at the same place. -/
inductive SamePlace : Line → Line → Prop
  | unrelated (text : OneLine) : SamePlace (.unrelated text) (.unrelated text)
  | definition (k : Kind) (lead : Lead) (value value' : Value) :
      SamePlace (.definition k lead value) (.definition k lead value')
  | reference (k : Kind) (indent : Nat) (value value' : Value) :
      SamePlace (.reference k indent value) (.reference k indent value')
  | server (indent : Nat) (value value' : Option Value) :
      SamePlace (.server indent value) (.server indent value')

/-- How names behind a key are read: blanks in front do not count, nothing else in front is dropped,
and the default names are plain scalars. -/
structure ReadsNames (read : List Char → Option (List Char)) : Prop where
  blanks : ∀ gap s, gap ≠ [] → (∀ c ∈ gap, isBlank c = true) → read (gap ++ s) = read (' ' :: s)
  defaults : ∀ t ∈ defaultNames, read (' ' :: t) = some t
  keeps : ∀ c s x v, isWhitespace c = true → isBlank c = false →
    read (' ' :: c :: s) = some (x :: v) → x = c

section Reading

variable (read : List Char → Option (List Char))

def Defines (ls : List Line) (k : Kind) (name : List Char) : Prop :=
  ∃ lead value, .definition k lead value ∈ ls ∧ read value.text = some name

/-- No reference dangles: an empty one is none. -/
def Closed (ls : List Line) : Prop := ∀ k indent value, .reference k indent value ∈ ls →
  read value.text = some [] ∨ ∃ name, read value.text = some name ∧ Defines read ls k name

/-- The lines `ls'` are the lines `ls` with the definitions and references of some names renamed. -/
structure IsRenaming (name : List Char) (ls ls' : List Line) : Prop where
  places : List.Forall₂ SamePlace ls ls'
  definitions : ∀ k lead value value',
    (.definition k lead value, .definition k lead value') ∈ ls.zip ls' → value ≠ value' →
      read value'.text = some name ∧ ∀ old, read value.text = some old →
        ∀ indent v v', (.reference k indent v, .reference k indent v') ∈ ls.zip ls' →
          read v.text = some old → read v'.text = some name
  references : ∀ k indent value value',
    (.reference k indent value, .reference k indent value') ∈ ls.zip ls' → value ≠ value' →
      read value'.text = some name
  closed : Closed read ls → Closed read ls'

end Reading

def isLineBreak (c : Char) : Bool := c == '\n' || c == '\r'

/-- The rename is made once, and each line ends as before. -/
structure KeepsLines (url name input : List Char) : Prop where
  idempotent : rewriteText url name (rewriteText url name input) = rewriteText url name input
  terminators : terminators '\n' isLineBreak (rewriteText url name input) =
    terminators '\n' isLineBreak input

/-- The rename of a kubeconfig. -/
structure Renames (read : List Char → Option (List Char)) (url name : List Char) (d : Kubeconfig) :
    Prop where
  keeps : KeepsLines url name d.text
  consistent : ∃ ls', rewriteText url name d.text = textOfLines d.final ls' ∧
    IsRenaming read name d.lines ls'

/-- The URL is one line, and ends in a carriage return only where the line of each server does. -/
def ServersKept (url input : List Char) : Prop := ∀ l ∈ bodies '\n' input, ∀ indent after,
  IsServerLine l indent after → '\n' ∉ url ∧ url.rtakeWhile isLineBreak = l.rtakeWhile isLineBreak

/-- A line with a default name in its place, and a new name that is another. -/
def IsReplaced (name text t : List Char) : Prop := t ≠ name ∧ ∃ p, Slot p t ∧ text = p ++ t

/-- When the patterns for the single lines make a rename of the whole. -/
structure IsRegular (read : List Char → Option (List Char)) (url name : List Char) (d : Kubeconfig) :
    Prop where
  servers : ServersKept url d.text
  unrelated : ∀ text, .unrelated text ∈ d.lines → (∀ t, ¬ IsReplaced name text.1 t) ∧
    ∀ indent after, IsServerLine text.1 indent after → after = ' ' :: url
  newName : ∀ l ∈ d.lines, ∀ t, IsReplaced name l.text t → read (' ' :: name) = some name
  definitions : ∀ k lead value t, .definition k lead value ∈ d.lines →
    IsReplaced name (Line.definition k lead value).text t → read value.text = some t ∧
      ∀ indent v, .reference k indent v ∈ d.lines → read v.text = some t →
        IsReplaced name (Line.reference k indent v).text t
  references : Closed read d.lines → ∀ k indent value t, .reference k indent value ∈ d.lines →
    IsReplaced name (Line.reference k indent value).text t →
      Defines read d.lines k name ∨ ∃ lead v old, .definition k lead v ∈ d.lines ∧
        IsReplaced name (Line.definition k lead v).text old

end Hbird.ExportArgocd
