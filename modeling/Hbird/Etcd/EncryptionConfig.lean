import Hbird.Etcd.KeyMaterial

namespace Hbird.Etcd

open Hbird.Text

/-- The width of the leading white space, in bytes. -/
def indentOf (line : String) : Nat :=
  ((line.toList.takeWhile isWhitespace).map Char.utf8Size).sum

/-- Where the parts of an aesgcm `keys:` list are. -/
structure KeysBlock where
  keysLine : Nat
  entryIndent : Nat
  entries : List Nat
  endLine : Nat
  deriving DecidableEq, Repr

/-- `strip_prefix("- ").unwrap_or(t)`. -/
def stripDash (t : String) : String :=
  match t.toList with
  | '-' :: ' ' :: rest => String.ofList rest
  | _ => t

def isAesgcm (line : String) : Bool := startsWith (stripDash (trimStart line)) "aesgcm:"

def isBlank (line : String) : Bool := trim line == ""

def isEntry (line : String) : Bool := startsWith (trimStart line) "- "

/-- The first `keys:` line under the provider, counted from the line after it. -/
def findKeysLine (aesIndent : Nat) : List String → Option Nat
  | [] => none
  | line :: lines =>
    if isBlank line then (findKeysLine aesIndent lines).map (· + 1)
    else if indentOf line ≤ aesIndent then none
    else if trim line = "keys:" then some 0
    else (findKeysLine aesIndent lines).map (· + 1)

/-- The entries from line `i` on: their column, their first lines, and the end of the list. -/
def findEntries (keysIndent : Nat) : Nat → Option Nat → List String → Option Nat × List Nat × Nat
  | i, entryIndent, [] => (entryIndent, [], i)
  | i, entryIndent, line :: lines =>
    if isBlank line then findEntries keysIndent (i + 1) entryIndent lines
    else if indentOf line ≤ keysIndent then (entryIndent, [], i)
    else if isEntry line ∧ (entryIndent = none ∨ entryIndent = some (indentOf line)) then
      match findEntries keysIndent (i + 1) (some (indentOf line)) lines with
      | (column, entries, endLine) => (column, i :: entries, endLine)
    else findEntries keysIndent (i + 1) entryIndent lines

def noProvider : String := "no aesgcm provider found in encryption config"

def noKeysList : String :=
  "aesgcm provider in encryption config has no " ++ tick ++ "keys:" ++ tick ++ " list"

def emptyKeysList : String :=
  "aesgcm provider's " ++ tick ++ "keys:" ++ tick ++ " list in encryption config is empty"

def findAesgcmKeysBlock (lines : List String) : Except String KeysBlock :=
  match lines.findIdx? isAesgcm with
  | none => .error noProvider
  | some aesIdx =>
    match findKeysLine (indentOf (lines.getD aesIdx "")) (lines.drop (aesIdx + 1)) with
    | none => .error noKeysList
    | some offset =>
      let keysLine := aesIdx + 1 + offset
      match findEntries (indentOf (lines.getD keysLine "")) (keysLine + 1) none
          (lines.drop (keysLine + 1)) with
      | (none, _, _) => .error emptyKeysList
      | (some entryIndent, entries, endLine) => .ok ⟨keysLine, entryIndent, entries, endLine⟩

/-- Lines put together, with a last newline if the original has one. -/
def joined (lines : List String) (original : String) : String :=
  "\n".intercalate lines ++ if original.toList.getLast? = some '\n' then "\n" else ""

def pad (width : Nat) : String := String.ofList (List.replicate width ' ')

/-- A new entry as the rotation writes it. -/
def keyEntry (entryIndent : Nat) (name secret : String) : List String :=
  [pad entryIndent ++ "- name: " ++ name, pad entryIndent ++ "  secret: " ++ secret]

def insertPrimaryKey (config name secret : String) : Except String String :=
  let ls := lines config
  findAesgcmKeysBlock ls >>= fun block =>
  match block.entries.head? with
  | none => .error emptyKeysList
  | some first =>
    .ok (joined (ls.take first ++ keyEntry block.entryIndent name secret ++ ls.drop first) config)

def dropNonPrimaryKeys (config : String) : Except String String :=
  let ls := lines config
  findAesgcmKeysBlock ls >>= fun block =>
  match block.entries[1]? with
  | none => .ok config
  | some second => .ok (joined (ls.take second ++ ls.drop block.endLine) config)

end Hbird.Etcd
