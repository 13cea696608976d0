import Hbird.Interaction.Interleaved
import Hbird.Ssh

namespace Hbird.ExportArgocd

open Hbird.Interaction Hbird.Ssh

/-- What the library says of a call that failed. -/
structure IoError where
  notFound : Bool
  text : String
  deriving DecidableEq, Repr

/-- The paths of a run: the output, the temporary file beside it, the backup, and what else links
may lead to. -/
inductive Place : Type
  | output
  | temporary
  | backup
  | other (path : String)
  deriving DecidableEq, Repr

abbrev Mode := BitVec 12

/-- The calls on the file system. -/
inductive Query : Type
  | symlinkMetadata
  | readLink
  | pathExists (place : Place)
  | copy
  | metadata
  | setPermissions (mode : Mode)
  | openTemporary (mode : Mode)
  | writeAll (handle : Nat) (contents : List UInt8)
  | syncAll (handle : Nat)
  | rename
  deriving DecidableEq, Repr

@[reducible] def Reply : Query → Type
  | .symlinkMetadata => Except IoError Bool
  | .readLink => Except IoError String
  | .pathExists _ => Bool
  | .openTemporary _ => Except IoError Nat
  | _ => Except IoError Unit

abbrev Failure := Anyhow IoError

abbrev Steps (α : Type) := Exec Query Reply Failure α

/-- The output path, with its parent and its last component, and what the names beside it are made
of. -/
structure Output where
  path : String
  parent : String
  fileName : String
  pid : UInt32
  stamp : String
  deriving DecidableEq, Repr

namespace Output

def temporary (output : Output) : String :=
  (if output.parent = "" then "" else output.parent ++ "/") ++
    "." ++ output.fileName ++ ".tmp-" ++ toString output.pid.toNat

def backupPath (output : Output) : String := output.path ++ ".bak-" ++ output.stamp

end Output

def ask (q : Query) : Steps (Reply q) := Exec.observe (Program.perform q)

def bail {α : Type} (text : String) : Steps α := throw (.msg text)

/-- `with_context`. -/
def withContext {α : Type} (text : String) : Except IoError α → Steps α
  | .ok a => pure a
  | .error e => throw (.context text (.source e))

/-- `?` without a context. -/
def orFail {α : Type} : Except IoError α → Steps α
  | .ok a => pure a
  | .error e => throw (.source e)

def preCheckOutput (output : Output) (force : Bool) : Steps Unit :=
  ask .symlinkMetadata >>= fun
    | .error e => if e.notFound then pure () else withContext ("stat " ++ output.path) (.error e)
    | .ok true => ask .readLink >>= fun link =>
      let target := match link with
        | .ok target => target
        | .error _ => ""
      bail ("OUTPUT is a symlink (" ++ output.path ++ " -> " ++ target ++ "); re-run with --output=" ++
        target ++ " or remove the symlink first")
    | .ok false =>
      if force then pure ()
      else bail ("output file already exists: " ++ output.path ++ " (re-run with --force to overwrite)")

/-- The backup on overwrite. -/
def backUp (output : Output) : Steps Unit :=
  ask (.pathExists .backup) >>= fun present =>
  if present then
    bail ("backup target already exists: " ++ output.backupPath ++ " (refusing to clobber)")
  else
    ask .copy >>= fun r =>
    withContext ("backup: copy " ++ output.path ++ " to " ++ output.backupPath) r >>= fun _ =>
    ask .metadata >>= fun r => orFail r >>= fun _ =>
    ask (.setPermissions 0o600) >>= fun r => orFail r

/-- The temporary file, written and renamed. -/
def install (output : Output) (contents : List UInt8) : Steps Unit :=
  ask (.openTemporary 0o600) >>= fun r =>
  withContext ("open temp file " ++ output.temporary) r >>= fun f =>
  ask (.writeAll f contents) >>= fun r =>
  withContext ("write temp file " ++ output.temporary) r >>= fun _ =>
  ask (.syncAll f) >>= fun r =>
  withContext ("fsync temp file " ++ output.temporary) r >>= fun _ =>
  ask .rename >>= fun r =>
  withContext ("rename " ++ output.temporary ++ " -> " ++ output.path ++ " (atomic install)") r

def writeAtomic0600 (output : Output) (contents : List UInt8) (force : Bool) : Steps Unit :=
  (if force then ask (.pathExists .output) else pure false) >>= fun present =>
  (if present then backUp output else pure ()) >>= fun _ => install output contents

/-- What `export_kubeconfig` does with the file system. -/
def exportKubeconfig (output : Output) (contents : List UInt8) (force : Bool) : Steps Unit :=
  preCheckOutput output force >>= fun _ => writeAtomic0600 output contents force

structure File where
  contents : List UInt8
  mode : Mode
  deriving DecidableEq, Repr

inductive Entry : Type
  | file (inode : Nat)
  | symlink (target : Place)
  | directory
  deriving DecidableEq, Repr

def Entry.isSymlink : Entry → Bool
  | .symlink _ => true
  | _ => false

structure FileSystem where
  entry : Place → Option Entry
  inode : Nat → File

namespace FileSystem

variable (fs : FileSystem)

def follow : Nat → Place → Option Place
  | 0, _ => none
  | n + 1, place =>
    match fs.entry place with
    | some (.symlink target) => follow n target
    | _ => some place

/-- Where a path leads: at most forty links are followed. -/
def leadsTo (place : Place) : Option Place := fs.follow 40 place

def link (place : Place) (entry : Option Entry) : FileSystem :=
  { fs with entry := Function.update fs.entry place entry }

def store (i : Nat) (file : File) : FileSystem :=
  { fs with inode := Function.update fs.inode i file }

/-- No path names the inode. -/
def IsFree (i : Nat) : Prop := ∀ place, fs.entry place ≠ some (.file i)

/-- What stands at a path: the entry, and what is in it when it is a regular file. -/
def standing (place : Place) : Option (Entry × Option File) :=
  (fs.entry place).map fun e => (e, match e with
    | .file i => some (fs.inode i)
    | _ => none)

/-- The file that a write at the start of it leaves. -/
def overwrite (i : Nat) (bytes : List UInt8) : FileSystem :=
  fs.store i { fs.inode i with contents := bytes ++ (fs.inode i).contents.drop bytes.length }

end FileSystem

/-- What a call does, and how it can end: each may also fail, a write half way. `exists` says no of
what it cannot look at. -/
inductive Serves (umask : Mode) : FileSystem → (q : Query) → Reply q → FileSystem → Prop
  | stat {fs : FileSystem} {e : Entry} (h : fs.entry .output = some e) :
      Serves umask fs .symlinkMetadata (.ok e.isSymlink) fs
  | statNone {fs : FileSystem} {e : IoError} (h : fs.entry .output = none) :
      Serves umask fs .symlinkMetadata (.error e) fs
  | statFails {fs : FileSystem} {e : IoError} (he : e.notFound = false) :
      Serves umask fs .symlinkMetadata (.error e) fs
  | readLink {fs : FileSystem} (r : Except IoError String) : Serves umask fs .readLink r fs
  | present {fs : FileSystem} {place p : Place} (hp : fs.leadsTo place = some p)
      (h : fs.entry p ≠ none) : Serves umask fs (.pathExists place) true fs
  | notPresent {fs : FileSystem} {place : Place} : Serves umask fs (.pathExists place) false fs
  | copied {fs : FileSystem} {p q : Place} {i j : Nat} {mode : Mode}
      (hp : fs.leadsTo .output = some p) (hi : fs.entry p = some (.file i))
      (hq : fs.leadsTo .backup = some q)
      (hj : fs.entry q = some (.file j) ∨ fs.entry q = none ∧ fs.IsFree j) :
      Serves umask fs .copy (.ok ()) ((fs.link q (some (.file j))).store j
        ⟨if j = i then [] else (fs.inode i).contents, mode⟩)
  | copyFails {fs : FileSystem} (e : IoError) : Serves umask fs .copy (.error e) fs
  | copyBreaks {fs : FileSystem} {q : Place} {j : Nat} {file : File} {e : IoError}
      (hq : fs.leadsTo .backup = some q)
      (hj : fs.entry q = some (.file j) ∨ fs.entry q = none ∧ fs.IsFree j) :
      Serves umask fs .copy (.error e) ((fs.link q (some (.file j))).store j file)
  | metadata {fs : FileSystem} (r : Except IoError Unit) : Serves umask fs .metadata r fs
  | permissions {fs : FileSystem} {q : Place} {j : Nat} {mode : Mode}
      (hq : fs.leadsTo .backup = some q) (hj : fs.entry q = some (.file j)) :
      Serves umask fs (.setPermissions mode) (.ok ()) (fs.store j { fs.inode j with mode := mode })
  | permissionsFail {fs : FileSystem} {mode : Mode} (e : IoError) :
      Serves umask fs (.setPermissions mode) (.error e) fs
  | truncated {fs : FileSystem} {p : Place} {i : Nat} {mode : Mode}
      (hp : fs.leadsTo .temporary = some p) (hi : fs.entry p = some (.file i)) :
      Serves umask fs (.openTemporary mode) (.ok i) (fs.store i { fs.inode i with contents := [] })
  | created {fs : FileSystem} {p : Place} {i : Nat} {mode : Mode}
      (hp : fs.leadsTo .temporary = some p) (hn : fs.entry p = none) (hi : fs.IsFree i) :
      Serves umask fs (.openTemporary mode) (.ok i)
        ((fs.link p (some (.file i))).store i ⟨[], mode &&& ~~~umask⟩)
  | openFails {fs : FileSystem} {mode : Mode} (e : IoError) :
      Serves umask fs (.openTemporary mode) (.error e) fs
  | written {fs : FileSystem} {i : Nat} {contents : List UInt8} :
      Serves umask fs (.writeAll i contents) (.ok ()) (fs.overwrite i contents)
  | writeBreaks {fs : FileSystem} {i : Nat} {contents : List UInt8} {k : Nat} (e : IoError) :
      Serves umask fs (.writeAll i contents) (.error e) (fs.overwrite i (contents.take k))
  | sync {fs : FileSystem} {i : Nat} (r : Except IoError Unit) : Serves umask fs (.syncAll i) r fs
  | renamed {fs : FileSystem} {e : Entry} (ht : fs.entry .temporary = some e) (he : e ≠ .directory)
      (ho : fs.entry .output ≠ some .directory)
      (hne : ∀ i, e = .file i → fs.entry .output ≠ some (.file i)) :
      Serves umask fs .rename (.ok ()) ((fs.link .output (some e)).link .temporary none)
  | renamedSame {fs : FileSystem} {i : Nat} (ht : fs.entry .temporary = some (.file i))
      (ho : fs.entry .output = some (.file i)) : Serves umask fs .rename (.ok ()) fs
  | renameFails {fs : FileSystem} (e : IoError) : Serves umask fs .rename (.error e) fs

end Hbird.ExportArgocd
