import Hbird.Interaction.World
import Hbird.Ssh

namespace Hbird.Etcd.Restore

open Hbird.Interaction Hbird.Text

def manifests : String := "/etc/kubernetes/manifests"

def manifestsDisabled : String := "/etc/kubernetes/manifests.disabled"

def dataDir : String := "/var/lib/etcd"

def remoteRestoreSnapshot : String := "/tmp/restore-snapshot.db"

def etcdImageFallback : String := "registry.k8s.io/etcd:3.5.15-0"

/-- The commands that run on the control plane. -/
inductive Command : Type
  | isDir (path : String)
  | exists (path : String)
  | upload (path : String)
  | crictlImages
  | mv (src dst : String)
  | sleep (seconds : Nat)
  | systemctl (verb unit : String)
  | snapshotRestore (image snapshot dataDir : String)
  | rm (path : String)
  | echo (text : String)
  deriving DecidableEq, Repr

structure Output where
  code : UInt8
  stdout : String
  deriving DecidableEq, Repr

abbrev Reply : Command → Type := fun _ => Output

/-- Where a script stopped: the command that failed, and its status. -/
structure Stop where
  command : Command
  code : UInt8
  deriving DecidableEq, Repr

abbrev Failure := Ssh.Anyhow UInt8

abbrev Remote (α : Type) := Exec Command Reply Failure α

def run {ε : Type} (c : Command) : Exec Command Reply ε Output := Exec.observe (Program.perform c)

/-- A command under `set -e`. -/
def checked (c : Command) : Exec Command Reply Stop Unit :=
  run c >>= fun out => if out.code = 0 then pure () else throw ⟨c, out.code⟩

def beforeRestore (timestamp : String) : String := "/var/lib/etcd.before-restore." ++ timestamp

structure Params where
  timestamp : String
  etcdImage : String
  deriving DecidableEq, Repr

/-- The script once the data directory is out of the way. -/
def restoreMoved (p : Params) : Exec Command Reply Stop String :=
  checked (.snapshotRestore p.etcdImage remoteRestoreSnapshot dataDir) >>= fun _ =>
  checked (.mv manifestsDisabled manifests) >>= fun _ =>
  checked (.systemctl "start" "kubelet") >>= fun _ =>
  checked (.rm remoteRestoreSnapshot) >>= fun _ =>
  checked (.echo "Restore complete. Apiserver will come back up in ~30s.") >>= fun _ =>
  pure "Restore complete. Apiserver will come back up in ~30s."

/-- `set -euo pipefail` and what comes after it. -/
def restoreScript (p : Params) : Exec Command Reply Stop String :=
  checked (.mv manifests manifestsDisabled) >>= fun _ =>
  checked (.sleep 10) >>= fun _ =>
  -- `|| true`
  run (.systemctl "stop" "kubelet") >>= fun _ =>
  checked (.mv dataDir (beforeRestore p.timestamp)) >>= fun _ =>
  restoreMoved p

/-- `[ -d manifests.disabled ] && [ ! -e manifests ]` -/
def manifestsMissing : Program Command Reply Bool :=
  Program.perform (.isDir manifestsDisabled) >>= fun dir =>
  if dir.code = 0 then
    Program.perform (.exists manifests) >>= fun out => pure (decide (out.code ≠ 0))
  else pure false

/-- `RESTORE_ROLLBACK_SCRIPT`. No command ends it, and its status is that of
`systemctl start kubelet || true`; the value tells whether the commands that it ran for their
effect succeeded. -/
def restoreRollbackScript : Program Command Reply Bool :=
  manifestsMissing >>= fun missing =>
  (if missing then
    Program.perform (.mv manifestsDisabled manifests) >>= fun out => pure (decide (out.code = 0))
  else pure true) >>= fun moved =>
  Program.perform (.systemctl "start" "kubelet") >>= fun out => pure (moved && decide (out.code = 0))

def restorePreflight : Remote Unit :=
  -- `test ! -e`
  run (.exists manifestsDisabled) >>= fun out =>
  if out.code ≠ 0 then pure ()
  else throw (.msg ("/etc/kubernetes/manifests.disabled already exists on the CP — a previous " ++
    "restore was interrupted. Move the static-pod manifests back by hand (" ++ tick ++
    "mv /etc/kubernetes/manifests.disabled /etc/kubernetes/manifests" ++ tick ++
    ") and confirm the apiserver is up before retrying; restoring now would nest the live " ++
    "manifests directory inside the stale one."))

def pushSnapshot : Remote Unit :=
  run (.upload remoteRestoreSnapshot) >>= fun out =>
  if out.code = 0 then pure ()
  else throw (.context ("etcd restore: could not upload the snapshot to " ++ remoteRestoreSnapshot)
    (.source out.code))

def imageOfRow (line : String) : Option String :=
  if contains line "registry.k8s.io/etcd" then
    match splitWhitespace line with
    | repo :: tag :: _ => some (repo ++ ":" ++ tag)
    | _ => none
  else none

def pickEtcdImage (imagesStdout : String) : Option String :=
  (lines imagesStdout).findSome? imageOfRow

/-- A `crictl` that fails has printed something all the same. -/
def detectEtcdImage : Remote String :=
  run .crictlImages >>= fun out => pure ((pickEtcdImage out.stdout).getD etcdImageFallback)

def validateImageRef (image : String) : Remote Unit :=
  if image ≠ "" ∧ image.toList.all fun c => c.isAlphanum || c == '.' || c == '_' || c == '/' ||
      c == ':' || c == '-' || c == '@' then pure ()
  else throw (.msg ("refusing to use etcd image " ++ quoted image ++ ": unexpected characters " ++
    "(the reference is interpolated into a command evaluated by the CP's /bin/sh)"))

/-- The script, and the rollback where it stopped: what it printed, or where it stopped and how the
rollback went. -/
def applyAndRollBack (p : Params) : Remote (Except (Stop × Bool) String) :=
  Exec.outcome (restoreScript p) >>= fun
    | .ok out => pure (.ok out)
    | .error stop => Exec.observe restoreRollbackScript >>= fun undone => pure (.error (stop, undone))

/-- A rollback that ran has status 0, however it went. -/
def restoreFailed (p : Params) (stop : Stop) : Failure :=
  .context ("etcd restore: remote restore failed (rollback attempted: static-pod manifests moved " ++
    "back and kubelet started). The previous data dir was kept at " ++ beforeRestore p.timestamp)
    (.source stop.code)

/-- `run_restore` from the preflight on, with what `restore_apply` reports left apart. -/
def restoreSteps (timestamp : String) : Remote (Except (Stop × Bool) String) :=
  restorePreflight >>= fun _ =>
  pushSnapshot >>= fun _ =>
  detectEtcdImage >>= fun image =>
  validateImageRef image >>= fun _ =>
  applyAndRollBack ⟨timestamp, image⟩

def runRestore (timestamp : String) : Remote String :=
  restoreSteps timestamp >>= fun
    | .ok out => pure out
    | .error (stop, _) => throw (restoreFailed ⟨timestamp, ""⟩ stop)

/-- A directory. -/
inductive Content : Type
  | manifests
  | data
  | restored
  | incomplete
  | snapshot
  | nested (outer : Content) (name : String) (inner : Content)
  deriving DecidableEq, Repr

structure Host where
  tree : String → Option Content
  kubelet : Bool

namespace Host

def set (s : Host) (path : String) (content : Option Content) : Host :=
  { s with tree := Function.update s.tree path content }

def baseName (path : String) : String :=
  String.ofList (path.toList.reverse.takeWhile (· ≠ '/')).reverse

/-- `mv`: into the destination where that is a directory. -/
def move (s : Host) (src dst : String) (content : Content) : Host :=
  (s.set src none).set dst (match s.tree dst with
    | none => some content
    | some outer => some (.nested outer (baseName src) content))

/-- What a command does. A rename that fails changes nothing; a restore that fails may leave
something behind, and `etcdctl` does not restore into a directory that is there. -/
def world : World Host Reply := fun s c out s' =>
  match c with
  | .isDir path | .exists path => s' = s ∧ (out.code = 0 ↔ (s.tree path).isSome = true)
  | .upload path => ∃ content, s' = s.set path content
  | .crictlImages | .sleep _ | .echo _ => s' = s
  | .mv src dst =>
    out.code = 0 ∧ (∃ content, s.tree src = some content ∧ s' = s.move src dst content) ∨
      out.code ≠ 0 ∧ s' = s
  | .systemctl verb _ => s'.tree = s.tree ∧ (out.code = 0 → s'.kubelet = decide (verb = "start"))
  | .snapshotRestore _ _ dir => s.tree dir = none ∧ (out.code = 0 ∧ s' = s.set dir (some .restored) ∨
      out.code ≠ 0 ∧ (s' = s ∨ s' = s.set dir (some .incomplete))) ∨ out.code ≠ 0 ∧ s' = s
  | .rm path => out.code = 0 ∧ s' = s.set path none ∨ out.code ≠ 0 ∧ s' = s

end Host

end Hbird.Etcd.Restore
