import Hbird.Etcd.KeyReader
import Hbird.Interaction.Exec
import Hbird.Interaction.Transition
import Hbird.Ssh

namespace Hbird.Etcd.Rotation

open Hbird.Interaction Hbird.Text

/-- What became of a prompt. -/
inductive Answer : Type
  | notTerminal
  | readFailed (source : String)
  | line (answer : String)
  deriving DecidableEq, Repr

/-- What a rotation asks of the operator, of this host and of the control plane. -/
inductive Query : Type
  | confirm (prompt : String)
  | readConfig
  | keyBytes
  | clock
  | upload (yaml : String)
  | install
  | healthz
  | reencrypt
  | verify (keyName : String)
  deriving DecidableEq, Repr

/-- Where a read of `/dev/urandom` fails. -/
inductive Urandom : Type
  | opening
  | reading
  deriving DecidableEq, Repr

/-- An upload that failed leaves something or nothing in the `.new` file; an install script that
failed has carried out some of its three commands. -/
abbrev Reply : Query → Type
  | .confirm _ => Answer
  | .readConfig => Except String String
  | .keyBytes => Except (Urandom × String) KeyBytes
  | .clock => Nat
  | .upload _ => Except (String × Option String) Unit
  | .install => Except (String × Nat) Unit
  | .healthz => Except String Unit
  | .reencrypt => Except String Unit
  | .verify _ => Except String Unit

abbrev Failure := Ssh.Anyhow String

abbrev Step (α : Type) := Exec Query Reply Failure α

def encryptionConfig : String := "/etc/kubernetes/encryption-config.yaml"

/-- The result of a remote command, with a failure under a context. -/
def settled {ε α : Type} (source : ε → String) (text : String) : Except ε α → Step α
  | .ok a => pure a
  | .error e => throw (.context text (.source (source e)))

def isAffirmative (answer : String) : Bool := trim answer == "y" || trim answer == "Y"

def answered (prompt : String) : Answer → Step Unit
  | .notTerminal => throw (.msg (prompt ++ " [y/N] — stdin is not a TTY, refusing to guess. " ++
      "Re-run with --yes to confirm non-interactively, or with --dry-run to preview."))
  | .readFailed e => throw (.context "read confirmation from stdin" (.source e))
  | .line answer => if isAffirmative answer then pure () else throw (.msg "aborted by operator")

def confirm (prompt : String) (assumeYes : Bool) : Step Unit :=
  if assumeYes then pure ()
  else Exec.observe (Program.perform (.confirm prompt)) >>= answered prompt

def rotateFetchConfig : Step String :=
  Exec.observe (Program.perform .readConfig) >>= settled id
    ("rotate-etcd-key: could not read " ++ encryptionConfig ++ " on the CP") >>= fun text =>
  if isBlank text then throw (.msg "fetched encryption-config is empty") else pure text

def urandomContext : Except (Urandom × String) KeyBytes → String
  | .error (.opening, _) => "open /dev/urandom for a new etcd encryption key"
  | _ => "read 32 bytes from /dev/urandom for a new etcd encryption key"

def randomKeyBytes : Step KeyBytes :=
  Exec.observe (Program.perform .keyBytes) >>= fun r => settled Prod.snd (urandomContext r) r

def uploadConfig (yaml : String) : Step Unit :=
  Exec.observe (Program.perform (.upload yaml)) >>= settled Prod.fst
    ("rotate-etcd-key: could not upload the new config to " ++ encryptionConfig ++ ".new")

def installScript : Step Unit :=
  Exec.observe (Program.perform .install) >>= settled Prod.fst
    "rotate-etcd-key: could not install the new encryption config on the CP"

def rotateInstallConfig (yaml : String) : Step Unit :=
  uploadConfig yaml >>= fun _ => installScript

def healthy (stage : Nat) : Except String Unit → Step Unit
  | .ok () => pure ()
  | .error e => throw (.msg ("apiserver healthz failed after Stage " ++ toString stage ++
      " reload: " ++ e))

def rotateHealthz (stage : Nat) : Step Unit :=
  Exec.observe (Program.perform .healthz) >>= healthy stage

def rotateReencrypt : Step Unit :=
  Exec.observe (Program.perform .reencrypt) >>= settled id
    ("rotate-etcd-key: Stage 2 re-encrypt failed. The new key is already primary, so the old " ++
      "key MUST stay in the config — do not run Stage 3 by hand until every Secret/ConfigMap " ++
      "has been rewritten.")

def rotateVerify (keyName : String) : Step Unit :=
  Exec.observe (Program.perform (.verify keyName)) >>= settled id
    ("rotate-etcd-key: Stage 4 verification failed — /usr/libexec/verify-encryption.sh did " ++
      "not confirm the new key")

/-- The text functions fail with a plain message. -/
def edited (x : Except String String) : Step String :=
  match x with
  | .ok text => pure text
  | .error e => throw (.msg e)

def stage3 (yes : Bool) (keyName final : String) : Step Unit :=
  confirm "Proceed with Stage 3?" yes >>= fun _ =>
  rotateInstallConfig final >>= fun _ =>
  rotateHealthz 3 >>= fun _ =>
  rotateVerify keyName

def reencryptAndDrop (yes : Bool) (keyName dual : String) : Step Unit :=
  rotateReencrypt >>= fun _ =>
  edited (dropNonPrimaryKeys dual) >>= fun final =>
  stage3 yes keyName final

def stage2 (yes : Bool) (keyName dual : String) : Step Unit :=
  confirm "Proceed with Stage 2?" yes >>= fun _ => reencryptAndDrop yes keyName dual

def stage1 (yes : Bool) (keyName dual : String) : Step Unit :=
  confirm "Proceed with Stage 1?" yes >>= fun _ =>
  rotateInstallConfig dual >>= fun _ =>
  rotateHealthz 1 >>= fun _ =>
  stage2 yes keyName dual

def newKey (yes : Bool) (before : String) : Step Unit :=
  randomKeyBytes >>= fun bytes =>
  Exec.observe (Program.perform .clock) >>= fun now =>
  edited (insertPrimaryKey before (rotationKeyName now) (base64Encode bytes.1)) >>= fun dual =>
  stage1 yes (rotationKeyName now) dual

def runRotateKey (yes : Bool) : Step Unit :=
  confirm "Continue with rotation?" yes >>= fun _ =>
  rotateFetchConfig >>= fun before =>
  newKey yes before

variable {ρ : Type}

/-- A stored Secret or ConfigMap: the key it is encrypted with, if any, and whether it was written
since the last re-encryption began. -/
structure Row (ρ : Type) where
  id : ρ
  key : Option Key
  fresh : Bool

/-- The control plane, and the run at work on it. -/
structure State (ρ : Type) where
  file : String
  staged : Option String
  loaded : String
  rows : List (Row ρ)
  run : Program Query Reply (Except Failure Unit)
  listing : Bool

inductive Act (ρ : Type) : Type
  | start (yes : Bool)
  | answer (x : Exchange Reply)
  | kill
  | listRows
  | reload
  | write (id : ρ)
  | delete (id : ρ)

namespace State

def idle : Program Query Reply (Except Failure Unit) := .done (.ok ())

/-- The install script up to its `n`-th command. -/
def installed (s : State ρ) (n : Nat) : Option (State ρ) :=
  match n, s.staged with
  | 0, _ => some s
  | _, none => none
  | 1, some yaml => some { s with file := yaml }
  | _, some yaml => some { s with file := yaml, staged := none }

/-- What an answer means for the control plane; none where it cannot come. -/
def effect (s : State ρ) : (q : Query) → Reply q → Option (State ρ)
  | .readConfig, .ok text => if text = s.file then some s else none
  | .upload yaml, .ok () => some { s with staged := some yaml }
  | .upload _, .error (_, left) => some { s with staged := left }
  | .install, .ok () => s.installed 3
  | .install, .error (_, n) => s.installed n
  | .reencrypt, .ok () =>
    if s.listing ∧ s.rows.all Row.fresh then some { s with listing := false } else none
  | .reencrypt, .error _ => some { s with listing := false }
  | _, _ => some s

variable [DecidableEq ρ]

/-- The apiserver encrypts with the first key of the config it loaded last. -/
def step (reader : Reader) (s : State ρ) : Act ρ → Option (State ρ)
  | .start yes =>
    match s.run with
    | .done _ => some { s with run := (runRotateKey yes).run, listing := false }
    | .ask _ _ => none
  | .answer ⟨q, r⟩ =>
    match s.run with
    | .done _ => none
    | .ask q' next =>
      if h : q = q' then (s.effect q r).map fun s' => { s' with run := next (h ▸ r) } else none
  | .kill => some { s with run := idle, listing := false }
  | .listRows =>
    match s.run with
    | .ask .reencrypt _ =>
      some { s with rows := s.rows.map fun row => { row with fresh := false }, listing := true }
    | _ => none
  | .reload => some { s with loaded := s.file }
  | .write id =>
    some { s with rows := ⟨id, reader.primary s.loaded, true⟩ :: s.rows.filter (·.id ≠ id) }
  | .delete id => some { s with rows := s.rows.filter (·.id ≠ id) }

end State

end Hbird.Etcd.Rotation
