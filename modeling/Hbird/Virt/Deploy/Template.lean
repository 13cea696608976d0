import Hbird.Virt.Deploy.Commands

namespace Hbird.Virt.Deploy

open Hbird.Interaction Hbird.Ssh Hbird.Text

inductive CacheAssessResult : Type
  | reuse
  | rebuild
  | strictFail
  deriving DecidableEq, Repr

/-- What stands before the first colon of a build id. -/
def sourcePrefix (id : String) : List Char := id.toList.takeWhile (· ≠ ':')

def assessQcow2Cache (cachedRef expectedRef : Option String) (strict : Bool) : CacheAssessResult :=
  match cachedRef, expectedRef with
  | some cached, some expected =>
    if cached = "" ∨ expected = "" then (if strict then .strictFail else .reuse)
    else if sourcePrefix cached ≠ sourcePrefix expected then .reuse
    else if cached = expected then .reuse
    else if strict then .strictFail
    else .rebuild
  | _, _ => if strict then .strictFail else .reuse

/-- FNV-1a, 64 bits. -/
def fnv1a64 (data : List UInt8) : UInt64 :=
  data.foldl (fun hash byte => (hash ^^^ byte.toUInt64) * 1099511628211) 14695981039346656037

/-- The lower 48 bits in twelve hexadecimal digits. -/
def containerfileHash (contents : List UInt8) : String :=
  let digits := Nat.toDigits 16 (fnv1a64 contents &&& 0x0000ffffffffffff).toNat
  String.ofList (List.replicate (12 - digits.length) '0' ++ digits)

def buildId (source id : String) : Option String :=
  if id = "" then none else some (source ++ ":" ++ id)

def sidecarPath (qcow : String) : String := qcow ++ ".build-ref"

def readSidecar (qcow : String) : Steps Failure (Option String) :=
  Exec.observe (Program.perform (Query.readToString (sidecarPath qcow))) >>= fun raw =>
    pure ((raw.map trim).filter (· ≠ ""))

/-- The Containerfile that stands for the local image of a name. -/
def Plan.containerfile (plan : Plan) (imageRef : String) : String :=
  if contains imageRef "worker" then plan.repoRoot ++ "/containers/k8s-worker/Containerfile"
  else plan.repoRoot ++ "/containers/k8s/Containerfile"

def computeExpectedBuildId (plan : Plan) (imageRef : String) : Steps Failure (Option String) :=
  if plan.imageSource = "ghcr" ∨ plan.imageSource = "forgejo" then
    Exec.outcome (run (.inspect imageRef)) >>= fun
      | .ok out => pure (buildId plan.imageSource (trim out))
      | .error _ => pure none
  else if plan.imageSource = "local" then
    Exec.observe (Program.perform (Query.readFile (plan.containerfile imageRef))) >>= fun contents =>
      pure ((contents.map containerfileHash).bind (buildId "local"))
  else pure none

/-- What is to be done with the template that may be there. -/
def assess (plan : Plan) (qcow : String) (expected : Option String) :
    Steps Failure CacheAssessResult :=
  Exec.observe (Program.perform (Query.pathExists qcow)) >>= fun isThere =>
    if isThere && !plan.forceRebuild then
      readSidecar qcow >>= fun cached => pure (assessQcow2Cache cached expected plan.strictCache)
    else pure .rebuild

def bibConfigTmp (pid : UInt32) : String := "/tmp/hbird-bib-config-" ++ toString pid.toNat ++ ".toml"

def Plan.stagingDir (plan : Plan) : String := plan.poolDir ++ "/qcow2"

def Plan.stagingQcow (plan : Plan) : String := plan.stagingDir ++ "/disk.qcow2"

/-- Best effort, like everything behind the move of the disk but the removal of its directory. -/
def writeSidecar (expected : Option String) (qcow : String) : Steps Failure Unit :=
  match expected with
  | some id => ignore (run (.writeSidecar id (sidecarPath qcow)))
  | none => pure ()

/-- The image becomes a disk in the staging directory. -/
def buildDisk (plan : Plan) (pid : UInt32) (imageRef : String) : Steps Failure Unit :=
  wrapped ("could not read SSH_PUBKEY_FILE " ++ plan.sshPubkeyFile ++ ": ") (run .readPubkey) >>=
    fun pubkeyContents =>
  Exec.observe (Program.perform (Query.renderBibConfig (trim pubkeyContents))) >>= fun config =>
  wrapped ("could not write bib config to " ++ bibConfigTmp pid ++ ": ")
    (run (.writeBibConfig (bibConfigTmp pid) config)) >>= fun _ =>
  wrapped ("BIB build failed for " ++ imageRef ++ ": ") (run (.bib imageRef (bibConfigTmp pid))) >>=
    fun _ => pure ()

/-- The disk becomes the template. -/
def putInPlace (plan : Plan) (pid : UInt32) (qcow : String) (expected : Option String) :
    Steps Failure Unit :=
  wrapped ("could not move " ++ plan.stagingQcow ++ " → " ++ qcow ++ ": ")
    (run (.move plan.stagingQcow qcow)) >>= fun _ =>
  wrapped "could not remove BIB staging dir: " (run (.removeDir plan.stagingDir)) >>= fun _ =>
  ignore (run (.removeFile (bibConfigTmp pid))) >>= fun _ =>
  ignore (run (.refreshPool "default")) >>= fun _ =>
  ignore (run (.refreshPool "mass2")) >>= fun _ =>
  writeSidecar expected qcow

def buildOneQcow2 (plan : Plan) (pid : UInt32) (imageRef qcow : String) : Steps Failure Unit :=
  computeExpectedBuildId plan imageRef >>= fun expected =>
  assess plan qcow expected >>= fun
    | .reuse => pure ()
    | .rebuild => buildDisk plan pid imageRef >>= fun _ => putInPlace plan pid qcow expected
    | .strictFail => bail ("cache: " ++ qcow ++ " is confirmed stale and STRICT_CACHE=1. " ++
        "Set FORCE_REBUILD=1 to override, or clear the qcow2 manually.")

def cpTemplate (poolDir : String) : String := poolDir ++ "/hummingbird-k8s-deploy.qcow2"

def workerTemplate (poolDir : String) : String := poolDir ++ "/hummingbird-k8s-worker-deploy.qcow2"

def planBuildQcow2 (plan : Plan) (pid : UInt32) (cpRef workerRef : String) :
    Steps Failure (String × String) :=
  if plan.dryRun then pure (cpTemplate plan.poolDir, workerTemplate plan.poolDir)
  else
    buildOneQcow2 plan pid cpRef (cpTemplate plan.poolDir) >>= fun _ =>
    buildOneQcow2 plan pid workerRef (workerTemplate plan.poolDir) >>= fun _ =>
    pure (cpTemplate plan.poolDir, workerTemplate plan.poolDir)

end Hbird.Virt.Deploy
