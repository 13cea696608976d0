import Hbird.Virt.DestroyCluster

namespace Hbird.Virt

open Hbird.Interaction Hbird.Ssh Hbird.Text

/-- The output of a command, or the empty text. -/
def unwrapOrDefault (x : Remote Error String) : Remote Failure String :=
  Exec.outcome x >>= fun
    | .ok out => pure out
    | .error _ => pure ""

/-- A step whose failure has no consequence. -/
def ignore {α : Type} (x : Remote Error α) : Remote Failure Unit :=
  Exec.outcome x >>= fun _ => pure ()

def cpSshCmd (privkeyPath cpIp remoteCmd : String) : String :=
  "ssh -i " ++ shQuote privkeyPath ++ " -o StrictHostKeyChecking=no " ++
    "-o UserKnownHostsFile=/dev/null root@" ++ cpIp ++ " " ++ shQuote remoteCmd

namespace SpawnWorkers

structure Plan where
  cpName : String
  poolDir : String
  count : UInt32
  workerMemory : UInt32
  workerVcpus : UInt32
  tokenTtl : String
  kvmHost : Option String
  dryRun : Bool
  cpSshRetries : UInt32
  deriving DecidableEq, Repr

def Plan.workerName (_plan : Plan) (i : UInt32) : String :=
  "hummingbird-k8s-worker-" ++ toString i.toNat

def Plan.templatePath (plan : Plan) : String := diskPath plan.poolDir "hummingbird-k8s-worker"

inductive Injector : Type
  | guestfish
  | virtCustomize
  deriving DecidableEq, Repr

/-- `Path::file_stem` of a path that does not end in a separator. -/
def fileStem (path : String) : String :=
  let name := (path.toList.reverse.takeWhile (· ≠ '/')).reverse
  let stem := (name.reverse.dropWhile (· ≠ '.')).drop 1
  if stem = [] then String.ofList name else String.ofList stem.reverse

def guestfishLsStaterootCmd (qcow : String) : String :=
  "guestfish --ro -a " ++ shQuote qcow ++ " run : mount /dev/sda4 / : ls /ostree/deploy " ++
    "2>/dev/null | grep -v '^$' | head -1"

def guestfishLsDeployCmd (qcow stateroot : String) : String :=
  "guestfish --ro -a " ++ shQuote qcow ++ " run : mount /dev/sda4 / : ls /ostree/deploy/" ++
    shQuote stateroot ++ "/deploy 2>/dev/null | grep -v '\\.origin$' | grep -v '^$' | head -1"

def guestfishInjectCmd (qcow etcPath tmpfile : String) : String :=
  "guestfish --rw -a " ++ shQuote qcow ++ " <<'GUESTFISH_HBIRD_EOF'\nrun\nmount /dev/sda4 /\n" ++
    "mkdir-p " ++ etcPath ++ "\nupload " ++ shQuote tmpfile ++ " " ++ etcPath ++
    "/worker-join.env\nchmod 0600 " ++ etcPath ++ "/worker-join.env\nchown 0 0 " ++ etcPath ++
    "/worker-join.env\nGUESTFISH_HBIRD_EOF"

def virtCustomizeInjectCmd (qcow tmpfile : String) : String :=
  "virt-customize -a " ++ shQuote qcow ++ " --mkdir /etc/hummingbird --upload '" ++ tmpfile ++
    ":/etc/hummingbird/worker-join.env' --run-command 'chmod 0600 " ++
    "/etc/hummingbird/worker-join.env' --run-command 'chown root:root " ++
    "/etc/hummingbird/worker-join.env'"

def writeJoinTmpCmd (joinCmd tmpfile : String) : String :=
  "printf '%s\\n' " ++ shQuote joinCmd ++ " > " ++ shQuote tmpfile

def etcPath (stateroot deployHash : String) : String :=
  if stateroot ≠ "" ∧ deployHash ≠ "" then
    "/ostree/deploy/" ++ stateroot ++ "/deploy/" ++ deployHash ++ "/etc/hummingbird"
  else "/etc/hummingbird"

def guestfishInject (conn : Connection) (qcow tmpfile : String) : Remote Failure String :=
  unwrapOrDefault (conn.execShell (guestfishLsStaterootCmd qcow)) >>= fun out =>
  (if trim out ≠ "" then
    unwrapOrDefault (conn.execShell (guestfishLsDeployCmd qcow (trim out))) >>= fun o => pure (trim o)
  else pure "") >>= fun deployHash =>
  wrapped "guestfish inject failed: "
    (conn.execShell (guestfishInjectCmd qcow (etcPath (trim out) deployHash) tmpfile))

/-- Put the join command into a worker's disk. The process id names the temporary file. -/
def injectJoinEnv (conn : Connection) (pid : UInt32) (qcow joinCmd : String) (injector : Injector) :
    Remote Failure Unit :=
  let tmpfile := "/tmp/hbird-join-" ++ toString pid.toNat ++ "-" ++ fileStem qcow ++ ".env"
  wrapped ("could not write join tmpfile " ++ tmpfile ++ ": ")
    (conn.execShell (writeJoinTmpCmd joinCmd tmpfile)) >>= fun _ =>
  Exec.outcome (match injector with
    | .guestfish => guestfishInject conn qcow tmpfile
    | .virtCustomize => wrapped "virt-customize inject failed: "
        (conn.execShell (virtCustomizeInjectCmd qcow tmpfile))) >>= fun result =>
  ignore (conn.execShell ("rm -f -- " ++ shQuote tmpfile)) >>= fun _ =>
  match result with
  | .ok _ => pure ()
  | .error e => throw e

/-- `retry` over the command that mints a join token, with the token in place of `true`. -/
def mintJoin (conn : Connection) (sshJoinCmd : String) : Nat → Remote Failure (Option String)
  | 0 => pure none
  | n + 1 => Exec.outcome (conn.execShell sshJoinCmd) >>= fun
      | .ok out =>
        if startsWith (trim out) "kubeadm join" then pure (some (trim out))
        else mintJoin conn sshJoinCmd n
      | .error _ => mintJoin conn sshJoinCmd n

/-- Make the VM of a worker that is not defined yet. -/
def createWorker (conn : Connection) (plan : Plan) (pid : UInt32) (cpIp privkeyPath : String)
    (injector : Injector) (name : String) : Remote Failure Unit :=
  let template := plan.templatePath
  let qcow := diskPath plan.poolDir name
  wrapped ("reflink clone " ++ template ++ " -> " ++ qcow ++ " failed: ")
    (conn.remoteCpReflink template qcow) >>= fun _ =>
  mintJoin conn (cpSshCmd privkeyPath cpIp
    ("kubeadm token create --ttl " ++ plan.tokenTtl ++ " --print-join-command"))
    plan.cpSshRetries.toNat >>= fun
    | none => ignore (conn.remoteRmF qcow) >>= fun _ =>
        bail ("could not mint kubeadm join token from CP after " ++
          toString plan.cpSshRetries.toNat ++ " retries")
    | some joinCmd =>
      Exec.outcome (injectJoinEnv conn pid qcow joinCmd injector) >>= fun
        | .error e => ignore (conn.remoteRmF qcow) >>= fun _ =>
            bail ("inject_join_env for " ++ name ++ " failed: " ++ e.toText Error.toText)
        | .ok () => wrapped ("virt-install " ++ name ++ " failed: ")
            (conn.virtInstallVm ⟨name, plan.workerMemory.toNat, plan.workerVcpus, qcow, none,
              none, none⟩)

def probeFailed (name : String) (e : Error) : Failure :=
  .msg ("dominfo probe for " ++ name ++ ": " ++ e.toText)

/-- The live body of `plan_worker_loop` for the `i`-th worker: one that is defined is only
started. -/
def spawnWorker (conn : Connection) (plan : Plan) (pid : UInt32) (cpIp privkeyPath : String)
    (injector : Injector) (i : UInt32) : Remote Failure Unit :=
  let name := plan.workerName i
  existenceProbe conn name (probeFailed name) >>= fun
    | some _ => ignore (conn.startDomain name)
    | none => createWorker conn plan pid cpIp privkeyPath injector name

/-- A run needs the template before it makes any VM. -/
def checkTemplate (conn : Connection) (plan : Plan) : Remote Failure Unit :=
  let template := plan.templatePath
  Exec.outcome (conn.remotePathExists template) >>= fun
    | .ok true => pure ()
    | .ok false => bail ("worker template qcow2 " ++ template ++ " does not exist. Build it first (" ++
        tick ++ "make image-worker" ++ tick ++ " + bib, or " ++ tick ++ "make spawn-workers" ++ tick ++
        " which builds it), or point POOL_DIR at the directory that holds it.")
    | .error e => bail ("could not stat worker template qcow2 " ++ template ++ ": " ++ e.toText)

def spawnWorkers (conn : Connection) (plan : Plan) (pid : UInt32) (cpIp privkeyPath : String)
    (injector : Injector) : List UInt32 → Remote Failure Unit
  | [] => pure ()
  | i :: is => spawnWorker conn plan pid cpIp privkeyPath injector i >>= fun _ =>
      spawnWorkers conn plan pid cpIp privkeyPath injector is

/-- The workers' indices, from 1 on. -/
def Plan.indices (plan : Plan) : List UInt32 := (List.range' 1 plan.count.toNat).map UInt32.ofNat

def planWorkerLoop (conn : Connection) (plan : Plan) (pid : UInt32) (cpIp privkeyPath : String)
    (injector : Injector) : Remote Failure Unit :=
  if plan.dryRun then pure ()
  else
    checkTemplate conn plan >>= fun _ =>
    spawnWorkers conn plan pid cpIp privkeyPath injector plan.indices >>= fun _ =>
    ignore (conn.verb (virsh ("pool-refresh " ++ shellQuote "mass2")))

end SpawnWorkers

end Hbird.Virt
