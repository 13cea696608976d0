import Hbird.Interaction.Tries
import Hbird.Json.MiniJson
import Hbird.KvmHost
import Hbird.Virt.CleanVms
import Hbird.Virt.VirtInstall

namespace Hbird.Virt.SwitchToGhcr

open Hbird.Config (ClusterConfig)
open Hbird.Interaction Hbird.Json Hbird.Ssh Hbird.Text
open Hbird.UpdateCluster.FromArgs (domifaddr)

/-- The arguments, those of the plan among them. -/
structure SwitchToGhcrArgs extends Args where
  vm : Option String
  ghcrRef : Option String
  config : Option String
  bootcSwitchToGhcr : Bool

def hummingbirdPrefix : String := "hummingbird-"

def waitTries : Nat := 30

def probeConnectTimeoutSecs : Nat := 5

def switchConnectTimeoutSecs : Nat := 10

def flavorForVm (name : String) : Option String :=
  if name = "hummingbird-k8s" then some "hummingbird-k8s"
  else if startsWith name "hummingbird-k8s-worker-" then some "hummingbird-k8s-worker"
  else none

def ghcrRefFor (org flavor tag : String) : String :=
  String.ofList (org.toList.rdropWhile (· == '/')) ++ "/" ++ flavor ++ ":" ++ tag

/-- `Value::get`: the first entry with the key. -/
def get (v : Value) (key : String) : Option Value :=
  match v with
  | .object entries => (entries.find? fun e => e.1 == key).map Prod.snd
  | _ => none

def asStr : Value → Option String
  | .str s => some s
  | _ => none

def parseBootedImage (raw : String) : Option String := do
  let root ← MiniJson.parse (trim raw).toList
  let status ← get root "status"
  let booted ← get status "booted"
  let deployed ← get booted "image"
  let spec ← get deployed "image"
  let field ← get spec "image"
  let image ← asStr field
  if image = "" then none else some image

/-- A `virsh` that fails is a lease that is not there yet. -/
def leased : Except Virt.Error (Option Ipv4.Address) → Except Unit Ipv4.Address
  | .ok (some ip) => .ok ip
  | _ => .error ()

/-- What a wait loop has found, if anything. -/
def found {Q : Type} {R : Q → Type} {ε α : Type} (x : Exec Q R Unit α) : Exec Q R ε (Option α) :=
  Exec.outcome x >>= fun
    | .ok a => pure (some a)
    | .error _ => pure none

def waitForIpWith {ε : Type} (conn : Connection) (name : String) (n : Nat) :
    Remote ε (Option Ipv4.Address) :=
  found (tries (attempt (domifaddr conn name) leased) n ())

/-- Any error counts as "not up yet". -/
def isUp : Except Ssh.Error RunOutput → Except Unit Unit
  | .ok _ => .ok ()
  | .error _ => .error ()

def waitForSshWith {ε : Type} (n : Nat) : Executor ε Bool :=
  found (tries (attempt (SshExec.run "true") isUp) n ()) >>= fun up => pure up.isSome

def bootcStatusCmd : String := "bootc status --json 2>/dev/null"

/-- What `bootc status` printed counts whatever its exit status was. -/
def reported : Except Ssh.Error RunOutput → Option String
  | .ok out => parseBootedImage out.stdout
  | .error (.nonZeroExit _ _ stdout _) => parseBootedImage stdout
  | .error _ => none

def currentImageRefWithExec {ε : Type} : Executor ε (Option String) :=
  Exec.outcome (SshExec.run bootcStatusCmd) >>= fun r => pure (reported r)

inductive SwitchOutcome : Type
  | alreadyTracking
  | switched (before after : Option String)
  deriving DecidableEq, Repr

def switchCommand (ghcrRef : String) : String := "bootc switch " ++ shellSingleQuote ghcrRef

/-- Compare, then switch. -/
def switchOneWithExec (name ghcrRef : String) : Executor Failure SwitchOutcome :=
  currentImageRefWithExec >>= fun before =>
    if before = some ghcrRef then pure .alreadyTracking
    else
      (SshExec.run (switchCommand ghcrRef)).context (fun e =>
        .msg (name ++ ": bootc switch to " ++ ghcrRef ++ " failed: " ++ e.toText)) >>= fun _ =>
      currentImageRefWithExec >>= fun after => pure (.switched before after)

def Plan.refFor (plan : Plan) (flavor : String) : String :=
  ghcrRefFor plan.ghcrOrg flavor plan.ghcrTag

/-- Resolve the address of the VM, wait for its sshd, then switch it. -/
def switchVm (conn : Connection) (plan : Plan) (name ghcrRef : String) :
    Remote Failure SwitchOutcome :=
  if plan.dryRun then pure .alreadyTracking
  else
    waitForIpWith conn name waitTries >>= fun
      | none => bail (name ++ ": no DHCP lease")
      | some ip =>
        live (plan.vmSshOpts (String.ofList ip.text) probeConnectTimeoutSecs)
          (waitForSshWith waitTries) >>= fun up =>
        if up then live (plan.vmSshOpts (String.ofList ip.text) switchConnectTimeoutSecs)
          (switchOneWithExec name ghcrRef)
        else bail (name ++ ": sshd never came up")

/-- The ref of single-VM mode. -/
def singleRef (plan : Plan) (vm : String) (explicitRef : Option String) : Option String :=
  (explicitRef.filter (· ≠ "")).or ((flavorForVm vm).map plan.refFor)

/-- Single-VM mode: only a ref that cannot be inferred is fatal. -/
def runSingleVm (conn : Connection) (plan : Plan) (vm : String) (explicitRef : Option String) :
    Remote Failure Unit :=
  if plan.forceRebuild && !plan.forceSwitch then pure ()
  else match singleRef plan vm explicitRef with
    | none => bail ("switch-to-ghcr: cannot infer GHCR ref for VM '" ++ vm ++ "' (unknown flavor)")
    | some ghcrRef => Exec.outcome (switchVm conn plan vm ghcrRef) >>= fun _ => pure ()

def parseDomainList (stdout : String) : List String := CleanVms.listed stdout

def listCommand : String := virsh "list --name"

def runningDomains (conn : Connection) : Remote Virt.Error (List String) :=
  conn.run listCommand >>= fun stdout => pure (parseDomainList stdout)

/-- The loop over the VMs, with the count of those that failed so far. -/
def switchAll (conn : Connection) (plan : Plan) : List String → Nat → Remote Failure Nat
  | [], failed => pure failed
  | vm :: vms, failed =>
    match flavorForVm vm with
    | none => switchAll conn plan vms failed
    | some flavor => Exec.outcome (switchVm conn plan vm (plan.refFor flavor)) >>= fun
        | .ok _ => switchAll conn plan vms failed
        | .error _ => switchAll conn plan vms (failed + 1)

def couldNotList : String :=
  "switch-to-ghcr: could not list running libvirt domains — check --kvm-host " ++
    "reachability and libvirt-group membership before re-running"

def selected (running : List String) : List String :=
  running.filter fun name => startsWith name hummingbirdPrefix

def someFailed (failed : Nat) : String :=
  "switch-to-ghcr: " ++ toString failed ++ " VM(s) failed to switch — see the SKIP/failure lines above"

/-- All-VMs mode, once the VMs are known. -/
def walk (conn : Connection) (plan : Plan) (vms : List String) : Remote Failure Unit :=
  if vms = [] then pure ()
  else switchAll conn plan vms 0 >>= fun failed =>
    if 0 < failed then bail (someFailed failed) else pure ()

/-- All-VMs mode. -/
def runAllVms (conn : Connection) (plan : Plan) : Remote Failure Unit :=
  (runningDomains conn).context (fun e => .context couldNotList (.source e)) >>= fun running =>
    walk conn plan (selected running)

/-- The configuration that the arguments name; `parse` reads a file. -/
def readConfig (parse : String → Except String ClusterConfig) (args : SwitchToGhcrArgs) :
    Except Failure (Option ClusterConfig) :=
  match args.config with
  | none => .ok none
  | some path =>
    match parse path with
    | .ok config => .ok (some config)
    | .error text =>
      .error (.context ("switch-to-ghcr: could not read config " ++ path) (.msg text))

def SwitchToGhcrArgs.single (args : SwitchToGhcrArgs) : Option String := args.vm.filter (· ≠ "")

def run (parse : String → Except String ClusterConfig) (args : SwitchToGhcrArgs) :
    Remote Failure Unit :=
  if args.bootcSwitchToGhcr = false then pure ()
  else
    ExceptT.mk (pure (readConfig parse args)) >>= fun config =>
      let plan := Plan.fromArgs args.toArgs config
      let conn := buildConnection plan.kvmHost
      match args.single with
      | some vm => runSingleVm conn plan vm args.ghcrRef
      | none => runAllVms conn plan

end Hbird.Virt.SwitchToGhcr
