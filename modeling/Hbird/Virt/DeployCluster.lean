import Hbird.Virt.CloudInit
import Hbird.Virt.SpawnWorkers

namespace Hbird.Virt.DeployCluster

open Hbird.Interaction Hbird.Ssh Hbird.Text

structure Plan where
  cpName : String
  workerNames : List String
  ghcrTag : String
  cpMemory : UInt32
  cpVcpus : UInt32
  workerMemory : UInt32
  workerVcpus : UInt32
  poolDir : String
  autoUpdateCp : Bool
  switchToGhcr : Bool
  kvmHost : Option String
  dryRun : Bool
  bootcUpdateSchedule : Option String
  bootcUpdateRepoK8s : Option String
  bootcUpdateRepoWorker : Option String
  podCidr : Option String
  serviceCidr : Option String
  cpIp : Option String
  workerIps : Option (List String)
  deriving DecidableEq, Repr

structure PrimaryMacs where
  cp : String
  workers : List String
  deriving DecidableEq, Repr

inductive ReservationCheck : Type
  | alreadyPresent
  | ipTakenByOtherMac
  | absent
  deriving DecidableEq, Repr

def classifyDhcpReservation (netXml mac ip : String) : ReservationCheck :=
  if contains (toAsciiLowercase netXml) ("mac='" ++ toAsciiLowercase mac ++ "'") then .alreadyPresent
  else if contains netXml ("ip='" ++ ip ++ "'") then .ipTakenByOtherMac
  else .absent

/-- Never fatal: neither a network that cannot be read nor one that cannot be changed. -/
def ensureDhcpReservation (conn : Connection) (net mac ip name : String) : Remote Failure Unit :=
  unwrapOrDefault (conn.netDumpxml net) >>= fun netXml =>
    match classifyDhcpReservation netXml mac ip with
    | .alreadyPresent => pure ()
    | .ipTakenByOtherMac => pure ()
    | .absent => ignore (conn.netUpdateAddIpDhcpHost net mac name ip)

def workerIp (plan : Plan) (i : Nat) : Option String :=
  nonEmpty (plan.workerIps.bind fun ips => ips[i]?)

def writeNet2ConfigTmp (conn : Connection) (net2 : Option Net2) (tag : String) :
    Remote Failure (Option String) :=
  match net2 with
  | none => pure none
  | some n =>
    let ncTmp := "/tmp/hbird-netcfg-" ++ tag ++ ".yaml"
    wrapped ("could not write net2 network-config to " ++ ncTmp ++ ": ")
      (conn.execShell (catCommand ncTmp (renderNet2NetworkConfig n.mac n.ip))) >>= fun _ =>
    pure (some ncTmp)

def cpUserDataTmp (pid : UInt32) : String := "/tmp/hbird-cp-ud-" ++ toString pid.toNat ++ ".yaml"

def cpUserData (plan : Plan) (pubkeyContents : String) (net2 : Option Net2) : String :=
  renderCpUserData plan.cpName pubkeyContents plan.switchToGhcr plan.ghcrTag plan.autoUpdateCp
    ⟨plan.bootcUpdateSchedule, plan.bootcUpdateRepoK8s, plan.podCidr, plan.serviceCidr,
      net2.map Net2.mac⟩

def planCpSeed (conn : Connection) (plan : Plan) (pid : UInt32) (pubkeyContents : String)
    (net2 : Option Net2) : Remote Failure String :=
  let cpSeed := seedPath plan.poolDir plan.cpName
  let udTmp := cpUserDataTmp pid
  if plan.dryRun then pure cpSeed
  else
    wrapped ("could not write CP user-data to " ++ udTmp ++ ": ")
      (conn.execShell (catCommand udTmp (cpUserData plan pubkeyContents net2))) >>= fun _ =>
    writeNet2ConfigTmp conn net2 ("cp-" ++ toString pid.toNat) >>= fun ncTmp =>
    wrapped "cloud-init seed build for CP failed: "
      (conn.execShell (cloudInitSeedCmd plan.cpName udTmp cpSeed ncTmp)) >>= fun _ =>
    pure cpSeed

def extraNic (net2 : Option Net2) : Option ExtraNic := net2.map fun n => ⟨n.network, n.mac⟩

/-- Make the VM of a control plane that is not defined yet. -/
def installCp (conn : Connection) (plan : Plan) (cpTemplate cpSeed : String) (macs : PrimaryMacs)
    (net2 : Option Net2) : Remote Failure String :=
  let cpQcow := diskPath plan.poolDir plan.cpName
  wrapped ("reflink clone " ++ cpTemplate ++ " -> " ++ cpQcow ++ " failed: ")
    (conn.remoteCpReflink cpTemplate cpQcow) >>= fun _ =>
  (match nonEmpty plan.cpIp with
    | some ip => ensureDhcpReservation conn "default" macs.cp ip plan.cpName
    | none => pure ()) >>= fun _ =>
  wrapped ("virt-install " ++ plan.cpName ++ " failed: ")
    (conn.virtInstallVm ⟨plan.cpName, plan.cpMemory.toNat, plan.cpVcpus, cpQcow, some cpSeed,
      some macs.cp, extraNic net2⟩) >>= fun _ =>
  pure cpQcow

def cpProbeFailed (e : Error) : Failure := .msg ("dominfo probe for CP failed: " ++ e.toText)

def workerProbeFailed (w : String) (e : Error) : Failure :=
  .msg ("dominfo probe for worker " ++ w ++ ": " ++ e.toText)

def planCpVirtInstall (conn : Connection) (plan : Plan) (cpTemplate cpSeed : String)
    (macs : PrimaryMacs) (net2 : Option Net2) : Remote Failure String :=
  if plan.dryRun then pure (diskPath plan.poolDir plan.cpName)
  else
    existenceProbe conn plan.cpName cpProbeFailed >>= fun
      | some _ => bail ("CP VM '" ++ plan.cpName ++ "' is already defined — refusing to overwrite")
      | none => installCp conn plan cpTemplate cpSeed macs net2

/-- The two steps of `run` that make the control plane's VM. -/
def deployCp (conn : Connection) (plan : Plan) (pid : UInt32) (pubkeyContents cpTemplate : String)
    (macs : PrimaryMacs) (net2 : Option Net2) : Remote Failure String :=
  planCpSeed conn plan pid pubkeyContents net2 >>= fun cpSeed =>
  planCpVirtInstall conn plan cpTemplate cpSeed macs net2

/-- Make the VM of the `i`-th worker, which is not defined yet. There is a MAC for each. -/
def createWorker (conn : Connection) (plan : Plan) (pid : UInt32)
    (workerTemplate joinCmd pubkeyContents : String) (macs : PrimaryMacs)
    (net2s : Option (List Net2)) (i : Nat) (w : String) : Remote Failure Unit :=
  let wQcow := diskPath plan.poolDir w
  let wSeed := seedPath plan.poolDir w
  let tag := toString pid.toNat ++ "-" ++ w
  let udTmp := "/tmp/hbird-w-ud-" ++ tag ++ ".yaml"
  let wNet2 := net2s.bind fun ns => ns[i]?
  let mac := macs.workers.getD i ""
  wrapped ("could not write worker user-data to " ++ udTmp ++ ": ")
    (conn.execShell (catCommand udTmp (renderWorkerUserData w pubkeyContents joinCmd
      plan.switchToGhcr plan.ghcrTag
      ⟨plan.bootcUpdateSchedule, plan.bootcUpdateRepoWorker, wNet2.map Net2.mac⟩))) >>= fun _ =>
  writeNet2ConfigTmp conn wNet2 ("w-" ++ tag) >>= fun ncTmp =>
  wrapped ("cloud-init seed build for " ++ w ++ " failed: ")
    (conn.execShell (cloudInitSeedCmd w udTmp wSeed ncTmp)) >>= fun _ =>
  wrapped ("reflink clone " ++ workerTemplate ++ " -> " ++ wQcow ++ " failed: ")
    (conn.remoteCpReflink workerTemplate wQcow) >>= fun _ =>
  (match workerIp plan i with
    | some ip => ensureDhcpReservation conn "default" mac ip w
    | none => pure ()) >>= fun _ =>
  wrapped ("virt-install " ++ w ++ " failed: ")
    (conn.virtInstallVm ⟨w, plan.workerMemory.toNat, plan.workerVcpus, wQcow, some wSeed,
      some mac, extraNic wNet2⟩)

/-- The live body of `plan_worker_spawn` for the `i`-th worker. -/
def deployWorker (conn : Connection) (plan : Plan) (pid : UInt32)
    (workerTemplate joinCmd pubkeyContents : String) (macs : PrimaryMacs)
    (net2s : Option (List Net2)) (i : Nat) (w : String) : Remote Failure Unit :=
  existenceProbe conn w (workerProbeFailed w) >>= fun
    | some _ => bail ("worker VM '" ++ w ++ "' already defined — refusing to overwrite")
    | none => createWorker conn plan pid workerTemplate joinCmd pubkeyContents macs net2s i w

end Hbird.Virt.DeployCluster
