import Hbird.Domifaddr
import Hbird.Virt.DeployCluster
import Hbird.Virt.ExtraNetwork

namespace Hbird.Virt.Deploy

open Hbird.Interaction Hbird.Ssh Hbird.Text

/-- The plan with what the steps before and behind the VMs read. -/
structure Plan extends DeployCluster.Plan where
  configPath : String
  imageSource : String
  enableCloudInit : UInt32
  sshPubkeyFile : String
  runVerify : Bool
  bib : String
  podmanRoot : Option String
  podmanRunroot : Option String
  storageDriver : Option String
  forceRebuild : Bool
  strictCache : Bool
  repoRoot : String
  cpMac : Option String
  workerMacs : Option (List String)
  extraNetwork : Option String
  extraNetCpMac : Option String
  extraNetCpIp : Option String
  extraNetWorkerMacs : Option (List String)
  extraNetWorkerIps : Option (List String)
  cpReadyRetries : UInt32
  cpReadySleepSecs : UInt64
  tokenTtl : String
  deriving DecidableEq, Repr

namespace Plan

variable (plan : Plan)

def nics : DeployCluster.NicPlan where
  cpName := plan.cpName
  workerNames := plan.workerNames
  podCidr := plan.podCidr
  serviceCidr := plan.serviceCidr
  cpMac := plan.cpMac
  workerMacs := plan.workerMacs
  extraNetwork := plan.extraNetwork
  extraNetCpMac := plan.extraNetCpMac
  extraNetCpIp := plan.extraNetCpIp
  extraNetWorkerMacs := plan.extraNetWorkerMacs
  extraNetWorkerIps := plan.extraNetWorkerIps

def conn : Connection := buildConnection plan.kvmHost

def podmanStoragePrefix : String :=
  let parts := (plan.storageDriver.map ("--storage-driver " ++ shQuote ·)).toList ++
    (plan.podmanRoot.map ("--root " ++ shQuote ·)).toList ++
    (plan.podmanRunroot.map ("--runroot " ++ shQuote ·)).toList
  if parts = [] then "" else " ".intercalate parts ++ " "

def bibRunCmd (imageRef bibConfigPath : String) : String :=
  "podman " ++ plan.podmanStoragePrefix ++ "run --rm --privileged --pull=newer " ++
    "--security-opt label=type:unconfined_t" ++
    onSome plan.storageDriver (fun d => " -e STORAGE_DRIVER=" ++ shQuote d) ++
    " -v " ++ shQuote bibConfigPath ++ ":/config.toml:ro" ++
    " -v " ++ shQuote plan.poolDir ++ ":/output" ++
    " -v " ++ shQuote (plan.podmanRoot.getD "/var/lib/containers/storage") ++
    ":/var/lib/containers/storage" ++
    " " ++ shQuote plan.bib ++ " --type qcow2 --rootfs ext4 --local " ++ shQuote imageRef

end Plan

/-- `cp_ssh_cmd`: a command for the control plane, by way of the KVM host. -/
def cpSshCmd (privkeyPath cpIp remoteCmd : String) : String :=
  "ssh -i " ++ shQuote privkeyPath ++ " -o StrictHostKeyChecking=no -o UserKnownHostsFile=/dev/null root@" ++
    cpIp ++ " " ++ shQuote remoteCmd

/-- The commands for the KVM host. -/
inductive Command : Type
  | readPubkey
  | pull (imageRef : String)
  | make (target : String)
  | inspect (imageRef : String)
  | writeBibConfig (path content : String)
  | bib (imageRef configPath : String)
  | move (src dst : String)
  | removeDir (path : String)
  | removeFile (path : String)
  | refreshPool (pool : String)
  | writeSidecar (id path : String)
  | writeFile (path content : String)
  | seed (hostname udTmp outIso : String) (netCfgTmp : Option String)
  | dominfo (name : String)
  | clone (src dst : String)
  | install (spec : VmSpec)
  | netInfo (network : String)
  | netDumpxml (network : String)
  | addDhcpHost (network mac name ip : String)
  | domifaddr (name : String)
  | onCp (privkeyPath cpIp remoteCmd : String)
  deriving DecidableEq, Repr

/-- What the KVM host's shell gets. -/
def Command.toText (plan : Plan) : Command → String
  | .readPubkey => "cat -- " ++ shQuote plan.sshPubkeyFile
  | .pull imageRef => "podman " ++ plan.podmanStoragePrefix ++ "pull " ++ shQuote imageRef
  | .make target => "ENABLE_CLOUD_INIT=1 make -C " ++ shQuote plan.repoRoot ++ " " ++ target
  | .inspect imageRef => "podman " ++ plan.podmanStoragePrefix ++ "image inspect --format " ++
      "'\x7b\x7b index .Config.Labels \"org.opencontainers.image.revision\" \x7d\x7d' " ++
      shQuote imageRef
  | .writeBibConfig path content =>
    "cat > " ++ shQuote path ++ " << 'HBIRD_BIB_EOF'\n" ++ content ++ "\nHBIRD_BIB_EOF"
  | .bib imageRef configPath => plan.bibRunCmd imageRef configPath
  | .move src dst => "mv -- " ++ shQuote src ++ " " ++ shQuote dst
  | .removeDir path => "rm -rf -- " ++ shQuote path
  | .removeFile path => "rm -f -- " ++ shQuote path
  | .refreshPool pool => "virsh pool-refresh " ++ pool ++ " 2>/dev/null || true"
  | .writeSidecar id path => "printf '%s\\n' " ++ shQuote id ++ " > " ++ shQuote path
  | .writeFile path content => catCommand path content
  | .seed hostname udTmp outIso netCfgTmp => cloudInitSeedCmd hostname udTmp outIso netCfgTmp
  | .dominfo name => dominfoCommand name
  | .clone src dst => cpCommand src dst
  | .install spec => virtInstallCommand spec
  | .netInfo network => virsh ("net-info " ++ shellQuote network)
  | .netDumpxml network => virsh ("net-dumpxml " ++ shellQuote network)
  | .addDhcpHost network mac name ip => virsh ("net-update " ++ shellQuote network ++
      " add ip-dhcp-host " ++
      shellQuote ("<host mac='" ++ mac ++ "' name='" ++ name ++ "' ip='" ++ ip ++ "'/>") ++
      " --live --config")
  | .domifaddr name => virsh ("domifaddr " ++ shellQuote name)
  | .onCp privkeyPath cpIp remoteCmd => cpSshCmd privkeyPath cpIp remoteCmd

/-- Whether an image reflects the Containerfile of the checkout. -/
inductive ImageFreshness : Type
  | inSync
  | drifted
  | unverifiable
  deriving DecidableEq, Repr

/-- The end of `hbird verify app-deploy`. -/
inductive VerifyEnd : Type
  | notFound (source : String)
  | exited (success : Bool)
  deriving DecidableEq, Repr

/-- A command, or something that the process does on its own machine. -/
inductive Query : Type
  | run (command : Command)
  | pathExists (path : String)
  | readToString (path : String)
  | readFile (path : String)
  | renderBibConfig (pubkeyContents : String)
  | imageVcsRef (image : String)
  | containerfileChangedSince (repoRoot vcsRef containerfile : String)
  | verify (args : List String)
  deriving DecidableEq, Repr

@[reducible] def Reply : Query → Type
  | .run _ => Except Error String
  | .pathExists _ => Bool
  | .readToString _ => Option String
  | .readFile _ => Option (List UInt8)
  | .renderBibConfig _ => String
  | .imageVcsRef _ => Option String
  | .containerfileChangedSince _ _ _ => ImageFreshness
  | .verify _ => VerifyEnd

instance : (q : Query) → DecidableEq (Reply q)
  | .run _ => inferInstanceAs (DecidableEq (Except Error String))
  | .pathExists _ => inferInstanceAs (DecidableEq Bool)
  | .readToString _ => inferInstanceAs (DecidableEq (Option String))
  | .readFile _ => inferInstanceAs (DecidableEq (Option (List UInt8)))
  | .renderBibConfig _ => inferInstanceAs (DecidableEq String)
  | .imageVcsRef _ => inferInstanceAs (DecidableEq (Option String))
  | .containerfileChangedSince _ _ _ => inferInstanceAs (DecidableEq ImageFreshness)
  | .verify _ => inferInstanceAs (DecidableEq VerifyEnd)

abbrev Steps (ε α : Type) := Exec Query Reply ε α

def run (command : Command) : Steps Error String :=
  (Program.perform (Query.run command) : Program Query Reply (Except Error String))

/-- `anyhow!("..: {e}")`. -/
def wrapped {α : Type} (text : String) (x : Steps Error α) : Steps Failure α :=
  x.context fun e => .msg (text ++ e.toText)

def bail {α : Type} (text : String) : Steps Failure α := throw (.msg text)

/-- `let _ = ..`. -/
def ignore {α : Type} (x : Steps Error α) : Steps Failure Unit := Exec.outcome x >>= fun _ => pure ()

end Hbird.Virt.Deploy
