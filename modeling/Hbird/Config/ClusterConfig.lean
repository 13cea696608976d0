import Hbird.Text

namespace Hbird.Config

/-- What is wrong with a configuration file. -/
inductive Error : Type
  | unrecognizedLine (lineNo : Nat) (raw : String)
  | unterminatedArray (key : String) (lineNo : Nat)
  | unterminatedQuote (lineNo : Nat) (raw : String)
  | missingRequired (field path : String)
  | invalidInteger (field : String) (lineNo : Nat) (raw : String)
  | invalidBool (field : String) (lineNo : Nat) (raw : String)
  | trailingContent (lineNo : Nat) (raw : String)
  | typeMismatch (field expected got : String) (lineNo : Nat)
  deriving DecidableEq, Repr

/-- A key that no field of the configuration takes. -/
structure Warning where
  key : String
  lineNo : Nat
  deriving DecidableEq, Repr

structure ClusterConfig where
  cpName : String
  sshPubkeyFile : String
  kvmHost : Option String
  imageSource : String
  ghcrTag : String
  enableCloudInit : UInt32
  autoUpdateCp : Bool
  switchToGhcr : Bool
  cpMemory : UInt32
  cpVcpus : UInt32
  workerMemory : UInt32
  workerVcpus : UInt32
  poolDir : String
  runVerify : Bool
  bootcUpdateSchedule : Option String
  bootcUpdateRepoK8s : Option String
  bootcUpdateRepoWorker : Option String
  workerNames : Option (List String)
  cpIp : Option String
  podCidr : Option String
  serviceCidr : Option String
  workerIps : Option (List String)
  cpMac : Option String
  workerMacs : Option (List String)
  extraNetwork : Option String
  extraNetCpMac : Option String
  extraNetCpIp : Option String
  extraNetWorkerMacs : Option (List String)
  extraNetWorkerIps : Option (List String)
  warnings : List Warning
  deriving Repr

/-- Two workers where `WORKER_NAMES` is not set at all. -/
def ClusterConfig.resolvedWorkerNames (config : ClusterConfig) : List String :=
  match config.workerNames with
  | some names => names
  | none => [config.cpName ++ "-w1", config.cpName ++ "-w2"]

end Hbird.Config
