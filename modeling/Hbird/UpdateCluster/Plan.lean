import Hbird.Ssh

namespace Hbird.UpdateCluster

open Hbird.Interaction Hbird.Ssh

abbrev Failure := Anyhow Ssh.Error

/-- Raise a text, as `bail!` does. -/
def bail {α : Type} (text : String) : Remote Failure α := throw (.msg text)

def withContext {α : Type} (text : String) (x : Remote Failure α) : Remote Failure α :=
  x.context (.context text)

structure Timeouts where
  drain : String
  ready : UInt32
  daemonset : UInt32
  apiserver : UInt32
  ssh : UInt32
  sshDrop : UInt32
  interNodeSleep : UInt32
  sshCommand : UInt32
  deriving DecidableEq, Repr

def Timeouts.default : Timeouts where
  drain := "5m"
  ready := 300
  daemonset := 300
  apiserver := 300
  ssh := 300
  sshDrop := 30
  interNodeSleep := 5
  sshCommand := 3600

/-- The merged arguments and configuration of one run; the maps are association lists
whose first entry for a name counts. -/
structure Plan where
  cpName : String
  cpIp : String
  workerNames : List String
  workerIpMap : List (String × String)
  workerK8sNameMap : List (String × String)
  cpK8sName : String
  workersOnly : Bool
  skipDrain : Bool
  skipGates : Bool
  dryRun : Bool
  continueOnError : Bool
  noDeleteEmptydirData : Bool
  nodeFilter : Option String
  startFrom : Option String
  parallel : UInt32
  kvmHost : Option String
  timeouts : Timeouts
  deriving DecidableEq, Repr

/-- A live run over one worker with every option at its default. -/
def Plan.sample : Plan where
  cpName := "cp"
  cpIp := "10.0.0.2"
  workerNames := ["w1"]
  workerIpMap := [("w1", "10.0.0.3")]
  workerK8sNameMap := [("w1", "w1")]
  cpK8sName := "cp"
  workersOnly := false
  skipDrain := false
  skipGates := false
  dryRun := false
  continueOnError := false
  noDeleteEmptydirData := false
  nodeFilter := none
  startFrom := none
  parallel := 1
  kvmHost := none
  timeouts := .default

def Plan.fleet : Plan :=
  { Plan.sample with
    workerNames := ["w1", "w2"]
    workerIpMap := [("w1", "10.0.0.3"), ("w2", "10.0.0.4")]
    workerK8sNameMap := [("w1", "w1"), ("w2", "w2")] }

/-- The workers from `--start-from` on, or all of them. -/
def Plan.workersToRun (plan : Plan) : List String :=
  match plan.startFrom with
  | some sf => plan.workerNames.dropWhile (· ≠ sf)
  | none => plan.workerNames

def cpSshOpts (plan : Plan) : SshOptions :=
  let opts := (SshOptions.new plan.cpIp).withUser "root"
  match plan.kvmHost with
  | some jump => opts.withProxyJump jump
  | none => opts

def nodeSshOpts (plan : Plan) (ip : String) : SshOptions :=
  let opts := (SshOptions.new ip).withUser "root"
  let opts := match plan.kvmHost with
    | some jump => opts.withProxyJump jump
    | none => opts
  if plan.timeouts.sshCommand > 0 then opts.withCommandTimeout plan.timeouts.sshCommand.toNat
  else opts

theorem cpSshOpts_identityFile (plan : Plan) : (cpSshOpts plan).identityFile = none := by
  unfold cpSshOpts
  cases plan.kvmHost <;> rfl

theorem nodeSshOpts_identityFile (plan : Plan) (ip : String) :
    (nodeSshOpts plan ip).identityFile = none := by
  unfold nodeSshOpts
  cases plan.kvmHost <;> dsimp only <;> split <;> rfl

end Hbird.UpdateCluster
