import Hbird.UpdateCluster.FromArgs
import Hbird.Virt.CleanVms
import Hbird.Virt.DeployCluster

namespace Hbird.Virt

open Hbird.Config Hbird.Ssh

namespace DestroyCluster

/-- `Plan::from_args`. -/
def Plan.fromArgs (kvmHost : Option String) (dryRun : Bool) (config : ClusterConfig) : Plan where
  cpName := config.cpName
  workerNames := config.workerNames.getD []
  poolDir := config.poolDir
  kvmHost := kvmHost.or config.kvmHost
  dryRun := dryRun

end DestroyCluster

namespace DeployCluster

/-- `Plan::from_args`, with no look at the host of the config. -/
def Plan.fromArgs (kvmHost : Option String) (dryRun : Bool) (config : ClusterConfig) : Plan where
  cpName := config.cpName
  workerNames := config.resolvedWorkerNames
  ghcrTag := config.ghcrTag
  cpMemory := config.cpMemory
  cpVcpus := config.cpVcpus
  workerMemory := config.workerMemory
  workerVcpus := config.workerVcpus
  poolDir := config.poolDir
  autoUpdateCp := config.autoUpdateCp
  switchToGhcr := config.switchToGhcr
  kvmHost := kvmHost
  dryRun := dryRun
  bootcUpdateSchedule := config.bootcUpdateSchedule
  bootcUpdateRepoK8s := config.bootcUpdateRepoK8s
  bootcUpdateRepoWorker := config.bootcUpdateRepoWorker
  podCidr := config.podCidr
  serviceCidr := config.serviceCidr
  cpIp := config.cpIp
  workerIps := config.workerIps

end DeployCluster

namespace SpawnWorkers

/-- The arguments of `spawn-workers` that its plan keeps. -/
structure Args where
  kvmHost : Option String
  dryRun : Bool
  count : UInt32
  tokenTtl : String
  cpSshRetries : UInt32

def Plan.fromArgs (args : Args) (config : ClusterConfig) : Plan where
  cpName := config.cpName
  poolDir := config.poolDir
  count := args.count
  workerMemory := config.workerMemory
  workerVcpus := config.workerVcpus
  tokenTtl := args.tokenTtl
  kvmHost := args.kvmHost.or config.kvmHost
  dryRun := args.dryRun
  cpSshRetries := args.cpSshRetries

end SpawnWorkers

namespace SwitchToGhcr

structure Args where
  ghcrOrg : Option String
  ghcrTag : Option String
  kvmHost : Option String
  forceRebuild : Bool
  forceSwitch : Bool
  dryRun : Bool

structure Plan where
  ghcrOrg : String
  ghcrTag : String
  kvmHost : Option String
  forceRebuild : Bool
  forceSwitch : Bool
  dryRun : Bool
  deriving DecidableEq, Repr

def Plan.fromArgs (args : Args) (config : Option ClusterConfig) : Plan where
  ghcrOrg := (args.ghcrOrg.filter (· ≠ "")).getD "ghcr.io/aatchison"
  ghcrTag := ((args.ghcrTag.filter (· ≠ "")).or (config.map (·.ghcrTag))).getD "latest"
  kvmHost := (args.kvmHost.filter (· ≠ "")).or (config.bind (·.kvmHost))
  forceRebuild := args.forceRebuild
  forceSwitch := args.forceSwitch
  dryRun := args.dryRun

def Plan.vmSshOpts (plan : Plan) (ip : String) (connectTimeoutSecs : Nat) : SshOptions :=
  let opts := ((SshOptions.new ip).withUser "root").withConnectTimeout connectTimeoutSecs
  match plan.kvmHost with
  | some jump => opts.withProxyJump jump
  | none => opts

end SwitchToGhcr

end Hbird.Virt

namespace Hbird.Etcd

open Hbird.Config Hbird.Ssh Hbird.Virt

structure CpTarget where
  cpIp : String
  kvmHost : Option String
  deriving DecidableEq, Repr

def CpTarget.cpSshOpts (target : CpTarget) : SshOptions :=
  let opts := (SshOptions.new target.cpIp).withUser "root"
  match target.kvmHost with
  | some jump => opts.withProxyJump jump
  | none => opts

/-- The host in `plan_from_common`. -/
def commonKvmHost (kvmHost : Option String) (config : Option ClusterConfig) : Option String :=
  (kvmHost.or (config.bind (·.kvmHost))).filter (· ≠ "")

/-- Where `plan_from_common` looks the address of the control plane up. -/
def lookupConnection (kvmHost : Option String) : Connection :=
  match kvmHost with
  | some host => .remote host
  | none => buildConnection none

end Hbird.Etcd

namespace Hbird.KvmHost

open Hbird.Config Hbird.Interaction Hbird.Ssh Hbird.Virt Hbird.UpdateCluster Hbird.UpdateCluster.FromArgs

/-- The argument unless it is absent or empty, then the value of the config. -/
def requested (kvmHost config : Option String) : Option String :=
  (kvmHost.filter (· ≠ "")).or (config.filter (· ≠ ""))

/-- The host that a connection goes to, none where it stays on this one. -/
def connectionHost : Connection → Option String
  | .remote host => some host
  | .onHost => none

/-- All commands, and `update-cluster` with the plan it makes, use the host. -/
structure UsedEverywhere (args : FromArgs.Args) (config : ClusterConfig) (plan : UpdateCluster.Plan)
    (host : Option String) : Prop where
  updateLookup : connectionHost (buildConnection (lookupHost args config)) = host
  updateCp : (cpSshOpts plan).proxyJump = host
  updateNode : ∀ ip, (nodeSshOpts plan ip).proxyJump = host
  etcdLookup : connectionHost (Etcd.lookupConnection (Etcd.commonKvmHost args.kvmHost (some config))) =
    host
  etcdJump : ∀ cpIp,
    (Etcd.CpTarget.cpSshOpts ⟨cpIp, Etcd.commonKvmHost args.kvmHost (some config)⟩).proxyJump = host
  deploy : connectionHost
    (buildConnection (DeployCluster.Plan.fromArgs args.kvmHost args.dryRun config).kvmHost) = host
  destroy : connectionHost
    (buildConnection (DestroyCluster.Plan.fromArgs args.kvmHost args.dryRun config).kvmHost) = host
  spawn : ∀ spawnArgs : SpawnWorkers.Args, spawnArgs.kvmHost = args.kvmHost →
    connectionHost (buildConnection (SpawnWorkers.Plan.fromArgs spawnArgs config).kvmHost) = host
  switch : ∀ switchArgs : SwitchToGhcr.Args, switchArgs.kvmHost = args.kvmHost →
    connectionHost (buildConnection (SwitchToGhcr.Plan.fromArgs switchArgs (some config)).kvmHost) =
      host ∧ ∀ ip timeout, ((SwitchToGhcr.Plan.fromArgs switchArgs (some config)).vmSshOpts ip
        timeout).proxyJump = host
  cleanVms : ∀ cleanArgs : CleanVms.CleanVmsArgs, cleanArgs.kvmHost = args.kvmHost →
    connectionHost (buildConnection (CleanVms.Plan.fromArgs cleanArgs (some config)).kvmHost) = host

section Uses

variable {args : FromArgs.Args} {config : ClusterConfig} {timeouts : Timeouts} {t : Trace Ssh.Reply}
  {plan : UpdateCluster.Plan}

theorem connectionHost_build (kvmHost : Option String) :
    connectionHost (buildConnection kvmHost) = kvmHost.filter (· ≠ "") := by
  rw [buildConnection]
  cases kvmHost.filter (· ≠ "") with
  | none => rfl
  | some host => rfl

theorem proxyJump_cp : (cpSshOpts plan).proxyJump = plan.kvmHost := by
  unfold cpSshOpts
  cases plan.kvmHost <;> rfl

theorem proxyJump_node (ip : String) : (nodeSshOpts plan ip).proxyJump = plan.kvmHost := by
  unfold nodeSshOpts
  cases plan.kvmHost <;> dsimp only <;> split <;> rfl

theorem proxyJump_target (cpIp : String) (kvmHost : Option String) :
    (Etcd.CpTarget.cpSshOpts ⟨cpIp, kvmHost⟩).proxyJump = kvmHost := by
  cases kvmHost <;> rfl

theorem proxyJump_vm (plan : SwitchToGhcr.Plan) (ip : String) (timeout : Nat) :
    (plan.vmSshOpts ip timeout).proxyJump = plan.kvmHost := by
  unfold SwitchToGhcr.Plan.vmSshOpts
  cases plan.kvmHost <;> rfl

/-- The plan keeps the argument as it is. -/
theorem kvmHost_fromArgs (h : Finishes (fromArgs args config timeouts) t (.ok plan)) :
    plan.kvmHost = args.kvmHost := by
  have h := finishes_fromArgs h
  unfold planOf at h
  dsimp only at h
  obtain ⟨ips, t₁, t₂, rfl, -, h⟩ := finishes_bind_ok.mp h
  split_ifs at h
  · cases (finishes_throw.mp h).2
  · cases ho : parseOverrides config.cpName config.resolvedWorkerNames args.nodeNameOverride [] with
    | error text =>
      rw [ho] at h
      cases (finishes_throw.mp h).2
    | ok overrides =>
      rw [ho] at h
      obtain ⟨-, hplan⟩ := finishes_pure.mp h
      obtain rfl := Except.ok.inj hplan
      rfl

theorem requested_none : requested none none = none := rfl

theorem requested_some {host : String} (hne : host ≠ "") (config : Option String) :
    requested (some host) config = some host := by
  simp [requested, hne]

/-- No empty host is asked for. -/
theorem requested_ne_empty (kvmHost config : Option String) : requested kvmHost config ≠ some "" := by
  intro h
  obtain ha | ⟨-, hc⟩ := Option.or_eq_some_iff.mp h
  · simp at ha
  · simp at hc

theorem usedEverywhere_of_eq {host : Option String} (hplan : plan.kvmHost = args.kvmHost)
    (harg : args.kvmHost = host) (hor : args.kvmHost.or config.kvmHost = host)
    (hne : host.filter (· ≠ "") = host) : UsedEverywhere args config plan host := by
  have hfilter : args.kvmHost.filter (· ≠ "") = host := by rw [harg, hne]
  have hfirst : (args.kvmHost.filter (· ≠ "")).or config.kvmHost = host := by
    rw [hfilter, ← harg, hor, harg]
  have hcommon : Etcd.commonKvmHost args.kvmHost (some config) = host := by
    rw [Etcd.commonKvmHost, Option.bind_some, hor, hne]
  exact {
    updateLookup := by rw [connectionHost_build, lookupHost, hor, hne, hne]
    updateCp := by rw [proxyJump_cp, hplan, harg]
    updateNode := fun ip => by rw [proxyJump_node, hplan, harg]
    etcdLookup := by
      rw [hcommon]
      cases host <;> rfl
    etcdJump := fun cpIp => by rw [proxyJump_target, hcommon]
    deploy := by rw [connectionHost_build, DeployCluster.Plan.fromArgs, hfilter]
    destroy := by rw [connectionHost_build, DestroyCluster.Plan.fromArgs, hor, hne]
    spawn := fun spawnArgs hs => by rw [connectionHost_build, SpawnWorkers.Plan.fromArgs, hs, hor, hne]
    switch := fun switchArgs hs => by
      refine ⟨?_, fun ip timeout => ?_⟩
      · rw [connectionHost_build, SwitchToGhcr.Plan.fromArgs, Option.bind_some, hs, hfirst, hne]
      · rw [proxyJump_vm, SwitchToGhcr.Plan.fromArgs, Option.bind_some, hs, hfirst]
    cleanVms := fun cleanArgs hs => by
      rw [connectionHost_build, CleanVms.Plan.fromArgs, Option.bind_some, hs, hfirst, hne] }

/-- The commands agree on the host exactly when the argument names one, or neither it nor the config
has a value. -/
theorem usedEverywhere_iff (h : Finishes (fromArgs args config timeouts) t (.ok plan)) :
    UsedEverywhere args config plan (requested args.kvmHost config.kvmHost) ↔
      (∃ host, args.kvmHost = some host ∧ host ≠ "") ∨
        args.kvmHost = none ∧ config.kvmHost = none := by
  have hplan := kvmHost_fromArgs h
  constructor
  · intro hused
    have hjump := hused.updateCp
    rw [proxyJump_cp, hplan] at hjump
    cases harg : args.kvmHost with
    | some host =>
      refine .inl ⟨host, rfl, ?_⟩
      rintro rfl
      rw [harg] at hjump
      exact requested_ne_empty _ _ hjump.symm
    | none =>
      have hswitch := (hused.switch ⟨none, none, args.kvmHost, false, false, false⟩ rfl).2 "" 0
      rw [proxyJump_vm, SwitchToGhcr.Plan.fromArgs, Option.bind_some, harg] at hswitch
      rw [harg] at hjump
      refine .inr ⟨rfl, ?_⟩
      have hconfig : config.kvmHost = requested none config.kvmHost := hswitch
      exact hconfig.trans hjump.symm
  · rintro (⟨host, harg, hne⟩ | ⟨harg, hconfig⟩)
    · rw [harg, requested_some hne]
      exact usedEverywhere_of_eq hplan harg (by rw [harg, Option.some_or]) (by simp [hne])
    · rw [harg, hconfig, requested_none]
      exact usedEverywhere_of_eq hplan harg (by rw [harg, hconfig]; rfl) rfl

/-- A config that gives all addresses. -/
def sampleConfig (kvmHost : Option String) : ClusterConfig :=
  { FromArgs.sampleConfig ["10.0.0.3", "10.0.0.4"] with kvmHost }

/-- The arguments of the sample, with one for the host. -/
def argsWith (kvmHost : Option String) : Args :=
  { sampleArgs with kvmHost }

theorem sample_finishes (argument configured : Option String) :
    ∃ plan, Finishes (fromArgs (argsWith argument) (sampleConfig configured) .default) []
      (.ok plan) := by
  have hips : resolveIps (argsWith argument) (sampleConfig configured) ["w1", "w2"] =
      pure ("10.0.0.2", [("w2", "10.0.0.4"), ("w1", "10.0.0.3")]) := rfl
  have hoverrides : parseOverrides "cp" ["w1", "w2"] ["w1=n1,w2=n2", "w1=n3"] [] =
      .ok [("w1", "n3"), ("w2", "n2"), ("w1", "n1")] := by
    decide +kernel
  have hplan : fromArgs (argsWith argument) (sampleConfig configured) .default =
      planOf (argsWith argument) (sampleConfig configured) .default 1 := rfl
  rw [hplan]
  unfold planOf
  dsimp only [ClusterConfig.resolvedWorkerNames, sampleConfig, FromArgs.sampleConfig]
  change ∃ plan, Finishes
    (resolveIps (argsWith argument) (sampleConfig configured) ["w1", "w2"] >>= _) _ _
  rw [hips, pure_bind, argsWith, sampleArgs, hoverrides]
  exact ⟨_, finishes_pure.mpr ⟨rfl, rfl⟩⟩

/-- A host in the argument goes over one in the config, and everybody uses it. -/
theorem usedEverywhere_sample : ∃ plan,
    Finishes (fromArgs (argsWith (some "geary")) (sampleConfig (some "other")) .default) []
      (.ok plan) ∧
    UsedEverywhere (argsWith (some "geary")) (sampleConfig (some "other")) plan (some "geary") := by
  obtain ⟨plan, hplan⟩ := sample_finishes (some "geary") (some "other")
  have hused := (usedEverywhere_iff hplan).mpr (.inl ⟨"geary", rfl, by decide⟩)
  exact ⟨plan, hplan, hused⟩

/-- With the host in the config only, `update-cluster` looks the addresses up there and connects
without it. -/
theorem not_usedEverywhere : ¬ ∀ args config timeouts t plan,
    Finishes (fromArgs args config timeouts) t (.ok plan) →
      UsedEverywhere args config plan (requested args.kvmHost config.kvmHost) := by
  intro h
  obtain ⟨plan, hplan⟩ := sample_finishes none (some "geary")
  have hjump := (h _ _ _ _ plan hplan).updateCp
  rw [proxyJump_cp, kvmHost_fromArgs hplan] at hjump
  exact absurd hjump (by decide +kernel)

end Uses

end Hbird.KvmHost
