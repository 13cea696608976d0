import Hbird.Cuts
import Hbird.Virt.DeployCluster

namespace Hbird.Virt

open Hbird.Interaction Hbird.Ssh Hbird.Text

/-- What was really behind the end of an existence probe. -/
inductive Cause : Type
  | answered (stdout stderr : String)
  | noSuchDomain (code : UInt8) (hc : code ≠ 0) (stdout stderr : String)
  | otherFailure (code : UInt8) (hc : code ≠ 0) (stdout stderr : String)
  | connectionFailed (stdout stderr : String)
  | killed (signal : Nat) (stdout stderr : String)
  | notRun (e : ProcessEnd) (he : ∀ status stdout stderr, e ≠ .exited status stdout stderr)

namespace Cause

/-- How the child process ended; `ssh` passes the command's status on, or reports 255. -/
def toEnd : Cause → ProcessEnd
  | .answered stdout stderr => .exited (.code 0) stdout stderr
  | .noSuchDomain code _ stdout stderr => .exited (.code code) stdout stderr
  | .otherFailure code _ stdout stderr => .exited (.code code) stdout stderr
  | .connectionFailed stdout stderr => .exited (.code 255) stdout stderr
  | .killed signal stdout stderr => .exited (.signal signal) stdout stderr
  | .notRun e _ => e

/-- virsh ran on the host and reported that it does not know the domain. -/
def IsAbsence : Cause → Prop
  | .noSuchDomain _ _ _ _ => True
  | _ => False

/-- The probe failed, and not because there is no such domain. -/
def Fails (name : String) : Cause → Prop
  | .answered stdout _ => ∀ info, parseDominfo stdout (dominfoCommand name) ≠ .ok info
  | .noSuchDomain _ _ _ _ => False
  | _ => True

/-- The child ended with a status other than 0, or by a signal, and not because there is no
such domain. -/
def EndsBadly : Cause → Prop
  | .otherFailure _ _ _ _ => True
  | .connectionFailed _ _ => True
  | .killed _ _ _ => True
  | _ => False

end Cause

/-- The command writes or removes the disk, the seed or the definition of a VM. -/
inductive Touches (poolDir name : String) : String → Prop
  | undefine : Touches poolDir name (undefineCommand name)
  | remove {path : String} (h : path ∈ [diskPath poolDir name, seedPath poolDir name,
      poolDir ++ "/" ++ name ++ "-cloud-init.iso"]) : Touches poolDir name (rmCommand path)
  | clone (src : String) : Touches poolDir name (cpCommand src (diskPath poolDir name))
  | seed (hostname udTmp : String) (netCfgTmp : Option String) :
      Touches poolDir name (cloudInitSeedCmd hostname udTmp (seedPath poolDir name) netCfgTmp)
  | install {spec : VmSpec} (h : spec.name = name) : Touches poolDir name (virtInstallCommand spec)

/-- The probe reports that there is no such VM. -/
def ReportsAbsent (conn : Connection) (name : String) (e : ProcessEnd) : Prop :=
  ∀ onError, Finishes (existenceProbe conn name onError)
    [conn.exchange (dominfoCommand name) e] (.ok none)

/-- One VM in the hands of one of the three commands. -/
inductive VmTask : Type
  | destroy (plan : DestroyCluster.Plan) (name : String)
  | spawnWorker (plan : SpawnWorkers.Plan) (pid : UInt32) (cpIp privkeyPath : String)
      (injector : SpawnWorkers.Injector) (i : UInt32)
  | deployCp (plan : DeployCluster.Plan) (pid : UInt32) (pubkeyContents cpTemplate : String)
      (macs : DeployCluster.PrimaryMacs) (net2 : Option Net2)
  | deployWorker (plan : DeployCluster.Plan) (pid : UInt32)
      (workerTemplate joinCmd pubkeyContents : String) (macs : DeployCluster.PrimaryMacs)
      (net2s : Option (List Net2)) (i : Nat) (w : String)

namespace VmTask

def vm : VmTask → String
  | .destroy _ name => name
  | .spawnWorker plan _ _ _ _ i => plan.workerName i
  | .deployCp plan _ _ _ _ _ => plan.cpName
  | .deployWorker _ _ _ _ _ _ _ _ w => w

def poolDir : VmTask → String
  | .destroy plan _ => plan.poolDir
  | .spawnWorker plan _ _ _ _ _ => plan.poolDir
  | .deployCp plan _ _ _ _ _ => plan.poolDir
  | .deployWorker plan _ _ _ _ _ _ _ _ => plan.poolDir

def process (conn : Connection) : VmTask → Remote Failure Unit
  | .destroy plan name => DestroyCluster.destroyOne conn plan name >>= fun _ => pure ()
  | .spawnWorker plan pid cpIp privkeyPath injector i =>
    SpawnWorkers.spawnWorker conn plan pid cpIp privkeyPath injector i
  | .deployCp plan pid pubkeyContents cpTemplate macs net2 =>
    DeployCluster.deployCp conn plan pid pubkeyContents cpTemplate macs net2 >>= fun _ => pure ()
  | .deployWorker plan pid workerTemplate joinCmd pubkeyContents macs net2s i w =>
    DeployCluster.deployWorker conn plan pid workerTemplate joinCmd pubkeyContents macs net2s i w

/-- What a task does before it probes; the value is the path of the seed. -/
def prepare (conn : Connection) : VmTask → Remote Failure String
  | .destroy _ _ => pure ""
  | .spawnWorker _ _ _ _ _ _ => pure ""
  | .deployCp plan pid pubkeyContents _ _ net2 =>
    DeployCluster.planCpSeed conn plan pid pubkeyContents net2
  | .deployWorker _ _ _ _ _ _ _ _ _ => pure ""

/-- What a task does once it takes the VM for not defined. -/
def onAbsent (conn : Connection) (seed : String) : VmTask → Remote Failure Unit
  | .destroy plan name => DestroyCluster.removeVm conn plan name false >>= fun _ => pure ()
  | .spawnWorker plan pid cpIp privkeyPath injector i =>
    SpawnWorkers.createWorker conn plan pid cpIp privkeyPath injector (plan.workerName i)
  | .deployCp plan _ _ cpTemplate macs net2 =>
    DeployCluster.installCp conn plan cpTemplate seed macs net2 >>= fun _ => pure ()
  | .deployWorker plan pid workerTemplate joinCmd pubkeyContents macs net2s i w =>
    DeployCluster.createWorker conn plan pid workerTemplate joinCmd pubkeyContents macs net2s i w

/-- The run goes into the branch for a VM that is not defined. -/
def TakesForAbsent (conn : Connection) (task : VmTask) (w : Trace Reply) (o : Except Failure Unit) :
    Prop :=
  ∃ seed u e v, w = u ++ conn.exchange (dominfoCommand task.vm) e :: v ∧
    Finishes (task.prepare conn) u (.ok seed) ∧ ReportsAbsent conn task.vm e ∧
      Finishes (task.onAbsent conn seed) v o

end VmTask

/-- The law of a task whose probe ended by `c`: the VM counts as not defined only on virsh's
word, and any other failure of the probe ends the task before anything of the VM is touched. -/
structure Faithful (conn : Connection) (task : VmTask) (c : Cause) (w : Trace Reply)
    (o : Except Failure Unit) : Prop where
  absent : task.TakesForAbsent conn w o → c.IsAbsence
  failed : c.Fails task.vm → ∃ e, o = .error e
  untouched : c.Fails task.vm → ∀ x ∈ w, ∀ command, Touches task.poolDir task.vm command →
    x.1 ≠ conn.query command

/-- When a task keeps its law: the control plane's deployment writes the seed before it probes. -/
def VmTask.Distinguishes (task : VmTask) (c : Cause) : Prop :=
  match task with
  | .deployCp plan _ _ _ _ _ => ¬ c.Fails plan.cpName
  | _ => ¬ c.EndsBadly

section Probe

variable {conn : Connection} {name : String} {onError : Error → Failure} {e : ProcessEnd} {c : Cause}
  {t u v w : Trace Reply}

def dominfoResult (conn : Connection) (name : String) (e : ProcessEnd) : Except Error DomainInfo :=
  match conn.result (dominfoCommand name) e with
  | .ok stdout => parseDominfo stdout (dominfoCommand name)
  | .error error => .error error

def probeResult (onError : Error → Failure) : Except Error DomainInfo → Except Failure (Option DomainInfo)
  | .ok info => .ok (some info)
  | .error (.virshFailed _ _) => .ok none
  | .error e => .error (onError e)

theorem finishes_dominfo {r : Except Error DomainInfo} :
    Finishes (conn.dominfo name) t r ↔
      ∃ e, t = [conn.exchange (dominfoCommand name) e] ∧ r = dominfoResult conn name e := by
  rw [Connection.dominfo, finishes_bind]
  constructor
  · rintro (⟨err, rfl, h⟩ | ⟨stdout, t₁, t₂, rfl, h₁, h₂⟩)
    · obtain ⟨e, rfl, he⟩ := Connection.finishes_run.mp h
      exact ⟨e, rfl, by rw [dominfoResult, ← he]⟩
    · obtain ⟨e, rfl, he⟩ := Connection.finishes_run.mp h₁
      obtain ⟨rfl, rfl⟩ := runs_done.mp h₂
      exact ⟨e, rfl, by rw [dominfoResult, ← he]; rfl⟩
  · rintro ⟨e, rfl, rfl⟩
    cases he : conn.result (dominfoCommand name) e with
    | ok stdout =>
      refine .inr ⟨stdout, _, [], rfl, Connection.finishes_run.mpr ⟨e, rfl, he.symm⟩, ?_⟩
      rw [dominfoResult, he]
      exact .done _
    | error err =>
      refine .inl ⟨err, ?_, Connection.finishes_run.mpr ⟨e, rfl, he.symm⟩⟩
      rw [dominfoResult, he]

theorem finishes_existenceProbe {r : Except Failure (Option DomainInfo)} :
    Finishes (existenceProbe conn name onError) t r ↔
      ∃ e, t = [conn.exchange (dominfoCommand name) e] ∧
        r = probeResult onError (dominfoResult conn name e) := by
  rw [existenceProbe, finishes_outcome_bind]
  constructor
  · rintro ⟨x, t₁, t₂, rfl, h₁, h₂⟩
    obtain ⟨e, rfl, rfl⟩ := finishes_dominfo.mp h₁
    refine ⟨e, ?_⟩
    cases hd : dominfoResult conn name e with
    | ok info =>
      rw [hd] at h₂
      obtain ⟨rfl, rfl⟩ := runs_done.mp h₂
      exact ⟨rfl, rfl⟩
    | error err =>
      rw [hd] at h₂
      cases err <;> (obtain ⟨rfl, rfl⟩ := runs_done.mp h₂; exact ⟨rfl, rfl⟩)
  · rintro ⟨e, rfl, rfl⟩
    refine ⟨_, _, [], rfl, finishes_dominfo.mpr ⟨e, rfl, rfl⟩, ?_⟩
    cases dominfoResult conn name e with
    | ok info => exact .done _
    | error err => cases err <;> exact .done _

theorem parseDominfo_error {stdout command : String} {err : Error}
    (h : parseDominfo stdout command = .error err) : ∃ reason, err = .unparseableOutput command reason := by
  unfold parseDominfo at h
  dsimp only at h
  split at h <;> first | exact ⟨_, (Except.error.inj h).symm⟩ | cases h

theorem dominfoResult_failed {status : ExitStatus} (hs : status.success = false)
    {stdout stderr : String} : dominfoResult conn name (.exited status stdout stderr) =
      .error (.virshFailed (dominfoCommand name) stderr) := by
  rw [dominfoResult, Connection.result_exited, hs, if_neg Bool.false_ne_true]

theorem dominfoResult_answered {stdout stderr : String} :
    dominfoResult conn name (.exited (.code 0) stdout stderr) =
      parseDominfo stdout (dominfoCommand name) := by
  rw [dominfoResult, Connection.result_exited]
  rfl

theorem dominfoResult_notRun (conn : Connection) (name : String) (he : ∀ status stdout stderr, e ≠ .exited status stdout stderr) :
    ∃ source, dominfoResult conn name e = .error (.ssh source) := by
  cases e with
  | exited status stdout stderr => exact absurd rfl (he status stdout stderr)
  | spawnFailed kind source => cases conn <;> exact ⟨_, rfl⟩
  | stdinFailed source => cases conn <;> exact ⟨_, rfl⟩
  | waitFailed source => cases conn <;> exact ⟨_, rfl⟩
  | timedOut => cases conn <;> exact ⟨_, rfl⟩

theorem success_of_ne {code : UInt8} (hc : code ≠ 0) : (ExitStatus.code code).success = false := by
  simpa [ExitStatus.success] using hc

theorem reportsAbsent_iff :
    ReportsAbsent conn name e ↔ ∃ command stderr,
      dominfoResult conn name e = .error (.virshFailed command stderr) := by
  constructor
  · intro h
    obtain ⟨e', he, hr⟩ := finishes_existenceProbe.mp (h .source)
    obtain rfl := Connection.exchange_injective (List.cons.inj he).1
    cases hd : dominfoResult conn name e with
    | ok info => rw [hd] at hr; cases hr
    | error err =>
      rw [hd] at hr
      cases err with
      | virshFailed command stderr => exact ⟨command, stderr, rfl⟩
      | ssh source => cases hr
      | unparseableOutput command reason => cases hr
  · rintro ⟨command, stderr, hd⟩ onError
    exact finishes_existenceProbe.mpr ⟨e, rfl, by rw [hd]; rfl⟩

/-- Every failing end of the child but one that says nothing is taken for an absent domain. -/
theorem reportsAbsent_cause (conn : Connection) (name : String) : ReportsAbsent conn name c.toEnd ↔ c.IsAbsence ∨ c.EndsBadly := by
  rw [reportsAbsent_iff]
  cases c with
  | answered stdout stderr =>
    simp only [Cause.toEnd, Cause.IsAbsence, Cause.EndsBadly, or_self, iff_false, not_exists]
    intro command stderr' h
    rw [dominfoResult_answered] at h
    obtain ⟨reason, hr⟩ := parseDominfo_error h
    cases hr
  | noSuchDomain code hc stdout stderr =>
    exact ⟨fun _ => .inl trivial, fun _ => ⟨_, _, dominfoResult_failed (success_of_ne hc)⟩⟩
  | otherFailure code hc stdout stderr =>
    exact ⟨fun _ => .inr trivial, fun _ => ⟨_, _, dominfoResult_failed (success_of_ne hc)⟩⟩
  | connectionFailed stdout stderr =>
    exact ⟨fun _ => .inr trivial, fun _ => ⟨_, _, dominfoResult_failed rfl⟩⟩
  | killed signal stdout stderr =>
    exact ⟨fun _ => .inr trivial, fun _ => ⟨_, _, dominfoResult_failed rfl⟩⟩
  | notRun e he =>
    simp only [Cause.toEnd, Cause.IsAbsence, Cause.EndsBadly, or_self, iff_false, not_exists]
    intro command stderr h
    obtain ⟨source, hs⟩ := dominfoResult_notRun conn name he
    rw [hs] at h
    cases h

theorem probe_error_of_fails (conn : Connection) (hf : c.Fails name) (hb : ¬ c.EndsBadly) :
    ∃ err, ∀ onError, probeResult onError (dominfoResult conn name c.toEnd) = .error (onError err) := by
  cases c with
  | answered stdout stderr =>
    cases hp : parseDominfo stdout (dominfoCommand name) with
    | ok info => exact absurd hp (hf info)
    | error err =>
      obtain ⟨reason, rfl⟩ := parseDominfo_error hp
      refine ⟨.unparseableOutput (dominfoCommand name) reason, fun onError => ?_⟩
      rw [Cause.toEnd, dominfoResult_answered, hp]
      rfl
  | noSuchDomain code hc stdout stderr => exact hf.elim
  | otherFailure code hc stdout stderr => exact absurd trivial hb
  | connectionFailed stdout stderr => exact absurd trivial hb
  | killed signal stdout stderr => exact absurd trivial hb
  | notRun e he =>
    obtain ⟨source, hs⟩ := dominfoResult_notRun conn name he
    exact ⟨_, fun onError => by rw [Cause.toEnd, hs]; rfl⟩

theorem virsh_injective {rest rest' : String} (h : virsh rest = virsh rest') : rest = rest' :=
  append_left_cancel _ h

theorem startsWith_virsh (rest : String) : startsWith (virsh rest) "virsh" = true := by
  unfold virsh
  repeat' apply startsWith_append_left
  exact startsWith_ofList _ _

theorem begins_virsh (rest : String) : Begins 'v' (virsh rest) :=
  begins_append (begins_append (begins_append ⟨_, String.toList_ofList⟩ _) _) _

theorem begins_catCommand (path text : String) : Begins 'c' (catCommand path text) := by
  refine begins_append (begins_append (begins_append (begins_append ?_ _) _) _) _
  exact ⟨_, String.toList_ofList⟩

theorem begins_cpCommand (src dst : String) : Begins 'c' (cpCommand src dst) :=
  begins_append (begins_append (begins_append ⟨_, String.toList_ofList⟩ _) _) _

theorem begins_rmCommand (path : String) : Begins 'r' (rmCommand path) :=
  begins_append ⟨_, String.toList_ofList⟩ _

theorem begins_cloudInitSeedCmd (hostname udTmp outIso : String) (netCfgTmp : Option String) :
    Begins 's' (cloudInitSeedCmd hostname udTmp outIso netCfgTmp) :=
  begins_append ⟨_, String.toList_ofList⟩ _

theorem startsWith_virtInstall (spec : VmSpec) :
    startsWith (virtInstallCommand spec) "virt-" = true := by
  unfold virtInstallCommand
  repeat' apply startsWith_append_left
  exact startsWith_ofList _ _

theorem touches_ne_dominfo {poolDir vm command : String} (h : Touches poolDir vm command) :
    command ≠ dominfoCommand name := by
  intro hd
  have hv := begins_virsh ("dominfo " ++ shellQuote name)
  cases h with
  | undefine =>
    have hu := virsh_injective hd
    exact begins_ne (begins_append ⟨_, String.toList_ofList⟩ _)
      (begins_append ⟨_, String.toList_ofList⟩ _) (by decide : 'u' ≠ 'd') hu
  | remove _ => exact begins_ne (begins_rmCommand _) hv (by decide) hd
  | clone src => exact begins_ne (begins_cpCommand _ _) hv (by decide) hd
  | seed hostname udTmp netCfgTmp =>
    exact begins_ne (begins_cloudInitSeedCmd _ _ _ _) hv (by decide) hd
  | @install spec _ =>
    have hs := startsWith_virtInstall spec
    rw [hd] at hs
    have he : ['v', 'i', 'r', 't', '-'] = ['v', 'i', 'r', 's', 'h'] :=
      startsWith_unique hs (startsWith_virsh _) rfl
    exact absurd he (by decide)

theorem finishes_wrapped {command text : String} {r : Except Failure String} :
    Finishes (wrapped text (conn.execShell command)) t r ↔
      ∃ e, t = [conn.exchange command e] ∧
        r = (conn.result command e).mapError fun x => .msg (text ++ x.toText) := by
  rw [wrapped, finishes_context]
  constructor
  · rintro ⟨x, rfl, h⟩
    obtain ⟨e, rfl, rfl⟩ := Connection.finishes_run.mp h
    exact ⟨e, rfl, rfl⟩
  · rintro ⟨e, rfl, rfl⟩
    exact ⟨_, rfl, Connection.finishes_run.mpr ⟨e, rfl, rfl⟩⟩

theorem puts_wrapped {φ : Query → Prop} {command text : String} (h : φ (conn.query command)) :
    Puts φ (wrapped text (conn.execShell command)).run := by
  intro t o hr x hx
  obtain ⟨e, rfl, -⟩ := finishes_wrapped.mp hr
  rw [List.mem_singleton.mp hx, Connection.exchange_fst]
  exact h

theorem puts_planCpSeed {plan : DeployCluster.Plan} {pid : UInt32} {pubkeyContents : String}
    {net2 : Option Net2} : Puts (fun q => q ≠ conn.query (dominfoCommand name))
      (DeployCluster.planCpSeed conn plan pid pubkeyContents net2).run := by
  have hcat : ∀ path text, conn.query (catCommand path text) ≠ conn.query (dominfoCommand name) :=
    fun path text h => begins_ne (begins_catCommand path text) (begins_virsh _) (by decide)
      (Connection.query_injective h)
  unfold DeployCluster.planCpSeed
  dsimp only
  split
  · exact puts_done _ _
  · refine puts_exec_bind (puts_wrapped (hcat _ _)) fun _ => puts_exec_bind ?_ fun nc => ?_
    · cases net2 with
      | none => exact puts_done _ _
      | some n => exact puts_exec_bind (puts_wrapped (hcat _ _)) fun _ => puts_done _ _
    · refine puts_exec_bind (puts_wrapped ?_) fun _ => puts_done _ _
      intro h
      exact begins_ne (begins_cloudInitSeedCmd _ _ _ _) (begins_virsh _) (by decide)
        (Connection.query_injective h)

/-- A control plane's seed has been written when its VM is probed for. -/
theorem planCpSeed_ok {plan : DeployCluster.Plan} (hd : plan.dryRun = false) {pid : UInt32}
    {pubkeyContents seed : String} {net2 : Option Net2}
    (h : Finishes (DeployCluster.planCpSeed conn plan pid pubkeyContents net2) t (.ok seed)) :
    ∃ x ∈ t, ∃ command, Touches plan.poolDir plan.cpName command ∧ x.1 = conn.query command := by
  unfold DeployCluster.planCpSeed at h
  dsimp only at h
  rw [hd, if_neg Bool.false_ne_true] at h
  obtain ⟨_, t₁, t₂, rfl, -, h⟩ := finishes_bind_ok.mp h
  obtain ⟨nc, t₃, t₄, rfl, -, h⟩ := finishes_bind_ok.mp h
  obtain ⟨_, t₅, t₆, rfl, hs, -⟩ := finishes_bind_ok.mp h
  obtain ⟨e, rfl, -⟩ := finishes_wrapped.mp hs
  exact ⟨_, List.mem_append_right _ (List.mem_append_right _ (List.mem_append_left _
    (List.mem_singleton_self _))), _, .seed plan.cpName _ nc, Connection.exchange_fst⟩

end Probe

section Task

variable {conn : Connection} {task : VmTask} {c : Cause} {u v w : Trace Reply}
  {o : Except Failure Unit}

def VmTask.isDryRun : VmTask → Bool
  | .deployCp plan _ _ _ _ _ => plan.dryRun
  | _ => false

/-- Every live task is the same three steps: what comes before the probe, the probe, and what
comes of it. -/
theorem process_eq (conn : Connection) (hd : task.isDryRun = false) : ∃ onError,
    ∃ k : String → Option DomainInfo → Remote Failure Unit,
    task.process conn = (task.prepare conn >>= fun seed =>
      existenceProbe conn task.vm onError >>= k seed) ∧
    ∀ seed, k seed none = task.onAbsent conn seed := by
  cases task with
  | destroy plan name =>
    refine ⟨DestroyCluster.probeFailed name,
      fun _ info => DestroyCluster.removeVm conn plan name info.isSome >>= fun _ => pure (),
      ?_, fun _ => rfl⟩
    rw [VmTask.process, VmTask.prepare, DestroyCluster.destroyOne, bind_assoc, pure_bind]
    rfl
  | spawnWorker plan pid cpIp privkeyPath injector i =>
    refine ⟨SpawnWorkers.probeFailed (plan.workerName i), fun _ info => info.elim
      (SpawnWorkers.createWorker conn plan pid cpIp privkeyPath injector (plan.workerName i))
      fun _ => ignore (conn.startDomain (plan.workerName i)), ?_, fun _ => rfl⟩
    rw [VmTask.process, VmTask.prepare, pure_bind]
    exact bind_congr fun info => by cases info <;> rfl
  | deployCp plan pid pubkeyContents cpTemplate macs net2 =>
    refine ⟨DeployCluster.cpProbeFailed, fun seed info => (info.elim
      (DeployCluster.installCp conn plan cpTemplate seed macs net2) fun _ =>
        bail ("CP VM '" ++ plan.cpName ++ "' is already defined — refusing to overwrite")) >>=
      fun _ => pure (), ?_, fun _ => rfl⟩
    have hd' : plan.dryRun = false := hd
    simp only [VmTask.process, VmTask.prepare, DeployCluster.deployCp,
      DeployCluster.planCpVirtInstall, hd', if_neg Bool.false_ne_true, bind_assoc]
    exact bind_congr fun seed => bind_congr fun info => by cases info <;> rfl
  | deployWorker plan pid workerTemplate joinCmd pubkeyContents macs net2s i w =>
    refine ⟨DeployCluster.workerProbeFailed w, fun _ info => info.elim
      (DeployCluster.createWorker conn plan pid workerTemplate joinCmd pubkeyContents macs net2s i w)
      fun _ => bail ("worker VM '" ++ w ++ "' already defined — refusing to overwrite"),
      ?_, fun _ => rfl⟩
    rw [VmTask.process, VmTask.prepare, pure_bind]
    exact bind_congr fun info => by cases info <;> rfl

theorem puts_prepare :
    Puts (fun q => q ≠ conn.query (dominfoCommand task.vm)) (task.prepare conn).run := by
  cases task with
  | destroy plan name => exact puts_done _ _
  | spawnWorker plan pid cpIp privkeyPath injector i => exact puts_done _ _
  | deployCp plan pid pubkeyContents cpTemplate macs net2 => exact puts_planCpSeed
  | deployWorker plan pid workerTemplate joinCmd pubkeyContents macs net2s i w =>
    exact puts_done _ _

theorem process_dryRun (hd : task.isDryRun = true) (h : Finishes (task.process conn) w o) :
    w = [] := by
  cases task with
  | destroy plan name => cases hd
  | spawnWorker plan pid cpIp privkeyPath injector i => cases hd
  | deployWorker plan pid workerTemplate joinCmd pubkeyContents macs net2s i w => cases hd
  | deployCp plan pid pubkeyContents cpTemplate macs net2 =>
    have hd' : plan.dryRun = true := hd
    simp only [VmTask.process, DeployCluster.deployCp, DeployCluster.planCpSeed,
      DeployCluster.planCpVirtInstall, hd', if_true, pure_bind] at h
    exact (finishes_pure.mp h).1

theorem finishes_probe_bind {name : String} {onError : Error → Failure}
    {k : Option DomainInfo → Remote Failure Unit}
    (h : Finishes (existenceProbe conn name onError >>= k) w o) :
    ∃ e v, w = conn.exchange (dominfoCommand name) e :: v ∧
      (∀ err, probeResult onError (dominfoResult conn name e) = .error err → v = [] ∧ o = .error err) ∧
      ∀ r, probeResult onError (dominfoResult conn name e) = .ok r → Finishes (k r) v o := by
  obtain ⟨err, rfl, he⟩ | ⟨r, t₁, t₂, rfl, h₁, h₂⟩ := finishes_bind.mp h
  · obtain ⟨e, rfl, hr⟩ := finishes_existenceProbe.mp he
    refine ⟨e, [], rfl, ?_, ?_⟩ <;> rw [← hr]
    · rintro err' herr
      cases herr
      exact ⟨rfl, rfl⟩
    · rintro r hr'
      cases hr'
  · obtain ⟨e, rfl, hr⟩ := finishes_existenceProbe.mp h₁
    refine ⟨e, t₂, rfl, ?_, ?_⟩ <;> rw [← hr]
    · rintro err herr
      cases herr
    · rintro r' hr'
      rwa [← Except.ok.inj hr']

/-- A run in which the VM was probed for, cut at the probe. -/
theorem process_probed (h : Finishes (task.process conn) w o)
    (hw : w = u ++ conn.exchange (dominfoCommand task.vm) c.toEnd :: v)
    (hu : ∀ x ∈ u, x.1 ≠ conn.query (dominfoCommand task.vm)) :
    ∃ seed onError, Finishes (task.prepare conn) u (.ok seed) ∧
      (∀ err, probeResult onError (dominfoResult conn task.vm c.toEnd) = .error err →
        v = [] ∧ o = .error err) ∧
      (probeResult onError (dominfoResult conn task.vm c.toEnd) = .ok none →
        Finishes (task.onAbsent conn seed) v o) := by
  cases hd : task.isDryRun with
  | true => simp [process_dryRun hd h] at hw
  | false =>
    obtain ⟨onError, k, hp, hk⟩ := process_eq conn hd
    rw [hp] at h
    have hpre {t r} (ht : Finishes (task.prepare conn) t r) : ∀ x ∈ t,
        x.1 ≠ conn.query (dominfoCommand task.vm) := puts_prepare t r ht
    have hq (e) : (conn.exchange (dominfoCommand task.vm) e).1 =
        conn.query (dominfoCommand task.vm) := Connection.exchange_fst
    obtain ⟨err, rfl, he⟩ | ⟨seed, t₁, t₂, rfl, h₁, h₂⟩ := finishes_bind.mp h
    · subst hw
      exact absurd (hq c.toEnd) (hpre he _ (List.mem_append_right _ (List.mem_cons_self ..)))
    · obtain ⟨e, v', rfl, herr, hok⟩ := finishes_probe_bind h₂
      have hcut := Cuts.first_unique (p := fun x => x.1 = conn.query (dominfoCommand task.vm))
        (hpre h₁) (hq e) hu (hq c.toEnd) hw
      obtain ⟨rfl, he, rfl⟩ := hcut
      obtain rfl := Connection.exchange_injective he
      refine ⟨seed, onError, h₁, herr, fun hn => ?_⟩
      rw [← hk]
      exact hok none hn

/-- The probe's end decides whether the run takes the VM for absent. -/
theorem takesForAbsent_iff (h : Finishes (task.process conn) w o)
    (hw : w = u ++ conn.exchange (dominfoCommand task.vm) c.toEnd :: v)
    (hu : ∀ x ∈ u, x.1 ≠ conn.query (dominfoCommand task.vm)) :
    task.TakesForAbsent conn w o ↔ c.IsAbsence ∨ c.EndsBadly := by
  rw [← reportsAbsent_cause conn task.vm]
  constructor
  · rintro ⟨seed, u', e, v', hw', hpre, he, -⟩
    have hcut := Cuts.first_unique (p := fun x => x.1 = conn.query (dominfoCommand task.vm))
      (puts_prepare u' _ hpre) Connection.exchange_fst hu Connection.exchange_fst (hw'.symm.trans hw)
    rw [← Connection.exchange_injective hcut.2.1]
    exact he
  · intro hr
    obtain ⟨seed, onError, hpre, -, hok⟩ := process_probed h hw hu
    obtain ⟨e, he, hn⟩ := finishes_existenceProbe.mp (hr onError)
    rw [← Connection.exchange_injective (List.cons.inj he).1] at hn
    exact ⟨seed, u, c.toEnd, v, hw, hpre, hr, hok hn.symm⟩

theorem Cause.fails_of_endsBadly (name : String) (hb : c.EndsBadly) :
    c.Fails name ∧ ¬ c.IsAbsence := by
  cases c with
  | answered stdout stderr => exact hb.elim
  | noSuchDomain code hc stdout stderr => exact hb.elim
  | otherFailure code hc stdout stderr => exact ⟨trivial, id⟩
  | connectionFailed stdout stderr => exact ⟨trivial, id⟩
  | killed signal stdout stderr => exact ⟨trivial, id⟩
  | notRun e he => exact hb.elim

theorem probe_faithful_iff (conn : Connection) (task : VmTask) (c : Cause) {u v w : Trace Reply}
    {o : Except Failure Unit} (h : Finishes (task.process conn) w o)
    (hw : w = u ++ conn.exchange (dominfoCommand task.vm) c.toEnd :: v)
    (hu : ∀ x ∈ u, x.1 ≠ conn.query (dominfoCommand task.vm)) :
    Faithful conn task c w o ↔ task.Distinguishes c := by
  obtain ⟨seed, onError, hpre, herr, -⟩ := process_probed h hw hu
  have habsent := takesForAbsent_iff h hw hu
  constructor
  · intro hf
    have hb : ¬ c.EndsBadly := fun hb =>
      (Cause.fails_of_endsBadly "" hb).2 (hf.absent (habsent.mpr (.inr hb)))
    cases task with
    | destroy plan name => exact hb
    | spawnWorker plan pid cpIp privkeyPath injector i => exact hb
    | deployWorker plan pid workerTemplate joinCmd pubkeyContents macs net2s i w => exact hb
    | deployCp plan pid pubkeyContents cpTemplate macs net2 =>
      intro hfail
      have hd : plan.dryRun = false := by
        cases hd : plan.dryRun with
        | false => rfl
        | true =>
          have hempty : w = [] := @process_dryRun conn (.deployCp plan _ _ _ _ _) _ _ hd h
          simp [hempty] at hw
      obtain ⟨x, hx, command, ht, hq⟩ := planCpSeed_ok hd hpre
      exact hf.untouched hfail x (hw ▸ List.mem_append_left _ hx) command ht hq
  · intro hd
    have hb : ¬ c.EndsBadly := by
      cases task with
      | deployCp plan pid pubkeyContents cpTemplate macs net2 =>
        exact fun hb => hd (Cause.fails_of_endsBadly _ hb).1
      | _ => exact hd
    refine ⟨fun ht => (habsent.mp ht).resolve_right hb, fun hfail => ?_, fun hfail => ?_⟩
    · obtain ⟨err, he⟩ := probe_error_of_fails conn hfail hb
      exact ⟨_, (herr _ (he onError)).2⟩
    · obtain ⟨err, he⟩ := probe_error_of_fails conn hfail hb
      obtain ⟨rfl, -⟩ := herr _ (he onError)
      have hu' : u = [] := by
        cases task with
        | deployCp plan pid pubkeyContents cpTemplate macs net2 => exact absurd hfail hd
        | _ => exact (finishes_pure.mp hpre).1
      intro x hx command ht hq
      rw [hw, hu', List.nil_append, List.mem_singleton] at hx
      rw [hx, Connection.exchange_fst] at hq
      exact touches_ne_dominfo ht (Connection.query_injective hq).symm

def samplePlan : DestroyCluster.Plan := ⟨"cp1", [], "/pool", some "geary", false⟩

def sampleTask : VmTask := .destroy samplePlan "cp1"

def interrupted : Cause := .notRun (.waitFailed "interrupted") nofun

theorem sampleTask_interrupted : Finishes (sampleTask.process (.remote "geary"))
    [Connection.exchange (.remote "geary") (dominfoCommand "cp1") interrupted.toEnd]
    (.error (DestroyCluster.probeFailed "cp1"
      (.ssh (.transport "geary" (Ssh.Error.wait "geary" "interrupted").toText)))) :=
  .ask (.done _)

theorem probe_faithful_iff_interrupted : Faithful (.remote "geary") sampleTask interrupted
    [Connection.exchange (.remote "geary") (dominfoCommand "cp1") interrupted.toEnd]
    (.error (DestroyCluster.probeFailed "cp1"
      (.ssh (.transport "geary" (Ssh.Error.wait "geary" "interrupted").toText)))) :=
  (probe_faithful_iff (.remote "geary") sampleTask interrupted (u := []) (v := [])
    sampleTask_interrupted rfl fun _ hx => absurd hx List.not_mem_nil).mpr id

def refused : Cause := .connectionFailed "" "Connection timed out"

/-- `ssh` cannot connect once: the VM, which may well run, counts as torn down and its disk is
removed. -/
theorem sampleTask_misread : ∃ v,
    Finishes (sampleTask.process (.remote "geary"))
      (Connection.exchange (.remote "geary") (dominfoCommand "cp1") refused.toEnd :: v) (.ok ()) ∧
    (∃ x ∈ v, x.1 = Connection.query (.remote "geary") (rmCommand (diskPath "/pool" "cp1"))) ∧
    ¬ Faithful (.remote "geary") sampleTask refused
      (Connection.exchange (.remote "geary") (dominfoCommand "cp1") refused.toEnd :: v) (.ok ()) := by
  refine ⟨
    [⟨.ssh (.new "geary") ("test -e " ++ shellQuote (diskPath "/pool" "cp1")) none, printed ""⟩,
      ⟨.ssh (.new "geary") (rmCommand (diskPath "/pool" "cp1")) none, printed ""⟩,
      ⟨.ssh (.new "geary") ("test -e " ++ shellQuote (seedPath "/pool" "cp1")) none, failed 1⟩,
      ⟨.ssh (.new "geary") ("test -e " ++ shellQuote ("/pool" ++ "/" ++ "cp1" ++ "-cloud-init.iso"))
        none, failed 1⟩], .ask (.ask (.ask (.ask (.ask (.done _))))), ?_, ?_⟩
  · exact ⟨_, List.mem_cons_of_mem _ (List.mem_cons_self ..), rfl⟩
  · intro hf
    obtain ⟨e, he⟩ := hf.failed trivial
    cases he

end Task

end Hbird.Virt
