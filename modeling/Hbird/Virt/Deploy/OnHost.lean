import Hbird.Interaction.Handle
import Hbird.Virt.Deploy.Run

namespace Hbird.Virt.Deploy

open Hbird.Interaction Hbird.Ssh Hbird.Text

/-- The commands go over the plan's connection; the rest is up to the process. -/
def perform (plan : Plan)
    (process : (q : Query) → Program Ssh.Query Ssh.Reply (Reply q)) :
    (q : Query) → Program Ssh.Query Ssh.Reply (Reply q)
  | .run command => (plan.conn.run (command.toText plan)).run
  | q => process q

variable {plan : Plan} {process : (q : Query) → Program Ssh.Query Ssh.Reply (Reply q)}
  {ε α β : Type}

/-- A step, down to the commands it starts. -/
def onHost (plan : Plan) (process : (q : Query) → Program Ssh.Query Ssh.Reply (Reply q))
    (x : Steps ε α) : Remote ε α := Exec.handle (perform plan process) x

section Rules

theorem onHost_bind (x : Steps ε α) (f : α → Steps ε β) :
    onHost plan process (x >>= f) = onHost plan process x >>= fun a => onHost plan process (f a) :=
  Exec.handle_bind x f

theorem onHost_run (c : Command) : onHost plan process (run c) = plan.conn.run (c.toText plan) :=
  handle_perform (Query.run c)

theorem onHost_wrapped (text : String) (c : Command) :
    onHost plan process (wrapped text (run c)) =
      Virt.wrapped text (plan.conn.run (c.toText plan)) := by
  rw [onHost, wrapped, Exec.handle_context]
  exact congrArg (Virt.wrapped text) (onHost_run c)

theorem onHost_outcome (c : Command) :
    onHost plan process (Exec.outcome (run c) : Steps ε (Except Error String)) =
      Exec.outcome (plan.conn.run (c.toText plan)) := by
  rw [onHost, Exec.handle_outcome]
  exact congrArg Exec.outcome (onHost_run c)

/-- What a command prints makes no difference to one that drops it. -/
theorem wrapped_verb (conn : Connection) (text command : String) :
    Virt.wrapped text (conn.verb command) =
      Virt.wrapped text (conn.run command) >>= fun _ => pure () := by
  refine ExceptT.ext ?_
  have hleft : (Virt.wrapped text (conn.verb command)).run =
      Except.mapError (fun e => .msg (text ++ e.toText)) <$>
        ((conn.run command).run >>= ExceptT.bindCont fun _ => pure ()) := rfl
  have hright : (Virt.wrapped text (conn.run command) >>= fun _ => pure ()).run =
      (Except.mapError (fun e => .msg (text ++ e.toText)) <$> (conn.run command).run) >>=
        ExceptT.bindCont fun _ => pure () := rfl
  rw [hleft, hright, map_bind, bind_map_left]
  refine congrArg ((conn.run command).run >>= ·) (funext fun r => ?_)
  cases r with
  | ok a => rfl
  | error e => rfl

theorem ignore_verb (conn : Connection) (command : String) :
    Virt.ignore (conn.verb command) = Virt.ignore (conn.run command) := by
  refine ExceptT.ext ?_
  have hverb : (conn.verb command).run =
      (conn.run command).run >>= ExceptT.bindCont fun _ => pure () := rfl
  have hignore : ∀ {α : Type} (x : Remote Error α),
      (Virt.ignore x).run = x.run >>= fun _ => pure (.ok ()) := by
    intro α x
    have hx : (Virt.ignore x).run = (Except.ok <$> x.run) >>= ExceptT.bindCont fun _ => pure () := rfl
    rw [hx, bind_map_left]
    rfl
  rw [hignore, hignore, hverb, bind_assoc]
  refine congrArg ((conn.run command).run >>= ·) (funext fun r => ?_)
  cases r with
  | ok a => rfl
  | error e => rfl

theorem onHost_ignore (c : Command) :
    onHost plan process (ignore (run c)) = Virt.ignore (plan.conn.run (c.toText plan)) := by
  rw [ignore, onHost_bind, onHost_outcome]
  rfl

/-- What is read from the reply of a command can be read behind it. -/
theorem outcome_read (x : Remote Error α) (read : α → Except Error β)
    (f : Except Error β → Remote Failure ε) :
    (Exec.outcome (x >>= fun a => (read a : Except _ _)) >>= f) =
      Exec.outcome x >>= fun r => f (r.bind read) := by
  refine ExceptT.ext ?_
  have hleft : (Exec.outcome (x >>= fun a => (read a : Except _ _)) >>= f).run =
      (Except.ok <$> (x.run >>= ExceptT.bindCont fun a => (read a : Except _ _))) >>=
        ExceptT.bindCont f := rfl
  have hright : (Exec.outcome x >>= fun r => f (r.bind read)).run =
      (Except.ok <$> x.run) >>= ExceptT.bindCont fun r => f (r.bind read) := rfl
  rw [hleft, hright, bind_map_left, bind_map_left, bind_assoc]
  refine congrArg (x.run >>= ·) (funext fun r => ?_)
  cases r with
  | ok a => rfl
  | error e => rfl

end Rules

section Vms

variable {pid : UInt32} {pubkeyContents template cpSeed : String}
  {macs : DeployCluster.PrimaryMacs} {net2 : Option Net2} {inputs : WorkerInputs}

theorem onHost_writeNet2ConfigTmp (net2 : Option Net2) (tag : String) :
    onHost plan process (writeNet2ConfigTmp net2 tag) =
      DeployCluster.writeNet2ConfigTmp plan.conn net2 tag := by
  cases net2 with
  | none => rfl
  | some n =>
    simp only [writeNet2ConfigTmp, onHost_bind, onHost_wrapped]
    rfl

theorem onHost_existenceProbe (name : String) (onError : Error → Failure) :
    onHost plan process (existenceProbe name onError) =
      Virt.existenceProbe plan.conn name onError := by
  rw [existenceProbe, onHost_bind, onHost_outcome, Virt.existenceProbe, Connection.dominfo, outcome_read]
  refine congrArg (Exec.outcome (plan.conn.run (dominfoCommand name)) >>= ·) (funext fun r => ?_)
  generalize r.bind (fun stdout => parseDominfo stdout (dominfoCommand name)) = found
  cases found with
  | ok info => rfl
  | error e => cases e <;> rfl

theorem unwrapOrDefault_eq (x : Remote Error String) :
    unwrapOrDefault x = Exec.outcome x >>= fun r => pure (r.toOption.getD "") := by
  refine congrArg (Exec.outcome x >>= ·) (funext fun r => ?_)
  cases r with
  | ok out => rfl
  | error e => rfl

theorem onHost_ensureDhcpReservation (net mac ip name : String) :
    onHost plan process (ensureDhcpReservation net mac ip name) =
      DeployCluster.ensureDhcpReservation plan.conn net mac ip name := by
  rw [ensureDhcpReservation, onHost_bind, onHost_outcome, DeployCluster.ensureDhcpReservation,
    unwrapOrDefault_eq, bind_assoc]
  refine congrArg (Exec.outcome (plan.conn.netDumpxml net) >>= ·) (funext fun r => ?_)
  rw [pure_bind]
  generalize DeployCluster.classifyDhcpReservation (r.toOption.getD "") mac ip = found
  cases found with
  | alreadyPresent => rfl
  | ipTakenByOtherMac => rfl
  | absent => exact (onHost_ignore _).trans (ignore_verb plan.conn _).symm

theorem onHost_reserve (mac name : String) (ip : Option String) :
    onHost plan process (reserve mac name ip) = match ip with
      | some ip => DeployCluster.ensureDhcpReservation plan.conn "default" mac ip name
      | none => pure () := by
  cases ip with
  | none => rfl
  | some ip => exact onHost_ensureDhcpReservation "default" mac ip name

theorem onHost_planCpSeed : onHost plan process (planCpSeed plan pid pubkeyContents net2) =
    DeployCluster.planCpSeed plan.conn plan.toPlan pid pubkeyContents net2 := by
  rw [planCpSeed, DeployCluster.planCpSeed]
  split_ifs
  · rfl
  · simp only [onHost_bind, onHost_wrapped, onHost_writeNet2ConfigTmp]
    rfl

theorem onHost_installCp : onHost plan process (installCp plan template cpSeed macs net2) =
    DeployCluster.installCp plan.conn plan.toPlan template cpSeed macs net2 := by
  simp only [installCp, DeployCluster.installCp, onHost_bind, onHost_wrapped, onHost_reserve,
    Connection.remoteCpReflink, Connection.virtInstallVm, wrapped_verb, bind_assoc, pure_bind]
  rfl

theorem onHost_planCpVirtInstall :
    onHost plan process (planCpVirtInstall plan template cpSeed macs net2) =
      DeployCluster.planCpVirtInstall plan.conn plan.toPlan template cpSeed macs net2 := by
  rw [planCpVirtInstall, DeployCluster.planCpVirtInstall]
  split_ifs
  · rfl
  · rw [onHost_bind, onHost_existenceProbe]
    refine congrArg (Virt.existenceProbe plan.conn plan.cpName _ >>= ·) (funext fun found => ?_)
    cases found with
    | some info => rfl
    | none => exact onHost_installCp

theorem onHost_createWorker (i : Nat) (w : String) :
    onHost plan process (createWorker plan pid inputs i w) =
      DeployCluster.createWorker plan.conn plan.toPlan pid inputs.template inputs.joinCmd
        inputs.pubkeyContents inputs.macs inputs.net2s i w := by
  simp only [createWorker, DeployCluster.createWorker, onHost_bind, onHost_wrapped, onHost_reserve,
    onHost_writeNet2ConfigTmp, Connection.remoteCpReflink, Connection.virtInstallVm, wrapped_verb,
    bind_assoc, pure_bind]
  rfl

theorem onHost_deployCp (p : Prepared) : onHost plan process (deployCp plan pid p) =
    DeployCluster.deployCp plan.conn plan.toPlan pid p.pubkeyContents p.cpTemplate p.macs
      (p.extraNet.map (·.1)) >>= fun _ => pure () := by
  rw [deployCp, onHost_bind, onHost_planCpSeed, DeployCluster.deployCp, bind_assoc]
  refine congrArg (DeployCluster.planCpSeed plan.conn plan.toPlan pid p.pubkeyContents _ >>= ·)
    (funext fun cpSeed => ?_)
  rw [onHost_bind, onHost_planCpVirtInstall]
  rfl

/-- The steps of a deployment that make the VMs are `plan_cp_seed` with `plan_cp_virt_install`, and the
body of `plan_worker_spawn`, over the plan's connection. -/
theorem onHost_vms (p : Prepared) :
    onHost plan process (deployCp plan pid p) =
        DeployCluster.deployCp plan.conn plan.toPlan pid p.pubkeyContents p.cpTemplate p.macs
          (p.extraNet.map (·.1)) >>= (fun _ => pure ()) ∧
      ∀ i w, onHost plan process (deployWorker plan pid inputs i w) =
        DeployCluster.deployWorker plan.conn plan.toPlan pid inputs.template inputs.joinCmd
          inputs.pubkeyContents inputs.macs inputs.net2s i w := by
  refine ⟨onHost_deployCp p, fun i w => ?_⟩
  rw [deployWorker, onHost_bind, onHost_existenceProbe, DeployCluster.deployWorker]
  refine congrArg (Virt.existenceProbe plan.conn w _ >>= ·) (funext fun found => ?_)
  cases found with
  | some info => rfl
  | none => exact onHost_createWorker i w

end Vms

end Hbird.Virt.Deploy
