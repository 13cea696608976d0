import Hbird.UpdateCluster.Daemonsets
import Hbird.UpdateCluster.Upgrade

namespace Hbird.UpdateCluster

open Hbird.Interaction Hbird.Ssh Hbird.Text

variable {plan : Plan} {command : String}

/-- What the update of one node is made of: the helpers it calls, and the lines it
prints past the log. -/
inductive Stage : Type
  | timerStop (ip : String)
  | timerStart (ip : String)
  | cpKubectl (command : String)
  | captureNodeBootid (node : String)
  | bootcUpgradeApply (ip name : String)
  | waitSshDrop (ip : String)
  | waitSshBack (ip : String)
  | waitApiserverBack
  | waitNodeBootidChanged (node preBootid : String)
  | waitNodeReady (node : String)
  | waitNodeDaemonsetsReady (node : String)
  | eprintln (line : String)
  deriving DecidableEq, Repr

@[reducible] def Stage.Result : Stage → Type
  | .timerStop _ => Except Failure Unit
  | .timerStart _ => Except Failure Unit
  | .cpKubectl _ => Except Failure String
  | .captureNodeBootid _ => Except Failure String
  | .bootcUpgradeApply _ _ => Except Failure BootcUpgradeOutcome
  | .waitSshDrop _ => Except Failure Unit
  | .waitSshBack _ => Except Failure Unit
  | .waitApiserverBack => Except Failure Unit
  | .waitNodeBootidChanged _ _ => Except Failure Unit
  | .waitNodeReady _ => Except Failure Unit
  | .waitNodeDaemonsetsReady _ => Except Failure Unit
  | .eprintln _ => Unit

/-- The helpers, as they run. -/
def Stage.perform (plan : Plan) : (q : Stage) → Program Query Reply q.Result
  | .timerStop ip => (UpdateCluster.timerStop plan ip).run
  | .timerStart ip => (UpdateCluster.timerStart plan ip).run
  | .cpKubectl command => (UpdateCluster.cpKubectl plan command).run
  | .captureNodeBootid node => (UpdateCluster.captureNodeBootid plan node).run
  | .bootcUpgradeApply ip name => (UpdateCluster.bootcUpgradeApply plan ip name).run
  | .waitSshDrop ip => (UpdateCluster.waitSshDrop plan ip).run
  | .waitSshBack ip => (UpdateCluster.waitSshBack plan ip).run
  | .waitApiserverBack => (UpdateCluster.waitApiserverBack plan).run
  | .waitNodeBootidChanged node pre => (UpdateCluster.waitNodeBootidChanged plan node pre).run
  | .waitNodeReady node => (UpdateCluster.waitNodeReady plan node).run
  | .waitNodeDaemonsetsReady node => (UpdateCluster.waitNodeDaemonsetsReady plan node).run
  | .eprintln line => Program.perform (Query.eprintln line)

/-- The query runs `kubectl VERB ..` on the control plane or on any other host. -/
def RunsKubectl (verb : String) (q : Query) : Prop :=
  ∃ options rest stdin, q = .ssh options (remoteKubectl (verb ++ rest)) stdin

/-- The command is not a `kubectl` one at all. -/
def Foreign (command : String) : Prop := ∀ rest, command ≠ remoteKubectl rest

theorem foreign_of_startsWith (h : startsWith command adminKubectl = false) : Foreign command := by
  intro rest hc
  have hs := startsWith_append adminKubectl rest
  rw [hc, remoteKubectl, hs] at h
  cases h

theorem runsKubectl_kubectlQuery {verb : String} :
    RunsKubectl verb (kubectlQuery plan command) ↔ ∃ rest, command = verb ++ rest := by
  constructor
  · rintro ⟨options, rest, stdin, hq⟩
    obtain ⟨-, hc, -⟩ := Query.ssh.inj hq
    exact ⟨rest, remoteKubectl_injective hc⟩
  · rintro ⟨rest, rfl⟩
    exact ⟨_, rest, none, rfl⟩

theorem puts_cpKubectl (plan : Plan) (command : String) :
    Puts (· = kubectlQuery plan command) (cpKubectl plan command).run := by
  intro t o h x hx
  cases hd : plan.dryRun with
  | true =>
    obtain ⟨rfl, -⟩ := (finishes_cpKubectl_dryRun hd).mp h
    cases hx
  | false =>
    cases hr : refusal command with
    | none =>
      obtain ⟨e, rfl, -⟩ := (finishes_cpKubectl hd hr).mp h
      rw [List.mem_singleton.mp hx]
    | some text =>
      obtain ⟨rfl, -⟩ := (finishes_cpKubectl_refused hd hr).mp h
      cases hx

theorem puts_sshExec_run (command : String) :
    Puts (· = .run command) (SshExec.run command).run := by
  intro t o h x hx
  rw [finishes_sshExec_run.mp h] at hx
  rw [List.mem_singleton.mp hx]

theorem puts_live {φ : Query → Prop} {ψ : ExecQuery → Prop} {ε α : Type} {o : SshOptions}
    (hi : o.identityFile = none) {x : Executor ε α} (hx : Puts ψ x.run)
    (hψ : ∀ q, ψ q → φ (q.onClient o)) : Puts φ (live o x).run := by
  intro w r h y hy
  obtain ⟨t, ht, hc⟩ := finishes_live.mp h
  have hm : y.1 ∈ w.map Sigma.fst := List.mem_map_of_mem hy
  rw [carries_serve hi hc] at hm
  obtain ⟨z, hz, hyz⟩ := List.mem_map.mp hm
  rw [← hyz]
  exact hψ z.1 (hx t r ht z hz)

set_option maxRecDepth 8000 in
theorem commands_foreign :
    Foreign timerStopCommand ∧ Foreign timerStartProbe ∧ Foreign digestCommand ∧
      Foreign applyProbeCommand ∧ Foreign applyCommand ∧ Foreign upgradeCommand ∧
      Foreign rebootCommand ∧ Foreign "true" :=
  ⟨foreign_of_startsWith (startsWith_eq_false 's' 'k' _ _ rfl rfl rfl),
    foreign_of_startsWith (startsWith_eq_false 'b' 'k' _ _ rfl rfl rfl),
    foreign_of_startsWith (startsWith_eq_false 'b' 'k' _ _ rfl rfl rfl),
    foreign_of_startsWith (startsWith_eq_false 'b' 'k' _ _ rfl rfl rfl),
    foreign_of_startsWith (startsWith_eq_false 'b' 'k' _ _ rfl rfl rfl),
    foreign_of_startsWith (startsWith_eq_false 'b' 'k' _ _ rfl rfl rfl),
    foreign_of_startsWith (startsWith_eq_false 's' 'k' _ _ rfl rfl rfl),
    foreign_of_startsWith (startsWith_eq_false 't' 'k' _ _ rfl rfl rfl)⟩

def upgradeCommands : List String :=
  [digestCommand, applyProbeCommand, applyCommand, upgradeCommand, rebootCommand]

theorem upgradeCommands_foreign : ∀ command ∈ upgradeCommands, Foreign command := by
  obtain ⟨-, -, hd, hp, ha, hu, hr, -⟩ := commands_foreign
  simp [upgradeCommands, hd, hp, ha, hu, hr]

/-- A use of the executor that runs one of the commands. -/
def RunsOneOf (commands : List String) (q : ExecQuery) : Prop :=
  ∃ command ∈ commands, q = .run command

section Commands

variable {commands : List String}

theorem runsOneOf_run (h : command ∈ commands) :
    Puts (RunsOneOf commands) (SshExec.run command).run := by
  intro t o hr x hx
  rw [puts_sshExec_run command t o hr x hx]
  exact ⟨command, h, rfl⟩

theorem runsOneOf_live {ε α : Type} {o : SshOptions} (hi : o.identityFile = none)
    {x : Executor ε α} (hx : Puts (RunsOneOf commands) x.run) :
    Puts (fun q => ∃ command ∈ commands, q = .ssh o command none) (live o x).run := by
  refine puts_live hi hx ?_
  rintro q ⟨command, hc, rfl⟩
  exact ⟨command, hc, rfl⟩

theorem runs_timerStop : Puts (RunsOneOf [timerStopCommand]) timerStopWithExec.run :=
  puts_exec_bind (puts_outcome (runsOneOf_run (by simp))) fun _ => puts_done _ _

theorem runs_timerStart : Puts (RunsOneOf [timerStartProbe]) timerStartWithExec.run :=
  puts_exec_bind (puts_outcome (runsOneOf_run (by simp))) fun _ => puts_done _ _

theorem runs_digest (ip : String) :
    Puts (RunsOneOf upgradeCommands) (bootcBootedDigestWithExec ip).run :=
  puts_exec_bind (puts_context (runsOneOf_run (by simp [upgradeCommands]))) fun _ => puts_done _ _

theorem runs_hasApply (ip : String) :
    Puts (RunsOneOf upgradeCommands) (bootcHasApplyWithExec ip).run := by
  refine puts_exec_bind (puts_outcome (runsOneOf_run (by simp [upgradeCommands]))) fun r => ?_
  cases r with
  | ok out => exact puts_done _ _
  | error e =>
    cases e with
    | nonZeroExit host status stdout stderr =>
      dsimp only
      split <;> exact puts_done _ _
    | _ => exact puts_done _ _

theorem runs_requestUpgrade (hasApply : Bool) :
    Puts (RunsOneOf upgradeCommands) (requestUpgrade hasApply).run := by
  unfold requestUpgrade
  split
  · exact runsOneOf_run (by simp [upgradeCommands])
  · exact puts_exec_bind (runsOneOf_run (by simp [upgradeCommands])) fun _ =>
      runsOneOf_run (by simp [upgradeCommands])

theorem runs_classifyUpgrade (ip name pre : String) (r : Except Error RunOutput) :
    Puts (RunsOneOf upgradeCommands) (classifyUpgrade ip name pre r).run := by
  cases r with
  | ok out =>
    refine puts_exec_bind (runs_digest ip) fun post => ?_
    split <;> exact puts_done _ _
  | error e =>
    cases e with
    | nonZeroExit host status stdout stderr =>
      dsimp only [classifyUpgrade]
      split <;> exact puts_done _ _
    | _ => exact puts_done _ _

theorem runs_bootcUpgradeApply (ip name : String) (dryRun : Bool) :
    Puts (RunsOneOf upgradeCommands) (bootcUpgradeApplyWithExec ip name dryRun).run := by
  unfold bootcUpgradeApplyWithExec
  split
  · exact puts_done _ _
  · exact puts_exec_bind (runs_digest ip) fun pre =>
      puts_exec_bind (runs_hasApply ip) fun hasApply =>
        puts_exec_bind (puts_outcome (runs_requestUpgrade hasApply)) fun r =>
          runs_classifyUpgrade ip name pre r

theorem runs_waitSshBack (ip : String) (timeout : UInt32) (dryRun : Bool) :
    Puts (RunsOneOf ["true"]) (waitSshBackWith ip timeout dryRun).run := by
  unfold waitSshBackWith
  split
  · exact puts_done _ _
  · exact puts_waitFor (runsOneOf_run (by simp))

theorem runs_waitSshDrop (max : UInt32) (dryRun : Bool) :
    Puts (RunsOneOf ["true"]) (waitSshDropWith max dryRun).run := by
  unfold waitSshDropWith
  split
  · exact puts_done _ _
  · exact puts_exec_bind (puts_outcome (puts_poll (puts_attempt (runsOneOf_run (by simp))) _)) fun _ =>
      puts_done _ _

end Commands

theorem begins_bootidCommand (node : String) : Begins 'g' (bootidCommand node) :=
  begins_append (begins_append ⟨_, String.toList_ofList⟩ _) _

theorem begins_podsOn (node : String) : Begins 'g' (podsOn node) :=
  begins_append ⟨_, String.toList_ofList⟩ _

theorem begins_getNodeCommand (node : String) : Begins 'g' (getNodeCommand node) :=
  begins_append (begins_append ⟨_, String.toList_ofList⟩ _) _

theorem begins_readyz : Begins 'g' "get --raw=/readyz" := ⟨_, String.toList_ofList⟩

/-- The query reads from the control plane: its `kubectl` command begins as `get` does. -/
def Gets (plan : Plan) (q : Query) : Prop :=
  ∃ command, Begins 'g' command ∧ q = kubectlQuery plan command

theorem gets_cpKubectl (hb : Begins 'g' command) : Puts (Gets plan) (cpKubectl plan command).run := by
  intro t o h x hx
  exact ⟨command, hb, puts_cpKubectl plan command t o h x hx⟩

theorem gets_captureAttempts (node : String) (n : Nat) :
    Puts (Gets plan) (captureAttempts plan node n).run := by
  induction n with
  | zero => exact puts_done _ _
  | succ n ih =>
    refine puts_exec_bind (puts_outcome (gets_cpKubectl (begins_bootidCommand node))) fun r => ?_
    cases r with
    | ok val =>
      dsimp only
      split
      · exact puts_done _ _
      · exact ih
    | error e => exact ih

theorem gets_daemonsets (node : String) :
    Puts (Gets plan) (waitNodeDaemonsetsReady plan node).run := by
  have hpods : Puts (Gets plan) (cpKubectl plan (podsCommand node)).run :=
    gets_cpKubectl (begins_append (begins_podsOn node) _)
  have hready : Puts (Gets plan) (cpKubectl plan (readinessCommand node)).run :=
    gets_cpKubectl (begins_append (begins_podsOn node) _)
  unfold waitNodeDaemonsetsReady
  split
  · exact puts_done _ _
  · split
    · exact puts_done _ _
    · refine puts_exec_bind (puts_outcome (puts_poll (puts_attempt hpods) _)) fun r => ?_
      cases r with
      | error u => exact puts_done _ _
      | ok stdout =>
        exact puts_exec_bind (puts_outcome hready) fun baseline =>
          puts_context (puts_poll (puts_attempt hready) _)

/-- What a stage puts on the wire. -/
def Stage.Sends (plan : Plan) : Stage → Query → Prop
  | .timerStop ip, q => ∃ command ∈ [timerStopCommand], q = .ssh (nodeSshOpts plan ip) command none
  | .timerStart ip, q => ∃ command ∈ [timerStartProbe], q = .ssh (nodeSshOpts plan ip) command none
  | .cpKubectl command, q => q = kubectlQuery plan command
  | .bootcUpgradeApply ip _, q =>
    ∃ command ∈ upgradeCommands, q = .ssh (nodeSshOpts plan ip) command none
  | .waitSshDrop ip, q | .waitSshBack ip, q =>
    ∃ command ∈ ["true"], q = .ssh ((nodeSshOpts plan ip).withConnectTimeout 3) command none
  | .captureNodeBootid _, q | .waitApiserverBack, q | .waitNodeBootidChanged _ _, q
  | .waitNodeReady _, q | .waitNodeDaemonsetsReady _, q => Gets plan q
  | .eprintln line, q => q = .eprintln line

theorem puts_stage (plan : Plan) (q : Stage) : Puts (q.Sends plan) (q.perform plan) := by
  cases q with
  | timerStop ip =>
    dsimp only [Stage.perform, timerStop]
    split
    · exact puts_done _ _
    · split
      · exact puts_done _ _
      · exact runsOneOf_live (nodeSshOpts_identityFile plan ip) runs_timerStop
  | timerStart ip =>
    dsimp only [Stage.perform, timerStart]
    split
    · exact puts_done _ _
    · split
      · exact puts_done _ _
      · exact runsOneOf_live (nodeSshOpts_identityFile plan ip) runs_timerStart
  | cpKubectl command => exact puts_cpKubectl plan command
  | captureNodeBootid node =>
    dsimp only [Stage.perform, captureNodeBootid]
    split
    · exact puts_done _ _
    · exact gets_captureAttempts node 3
  | bootcUpgradeApply ip name =>
    exact runsOneOf_live (nodeSshOpts_identityFile plan ip) (runs_bootcUpgradeApply ip name _)
  | waitSshDrop ip =>
    exact runsOneOf_live (o := (nodeSshOpts plan ip).withConnectTimeout 3)
      (nodeSshOpts_identityFile plan ip) (runs_waitSshDrop _ _)
  | waitSshBack ip =>
    exact runsOneOf_live (o := (nodeSshOpts plan ip).withConnectTimeout 3)
      (nodeSshOpts_identityFile plan ip) (runs_waitSshBack ip _ _)
  | waitApiserverBack =>
    dsimp only [Stage.perform, waitApiserverBack]
    split
    · exact puts_done _ _
    · exact puts_waitFor (gets_cpKubectl begins_readyz)
  | waitNodeBootidChanged node pre =>
    dsimp only [Stage.perform, waitNodeBootidChanged]
    split
    · exact puts_done _ _
    · split
      · exact puts_done _ _
      · split
        · exact puts_done _ _
        · exact puts_waitFor (gets_cpKubectl (begins_bootidCommand node))
  | waitNodeReady node =>
    dsimp only [Stage.perform, waitNodeReady]
    split
    · exact puts_done _ _
    · exact puts_waitFor (gets_cpKubectl (begins_getNodeCommand node))
  | waitNodeDaemonsetsReady node => exact gets_daemonsets node
  | eprintln line =>
    intro t r h x hx
    rw [runs_perform.mp h] at hx
    rw [List.mem_singleton.mp hx]
    rfl

theorem not_runsKubectl_of_foreign {verb : String} {o : SshOptions} {stdin : Option String}
    (hf : Foreign command) : ¬ RunsKubectl verb (.ssh o command stdin) := by
  rintro ⟨options, rest, stdin', hq⟩
  exact hf _ (Query.ssh.inj hq).2.1

theorem not_runsKubectl_of_gets {verb : String} {c : Char} (hverb : Begins c verb) (hg : 'g' ≠ c)
    {q : Query} (h : Gets plan q) : ¬ RunsKubectl verb q := by
  obtain ⟨command, hb, rfl⟩ := h
  intro hv
  obtain ⟨rest, hr⟩ := runsKubectl_kubectlQuery.mp hv
  exact begins_ne hb (begins_append hverb rest) hg hr

/-- Of all the helpers, only the general shim runs a `kubectl VERB` that is not a `get`. -/
theorem quiet_stage {verb : String} {c : Char} (hverb : Begins c verb) (hg : 'g' ≠ c) {q : Stage}
    (hq : ∀ command, q ≠ .cpKubectl command) {y : Query} (hy : q.Sends plan y) :
    ¬ RunsKubectl verb y := by
  obtain ⟨hstop, hstart, -, -, -, -, -, htrue⟩ := commands_foreign
  cases q with
  | timerStop ip =>
    obtain ⟨command, hc, rfl⟩ := hy
    rw [List.mem_singleton.mp hc]
    exact not_runsKubectl_of_foreign hstop
  | timerStart ip =>
    obtain ⟨command, hc, rfl⟩ := hy
    rw [List.mem_singleton.mp hc]
    exact not_runsKubectl_of_foreign hstart
  | cpKubectl command => exact absurd rfl (hq command)
  | bootcUpgradeApply ip name =>
    obtain ⟨command, hc, rfl⟩ := hy
    exact not_runsKubectl_of_foreign (upgradeCommands_foreign command hc)
  | waitSshDrop ip =>
    obtain ⟨command, hc, rfl⟩ := hy
    rw [List.mem_singleton.mp hc]
    exact not_runsKubectl_of_foreign htrue
  | waitSshBack ip =>
    obtain ⟨command, hc, rfl⟩ := hy
    rw [List.mem_singleton.mp hc]
    exact not_runsKubectl_of_foreign htrue
  | captureNodeBootid node => exact not_runsKubectl_of_gets hverb hg hy
  | waitApiserverBack => exact not_runsKubectl_of_gets hverb hg hy
  | waitNodeBootidChanged node pre => exact not_runsKubectl_of_gets hverb hg hy
  | waitNodeReady node => exact not_runsKubectl_of_gets hverb hg hy
  | waitNodeDaemonsetsReady node => exact not_runsKubectl_of_gets hverb hg hy
  | eprintln line =>
    obtain rfl := hy
    rintro ⟨options, rest, stdin, hc⟩
    cases hc

theorem stage_runsKubectl {verb : String} {c : Char} (hverb : Begins c verb) (hg : 'g' ≠ c)
    {q : Stage} {u : Trace Reply} {r : q.Result} {y : Exchange Reply}
    (h : Runs (q.perform plan) u r) (hy : y ∈ u) (hv : RunsKubectl verb y.1) :
    ∃ rest, q = .cpKubectl (verb ++ rest) ∧ y.1 = kubectlQuery plan (verb ++ rest) := by
  have hsends := puts_stage plan q u r h y hy
  by_cases hq : ∃ command, q = .cpKubectl command
  · obtain ⟨command, rfl⟩ := hq
    have hy' : y.1 = kubectlQuery plan command := hsends
    rw [hy', runsKubectl_kubectlQuery] at hv
    obtain ⟨rest, rfl⟩ := hv
    exact ⟨rest, rfl, hy'⟩
  · exact absurd hv (quiet_stage hverb hg (fun command hc => hq ⟨command, hc⟩) hsends)

end Hbird.UpdateCluster
