import Hbird.CpKubectl

namespace Hbird.KubeBench

open Hbird.Interaction Hbird.Ssh Hbird.Text Hbird.CpKubectl
open Hbird.UpdateCluster (Failure refusal refusal_append remoteKubectl adminKubectl)

def baseUrl : String := "https://raw.githubusercontent.com/aquasecurity/kube-bench"

/-- Which Job manifest to apply. -/
inductive BenchTarget : Type
  | master
  | node
  deriving DecidableEq, Repr

namespace BenchTarget

def asStr : BenchTarget → String
  | .master => "master"
  | .node => "node"

def jobName (target : BenchTarget) : String := "kube-bench-" ++ target.asStr

def jobUrl (target : BenchTarget) (version : String) : String :=
  baseUrl ++ "/" ++ version ++ "/job-" ++ target.asStr ++ ".yaml"

end BenchTarget

structure BenchPlan where
  cpIp : String
  kvmHost : Option String
  cpName : String
  version : String
  timeout : String
  namespaceName : String
  targets : List BenchTarget
  deriving DecidableEq, Repr

namespace BenchPlan

variable (plan : BenchPlan) (target : BenchTarget)

def nsFlag : String := "-n " ++ plan.namespaceName

def deleteCommand : String :=
  plan.nsFlag ++ " delete job " ++ target.jobName ++ " --ignore-not-found=true"

def applyCommand : String := plan.nsFlag ++ " apply -f " ++ target.jobUrl plan.version

def waitCommand : String :=
  plan.nsFlag ++ " wait --for=condition=complete --timeout=" ++ plan.timeout ++ " job/" ++ target.jobName

def podsCommand : String := plan.nsFlag ++ " get pods -l job-name=" ++ target.jobName ++ " -o wide"

def tailCommand : String := plan.nsFlag ++ " logs job/" ++ target.jobName ++ " --tail=100"

def logsCommand : String := plan.nsFlag ++ " logs job/" ++ target.jobName

def cleanupCommand (job : String) : String :=
  plan.nsFlag ++ " delete job " ++ job ++ " --ignore-not-found=true --wait=false"

end BenchPlan

/-- The banner ahead of a target's log. -/
def targetBanner (target : BenchTarget) : String :=
  let rule := String.ofList (List.replicate 60 '#')
  rule ++ "\n# kube-bench target: " ++ target.asStr ++ "\n" ++ rule

/-- `trim_end_matches('\n')`. -/
def trimEndNewlines (s : String) : String :=
  String.ofList (s.toList.reverse.dropWhile (· = '\n')).reverse

def kubectl (plan : BenchPlan) (command : String) : Executor Failure CpExecOutput :=
  cpKubectlLenientWithExec plan.cpIp command

/-- A call whose failure has no consequence. -/
def ignored (plan : BenchPlan) (command : String) : Executor Failure Unit :=
  Exec.outcome (kubectl plan command) >>= fun _ => pure ()

def failed {α : Type} (target : BenchTarget) (text : String) : Executor Failure α :=
  throw (.msg ("[" ++ target.asStr ++ "] FAIL: " ++ text))

def runTarget (plan : BenchPlan) (target : BenchTarget) : Executor Failure String :=
  ignored plan (plan.deleteCommand target) >>= fun _ =>
  kubectl plan (plan.applyCommand target) >>= fun applied =>
  if !applied.success then failed target ("could not apply " ++ target.jobUrl plan.version)
  else kubectl plan (plan.waitCommand target) >>= fun waited =>
  if !waited.success then
    ignored plan (plan.podsCommand target) >>= fun _ =>
    ignored plan (plan.tailCommand target) >>= fun _ =>
    failed target ("Job did not complete within " ++ plan.timeout)
  else kubectl plan (plan.logsCommand target) >>= fun logs =>
  if trim logs.stdout = "" then failed target "kube-bench produced no log output"
  else pure (targetBanner target ++ "\n" ++ trimEndNewlines logs.stdout ++ "\n\n")

/-- Delete every Job of the list, whatever happens to the others. -/
def cleanup (plan : BenchPlan) : List String → Executor Failure Unit
  | [] => pure ()
  | job :: created => ignored plan (plan.cleanupCommand job) >>= fun _ => cleanup plan created

/-- The loop over the targets: the Jobs of those that were begun, and the report or the error that
ended it. -/
def runTargets (plan : BenchPlan) : List BenchTarget → List String → String →
    Executor Failure (List String × Except Failure String)
  | [], created, allLogs => pure (created, .ok allLogs)
  | target :: targets, created, allLogs => Exec.outcome (runTarget plan target) >>= fun
    | .ok block => runTargets plan targets (created ++ [target.jobName]) (allLogs ++ block)
    | .error e => pure (created ++ [target.jobName], .error e)

def runAll (plan : BenchPlan) : Executor Failure String :=
  runTargets plan plan.targets [] "" >>= fun (created, result) =>
  cleanup plan created >>= fun _ => result

def renderDryRunPlan (plan : BenchPlan) : List String :=
  ["DRY-RUN kube-bench version: " ++ plan.version,
    "DRY-RUN cp: " ++ plan.cpIp ++ " (" ++ plan.cpName ++ ")" ++
      (plan.kvmHost.map (" via " ++ ·)).getD "",
    "DRY-RUN namespace: " ++ plan.namespaceName,
    "DRY-RUN timeout:   " ++ plan.timeout,
    "DRY-RUN targets:   " ++ " ".intercalate (plan.targets.map BenchTarget.asStr),
    "DRY-RUN would run: kubectl version --request-timeout=10s",
    "DRY-RUN would run: kubectl get nodes -l node-role.kubernetes.io/control-plane -o name"] ++
  plan.targets.flatMap (fun target =>
    ["DRY-RUN would run: kubectl " ++ plan.nsFlag ++ " delete job " ++ target.jobName ++
        " --ignore-not-found=true",
      "DRY-RUN would run: kubectl " ++ plan.nsFlag ++ " apply -f " ++ target.jobUrl plan.version,
      "DRY-RUN would run: kubectl " ++ plan.nsFlag ++ " wait --for=condition=complete --timeout=" ++
        plan.timeout ++ " job/" ++ target.jobName,
      "DRY-RUN would run: kubectl " ++ plan.nsFlag ++ " logs job/" ++ target.jobName]) ++
  plan.targets.map fun target =>
    "DRY-RUN cleanup:   kubectl " ++ plan.nsFlag ++ " delete job " ++ target.jobName ++
      " --ignore-not-found=true --wait=false"

section Calls

variable {plan : BenchPlan} {target : BenchTarget} {command : String} {t : Trace ExecReply}

/-- The query that a command becomes. -/
def send (command : String) : ExecQuery := .run (remoteKubectl command)

theorem finishes_kubectl {r : Except Failure CpExecOutput} (hsent : refusal command = none) :
    Finishes (kubectl plan command) t r ↔
      ∃ e, t = [⟨send command, e⟩] ∧ r = lenient "cp_kubectl_lenient" command plan.cpIp e := by
  have hpass : rejectShellMetachars "cp_kubectl_lenient" command = none :=
    rejectShellMetachars_eq_none.mpr hsent
  rw [kubectl, cpKubectlLenientWithExec, guarded, hpass, finishes_outcome_bind]
  constructor
  · rintro ⟨e, t₁, t₂, rfl, h₁, h₂⟩
    obtain rfl := finishes_sshExec_run.mp h₁
    obtain ⟨rfl, rfl⟩ := runs_done.mp h₂
    exact ⟨e, rfl, rfl⟩
  · rintro ⟨e, rfl, rfl⟩
    exact ⟨e, [⟨send command, e⟩], [], rfl, finishes_sshExec_run.mpr rfl, .done _⟩

theorem finishes_kubectl_refused {r : Except Failure CpExecOutput} (hsent : refusal command ≠ none)
    (h : Finishes (kubectl plan command) t r) : t = [] ∧ ∃ e, r = .error e := by
  rw [kubectl, cpKubectlLenientWithExec, guarded] at h
  cases hpass : rejectShellMetachars "cp_kubectl_lenient" command with
  | none => exact absurd (rejectShellMetachars_eq_none.mp hpass) hsent
  | some text =>
    rw [hpass] at h
    obtain ⟨rfl, rfl⟩ := finishes_throw.mp h
    exact ⟨rfl, _, rfl⟩

theorem finishes_ignored {r : Except Failure Unit} (h : Finishes (ignored plan command) t r) :
    r = .ok () ∧ t.map Sigma.fst = if refusal command = none then [send command] else [] := by
  obtain ⟨o, t₁, t₂, rfl, h₁, h₂⟩ := finishes_outcome_bind.mp h
  obtain ⟨rfl, rfl⟩ := finishes_pure.mp h₂
  rw [List.append_nil]
  refine ⟨rfl, ?_⟩
  by_cases hsent : refusal command = none
  · obtain ⟨e, rfl, -⟩ := (finishes_kubectl hsent).mp h₁
    rw [if_pos hsent]
    rfl
  · obtain ⟨rfl, -⟩ := finishes_kubectl_refused hsent h₁
    rw [if_neg hsent]
    rfl

/-- The commands for a target. -/
def targetCommands (plan : BenchPlan) (target : BenchTarget) : List String :=
  [plan.deleteCommand target, plan.applyCommand target, plan.waitCommand target,
    plan.podsCommand target, plan.tailCommand target, plan.logsCommand target]

theorem puts_kubectl {φ : ExecQuery → Prop} (h : refusal command = none → φ (send command)) :
    Puts φ (kubectl plan command).run :=
  puts_lenient_iff.mpr h

theorem puts_ignored {φ : ExecQuery → Prop} (h : refusal command = none → φ (send command)) :
    Puts φ (ignored plan command).run :=
  puts_exec_bind (puts_outcome (puts_kubectl h)) fun _ => puts_done _ _

theorem puts_runTarget :
    Puts (fun q => ∃ c ∈ targetCommands plan target, refusal c = none ∧ q = send c)
      (runTarget plan target).run := by
  have hc : ∀ c ∈ targetCommands plan target, refusal c = none →
      ∃ c' ∈ targetCommands plan target, refusal c' = none ∧ send c = send c' :=
    fun c hc hsent => ⟨c, hc, hsent, rfl⟩
  refine puts_exec_bind (puts_ignored (hc _ (by simp [targetCommands]))) fun _ => ?_
  refine puts_exec_bind (puts_kubectl (hc _ (by simp [targetCommands]))) fun applied => ?_
  split
  · exact puts_done _ _
  refine puts_exec_bind (puts_kubectl (hc _ (by simp [targetCommands]))) fun waited => ?_
  split
  · refine puts_exec_bind (puts_ignored (hc _ (by simp [targetCommands]))) fun _ => ?_
    refine puts_exec_bind (puts_ignored (hc _ (by simp [targetCommands]))) fun _ => ?_
    exact puts_done _ _
  refine puts_exec_bind (puts_kubectl (hc _ (by simp [targetCommands]))) fun logs => ?_
  split
  · exact puts_done _ _
  · exact puts_done _ _

theorem finishes_cleanup {created : List String} {r : Except Failure Unit}
    (h : Finishes (cleanup plan created) t r) : r = .ok () ∧ t.map Sigma.fst =
      ((created.map plan.cleanupCommand).filter fun c => refusal c = none).map send := by
  induction created generalizing t with
  | nil =>
    obtain ⟨rfl, rfl⟩ := finishes_pure.mp h
    exact ⟨rfl, rfl⟩
  | cons job created ih =>
    obtain ⟨e, rfl, he⟩ | ⟨_, t₁, t₂, rfl, h₁, h₂⟩ := finishes_bind.mp h
    · cases (finishes_ignored he).1
    · obtain ⟨hr, hrest⟩ := ih h₂
      refine ⟨hr, ?_⟩
      rw [List.map_append, (finishes_ignored h₁).2, hrest, List.map_cons, List.filter_cons]
      by_cases hsent : refusal (plan.cleanupCommand job) = none <;> simp [hsent]

theorem finishes_runTarget_opens {r : Except Failure String}
    (hsent : refusal (plan.deleteCommand target) = none) (h : Finishes (runTarget plan target) t r) :
    (t.map Sigma.fst).head? = some (send (plan.deleteCommand target)) := by
  obtain ⟨e, -, he⟩ | ⟨_, t₁, t₂, rfl, hdelete, -⟩ := finishes_bind.mp h
  · cases (finishes_ignored he).1
  · have hfirst := (finishes_ignored hdelete).2
    rw [if_pos hsent] at hfirst
    rw [List.map_append, hfirst]
    rfl

/-- A target that the loop began: what was exchanged over it, and what that came to. -/
structure Visit where
  target : BenchTarget
  trace : Trace ExecReply
  result : Except Failure String

/-- The visits are of a first part of the targets, up to the first that fails, of all where none
does. Each is a whole run over its target. -/
structure Begins (plan : BenchPlan) (targets : List BenchTarget) (visits : List Visit) : Prop where
  order : visits.map Visit.target <+: targets
  ran : ∀ v ∈ visits, Finishes (runTarget plan v.target) v.trace v.result
  goesOn : ∀ v ∈ visits.dropLast, ∃ block, v.result = .ok block
  stops : (∃ v ∈ visits, ∃ e, v.result = .error e) ∨ visits.map Visit.target = targets

theorem Begins.nil : Begins plan [] [] where
  order := List.prefix_rfl
  ran _ hv := absurd hv List.not_mem_nil
  goesOn _ hv := absurd hv List.not_mem_nil
  stops := .inr rfl

theorem Begins.stop {targets : List BenchTarget} {e : Failure}
    (h : Finishes (runTarget plan target) t (.error e)) :
    Begins plan (target :: targets) [⟨target, t, .error e⟩] where
  order := List.cons_prefix_cons.mpr ⟨rfl, List.nil_prefix⟩
  ran := List.forall_mem_singleton.mpr h
  goesOn _ hv := absurd hv List.not_mem_nil
  stops := .inl ⟨_, List.mem_cons_self, e, rfl⟩

theorem Begins.cons {targets : List BenchTarget} {visits : List Visit} {block : String}
    (h : Finishes (runTarget plan target) t (.ok block)) (hrest : Begins plan targets visits) :
    Begins plan (target :: targets) (⟨target, t, .ok block⟩ :: visits) where
  order := List.cons_prefix_cons.mpr ⟨rfl, hrest.order⟩
  ran := List.forall_mem_cons.mpr ⟨h, hrest.ran⟩
  goesOn := by
    cases visits with
    | nil => exact fun v hv => absurd hv List.not_mem_nil
    | cons v visits =>
      rw [List.dropLast_cons_cons]
      exact List.forall_mem_cons.mpr ⟨⟨block, rfl⟩, hrest.goesOn⟩
  stops := by
    obtain ⟨v, hv, hfailed⟩ | hall := hrest.stops
    · exact .inl ⟨v, List.mem_cons_of_mem _ hv, hfailed⟩
    · exact .inr (by rw [List.map_cons, hall])

/-- What the loop exchanges is its visits, and it ends with the error of the one that failed. -/
theorem finishes_runTargets {targets : List BenchTarget} {created : List String} {allLogs : String}
    {o : Except Failure (List String × Except Failure String)}
    (h : Finishes (runTargets plan targets created allLogs) t o) :
    ∃ visits result, Begins plan targets visits ∧
      o = .ok (created ++ visits.map fun v => v.target.jobName, result) ∧
      t = visits.flatMap Visit.trace ∧ ∀ e, result = .error e ↔ ∃ v ∈ visits, v.result = .error e := by
  induction targets generalizing created allLogs t with
  | nil =>
    obtain ⟨rfl, rfl⟩ := finishes_pure.mp h
    exact ⟨[], .ok allLogs, .nil, by rw [List.map_nil, List.append_nil], rfl, by simp⟩
  | cons target targets ih =>
    obtain ⟨r, t₁, t₂, rfl, h₁, h₂⟩ := finishes_outcome_bind.mp h
    cases r with
    | error e =>
      obtain ⟨rfl, rfl⟩ := finishes_pure.mp h₂
      exact ⟨[⟨target, t₁, .error e⟩], .error e, .stop h₁, rfl, by simp, by simp⟩
    | ok block =>
      obtain ⟨visits, result, hbegins, rfl, rfl, hresult⟩ := ih h₂
      refine ⟨⟨target, t₁, .ok block⟩ :: visits, result, .cons h₁ hbegins, ?_, rfl, fun e => ?_⟩
      · rw [List.append_assoc]
        rfl
      · rw [hresult]
        simp

end Calls

section Guard

variable {plan : BenchPlan} {target : BenchTarget} {command : String}

/-- What is appended to the namespace. -/
theorem refusal_nsFlag {rest : String} (hhead : rest.toList.head? = some ' ') :
    refusal (plan.nsFlag ++ rest) = none ↔ refusal plan.nsFlag = none ∧ refusal rest = none := by
  rw [refusal_append]
  constructor
  · exact fun h => ⟨h.1, h.2.1⟩
  · refine fun h => ⟨h.1, h.2, ?_⟩
    rintro x - y hy ⟨-, rfl⟩
    rw [hhead] at hy
    simp at hy

theorem refusal_behind_nsFlag {rest : String} (hhead : rest.toList.head? = some ' ')
    (hrest : refusal rest = none) :
    refusal (plan.nsFlag ++ rest) = none ↔ refusal plan.nsFlag = none :=
  (refusal_nsFlag hhead).trans (and_iff_left hrest)

theorem refusal_delete :
    refusal (plan.deleteCommand target) = none ↔ refusal plan.nsFlag = none := by
  have hassoc : plan.deleteCommand target = plan.nsFlag ++
      (" delete job " ++ target.jobName ++ " --ignore-not-found=true") := by
    simp only [BenchPlan.deleteCommand, String.append_assoc]
  rw [hassoc]
  cases target <;> exact refusal_behind_nsFlag (by decide +kernel) (by decide +kernel)

theorem refusal_cleanup :
    refusal (plan.cleanupCommand target.jobName) = none ↔ refusal plan.nsFlag = none := by
  have hassoc : plan.cleanupCommand target.jobName = plan.nsFlag ++
      (" delete job " ++ target.jobName ++ " --ignore-not-found=true --wait=false") := by
    simp only [BenchPlan.cleanupCommand, String.append_assoc]
  rw [hassoc]
  cases target <;> exact refusal_behind_nsFlag (by decide +kernel) (by decide +kernel)

/-- A namespace that the guard refuses stands in front of every command. -/
theorem refusal_targetCommands (h : refusal plan.nsFlag ≠ none) :
    ∀ c ∈ targetCommands plan target, refusal c ≠ none := by
  have happend : ∀ rest, refusal (plan.nsFlag ++ rest) ≠ none := fun rest hr =>
    h (refusal_append.mp hr).1
  intro c hc
  simp only [targetCommands, List.mem_cons, List.not_mem_nil, or_false, BenchPlan.deleteCommand,
    BenchPlan.applyCommand, BenchPlan.waitCommand, BenchPlan.podsCommand, BenchPlan.tailCommand,
    BenchPlan.logsCommand, String.append_assoc] at hc
  obtain rfl | rfl | rfl | rfl | rfl | rfl := hc <;> exact happend _

theorem send_injective {c c' : String} (h : send c = send c') : c = c' :=
  Hbird.Text.append_left_cancel adminKubectl (ExecQuery.run.inj h)

theorem nsFlag_ne {p p' x x' : String} (hp : 2 ≤ p.toList.length) (hp' : 2 ≤ p'.toList.length)
    (hne : p.toList.take 2 ≠ p'.toList.take 2) : plan.nsFlag ++ (p ++ x) ≠ plan.nsFlag ++ (p' ++ x') := by
  intro h
  have htake := congrArg (fun s : String => s.toList.take 2) (append_left_cancel _ h)
  simp only [String.toList_append, List.take_append_of_le_length hp,
    List.take_append_of_le_length hp'] at htake
  exact hne htake

/-- The command that applies a target's manifest is no command of another target. -/
theorem applyCommand_unique {target' : BenchTarget}
    (h : plan.applyCommand target ∈ targetCommands plan target') : target = target' := by
  simp only [targetCommands, List.mem_cons, List.not_mem_nil, or_false, BenchPlan.deleteCommand,
    BenchPlan.applyCommand, BenchPlan.waitCommand, BenchPlan.podsCommand, BenchPlan.tailCommand,
    BenchPlan.logsCommand, BenchTarget.jobUrl, String.append_assoc] at h
  obtain h | h | h | h | h | h := h
  · exact absurd h (nsFlag_ne (by decide) (by decide) (by decide))
  · have htail := append_left_cancel _ (append_left_cancel _ (append_left_cancel _
      (append_left_cancel _ (append_left_cancel _ (append_left_cancel _ h)))))
    cases target <;> cases target' <;> first | rfl | exact absurd htail (by decide)
  · exact absurd h (nsFlag_ne (by decide) (by decide) (by decide))
  · exact absurd h (nsFlag_ne (by decide) (by decide) (by decide))
  · exact absurd h (nsFlag_ne (by decide) (by decide) (by decide))
  · exact absurd h (nsFlag_ne (by decide) (by decide) (by decide))

end Guard

/-- At the end of a run stand the deletions of the Jobs whose targets it began, in their order, and no
others. It begins the targets one after the other up to the first that fails, whose error it ends
with, and applies no manifest of any other. -/
def CleansUp (plan : BenchPlan) (t : Trace ExecReply) (o : Except Failure String) : Prop :=
  ∃ visits cleanups, Begins plan plan.targets visits ∧ t = visits.flatMap Visit.trace ++ cleanups ∧
    (∀ v ∈ visits, ∀ x ∈ v.trace, ∃ c ∈ targetCommands plan v.target, x.1 = send c) ∧
    (∀ target, (∃ x ∈ visits.flatMap Visit.trace, x.1 = send (plan.applyCommand target)) →
      target ∈ visits.map Visit.target) ∧
    (refusal plan.nsFlag = none → (∀ v ∈ visits, (v.trace.map Sigma.fst).head? =
        some (send (plan.deleteCommand v.target))) ∧
      cleanups.map Sigma.fst = visits.map fun v => send (plan.cleanupCommand v.target.jobName)) ∧
    (refusal plan.nsFlag ≠ none → t = []) ∧
    ((∃ report, o = .ok report) → visits.map Visit.target = plan.targets) ∧
    ∀ e, o = .error e ↔ ∃ v ∈ visits, v.result = .error e

theorem cleansUp_of_finishes {plan : BenchPlan} {t : Trace ExecReply} {o : Except Failure String}
    (h : Finishes (runAll plan) t o) : CleansUp plan t o := by
  obtain ⟨e, -, he⟩ | ⟨⟨created, result⟩, work, t₂, rfl, h₁, h₂⟩ := finishes_bind.mp h
  · obtain ⟨_, _, -, ho, -⟩ := finishes_runTargets he
    cases ho
  obtain ⟨visits, result', hbegins, ho, rfl, hresult⟩ := finishes_runTargets h₁
  obtain ⟨rfl, rfl⟩ := Prod.mk.inj (Except.ok.inj ho)
  obtain ⟨e, -, he⟩ | ⟨_, cleanups, t₃, rfl, h₃, h₄⟩ := finishes_bind.mp h₂
  · cases (finishes_cleanup he).1
  obtain ⟨rfl, rfl⟩ := runs_done.mp h₄
  have hcleanups := (finishes_cleanup h₃).2
  rw [List.nil_append, List.map_map] at hcleanups
  rw [List.append_nil]
  have hputs : ∀ v ∈ visits, ∀ x ∈ v.trace, ∃ c ∈ targetCommands plan v.target,
      refusal c = none ∧ x.1 = send c := fun v hv => puts_runTarget _ _ (hbegins.ran v hv)
  have hsends : ∀ c ∈ visits.map (plan.cleanupCommand ∘ fun v => v.target.jobName),
      (refusal c = none ↔ refusal plan.nsFlag = none) := by
    intro c hc
    obtain ⟨v, -, rfl⟩ := List.mem_map.mp hc
    exact refusal_cleanup
  refine ⟨visits, cleanups, hbegins, rfl, ?_, ?_, ?_, ?_, ?_, hresult⟩
  · intro v hv x hx
    obtain ⟨c, hc, -, hx'⟩ := hputs v hv x hx
    exact ⟨c, hc, hx'⟩
  · rintro target ⟨x, hx, hsend⟩
    obtain ⟨v, hv, hx⟩ := List.mem_flatMap.mp hx
    obtain ⟨c, hc, -, hx'⟩ := hputs v hv x hx
    have hsame : plan.applyCommand target = c := send_injective (hsend.symm.trans hx')
    have htarget : target = v.target := applyCommand_unique (hsame ▸ hc)
    exact htarget ▸ List.mem_map_of_mem hv
  · intro hns
    refine ⟨fun v hv => finishes_runTarget_opens (refusal_delete.mpr hns) (hbegins.ran v hv), ?_⟩
    rw [hcleanups, List.filter_eq_self.mpr fun c hc => decide_eq_true ((hsends c hc).mpr hns),
      List.map_map]
    rfl
  · intro hns
    have hnone : cleanups = [] := by
      rw [← List.map_eq_nil_iff, hcleanups, List.filter_eq_nil_iff.mpr, List.map_nil]
      exact fun c hc hsent => hns ((hsends c hc).mp (of_decide_eq_true hsent))
    rw [hnone, List.append_nil, List.eq_nil_iff_forall_not_mem]
    intro x hx
    obtain ⟨v, hv, hx⟩ := List.mem_flatMap.mp hx
    obtain ⟨c, hc, hsent, -⟩ := hputs v hv x hx
    exact refusal_targetCommands hns c hc hsent
  · rintro ⟨report, rfl⟩
    obtain ⟨v, hv, e, he⟩ | hall := hbegins.stops
    · cases (hresult e).mpr ⟨v, hv, he⟩
    · exact hall

/-- What stands behind a beginning of a line. -/
def stripPrefix (p line : String) : Option String :=
  if startsWith line p then some (String.ofList (line.toList.drop p.toList.length)) else none

/-- The kubectl commands of a printed plan. -/
def plannedCommands (lines : List String) : List String :=
  lines.filterMap fun line => (stripPrefix "DRY-RUN would run: kubectl " line).or
    (stripPrefix "DRY-RUN cleanup:   kubectl " line)

def probeCommands : List String :=
  ["version --request-timeout=10s", "get nodes -l node-role.kubernetes.io/control-plane -o name"]

/-- The commands of a run in which nothing fails. -/
def wholeRun (plan : BenchPlan) : List String :=
  plan.targets.flatMap (fun target => [plan.deleteCommand target, plan.applyCommand target,
    plan.waitCommand target, plan.logsCommand target]) ++
  plan.targets.map fun target => plan.cleanupCommand target.jobName

section Plan

variable {plan : BenchPlan} {target : BenchTarget} {t : Trace ExecReply}

theorem stripPrefix_append (p s : String) : stripPrefix p (p ++ s) = some s := by
  rw [stripPrefix, if_pos (startsWith_append p s), String.toList_append, List.drop_left,
    String.ofList_toList]

theorem stripPrefix_eq_none {p a : String} (s : String) (hlen : p.toList.length ≤ a.toList.length)
    (h : startsWith a p = false) : stripPrefix p (a ++ s) = none := by
  rw [stripPrefix, if_neg]
  rw [startsWith_iff, String.toList_append]
  intro hprefix
  have hshort := List.prefix_of_prefix_length_le hprefix (List.prefix_append _ _) hlen
  rw [← startsWith_iff, h] at hshort
  cases hshort

theorem planned_run (s : String) :
    (stripPrefix "DRY-RUN would run: kubectl " ("DRY-RUN would run: kubectl " ++ s)).or
      (stripPrefix "DRY-RUN cleanup:   kubectl " ("DRY-RUN would run: kubectl " ++ s)) = some s := by
  rw [stripPrefix_append]
  rfl

theorem planned_cleanup (s : String) :
    (stripPrefix "DRY-RUN would run: kubectl " ("DRY-RUN cleanup:   kubectl " ++ s)).or
      (stripPrefix "DRY-RUN cleanup:   kubectl " ("DRY-RUN cleanup:   kubectl " ++ s)) = some s := by
  rw [stripPrefix_append, stripPrefix_eq_none _ (by decide) (by decide)]
  rfl

theorem planned_other {a : String} (s : String)
    (h : "DRY-RUN would run: kubectl ".toList.take 10 ≠ a.toList.take 10 ∧
      "DRY-RUN cleanup:   kubectl ".toList.take 10 ≠ a.toList.take 10 ∧ 10 ≤ a.toList.length) :
    (stripPrefix "DRY-RUN would run: kubectl " (a ++ s)).or
      (stripPrefix "DRY-RUN cleanup:   kubectl " (a ++ s)) = none := by
  have hnone : ∀ p : String, 10 ≤ p.toList.length → p.toList.take 10 ≠ a.toList.take 10 →
      stripPrefix p (a ++ s) = none := by
    intro p hp hne
    rw [stripPrefix, if_neg]
    rw [startsWith_iff, String.toList_append]
    intro hprefix
    have htake := congrArg (List.take 10) (List.prefix_iff_eq_take.mp hprefix)
    rw [List.take_take, Nat.min_eq_left hp, List.take_append_of_le_length h.2.2] at htake
    exact hne htake
  rw [hnone _ (by decide) h.1, hnone _ (by decide) h.2.1]
  rfl

/-- The printed plan names the two probes and the commands of a whole run. -/
theorem plannedCommands_render (plan : BenchPlan) :
    plannedCommands (renderDryRunPlan plan) = probeCommands ++ wholeRun plan := by
  have hversion : "DRY-RUN would run: kubectl version --request-timeout=10s" =
      "DRY-RUN would run: kubectl " ++ "version --request-timeout=10s" := by decide
  have hnodes : "DRY-RUN would run: kubectl get nodes -l node-role.kubernetes.io/control-plane -o name" =
      "DRY-RUN would run: kubectl " ++ "get nodes -l node-role.kubernetes.io/control-plane -o name" := by
    decide
  rw [plannedCommands, renderDryRunPlan, List.filterMap_append, List.filterMap_append,
    List.filterMap_flatMap, List.filterMap_map, hversion, hnodes, wholeRun, ← List.append_assoc]
  congr 1
  · congr 1
    · simp only [String.append_assoc, List.filterMap_cons, List.filterMap_nil, planned_run,
        planned_other _ (a := "DRY-RUN kube-bench version: ") (by decide),
        planned_other _ (a := "DRY-RUN cp: ") (by decide),
        planned_other _ (a := "DRY-RUN namespace: ") (by decide),
        planned_other _ (a := "DRY-RUN timeout:   ") (by decide),
        planned_other _ (a := "DRY-RUN targets:   ") (by decide)]
      rfl
    · refine congrArg (fun f => plan.targets.flatMap f) (funext fun target => ?_)
      simp only [String.append_assoc, List.filterMap_cons, List.filterMap_nil, planned_run,
        BenchPlan.deleteCommand, BenchPlan.applyCommand, BenchPlan.waitCommand, BenchPlan.logsCommand]
  · rw [← List.filterMap_eq_map]
    refine congrArg (fun f => plan.targets.filterMap f) (funext fun target => ?_)
    simp only [Function.comp_apply, String.append_assoc, planned_cleanup, BenchPlan.cleanupCommand]

/-- Every command that is sent succeeds. -/
def Succeeds (t : Trace ExecReply) : Prop := ∀ x ∈ t, ∃ out, x.2 = .ok out

theorem finishes_kubectl_bind {α : Type} {command : String} {f : CpExecOutput → Executor Failure α}
    {r : Except Failure α} (hsent : refusal command = none) (hok : Succeeds t)
    (h : Finishes (kubectl plan command >>= f) t r) : ∃ out t', t = ⟨send command, .ok out⟩ :: t' ∧
      Succeeds t' ∧ Finishes (f ⟨true, out.stdout, out.stderr⟩) t' r := by
  obtain ⟨e, -, he⟩ | ⟨answer, t₁, t', rfl, h₁, h₂⟩ := finishes_bind.mp h
  · obtain ⟨e', rfl, hr⟩ := (finishes_kubectl hsent).mp he
    obtain ⟨out, hout⟩ := hok _ (List.mem_singleton_self _)
    dsimp only at hout
    rw [hout] at hr
    cases hr
  · obtain ⟨e', rfl, hr⟩ := (finishes_kubectl hsent).mp h₁
    obtain ⟨out, hout⟩ := hok _ (List.mem_append_left _ (List.mem_singleton_self _))
    dsimp only at hout
    subst hout
    obtain rfl := Except.ok.inj hr
    exact ⟨out, t', rfl, fun x hx => hok x (List.mem_append_right _ hx), h₂⟩

theorem finishes_ignored_bind {α : Type} {command : String} {f : Unit → Executor Failure α}
    {r : Except Failure α} (hsent : refusal command = none) (hok : Succeeds t)
    (h : Finishes (ignored plan command >>= f) t r) : ∃ reply t', t = ⟨send command, reply⟩ :: t' ∧
      Succeeds t' ∧ Finishes (f ()) t' r := by
  obtain ⟨e, -, he⟩ | ⟨_, t₁, t', rfl, h₁, h₂⟩ := finishes_bind.mp h
  · cases (finishes_ignored he).1
  · have hqueries := (finishes_ignored h₁).2
    rw [if_pos hsent] at hqueries
    obtain ⟨⟨q, reply⟩, hq, rfl⟩ : ∃ x, x.1 = send command ∧ t₁ = [x] := by
      cases t₁ with
      | nil => cases hqueries
      | cons x t₁ =>
        obtain ⟨hx, htail⟩ := List.cons.inj hqueries
        exact ⟨x, hx, by rw [List.map_eq_nil_iff.mp htail]⟩
    dsimp only at hq
    subst hq
    exact ⟨reply, t', rfl, fun x hx => hok x (List.mem_append_right _ hx), h₂⟩

/-- A target whose four commands succeed, the last with something to print. -/
theorem finishes_runTarget {r : Except Failure String} (h : Finishes (runTarget plan target) t r)
    (hsent : ∀ c ∈ [plan.deleteCommand target, plan.applyCommand target, plan.waitCommand target,
      plan.logsCommand target], refusal c = none) (hok : Succeeds t)
    (hlogs : ∀ out, ⟨send (plan.logsCommand target), .ok out⟩ ∈ t → trim out.stdout ≠ "") :
    (∃ report, r = .ok report) ∧ t.map Sigma.fst = [plan.deleteCommand target,
      plan.applyCommand target, plan.waitCommand target, plan.logsCommand target].map send := by
  simp only [List.forall_mem_cons] at hsent
  obtain ⟨hdelete, happly, hwait, hlog, -⟩ := hsent
  obtain ⟨deleted, t₁, rfl, hok₁, h₁⟩ := finishes_ignored_bind hdelete hok h
  obtain ⟨applied, t₂, rfl, hok₂, h₂⟩ := finishes_kubectl_bind happly hok₁ h₁
  rw [Bool.not_true, if_neg Bool.false_ne_true] at h₂
  obtain ⟨waited, t₃, rfl, hok₃, h₃⟩ := finishes_kubectl_bind hwait hok₂ h₂
  rw [Bool.not_true, if_neg Bool.false_ne_true] at h₃
  obtain ⟨logs, t₄, rfl, -, h₄⟩ := finishes_kubectl_bind hlog hok₃ h₃
  rw [if_neg (hlogs logs (by simp))] at h₄
  obtain ⟨rfl, rfl⟩ := finishes_pure.mp h₄
  exact ⟨⟨_, rfl⟩, rfl⟩

theorem finishes_runTargets_ok {targets : List BenchTarget} {created : List String} {allLogs : String}
    {o : Except Failure (List String × Except Failure String)}
    (h : Finishes (runTargets plan targets created allLogs) t o)
    (hsent : ∀ target ∈ targets, ∀ c ∈ [plan.deleteCommand target, plan.applyCommand target,
      plan.waitCommand target, plan.logsCommand target], refusal c = none) (hok : Succeeds t)
    (hlogs : ∀ target out, ⟨send (plan.logsCommand target), .ok out⟩ ∈ t → trim out.stdout ≠ "") :
    (∃ report, o = .ok (created ++ targets.map BenchTarget.jobName, .ok report)) ∧
      t.map Sigma.fst = (targets.flatMap fun target => [plan.deleteCommand target,
        plan.applyCommand target, plan.waitCommand target, plan.logsCommand target]).map send := by
  induction targets generalizing created allLogs t with
  | nil =>
    obtain ⟨rfl, rfl⟩ := finishes_pure.mp h
    exact ⟨⟨allLogs, by simp⟩, rfl⟩
  | cons target targets ih =>
    obtain ⟨hhere, hothers⟩ := List.forall_mem_cons.mp hsent
    obtain ⟨r, t₁, t₂, rfl, h₁, h₂⟩ := finishes_outcome_bind.mp h
    obtain ⟨⟨block, rfl⟩, hfirst⟩ := finishes_runTarget h₁ hhere
      (fun x hx => hok x (List.mem_append_left _ hx))
      (fun out hmem => hlogs target out (List.mem_append_left _ hmem))
    obtain ⟨⟨report, rfl⟩, hrest⟩ := ih h₂ hothers (fun x hx => hok x (List.mem_append_right _ hx))
      (fun target out hmem => hlogs target out (List.mem_append_right _ hmem))
    refine ⟨⟨report, by simp⟩, ?_⟩
    rw [List.map_append, hfirst, hrest, List.flatMap_cons, List.map_append]

end Plan

/-- A run deletes at its end the Jobs of the targets that it began and no others, and where no command
is refused or fails and no log is blank, its commands are those of the printed plan. -/
theorem runAll_cleansUp {plan : BenchPlan} {t : Trace ExecReply} {o : Except Failure String}
    (h : Finishes (runAll plan) t o) : CleansUp plan t o ∧
      ((∀ c ∈ wholeRun plan, refusal c = none) → Succeeds t →
        (∀ target out, ⟨send (plan.logsCommand target), .ok out⟩ ∈ t → trim out.stdout ≠ "") →
        (plannedCommands (renderDryRunPlan plan)).map send =
          probeCommands.map send ++ t.map Sigma.fst) := by
  refine ⟨cleansUp_of_finishes h, fun hsent hok hlogs => ?_⟩
  have htargets : ∀ target ∈ plan.targets, ∀ c ∈ [plan.deleteCommand target,
      plan.applyCommand target, plan.waitCommand target, plan.logsCommand target],
      refusal c = none := fun target ht c hc => hsent c
    (List.mem_append_left _ (List.mem_flatMap.mpr ⟨target, ht, hc⟩))
  have hcleanups : ∀ c ∈ plan.targets.map (plan.cleanupCommand ∘ BenchTarget.jobName),
      refusal c = none := fun c hc => hsent c (List.mem_append_right _ hc)
  obtain ⟨e, -, he⟩ | ⟨⟨created, result⟩, work, t₂, rfl, h₁, h₂⟩ := finishes_bind.mp h
  · obtain ⟨_, _, -, ho, -⟩ := finishes_runTargets he
    cases ho
  obtain ⟨⟨report, ho⟩, hwork⟩ := finishes_runTargets_ok h₁ htargets
    (fun x hx => hok x (List.mem_append_left _ hx))
    (fun target out hmem => hlogs target out (List.mem_append_left _ hmem))
  obtain ⟨rfl, rfl⟩ := Prod.mk.inj (Except.ok.inj ho)
  obtain ⟨e, -, he⟩ | ⟨_, cleanups, t₃, rfl, h₃, h₄⟩ := finishes_bind.mp h₂
  · cases (finishes_cleanup he).1
  obtain ⟨rfl, rfl⟩ := runs_done.mp h₄
  have hdeleted := (finishes_cleanup h₃).2
  rw [List.nil_append, List.map_map, List.filter_eq_self.mpr fun c hc =>
    decide_eq_true (hcleanups c hc)] at hdeleted
  rw [List.append_nil, List.map_append, hwork, hdeleted, plannedCommands_render, List.map_append,
    wholeRun, List.map_append]
  rfl

def samplePlan (version : String) (targets : List BenchTarget) : BenchPlan where
  cpIp := "10.0.0.2"
  kvmHost := none
  cpName := "cp-1"
  version
  timeout := "300s"
  namespaceName := "kube-system"
  targets

/-- What a run reads when every command exits with zero and prints `stdout`. -/
def printing (stdout : String) (commands : List String) : Trace ExecReply :=
  commands.map fun c => ⟨send c, .ok ⟨.code 0, stdout, ""⟩⟩

theorem runAll_cleansUp_master :
    let plan := samplePlan "v0.15.5" [.master]
    let t := printing "PASS" (wholeRun plan)
    CleansUp plan t (.ok (targetBanner .master ++ "\nPASS\n\n")) ∧
      (plannedCommands (renderDryRunPlan plan)).map send =
        probeCommands.map send ++ t.map Sigma.fst := by
  intro plan t
  have h : Finishes (runAll plan) t (.ok (targetBanner .master ++ "\nPASS\n\n")) :=
    finishes_of_play (scriptedExec (t.map Sigma.snd)) (by decide +kernel)
  have hprinted : ∀ x ∈ t, x.2 = .ok ⟨.code 0, "PASS", ""⟩ := by
    intro x hx
    obtain ⟨c, -, rfl⟩ := List.mem_map.mp hx
    rfl
  refine (runAll_cleansUp h).imp_right fun hplan => hplan (by decide +kernel) ?_ ?_
  · exact fun x hx => ⟨_, hprinted x hx⟩
  · intro target out hmem
    obtain rfl := Except.ok.inj (hprinted _ hmem)
    decide +kernel

/-- A target whose manifest the guard refuses, and a first log that is blank. -/
theorem runAll_deletes_unapplied :
    (let plan := samplePlan "v1;x" [.master]
     ∃ o, refusal (plan.applyCommand .master) ≠ none ∧ Finishes (runAll plan)
      (printing "" [plan.deleteCommand .master, plan.cleanupCommand "kube-bench-master"]) o) ∧
    (let plan := samplePlan "v0.15.5" [.master, .node]
     let t := printing "" ((wholeRun plan).take 4 ++ [plan.cleanupCommand "kube-bench-master"])
     ∃ o, Finishes (runAll plan) t o ∧ (plannedCommands (renderDryRunPlan plan)).map send ≠
      probeCommands.map send ++ t.map Sigma.fst) := by
  have hplay : ∀ (x : Executor Failure String) (replies : List (Except Error RunOutput))
      (t : Trace ExecReply), (play (scriptedExec replies) 0 x.run).1 = t → ∃ o, Finishes x t o :=
    fun x replies t ht => ⟨_, ht ▸ runs_play (scriptedExec replies) 0 x.run⟩
  constructor
  · intro plan
    obtain ⟨o, ho⟩ := hplay (runAll plan) (List.replicate 2 (.ok ⟨.code 0, "", ""⟩))
      (printing "" [plan.deleteCommand .master, plan.cleanupCommand "kube-bench-master"])
      (by decide +kernel)
    exact ⟨o, by decide +kernel, ho⟩
  · intro plan t
    obtain ⟨o, ho⟩ := hplay (runAll plan) (List.replicate 5 (.ok ⟨.code 0, "", ""⟩)) t
      (by decide +kernel)
    refine ⟨o, ho, ?_⟩
    rw [plannedCommands_render]
    decide +kernel

end Hbird.KubeBench
