import Hbird.Interaction.Poll
import Hbird.UpdateCluster.Kubectl

namespace Hbird.UpdateCluster

open Hbird.Interaction Hbird.Ssh Hbird.Text

variable {β γ : Type} {plan : Plan} {command node ip preBootid : String} {t : Trace Reply}

def seconds (n : UInt32) : String := toString n.toNat ++ "s"

theorem misses_reads {judge : Except Failure String → Except β γ}
    (hd : plan.dryRun = false) (h : Misses (attempt (cpKubectl plan command) judge) t) :
    ∀ r ∈ kubectlReads plan command t, ∃ b, judge r = .error b := by
  induction h with
  | nil => simp [kubectlReads]
  | cons hu _ ih =>
    obtain ⟨r, hr, hj⟩ := finishes_attempt.mp hu
    intro r' hr'
    rw [kubectlReads_append] at hr'
    obtain hr' | hr' := List.mem_append.mp hr'
    · obtain hk | ⟨rfl, -⟩ := kubectlReads_cpKubectl hd hr
      · rw [hk, List.mem_singleton] at hr'
        exact ⟨_, by rw [hr', ← hj]⟩
      · cases hr'
    · exact ih r' hr'

theorem misses_reads_other {judge : Except Failure String → Except β γ} {other : String}
    (ho : other ≠ command) (hd : plan.dryRun = false)
    (h : Misses (attempt (cpKubectl plan other) judge) t) : kubectlReads plan command t = [] := by
  induction h with
  | nil => rfl
  | cons hu _ ih =>
    obtain ⟨r, hr, -⟩ := finishes_attempt.mp hu
    rw [kubectlReads_append, kubectlReads_other ho hd hr, ih, List.append_nil]

def waitSshBackWith (ip : String) (timeout : UInt32) (dryRun : Bool) : Executor Failure Unit :=
  if dryRun then pure ()
  else waitFor 5 timeout (fun _ => true)
    (.msg ("wait_ssh_back: SSH on " ++ ip ++ " did not come back within " ++ seconds timeout))
    (SshExec.run "true")

def waitSshBack (plan : Plan) (ip : String) : Remote Failure Unit :=
  live ((nodeSshOpts plan ip).withConnectTimeout 3) (waitSshBackWith ip plan.timeouts.ssh plan.dryRun)

/-- The drop of SSH is only watched for: the gate is `Ok` with it and without it. -/
def waitSshDropWith (max : UInt32) (dryRun : Bool) : Executor Failure Unit :=
  if dryRun then pure ()
  else
    Exec.outcome (pollLoop 1 max (attempt (SshExec.run "true") fun
      | .ok _ => (.error () : Except Unit Unit)
      | .error _ => .ok ()) ()) >>= fun _ => pure ()

def waitSshDrop (plan : Plan) (ip : String) : Remote Failure Unit :=
  live ((nodeSshOpts plan ip).withConnectTimeout 3) (waitSshDropWith plan.timeouts.sshDrop plan.dryRun)

def waitApiserverBack (plan : Plan) : Remote Failure Unit :=
  if plan.dryRun then pure ()
  else waitFor 10 plan.timeouts.apiserver (fun _ => true)
    (.msg ("wait_apiserver_back: apiserver did not return within " ++ seconds plan.timeouts.apiserver))
    (cpKubectl plan "get --raw=/readyz")

/-- A line whose second column is `Ready` or starts with `Ready,`. -/
def stdoutHasReadyStatus (stdout : String) : Bool :=
  (lines stdout).any fun line =>
    match splitWhitespace line with
    | _ :: status :: _ => status == "Ready" || startsWith status "Ready,"
    | _ => false

def getNodeCommand (node : String) : String := "get node " ++ node ++ " --no-headers"

def waitNodeReady (plan : Plan) (node : String) : Remote Failure Unit :=
  if plan.dryRun then pure ()
  else waitFor 10 plan.timeouts.ready stdoutHasReadyStatus
    (.msg ("wait_node_ready: node " ++ node ++ " did not reach Ready within " ++
      seconds plan.timeouts.ready))
    (cpKubectl plan (getNodeCommand node))

def bootidCommand (node : String) : String :=
  "get node " ++ node ++ " -o jsonpath='\x7b.status.nodeInfo.bootID\x7d'"

/-- The reads of the boot ID that `capture_node_bootid` makes: the first that shows one
counts, and none is needed. -/
def captureAttempts (plan : Plan) (node : String) : Nat → Remote Failure String
  | 0 => pure ""
  | n + 1 =>
    Exec.outcome (cpKubectl plan (bootidCommand node)) >>= fun
      | .ok val => if trim val ≠ "" then pure (trim val) else captureAttempts plan node n
      | .error _ => captureAttempts plan node n

def captureNodeBootid (plan : Plan) (node : String) : Remote Failure String :=
  if plan.dryRun then pure "<dry-run-bootid>" else captureAttempts plan node 3

def waitNodeBootidChanged (plan : Plan) (node preBootid : String) : Remote Failure Unit :=
  if plan.skipGates then pure ()
  else if preBootid = "" then pure ()
  else if plan.dryRun then pure ()
  else waitFor 5 plan.timeouts.ready (fun val => trim val ≠ "" && trim val ≠ preBootid)
    (.msg ("wait_node_bootid_changed: node " ++ node ++ " bootID did not change within " ++
      seconds plan.timeouts.ready))
    (cpKubectl plan (bootidCommand node))

theorem stdoutHasReadyStatus_iff {stdout : String} :
    stdoutHasReadyStatus stdout = true ↔ ∃ line ∈ lines stdout, ∃ name status rest,
      splitWhitespace line = name :: status :: rest ∧
        (status = "Ready" ∨ startsWith status "Ready," = true) := by
  rw [stdoutHasReadyStatus, List.any_eq_true]
  refine exists_congr fun line => and_congr_right fun _ => ?_
  match splitWhitespace line with
  | [] => simp
  | [name] => simp
  | name :: status :: rest => simp

theorem waitFor_reads (hd : plan.dryRun = false) {interval timeout : UInt32} {good : String → Bool}
    {failure : Failure}
    (h : Finishes (waitFor interval timeout good failure (cpKubectl plan command)) t (.ok ())) :
    ∃ out, .ok out ∈ kubectlReads plan command t ∧ good out = true := by
  obtain ⟨u, v, out, rfl, hv, hg⟩ := waitFor_ok h
  refine ⟨out, ?_, hg⟩
  rw [kubectlReads_append, kubectlReads_eq hd (refusal_of_ok hd hv) hv]
  exact List.mem_append_right _ (List.mem_singleton_self _)

theorem waitSshBack_ok (hd : plan.dryRun = false) (h : Finishes (waitSshBack plan ip) t (.ok ())) :
    ∃ stdout stderr, ⟨.ssh ((nodeSshOpts plan ip).withConnectTimeout 3) "true" none,
      .exited (.code 0) stdout stderr⟩ ∈ t := by
  obtain ⟨s, hs, hc⟩ := finishes_live.mp h
  rw [waitSshBackWith, hd, if_neg Bool.false_ne_true] at hs
  obtain ⟨u, v, out, rfl, hv, -⟩ := waitFor_ok hs
  rw [finishes_sshExec_run.mp hv] at hc
  obtain ⟨w, w', rfl, -, hw'⟩ := carries_append.mp hc
  obtain ⟨x, x', rfl, hx, -⟩ := carries_cons.mp hw'
  have hi : ((nodeSshOpts plan ip).withConnectTimeout 3).identityFile = none :=
    nodeSshOpts_identityFile plan ip
  obtain ⟨e, rfl, he⟩ := (runs_serve hi).mp hx
  obtain ⟨hs, rfl⟩ := endResult_ok.mp he.symm
  exact ⟨out.stdout, out.stderr, by rw [← hs]; simp⟩

theorem waitNodeReady_ok (hd : plan.dryRun = false) (h : Finishes (waitNodeReady plan node) t (.ok ())) :
    ∃ stdout, .ok stdout ∈ kubectlReads plan (getNodeCommand node) t ∧
      stdoutHasReadyStatus stdout = true := by
  rw [waitNodeReady, hd, if_neg Bool.false_ne_true] at h
  exact waitFor_reads hd h

theorem waitNodeBootidChanged_ok (hd : plan.dryRun = false) (hg : plan.skipGates = false)
    (h : Finishes (waitNodeBootidChanged plan node preBootid) t (.ok ())) :
    preBootid = "" ∨ ∃ val, .ok val ∈ kubectlReads plan (bootidCommand node) t ∧
      trim val ≠ "" ∧ trim val ≠ preBootid := by
  rw [waitNodeBootidChanged, hg, hd, if_neg Bool.false_ne_true] at h
  by_cases hp : preBootid = ""
  · exact .inl hp
  · rw [if_neg hp, if_neg Bool.false_ne_true] at h
    obtain ⟨val, hval, hgood⟩ := waitFor_reads hd h
    exact .inr ⟨val, hval, by simpa using hgood⟩

end Hbird.UpdateCluster
