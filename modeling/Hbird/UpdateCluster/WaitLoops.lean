import Hbird.Interaction.Tries
import Hbird.UpdateCluster.Gates

namespace Hbird.UpdateCluster

open Hbird.Interaction Hbird.Ssh Hbird.Text

variable {Q : Type} {R : Q → Type} {α β : Type}

/-- `saturating_sub`. -/
def saturatingSub (a b : UInt32) : UInt32 := if b ≤ a then a - b else 0

/-- The loop of `wait_node_bootid_changed` with the time of its last heartbeat. -/
def pollBeating (interval timeout : UInt32) (probe : Exec Q R β α) :
    Nat → UInt32 → UInt32 → β → Exec Q R β α
  | 0, _, _, seen => throw seen
  | n + 1, elapsed, lastHeartbeat, seen =>
    if elapsed < timeout then
      Exec.outcome probe >>= fun
        | .ok a => pure a
        | .error b =>
          let elapsed := saturatingAdd elapsed interval
          pollBeating interval timeout probe n elapsed
            (if 30 ≤ saturatingSub elapsed lastHeartbeat ∧ elapsed < timeout then elapsed
              else lastHeartbeat) b
    else throw seen

/-- The heartbeats are only for the log. -/
theorem pollBeating_eq (interval timeout : UInt32) (probe : Exec Q R β α) (n : Nat)
    (elapsed lastHeartbeat : UInt32) (seen : β) :
    pollBeating interval timeout probe n elapsed lastHeartbeat seen =
      poll interval timeout probe n elapsed seen := by
  induction n generalizing elapsed lastHeartbeat seen with
  | zero => rfl
  | succ n ih =>
    rw [pollBeating, poll]
    congr 2
    funext r
    cases r with
    | ok a => rfl
    | error b => exact ih _ _ b

/-- `wait_node_bootid_changed` with its heartbeats. -/
def waitNodeBootidChangedBeating (plan : Plan) (node preBootid : String) : Remote Failure Unit :=
  if plan.skipGates then pure ()
  else if preBootid = "" then pure ()
  else if plan.dryRun then pure ()
  else
    ((pollBeating 5 plan.timeouts.ready
      (attempt (cpKubectl plan (bootidCommand node))
        (untilOk fun val => trim val ≠ "" && trim val ≠ preBootid))
      plan.timeouts.ready.toNat 0 0 ()).context fun _ =>
        .msg ("wait_node_bootid_changed: node " ++ node ++ " bootID did not change within " ++
          seconds plan.timeouts.ready)) >>= fun _ => pure ()

theorem waitNodeBootidChangedBeating_eq (plan : Plan) (node preBootid : String) :
    waitNodeBootidChangedBeating plan node preBootid = waitNodeBootidChanged plan node preBootid := by
  rw [waitNodeBootidChangedBeating, pollBeating_eq]
  rfl

section Gates

variable {plan : Plan} {ip node preBootid : String} {timeout : UInt32}

theorem waits_sshBack : Waits (timeout.toNat ⌈/⌉ 5) (SshExec.run "true") (fun r => ∃ out, r = .ok out)
    (.error (.msg ("wait_ssh_back: SSH on " ++ ip ++ " did not come back within " ++ seconds timeout)))
    (waitSshBackWith ip timeout false) := by
  have hi : 0 < UInt32.toNat 5 := by decide
  rw [waitSshBackWith, if_neg Bool.false_ne_true]
  exact waits_waitFor hi fun r => by simp

theorem waits_sshDrop : Waits (timeout.toNat ⌈/⌉ 1) (SshExec.run "true")
    (fun r => ∃ e, r = .error e) (.ok ()) (waitSshDropWith timeout false) := by
  have hi : 0 < UInt32.toNat 1 := by decide
  rw [waitSshDropWith, if_neg Bool.false_ne_true]
  refine waits_outcome hi fun r => ?_
  cases r with
  | ok out => simp
  | error e => simp

theorem waits_apiserver (hd : plan.dryRun = false) :
    Waits (plan.timeouts.apiserver.toNat ⌈/⌉ 10) (cpKubectl plan "get --raw=/readyz")
      (fun r => ∃ out, r = .ok out)
      (.error (.msg ("wait_apiserver_back: apiserver did not return within " ++
        seconds plan.timeouts.apiserver)))
      (waitApiserverBack plan) := by
  have hi : 0 < UInt32.toNat 10 := by decide
  rw [waitApiserverBack, hd, if_neg Bool.false_ne_true]
  exact waits_waitFor hi fun r => by simp

theorem waits_nodeReady (hd : plan.dryRun = false) :
    Waits (plan.timeouts.ready.toNat ⌈/⌉ 10) (cpKubectl plan (getNodeCommand node))
      (fun r => ∃ out, r = .ok out ∧ stdoutHasReadyStatus out = true)
      (.error (.msg ("wait_node_ready: node " ++ node ++ " did not reach Ready within " ++
        seconds plan.timeouts.ready)))
      (waitNodeReady plan node) := by
  have hi : 0 < UInt32.toNat 10 := by decide
  rw [waitNodeReady, hd, if_neg Bool.false_ne_true]
  exact waits_waitFor hi fun r => Iff.rfl

theorem waits_nodeBootid (hg : plan.skipGates = false) (hd : plan.dryRun = false)
    (hpre : preBootid ≠ "") :
    Waits (plan.timeouts.ready.toNat ⌈/⌉ 5) (cpKubectl plan (bootidCommand node))
      (fun r => ∃ out, r = .ok out ∧ trim out ≠ "" ∧ trim out ≠ preBootid)
      (.error (.msg ("wait_node_bootid_changed: node " ++ node ++ " bootID did not change within " ++
        seconds plan.timeouts.ready)))
      (waitNodeBootidChangedBeating plan node preBootid) := by
  have hi : 0 < UInt32.toNat 5 := by decide
  rw [waitNodeBootidChangedBeating_eq, waitNodeBootidChanged, hg, hd, if_neg Bool.false_ne_true,
    if_neg hpre, if_neg Bool.false_ne_true]
  exact waits_waitFor hi fun r => by simp

/-- Each loop ends within the probes that its intervals allow, at the first one that satisfies it,
and the counter of the seconds is exact up to the last probe; no greater count of rounds changes
anything. -/
theorem waitLoops_bounded (plan : Plan) (node ip preBootid : String) (timeout : UInt32) :
    Waits (timeout.toNat ⌈/⌉ 5) (SshExec.run "true") (fun r => ∃ out, r = .ok out)
      (.error (.msg ("wait_ssh_back: SSH on " ++ ip ++ " did not come back within " ++
        seconds timeout)))
      (waitSshBackWith ip timeout false) ∧
    Waits (timeout.toNat ⌈/⌉ 1) (SshExec.run "true") (fun r => ∃ e, r = .error e) (.ok ())
      (waitSshDropWith timeout false) ∧
    (plan.dryRun = false →
      Waits (plan.timeouts.apiserver.toNat ⌈/⌉ 10) (cpKubectl plan "get --raw=/readyz")
        (fun r => ∃ out, r = .ok out)
        (.error (.msg ("wait_apiserver_back: apiserver did not return within " ++
          seconds plan.timeouts.apiserver)))
        (waitApiserverBack plan) ∧
      Waits (plan.timeouts.ready.toNat ⌈/⌉ 10) (cpKubectl plan (getNodeCommand node))
        (fun r => ∃ out, r = .ok out ∧ stdoutHasReadyStatus out = true)
        (.error (.msg ("wait_node_ready: node " ++ node ++ " did not reach Ready within " ++
          seconds plan.timeouts.ready)))
        (waitNodeReady plan node) ∧
      (plan.skipGates = false → preBootid ≠ "" →
        Waits (plan.timeouts.ready.toNat ⌈/⌉ 5) (cpKubectl plan (bootidCommand node))
          (fun r => ∃ out, r = .ok out ∧ trim out ≠ "" ∧ trim out ≠ preBootid)
          (.error (.msg ("wait_node_bootid_changed: node " ++ node ++
            " bootID did not change within " ++ seconds plan.timeouts.ready)))
          (waitNodeBootidChangedBeating plan node preBootid))) ∧
    (∀ interval : UInt32, 0 < interval.toNat →
      (∀ k < timeout.toNat ⌈/⌉ interval.toNat,
        (elapsedAt interval k).toNat = k * interval.toNat ∧ k * interval.toNat < timeout.toNat) ∧
      ∀ (probe : Remote Unit String) (n : Nat), timeout.toNat ≤ n →
        poll interval timeout probe n 0 () = pollLoop interval timeout probe ()) :=
  ⟨waits_sshBack, waits_sshDrop, fun hd => ⟨waits_apiserver hd, waits_nodeReady hd, fun hg hpre =>
      waits_nodeBootid hg hd hpre⟩, fun _ hi => ⟨fun _ hk => elapsedAt_exact hi hk,
      fun probe n hn => poll_rounds _ _ hi probe n _ 0 () (by omega) (by omega)⟩⟩

end Gates

end Hbird.UpdateCluster
