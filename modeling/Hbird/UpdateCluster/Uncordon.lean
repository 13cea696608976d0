import Hbird.Cuts
import Hbird.UpdateCluster.Nodes

namespace Hbird.UpdateCluster

open Hbird.Interaction Hbird.Ssh Hbird.Text

variable {plan : Plan} {name ip k8sName pre : String} {t : Trace Stage.Result}

/-- A node's update, down to the children it starts. -/
def onCluster {α : Type} (plan : Plan) (x : NodeExec α) : Remote Failure α :=
  ExceptT.mk (x.run.handle (Stage.perform plan))

theorem finishes_onCluster {α : Type} {x : NodeExec α} {w : Trace Reply} {o : Except Failure α} :
    Finishes (onCluster plan x) w o ↔
      ∃ t, Finishes x t o ∧ Carries (Stage.perform plan) t w := runs_handle

/-- What stands before an uncordon among the stages. -/
inductive Reached (name ip k8sName : String) : Trace Stage.Result → Prop
  | current (u : Trace Stage.Result) :
      Reached name ip k8sName (u ++ [⟨.bootcUpgradeApply ip name, .ok .alreadyCurrent⟩])
  | applied (u : Trace Stage.Result) (pre : String) (drop : Except Failure Unit) :
      Reached name ip k8sName (u ++ (⟨.captureNodeBootid k8sName, .ok pre⟩ ::
        ⟨.bootcUpgradeApply ip name, .ok .applied⟩ :: passed ip k8sName pre drop))

theorem timers_quiet {u : Trace Stage.Result} (hu : ∀ x ∈ u, x.1 = .timerStart ip) : Quiet u := by
  rintro x hx ⟨rest, hr⟩
  rw [hu x hx] at hr
  cases hr

theorem lines_quiet {u : Trace Stage.Result} (hu : ∀ x ∈ u, ∃ line, x.1 = .eprintln line) :
    Quiet u := by
  rintro x hx ⟨rest, hr⟩
  obtain ⟨line, hline⟩ := hu x hx
  rw [hline] at hr
  cases hr

theorem not_quiet_of_split {s₁ s₂ : Trace Stage.Result} {y : Exchange Stage.Result}
    (hy : TriesUncordon y) (he : t = s₁ ++ y :: s₂) : ¬ Quiet t := by
  subst he
  exact fun hq => hq y (by simp) hy

theorem uncordon_reached (h : WorkerTrace plan name ip k8sName t) {lines s₁ s₂ : Trace Stage.Result}
    (hlines : ∀ x ∈ lines, ∃ line, x.1 = .eprintln line) {y : Exchange Stage.Result}
    (hy : TriesUncordon y) (he : t ++ lines = s₁ ++ y :: s₂) : Reached name ip k8sName s₁ := by
  have hloud := not_quiet_of_split hy he
  have hql := lines_quiet hlines
  cases h with
  | stopped hst => exact absurd (quiet_append.mpr ⟨hst.2.1, hql⟩) hloud
  | @current pre out tail htail =>
    obtain ⟨-, hu⟩ | ⟨-, r, u, rfl, hu⟩ := htail
    · refine absurd ?_ hloud
      simp [prepared_quiet, timers_quiet hu, hql, TriesUncordon]
    · have hs : prepared plan ip k8sName pre out ++ [⟨.bootcUpgradeApply ip name, .ok .alreadyCurrent⟩] ++
          ⟨.cpKubectl (uncordonCommand k8sName), r⟩ :: (u ++ lines) = s₁ ++ y :: s₂ := by
        rw [← he]
        simp
      have hl : Quiet (prepared plan ip k8sName pre out ++
          [⟨.bootcUpgradeApply ip name, .ok .alreadyCurrent⟩]) := by
        simp [prepared_quiet, TriesUncordon]
      rw [Cuts.only_unique hs hl (quiet_append.mpr ⟨timers_quiet hu, hql⟩) hy]
      exact .current _
  | @applied pre out drop r u hu =>
    have hs : prepared plan ip k8sName pre out ++ (⟨.bootcUpgradeApply ip name, .ok .applied⟩ ::
        passed ip k8sName pre drop) ++ ⟨.cpKubectl (uncordonCommand k8sName), r⟩ :: (u ++ lines) =
          s₁ ++ y :: s₂ := by
      rw [← he]
      simp
    have hl : Quiet (prepared plan ip k8sName pre out ++
        (⟨.bootcUpgradeApply ip name, .ok .applied⟩ :: passed ip k8sName pre drop)) := by
      simp [prepared_quiet, passed_quiet, TriesUncordon]
    rw [Cuts.only_unique hs hl (quiet_append.mpr ⟨timers_quiet hu, hql⟩) hy]
    have happ : prepared plan ip k8sName pre out ++ (⟨.bootcUpgradeApply ip name, .ok .applied⟩ ::
        passed ip k8sName pre drop) = (⟨.timerStop ip, .ok ()⟩ :: drained plan k8sName out) ++
          (⟨.captureNodeBootid k8sName, .ok pre⟩ :: ⟨.bootcUpgradeApply ip name, .ok .applied⟩ ::
            passed ip k8sName pre drop) := by
      simp [prepared]
    rw [happ]
    exact .applied _ pre drop

theorem not_stepFails_uncordon (r : Except Failure String) :
    ¬ StepFails ⟨.cpKubectl (uncordonCommand k8sName), r⟩ := by
  rintro ⟨⟨rest, hr⟩, -⟩
  exact begins_ne (begins_append ⟨_, String.toList_ofList⟩ _)
    (begins_append ⟨_, String.toList_ofList⟩ _) (by decide : 'u' ≠ 'd') hr

/-- No uncordon is tried in an update with a failed step. -/
theorem quiet_of_stepFails (h : WorkerTrace plan name ip k8sName t) {x : Exchange Stage.Result}
    (hx : x ∈ t) (hf : StepFails x) : Quiet t := by
  have hprep : ∀ {pre out : String}, ∀ y ∈ prepared plan ip k8sName pre out, ¬ StepFails y := by
    intro pre out
    unfold prepared drained
    split <;> simp [StepFails]
  have htimer : ∀ {u : Trace Stage.Result}, (∀ y ∈ u, y.1 = .timerStart ip) →
      ∀ y ∈ u, ¬ StepFails y := by
    rintro u hu ⟨q, r⟩ hy
    obtain rfl := hu _ hy
    simp [StepFails]
  cases h with
  | stopped hst => exact hst.2.1
  | @current pre out tail htail =>
    have hnot : ∀ y ∈ prepared plan ip k8sName pre out ++
        ⟨.bootcUpgradeApply ip name, .ok .alreadyCurrent⟩ :: tail, ¬ StepFails y := by
      refine List.forall_mem_append.mpr ⟨hprep, List.forall_mem_cons.mpr ⟨by simp [StepFails], ?_⟩⟩
      obtain ⟨-, hu⟩ | ⟨-, r, u, rfl, hu⟩ := htail
      · exact htimer hu
      · exact List.forall_mem_cons.mpr ⟨not_stepFails_uncordon r, htimer hu⟩
    exact absurd hf (hnot x hx)
  | @applied pre out drop r u hu =>
    have hpassed : ∀ y ∈ passed ip k8sName pre drop, ¬ StepFails y := by simp [passed, StepFails]
    have hnot : ∀ y ∈ prepared plan ip k8sName pre out ++ ⟨.bootcUpgradeApply ip name, .ok .applied⟩ ::
        (passed ip k8sName pre drop ++ ⟨.cpKubectl (uncordonCommand k8sName), r⟩ :: u),
        ¬ StepFails y := by
      refine List.forall_mem_append.mpr ⟨hprep, List.forall_mem_cons.mpr ⟨by simp [StepFails], ?_⟩⟩
      exact List.forall_mem_append.mpr
        ⟨hpassed, List.forall_mem_cons.mpr ⟨not_stepFails_uncordon r, htimer hu⟩⟩
    exact absurd hf (hnot x hx)

/-- SSH answers on the node. -/
def AnsweredAgain (plan : Plan) (ip : String) (t : Trace Reply) : Prop :=
  ∃ stdout stderr, ⟨.ssh ((nodeSshOpts plan ip).withConnectTimeout 3) "true" none,
    .exited (.code 0) stdout stderr⟩ ∈ t

/-- A read of the boot ID printed one that is not the captured one. -/
def BootidChanged (plan : Plan) (node pre : String) (t : Trace Reply) : Prop :=
  ∃ val, .ok val ∈ kubectlReads plan (bootidCommand node) t ∧ trim val ≠ "" ∧ trim val ≠ pre

/-- A read of the node printed `Ready` or `Ready,..` in the second column. -/
def ReadySeen (plan : Plan) (node : String) (t : Trace Reply) : Prop :=
  ∃ stdout, .ok stdout ∈ kubectlReads plan (getNodeCommand node) t ∧
    ∃ line ∈ lines stdout, ∃ name status rest, splitWhitespace line = name :: status :: rest ∧
      (status = "Ready" ∨ startsWith status "Ready," = true)

/-- What a run has done, in this order, before it may uncordon: found no update; or
rebooted into one, and seen SSH, another boot ID, Ready and the DaemonSets since. -/
inductive UncordonDue (plan : Plan) (name ip k8sName : String) : Trace Reply → Prop
  | current {u up : Trace Reply}
      (hup : Finishes (bootcUpgradeApply plan ip name) up (.ok .alreadyCurrent)) :
      UncordonDue plan name ip k8sName (u ++ up)
  | applied {u cap up drop back boot ready sets : Trace Reply} {pre : String}
      (hcap : Finishes (captureNodeBootid plan k8sName) cap (.ok pre))
      (hup : Finishes (bootcUpgradeApply plan ip name) up (.ok .applied))
      (hback : AnsweredAgain plan ip back)
      (hboot : pre = "" ∨ BootidChanged plan k8sName pre boot)
      (hready : ReadySeen plan k8sName ready)
      (hsets : Finishes (waitNodeDaemonsetsReady plan k8sName) sets (.ok ())) :
      UncordonDue plan name ip k8sName
        (u ++ (cap ++ (up ++ (drop ++ (back ++ (boot ++ (ready ++ sets)))))))

theorem uncordonDue_of_reached (hd : plan.dryRun = false) (hg : plan.skipGates = false)
    {w : Trace Reply} (h : Reached name ip k8sName t) (hc : Carries (Stage.perform plan) t w) :
    UncordonDue plan name ip k8sName w := by
  cases h with
  | current u =>
    obtain ⟨w₁, w₂, rfl, -, h₂⟩ := carries_append.mp hc
    obtain ⟨up, v, rfl, hup, hv⟩ := carries_cons.mp h₂
    rw [carries_nil.mp hv, List.append_nil]
    exact .current hup
  | applied u pre drop =>
    obtain ⟨w₁, w₂, rfl, -, h₂⟩ := carries_append.mp hc
    obtain ⟨cap, v₁, rfl, hcap, k₁⟩ := carries_cons.mp h₂
    obtain ⟨up, v₂, rfl, hup, k₂⟩ := carries_cons.mp k₁
    obtain ⟨dr, v₃, rfl, -, k₃⟩ := carries_cons.mp k₂
    obtain ⟨back, v₄, rfl, hback, k₄⟩ := carries_cons.mp k₃
    obtain ⟨boot, v₅, rfl, hboot, k₅⟩ := carries_cons.mp k₄
    obtain ⟨ready, v₆, rfl, hready, k₆⟩ := carries_cons.mp k₅
    obtain ⟨sets, v₇, rfl, hsets, k₇⟩ := carries_cons.mp k₆
    obtain ⟨stdout, hout, hst⟩ := waitNodeReady_ok hd hready
    rw [carries_nil.mp k₇, List.append_nil]
    exact .applied hcap hup (waitSshBack_ok hd hback) (waitNodeBootidChanged_ok hd hg hboot)
      ⟨stdout, hout, stdoutHasReadyStatus_iff.mp hst⟩ hsets

theorem cpKubectl_at_most_once {command : String} {u : Trace Reply} {o : Except Failure String}
    (h : Finishes (cpKubectl plan command) u o) : u.length ≤ 1 := by
  cases hd : plan.dryRun with
  | true =>
    obtain ⟨rfl, -⟩ := (finishes_cpKubectl_dryRun hd).mp h
    simp
  | false =>
    cases hr : refusal command with
    | none =>
      obtain ⟨e, rfl, -⟩ := (finishes_cpKubectl hd hr).mp h
      simp
    | some text =>
      obtain ⟨rfl, -⟩ := (finishes_cpKubectl_refused hd hr).mp h
      simp

theorem begins_uncordon : Begins 'u' "uncordon " := ⟨_, String.toList_ofList⟩

/-- An uncordon on the wire is the single child of a stage that tries one. -/
theorem uncordon_carried {w₁ w₂ : Trace Reply} {y : Exchange Reply}
    (hc : Carries (Stage.perform plan) t (w₁ ++ y :: w₂)) (hy : RunsKubectl "uncordon " y.1) :
    ∃ s₁ x s₂, t = s₁ ++ x :: s₂ ∧ TriesUncordon x ∧ Carries (Stage.perform plan) s₁ w₁ := by
  obtain ⟨s₁, s₂, q, r, u, v, w, z, rfl, rfl, rfl, hs, hr, -⟩ := hc.split
  obtain ⟨rest, rfl, -⟩ := stage_runsKubectl begins_uncordon (by decide : 'g' ≠ 'u') hr
    (List.mem_append_right v (List.mem_cons_self ..)) hy
  have hlen := cpKubectl_at_most_once hr
  have hv : v = [] := by
    cases v with
    | nil => rfl
    | cons a v => simp at hlen
  rw [hv, List.append_nil]
  exact ⟨s₁, _, s₂, rfl, ⟨rest, rfl⟩, hs⟩

/-- In a live run with gates, whatever the steps return: an uncordon is issued only when
it is due, and none is issued once a step has failed. -/
theorem updateWorker_uncordonDue (plan : Plan) (name ip k8sName : String) (w : Trace Reply)
    (o : Except Failure Unit) (hd : plan.dryRun = false) (hg : plan.skipGates = false)
    (h : Finishes (onCluster plan (updateWorker plan name ip k8sName)) w o) :
    (∀ w₁ y w₂, w = w₁ ++ y :: w₂ → RunsKubectl "uncordon " y.1 →
      UncordonDue plan name ip k8sName w₁) ∧
    (∃ t, Finishes (updateWorker plan name ip k8sName) t o ∧ Carries (Stage.perform plan) t w) ∧
    ∀ t o', Finishes (updateWorker plan name ip k8sName) t o' → Carries (Stage.perform plan) t w →
      (∃ x ∈ t, StepFails x) → ∀ y ∈ w, ¬ RunsKubectl "uncordon " y.1 := by
  obtain ⟨t, ht, hc⟩ := finishes_onCluster.mp h
  refine ⟨?_, ⟨t, ht, hc⟩, ?_⟩
  · obtain ⟨t₁, lines, rfl, htrace, hlines⟩ := updateWorker_trace ht
    rintro w₁ y w₂ rfl hy
    obtain ⟨s₁, x, s₂, hs, hx, hcs⟩ := uncordon_carried hc hy
    exact uncordonDue_of_reached hd hg (uncordon_reached htrace hlines hx hs) hcs
  · rintro t o' ht hc ⟨x, hx, hf⟩ y hy hu
    obtain ⟨t₁, lines, rfl, htrace, hlines⟩ := updateWorker_trace ht
    obtain ⟨w₁, w₂, rfl⟩ := List.append_of_mem hy
    obtain ⟨s₁, z, s₂, hs, hz, -⟩ := uncordon_carried hc hu
    have hquiet : Quiet t₁ := by
      obtain hx | hx := List.mem_append.mp hx
      · exact quiet_of_stepFails htrace hx hf
      · obtain ⟨q, r⟩ := x
        obtain ⟨line, rfl⟩ := hlines _ hx
        exact absurd hf id
    exact not_quiet_of_split hz hs (quiet_append.mpr ⟨hquiet, lines_quiet hlines⟩)

/-- The run of a worker with nothing to update. -/
def currentRun : Trace Reply × Except Failure Unit :=
  play (scripted [printed "", printed "node/w1 drained", printed "boot-a", printed "sha256:a",
    printed "", printed "", printed "sha256:a", printed "node/w1 uncordoned", printed ""]) 0
    (onCluster .sample (updateWorker .sample "w1" "10.0.0.3" "w1")).run

theorem updateWorker_uncordonDue_current :
    (∀ w₁ y w₂, currentRun.1 = w₁ ++ y :: w₂ → RunsKubectl "uncordon " y.1 →
      UncordonDue .sample "w1" "10.0.0.3" "w1" w₁) ∧
    (∃ t, Finishes (updateWorker .sample "w1" "10.0.0.3" "w1") t currentRun.2 ∧
      Carries (Stage.perform .sample) t currentRun.1) ∧
    ∀ t o', Finishes (updateWorker .sample "w1" "10.0.0.3" "w1") t o' →
      Carries (Stage.perform .sample) t currentRun.1 →
      (∃ x ∈ t, StepFails x) → ∀ y ∈ currentRun.1, ¬ RunsKubectl "uncordon " y.1 :=
  updateWorker_uncordonDue .sample "w1" "10.0.0.3" "w1" _ _ rfl rfl (runs_play _ 0 _)

/-- A child was started for the `kubectl` command. -/
def Issued (command : String) (w : Trace Reply) : Prop :=
  ∃ y ∈ w, ∃ options stdin, y.1 = .ssh options (remoteKubectl command) stdin

/-- Every node that was to be uncordoned was to be drained in the same run. -/
def Paired (w : Trace Reply) : Prop :=
  ∀ node, Issued (uncordonCommand node) w → ∃ flags, Issued ("drain " ++ (node ++ (" " ++ flags))) w

/-- The upgrade was applied, and every gate after it passed. -/
def GatesPassed (name ip k8sName : String) (t : Trace Stage.Result) : Prop :=
  ⟨.bootcUpgradeApply ip name, .ok .applied⟩ ∈ t ∧ ⟨.waitSshBack ip, .ok ()⟩ ∈ t ∧
    (∃ pre, ⟨.waitNodeBootidChanged k8sName pre, .ok ()⟩ ∈ t) ∧
    ⟨.waitNodeReady k8sName, .ok ()⟩ ∈ t ∧ ⟨.waitNodeDaemonsetsReady k8sName, .ok ()⟩ ∈ t

theorem carried_of_mem {w : Trace Reply} {verb : String} {c : Char} (hverb : Begins c verb)
    (hg : 'g' ≠ c) (hc : Carries (Stage.perform plan) t w) {y : Exchange Reply} (hy : y ∈ w)
    (hv : RunsKubectl verb y.1) :
    ∃ rest r, ⟨.cpKubectl (verb ++ rest), r⟩ ∈ t ∧ y.1 = kubectlQuery plan (verb ++ rest) ∧
      plan.dryRun = false := by
  obtain ⟨⟨q, r⟩, hx, u, hr, hyu⟩ := hc.exists_of_mem hy
  obtain ⟨rest, rfl, hq⟩ := stage_runsKubectl hverb hg hr hyu hv
  refine ⟨rest, r, hx, hq, ?_⟩
  cases hd : plan.dryRun with
  | true =>
    obtain ⟨rfl, -⟩ := (finishes_cpKubectl_dryRun hd).mp hr
    cases hyu
  | false => rfl

/-- A stage that the shim does not refuse starts its child. -/
theorem issued_of_mem {w : Trace Reply} {command : String} {r : Except Failure String}
    (hd : plan.dryRun = false) (hr : refusal command = none)
    (hc : Carries (Stage.perform plan) t w) (hx : ⟨.cpKubectl command, r⟩ ∈ t) : Issued command w := by
  obtain ⟨u, hu, hw⟩ := hc.runs_of_mem hx
  obtain ⟨e, rfl, -⟩ := (finishes_cpKubectl hd hr).mp hu
  exact ⟨_, hw _ (List.mem_singleton_self _), _, _, rfl⟩

theorem refusal_uncordon (hd : plan.dryRun = false) {w : Trace Reply}
    (hc : Carries (Stage.perform plan) t w) (hx : ⟨.waitNodeReady k8sName, .ok ()⟩ ∈ t) :
    refusal (uncordonCommand k8sName) = none := by
  obtain ⟨u, hu, -⟩ := hc.runs_of_mem hx
  have hready : Finishes (waitNodeReady plan k8sName) u (.ok ()) := hu
  rw [waitNodeReady, hd, if_neg Bool.false_ne_true] at hready
  obtain ⟨-, v, out, -, hv, -⟩ := waitFor_ok hready
  have hget := refusal_of_ok hd hv
  rw [getNodeCommand] at hget
  obtain ⟨hnode, -, -⟩ := refusal_append.mp hget
  obtain ⟨-, hname, -⟩ := refusal_append.mp hnode
  have hverb : refusal "uncordon " = none := by decide +kernel
  have hlast : "uncordon ".toList.getLast? = some ' ' := by decide
  refine refusal_append.mpr ⟨hverb, hname, ?_⟩
  rintro x hx y - ⟨rfl, -⟩
  rw [hlast] at hx
  simp at hx

theorem begins_drain : Begins 'd' "drain " := ⟨_, String.toList_ofList⟩

/-- Which uncordon an update tries, and on what grounds. -/
theorem uncordon_grounds (h : WorkerTrace plan name ip k8sName t) {x : Exchange Stage.Result}
    (hx : x ∈ t) (hu : TriesUncordon x) :
    x.1 = .cpKubectl (uncordonCommand k8sName) ∧
      (plan.skipDrain = true → GatesPassed name ip k8sName t) ∧
      (plan.skipDrain = false → ∃ out, ⟨.cpKubectl (drainCommand plan k8sName), .ok out⟩ ∈ t) := by
  have hdrain : ∀ {pre out : String} {v : Trace Stage.Result}, plan.skipDrain = false →
      (⟨.cpKubectl (drainCommand plan k8sName), .ok out⟩ : Exchange Stage.Result) ∈
        prepared plan ip k8sName pre out ++ v := by
    intro pre out v hs
    simp [prepared, drained, hs]
  have honly : ∀ {l u : Trace Stage.Result} {r : Except Failure String}, Quiet l →
      (∀ y ∈ u, y.1 = .timerStart ip) → x ∈ l ++ ⟨.cpKubectl (uncordonCommand k8sName), r⟩ :: u →
      x.1 = .cpKubectl (uncordonCommand k8sName) := by
    intro l u r hl htimer hin
    obtain hin | hin := List.mem_append.mp hin
    · exact absurd hu (hl x hin)
    · obtain rfl | hin := List.mem_cons.mp hin
      · rfl
      · exact absurd hu (timers_quiet htimer x hin)
  cases h with
  | stopped hst => exact absurd hu (hst.2.1 x hx)
  | @current pre out tail htail =>
    obtain ⟨-, hu'⟩ | ⟨hs, r, u, rfl, hu'⟩ := htail
    · have hq : Quiet (prepared plan ip k8sName pre out ++
          ⟨.bootcUpgradeApply ip name, .ok .alreadyCurrent⟩ :: tail) := by
        simp [prepared_quiet, timers_quiet hu', TriesUncordon]
      exact absurd hu (hq x hx)
    · refine ⟨?_, fun hs' => absurd (hs.symm.trans hs') Bool.false_ne_true, fun hs' => ⟨out, hdrain hs'⟩⟩
      refine honly (l := prepared plan ip k8sName pre out ++
        [⟨.bootcUpgradeApply ip name, .ok .alreadyCurrent⟩]) ?_ hu' (by simpa using hx)
      simp [prepared_quiet, TriesUncordon]
  | @applied pre out drop r u hu' =>
    refine ⟨?_, fun _ => ?_, fun hs' => ⟨out, hdrain hs'⟩⟩
    · refine honly (l := prepared plan ip k8sName pre out ++
        ⟨.bootcUpgradeApply ip name, .ok .applied⟩ :: passed ip k8sName pre drop) ?_ hu' (by simpa using hx)
      simp [prepared_quiet, passed_quiet, TriesUncordon]
    · have hin : ∀ y ∈ passed ip k8sName pre drop, y ∈ prepared plan ip k8sName pre out ++
          ⟨.bootcUpgradeApply ip name, .ok .applied⟩ ::
            (passed ip k8sName pre drop ++ ⟨.cpKubectl (uncordonCommand k8sName), r⟩ :: u) := by
        intro y hy
        simp [hy]
      exact ⟨by simp, hin _ (by simp [passed]), ⟨pre, hin _ (by simp [passed])⟩,
        hin _ (by simp [passed]), hin _ (by simp [passed])⟩

/-- Behind passed gates the uncordon is tried. -/
theorem gates_then_uncordon (h : WorkerTrace plan name ip k8sName t)
    (hg : GatesPassed name ip k8sName t) : ∃ r, ⟨.cpKubectl (uncordonCommand k8sName), r⟩ ∈ t := by
  obtain ⟨-, -, -, -, hsets⟩ := hg
  have htimer : ∀ {u : Trace Stage.Result}, (∀ y ∈ u, y.1 = .timerStart ip) → Short u := by
    rintro u hu x hx node rfl
    cases hu _ hx
  cases h with
  | stopped hst => exact absurd rfl (hst.2.2 _ hsets k8sName)
  | @current pre out tail htail =>
    have hshort : Short (prepared plan ip k8sName pre out ++
        ⟨.bootcUpgradeApply ip name, .ok .alreadyCurrent⟩ :: tail) := by
      obtain ⟨-, hu⟩ | ⟨-, r, u, rfl, hu⟩ := htail
      · simp [prepared_quiet, htimer hu]
      · simp [prepared_quiet, htimer hu]
    exact absurd rfl (hshort _ hsets k8sName)
  | @applied pre out drop r u hu => exact ⟨r, by simp⟩

section Undrained

open Step

variable {α : Type} {φ : Stage → Prop} {q : Stage} {text : String}
  {p : Program Stage Stage.Result (Except Failure α)}

theorem puts_single (hq : φ q) : Puts φ (stage q) := puts_ask hq fun _ => puts_done φ _

theorem stays_must (hp : Puts φ p) : Stays φ (must p) := stays_call hp

theorem stays_mustFor (hp : Puts φ p) : Stays φ (mustFor text p) := stays_call (puts_context hp)

theorem stays_ignore (hp : Puts φ p) : Stays φ (ignore p) :=
  stays_call (puts_exec_bind (puts_outcome hp) fun _ => puts_done φ _)

/-- A stage that drains nothing. -/
def Undrained (q : Stage) : Prop := ∀ rest, q ≠ .cpKubectl ("drain " ++ rest)

theorem undrained_uncordon (k8sName : String) : Undrained (.cpKubectl (uncordonCommand k8sName)) :=
  fun _ h => begins_ne (begins_append begins_uncordon _) (begins_append begins_drain _)
    (by decide : 'u' ≠ 'd') (Stage.cpKubectl.inj h)

theorem stays_uncordonNode (k8sName : String) : Stays Undrained (uncordonNode k8sName) :=
  (stays_must (puts_single (undrained_uncordon k8sName))).bind fun _ => stays_modify _

theorem stays_finishWorker (ip : String) : Stays Undrained (finishWorker ip) :=
  (stays_must (puts_single (by simp [Undrained]))).bind fun _ => stays_modify _

theorem stays_prepareWorker (hs : plan.skipDrain = true) :
    Stays Undrained (prepareWorker plan ip k8sName) := by
  refine (stays_must (puts_single (by simp [Undrained]))).bind fun _ => .bind ?_ fun _ =>
    stays_must (puts_single (by simp [Undrained]))
  rw [drainNode, if_pos hs]
  exact stays_pure ()

theorem stays_workerGates : Stays Undrained (workerGates plan name ip k8sName pre) :=
  (stays_ignore (puts_single (by simp [Undrained]))).bind fun _ =>
  (stays_modify _).bind fun _ =>
  (stays_mustFor (puts_single (by simp [Undrained]))).bind fun _ =>
  (stays_modify _).bind fun _ =>
  (stays_mustFor (puts_single (by simp [Undrained]))).bind fun _ =>
  (stays_mustFor (puts_single (by simp [Undrained]))).bind fun _ =>
  (stays_modify _).bind fun _ =>
  (stays_mustFor (puts_single (by simp [Undrained]))).bind fun _ => stays_modify _

theorem stays_updateWorkerSteps (hs : plan.skipDrain = true) :
    Stays Undrained (updateWorkerSteps plan name ip k8sName) := by
  refine (stays_prepareWorker hs).bind fun pre =>
    (stays_mustFor (puts_single (by simp [Undrained]))).bind fun outcome => ?_
  cases outcome with
  | upgradeFailed => exact stays_fail _
  | alreadyCurrent =>
    refine .bind ?_ fun _ => stays_finishWorker ip
    rw [if_pos hs]
    exact stays_pure ()
  | applied =>
    exact stays_workerGates.bind fun _ =>
      (stays_uncordonNode k8sName).bind fun _ => stays_finishWorker ip

/-- With drains skipped an update has none, however it ends. -/
theorem updateWorker_undrained {o : Except Failure Unit} (hs : plan.skipDrain = true)
    (h : Finishes (updateWorker plan name ip k8sName) t o) : ∀ x ∈ t, Undrained x.1 := by
  obtain ⟨t₁, t₂, s', rfl, h₁, h₂⟩ := finishes_inScope h
  refine List.forall_mem_append.mpr ⟨stays_updateWorkerSteps hs _ t₁ _ h₁, fun x hx rest => ?_⟩
  obtain ⟨line, hline⟩ := puts_drop s' t₂ () h₂ x hx
  rw [hline]
  simp

end Undrained

/-- An update pairs every uncordon with a drain, unless it is live, skips drains, and was
applied behind passed gates; skipping them it drains nothing. -/
theorem updateWorker_paired_iff (plan : Plan) (name ip k8sName : String) (t : Trace Stage.Result)
    (w : Trace Reply) (o : Except Failure Unit)
    (h : Finishes (updateWorker plan name ip k8sName) t o) (hc : Carries (Stage.perform plan) t w) :
    (Paired w ↔
      ¬ (plan.dryRun = false ∧ plan.skipDrain = true ∧ GatesPassed name ip k8sName t)) ∧
    (plan.skipDrain = true → ∀ y ∈ w, ¬ RunsKubectl "drain " y.1) := by
  have hundrained : plan.skipDrain = true → ∀ y ∈ w, ¬ RunsKubectl "drain " y.1 := by
    intro hs y hy hdrain
    obtain ⟨rest, r, hx, -⟩ := carried_of_mem begins_drain (by decide : 'g' ≠ 'd') hc hy hdrain
    exact updateWorker_undrained hs h _ hx rest rfl
  refine ⟨?_, hundrained⟩
  obtain ⟨t₁, lines, rfl, htrace, hlines⟩ := updateWorker_trace h
  have hin : ∀ {x : Exchange Stage.Result}, x ∈ t₁ ++ lines → (∀ line, x.1 ≠ .eprintln line) →
      x ∈ t₁ := by
    intro x hx hn
    obtain hx | hx := List.mem_append.mp hx
    · exact hx
    · obtain ⟨line, hl⟩ := hlines x hx
      exact absurd hl (hn line)
  constructor
  · rintro hpair ⟨hd, hs, hg⟩
    obtain ⟨hup, hback, ⟨pre, hboot⟩, hready, hsets⟩ := hg
    obtain ⟨r, hr⟩ := gates_then_uncordon htrace ⟨hin hup (by simp), hin hback (by simp),
      ⟨pre, hin hboot (by simp)⟩, hin hready (by simp), hin hsets (by simp)⟩
    have href := refusal_uncordon hd hc hready
    obtain ⟨flags, y, hy, options, stdin, hq⟩ :=
      hpair k8sName (issued_of_mem hd href hc (List.mem_append_left lines hr))
    exact hundrained hs y hy ⟨options, _, stdin, hq⟩
  · rintro hnot node ⟨y, hy, options, stdin, hq⟩
    obtain ⟨rest, r, hx, hyq, hd⟩ := carried_of_mem begins_uncordon (by decide : 'g' ≠ 'u') hc hy
      ⟨options, node, stdin, hq⟩
    obtain ⟨hcmd, hskip, hdrain⟩ := uncordon_grounds htrace (hin hx (by simp)) ⟨rest, rfl⟩
    rw [hq] at hyq
    obtain ⟨-, hremote, -⟩ := Query.ssh.inj hyq
    have hnode : node = k8sName := append_left_cancel "uncordon "
      ((remoteKubectl_injective hremote).trans (Stage.cpKubectl.inj hcmd))
    cases hs : plan.skipDrain with
    | true =>
      obtain ⟨hup, hback, ⟨pre, hboot⟩, hready, hsets⟩ := hskip hs
      exact absurd ⟨hd, hs, List.mem_append_left _ hup, List.mem_append_left _ hback,
        ⟨pre, List.mem_append_left _ hboot⟩, List.mem_append_left _ hready,
        List.mem_append_left _ hsets⟩ hnot
    | false =>
      obtain ⟨out, hout⟩ := hdrain hs
      have hmem := List.mem_append_left lines hout
      obtain ⟨u, hu, -⟩ := hc.runs_of_mem hmem
      rw [hnode]
      refine ⟨drainFlags plan, ?_⟩
      rw [← drainCommand_eq]
      exact issued_of_mem hd (refusal_of_ok hd hu) hc hmem

theorem updateWorker_paired_iff_current :
    ∃ t, Finishes (updateWorker .sample "w1" "10.0.0.3" "w1") t currentRun.2 ∧
      (Paired currentRun.1 ↔ ¬ (Plan.sample.dryRun = false ∧ Plan.sample.skipDrain = true ∧
        GatesPassed "w1" "10.0.0.3" "w1" t)) ∧
      (Plan.sample.skipDrain = true → ∀ y ∈ currentRun.1, ¬ RunsKubectl "drain " y.1) := by
  obtain ⟨t, ht, hc⟩ := finishes_onCluster.mp (runs_play (scripted _) 0 _)
  exact ⟨t, ht, updateWorker_paired_iff .sample "w1" "10.0.0.3" "w1" t _ _ ht hc⟩

/-- A live run with `--skip-drain` and `--skip-gates`. -/
def skipDrainPlan : Plan := { Plan.sample with skipDrain := true, skipGates := true }

/-- The node is rebooted into its update and turns Ready. -/
def skipDrainTrace : Trace Reply :=
  [⟨kubectlQuery skipDrainPlan (bootidCommand "w1"), printed "boot-a"⟩,
    ⟨.ssh (nodeSshOpts skipDrainPlan "10.0.0.3") digestCommand none, printed "sha256:a"⟩,
    ⟨.ssh (nodeSshOpts skipDrainPlan "10.0.0.3") applyProbeCommand none, printed ""⟩,
    ⟨.ssh (nodeSshOpts skipDrainPlan "10.0.0.3") applyCommand none, failed 255⟩,
    ⟨.ssh ((nodeSshOpts skipDrainPlan "10.0.0.3").withConnectTimeout 3) "true" none, failed 255⟩,
    ⟨.ssh ((nodeSshOpts skipDrainPlan "10.0.0.3").withConnectTimeout 3) "true" none, printed ""⟩,
    ⟨kubectlQuery skipDrainPlan (getNodeCommand "w1"), printed "w1 Ready"⟩,
    ⟨kubectlQuery skipDrainPlan (uncordonCommand "w1"), printed "node/w1 uncordoned"⟩]

/-- With drains skipped the node is uncordoned all the same. -/
theorem updateWorker_unpaired :
    Finishes (onCluster skipDrainPlan (updateWorker skipDrainPlan "w1" "10.0.0.3" "w1"))
      skipDrainTrace (.ok ()) ∧ ¬ Paired skipDrainTrace := by
  refine ⟨finishes_of_play (scripted [printed "boot-a", printed "sha256:a", printed "", failed 255,
    failed 255, printed "", printed "w1 Ready", printed "node/w1 uncordoned"]) (by decide +kernel),
    fun hpair => ?_⟩
  obtain ⟨flags, y, hy, options, stdin, hq⟩ := hpair "w1" ⟨⟨kubectlQuery skipDrainPlan
    (uncordonCommand "w1"), printed "node/w1 uncordoned"⟩, by simp [skipDrainTrace], _, _, rfl⟩
  have hkubectl : ∀ {command : String} {c : Char}, Begins c command → c ≠ 'd' →
      kubectlQuery skipDrainPlan command ≠
        .ssh options (remoteKubectl ("drain " ++ ("w1" ++ (" " ++ flags)))) stdin := by
    intro command c hb hc hk
    exact begins_ne hb (begins_append begins_drain _) hc
      (remoteKubectl_injective (Query.ssh.inj hk).2.1)
  have hforeign : ∀ {command : String} {o : SshOptions}, Foreign command →
      Query.ssh o command none ≠
        .ssh options (remoteKubectl ("drain " ++ ("w1" ++ (" " ++ flags)))) stdin :=
    fun hf hk => hf _ (Query.ssh.inj hk).2.1
  obtain ⟨-, -, hdigest, hprobe, happly, -, -, htrue⟩ := commands_foreign
  simp only [skipDrainTrace, List.mem_cons, List.not_mem_nil, or_false] at hy
  obtain rfl | rfl | rfl | rfl | rfl | rfl | rfl | rfl := hy
  · exact hkubectl (begins_bootidCommand _) (by decide) hq
  · exact hforeign hdigest hq
  · exact hforeign hprobe hq
  · exact hforeign happly hq
  · exact hforeign htrue hq
  · exact hforeign htrue hq
  · exact hkubectl (begins_getNodeCommand _) (by decide) hq
  · exact hkubectl (begins_append begins_uncordon _) (by decide) hq

end Hbird.UpdateCluster
