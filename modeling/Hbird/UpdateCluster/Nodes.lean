import Hbird.UpdateCluster.Stage

namespace Hbird.UpdateCluster

open Hbird.Interaction Hbird.Ssh Hbird.Text

/-- What is left of a node's update when it is cut short. -/
structure InFlight where
  node : String
  cpIp : String
  drained : Bool
  uncordoned : Bool
  phase : String
  deriving DecidableEq, Repr

namespace InFlight

def start (node cpIp phase : String) : InFlight := ⟨node, cpIp, false, false, phase⟩

def markDrained (s : InFlight) : InFlight := { s with drained := true }

def markUncordoned (s : InFlight) : InFlight := { s with uncordoned := true }

def clearInFlight (_ : InFlight) : InFlight := ⟨"", "", false, false, ""⟩

def hint (s : InFlight) : List String :=
  ["", "[update-cluster] ============================================================",
    "[update-cluster] WARNING: node " ++ s.node ++ " is cordoned and was not uncordoned."] ++
  (if s.phase = "" then [] else ["[update-cluster] in-flight phase: " ++ s.phase]) ++
  ["[update-cluster] Restore it manually once you have verified its state:",
    "[update-cluster]   ssh root@" ++ s.cpIp ++
      " \"kubectl --kubeconfig=/etc/kubernetes/admin.conf uncordon " ++ s.node ++ "\"",
    "[update-cluster] ============================================================"]

end InFlight

abbrev NodeExec (α : Type) := Exec Stage Stage.Result Failure α

def stage (q : Stage) : Program Stage Stage.Result q.Result := Program.perform q

def printLines : List String → Program Stage Stage.Result Unit
  | [] => .done ()
  | line :: rest => .ask (.eprintln line) fun _ => printLines rest

/-- `Drop`: the recovery command, for a node that was drained and not uncordoned. -/
def InFlight.drop (s : InFlight) : Program Stage Stage.Result Unit :=
  if s.drained && !s.uncordoned && s.node ≠ "" then printLines s.hint else .done ()

/-- A part of a node's update, with the record that its destructor will see. -/
abbrev Step (α : Type) := Guarded Stage Stage.Result InFlight Failure α

namespace Step

/-- `stage?`. -/
def must {α : Type} (p : Program Stage Stage.Result (Except Failure α)) : Step α :=
  Guarded.call (ExceptT.mk p)

/-- `stage.with_context(..)?`. -/
def mustFor {α : Type} (text : String) (p : Program Stage Stage.Result (Except Failure α)) : Step α :=
  Guarded.call (Exec.context (.context text) (ExceptT.mk p))

/-- `let _ = stage;`. -/
def ignore {α : Type} (p : Program Stage Stage.Result (Except Failure α)) : Step Unit :=
  Guarded.call (Exec.outcome (ExceptT.mk p) >>= fun _ => pure ())

def phase (text : String) : Step Unit := Guarded.modify fun s => { s with phase := text }

/-- Run to the end of the scope that owns the record. -/
def inScope {α : Type} (x : Step α) (s : InFlight) : NodeExec α :=
  ExceptT.mk ((x s).untag >>= fun r => r.2.drop >>= fun _ => .done r.1)

end Step

open Step

/-- The gates of the control plane after its reboot. -/
def cpGates (plan : Plan) (pre : String) : Step Unit := do
  ignore (stage (.waitSshDrop plan.cpIp))
  mustFor ("CP " ++ plan.cpName ++ " did not come back over SSH within " ++ seconds plan.timeouts.ssh)
    (stage (.waitSshBack plan.cpIp))
  phase "post-reboot-pre-apiserver"
  mustFor ("CP " ++ plan.cpName ++ " apiserver did not return within " ++
    seconds plan.timeouts.apiserver) (stage .waitApiserverBack)
  phase "post-apiserver-pre-bootID"
  mustFor ("CP node " ++ plan.cpName ++ " bootID did not change after " ++
    seconds plan.timeouts.ready ++ " (apiserver may be serving stale state)")
    (stage (.waitNodeBootidChanged plan.cpK8sName pre))
  phase "post-bootID-pre-Ready"
  mustFor ("CP node " ++ plan.cpName ++ " did not reach Ready within " ++
    seconds plan.timeouts.ready) (stage (.waitNodeReady plan.cpK8sName))
  phase "post-Ready-pre-DaemonSet"
  mustFor ("CP " ++ plan.cpName ++ ": kube-system DaemonSet pods not Ready after " ++
    seconds plan.timeouts.daemonset) (stage (.waitNodeDaemonsetsReady plan.cpK8sName))

def updateCpSteps (plan : Plan) : Step Unit := do
  must (stage (.timerStop plan.cpIp))
  let pre ← must (stage (.captureNodeBootid plan.cpK8sName))
  let outcome ← mustFor ("update_cp(" ++ plan.cpName ++ "): bootc upgrade phase")
    (stage (.bootcUpgradeApply plan.cpIp plan.cpName))
  match outcome with
  | .alreadyCurrent => must (stage (.timerStart plan.cpIp))
  | .upgradeFailed =>
    Guarded.fail (.msg ("bootc upgrade on CP " ++ plan.cpName ++ " failed (see log above)"))
  | .applied => do
    cpGates plan pre
    must (stage (.timerStart plan.cpIp))

/-- Update the control plane: one node, so nothing to drain to. -/
def updateCp (plan : Plan) : NodeExec Unit :=
  inScope (updateCpSteps plan) (.start plan.cpK8sName plan.cpIp "pre-upgrade")

def drainFlags (plan : Plan) : String :=
  "--ignore-daemonsets --timeout=" ++ plan.timeouts.drain ++
    if plan.noDeleteEmptydirData then "" else " --delete-emptydir-data"

def drainCommand (plan : Plan) (k8sName : String) : String :=
  "drain " ++ k8sName ++ " " ++ drainFlags plan

def uncordonCommand (k8sName : String) : String := "uncordon " ++ k8sName

def drainNode (plan : Plan) (k8sName : String) : Step Unit :=
  if plan.skipDrain then pure ()
  else do
    let _ ← must (stage (.cpKubectl (drainCommand plan k8sName)))
    Guarded.modify InFlight.markDrained
    phase "post-drain"

/-- Up to the reboot: timer, drain, boot ID. -/
def prepareWorker (plan : Plan) (ip k8sName : String) : Step String := do
  must (stage (.timerStop ip))
  drainNode plan k8sName
  must (stage (.captureNodeBootid k8sName))

def uncordonNode (k8sName : String) : Step Unit := do
  let _ ← must (stage (.cpKubectl (uncordonCommand k8sName)))
  Guarded.modify InFlight.markUncordoned

def finishWorker (ip : String) : Step Unit := do
  must (stage (.timerStart ip))
  Guarded.modify InFlight.clearInFlight

/-- The way out when there was no update; what was not drained is not uncordoned. -/
def workerCurrent (plan : Plan) (ip k8sName : String) : Step Unit := do
  (if plan.skipDrain then pure () else uncordonNode k8sName)
  finishWorker ip

/-- The gates of a worker after its reboot. -/
def workerGates (plan : Plan) (name ip k8sName pre : String) : Step Unit := do
  ignore (stage (.waitSshDrop ip))
  phase "post-reboot-pre-ssh"
  mustFor (name ++ ": did not come back over SSH within " ++ seconds plan.timeouts.ssh)
    (stage (.waitSshBack ip))
  phase "post-bootID-pre-Ready"
  mustFor (name ++ ": node bootID did not change after " ++ seconds plan.timeouts.ready ++
    " (apiserver may be serving stale state)") (stage (.waitNodeBootidChanged k8sName pre))
  mustFor (name ++ ": did not reach Ready within " ++ seconds plan.timeouts.ready)
    (stage (.waitNodeReady k8sName))
  phase "post-Ready-pre-DaemonSet"
  mustFor (name ++ ": kube-system DaemonSet pods not Ready on this node after " ++
    seconds plan.timeouts.daemonset) (stage (.waitNodeDaemonsetsReady k8sName))
  phase "post-DaemonSet-pre-uncordon"

/-- The way out after an update. Here the uncordon does not look at `skip_drain`. -/
def workerApplied (plan : Plan) (name ip k8sName pre : String) : Step Unit := do
  workerGates plan name ip k8sName pre
  uncordonNode k8sName
  finishWorker ip

def updateWorkerSteps (plan : Plan) (name ip k8sName : String) : Step Unit := do
  let pre ← prepareWorker plan ip k8sName
  let outcome ← mustFor ("update_worker(" ++ name ++ "): bootc upgrade phase")
    (stage (.bootcUpgradeApply ip name))
  match outcome with
  | .upgradeFailed =>
    Guarded.fail (.msg (name ++ ": bootc upgrade --apply failed (see log above)"))
  | .alreadyCurrent => workerCurrent plan ip k8sName
  | .applied => workerApplied plan name ip k8sName pre

def updateWorker (plan : Plan) (name ip k8sName : String) : NodeExec Unit :=
  inScope (updateWorkerSteps plan name ip k8sName) (.start k8sName plan.cpIp "pre-drain")

section Runs

variable {α β : Type} {plan : Plan} {name ip k8sName pre text : String} {s s' : InFlight}
  {t : Trace Stage.Result} {p : Program Stage Stage.Result (Except Failure α)} {f : α → Step β}
  {o : Except Failure β}

theorem runs_stage {q : Stage} {r : q.Result} : Runs (stage q) t r ↔ t = [⟨q, r⟩] := runs_perform

theorem ends_must_bind :
    Ends (must p >>= f) s t o s' ↔
      (∃ e, o = .error e ∧ s' = s ∧ Runs p t (.error e)) ∨
        ∃ a t₁ t₂, t = t₁ ++ t₂ ∧ Runs p t₁ (.ok a) ∧ Ends (f a) s t₂ o s' := ends_call_bind

theorem ends_mustFor_bind (h : Ends (mustFor text p >>= f) s t o s') :
    (∃ e e', o = .error e ∧ Runs p t (.error e')) ∨
      ∃ a t₁ t₂, t = t₁ ++ t₂ ∧ Runs p t₁ (.ok a) ∧ Ends (f a) s t₂ o s' := by
  obtain ⟨e, rfl, -, he⟩ | ⟨a, t₁, t₂, rfl, h₁, h₂⟩ := ends_call_bind.mp h
  · obtain ⟨r, hr, hrun⟩ := finishes_context.mp he
    cases r with
    | ok a => cases hr
    | error e' => exact .inl ⟨e, e', rfl, hrun⟩
  · exact .inr ⟨a, t₁, t₂, rfl, finishes_context_ok.mp h₁, h₂⟩

theorem ends_ignore_bind {g : Unit → Step β} (h : Ends (ignore p >>= g) s t o s') :
    ∃ r t₁ t₂, t = t₁ ++ t₂ ∧ Runs p t₁ r ∧ Ends (g ()) s t₂ o s' := by
  obtain ⟨e, rfl, -, he⟩ | ⟨a, t₁, t₂, rfl, h₁, h₂⟩ := ends_call_bind.mp h
  · obtain ⟨r, u, v, rfl, hu, hv⟩ := finishes_outcome_bind.mp he
    cases (finishes_pure.mp hv).2
  · obtain ⟨r, u, v, rfl, hu, hv⟩ := finishes_outcome_bind.mp h₁
    obtain ⟨rfl, -⟩ := finishes_pure.mp hv
    exact ⟨r, u, t₂, by rw [List.append_nil], hu, h₂⟩

/-- A step that ends the update before its uncordon: a helper other than the uncordon, the
timer start and the watch for the drop has failed, or bootc has. -/
def StepFails : Exchange Stage.Result → Prop
  | ⟨.timerStop _, r⟩ => ∃ e, r = .error e
  | ⟨.cpKubectl command, r⟩ => (∃ rest, command = "drain " ++ rest) ∧ ∃ e, r = .error e
  | ⟨.captureNodeBootid _, r⟩ => ∃ e, r = .error e
  | ⟨.bootcUpgradeApply _ _, r⟩ => r = .ok .upgradeFailed ∨ ∃ e, r = .error e
  | ⟨.waitSshBack _, r⟩ => ∃ e, r = .error e
  | ⟨.waitNodeBootidChanged _ _, r⟩ => ∃ e, r = .error e
  | ⟨.waitNodeReady _, r⟩ => ∃ e, r = .error e
  | ⟨.waitNodeDaemonsetsReady _, r⟩ => ∃ e, r = .error e
  | _ => False

def TriesUncordon (x : Exchange Stage.Result) : Prop :=
  ∃ rest, x.1 = .cpKubectl ("uncordon " ++ rest)

/-- No uncordon was tried. -/
def Quiet (t : Trace Stage.Result) : Prop := ∀ x ∈ t, ¬ TriesUncordon x

@[simp] theorem quiet_nil : Quiet [] := by simp [Quiet]

@[simp] theorem quiet_cons {x : Exchange Stage.Result} :
    Quiet (x :: t) ↔ ¬ TriesUncordon x ∧ Quiet t := List.forall_mem_cons

@[simp] theorem quiet_append {u : Trace Stage.Result} : Quiet (u ++ t) ↔ Quiet u ∧ Quiet t :=
  List.forall_mem_append

/-- The last gate was not passed. -/
def Short (t : Trace Stage.Result) : Prop :=
  ∀ x ∈ t, ∀ node, x ≠ ⟨.waitNodeDaemonsetsReady node, .ok ()⟩

@[simp] theorem short_nil : Short [] := by simp [Short]

@[simp] theorem short_cons {x : Exchange Stage.Result} :
    Short (x :: t) ↔ (∀ node, x ≠ ⟨.waitNodeDaemonsetsReady node, .ok ()⟩) ∧ Short t :=
  List.forall_mem_cons

@[simp] theorem short_append {u : Trace Stage.Result} : Short (u ++ t) ↔ Short u ∧ Short t :=
  List.forall_mem_append

/-- A trace in which a step failed, before the last gate and before any uncordon. -/
def Stopped (t : Trace Stage.Result) : Prop := (∃ x ∈ t, StepFails x) ∧ Quiet t ∧ Short t

theorem Stopped.append {u : Trace Stage.Result} (hu : Quiet u ∧ Short u) (h : Stopped t) :
    Stopped (u ++ t) := by
  obtain ⟨⟨x, hx, hf⟩, hq, hs⟩ := h
  exact ⟨⟨x, List.mem_append_right u hx, hf⟩, quiet_append.mpr ⟨hu.1, hq⟩,
    short_append.mpr ⟨hu.2, hs⟩⟩

theorem stopped_singleton {x : Exchange Stage.Result} (hf : StepFails x)
    (hx : ¬ TriesUncordon x) : Stopped [x] := by
  refine ⟨⟨x, List.mem_singleton_self x, hf⟩, by simp [hx], ?_⟩
  rintro y hy node rfl
  rw [← List.mem_singleton.mp hy] at hf
  obtain ⟨e, he⟩ := hf
  cases he

theorem drainCommand_eq (plan : Plan) (k8sName : String) :
    drainCommand plan k8sName = "drain " ++ (k8sName ++ (" " ++ drainFlags plan)) := by
  simp only [drainCommand, String.append_assoc]

theorem drainCommand_ne (rest : String) : drainCommand plan k8sName ≠ "uncordon " ++ rest :=
  begins_ne (begins_append (begins_append (begins_append ⟨_, String.toList_ofList⟩ _) _) _)
    (begins_append ⟨_, String.toList_ofList⟩ _) (by decide : 'd' ≠ 'u')

def drained (plan : Plan) (k8sName out : String) : Trace Stage.Result :=
  if plan.skipDrain then [] else [⟨.cpKubectl (drainCommand plan k8sName), .ok out⟩]

theorem not_triesUncordon_drain {r : Except Failure String} :
    ¬ TriesUncordon ⟨.cpKubectl (drainCommand plan k8sName), r⟩ := by
  rintro ⟨rest, hr⟩
  exact drainCommand_ne rest (Stage.cpKubectl.inj hr)

theorem drained_quiet {out : String} :
    Quiet (drained plan k8sName out) ∧ Short (drained plan k8sName out) := by
  unfold drained
  split <;> simp [not_triesUncordon_drain]

theorem drainNode_ends {o : Except Failure Unit} (h : Ends (drainNode plan k8sName) s t o s') :
    (∃ out, o = .ok () ∧ t = drained plan k8sName out) ∨ (∃ e, o = .error e) ∧ Stopped t := by
  unfold drainNode at h
  split at h
  · next hs =>
    obtain ⟨rfl, rfl, -⟩ := ends_pure.mp h
    exact .inl ⟨"", rfl, by rw [drained, if_pos hs]⟩
  · next hs =>
    obtain ⟨e, rfl, -, he⟩ | ⟨out, t₁, t₂, rfl, h₁, h₂⟩ := ends_must_bind.mp h
    · rw [runs_stage.mp he]
      exact .inr ⟨⟨e, rfl⟩, stopped_singleton ⟨⟨_, drainCommand_eq plan k8sName⟩, e, rfl⟩
        not_triesUncordon_drain⟩
    · obtain ⟨rfl, rfl, -⟩ := ends_modify.mp (ends_modify_bind.mp h₂)
      refine .inl ⟨out, rfl, ?_⟩
      rw [drained, if_neg hs, runs_stage.mp h₁, List.append_nil]

/-- The stages that lead to the upgrade, when all of them succeed. -/
def prepared (plan : Plan) (ip k8sName pre out : String) : Trace Stage.Result :=
  ⟨.timerStop ip, .ok ()⟩ :: (drained plan k8sName out ++ [⟨.captureNodeBootid k8sName, .ok pre⟩])

theorem prepared_quiet {out : String} :
    Quiet (prepared plan ip k8sName pre out) ∧ Short (prepared plan ip k8sName pre out) := by
  simp [prepared, drained_quiet, TriesUncordon]

theorem prepareWorker_ends {o : Except Failure String}
    (h : Ends (prepareWorker plan ip k8sName) s t o s') :
    (∃ pre out, o = .ok pre ∧ t = prepared plan ip k8sName pre out) ∨
      (∃ e, o = .error e) ∧ Stopped t := by
  obtain ⟨e, rfl, -, he⟩ | ⟨u, t₁, t₂, rfl, h₁, h₂⟩ := ends_must_bind.mp h
  · rw [runs_stage.mp he]
    exact .inr ⟨⟨e, rfl⟩, stopped_singleton ⟨e, rfl⟩ (by simp [TriesUncordon])⟩
  · have hstop : t₁ = [⟨.timerStop ip, .ok u⟩] := runs_stage.mp h₁
    subst hstop
    have hquiet : Quiet [⟨.timerStop ip, .ok u⟩] ∧ Short [⟨.timerStop ip, .ok u⟩] := by
      simp [TriesUncordon]
    obtain ⟨e, rfl, he⟩ | ⟨u', s₁, t₃, t₄, rfl, h₃, h₄⟩ := ends_bind.mp h₂
    · obtain ⟨out, ho, -⟩ | ⟨-, hst⟩ := drainNode_ends he
      · cases ho
      · exact .inr ⟨⟨e, rfl⟩, hst.append hquiet⟩
    · obtain ⟨out, -, rfl⟩ | ⟨⟨e, he⟩, -⟩ := drainNode_ends h₃
      · obtain ⟨-, hcap⟩ := ends_call.mp h₄
        have hcap' : t₄ = [⟨.captureNodeBootid k8sName, o⟩] := runs_stage.mp hcap
        subst hcap'
        cases o with
        | ok pre => exact .inl ⟨pre, out, rfl, rfl⟩
        | error e =>
          refine .inr ⟨⟨e, rfl⟩, Stopped.append hquiet (Stopped.append drained_quiet ?_)⟩
          exact stopped_singleton ⟨e, rfl⟩ (by simp [TriesUncordon])
      · cases he

/-- The gates of a worker, all passed. -/
def passed (ip k8sName pre : String) (drop : Except Failure Unit) : Trace Stage.Result :=
  [⟨.waitSshDrop ip, drop⟩, ⟨.waitSshBack ip, .ok ()⟩, ⟨.waitNodeBootidChanged k8sName pre, .ok ()⟩,
    ⟨.waitNodeReady k8sName, .ok ()⟩, ⟨.waitNodeDaemonsetsReady k8sName, .ok ()⟩]

theorem passed_quiet {drop : Except Failure Unit} : Quiet (passed ip k8sName pre drop) := by
  simp [passed, TriesUncordon]

/-- One gate: it fails and nothing follows, or it is passed. -/
theorem ends_gate_bind {p : Program Stage Stage.Result (Except Failure Unit)}
    {x : Except Failure Unit → Exchange Stage.Result} (hp : ∀ t r, Runs p t r → t = [x r])
    (hx : ∀ e, StepFails (x (.error e)))
    (hq : ∀ r, ¬ TriesUncordon (x r)) {g : Unit → Step β}
    (h : Ends (mustFor text p >>= g) s t o s') :
    ((∃ e, o = .error e) ∧ Stopped t) ∨
      ∃ u, t = x (.ok ()) :: u ∧
        ((∀ node, x (.ok ()) ≠ ⟨.waitNodeDaemonsetsReady node, .ok ()⟩) → Stopped u → Stopped t) ∧
        Ends (g ()) s u o s' := by
  obtain ⟨e, e', rfl, he⟩ | ⟨_, t₁, u, rfl, h₁, h₂⟩ := ends_mustFor_bind h
  · rw [hp _ _ he]
    exact .inl ⟨⟨e, rfl⟩, stopped_singleton (hx e') (hq _)⟩
  · rw [hp _ _ h₁]
    refine .inr ⟨u, rfl, fun hn hu => hu.append (u := [x (.ok ())]) ?_, h₂⟩
    exact ⟨quiet_cons.mpr ⟨hq _, quiet_nil⟩, short_cons.mpr ⟨hn, short_nil⟩⟩

theorem workerGates_ends {o : Except Failure Unit}
    (h : Ends (workerGates plan name ip k8sName pre) s t o s') :
    (∃ drop, o = .ok () ∧ t = passed ip k8sName pre drop) ∨ (∃ e, o = .error e) ∧ Stopped t := by
  obtain ⟨drop, t₁, u₁, rfl, h₁, k₁⟩ := ends_ignore_bind h
  have hdrop : t₁ = [⟨.waitSshDrop ip, drop⟩] := runs_stage.mp h₁
  subst hdrop
  have hstop : Stopped u₁ → Stopped ([⟨.waitSshDrop ip, drop⟩] ++ u₁) := Stopped.append (by simp [TriesUncordon])
  have hback := ends_modify_bind.mp k₁
  obtain ⟨he, hst⟩ | ⟨u₂, rfl, hs₂, k₂⟩ := ends_gate_bind (x := fun r => ⟨.waitSshBack ip, r⟩)
    (fun _ _ => runs_stage.mp) (fun e => ⟨e, rfl⟩) (by simp [TriesUncordon]) hback
  · exact .inr ⟨he, hstop hst⟩
  have hboot := ends_modify_bind.mp k₂
  obtain ⟨he, hst⟩ | ⟨u₃, rfl, hs₃, k₃⟩ :=
    ends_gate_bind (x := fun r => ⟨.waitNodeBootidChanged k8sName pre, r⟩)
    (fun _ _ => runs_stage.mp) (fun e => ⟨e, rfl⟩) (by simp [TriesUncordon]) hboot
  · exact .inr ⟨he, hstop (hs₂ (by simp) hst)⟩
  obtain ⟨he, hst⟩ | ⟨u₄, rfl, hs₄, k₄⟩ := ends_gate_bind (x := fun r => ⟨.waitNodeReady k8sName, r⟩)
    (fun _ _ => runs_stage.mp) (fun e => ⟨e, rfl⟩) (by simp [TriesUncordon]) k₃
  · exact .inr ⟨he, hstop (hs₂ (by simp) (hs₃ (by simp) hst))⟩
  have hready := ends_modify_bind.mp k₄
  obtain ⟨he, hst⟩ | ⟨u₅, rfl, -, k₅⟩ :=
    ends_gate_bind (x := fun r => ⟨.waitNodeDaemonsetsReady k8sName, r⟩)
    (fun _ _ => runs_stage.mp) (fun e => ⟨e, rfl⟩) (by simp [TriesUncordon]) hready
  · exact .inr ⟨he, hstop (hs₂ (by simp) (hs₃ (by simp) (hs₄ (by simp) hst)))⟩
  obtain ⟨rfl, rfl, -⟩ := ends_modify.mp k₅
  exact .inl ⟨drop, rfl, rfl⟩

theorem finishWorker_ends {o : Except Failure Unit} (h : Ends (finishWorker ip) s t o s') :
    ∀ x ∈ t, x.1 = .timerStart ip := by
  obtain ⟨e, rfl, -, he⟩ | ⟨u, t₁, t₂, rfl, h₁, h₂⟩ := ends_must_bind.mp h
  · rw [runs_stage.mp he]
    simp
  · obtain ⟨rfl, -, -⟩ := ends_modify.mp h₂
    rw [runs_stage.mp h₁]
    simp

/-- The uncordon, and the timer if it worked. -/
theorem uncordon_finish_ends {o : Except Failure Unit}
    (h : Ends (uncordonNode k8sName >>= fun _ => finishWorker ip) s t o s') :
    ∃ r u, t = ⟨.cpKubectl (uncordonCommand k8sName), r⟩ :: u ∧ ∀ x ∈ u, x.1 = .timerStart ip := by
  have huncordon : ∀ {o' : Except Failure Unit} {t' : Trace Stage.Result} {s₁ s₂ : InFlight},
      Ends (uncordonNode k8sName) s₁ t' o' s₂ →
        ∃ r, t' = [⟨.cpKubectl (uncordonCommand k8sName), r⟩] := by
    intro o' t' s₁ s₂ hu
    obtain ⟨e, -, -, he⟩ | ⟨out, t₁, t₂, rfl, h₁, h₂⟩ := ends_must_bind.mp hu
    · exact ⟨_, runs_stage.mp he⟩
    · obtain ⟨rfl, -, -⟩ := ends_modify.mp h₂
      exact ⟨.ok out, by rw [runs_stage.mp h₁, List.append_nil]⟩
  obtain ⟨e, -, he⟩ | ⟨_, s₁, t₁, t₂, rfl, h₁, h₂⟩ := ends_bind.mp h
  · obtain ⟨r, rfl⟩ := huncordon he
    exact ⟨r, [], rfl, by simp⟩
  · obtain ⟨r, rfl⟩ := huncordon h₁
    exact ⟨r, t₂, rfl, finishWorker_ends h₂⟩

/-- The stage traces of a worker's update: it stops on a failed step before any uncordon; or
there was no update, and the uncordon is tried unless nothing was drained; or there was
one, all gates were passed, and the uncordon is tried. -/
inductive WorkerTrace (plan : Plan) (name ip k8sName : String) : Trace Stage.Result → Prop
  | stopped {t : Trace Stage.Result} (h : Stopped t) : WorkerTrace plan name ip k8sName t
  | current {pre out : String} {tail : Trace Stage.Result}
      (htail : (plan.skipDrain = true ∧ ∀ x ∈ tail, x.1 = .timerStart ip) ∨
        plan.skipDrain = false ∧ ∃ r u, tail = ⟨.cpKubectl (uncordonCommand k8sName), r⟩ :: u ∧
          ∀ x ∈ u, x.1 = .timerStart ip) :
      WorkerTrace plan name ip k8sName
        (prepared plan ip k8sName pre out ++ ⟨.bootcUpgradeApply ip name, .ok .alreadyCurrent⟩ :: tail)
  | applied {pre out : String} {drop : Except Failure Unit}
      {r : Except Failure String} {u : Trace Stage.Result} (hu : ∀ x ∈ u, x.1 = .timerStart ip) :
      WorkerTrace plan name ip k8sName
        (prepared plan ip k8sName pre out ++ ⟨.bootcUpgradeApply ip name, .ok .applied⟩ ::
          (passed ip k8sName pre drop ++ ⟨.cpKubectl (uncordonCommand k8sName), r⟩ :: u))

theorem updateWorkerSteps_trace {o : Except Failure Unit}
    (h : Ends (updateWorkerSteps plan name ip k8sName) s t o s') : WorkerTrace plan name ip k8sName t := by
  obtain ⟨e, -, he⟩ | ⟨pre, s₁, t₁, t₂, rfl, h₁, h₂⟩ := ends_bind.mp h
  · obtain ⟨pre, out, hp, -⟩ | ⟨-, hst⟩ := prepareWorker_ends he
    · cases hp
    · exact .stopped hst
  obtain ⟨pre', out, hp, rfl⟩ | ⟨⟨e, he⟩, -⟩ := prepareWorker_ends h₁
  on_goal 2 => cases he
  obtain rfl := Except.ok.inj hp
  obtain ⟨e, e', -, he⟩ | ⟨outcome, t₃, t₄, rfl, h₃, h₄⟩ := ends_mustFor_bind h₂
  · rw [runs_stage.mp he]
    exact .stopped (Stopped.append prepared_quiet
      (stopped_singleton (.inr ⟨e', rfl⟩) (by simp [TriesUncordon])))
  have hup : t₃ = [⟨.bootcUpgradeApply ip name, .ok outcome⟩] := runs_stage.mp h₃
  subst hup
  cases outcome with
  | upgradeFailed =>
    obtain ⟨rfl, -, -⟩ := ends_fail.mp h₄
    exact .stopped (Stopped.append prepared_quiet
      (stopped_singleton (.inl rfl) (by simp [TriesUncordon])))
  | alreadyCurrent =>
    refine .current ?_
    dsimp only [workerCurrent] at h₄
    cases hs : plan.skipDrain with
    | true =>
      rw [hs, if_pos rfl] at h₄
      exact .inl ⟨rfl, finishWorker_ends h₄⟩
    | false =>
      rw [hs, if_neg Bool.false_ne_true] at h₄
      exact .inr ⟨rfl, uncordon_finish_ends h₄⟩
  | applied =>
    obtain ⟨e, -, he⟩ | ⟨u, s₂, t₅, t₆, rfl, h₅, h₆⟩ := ends_bind.mp h₄
    · obtain ⟨drop, hd, -⟩ | ⟨-, hst⟩ := workerGates_ends he
      · cases hd
      · exact .stopped (Stopped.append prepared_quiet (Stopped.append (by simp [TriesUncordon]) hst))
    · obtain ⟨drop, -, rfl⟩ | ⟨⟨e, he⟩, -⟩ := workerGates_ends h₅
      · obtain ⟨r, u, rfl, hu⟩ := uncordon_finish_ends h₆
        exact .applied hu
      · cases he

/-- The destructor adds lines to the trace and nothing else. -/
theorem finishes_inScope {x : Step α} {o : Except Failure α}
    (h : Finishes (inScope x s) t o) :
    ∃ t₁ t₂ s', t = t₁ ++ t₂ ∧ Ends x s t₁ o s' ∧ Runs s'.drop t₂ () := by
  obtain ⟨⟨r, s'⟩, t₁, u, rfl, h₁, h₂⟩ := runs_bind.mp h
  obtain ⟨⟨⟩, t₂, v, rfl, h₃, h₄⟩ := runs_bind.mp h₂
  obtain ⟨rfl, rfl⟩ := runs_done.mp h₄
  exact ⟨t₁, t₂, s', by rw [List.append_nil], h₁, h₃⟩

theorem puts_printLines (lines : List String) :
    Puts (∃ line, · = .eprintln line) (printLines lines) := by
  induction lines with
  | nil => exact puts_done _ _
  | cons line rest ih => exact puts_ask ⟨line, rfl⟩ fun _ => ih

theorem puts_drop (s : InFlight) : Puts (∃ line, · = .eprintln line) s.drop := by
  unfold InFlight.drop
  split
  · exact puts_printLines _
  · exact puts_done _ _

theorem updateWorker_trace {o : Except Failure Unit}
    (h : Finishes (updateWorker plan name ip k8sName) t o) :
    ∃ t₁ t₂, t = t₁ ++ t₂ ∧ WorkerTrace plan name ip k8sName t₁ ∧
      ∀ x ∈ t₂, ∃ line, x.1 = .eprintln line := by
  obtain ⟨t₁, t₂, s', rfl, h₁, h₂⟩ := finishes_inScope h
  exact ⟨t₁, t₂, rfl, updateWorkerSteps_trace h₁, puts_drop s' t₂ () h₂⟩

end Runs

end Hbird.UpdateCluster
