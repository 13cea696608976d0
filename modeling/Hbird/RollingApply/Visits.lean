import Hbird.RollingApply.Script

namespace Hbird.RollingApply

open Hbird.Interaction Hbird.StagedCheck

/-- The commands that change something: the scheduling of a node, its pods, or whether it runs. -/
def Query.changes : Query → Bool
  | .cordon _ => true
  | .drain _ => true
  | .uncordon _ => true
  | .reboot _ => true
  | _ => false

/-- The changes of a trace. -/
def changes (l : Trace Reply) : Trace Reply := l.filter fun x => x.1.changes

/-- The milestones come in this order, and all changes are among them. -/
def Passes (milestones l : Trace Reply) : Prop :=
  milestones.Sublist l ∧ changes l = changes milestones

section Passes

variable {ms l : Trace Reply} {x : Exchange Reply}

theorem Passes.wait (h : Passes ms l) (hx : x.1.changes = false) : Passes ms (l ++ [x]) := by
  obtain ⟨hsub, heq⟩ := h
  refine ⟨hsub.trans (List.sublist_append_left l [x]), ?_⟩
  unfold changes at heq ⊢
  rw [List.filter_append, heq]
  simp [hx]

theorem Passes.add (h : Passes ms l) (x : Exchange Reply) : Passes (ms ++ [x]) (l ++ [x]) := by
  obtain ⟨hsub, heq⟩ := h
  refine ⟨hsub.append (List.Sublist.refl [x]), ?_⟩
  unfold changes at heq ⊢
  rw [List.filter_append, List.filter_append, heq]

/-- A milestone that changes nothing may be forgotten. -/
theorem Passes.drop (h : Passes (ms ++ [x]) l) (hx : x.1.changes = false) : Passes ms l := by
  obtain ⟨hsub, heq⟩ := h
  refine ⟨(List.sublist_append_left ms [x]).trans hsub, ?_⟩
  unfold changes at heq ⊢
  rw [heq, List.filter_append]
  simp [hx]

end Passes

/-- What the script sees of a node, from the lease to the image that it runs in the end. -/
structure Sights where
  leases : String
  staged : Shot
  boot : Shot
  poll : String
  kubelet : String
  ready : Shot
  booted : Shot

namespace Sights

/-- An image is staged, and the boot is known that is to end. -/
structure Probed (o : Sights) (t : Target) : Prop where
  found : t.ip = resolveIp o.leases
  staged_ok : o.staged.ok = true
  staged_ne : o.staged.text ≠ ""
  boot_ok : o.boot.ok = true

/-- The node has come back from another boot. -/
structure Returned (o : Sights) (t : Target) : Prop extends o.Probed t where
  poll_ne : substituted o.poll ≠ ""
  poll_new : substituted o.poll ≠ o.boot.text

/-- Its kubelet has registered that boot, the node is ready, and it runs what was staged. -/
structure Verified (o : Sights) (t : Target) : Prop extends o.Returned t where
  kubelet_new : kubeletBootId o.kubelet = substituted o.poll
  ready : nodeReady o.ready = true
  booted_ok : o.booted.ok = true
  booted_staged : o.booted.text = o.staged.text

end Sights

namespace Target

variable (t : Target) (o : Sights)

def probes : Trace Reply :=
  [⟨.resolveIp t.node, o.leases⟩, ⟨.stagedImage t.ip, o.staged⟩, ⟨.bootId t.ip, o.boot⟩]

/-- Only a worker is emptied ahead of its reboot. -/
def empties : Trace Reply :=
  if t.isCp then [] else [⟨.cordon t.node, true⟩, ⟨.drain t.node, true⟩]

def leaves : Trace Reply := t.probes o ++ t.empties ++ [⟨.reboot t.ip, ()⟩]

def returns : Trace Reply := t.leaves o ++ [⟨.pollBootId t.ip, o.poll⟩]

def registers : Trace Reply := t.returns o ++ [⟨.kubeletBootId t.node, o.kubelet⟩]

def isReady : Trace Reply := t.registers o ++ [⟨.getNode t.node, o.ready⟩]

def runsStaged : Trace Reply := t.isReady o ++ [⟨.bootedImage t.ip, o.booted⟩]

def readmits : Trace Reply := if t.isCp then [] else [⟨.uncordon t.node, true⟩]

end Target

/-- One node, and what the script has asked on its account. -/
structure Visit where
  target : Target
  log : Trace Reply

namespace Visit

def key (v : Visit) : String × Bool := (v.target.node, v.target.isCp)

/-- Nothing is staged, and nothing more is asked. -/
def Skipped (v : Visit) : Prop := ∃ leases staged, v.target.ip = resolveIp leases ∧
  v.log = [⟨.resolveIp v.target.node, leases⟩, ⟨.stagedImage v.target.ip, staged⟩] ∧
  staged.ok = true ∧ staged.text = ""

/-- The node is emptied, rebooted, seen to run its staged image, and only then readmitted. -/
def Updated (v : Visit) : Prop := ∃ o : Sights, o.Verified v.target ∧
  Passes (v.target.runsStaged o ++ v.target.readmits) v.log

def Done (v : Visit) : Prop := v.Skipped ∨ v.Updated

/-- What may have been changed on the account of a node by the time that the script stops. -/
inductive Cautious (v : Visit) : Prop
  | untouched (h : changes v.log = [])
  | refused (o : Sights) (h : o.Probed v.target) (hworker : v.target.isCp = false)
      (hlog : Passes (v.target.probes o ++ [⟨.cordon v.target.node, false⟩]) v.log)
  | cordoned (o : Sights) (h : o.Probed v.target) (hworker : v.target.isCp = false)
      (hlog : Passes (v.target.probes o ++ [⟨.cordon v.target.node, true⟩]) v.log)
  | undrained (o : Sights) (rest : Trace Reply) (h : o.Probed v.target)
      (hworker : v.target.isCp = false)
      (hrest : rest = [] ∨ ∃ ok, rest = [⟨.uncordon v.target.node, ok⟩])
      (hlog : Passes (v.target.probes o ++ [⟨.cordon v.target.node, true⟩,
        ⟨.drain v.target.node, false⟩] ++ rest) v.log)
  | emptied (o : Sights) (h : o.Probed v.target)
      (hlog : Passes (v.target.probes o ++ v.target.empties) v.log)
  | rebooted (o : Sights) (h : o.Probed v.target) (hlog : Passes (v.target.leaves o) v.log)
  | kept (o : Sights) (h : o.Verified v.target) (hworker : v.target.isCp = false)
      (hlog : Passes (v.target.runsStaged o ++ [⟨.uncordon v.target.node, false⟩]) v.log)

end Visit

section Looks

/-- The questions on which it rests whether the script is through with a node. -/
def Query.looks : Query → Bool
  | .stagedImage _ => true
  | .bootedImage _ => true
  | _ => false

def looks (l : Trace Reply) : Trace Reply := l.filter fun x => x.1.looks

theorem looks_append (l l' : Trace Reply) : looks (l ++ l') = looks l ++ looks l' := List.filter_append ..

theorem looks_concat {l : Trace Reply} {x : Exchange Reply} (hx : x.1.looks = false) :
    looks (l ++ [x]) = looks l := by
  rw [looks_append]
  simp [looks, hx]

/-- Why the script is not through with a node: it has not looked, or what it saw was something else
than nothing staged or the staged image running, or the node is not readmitted. -/
inductive Visit.Unfinished (v : Visit) : Prop
  | unprobed (h : looks v.log = [])
  | unproven (r : Shot) (hr : ¬ (r.ok = true ∧ r.text = ""))
      (h : looks v.log = [⟨.stagedImage v.target.ip, r⟩])
  | wrong (r b : Shot) (hb : ¬ (b.ok = true ∧ b.text = r.text))
      (h : looks v.log = [⟨.stagedImage v.target.ip, r⟩, ⟨.bootedImage v.target.ip, b⟩])
  | held (r b : Shot) (hworker : v.target.isCp = false)
      (hheld : (⟨.uncordon v.target.node, true⟩ : Exchange Reply) ∉ v.log)
      (h : looks v.log = [⟨.stagedImage v.target.ip, r⟩, ⟨.bootedImage v.target.ip, b⟩])

theorem looks_runsStaged (t : Target) (o : Sights) : looks (t.runsStaged o ++ t.readmits) =
    [⟨.stagedImage t.ip, o.staged⟩, ⟨.bootedImage t.ip, o.booted⟩] := by
  unfold Target.runsStaged Target.isReady Target.registers Target.returns Target.leaves Target.empties
    Target.readmits
  cases t.isCp <;> rfl

theorem Visit.Unfinished.not_done {v : Visit} (h : v.Unfinished) : ¬ v.Done := by
  rintro (⟨leases, staged, -, hlog, hok, hempty⟩ | ⟨o, ho, hsub, -⟩)
  · have hlooks : looks v.log = [⟨.stagedImage v.target.ip, staged⟩] := by
      rw [hlog]
      rfl
    cases h with
    | unprobed h => cases hlooks.symm.trans h
    | unproven r hr h =>
      cases hlooks.symm.trans h
      exact hr ⟨hok, hempty⟩
    | wrong r b hb h => cases hlooks.symm.trans h
    | held r b hworker hheld h => cases hlooks.symm.trans h
  · have hlooks : [⟨.stagedImage v.target.ip, o.staged⟩, ⟨.bootedImage v.target.ip, o.booted⟩].Sublist
        (looks v.log) := looks_runsStaged v.target o ▸ hsub.filter _
    cases h with
    | unprobed h =>
      rw [h] at hlooks
      cases hlooks
    | unproven r hr h =>
      rw [h] at hlooks
      exact absurd hlooks.length_le (by simp)
    | wrong r b hb h =>
      rw [h] at hlooks
      cases hlooks.eq_of_length rfl
      exact hb ⟨ho.booted_ok, ho.booted_staged⟩
    | held r b hworker hheld h =>
      refine hheld (hsub.subset (List.mem_append_right _ ?_))
      rw [Target.readmits, hworker]
      exact List.mem_singleton_self _

/-- An image was staged, or it is not known, and what the node runs was not asked. -/
def Staged (t : Target) (l : Trace Reply) : Prop :=
  ∃ r : Shot, ¬ (r.ok = true ∧ r.text = "") ∧ looks l = [⟨.stagedImage t.ip, r⟩]

theorem Staged.wait {t : Target} {l : Trace Reply} {x : Exchange Reply} (h : Staged t l)
    (hx : x.1.looks = false) : Staged t (l ++ [x]) := by
  obtain ⟨r, hr, hl⟩ := h
  exact ⟨r, hr, (looks_concat hx).trans hl⟩

theorem Staged.unfinished {t : Target} {l : Trace Reply} (h : Staged t l) : Visit.Unfinished ⟨t, l⟩ := by
  obtain ⟨r, hr, hl⟩ := h
  exact .unproven r hr hl

/-- What the script has looked at by the time that `apply_node` is at a point. -/
def Looked (t : Target) (l : Trace Reply) : Point → Prop
  | .probe => looks l = []
  | .uncordon => ∃ r b, looks l = [⟨.stagedImage t.ip, r⟩, ⟨.bootedImage t.ip, b⟩]
  | _ => Staged t l

end Looks

/-- The nodes in the order in which the script comes to them. -/
def Config.nodes (cfg : Config) : List (String × Bool) :=
  (cfg.cpName, true) :: cfg.workerNames.map (·, false)

/-- The traces of complete visits. -/
def joined (visits : List Visit) : Trace Reply := visits.flatMap Visit.log

section Upto

/-- What the log of a node comes to by the time that `apply_node` is at a point. -/
def Upto (t : Target) (l : Trace Reply) : Point → Prop
  | .probe => ∃ leases, t.ip = resolveIp leases ∧ l = [⟨.resolveIp t.node, leases⟩]
  | .readBootId staged => ∃ o : Sights, t.ip = resolveIp o.leases ∧ o.staged.ok = true ∧
      o.staged.text ≠ "" ∧ o.staged.text = staged ∧
      l = [⟨.resolveIp t.node, o.leases⟩, ⟨.stagedImage t.ip, o.staged⟩]
  | .cordon staged bootId => t.isCp = false ∧ ∃ o : Sights, o.Probed t ∧ o.staged.text = staged ∧
      o.boot.text = bootId ∧ Passes (t.probes o) l
  | .drain staged bootId => t.isCp = false ∧ ∃ o : Sights, o.Probed t ∧ o.staged.text = staged ∧
      o.boot.text = bootId ∧ Passes (t.probes o ++ [⟨.cordon t.node, true⟩]) l
  | .giveBack => t.isCp = false ∧ ∃ o : Sights, o.Probed t ∧
      Passes (t.probes o ++ [⟨.cordon t.node, true⟩, ⟨.drain t.node, false⟩]) l
  | .reboot staged bootId => ∃ o : Sights, o.Probed t ∧ o.staged.text = staged ∧
      o.boot.text = bootId ∧ Passes (t.probes o ++ t.empties) l
  | .bootDeadline staged bootId | .bootClock staged bootId _ | .bootSleep staged bootId _
  | .bootPoll staged bootId _ => ∃ o : Sights, o.Probed t ∧ o.staged.text = staged ∧
      o.boot.text = bootId ∧ Passes (t.leaves o) l
  | .readyDeadline staged newId | .askKubelet staged newId _ | .readyClock staged newId _
  | .readySleep staged newId _ => ∃ o : Sights, o.Returned t ∧ o.staged.text = staged ∧
      substituted o.poll = newId ∧ Passes (t.returns o) l
  | .askReady staged newId _ => ∃ o : Sights, o.Returned t ∧ o.staged.text = staged ∧
      substituted o.poll = newId ∧ kubeletBootId o.kubelet = newId ∧ Passes (t.registers o) l
  | .readBooted staged => ∃ o : Sights, o.Returned t ∧ o.staged.text = staged ∧
      kubeletBootId o.kubelet = substituted o.poll ∧ nodeReady o.ready = true ∧
      Passes (t.isReady o) l
  | .uncordon => t.isCp = false ∧ ∃ o : Sights, o.Verified t ∧ Passes (t.runsStaged o) l

end Upto

/-- How the visits so far and the rest of the nodes add up. -/
def Accounted (cfg : Config) (visits : List Visit) (l : Trace Reply) (s : State) : Prop :=
  match s.phase with
  | .resolveCp => visits = [] ∧ l = [] ∧ s.todo = cfg.workerNames
  | .pick => l = [] ∧ s.todo ≠ [] ∧ visits.map Visit.key ++ s.todo.map (·, false) = cfg.nodes
  | .within t p => visits.map Visit.key ++ (t.node, t.isCp) :: s.todo.map (·, false) = cfg.nodes ∧
      Upto t l p ∧ Looked t l p
  | .ended true => l = [] ∧ visits.map Visit.key = cfg.nodes
  | .ended false => ∃ t todo, visits.map Visit.key ++ (t.node, t.isCp) :: todo = cfg.nodes ∧
      Visit.Cautious ⟨t, l⟩ ∧ Visit.Unfinished ⟨t, l⟩

/-- The trace is that of the visits so far and of the node in hand. -/
def Keeps (cfg : Config) (t : Trace Reply) (s : State) : Prop :=
  ∃ visits l, t = joined visits ++ l ∧ (∀ v ∈ visits, v.Done) ∧ Accounted cfg visits l s

end Hbird.RollingApply
