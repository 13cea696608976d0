import Hbird.UpdateCluster.Run
import Hbird.UpdateCluster.StageRules

namespace Hbird.UpdateCluster

open Hbird.Interaction Hbird.Ssh Hbird.Text Step

def StopsTimer (plan : Plan) (ip : String) (q : Query) : Prop :=
  q = .ssh (nodeSshOpts plan ip) timerStopCommand none

def StartsTimer (plan : Plan) (ip : String) (q : Query) : Prop :=
  q = .ssh (nodeSshOpts plan ip) timerStartProbe none

/-- Every stop of a node's timer is followed by a start of it. -/
def TimersRestored (plan : Plan) (w : Trace Reply) : Prop :=
  ∀ w₁ y w₂ ip, w = w₁ ++ y :: w₂ → StopsTimer plan ip y.1 → ∃ z ∈ w₂, StartsTimer plan ip z.1

/-- The same among the stages. -/
def Restored (u : Trace Stage.Result) : Prop :=
  ∀ u₁ x u₂ ip, u = u₁ ++ x :: u₂ → x.1 = .timerStop ip → ∃ z ∈ u₂, z.1 = .timerStart ip

section Wire

variable {plan : Plan} {ip ip' : String} {u : Trace Stage.Result} {v w : Trace Reply} {q : Stage}

theorem nodeSshOpts_injective (h : nodeSshOpts plan ip = nodeSshOpts plan ip') : ip = ip' := by
  have hhost : ∀ ip, (nodeSshOpts plan ip).host = ip := by
    intro ip
    unfold nodeSshOpts
    cases plan.kvmHost <;> dsimp only <;> split <;> rfl
  rw [← hhost ip, h, hhost]

theorem timerCommands_ne : timerStopCommand ≠ timerStartProbe ∧
    timerStopCommand ∉ "true" :: upgradeCommands ∧ timerStartProbe ∉ "true" :: upgradeCommands := by
  decide +kernel

/-- Which stages send a command of the timers. -/
theorem sends_timer {o : SshOptions} {command : String} (hf : Foreign command)
    (hn : command ∉ "true" :: upgradeCommands) (h : q.Sends plan (.ssh o command none)) :
    ∃ ip, o = nodeSshOpts plan ip ∧ (q = .timerStop ip ∧ command = timerStopCommand ∨
      q = .timerStart ip ∧ command = timerStartProbe) := by
  rw [List.mem_cons, not_or] at hn
  have hget : ¬ Gets plan (.ssh o command none) := by
    rintro ⟨c, -, hc⟩
    exact hf _ (Query.ssh.inj hc).2.1
  cases q with
  | timerStop ip =>
    obtain ⟨c, hc, hq⟩ := h
    obtain ⟨rfl, rfl, -⟩ := Query.ssh.inj hq
    exact ⟨ip, rfl, .inl ⟨rfl, List.mem_singleton.mp hc⟩⟩
  | timerStart ip =>
    obtain ⟨c, hc, hq⟩ := h
    obtain ⟨rfl, rfl, -⟩ := Query.ssh.inj hq
    exact ⟨ip, rfl, .inr ⟨rfl, List.mem_singleton.mp hc⟩⟩
  | cpKubectl c =>
    have hq : Query.ssh o command none = kubectlQuery plan c := h
    exact absurd (Query.ssh.inj hq).2.1 (hf _)
  | bootcUpgradeApply ip name =>
    obtain ⟨c, hc, hq⟩ := h
    obtain ⟨-, rfl, -⟩ := Query.ssh.inj hq
    exact absurd hc hn.2
  | waitSshDrop ip =>
    obtain ⟨c, hc, hq⟩ := h
    obtain ⟨-, rfl, -⟩ := Query.ssh.inj hq
    exact absurd (List.mem_singleton.mp hc) hn.1
  | waitSshBack ip =>
    obtain ⟨c, hc, hq⟩ := h
    obtain ⟨-, rfl, -⟩ := Query.ssh.inj hq
    exact absurd (List.mem_singleton.mp hc) hn.1
  | captureNodeBootid node => exact absurd h hget
  | waitApiserverBack => exact absurd h hget
  | waitNodeBootidChanged node pre => exact absurd h hget
  | waitNodeReady node => exact absurd h hget
  | waitNodeDaemonsetsReady node => exact absurd h hget
  | eprintln line => cases h

theorem sends_stop (h : q.Sends plan (.ssh (nodeSshOpts plan ip) timerStopCommand none)) :
    q = .timerStop ip := by
  obtain ⟨hne, hstop, -⟩ := timerCommands_ne
  obtain ⟨ip', ho, ⟨rfl, -⟩ | ⟨-, hc⟩⟩ := sends_timer commands_foreign.1 hstop h
  · rw [nodeSshOpts_injective ho]
  · exact absurd hc hne

theorem sends_start (h : q.Sends plan (.ssh (nodeSshOpts plan ip) timerStartProbe none)) :
    q = .timerStart ip := by
  obtain ⟨hne, -, hstart⟩ := timerCommands_ne
  obtain ⟨ip', ho, ⟨-, hc⟩ | ⟨rfl, -⟩⟩ := sends_timer commands_foreign.2.1 hstart h
  · exact absurd hc.symm hne
  · rw [nodeSshOpts_injective ho]

/-- A best-effort command puts one child on the wire and is `Ok` however that ends. -/
theorem runs_bestEffort {o : SshOptions} (hi : o.identityFile = none) {command : String}
    {r : Except Failure Unit} (h : Finishes (live o (Exec.outcome (SshExec.run command) >>=
      fun _ => pure () : Executor Failure Unit)) v r) :
    (∃ e, v = [⟨.ssh o command none, e⟩]) ∧ r = .ok () := by
  obtain ⟨t, ht, hc⟩ := finishes_live.mp h
  obtain ⟨r', t₁, t₂, rfl, h₁, h₂⟩ := finishes_outcome_bind.mp ht
  obtain ⟨rfl, rfl⟩ := finishes_pure.mp h₂
  rw [finishes_sshExec_run.mp h₁, List.append_nil] at hc
  obtain ⟨a, b, rfl, ha, hb⟩ := carries_cons.mp hc
  obtain ⟨e, rfl, -⟩ := (runs_serve hi).mp ha
  rw [carries_nil.mp hb, List.append_nil]
  exact ⟨⟨e, rfl⟩, rfl⟩

variable (hd : plan.dryRun = false) (hs : plan.skipDrain = false)
include hd hs

theorem runs_stop {r : Except Failure Unit} (h : Runs ((Stage.timerStop ip).perform plan) v r) :
    (∃ e, v = [⟨.ssh (nodeSshOpts plan ip) timerStopCommand none, e⟩]) ∧ r = .ok () := by
  dsimp only [Stage.perform, timerStop] at h
  rw [hd, hs] at h
  exact runs_bestEffort (nodeSshOpts_identityFile plan ip) h

theorem runs_start {r : Except Failure Unit} (h : Runs ((Stage.timerStart ip).perform plan) v r) :
    (∃ e, v = [⟨.ssh (nodeSshOpts plan ip) timerStartProbe none, e⟩]) ∧ r = .ok () := by
  dsimp only [Stage.perform, timerStart] at h
  rw [hd, hs] at h
  exact runs_bestEffort (nodeSshOpts_identityFile plan ip) h

theorem timersRestored_iff (hc : Carries (Stage.perform plan) u w) :
    TimersRestored plan w ↔ Restored u := by
  constructor
  · rintro hw u₁ ⟨q, r⟩ u₂ ip rfl rfl
    obtain ⟨v₁, v₂, rfl, -, h₂⟩ := carries_append.mp hc
    obtain ⟨a, b, rfl, ha, hb⟩ := carries_cons.mp h₂
    obtain ⟨⟨e, rfl⟩, -⟩ := runs_stop hd hs ha
    obtain ⟨z, hz, hstart⟩ := hw v₁ _ b ip rfl rfl
    obtain ⟨x, hx, c, hrun, hzc⟩ := hb.exists_of_mem hz
    have hsends := puts_stage plan x.1 c x.2 hrun z hzc
    rw [hstart] at hsends
    exact ⟨x, hx, sends_start hsends⟩
  · rintro hu w₁ y w₂ ip rfl hstop
    obtain ⟨u₁, u₂, q, r, a, b, c, d, rfl, -, rfl, -, hrun, hrest⟩ := hc.split
    have hsends := puts_stage plan q _ r hrun y (by simp)
    rw [hstop] at hsends
    obtain rfl := sends_stop hsends
    obtain ⟨⟨q', r'⟩, hz, rfl⟩ := hu u₁ _ u₂ ip rfl rfl
    obtain ⟨v, hv, hmem⟩ := hrest.runs_of_mem hz
    obtain ⟨⟨e, rfl⟩, -⟩ := runs_start hd hs hv
    exact ⟨_, List.mem_append_right c (hmem _ (List.mem_singleton_self _)), rfl⟩

end Wire

/-- A step whose failure ends the update of its node. -/
def Fatal : Exchange Stage.Result → Prop
  | ⟨.timerStop _, r⟩ => ∃ e, r = .error e
  | ⟨.timerStart _, r⟩ => ∃ e, r = .error e
  | ⟨.cpKubectl _, r⟩ => ∃ e, r = .error e
  | ⟨.captureNodeBootid _, r⟩ => ∃ e, r = .error e
  | ⟨.bootcUpgradeApply _ _, r⟩ => r = .ok .upgradeFailed ∨ ∃ e, r = .error e
  | ⟨.waitSshDrop _, _⟩ => False
  | ⟨.waitSshBack _, r⟩ => ∃ e, r = .error e
  | ⟨.waitApiserverBack, r⟩ => ∃ e, r = .error e
  | ⟨.waitNodeBootidChanged _ _, r⟩ => ∃ e, r = .error e
  | ⟨.waitNodeReady _, r⟩ => ∃ e, r = .error e
  | ⟨.waitNodeDaemonsetsReady _, r⟩ => ∃ e, r = .error e
  | ⟨.eprintln _, _⟩ => False

/-- The stage is not about a timer. -/
def Stage.NoTimer (q : Stage) : Prop := ∀ ip, q ≠ .timerStop ip ∧ q ≠ .timerStart ip

/-- A stage about a timer has failed. -/
def TimerFails (u : Trace Stage.Result) : Prop := ∃ x ∈ u, Fatal x ∧ ¬ x.1.NoTimer

/-- The timer has been stopped, and nothing has failed since. -/
def Underway (ip : String) (u : Trace Stage.Result) : Prop :=
  ∃ r m, u = ⟨.timerStop ip, r⟩ :: m ∧ (∀ x ∈ m, x.1.NoTimer) ∧ ∀ x ∈ u, ¬ Fatal x

/-- The timer has been stopped and not started again, and something has failed. -/
def CutShort (ip : String) (u : Trace Stage.Result) : Prop :=
  ∃ r m, u = ⟨.timerStop ip, r⟩ :: m ∧ (∀ x ∈ m, x.1.NoTimer) ∧ ∃ x ∈ u, Fatal x

/-- The timer has been stopped and started again, and nothing has failed. -/
def Completed (ip : String) (u : Trace Stage.Result) : Prop :=
  ∃ r m r' l, u = ⟨.timerStop ip, r⟩ :: (m ++ ⟨.timerStart ip, r'⟩ :: l) ∧
    (∀ x ∈ m, x.1.NoTimer) ∧ (∀ x ∈ l, x.1.NoTimer) ∧ ∀ x ∈ u, ¬ Fatal x

section Blocks

variable {plan : Plan} {ip name k8sName pre text : String} {u : Trace Stage.Result}
  {x : Exchange Stage.Result}

theorem Underway.append (h : Underway ip u) (hx : x.1.NoTimer) (hf : ¬ Fatal x) :
    Underway ip (u ++ [x]) := by
  obtain ⟨r, m, rfl, hm, hok⟩ := h
  exact ⟨r, m ++ [x], rfl, List.forall_mem_append.mpr ⟨hm, by simpa using hx⟩,
    List.forall_mem_append.mpr ⟨hok, by simpa using hf⟩⟩

theorem Underway.fails (h : Underway ip u) (hx : x.1.NoTimer) (hf : Fatal x) :
    CutShort ip (u ++ [x]) := by
  obtain ⟨r, m, rfl, hm, -⟩ := h
  exact ⟨r, m ++ [x], rfl, List.forall_mem_append.mpr ⟨hm, by simpa using hx⟩, x, by simp, hf⟩

theorem Underway.completed (h : Underway ip u) {r : Except Failure Unit}
    (hf : ¬ Fatal ⟨.timerStart ip, r⟩) : Completed ip (u ++ [⟨.timerStart ip, r⟩]) := by
  obtain ⟨r₀, m, rfl, hm, hok⟩ := h
  exact ⟨r₀, m, r, [], rfl, hm, by simp, List.forall_mem_append.mpr ⟨hok, by simpa using hf⟩⟩

theorem CutShort.append (h : CutShort ip u) {v : Trace Stage.Result} (hv : ∀ x ∈ v, x.1.NoTimer) :
    CutShort ip (u ++ v) := by
  obtain ⟨r, m, rfl, hm, x, hx, hf⟩ := h
  exact ⟨r, m ++ v, rfl, List.forall_mem_append.mpr ⟨hm, hv⟩, x, List.mem_append_left v hx, hf⟩

theorem Completed.append (h : Completed ip u) {v : Trace Stage.Result} (hv : ∀ x ∈ v, x.1.NoTimer)
    (hf : ∀ x ∈ v, ¬ Fatal x) : Completed ip (u ++ v) := by
  obtain ⟨r, m, r', l, rfl, hm, hl, hok⟩ := h
  exact ⟨r, m, r', l ++ v, by simp, hm, List.forall_mem_append.mpr ⟨hl, hv⟩,
    List.forall_mem_append.mpr ⟨hok, hf⟩⟩

/-- How a failed update leaves the timer. -/
def Failed (ip : String) (u : Trace Stage.Result) (_ : InFlight) : Prop :=
  CutShort ip u ∨ TimerFails u

abbrev Anything (_ : Trace Stage.Result) (_ : InFlight) : Prop := True

section Gate

variable {α : Type} {p : Program Stage Stage.Result (Except Failure α)}
  {g : Except Failure α → Exchange Stage.Result} (hp : Single p g) (hg : ∀ r, (g r).1.NoTimer)
  (hok : ∀ a, ¬ Fatal (g (.ok a))) (herr : ∀ e, Fatal (g (.error e)))
include hp hg hok herr

theorem underway_must : Upholds Anything (Failed ip) (fun u _ => Underway ip u) (must p)
    fun _ u _ => Underway ip u :=
  upholds_must hp (fun _ _ _ h => h.append (hg _) (hok _)) (fun _ _ _ h => .inl (h.fails (hg _) (herr _)))
    fun _ _ _ => trivial

theorem underway_mustFor : Upholds Anything (Failed ip) (fun u _ => Underway ip u) (mustFor text p)
    fun _ u _ => Underway ip u :=
  upholds_mustFor hp (fun _ _ _ h => h.append (hg _) (hok _))
    (fun _ _ _ h => .inl (h.fails (hg _) (herr _))) fun _ _ _ => trivial

end Gate

theorem underway_phase : Upholds Anything (Failed ip) (fun u _ => Underway ip u) (phase text)
    fun _ u _ => Underway ip u :=
  upholds_modify fun _ _ h => h

theorem underway_drop (ip' : String) : Upholds Anything (Failed ip) (fun u _ => Underway ip u)
    (ignore (stage (.waitSshDrop ip'))) fun _ u _ => Underway ip u :=
  upholds_ignore (single_stage (.waitSshDrop ip')) (fun _ _ _ h => h.append (by simp [Stage.NoTimer]) id)
    fun _ _ _ => trivial

theorem underway_stop : Upholds Anything (Failed ip) (fun u _ => u = [])
    (must (stage (.timerStop ip))) fun _ u _ => Underway ip u := by
  refine upholds_must (single_stage (.timerStop ip)) ?_ ?_ fun _ _ _ => trivial
  · rintro u s a rfl
    exact ⟨_, [], rfl, by simp, by simp [Fatal]⟩
  · rintro u s e rfl
    exact .inl ⟨_, [], rfl, by simp, _, List.mem_singleton_self _, e, rfl⟩

theorem underway_start : Upholds Anything (Failed ip) (fun u _ => Underway ip u)
    (must (stage (.timerStart ip))) fun _ u _ => Completed ip u := by
  refine upholds_must (single_stage (.timerStart ip)) (fun _ _ _ h => h.completed (by simp [Fatal])) ?_
    fun _ _ _ => trivial
  intro u s e h
  exact .inr ⟨_, List.mem_append_right u (List.mem_singleton_self _), ⟨e, rfl⟩, fun hn => (hn ip).2 rfl⟩

theorem underway_upgrade {ip' : String} : Upholds Anything (Failed ip) (fun u _ => Underway ip u)
    (mustFor text (stage (.bootcUpgradeApply ip' name))) fun outcome u _ =>
      outcome = .upgradeFailed ∧ CutShort ip u ∨ outcome ≠ .upgradeFailed ∧ Underway ip u := by
  refine upholds_mustFor (single_stage (.bootcUpgradeApply ip' name)) ?_ ?_ fun _ _ _ => trivial
  · intro u s outcome h
    by_cases ho : outcome = .upgradeFailed
    · rw [ho]
      exact .inl ⟨rfl, h.fails (by simp [Stage.NoTimer]) (.inl rfl)⟩
    · exact .inr ⟨ho, h.append (by simp [Stage.NoTimer]) (by simp [Fatal, ho])⟩
  · intro u s e h
    exact .inl (h.fails (by simp [Stage.NoTimer]) (.inr ⟨e, rfl⟩))

theorem updateCpSteps_timers : Upholds Anything (Failed plan.cpIp) (fun u _ => u = [])
    (updateCpSteps plan) fun _ u _ => Completed plan.cpIp u := by
  refine upholds_bind underway_stop fun _ => ?_
  refine upholds_bind (underway_must (single_stage (.captureNodeBootid plan.cpK8sName))
    (by simp [Stage.NoTimer]) (by simp [Fatal]) (by simp [Fatal])) fun pre => ?_
  refine upholds_bind underway_upgrade fun outcome => ?_
  cases outcome with
  | upgradeFailed => exact upholds_fail fun u s h => .inl (by simpa using h)
  | alreadyCurrent => exact underway_start.mono (fun u s h => by simpa using h) fun _ _ _ h => h
  | applied =>
    have hgates : Upholds Anything (Failed plan.cpIp) (fun u _ => Underway plan.cpIp u)
        (cpGates plan pre) fun _ u _ => Underway plan.cpIp u := by
      refine upholds_bind (underway_drop _) fun _ => ?_
      refine upholds_bind (underway_mustFor (single_stage (.waitSshBack plan.cpIp))
        (by simp [Stage.NoTimer]) (by simp [Fatal]) (by simp [Fatal])) fun _ =>
        upholds_bind underway_phase fun _ => ?_
      refine upholds_bind (underway_mustFor (single_stage .waitApiserverBack)
        (by simp [Stage.NoTimer]) (by simp [Fatal]) (by simp [Fatal])) fun _ =>
        upholds_bind underway_phase fun _ => ?_
      refine upholds_bind (underway_mustFor (single_stage (.waitNodeBootidChanged plan.cpK8sName pre))
        (by simp [Stage.NoTimer]) (by simp [Fatal]) (by simp [Fatal])) fun _ =>
        upholds_bind underway_phase fun _ => ?_
      refine upholds_bind (underway_mustFor (single_stage (.waitNodeReady plan.cpK8sName))
        (by simp [Stage.NoTimer]) (by simp [Fatal]) (by simp [Fatal])) fun _ =>
        upholds_bind underway_phase fun _ => ?_
      exact underway_mustFor (single_stage (.waitNodeDaemonsetsReady plan.cpK8sName))
        (by simp [Stage.NoTimer]) (by simp [Fatal]) (by simp [Fatal])
    exact (upholds_bind hgates fun _ => underway_start).mono (fun u s h => by simpa using h)
      fun _ _ _ h => h

theorem underway_drainNode : Upholds Anything (Failed ip) (fun u _ => Underway ip u)
    (drainNode plan k8sName) fun _ u _ => Underway ip u := by
  unfold drainNode
  split
  · exact upholds_pure fun _ _ h => h
  · exact upholds_bind (underway_must (single_stage (.cpKubectl (drainCommand plan k8sName)))
      (by simp [Stage.NoTimer]) (by simp [Fatal]) (by simp [Fatal])) fun _ =>
      upholds_bind (O := fun _ u _ => Underway ip u) (upholds_modify fun _ _ h => h) fun _ =>
        underway_phase

theorem underway_uncordonNode : Upholds Anything (Failed ip) (fun u _ => Underway ip u)
    (uncordonNode k8sName) fun _ u _ => Underway ip u :=
  upholds_bind (underway_must (single_stage (.cpKubectl (uncordonCommand k8sName)))
    (by simp [Stage.NoTimer]) (by simp [Fatal]) (by simp [Fatal])) fun _ => upholds_modify fun _ _ h => h

theorem underway_finishWorker : Upholds Anything (Failed ip) (fun u _ => Underway ip u)
    (finishWorker ip) fun _ u _ => Completed ip u :=
  upholds_bind underway_start fun _ => upholds_modify fun _ _ h => h

theorem underway_workerGates : Upholds Anything (Failed ip) (fun u _ => Underway ip u)
    (workerGates plan name ip k8sName pre) fun _ u _ => Underway ip u := by
  refine upholds_bind (underway_drop _) fun _ => upholds_bind underway_phase fun _ => ?_
  refine upholds_bind (underway_mustFor (single_stage (.waitSshBack ip))
    (by simp [Stage.NoTimer]) (by simp [Fatal]) (by simp [Fatal])) fun _ =>
    upholds_bind underway_phase fun _ => ?_
  refine upholds_bind (underway_mustFor (single_stage (.waitNodeBootidChanged k8sName pre))
    (by simp [Stage.NoTimer]) (by simp [Fatal]) (by simp [Fatal])) fun _ => ?_
  refine upholds_bind (underway_mustFor (single_stage (.waitNodeReady k8sName))
    (by simp [Stage.NoTimer]) (by simp [Fatal]) (by simp [Fatal])) fun _ =>
    upholds_bind underway_phase fun _ => ?_
  exact upholds_bind (underway_mustFor (single_stage (.waitNodeDaemonsetsReady k8sName))
    (by simp [Stage.NoTimer]) (by simp [Fatal]) (by simp [Fatal])) fun _ => underway_phase

theorem updateWorkerSteps_timers : Upholds Anything (Failed ip) (fun u _ => u = [])
    (updateWorkerSteps plan name ip k8sName) fun _ u _ => Completed ip u := by
  have hprepare : Upholds Anything (Failed ip) (fun u _ => u = []) (prepareWorker plan ip k8sName)
      fun _ u _ => Underway ip u :=
    upholds_bind underway_stop fun _ => upholds_bind underway_drainNode fun _ =>
      underway_must (single_stage (.captureNodeBootid k8sName))
        (by simp [Stage.NoTimer]) (by simp [Fatal]) (by simp [Fatal])
  refine upholds_bind hprepare fun pre => upholds_bind underway_upgrade fun outcome => ?_
  cases outcome with
  | upgradeFailed => exact upholds_fail fun u s h => .inl (by simpa using h)
  | alreadyCurrent =>
    have hskip : Upholds Anything (Failed ip) (fun u _ => Underway ip u)
        (if plan.skipDrain then pure () else uncordonNode k8sName) fun _ u _ => Underway ip u := by
      split
      · exact upholds_pure fun _ _ h => h
      · exact underway_uncordonNode
    exact (upholds_bind hskip fun _ => underway_finishWorker).mono (fun u s h => by simpa using h)
      fun _ _ _ h => h
  | applied =>
    exact (upholds_bind underway_workerGates fun _ => upholds_bind underway_uncordonNode fun _ =>
      underway_finishWorker).mono (fun u s h => by simpa using h) fun _ _ _ h => h

/-- What the update of a node does to its timer, to the end of its destructor. -/
theorem inScope_timers {x : Step Unit} {s : InFlight} {o : Except Failure Unit}
    (hx : Upholds Anything (Failed ip) (fun u _ => u = []) x fun _ u _ => Completed ip u)
    (h : Finishes (inScope x s) u o) :
    o = .ok () ∧ Completed ip u ∨ (∃ e, o = .error e) ∧ (CutShort ip u ∨ TimerFails u) := by
  obtain ⟨t₁, t₂, s', rfl, hends, hdrop⟩ := finishes_inScope h
  have hlines := puts_drop s' t₂ () hdrop
  have hquiet : ∀ x ∈ t₂, x.1.NoTimer := by
    rintro ⟨q, r⟩ hy
    obtain ⟨line, rfl⟩ := hlines _ hy
    simp [Stage.NoTimer]
  have hfine : ∀ x ∈ t₂, ¬ Fatal x := by
    rintro ⟨q, r⟩ hy
    obtain ⟨line, rfl⟩ := hlines _ hy
    exact id
  cases o with
  | ok a => exact .inl ⟨rfl, (hx.result rfl hends).append hquiet hfine⟩
  | error e =>
    refine .inr ⟨⟨e, rfl⟩, ?_⟩
    obtain hc | ⟨y, hy, hf⟩ := hx.failure rfl hends
    · exact .inl (hc.append hquiet)
    · exact .inr ⟨y, List.mem_append_left t₂ hy, hf⟩

end Blocks

end Hbird.UpdateCluster
