import Hbird.UpdateCluster.Timers

namespace Hbird.UpdateCluster

open Hbird.Interaction Hbird.Ssh

/-- An operation of a run, with the stages that it went through. -/
structure Entry (plan : Plan) where
  exchange : Exchange NodeOp.Result
  stages : Trace Stage.Result
  runs : Runs (exchange.1.perform plan) stages exchange.2

/-- The node that an operation updates. -/
def NodeOp.target (plan : Plan) : NodeOp → Option String
  | .updateCp => some plan.cpIp
  | .updateWorker _ ip _ => some ip
  | .timerStart _ => none

/-- The run outlives a failure of the operation. -/
def Kept (plan : Plan) : NodeOp → Prop
  | .updateWorker _ _ _ => plan.continueOnError = true
  | _ => False

/-- Every update so far has gone well, or it failed, was kept, and had its timer started. -/
inductive Standing (plan : Plan) : Trace NodeOp.Result → Prop
  | nil : Standing plan []
  | updated {t : Trace NodeOp.Result} {op : NodeOp} {ip : String} (hop : op.target plan = some ip)
      (ht : Standing plan t) : Standing plan (⟨op, .ok ()⟩ :: t)
  | kept {t : Trace NodeOp.Result} {name ip k8sName : String} {e : Failure} {r : Except Failure Unit}
      (hc : plan.continueOnError = true) (ht : Standing plan t) :
      Standing plan (⟨.updateWorker name ip k8sName, .error e⟩ :: ⟨.timerStart ip, r⟩ :: t)

/-- The last update has failed and ended the run. -/
def Aborted (plan : Plan) (t : Trace NodeOp.Result) : Prop :=
  ∃ t' op ip e, t = t' ++ [⟨op, .error e⟩] ∧ Standing plan t' ∧ op.target plan = some ip ∧
    ¬ Kept plan op

section Walks

variable {plan : Plan} {t t' : Trace NodeOp.Result} {op : NodeOp}

theorem Standing.append (h : Standing plan t) (h' : Standing plan t') : Standing plan (t ++ t') := by
  induction h with
  | nil => exact h'
  | updated hop _ ih => exact .updated hop ih
  | kept hc _ ih => exact .kept hc ih

abbrev Whatever (_ : Trace NodeOp.Result) (_ : Results) : Prop := True

def Ended (plan : Plan) (t : Trace NodeOp.Result) (_ : Results) : Prop :=
  Standing plan t ∨ Aborted plan t

theorem upholds_attemptNode {F P : Trace NodeOp.Result → Results → Prop}
    {O : Except Failure Unit → Trace NodeOp.Result → Results → Prop}
    (h : ∀ u s r, P u s → O r (u ++ [⟨op, r⟩]) s) : Upholds Whatever F P (attemptNode op) O := by
  refine upholds_call ?_ ?_ fun _ _ => trivial
  · intro u s t a hP hf
    obtain ⟨r, hr, hrun⟩ := finishes_outcome.mp hf
    obtain rfl := Except.ok.inj hr
    rw [show t = [⟨op, a⟩] from runs_perform.mp hrun]
    exact h u s a hP
  · intro u s t e _ hf
    obtain ⟨r, hr, -⟩ := finishes_outcome.mp hf
    cases hr

/-- What is known of a run right after an update. -/
def JustTried (plan : Plan) (op : NodeOp) (r : Except Failure Unit) (t : Trace NodeOp.Result) : Prop :=
  ∃ t', t = t' ++ [⟨op, r⟩] ∧ Standing plan t'

theorem JustTried.standing {ip : String} (h : JustTried plan op (.ok ()) t)
    (hop : op.target plan = some ip) : Standing plan t := by
  obtain ⟨t', rfl, ht⟩ := h
  exact ht.append (.updated hop .nil)

theorem JustTried.aborted {e : Failure} {ip : String} (h : JustTried plan op (.error e) t)
    (hop : op.target plan = some ip) (hk : ¬ Kept plan op) : Aborted plan t := by
  obtain ⟨t', rfl, ht⟩ := h
  exact ⟨t', op, ip, e, rfl, ht, hop, hk⟩

theorem standing_attemptNode : Upholds Whatever (Ended plan) (fun u _ => Standing plan u)
    (attemptNode op) fun r u _ => JustTried plan op r u :=
  upholds_attemptNode fun u _ _ h => ⟨u, rfl, h⟩

theorem standing_updateCp : Upholds Whatever (Ended plan) (fun u _ => Standing plan u)
    (updateCpRecorded plan) fun _ u _ => Standing plan u := by
  refine upholds_bind standing_attemptNode fun r => ?_
  cases r with
  | ok a => exact upholds_modify fun u _ h => h.standing rfl
  | error e => exact upholds_fail fun u _ h => .inr (h.aborted rfl id)

theorem standing_runOneWorker (w : String) : Upholds Whatever (Ended plan)
    (fun u _ => Standing plan u) (runOneWorker plan w) fun _ u _ => Standing plan u := by
  unfold runOneWorker
  split
  · exact upholds_fail fun u _ h => .inl h
  · next ip _ =>
    refine upholds_bind standing_attemptNode fun r => ?_
    cases r with
    | ok a => exact upholds_modify fun u _ h => h.standing rfl
    | error e =>
      dsimp only
      split
      · next hc =>
        refine upholds_bind (O := fun _ u _ => JustTried plan _ (.error e) u)
          (upholds_modify fun _ _ h => h) fun _ => upholds_bind (O := fun _ u _ => Standing plan u)
            (upholds_attemptNode ?_) fun _ => upholds_pure fun _ _ h => h
        rintro u s r ⟨t', rfl, ht⟩
        rw [List.append_assoc]
        exact ht.append (.kept hc .nil)
      · next hc => exact upholds_fail fun u _ h => .inr (h.aborted rfl hc)

theorem standing_runEach (ws : List String) : Upholds Whatever (Ended plan)
    (fun u _ => Standing plan u) (runEach plan ws) fun _ u _ => Standing plan u := by
  induction ws with
  | nil => exact upholds_pure fun _ _ h => h
  | cons w ws ih => exact upholds_bind (standing_runOneWorker w) fun _ => ih

theorem standing_walkFrom (ws : List String) (n i : Nat) : Upholds Whatever (Ended plan)
    (fun u _ => Standing plan u) (walkFrom plan ws n i) fun _ u _ => Standing plan u := by
  induction n generalizing i with
  | zero => exact upholds_pure fun _ _ h => h
  | succ n ih =>
    unfold walkFrom
    split
    · refine upholds_bind (O := fun _ u _ => Standing plan u) ?_ fun _ => ih _
      rw [runWorkerBatch_eq]
      exact standing_runEach _
    · exact upholds_pure fun _ _ h => h

theorem standing_walk : Upholds Whatever (Ended plan) (fun u _ => Standing plan u) (walk plan)
    fun _ u _ => Standing plan u := by
  unfold walk
  split
  · split
    · exact standing_updateCp
    · split
      · exact standing_runOneWorker _
      · exact upholds_fail fun _ _ h => .inl h
  · refine upholds_bind (O := fun _ u _ => Standing plan u) ?_ fun _ => standing_walkFrom _ _ _
    split
    · exact upholds_pure fun _ _ h => h
    · split
      · exact upholds_pure fun _ _ h => h
      · exact standing_updateCp

/-- However a run ends, its updates have gone well or been kept, the last one apart. -/
theorem run_ended {o : Except Failure Unit} {results : Results}
    (h : Ends (run plan) .empty t o results) : Ended plan t results := by
  obtain ⟨r, hw, -, -⟩ := run_ends h
  cases r with
  | ok a => exact .inl (standing_walk.result .nil hw)
  | error e => exact standing_walk.failure .nil hw

end Walks

section Timers

variable {plan : Plan} {ip : String} {u v : Trace Stage.Result} {j : List (Entry plan)}

theorem restored_nil : Restored [] := by
  intro u₁ x u₂ ip h
  simp at h

theorem Restored.append (hu : Restored u) (hv : Restored v) : Restored (u ++ v) := by
  intro u₁ x u₂ ip h hx
  obtain ⟨m, rfl, hm⟩ | ⟨m, rfl, hm⟩ := List.append_eq_append_iff.mp h
  · exact hv m x u₂ ip hm hx
  · cases m with
    | nil => exact hv [] x u₂ ip (by simpa using hm.symm) hx
    | cons a m =>
      obtain ⟨rfl, rfl⟩ := List.cons.inj hm
      obtain ⟨z, hz, hzip⟩ := hu u₁ x m ip rfl hx
      exact ⟨z, List.mem_append_left v hz, hzip⟩

/-- One stop, and a start behind it. -/
theorem restored_cons {r : Except Failure Unit} {rest : Trace Stage.Result}
    (hrest : ∀ x ∈ rest, ∀ ip, x.1 ≠ .timerStop ip) (hz : ∃ z ∈ rest, z.1 = .timerStart ip) :
    Restored (⟨.timerStop ip, r⟩ :: rest) := by
  intro u₁ x u₂ ip' h hx
  cases u₁ with
  | nil =>
    obtain ⟨rfl, rfl⟩ := List.cons.inj h
    obtain rfl := Stage.timerStop.inj hx
    exact hz
  | cons a u₁ =>
    obtain ⟨-, rfl⟩ := List.cons.inj h
    exact absurd hx (hrest x (by simp) ip')

theorem Completed.restored (h : Completed ip u) : Restored u := by
  obtain ⟨r, m, r', l, rfl, hm, hl, -⟩ := h
  refine restored_cons (List.forall_mem_append.mpr ⟨fun x hx ip => (hm x hx ip).1, ?_⟩)
    ⟨⟨.timerStart ip, r'⟩, by simp, rfl⟩
  exact List.forall_mem_cons.mpr ⟨by simp, fun x hx ip => (hl x hx ip).1⟩

theorem CutShort.restored (h : CutShort ip u) (r : Except Failure Unit) :
    Restored (u ++ [⟨.timerStart ip, r⟩]) := by
  obtain ⟨r₀, m, rfl, hm, -⟩ := h
  exact restored_cons (List.forall_mem_append.mpr ⟨fun x hx ip => (hm x hx ip).1, by simp⟩)
    ⟨⟨.timerStart ip, r⟩, by simp, rfl⟩

theorem CutShort.not_restored (h : CutShort ip u) : ¬ Restored (v ++ u) := by
  obtain ⟨r, m, rfl, hm, -⟩ := h
  intro hr
  obtain ⟨z, hz, hzip⟩ := hr v _ m ip rfl rfl
  exact (hm z hz ip).2 hzip

/-- An update that ran, read off its outcome. -/
theorem Entry.timers (entry : Entry plan) (ip : String) (hop : entry.exchange.1.target plan = some ip) :
    entry.exchange.2 = .ok () ∧ Completed ip entry.stages ∨
      (∃ e, entry.exchange.2 = .error e) ∧ (CutShort ip entry.stages ∨ TimerFails entry.stages) := by
  obtain ⟨⟨op, r⟩, stages, hruns⟩ := entry
  cases op with
  | updateCp =>
    obtain rfl := Option.some.inj hop
    exact inScope_timers updateCpSteps_timers hruns
  | updateWorker name ip' k8sName =>
    obtain rfl := Option.some.inj hop
    exact inScope_timers updateWorkerSteps_timers hruns
  | timerStart ip' => cases hop

/-- No operation that ends a run has a fatal step. -/
def NoFatal (plan : Plan) (j : List (Entry plan)) : Prop :=
  ∀ entry ∈ j, (∃ x ∈ entry.stages, Fatal x) → Kept plan entry.exchange.1

theorem Standing.restored (h : Standing plan (j.map Entry.exchange))
    (hf : ¬ TimerFails (j.flatMap Entry.stages)) :
    Restored (j.flatMap Entry.stages) ∧ NoFatal plan j := by
  generalize ht : j.map Entry.exchange = t at h
  have hentry : ∀ entry ∈ j, ¬ TimerFails entry.stages := by
    rintro entry hj ⟨x, hx, hfx⟩
    exact hf ⟨x, List.mem_flatMap.mpr ⟨entry, hj, hx⟩, hfx⟩
  clear hf
  induction h generalizing j with
  | nil =>
    obtain rfl := List.map_eq_nil_iff.mp ht
    exact ⟨restored_nil, by simp [NoFatal]⟩
  | @updated t op ip hop _ ih =>
    obtain ⟨entry, j, rfl, hx, rfl⟩ := List.map_eq_cons_iff.mp ht
    obtain ⟨hentry, hj⟩ := List.forall_mem_cons.mp hentry
    obtain ⟨hr, hn⟩ := ih rfl hj
    obtain ⟨-, hc⟩ | ⟨⟨e, he⟩, -⟩ := entry.timers ip (by rw [hx]; exact hop)
    · rw [List.flatMap_cons]
      refine ⟨hc.restored.append hr, List.forall_mem_cons.mpr ⟨?_, hn⟩⟩
      rintro ⟨x, hxs, hfx⟩
      obtain ⟨-, -, -, -, -, -, -, hok⟩ := hc
      exact absurd hfx (hok x hxs)
    · rw [hx] at he
      cases he
  | @kept t name ip k8sName e r hc _ ih =>
    obtain ⟨entry, j', rfl, hx, ht'⟩ := List.map_eq_cons_iff.mp ht
    obtain ⟨start, j, rfl, hx', rfl⟩ := List.map_eq_cons_iff.mp ht'
    obtain ⟨hentry, hj'⟩ := List.forall_mem_cons.mp hentry
    obtain ⟨hstart, hj⟩ := List.forall_mem_cons.mp hj'
    obtain ⟨hr, hn⟩ := ih rfl hj
    have hstages : start.stages = [⟨.timerStart ip, r⟩] := by
      obtain ⟨x, stages, hruns⟩ := start
      obtain rfl := hx'
      exact runs_stage.mp hruns
    obtain ⟨hok, -⟩ | ⟨-, hcut | hfails⟩ := entry.timers ip (by rw [hx]; rfl)
    · rw [hx] at hok
      cases hok
    · rw [List.flatMap_cons, List.flatMap_cons, ← List.append_assoc, hstages]
      refine ⟨(hcut.restored r).append hr, List.forall_mem_cons.mpr ⟨fun _ => ?_,
        List.forall_mem_cons.mpr ⟨?_, hn⟩⟩⟩
      · rw [hx]
        exact hc
      · rintro ⟨x, hxs, hfx⟩
        refine absurd ⟨x, hxs, hfx, fun hnt => ?_⟩ hstart
        rw [hstages] at hxs
        exact (hnt ip).2 (by rw [List.mem_singleton.mp hxs])
    · exact absurd hfails hentry

theorem Aborted.not_restored (h : Aborted plan (j.map Entry.exchange))
    (hf : ¬ TimerFails (j.flatMap Entry.stages)) :
    ¬ Restored (j.flatMap Entry.stages) ∧ ¬ NoFatal plan j := by
  obtain ⟨t', op, ip, e, ht, -, hop, hk⟩ := h
  obtain ⟨j₁, j₂, rfl, -, h₂⟩ := List.map_eq_append_iff.mp ht
  obtain ⟨entry, j₃, rfl, hx, h₃⟩ := List.map_eq_cons_iff.mp h₂
  obtain rfl := List.map_eq_nil_iff.mp h₃
  obtain ⟨hok, -⟩ | ⟨-, hcut | ⟨x, hxs, hfx⟩⟩ := entry.timers ip (by rw [hx]; exact hop)
  · rw [hx] at hok
    cases hok
  · refine ⟨?_, fun hn => ?_⟩
    · rw [List.flatMap_append, List.flatMap_singleton]
      exact hcut.not_restored
    · obtain ⟨-, -, -, -, hfatal⟩ := hcut
      have hkept := hn entry (by simp) hfatal
      rw [hx] at hkept
      exact hk hkept
  · exact absurd ⟨x, List.mem_flatMap.mpr ⟨entry, by simp, hxs⟩, hfx⟩ hf

variable (hd : plan.dryRun = false) (hs : plan.skipDrain = false)
include hd hs

theorem not_timerFails {w : Trace Reply} (hc : Carries (Stage.perform plan) u w) : ¬ TimerFails u := by
  rintro ⟨⟨q, r⟩, hx, hf, hn⟩
  obtain ⟨v, hv, -⟩ := hc.runs_of_mem hx
  simp only [Stage.NoTimer, not_forall, not_and_or, not_not] at hn
  obtain ⟨ip, rfl | rfl⟩ := hn
  · obtain ⟨e, he⟩ := hf
    rw [show r = .ok () from (runs_stop hd hs hv).2] at he
    cases he
  · obtain ⟨e, he⟩ := hf
    rw [show r = .ok () from (runs_start hd hs hv).2] at he
    cases he

omit hd hs in
/-- A live run, seen as the operations it is made of. -/
theorem runLive_entries {w : Trace Reply} {o : Except Failure Unit} {results : Results}
    (h : Runs (runLive plan) w (o, results)) : ∃ j : List (Entry plan),
      Ends (run plan) .empty (j.map Entry.exchange) o results ∧
        Carries (Stage.perform plan) (j.flatMap Entry.stages) w := by
  have hentries : ∀ {t u}, Carries (NodeOp.perform plan) t u →
      ∃ j : List (Entry plan), t = j.map Entry.exchange ∧ u = j.flatMap Entry.stages := by
    intro t u hc
    induction hc with
    | nil => exact ⟨[], rfl, rfl⟩
    | @cons q r t u v hq _ ih =>
      obtain ⟨j, rfl, rfl⟩ := ih
      exact ⟨⟨⟨q, r⟩, u, hq⟩ :: j, rfl, rfl⟩
  obtain ⟨u, hu, hw⟩ := runs_handle.mp h
  obtain ⟨t, ht, hc⟩ := runs_handle.mp hu
  obtain ⟨j, rfl, rfl⟩ := hentries hc
  exact ⟨j, ht, hw⟩

end Timers

/-- A live run restores every timer it stops just when no step fails that ends an update which
the run does not keep. -/
theorem run_timers_iff (plan : Plan) (hd : plan.dryRun = false) (hs : plan.skipDrain = false)
    (j : List (Entry plan)) (o : Except Failure Unit) (results : Results) (w : Trace Reply)
    (h : Ends (run plan) .empty (j.map Entry.exchange) o results)
    (hw : Carries (Stage.perform plan) (j.flatMap Entry.stages) w) :
    TimersRestored plan w ↔
      ∀ entry ∈ j, (∃ x ∈ entry.stages, Fatal x) → Kept plan entry.exchange.1 := by
  have hf := not_timerFails hd hs hw
  rw [timersRestored_iff hd hs hw]
  obtain hst | hab := run_ended h
  · obtain ⟨hr, hn⟩ := hst.restored hf
    exact iff_of_true hr hn
  · obtain ⟨hr, hn⟩ := hab.not_restored hf
    exact iff_of_false hr hn

/-- A run over one worker whose drain fails. -/
def drainFailsPlan (continueOnError : Bool) : Plan :=
  { Plan.sample with workersOnly := true, continueOnError }

def drainFailsRun (continueOnError : Bool) : Trace Reply × (Except Failure Unit × Results) :=
  play (scripted [printed "", failed 1, printed ""]) 0 (runLive (drainFailsPlan continueOnError))

theorem run_timers_iff_kept : ∃ j : List (Entry (drainFailsPlan true)),
    Ends (run (drainFailsPlan true)) .empty (j.map Entry.exchange) (drainFailsRun true).2.1
      (drainFailsRun true).2.2 ∧
    (TimersRestored (drainFailsPlan true) (drainFailsRun true).1 ↔
      ∀ entry ∈ j, (∃ x ∈ entry.stages, Fatal x) → Kept (drainFailsPlan true) entry.exchange.1) := by
  have hrun : ∀ x : Trace Reply × (Except Failure Unit × Results),
      Runs (runLive (drainFailsPlan true)) x.1 x.2 → ∃ j : List (Entry (drainFailsPlan true)),
        Ends (run (drainFailsPlan true)) .empty (j.map Entry.exchange) x.2.1 x.2.2 ∧
        (TimersRestored (drainFailsPlan true) x.1 ↔ ∀ entry ∈ j, (∃ x ∈ entry.stages, Fatal x) →
          Kept (drainFailsPlan true) entry.exchange.1) := by
    rintro ⟨w, o, results⟩ h
    obtain ⟨j, hj, hw⟩ := runLive_entries h
    exact ⟨j, hj, run_timers_iff (drainFailsPlan true) rfl rfl j o results w hj hw⟩
  exact hrun (drainFailsRun true) (runs_play _ 0 _)

/-- Without `--continue-on-error` the timer is left stopped. -/
theorem run_timers_lost :
    Runs (runLive (drainFailsPlan false)) (drainFailsRun false).1 (drainFailsRun false).2 ∧
      ¬ TimersRestored (drainFailsPlan false) (drainFailsRun false).1 := by
  refine ⟨runs_play _ 0 _, ?_⟩
  have hrun : (drainFailsRun false).1 =
      [⟨.ssh (nodeSshOpts (drainFailsPlan false) "10.0.0.3") timerStopCommand none, printed ""⟩,
        ⟨kubectlQuery (drainFailsPlan false) (drainCommand (drainFailsPlan false) "w1"), failed 1⟩] := by
    decide +kernel
  rw [hrun]
  intro h
  obtain ⟨z, hz, hstart⟩ := h [] _ _ "10.0.0.3" rfl rfl
  rw [List.mem_singleton.mp hz] at hstart
  exact commands_foreign.2.1 _ (Query.ssh.inj hstart).2.1.symm

end Hbird.UpdateCluster
