import Hbird.Verify.Cluster

namespace Hbird.Verify

open Hbird.CpKubectl Hbird.Interaction Hbird.Ssh
open Hbird.UpdateCluster (Failure remoteKubectl)

section Moves

variable {Space : Type} {s s' s'' : Cluster Space} {cpIp ns command stdin : String}

/-- All other namespaces are what they were. -/
def Contained (ns : String) (s s' : Cluster Space) : Prop := ∀ n, n ≠ ns → s' n = s n

theorem Contained.refl : Contained ns s s := fun _ _ => rfl

theorem Contained.trans (h : Contained ns s s') (h' : Contained ns s' s'') : Contained ns s s'' :=
  fun n hn => (h' n hn).trans (h n hn)

theorem contained_of_serves {q : ExecQuery} {r : Except Ssh.Error RunOutput}
    (hw : Within ns command) (hq : lineOf q = remoteKubectl command) (h : serves Space s q r s') :
    Contained ns s s' := by
  obtain ⟨args, hargv, hscope⟩ := hw
  intro n hn
  exact (h args (hq ▸ hargv)).frame n (by rwa [hscope])

theorem wpe_raw {s₀ : Cluster Space} (hw : Within ns command) (hs : Contained ns s₀ s) :
    wpe (serves Space) (cpKubectlRawWithExec cpIp command) (fun _ => Contained ns s₀) s := by
  rw [cpKubectlRawWithExec, guarded]
  split
  · exact hs
  · exact wpe_context.mpr fun r s' h => hs.trans (contained_of_serves hw rfl h)

theorem wpe_withStdin {s₀ : Cluster Space} (hw : Within ns command) (hs : Contained ns s₀ s) :
    wpe (serves Space) (cpKubectlWithStdinLenient cpIp command stdin) (fun _ => Contained ns s₀) s := by
  rw [cpKubectlWithStdinLenient, guarded]
  split
  · exact hs
  · refine wpe_bind.mpr (wpe_outcome.mpr fun r s' h => ?_)
    exact hs.trans (contained_of_serves hw rfl h)

/-- A step that goes on within the namespace, whatever the one before it came to. -/
theorem wpe_contained {ε α β : Type} {x : Executor ε α} {f : α → Executor ε β} {s₀ : Cluster Space}
    (hx : wpe (serves Space) x (fun _ => Contained ns s₀) s)
    (hf : ∀ a s', Contained ns s₀ s' → wpe (serves Space) (f a) (fun _ => Contained ns s₀) s') :
    wpe (serves Space) (x >>= f) (fun _ => Contained ns s₀) s := by
  refine wpe_bind.mpr (wpe_mono hx fun r s' hr => ?_)
  cases r with
  | ok a => exact hf a s' hr
  | error e => exact hr

theorem wpe_probe {s₀ : Cluster Space} (hns : Safe ns) (hs : Contained ns s₀ s) :
    wpe (serves Space) (probe cpIp ns) (fun _ => Contained ns s₀) s := by
  refine wpe_contained (wpe_withStdin ⟨_, reads_probe hns, rfl⟩ hs) fun out s' h => ?_
  split_ifs <;> exact h

theorem wpe_smoketest {s₀ : Cluster Space} (hns : Safe ns) (hs : Contained ns s₀ s) :
    wpe (serves Space) (smoketest cpIp ns) (fun _ => Contained ns s₀) s := by
  refine wpe_contained (wpe_context.mpr (wpe_raw ⟨_, reads_create hns, rfl⟩ hs)) fun _ s₁ h₁ => ?_
  refine wpe_contained (wpe_withStdin ⟨_, reads_apply hns, rfl⟩ h₁) fun applied s₂ h₂ => ?_
  split_ifs
  · exact h₂
  refine wpe_contained (wpe_outcome.mpr (wpe_raw ⟨_, reads_wait hns, rfl⟩ h₂)) fun waited s₃ h₃ => ?_
  cases waited with
  | ok _ => exact wpe_probe hns h₃
  | error _ =>
    exact wpe_contained (wpe_outcome.mpr (wpe_raw ⟨_, reads_events hns, rfl⟩ h₃)) fun _ s₄ h₄ => h₄

end Moves

section Runs

variable {cpIp ns command stdin : String} {t : Trace ExecReply}

def sent (command : String) : ExecQuery := .run (remoteKubectl command)

def sentWith (command stdin : String) : ExecQuery := .runWithStdin (remoteKubectl command) stdin

theorem finishes_raw {r : Except Failure RunOutput} (h : Calm command) :
    Finishes (cpKubectlRawWithExec cpIp command) t r ↔
      ∃ e, t = [⟨sent command, e⟩] ∧ r = e.mapError fun e =>
        .context (sshRunFailed "cp_kubectl_raw" command cpIp) (.source e) := by
  rw [cpKubectlRawWithExec, guarded, h.accepted]
  rw [finishes_context]
  constructor
  · rintro ⟨e, rfl, hrun⟩
    exact ⟨e, finishes_sshExec_run.mp hrun, rfl⟩
  · rintro ⟨e, rfl, rfl⟩
    exact ⟨e, rfl, finishes_sshExec_run.mpr rfl⟩

theorem finishes_withStdin {r : Except Failure CpExecOutput} (h : Calm command) :
    Finishes (cpKubectlWithStdinLenient cpIp command stdin) t r ↔
      ∃ e, t = [⟨sentWith command stdin, e⟩] ∧
        r = lenient "cp_kubectl_with_stdin_lenient" command cpIp e := by
  rw [cpKubectlWithStdinLenient, guarded, h.accepted]
  rw [finishes_outcome_bind]
  constructor
  · rintro ⟨e, t₁, t₂, rfl, h₁, h₂⟩
    obtain rfl := runs_perform.mp h₁
    obtain ⟨rfl, rfl⟩ := runs_done.mp h₂
    exact ⟨e, rfl, rfl⟩
  · rintro ⟨e, rfl, rfl⟩
    exact ⟨e, [⟨sentWith command stdin, e⟩], [], rfl, runs_perform.mpr rfl, .done _⟩

theorem finishes_raw_ok {out : RunOutput} (h : Calm command) :
    Finishes (cpKubectlRawWithExec cpIp command) t (.ok out) ↔ t = [⟨sent command, .ok out⟩] := by
  rw [finishes_raw h]
  constructor
  · rintro ⟨e, rfl, hout⟩
    cases e with
    | ok out' => rw [Except.ok.inj hout]
    | error e => cases hout
  · rintro rfl
    exact ⟨_, rfl, rfl⟩

/-- What came back with exit status 0. -/
theorem finishes_withStdin_ok {out : CpExecOutput} (h : Calm command) (hout : out.success = true) :
    Finishes (cpKubectlWithStdinLenient cpIp command stdin) t (.ok out) ↔
      ∃ result : RunOutput, t = [⟨sentWith command stdin, .ok result⟩] ∧
        out = ⟨true, result.stdout, result.stderr⟩ := by
  rw [finishes_withStdin h]
  constructor
  · rintro ⟨e, rfl, hr⟩
    cases e with
    | ok result => exact ⟨result, rfl, Except.ok.inj hr⟩
    | error e =>
      cases e with
      | nonZeroExit host status stdout stderr =>
        rw [Except.ok.inj hr] at hout
        cases hout
      | _ => cases hr
  · rintro ⟨result, rfl, rfl⟩
    exact ⟨_, rfl, rfl⟩

/-- Every step was taken, and the page came back. -/
def Passed (ns : String) (t : Trace ExecReply) : Prop :=
  ∃ created applied ready probed : RunOutput,
    t = [⟨sent (createCommand ns), .ok created⟩, ⟨sentWith (applyCommand ns) manifest, .ok applied⟩,
      ⟨sent (waitCommand ns), .ok ready⟩, ⟨sentWith (probeCommand ns) "", .ok probed⟩] ∧
    welcomed ⟨true, probed.stdout, probed.stderr⟩ = true

theorem calm_create (hns : Safe ns) : Calm (createCommand ns) :=
  .append (by decide +kernel) hns.calm

theorem calm_apply (hns : Safe ns) : Calm (applyCommand ns) :=
  .append (.append (by decide +kernel) hns.calm) (by decide +kernel)

theorem calm_wait (hns : Safe ns) : Calm (waitCommand ns) :=
  .append (.append (by decide +kernel) hns.calm) (by decide +kernel)

theorem calm_overrides : Calm overrides :=
  .append (.append (.append (.append (by decide +kernel) (by decide +kernel)) (by decide +kernel))
    (by decide +kernel)) (by decide +kernel)

theorem calm_probe (hns : Safe ns) : Calm (probeCommand ns) :=
  .append (.append (.append (by decide +kernel) hns.calm) (by decide +kernel)) calm_overrides.quoted

theorem calm_cleanup (hns : Safe ns) : Calm (cleanupCommand ns) :=
  .append (.append (by decide +kernel) hns.calm) (by decide +kernel)

theorem finishes_probe_ok (hns : Safe ns) : Finishes (probe cpIp ns) t (.ok ()) ↔
    ∃ probed : RunOutput, t = [⟨sentWith (probeCommand ns) "", .ok probed⟩] ∧
      welcomed ⟨true, probed.stdout, probed.stderr⟩ = true := by
  rw [probe, finishes_bind_ok]
  constructor
  · rintro ⟨out, t₁, t₂, rfl, h₁, h₂⟩
    split_ifs at h₂ with hfail hpage
    · cases (finishes_throw.mp h₂).2
    · obtain ⟨rfl, -⟩ := finishes_pure.mp h₂
      have hout : out.success = true := Bool.eq_true_of_not_eq_false hfail
      obtain ⟨probed, rfl, rfl⟩ := (finishes_withStdin_ok (calm_probe hns) hout).mp h₁
      exact ⟨probed, rfl, hpage⟩
    · cases (finishes_throw.mp h₂).2
  · rintro ⟨probed, rfl, hpage⟩
    refine ⟨⟨true, probed.stdout, probed.stderr⟩, _, [], (List.append_nil _).symm,
      (finishes_withStdin_ok (calm_probe hns) rfl).mpr ⟨probed, rfl, rfl⟩, ?_⟩
    rw [if_neg (Ne.symm Bool.false_ne_true), if_pos hpage]
    exact finishes_pure.mpr ⟨rfl, rfl⟩

theorem finishes_smoketest_ok (hns : Safe ns) :
    Finishes (smoketest cpIp ns) t (.ok ()) ↔ Passed ns t := by
  rw [smoketest, finishes_bind_ok]
  constructor
  · rintro ⟨created, t₁, t₂, rfl, h₁, h₂⟩
    obtain rfl := (finishes_raw_ok (calm_create hns)).mp (finishes_context_ok.mp h₁)
    obtain ⟨applied, t₃, t₄, rfl, h₃, h₄⟩ := finishes_bind_ok.mp h₂
    split_ifs at h₄ with hfail
    · cases (finishes_throw.mp h₄).2
    have hout : applied.success = true := Bool.eq_true_of_not_eq_false hfail
    obtain ⟨result, rfl, rfl⟩ := (finishes_withStdin_ok (calm_apply hns) hout).mp h₃
    obtain ⟨r, t₅, t₆, rfl, h₅, h₆⟩ := finishes_outcome_bind.mp h₄
    cases r with
    | error e =>
      obtain ⟨_, t₇, t₈, rfl, -, h₈⟩ := finishes_outcome_bind.mp h₆
      cases (finishes_throw.mp h₈).2
    | ok ready =>
      obtain rfl := (finishes_raw_ok (calm_wait hns)).mp h₅
      obtain ⟨probed, rfl, hpage⟩ := (finishes_probe_ok hns).mp h₆
      exact ⟨created, result, ready, probed, rfl, hpage⟩
  · rintro ⟨created, applied, ready, probed, rfl, hpage⟩
    refine ⟨created, [_], _, rfl,
      finishes_context_ok.mpr ((finishes_raw_ok (calm_create hns)).mpr rfl),
      finishes_bind_ok.mpr ⟨⟨true, applied.stdout, applied.stderr⟩, [_], _, rfl,
        (finishes_withStdin_ok (calm_apply hns) rfl).mpr ⟨applied, rfl, rfl⟩, ?_⟩⟩
    rw [if_neg (Ne.symm Bool.false_ne_true)]
    exact finishes_outcome_bind.mpr ⟨.ok ready, [_], _, rfl,
      (finishes_raw_ok (calm_wait hns)).mpr rfl, (finishes_probe_ok hns).mpr ⟨probed, rfl, hpage⟩⟩

end Runs

/-- The smoke test leaves every other namespace as it was. Whatever else it comes to, its last command
is the deletion of its own, which is on its way out then at most, and it succeeds if and only if every
step did and the welcome page came back. -/
theorem appDeploy_contained {Space : Type} {s s' : Cluster Space} {cpIp : String} {epoch : Nat}
    {t : Trace ExecReply} {o : Except Failure Unit}
    (hrun : Finishes (runVerifyAppDeploy cpIp epoch) t o) (hl : Leads (serves Space) s t s') :
    Contained (smoketestNs epoch) s s' ∧
      ∃ steps r, t = steps ++ [⟨sent (cleanupCommand (smoketestNs epoch)), r⟩] ∧
        ((∃ out, r = .ok out) → ∀ space, s' (smoketestNs epoch) ≠ .active space) ∧
        (o = .ok () ↔ Passed (smoketestNs epoch) steps) := by
  have hns := safe_smoketestNs epoch
  obtain ⟨result, t₁, t₂, rfl, htest, hdropped⟩ := finishes_outcome_bind.mp hrun
  obtain ⟨x, t₃, t₄, rfl, hcleanup, hend⟩ := finishes_outcome_bind.mp hdropped
  obtain ⟨rfl, rfl⟩ := runs_done.mp hend
  obtain ⟨r, rfl, -⟩ := (finishes_raw (calm_cleanup hns)).mp hcleanup
  obtain ⟨s₁, hbefore, hlast⟩ := leads_append.mp hl
  obtain ⟨s₂, hserve, hnil⟩ := leads_cons.mp hlast
  obtain rfl := leads_nil.mp hnil
  have hobeys := hserve _ (reads_cleanup hns)
  have hcontained := wpe_iff.mp (wpe_smoketest hns .refl) _ _ _ htest hbefore
  refine ⟨hcontained.trans fun n hn => hobeys.frame n hn, t₁, r, rfl,
    fun hr => hobeys.delete _ _ rfl hr, ?_⟩
  constructor
  · rintro rfl
    exact (finishes_smoketest_ok hns).mp htest
  · exact fun hpassed => htest.unique ((finishes_smoketest_ok hns).mpr hpassed)

/-- A cluster with a namespace of its own. -/
def smallCluster (p : Phase Unit) : Cluster Unit := fun ns =>
  if ns = smoketestNs 7 then p else if ns = "kube-system" then .active () else .absent

/-- Only a deletion says anything of what the namespace comes to. -/
theorem serves_smallCluster (p p' : Phase Unit) {command : String} {args : List String}
    {q : ExecQuery} {r : Except Ssh.Error RunOutput} (hq : lineOf q = remoteKubectl command)
    (hreads : Reads command args) (hscope : scope args = some (smoketestNs 7))
    (hp : args.head? = some "delete" → p' ≠ .active ()) :
    serves Unit (smallCluster p) q r (smallCluster p') := by
  intro args' hargs
  obtain rfl := hreads.unique (hq ▸ hargs)
  refine ⟨fun ns hns => ?_, fun ns rest heq _ space => ?_⟩
  · rw [hscope] at hns
    simp only [smallCluster, if_neg (show ns ≠ smoketestNs 7 from hns)]
  · subst heq
    obtain rfl : ns = smoketestNs 7 := Option.some.inj hscope
    rw [smallCluster, if_pos rfl]
    exact hp rfl

def silent : RunOutput := ⟨.code 0, "", ""⟩

/-- The steps of a run that comes through. -/
def smallSteps : Trace ExecReply :=
  [⟨sent (createCommand (smoketestNs 7)), .ok silent⟩,
    ⟨sentWith (applyCommand (smoketestNs 7)) manifest, .ok silent⟩,
    ⟨sent (waitCommand (smoketestNs 7)), .ok silent⟩,
    ⟨sentWith (probeCommand (smoketestNs 7)) "", .ok ⟨.code 0, "Welcome to nginx!", ""⟩⟩]

theorem smallSteps_passed : Passed (smoketestNs 7) smallSteps :=
  ⟨silent, silent, silent, ⟨.code 0, "Welcome to nginx!", ""⟩, rfl, by decide +kernel⟩

theorem smallSteps_finishes : Finishes (runVerifyAppDeploy "10.0.0.3" 7)
    (smallSteps ++ [⟨sent (cleanupCommand (smoketestNs 7)), .ok silent⟩]) (.ok ()) := by
  have hns := safe_smoketestNs 7
  refine finishes_outcome_bind.mpr ⟨.ok (), smallSteps, _, rfl,
    (finishes_smoketest_ok hns).mpr smallSteps_passed, ?_⟩
  exact finishes_outcome_bind.mpr ⟨.ok silent, _, [], rfl,
    (finishes_raw_ok (calm_cleanup hns)).mpr rfl, .done _⟩

theorem smallSteps_leads : Leads (serves Unit) (smallCluster .absent)
    (smallSteps ++ [⟨sent (cleanupCommand (smoketestNs 7)), .ok silent⟩])
    (smallCluster .terminating) := by
  have hns := safe_smoketestNs 7
  refine .cons (serves_smallCluster .absent (.active ()) rfl (reads_create hns) rfl ?_) ?_
  · exact fun h => absurd h (by decide)
  refine .cons (serves_smallCluster (.active ()) (.active ()) rfl (reads_apply hns) rfl ?_) ?_
  · exact fun h => absurd h (by decide)
  refine .cons (serves_smallCluster (.active ()) (.active ()) rfl (reads_wait hns) rfl ?_) ?_
  · exact fun h => absurd h (by decide)
  refine .cons (serves_smallCluster (.active ()) (.active ()) rfl (reads_probe hns) rfl ?_) ?_
  · exact fun h => absurd h (by decide)
  refine .cons (serves_smallCluster (.active ()) .terminating rfl (reads_cleanup hns) rfl fun _ h => ?_) (.nil _)
  cases h

/-- A run that comes through, beside a namespace in use. -/
theorem appDeploy_contained_sample :
    Contained (smoketestNs 7) (smallCluster .absent) (smallCluster .terminating) ∧
      ∃ steps, Passed (smoketestNs 7) steps := by
  obtain ⟨hcontained, steps, r, -, -, hiff⟩ :=
    appDeploy_contained smallSteps_finishes smallSteps_leads
  exact ⟨hcontained, steps, hiff.mp rfl⟩

end Hbird.Verify
