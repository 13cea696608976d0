import Hbird.Text
import Hbird.UpdateCluster.Plan

namespace Hbird.UpdateCluster

open Hbird.Interaction Hbird.Ssh Hbird.Text

variable {ip name pre : String} {dryRun : Bool} {t : Trace ExecReply}

def timerStopCommand : String :=
  "systemctl stop bootc-semver-update.timer bootc-fetch-apply-updates.timer 2>/dev/null || true"

def timerStopWithExec : Executor Failure Unit :=
  Exec.outcome (SshExec.run timerStopCommand) >>= fun _ => pure ()

/-- Best effort: no failure to stop a timer is a failure of the update. -/
def timerStop (plan : Plan) (ip : String) : Remote Failure Unit :=
  if plan.dryRun then pure ()
  else if plan.skipDrain then pure ()
  else live (nodeSshOpts plan ip) timerStopWithExec

def timerStartProbe : String :=
  "bash -c \"
    if systemctl cat bootc-semver-update.timer >/dev/null 2>&1; then
      systemctl start bootc-semver-update.timer
    elif systemctl cat bootc-fetch-apply-updates.timer >/dev/null 2>&1; then
      systemctl start bootc-fetch-apply-updates.timer
    else
      exit 44
    fi
  \""

def timerStartWithExec : Executor Failure Unit :=
  Exec.outcome (SshExec.run timerStartProbe) >>= fun _ => pure ()

def timerStart (plan : Plan) (ip : String) : Remote Failure Unit :=
  if plan.dryRun then pure ()
  else if plan.skipDrain then pure ()
  else live (nodeSshOpts plan ip) timerStartWithExec

inductive BootcUpgradeOutcome : Type
  | applied
  | upgradeFailed
  | alreadyCurrent
  deriving DecidableEq, Repr

def digestCommand : String :=
  "bootc status --json 2>/dev/null | jq -r '.status.booted.image.imageDigest // .status.booted.image.digest // empty' 2>/dev/null || true"

def applyProbeCommand : String := "bootc upgrade --help 2>/dev/null | grep -q -- '--apply'"

def applyCommand : String := "bootc upgrade --apply"

def upgradeCommand : String := "bootc upgrade"

def rebootCommand : String := "systemctl reboot >/dev/null 2>&1"

def failedOn {α : Type} (text : String) (x : Executor Error α) : Executor Failure α :=
  x.context fun e => .context text (.source e)

def bootcBootedDigestWithExec (ip : String) : Executor Failure String :=
  failedOn ("bootc_booted_digest: ssh-run failed against root@" ++ ip)
    (SshExec.run digestCommand) >>= fun out => pure (trim out.stdout)

def hasApplyContext (ip : String) : String :=
  "bootc_has_apply: ssh-run failed for " ++ tick ++ "bootc upgrade --help" ++ tick ++
    " against root@" ++ ip

/-- `grep` ends with 1 when bootc does not know `--apply`; anything else is a failure. -/
def bootcHasApplyWithExec (ip : String) : Executor Failure Bool :=
  Exec.outcome (SshExec.run applyProbeCommand) >>= fun
    | .ok _ => pure true
    | .error (.nonZeroExit host status stdout stderr) =>
      if status.toCode = some 1 then pure false
      else throw (.context (hasApplyContext ip) (.source (.nonZeroExit host status stdout stderr)))
    | .error e => throw (.context (hasApplyContext ip) (.source e))

/-- The command that stages the image and asks for the reboot, in one step or in two. -/
def requestUpgrade (hasApply : Bool) : Executor Error RunOutput :=
  if hasApply then SshExec.run applyCommand
  else SshExec.run upgradeCommand >>= fun _ => SshExec.run rebootCommand

def upgradeContext (ip name : String) : String :=
  "bootc_upgrade_apply: ssh-run failed for " ++ tick ++ "bootc upgrade --apply" ++ tick ++
    " against root@" ++ ip ++ " (node=" ++ name ++ ")"

def classifyUpgrade (ip name pre : String) :
    Except Error RunOutput → Executor Failure BootcUpgradeOutcome
  | .ok _ => bootcBootedDigestWithExec ip >>= fun post =>
      if pre ≠ "" ∧ post ≠ "" ∧ pre = post then pure .alreadyCurrent else pure .applied
  | .error (.nonZeroExit _ status _ _) =>
    if status.toCode = some 255 then pure .applied else pure .upgradeFailed
  | .error e => throw (.context (upgradeContext ip name) (.source e))

def bootcUpgradeApplyWithExec (ip name : String) (dryRun : Bool) :
    Executor Failure BootcUpgradeOutcome :=
  if dryRun then pure .applied
  else do
    let pre ← bootcBootedDigestWithExec ip
    let hasApply ← bootcHasApplyWithExec ip
    let result ← Exec.outcome (requestUpgrade hasApply)
    classifyUpgrade ip name pre result

def bootcUpgradeApply (plan : Plan) (ip name : String) : Remote Failure BootcUpgradeOutcome :=
  live (nodeSshOpts plan ip) (bootcUpgradeApplyWithExec ip name plan.dryRun)

theorem toCode_eq_some {status : ExitStatus} {c : UInt8} :
    status.toCode = some c ↔ status = .code c := by
  cases status <;> simp [ExitStatus.toCode]

theorem finishes_digest_ok :
    Finishes (bootcBootedDigestWithExec ip) t (.ok pre) ↔
      ∃ out : RunOutput, t = [⟨.run digestCommand, .ok out⟩] ∧ pre = trim out.stdout := by
  rw [bootcBootedDigestWithExec, finishes_bind_ok]
  constructor
  · rintro ⟨out, t₁, t₂, rfl, h₁, h₂⟩
    obtain ⟨rfl, hp⟩ := finishes_pure.mp h₂
    have ht := finishes_sshExec_run.mp (finishes_context_ok.mp h₁)
    exact ⟨out, by rw [ht, List.append_nil], Except.ok.inj hp⟩
  · rintro ⟨out, rfl, rfl⟩
    exact ⟨out, _, [], rfl, finishes_context_ok.mpr (finishes_sshExec_run.mpr rfl),
      finishes_pure.mpr ⟨rfl, rfl⟩⟩

theorem finishes_hasApply_ok {b : Bool} (h : Finishes (bootcHasApplyWithExec ip) t (.ok b)) :
    ∃ r, t = [⟨.run applyProbeCommand, r⟩] := by
  obtain ⟨r, t₁, t₂, rfl, h₁, h₂⟩ := finishes_outcome_bind.mp h
  have ht : t₂ = [] := by
    cases r with
    | ok out => exact (finishes_pure.mp h₂).1
    | error e =>
      cases e with
      | nonZeroExit host status stdout stderr =>
        dsimp only at h₂
        split at h₂
        · exact (finishes_pure.mp h₂).1
        · exact (finishes_throw.mp h₂).1
      | _ => exact (finishes_throw.mp h₂).1
  exact ⟨r, by rw [ht, List.append_nil, finishes_sshExec_run.mp h₁]⟩

/-- The three ways to ask for the upgrade: in one step; in two; in two, cut short. -/
theorem finishes_requestUpgrade {hasApply : Bool} {r : Except Error RunOutput}
    (h : Finishes (requestUpgrade hasApply) t r) :
    t = [⟨.run applyCommand, r⟩] ∨
      (∃ out : RunOutput, t = [⟨.run upgradeCommand, .ok out⟩, ⟨.run rebootCommand, r⟩]) ∨
      ∃ e : Error, t = [⟨.run upgradeCommand, .error e⟩] ∧ r = .error e := by
  unfold requestUpgrade at h
  split at h
  · exact .inl (finishes_sshExec_run.mp h)
  · obtain ⟨e, rfl, he⟩ | ⟨out, t₁, t₂, rfl, h₁, h₂⟩ := finishes_bind.mp h
    · exact .inr (.inr ⟨e, finishes_sshExec_run.mp he, rfl⟩)
    · refine .inr (.inl ⟨out, ?_⟩)
      rw [finishes_sshExec_run.mp h₁, finishes_sshExec_run.mp h₂]
      rfl

/-- A clean exit is told apart by a second digest, an unclean one by its code. -/
theorem finishes_classifyUpgrade {r : Except Error RunOutput} {outcome : BootcUpgradeOutcome}
    (h : Finishes (classifyUpgrade ip name pre r) t (.ok outcome)) :
    (∃ out out' : RunOutput, r = .ok out ∧ t = [⟨.run digestCommand, .ok out'⟩] ∧
      outcome = if pre ≠ "" ∧ pre = trim out'.stdout then .alreadyCurrent else .applied) ∨
    ∃ host status stdout stderr, r = .error (.nonZeroExit host status stdout stderr) ∧ t = [] ∧
      outcome = if status = .code 255 then .applied else .upgradeFailed := by
  cases r with
  | ok out =>
    left
    obtain ⟨post, t₁, t₂, rfl, h₁, h₂⟩ := finishes_bind_ok.mp h
    obtain ⟨out', rfl, rfl⟩ := finishes_digest_ok.mp h₁
    refine ⟨out, out', rfl, ?_⟩
    split at h₂
    · next hc =>
      obtain ⟨rfl, ho⟩ := finishes_pure.mp h₂
      exact ⟨rfl, by rw [if_pos ⟨hc.1, hc.2.2⟩, Except.ok.inj ho]⟩
    · next hc =>
      obtain ⟨rfl, ho⟩ := finishes_pure.mp h₂
      have hn : ¬ (pre ≠ "" ∧ pre = trim out'.stdout) := fun hp => hc ⟨hp.1, hp.2 ▸ hp.1, hp.2⟩
      exact ⟨rfl, by rw [if_neg hn, Except.ok.inj ho]⟩
  | error e =>
    right
    cases e with
    | nonZeroExit host status stdout stderr =>
      refine ⟨host, status, stdout, stderr, rfl, ?_⟩
      dsimp only [classifyUpgrade] at h
      split at h
      · next hc =>
        obtain ⟨rfl, ho⟩ := finishes_pure.mp h
        exact ⟨rfl, by rw [if_pos (toCode_eq_some.mp hc), Except.ok.inj ho]⟩
      · next hc =>
        obtain ⟨rfl, ho⟩ := finishes_pure.mp h
        exact ⟨rfl, by rw [if_neg (toCode_eq_some.not.mp hc), Except.ok.inj ho]⟩
    | _ => cases (finishes_throw.mp h).2

/-- A live run that returns an outcome: a digest, the probe, the request and what
classifies it. -/
theorem finishes_bootcUpgradeApply {outcome : BootcUpgradeOutcome}
    (h : Finishes (bootcUpgradeApplyWithExec ip name false) t (.ok outcome)) :
    ∃ (out : RunOutput) (probe : Except Error RunOutput) (hasApply : Bool)
      (r : Except Error RunOutput) (t₁ t₂ : Trace ExecReply),
      t = [⟨.run digestCommand, .ok out⟩, ⟨.run applyProbeCommand, probe⟩] ++ (t₁ ++ t₂) ∧
      Finishes (requestUpgrade hasApply) t₁ r ∧
      Finishes (classifyUpgrade ip name (trim out.stdout) r) t₂ (.ok outcome) := by
  rw [bootcUpgradeApplyWithExec, if_neg Bool.false_ne_true] at h
  obtain ⟨pre, u, v, rfl, hu, hv⟩ := finishes_bind_ok.mp h
  obtain ⟨out, rfl, rfl⟩ := finishes_digest_ok.mp hu
  obtain ⟨hasApply, u₁, v₁, rfl, hu₁, hv₁⟩ := finishes_bind_ok.mp hv
  obtain ⟨probe, rfl⟩ := finishes_hasApply_ok hu₁
  obtain ⟨r, t₁, t₂, rfl, h₁, h₂⟩ := finishes_outcome_bind.mp hv₁
  exact ⟨out, probe, hasApply, r, t₁, t₂, rfl, h₁, h₂⟩

/-- The host behind the executor: the digest it runs, and the one that waits for its
next boot. -/
structure Host where
  booted : String
  staged : Option String
  deriving DecidableEq, Repr

def Host.reboot (h : Host) : Host := ⟨h.staged.getD h.booted, none⟩

/-- What one command does to the host: an upgrade may stage another image, a digest is
the booted one or not readable, and nothing else matters. -/
def Host.Serves (h : Host) (x : Exchange ExecReply) (h' : Host) : Prop :=
  if x.1 = .run applyCommand ∨ x.1 = .run upgradeCommand then
    h' = h ∨ ∃ d, d ≠ h.booted ∧ h' = { h with staged := some d }
  else h' = h ∧ ∀ out, x = ⟨.run digestCommand, .ok out⟩ →
    trim out.stdout = "" ∨ trim out.stdout = h.booted

/-- The hosts after each exchange of a trace; between two the host may reboot, and the
booted digest changes in no other way. -/
inductive Host.Follows : Host → Trace ExecReply → List Host → Prop
  | nil (h : Host) : Follows h [] []
  | cons {h h₁ h₂ : Host} {x : Exchange ExecReply} {t : Trace ExecReply} {hs : List Host}
      (hb : h₁ = h ∨ h₁ = h.reboot) (hx : h₁.Serves x h₂) (ht : Follows h₂ t hs) :
      Follows h (x :: t) (h₂ :: hs)

def requestsReboot (q : ExecQuery) : Prop := q = .run applyCommand ∨ q = .run rebootCommand

instance (q : ExecQuery) : Decidable (requestsReboot q) := inferInstanceAs (Decidable (_ ∨ _))

def RebootRequested (t : Trace ExecReply) : Prop := ∃ x ∈ t, requestsReboot x.1

/-- The command that asked for the reboot left the host with an image staged. -/
def LeftStaged (t : Trace ExecReply) (hosts : List Host) : Prop :=
  ∃ y ∈ t.zip hosts, requestsReboot y.1.1 ∧ y.2.staged ≠ none

def digestOf : Exchange ExecReply → Option String
  | ⟨.run command, .ok out⟩ => if command = digestCommand then some (trim out.stdout) else none
  | _ => none

/-- The digests that were read, in order. -/
def digestReads (t : Trace ExecReply) : List String := t.filterMap digestOf

theorem digestOf_read (out : RunOutput) :
    digestOf ⟨.run digestCommand, .ok out⟩ = some (trim out.stdout) := by
  simp [digestOf]

theorem digestOf_other {command : String} (hc : command ≠ digestCommand)
    (r : Except Error RunOutput) : digestOf ⟨.run command, r⟩ = none := by
  cases r with
  | ok out => simp [digestOf, hc]
  | error e => rfl

/-- `bootc upgrade` of the fallback ended with 255. -/
def FallbackCut (t : Trace ExecReply) : Prop :=
  ∃ host stdout stderr,
    (⟨.run upgradeCommand, .error (.nonZeroExit host (.code 255) stdout stderr)⟩ : Exchange ExecReply) ∈ t

/-- An outcome that says what happened: no staged image is called current, and nothing is
called applied without a reboot on its way. -/
structure Honest (t : Trace ExecReply) (hosts : List Host) (outcome : BootcUpgradeOutcome) : Prop where
  current : outcome = .alreadyCurrent → ¬ LeftStaged t hosts
  applied : outcome = .applied → RebootRequested t

theorem commands_distinct :
    applyProbeCommand ≠ digestCommand ∧ applyCommand ≠ digestCommand ∧
      upgradeCommand ≠ digestCommand ∧ rebootCommand ≠ digestCommand ∧
      digestCommand ≠ applyCommand ∧ digestCommand ≠ upgradeCommand ∧
      digestCommand ≠ rebootCommand ∧ applyProbeCommand ≠ applyCommand ∧
      applyProbeCommand ≠ upgradeCommand ∧ applyProbeCommand ≠ rebootCommand ∧
      applyCommand ≠ upgradeCommand ∧ rebootCommand ≠ upgradeCommand ∧
      upgradeCommand ≠ applyCommand ∧ upgradeCommand ≠ rebootCommand ∧
      upgradeCommand ≠ applyProbeCommand := by
  simp [applyProbeCommand, digestCommand, applyCommand, upgradeCommand, rebootCommand]

/-- What the outcome says about the run, in terms of what was read and asked for. -/
theorem bootcUpgradeApply_outcome {outcome : BootcUpgradeOutcome}
    (h : Finishes (bootcUpgradeApplyWithExec ip name false) t (.ok outcome)) :
    (outcome = .alreadyCurrent ↔ ∃ d, d ≠ "" ∧ digestReads t = [d, d]) ∧
      (outcome = .applied → RebootRequested t ∨ FallbackCut t) ∧
      (FallbackCut t → outcome = .applied ∧ ¬ RebootRequested t) := by
  obtain ⟨out, probe, hasApply, r, t₁, t₂, rfl, h₁, h₂⟩ := finishes_bootcUpgradeApply h
  have hcmd := commands_distinct
  obtain ⟨o, o', rfl, rfl, rfl⟩ | ⟨host, status, stdout, stderr, rfl, rfl, rfl⟩ :=
    finishes_classifyUpgrade h₂
  · -- A clean exit: the reboot was asked for, and the two digests decide.
    have hsame : ∀ d d' : String, ((if d ≠ "" ∧ d = d' then BootcUpgradeOutcome.alreadyCurrent
        else .applied) = .alreadyCurrent ↔ ∃ c, c ≠ "" ∧ [d, d'] = [c, c]) := by
      intro d d'
      by_cases hd : d ≠ "" ∧ d = d'
      · simp [hd.2 ▸ hd.1, hd.2]
      · simp only [if_neg hd, reduceCtorEq, false_iff]
        rintro ⟨c, hc, he⟩
        obtain ⟨rfl, he⟩ := List.cons.inj he
        exact hd ⟨hc, (List.cons.inj he).1.symm⟩
    obtain rfl | ⟨up, rfl⟩ | ⟨e, rfl, he⟩ := finishes_requestUpgrade h₁
    · simp [digestReads, digestOf_read, digestOf_other, RebootRequested, requestsReboot, FallbackCut,
        hcmd, hsame]
    · simp [digestReads, digestOf_read, digestOf_other, RebootRequested, requestsReboot, FallbackCut,
        hcmd, hsame]
    · cases he
  · have hcur : (if status = .code 255 then BootcUpgradeOutcome.applied
        else .upgradeFailed) ≠ .alreadyCurrent := by split <;> simp
    obtain rfl | ⟨up, rfl⟩ | ⟨e, rfl, he⟩ := finishes_requestUpgrade h₁
    · simp [digestReads, digestOf_read, digestOf_other, RebootRequested, requestsReboot, FallbackCut,
        hcmd, hcur]
    · simp [digestReads, digestOf_read, digestOf_other, RebootRequested, requestsReboot, FallbackCut,
        hcmd, hcur]
    · cases he
      by_cases hs : status = .code 255
      · simp [digestReads, digestOf_read, digestOf_other, RebootRequested, requestsReboot, FallbackCut,
          hcmd, hs]
      · simp [digestReads, digestOf_read, digestOf_other, RebootRequested, requestsReboot, FallbackCut,
          hcmd, hs, Ne.symm hs]

/-- A call that returns an outcome is honest about it if and only if it is live, the
fallback's `bootc upgrade` did not end with 255, and no image was left staged behind two
equal readable digests. -/
theorem bootcUpgradeApply_honest_iff (ip name : String) (dryRun : Bool) (t : Trace ExecReply)
    (hosts : List Host) (outcome : BootcUpgradeOutcome)
    (h : Finishes (bootcUpgradeApplyWithExec ip name dryRun) t (.ok outcome)) :
    Honest t hosts outcome ↔
      dryRun = false ∧ ¬ FallbackCut t ∧
        ¬ (LeftStaged t hosts ∧ ∃ d, d ≠ "" ∧ digestReads t = [d, d]) := by
  cases dryRun with
  | true =>
    obtain ⟨rfl, ho⟩ := finishes_pure.mp h
    obtain rfl := Except.ok.inj ho
    simp only [reduceCtorEq, false_and, iff_false]
    intro hh
    obtain ⟨x, hx, -⟩ := hh.applied rfl
    cases hx
  | false =>
    obtain ⟨hcur, happ, hcut⟩ := bootcUpgradeApply_outcome h
    constructor
    · intro hh
      refine ⟨rfl, fun hf => ?_, fun ⟨hs, hd⟩ => hh.current (hcur.mpr hd) hs⟩
      obtain ⟨ho, hn⟩ := hcut hf
      exact hn (hh.applied ho)
    · rintro ⟨-, hf, hs⟩
      exact ⟨fun ho hl => hs ⟨hl, hcur.mp ho⟩, fun ho => (happ ho).resolve_right hf⟩

def digestRead (d : String) : Exchange ExecReply := ⟨.run digestCommand, .ok ⟨.code 0, d, ""⟩⟩

def noApply : Exchange ExecReply :=
  ⟨.run applyProbeCommand, .error (.nonZeroExit "10.0.0.3" (.code 1) "" "")⟩

def fallbackTrace (reboot : Except Error RunOutput) : Trace ExecReply :=
  [digestRead "sha256:a", noApply, ⟨.run upgradeCommand, .ok ⟨.code 0, "", ""⟩⟩,
    ⟨.run rebootCommand, reboot⟩]

def stillUpHosts : List Host :=
  [⟨"sha256:a", none⟩, ⟨"sha256:a", none⟩, ⟨"sha256:a", some "sha256:b"⟩,
    ⟨"sha256:a", some "sha256:b"⟩, ⟨"sha256:a", some "sha256:b"⟩]

theorem bootcUpgradeApply_honest_iff_applied :
    let t := fallbackTrace (.error (.nonZeroExit "10.0.0.3" (.code 255) "" ""))
    Honest t (stillUpHosts.take 4) .applied ↔
      false = false ∧ ¬ FallbackCut t ∧
        ¬ (LeftStaged t (stillUpHosts.take 4) ∧ ∃ d, d ≠ "" ∧ digestReads t = [d, d]) := by
  intro t
  exact bootcUpgradeApply_honest_iff "10.0.0.3" "w1" false t _ .applied
    (finishes_of_play (scriptedExec (t.map Sigma.snd)) (by decide +kernel))

/-- The fallback on a host that is still up when the second digest is read. -/
def stillUpTrace : Trace ExecReply :=
  fallbackTrace (.ok ⟨.code 0, "", ""⟩) ++ [digestRead "sha256:a"]

theorem follows_stillUp : Host.Follows ⟨"sha256:a", none⟩ stillUpTrace stillUpHosts := by
  have hcmd := commands_distinct
  have htrim : trim "sha256:a" = "sha256:a" := by decide +kernel
  refine .cons (.inl rfl) ?_ (.cons (.inl rfl) ?_ (.cons (.inl rfl) ?_ (.cons (.inl rfl) ?_
    (.cons (.inl rfl) ?_ (.nil _)))))
  · simp [Host.Serves, digestRead, hcmd, htrim]
  · simp [Host.Serves, noApply, hcmd]
  · exact .inr ⟨"sha256:b", by decide, rfl⟩
  · simp [Host.Serves, hcmd]
  · simp [Host.Serves, digestRead, hcmd, htrim]

/-- The fallback whose `bootc upgrade` loses its connection. -/
def cutTrace : Trace ExecReply :=
  [digestRead "sha256:a", noApply,
    ⟨.run upgradeCommand, .error (.nonZeroExit "10.0.0.3" (.code 255) "" "")⟩]

/-- A host that is still up with an image staged is called current, and a cut `bootc
upgrade` is called applied with no reboot asked for. -/
theorem bootcUpgradeApply_dishonest :
    (Finishes (bootcUpgradeApplyWithExec "10.0.0.3" "w1" false) stillUpTrace (.ok .alreadyCurrent) ∧
      Host.Follows ⟨"sha256:a", none⟩ stillUpTrace stillUpHosts ∧
      LeftStaged stillUpTrace stillUpHosts) ∧
    Finishes (bootcUpgradeApplyWithExec "10.0.0.3" "w1" false) cutTrace (.ok .applied) ∧
      ¬ RebootRequested cutTrace := by
  refine ⟨⟨finishes_of_play (scriptedExec (stillUpTrace.map Sigma.snd)) (by decide +kernel),
    follows_stillUp, ?_⟩, finishes_of_play (scriptedExec (cutTrace.map Sigma.snd)) (by decide +kernel),
    ?_⟩
  · unfold LeftStaged
    decide +kernel
  · unfold RebootRequested
    decide +kernel

end Hbird.UpdateCluster
