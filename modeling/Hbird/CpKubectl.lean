import Hbird.Shell.Scan
import Hbird.UpdateCluster.Stage

namespace Hbird.CpKubectl

open Hbird.Interaction Hbird.Ssh Hbird.Shell Hbird.Text Hbird.UpdateCluster

variable {command context cpIp : String}

/-- Why a command is not sent, when it is not. -/
def rejectShellMetachars (context command : String) : Option String :=
  match command.toList.find? shellMetacharacter with
  | some bad => some (context ++ ": refusing command with shell metacharacter '" ++
      String.singleton bad ++ "' (commands are forwarded to remote /bin/sh -c; metachars would " ++
      "execute as root on the CP). command=" ++ quoted command)
  | none =>
    if contains command "$(" then
      some (context ++ ": refusing command with " ++ tick ++ "$(" ++ tick ++
        " substitution (executes as root on the CP). command=" ++ quoted command)
    else none

def sshRunFailed (context command cpIp : String) : String :=
  context ++ ": ssh-run failed for " ++ tick ++ "kubectl ... " ++ command ++ tick ++ " against " ++
    cpIp

/-- Run `rest` when the guard lets the command through. -/
def guarded {α : Type} (context command : String) (rest : Executor Failure α) :
    Executor Failure α :=
  match rejectShellMetachars context command with
  | some text => throw (.msg text)
  | none => rest

def cpKubectlRawWithExec (cpIp command : String) : Executor Failure RunOutput :=
  guarded "cp_kubectl_raw" command <|
    (SshExec.run (remoteKubectl command)).context fun e =>
      .context (sshRunFailed "cp_kubectl_raw" command cpIp) (.source e)

structure CpExecOutput where
  success : Bool
  stdout : String
  stderr : String
  deriving DecidableEq, Repr

/-- A command that ran is an answer, whatever its exit status. -/
def lenient (context command cpIp : String) : Except Ssh.Error RunOutput → Except Failure CpExecOutput
  | .ok out => .ok ⟨true, out.stdout, out.stderr⟩
  | .error (.nonZeroExit _ _ stdout stderr) => .ok ⟨false, stdout, stderr⟩
  | .error e => .error (.context (sshRunFailed context command cpIp) (.source e))

def cpKubectlLenientWithExec (cpIp command : String) : Executor Failure CpExecOutput :=
  guarded "cp_kubectl_lenient" command <|
    (SshExec.run (remoteKubectl command)).outcome >>= fun r =>
      (lenient "cp_kubectl_lenient" command cpIp r : Except _ _)

def cpKubectlWithStdinLenient (cpIp command stdin : String) : Executor Failure CpExecOutput :=
  guarded "cp_kubectl_with_stdin_lenient" command <|
    (SshExec.runWithStdin (remoteKubectl command) stdin).outcome >>= fun r =>
      (lenient "cp_kubectl_with_stdin_lenient" command cpIp r : Except _ _)

/-- `hbird kubectl`, once its target is resolved. -/
def run (cpIp : String) (args : List String) : Executor Failure RunOutput :=
  if args = [] then
    throw (.msg ("hbird kubectl: no positional args supplied. Usage: " ++ tick ++
      "hbird kubectl get pods -A" ++ tick ++ " (everything after " ++ tick ++ "kubectl" ++ tick ++
      " is forwarded to the remote kubectl)."))
  else cpKubectlRawWithExec cpIp (" ".intercalate args)

/-- The copies of the guard refuse the same commands. -/
theorem rejectShellMetachars_eq_none :
    rejectShellMetachars context command = none ↔ refusal command = none := by
  rw [rejectShellMetachars, refusal]
  cases command.toList.find? shellMetacharacter with
  | none => by_cases hc : contains command "$(" = true <;> simp [hc]
  | some bad => simp

section Sent

variable {φ : ExecQuery → Prop}

/-- The line that an executor is given. -/
def lineOf : ExecQuery → String
  | .run command => command
  | .runWithStdin command _ => command

/-- A program that asks once asks that. -/
theorem puts_ask_done {α : Type} {q : ExecQuery} {f : ExecReply q → α} :
    Puts φ (.ask q fun r => .done (f r) : Program ExecQuery ExecReply α) ↔ φ q := by
  constructor
  · intro h
    have hrun := runs_play (scriptedExec []) 0
      (.ask q fun r => .done (f r) : Program ExecQuery ExecReply α)
    exact h _ _ hrun _ (List.mem_cons_self ..)
  · intro hq
    exact puts_ask hq fun r => puts_done φ _

theorem puts_guarded_iff {α : Type} {rest : Executor Failure α} {q : ExecQuery}
    (hrest : Puts φ rest.run ↔ φ q) :
    Puts φ (guarded context command rest).run ↔ (refusal command = none → φ q) := by
  have href := @rejectShellMetachars_eq_none command context
  rw [guarded]
  cases hr : rejectShellMetachars context command with
  | none => rw [← href, hr, hrest, forall_prop_of_true rfl]
  | some text =>
    rw [← href, hr]
    exact iff_of_true (puts_done φ _) (by simp)

theorem puts_raw_iff : Puts φ (cpKubectlRawWithExec cpIp command).run ↔
    (refusal command = none → φ (.run (remoteKubectl command))) :=
  puts_guarded_iff puts_ask_done

theorem puts_lenient_iff : Puts φ (cpKubectlLenientWithExec cpIp command).run ↔
    (refusal command = none → φ (.run (remoteKubectl command))) :=
  puts_guarded_iff puts_ask_done

theorem puts_withStdin_iff {stdin : String} :
    Puts φ (cpKubectlWithStdinLenient cpIp command stdin).run ↔
      (refusal command = none → φ (.runWithStdin (remoteKubectl command) stdin)) :=
  puts_guarded_iff puts_ask_done

theorem puts_cpKubectl_iff {plan : Plan} {φ : Query → Prop} (hd : plan.dryRun = false) :
    Puts φ (cpKubectl plan command).run ↔
      (refusal command = none → φ (kubectlQuery plan command)) := by
  constructor
  · intro h hr
    exact h _ _ ((finishes_cpKubectl hd hr).mpr ⟨.timedOut, rfl, rfl⟩) _ (List.mem_cons_self ..)
  · intro h t o ht x hx
    cases hr : refusal command with
    | none =>
      obtain ⟨e, rfl, -⟩ := (finishes_cpKubectl hd hr).mp ht
      obtain rfl := List.mem_singleton.mp hx
      exact h hr
    | some text =>
      obtain ⟨rfl, -⟩ := (finishes_cpKubectl_refused hd hr).mp ht
      cases hx

end Sent

section Command

def kubectlWords : List (List Char) :=
  ["kubectl".toList, "--kubeconfig=/etc/kubernetes/admin.conf".toList]

theorem toList_remoteKubectl (command : String) :
    (remoteKubectl command).toList = spaced kubectlWords ++ ' ' :: command.toList := by
  rw [remoteKubectl, String.toList_append]
  have hline : adminKubectl.toList = spaced kubectlWords ++ [' '] := by decide
  rw [hline, List.append_assoc, List.singleton_append]

theorem kubectlWords_ne_nil : kubectlWords ≠ [] := List.cons_ne_nil _ _

theorem kubectlWords_inert : ∀ a ∈ kubectlWords, IsInert a := by decide

/-- The line is one simple command that runs kubectl, none of its words left to be expanded,
and nothing is redirected. -/
def RunsKubectlOnly (line : String) : Prop :=
  ∃ args, argv noBraces line.toList = some (kubectlWords ++ args)

/-- Whatever is sent for the command, on each of the four ways, runs kubectl only. -/
structure SendsSafely (command : String) : Prop where
  raw : ∀ cpIp, Puts (fun q => RunsKubectlOnly (lineOf q)) (cpKubectlRawWithExec cpIp command).run
  lenient : ∀ cpIp,
    Puts (fun q => RunsKubectlOnly (lineOf q)) (cpKubectlLenientWithExec cpIp command).run
  withStdin : ∀ cpIp stdin,
    Puts (fun q => RunsKubectlOnly (lineOf q)) (cpKubectlWithStdinLenient cpIp command stdin).run
  updateCluster : ∀ plan, Puts (fun q => ∀ options line stdin, q = .ssh options line stdin →
    RunsKubectlOnly line) (cpKubectl plan command).run

theorem runsKubectlOnly_iff (command : String) :
    RunsKubectlOnly (remoteKubectl command) ↔ isFixed command.toList = true := by
  rw [RunsKubectlOnly, toList_remoteKubectl]
  refine argv_append_iff kubectlWords_ne_nil (fun a ha => ⟨kubectlWords_inert a ha, ?_⟩) _
  revert a
  decide

/-- A command that the guard accepts runs kubectl and nothing else if and only if no character
of it that the guard overlooks means anything to the shell where it stands. -/
theorem sendsSafely_iff (command : String) :
    SendsSafely command ↔ refusal command ≠ none ∨ isFixed command.toList = true := by
  rw [← runsKubectlOnly_iff, ← imp_iff_not_or]
  constructor
  · intro h
    exact puts_raw_iff.mp (h.raw "")
  · intro h
    refine ⟨fun _ => puts_raw_iff.mpr h, fun _ => puts_lenient_iff.mpr h,
      fun _ _ => puts_withStdin_iff.mpr h, fun plan => ?_⟩
    cases hd : plan.dryRun with
    | false =>
      refine (puts_cpKubectl_iff hd).mpr fun hr options line stdin hq => ?_
      obtain ⟨-, rfl, -⟩ := Query.ssh.inj hq
      exact h hr
    | true =>
      intro t o ht x hx
      obtain ⟨rfl, -⟩ := (finishes_cpKubectl_dryRun hd).mp ht
      cases hx

/-- A redirection passes the guard. -/
theorem redirection_accepted : refusal "get pods > /etc/passwd" = none ∧
    argv noBraces (remoteKubectl "get pods > /etc/passwd").toList = none ∧
    ¬ SendsSafely "get pods > /etc/passwd" := by
  have hr : refusal "get pods > /etc/passwd" = none := by decide
  have ha : argv noBraces (remoteKubectl "get pods > /etc/passwd").toList = none := by decide
  refine ⟨hr, ha, fun h => ?_⟩
  obtain ⟨args, hargs⟩ : RunsKubectlOnly (remoteKubectl "get pods > /etc/passwd") :=
    puts_raw_iff.mp (h.raw "") hr
  rw [ha] at hargs
  cases hargs

example : isFixed "get pods -o jsonpath='{.items[*].status}'".toList = true := by decide

end Command

section Arguments

/-- A shell, by the words that it makes others of because of their braces. -/
structure ShellBraces where
  braces : Word → Bool
  literal : ∀ w, Mark.bare '{' ∉ w → braces w = false

/-- One without brace expansion. -/
def ShellBraces.posix : ShellBraces := ⟨noBraces, fun _ _ => rfl⟩

/-- `kubectl` receives the arguments that were given, if anything is sent. -/
def Delivers (sh : ShellBraces) (cpIp : String) (args : List String) : Prop :=
  Puts (fun q => argv sh.braces (lineOf q).toList = some (kubectlWords ++ args.map String.toList))
    (run cpIp args).run

/-- A text that the shell takes for one word, and for itself. -/
def IsPlain (sh : ShellBraces) (arg : String) : Prop :=
  IsInert arg.toList ∧ Word.fixed? sh.braces (arg.toList.map .bare) = some arg.toList

theorem isPlain_kubectlWords (sh : ShellBraces) : ∀ a ∈ kubectlWords,
    IsInert a ∧ Word.fixed? sh.braces (a.map .bare) = some a := by
  intro a ha
  refine ⟨kubectlWords_inert a ha, ?_⟩
  have hbraces : sh.braces (a.map .bare) = false := by
    refine sh.literal _ ?_
    revert a
    decide
  have hplain : Word.isPattern (a.map .bare) = false ∧ Word.isTilde (a.map .bare) = false := by
    clear hbraces
    revert a
    decide
  rw [Word.fixed?, hplain.1, hplain.2, hbraces, text?_bare]
  rfl

theorem toList_remoteKubectl_args {args : List String} (hargs : args ≠ []) :
    (remoteKubectl (" ".intercalate args)).toList =
      spaced (kubectlWords ++ args.map String.toList) := by
  obtain ⟨a, args, rfl⟩ := List.exists_cons_of_ne_nil hargs
  rw [toList_remoteKubectl, String.toList_intercalate]
  simp [spaced, kubectlWords, List.intercalate, List.intersperse]

/-- What `kubectl` receives is what was given, whichever braces the shell expands, if and only
if nothing was given, the guard refuses it, or each argument is a plain word. -/
theorem delivers_iff (sh : ShellBraces) (cpIp : String) (args : List String) :
    Delivers sh cpIp args ↔
      args = [] ∨ refusal (" ".intercalate args) ≠ none ∨ ∀ a ∈ args, IsPlain sh a := by
  by_cases hargs : args = []
  · subst hargs
    refine iff_of_true ?_ (.inl rfl)
    exact puts_done _ _
  have hwords : kubectlWords ++ args.map String.toList ≠ [] :=
    List.append_ne_nil_of_left_ne_nil kubectlWords_ne_nil _
  rw [Delivers, run, if_neg hargs, puts_raw_iff, lineOf, toList_remoteKubectl_args hargs,
    argv_spaced_iff hwords, imp_iff_not_or]
  simp only [List.forall_mem_append, List.forall_mem_map, hargs, false_or]
  refine or_congr_right (and_iff_right (isPlain_kubectlWords sh))

/-- An argument with a space in it is accepted, and arrives as two. -/
theorem argument_divided :
    refusal (" ".intercalate ["get", "pods", "-l", "a b"]) = none ∧
      argv noBraces (remoteKubectl (" ".intercalate ["get", "pods", "-l", "a b"])).toList =
        some (kubectlWords ++ ["get", "pods", "-l", "a", "b"].map String.toList) ∧
      ¬ Delivers .posix "" ["get", "pods", "-l", "a b"] := by
  have hr : refusal (" ".intercalate ["get", "pods", "-l", "a b"]) = none := by decide
  have ha : argv noBraces (remoteKubectl (" ".intercalate ["get", "pods", "-l", "a b"])).toList =
      some (kubectlWords ++ ["get", "pods", "-l", "a", "b"].map String.toList) := by decide
  refine ⟨hr, ha, fun h => ?_⟩
  rw [Delivers, run, if_neg (List.cons_ne_nil _ _)] at h
  have hsent := puts_raw_iff.mp h hr
  have hsame := Option.some.inj (ha.symm.trans hsent)
  revert hsame
  decide

end Arguments

end Hbird.CpKubectl
