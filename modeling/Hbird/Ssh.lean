import Hbird.Interaction.Exec
import Hbird.Interaction.Handle
import Hbird.Text

namespace Hbird.Ssh

open Hbird.Interaction Hbird.Text

/-- `anyhow::Error` over the error types `E` of the crates below: what it prints first,
and what it was made from. -/
inductive Anyhow (E : Type) : Type
  | msg (text : String)
  | embeds (text : String) (error : E)
  | source (error : E)
  | context (text : String) (inner : Anyhow E)
  deriving DecidableEq, Repr

/-- `e.to_string()`: the outermost text. -/
def Anyhow.toText {E : Type} (display : E → String) : Anyhow E → String
  | .msg text => text
  | .embeds text e => text ++ display e
  | .source e => display e
  | .context text _ => text

inductive ExitStatus : Type
  | code (c : UInt8)
  | signal (n : Nat)
  deriving DecidableEq, Repr

namespace ExitStatus

def success : ExitStatus → Bool
  | .code c => c == 0
  | .signal _ => false

/-- `ExitStatus::code`: `None` for a process killed by a signal. -/
def toCode : ExitStatus → Option UInt8
  | .code c => some c
  | .signal _ => none

def signalNames : List String :=
  ["SIGHUP", "SIGINT", "SIGQUIT", "SIGILL", "SIGTRAP", "SIGABRT", "SIGBUS", "SIGFPE", "SIGKILL",
    "SIGUSR1", "SIGSEGV", "SIGUSR2", "SIGPIPE", "SIGALRM", "SIGTERM", "SIGSTKFLT", "SIGCHLD",
    "SIGCONT", "SIGSTOP", "SIGTSTP", "SIGTTIN", "SIGTTOU", "SIGURG", "SIGXCPU", "SIGXFSZ",
    "SIGVTALRM", "SIGPROF", "SIGWINCH", "SIGIO", "SIGPWR", "SIGSYS"]

def toText : ExitStatus → String
  | .code c => "exit status: " ++ toString c.toNat
  | .signal 0 => "signal: 0"
  | .signal (n + 1) => "signal: " ++ toString (n + 1) ++
      match signalNames[n]? with
      | some name => " (" ++ name ++ ")"
      | none => ""

end ExitStatus

inductive SpawnKind : Type
  | sshBinaryMissing
  | other
  deriving DecidableEq, Repr

/-- How a child process that was to be spawned, fed and waited for can end. -/
inductive ProcessEnd : Type
  | spawnFailed (kind : SpawnKind) (source : String)
  | stdinFailed (source : String)
  | waitFailed (source : String)
  | timedOut
  | exited (status : ExitStatus) (stdout stderr : String)
  deriving DecidableEq, Repr

inductive Error : Type
  | spawn (program host : String) (kind : SpawnKind) (source : String)
  | wait (host source : String)
  | stdinWrite (host source : String)
  | nonZeroExit (host : String) (status : ExitStatus) (stdout stderr : String)
  | identityFileMissing (path : String)
  | timeout (host : String) (seconds : Nat)
  deriving DecidableEq, Repr

/-- `Display`. -/
def Error.toText : Error → String
  | .spawn program host _ source =>
    "failed to spawn " ++ program ++ " for host " ++ host ++ ": " ++ source
  | .wait host source => "waiting on ssh for host " ++ host ++ " failed: " ++ source
  | .stdinWrite host source => "writing stdin to ssh for host " ++ host ++ " failed: " ++ source
  | .nonZeroExit host status _ stderr =>
    "ssh to " ++ host ++ " command failed with status " ++ status.toText ++ "; stderr: " ++ quoted stderr
  | .identityFileMissing path => "identity file does not exist: " ++ path
  | .timeout host seconds => "ssh to " ++ host ++ " exceeded the " ++ toString seconds ++
      "s command timeout; killed the local ssh process"

structure RunOutput where
  status : ExitStatus
  stdout : String
  stderr : String
  deriving DecidableEq, Repr

structure SshOptions where
  host : String
  user : Option String
  port : Option UInt16
  identityFile : Option String
  proxyJump : Option String
  connectTimeout : Nat
  strictHostKeyChecking : Bool
  batchMode : Bool
  controlMaster : Bool
  includeIdentityFlag : Bool
  commandTimeout : Option Nat
  deriving DecidableEq, Repr

namespace SshOptions

def new (host : String) : SshOptions where
  host := host
  user := none
  port := none
  identityFile := none
  proxyJump := none
  connectTimeout := 10
  strictHostKeyChecking := false
  batchMode := true
  controlMaster := false
  includeIdentityFlag := true
  commandTimeout := none

def withUser (user : String) (o : SshOptions) : SshOptions := { o with user := some user }

def withProxyJump (host : String) (o : SshOptions) : SshOptions := { o with proxyJump := some host }

def withConnectTimeout (seconds : Nat) (o : SshOptions) : SshOptions :=
  { o with connectTimeout := seconds }

def withCommandTimeout (seconds : Nat) (o : SshOptions) : SshOptions :=
  { o with commandTimeout := some seconds }

end SshOptions

/-- What the commands ask of their surroundings: an `ssh` child, a local `sh -c` child,
a look at the local file system, a line on stderr. -/
inductive Query : Type
  | ssh (options : SshOptions) (command : String) (stdin : Option String)
  | sh (command : String)
  | fileExists (path : String)
  | eprintln (line : String)
  deriving DecidableEq, Repr

@[reducible] def Reply : Query → Type
  | .ssh _ _ _ => ProcessEnd
  | .sh _ => ProcessEnd
  | .fileExists _ => Bool
  | .eprintln _ => Unit

instance : (q : Query) → DecidableEq (Reply q)
  | .ssh _ _ _ => inferInstanceAs (DecidableEq ProcessEnd)
  | .sh _ => inferInstanceAs (DecidableEq ProcessEnd)
  | .fileExists _ => inferInstanceAs (DecidableEq Bool)
  | .eprintln _ => inferInstanceAs (DecidableEq Unit)

/-- Surroundings whose `n`-th child ends as the `n`-th entry says, with no file and an
unread stderr. -/
def scripted (ends : List ProcessEnd) : Nat → (q : Query) → Reply q
  | n, .ssh _ _ _ => ends.getD n .timedOut
  | n, .sh _ => ends.getD n .timedOut
  | _, .fileExists _ => false
  | _, .eprintln _ => ()

def printed (stdout : String) : ProcessEnd := .exited (.code 0) stdout ""

def failed (code : UInt8) : ProcessEnd := .exited (.code code) "" ""

abbrev Remote (ε α : Type) := Exec Query Reply ε α

/-- The part of `Client::run_inner_impl` after the child was asked for. -/
def endResult (o : SshOptions) : ProcessEnd → Except Error RunOutput
  | .spawnFailed kind source => .error (.spawn "ssh" o.host kind source)
  | .stdinFailed source => .error (.stdinWrite o.host source)
  | .waitFailed source => .error (.wait o.host source)
  | .timedOut => .error (.timeout o.host (o.commandTimeout.getD 0))
  | .exited status stdout stderr =>
    if status.success then .ok ⟨status, stdout, stderr⟩
    else .error (.nonZeroExit o.host status stdout stderr)

namespace Client

def spawned (o : SshOptions) (command : String) (stdin : Option String) : Remote Error RunOutput :=
  Exec.observe (Program.perform (.ssh o command stdin)) >>= fun e => (endResult o e : Except _ _)

def runInner (o : SshOptions) (command : String) (stdin : Option String) :
    Remote Error RunOutput :=
  match o.identityFile with
  | none => spawned o command stdin
  | some path => Exec.observe (Program.perform (.fileExists path)) >>= fun found =>
      if found then spawned o command stdin else throw (.identityFileMissing path)

def run (o : SshOptions) (command : String) : Remote Error RunOutput := runInner o command none

def runWithStdin (o : SshOptions) (command stdin : String) : Remote Error RunOutput :=
  runInner o command (some stdin)

end Client

/-- What the `SshExec` trait offers. -/
inductive ExecQuery : Type
  | run (command : String)
  | runWithStdin (command stdin : String)
  deriving DecidableEq, Repr

@[reducible] def ExecReply (_ : ExecQuery) : Type := Except Error RunOutput

instance : (q : ExecQuery) → DecidableEq (ExecReply q) :=
  fun _ => inferInstanceAs (DecidableEq (Except Error RunOutput))

/-- An executor whose `n`-th use returns the `n`-th entry. -/
def scriptedExec (results : List (Except Error RunOutput)) : Nat → (q : ExecQuery) → ExecReply q :=
  fun n _ => results.getD n (.error (.wait "" ""))

/-- Code against the trait, whatever stands behind it. -/
abbrev Executor (ε α : Type) := Exec ExecQuery ExecReply ε α

def SshExec.run (command : String) : Executor Error RunOutput :=
  (Program.perform (.run command) : Program ExecQuery ExecReply (Except Error RunOutput))

def SshExec.runWithStdin (command stdin : String) : Executor Error RunOutput :=
  (Program.perform (.runWithStdin command stdin) :
    Program ExecQuery ExecReply (Except Error RunOutput))

/-- The client as an executor. -/
def Client.serve (o : SshOptions) : (q : ExecQuery) → Program Query Reply (ExecReply q)
  | .run command => (Client.run o command).run
  | .runWithStdin command stdin => (Client.runWithStdin o command stdin).run

def live {ε α : Type} (o : SshOptions) (x : Executor ε α) : Remote ε α :=
  ExceptT.mk (x.run.handle (Client.serve o))

theorem finishes_spawned {o : SshOptions} {command : String} {stdin : Option String}
    {t : Trace Reply} {r : Except Error RunOutput} :
    Finishes (Client.spawned o command stdin) t r ↔
      ∃ e, t = [⟨.ssh o command stdin, e⟩] ∧ r = endResult o e := by
  rw [Client.spawned, finishes_observe_bind]
  constructor
  · rintro ⟨e, t₁, t₂, rfl, h₁, h₂⟩
    have ht := runs_perform.mp h₁
    obtain ⟨rfl, rfl⟩ := runs_done.mp h₂
    exact ⟨e, by rw [ht, List.append_nil], rfl⟩
  · rintro ⟨e, rfl, rfl⟩
    exact ⟨e, [⟨.ssh o command stdin, e⟩], [], rfl, runs_perform.mpr rfl, .done _⟩

theorem finishes_runInner {o : SshOptions} (hi : o.identityFile = none) {command : String}
    {stdin : Option String} {t : Trace Reply} {r : Except Error RunOutput} :
    Finishes (Client.runInner o command stdin) t r ↔
      ∃ e, t = [⟨.ssh o command stdin, e⟩] ∧ r = endResult o e := by
  rw [Client.runInner, hi]
  exact finishes_spawned

theorem endResult_ok {o : SshOptions} {e : ProcessEnd} {out : RunOutput} :
    endResult o e = .ok out ↔ out.status = .code 0 ∧ e = .exited out.status out.stdout out.stderr := by
  cases e with
  | exited status stdout stderr =>
    simp only [endResult]
    cases status with
    | code c =>
      by_cases hc : c = 0
      · subst c
        simp only [ExitStatus.success, beq_self_eq_true, if_true, Except.ok.injEq,
          ProcessEnd.exited.injEq]
        constructor
        · rintro rfl
          exact ⟨rfl, rfl, rfl, rfl⟩
        · rintro ⟨-, hs, ho, he⟩
          rw [hs, ho, he]
      · simp only [ExitStatus.success, beq_iff_eq, hc, if_false, reduceCtorEq, false_iff,
          ProcessEnd.exited.injEq]
        rintro ⟨hs, hc', -, -⟩
        exact hc (ExitStatus.code.inj (hc'.trans hs))
    | signal n =>
      simp only [ExitStatus.success, Bool.false_eq_true, if_false, reduceCtorEq, false_iff,
        ProcessEnd.exited.injEq]
      rintro ⟨hs, hn, -, -⟩
      exact absurd (hn.trans hs) (by simp)
  | spawnFailed kind source => simp [endResult]
  | stdinFailed source => simp [endResult]
  | waitFailed source => simp [endResult]
  | timedOut => simp [endResult]

def ExecQuery.onClient (o : SshOptions) : ExecQuery → Query
  | .run command => .ssh o command none
  | .runWithStdin command stdin => .ssh o command (some stdin)

theorem finishes_sshExec_run {command : String} {t : Trace ExecReply} {r : Except Error RunOutput} :
    Finishes (SshExec.run command) t r ↔ t = [⟨.run command, r⟩] := runs_perform

theorem finishes_live {ε α : Type} {o : SshOptions} {x : Executor ε α} {w : Trace Reply}
    {r : Except ε α} :
    Finishes (live o x) w r ↔ ∃ t, Finishes x t r ∧ Carries (Client.serve o) t w := runs_handle

theorem runs_serve {o : SshOptions} (hi : o.identityFile = none) {command : String}
    {u : Trace Reply} {r : Except Error RunOutput} :
    Runs (Client.serve o (.run command)) u r ↔
      ∃ e, u = [⟨.ssh o command none, e⟩] ∧ r = endResult o e := finishes_runInner hi

/-- With no identity file to look for, each use of the executor is one `ssh` child. -/
theorem carries_serve {o : SshOptions} (hi : o.identityFile = none) {t : Trace ExecReply}
    {w : Trace Reply} (h : Carries (Client.serve o) t w) :
    w.map Sigma.fst = t.map fun x => x.1.onClient o := by
  induction h with
  | nil => rfl
  | @cons q r t u v hq _ ih =>
    cases q with
    | run command =>
      obtain ⟨e, rfl, -⟩ := (finishes_runInner hi).mp hq
      simp [ih, ExecQuery.onClient]
    | runWithStdin command stdin =>
      obtain ⟨e, rfl, -⟩ := (finishes_runInner hi).mp hq
      simp [ih, ExecQuery.onClient]

end Hbird.Ssh
