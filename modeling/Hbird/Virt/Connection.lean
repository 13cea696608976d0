import Hbird.Ssh

namespace Hbird.Virt

open Hbird.Interaction Hbird.Ssh Hbird.Text

/-- What the libvirt side knows of a command that did not succeed. -/
inductive SshError : Type
  | transport (host message : String)
  | remoteExit (host command : String) (exitCode : Option UInt8) (stderr : String)
  deriving DecidableEq, Repr

/-- `Display`. -/
def SshError.toText : SshError → String
  | .transport host message => "SSH transport failure for " ++ host ++ ": " ++ message
  | .remoteExit host command exitCode stderr =>
    let code := match exitCode with
      | some c => toString c.toNat
      | none => "signalled"
    "remote command on " ++ host ++ " exited " ++ code ++ ": " ++ quoted command ++
      "\n--- stderr ---\n" ++ stderr

inductive Error : Type
  | ssh (source : SshError)
  | virshFailed (command stderr : String)
  | unparseableOutput (command reason : String)
  deriving DecidableEq, Repr

def Error.toText : Error → String
  | .ssh source => "SSH transport error: " ++ source.toText
  | .virshFailed command stderr => "remote command failed: " ++ quoted command ++ ": " ++ stderr
  | .unparseableOutput command reason =>
    "could not parse virsh output for " ++ quoted command ++ ": " ++ reason

abbrev Failure := Anyhow Error

/-- `anyhow!("..: {e}")`. -/
def wrapped {α : Type} (text : String) (x : Remote Error α) : Remote Failure α :=
  x.context fun e => .msg (text ++ e.toText)

def bail {α : Type} (text : String) : Remote Failure α := throw (.msg text)

def bridgeResult (o : SshOptions) (command : String) :
    Except Ssh.Error RunOutput → Except SshError String
  | .ok out => .ok out.stdout
  | .error (.nonZeroExit host status _ stderr) =>
    .error (.remoteExit host command status.toCode stderr)
  | .error e => .error (.transport o.host e.toText)

def CliSshBridge.run (o : SshOptions) (command : String) : Remote SshError String :=
  Exec.outcome (Client.run o command) >>= fun r => (bridgeResult o command r : Except _ _)

/-- A `sh` that could not be started has no status; there is no timeout on it. -/
def localResult (command : String) : ProcessEnd → Except SshError String
  | .spawnFailed _ source => .error (.transport "local" ("failed to spawn sh: " ++ source))
  | .stdinFailed source => .error (.transport "local" ("failed to spawn sh: " ++ source))
  | .waitFailed source => .error (.transport "local" ("failed to spawn sh: " ++ source))
  | .timedOut => .error (.transport "local" "failed to spawn sh: ")
  | .exited status stdout stderr =>
    if status.success then .ok stdout
    else .error (.remoteExit "local" command status.toCode stderr)

def LocalClient.run (command : String) : Remote SshError String :=
  Exec.observe (Program.perform (.sh command)) >>= fun e => (localResult command e : Except _ _)

inductive Connection : Type
  | remote (host : String)
  | onHost
  deriving DecidableEq, Repr

/-- No host, or an empty one: the operator sits on the KVM host. -/
def buildConnection (kvmHost : Option String) : Connection :=
  match kvmHost.filter (· ≠ "") with
  | some host => .remote host
  | none => .onHost

def remoteUri : String := "qemu:///system"

def wrapQuotes (s : String) : String :=
  "'" ++ String.join (s.toList.map fun c =>
    if c = '\'' then "'\\''" else String.singleton c) ++ "'"

def shellQuote (s : String) : String :=
  if s = "" then "''"
  else if s.toList.all fun c => c.isAlphanum || c = '-' || c = '_' || c = '.' then s
  else wrapQuotes s

def shQuote (s : String) : String :=
  if s = "" then "''"
  else if s.toList.all fun c =>
      c.isAlphanum || c = '-' || c = '_' || c = '.' || c = '/' || c = ':' then s
  else wrapQuotes s

structure ExtraNic where
  network : String
  mac : String
  deriving DecidableEq, Repr

structure VmSpec where
  name : String
  memoryMib : Nat
  vcpus : UInt32
  diskPath : String
  cdrom : Option String
  primaryMac : Option String
  extraNic : Option ExtraNic
  deriving DecidableEq, Repr

def virsh (rest : String) : String := "virsh -c " ++ remoteUri ++ " " ++ rest

def dominfoCommand (domain : String) : String := virsh ("dominfo " ++ shellQuote domain)

def undefineCommand (domain : String) : String := virsh ("undefine --nvram " ++ shellQuote domain)

def rmCommand (path : String) : String := "rm -f -- " ++ shellQuote path

def cpCommand (src dst : String) : String :=
  "cp --reflink=auto " ++ shellQuote src ++ " " ++ shellQuote dst

def virtInstallCommand (spec : VmSpec) : String :=
  "virt-install --connect " ++ remoteUri ++ " --name " ++ shellQuote spec.name ++
    " --memory " ++ toString spec.memoryMib ++ " --vcpus " ++ toString spec.vcpus.toNat ++
    " --disk " ++ shellQuote spec.diskPath ++ ",format=qcow2,bus=virtio" ++
    (match spec.cdrom with
      | some path => " --disk path=" ++ shellQuote path ++ ",device=cdrom,readonly=on"
      | none => "") ++
    " --import --os-variant fedora-unknown --network network=default,model=virtio" ++
    (match spec.primaryMac with
      | some mac => ",mac=" ++ mac
      | none => "") ++
    (match spec.extraNic with
      | some extra => " --network network=" ++ shellQuote extra.network ++ ",mac=" ++ extra.mac
      | none => "") ++
    " --graphics vnc,listen=127.0.0.1 --noautoconsole"

structure DomainInfo where
  name : String
  state : String
  persistent : Bool
  osType : String
  deriving DecidableEq, Repr

/-- The rows of a `dominfo` table seen so far. -/
structure DominfoRows where
  name : Option String
  state : Option String
  persistent : Option Bool
  osType : Option String

def DominfoRows.read (rows : DominfoRows) (line : String) : DominfoRows :=
  match splitOnce ':' line with
  | none => rows
  | some (key, value) =>
    let value := trim value
    match trim key with
    | "Name" => { rows with name := some value }
    | "State" => { rows with state := some (toAsciiLowercase value) }
    | "Persistent" => { rows with persistent := some (eqIgnoreAsciiCase value "yes") }
    | "OS Type" => { rows with osType := some value }
    | _ => rows

def parseDominfo (stdout command : String) : Except Error DomainInfo :=
  let rows := (lines stdout).foldl DominfoRows.read ⟨none, none, none, none⟩
  let missing row := Error.unparseableOutput command ("dominfo output missing '" ++ row ++ ":' row")
  match rows.name, rows.state, rows.persistent, rows.osType with
  | none, _, _, _ => .error (missing "Name")
  | _, none, _, _ => .error (missing "State")
  | _, _, none, _ => .error (missing "Persistent")
  | _, _, _, none => .error (missing "OS Type")
  | some name, some state, some persistent, some osType => .ok ⟨name, state, persistent, osType⟩

def findIpDhcpHostByName (netXml name : String) : Option String :=
  ((lines netXml).map trim).find? fun l =>
    startsWith l "<host " && contains l ("name='" ++ name ++ "'")

/-- A non-zero exit of the command is told apart from a failure of `ssh` itself. -/
def runResult (command : String) : Except SshError String → Except Error String
  | .ok stdout => .ok stdout
  | .error (.remoteExit _ _ _ stderr) => .error (.virshFailed command stderr)
  | .error other => .error (.ssh other)

namespace Connection

def client : Connection → String → Remote SshError String
  | .remote host, command => CliSshBridge.run (.new host) command
  | .onHost, command => LocalClient.run command

def run (conn : Connection) (command : String) : Remote Error String :=
  Exec.outcome (conn.client command) >>= fun r => (runResult command r : Except _ _)

def execShell (conn : Connection) (command : String) : Remote Error String := conn.run command

/-- A command whose output is of no interest. -/
def verb (conn : Connection) (command : String) : Remote Error Unit :=
  conn.run command >>= fun _ => pure ()

def dominfo (conn : Connection) (domain : String) : Remote Error DomainInfo :=
  conn.run (dominfoCommand domain) >>= fun stdout =>
    (parseDominfo stdout (dominfoCommand domain) : Except _ _)

def destroyDomain (conn : Connection) (domain : String) : Remote Error Unit :=
  conn.verb (virsh ("destroy " ++ shellQuote domain))

def undefineDomain (conn : Connection) (domain : String) : Remote Error Unit :=
  conn.verb (undefineCommand domain)

def startDomain (conn : Connection) (domain : String) : Remote Error Unit :=
  conn.verb (virsh ("start " ++ shellQuote domain))

def remoteRmF (conn : Connection) (path : String) : Remote Error Unit := conn.verb (rmCommand path)

def remoteCpReflink (conn : Connection) (src dst : String) : Remote Error Unit :=
  conn.verb (cpCommand src dst)

def virtInstallVm (conn : Connection) (spec : VmSpec) : Remote Error Unit :=
  conn.verb (virtInstallCommand spec)

def netDumpxml (conn : Connection) (network : String) : Remote Error String :=
  conn.run (virsh ("net-dumpxml " ++ shellQuote network))

def netUpdateAddIpDhcpHost (conn : Connection) (network mac name ip : String) : Remote Error Unit :=
  conn.verb (virsh ("net-update " ++ shellQuote network ++ " add ip-dhcp-host " ++
    shellQuote ("<host mac='" ++ mac ++ "' name='" ++ name ++ "' ip='" ++ ip ++ "'/>") ++
    " --live --config"))

def netUpdateDeleteIpDhcpHost (conn : Connection) (network hostXml : String) : Remote Error Unit :=
  conn.verb (virsh ("net-update " ++ shellQuote network ++ " delete ip-dhcp-host " ++
    shellQuote hostXml ++ " --live --config"))

/-- `test -e` ends with 1 for a path that is not there; any other end is an error. -/
def remotePathExists (conn : Connection) (path : String) : Remote Error Bool :=
  Exec.outcome (conn.client ("test -e " ++ shellQuote path)) >>= fun
    | .ok _ => pure true
    | .error (.remoteExit _ _ (some 1) _) => pure false
    | .error other => throw (.ssh other)

/-- What a command becomes on its way out. -/
def query : Connection → String → Query
  | .remote host, command => .ssh (.new host) command none
  | .onHost, command => .sh command

/-- The command on its way out, with the end it came to. -/
def exchange (conn : Connection) (command : String) (e : ProcessEnd) : Exchange Reply :=
  match conn with
  | .remote host => ⟨.ssh (.new host) command none, e⟩
  | .onHost => ⟨.sh command, e⟩

def result (conn : Connection) (command : String) (e : ProcessEnd) : Except Error String :=
  runResult command (match conn with
    | .remote host => bridgeResult (.new host) command (endResult (.new host) e)
    | .onHost => localResult command e)

variable {conn : Connection} {command : String} {t : Trace Reply}

theorem finishes_client {r : Except SshError String} :
    Finishes (conn.client command) t r ↔ ∃ e, t = [conn.exchange command e] ∧ r = match conn with
      | .remote host => bridgeResult (.new host) command (endResult (.new host) e)
      | .onHost => localResult command e := by
  cases conn with
  | remote host =>
    rw [client, CliSshBridge.run, finishes_outcome_bind]
    constructor
    · rintro ⟨x, t₁, t₂, rfl, h₁, h₂⟩
      obtain ⟨e, rfl, rfl⟩ := (finishes_runInner rfl).mp h₁
      obtain ⟨rfl, rfl⟩ := runs_done.mp h₂
      exact ⟨e, rfl, rfl⟩
    · rintro ⟨e, rfl, rfl⟩
      exact ⟨_, _, [], rfl, (finishes_runInner rfl).mpr ⟨e, rfl, rfl⟩, .done _⟩
  | onHost =>
    rw [client, LocalClient.run, finishes_observe_bind]
    constructor
    · rintro ⟨e, t₁, t₂, rfl, h₁, h₂⟩
      obtain rfl := runs_perform.mp h₁
      obtain ⟨rfl, rfl⟩ := runs_done.mp h₂
      exact ⟨e, rfl, rfl⟩
    · rintro ⟨e, rfl, rfl⟩
      exact ⟨e, _, [], rfl, runs_perform.mpr rfl, .done _⟩

theorem finishes_run {r : Except Error String} :
    Finishes (conn.run command) t r ↔
      ∃ e, t = [conn.exchange command e] ∧ r = conn.result command e := by
  rw [run, finishes_outcome_bind]
  constructor
  · rintro ⟨x, t₁, t₂, rfl, h₁, h₂⟩
    obtain ⟨e, rfl, rfl⟩ := finishes_client.mp h₁
    obtain ⟨rfl, rfl⟩ := runs_done.mp h₂
    exact ⟨e, rfl, rfl⟩
  · rintro ⟨e, rfl, rfl⟩
    exact ⟨_, _, [], rfl, finishes_client.mpr ⟨e, rfl, rfl⟩, .done _⟩

theorem finishes_verb {o : Except Error Unit} :
    Finishes (conn.verb command) t o ↔
      ∃ e, t = [conn.exchange command e] ∧ o = (conn.result command e).map fun _ => () := by
  rw [verb, finishes_bind]
  constructor
  · rintro (⟨err, rfl, h⟩ | ⟨out, t₁, t₂, rfl, h, hrest⟩)
    · obtain ⟨e, rfl, he⟩ := finishes_run.mp h
      exact ⟨e, rfl, by rw [← he]; rfl⟩
    · obtain ⟨e, rfl, he⟩ := finishes_run.mp h
      obtain ⟨rfl, rfl⟩ := finishes_pure.mp hrest
      exact ⟨e, rfl, by rw [← he]; rfl⟩
  · rintro ⟨e, rfl, rfl⟩
    cases hresult : conn.result command e with
    | error err => exact .inl ⟨err, rfl, finishes_run.mpr ⟨e, rfl, hresult.symm⟩⟩
    | ok out =>
      exact .inr ⟨out, _, [], rfl, finishes_run.mpr ⟨e, rfl, hresult.symm⟩,
        finishes_pure.mpr ⟨rfl, rfl⟩⟩

theorem exchange_fst {e : ProcessEnd} : (conn.exchange command e).1 = conn.query command := by
  cases conn <;> rfl

theorem query_injective {command' : String} (h : conn.query command = conn.query command') :
    command = command' := by
  cases conn with
  | remote host => exact (Query.ssh.inj h).2.1
  | onHost => exact Query.sh.inj h

theorem exchange_injective {e e' : ProcessEnd}
    (h : conn.exchange command e = conn.exchange command e') : e = e' := by
  cases conn with
  | remote host => exact eq_of_heq (Sigma.mk.inj h).2
  | onHost => exact eq_of_heq (Sigma.mk.inj h).2

/-- A command that ran to its end with status 0 is the only one that succeeds. -/
theorem result_exited {status : ExitStatus} {stdout stderr : String} :
    conn.result command (.exited status stdout stderr) =
      if status.success then .ok stdout else .error (.virshFailed command stderr) := by
  cases conn <;> simp only [result, endResult, localResult] <;> cases status.success <;> rfl

theorem exits_of_result_ok {out : String} {e : ProcessEnd} (h : conn.result command e = .ok out) :
    ∃ stderr, e = .exited (.code 0) out stderr := by
  cases e with
  | exited status stdout stderr =>
    rw [result_exited] at h
    split_ifs at h with hs
    obtain rfl := Except.ok.inj h
    cases status with
    | code c => exact ⟨stderr, by rw [eq_of_beq hs]⟩
    | signal n => cases hs
  | _ => cases conn <;> cases h

end Connection

end Hbird.Virt
