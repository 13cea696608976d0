import Hbird.Getopt
import Hbird.Virt.Connection
import Hbird.Virt.Uri

namespace Hbird.Ssh

open Hbird.Getopt

def yesNo (b : Bool) : String := if b then "yes" else "no"

namespace SshOptions

def target (o : SshOptions) : String :=
  match o.user with
  | some user => user ++ "@" ++ o.host
  | none => o.host

/-- The options that are passed to `ssh`, in their order; `uid` is the user's own. -/
def passed (uid : String) (o : SshOptions) : List (Char × String) :=
  (if o.includeIdentityFlag then o.identityFile.toList.map fun path => ('i', path) else []) ++
  [('o', "StrictHostKeyChecking=" ++ yesNo o.strictHostKeyChecking),
    ('o', "UserKnownHostsFile=/dev/null"),
    ('o', "LogLevel=ERROR"),
    ('o', "ConnectTimeout=" ++ toString o.connectTimeout),
    ('o', "BatchMode=" ++ yesNo o.batchMode)] ++
  (if o.controlMaster then
    [('o', "ControlMaster=auto"),
      ('o', "ControlPath=/tmp/hbird-ssh-" ++ uid ++ "-%r@%h:%p"),
      ('o', "ControlPersist=60s")]
  else []) ++
  o.proxyJump.toList.map (fun jump => ('o', "ProxyJump=" ++ jump)) ++
  o.port.toList.map (fun port => ('p', toString port.toNat))

/-- `to_argv`. -/
def toArgv (uid : String) (o : SshOptions) : List String :=
  ["ssh"] ++
  (if o.includeIdentityFlag then
    match o.identityFile with
    | some path => ["-i", path]
    | none => []
  else []) ++
  ["-o", "StrictHostKeyChecking=" ++ yesNo o.strictHostKeyChecking,
    "-o", "UserKnownHostsFile=/dev/null",
    "-o", "LogLevel=ERROR",
    "-o", "ConnectTimeout=" ++ toString o.connectTimeout,
    "-o", "BatchMode=" ++ yesNo o.batchMode] ++
  (if o.controlMaster then
    ["-o", "ControlMaster=auto",
      "-o", "ControlPath=/tmp/hbird-ssh-" ++ uid ++ "-%r@%h:%p",
      "-o", "ControlPersist=60s"]
  else []) ++
  (match o.proxyJump with
    | some jump => ["-o", "ProxyJump=" ++ jump]
    | none => []) ++
  (match o.port with
    | some port => ["-p", toString port.toNat]
    | none => []) ++
  [o.target]

/-- The arguments of the `ssh` that a client spawns. -/
def spawnArgs (uid : String) (o : SshOptions) (command : String) : List String :=
  (o.toArgv uid).tail ++ [command]

/-- What `ssh` is meant to make of them. -/
def intended (uid : String) (o : SshOptions) (command : String) : Reading :=
  ⟨(o.passed uid).map fun p => ⟨p.1, some p.2⟩, o.target, [command]⟩

theorem spawnArgs_eq (uid : String) (o : SshOptions) (command : String) :
    o.spawnArgs uid command = pairs (o.passed uid) ++ [o.target, command] := by
  obtain ⟨host, user, port, identityFile, proxyJump, connectTimeout, strict, batchMode,
    controlMaster, includeIdentityFlag, commandTimeout⟩ := o
  cases includeIdentityFlag <;> cases identityFile <;> cases controlMaster <;> cases proxyJump <;>
    cases port <;> rfl

theorem passed_letter {uid : String} {o : SshOptions} {p : Char × String} (h : p ∈ o.passed uid) :
    p.1 = 'i' ∨ p.1 = 'o' ∨ p.1 = 'p' := by
  simp only [passed, List.mem_append, List.mem_cons, List.not_mem_nil, or_false] at h
  obtain (((h | h) | h) | h) | h := h
  · split_ifs at h
    · obtain ⟨path, -, rfl⟩ := List.mem_map.mp h
      exact .inl rfl
    · cases h
  · obtain rfl | rfl | rfl | rfl | rfl := h <;> exact .inr (.inl rfl)
  · split_ifs at h
    · simp only [List.mem_cons, List.not_mem_nil, or_false] at h
      obtain rfl | rfl | rfl := h <;> exact .inr (.inl rfl)
    · cases h
  · obtain ⟨jump, -, rfl⟩ := List.mem_map.mp h
    exact .inr (.inl rfl)
  · obtain ⟨port, -, rfl⟩ := List.mem_map.mp h
    exact .inr (.inr rfl)

/-- `ssh` reads the vector as it is meant exactly where neither the target nor the command begins
with a dash. -/
theorem sshRead_spawnArgs {t : Table} (hi : t 'i' = some true) (ho : t 'o' = some true)
    (hp : t 'p' = some true) (uid : String) (o : SshOptions) (command : String) :
    sshRead t (o.spawnArgs uid command) = some (o.intended uid command) ↔
      ¬ IsDashed o.target ∧ ¬ IsDashed command := by
  rw [spawnArgs_eq]
  refine sshRead_iff fun p hpassed => ?_
  obtain hl | hl | hl := passed_letter hpassed <;> rw [hl]
  · exact ⟨hi, by decide⟩
  · exact ⟨ho, by decide⟩
  · exact ⟨hp, by decide⟩

end SshOptions

end Hbird.Ssh

namespace Hbird.Virt

open Hbird.Getopt Hbird.Ssh QemuSshUri

/-- What is asked of an `ssh` call, and of the host of a connection. -/
structure PassesSafely (t : Table) (uid : String) (kvmHost : Option String) (o : SshOptions)
    (command : String) : Prop where
  read : sshRead t (o.spawnArgs uid command) = some (o.intended uid command)
  host : ∀ host, buildConnection kvmHost = .remote host → IsSafeToken host.toList

/-- No dash before the target and the command, and a host that the parser of the URI would let
pass. -/
structure Harmless (kvmHost : Option String) (o : SshOptions) (command : String) : Prop where
  target : ¬ IsDashed o.target
  command : ¬ IsDashed command
  host : ∀ host ∈ kvmHost, host ≠ "" → validateSafeToken host.toList "host" host = .ok ()

theorem buildConnection_remote {kvmHost : Option String} {host : String} :
    buildConnection kvmHost = .remote host ↔ kvmHost = some host ∧ host ≠ "" := by
  unfold buildConnection
  cases kvmHost with
  | none => simp
  | some h =>
    by_cases hne : h = ""
    · subst hne
      simp only [Option.filter_some, ne_eq, not_true_eq_false, decide_false, Bool.false_eq_true,
        if_false, reduceCtorEq, false_iff, not_and, not_not]
      exact fun h => (Option.some.inj h).symm
    · simp only [Option.filter_some, hne, ne_eq, not_false_eq_true, decide_true, if_true,
        Connection.remote.injEq, Option.some.injEq]
      constructor
      · rintro rfl
        exact ⟨rfl, hne⟩
      · exact fun h => h.1

/-- Nothing between the settings and the vector looks at the host: an `ssh` call is what it is meant
to be exactly where the settings are harmless by themselves. -/
theorem passesSafely_iff {t : Table} (hi : t 'i' = some true) (ho : t 'o' = some true)
    (hp : t 'p' = some true) (uid : String) (kvmHost : Option String) (o : SshOptions)
    (command : String) : PassesSafely t uid kvmHost o command ↔ Harmless kvmHost o command := by
  constructor
  · rintro ⟨hread, hhost⟩
    obtain ⟨htarget, hcommand⟩ := (SshOptions.sshRead_spawnArgs hi ho hp uid o command).mp hread
    refine ⟨htarget, hcommand, fun host hmem hne => validateSafeToken_ok_iff.mpr ?_⟩
    exact hhost host (buildConnection_remote.mpr ⟨hmem, hne⟩)
  · rintro ⟨htarget, hcommand, hhost⟩
    refine ⟨(SshOptions.sshRead_spawnArgs hi ho hp uid o command).mpr ⟨htarget, hcommand⟩,
      fun host hconn => ?_⟩
    obtain ⟨hmem, hne⟩ := buildConnection_remote.mp hconn
    exact validateSafeToken_ok_iff.mp (hhost host hmem hne)

/-- The letters of OpenSSH. -/
def openSsh : Table := fun c =>
  if c ∈ "1246afgknqstvxACGKMNTVXYy".toList then some false
  else if c ∈ "bceilmopBDEFIJLOPQRSwW".toList then some true
  else none

theorem passesSafely_iff_sample : PassesSafely openSsh "1000" (some "kvm-1")
    { SshOptions.new "192.168.122.10" with user := some "root", proxyJump := some "-x" }
    "bootc status" := by
  refine (passesSafely_iff (by decide) (by decide) (by decide) _ _ _ _).mpr
    ⟨by decide, by decide, fun host hmem _ => ?_⟩
  obtain rfl := Option.some.inj hmem
  decide

/-- A host that is an option of `ssh`, and the connection that is made for it. -/
theorem option_for_host : buildConnection (some "-oProxyCommand=id") = .remote "-oProxyCommand=id" ∧
    ¬ PassesSafely openSsh "1000" (some "-oProxyCommand=id") (SshOptions.new "-oProxyCommand=id")
      "virsh list" := by
  refine ⟨by decide, fun h => ?_⟩
  have hread : sshRead openSsh ((SshOptions.new "-oProxyCommand=id").spawnArgs "1000" "virsh list") ≠
      some ((SshOptions.new "-oProxyCommand=id").intended "1000" "virsh list") := by decide
  exact hread h.read

end Hbird.Virt
