import Hbird.Config.ClusterConfig
import Hbird.Interaction.Handle
import Hbird.Utf8
import Hbird.Virt.Connection

namespace Hbird.Virt.CleanVms

open Hbird.Interaction Hbird.Ssh Hbird.Text Hbird.Utf8

/-- A command on its way to the KVM host, or a line on stdout. -/
inductive Ask : Type
  | run (command : String)
  | log (line : String)
  deriving DecidableEq, Repr

@[reducible] def Answer : Ask → Type
  | .run _ => Except Error (List UInt8)
  | .log _ => Unit

/-- The steps that cannot fail. -/
abbrev Sweep (α : Type) := Program Ask Answer α

def log (line : String) : Sweep Unit := Program.perform (Ask.log ("[clean-vms] " ++ line))

section Connection

def send (command : String) : Sweep (Except Error (List UInt8)) :=
  Program.perform (Ask.run command)

def textOf (stdout : List UInt8) : String := String.ofList (fromUtf8Lossy stdout)

/-- `Connection::run`; what it prints is decoded lossily. -/
def runText (command : String) : Sweep (Except Error String) :=
  send command >>= fun r => .done (r.map textOf)

def verb (command : String) : Sweep (Except Error Unit) :=
  runText command >>= fun r => .done (r.map fun _ => ())

/-- The commands go over the connection, with what they print as bytes. -/
def perform (conn : Connection) (print : String → Program Query Reply Unit) :
    (q : Ask) → Program Query Reply (Answer q)
  | .run command => Except.map (fun out => encode out.toList) <$> (conn.run command).run
  | .log line => print line

theorem textOf_encode (s : String) : textOf (encode s.toList) = s := by
  rw [textOf, fromUtf8Lossy_encode, String.ofList_toList]

/-- Over a connection the steps are those of `Connection`. -/
theorem handle_runText (conn : Connection) (print : String → Program Query Reply Unit)
    (command : String) : (runText command).handle (perform conn print) = (conn.run command).run := by
  have hsend : (send command).handle (perform conn print) =
      Except.map (fun out => encode out.toList) <$> (conn.run command).run := handle_perform _
  rw [runText, handle_bind, hsend, bind_map_left]
  refine Eq.trans (congrArg ((conn.run command).run >>= ·) (funext fun r => ?_))
    (Program.bind_done _)
  cases r with
  | ok out => exact congrArg (Program.done <| Except.ok ·) (textOf_encode out)
  | error e => rfl

theorem handle_verb (conn : Connection) (print : String → Program Query Reply Unit)
    (command : String) : (verb command).handle (perform conn print) = (conn.verb command).run := by
  rw [verb, handle_bind, handle_runText]
  refine congrArg ((conn.run command).run >>= ·) (funext fun r => ?_)
  cases r with
  | ok out => rfl
  | error e => rfl

/-- The trimmed lines of a listing that are not empty. -/
def listed (stdout : String) : List String := ((lines stdout).map trim).filter (· ≠ "")

def domainsCommand : String := virsh "list --all --name"

def lsCommand (dir : String) : String := "ls -1 -- " ++ shellQuote dir

def destroyCommand (domain : String) : String := virsh ("destroy " ++ shellQuote domain)

def undefineAllCommand (domain : String) : String :=
  virsh ("undefine " ++ shellQuote domain ++ " --remove-all-storage --nvram")

def refreshCommand (pool : String) : String := virsh ("pool-refresh " ++ shellQuote pool)

def domains : Sweep (Except Error (List String)) :=
  runText domainsCommand >>= fun r => .done (r.map listed)

def remoteLs (dir : String) : Sweep (Except Error (List String)) :=
  runText (lsCommand dir) >>= fun r => .done (r.map listed)

end Connection

def hummingbirdPrefix : String := "hummingbird-"

def stragglerSuffixes : List String := [".qcow2", "-seed.iso", "-cloud-init.iso"]

def endsWith (s t : String) : Bool := t.toList.isSuffixOf s.toList

def isHummingbirdDomain (name : String) : Bool := startsWith name hummingbirdPrefix

def isStragglerArtifact (name : String) : Bool :=
  startsWith name hummingbirdPrefix && stragglerSuffixes.any (endsWith name)

structure CleanVmsArgs where
  kvmHost : Option String
  poolDir : Option String
  poolName : Option String
  dryRun : Bool
  deriving DecidableEq, Repr

structure Plan where
  poolDir : String
  poolName : String
  kvmHost : Option String
  dryRun : Bool
  deriving DecidableEq, Repr

namespace Plan

def fromArgs (args : CleanVmsArgs) (config : Option Config.ClusterConfig) : Plan where
  poolDir := ((args.poolDir.filter (· ≠ "")).or (config.map (·.poolDir))).getD
    "/var/lib/libvirt/images"
  poolName := (args.poolName.filter (· ≠ "")).getD "default"
  kvmHost := (args.kvmHost.filter (· ≠ "")).or (config.bind (·.kvmHost))
  dryRun := args.dryRun

def poolPath (plan : Plan) (name : String) : String :=
  String.ofList (plan.poolDir.toList.rdropWhile (· == '/')) ++ "/" ++ name

def live (plan : Plan) : Plan := { plan with dryRun := false }

def dry (plan : Plan) : Plan := { plan with dryRun := true }

end Plan

/-- A step whose failure is one warning. -/
def warned (x : Sweep (Except Error Unit)) (text : Error → String) : Sweep Nat :=
  x >>= fun
    | .ok () => .done 0
    | .error e => log (text e) >>= fun _ => .done 1

/-- The warnings of a loop, added up. -/
def eachOf (f : String → Sweep Nat) : List String → Sweep Nat
  | [] => .done 0
  | name :: names => f name >>= fun n => eachOf f names >>= fun m => .done (n + m)

def wouldDestroy (name : String) : String :=
  "DRY-RUN would destroy + undefine --remove-all-storage " ++ name

def sweepDomain (plan : Plan) (name : String) : Sweep Nat :=
  if plan.dryRun then log (wouldDestroy name) >>= fun _ => .done 0
  else
    log ("destroying " ++ name) >>= fun _ =>
    warned (verb (destroyCommand name)) (fun e => "WARN: virsh destroy returned non-zero for " ++
      name ++ " (already shut off?): " ++ e.toText) >>= fun a =>
    warned (verb (undefineAllCommand name)) (fun e =>
      "WARN: virsh undefine --remove-all-storage returned non-zero for " ++ name ++ ": " ++
        e.toText) >>= fun b => .done (a + b)

def sweepDomains (plan : Plan) : Exec Ask Answer Failure Nat :=
  Exec.context (fun e => .context ("clean-vms: could not list libvirt domains — check --kvm-host " ++
    "reachability and libvirt-group membership before re-running") (.source e))
    (ExceptT.mk domains) >>= fun all =>
  Exec.observe (eachOf (sweepDomain plan) (all.filter isHummingbirdDomain))

def wouldRemove (path : String) : String := "DRY-RUN would rm -f " ++ path

def sweepStraggler (plan : Plan) (name : String) : Sweep Nat :=
  if plan.dryRun then log (wouldRemove (plan.poolPath name)) >>= fun _ => .done 0
  else
    log ("removing " ++ plan.poolPath name) >>= fun _ =>
    warned (verb (rmCommand (plan.poolPath name))) fun e =>
      "WARN: could not remove " ++ plan.poolPath name ++ ": " ++ e.toText

/-- The stragglers of a listing, in the order of their bytes. -/
def stragglers (entries : List String) : List String :=
  (entries.filter isStragglerArtifact).mergeSort fun a b => decide (a ≤ b)

def sweepStragglers (plan : Plan) : Exec Ask Answer Failure Nat :=
  Exec.observe (remoteLs plan.poolDir) >>= fun
    | .ok entries => Exec.observe (eachOf (sweepStraggler plan) (stragglers entries))
    | .error (.virshFailed _ stderr) =>
      Exec.observe (log ("WARN: could not list " ++ plan.poolDir ++ " (" ++ trim stderr ++
        "); skipping straggler sweep")) >>= fun _ => pure 1
    | .error e => throw (.context ("clean-vms: transport failure listing " ++ plan.poolDir)
        (.source e))

def refreshPool (plan : Plan) : Sweep Nat :=
  if plan.dryRun then log ("DRY-RUN would virsh pool-refresh " ++ plan.poolName) >>= fun _ => .done 0
  else warned (verb (refreshCommand plan.poolName)) fun e =>
    "WARN: virsh pool-refresh " ++ plan.poolName ++ " returned non-zero: " ++ e.toText

def farewell (warnings : Nat) : Sweep Unit :=
  (if warnings > 0 then log (toString warnings ++
      " step(s) warned — see WARN lines above (non-fatal, matching the bash twin)")
    else .done ()) >>= fun _ => log "done."

def run (plan : Plan) : Exec Ask Answer Failure Unit :=
  sweepDomains plan >>= fun a =>
  sweepStragglers plan >>= fun b =>
  Exec.observe (refreshPool plan) >>= fun c => Exec.observe (farewell (a + b + c))

end Hbird.Virt.CleanVms
