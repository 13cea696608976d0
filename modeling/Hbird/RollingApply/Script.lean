import Hbird.Interaction.Machine
import Hbird.StagedCheck

namespace Hbird.RollingApply

open Hbird.Interaction Hbird.StagedCheck Hbird.Text

/-- A command that ends well or not, and what it prints. -/
structure Shot where
  ok : Bool
  out : String
  deriving DecidableEq, Repr

namespace Shot

/-- What a variable is set to by `$(..)`. -/
def text (r : Shot) : String := substituted r.out

end Shot

/-- What `cluster.conf` and the environment give. -/
structure Config where
  cpName : String
  workerNames : List String
  rebootTimeout : Nat
  readyTimeout : Nat
  deriving DecidableEq, Repr

/-- The arguments of `apply_node`. -/
structure Target where
  node : String
  ip : String
  isCp : Bool
  deriving DecidableEq, Repr

/-- The commands of the script, and its looks at the clock. -/
inductive Query : Type
  | resolveIp (name : String)
  | stagedImage (ip : String)
  | bootId (ip : String)
  | cordon (node : String)
  | drain (node : String)
  | uncordon (node : String)
  | reboot (ip : String)
  | seconds
  | sleep
  | pollBootId (ip : String)
  | kubeletBootId (node : String)
  | getNode (node : String)
  | bootedImage (ip : String)
  deriving DecidableEq, Repr

/-- Where the script has `|| true`, or only compares the output, there is no status. -/
@[reducible] def Reply : Query → Type
  | .resolveIp _ => String
  | .stagedImage _ => Shot
  | .bootId _ => Shot
  | .cordon _ => Bool
  | .drain _ => Bool
  | .uncordon _ => Bool
  | .reboot _ => Unit
  | .seconds => Nat
  | .sleep => Unit
  | .pollBootId _ => String
  | .kubeletBootId _ => String
  | .getNode _ => Shot
  | .bootedImage _ => Shot

/-- A point of `apply_node`, with the variables that are still to be read. -/
inductive Point : Type
  | probe
  | readBootId (staged : String)
  | cordon (staged bootId : String)
  | drain (staged bootId : String)
  | giveBack
  | reboot (staged bootId : String)
  | bootDeadline (staged bootId : String)
  | bootClock (staged bootId : String) (deadline : Nat)
  | bootSleep (staged bootId : String) (deadline : Nat)
  | bootPoll (staged bootId : String) (deadline : Nat)
  | readyDeadline (staged newId : String)
  | askKubelet (staged newId : String) (deadline : Nat)
  | askReady (staged newId : String) (deadline : Nat)
  | readyClock (staged newId : String) (deadline : Nat)
  | readySleep (staged newId : String) (deadline : Nat)
  | readBooted (staged : String)
  | uncordon
  deriving DecidableEq, Repr

inductive Phase : Type
  | resolveCp
  | pick
  | within (t : Target) (p : Point)
  | ended (success : Bool)
  deriving DecidableEq, Repr

/-- The script between two commands: the workers that it has not come to yet, and where it is. -/
structure State where
  todo : List String
  phase : Phase
  deriving DecidableEq, Repr

namespace State

/-- On to another point of the same node. -/
def goTo (s : State) (t : Target) (p : Point) : State := { s with phase := .within t p }

/-- `return 1` and `exit 1`; under `set -e` a failing command comes to the same. -/
def fail (s : State) : State := { s with phase := .ended false }

/-- `apply_node` is through with a node. -/
def next (s : State) : State :=
  match s.todo with
  | [] => { s with phase := .ended true }
  | _ :: _ => { s with phase := .pick }

end State

/-- `awk '{print $2}'` on one line. -/
def awkSecond (line : List Char) : List Char :=
  ((line.splitOnP fun c => c == ' ' || c == '\t').filter (· ≠ [])).getD 1 []

/-- `node_ready`: under `pipefail`, `kubectl` must have ended well too. -/
def nodeReady (r : Shot) : Bool :=
  r.ok && (splitTerminator '\n' r.out.toList).any fun line =>
    ((awkSecond line).splitOn ',').contains "Ready".toList

/-- `node_kubelet_boot_id`, in `$(..)`. -/
def kubeletBootId (out : String) : String :=
  substituted (String.ofList (out.toList.filter (· ≠ '\'')))

/-- The next command of `apply_node`. -/
def Point.query (t : Target) : Point → Query
  | .probe => .stagedImage t.ip
  | .readBootId _ => .bootId t.ip
  | .cordon _ _ => .cordon t.node
  | .drain _ _ => .drain t.node
  | .giveBack => .uncordon t.node
  | .reboot _ _ => .reboot t.ip
  | .bootDeadline _ _ => .seconds
  | .bootClock _ _ _ => .seconds
  | .bootSleep _ _ _ => .sleep
  | .bootPoll _ _ _ => .pollBootId t.ip
  | .readyDeadline _ _ => .seconds
  | .askKubelet _ _ _ => .kubeletBootId t.node
  | .askReady _ _ _ => .getNode t.node
  | .readyClock _ _ _ => .seconds
  | .readySleep _ _ _ => .sleep
  | .readBooted _ => .bootedImage t.ip
  | .uncordon => .uncordon t.node

def ask (cfg : Config) (s : State) : Option Query :=
  match s.phase with
  | .resolveCp => some (.resolveIp cfg.cpName)
  | .pick => s.todo.head?.map .resolveIp
  | .within t p => some (p.query t)
  | .ended _ => none

/-- `apply_node`, from a point and the outcome of its command on. -/
def applyNode (cfg : Config) (s : State) (t : Target) : Point → (q : Query) → Reply q → State
  | .probe, .stagedImage _, r =>
    if r.ok then (if r.text = "" then s.next else s.goTo t (.readBootId r.text)) else s.fail
  | .readBootId staged, .bootId _, r =>
    if r.ok then s.goTo t (if t.isCp then .reboot staged r.text else .cordon staged r.text) else s.fail
  | .cordon staged bootId, .cordon _, ok => if ok then s.goTo t (.drain staged bootId) else s.fail
  | .drain staged bootId, .drain _, ok =>
    s.goTo t (if ok then .reboot staged bootId else .giveBack)
  | .giveBack, .uncordon _, _ => s.fail
  | .reboot staged bootId, .reboot _, () => s.goTo t (.bootDeadline staged bootId)
  | .bootDeadline staged bootId, .seconds, now =>
    s.goTo t (.bootClock staged bootId (now + cfg.rebootTimeout))
  | .bootClock staged bootId deadline, .seconds, now =>
    if now < deadline then s.goTo t (.bootSleep staged bootId deadline) else s.fail
  | .bootSleep staged bootId deadline, .sleep, () => s.goTo t (.bootPoll staged bootId deadline)
  | .bootPoll staged bootId deadline, .pollBootId _, out =>
    s.goTo t (if substituted out ≠ "" ∧ substituted out ≠ bootId
      then .readyDeadline staged (substituted out) else .bootClock staged bootId deadline)
  | .readyDeadline staged newId, .seconds, now =>
    s.goTo t (.askKubelet staged newId (now + cfg.readyTimeout))
  | .askKubelet staged newId deadline, .kubeletBootId _, out =>
    s.goTo t (if kubeletBootId out = newId then .askReady staged newId deadline
      else .readyClock staged newId deadline)
  | .askReady staged newId deadline, .getNode _, r =>
    s.goTo t (if nodeReady r then .readBooted staged else .readyClock staged newId deadline)
  | .readyClock staged newId deadline, .seconds, now =>
    if deadline ≤ now then s.fail else s.goTo t (.readySleep staged newId deadline)
  | .readySleep staged newId deadline, .sleep, () => s.goTo t (.askKubelet staged newId deadline)
  | .readBooted staged, .bootedImage _, r =>
    if r.ok ∧ r.text = staged then (if t.isCp then s.next else s.goTo t .uncordon) else s.fail
  | .uncordon, .uncordon _, ok => if ok then s.next else s.fail
  | _, _, _ => s

def resume (cfg : Config) (s : State) (q : Query) (r : Reply q) : State :=
  match s.phase, q, r with
  | .resolveCp, .resolveIp _, leases =>
    if resolveIp leases = "" then s.fail else s.goTo ⟨cfg.cpName, resolveIp leases, true⟩ .probe
  | .pick, .resolveIp name, leases =>
    if resolveIp leases = "" then s.fail
    else State.goTo ⟨s.todo.tail, s.phase⟩ ⟨name, resolveIp leases, false⟩ .probe
  | .within t p, q, r => applyNode cfg s t p q r
  | _, _, _ => s

/-- `hbird-rolling-apply.sh`. -/
def script (cfg : Config) : Machine Query Reply State := ⟨ask cfg, resume cfg⟩

def start (cfg : Config) : State := ⟨cfg.workerNames, .resolveCp⟩

end Hbird.RollingApply
