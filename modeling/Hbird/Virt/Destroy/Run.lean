import Hbird.Interaction.World
import Hbird.Paths
import Hbird.Virt.Destroy.Orders
import Hbird.Virt.DhcpHosts

namespace Hbird.Virt.DestroyCluster

open Hbird.Interaction Hbird.Paths Hbird.Shell Hbird.Ssh Hbird.Text

def Plan.scratchDir (plan : Plan) : String := plan.poolDir ++ "/deploy-cluster"

/-- No failure of the cleanup counts. -/
def cleanupScratchDir (conn : Connection) (plan : Plan) : Remote Failure Unit :=
  Exec.outcome (conn.remotePathExists plan.scratchDir) >>= fun
    | .ok true => Exec.outcome (conn.remoteRmRf plan.scratchDir) >>= fun _ => pure ()
    | .ok false => pure ()
    | .error _ => pure ()

def aborting (vm : String) : String :=
  "destroy-cluster aborting on " ++ vm ++ ": fatal SSH/transport failure; cluster state unknown — " ++
    "check --kvm-host + network reachability before re-running"

/-- The loop over the VMs, with the warnings so far. -/
def destroyAll (conn : Connection) (plan : Plan) : List String → Nat → Remote Failure Nat
  | [], total => pure total
  | vm :: vms, total =>
    (destroyOne conn plan vm).context (.context (aborting vm)) >>= fun warnings =>
      destroyAll conn plan vms (total + warnings)

def run (plan : Plan) : Remote Failure Unit :=
  if plan.dryRun then pure ()
  else
    let conn := buildConnection plan.kvmHost
    destroyAll conn plan plan.vms 0 >>= fun total =>
      cleanupScratchDir conn plan >>= fun _ =>
        if 0 < total then bail ("destroy-cluster: " ++ toString total ++
          " step(s) had warnings — see WARN log lines above")
        else pure ()

/-- A KVM host: the domains that are defined, those that run, its files, and its network `default`. -/
structure Host where
  defined : Set String
  running : Set String
  paths : Set String
  net : Network

/-- A domain that runs without a definition is one too. -/
def Host.domains (s : Host) : Set String := s.defined ∪ s.running

/-- The network without the first host that is written like that. -/
def without (hostXml : String) (net : Network) : Network :=
  { net with hosts := net.hosts.eraseP fun h => h.openTag = hostXml }

/-- The command has run to its end on the host, with this status. -/
def Exits (e : ProcessEnd) (status : UInt8) : Prop :=
  ∃ stdout stderr, e = .exited (.code status) stdout stderr

/-- `virsh` has ended with 1, as on any error, and says that there is no such domain. -/
def ReportsNone (e : ProcessEnd) : Prop :=
  ∃ stdout stderr, e = .exited (.code 1) stdout stderr ∧ contains stderr "Domain not found"

/-- `virsh` takes no name for an option. -/
def Order.Plain : Order → Prop
  | .dominfo name | .destroy name | .undefine name => name.toList.head? ≠ some '-'
  | .dumpxml net | .deleteHost net _ => net = reservationNet
  | .probe _ | .rm _ | .rmTree _ => True

/-- The files that an order may take away. Two paths may lead to one file when they end alike: only
then. What stands beside a directory is not in it. -/
inductive Order.Removes : Order → String → Prop
  | file {path p : String} (h : base p = base path) : Order.Removes (.rm path) p
  | under {dir p : String} (h : ¬ Siblings p dir) : Order.Removes (.rmTree dir) p

/-- What an order tells of the host, or leaves for sure. -/
def Order.Tells (s : Host) (o : Order) (e : ProcessEnd) (s' : Host) : Prop :=
  match o with
  | .dominfo name => (Exits e 0 → name ∈ s.domains) ∧ (ReportsNone e → name ∉ s.domains)
  | .destroy name => Exits e 0 → name ∉ s'.running
  | .undefine name => Exits e 0 → name ∉ s'.defined
  | .dumpxml _ => ∀ stdout stderr, e = .exited (.code 0) stdout stderr → stdout = s.net.xml
  | .deleteHost _ hostXml => (Exits e 0 → s'.net = without hostXml s.net) ∧
      (s'.net = s.net ∨ s'.net = without hostXml s.net)
  | .probe path => (Exits e 0 → path ∈ s.paths) ∧ (Exits e 1 → path ∉ s.paths)
  | .rm path => Exits e 0 → path ∉ s'.paths
  | .rmTree _ => True

/-- What the host does on an order. One that fails may have done a part of it; a running domain that
loses its definition goes on without. -/
structure Acts (s : Host) (o : Order) (e : ProcessEnd) (s' : Host) : Prop where
  tells : o.Tells s e s'
  defined : ∀ name ∈ s.defined, o ≠ .undefine name → name ∈ s'.defined
  running : ∀ name ∈ s.running, o ≠ .destroy name → name ∈ s'.running
  paths : ∀ p ∈ s.paths, ¬ o.Removes p → p ∈ s'.paths
  no_defined : s'.defined ⊆ s.defined
  no_running : s'.running ⊆ s.running
  no_paths : s'.paths ⊆ s.paths
  net : (∀ net hostXml, o ≠ .deleteHost net hostXml) → s'.net = s.net

/-- The host acts on the words that its shell reads. -/
def serves (conn : Connection) : World Host Reply := fun s q r s' =>
  ∃ command e, (⟨q, r⟩ : Exchange Reply) = conn.exchange command e ∧ ∀ o : Order, o.Plain →
    argv noBraces command.toList = some ((o.words id).map String.toList) → Acts s o e s'

section Orders

variable {conn : Connection} {s : Host} {o : Order}

theorem acts_of_serves (hplain : o.Plain) {e : ProcessEnd} {s' : Host}
    (h : Leads (serves conn) s [conn.exchange o.text e] s') : Acts s o e s' := by
  obtain ⟨s₁, ⟨command, e', heq, h⟩, hnil⟩ := leads_cons.mp h
  obtain rfl := leads_nil.mp hnil
  have hcommand : o.text = command := by
    refine conn.query_injective ?_
    rw [← conn.exchange_fst (e := e), ← conn.exchange_fst (e := e')]
    exact congrArg Sigma.fst heq
  subst hcommand
  obtain rfl := conn.exchange_injective heq
  exact h o hplain o.argv_text

end Orders

end Hbird.Virt.DestroyCluster
