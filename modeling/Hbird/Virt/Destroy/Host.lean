import Hbird.Interaction.Secured
import Hbird.Virt.Destroy.Run
import Hbird.Virt.Probe

namespace Hbird.Virt.DestroyCluster

open Hbird.Interaction Hbird.Paths Hbird.Ssh

section Results

variable {conn : Connection} {command out : String} {e : ProcessEnd}

end Results

/-- A probe for a domain, where it runs to its end, ends with 0, or with 1 because there is none. -/
def Clear (conn : Connection) (x : Exchange Reply) : Prop :=
  ∀ name status stdout stderr, x = conn.exchange (dominfoCommand name) (.exited status stdout stderr) →
    status = .code 0 ∨ ReportsNone (.exited status stdout stderr)

/-- What a part of a run has left of a host: it takes no more than the domains and the files of the
VMs in `names`, and the DHCP hosts of those in `lose`. -/
structure Spares (plan : Plan) (names lose : Set String) (s s' : Host) : Prop where
  defined : ∀ n ∈ s.defined, n ∉ names → n ∈ s'.defined
  running : ∀ n ∈ s.running, n ∉ names → n ∈ s'.running
  paths : ∀ p ∈ s.paths, (∀ n ∈ names, ∀ a ∈ plan.artifactPaths n, base p ≠ base a) →
    Siblings p plan.scratchDir → p ∈ s'.paths
  hosts : ∀ h ∈ s.net.hosts, (∀ n ∈ lose, h.has .name n = false) → h ∈ s'.net.hosts
  no_defined : s'.defined ⊆ s.defined
  no_running : s'.running ⊆ s.running
  no_paths : s'.paths ⊆ s.paths
  no_hosts : s'.net.hosts.Sublist s.net.hosts

section Spares

variable {plan : Plan} {names names' lose lose' : Set String} {s s' s'' : Host}

theorem Spares.refl : Spares plan names lose s s :=
  ⟨fun _ h _ => h, fun _ h _ => h, fun _ h _ _ => h, fun _ h _ => h, subset_rfl, subset_rfl, subset_rfl,
    List.Sublist.refl _⟩

theorem Spares.trans (h : Spares plan names lose s s') (h' : Spares plan names lose s' s'') :
    Spares plan names lose s s'' where
  defined n hn hnames := h'.defined n (h.defined n hn hnames) hnames
  running n hn hnames := h'.running n (h.running n hn hnames) hnames
  paths p hp hnames hs := h'.paths p (h.paths p hp hnames hs) hnames hs
  hosts g hg hlose := h'.hosts g (h.hosts g hg hlose) hlose
  no_defined := h'.no_defined.trans h.no_defined
  no_running := h'.no_running.trans h.no_running
  no_paths := h'.no_paths.trans h.no_paths
  no_hosts := h'.no_hosts.trans h.no_hosts

theorem Spares.mono (h : Spares plan names lose s s') (hnames : names ⊆ names') (hlose : lose ⊆ lose') :
    Spares plan names' lose' s s' where
  defined n hn hn' := h.defined n hn fun hmem => hn' (hnames hmem)
  running n hn hn' := h.running n hn fun hmem => hn' (hnames hmem)
  paths p hp hp' := h.paths p hp fun n hn => hp' n (hnames hn)
  hosts g hg hg' := h.hosts g hg fun n hn => hg' n (hlose hn)
  no_defined := h.no_defined
  no_running := h.no_running
  no_paths := h.no_paths
  no_hosts := h.no_hosts

theorem Spares.domains (h : Spares plan names lose s s') :
    ∀ n ∈ s.domains, n ∉ names → n ∈ s'.domains := by
  rintro n (hn | hn) hnames
  · exact .inl (h.defined n hn hnames)
  · exact .inr (h.running n hn hnames)

theorem Spares.no_domains (h : Spares plan names lose s s') : s'.domains ⊆ s.domains :=
  Set.union_subset_union h.no_defined h.no_running

end Spares

section Orders

variable {conn : Connection} {plan : Plan} {vm path : String} {C : Exchange Reply → Prop}
  {s s' : Host} {o : Order} {e : ProcessEnd}

theorem Host.ext' (hd : s'.defined = s.defined) (hr : s'.running = s.running) (hp : s'.paths = s.paths) (hn : s'.net = s.net) :
    s' = s := by
  cases s
  cases s'
  cases hd
  cases hr
  cases hp
  cases hn
  rfl

/-- An order that only asks. -/
theorem Acts.quiet (h : Acts s o e s') (hdestroy : ∀ n, o ≠ .destroy n) (hundefine : ∀ n, o ≠ .undefine n)
    (hremoves : ∀ p, ¬ o.Removes p)
    (hdelete : ∀ net hostXml, o ≠ .deleteHost net hostXml) : s' = s :=
  Host.ext' (h.no_defined.antisymm fun n hn => h.defined n hn (hundefine n))
    (h.no_running.antisymm fun n hn => h.running n hn (hdestroy n))
    (h.no_paths.antisymm fun p hp => h.paths p hp (hremoves p)) (h.net hdelete)

theorem wpe_run {O : Except Error String → Host → Prop} (hplain : o.Plain)
    (h : ∀ e s', Acts s o e s' → C (conn.exchange o.text e) → O (conn.result o.text e) s') :
    wpe ((serves conn).restrict C) (conn.run o.text) O s := by
  refine wpe_iff.mpr fun t r s' hf hl => ?_
  obtain ⟨e, rfl, rfl⟩ := Connection.finishes_run.mp hf
  obtain ⟨hl, hC⟩ := leads_restrict.mp hl
  exact h e s' (acts_of_serves hplain hl) (hC _ (List.mem_singleton_self _))

end Orders

section Hosts

variable {net : Network} {vm tag : String} {h g : DhcpHost}

/-- A name that `virsh` and the search in the network take as it is. -/
structure Plain (vm : String) : Prop where
  noDash : vm.toList.head? ≠ some '-'
  noQuote : '\'' ∉ vm.toList
  noEquals : '=' ∉ vm.toList

/-- No host of the network has this name. -/
def Unreserved (vm : String) (s : Host) : Prop := ∀ h ∈ s.net.hosts, h.has .name vm = false

/-- One host at most has it. -/
def Single (vm : String) (s : Host) : Prop := (s.net.hosts.filter (DhcpHost.has .name vm)).length ≤ 1

end Hosts

end Hbird.Virt.DestroyCluster
