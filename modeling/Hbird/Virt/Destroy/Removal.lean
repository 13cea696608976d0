import Hbird.Virt.Destroy.Host

namespace Hbird.Virt.DestroyCluster

open Hbird.Interaction Hbird.Paths Hbird.Ssh Hbird.Text Hbird.Xml

section Vm

variable {conn : Connection} {plan : Plan} {vm path : String} {C : Exchange Reply → Prop}
  {reads : Prop} {s s' : Host} {o : Order} {e : ProcessEnd} {E : Host → Prop}

/-- The domain and the files of a VM are gone. -/
def Gone (plan : Plan) (vm : String) (s : Host) : Prop :=
  vm ∉ s.domains ∧ ∀ p ∈ plan.artifactPaths vm, p ∉ s.paths

theorem Spares.gone {names lose : Set String} (h : Spares plan names lose s s') (hg : Gone plan vm s) :
    Gone plan vm s' :=
  ⟨fun hmem => hg.1 (h.no_domains hmem), fun p hp hmem => hg.2 p hp (h.no_paths hmem)⟩

theorem Spares.unreserved {names lose : Set String} (h : Spares plan names lose s s')
    (hu : Unreserved vm s) : Unreserved vm s' := fun g hg => hu g (h.no_hosts.subset hg)

/-- The VMs of which the host still has a domain. -/
def lost (s : Host) (names : Set String) : Set String := {n | n ∈ names ∧ n ∈ s.domains}

/-- What a VM's turn without a warning is good for. -/
structure Cleared (plan : Plan) (reads : Prop) (vm : String) (s s' : Host) : Prop where
  gone : Gone plan vm s'
  unreserved : reads → vm ∈ s.domains → Single vm s → Unreserved vm s'

end Vm

section Run

variable {conn : Connection} {plan : Plan} {vm : String} {vms : List String} {total : Nat}
  {C : Exchange Reply → Prop} {reads : Prop} {s s' s₁ : Host}

end Run

section Sample

variable {conn : Connection} {s s' : Host} {o : Order} {e : ProcessEnd} {command : String}

theorem serves_order (ha : Acts s o e s') :
    serves conn s (conn.exchange o.text e).1 (conn.exchange o.text e).2 s' := by
  refine ⟨o.text, e, rfl, fun o' _ hwords => ?_⟩
  obtain rfl := Order.eq_of_argv (o.argv_text.symm.trans hwords)
  exact ha

theorem Acts.same (h : o.Tells s e s) : Acts s o e s :=
  ⟨h, fun _ h _ => h, fun _ h _ => h, fun _ h _ => h, subset_rfl, subset_rfl, subset_rfl, fun _ => rfl⟩

def smallPlan : Plan := ⟨"cp", ["w"], "/p", none, false⟩

theorem plain_mac : "52:54:00:00:00:01".toList.all isPlainChar = true := by decide

theorem plain_cp : "cp".toList.all isPlainChar = true := by decide

theorem plain_ip : "192.168.122.60".toList.all isPlainChar = true := by decide

def reservedAs : List (HostKey × Value) :=
  [(.mac, ⟨"52:54:00:00:00:01", plain_mac⟩), (.name, ⟨"cp", plain_cp⟩),
    (.ip, ⟨"192.168.122.60", plain_ip⟩)]

theorem reservedAs_distinct : (reservedAs.map Prod.fst).Nodup := by decide

def reservedHost : DhcpHost := ⟨reservedAs, reservedAs_distinct, none⟩

theorem no_foreign : ∀ l ∈ ([] : List String) ++ [],
    OneLine l ∧ ¬ (startsWith (trim l) "<host " = true ∧ contains (trim l) "name='" = true) :=
  fun _ h => absurd h List.not_mem_nil

def smallNet : Network := ⟨[], [reservedHost], [], 6, no_foreign⟩

def smallSteps : List (Order × ProcessEnd) :=
  [(.dominfo "cp", printed "Name: cp\nState: running\nPersistent: yes\nOS Type: hvm\n"),
    (.destroy "cp", printed ""), (.undefine "cp", printed ""),
    (.dumpxml "default", printed smallNet.xml),
    (.deleteHost "default" reservedHost.openTag, printed ""),
    (.probe "/p/cp.qcow2", printed ""), (.rm "/p/cp.qcow2", printed ""),
    (.probe "/p/cp-seed.iso", failed 1), (.probe "/p/cp-cloud-init.iso", failed 1),
    (.dominfo "w", .exited (.code 1) "" "error: Domain not found"), (.probe "/p/w.qcow2", failed 1),
    (.probe "/p/w-seed.iso", failed 1), (.probe "/p/w-cloud-init.iso", failed 1),
    (.probe "/p/deploy-cluster", failed 1)]

def smallTrace : Trace Reply := smallSteps.map fun x => Connection.onHost.exchange x.1.text x.2

theorem smallTrace_finishes : Finishes (run smallPlan) smallTrace (.ok ()) :=
  finishes_of_play (scripted (smallSteps.map Prod.snd)) (by decide +kernel)

theorem not_exits {status status' : UInt8} {stdout stderr : String} (hne : status ≠ status') :
    ¬ Exits (.exited (.code status) stdout stderr) status' := by
  rintro ⟨stdout', stderr', h⟩
  exact hne (ExitStatus.code.inj (ProcessEnd.exited.inj h).1)

/-- The control plane runs, and the worker is not there. -/
theorem smallTrace_leads : Leads (serves .onHost) ⟨{"cp"}, {"cp"}, {"/p/cp.qcow2"}, smallNet⟩ smallTrace
    ⟨∅, ∅, ∅, without reservedHost.openTag smallNet⟩ := by
  have hdestroy : Acts ⟨{"cp"}, {"cp"}, {"/p/cp.qcow2"}, smallNet⟩ (.destroy "cp") (printed "")
      ⟨{"cp"}, ∅, {"/p/cp.qcow2"}, smallNet⟩ :=
    ⟨fun _ h => h, fun _ h _ => h, fun n hn h => absurd (by rw [Set.mem_singleton_iff.mp hn]) h,
      fun _ h _ => h, subset_rfl, Set.empty_subset _, subset_rfl, fun _ => rfl⟩
  have hundefine : Acts ⟨{"cp"}, ∅, {"/p/cp.qcow2"}, smallNet⟩ (.undefine "cp") (printed "")
      ⟨∅, ∅, {"/p/cp.qcow2"}, smallNet⟩ :=
    ⟨fun _ h => h, fun n hn h => absurd (by rw [Set.mem_singleton_iff.mp hn]) h, fun _ h _ => h,
      fun _ h _ => h, Set.empty_subset _, subset_rfl, subset_rfl, fun _ => rfl⟩
  have hdelete : Acts ⟨∅, ∅, {"/p/cp.qcow2"}, smallNet⟩ (.deleteHost "default" reservedHost.openTag)
      (printed "") ⟨∅, ∅, {"/p/cp.qcow2"}, without reservedHost.openTag smallNet⟩ :=
    ⟨⟨fun _ => rfl, .inr rfl⟩, fun _ h _ => h, fun _ h _ => h, fun _ h _ => h, subset_rfl, subset_rfl,
      subset_rfl, fun h => absurd rfl (h _ _)⟩
  have hrm : Acts ⟨∅, ∅, {"/p/cp.qcow2"}, without reservedHost.openTag smallNet⟩ (.rm "/p/cp.qcow2")
      (printed "") ⟨∅, ∅, ∅, without reservedHost.openTag smallNet⟩ :=
    ⟨fun _ h => h, fun _ h _ => h, fun _ h _ => h,
      fun p hp h => absurd (.file (by rw [Set.mem_singleton_iff.mp hp])) h, subset_rfl, subset_rfl,
      Set.empty_subset _, fun _ => rfl⟩
  have hnone : ∀ net p, Acts ⟨∅, ∅, ∅, net⟩ (.probe p) (failed 1) ⟨∅, ∅, ∅, net⟩ := fun net p =>
    .same ⟨fun h => absurd h (not_exits (by decide)), fun _ h => h⟩
  refine .cons (serves_order (o := .dominfo "cp") (.same ⟨fun _ => .inl rfl, ?_⟩)) ?_
  · rintro ⟨stdout, stderr, h, -⟩
    cases h
  refine .cons (serves_order hdestroy) ?_
  refine .cons (serves_order hundefine) ?_
  refine .cons (serves_order (o := .dumpxml "default") (.same fun stdout stderr h => ?_)) ?_
  · exact (ProcessEnd.exited.inj h).2.1.symm
  refine .cons (serves_order hdelete) ?_
  refine .cons (serves_order (o := .probe "/p/cp.qcow2")
    (.same ⟨fun _ => rfl, fun h => absurd h (not_exits (by decide))⟩)) ?_
  refine .cons (serves_order hrm) ?_
  refine .cons (serves_order (hnone _ "/p/cp-seed.iso")) ?_
  refine .cons (serves_order (hnone _ "/p/cp-cloud-init.iso")) ?_
  refine .cons (serves_order (o := .dominfo "w")
    (.same ⟨fun h => absurd h (not_exits (by decide)), fun _ h => h.elim id id⟩)) ?_
  refine .cons (serves_order (hnone _ "/p/w.qcow2")) ?_
  refine .cons (serves_order (hnone _ "/p/w-seed.iso")) ?_
  refine .cons (serves_order (hnone _ "/p/w-cloud-init.iso")) ?_
  exact .cons (serves_order (hnone _ "/p/deploy-cluster")) (.nil _)

end Sample

end Hbird.Virt.DestroyCluster
