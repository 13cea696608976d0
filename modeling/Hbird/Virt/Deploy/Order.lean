import Hbird.Virt.Deploy.Queries
import Hbird.Virt.Probe

namespace Hbird.Virt.Deploy

open Hbird.Interaction Hbird.Ssh Hbird.Text
open Hbird.Virt.DeployCluster (PrimaryMacs extraNic cpProbeFailed workerProbeFailed workerIp)

/-- The VM that an exchange has made. -/
def madeBy : Exchange Reply → Option String
  | ⟨.run (.install spec), .ok _⟩ => some spec.name
  | _ => none

/-- The VMs made so far, in turn. -/
def made (u : Trace Reply) : List String := u.filterMap madeBy

/-- The exchanges behind the last VM made. -/
def since (u : Trace Reply) : Trace Reply := u.rtakeWhile fun x => (madeBy x).isNone

/-- A command has been carried out. -/
def Done (u : Trace Reply) (c : Command) : Prop := ∃ out, ⟨.run c, .ok out⟩ ∈ u

/-- The control plane has handed out a join command. -/
def Minted (plan : Plan) (u : Trace Reply) (joinCmd : String) : Prop :=
  ∃ privkeyPath cpIp out, ⟨.run (.onCp privkeyPath cpIp
    ("kubeadm token create --ttl " ++ plan.tokenTtl ++ " --print-join-command")), .ok out⟩ ∈ u ∧
      startsWith (trim out) "kubeadm join" ∧ joinCmd = trim out

/-- User data with which a node joins by a command of the control plane. -/
def Joins (plan : Plan) (u : Trace Reply) (name content : String) : Prop :=
  ∃ joinCmd pubkeyContents overrides, Minted plan u joinCmd ∧
    content = renderWorkerUserData name pubkeyContents joinCmd plan.switchToGhcr plan.ghcrTag overrides

/-- The file was written so, and nothing is done since but that other files are written. -/
def Holds (u : Trace Reply) (path content : String) : Prop :=
  ∃ u₁ u₂ out, u = u₁ ++ ⟨.run (.writeFile path content), .ok out⟩ :: u₂ ∧
    ∀ x ∈ u₂, ∃ path' content', x.1 = .run (.writeFile path' content') ∧ path' ≠ path

/-- The seed of a VM is built from a file that holds such a content by then. -/
def Seeded (plan : Plan) (name : String) (P : String → Prop) (u : Trace Reply) : Prop :=
  ∃ udTmp netCfgTmp content out u₁ u₂,
    u = u₁ ++ ⟨.run (.seed name udTmp (seedPath plan.poolDir name) netCfgTmp), .ok out⟩ :: u₂ ∧
      Holds u₁ udTmp content ∧ P content

def Cloned (plan : Plan) (name : String) (u : Trace Reply) : Prop :=
  ∃ template, Done u (.clone template (diskPath plan.poolDir name))

def Absent (name : String) (u : Trace Reply) : Prop :=
  ∃ command stderr, ⟨.run (.dominfo name), .error (.virshFailed command stderr)⟩ ∈ u

/-- More has been exchanged, and no VM made. -/
structure Later (u u' : Trace Reply) : Prop where
  grows : u <+: u'
  same : made u' = made u

section Later

variable {u u' u'' v : Trace Reply} {q : Query} {r : Reply q} {c : Command} {plan : Plan}
  {name content : String} {P : String → Prop}

theorem Later.refl (u : Trace Reply) : Later u u := ⟨List.prefix_rfl, rfl⟩

theorem Later.trans (h : Later u u') (h' : Later u' u'') : Later u u'' :=
  ⟨h.grows.trans h'.grows, h'.same.trans h.same⟩

theorem made_append (u u' : Trace Reply) : made (u ++ u') = made u ++ made u' :=
  List.filterMap_append ..

theorem madeBy_of_ne (h : ∀ spec, q ≠ .run (.install spec)) : madeBy ⟨q, r⟩ = none := by
  unfold madeBy
  split
  · rename_i spec out heq
    exact absurd (congrArg Sigma.fst heq) (h spec)
  · rfl

theorem Later.append (h : ∀ x ∈ v, ∀ spec, x.1 ≠ .run (.install spec)) : Later u (u ++ v) := by
  have hnone : made v = [] := List.filterMap_eq_nil_iff.mpr fun x hx => madeBy_of_ne (h x hx)
  exact ⟨List.prefix_append .., by rw [made_append, hnone, List.append_nil]⟩

theorem Later.push (h : ∀ spec, q ≠ .run (.install spec)) : Later u (u ++ [⟨q, r⟩]) :=
  .append (List.forall_mem_singleton.mpr h)

theorem since_append (h : made v = []) : since (u ++ v) = since u ++ v := by
  induction v using List.reverseRecOn with
  | nil => rw [List.append_nil, List.append_nil]
  | append_singleton v x ih =>
    rw [made_append, List.append_eq_nil_iff] at h
    have hx : madeBy x = none := List.filterMap_eq_nil_iff.mp h.2 x (List.mem_singleton_self x)
    rw [← List.append_assoc, since, List.rtakeWhile_concat_pos _ _ _ (by rw [hx]; rfl), ← since, ih h.1,
      List.append_assoc]

theorem Later.since (h : Later u u') : since u <+: since u' := by
  obtain ⟨⟨v, rfl⟩, hsame⟩ := h
  rw [made_append, List.append_right_eq_self] at hsame
  exact ⟨v, (since_append hsame).symm⟩

theorem Minted.mono (h : Minted plan u name) (hl : u <+: u') : Minted plan u' name := by
  obtain ⟨privkeyPath, cpIp, out, hout, hrest⟩ := h
  exact ⟨privkeyPath, cpIp, out, hl.subset hout, hrest⟩

theorem Joins.mono (h : Joins plan u name content) (hl : u <+: u') : Joins plan u' name content := by
  obtain ⟨joinCmd, pubkeyContents, overrides, hm, hc⟩ := h
  exact ⟨joinCmd, pubkeyContents, overrides, hm.mono hl, hc⟩

theorem Seeded.mono {P' : String → Prop} (h : Seeded plan name P u) (hl : u <+: u')
    (hP : ∀ content, P content → P' content) : Seeded plan name P' u' := by
  obtain ⟨udTmp, netCfgTmp, content, out, u₁, u₂, rfl, hh, hc⟩ := h
  obtain ⟨v, rfl⟩ := hl
  exact ⟨udTmp, netCfgTmp, content, out, u₁, u₂ ++ v, by rw [List.append_assoc, List.cons_append], hh,
    hP content hc⟩

theorem Cloned.mono (h : Cloned plan name u) (hl : u <+: u') : Cloned plan name u' := by
  obtain ⟨template, out, ht⟩ := h
  exact ⟨template, out, hl.subset ht⟩

theorem Absent.mono (h : Absent name u) (hl : u <+: u') : Absent name u' := by
  obtain ⟨command, stderr, hm⟩ := h
  exact ⟨command, stderr, hl.subset hm⟩

end Later

section Rules

variable {α : Type} {plan : Plan} {pid : UInt32} {u u₀ : Trace Reply} {c : Command} {text name : String}
  {x : Steps Failure α}

end Rules

section Vms

variable {plan : Plan} {pid : UInt32} {u : Trace Reply} {name tag pubkeyContents : String}
  {net2 : Option Net2} {macs : PrimaryMacs} {onError : Error → Failure}

end Vms

section Workers

variable {plan : Plan} {pid : UInt32} {u : Trace Reply} {inputs : WorkerInputs} {i : Nat} {w : String}

end Workers

section Run

variable {plan : Plan} {pid : UInt32} {u : Trace Reply}

theorem only_prepare : Only (FrontQuery plan pid) (prepare plan pid).run := by
  refine only_bind (only_checked _) fun checks => only_bind ?_ fun _ => only_bind ?_ fun _ =>
    only_bind (only_front only_planImageAcquisition) fun _ =>
      only_bind only_planBuildQcow2 fun _ => only_pure _
  · obtain ⟨macs, _ | ⟨n, ns⟩⟩ := checks
    · exact only_pure _
    · dsimp only
      split_ifs
      · exact only_pure _
      · exact only_front (only_checkExtraNetworkOnHost .netInfo .netDumpxml)
  · split_ifs
    · exact only_pure _
    · exact only_front (only_wrapped .readPubkey)

end Run

section Sample

def smallPlan : Plan where
  cpName := "cp"
  workerNames := ["w1"]
  ghcrTag := "latest"
  cpMemory := 4096
  cpVcpus := 2
  workerMemory := 4096
  workerVcpus := 2
  poolDir := "/pool"
  autoUpdateCp := true
  switchToGhcr := false
  kvmHost := none
  dryRun := false
  bootcUpdateSchedule := none
  bootcUpdateRepoK8s := none
  bootcUpdateRepoWorker := none
  podCidr := none
  serviceCidr := none
  cpIp := none
  workerIps := none
  configPath := "cluster.conf"
  imageSource := "ghcr"
  enableCloudInit := 1
  sshPubkeyFile := "/root/.ssh/id.pub"
  runVerify := false
  bib := "bib"
  podmanRoot := none
  podmanRunroot := none
  storageDriver := none
  forceRebuild := false
  strictCache := false
  repoRoot := "/repo"
  cpMac := some "52:54:00:00:00:01"
  workerMacs := some ["52:54:00:00:00:02"]
  extraNetwork := none
  extraNetCpMac := none
  extraNetCpIp := none
  extraNetWorkerMacs := none
  extraNetWorkerIps := none
  cpReadyRetries := 1
  cpReadySleepSecs := 1
  tokenTtl := "2h"

/-- A host with these domains. -/
def smallReply (domains : List String) : (q : Query) → Reply q
  | .run (.dominfo name) =>
    if name ∈ domains then
      .ok ("Name: " ++ name ++ "\nState: running\nPersistent: yes\nOS Type: hvm\n")
    else .error (.virshFailed "virsh dominfo" "Domain not found")
  | .run (.domifaddr _) => .ok " vnet0      52:54:00:00:00:01    ipv4         192.168.122.10/24\n"
  | .run (.onCp _ _ remoteCmd) =>
    .ok (if startsWith remoteCmd "kubeadm" then "kubeadm join 192.168.122.10:6443" else "yes")
  | .run _ => .ok ""
  | .pathExists _ => true
  | .readToString _ => none
  | .readFile _ => none
  | .renderBibConfig _ => ""
  | .imageVcsRef _ => none
  | .containerfileChangedSince _ _ _ => .unverifiable
  | .verify _ => .exited true

def smallRun (domains : List String) : Trace Reply × Except Failure Unit :=
  play (fun _ => smallReply domains) 0 (deploy smallPlan 7).run

end Sample

end Hbird.Virt.Deploy
