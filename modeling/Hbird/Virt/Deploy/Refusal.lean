import Hbird.Paths
import Hbird.Virt.Deploy.Order

namespace Hbird.Virt.Deploy.Refusal

open Hbird.Interaction Hbird.Paths Hbird.Ssh Hbird.Text
open Hbird.Virt.DeployCluster (PrimaryMacs)

/-- What a VM is made of. -/
inductive Resource : Type
  | file (path : String)
  | domain (name : String)
  deriving DecidableEq, Repr

/-- A KVM host: how often its resources have been written, and the domains that are defined.
libvirt takes no name with a slash. -/
structure Host where
  revision : Resource → Nat
  defined : String → Prop
  plain : ∀ name, defined name → '/' ∉ name.toList

/-- The files that a command may write. -/
def files (plan : Plan) : Command → List String
  | .writeBibConfig path _ => [path]
  | .bib _ _ => [plan.poolDir ++ "/manifest-qcow2.json"]
  | .move _ dst => [dst]
  | .removeFile path => [path]
  | .writeSidecar _ path => [path]
  | .writeFile path _ => [path]
  | .seed _ _ outIso _ => [outIso]
  | .clone _ dst => [dst]
  | .install spec => [spec.diskPath]
  | _ => []

/-- The directories that a command may change as a whole. -/
def dirs (plan : Plan) : Command → List String
  | .bib _ _ => [plan.stagingDir]
  | .move src _ => [String.ofList (parent src)]
  | .removeDir path => [path]
  | _ => []

/-- Two paths may lead to one file when they end alike: only then. What stands beside a directory is
not in it. -/
inductive Touches (plan : Plan) (c : Command) : Resource → Prop
  | file {path p : String} (h : path ∈ files plan c) (hb : base p = base path) :
      Touches plan c (.file p)
  | under {dir p : String} (h : dir ∈ dirs plan c) (hs : ¬ Siblings p dir) : Touches plan c (.file p)
  | domain {spec : VmSpec} (h : c = .install spec) : Touches plan c (.domain spec.name)

/-- What a command that succeeds has written for sure. -/
def writes : Command → List Resource
  | .move _ dst => [.file dst]
  | .seed _ _ outIso _ => [.file outIso]
  | .clone _ dst => [.file dst]
  | .install spec => [.domain spec.name]
  | _ => []

/-- What a command does to the host; one that fails may have done a part of it. `virt-install`
takes a name that is free. -/
structure Carried (plan : Plan) (s : Host) (c : Command) (r : Except Error String) (s' : Host) :
    Prop where
  untouched : ∀ x, ¬ Touches plan c x → s'.revision x = s.revision x
  grows : ∀ x, s.revision x ≤ s'.revision x
  written : ∀ out, r = .ok out → ∀ x ∈ writes c, s.revision x < s'.revision x
  stays : ∀ name, s.defined name → s'.defined name
  fresh : ∀ spec out, c = .install spec → r = .ok out → ¬ s.defined spec.name ∧ s'.defined spec.name

inductive Serves (plan : Plan) : World Host Reply
  | command {s s' : Host} {c : Command} {r : Except Error String} (h : Carried plan s c r s') :
      Serves plan s (.run c) r s'
  | aside {s : Host} {q : Query} {r : Reply q} (h : ∀ c, q ≠ .run c) : Serves plan s q r s

/-- The disk, the seed and the definition of a VM. -/
def artifacts (plan : Plan) (name : String) : List Resource :=
  [.file (diskPath plan.poolDir name), .file (seedPath plan.poolDir name), .domain name]

def Untouched (plan : Plan) (name : String) (s s' : Host) : Prop :=
  ∀ x ∈ artifacts plan name, s'.revision x = s.revision x

/-- The last thing that was seen is that the VM is there. -/
def EndsAtGuard (name : String) (u : Trace Reply) : Prop :=
  ∃ v out info, u = v ++ [⟨.run (.dominfo name), .ok out⟩] ∧
    parseDominfo out (dominfoCommand name) = .ok info

/-- A template was put where the disk of the VM is. -/
def Replaced (plan : Plan) (name : String) (u : Trace Reply) : Prop :=
  ∃ src r, ⟨.run (.move src (diskPath plan.poolDir name)), r⟩ ∈ u

section Names

variable {plan : Plan} {pid : UInt32} {name other tag path : String}

theorem diskPath_eq (poolDir name : String) : diskPath poolDir name = poolDir ++ "/" ++ (name ++ ".qcow2") := by
  rw [diskPath, String.append_assoc]

theorem seedPath_eq (poolDir name : String) :
    seedPath poolDir name = poolDir ++ "/" ++ (name ++ "-seed.iso") := by
  rw [seedPath, String.append_assoc]

theorem base_diskPath (h : '/' ∉ name.toList) :
    base (diskPath plan.poolDir name) = (name ++ ".qcow2").toList := by
  rw [diskPath_eq]
  exact base_within (by simp [h])

theorem base_seedPath (h : '/' ∉ name.toList) :
    base (seedPath plan.poolDir name) = (name ++ "-seed.iso").toList := by
  rw [seedPath_eq]
  exact base_within (by simp [h])

theorem last_diskPath : (diskPath plan.poolDir name).toList.getLast? = some '2' := by
  rw [diskPath]
  exact getLast?_append (by simp)

theorem last_seedPath : (seedPath plan.poolDir name).toList.getLast? = some 'o' := by
  rw [seedPath]
  exact getLast?_append (by simp)

theorem base_diskPath_ne (h : '/' ∉ name.toList) (h' : '/' ∉ other.toList) (hne : name ≠ other) :
    base (diskPath plan.poolDir name) ≠ base (diskPath plan.poolDir other) := by
  rw [base_diskPath h, base_diskPath h', Ne, String.toList_inj]
  exact fun he => hne ((String.append_left_inj _).mp he)

theorem base_seedPath_ne (h : '/' ∉ name.toList) (h' : '/' ∉ other.toList) (hne : name ≠ other) :
    base (seedPath plan.poolDir name) ≠ base (seedPath plan.poolDir other) := by
  rw [base_seedPath h, base_seedPath h', Ne, String.toList_inj]
  exact fun he => hne ((String.append_left_inj _).mp he)

/-- No file of a VM ends like that. -/
def Foreign (path : String) : Prop :=
  ∃ c, path.toList.getLast? = some c ∧ c ≠ '/' ∧ c ≠ '2' ∧ c ≠ 'o'

theorem Foreign.base_ne_disk (h : Foreign path) : base (diskPath plan.poolDir name) ≠ base path := by
  obtain ⟨c, hlast, hslash, hdisk, -⟩ := h
  exact base_ne (by decide) hslash hdisk.symm last_diskPath hlast

theorem Foreign.base_ne_seed (h : Foreign path) : base (seedPath plan.poolDir name) ≠ base path := by
  obtain ⟨c, hlast, hslash, -, hseed⟩ := h
  exact base_ne (by decide) hslash hseed.symm last_seedPath hlast

theorem foreign_tmp (h : IsTmp path) : Foreign path := by
  obtain ⟨u, rfl⟩ := h
  exact ⟨'l', getLast?_append (by simp), by decide⟩

theorem foreign_bibConfigTmp : Foreign (bibConfigTmp pid) := by
  unfold bibConfigTmp
  exact ⟨'l', getLast?_append (by simp), by decide⟩

theorem foreign_sidecarPath : Foreign (sidecarPath path) := by
  unfold sidecarPath
  exact ⟨'f', getLast?_append (by simp), by decide⟩

theorem foreign_manifest : Foreign (plan.poolDir ++ "/manifest-qcow2.json") :=
  ⟨'n', getLast?_append (by simp), by decide⟩

theorem siblings_staging (h : '/' ∉ path.toList) (hne : path ≠ "qcow2") :
    Siblings (plan.poolDir ++ "/" ++ path) plan.stagingDir := by
  have hdir : plan.stagingDir = plan.poolDir ++ "/" ++ "qcow2" := by
    rw [Plan.stagingDir, String.append_assoc]
    rfl
  rw [hdir]
  refine ⟨?_, ?_⟩
  · rw [parent_within h, parent_within (by simp)]
  · rw [base_within h, base_within (by simp), Ne, String.toList_inj]
    exact hne

theorem siblings_disk (h : '/' ∉ name.toList) :
    Siblings (diskPath plan.poolDir name) plan.stagingDir := by
  rw [diskPath_eq]
  refine siblings_staging (by simp [h]) fun he => ?_
  have hl := congrArg (fun s => s.toList.length) he
  simp at hl

theorem siblings_seed (h : '/' ∉ name.toList) :
    Siblings (seedPath plan.poolDir name) plan.stagingDir := by
  rw [seedPath_eq]
  refine siblings_staging (by simp [h]) fun he => ?_
  have hl := congrArg (fun s => s.toList.length) he
  simp at hl

theorem parent_stagingQcow : String.ofList (parent plan.stagingQcow) = plan.stagingDir := by
  have hq : plan.stagingQcow = plan.stagingDir ++ "/" ++ "disk.qcow2" := by
    rw [Plan.stagingQcow, String.append_assoc]
    rfl
  rw [hq, parent_within (by simp), String.ofList_toList]

end Names

section Clear

variable {plan : Plan} {pid : UInt32} {name X : String} {c : Command}

/-- A command that leaves the VM alone. -/
structure Clear (plan : Plan) (X : String) (c : Command) : Prop where
  untouched : ∀ x ∈ artifacts plan X, ¬ Touches plan c x
  unmoved : ∀ src, c ≠ .move src (diskPath plan.poolDir X)

/-- From the files and the directories of a command that is neither a move nor an installation. -/
theorem clear_of (hfiles : ∀ path ∈ files plan c, base (diskPath plan.poolDir X) ≠ base path ∧
      base (seedPath plan.poolDir X) ≠ base path)
    (hdirs : ∀ dir ∈ dirs plan c, Siblings (diskPath plan.poolDir X) dir ∧
      Siblings (seedPath plan.poolDir X) dir)
    (hinstall : ∀ spec, c = .install spec → spec.name ≠ X)
    (hmove : ∀ src, c ≠ .move src (diskPath plan.poolDir X)) : Clear plan X c := by
  refine ⟨fun x hx ht => ?_, hmove⟩
  have hx : x = .file (diskPath plan.poolDir X) ∨ x = .file (seedPath plan.poolDir X) ∨
      x = .domain X := by simpa [artifacts] using hx
  obtain rfl | rfl | rfl := hx
  · cases ht with
    | file h hb => exact (hfiles _ h).1 hb
    | under h hs => exact hs (hdirs _ h).1
  · cases ht with
    | file h hb => exact (hfiles _ h).2 hb
    | under h hs => exact hs (hdirs _ h).2
  · cases ht with
    | domain h => exact hinstall _ h rfl

/-- Commands that write nothing of a VM's. -/
theorem clear_foreign (hX : '/' ∉ X.toList) (hfiles : ∀ path ∈ files plan c, Foreign path)
    (hdirs : ∀ dir ∈ dirs plan c, dir = plan.stagingDir) (hinstall : ∀ spec, c ≠ .install spec)
    (hmove : ∀ src dst, c ≠ .move src dst) : Clear plan X c := by
  refine clear_of (fun path hp => ⟨(hfiles path hp).base_ne_disk, (hfiles path hp).base_ne_seed⟩)
    (fun dir hd => ?_) (fun spec h => absurd h (hinstall spec)) fun src => hmove src _
  rw [hdirs dir hd]
  exact ⟨siblings_disk hX, siblings_seed hX⟩

theorem clear_aside (hX : '/' ∉ X.toList) (h : AsideQuery plan pid (.run c)) : Clear plan X c := by
  refine clear_foreign hX (fun path hp => ?_) (fun dir hd => ?_) (fun spec hc => ?_) fun src dst hc => ?_
  · cases h <;> simp only [files, List.mem_singleton, List.not_mem_nil] at hp
    · rw [hp]
      exact foreign_bibConfigTmp
    · rw [hp]
      exact foreign_manifest
    · rw [hp]
      exact foreign_bibConfigTmp
    · rw [hp]
      exact foreign_sidecarPath
  · cases h <;> simp only [dirs, List.mem_singleton, List.not_mem_nil] at hd <;> exact hd
  · subst hc
    cases h
  · subst hc
    cases h

theorem clear_side (hX : '/' ∉ X.toList) (h : SideQuery (.run c)) : Clear plan X c := by
  refine clear_foreign hX (fun path hp => ?_) (fun dir hd => ?_) (fun spec hc => ?_) fun src dst hc => ?_
  · cases h with
    | writeFile htmp content =>
      obtain rfl := List.mem_singleton.mp hp
      exact foreign_tmp htmp
    | netDumpxml net => cases hp
    | addDhcpHost net mac name ip => cases hp
  · cases h <;> cases hd
  · subst hc
    cases h
  · subst hc
    cases h

theorem clear_wait (hX : '/' ∉ X.toList) (h : WaitQuery (.run c)) : Clear plan X c := by
  refine clear_foreign hX (fun path hp => ?_) (fun dir hd => ?_) (fun spec hc => ?_) fun src dst hc => ?_
  · cases h <;> cases hp
  · cases h <;> cases hd
  · subst hc
    cases h
  · subst hc
    cases h

theorem clear_dominfo (hX : '/' ∉ X.toList) : Clear plan X (.dominfo name) :=
  clear_foreign hX nofun nofun nofun nofun

variable {udTmp template : String} {netCfgTmp : Option String}

theorem clear_seed (hX : '/' ∉ X.toList) (hname : '/' ∉ name.toList) (hne : X ≠ name) :
    Clear plan X (.seed name udTmp (seedPath plan.poolDir name) netCfgTmp) := by
  refine clear_of (fun path hp => ?_) nofun nofun nofun
  obtain rfl := List.mem_singleton.mp hp
  exact ⟨base_ne (by decide) (by decide) (by decide) last_diskPath last_seedPath,
    base_seedPath_ne hX hname hne⟩

theorem clear_clone (hX : '/' ∉ X.toList) (hname : '/' ∉ name.toList) (hne : X ≠ name) :
    Clear plan X (.clone template (diskPath plan.poolDir name)) := by
  refine clear_of (fun path hp => ?_) nofun nofun nofun
  obtain rfl := List.mem_singleton.mp hp
  exact ⟨base_diskPath_ne hX hname hne,
    base_ne (by decide) (by decide) (by decide) last_seedPath last_diskPath⟩

theorem clear_install {spec : VmSpec} (hX : '/' ∉ X.toList) (hname : '/' ∉ spec.name.toList)
    (hne : X ≠ spec.name) (hd : spec.diskPath = diskPath plan.poolDir spec.name) :
    Clear plan X (.install spec) := by
  refine clear_of (fun path hp => ?_) nofun (fun spec' hs => ?_) nofun
  · obtain rfl := List.mem_singleton.mp hp
    rw [hd]
    exact ⟨base_diskPath_ne hX hname hne,
      base_ne (by decide) (by decide) (by decide) last_seedPath last_diskPath⟩
  · obtain rfl := Command.install.inj hs
    exact hne.symm

/-- A template that is put somewhere else. -/
theorem clear_move {qcow : String} (hX : '/' ∉ X.toList)
    (hb : base (diskPath plan.poolDir X) ≠ base qcow) (hlast : qcow.toList.getLast? = some '2') :
    Clear plan X (.move plan.stagingQcow qcow) := by
  refine clear_of (fun path hp => ?_) (fun dir hd => ?_) nofun fun src h => ?_
  · obtain rfl := List.mem_singleton.mp hp
    exact ⟨hb, base_ne (by decide) (by decide) (by decide) last_seedPath hlast⟩
  · obtain rfl := List.mem_singleton.mp hd
    rw [parent_stagingQcow]
    exact ⟨siblings_disk hX, siblings_seed hX⟩
  · obtain ⟨-, rfl⟩ := Command.move.inj h
    exact hb rfl

end Clear

end Hbird.Virt.Deploy.Refusal
