import Hbird.Interaction.World
import Hbird.Virt.CleanVmsRuns

namespace Hbird.Virt.CleanVms

open Hbird.Interaction Hbird.Shell Hbird.Text Hbird.Utf8

section Arguments

def virshWords : List (List Char) := ["virsh".toList, "-c".toList, remoteUri.toList]

theorem virshWords_ne_nil : virshWords ≠ [] := List.cons_ne_nil _ _

theorem toList_virsh (rest : String) : (virsh rest).toList = spaced virshWords ++ ' ' :: rest.toList := by
  have hline : ("virsh -c " ++ remoteUri ++ " ").toList = spaced virshWords ++ [' '] := by decide
  rw [virsh, String.toList_append, hline, List.append_assoc, List.singleton_append]

/-- The words of a `virsh` command, its object quoted. -/
theorem argv_virsh {verb tail v : String} {options : List (List Char)}
    (htail : tail.toList = options.flatMap (' ' :: ·))
    (hverb : IsInert verb.toList ∧ Word.fixed? noBraces (verb.toList.map .bare) = some verb.toList)
    (hoptions : ∀ a ∈ options, IsInert a ∧ Word.fixed? noBraces (a.map .bare) = some a) :
    argv noBraces (virsh (verb ++ " " ++ shellQuote v ++ tail)).toList =
      some (virshWords ++ verb.toList :: v.toList :: options) := by
  have hvirsh : ∀ a ∈ virshWords, IsInert a ∧ Word.fixed? noBraces (a.map .bare) = some a := by
    decide
  have hspace : " ".toList = [' '] := rfl
  have hline : (virsh (verb ++ " " ++ shellQuote v ++ tail)).toList =
      spaced (virshWords ++ verb.toList :: (shellQuote v).toList :: options) := by
    rw [toList_virsh, spaced_append virshWords_ne_nil]
    simp [htail, hspace]
  rw [hline]
  refine argv_denotes (List.rel_append (denotes_words hvirsh) ?_) (by simp)
  exact .cons (denotes_plain hverb.1 hverb.2) (.cons (denotes_shellQuote v) (denotes_words hoptions))

theorem argv_destroyCommand (name : String) : argv noBraces (destroyCommand name).toList =
    some (virshWords ++ ["destroy".toList, name.toList]) := by
  have hline : destroyCommand name = virsh ("destroy" ++ " " ++ shellQuote name ++ "") := by
    rw [destroyCommand, String.append_empty]
    rfl
  rw [hline]
  exact argv_virsh rfl (by decide) (by simp)

theorem argv_refreshCommand (pool : String) : argv noBraces (refreshCommand pool).toList =
    some (virshWords ++ ["pool-refresh".toList, pool.toList]) := by
  have hline : refreshCommand pool = virsh ("pool-refresh" ++ " " ++ shellQuote pool ++ "") := by
    rw [refreshCommand, String.append_empty]
    rfl
  rw [hline]
  exact argv_virsh rfl (by decide) (by simp)

theorem argv_undefineAllCommand (name : String) : argv noBraces (undefineAllCommand name).toList =
    some (virshWords ++ ["undefine".toList, name.toList, "--remove-all-storage".toList,
      "--nvram".toList]) := by
  have hline : undefineAllCommand name =
      virsh ("undefine" ++ " " ++ shellQuote name ++ " --remove-all-storage --nvram") := rfl
  rw [hline]
  exact @argv_virsh "undefine" " --remove-all-storage --nvram" name
    ["--remove-all-storage".toList, "--nvram".toList] (by decide) (by decide) (by decide)

theorem argv_domainsCommand : argv noBraces domainsCommand.toList =
    some (virshWords ++ ["list".toList, "--all".toList, "--name".toList]) := by decide

/-- The words of a command on a path, which stands quoted behind two dashes. -/
theorem argv_onPath {command option path : String} {head : String}
    (hhead : head.toList = spaced [command.toList, option.toList, "--".toList] ++ [' '])
    (hcommand : IsInert command.toList ∧
      Word.fixed? noBraces (command.toList.map .bare) = some command.toList)
    (hoption : IsInert option.toList ∧
      Word.fixed? noBraces (option.toList.map .bare) = some option.toList) :
    argv noBraces (head ++ shellQuote path).toList =
      some [command.toList, option.toList, "--".toList, path.toList] := by
  have hdashes : IsInert "--".toList ∧
      Word.fixed? noBraces ("--".toList.map .bare) = some "--".toList := by decide
  have hline : (head ++ shellQuote path).toList =
      spaced ([command.toList, option.toList, "--".toList] ++ [(shellQuote path).toList]) := by
    rw [String.toList_append, hhead, spaced_append (List.cons_ne_nil _ _)]
    simp
  rw [hline]
  refine argv_denotes (List.rel_append (denotes_words ?_) (.cons (denotes_shellQuote path) .nil))
    (by simp)
  simp only [List.forall_mem_cons]
  exact ⟨hcommand, hoption, hdashes, by simp⟩

theorem argv_rmCommand (path : String) : argv noBraces (rmCommand path).toList =
    some ["rm".toList, "-f".toList, "--".toList, path.toList] :=
  argv_onPath (by decide) (by decide) (by decide)

theorem argv_lsCommand (dir : String) : argv noBraces (lsCommand dir).toList =
    some ["ls".toList, "-1".toList, "--".toList, dir.toList] :=
  argv_onPath (by decide) (by decide) (by decide)

end Arguments

section Host

/-- The name of an entry of a directory. -/
structure FileName where
  bytes : List UInt8
  nonempty : bytes ≠ []
  noSlash : 0x2f ∉ bytes
  noNul : 0 ∉ bytes
  deriving DecidableEq

/-- `ls` leaves such a name out. -/
def FileName.isHidden (e : FileName) : Bool := e.bytes.head? == some 0x2e

/-- The KVM host: the names of its domains, and the entries of the pool directory. -/
structure Host where
  domains : List (List UInt8)
  entries : List FileName

namespace Host

def visible (h : Host) : List FileName := h.entries.filter fun e => !e.isHidden

/-- The replies that can come from the host: a listing that succeeds says what is there, in some
order. -/
def Replies (h : Host) (dir : String) : (q : Ask) → Answer q → Prop
  | .run command, .ok out =>
    (command = domainsCommand → ∃ names, names.Perm h.domains ∧ out = listing names ++ [0x0a]) ∧
      (command = lsCommand dir →
        ∃ names, names.Perm (h.visible.map FileName.bytes) ∧ out = listing names)
  | _, _ => True

end Host

/-- A line printed, or a listing. -/
def Ask.isQuiet (dir : String) : Ask → Bool
  | .run command => command == domainsCommand || command == lsCommand dir
  | .log _ => true

/-- Quiet asks leave the host alone, others may take from it. -/
def world (dir : String) : World Host Answer := fun h q r h' =>
  h.Replies dir q r ∧ (q.isQuiet dir = true → h' = h) ∧ h'.domains ⊆ h.domains ∧ h'.entries ⊆ h.entries

variable {dir : String} {h h' : Host} {t : Trace Answer} {x : Exchange Answer}

theorem leads_mem (hl : Leads (world dir) h t h') (hx : x ∈ t) :
    ∃ s : Host, s.domains ⊆ h.domains ∧ s.entries ⊆ h.entries ∧ s.Replies dir x.1 x.2 := by
  induction hl with
  | nil s => cases hx
  | @cons s s' s'' q r t hw ht ih =>
    obtain ⟨hr, -, hd, he⟩ := hw
    cases hx with
    | head => exact ⟨s, List.Subset.refl _, List.Subset.refl _, hr⟩
    | tail _ hx =>
      obtain ⟨u, hu, hu', hur⟩ := ih hx
      exact ⟨u, List.Subset.trans hu hd, List.Subset.trans hu' he, hur⟩

theorem leads_quiet (hl : Leads (world dir) h t h') (hq : ∀ x ∈ t, x.1.isQuiet dir = true)
    (hx : x ∈ t) : h.Replies dir x.1 x.2 := by
  induction hl with
  | nil s => cases hx
  | @cons s s' s'' q r t hw ht ih =>
    obtain ⟨hr, hsame, -⟩ := hw
    obtain ⟨hq, hrest⟩ := List.forall_mem_cons.mp hq
    obtain rfl := hsame hq
    cases hx with
    | head => exact hr
    | tail _ hx => exact ih hrest hx

theorem leads_of_replies (ht : ∀ x ∈ t, h.Replies dir x.1 x.2) : Leads (world dir) h t h := by
  induction t with
  | nil => exact .nil h
  | cons x t ih =>
    obtain ⟨hx, ht⟩ := List.forall_mem_cons.mp ht
    exact .cons ⟨hx, fun _ => rfl, List.Subset.refl _, List.Subset.refl _⟩ (ih ht)

end Host

section Safety

variable {plan : Plan} {h h' : Host} {t : Trace Answer} {name : String}

/-- No command of the run failed. -/
def Answered (t : Trace Answer) : Prop :=
  ∀ command r, (⟨.run command, r⟩ : Exchange Answer) ∈ t → ∃ out, r = .ok out

/-- Every dry run on the host, its listings not failing, prints the line. -/
def Announced (plan : Plan) (h : Host) (line : String) : Prop :=
  ∀ t o h', Finishes (run plan.dry) t o → Leads (world plan.poolDir) h t h' → Answered t →
    (⟨.log ("[clean-vms] " ++ line), ()⟩ : Exchange Answer) ∈ t

/-- The arguments of what a live run may do on the host. -/
inductive Allowed (plan : Plan) (h : Host) : List (List Char) → Prop
  | list : Allowed plan h (virshWords ++ ["list".toList, "--all".toList, "--name".toList])
  | ls : Allowed plan h ["ls".toList, "-1".toList, "--".toList, plan.poolDir.toList]
  | refresh : Allowed plan h (virshWords ++ ["pool-refresh".toList, plan.poolName.toList])
  | destroy (name : String) (hname : isHummingbirdDomain name = true)
      (hdry : Announced plan h (wouldDestroy name)) :
      Allowed plan h (virshWords ++ ["destroy".toList, name.toList])
  | undefine (name : String) (hname : isHummingbirdDomain name = true)
      (hdry : Announced plan h (wouldDestroy name)) :
      Allowed plan h (virshWords ++ ["undefine".toList, name.toList, "--remove-all-storage".toList,
        "--nvram".toList])
  | remove (e : FileName) (name : String) (he : e ∈ h.entries)
      (hbytes : e.bytes = encode name.toList) (hname : isStragglerArtifact name = true)
      (hdry : Announced plan h (wouldRemove (plan.poolPath name))) :
      Allowed plan h ["rm".toList, "-f".toList, "--".toList, (plan.poolPath name).toList]

/-- Whatever the host replies and the commands come to, a live run does nothing else. -/
def Safe (plan : Plan) (h : Host) : Prop :=
  ∀ t o h', Finishes (run plan.live) t o → Leads (world plan.poolDir) h t h' →
    ∀ command r, (⟨.run command, r⟩ : Exchange Answer) ∈ t →
      ∃ args, argv noBraces command.toList = some args ∧ Allowed plan h args

/-- Whatever of an entry looks like a straggler in a listing is the name of an entry. -/
def ListedAsItself (h : Host) : Prop :=
  ∀ e ∈ h.visible, ∀ name ∈ shown e.bytes, isStragglerArtifact name = true →
    ∃ e' ∈ h.entries, e'.bytes = encode name.toList

theorem mem_stragglers {entries : List String} :
    name ∈ stragglers entries ↔ name ∈ entries ∧ isStragglerArtifact name = true := by
  rw [stragglers, List.mem_mergeSort, List.mem_filter]

theorem poolPath_dry : plan.dry.poolPath = plan.poolPath := rfl

/-- The part of a run that an exchange stems from. -/
inductive Origin (plan : Plan) (t : Trace Answer) : Exchange Answer → Prop
  | domains (r : Except Error (List UInt8)) : Origin plan t ⟨.run domainsCommand, r⟩
  | ls (r : Except Error (List UInt8)) : Origin plan t ⟨.run (lsCommand plan.poolDir), r⟩
  | last {x : Exchange Answer} (hx : AsksLast plan x.1) : Origin plan t x
  | domain {x : Exchange Answer} {out : List UInt8} {name : String} {u : Trace Answer} {n : Nat}
      (hout : (⟨.run domainsCommand, .ok out⟩ : Exchange Answer) ∈ t)
      (hlisted : name ∈ listed (textOf out)) (hname : isHummingbirdDomain name = true)
      (hu : Runs (sweepDomain plan name) u n) (hx : x ∈ u) : Origin plan t x
  | straggler {x : Exchange Answer} {out : List UInt8} {name : String} {u : Trace Answer} {n : Nat}
      (hout : (⟨.run (lsCommand plan.poolDir), .ok out⟩ : Exchange Answer) ∈ t)
      (hlisted : name ∈ listed (textOf out)) (hname : isStragglerArtifact name = true)
      (hu : Runs (sweepStraggler plan name) u n) (hx : x ∈ u) : Origin plan t x

theorem origin_of_mem {o : Except Failure Unit} (hf : Finishes (run plan) t o)
    {x : Exchange Answer} (hx : x ∈ t) : Origin plan t x := by
  obtain ⟨t₁, o₁, t', h₁, rfl, herror, hok⟩ := finishes_run hf
  obtain ⟨r, u, rfl, hnil, hloop⟩ := finishes_sweepDomains h₁
  obtain hx₁ | hx₁ := List.mem_append.mp hx
  · obtain rfl | hx₂ := List.mem_cons.mp hx₁
    · exact .domains r
    · cases r with
      | error e =>
        rw [hnil e rfl] at hx₂
        cases hx₂
      | ok out =>
        obtain ⟨n, rfl, hruns⟩ := hloop out rfl
        obtain ⟨name, hmem, v, m, hv, hxv⟩ := mem_eachOf hruns hx₂
        obtain ⟨hlisted, hname⟩ := List.mem_filter.mp hmem
        exact .domain (List.mem_append_left _ (List.mem_cons_self ..)) hlisted hname hv hxv
  · cases o₁ with
    | error e =>
      rw [herror e rfl] at hx₁
      cases hx₁
    | ok n =>
      obtain ⟨t₂, o₂, t₃, h₂, rfl, hlast⟩ := hok n rfl
      obtain ⟨r', u', rfl, hlogs, hloop'⟩ := finishes_sweepStragglers h₂
      obtain hx₂ | hx₂ := List.mem_append.mp hx₁
      · obtain rfl | hx₃ := List.mem_cons.mp hx₂
        · exact .ls r'
        · cases r' with
          | error e =>
            obtain ⟨line, hline⟩ := hlogs e rfl x hx₃
            exact .last (hline ▸ .log line)
          | ok out =>
            obtain ⟨m, rfl, hruns⟩ := hloop' out rfl
            obtain ⟨name, hmem, v, k, hv, hxv⟩ := mem_eachOf hruns hx₃
            obtain ⟨hlisted, hname⟩ := mem_stragglers.mp hmem
            exact .straggler (by simp) hlisted hname hv hxv
      · exact .last (hlast x hx₂)

/-- A name in a listing that the run got stems from the host as it was before the run. -/
theorem domain_shown (hl : Leads (world plan.poolDir) h t h') {out : List UInt8}
    (hout : (⟨.run domainsCommand, .ok out⟩ : Exchange Answer) ∈ t)
    (hlisted : name ∈ listed (textOf out)) : ∃ d ∈ h.domains, name ∈ shown d := by
  obtain ⟨s, hd, -, hr⟩ := leads_mem hl hout
  obtain ⟨names, hperm, rfl⟩ := hr.1 rfl
  obtain ⟨d, hmem, hshown⟩ := mem_listed_blank.mp hlisted
  exact ⟨d, hd (hperm.mem_iff.mp hmem), hshown⟩

theorem visible_mono {s : Host} (he : s.entries ⊆ h.entries) : s.visible ⊆ h.visible :=
  List.filter_subset _ he

theorem entry_shown (hl : Leads (world plan.poolDir) h t h') {out : List UInt8}
    (hout : (⟨.run (lsCommand plan.poolDir), .ok out⟩ : Exchange Answer) ∈ t)
    (hlisted : name ∈ listed (textOf out)) : ∃ e ∈ h.visible, name ∈ shown e.bytes := by
  obtain ⟨s, -, he, hr⟩ := leads_mem hl hout
  obtain ⟨names, hperm, rfl⟩ := hr.2 rfl
  obtain ⟨b, hb, hshown⟩ := mem_listed_listing.mp hlisted
  obtain ⟨e, hmem, rfl⟩ := List.mem_map.mp (hperm.mem_iff.mp hb)
  exact ⟨e, visible_mono he hmem, hshown⟩

/-- A dry run asks for listings only. -/
theorem quiet_of_dry {o : Except Failure Unit} (hf : Finishes (run plan.dry) t o) :
    ∀ x ∈ t, x.1.isQuiet plan.poolDir = true := by
  intro x hx
  cases origin_of_mem hf hx with
  | domains r => simp [Ask.isQuiet]
  | ls r => simp [Ask.isQuiet, Plan.dry]
  | last hlast =>
    obtain ⟨q, r⟩ := x
    cases hlast with
    | log line => rfl
    | refresh hd => cases hd
  | domain hout hlisted hname hu hx =>
    obtain ⟨rfl, -⟩ := (runs_sweepDomain_dry rfl).mp hu
    obtain rfl := List.mem_singleton.mp hx
    rfl
  | straggler hout hlisted hname hu hx =>
    obtain ⟨rfl, -⟩ := (runs_sweepStraggler_dry rfl).mp hu
    obtain rfl := List.mem_singleton.mp hx
    rfl

theorem announced_domain {d : List UInt8} (hd : d ∈ h.domains) (hshown : name ∈ shown d)
    (hname : isHummingbirdDomain name = true) : Announced plan h (wouldDestroy name) := by
  intro t o h' hf hl hans
  have hquiet := quiet_of_dry hf
  obtain ⟨t₁, o₁, t', h₁, rfl, -⟩ := finishes_run hf
  obtain ⟨r, u, rfl, -, hloop⟩ := finishes_sweepDomains h₁
  have hmem : (⟨.run domainsCommand, r⟩ : Exchange Answer) ∈ (⟨.run domainsCommand, r⟩ :: u) ++ t' := by
    simp
  obtain ⟨out, rfl⟩ := hans _ _ hmem
  obtain ⟨n, rfl, hruns⟩ := hloop out rfl
  obtain ⟨names, hperm, rfl⟩ := (leads_quiet hl hquiet hmem).1 rfl
  have hlisted : name ∈ listed (textOf (listing names ++ [0x0a])) :=
    mem_listed_blank.mpr ⟨d, hperm.mem_iff.mpr hd, hshown⟩
  obtain ⟨v, m, hv, hsub⟩ := eachOf_covers hruns (List.mem_filter.mpr ⟨hlisted, hname⟩)
  obtain ⟨rfl, -⟩ := (runs_sweepDomain_dry rfl).mp hv
  exact List.mem_append_left _ (List.mem_cons_of_mem _ (hsub (List.mem_singleton_self _)))

theorem announced_straggler {e : FileName} (he : e ∈ h.visible) (hshown : name ∈ shown e.bytes)
    (hname : isStragglerArtifact name = true) :
    Announced plan h (wouldRemove (plan.poolPath name)) := by
  intro t o h' hf hl hans
  have hquiet := quiet_of_dry hf
  obtain ⟨t₁, o₁, t', h₁, rfl, -, hok⟩ := finishes_run hf
  obtain ⟨r, u, rfl, -, hloop⟩ := finishes_sweepDomains h₁
  obtain ⟨out, rfl⟩ := hans domainsCommand r (by simp)
  obtain ⟨n, rfl, -⟩ := hloop out rfl
  obtain ⟨t₂, o₂, t₃, h₂, rfl, -⟩ := hok n rfl
  obtain ⟨r', u', rfl, -, hloop'⟩ := finishes_sweepStragglers h₂
  obtain ⟨out', rfl⟩ := hans (lsCommand plan.dry.poolDir) r' (by simp)
  obtain ⟨m, rfl, hruns⟩ := hloop' out' rfl
  have hreplies := leads_quiet hl hquiet
    (x := ⟨.run (lsCommand plan.dry.poolDir), .ok out'⟩) (by simp)
  obtain ⟨names, hperm, rfl⟩ := hreplies.2 rfl
  have hlisted : name ∈ listed (textOf (listing names)) :=
    mem_listed_listing.mpr ⟨e.bytes, hperm.mem_iff.mpr (List.mem_map_of_mem he), hshown⟩
  obtain ⟨v, k, hv, hsub⟩ := eachOf_covers hruns (mem_stragglers.mpr ⟨hlisted, hname⟩)
  obtain ⟨rfl, -⟩ := (runs_sweepStraggler_dry rfl).mp hv
  have hmem := hsub (List.mem_singleton_self _)
  simp only [poolPath_dry] at hmem
  simp [hmem]

/-- Nothing but what is allowed is done when every listed name is that of an entry. -/
theorem safe_of_listedAsItself (hlist : ListedAsItself h) : Safe plan h := by
  intro t o h' hf hl command r hx
  generalize hxe : (⟨.run command, r⟩ : Exchange Answer) = x at hx
  cases origin_of_mem hf hx with
  | domains r' =>
    cases hxe
    exact ⟨_, argv_domainsCommand, .list⟩
  | ls r' =>
    cases hxe
    exact ⟨_, argv_lsCommand plan.poolDir, .ls⟩
  | last hlast =>
    subst hxe
    cases hlast with
    | refresh hd => exact ⟨_, argv_refreshCommand plan.poolName, .refresh⟩
  | @domain _ out name u n hout hlisted hname hu hxu =>
    obtain ⟨d, hd, hshown⟩ := domain_shown hl hout hlisted
    have hdry : Announced plan h (wouldDestroy name) := announced_domain hd hshown hname
    have hasks := puts_sweepDomain u n hu x hxu
    subst hxe
    cases hasks with
    | destroy => exact ⟨_, argv_destroyCommand name, .destroy name hname hdry⟩
    | undefine => exact ⟨_, argv_undefineAllCommand name, .undefine name hname hdry⟩
  | @straggler _ out name u n hout hlisted hname hu hxu =>
    obtain ⟨e, he, hshown⟩ := entry_shown hl hout hlisted
    obtain ⟨e', he', hbytes⟩ := hlist e he name hshown hname
    have hdry : Announced plan h (wouldRemove _) := announced_straggler he hshown hname
    have hasks := puts_sweepStraggler u n hu x hxu
    subst hxe
    cases hasks with
    | remove => exact ⟨_, argv_rmCommand (plan.poolPath name), .remove e' name he' hbytes hname hdry⟩

/-- A host on which every command succeeds and nothing changes. -/
def Host.answer (h : Host) (dir : String) : (q : Ask) → Answer q
  | .run command =>
    if command = domainsCommand then .ok (listing h.domains ++ [0x0a])
    else if command = lsCommand dir then .ok (listing (h.visible.map FileName.bytes))
    else .ok []
  | .log _ => ()

theorem lsCommand_ne (dir : String) : lsCommand dir ≠ domainsCommand := by
  have hls : Begins 'l' (lsCommand dir) := begins_append ⟨_, rfl⟩ _
  have hvirsh : Begins 'v' domainsCommand := ⟨_, rfl⟩
  exact begins_ne hls hvirsh (by decide)

theorem answer_domains (h : Host) (dir : String) :
    h.answer dir (.run domainsCommand) = .ok (listing h.domains ++ [0x0a]) := by
  rw [Host.answer, if_pos rfl]

theorem answer_ls (h : Host) (dir : String) :
    h.answer dir (.run (lsCommand dir)) = .ok (listing (h.visible.map FileName.bytes)) := by
  rw [Host.answer, if_neg (lsCommand_ne dir), if_pos rfl]

theorem replies_answer (h : Host) (dir : String) (q : Ask) : h.Replies dir q (h.answer dir q) := by
  cases q with
  | log line => trivial
  | run command =>
    rw [Host.answer]
    split_ifs with h1 h2
    · subst h1
      exact ⟨fun _ => ⟨_, List.Perm.refl _, rfl⟩, fun hc => absurd hc.symm (lsCommand_ne dir)⟩
    · subst h2
      exact ⟨fun hc => absurd hc (lsCommand_ne dir), fun _ => ⟨_, List.Perm.refl _, rfl⟩⟩
    · exact ⟨fun hc => absurd hc h1, fun hc => absurd hc h2⟩

theorem poolPath_injective {name' : String} (hp : plan.poolPath name = plan.poolPath name') :
    name = name' := append_left_cancel _ hp

theorem entry_of_allowed (ha : Allowed plan h ["rm".toList, "-f".toList, "--".toList,
    (plan.poolPath name).toList]) : ∃ e ∈ h.entries, e.bytes = encode name.toList := by
  have hhead : ∀ rest, virshWords ++ rest ≠ ["rm".toList, "-f".toList, "--".toList,
      (plan.poolPath name).toList] := by
    intro rest heq
    have hfirst := congrArg List.head? heq
    revert hfirst
    simp [virshWords]
  generalize hargs : ["rm".toList, "-f".toList, "--".toList, (plan.poolPath name).toList] = args at ha
  cases ha with
  | list => exact absurd hargs.symm (hhead _)
  | ls =>
    have hfirst := congrArg List.head? hargs
    revert hfirst
    simp
  | refresh => exact absurd hargs.symm (hhead _)
  | destroy name' => exact absurd hargs.symm (hhead _)
  | undefine name' => exact absurd hargs.symm (hhead _)
  | remove e name' he hbytes =>
    have hpath : (plan.poolPath name).toList = (plan.poolPath name').toList := by
      simpa using hargs
    obtain rfl := poolPath_injective (String.toList_injective hpath)
    exact ⟨e, he, hbytes⟩

theorem listedAsItself_of_safe (hs : Safe plan h) : ListedAsItself h := by
  intro e he name hshown hname
  obtain ⟨t, o, hf, hsame⟩ := exists_runs (h.answer plan.poolDir) (run plan.live).run
  have hl : Leads (world plan.poolDir) h t h := by
    refine leads_of_replies fun x hx => ?_
    rw [hsame x hx]
    exact replies_answer h plan.poolDir x.1
  obtain ⟨r, hmem⟩ : ∃ r, (⟨.run (rmCommand (plan.poolPath name)), r⟩ : Exchange Answer) ∈ t := by
    obtain ⟨t₁, o₁, t', h₁, rfl, -, hok⟩ := finishes_run hf
    obtain ⟨r, u, rfl, -, hloop⟩ := finishes_sweepDomains h₁
    have hr := hsame ⟨.run domainsCommand, r⟩ (by simp)
    obtain ⟨n, rfl, -⟩ := hloop _ (hr.trans (answer_domains h plan.poolDir))
    obtain ⟨t₂, o₂, t₃, h₂, rfl, -⟩ := hok n rfl
    obtain ⟨r', u', rfl, -, hloop'⟩ := finishes_sweepStragglers h₂
    have hr' := hsame ⟨.run (lsCommand plan.poolDir), r'⟩ (by simp [Plan.live])
    obtain ⟨m, rfl, hruns⟩ := hloop' _ (hr'.trans (answer_ls h plan.poolDir))
    have hlisted : name ∈ listed (textOf (listing (h.visible.map FileName.bytes))) :=
      mem_listed_listing.mpr ⟨e.bytes, List.mem_map_of_mem he, hshown⟩
    obtain ⟨v, k, hv, hsub⟩ := eachOf_covers hruns (mem_stragglers.mpr ⟨hlisted, hname⟩)
    obtain ⟨r'', hr''⟩ := mem_sweepStraggler_live rfl hv
    exact ⟨r'', List.mem_append_right _ (List.mem_append_left _
      (List.mem_cons_of_mem _ (hsub hr'')))⟩
  obtain ⟨args, hargs, hallowed⟩ := hs t o h hf hl _ _ hmem
  rw [argv_rmCommand] at hargs
  obtain rfl := Option.some.inj hargs
  exact entry_of_allowed hallowed

/-- A name of one line that no whitespace begins or ends is listed as itself. -/
theorem shown_encode {text : String} (hline : OneLine text) (htrim : trim text = text) :
    shown (encode text.toList) = [text].filter (· ≠ "") := by
  have hbytes : encode text.toList ++ [0x0a] = encode (text ++ "\n" ++ "").toList := by
    simp [encode, String.toList_append]
    rfl
  have htext : textOf (encode text.toList ++ [0x0a]) = text ++ "\n" ++ "" := by
    rw [hbytes, textOf_encode]
  have hrest : lines "" = [] := rfl
  rw [shown, listed, htext, lines_append hline, hrest, List.map_singleton, htrim]

theorem listedAsItself_of_plain (hplain : ∀ e ∈ h.visible, ∃ text : String,
    e.bytes = encode text.toList ∧ OneLine text ∧ trim text = text) : ListedAsItself h := by
  intro e he name hshown _
  obtain ⟨text, hbytes, hline, htrim⟩ := hplain e he
  rw [hbytes, shown_encode hline htrim] at hshown
  obtain ⟨hmem, -⟩ := List.mem_filter.mp hshown
  obtain rfl := List.mem_singleton.mp hmem
  exact ⟨e, List.mem_of_mem_filter he, hbytes⟩

/-- A live run removes by path only what is named as an entry of the pool, and announced, and
touches no other domain, if and only if no listed line is taken for another name; so with plain names. -/
theorem safe_iff (plan : Plan) (h : Host) :
    (Safe plan h ↔ ListedAsItself h) ∧
      ((∀ e ∈ h.visible, ∃ text : String,
        e.bytes = encode text.toList ∧ OneLine text ∧ trim text = text) → Safe plan h) :=
  ⟨⟨listedAsItself_of_safe, safe_of_listedAsItself⟩,
    fun hplain => safe_of_listedAsItself (listedAsItself_of_plain hplain)⟩

def Plan.sample : Plan := ⟨"/var/lib/libvirt/images", "default", none, false⟩

/-- A file name that ends in a space. -/
def FileName.sample : FileName where
  bytes := encode "hummingbird-x.qcow2 ".toList
  nonempty := by decide
  noSlash := by decide
  noNul := by decide

def Host.sample : Host := ⟨[], [FileName.sample]⟩

/-- The file that is removed is not the one in the pool. -/
theorem sample_unsafe : ¬ Safe Plan.sample Host.sample := by
  intro hs
  have hlist := listedAsItself_of_safe hs
  have hshown : "hummingbird-x.qcow2" ∈ shown FileName.sample.bytes := by decide +kernel
  have hvisible : FileName.sample ∈ Host.sample.visible := by decide +kernel
  have hname : isStragglerArtifact "hummingbird-x.qcow2" = true := by decide +kernel
  have hother : FileName.sample.bytes ≠ encode "hummingbird-x.qcow2".toList := by decide +kernel
  obtain ⟨e, he, hbytes⟩ := hlist _ hvisible _ hshown hname
  rw [List.mem_singleton.mp he] at hbytes
  exact hother hbytes

end Safety

end Hbird.Virt.CleanVms
