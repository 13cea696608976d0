import Hbird.Interaction.Secured
import Hbird.Verify.Run

namespace Hbird.Verify

open Hbird.CpKubectl Hbird.Interaction Hbird.Shell Hbird.Ssh Hbird.Virt
open Hbird.UpdateCluster (Failure NoSubstitution refusal refusal_eq_none remoteKubectl adminKubectl
  shellMetacharacter)

/-- The namespace that the arguments of kubectl name. -/
def scope : List String → Option String
  | "-n" :: ns :: _ => some ns
  | "create" :: "ns" :: ns :: _ => some ns
  | "delete" :: "ns" :: ns :: _ => some ns
  | _ :: args => scope args
  | [] => none

inductive Phase (Space : Type) : Type
  | absent
  | active (space : Space)
  | terminating

/-- The namespaces of the cluster. -/
abbrev Cluster (Space : Type) := String → Phase Space

/-- A kubectl command changes no namespace but the one that it names, and a deletion that was taken
leaves that one on its way out at most. -/
structure Obeys {Space : Type} (s : Cluster Space) (args : List String)
    (r : Except Ssh.Error RunOutput) (s' : Cluster Space) : Prop where
  frame : ∀ ns, ns ≠ (scope args).getD "default" → s' ns = s ns
  delete : ∀ ns rest, args = "delete" :: "ns" :: ns :: rest → (∃ out, r = .ok out) →
    ∀ space, s' ns ≠ .active space

/-- The control plane acts on the words that its shell reads. -/
def serves (Space : Type) : World (Cluster Space) ExecReply := fun s q r s' =>
  ∀ args : List String, argv noBraces (lineOf q).toList = some (kubectlWords ++ args.map String.toList) →
    Obeys s args r s'

section Words

variable {texts args : List String} {command ns : String}

/-- A word that no part of the way to kubectl takes for anything else. -/
def Safe (s : String) : Prop := s.toList.all wordSafe = true ∧ s.toList ≠ []

instance (s : String) : Decidable (Safe s) := inferInstanceAs (Decidable (_ ∧ _))

theorem safe_smoketestNs (epoch : Nat) : Safe (smoketestNs epoch) := by
  have hhead : "smoketest-".toList.all wordSafe = true := by decide +kernel
  have hdigits : (toString epoch).toList = Nat.toDigits 10 epoch := Nat.toList_repr
  rw [Safe, smoketestNs, String.toList_append]
  refine ⟨?_, List.append_ne_nil_of_left_ne_nil (by decide) _⟩
  rw [List.all_append, hhead, Bool.true_and, List.all_eq_true, hdigits]
  intro c hc
  have hdigit : c.isDigit = true := Nat.isDigit_of_mem_toDigits (by decide) (by decide) hc
  simp [wordSafe, shSafe, Char.isAlphanum, hdigit]

theorem argv_remoteKubectl
    (h : List.Forall₂ (fun t a : String => Denotes t.toList a.toList) texts args) (hne : texts ≠ []) :
    argv noBraces (remoteKubectl (" ".intercalate texts)).toList =
      some (kubectlWords ++ args.map String.toList) := by
  obtain ⟨text, texts, rfl⟩ := List.exists_cons_of_ne_nil hne
  have hadmin : adminKubectl = "kubectl" ++ " " ++ "--kubeconfig=/etc/kubernetes/admin.conf" ++ " " := by
    decide +kernel
  have hline : remoteKubectl (" ".intercalate (text :: texts)) =
      " ".intercalate ("kubectl" :: "--kubeconfig=/etc/kubernetes/admin.conf" :: text :: texts) := by
    rw [remoteKubectl, hadmin, String.intercalate_cons_cons, String.intercalate_cons_cons]
    simp only [String.append_assoc]
  rw [hline]
  have hkubectl : Denotes "kubectl".toList "kubectl".toList :=
    (spells_fixed (by decide) (by decide)).denotes
  have hconfig : Denotes "--kubeconfig=/etc/kubernetes/admin.conf".toList
      "--kubeconfig=/etc/kubernetes/admin.conf".toList := (spells_fixed (by decide) (by decide)).denotes
  exact argv_intercalate (.cons hkubectl (.cons hconfig h)) (List.cons_ne_nil _ _)

theorem denotes_safe (h : ∀ s ∈ texts, Safe s) :
    List.Forall₂ (fun t a : String => Denotes t.toList a.toList) texts texts :=
  List.forall₂_same.mpr fun s hs => (spells_fixed (h s hs).1 (h s hs).2).denotes

theorem safe_around (front back : List String) (hns : Safe ns) (hfront : ∀ s ∈ front, Safe s)
    (hback : ∀ s ∈ back, Safe s) : ∀ s ∈ front ++ ns :: back, Safe s := by
  rw [List.forall_mem_append, List.forall_mem_cons]
  exact ⟨hfront, hns, hback⟩

/-- What kubectl is given for the command. -/
def Reads (command : String) (args : List String) : Prop :=
  argv noBraces (remoteKubectl command).toList = some (kubectlWords ++ args.map String.toList)

/-- The command is one of kubectl in the namespace. -/
def Within (ns command : String) : Prop := ∃ args, Reads command args ∧ scope args = some ns

theorem reads_of_safe (hcommand : command = " ".intercalate texts) (h : ∀ s ∈ texts, Safe s)
    (hne : texts ≠ []) : Reads command texts :=
  hcommand ▸ argv_remoteKubectl (denotes_safe h) hne

theorem Reads.unique {args' : List String} (h : Reads command args) (h' : Reads command args') :
    args' = args := by
  have hwords := List.append_cancel_left (Option.some.inj (h'.symm.trans h))
  exact List.map_injective_iff.mpr (fun _ _ => String.toList_injective) hwords

end Words

section Commands

variable {ns : String}

theorem createCommand_eq (ns : String) : createCommand ns = " ".intercalate ["create", "ns", ns] := by
  have h : "create ns " = "create" ++ " " ++ "ns" ++ " " := by decide +kernel
  simp only [createCommand, h, String.intercalate_cons_cons, String.intercalate_singleton,
    String.append_assoc]

theorem applyCommand_eq (ns : String) :
    applyCommand ns = " ".intercalate ["apply", "-n", ns, "-f", "-"] := by
  have h : "apply -n " = "apply" ++ " " ++ "-n" ++ " " := by decide +kernel
  have htail : " -f -" = " " ++ "-f" ++ " " ++ "-" := by decide +kernel
  simp only [applyCommand, h, htail, String.intercalate_cons_cons, String.intercalate_singleton,
    String.append_assoc]

theorem waitCommand_eq (ns : String) : waitCommand ns = " ".intercalate
    ["-n", ns, "wait", "--for=condition=available", "--timeout=2m", "deployment/nginx"] := by
  have h : "-n " = "-n" ++ " " := by decide +kernel
  have htail : " wait --for=condition=available --timeout=2m deployment/nginx" =
      " " ++ "wait" ++ " " ++ "--for=condition=available" ++ " " ++ "--timeout=2m" ++ " " ++
        "deployment/nginx" := by decide +kernel
  simp only [waitCommand, h, htail, String.intercalate_cons_cons, String.intercalate_singleton,
    String.append_assoc]

theorem eventsCommand_eq (ns : String) : eventsCommand ns = " ".intercalate
    ["-n", ns, "get", "events", "--sort-by=.lastTimestamp"] := by
  have h : "-n " = "-n" ++ " " := by decide +kernel
  have htail : " get events --sort-by=.lastTimestamp" =
      " " ++ "get" ++ " " ++ "events" ++ " " ++ "--sort-by=.lastTimestamp" := by decide +kernel
  simp only [eventsCommand, h, htail, String.intercalate_cons_cons, String.intercalate_singleton,
    String.append_assoc]

theorem probeCommand_eq (ns : String) : probeCommand ns = " ".intercalate
    ["run", "probe", "-n", ns, "--rm", "-i", "--restart=Never", "--image=busybox:stable",
      "--overrides=" ++ shellSingleQuote overrides] := by
  have h : "run probe -n " = "run" ++ " " ++ "probe" ++ " " ++ "-n" ++ " " := by decide +kernel
  have htail : " --rm -i --restart=Never --image=busybox:stable --overrides=" =
      " " ++ "--rm" ++ " " ++ "-i" ++ " " ++ "--restart=Never" ++ " " ++ "--image=busybox:stable" ++
        " " ++ "--overrides=" := by decide +kernel
  simp only [probeCommand, h, htail, String.intercalate_cons_cons, String.intercalate_singleton,
    String.append_assoc]

theorem cleanupCommand_eq (ns : String) : cleanupCommand ns = " ".intercalate
    ["delete", "ns", ns, "--wait=false", "--ignore-not-found"] := by
  have h : "delete ns " = "delete" ++ " " ++ "ns" ++ " " := by decide +kernel
  have htail : " --wait=false --ignore-not-found" =
      " " ++ "--wait=false" ++ " " ++ "--ignore-not-found" := by decide +kernel
  simp only [cleanupCommand, h, htail, String.intercalate_cons_cons, String.intercalate_singleton,
    String.append_assoc]

theorem reads_create (hns : Safe ns) : Reads (createCommand ns) ["create", "ns", ns] := by
  have hsafe := safe_around ["create", "ns"] [] hns (by decide) (by decide)
  exact reads_of_safe (createCommand_eq ns) hsafe (List.cons_ne_nil _ _)

theorem reads_apply (hns : Safe ns) : Reads (applyCommand ns) ["apply", "-n", ns, "-f", "-"] := by
  have hsafe := safe_around ["apply", "-n"] ["-f", "-"] hns (by decide) (by decide)
  exact reads_of_safe (applyCommand_eq ns) hsafe (List.cons_ne_nil _ _)

theorem reads_wait (hns : Safe ns) : Reads (waitCommand ns)
    ["-n", ns, "wait", "--for=condition=available", "--timeout=2m", "deployment/nginx"] := by
  have hsafe := safe_around ["-n"]
    ["wait", "--for=condition=available", "--timeout=2m", "deployment/nginx"] hns (by decide) (by decide)
  exact reads_of_safe (waitCommand_eq ns) hsafe (List.cons_ne_nil _ _)

theorem reads_events (hns : Safe ns) : Reads (eventsCommand ns)
    ["-n", ns, "get", "events", "--sort-by=.lastTimestamp"] := by
  have hsafe := safe_around ["-n"]
    ["get", "events", "--sort-by=.lastTimestamp"] hns (by decide) (by decide)
  exact reads_of_safe (eventsCommand_eq ns) hsafe (List.cons_ne_nil _ _)

/-- The pod is one word. -/
theorem reads_probe (hns : Safe ns) : Reads (probeCommand ns)
    ["run", "probe", "-n", ns, "--rm", "-i", "--restart=Never", "--image=busybox:stable",
      "--overrides=" ++ overrides] := by
  have hoverrides : Denotes ("--overrides=" ++ shellSingleQuote overrides).toList
      ("--overrides=" ++ overrides).toList := by
    rw [String.toList_append, String.toList_append, toList_shellSingleQuote]
    exact ((spells_fixed (by decide) (by decide)).append
      (spells_quoteWith (safeClass_of rfl) overrides.toList)).denotes
  have hfixed : ∀ s, Safe s → Denotes s.toList s.toList := fun s h => (spells_fixed h.1 h.2).denotes
  rw [probeCommand_eq]
  refine argv_remoteKubectl (.cons (hfixed _ (by decide)) (.cons (hfixed _ (by decide))
    (.cons (hfixed _ (by decide)) (.cons (hfixed _ hns) (.cons (hfixed _ (by decide))
    (.cons (hfixed _ (by decide)) (.cons (hfixed _ (by decide)) (.cons (hfixed _ (by decide))
    (.cons hoverrides .nil))))))))) (List.cons_ne_nil _ _)

theorem reads_cleanup (hns : Safe ns) : Reads (cleanupCommand ns)
    ["delete", "ns", ns, "--wait=false", "--ignore-not-found"] := by
  have hsafe := safe_around ["delete", "ns"] ["--wait=false", "--ignore-not-found"] hns (by decide)
    (by decide)
  exact reads_of_safe (cleanupCommand_eq ns) hsafe (List.cons_ne_nil _ _)

end Commands

section Guard

variable {a b command context ns : String}

/-- No character that the guard looks for. -/
def calm (c : Char) : Bool := !shellMetacharacter c && c != '$'

def Calm (s : String) : Prop := s.toList.all calm = true

instance (s : String) : Decidable (Calm s) := inferInstanceAs (Decidable (_ = true))

theorem calm_iff {c : Char} : calm c = true ↔ shellMetacharacter c = false ∧ c ≠ '$' := by
  simp [calm]

theorem Calm.append (ha : Calm a) (hb : Calm b) : Calm (a ++ b) := by
  rw [Calm, String.toList_append, List.all_append, ha, hb]
  rfl

/-- Quotes add nothing that it looks for. -/
theorem Calm.quoted (h : Calm a) : Calm (shellSingleQuote a) := by
  rw [Calm, shellSingleQuote, toList_wrapQuotes, inQuotes, List.cons_append, List.all_cons,
    List.all_append, List.all_flatMap]
  have hbody : a.toList.all (fun c => (if c = '\'' then ['\'', '\\', '\'', '\''] else [c]).all calm) =
      true := by
    refine List.all_eq_true.mpr fun c hc => ?_
    split_ifs
    · decide
    · rw [List.all_cons, List.all_eq_true.mp h c hc]
      rfl
  rw [hbody]
  decide

theorem Safe.calm (h : Safe ns) : Calm ns := by
  refine List.all_eq_true.mpr fun c hc => calm_iff.mpr ?_
  have hsafe := List.all_eq_true.mp h.1 c hc
  constructor
  · cases hmeta : shellMetacharacter c with
    | false => rfl
    | true =>
      simp only [shellMetacharacter, Bool.or_eq_true, beq_iff_eq] at hmeta
      obtain ((((rfl | rfl) | rfl) | hnat) | rfl) | rfl := hmeta
      · exact absurd hsafe (by decide)
      · exact absurd hsafe (by decide)
      · exact absurd hsafe (by decide)
      · obtain rfl : c = Char.ofNat 0x60 := by rw [← hnat, Char.ofNat_toNat]
        exact absurd hsafe (by decide)
      · exact absurd hsafe (by decide)
      · exact absurd hsafe (by decide)
  · rintro rfl
    exact absurd hsafe (by decide)

theorem Calm.accepted (h : Calm command) : rejectShellMetachars context command = none := by
  have hcalm : ∀ c ∈ command.toList, shellMetacharacter c = false ∧ c ≠ '$' := fun c hc =>
    calm_iff.mp (List.all_eq_true.mp h c hc)
  have hpairs : command.toList.Pairwise fun x y => ¬ (x = '$' ∧ y = '(') :=
    List.pairwise_of_forall_mem_list fun x hx y _ hxy => (hcalm x hx).2 hxy.1
  exact rejectShellMetachars_eq_none.mpr
    (refusal_eq_none.mpr ⟨fun c hc => (hcalm c hc).1, hpairs.isChain⟩)

end Guard

end Hbird.Verify
