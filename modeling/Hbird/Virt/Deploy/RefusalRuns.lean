import Hbird.Virt.Deploy.Refusal

namespace Hbird.Virt.Deploy.Refusal

open Hbird.Interaction Hbird.Paths Hbird.Ssh Hbird.Text
open Hbird.Virt.DeployCluster (PrimaryMacs)

/-- The host beside what has been exchanged with it. -/
abbrev surroundings (plan : Plan) : World (Host × Trace Reply) Reply := (Serves plan).recorded

/-- Nothing is asked of a query. -/
abbrev Free (_ : Host × Trace Reply) (_ : Query) : Prop := True

/-- The end of a run: behind the guard, what it has done to the VM is told. -/
def Verdict (plan : Plan) (X : String) (s₀ : Host) (c : Host × Trace Reply) : Prop :=
  EndsAtGuard X c.2 → (Untouched plan X s₀ c.1 ↔ X ≠ plan.cpName ∧ ¬ Replaced plan X c.2)

/-- The VM is still defined, and the run has not just seen that. -/
structure Steady (X : String) (s₀ : Host) (c : Host × Trace Reply) : Prop where
  defined : c.1.defined X
  grows : ∀ x, s₀.revision x ≤ c.1.revision x
  unseen : ¬ EndsAtGuard X c.2

/-- Only a template may have been put over the VM so far. -/
def Even (plan : Plan) (X : String) (s₀ : Host) (c : Host × Trace Reply) : Prop :=
  Untouched plan X s₀ c.1 ↔ ¬ Replaced plan X c.2

section Steps

variable {plan : Plan} {X name : String} {s₀ : Host} {c c' : Host × Trace Reply} {q : Query}
  {r : Reply q} {cmd : Command} {res : Except Error String}

theorem Steady.verdict (h : Steady X s₀ c) : Verdict plan X s₀ c := fun he => absurd he h.unseen

theorem not_endsAtGuard {u : Trace Reply} {q : Query} {r : Reply q} (hq : q ≠ .run (.dominfo X)) :
    ¬ EndsAtGuard X (u ++ [⟨q, r⟩]) := by
  rintro ⟨v, out, info, h, -⟩
  obtain ⟨-, hlast⟩ := List.append_inj' h rfl
  exact hq (congrArg Sigma.fst (List.singleton_injective hlast))

theorem Serves.carried {s s' : Host} (h : Serves plan s (.run cmd) res s') :
    Carried plan s cmd res s' := by
  cases h with
  | command h => exact h
  | aside h => exact absurd rfl (h cmd)

theorem Serves.grows {s s' : Host} (h : Serves plan s q r s') (x : Resource) :
    s.revision x ≤ s'.revision x := by
  cases h with
  | command h => exact h.grows x
  | aside h => exact le_rfl

theorem Serves.stays {s s' : Host} (h : Serves plan s q r s') (hs : s.defined name) :
    s'.defined name := by
  cases h with
  | command h => exact h.stays name hs
  | aside h => exact hs

theorem Serves.untouched {s s' : Host} {x : Resource} (h : Serves plan s q r s')
    (hq : ∀ cmd, q = .run cmd → ¬ Touches plan cmd x) : s'.revision x = s.revision x := by
  cases h with
  | command h => exact h.untouched x (hq _ rfl)
  | aside h => rfl

theorem Steady.step (h : Steady X s₀ c) (hw : surroundings plan c q r c')
    (hq : q ≠ .run (.dominfo X)) : Steady X s₀ c' where
  defined := hw.1.stays h.defined
  grows x := (h.grows x).trans (hw.1.grows x)
  unseen := by
    rw [hw.2]
    exact not_endsAtGuard hq

theorem replaced_push {u : Trace Reply} {q : Query} {r : Reply q}
    (hq : ∀ src, q ≠ .run (.move src (diskPath plan.poolDir X))) :
    Replaced plan X (u ++ [⟨q, r⟩]) ↔ Replaced plan X u := by
  constructor
  · rintro ⟨src, r', h⟩
    obtain h | h := List.mem_append.mp h
    · exact ⟨src, r', h⟩
    · exact absurd (congrArg Sigma.fst (List.mem_singleton.mp h)).symm (hq src)
  · rintro ⟨src, r', h⟩
    exact ⟨src, r', List.mem_append_left _ h⟩

theorem untouched_congr {s s' : Host} (h : ∀ x ∈ artifacts plan X, s'.revision x = s.revision x) :
    Untouched plan X s₀ s' ↔ Untouched plan X s₀ s := by
  constructor
  · exact fun hu x hx => (h x hx).symm.trans (hu x hx)
  · exact fun hu x hx => (h x hx).trans (hu x hx)

theorem Even.step (h : Even plan X s₀ c) (hw : surroundings plan c q r c')
    (hq : ∀ cmd, q = .run cmd → Clear plan X cmd) : Even plan X s₀ c' := by
  have hsame : ∀ x ∈ artifacts plan X, c'.1.revision x = c.1.revision x :=
    fun x hx => hw.1.untouched fun cmd hcmd => (hq cmd hcmd).untouched x hx
  have hmoves : Replaced plan X c'.2 ↔ Replaced plan X c.2 := by
    rw [hw.2]
    exact replaced_push fun src hm => (hq _ hm).unmoved src rfl
  rw [Even, untouched_congr hsame, hmoves]
  exact h

end Steps

section Rules

variable {α : Type} {plan : Plan} {pid : UInt32} {X name text : String} {s₀ : Host}
  {c c₁ : Host × Trace Reply} {cmd : Command} {x : Steps Failure α} {φ : Query → Prop}
  {A : Except Failure α → Prop}

/-- A run that may have written to the VM goes on. -/
theorem steady_quiet (hφ : ∀ q, φ q → q ≠ .run (.dominfo X)) (hx : Asks φ A x.run)
    (h : Steady X s₀ c) : wpse (surroundings plan) Free x
      (Leaves (fun a c' => Steady X s₀ c' ∧ A (.ok a)) (Verdict plan X s₀)) c := by
  refine wpse_mono (wpse_frame hx (fun _ _ _ _ => trivial)
    (fun c₁ q r c₂ hq hw hs => Steady.step hs hw (hφ q hq)) h) fun o c' hc => ?_
  cases o with
  | ok a => exact ⟨hc.2, hc.1⟩
  | error e => exact hc.2.verdict

theorem steady_wrapped (hc : cmd ≠ .dominfo X) (h : Steady X s₀ c) :
    wpse (surroundings plan) Free (wrapped text (run cmd)) (Leaves
      (fun out c' => Steady X s₀ c' ∧ Carried plan c.1 cmd (.ok out) c'.1) (Verdict plan X s₀)) c := by
  refine wpse_context ⟨trivial, fun r c' hw => ?_⟩
  have hs := h.step hw fun hq => hc (Query.run.inj hq)
  cases r with
  | ok out => exact ⟨hs, hw.1.carried⟩
  | error e => exact hs.verdict

/-- A run that has left the VM alone goes on doing so. -/
theorem even_quiet (hφ : ∀ q, φ q → q ≠ .run (.dominfo X))
    (hclear : ∀ cmd, φ (.run cmd) → Clear plan X cmd) (hx : Asks φ A x.run) (h : Steady X s₀ c)
    (he : Even plan X s₀ c) : wpse (surroundings plan) Free x (Leaves
      (fun a c' => (Steady X s₀ c' ∧ Even plan X s₀ c') ∧ A (.ok a)) (Verdict plan X s₀)) c := by
  refine wpse_mono (wpse_frame hx (I := fun c' => Steady X s₀ c' ∧ Even plan X s₀ c')
    (fun _ _ _ _ => trivial) (fun c₁ q r c₂ hq hw hs => ?_) ⟨h, he⟩) fun o c' hc => ?_
  · refine ⟨hs.1.step hw (hφ q hq), hs.2.step hw fun cmd hcmd => ?_⟩
    subst hcmd
    exact hclear cmd hq
  · cases o with
    | ok a => exact ⟨hc.2, hc.1⟩
    | error e => exact hc.2.1.verdict

theorem even_wrapped (hc : cmd ≠ .dominfo X) (hclear : Clear plan X cmd) (h : Steady X s₀ c)
    (he : Even plan X s₀ c) : wpse (surroundings plan) Free (wrapped text (run cmd)) (Leaves
      (fun _ c' => Steady X s₀ c' ∧ Even plan X s₀ c') (Verdict plan X s₀)) c := by
  refine wpse_context ⟨trivial, fun r c' hw => ?_⟩
  have hs := h.step hw fun hq => hc (Query.run.inj hq)
  have he' := he.step hw fun cmd' hcmd => Query.run.inj hcmd ▸ hclear
  cases r with
  | ok out => exact ⟨hs, he'⟩
  | error e => exact hs.verdict

/-- Look for a domain: what is there behind the guard, and what where the name is free. -/
theorem wpse_existenceProbe {onError : Error → Failure} {P : Host × Trace Reply → Prop}
    {E : Host × Trace Reply → Prop} (hsome : ∀ r c', surroundings plan c (.run (.dominfo name)) r c' → P c')
    (hnone : ∀ c', P c' → ¬ EndsAtGuard X c'.2 → E c') :
    wpse (surroundings plan) Free (existenceProbe name onError) (Leaves
      (fun r c' => P c' ∧ (r = none → ¬ EndsAtGuard X c'.2)) E) c := by
  refine wpse_seq (P := fun r c' => P c' ∧ c'.2 = c.2 ++ [⟨.run (.dominfo name), r⟩])
    (wpse_outcome ⟨trivial, fun r c' hw => ⟨hsome r c' hw, hw.2⟩⟩) fun r c' h => ?_
  obtain ⟨hp, hu⟩ := h
  have hopen : (∀ info, (r.bind fun stdout => parseDominfo stdout (dominfoCommand name)) ≠ .ok info) →
      ¬ EndsAtGuard X c'.2 := by
    rintro hr ⟨v, out, info, hv, hparse⟩
    rw [hu] at hv
    obtain ⟨-, hlast⟩ := List.append_inj' hv rfl
    have hy := List.singleton_injective hlast
    obtain ⟨hq, hr'⟩ := Sigma.mk.inj hy
    obtain rfl := Command.dominfo.inj (Query.run.inj hq)
    obtain rfl := eq_of_heq hr'
    exact hr info hparse
  cases hb : r.bind fun stdout => parseDominfo stdout (dominfoCommand name) with
  | ok info => exact ⟨hp, nofun⟩
  | error e =>
    have hno := hopen fun info h => by
      rw [hb] at h
      cases h
    cases e with
    | virshFailed command stderr => exact ⟨hp, fun _ => hno⟩
    | ssh source => exact hnone c' hp hno
    | unparseableOutput command reason => exact hnone c' hp hno

end Rules

section Front

variable {plan : Plan} {pid : UInt32} {X imageRef qcow : String} {s₀ : Host} {c : Host × Trace Reply}
  {expected : Option String}

theorem front_ne_dominfo {q : Query} (h : FrontQuery plan pid q) : q ≠ .run (.dominfo X) := by
  rintro rfl
  obtain h | ⟨qcow, h⟩ := h
  · cases h
  · cases h

theorem aside_ne_dominfo {q : Query} (h : AsideQuery plan pid q) : q ≠ .run (.dominfo X) :=
  front_ne_dominfo (.inl h)

theorem side_ne_dominfo {q : Query} (h : SideQuery q) : q ≠ .run (.dominfo X) := by
  rintro rfl
  cases h

theorem wait_ne_dominfo {q : Query} (h : WaitQuery q) : q ≠ .run (.dominfo X) := by
  rintro rfl
  cases h

theorem even_aside {α : Type} (pid : UInt32) {x : Steps Failure α} (hx : Only (AsideQuery plan pid) x.run)
    (h : Steady X s₀ c) (he : Even plan X s₀ c) : wpse (surroundings plan) Free x (Leaves
      (fun _ c' => Steady X s₀ c' ∧ Even plan X s₀ c') (Verdict plan X s₀)) c :=
  leaves_mono (even_quiet (fun _ => aside_ne_dominfo)
    (fun _ => clear_aside (c.1.plain X h.defined)) hx h he) (fun _ _ hp => hp.1) fun _ hv => hv

/-- The names of the templates. -/
def IsTemplateName (name : String) : Prop :=
  name = "hummingbird-k8s-deploy" ∨ name = "hummingbird-k8s-worker-deploy"

theorem IsTemplateName.plain {name : String} (h : IsTemplateName name) : '/' ∉ name.toList := by
  obtain rfl | rfl := h <;> simp

theorem even_move {template text : String} (ht : IsTemplateName template) (h : Steady X s₀ c)
    (he : Even plan X s₀ c) : wpse (surroundings plan) Free
      (wrapped text (run (.move plan.stagingQcow (diskPath plan.poolDir template)))) (Leaves
        (fun _ c' => Steady X s₀ c' ∧ Even plan X s₀ c') (Verdict plan X s₀)) c := by
  have hX := c.1.plain X h.defined
  by_cases hname : X = template
  · subst hname
    refine wpse_context ⟨trivial, fun r c' hw => ?_⟩
    have hs := h.step hw nofun
    cases r with
    | error e => exact hs.verdict
    | ok out =>
      refine ⟨hs, iff_of_false (fun hu => ?_) fun hno => hno ⟨plan.stagingQcow, .ok out, ?_⟩⟩
      · have hwritten := hw.1.carried.written out rfl _ (List.mem_singleton_self _)
        exact absurd (hu _ (List.mem_cons_self ..))
          (Nat.ne_of_gt ((h.grows _).trans_lt hwritten))
      · rw [hw.2]
        exact List.mem_append_right _ (List.mem_singleton_self _)
  · exact even_wrapped nofun (clear_move hX (base_diskPath_ne hX ht.plain hname) last_diskPath) h he

theorem even_buildOneQcow2 {template : String} (ht : IsTemplateName template)
    (hq : qcow = diskPath plan.poolDir template) (h : Steady X s₀ c) (he : Even plan X s₀ c) :
    wpse (surroundings plan) Free (buildOneQcow2 plan pid imageRef qcow) (Leaves
      (fun _ c' => Steady X s₀ c' ∧ Even plan X s₀ c') (Verdict plan X s₀)) c := by
  subst hq
  refine wpse_seq (even_aside pid only_computeExpectedBuildId h he) fun expected c₁ hc₁ => ?_
  obtain ⟨h₁, he₁⟩ := hc₁
  refine wpse_seq (even_aside pid only_assess h₁ he₁) fun decision c₂ hc₂ => ?_
  obtain ⟨h₂, he₂⟩ := hc₂
  cases decision with
  | reuse => exact ⟨h₂, he₂⟩
  | strictFail => exact h₂.verdict
  | rebuild =>
    refine wpse_seq (even_aside pid only_buildDisk h₂ he₂) fun _ c₃ hc₃ => ?_
    obtain ⟨h₃, he₃⟩ := hc₃
    rw [putInPlace_eq]
    refine wpse_seq (even_move ht h₃ he₃) fun _ c₄ hc₄ => ?_
    obtain ⟨h₄, he₄⟩ := hc₄
    exact even_aside pid only_clearUp h₄ he₄

theorem cpTemplate_eq (poolDir : String) :
    cpTemplate poolDir = diskPath poolDir "hummingbird-k8s-deploy" := by
  rw [cpTemplate, diskPath, String.append_assoc, String.append_assoc]
  simp only [String.reduceAppend]

theorem workerTemplate_eq (poolDir : String) :
    workerTemplate poolDir = diskPath poolDir "hummingbird-k8s-worker-deploy" := by
  rw [workerTemplate, diskPath, String.append_assoc, String.append_assoc]
  simp only [String.reduceAppend]

theorem even_planBuildQcow2 {cpRef workerRef : String} (h : Steady X s₀ c) (he : Even plan X s₀ c) :
    wpse (surroundings plan) Free (planBuildQcow2 plan pid cpRef workerRef) (Leaves
      (fun _ c' => Steady X s₀ c' ∧ Even plan X s₀ c') (Verdict plan X s₀)) c := by
  rw [planBuildQcow2]
  split_ifs
  · exact ⟨h, he⟩
  · refine wpse_seq (even_buildOneQcow2 (.inl rfl) (cpTemplate_eq _) h he) fun _ c₁ hc₁ => ?_
    obtain ⟨h₁, he₁⟩ := hc₁
    exact wpse_seq (even_buildOneQcow2 (.inr rfl) (workerTemplate_eq _) h₁ he₁) fun _ c₂ hc => hc

theorem even_prepare (h : Steady X s₀ c) (he : Even plan X s₀ c) :
    wpse (surroundings plan) Free (prepare plan pid) (Leaves
      (fun _ c' => Steady X s₀ c' ∧ Even plan X s₀ c') (Verdict plan X s₀)) c := by
  unfold prepare
  refine wpse_seq (even_aside pid (only_checked _) h he) fun checks c₁ hc₁ => ?_
  obtain ⟨h₁, he₁⟩ := hc₁
  refine wpse_seq (even_aside pid ?_ h₁ he₁) fun _ c₂ hc₂ => ?_
  · obtain ⟨macs, _ | ⟨n, ns⟩⟩ := checks
    · exact only_pure _
    · dsimp only
      split_ifs
      · exact only_pure _
      · exact only_checkExtraNetworkOnHost .netInfo .netDumpxml
  obtain ⟨h₂, he₂⟩ := hc₂
  refine wpse_seq (even_aside pid ?_ h₂ he₂) fun _ c₃ hc₃ => ?_
  · split_ifs
    · exact only_pure _
    · exact only_wrapped .readPubkey
  obtain ⟨h₃, he₃⟩ := hc₃
  refine wpse_seq (even_aside pid only_planImageAcquisition h₃ he₃) fun refs c₄ hc₄ => ?_
  obtain ⟨h₄, he₄⟩ := hc₄
  exact wpse_seq (even_planBuildQcow2 h₄ he₄) fun _ c₅ hc => hc

end Front

section Vms

variable {plan : Plan} {pid : UInt32} {X w : String} {s₀ : Host} {c : Host × Trace Reply}
  {net2 : Option Net2} {macs : PrimaryMacs} {inputs : WorkerInputs} {i : Nat}

theorem steady_side {α : Type} {A : Except Failure α → Prop} {x : Steps Failure α}
    (hx : Asks SideQuery A x.run) (h : Steady X s₀ c) : wpse (surroundings plan) Free x (Leaves
      (fun _ c' => Steady X s₀ c') (Verdict plan X s₀)) c :=
  leaves_mono (steady_quiet (fun _ => side_ne_dominfo) hx h) (fun _ _ hp => hp.1) fun _ hv => hv

theorem even_side {α : Type} {A : Except Failure α → Prop} {x : Steps Failure α}
    (hx : Asks SideQuery A x.run) (h : Steady X s₀ c) (he : Even plan X s₀ c) :
    wpse (surroundings plan) Free x (Leaves (fun _ c' => Steady X s₀ c' ∧ Even plan X s₀ c')
      (Verdict plan X s₀)) c :=
  leaves_mono (even_quiet (fun _ => side_ne_dominfo)
    (fun _ => clear_side (c.1.plain X h.defined)) hx h he) (fun _ _ hp => hp.1) fun _ hv => hv

/-- There is no VM of such a name to be made beside the one that is defined. -/
def Taken (X w : String) : Prop := w = X ∨ '/' ∈ w.toList

/-- `virt-install` refuses. -/
theorem never_installs {spec : VmSpec} {text : String} (ht : Taken X spec.name) (h : Steady X s₀ c) :
    wpse (surroundings plan) Free (wrapped text (run (.install spec)))
      (Leaves (fun _ _ => False) (Verdict plan X s₀)) c := by
  refine leaves_mono (steady_wrapped nofun h) (fun out c' hc => ?_) fun _ hv => hv
  obtain ⟨hfree, hdefined⟩ := hc.2.fresh spec out rfl rfl
  obtain rfl | hslash := ht
  · exact hfree h.defined
  · exact c'.1.plain _ hdefined hslash

theorem never_createsWorker (ht : Taken X w) (h : Steady X s₀ c) :
    wpse (surroundings plan) Free (createWorker plan pid inputs i w)
      (Leaves (fun _ _ => False) (Verdict plan X s₀)) c := by
  unfold createWorker
  refine wpse_seq (steady_wrapped nofun h) fun _ c₁ hc₁ => ?_
  obtain ⟨h₁, _⟩ := hc₁
  refine wpse_seq (steady_side asks_writeNet2ConfigTmp h₁) fun ncTmp c₂ h₂ => ?_
  refine wpse_seq (steady_wrapped nofun h₂) fun _ c₃ hc₃ => ?_
  obtain ⟨h₃, _⟩ := hc₃
  refine wpse_seq (steady_wrapped nofun h₃) fun _ c₄ hc₄ => ?_
  obtain ⟨h₄, _⟩ := hc₄
  refine wpse_seq (steady_side only_reserve h₄) fun _ c₅ h₅ => ?_
  exact wpse_seq (never_installs ht h₅) fun _ _ hno => hno.elim

theorem never_installsCp {template cpSeed : String} (ht : Taken X plan.cpName) (h : Steady X s₀ c) :
    wpse (surroundings plan) Free (installCp plan template cpSeed macs net2)
      (Leaves (fun _ _ => False) (Verdict plan X s₀)) c := by
  unfold installCp
  refine wpse_seq (steady_wrapped nofun h) fun _ c₁ hc₁ => ?_
  obtain ⟨h₁, _⟩ := hc₁
  refine wpse_seq (steady_side only_reserve h₁) fun _ c₂ h₂ => ?_
  exact wpse_seq (never_installs ht h₂) fun _ _ hno => hno.elim

theorem even_createWorker (hw : '/' ∉ w.toList) (hne : X ≠ w) (h : Steady X s₀ c)
    (he : Even plan X s₀ c) : wpse (surroundings plan) Free (createWorker plan pid inputs i w)
      (Leaves (fun _ c' => Steady X s₀ c' ∧ Even plan X s₀ c') (Verdict plan X s₀)) c := by
  have hX := c.1.plain X h.defined
  unfold createWorker
  refine wpse_seq (even_wrapped nofun (clear_side hX (.writeFile (isTmp_workerUserData _) _)) h he)
    fun _ c₁ hc₁ => ?_
  obtain ⟨h₁, he₁⟩ := hc₁
  refine wpse_seq (even_side asks_writeNet2ConfigTmp h₁ he₁) fun ncTmp c₂ hc₂ => ?_
  obtain ⟨h₂, he₂⟩ := hc₂
  refine wpse_seq (even_wrapped nofun (clear_seed hX hw hne) h₂ he₂) fun _ c₃ hc₃ => ?_
  obtain ⟨h₃, he₃⟩ := hc₃
  refine wpse_seq (even_wrapped nofun (clear_clone hX hw hne) h₃ he₃) fun _ c₄ hc₄ => ?_
  obtain ⟨h₄, he₄⟩ := hc₄
  refine wpse_seq (even_side only_reserve h₄ he₄) fun _ c₅ hc₅ => ?_
  obtain ⟨h₅, he₅⟩ := hc₅
  exact wpse_seq (even_wrapped nofun (clear_install hX hw hne rfl) h₅ he₅) fun _ _ hc => hc

theorem even_planCpSeed {pubkeyContents : String} (hw : '/' ∉ plan.cpName.toList)
    (hne : X ≠ plan.cpName) (h : Steady X s₀ c) (he : Even plan X s₀ c) :
    wpse (surroundings plan) Free (planCpSeed plan pid pubkeyContents net2)
      (Leaves (fun _ c' => Steady X s₀ c' ∧ Even plan X s₀ c') (Verdict plan X s₀)) c := by
  have hX := c.1.plain X h.defined
  unfold planCpSeed
  by_cases hdry : plan.dryRun = true
  · rw [if_pos hdry]
    exact ⟨h, he⟩
  · rw [if_neg hdry]
    refine wpse_seq (even_wrapped nofun (clear_side hX (.writeFile (isTmp_cpUserDataTmp pid) _)) h he)
      fun _ c₁ hc₁ => ?_
    obtain ⟨h₁, he₁⟩ := hc₁
    refine wpse_seq (even_side asks_writeNet2ConfigTmp h₁ he₁) fun ncTmp c₂ hc₂ => ?_
    obtain ⟨h₂, he₂⟩ := hc₂
    exact wpse_seq (even_wrapped nofun (clear_seed hX hw hne) h₂ he₂) fun _ c₃ hc => hc

theorem even_installCp {template cpSeed : String} (hw : '/' ∉ plan.cpName.toList)
    (hne : X ≠ plan.cpName) (h : Steady X s₀ c) (he : Even plan X s₀ c) :
    wpse (surroundings plan) Free (installCp plan template cpSeed macs net2)
      (Leaves (fun _ c' => Steady X s₀ c' ∧ Even plan X s₀ c') (Verdict plan X s₀)) c := by
  have hX := c.1.plain X h.defined
  unfold installCp
  refine wpse_seq (even_wrapped nofun (clear_clone hX hw hne) h he) fun _ c₁ hc₁ => ?_
  obtain ⟨h₁, he₁⟩ := hc₁
  refine wpse_seq (even_side only_reserve h₁ he₁) fun _ c₂ hc₂ => ?_
  obtain ⟨h₂, he₂⟩ := hc₂
  exact wpse_seq (even_wrapped nofun (clear_install hX hw hne rfl) h₂ he₂) fun _ _ hc => hc

/-- The seed is built ahead of the guard. -/
theorem steady_planCpSeed {pubkeyContents : String} (hlive : plan.dryRun = false) (h : Steady X s₀ c) :
    wpse (surroundings plan) Free (planCpSeed plan pid pubkeyContents net2) (Leaves
      (fun _ c' => Steady X s₀ c' ∧ s₀.revision (.file (seedPath plan.poolDir plan.cpName)) <
        c'.1.revision (.file (seedPath plan.poolDir plan.cpName))) (Verdict plan X s₀)) c := by
  unfold planCpSeed
  rw [hlive]
  refine wpse_seq (steady_wrapped nofun h) fun _ c₁ hc₁ => ?_
  obtain ⟨h₁, _⟩ := hc₁
  refine wpse_seq (steady_side asks_writeNet2ConfigTmp h₁) fun ncTmp c₂ h₂ => ?_
  refine wpse_seq (steady_wrapped nofun h₂) fun out c₃ hc₃ => ?_
  obtain ⟨h₃, hc⟩ := hc₃
  refine ⟨h₃, ?_⟩
  exact (h₂.grows _).trans_lt (hc.written out rfl _ (List.mem_singleton_self _))

end Vms

section Guards

variable {plan : Plan} {pid : UInt32} {X w : String} {s₀ : Host} {c : Host × Trace Reply}
  {net2 : Option Net2} {macs : PrimaryMacs} {inputs : WorkerInputs} {i : Nat} {ws : List String}

theorem Even.verdict (hne : X ≠ plan.cpName) (he : Even plan X s₀ c) : Verdict plan X s₀ c :=
  fun _ => he.trans (and_iff_right hne).symm

/-- What the guard finds out changes nothing. -/
theorem even_probe {name : String} {r : Except Error String} {c' : Host × Trace Reply}
    (h : Steady X s₀ c) (he : Even plan X s₀ c)
    (hw : surroundings plan c (.run (.dominfo name)) r c') : Even plan X s₀ c' :=
  he.step hw fun _ hcmd => Query.run.inj hcmd ▸ clear_dominfo (c.1.plain X h.defined)

theorem steady_probe {name : String} {r : Except Error String} {c' : Host × Trace Reply}
    (h : Steady X s₀ c) (hw : surroundings plan c (.run (.dominfo name)) r c')
    (hopen : ¬ EndsAtGuard X c'.2) : Steady X s₀ c' :=
  ⟨hw.1.stays h.defined, fun x => (h.grows x).trans (hw.1.grows x), hopen⟩

theorem even_deployWorker (hcp : X ≠ plan.cpName) (h : Steady X s₀ c) (he : Even plan X s₀ c) :
    wpse (surroundings plan) Free (deployWorker plan pid inputs i w)
      (Leaves (fun _ c' => Steady X s₀ c' ∧ Even plan X s₀ c') (Verdict plan X s₀)) c := by
  unfold deployWorker
  refine wpse_seq (wpse_existenceProbe
    (P := fun c' => (¬ EndsAtGuard X c'.2 → Steady X s₀ c') ∧ Even plan X s₀ c')
    (fun r c' hw => ⟨steady_probe h hw, even_probe h he hw⟩) fun c' _ hopen hends =>
      absurd hends hopen) fun r c₁ hc₁ => ?_
  obtain ⟨⟨hs, he₁⟩, hopen⟩ := hc₁
  cases r with
  | some info => exact he₁.verdict hcp
  | none =>
    have h₁ := hs (hopen rfl)
    by_cases ht : Taken X w
    · exact leaves_mono (never_createsWorker ht h₁) (fun _ _ hno => hno.elim) fun _ hv => hv
    · exact even_createWorker (fun hslash => ht (.inr hslash)) (fun hw => ht (.inl hw.symm)) h₁ he₁

theorem even_deployWorkers (hcp : X ≠ plan.cpName) (h : Steady X s₀ c) (he : Even plan X s₀ c) :
    wpse (surroundings plan) Free (deployWorkers plan pid inputs i ws)
      (Leaves (fun _ c' => Steady X s₀ c' ∧ Even plan X s₀ c') (Verdict plan X s₀)) c := by
  induction ws generalizing i c with
  | nil => exact ⟨h, he⟩
  | cons w ws ih =>
    exact wpse_seq (even_deployWorker hcp h he) fun _ c₁ hc₁ => ih hc₁.1 hc₁.2

/-- The refusal of the control plane's own name comes behind its seed. -/
theorem verdict_deployCp {p : Prepared} (hlive : plan.dryRun = false) (hcp : X = plan.cpName)
    (h : Steady X s₀ c) : wpse (surroundings plan) Free (deployCp plan pid p)
      (Leaves (fun _ _ => False) (Verdict plan X s₀)) c := by
  unfold deployCp
  refine wpse_seq (steady_planCpSeed hlive h) fun cpSeed c₁ hc₁ => ?_
  obtain ⟨h₁, hseed⟩ := hc₁
  refine wpse_seq (P := fun _ _ => False) ?_ fun _ _ hno => hno.elim
  unfold planCpVirtInstall
  rw [hlive]
  refine wpse_seq (wpse_existenceProbe (P := fun c' => (¬ EndsAtGuard X c'.2 → Steady X s₀ c') ∧
    s₀.revision (.file (seedPath plan.poolDir plan.cpName)) <
      c'.1.revision (.file (seedPath plan.poolDir plan.cpName)))
    (fun r c' hw => ⟨steady_probe h₁ hw, hseed.trans_le (hw.1.grows _)⟩) fun c' _ hopen hends =>
      absurd hends hopen) fun r c₂ hc₂ => ?_
  obtain ⟨⟨hs, hseed₂⟩, hopen⟩ := hc₂
  cases r with
  | some info =>
    refine fun _ => iff_of_false (fun hu => ?_) fun hno => hno.1 hcp
    have hseed' := hu (.file (seedPath plan.poolDir X)) (by simp [artifacts])
    rw [hcp] at hseed'
    exact absurd hseed' (Nat.ne_of_gt hseed₂)
  | none => exact never_installsCp (.inl hcp.symm) (hs (hopen rfl))

theorem even_deployCp {p : Prepared} (hlive : plan.dryRun = false) (hcp : X ≠ plan.cpName)
    (h : Steady X s₀ c) (he : Even plan X s₀ c) :
    wpse (surroundings plan) Free (deployCp plan pid p)
      (Leaves (fun _ c' => Steady X s₀ c' ∧ Even plan X s₀ c') (Verdict plan X s₀)) c := by
  have hprobe : Query.run (.dominfo plan.cpName) ≠ .run (.dominfo X) :=
    fun hq => hcp (Command.dominfo.inj (Query.run.inj hq)).symm
  unfold deployCp planCpVirtInstall
  rw [hlive]
  by_cases hslash : '/' ∈ plan.cpName.toList
  · refine wpse_seq (steady_planCpSeed hlive h) fun cpSeed c₁ hc₁ => ?_
    obtain ⟨h₁, _⟩ := hc₁
    refine wpse_seq (P := fun _ _ => False) ?_ fun _ _ hno => hno.elim
    refine wpse_seq (wpse_existenceProbe (X := X) (P := Steady X s₀) (fun r c' hw => h₁.step hw hprobe)
      fun c' hs _ => hs.verdict) fun r c₂ hc₂ => ?_
    obtain ⟨h₂, _⟩ := hc₂
    cases r with
    | some info => exact h₂.verdict
    | none => exact never_installsCp (.inr hslash) h₂
  · refine wpse_seq (even_planCpSeed hslash hcp h he) fun cpSeed c₁ hc₁ => ?_
    obtain ⟨h₁, he₁⟩ := hc₁
    refine wpse_seq (P := fun _ c' => Steady X s₀ c' ∧ Even plan X s₀ c') ?_ fun _ _ hc => hc
    refine wpse_seq (wpse_existenceProbe (X := X) (P := fun c' => Steady X s₀ c' ∧ Even plan X s₀ c')
      (fun r c' hw => ⟨h₁.step hw hprobe, even_probe h₁ he₁ hw⟩) fun c' hs _ => hs.1.verdict)
      fun r c₂ hc₂ => ?_
    obtain ⟨⟨h₂, he₂⟩, _⟩ := hc₂
    cases r with
    | some info => exact h₂.verdict
    | none => exact even_installCp hslash hcp h₂ he₂

theorem even_wait {α : Type} {x : Steps Failure α} (hx : Only WaitQuery x.run) (h : Steady X s₀ c)
    (he : Even plan X s₀ c) : wpse (surroundings plan) Free x (Leaves
      (fun _ c' => Steady X s₀ c' ∧ Even plan X s₀ c') (Verdict plan X s₀)) c :=
  leaves_mono (even_quiet (fun _ => wait_ne_dominfo)
    (fun _ => clear_wait (c.1.plain X h.defined)) hx h he) (fun _ _ hp => hp.1) fun _ hv => hv

theorem even_joinWorkers {p : Prepared} (hcp : X ≠ plan.cpName) (h : Steady X s₀ c)
    (he : Even plan X s₀ c) : wpse (surroundings plan) Free (joinWorkers plan pid p)
      (Leaves (fun _ _ => True) (Verdict plan X s₀)) c := by
  unfold joinWorkers planWorkerSpawn
  refine wpse_seq (even_wait only_planCpReady h he) fun cpIp c₁ hc₁ => ?_
  obtain ⟨h₁, he₁⟩ := hc₁
  refine wpse_seq (even_wait only_planJoinToken h₁ he₁) fun joinCmd c₂ hc₂ => ?_
  obtain ⟨h₂, he₂⟩ := hc₂
  refine wpse_seq (P := fun _ c' => Steady X s₀ c' ∧ Even plan X s₀ c') ?_ fun _ c₃ hc₃ => ?_
  · split_ifs
    · exact ⟨h₂, he₂⟩
    · exact even_deployWorkers hcp h₂ he₂
  · obtain ⟨h₃, he₃⟩ := hc₃
    refine wpse_seq (even_wait only_planClusterReady h₃ he₃) fun _ c₄ hc₄ => ?_
    obtain ⟨h₄, he₄⟩ := hc₄
    exact leaves_mono (even_wait only_planVerify h₄ he₄) (fun _ _ _ => trivial) fun _ hv => hv

theorem verdict_deploy (hlive : plan.dryRun = false) (hdef : s₀.defined X) :
    wpse (surroundings plan) Free (deploy plan pid) (Leaves (fun _ _ => True) (Verdict plan X s₀))
      (s₀, []) := by
  have hsteady : Steady X s₀ (s₀, []) := by
    refine ⟨hdef, fun _ => le_rfl, ?_⟩
    rintro ⟨v, out, info, h, -⟩
    exact absurd h.symm (by simp)
  unfold deploy
  by_cases hcp : X = plan.cpName
  · refine wpse_seq (steady_quiet (fun _ => front_ne_dominfo) only_prepare hsteady)
      fun p c₁ hc₁ => ?_
    obtain ⟨h₁, _⟩ := hc₁
    exact wpse_seq (verdict_deployCp hlive hcp h₁) fun _ _ hno => hno.elim
  · have heven : Even plan X s₀ (s₀, []) := by
      refine iff_of_true (fun _ _ => rfl) ?_
      rintro ⟨src, r, h⟩
      cases h
    refine wpse_seq (even_prepare hsteady heven) fun p c₁ hc₁ => ?_
    obtain ⟨h₁, he₁⟩ := hc₁
    refine wpse_seq (even_deployCp hlive hcp h₁ he₁) fun _ c₂ hc₂ => ?_
    obtain ⟨h₂, he₂⟩ := hc₂
    exact even_joinWorkers hcp h₂ he₂

end Guards

section Possible

variable {plan : Plan} {s : Host} {c : Command} {r : Except Error String} {t : Trace Reply}

open Classical in
/-- The host behind a command that does just what it has to. -/
noncomputable def behind (s : Host) (c : Command) (r : Except Error String)
    (hplain : ∀ spec out, c = .install spec → r = .ok out → '/' ∉ spec.name.toList) : Host where
  revision x := if x ∈ writes c then s.revision x + 1 else s.revision x
  defined name := s.defined name ∨ ∃ spec out, c = .install spec ∧ r = .ok out ∧ spec.name = name
  plain name h := by
    obtain h | ⟨spec, out, hc, hr, rfl⟩ := h
    · exact s.plain name h
    · exact hplain spec out hc hr

theorem touches_of_writes {x : Resource} (h : x ∈ writes c) : Touches plan c x := by
  cases c <;> simp only [writes, List.mem_singleton, List.not_mem_nil] at h <;> subst h
  case install spec => exact .domain rfl
  all_goals exact .file (List.mem_singleton_self _) rfl

theorem carried_behind
    (hplain : ∀ spec out, c = .install spec → r = .ok out → '/' ∉ spec.name.toList)
    (hfree : ∀ spec out, c = .install spec → r = .ok out → ¬ s.defined spec.name) :
    Carried plan s c r (behind s c r hplain) where
  untouched x hx := if_neg fun h => hx (touches_of_writes h)
  grows x := by
    unfold behind
    dsimp only
    split_ifs
    · exact Nat.le_succ _
    · exact le_rfl
  written out hr x hx := by
    unfold behind
    dsimp only
    rw [if_pos hx]
    exact Nat.lt_succ_self _
  stays name := .inl
  fresh spec out hc hr := ⟨hfree spec out hc hr, .inr ⟨spec, out, hc, hr, rfl⟩⟩

theorem made_cons (y : Exchange Reply) (t : Trace Reply) :
    made (y :: t) = (madeBy y).toList ++ made t := by
  rw [made, List.filterMap_cons]
  cases madeBy y <;> rfl

/-- A trace can come about wherever the names of the VMs that it makes are free. -/
theorem exists_leads (hplain : ∀ name ∈ made t, '/' ∉ name.toList)
    (hfree : ∀ name ∈ made t, ¬ s.defined name) (hnodup : (made t).Nodup) :
    ∃ s', Leads (Serves plan) s t s' := by
  induction t generalizing s with
  | nil => exact ⟨s, .nil s⟩
  | cons y t ih =>
    obtain ⟨q, r⟩ := y
    rw [made_cons] at hplain hfree hnodup
    have hrest := (List.nodup_append.mp hnodup).2.1
    by_cases hq : ∃ c, q = .run c
    · obtain ⟨c, rfl⟩ := hq
      have hmade : ∀ spec out, c = .install spec → r = .ok out →
          spec.name ∈ (madeBy ⟨.run c, r⟩).toList := by
        rintro spec out rfl rfl
        exact List.mem_singleton_self _
      have hp : ∀ spec out, c = .install spec → r = .ok out → '/' ∉ spec.name.toList :=
        fun spec out hc hr => hplain _ (List.mem_append_left _ (hmade spec out hc hr))
      have hc : Carried plan s c r (behind s c r hp) := carried_behind hp fun spec out hc hr =>
        hfree _ (List.mem_append_left _ (hmade spec out hc hr))
      obtain ⟨s', hs'⟩ : ∃ s', Leads (Serves plan) (behind s c r hp) t s' := by
        refine ih (fun name hn => hplain name (List.mem_append_right _ hn)) ?_ hrest
        rintro name hn (hd | ⟨spec, out, hc, hr, rfl⟩)
        · exact hfree name (List.mem_append_right _ hn) hd
        · exact (List.nodup_append.mp hnodup).2.2 _ (hmade spec out hc hr) _ hn rfl
      exact ⟨s', .cons (.command hc) hs'⟩
    · have hne : ∀ c, q ≠ .run c := fun c hc => hq ⟨c, hc⟩
      obtain ⟨s', hs'⟩ := ih (fun name hn => hplain name (List.mem_append_right _ hn))
        (fun name hn => hfree name (List.mem_append_right _ hn)) hrest
      exact ⟨s', .cons (.aside hne) hs'⟩

end Possible

/-- A VM that was defined ahead of a run that refuses it is as it was, unless it is the control
plane, whose seed is built anew ahead of the guard, or a template went over its disk. -/
theorem refused_untouched_iff {plan : Plan} {pid : UInt32} {X : String} {t : Trace Reply} {e : Failure}
    {s s' : Host} (hlive : plan.dryRun = false) (hrun : Finishes (deploy plan pid) t (.error e))
    (hends : EndsAtGuard X t) (hworld : Leads (Serves plan) s t s') (hdef : s.defined X) :
    Untouched plan X s s' ↔ X ≠ plan.cpName ∧ ¬ Replaced plan X t := by
  have h : Verdict plan X s (s', t) :=
    wps_run (P := Leaves (fun _ _ => True) (Verdict plan X s)) (verdict_deploy hlive hdef) hrun
      (leads_recorded.mpr ⟨hworld, rfl⟩)
  exact h hends

def sampleHost : Host where
  revision _ := 0
  defined name := name = "w1"
  plain name h := by
    rw [h]
    decide

theorem refused_untouched_iff_sample : ∃ s', Leads (Serves smallPlan) sampleHost (smallRun ["w1"]).1 s' ∧
    (Untouched smallPlan "w1" sampleHost s' ↔
      "w1" ≠ smallPlan.cpName ∧ ¬ Replaced smallPlan "w1" (smallRun ["w1"]).1) := by
  have hrun : Finishes (deploy smallPlan 7) (smallRun ["w1"]).1 (.error (workerRefusal "w1")) :=
    finishes_of_play (fun _ => smallReply ["w1"]) (Prod.ext rfl (by decide +kernel))
  have hmade : made (smallRun ["w1"]).1 = ["cp"] := by decide +kernel
  have hends : EndsAtGuard "w1" (smallRun ["w1"]).1 :=
    ⟨(smallRun ["w1"]).1.dropLast, "Name: w1\nState: running\nPersistent: yes\nOS Type: hvm\n",
      ⟨"w1", "running", true, "hvm"⟩, by decide +kernel, by decide +kernel⟩
  obtain ⟨s', hs'⟩ : ∃ s', Leads (Serves smallPlan) sampleHost (smallRun ["w1"]).1 s' := by
    refine exists_leads ?_ ?_ ?_ <;> rw [hmade]
    · decide
    · intro name hn hd
      obtain rfl := List.mem_singleton.mp hn
      exact absurd (show "cp" = "w1" from hd) (by decide)
    · exact List.nodup_singleton _
  exact ⟨s', hs', refused_untouched_iff rfl hrun hends hs' rfl⟩

end Hbird.Virt.Deploy.Refusal
