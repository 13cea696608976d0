import Hbird.Virt.Deploy.Order

namespace Hbird.Virt.Deploy

open Hbird.Interaction Hbird.Ssh Hbird.Text
open Hbird.Virt.DeployCluster (PrimaryMacs)

/-- What the KVM host is asked ahead of any change. -/
inductive Looks : Query → Prop
  | netInfo (net : String) : Looks (.run (.netInfo net))
  | netDumpxml (net : String) : Looks (.run (.netDumpxml net))
  | readPubkey : Looks (.run .readPubkey)

/-- The checks that need no host. -/
def Refuses (plan : Plan) (text : String) : Prop :=
  validate plan = .error text ∨ (∃ checks, validate plan = .ok checks) ∧ imageRefs plan = .error text

namespace Plan

/-- The same plan, as it is run with `--dry-run`. -/
def rehearsed (plan : Plan) : Plan := { plan with dryRun := true }

def live (plan : Plan) : Plan := { plan with dryRun := false }

end Plan

section Fails

variable {plan : Plan} {pid : UInt32} {α β : Type} {φ : Query → Prop}

def Fails : Except Failure α → Prop
  | .ok _ => False
  | .error _ => True

theorem fails_seq {x : Steps Failure α} {f : α → Steps Failure β} (hx : Only φ x.run)
    (hf : ∀ a, Asks φ Fails (f a).run) : Asks φ Fails (x >>= f).run :=
  asks_exec_step (P := fun _ => True) (asks_mono hx (fun _ hq => hq) fun _ _ _ _ => trivial)
    (fun a _ => hf a) fun _ => trivial

theorem fails_bind {x : Steps Failure α} {f : α → Steps Failure β} (hx : Asks φ Fails x.run) :
    Asks φ Fails (x >>= f).run := by
  refine asks_exec_bind (asks_mono hx (fun _ hq => hq) fun r hr => ?_)
  cases r with
  | ok a => exact hr.elim
  | error e => exact hr

theorem fails_deploy {text : String} (h : Refuses plan text) :
    Asks Looks Fails (deploy plan pid).run := by
  unfold deploy prepare
  refine fails_bind ?_
  obtain h | ⟨⟨checks, hc⟩, hi⟩ := h
  · rw [h]
    exact fails_bind trivial
  · rw [hc]
    refine fails_seq trivial fun checks => fails_seq ?_ fun _ => fails_seq ?_ fun pubkeyContents => ?_
    · obtain ⟨macs, _ | ⟨n, ns⟩⟩ := checks
      · exact only_pure _
      · dsimp only
        split_ifs
        · exact only_pure _
        · exact only_checkExtraNetworkOnHost .netInfo .netDumpxml
    · split_ifs
      · exact only_pure _
      · exact only_wrapped .readPubkey
    · unfold planImageAcquisition
      rw [hi]
      exact fails_bind (fails_bind trivial)

end Fails

section Rehearsal

variable {plan : Plan} {pid : UInt32} {t : Trace Reply} {o : Except Failure Unit}

theorem deployCp_dry (hdry : plan.dryRun = true) (p : Prepared) :
    deployCp plan pid p = pure () := by
  unfold deployCp planCpSeed planCpVirtInstall
  simp only [hdry, if_true]
  rfl

theorem joinWorkers_dry (hdry : plan.dryRun = true) (p : Prepared) :
    joinWorkers plan pid p = pure () := by
  unfold joinWorkers planCpReady planJoinToken planWorkerSpawn planClusterReady planVerify
  simp only [hdry, if_true, Bool.or_true]
  rfl

/-- A rehearsal asks nothing, and fails only as the checks have it. -/
theorem asks_rehearsal (hdry : plan.dryRun = true) : Asks (fun _ => False)
    (fun o => o = .ok () ∧ (∀ text, ¬ Refuses plan text) ∨
      ∃ text, o = .error (.msg text) ∧ Refuses plan text) (deploy plan pid).run := by
  unfold deploy prepare planImageAcquisition planBuildQcow2
  simp only [hdry, if_true, deployCp_dry hdry, joinWorkers_dry hdry]
  cases hv : validate plan with
  | error text => exact .inr ⟨text, rfl, .inl hv⟩
  | ok checks =>
    cases hi : imageRefs plan with
    | error text =>
      obtain ⟨macs, _ | ⟨n, ns⟩⟩ := checks <;> exact .inr ⟨text, rfl, .inr ⟨⟨_, hv⟩, hi⟩⟩
    | ok refs =>
      have hno : ∀ text, ¬ Refuses plan text := by
        rintro text (h | ⟨-, h⟩)
        · rw [hv] at h
          cases h
        · rw [hi] at h
          cases h
      obtain ⟨macs, _ | ⟨n, ns⟩⟩ := checks <;> exact .inl ⟨rfl, hno⟩

/-- What a rehearsal of a plan refuses, the run itself refuses too, and that before it has
changed anything; and the rehearsal has asked nothing. -/
theorem rehearsal_foretells (h : Finishes (deploy plan.rehearsed pid) t o) :
    t = [] ∧ ((∃ e, o = .error e) → ∀ t' o', Finishes (deploy plan.live pid) t' o' →
      (∃ e, o' = .error e) ∧ ∀ y ∈ t', Looks y.1) := by
  obtain ⟨hnone, hends⟩ := asks_run (asks_rehearsal rfl) h
  refine ⟨List.eq_nil_iff_forall_not_mem.mpr hnone, ?_⟩
  rintro ⟨e, rfl⟩ t' o' h'
  obtain ⟨he, -⟩ | ⟨text, -, hrefuses⟩ := hends
  · cases he
  · have hlive : Asks Looks Fails (deploy plan.live pid).run := fails_deploy hrefuses
    obtain ⟨hlooks, hfails⟩ := asks_run hlive h'
    refine ⟨?_, hlooks⟩
    cases o' with
    | ok a => exact hfails.elim
    | error e' => exact ⟨e', rfl⟩

def misnamed : Plan := { smallPlan with imageSource := "quay" }

def misnamedRun : Trace Reply × Except Failure Unit :=
  play (fun _ => smallReply []) 0 (deploy misnamed.live 7).run

theorem rehearsal_foretells_sample :
    (∃ e, misnamedRun.2 = .error e) ∧ ∀ y ∈ misnamedRun.1, Looks y.1 := by
  have hrun : Finishes (deploy misnamed.rehearsed 7) []
      (.error (.msg "IMAGE_SOURCE must be 'ghcr', 'forgejo', or 'local' (got 'quay')")) :=
    finishes_of_play (fun _ => smallReply []) (by decide +kernel)
  exact (rehearsal_foretells hrun).2 ⟨_, rfl⟩ misnamedRun.1 misnamedRun.2
    (runs_play (fun _ => smallReply []) 0 _)

end Rehearsal

end Hbird.Virt.Deploy
