import Hbird.Virt.SwitchToGhcr.Run

namespace Hbird.Virt.SwitchToGhcr

open Hbird.Interaction Hbird.Ssh

variable {conn : Connection} {plan : Plan} {t : Trace Reply}

/-- The VMs whose flavor is known, each with the ref that it is to track. -/
def targets (plan : Plan) (vms : List String) : List (String × String) :=
  vms.filterMap fun vm => (flavorForVm vm).map fun flavor => (vm, plan.refFor flavor)

/-- One VM of the walk: what was exchanged over it, and what that came to. -/
structure Visit where
  vm : String
  ghcrRef : String
  trace : Trace Reply
  result : Except Failure SwitchOutcome

def Visit.target (v : Visit) : String × String := (v.vm, v.ghcrRef)

def Visit.Ran (conn : Connection) (plan : Plan) (v : Visit) : Prop :=
  Finishes (switchVm conn plan v.vm v.ghcrRef) v.trace v.result

def Visit.failed (v : Visit) : Bool := v.result.toBool = false

theorem finishes_runningDomains {t : Trace Reply} {r : Except Virt.Error (List String)} :
    Finishes (runningDomains conn) t r ↔
      ∃ e, t = [conn.exchange listCommand e] ∧
        r = (conn.result listCommand e).map parseDomainList := by
  rw [runningDomains, finishes_bind]
  constructor
  · rintro (⟨err, rfl, h⟩ | ⟨out, t₁, t₂, rfl, h, hrest⟩)
    · obtain ⟨e, rfl, he⟩ := Connection.finishes_run.mp h
      exact ⟨e, rfl, by rw [← he]; rfl⟩
    · obtain ⟨e, rfl, he⟩ := Connection.finishes_run.mp h
      obtain ⟨rfl, rfl⟩ := finishes_pure.mp hrest
      exact ⟨e, rfl, by rw [← he]; rfl⟩
  · rintro ⟨e, rfl, rfl⟩
    cases hresult : conn.result listCommand e with
    | error err => exact .inl ⟨err, rfl, Connection.finishes_run.mpr ⟨e, rfl, hresult.symm⟩⟩
    | ok out =>
      exact .inr ⟨out, _, [], rfl, Connection.finishes_run.mpr ⟨e, rfl, hresult.symm⟩,
        finishes_pure.mpr ⟨rfl, rfl⟩⟩

/-- The walk visits the targets one after the other, whatever becomes of them. -/
theorem finishes_switchAll {vms : List String} {failed : Nat} {r : Except Failure Nat} :
    Finishes (switchAll conn plan vms failed) t r ↔
      ∃ visits : List Visit, visits.map Visit.target = targets plan vms ∧
        (∀ v ∈ visits, v.Ran conn plan) ∧ t = visits.flatMap Visit.trace ∧
        r = .ok (failed + visits.countP Visit.failed) := by
  induction vms generalizing failed t r with
  | nil =>
    rw [switchAll, finishes_pure]
    constructor
    · rintro ⟨rfl, rfl⟩
      exact ⟨[], rfl, fun v hv => absurd hv List.not_mem_nil, rfl, rfl⟩
    · rintro ⟨visits, hvisits, -, rfl, rfl⟩
      obtain rfl := List.map_eq_nil_iff.mp hvisits
      exact ⟨rfl, rfl⟩
  | cons vm vms ih =>
    rw [switchAll]
    cases hflavor : flavorForVm vm with
    | none =>
      have htargets : targets plan (vm :: vms) = targets plan vms :=
        List.filterMap_cons_none (by rw [hflavor]; rfl)
      rw [htargets]
      exact ih
    | some flavor =>
      have htargets : targets plan (vm :: vms) = (vm, plan.refFor flavor) :: targets plan vms :=
        List.filterMap_cons_some (by rw [hflavor]; rfl)
      dsimp only
      rw [htargets, finishes_outcome_bind]
      constructor
      · rintro ⟨x, t₁, t₂, rfl, hvisit, hrest⟩
        have hwalk : Finishes (switchAll conn plan vms
            (failed + if (Visit.mk vm (plan.refFor flavor) t₁ x).failed then 1 else 0)) t₂ r := by
          cases x <;> exact hrest
        obtain ⟨visits, htail, hran, rfl, rfl⟩ := ih.mp hwalk
        refine ⟨⟨vm, plan.refFor flavor, t₁, x⟩ :: visits, by rw [List.map_cons, htail]; rfl,
          List.forall_mem_cons.mpr ⟨hvisit, hran⟩, rfl, ?_⟩
        rw [List.countP_cons]
        congr 1
        omega
      · rintro ⟨visits, hvisits, hran, rfl, rfl⟩
        obtain ⟨v, visits, rfl, hv, htail⟩ := List.map_eq_cons_iff.mp hvisits
        obtain ⟨hvisit, hrest⟩ := List.forall_mem_cons.mp hran
        obtain ⟨name, ref, t₁, x⟩ := v
        obtain ⟨rfl, rfl⟩ := Prod.mk.inj hv
        have hwalk : ∀ n, Finishes (switchAll conn plan vms n) (visits.flatMap Visit.trace)
            (.ok (n + visits.countP Visit.failed)) := fun n =>
          ih.mpr ⟨visits, htail, hrest, rfl, rfl⟩
        refine ⟨x, t₁, visits.flatMap Visit.trace, rfl, hvisit, ?_⟩
        rw [List.countP_cons, Nat.add_comm (List.countP _ _), ← Nat.add_assoc]
        cases x <;> exact hwalk _

/-- How a walk ends in which so many failed. -/
def verdict (failed : Nat) : Except Failure Unit :=
  if 0 < failed then .error (.msg (someFailed failed)) else .ok ()

theorem finishes_walk {vms : List String} {o : Except Failure Unit} :
    Finishes (walk conn plan vms) t o ↔
      ∃ visits : List Visit, visits.map Visit.target = targets plan vms ∧
        (∀ v ∈ visits, v.Ran conn plan) ∧ t = visits.flatMap Visit.trace ∧
        o = verdict (visits.countP Visit.failed) := by
  have hend : ∀ n t o, Finishes (if 0 < n then bail (someFailed n) else pure () : Remote Failure Unit)
      t o ↔ t = [] ∧ o = verdict n := by
    intro n t o
    rw [verdict]
    split_ifs
    · exact finishes_throw
    · exact finishes_pure
  rw [walk]
  split_ifs with hnone
  · subst hnone
    rw [finishes_pure]
    constructor
    · rintro ⟨rfl, rfl⟩
      exact ⟨[], rfl, fun v hv => absurd hv List.not_mem_nil, rfl, rfl⟩
    · rintro ⟨visits, hvisits, -, rfl, rfl⟩
      obtain rfl := List.map_eq_nil_iff.mp hvisits
      exact ⟨rfl, rfl⟩
  · rw [finishes_bind]
    constructor
    · rintro (⟨err, rfl, hwalk⟩ | ⟨n, t₁, t₂, rfl, hwalk, hrest⟩)
      · obtain ⟨visits, -, -, -, hr⟩ := finishes_switchAll.mp hwalk
        cases hr
      · obtain ⟨visits, hvisits, hran, rfl, hr⟩ := finishes_switchAll.mp hwalk
        obtain ⟨rfl, rfl⟩ := (hend n t₂ o).mp hrest
        obtain rfl := Except.ok.inj hr
        exact ⟨visits, hvisits, hran, List.append_nil _, by rw [Nat.zero_add]⟩
    · rintro ⟨visits, hvisits, hran, rfl, rfl⟩
      refine .inr ⟨_, _, [], (List.append_nil _).symm,
        finishes_switchAll.mpr ⟨visits, hvisits, hran, rfl, rfl⟩, ?_⟩
      rw [Nat.zero_add]
      exact (hend _ _ _).mpr ⟨rfl, rfl⟩

/-- All-VMs mode is a listing, and a walk behind it. -/
theorem finishes_runAllVms {o : Except Failure Unit} :
    Finishes (runAllVms conn plan) t o ↔
      ∃ e, (∃ err, conn.result listCommand e = .error err ∧ t = [conn.exchange listCommand e] ∧
          o = .error (.context couldNotList (.source err))) ∨
        ∃ stdout t', conn.result listCommand e = .ok stdout ∧
          t = conn.exchange listCommand e :: t' ∧
          Finishes (walk conn plan (selected (parseDomainList stdout))) t' o := by
  rw [runAllVms, finishes_bind]
  constructor
  · rintro (⟨err, rfl, hlist⟩ | ⟨running, t₁, t₂, rfl, hlist, hrest⟩)
    · obtain ⟨r, hr, hlist⟩ := finishes_context.mp hlist
      obtain ⟨e, rfl, rfl⟩ := finishes_runningDomains.mp hlist
      refine ⟨e, .inl ?_⟩
      cases hresult : conn.result listCommand e with
      | error cause =>
        rw [hresult] at hr
        exact ⟨cause, rfl, rfl, congrArg _ (Except.error.inj hr)⟩
      | ok stdout =>
        rw [hresult] at hr
        cases hr
    · obtain ⟨e, rfl, hr⟩ := finishes_runningDomains.mp (finishes_context_ok.mp hlist)
      refine ⟨e, .inr ?_⟩
      cases hresult : conn.result listCommand e with
      | error cause =>
        rw [hresult] at hr
        cases hr
      | ok stdout =>
        rw [hresult] at hr
        obtain rfl := Except.ok.inj hr
        exact ⟨stdout, t₂, rfl, rfl, hrest⟩
  · rintro ⟨e, ⟨err, hresult, rfl, rfl⟩ | ⟨stdout, t', hresult, rfl, hrest⟩⟩
    · refine .inl ⟨_, rfl, finishes_context.mpr ⟨.error err, rfl, ?_⟩⟩
      exact finishes_runningDomains.mpr ⟨e, rfl, by rw [hresult]; rfl⟩
    · refine .inr ⟨parseDomainList stdout, [conn.exchange listCommand e], t', rfl,
        finishes_context_ok.mpr ?_, hrest⟩
      exact finishes_runningDomains.mpr ⟨e, rfl, by rw [hresult]; rfl⟩

/-- All-VMs mode is a listing and then a visit of every running VM of a known flavor, in the order
of the listing. A visit that fails is counted, and the next one is made all the same. -/
theorem runAllVms_visits {o : Except Failure Unit} :
    Finishes (runAllVms conn plan) t o ↔
      ∃ e, (∃ err, conn.result listCommand e = .error err ∧ t = [conn.exchange listCommand e] ∧
          o = .error (.context couldNotList (.source err))) ∨
        ∃ stdout, ∃ visits : List Visit, conn.result listCommand e = .ok stdout ∧
          visits.map Visit.target = targets plan (selected (parseDomainList stdout)) ∧
          (∀ v ∈ visits, v.Ran conn plan) ∧
          t = conn.exchange listCommand e :: visits.flatMap Visit.trace ∧
          o = verdict (visits.countP Visit.failed) := by
  rw [finishes_runAllVms]
  refine exists_congr fun e => or_congr_right (exists_congr fun stdout => ?_)
  constructor
  · rintro ⟨t', hresult, rfl, hrest⟩
    obtain ⟨visits, hvisits, hran, rfl, rfl⟩ := finishes_walk.mp hrest
    exact ⟨visits, hresult, hvisits, hran, rfl, rfl⟩
  · rintro ⟨visits, hresult, hvisits, hran, rfl, rfl⟩
    exact ⟨_, hresult, rfl, finishes_walk.mpr ⟨visits, hvisits, hran, rfl, rfl⟩⟩

end Hbird.Virt.SwitchToGhcr
