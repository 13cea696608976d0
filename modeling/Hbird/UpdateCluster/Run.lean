import Hbird.Interaction.Attempts
import Hbird.UpdateCluster.Nodes

namespace Hbird.UpdateCluster

open Hbird.Interaction Hbird.Ssh

/-- What a rolling update does to its nodes. -/
inductive NodeOp : Type
  | updateCp
  | updateWorker (name ip k8sName : String)
  | timerStart (ip : String)
  deriving DecidableEq, Repr

@[reducible] def NodeOp.Result (_ : NodeOp) : Type := Except Failure Unit

def NodeOp.perform (plan : Plan) : (op : NodeOp) → Program Stage Stage.Result op.Result
  | .updateCp => (UpdateCluster.updateCp plan).run
  | .updateWorker name ip k8sName => (UpdateCluster.updateWorker plan name ip k8sName).run
  | .timerStart ip => stage (.timerStart ip)

structure Results where
  succeeded : List String
  failed : List String
  deriving DecidableEq, Repr

namespace Results

def empty : Results := ⟨[], []⟩

def succeed (name : String) (r : Results) : Results := { r with succeeded := r.succeeded ++ [name] }

def fail (entry : String) (r : Results) : Results := { r with failed := r.failed ++ [entry] }

end Results

/-- A part of the rolling update, with the results collected so far. -/
abbrev Walk (α : Type) := Guarded NodeOp NodeOp.Result Results Failure α

/-- Update a node and look at what came of it. -/
def attemptNode (op : NodeOp) : Walk (Except Failure Unit) :=
  Guarded.call (Exec.outcome (ExceptT.mk (Program.perform op)))

def failureEntry (w : String) (e : Failure) : String := w ++ ": " ++ e.toText Ssh.Error.toText

def runOneWorker (plan : Plan) (w : String) : Walk Unit :=
  match plan.workerIpMap.lookup w with
  | none => Guarded.fail (.msg ("internal: no IP recorded for worker " ++ w ++
      "; Plan::from_args invariant broken"))
  | some ip =>
    attemptNode (.updateWorker w ip ((plan.workerK8sNameMap.lookup w).getD w)) >>= fun
      | .ok () => Guarded.modify (Results.succeed w)
      | .error e =>
        if plan.continueOnError then
          Guarded.modify (Results.fail (failureEntry w e)) >>= fun _ =>
            attemptNode (.timerStart ip) >>= fun _ => pure ()
        else Guarded.fail e

/-- `for w in batch { run_one_worker(..)?; }` -/
def runEach (plan : Plan) : List String → Walk Unit
  | [] => pure ()
  | w :: ws => runOneWorker plan w >>= fun _ => runEach plan ws

/-- The lines that `body` logs carry the label; what it does is not touched. -/
def withLogPrefix (_label : String) (body : Walk Unit) : Walk Unit := body

def runEachLabelled (plan : Plan) : List String → Walk Unit
  | [] => pure ()
  | w :: ws => withLogPrefix ("[parallel:" ++ w ++ "] ") (runOneWorker plan w) >>= fun _ =>
      runEachLabelled plan ws

/-- A batch of one, or of a serial run, is run at once; a larger one is run in order too,
under a label for each worker. -/
def runWorkerBatch (plan : Plan) (batch : List String) : Walk Unit :=
  if batch = [] then pure ()
  else if plan.parallel = 1 ∨ batch.length = 1 then runEach plan batch
  else runEachLabelled plan batch

/-- `while i < total { .. }` over slices of the list; the count of rounds only makes the
recursion structural. -/
def walkFrom (plan : Plan) (ws : List String) : Nat → Nat → Walk Unit
  | 0, _ => pure ()
  | n + 1, i =>
    if i < ws.length then
      let next := min (i + plan.parallel.toNat) ws.length
      runWorkerBatch plan ((ws.take next).drop i) >>= fun _ => walkFrom plan ws n next
    else pure ()

def updateCpRecorded (plan : Plan) : Walk Unit :=
  attemptNode .updateCp >>= fun
    | .ok () => Guarded.modify (Results.succeed plan.cpName)
    | .error e => Guarded.fail e

def walk (plan : Plan) : Walk Unit :=
  match plan.nodeFilter with
  | some node =>
    if node = plan.cpName then updateCpRecorded plan
    else if node ∈ plan.workerNames then runOneWorker plan node
    else Guarded.fail (.msg ("--node=" ++ node ++ " did not match CP_NAME or any WORKER_NAMES entry"))
  | none =>
    (if plan.workersOnly then pure ()
      else if plan.startFrom.isSome then pure () else updateCpRecorded plan) >>= fun _ =>
      walkFrom plan plan.workersToRun plan.workersToRun.length 0

/-- The last step of a run: with a failed worker on record it is an error. -/
def footer : Walk Unit := fun results =>
  if results.failed ≠ [] then .done (.error (.msg "UPDATE_CLUSTER_PARTIAL_FAILURE"), results)
  else .done (.ok (), results)

def run (plan : Plan) : Walk Unit := walk plan >>= fun _ => footer

/-- A whole run, down to the children it starts. -/
def runLive (plan : Plan) : Program Query Reply (Except Failure Unit × Results) :=
  ((run plan .empty).untag.handle (NodeOp.perform plan)).handle (Stage.perform plan)

section Serial

variable {plan : Plan} {ws : List String}

theorem runEachLabelled_eq (plan : Plan) (ws : List String) :
    runEachLabelled plan ws = runEach plan ws := by
  induction ws with
  | nil => rfl
  | cons w ws ih => rw [runEachLabelled, runEach, ih, withLogPrefix]

theorem runWorkerBatch_eq (plan : Plan) (batch : List String) :
    runWorkerBatch plan batch = runEach plan batch := by
  unfold runWorkerBatch
  split
  · next hb => rw [hb, runEach]
  · split
    · rfl
    · exact runEachLabelled_eq plan batch

theorem runEach_append (plan : Plan) (ws ws' : List String) :
    runEach plan (ws ++ ws') = (runEach plan ws >>= fun _ => runEach plan ws') := by
  induction ws with
  | nil => rfl
  | cons w ws ih => rw [List.cons_append, runEach, runEach, ih, Guarded.bind_assoc]

/-- However the list is cut into batches, the workers are run one after the other; and the
count of rounds ends no walk early. -/
theorem walkFrom_eq (hp : 0 < plan.parallel.toNat) (n i : Nat) (hn : ws.length ≤ n + i) :
    walkFrom plan ws n i = runEach plan (ws.drop i) := by
  induction n generalizing i with
  | zero =>
    have hi : ws.drop i = [] := List.drop_eq_nil_of_le (by omega)
    rw [hi, walkFrom, runEach]
  | succ n ih =>
    rw [walkFrom]
    by_cases hi : i < ws.length
    · rw [if_pos hi]
      dsimp only
      have hcut : ws.drop i = (ws.take (min (i + plan.parallel.toNat) ws.length)).drop i ++
          ws.drop (min (i + plan.parallel.toNat) ws.length) := by
        have hle : i ≤ min (i + plan.parallel.toNat) ws.length := by omega
        have hsplit := List.take_append_drop (min (i + plan.parallel.toNat) ws.length) ws
        have hlen : (ws.take (min (i + plan.parallel.toNat) ws.length)).length =
            min (i + plan.parallel.toNat) ws.length := by
          rw [List.length_take]
          omega
        calc ws.drop i = (ws.take (min (i + plan.parallel.toNat) ws.length) ++
              ws.drop (min (i + plan.parallel.toNat) ws.length)).drop i := by rw [hsplit]
          _ = _ := List.drop_append_of_le_length (by rw [hlen]; exact hle)
      rw [hcut, runEach_append, runWorkerBatch_eq, ih _ (by omega)]
    · have hd : ws.drop i = [] := List.drop_eq_nil_of_le (by omega)
      rw [if_neg hi, hd, runEach]

end Serial

/-- Who is updated by a run. -/
inductive Target : Type
  | cp
  | worker (name : String)
  deriving DecidableEq, Repr

def Target.name (plan : Plan) : Target → String
  | .cp => plan.cpName
  | .worker w => w

/-- The control plane is not excluded by a filter, `--workers-only` or `--start-from`. -/
def cpDue (plan : Plan) : Bool :=
  match plan.nodeFilter with
  | some node => node == plan.cpName
  | none => !plan.workersOnly && plan.startFrom.isNone

/-- The workers of a run: the one a filter names, or those from `--start-from` on. -/
def workersDue (plan : Plan) : List String :=
  match plan.nodeFilter with
  | some node => if node ≠ plan.cpName ∧ node ∈ plan.workerNames then [node] else []
  | none => plan.workersToRun

def planned (plan : Plan) : List Target :=
  (if cpDue plan then [.cp] else []) ++ (workersDue plan).map .worker

def NodeKnown (plan : Plan) : Prop :=
  ∀ node, plan.nodeFilter = some node → node = plan.cpName ∨ node ∈ plan.workerNames

def attemptOf : Exchange NodeOp.Result → Option (Target × Except Failure Unit)
  | ⟨.updateCp, r⟩ => some (.cp, r)
  | ⟨.updateWorker name _ _, r⟩ => some (.worker name, r)
  | ⟨.timerStart _, _⟩ => none

/-- The updates that a run tried, with what came of them. -/
def attempts (t : Trace NodeOp.Result) : List (Target × Except Failure Unit) :=
  t.filterMap attemptOf

def Keeps (plan : Plan) : Target → Prop
  | .cp => False
  | .worker _ => plan.continueOnError = true

def succeededNames (plan : Plan) (as : List (Target × Except Failure Unit)) : List String :=
  as.filterMap fun
    | (x, .ok ()) => some (x.name plan)
    | (_, .error _) => none

/-- One entry for each failed worker, if failures are kept. -/
def failedEntries (plan : Plan) (as : List (Target × Except Failure Unit)) : List String :=
  as.filterMap fun
    | (.worker w, .error e) => if plan.continueOnError then some (failureEntry w e) else none
    | _ => none

def Results.record (plan : Plan) (as : List (Target × Except Failure Unit)) (r : Results) : Results :=
  ⟨r.succeeded ++ succeededNames plan as, r.failed ++ failedEntries plan as⟩

section Law

variable {plan : Plan} {w : String} {ws : List String} {s s' : Results} {t : Trace NodeOp.Result}
  {o : Except Failure Unit}

theorem Results.record_append (as bs : List (Target × Except Failure Unit)) (r : Results) :
    r.record plan (as ++ bs) = (r.record plan as).record plan bs := by
  simp [Results.record, succeededNames, failedEntries]

theorem ends_attemptNode_bind {α : Type} {op : NodeOp} {f : Except Failure Unit → Walk α}
    {o : Except Failure α} (h : Ends (attemptNode op >>= f) s t o s') :
    ∃ r u, t = ⟨op, r⟩ :: u ∧ Ends (f r) s u o s' := by
  obtain ⟨e, -, -, he⟩ | ⟨r, t₁, t₂, rfl, h₁, h₂⟩ := ends_call_bind.mp h
  · obtain ⟨r, hr, -⟩ := finishes_outcome.mp he
    cases hr
  · obtain ⟨r', hr, hrun⟩ := finishes_outcome.mp h₁
    cases hr
    have ht : t₁ = [⟨op, r⟩] := runs_perform.mp hrun
    exact ⟨r, t₂, by rw [ht]; rfl, h₂⟩

theorem updateCpRecorded_ends (h : Ends (updateCpRecorded plan) s t o s') :
    Attempted (Keeps plan) [.cp] (attempts t) o ∧ s' = s.record plan (attempts t) := by
  obtain ⟨r, u, rfl, hu⟩ := ends_attemptNode_bind h
  cases r with
  | ok _ =>
    obtain ⟨rfl, rfl, rfl⟩ := ends_modify.mp hu
    exact ⟨.ok .nil, by simp [attempts, attemptOf, Results.record, succeededNames, failedEntries,
      Results.succeed, Target.name]⟩
  | error e =>
    obtain ⟨rfl, rfl, rfl⟩ := ends_fail.mp hu
    exact ⟨.stopped id, by simp [attempts, attemptOf, Results.record, succeededNames, failedEntries]⟩

theorem runOneWorker_ends (hip : (plan.workerIpMap.lookup w).isSome)
    (h : Ends (runOneWorker plan w) s t o s') :
    Attempted (Keeps plan) [.worker w] (attempts t) o ∧ s' = s.record plan (attempts t) := by
  obtain ⟨ip, hlookup⟩ := Option.isSome_iff_exists.mp hip
  unfold runOneWorker at h
  rw [hlookup] at h
  obtain ⟨r, u, rfl, hu⟩ := ends_attemptNode_bind h
  cases r with
  | ok _ =>
    obtain ⟨rfl, rfl, rfl⟩ := ends_modify.mp hu
    exact ⟨.ok .nil, by simp [attempts, attemptOf, Results.record, succeededNames, failedEntries,
      Results.succeed, Target.name]⟩
  | error e =>
    dsimp only at hu
    by_cases hc : plan.continueOnError = true
    · rw [if_pos hc] at hu
      obtain ⟨r, v, rfl, hv⟩ := ends_attemptNode_bind (ends_modify_bind.mp hu)
      obtain ⟨rfl, rfl, rfl⟩ := ends_pure.mp hv
      exact ⟨.kept hc .nil, by simp [attempts, attemptOf, Results.record, succeededNames,
        failedEntries, Results.fail, hc]⟩
    · rw [if_neg hc] at hu
      obtain ⟨rfl, rfl, rfl⟩ := ends_fail.mp hu
      exact ⟨.stopped hc, by simp [attempts, attemptOf, Results.record, succeededNames,
        failedEntries, hc]⟩

theorem attempts_append (t₁ t₂ : Trace NodeOp.Result) :
    attempts (t₁ ++ t₂) = attempts t₁ ++ attempts t₂ := List.filterMap_append

/-- Two parts of a run, one after the other, if the first did not end it. -/
theorem sequence_ends {x y : Walk Unit} {xs ys : List Target}
    (hx : ∀ {s s' t o}, Ends x s t o s' →
      Attempted (Keeps plan) xs (attempts t) o ∧ s' = s.record plan (attempts t))
    (hy : ∀ {s s' t o}, Ends y s t o s' →
      Attempted (Keeps plan) ys (attempts t) o ∧ s' = s.record plan (attempts t))
    (h : Ends (x >>= fun _ => y) s t o s') :
    Attempted (Keeps plan) (xs ++ ys) (attempts t) o ∧ s' = s.record plan (attempts t) := by
  obtain ⟨e, rfl, he⟩ | ⟨_, s₁, t₁, t₂, rfl, h₁, h₂⟩ := ends_bind.mp h
  · obtain ⟨ha, hs⟩ := hx he
    exact ⟨ha.append_error, hs⟩
  · obtain ⟨ha, rfl⟩ := hx h₁
    obtain ⟨hb, rfl⟩ := hy h₂
    rw [attempts_append]
    exact ⟨ha.append hb, (Results.record_append _ _ s).symm⟩

theorem pure_ends (h : Ends (pure () : Walk Unit) s t o s') :
    Attempted (Keeps plan) [] (attempts t) o ∧ s' = s.record plan (attempts t) := by
  obtain ⟨rfl, rfl, rfl⟩ := ends_pure.mp h
  exact ⟨.nil, by simp [attempts, Results.record, succeededNames, failedEntries]⟩

theorem runEach_ends {ws : List String} (hip : ∀ w ∈ ws, (plan.workerIpMap.lookup w).isSome)
    (h : Ends (runEach plan ws) s t o s') :
    Attempted (Keeps plan) (ws.map .worker) (attempts t) o ∧ s' = s.record plan (attempts t) := by
  induction ws generalizing s s' t o with
  | nil => exact pure_ends h
  | cons w ws ih =>
    exact sequence_ends (runOneWorker_ends (hip w (List.mem_cons_self ..)))
      (ih fun w hw => hip w (List.mem_cons_of_mem _ hw)) h

/-- The run without its batches. -/
def serialWalk (plan : Plan) : Walk Unit :=
  (if cpDue plan then updateCpRecorded plan else pure ()) >>= fun _ => runEach plan (workersDue plan)

theorem walk_eq_serial (hp : 0 < plan.parallel.toNat) (hk : NodeKnown plan) :
    walk plan = serialWalk plan := by
  unfold walk serialWalk cpDue workersDue
  cases hf : plan.nodeFilter with
  | some node =>
    by_cases hcp : node = plan.cpName
    · simp only [hcp, if_true, beq_self_eq_true, ne_eq, not_true_eq_false, false_and, if_false]
      exact (Guarded.bind_pure (updateCpRecorded plan)).symm
    · have hw : node ∈ plan.workerNames := (hk node hf).resolve_left hcp
      have hb : (node == plan.cpName) = false := by simpa using hcp
      simp only [hcp, hw, hb, if_false, if_true, Bool.false_eq_true, ne_eq, not_false_eq_true,
        and_self, runEach]
      exact (Guarded.bind_pure (runOneWorker plan node)).symm
  | none =>
    have hwalk : walkFrom plan plan.workersToRun plan.workersToRun.length 0 = _ :=
      walkFrom_eq hp _ 0 (by omega)
    rw [List.drop_zero] at hwalk
    dsimp only
    rw [hwalk]
    cases plan.workersOnly <;> cases plan.startFrom <;> rfl

theorem walk_unknown (hk : ¬ NodeKnown plan) (h : Ends (walk plan) s t o s') :
    t = [] ∧ (∃ e, o = .error e) ∧ s' = s := by
  simp only [NodeKnown, not_forall, not_or] at hk
  obtain ⟨node, hf, hcp, hw⟩ := hk
  rw [walk, hf] at h
  dsimp only at h
  rw [if_neg hcp, if_neg hw] at h
  obtain ⟨rfl, rfl, rfl⟩ := ends_fail.mp h
  exact ⟨rfl, ⟨_, rfl⟩, rfl⟩

theorem workersDue_subset : ∀ w ∈ workersDue plan, w ∈ plan.workerNames := by
  intro w hw
  unfold workersDue Plan.workersToRun at hw
  cases hf : plan.nodeFilter with
  | some node =>
    rw [hf] at hw
    dsimp only at hw
    split at hw
    · next hn =>
      rw [List.mem_singleton.mp hw]
      exact hn.2
    · cases hw
  | none =>
    rw [hf] at hw
    cases hs : plan.startFrom with
    | none =>
      rw [hs] at hw
      exact hw
    | some sf =>
      rw [hs] at hw
      exact (List.dropWhile_sublist _).subset hw

theorem serialWalk_ends (hip : ∀ w ∈ plan.workerNames, (plan.workerIpMap.lookup w).isSome)
    (h : Ends (serialWalk plan) s t o s') :
    Attempted (Keeps plan) (planned plan) (attempts t) o ∧ s' = s.record plan (attempts t) := by
  refine sequence_ends ?_ (runEach_ends fun w hw => hip w (workersDue_subset w hw)) h
  intro s s' t o hx
  split at hx
  · next hc =>
    rw [if_pos hc]
    exact updateCpRecorded_ends hx
  · next hc =>
    rw [if_neg hc]
    exact pure_ends hx

theorem footer_ends (h : Ends footer s t o s') :
    t = [] ∧ s' = s ∧ (o = .ok () ∧ s.failed = [] ∨ (∃ e, o = .error e) ∧ s.failed ≠ []) := by
  unfold Ends footer at h
  split at h
  · next hf =>
    obtain ⟨rfl, ho⟩ := runs_done.mp h
    obtain ⟨rfl, rfl⟩ := Prod.mk.inj ho
    exact ⟨rfl, rfl, .inr ⟨⟨_, rfl⟩, hf⟩⟩
  · next hf =>
    obtain ⟨rfl, ho⟩ := runs_done.mp h
    obtain ⟨rfl, rfl⟩ := Prod.mk.inj ho
    exact ⟨rfl, rfl, .inl ⟨rfl, by simpa using hf⟩⟩

/-- The law of a rolling update, over what it attempted, what it returned and what it had on
record. -/
structure Rolled (plan : Plan) (as : List (Target × Except Failure Unit)) (o : Except Failure Unit)
    (results : Results) : Prop where
  order : as.map Prod.fst <+: planned plan
  cpFirst : NodeKnown plan → cpDue plan = true → ∃ r bs, as = (.cp, r) :: bs ∧ ∀ b ∈ bs, b.1 ≠ .cp
  cpExcluded : cpDue plan = false → ∀ a ∈ as, a.1 ≠ .cp
  cpStops : ∀ e, (.cp, .error e) ∈ as → as = [(.cp, .error e)] ∧ o = .error e
  workerStops : plan.continueOnError = false → ∀ u w e v, as = u ++ (.worker w, .error e) :: v →
    v = [] ∧ o = .error e
  complete : NodeKnown plan → (∀ e, (.cp, .error e) ∉ as) →
    (plan.continueOnError = true ∨ ∀ a ∈ as, a.2 = .ok ()) → as.map Prod.fst = planned plan
  succeeded : results.succeeded = succeededNames plan as
  failed : results.failed = failedEntries plan as
  verdict : NodeKnown plan → (∀ e, (.cp, .error e) ∉ as) → plan.continueOnError = true →
    ((∃ e, o = .error e) ↔ results.failed ≠ [])
  success : NodeKnown plan → (∀ a ∈ as, a.2 = .ok ()) → o = .ok ()
  unknown : ¬ NodeKnown plan → as = [] ∧ ∃ e, o = .error e

section Rolled

variable {as bs : List (Target × Except Failure Unit)} {r : Except Failure Unit} {results : Results}

theorem not_cp_of_prefix (h : as.map Prod.fst <+: ws.map Target.worker) : ∀ a ∈ as, a.1 ≠ .cp := by
  intro a ha hcp
  obtain ⟨w, -, hw⟩ := List.mem_map.mp (h.subset (List.mem_map_of_mem ha))
  rw [hcp] at hw
  cases hw

theorem planned_of_cpDue (hd : cpDue plan = true) :
    planned plan = .cp :: (workersDue plan).map .worker := by
  rw [planned, if_pos hd, List.singleton_append]

theorem planned_of_not_cpDue (hd : cpDue plan = false) :
    planned plan = (workersDue plan).map .worker := by
  rw [planned, hd, if_neg Bool.false_ne_true, List.nil_append]

theorem cp_first (h : Attempted (Keeps plan) (planned plan) as r)
    (hd : cpDue plan = true) : ∃ r bs, as = (.cp, r) :: bs ∧ ∀ b ∈ bs, b.1 ≠ .cp := by
  rw [planned_of_cpDue hd] at h
  obtain ⟨r, bs, rfl⟩ := h.head
  have htail : bs.map Prod.fst <+: (workersDue plan).map Target.worker :=
    (List.cons_prefix_cons.mp h.order).2
  exact ⟨r, bs, rfl, not_cp_of_prefix htail⟩

theorem cp_excluded (h : Attempted (Keeps plan) (planned plan) as r)
    (hd : cpDue plan = false) : ∀ a ∈ as, a.1 ≠ .cp := by
  have horder := h.order
  rw [planned_of_not_cpDue hd] at horder
  exact not_cp_of_prefix horder

theorem cp_stops (h : Attempted (Keeps plan) (planned plan) as r) {e : Failure}
    (he : (.cp, .error e) ∈ as) : as = [(.cp, .error e)] ∧ r = .error e := by
  cases hd : cpDue plan with
  | false => exact absurd rfl (cp_excluded h hd _ he)
  | true =>
    obtain ⟨r', bs, rfl, hbs⟩ := cp_first h hd
    obtain hhead | htail := List.mem_cons.mp he
    · rw [← hhead] at h ⊢
      obtain ⟨rfl, hr⟩ := h.stops (u := []) rfl id
      exact ⟨rfl, hr⟩
    · exact absurd rfl (hbs _ htail)

theorem all_of_kept (h : Attempted (Keeps plan) (planned plan) as r)
    (hcp : ∀ e, (.cp, .error e) ∉ as)
    (hw : plan.continueOnError = true ∨ ∀ a ∈ as, a.2 = .ok ()) :
    as.map Prod.fst = planned plan ∧ r = .ok () := by
  refine h.complete fun x e hx => ?_
  cases x with
  | cp => exact hcp e hx
  | worker w => exact hw.resolve_right fun hok => nomatch hok _ hx

theorem failedEntries_of_ok (h : ∀ a ∈ as, a.2 = .ok ()) : failedEntries plan as = [] := by
  refine List.filterMap_eq_nil_iff.mpr ?_
  rintro ⟨x, r⟩ hx
  rw [show r = .ok () from h _ hx]
  cases x <;> rfl

/-- What the last step makes of the walk's outcome. -/
theorem run_ends (h : Ends (run plan) s t o s') :
    ∃ r, Ends (walk plan) s t r s' ∧ (∀ e, r = .error e → o = .error e) ∧
      (r = .ok () → (o = .ok () ∧ s'.failed = [] ∨ (∃ e, o = .error e) ∧ s'.failed ≠ [])) := by
  obtain ⟨e, rfl, hw⟩ | ⟨_, s₁, t₁, t₂, rfl, hw, hf⟩ := ends_bind.mp h
  · exact ⟨_, hw, fun e' he => he, fun he => nomatch he⟩
  · obtain ⟨rfl, rfl, ho⟩ := footer_ends hf
    rw [List.append_nil]
    refine ⟨_, hw, ?_, fun _ => ho⟩
    intro e he
    cases he

theorem rolled_known (hk : NodeKnown plan) (ha : Attempted (Keeps plan) (planned plan) as r)
    (hs : results = Results.empty.record plan as) (herr : ∀ e, r = .error e → o = .error e)
    (hok : r = .ok () → (o = .ok () ∧ results.failed = [] ∨ (∃ e, o = .error e) ∧
      results.failed ≠ [])) : Rolled plan as o results where
  order := ha.order
  cpFirst _ hd := cp_first ha hd
  cpExcluded hd := cp_excluded ha hd
  cpStops e he := by
    obtain ⟨has, hr⟩ := cp_stops ha he
    exact ⟨has, herr e hr⟩
  workerStops hc u w e v hu := by
    obtain ⟨hv, hr⟩ := ha.stops hu (by simp [Keeps, hc])
    exact ⟨hv, herr e hr⟩
  complete _ hcp hw := (all_of_kept ha hcp hw).1
  succeeded := by rw [hs]; rfl
  failed := by rw [hs]; rfl
  verdict _ hcp hc := by
    obtain ⟨rfl, hf⟩ | ⟨he, hf⟩ := hok (all_of_kept ha hcp (.inl hc)).2
    · simp [hf]
    · simp [hf, he]
  success _ hall := by
    have hcp : ∀ e, (.cp, .error e) ∉ as := fun e he => nomatch hall _ he
    have hf : results.failed = [] := by
      rw [hs]
      exact failedEntries_of_ok hall
    obtain ⟨ho, -⟩ | ⟨-, hne⟩ := hok (all_of_kept ha hcp (.inr hall)).2
    · exact ho
    · exact absurd hf hne
  unknown hn := absurd hk hn

theorem rolled_unknown (hk : ¬ NodeKnown plan) (ho : ∃ e, o = .error e) :
    Rolled plan [] o Results.empty where
  order := List.nil_prefix
  cpFirst hk' := absurd hk' hk
  cpExcluded _ _ ha := nomatch ha
  cpStops _ he := nomatch he
  workerStops _ u w e v hu := by simp at hu
  complete hk' := absurd hk' hk
  succeeded := rfl
  failed := rfl
  verdict hk' := absurd hk' hk
  success hk' := absurd hk' hk
  unknown _ := ⟨rfl, ho⟩

/-- How many workers a batch holds has no influence on a run. -/
theorem run_parallel (hp : 0 < plan.parallel.toNat) {k : UInt32} (hpar : 0 < k.toNat) :
    run { plan with parallel := k } = run plan := by
  have hop : ∀ ws : List String, runEach { plan with parallel := k } ws = runEach plan ws := by
    intro ws
    induction ws with
    | nil => rfl
    | cons w ws ih => rw [runEach, runEach, ih]; rfl
  have hwalk : walk { plan with parallel := k } = walk plan := by
    by_cases hk : NodeKnown plan
    · have hother : walk { plan with parallel := k } = serialWalk { plan with parallel := k } :=
        walk_eq_serial hpar hk
      rw [walk_eq_serial hp hk, hother]
      exact congrArg (_ >>= ·) (funext fun _ => hop _)
    · simp only [NodeKnown, not_forall, not_or] at hk
      obtain ⟨node, hf, hcp, hw⟩ := hk
      simp only [walk, hf, hcp, hw, if_false]
  rw [run, run, hwalk]

theorem nodeOp_perform_parallel (plan : Plan) (k : UInt32) :
    NodeOp.perform { plan with parallel := k } = NodeOp.perform plan := by
  funext op
  cases op <;> rfl

theorem stage_perform_parallel (plan : Plan) (k : UInt32) :
    Stage.perform { plan with parallel := k } = Stage.perform plan := by
  funext op
  cases op <;> rfl

/-- The same down to the children a run starts. -/
theorem runLive_parallel (hp : 0 < plan.parallel.toNat) {k : UInt32} (hpar : 0 < k.toNat) :
    runLive { plan with parallel := k } = runLive plan := by
  rw [runLive, runLive, run_parallel hp hpar, nodeOp_perform_parallel, stage_perform_parallel]

end Rolled

theorem run_rolled (plan : Plan) (hp : 0 < plan.parallel.toNat)
    (hip : ∀ w ∈ plan.workerNames, (plan.workerIpMap.lookup w).isSome) :
    (∀ t o results, Ends (run plan) .empty t o results → Rolled plan (attempts t) o results) ∧
      ∀ k : UInt32, 0 < k.toNat →
        run { plan with parallel := k } = run plan ∧
          runLive { plan with parallel := k } = runLive plan := by
  refine ⟨fun t o results h => ?_, fun k hpar => ⟨run_parallel hp hpar, runLive_parallel hp hpar⟩⟩
  obtain ⟨r, hw, herr, hok⟩ := run_ends h
  by_cases hk : NodeKnown plan
  · rw [walk_eq_serial hp hk] at hw
    obtain ⟨ha, hs⟩ := serialWalk_ends hip hw
    exact rolled_known hk ha hs herr hok
  · obtain ⟨rfl, ⟨e, he⟩, rfl⟩ := walk_unknown hk hw
    exact rolled_unknown hk ⟨e, herr e he⟩

theorem run_rolled_kept : Rolled { Plan.fleet with continueOnError := true, parallel := 2 }
    [(.cp, .ok ()), (.worker "w1", .error (.msg "drain")), (.worker "w2", .ok ())]
    (.error (.msg "UPDATE_CLUSTER_PARTIAL_FAILURE")) ⟨["cp", "w2"], ["w1: drain"]⟩ :=
  (run_rolled { Plan.fleet with continueOnError := true, parallel := 2 } (by decide) (by decide)).1
    [⟨.updateCp, .ok ()⟩, ⟨.updateWorker "w1" "10.0.0.3" "w1", .error (.msg "drain")⟩,
      ⟨.timerStart "10.0.0.3", .ok ()⟩, ⟨.updateWorker "w2" "10.0.0.4" "w2", .ok ()⟩] _ _
    (.ask (.ask (.ask (.ask (.done _)))))

/-- With `--node` the other workers are left alone. -/
theorem run_node_skips : ∃ t, Ends (run { Plan.fleet with nodeFilter := some "w1" }) .empty t (.ok ())
      ⟨["w1"], []⟩ ∧ (attempts t).map Prod.fst = [.worker "w1"] ∧
    { Plan.fleet with nodeFilter := some "w1" }.workersToRun = ["w1", "w2"] :=
  ⟨[⟨.updateWorker "w1" "10.0.0.3" "w1", .ok ()⟩], .ask (.done _), rfl, rfl⟩

end Law

end Hbird.UpdateCluster
