import Hbird.UpdateCluster.StageRules
import Hbird.UpdateCluster.Uncordon

namespace Hbird.UpdateCluster

open Hbird.Interaction Hbird.Ssh Hbird.Text Step

/-- How an update is left: with a result, or by a panic in one of its stages. -/
inductive Exit : Type
  | returned (o : Except Failure Unit)
  | unwound (q : Stage)

/-- Not with `Ok`. -/
def Exit.Bad : Exit → Prop
  | .returned (.ok _) => False
  | _ => True

def lineOf : Exchange Stage.Result → Option String
  | ⟨.eprintln line, _⟩ => some line
  | _ => none

/-- An update that was left by `exit` after the stages of `t`, and the lines of its destructor. -/
inductive Left (plan : Plan) (name ip k8sName : String) : Trace Stage.Result → Exit → List String → Prop
  | returned {t u : Trace Stage.Result} {o : Except Failure Unit} {s : InFlight}
      (h : Ends (updateWorkerSteps plan name ip k8sName) (.start k8sName plan.cpIp "pre-drain") t o s)
      (hd : Runs s.drop u ()) : Left plan name ip k8sName t (.returned o) (u.filterMap lineOf)
  | unwound {t u : Trace Stage.Result} {q : Stage} {s : InFlight}
      (h : Unwinds (updateWorkerSteps plan name ip k8sName) (.start k8sName plan.cpIp "pre-drain") t q s)
      (hd : Runs s.drop u ()) : Left plan name ip k8sName t (.unwound q) (u.filterMap lineOf)

section Facts

variable (plan : Plan) (k8sName : String) (t : Trace Stage.Result)

/-- The drain step succeeded. -/
def DrainOk : Prop := ∃ out, ⟨.cpKubectl (drainCommand plan k8sName), .ok out⟩ ∈ t

def Uncordoned : Prop := ∃ out, ⟨.cpKubectl (uncordonCommand k8sName), .ok out⟩ ∈ t

/-- No drain step failed. -/
def DrainsOk : Prop := ∀ r, ⟨.cpKubectl (drainCommand plan k8sName), r⟩ ∈ t → ∃ out, r = .ok out

/-- The shim starts a child for the command. -/
def StartsChild (command : String) : Prop := plan.dryRun = false ∧ refusal command = none

/-- The drain command was issued, whatever came of it. -/
def DrainIssued (exit : Exit) : Prop :=
  StartsChild plan (drainCommand plan k8sName) ∧
    ((∃ r, ⟨.cpKubectl (drainCommand plan k8sName), r⟩ ∈ t) ∨
      exit = .unwound (.cpKubectl (drainCommand plan k8sName)))

/-- The line of the hint that puts the node back. -/
def recoveryCommand : String :=
  "[update-cluster]   ssh root@" ++ plan.cpIp ++
    " \"kubectl --kubeconfig=/etc/kubernetes/admin.conf uncordon " ++ k8sName ++ "\""

/-- A node that may be cordoned is told of, and no other. -/
structure HintLaw (exit : Exit) (lines : List String) : Prop where
  told : exit.Bad → DrainIssued plan k8sName t exit → ¬ Uncordoned k8sName t →
    recoveryCommand plan k8sName ∈ lines
  quiet : ¬ DrainIssued plan k8sName t exit ∨ Uncordoned k8sName t → lines = []

/-- What the record misses: a drain that was issued and did not succeed; a name that is empty; a
drain step that succeeded without a child, in a dry run. -/
def HintMissed (exit : Exit) : Prop :=
  ¬ Uncordoned k8sName t ∧
    (¬ DrainOk plan k8sName t ∧ DrainIssued plan k8sName t exit ∨
      DrainOk plan k8sName t ∧ (StartsChild plan (drainCommand plan k8sName) ↔ k8sName = ""))

/-- The record tells what the trace does. -/
structure Recorded (s : InFlight) : Prop where
  node : s.node = k8sName
  cpIp : s.cpIp = plan.cpIp
  drained : s.drained = true ↔ DrainOk plan k8sName t
  uncordoned : s.uncordoned = true ↔ Uncordoned k8sName t
  skipped : plan.skipDrain = true → ¬ DrainOk plan k8sName t

/-- It has been cleared, and there is nothing to tell. -/
structure Cleared (s : InFlight) : Prop where
  record : s = s.clearInFlight
  settled : DrainOk plan k8sName t → Uncordoned k8sName t

end Facts

section Stages

variable {plan : Plan} {name ip k8sName pre text : String} {t : Trace Stage.Result} {s : InFlight}

/-- A stage that neither drains nor uncordons with success. -/
def Neutral (plan : Plan) (k8sName : String) (x : Exchange Stage.Result) : Prop :=
  (∀ r, x ≠ ⟨.cpKubectl (drainCommand plan k8sName), r⟩) ∧
    ∀ out, x ≠ ⟨.cpKubectl (uncordonCommand k8sName), .ok out⟩

theorem drainOk_append {x : Exchange Stage.Result} (hx : Neutral plan k8sName x) :
    DrainOk plan k8sName (t ++ [x]) ↔ DrainOk plan k8sName t := by
  refine exists_congr fun out => ?_
  rw [List.mem_append, List.mem_singleton]
  exact or_iff_left fun h => hx.1 _ h.symm

theorem uncordoned_append {x : Exchange Stage.Result} (hx : ∀ out,
    x ≠ ⟨.cpKubectl (uncordonCommand k8sName), .ok out⟩) :
    Uncordoned k8sName (t ++ [x]) ↔ Uncordoned k8sName t := by
  refine exists_congr fun out => ?_
  rw [List.mem_append, List.mem_singleton]
  exact or_iff_left fun h => hx _ h.symm

theorem drainsOk_append {x : Exchange Stage.Result} (hx : Neutral plan k8sName x) :
    DrainsOk plan k8sName (t ++ [x]) ↔ DrainsOk plan k8sName t := by
  refine forall_congr' fun r => ?_
  rw [List.mem_append, List.mem_singleton]
  exact imp_congr (or_iff_left fun h => hx.1 _ h.symm) Iff.rfl

theorem Recorded.append {x : Exchange Stage.Result} (h : Recorded plan k8sName t s)
    (hx : Neutral plan k8sName x) : Recorded plan k8sName (t ++ [x]) s where
  node := h.node
  cpIp := h.cpIp
  drained := h.drained.trans (drainOk_append hx).symm
  uncordoned := h.uncordoned.trans (uncordoned_append hx.2).symm
  skipped hs := fun hd => h.skipped hs ((drainOk_append hx).mp hd)

/-- The record while the update goes on: no drain has failed so far. -/
def Going (plan : Plan) (k8sName : String) (t : Trace Stage.Result) (s : InFlight) : Prop :=
  Recorded plan k8sName t s ∧ DrainsOk plan k8sName t

theorem Going.append {x : Exchange Stage.Result} (h : Going plan k8sName t s)
    (hx : Neutral plan k8sName x) : Going plan k8sName (t ++ [x]) s :=
  ⟨h.1.append hx, (drainsOk_append hx).mpr h.2⟩

def Over (plan : Plan) (k8sName : String) (t : Trace Stage.Result) (s : InFlight) : Prop :=
  Cleared plan k8sName t s ∧ DrainsOk plan k8sName t

def Told (plan : Plan) (k8sName : String) (t : Trace Stage.Result) (s : InFlight) : Prop :=
  Recorded plan k8sName t s ∨ Cleared plan k8sName t s

theorem Going.told (h : Going plan k8sName t s) : Told plan k8sName t s := .inl h.1

theorem neutral_of_ne {x : Exchange Stage.Result} (hx : ∀ command, x.1 ≠ .cpKubectl command) :
    Neutral plan k8sName x := by
  constructor
  · rintro r rfl
    exact hx _ rfl
  · rintro out rfl
    exact hx _ rfl

/-- A stage that does not run `kubectl` on its own leaves the tale as it is. -/
theorem going_must {α : Type} {p : Program Stage Stage.Result (Except Failure α)}
    {x : Except Failure α → Exchange Stage.Result} (hp : Single p x) (hx : ∀ r command, (x r).1 ≠ .cpKubectl command) :
    Upholds (Told plan k8sName) (Told plan k8sName) (Going plan k8sName) (must p) fun _ => Going plan k8sName :=
  upholds_must hp (fun _ _ _ h => h.append (neutral_of_ne (hx _)))
    (fun _ _ _ h => (h.append (neutral_of_ne (hx _))).told) fun _ _ h => h.told

theorem going_mustFor {α : Type} {p : Program Stage Stage.Result (Except Failure α)}
    {x : Except Failure α → Exchange Stage.Result} (hp : Single p x) (hx : ∀ r command, (x r).1 ≠ .cpKubectl command) :
    Upholds (Told plan k8sName) (Told plan k8sName) (Going plan k8sName) (mustFor text p) fun _ => Going plan k8sName :=
  upholds_mustFor hp (fun _ _ _ h => h.append (neutral_of_ne (hx _)))
    (fun _ _ _ h => (h.append (neutral_of_ne (hx _))).told) fun _ _ h => h.told

theorem going_phase : Upholds (Told plan k8sName) (Told plan k8sName) (Going plan k8sName) (phase text)
    fun _ => Going plan k8sName :=
  upholds_modify fun _ _ h => ⟨⟨h.1.node, h.1.cpIp, h.1.drained, h.1.uncordoned, h.1.skipped⟩, h.2⟩

/-- The drain, up to the mark on the record; where the step fails there is none. -/
theorem going_drainNode : Upholds (Told plan k8sName) (Told plan k8sName) (Going plan k8sName) (drainNode plan k8sName)
    fun _ => Going plan k8sName := by
  unfold drainNode
  split
  · exact upholds_pure fun _ _ h => h
  · next hs =>
    have hmem : ∀ {u : Trace Stage.Result} {r : Except Failure String} {r' : Except Failure String},
        (⟨.cpKubectl (drainCommand plan k8sName), r'⟩ : Exchange Stage.Result) ∈
          u ++ [⟨.cpKubectl (drainCommand plan k8sName), r⟩] →
        ⟨.cpKubectl (drainCommand plan k8sName), r'⟩ ∈ u ∨ r' = r := by
      intro u r r' h
      obtain h | h := List.mem_append.mp h
      · exact .inl h
      · exact .inr (by simpa using h)
    have hne : ∀ (r : Except Failure String) (out : String),
        (⟨.cpKubectl (drainCommand plan k8sName), r⟩ : Exchange Stage.Result) ≠
          ⟨.cpKubectl (uncordonCommand k8sName), .ok out⟩ := by
      intro r out h
      exact drainCommand_ne k8sName (Stage.cpKubectl.inj (congrArg Sigma.fst h))
    refine upholds_bind (O := fun _ u s => Going plan k8sName u s.markDrained)
      (upholds_must (single_stage (.cpKubectl (drainCommand plan k8sName))) ?_ ?_ fun _ _ h => h.told) fun _ => ?_
    · intro u s out h
      refine ⟨⟨h.1.node, h.1.cpIp, iff_of_true rfl ⟨out, by simp⟩,
        h.1.uncordoned.trans (uncordoned_append (hne _)).symm, fun h => absurd h hs⟩, ?_⟩
      intro r hr
      obtain hr | rfl := hmem hr
      · exact h.2 r hr
      · exact ⟨out, rfl⟩
    · intro u s e h
      have hd : DrainOk plan k8sName (u ++ [⟨.cpKubectl (drainCommand plan k8sName), .error e⟩]) ↔
          DrainOk plan k8sName u := by
        constructor
        · rintro ⟨out, hout⟩
          obtain hout | hout := hmem hout
          · exact ⟨out, hout⟩
          · cases hout
        · exact fun ⟨out, hout⟩ => ⟨out, List.mem_append_left _ hout⟩
      exact .inl ⟨h.1.node, h.1.cpIp, h.1.drained.trans hd.symm,
        h.1.uncordoned.trans (uncordoned_append (hne _)).symm, fun h => absurd h hs⟩
    · exact upholds_bind (O := fun _ => Going plan k8sName) (upholds_modify fun _ _ h => h)
        fun _ => going_phase

theorem going_prepareWorker : Upholds (Told plan k8sName) (Told plan k8sName) (Going plan k8sName)
    (prepareWorker plan ip k8sName) fun _ => Going plan k8sName :=
  upholds_bind (going_must (single_stage (.timerStop ip)) (by simp)) fun _ =>
    upholds_bind going_drainNode fun _ =>
      going_must (single_stage (.captureNodeBootid k8sName)) (by simp)

theorem going_workerGates : Upholds (Told plan k8sName) (Told plan k8sName) (Going plan k8sName)
    (workerGates plan name ip k8sName pre) fun _ => Going plan k8sName := by
  refine upholds_bind (upholds_ignore (single_stage (.waitSshDrop ip)) (fun _ _ _ h => h.append (neutral_of_ne (by simp)))
    fun _ _ h => h.told) fun _ => upholds_bind going_phase fun _ => ?_
  refine upholds_bind (going_mustFor (single_stage (.waitSshBack ip)) (by simp)) fun _ => upholds_bind going_phase fun _ => ?_
  refine upholds_bind (going_mustFor (single_stage (.waitNodeBootidChanged k8sName pre)) (by simp)) fun _ => ?_
  refine upholds_bind (going_mustFor (single_stage (.waitNodeReady k8sName)) (by simp)) fun _ =>
    upholds_bind going_phase fun _ => ?_
  exact upholds_bind (going_mustFor (single_stage (.waitNodeDaemonsetsReady k8sName)) (by simp)) fun _ =>
    going_phase

/-- The way to a cleared record: from one that has nothing left to tell. -/
def Settled (plan : Plan) (k8sName : String) (t : Trace Stage.Result) (s : InFlight) : Prop :=
  Going plan k8sName t s ∧ (DrainOk plan k8sName t → Uncordoned k8sName t)

theorem going_uncordonNode : Upholds (Told plan k8sName) (Told plan k8sName) (Going plan k8sName) (uncordonNode k8sName)
    fun _ => Settled plan k8sName := by
  have hne : ∀ r r' : Except Failure String, (⟨.cpKubectl (uncordonCommand k8sName), r⟩ :
      Exchange Stage.Result) ≠ ⟨.cpKubectl (drainCommand plan k8sName), r'⟩ := by
    intro r r' h
    exact drainCommand_ne k8sName (Stage.cpKubectl.inj (congrArg Sigma.fst h)).symm
  refine upholds_bind (O := fun _ u s => Settled plan k8sName u s.markUncordoned)
    (upholds_must (single_stage (.cpKubectl (uncordonCommand k8sName))) ?_ ?_ fun _ _ h => h.told) fun _ =>
    upholds_modify fun _ _ h => h
  · intro u s out h
    have hu : Uncordoned k8sName (u ++ [⟨.cpKubectl (uncordonCommand k8sName), .ok out⟩]) :=
      ⟨out, by simp⟩
    have hd : ∀ r, (⟨.cpKubectl (drainCommand plan k8sName), r⟩ : Exchange Stage.Result) ∈
        u ++ [⟨.cpKubectl (uncordonCommand k8sName), .ok out⟩] ↔
          ⟨.cpKubectl (drainCommand plan k8sName), r⟩ ∈ u := by
      intro r
      rw [List.mem_append, List.mem_singleton]
      exact or_iff_left fun he => hne _ _ he.symm
    have hok : DrainOk plan k8sName (u ++ [⟨.cpKubectl (uncordonCommand k8sName), .ok out⟩]) ↔
        DrainOk plan k8sName u := exists_congr fun r => hd _
    refine ⟨⟨⟨h.1.node, h.1.cpIp, h.1.drained.trans hok.symm, iff_of_true rfl hu,
      fun hs hdr => h.1.skipped hs (hok.mp hdr)⟩, fun r hr => h.2 r ((hd r).mp hr)⟩, fun _ => hu⟩
  · intro u s e h
    exact .inl (h.1.append ⟨hne _, fun out he => by simp at he⟩)

theorem settled_finishWorker : Upholds (Told plan k8sName) (Told plan k8sName) (Settled plan k8sName) (finishWorker ip)
    fun _ => Over plan k8sName := by
  have happend : ∀ {u : Trace Stage.Result} {s : InFlight} {r : Except Failure Unit},
      Settled plan k8sName u s → Settled plan k8sName (u ++ [⟨.timerStart ip, r⟩]) s := by
    intro u s r h
    have hx : Neutral plan k8sName ⟨.timerStart ip, r⟩ := neutral_of_ne (by simp)
    exact ⟨h.1.append hx, fun hd => (uncordoned_append hx.2).mpr (h.2 ((drainOk_append hx).mp hd))⟩
  refine upholds_bind (O := fun _ => Settled plan k8sName)
    (upholds_must (single_stage (.timerStart ip)) (fun _ _ _ => happend) (fun _ _ _ h => (happend h).1.told)
      fun _ _ h => h.1.told) fun _ => upholds_modify fun _ _ h => ⟨⟨rfl, h.2⟩, h.1.2⟩

theorem going_updateWorkerSteps : Upholds (Told plan k8sName) (Told plan k8sName) (Going plan k8sName)
    (updateWorkerSteps plan name ip k8sName) fun _ => Over plan k8sName := by
  refine upholds_bind going_prepareWorker fun pre => ?_
  refine upholds_bind (going_mustFor (single_stage (.bootcUpgradeApply ip name)) (by simp)) fun outcome => ?_
  cases outcome with
  | upgradeFailed => exact upholds_fail fun _ _ h => h.told
  | alreadyCurrent =>
    refine upholds_bind (O := fun _ => Settled plan k8sName) ?_ fun _ => settled_finishWorker
    split
    · next hs => exact upholds_pure fun _ _ h => ⟨h, fun hd => absurd hd (h.1.skipped hs)⟩
    · exact going_uncordonNode
  | applied =>
    exact upholds_bind going_workerGates fun _ => upholds_bind going_uncordonNode fun _ =>
      settled_finishWorker

theorem printLines_lines {lines : List String} (h : Runs (printLines lines) t ()) :
    t.filterMap lineOf = lines := by
  induction lines generalizing t with
  | nil =>
    obtain ⟨rfl, -⟩ := runs_done.mp h
    rfl
  | cons line lines ih =>
    obtain ⟨r, t', rfl, hrest⟩ := runs_ask.mp h
    have hline : lineOf ⟨.eprintln line, r⟩ = some line := rfl
    rw [List.filterMap_cons_some hline, ih hrest]

theorem drop_lines (h : Runs s.drop t ()) :
    t.filterMap lineOf = if s.drained && !s.uncordoned && s.node ≠ "" then s.hint else [] := by
  unfold InFlight.drop at h
  split
  · next hd =>
    rw [if_pos hd] at h
    exact printLines_lines h
  · next hd =>
    rw [if_neg hd] at h
    obtain ⟨rfl, -⟩ := runs_done.mp h
    rfl

theorem start_going : Going plan k8sName [] (.start k8sName plan.cpIp text) :=
  ⟨⟨rfl, rfl, by simp [InFlight.start, DrainOk], by simp [InFlight.start, Uncordoned],
    fun _ h => by simp [DrainOk] at h⟩, by simp [DrainsOk]⟩

/-- The lines are those of a record that tells what the trace does; and a good end is one where
nothing is left to tell and no drain has failed. -/
theorem Left.told {exit : Exit} {lines : List String} (h : Left plan name ip k8sName t exit lines) :
    ∃ s, Told plan k8sName t s ∧ (¬ exit.Bad → Over plan k8sName t s) ∧
      lines = if s.drained && !s.uncordoned && s.node ≠ "" then s.hint else [] := by
  have hup : Upholds (Told plan k8sName) (Told plan k8sName) (Going plan k8sName)
      (updateWorkerSteps plan name ip k8sName) fun _ => Over plan k8sName := going_updateWorkerSteps
  cases h with
  | @returned u o s h hd =>
    cases o with
    | ok _ =>
      have hover := hup.result start_going h
      exact ⟨s, .inr hover.1, fun _ => hover, drop_lines hd⟩
    | error e => exact ⟨s, hup.failure start_going h, fun hg => absurd trivial hg, drop_lines hd⟩
  | @unwound u q s h hd =>
    exact ⟨s, hup.unwound start_going h, fun hg => absurd trivial hg, drop_lines hd⟩

theorem recoveryCommand_mem (hn : s.node = k8sName) (hc : s.cpIp = plan.cpIp) :
    recoveryCommand plan k8sName ∈ s.hint := by
  unfold recoveryCommand InFlight.hint
  rw [← hn, ← hc]
  generalize "[update-cluster]   ssh root@" ++ s.cpIp ++
    " \"kubectl --kubeconfig=/etc/kubernetes/admin.conf uncordon " ++ s.node ++ "\"" = line
  exact List.mem_append_right _ (.tail _ (.head _))

theorem Told.lines (h : Told plan k8sName t s) :
    (DrainOk plan k8sName t ∧ ¬ Uncordoned k8sName t ∧ k8sName ≠ "" →
      recoveryCommand plan k8sName ∈
        if s.drained && !s.uncordoned && s.node ≠ "" then s.hint else []) ∧
    (¬ (DrainOk plan k8sName t ∧ ¬ Uncordoned k8sName t ∧ k8sName ≠ "") →
      (if s.drained && !s.uncordoned && s.node ≠ "" then s.hint else []) = []) := by
  obtain h | h := h
  · have hcond : (s.drained && !s.uncordoned && decide (s.node ≠ "")) = true ↔
        DrainOk plan k8sName t ∧ ¬ Uncordoned k8sName t ∧ k8sName ≠ "" := by
      rw [← h.drained, ← h.uncordoned, h.node]
      simp [and_assoc]
    constructor
    · intro ht
      rw [if_pos (hcond.mpr ht)]
      exact recoveryCommand_mem h.node h.cpIp
    · exact fun ht => if_neg fun hc => ht (hcond.mp hc)
  · rw [h.record]
    exact ⟨fun ⟨hd, hu, _⟩ => absurd (h.settled hd) hu, fun _ => rfl⟩

/-- An update that is left, in whatever way: the hint is right unless the record misses it. -/
theorem updateWorker_hint_iff (plan : Plan) (name ip k8sName : String) (t : Trace Stage.Result)
    (exit : Exit) (lines : List String) (h : Left plan name ip k8sName t exit lines) :
    HintLaw plan k8sName t exit lines ↔ ¬ HintMissed plan k8sName t exit := by
  obtain ⟨s, htold, hover, rfl⟩ := h.told
  obtain ⟨hsome, hnone⟩ := htold.lines
  have hissued : DrainOk plan k8sName t → (DrainIssued plan k8sName t exit ↔
      StartsChild plan (drainCommand plan k8sName)) :=
    fun ⟨out, hout⟩ => ⟨fun hi => hi.1, fun hs => ⟨hs, .inl ⟨_, hout⟩⟩⟩
  constructor
  · rintro hlaw ⟨hu, (⟨hd, hi⟩ | ⟨hd, hiff⟩)⟩
    · have hbad : exit.Bad := by
        by_contra hg
        obtain ⟨-, hr | he⟩ := hi
        · obtain ⟨r, hr⟩ := hr
          obtain ⟨out, rfl⟩ := (hover hg).2 r hr
          exact hd ⟨out, hr⟩
        · rw [he] at hg
          exact hg trivial
      have hmem := hlaw.told hbad hi hu
      rw [hnone fun hc => hd hc.1] at hmem
      cases hmem
    · by_cases hk : k8sName = ""
      · have hbad : exit.Bad := by
          by_contra hg
          exact hu ((hover hg).1.settled hd)
        have hmem := hlaw.told hbad ((hissued hd).mpr (hiff.mpr hk)) hu
        rw [hnone fun hc => hc.2.2 hk] at hmem
        cases hmem
      · have hmem := hsome ⟨hd, hu, hk⟩
        rw [hlaw.quiet (.inl fun hi => hk (hiff.mp ((hissued hd).mp hi)))] at hmem
        cases hmem
  · intro hmissed
    constructor
    · intro _ hi hu
      have hd : DrainOk plan k8sName t := by
        by_contra hd
        exact hmissed ⟨hu, .inl ⟨hd, hi⟩⟩
      refine hsome ⟨hd, hu, fun hk => ?_⟩
      exact hmissed ⟨hu, .inr ⟨hd, iff_of_true hi.1 hk⟩⟩
    · intro hq
      refine hnone fun ⟨hd, hu, hk⟩ => ?_
      obtain hi | hu' := hq
      · have hs : ¬ StartsChild plan (drainCommand plan k8sName) := fun hs => hi ((hissued hd).mpr hs)
        exact hmissed ⟨hu, .inr ⟨hd, iff_of_false hs hk⟩⟩
      · exact hu hu'

theorem printLines_runs (lines : List String) : ∃ u, Runs (printLines lines) u () := by
  induction lines with
  | nil => exact ⟨[], .done ()⟩
  | cons line lines ih =>
    obtain ⟨u, hu⟩ := ih
    exact ⟨_, .ask (r := ()) hu⟩

theorem drop_runs (s : InFlight) : ∃ u, Runs s.drop u () := by
  unfold InFlight.drop
  split
  · exact printLines_runs _
  · exact ⟨[], .done ()⟩

def sampleFailure : Failure := .msg "timed out"

/-- The drain fails after the stop of the timer. -/
def failedDrain : Trace Stage.Result :=
  [⟨.timerStop "10.0.0.3", .ok ()⟩, ⟨.cpKubectl (drainCommand .sample "w1"), .error sampleFailure⟩]

/-- The drain succeeds, and the boot ID cannot be read. -/
def failedCapture : Trace Stage.Result :=
  [⟨.timerStop "10.0.0.3", .ok ()⟩, ⟨.cpKubectl (drainCommand .sample "w1"), .ok ""⟩,
    ⟨.captureNodeBootid "w1", .error sampleFailure⟩]

theorem updateWorker_hint_iff_capture : ∃ lines,
    HintLaw .sample "w1" failedCapture (.returned (.error sampleFailure)) lines ↔
      ¬ HintMissed .sample "w1" failedCapture (.returned (.error sampleFailure)) := by
  obtain ⟨u, hu⟩ := drop_runs ⟨"w1", Plan.sample.cpIp, true, false, "post-drain"⟩
  exact ⟨_, updateWorker_hint_iff .sample "w1" "10.0.0.3" "w1" failedCapture _ _
    (.returned (.ask (.ask (.ask (.done _)))) hu)⟩

/-- A drain that timed out may have cordoned its node, and no hint tells of it. -/
theorem updateWorker_hint_missing :
    Left .sample "w1" "10.0.0.3" "w1" failedDrain (.returned (.error sampleFailure)) [] ∧
      ¬ HintLaw .sample "w1" failedDrain (.returned (.error sampleFailure)) [] := by
  constructor
  · exact .returned (u := []) (s := .start "w1" Plan.sample.cpIp "pre-drain")
      (.ask (.ask (.done _))) (.done ())
  · intro hlaw
    have hissued : DrainIssued .sample "w1" failedDrain (.returned (.error sampleFailure)) :=
      ⟨⟨rfl, by decide +kernel⟩, .inl ⟨.error sampleFailure, by simp [failedDrain]⟩⟩
    have hnot : ¬ Uncordoned "w1" failedDrain := by
      rintro ⟨out, hout⟩
      simp [failedDrain] at hout
    cases hlaw.told trivial hissued hnot

end Stages

end Hbird.UpdateCluster
