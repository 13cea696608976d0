import Hbird.UpdateCluster.Gates

namespace Hbird.UpdateCluster

open Hbird.Interaction Hbird.Ssh Hbird.Text

variable {plan : Plan} {node raw : String} {t : Trace Reply}

/-- The two halves of a pod line around its first `=`; a line without one is both. -/
def splitPod (line : String) : String × String :=
  match splitOnce '=' line with
  | some halves => halves
  | none => (line, line)

def collectUnreadyNames (raw : String) : List String :=
  ((lines raw).filter (· ≠ "")).filterMap fun line =>
    let (lhs, rhs) := splitPod line
    if rhs = "" || contains rhs "false" then some lhs else none

/-- The elements of a `BTreeSet<String>` in its order. -/
def sortedSet (names : List String) : List String := names.dedup.insertionSort (· ≤ ·)

/-- `current.difference(&baseline)` of a reading. -/
def newUnready (baseline : List String) (raw : String) : List String :=
  (sortedSet (collectUnreadyNames raw)).filter (· ∉ baseline)

def podsOn (node : String) : String :=
  "get pods -n kube-system --field-selector=spec.nodeName=" ++ node

def podsCommand (node : String) : String := podsOn node ++ " --no-headers"

def readinessPath : String :=
  " -o jsonpath='\x7brange .items[*]\x7d\x7b.metadata.name\x7d=" ++
    "\x7brange .status.containerStatuses[*]\x7d\x7b.ready\x7d,\x7bend\x7d\x7b\"\\n\"\x7d\x7bend\x7d'"

def readinessCommand (node : String) : String := podsOn node ++ readinessPath

def podCount (stdout : String) : Nat := ((lines stdout).filter fun l => trim l ≠ "").length

/-- `unwrap_or_default` of a read. -/
def orDefault : Except Failure String → String
  | .ok stdout => stdout
  | .error _ => ""

/-- A round of the second phase: what is newly unready keeps the gate closed. -/
def settled (baseline : List String) (r : Except Failure String) : Except String Unit :=
  if newUnready baseline (orDefault r) = [] then .ok ()
  else .error (" ".intercalate (newUnready baseline (orDefault r)))

def waitSettled (plan : Plan) (node : String) (baseline : List String) : Remote Failure Unit :=
  (pollLoop 5 plan.timeouts.daemonset
    (attempt (cpKubectl plan (readinessCommand node)) (settled baseline)) "").context
    fun unready => .msg ("wait_node_daemonsets_ready: kube-system DaemonSet pods on " ++ node ++
      " not Ready within " ++ seconds plan.timeouts.daemonset ++ " (new-unready: " ++ unready ++ ")")

def waitNodeDaemonsetsReady (plan : Plan) (node : String) : Remote Failure Unit :=
  if plan.skipGates then pure ()
  else if plan.dryRun then pure ()
  else
    Exec.outcome (pollLoop 2 60
      (attempt (cpKubectl plan (podsCommand node)) (untilOk fun stdout => 0 < podCount stdout)) ())
    >>= fun
      | .error () => pure ()
      | .ok _ => Exec.outcome (cpKubectl plan (readinessCommand node)) >>= fun baseline =>
          waitSettled plan node (collectUnreadyNames (orDefault baseline))

/-- A pod as a line of the readiness read lists it: its name, and what `.ready` of each
container status printed. -/
structure Pod where
  name : String
  statuses : List String
  deriving DecidableEq, Repr

def podOf (line : String) : Pod :=
  ⟨(splitPod line).1, (splitTerminator ',' (splitPod line).2.toList).map String.ofList⟩

def listedPods (raw : String) : List Pod := ((lines raw).filter (· ≠ "")).map podOf

/-- There are container statuses, and none of them reads false. -/
def Pod.Ready (pod : Pod) : Prop :=
  pod.statuses ≠ [] ∧ ∀ status ∈ pod.statuses, contains status "false" = false

theorem ready_podOf (line : String) :
    (podOf line).Ready ↔
      (splitPod line).2 ≠ "" ∧ contains (splitPod line).2 "false" = false := by
  have hw : "false".toList ≠ [] := by decide
  have hc : ',' ∉ "false".toList := by decide
  have hinfix := infix_splitTerminator (splitPod line).2.toList hw hc
  have hempty : (splitPod line).2.toList = [] ↔ (splitPod line).2 = "" := String.toList_eq_nil_iff
  simp only [Pod.Ready, podOf, contains, decide_eq_false_iff_not, List.map_eq_nil_iff, ne_eq,
    splitTerminator_eq_nil, List.mem_map, forall_exists_index, and_imp, forall_apply_eq_imp_iff₂,
    String.toList_ofList, hempty, hinfix, not_exists, not_and]

theorem mem_collectUnreadyNames {name : String} :
    name ∈ collectUnreadyNames raw ↔ ∃ pod ∈ listedPods raw, pod.name = name ∧ ¬ pod.Ready := by
  have hline : ∀ line, (if (splitPod line).2 = "" || contains (splitPod line).2 "false" then
      some (splitPod line).1 else none) = some name ↔
        (podOf line).name = name ∧ ¬ (podOf line).Ready := by
    intro line
    rw [ready_podOf]
    by_cases he : (splitPod line).2 = ""
    · simp [he, podOf]
    · by_cases hf : contains (splitPod line).2 "false" = true
      · simp [he, hf, podOf]
      · simp [he, hf]
  simp only [collectUnreadyNames, List.mem_filterMap, listedPods, hline]
  constructor
  · rintro ⟨line, hl, hn⟩
    exact ⟨podOf line, List.mem_map_of_mem hl, hn⟩
  · rintro ⟨pod, hp, hn⟩
    obtain ⟨line, hl, rfl⟩ := List.mem_map.mp hp
    exact ⟨line, hl, hn⟩

theorem mem_sortedSet {names : List String} {name : String} : name ∈ sortedSet names ↔ name ∈ names := by
  rw [sortedSet, (List.perm_insertionSort _ _).mem_iff, List.mem_dedup]

/-- Nothing is newly unready exactly when every pod of the reading that is not in the
baseline is ready. -/
theorem newUnready_eq_nil {baseline : List String} :
    newUnready baseline raw = [] ↔ ∀ pod ∈ listedPods raw, pod.name ∉ baseline → pod.Ready := by
  simp only [newUnready, List.filter_eq_nil_iff, mem_sortedSet, mem_collectUnreadyNames,
    decide_eq_true_eq, not_not, forall_exists_index, and_imp]
  constructor
  · intro h pod hp hb
    by_contra hr
    exact hb (h pod.name pod hp rfl hr)
  · rintro h name pod hp rfl hr
    by_contra hb
    exact hr (h pod hp hb)

theorem podsCommand_ne_readinessCommand (node : String) :
    podsCommand node ≠ readinessCommand node := by
  intro h
  have hs := append_left_cancel (podsOn node) h
  revert hs
  decide

theorem refusal_readinessCommand (h : refusal (podsCommand node) = none) :
    refusal (readinessCommand node) = none := by
  obtain ⟨hn, -, -⟩ := refusal_append.mp h
  have hp : refusal readinessPath = none := by decide +kernel
  have hh : readinessPath.toList.head? = some ' ' := by decide
  refine refusal_append.mpr ⟨hn, hp, ?_⟩
  rintro x - y hy ⟨-, rfl⟩
  rw [hh] at hy
  simp at hy

/-- The reads of the second phase: those after the one that took the baseline. -/
def phaseTwoReads (plan : Plan) (node : String) (t : Trace Reply) : List (Except Failure String) :=
  (kubectlReads plan (readinessCommand node) t).tail

def baselineUnready (plan : Plan) (node : String) (t : Trace Reply) : List String :=
  match kubectlReads plan (readinessCommand node) t with
  | [] => []
  | baseline :: _ => collectUnreadyNames (orDefault baseline)

/-- The gate was passed on a reading that shows every pod outside the baseline ready. -/
def PassedOnReading (plan : Plan) (node : String) (t : Trace Reply) : Prop :=
  ∃ raw, .ok raw ∈ phaseTwoReads plan node t ∧
    ∀ pod ∈ listedPods raw, pod.name ∉ baselineUnready plan node t → pod.Ready

theorem settled_ok {baseline : List String} {r : Except Failure String} :
    settled baseline r = .ok () ↔ newUnready baseline (orDefault r) = [] := by
  unfold settled
  split <;> simp [*]

theorem settled_error {baseline : List String} {r : Except Failure String} {b : String}
    (h : settled baseline r = .error b) : ∃ raw, r = .ok raw ∧ newUnready baseline raw ≠ [] := by
  have hn : newUnready baseline (orDefault r) ≠ [] := by
    intro hn
    rw [settled_ok.mpr hn] at h
    cases h
  cases r with
  | ok raw => exact ⟨raw, rfl, hn⟩
  | error e =>
    have he : newUnready baseline "" = [] := by
      have hc : collectUnreadyNames "" = [] := by decide
      simp [newUnready, hc, sortedSet]
    exact absurd he hn

/-- The last read of the second phase opens the gate, and each one before it is a reading
with a newly unready pod. -/
theorem waitSettled_ok {baseline : List String} (hd : plan.dryRun = false)
    (hr : refusal (readinessCommand node) = none)
    (h : Finishes (waitSettled plan node baseline) t (.ok ())) :
    ∃ rs r, kubectlReads plan (readinessCommand node) t = rs ++ [r] ∧
      (∀ r' ∈ rs, ∃ raw, r' = .ok raw ∧ newUnready baseline raw ≠ []) ∧
      newUnready baseline (orDefault r) = [] := by
  obtain ⟨u, v, rfl, hu, hv⟩ := pollLoop_ok (finishes_context_ok.mp h)
  obtain ⟨r, hrun, hs⟩ := finishes_attempt.mp hv
  refine ⟨kubectlReads plan (readinessCommand node) u, r, ?_, ?_, settled_ok.mp hs.symm⟩
  · rw [kubectlReads_append, kubectlReads_eq hd hr hrun]
  · intro r' hr'
    obtain ⟨b, hb⟩ := misses_reads hd hu r' hr'
    exact settled_error hb

/-- A live run that saw a pod and opened the gate did so on a reading, with every pod
outside the baseline ready in it, if and only if no read of the second phase failed. -/
theorem waitNodeDaemonsetsReady_passed_iff (plan : Plan) (node : String) (t : Trace Reply)
    (hd : plan.dryRun = false) (hg : plan.skipGates = false)
    (hpod : ∃ stdout, .ok stdout ∈ kubectlReads plan (podsCommand node) t ∧ 0 < podCount stdout)
    (h : Finishes (waitNodeDaemonsetsReady plan node) t (.ok ())) :
    PassedOnReading plan node t ↔ ∀ r ∈ phaseTwoReads plan node t, ∃ raw, r = .ok raw := by
  have hne := podsCommand_ne_readinessCommand node
  rw [waitNodeDaemonsetsReady, hg, hd, if_neg Bool.false_ne_true, if_neg Bool.false_ne_true] at h
  obtain ⟨r₁, t₁, t', rfl, h₁, h'⟩ := finishes_outcome_bind.mp h
  cases r₁ with
  | error u =>
    -- The first phase ended without a pod, so no read of it showed one.
    obtain ⟨rfl, -⟩ := finishes_pure.mp h'
    obtain ⟨stdout, hs, hc⟩ := hpod
    rw [List.append_nil] at hs
    obtain ⟨b, hb⟩ := misses_reads hd (pollLoop_error h₁) _ hs
    have hgood : untilOk (fun stdout => decide (0 < podCount stdout)) (.ok stdout : Except Failure String)
        = .ok stdout := untilOk_eq_ok.mpr ⟨rfl, by simpa using hc⟩
    rw [hgood] at hb
    cases hb
  | ok stdout =>
    obtain ⟨u, v, rfl, hu, hv⟩ := pollLoop_ok h₁
    obtain ⟨r, hread, hgood⟩ := finishes_attempt.mp hv
    obtain ⟨rfl, -⟩ := untilOk_eq_ok.mp hgood.symm
    have href := refusal_readinessCommand (refusal_of_ok hd hread)
    obtain ⟨b, t₂, t₃, rfl, h₂, h₃⟩ := finishes_outcome_bind.mp h'
    obtain ⟨rs, r, hreads, hrs, hnil⟩ := waitSettled_ok hd href h₃
    have hall : kubectlReads plan (readinessCommand node) (u ++ v ++ (t₂ ++ t₃)) = b :: (rs ++ [r]) := by
      rw [kubectlReads_append, kubectlReads_append, kubectlReads_append,
        misses_reads_other hne hd hu, kubectlReads_other hne hd hread, kubectlReads_eq hd href h₂,
        hreads]
      rfl
    have htwo : phaseTwoReads plan node (u ++ v ++ (t₂ ++ t₃)) = rs ++ [r] := by
      rw [phaseTwoReads, hall, List.tail_cons]
    have hbase : baselineUnready plan node (u ++ v ++ (t₂ ++ t₃)) = collectUnreadyNames (orDefault b) := by
      rw [baselineUnready, hall]
    rw [PassedOnReading, htwo, hbase]
    simp only [← newUnready_eq_nil, List.mem_append, List.mem_singleton]
    constructor
    · rintro ⟨raw, hraw, hready⟩ r' (hr' | rfl)
      · obtain ⟨raw', rfl, -⟩ := hrs r' hr'
        exact ⟨raw', rfl⟩
      · obtain hraw | rfl := hraw
        · obtain ⟨raw', heq, hnew⟩ := hrs _ hraw
          exact absurd (Except.ok.inj heq ▸ hready) hnew
        · exact ⟨raw, rfl⟩
    · intro hok
      obtain ⟨raw, rfl⟩ := hok r (.inr rfl)
      exact ⟨raw, .inr rfl, hnil⟩

/-- A run on `w1` whose read after the baseline answers with `last`. -/
def lastReadTrace (last : ProcessEnd) : Trace Reply :=
  [⟨kubectlQuery .sample (podsCommand "w1"), printed "cilium-x 1/1 Running"⟩,
    ⟨kubectlQuery .sample (readinessCommand "w1"), printed "cilium-x=false,"⟩,
    ⟨kubectlQuery .sample (readinessCommand "w1"), last⟩]

theorem waitNodeDaemonsetsReady_passed_iff_ready :
    PassedOnReading .sample "w1" (lastReadTrace (printed "cilium-x=true,")) ↔
      ∀ r ∈ phaseTwoReads .sample "w1" (lastReadTrace (printed "cilium-x=true,")), ∃ raw, r = .ok raw :=
  waitNodeDaemonsetsReady_passed_iff .sample "w1" _ rfl rfl
    ⟨"cilium-x 1/1 Running", by decide +kernel, by decide +kernel⟩
    (finishes_of_play (scripted [printed "cilium-x 1/1 Running", printed "cilium-x=false,",
      printed "cilium-x=true,"]) (by decide +kernel))

/-- The only read of the second phase is refused by `ssh`, and the gate opens. -/
theorem waitNodeDaemonsetsReady_failed_read :
    Finishes (waitNodeDaemonsetsReady .sample "w1") (lastReadTrace (failed 255)) (.ok ()) ∧
      .ok "cilium-x 1/1 Running" ∈
        kubectlReads .sample (podsCommand "w1") (lastReadTrace (failed 255)) ∧
      0 < podCount "cilium-x 1/1 Running" ∧
      ¬ PassedOnReading .sample "w1" (lastReadTrace (failed 255)) := by
  have hreads : phaseTwoReads .sample "w1" (lastReadTrace (failed 255)) =
      [kubectlResult .sample (readinessCommand "w1") (failed 255)] := by decide +kernel
  have hfail : ∀ raw, kubectlResult .sample (readinessCommand "w1") (failed 255) ≠ .ok raw := by
    intro raw h
    cases h
  refine ⟨finishes_of_play (scripted [printed "cilium-x 1/1 Running",
    printed "cilium-x=false,", failed 255]) (by decide +kernel), by decide +kernel,
    by decide +kernel, ?_⟩
  rintro ⟨raw, hraw, -⟩
  rw [hreads, List.mem_singleton] at hraw
  exact hfail raw hraw.symm

end Hbird.UpdateCluster
