import Hbird.Config.ClusterConfig
import Hbird.Domifaddr
import Hbird.UpdateCluster.Run

namespace Hbird.UpdateCluster.FromArgs

open Hbird.Interaction Hbird.Ssh Hbird.Text Hbird.Config Hbird.Domifaddr
open Hbird.Virt (Connection buildConnection virsh shellQuote)

structure Args where
  node : Option String
  startFrom : Option String
  parallel : Option UInt32
  nodeNameOverride : List String
  workersOnly : Bool
  skipDrain : Bool
  skipGates : Bool
  dryRun : Bool
  continueOnError : Bool
  noDeleteEmptydirData : Bool
  kvmHost : Option String
  deriving DecidableEq, Repr

def domifaddrCommand (domain : String) : String := virsh ("domifaddr " ++ shellQuote domain)

def domifaddr (conn : Connection) (domain : String) : Remote Virt.Error (Option Ipv4.Address) :=
  conn.run (domifaddrCommand domain) >>= fun stdout =>
    (parseDomifaddr stdout (domifaddrCommand domain) : Except _ _)

def resolveDomainIpWith (conn : Connection) (via domain : String) : Remote Virt.Failure String :=
  Exec.outcome (domifaddr conn domain) >>= fun
    | .ok (some ip) => pure (String.ofList ip.text)
    | .ok none => Virt.bail ("libvirt domain '" ++ domain ++ "' has no IPv4 lease yet (queried via " ++
        via ++ "). The VM may still be booting, or it may not be defined. Pin CP_IP= / " ++
        "WORKER_IPS=(...) in cluster.local.conf to bypass resolution.")
    | .error e => throw (.context ("resolve IP via " ++ tick ++ "virsh domifaddr " ++ domain ++ tick ++
        " on " ++ via) (.source e))

def resolveDomainIp (kvmHost : Option String) (domain : String) : Remote Virt.Failure String :=
  resolveDomainIpWith (buildConnection kvmHost) (kvmHost.getD "this host (no KVM_HOST set)") domain

/-- The insertions of a loop over pairs. -/
def insertAll (pairs m : List (String × String)) : List (String × String) :=
  pairs.foldl (fun m p => p :: m) m

def resolveWorkers (kvmHost : Option String) :
    List String → List (String × String) → Remote Virt.Failure (List (String × String))
  | [], m => pure m
  | w :: ws, m => resolveDomainIp kvmHost w >>= fun ip => resolveWorkers kvmHost ws ((w, ip) :: m)

def liveWorkerIps (config : ClusterConfig) (kvmHost : Option String) (workerNames : List String) :
    Remote Virt.Failure (List (String × String)) :=
  match config.workerIps with
  | some ips =>
    if ips.length ≠ workerNames.length then
      Virt.bail ("WORKER_IPS (" ++ toString ips.length ++ ") and WORKER_NAMES (" ++
        toString workerNames.length ++ ") must be the same length")
    else pure (insertAll (workerNames.zip ips) [])
  | none => resolveWorkers kvmHost workerNames []

def atRuntime : String := "<resolved-at-runtime>"

/-- The host that lookups go through. -/
def lookupHost (args : Args) (config : ClusterConfig) : Option String :=
  (args.kvmHost.or config.kvmHost).filter (· ≠ "")

/-- The address of the control plane, and those of the workers. -/
def resolveIps (args : Args) (config : ClusterConfig) (workerNames : List String) :
    Remote Virt.Failure (String × List (String × String)) :=
  if args.dryRun then pure (atRuntime, insertAll (workerNames.map fun w => (w, atRuntime)) [])
  else
    (match config.cpIp.filter (· ≠ "") with
      | some ip => pure ip
      | none => resolveDomainIp (lookupHost args config) config.cpName) >>= fun cpIp =>
    liveWorkerIps config (lookupHost args config) workerNames >>= fun m => pure (cpIp, m)

def overrideFlag : String := "--node-name-override"

def parsePair (cpName : String) (workerNames : List String) (pair : String) :
    Except String (String × String) :=
  match splitOnce '=' pair with
  | none => .error (overrideFlag ++ " expects DOMAIN=NODE (got: '" ++ pair ++ "')")
  | some (dom, node) =>
    if dom = "" then .error (overrideFlag ++ " DOMAIN cannot be empty (got: '" ++ pair ++ "')")
    else if node = "" then .error (overrideFlag ++ " NODE cannot be empty (got: '" ++ pair ++ "')")
    else if dom = cpName ∨ dom ∈ workerNames then .ok (dom, node)
    else .error (overrideFlag ++ " DOMAIN '" ++ dom ++
      "' does not match CP_NAME or any WORKER_NAMES entry")

def splitComma (entry : String) : List String := (entry.toList.splitOn ',').map String.ofList

def parsePairs (cpName : String) (workerNames : List String) :
    List String → List (String × String) → Except String (List (String × String))
  | [], m => .ok m
  | pair :: pairs, m =>
    if pair = "" then parsePairs cpName workerNames pairs m
    else
      match parsePair cpName workerNames pair with
      | .error text => .error text
      | .ok p => parsePairs cpName workerNames pairs (p :: m)

/-- The loop over the values of `--node-name-override`. -/
def parseOverrides (cpName : String) (workerNames : List String) :
    List String → List (String × String) → Except String (List (String × String))
  | [], m => .ok m
  | entry :: entries, m =>
    if entry = "" then
      .error (overrideFlag ++ " requires a non-empty DOMAIN=NODE (or comma-separated list); " ++
        "got an empty string")
    else
      match parsePairs cpName workerNames (splitComma entry) m with
      | .error text => .error text
      | .ok m => parseOverrides cpName workerNames entries m

def resolveK8s (overrides : List (String × String)) (domain : String) : String :=
  (overrides.lookup domain).getD domain

/-- `Plan::from_args`, behind the checks of the flags. -/
def planOf (args : Args) (config : ClusterConfig) (timeouts : Timeouts) (parallel : UInt32) :
    Remote Virt.Failure Plan :=
  let workerNames := config.resolvedWorkerNames
  resolveIps args config workerNames >>= fun ips =>
  if args.startFrom.any fun sf => !workerNames.contains sf then
    Virt.bail ("--start-from=" ++ args.startFrom.getD "" ++ " did not match any WORKER_NAMES entry")
  else
    match parseOverrides config.cpName workerNames args.nodeNameOverride [] with
    | .error text => Virt.bail text
    | .ok overrides => pure {
        cpName := config.cpName
        cpIp := ips.1
        workerNames
        workerIpMap := ips.2
        workerK8sNameMap := insertAll (workerNames.map fun w => (w, resolveK8s overrides w)) []
        cpK8sName := resolveK8s overrides config.cpName
        workersOnly := args.workersOnly
        skipDrain := args.skipDrain
        skipGates := args.skipGates
        dryRun := args.dryRun
        continueOnError := args.continueOnError
        noDeleteEmptydirData := args.noDeleteEmptydirData
        nodeFilter := args.node
        startFrom := args.startFrom
        parallel
        kvmHost := args.kvmHost
        timeouts }

def fromArgs (args : Args) (config : ClusterConfig) (timeouts : Timeouts) : Remote Virt.Failure Plan :=
  let parallel := args.parallel.getD 1
  if args.workersOnly ∧ args.node.isSome then
    Virt.bail "--workers-only and --node= are mutually exclusive"
  else if args.node.isSome ∧ args.startFrom.isSome then
    Virt.bail ("--node= and --start-from= are mutually exclusive (--node is single-node mode; " ++
      "--start-from is resume mode)")
  else if parallel < 1 then
    Virt.bail ("--parallel=N requires a positive integer (got: " ++ toString parallel.toNat ++ ")")
  else planOf args config timeouts parallel

/-- A pair as it should be. -/
def IsOverride (cpName : String) (workerNames : List String) (pair : String) : Prop :=
  ∃ dom node, '=' ∉ dom.toList ∧ pair = dom ++ "=" ++ node ∧ dom ≠ "" ∧ node ≠ "" ∧
    (dom = cpName ∨ dom ∈ workerNames)

/-- The pairs of all values, from left to right. -/
def overridePairs (entries : List String) : List String :=
  (entries.flatMap splitComma).filter (· ≠ "")

/-- The values are refused. -/
def IsRefused (cpName : String) (workerNames entries : List String) : Prop :=
  "" ∈ entries ∨ ∃ pair ∈ overridePairs entries, ¬ IsOverride cpName workerNames pair

/-- The node that the last pair for a domain names, or else the domain itself. -/
def nodeName (entries : List String) (domain : String) : String :=
  (((overridePairs entries).filterMap (splitOnce '=')).reverse.lookup domain).getD domain

/-- The lease that a lookup of the run found. -/
def IsLease (conn : Connection) (t : Trace Reply) (w ip : String) : Prop :=
  ∃ e stdout address, conn.exchange (domifaddrCommand w) e ∈ t ∧
    conn.result (domifaddrCommand w) e = .ok stdout ∧
      parseDomifaddr stdout (domifaddrCommand w) = .ok (some address) ∧
        ip = String.ofList address.text

/-- The address is an entry of the worker's own, or its lease. -/
def IsOwn (args : Args) (config : ClusterConfig) (t : Trace Reply) (w ip : String) : Prop :=
  match config.workerIps with
  | some ips => ∃ i : Nat, config.resolvedWorkerNames[i]? = some w ∧ ips[i]? = some ip
  | none => IsLease (buildConnection (lookupHost args config)) t w ip

/-- What a plan has to satisfy. -/
structure IsSound (args : Args) (config : ClusterConfig) (t : Trace Reply) (plan : Plan) : Prop where
  names : plan.workerNames = config.resolvedWorkerNames
  recorded : ∀ w ∈ plan.workerNames, (plan.workerIpMap.lookup w).isSome
  nodes : ∀ w ∈ plan.workerNames,
    plan.workerK8sNameMap.lookup w = some (nodeName args.nodeNameOverride w)
  cp : plan.cpK8sName = nodeName args.nodeNameOverride config.cpName
  driven : ∀ w ∈ plan.workerNames, ∀ s u o s', Ends (runOneWorker plan w) s u o s' →
    ∃ ip r v, plan.workerIpMap.lookup w = some ip ∧
      u = ⟨.updateWorker w ip (nodeName args.nodeNameOverride w), r⟩ :: v
  own : ∀ w ip, plan.workerIpMap.lookup w = some ip → IsOwn args config t w ip
  nonEmpty : ∀ w ip, plan.workerIpMap.lookup w = some ip → ip ≠ ""
  accepted : ¬ IsRefused config.cpName config.resolvedWorkerNames args.nodeNameOverride
  refused : ∀ entries m, (∃ text, parseOverrides config.cpName config.resolvedWorkerNames entries m =
    .error text) ↔ IsRefused config.cpName config.resolvedWorkerNames entries

/-- `WORKER_IPS` is not set, or the last entry for each worker is not empty. -/
def EntriesGiven (config : ClusterConfig) : Prop := ∀ ips, config.workerIps = some ips →
  ∀ w, (config.resolvedWorkerNames.zip ips).reverse.lookup w ≠ some ""

section Overrides

variable {cpName pair entry : String} {workerNames pairs entries : List String}
  {m : List (String × String)}

theorem parsePair_ok {p : String × String} (h : parsePair cpName workerNames pair = .ok p) :
    IsOverride cpName workerNames pair ∧ splitOnce '=' pair = some p := by
  unfold parsePair at h
  split at h
  · cases h
  · next dom node hsplit =>
    split_ifs at h with hdom hnode hknown
    obtain rfl := Except.ok.inj h
    obtain ⟨heq, htext⟩ := splitOnce_iff.mp hsplit
    refine ⟨⟨dom, node, heq, String.toList_injective ?_, hdom, hnode, hknown⟩, hsplit⟩
    rw [htext, String.toList_append, String.toList_append, List.append_assoc]
    rfl

theorem parsePair_error {text : String} (h : parsePair cpName workerNames pair = .error text) :
    ¬ IsOverride cpName workerNames pair := by
  rintro ⟨dom, node, heq, rfl, hdom, hnode, hknown⟩
  have hsplit : splitOnce '=' (dom ++ "=" ++ node) = some (dom, node) := by
    refine splitOnce_iff.mpr ⟨heq, ?_⟩
    rw [String.toList_append, String.toList_append, List.append_assoc]
    rfl
  unfold parsePair at h
  rw [hsplit] at h
  dsimp only at h
  rw [if_neg hdom, if_neg hnode, if_pos hknown] at h
  cases h

/-- What reading a value comes to: all its pairs are taken, each in front of those before it, or one of
them is none. -/
def PairsRead (cpName : String) (workerNames pairs : List String) (m : List (String × String)) :
    Except String (List (String × String)) → Prop
  | .ok m' => (∀ pair ∈ pairs, pair ≠ "" → IsOverride cpName workerNames pair) ∧
      m' = ((pairs.filter (· ≠ "")).filterMap (splitOnce '=')).reverse ++ m
  | .error _ => ∃ pair ∈ pairs, pair ≠ "" ∧ ¬ IsOverride cpName workerNames pair

theorem parsePairs_reads (cpName : String) (workerNames pairs : List String)
    (m : List (String × String)) :
    PairsRead cpName workerNames pairs m (parsePairs cpName workerNames pairs m) := by
  induction pairs generalizing m with
  | nil => exact ⟨fun pair hpair => absurd hpair List.not_mem_nil, rfl⟩
  | cons pair pairs ih =>
    rw [parsePairs]
    by_cases hempty : pair = ""
    · have hrest := ih m
      rw [if_pos hempty]
      cases hr : parsePairs cpName workerNames pairs m with
      | error text =>
        rw [hr] at hrest
        obtain ⟨other, hmem, hne⟩ := hrest
        exact ⟨other, List.mem_cons_of_mem _ hmem, hne⟩
      | ok m' =>
        rw [hr] at hrest
        refine ⟨List.forall_mem_cons.mpr ⟨fun hne => absurd hempty hne, hrest.1⟩, ?_⟩
        rw [hrest.2, List.filter_cons_of_neg (by simpa using hempty)]
    · rw [if_neg hempty]
      cases hp : parsePair cpName workerNames pair with
      | error text => exact ⟨pair, List.mem_cons_self, hempty, parsePair_error hp⟩
      | ok p =>
        obtain ⟨hoverride, hsplit⟩ := parsePair_ok hp
        have hrest := ih (p :: m)
        dsimp only
        cases hr : parsePairs cpName workerNames pairs (p :: m) with
        | error text =>
          rw [hr] at hrest
          obtain ⟨other, hmem, hne⟩ := hrest
          exact ⟨other, List.mem_cons_of_mem _ hmem, hne⟩
        | ok m' =>
          rw [hr] at hrest
          refine ⟨List.forall_mem_cons.mpr ⟨fun _ => hoverride, hrest.1⟩, ?_⟩
          rw [hrest.2, List.filter_cons_of_pos (by simpa using hempty), List.filterMap_cons, hsplit]
          simp

theorem mem_overridePairs : pair ∈ overridePairs entries ↔
    ∃ entry ∈ entries, pair ∈ splitComma entry ∧ pair ≠ "" := by
  simp only [overridePairs, List.mem_filter, List.mem_flatMap, decide_eq_true_eq]
  constructor
  · rintro ⟨⟨entry, hentry, hpair⟩, hne⟩
    exact ⟨entry, hentry, hpair, hne⟩
  · rintro ⟨entry, hentry, hpair, hne⟩
    exact ⟨⟨entry, hentry, hpair⟩, hne⟩

theorem isRefused_nil : ¬ IsRefused cpName workerNames [] := by
  rintro (h | ⟨pair, hpair, -⟩)
  · exact List.not_mem_nil h
  · exact List.not_mem_nil hpair

theorem isRefused_cons (hempty : entry ≠ "")
    (hgood : ∀ pair ∈ splitComma entry, pair ≠ "" → IsOverride cpName workerNames pair) :
    IsRefused cpName workerNames (entry :: entries) ↔ IsRefused cpName workerNames entries := by
  constructor
  · rintro (h | ⟨pair, hmem, hbad⟩)
    · exact .inl ((List.mem_cons.mp h).resolve_left hempty.symm)
    · obtain ⟨other, hother, hpair, hne⟩ := mem_overridePairs.mp hmem
      obtain rfl | hother := List.mem_cons.mp hother
      · exact absurd (hgood pair hpair hne) hbad
      · exact .inr ⟨pair, mem_overridePairs.mpr ⟨other, hother, hpair, hne⟩, hbad⟩
  · rintro (h | ⟨pair, hmem, hbad⟩)
    · exact .inl (List.mem_cons_of_mem _ h)
    · obtain ⟨other, hother, h⟩ := mem_overridePairs.mp hmem
      exact .inr ⟨pair, mem_overridePairs.mpr ⟨other, List.mem_cons_of_mem _ hother, h⟩, hbad⟩

/-- What reading all values comes to. -/
def OverridesRead (cpName : String) (workerNames entries : List String)
    (m : List (String × String)) : Except String (List (String × String)) → Prop
  | .ok m' => ¬ IsRefused cpName workerNames entries ∧
      m' = ((overridePairs entries).filterMap (splitOnce '=')).reverse ++ m
  | .error _ => IsRefused cpName workerNames entries

theorem parseOverrides_reads (cpName : String) (workerNames entries : List String)
    (m : List (String × String)) :
    OverridesRead cpName workerNames entries m (parseOverrides cpName workerNames entries m) := by
  induction entries generalizing m with
  | nil => exact ⟨isRefused_nil, rfl⟩
  | cons entry entries ih =>
    rw [parseOverrides]
    by_cases hempty : entry = ""
    · rw [if_pos hempty]
      exact .inl (hempty ▸ List.mem_cons_self)
    rw [if_neg hempty]
    have hpairs := parsePairs_reads cpName workerNames (splitComma entry) m
    cases hp : parsePairs cpName workerNames (splitComma entry) m with
    | error text =>
      rw [hp] at hpairs
      obtain ⟨pair, hmem, hne, hbad⟩ := hpairs
      exact .inr ⟨pair, mem_overridePairs.mpr ⟨entry, List.mem_cons_self, hmem, hne⟩, hbad⟩
    | ok m₁ =>
      rw [hp] at hpairs
      obtain ⟨hgood, hm₁⟩ := hpairs
      have hrest := ih m₁
      dsimp only
      cases hr : parseOverrides cpName workerNames entries m₁ with
      | error text =>
        rw [hr] at hrest
        exact (isRefused_cons hempty hgood).mpr hrest
      | ok m₂ =>
        rw [hr] at hrest
        refine ⟨fun h => hrest.1 ((isRefused_cons hempty hgood).mp h), ?_⟩
        rw [hrest.2, hm₁, overridePairs, overridePairs, List.flatMap_cons, List.filter_append,
          List.filterMap_append, List.reverse_append, List.append_assoc]

theorem parseOverrides_error_iff : (∃ text, parseOverrides cpName workerNames entries m = .error text) ↔
    IsRefused cpName workerNames entries := by
  have hreads := parseOverrides_reads cpName workerNames entries m
  cases h : parseOverrides cpName workerNames entries m with
  | error text =>
    rw [h] at hreads
    exact iff_of_true ⟨text, rfl⟩ hreads
  | ok m' =>
    rw [h] at hreads
    refine iff_of_false ?_ hreads.1
    rintro ⟨text, ht⟩
    cases ht

end Overrides

section Run

variable {args : Args} {config : ClusterConfig} {conn : Connection} {kvmHost : Option String}
  {w domain ip via : String} {ws : List String} {pairs m m' : List (String × String)}
  {t t' : Trace Reply} {timeouts : Timeouts} {plan : Plan}

theorem insertAll_eq (pairs m : List (String × String)) : insertAll pairs m = pairs.reverse ++ m := by
  rw [insertAll]
  induction pairs generalizing m with
  | nil => rfl
  | cons p pairs ih => rw [List.foldl_cons, ih, List.reverse_cons, List.append_assoc, List.singleton_append]

theorem mem_of_lookup (h : m.lookup w = some ip) : (w, ip) ∈ m := by
  obtain ⟨l₁, l₂, rfl, -⟩ := List.lookup_eq_some_iff.mp h
  simp

theorem isSome_lookup (h : w ∈ pairs.map Prod.fst) : (pairs.reverse.lookup w).isSome := by
  obtain ⟨p, hp, rfl⟩ := List.mem_map.mp h
  exact List.lookup_isSome_iff.mpr ⟨p, List.mem_reverse.mpr hp, by simp⟩

/-- A map in which every name has what `g` says of it. -/
theorem lookup_insertAll_map {g : String → String} (h : w ∈ ws) :
    (insertAll (ws.map fun w => (w, g w)) []).lookup w = some (g w) := by
  rw [insertAll_eq, List.append_nil]
  have hfst : w ∈ (ws.map fun w => (w, g w)).map Prod.fst := by simpa using h
  have hsome := isSome_lookup hfst
  obtain ⟨v, hv⟩ := Option.isSome_iff_exists.mp hsome
  obtain ⟨w', -, hw'⟩ := List.mem_map.mp (List.mem_reverse.mp (mem_of_lookup hv))
  obtain ⟨rfl, rfl⟩ := Prod.mk.inj hw'
  exact hv

theorem IsLease.mono (h : IsLease conn t w ip) (ht : ∀ x ∈ t, x ∈ t') : IsLease conn t' w ip := by
  obtain ⟨e, stdout, address, he, h⟩ := h
  exact ⟨e, stdout, address, ht _ he, h⟩

theorem IsLease.ne (h : IsLease conn t w ip) : ip ≠ "" := by
  obtain ⟨-, -, address, -, -, -, rfl⟩ := h
  intro hempty
  have htext : address.text = [] := by
    rw [← String.toList_ofList (l := address.text), hempty]
    rfl
  have hvalid := address.valid
  rw [htext] at hvalid
  revert hvalid
  decide

theorem finishes_resolveDomainIp (h : Finishes (resolveDomainIpWith conn via domain) t (.ok ip)) :
    IsLease conn t domain ip := by
  obtain ⟨r, t₁, t₂, rfl, h₁, h₂⟩ := finishes_outcome_bind.mp h
  cases r with
  | error e => cases (finishes_throw.mp h₂).2
  | ok found =>
    cases found with
    | none => cases (finishes_throw.mp h₂).2
    | some address =>
      obtain ⟨rfl, hip⟩ := finishes_pure.mp h₂
      obtain ⟨stdout, t₃, t₄, rfl, h₃, h₄⟩ := finishes_bind_ok.mp h₁
      obtain ⟨e, rfl, hresult⟩ := Connection.finishes_run.mp h₃
      obtain ⟨rfl, hparse⟩ := runs_done.mp h₄
      exact ⟨e, stdout, address, by simp, hresult.symm, hparse.symm, Except.ok.inj hip⟩

theorem finishes_resolveWorkers (h : Finishes (resolveWorkers kvmHost ws m) t (.ok m')) :
    ∃ pairs : List (String × String), m' = pairs.reverse ++ m ∧ pairs.map Prod.fst = ws ∧
      ∀ p ∈ pairs, IsLease (buildConnection kvmHost) t p.1 p.2 := by
  induction ws generalizing m t with
  | nil =>
    obtain ⟨rfl, hm⟩ := finishes_pure.mp h
    exact ⟨[], (Except.ok.inj hm), rfl, fun p hp => absurd hp List.not_mem_nil⟩
  | cons w ws ih =>
    obtain ⟨ip, t₁, t₂, rfl, h₁, h₂⟩ := finishes_bind_ok.mp h
    obtain ⟨pairs, rfl, rfl, hpairs⟩ := ih h₂
    refine ⟨(w, ip) :: pairs, by simp, rfl, List.forall_mem_cons.mpr ⟨?_, fun p hp => ?_⟩⟩
    · exact (finishes_resolveDomainIp h₁).mono fun x hx => List.mem_append_left _ hx
    · exact (hpairs p hp).mono fun x hx => List.mem_append_right _ hx

/-- The map of a live run: a pair for each worker, the entries of `WORKER_IPS` or leases. -/
theorem finishes_liveWorkerIps
    (h : Finishes (liveWorkerIps config kvmHost config.resolvedWorkerNames) t (.ok m)) :
    ∃ pairs : List (String × String), m = pairs.reverse ∧
      pairs.map Prod.fst = config.resolvedWorkerNames ∧
      (∀ ips, config.workerIps = some ips → pairs = config.resolvedWorkerNames.zip ips) ∧
      (config.workerIps = none → ∀ p ∈ pairs, IsLease (buildConnection kvmHost) t p.1 p.2) := by
  rw [liveWorkerIps] at h
  cases hips : config.workerIps with
  | none =>
    rw [hips] at h
    obtain ⟨pairs, rfl, hnames, hpairs⟩ := finishes_resolveWorkers h
    exact ⟨pairs, List.append_nil _, hnames, fun _ => nofun, fun _ => hpairs⟩
  | some ips =>
    rw [hips] at h
    dsimp only at h
    split_ifs at h with hlen
    · cases (finishes_throw.mp h).2
    · obtain ⟨rfl, hm⟩ := finishes_pure.mp h
      rw [insertAll_eq, List.append_nil] at hm
      refine ⟨_, Except.ok.inj hm, List.map_fst_zip (by omega), ?_, nofun⟩
      intro ips' hsame
      obtain rfl := Option.some.inj hsame
      rfl

/-- What the checks in front of the plan leave of a run that makes one. -/
theorem finishes_fromArgs (h : Finishes (fromArgs args config timeouts) t (.ok plan)) :
    Finishes (planOf args config timeouts (args.parallel.getD 1)) t (.ok plan) := by
  unfold fromArgs at h
  dsimp only at h
  split_ifs at h
  · cases (finishes_throw.mp h).2
  · cases (finishes_throw.mp h).2
  · cases (finishes_throw.mp h).2
  · exact h

/-- The fields of a plan that come out of the names, the addresses and the overrides. -/
theorem finishes_planOf {parallel : UInt32}
    (h : Finishes (planOf args config timeouts parallel) t (.ok plan)) :
    ∃ ips overrides, Finishes (resolveIps args config config.resolvedWorkerNames) t (.ok ips) ∧
      parseOverrides config.cpName config.resolvedWorkerNames args.nodeNameOverride [] =
        .ok overrides ∧
      plan.workerNames = config.resolvedWorkerNames ∧ plan.workerIpMap = ips.2 ∧
      plan.workerK8sNameMap =
        insertAll (config.resolvedWorkerNames.map fun w => (w, resolveK8s overrides w)) [] ∧
      plan.cpK8sName = resolveK8s overrides config.cpName := by
  unfold planOf at h
  dsimp only at h
  obtain ⟨ips, t₁, t₂, rfl, hips, h⟩ := finishes_bind_ok.mp h
  split_ifs at h
  · cases (finishes_throw.mp h).2
  · cases ho : parseOverrides config.cpName config.resolvedWorkerNames args.nodeNameOverride [] with
    | error text =>
      rw [ho] at h
      cases (finishes_throw.mp h).2
    | ok overrides =>
      rw [ho] at h
      obtain ⟨rfl, hplan⟩ := finishes_pure.mp h
      obtain rfl := Except.ok.inj hplan
      exact ⟨ips, overrides, by rwa [List.append_nil], rfl, rfl, rfl, rfl, rfl⟩

/-- A live run resolves the workers with the lookup host, after the control plane. -/
theorem finishes_resolveIps {names : List String} {ips : String × List (String × String)}
    (hlive : args.dryRun = false) (h : Finishes (resolveIps args config names) t (.ok ips)) :
    ∃ t₂, (∀ x ∈ t₂, x ∈ t) ∧
      Finishes (liveWorkerIps config (lookupHost args config) names) t₂ (.ok ips.2) := by
  rw [resolveIps, hlive, if_neg Bool.false_ne_true] at h
  obtain ⟨cpIp, t₁, t₂, rfl, -, h⟩ := finishes_bind_ok.mp h
  obtain ⟨m, t₃, t₄, rfl, hm, h⟩ := finishes_bind_ok.mp h
  obtain ⟨-, hips⟩ := finishes_pure.mp h
  obtain rfl := Except.ok.inj hips
  exact ⟨t₃, fun x hx => List.mem_append_right _ (List.mem_append_left _ hx), hm⟩

/-- A worker on record is updated: the check in front of it does not fail. -/
theorem runOneWorker_drives {node : String} {s s' : Results} {u : Trace NodeOp.Result}
    {o : Except Failure Unit} (hip : plan.workerIpMap.lookup w = some ip)
    (hnode : plan.workerK8sNameMap.lookup w = some node) (h : Ends (runOneWorker plan w) s u o s') :
    ∃ r v, u = ⟨.updateWorker w ip node, r⟩ :: v := by
  unfold runOneWorker at h
  rw [hip, hnode] at h
  obtain ⟨r, v, rfl, -⟩ := ends_attemptNode_bind h
  exact ⟨r, v, rfl⟩

theorem isOwn_of_mem_zip {ips : List String} (hips : config.workerIps = some ips)
    (h : (w, ip) ∈ config.resolvedWorkerNames.zip ips) : IsOwn args config t w ip := by
  obtain ⟨i, hi⟩ := List.mem_iff_getElem?.mp h
  obtain ⟨hw, hip⟩ := List.getElem?_zip_eq_some.mp hi
  rw [IsOwn, hips]
  exact ⟨i, hw, hip⟩

/-- Two workers with addresses of their own. -/
def sampleConfig (workerIps : List String) : ClusterConfig where
  cpName := "cp"
  sshPubkeyFile := ""
  kvmHost := none
  imageSource := "local"
  ghcrTag := "latest"
  enableCloudInit := 1
  autoUpdateCp := false
  switchToGhcr := false
  cpMemory := 4096
  cpVcpus := 2
  workerMemory := 4096
  workerVcpus := 2
  poolDir := ""
  runVerify := false
  bootcUpdateSchedule := none
  bootcUpdateRepoK8s := none
  bootcUpdateRepoWorker := none
  workerNames := some ["w1", "w2"]
  cpIp := some "10.0.0.2"
  podCidr := none
  serviceCidr := none
  workerIps := some workerIps
  cpMac := none
  workerMacs := none
  extraNetwork := none
  extraNetCpMac := none
  extraNetCpIp := none
  extraNetWorkerMacs := none
  extraNetWorkerIps := none
  warnings := []

def sampleArgs : Args where
  node := none
  startFrom := none
  parallel := none
  nodeNameOverride := ["w1=n1,w2=n2", "w1=n3"]
  workersOnly := false
  skipDrain := false
  skipGates := false
  dryRun := false
  continueOnError := false
  noDeleteEmptydirData := false
  kvmHost := none

/-- The plan made of the two. -/
def samplePlan (ip₁ ip₂ : String) : Plan :=
  { Plan.sample with
    workerNames := ["w1", "w2"]
    workerIpMap := [("w2", ip₂), ("w1", ip₁)]
    workerK8sNameMap := [("w2", "n2"), ("w1", "n3")] }

/-- A live plan is sound exactly when `WORKER_IPS`, where it is set, leaves no worker with an empty
entry. -/
theorem fromArgs_isSound_iff (args : Args) (config : ClusterConfig) (timeouts : Timeouts)
    (hlive : args.dryRun = false) {t : Trace Reply} {plan : Plan}
    (h : Finishes (fromArgs args config timeouts) t (.ok plan)) :
    IsSound args config t plan ↔ EntriesGiven config := by
  obtain ⟨ips, overrides, hips, ho, hnames, hmap, hk8s, hcp⟩ := finishes_planOf (finishes_fromArgs h)
  obtain ⟨t₂, ht₂, hworkers⟩ := finishes_resolveIps hlive hips
  obtain ⟨pairs, hpairs, hfst, hgiven, hleases⟩ := finishes_liveWorkerIps hworkers
  rw [hpairs] at hmap
  have hreads := parseOverrides_reads config.cpName config.resolvedWorkerNames args.nodeNameOverride []
  rw [ho, OverridesRead, List.append_nil] at hreads
  have hnode : ∀ w, resolveK8s overrides w = nodeName args.nodeNameOverride w := by
    intro w
    rw [resolveK8s, nodeName, hreads.2]
  have hmem : ∀ {w ip}, plan.workerIpMap.lookup w = some ip → (w, ip) ∈ pairs := by
    intro w ip hlookup
    rw [hmap] at hlookup
    exact List.mem_reverse.mp (mem_of_lookup hlookup)
  have hrecorded : ∀ w ∈ plan.workerNames, (plan.workerIpMap.lookup w).isSome := by
    intro w hw
    rw [hmap]
    exact isSome_lookup (by rwa [hfst, ← hnames])
  have hnodes : ∀ w ∈ plan.workerNames,
      plan.workerK8sNameMap.lookup w = some (nodeName args.nodeNameOverride w) := by
    intro w hw
    rw [hk8s, lookup_insertAll_map (hnames ▸ hw), hnode]
  constructor
  · intro hsound ips' hips' w hw
    rw [← hgiven ips' hips', ← hmap] at hw
    exact hsound.nonEmpty w "" hw rfl
  · intro hentries
    refine ⟨hnames, hrecorded, hnodes, hcp.trans (hnode _), ?_, ?_, ?_, hreads.1,
      fun _ _ => parseOverrides_error_iff⟩
    · intro w hw s u o s' hends
      obtain ⟨ip, hip⟩ := Option.isSome_iff_exists.mp (hrecorded w hw)
      obtain ⟨r, v, hu⟩ := runOneWorker_drives hip (hnodes w hw) hends
      exact ⟨ip, r, v, hip, hu⟩
    · intro w ip hlookup
      cases hset : config.workerIps with
      | some ips' => exact isOwn_of_mem_zip hset (hgiven ips' hset ▸ hmem hlookup)
      | none =>
        rw [IsOwn, hset]
        exact (hleases hset _ (hmem hlookup)).mono ht₂
    · intro w ip hlookup hempty
      cases hset : config.workerIps with
      | some ips' =>
        refine hentries ips' hset w ?_
        rw [← hgiven ips' hset, ← hmap, hlookup, hempty]
      | none => exact (hleases hset _ (hmem hlookup)).ne hempty

theorem sample_finishes (ip₁ ip₂ : String) :
    Finishes (fromArgs sampleArgs (sampleConfig [ip₁, ip₂]) .default) []
      (.ok (samplePlan ip₁ ip₂)) := by
  have hips : resolveIps sampleArgs (sampleConfig [ip₁, ip₂]) ["w1", "w2"] =
      pure ("10.0.0.2", [("w2", ip₂), ("w1", ip₁)]) := rfl
  have hoverrides : parseOverrides "cp" ["w1", "w2"] ["w1=n1,w2=n2", "w1=n3"] [] =
      .ok [("w1", "n3"), ("w2", "n2"), ("w1", "n1")] := by
    decide +kernel
  have hplan : fromArgs sampleArgs (sampleConfig [ip₁, ip₂]) .default =
      planOf sampleArgs (sampleConfig [ip₁, ip₂]) .default 1 := rfl
  rw [hplan]
  unfold planOf
  dsimp only [ClusterConfig.resolvedWorkerNames, sampleConfig]
  change Finishes (resolveIps sampleArgs (sampleConfig [ip₁, ip₂]) ["w1", "w2"] >>= _) _ _
  rw [hips, pure_bind, sampleArgs, hoverrides]
  exact finishes_pure.mpr ⟨rfl, rfl⟩

theorem fromArgs_isSound_sample : sampleArgs.dryRun = false ∧
    (IsSound sampleArgs (sampleConfig ["10.0.0.3", "10.0.0.4"]) [] (samplePlan "10.0.0.3" "10.0.0.4") ↔
      EntriesGiven (sampleConfig ["10.0.0.3", "10.0.0.4"])) :=
  ⟨rfl, fromArgs_isSound_iff _ _ .default rfl (sample_finishes "10.0.0.3" "10.0.0.4")⟩

/-- An entry of `WORKER_IPS` that is empty is recorded as the worker's address. -/
theorem fromArgs_recordsEmpty :
    Finishes (fromArgs sampleArgs (sampleConfig ["10.0.0.3", ""]) .default) []
        (.ok (samplePlan "10.0.0.3" "")) ∧
      ¬ IsSound sampleArgs (sampleConfig ["10.0.0.3", ""]) [] (samplePlan "10.0.0.3" "") := by
  refine ⟨sample_finishes "10.0.0.3" "", fun hsound => ?_⟩
  exact hsound.nonEmpty "w2" "" (by decide +kernel) rfl

end Run

end Hbird.UpdateCluster.FromArgs
