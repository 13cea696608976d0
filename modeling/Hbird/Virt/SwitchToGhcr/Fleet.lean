import Hbird.Interaction.Secured
import Hbird.Virt.SpawnRuns
import Hbird.Virt.SwitchToGhcr.Visits

namespace Hbird.Virt.SwitchToGhcr

open Hbird.Interaction Hbird.Shell Hbird.Ssh
open Hbird.UpdateCluster.FromArgs (domifaddr domifaddrCommand)
open Hbird.Domifaddr (parseDomifaddr)
open Hbird.Virt.SpawnWorkers (shellQuote_injective)

/-- What `bootc` keeps on a VM: the image it runs, and the one it will boot next. -/
structure Vm where
  booted : String
  next : String
  deriving DecidableEq, Repr

/-- The VMs by their names. -/
abbrev Fleet := String → Vm

/-- The words of the command; `bootc` takes the ref for no option. -/
def Switches (command ref : String) : Prop :=
  argv noBraces command.toList = some (["bootc", "switch", ref].map String.toList) ∧
    ref.toList.head? ≠ some '-'

/-- What a VM does on the commands that are meant for it. A switch that fails may have staged its
image all the same. -/
structure Answers (vm : Vm) (command : String) (e : ProcessEnd) (vm' : Vm) : Prop where
  alive : command = "true" → vm' = vm
  status : command = bootcStatusCmd → vm' = vm ∧ ∀ status stdout stderr image,
    e = .exited status stdout stderr → parseBootedImage stdout = some image → image = vm.booted
  switch : ∀ ref, Switches command ref → vm'.booted = vm.booted ∧
    (vm'.next = vm.next ∨ vm'.next = ref) ∧
    ∀ stdout stderr, e = .exited (.code 0) stdout stderr → vm'.next = ref

/-- The lease that `virsh` shows of a VM is one at which that VM answers. -/
def Leased (owner : String → String) (named : Set String) (command : String) (e : ProcessEnd) :
    Prop :=
  ∀ name ∈ named, command = domifaddrCommand name → ∀ stdout stderr ip,
    e = .exited (.code 0) stdout stderr → parseDomifaddr stdout command = .ok (some ip) →
      owner (String.ofList ip.text) = name

/-- The VMs behind their addresses, and the KVM host; `named` are the names that `virsh` takes
literally. -/
inductive Serves (owner : String → String) (named : Set String) : World Fleet Reply
  | vm {s s' : Fleet} {o : SshOptions} {command : String} {stdin : Option String} {e : ProcessEnd}
      (hroot : o.user = some "root")
      (hvm : Answers (s (owner o.host)) command e (s' (owner o.host)))
      (hothers : ∀ n, n ≠ owner o.host → s' n = s n) : Serves owner named s (.ssh o command stdin) e s'
  | host {s : Fleet} {o : SshOptions} {command : String} {stdin : Option String} {e : ProcessEnd}
      (hhost : o.user = none) (hl : Leased owner named command e) :
      Serves owner named s (.ssh o command stdin) e s
  | onHost {s : Fleet} {command : String} {e : ProcessEnd} (hl : Leased owner named command e) :
      Serves owner named s (.sh command) e s

/-- The fleet as a client with these options finds it. -/
abbrev Behind (owner : String → String) (named : Set String) (o : SshOptions) :
    World Fleet ExecReply :=
  World.through (Serves owner named) (Client.serve o)

section Switch

variable {owner : String → String} {named : Set String} {s s' : Fleet} {conn : Connection}
  {plan : Plan} {name ghcrRef ip command : String} {o : SshOptions} {e : ProcessEnd}

theorem leased_of_serves (h : Leads (Serves owner named) s [conn.exchange command e] s') :
    s' = s ∧ Leased owner named command e := by
  obtain ⟨s₁, h, hnil⟩ := leads_cons.mp h
  obtain rfl := leads_nil.mp hnil
  cases conn with
  | remote host =>
    cases h with
    | vm hroot => cases hroot
    | host _ hl => exact ⟨rfl, hl⟩
  | onHost =>
    cases h with
    | onHost hl => exact ⟨rfl, hl⟩

theorem wpe_domifaddr (hnamed : name ∈ named) : wpe (Serves owner named) (domifaddr conn name)
    (fun r s' => s' = s ∧ ∀ ip, r = .ok (some ip) → owner (String.ofList ip.text) = name) s := by
  refine wpe_bind.mpr (wpe_iff.mpr fun t r s' hf hl => ?_)
  obtain ⟨e, rfl, rfl⟩ := Connection.finishes_run.mp hf
  obtain ⟨rfl, hleased⟩ := leased_of_serves hl
  cases hr : conn.result (domifaddrCommand name) e with
  | error err => exact ⟨rfl, nofun⟩
  | ok stdout =>
    obtain ⟨stderr, rfl⟩ := Connection.exits_of_result_ok hr
    exact ⟨rfl, fun ip hip => hleased name hnamed rfl stdout stderr ip rfl hip⟩

/-- The wait for a lease ends with an address at which the VM answers. -/
theorem wpe_waitForIpWith {ε : Type} (hnamed : name ∈ named) (n : Nat) :
    wpe (Serves owner named) (waitForIpWith (ε := ε) conn name n)
      (fun r s' => s' = s ∧ ∃ a, r = .ok a ∧
        ∀ ip, a = some ip → owner (String.ofList ip.text) = name) s := by
  have hprobe : ∀ s₁, s₁ = s → wpe (Serves owner named) (attempt (domifaddr conn name) leased)
      (Leaves (fun ip s' => s' = s ∧ owner (String.ofList ip.text) = name) (· = s)) s₁ := by
    rintro s₁ rfl
    refine wpe_bind.mpr (wpe_outcome.mpr (wpe_mono (wpe_domifaddr hnamed) fun r s' hr => ?_))
    obtain ⟨rfl, hip⟩ := hr
    rcases r with err | (_ | ip)
    · rfl
    · rfl
    · exact ⟨rfl, hip ip rfl⟩
  refine wpe_bind.mpr (wpe_outcome.mpr (wpe_mono (wpe_tries hprobe n () rfl) fun r s' hr => ?_))
  cases r with
  | error b => exact ⟨hr, none, rfl, nofun⟩
  | ok ip => exact ⟨hr.1, some ip, rfl, fun ip' h => Option.some.inj h ▸ hr.2⟩

/-- One command on a VM. -/
theorem wpe_sshExec {O : Except Ssh.Error RunOutput → Fleet → Prop} (hi : o.identityFile = none)
    (hroot : o.user = some "root") (howner : owner o.host = name)
    (h : ∀ e s', Answers (s name) command e (s' name) → (∀ n, n ≠ name → s' n = s n) →
      O (endResult o e) s') :
    wpe (Behind owner named o) (SshExec.run command) O s := by
  refine wpe_iff.mpr fun t r s' hf hl => ?_
  obtain rfl := finishes_sshExec_run.mp hf
  obtain ⟨s₁, ⟨u, hu, hserve⟩, hend⟩ := leads_cons.mp hl
  obtain rfl := leads_nil.mp hend
  obtain ⟨e, rfl, rfl⟩ := (runs_serve hi).mp hu
  obtain ⟨s₂, hs, hnil⟩ := leads_cons.mp hserve
  obtain rfl := leads_nil.mp hnil
  cases hs with
  | vm _ hvm hothers =>
    rw [howner] at hvm hothers
    exact h e _ hvm hothers
  | host hhost => rw [hroot] at hhost; cases hhost

theorem fleet_ext (h : s' name = s name) (hothers : ∀ n, n ≠ name → s' n = s n) : s' = s := by
  funext n
  by_cases hn : n = name
  · rw [hn, h]
  · exact hothers n hn

theorem wpe_waitForSshWith {ε : Type} (hi : o.identityFile = none) (hroot : o.user = some "root")
    (n : Nat) : wpe (Behind owner named o) (waitForSshWith (ε := ε) n)
      (fun _ s' => s' = s) s := by
  have hprobe : ∀ s₁, s₁ = s → wpe (Behind owner named o)
      (attempt (SshExec.run "true") isUp) (Leaves (fun _ s' => s' = s) (· = s)) s₁ := by
    rintro s₁ rfl
    refine wpe_bind.mpr (wpe_outcome.mpr (wpe_sshExec hi hroot rfl fun e s' hvm hothers => ?_))
    have hs : s' = s₁ := fleet_ext (hvm.alive rfl) hothers
    cases endResult o e with
    | ok out => exact hs
    | error err => exact hs
  refine wpe_bind.mpr (wpe_bind.mpr (wpe_outcome.mpr
    (wpe_mono (wpe_tries hprobe n () rfl) fun r s' hr => ?_)))
  cases r with
  | ok u => exact hr
  | error b => exact hr

theorem reported_endResult {image : String} (h : reported (endResult o e) = some image) :
    ∃ status stdout stderr, e = .exited status stdout stderr ∧
      parseBootedImage stdout = some image := by
  cases e with
  | exited status stdout stderr =>
    refine ⟨status, stdout, stderr, rfl, ?_⟩
    cases hs : status.success <;> simpa [endResult, hs, reported] using h
  | _ => cases h

theorem wpe_currentImageRefWithExec {ε : Type} (hi : o.identityFile = none)
    (hroot : o.user = some "root") (howner : owner o.host = name) :
    wpe (Behind owner named o) (currentImageRefWithExec (ε := ε))
      (fun r s' => s' = s ∧ ∃ a, r = .ok a ∧ ∀ image, a = some image → image = (s name).booted) s := by
  refine wpe_bind.mpr (wpe_outcome.mpr (wpe_sshExec hi hroot howner fun e s' hvm hothers => ?_))
  obtain ⟨hsame, hread⟩ := hvm.status rfl
  refine ⟨fleet_ext hsame hothers, _, rfl, fun image himage => ?_⟩
  obtain ⟨status, stdout, stderr, rfl, hparse⟩ := reported_endResult himage
  exact hread status stdout stderr image rfl hparse

theorem switches_switchCommand (hplain : ghcrRef.toList.head? ≠ some '-') :
    Switches (switchCommand ghcrRef) ghcrRef := by
  refine ⟨?_, hplain⟩
  have hbootc : Denotes "bootc".toList "bootc".toList := (spells_fixed (by decide) (by decide)).denotes
  have hswitch : Denotes "switch".toList "switch".toList :=
    (spells_fixed (by decide) (by decide)).denotes
  have hhead : "bootc switch " = "bootc" ++ " " ++ "switch" ++ " " := by decide +kernel
  have htext : switchCommand ghcrRef =
      " ".intercalate ["bootc", "switch", shellSingleQuote ghcrRef] := by
    simp only [switchCommand, hhead, String.intercalate_cons_cons, String.intercalate_singleton,
      String.append_assoc]
  rw [htext]
  exact argv_intercalate (.cons hbootc (.cons hswitch
    (.cons (denotes_shellSingleQuote ghcrRef) .nil))) (List.cons_ne_nil _ _)

/-- What a part of a run has done to the fleet: it moved no VM but as `wanted`. -/
structure Moves (wanted : String → String → Prop) (s s' : Fleet) : Prop where
  booted : ∀ n, (s' n).booted = (s n).booted
  next : ∀ n, (s' n).next = (s n).next ∨ wanted n (s' n).next

/-- The VM will boot that image next, or it runs it and nothing was done. -/
def Settled (ghcrRef : String) (vm vm' : Vm) : Prop :=
  vm'.next = ghcrRef ∨ vm.booted = ghcrRef ∧ vm'.next = vm.next

theorem Moves.refl {wanted : String → String → Prop} : Moves wanted s s :=
  ⟨fun _ => rfl, fun _ => .inl rfl⟩

theorem Moves.trans {wanted : String → String → Prop} {s'' : Fleet} (h : Moves wanted s s')
    (h' : Moves wanted s' s'') : Moves wanted s s'' where
  booted n := (h'.booted n).trans (h.booted n)
  next n := (h'.next n).elim (fun hn => hn ▸ h.next n) .inr

theorem moves_of_switch {e : ProcessEnd} (hplain : ghcrRef.toList.head? ≠ some '-')
    (hvm : Answers (s name) (switchCommand ghcrRef) e (s' name))
    (hothers : ∀ n, n ≠ name → s' n = s n) :
    Moves (fun n r => n = name ∧ r = ghcrRef) s s' := by
  obtain ⟨hbooted, hnext, -⟩ := hvm.switch ghcrRef (switches_switchCommand hplain)
  refine ⟨fun n => ?_, fun n => ?_⟩
  · by_cases hn : n = name
    · rw [hn, hbooted]
    · rw [hothers n hn]
  · by_cases hn : n = name
    · subst hn
      exact hnext.imp_right fun h => ⟨rfl, h⟩
    · exact .inl (by rw [hothers n hn])

/-- What switching one VM has come to. -/
def Came (name ghcrRef : String) (s : Fleet) : Except Failure SwitchOutcome → Fleet → Prop :=
  Leaves (fun out s' => Moves (fun n r => n = name ∧ r = ghcrRef) s s' ∧
      Settled ghcrRef (s name) (s' name) ∧
      ∀ before after, out = .switched before after →
        (∀ image, before = some image → image = (s name).booted) ∧
        ∀ image, after = some image → image = (s name).booted)
    (Moves (fun n r => n = name ∧ r = ghcrRef) s)

theorem wpe_switchOneWithExec (hi : o.identityFile = none) (hroot : o.user = some "root")
    (howner : owner o.host = name) (hplain : ghcrRef.toList.head? ≠ some '-') :
    wpe (Behind owner named o) (switchOneWithExec name ghcrRef) (Came name ghcrRef s) s := by
  refine wpe_bind.mpr (wpe_mono (wpe_currentImageRefWithExec hi hroot howner) fun r s₁ hr => ?_)
  obtain ⟨rfl, before, rfl, hbefore⟩ := hr
  by_cases hsame : before = some ghcrRef
  · dsimp only
    rw [if_pos hsame]
    exact ⟨.refl, .inr ⟨(hbefore ghcrRef hsame).symm, rfl⟩, nofun⟩
  dsimp only
  rw [if_neg hsame]
  refine wpe_bind.mpr (wpe_context.mpr (wpe_sshExec hi hroot howner fun e s₂ hvm hothers => ?_))
  have hmoves := moves_of_switch hplain hvm hothers
  cases hend : endResult o e with
  | error err => exact hmoves
  | ok out =>
    obtain ⟨hstatus, rfl⟩ := endResult_ok.mp hend
    obtain ⟨hbooted, -, hdone⟩ := hvm.switch ghcrRef (switches_switchCommand hplain)
    have hnext := hdone _ _ (by rw [hstatus])
    refine wpe_bind.mpr (wpe_mono (wpe_currentImageRefWithExec hi hroot howner) fun r s₃ hr => ?_)
    obtain ⟨rfl, after, rfl, hafter⟩ := hr
    refine ⟨hmoves, .inl hnext, fun b a h => ?_⟩
    obtain ⟨rfl, rfl⟩ := SwitchOutcome.switched.inj h
    exact ⟨hbefore, fun image h => (hafter image h).trans hbooted⟩

theorem wpe_live {ε α : Type} {x : Executor ε α} {O : Except ε α → Fleet → Prop} :
    wpe (Serves owner named) (live o x) O s ↔ wpe (Behind owner named o) x O s := wp_handle

theorem wpe_switchVm (hlive : plan.dryRun = false) (hnamed : name ∈ named)
    (hplain : ghcrRef.toList.head? ≠ some '-') :
    wpe (Serves owner named) (switchVm conn plan name ghcrRef) (Came name ghcrRef s) s := by
  rw [switchVm, hlive]
  refine wpe_bind.mpr (wpe_mono (wpe_waitForIpWith hnamed waitTries) fun r s₁ hr => ?_)
  obtain ⟨rfl, found, rfl, howner⟩ := hr
  cases found with
  | none => exact .refl
  | some ip =>
    have hi : ∀ n, (plan.vmSshOpts (String.ofList ip.text) n).identityFile = none ∧
        (plan.vmSshOpts (String.ofList ip.text) n).user = some "root" ∧
        (plan.vmSshOpts (String.ofList ip.text) n).host = String.ofList ip.text := fun n => by
      rw [Plan.vmSshOpts]
      cases plan.kvmHost <;> exact ⟨rfl, rfl, rfl⟩
    refine wpe_bind.mpr (wpe_live.mpr (wpe_mono
      (wpe_waitForSshWith (hi _).1 (hi _).2.1 waitTries) fun r s₂ hr => ?_))
    subst hr
    cases r with
    | error e => exact .refl
    | ok up =>
      cases up with
      | false => exact .refl
      | true =>
        obtain ⟨hid, hroot, hhost⟩ := hi switchConnectTimeoutSecs
        have hname := hhost ▸ howner ip rfl
        exact wpe_live.mpr (wpe_switchOneWithExec hid hroot hname hplain)

/-- The ref that a VM is to track by its flavor. -/
def FlavorRef (plan : Plan) (vm ref : String) : Prop :=
  ∃ flavor, flavorForVm vm = some flavor ∧ ref = plan.refFor flavor

theorem FlavorRef.unique {vm ref ref' : String} (h : FlavorRef plan vm ref)
    (h' : FlavorRef plan vm ref') :
    ref = ref' := by
  obtain ⟨flavor, hf, rfl⟩ := h
  obtain ⟨flavor', hf', rfl⟩ := h'
  rw [hf] at hf'
  rw [Option.some.inj hf']

theorem Moves.mono {W W' : String → String → Prop} (h : Moves W s s') (hW : ∀ n r, W n r → W' n r) :
    Moves W' s s' := ⟨h.booted, fun n => (h.next n).imp_right (hW n _)⟩

/-- A VM that is settled stays so while the fleet moves to its flavors' refs only. -/
theorem Settled.later {s'' : Fleet} {vm ref : String} (h : Settled ref (s vm) (s' vm))
    (hm : Moves (FlavorRef plan) s' s'') (href : FlavorRef plan vm ref) :
    Settled ref (s vm) (s'' vm) := by
  obtain hn | hw := hm.next vm
  · rwa [Settled, hn]
  · exact .inl (hw.unique href)

/-- It makes no difference that others were switched before. -/
theorem Settled.earlier {s'' : Fleet} {vm ref : String} (h : Settled ref (s' vm) (s'' vm))
    (hm : Moves (FlavorRef plan) s s') (href : FlavorRef plan vm ref) :
    Settled ref (s vm) (s'' vm) := by
  obtain h | ⟨hb, hn⟩ := h
  · exact .inl h
  obtain hs | hw := hm.next vm
  · exact .inr ⟨hm.booted vm ▸ hb, hn.trans hs⟩
  · exact .inl (hn.trans (hw.unique href))

theorem wpe_switchAll (hlive : plan.dryRun = false) {vms : List String}
    (hnamed : ∀ vm ∈ vms, vm ∈ named)
    (hplain : ∀ vm ref, FlavorRef plan vm ref → ref.toList.head? ≠ some '-') (failed : Nat) :
    wpe (Serves owner named) (switchAll conn plan vms failed)
      (fun r s' => Moves (FlavorRef plan) s s' ∧ ∃ n, r = .ok n ∧ failed ≤ n ∧
        (n = failed → ∀ vm ∈ vms, ∀ ref, FlavorRef plan vm ref → Settled ref (s vm) (s' vm))) s := by
  induction vms generalizing s failed with
  | nil => exact ⟨.refl, failed, rfl, le_rfl, fun _ vm h => absurd h List.not_mem_nil⟩
  | cons vm vms ih =>
    obtain ⟨hvm, hvms⟩ := List.forall_mem_cons.mp hnamed
    rw [switchAll]
    cases hflavor : flavorForVm vm with
    | none =>
      refine wpe_mono (ih hvms failed) fun r s' hr => ?_
      obtain ⟨hm, n, rfl, hle, hsettled⟩ := hr
      refine ⟨hm, n, rfl, hle, fun hn => List.forall_mem_cons.mpr ⟨?_, hsettled hn⟩⟩
      rintro ref ⟨flavor, hf, -⟩
      rw [hflavor] at hf
      cases hf
    | some flavor =>
      have hhere : FlavorRef plan vm (plan.refFor flavor) := ⟨flavor, hflavor, rfl⟩
      refine wpe_bind.mpr (wpe_outcome.mpr
        (wpe_mono (wpe_switchVm hlive hvm (hplain vm _ hhere)) fun r s₁ hr => ?_))
      have honly : ∀ n ref, n = vm ∧ ref = plan.refFor flavor → FlavorRef plan n ref := by
        rintro n ref ⟨rfl, rfl⟩
        exact hhere
      cases r with
      | error e =>
        have hmoves : Moves (FlavorRef plan) s s₁ := Moves.mono hr honly
        refine wpe_mono (ih hvms (failed + 1)) fun r s' hr => ?_
        obtain ⟨hm, n, rfl, hle, -⟩ := hr
        exact ⟨hmoves.trans hm, n, rfl, by omega, fun hn => absurd hn (by omega)⟩
      | ok out =>
        obtain ⟨hmoves, hsettled, -⟩ := hr
        have hmoves := Moves.mono hmoves honly
        refine wpe_mono (ih hvms failed) fun r s' hr => ?_
        obtain ⟨hm, n, rfl, hle, hrest⟩ := hr
        refine ⟨hmoves.trans hm, n, rfl, hle, fun hn => List.forall_mem_cons.mpr ⟨?_, ?_⟩⟩
        · intro ref href
          obtain rfl := href.unique hhere
          exact hsettled.later hm href
        · exact fun n' hn' ref href => (hrest hn n' hn' ref href).earlier hmoves href

/-- What the run has read of the running domains. -/
def Listed (conn : Connection) (t : Trace Reply) (vms : List String) : Prop :=
  ∃ e stdout t', t = conn.exchange listCommand e :: t' ∧ conn.result listCommand e = .ok stdout ∧
    vms = parseDomainList stdout

theorem Listed.unique {t : Trace Reply} {vms : List String} {stdout : String}
    (h : Listed conn (conn.exchange listCommand e :: t) vms)
    (hresult : conn.result listCommand e = .ok stdout) : vms = parseDomainList stdout := by
  obtain ⟨e', stdout', t', heq, hstdout, rfl⟩ := h
  obtain ⟨hhead, -⟩ := List.cons.inj heq
  obtain rfl := conn.exchange_injective hhead
  rw [hstdout] at hresult
  rw [Except.ok.inj hresult]

theorem wpe_switchAll_dry (hdry : plan.dryRun = true) (vms : List String) (failed : Nat) :
    wpe (Serves owner named) (switchAll conn plan vms failed)
      (fun r s' => s' = s ∧ r = .ok failed) s := by
  induction vms with
  | nil => exact ⟨rfl, rfl⟩
  | cons vm vms ih =>
    rw [switchAll]
    cases flavorForVm vm with
    | none => exact ih
    | some flavor =>
      dsimp only
      rw [switchVm, hdry]
      exact ih

theorem wpe_walk_dry (hdry : plan.dryRun = true) {vms : List String} :
    wpe (Serves owner named) (walk conn plan vms) (fun _ s' => s' = s) s := by
  rw [walk]
  split_ifs with hnone
  · rfl
  · refine wpe_bind.mpr (wpe_mono (wpe_switchAll_dry hdry _ _) fun r s' hr => ?_)
    obtain ⟨rfl, rfl⟩ := hr
    rfl

theorem wpe_walk (hlive : plan.dryRun = false) {vms : List String} (hnamed : ∀ vm ∈ vms, vm ∈ named)
    (hplain : ∀ vm ref, FlavorRef plan vm ref → ref.toList.head? ≠ some '-') :
    wpe (Serves owner named) (walk conn plan vms) (fun o s' => Moves (FlavorRef plan) s s' ∧
      (o = .ok () → ∀ vm ∈ vms, ∀ ref, FlavorRef plan vm ref → Settled ref (s vm) (s' vm))) s := by
  rw [walk]
  split_ifs with hnone
  · exact ⟨.refl, fun _ vm hvm => absurd hvm (by rw [hnone]; exact List.not_mem_nil)⟩
  · refine wpe_bind.mpr (wpe_mono (wpe_switchAll hlive hnamed hplain 0) fun r s' hr => ?_)
    obtain ⟨hm, n, rfl, -, hsettled⟩ := hr
    dsimp only
    split_ifs with hn
    · refine ⟨hm, fun ho => ?_⟩
      cases ho
    · exact ⟨hm, fun _ => hsettled (by omega)⟩

theorem startsWith_of_flavor {flavor : String} (h : flavorForVm name = some flavor) :
    Text.startsWith name hummingbirdPrefix = true := by
  rw [flavorForVm] at h
  split_ifs at h with heq hworker
  · rw [heq]
    decide
  · have hnames : "hummingbird-k8s-worker-" = hummingbirdPrefix ++ "k8s-worker-" := by decide +kernel
    rw [hnames] at hworker
    rw [Text.startsWith_iff] at hworker ⊢
    rw [String.toList_append] at hworker
    exact (List.prefix_append _ _).trans hworker

/-- All-VMs mode, on the fleet. -/
theorem runAllVms_moves {t : Trace Reply} {o : Except Failure Unit}
    (hnamed : ∀ vm, Text.startsWith vm hummingbirdPrefix = true → vm ∈ named)
    (hplain : ∀ vm ref, FlavorRef plan vm ref → ref.toList.head? ≠ some '-')
    (hrun : Finishes (runAllVms conn plan) t o) (hl : Leads (Serves owner named) s t s') :
    (if plan.dryRun then s' = s else Moves (FlavorRef plan) s s') ∧
      (plan.dryRun = false → o = .ok () → ∀ vms, Listed conn t vms → ∀ vm ∈ vms, ∀ ref,
        FlavorRef plan vm ref → Settled ref (s vm) (s' vm)) := by
  obtain ⟨e, ⟨err, -, rfl, rfl⟩ | ⟨stdout, t', hresult, rfl, hwalk⟩⟩ := finishes_runAllVms.mp hrun
  · obtain ⟨rfl, -⟩ := leased_of_serves hl
    refine ⟨?_, nofun⟩
    split
    · rfl
    · exact .refl
  have hsplit : Leads (Serves owner named) s ([conn.exchange listCommand e] ++ t') s' := hl
  obtain ⟨s₁, hlist, hrest⟩ := leads_append.mp hsplit
  obtain ⟨rfl, -⟩ := leased_of_serves hlist
  cases hdry : plan.dryRun with
  | true => exact ⟨wpe_iff.mp (wpe_walk_dry hdry) _ _ _ hwalk hrest, nofun⟩
  | false =>
    have hselected : ∀ vm ∈ selected (parseDomainList stdout), vm ∈ named := fun vm hvm =>
      hnamed vm (List.mem_filter.mp hvm).2
    obtain ⟨hm, hsettled⟩ := wpe_iff.mp (wpe_walk hdry hselected hplain) _ _ _ hwalk hrest
    refine ⟨hm, fun _ ho vms hvms vm hvm ref href => ?_⟩
    obtain rfl := hvms.unique hresult
    obtain ⟨flavor, hflavor, -⟩ := id href
    exact hsettled ho vm (List.mem_filter.mpr ⟨hvm, startsWith_of_flavor hflavor⟩) ref href

/-- Single-VM mode, on the fleet. -/
theorem wpe_runSingleVm {explicitRef : Option String} (hnamed : name ∈ named)
    (hplain : ∀ ref, singleRef plan name explicitRef = some ref → ref.toList.head? ≠ some '-') :
    wpe (Serves owner named) (runSingleVm conn plan name explicitRef) (fun _ s' =>
      Moves (fun n ref => plan.dryRun = false ∧ (plan.forceRebuild && !plan.forceSwitch) = false ∧
        n = name ∧ singleRef plan name explicitRef = some ref) s s') s := by
  rw [runSingleVm]
  by_cases hskip : (plan.forceRebuild && !plan.forceSwitch) = true
  · rw [if_pos hskip]
    exact .refl
  rw [if_neg hskip]
  have hforced := Bool.eq_false_iff.mpr hskip
  cases href : singleRef plan name explicitRef with
  | none => exact .refl
  | some ref =>
    cases hdry : plan.dryRun with
    | true =>
      dsimp only
      rw [switchVm, hdry]
      exact .refl
    | false =>
      refine wpe_bind.mpr (wpe_outcome.mpr
        (wpe_mono (wpe_switchVm hdry hnamed (hplain ref href)) fun r s' hr => ?_))
      have hmoves : Moves (fun n r => n = name ∧ r = ref) s s' := by
        cases r with
        | error e => exact hr
        | ok out => exact hr.1
      refine hmoves.mono ?_
      rintro n r ⟨rfl, rfl⟩
      exact ⟨rfl, hforced, rfl, rfl⟩

end Switch

/-- The ref that the arguments want a VM to track. -/
def Wanted (parse : String → Except String Config.ClusterConfig) (args : SwitchToGhcrArgs)
    (vm ref : String) : Prop :=
  ∃ config, readConfig parse args = .ok config ∧
    match args.single with
    | some name =>
      vm = name ∧ singleRef (Plan.fromArgs args.toArgs config) name args.ghcrRef = some ref
    | none => FlavorRef (Plan.fromArgs args.toArgs config) vm ref

/-- The arguments let a switch happen. -/
def SwitchToGhcrArgs.Live (args : SwitchToGhcrArgs) : Prop :=
  args.bootcSwitchToGhcr = true ∧ args.dryRun = false ∧
    (args.single.isSome = true → ¬ (args.forceRebuild = true ∧ args.forceSwitch = false))

/-- `virsh` and `bootc` take the names and the refs for what they are. -/
structure Literal (parse : String → Except String Config.ClusterConfig) (args : SwitchToGhcrArgs)
    (named : Set String) : Prop where
  hummingbird : ∀ vm, Text.startsWith vm hummingbirdPrefix = true → vm ∈ named
  single : ∀ vm, args.single = some vm → vm ∈ named
  refs : ∀ vm ref, Wanted parse args vm ref → ref.toList.head? ≠ some '-'

section Run

variable {parse : String → Except String Config.ClusterConfig} {args : SwitchToGhcrArgs}
  {config : Option Config.ClusterConfig} {t : Trace Reply} {o : Except Failure Unit}

theorem wanted_iff {vm ref : String} (hconfig : readConfig parse args = .ok config) :
    Wanted parse args vm ref ↔ match args.single with
      | some name =>
        vm = name ∧ singleRef (Plan.fromArgs args.toArgs config) name args.ghcrRef = some ref
      | none => FlavorRef (Plan.fromArgs args.toArgs config) vm ref := by
  constructor
  · rintro ⟨config', hconfig', h⟩
    rw [hconfig] at hconfig'
    obtain rfl := Except.ok.inj hconfig'
    exact h
  · exact fun h => ⟨config, hconfig, h⟩

/-- A run asks for nothing, or it goes on in one of the two modes. -/
theorem cases_of_run (hrun : Finishes (run parse args) t o) :
    t = [] ∧ (o = .ok () → args.bootcSwitchToGhcr = false) ∨
      args.bootcSwitchToGhcr = true ∧ ∃ config, readConfig parse args = .ok config ∧
        Finishes (match args.single with
          | some vm => runSingleVm (buildConnection (Plan.fromArgs args.toArgs config).kvmHost)
              (Plan.fromArgs args.toArgs config) vm args.ghcrRef
          | none => runAllVms (buildConnection (Plan.fromArgs args.toArgs config).kvmHost)
              (Plan.fromArgs args.toArgs config)) t o := by
  rw [run] at hrun
  by_cases hhatch : args.bootcSwitchToGhcr = false
  · rw [if_pos hhatch] at hrun
    obtain ⟨rfl, -⟩ := finishes_pure.mp hrun
    exact .inl ⟨rfl, fun _ => hhatch⟩
  rw [if_neg hhatch] at hrun
  obtain ⟨err, rfl, herr⟩ | ⟨config, t₁, t₂, rfl, hread, hrest⟩ := finishes_bind.mp hrun
  · obtain ⟨rfl, -⟩ := runs_done.mp herr
    exact .inl ⟨rfl, nofun⟩
  · obtain ⟨rfl, hok⟩ := runs_done.mp hread
    exact .inr ⟨Bool.eq_true_of_not_eq_false hhatch, config, hok.symm, hrest⟩

/-- What a run does to the fleet, whatever its commands come to: no VM is made to run another image,
and none to boot one but the ref that is wanted of it. A run over all VMs that ends well has settled
each running one whose flavor is known. -/
theorem switches {owner : String → String} {named : Set String} {s s' : Fleet}
    (hliteral : Literal parse args named) (hrun : Finishes (run parse args) t o)
    (hl : Leads (Serves owner named) s t s') :
    Moves (fun vm ref => args.Live ∧ Wanted parse args vm ref) s s' ∧
      (args.Live → args.single = none → o = .ok () → ∀ config, readConfig parse args = .ok config →
        ∀ vms, Listed (buildConnection (Plan.fromArgs args.toArgs config).kvmHost) t vms → ∀ vm ∈ vms,
          ∀ ref, Wanted parse args vm ref → Settled ref (s vm) (s' vm)) := by
  obtain ⟨rfl, hclosed⟩ | ⟨hopen, config, hconfig, hrest⟩ := cases_of_run hrun
  · obtain rfl := leads_nil.mp hl
    exact ⟨.refl, fun hlive _ ho => absurd (hlive.1.symm.trans (hclosed ho)) nofun⟩
  have hwanted : ∀ vm ref, Wanted parse args vm ref ↔ _ := fun vm ref => wanted_iff hconfig
  cases hsingle : args.single with
  | some vm =>
    rw [hsingle] at hrest hwanted
    refine ⟨?_, fun _ h => nomatch h⟩
    have hmoves := wpe_iff.mp (wpe_runSingleVm (hliteral.single vm hsingle)
      fun ref href => hliteral.refs vm ref ((hwanted vm ref).mpr ⟨rfl, href⟩)) _ _ _ hrest hl
    refine hmoves.mono ?_
    rintro n ref ⟨hdry, hforced, rfl, href⟩
    refine ⟨⟨hopen, hdry, fun _ h => ?_⟩, (hwanted n ref).mpr ⟨rfl, href⟩⟩
    have hboth : (args.forceRebuild && !args.forceSwitch) = true := by rw [h.1, h.2]; rfl
    exact absurd hboth (Bool.eq_false_iff.mp hforced)
  | none =>
    rw [hsingle] at hrest hwanted
    obtain ⟨hmoves, hsettled⟩ := runAllVms_moves hliteral.hummingbird
      (fun vm ref href => hliteral.refs vm ref ((hwanted vm ref).mpr href)) hrest hl
    refine ⟨?_, fun hlive _ ho config' hconfig' vms hvms vm hvm ref href => ?_⟩
    · have hm : (if args.dryRun then s' = s else
          Moves (FlavorRef (Plan.fromArgs args.toArgs config)) s s') := hmoves
      cases hdry : args.dryRun with
      | true =>
        rw [hdry] at hm
        obtain rfl : s' = s := hm
        exact .refl
      | false =>
        rw [hdry] at hm
        refine Moves.mono (W := FlavorRef (Plan.fromArgs args.toArgs config)) hm fun vm ref href =>
          ⟨⟨hopen, hdry, fun h => ?_⟩, (hwanted vm ref).mpr href⟩
        rw [hsingle] at h
        cases h
    · rw [hconfig] at hconfig'
      obtain rfl := Except.ok.inj hconfig'
      exact hsettled hlive.2.1 ho vms hvms vm hvm ref ((hwanted vm ref).mp href)

end Run

section Sample

def smallArgs : SwitchToGhcrArgs where
  ghcrOrg := none
  ghcrTag := none
  kvmHost := none
  forceRebuild := false
  forceSwitch := false
  dryRun := false
  vm := none
  ghcrRef := none
  config := none
  bootcSwitchToGhcr := true

def noConfig (_ : String) : Except String Config.ClusterConfig := .error ""

def smallPlan : Plan := Plan.fromArgs smallArgs.toArgs none

def smallRef : String := "ghcr.io/aatchison/hummingbird-k8s:latest"

def oldRef : String := "localhost/hummingbird-k8s"

def statusText (image : String) : String :=
  "\x7b\"status\": \x7b\"booted\": \x7b\"image\": \x7b\"image\": \x7b\"image\": \"" ++ image ++
    "\"\x7d\x7d\x7d\x7d\x7d"

def vmQuery (connectTimeoutSecs : Nat) (command : String) : Query :=
  .ssh (smallPlan.vmSshOpts "192.168.122.60" connectTimeoutSecs) command none

def smallTrace : Trace Reply :=
  [⟨.sh listCommand, printed "hummingbird-k8s\n"⟩,
    ⟨.sh (domifaddrCommand "hummingbird-k8s"),
      printed "vnet0 52:54:00:00:00:01 ipv4 192.168.122.60/24\n"⟩,
    ⟨vmQuery 5 "true", printed ""⟩, ⟨vmQuery 10 bootcStatusCmd, printed (statusText oldRef)⟩,
    ⟨vmQuery 10 (switchCommand smallRef), printed ""⟩,
    ⟨vmQuery 10 bootcStatusCmd, printed (statusText oldRef)⟩]

theorem smallTrace_finishes : Finishes (run noConfig smallArgs) smallTrace (.ok ()) :=
  finishes_of_play (scripted [printed "hummingbird-k8s\n",
    printed "vnet0 52:54:00:00:00:01 ipv4 192.168.122.60/24\n", printed "",
    printed (statusText oldRef), printed "", printed (statusText oldRef)]) (by decide +kernel)

theorem listCommand_ne (name : String) : listCommand ≠ domifaddrCommand name := by
  intro h
  have hhead := congrArg (fun s : String => s.toList.head?) (virsh_injective h)
  have hlist : "list --name".toList = 'l' :: "ist --name".toList := by decide
  have hdomifaddr : "domifaddr ".toList = 'd' :: "omifaddr ".toList := by decide
  simp [String.toList_append, hlist, hdomifaddr] at hhead

theorem not_switches {command ref : String}
    (h : (argv noBraces command.toList).bind (·[1]?) ≠ some "switch".toList) :
    ¬ Switches command ref :=
  fun hs => h (by rw [hs.1]; rfl)

theorem Switches.unique {command ref ref' : String} (h : Switches command ref)
    (h' : Switches command ref') : ref = ref' := by
  have hwords := h.1.symm.trans h'.1
  simp only [List.map_cons, List.map_nil, Option.some.injEq, List.cons.injEq, true_and,
    and_true] at hwords
  exact String.toList_injective hwords

theorem answers_true {vm : Vm} {e : ProcessEnd} : Answers vm "true" e vm where
  alive _ := rfl
  status h := absurd h (by decide)
  switch _ h := absurd h (not_switches (by decide +kernel))

theorem answers_status {vm : Vm} (h : parseBootedImage (statusText vm.booted) = some vm.booted) :
    Answers vm bootcStatusCmd (printed (statusText vm.booted)) vm where
  alive _ := rfl
  status _ := by
    refine ⟨rfl, fun status stdout stderr image he himage => ?_⟩
    obtain ⟨-, rfl, -⟩ := ProcessEnd.exited.inj he
    rw [h] at himage
    exact (Option.some.inj himage).symm
  switch _ hs := absurd hs (not_switches (by decide +kernel))

theorem answers_switch {vm : Vm} {e : ProcessEnd} :
    Answers vm (switchCommand smallRef) e { vm with next := smallRef } where
  alive h := absurd h (by decide +kernel)
  status h := absurd h (by decide +kernel)
  switch ref hs := by
    have hsmall : Switches (switchCommand smallRef) smallRef := switches_switchCommand (by decide)
    obtain rfl := hs.unique hsmall
    exact ⟨rfl, .inr rfl, fun _ _ _ => rfl⟩

def hummingbirds : Set String := { name | Text.startsWith name hummingbirdPrefix = true }

def oldFleet : Fleet := fun _ => ⟨oldRef, oldRef⟩

def newFleet : Fleet := Function.update oldFleet "hummingbird-k8s" ⟨oldRef, smallRef⟩

theorem smallTrace_leads :
    Leads (Serves (fun _ => "hummingbird-k8s") hummingbirds) oldFleet smallTrace newFleet := by
  have hread : parseBootedImage (statusText oldRef) = some oldRef := by decide +kernel
  have hnew : newFleet "hummingbird-k8s" = ⟨oldRef, smallRef⟩ := Function.update_self ..
  have hothers : ∀ n, n ≠ "hummingbird-k8s" → newFleet n = oldFleet n := fun n hn =>
    Function.update_of_ne hn ..
  have hswitch : Answers (oldFleet "hummingbird-k8s") (switchCommand smallRef) (printed "")
      (newFleet "hummingbird-k8s") := hnew ▸ answers_switch
  have hold : Answers (oldFleet "hummingbird-k8s") bootcStatusCmd (printed (statusText oldRef))
      (oldFleet "hummingbird-k8s") := answers_status hread
  have hafter : Answers (newFleet "hummingbird-k8s") bootcStatusCmd (printed (statusText oldRef))
      (newFleet "hummingbird-k8s") := by
    rw [hnew]
    exact answers_status hread
  refine .cons (.onHost fun name _ h => absurd h (listCommand_ne name)) ?_
  refine .cons (.onHost fun name _ h _ _ _ _ _ => ?_) ?_
  · exact shellQuote_injective (Text.append_left_cancel _ (virsh_injective h))
  refine .cons (.vm rfl answers_true fun _ _ => rfl) ?_
  refine .cons (.vm rfl hold fun _ _ => rfl) ?_
  refine .cons (.vm rfl hswitch hothers) ?_
  exact .cons (.vm rfl hafter fun _ _ => rfl) (.nil _)

theorem switches_sample :
    Moves (fun vm ref => smallArgs.Live ∧ Wanted noConfig smallArgs vm ref) oldFleet newFleet ∧
      Settled smallRef (oldFleet "hummingbird-k8s") (newFleet "hummingbird-k8s") := by
  have hwanted : ∀ vm ref, Wanted noConfig smallArgs vm ref ↔ FlavorRef smallPlan vm ref :=
    fun vm ref => wanted_iff rfl
  have hliteral : Literal noConfig smallArgs hummingbirds := by
    refine ⟨fun _ h => h, nofun, fun vm ref h => ?_⟩
    obtain ⟨flavor, hflavor, rfl⟩ := (hwanted vm ref).mp h
    rw [flavorForVm] at hflavor
    split_ifs at hflavor <;> obtain rfl := Option.some.inj hflavor <;> decide +kernel
  obtain ⟨hmoves, hsettled⟩ := switches hliteral smallTrace_finishes smallTrace_leads
  have hlisted : Listed .onHost smallTrace ["hummingbird-k8s"] :=
    ⟨printed "hummingbird-k8s\n", "hummingbird-k8s\n", _, rfl, by decide +kernel, by decide +kernel⟩
  exact ⟨hmoves, hsettled ⟨rfl, rfl, nofun⟩ rfl rfl none rfl _ hlisted _ List.mem_cons_self smallRef
    ((hwanted _ _).mpr ⟨"hummingbird-k8s", by decide, by decide +kernel⟩)⟩

end Sample

end Hbird.Virt.SwitchToGhcr
