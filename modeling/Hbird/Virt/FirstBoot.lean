import Hbird.Shell.Script
import Hbird.Virt.CloudInit
import Hbird.Virt.VirtInstall

namespace Hbird.Virt.FirstBoot

open Hbird.Interaction Hbird.Shell.Script Hbird.Text

/-- An entry of `runcmd`: a script, or the arguments of one command. -/
inductive Entry : Type
  | block (script : List Command)
  | argv (items : List String)
  deriving Repr

def scriptLine (c : Command) : String := "    " ++ c.toText ++ "\n"

def Entry.toText : Entry → String
  | .block script => "  - |\n" ++ joined "" (script.map scriptLine)
  | .argv items => "  - [ " ++ joined ", " items ++ " ]\n"

/-- What the entry is in the one script that all entries are put into. -/
def Entry.commands : Entry → List Command
  | .block script => script
  | .argv items => [.simple (items.map fun item => [.single item]) ""]

def words (ws : List String) : List Word := ws.map fun w => [.bare w]

def deviceStages (mac : String) : List (List Word) :=
  [words ["ip", "-o", "link"], words ["awk", "-v", "m=" ++ mac] ++
    [[.single "tolower($0) ~ tolower(m) \x7bgsub(/:/,\"\",$2); print $2; exit\x7d"]]]

def connectionStages : List (List Word) :=
  [words ["nmcli", "-g", "GENERAL.CONNECTION", "device", "show"] ++ [[.double [.variable "dev"]]]]

def noInterface (mac : String) : List Word :=
  words ["echo"] ++ [[.double [.text ("hbird: no interface with MAC " ++ mac)]]]

def noConnection : List Word :=
  words ["echo"] ++ [[.double [.text "hbird: no NM connection on ", .variable "dev"]]]

def modifyWords : List Word :=
  words ["nmcli", "connection", "modify"] ++ [[.double [.variable "con"]]] ++
    words ["ipv6.method", "disabled"]

def upWords : List Word := words ["nmcli", "connection", "up"] ++ [[.double [.variable "con"]]]

/-- `net2_ipv6_off_runcmd` as a script. -/
def net2Ipv6Off (mac : String) : List Command :=
  [.comment " Disable IPv6 on the second NIC (accept-ra/dhcp6 do not survive the NM renderer).",
    .assign "dev" (deviceStages mac),
    .orElse (.nonEmpty "dev") (.seq (.simple (noInterface mac) " >&2") (.exit 0)),
    .assign "con" connectionStages,
    .orElse (.nonEmpty "con") (.seq (.simple noConnection " >&2") (.exit 0)),
    .simple modifyWords "",
    .simple upWords " >/dev/null"]

section Text

variable (mac : String)

theorem scriptLine_device : scriptLine (.assign "dev" (deviceStages mac)) =
    "    dev=$(ip -o link | awk -v m=" ++ (mac ++
      " 'tolower($0) ~ tolower(m) \x7bgsub(/:/,\"\",$2); print $2; exit\x7d')\n") := by
  simp only [scriptLine, deviceStages, words, Command.toText, argvText, wordText, Piece.toText, joined,
    List.map_cons, List.map_nil, List.cons_append, List.nil_append, String.append_assoc,
    String.reduceAppend]
  generalize mac ++ _ = tail
  simp only [← String.append_assoc, String.reduceAppend]

theorem scriptLine_noInterface :
    scriptLine (.orElse (.nonEmpty "dev") (.seq (.simple (noInterface mac) " >&2") (.exit 0))) =
      "    [ -n \"$dev\" ] || \x7b echo \"hbird: no interface with MAC " ++ (mac ++
        "\" >&2; exit 0; \x7d\n") := by
  have hzero : toString 0 = "0" := rfl
  simp only [scriptLine, noInterface, words, Command.toText, argvText, wordText, Piece.toText,
    Fragment.toText, joined, List.map_cons, List.map_nil, List.cons_append, List.nil_append,
    String.append_assoc, String.reduceAppend, hzero]
  generalize mac ++ _ = tail
  simp only [← String.append_assoc, String.reduceAppend]

/-- The entry is the script. -/
theorem net2Ipv6OffRuncmd_eq :
    net2Ipv6OffRuncmd mac = (Entry.block (net2Ipv6Off mac)).toText := by
  have hcomment : scriptLine (.comment
      " Disable IPv6 on the second NIC (accept-ra/dhcp6 do not survive the NM renderer).") =
      "    # Disable IPv6 on the second NIC (accept-ra/dhcp6 do not survive the NM renderer).\n" := by
    decide +kernel
  have hcon : scriptLine (.assign "con" connectionStages) =
      "    con=$(nmcli -g GENERAL.CONNECTION device show \"$dev\")\n" := by
    decide +kernel
  have hnone : scriptLine (.orElse (.nonEmpty "con") (.seq (.simple noConnection " >&2") (.exit 0))) =
      "    [ -n \"$con\" ] || \x7b echo \"hbird: no NM connection on $dev\" >&2; exit 0; \x7d\n" := by
    decide +kernel
  have hmodify : scriptLine (.simple modifyWords "") =
      "    nmcli connection modify \"$con\" ipv6.method disabled\n" := by
    decide +kernel
  have hup : scriptLine (.simple upWords " >/dev/null") =
      "    nmcli connection up \"$con\" >/dev/null\n" := by
    decide +kernel
  unfold net2Ipv6OffRuncmd Entry.toText net2Ipv6Off
  dsimp only
  rw [List.map_cons, List.map_cons, List.map_cons, List.map_cons, List.map_cons, List.map_cons,
    List.map_cons, List.map_nil, hcomment, scriptLine_device, scriptLine_noInterface, hcon, hnone,
    hmodify, hup]
  simp only [joined, String.append_assoc, String.empty_append]

end Text

/-- What a user-data is rendered from. -/
inductive Rendering : Type
  | cp (cpName pubkeyContents : String) (switchToGhcr : Bool) (ghcrTag : String) (autoUpdateCp : Bool)
      (overrides : CpOverrides)
  | worker (workerName pubkeyContents joinCmd : String) (switchToGhcr : Bool) (ghcrTag : String)
      (overrides : WorkerOverrides)

namespace Rendering

def text : Rendering → String
  | cp name pubkey switch tag auto overrides => renderCpUserData name pubkey switch tag auto overrides
  | worker name pubkey join switch tag overrides =>
    renderWorkerUserData name pubkey join switch tag overrides

def net2Mac : Rendering → Option String
  | cp _ _ _ _ _ overrides => nonEmpty overrides.net2Mac
  | worker _ _ _ _ _ overrides => nonEmpty overrides.net2Mac

def switchEntry (image tag : String) : List String :=
  ["bootc", "switch", "ghcr.io/aatchison/" ++ image ++ ":" ++ tag]

def restartEntries : List (List String) :=
  [["systemctl", "daemon-reload"], ["systemctl", "restart", "bootc-semver-update.timer"]]

/-- The entries of `runcmd` behind the one of the second NIC. -/
def later : Rendering → List (List String)
  | cp _ _ switch tag auto overrides =>
    (if switch then [switchEntry "hummingbird-k8s" tag] else []) ++
    (if auto then
      [["systemctl", "enable", "--now", "bootc-semver-update.timer"],
        ["systemctl", "disable", "--now", "bootc-fetch-apply-updates.timer"]]
    else [["systemctl", "disable", "--now", "bootc-semver-update.timer"]]) ++
    (if auto && (nonEmpty overrides.bootcUpdateSchedule).isSome then restartEntries else [])
  | worker _ _ _ switch tag overrides =>
    (if switch then [switchEntry "hummingbird-k8s-worker" tag] else []) ++
    (if (nonEmpty overrides.bootcUpdateSchedule).isSome then restartEntries else [])

end Rendering

section Entries

/-- What the entries are written as. -/
def entriesText (argvs : List (List String)) : String :=
  joined "" ((argvs.map Entry.argv).map Entry.toText)

theorem entriesText_append (a b : List (List String)) :
    entriesText (a ++ b) = entriesText a ++ entriesText b := by
  rw [entriesText, List.map_append, List.map_append, joined_append]
  rfl

theorem entriesText_restart : entriesText Rendering.restartEntries = restartTimer := by
  decide +kernel

theorem entriesText_switch (image tag : String) : entriesText [Rendering.switchEntry image tag] =
    "  - [ bootc, switch, ghcr.io/aatchison/" ++ (image ++ (":" ++ (tag ++ " ]\n"))) := by
  simp only [entriesText, Rendering.switchEntry, List.map_cons, List.map_nil, Entry.toText, joined,
    String.append_assoc, String.reduceAppend]
  generalize image ++ _ = tail
  simp only [← String.append_assoc, String.reduceAppend]

theorem entriesText_enable : entriesText
    [["systemctl", "enable", "--now", "bootc-semver-update.timer"],
      ["systemctl", "disable", "--now", "bootc-fetch-apply-updates.timer"]] =
    "  - [ systemctl, enable, --now, bootc-semver-update.timer ]\n" ++
      "  - [ systemctl, disable, --now, bootc-fetch-apply-updates.timer ]\n" := by
  decide +kernel

theorem entriesText_disable : entriesText
    [["systemctl", "disable", "--now", "bootc-semver-update.timer"]] =
    "  - [ systemctl, disable, --now, bootc-semver-update.timer ]\n" := by
  decide +kernel

theorem entriesText_onTrue (b : Bool) (argvs : List (List String)) :
    entriesText (if b then argvs else []) = onTrue b (entriesText argvs) := by
  cases b <;> rfl

theorem onTrue_switch (b : Bool) (image tag pre : String)
    (hpre : pre = "  - [ bootc, switch, ghcr.io/aatchison/" ++ (image ++ ":")) :
    entriesText (if b then [Rendering.switchEntry image tag] else []) =
      onTrue b (pre ++ tag ++ " ]\n") := by
  rw [entriesText_onTrue, entriesText_switch, hpre]
  simp only [String.append_assoc]

theorem regrouped (a key b c d e : String) :
    ∃ head, a ++ key ++ b ++ c ++ d ++ e = head ++ key ++ b ++ (c ++ d ++ e) :=
  ⟨a, by simp only [String.append_assoc]⟩

theorem regrouped_last (a key b c d : String) :
    ∃ head, a ++ (key ++ b ++ c ++ d) = head ++ key ++ b ++ (c ++ d) :=
  ⟨a, by simp only [String.append_assoc]⟩

theorem text_cp (name pubkey tag : String) {mac : String} (switch auto : Bool)
    {overrides : CpOverrides} (hmac : nonEmpty overrides.net2Mac = some mac) :
    ∃ head, renderCpUserData name pubkey switch tag auto overrides = head ++ "runcmd:\n" ++
      net2Ipv6OffRuncmd mac ++ entriesText (Rendering.cp name pubkey switch tag auto overrides).later := by
  have hauto : entriesText (if auto then
      [["systemctl", "enable", "--now", "bootc-semver-update.timer"],
        ["systemctl", "disable", "--now", "bootc-fetch-apply-updates.timer"]]
      else [["systemctl", "disable", "--now", "bootc-semver-update.timer"]]) =
      if auto then "  - [ systemctl, enable, --now, bootc-semver-update.timer ]\n" ++
        "  - [ systemctl, disable, --now, bootc-fetch-apply-updates.timer ]\n"
      else "  - [ systemctl, disable, --now, bootc-semver-update.timer ]\n" := by
    cases auto
    · exact entriesText_disable
    · exact entriesText_enable
  unfold renderCpUserData
  dsimp only
  rw [hmac, Rendering.later, entriesText_append, entriesText_append, hauto,
    onTrue_switch _ _ _ "  - [ bootc, switch, ghcr.io/aatchison/hummingbird-k8s:" (by decide +kernel),
    entriesText_onTrue, entriesText_restart]
  exact regrouped _ _ _ _ _ _

theorem text_worker {name pubkey join tag mac : String} {switch : Bool} {overrides : WorkerOverrides}
    (hmac : nonEmpty overrides.net2Mac = some mac) :
    ∃ head, renderWorkerUserData name pubkey join switch tag overrides = head ++ "runcmd:\n" ++
      net2Ipv6OffRuncmd mac ++
        entriesText (Rendering.worker name pubkey join switch tag overrides).later := by
  unfold renderWorkerUserData
  dsimp only
  rw [hmac, Rendering.later, entriesText_append,
    onTrue_switch _ _ _ "  - [ bootc, switch, ghcr.io/aatchison/hummingbird-k8s-worker:"
      (by decide +kernel), entriesText_onTrue, entriesText_restart, Option.isSome_some, Bool.or_true]
  exact regrouped_last _ _ _ _ _

theorem text_eq {r : Rendering} {mac : String} (hmac : r.net2Mac = some mac) :
    ∃ head, r.text = head ++ "runcmd:\n" ++
      joined "" ((Entry.block (net2Ipv6Off mac) :: r.later.map Entry.argv).map Entry.toText) := by
  have hentries : ∀ head, head ++ net2Ipv6OffRuncmd mac ++ entriesText r.later =
      head ++ joined "" ((Entry.block (net2Ipv6Off mac) :: r.later.map Entry.argv).map Entry.toText) := by
    intro head
    rw [List.map_cons, joined_cons, ← net2Ipv6OffRuncmd_eq, String.append_assoc]
    rfl
  cases r with
  | cp name pubkey switch tag auto overrides =>
    obtain ⟨head, htext⟩ := text_cp name pubkey tag switch auto hmac
    exact ⟨head, htext.trans (hentries _)⟩
  | worker name pubkey join switch tag overrides =>
    obtain ⟨head, htext⟩ := text_worker hmac
    exact ⟨head, htext.trans (hentries _)⟩

end Entries

/-- All entries, in order, in one script. -/
def Rendering.script (r : Rendering) (mac : String) : List Command :=
  (Entry.block (net2Ipv6Off mac) :: r.later.map Entry.argv).flatMap Entry.commands

def Rendering.laterQueries (r : Rendering) : List Query := r.later.map fun argv => ⟨[argv], false⟩

/-- What the lookups of a run print. -/
def lookups (t : Trace Reply) : List String :=
  (t.filter fun x => x.1.captured).map fun x => substituted x.2.stdout

/-- The interface is found, and a connection on it. -/
def Found (t : Trace Reply) : Prop := ∃ dev con, lookups t = [dev, con] ∧ dev ≠ "" ∧ con ≠ ""

section Runs

variable {r : Rendering} {mac : String} {v : Vars} {t : Trace Reply} {o : Except Nat Vars}

theorem expand_bare (v : Vars) (w : String) : expand v [.bare w] = w := by
  simp [expand, Piece.expand, String.join]

theorem expand_single (v : Vars) (w : String) : expand v [.single w] = w := by
  simp [expand, Piece.expand, String.join]

def laterWords (argvs : List (List String)) : List (List Word) :=
  argvs.map (List.map fun item => [.single item])

theorem script_eq : r.script mac = net2Ipv6Off mac ++ (laterWords r.later).map (.simple · "") := by
  rw [Rendering.script, List.flatMap_cons, List.flatMap_map, laterWords, List.map_map]
  congr 1
  exact List.map_eq_flatMap.symm

theorem queries_laterWords (v : Vars) (argvs : List (List String)) :
    (laterWords argvs).map (fun words => (⟨[words.map (expand v)], false⟩ : Query)) =
      argvs.map fun argv => ⟨[argv], false⟩ := by
  rw [laterWords, List.map_map]
  refine List.map_congr_left fun argv _ => ?_
  have hexpand : (expand v ∘ fun item => [Piece.single item]) = id := funext (expand_single v)
  simp only [Function.comp_apply, List.map_map, hexpand, List.map_id]

/-- None of the later entries is an `echo`. -/
theorem ne_echo {argv : List String} (h : argv ∈ r.later) : argv.head? ≠ some "echo" := by
  have hswitch : ∀ (b : Bool) image tag,
      argv ∈ (if b then [Rendering.switchEntry image tag] else []) → argv.head? ≠ some "echo" := by
    intro b image tag h
    cases b
    · cases h
    · rw [List.mem_singleton.mp h]
      simp [Rendering.switchEntry]
  have hrestart : ∀ b : Bool, argv ∈ (if b then Rendering.restartEntries else []) →
      argv.head? ≠ some "echo" := by
    intro b h
    cases b
    · cases h
    · simp only [if_true, Rendering.restartEntries, List.mem_cons, List.not_mem_nil, or_false] at h
      obtain rfl | rfl := h <;> simp
  cases r with
  | cp name pubkey switch tag auto overrides =>
    rw [Rendering.later, List.mem_append, List.mem_append] at h
    obtain (h | h) | h := h
    · exact hswitch _ _ _ h
    · cases auto
      · rw [List.mem_singleton.mp h]
        simp
      · simp only [if_true, List.mem_cons, List.not_mem_nil, or_false] at h
        obtain rfl | rfl := h <;> simp
    · exact hrestart _ h
  | worker name pubkey join switch tag overrides =>
    rw [Rendering.later, List.mem_append] at h
    obtain h | h := h
    · exact hswitch _ _ _ h
    · exact hrestart _ h

/-- The run of the entry and of simple commands behind it: without an interface, or a connection on
it, an `echo` is the last. -/
theorem runs_net2 {rest : List (List Word)}
    (h : Finishes (run (net2Ipv6Off mac ++ rest.map (.simple · "")) v) t o) :
    (∃ q dev e echoed, t = [⟨⟨q, true⟩, dev⟩, ⟨⟨[echoed], false⟩, e⟩] ∧ echoed.head? = some "echo" ∧
      substituted dev.stdout = "") ∨
    (∃ q q' dev con e echoed, t = [⟨⟨q, true⟩, dev⟩, ⟨⟨q', true⟩, con⟩, ⟨⟨[echoed], false⟩, e⟩] ∧
      echoed.head? = some "echo" ∧ substituted dev.stdout ≠ "" ∧ substituted con.stdout = "") ∨
    ∃ q q' dev con v' t', t = ⟨⟨q, true⟩, dev⟩ :: ⟨⟨q', true⟩, con⟩ :: t' ∧
      substituted dev.stdout ≠ "" ∧ substituted con.stdout ≠ "" ∧
      t'.map Sigma.fst = (modifyWords :: upWords :: rest).map fun words =>
        ⟨[words.map (expand v')], false⟩ := by
  rw [net2Ipv6Off, List.cons_append, run_comment, List.cons_append, finishes_run_assign] at h
  obtain ⟨dev, t₁, rfl, h⟩ := h
  rw [List.cons_append, finishes_run_nonEmpty_or, Function.update_self] at h
  obtain ⟨hdev, h⟩ | ⟨hdev, -, e, rfl⟩ := h
  · rw [List.cons_append, finishes_run_assign] at h
    obtain ⟨con, t₂, rfl, h⟩ := h
    rw [List.cons_append, finishes_run_nonEmpty_or, Function.update_self] at h
    obtain ⟨hcon, h⟩ | ⟨hcon, -, e, rfl⟩ := h
    · have hsimple : ([.simple modifyWords "", .simple upWords " >/dev/null"] : List Command) ++
          rest.map (.simple · "") = ((modifyWords, "") :: (upWords, " >/dev/null") ::
            rest.map (·, "")).map fun c => .simple c.1 c.2 := by
        rw [List.map_cons, List.map_cons, List.map_map]
        rfl
      rw [hsimple] at h
      have hqueries := finishes_run_simple h
      rw [List.map_cons, List.map_cons, List.map_map] at hqueries
      exact .inr (.inr ⟨_, _, dev, con, _, t₂, rfl, hdev, hcon, hqueries⟩)
    · refine .inr (.inl ⟨_, _, dev, con, e, _, rfl, ?_, hdev, hcon⟩)
      simp [noConnection, words, expand_bare]
  · refine .inl ⟨_, dev, e, _, rfl, ?_, hdev⟩
    simp [noInterface, words, expand_bare]

theorem not_suffix_echo (qs : List Query) {echoed : List String} (hecho : echoed.head? = some "echo")
    (hlater : r.later ≠ []) : ¬ r.laterQueries <:+ qs ++ [⟨[echoed], false⟩] := by
  rintro ⟨before, hbefore⟩
  obtain ⟨argvs, argv, hlast⟩ := (List.eq_nil_or_concat' r.later).resolve_left hlater
  rw [Rendering.laterQueries, hlast, List.map_append, ← List.append_assoc] at hbefore
  obtain ⟨-, heq⟩ := List.append_inj' hbefore rfl
  have hargv : argv = echoed := by simpa using heq
  have hmem : argv ∈ r.later := by
    rw [hlast]
    exact List.mem_append_right _ (List.mem_singleton_self _)
  exact ne_echo hmem (hargv ▸ hecho)

/-- The later entries are run where the lookups find something, or there are none. -/
theorem later_run_iff (h : Finishes (run (r.script mac) v) t o) :
    r.laterQueries <:+ t.map Sigma.fst ↔ r.later = [] ∨ Found t := by
  rw [script_eq] at h
  have hnil : r.later = [] → r.laterQueries = [] := by
    intro hlater
    rw [Rendering.laterQueries, hlater, List.map_nil]
  obtain ⟨q, dev, e, echoed, rfl, hecho, hdev⟩ | ⟨q, q', dev, con, e, echoed, rfl, hecho, hdev, hcon⟩ |
    ⟨q, q', dev, con, v', t', rfl, hdev, hcon, hrest⟩ := runs_net2 h
  · have hfound : ¬ Found [⟨⟨q, true⟩, dev⟩, ⟨⟨[echoed], false⟩, e⟩] := by
      rintro ⟨a, b, hab, -, -⟩
      exact absurd (congrArg List.length hab) (by simp [lookups])
    have hsuffix := not_suffix_echo (r := r) [⟨q, true⟩] hecho
    exact ⟨fun hs => .inl (by_contra fun hlater => hsuffix hlater hs), fun hs => by
      rw [hnil (hs.resolve_right hfound)]
      exact List.nil_suffix⟩
  · have hfound : ¬ Found [⟨⟨q, true⟩, dev⟩, ⟨⟨q', true⟩, con⟩, ⟨⟨[echoed], false⟩, e⟩] := by
      rintro ⟨a, b, hab, -, hb⟩
      have hlist : [substituted dev.stdout, substituted con.stdout] = [a, b] := hab
      exact hb ((List.cons.inj (List.cons.inj hlist).2).1 ▸ hcon)
    have hsuffix := not_suffix_echo (r := r) [⟨q, true⟩, ⟨q', true⟩] hecho
    exact ⟨fun hs => .inl (by_contra fun hlater => hsuffix hlater hs), fun hs => by
      rw [hnil (hs.resolve_right hfound)]
      exact List.nil_suffix⟩
  · rw [List.map_cons, List.map_cons, queries_laterWords] at hrest
    refine iff_of_true ?_ (.inr ⟨_, _, ?_, hdev, hcon⟩)
    · rw [List.map_cons, List.map_cons, hrest]
      exact List.suffix_append [_, _, _, _] _
    · have hplain : ∀ x ∈ t', x.1.captured = false := by
        intro x hx
        have hmem : x.1 ∈ t'.map Sigma.fst := List.mem_map_of_mem hx
        simp only [hrest, List.mem_cons, List.mem_map] at hmem
        obtain h | h | ⟨argv, -, h⟩ := hmem
        · rw [h]
        · rw [h]
        · rw [← h]
      have hfilter : t'.filter (fun x => x.1.captured) = [] := by
        refine List.filter_eq_nil_iff.mpr fun x hx => ?_
        rw [hplain x hx]
        exact Bool.false_ne_true
      simp [lookups, hfilter]

end Runs

section LaterEntries

variable {r : Rendering} {mac : String}

theorem isPlain_mac (hvalid : isValidMac mac = true) {c : Char} (hc : c ∈ mac.toList) :
    isPlain c = true ∧ isLiteral c = true := by
  obtain rfl | hhex := isValidMac_char hvalid hc
  · decide
  · have halnum := isAlphanum_of_hexdigit hhex
    refine ⟨by simp [isPlain, halnum], ?_⟩
    have hne : ∀ d : Char, d.isAlphanum = false → c ≠ d := by
      rintro d hd rfl
      rw [halnum] at hd
      cases hd
    have htick : c.toNat ≠ 0x60 := fun h => hne (Char.ofNat 0x60) (by decide) (by
      rw [← h, Char.ofNat_toNat])
    simp [isLiteral, hne '"' (by decide), hne '$' (by decide), hne '\\' (by decide), htick]

/-- With a valid MAC each command stands in the text as it is read. -/
theorem isWritten_net2Ipv6Off (hvalid : isValidMac mac = true) :
    (net2Ipv6Off mac).all Command.isWritten = true := by
  have hplain : ("m=" ++ mac).toList.all isPlain = true := by
    rw [String.toList_append, List.all_append, Bool.and_eq_true]
    exact ⟨by decide +kernel, List.all_eq_true.mpr fun c hc => (isPlain_mac hvalid hc).1⟩
  have hliteral : ("hbird: no interface with MAC " ++ mac).toList.all isLiteral = true := by
    rw [String.toList_append, List.all_append, Bool.and_eq_true]
    exact ⟨by decide +kernel, List.all_eq_true.mpr fun c hc => (isPlain_mac hvalid hc).2⟩
  have hdevice : (Command.assign "dev" (deviceStages mac)).isWritten = true := by
    simp only [Command.isWritten, deviceStages, words, List.map_cons, List.map_nil, List.cons_append,
      List.nil_append, List.all_cons, List.all_nil, Piece.isWritten, hplain]
    decide +kernel
  have hecho : (Command.orElse (.nonEmpty "dev") (.seq (.simple (noInterface mac) " >&2")
      (.exit 0))).isWritten = true := by
    simp only [Command.isWritten, noInterface, words, List.map_cons, List.map_nil, List.cons_append,
      List.nil_append, List.all_cons, List.all_nil, Piece.isWritten, Fragment.isWritten, hliteral]
    decide +kernel
  rw [net2Ipv6Off, List.all_cons, List.all_cons, List.all_cons, hdevice, hecho]
  decide +kernel

/-- The entry for the second interface, on a failed lookup, ends the script that the later entries
are in. -/
theorem later_entries_run (hmac : r.net2Mac = some mac) (hvalid : isValidMac mac = true) :
    (∃ head, r.text = head ++ "runcmd:\n" ++
      joined "" ((Entry.block (net2Ipv6Off mac) :: r.later.map Entry.argv).map Entry.toText)) ∧
    (net2Ipv6Off mac).all Command.isWritten = true ∧
    ∀ v t o, Finishes (run (r.script mac) v) t o →
      (r.laterQueries <:+ t.map Sigma.fst ↔ r.later = [] ∨ Found t) :=
  ⟨text_eq hmac, isWritten_net2Ipv6Off hvalid, fun _ _ _ => later_run_iff⟩

/-- A control plane with a second interface, updated from the registry. -/
def sampleRendering : Rendering :=
  .cp "hbird-cp1" "ssh-ed25519 AAAA admin" true "stable" true
    ⟨none, none, none, none, some "52:54:01:00:00:01"⟩

theorem later_entries_run_sample :
    sampleRendering.net2Mac = some "52:54:01:00:00:01" ∧
    isValidMac "52:54:01:00:00:01" = true ∧
    ∀ v t o, Finishes (run (sampleRendering.script "52:54:01:00:00:01") v) t o →
      (sampleRendering.laterQueries <:+ t.map Sigma.fst ↔ sampleRendering.later = [] ∨ Found t) :=
  ⟨by decide +kernel, by decide +kernel,
    (later_entries_run (by decide +kernel) (by decide +kernel)).2.2⟩

/-- No interface has the MAC: the images are not switched and no timer is set. -/
theorem not_later_entries_run : ¬ ∀ (r : Rendering) (mac : String), r.net2Mac = some mac →
    isValidMac mac = true → ∀ v t o, Finishes (run (r.script mac) v) t o →
      r.laterQueries <:+ t.map Sigma.fst := by
  intro h
  obtain ⟨t, o, hrun, hreplies⟩ := exists_runs (fun _ : Query => (⟨"", 0⟩ : Ended))
    (run (sampleRendering.script "52:54:01:00:00:01") fun _ => "").run
  have hsuffix := h sampleRendering _ (by decide +kernel) (by decide +kernel) _ t o hrun
  obtain hnil | ⟨dev, con, hlookups, hdev, -⟩ := (later_run_iff hrun).mp hsuffix
  · exact absurd hnil (by decide +kernel)
  · have hmem : dev ∈ lookups t := by
      rw [hlookups]
      exact List.mem_cons_self
    obtain ⟨x, hx, rfl⟩ := List.mem_map.mp hmem
    rw [hreplies x (List.mem_filter.mp hx).1] at hdev
    exact hdev (by decide +kernel)

end LaterEntries

end Hbird.Virt.FirstBoot
