import Hbird.Interaction.World
import Hbird.Virt.DeployCluster
import Hbird.Virt.DhcpHosts

namespace Hbird.Virt.DeployCluster

open Hbird.Interaction Hbird.Ssh Hbird.Text Hbird.Xml

inductive ReservationLog : Type
  | alreadyPresent
  | ipTaken
  | added
  | couldNotAdd
  deriving DecidableEq, Repr

/-- What `ensure_dhcp_reservation` does on each finding, with the line that it logs. -/
def act (conn : Connection) (net mac ip name : String) :
    ReservationCheck → Remote Failure ReservationLog
  | .alreadyPresent => pure .alreadyPresent
  | .ipTakenByOtherMac => pure .ipTaken
  | .absent => Exec.outcome (conn.netUpdateAddIpDhcpHost net mac name ip) >>= fun
    | .ok _ => pure .added
    | .error _ => pure .couldNotAdd

def ensureDhcpReservationLogged (conn : Connection) (net mac ip name : String) :
    Remote Failure ReservationLog :=
  unwrapOrDefault (conn.netDumpxml net) >>= fun netXml =>
    act conn net mac ip name (classifyDhcpReservation netXml mac ip)

theorem ensureDhcpReservation_eq (conn : Connection) (net mac ip name : String) :
    ensureDhcpReservation conn net mac ip name =
      ensureDhcpReservationLogged conn net mac ip name >>= fun _ => pure () := by
  rw [ensureDhcpReservation, ensureDhcpReservationLogged, bind_assoc]
  refine congrArg (_ >>= ·) (funext fun netXml => ?_)
  cases classifyDhcpReservation netXml mac ip with
  | alreadyPresent => rfl
  | ipTakenByOtherMac => rfl
  | absent =>
    simp only [act, ignore, bind_assoc]
    refine congrArg (_ >>= ·) (funext fun r => ?_)
    cases r <;> rfl

/-- The arguments of a call: what `net-update` is to add. -/
structure Reservation where
  mac : Value
  name : Value
  ip : Value

def Reservation.entry (r : Reservation) : DhcpHost where
  attributes := [(.mac, r.mac), (.name, r.name), (.ip, r.ip)]
  distinct := by simp
  lease := none

/-- Which of the two commands succeed, where they are run. -/
structure Ends where
  dump : Bool
  update : Bool

def dumpCommand (net : String) : String := virsh ("net-dumpxml " ++ shellQuote net)

def updateCommand (net : String) (r : Reservation) : String :=
  virsh ("net-update " ++ shellQuote net ++ " add ip-dhcp-host " ++
    shellQuote ("<host mac='" ++ r.mac.text ++ "' name='" ++ r.name.text ++ "' ip='" ++ r.ip.text ++
      "'/>") ++ " --live --config")

def add (host : DhcpHost) (net : Network) : Network := { net with hosts := net.hosts ++ [host] }

/-- The network behind the two commands: the first prints it, the second adds the entry. -/
def serves (conn : Connection) (netName : String) (r : Reservation) (ends : Ends) :
    World Network Reply := fun net q reply net' =>
  ∃ command e, (⟨q, reply⟩ : Exchange Reply) = conn.exchange command e ∧
    (command = dumpCommand netName ∧ net' = net ∧
        (conn.result command e).toOption = (if ends.dump then some net.xml else none) ∨
      command = updateCommand netName r ∧ net' = (if ends.update then add r.entry net else net) ∧
        (conn.result command e).isOk = ends.update)

/-- A call of `ensure_dhcp_reservation` on a network: the line it logs and the network it leaves. -/
def Calls (conn : Connection) (netName : String) (r : Reservation) (ends : Ends) (net : Network)
    (log : ReservationLog) (net' : Network) : Prop :=
  ∃ t, Finishes (ensureDhcpReservationLogged conn netName r.mac.text r.ip.text r.name.text) t
    (.ok log) ∧ Leads (serves conn netName r ends) net t net'

/-- The text the code looks at. -/
def seen (ends : Ends) (net : Network) : String := if ends.dump then net.xml else ""

def classify (r : Reservation) (text : String) : ReservationCheck :=
  classifyDhcpReservation text r.mac.text r.ip.text

def outcome (ends : Ends) : ReservationCheck → ReservationLog
  | .alreadyPresent => .alreadyPresent
  | .ipTakenByOtherMac => .ipTaken
  | .absent => if ends.update then .added else .couldNotAdd

def logged (ends : Ends) (r : Reservation) (net : Network) : ReservationLog :=
  outcome ends (classify r (seen ends net))

def left (ends : Ends) (r : Reservation) (net : Network) : Network :=
  if logged ends r net = .added then add r.entry net else net

section Runs

variable {conn : Connection} {netName : String} {r : Reservation} {ends : Ends} {net net' : Network}
  {log : ReservationLog}

theorem dumpCommand_ne (net : String) (r : Reservation) (net' : String) :
    dumpCommand net ≠ updateCommand net' r := by
  intro h
  have hrest := append_left_cancel _ h
  have hchars := congrArg String.toList hrest
  simp only [String.toList_append, List.append_assoc] at hchars
  have hdump : "net-dumpxml ".toList = 'n' :: 'e' :: 't' :: '-' :: "dumpxml ".toList := by decide
  have hupdate : "net-update ".toList = 'n' :: 'e' :: 't' :: '-' :: 'u' :: "pdate ".toList := by decide
  have hd : "dumpxml ".toList = 'd' :: "umpxml ".toList := by decide
  rw [hdump, hupdate, hd] at hchars
  simp at hchars

theorem leads_exchange {command : String} {e : ProcessEnd} :
    Leads (serves conn netName r ends) net [conn.exchange command e] net' ↔
      (command = dumpCommand netName ∧ net' = net ∧
          (conn.result command e).toOption = (if ends.dump then some net.xml else none) ∨
        command = updateCommand netName r ∧ net' = (if ends.update then add r.entry net else net) ∧
          (conn.result command e).isOk = ends.update) := by
  rw [leads_cons]
  constructor
  · rintro ⟨net₁, ⟨command', e', heq, h⟩, hnil⟩
    obtain rfl := leads_nil.mp hnil
    have hcommand : command = command' := by
      refine conn.query_injective ?_
      rw [← conn.exchange_fst (e := e), ← conn.exchange_fst (e := e')]
      exact congrArg Sigma.fst heq
    subst hcommand
    obtain rfl := conn.exchange_injective heq
    exact h
  · intro h
    exact ⟨net', ⟨command, e, rfl, h⟩, .nil _⟩

theorem finishes_unwrapOrDefault {x : Remote Error String} {t : Trace Reply} {text : String} :
    Finishes (unwrapOrDefault x) t (.ok text) ↔
      ∃ o, Finishes x t o ∧ text = o.toOption.getD "" := by
  rw [unwrapOrDefault, finishes_outcome_bind]
  constructor
  · rintro ⟨o, t₁, t₂, rfl, h, hrest⟩
    cases o with
    | ok out | error e =>
      obtain ⟨rfl, hok⟩ := finishes_pure.mp hrest
      exact ⟨_, by rwa [List.append_nil], Except.ok.inj hok⟩
  · rintro ⟨o, h, rfl⟩
    refine ⟨o, t, [], (List.append_nil t).symm, h, ?_⟩
    cases o <;> exact finishes_pure.mpr ⟨rfl, rfl⟩

theorem exists_result_ok (conn : Connection) (command out : String) :
    ∃ e, conn.result command e = .ok out :=
  ⟨.exited (.code 0) out "", Connection.result_exited⟩

theorem exists_result_error (conn : Connection) (command : String) :
    ∃ e err, conn.result command e = .error err :=
  ⟨.exited (.code 1) "" "", _, Connection.result_exited⟩

theorem finishes_update {t : Trace Reply} {o : Except Error Unit} :
    Finishes (conn.netUpdateAddIpDhcpHost netName r.mac.text r.name.text r.ip.text) t o ↔
      ∃ e, t = [conn.exchange (updateCommand netName r) e] ∧
        o = (conn.result (updateCommand netName r) e).map fun _ => () :=
  Connection.finishes_verb

theorem acts_iff {check : ReservationCheck} :
    (∃ t, Finishes (act conn netName r.mac.text r.ip.text r.name.text check) t (.ok log) ∧
        Leads (serves conn netName r ends) net t net') ↔
      log = outcome ends check ∧
        net' = if outcome ends check = .added then add r.entry net else net := by
  cases check with
  | alreadyPresent | ipTakenByOtherMac =>
    constructor
    · rintro ⟨t, hf, hl⟩
      obtain ⟨rfl, hlog⟩ := finishes_pure.mp hf
      exact ⟨Except.ok.inj hlog, leads_nil.mp hl⟩
    · rintro ⟨rfl, rfl⟩
      exact ⟨[], finishes_pure.mpr ⟨rfl, rfl⟩, .nil _⟩
  | absent =>
    obtain ⟨dump, update⟩ := ends
    constructor
    · rintro ⟨t, hf, hl⟩
      obtain ⟨o, t₁, t₂, rfl, hupdate, hrest⟩ := finishes_outcome_bind.mp hf
      obtain ⟨e, rfl, rfl⟩ := finishes_update.mp hupdate
      obtain ⟨net₁, hl₁, hl₂⟩ := leads_append.mp hl
      obtain ⟨hcommand, -⟩ | ⟨-, hnet, hok⟩ := leads_exchange.mp hl₁
      · exact absurd hcommand.symm (dumpCommand_ne _ _ _)
      · cases hresult : conn.result (updateCommand netName r) e with
        | ok out | error err =>
          rw [hresult] at hok hrest
          obtain rfl : _ = update := hok
          obtain ⟨rfl, hlog⟩ := finishes_pure.mp hrest
          obtain rfl := leads_nil.mp hl₂
          exact ⟨Except.ok.inj hlog, hnet⟩
    · rintro ⟨rfl, rfl⟩
      cases update with
      | true =>
        obtain ⟨e, he⟩ := exists_result_ok conn (updateCommand netName r) ""
        refine ⟨_, finishes_outcome_bind.mpr ⟨_, _, [], rfl, finishes_update.mpr ⟨e, rfl, rfl⟩, ?_⟩,
          leads_exchange.mpr (.inr ⟨rfl, rfl, by rw [he]; rfl⟩)⟩
        rw [he]
        exact finishes_pure.mpr ⟨rfl, rfl⟩
      | false =>
        obtain ⟨e, err, he⟩ := exists_result_error conn (updateCommand netName r)
        refine ⟨_, finishes_outcome_bind.mpr ⟨_, _, [], rfl, finishes_update.mpr ⟨e, rfl, rfl⟩, ?_⟩,
          leads_exchange.mpr (.inr ⟨rfl, rfl, by rw [he]; rfl⟩)⟩
        rw [he]
        exact finishes_pure.mpr ⟨rfl, rfl⟩

theorem finishes_dump {t : Trace Reply} {text : String} :
    Finishes (unwrapOrDefault (conn.netDumpxml netName)) t (.ok text) ↔
      ∃ e, t = [conn.exchange (dumpCommand netName) e] ∧
        text = (conn.result (dumpCommand netName) e).toOption.getD "" := by
  rw [finishes_unwrapOrDefault]
  constructor
  · rintro ⟨o, h, rfl⟩
    obtain ⟨e, rfl, rfl⟩ := Connection.finishes_run.mp h
    exact ⟨e, rfl, rfl⟩
  · rintro ⟨e, rfl, rfl⟩
    exact ⟨_, Connection.finishes_run.mpr ⟨e, rfl, rfl⟩, rfl⟩

/-- The text that comes back decides a call. -/
theorem calls_iff : Calls conn netName r ends net log net' ↔
    log = logged ends r net ∧ net' = left ends r net := by
  have hacts := @acts_iff conn netName r ends net net' log (classify r (seen ends net))
  rw [logged, left, logged, ← hacts]
  constructor
  · rintro ⟨t, hf, hl⟩
    obtain ⟨text, t₁, t₂, rfl, hdump, hact⟩ := finishes_bind_ok.mp hf
    obtain ⟨e, rfl, rfl⟩ := finishes_dump.mp hdump
    obtain ⟨net₁, hl₁, hl₂⟩ := leads_append.mp hl
    obtain ⟨-, hnet, htext⟩ | ⟨hcommand, -⟩ := leads_exchange.mp hl₁
    · rw [hnet] at hl₂
      rw [htext] at hact
      have hseen : (if ends.dump then some net.xml else none).getD "" = seen ends net := by
        rw [seen]
        cases ends.dump <;> rfl
      rw [hseen] at hact
      exact ⟨t₂, hact, hl₂⟩
    · exact absurd hcommand (dumpCommand_ne _ _ _)
  · rintro ⟨t, hact, hl⟩
    have hdump : ∃ e, (conn.result (dumpCommand netName) e).toOption =
        if ends.dump then some net.xml else none := by
      cases ends.dump with
      | true =>
        obtain ⟨e, he⟩ := exists_result_ok conn (dumpCommand netName) net.xml
        exact ⟨e, by rw [he]; rfl⟩
      | false =>
        obtain ⟨e, err, he⟩ := exists_result_error conn (dumpCommand netName)
        exact ⟨e, by rw [he]; rfl⟩
    obtain ⟨e, he⟩ := hdump
    refine ⟨_, finishes_bind_ok.mpr ⟨_, _, t, rfl, finishes_dump.mpr ⟨e, rfl, rfl⟩, ?_⟩,
      leads_append.mpr ⟨net, leads_exchange.mpr (.inl ⟨rfl, rfl, he⟩), hl⟩⟩
    have hseen : (conn.result (dumpCommand netName) e).toOption.getD "" = seen ends net := by
      rw [he, seen]
      cases ends.dump <;> rfl
    rw [hseen]
    exact hact

end Runs

def hasMac (mac : String) (h : DhcpHost) : Bool :=
  h.attributes.any fun a => a.1 = .mac && eqIgnoreAsciiCase a.2.text mac

/-- The network maps the MAC to the address, and no two of its entries share one of them. -/
structure Reserved (r : Reservation) (net : Network) : Prop where
  maps : ∃ h ∈ net.hosts, hasMac r.mac.text h = true ∧ h.has .ip r.ip.text = true
  mac : (net.hosts.filter (hasMac r.mac.text)).length ≤ 1
  ip : (net.hosts.filter (DhcpHost.has .ip r.ip.text)).length ≤ 1

/-- What two calls with the same arguments are to do. -/
structure Reserves (conn : Connection) (netName : String) (r : Reservation) (first second : Ends)
    (net : Network) : Prop where
  kept : ∀ log net', Calls conn netName r first net log net' →
    (log = .added ∨ log = .alreadyPresent → Reserved r net') ∧
      (log ≠ .added → log ≠ .alreadyPresent → net'.hosts = net.hosts)
  idempotent : ∀ log net' log' net'', Calls conn netName r first net log net' →
    Calls conn netName r second net' log' net'' → net''.hosts = net'.hosts

/-- The text has the MAC in some case, or the address. -/
def showsMac (r : Reservation) (text : String) : Bool :=
  contains (toAsciiLowercase text) ("mac='" ++ toAsciiLowercase r.mac.text ++ "'")

def showsIp (r : Reservation) (text : String) : Bool := contains text ("ip='" ++ r.ip.text ++ "'")

/-- A network whose text has the MAC has it for this address, and both once; a blind addition meets
neither; and the second call has its dump and nothing to make up for. -/
structure Settled (r : Reservation) (first second : Ends) (net : Network) : Prop where
  present : first.dump = true → showsMac r net.xml = true → Reserved r net
  blind : first.dump = false → first.update = true → ∀ h ∈ net.hosts,
    hasMac r.mac.text h = false ∧ h.has .ip r.ip.text = false
  again : second.update = true → second.dump = true ∧
    (first.update = true ∨ showsMac r net.xml = true ∨ showsIp r net.xml = true)

section Text

variable {r : Reservation} {net : Network} {h : DhcpHost} {first second : Ends}

theorem infix_join {l : String} {ls : List String} (hl : l ∈ ls) :
    l.toList <:+: (String.join (ls.map fun l => l ++ "\n")).toList := by
  obtain ⟨before, after, rfl⟩ := List.append_of_mem hl
  rw [String.toList_join, List.map_append, List.map_cons, List.flatMap_append, List.flatMap_cons,
    String.toList_append]
  rw [List.append_assoc]
  exact (List.prefix_append _ _).isInfix.trans (List.suffix_append _ _).isInfix

theorem infix_xml (hmem : h ∈ net.hosts) : h.openTag.toList <:+: net.xml.toList := by
  have hline : net.indentation ++ h.openTag ∈ net.lines := by
    rw [Network.lines, List.append_assoc, List.mem_append, List.mem_append, List.mem_flatMap]
    exact .inr (.inl ⟨h, hmem, List.mem_cons_self⟩)
  refine .trans ?_ (infix_join hline)
  rw [String.toList_append]
  exact (List.suffix_append _ _).isInfix

theorem infix_toAsciiLowercase {s t : String} (hst : s.toList <:+: t.toList) :
    (toAsciiLowercase s).toList <:+: (toAsciiLowercase t).toList := by
  rw [toAsciiLowercase, toAsciiLowercase, String.toList_ofList, String.toList_ofList]
  exact hst.map _

theorem toAsciiLowercase_append (s t : String) :
    toAsciiLowercase (s ++ t) = toAsciiLowercase s ++ toAsciiLowercase t := by
  rw [toAsciiLowercase, String.toList_append, List.map_append, String.ofList_append]
  rfl

theorem showsIp_of_has (hmem : h ∈ net.hosts) (hip : h.has .ip r.ip.text = true) :
    showsIp r net.xml = true := by
  obtain ⟨v, hv, htext⟩ := DhcpHost.has_iff.mp hip
  rw [showsIp, contains, decide_eq_true_eq, ← htext, String.toList_append, String.toList_append]
  exact (DhcpHost.infix_openTag hv).trans (infix_xml hmem)

theorem showsMac_of_hasMac (hmem : h ∈ net.hosts) (hmac : hasMac r.mac.text h = true) :
    showsMac r net.xml = true := by
  obtain ⟨⟨k, v⟩, hv, hkey⟩ := List.any_eq_true.mp hmac
  simp only [Bool.and_eq_true, decide_eq_true_eq, eqIgnoreAsciiCase, beq_iff_eq] at hkey
  obtain ⟨rfl, htext⟩ := hkey
  have hinfix : ("mac='" ++ v.text ++ "'").toList <:+: net.xml.toList := by
    rw [String.toList_append, String.toList_append]
    exact (DhcpHost.infix_openTag hv).trans (infix_xml hmem)
  have hneedle : toAsciiLowercase ("mac='" ++ v.text ++ "'") =
      "mac='" ++ toAsciiLowercase r.mac.text ++ "'" := by
    have hkey : toAsciiLowercase "mac='" = "mac='" := by decide
    have hquote : toAsciiLowercase "'" = "'" := by decide
    rw [toAsciiLowercase_append, toAsciiLowercase_append, htext, hkey, hquote]
  rw [showsMac, contains, decide_eq_true_eq, ← hneedle]
  exact infix_toAsciiLowercase hinfix

theorem filter_concat_length {p : DhcpHost → Bool} {hosts : List DhcpHost} (hp : p h = true) :
    ((hosts ++ [h]).filter p).length ≤ 1 ↔ ∀ g ∈ hosts, p g = false := by
  rw [List.filter_append, List.filter_singleton, hp, cond_true, List.length_append,
    List.length_singleton]
  constructor
  · intro hlen g hg
    by_contra hpg
    have hpos : 0 < (hosts.filter p).length :=
      List.length_pos_of_mem (List.mem_filter.mpr ⟨hg, Bool.not_eq_false _ ▸ hpg⟩)
    omega
  · intro hnone
    have hnil : hosts.filter p = [] := List.filter_eq_nil_iff.mpr fun g hg => by simp [hnone g hg]
    rw [hnil]
    exact le_rfl

theorem reserved_add : Reserved r (add r.entry net) ↔ ∀ h ∈ net.hosts,
    hasMac r.mac.text h = false ∧ h.has .ip r.ip.text = false := by
  have hmac : hasMac r.mac.text r.entry = true := by simp [hasMac, Reservation.entry, eqIgnoreAsciiCase]
  have hip : r.entry.has .ip r.ip.text = true := by simp [DhcpHost.has, Reservation.entry]
  constructor
  · rintro ⟨-, h₁, h₂⟩ h hh
    exact ⟨(filter_concat_length hmac).mp h₁ h hh, (filter_concat_length hip).mp h₂ h hh⟩
  · intro hnone
    exact ⟨⟨r.entry, List.mem_append_right _ (List.mem_singleton_self _), hmac, hip⟩,
      (filter_concat_length hmac).mpr fun h hh => (hnone h hh).1,
      (filter_concat_length hip).mpr fun h hh => (hnone h hh).2⟩

theorem showsMac_add : showsMac r (add r.entry net).xml = true := by
  refine showsMac_of_hasMac (h := r.entry) (List.mem_append_right _ (List.mem_singleton_self _)) ?_
  simp [hasMac, Reservation.entry, eqIgnoreAsciiCase]

theorem showsMac_empty : showsMac r "" = false := by
  rw [showsMac, contains, decide_eq_false_iff_not, String.toList_append]
  intro hinfix
  have hlen := hinfix.length_le
  rw [show toAsciiLowercase "" = "" by decide] at hlen
  simp at hlen

theorem showsIp_empty : showsIp r "" = false := by
  rw [showsIp, contains, decide_eq_false_iff_not, String.toList_append]
  intro hinfix
  have hlen := hinfix.length_le
  simp at hlen

theorem classify_eq {text : String} : classify r text =
    if showsMac r text = true then .alreadyPresent
    else if showsIp r text = true then .ipTakenByOtherMac else .absent := rfl

/-- What a call logs; a network that was not dumped shows nothing. -/
theorem logged_eq_ite (ends : Ends) (r : Reservation) (net : Network) : logged ends r net =
    if ends.dump = true ∧ showsMac r net.xml = true then .alreadyPresent
    else if ends.dump = true ∧ showsIp r net.xml = true then .ipTaken
    else if ends.update = true then .added else .couldNotAdd := by
  rw [logged, classify_eq, seen]
  cases hdump : ends.dump with
  | false =>
    rw [if_neg Bool.false_ne_true, showsMac_empty, showsIp_empty]
    rfl
  | true =>
    rw [if_pos rfl]
    simp only [true_and]
    split_ifs <;> simp_all [outcome]

theorem logged_eq_added {ends : Ends} : logged ends r net = .added ↔ ends.update = true ∧
    (ends.dump = true → showsMac r net.xml = false ∧ showsIp r net.xml = false) := by
  rw [logged_eq_ite]
  split_ifs <;> simp_all

theorem logged_eq_alreadyPresent {ends : Ends} : logged ends r net = .alreadyPresent ↔
    ends.dump = true ∧ showsMac r net.xml = true := by
  rw [logged_eq_ite]
  split_ifs <;> simp_all

theorem add_hosts_ne (host : DhcpHost) : (add host net).hosts ≠ net.hosts := by
  intro h
  have hlen := congrArg List.length h
  simp [add] at hlen

/-- A call changes the entries exactly where it logs an addition. -/
theorem left_hosts_eq_iff {ends : Ends} :
    (left ends r net).hosts = net.hosts ↔ logged ends r net ≠ .added := by
  rw [left]
  by_cases hlog : logged ends r net = .added
  · simp [hlog, add_hosts_ne]
  · simp [hlog]

end Text

/-- Two calls keep the entries as they are to be exactly where the network is settled. -/
theorem reserves_iff (conn : Connection) (netName : String) (r : Reservation) (first second : Ends)
    (net : Network) : Reserves conn netName r first second net ↔ Settled r first second net := by
  constructor
  · rintro ⟨hkept, hidempotent⟩
    obtain ⟨hreserved, -⟩ := hkept _ _ (calls_iff.mpr ⟨rfl, rfl⟩)
    have hagain := hidempotent _ _ _ _ (calls_iff.mpr ⟨rfl, rfl⟩) (calls_iff.mpr ⟨rfl, rfl⟩)
    rw [left_hosts_eq_iff] at hagain
    refine ⟨fun hdump hshows => ?_, fun hdump hupdate => ?_, fun hupdate => ⟨?_, ?_⟩⟩
    · have hlog := logged_eq_alreadyPresent.mpr ⟨hdump, hshows⟩
      have hleft : left first r net = net := if_neg (by rw [hlog]; exact ReservationLog.noConfusion)
      exact hleft ▸ hreserved (.inr hlog)
    · have hlog : logged first r net = .added :=
        logged_eq_added.mpr ⟨hupdate, fun h => absurd (hdump.symm.trans h) Bool.false_ne_true⟩
      have hleft : left first r net = add r.entry net := if_pos hlog
      exact reserved_add.mp (hleft ▸ hreserved (.inl hlog))
    · by_contra hdump
      exact hagain (logged_eq_added.mpr ⟨hupdate, fun h => absurd h hdump⟩)
    · by_contra hnone
      simp only [not_or, Bool.not_eq_true] at hnone
      obtain ⟨hfirst, hmac, hip⟩ := hnone
      have hleft : left first r net = net := if_neg fun hlog =>
        absurd (hfirst.symm.trans (logged_eq_added.mp hlog).1) Bool.false_ne_true
      rw [hleft] at hagain
      exact hagain (logged_eq_added.mpr ⟨hupdate, fun _ => ⟨hmac, hip⟩⟩)
  · rintro ⟨hpresent, hblind, hsecond⟩
    refine ⟨fun log net' hcall => ?_, fun log net' log' net'' hcall hcall' => ?_⟩
    · obtain ⟨rfl, rfl⟩ := calls_iff.mp hcall
      refine ⟨?_, fun hlog _ => left_hosts_eq_iff.mpr hlog⟩
      rintro (hlog | hlog)
      · rw [left, if_pos hlog, reserved_add]
        obtain ⟨hupdate, hshows⟩ := logged_eq_added.mp hlog
        cases hdump : first.dump with
        | false => exact hblind hdump hupdate
        | true =>
          obtain ⟨hmac, hip⟩ := hshows hdump
          refine fun h hmem => ⟨?_, ?_⟩
          · by_contra hhas
            have := showsMac_of_hasMac hmem (Bool.not_eq_false _ ▸ hhas)
            exact absurd (hmac.symm.trans this) Bool.false_ne_true
          · by_contra hhas
            have := showsIp_of_has hmem (Bool.not_eq_false _ ▸ hhas)
            exact absurd (hip.symm.trans this) Bool.false_ne_true
      · obtain ⟨hdump, hshows⟩ := logged_eq_alreadyPresent.mp hlog
        rw [left, if_neg (by rw [hlog]; exact ReservationLog.noConfusion)]
        exact hpresent hdump hshows
    · obtain ⟨-, rfl⟩ := calls_iff.mp hcall
      obtain ⟨-, rfl⟩ := calls_iff.mp hcall'
      rw [left_hosts_eq_iff]
      intro hlog'
      obtain ⟨hupdate, hshows⟩ := logged_eq_added.mp hlog'
      obtain ⟨hdump, hwhy⟩ := hsecond hupdate
      obtain ⟨hmac, hip⟩ := hshows hdump
      by_cases hlog : logged first r net = .added
      · rw [left, if_pos hlog, showsMac_add] at hmac
        cases hmac
      · rw [left, if_neg hlog] at hmac hip
        rw [hmac, hip] at hwhy
        obtain hfirst | hwhy | hwhy := hwhy
        · exact hlog (logged_eq_added.mpr ⟨hfirst, fun _ => ⟨hmac, hip⟩⟩)
        · cases hwhy
        · cases hwhy

/-- The control plane's reservation, when `CP_IP` has been changed since it was made. -/
def oldEntry : DhcpHost where
  attributes := [(.mac, ⟨"52:54:00:aa:bb:cc", by decide⟩), (.name, ⟨"hbird-cp1", by decide⟩),
    (.ip, ⟨"192.168.122.10", by decide⟩)]
  distinct := by decide
  lease := none

def oldNetwork : Network := ⟨[], [oldEntry], [], 6, by simp⟩

def newReservation : Reservation where
  mac := ⟨"52:54:00:aa:bb:cc", by decide⟩
  name := ⟨"hbird-cp1", by decide⟩
  ip := ⟨"192.168.122.20", by decide⟩

theorem reserves_stale : ¬ Reserves .onHost "default" newReservation ⟨true, true⟩ ⟨true, true⟩
    oldNetwork := by
  rintro ⟨hkept, -⟩
  have hlog : logged ⟨true, true⟩ newReservation oldNetwork = .alreadyPresent := by decide +kernel
  have hleft : left ⟨true, true⟩ newReservation oldNetwork = oldNetwork :=
    if_neg (by rw [hlog]; exact ReservationLog.noConfusion)
  obtain ⟨⟨h, hmem, -, hip⟩, -, -⟩ := (hkept _ _ (calls_iff.mpr ⟨rfl, rfl⟩)).1 (.inr hlog)
  rw [hleft] at hmem
  obtain rfl := List.mem_singleton.mp hmem
  exact absurd hip (by decide)

end Hbird.Virt.DeployCluster
