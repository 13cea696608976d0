import Hbird.Interaction.Attempts
import Hbird.Virt.Probe
import Hbird.Virt.Quoting

namespace Hbird.Virt.SpawnWorkers

open Hbird.Interaction Hbird.Ssh Hbird.Text Hbird.Shell

def Plan.qcow (plan : Plan) (i : UInt32) : String := diskPath plan.poolDir (plan.workerName i)

def cloneCommand (plan : Plan) (i : UInt32) : String := cpCommand plan.templatePath (plan.qcow i)

def installCommand (plan : Plan) (i : UInt32) : String :=
  virtInstallCommand ⟨plan.workerName i, plan.workerMemory.toNat, plan.workerVcpus, plan.qcow i,
    none, none, none⟩

def joinTmpfile (pid : UInt32) (qcow : String) : String :=
  "/tmp/hbird-join-" ++ toString pid.toNat ++ "-" ++ fileStem qcow ++ ".env"

def removeTmpCommand (tmpfile : String) : String := "rm -f -- " ++ shQuote tmpfile

section Leftovers

variable (conn : Connection) (plan : Plan) (left : String → Prop)

/-- The end of a command is a success. -/
def Succeeds (command : String) (e : ProcessEnd) : Prop := ∃ out, conn.result command e = .ok out

/-- A worker's disk is begun, and its VM is none of those that are defined at the end without the
run's doing. -/
def ClonesDisk (i : UInt32) (x : Exchange Reply) : Prop :=
  x.1 = conn.query (cloneCommand plan i) ∧ ¬ left (plan.workerName i)

/-- The disk's VM is defined, or its removal is asked for. -/
def SettlesDisk (i : UInt32) (x : Exchange Reply) : Prop :=
  (∃ e, x = conn.exchange (installCommand plan i) e ∧ Succeeds conn (installCommand plan i) e) ∨
    x.1 = conn.query (rmCommand (plan.qcow i))

def WritesToken (tmpfile : String) (x : Exchange Reply) : Prop :=
  ∃ joinCmd, x.1 = conn.query (writeJoinTmpCmd joinCmd tmpfile)

def RemovesToken (tmpfile : String) (x : Exchange Reply) : Prop :=
  x.1 = conn.query (removeTmpCommand tmpfile)

/-- The law of a run: every disk that it begins and every file to which it writes a join command is
taken care of. -/
structure LeavesNothing (t : Trace Reply) : Prop where
  disks : Settled (ClonesDisk conn plan left) (SettlesDisk conn plan) t
  tokens : Settled (WritesToken conn) (RemovesToken conn) t

/-- No failing clone and no failing `virt-install`, but for a VM that is defined all the same, and no
failing write of a join command. -/
structure IsHarmless (x : Exchange Reply) : Prop where
  clone : ∀ i e, x = conn.exchange (cloneCommand plan i) e →
    Succeeds conn (cloneCommand plan i) e ∨ left (plan.workerName i)
  install : ∀ i e, x = conn.exchange (installCommand plan i) e →
    Succeeds conn (installCommand plan i) e ∨ left (plan.workerName i)
  write : ∀ joinCmd tmpfile e, x = conn.exchange (writeJoinTmpCmd joinCmd tmpfile) e →
    Succeeds conn (writeJoinTmpCmd joinCmd tmpfile) e

end Leftovers

section Commands

/-- What the commands of a run are told apart by. -/
def Leads (lead : String) (command : String) : Prop := startsWith command lead = true

theorem leads_append {lead a : String} (h : Leads lead a) (b : String) : Leads lead (a ++ b) :=
  startsWith_append_left h b

theorem leads_unique {command : String} {p q : List Char} (hp : Leads (String.ofList p) command)
    (hq : Leads (String.ofList q) command) (hlen : p.length = q.length) : p = q :=
  startsWith_unique hp hq hlen

theorem leads_clone (plan : Plan) (i : UInt32) : Leads "cp --r" (cloneCommand plan i) := by
  refine leads_append (leads_append (leads_append ?_ _) _) _
  exact startsWith_ofList _ _

theorem leads_write (joinCmd tmpfile : String) : Leads "printf" (writeJoinTmpCmd joinCmd tmpfile) := by
  refine leads_append (leads_append (leads_append ?_ _) _) _
  exact startsWith_ofList _ _

theorem leads_install (plan : Plan) (i : UInt32) : Leads "virt-i" (installCommand plan i) := by
  unfold installCommand virtInstallCommand
  repeat' apply leads_append
  exact startsWith_ofList _ _

theorem leads_rm (path : String) : Leads "rm -f " (rmCommand path) := by
  refine leads_append ?_ _
  exact startsWith_ofList _ _

theorem leads_removeTmp (tmpfile : String) : Leads "rm -f " (removeTmpCommand tmpfile) := by
  refine leads_append ?_ _
  exact startsWith_ofList _ _

/-- The commands that neither make nor remove anything on the host. -/
def IsAside (command : String) : Prop :=
  Leads "ssh -i" command ∨ Leads "guestf" command ∨ Leads "virt-c" command ∨ Leads "virsh " command

theorem IsAside.ne {command command' : String} {lead : List Char} (h : IsAside command)
    (h' : Leads (String.ofList lead) command') (hlen : lead.length = 6)
    (hother : lead ∉ [['s', 's', 'h', ' ', '-', 'i'], ['g', 'u', 'e', 's', 't', 'f'],
      ['v', 'i', 'r', 't', '-', 'c'], ['v', 'i', 'r', 's', 'h', ' ']]) : command ≠ command' := by
  rintro rfl
  obtain h | h | h | h := h
  · exact hother (by simp [leads_unique h' h hlen])
  · exact hother (by simp [leads_unique h' h hlen])
  · exact hother (by simp [leads_unique h' h hlen])
  · exact hother (by simp [leads_unique h' h hlen])

theorem isAside_virsh (rest : String) : IsAside (virsh rest) := by
  refine .inr (.inr (.inr ?_))
  unfold virsh
  repeat' apply leads_append
  exact startsWith_ofList _ _

theorem isAside_cpSshCmd (privkeyPath cpIp remoteCmd : String) :
    IsAside (cpSshCmd privkeyPath cpIp remoteCmd) := by
  refine .inl ?_
  unfold cpSshCmd
  repeat' apply leads_append
  exact startsWith_ofList _ _

theorem isAside_lsStateroot (qcow : String) : IsAside (guestfishLsStaterootCmd qcow) := by
  refine .inr (.inl ?_)
  unfold guestfishLsStaterootCmd
  repeat' apply leads_append
  exact startsWith_ofList _ _

theorem isAside_lsDeploy (qcow stateroot : String) : IsAside (guestfishLsDeployCmd qcow stateroot) := by
  refine .inr (.inl ?_)
  unfold guestfishLsDeployCmd
  repeat' apply leads_append
  exact startsWith_ofList _ _

theorem isAside_guestfishInject (qcow path tmpfile : String) :
    IsAside (guestfishInjectCmd qcow path tmpfile) := by
  refine .inr (.inl ?_)
  unfold guestfishInjectCmd
  repeat' apply leads_append
  exact startsWith_ofList _ _

theorem isAside_virtCustomize (qcow tmpfile : String) : IsAside (virtCustomizeInjectCmd qcow tmpfile) := by
  refine .inr (.inr (.inl ?_))
  unfold virtCustomizeInjectCmd
  repeat' apply leads_append
  exact startsWith_ofList _ _

theorem shellQuote_injective {a b : String} (h : shellQuote a = shellQuote b) : a = b := by
  have ha := denotes_shellQuote a
  rw [h] at ha
  exact String.toList_injective (ha.unique (denotes_shellQuote b))

theorem workerName_injective {plan : Plan} {i k : UInt32} (h : plan.workerName i = plan.workerName k) :
    i = k :=
  UInt32.toNat_inj.mp (Nat.repr_injective (append_left_cancel _ h))

theorem qcow_injective {plan : Plan} {i k : UInt32} (h : plan.qcow i = plan.qcow k) : i = k := by
  simp only [Plan.qcow, diskPath, String.append_assoc] at h
  have hfile := congrArg String.toList (append_left_cancel _ (append_left_cancel _ h))
  rw [String.toList_append, String.toList_append] at hfile
  exact workerName_injective (String.toList_injective (List.append_cancel_right hfile))

theorem cloneCommand_injective {plan : Plan} {i k : UInt32}
    (h : cloneCommand plan i = cloneCommand plan k) : i = k :=
  qcow_injective (shellQuote_injective (append_left_cancel _ h))

theorem plain_workerName (plan : Plan) (i : UInt32) :
    ∀ c ∈ (plan.workerName i).toList, shellSafe c = true := by
  have hhead : "hummingbird-k8s-worker-".toList.all shellSafe = true := by decide +kernel
  unfold Plan.workerName
  rw [String.toList_append, List.forall_mem_append]
  refine ⟨List.all_eq_true.mp hhead, fun c hc => ?_⟩
  have hdigits : (toString i.toNat).toList = Nat.toDigits 10 i.toNat := Nat.toList_repr
  rw [hdigits] at hc
  have hdigit : c.isDigit = true := Nat.isDigit_of_mem_toDigits (by decide) (by decide) hc
  simp [shellSafe, Char.isAlphanum, hdigit]

theorem shellQuote_workerName (plan : Plan) (i : UInt32) :
    shellQuote (plan.workerName i) = plan.workerName i := by
  refine String.toList_injective ?_
  rw [toList_shellQuote, quoteWith, if_neg, if_pos (List.all_eq_true.mpr (plain_workerName plan i))]
  unfold Plan.workerName
  rw [String.toList_append]
  exact List.append_ne_nil_of_left_ne_nil (by decide +kernel) _

/-- The name stands between blanks. -/
theorem installCommand_injective {plan : Plan} {i k : UInt32}
    (h : installCommand plan i = installCommand plan k) : i = k := by
  have hsplit : ∀ i : UInt32, ∃ rest, installCommand plan i =
      "virt-install --connect " ++ remoteUri ++ " --name " ++ (plan.workerName i ++ (" " ++ rest)) := by
    intro i
    have hmemory : " --memory " = " " ++ "--memory " := by decide +kernel
    unfold installCommand virtInstallCommand
    rw [shellQuote_workerName, hmemory]
    simp only [String.append_assoc]
    exact ⟨_, rfl⟩
  obtain ⟨rest, hi⟩ := hsplit i
  obtain ⟨rest', hk⟩ := hsplit k
  rw [hi, hk] at h
  have hname := congrArg String.toList (append_left_cancel _ h)
  have hblank : ∀ i : UInt32, ∀ c ∈ (plan.workerName i).toList, ¬ c = ' ' := by
    rintro i c hc rfl
    exact absurd (plain_workerName plan i ' ' hc) (by decide)
  rw [String.toList_append, String.toList_append, String.toList_append, String.toList_append] at hname
  obtain ⟨hnames, -⟩ := Cuts.first_unique (p := fun c => c = ' ') (hblank i) rfl (hblank k) rfl hname
  exact workerName_injective (String.toList_injective hnames)

theorem tokens_writeJoinTmpCmd (joinCmd tmpfile : String) : ∃ ts w,
    tokens (writeJoinTmpCmd joinCmd tmpfile).toList = some (ts ++ [.word w]) ∧
      w.fixed? noBraces = some tmpfile.toList := by
  obtain ⟨w, -, hrun⟩ := denotes_shQuote joinCmd
  obtain ⟨w', hw', hrun'⟩ := denotes_shQuote tmpfile
  obtain ⟨front, hhead⟩ : ∃ front, (between []).run "printf '%s\\n' ".toList = some (between front) :=
    ⟨[.word ("printf".toList.map .bare), .word ("%s\\n".toList.map .quoted)], by decide +kernel⟩
  obtain ⟨s, hs, hstep, -⟩ := hrun front
  obtain ⟨s', hs', -, hfinish⟩ := hrun' (front ++ [.word w] ++ [.operator '>'])
  refine ⟨front ++ [.word w] ++ [.operator '>'], w', ?_, hw'⟩
  have htext : (writeJoinTmpCmd joinCmd tmpfile).toList = "printf '%s\\n' ".toList ++
      ((shQuote joinCmd).toList ++ (' ' :: '>' :: ' ' :: (shQuote tmpfile).toList)) := by
    delta writeJoinTmpCmd
    simp only [String.toList_append, List.append_assoc]
    rfl
  have hoperator : ∀ out, ∀ cs, (between out).run ('>' :: ' ' :: cs) =
      (between (out ++ [.operator '>'])).run cs := fun out cs => rfl
  rw [tokens, htext]
  change ((between []).run _).bind _ = _
  rw [State.run_append, hhead, Option.bind_some, State.run_append, hs, Option.bind_some, State.run,
    hstep, Option.bind_some, hoperator, hs', Option.bind_some, hfinish]

theorem writeJoinTmpCmd_injective {joinCmd joinCmd' tmpfile tmpfile' : String}
    (h : writeJoinTmpCmd joinCmd tmpfile = writeJoinTmpCmd joinCmd' tmpfile') : tmpfile = tmpfile' := by
  obtain ⟨ts, w, htokens, hw⟩ := tokens_writeJoinTmpCmd joinCmd tmpfile
  obtain ⟨ts', w', htokens', hw'⟩ := tokens_writeJoinTmpCmd joinCmd' tmpfile'
  rw [h, htokens'] at htokens
  obtain ⟨-, hlast⟩ := List.append_inj' (Option.some.inj htokens) rfl
  obtain rfl : w' = w := by simpa using hlast
  exact String.toList_injective (Option.some.inj (hw.symm.trans hw'))

/-- A disk's removal is none of a temporary file. -/
theorem rmCommand_ne (plan : Plan) (i : UInt32) (pid : UInt32) (qcow : String) :
    rmCommand (plan.qcow i) ≠ removeTmpCommand (joinTmpfile pid qcow) := by
  intro h
  unfold rmCommand removeTmpCommand at h
  have hdisk := denotes_shellQuote (plan.qcow i)
  rw [append_left_cancel _ h] at hdisk
  have hpath := congrArg List.getLast? (hdisk.unique (denotes_shQuote (joinTmpfile pid qcow)))
  have hqcow : ".qcow2".toList.getLast? = some '2' := by decide +kernel
  have henv : ".env".toList.getLast? = some 'v' := by decide +kernel
  unfold Plan.qcow diskPath joinTmpfile at hpath
  simp only [String.toList_append, List.getLast?_append, hqcow, henv, Option.some_or] at hpath
  exact absurd (Option.some.inj hpath) (by decide)

end Commands

section Exchanges

variable {conn : Connection} {plan : Plan} {left : String → Prop} {i k : UInt32}
  {x : Exchange Reply} {e : ProcessEnd} {s t u : Trace Reply} {joinCmd tmpfile : String}

/-- An exchange over none of the commands that the law is about. -/
structure IsNeutral (conn : Connection) (plan : Plan) (x : Exchange Reply) : Prop where
  clone : ∀ i, x.1 ≠ conn.query (cloneCommand plan i)
  install : ∀ i, x.1 ≠ conn.query (installCommand plan i)
  write : ∀ joinCmd tmpfile, x.1 ≠ conn.query (writeJoinTmpCmd joinCmd tmpfile)

theorem query_ne {c c' : String} (hx : x.1 = conn.query c) (hne : c ≠ c') : x.1 ≠ conn.query c' :=
  fun h => hne (Connection.query_injective (hx.symm.trans h))

theorem leads_ne {c c' : String} {p q : List Char} (hp : Leads (String.ofList p) c)
    (hq : Leads (String.ofList q) c') (hlen : p.length = q.length) (hne : p ≠ q) : c ≠ c' := by
  rintro rfl
  exact hne (leads_unique hp hq hlen)

theorem IsAside.neutral {c : String} (h : IsAside c) (hx : x.1 = conn.query c) :
    IsNeutral conn plan x where
  clone i := query_ne hx (h.ne (leads_clone plan i) rfl (by decide))
  install i := query_ne hx (h.ne (leads_install plan i) rfl (by decide))
  write joinCmd tmpfile := query_ne hx (h.ne (leads_write joinCmd tmpfile) rfl (by decide))

theorem neutral_rm {c : String} (h : Leads "rm -f " c) (hx : x.1 = conn.query c) :
    IsNeutral conn plan x where
  clone i := query_ne hx (leads_ne h (leads_clone plan i) rfl (by decide))
  install i := query_ne hx (leads_ne h (leads_install plan i) rfl (by decide))
  write joinCmd tmpfile := query_ne hx (leads_ne h (leads_write joinCmd tmpfile) rfl (by decide))

theorem IsNeutral.harmless (h : IsNeutral conn plan x) : IsHarmless conn plan left x where
  clone i _ hx := absurd (hx ▸ Connection.exchange_fst) (h.clone i)
  install i _ hx := absurd (hx ▸ Connection.exchange_fst) (h.install i)
  write joinCmd tmpfile _ hx := absurd (hx ▸ Connection.exchange_fst) (h.write joinCmd tmpfile)

theorem IsNeutral.not_clonesDisk (h : IsNeutral conn plan x) (k : UInt32) :
    ¬ ClonesDisk conn plan left k x := fun hk => h.clone k hk.1

theorem IsNeutral.not_writesToken (h : IsNeutral conn plan x) (k : String) :
    ¬ WritesToken conn k x := fun ⟨joinCmd, hk⟩ => h.write joinCmd k hk

theorem exchange_eq {c c' : String} {e e' : ProcessEnd} (h : conn.exchange c e = conn.exchange c' e') :
    c = c' ∧ e = e' := by
  have hquery := congrArg Sigma.fst h
  rw [Connection.exchange_fst, Connection.exchange_fst] at hquery
  obtain rfl := Connection.query_injective hquery
  exact ⟨rfl, Connection.exchange_injective h⟩

theorem isHarmless_clone : IsHarmless conn plan left (conn.exchange (cloneCommand plan i) e) ↔
    Succeeds conn (cloneCommand plan i) e ∨ left (plan.workerName i) := by
  refine ⟨fun h => h.clone i e rfl, fun h => ⟨fun k e' hx => ?_, fun k e' hx => ?_, ?_⟩⟩
  · obtain ⟨hc, rfl⟩ := exchange_eq hx
    obtain rfl := cloneCommand_injective hc
    exact h
  · exact absurd (exchange_eq hx).1 (leads_ne (leads_clone plan i) (leads_install plan k) rfl (by decide))
  · intro joinCmd tmpfile e' hx
    exact absurd (exchange_eq hx).1 (leads_ne (leads_clone plan i) (leads_write _ _) rfl (by decide))

theorem isHarmless_write :
    IsHarmless conn plan left (conn.exchange (writeJoinTmpCmd joinCmd tmpfile) e) ↔
      Succeeds conn (writeJoinTmpCmd joinCmd tmpfile) e := by
  refine ⟨fun h => h.write joinCmd tmpfile e rfl, fun h => ⟨fun k e' hx => ?_, fun k e' hx => ?_, ?_⟩⟩
  · exact absurd (exchange_eq hx).1 (leads_ne (leads_write _ _) (leads_clone plan k) rfl (by decide))
  · exact absurd (exchange_eq hx).1 (leads_ne (leads_write _ _) (leads_install plan k) rfl (by decide))
  · intro joinCmd' tmpfile' e' hx
    obtain ⟨hc, rfl⟩ := exchange_eq hx
    rwa [← hc]

theorem isHarmless_install : IsHarmless conn plan left (conn.exchange (installCommand plan i) e) ↔
    Succeeds conn (installCommand plan i) e ∨ left (plan.workerName i) := by
  refine ⟨fun h => h.install i e rfl, fun h => ⟨fun k e' hx => ?_, fun k e' hx => ?_, ?_⟩⟩
  · exact absurd (exchange_eq hx).1 (leads_ne (leads_install plan i) (leads_clone plan k) rfl (by decide))
  · obtain ⟨hc, rfl⟩ := exchange_eq hx
    obtain rfl := installCommand_injective hc
    exact h
  · intro joinCmd tmpfile e' hx
    exact absurd (exchange_eq hx).1 (leads_ne (leads_install plan i) (leads_write _ _) rfl (by decide))

theorem settlesDisk_install_iff {p : Prop} :
    p ∨ SettlesDisk conn plan i (conn.exchange (installCommand plan i) e) ↔
      Succeeds conn (installCommand plan i) e ∨ p := by
  rw [or_comm]
  refine or_congr_left ⟨?_, fun h => .inl ⟨e, rfl, h⟩⟩
  rintro (⟨e', hx, h⟩ | h)
  · obtain ⟨-, rfl⟩ := exchange_eq hx
    exact h
  · exact absurd h (query_ne Connection.exchange_fst
      (leads_ne (leads_install plan i) (leads_rm _) rfl (by decide)))

/-- A worker's trace behind its clone: whether the disk is settled. -/
theorem disks_clone (ht : ∀ x ∈ t, ∀ k, ¬ ClonesDisk conn plan left k x) :
    Settled (ClonesDisk conn plan left) (SettlesDisk conn plan)
        (conn.exchange (cloneCommand plan i) e :: t) ↔
      left (plan.workerName i) ∨ ∃ y ∈ t, SettlesDisk conn plan i y := by
  rw [Settled, and_iff_left (settled_of_aside ht)]
  constructor
  · intro h
    by_cases hleft : left (plan.workerName i)
    · exact .inl hleft
    · exact .inr (h i ⟨Connection.exchange_fst, hleft⟩)
  · rintro h k ⟨hk, hleft⟩
    rw [Connection.exchange_fst] at hk
    obtain rfl := cloneCommand_injective (Connection.query_injective hk)
    exact h.resolve_left hleft

theorem tokens_write (hs : ∀ x ∈ s, ∀ k, ¬ WritesToken conn k x)
    (ht : ∀ x ∈ t, ∀ k, ¬ WritesToken conn k x) :
    Settled (WritesToken conn) (RemovesToken conn)
        (s ++ conn.exchange (writeJoinTmpCmd joinCmd tmpfile) e :: t) ↔
      ∃ y ∈ t, RemovesToken conn tmpfile y := by
  rw [settled_append_aside hs, Settled, and_iff_left (settled_of_aside ht)]
  constructor
  · exact fun h => h tmpfile ⟨joinCmd, Connection.exchange_fst⟩
  · rintro h k ⟨joinCmd', hk⟩
    rw [Connection.exchange_fst] at hk
    obtain rfl := writeJoinTmpCmd_injective (Connection.query_injective hk)
    exact h

theorem not_clonesDisk {c : String} {lead : List Char} (hc : Leads (String.ofList lead) c)
    (hlen : lead.length = 6) (hne : lead ≠ ['c', 'p', ' ', '-', '-', 'r']) :
    ∀ k, ¬ ClonesDisk conn plan left k (conn.exchange c e) := fun k hk =>
  query_ne Connection.exchange_fst (leads_ne hc (leads_clone plan k) hlen hne) hk.1

theorem not_writesToken {c : String} {lead : List Char} (hc : Leads (String.ofList lead) c)
    (hlen : lead.length = 6) (hne : lead ≠ ['p', 'r', 'i', 'n', 't', 'f']) :
    ∀ k, ¬ WritesToken conn k (conn.exchange c e) := fun k ⟨joinCmd, hk⟩ =>
  query_ne Connection.exchange_fst (leads_ne hc (leads_write joinCmd k) hlen hne) hk

theorem not_settlesDisk {c : String} {lead : List Char} (hc : Leads (String.ofList lead) c)
    (hlen : lead.length = 6) (hi : lead ≠ ['v', 'i', 'r', 't', '-', 'i']) (hr : c ≠ rmCommand (plan.qcow i)) :
    ¬ SettlesDisk conn plan i (conn.exchange c e) := by
  rintro (⟨e', hx, -⟩ | hx)
  · exact leads_ne hc (leads_install plan i) hlen hi (exchange_eq hx).1
  · rw [Connection.exchange_fst] at hx
    exact hr (Connection.query_injective hx)

theorem IsAside.not_settlesDisk {c : String} (h : IsAside c) (hx : x.1 = conn.query c) :
    ¬ SettlesDisk conn plan i x := by
  rintro (⟨e, rfl, -⟩ | hr)
  · exact query_ne hx (h.ne (leads_install plan i) rfl (by decide)) Connection.exchange_fst
  · exact query_ne hx (h.ne (leads_rm _) rfl (by decide)) hr

end Exchanges

section Worker

variable {conn : Connection} {plan : Plan} {left : String → Prop} {pid : UInt32}
  {cpIp privkeyPath qcow joinCmd command text : String} {injector : Injector} {i : UInt32}
  {t : Trace Reply}

theorem finishes_wrapped_verb {r : Except Failure Unit} :
    Finishes (wrapped text (conn.verb command)) t r ↔ ∃ e, t = [conn.exchange command e] ∧
      r = ((conn.result command e).map fun _ => ()).mapError fun x => .msg (text ++ x.toText) := by
  rw [wrapped, finishes_context]
  constructor
  · rintro ⟨x, rfl, h⟩
    obtain ⟨e, rfl, rfl⟩ := Connection.finishes_verb.mp h
    exact ⟨e, rfl, rfl⟩
  · rintro ⟨e, rfl, rfl⟩
    exact ⟨_, rfl, Connection.finishes_verb.mpr ⟨e, rfl, rfl⟩⟩

theorem succeeds_iff {e : ProcessEnd} {r : Except Failure Unit}
    (h : r = ((conn.result command e).map fun _ => ()).mapError fun x => .msg (text ++ x.toText)) :
    Succeeds conn command e ↔ r = .ok () := by
  cases hr : conn.result command e with
  | ok out =>
    rw [hr] at h
    exact iff_of_true ⟨out, hr⟩ h
  | error err =>
    rw [hr] at h
    refine iff_of_false ?_ (h ▸ nofun)
    rintro ⟨out, hout⟩
    rw [hr] at hout
    cases hout

theorem finishes_ignore {α : Type} {x : Remote Error α} {r : Except Failure Unit}
    (h : Finishes (ignore x) t r) : r = .ok () ∧ ∃ o, Finishes x t o := by
  obtain ⟨o, t₁, t₂, rfl, h₁, h₂⟩ := finishes_outcome_bind.mp h
  obtain ⟨rfl, rfl⟩ := finishes_pure.mp h₂
  rw [List.append_nil]
  exact ⟨rfl, o, h₁⟩

/-- An end of a command that is a success, or one that is an error. -/
theorem succeeds_or (conn : Connection) (command : String) (e : ProcessEnd) :
    (∃ out, conn.result command e = .ok out) ∨ ∃ err, conn.result command e = .error err := by
  cases conn.result command e with
  | ok out => exact .inl ⟨out, rfl⟩
  | error err => exact .inr ⟨err, rfl⟩

theorem not_succeeds {e : ProcessEnd} {err : Error} (h : conn.result command e = .error err) :
    ¬ Succeeds conn command e := by
  rintro ⟨out, hout⟩
  rw [h] at hout
  cases hout

/-- The exchanges over commands that make or remove nothing. -/
def Asides (conn : Connection) (t : Trace Reply) : Prop := ∀ x ∈ t, ∃ c, x.1 = conn.query c ∧ IsAside c

theorem finishes_mintJoin {n : Nat} {r : Except Failure (Option String)} (hc : IsAside command)
    (h : Finishes (mintJoin conn command n) t r) : (∃ joinCmd, r = .ok joinCmd) ∧ Asides conn t := by
  induction n generalizing t with
  | zero =>
    obtain ⟨rfl, rfl⟩ := finishes_pure.mp h
    exact ⟨⟨none, rfl⟩, fun x hx => absurd hx List.not_mem_nil⟩
  | succ n ih =>
    obtain ⟨o, t₁, t₂, rfl, h₁, h₂⟩ := finishes_outcome_bind.mp h
    obtain ⟨e, rfl, -⟩ := Connection.finishes_run.mp h₁
    have hask : ∃ c, (conn.exchange command e).1 = conn.query c ∧ IsAside c :=
      ⟨command, Connection.exchange_fst, hc⟩
    cases o with
    | error err =>
      obtain ⟨hr, hrest⟩ := ih h₂
      exact ⟨hr, List.forall_mem_cons.mpr ⟨hask, hrest⟩⟩
    | ok out =>
      dsimp only at h₂
      split at h₂
      · obtain ⟨rfl, rfl⟩ := finishes_pure.mp h₂
        exact ⟨⟨_, rfl⟩, List.forall_mem_singleton.mpr hask⟩
      · obtain ⟨hr, hrest⟩ := ih h₂
        exact ⟨hr, List.forall_mem_cons.mpr ⟨hask, hrest⟩⟩

theorem puts_execShell {φ : Query → Prop} (h : φ (conn.query command)) :
    Puts φ (conn.execShell command).run := by
  intro t o hr x hx
  obtain ⟨e, rfl, -⟩ := Connection.finishes_run.mp hr
  rw [List.mem_singleton.mp hx, Connection.exchange_fst]
  exact h

theorem puts_unwrapOrDefault {φ : Query → Prop} (h : φ (conn.query command)) :
    Puts φ (unwrapOrDefault (conn.execShell command)).run := by
  refine puts_exec_bind (puts_outcome (puts_execShell h)) fun o => ?_
  cases o <;> exact puts_done _ _

theorem puts_guestfishInject {φ : Query → Prop} {tmpfile : String}
    (h : ∀ c, IsAside c → φ (conn.query c)) : Puts φ (guestfishInject conn qcow tmpfile).run := by
  unfold guestfishInject
  refine puts_exec_bind (puts_unwrapOrDefault (h _ (isAside_lsStateroot qcow))) fun out => ?_
  refine puts_exec_bind ?_ fun deployHash => puts_wrapped (h _ (isAside_guestfishInject qcow _ tmpfile))
  by_cases hout : trim out ≠ ""
  · rw [if_pos hout]
    exact puts_exec_bind (puts_unwrapOrDefault (h _ (isAside_lsDeploy qcow (trim out)))) fun _ =>
      puts_done _ _
  · rw [if_neg hout]
    exact puts_done _ _

/-- What an injection asks for, behind the write of its temporary file. -/
theorem finishes_injectJoinEnv {r : Except Failure Unit}
    (h : Finishes (injectJoinEnv conn pid qcow joinCmd injector) t r) : ∃ e u,
      t = conn.exchange (writeJoinTmpCmd joinCmd (joinTmpfile pid qcow)) e :: u ∧
      ((¬ Succeeds conn (writeJoinTmpCmd joinCmd (joinTmpfile pid qcow)) e ∧ u = [] ∧
          ∃ err, r = .error err) ∨
        Succeeds conn (writeJoinTmpCmd joinCmd (joinTmpfile pid qcow)) e ∧ ∃ m d, Asides conn m ∧
          u = m ++ [conn.exchange (removeTmpCommand (joinTmpfile pid qcow)) d]) := by
  obtain ⟨err, rfl, he⟩ | ⟨out, t₁, t₂, rfl, h₁, h₂⟩ := finishes_bind.mp h
  · obtain ⟨e, rfl, hr⟩ := finishes_wrapped.mp he
    refine ⟨e, [], rfl, .inl ⟨?_, rfl, err, rfl⟩⟩
    rintro ⟨out, hout⟩
    change Except.error err = Except.mapError _ (conn.result (writeJoinTmpCmd _ (joinTmpfile _ _)) e) at hr
    rw [hout] at hr
    cases hr
  · obtain ⟨e, rfl, hr⟩ := finishes_wrapped.mp h₁
    refine ⟨e, t₂, rfl, .inr ⟨?_, ?_⟩⟩
    · obtain hok | ⟨err, herr⟩ := succeeds_or conn (writeJoinTmpCmd joinCmd (joinTmpfile pid qcow)) e
      · exact hok
      · change Except.ok out =
          Except.mapError _ (conn.result (writeJoinTmpCmd _ (joinTmpfile _ _)) e) at hr
        rw [herr] at hr
        cases hr
    · obtain ⟨result, m, t₃, rfl, hm, h₃⟩ := finishes_outcome_bind.mp h₂
      obtain ⟨err, -, he⟩ | ⟨_, t₄, t₅, rfl, h₄, h₅⟩ := finishes_bind.mp h₃
      · cases (finishes_ignore he).1
      · obtain ⟨-, o, ho⟩ := finishes_ignore h₄
        obtain ⟨d, rfl, -⟩ := Connection.finishes_run.mp ho
        refine ⟨m, d, ?_, ?_⟩
        · cases injector with
          | guestfish =>
            have hputs : Puts (fun q => ∃ c, q = conn.query c ∧ IsAside c)
                (guestfishInject conn qcow (joinTmpfile pid qcow)).run :=
              puts_guestfishInject fun c hc => ⟨c, rfl, hc⟩
            exact hputs m _ hm
          | virtCustomize =>
            have hputs : Puts (fun q => ∃ c, q = conn.query c ∧ IsAside c)
                (wrapped "virt-customize inject failed: "
                  (conn.execShell (virtCustomizeInjectCmd qcow (joinTmpfile pid qcow)))).run :=
              puts_wrapped ⟨_, rfl, isAside_virtCustomize qcow _⟩
            exact hputs m _ hm
        · cases result with
          | ok _ =>
            obtain ⟨rfl, -⟩ := finishes_pure.mp h₅
            rfl
          | error err =>
            obtain ⟨rfl, -⟩ := finishes_throw.mp h₅
            rfl

end Worker

section Accounts

variable {conn : Connection} {plan : Plan} {left : String → Prop} {pid i : UInt32}
  {cpIp privkeyPath qcow joinCmd tmpfile : String} {injector : Injector} {e w d : ProcessEnd}
  {x y : Exchange Reply} {m m' t : Trace Reply} {o : Except Failure Unit}

theorem Asides.neutral (hm : Asides conn m) : ∀ x ∈ m, IsNeutral conn plan x := by
  intro x hx
  obtain ⟨c, hc, haside⟩ := hm x hx
  exact haside.neutral hc

theorem neutral_rmCommand (path : String) :
    IsNeutral conn plan (conn.exchange (rmCommand path) e) :=
  neutral_rm (leads_rm path) Connection.exchange_fst

theorem neutral_removeTmp (tmpfile : String) :
    IsNeutral conn plan (conn.exchange (removeTmpCommand tmpfile) e) :=
  neutral_rm (leads_removeTmp tmpfile) Connection.exchange_fst

/-- What stands behind the clone of a worker's disk. -/
theorem leavesNothing_clone (ht : ∀ x ∈ t, ∀ k, ¬ ClonesDisk conn plan left k x) :
    LeavesNothing conn plan left (conn.exchange (cloneCommand plan i) e :: t) ↔
      (left (plan.workerName i) ∨ ∃ y ∈ t, SettlesDisk conn plan i y) ∧
        Settled (WritesToken conn) (RemovesToken conn) t := by
  have hnot : ∀ k, ¬ WritesToken conn k (conn.exchange (cloneCommand plan i) e) :=
    not_writesToken (leads_clone plan i) rfl (by decide)
  have htokens : Settled (WritesToken conn) (RemovesToken conn)
      (conn.exchange (cloneCommand plan i) e :: t) ↔
        Settled (WritesToken conn) (RemovesToken conn) t := settled_cons_aside hnot
  exact ⟨fun h => ⟨(disks_clone ht).mp h.disks, htokens.mp h.tokens⟩,
    fun h => ⟨(disks_clone ht).mpr h.1, htokens.mpr h.2⟩⟩

theorem leavesNothing_neutral (hx : IsNeutral conn plan x) :
    LeavesNothing conn plan left (x :: t) ↔ LeavesNothing conn plan left t :=
  ⟨fun h => ⟨(settled_cons_aside hx.not_clonesDisk).mp h.disks,
      (settled_cons_aside hx.not_writesToken).mp h.tokens⟩,
    fun h => ⟨(settled_cons_aside hx.not_clonesDisk).mpr h.disks,
      (settled_cons_aside hx.not_writesToken).mpr h.tokens⟩⟩

theorem leavesNothing_of_neutral (ht : ∀ x ∈ t, IsNeutral conn plan x) :
    LeavesNothing conn plan left t :=
  ⟨settled_of_aside fun x hx => (ht x hx).not_clonesDisk,
    settled_of_aside fun x hx => (ht x hx).not_writesToken⟩

theorem settlesDisk_rm : SettlesDisk conn plan i (conn.exchange (rmCommand (plan.qcow i)) d) :=
  .inr Connection.exchange_fst

/-- No join command could be had: the disk is removed. -/
theorem leavesNothing_noToken (hm : Asides conn m) : LeavesNothing conn plan left
    (conn.exchange (cloneCommand plan i) e :: (m ++ [conn.exchange (rmCommand (plan.qcow i)) d])) := by
  have hall : ∀ x ∈ m ++ [conn.exchange (rmCommand (plan.qcow i)) d], IsNeutral conn plan x :=
    List.forall_mem_append.mpr ⟨hm.neutral, List.forall_mem_singleton.mpr (neutral_rmCommand _)⟩
  rw [leavesNothing_clone fun x hx => (hall x hx).not_clonesDisk]
  exact ⟨.inr ⟨_, List.mem_append_right _ (List.mem_singleton_self _), settlesDisk_rm⟩,
    settled_of_aside fun x hx => (hall x hx).not_writesToken⟩

/-- The join command could not be written: its file is not removed. -/
theorem not_leavesNothing_unwritten (hm : Asides conn m) : ¬ LeavesNothing conn plan left
    (conn.exchange (cloneCommand plan i) e ::
      (m ++ conn.exchange (writeJoinTmpCmd joinCmd (joinTmpfile pid qcow)) w ::
        [conn.exchange (rmCommand (plan.qcow i)) d])) := by
  intro h
  have hlast : ∀ x ∈ [conn.exchange (rmCommand (plan.qcow i)) d], IsNeutral conn plan x :=
    List.forall_mem_singleton.mpr (neutral_rmCommand _)
  have hneutral : ∀ x ∈ m, IsNeutral conn plan x := hm.neutral
  have htokens := (settled_cons_aside
    (not_writesToken (leads_clone plan i) rfl (by decide))).mp h.tokens
  obtain ⟨y, hy, hremoves⟩ := (tokens_write (fun x hx => (hneutral x hx).not_writesToken)
    fun x hx => (hlast x hx).not_writesToken).mp htokens
  rw [List.mem_singleton.mp hy, RemovesToken, Connection.exchange_fst] at hremoves
  exact rmCommand_ne plan i pid qcow (Connection.query_injective hremoves)

/-- The join command was written and its file removed: what comes last decides. -/
theorem leavesNothing_written (hm : Asides conn m) (hm' : Asides conn m')
    (hclone : ∀ k, ¬ ClonesDisk conn plan left k y) (hwrite : ∀ k, ¬ WritesToken conn k y) :
    LeavesNothing conn plan left (conn.exchange (cloneCommand plan i) e ::
      (m ++ conn.exchange (writeJoinTmpCmd joinCmd (joinTmpfile pid qcow)) w ::
        (m' ++ conn.exchange (removeTmpCommand (joinTmpfile pid qcow)) d :: [y]))) ↔
      left (plan.workerName i) ∨ SettlesDisk conn plan i y := by
  have hremove : IsNeutral conn plan (conn.exchange (removeTmpCommand (joinTmpfile pid qcow)) d) :=
    neutral_removeTmp _
  have hneutral : ∀ x ∈ m, IsNeutral conn plan x := hm.neutral
  have hneutral' : ∀ x ∈ m', IsNeutral conn plan x := hm'.neutral
  rw [leavesNothing_clone, tokens_write, and_iff_left]
  · refine or_congr_right ⟨?_, fun h => ⟨y, by simp, h⟩⟩
    rintro ⟨z, hz, hsettles⟩
    have haside : ∀ m : Trace Reply, Asides conn m → z ∉ m := fun m hm hz => by
      obtain ⟨c, hc, haside⟩ := hm z hz
      exact haside.not_settlesDisk hc hsettles
    simp only [List.mem_append, List.mem_cons, haside m hm, haside m' hm', List.not_mem_nil,
      or_false, false_or] at hz
    obtain rfl | rfl | rfl := hz
    · exact absurd hsettles (not_settlesDisk (leads_write _ _) rfl (by decide)
        (leads_ne (leads_write _ _) (leads_rm _) rfl (by decide)))
    · exact absurd hsettles (not_settlesDisk (leads_removeTmp _) rfl (by decide)
        fun hc => rmCommand_ne plan i pid qcow hc.symm)
    · exact hsettles
  · exact ⟨conn.exchange (removeTmpCommand (joinTmpfile pid qcow)) d, by simp, Connection.exchange_fst⟩
  · exact fun x hx => (hneutral x hx).not_writesToken
  · refine List.forall_mem_append.mpr ⟨fun x hx => (hneutral' x hx).not_writesToken, ?_⟩
    exact List.forall_mem_cons.mpr ⟨hremove.not_writesToken, List.forall_mem_singleton.mpr hwrite⟩
  · refine List.forall_mem_append.mpr ⟨fun x hx => (hm.neutral x hx).not_clonesDisk, ?_⟩
    refine List.forall_mem_cons.mpr ⟨not_clonesDisk (leads_write _ _) rfl (by decide), ?_⟩
    refine List.forall_mem_append.mpr ⟨fun x hx => (hm'.neutral x hx).not_clonesDisk, ?_⟩
    exact List.forall_mem_cons.mpr ⟨hremove.not_clonesDisk, List.forall_mem_singleton.mpr hclone⟩

/-- The law of a part of a run: it holds exactly where no exchange does harm, and where the part ends
well. -/
structure Accounted (conn : Connection) (plan : Plan) (left : String → Prop) (t : Trace Reply)
    (o : Except Failure Unit) : Prop where
  iff : LeavesNothing conn plan left t ↔ ∀ x ∈ t, IsHarmless conn plan left x
  ok : o = .ok () → LeavesNothing conn plan left t

theorem accounted_neutral (ht : ∀ x ∈ t, IsNeutral conn plan x) : Accounted conn plan left t o :=
  ⟨iff_of_true (leavesNothing_of_neutral ht) fun x hx => (ht x hx).harmless,
    fun _ => leavesNothing_of_neutral ht⟩

theorem Accounted.cons (h : Accounted conn plan left t o) (hx : IsNeutral conn plan x) :
    Accounted conn plan left (x :: t) o := by
  refine ⟨?_, fun ho => (leavesNothing_neutral hx).mpr (h.ok ho)⟩
  rw [leavesNothing_neutral hx, h.iff, List.forall_mem_cons]
  exact (and_iff_right hx.harmless).symm

theorem accounted_written (hm : Asides conn m) (hm' : Asides conn m')
    (he : Succeeds conn (cloneCommand plan i) e)
    (hw : Succeeds conn (writeJoinTmpCmd joinCmd (joinTmpfile pid qcow)) w)
    (hclone : ∀ k, ¬ ClonesDisk conn plan left k y) (hwrite : ∀ k, ¬ WritesToken conn k y)
    (hy : left (plan.workerName i) ∨ SettlesDisk conn plan i y ↔ IsHarmless conn plan left y)
    (ho : o = .ok () → IsHarmless conn plan left y) :
    Accounted conn plan left (conn.exchange (cloneCommand plan i) e ::
      (m ++ conn.exchange (writeJoinTmpCmd joinCmd (joinTmpfile pid qcow)) w ::
        (m' ++ conn.exchange (removeTmpCommand (joinTmpfile pid qcow)) d :: [y]))) o := by
  have hremove : IsNeutral conn plan (conn.exchange (removeTmpCommand (joinTmpfile pid qcow)) d) :=
    neutral_removeTmp _
  refine ⟨?_, fun h => (leavesNothing_written hm hm' hclone hwrite).mpr (hy.mpr (ho h))⟩
  rw [leavesNothing_written hm hm' hclone hwrite, hy]
  simp only [List.forall_mem_cons, List.forall_mem_append, isHarmless_clone, isHarmless_write,
    hremove.harmless, he, hw, true_or, true_and]
  constructor
  · exact fun h => ⟨fun x hx => (hm.neutral x hx).harmless, fun x hx => (hm'.neutral x hx).harmless, h,
      fun x hx => absurd hx List.not_mem_nil⟩
  · exact fun h => h.2.2.1

theorem accounted_cloneFailed {err : Failure} (he : ¬ Succeeds conn (cloneCommand plan i) e) :
    Accounted conn plan left [conn.exchange (cloneCommand plan i) e] (.error err) := by
  refine ⟨?_, nofun⟩
  rw [leavesNothing_clone fun x hx => absurd hx List.not_mem_nil, List.forall_mem_singleton,
    isHarmless_clone]
  simp [he, Settled]

theorem accounted_noToken (hm : Asides conn m) (he : Succeeds conn (cloneCommand plan i) e) :
    Accounted conn plan left
      (conn.exchange (cloneCommand plan i) e :: (m ++ [conn.exchange (rmCommand (plan.qcow i)) d])) o := by
  have hleaves : LeavesNothing conn plan left
      (conn.exchange (cloneCommand plan i) e :: (m ++ [conn.exchange (rmCommand (plan.qcow i)) d])) :=
    leavesNothing_noToken hm
  refine ⟨iff_of_true hleaves ?_, fun _ => hleaves⟩
  refine List.forall_mem_cons.mpr ⟨isHarmless_clone.mpr (.inl he), List.forall_mem_append.mpr ⟨?_, ?_⟩⟩
  · exact fun x hx => (hm.neutral x hx).harmless
  · exact List.forall_mem_singleton.mpr (neutral_rmCommand _).harmless

theorem accounted_unwritten {err : Failure} (hm : Asides conn m)
    (hw : ¬ Succeeds conn (writeJoinTmpCmd joinCmd (joinTmpfile pid qcow)) w) :
    Accounted conn plan left (conn.exchange (cloneCommand plan i) e ::
      (m ++ conn.exchange (writeJoinTmpCmd joinCmd (joinTmpfile pid qcow)) w ::
        [conn.exchange (rmCommand (plan.qcow i)) d])) (.error err) := by
  refine ⟨iff_of_false (not_leavesNothing_unwritten hm) fun h => ?_, nofun⟩
  have hwrite := h (conn.exchange (writeJoinTmpCmd joinCmd (joinTmpfile pid qcow)) w) (by simp)
  exact hw (isHarmless_write.mp hwrite)

theorem accounted_createWorker
    (h : Finishes (createWorker conn plan pid cpIp privkeyPath injector (plan.workerName i)) t o) :
    Accounted conn plan left t o := by
  obtain ⟨err, rfl, he⟩ | ⟨_, t₁, t₂, rfl, h₁, h₂⟩ := finishes_bind.mp h
  · obtain ⟨e, rfl, hr⟩ := finishes_wrapped_verb.mp he
    refine accounted_cloneFailed fun hs => ?_
    cases (succeeds_iff hr).mp hs
  obtain ⟨e, rfl, hr⟩ := finishes_wrapped_verb.mp h₁
  have he : Succeeds conn (cloneCommand plan i) e := (succeeds_iff hr).mpr rfl
  obtain ⟨err, -, hmint⟩ | ⟨minted, m, t₃, rfl, hmint, h₃⟩ := finishes_bind.mp h₂
  · obtain ⟨⟨_, hok⟩, -⟩ := finishes_mintJoin (isAside_cpSshCmd _ _ _) hmint
    cases hok
  have hm : Asides conn m := (finishes_mintJoin (isAside_cpSshCmd _ _ _) hmint).2
  cases minted with
  | none =>
    obtain ⟨_, -, hig⟩ | ⟨_, t₄, t₅, rfl, hig, h₅⟩ := finishes_bind.mp h₃
    · cases (finishes_ignore hig).1
    obtain ⟨-, r, hrm⟩ := finishes_ignore hig
    obtain ⟨d, rfl, -⟩ := Connection.finishes_verb.mp hrm
    obtain ⟨rfl, rfl⟩ := finishes_throw.mp h₅
    exact accounted_noToken hm he
  | some joinCmd =>
    obtain ⟨injected, t₄, t₅, rfl, hinject, h₅⟩ := finishes_outcome_bind.mp h₃
    obtain ⟨w, u, rfl, hcases⟩ := finishes_injectJoinEnv hinject
    cases injected with
    | error err =>
      obtain ⟨_, -, hig⟩ | ⟨_, t₆, t₇, rfl, hig, h₇⟩ := finishes_bind.mp h₅
      · cases (finishes_ignore hig).1
      obtain ⟨-, r, hrm⟩ := finishes_ignore hig
      obtain ⟨d, rfl, -⟩ := Connection.finishes_verb.mp hrm
      obtain ⟨rfl, rfl⟩ := finishes_throw.mp h₇
      obtain ⟨hw, rfl, -⟩ | ⟨hw, m', d', hm', rfl⟩ := hcases
      · exact accounted_unwritten hm hw
      · have hlast : IsNeutral conn plan (conn.exchange (rmCommand (plan.qcow i)) d) :=
          neutral_rmCommand _
        have hy : left (plan.workerName i) ∨
            SettlesDisk conn plan i (conn.exchange (rmCommand (plan.qcow i)) d) ↔
              IsHarmless conn plan left (conn.exchange (rmCommand (plan.qcow i)) d) :=
          iff_of_true (.inr settlesDisk_rm) hlast.harmless
        simp only [List.append_assoc, List.cons_append, List.nil_append]
        exact accounted_written hm hm' he hw hlast.not_clonesDisk hlast.not_writesToken hy
          fun _ => hlast.harmless
    | ok _ =>
      obtain ⟨x, rfl, hx⟩ := finishes_wrapped_verb.mp h₅
      obtain ⟨-, -, _, hcon⟩ | ⟨hw, m', d', hm', rfl⟩ := hcases
      · cases hcon
      · simp only [List.append_assoc, List.cons_append, List.nil_append]
        exact accounted_written (y := conn.exchange (installCommand plan i) x) hm hm' he hw
          (not_clonesDisk (leads_install plan i) rfl (by decide))
          (not_writesToken (leads_install plan i) rfl (by decide))
          (settlesDisk_install_iff.trans isHarmless_install.symm)
          fun ho => isHarmless_install.mpr (.inl ((succeeds_iff hx).mpr ho))

theorem accounted_spawnWorker
    (h : Finishes (spawnWorker conn plan pid cpIp privkeyPath injector i) t o) :
    Accounted conn plan left t o := by
  have hvirsh : ∀ rest e, IsNeutral conn plan (conn.exchange (virsh rest) e) := fun rest e =>
    (isAside_virsh rest).neutral Connection.exchange_fst
  obtain ⟨err, rfl, he⟩ | ⟨found, t₁, t₂, rfl, h₁, h₂⟩ := finishes_bind.mp h
  · obtain ⟨e, rfl, -⟩ := finishes_existenceProbe.mp he
    exact accounted_neutral (List.forall_mem_singleton.mpr (hvirsh _ e))
  obtain ⟨e, rfl, -⟩ := finishes_existenceProbe.mp h₁
  cases found with
  | some info =>
    obtain ⟨-, r, hr⟩ := finishes_ignore h₂
    obtain ⟨d, rfl, -⟩ := Connection.finishes_verb.mp hr
    exact accounted_neutral (List.forall_mem_cons.mpr
      ⟨hvirsh _ e, List.forall_mem_singleton.mpr (hvirsh _ d)⟩)
  | none => exact (accounted_createWorker h₂).cons (hvirsh _ e)

/-- Behind a part that ended well, only the rest counts. -/
theorem Accounted.append {s : Trace Reply} (hs : Accounted conn plan left s (.ok ()))
    (ht : Accounted conn plan left t o) : Accounted conn plan left (s ++ t) o := by
  have hleaves := hs.ok rfl
  have hiff : LeavesNothing conn plan left (s ++ t) ↔ LeavesNothing conn plan left t :=
    ⟨fun h => ⟨(settled_append hleaves.disks).mp h.disks, (settled_append hleaves.tokens).mp h.tokens⟩,
      fun h => ⟨(settled_append hleaves.disks).mpr h.disks, (settled_append hleaves.tokens).mpr h.tokens⟩⟩
  refine ⟨?_, fun ho => hiff.mpr (ht.ok ho)⟩
  rw [hiff, ht.iff, List.forall_mem_append]
  exact (and_iff_right (hs.iff.mp hleaves)).symm

theorem accounted_spawnWorkers {is : List UInt32}
    (h : Finishes (spawnWorkers conn plan pid cpIp privkeyPath injector is) t o) :
    Accounted conn plan left t o := by
  induction is generalizing t with
  | nil =>
    obtain ⟨rfl, rfl⟩ := finishes_pure.mp h
    exact accounted_neutral fun x hx => absurd hx List.not_mem_nil
  | cons i is ih =>
    obtain ⟨err, rfl, he⟩ | ⟨_, t₁, t₂, rfl, h₁, h₂⟩ := finishes_bind.mp h
    · exact accounted_spawnWorker he
    · exact (accounted_spawnWorker h₁).append (ih h₂)

theorem puts_remotePathExists {φ : Query → Prop} {path : String}
    (h : φ (conn.query ("test -e " ++ shellQuote path))) : Puts φ (conn.remotePathExists path).run := by
  refine puts_exec_bind (puts_outcome fun t r hr x hx => ?_) fun r => ?_
  · obtain ⟨e, rfl, -⟩ := Connection.finishes_client.mp hr
    rw [List.mem_singleton.mp hx, Connection.exchange_fst]
    exact h
  · split <;> exact puts_done _ _

theorem finishes_checkTemplate (h : Finishes (checkTemplate conn plan) t o) :
    ∀ x ∈ t, IsNeutral conn plan x := by
  have hlead : Leads "test -" ("test -e " ++ shellQuote plan.templatePath) := by
    refine leads_append ?_ _
    exact startsWith_ofList _ _
  have hputs : Puts (fun q => q = conn.query ("test -e " ++ shellQuote plan.templatePath))
      (checkTemplate conn plan).run := by
    refine puts_exec_bind (puts_outcome (puts_remotePathExists rfl)) fun r => ?_
    split <;> exact puts_done _ _
  intro x hx
  have hquery := hputs t o h x hx
  exact ⟨fun i => query_ne hquery (leads_ne hlead (leads_clone plan i) rfl (by decide)),
    fun i => query_ne hquery (leads_ne hlead (leads_install plan i) rfl (by decide)),
    fun _ _ => query_ne hquery (leads_ne hlead (leads_write _ _) rfl (by decide))⟩

theorem accounted_planWorkerLoop
    (h : Finishes (planWorkerLoop conn plan pid cpIp privkeyPath injector) t o) :
    Accounted conn plan left t o := by
  unfold planWorkerLoop at h
  cases hdry : plan.dryRun with
  | true =>
    rw [hdry, if_pos rfl] at h
    obtain ⟨rfl, -⟩ := finishes_pure.mp h
    exact accounted_neutral fun x hx => absurd hx List.not_mem_nil
  | false =>
    rw [hdry, if_neg Bool.false_ne_true] at h
    obtain ⟨err, rfl, he⟩ | ⟨_, t₁, t₂, rfl, h₁, h₂⟩ := finishes_bind.mp h
    · exact accounted_neutral (finishes_checkTemplate he)
    refine (accounted_neutral (finishes_checkTemplate h₁)).append ?_
    obtain ⟨err, rfl, he⟩ | ⟨_, t₃, t₄, rfl, h₃, h₄⟩ := finishes_bind.mp h₂
    · exact accounted_spawnWorkers he
    refine (accounted_spawnWorkers h₃).append ?_
    obtain ⟨-, r, hr⟩ := finishes_ignore h₄
    obtain ⟨d, rfl, -⟩ := Connection.finishes_verb.mp hr
    exact accounted_neutral (List.forall_mem_singleton.mpr
      ((isAside_virsh _).neutral Connection.exchange_fst))

end Accounts

/-- A run leaves neither a disk without a VM nor a join command behind, whatever it returns, if and
only if no clone and no `virt-install` fails whose VM is not defined all the same, and no write of a join
command fails. -/
theorem planWorkerLoop_leavesNothing_iff (conn : Connection) (plan : Plan) (left : String → Prop)
    (pid : UInt32) (cpIp privkeyPath : String) (injector : Injector) {t : Trace Reply}
    {o : Except Failure Unit}
    (h : Finishes (planWorkerLoop conn plan pid cpIp privkeyPath injector) t o) :
    LeavesNothing conn plan left t ↔ ∀ x ∈ t, IsHarmless conn plan left x :=
  (accounted_planWorkerLoop h).iff

def oneWorker (retries : UInt32) : Plan := ⟨"cp1", "/pool", 1, 4096, 2, "2h", none, false, retries⟩

/-- The template is there and the worker is not defined. -/
def begun (plan : Plan) : Trace Reply :=
  [⟨.sh ("test -e " ++ shellQuote plan.templatePath), printed ""⟩,
    ⟨.sh (dominfoCommand (plan.workerName 1)), failed 1⟩]

theorem planWorkerLoop_leavesNothing_noToken :
    let plan := oneWorker 0
    let t := begun plan ++ [⟨.sh (cloneCommand plan 1), printed ""⟩, ⟨.sh (rmCommand (plan.qcow 1)), printed ""⟩]
    LeavesNothing .onHost plan (fun _ => False) t ↔
      ∀ x ∈ t, IsHarmless .onHost plan (fun _ => False) x := by
  intro plan t
  have h : Finishes (planWorkerLoop .onHost plan 7 "10.0.0.2" "/k" .guestfish) t
      (.error (.msg "could not mint kubeadm join token from CP after 0 retries")) :=
    finishes_of_play (scripted [printed "", failed 1, printed "", printed ""]) (by decide +kernel)
  exact planWorkerLoop_leavesNothing_iff .onHost plan (fun _ => False) 7 "10.0.0.2" "/k" .guestfish h

/-- What the replies come to is a failed run. -/
theorem fails_of_play (ends : List ProcessEnd) {x : Remote Failure Unit} {t : Trace Reply}
    (ht : (play (scripted ends) 0 x.run).1 = t)
    (ho : (play (scripted ends) 0 x.run).2.toBool = false) : ∃ e, Finishes x t (.error e) := by
  have hruns := runs_play (scripted ends) 0 x.run
  rw [ht] at hruns
  cases hr : (play (scripted ends) 0 x.run).2 with
  | ok _ =>
    rw [hr] at ho
    cases ho
  | error e =>
    rw [hr] at hruns
    exact ⟨e, hruns⟩

theorem planWorkerLoop_failedClone : ∃ e,
    Finishes (planWorkerLoop .onHost (oneWorker 1) 7 "10.0.0.2" "/k" .guestfish)
      (begun (oneWorker 1) ++ [⟨.sh (cloneCommand (oneWorker 1) 1), failed 1⟩]) (.error e) :=
  fails_of_play [printed "", failed 1, failed 1] (by decide +kernel) (by decide +kernel)

theorem planWorkerLoop_cutWrite : ∃ e,
    Finishes (planWorkerLoop .onHost (oneWorker 1) 7 "10.0.0.2" "/k" .guestfish)
      (begun (oneWorker 1) ++ [⟨.sh (cloneCommand (oneWorker 1) 1), printed ""⟩,
        ⟨.sh (cpSshCmd "/k" "10.0.0.2" "kubeadm token create --ttl 2h --print-join-command"),
          printed "kubeadm join a"⟩,
        ⟨.sh (writeJoinTmpCmd "kubeadm join a" (joinTmpfile 7 ((oneWorker 1).qcow 1))), failed 1⟩,
        ⟨.sh (rmCommand ((oneWorker 1).qcow 1)), printed ""⟩]) (.error e) :=
  fails_of_play [printed "", failed 1, printed "", printed "kubeadm join a", failed 1, printed ""]
    (by decide +kernel) (by decide +kernel)

/-- The clone fails and what there is of the disk stays; and the write of a join command is cut, and
its file stays. -/
theorem planWorkerLoop_leaves :
    let plan := oneWorker 1
    let mint := cpSshCmd "/k" "10.0.0.2" "kubeadm token create --ttl 2h --print-join-command"
    let write := writeJoinTmpCmd "kubeadm join a" (joinTmpfile 7 (plan.qcow 1))
    let t := begun plan ++ [⟨.sh (cloneCommand plan 1), failed 1⟩]
    let t' := begun plan ++ [⟨.sh (cloneCommand plan 1), printed ""⟩, ⟨.sh mint, printed "kubeadm join a"⟩,
      ⟨.sh write, failed 1⟩, ⟨.sh (rmCommand (plan.qcow 1)), printed ""⟩]
    (∃ e, Finishes (planWorkerLoop .onHost plan 7 "10.0.0.2" "/k" .guestfish) t (.error e)) ∧
      ¬ LeavesNothing .onHost plan (fun _ => False) t ∧
    (∃ e, Finishes (planWorkerLoop .onHost plan 7 "10.0.0.2" "/k" .guestfish) t' (.error e)) ∧
      ¬ LeavesNothing .onHost plan (fun _ => False) t' := by
  intro plan mint write t t'
  have hfails : ∀ command, ¬ Succeeds .onHost command (failed 1) := fun command =>
    not_succeeds Connection.result_exited
  obtain ⟨e, h⟩ : ∃ e, Finishes (planWorkerLoop .onHost plan 7 "10.0.0.2" "/k" .guestfish) t (.error e) :=
    planWorkerLoop_failedClone
  obtain ⟨e', h'⟩ :
      ∃ e, Finishes (planWorkerLoop .onHost plan 7 "10.0.0.2" "/k" .guestfish) t' (.error e) :=
    planWorkerLoop_cutWrite
  refine ⟨⟨e, h⟩, fun hleaves => ?_, ⟨e', h'⟩, fun hleaves => ?_⟩
  · have hharmless := (accounted_planWorkerLoop h).iff.mp hleaves
      ⟨.sh (cloneCommand plan 1), failed 1⟩ (List.mem_append_right _ (List.mem_singleton_self _))
    exact (isHarmless_clone.mp hharmless).elim (hfails _) id
  · have hharmless := (accounted_planWorkerLoop h').iff.mp hleaves ⟨.sh write, failed 1⟩
      (List.mem_append_right _ (List.mem_cons_of_mem _ (List.mem_cons_of_mem _ List.mem_cons_self)))
    exact hfails _ (isHarmless_write.mp hharmless)

end Hbird.Virt.SpawnWorkers
