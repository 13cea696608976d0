import Hbird.Cuts
import Hbird.Interaction.Exec
import Hbird.Ssh
import Hbird.Utf8

namespace Hbird.Etcd.Backup

open Hbird.Interaction Hbird.Ssh Hbird.Text

/-- `ETCDCTL_TLS`. -/
def etcdctlTls : String :=
  "--cacert=/etc/kubernetes/pki/etcd/ca.crt --cert=/etc/kubernetes/pki/etcd/server.crt " ++
    "--key=/etc/kubernetes/pki/etcd/server.key"

/-- The commands for the control plane. -/
inductive Command : Type
  | ps
  | save (id : String)
  | status (id : String)
  | fetch
  | remove
  deriving DecidableEq, Repr

def Command.toText (remoteSnapshot : String) : Command → String
  | .ps => "crictl ps --name etcd -q"
  | .save id => "crictl exec " ++ id ++ " etcdctl " ++ etcdctlTls ++ " snapshot save " ++ remoteSnapshot
  | .status id => "crictl exec " ++ id ++ " etcdctl --write-out=table snapshot status " ++ remoteSnapshot
  | .fetch => "cat " ++ remoteSnapshot
  | .remove => "rm -f " ++ remoteSnapshot

/-- A use of the executor, or a text for stderr. -/
inductive Query : Type
  | run (command : Command)
  | eprint (text : String)
  deriving DecidableEq, Repr

/-- What a command that succeeds prints, as bytes. -/
@[reducible] def Reply : Query → Type
  | .run _ => Except Error (List UInt8)
  | .eprint _ => Unit

instance : (q : Query) → DecidableEq (Reply q)
  | .run _ => inferInstanceAs (DecidableEq (Except Error (List UInt8)))
  | .eprint _ => inferInstanceAs (DecidableEq Unit)

abbrev Failure := Anyhow Error

abbrev Remote (α : Type) := Exec Query Reply Failure α

def run (command : Command) : Exec Query Reply Error (List UInt8) :=
  (Program.perform (Query.run command) : Program Query Reply (Except Error (List UInt8)))

/-- `stdout_lossy`. -/
def lossy (stdout : List UInt8) : String := String.ofList (Utf8.fromUtf8Lossy stdout)

def parseEtcdContainerId (stdout : String) : Option String :=
  ((lines stdout).map trim).find? (· ≠ "")

def validateContainerId (id : String) : Except Failure Unit :=
  if id = "" ∨ id.toList.any (fun c => !c.isAlphanum) then
    .error (.msg ("refusing to use etcd container id " ++ quoted id ++ ": expected an alphanumeric " ++
      "crictl id (the id is interpolated into a command evaluated by the CP's /bin/sh)"))
  else .ok ()

/-- `anyhow::Context`. -/
def context {α : Type} (text : String) (x : Exec Query Reply Error α) : Remote α :=
  x.context fun e => .context text (.source e)

/-- The snapshot status goes to stderr. -/
def showStatus (id : String) : Remote Unit :=
  Exec.outcome (run (.status id)) >>= fun
    | .ok table =>
      if trim (lossy table) = "" then pure ()
      else Exec.observe (Program.perform (Query.eprint (lossy table)))
    | .error e => throw (.embeds ("etcd backup: " ++ tick ++ "etcdctl snapshot status" ++ tick ++ " failed: ") e)

/-- What follows the choice of the container. -/
def saveAndFetch (remoteSnapshot id : String) : Remote (List UInt8) :=
  context ("etcd backup: " ++ tick ++ "etcdctl snapshot save" ++ tick ++
    " failed inside the etcd container") (run (.save id)) >>= fun _ =>
  showStatus id >>= fun _ =>
  context ("etcd backup: could not fetch " ++ remoteSnapshot ++ " from the CP") (run .fetch) >>= fun fetched =>
  if fetched = [] then
    throw (.msg ("etcd backup: " ++ remoteSnapshot ++ " came back empty from the CP " ++
      "(etcdctl reported success but wrote no bytes)"))
  else
    context ("etcd backup: could not remove " ++ remoteSnapshot ++ " on the CP") (run .remove) >>= fun _ =>
    pure fetched

def backup (remoteSnapshot : String) : Remote (List UInt8) :=
  context ("etcd backup: " ++ tick ++ "crictl ps --name etcd -q" ++ tick ++ " failed on the CP")
    (run .ps) >>= fun ps =>
  match parseEtcdContainerId (lossy ps) with
  | none => throw (.msg "no etcd container found")
  | some id => (validateContainerId id : Except _ _) >>= fun _ => saveAndFetch remoteSnapshot id

def IsSave (x : Exchange Reply) : Prop := ∃ id, x.1 = .run (.save id)

def IsRemove (x : Exchange Reply) : Prop := x.1 = .run .remove

/-- Behind a save stands a removal, and bytes that were fetched are the outcome. -/
def Cleans (t : Trace Reply) (o : Except Failure (List UInt8)) : Prop :=
  (∀ t₁ x t₂, t = t₁ ++ x :: t₂ → IsSave x → ∃ y ∈ t₂, IsRemove y) ∧
    ∀ bytes ≠ [], ⟨.run .fetch, .ok bytes⟩ ∈ t → o = .ok bytes

/-- Every command succeeds, and the one that fetches prints something. -/
def Smooth (t : Trace Reply) : Prop :=
  (∀ c e, ⟨.run c, .error e⟩ ∉ t) ∧ ⟨.run .fetch, .ok []⟩ ∉ t

section Runs

variable {α : Type} {text remoteSnapshot id : String} {c : Command} {f : List UInt8 → Remote α}
  {t : Trace Reply}

/-- A command that fails ends the run with its error. -/
theorem finishes_context_bind {o : Except Failure α} :
    Finishes (context text (run c) >>= f) t o ↔
      (∃ e, t = [⟨.run c, .error e⟩] ∧ o = .error (.context text (.source e))) ∨
        ∃ out t', t = ⟨.run c, .ok out⟩ :: t' ∧ Finishes (f out) t' o := by
  have hrun : ∀ {t : Trace Reply} {r : Except Failure (List UInt8)},
      Finishes (context text (run c)) t r ↔
        ∃ r', r = r'.mapError (fun e => .context text (.source e)) ∧ t = [⟨.run c, r'⟩] := by
    intro t r
    rw [context, finishes_context]
    exact exists_congr fun r' => and_congr_right fun _ => runs_perform
  rw [finishes_bind]
  constructor
  · rintro (⟨e, rfl, h⟩ | ⟨out, t₁, t₂, rfl, h₁, h₂⟩)
    · obtain ⟨r', hr, rfl⟩ := hrun.mp h
      cases r' with
      | ok out => cases hr
      | error e' =>
        cases hr
        exact .inl ⟨e', rfl, rfl⟩
    · obtain ⟨r', hr, rfl⟩ := hrun.mp h₁
      cases r' with
      | ok out' =>
        cases hr
        exact .inr ⟨out, t₂, rfl, h₂⟩
      | error e' => cases hr
  · rintro (⟨e, rfl, rfl⟩ | ⟨out, t', rfl, h⟩)
    · exact .inl ⟨_, rfl, hrun.mpr ⟨.error e, rfl, rfl⟩⟩
    · exact .inr ⟨out, [⟨.run c, .ok out⟩], t', rfl, hrun.mpr ⟨.ok out, rfl, rfl⟩, h⟩

/-- Showing the status puts one command, and perhaps prints what it says. -/
theorem finishes_showStatus {o : Except Failure Unit} (h : Finishes (showStatus id) t o) :
    (∃ e, t = [⟨.run (.status id), .error e⟩] ∧ o ≠ .ok ()) ∨
      ∃ table t', t = ⟨.run (.status id), .ok table⟩ :: t' ∧ o = .ok () ∧
        ∀ x ∈ t', ∃ text r, x = ⟨.eprint text, r⟩ := by
  obtain ⟨r, t₁, t₂, rfl, h₁, h₂⟩ := finishes_outcome_bind.mp h
  obtain rfl := runs_perform.mp h₁
  cases r with
  | error e =>
    obtain ⟨rfl, rfl⟩ := finishes_throw.mp h₂
    exact .inl ⟨e, rfl, by simp⟩
  | ok table =>
    refine .inr ⟨table, t₂, rfl, ?_⟩
    dsimp only at h₂
    split at h₂
    · obtain ⟨rfl, rfl⟩ := finishes_pure.mp h₂
      exact ⟨rfl, by simp⟩
    · obtain ⟨a, rfl, hrun⟩ := finishes_observe.mp h₂
      obtain rfl := runs_perform.mp hrun
      exact ⟨rfl, by simp⟩

theorem not_cleans {x : Exchange Reply} {o : Except Failure (List UInt8)} (hx : IsSave x)
    (ht : ∀ y ∈ t, ¬IsRemove y) : ¬Cleans (x :: t) o := by
  rintro ⟨hremove, -⟩
  obtain ⟨y, hy, h⟩ := hremove [] x t rfl hx
  exact ht y hy h

theorem not_smooth {e : Error} (h : ⟨.run c, .error e⟩ ∈ t) : ¬Smooth t := fun hs => hs.1 c e h

/-- A run in which nothing fails. -/
theorem cleans_smooth (id : String) (saved table removed : List UInt8) {bytes : List UInt8}
    {prints : Trace Reply}
    (hbytes : bytes ≠ []) (hprints : ∀ x ∈ prints, ∃ text r, x = ⟨.eprint text, r⟩) :
    Cleans ((⟨.run (.save id), .ok saved⟩ :: ⟨.run (.status id), .ok table⟩ :: prints ++
        [⟨.run .fetch, .ok bytes⟩]) ++ [⟨.run .remove, .ok removed⟩]) (.ok bytes) ∧
      Smooth ((⟨.run (.save id), .ok saved⟩ :: ⟨.run (.status id), .ok table⟩ :: prints ++
        [⟨.run .fetch, .ok bytes⟩]) ++ [⟨.run .remove, .ok removed⟩]) := by
  have hnot : ∀ (c : Command) (r : Except Error (List UInt8)), (⟨.run c, r⟩ : Exchange Reply) ∉ prints := by
    intro c r hmem
    obtain ⟨text, r', h⟩ := hprints _ hmem
    cases h
  refine ⟨⟨?_, ?_⟩, ?_, ?_⟩
  · rintro t₁ x t₂ ht ⟨id', hid⟩
    refine ⟨_, Cuts.mem_of_last ht ?_, rfl⟩
    rintro rfl
    cases hid
  · intro bytes' _ hmem
    have hsame : bytes' = bytes := by simpa [hnot] using hmem
    rw [hsame]
  · intro c e hmem
    simp [hnot] at hmem
  · intro hmem
    exact hbytes (by simpa [hnot] using hmem)

/-- From the save on: the scratch file is removed and the bytes are returned where nothing fails,
and only there. -/
theorem saveAndFetch_cleans_iff {o : Except Failure (List UInt8)}
    (h : Finishes (saveAndFetch remoteSnapshot id) t o) : Cleans t o ↔ Smooth t := by
  have hsave : ∀ r, IsSave ⟨.run (.save id), r⟩ := fun _ => ⟨id, rfl⟩
  obtain ⟨e, rfl, rfl⟩ | ⟨saved, t', rfl, h₁⟩ := finishes_context_bind.mp h
  · exact iff_of_false (not_cleans (hsave _) (by simp)) (not_smooth List.mem_cons_self)
  obtain ⟨e, rfl, hstatus⟩ | ⟨_, t₁, t₂, rfl, hstatus, h₂⟩ := finishes_bind.mp h₁
  · obtain ⟨e', rfl, -⟩ | ⟨_, _, -, ho, -⟩ := finishes_showStatus hstatus
    · exact iff_of_false (not_cleans (hsave _) (by simp [IsRemove]))
        (not_smooth (List.mem_cons_of_mem _ List.mem_cons_self))
    · cases ho
  obtain ⟨_, -, ho⟩ | ⟨table, prints, rfl, -, hprints⟩ := finishes_showStatus hstatus
  · exact absurd rfl ho
  have hnone : ∀ y ∈ prints, ¬IsRemove y := by
    intro y hy
    obtain ⟨text, r, rfl⟩ := hprints y hy
    simp [IsRemove]
  obtain ⟨e, rfl, rfl⟩ | ⟨bytes, t₃, rfl, h₃⟩ := finishes_context_bind.mp h₂
  · refine iff_of_false (not_cleans (hsave _) ?_) (not_smooth (e := e) (c := .fetch) (by simp))
    intro y hy
    simp only [List.cons_append, List.mem_cons, List.mem_append, List.not_mem_nil, or_false] at hy
    obtain rfl | hy | rfl := hy
    · simp [IsRemove]
    · exact hnone y hy
    · simp [IsRemove]
  by_cases hbytes : bytes = []
  · subst hbytes
    rw [if_pos rfl] at h₃
    obtain ⟨rfl, rfl⟩ := finishes_throw.mp h₃
    refine iff_of_false (not_cleans (hsave _) ?_) fun hs => hs.2 (by simp)
    intro y hy
    simp only [List.cons_append, List.mem_cons, List.mem_append, List.not_mem_nil, or_false] at hy
    obtain rfl | hy | rfl := hy
    · simp [IsRemove]
    · exact hnone y hy
    · simp [IsRemove]
  rw [if_neg hbytes] at h₃
  obtain ⟨e, rfl, rfl⟩ | ⟨removed, t₄, rfl, h₄⟩ := finishes_context_bind.mp h₃
  · refine iff_of_false ?_ (not_smooth (e := e) (c := .remove) (by simp))
    rintro ⟨-, hreturned⟩
    cases hreturned bytes hbytes (by simp)
  · obtain ⟨rfl, rfl⟩ := finishes_pure.mp h₄
    have hboth := cleans_smooth id saved table removed hbytes hprints
    simp only [List.cons_append, List.append_assoc, List.nil_append] at hboth ⊢
    exact iff_of_true hboth.1 hboth.2

theorem finishes_backup {o : Except Failure (List UInt8)} (h : Finishes (backup remoteSnapshot) t o) :
    (∃ r, t = [⟨.run .ps, r⟩] ∧ ∃ e, o = .error e) ∨ ∃ ps id t', t = ⟨.run .ps, .ok ps⟩ :: t' ∧
      Finishes (saveAndFetch remoteSnapshot id) t' o := by
  obtain ⟨e, rfl, rfl⟩ | ⟨ps, t', rfl, h₁⟩ := finishes_context_bind.mp h
  · exact .inl ⟨_, rfl, _, rfl⟩
  cases hid : parseEtcdContainerId (lossy ps) with
  | none =>
    rw [hid] at h₁
    obtain ⟨rfl, rfl⟩ := finishes_throw.mp h₁
    exact .inl ⟨_, rfl, _, rfl⟩
  | some id =>
    rw [hid] at h₁
    dsimp only at h₁
    cases hvalid : validateContainerId id with
    | error e =>
      rw [hvalid] at h₁
      obtain ⟨rfl, rfl⟩ := finishes_throw.mp h₁
      exact .inl ⟨_, rfl, _, rfl⟩
    | ok u =>
      rw [hvalid] at h₁
      exact .inr ⟨ps, id, t', rfl, h₁⟩

/-- The bytes are returned and the scratch file is removed in just the runs that either put no save
or see no command fail. -/
theorem backup_cleans_iff {o : Except Failure (List UInt8)}
    (h : Finishes (backup remoteSnapshot) t o) :
    Cleans t o ↔ ((∃ x ∈ t, IsSave x) → Smooth t) := by
  obtain ⟨r, rfl, e, rfl⟩ | ⟨ps, id, t', rfl, hrest⟩ := finishes_backup h
  · have hnone : ¬∃ x ∈ [(⟨.run .ps, r⟩ : Exchange Reply)], IsSave x := by simp [IsSave]
    refine iff_of_true ⟨fun t₁ x t₂ ht hx => absurd ⟨x, by simp [ht], hx⟩ hnone, ?_⟩
      fun hsave => absurd hsave hnone
    intro bytes _ hmem
    simp at hmem
  · have hsaves : ∃ x ∈ (⟨.run .ps, .ok ps⟩ : Exchange Reply) :: t', IsSave x := by
      obtain ⟨e, rfl, -⟩ | ⟨out, t₁, rfl, -⟩ := finishes_context_bind.mp hrest
      · exact ⟨⟨.run (.save id), .error e⟩, by simp, id, rfl⟩
      · exact ⟨⟨.run (.save id), .ok out⟩, by simp, id, rfl⟩
    have hcleans : Cleans (⟨.run .ps, .ok ps⟩ :: t') o ↔ Cleans t' o := by
      constructor
      · rintro ⟨hremove, hreturned⟩
        exact ⟨fun t₁ x t₂ ht => hremove (_ :: t₁) x t₂ (by rw [ht, List.cons_append]),
          fun bytes hb hmem => hreturned bytes hb (List.mem_cons_of_mem _ hmem)⟩
      · rintro ⟨hremove, hreturned⟩
        refine ⟨fun t₁ x t₂ ht hx => ?_, fun bytes hb hmem => hreturned bytes hb (by simpa using hmem)⟩
        cases t₁ with
        | nil =>
          obtain ⟨rfl, -⟩ := List.cons.inj ht
          obtain ⟨id, hid⟩ := hx
          cases hid
        | cons y t₁ => exact hremove t₁ x t₂ (List.cons.inj ht).2 hx
    have hsmooth : Smooth (⟨.run .ps, .ok ps⟩ :: t') ↔ Smooth t' := by
      simp [Smooth]
    rw [hcleans, hsmooth, saveAndFetch_cleans_iff hrest]
    exact ⟨fun h _ => h, fun h => h hsaves⟩

end Runs

/-- Replies that print these bytes in turn; a reply that is missing is a failure. -/
def scripted (replies : List (Option (List UInt8))) : Nat → (q : Query) → Reply q
  | n, .run _ => match replies.getD n none with
    | some out => .ok out
    | none => .error (.wait "cp" "lost")
  | _, .eprint _ => ()

/-- Every command succeeds. -/
theorem backup_cleans_sample :
    Cleans [⟨.run .ps, .ok [97]⟩, ⟨.run (.save "a"), .ok []⟩, ⟨.run (.status "a"), .ok []⟩,
      ⟨.run .fetch, .ok [1, 2]⟩, ⟨.run .remove, .ok []⟩] (.ok [1, 2]) :=
  (backup_cleans_iff (finishes_of_play (x := backup "/var/lib/etcd/s.db")
    (scripted [some [97], some [], some [], some [1, 2], some []]) (by decide +kernel))).mpr
      fun _ => ⟨by simp, by simp⟩

/-- The snapshot is saved, fetching it fails, and it stays on the control plane. -/
theorem backup_leaves_snapshot :
    ∃ t o, Finishes (backup "/var/lib/etcd/s.db") t o ∧ (∃ x ∈ t, IsSave x) ∧ ∀ x ∈ t, ¬IsRemove x := by
  have hrun : Finishes (backup "/var/lib/etcd/s.db") [⟨.run .ps, .ok [97]⟩,
      ⟨.run (.save "a"), .ok []⟩, ⟨.run (.status "a"), .ok []⟩,
      ⟨.run .fetch, .error (.wait "cp" "lost")⟩] (.error (.context
        "etcd backup: could not fetch /var/lib/etcd/s.db from the CP" (.source (.wait "cp" "lost")))) :=
    finishes_of_play (scripted [some [97], some [], some [], none]) (by decide +kernel)
  exact ⟨_, _, hrun, ⟨⟨.run (.save "a"), .ok []⟩, by simp, "a", rfl⟩, by simp [IsRemove]⟩

/-- The snapshot is fetched, removing it fails, and the bytes are lost. -/
theorem backup_loses_snapshot :
    ∃ t e, Finishes (backup "/var/lib/etcd/s.db") t (.error e) ∧ ⟨.run .fetch, .ok [1, 2]⟩ ∈ t := by
  have hrun : Finishes (backup "/var/lib/etcd/s.db") [⟨.run .ps, .ok [97]⟩,
      ⟨.run (.save "a"), .ok []⟩, ⟨.run (.status "a"), .ok []⟩, ⟨.run .fetch, .ok [1, 2]⟩,
      ⟨.run .remove, .error (.wait "cp" "lost")⟩] (.error (.context
        "etcd backup: could not remove /var/lib/etcd/s.db on the CP" (.source (.wait "cp" "lost")))) :=
    finishes_of_play (scripted [some [97], some [], some [], some [1, 2], none]) (by decide +kernel)
  exact ⟨_, _, hrun, by simp⟩

end Hbird.Etcd.Backup
