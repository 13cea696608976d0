import Hbird.Interaction.Secured
import Hbird.Virt.Deploy.Run

namespace Hbird.Virt.Deploy

open Hbird.Interaction Hbird.Ssh Hbird.Text

/-- What is asked ahead of the first VM, but for the moves of the templates. -/
inductive AsideQuery (plan : Plan) (pid : UInt32) : Query → Prop
  | netInfo (net : String) : AsideQuery plan pid (.run (.netInfo net))
  | netDumpxml (net : String) : AsideQuery plan pid (.run (.netDumpxml net))
  | readPubkey : AsideQuery plan pid (.run .readPubkey)
  | pull (imageRef : String) : AsideQuery plan pid (.run (.pull imageRef))
  | make (target : String) : AsideQuery plan pid (.run (.make target))
  | inspect (imageRef : String) : AsideQuery plan pid (.run (.inspect imageRef))
  | writeBibConfig (content : String) :
      AsideQuery plan pid (.run (.writeBibConfig (bibConfigTmp pid) content))
  | bib (imageRef config : String) : AsideQuery plan pid (.run (.bib imageRef config))
  | removeDir : AsideQuery plan pid (.run (.removeDir plan.stagingDir))
  | removeFile : AsideQuery plan pid (.run (.removeFile (bibConfigTmp pid)))
  | refreshPool (pool : String) : AsideQuery plan pid (.run (.refreshPool pool))
  | writeSidecar (id qcow : String) : AsideQuery plan pid (.run (.writeSidecar id (sidecarPath qcow)))
  | pathExists (path : String) : AsideQuery plan pid (.pathExists path)
  | readToString (path : String) : AsideQuery plan pid (.readToString path)
  | readFile (path : String) : AsideQuery plan pid (.readFile path)
  | renderBibConfig (pubkeyContents : String) : AsideQuery plan pid (.renderBibConfig pubkeyContents)
  | imageVcsRef (image : String) : AsideQuery plan pid (.imageVcsRef image)
  | containerfileChangedSince (repoRoot vcsRef containerfile : String) :
      AsideQuery plan pid (.containerfileChangedSince repoRoot vcsRef containerfile)

/-- What is asked ahead of the first VM. -/
def FrontQuery (plan : Plan) (pid : UInt32) (q : Query) : Prop :=
  AsideQuery plan pid q ∨ ∃ qcow, q = .run (.move plan.stagingQcow qcow)

/-- A file of the process among those that all users share. -/
def IsTmp (path : String) : Prop := ∃ u, path = "/tmp/" ++ u ++ ".yaml"

/-- What is asked for a VM beside its seed, its disk and its definition. -/
inductive SideQuery : Query → Prop
  | writeFile {path : String} (h : IsTmp path) (content : String) :
      SideQuery (.run (.writeFile path content))
  | netDumpxml (net : String) : SideQuery (.run (.netDumpxml net))
  | addDhcpHost (net mac name ip : String) : SideQuery (.run (.addDhcpHost net mac name ip))

/-- What is asked while the cluster comes up. -/
inductive WaitQuery : Query → Prop
  | domifaddr (name : String) : WaitQuery (.run (.domifaddr name))
  | onCp (privkeyPath cpIp remoteCmd : String) : WaitQuery (.run (.onCp privkeyPath cpIp remoteCmd))
  | verify (args : List String) : WaitQuery (.verify args)

section Rules

variable {α β : Type} {φ : Query → Prop} {c : Command} {text : String}

theorem only_pure (a : α) : Only φ (pure a : Steps Failure α).run := trivial

theorem only_throw (e : Failure) : Only φ (throw e : Steps Failure α).run := trivial

theorem only_checked (r : Except String α) : Only φ (checked r).run := by
  cases r <;> trivial

theorem only_perform {q : Query} (h : φ q) :
    Only φ (Exec.observe (Program.perform q) : Steps Failure (Reply q)).run :=
  asks_observe (asks_perform h)

theorem only_outcome_run (h : φ (.run c)) :
    Only φ (Exec.outcome (run c) : Steps Failure (Except Error String)).run :=
  asks_observe (asks_perform h)

theorem only_wrapped (h : φ (.run c)) : Only φ (wrapped text (run c)).run :=
  asks_context (asks_perform h)

theorem only_ignore (h : φ (.run c)) : Only φ (ignore (run c)).run :=
  only_bind (only_outcome_run h) fun _ => only_pure _

end Rules

section Front

variable {plan : Plan} {pid : UInt32} {imageRef qcow : String} {expected : Option String}

theorem only_readSidecar : Only (AsideQuery plan pid) (readSidecar qcow).run :=
  only_bind (only_perform (.readToString _)) fun _ => only_pure _

theorem only_computeExpectedBuildId :
    Only (AsideQuery plan pid) (computeExpectedBuildId plan imageRef).run := by
  rw [computeExpectedBuildId]
  split_ifs
  · refine only_bind (only_outcome_run (.inspect _)) fun r => ?_
    cases r <;> exact only_pure _
  · exact only_bind (only_perform (.readFile _)) fun _ => only_pure _
  · exact only_pure _

theorem only_assess : Only (AsideQuery plan pid) (assess plan qcow expected).run := by
  refine only_bind (only_perform (.pathExists _)) fun isThere => ?_
  split_ifs
  · exact only_bind only_readSidecar fun _ => only_pure _
  · exact only_pure _

theorem only_buildDisk : Only (AsideQuery plan pid) (buildDisk plan pid imageRef).run :=
  only_bind (only_wrapped .readPubkey) fun _ =>
    only_bind (only_perform (.renderBibConfig _)) fun _ =>
      only_bind (only_wrapped (.writeBibConfig _)) fun _ =>
        only_bind (only_wrapped (.bib _ _)) fun _ => only_pure _

theorem only_writeSidecar : Only (AsideQuery plan pid) (writeSidecar expected qcow).run := by
  cases expected with
  | none => exact only_pure _
  | some id => exact only_ignore (.writeSidecar _ _)

/-- What `put_in_place` does behind the move. -/
def clearUp (plan : Plan) (pid : UInt32) (qcow : String) (expected : Option String) :
    Steps Failure Unit :=
  wrapped "could not remove BIB staging dir: " (run (.removeDir plan.stagingDir)) >>= fun _ =>
  ignore (run (.removeFile (bibConfigTmp pid))) >>= fun _ =>
  ignore (run (.refreshPool "default")) >>= fun _ =>
  ignore (run (.refreshPool "mass2")) >>= fun _ =>
  writeSidecar expected qcow

theorem putInPlace_eq : putInPlace plan pid qcow expected =
    (wrapped ("could not move " ++ plan.stagingQcow ++ " → " ++ qcow ++ ": ")
      (run (.move plan.stagingQcow qcow)) >>= fun _ => clearUp plan pid qcow expected) := by
  unfold putInPlace clearUp
  rfl

theorem only_clearUp : Only (AsideQuery plan pid) (clearUp plan pid qcow expected).run :=
  only_bind (only_wrapped .removeDir) fun _ => only_bind (only_ignore .removeFile) fun _ =>
    only_bind (only_ignore (.refreshPool _)) fun _ =>
      only_bind (only_ignore (.refreshPool _)) fun _ => only_writeSidecar

theorem only_checkFreshness {image label containerfile : String} :
    Only (AsideQuery plan pid) (checkFreshness plan image label containerfile).run := by
  refine only_bind (only_perform (.imageVcsRef _)) fun found =>
    only_bind ?_ fun _ => only_checked _
  split_ifs
  · exact only_pure _
  · exact only_perform (.containerfileChangedSince _ _ _)

theorem only_planImageAcquisition : Only (AsideQuery plan pid) (planImageAcquisition plan).run := by
  refine only_bind (only_checked _) fun refs => only_bind ?_ fun _ => only_pure _
  split_ifs
  · exact only_pure _
  · exact only_bind (only_wrapped (.make _)) fun _ =>
      only_bind (only_wrapped (.make _)) fun _ => only_pure _
  · exact only_bind (only_wrapped (.pull _)) fun _ => only_bind (only_wrapped (.pull _)) fun _ =>
      only_bind only_checkFreshness fun _ => only_checkFreshness

theorem only_checkExtraNetworkOnHost {φ : Query → Prop} {net : String}
    (hinfo : ∀ net, φ (.run (.netInfo net))) (hxml : ∀ net, φ (.run (.netDumpxml net))) :
    Only φ (checkExtraNetworkOnHost plan net).run := by
  refine only_bind (only_outcome_run (hinfo _)) fun r => ?_
  cases r with
  | error e => exact only_throw _
  | ok info =>
    dsimp only
    split_ifs
    · exact only_throw _
    · refine only_bind (only_outcome_run (hxml _)) fun xml => ?_
      cases hostdevVfCount (xml.toOption.getD "") with
      | none => exact only_pure _
      | some vfCount =>
        dsimp only
        split_ifs
        · exact only_throw _
        · exact only_pure _

theorem only_front {α : Type} {x : Steps Failure α} (h : Only (AsideQuery plan pid) x.run) :
    Only (FrontQuery plan pid) x.run := asks_mono h (fun _ => .inl) fun _ _ => trivial

theorem only_buildOneQcow2 :
    Only (FrontQuery plan pid) (buildOneQcow2 plan pid imageRef qcow).run := by
  refine only_bind (only_front only_computeExpectedBuildId) fun expected =>
    only_bind (only_front only_assess) fun decision => ?_
  cases decision with
  | reuse => exact only_pure _
  | rebuild =>
    refine only_bind (only_front only_buildDisk) fun _ => ?_
    rw [putInPlace_eq]
    exact only_bind (only_wrapped (.inr ⟨qcow, rfl⟩)) fun _ => only_front only_clearUp
  | strictFail => exact only_throw _

theorem only_planBuildQcow2 {cpRef workerRef : String} :
    Only (FrontQuery plan pid) (planBuildQcow2 plan pid cpRef workerRef).run := by
  rw [planBuildQcow2]
  split_ifs
  · exact only_pure _
  · exact only_bind only_buildOneQcow2 fun _ => only_bind only_buildOneQcow2 fun _ => only_pure _

end Front

section Vms

variable {name tag : String} {net2 : Option Net2}

theorem isTmp_netcfg (tag : String) : IsTmp ("/tmp/hbird-netcfg-" ++ tag ++ ".yaml") :=
  ⟨"hbird-netcfg-" ++ tag, by simp only [← String.append_assoc, String.reduceAppend]⟩

theorem isTmp_cpUserDataTmp (pid : UInt32) : IsTmp (DeployCluster.cpUserDataTmp pid) := by
  unfold DeployCluster.cpUserDataTmp
  generalize toString pid.toNat = n
  exact ⟨"hbird-cp-ud-" ++ n, by simp only [← String.append_assoc, String.reduceAppend]⟩

theorem isTmp_workerUserData (tag : String) : IsTmp ("/tmp/hbird-w-ud-" ++ tag ++ ".yaml") :=
  ⟨"hbird-w-ud-" ++ tag, by simp only [← String.append_assoc, String.reduceAppend]⟩

theorem asks_writeNet2ConfigTmp : Asks SideQuery
    (fun r => ∀ ncTmp, r = .ok ncTmp → ∀ nc, ncTmp = some nc → IsTmp nc)
    (writeNet2ConfigTmp net2 tag).run := by
  cases net2 with
  | none =>
    intro ncTmp h nc hnc
    obtain rfl := Except.ok.inj h
    cases hnc
  | some n =>
    refine asks_exec_step (P := fun _ => True)
      (asks_mono (only_wrapped (.writeFile (isTmp_netcfg tag) _)) (fun _ hq => hq)
        fun _ _ _ _ => trivial) (fun _ _ => ?_) fun e ncTmp h => by cases h
    intro ncTmp h nc hnc
    obtain rfl := Except.ok.inj h
    obtain rfl := Option.some.inj hnc
    exact isTmp_netcfg tag

theorem only_reserve {mac : String} {ip : Option String} :
    Only SideQuery (reserve mac name ip).run := by
  cases ip with
  | none => exact only_pure _
  | some ip =>
    refine only_bind (only_outcome_run (.netDumpxml _)) fun r => ?_
    cases DeployCluster.classifyDhcpReservation (r.toOption.getD "") mac ip with
    | alreadyPresent => exact only_pure _
    | ipTakenByOtherMac => exact only_pure _
    | absent => exact only_ignore (.addDhcpHost _ _ _ _)

end Vms

section Waiting

variable {plan : Plan} {cpIp privkeyPath : String}

theorem only_attempt {α : Type} {φ : Query → Prop} {c : Command} {read : String → Option α}
    (h : φ (.run c)) : Only φ (attempt c read).run :=
  only_bind (only_outcome_run h) fun _ => only_pure _

theorem only_retry {α : Type} {φ : Query → Prop} {x : Steps Failure (Option α)} {n : Nat}
    (h : Only φ x.run) : Only φ (retry x n).run := by
  induction n with
  | zero => exact only_pure _
  | succ n ih =>
    refine only_bind h fun r => ?_
    cases r with
    | none => exact ih
    | some a => exact only_pure _

theorem only_planCpReady : Only WaitQuery (planCpReady plan privkeyPath).run := by
  rw [planCpReady]
  split_ifs
  · exact only_pure _
  · refine only_bind (only_retry (only_attempt (.domifaddr _))) fun r => ?_
    cases r with
    | none => exact only_throw _
    | some ip =>
      refine only_bind (only_retry (only_attempt (.onCp _ _ _))) fun r => ?_
      cases r with
      | none => exact only_throw _
      | some u => exact only_pure _

theorem only_planJoinToken : Only WaitQuery (planJoinToken plan cpIp privkeyPath).run := by
  unfold planJoinToken
  split
  · exact only_pure _
  · refine only_bind (only_wrapped (.onCp _ _ _)) fun out => ?_
    generalize trim out = joinCmd
    split
    · exact only_pure _
    · exact only_throw _

theorem only_waitNodes {nodes : List String} :
    Only WaitQuery (waitNodes plan cpIp privkeyPath nodes).run := by
  induction nodes with
  | nil => exact only_pure _
  | cons node nodes ih =>
    refine only_bind (only_retry (only_attempt (.onCp _ _ _))) fun r => ?_
    cases r with
    | none => exact only_throw _
    | some u => exact ih

theorem only_planClusterReady : Only WaitQuery (planClusterReady plan cpIp privkeyPath).run := by
  rw [planClusterReady]
  split_ifs
  · exact only_pure _
  · exact only_waitNodes

theorem only_planVerify : Only WaitQuery (planVerify plan cpIp).run := by
  rw [planVerify]
  split_ifs
  all_goals first | exact only_pure _ | refine only_bind (only_perform (.verify _)) fun r => ?_
  all_goals
    obtain source | success := r
    · exact trivial
    · cases success <;> exact trivial

end Waiting

end Hbird.Virt.Deploy
