import Hbird.Virt.Deploy.Template

namespace Hbird.Virt.Deploy

open Hbird.Interaction Hbird.Ssh Hbird.Text
open Hbird.Virt.DeployCluster (PrimaryMacs ReservationCheck classifyDhcpReservation workerIp
  cpUserData cpUserDataTmp extraNic cpProbeFailed workerProbeFailed resolvePrimaryMacs isValidCidr
  validateExtraNetwork)

/-- The outcome of a check that asks nothing. -/
def checked {α : Type} (r : Except String α) : Steps Failure α :=
  (r.mapError .msg : Except Failure α)

section Images

/-- The references of the two images. -/
def imageRefs (plan : Plan) : Except String (String × String) :=
  if plan.imageSource = "ghcr" then
    .ok ("ghcr.io/aatchison/hummingbird-k8s:" ++ plan.ghcrTag,
      "ghcr.io/aatchison/hummingbird-k8s-worker:" ++ plan.ghcrTag)
  else if plan.imageSource = "forgejo" then
    .ok ("forgejo.atchison.io/aatchison/hummingbird-k8s:" ++ plan.ghcrTag,
      "forgejo.atchison.io/aatchison/hummingbird-k8s-worker:" ++ plan.ghcrTag)
  else if plan.imageSource = "local" then
    .ok ("localhost/hummingbird-k8s:latest", "localhost/hummingbird-k8s-worker:latest")
  else .error ("IMAGE_SOURCE must be 'ghcr', 'forgejo', or 'local' (got '" ++ plan.imageSource ++ "')")

/-- The refusals of `assess_ghcr_image`; a warning is only logged. -/
def assessGhcrImage (freshness : ImageFreshness) (label vcsRef containerfiles : String)
    (strict : Bool) : Except String Unit :=
  match freshness with
  | .inSync => .ok ()
  | .drifted =>
    if strict then .error ("pulled " ++ label ++ " (vcs-ref " ++ vcsRef ++ ") predates on-disk " ++
      containerfiles ++ " — STRICT_CACHE=1 refuses a stale boot-test. Rebuild from source: " ++
      "IMAGE_SOURCE=local FORCE_REBUILD=1.")
    else .ok ()
  | .unverifiable =>
    if strict then .error ("cannot prove freshness under STRICT_CACHE=1; rebuild with " ++
      "FORCE_REBUILD=1. (Freshness needs the repo: run from a checkout or pass --repo-root.)")
    else .ok ()

def checkFreshness (plan : Plan) (image label containerfile : String) : Steps Failure Unit :=
  Exec.observe (Program.perform (Query.imageVcsRef image)) >>= fun found =>
  let vcs := found.getD ""
  (if vcs = "" then pure .unverifiable
    else Exec.observe (Program.perform
      (Query.containerfileChangedSince plan.repoRoot vcs containerfile))) >>= fun freshness =>
  checked (assessGhcrImage freshness label vcs containerfile plan.strictCache)

def pullImages (plan : Plan) (cpRef workerRef : String) : Steps Failure Unit :=
  wrapped ("podman pull " ++ cpRef ++ " failed: ") (run (.pull cpRef)) >>= fun _ =>
  wrapped ("podman pull " ++ workerRef ++ " failed: ") (run (.pull workerRef)) >>= fun _ =>
  checkFreshness plan cpRef "CP image" "containers/k8s/Containerfile" >>= fun _ =>
  checkFreshness plan workerRef "worker image" "containers/k8s-worker/Containerfile"

def makeImages : Steps Failure Unit :=
  wrapped "make image-k8s-with-cloud-init failed: " (run (.make "image-k8s-with-cloud-init")) >>=
    fun _ =>
  wrapped "make image-worker-with-cloud-init failed: "
    (run (.make "image-worker-with-cloud-init")) >>= fun _ => pure ()

def planImageAcquisition (plan : Plan) : Steps Failure (String × String) :=
  checked (imageRefs plan) >>= fun refs =>
  (if plan.dryRun then pure ()
    else if plan.imageSource = "local" then makeImages
    else pullImages plan refs.1 refs.2) >>= fun _ => pure refs

end Images

section Vms

def writeNet2ConfigTmp (net2 : Option Net2) (tag : String) : Steps Failure (Option String) :=
  match net2 with
  | none => pure none
  | some n =>
    let ncTmp := "/tmp/hbird-netcfg-" ++ tag ++ ".yaml"
    wrapped ("could not write net2 network-config to " ++ ncTmp ++ ": ")
      (run (.writeFile ncTmp (renderNet2NetworkConfig n.mac n.ip))) >>= fun _ => pure (some ncTmp)

def planCpSeed (plan : Plan) (pid : UInt32) (pubkeyContents : String) (net2 : Option Net2) :
    Steps Failure String :=
  let cpSeed := seedPath plan.poolDir plan.cpName
  let udTmp := cpUserDataTmp pid
  if plan.dryRun then pure cpSeed
  else
    wrapped ("could not write CP user-data to " ++ udTmp ++ ": ")
      (run (.writeFile udTmp (cpUserData plan.toPlan pubkeyContents net2))) >>= fun _ =>
    writeNet2ConfigTmp net2 ("cp-" ++ toString pid.toNat) >>= fun ncTmp =>
    wrapped "cloud-init seed build for CP failed: "
      (run (.seed plan.cpName udTmp cpSeed ncTmp)) >>= fun _ => pure cpSeed

def existenceProbe (name : String) (onError : Error → Failure) : Steps Failure (Option DomainInfo) :=
  Exec.outcome (run (.dominfo name)) >>= fun r =>
    match r.bind fun stdout => parseDominfo stdout (dominfoCommand name) with
    | .ok info => pure (some info)
    | .error (.virshFailed _ _) => pure none
    | .error e => throw (onError e)

def ensureDhcpReservation (net mac ip name : String) : Steps Failure Unit :=
  Exec.outcome (run (.netDumpxml net)) >>= fun r =>
    match classifyDhcpReservation (r.toOption.getD "") mac ip with
    | .alreadyPresent => pure ()
    | .ipTakenByOtherMac => pure ()
    | .absent => ignore (run (.addDhcpHost net mac name ip))

/-- Nothing is reserved where there is no address. -/
def reserve (mac name : String) (ip : Option String) : Steps Failure Unit :=
  match ip with
  | some ip => ensureDhcpReservation "default" mac ip name
  | none => pure ()

def installCp (plan : Plan) (template cpSeed : String) (macs : PrimaryMacs) (net2 : Option Net2) :
    Steps Failure String :=
  let cpQcow := diskPath plan.poolDir plan.cpName
  wrapped ("reflink clone " ++ template ++ " -> " ++ cpQcow ++ " failed: ")
    (run (.clone template cpQcow)) >>= fun _ =>
  reserve macs.cp plan.cpName (nonEmpty plan.cpIp) >>= fun _ =>
  wrapped ("virt-install " ++ plan.cpName ++ " failed: ")
    (run (.install ⟨plan.cpName, plan.cpMemory.toNat, plan.cpVcpus, cpQcow, some cpSeed,
      some macs.cp, extraNic net2⟩)) >>= fun _ => pure cpQcow

def cpRefusal (cpName : String) : Failure :=
  .msg ("CP VM '" ++ cpName ++ "' is already defined — refusing to overwrite")

def workerRefusal (w : String) : Failure :=
  .msg ("worker VM '" ++ w ++ "' already defined — refusing to overwrite")

def planCpVirtInstall (plan : Plan) (template cpSeed : String) (macs : PrimaryMacs)
    (net2 : Option Net2) : Steps Failure String :=
  if plan.dryRun then pure (diskPath plan.poolDir plan.cpName)
  else
    existenceProbe plan.cpName cpProbeFailed >>= fun
      | some _ => throw (cpRefusal plan.cpName)
      | none => installCp plan template cpSeed macs net2

/-- What the steps of all the workers share. -/
structure WorkerInputs where
  template : String
  joinCmd : String
  pubkeyContents : String
  macs : PrimaryMacs
  net2s : Option (List Net2)
  deriving DecidableEq, Repr

def createWorker (plan : Plan) (pid : UInt32) (inputs : WorkerInputs) (i : Nat) (w : String) :
    Steps Failure Unit :=
  let wQcow := diskPath plan.poolDir w
  let wSeed := seedPath plan.poolDir w
  let tag := toString pid.toNat ++ "-" ++ w
  let udTmp := "/tmp/hbird-w-ud-" ++ tag ++ ".yaml"
  let wNet2 := inputs.net2s.bind fun ns => ns[i]?
  let mac := inputs.macs.workers.getD i ""
  wrapped ("could not write worker user-data to " ++ udTmp ++ ": ")
    (run (.writeFile udTmp (renderWorkerUserData w inputs.pubkeyContents inputs.joinCmd
      plan.switchToGhcr plan.ghcrTag
      ⟨plan.bootcUpdateSchedule, plan.bootcUpdateRepoWorker, wNet2.map Net2.mac⟩))) >>= fun _ =>
  writeNet2ConfigTmp wNet2 ("w-" ++ tag) >>= fun ncTmp =>
  wrapped ("cloud-init seed build for " ++ w ++ " failed: ") (run (.seed w udTmp wSeed ncTmp)) >>=
    fun _ =>
  wrapped ("reflink clone " ++ inputs.template ++ " -> " ++ wQcow ++ " failed: ")
    (run (.clone inputs.template wQcow)) >>= fun _ =>
  reserve mac w (workerIp plan.toPlan i) >>= fun _ =>
  wrapped ("virt-install " ++ w ++ " failed: ")
    (run (.install ⟨w, plan.workerMemory.toNat, plan.workerVcpus, wQcow, some wSeed, some mac,
      extraNic wNet2⟩)) >>= fun _ => pure ()

def deployWorker (plan : Plan) (pid : UInt32) (inputs : WorkerInputs) (i : Nat) (w : String) :
    Steps Failure Unit :=
  existenceProbe w (workerProbeFailed w) >>= fun
    | some _ => throw (workerRefusal w)
    | none => createWorker plan pid inputs i w

/-- The workers from the `i`-th on. -/
def deployWorkers (plan : Plan) (pid : UInt32) (inputs : WorkerInputs) :
    Nat → List String → Steps Failure Unit
  | _, [] => pure ()
  | i, w :: ws =>
    deployWorker plan pid inputs i w >>= fun _ => deployWorkers plan pid inputs (i + 1) ws

def planWorkerSpawn (plan : Plan) (pid : UInt32) (inputs : WorkerInputs) : Steps Failure Unit :=
  if plan.dryRun then pure () else deployWorkers plan pid inputs 0 plan.workerNames

end Vms

section Waiting

/-- Try until something comes of it, at most so many times. -/
def retry {α : Type} (attempt : Steps Failure (Option α)) : Nat → Steps Failure (Option α)
  | 0 => pure none
  | n + 1 => attempt >>= fun
    | some a => pure (some a)
    | none => retry attempt n

/-- A command whose failure only means that it is not time yet. -/
def attempt {α : Type} (c : Command) (read : String → Option α) : Steps Failure (Option α) :=
  Exec.outcome (run c) >>= fun r => pure (r.toOption.bind read)

def Plan.waitSecs (plan : Plan) : UInt32 := plan.cpReadyRetries * plan.cpReadySleepSecs.toUInt32

def readyCommand : String :=
  "kubectl --kubeconfig=/etc/kubernetes/admin.conf get nodes --no-headers 2>/dev/null " ++
    "| awk '$2==\"Ready\"' | grep -q ."

def planCpReady (plan : Plan) (privkeyPath : String) : Steps Failure String :=
  if plan.dryRun then pure "<resolved-at-runtime>"
  else
    retry (attempt (.domifaddr plan.cpName) fun stdout =>
      (Domifaddr.parseDomifaddr stdout (virsh ("domifaddr " ++ shellQuote plan.cpName))).toOption.join)
      plan.cpReadyRetries.toNat >>= fun
    | none => bail ("could not resolve CP IP after ~" ++ toString (plan.waitSecs / 60).toNat ++ "min")
    | some ip =>
      let cpIp := String.ofList ip.text
      retry (attempt (.onCp privkeyPath cpIp readyCommand) fun _ => some ())
        plan.cpReadyRetries.toNat >>= fun
      | none => bail "CP never reached Ready"
      | some () => pure cpIp

def planJoinToken (plan : Plan) (cpIp privkeyPath : String) : Steps Failure String :=
  if plan.dryRun then pure "<join-cmd-at-runtime>"
  else
    wrapped "kubeadm token create failed: "
      (run (.onCp privkeyPath cpIp
        ("kubeadm token create --ttl " ++ plan.tokenTtl ++ " --print-join-command"))) >>= fun out =>
    if startsWith (trim out) "kubeadm join" then pure (trim out)
    else bail ("expected 'kubeadm join ...' from CP, got: " ++ quoted (trim out))

def nodeCommand (node : String) : String :=
  "kubectl --kubeconfig=/etc/kubernetes/admin.conf get node '" ++ node ++
    "' --no-headers 2>/dev/null | awk '$2==\"Ready\"\x7bprint \"yes\"\x7d'"

def waitNodes (plan : Plan) (cpIp privkeyPath : String) : List String → Steps Failure Unit
  | [] => pure ()
  | node :: nodes =>
    retry (attempt (.onCp privkeyPath cpIp (nodeCommand node)) fun out =>
      if contains (trim out) "yes" then some () else none) plan.cpReadyRetries.toNat >>= fun
    | none => bail ("node '" ++ node ++ "' never reached Ready")
    | some () => waitNodes plan cpIp privkeyPath nodes

def planClusterReady (plan : Plan) (cpIp privkeyPath : String) : Steps Failure Unit :=
  if plan.dryRun then pure ()
  else waitNodes plan cpIp privkeyPath (plan.cpName :: plan.workerNames)

def planVerify (plan : Plan) (cpIp : String) : Steps Failure Unit :=
  if !plan.runVerify || plan.dryRun then pure ()
  else
    Exec.observe (Program.perform (Query.verify (["verify", "app-deploy", "--config", plan.configPath,
      "--cp-ip", cpIp] ++ ((nonEmpty plan.kvmHost).map (["--kvm-host", ·])).getD []))) >>= fun
    | .notFound source =>
      if plan.strictCache then bail ("hbird verify app-deploy not found on PATH " ++
        "(required under STRICT_CACHE=1): " ++ source)
      else pure ()
    | .exited true => pure ()
    | .exited false =>
      if plan.strictCache then
        bail "hbird verify app-deploy exited non-zero — deploy fails under STRICT_CACHE=1"
      else pure ()

end Waiting

section Preflight

def netInfoReportsActive (netInfo : String) : Bool :=
  ((lines netInfo).find? fun l => startsWith l "Active:").elim false fun l =>
    eqIgnoreAsciiCase (trim (String.ofList (l.toList.drop 7))) "yes"

/-- How often a text that starts with a character it has only once stands in another one. -/
def countOf (text pattern : String) : Nat :=
  text.toList.tails.countP fun rest => pattern.toList.isPrefixOf rest

def hostdevVfCount (netXml : String) : Option Nat :=
  if contains netXml "forward mode='hostdev'" then some (countOf netXml "<address type='pci'")
  else none

def checkExtraNetworkOnHost (plan : Plan) (net : String) : Steps Failure Unit :=
  Exec.outcome (run (.netInfo net)) >>= fun
    | .error _ => bail ("EXTRA_NETWORK='" ++ net ++ "' is not a defined libvirt network on this " ++
        "host — define it first (see cluster.example.conf for a VF-pool example)")
    | .ok info =>
      if !netInfoReportsActive info then
        bail ("EXTRA_NETWORK='" ++ net ++ "' is defined but NOT active — run 'virsh net-start " ++ net ++
          "' (and net-autostart) first")
      else
        Exec.outcome (run (.netDumpxml net)) >>= fun xml =>
        match hostdevVfCount (xml.toOption.getD "") with
        | some vfCount =>
          if vfCount < 1 + plan.workerNames.length then
            bail ("EXTRA_NETWORK='" ++ net ++ "' is a hostdev pool with " ++ toString vfCount ++
              " VF(s) but this deploy needs " ++ toString (1 + plan.workerNames.length) ++ " (1 CP + " ++
              toString plan.workerNames.length ++ " worker(s))")
          else pure ()
        | none => pure ()

def checkCidrs (plan : Plan) : Except String Unit :=
  DeployCluster.checkAll (fun (knob, v) =>
    DeployCluster.failIf ((nonEmpty v).any fun s => !isValidCidr s)
      (knob ++ " is malformed (need CIDR like 10.244.0.0/16): '" ++ v.getD "" ++ "'"))
    [("POD_CIDR", plan.podCidr), ("SERVICE_CIDR", plan.serviceCidr)]

/-- The checks of the plan itself, with the MACs and the second interfaces that come of them. -/
def validate (plan : Plan) : Except String (PrimaryMacs × Option (Net2 × List Net2)) :=
  if plan.enableCloudInit ≠ 1 then
    .error ("ENABLE_CLOUD_INIT must be 1 for this flow (got '" ++
      toString plan.enableCloudInit.toNat ++ "'). The deploy-cluster path requires cloud-init in the " ++
      "image to inject per-VM hostname + worker join + bootc switch.")
  else
    resolvePrimaryMacs plan.cpName plan.cpMac plan.workerNames plan.workerMacs >>= fun macs =>
    checkCidrs plan >>= fun _ =>
    validateExtraNetwork plan.nics macs >>= fun extraNet => .ok (macs, extraNet)

end Preflight

/-- Where the key without `.pub` is. -/
def derivePrivkeyPath (pubkeyFile : String) : String :=
  if pubkeyFile.toList.reverse.take 4 = "bup.".toList then
    String.ofList (pubkeyFile.toList.dropLast.dropLast.dropLast.dropLast)
  else pubkeyFile

/-- What the VMs are made from. -/
structure Prepared where
  macs : PrimaryMacs
  extraNet : Option (Net2 × List Net2)
  pubkeyContents : String
  cpTemplate : String
  workerTemplate : String
  deriving DecidableEq, Repr

/-- Everything ahead of the first VM. -/
def prepare (plan : Plan) (pid : UInt32) : Steps Failure Prepared :=
  checked (validate plan) >>= fun (macs, extraNet) =>
  (match extraNet with
    | some (n, _) => if plan.dryRun then pure () else checkExtraNetworkOnHost plan n.network
    | none => pure ()) >>= fun _ =>
  (if plan.dryRun then pure ""
    else wrapped ("cannot read SSH_PUBKEY_FILE " ++ plan.sshPubkeyFile ++ ": ") (run .readPubkey)) >>=
    fun pubkeyContents =>
  planImageAcquisition plan >>= fun (cpRef, workerRef) =>
  planBuildQcow2 plan pid cpRef workerRef >>= fun (cpTemplate, workerTemplate) =>
  pure ⟨macs, extraNet, pubkeyContents, cpTemplate, workerTemplate⟩

/-- The VM of the control plane. -/
def deployCp (plan : Plan) (pid : UInt32) (p : Prepared) : Steps Failure Unit :=
  planCpSeed plan pid p.pubkeyContents (p.extraNet.map (·.1)) >>= fun cpSeed =>
  planCpVirtInstall plan p.cpTemplate cpSeed p.macs (p.extraNet.map (·.1)) >>= fun _ => pure ()

/-- From the control plane's VM on. -/
def joinWorkers (plan : Plan) (pid : UInt32) (p : Prepared) : Steps Failure Unit :=
  let privkeyPath := derivePrivkeyPath plan.sshPubkeyFile
  planCpReady plan privkeyPath >>= fun cpIp =>
  planJoinToken plan cpIp privkeyPath >>= fun joinCmd =>
  planWorkerSpawn plan pid ⟨p.workerTemplate, joinCmd, p.pubkeyContents, p.macs,
    p.extraNet.map (·.2)⟩ >>= fun _ =>
  planClusterReady plan cpIp privkeyPath >>= fun _ => planVerify plan cpIp

/-- `run`, from the plan on. -/
def deploy (plan : Plan) (pid : UInt32) : Steps Failure Unit :=
  prepare plan pid >>= fun p => deployCp plan pid p >>= fun _ => joinWorkers plan pid p

end Hbird.Virt.Deploy
