import Hbird.Virt.Connection

namespace Hbird.Virt

open Hbird.Interaction Hbird.Ssh

/-- The match that the cluster commands make on `dominfo`: a domain, none, or an error that
`onError` words. -/
def existenceProbe (conn : Connection) (name : String) (onError : Error → Failure) :
    Remote Failure (Option DomainInfo) :=
  Exec.outcome (conn.dominfo name) >>= fun
    | .ok info => pure (some info)
    | .error (.virshFailed _ _) => pure none
    | .error e => throw (onError e)

def diskPath (poolDir name : String) : String := poolDir ++ "/" ++ name ++ ".qcow2"

def seedPath (poolDir name : String) : String := poolDir ++ "/" ++ name ++ "-seed.iso"

namespace DestroyCluster

structure Plan where
  cpName : String
  workerNames : List String
  poolDir : String
  kvmHost : Option String
  dryRun : Bool
  deriving DecidableEq, Repr

namespace Plan

def vms (plan : Plan) : List String := plan.cpName :: plan.workerNames

def artifactPaths (plan : Plan) (name : String) : List String :=
  [diskPath plan.poolDir name, seedPath plan.poolDir name,
    plan.poolDir ++ "/" ++ name ++ "-cloud-init.iso"]

end Plan

def reservationNet : String := "default"

/-- A step whose failure is a warning. -/
def warnOnError (x : Remote Error Unit) : Remote Failure Nat :=
  Exec.outcome x >>= fun
    | .ok () => pure 0
    | .error _ => pure 1

/-- A network that cannot be read is no counted warning. -/
def removeReservation (conn : Connection) (name : String) : Remote Failure Nat :=
  Exec.outcome (conn.netDumpxml reservationNet) >>= fun
    | .ok netXml =>
      match findIpDhcpHostByName netXml name with
      | some hostXml => warnOnError (conn.netUpdateDeleteIpDhcpHost reservationNet hostXml)
      | none => pure 0
    | .error _ => pure 0

def removeDomain (conn : Connection) (name : String) : Remote Failure Nat :=
  warnOnError (conn.destroyDomain name) >>= fun a =>
  warnOnError (conn.undefineDomain name) >>= fun b =>
  removeReservation conn name >>= fun c => pure (a + b + c)

def removeArtifacts (conn : Connection) : List String → Nat → Remote Failure Nat
  | [], warnings => pure warnings
  | path :: paths, warnings =>
    Exec.outcome (conn.remotePathExists path) >>= fun
      | .ok false => removeArtifacts conn paths warnings
      | .ok true => warnOnError (conn.remoteRmF path) >>= fun w =>
          removeArtifacts conn paths (warnings + w)
      | .error _ => removeArtifacts conn paths (warnings + 1)

/-- What is left to do once it is known whether the VM is defined. -/
def removeVm (conn : Connection) (plan : Plan) (name : String) (isDefined : Bool) :
    Remote Failure Nat :=
  (if isDefined then removeDomain conn name else pure 0) >>= fun warnings =>
    removeArtifacts conn (plan.artifactPaths name) warnings

def probeFailed (name : String) (e : Error) : Failure :=
  .context ("dominfo probe for " ++ name ++ " failed (transport, not domain-absence)") (.source e)

/-- Tear down one VM and its files; the value counts the warnings. -/
def destroyOne (conn : Connection) (plan : Plan) (name : String) : Remote Failure Nat :=
  existenceProbe conn name (probeFailed name) >>= fun info => removeVm conn plan name info.isSome

end DestroyCluster

end Hbird.Virt
