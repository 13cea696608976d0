import Hbird.CpKubectl
import Hbird.Virt.VirtInstall

namespace Hbird.Verify

open Hbird.CpKubectl Hbird.Interaction Hbird.Ssh Hbird.Text
open Hbird.UpdateCluster (Failure)
open Hbird.Virt (shellSingleQuote)

def bail {α : Type} (text : String) : Executor Failure α := throw (.msg text)

def smoketestNs (epoch : Nat) : String := "smoketest-" ++ toString epoch

def createCommand (ns : String) : String := "create ns " ++ ns

def applyCommand (ns : String) : String := "apply -n " ++ ns ++ " -f -"

def waitCommand (ns : String) : String :=
  "-n " ++ ns ++ " wait --for=condition=available --timeout=2m deployment/nginx"

def eventsCommand (ns : String) : String := "-n " ++ ns ++ " get events --sort-by=.lastTimestamp"

/-- The pod of the probe, on one line. -/
def overrides : String :=
  "\x7b\"spec\":\x7b\"automountServiceAccountToken\":false,\"containers\":[\x7b\"name\":\"probe\"," ++
    "\"image\":\"busybox:stable\",\"stdin\":true,\"command\":[\"sh\",\"-c\"," ++
    "\"wget -qO- http://nginx:8080\"],\"securityContext\":\x7b\"runAsNonRoot\":true," ++
    "\"runAsUser\":65534,\"allowPrivilegeEscalation\":false,\"capabilities\":\x7b\"drop\":[\"ALL\"]\x7d," ++
    "\"seccompProfile\":\x7b\"type\":\"RuntimeDefault\"\x7d\x7d\x7d]\x7d\x7d"

def probeCommand (ns : String) : String :=
  "run probe -n " ++ ns ++ " --rm -i --restart=Never --image=busybox:stable --overrides=" ++
    shellSingleQuote overrides

def cleanupCommand (ns : String) : String := "delete ns " ++ ns ++ " --wait=false --ignore-not-found"

/-- The Deployment and the Service. -/
def manifest : String :=
  "apiVersion: apps/v1\nkind: Deployment\nmetadata:\n  name: nginx\nspec:\n  replicas: 1\n" ++
    "  selector:\n    matchLabels:\n      app: nginx\n  template:\n    metadata:\n      labels:\n" ++
    "        app: nginx\n    spec:\n      automountServiceAccountToken: false\n      containers:\n" ++
    "      - name: nginx\n        image: nginxinc/nginx-unprivileged:stable\n        ports:\n" ++
    "        - containerPort: 8080\n        securityContext:\n          runAsNonRoot: true\n" ++
    "          allowPrivilegeEscalation: false\n          capabilities:\n            drop: [ALL]\n" ++
    "          seccompProfile:\n            type: RuntimeDefault\n---\napiVersion: v1\n" ++
    "kind: Service\nmetadata:\n  name: nginx\nspec:\n  selector:\n    app: nginx\n  ports:\n" ++
    "  - port: 8080\n    targetPort: 8080\n"

/-- Whether the welcome page came back. -/
def welcomed (out : CpExecOutput) : Bool :=
  contains (out.stdout ++ "\n" ++ out.stderr) "Welcome to nginx"

def probe (cpIp ns : String) : Executor Failure Unit :=
  cpKubectlWithStdinLenient cpIp (probeCommand ns) "" >>= fun out =>
    if out.success = false then bail "verify-app-deploy: probe pod exited non-zero"
    else if welcomed out then pure ()
    else bail "verify-app-deploy: probe did not see the nginx welcome page"

/-- The smoke test, up to where its guard is dropped. -/
def smoketest (cpIp ns : String) : Executor Failure Unit :=
  (cpKubectlRawWithExec cpIp (createCommand ns)).context
      (.context ("verify-app-deploy: failed to create namespace " ++ ns)) >>= fun _ =>
  cpKubectlWithStdinLenient cpIp (applyCommand ns) manifest >>= fun applied =>
  if applied.success = false then
    bail ("verify-app-deploy: kubectl apply failed.\n--- stdout ---\n" ++ applied.stdout ++
      "\n--- stderr ---\n" ++ applied.stderr)
  else
    Exec.outcome (cpKubectlRawWithExec cpIp (waitCommand ns)) >>= fun
      | .ok _ => probe cpIp ns
      | .error _ =>
        Exec.outcome (cpKubectlRawWithExec cpIp (eventsCommand ns)) >>= fun _ =>
          bail "verify-app-deploy: deployment/nginx did not become Available"

/-- `NamespaceCleanup` is dropped however the smoke test ends. -/
def runVerifyAppDeploy (cpIp : String) (epoch : Nat) : Executor Failure Unit :=
  Exec.outcome (smoketest cpIp (smoketestNs epoch)) >>= fun result =>
    Exec.outcome (cpKubectlRawWithExec cpIp (cleanupCommand (smoketestNs epoch))) >>= fun _ =>
      (result : Except _ _)

end Hbird.Verify
