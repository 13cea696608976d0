import Hbird.Virt.Connection

namespace Hbird.Virt

open Hbird.Text

/-- The second network interface of one VM. -/
structure Net2 where
  network : String
  mac : String
  ip : String
  deriving DecidableEq, Repr

structure CpOverrides where
  bootcUpdateSchedule : Option String
  bootcUpdateRepoK8s : Option String
  podCidr : Option String
  serviceCidr : Option String
  net2Mac : Option String
  deriving DecidableEq, Repr

structure WorkerOverrides where
  bootcUpdateSchedule : Option String
  bootcUpdateRepoWorker : Option String
  net2Mac : Option String
  deriving DecidableEq, Repr

/-- An empty setting counts as none. -/
def nonEmpty (s : Option String) : Option String := s.filter (· ≠ "")

def onSome (s : Option String) (f : String → String) : String :=
  match s with
  | some v => f v
  | none => ""

def onTrue (b : Bool) (s : String) : String := if b then s else ""

def userDataHead (name pubkeyContents : String) : String :=
  "#cloud-config\n" ++ "hostname: " ++ name ++ "\n" ++
  "disable_root: false\n" ++ "users:\n" ++ "  - name: root\n" ++ "    ssh_authorized_keys:\n" ++
  "      - " ++ pubkeyContents ++ "\n"

def scheduleFile (schedule : String) : String :=
  "  - path: /etc/systemd/system/bootc-semver-update.timer.d/schedule.conf\n" ++
  "    owner: root:root\n" ++ "    permissions: '0644'\n" ++ "    content: |\n" ++
  "      [Timer]\n" ++ "      OnCalendar=\n" ++ "      OnCalendar=" ++ schedule ++ "\n"

def updateRepoFile (repo : String) : String :=
  "  - path: /etc/hummingbird/bootc-update.env\n" ++
  "    owner: root:root\n" ++ "    permissions: '0644'\n" ++ "    content: |\n" ++
  "      REPO=" ++ repo ++ "\n" ++ "      PREFIX=v\n"

def net2Ipv6OffRuncmd (mac : String) : String :=
  "  - |\n" ++
  "    # Disable IPv6 on the second NIC (accept-ra/dhcp6 do not survive the NM renderer).\n" ++
  "    dev=$(ip -o link | awk -v m=" ++ mac ++
  " 'tolower($0) ~ tolower(m) \x7bgsub(/:/,\"\",$2); print $2; exit\x7d')\n" ++
  "    [ -n \"$dev\" ] || \x7b echo \"hbird: no interface with MAC " ++ mac ++
  "\" >&2; exit 0; \x7d\n" ++
  "    con=$(nmcli -g GENERAL.CONNECTION device show \"$dev\")\n" ++
  "    [ -n \"$con\" ] || \x7b echo \"hbird: no NM connection on $dev\" >&2; exit 0; \x7d\n" ++
  "    nmcli connection modify \"$con\" ipv6.method disabled\n" ++
  "    nmcli connection up \"$con\" >/dev/null\n"

def restartTimer : String :=
  "  - [ systemctl, daemon-reload ]\n" ++
  "  - [ systemctl, restart, bootc-semver-update.timer ]\n"

def renderCpUserData (cpName pubkeyContents : String) (switchToGhcr : Bool) (ghcrTag : String)
    (autoUpdateCp : Bool) (overrides : CpOverrides) : String :=
  let schedule := nonEmpty overrides.bootcUpdateSchedule
  let repo := nonEmpty overrides.bootcUpdateRepoK8s
  let pod := nonEmpty overrides.podCidr
  let svc := nonEmpty overrides.serviceCidr
  userDataHead cpName pubkeyContents ++
  onTrue (schedule.isSome || repo.isSome || pod.isSome || svc.isSome) "write_files:\n" ++
  onSome schedule scheduleFile ++
  onSome repo updateRepoFile ++
  onTrue (pod.isSome || svc.isSome)
    ("  - path: /etc/hummingbird/k8s-init-local.env\n" ++
      "    owner: root:root\n" ++ "    permissions: '0600'\n" ++ "    content: |\n" ++
      onSome pod (fun v => "      POD_CIDR=" ++ v ++ "\n") ++
      onSome svc (fun v => "      SERVICE_CIDR=" ++ v ++ "\n")) ++
  "runcmd:\n" ++
  onSome (nonEmpty overrides.net2Mac) net2Ipv6OffRuncmd ++
  onTrue switchToGhcr
    ("  - [ bootc, switch, ghcr.io/aatchison/hummingbird-k8s:" ++ ghcrTag ++ " ]\n") ++
  (if autoUpdateCp then
    "  - [ systemctl, enable, --now, bootc-semver-update.timer ]\n" ++
    "  - [ systemctl, disable, --now, bootc-fetch-apply-updates.timer ]\n"
  else "  - [ systemctl, disable, --now, bootc-semver-update.timer ]\n") ++
  onTrue (autoUpdateCp && schedule.isSome) restartTimer

def renderWorkerUserData (workerName pubkeyContents joinCmd : String) (switchToGhcr : Bool)
    (ghcrTag : String) (overrides : WorkerOverrides) : String :=
  let schedule := nonEmpty overrides.bootcUpdateSchedule
  let repo := nonEmpty overrides.bootcUpdateRepoWorker
  let mac := nonEmpty overrides.net2Mac
  userDataHead workerName pubkeyContents ++
  "write_files:\n" ++ "  - path: /etc/hummingbird/worker-join.env\n" ++
  "    owner: root:root\n" ++ "    permissions: '0600'\n" ++ "    content: |\n" ++
  "      " ++ joinCmd ++ "\n" ++
  onSome schedule scheduleFile ++
  onSome repo updateRepoFile ++
  onTrue (switchToGhcr || schedule.isSome || mac.isSome)
    ("runcmd:\n" ++ onSome mac net2Ipv6OffRuncmd ++
      onTrue switchToGhcr
        ("  - [ bootc, switch, ghcr.io/aatchison/hummingbird-k8s-worker:" ++ ghcrTag ++ " ]\n") ++
      onTrue schedule.isSome restartTimer)

def renderNet2NetworkConfig (mac ip : String) : String :=
  "version: 2\n" ++ "ethernets:\n" ++ "  primary:\n" ++ "    match:\n" ++
  "      name: enp1s0\n" ++ "    dhcp4: true\n" ++ "  net2:\n" ++ "    match:\n" ++
  "      macaddress: \"" ++ mac ++ "\"\n" ++ "    dhcp4: false\n" ++ "    dhcp6: false\n" ++
  "    accept-ra: false\n" ++ "    addresses:\n" ++ "      - \"" ++ ip ++ "\"\n"

/-- Write a text to a file by a here-document. -/
def catCommand (path text : String) : String :=
  "cat > '" ++ path ++ "' << 'HBIRD_CI_EOF'\n" ++ text ++ "\nHBIRD_CI_EOF"

def seedScript (hostname udTmp outIso : String) (netCfgTmp : Option String) : String :=
  let hostnameQ := shQuote hostname
  let udQ := shQuote udTmp
  let isoQ := shQuote outIso
  let stageNc := onSome netCfgTmp fun nc => "cp " ++ shQuote nc ++ " \"$_tmp/network-config\"; "
  let ncLocalds := onSome netCfgTmp fun _ => " --network-config \"$_tmp/network-config\""
  let ncIsofile := onSome netCfgTmp fun _ => " \"$_tmp/network-config\""
  let rmNc := onSome netCfgTmp fun nc => "; rm -f -- " ++ shQuote nc
  let isoTool tool := tool ++ " -output " ++ isoQ ++ " -volid cidata -joliet -rock " ++
    "\"$_tmp/user-data\" \"$_tmp/meta-data\"" ++ ncIsofile ++ " >/dev/null 2>&1; "
  "_tmp=$(mktemp -d -t hbird-ci-XXXXXX); " ++
  "cp " ++ udQ ++ " \"$_tmp/user-data\"; " ++
  stageNc ++ "printf 'instance-id: hbird-%s-%s\\nlocal-hostname: %s\\n' " ++
    "\"$(date +%s)\" \"$$\" " ++ hostnameQ ++ " > \"$_tmp/meta-data\"; " ++
  "if command -v cloud-localds >/dev/null 2>&1; then " ++
    "cloud-localds" ++ ncLocalds ++ " " ++ isoQ ++ " \"$_tmp/user-data\" \"$_tmp/meta-data\"; " ++
  "elif command -v genisoimage >/dev/null 2>&1; then " ++ isoTool "genisoimage" ++
  "elif command -v mkisofs >/dev/null 2>&1; then " ++ isoTool "mkisofs" ++
  "elif command -v xorrisofs >/dev/null 2>&1; then " ++ isoTool "xorrisofs" ++
  "else " ++
    "echo 'build_cloud_init_seed: need cloud-localds / genisoimage / mkisofs / xorrisofs' >&2; " ++
    "exit 1; " ++
  "fi; " ++
  "rm -rf -- \"$_tmp\"; " ++
  "rm -f -- " ++ udQ ++ rmNc

def cloudInitSeedCmd (hostname udTmp outIso : String) (netCfgTmp : Option String) : String :=
  "set -euo pipefail; " ++ seedScript hostname udTmp outIso netCfgTmp

end Hbird.Virt
