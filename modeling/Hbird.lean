import Hbird.Config.Arrays
import Hbird.Etcd.RestoreRuns
import Hbird.Etcd.RotationRuns
import Hbird.Interaction.Exec
import Hbird.Interaction.Handle
import Hbird.Interaction.Poll
import Hbird.Ssh
import Hbird.Text
import Hbird.UpdateCluster.LockGuards
import Hbird.UpdateCluster.RecoveryHint
import Hbird.UpdateCluster.TimerRuns
import Hbird.Virt.Probe
import Hbird.BootcSemverUpdate
import Hbird.Config.Scalars
import Hbird.Virt.DestructivePath
import Hbird.Virt.Uri
import Hbird.Config.Assembly
import Hbird.CpKubectl
import Hbird.Virt.CleanVmsSafety
import Hbird.Etcd.KeyListEdits
import Hbird.Virt.VirtInstall
import Hbird.Virt.SshArgv
import Hbird.StagedCheck
import Hbird.Domifaddr
import Hbird.SshPipes
import Hbird.Virt.Reservation
import Hbird.Virt.ExtraNetwork
import Hbird.Json.Loose
import Hbird.Etcd.Backup
import Hbird.KubeBench
import Hbird.Virt.SpawnRuns
import Hbird.ExportArgocd.Replacement
import Hbird.UpdateCluster.FromArgs
import Hbird.ExportArgocd.Renaming
import Hbird.Etcd.Base64
import Hbird.Virt.Cidr
import Hbird.Timestamps
import Hbird.UpdateCluster.WaitLoops
import Hbird.Shell.Script
import Hbird.Virt.FirstBoot
import Hbird.KvmHost
import Hbird.Virt.Deploy.TemplateRuns
import Hbird.Virt.Deploy.RefusalRuns
import Hbird.Virt.Deploy.DryRun
import Hbird.Virt.Deploy.OnHost
import Hbird.RollingApply.Clock
import Hbird.Virt.Destroy.Removal
import Hbird.NodeIp
import Hbird.Virt.SwitchToGhcr.Fleet
import Hbird.Verify.AppDeploy
