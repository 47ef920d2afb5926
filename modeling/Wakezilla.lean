import Wakezilla.VerifiedAddress
import Wakezilla.RequestAtomicity
import Wakezilla.UnchangedUpdate
import Wakezilla.MachineUpgrade
import Wakezilla.Registry
import Wakezilla.RegistryValidity
import Wakezilla.Timers
import Wakezilla.AuthState
import Wakezilla.Durability
import Wakezilla.Forwarders
import Wakezilla.LiveForwarders
import Wakezilla.StopIsolation
import Wakezilla.Wol
import Wakezilla.IdleShutdown
import Wakezilla.Sessions
import Wakezilla.ShutdownPermission
import Wakezilla.ClientServer
import Wakezilla.ClientStartup
import Wakezilla.GuardRuns
import Wakezilla.SignedRequests
import Wakezilla.HistoryFile
import Wakezilla.BoundedHistory
import Wakezilla.Tui
import Wakezilla.ProtectedBinary
import Wakezilla.Setup
import Wakezilla.PreservedSettings
import Wakezilla.HistoryChart
import Wakezilla.Checksums
import Wakezilla.LogTail
import Wakezilla.ProtectedPath
import Wakezilla.DesktopEntry
import Wakezilla.LegacyAutostart
import Wakezilla.ShellScript
import Wakezilla.Powershell
import Wakezilla.Dashboard
import Wakezilla.ApiRoutes
import Wakezilla.ServiceLifecycle
import Wakezilla.VerifiedUpdate
import Wakezilla.WakeOnConnect
import Wakezilla.TrayAutostart
import Wakezilla.PageMirror
import Wakezilla.PageRequests
import Wakezilla.UneditedForm
