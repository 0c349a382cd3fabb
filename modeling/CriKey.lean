import CriKey.Scheduler.SerialLegacy
import CriKey.Scheduler.Conservation
import CriKey.Intake.Capacity
import CriKey.Intake.Conservation
import CriKey.Intake.Terminal
import CriKey.Supervisor.Circuit
import CriKey.Catalog.FileName
import CriKey.Catalog.RoundTrip
import CriKey.Search.Pruning
import CriKey.Store.Startup
import CriKey.Protocol.Frame
import CriKey.Legacy.Freshness
import CriKey.Legacy.Ownership
import CriKey.Legacy.Display
import CriKey.Packages.Usable
import CriKey.Config.Saving
import CriKey.Config.Isolation
import CriKey.Config.Redaction
import CriKey.Manager.PreRelease
import CriKey.Events.Conserved
import CriKey.Manager.Signed
import CriKey.Manager.Rollback
import CriKey.Manager.PluginIndex
import CriKey.Ui.Invariant
import CriKey.Ui.Sessions
import CriKey.Platform.Applications
import CriKey.Ui.Retained
import CriKey.Intake.Replace
import CriKey.Platform.Hotkeys
import CriKey.Sdk.Cancellation
import CriKey.Supervisor.Interleaving
import CriKey.Supervisor.Latency
import CriKey.Events.Wakeup
import CriKey.Packages.Listing
import CriKey.Settings.BaseZero
import CriKey.Ui.Selection
import CriKey.Search.FileDriver
