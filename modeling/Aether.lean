import Aether.Agent.Equiv.MemoryStore
import Aether.Agentd.Conversation
import Aether.Agentd.Equiv.Intent
import Aether.Agentd.Equiv.Planner
import Aether.Apps.Manager
import Aether.Background.Equiv.Agent
import Aether.Core.Equiv.App
import Aether.Defense.Equiv.Boundary
import Aether.Device.Equiv.Runtime
import Aether.Diagnostics.Equiv.Report
import Aether.Graphics.Compositor
import Aether.Graphics.Rect
import Aether.Graphics.SurfaceServer
import Aether.Hardware.Executor
import Aether.Installer.Plan
import Aether.Network.Equiv.Proc
import Aether.Proactive.Equiv.Daemon
import Aether.Runtime.Equiv.HostBooks
import Aether.Runtime.Equiv.HostReject
import Aether.Runtime.Equiv.HostTrail
import Aether.Runtime.Equiv.ProposalRunner
import Aether.Runtime.Planner
import Aether.Sandbox.Equiv.Launcher
import Aether.Sandbox.Policy
import Aether.Security.Credentials
import Aether.Security.Equiv.BootMeasure
import Aether.Security.Equiv.SignedUpdate
import Aether.Storage.Equiv.Confinement
import Aether.Store.Equiv.Install
import Aether.Supervisor.Backoff
import Aether.SystemCore.AgentExecute
import Aether.SystemCore.Base64
import Aether.SystemCore.Equiv.DeviceCommands
import Aether.SystemCore.Equiv.Dispatch
import Aether.SystemCore.Loader
import Aether.SystemCore.ServiceCommands
import Aether.Update.Equiv.DiskEngine
import Aether.Update.Equiv.FilesystemEngine
import Aether.Update.Equiv.Planning
import Aether.Update.Equiv.Retry
import Aether.Update.Equiv.State
import Aether.Update.Sha256
import Aether.Wm.Equiv.Geometry
