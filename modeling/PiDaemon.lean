import PiDaemon.Base.Bytes
import PiDaemon.Base.Buffer
import PiDaemon.Base.Bus
import PiDaemon.Base.CString
import PiDaemon.Base.Checksum
import PiDaemon.Base.Chunks
import PiDaemon.Base.Framing
import PiDaemon.Base.History
import PiDaemon.Base.Io
import PiDaemon.Base.Memory
import PiDaemon.Base.RwLock
import PiDaemon.Base.Transition
import PiDaemon.Base.Window
import PiDaemon.Proto.Wire
import PiDaemon.Proto.NetIpc
import PiDaemon.Store.Record
import PiDaemon.Store.Disk
import PiDaemon.Store.Atomicity
import PiDaemon.Store.Detection
import PiDaemon.Store.Locking
import PiDaemon.Server.Connection
import PiDaemon.Server.World
import PiDaemon.Server.Service
import PiDaemon.Server.Steps
import PiDaemon.Server.Outgoing
import PiDaemon.Server.Backlog
import PiDaemon.Server.Incoming
import PiDaemon.Server.Durability
import PiDaemon.Server.Registration
import PiDaemon.Server.Protocol
import PiDaemon.Server.Bus
import PiDaemon.Server.Arrival
import PiDaemon.Server.Updates
import PiDaemon.Server.Readiness
import PiDaemon.Server.Descriptors
import PiDaemon.Process.Manager
import PiDaemon.Process.Exits
import PiDaemon.Process.Steps
import PiDaemon.Process.Children
import PiDaemon.Process.Shutdown
import PiDaemon.Process.Restart
import PiDaemon.Process.Rate
import PiDaemon.Process.Supervision
import PiDaemon.Process.ShutdownAll
import PiDaemon.Main.Singleton
import PiDaemon.Main.EventLoop
import PiDaemon.Main.Lifecycle
import PiDaemon.Client.Ipc
import PiDaemon.Client.Relay
import PiDaemon.Client.Conversation
import PiDaemon.Client.Delivery
import PiDaemon.Client.Seeding
import PiDaemon.Client.Stream
import PiDaemon.App.Bulk
import PiDaemon.App.Reassembly
import PiDaemon.App.Bounds
import PiDaemon.App.Deliver
import PiDaemon.App.Sending
import PiDaemon.App.Upload
import PiDaemon.App.Payload
import PiDaemon.App.Commands
import PiDaemon.App.Isolation
import PiDaemon.App.Mirror
import PiDaemon.Network.Bridge
import PiDaemon.Network.Loop
import PiDaemon.Network.Transparency
import PiDaemon.Network.EndToEnd
import PiDaemon.Network.Commands
import PiDaemon.Network.Transfers
import PiDaemon.App.Loop
import PiDaemon.Network.Bulk
import PiDaemon.Demo.Worker
