import TcpRedirector.Impl.Auth.AgentPipe
import TcpRedirector.Impl.Auth.AuthAgent
import TcpRedirector.Impl.Auth.Base64
import TcpRedirector.Impl.Auth.ContextStore
import TcpRedirector.Impl.Auth.KerberosAgentProvider
import TcpRedirector.Impl.Auth.LaunchLimit
import TcpRedirector.Impl.Capture.Bitmap
import TcpRedirector.Impl.Capture.CaptureLoop
import TcpRedirector.Impl.Capture.CheckProcessRule
import TcpRedirector.Impl.Capture.Lifecycle
import TcpRedirector.Impl.Capture.ProcessTree
import TcpRedirector.Impl.Capture.Session
import TcpRedirector.Impl.Capture.State
import TcpRedirector.Impl.ConnectionTable
import TcpRedirector.Impl.ConnectionTracker
import TcpRedirector.Impl.Driver.DriverEntry
import TcpRedirector.Impl.Driver.Memory
import TcpRedirector.Impl.Driver.RedirectService
import TcpRedirector.Impl.Driver.WfpCallout
import TcpRedirector.Impl.Gui.Config
import TcpRedirector.Impl.Gui.IpcClient
import TcpRedirector.Impl.Gui.Queries
import TcpRedirector.Impl.Gui.Settings
import TcpRedirector.Impl.Relay.Bridge
import TcpRedirector.Impl.Relay.Calls
import TcpRedirector.Impl.Relay.ConnectionHandler
import TcpRedirector.Impl.Relay.Labels
import TcpRedirector.Impl.Relay.OneWayRelay
import TcpRedirector.Impl.Relay.Response
import TcpRedirector.Impl.Relay.Server
import TcpRedirector.Impl.RuleEngine
import TcpRedirector.Impl.Service.Authentication
import TcpRedirector.Impl.Service.Config
import TcpRedirector.Impl.Service.ConfigManager
import TcpRedirector.Impl.Service.IpcHandler
import TcpRedirector.Impl.Service.Lifecycle
import TcpRedirector.Impl.Service.LogRotator
import TcpRedirector.Impl.Service.LogWriter
import TcpRedirector.Impl.Service.Logger
import TcpRedirector.Impl.Service.PipeLifecycle
import TcpRedirector.Impl.Service.PipeServer
import TcpRedirector.Impl.Service.Providers
import TcpRedirector.Impl.Service.Queries
import TcpRedirector.Impl.Service.SizeRotation
import TcpRedirector.Impl.Service.StatsCollector
import TcpRedirector.Impl.Service.Updates
import TcpRedirector.Impl.TableMemory
import TcpRedirector.Proof.Auth.Answering
import TcpRedirector.Proof.Auth.Base64
import TcpRedirector.Proof.Auth.Handles
import TcpRedirector.Proof.Auth.LaunchLimit
import TcpRedirector.Proof.Auth.Matching
import TcpRedirector.Proof.Auth.PipeHandles
import TcpRedirector.Proof.Auth.Principal
import TcpRedirector.Proof.Auth.Provider
import TcpRedirector.Proof.Auth.Reconnect
import TcpRedirector.Proof.Capture.Bitmap
import TcpRedirector.Proof.Capture.Bytes
import TcpRedirector.Proof.Capture.Decision
import TcpRedirector.Proof.Capture.DirectRule
import TcpRedirector.Proof.Capture.HalfClose
import TcpRedirector.Proof.Capture.Invariant
import TcpRedirector.Proof.Capture.Isolation
import TcpRedirector.Proof.Capture.Lifecycle
import TcpRedirector.Proof.Capture.LoopFreedom
import TcpRedirector.Proof.Capture.Monitor
import TcpRedirector.Proof.Capture.PortSets
import TcpRedirector.Proof.Capture.ProcessTree
import TcpRedirector.Proof.Capture.Restart
import TcpRedirector.Proof.Capture.Step
import TcpRedirector.Proof.Capture.Translation
import TcpRedirector.Proof.ConnectionMap
import TcpRedirector.Proof.ConnectionMonitor
import TcpRedirector.Proof.ConnectionNodes
import TcpRedirector.Proof.ConnectionTable
import TcpRedirector.Proof.ConnectionTracker
import TcpRedirector.Proof.Driver.Classify
import TcpRedirector.Proof.Driver.Delivery
import TcpRedirector.Proof.Driver.DriverEntry
import TcpRedirector.Proof.Driver.Memory
import TcpRedirector.Proof.Driver.Queue
import TcpRedirector.Proof.Driver.Rules
import TcpRedirector.Proof.Driver.Sharing
import TcpRedirector.Proof.Framework.Base64
import TcpRedirector.Proof.Framework.Bytes
import TcpRedirector.Proof.Framework.Cells
import TcpRedirector.Proof.Framework.Chain
import TcpRedirector.Proof.Framework.Entries
import TcpRedirector.Proof.Framework.Fields
import TcpRedirector.Proof.Framework.Files
import TcpRedirector.Proof.Framework.GetString
import TcpRedirector.Proof.Framework.Json
import TcpRedirector.Proof.Framework.Links
import TcpRedirector.Proof.Framework.Locked
import TcpRedirector.Proof.Framework.Owns
import TcpRedirector.Proof.Framework.Prog
import TcpRedirector.Proof.Framework.Ring
import TcpRedirector.Proof.Framework.Run
import TcpRedirector.Proof.Framework.Sorted
import TcpRedirector.Proof.Framework.SrwLock
import TcpRedirector.Proof.Framework.Text
import TcpRedirector.Proof.Framework.Threads
import TcpRedirector.Proof.Framework.Unicode
import TcpRedirector.Proof.Framework.Views
import TcpRedirector.Proof.Gui.Calls
import TcpRedirector.Proof.Gui.IpcClient
import TcpRedirector.Proof.Gui.Message
import TcpRedirector.Proof.Gui.Page
import TcpRedirector.Proof.Gui.Queries
import TcpRedirector.Proof.Gui.Saving
import TcpRedirector.Proof.Relay.Bounds
import TcpRedirector.Proof.Relay.Bridge
import TcpRedirector.Proof.Relay.Calls
import TcpRedirector.Proof.Relay.Challenge
import TcpRedirector.Proof.Relay.Classification
import TcpRedirector.Proof.Relay.Destination
import TcpRedirector.Proof.Relay.FirstConnect
import TcpRedirector.Proof.Relay.Handshake
import TcpRedirector.Proof.Relay.Resources
import TcpRedirector.Proof.Relay.Server
import TcpRedirector.Proof.Relay.Shutdown
import TcpRedirector.Proof.Relay.Sockets
import TcpRedirector.Proof.Relay.Token
import TcpRedirector.Proof.Relay.Tunnel
import TcpRedirector.Proof.RuleEngine
import TcpRedirector.Proof.Service.Assign
import TcpRedirector.Proof.Service.Base64
import TcpRedirector.Proof.Service.Durable
import TcpRedirector.Proof.Service.FailedLoad
import TcpRedirector.Proof.Service.Fields
import TcpRedirector.Proof.Service.Lifecycle
import TcpRedirector.Proof.Service.Load
import TcpRedirector.Proof.Service.LogRotator
import TcpRedirector.Proof.Service.LogWriter
import TcpRedirector.Proof.Service.Logger
import TcpRedirector.Proof.Service.Password
import TcpRedirector.Proof.Service.PipeLifecycle
import TcpRedirector.Proof.Service.PipeServer
import TcpRedirector.Proof.Service.Port
import TcpRedirector.Proof.Service.Providers
import TcpRedirector.Proof.Service.Reload
import TcpRedirector.Proof.Service.RotationSchedule
import TcpRedirector.Proof.Service.Scheme
import TcpRedirector.Proof.Service.SizeRotation
import TcpRedirector.Proof.Service.StatsCollector
import TcpRedirector.Proof.Service.Updates
import TcpRedirector.Proof.TableMemory
import TcpRedirector.TCB.Base64
import TcpRedirector.TCB.Bytes
import TcpRedirector.TCB.Cells
import TcpRedirector.TCB.Chain
import TcpRedirector.TCB.Files
import TcpRedirector.TCB.GetString
import TcpRedirector.TCB.Http
import TcpRedirector.TCB.Json
import TcpRedirector.TCB.Links
import TcpRedirector.TCB.Locked
import TcpRedirector.TCB.Prog
import TcpRedirector.TCB.Run
import TcpRedirector.TCB.SrwLock
import TcpRedirector.TCB.Threads
import TcpRedirector.TCB.Unicode
