import EgoBridge.Lib.Calls
import EgoBridge.Lib.Base64
import EgoBridge.Json.Order
import EgoBridge.Json.FirstOffence
import EgoBridge.Protocol.LeaseRun
import EgoBridge.Protocol.Scheduler
import EgoBridge.Protocol.Locks
import EgoBridge.Protocol.Framing
import EgoBridge.Protocol.Jpeg
import EgoBridge.Protocol.Crypto
import EgoBridge.Protocol.Transcripts
import EgoBridge.Protocol.LearningTool
import EgoBridge.Protocol.Containment
import EgoBridge.Bridge.Supervisor
import EgoBridge.Bridge.Grace
import EgoBridge.Bridge.LeaseRules
import EgoBridge.Bridge.Revocation
import EgoBridge.Bridge.Execution
import EgoBridge.Bridge.Outlive
import EgoBridge.Bridge.Relay
import EgoBridge.Bridge.Control
import EgoBridge.Bridge.Observer
import EgoBridge.Bridge.PermitRun
import EgoBridge.Bridge.Registry
import EgoBridge.Bridge.AtMostOnce
import EgoBridge.Bridge.Teardown
import EgoBridge.Bridge.RelayAnswers
import EgoBridge.Bridge.DevicePeer
import EgoBridge.Bridge.Forged
import EgoBridge.Bridge.FileGuard
import EgoBridge.Bridge.Uploads
import EgoBridge.Bridge.Commits
import EgoBridge.Bridge.Monitor
import EgoBridge.Wrapper.OutputCap
import EgoBridge.Wrapper.Request
import EgoBridge.Wrapper.ScriptFit
import EgoBridge.Wrapper.Call
import EgoBridge.Wrapper.ControlCommand
import EgoBridge.Wrapper.Emit
import EgoBridge.Device.KeyFile
import EgoBridge.Device.Commands
import EgoBridge.Device.ReadBack
import EgoBridge.Device.Clear
import EgoBridge.Device.Resumed
import EgoBridge.Device.Lifecycle
import EgoBridge.Device.Issued
import EgoBridge.Device.PolicyLock
import EgoBridge.Device.Handoff
import EgoBridge.Device.OperationRuns
import EgoBridge.Device.Admission
import EgoBridge.Native.Rpc
import EgoBridge.Scripts.ExtractBundle
import EgoBridge.Device.Rotation
import EgoBridge.Device.RotationRuns
import EgoBridge.Device.Stranded
