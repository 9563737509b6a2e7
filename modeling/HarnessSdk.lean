import HarnessSdk.Transition
import HarnessSdk.Coroutine
import HarnessSdk.Dict
import HarnessSdk.Json
import HarnessSdk.Contracts
import HarnessSdk.Recovery
import HarnessSdk.ToolSchema
import HarnessSdk.Ports
import HarnessSdk.RelayControl
import HarnessSdk.Session
import HarnessSdk.Receive
import HarnessSdk.Tasks
import HarnessSdk.AdapterShared
import HarnessSdk.QwenOmni
import HarnessSdk.QwenSession
import HarnessSdk.QwenEffects
import HarnessSdk.ContextAcks
import HarnessSdk.Moves
import HarnessSdk.Footprint
import HarnessSdk.Placed
import HarnessSdk.Results
import HarnessSdk.TerminalOwner
import HarnessSdk.ControlledClose
import HarnessSdk.ToolRecords
import HarnessSdk.ToolSubmission
import HarnessSdk.ToolFollowup
import HarnessSdk.Traffic
import HarnessSdk.KeyClaims
import HarnessSdk.ResponseBook
import HarnessSdk.Hangup
import HarnessSdk.OutputGate
import HarnessSdk.Injections
import HarnessSdk.IdentityTable
import HarnessSdk.SnapshotFidelity
import HarnessSdk.QwenStreams
import HarnessSdk.Client
import HarnessSdk.Generations
import HarnessSdk.OpenFailures
import HarnessSdk.LocalProtocol
import HarnessSdk.LocalChannel
import HarnessSdk.LocalMoves
import HarnessSdk.LocalSteps
import HarnessSdk.LocalTerminal
import HarnessSdk.LocalInput
import HarnessSdk.LocalResponses
import HarnessSdk.LocalWire
import HarnessSdk.LocalWindow
import HarnessSdk.ControlGrammar
import HarnessSdk.JsonText
import HarnessSdk.KeySort
import HarnessSdk.CanonicalJson
import HarnessSdk.CapabilityContract
import HarnessSdk.CapabilityLock
import HarnessSdk.LocalSpeech
import HarnessSdk.LocalOutput
import HarnessSdk.LocalFlow
import HarnessSdk.LocalPlayback
import HarnessSdk.LocalBatches
import HarnessSdk.Service
import HarnessSdk.ChatController
import HarnessSdk.ChatPolls
import HarnessSdk.ChatSteps
import HarnessSdk.ChatRuns
import HarnessSdk.ChatCancels
import HarnessSdk.ChannelTeardown
import HarnessSdk.LoopbackHost
import HarnessSdk.LoopbackSteps
import HarnessSdk.LoopbackCapacity
import HarnessSdk.LoopbackShutdown
import HarnessSdk.UnixStartClose
import HarnessSdk.Diagnostics
import HarnessSdk.ChatQuit
import HarnessSdk.CredentialRuns
import HarnessSdk.ProviderFailures
import HarnessSdk.RemoteCalls
import HarnessSdk.FenceScans
import HarnessSdk.TextRendering
import HarnessSdk.FrameDecoder
import HarnessSdk.TokenVerification
import HarnessSdk.CredentialReload
import HarnessSdk.EventShapes
import HarnessSdk.EnvelopeSizes
import HarnessSdk.RenderedText
import HarnessSdk.ClientFailures
import HarnessSdk.InteractiveOutcomes
import HarnessSdk.FailureCauses
import HarnessSdk.InputWindows
import HarnessSdk.IdentityProjection
import HarnessSdk.FlatSession
import HarnessSdk.FlatMessages
import HarnessSdk.AtMostOnce
import HarnessSdk.SchemaMatching
import HarnessSdk.SessionGauges
import HarnessSdk.RelayConnection
import HarnessSdk.CliEngine
import HarnessSdk.CredentialMinter
