import PwDart.LabelledRun
import PwDart.LinkedMap
import PwDart.NativeRecords
import PwDart.SpaDict
import PwDart.RegistryMonitor
import PwDart.RegistryCalls
import PwDart.RegistryWellFormed
import PwDart.RegistryEffects
import PwDart.Utf16
import PwDart.JsonValue
import PwDart.JsonDecode
import PwDart.DartDouble
import PwDart.DartModels
import PwDart.PwGraph
import PwDart.WireEncoding
import PwDart.Replica
import PwDart.Mirror
import PwDart.MirrorFaithful
import PwDart.GraphConvergence
import PwDart.GraphOrder
import PwDart.KeyedWrites
import PwDart.GraphReplay
import PwDart.PropsMask
import PwDart.Lifetimes
import PwDart.BoundedFifo
import PwDart.SpscQueue
import PwDart.SpscFifo
import PwDart.SpscObservers
import PwDart.CommandLoop
import PwDart.LoopQuit
import PwDart.Connect
import PwDart.MarkedQueue
import PwDart.Handshake
import PwDart.HandshakeView
import PwDart.HandshakeReplay
import PwDart.HandshakeRounds
import PwDart.HandshakeServer
import PwDart.HandshakeClient
import PwDart.HandshakeComplete
import PwDart.JsonWeight
import PwDart.JsonRun
import PwDart.PwParams
import PwDart.GraphJson
import PwDart.GraphRoundTrip
import PwDart.GraphQueries
import PwDart.ParamHandler
import PwDart.ParamText
import PwDart.ParamCache
import PwDart.ParamReadBack
import PwDart.NativeText
import PwDart.JsonKeys
import PwDart.NodeParamText
import PwDart.NodeParamExact
import PwDart.JsonWrite
import PwDart.JsonCodec
import PwDart.EventSerializer
import PwDart.WireAgreement
import PwDart.DrainedQueue
import PwDart.Session
import PwDart.SessionGraph
import PwDart.SessionEffects
import PwDart.SessionSettled
import PwDart.SessionIntegrity
import PwDart.ClientThread
import PwDart.PortPosting
import PwDart.ParamLifetimes
import PwDart.LinkRequests
import PwDart.LinkSettling
import PwDart.LinkPromise
import PwDart.LinkTimely
import PwDart.RegistryBook
import PwDart.ObjectTrace
import PwDart.Teardown
import PwDart.TeardownLedger
import PwDart.TeardownHeld
import PwDart.TeardownProxies
import PwDart.TeardownLaw
import PwDart.TeardownGrowth
import PwDart.ProxyOwners
import PwDart.Dispose
import PwDart.IdProperties
import PwDart.CoreErrors
import PwDart.LinkErrors
import PwDart.ParamUpdates
import PwDart.EventGrammar
import PwDart.SharedBridges
import PwDart.VersionInfo
import PwDart.DictReaders
import PwDart.BroadcastLog
import PwDart.EventStream
import PwDart.ObjectAccount
import PwDart.NativeBoundary
import PwDart.JsonEncode
import PwDart.JsonInts
import PwDart.GraphDump
import PwDart.KeyedCollect
import PwDart.SnapshotGrammar
import PwDart.PlaneBoxes
import PwDart.GraphLayout
import PwDart.PortHits
import PwDart.LinkGesture
import PwDart.LinkIds
import PwDart.JsonNesting
import PwDart.ParamSetGet
import PwDart.ReadableCodes
import PwDart.DotExport
import PwDart.LockedSections
import PwDart.LockedRuns
import PwDart.GuardedMaps
import PwDart.LockedMonitor
import PwDart.LockedSnapshots
import PwDart.LockedParams
