import DeepSeer.WhileLoop
import DeepSeer.ByteMemory
import DeepSeer.ByteText
import DeepSeer.CountedLoops
import DeepSeer.MagikaModel
import DeepSeer.MagikaBounds
import DeepSeer.MagikaFiles
import DeepSeer.MagikaTruncation
import DeepSeer.MagikaWriter
import DeepSeer.SortedMap
import DeepSeer.HttpWire
import DeepSeer.HttpFraming
import DeepSeer.Runs
import DeepSeer.FallibleRuns
import DeepSeer.Buffer
import DeepSeer.BufferString
import DeepSeer.BufferRuns
import DeepSeer.HeaderMap
import DeepSeer.Message
import DeepSeer.Codec
import DeepSeer.CodecHeads
import DeepSeer.HeadEvents
import DeepSeer.CodecMessages
import DeepSeer.WrittenHeads
import DeepSeer.HeadDecoding
import DeepSeer.EventLoop
import DeepSeer.Connection
import DeepSeer.ConnectionWrites
import DeepSeer.TlsConnection
import DeepSeer.LinkFrames
import DeepSeer.Session
import DeepSeer.SessionEvents
import DeepSeer.SessionCloses
import DeepSeer.SessionActs
import DeepSeer.SessionFrames
import DeepSeer.SessionHistory
import DeepSeer.SessionPointers
import DeepSeer.ClientDelivery
import DeepSeer.SessionStreams
import DeepSeer.Ledger
import DeepSeer.UpstreamBooks
import DeepSeer.ClientBooks
import DeepSeer.SessionBooks
import DeepSeer.ExchangeLog
import DeepSeer.ExchangeStages
import DeepSeer.Exchanges
import DeepSeer.AnswerStreams
import DeepSeer.ResponseDelivery
import DeepSeer.Dials
import DeepSeer.Interceptions
import DeepSeer.ConnectOutcomes
import DeepSeer.Tunnels
import DeepSeer.RequestLine
import DeepSeer.HeaderValues
import DeepSeer.ForwardedBodies
import DeepSeer.RelayedAnswers
import DeepSeer.HeadAnswers
import DeepSeer.PortConversion
import DeepSeer.Schedules
import DeepSeer.Engine
import DeepSeer.EngineRestarts
import DeepSeer.EngineQueue
import DeepSeer.EngineClients
import DeepSeer.EngineDestruction
import DeepSeer.LoopThreads
import DeepSeer.WakeUps
import DeepSeer.EventDispatch
import DeepSeer.ConnectionEvents
import DeepSeer.StoppedReads
import DeepSeer.LruLists
import DeepSeer.CertCache
import DeepSeer.RefCounts
import DeepSeer.CtxReferences
import DeepSeer.CtxUpgrades
import DeepSeer.FailedExpected
import DeepSeer.TlsSteps
import DeepSeer.TlsHandshakes
import DeepSeer.TlsCloses
import DeepSeer.TlsWrites
import DeepSeer.TlsWaits
import DeepSeer.Overhearing
import DeepSeer.Inspections
import DeepSeer.InspectedAnswers
import DeepSeer.InspectedTargets
import DeepSeer.InspectedPrefixes
import DeepSeer.DrainedInput
import DeepSeer.LoopOwners
import DeepSeer.Ownership
import DeepSeer.SettledSessions
import DeepSeer.SettledConnects
import DeepSeer.ClosedSessions
import DeepSeer.Addresses
import DeepSeer.Authorities
import DeepSeer.MagikaTokens
import DeepSeer.FileSink
import DeepSeer.SegmentedLogs
import DeepSeer.RotatedLogs
import DeepSeer.Listener
import DeepSeer.ListenerWatches
import DeepSeer.AcceptLoops
import DeepSeer.Servers
import DeepSeer.CachedContexts
import DeepSeer.Histories
import DeepSeer.LoopTimers
import DeepSeer.HeaderRuns
import DeepSeer.ConnectionSteps
import DeepSeer.TerminalCallbacks
import DeepSeer.LiveSlices
import DeepSeer.FilledArrays
import DeepSeer.MagikaNetwork
import DeepSeer.MagikaForward
import DeepSeer.MagikaExports
import DeepSeer.UnorderedValues
import DeepSeer.MagikaClasses
import DeepSeer.SharedLocks
import DeepSeer.Logger
import DeepSeer.LoggedLines
import DeepSeer.LoggerProgress
import DeepSeer.UniqueOwners
import DeepSeer.Sockets
import DeepSeer.SocketOwners
import DeepSeer.FairRuns
import DeepSeer.ConnectionProgress
import DeepSeer.ServerShutdown
import DeepSeer.CodecObjects
import DeepSeer.MovedCodecs
import DeepSeer.SinkLines
import DeepSeer.LogFiles
import DeepSeer.PairedRuns
import DeepSeer.SharedLoops
import DeepSeer.SharedSessions
import DeepSeer.SharedServers
import DeepSeer.InspectionPipeline
import DeepSeer.CarriedStreams
