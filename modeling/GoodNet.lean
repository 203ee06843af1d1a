import GoodNet.WireHeader
import GoodNet.NoiseHandshake
import GoodNet.Lib.SlidingWindow
import GoodNet.NonceWindow
import GoodNet.NoiseSession
import GoodNet.ForgedPackets
import GoodNet.ConnectionRecord
import GoodNet.ManagerState
import GoodNet.ManagerTransport
import GoodNet.ManagerDisconnect
import GoodNet.ManagerHandshake
import GoodNet.ManagerLifecycle
import GoodNet.ManagerDispatch
import GoodNet.ManagerRun
import GoodNet.Lib.History
import GoodNet.QuietSteps
import GoodNet.NoiseFacts
import GoodNet.KeptFields
import GoodNet.ManagerSteps
import GoodNet.SessionTrace
import GoodNet.HandshakeTrace
import GoodNet.HandshakeOrder
import GoodNet.HandshakeBuffers
import GoodNet.Confidentiality
import GoodNet.Delivery
import GoodNet.PkIndex
import GoodNet.UriIndex
import GoodNet.Lib.Framing
import GoodNet.FrameStream
import GoodNet.Reassembly
import GoodNet.StreamErrors
import GoodNet.SharedBuffer
import GoodNet.Lib.CrossedDials
import GoodNet.Lib.OfferAnswer
import GoodNet.NoiseExchange
import GoodNet.HonestNode
import GoodNet.TwoNodes
import GoodNet.SimultaneousOpen
import GoodNet.WindowHistory
import GoodNet.RelayDedup
import GoodNet.RelayedWindow
import GoodNet.Lib.NonceLedger
import GoodNet.SendInterleaving
import GoodNet.RekeyedEnds
import GoodNet.SealedPayload
import GoodNet.SignalBus
import GoodNet.PayloadRoundTrip
import GoodNet.Lib.Flood
import GoodNet.RelayNetwork
import GoodNet.RelayFlood
import GoodNet.Lib.Interleaving
import GoodNet.Lib.ReservedQueue
import GoodNet.QueueAccounting
import GoodNet.HandoverOrder
import GoodNet.QueueTable
import GoodNet.FlushBatch
import GoodNet.SendVerdict
import GoodNet.FinalizeRace
import GoodNet.ShutdownBarrier
import GoodNet.GracefulClose
import GoodNet.PendingQueue
import GoodNet.PendingTickets
import GoodNet.PendingDelivery
import GoodNet.TcpRegister
import GoodNet.IceSession
import GoodNet.IceAuthentication
import GoodNet.IceTerminal
import GoodNet.IceMoves
import GoodNet.IcePending
import GoodNet.IceConsent
import GoodNet.IceData
import GoodNet.IceFace
import GoodNet.IceSignal
import GoodNet.IceConnector
import GoodNet.IceAgreement
import GoodNet.SendFootprint
import GoodNet.HeartbeatWatch
import GoodNet.PathFailover
import GoodNet.ManagerMotions
import GoodNet.ConnectionGauge
import GoodNet.PathOrigin
import GoodNet.IdentityRotation
import GoodNet.StoreWire
import GoodNet.StoreBackend
import GoodNet.StoreHandler
import GoodNet.StoreLimits
import GoodNet.StoreSync
import GoodNet.StoreReplication
import GoodNet.StoreLatest
import GoodNet.StoreLifetime
import GoodNet.StoreSubscriptions
import GoodNet.Subscriptions
import GoodNet.PluginManager
import GoodNet.PluginLifecycle
import GoodNet.PluginDispatch
import GoodNet.SchemeTable
import GoodNet.PeerEndpoints
import GoodNet.FlushedMessages
import GoodNet.StalePending
import GoodNet.Lib.Preference
import GoodNet.SchemeAgreement
import GoodNet.HeartbeatPaths
import GoodNet.Lib.RecentKeys
import GoodNet.RelayMemory
import GoodNet.Lib.Nesting
import GoodNet.RelayNesting
import GoodNet.StunLayout
import GoodNet.StunReads
import GoodNet.StunResponse
import GoodNet.PairPriority
import GoodNet.IceSignalReads
import GoodNet.Lib.KeyRange
import GoodNet.StoreExpiry
import GoodNet.StorePrefix
import GoodNet.StunCallbacks
import GoodNet.ConfigJson
import GoodNet.ConfigRoundTrip
import GoodNet.Lib.Base64
import GoodNet.Lib.CommutingWords
import GoodNet.Lib.FirstMatch
import GoodNet.Lib.LengthPrefixed
import GoodNet.Lib.ReflectedCrc
import GoodNet.MachineId
import GoodNet.NoiseLockstep
import GoodNet.SshKey
import GoodNet.SshKeyPem
import GoodNet.StoreEntryReads
import GoodNet.StunCrc
import GoodNet.Lib.HeaderFrames
import GoodNet.TcpRead
import GoodNet.TcpLink
import GoodNet.EventSignal
import GoodNet.CSubscriptions
import GoodNet.TransportIndex
import GoodNet.SessionLife
import GoodNet.PacketLedger
import GoodNet.StoreMirror
import GoodNet.IdentityFiles
import GoodNet.Lib.PlainText
import GoodNet.ConnectorSettings
import GoodNet.PluginIntegrity
import GoodNet.ConnectorHandlers
import GoodNet.Lib.CopyOnWrite
import GoodNet.RcuRegistry
import GoodNet.PathSchemes
import GoodNet.SendRoute
import GoodNet.Conversation
