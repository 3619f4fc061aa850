import Orcashi.Lib.CMemory
import Orcashi.Lib.Cursor
import Orcashi.Lib.History
import Orcashi.Lib.OrderedMap
import Orcashi.Lib.Refinement
import Orcashi.Lib.RingBuffer
import Orcashi.Lib.Stdio
import Orcashi.Lib.Sscanf
import Orcashi.Lib.Strcat
import Orcashi.Lib.Strtok
import Orcashi.PeerId
import Orcashi.StateManager
import Orcashi.StateFile
import Orcashi.EventLoop
import Orcashi.EventQueue
import Orcashi.Env
import Orcashi.P2P.Message
import Orcashi.P2P.Peer
import Orcashi.P2P.Manager
import Orcashi.Daemon
import Orcashi.GhostDelivery
import Orcashi.PeerTable
import Orcashi.RecycledSlots
import Orcashi.GhostQueues
import Orcashi.Persistence
import Orcashi.PersistentIds
import Orcashi.GhostCapacity
import Orcashi.MixedId
import Orcashi.DaemonCommand
import Orcashi.UserText
import Orcashi.GhostCounter
import Orcashi.Attribution
import Orcashi.PeerRecord
import Orcashi.SetterRace
import Orcashi.ReceiveGate
import Orcashi.DataPath
import Orcashi.ChatLog
import Orcashi.FailedHandshake
import Orcashi.StoreEffects
import Orcashi.EventAgreement
import Orcashi.Presence
import Orcashi.Friendship
import Orcashi.FriendRequest
import Orcashi.SessionKey
import Orcashi.HandshakeExchange
import Orcashi.SentTypes
import Orcashi.GhostHistory
import Orcashi.ReceiveBounds
import Orcashi.SharedSocket
import Orcashi.DeadPeers
import Orcashi.SaveInterrupted
import Orcashi.ChatRoundTrip
import Orcashi.StateFileRace
import Orcashi.Disconnection
import Orcashi.PeerPointers
import Orcashi.LockDiscipline
import Orcashi.Lib.StringCopy
import Orcashi.CommandBuffers
import Orcashi.PeerListing
import Orcashi.ConnectMixedId
import Orcashi.Lib.Trim
import Orcashi.PublicIp
import Orcashi.Lib.TextLines
import Orcashi.Upnp.Client
import Orcashi.Upnp.HeaderOrder
import Orcashi.CommandEffects
import Orcashi.TruthfulReplies
import Orcashi.MixedIdKind
import Orcashi.Relay.Manager
import Orcashi.Relay.SessionTable
import Orcashi.Relay.Addressing
import Orcashi.Relay.Data
import Orcashi.Relay.Secrecy
import Orcashi.Relay.Completion
import Orcashi.Turn.Manager
import Orcashi.Turn.Message
import Orcashi.Turn.Response
import Orcashi.Turn.Allocation
import Orcashi.Turn.XorAddress
import Orcashi.SimOpen.Session
import Orcashi.SimOpen.Link
import Orcashi.SimOpen.Side
import Orcashi.SimOpen.Agreement
import Orcashi.SimOpen.Framing
import Orcashi.Lib.Strstr
import Orcashi.Punch.Manager
import Orcashi.Punch.Peer
import Orcashi.Punch.Prediction
import Orcashi.Lib.BubbleSort
import Orcashi.ParallelRunner
import Orcashi.Punch.StrategyOrder
import Orcashi.NatClassifier
import Orcashi.NatStun
import Orcashi.Parallel.Executors
import Orcashi.Parallel.Polling
import Orcashi.Parallel.Registry
import Orcashi.Lib.Descriptors
import Orcashi.Parallel.Descriptors
import Orcashi.Identity.Passcode
import Orcashi.Identity.Record
import Orcashi.Lib.FlatJson
import Orcashi.Identity.Store
import Orcashi.Identity.Reread
import Orcashi.Identity.RoundTrip
import Orcashi.Identity.Authentic
import Orcashi.Identity.SignedText
import Orcashi.Identity.PasscodeKey
import Orcashi.Identity.ChangePasscode
import Orcashi.Identity.Registration
import Orcashi.Ecdh.Session
import Orcashi.Ecdh.Agreement
import Orcashi.Ecdh.Consistency
import Orcashi.Lib.Stores
import Orcashi.Ecdh.Keys
import Orcashi.Lib.Base64
import Orcashi.HexCodec
import Orcashi.TextEncryption
import Orcashi.TextRoundTrip
import Orcashi.TextRefusals
import Orcashi.AesGcmMessage
import Orcashi.KeyContext
import Orcashi.Lib.Counter
import Orcashi.NonceCounter
import Orcashi.LoadSafety
import Orcashi.Lib.Recency
import Orcashi.Dht.Blacklist
import Orcashi.Dht.Node
import Orcashi.Dht.SecureAnnounce
import Orcashi.Dht.Lookup
import Orcashi.Turn.Attributes
import Orcashi.Relay.Bounds
import Orcashi.SimOpen.Closed
import Orcashi.Lib.XorMetric
import Orcashi.Dht.Id
import Orcashi.Dht.Message
import Orcashi.Lib.KBuckets
import Orcashi.Dht.RoutingTable
import Orcashi.Dht.Buckets
import Orcashi.Dht.NewNode
import Orcashi.Lib.KClosest
import Orcashi.Dht.Search
import Orcashi.Dht.Storage
import Orcashi.Dht.State
import Orcashi.Dht.Periodic
import Orcashi.Dht.Encoding
import Orcashi.Dht.Invariant
import Orcashi.Dht.Service
import Orcashi.Dht.ClosestNodes
import Orcashi.Dht.Parsing
import Orcashi.Dht.Replies
import Orcashi.Dht.Starting
import Orcashi.Dht.Runs
import Orcashi.Dht.Joining
import Orcashi.Lib.TokenBucket
import Orcashi.Dht.Maintenance
import Orcashi.Dht.RateLimit
import Orcashi.Dht.Tokens
import Orcashi.Dht.Nearest
