import AtemProxy.BigEndian
import AtemProxy.FrameWalk
import AtemProxy.KeyedMaps
import AtemProxy.LastWrites
import AtemProxy.GuardedRuns
import AtemProxy.EventLogs
import AtemProxy.PacketCodec
import AtemProxy.CommandFrames
import AtemProxy.ProxyConfig
import AtemProxy.LockStores
import AtemProxy.LockTraffic
import AtemProxy.TransferLanes
import AtemProxy.LaneOwners
import AtemProxy.CommandPolicy
import AtemProxy.ForwardGrants
import AtemProxy.LateJoinCache
import AtemProxy.RegisterReplay
import AtemProxy.ReliableTransport
import AtemProxy.ReliableWindow
import AtemProxy.SenderLedgers
import AtemProxy.ReliableLink
import AtemProxy.AckRecovery
import AtemProxy.PackedBatches
import AtemProxy.ServerSessions
import AtemProxy.AudioAgreement
import AtemProxy.UpstreamSessions
import AtemProxy.BroadcastQueues
import AtemProxy.UpstreamEvents
import AtemProxy.ProxyTasks
import AtemProxy.SessionOrigins
import AtemProxy.GhostOwners
import AtemProxy.CatchUps
import AtemProxy.LateJoiners
import AtemProxy.InitDumps
import AtemProxy.SessionEpochs
import AtemProxy.StaleDatagrams
import AtemProxy.ProxySystem
import AtemProxy.PayloadBounds
import AtemProxy.CommandEpochs
import AtemProxy.BrokerHistories
import AtemProxy.PayloadFanouts
import AtemProxy.LiveDelivery
import AtemProxy.DuplicateReplies
import AtemProxy.SessionIds
import AtemProxy.SessionFeeds
import AtemProxy.CleanupRaces
import AtemProxy.UpstreamIds
import AtemProxy.NumberedViews
import AtemProxy.ViewOrder
import AtemProxy.PacketStamps
import AtemProxy.FilterPassage
import AtemProxy.AnswerRuns
import AtemProxy.FilterRuns
import AtemProxy.AudioEdges
import AtemProxy.DisconnectCleanup
import AtemProxy.AudioFeeds
import AtemProxy.LaneHistories
import AtemProxy.EndpointRuns
import AtemProxy.Retransmissions
import AtemProxy.CheckedSessions
import AtemProxy.ConfigSources
import AtemProxy.ConfigPrecedence
import AtemProxy.DuplexLinks
import AtemProxy.LinkTraffic
import AtemProxy.AttachedClients
import AtemProxy.LinkProgress
import AtemProxy.CommandStreams
import AtemProxy.CommandProducers
import AtemProxy.SwitcherLinks
import AtemProxy.AttachedSwitcher
import AtemProxy.ProxyCascades
import AtemProxy.UnconfirmedClients
import AtemProxy.SystemQuiescence
import AtemProxy.SpacedTimes
import AtemProxy.ReconnectLoop
import AtemProxy.ReconnectStates
import AtemProxy.OrderedFanouts
import AtemProxy.EndpointBudgets
import AtemProxy.VanishedClients
import AtemProxy.SafeMode
