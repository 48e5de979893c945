import XrtcServer.ByteFormat
import XrtcServer.Stun
import XrtcServer.StunGrammar
import XrtcServer.StunRead
import XrtcServer.StunIntegrity
import XrtcServer.StunAuthentication
import XrtcServer.Runs
import XrtcServer.ObjectHeap
import XrtcServer.StunRequest
import XrtcServer.IceConnection
import XrtcServer.IceTransport
import XrtcServer.IceLifetimes
import XrtcServer.RtcStreamManager
import XrtcServer.StreamLifetimes
import XrtcServer.RtcServer
import XrtcServer.StreamForwarding
import XrtcServer.RequestUid
import XrtcServer.Loops
import XrtcServer.QueryBuffer
import XrtcServer.Multimap
import XrtcServer.RoundRobinPacketQueue
import XrtcServer.PacketQueueInvariants
import XrtcServer.SplitAboutEqual
import XrtcServer.AnnexB
import XrtcServer.H264Payload
import XrtcServer.RtpPacketizerH264
import XrtcServer.NaluIndices
import XrtcServer.PacketPlan
import XrtcServer.PacketSending
import XrtcServer.H264RoundTrip
import XrtcServer.H264Packing
import XrtcServer.H264Delivery
import XrtcServer.StructLayout
import XrtcServer.Xhead
import XrtcServer.Reply
import XrtcServer.Nack
import XrtcServer.RtcpReceiver
import XrtcServer.RtcpDispatch
import XrtcServer.StunRoundTrip
import XrtcServer.StunProtection
import XrtcServer.ReplyRouting
import XrtcServer.DtlsSrtpTransport
import XrtcServer.DtlsSrtpKeys
import XrtcServer.IceHistory
import XrtcServer.IceSorting
import XrtcServer.IceFailover
import XrtcServer.IceState
import XrtcServer.DtlsRules
import XrtcServer.TransportController
import XrtcServer.ConnectionState
import XrtcServer.ReportFlags
import XrtcServer.NackRequester
import XrtcServer.NackInvariants
import XrtcServer.PacingController
import XrtcServer.PacingRate
import XrtcServer.PacingThroughput
import XrtcServer.BufferReads
import XrtcServer.RtcpReads
import XrtcServer.CompoundPacket
import XrtcServer.ConnectionTable
import XrtcServer.MessageNotification
import XrtcServer.AsyncUdpSocket
import XrtcServer.StringEncode
import XrtcServer.RemoteSdp
import XrtcServer.ExceptFolds
import XrtcServer.SdpText
import XrtcServer.SdpTracks
import XrtcServer.SdpLines
import XrtcServer.SdpSources
import XrtcServer.SdpMedium
import XrtcServer.SdpTransport
import XrtcServer.SdpContent
import XrtcServer.SdpRecovery
import XrtcServer.SdpMisreading
import XrtcServer.ReplyDelivery
import XrtcServer.ReplyWriting
import XrtcServer.StreamCreation
import XrtcServer.RtpPacket
import XrtcServer.RtpPacketReuse
import XrtcServer.NackSearches
import XrtcServer.ReportWriting
import XrtcServer.NackOrder
import XrtcServer.MapIterators
import XrtcServer.NackBatch
import XrtcServer.PacingBudget
import XrtcServer.LeastServed
import XrtcServer.PacketFairness
import XrtcServer.TaskQueuePacedSender
import XrtcServer.SdpCodecs
import XrtcServer.SdpLineEnds
import XrtcServer.IcePriority
import XrtcServer.IceTimeouts
import XrtcServer.IceEffects
import XrtcServer.IceReceiving
import XrtcServer.PingRotation
import XrtcServer.DtlsRecords
import XrtcServer.Histogram
import XrtcServer.NaluScan
import XrtcServer.SrtcpCapacity
import XrtcServer.LinkedNodes
import XrtcServer.RoundTripTime
import XrtcServer.LockFreeQueue
import XrtcServer.JsonTree
import XrtcServer.SdkJson
import XrtcServer.ReceiveStatistics
import XrtcServer.ReceptionCount
import XrtcServer.ReceptionReports
import XrtcServer.ReportRotation
import XrtcServer.VideoReceiving
import XrtcServer.FeedbackLink
import XrtcServer.LayersRoundTrip
import XrtcServer.NackLink
import XrtcServer.ExtensionElements
import XrtcServer.ReportSchedule
import XrtcServer.RtpBuilding
import XrtcServer.RtxPackets
import XrtcServer.Relays
import XrtcServer.RequestPipeline
import XrtcServer.ConnectionDispatch
