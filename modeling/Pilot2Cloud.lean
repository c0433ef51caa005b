import Pilot2Cloud.Foundation.Words
import Pilot2Cloud.Foundation.Outcome
import Pilot2Cloud.Foundation.Memory
import Pilot2Cloud.Foundation.Segments
import Pilot2Cloud.Foundation.Interleaving
import Pilot2Cloud.Foundation.Collector
import Pilot2Cloud.Foundation.Table
import Pilot2Cloud.Network.Layout
import Pilot2Cloud.Network.Send
import Pilot2Cloud.Network.SendCorrect
import Pilot2Cloud.Network.Reassembly
import Pilot2Cloud.Network.CheckPacket
import Pilot2Cloud.Network.Framing
import Pilot2Cloud.Network.Stream
import Pilot2Cloud.Network.Fragments
import Pilot2Cloud.Network.ReassemblyCorrect
import Pilot2Cloud.Network.ServerSession
import Pilot2Cloud.Network.SingleSlot
import Pilot2Cloud.Network.Lossless
import Pilot2Cloud.Network.ConcurrentSends
import Pilot2Cloud.Network.MemorySafety
import Pilot2Cloud.Network.Datagrams
import Pilot2Cloud.Network.Isolation
import Pilot2Cloud.Requests.Matching
import Pilot2Cloud.Requests.Ownership
import Pilot2Cloud.Requests.LockOrder
import Pilot2Cloud.Flyto.StopMove
import Pilot2Cloud.Flyto.ControlMode
import Pilot2Cloud.Flyto.Progress
import Pilot2Cloud.Flyto.ClearPath
import Pilot2Cloud.Timers.Status
import Pilot2Cloud.Foundation.IndexRing
import Pilot2Cloud.Timers.StaleIds
import Pilot2Cloud.Timers.Countdown
import Pilot2Cloud.Telemetry.LastParsed
import Pilot2Cloud.Payload.ZoomRange
import Pilot2Cloud.SendBuffer.TcpFifo
import Pilot2Cloud.SendBuffer.DatagramFifo
import Pilot2Cloud.SendBuffer.SctpFifo
import Pilot2Cloud.Sockets.Handles
import Pilot2Cloud.InterMsg.Delivery
import Pilot2Cloud.Log.LocalTime
import Pilot2Cloud.Log.UploadTime
import Pilot2Cloud.Platform.CommbufAccounts
import Pilot2Cloud.Platform.Registry
import Pilot2Cloud.Platform.Allocator
import Pilot2Cloud.Log.LogRegain
import Pilot2Cloud.Platform.FileLines
import Pilot2Cloud.Drc.Discovery
import Pilot2Cloud.Drc.PlateDistance
import Pilot2Cloud.Foundation.RunningMinimum
import Pilot2Cloud.Drc.Geofencing
import Pilot2Cloud.Drc.NearestUnit
import Pilot2Cloud.Network.FragmentPartition
import Pilot2Cloud.Foundation.BinaryFloat
import Pilot2Cloud.Flyto.TimedMove
import Pilot2Cloud.Flyto.MoveTiming
import Pilot2Cloud.Hdmap.LoadBounds
import Pilot2Cloud.Hdmap.PolygonBinding
import Pilot2Cloud.Foundation.ClosedChain
import Pilot2Cloud.Hdmap.FlyRestriction
import Pilot2Cloud.Hdmap.HeightLookup
import Pilot2Cloud.Hdmap.PolygonTests
import Pilot2Cloud.Hdmap.BoxTest
import Pilot2Cloud.Hdmap.LineCover
import Pilot2Cloud.Foundation.LinearProbing
import Pilot2Cloud.Platform.ThreadTable
import Pilot2Cloud.SendBuffer.PartialRelease
import Pilot2Cloud.SendBuffer.FullBuffer
import Pilot2Cloud.InterMsg.Scanning
import Pilot2Cloud.Platform.Watchdog
import Pilot2Cloud.Platform.DailyRecord
import Pilot2Cloud.Flyto.YawSpeed
import Pilot2Cloud.Hdmap.BlockReference
import Pilot2Cloud.Platform.FileAppends
import Pilot2Cloud.Platform.FtpReceive
import Pilot2Cloud.Hdmap.HeightTable
import Pilot2Cloud.Hdmap.NearestEdge
import Pilot2Cloud.Hdmap.LaneReference
import Pilot2Cloud.Payload.ZoomStop
import Pilot2Cloud.Mbox.WakeUps
import Pilot2Cloud.Mbox.Payloads
import Pilot2Cloud.Hdmap.RefusedQueries
import Pilot2Cloud.Log.LogOutput
import Pilot2Cloud.Log.LogOrder
import Pilot2Cloud.Log.LogCorrect
import Pilot2Cloud.Mqtt.TopicRouting
import Pilot2Cloud.Mqtt.RoutingCorrect
import Pilot2Cloud.Sockets.TcpSending
import Pilot2Cloud.Sockets.BufferedTransport
import Pilot2Cloud.Drc.ThreadPool
import Pilot2Cloud.Sockets.DatagramSending
import Pilot2Cloud.Drc.IpRanges
