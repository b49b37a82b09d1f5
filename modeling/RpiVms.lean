import RpiVms.Library.Search
import RpiVms.Library.Replace
import RpiVms.Library.Segments
import RpiVms.Library.Framing
import RpiVms.Library.BigEndian
import RpiVms.Library.Runs
import RpiVms.Library.Sublists
import RpiVms.Library.Reassembly
import RpiVms.Library.Scan
import RpiVms.Library.Gate
import RpiVms.Library.Views
import RpiVms.Library.Positional
import RpiVms.Library.Calendar
import RpiVms.Library.Attribution
import RpiVms.Library.BitGroups
import RpiVms.Rtsp.Text
import RpiVms.Rtsp.Extract
import RpiVms.Rtsp.Numerals
import RpiVms.Rtsp.Headers
import RpiVms.Rtsp.Units
import RpiVms.Rtsp.Resync
import RpiVms.Rtsp.Progress
import RpiVms.Rtsp.Retention
import RpiVms.Rtsp.Blocks
import RpiVms.Rtsp.Redaction
import RpiVms.Rtsp.Secrecy
import RpiVms.Live.Control
import RpiVms.Live.Response
import RpiVms.Live.Requests
import RpiVms.Live.Routing
import RpiVms.Live.ControlRuns
import RpiVms.Live.Packets
import RpiVms.Live.Depacketize
import RpiVms.Live.AccessUnits
import RpiVms.Live.Splitting
import RpiVms.Live.Media
import RpiVms.Live.RtpStream
import RpiVms.Live.Timestamps
import RpiVms.Live.Untimed
import RpiVms.Live.Output
import RpiVms.Live.Session
import RpiVms.Live.Reader
import RpiVms.Live.Queue
import RpiVms.Live.QueueRuns
import RpiVms.Live.Parameters
import RpiVms.Live.Base64
import RpiVms.Live.Server
import RpiVms.Live.Moves
import RpiVms.Live.History
import RpiVms.Live.Changes
import RpiVms.Live.Delivery
import RpiVms.Live.Closing
import RpiVms.Live.Gaps
import RpiVms.Live.ParameterHistory
import RpiVms.Live.Isolation
import RpiVms.Live.Booking
import RpiVms.Live.Statistics
import RpiVms.Index.ChannelMap
import RpiVms.Index.MapText
import RpiVms.Index.ChannelTable
import RpiVms.Index.Registration
import RpiVms.Proxy.Rewriter
import RpiVms.Proxy.UrlMapping
import RpiVms.Proxy.Framing
import RpiVms.Proxy.Digest
import RpiVms.Proxy.NonceCount
import RpiVms.Proxy.Session
import RpiVms.Proxy.Retries
import RpiVms.Proxy.Relay
import RpiVms.Proxy.Upstream
import RpiVms.Media.Userinfo
import RpiVms.Media.Ingest
import RpiVms.Media.SegmentNames
import RpiVms.Index.SegmentTable
import RpiVms.Media.Manager
import RpiVms.Media.Moves
import RpiVms.Media.Recovery
import RpiVms.Media.Counters
import RpiVms.Storage.Check
import RpiVms.Storage.Program
import RpiVms.Storage.Construction
import RpiVms.Client.Program
import RpiVms.Client.Reading
import RpiVms.Client.Exchanges
import RpiVms.Client.Answers
import RpiVms.Client.Dialogue
import RpiVms.Client.Stages
import RpiVms.Client.Safety
import RpiVms.Library.Descent
import RpiVms.Client.Progress
import RpiVms.Library.Ownership
import RpiVms.Live.Lifecycle
import RpiVms.Live.Resources
import RpiVms.Live.Descriptors
import RpiVms.Live.Shutdown
import RpiVms.Live.Playback
import RpiVms.Live.Streams
import RpiVms.Library.Options
import RpiVms.Main.Arguments
import RpiVms.Main.Reading
import RpiVms.Main.Startup
