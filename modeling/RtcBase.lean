import RtcBase.SslStream.VerifyCallbacks
import RtcBase.SslStream.Opening
import RtcBase.SslStream.HandshakeFailures
import RtcBase.SslStream.Readiness
import RtcBase.SslStream.DigestOrder
import RtcBase.Sigslot.Symmetry
import RtcBase.Sigslot.Delivery
import RtcBase.Sigslot.Reentrancy
import RtcBase.ByteBuffer.RoundTrip
import RtcBase.ByteBuffer.Varint
import RtcBase.ByteBuffer.Failures
import RtcBase.Networks.Registry
import RtcBase.Networks.ChangeDetection
import RtcBase.Networks.OrderIndependence
import RtcBase.Networks.Ranking
import RtcBase.Networks.SocketText
import RtcBase.EventLoop.IoEvents
import RtcBase.UdpSocket.Draining
import RtcBase.Base64.Whitespace
import RtcBase.Base64.Unpadded
import RtcBase.Rates.Window
import RtcBase.Rates.ReadOnly
import RtcBase.Digests.Reuse
import RtcBase.Logging.FastPath
import RtcBase.Buffers.Queue
import RtcBase.Filters.MovingMedian
import RtcBase.ByteBuffer.Refinement
import RtcBase.StringEncode.HexOnly
import RtcBase.Networks.Grouping
import RtcBase.Networks.SocketHistory
import RtcBase.Networks.BestAddress
import RtcBase.Networks.MaskBits
import RtcBase.TimeUtils.Unwrapping
import RtcBase.TimeUtils.Asn1Time
import RtcBase.Checksums.Crc32
import RtcBase.Random.Bounded
import RtcBase.Random.Outputs
import RtcBase.StringEncode.Splitting
import RtcBase.Numerics.SafeConversions
import RtcBase.Numerics.SafeMinMax
import RtcBase.Numerics.StringToNumber
import RtcBase.Buffers.Representation
import RtcBase.Threads.EventCalls
import RtcBase.Threads.GlobalLock
import RtcBase.Threads.RefCounting
import RtcBase.Threads.PlatformThread
import RtcBase.Allocation.Accounting
import RtcBase.Networks.Subscriptions
import RtcBase.UdpSocket.Datagrams
import RtcBase.UdpSocket.Descriptors
import RtcBase.Random.Texts
import RtcBase.Optionals.Lifetimes
import RtcBase.Threads.CriticalSection
import RtcBase.Buffers.SharedQueue
import RtcBase.Certificates.Expiry
