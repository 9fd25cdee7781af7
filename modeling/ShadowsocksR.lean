import ShadowsocksR.AuthData.Data
import ShadowsocksR.AsyncDns.Complete
import ShadowsocksR.Lib.Framing
import ShadowsocksR.AuthChain.Padding
import ShadowsocksR.Encrypt
import ShadowsocksR.AuthChain.Wrap
import ShadowsocksR.Termination
import ShadowsocksR.LruCache.Timed
import ShadowsocksR.ObfsTls.Replay
import ShadowsocksR.ObfsTls.Segments
import ShadowsocksR.Lib.PaddedFrame
import ShadowsocksR.AuthSha1V4.RoundTrip
import ShadowsocksR.AuthAes128.RoundTrip
import ShadowsocksR.AuthData.Window
import ShadowsocksR.Attribution
import ShadowsocksR.RefCounts
import ShadowsocksR.TcpRelay.SpeedLimit
import ShadowsocksR.UdpRelay
import ShadowsocksR.Billing
import ShadowsocksR.Traffic
import ShadowsocksR.AuthUdp.RoundTrip
import ShadowsocksR.TcpRelay.Delivery
import ShadowsocksR.TcpRelay.Loop
import ShadowsocksR.Encryptor.RoundTrip
import ShadowsocksR.Inet.RoundTrip
import ShadowsocksR.Inet.Network
import ShadowsocksR.Inet.Headers
import ShadowsocksR.Inet.PackAddr
import ShadowsocksR.TcpRelay.UdpFrames
import ShadowsocksR.DbRetry
import ShadowsocksR.AuthChain.ChainF
import ShadowsocksR.UdpSessions.Runs
import ShadowsocksR.MuJson
import ShadowsocksR.TcpRelay.Forbidden
import ShadowsocksR.TcpRelay.SpeedBound
import ShadowsocksR.TcpRelay.ReadSize
import ShadowsocksR.EventLoop
import ShadowsocksR.Closing.Loop
import ShadowsocksR.Shell
import ShadowsocksR.AsyncDns.Message
import ShadowsocksR.AsyncDns.Hostname
import ShadowsocksR.ServerPool.Stops
import ShadowsocksR.HttpSimple.RoundTrip
import ShadowsocksR.DbServers.Reconciled
import ShadowsocksR.VerifyDeflate.RoundTrip
import ShadowsocksR.Crypto.Sodium
import ShadowsocksR.Crypto.Table
import ShadowsocksR.MuJson.NoConflict
import ShadowsocksR.Encryptor.EvpBytesToKey
import ShadowsocksR.AuthChain.Xorshift
import ShadowsocksR.HttpSimple.Response
import ShadowsocksR.CompatibleObfs
import ShadowsocksR.AuthAkarin.RoundTrip
import ShadowsocksR.AuthChain.Stack
import ShadowsocksR.ObfsTls.Layer
import ShadowsocksR.TcpRelay.Layer
import ShadowsocksR.UdpSessions.Datagrams
import ShadowsocksR.LruCache.Linked
