import BoostSamples.Transition.System
import BoostSamples.Registry.PairMap
import BoostSamples.OpenNat.ReceiveLoop
import BoostSamples.OpenNat.ClientSend
import BoostSamples.OpenNat.Server
import BoostSamples.OpenNat.ServerQueue
import BoostSamples.OpenNat.StunRegistry
import BoostSamples.OpenNat.FailureIsolation
import BoostSamples.OpenNat.ProxyRegistry
import BoostSamples.OpenNat.SocketWrites
import BoostSamples.OpenNat.Presence
import BoostSamples.OpenNat.RelayBuffer
import BoostSamples.OpenNat.PeerCommand
import BoostSamples.OpenNat.BanCleanup
import BoostSamples.Scheduling.CircularWait
import BoostSamples.OpenNat.HeartbeatChain
import BoostSamples.OpenNat.ServerRemoval
import BoostSamples.OpenNat.ClientRemoval
import BoostSamples.OpenNat.ConnectRetry
import BoostSamples.ProxyPrinter.Forwarding
import BoostSamples.ProxyPrinter.Client
import BoostSamples.OpenNat.DeferredConnect
import BoostSamples.OpenProxy.RejectedLogin
import BoostSamples.OpenProxy.Handshake
import BoostSamples.OpenProxy.Delivery
import BoostSamples.OpenProxy.MissingPeer
import BoostSamples.Numeral.Digits
import BoostSamples.OpenNat.Header
import BoostSamples.Credentials.Impersonation
import BoostSamples.UuidSha1.Generate
import BoostSamples.IcmpScanner.Scan
import BoostSamples.OpenProxy.ClientSend
import BoostSamples.OpenProxy.ControlFrames
import BoostSamples.OpenNat.ConnectionStatus
import BoostSamples.OpenNat.UpnpClient
import BoostSamples.OpenNat.UpnpCleanup
import BoostSamples.PropertyTree.Downloader
import BoostSamples.IcmpScanner.Header
import BoostSamples.IcmpScanner.Receive
import BoostSamples.IcmpScanner.SessionTimer
import BoostSamples.MultiThreading.Condition
import BoostSamples.HttpHeaders.Headers
import BoostSamples.OpenNat.ProxyStream
import BoostSamples.OpenProxy.SessionLife
import BoostSamples.Interprocess.IPCClient
import BoostSamples.OpenNat.Deadline
import BoostSamples.AgentUuid.Identity
import BoostSamples.NetBios.Scanner
import BoostSamples.ProxyPrinter.Relay
import BoostSamples.ProxyPrinter.Replies
import BoostSamples.ProxyPrinter.Responses
import BoostSamples.ProxyPrinter.Tunnel
import BoostSamples.OpenNat.QueueLog
