import Sail.Lib.DeadlineQueue
import Sail.Lib.KeyedMap
import Sail.Lib.MachineWord
import Sail.Lib.SerialNumber
import Sail.Netstack.TimerWheel
import Sail.Netstack.TimerWheelInvariant
import Sail.Netstack.TimerWheelRefinement
import Sail.Netstack.TimerWheelRuns
import Sail.Netstack.Tcp.CongestionControl
import Sail.Netstack.Tcp.Tcb
import Sail.Netstack.Tcp.TcbEffects
import Sail.Netstack.Tcp.TcbInvariant
import Sail.Netstack.Tcp.TcbSteps
import Sail.Netstack.Tcp.TcbRuns
import Sail.Lib.Bytes
import Sail.Lib.OnesComplement
import Sail.Lib.OrderedMap
import Sail.Netstack.Ip.Wire
import Sail.Netstack.Ip.Reassembly
import Sail.Netstack.Ip.ReassemblySafety
import Sail.Netstack.Ip.ReassemblyTiling
import Sail.Netstack.Ip.ReassemblyRuns
import Sail.Netstack.Ip.Checksum
import Sail.Netstack.Ip.Fragmentation
import Sail.Netstack.Ip.ReassemblyCompletion
import Sail.Netstack.Ip.FragmentationFacts
import Sail.Netstack.Ip.FragmentationIpv4
import Sail.Netstack.Ip.ExtensionChain
import Sail.Netstack.Ip.FragmentationIpv6
import Sail.Netstack.Ip.FragmentationRoundTrip
import Sail.Netstack.TimerWheelOccupancy
import Sail.Netstack.TimerWheelDeadline
import Sail.Netstack.TimerWheelSleep
import Sail.Lib.SharedCounters
import Sail.Lib.Tally
import Sail.Netstack.Buffer.Budget
import Sail.Netstack.Buffer.BudgetConservation
import Sail.Netstack.Engine.Shard
import Sail.Netstack.Engine.ShardFragments
import Sail.Netstack.Engine.Scheduler
import Sail.Lib.Lanes
import Sail.Netstack.Engine.SchedulerLanes
import Sail.Netstack.Engine.SchedulerRuns
import Sail.Netstack.Engine.SchedulerFairness
import Sail.Lib.Framing
import Sail.Protocol.Mptp.Frame
import Sail.Protocol.Mptp.Stream
import Sail.Protocol.Mptp.Endpoint
import Sail.Protocol.Mptp.Sending
import Sail.Protocol.Mptp.Numbers
import Sail.Protocol.Mptp.Receiving
import Sail.Protocol.Mptp.Integrity
import Sail.Lib.BitRing
import Sail.Protocol.Wireguard.Replay
import Sail.Protocol.Wireguard.Keypair
import Sail.Protocol.Wireguard.AllowedIps
import Sail.Protocol.Wireguard.Cookie
import Sail.Protocol.Wireguard.Peer
import Sail.Protocol.Wireguard.Device
import Sail.Protocol.Wireguard.SessionSteps
import Sail.Protocol.Wireguard.SessionSafety
import Sail.Protocol.Wireguard.DeviceSafety
import Sail.Protocol.Wireguard.Marks
import Sail.Protocol.Wireguard.Noninterference
import Sail.Protocol.Wireguard.Unauthenticated
import Sail.App.Dns.Rules
import Sail.App.Dns.Reading
import Sail.App.Dns.Walk
import Sail.App.Dns.ParallelReading
import Sail.App.Dns.Races
import Sail.App.Dns.FakeIp
import Sail.Lib.PairedMaps
import Sail.App.Dns.FakeIpMaps
import Sail.App.Dns.FakeIpFiles
import Sail.App.Dns.FakeIpRuns
import Sail.Lib.Interleaving
import Sail.User.State
import Sail.User.Closing
import Sail.User.Quota
import Sail.Lib.Freshness
import Sail.Protocol.Vmess.ReplayFilter
import Sail.Protocol.Vmess.ReplaySafety
import Sail.Session.SocksAddr
import Sail.Protocol.Shadowsocks.Sip022.Primitives
import Sail.Protocol.Shadowsocks.Sip022.SaltPool
import Sail.Protocol.Shadowsocks.Sip022.Request
import Sail.Protocol.Shadowsocks.Sip022.SaltSafety
import Sail.Protocol.Shadowsocks.Sip022.ReplayWindow
import Sail.Protocol.Shadowsocks.Sip022.Udp
import Sail.Protocol.Shadowsocks.Sip022.UdpSafety
import Sail.App.NatManager
import Sail.App.NatSuccession
import Sail.Net.CopyBuffer
import Sail.Net.Relay
import Sail.Net.RelayIntegrity
import Sail.Net.RelayDeadlines
import Sail.Net.RelayGivesUp
import Sail.Netstack.Tcp.TcbTimers
import Sail.Netstack.Tcp.TcbWindow
import Sail.Netstack.Tcp.SackRecovery
import Sail.App.Router.Matcher
import Sail.App.Router.Relevance
import Sail.App.Router.Walk
import Sail.App.Router.Recheck
import Sail.Protocol.Anytls.SynackWatch
import Sail.App.NatAssociations
import Sail.User.LimitRegistry
