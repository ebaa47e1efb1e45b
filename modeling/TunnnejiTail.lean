import TunnnejiTail.Cli.Passwords
import TunnnejiTail.Cli.RangeOrder
import TunnnejiTail.Cli.Sessions
import TunnnejiTail.Cli.StateFiles
import TunnnejiTail.Controlbase.Integrity
import TunnnejiTail.Disco.RoundTrip
import TunnnejiTail.Eventbus.Close
import TunnnejiTail.Eventbus.Queue
import TunnnejiTail.Ipn.Failover
import TunnnejiTail.Ipn.Lockout
import TunnnejiTail.Ipn.Runs
import TunnnejiTail.Magicsock.CandidateLife
import TunnnejiTail.Magicsock.Classify
import TunnnejiTail.Magicsock.DerpRoute
import TunnnejiTail.Magicsock.Mirror
import TunnnejiTail.Magicsock.PathOrder
import TunnnejiTail.Magicsock.RelayHandshake
import TunnnejiTail.Netmap.DeltaHandled
import TunnnejiTail.Netmap.Deltas
import TunnnejiTail.Netmap.DiscoFilter
import TunnnejiTail.Netmap.Matching
import TunnnejiTail.Netmap.Survivors
import TunnnejiTail.Netstack.Agreement
import TunnnejiTail.Netstack.Datagrams
import TunnnejiTail.Netstack.Stream
import TunnnejiTail.Netstack.Subnets
import TunnnejiTail.Netstack.Whitelist
import TunnnejiTail.Packet.Recover
import TunnnejiTail.Packet.Validity
import TunnnejiTail.Packet.ZeroSum
import TunnnejiTail.PacketFilter.Flows
import TunnnejiTail.PacketFilter.Fresh
import TunnnejiTail.PacketFilter.Meaning
import TunnnejiTail.Tka.Compaction
import TunnnejiTail.Tka.Converge
import TunnnejiTail.Tka.Trust
import TunnnejiTail.Tstun.Stealth
import TunnnejiTail.Wgengine.Reconfig
