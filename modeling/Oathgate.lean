import Oathgate.BridgeDaemon
import Oathgate.BridgeDhcp
import Oathgate.BridgeGuests
import Oathgate.BridgeRun
import Oathgate.BridgeTap
import Oathgate.BridgeUdp
import Oathgate.CmdBridge
import Oathgate.CmdDevices
import Oathgate.CmdFork
import Oathgate.CmdHost
import Oathgate.CmdImage
import Oathgate.CmdShard
import Oathgate.CmdShardDirs
import Oathgate.CmdTracked
import Oathgate.DbBase
import Oathgate.DbKernel
import Oathgate.DhcpClients
import Oathgate.DhcpNew
import Oathgate.DhcpPool
import Oathgate.DhcpRange
import Oathgate.DhcpRun
import Oathgate.DhcpServer
import Oathgate.LibBase32
import Oathgate.LibBlock
import Oathgate.LibBuf
import Oathgate.LibFiles
import Oathgate.LibFrame
import Oathgate.LibLease
import Oathgate.LibMailbox
import Oathgate.LibOnes
import Oathgate.LibRadix
import Oathgate.LibRes
import Oathgate.LibRows
import Oathgate.LibRun
import Oathgate.LibSocket
import Oathgate.LibTable
import Oathgate.LibText
import Oathgate.NatTable
import Oathgate.NetArp
import Oathgate.NetArpCodec
import Oathgate.NetChecksum
import Oathgate.NetCidr
import Oathgate.NetFragment
import Oathgate.NetFrame
import Oathgate.NetHeader
import Oathgate.NetIpv4
import Oathgate.NetMac
import Oathgate.NetPacket
import Oathgate.NetPadding
import Oathgate.NetPlacing
import Oathgate.NetRewrite
import Oathgate.NetSubnet
import Oathgate.NetSubnetRange
import Oathgate.NetTypes
import Oathgate.Router
import Oathgate.RouterArp
import Oathgate.RouterReply
import Oathgate.RouterRun
import Oathgate.RouterSafe
import Oathgate.RouterSwitch
import Oathgate.RouterThread
import Oathgate.Switch
import Oathgate.SwitchOrder
import Oathgate.SwitchReach
import Oathgate.SwitchThreads
import Oathgate.TtyAgent
import Oathgate.TtyAttach
import Oathgate.TtyCut
import Oathgate.TtyHypervisor
import Oathgate.TtyOutput
import Oathgate.TtyRunner
import Oathgate.TtyTerminals
import Oathgate.VhostAddress
import Oathgate.VhostBase
import Oathgate.VhostControl
import Oathgate.VhostDevice
import Oathgate.VhostEnable
import Oathgate.VhostEvent
import Oathgate.VhostKick
import Oathgate.VhostPath
import Oathgate.VhostPayload
import Oathgate.VhostQueue
import Oathgate.VhostReply
import Oathgate.VhostRoom
import Oathgate.VhostRx
import Oathgate.VhostStream
import Oathgate.VhostTable
import Oathgate.VhostTx
import Oathgate.VhostTypes
import Oathgate.VhostVring
import Oathgate.VhostWake
import Oathgate.WgFragmentOrder
import Oathgate.WgInbound
import Oathgate.WgLoop
import Oathgate.WgLoopRun
import Oathgate.WgOutbound
import Oathgate.WgReassembly
import Oathgate.WgRoundTrip
