import Oathgate.DhcpRun
import Oathgate.NetArp
import Oathgate.NetPacket
import Oathgate.Switch
/-!
# Router — the layer 3 router and its protocol handlers (`oathgate-bridge`: `net/router.rs`, `net/router/handler/`)

The router serves all devices on one thread: a panic in any handler ends it.  A `dyn` trait is the inductive type of
its implementations.  `id` is what the random generator gives for a reply's header; a logged error of the switch or the
WAN is dropped, as in the source.
-/
namespace Oathgate

open Lib

/-! ## Handlers -/

/-- `dyn PortHandler` -/
inductive PortHandler where
  | dhcp (server : DhcpServer)

namespace PortHandler

def port : PortHandler → BitVec 16
  | .dhcp _ => 67

def handlePort (api : Dhcproto) : PortHandler → List Byte → List Byte →
    Res ProtocolError Nat × PortHandler × List Byte
  | .dhcp server, data, buf =>
    let (len, server, buf) := server.handlePort api data buf
    (len, .dhcp server, buf)

end PortHandler

namespace IcmpHandler

def handleProtocol (pkt : Ipv4Packet) (buf : List Byte) : Res ProtocolError (Nat × List Byte) := do
  let payload ← pkt.payload
  if payload.length < 4 then .err (.notEnoughData payload.length 4)
  else
    let ty ← index payload 0
    if ty = 8 then
      let len := payload.length
      let buf ← copyAt buf 4 len (← sliceFrom payload 4)
      let csum ← checksum buf
      let buf ← copyAt buf 2 4 (toBe16 csum)
      return (len, buf)
    else return (0, buf)

end IcmpHandler

structure UdpHandler where
  handlers : Table (BitVec 16) PortHandler

namespace UdpHandler

def registerPortHandler (h : UdpHandler) (handler : PortHandler) : UdpHandler :=
  { h with handlers := h.handlers.insert handler.port handler }

/-- The UDP header in front of what the port handler wrote. -/
def writeHeader (buf : List Byte) (srcPort dstPort : BitVec 16) (len : Nat) : Res ProtocolError (Nat × List Byte) := do
  let buf ← copyAt buf 0 2 (toBe16 dstPort)
  let buf ← copyAt buf 2 4 (toBe16 srcPort)
  -- the last two bytes of a 64-bit length
  let buf ← copyAt buf 4 6 (toBe16 (BitVec.ofNat 16 len))
  let buf ← copyAt buf 6 8 [0x00, 0x00]
  return (len, buf)

def handleProtocol (api : Dhcproto) (h : UdpHandler) (pkt : Ipv4Packet) (buf : List Byte) :
    Res ProtocolError (Nat × List Byte) × UdpHandler :=
  Res.andThen (pkt.payload, h) fun payload h =>
    if payload.length < 8 then (.err (.notEnoughData payload.length 8), h)
    else
      Res.andThen (do return (← be16In payload 0 2, ← be16In payload 2 4), h) fun (srcPort, dstPort) h =>
        match h.handlers.get dstPort with
        | some handler =>
          Res.andThen (do return (← sliceFrom payload 8, ← sliceFrom buf 8), h) fun (data, tail) h =>
            let (len, handler, tail) := handler.handlePort api data tail
            let h := { h with handlers := h.handlers.insert dstPort handler }
            Res.andThen (len, h) fun len h => (writeHeader (buf.take 8 ++ tail) srcPort dstPort (len + 8), h)
        | none => (.ok (0, buf), h)

end UdpHandler

/-- `dyn ProtocolHandler` -/
inductive ProtocolHandler where
  | icmp
  | udp (h : UdpHandler)

namespace ProtocolHandler

def protocol : ProtocolHandler → BitVec 8
  | .icmp => netProtocolIcmp
  | .udp _ => netProtocolUdp

def handleProtocol (api : Dhcproto) : ProtocolHandler → Ipv4Packet → List Byte →
    Res ProtocolError (Nat × List Byte) × ProtocolHandler
  | .icmp, pkt, buf => (IcmpHandler.handleProtocol pkt buf, .icmp)
  | .udp h, pkt, buf =>
    let (r, h) := h.handleProtocol api pkt buf
    (r, .udp h)

end ProtocolHandler

/-! ## The router -/

inductive RouterAction where
  | toLan (ethertype : EtherType) (dst : IpAddr) (pkt : List Byte)
  | toWan (pkt : Ipv4Packet)
  | drop (pkt : List Byte)

/-- The WAN handle, when there is one, is the list of packets written to it. -/
structure Router where
  arp : Table IpAddr MacAddress
  switch : VirtioSwitch
  port : Nat
  wan : Option (List Ipv4Packet)
  mac : MacAddress
  network : Ipv4Network
  ip4Handlers : Table (BitVec 8) ProtocolHandler

namespace Router

def isLocal (r : Router) : IpAddr → Bool
  | .v4 ip => r.network.ip == ip
  | .v6 _ => false

def isGlobalBroadcast : IpAddr → Bool
  | .v4 ip => isBroadcastV4 ip
  | .v6 _ => false

def handleArp (r : Router) (pkt : List Byte) : Res ProtocolError RouterAction × Router :=
  Res.andThen (ArpPacket.parse pkt, r) fun arp r =>
    let r := { r with arp := r.arp.insert arp.spa arp.sha }
    if r.isLocal arp.tpa || isGlobalBroadcast arp.tpa then
      let rpkt := List.replicate arp.size 0
      let arp := arp.toReply r.mac
      Res.andThen (arp.asBytes rpkt, r) fun rpkt r => (.ok (.toLan .arp arp.tpa rpkt), r)
    else (.ok (.drop pkt), r)

def forwardPacket (r : Router) (pkt : Ipv4Packet) : Router := { r with wan := r.wan.map fun sent => sent ++ [pkt] }

/-- The reply to a handled packet: what the handler wrote, behind a new IPv4 header. -/
def buildReply (id : BitVec 16) (pkt : Ipv4Packet) (rpkt : List Byte) : Res ProtocolError RouterAction := do
  let hdr ← pkt.reply id (← sliceFrom rpkt 20)
  let head ← hdr.asBytes (← slice rpkt 0 20)
  return .toLan .ipv4 (.v4 hdr.dst) (head ++ rpkt.drop 20)

/-- `Router::handle_local_ipv4`: an error of the handler is logged and the packet dropped. -/
def handleLocalIpv4 (api : Dhcproto) (id : BitVec 16) (r : Router) (pkt : Ipv4Packet) :
    Res ProtocolError RouterAction × Router :=
  let rpkt := List.replicate 1560 0
  match r.ip4Handlers.get pkt.protocol with
  | some handler =>
    Res.andThen (sliceFrom rpkt 20, r) fun buf r =>
      let (res, handler) := handler.handleProtocol api pkt buf
      let r := { r with ip4Handlers := r.ip4Handlers.insert pkt.protocol handler }
      match res with
      | .ok (0, _) => (.ok (.drop []), r)
      | .ok (sz, buf) => (buildReply id pkt ((rpkt.take 20 ++ buf).take (20 + sz)), r)
      | .err _ => (.ok (.drop []), r)
      | .panic p => (.panic p, r)
  | none => (.ok (.drop []), r)

def routeIp4 (api : Dhcproto) (id : BitVec 16) (r : Router) (pkt : Ipv4Packet) :
    Res ProtocolError RouterAction × Router :=
  if r.network.contains pkt.dest || isBroadcastV4 pkt.dest then
    if r.isLocal (.v4 pkt.dest) || isBroadcastV4 pkt.dest then r.handleLocalIpv4 api id pkt
    else (.ok (.toLan .ipv4 (.v4 pkt.dest) pkt.data), r)
  else (.ok (.toWan pkt), r)

def routeIp6 (r : Router) (pkt : List Byte) : Res ProtocolError RouterAction × Router := (.ok (.drop pkt), r)

/-- `Router::write_to_switch`, with the slice its trace shows. -/
def writeToSwitch (r : Router) (dst : MacAddress) (ethertype : EtherType) (pkt : List Byte) :
    Res ProtocolError Unit × Router :=
  let data := dst.asBytes ++ r.mac.asBytes ++ toBe16 ethertype.asU16 ++ pkt
  Res.andThen (slice data 14 34, r) fun _ r =>
    let (res, switch) := r.switch.process r.port data
    let r := { r with switch }
    match res with
    | .panic p => (.panic p, r)
    | _ => (.ok (), r)

def handleAction (r : Router) (action : RouterAction) (dst : Option MacAddress) : Res ProtocolError Unit × Router :=
  match action with
  | .toLan ethertype dstIp pkt =>
    match dst.or (r.arp.get dstIp) with
    | some dst => r.writeToSwitch dst ethertype pkt
    | none => (.ok (), r)
  | .toWan pkt => (.ok (), r.forwardPacket pkt)
  | .drop _ => (.ok (), r)

/-- The action `Router::route` takes for a frame. -/
def actionFor (api : Dhcproto) (id : BitVec 16) (r : Router) (pkt : EthernetPacket) :
    Res ProtocolError RouterAction × Router :=
  match pkt.frame.ethertype with
  | .arp => r.handleArp pkt.payload
  | .ipv4 => Res.andThen (Ipv4Packet.parse pkt.payload, r) fun pkt r => r.routeIp4 api id pkt
  | .ipv6 => r.routeIp6 pkt.payload

def route (api : Dhcproto) (id : BitVec 16) (r : Router) (pkt : EthernetPacket) : Res ProtocolError Unit × Router :=
  Res.andThen (r.actionFor api id pkt) fun action r => r.handleAction action (some pkt.frame.src)

/-- A packet from the WAN, in `Router::run`. -/
def routeWan (api : Dhcproto) (id : BitVec 16) (r : Router) (pkt : Ipv4Packet) : Res ProtocolError Unit × Router :=
  Res.andThen (r.routeIp4 api id pkt) fun action r => r.handleAction action none

end Router
end Oathgate
