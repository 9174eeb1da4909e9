import Oathgate.LibLease
import Oathgate.NetSubnet
/-!
# DhcpServer — the DHCP server (`oathgate-bridge`: `net/dhcp.rs`)

Messages are `dhcproto` values; what the server uses of them is the structure `Message`, and the library's decoder,
encoder, default message and hardware address are the parameter `Dhcproto`.  The server keeps a queue of available
addresses and a map of leased ones; `leaseIp` is the only method that changes them.
-/
namespace Oathgate

open Lib

/-! ## Messages -/

inductive MessageType where
  | discover
  | offer
  | request
  | decline
  | ack
  | release
  | other (code : BitVec 8)
  deriving DecidableEq, Repr

inductive DhcpOption where
  | messageType (ty : MessageType)
  | requestedIpAddress (ip : Ipv4Addr)
  | addressLeaseTime (secs : BitVec 32)
  | serverIdentifier (ip : Ipv4Addr)
  | subnetMask (ip : Ipv4Addr)
  | broadcastAddr (ip : Ipv4Addr)
  | router (ips : List Ipv4Addr)
  | domainNameServer (ips : List Ipv4Addr)
  | other (code : BitVec 8) (data : List Byte)
  deriving DecidableEq, Repr

namespace DhcpOption

def code : DhcpOption → BitVec 8
  | messageType _ => 53
  | requestedIpAddress _ => 50
  | addressLeaseTime _ => 51
  | serverIdentifier _ => 54
  | subnetMask _ => 1
  | broadcastAddr _ => 28
  | router _ => 3
  | domainNameServer _ => 6
  | other code _ => code

def dataLength : DhcpOption → Nat
  | messageType _ => 1
  | requestedIpAddress _ => 4
  | addressLeaseTime _ => 4
  | serverIdentifier _ => 4
  | subnetMask _ => 4
  | broadcastAddr _ => 4
  | router ips => 4 * ips.length
  | domainNameServer ips => 4 * ips.length
  | other _ data => data.length

end DhcpOption

inductive Opcode where
  | bootRequest
  | bootReply
  deriving DecidableEq, Repr

/-- `v4::Message`, the fields the server reads or writes.  The hardware address field has sixteen bytes, of which
`hlen` count. -/
structure Message where
  opcode : Opcode
  htype : BitVec 8
  hlen : BitVec 8
  xid : BitVec 32
  flags : BitVec 16
  ciaddr : Ipv4Addr
  yiaddr : Ipv4Addr
  siaddr : Ipv4Addr
  giaddr : Ipv4Addr
  hwaddr : List Byte
  length_hwaddr : hwaddr.length = 16
  opts : List DhcpOption
  deriving DecidableEq, Repr

namespace Message

def setChaddr (m : Message) (addr : List Byte) : Message :=
  { m with
    hlen := BitVec.ofNat 8 addr.length
    hwaddr := (addr ++ List.replicate 16 0).take 16
    length_hwaddr := by simp }

def getOpt (m : Message) (code : BitVec 8) : Option DhcpOption := m.opts.find? (fun o => o.code == code)

def insertOpt (m : Message) (opt : DhcpOption) : Message :=
  { m with opts := m.opts.filter (fun o => o.code != opt.code) ++ [opt] }

def msgType (m : Message) : Option MessageType :=
  match m.getOpt 53 with
  | some (.messageType ty) => some ty
  | _ => none

end Message

/-- What the server calls in `dhcproto`: `Message::decode`, `Message::encode`, each with the text of its error,
`Message::default`, and `Message::chaddr`, which cuts the hardware address out of its field and may panic. -/
structure Dhcproto where
  decode : List Byte → Except String Message
  encode : Message → Except String (List Byte)
  default : Message
  chaddr : Message → Res Empty (List Byte)

/-! ## The server -/

structure DhcpConfig where
  start : Ipv4Addr
  end_ : Ipv4Addr

structure DhcpServer where
  network : Ipv4Network
  leaseTime : BitVec 32
  available : List Ipv4Addr
  leased : Table Ipv4Addr MacAddress

namespace DhcpServer

variable {ε : Type}

/-- The loop of `new` that fills the queue, `none` when `fuel` rounds do not end it. -/
def poolLoop : Nat → Ipv4Network → Ipv4Addr → List Ipv4Addr → Option (Res ε (List Ipv4Addr))
  | 0, _, _, _ => none
  | fuel + 1, nextAvail, end_, available =>
    let available := available ++ [nextAvail.ip]
    match (nextAvail.next : Res ε (Option Ipv4Network)) with
    | .ok none => some (.ok available)
    | .ok (some nxt) => if nxt.ip > end_ then some (.ok available) else poolLoop fuel nxt end_ available
    | .err e => some (.err e)
    | .panic p => some (.panic p)

/-- `DhcpServer::new`.  The check that `start` and `end` lie in the network has an empty body there. -/
def new (fuel : Nat) (network : Ipv4Network) (cfg : DhcpConfig) : Option (Res ε DhcpServer) :=
  match (IpNet.new cfg.start network.subnetMaskBits : Res ε Ipv4Network) with
  | .ok nextAvail =>
    (poolLoop fuel nextAvail cfg.end_ []).map (fun r => do
      let available ← r
      return { network, leaseTime := 86400, available, leased := Table.empty })
  | .err e => some (.err e)
  | .panic p => some (.panic p)

def popFront (s : DhcpServer) : Option Ipv4Addr × DhcpServer :=
  match s.available with
  | [] => (none, s)
  | ip :: rest => (some ip, { s with available := rest })

def getRequestedIp (msg : Message) : Option Ipv4Addr :=
  match msg.getOpt 50 with
  | some (.requestedIpAddress ip) => some ip
  | _ => none

/-- The choice of an address in `lease_ip`, and the queue it leaves. -/
def chooseIp (s : DhcpServer) (clientMac : MacAddress) (requested : Option Ipv4Addr) : Option Ipv4Addr × DhcpServer :=
  match requested with
  | some ria =>
    match s.leased.get ria with
    | none => (some ria, { s with available := s.available.filter (fun ip => decide (ip ≠ ria)) })
    | some mac =>
      if mac = clientMac then (some ria, { s with available := s.available.filter (fun ip => decide (ip ≠ ria)) })
      else s.popFront
  | none => s.popFront

/-- The client in the first line of `lease_ip`. -/
def clientMac (api : Dhcproto) (msg : Message) : Res ε MacAddress := do
  let addr ← (api.chaddr msg).mapErr Empty.elim
  (MacAddress.parse addr).unwrap

def leaseIp (api : Dhcproto) (s : DhcpServer) (msg : Message) : Res ε (Option Ipv4Network) × DhcpServer :=
  Res.andThen (clientMac api msg, s) fun clientMac s =>
    match s.chooseIp clientMac (getRequestedIp msg) with
    | (some ip, s) =>
      let s := { s with leased := s.leased.insert ip clientMac }
      (do return some (← IpNet.new ip s.network.subnetMaskBits), s)
    | (none, s) => (.ok none, s)

/-- The message `build_message` fills in for the client with the hardware address. -/
def replyMessage (api : Dhcproto) (s : DhcpServer) (msg : Message) (ip : Ipv4Network) (ty : MessageType)
    (addr : List Byte) : Message :=
  let rmsg := { api.default with
    flags := msg.flags, opcode := .bootReply, htype := msg.htype, xid := msg.xid, yiaddr := ip.ip }
  let rmsg := if ty = .ack then { rmsg with ciaddr := msg.ciaddr } else rmsg
  let rmsg := { rmsg with siaddr := s.network.ip, giaddr := msg.giaddr }
  let rmsg := rmsg.setChaddr addr
  [DhcpOption.messageType ty, .addressLeaseTime s.leaseTime, .serverIdentifier s.network.ip,
    .subnetMask s.network.mask, .broadcastAddr s.network.broadcast, .router [s.network.ip],
    .domainNameServer [0x01010101]].foldl Message.insertOpt rmsg

def buildMessage (api : Dhcproto) (s : DhcpServer) (msg : Message) (ip : Ipv4Network) (ty : MessageType) :
    Res ε Message := do
  let addr ← (api.chaddr msg).mapErr Empty.elim
  return s.replyMessage api msg ip ty addr

/-- `handle_discover` and `handle_request`: lease an address and answer with a message of type `ty`. -/
def handleLease (api : Dhcproto) (ty : MessageType) (s : DhcpServer) (msg : Message) :
    Res ProtocolError Message × DhcpServer :=
  Res.andThen (s.leaseIp api msg) fun ip s =>
    match ip with
    | some ip => (s.buildMessage api msg ip ty, s)
    | none => (.err (.other "address space exhausted"), s)

def handleDiscover (api : Dhcproto) : DhcpServer → Message → Res ProtocolError Message × DhcpServer :=
  handleLease api .offer

def handleRequest (api : Dhcproto) : DhcpServer → Message → Res ProtocolError Message × DhcpServer :=
  handleLease api .ack

/-- The match of `handle_port` on a decoded message: the reply to encode, if any. -/
def serve (api : Dhcproto) (s : DhcpServer) (msg : Message) : Res ProtocolError (Option Message) × DhcpServer :=
  match msg.msgType with
  | none => (.err (.other "dhcp missing msg type"), s)
  | some .discover => Res.andThen (s.handleDiscover api msg) fun rmsg s => (.ok (some rmsg), s)
  | some .request => Res.andThen (s.handleRequest api msg) fun rmsg s => (.ok (some rmsg), s)
  | some _ => (.ok none, s)

def handlePort (api : Dhcproto) (s : DhcpServer) (data buf : List Byte) :
    Res ProtocolError Nat × DhcpServer × List Byte :=
  match api.decode data with
  | .error e => (.err (.other e), s, buf)
  | .ok msg =>
    match s.serve api msg with
    | (.err e, s) => (.err e, s, buf)
    | (.panic p, s) => (.panic p, s, buf)
    | (.ok rmsg, s) =>
      match rmsg.elim (.ok []) api.encode with
      | .error e => (.err (.other e), s, buf)
      | .ok vbuf =>
        match copyAt buf 0 vbuf.length vbuf with
        | .ok buf => (.ok vbuf.length, s, buf)
        | .err e => (.err e, s, buf)
        | .panic p => (.panic p, s, buf)

/-! ## Specifications -/

/-- A message that names a client: its hardware address can be read and has a MAC's six bytes. -/
def From (api : Dhcproto) (msg : Message) (mac : MacAddress) : Prop :=
  ∃ addr, api.chaddr msg = .ok addr ∧ MacAddress.parse addr = .ok mac

section clients

variable {api : Dhcproto} {msg : Message} {mac mac' : MacAddress}

theorem clientMac_eq_ok : (clientMac api msg : Res ε MacAddress) = .ok mac ↔ From api msg mac := by
  unfold clientMac From
  simp only [Res.bind_eq_ok, Res.mapErr_eq_ok, Res.unwrap_eq_ok]

theorem clientMac_ne_err (e : ε) : (clientMac api msg : Res ε MacAddress) ≠ .err e := by
  unfold clientMac
  refine Res.bind_ne_err ?_ ?_ e
  · intro e he
    cases hc : api.chaddr msg with
    | err e => exact e.elim
    | ok addr => rw [hc] at he; cases he
    | panic p => rw [hc] at he; cases he
  · intro addr e he
    cases hp : MacAddress.parse addr <;> rw [hp] at he <;> cases he

theorem From.unique (h : From api msg mac) (h' : From api msg mac') : mac' = mac :=
  Res.ok.inj ((clientMac_eq_ok (ε := Empty)).2 h' |>.symm.trans (clientMac_eq_ok.2 h))

theorem from_iff_length : (∃ mac, From api msg mac) ↔ ∃ addr, api.chaddr msg = .ok addr ∧ 6 ≤ addr.length := by
  constructor
  · rintro ⟨mac, addr, haddr, hparse⟩
    refine ⟨addr, haddr, ?_⟩
    by_contra hshort
    rw [MacAddress.parse_short addr (by omega)] at hparse
    cases hparse
  · rintro ⟨addr, haddr, hlen⟩
    exact ⟨_, addr, haddr, MacAddress.parse_of_length _ hlen⟩

end clients

/-- The lease the server makes for a client: the address chosen, and the server that records it. -/
def assign (s : DhcpServer) (mac : MacAddress) (requested : Option Ipv4Addr) : Option Ipv4Addr × DhcpServer :=
  match s.chooseIp mac requested with
  | (some ip, s) => (some ip, { s with leased := s.leased.insert ip mac })
  | (none, s) => (none, s)

theorem network_assign (s : DhcpServer) (mac : MacAddress) (requested : Option Ipv4Addr) :
    (s.assign mac requested).2.network = s.network := by
  unfold assign chooseIp popFront
  split <;> rename_i h <;> (repeat' split at h) <;> cases h <;> rfl

/-- **`lease_ip` on a message that names a client** returns what `assign` chose, with the server's prefix. -/
theorem leaseIp_eq {api : Dhcproto} (s : DhcpServer) (msg : Message) (mac : MacAddress) (h : From api msg mac) :
    (s.leaseIp api msg : Res ε (Option Ipv4Network) × DhcpServer) =
      (.ok ((s.assign mac (getRequestedIp msg)).1.map fun ip => ⟨ip, s.network.mask, s.network.prefix_mask⟩),
        (s.assign mac (getRequestedIp msg)).2) := by
  have hnet := network_assign s mac (getRequestedIp msg)
  unfold leaseIp
  rw [clientMac_eq_ok.2 h]
  simp only [Res.andThen_ok]
  unfold assign at hnet ⊢
  cases hc : s.chooseIp mac (getRequestedIp msg) with
  | mk ip s' =>
    cases ip with
    | none => rfl
    | some ip =>
      simp only [hc] at hnet
      simp only [hnet, IpNet.new_subnetMaskBits (by omega : 32 < 256), Res.bind_ok, Option.map_some, Res.pure_eq]

/-- **On a message that names no client it panics**, and leaves the server as it was. -/
theorem leaseIp_panic {api : Dhcproto} (s : DhcpServer) (msg : Message) (h : ¬ ∃ mac, From api msg mac) :
    ∃ p, (s.leaseIp api msg : Res ε (Option Ipv4Network) × DhcpServer) = (.panic p, s) := by
  have hclient : ∃ p, (clientMac api msg : Res ε MacAddress) = .panic p := by
    cases hc : (clientMac api msg : Res ε MacAddress) with
    | ok mac => exact absurd ⟨mac, clientMac_eq_ok.1 hc⟩ h
    | err e => exact absurd hc (clientMac_ne_err e)
    | panic p => exact ⟨p, rfl⟩
  obtain ⟨p, hp⟩ := hclient
  refine ⟨p, ?_⟩
  unfold leaseIp
  rw [hp, Res.andThen_panic]

end DhcpServer

/-! ## A small network -/

def homeNet : Ipv4Network := ⟨0x0A000001, clearLow 32 8, 8, by omega, rfl⟩

/-- Stands for `dhcproto` where messages are given decoded: its default message and the hardware address of `hlen` of
the sixteen bytes. -/
def decodedOnly : Dhcproto where
  decode _ := .error "end of input reached"
  encode _ := .error "buffer too short"
  default :=
    { opcode := .bootRequest, htype := 1, hlen := 0, xid := 0, flags := 0, ciaddr := 0, yiaddr := 0, siaddr := 0,
      giaddr := 0, hwaddr := List.replicate 16 0, length_hwaddr := rfl, opts := [] }
  chaddr m := if m.hlen.toNat ≤ 16 then .ok (m.hwaddr.take m.hlen.toNat) else .panic .outOfRange

/-- A message of the client with MAC 52:54:00:00:00:`b`. -/
def clientMsg (ty : MessageType) (b : Byte) (requested : Option Ipv4Addr) : Message where
  opcode := .bootRequest
  htype := 1
  hlen := 6
  xid := 1
  flags := 0
  ciaddr := 0
  yiaddr := 0
  siaddr := 0
  giaddr := 0
  hwaddr := [0x52, 0x54, 0, 0, 0, b] ++ List.replicate 10 0
  length_hwaddr := rfl
  opts := .messageType ty :: (requested.map DhcpOption.requestedIpAddress).toList

def homeServer (available : List Ipv4Addr) (leased : Table Ipv4Addr MacAddress) : DhcpServer :=
  ⟨homeNet, 86400, available, leased⟩

end Oathgate
