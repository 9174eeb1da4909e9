import Oathgate.NetArpCodec
import Oathgate.Router
/-!
# RouterSafe — which frames the router survives

Every byte of a frame is a guest's choice, and each layer trusts the length checks of the one below.  Each handler has
its own condition under which it returns (`Fits` for ARP, `Safe` for the handlers), and a frame is safe exactly when
the layers it reaches are (`route_returns_iff`).
-/
namespace Oathgate

open Lib

/-! ## DHCP -/

/-- **What the server relies on in `dhcproto`**: the default message has no options, and a message whose options have
at most 255 bytes of data each is encoded as the fixed 240 bytes, a code, a length and the data for each option, and an
end byte, or padded to the 300 bytes of a minimal packet.  The hardware address is `hlen` bytes of a field of sixteen,
and a panic when the field has not that many. -/
structure Dhcproto.Lawful (api : Dhcproto) : Prop where
  default_opts : api.default.opts = []
  encode_length : ∀ m bytes, (∀ o ∈ m.opts, o.dataLength ≤ 255) → api.encode m = .ok bytes →
    bytes.length ≤ max 300 (241 + (m.opts.map fun o => 2 + o.dataLength).sum)
  chaddr_of_le : ∀ m, m.hlen.toNat ≤ 16 → api.chaddr m = .ok (m.hwaddr.take m.hlen.toNat)
  chaddr_of_lt : ∀ m, 16 < m.hlen.toNat → ∃ p, api.chaddr m = .panic p

theorem decodedOnly_lawful : decodedOnly.Lawful where
  default_opts := rfl
  encode_length := nofun
  chaddr_of_le _ h := if_pos h
  chaddr_of_lt _ h := ⟨_, if_neg (by omega)⟩

namespace DhcpServer

/-- **The messages that name a client** have between six and sixteen bytes of hardware address. -/
theorem from_iff_hlen {api : Dhcproto} (hapi : api.Lawful) (msg : Message) :
    (∃ mac, From api msg mac) ↔ 6 ≤ msg.hlen.toNat ∧ msg.hlen.toNat ≤ 16 := by
  rw [from_iff_length]
  by_cases hle : msg.hlen.toNat ≤ 16
  · have hlen : (msg.hwaddr.take msg.hlen.toNat).length = msg.hlen.toNat := by
      rw [List.length_take, msg.length_hwaddr, Nat.min_eq_left hle]
    rw [hapi.chaddr_of_le msg hle]
    constructor
    · rintro ⟨addr, haddr, hlong⟩
      cases haddr
      exact ⟨hlen ▸ hlong, hle⟩
    · rintro ⟨hlong, -⟩
      exact ⟨_, rfl, hlen.symm ▸ hlong⟩
  · obtain ⟨p, hp⟩ := hapi.chaddr_of_lt msg (by omega)
    rw [hp]
    refine iff_of_false ?_ fun h => hle h.2
    rintro ⟨addr, haddr, -⟩
    cases haddr

theorem opts_replyMessage {api : Dhcproto} (hapi : api.Lawful) (s : DhcpServer) (msg : Message) (ip : Ipv4Network)
    (ty : MessageType) (addr : List Byte) :
    (s.replyMessage api msg ip ty addr).opts =
      [.messageType ty, .addressLeaseTime s.leaseTime, .serverIdentifier s.network.ip, .subnetMask s.network.mask,
        .broadcastAddr s.network.broadcast, .router [s.network.ip], .domainNameServer [0x01010101]] := by
  have hd := hapi.default_opts
  unfold replyMessage Message.setChaddr
  by_cases hty : ty = .ack <;> simp [Message.insertOpt, DhcpOption.code, hty, hd]

theorem encode_replyMessage {api : Dhcproto} (hapi : api.Lawful) (s : DhcpServer) (msg : Message) (ip : Ipv4Network)
    (ty : MessageType) (addr : List Byte) {bytes : List Byte}
    (h : api.encode (s.replyMessage api msg ip ty addr) = .ok bytes) : bytes.length ≤ 300 := by
  have hlen := hapi.encode_length _ bytes (by simp [opts_replyMessage hapi, DhcpOption.dataLength]) h
  simpa [opts_replyMessage hapi, DhcpOption.dataLength] using hlen

theorem returns_serve (api : Dhcproto) (s : DhcpServer) (msg : Message) :
    (s.serve api msg).1.Returns ↔ ((answerType msg).isSome = true → ∃ mac, From api msg mac) := by
  cases hty : answerType msg with
  | none => simp [(serve_other api s msg hty).2.1]
  | some ty =>
    by_cases hclient : ∃ mac, From api msg mac
    · obtain ⟨mac, addr, haddr, hparse⟩ := hclient
      rw [serve_answer api s msg mac ty hty haddr hparse]
      refine iff_of_true ?_ fun _ => ⟨mac, addr, haddr, hparse⟩
      cases (s.assign mac (getRequestedIp msg)).1 <;> simp
    · obtain ⟨p, hp⟩ := serve_panic api s msg ty hty hclient
      rw [hp]
      exact iff_of_false (Res.not_returns_panic p) fun h => hclient (h rfl)

theorem encode_serve {api : Dhcproto} (hapi : api.Lawful) {s s' : DhcpServer} {msg reply : Message}
    (h : s.serve api msg = (.ok (some reply), s')) {bytes : List Byte} (he : api.encode reply = .ok bytes) :
    bytes.length ≤ 300 := by
  have hret : (s.serve api msg).1.Returns := by rw [h]; simp
  cases hty : answerType msg with
  | none => exact absurd (by rw [h]) ((serve_other api s msg hty).2.2 reply)
  | some ty =>
    obtain ⟨mac, addr, haddr, hparse⟩ := (returns_serve api s msg).1 hret (by rw [hty]; rfl)
    rw [serve_answer api s msg mac ty hty haddr hparse] at h
    cases hip : (s.assign mac (getRequestedIp msg)).1 with
    | none => simp [hip] at h
    | some ip =>
      simp only [hip, Prod.mk.injEq, Res.ok.injEq, Option.some.injEq] at h
      rw [← h.1] at he
      exact encode_replyMessage hapi _ _ _ _ _ he

/-- The buffer keeps its length. -/
theorem length_handlePort (api : Dhcproto) (s : DhcpServer) (data buf : List Byte) :
    (s.handlePort api data buf).2.2.length = buf.length := by
  unfold handlePort
  cases api.decode data with
  | error e => rfl
  | ok msg =>
    dsimp only
    cases hs : s.serve api msg with | mk r s'
    cases r with
    | err e => rfl
    | panic p => rfl
    | ok rmsg =>
      dsimp only
      cases rmsg.elim (.ok []) api.encode with
      | error e => rfl
      | ok bytes =>
        dsimp only
        cases hcopy : (copyAt buf 0 bytes.length bytes : Res ProtocolError _) with
        | err e => rfl
        | panic p => rfl
        | ok buf' => exact (copyAt_frame hcopy).1

/-- **`handle_port` returns unless the message it decodes panics**, and then it has written inside the buffer. -/
theorem returns_handlePort {api : Dhcproto} (hapi : api.Lawful) (s : DhcpServer) (data buf : List Byte)
    (hbuf : 300 ≤ buf.length) :
    ((s.handlePort api data buf).1.Returns ↔
      ∀ msg, api.decode data = .ok msg → (answerType msg).isSome = true →
        6 ≤ msg.hlen.toNat ∧ msg.hlen.toNat ≤ 16) ∧
    ∀ n, (s.handlePort api data buf).1 = .ok n → n ≤ buf.length := by
  unfold handlePort
  cases hd : api.decode data with
  | error e => simp
  | ok msg =>
    have hret := returns_serve api s msg
    simp only [Except.ok.injEq, forall_eq']
    rw [← from_iff_hlen hapi, ← hret]
    cases hs : s.serve api msg with
    | mk r s' =>
      cases r with
      | err e => simp
      | panic p => simp
      | ok rmsg =>
        -- the answer, if any, fits the buffer
        have hfit : ∀ bytes, rmsg.elim (.ok []) api.encode = .ok bytes → bytes.length ≤ 300 := by
          intro bytes hb
          cases rmsg with
          | none => cases hb; simp
          | some reply => exact encode_serve hapi hs hb
        simp only
        cases he : rmsg.elim (.ok []) api.encode with
        | error e => simp
        | ok bytes =>
          have hlen := hfit bytes he
          obtain ⟨buf', hcopy, -⟩ := copyAt_ok (ε := ProtocolError) buf 0 bytes.length bytes (by omega) (by omega) rfl
          simp only [hcopy]
          refine ⟨by simp, ?_⟩
          intro n hn
          cases hn
          omega

end DhcpServer

/-! ## Handlers -/

/-- A reply the handler wrote into a buffer: it did not grow, and holds what was written. -/
def Written (buf : List Byte) (r : Res ProtocolError (Nat × List Byte)) : Prop :=
  ∀ sz buf', r = .ok (sz, buf') → sz ≤ buf.length ∧ buf'.length = buf.length

namespace PortHandler

/-- **The data a port handler survives.** -/
def Safe (api : Dhcproto) : PortHandler → List Byte → Prop
  | .dhcp _, data =>
    ∀ msg, api.decode data = .ok msg → (DhcpServer.answerType msg).isSome = true →
      6 ≤ msg.hlen.toNat ∧ msg.hlen.toNat ≤ 16

theorem length_handlePort (api : Dhcproto) (h : PortHandler) (data buf : List Byte) :
    (h.handlePort api data buf).2.2.length = buf.length := by
  cases h with
  | dhcp server => exact DhcpServer.length_handlePort api server data buf

theorem returns_handlePort {api : Dhcproto} (hapi : api.Lawful) (h : PortHandler) (data buf : List Byte)
    (hbuf : 300 ≤ buf.length) :
    ((h.handlePort api data buf).1.Returns ↔ h.Safe api data) ∧
      ∀ n, (h.handlePort api data buf).1 = .ok n → n ≤ buf.length := by
  cases h with
  | dhcp server => exact DhcpServer.returns_handlePort hapi server data buf hbuf

end PortHandler

namespace ProtocolHandler

/-- **The transport messages a protocol handler survives**: an echo request must fit the reply buffer, and a UDP
message to a handled port must be one its handler survives. -/
def Safe (api : Dhcproto) : ProtocolHandler → List Byte → Prop
  | .icmp, msg => 4 ≤ msg.length → byteAt msg 0 = 8 → msg.length ≤ 1540
  | .udp h, msg => 8 ≤ msg.length → ∀ handler, h.handlers.get (be16At msg 2) = some handler →
      handler.Safe api (msg.drop 8)

end ProtocolHandler

theorem IcmpHandler.returns_handleProtocol (pkt : Ipv4Packet) (buf : List Byte)
    (hpkt : pkt.headerLength ≤ pkt.data.length) (hbuf : buf.length = 1540) :
    ((handleProtocol pkt buf).Returns ↔
      (4 ≤ pkt.transport.length → byteAt pkt.transport 0 = 8 → pkt.transport.length ≤ 1540)) ∧
    Written buf (handleProtocol pkt buf) := by
  unfold handleProtocol
  rw [Ipv4Packet.payload_eq pkt hpkt, Res.bind_ok]
  generalize pkt.transport = msg
  by_cases h4 : msg.length < 4
  · rw [if_pos h4]
    exact ⟨by simp; omega, by simp [Written]⟩
  rw [if_neg h4, index_eq msg 0 (by omega), Res.bind_ok]
  by_cases hty : byteAt msg 0 = 8
  · rw [if_pos hty, sliceFrom_eq msg 4 (by omega)]
    simp only [Res.bind_ok, hty]
    by_cases hlen : msg.length ≤ 1540
    · -- the request is copied behind the header, and the checksum over the whole buffer
      obtain ⟨b₁, h₁, l₁⟩ := copyAt_ok (ε := ProtocolError) buf 4 msg.length (msg.drop 4) (by omega) (by omega)
        List.length_drop
      obtain ⟨c, hc⟩ := checksum_ok (ε := ProtocolError) b₁ (by omega)
      obtain ⟨b₂, h₂, l₂⟩ := copyAt_ok (ε := ProtocolError) b₁ 2 4 (toBe16 c) (by omega) (by omega) rfl
      simp only [h₁, Res.bind_ok, hc, h₂, Res.pure_eq]
      refine ⟨by simp [hlen], ?_⟩
      intro sz buf' h
      cases h
      omega
    · unfold copyAt
      rw [if_neg (by omega)]
      exact ⟨by simp; omega, by simp [Written]⟩
  · rw [if_neg hty]
    refine ⟨iff_of_true (Res.returns_ok _) fun _ h => absurd h hty, ?_⟩
    intro sz buf' h
    cases h
    exact ⟨Nat.zero_le _, rfl⟩

/-- **The UDP header is written over the first eight bytes.** -/
theorem UdpHandler.writeHeader_eq {head : List Byte} (hhead : head.length = 8) (tail : List Byte)
    (srcPort dstPort : BitVec 16) (len : Nat) :
    writeHeader (head ++ tail) srcPort dstPort len =
      .ok (len, toBe16 dstPort ++ toBe16 srcPort ++ toBe16 (BitVec.ofNat 16 len) ++ [0, 0] ++ tail) := by
  -- each field is written behind the ones before it
  have hnext : ∀ (front src : List Byte) (k : Nat), front.length = k → src.length = 2 → k ≤ 6 →
      (copyAt (front ++ (head ++ tail).drop k) k (k + 2) src : Res ProtocolError _) =
        .ok (front ++ src ++ (head ++ tail).drop (k + 2)) := by
    intro front src k hfront hsrc hk
    have hroom : src.length ≤ ((head ++ tail).drop k).length := by
      rw [List.length_drop, List.length_append]
      omega
    rw [copyAt_append front _ src k (k + 2) hfront (by rw [hsrc]) hroom, List.drop_drop, hsrc]
  have h₁ : (copyAt (head ++ tail) 0 2 (toBe16 dstPort) : Res ProtocolError _) =
      .ok (toBe16 dstPort ++ (head ++ tail).drop 2) := hnext [] _ 0 rfl rfl (by omega)
  have h₂ := hnext (toBe16 dstPort) (toBe16 srcPort) 2 rfl rfl (by omega)
  have h₃ := hnext (toBe16 dstPort ++ toBe16 srcPort) (toBe16 (BitVec.ofNat 16 len)) 4 rfl rfl (by omega)
  have h₄ := hnext (toBe16 dstPort ++ toBe16 srcPort ++ toBe16 (BitVec.ofNat 16 len)) [0, 0] 6 rfl rfl (by omega)
  rw [List.drop_left' hhead] at h₄
  unfold writeHeader
  rw [h₁, Res.bind_ok, h₂, Res.bind_ok, h₃, Res.bind_ok, h₄, Res.bind_ok]
  rfl

theorem UdpHandler.returns_handleProtocol {api : Dhcproto} (hapi : api.Lawful) (h : UdpHandler) (pkt : Ipv4Packet)
    (buf : List Byte) (hpkt : pkt.headerLength ≤ pkt.data.length) (hbuf : buf.length = 1540) :
    ((h.handleProtocol api pkt buf).1.Returns ↔
      (8 ≤ pkt.transport.length → ∀ handler, h.handlers.get (be16At pkt.transport 2) = some handler →
        handler.Safe api (pkt.transport.drop 8))) ∧
    Written buf (h.handleProtocol api pkt buf).1 := by
  unfold handleProtocol
  rw [Ipv4Packet.payload_eq pkt hpkt, Res.andThen_ok]
  generalize pkt.transport = msg
  by_cases h8 : msg.length < 8
  · rw [if_pos h8]
    exact ⟨by simp; omega, by simp [Written]⟩
  rw [if_neg h8, be16In_eq msg 0 (by omega), be16In_eq msg 2 (by omega)]
  simp only [Res.bind_ok, Res.pure_eq, Res.andThen_ok]
  cases hh : h.handlers.get (be16At msg 2) with
  | none =>
    refine ⟨by simp, ?_⟩
    intro sz buf' hr
    cases hr
    exact ⟨Nat.zero_le _, rfl⟩
  | some handler =>
    simp only [sliceFrom_eq msg 8 (by omega), sliceFrom_eq buf 8 (by omega), Res.bind_ok, Res.andThen_ok,
      Option.some.injEq, forall_eq', Nat.not_lt.1 h8, forall_const]
    have htail : (buf.drop 8).length = 1532 := by rw [List.length_drop]; omega
    obtain ⟨hret, hwrite⟩ := handler.returns_handlePort hapi (msg.drop 8) (buf.drop 8) (by omega)
    rw [← hret]
    cases hr : (handler.handlePort api (msg.drop 8) (buf.drop 8)).1 with
    | err e => simp [Written]
    | panic p => simp [Written]
    | ok n =>
      have hn := hwrite n hr
      have hl := handler.length_handlePort api (msg.drop 8) (buf.drop 8)
      have hhead : (buf.take 8).length = 8 := by rw [List.length_take]; omega
      simp only [Res.andThen_ok, writeHeader_eq hhead]
      refine ⟨by simp, ?_⟩
      intro sz b hb
      cases hb
      simp only [List.length_append, toBe16, List.length_cons, List.length_nil, hl]
      omega

/-- **A protocol handler returns exactly on the messages it survives**, and writes inside its buffer. -/
theorem ProtocolHandler.returns_handleProtocol {api : Dhcproto} (hapi : api.Lawful) (h : ProtocolHandler)
    (pkt : Ipv4Packet) (buf : List Byte) (hpkt : pkt.headerLength ≤ pkt.data.length) (hbuf : buf.length = 1540) :
    ((h.handleProtocol api pkt buf).1.Returns ↔ h.Safe api pkt.transport) ∧
      Written buf (h.handleProtocol api pkt buf).1 := by
  cases h with
  | icmp => exact IcmpHandler.returns_handleProtocol pkt buf hpkt hbuf
  | udp h => exact UdpHandler.returns_handleProtocol hapi h pkt buf hpkt hbuf

/-! ## The router -/

theorem VirtioSwitch.returns_process (s : VirtioSwitch) (port : Nat) (pkt : List Byte) :
    (s.process port pkt).1.Returns := by
  rcases accepted_or_rejected pkt with ⟨frame, payload, rfl⟩ | h
  · rw [process_ok]
    simp
  · obtain ⟨e, he⟩ := process_rejected s port pkt h
    rw [he]
    simp

namespace Router

variable {api : Dhcproto} (id : BitVec 16) (r : Router)

/-- **The frames the router survives**: an ARP packet whose announced lengths fit; an IPv4 packet that is empty, or
shorter than the header it announces, or at least twenty bytes long and, when it is for the router and its protocol is
handled, a message the handler survives. -/
def FrameSafe (api : Dhcproto) (r : Router) (pkt : EthernetPacket) : Prop :=
  match pkt.frame.ethertype with
  | .arp => ArpPacket.Fits pkt.payload
  | .ipv4 =>
    pkt.payload ≠ [] → Ipv4Header.ihlBytes pkt.payload ≤ pkt.payload.length →
      20 ≤ pkt.payload.length ∧
        (be32At pkt.payload 16 = r.network.ip ∨ be32At pkt.payload 16 = BitVec.allOnes 32 →
          ∀ handler, r.ip4Handlers.get (byteAt pkt.payload 9) = some handler →
            handler.Safe api (pkt.payload.drop (Ipv4Header.ihlBytes pkt.payload)))
  | .ipv6 => True

/-- What the router sends to the LAN has the twenty bytes its trace shows. -/
def Sendable (action : Res ProtocolError RouterAction) : Prop :=
  ∀ ty dst pkt, action = .ok (.toLan ty dst pkt) → 20 ≤ pkt.length

theorem sendable_drop (pkt : List Byte) : Sendable (.ok (.drop pkt)) := fun _ _ _ h => by cases h

theorem returns_writeToSwitch (dst : MacAddress) (ty : EtherType) (pkt : List Byte) (h : 20 ≤ pkt.length) :
    (r.writeToSwitch dst ty pkt).1.Returns := by
  have hd := dst.length_octets
  have hm := r.mac.length_octets
  have hlen : (dst.octets ++ r.mac.octets ++ toBe16 ty.asU16 ++ pkt).length = 14 + pkt.length := by
    simp [toBe16, hd, hm]
    omega
  unfold writeToSwitch MacAddress.asBytes
  simp only
  rw [slice_eq _ 14 34 (by omega) (by omega), Res.andThen_ok]
  have hret := r.switch.returns_process r.port (dst.octets ++ r.mac.octets ++ toBe16 ty.asU16 ++ pkt)
  cases hp : (r.switch.process r.port (dst.octets ++ r.mac.octets ++ toBe16 ty.asU16 ++ pkt)).1 with
  | ok u => simp
  | err e => simp
  | panic p => exact absurd hp (hret p)

theorem returns_handleAction (action : RouterAction) (dst : Option MacAddress) (h : Sendable (.ok action)) :
    (r.handleAction action dst).1.Returns := by
  unfold handleAction
  cases action with
  | drop pkt => simp
  | toWan pkt => simp
  | toLan ty dstIp pkt =>
    simp only
    cases dst.or (r.arp.get dstIp) with
    | none => simp
    | some mac => exact returns_writeToSwitch r mac ty pkt (h ty dstIp pkt rfl)

theorem returns_handleArp (pkt : List Byte) :
    ((r.handleArp pkt).1.Returns ↔ ArpPacket.Fits pkt) ∧ Sendable (r.handleArp pkt).1 := by
  rw [← ArpPacket.returns_parse]
  unfold handleArp
  cases hp : ArpPacket.parse pkt with
  | err e => exact ⟨by simp, fun _ _ _ h => by cases h⟩
  | panic p => exact ⟨by simp, fun _ _ _ h => by cases h⟩
  | ok arp =>
    have hv := (ArpPacket.wellFormed_of_parse hp).sameVersion
    simp only [Res.andThen_ok]
    split
    · have hreply := hv.toReply r.mac
      have hzero : (List.replicate arp.size (0 : Byte)).length = (arp.toReply r.mac).size := by
        rw [List.length_replicate, hv.size_toReply]
      have hbytes := ArpPacket.asBytes_wire (ε := ProtocolError) hreply hzero
      have hlen := ArpPacket.length_wire hreply
      have h28 := hreply.size_ge
      simp only [hbytes, Res.andThen_ok]
      refine ⟨by simp, ?_⟩
      intro ty dst pkt h
      cases h
      omega
    · exact ⟨by simp, sendable_drop _⟩

/-- The header of the reply to a packet, around `len` bytes. -/
def replyHeader (id : BitVec 16) (pkt : Ipv4Packet) (len : Nat) : Ipv4Header :=
  { version := 4, ihl := 5, length := BitVec.ofNat 16 len + 20, id, flags := 2, fragOffset := 0, ttl := 64,
    protocol := pkt.protocol, checksum := 0, src := pkt.dest, dst := pkt.src }

/-- **What is built as a reply**: the header of the reply over the first twenty bytes. -/
theorem buildReply_eq_ok {id : BitVec 16} {pkt : Ipv4Packet} {rpkt : List Byte} {action : RouterAction} :
    buildReply id pkt rpkt = .ok action ↔
      20 ≤ rpkt.length ∧ (rpkt.length - 20) % 2 ^ 16 + 20 < 2 ^ 16 ∧
        action = .toLan .ipv4 (.v4 pkt.src) ((replyHeader id pkt (rpkt.length - 20)).onto rpkt) := by
  unfold buildReply
  by_cases h20 : 20 ≤ rpkt.length
  · rw [sliceFrom_eq rpkt 20 h20, Res.bind_ok, slice_eq rpkt 0 20 (by omega) h20, List.drop_zero, Nat.sub_zero]
    unfold Ipv4Packet.reply Ipv4Header.genReply Ipv4Header.new
    rw [List.length_drop, BitVec.toNat_ofNat]
    by_cases hlen : (rpkt.length - 20) % 2 ^ 16 + 20 < 2 ^ 16
    · have htake : 20 ≤ (rpkt.take 20).length := by
        rw [List.length_take]
        omega
      have honto : (replyHeader id pkt (rpkt.length - 20)).onto (rpkt.take 20) ++ rpkt.drop 20 =
          (replyHeader id pkt (rpkt.length - 20)).onto rpkt := by
        unfold Ipv4Header.onto
        rw [byteAt_take rpkt 20 1 (by omega), List.drop_take_self, List.append_nil]
      have hbytes := Ipv4Header.asBytes_onto (ε := ProtocolError) (replyHeader id pkt (rpkt.length - 20)) _ htake
      rw [if_pos hlen, Res.bind_ok, Res.bind_ok]
      unfold replyHeader at hbytes honto ⊢
      rw [show pkt.header.protocol = pkt.protocol from rfl, show pkt.header.dst = pkt.dest from rfl,
        show pkt.header.src = pkt.src from rfl, hbytes, Res.bind_ok, honto, Res.pure_eq, Res.ok.injEq, eq_comm]
      simp only [h20, hlen, true_and]
    · rw [if_neg hlen]
      exact ⟨fun h => (by cases h), fun h => absurd h.2.1 hlen⟩
  · have hpanic : (sliceFrom rpkt 20 : Res ProtocolError _) = .panic .outOfRange := if_neg (fun h => h20 h.1)
    rw [hpanic]
    exact ⟨fun h => (by cases h), fun h => absurd h.1 h20⟩

/-- **A reply of at most 1560 bytes is built.** -/
theorem buildReply_ok (pkt : Ipv4Packet) (rpkt : List Byte) (h20 : 20 ≤ rpkt.length) (hlen : rpkt.length ≤ 1560) :
    ∃ dst reply, buildReply id pkt rpkt = .ok (.toLan .ipv4 dst reply) ∧ 20 ≤ reply.length := by
  refine ⟨_, _, buildReply_eq_ok.2 ⟨h20, by omega, rfl⟩, ?_⟩
  rw [Ipv4Header.length_onto _ _ h20]
  exact h20

/-- **A packet for the router** is survived exactly when its handler survives it. -/
theorem returns_handleLocalIpv4 (hapi : api.Lawful) (pkt : Ipv4Packet) (hpkt : pkt.headerLength ≤ pkt.data.length) :
    ((r.handleLocalIpv4 api id pkt).1.Returns ↔
      ∀ handler, r.ip4Handlers.get pkt.protocol = some handler → handler.Safe api pkt.transport) ∧
    Sendable (r.handleLocalIpv4 api id pkt).1 := by
  unfold handleLocalIpv4
  cases hh : r.ip4Handlers.get pkt.protocol with
  | none => exact ⟨by simp, sendable_drop _⟩
  | some handler =>
    have hbuf : ((List.replicate 1560 (0 : Byte)).drop 20).length = 1540 := by
      rw [List.length_drop, List.length_replicate]
    obtain ⟨hret, hwrite⟩ := handler.returns_handleProtocol hapi pkt _ hpkt hbuf
    simp only [Option.some.injEq, forall_eq']
    rw [← hret, sliceFrom_eq _ 20 (by rw [List.length_replicate]; omega), Res.andThen_ok]
    cases hr : (handler.handleProtocol api pkt ((List.replicate 1560 (0 : Byte)).drop 20)).1 with
    | err e => exact ⟨iff_of_true (Res.returns_ok _) (Res.returns_err e), sendable_drop _⟩
    | panic p =>
      exact ⟨iff_of_false (Res.not_returns_panic p) (Res.not_returns_panic p), fun _ _ _ h => by cases h⟩
    | ok res =>
      obtain ⟨sz, buf⟩ := res
      obtain ⟨hsz, hl⟩ := hwrite sz buf hr
      cases sz with
      | zero => exact ⟨iff_of_true (Res.returns_ok _) (Res.returns_ok _), sendable_drop _⟩
      | succ sz =>
        have hlen :
            (((List.replicate 1560 (0 : Byte)).take 20 ++ buf).take (20 + (sz + 1))).length = 20 + (sz + 1) := by
          rw [List.length_take, List.length_append, List.length_take, List.length_replicate, hl]
          omega
        obtain ⟨dst, reply, hreply, h20⟩ := buildReply_ok id pkt _ (by rw [hlen]; omega) (by rw [hlen]; omega)
        simp only [hreply]
        refine ⟨iff_of_true (Res.returns_ok _) (Res.returns_ok _), ?_⟩
        intro ty dst' pkt' h
        cases h
        exact h20

/-- **A packet to the router's own address or to every host is handled by the router**: its address lies in its
network. -/
theorem routeIp4_local (api : Dhcproto) (pkt : Ipv4Packet)
    (hloc : pkt.dest = r.network.ip ∨ pkt.dest = BitVec.allOnes 32) :
    r.routeIp4 api id pkt = r.handleLocalIpv4 api id pkt := by
  have hbcast : isBroadcastV4 pkt.dest = decide (pkt.dest = BitVec.allOnes 32) := rfl
  have hself : r.isLocal (.v4 pkt.dest) = decide (r.network.ip = pkt.dest) := rfl
  have hnet : (r.network.contains pkt.dest || decide (pkt.dest = BitVec.allOnes 32)) = true := by
    rcases hloc with h | h
    · rw [h, IpNet.contains_ip, Bool.true_or]
    · simp [h]
  have hself' : (decide (r.network.ip = pkt.dest) || decide (pkt.dest = BitVec.allOnes 32)) = true := by
    rcases hloc with h | h <;> simp [h]
  unfold routeIp4
  rw [hbcast, hself, if_pos hnet, if_pos hself']

/-- **A parsed packet is routed** unless it is for the router and its handler does not survive it. -/
theorem returns_routeIp4 (hapi : api.Lawful) (pkt : Ipv4Packet) (hpkt : pkt.headerLength ≤ pkt.data.length)
    (h20 : 20 ≤ pkt.data.length) :
    ((r.routeIp4 api id pkt).1.Returns ↔ (pkt.dest = r.network.ip ∨ pkt.dest = BitVec.allOnes 32 →
      ∀ handler, r.ip4Handlers.get pkt.protocol = some handler → handler.Safe api pkt.transport)) ∧
    Sendable (r.routeIp4 api id pkt).1 := by
  by_cases hloc : pkt.dest = r.network.ip ∨ pkt.dest = BitVec.allOnes 32
  · rw [routeIp4_local id r api pkt hloc]
    obtain ⟨hret, hsend⟩ := returns_handleLocalIpv4 id r hapi pkt hpkt
    exact ⟨hret.trans ⟨fun h _ => h, fun h => h hloc⟩, hsend⟩
  · have hbcast : isBroadcastV4 pkt.dest = decide (pkt.dest = BitVec.allOnes 32) := rfl
    have hself : r.isLocal (.v4 pkt.dest) = decide (r.network.ip = pkt.dest) := rfl
    have hself' : ¬ (decide (r.network.ip = pkt.dest) || decide (pkt.dest = BitVec.allOnes 32)) = true := by
      simp only [Bool.or_eq_true, decide_eq_true_eq]
      exact fun h => hloc (h.imp Eq.symm fun h => h)
    unfold routeIp4
    rw [hbcast, hself, if_neg hself']
    by_cases hnet : (r.network.contains pkt.dest || decide (pkt.dest = BitVec.allOnes 32)) = true
    · rw [if_pos hnet]
      refine ⟨iff_of_true (Res.returns_ok _) fun h => absurd h hloc, ?_⟩
      intro ty dst pkt' h
      cases h
      exact h20
    · rw [if_neg hnet]
      exact ⟨iff_of_true (Res.returns_ok _) fun h => absurd h hloc, fun _ _ _ h => by cases h⟩

theorem returns_actionFor (hapi : api.Lawful) (pkt : EthernetPacket) :
    ((r.actionFor api id pkt).1.Returns ↔ FrameSafe api r pkt) ∧ Sendable (r.actionFor api id pkt).1 := by
  obtain ⟨⟨dst, src, ty⟩, data⟩ := pkt
  unfold actionFor FrameSafe
  cases ty with
  | arp => exact returns_handleArp r data
  | ipv6 => exact ⟨by simp [routeIp6], sendable_drop _⟩
  | ipv4 =>
    simp only
    by_cases h0 : data = []
    · subst h0
      exact ⟨by simp [Ipv4Packet.parse, Ipv4Header.extractFromSlice_nil], fun _ _ _ h => by cases h⟩
    by_cases hihl : Ipv4Header.ihlBytes data ≤ data.length
    · by_cases h20 : 20 ≤ data.length
      · rw [Ipv4Packet.parse_eq data hihl h20, Res.andThen_ok]
        obtain ⟨hret, hsend⟩ := returns_routeIp4 id r hapi ⟨Ipv4Header.headerOf data, data⟩ hihl h20
        refine ⟨hret.trans ?_, hsend⟩
        simp only [h0, hihl, h20, ne_eq, not_false_eq_true, forall_const, true_and]
        rfl
      · -- the fixed offsets of the header lie past the end
        have hpanic : ¬ (Ipv4Packet.parse data).Returns := by
          unfold Ipv4Packet.parse
          rw [Res.returns_bind]
          exact fun h => Ipv4Header.extractFromSlice_panic data h0 hihl (by omega) h.1
        cases hp : Ipv4Packet.parse data with
        | ok p => exact absurd (by rw [hp]; simp) hpanic
        | err e => exact absurd (by rw [hp]; simp) hpanic
        | panic p => exact ⟨by simp [h0, hihl, h20], fun _ _ _ h => by cases h⟩
    · have herr : Ipv4Packet.parse data = .err (.notEnoughData data.length (Ipv4Header.ihlBytes data)) := by
        unfold Ipv4Packet.parse
        rw [Ipv4Header.extractFromSlice_short data h0 (by omega)]
        rfl
      rw [herr]
      exact ⟨by simp [hihl], fun _ _ _ h => by cases h⟩

/-- **The router survives exactly the safe frames.**  In every state and for every frame, `route` returns, with a value
or an error, if and only if the frame is safe in that state. -/
theorem route_returns_iff (api : Dhcproto) (hapi : api.Lawful) (id : BitVec 16) (r : Router) (pkt : EthernetPacket) :
    (r.route api id pkt).1.Returns ↔ FrameSafe api r pkt := by
  obtain ⟨hret, hsend⟩ := returns_actionFor id r hapi pkt
  unfold route
  rw [Res.returns_andThen, hret]
  constructor
  · intro h
    exact h.1
  · intro h
    refine ⟨h, ?_⟩
    intro action ha
    rw [ha] at hsend
    exact returns_handleAction _ action _ hsend

end Router

/-! ## A small router -/

/-- The router of 10.0.0.1/24 on the first port of a switch, with the handlers the bridge registers. -/
def homeRouter : Router where
  arp := Table.empty
  switch := ⟨[[]], Table.empty⟩
  port := 0
  wan := none
  mac := guestMac 0xFF
  network := homeNet
  ip4Handlers := (Table.empty.insert netProtocolIcmp .icmp).insert netProtocolUdp
    (.udp (UdpHandler.registerPortHandler ⟨Table.empty⟩ (.dhcp (homeServer [0x0A000064] Table.empty))))

namespace Router

theorem route_returns_of_arp_request :
    (homeRouter.route decodedOnly 0 ⟨⟨MacAddress.broadcast, guestMac 1, .arp⟩,
      [0, 1, 8, 0, 6, 4, 0, 1] ++ (guestMac 1).octets ++ [10, 0, 0, 100] ++ List.replicate 6 0 ++
        [10, 0, 0, 1]⟩).1.Returns := by
  refine (route_returns_iff decodedOnly decodedOnly_lawful 0 homeRouter _).2 ?_
  intro ty hty
  cases ty with
  | ipv4 => exact ⟨by decide, nofun⟩
  | ipv6 => exact absurd hty.2.1 (by decide)
  | arp => exact absurd hty.2.1 (by decide)

/-- **One byte of IPv4 ends the router**: a payload that announces a header of no length is read at offset two. -/
theorem one_byte_ends_router :
    ¬ (homeRouter.route decodedOnly 0 ⟨⟨guestMac 0xFF, guestMac 1, .ipv4⟩, [0x40]⟩).1.Returns := by
  have hpanic : (homeRouter.route decodedOnly 0 ⟨⟨guestMac 0xFF, guestMac 1, .ipv4⟩, [0x40]⟩).1 = .panic .outOfRange :=
    rfl
  rw [hpanic]
  exact Res.not_returns_panic _

end Router

end Oathgate
