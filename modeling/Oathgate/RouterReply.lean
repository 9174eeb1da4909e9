import Oathgate.NetChecksum
import Oathgate.NetHeader
import Oathgate.RouterRun
/-!
# RouterReply — the packets the router makes itself (`oathgate-bridge`: `net/router.rs`, `net/router/handler/`)

A protocol handler writes its message behind twenty zero bytes, and the router writes the header of the reply over
them: the request's header with its addresses swapped.  `handleLocalIpv4_reply` gives the whole packet from what the
handler wrote; the echo reply, the UDP reply and the reply of no data are it at three messages.
-/
namespace Oathgate

open Lib

variable {ε : Type}

/-! ## Reply packets -/

namespace Ipv4Header

/-- A header written over a buffer is read back, when it has no options and no offset. -/
theorem parse_onto {h : Ipv4Header} (hh : Codable h) (rpkt : List Byte) :
    ∃ p, Ipv4Packet.parse (h.onto rpkt) = .ok p ∧ p.src = h.src ∧ p.dest = h.dst ∧ p.protocol = h.protocol ∧
      p.header.length = h.length ∧ (p.payload : Res ε _) = .ok (rpkt.drop 20) := by
  have hhdr : headerOf (h.onto rpkt) = _ := headerOf_wire hh (byteAt rpkt 1) (h.wireSum (byteAt rpkt 1)) (rpkt.drop 20)
  have hlen : 20 ≤ (h.onto rpkt).length := by
    unfold onto
    rw [List.length_append, length_wire]
    omega
  have hihl : ihlBytes (h.onto rpkt) = 20 := by
    have hnibble : byteAt (h.onto rpkt) 0 &&& 0x0F = 5 := (congrArg Ipv4Header.ihl hhdr).trans hh.ihl
    unfold ihlBytes
    rw [hnibble]
    rfl
  have hpayload : (Ipv4Packet.payload ⟨headerOf (h.onto rpkt), h.onto rpkt⟩ : Res ε _) = .ok (rpkt.drop 20) := by
    rw [← h.drop_onto, ← hihl]
    exact Ipv4Packet.payload_eq ⟨headerOf (h.onto rpkt), h.onto rpkt⟩ (Nat.le_trans (Nat.le_of_eq hihl) hlen)
  refine ⟨_, Ipv4Packet.parse_eq _ (by omega) hlen, ?_⟩
  unfold Ipv4Packet.src Ipv4Packet.dest Ipv4Packet.protocol
  rw [hpayload]
  simp only [hhdr, and_self]

end Ipv4Header

namespace Router

theorem replyHeader_codable (id : BitVec 16) (pkt : Ipv4Packet) (len : Nat) : (replyHeader id pkt len).Codable := by
  have hversion : (4 : BitVec 8).toNat ≤ 15 := by decide
  have hflags : (2 : BitVec 8).toNat ≤ 7 := by decide
  exact ⟨hversion, rfl, hflags, rfl⟩

/-- The reply to a packet around a transport message. -/
def replyPacket (id : BitVec 16) (pkt : Ipv4Packet) (msg : List Byte) : List Byte :=
  (replyHeader id pkt msg.length).onto (List.replicate 20 0 ++ msg)

/-- **A reply**: a packet of the request's protocol with its addresses swapped, which is as long as it says, around a
transport message. -/
structure Replies (pkt : Ipv4Packet) (reply msg : List Byte) : Prop where
  length : reply.length = 20 + msg.length
  parses : ∃ p, Ipv4Packet.parse reply = .ok p ∧ p.protocol = pkt.protocol ∧ p.src = pkt.dest ∧ p.dest = pkt.src ∧
    p.header.length.toNat = 20 + msg.length ∧ (p.payload : Res ProtocolError _) = .ok msg

theorem replies_replyPacket (id : BitVec 16) (pkt : Ipv4Packet) {msg : List Byte} (h : msg.length ≤ 1540) :
    Replies pkt (replyPacket id pkt msg) msg := by
  obtain ⟨p, hparse, hsrc, hdst, hproto, hlen, hpayload⟩ :=
    (replyHeader id pkt msg.length).parse_onto (ε := ProtocolError) (replyHeader_codable id pkt msg.length)
      (List.replicate 20 0 ++ msg)
  constructor
  · unfold replyPacket
    rw [Ipv4Header.length_onto _ _ (by simp), List.length_append, List.length_replicate]
  · refine ⟨p, hparse, hproto, hsrc, hdst, ?_, hpayload⟩
    rw [hlen]
    show (BitVec.ofNat 16 msg.length + 20).toNat = 20 + msg.length
    rw [BitVec.toNat_add, BitVec.toNat_ofNat, show (20 : BitVec 16).toNat = 20 from rfl]
    omega

/-! ## Local handling -/

/-- The packet is for the router: it goes to its own address or to every host's. -/
def IsFor (r : Router) (pkt : Ipv4Packet) : Prop := pkt.dest = r.network.ip ∨ pkt.dest = BitVec.allOnes 32

/-- **The reply around what a handler wrote**, cut to the length it returned. -/
theorem handleLocalIpv4_reply {api : Dhcproto} (id : BitVec 16) {r : Router} {pkt : Ipv4Packet}
    {handler : ProtocolHandler} {sz : Nat} {buf : List Byte} (hget : r.ip4Handlers.get pkt.protocol = some handler)
    (hres : (handler.handleProtocol api pkt (List.replicate 1540 0)).1 = .ok (sz, buf)) (hpos : 0 < sz)
    (hsz : sz ≤ 1540) (hbuf : buf.length = 1540) :
    (r.handleLocalIpv4 api id pkt).1 = .ok (.toLan .ipv4 (.v4 pkt.src) (replyPacket id pkt (buf.take sz))) := by
  have hrpkt : ((List.replicate 1560 (0 : Byte)).take 20 ++ buf).take (20 + sz) =
      List.replicate 20 0 ++ buf.take sz := by
    rw [List.take_replicate, Nat.min_eq_left (by decide), List.take_append, List.length_replicate,
      Nat.add_sub_cancel_left, List.take_of_length_le (by simp)]
  have hlen : (List.replicate 20 (0 : Byte) ++ buf.take sz).length = 20 + sz := by
    rw [List.length_append, List.length_replicate, List.length_take]
    omega
  have hbuild : buildReply id pkt (List.replicate 20 0 ++ buf.take sz) =
      .ok (.toLan .ipv4 (.v4 pkt.src) (replyPacket id pkt (buf.take sz))) := by
    rw [buildReply_eq_ok, hlen]
    refine ⟨by omega, by omega, ?_⟩
    unfold replyPacket
    rw [List.length_take, hbuf, Nat.min_eq_left hsz, Nat.add_sub_cancel_left]
  unfold handleLocalIpv4
  simp only [hget]
  rw [sliceFrom_eq _ 20 (by rw [List.length_replicate]; omega), List.drop_replicate, Res.andThen_ok]
  obtain ⟨n, rfl⟩ : ∃ n, sz = n + 1 := ⟨sz - 1, by omega⟩
  simp only [hres, hrpkt, hbuild]

/-- A message that brings a packet to the IPv4 routing. -/
def Brings (msg : RouterMsg) (pkt : Ipv4Packet) : Prop :=
  match msg with
  | .fromLan frame => frame.frame.ethertype = .ipv4 ∧ Ipv4Packet.parse frame.payload = .ok pkt
  | .fromWan4 p _ => p = pkt

theorem actionOf_brings (api : Dhcproto) (id : BitVec 16) (r : Router) {msg : RouterMsg} {pkt : Ipv4Packet}
    (h : Brings msg pkt) : r.actionOf api id msg = r.routeIp4 api id pkt := by
  cases msg with
  | fromWan4 p whole =>
    cases h
    rfl
  | fromLan frame =>
    obtain ⟨hty, hparse⟩ := h
    unfold actionOf actionFor
    simp only [hty, hparse, Res.andThen_ok]

/-- **The frames of a reply**: routing changes neither the table nor the router's address. -/
theorem written_reply {api : Dhcproto} {id : BitVec 16} {r : Router} {msg : RouterMsg} {pkt : Ipv4Packet}
    {action : RouterAction} (hbrings : Brings msg pkt) (haction : (r.routeIp4 api id pkt).1 = .ok action) :
    r.written api id msg = (r.frameFor (answerTo msg) action).toList := by
  obtain ⟨handlers, hstate⟩ := routeIp4_state api id r pkt
  unfold written
  rw [actionOf_brings api id r hbrings]
  cases hx : r.routeIp4 api id pkt with | mk res r'
  rw [hx] at hstate haction
  subst hstate haction
  rfl

/-! ## Echo replies -/

/-- **The answer to an echo request**: its bytes from the fourth on, behind a type and code of zero and a checksum.
The checksum goes over the whole buffer, whose zeros it does not count. -/
theorem handleProtocol_echo {pkt : Ipv4Packet} {q : List Byte} (hq : (pkt.payload : Res ProtocolError _) = .ok q)
    (hecho : byteAt q 0 = 8) (h4 : 4 ≤ q.length) (hlen : q.length ≤ 1540) :
    ∃ csum buf, IcmpHandler.handleProtocol pkt (List.replicate 1540 0) = .ok (q.length, buf) ∧ buf.length = 1540 ∧
      buf.take q.length = [0, 0] ++ toBe16 csum ++ q.drop 4 ∧
      (checksum ([0, 0, 0, 0] ++ q.drop 4) : Res ProtocolError _) = .ok csum := by
  have hmsg : ∀ head : List Byte, head.length = 4 → (head ++ q.drop 4).length = q.length := by
    intro head hhead
    rw [List.length_append, List.length_drop]
    omega
  have hsum : wordSum ([0, 0, 0, 0] ++ q.drop 4) < 2 ^ 32 := wordSum_lt (by rw [hmsg _ rfl]; omega)
  have hcsum := checksum_eq (ε := ProtocolError) hsum
  generalize foldSum (BitVec.ofNat 32 (wordSum ([0, 0, 0, 0] ++ q.drop 4))) = csum at hcsum
  have hcopy : (copyAt (List.replicate 1540 0) 4 q.length (q.drop 4) : Res ProtocolError _) =
      .ok ([0, 0, 0, 0] ++ q.drop 4 ++ List.replicate (1540 - q.length) 0) := by
    rw [copyAt_eq _ _ _ _ h4 (by rw [List.length_replicate]; exact hlen) List.length_drop, List.take_replicate,
      List.drop_replicate]
    rfl
  have hwhole : (checksum ([0, 0, 0, 0] ++ q.drop 4 ++ List.replicate (1540 - q.length) 0) : Res ProtocolError _) =
      .ok csum := by
    rw [checksum_eq (by rw [wordSum_append_zeros]; exact hsum), wordSum_append_zeros, ← checksum_eq hsum, hcsum]
  have hwrite : (copyAt ([0, 0, 0, 0] ++ q.drop 4 ++ List.replicate (1540 - q.length) 0) 2 4 (toBe16 csum) :
      Res ProtocolError _) = .ok ([0, 0] ++ toBe16 csum ++ q.drop 4 ++ List.replicate (1540 - q.length) 0) := by
    rw [copyAt_eq _ 2 4 _ (by omega) (by rw [List.length_append, hmsg _ rfl]; omega) rfl]
    rfl
  refine ⟨csum, [0, 0] ++ toBe16 csum ++ q.drop 4 ++ List.replicate (1540 - q.length) 0, ?_, ?_, ?_, hcsum⟩
  · unfold IcmpHandler.handleProtocol
    rw [hq, Res.bind_ok, if_neg (by omega), index_eq q 0 (by omega), Res.bind_ok, hecho, if_pos rfl,
      sliceFrom_eq q 4 h4, Res.bind_ok]
    simp only [hcopy, Res.bind_ok, hwhole, hwrite, Res.pure_eq]
  · rw [List.length_append, hmsg _ rfl, List.length_replicate]
    omega
  · exact List.take_left' (hmsg _ rfl)

theorem routeIp4_echo (api : Dhcproto) (id : BitVec 16) (r : Router) (pkt : Ipv4Packet) {q : List Byte}
    (hget : r.ip4Handlers.get netProtocolIcmp = some .icmp) (hproto : pkt.protocol = netProtocolIcmp)
    (hfor : r.IsFor pkt) (hq : (pkt.payload : Res ProtocolError _) = .ok q) (hecho : byteAt q 0 = 8)
    (h4 : 4 ≤ q.length) (hlen : q.length ≤ 1540) :
    ∃ csum, (checksum ([0, 0, 0, 0] ++ q.drop 4) : Res ProtocolError _) = .ok csum ∧
      (r.routeIp4 api id pkt).1 =
        .ok (.toLan .ipv4 (.v4 pkt.src) (replyPacket id pkt ([0, 0] ++ toBe16 csum ++ q.drop 4))) := by
  obtain ⟨csum, buf, hres, hbuf, htake, hcsum⟩ := handleProtocol_echo hq hecho h4 hlen
  have hhandler : (ProtocolHandler.icmp.handleProtocol api pkt (List.replicate 1540 0)).1 = .ok (q.length, buf) := hres
  refine ⟨csum, hcsum, ?_⟩
  rw [routeIp4_local id r api pkt hfor, ← htake]
  exact handleLocalIpv4_reply id (by rw [hproto]; exact hget) hhandler (by omega) hlen hbuf

/-- **An echo request to the router is answered with its own bytes.**  The reply is twenty bytes longer than the
message of the request, goes back with the addresses swapped, and holds a message of type and code zero whose checksum
is that of the message itself with the field zero; the request's bytes follow from the fourth on.  Whatever message
brings the request, the reply is what the router writes to the switch. -/
theorem echo_reply (api : Dhcproto) (id : BitVec 16) (r : Router) (pkt : Ipv4Packet) (q : List Byte)
    (hget : r.ip4Handlers.get netProtocolIcmp = some .icmp) (hproto : pkt.protocol = netProtocolIcmp)
    (hfor : r.IsFor pkt) (hq : (pkt.payload : Res ProtocolError _) = .ok q) (hecho : byteAt q 0 = 8)
    (h4 : 4 ≤ q.length) (hlen : q.length ≤ 1540) :
    ∃ reply csum, (r.routeIp4 api id pkt).1 = .ok (.toLan .ipv4 (.v4 pkt.src) reply) ∧
      reply.length = 20 + q.length ∧ Replies pkt reply ([0, 0] ++ toBe16 csum ++ q.drop 4) ∧
      (checksum ([0, 0, 0, 0] ++ q.drop 4) : Res ProtocolError _) = .ok csum ∧
      ∀ msg, Brings msg pkt →
        r.written api id msg = (r.frameFor (answerTo msg) (.toLan .ipv4 (.v4 pkt.src) reply)).toList := by
  obtain ⟨csum, hcsum, haction⟩ := routeIp4_echo api id r pkt hget hproto hfor hq hecho h4 hlen
  have hmsg : ([0, 0] ++ toBe16 csum ++ q.drop 4).length = q.length := by
    rw [List.length_append, List.length_drop]
    show 4 + (q.length - 4) = q.length
    omega
  have hreply := replies_replyPacket id pkt (Nat.le_trans (Nat.le_of_eq hmsg) hlen)
  exact ⟨_, csum, haction, by rw [hreply.length, hmsg], hreply, hcsum, fun msg hbrings => written_reply hbrings haction⟩

/-- An echo request from 10.0.0.100 with one byte of data. -/
def ping (dst : Ipv4Addr) : Ipv4Packet :=
  .datagram netProtocolIcmp 0x0A000064 dst [8, 0, 0x96, 0xFD, 0, 1, 0, 1, 0x61]

theorem echo_reply_of_ping :
    ∃ reply, (homeRouter.routeIp4 decodedOnly 0 (ping 0x0A000001)).1 = .ok (.toLan .ipv4 (.v4 0x0A000064) reply) ∧
      reply.length = 29 := by
  obtain ⟨reply, -, haction, hlen, -⟩ := echo_reply decodedOnly 0 homeRouter (ping 0x0A000001)
    [8, 0, 0x96, 0xFD, 0, 1, 0, 1, 0x61] rfl rfl (Or.inl rfl) rfl rfl (by decide) (by decide)
  exact ⟨reply, haction, hlen⟩

/-! ## The source of a reply -/

/-- **A reply comes from the address the request went to**, so it carries the router's exactly when the request did. -/
theorem reply_source_iff (api : Dhcproto) (id : BitVec 16) (r : Router) (pkt : Ipv4Packet) (ty : EtherType)
    (dst : IpAddr) (reply : List Byte) (hfor : r.IsFor pkt)
    (hreply : (r.routeIp4 api id pkt).1 = .ok (.toLan ty dst reply)) :
    (∃ p, Ipv4Packet.parse reply = .ok p ∧ p.src = r.network.ip ∧ p.dest = pkt.src) ↔ pkt.dest = r.network.ip := by
  rw [routeIp4_local id r api pkt hfor] at hreply
  obtain ⟨p, hparse, hsrc, hdst⟩ : ∃ p, Ipv4Packet.parse reply = .ok p ∧ p.src = pkt.dest ∧ p.dest = pkt.src := by
    rcases (handleLocalIpv4_cases api id r pkt).2 with h | ⟨p, h⟩ | ⟨rpkt, h⟩
    · rw [h] at hreply
      cases hreply
    · rw [h] at hreply
      cases hreply
    · rw [h, buildReply_eq_ok] at hreply
      obtain ⟨-, -, haction⟩ := hreply
      obtain ⟨p, hparse, hsrc, hdst, -⟩ := (replyHeader id pkt (rpkt.length - 20)).parse_onto (ε := ProtocolError)
        (replyHeader_codable id pkt _) rpkt
      rw [RouterAction.toLan.injEq] at haction
      rw [haction.2.2]
      exact ⟨p, hparse, hsrc, hdst⟩
  constructor
  · rintro ⟨p', hparse', hsrc', -⟩
    rw [hparse, Res.ok.injEq] at hparse'
    rw [← hsrc, hparse', hsrc']
  · intro h
    exact ⟨p, hparse, hsrc.trans h, hdst⟩

theorem reply_source_of_ping :
    ∃ reply p, (homeRouter.routeIp4 decodedOnly 0 (ping 0x0A000001)).1 = .ok (.toLan .ipv4 (.v4 0x0A000064) reply) ∧
      Ipv4Packet.parse reply = .ok p ∧ p.src = 0x0A000001 := by
  have hfor : homeRouter.IsFor (ping 0x0A000001) := Or.inl rfl
  obtain ⟨csum, -, haction⟩ := routeIp4_echo decodedOnly 0 homeRouter (ping 0x0A000001) rfl rfl hfor rfl rfl (by decide)
    (by decide)
  obtain ⟨p, hparse, hsrc, -⟩ := (reply_source_iff decodedOnly 0 homeRouter _ _ _ _ hfor haction).2 rfl
  exact ⟨_, p, haction, hparse, hsrc⟩

/-- **A request to every host is answered from every host's address.** -/
theorem broadcast_reply_source :
    homeRouter.IsFor (ping (BitVec.allOnes 32)) ∧
      ∃ reply p, (homeRouter.routeIp4 decodedOnly 0 (ping (BitVec.allOnes 32))).1 =
          .ok (.toLan .ipv4 (.v4 0x0A000064) reply) ∧
        Ipv4Packet.parse reply = .ok p ∧ p.src = BitVec.allOnes 32 ∧ p.src ≠ homeRouter.network.ip := by
  have hfor : homeRouter.IsFor (ping (BitVec.allOnes 32)) := Or.inr rfl
  obtain ⟨csum, -, haction⟩ := routeIp4_echo decodedOnly 0 homeRouter (ping (BitVec.allOnes 32)) rfl rfl hfor rfl rfl
    (by decide) (by decide)
  have hlen : ([0, 0] ++ toBe16 csum ++ [0, 1, 0, 1, 0x61]).length ≤ 1540 := by
    show 9 ≤ 1540
    decide
  obtain ⟨p, hparse, -, hsrc, -⟩ := (replies_replyPacket 0 (ping (BitVec.allOnes 32)) hlen).parses
  refine ⟨hfor, _, p, haction, hparse, hsrc, ?_⟩
  rw [hsrc]
  decide

/-! ## UDP replies -/

/-- A UDP message as the handler writes it, with a checksum of zero. -/
def udpMessage (srcPort dstPort : BitVec 16) (data : List Byte) : List Byte :=
  toBe16 srcPort ++ toBe16 dstPort ++ toBe16 (BitVec.ofNat 16 (data.length + 8)) ++ [0, 0] ++ data

/-- A UDP packet for the router whose port is handled. -/
structure ToPort (r : Router) (pkt : Ipv4Packet) (q : List Byte) (handler : PortHandler) : Prop where
  isFor : r.IsFor pkt
  protocol : pkt.protocol = netProtocolUdp
  payload : (pkt.payload : Res ProtocolError _) = .ok q
  whole : 8 ≤ q.length
  registered : ∃ h, r.ip4Handlers.get netProtocolUdp = some (.udp h) ∧ h.handlers.get (be16At q 2) = some handler

/-- **The UDP header in front of what the port handler wrote.** -/
theorem handleProtocol_udp {api : Dhcproto} {h : UdpHandler} {pkt : Ipv4Packet} {q tail : List Byte}
    {handler handler' : PortHandler} {n : Nat} (hq : (pkt.payload : Res ProtocolError _) = .ok q) (h8 : 8 ≤ q.length)
    (hport : h.handlers.get (be16At q 2) = some handler)
    (hrun : handler.handlePort api (q.drop 8) (List.replicate 1532 0) = (.ok n, handler', tail)) :
    (h.handleProtocol api pkt (List.replicate 1540 0)).1 = .ok (n + 8,
      toBe16 (be16At q 2) ++ toBe16 (be16At q 0) ++ toBe16 (BitVec.ofNat 16 (n + 8)) ++ [0, 0] ++ tail) := by
  have htake : (List.replicate 1540 (0 : Byte)).take 8 = List.replicate 8 0 := by
    rw [List.take_replicate]
    rfl
  have hhead : (List.replicate 8 (0 : Byte)).length = 8 := List.length_replicate
  unfold UdpHandler.handleProtocol
  rw [hq, Res.andThen_ok, if_neg (by omega), be16In_eq q 0 (by omega), be16In_eq q 2 (by omega)]
  simp only [Res.bind_ok, Res.pure_eq, Res.andThen_ok, hport, sliceFrom_eq q 8 h8,
    sliceFrom_eq (List.replicate 1540 (0 : Byte)) 8 (by rw [List.length_replicate]; omega), List.drop_replicate,
    Nat.reduceSub, hrun, htake, UdpHandler.writeHeader_eq hhead]

/-- The reply to a handled UDP packet, of no data as well. -/
theorem routeIp4_udp {api : Dhcproto} (id : BitVec 16) {r : Router} {pkt : Ipv4Packet} {q tail : List Byte}
    {handler handler' : PortHandler} {n : Nat} (hto : r.ToPort pkt q handler)
    (hrun : handler.handlePort api (q.drop 8) (List.replicate 1532 0) = (.ok n, handler', tail)) (hn : n ≤ 1532) :
    tail.length = 1532 ∧ (r.routeIp4 api id pkt).1 =
      .ok (.toLan .ipv4 (.v4 pkt.src) (replyPacket id pkt (udpMessage (be16At q 2) (be16At q 0) (tail.take n)))) := by
  obtain ⟨h, hget, hport⟩ := hto.registered
  have htail : tail.length = 1532 := by
    have hl := handler.length_handlePort api (q.drop 8) (List.replicate 1532 0)
    rw [hrun, List.length_replicate] at hl
    exact hl
  have hdata : (tail.take n).length = n := by
    rw [List.length_take]
    omega
  have hhead : ∀ a b c : BitVec 16, (toBe16 a ++ toBe16 b ++ toBe16 c ++ [0, 0] : List Byte).length = 8 :=
    fun _ _ _ => rfl
  have hmsg : (toBe16 (be16At q 2) ++ toBe16 (be16At q 0) ++ toBe16 (BitVec.ofNat 16 (n + 8)) ++ [0, 0] ++ tail).take
      (n + 8) = udpMessage (be16At q 2) (be16At q 0) (tail.take n) := by
    unfold udpMessage
    rw [hdata, List.take_append, hhead, Nat.add_sub_cancel, List.take_of_length_le (by rw [hhead]; omega)]
  have hhandler := handleProtocol_udp hto.payload hto.whole hport hrun
  refine ⟨htail, ?_⟩
  rw [routeIp4_local id r api pkt hto.isFor, ← hmsg]
  have hudp : ((ProtocolHandler.udp h).handleProtocol api pkt (List.replicate 1540 0)).1 =
      (h.handleProtocol api pkt (List.replicate 1540 0)).1 := rfl
  refine handleLocalIpv4_reply id (by rw [hto.protocol]; exact hget) (hudp.trans hhandler) (by omega) (by omega) ?_
  rw [List.length_append, hhead, htail]

/-- **A UDP packet is answered with what its port handler wrote.**  When the handler of the destination port writes
`n` bytes, the reply is a UDP packet of `28 + n` bytes with the addresses and the ports swapped; its lengths are those
of the packet and of the message, its checksum is zero and its data is what was written.  Whatever message brings the
packet, the reply is what the router writes to the switch. -/
theorem udp_reply (api : Dhcproto) (id : BitVec 16) (r : Router) (pkt : Ipv4Packet) (q tail : List Byte)
    (handler handler' : PortHandler) (n : Nat) (hto : r.ToPort pkt q handler)
    (hrun : handler.handlePort api (q.drop 8) (List.replicate 1532 0) = (.ok n, handler', tail)) (hpos : 1 ≤ n)
    (hn : n ≤ 1532) :
    ∃ reply p msg, (r.routeIp4 api id pkt).1 = .ok (.toLan .ipv4 (.v4 pkt.src) reply) ∧
      reply.length = 28 + n ∧ Ipv4Packet.parse reply = .ok p ∧ p.protocol = 17 ∧ p.src = pkt.dest ∧ p.dest = pkt.src ∧
      p.header.length.toNat = reply.length ∧ (p.payload : Res ProtocolError _) = .ok msg ∧
      be16At msg 0 = be16At q 2 ∧ be16At msg 2 = be16At q 0 ∧ (be16At msg 4).toNat = 8 + n ∧ be16At msg 6 = 0 ∧
      msg.drop 8 = tail.take n ∧
      ∀ m, Brings m pkt →
        r.written api id m = (r.frameFor (answerTo m) (.toLan .ipv4 (.v4 pkt.src) reply)).toList := by
  obtain ⟨htail, haction⟩ := routeIp4_udp id hto hrun hn
  have hdata : (tail.take n).length = n := by
    rw [List.length_take]
    omega
  have hlen : (udpMessage (be16At q 2) (be16At q 0) (tail.take n)).length = 8 + n := by
    unfold udpMessage
    rw [List.length_append, hdata]
    rfl
  have hfits : (udpMessage (be16At q 2) (be16At q 0) (tail.take n)).length ≤ 1540 := by omega
  have hreply := replies_replyPacket id pkt hfits
  obtain ⟨p, hparse, hproto, hsrc, hdst, hplen, hpayload⟩ := hreply.parses
  have hsize := hreply.length
  rw [hlen] at hplen hsize
  refine ⟨_, p, _, haction, by omega, hparse, hproto.trans hto.protocol, hsrc, hdst, by omega, hpayload, ?_, ?_, ?_, ?_,
    rfl, fun m hbrings => written_reply hbrings haction⟩
  · exact be16At_toBe16 (be16At q 2) []
  · exact be16At_toBe16 (be16At q 0) []
  · have hword : be16At (udpMessage (be16At q 2) (be16At q 0) (tail.take n)) 4 =
        BitVec.ofNat 16 ((tail.take n).length + 8) := be16At_toBe16 _ []
    rw [hword, hdata, BitVec.toNat_ofNat]
    omega
  · exact be16At_toBe16 0 []

/-! ## A dialogue with the DHCP server -/

/-- The first 240 bytes of a message between a server and the client with MAC 52:54:00:00:00:01, up to its options. -/
def dhcpBytes (op : Byte) (yiaddr siaddr : Ipv4Addr) : List Byte :=
  [op, 1, 6, 0, 0, 0, 0, 1, 0, 0, 0, 0, 0, 0, 0, 0] ++ toBe32 yiaddr ++ toBe32 siaddr ++ [0, 0, 0, 0] ++
    (guestMac 1).octets ++ List.replicate 202 0 ++ [99, 130, 83, 99]

def discoverBytes : List Byte := dhcpBytes 1 0 0 ++ [53, 1, 1, 255]
def releaseBytes : List Byte := dhcpBytes 1 0 0 ++ [53, 1, 7, 255]

def offerBytes : List Byte :=
  dhcpBytes 2 0x0A000064 0x0A000001 ++ [1, 4, 255, 255, 255, 0, 3, 4, 10, 0, 0, 1, 6, 4, 1, 1, 1, 1,
    28, 4, 10, 0, 0, 255, 51, 4, 0, 1, 0x51, 0x80, 53, 1, 2, 54, 4, 10, 0, 0, 1, 255]

/-- What the server of the home network offers the first client. -/
def homeOffer : Message :=
  (homeServer [] (Table.empty.insert 0x0A000064 (guestMac 1))).replyMessage decodedOnly (clientMsg .discover 1 none)
    ⟨0x0A000064, homeNet.mask, homeNet.prefix_mask⟩ .offer (guestMac 1).octets

/-- Stands for `dhcproto` on the messages of the dialogue, with zero bytes behind what it encodes or none. -/
def dialogue (padding : List Byte) : Dhcproto where
  decode data :=
    if data = discoverBytes then .ok (clientMsg .discover 1 none)
    else if data = releaseBytes then .ok (clientMsg .release 1 none)
    else .error "end of input reached"
  encode msg := if msg = homeOffer then .ok (offerBytes ++ padding) else .error "buffer too short"
  default := decodedOnly.default
  chaddr := decodedOnly.chaddr

/-- A message of the client to the port of the server. -/
def toServer (src dst : Ipv4Addr) (data : List Byte) : Ipv4Packet :=
  .datagram netProtocolUdp src dst ([0, 68, 0, 67, 0, 252, 0, 0] ++ data)

theorem toPort_toServer (src : Ipv4Addr) {dst : Ipv4Addr} (hdst : dst = homeNet.ip ∨ dst = BitVec.allOnes 32)
    (data : List Byte) :
    homeRouter.ToPort (toServer src dst data) ([0, 68, 0, 67, 0, 252, 0, 0] ++ data)
      (.dhcp (homeServer [0x0A000064] Table.empty)) where
  isFor := by
    have hdest : (toServer src dst data).dest = dst := be32At_toBe32 dst []
    unfold IsFor
    rw [hdest]
    exact hdst
  protocol := rfl
  payload := Ipv4Packet.payload_datagram _ _ _ _
  whole := by
    rw [List.length_append]
    exact Nat.le_add_right 8 _
  registered := by
    have hport : be16At ([0, 68, 0, 67, 0, 252, 0, 0] ++ data) 2 = 67 := be16At_toBe16 67 []
    rw [hport]
    exact ⟨_, rfl, rfl⟩

/-- What the server writes on the discovery of the first client. -/
theorem handlePort_discover (padding : List Byte) (hpad : padding.length ≤ 20) :
    (PortHandler.dhcp (homeServer [0x0A000064] Table.empty)).handlePort (dialogue padding)
        (([0, 68, 0, 67, 0, 252, 0, 0] ++ discoverBytes).drop 8) (List.replicate 1532 0) =
      (.ok (280 + padding.length), .dhcp (homeServer [] (Table.empty.insert 0x0A000064 (guestMac 1))),
        (offerBytes ++ padding) ++ (List.replicate 1532 0).drop (280 + padding.length)) := by
  have hlen : (offerBytes ++ padding).length = 280 + padding.length := by
    have hoffer : offerBytes.length = 280 := by
      unfold offerBytes dhcpBytes
      simp only [List.length_append, List.length_replicate, MacAddress.length_octets]
      rfl
    rw [List.length_append, hoffer]
  have hdecode : (dialogue padding).decode discoverBytes = .ok (clientMsg .discover 1 none) := by simp [dialogue]
  have hencode : (dialogue padding).encode homeOffer = .ok (offerBytes ++ padding) := by simp [dialogue]
  have hserve : (homeServer [0x0A000064] Table.empty).serve (dialogue padding) (clientMsg .discover 1 none) =
      (.ok (some homeOffer), homeServer [] (Table.empty.insert 0x0A000064 (guestMac 1))) :=
    DhcpServer.serve_answer _ _ _ (guestMac 1) .offer rfl rfl rfl
  have hcopy : (copyAt (List.replicate 1532 0) 0 (280 + padding.length) (offerBytes ++ padding) :
      Res ProtocolError _) = .ok ((offerBytes ++ padding) ++ (List.replicate 1532 0).drop (280 + padding.length)) := by
    have happend := copyAt_append (ε := ProtocolError) [] (List.replicate 1532 0) (offerBytes ++ padding) 0
      (280 + padding.length) rfl (by omega) (by rw [List.length_replicate]; omega)
    rw [hlen] at happend
    exact happend
  rw [List.drop_left' (by rfl)]
  unfold PortHandler.handlePort DhcpServer.handlePort
  simp only [hdecode, hserve, Option.elim, hencode, hlen, hcopy]

theorem udp_reply_of_discover :
    (∃ reply p, (homeRouter.routeIp4 (dialogue []) 0 (toServer 0 (BitVec.allOnes 32) discoverBytes)).1 =
        .ok (.toLan .ipv4 (.v4 0) reply) ∧
      reply.length = 308 ∧ Ipv4Packet.parse reply = .ok p ∧ p.protocol = 17) ∧
    ∃ reply p, (homeRouter.routeIp4 (dialogue (List.replicate 20 0)) 0
        (toServer 0 (BitVec.allOnes 32) discoverBytes)).1 = .ok (.toLan .ipv4 (.v4 0) reply) ∧
      reply.length = 328 ∧ Ipv4Packet.parse reply = .ok p ∧ p.protocol = 17 := by
  have hto := toPort_toServer 0 (Or.inr rfl) discoverBytes
  constructor
  · obtain ⟨reply, p, -, haction, hsize, hparse, hproto, -⟩ :=
      udp_reply (dialogue []) 0 homeRouter _ _ _ _ _ _ hto (handlePort_discover [] (by decide)) (by decide) (by decide)
    exact ⟨reply, p, haction, hsize, hparse, hproto⟩
  · obtain ⟨reply, p, -, haction, hsize, hparse, hproto, -⟩ :=
      udp_reply (dialogue (List.replicate 20 0)) 0 homeRouter _ _ _ _ _ _ hto
        (handlePort_discover (List.replicate 20 0) (by decide)) (by decide) (by decide)
    exact ⟨reply, p, haction, hsize, hparse, hproto⟩

/-! ## No answer -/

/-- The handler of a port has nothing to send. -/
def Quiet (api : Dhcproto) (handler : PortHandler) (q : List Byte) : Prop :=
  (handler.handlePort api (q.drop 8) (List.replicate 1532 0)).1 = .ok 0

/-- A port handler with nothing to send is answered for with a UDP header. -/
theorem routeIp4_quiet {api : Dhcproto} (id : BitVec 16) {r : Router} {pkt : Ipv4Packet} {q : List Byte}
    {handler : PortHandler} (hto : r.ToPort pkt q handler) (hquiet : Quiet api handler q) :
    (r.routeIp4 api id pkt).1 =
      .ok (.toLan .ipv4 (.v4 pkt.src) (replyPacket id pkt (udpMessage (be16At q 2) (be16At q 0) []))) := by
  unfold Quiet at hquiet
  cases hrun : handler.handlePort api (q.drop 8) (List.replicate 1532 0) with | mk len rest
  obtain ⟨handler', tail⟩ := rest
  rw [hrun] at hquiet
  simp only at hquiet
  subst hquiet
  exact (routeIp4_udp id hto hrun (Nat.zero_le _)).2

theorem quiet_unanswered {api : Dhcproto} (server : DhcpServer) {q : List Byte} {m : Message}
    (hdecode : api.decode (q.drop 8) = .ok m) (hty : m.msgType ≠ none) (hother : DhcpServer.answerType m = none) :
    Quiet api (.dhcp server) q := by
  show (server.handlePort api (q.drop 8) (List.replicate 1532 0)).1 = .ok 0
  rw [DhcpServer.handlePort_unanswered api server hdecode hty hother]

/-- **No answer is no packet only for what comes from the WAN and from an unknown host.**  The length zero of a port
handler passes the UDP handler as eight, so that the router sends a UDP packet without data, which is written to the
switch unless there is no hardware address to send it to.  The handler of the DHCP server returns zero on every message
it decodes and does not answer. -/
theorem quiet_port_written_iff (api : Dhcproto) (id : BitVec 16) (r : Router) (msg : RouterMsg) (pkt : Ipv4Packet)
    (q : List Byte) (handler : PortHandler) (hto : r.ToPort pkt q handler) (hbrings : Brings msg pkt) :
    (∀ server m, handler = .dhcp server → api.decode (q.drop 8) = .ok m → m.msgType ≠ none →
      DhcpServer.answerType m = none → Quiet api handler q) ∧
    (Quiet api handler q →
      (r.written api id msg = [] ↔ (∃ p whole, msg = .fromWan4 p whole) ∧ r.arp.get (.v4 pkt.src) = none)) := by
  constructor
  · rintro server m rfl hdecode hty hother
    exact quiet_unanswered server hdecode hty hother
  · intro hquiet
    rw [written_reply hbrings (routeIp4_quiet id hto hquiet)]
    cases msg with
    | fromLan frame => simp [frameFor, answerTo]
    | fromWan4 p whole =>
      have hwan : ∃ p' whole', RouterMsg.fromWan4 p whole = .fromWan4 p' whole' := ⟨p, whole, rfl⟩
      simp only [hwan, true_and]
      simp [frameFor, answerTo]

/-- A Release of the first client, in its frame. -/
def releaseFrame : EthernetPacket :=
  ⟨⟨guestMac 0xFF, guestMac 1, .ipv4⟩, (toServer 0x0A000064 0x0A000001 releaseBytes).data⟩

theorem quiet_release :
    Quiet (dialogue []) (.dhcp (homeServer [0x0A000064] Table.empty))
      ([0, 68, 0, 67, 0, 252, 0, 0] ++ releaseBytes) := by
  have hne : releaseBytes ≠ discoverBytes := by
    unfold releaseBytes discoverBytes
    rw [Ne, List.append_right_inj]
    decide
  have hdecode : (dialogue []).decode releaseBytes = .ok (clientMsg .release 1 none) := by simp [dialogue, hne]
  exact quiet_unanswered _ hdecode (by decide) (by decide)

theorem quiet_port_from_unknown :
    homeRouter.written (dialogue []) 0 (.fromWan4 (toServer 0x0A000064 0x0A000001 releaseBytes)
      (Ipv4Packet.datagram_length _ _ _ _)) = [] :=
  ((quiet_port_written_iff (dialogue []) 0 homeRouter _ _ _ _ (toPort_toServer 0x0A000064 (Or.inl rfl) releaseBytes)
    (by exact rfl)).2 quiet_release).2 ⟨⟨_, _, rfl⟩, rfl⟩

/-- **A Release is answered** with a UDP packet of no data. -/
theorem release_answered :
    Brings (.fromLan releaseFrame) (toServer 0x0A000064 0x0A000001 releaseBytes) ∧
      homeRouter.ToPort (toServer 0x0A000064 0x0A000001 releaseBytes) ([0, 68, 0, 67, 0, 252, 0, 0] ++ releaseBytes)
        (.dhcp (homeServer [0x0A000064] Table.empty)) ∧
      Quiet (dialogue []) (.dhcp (homeServer [0x0A000064] Table.empty)) ([0, 68, 0, 67, 0, 252, 0, 0] ++ releaseBytes) ∧
      homeRouter.written (dialogue []) 0 (.fromLan releaseFrame) ≠ [] := by
  have hbrings : Brings (.fromLan releaseFrame) (toServer 0x0A000064 0x0A000001 releaseBytes) :=
    ⟨rfl, Ipv4Packet.parse_datagram _ _ _ _⟩
  have hto := toPort_toServer 0x0A000064 (Or.inl rfl) releaseBytes
  refine ⟨hbrings, hto, quiet_release, ?_⟩
  rw [written_reply hbrings (routeIp4_quiet 0 hto quiet_release)]
  simp [frameFor, answerTo]

end Router
end Oathgate
