import Oathgate.NetArpCodec
import Oathgate.RouterRun
/-!
# RouterArp — the ARP responder (`oathgate-bridge`: `net/router.rs`, `Router::handle_arp`)

Every accepted ARP packet teaches the router its sender, and one that asks for the router is answered in one frame.
The responder fails only with the decoder: an ARP packet that does not fit its own lengths ends the thread of the
router (`arp_responder_iff`).
-/
namespace Oathgate

open Lib

namespace Router

/-- The packet asks for the router's own address, or for every host. -/
def AsksRouter (r : Router) (arp : ArpPacket) : Prop :=
  arp.tpa = .v4 r.network.ip ∨ arp.tpa = .v4 (BitVec.allOnes 32)

instance (r : Router) (arp : ArpPacket) : Decidable (r.AsksRouter arp) :=
  inferInstanceAs (Decidable (_ ∨ _))

/-- The answer to a request: the requested address is at the router. -/
structure IsReply (r : Router) (arp : ArpPacket) (reply : List Byte) : Prop where
  length : reply.length = 28
  parses : ∃ p, ArpPacket.parse reply = .ok p ∧ p.operation = 2 ∧ p.sha = r.mac ∧ p.spa = arp.tpa ∧ p.tha = arp.sha ∧
    p.tpa = arp.spa

/-- **What an ARP responder does** with a payload: nothing when the decoder rejects it, and else it learns the sender
and answers what asks for the router, to the frame's source and once. -/
def Responds (api : Dhcproto) (id : BitVec 16) (r : Router) (pkt : EthernetPacket) : Prop :=
  ((∃ e, ArpPacket.parse pkt.payload = .err e) →
    (r.handleMsg api id (.fromLan pkt)).2.arp = r.arp ∧ r.written api id (.fromLan pkt) = []) ∧
  ((¬ ∃ e, ArpPacket.parse pkt.payload = .err e) → ∃ arp, ArpPacket.parse pkt.payload = .ok arp ∧
    (r.handleMsg api id (.fromLan pkt)).2.arp = r.arp.insert arp.spa arp.sha ∧
    if r.AsksRouter arp then
      ∃ reply, r.written api id (.fromLan pkt) = [⟨⟨pkt.frame.src, r.mac, .arp⟩, reply⟩] ∧ r.IsReply arp reply
    else r.written api id (.fromLan pkt) = [])

theorem asksRouter_iff (r : Router) (arp : ArpPacket) :
    (r.isLocal arp.tpa || isGlobalBroadcast arp.tpa) = true ↔ r.AsksRouter arp := by
  unfold AsksRouter
  rw [Bool.or_eq_true]
  cases arp.tpa with
  | v6 ip =>
    constructor
    · rintro (h | h) <;> cases h
    · rintro (h | h) <;> cases h
  | v4 ip =>
    rw [IpAddr.v4.injEq, IpAddr.v4.injEq]
    exact or_congr (beq_iff_eq.trans eq_comm) beq_iff_eq

theorem wellFormed_toReply {arp : ArpPacket} (h : arp.WellFormed) (mac : MacAddress) :
    (arp.toReply mac).WellFormed := by
  obtain ⟨hhw, hhl, ⟨hty, hpl, spa, tpa, hs, ht⟩ | ⟨hty, hpl, spa, tpa, hs, ht⟩⟩ := h
  · exact ⟨hhw, hhl, Or.inl ⟨hty, hpl, tpa, spa, ht, hs⟩⟩
  · exact ⟨hhw, hhl, Or.inr ⟨hty, hpl, tpa, spa, ht, hs⟩⟩

/-- The router asks and is asked in the addresses of IPv4. -/
theorem AsksRouter.size {r : Router} {arp : ArpPacket} (h : r.AsksRouter arp) (hv : arp.SameVersion) :
    arp.size = 28 := by
  rcases hv with ⟨spa, tpa, hs, ht⟩ | ⟨spa, tpa, hs, ht⟩
  · simp [ArpPacket.size, hs, ht]
  · rw [AsksRouter, ht] at h
    rcases h with h | h <;> cases h

theorem isReply_wire {r : Router} {arp : ArpPacket} (hwf : arp.WellFormed) (hasks : r.AsksRouter arp) :
    r.IsReply arp (arp.toReply r.mac).wire := by
  have hreply := wellFormed_toReply hwf r.mac
  constructor
  · rw [ArpPacket.length_wire hreply.sameVersion, hwf.sameVersion.size_toReply]
    exact hasks.size hwf.sameVersion
  · exact ⟨_, ArpPacket.parse_wire hreply, rfl, rfl, rfl, rfl, rfl⟩

theorem actionFor_arp (api : Dhcproto) (id : BitVec 16) (r : Router) {pkt : EthernetPacket}
    (hty : pkt.frame.ethertype = .arp) : r.actionFor api id pkt = r.handleArp pkt.payload := by
  unfold actionFor
  rw [hty]

theorem handleMsg_arp (api : Dhcproto) (id : BitVec 16) (r : Router) {pkt : EthernetPacket}
    (hty : pkt.frame.ethertype = .arp) :
    (r.handleMsg api id (.fromLan pkt)).2.arp = learnFrom (acceptedArp pkt.payload) r.arp := by
  obtain ⟨handlers, wan, hstate⟩ := handleMsg_state api id r (.fromLan pkt)
  rw [hstate, arpOf, if_pos hty]

theorem written_arp (api : Dhcproto) (id : BitVec 16) (r : Router) {pkt : EthernetPacket} {arp : ArpPacket}
    (hty : pkt.frame.ethertype = .arp) (hparse : ArpPacket.parse pkt.payload = .ok arp) :
    r.written api id (.fromLan pkt) =
      if r.AsksRouter arp then [⟨⟨pkt.frame.src, r.mac, .arp⟩, (arp.toReply r.mac).wire⟩] else [] := by
  have hwf := ArpPacket.wellFormed_of_parse hparse
  have hv := hwf.sameVersion
  by_cases hasks : r.AsksRouter arp
  · have hbytes : ((arp.toReply r.mac).asBytes (List.replicate arp.size 0) : Res ProtocolError _) =
        .ok (arp.toReply r.mac).wire :=
      ArpPacket.asBytes_wire (hv.toReply r.mac) (by rw [List.length_replicate, hv.size_toReply])
    have haction : r.actionOf api id (.fromLan pkt) = (.ok (.toLan .arp arp.spa (arp.toReply r.mac).wire),
        { r with arp := r.arp.insert arp.spa arp.sha }) :=
      (actionFor_arp api id r hty).trans (handleArp_answer r hparse ((asksRouter_iff r arp).2 hasks) hbytes)
    rw [if_pos hasks, (handleMsg_toLan haction).1]
    rfl
  · have hnot : (({ r with arp := r.arp.insert arp.spa arp.sha } : Router).isLocal arp.tpa ||
        isGlobalBroadcast arp.tpa) = false := by
      rw [← Bool.not_eq_true]
      exact fun h => hasks ((asksRouter_iff r arp).1 h)
    have haction : r.actionOf api id (.fromLan pkt) =
        (.ok (.drop pkt.payload), { r with arp := r.arp.insert arp.spa arp.sha }) := by
      refine (actionFor_arp api id r hty).trans ?_
      unfold handleArp
      rw [hparse, Res.andThen_ok]
      dsimp only
      rw [hnot]
      rfl
    rw [if_neg hasks]
    unfold written
    rw [haction]
    rfl

/-- A payload that is not decoded gives no action. -/
theorem written_arp_bad (api : Dhcproto) (id : BitVec 16) (r : Router) {pkt : EthernetPacket} {e : ProtocolError}
    (hty : pkt.frame.ethertype = .arp) (hparse : ArpPacket.parse pkt.payload = .err e) :
    r.written api id (.fromLan pkt) = [] := by
  have haction : r.actionOf api id (.fromLan pkt) = (.err e, r) := by
    refine (actionFor_arp api id r hty).trans ?_
    unfold handleArp
    rw [hparse]
    rfl
  unfold written
  rw [haction]

/-- **The ARP responder does what it should exactly on the payloads that fit their lengths.**  For every state of the
router and every ARP payload in a LAN frame the frames it writes are what reaches the switch, and it rejects, learns
and answers as a responder does if and only if the decoder returns. -/
theorem arp_responder_iff (api : Dhcproto) (id : BitVec 16) (r : Router) (pkt : EthernetPacket)
    (hty : pkt.frame.ethertype = .arp) :
    (r.handleMsg api id (.fromLan pkt)).2.switch =
      (r.written api id (.fromLan pkt)).foldl (send r.port) r.switch ∧
    (r.Responds api id pkt ↔ ArpPacket.Fits pkt.payload) := by
  constructor
  · obtain ⟨handlers, wan, hstate⟩ := handleMsg_state api id r (.fromLan pkt)
    rw [hstate]
  have hlearn := handleMsg_arp api id r hty
  rw [← ArpPacket.returns_parse]
  unfold Responds
  cases hparse : ArpPacket.parse pkt.payload with
  | err e =>
    have hnone : acceptedArp pkt.payload = none := by
      unfold acceptedArp
      rw [hparse]
    rw [hnone] at hlearn
    refine iff_of_true ⟨fun _ => ⟨hlearn, written_arp_bad api id r hty hparse⟩, ?_⟩ (Res.returns_err e)
    exact fun h => absurd ⟨e, rfl⟩ h
  | panic p =>
    refine iff_of_false ?_ (Res.not_returns_panic p)
    rintro ⟨-, h⟩
    obtain ⟨arp, harp, -⟩ := h (fun ⟨e, he⟩ => by cases he)
    cases harp
  | ok arp =>
    have hsome : acceptedArp pkt.payload = some arp := by
      unfold acceptedArp
      rw [hparse]
    rw [hsome] at hlearn
    refine iff_of_true ⟨?_, fun _ => ⟨arp, rfl, hlearn, ?_⟩⟩ (Res.returns_ok arp)
    · rintro ⟨e, he⟩
      cases he
    have hwritten := written_arp api id r hty hparse
    by_cases hasks : r.AsksRouter arp
    · rw [if_pos hasks] at hwritten ⊢
      exact ⟨_, hwritten, isReply_wire (ArpPacket.wellFormed_of_parse hparse) hasks⟩
    · rw [if_neg hasks] at hwritten ⊢
      exact hwritten

theorem arp_responder_of_request :
    homeRouter.Responds decodedOnly 0 homeRequest :=
  (arp_responder_iff decodedOnly 0 homeRouter homeRequest rfl).2.2
    ((ArpPacket.returns_parse _).1 (Res.returns_ok _))

/-- **A packet that announces long addresses ends the router's thread**: it is neither rejected nor learned. -/
theorem long_addresses_end_router :
    (homeRouter.handleMsg decodedOnly 0
        (.fromLan ⟨⟨MacAddress.broadcast, guestMac 1, .arp⟩, ArpPacket.longAddresses⟩)).1 = .panic .outOfRange ∧
      ¬ homeRouter.Responds decodedOnly 0 ⟨⟨MacAddress.broadcast, guestMac 1, .arp⟩, ArpPacket.longAddresses⟩ := by
  have hpanic : ArpPacket.parse ArpPacket.longAddresses = .panic .outOfRange := rfl
  refine ⟨rfl, ?_⟩
  rintro ⟨-, h⟩
  obtain ⟨arp, harp, -⟩ := h (fun ⟨e, he⟩ => by rw [hpanic] at he; cases he)
  rw [hpanic] at harp
  cases harp

end Router
end Oathgate
