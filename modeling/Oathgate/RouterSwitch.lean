import Oathgate.RouterRun
/-!
# RouterSwitch — the router's answers through the switch

A guest's frame teaches the switch the guest's port; the router answers through a port of its own, with the guest's
address as the destination.  Whatever the other devices send in between, as long as none of them claims the guest's
address, the answer is enqueued on the guest's port and nowhere else (`answer_reaches_asker`).
-/
namespace Oathgate

open Lib

namespace VirtioSwitch

/-- **An address keeps its port** as long as only that port sends from it. -/
theorem learned_kept {s t : VirtioSwitch} {mac : MacAddress} {p : Nat} {ops : List Op} (hget : s.cache.get mac = some p)
    (hrun : Run Step s ops t) (honly : ∀ op ∈ ops, op.source = some mac → op.port = p) :
    t.cache.get mac = some p := by
  refine Run.invariant (I := fun ops t => (∀ op ∈ ops, op.source = some mac → op.port = p) → t.cache.get mac = some p)
    (fun _ => hget) ?_ hrun honly
  intro ops t op u _ ih hstep honly
  have hbefore := ih fun op' hop' => honly op' (List.mem_append_left _ hop')
  cases op with
  | connect dev port =>
    simp only [Step, connect, Prod.mk.injEq] at hstep
    rw [← hstep.2]
    exact hbefore
  | process port pkt =>
    simp only [Step] at hstep
    rw [← hstep, cache_process, Table.get_record]
    by_cases hsrc : sourceOf pkt = some mac
    · have hport : port = p := honly (.process port pkt) (by simp) hsrc
      rw [if_pos hsrc, hport]
    · rw [if_neg hsrc]
      exact hbefore

theorem length_ports_run {s t : VirtioSwitch} {ops : List Op} (hrun : Run Step s ops t) :
    s.ports.length ≤ t.ports.length := by
  refine Run.invariant (I := fun _ t => s.ports.length ≤ t.ports.length) (Nat.le_refl _) ?_ hrun
  intro ops t op u _ ih hstep
  cases op with
  | connect dev port =>
    simp only [Step, connect, Prod.mk.injEq] at hstep
    rw [← hstep.2, List.length_append]
    omega
  | process port pkt =>
    simp only [Step] at hstep
    rw [← hstep, length_ports_process]
    exact ih

end VirtioSwitch

namespace Router

open VirtioSwitch (Op new)

/-- **A frame on its way to the router.**  It arrived on port `p`, after the calls `before` of a switch to which the
router is connected, and was delivered to the router; the calls `between` happened since.  Its source is neither the
broadcast address nor the router's, and no other port has sent from it since. -/
structure Asked (r : Router) (before between : List Op) (p : Nat) (pkt : EthernetPacket) : Prop where
  connected : ∃ dev, Op.connect dev r.port ∈ before
  uses_ports : VirtioSwitch.UsesPorts (before ++ [.process p (pkt.frame.wire ++ pkt.payload)])
  port_ne : p ≠ r.port
  arrived : ∃ s, Run VirtioSwitch.Step new before s ∧
    (send p s pkt).ports[r.port]? = s.ports[r.port]?.map (fun dev => dev ++ [pkt]) ∧
    Run VirtioSwitch.Step (send p s pkt) between r.switch
  src_unicast : pkt.frame.src ≠ MacAddress.broadcast
  src_foreign : pkt.frame.src ≠ r.mac
  only_asker : ∀ op ∈ between, op.source = some pkt.frame.src → op.port = p

/-- **The router answers a frame itself**: an ARP request, or a packet to the router's own or the broadcast address
that a protocol handler replies to. -/
def Answers (api : Dhcproto) (id : BitVec 16) (r : Router) (pkt : EthernetPacket) (ty : EtherType) (reply : List Byte) :
    Prop :=
  (∃ dstIp r', r.actionFor api id pkt = (.ok (.toLan ty dstIp reply), r')) ∧
    (pkt.frame.ethertype = .ipv4 → ∀ p, Ipv4Packet.parse pkt.payload = .ok p →
      p.dest = r.network.ip ∨ p.dest = BitVec.allOnes 32)

/-- **The switch still knows the asker** when the router comes to its frame. -/
theorem Asked.learned {r : Router} {before between : List Op} {p : Nat} {pkt : EthernetPacket}
    (h : Asked r before between p pkt) : r.switch.cache.get pkt.frame.src = some p ∧ p < r.switch.ports.length := by
  obtain ⟨s, hbefore, -, hbetween⟩ := h.arrived
  have hlearn : (send p s pkt).cache.get pkt.frame.src = some p := by
    unfold send
    rw [VirtioSwitch.process_ok, VirtioSwitch.cache_deliver]
    exact Table.get_insert_self _ _ _
  refine ⟨VirtioSwitch.learned_kept hlearn hbetween h.only_asker, ?_⟩
  obtain ⟨dev, hdev⟩ := h.uses_ports before p _ [] rfl
  have hlt := VirtioSwitch.connected_run hbefore dev p hdev
  have hlen : (send p s pkt).ports.length = s.ports.length := VirtioSwitch.length_ports_process _ _ _
  have hle := VirtioSwitch.length_ports_run hbetween
  omega

/-- **Local answers reach the asker.**  When the router answers a frame itself, it writes one frame, from its own
address to the frame's source; the switch enqueues it on the port the question came from and on no other, and then
knows the router on the router's port and the asker on the asker's. -/
theorem answer_reaches_asker (api : Dhcproto) (id : BitVec 16) (r : Router) (before between : List Op) (p : Nat)
    (pkt : EthernetPacket) (ty : EtherType) (reply : List Byte) (hasked : Asked r before between p pkt)
    (hanswer : Answers api id r pkt ty reply) :
    r.written api id (.fromLan pkt) = [⟨⟨pkt.frame.src, r.mac, ty⟩, reply⟩] ∧
    p < r.switch.ports.length ∧
    (∀ q, (r.handleMsg api id (.fromLan pkt)).2.switch.ports[q]? =
      if q = p then r.switch.ports[q]?.map (fun dev => dev ++ [⟨⟨pkt.frame.src, r.mac, ty⟩, reply⟩])
      else r.switch.ports[q]?) ∧
    (r.handleMsg api id (.fromLan pkt)).2.switch.cache.get r.mac = some r.port ∧
    (r.handleMsg api id (.fromLan pkt)).2.switch.cache.get pkt.frame.src = some p := by
  obtain ⟨hsrc, hlt⟩ := hasked.learned
  obtain ⟨⟨dstIp, r', hfor⟩, -⟩ := hanswer
  have haction : r.actionOf api id (.fromLan pkt) = (.ok (.toLan ty dstIp reply), r') := hfor
  obtain ⟨handlers, wan, hstate⟩ := handleMsg_state api id r (.fromLan pkt)
  obtain ⟨handlers', hr'⟩ := actionOf_state api id r (.fromLan pkt)
  have hmac : r'.mac = r.mac := by
    rw [haction] at hr'
    simp only at hr'
    rw [hr']
  have hwritten : r.written api id (.fromLan pkt) = [⟨⟨pkt.frame.src, r.mac, ty⟩, reply⟩] := by
    rw [← hmac]
    exact (handleMsg_toLan haction).1
  -- the router re-enters the switch through its own port, which teaches it the router and keeps the asker
  have hswitch : (r.handleMsg api id (.fromLan pkt)).2.switch =
      (r.switch.associatePort r.port r.mac).enqueue p ⟨⟨pkt.frame.src, r.mac, ty⟩, reply⟩ := by
    rw [hstate, hwritten]
    simp only [List.foldl_cons, List.foldl_nil, send]
    rw [VirtioSwitch.process_ok]
    apply VirtioSwitch.deliver_learned _ _ _ _ hasked.src_unicast
    · exact (Table.get_insert_of_ne _ _ hasked.src_foreign).trans hsrc
    · exact hlt
  rw [hswitch]
  refine ⟨hwritten, hlt, ?_, ?_, ?_⟩
  · intro q
    rw [VirtioSwitch.getElem?_ports_enqueue]
    rfl
  · exact Table.get_insert_self _ _ _
  · exact (Table.get_insert_of_ne _ _ hasked.src_foreign).trans hsrc

/-- A switch with the router on its first port and a guest on its second. -/
def homeSwitch : VirtioSwitch := ⟨[[], []], Table.empty⟩

/-- What the router answers to `homeRequest`. -/
def homeReply : List Byte :=
  [0, 1, 8, 0, 6, 4, 0, 2] ++ (guestMac 0xFF).octets ++ [10, 0, 0, 1] ++ (guestMac 1).octets ++ [10, 0, 0, 100]

theorem answers_homeRequest (switch : VirtioSwitch) :
    Answers decodedOnly 0 { homeRouter with switch } homeRequest .arp homeReply := by
  have hparse : ArpPacket.parse homeRequest.payload = .ok ⟨1, .ipv4, 6, 4, 1, guestMac 1, .v4 0x0A000064,
      ⟨List.replicate 6 0, rfl⟩, .v4 0x0A000001⟩ := rfl
  have hbytes : (ArpPacket.mk 1 .ipv4 6 4 2 (guestMac 0xFF) (.v4 0x0A000001) (guestMac 1) (.v4 0x0A000064)).asBytes
      (List.replicate 28 0) = (.ok homeReply : Res ProtocolError (List Byte)) := by decide
  exact ⟨⟨_, _, handleArp_answer _ hparse rfl hbytes⟩, fun h => by cases h⟩

theorem answer_reaches_first_host :
    (({ homeRouter with switch := send 1 homeSwitch homeRequest } : Router).handleMsg decodedOnly 0
      (.fromLan homeRequest)).2.switch.ports[1]? = some [⟨⟨guestMac 1, guestMac 0xFF, .arp⟩, homeReply⟩] := by
  have hasked : Asked { homeRouter with switch := send 1 homeSwitch homeRequest } [.connect [] 0, .connect [] 1] [] 1
      homeRequest := by
    refine ⟨⟨[], List.mem_cons_self⟩, ?_, by decide, ⟨homeSwitch, .cons rfl <| .cons rfl .nil, rfl, .nil⟩, by decide,
      by decide, by simp⟩
    refine (VirtioSwitch.usesPorts_snoc _ _).2 ⟨VirtioSwitch.usesPorts_of_connects (by simp), ?_⟩
    rintro port pkt ⟨⟩
    exact ⟨[], by simp⟩
  rw [(answer_reaches_asker decodedOnly 0 _ _ _ 1 homeRequest .arp homeReply hasked (answers_homeRequest _)).2.2.1 1]
  rfl

end Router
end Oathgate
