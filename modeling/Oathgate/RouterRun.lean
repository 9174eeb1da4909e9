import Oathgate.RouterSafe
/-!
# RouterRun — the loop of the router (`oathgate-bridge`: `net/router.rs`, `Router::run`)

One thread handles the messages of the LAN and the WAN one after another, while the other devices use the switch.  A
message that panics ends the thread; an error is logged and the loop goes on.  On the ARP table every step is the
record of the ARP packet it accepted, if any (`arp_step`), so that a packet from the WAN goes to the sender of the last
one that named its destination (`wan_packet_goes_to_last_sender`).
-/
namespace Oathgate

open Lib

/-- `RouterMsg`.  Every packet of the WAN was parsed, and so has the twenty bytes of a header. -/
inductive RouterMsg where
  | fromLan (pkt : EthernetPacket)
  | fromWan4 (pkt : Ipv4Packet) (whole : 20 ≤ pkt.data.length)

namespace Router

/-- One turn of the loop in `Router::run`. -/
def handleMsg (api : Dhcproto) (id : BitVec 16) (r : Router) : RouterMsg → Res ProtocolError Unit × Router
  | .fromLan pkt => r.route api id pkt
  | .fromWan4 pkt _ => r.routeWan api id pkt

/-! ## What a message writes to the switch -/

/-- The action for a message. -/
def actionOf (api : Dhcproto) (id : BitVec 16) (r : Router) : RouterMsg → Res ProtocolError RouterAction × Router
  | .fromLan pkt => r.actionFor api id pkt
  | .fromWan4 pkt _ => r.routeIp4 api id pkt

/-- The address `Router::run` gives `handle_action`. -/
def answerTo : RouterMsg → Option MacAddress
  | .fromLan pkt => some pkt.frame.src
  | .fromWan4 .. => none

/-- The frame `handle_action` hands to `write_to_switch`. -/
def frameFor (r : Router) (dst : Option MacAddress) : RouterAction → Option EthernetPacket
  | .toLan ethertype dstIp pkt => (dst.or (r.arp.get dstIp)).map fun dst => ⟨⟨dst, r.mac, ethertype⟩, pkt⟩
  | .toWan _ => none
  | .drop _ => none

/-- **The frames the router writes to the switch for a message.** -/
def written (api : Dhcproto) (id : BitVec 16) (r : Router) (msg : RouterMsg) : List EthernetPacket :=
  match r.actionOf api id msg with
  | (.ok action, r) => (r.frameFor (answerTo msg) action).toList
  | _ => []

/-- The router's call of the switch for a frame. -/
def send (port : Nat) (switch : VirtioSwitch) (pkt : EthernetPacket) : VirtioSwitch :=
  (switch.process port (pkt.frame.wire ++ pkt.payload)).2

theorem handleMsg_eq (api : Dhcproto) (id : BitVec 16) (r : Router) (msg : RouterMsg) :
    r.handleMsg api id msg =
      Res.andThen (r.actionOf api id msg) fun action r => r.handleAction action (answerTo msg) := by
  cases msg with
  | fromLan pkt => rfl
  | fromWan4 pkt whole => rfl

theorem writeToSwitch_eq (r : Router) (dst : MacAddress) (ty : EtherType) (pkt : List Byte) (h : 20 ≤ pkt.length) :
    r.writeToSwitch dst ty pkt = (.ok (), { r with switch := send r.port r.switch ⟨⟨dst, r.mac, ty⟩, pkt⟩ }) := by
  have hlen : 34 ≤ (dst.asBytes ++ r.mac.asBytes ++ toBe16 ty.asU16 ++ pkt).length := by
    simp [MacAddress.asBytes, toBe16, dst.length_octets, r.mac.length_octets]
    omega
  have hwire :
      dst.asBytes ++ r.mac.asBytes ++ toBe16 ty.asU16 ++ pkt = EthernetFrame.wire ⟨dst, r.mac, ty⟩ ++ pkt := rfl
  unfold writeToSwitch
  simp only
  rw [slice_eq _ 14 34 (by omega) hlen, Res.andThen_ok, hwire, VirtioSwitch.process_ok]
  unfold send
  rw [VirtioSwitch.process_ok]

/-! ## What the action changes -/

/-- **A packet for the router** is dropped, answered or ends the router; only the handlers change. -/
theorem handleLocalIpv4_cases (api : Dhcproto) (id : BitVec 16) (r : Router) (pkt : Ipv4Packet) :
    (∃ handlers, (r.handleLocalIpv4 api id pkt).2 = { r with ip4Handlers := handlers }) ∧
      ((r.handleLocalIpv4 api id pkt).1 = .ok (.drop []) ∨ (∃ p, (r.handleLocalIpv4 api id pkt).1 = .panic p) ∨
        ∃ rpkt, (r.handleLocalIpv4 api id pkt).1 = buildReply id pkt rpkt) := by
  unfold handleLocalIpv4
  cases r.ip4Handlers.get pkt.protocol with
  | none => exact ⟨⟨r.ip4Handlers, rfl⟩, Or.inl rfl⟩
  | some handler =>
    simp only
    rw [sliceFrom_eq _ 20 (by rw [List.length_replicate]; omega), Res.andThen_ok]
    cases (handler.handleProtocol api pkt ((List.replicate 1560 (0 : Byte)).drop 20)).1 with
    | err e => exact ⟨⟨_, rfl⟩, Or.inl rfl⟩
    | panic p => exact ⟨⟨_, rfl⟩, Or.inr (Or.inl ⟨p, rfl⟩)⟩
    | ok res =>
      obtain ⟨sz, buf⟩ := res
      cases sz with
      | zero => exact ⟨⟨_, rfl⟩, Or.inl rfl⟩
      | succ sz => exact ⟨⟨_, rfl⟩, Or.inr (Or.inr ⟨_, rfl⟩)⟩

/-- **A packet to another host of the network** is sent to the LAN as it is. -/
theorem routeIp4_toLan (api : Dhcproto) (id : BitVec 16) (r : Router) (pkt : Ipv4Packet)
    (hnet : r.network.contains pkt.dest = true) (hself : pkt.dest ≠ r.network.ip)
    (hbcast : pkt.dest ≠ BitVec.allOnes 32) :
    r.routeIp4 api id pkt = (.ok (.toLan .ipv4 (.v4 pkt.dest) pkt.data), r) := by
  have hlocal : r.isLocal (.v4 pkt.dest) = false := by simpa [isLocal] using Ne.symm hself
  have hglobal : isBroadcastV4 pkt.dest = false := by simpa [isBroadcastV4] using hbcast
  unfold routeIp4
  rw [hnet, hlocal, hglobal]
  rfl

theorem routeIp4_state (api : Dhcproto) (id : BitVec 16) (r : Router) (pkt : Ipv4Packet) :
    ∃ handlers, (r.routeIp4 api id pkt).2 = { r with ip4Handlers := handlers } := by
  unfold routeIp4
  split
  · split
    · exact (handleLocalIpv4_cases api id r pkt).1
    · exact ⟨r.ip4Handlers, rfl⟩
  · exact ⟨r.ip4Handlers, rfl⟩

/-- The ARP packet in a payload, when `ArpPacket::parse` accepts it. -/
def acceptedArp (payload : List Byte) : Option ArpPacket :=
  match ArpPacket.parse payload with
  | .ok arp => some arp
  | .err _ => none
  | .panic _ => none

/-- The ARP packet a message brings from the LAN. -/
def arpOf : RouterMsg → Option ArpPacket
  | .fromLan pkt => if pkt.frame.ethertype = .arp then acceptedArp pkt.payload else none
  | .fromWan4 .. => none

/-- The table after a message: the sender of the ARP packet it brings. -/
def learnFrom (arp : Option ArpPacket) (table : Table IpAddr MacAddress) : Table IpAddr MacAddress :=
  arp.elim table fun arp => table.insert arp.spa arp.sha

theorem handleArp_state (r : Router) (payload : List Byte) :
    (r.handleArp payload).2 = { r with arp := learnFrom (acceptedArp payload) r.arp } := by
  unfold handleArp acceptedArp
  cases ArpPacket.parse payload with
  | err e => rfl
  | panic p => rfl
  | ok arp =>
    rw [Res.andThen_ok]
    dsimp only
    split
    · apply Res.andThen_keeps (P := fun s : Router => s = { r with arp := r.arp.insert arp.spa arp.sha })
      · rfl
      · exact fun _ _ h => h
    · rfl

/-- **An ARP packet for the router is answered** to its sender, with the bytes of the reply. -/
theorem handleArp_answer (r : Router) {payload rpkt : List Byte} {arp : ArpPacket}
    (hparse : ArpPacket.parse payload = .ok arp) (hlocal : (r.isLocal arp.tpa || isGlobalBroadcast arp.tpa) = true)
    (hbytes : ((arp.toReply r.mac).asBytes (List.replicate arp.size 0) : Res ProtocolError _) = .ok rpkt) :
    r.handleArp payload = (.ok (.toLan .arp arp.spa rpkt), { r with arp := r.arp.insert arp.spa arp.sha }) := by
  have hcond :
      (({ r with arp := r.arp.insert arp.spa arp.sha } : Router).isLocal arp.tpa || isGlobalBroadcast arp.tpa) =
        true := hlocal
  unfold handleArp
  rw [hparse, Res.andThen_ok]
  dsimp only
  rw [if_pos hcond, hbytes, Res.andThen_ok]
  rfl

/-- **The action changes the table by the ARP packet it accepts**, and otherwise only the handlers. -/
theorem actionOf_state (api : Dhcproto) (id : BitVec 16) (r : Router) (msg : RouterMsg) :
    ∃ handlers, (r.actionOf api id msg).2 = { r with arp := learnFrom (arpOf msg) r.arp, ip4Handlers := handlers } := by
  cases msg with
  | fromWan4 pkt whole => exact routeIp4_state api id r pkt
  | fromLan pkt =>
    obtain ⟨⟨dst, src, ty⟩, payload⟩ := pkt
    cases ty with
    | ipv6 => exact ⟨r.ip4Handlers, rfl⟩
    | arp => exact ⟨r.ip4Handlers, handleArp_state r payload⟩
    | ipv4 =>
      have hkeep : ∃ handlers, (Res.andThen (Ipv4Packet.parse payload, r) fun pkt r => r.routeIp4 api id pkt).2 =
          { r with ip4Handlers := handlers } := by
        apply Res.andThen_keeps (P := fun s : Router => ∃ handlers, s = { r with ip4Handlers := handlers })
        · exact ⟨r.ip4Handlers, rfl⟩
        · rintro p s ⟨handlers, rfl⟩
          exact routeIp4_state api id { r with ip4Handlers := handlers } p
      exact hkeep

/-! ### The packets sent to the LAN are whole -/

theorem sendable_buildReply (id : BitVec 16) (pkt : Ipv4Packet) (rpkt : List Byte) :
    Sendable (buildReply id pkt rpkt) := by
  intro ty dst reply h
  obtain ⟨h20, -, haction⟩ := buildReply_eq_ok.1 h
  cases haction
  rw [Ipv4Header.length_onto _ _ h20]
  exact h20

theorem sendable_routeIp4 (api : Dhcproto) (id : BitVec 16) (r : Router) (pkt : Ipv4Packet)
    (h : 20 ≤ pkt.data.length) : Sendable (r.routeIp4 api id pkt).1 := by
  unfold routeIp4
  split
  · split
    · rcases (handleLocalIpv4_cases api id r pkt).2 with hd | ⟨p, hp⟩ | ⟨rpkt, hr⟩
      · rw [hd]
        exact sendable_drop _
      · rw [hp]
        exact fun _ _ _ h => by cases h
      · rw [hr]
        exact sendable_buildReply id pkt rpkt
    · intro ty dst p hp
      cases hp
      exact h
  · exact fun _ _ _ h => by cases h

/-- **Whatever the router sends to the LAN has the twenty bytes its trace shows.** -/
theorem sendable_actionOf (api : Dhcproto) (id : BitVec 16) (r : Router) (msg : RouterMsg) :
    Sendable (r.actionOf api id msg).1 := by
  cases msg with
  | fromWan4 pkt whole => exact sendable_routeIp4 api id r pkt whole
  | fromLan pkt =>
    unfold actionOf actionFor
    simp only
    cases pkt.frame.ethertype with
    | arp => exact (returns_handleArp r pkt.payload).2
    | ipv6 => exact sendable_drop _
    | ipv4 =>
      simp only
      cases hp : Ipv4Packet.parse pkt.payload with
      | err e => exact fun _ _ _ h => by cases h
      | panic p => exact fun _ _ _ h => by cases h
      | ok p =>
        obtain ⟨h20, -, rfl⟩ := Ipv4Packet.parse_eq_ok hp
        exact sendable_routeIp4 api id r _ h20

theorem handleAction_toLan (r : Router) (ty : EtherType) (dstIp : IpAddr) (pkt : List Byte) (dst : Option MacAddress)
    (h : 20 ≤ pkt.length) :
    r.handleAction (.toLan ty dstIp pkt) dst =
      (.ok (), { r with switch := (r.frameFor dst (.toLan ty dstIp pkt)).toList.foldl (send r.port) r.switch }) := by
  unfold handleAction frameFor
  simp only
  cases dst.or (r.arp.get dstIp) with
  | none => rfl
  | some mac => exact writeToSwitch_eq r mac ty pkt h

theorem handleAction_eq (r : Router) (action : RouterAction) (dst : Option MacAddress) (h : Sendable (.ok action)) :
    ∃ wan, r.handleAction action dst =
      (.ok (), { r with switch := (r.frameFor dst action).toList.foldl (send r.port) r.switch, wan }) := by
  cases action with
  | toWan pkt => exact ⟨_, rfl⟩
  | drop pkt => exact ⟨r.wan, rfl⟩
  | toLan ty dstIp pkt => exact ⟨r.wan, handleAction_toLan r ty dstIp pkt dst (h ty dstIp pkt rfl)⟩

/-- **A message that leads to the LAN** writes the frame of its action, and that is all it does after the action. -/
theorem handleMsg_toLan {api : Dhcproto} {id : BitVec 16} {r r' : Router} {msg : RouterMsg} {ty : EtherType}
    {dstIp : IpAddr} {pkt : List Byte} (h : r.actionOf api id msg = (.ok (.toLan ty dstIp pkt), r')) :
    r.written api id msg = (r'.frameFor (answerTo msg) (.toLan ty dstIp pkt)).toList ∧
      r.handleMsg api id msg =
        (.ok (), { r' with switch := (r.written api id msg).foldl (send r'.port) r'.switch }) := by
  have hsend := sendable_actionOf api id r msg
  rw [h] at hsend
  have hwritten : r.written api id msg = (r'.frameFor (answerTo msg) (.toLan ty dstIp pkt)).toList := by
    unfold written
    rw [h]
  refine ⟨hwritten, ?_⟩
  rw [handleMsg_eq, h, Res.andThen_ok, handleAction_toLan r' ty dstIp pkt _ (hsend ty dstIp pkt rfl), hwritten]

/-- **On the switch a message is the frames it writes**, one call each; on the table it is the ARP packet it brings.
The router's address, network and port stay. -/
theorem handleMsg_state (api : Dhcproto) (id : BitVec 16) (r : Router) (msg : RouterMsg) :
    ∃ handlers wan, (r.handleMsg api id msg).2 =
      { r with
        arp := learnFrom (arpOf msg) r.arp
        switch := (r.written api id msg).foldl (send r.port) r.switch
        ip4Handlers := handlers, wan } := by
  obtain ⟨handlers, hstate⟩ := actionOf_state api id r msg
  have hsend := sendable_actionOf api id r msg
  rw [handleMsg_eq]
  unfold written
  cases hx : r.actionOf api id msg with | mk res r'
  rw [hx] at hstate hsend
  subst hstate
  cases res with
  | err e => exact ⟨handlers, r.wan, rfl⟩
  | panic p => exact ⟨handlers, r.wan, rfl⟩
  | ok action =>
    obtain ⟨wan, h⟩ := handleAction_eq
      { r with arp := learnFrom (arpOf msg) r.arp, ip4Handlers := handlers }
      action (answerTo msg) hsend
    refine ⟨handlers, wan, ?_⟩
    rw [Res.andThen_ok, h]

/-! ## Runs -/

/-- A message of the loop, with the identification drawn for its reply, or a use of the switch by the other devices. -/
inductive Event where
  | handled (id : BitVec 16) (msg : RouterMsg)
  | others (switch : VirtioSwitch)

def Event.arp : Event → Option ArpPacket
  | .handled _ msg => arpOf msg
  | .others _ => none

/-- The thread goes on after a message that returns. -/
def Step (api : Dhcproto) (r : Router) (ev : Event) (r' : Router) : Prop :=
  match ev with
  | .handled id msg => (r.handleMsg api id msg).1.Returns ∧ (r.handleMsg api id msg).2 = r'
  | .others switch => { r with switch } = r'

/-- **One step on the table**: the sender of the ARP packet the step accepted, and nothing else. -/
theorem arp_step {api : Dhcproto} {r r' : Router} {ev : Event} (h : Step api r ev r') :
    r'.arp = learnFrom ev.arp r.arp ∧ r'.mac = r.mac ∧ r'.network = r.network := by
  cases ev with
  | others switch =>
    simp only [Step] at h
    subst h
    exact ⟨rfl, rfl, rfl⟩
  | handled id msg =>
    obtain ⟨-, rfl⟩ := h
    obtain ⟨handlers, wan, hstate⟩ := handleMsg_state api id r msg
    rw [hstate]
    exact ⟨rfl, rfl, rfl⟩

/-- The ARP packets accepted from the LAN, in the order they came. -/
def arpsOf (evs : List Event) : List ArpPacket := evs.filterMap Event.arp

theorem identity_run {api : Dhcproto} {r₀ r : Router} {evs : List Event} (hrun : Run (Step api) r₀ evs r) :
    r.mac = r₀.mac ∧ r.network = r₀.network := by
  refine Run.invariant (I := fun _ r => r.mac = r₀.mac ∧ r.network = r₀.network) ⟨rfl, rfl⟩ ?_ hrun
  intro evs r ev r' _ ih hstep
  obtain ⟨-, hmac, hnet⟩ := arp_step hstep
  exact ⟨hmac.trans ih.1, hnet.trans ih.2⟩

/-- **The table of a run is the log of the accepted ARP packets.** -/
theorem arp_run {api : Dhcproto} {r₀ r : Router} {evs : List Event} (h0 : r₀.arp = Table.empty)
    (hrun : Run (Step api) r₀ evs r) :
    r.arp = (arpsOf evs).foldl (Table.record (fun arp => some arp.spa) (fun arp => arp.sha)) Table.empty := by
  refine Run.invariant (I := fun evs r => r.arp =
    (arpsOf evs).foldl (Table.record (fun arp => some arp.spa) (fun arp => arp.sha)) Table.empty) h0 ?_ hrun
  intro evs r ev r' _ ih hstep
  rw [(arp_step hstep).1, ih]
  unfold arpsOf
  rw [List.filterMap_append, List.foldl_append]
  cases hev : ev.arp with
  | none => simp [learnFrom, hev]
  | some arp => simp [learnFrom, hev, Table.record]

/-! ## Packets to a host of the LAN -/

/-- **WAN packets reach the right host.**  After any run of the loop from an empty table, a packet of the WAN to
another host of the network is written to the switch in exactly one frame, to the sender of the last accepted ARP
packet that named the host, from the router and with the packet's own bytes; and when no ARP packet named the host
nothing is written.  Nothing else of the router changes then, and no step changes the table but the acceptance of an
ARP packet. -/
theorem wan_packet_goes_to_last_sender (api : Dhcproto) (r₀ r : Router) (evs : List Event)
    (h0 : r₀.arp = Table.empty) (hrun : Run (Step api) r₀ evs r) (id : BitVec 16) (pkt : Ipv4Packet)
    (whole : 20 ≤ pkt.data.length) (hnet : r₀.network.contains pkt.dest = true) (hself : pkt.dest ≠ r₀.network.ip)
    (hbcast : pkt.dest ≠ BitVec.allOnes 32) :
    (∀ arp, LastWith (fun arp => arp.spa = .v4 pkt.dest) (arpsOf evs) arp →
      r.written api id (.fromWan4 pkt whole) = [⟨⟨arp.sha, r₀.mac, .ipv4⟩, pkt.data⟩]) ∧
    ((∀ arp ∈ arpsOf evs, arp.spa ≠ .v4 pkt.dest) → r.written api id (.fromWan4 pkt whole) = []) ∧
    r.handleMsg api id (.fromWan4 pkt whole) = (.ok (),
      { r with switch := (r.written api id (.fromWan4 pkt whole)).foldl (send r.port) r.switch }) ∧
    ∀ t ev u, Step api t ev u → ev.arp = none → u.arp = t.arp := by
  obtain ⟨hmac, hnetwork⟩ := identity_run hrun
  rw [← hnetwork] at hnet hself
  have haction : r.actionOf api id (.fromWan4 pkt whole) = (.ok (.toLan .ipv4 (.v4 pkt.dest) pkt.data), r) :=
    routeIp4_toLan api id r pkt hnet hself hbcast
  obtain ⟨hwritten, hmsg⟩ := handleMsg_toLan haction
  have htable := arp_run h0 hrun
  refine ⟨?_, ?_, hmsg, ?_⟩
  · intro arp hlast
    have hget : r.arp.get (.v4 pkt.dest) = some arp.sha := by
      rw [htable, Table.get_foldl_record]
      exact ⟨arp, by simpa using hlast, rfl⟩
    rw [hwritten, ← hmac]
    simp [frameFor, answerTo, hget]
  · intro hnone
    have hget : r.arp.get (.v4 pkt.dest) = none := by
      rw [htable]
      exact Table.get_foldl_record_none _ fun arp harp => by simpa using hnone arp harp
    rw [hwritten]
    simp [frameFor, answerTo, hget]
  · intro t ev u hstep hev
    rw [(arp_step hstep).1, hev]
    rfl

/-- A request for the router's address from 10.0.0.100, as the first host of the network sends it. -/
def homeRequest : EthernetPacket :=
  ⟨⟨MacAddress.broadcast, guestMac 1, .arp⟩,
    [0, 1, 8, 0, 6, 4, 0, 1] ++ (guestMac 1).octets ++ [10, 0, 0, 100] ++ List.replicate 6 0 ++ [10, 0, 0, 1]⟩

/-- A packet of twenty bytes from 10.0.0.7 to 10.0.0.100. -/
def homePacket : List Byte := [0x45, 0, 0, 20, 0, 0, 0x40, 0, 64, 17, 0, 0, 10, 0, 0, 7, 10, 0, 0, 100]

theorem wan_packet_goes_to_first_host :
    ∃ r, Run (Step decodedOnly) homeRouter [.handled 0 (.fromLan homeRequest)] r ∧
      r.written decodedOnly 0 (.fromWan4 ⟨Ipv4Header.headerOf homePacket, homePacket⟩ (by decide)) =
        [⟨⟨guestMac 1, guestMac 0xFF, .ipv4⟩, homePacket⟩] := by
  have hret : (homeRouter.handleMsg decodedOnly 0 (.fromLan homeRequest)).1 = .ok () := rfl
  have hrun : Run (Step decodedOnly) homeRouter [.handled 0 (.fromLan homeRequest)] _ :=
    .single ⟨by rw [hret]; exact Res.returns_ok (), rfl⟩
  have hwan := wan_packet_goes_to_last_sender decodedOnly homeRouter _ _ rfl hrun 0
    ⟨Ipv4Header.headerOf homePacket, homePacket⟩ (by decide) (by decide) (by decide) (by decide)
  refine ⟨_, hrun, hwan.1 ⟨1, .ipv4, 6, 4, 1, guestMac 1, .v4 0x0A000064, ⟨List.replicate 6 0, rfl⟩, .v4 0x0A000001⟩ ?_⟩
  exact ⟨[], [], rfl, by decide, by simp⟩

/-- **LAN packets routed to another host go back to their sender**: the address `route` passes takes precedence over
the table.  For every state and every packet of a LAN frame to another host of the network, the frames the router
writes go where the table says if and only if the table gives the sender's own address for the destination. -/
theorem lan_packet_goes_to_table_iff (api : Dhcproto) (id : BitVec 16) (r : Router) (frame : EthernetPacket)
    (pkt : Ipv4Packet) (hty : frame.frame.ethertype = .ipv4) (hparse : Ipv4Packet.parse frame.payload = .ok pkt)
    (hnet : r.network.contains pkt.dest = true) (hself : pkt.dest ≠ r.network.ip)
    (hbcast : pkt.dest ≠ BitVec.allOnes 32) :
    ((∀ out ∈ r.written api id (.fromLan frame), r.arp.get (.v4 pkt.dest) = some out.frame.dst) ∧
      (r.arp.get (.v4 pkt.dest) = none → r.written api id (.fromLan frame) = [])) ↔
    r.arp.get (.v4 pkt.dest) = some frame.frame.src := by
  have haction : r.actionOf api id (.fromLan frame) = (.ok (.toLan .ipv4 (.v4 pkt.dest) pkt.data), r) := by
    unfold actionOf actionFor
    simp only [hty, hparse, Res.andThen_ok]
    exact routeIp4_toLan api id r pkt hnet hself hbcast
  have hwritten : r.written api id (.fromLan frame) = [⟨⟨frame.frame.src, r.mac, .ipv4⟩, pkt.data⟩] :=
    (handleMsg_toLan haction).1
  rw [hwritten]
  constructor
  · intro h
    exact h.1 _ (List.mem_singleton.2 rfl)
  · intro h
    simp [h]

/-- The router of the home network, after ARP packets from two hosts. -/
def homeRouterOfTwo : Router :=
  { homeRouter with
    arp := (homeRouter.arp.insert (.v4 0x0A000007) (guestMac 7)).insert (.v4 0x0A000064) (guestMac 1) }

theorem lan_packet_goes_to_own_host :
    homeRouterOfTwo.arp.get (.v4 0x0A000064) = some (guestMac 1) ∧
      (∀ out ∈ homeRouterOfTwo.written decodedOnly 0 (.fromLan ⟨⟨guestMac 0xFF, guestMac 1, .ipv4⟩, homePacket⟩),
        homeRouterOfTwo.arp.get (.v4 0x0A000064) = some out.frame.dst) :=
  ⟨by decide,
    ((lan_packet_goes_to_table_iff decodedOnly 0 homeRouterOfTwo ⟨⟨guestMac 0xFF, guestMac 1, .ipv4⟩, homePacket⟩
      ⟨Ipv4Header.headerOf homePacket, homePacket⟩ rfl rfl (by decide) (by decide) (by decide)).2 (by decide)).1⟩

/-- **A packet between two known hosts is sent back to its sender.** -/
theorem lan_packet_returned_to_sender :
    homeRouterOfTwo.network.contains 0x0A000064 = true ∧
      Ipv4Packet.parse homePacket = .ok ⟨Ipv4Header.headerOf homePacket, homePacket⟩ ∧
      (Ipv4Header.headerOf homePacket).dst = 0x0A000064 ∧
      homeRouterOfTwo.arp.get (.v4 0x0A000064) = some (guestMac 1) ∧
      ¬ ∀ out ∈ homeRouterOfTwo.written decodedOnly 0 (.fromLan ⟨⟨guestMac 0xFF, guestMac 7, .ipv4⟩, homePacket⟩),
        homeRouterOfTwo.arp.get (.v4 0x0A000064) = some out.frame.dst := by
  refine ⟨by decide, rfl, by decide, by decide, ?_⟩
  intro h
  have hout := h ⟨⟨guestMac 7, guestMac 0xFF, .ipv4⟩, homePacket⟩ (by decide)
  exact absurd hout (by decide)


/-! ## Packets back to the WAN -/

/-- A packet for the router never goes to the WAN. -/
theorem handleLocalIpv4_action {api : Dhcproto} {id : BitVec 16} {r : Router} {pkt : Ipv4Packet} {action : RouterAction}
    (h : (r.handleLocalIpv4 api id pkt).1 = .ok action) :
    action = .drop [] ∨ ∃ dst reply, action = .toLan .ipv4 dst reply := by
  rcases (handleLocalIpv4_cases api id r pkt).2 with hd | ⟨p, hp⟩ | ⟨rpkt, hr⟩
  · rw [hd, Res.ok.injEq] at h
    exact Or.inl h.symm
  · rw [hp] at h
    cases h
  · rw [hr] at h
    exact Or.inr ⟨_, _, (buildReply_eq_ok.1 h).2.2⟩

/-- **A packet for the network or for every host stays off the WAN.** -/
theorem routeIp4_action {api : Dhcproto} {id : BitVec 16} {r : Router} {pkt : Ipv4Packet} {action : RouterAction}
    (hlocal : r.network.contains pkt.dest = true ∨ pkt.dest = BitVec.allOnes 32)
    (h : (r.routeIp4 api id pkt).1 = .ok action) :
    action = .drop [] ∨ ∃ dst reply, action = .toLan .ipv4 dst reply := by
  have hcond : (r.network.contains pkt.dest || isBroadcastV4 pkt.dest) = true := by
    rw [Bool.or_eq_true]
    exact hlocal.imp (fun h => h) fun h => beq_iff_eq.2 h
  unfold routeIp4 at h
  rw [if_pos hcond] at h
  split at h
  · exact handleLocalIpv4_action h
  · rw [Res.ok.injEq] at h
    exact Or.inr ⟨_, _, h.symm⟩

theorem handleMsg_wan_of_local (api : Dhcproto) (id : BitVec 16) (r : Router) (pkt : Ipv4Packet)
    (whole : 20 ≤ pkt.data.length)
    (hlocal : r.network.contains pkt.dest = true ∨ pkt.dest = BitVec.allOnes 32) :
    (r.handleMsg api id (.fromWan4 pkt whole)).2.wan = r.wan := by
  obtain ⟨handlers, hstate⟩ := routeIp4_state api id r pkt
  have hsend := sendable_routeIp4 api id r pkt whole
  have haction : ∀ action, (r.routeIp4 api id pkt).1 = .ok action →
      action = .drop [] ∨ ∃ dst reply, action = .toLan .ipv4 dst reply := fun _ h => routeIp4_action hlocal h
  rw [handleMsg_eq]
  simp only [actionOf]
  cases hx : r.routeIp4 api id pkt with | mk res r'
  rw [hx] at hstate hsend haction
  subst hstate
  cases res with
  | err e => rfl
  | panic p => rfl
  | ok action =>
    rw [Res.andThen_ok]
    rcases haction action rfl with rfl | ⟨dst, reply, rfl⟩
    · rfl
    · rw [handleAction_toLan _ _ _ _ _ (hsend _ _ _ rfl)]

theorem handleMsg_wan_of_foreign (api : Dhcproto) (id : BitVec 16) (r : Router) (pkt : Ipv4Packet)
    (whole : 20 ≤ pkt.data.length)
    (hforeign : ¬ (r.network.contains pkt.dest = true ∨ pkt.dest = BitVec.allOnes 32)) :
    (r.handleMsg api id (.fromWan4 pkt whole)).2.wan = r.wan.map fun sent => sent ++ [pkt] := by
  have hcond : ¬ (r.network.contains pkt.dest || isBroadcastV4 pkt.dest) = true := by
    rw [Bool.or_eq_true]
    exact fun h => hforeign (h.imp (fun h => h) fun h => beq_iff_eq.1 h)
  have hroute : r.routeIp4 api id pkt = (.ok (.toWan pkt), r) := by
    unfold routeIp4
    rw [if_neg hcond]
  rw [handleMsg_eq, actionOf, hroute]
  rfl

/-- **A packet from the WAN goes back to it exactly when its destination is outside the network** and not the broadcast
address: then it is written once and as it is, when there is a WAN, and else nothing is written to the WAN. -/
theorem wan_packet_returned_iff (api : Dhcproto) (id : BitVec 16) (r : Router) (pkt : Ipv4Packet)
    (whole : 20 ≤ pkt.data.length) :
    (r.handleMsg api id (.fromWan4 pkt whole)).2.wan =
      if r.network.contains pkt.dest = true ∨ pkt.dest = BitVec.allOnes 32 then r.wan
      else r.wan.map fun sent => sent ++ [pkt] := by
  by_cases hlocal : r.network.contains pkt.dest = true ∨ pkt.dest = BitVec.allOnes 32
  · rw [if_pos hlocal]
    exact handleMsg_wan_of_local api id r pkt whole hlocal
  · rw [if_neg hlocal]
    exact handleMsg_wan_of_foreign api id r pkt whole hlocal

theorem wan_packet_to_host_stays :
    (({ homeRouter with wan := some [] } : Router).handleMsg decodedOnly 0
      (.fromWan4 ⟨Ipv4Header.headerOf homePacket, homePacket⟩ (by decide))).2.wan = some [] := by
  rw [wan_packet_returned_iff decodedOnly 0 { homeRouter with wan := some [] }
    ⟨Ipv4Header.headerOf homePacket, homePacket⟩ (by decide), if_pos (Or.inl (by decide))]

/-- A packet of twenty bytes from 9.9.9.9 to 8.8.8.8. -/
def foreignPacket : List Byte := [0x45, 0, 0, 20, 0, 0, 0x40, 0, 64, 17, 0, 0, 9, 9, 9, 9, 8, 8, 8, 8]

/-- **A packet from the WAN to the WAN.** -/
theorem foreign_packet_returned :
    ¬ ∀ (r : Router) (pkt : Ipv4Packet) (whole : 20 ≤ pkt.data.length),
      (r.handleMsg decodedOnly 0 (.fromWan4 pkt whole)).2.wan = r.wan := by
  intro h
  have hwan := h { homeRouter with wan := some [] } ⟨Ipv4Header.headerOf foreignPacket, foreignPacket⟩ (by decide)
  rw [handleMsg_wan_of_foreign decodedOnly 0 _ _ _ (by decide)] at hwan
  cases hwan

end Router
end Oathgate
