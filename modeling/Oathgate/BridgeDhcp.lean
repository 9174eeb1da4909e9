import Oathgate.BridgeRun
import Oathgate.RouterReply
/-!
# BridgeDhcp — leases over the bridge (`oathgate-bridge`: `lib.rs`, `Bridge::run`; `net/router.rs`, `net/dhcp.rs`)

The bridge registers the DHCP server at a UDP port of its router, and anything may come between two messages for it.
The server changes by the messages for it and by nothing else (`server_run`), so that what holds of runs of the server
holds of the bridge, down to the bytes of the frames its guests are answered with (`leases_hold_over_bridge`).
-/
namespace Oathgate

open Lib

/-! ## The messages for the server -/

/-- `RouterBuilder::register_proto_handler` -/
def registerProtoHandler (handlers : Table (BitVec 8) ProtocolHandler) (handler : ProtocolHandler) :
    Table (BitVec 8) ProtocolHandler :=
  handlers.insert handler.protocol handler

/-- The handlers `Bridge::run` registers. -/
def bridgeHandlers (server : DhcpServer) : Table (BitVec 8) ProtocolHandler :=
  registerProtoHandler (registerProtoHandler Table.empty .icmp)
    (.udp (UdpHandler.registerPortHandler ⟨Table.empty⟩ (.dhcp server)))

/-- The DHCP server is the handler of its port. -/
def Serving (handlers : Table (BitVec 8) ProtocolHandler) (server : DhcpServer) : Prop :=
  ∃ h, handlers.get netProtocolUdp = some (.udp h) ∧ h.handlers.get 67 = some (.dhcp server)

theorem serving_bridgeHandlers (server : DhcpServer) : Serving (bridgeHandlers server) server :=
  ⟨_, Table.get_insert_self _ _ _, Table.get_insert_self _ _ _⟩

/-- The message in the data of a UDP packet to the server's port. -/
def dhcpIn (api : Dhcproto) (pkt : Ipv4Packet) : Option Message :=
  match (pkt.payload : Res ProtocolError _) with
  | .ok payload => if 8 ≤ payload.length ∧ be16At payload 2 = 67 then (api.decode (payload.drop 8)).toOption else none
  | _ => none

/-- The message a packet brings to the server of a router. -/
def dhcpOf (api : Dhcproto) (network : Ipv4Network) (pkt : Ipv4Packet) : Option Message :=
  if (pkt.dest = network.ip ∨ pkt.dest = BitVec.allOnes 32) ∧ pkt.protocol = netProtocolUdp then dhcpIn api pkt
  else none

theorem dhcpIn_eq_some {api : Dhcproto} {pkt : Ipv4Packet} {m : Message} :
    dhcpIn api pkt = some m ↔ ∃ q, (pkt.payload : Res ProtocolError _) = .ok q ∧ 8 ≤ q.length ∧ be16At q 2 = 67 ∧
      api.decode (q.drop 8) = .ok m := by
  unfold dhcpIn
  cases hq : (pkt.payload : Res ProtocolError _) with
  | err e => simp
  | panic p => simp
  | ok q =>
    simp only [Res.ok.injEq, exists_eq_left']
    by_cases hto : 8 ≤ q.length ∧ be16At q 2 = 67
    · rw [if_pos hto]
      cases hd : api.decode (q.drop 8) with
      | error e => simp [Except.toOption]
      | ok msg => simp [Except.toOption, hto]
    · rw [if_neg hto]
      simp only [reduceCtorEq, false_iff]
      exact fun h => hto ⟨h.1, h.2.1⟩

/-! ## One packet -/

namespace DhcpServer

/-- The server after a message for it, if any. -/
def next (api : Dhcproto) (s : DhcpServer) (msg : Option Message) : DhcpServer := msg.elim s fun m => (s.serve api m).2

/-- **`handle_port` on the server**: one message is served, and a call that comes back comes from there. -/
theorem handlePort_next (api : Dhcproto) (s : DhcpServer) (data buf : List Byte) :
    (s.handlePort api data buf).2.1 = s.next api (api.decode data).toOption ∧
      ((s.handlePort api data buf).1.Returns → ∀ m ∈ (api.decode data).toOption, (s.serve api m).1.Returns) := by
  unfold handlePort
  cases api.decode data with
  | error e => exact ⟨rfl, fun _ m hm => by cases hm⟩
  | ok msg =>
    simp only [Except.toOption, next, Option.elim_some, Option.mem_some_iff, forall_eq']
    cases s.serve api msg with | mk r s'
    cases r with
    | err e => exact ⟨rfl, fun _ => Res.returns_err e⟩
    | panic p => exact ⟨rfl, fun h => absurd h (Res.not_returns_panic p)⟩
    | ok rmsg =>
      refine ⟨?_, fun _ => Res.returns_ok rmsg⟩
      simp only
      cases rmsg.elim (.ok []) api.encode with
      | error e => rfl
      | ok vbuf =>
        simp only
        cases (copyAt buf 0 vbuf.length vbuf : Res ProtocolError _) <;> rfl

end DhcpServer

/-- **A UDP packet changes the server by the message it brings.** -/
theorem UdpHandler.handleProtocol_next (api : Dhcproto) {h : UdpHandler} {s : DhcpServer}
    (hport : h.handlers.get 67 = some (.dhcp s)) (pkt : Ipv4Packet) (buf : List Byte) (hbuf : 8 ≤ buf.length) :
    (h.handleProtocol api pkt buf).2.handlers.get 67 = some (.dhcp (s.next api (dhcpIn api pkt))) ∧
      ((h.handleProtocol api pkt buf).1.Returns → ∀ m ∈ dhcpIn api pkt, (s.serve api m).1.Returns) := by
  have hnone : ∀ r : Res ProtocolError (Nat × List Byte), dhcpIn api pkt = none →
      (r, h).2.handlers.get 67 = some (.dhcp (s.next api (dhcpIn api pkt))) ∧
        ((r, h).1.Returns → ∀ m ∈ dhcpIn api pkt, (s.serve api m).1.Returns) := by
    intro r hno
    rw [hno]
    exact ⟨hport, fun _ m hm => by cases hm⟩
  unfold handleProtocol
  cases hq : (pkt.payload : Res ProtocolError _) with
  | err e => exact hnone _ (by unfold dhcpIn; rw [hq])
  | panic p => exact hnone _ (by unfold dhcpIn; rw [hq])
  | ok q =>
    rw [Res.andThen_ok]
    by_cases h8 : q.length < 8
    · rw [if_pos h8]
      exact hnone _ (by unfold dhcpIn; rw [hq]; exact if_neg (by omega))
    rw [if_neg h8, be16In_eq q 0 (by omega), be16In_eq q 2 (by omega)]
    simp only [Res.bind_ok, Res.pure_eq, Res.andThen_ok]
    cases hget : h.handlers.get (be16At q 2) with
    | none =>
      refine hnone _ ?_
      unfold dhcpIn
      rw [hq]
      refine if_neg fun hto => ?_
      rw [hto.2, hport] at hget
      cases hget
    | some handler =>
      simp only [sliceFrom_eq q 8 (by omega), sliceFrom_eq buf 8 hbuf, Res.bind_ok, Res.andThen_ok]
      by_cases hto : be16At q 2 = 67
      · -- the server's own port
        have hin : dhcpIn api pkt = (api.decode (q.drop 8)).toOption := by
          unfold dhcpIn
          rw [hq]
          exact if_pos ⟨by omega, hto⟩
        rw [hto, hport, Option.some.injEq] at hget
        subst hget
        obtain ⟨hnext, hret⟩ := s.handlePort_next api (q.drop 8) (buf.drop 8)
        rw [hin, ← hnext, hto]
        simp only [PortHandler.handlePort]
        cases hlen : (s.handlePort api (q.drop 8) (buf.drop 8)).1 with
        | err e => exact ⟨Table.get_insert_self _ _ _, fun _ => hret (by rw [hlen]; exact Res.returns_err e)⟩
        | panic p => exact ⟨Table.get_insert_self _ _ _, fun h => absurd h (Res.not_returns_panic p)⟩
        | ok n => exact ⟨Table.get_insert_self _ _ _, fun _ => hret (by rw [hlen]; exact Res.returns_ok n)⟩
      · have hin : dhcpIn api pkt = none := by
          unfold dhcpIn
          rw [hq]
          exact if_neg fun h => hto h.2
        have hkeep : ∀ handler', (h.handlers.insert (be16At q 2) handler').get 67 = some (.dhcp s) := by
          intro handler'
          rw [Table.get_insert_of_ne _ _ (Ne.symm hto), hport]
        rw [hin]
        refine ⟨?_, fun _ m hm => by cases hm⟩
        cases (handler.handlePort api (q.drop 8) (buf.drop 8)).1 with
        | err e => exact hkeep _
        | panic p => exact hkeep _
        | ok n => exact hkeep _

namespace Router

/-- **A packet changes the router's server by the message it brings**, and a packet that does not end the router does
not end the server. -/
theorem routeIp4_next (api : Dhcproto) (id : BitVec 16) {r : Router} {s : DhcpServer}
    (hserving : Serving r.ip4Handlers s) (pkt : Ipv4Packet) :
    Serving (r.routeIp4 api id pkt).2.ip4Handlers (s.next api (dhcpOf api r.network pkt)) ∧
      ((r.routeIp4 api id pkt).1.Returns → ∀ m ∈ dhcpOf api r.network pkt, (s.serve api m).1.Returns) := by
  obtain ⟨h, hudp, hport⟩ := hserving
  by_cases hfor : r.IsFor pkt
  · rw [routeIp4_local id r api pkt hfor]
    unfold handleLocalIpv4
    by_cases hproto : pkt.protocol = netProtocolUdp
    · have hof : dhcpOf api r.network pkt = dhcpIn api pkt := if_pos ⟨hfor, hproto⟩
      have hbuf : 8 ≤ (List.replicate 1540 (0 : Byte)).length := by
        rw [List.length_replicate]
        omega
      obtain ⟨hnext, hret⟩ := h.handleProtocol_next api hport pkt (List.replicate 1540 0) hbuf
      rw [hproto, hudp, hof]
      simp only
      rw [sliceFrom_eq _ 20 (by rw [List.length_replicate]; omega), List.drop_replicate, Res.andThen_ok]
      simp only [ProtocolHandler.handleProtocol]
      have hnow : Serving (r.ip4Handlers.insert netProtocolUdp
          (.udp (h.handleProtocol api pkt (List.replicate 1540 0)).2)) (s.next api (dhcpIn api pkt)) :=
        ⟨_, Table.get_insert_self _ _ _, hnext⟩
      cases hres : (h.handleProtocol api pkt (List.replicate 1540 0)).1 with
      | err e => exact ⟨hnow, fun _ => hret (by rw [hres]; exact Res.returns_err e)⟩
      | panic p => exact ⟨hnow, fun hp => absurd hp (Res.not_returns_panic p)⟩
      | ok res =>
        have hserved := hret (by rw [hres]; exact Res.returns_ok res)
        obtain ⟨sz, buf⟩ := res
        cases sz with
        | zero => exact ⟨hnow, fun _ => hserved⟩
        | succ sz => exact ⟨hnow, fun _ => hserved⟩
    · have hof : dhcpOf api r.network pkt = none := if_neg fun hp => hproto hp.2
      rw [hof]
      refine ⟨?_, fun _ m hm => by cases hm⟩
      cases hget : r.ip4Handlers.get pkt.protocol with
      | none => exact ⟨h, hudp, hport⟩
      | some handler =>
        simp only
        rw [sliceFrom_eq _ 20 (by rw [List.length_replicate]; omega), Res.andThen_ok]
        have hnow : ∀ handler', Serving (r.ip4Handlers.insert pkt.protocol handler') s := by
          intro handler'
          refine ⟨h, ?_, hport⟩
          rw [Table.get_insert_of_ne _ _ (Ne.symm hproto), hudp]
        cases (handler.handleProtocol api pkt ((List.replicate 1560 (0 : Byte)).drop 20)).1 with
        | err e => exact hnow _
        | panic p => exact hnow _
        | ok res =>
          obtain ⟨sz, buf⟩ := res
          cases sz with
          | zero => exact hnow _
          | succ sz => exact hnow _
  · have hof : dhcpOf api r.network pkt = none := if_neg fun hp => hfor hp.1
    rw [hof]
    refine ⟨?_, fun _ m hm => by cases hm⟩
    have hself : (r.isLocal (.v4 pkt.dest) || isBroadcastV4 pkt.dest) = false := by
      rw [Bool.eq_false_iff]
      intro hloc
      rcases Bool.or_eq_true_iff.1 hloc with hloc | hloc
      · exact hfor (Or.inl (of_decide_eq_true hloc).symm)
      · exact hfor (Or.inr (of_decide_eq_true hloc))
    unfold routeIp4
    rw [hself]
    split
    · exact ⟨h, hudp, hport⟩
    · exact ⟨h, hudp, hport⟩

/-- The message a router message brings to the server. -/
def dhcpMsg (api : Dhcproto) (network : Ipv4Network) (msg : RouterMsg) : Option Message :=
  (RouterThread.ipv4Of msg).bind (dhcpOf api network)

theorem actionOf_next (api : Dhcproto) (id : BitVec 16) {r : Router} {s : DhcpServer}
    (hserving : Serving r.ip4Handlers s) (msg : RouterMsg) :
    Serving (r.actionOf api id msg).2.ip4Handlers (s.next api (dhcpMsg api r.network msg)) ∧
      ((r.actionOf api id msg).1.Returns → ∀ m ∈ dhcpMsg api r.network msg, (s.serve api m).1.Returns) := by
  cases msg with
  | fromWan4 pkt whole => exact routeIp4_next api id hserving pkt
  | fromLan pkt =>
    obtain ⟨⟨dst, src, ty⟩, payload⟩ := pkt
    cases ty with
    | ipv6 => exact ⟨hserving, fun _ m hm => by cases hm⟩
    | arp =>
      refine ⟨?_, fun _ m hm => by cases hm⟩
      show Serving (r.handleArp payload).2.ip4Handlers s
      rw [handleArp_state]
      exact hserving
    | ipv4 =>
      unfold actionOf actionFor dhcpMsg RouterThread.ipv4Of
      simp only [if_true]
      cases Ipv4Packet.parse payload with
      | err e => exact ⟨hserving, fun _ m hm => by cases hm⟩
      | panic p => exact ⟨hserving, fun _ m hm => by cases hm⟩
      | ok pkt => exact routeIp4_next api id hserving pkt

theorem handlers_handleAction (r : Router) (action : RouterAction) (dst : Option MacAddress) :
    (r.handleAction action dst).2.ip4Handlers = r.ip4Handlers := by
  cases action with
  | toWan pkt => rfl
  | drop pkt => rfl
  | toLan ty dstIp pkt =>
    unfold handleAction
    simp only
    cases dst.or (r.arp.get dstIp) with
    | none => rfl
    | some mac =>
      simp only
      unfold writeToSwitch
      apply Res.andThen_keeps (P := fun s : Router => s.ip4Handlers = r.ip4Handlers)
      · rfl
      · rintro _ s hs
        simp only
        split
        · exact hs
        · exact hs

/-- **A message changes the server by the DHCP message it brings**, which was served when the router lives on. -/
theorem handleMsg_next (api : Dhcproto) (id : BitVec 16) {r : Router} {s : DhcpServer}
    (hserving : Serving r.ip4Handlers s) (msg : RouterMsg) :
    Serving (r.handleMsg api id msg).2.ip4Handlers (s.next api (dhcpMsg api r.network msg)) ∧
      ((r.handleMsg api id msg).1.Returns → ∀ m ∈ dhcpMsg api r.network msg, (s.serve api m).1.Returns) := by
  obtain ⟨hnext, hret⟩ := actionOf_next api id hserving msg
  rw [handleMsg_eq]
  cases hx : r.actionOf api id msg with | mk res r'
  rw [hx] at hnext hret
  cases res with
  | err e => exact ⟨hnext, fun _ => hret (Res.returns_err e)⟩
  | panic p => exact ⟨hnext, fun h => absurd h (Res.not_returns_panic p)⟩
  | ok action =>
    rw [Res.andThen_ok, handlers_handleAction]
    exact ⟨hnext, fun _ => hret (Res.returns_ok action)⟩

end Router

/-! ## Runs -/

namespace RouterThread

variable {api : Dhcproto} {s : DhcpServer} {t t' t'' : RouterThread}

/-- A message for the server is one of its steps. -/
theorem run_next {msg : Option Message} (h : ∀ m ∈ msg, (s.serve api m).1.Returns) :
    ∃ ls, Run (DhcpServer.ServeStep api) s ls (s.next api msg) ∧ ls.map Prod.fst = msg.toList := by
  cases msg with
  | none => exact ⟨[], .nil, rfl⟩
  | some m => exact ⟨[(m, (s.serve api m).1)], .single ⟨h m rfl, rfl⟩, rfl⟩

/-- Between two states of its thread the router took some messages, and its server served the DHCP messages among
them, in order. -/
def Served (api : Dhcproto) (s : DhcpServer) (t t' : RouterThread) (s' : DhcpServer) : Prop :=
  t'.router.network = t.router.network ∧ ∃ taken ls, t'.handled = t.handled ++ taken ∧
    Serving t'.router.ip4Handlers s' ∧ Run (DhcpServer.ServeStep api) s ls s' ∧
    ls.map Prod.fst = taken.filterMap (Router.dhcpMsg api t.router.network)

theorem Served.serving {s' : DhcpServer} (h : Served api s t t' s') : Serving t'.router.ip4Handlers s' := by
  obtain ⟨-, taken, ls, -, hserving, -⟩ := h
  exact hserving

theorem served_same (hserving : Serving t.router.ip4Handlers s) (hnet : t'.router.network = t.router.network)
    (hhandlers : t'.router.ip4Handlers = t.router.ip4Handlers) (hhandled : t'.handled = t.handled) :
    Served api s t t' s := by
  refine ⟨hnet, [], [], ?_, ?_, .nil, rfl⟩
  · rw [hhandled, List.append_nil]
  · rw [hhandlers]
    exact hserving

theorem Served.trans {s' s'' : DhcpServer} (h : Served api s t t' s') (h' : Served api s' t' t'' s'') :
    Served api s t t'' s'' := by
  obtain ⟨hnet, taken, ls, hhandled, -, hrun, hls⟩ := h
  obtain ⟨hnet', taken', ls', hhandled', hserving', hrun', hls'⟩ := h'
  refine ⟨hnet'.trans hnet, taken ++ taken', ls ++ ls', ?_, hserving', hrun.append hrun', ?_⟩
  · rw [hhandled', hhandled, List.append_assoc]
  · rw [List.map_append, hls, hls', hnet, List.filterMap_append]

/-- What is posted to the router waits in its channel. -/
theorem served_post (hserving : Serving t.router.ip4Handlers s) (msgs : List RouterMsg) :
    Served api s t (t.post msgs) s := by
  obtain ⟨hrouter, hhandled, -⟩ := post_keeps msgs t
  exact served_same hserving (by rw [hrouter]) (by rw [hrouter]) hhandled

/-- **An event of the hosts' side**: the router's next message may be for the server, nothing else changes it. -/
theorem served_apply {e : HostEvent} {sent : List Ipv4Packet} (h : t.apply api e = some (t', sent))
    (halive : t'.alive = true) (hserving : Serving t.router.ip4Handlers s) : ∃ s', Served api s t t' s' := by
  cases e with
  | connect =>
    cases h
    exact ⟨s, served_same hserving rfl rfl rfl⟩
  | frame port pkt =>
    unfold apply at h
    simp only at h
    split at h
    · cases h
      obtain ⟨hrouter, hhandled, -⟩ := post_keeps
        (delivered t.router.port t.router.switch (t.router.switch.process port pkt).2)
        { t with router := { t.router with switch := (t.router.switch.process port pkt).2 } }
      exact ⟨s, served_same hserving (by rw [hrouter]) (by rw [hrouter]) hhandled⟩
    · cases h
  | route id =>
    obtain ⟨-, msg, rest, -, hret, rfl⟩ := route_of_alive h halive
    refine ⟨s.next api (Router.dhcpMsg api t.router.network msg), ?_⟩
    obtain ⟨handlers, wan, hstate⟩ := Router.handleMsg_state api id t.router msg
    obtain ⟨hnext, hserved⟩ := Router.handleMsg_next api id hserving msg
    obtain ⟨ls, hrun, hls⟩ := run_next (hserved hret)
    refine ⟨by rw [hstate], [msg], ls, rfl, hnext, hrun, ?_⟩
    rw [hls]
    cases hmsg : Router.dhcpMsg api t.router.network msg with
    | none => rw [List.filterMap_cons_none hmsg]; rfl
    | some m => rw [List.filterMap_cons_some hmsg]; rfl

end RouterThread

namespace BridgeRun

theorem served_step {api : Dhcproto} {traced : Bool} {b b' : BridgeRun} {e : BridgeEvent} {s : DhcpServer}
    (hstep : Step api traced b e b') (halive : b'.alive = true) (hserving : Serving b.router.ip4Handlers s) :
    ∃ s', RouterThread.Served api s b.hosts b'.hosts s' := by
  cases e with
  | hosts e =>
    obtain ⟨sent, happly, -⟩ := step_hosts hstep
    exact RouterThread.served_apply happly halive hserving
  | wan e =>
    obtain ⟨-, wan, -, rfl⟩ := step_wan hstep
    exact ⟨s, RouterThread.served_post hserving _⟩

/-- **The server over a run of the bridge**: it serves the DHCP messages among those the router takes. -/
theorem served_run {api : Dhcproto} {traced : Bool} {b b' : BridgeRun} {es : List BridgeEvent} {s : DhcpServer}
    (hrun : Run (Step api traced) b es b') (halive : b'.alive = true) (hserving : Serving b.router.ip4Handlers s) :
    ∃ s', RouterThread.Served api s b.hosts b'.hosts s' := by
  refine Run.invariant (I := fun _ b' => b'.alive = true → ∃ s', RouterThread.Served api s b.hosts b'.hosts s')
    (fun _ => ⟨s, RouterThread.served_same hserving rfl rfl rfl⟩) ?_ hrun halive
  intro es t e u _ ih hstep halive
  obtain ⟨s', hs'⟩ := ih (alive_step hstep halive)
  obtain ⟨s'', hs''⟩ := served_step hstep halive hs'.serving
  exact ⟨s'', hs'.trans hs''⟩

end BridgeRun

/-! ## The frames of an answer -/

/-- **What the server writes** is the encoding of its answer, or nothing. -/
theorem DhcpServer.handlePort_eq_ok {api : Dhcproto} {s s' : DhcpServer} {data buf buf' : List Byte} {n : Nat}
    (h : s.handlePort api data buf = (.ok n, s', buf')) :
    ∃ m rmsg, api.decode data = .ok m ∧ (s.serve api m).1 = .ok rmsg ∧
      rmsg.elim (.ok []) api.encode = .ok (buf'.take n) ∧ n ≤ buf.length := by
  unfold handlePort at h
  cases hd : api.decode data with
  | error e =>
    rw [hd] at h
    cases h
  | ok m =>
    rw [hd] at h
    simp only at h
    cases hs : s.serve api m with | mk r t
    rw [hs] at h
    cases r with
    | err e => cases h
    | panic p => cases h
    | ok rmsg =>
      simp only at h
      cases hb : rmsg.elim (.ok []) api.encode with
      | error e =>
        rw [hb] at h
        cases h
      | ok bytes =>
        rw [hb] at h
        simp only at h
        cases hc : (copyAt buf 0 bytes.length bytes : Res ProtocolError _) with
        | err e =>
          rw [hc] at h
          cases h
        | panic p =>
          rw [hc] at h
          cases h
        | ok buf₁ =>
          rw [hc] at h
          cases h
          obtain ⟨-, hlen, -, rfl⟩ := copyAt_eq_ok.1 hc
          refine ⟨m, rmsg, rfl, by rw [hs], ?_, hlen⟩
          rw [hb, List.take_zero, List.nil_append, List.take_left]

/-- The frame is a UDP packet from the server's port around the data. -/
def FromServer (out : EthernetPacket) (data : List Byte) : Prop :=
  out.frame.ethertype = .ipv4 ∧ ∃ p q, Ipv4Packet.parse out.payload = .ok p ∧ p.protocol = netProtocolUdp ∧
    (p.payload : Res ProtocolError _) = .ok q ∧ be16At q 0 = 67 ∧ q.drop 8 = data

theorem FromServer.unique {out : EthernetPacket} {data data' : List Byte} (h : FromServer out data)
    (h' : FromServer out data') : data = data' := by
  obtain ⟨-, p, q, hparse, -, hpayload, -, rfl⟩ := h
  obtain ⟨-, p', q', hparse', -, hpayload', -, rfl⟩ := h'
  rw [hparse, Res.ok.injEq] at hparse'
  rw [← hparse', hpayload, Res.ok.injEq] at hpayload'
  rw [hpayload']

namespace Router

theorem brings_of_ipv4Of {msg : RouterMsg} {pkt : Ipv4Packet} (h : RouterThread.ipv4Of msg = some pkt) :
    Brings msg pkt := by
  cases msg with
  | fromWan4 p whole =>
    cases h
    rfl
  | fromLan frame =>
    unfold RouterThread.ipv4Of at h
    simp only at h
    split at h
    · rename_i hty
      split at h
      · rename_i p hparse
        cases h
        exact ⟨hty, hparse⟩
      · cases h
    · cases h

/-- What is written for a packet is the frame of a packet to the LAN. -/
theorem toLan_of_written {api : Dhcproto} {id : BitVec 16} {r : Router} {msg : RouterMsg} {pkt : Ipv4Packet}
    (hbrings : Brings msg pkt) {out : EthernetPacket} (hout : out ∈ r.written api id msg) :
    ∃ ty dst p, (r.routeIp4 api id pkt).1 = .ok (.toLan ty dst p) := by
  unfold written at hout
  rw [actionOf_brings api id r hbrings] at hout
  split at hout
  · rename_i action r' hx
    rw [hx]
    cases action with
    | toLan ty dst p => exact ⟨ty, dst, p, rfl⟩
    | toWan p => cases hout
    | drop p => cases hout
  · cases hout

/-- A port handler that fails is not answered for. -/
theorem handleProtocol_failed {api : Dhcproto} {h : UdpHandler} {pkt : Ipv4Packet} {q : List Byte}
    {handler : PortHandler} (hq : (pkt.payload : Res ProtocolError _) = .ok q) (h8 : 8 ≤ q.length)
    (hport : h.handlers.get (be16At q 2) = some handler)
    (hfails : ∀ n, (handler.handlePort api (q.drop 8) (List.replicate 1532 0)).1 ≠ .ok n) :
    ∀ res, (h.handleProtocol api pkt (List.replicate 1540 0)).1 ≠ .ok res := by
  unfold UdpHandler.handleProtocol
  rw [hq, Res.andThen_ok, if_neg (by omega), be16In_eq q 0 (by omega), be16In_eq q 2 (by omega)]
  simp only [Res.bind_ok, Res.pure_eq, Res.andThen_ok, hport, sliceFrom_eq q 8 h8,
    sliceFrom_eq (List.replicate 1540 (0 : Byte)) 8 (by rw [List.length_replicate]; omega), List.drop_replicate,
    Nat.reduceSub]
  intro res
  cases hres : (handler.handlePort api (q.drop 8) (List.replicate 1532 0)).1 with
  | ok n => exact absurd hres (hfails n)
  | err e => exact fun h => by cases h
  | panic e => exact fun h => by cases h

theorem routeIp4_failed {api : Dhcproto} (id : BitVec 16) {r : Router} {pkt : Ipv4Packet} {q : List Byte}
    {handler : PortHandler} (hto : r.ToPort pkt q handler)
    (hfails : ∀ n, (handler.handlePort api (q.drop 8) (List.replicate 1532 0)).1 ≠ .ok n) (ty : EtherType)
    (dst : IpAddr) (p : List Byte) : (r.routeIp4 api id pkt).1 ≠ .ok (.toLan ty dst p) := by
  obtain ⟨h, hget, hport⟩ := hto.registered
  have hno := handleProtocol_failed hto.payload hto.whole hport hfails
  rw [routeIp4_local id r api pkt hto.isFor]
  unfold handleLocalIpv4
  rw [hto.protocol, hget]
  simp only
  rw [sliceFrom_eq _ 20 (by rw [List.length_replicate]; omega), List.drop_replicate, Res.andThen_ok]
  simp only [ProtocolHandler.handleProtocol]
  cases hres : (h.handleProtocol api pkt (List.replicate 1540 0)).1 with
  | ok res => exact absurd hres (hno res)
  | err e => exact fun h => by cases h
  | panic e => exact fun h => by cases h

/-- **The frames written for a DHCP message** are the answer of the server, to the sender of the message. -/
theorem written_dhcp {api : Dhcproto} {id : BitVec 16} {r : Router} {s : DhcpServer}
    (hserving : Serving r.ip4Handlers s) {msg : RouterMsg} {m : Message} (hmsg : dhcpMsg api r.network msg = some m)
    {out : EthernetPacket} (hout : out ∈ r.written api id msg) :
    ∃ rmsg data, (s.serve api m).1 = .ok rmsg ∧ rmsg.elim (.ok []) api.encode = .ok data ∧ FromServer out data ∧
      ∀ frame, msg = .fromLan frame → out.frame.dst = frame.frame.src := by
  obtain ⟨pkt, hpkt, hof⟩ := Option.bind_eq_some_iff.1 hmsg
  have hbrings := brings_of_ipv4Of hpkt
  unfold dhcpOf at hof
  split at hof
  · rename_i hlocal
    obtain ⟨q, hq, h8, hport, hdecode⟩ := dhcpIn_eq_some.1 hof
    obtain ⟨h, hudp, hserver⟩ := hserving
    have hto : r.ToPort pkt q (.dhcp s) :=
      ⟨hlocal.1, hlocal.2, hq, h8, h, hudp, by rw [hport]; exact hserver⟩
    obtain ⟨ty, dst, p, htoLan⟩ := toLan_of_written hbrings hout
    cases hres : s.handlePort api (q.drop 8) (List.replicate 1532 0) with | mk len rest
    obtain ⟨s', tail⟩ := rest
    have hhandler : (PortHandler.dhcp s).handlePort api (q.drop 8) (List.replicate 1532 0) = (len, .dhcp s', tail) := by
      simp only [PortHandler.handlePort, hres]
    cases len with
    | err e =>
      refine absurd htoLan (routeIp4_failed id hto (fun n hn => ?_) ty dst p)
      rw [hhandler] at hn
      cases hn
    | panic e =>
      refine absurd htoLan (routeIp4_failed id hto (fun n hn => ?_) ty dst p)
      rw [hhandler] at hn
      cases hn
    | ok n =>
      obtain ⟨m', rmsg, hdecode', hserve, hbytes, hn⟩ := DhcpServer.handlePort_eq_ok hres
      rw [hdecode, Except.ok.injEq] at hdecode'
      subst hdecode'
      rw [List.length_replicate] at hn
      obtain ⟨htail, haction⟩ := routeIp4_udp id hto hhandler hn
      have hlen : (udpMessage (be16At q 2) (be16At q 0) (tail.take n)).length ≤ 1540 := by
        unfold udpMessage
        rw [List.length_append, List.length_take]
        show 8 + _ ≤ 1540
        omega
      obtain ⟨p', hparse, hproto, -, -, -, hpayload⟩ := (replies_replyPacket id pkt hlen).parses
      rw [written_reply hbrings haction] at hout
      obtain ⟨mac, hmac, rfl⟩ := Option.map_eq_some_iff.1 (Option.mem_toList.1 hout)
      refine ⟨rmsg, tail.take n, hserve, hbytes, ⟨rfl, p', _, hparse, hproto.trans hlocal.2, hpayload, ?_, rfl⟩, ?_⟩
      · rw [← hport]
        exact be16At_toBe16 (be16At q 2) _
      · rintro frame rfl
        exact (Option.some.inj hmac).symm
  · cases hof

end Router

/-! ## Leases -/

/-- **What a client relies on in `dhcproto`**: the address given is written in the four bytes from the sixteenth on. -/
def Dhcproto.Wire (api : Dhcproto) : Prop :=
  ∀ m bytes, api.encode m = .ok bytes → 20 ≤ bytes.length ∧ be32At bytes 16 = m.yiaddr

/-- The frame is an answer of the server with the address. -/
def Tells (out : EthernetPacket) (ip : Ipv4Addr) : Prop :=
  ∃ data, FromServer out data ∧ 20 ≤ data.length ∧ be32At data 16 = ip

namespace BridgeRun

/-- For its next message, one of the client, the router writes a frame that tells it the address. -/
def Told (api : Dhcproto) (id : BitVec 16) (b : BridgeRun) (client : MacAddress) (ip : Ipv4Addr) : Prop :=
  ∃ msg rest m, b.inbox = msg :: rest ∧ Router.dhcpMsg api b.router.network msg = some m ∧
    DhcpServer.From api m client ∧ ∃ out ∈ b.router.written api id msg, Tells out ip

/-- **An address told is one the server gives.** -/
theorem tells_served {api : Dhcproto} (hwire : api.Wire) {id : BitVec 16} {r : Router} {s : DhcpServer}
    (hserving : Serving r.ip4Handlers s) {msg : RouterMsg} {m : Message}
    (hmsg : Router.dhcpMsg api r.network msg = some m) {out : EthernetPacket} (hout : out ∈ r.written api id msg)
    {ip : Ipv4Addr} : Tells out ip ↔ ∃ reply, (s.serve api m).1 = .ok (some reply) ∧ reply.yiaddr = ip := by
  obtain ⟨rmsg, data, hserve, hencode, hfrom, -⟩ := Router.written_dhcp hserving hmsg hout
  constructor
  · rintro ⟨data', hfrom', hlen, hip⟩
    rw [hfrom'.unique hfrom] at hlen hip
    cases rmsg with
    | none =>
      cases hencode
      rw [List.length_nil] at hlen
      omega
    | some reply =>
      obtain ⟨-, hyiaddr⟩ := hwire reply data hencode
      exact ⟨reply, hserve, hyiaddr.symm.trans hip⟩
  · rintro ⟨reply, hreply, rfl⟩
    rw [hserve, Res.ok.injEq] at hreply
    subst hreply
    obtain ⟨hlen, hyiaddr⟩ := hwire reply data hencode
    exact ⟨data, hfrom, hlen, hyiaddr⟩

/-! ### A client at the bridge -/

theorem wire_dialogue : (Router.dialogue []).Wire := by
  intro m bytes h
  unfold Router.dialogue at h
  simp only at h
  split at h
  · rename_i hoffer
    cases h
    rw [hoffer]
    refine ⟨?_, rfl⟩
    unfold Router.offerBytes Router.dhcpBytes
    simp only [List.length_append, List.length_replicate, MacAddress.length_octets]
    omega
  · cases h

/-- The Discover of the first client, in its frame. -/
def discoverFrame : EthernetPacket :=
  ⟨⟨MacAddress.broadcast, guestMac 1, .ipv4⟩, (Router.toServer 0 (BitVec.allOnes 32) Router.discoverBytes).data⟩

/-- The first client connects, and asks for an address. -/
def discovery : List BridgeEvent := 
  [.hosts .connect, .hosts (.frame 1 (discoverFrame.frame.wire ++ discoverFrame.payload))]

section Leases

variable {api : Dhcproto} {traced : Bool} {mac : MacAddress} {net : Ipv4Network} {fuel : Nat} {cfg : DhcpConfig}
  {s₀ : DhcpServer} {ipv4 : Ipv4Addr} {es : List BridgeEvent} {b : BridgeRun}

/-- **The server serves what comes to its port.**  In every run of the bridge, as long as the router lives, the server
at its port has served exactly the messages in the UDP packets to that port among those the router took, each once and
in order; and what is left of the pool are the addresses nobody holds. -/
theorem dhcp_messages_served (hnew : DhcpServer.new fuel net cfg = some (.ok s₀ : Res Empty DhcpServer))
    (hrun : Run (Step api traced) (new mac net (bridgeHandlers s₀) ipv4) es b) (halive : b.alive = true) :
    ∃ s ls, Serving b.router.ip4Handlers s ∧ Run (DhcpServer.ServeStep api) s₀ ls s ∧
      ls.map Prod.fst = b.handled.filterMap (Router.dhcpMsg api net) ∧
      s.available = s₀.available.filter (fun ip => (s.leased.get ip).isNone) := by
  obtain ⟨s, -, taken, ls, hhandled, hserving, hserved, hls⟩ := served_run hrun halive (serving_bridgeHandlers s₀)
  rw [show b.handled = taken from hhandled]
  exact ⟨s, ls, hserving, hserved, hls,
    (DhcpServer.run_refines_grants (DhcpServer.pool_nodup hnew) (DhcpServer.conserves_new hnew) hserved).1⟩

/-- **What one client was told no other is told.**  In every run of the bridge, whatever guests send and the tunnel
yields: once a client was answered with an address, then in every later state the server has it for the client, no
answer tells it to another client, and every answer to a Discover or Request of the client for it tells it again. -/
theorem leases_hold_over_bridge (hwire : api.Wire)
    (hnew : DhcpServer.new fuel net cfg = some (.ok s₀ : Res Empty DhcpServer))
    (hrun : Run (Step api traced) (new mac net (bridgeHandlers s₀) ipv4) es b) {id : BitVec 16} {client : MacAddress}
    {ip : Ipv4Addr} (htold : Told api id b client ip) {b' c : BridgeRun}
    (hstep : Step api traced b (.hosts (.route id)) b')
    {es' : List BridgeEvent} (hrun' : Run (Step api traced) b' es' c) (halive : c.alive = true) :
    (∃ s, Serving c.router.ip4Handlers s ∧ s.leased.get ip = some client) ∧
    (∀ id' client', Told api id' c client' ip → client' = client) ∧
    ∀ id' msg rest m ty, c.inbox = msg :: rest → Router.dhcpMsg api net msg = some m → DhcpServer.From api m client →
      DhcpServer.answerType m = some ty → DhcpServer.getRequestedIp m = some ip →
      ∀ out ∈ c.router.written api id' msg, Tells out ip := by
  have hpool := DhcpServer.pool_nodup hnew
  have h₀ := DhcpServer.conserves_new hnew
  have halive' := alive_run hrun' halive
  obtain ⟨s, hs⟩ := served_run hrun (alive_step hstep halive') (serving_bridgeHandlers s₀)
  have hserving := hs.serving
  obtain ⟨hnet, -, ls, -, -, hserved, -⟩ := hs
  -- the message that was answered is a step of the server
  obtain ⟨msg, rest, m, hinbox, hmsg, hfrom, out, hout, htells⟩ := htold
  obtain ⟨reply, hreply, rfl⟩ := (tells_served hwire hserving hmsg hout).1 htells
  obtain ⟨sent, happly, -⟩ := step_hosts hstep
  obtain ⟨-, msg', rest', hinbox', hret, hb'⟩ := RouterThread.route_of_alive happly halive'
  obtain ⟨rfl, -⟩ := List.cons.inj (hinbox.symm.trans hinbox')
  obtain ⟨hnext, -⟩ := Router.handleMsg_next api id hserving msg
  rw [hmsg] at hnext
  have hanswer : DhcpServer.ServeStep api s (m, .ok (some reply)) (s.next api (some m)) :=
    ⟨Res.returns_ok _, Prod.ext hreply rfl⟩
  have hserving' : Serving b'.router.ip4Handlers (s.next api (some m)) := by
    show Serving b'.hosts.router.ip4Handlers _
    rw [hb']
    exact hnext
  obtain ⟨t, ht⟩ := served_run hrun' halive hserving'
  have hservingc := ht.serving
  obtain ⟨hnetc, -, ls', -, -, hserved', -⟩ := ht
  have hwhole := (hserved.snoc hanswer).append hserved'
  have hmem : (m, .ok (some reply)) ∈ ls ++ [(m, .ok (some reply))] ++ ls' := by simp
  have hheld := DhcpServer.answer_stands hpool h₀ hwhole hmem hfrom
  have hnetwork : c.router.network = net := by
    obtain ⟨handlers, wan, hstate⟩ := Router.handleMsg_state api id b.router msg
    rw [hnetc, hb', hstate]
    exact hnet
  refine ⟨⟨t, hservingc, hheld⟩, ?_, ?_⟩
  · rintro id' client' ⟨msg', rest', m', hinbox', hmsg', hfrom', out', hout', htells'⟩
    obtain ⟨reply', hreply', hsame⟩ := (tells_served hwire hservingc hmsg' hout').1 htells'
    have hagain : DhcpServer.ServeStep api t (m', .ok (some reply')) (t.next api (some m')) :=
      ⟨Res.returns_ok _, Prod.ext hreply' rfl⟩
    have hlast : (m', .ok (some reply')) ∈
        ls ++ [(m, .ok (some reply))] ++ ls' ++ [(m', Res.ok (some reply'))] :=
      List.mem_append_right _ (List.mem_singleton.2 rfl)
    have hheld' := DhcpServer.answer_stands hpool h₀ (hwhole.snoc hagain) hlast hfrom'
    have hstill := DhcpServer.answer_stands hpool h₀ (hwhole.snoc hagain) (List.mem_append_left _ hmem) hfrom
    rw [hsame, hstill] at hheld'
    exact (Option.some.inj hheld').symm
  · intro id' msg' rest' m' ty hinbox' hmsg' hfrom' hty hreq out' hout'
    rw [← hnetwork] at hmsg'
    obtain ⟨reply', hreply', hip, -⟩ := DhcpServer.serve_renewal t hty hfrom' hreq hheld
    exact (tells_served hwire hservingc hmsg' hout').2 ⟨reply', hreply', hip⟩

end Leases

set_option maxRecDepth 8000 in
theorem run_discovery : ∃ b b' out,
    Run (Step (Router.dialogue []) false)
      (new (guestMac 0xFF) homeNet (bridgeHandlers (homeServer [0x0A000064] Table.empty)) 0x0A090909) discovery b ∧
    b.inbox = [.fromLan discoverFrame] ∧
    Router.dhcpMsg (Router.dialogue []) b.router.network (.fromLan discoverFrame) =
      some (clientMsg .discover 1 none) ∧
    b.router.ip4Handlers = bridgeHandlers (homeServer [0x0A000064] Table.empty) ∧
    b.router.written (Router.dialogue []) 0 (.fromLan discoverFrame) = [out] ∧
    Step (Router.dialogue []) false b (.hosts (.route 0)) b' ∧ b'.alive = true :=
  ⟨_, _, _, .cons rfl (.cons rfl .nil), rfl, rfl, rfl, rfl, rfl, rfl⟩

theorem leases_hold_of_discovery : ∃ b b' s,
    Run (Step (Router.dialogue []) false)
      (new (guestMac 0xFF) homeNet (bridgeHandlers (homeServer [0x0A000064] Table.empty)) 0x0A090909) discovery b ∧
    Told (Router.dialogue []) 0 b (guestMac 1) 0x0A000064 ∧ Step (Router.dialogue []) false b (.hosts (.route 0)) b' ∧
    Serving b'.router.ip4Handlers s ∧ s.leased.get 0x0A000064 = some (guestMac 1) := by
  obtain ⟨b, b', out, hrun, hinbox, hmsg, hhandlers, hwritten, hstep, halive⟩ := run_discovery
  have hnew : DhcpServer.new 3 homeNet ⟨0x0A000064, 0x0A000064⟩ =
      some (.ok (homeServer [0x0A000064] Table.empty) : Res Empty DhcpServer) := rfl
  have hserving : Serving b.router.ip4Handlers (homeServer [0x0A000064] Table.empty) := by
    rw [hhandlers]
    exact serving_bridgeHandlers _
  have hout : out ∈ b.router.written (Router.dialogue []) 0 (.fromLan discoverFrame) := by
    rw [hwritten]
    exact List.mem_singleton.2 rfl
  have htells := (tells_served wire_dialogue hserving hmsg hout).2 ⟨Router.homeOffer, rfl, rfl⟩
  have htold : Told (Router.dialogue []) 0 b (guestMac 1) 0x0A000064 :=
    ⟨_, [], _, hinbox, hmsg, ⟨_, rfl, rfl⟩, out, hout, htells⟩
  obtain ⟨⟨s, hs, hheld⟩, -⟩ := leases_hold_over_bridge wire_dialogue hnew hrun htold hstep .nil halive
  exact ⟨b, b', s, hrun, htold, hstep, hs, hheld⟩

theorem dhcp_messages_served_of_discovery : ∃ b s ls,
    Run (Step (Router.dialogue []) false)
      (new (guestMac 0xFF) homeNet (bridgeHandlers (homeServer [0x0A000064] Table.empty)) 0x0A090909)
      (discovery ++ [.hosts (.route 0)]) b ∧
    Serving b.router.ip4Handlers s ∧
    Run (DhcpServer.ServeStep (Router.dialogue [])) (homeServer [0x0A000064] Table.empty) ls s ∧
    s.available = [0x0A000064].filter (fun ip => (s.leased.get ip).isNone) := by
  obtain ⟨b, b', -, hrun, -, -, -, -, hstep, halive⟩ := run_discovery
  have hnew : DhcpServer.new 3 homeNet ⟨0x0A000064, 0x0A000064⟩ =
      some (.ok (homeServer [0x0A000064] Table.empty) : Res Empty DhcpServer) := rfl
  have hrun' := hrun.snoc hstep
  obtain ⟨s, ls, hserving, hserved, -, havailable⟩ := dhcp_messages_served hnew hrun' halive
  exact ⟨b', s, ls, hrun', hserving, hserved, havailable⟩

end BridgeRun
end Oathgate
