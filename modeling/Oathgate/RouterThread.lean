import Oathgate.RouterRun
import Oathgate.VhostPath
/-!
# RouterThread — the router's thread at its switch (`oathgate-bridge`: `net/router.rs`, `net/switch.rs`)

The devices hand frames to the switch, the switch delivers some of them to the router, and the router's thread takes
them from its channel one by one, between whatever else.  What the thread writes to its WAN device depends on the
device; `moves_apply` says what an event of this side does whichever it is: the thread stays joined to the switch, and
writes what it forwards.
-/
namespace Oathgate

open Lib

/-! ## The thread -/

/-- The router's thread with its channel and the messages it has taken from there; the switch is its router's. -/
structure RouterThread where
  router : Router
  inbox : List RouterMsg
  handled : List RouterMsg
  alive : Bool

/-- A device connects to the switch or hands it a frame, or the router takes its next message. -/
inductive HostEvent where
  | connect
  | frame (port : Nat) (pkt : List Byte)
  | route (id : BitVec 16)

namespace RouterThread

/-- The router on the first port of a new switch, with a WAN device. -/
def new (mac : MacAddress) (network : Ipv4Network) (handlers : Table (BitVec 8) ProtocolHandler) : RouterThread where
  router := ⟨Table.empty, (VirtioSwitch.new.connect []).2, 0, some [], mac, network, handlers⟩
  inbox := []
  handled := []
  alive := true

/-- What the switch has enqueued on a port. -/
def queue (switch : VirtioSwitch) (port : Nat) : List EthernetPacket := switch.ports.getD port []

/-- `RouterHandle::enqueue`, for what the switch enqueued on the router's port since. -/
def delivered (port : Nat) (before after : VirtioSwitch) : List RouterMsg :=
  ((queue after port).drop (queue before port).length).map .fromLan

/-- `RouterHandle::route_ipv4`, for what the WAN device routed since. -/
def routed (before after : List Ipv4Packet) : List RouterMsg :=
  (after.drop before.length).flatMap fun pkt =>
    if whole : 20 ≤ pkt.data.length then [.fromWan4 pkt whole] else []

/-- A message to a router that has died is dropped. -/
def post (msgs : List RouterMsg) (t : RouterThread) : RouterThread :=
  if t.alive then { t with inbox := t.inbox ++ msgs } else t

/-- The router's thread, up to its next message, with what it writes to the WAN device; what it writes to the switch may
come back to it. -/
def route (api : Dhcproto) (id : BitVec 16) (t : RouterThread) : Option (RouterThread × List Ipv4Packet) :=
  match t.alive, t.inbox with
  | true, msg :: rest =>
    let (res, router) := t.router.handleMsg api id msg
    let after := { t with router, inbox := rest, handled := t.handled ++ [msg] }
    match res with
    | .panic _ => some ({ after with alive := false }, [])
    | _ => some (after.post (delivered router.port t.router.switch router.switch),
        (router.wan.getD []).drop (t.router.wan.getD []).length)
  | _, _ => none

def apply (api : Dhcproto) (t : RouterThread) : HostEvent → Option (RouterThread × List Ipv4Packet)
  | .connect => some ({ t with router := { t.router with switch := (t.router.switch.connect []).2 } }, [])
  | .frame port pkt =>
    if port ≠ t.router.port ∧ port < t.router.switch.ports.length then
      let switch := (t.router.switch.process port pkt).2
      some ({ t with router := { t.router with switch } }.post (delivered t.router.port t.router.switch switch), [])
    else none
  | .route id => t.route api id

/-- A step of the hosts' side, whatever it writes to the WAN device. -/
def Step (api : Dhcproto) (t : RouterThread) (e : HostEvent) (t' : RouterThread) : Prop :=
  ∃ sent, t.apply api e = some (t', sent)

theorem step_deterministic {api : Dhcproto} (t : RouterThread) (e : HostEvent) (u u' : RouterThread)
    (h : Step api t e u) (h' : Step api t e u') : u = u' := by
  obtain ⟨sent, h⟩ := h
  obtain ⟨sent', h'⟩ := h'
  rw [h, Option.some.injEq, Prod.mk.injEq] at h'
  exact h'.1

theorem post_of_alive {t : RouterThread} (h : t.alive = true) (msgs : List RouterMsg) :
    t.post msgs = { t with inbox := t.inbox ++ msgs } := if_pos h

theorem post_keeps (msgs : List RouterMsg) (t : RouterThread) :
    (t.post msgs).router = t.router ∧ (t.post msgs).handled = t.handled ∧ (t.post msgs).alive = t.alive := by
  unfold post
  split
  · exact ⟨rfl, rfl, rfl⟩
  · exact ⟨rfl, rfl, rfl⟩

/-! ## What the router forwards -/

/-- The IPv4 packet of a message. -/
def ipv4Of : RouterMsg → Option Ipv4Packet
  | .fromLan pkt =>
    if pkt.frame.ethertype = .ipv4 then
      match Ipv4Packet.parse pkt.payload with
      | .ok pkt => some pkt
      | _ => none
    else none
  | .fromWan4 pkt _ => some pkt

/-- What a router forwards to the WAN for a message: a packet to an address outside its network. -/
def forwarded (network : Ipv4Network) (msg : RouterMsg) : List Ipv4Packet :=
  ((ipv4Of msg).filter fun pkt => !(network.contains pkt.dest || isBroadcastV4 pkt.dest)).toList

theorem wan_writeToSwitch (r : Router) (dst : MacAddress) (ty : EtherType) (pkt : List Byte) :
    (r.writeToSwitch dst ty pkt).2.wan = r.wan := by
  unfold Router.writeToSwitch
  apply Res.andThen_keeps (P := fun s : Router => s.wan = r.wan)
  · rfl
  · rintro _ s hs
    simp only
    split
    · exact hs
    · exact hs

theorem wan_handleAction (r : Router) (action : RouterAction) (dst : Option MacAddress) :
    (r.handleAction action dst).2.wan = match action with
      | .toWan pkt => r.wan.map (fun sent => sent ++ [pkt])
      | _ => r.wan := by
  cases action with
  | toWan pkt => rfl
  | drop pkt => rfl
  | toLan ty dstIp pkt =>
    unfold Router.handleAction
    simp only
    cases dst.or (r.arp.get dstIp) with
    | none => rfl
    | some mac => exact wan_writeToSwitch r mac ty pkt

/-- What a router writes to its WAN device for an action. -/
def toWanOf : Res ProtocolError RouterAction → List Ipv4Packet
  | .ok (.toWan pkt) => [pkt]
  | _ => []

theorem toWanOf_routeIp4 (api : Dhcproto) (id : BitVec 16) (r : Router) (pkt : Ipv4Packet) :
    toWanOf (r.routeIp4 api id pkt).1 =
      ((some pkt).filter fun pkt => !(r.network.contains pkt.dest || isBroadcastV4 pkt.dest)).toList := by
  unfold Router.routeIp4
  cases hnet : r.network.contains pkt.dest || isBroadcastV4 pkt.dest with
  | false => simp [toWanOf, Option.filter, hnet]
  | true =>
    simp only [if_true, Option.filter, hnet, Bool.not_true, Bool.false_eq_true, if_false, Option.toList_none]
    split
    · -- the router answers itself, or drops the packet
      rcases (Router.handleLocalIpv4_cases api id r pkt).2 with h | ⟨p, h⟩ | ⟨rpkt, h⟩
      · rw [h]
        rfl
      · rw [h]
        rfl
      · rw [h]
        cases hreply : Router.buildReply id pkt rpkt with
        | err e => rfl
        | panic p => rfl
        | ok action =>
          obtain ⟨-, -, haction⟩ := Router.buildReply_eq_ok.1 hreply
          rw [haction]
          rfl
    · rfl

theorem toWanOf_handleArp (r : Router) (payload : List Byte) : toWanOf (r.handleArp payload).1 = [] := by
  unfold Router.handleArp
  cases ArpPacket.parse payload with
  | err e => rfl
  | panic p => rfl
  | ok arp =>
    rw [Res.andThen_ok]
    simp only
    split
    · apply Res.andThen_cases (P := fun x : Res ProtocolError RouterAction × Router => toWanOf x.1 = [])
      · rintro rpkt s -
        rfl
      · intro res hres
        cases res with
        | ok action => exact absurd rfl (hres action)
        | err e => rfl
        | panic p => rfl
    · rfl

theorem toWanOf_actionOf (api : Dhcproto) (id : BitVec 16) (r : Router) (msg : RouterMsg) :
    toWanOf (r.actionOf api id msg).1 = forwarded r.network msg := by
  cases msg with
  | fromWan4 pkt whole => exact toWanOf_routeIp4 api id r pkt
  | fromLan pkt =>
    obtain ⟨⟨dst, src, ty⟩, payload⟩ := pkt
    cases ty with
    | arp => exact toWanOf_handleArp r payload
    | ipv6 => rfl
    | ipv4 =>
      unfold Router.actionOf Router.actionFor forwarded ipv4Of
      simp only [if_true]
      cases Ipv4Packet.parse payload with
      | err e => rfl
      | panic p => rfl
      | ok pkt => exact toWanOf_routeIp4 api id r pkt

/-- **The router writes to its WAN device exactly the packets to addresses outside its network.** -/
theorem wan_handleMsg (api : Dhcproto) (id : BitVec 16) (r : Router) (msg : RouterMsg) :
    (r.handleMsg api id msg).2.wan = r.wan.map fun sent => sent ++ forwarded r.network msg := by
  obtain ⟨handlers, hstate⟩ := Router.actionOf_state api id r msg
  have hforwarded := toWanOf_actionOf api id r msg
  rw [Router.handleMsg_eq]
  cases hx : r.actionOf api id msg with | mk res r'
  rw [hx] at hstate hforwarded
  simp only at hstate hforwarded
  have hsame : ∀ sent : Option (List Ipv4Packet), sent = sent.map fun sent => sent ++ [] := by
    intro sent
    cases sent <;> simp
  rw [← hforwarded]
  cases res with
  | err e =>
    rw [Res.andThen_err, hstate]
    exact hsame r.wan
  | panic p =>
    rw [Res.andThen_panic, hstate]
    exact hsame r.wan
  | ok action =>
    rw [Res.andThen_ok, wan_handleAction, hstate]
    cases action with
    | toWan pkt => rfl
    | drop pkt => exact hsame r.wan
    | toLan ty dstIp pkt => exact hsame r.wan

/-! ## What is delivered and routed -/

/-- The frames among messages. -/
def lanOf (msgs : List RouterMsg) : List EthernetPacket :=
  msgs.filterMap fun
    | .fromLan pkt => some pkt
    | .fromWan4 .. => none

/-- The packets of the WAN among messages. -/
def wanOf (msgs : List RouterMsg) : List Ipv4Packet :=
  msgs.filterMap fun
    | .fromLan _ => none
    | .fromWan4 pkt _ => some pkt

theorem lanOf_append (msgs msgs' : List RouterMsg) : lanOf (msgs ++ msgs') = lanOf msgs ++ lanOf msgs' :=
  List.filterMap_append

theorem wanOf_append (msgs msgs' : List RouterMsg) : wanOf (msgs ++ msgs') = wanOf msgs ++ wanOf msgs' :=
  List.filterMap_append

/-- **What the switch delivers to the router** is what it enqueued on the router's port. -/
theorem lanOf_delivered {port : Nat} {before after : VirtioSwitch} (hgrows : before.Grows after)
    (hport : port < before.ports.length) :
    queue before port ++ lanOf (delivered port before after) = queue after port ∧
      wanOf (delivered port before after) = [] := by
  obtain ⟨q, hq, hfirst⟩ := hgrows port _ (List.getElem?_eq_getElem hport)
  have hbefore : queue before port = before.ports[port] := by simp [queue, List.getD, hport]
  have hafter : queue after port = q := by simp [queue, List.getD, hq]
  unfold delivered lanOf wanOf
  rw [hbefore, hafter, List.filterMap_map, List.filterMap_map]
  refine ⟨?_, ?_⟩
  · obtain ⟨more, rfl⟩ := hfirst
    rw [List.drop_left]
    exact congrArg (before.ports[port] ++ ·) List.filterMap_some
  · exact List.filterMap_eq_nil_iff.2 fun _ _ => rfl

/-- **What the WAN device routes** is what the router is told of. -/
theorem wanOf_routed {before after out : List Ipv4Packet} (hout : after = before ++ out)
    (hwhole : ∀ q ∈ out, 20 ≤ q.data.length) :
    wanOf (routed before after) = out ∧ lanOf (routed before after) = [] := by
  unfold routed
  rw [hout, List.drop_left]
  clear hout
  induction out with
  | nil => exact ⟨rfl, rfl⟩
  | cons q out ih =>
    rw [List.forall_mem_cons] at hwhole
    obtain ⟨hwan, hlan⟩ := ih hwhole.2
    rw [List.flatMap_cons, dif_pos hwhole.1, wanOf_append, lanOf_append, hwan, hlan]
    exact ⟨rfl, rfl⟩

theorem grows_sends (port : Nat) : ∀ (frames : List EthernetPacket) (s : VirtioSwitch),
    s.Grows (frames.foldl (Router.send port) s)
  | [], s => .refl s
  | _ :: frames, s => (VirtioSwitch.grows_process s port _).trans (grows_sends port frames _)

/-! ## The router on its port -/

/-- What the router has taken and has waiting is what the switch enqueued on its port, and what it forwards was written
to its WAN device. -/
structure Wired (net : Ipv4Network) (r : Router) (handled inbox : List RouterMsg) : Prop where
  network : r.network = net
  port : r.port < r.switch.ports.length
  lan : lanOf (handled ++ inbox) = queue r.switch r.port
  sent : r.wan = some (handled.flatMap (forwarded net))

section Wired

variable {net : Ipv4Network} {r : Router} {handled inbox rest : List RouterMsg} {msg : RouterMsg}

theorem Wired.connect (h : Wired net r handled inbox) :
    Wired net { r with switch := (r.switch.connect []).2 } handled inbox := by
  refine ⟨h.network, ?_, ?_, h.sent⟩
  · have hport := h.port
    simp only [VirtioSwitch.connect, List.length_append]
    omega
  · rw [h.lan]
    simp [queue, VirtioSwitch.connect, List.getD, List.getElem?_append_left h.port]

/-- Messages that are no frames. -/
theorem Wired.told (h : Wired net r handled inbox) {msgs : List RouterMsg} (hmsgs : lanOf msgs = []) :
    Wired net r handled (inbox ++ msgs) := by
  refine ⟨h.network, h.port, ?_, h.sent⟩
  rw [← List.append_assoc, lanOf_append, hmsgs, List.append_nil]
  exact h.lan

theorem Wired.frame (h : Wired net r handled inbox) (port : Nat) (pkt : List Byte) :
    Wired net { r with switch := (r.switch.process port pkt).2 } handled
      (inbox ++ delivered r.port r.switch (r.switch.process port pkt).2) ∧
    wanOf (delivered r.port r.switch (r.switch.process port pkt).2) = [] := by
  obtain ⟨hdelivered, hnone⟩ := lanOf_delivered (VirtioSwitch.grows_process r.switch port pkt) h.port
  refine ⟨⟨h.network, ?_, ?_, h.sent⟩, hnone⟩
  · exact h.port.trans_eq (VirtioSwitch.length_ports_process _ _ _).symm
  · rw [← List.append_assoc, lanOf_append, h.lan]
    exact hdelivered

/-- **The router's next message** moves from the channel to those taken, and what comes back is behind the others. -/
theorem Wired.route (h : Wired net r handled (msg :: rest)) (api : Dhcproto) (id : BitVec 16) :
    Wired net (r.handleMsg api id msg).2 (handled ++ [msg])
      (rest ++ delivered (r.handleMsg api id msg).2.port r.switch (r.handleMsg api id msg).2.switch) ∧
    wanOf (delivered (r.handleMsg api id msg).2.port r.switch (r.handleMsg api id msg).2.switch) = [] ∧
    ((r.handleMsg api id msg).2.wan.getD []).drop (r.wan.getD []).length = forwarded net msg := by
  obtain ⟨handlers, wan, hstate⟩ := Router.handleMsg_state api id r msg
  have hforwards := wan_handleMsg api id r msg
  rw [h.network, h.sent, Option.map_some] at hforwards
  have hgrows : r.switch.Grows (r.handleMsg api id msg).2.switch := by
    rw [hstate]
    exact grows_sends _ _ _
  have hsame : (r.handleMsg api id msg).2.port = r.port := by rw [hstate]
  obtain ⟨hdelivered, hnone⟩ := lanOf_delivered hgrows h.port
  rw [hsame]
  refine ⟨⟨?_, ?_, ?_, ?_⟩, hnone, ?_⟩
  · rw [hstate]
    exact h.network
  · obtain ⟨q, hq, -⟩ := hgrows _ _ (List.getElem?_eq_getElem h.port)
    rw [hsame]
    exact (List.getElem?_eq_some_iff.1 hq).1
  · have hmoved : ∀ more, handled ++ [msg] ++ (rest ++ more) = handled ++ (msg :: rest) ++ more := by
      intro more
      simp
    rw [hsame, hmoved, lanOf_append, h.lan, hdelivered]
  · rw [hforwards, List.flatMap_append, List.flatMap_singleton]
  · rw [hforwards, h.sent, Option.getD_some, Option.getD_some, List.drop_left]

end Wired

/-! ## One event -/

section Events

variable {api : Dhcproto} {net : Ipv4Network} {t t' : RouterThread} {sent : List Ipv4Packet}

/-- The router's next message, when it does not end the router. -/
theorem route_of_alive {id : BitVec 16} (h : t.route api id = some (t', sent)) (halive : t'.alive = true) :
    t.alive = true ∧ ∃ msg rest, t.inbox = msg :: rest ∧ (t.router.handleMsg api id msg).1.Returns ∧
      t' = { t with
        router := (t.router.handleMsg api id msg).2
        handled := t.handled ++ [msg]
        inbox := rest ++ delivered (t.router.handleMsg api id msg).2.port t.router.switch
          (t.router.handleMsg api id msg).2.switch } := by
  unfold route at h
  simp only at h
  split at h
  · rename_i msg rest hb hinbox
    refine ⟨hb, msg, rest, hinbox, ?_⟩
    split at h
    · cases h
      cases halive
    · rename_i hgoes
      cases h
      exact ⟨fun p hp => hgoes p hp, if_pos hb⟩
  · cases h

/-- A router that lives has lived. -/
theorem alive_apply {e : HostEvent} (h : t.apply api e = some (t', sent)) (halive : t'.alive = true) :
    t.alive = true := by
  cases e with
  | connect =>
    cases h
    exact halive
  | frame port pkt =>
    unfold apply at h
    simp only at h
    split at h
    · cases h
      rwa [(post_keeps _ _).2.2] at halive
    · cases h
  | route id => exact (route_of_alive h halive).1

/-- Only the router's thread writes to the WAN device. -/
theorem sent_of_other {e : HostEvent} (h : t.apply api e = some (t', sent)) (he : ∀ id, e ≠ .route id) :
    sent = [] := by
  cases e with
  | connect =>
    cases h
    rfl
  | frame port pkt =>
    unfold apply at h
    simp only at h
    split at h
    · cases h
      rfl
    · cases h
  | route id => exact absurd rfl (he id)

/-- **What an event of the hosts' side does** to a router that is joined to the switch: it stays so while it lives, has
nothing new from outside, and has written what it forwards of the messages it took. -/
structure Moves (net : Ipv4Network) (t t' : RouterThread) (sent : List Ipv4Packet) : Prop where
  network : t'.router.network = net
  wired : t'.alive = true → Wired net t'.router t'.handled t'.inbox
  outside : wanOf (t'.handled ++ t'.inbox) = wanOf (t.handled ++ t.inbox)
  forwards : t'.handled.flatMap (forwarded net) = t.handled.flatMap (forwarded net) ++ sent

/-- Messages come to the channel of a router that lives, behind the others. -/
theorem wanOf_post (halive : t.alive = true) (msgs : List RouterMsg) :
    wanOf ((t.post msgs).handled ++ (t.post msgs).inbox) = wanOf (t.handled ++ t.inbox) ++ wanOf msgs := by
  rw [post_of_alive halive, ← wanOf_append, List.append_assoc]

/-- Frames for the router's channel. -/
theorem moves_post {u : RouterThread} {msgs : List RouterMsg} (hnetwork : u.router.network = net)
    (hsame : wanOf (u.handled ++ u.inbox) = wanOf (t.handled ++ t.inbox))
    (hforwards : u.handled.flatMap (forwarded net) = t.handled.flatMap (forwarded net) ++ sent)
    (hmsgs : u.alive = true → Wired net u.router u.handled (u.inbox ++ msgs) ∧ wanOf msgs = []) :
    Moves net t (u.post msgs) sent := by
  cases halive : u.alive with
  | true =>
    obtain ⟨hwired, hnone⟩ := hmsgs halive
    have hinbox := wanOf_post halive msgs
    rw [hnone, List.append_nil, hsame] at hinbox
    rw [post_of_alive halive] at hinbox ⊢
    exact ⟨hnetwork, fun _ => hwired, hinbox, hforwards⟩
  | false =>
    have hdropped : u.post msgs = u := by
      unfold post
      rw [halive]
      rfl
    rw [hdropped]
    exact ⟨hnetwork, fun h => absurd (halive.symm.trans h) nofun, hsame, hforwards⟩

/-- A message that ends the router is not forwarded. -/
theorem forwarded_of_panic {r : Router} {id : BitVec 16} {msg : RouterMsg} {p : Panic}
    (h : (r.handleMsg api id msg).1 = .panic p) : forwarded r.network msg = [] := by
  rw [← toWanOf_actionOf api id r msg]
  rw [Router.handleMsg_eq] at h
  cases hx : r.actionOf api id msg with | mk res r'
  rw [hx] at h
  cases res with
  | err e => rfl
  | panic q => rfl
  | ok action =>
    rw [Res.andThen_ok] at h
    cases action with
    | toWan pkt => cases h
    | drop pkt => rfl
    | toLan ty dstIp pkt => rfl

/-- **The router's next message** may end it, and then it is not forwarded. -/
theorem moves_route {id : BitVec 16} (hwired : t.alive = true → Wired net t.router t.handled t.inbox)
    (h : t.route api id = some (t', sent)) : Moves net t t' sent := by
  unfold route at h
  simp only at h
  split at h
  · rename_i msg rest halive hinbox
    have hbefore := hwired halive
    have hnetwork := hbefore.network
    rw [hinbox] at hbefore
    obtain ⟨hafter, hnone, hnew⟩ := hbefore.route api id
    have hmoved : wanOf (t.handled ++ [msg] ++ rest) = wanOf (t.handled ++ t.inbox) := by
      rw [hinbox, List.append_assoc, List.singleton_append]
    have hhandled : (t.handled ++ [msg]).flatMap (forwarded net) =
        t.handled.flatMap (forwarded net) ++ forwarded net msg := by
      rw [List.flatMap_append, List.flatMap_singleton]
    split at h
    · rename_i p hpanic
      have hnothing := forwarded_of_panic hpanic
      rw [hnetwork] at hnothing
      cases h
      exact ⟨hafter.network, nofun, hmoved, hhandled.trans (by rw [hnothing])⟩
    · cases h
      exact moves_post (u := { t with router := _, inbox := rest, handled := t.handled ++ [msg] })
        hafter.network hmoved (hhandled.trans (by rw [hnew])) fun _ => ⟨hafter, hnone⟩
  · cases h

theorem moves_apply {e : HostEvent} (hnetwork : t.router.network = net)
    (hwired : t.alive = true → Wired net t.router t.handled t.inbox) (h : t.apply api e = some (t', sent)) :
    Moves net t t' sent := by
  cases e with
  | connect =>
    cases h
    exact ⟨hnetwork, fun halive => (hwired halive).connect, rfl, (List.append_nil _).symm⟩
  | frame port pkt =>
    unfold apply at h
    simp only at h
    split at h
    · cases h
      exact moves_post (u := { t with router := { t.router with switch := (t.router.switch.process port pkt).2 } })
        hnetwork rfl (List.append_nil _).symm fun halive => (hwired halive).frame port pkt
    · cases h
  | route id => exact moves_route hwired h

end Events

end RouterThread
end Oathgate
