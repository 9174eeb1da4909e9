import Oathgate.RouterThread
import Oathgate.WgInbound
/-!
# BridgeUdp — a bridge with a UDP upstream (`oathgate-bridge`: `net/wan/udp.rs`; `net/router.rs`; `lib.rs`)

The router's thread sends what it forwards itself, on the socket the device's thread reads; it has the number of the
descriptor and not the socket, which is closed when the device's thread ends.  `upstream_ends_with_bad_datagram` says
what passes between the hosts and the upstream, and what a datagram that is no IP packet does to both directions.
-/
namespace Oathgate

open Lib

variable {A : Type}

/-! ## The device -/

/-- The device with its destinations: whether its thread lives, what the thread has handed to the router, and what was
sent on its socket. -/
structure UdpUpstream (A : Type) where
  dests : List A
  live : Bool
  routed : List Ipv4Packet
  sent : List (A × List Byte)

namespace UdpUpstream

/-- `UdpDevice::connect` with the endpoint of the configuration. -/
def connect (endpoint : A) : UdpUpstream A := ⟨[endpoint], true, [], []⟩

/-- `UdpDeviceHandle::write`, where `sendmsg` succeeds for so many destinations before it fails. -/
def write (granted : Nat) (pkt : Ipv4Packet) (u : UdpUpstream A) : UdpUpstream A :=
  if u.live then { u with sent := u.sent ++ (u.dests.take granted).map fun dest => (dest, pkt.data) } else u

/-- `UdpDevice::run` on its next datagram, or on a `recv_from` that fails; a socket that was closed receives nothing. -/
def receive (datagram : Option (List Byte)) (u : UdpUpstream A) : UdpUpstream A :=
  if u.live then
    match datagram.map UdpDevice.receive with
    | some (.ok out) => { u with routed := u.routed ++ out.toList }
    | _ => { u with live := false }
  else u

end UdpUpstream

/-! ## The threads -/

structure BridgeUdp (A : Type) extends hosts : RouterThread where
  upstream : UdpUpstream A

/-- Something happens on the hosts' side, where so many sends succeed for what the router forwards; or a datagram comes,
from whomever, or `recv_from` fails. -/
inductive UdpEvent where
  | hosts (e : HostEvent) (granted : Nat)
  | recv (datagram : Option (List Byte))

namespace BridgeUdp

open RouterThread (queue routed lanOf wanOf forwarded Wired)

def new (mac : MacAddress) (network : Ipv4Network) (handlers : Table (BitVec 8) ProtocolHandler) (endpoint : A) :
    BridgeUdp A :=
  ⟨.new mac network handlers, .connect endpoint⟩

/-- What the router forwards its own thread sends, and what the device routes is sent to the router. -/
def apply (api : Dhcproto) (b : BridgeUdp A) : UdpEvent → Option (BridgeUdp A)
  | .hosts e granted =>
    (b.hosts.apply api e).map fun x => ⟨x.1, x.2.foldl (fun u pkt => u.write granted pkt) b.upstream⟩
  | .recv datagram =>
    let upstream := b.upstream.receive datagram
    some ⟨b.hosts.post (routed b.upstream.routed upstream.routed), upstream⟩

def Step (api : Dhcproto) (b : BridgeUdp A) (e : UdpEvent) (b' : BridgeUdp A) : Prop := b.apply api e = some b'

/-! ## Datagrams -/

/-- What `recv_from` returned: the datagrams that came, and the failures. -/
def received (es : List UdpEvent) : List (Option (List Byte)) :=
  es.filterMap fun
    | .recv datagram => some datagram
    | .hosts .. => none

/-- The loop goes on after what `recv_from` returned. -/
def reads (datagram : Option (List Byte)) : Bool :=
  match datagram.map UdpDevice.receive with
  | some (.ok _) => true
  | _ => false

/-- The packet of a datagram. -/
def packetIn (datagram : Option (List Byte)) : Option Ipv4Packet :=
  match datagram.map UdpDevice.receive with
  | some (.ok out) => out
  | _ => none

theorem reads_iff (datagram : Option (List Byte)) :
    reads datagram = true ↔ ∃ bytes, datagram = some bytes ∧ UdpDevice.Harmless bytes := by
  cases datagram with
  | none => exact ⟨nofun, nofun⟩
  | some bytes =>
    simp only [Option.some.injEq, exists_eq_left']
    rw [← UdpDevice.receive_returns_iff]
    unfold reads
    rw [Option.map_some]
    cases UdpDevice.receive bytes with
    | ok out => exact ⟨fun _ => ⟨out, rfl⟩, fun _ => rfl⟩
    | err e => exact ⟨nofun, nofun⟩
    | panic p => exact ⟨nofun, nofun⟩

theorem packetIn_of_not_reads {datagram : Option (List Byte)} (h : reads datagram = false) :
    packetIn datagram = none := by
  unfold reads at h
  unfold packetIn
  split
  · rename_i out hd
    rw [hd] at h
    cases h
  · rfl

theorem received_recv (es : List UdpEvent) (datagram : Option (List Byte)) :
    received (es ++ [.recv datagram]) = received es ++ [datagram] := List.filterMap_append

theorem received_hosts (es : List UdpEvent) (e : HostEvent) (granted : Nat) :
    received (es ++ [.hosts e granted]) = received es :=
  List.filterMap_append.trans (List.append_nil _)

/-- The packet of a datagram holds the header it was parsed with. -/
theorem whole_of_receive {bytes : List Byte} {pkt : Ipv4Packet} (h : UdpDevice.receive bytes = .ok (some pkt)) :
    20 ≤ pkt.data.length := by
  unfold UdpDevice.receive at h
  simp only [Res.bind_eq_ok] at h
  obtain ⟨b0, -, h⟩ := h
  split at h
  · simp only [Res.bind_eq_ok, Res.mapErr_eq_ok, Res.pure_eq, Res.ok.injEq, Option.some.injEq] at h
    obtain ⟨parsed, hparse, rfl⟩ := h
    obtain ⟨hreadable, rfl⟩ := parse_eq_ok_iff.mp hparse
    exact hreadable.1
  · simp at h

theorem whole_of_packetIn {datagram : Option (List Byte)} {pkt : Ipv4Packet} (h : packetIn datagram = some pkt) :
    20 ≤ pkt.data.length := by
  unfold packetIn at h
  split at h
  · rename_i out hd
    subst h
    obtain ⟨bytes, -, hbytes⟩ := Option.map_eq_some_iff.1 hd
    exact whole_of_receive hbytes
  · cases h

/-- What the device makes of what `recv_from` returns. -/
theorem receive_live {u : UdpUpstream A} (hlive : u.live = true) (datagram : Option (List Byte)) :
    u.receive datagram =
      { u with routed := u.routed ++ (packetIn datagram).toList, live := reads datagram } := by
  unfold UdpUpstream.receive packetIn reads
  rw [if_pos hlive]
  split
  · rw [hlive]
  · rw [Option.toList_none, List.append_nil]

/-- **What the router is told of** is the packet of the datagram. -/
theorem told_receive {u : UdpUpstream A} (hlive : u.live = true) (datagram : Option (List Byte)) :
    wanOf (routed u.routed (u.receive datagram).routed) = (packetIn datagram).toList ∧
      lanOf (routed u.routed (u.receive datagram).routed) = [] := by
  rw [receive_live hlive]
  refine RouterThread.wanOf_routed rfl fun q hq => ?_
  exact whole_of_packetIn (Option.mem_toList.1 hq)

/-- **A closed socket neither receives nor sends.** -/
theorem receive_closed {u : UdpUpstream A} (h : u.live = false) (datagram : Option (List Byte)) :
    u.receive datagram = u := by
  unfold UdpUpstream.receive
  rw [h]
  rfl

theorem writes_closed {u : UdpUpstream A} (h : u.live = false) (granted : Nat) (pkts : List Ipv4Packet) :
    pkts.foldl (fun u pkt => u.write granted pkt) u = u := by
  induction pkts with
  | nil => rfl
  | cons pkt pkts ih =>
    have hsame : u.write granted pkt = u := by
      unfold UdpUpstream.write
      rw [h]
      rfl
    rw [List.foldl_cons, hsame, ih]

/-- What the router's thread sends while the socket is open. -/
theorem writes_live {u : UdpUpstream A} (h : u.live = true) (granted : Nat) (pkts : List Ipv4Packet) :
    pkts.foldl (fun u pkt => u.write granted pkt) u = { u with
      sent := u.sent ++ pkts.flatMap fun pkt => (u.dests.take granted).map fun dest => (dest, pkt.data) } := by
  induction pkts generalizing u with
  | nil => simp
  | cons pkt pkts ih =>
    have hwrite : u.write granted pkt =
        { u with sent := u.sent ++ (u.dests.take granted).map fun dest => (dest, pkt.data) } := if_pos h
    have hrest := ih (u := u.write granted pkt) (by rw [hwrite]; exact h)
    rw [List.foldl_cons, hrest, hwrite]
    simp

/-! ## Runs -/

theorem takeWhile_stops {α : Type} {p : α → Bool} {xs : List α} (h : xs.all p = false) (ys : List α) :
    (xs ++ ys).takeWhile p = xs.takeWhile p := by
  induction xs with
  | nil => cases h
  | cons x xs ih =>
    rw [List.cons_append, List.takeWhile_cons, List.takeWhile_cons]
    cases hx : p x with
    | false => rfl
    | true =>
      rw [List.all_cons, hx, Bool.true_and] at h
      simp only [if_true]
      rw [ih h]

/-- What the device's thread has made of what it received. -/
structure Heard (endpoint : A) (es : List UdpEvent) (u : UdpUpstream A) : Prop where
  dests : u.dests = [endpoint]
  live : u.live = (received es).all reads
  routed : u.routed = ((received es).takeWhile reads).filterMap packetIn
  sent : ∀ x ∈ u.sent, x.1 = endpoint

theorem Heard.hosts {endpoint : A} {es : List UdpEvent} {u : UdpUpstream A} (h : Heard endpoint es u) (e : HostEvent)
    (granted : Nat) : Heard endpoint (es ++ [.hosts e granted]) u := by
  refine ⟨h.dests, ?_, ?_, h.sent⟩
  · rw [received_hosts]
    exact h.live
  · rw [received_hosts]
    exact h.routed

theorem Heard.writes {endpoint : A} {es : List UdpEvent} {u : UdpUpstream A} (h : Heard endpoint es u) (granted : Nat)
    (pkts : List Ipv4Packet) : Heard endpoint es (pkts.foldl (fun u pkt => u.write granted pkt) u) := by
  cases hlive : u.live with
  | false =>
    rw [writes_closed hlive]
    exact h
  | true =>
    rw [writes_live hlive]
    refine ⟨h.dests, h.live, h.routed, ?_⟩
    intro x hx
    rcases List.mem_append.mp hx with hx | hx
    · exact h.sent x hx
    · obtain ⟨pkt, -, hx⟩ := List.mem_flatMap.mp hx
      obtain ⟨dest, hdest, rfl⟩ := List.mem_map.mp hx
      rw [h.dests] at hdest
      exact List.mem_singleton.mp (List.mem_of_mem_take hdest)

theorem Heard.recv {endpoint : A} {es : List UdpEvent} {u : UdpUpstream A} (h : Heard endpoint es u)
    (datagram : Option (List Byte)) : Heard endpoint (es ++ [.recv datagram]) (u.receive datagram) := by
  have hall : (received (es ++ [.recv datagram])).all reads = ((received es).all reads && reads datagram) := by
    rw [received_recv]
    simp
  cases hlive : u.live with
  | false =>
    rw [receive_closed hlive]
    refine ⟨h.dests, ?_, ?_, h.sent⟩
    · rw [hall, ← h.live, hlive]
      rfl
    · rw [received_recv, takeWhile_stops (h.live.symm.trans hlive)]
      exact h.routed
  | true =>
    have hgood : ∀ x ∈ received es, reads x = true := List.all_eq_true.mp (h.live.symm.trans hlive)
    rw [receive_live hlive]
    refine ⟨h.dests, ?_, ?_, h.sent⟩
    · rw [hall, ← h.live, hlive]
      rfl
    · have hself : (received es).takeWhile reads = received es := by
        calc (received es).takeWhile reads
          _ = (received es ++ []).takeWhile reads := by rw [List.append_nil]
          _ = received es ++ [] := List.takeWhile_append_of_pos hgood
          _ = received es := List.append_nil _
      simp only
      rw [h.routed, received_recv, List.takeWhile_append_of_pos hgood, hself, List.filterMap_append]
      cases hreads : reads datagram with
      | true =>
        cases hpacket : packetIn datagram with
        | none => simp [hreads, hpacket]
        | some pkt => simp [hreads, hpacket]
      | false => simp [hreads, packetIn_of_not_reads hreads]

/-- What happens on the hosts' side is sent as far as the router forwards it. -/
theorem step_hosts {api : Dhcproto} {b b' : BridgeUdp A} {e : HostEvent} {granted : Nat}
    (h : Step api b (.hosts e granted) b') :
    ∃ sent, b.hosts.apply api e = some (b'.hosts, sent) ∧
      b'.upstream = sent.foldl (fun u pkt => u.write granted pkt) b.upstream := by
  obtain ⟨⟨hosts, sent⟩, happly, rfl⟩ := Option.map_eq_some_iff.1 h
  exact ⟨sent, happly, rfl⟩

theorem heard_step {api : Dhcproto} {endpoint : A} {es : List UdpEvent} {b b' : BridgeUdp A} {e : UdpEvent}
    (h : Heard endpoint es b.upstream) (hstep : Step api b e b') : Heard endpoint (es ++ [e]) b'.upstream := by
  cases e with
  | hosts e granted =>
    obtain ⟨sent, -, hsent⟩ := step_hosts hstep
    rw [hsent]
    exact (h.hosts e granted).writes granted sent
  | recv datagram =>
    cases hstep
    exact h.recv datagram

/-- **Nothing passes a closed socket** any more. -/
theorem closed_run {api : Dhcproto} {es : List UdpEvent} {b b' : BridgeUdp A} (hrun : Run (Step api) b es b')
    (h : b.upstream.live = false) : b'.upstream = b.upstream := by
  induction hrun with
  | nil => rfl
  | @snoc ls t u e hrun hstep ih =>
    rw [← ih]
    have ht : t.upstream.live = false := ih ▸ h
    cases e with
    | hosts e granted =>
      obtain ⟨sent, -, hsent⟩ := step_hosts hstep
      rw [hsent, writes_closed ht]
    | recv datagram =>
      cases hstep
      exact receive_closed ht datagram

/-- **How the threads are joined** while the router lives: what it has taken and has waiting is what the switch enqueued
on its port and what the device routed, and what was sent is what it forwards. -/
structure Joined (net : Ipv4Network) (es : List UdpEvent) (b : BridgeUdp A) : Prop where
  wired : Wired net b.router b.handled b.inbox
  fromWan : wanOf (b.handled ++ b.inbox) = b.upstream.routed
  sent : (b.upstream.sent.map Prod.snd).Sublist ((b.handled.flatMap (forwarded net)).map Ipv4Packet.data)
  all : b.upstream.live = true → (∀ id granted, .hosts (.route id) granted ∈ es → 1 ≤ granted) →
    b.upstream.sent.map Prod.snd = (b.handled.flatMap (forwarded net)).map Ipv4Packet.data

theorem kept_writes (granted : Nat) (pkts : List Ipv4Packet) (u : UdpUpstream A) :
    (pkts.foldl (fun u pkt => u.write granted pkt) u).routed = u.routed ∧
      (pkts.foldl (fun u pkt => u.write granted pkt) u).live = u.live := by
  cases hlive : u.live with
  | false =>
    rw [writes_closed hlive]
    exact ⟨rfl, hlive⟩
  | true =>
    rw [writes_live hlive]
    exact ⟨rfl, hlive⟩

/-- What is sent of packets to one destination: all of them, or none. -/
theorem sent_to_one (endpoint : A) (granted : Nat) (pkts : List Ipv4Packet) :
    (pkts.flatMap fun pkt => ([endpoint].take granted).map fun dest => (dest, pkt.data)).map Prod.snd =
      if granted = 0 then [] else pkts.map Ipv4Packet.data := by
  induction pkts with
  | nil => simp
  | cons pkt pkts ih =>
    rw [List.flatMap_cons, List.map_append, ih]
    cases granted with
    | zero => rfl
    | succ n => simp

/-- What one message adds to what was sent. -/
theorem sent_writes {u : UdpUpstream A} {endpoint : A} (hdests : u.dests = [endpoint]) (granted : Nat)
    (pkts : List Ipv4Packet) :
    ∃ more, (pkts.foldl (fun u pkt => u.write granted pkt) u).sent = u.sent ++ more ∧
      (more.map Prod.snd).Sublist (pkts.map Ipv4Packet.data) ∧
      (u.live = true → 1 ≤ granted → more.map Prod.snd = pkts.map Ipv4Packet.data) := by
  cases hlive : u.live with
  | false =>
    rw [writes_closed hlive]
    exact ⟨[], (List.append_nil _).symm, List.nil_sublist _, nofun⟩
  | true =>
    rw [writes_live hlive, hdests]
    refine ⟨_, rfl, ?_, ?_⟩
    · rw [sent_to_one]
      split
      · exact List.nil_sublist _
      · exact List.Sublist.refl _
    · intro _ hgranted
      rw [sent_to_one, if_neg (by omega)]

/-- A router that lives has lived. -/
theorem alive_step {api : Dhcproto} {b b' : BridgeUdp A} {e : UdpEvent} (hstep : Step api b e b')
    (halive : b'.alive = true) : b.alive = true := by
  cases e with
  | hosts e granted =>
    obtain ⟨sent, happly, -⟩ := step_hosts hstep
    exact RouterThread.alive_apply happly halive
  | recv datagram =>
    cases hstep
    exact (RouterThread.post_keeps _ b.hosts).2.2.symm.trans halive

theorem joined_hosts {api : Dhcproto} {net : Ipv4Network} {endpoint : A} {es : List UdpEvent} {b b' : BridgeUdp A}
    {e : HostEvent} {granted : Nat} (h : Joined net es b) (hheard : Heard endpoint es b.upstream)
    (hstep : Step api b (.hosts e granted) b') (halive : b'.alive = true) :
    Joined net (es ++ [.hosts e granted]) b' := by
  obtain ⟨hwired, hwan, hsent, hall⟩ := h
  obtain ⟨sent, happly, hupstream⟩ := step_hosts hstep
  have hmoves := RouterThread.moves_apply hwired.network (fun _ => hwired) happly
  obtain ⟨more, hwrites, hsub, hgranted⟩ := sent_writes hheard.dests granted sent
  obtain ⟨hrouted, hlive⟩ := kept_writes granted sent b.upstream
  rw [← hupstream] at hwrites hrouted hlive
  refine ⟨hmoves.wired halive, ?_, ?_, ?_⟩
  · rw [hmoves.outside, hwan, hrouted]
  · rw [hwrites, hmoves.forwards, List.map_append, List.map_append]
    exact hsent.append hsub
  · intro hopen hroutes
    rw [hlive] at hopen
    have hbefore := hall hopen fun id' granted' hmem => hroutes id' granted' (List.mem_append_left _ hmem)
    have hlast : more.map Prod.snd = sent.map Ipv4Packet.data := by
      cases e with
      | route id => exact hgranted hopen (hroutes id granted (List.mem_append_right _ (List.mem_singleton_self _)))
      | _ =>
        rw [RouterThread.sent_of_other happly nofun] at hsub ⊢
        exact List.sublist_nil.1 hsub
    rw [hwrites, hmoves.forwards, List.map_append, List.map_append, hbefore, hlast]

theorem joined_recv {net : Ipv4Network} {es : List UdpEvent} {b : BridgeUdp A} (h : Joined net es b)
    (halive : b.alive = true) (datagram : Option (List Byte)) : Joined net (es ++ [.recv datagram])
      ⟨b.hosts.post (routed b.upstream.routed (b.upstream.receive datagram).routed), b.upstream.receive datagram⟩ := by
  obtain ⟨hwired, hwan, hsent, hall⟩ := h
  have hinbox := RouterThread.wanOf_post (t := b.hosts) halive
    (routed b.upstream.routed (b.upstream.receive datagram).routed)
  rw [RouterThread.post_of_alive (t := b.hosts) halive] at hinbox ⊢
  cases hlive : b.upstream.live with
  | false =>
    have hnone : routed b.upstream.routed b.upstream.routed = [] := by
      unfold routed
      rw [List.drop_length]
      rfl
    rw [receive_closed hlive, hnone, List.append_nil]
    refine ⟨hwired, hwan, hsent, fun hopen => ?_⟩
    rw [show b.upstream.live = true from hopen] at hlive
    cases hlive
  | true =>
    obtain ⟨hpackets, hnone⟩ := told_receive hlive datagram
    refine ⟨hwired.told hnone, hinbox.trans ?_, ?_, ?_⟩
    · rw [hwan, hpackets, receive_live hlive]
    · show ((b.upstream.receive datagram).sent.map Prod.snd).Sublist _
      rw [receive_live hlive]
      exact hsent
    · intro _ hroutes
      show (b.upstream.receive datagram).sent.map Prod.snd = _
      rw [receive_live hlive]
      exact hall hlive fun id granted hmem => hroutes id granted (List.mem_append_left _ hmem)

theorem joined_step {api : Dhcproto} {net : Ipv4Network} {endpoint : A} {es : List UdpEvent} {b b' : BridgeUdp A}
    {e : UdpEvent} (h : b.alive = true → Joined net es b) (hheard : Heard endpoint es b.upstream)
    (hstep : Step api b e b') (halive : b'.alive = true) : Joined net (es ++ [e]) b' := by
  have hb := alive_step hstep halive
  cases e with
  | hosts e granted => exact joined_hosts (h hb) hheard hstep halive
  | recv datagram =>
    cases hstep
    exact joined_recv (h hb) hb datagram

theorem threads_run {api : Dhcproto} {mac : MacAddress} {net : Ipv4Network}
    {handlers : Table (BitVec 8) ProtocolHandler} {endpoint : A} {es : List UdpEvent} {b : BridgeUdp A}
    (hrun : Run (Step api) (new mac net handlers endpoint) es b) :
    Heard endpoint es b.upstream ∧ (b.alive = true → Joined net es b) := by
  refine Run.invariant (I := fun es b => Heard endpoint es b.upstream ∧ (b.alive = true → Joined net es b)) ?_ ?_ hrun
  · exact ⟨⟨rfl, rfl, rfl, nofun⟩, fun _ => ⟨⟨rfl, Nat.one_pos, rfl, rfl⟩, rfl, .slnil, fun _ _ => rfl⟩⟩
  · rintro es b e b' - ⟨hheard, hjoined⟩ hstep
    exact ⟨heard_step hheard hstep, fun halive => joined_step hjoined hheard hstep halive⟩

/-- **What passes a UDP upstream, and what ends it.**  In every run of the bridge, whatever guests send and whoever
sends datagrams: the socket is open exactly as long as no receive failed and every datagram was harmless; everything
sent on it goes to the configured endpoint; while the router lives, it has taken and has waiting exactly the frames the
switch enqueued for it and the packets of the datagrams up to the first failure or datagram that was not harmless, each
in order, and of the packets it forwards some are sent, in order, all of them as long as the socket is open and no send
fails.  From the first failure or datagram on that is not harmless nothing is sent and nothing received any more,
whatever happens. -/
theorem upstream_ends_with_bad_datagram {api : Dhcproto} {mac : MacAddress} {net : Ipv4Network}
    {handlers : Table (BitVec 8) ProtocolHandler} {endpoint : A} {es : List UdpEvent} {b : BridgeUdp A}
    (hrun : Run (Step api) (new mac net handlers endpoint) es b) :
    (b.upstream.live = true ↔ ∀ r ∈ received es, ∃ bytes, r = some bytes ∧ UdpDevice.Harmless bytes) ∧
    (∀ x ∈ b.upstream.sent, x.1 = endpoint) ∧
    (b.alive = true →
      lanOf (b.handled ++ b.inbox) = queue b.router.switch b.router.port ∧
      wanOf (b.handled ++ b.inbox) = ((received es).takeWhile reads).filterMap packetIn ∧
      (b.upstream.sent.map Prod.snd).Sublist ((b.handled.flatMap (forwarded net)).map Ipv4Packet.data) ∧
      (b.upstream.live = true → (∀ id granted, .hosts (.route id) granted ∈ es → 1 ≤ granted) →
        b.upstream.sent.map Prod.snd = (b.handled.flatMap (forwarded net)).map Ipv4Packet.data)) ∧
    ((∃ r ∈ received es, ∀ bytes, r = some bytes → ¬ UdpDevice.Harmless bytes) →
      ∀ es' b', Run (Step api) b es' b' → b'.upstream = b.upstream) := by
  obtain ⟨hheard, hjoined⟩ := threads_run hrun
  have hlive : b.upstream.live = true ↔
      ∀ r ∈ received es, ∃ bytes, r = some bytes ∧ UdpDevice.Harmless bytes := by
    rw [hheard.live, List.all_eq_true]
    exact forall₂_congr fun r _ => reads_iff r
  refine ⟨hlive, hheard.sent, ?_, ?_⟩
  · intro halive
    have hj := hjoined halive
    exact ⟨hj.wired.lan, hj.fromWan.trans hheard.routed, hj.sent, hj.all⟩
  · rintro ⟨r, hmem, hbad⟩ es' b' hrun'
    refine closed_run hrun' ?_
    cases hopen : b.upstream.live with
    | false => rfl
    | true =>
      obtain ⟨bytes, hsome, hgood⟩ := hlive.mp hopen r hmem
      exact absurd hgood (hbad bytes hsome)

/-- A guest announces itself and asks a server outside twice; in between someone sends an empty datagram. -/
def cutOff : List UdpEvent :=
  let ask := EthernetFrame.wire ⟨guestMac 0xFF, guestMac 1, .ipv4⟩ ++ (WgDevice.query 0x0A000064 1000).data
  [.hosts .connect 1, .hosts (.frame 1 (Router.homeRequest.frame.wire ++ Router.homeRequest.payload)) 1,
    .hosts (.route 0) 1, .hosts (.frame 1 ask) 1, .hosts (.route 0) 1, .recv (some []), .hosts (.frame 1 ask) 1,
    .hosts (.route 0) 1]

theorem upstream_ends_with_empty_datagram : ∃ b,
    Run (Step decodedOnly) (new (guestMac 0xFF) homeNet Table.empty (0 : Nat)) cutOff b ∧
    (b.handled.flatMap (forwarded homeNet)).length = 2 ∧
    b.upstream.sent = [(0, (WgDevice.query 0x0A000064 1000).data)] ∧
    ∀ es' b', Run (Step decodedOnly) b es' b' → b'.upstream = b.upstream := by
  have hrun : Run (Step decodedOnly) (new (guestMac 0xFF) homeNet Table.empty (0 : Nat)) cutOff _ :=
    .cons rfl <| .cons rfl <| .cons rfl <| .cons rfl <| .cons rfl <| .cons rfl <| .cons rfl <| .cons rfl .nil
  obtain ⟨-, -, -, hclosed⟩ := upstream_ends_with_bad_datagram hrun
  refine ⟨_, hrun, rfl, rfl, hclosed ⟨some [], List.mem_singleton_self _, ?_⟩⟩
  rintro bytes hbytes hgood
  cases hbytes
  exact hgood.1 rfl

end BridgeUdp
end Oathgate
