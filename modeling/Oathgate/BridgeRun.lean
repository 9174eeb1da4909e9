import Oathgate.RouterThread
import Oathgate.WgLoopRun
/-!
# BridgeRun — the threads of a bridge (`oathgate-bridge`: `lib.rs`, `Bridge::run`; `net/router.rs`, `net/wan.rs`)

The devices hand frames to the switch, the switch delivers some of them to the router, the router writes packets to its
WAN device and the device hands packets back.  Router and device are threads with a channel each, and everything may
come between any two of their steps.  `messages_handled_once` says that nothing is lost or doubled between the threads,
`only_answers_reach_hosts` what of the outside reaches the network at all.
-/
namespace Oathgate

open Lib

/-! ## Threads -/

/-- The router's thread at its switch, and the WAN device. -/
structure BridgeRun extends hosts : RouterThread where
  wan : WgLoop

/-- Something happens on the hosts' side, or in or around the WAN device. -/
inductive BridgeEvent where
  | hosts (e : HostEvent)
  | wan (e : WgLoopEvent)

namespace BridgeRun

open RouterThread (queue routed lanOf wanOf ipv4Of forwarded Wired)

def new (mac : MacAddress) (network : Ipv4Network) (handlers : Table (BitVec 8) ProtocolHandler) (ipv4 : Ipv4Addr) :
    BridgeRun :=
  ⟨.new mac network handlers, .new ipv4⟩

/-- What the router forwards is written to the WAN device, and what the device routes is sent to the router. -/
def apply (api : Dhcproto) (traced : Bool) (b : BridgeRun) : BridgeEvent → Option BridgeRun
  | .hosts e => (b.hosts.apply api e).map fun x => ⟨x.1, x.2.foldl (fun l pkt => l.write pkt) b.wan⟩
  | .wan (.write _) => none
  | .wan e => (b.wan.apply traced e).map fun wan => ⟨b.hosts.post (routed b.wan.routed wan.routed), wan⟩

def Step (api : Dhcproto) (traced : Bool) (b : BridgeRun) (e : BridgeEvent) (b' : BridgeRun) : Prop :=
  b.apply api traced e = some b'

/-- Writing packets to the WAN device is a run of its loop. -/
theorem run_writes (traced : Bool) (l : WgLoop) (sent : List Ipv4Packet) :
    ∃ wes, Run (WgLoop.Step traced) l wes (sent.foldl (fun l pkt => l.write pkt) l) ∧ WgLoop.written wes = sent ∧
      (sent.foldl (fun l pkt => l.write pkt) l).routed = l.routed := by
  induction sent using List.reverseRecOn with
  | nil => exact ⟨[], .nil, rfl, rfl⟩
  | append_singleton sent pkt ih =>
    obtain ⟨wes, hrun, hwritten, hrouted⟩ := ih
    rw [List.foldl_append]
    have hstep : WgLoop.Step traced (sent.foldl (fun l pkt => l.write pkt) l) (.write pkt)
        ((sent.foldl (fun l pkt => l.write pkt) l).write pkt) := rfl
    refine ⟨wes ++ [.write pkt], hrun.snoc hstep, ?_, ?_⟩
    · rw [WgLoop.written_append, hwritten]
      rfl
    · rw [← hrouted]
      simp only [List.foldl_cons, List.foldl_nil]
      unfold WgLoop.write
      split <;> rfl

/-! ## Runs -/

/-- **How the threads are joined** while the router lives: what it has taken and has waiting is what the switch enqueued
on its port and what the WAN device routed, and what it forwards is what was written to the device. -/
structure Joined (traced : Bool) (net : Ipv4Network) (ipv4 : Ipv4Addr) (b : BridgeRun) : Prop where
  wired : Wired net b.router b.handled b.inbox
  fromWan : wanOf (b.handled ++ b.inbox) = b.wan.routed
  wan : ∃ wes, Run (WgLoop.Step traced) (.new ipv4) wes b.wan ∧
    WgLoop.written wes = b.handled.flatMap (forwarded net)

/-- What happens in or around the WAN device, besides writes to it, is a step of its loop. -/
theorem step_wan {api : Dhcproto} {traced : Bool} {b b' : BridgeRun} {e : WgLoopEvent}
    (h : Step api traced b (.wan e) b') : WgLoop.written [e] = [] ∧
      ∃ wan, WgLoop.Step traced b.wan e wan ∧ b' = ⟨b.hosts.post (routed b.wan.routed wan.routed), wan⟩ := by
  unfold Step apply at h
  cases e with
  | write pkt => cases h
  | _ =>
    obtain ⟨wan, hwan, rfl⟩ := Option.map_eq_some_iff.1 h
    exact ⟨rfl, wan, hwan, rfl⟩

/-- What happens on the hosts' side is written to the WAN device as far as the router forwards it. -/
theorem step_hosts {api : Dhcproto} {traced : Bool} {b b' : BridgeRun} {e : HostEvent}
    (h : Step api traced b (.hosts e) b') :
    ∃ sent, b.hosts.apply api e = some (b'.hosts, sent) ∧ b'.wan = sent.foldl (fun l pkt => l.write pkt) b.wan := by
  obtain ⟨⟨hosts, sent⟩, happly, rfl⟩ := Option.map_eq_some_iff.1 h
  exact ⟨sent, happly, rfl⟩

theorem alive_step {api : Dhcproto} {traced : Bool} {b b' : BridgeRun} {e : BridgeEvent}
    (hstep : Step api traced b e b') (halive : b'.alive = true) : b.alive = true := by
  cases e with
  | hosts e =>
    obtain ⟨sent, happly, -⟩ := step_hosts hstep
    exact RouterThread.alive_apply happly halive
  | wan e =>
    obtain ⟨-, wan, -, rfl⟩ := step_wan hstep
    exact (RouterThread.post_keeps _ b.hosts).2.2.symm.trans halive

theorem alive_run {api : Dhcproto} {traced : Bool} {b b' : BridgeRun} {es : List BridgeEvent}
    (hrun : Run (Step api traced) b es b') (halive : b'.alive = true) : b.alive = true := by
  refine Run.invariant (I := fun _ b' => b'.alive = true → b.alive = true) (fun h => h) ?_ hrun halive
  exact fun _ _ _ _ _ ih hstep halive => ih (alive_step hstep halive)

theorem joined_step {api : Dhcproto} {traced : Bool} {net : Ipv4Network} {ipv4 : Ipv4Addr} {b b' : BridgeRun}
    {e : BridgeEvent} (h : b.alive = true → Joined traced net ipv4 b) (hstep : Step api traced b e b')
    (halive : b'.alive = true) : Joined traced net ipv4 b' := by
  have hb := alive_step hstep halive
  obtain ⟨hwired, hwan, wes, hrun, hwritten⟩ := h hb
  cases e with
  | hosts e =>
    obtain ⟨sent, happly, hwrites⟩ := step_hosts hstep
    have hmoves := RouterThread.moves_apply hwired.network (fun _ => hwired) happly
    obtain ⟨wes', hrun', hwritten', hrouted⟩ := run_writes traced b.wan sent
    rw [← hwrites] at hrun' hrouted
    refine ⟨hmoves.wired halive, ?_, wes ++ wes', hrun.append hrun', ?_⟩
    · rw [hmoves.outside, hwan, hrouted]
    · rw [WgLoop.written_append, hwritten, hwritten', hmoves.forwards]
  | wan e =>
    obtain ⟨hother, wan, hwanstep, rfl⟩ := step_wan hstep
    obtain ⟨out, hout, hwhole⟩ := WgLoop.routed_step hwanstep
    obtain ⟨hrouted, hnone⟩ := RouterThread.wanOf_routed hout hwhole
    have hinbox := RouterThread.wanOf_post (t := b.hosts) hb (routed b.wan.routed wan.routed)
    rw [hwan, hrouted, ← hout] at hinbox
    rw [RouterThread.post_of_alive (t := b.hosts) hb] at hinbox ⊢
    refine ⟨hwired.told hnone, hinbox, wes ++ [e], hrun.snoc hwanstep, ?_⟩
    · rw [WgLoop.written_append, hother, List.append_nil, hwritten]

theorem joined_run {api : Dhcproto} {traced : Bool} {mac : MacAddress} {net : Ipv4Network}
    {handlers : Table (BitVec 8) ProtocolHandler} {ipv4 : Ipv4Addr} {es : List BridgeEvent} {b : BridgeRun}
    (hrun : Run (Step api traced) (new mac net handlers ipv4) es b) (halive : b.alive = true) :
    Joined traced net ipv4 b := by
  have hnew : (new mac net handlers ipv4).alive = true → Joined traced net ipv4 (new mac net handlers ipv4) :=
    fun _ => ⟨⟨rfl, Nat.one_pos, rfl, rfl⟩, rfl, [], .nil, rfl⟩
  exact Run.invariant (I := fun _ b => b.alive = true → Joined traced net ipv4 b) hnew
    (fun _ _ _ _ _ h hstep halive => joined_step h hstep halive) hrun halive

section Threads

variable {api : Dhcproto} {traced : Bool} {mac : MacAddress} {net : Ipv4Network}
  {handlers : Table (BitVec 8) ProtocolHandler} {ipv4 : Ipv4Addr} {es : List BridgeEvent} {b : BridgeRun}

/-- **Nothing is lost or doubled between the threads.**  In every run, as long as the router lives: the frames it has
taken and has waiting are exactly those the switch enqueued on its port, in order; the packets from outside it has
taken and has waiting are exactly those the WAN device routed, in order; and of the packets it forwards, the first ones
were given to the tunnel, each once and from the device's own address, and while the device runs the others are in its
hand or in its channel. -/
theorem messages_handled_once (hrun : Run (Step api traced) (new mac net handlers ipv4) es b)
    (halive : b.alive = true) :
    lanOf (b.handled ++ b.inbox) = queue b.router.switch b.router.port ∧
    wanOf (b.handled ++ b.inbox) = b.wan.routed ∧
    ∃ taken, taken <+: b.handled.flatMap (forwarded net) ∧
      List.Forall₂ (WgLoop.Sealed ipv4) taken (WgLoop.encapsulated b.wan.log) ∧
      (b.wan.phase ≠ .stopped →
        taken ++ b.wan.inHand ++ b.wan.channel.items = b.handled.flatMap (forwarded net)) := by
  obtain ⟨⟨-, -, hlan, -⟩, hwan, wes, hrun', hwritten⟩ := joined_run hrun halive
  obtain ⟨handled, hhist, hfirst, hrunning⟩ := WgLoop.follows_run hrun'
  rw [hwritten] at hfirst hrunning
  exact ⟨hlan, hwan, _, hfirst, hhist.encapsulated, hrunning⟩

/-- A packet from outside leads to a frame only when it is for the network or broadcast. -/
theorem within_of_written {r : Router} {id : BitVec 16} {q : Ipv4Packet} {whole : 20 ≤ q.data.length}
    {out : EthernetPacket} (hout : out ∈ r.written api id (.fromWan4 q whole)) :
    (r.network.contains q.dest || isBroadcastV4 q.dest) = true := by
  by_contra hnot
  have haction : r.actionOf api id (.fromWan4 q whole) = (.ok (.toWan q), r) := if_neg hnot
  unfold Router.written at hout
  rw [haction] at hout
  cases hout

/-- What the router has forwarded came from a guest, or was routed by the WAN device and answers another packet
forwarded. -/
theorem Joined.forwarded_from (h : Joined traced net ipv4 b) {p : Ipv4Packet}
    (hp : p ∈ b.handled.flatMap (forwarded net)) :
    (∃ pkt, .fromLan pkt ∈ b.handled ∧ pkt.frame.ethertype = .ipv4 ∧ Ipv4Packet.parse pkt.payload = .ok p) ∨
      p ∈ b.wan.routed := by
  obtain ⟨msg, hmsg, hforwarded⟩ := List.mem_flatMap.1 hp
  have hof : ipv4Of msg = some p := (Option.filter_eq_some_iff.1 (Option.mem_toList.1 hforwarded)).1
  cases msg with
  | fromWan4 pkt whole =>
    right
    cases hof
    rw [← h.fromWan]
    exact List.mem_filterMap.2 ⟨_, List.mem_append_left _ hmsg, rfl⟩
  | fromLan pkt =>
    left
    unfold ipv4Of at hof
    simp only at hof
    split at hof
    · rename_i hty
      split at hof
      · rename_i p' hparse
        cases hof
        exact ⟨pkt, hmsg, hty, hparse⟩
      · cases hof
    · cases hof

theorem outside_of_forwarded {msgs : List RouterMsg} {p : Ipv4Packet} (hp : p ∈ msgs.flatMap (forwarded net)) :
    (net.contains p.dest || isBroadcastV4 p.dest) = false := by
  obtain ⟨msg, -, hforwarded⟩ := List.mem_flatMap.1 hp
  have hout := (Option.filter_eq_some_iff.1 (Option.mem_toList.1 hforwarded)).2
  simpa using hout

/-- **Only answers reach the hosts.**  In every run of the bridge, whatever guests send and the tunnel yields: when the
router, about to handle a packet `q` from outside, writes a frame for it, then a guest has sent it a packet `p` before
with the address `q` is for as its source, to the sender of `q`, of the same protocol, and from the port or identifier
that the packet `r` from the tunnel, of which `q` is the translation, was sent to.  A packet for a host goes, as it is,
to the hardware address the router has for it. -/
theorem only_answers_reach_hosts (hrun : Run (Step api traced) (new mac net handlers ipv4) es b)
    (halive : b.alive = true) {q : Ipv4Packet} {whole : 20 ≤ q.data.length} {rest : List RouterMsg}
    (hinbox : b.inbox = .fromWan4 q whole :: rest) (id : BitVec 16) :
    ∀ out ∈ b.router.written api id (.fromWan4 q whole),
      (∃ pkt p r, .fromLan pkt ∈ b.handled ∧ pkt.frame.ethertype = .ipv4 ∧ Ipv4Packet.parse pkt.payload = .ok p ∧
        p.src = q.dest ∧ p.dest = q.src ∧ p.protocol = q.protocol ∧ NatTable.Mirrors r p ∧
        (r.unmasquerade p.src : Res NetworkError Ipv4Packet) = .ok q) ∧
      (q.dest ≠ net.ip → q.dest ≠ BitVec.allOnes 32 →
        out.payload = q.data ∧ b.router.arp.get (.v4 q.dest) = some out.frame.dst) := by
  have hjoined := joined_run hrun halive
  obtain ⟨wes, hwanrun, hwritten⟩ := hjoined.wan
  intro out hout
  have hwithin := within_of_written hout
  rw [hjoined.wired.network] at hwithin
  have hrouted : q ∈ b.wan.routed := by
    rw [← hjoined.fromWan]
    exact List.mem_filterMap.2 ⟨.fromWan4 q whole, by simp [hinbox], rfl⟩
  obtain ⟨done, r, p, hdone, ⟨l₁, l₂, hsplit, hmirrors, -⟩, hback, hdest, hsrc, hproto⟩ :=
    WgLoop.routed_run hwanrun hrouted
  have hp : p ∈ b.handled.flatMap (forwarded net) := by
    rw [← hwritten]
    refine hdone.subset ?_
    rw [hsplit]
    simp
  refine ⟨?_, ?_⟩
  · rcases hjoined.forwarded_from hp with ⟨pkt, hpkt, hty, hparse⟩ | hp
    · exact ⟨pkt, p, r, hpkt, hty, hparse, hdest.symm, hsrc.symm, hproto.symm, hmirrors, hback⟩
    · -- a packet from outside has the address of another network as its source
      obtain ⟨done', r', p', hdone', ⟨l₁', l₂', hsplit', -, -⟩, -, -, hsrc', -⟩ := WgLoop.routed_run hwanrun hp
      have hp' : p' ∈ b.handled.flatMap (forwarded net) := by
        rw [← hwritten]
        refine hdone'.subset ?_
        rw [hsplit']
        simp
      have houtside := outside_of_forwarded hp'
      rw [← hsrc', ← hdest, hwithin] at houtside
      cases houtside
  · intro hself hbcast
    have hcontains : b.router.network.contains q.dest = true := by
      rw [hjoined.wired.network]
      have hglobal : isBroadcastV4 q.dest = false := by simpa [isBroadcastV4] using hbcast
      simpa [hglobal] using hwithin
    have haction : b.router.actionOf api id (.fromWan4 q whole) = (.ok (.toLan .ipv4 (.v4 q.dest) q.data), b.router) :=
      Router.routeIp4_toLan api id b.router q hcontains (hjoined.wired.network ▸ hself) hbcast
    unfold Router.written at hout
    rw [haction] at hout
    obtain ⟨dst, hdst, rfl⟩ := Option.map_eq_some_iff.1 (Option.mem_toList.1 hout)
    exact ⟨rfl, hdst⟩

end Threads

/-- A guest announces itself and asks a server outside; the server answers. -/
def conversation : List BridgeEvent :=
  [.hosts .connect, .hosts (.frame 1 (Router.homeRequest.frame.wire ++ Router.homeRequest.payload)), .hosts (.route 0),
    .hosts (.frame 1 (EthernetFrame.wire ⟨guestMac 0xFF, guestMac 1, .ipv4⟩ ++ (WgDevice.query 0x0A000064 1000).data)),
    .hosts (.route 0),
    .wan .wake, .wan (.poll [.waker]), .wan .next, .wan (.call .done none), .wan .next,
    .wan (.arrive (.v4 0x01010101) [4, 0, 0, 0]), .wan (.poll [.udp]), .wan .next, .wan (.recv none),
    .wan (.call (.writeToTunnelV4 (WgDevice.answer 1000).data) none)]

theorem messages_handled_once_of_conversation : ∃ b,
    Run (Step decodedOnly false) (new (guestMac 0xFF) homeNet Table.empty 0x0A090909) conversation b ∧
    (lanOf (b.handled ++ b.inbox)).length = 2 ∧ (wanOf (b.handled ++ b.inbox)).length = 1 := by
  have hrun : Run (Step decodedOnly false) (new (guestMac 0xFF) homeNet Table.empty 0x0A090909) conversation _ :=
    .cons rfl <| .cons rfl <| .cons rfl <| .cons rfl <| .cons rfl <| .cons rfl <| .cons rfl <| .cons rfl <|
    .cons rfl <| .cons rfl <| .cons rfl <| .cons rfl <| .cons rfl <| .cons rfl <| .cons rfl .nil
  obtain ⟨hlan, hwan, -⟩ := messages_handled_once hrun rfl
  refine ⟨_, hrun, ?_, ?_⟩
  · rw [hlan]
    rfl
  · rw [hwan]
    rfl

theorem only_answers_reach_hosts_of_conversation : ∃ b q whole out,
    Run (Step decodedOnly false) (new (guestMac 0xFF) homeNet Table.empty 0x0A090909) conversation b ∧
    b.inbox = [.fromWan4 q whole] ∧ b.router.written decodedOnly 0 (.fromWan4 q whole) = [out] ∧
    out.payload = q.data ∧ out.frame.dst = guestMac 1 := by
  have hrun : Run (Step decodedOnly false) (new (guestMac 0xFF) homeNet Table.empty 0x0A090909) conversation _ :=
    .cons rfl <| .cons rfl <| .cons rfl <| .cons rfl <| .cons rfl <| .cons rfl <| .cons rfl <| .cons rfl <|
    .cons rfl <| .cons rfl <| .cons rfl <| .cons rfl <| .cons rfl <| .cons rfl <| .cons rfl .nil
  have hout := only_answers_reach_hosts hrun rfl rfl 0 _ (List.mem_singleton.2 rfl)
  obtain ⟨hpayload, -⟩ := hout.2 (by decide) (by decide)
  exact ⟨_, _, _, _, hrun, rfl, rfl, hpayload, rfl⟩

end BridgeRun
end Oathgate
