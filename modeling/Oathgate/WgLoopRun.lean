import Mathlib.Data.List.Chain
import Mathlib.Data.List.Forall2
import Oathgate.WgLoop
/-!
# WgLoopRun — what the loop of the device has taken up (`oathgate-bridge`: `net/wan/wireguard.rs`, `run`)

Whatever the tunnel answers, the loop does what `WgTunnel.Step` says, packet for packet; it opens the datagrams that
arrive in order; and it forgets neither.
-/
namespace Oathgate

open Lib NatTable

namespace WgLoop

/-! ## Packets out -/

/-- The packets written to the device. -/
def written (es : List WgLoopEvent) : List Ipv4Packet :=
  es.filterMap fun
    | .write pkt => some pkt
    | _ => none

/-- The packets among what a device has taken up. -/
def sentOf (handled : List WgEvent) : List Ipv4Packet :=
  handled.filterMap fun
    | .sent pkt => some pkt
    | .received _ => none

/-- What the tunnel was given to send. -/
def encapsulated (log : List (TunnCall × TunnResult)) : List (List Byte) :=
  log.filterMap fun x =>
    match x.1 with
    | .encapsulate pkt => some pkt
    | _ => none

/-- The packets drained and not yet filed. -/
def inHand (l : WgLoop) : List Ipv4Packet :=
  match l.phase with
  | .sending pkts _ => pkts
  | _ => []

/-- The bytes of a packet from the device's own address. -/
def Sealed (ipv4 : Ipv4Addr) (pkt : Ipv4Packet) (bytes : List Byte) : Prop :=
  ∃ w, (pkt.masquerade ipv4 : Res NetworkError Ipv4Packet) = .ok w ∧ bytes = w.data

/-- **`q` is an answer to one of these packets**: a packet that came in with its destination replaced by the source of
the last one it mirrors. -/
def AnswerTo (sent : List Ipv4Packet) (q : Ipv4Packet) : Prop :=
  ∃ r p, LastWith (Mirrors r) sent p ∧ (r.unmasquerade p.src : Res NetworkError Ipv4Packet) = .ok q

/-- **What the device has taken up so far**, in order: its state, the bytes it gave to the tunnel, and what it routed. -/
structure History (traced : Bool) (ipv4 : Ipv4Addr) (handled : List WgEvent) (l : WgLoop) : Prop where
  run : Run (WgTunnel.Step traced) (new ipv4).device handled l.device
  encapsulated : List.Forall₂ (Sealed ipv4) (sentOf handled) (encapsulated l.log)
  routed : ∀ q ∈ l.routed, ∃ done, done <+: sentOf handled ∧ AnswerTo done q

/-- **Packets leave in order**: those taken up are the first written; while the device runs, the others are in its hand
or in its channel. -/
def Follows (traced : Bool) (ipv4 : Ipv4Addr) (es : List WgLoopEvent) (l : WgLoop) : Prop :=
  ∃ handled, History traced ipv4 handled l ∧ sentOf handled <+: written es ∧
    (l.phase ≠ .stopped → sentOf handled ++ l.inHand ++ l.channel.items = written es)

theorem written_append (es es' : List WgLoopEvent) : written (es ++ es') = written es ++ written es' :=
  List.filterMap_append

theorem sentOf_append (handled handled' : List WgEvent) :
    sentOf (handled ++ handled') = sentOf handled ++ sentOf handled' := List.filterMap_append

/-- **The table of a run** is filled with the packets sent, and the address stays. -/
theorem nat_run {traced : Bool} {d d' : WgTunnel} {handled : List WgEvent}
    (h : Run (WgTunnel.Step traced) d handled d') :
    (insertAll d.nat (sentOf handled) : Res NetworkError NatTable) = .ok d'.nat ∧ d'.ipv4 = d.ipv4 := by
  induction h with
  | nil => exact ⟨rfl, rfl⟩
  | @snoc handled t u e hrun hstep ih =>
    obtain ⟨hnat, hipv4⟩ := ih
    rw [sentOf_append]
    cases e with
    | sent pkt =>
      obtain ⟨dev, w, hout, rfl⟩ := hstep
      simp only [WgDevice.outbound, Res.bind_eq_ok, Res.pure_eq, Res.ok.injEq, Prod.mk.injEq] at hout
      obtain ⟨nat, hins, _, -, rfl, -⟩ := hout
      have hone : (insertAll t.nat [pkt] : Res NetworkError NatTable) = .ok nat := by
        simp only [insertAll, Res.bind_eq_ok]
        exact ⟨nat, hins, rfl⟩
      exact ⟨insertAll_append hnat hone, hipv4⟩
    | received pkt =>
      obtain ⟨out, hwrite⟩ := hstep
      rw [WgTunnel.writeToTunnelV4_after hwrite]
      exact ⟨insertAll_append hnat rfl, hipv4⟩

/-- **What the table of a run answers**: the source of the last packet sent that the lookup mirrors. -/
theorem History.lookup {traced : Bool} {ipv4 : Ipv4Addr} {handled : List WgEvent} {l : WgLoop}
    (h : History traced ipv4 handled l) {r : Ipv4Packet} {a : Ipv4Addr} (hlook : l.device.nat.lookup r = some a) :
    ∃ p, LastWith (Mirrors r) (sentOf handled) p ∧ p.src = a := by
  have hnat := (nat_run h.run).1
  rw [insertAll_eq _ _ (enough_of_insertAll hnat), Res.ok.injEq] at hnat
  rw [NatTable.lookup, ← hnat] at hlook
  exact ((lookup_eq_some (sentOf handled) r a).1 hlook).2

/-- Nothing was taken up. -/
theorem History.same {traced : Bool} {ipv4 : Ipv4Addr} {handled : List WgEvent} {l l' : WgLoop}
    (h : History traced ipv4 handled l) (hdevice : l'.device = l.device) (hlog : l'.log = l.log)
    (hrouted : l'.routed = l.routed) : History traced ipv4 handled l' := by
  refine ⟨?_, ?_, ?_⟩
  · rw [hdevice]
    exact h.run
  · rw [hlog]
    exact h.encapsulated
  · rw [hrouted]
    exact h.routed

/-- The tunnel is about to be asked for something else than to send. -/
theorem History.logged {traced : Bool} {ipv4 : Ipv4Addr} {handled : List WgEvent} {l : WgLoop} {call : TunnCall}
    {result : TunnResult} (h : History traced ipv4 handled l) (hcall : ∀ pkt, call ≠ .encapsulate pkt) :
    History traced ipv4 handled { l with log := l.log ++ [(call, result)] } := by
  refine ⟨h.run, ?_, h.routed⟩
  have hlog : WgLoop.encapsulated (l.log ++ [(call, result)]) = WgLoop.encapsulated l.log := by
    unfold WgLoop.encapsulated
    rw [List.filterMap_append]
    cases call with
    | encapsulate pkt => exact absurd rfl (hcall pkt)
    | decapsulate peer datagram => exact List.append_nil _
    | updateTimers => exact List.append_nil _
  show List.Forall₂ (Sealed ipv4) _ (WgLoop.encapsulated (l.log ++ _))
  rw [hlog]
  exact h.encapsulated

/-- A packet was filed, and the tunnel is about to be given its bytes. -/
theorem History.filed {traced : Bool} {ipv4 : Ipv4Addr} {handled : List WgEvent} {l : WgLoop} {pkt w : Ipv4Packet}
    {device : WgDevice} (h : History traced ipv4 handled l)
    (hout : (l.device.outbound pkt : Res NetworkError (WgDevice × Ipv4Packet)) = .ok (device, w)) (result : TunnResult) :
    History traced ipv4 (handled ++ [.sent pkt])
      { l.filed device with log := l.log ++ [(.encapsulate w.data, result)] } := by
  have hipv4 := (nat_run h.run).2
  have hsealed : Sealed ipv4 pkt w.data := by
    simp only [WgDevice.outbound, Res.bind_eq_ok, Res.pure_eq, Res.ok.injEq, Prod.mk.injEq] at hout
    obtain ⟨_, -, w', hw, -, rfl⟩ := hout
    rw [hipv4] at hw
    exact ⟨w', hw, rfl⟩
  refine ⟨h.run.snoc ⟨device, w, hout, rfl⟩, ?_, ?_⟩
  · have hlog : WgLoop.encapsulated (l.log ++ [(.encapsulate w.data, result)]) =
        WgLoop.encapsulated l.log ++ [w.data] := List.filterMap_append
    show List.Forall₂ (Sealed ipv4) (sentOf (handled ++ [.sent pkt])) (WgLoop.encapsulated (l.log ++ _))
    rw [hlog, sentOf_append]
    exact List.rel_append h.encapsulated (.cons hsealed .nil)
  · intro q hq
    obtain ⟨done, hdone, hanswer⟩ := h.routed q hq
    rw [sentOf_append]
    exact ⟨done, hdone.trans (List.prefix_append _ _), hanswer⟩

/-- The answer of the tunnel was handled. -/
theorem History.asked {traced : Bool} {ipv4 : Ipv4Addr} {handled : List WgEvent} {l l' : WgLoop} {call : TunnCall}
    {result : TunnResult} {after : Bool → WgPhase}
    (h : History traced ipv4 handled { l with log := l.log ++ [(call, result)] })
    (hasked : Asked traced call result after l l') :
    ∃ handled', sentOf handled' = [] ∧ History traced ipv4 (handled ++ handled') l' := by
  have hrouted : ∀ q ∈ l'.routed, ∃ done, done <+: sentOf handled ∧ AnswerTo done q := by
    obtain ⟨out, hout, hlooked⟩ := hasked.routed
    rw [hout]
    intro q hq
    rcases List.mem_append.1 hq with hq | hq
    · exact h.routed q hq
    · obtain ⟨r, a, hlook, hback⟩ := hlooked q hq
      obtain ⟨p, hp, rfl⟩ := h.lookup hlook
      exact ⟨_, List.prefix_refl _, r, p, hp, hback⟩
  have hlog : List.Forall₂ (Sealed ipv4) (sentOf handled) (WgLoop.encapsulated l'.log) := by
    rw [hasked.log]
    exact h.encapsulated
  rcases hasked.device with hdevice | ⟨pkt, hstep⟩
  · refine ⟨[], rfl, ?_⟩
    rw [List.append_nil]
    exact ⟨hdevice ▸ h.run, hlog, hrouted⟩
  · refine ⟨[.received pkt], rfl, h.run.snoc hstep, ?_, ?_⟩
    · rw [sentOf_append]
      exact (List.append_nil (sentOf handled)).symm ▸ hlog
    · intro q hq
      rw [sentOf_append]
      obtain ⟨done, hdone, hanswer⟩ := hrouted q hq
      exact ⟨done, hdone.trans (List.prefix_append _ _), hanswer⟩

/-- A step that takes up nothing keeps what is in hand and in the channel, and adds what is written. -/
theorem Follows.quiet {traced : Bool} {ipv4 : Ipv4Addr} {es : List WgLoopEvent} {e : WgLoopEvent} {l l' : WgLoop}
    (h : Follows traced ipv4 es l) (hdevice : l'.device = l.device) (hlog : l'.log = l.log)
    (hrouted : l'.routed = l.routed)
    (hpkts : l'.phase ≠ .stopped → l.phase ≠ .stopped ∧
      l'.inHand ++ l'.channel.items = l.inHand ++ l.channel.items ++ written [e]) :
    Follows traced ipv4 (es ++ [e]) l' := by
  obtain ⟨handled, hhist, hfirst, hrunning⟩ := h
  refine ⟨handled, hhist.same hdevice hlog hrouted, ?_, ?_⟩
  · rw [written_append]
    exact hfirst.trans (List.prefix_append _ _)
  · intro hphase
    obtain ⟨hbefore, hpkts⟩ := hpkts hphase
    rw [written_append, ← hrunning hbefore, List.append_assoc, hpkts]
    simp only [List.append_assoc]

/-- A call of the tunnel after which nothing more is in hand than before it. -/
theorem Follows.asked {traced : Bool} {ipv4 : Ipv4Addr} {es : List WgLoopEvent} {l l' : WgLoop} {call : TunnCall}
    {result : TunnResult} {error : Option Errno} {after : Bool → WgPhase} {handled : List WgEvent}
    {pkts : List Ipv4Packet} (hhist : History traced ipv4 handled { l with log := l.log ++ [(call, result)] })
    (hasked : Asked traced call result after l l')
    (hafter : ∀ toNetwork, { l' with phase := after toNetwork }.inHand = pkts)
    (hfirst : sentOf handled <+: written es)
    (hrunning : sentOf handled ++ pkts ++ l.channel.items = written es) :
    Follows traced ipv4 (es ++ [.call result error]) l' := by
  obtain ⟨handled', hnone, hhist'⟩ := hhist.asked hasked
  have hsent : sentOf (handled ++ handled') = sentOf handled := by rw [sentOf_append, hnone, List.append_nil]
  have hwritten : written (es ++ [.call result error]) = written es := by
    rw [written_append]
    exact List.append_nil _
  refine ⟨_, hhist', ?_, ?_⟩
  · rw [hsent, hwritten]
    exact hfirst
  · intro hphase
    rcases hasked.phase with hstop | ⟨hgo, -⟩
    · exact absurd hstop hphase
    · have hhand : l'.inHand = pkts := by
        rw [← hafter result.toNetwork.isSome]
        unfold inHand
        rw [hgo]
      rw [hsent, hwritten, hhand, hasked.channel]
      exact hrunning

theorem follows_step {traced : Bool} {ipv4 : Ipv4Addr} {es : List WgLoopEvent} {e : WgLoopEvent} {l l' : WgLoop}
    (h : Follows traced ipv4 es l) (hstep : Step traced l e l') : Follows traced ipv4 (es ++ [e]) l' := by
  cases moves_step hstep with
  | refused pkt hphase => exact h.quiet rfl rfl rfl fun hrunning => absurd hphase hrunning
  | write pkt hphase => exact h.quiet rfl rfl rfl fun _ => ⟨hphase, (List.append_assoc _ _ _).symm⟩
  | wake => exact h.quiet rfl rfl rfl fun hphase => ⟨hphase, (List.append_nil _).symm⟩
  | arrive peer datagram => exact h.quiet rfl rfl rfl fun hphase => ⟨hphase, (List.append_nil _).symm⟩
  | poll ready hphase =>
    have hitems : (if .waker ∈ ready then l.channel.hear else l.channel).items = l.channel.items := by
      split <;> rfl
    exact h.quiet rfl rfl rfl fun _ => ⟨by simp [hphase], by simp [inHand, hphase, hitems, written]⟩
  | stop e => exact h.quiet rfl rfl rfl fun hphase => absurd rfl hphase
  | readable events hphase =>
    exact h.quiet rfl rfl rfl fun _ => ⟨by simp [hphase], by simp [inHand, hphase, written]⟩
  | woken events hphase =>
    -- what was in the channel is in hand now
    exact h.quiet rfl rfl rfl fun _ => ⟨by simp [hphase], by simp [inHand, hphase, written, Mailbox.takeAll]⟩
  | due events hphase => exact h.quiet rfl rfl rfl fun _ => ⟨by simp [hphase], by simp [inHand, hphase, written]⟩
  | drained events hphase => exact h.quiet rfl rfl rfl fun _ => ⟨by simp [hphase], by simp [inHand, hphase, written]⟩
  | blocked events hphase hempty =>
    exact h.quiet rfl rfl rfl fun _ => ⟨by simp [hphase], by simp [inHand, hphase, written]⟩
  | received peer datagram rest events hphase hitems =>
    exact h.quiet rfl rfl rfl fun _ => ⟨by simp [hphase], by simp [inHand, hphase, written]⟩
  | expired events hphase => exact h.quiet rfl rfl rfl fun _ => ⟨by simp [hphase], by simp [inHand, hphase, written]⟩
  | opened peer datagram events result error l' hphase hasked =>
    obtain ⟨handled, hhist, hfirst, hrunning⟩ := h
    refine Follows.asked (hhist.logged fun _ => TunnCall.noConfusion) hasked ?_ hfirst (hrunning (by simp [hphase]))
    intro toNetwork
    unfold inHand
    rw [hphase]
    cases toNetwork <;> rfl
  | sealed pkt pkts events device w result error l' hphase hout hasked =>
    obtain ⟨handled, hhist, -, hrunning⟩ := h
    have hmore : sentOf (handled ++ [.sent pkt]) ++ pkts ++ (l.filed device).channel.items = written es := by
      have hhand : l.inHand = pkt :: pkts := by
        unfold inHand
        rw [hphase]
      rw [← hrunning (by simp [hphase]), hhand, sentOf_append]
      simp [filed, sentOf]
    refine Follows.asked (hhist.filed hout result) hasked (fun _ => rfl) ?_ hmore
    rw [← hmore, List.append_assoc]
    exact List.prefix_append _ _
  | updated events result error l' hphase hasked =>
    obtain ⟨handled, hhist, hfirst, hrunning⟩ := h
    refine Follows.asked (hhist.logged fun _ => TunnCall.noConfusion) hasked ?_ hfirst (hrunning (by simp [hphase]))
    intro toNetwork
    unfold inHand
    rw [hphase]

/-! ## Nothing is forgotten -/

/-- The events of the last poll that are still to be handled. -/
def events (l : WgLoop) : List WgToken :=
  match l.phase with
  | .polling events => events
  | .receiving events => events
  | .decapsulating _ _ events => events
  | .sending _ events => events
  | .expiring events => events
  | .updating events => events
  | .stopped => []

/-- The loop `'udp` is not done. -/
def Reading (l : WgLoop) : Prop :=
  match l.phase with
  | .receiving _ => True
  | .decapsulating .. => True
  | _ => False

/-- **The device will look**: into its channel for a packet there, and into its socket for a datagram there. -/
structure Attended (l : WgLoop) : Prop where
  channel : l.channel.Awaited (.waker ∈ l.events)
  sock : l.sock.Awaited (.udp ∈ l.events ∨ l.Reading)

/-- A step that leaves channel and socket and has not handled what it still has to. -/
theorem Attended.mono {l l' : WgLoop} (h : Attended l) (hchannel : l'.channel = l.channel) (hsock : l'.sock = l.sock)
    (hwaker : .waker ∈ l.events → .waker ∈ l'.events)
    (hudp : .udp ∈ l.events ∨ l.Reading → .udp ∈ l'.events ∨ l'.Reading) : Attended l' := by
  refine ⟨?_, ?_⟩
  · rw [hchannel]
    exact h.channel.mono hwaker
  · rw [hsock]
    exact h.sock.mono hudp

theorem attended_step {traced : Bool} {e : WgLoopEvent} {l l' : WgLoop} (h : l.phase ≠ .stopped → Attended l)
    (hstep : Step traced l e l') (hrunning : l'.phase ≠ .stopped) : Attended l' := by
  cases moves_step hstep with
  | refused pkt hphase => exact absurd hphase hrunning
  | write pkt hphase => exact ⟨Mailbox.awaited_leave pkt, (h hphase).sock⟩
  | wake => exact ⟨Mailbox.awaited_ring, (h hrunning).sock⟩
  | arrive peer datagram => exact ⟨(h hrunning).channel, Mailbox.awaited_deliver _⟩
  | poll ready hphase =>
    have hbefore := h (by simp [hphase])
    have hnone : l.events = [] := by
      unfold events
      rw [hphase]
    have hidle : ¬ (.udp ∈ l.events ∨ l.Reading) := by
      rw [hnone]
      simp [Reading, hphase]
    refine ⟨?_, ?_⟩
    · show (if .waker ∈ ready then l.channel.hear else l.channel).Awaited (.waker ∈ ready)
      by_cases hwaker : .waker ∈ ready
      · rw [if_pos hwaker]
        exact Mailbox.awaited_hear hwaker
      · rw [if_neg hwaker]
        exact hbefore.channel.mono fun hmem => by simp [hnone] at hmem
    · show (if .udp ∈ ready then l.sock.hear else l.sock).Awaited (.udp ∈ ready ∨ False)
      by_cases hudp : .udp ∈ ready
      · rw [if_pos hudp]
        exact Mailbox.awaited_hear (Or.inl hudp)
      · rw [if_neg hudp]
        exact hbefore.sock.mono fun hmem => absurd hmem hidle
  | stop e => exact absurd rfl hrunning
  | readable events hphase =>
    -- from now on the device reads
    refine (h (by simp [hphase])).mono rfl rfl ?_ fun _ => Or.inr trivial
    simp [WgLoop.events, hphase]
  | woken events hphase =>
    refine ⟨Mailbox.awaited_nil rfl, (h (by simp [hphase])).sock.mono ?_⟩
    simp [WgLoop.events, Reading, hphase]
  | due events hphase =>
    refine (h (by simp [hphase])).mono rfl rfl ?_ ?_
    · simp [WgLoop.events, hphase]
    · simp [WgLoop.events, Reading, hphase]
  | drained events hphase =>
    refine (h (by simp [hphase])).mono rfl rfl ?_ ?_
    · simp [WgLoop.events, hphase]
    · simp [WgLoop.events, Reading, hphase]
  | blocked events hphase hempty =>
    refine ⟨(h (by simp [hphase])).channel.mono ?_, Mailbox.awaited_nil hempty⟩
    simp [WgLoop.events, hphase]
  | received peer datagram rest events hphase hitems =>
    have hbefore := h (by simp [hphase])
    refine ⟨hbefore.channel.mono ?_, fun _ => Or.inr (Or.inr (Or.inr trivial))⟩
    simp [WgLoop.events, hphase]
  | expired events hphase =>
    refine (h (by simp [hphase])).mono rfl rfl ?_ ?_
    · simp [WgLoop.events, hphase]
    · simp [WgLoop.events, Reading, hphase]
  | opened peer datagram events result error l' hphase hasked =>
    rcases hasked.phase with hstop | ⟨hgo, -⟩
    · exact absurd hstop hrunning
    refine (h (by simp [hphase])).mono hasked.channel hasked.sock ?_ fun _ => Or.inr ?_
    · cases hmore : result.toNetwork.isSome <;> simp [WgLoop.events, hphase, hgo, hmore]
    · simp only [Reading, hgo]
      cases result.toNetwork.isSome <;> trivial
  | sealed pkt pkts events device w result error l' hphase hout hasked =>
    rcases hasked.phase with hstop | ⟨hgo, -⟩
    · exact absurd hstop hrunning
    refine (h (by simp [hphase])).mono hasked.channel hasked.sock ?_ ?_
    · simp [WgLoop.events, hphase, hgo]
    · simp [WgLoop.events, Reading, hphase, hgo]
  | updated events result error l' hphase hasked =>
    rcases hasked.phase with hstop | ⟨hgo, -⟩
    · exact absurd hstop hrunning
    refine (h (by simp [hphase])).mono hasked.channel hasked.sock ?_ ?_
    · simp [WgLoop.events, hphase, hgo]
    · simp [WgLoop.events, Reading, hphase, hgo]

/-! ## Datagrams in -/

/-- The datagrams that have arrived, as far as the buffer takes them. -/
def arrived (es : List WgLoopEvent) : List (IpAddr × List Byte) :=
  es.filterMap fun
    | .arrive peer datagram => some (peer, datagram.take 1600)
    | _ => none

/-- The peer on whose behalf the tunnel has more to say: the answer to a datagram was sent to the network. -/
def asks (c : TunnCall × TunnResult) : Option IpAddr :=
  match c.1 with
  | .decapsulate peer _ => c.2.toNetwork.map fun _ => peer
  | _ => none

/-- The tunnel is asked on, with an empty datagram of the same peer. -/
def AskedOn (c c' : TunnCall × TunnResult) : Prop := ∀ peer, asks c = some peer → c'.1 = .decapsulate peer []

/-- The datagrams opened, besides the empty ones the tunnel is asked on with, and whether it is to be asked on. -/
def opening (log : List (TunnCall × TunnResult)) : Option IpAddr × List (IpAddr × List Byte) :=
  log.foldl (fun x c => (asks c, match c.1 with
    | .decapsulate peer datagram => if x.1.isSome then x.2 else x.2 ++ [(peer, datagram)]
    | _ => x.2)) (none, [])

/-- The datagram in hand that the tunnel was not given yet. -/
def unopened (l : WgLoop) : List (IpAddr × List Byte) :=
  match l.phase with
  | .decapsulating peer datagram _ => if (opening l.log).1.isSome then [] else [(peer, datagram)]
  | _ => []

/-- **Datagrams are opened in order**, each once: those opened, the one in hand and those in the socket are those that
arrived; the tunnel is asked on as long as it sends; and what it sends has been sent. -/
structure Opened (es : List WgLoopEvent) (l : WgLoop) : Prop where
  network : l.network = l.log.filterMap fun c => c.2.toNetwork
  chain : l.log.IsChain AskedOn
  more : ∀ peer, (opening l.log).1 = some peer → ∃ events, l.phase = .decapsulating peer [] events
  datagrams : (opening l.log).2 ++ l.unopened ++ l.sock.items.map (fun x => (x.1, x.2.take 1600)) = arrived es

theorem arrived_append (es es' : List WgLoopEvent) : arrived (es ++ es') = arrived es ++ arrived es' :=
  List.filterMap_append

theorem arrived_other {e : WgLoopEvent} (h : ∀ peer datagram, e ≠ .arrive peer datagram) (es : List WgLoopEvent) :
    arrived (es ++ [e]) = arrived es := by
  rw [arrived_append]
  cases e with
  | arrive peer datagram => exact absurd rfl (h peer datagram)
  | _ => exact List.append_nil _

theorem opening_snoc (log : List (TunnCall × TunnResult)) (c : TunnCall × TunnResult) :
    opening (log ++ [c]) = (asks c, match c.1 with
      | .decapsulate peer datagram =>
        if (opening log).1.isSome then (opening log).2 else (opening log).2 ++ [(peer, datagram)]
      | _ => (opening log).2) := by
  unfold opening
  rw [List.foldl_append]
  rfl

theorem opening_fst (log : List (TunnCall × TunnResult)) : (opening log).1 = log.getLast?.bind asks := by
  rcases List.eq_nil_or_concat log with rfl | ⟨log, c, rfl⟩
  · rfl
  · rw [List.concat_eq_append, opening_snoc, List.getLast?_append]
    rfl

/-- A step without a call, in a phase without a datagram in hand before and after. -/
theorem Opened.quiet {es : List WgLoopEvent} {e : WgLoopEvent} {l l' : WgLoop} (h : Opened es l)
    (hnetwork : l'.network = l.network) (hlog : l'.log = l.log)
    (hphase : ∀ peer datagram events, l.phase ≠ .decapsulating peer datagram events)
    (hdatagrams : l'.unopened ++ l'.sock.items.map (fun x => (x.1, x.2.take 1600)) =
      l.sock.items.map (fun x => (x.1, x.2.take 1600)) ++ arrived [e]) : Opened (es ++ [e]) l' := by
  have hnone : ∀ peer, (opening l.log).1 ≠ some peer := by
    intro peer hpeer
    obtain ⟨events, hdec⟩ := h.more peer hpeer
    exact hphase _ _ _ hdec
  have hhand : l.unopened = [] := by
    unfold unopened
    split
    · rename_i hdec
      exact absurd hdec (hphase _ _ _)
    · rfl
  refine ⟨?_, ?_, ?_, ?_⟩
  · rw [hnetwork, hlog]
    exact h.network
  · rw [hlog]
    exact h.chain
  · rw [hlog]
    exact fun peer hpeer => absurd hpeer (hnone peer)
  · rw [hlog, List.append_assoc, hdatagrams, arrived_append, ← h.datagrams, hhand]
    simp only [List.append_nil, List.append_assoc]

/-- A step that leaves log, phase and socket. -/
theorem Opened.same {es : List WgLoopEvent} {e : WgLoopEvent} {l l' : WgLoop} (h : Opened es l)
    (hnetwork : l'.network = l.network) (hlog : l'.log = l.log) (hphase : l'.phase = l.phase)
    (hsock : l'.sock.items.map (fun x => (x.1, x.2.take 1600)) =
      l.sock.items.map (fun x => (x.1, x.2.take 1600)) ++ arrived [e]) : Opened (es ++ [e]) l' := by
  have hhand : l'.unopened = l.unopened := by
    unfold unopened
    rw [hphase, hlog]
  refine ⟨?_, ?_, ?_, ?_⟩
  · rw [hnetwork, hlog]
    exact h.network
  · rw [hlog]
    exact h.chain
  · rw [hlog, hphase]
    exact h.more
  · rw [hlog, hhand, hsock, arrived_append, ← h.datagrams]
    simp only [List.append_assoc]

/-- A call of the tunnel whose answer was handled: the log goes on as it must. -/
theorem Opened.asked {traced : Bool} {es : List WgLoopEvent} {l l' : WgLoop} {call : TunnCall} {result : TunnResult}
    {error : Option Errno} {after : Bool → WgPhase} (h : Opened es l) (hasked : Asked traced call result after l l')
    (hnetwork : l'.network = l.network ++ result.toNetwork.toList)
    (hgoes : ∀ peer, (opening l.log).1 = some peer → call = .decapsulate peer [])
    (hmore : ∀ peer, asks (call, result) = some peer → ∃ events, l'.phase = .decapsulating peer [] events)
    (hdatagrams : (opening (l.log ++ [(call, result)])).2 ++ l'.unopened = (opening l.log).2 ++ l.unopened) :
    Opened (es ++ [.call result error]) l' := by
  refine ⟨?_, ?_, ?_, ?_⟩
  · rw [hnetwork, hasked.log, List.filterMap_append, ← h.network]
    cases result <;> rfl
  · rw [hasked.log, List.isChain_append]
    refine ⟨h.chain, .singleton _, ?_⟩
    intro c hc c' hc' peer hpeer
    cases hc'
    refine hgoes peer ?_
    rw [opening_fst, Option.mem_def.1 hc]
    exact hpeer
  · rw [hasked.log, opening_snoc]
    exact hmore
  · rw [hasked.log, hdatagrams, hasked.sock, h.datagrams, arrived_other fun _ _ => WgLoopEvent.noConfusion]

theorem opened_step {traced : Bool} {es : List WgLoopEvent} {e : WgLoopEvent} {l l' : WgLoop}
    (h : l.phase ≠ .stopped → Opened es l) (hstep : Step traced l e l') (hrunning : l'.phase ≠ .stopped) :
    Opened (es ++ [e]) l' := by
  cases moves_step hstep with
  | refused pkt hphase => exact absurd hphase hrunning
  | write pkt hphase => exact (h hphase).same rfl rfl rfl (List.append_nil _).symm
  | wake => exact (h hrunning).same rfl rfl rfl (List.append_nil _).symm
  | arrive peer datagram => exact (h hrunning).same rfl rfl rfl List.map_append
  | poll ready hphase =>
    have hitems : (if .udp ∈ ready then l.sock.hear else l.sock).items = l.sock.items := by
      split <;> rfl
    refine (h (by simp [hphase])).quiet rfl rfl (by simp [hphase]) ?_
    simp [unopened, hitems, arrived]
  | stop e => exact absurd rfl hrunning
  | readable events hphase =>
    exact (h (by simp [hphase])).quiet rfl rfl (by simp [hphase]) (by simp [unopened, arrived])
  | woken events hphase =>
    exact (h (by simp [hphase])).quiet rfl rfl (by simp [hphase]) (by simp [unopened, arrived])
  | due events hphase =>
    exact (h (by simp [hphase])).quiet rfl rfl (by simp [hphase]) (by simp [unopened, arrived])
  | drained events hphase =>
    exact (h (by simp [hphase])).quiet rfl rfl (by simp [hphase]) (by simp [unopened, arrived])
  | blocked events hphase hempty =>
    exact (h (by simp [hphase])).quiet rfl rfl (by simp [hphase]) (by simp [unopened, arrived])
  | received peer datagram rest events hphase hitems =>
    have hbefore := h (by simp [hphase])
    have hnone : (opening l.log).1 = none := by
      refine Option.eq_none_iff_forall_ne_some.2 fun peer hpeer => ?_
      obtain ⟨events', hdec⟩ := hbefore.more peer hpeer
      simp [hphase] at hdec
    exact hbefore.quiet rfl rfl (by simp [hphase]) (by simp [unopened, hnone, hitems, arrived])
  | expired events hphase =>
    exact (h (by simp [hphase])).quiet rfl rfl (by simp [hphase]) (by simp [unopened, arrived])
  | opened peer datagram events result error l' hphase hasked =>
    have hbefore := h (by simp [hphase])
    rcases hasked.phase with hstop | ⟨hgo, hnetwork⟩
    · exact absurd hstop hrunning
    refine hbefore.asked hasked hnetwork ?_ ?_ ?_
    · intro peer' hpeer
      obtain ⟨events', hdec⟩ := hbefore.more peer' hpeer
      simp only [hphase, WgPhase.decapsulating.injEq] at hdec
      rw [hdec.1, hdec.2.1]
    · intro peer' hpeer
      cases hresult : result.toNetwork with
      | none => simp [asks, hresult] at hpeer
      | some pkt =>
        simp only [asks, hresult, Option.map_some, Option.some.injEq] at hpeer
        subst hpeer
        exact ⟨events, by simp [hgo, hresult]⟩
    · rw [opening_snoc]
      have hafter : l'.unopened = [] := by
        unfold unopened
        rw [hgo, hasked.log, opening_snoc]
        cases hresult : result.toNetwork with
        | none => rfl
        | some pkt => simp [asks, hresult]
      rw [hafter]
      unfold unopened
      rw [hphase]
      cases hmore : (opening l.log).1.isSome with
      | true => simp
      | false => simp
  | sealed pkt pkts events device w result error l' hphase hout hasked =>
    have hbefore := h (by simp [hphase])
    rcases hasked.phase with hstop | ⟨hgo, hnetwork⟩
    · exact absurd hstop hrunning
    have hfiled : Opened es (l.filed device) := ⟨hbefore.network, hbefore.chain, hbefore.more, hbefore.datagrams⟩
    refine hfiled.asked hasked hnetwork ?_ ?_ ?_
    · intro peer hpeer
      obtain ⟨events', hdec⟩ := hbefore.more peer hpeer
      simp [hphase] at hdec
    · intro peer hpeer
      cases hpeer
    · rw [opening_snoc]
      simp [unopened, hgo, filed, hphase]
  | updated events result error l' hphase hasked =>
    have hbefore := h (by simp [hphase])
    rcases hasked.phase with hstop | ⟨hgo, hnetwork⟩
    · exact absurd hstop hrunning
    refine hbefore.asked hasked hnetwork ?_ ?_ ?_
    · intro peer hpeer
      obtain ⟨events', hdec⟩ := hbefore.more peer hpeer
      simp [hphase] at hdec
    · intro peer hpeer
      cases hpeer
    · rw [opening_snoc]
      simp [unopened, hgo, hphase]

/-! ## Whole runs -/

theorem follows_run {traced : Bool} {ipv4 : Ipv4Addr} {es : List WgLoopEvent} {l : WgLoop}
    (hrun : Run (Step traced) (new ipv4) es l) : Follows traced ipv4 es l := by
  have hnew : Follows traced ipv4 [] (new ipv4) := by
    refine ⟨[], ⟨.nil, .nil, ?_⟩, List.prefix_refl _, fun _ => rfl⟩
    intro q hq
    cases hq
  exact Run.invariant (I := Follows traced ipv4) hnew (fun _ _ _ _ _ h hstep => follows_step h hstep) hrun

/-- **Only answers come in.**  Whatever the tunnel yields, every packet the router was sent is addressed to a host that
wrote a packet to its sender before, of the same protocol and from the port or identifier the packet answers; of all
packets taken up until then the last one to fit. -/
theorem routed_run {traced : Bool} {ipv4 : Ipv4Addr} {es : List WgLoopEvent} {l : WgLoop}
    (hrun : Run (Step traced) (new ipv4) es l) {q : Ipv4Packet} (hq : q ∈ l.routed) :
    ∃ done r p, done <+: written es ∧ LastWith (Mirrors r) done p ∧
      (r.unmasquerade p.src : Res NetworkError Ipv4Packet) = .ok q ∧
      q.dest = p.src ∧ q.src = p.dest ∧ q.protocol = p.protocol := by
  obtain ⟨handled, hhist, hfirst, -⟩ := follows_run hrun
  obtain ⟨done, hdone, r, p, hlast, hback⟩ := hhist.routed q hq
  refine ⟨done, r, p, hdone.trans hfirst, hlast, hback, ?_⟩
  obtain ⟨-, hfix⟩ := Ipv4Packet.unmasquerade_eq_ok.1 hback
  have hheader : q.header = r.header.unmasquerade p.src := (Ipv4Packet.fixTransportChecksum_frame hfix).1
  obtain ⟨-, -, -, ⟨hproto, hdest, -⟩, -⟩ := hlast
  unfold Ipv4Packet.dest Ipv4Packet.src Ipv4Packet.protocol at *
  rw [hheader, hproto, hdest]
  exact ⟨rfl, rfl, rfl⟩

theorem attended_run {traced : Bool} {ipv4 : Ipv4Addr} {es : List WgLoopEvent} {l : WgLoop}
    (hrun : Run (Step traced) (new ipv4) es l) (hrunning : l.phase ≠ .stopped) : Attended l := by
  have hnew : (new ipv4).phase ≠ .stopped → Attended (new ipv4) :=
    fun _ => ⟨Mailbox.awaited_empty, Mailbox.awaited_empty⟩
  exact Run.invariant (I := fun _ l => l.phase ≠ .stopped → Attended l) hnew
    (fun _ _ _ _ _ h hstep hrunning => attended_step h hstep hrunning) hrun hrunning

theorem opened_run {traced : Bool} {ipv4 : Ipv4Addr} {es : List WgLoopEvent} {l : WgLoop}
    (hrun : Run (Step traced) (new ipv4) es l) (hrunning : l.phase ≠ .stopped) : Opened es l := by
  have hnew : (new ipv4).phase ≠ .stopped → Opened [] (new ipv4) := by
    rintro -
    refine ⟨rfl, .nil, ?_, rfl⟩
    intro peer hpeer
    cases hpeer
  exact Run.invariant (I := fun es l => l.phase ≠ .stopped → Opened es l) hnew
    (fun _ _ _ _ _ h hstep hrunning => opened_step h hstep hrunning) hrun hrunning

/-- **The loop does what the device does, packet for packet.**  In every run, whatever the tunnel answers and however
writers, wakes, datagrams and polls come in between: the device has taken up packets written to it and packets from the
tunnel as `WgTunnel.Step` does; the ones written are the first written, in order, and the tunnel was given exactly the
bytes of each, from the device's own address.  While the device runs the others are in its hand or in its channel, and
then one whose writer is not done will be rung for, or the ring can be heard, or was; so that nothing is left over once
the device waits, all writers are done and no ring is to be heard. -/
theorem loop_refines_device {traced : Bool} {ipv4 : Ipv4Addr} {es : List WgLoopEvent} {l : WgLoop}
    (hrun : Run (Step traced) (new ipv4) es l) :
    ∃ handled, Run (WgTunnel.Step traced) (new ipv4).device handled l.device ∧ sentOf handled <+: written es ∧
      List.Forall₂ (Sealed ipv4) (sentOf handled) (encapsulated l.log) ∧
      (l.phase ≠ .stopped → sentOf handled ++ l.inHand ++ l.channel.items = written es ∧
        l.channel.Awaited (.waker ∈ l.events)) ∧
      (l.phase = .polling [] → l.channel.silent = 0 → l.channel.rung = false → sentOf handled = written es) := by
  obtain ⟨handled, hhist, hfirst, hrunning⟩ := follows_run hrun
  refine ⟨handled, hhist.run, hfirst, hhist.encapsulated, ?_, ?_⟩
  · intro hphase
    exact ⟨hrunning hphase, (attended_run hrun hphase).channel⟩
  · intro hphase hsilent hrung
    have hgoes : l.phase ≠ .stopped := by simp [hphase]
    have hempty : l.channel.items = [] :=
      (attended_run hrun hgoes).channel.at_rest hsilent hrung (by simp [events, hphase])
    rw [← hrunning hgoes, hempty]
    simp [inHand, hphase]

theorem loop_refines_device_of_query : ∃ l handled, Run (Step false) (new 0x0A090909)
      [.write (WgDevice.query 0x0A000002 1000), .wake, .poll [.waker], .next, .call .done none, .next] l ∧
    Run (WgTunnel.Step false) (new 0x0A090909).device handled l.device ∧
    sentOf handled = [WgDevice.query 0x0A000002 1000] := by
  have hrun : Run (Step false) (new 0x0A090909)
      [.write (WgDevice.query 0x0A000002 1000), .wake, .poll [.waker], .next, .call .done none, .next] _ :=
    .cons rfl <| .cons rfl <| .cons rfl <| .cons rfl <| .cons rfl <| .cons rfl .nil
  obtain ⟨handled, hdevice, -, -, -, hrest⟩ := loop_refines_device hrun
  exact ⟨_, handled, hrun, hdevice, hrest rfl rfl rfl⟩

/-- **Every datagram is opened once, in order, and none is forgotten.**  In every run of a device that has not stopped:
the datagrams the tunnel was given, the one in hand and those in the socket are those that arrived; a datagram whose
answer was sent to the peer, and only such a one, is followed by empty ones as long as their answers are sent; what the
tunnel wanted sent was sent, in order; and a datagram in the socket is one the loop is about to read or will be told
of, so that none is left once the device waits and there is nothing to be told. -/
theorem datagrams_opened_in_order {traced : Bool} {ipv4 : Ipv4Addr} {es : List WgLoopEvent} {l : WgLoop}
    (hrun : Run (Step traced) (new ipv4) es l) (hrunning : l.phase ≠ .stopped) :
    (opening l.log).2 ++ l.unopened ++ l.sock.items.map (fun x => (x.1, x.2.take 1600)) = arrived es ∧
    l.log.IsChain AskedOn ∧ (l.network = l.log.filterMap fun c => c.2.toNetwork) ∧
    l.sock.Awaited (.udp ∈ l.events ∨ l.Reading) ∧
    (l.phase = .polling [] → l.sock.silent = 0 → l.sock.rung = false → (opening l.log).2 = arrived es) := by
  have hopened := opened_run hrun hrunning
  have hsock := (attended_run hrun hrunning).sock
  refine ⟨hopened.datagrams, hopened.chain, hopened.network, hsock, ?_⟩
  intro hphase hsilent hrung
  have hempty : l.sock.items = [] := hsock.at_rest hsilent hrung (by simp [events, Reading, hphase])
  rw [← hopened.datagrams, hempty]
  simp [unopened, hphase]

/-- A handshake that the tunnel answers, and a poll that finds no more. -/
def handshake : List WgLoopEvent :=
  [.arrive (.v4 0x01010101) [1, 0, 0, 0], .poll [.udp], .next, .recv none, .call (.writeToNetwork [2, 0, 0, 0]) none,
    .call .done none, .recv none]

theorem datagrams_opened_of_handshake : ∃ l, Run (Step false) (new 0x0A090909) handshake l ∧
    (opening l.log).2 = [(.v4 0x01010101, [1, 0, 0, 0])] ∧ l.log.length = 2 ∧ l.network = [[2, 0, 0, 0]] := by
  have hrun : Run (Step false) (new 0x0A090909) handshake _ :=
    .cons rfl <| .cons rfl <| .cons rfl <| .cons rfl <| .cons rfl <| .cons rfl <| .cons rfl .nil
  obtain ⟨-, -, hnetwork, -, hall⟩ := datagrams_opened_in_order hrun WgPhase.noConfusion
  exact ⟨_, hrun, hall rfl rfl rfl, rfl, hnetwork⟩

end WgLoop
end Oathgate
