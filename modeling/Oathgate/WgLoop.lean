import Oathgate.LibMailbox
import Oathgate.LibSocket
import Oathgate.WgRoundTrip
/-!
# WgLoop — the event loop of the WireGuard device (`oathgate-bridge`: `net/wan/wireguard.rs`, `run`)

The device waits for its waker, its socket and a timer, and handles one after another what a poll returned; meanwhile
others write packets for it and datagrams arrive.  The tunnel may answer a call with anything.
-/
namespace Oathgate

open Lib NatTable

/-! ## The loop -/

inductive WgToken where
  | waker
  | udp
  | timer
  deriving DecidableEq, Repr

/-- What a call of the tunnel returns; an error is logged. -/
inductive TunnResult where
  | err
  | done
  | writeToNetwork (pkt : List Byte)
  | writeToTunnelV4 (pkt : List Byte)
  | writeToTunnelV6 (pkt : List Byte)

/-- What the answer wants sent to the peer. -/
def TunnResult.toNetwork : TunnResult → Option (List Byte)
  | .writeToNetwork pkt => some pkt
  | _ => none

inductive TunnCall where
  | encapsulate (pkt : List Byte)
  | decapsulate (peer : IpAddr) (datagram : List Byte)
  | updateTimers

inductive WgError where
  | network (e : NetworkError)
  | io (e : Errno)

/-- Where the loop is, with the events of its last poll that are still to be handled. -/
inductive WgPhase where
  | polling (events : List WgToken)
  | receiving (events : List WgToken)
  | decapsulating (peer : IpAddr) (datagram : List Byte) (events : List WgToken)
  | sending (pkts : List Ipv4Packet) (events : List WgToken)
  | expiring (events : List WgToken)
  | updating (events : List WgToken)
  | stopped

/-- A running `WgDevice` with its channel and its socket, the calls of its tunnel, and what it has sent to the peer and
to the router. -/
structure WgLoop where
  device : WgTunnel
  channel : Mailbox Ipv4Packet
  sock : Mailbox (IpAddr × List Byte)
  phase : WgPhase
  log : List (TunnCall × TunnResult)
  network : List (List Byte)
  routed : List Ipv4Packet

/-- A packet is written or a waker woken by its writer, a datagram arrives; or the loop goes on, with what the
operating system and the tunnel answer. -/
inductive WgLoopEvent where
  | write (pkt : Ipv4Packet)
  | wake
  | arrive (peer : IpAddr) (datagram : List Byte)
  | poll (ready : List WgToken)
  | pollFailed
  | next
  | recv (error : Option Errno)
  | expire (error : Option Errno)
  | call (result : TunnResult) (error : Option Errno)

namespace WgLoop

/-- `WgDevice::create` and the start of `run`. -/
def new (ipv4 : Ipv4Addr) : WgLoop :=
  ⟨⟨⟨ipv4, NatTable.new⟩, Table.empty⟩, .empty, .empty, .polling [], [], [], []⟩

/-- `WgDevice::handle_tun_result`: whether something was sent to the peer.  Version 6 goes to a router without support
for it. -/
def handleTunResult (traced : Bool) (action : TunnResult) (error : Option Errno) (l : WgLoop) :
    Res WgError Bool × WgLoop :=
  match action with
  | .err => (.ok false, l)
  | .done => (.ok false, l)
  | .writeToNetwork pkt =>
    match error with
    | some e => (.err (.io e), l)
    | none => (.ok true, { l with network := l.network ++ [pkt] })
  | .writeToTunnelV4 pkt =>
    match l.device.writeToTunnelV4 traced pkt with
    | .ok (device, out) => (.ok false, { l with device, routed := l.routed ++ out.toList })
    | .err e => (.err (.network e), l)
    | .panic p => (.panic p, l)
  | .writeToTunnelV6 _ => (.ok false, l)

/-- A call of the tunnel and what is done about its answer; an error ends the loop. -/
def ask (traced : Bool) (call : TunnCall) (result : TunnResult) (error : Option Errno) (after : Bool → WgPhase)
    (l : WgLoop) : WgLoop :=
  let (r, l) := handleTunResult traced result error { l with log := l.log ++ [(call, result)] }
  match r with
  | .ok toNetwork => { l with phase := after toNetwork }
  | _ => { l with phase := .stopped }

/-- Takes up the next event of the last poll, or goes on to it after the last packet drained. -/
def next (l : WgLoop) : Option WgLoop :=
  match l.phase with
  | .polling (.udp :: events) => some { l with phase := .receiving events }
  | .polling (.waker :: events) =>
    some { l with channel := l.channel.takeAll, phase := .sending l.channel.items events }
  | .polling (.timer :: events) => some { l with phase := .expiring events }
  | .sending [] events => some { l with phase := .polling events }
  | _ => none

/-- `recv_from` in the loop `'udp`; the buffer takes 1600 bytes.  It would block exactly when nothing has arrived. -/
def recv (error : Option Errno) (l : WgLoop) : Option WgLoop :=
  match l.phase with
  | .receiving events =>
    match error with
    | some .wouldBlock => none
    | some (.other _) => some { l with phase := .stopped }
    | none =>
      match l.sock.items with
      | [] => some { l with phase := .polling events }
      | (peer, datagram) :: rest =>
        some { l with sock := { l.sock with items := rest }
                      phase := .decapsulating peer (datagram.take 1600) events }
  | _ => none

/-- The call the loop is about to make. -/
def call (traced : Bool) (result : TunnResult) (error : Option Errno) (l : WgLoop) : Option WgLoop :=
  match l.phase with
  | .decapsulating peer datagram events =>
    some (l.ask traced (.decapsulate peer datagram) result error fun toNetwork =>
      if toNetwork then .decapsulating peer [] events else .receiving events)
  | .sending (pkt :: pkts) events =>
    match (l.device.outbound pkt : Res NetworkError (WgDevice × Ipv4Packet)) with
    | .ok (device, pkt) =>
      let l := { l with device := { l.device with toWgDevice := device } }
      some (l.ask traced (.encapsulate pkt.data) result error fun _ => .sending pkts events)
    | _ => some { l with phase := .stopped }
  | .updating events => some (l.ask traced .updateTimers result error fun _ => .polling events)
  | _ => none

/-- `WgHandle::write` up to the wake; a write to a device that has stopped is refused. -/
def write (pkt : Ipv4Packet) (l : WgLoop) : WgLoop :=
  match l.phase with
  | .stopped => l
  | _ => { l with channel := l.channel.leave pkt }

/-- A poll reports what was rung for. -/
def apply (traced : Bool) (l : WgLoop) : WgLoopEvent → Option WgLoop
  | .write pkt => some (l.write pkt)
  | .wake => if 0 < l.channel.silent then some { l with channel := l.channel.ring } else none
  | .arrive peer datagram => some { l with sock := l.sock.deliver (peer, datagram) }
  | .poll ready =>
    match l.phase with
    | .polling [] =>
      if (.waker ∈ ready → l.channel.rung = true) ∧ (.udp ∈ ready → l.sock.rung = true) then
        some { l with
          channel := if .waker ∈ ready then l.channel.hear else l.channel
          sock := if .udp ∈ ready then l.sock.hear else l.sock
          phase := .polling ready }
      else none
    | _ => none
  | .pollFailed =>
    match l.phase with
    | .polling [] => some { l with phase := .stopped }
    | _ => none
  | .next => l.next
  | .recv error => l.recv error
  | .expire error =>
    match l.phase, error with
    | .expiring _, some _ => some { l with phase := .stopped }
    | .expiring events, none => some { l with phase := .updating events }
    | _, _ => none
  | .call result error => l.call traced result error

def Step (traced : Bool) (l : WgLoop) (e : WgLoopEvent) (l' : WgLoop) : Prop := l.apply traced e = some l'

/-! ## What a step does -/

/-- **What a call of the tunnel leaves**: the answer is logged; what it does to the device are steps without a packet
sent; and the loop goes on, with what the answer wants sent to the peer, or stops. -/
structure Asked (traced : Bool) (call : TunnCall) (result : TunnResult) (after : Bool → WgPhase) (l l' : WgLoop) :
    Prop where
  channel : l'.channel = l.channel
  sock : l'.sock = l.sock
  log : l'.log = l.log ++ [(call, result)]
  device : l'.device = l.device ∨ ∃ pkt, WgTunnel.Step traced l.device (.received pkt) l'.device
  phase : l'.phase = .stopped ∨ (l'.phase = after result.toNetwork.isSome ∧
    l'.network = l.network ++ result.toNetwork.toList)
  routed : ∃ out, l'.routed = l.routed ++ out ∧
    ∀ q ∈ out, ∃ r a, l.device.nat.lookup r = some a ∧ (r.unmasquerade a : Res NetworkError Ipv4Packet) = .ok q

theorem undoNat_some {traced : Bool} {nat : NatTable} {r q : Ipv4Packet}
    (h : WgTunnel.undoNat traced nat r = .ok (some q)) :
    ∃ a, nat.lookup r = some a ∧ (r.unmasquerade a : Res NetworkError Ipv4Packet) = .ok q := by
  unfold WgTunnel.undoNat at h
  simp only [Res.bind_eq_ok, get_eq_ok] at h
  obtain ⟨_, ⟨-, rfl⟩, h⟩ := h
  cases hlook : nat.lookup r with
  | some a =>
    simp only [hlook, Res.bind_eq_ok, Res.pure_eq, Res.ok.injEq, Option.some.injEq] at h
    obtain ⟨q', hq, rfl⟩ := h
    exact ⟨a, rfl, hq⟩
  | none =>
    -- without an entry nothing is handed on
    simp only [hlook] at h
    cases traced with
    | false => cases h
    | true =>
      simp only [if_true, Res.bind_eq_ok] at h
      obtain ⟨_, -, h⟩ := h
      cases h

/-- **What is routed was looked up**: it is some packet with its destination replaced by what the table holds. -/
theorem routed_of_writeToTunnelV4 {traced : Bool} {d d' : WgTunnel} {pkt : List Byte} {q : Ipv4Packet}
    (h : d.writeToTunnelV4 traced pkt = .ok (d', some q)) :
    ∃ r a, d.nat.lookup r = some a ∧ (r.unmasquerade a : Res NetworkError Ipv4Packet) = .ok q := by
  unfold WgTunnel.writeToTunnelV4 at h
  simp only [Res.bind_eq_ok] at h
  obtain ⟨⟨cache, handed⟩, -, h⟩ := h
  cases handed with
  | none => cases h
  | some r =>
    simp only [Res.bind_eq_ok, Res.pure_eq, Res.ok.injEq, Prod.mk.injEq] at h
    obtain ⟨out, hout, -, rfl⟩ := h
    exact ⟨r, undoNat_some hout⟩

theorem asked_ask (traced : Bool) (call : TunnCall) (result : TunnResult) (error : Option Errno)
    (after : Bool → WgPhase) (l : WgLoop) : Asked traced call result after l (l.ask traced call result error after) := by
  have hnone : ∃ out, l.routed = l.routed ++ out ∧ ∀ q ∈ out, ∃ r a, l.device.nat.lookup r = some a ∧
      (r.unmasquerade a : Res NetworkError Ipv4Packet) = .ok q := ⟨[], by simp, by simp⟩
  unfold ask handleTunResult
  cases result with
  | err => exact ⟨rfl, rfl, rfl, Or.inl rfl, Or.inr ⟨rfl, (List.append_nil _).symm⟩, hnone⟩
  | done => exact ⟨rfl, rfl, rfl, Or.inl rfl, Or.inr ⟨rfl, (List.append_nil _).symm⟩, hnone⟩
  | writeToTunnelV6 pkt => exact ⟨rfl, rfl, rfl, Or.inl rfl, Or.inr ⟨rfl, (List.append_nil _).symm⟩, hnone⟩
  | writeToNetwork pkt =>
    cases error with
    | some e => exact ⟨rfl, rfl, rfl, Or.inl rfl, Or.inl rfl, hnone⟩
    | none => exact ⟨rfl, rfl, rfl, Or.inl rfl, Or.inr ⟨rfl, rfl⟩, hnone⟩
  | writeToTunnelV4 pkt =>
    cases hwrite : l.device.writeToTunnelV4 traced pkt with
    | ok x =>
      obtain ⟨device, out⟩ := x
      simp only [hwrite]
      refine ⟨rfl, rfl, rfl, Or.inr ⟨pkt, out, hwrite⟩, Or.inr ⟨rfl, (List.append_nil _).symm⟩, out.toList, rfl, ?_⟩
      intro q hq
      cases Option.mem_toList.1 hq
      exact routed_of_writeToTunnelV4 hwrite
    | err e =>
      simp only [hwrite]
      exact ⟨rfl, rfl, rfl, Or.inl rfl, Or.inl rfl, hnone⟩
    | panic p =>
      simp only [hwrite]
      exact ⟨rfl, rfl, rfl, Or.inl rfl, Or.inl rfl, hnone⟩

/-- The device after it has filed a packet. -/
def filed (device : WgDevice) (l : WgLoop) : WgLoop := { l with device := { l.device with toWgDevice := device } }

/-- **The steps of the loop and of those around it**, one by one; only a call of the tunnel does anything to the
device. -/
inductive Moves (traced : Bool) (l : WgLoop) : WgLoopEvent → WgLoop → Prop where
  | refused (pkt : Ipv4Packet) (hphase : l.phase = .stopped) : Moves traced l (.write pkt) l
  | write (pkt : Ipv4Packet) (hphase : l.phase ≠ .stopped) :
      Moves traced l (.write pkt) { l with channel := l.channel.leave pkt }
  | wake : Moves traced l .wake { l with channel := l.channel.ring }
  | arrive (peer : IpAddr) (datagram : List Byte) :
      Moves traced l (.arrive peer datagram) { l with sock := l.sock.deliver (peer, datagram) }
  | poll (ready : List WgToken) (hphase : l.phase = .polling []) :
      Moves traced l (.poll ready) { l with
        channel := if .waker ∈ ready then l.channel.hear else l.channel
        sock := if .udp ∈ ready then l.sock.hear else l.sock
        phase := .polling ready }
  | stop (e : WgLoopEvent) : Moves traced l e { l with phase := .stopped }
  | readable (events : List WgToken) (hphase : l.phase = .polling (.udp :: events)) :
      Moves traced l .next { l with phase := .receiving events }
  | woken (events : List WgToken) (hphase : l.phase = .polling (.waker :: events)) :
      Moves traced l .next { l with channel := l.channel.takeAll, phase := .sending l.channel.items events }
  | due (events : List WgToken) (hphase : l.phase = .polling (.timer :: events)) :
      Moves traced l .next { l with phase := .expiring events }
  | drained (events : List WgToken) (hphase : l.phase = .sending [] events) :
      Moves traced l .next { l with phase := .polling events }
  | blocked (events : List WgToken) (hphase : l.phase = .receiving events) (hempty : l.sock.items = []) :
      Moves traced l (.recv none) { l with phase := .polling events }
  | received (peer : IpAddr) (datagram : List Byte) (rest : List (IpAddr × List Byte)) (events : List WgToken)
      (hphase : l.phase = .receiving events) (hitems : l.sock.items = (peer, datagram) :: rest) :
      Moves traced l (.recv none) { l with sock := { l.sock with items := rest }
                                           phase := .decapsulating peer (datagram.take 1600) events }
  | expired (events : List WgToken) (hphase : l.phase = .expiring events) :
      Moves traced l (.expire none) { l with phase := .updating events }
  | opened (peer : IpAddr) (datagram : List Byte) (events : List WgToken) (result : TunnResult)
      (error : Option Errno) (l' : WgLoop) (hphase : l.phase = .decapsulating peer datagram events)
      (hasked : Asked traced (.decapsulate peer datagram) result
        (fun toNetwork => if toNetwork then .decapsulating peer [] events else .receiving events) l l') :
      Moves traced l (.call result error) l'
  | sealed (pkt : Ipv4Packet) (pkts : List Ipv4Packet) (events : List WgToken) (device : WgDevice) (w : Ipv4Packet)
      (result : TunnResult) (error : Option Errno) (l' : WgLoop) (hphase : l.phase = .sending (pkt :: pkts) events)
      (hout : (l.device.outbound pkt : Res NetworkError (WgDevice × Ipv4Packet)) = .ok (device, w))
      (hasked : Asked traced (.encapsulate w.data) result (fun _ => .sending pkts events) (l.filed device) l') :
      Moves traced l (.call result error) l'
  | updated (events : List WgToken) (result : TunnResult) (error : Option Errno) (l' : WgLoop)
      (hphase : l.phase = .updating events)
      (hasked : Asked traced .updateTimers result (fun _ => .polling events) l l') :
      Moves traced l (.call result error) l'

theorem moves_call {traced : Bool} {result : TunnResult} {error : Option Errno} {l l' : WgLoop}
    (h : l.call traced result error = some l') : Moves traced l (.call result error) l' := by
  unfold call at h
  split at h
  · rename_i peer datagram events hphase
    cases h
    exact .opened peer datagram events result error _ hphase (asked_ask ..)
  · rename_i pkt pkts events hphase
    split at h
    · rename_i device w hout
      cases h
      exact .sealed pkt pkts events device w result error _ hphase hout (asked_ask ..)
    · cases h
      exact .stop _
  · rename_i events hphase
    cases h
    exact .updated events result error _ hphase (asked_ask ..)
  · cases h

theorem moves_step {traced : Bool} {e : WgLoopEvent} {l l' : WgLoop} (h : Step traced l e l') :
    Moves traced l e l' := by
  unfold Step at h
  cases e with
  | write pkt =>
    cases h
    unfold WgLoop.write
    split
    · rename_i hphase
      exact .refused pkt hphase
    · rename_i hphase
      exact .write pkt hphase
  | wake =>
    simp only [apply] at h
    split at h
    · cases h
      exact .wake
    · cases h
  | arrive peer datagram =>
    cases h
    exact .arrive peer datagram
  | poll ready =>
    simp only [apply] at h
    split at h
    · rename_i hphase
      split at h
      · cases h
        exact .poll ready hphase
      · cases h
    · cases h
  | pollFailed =>
    simp only [apply] at h
    split at h
    · cases h
      exact .stop _
    · cases h
  | next =>
    simp only [apply, next] at h
    split at h
    · rename_i events hphase
      cases h
      exact .readable events hphase
    · rename_i events hphase
      cases h
      exact .woken events hphase
    · rename_i events hphase
      cases h
      exact .due events hphase
    · rename_i events hphase
      cases h
      exact .drained events hphase
    · cases h
  | recv error =>
    simp only [apply, recv] at h
    split at h
    · rename_i events hphase
      split at h
      · cases h
      · cases h
        exact .stop _
      · split at h
        · rename_i hempty
          cases h
          exact .blocked events hphase hempty
        · rename_i peer datagram rest hitems
          cases h
          exact .received peer datagram rest events hphase hitems
    · cases h
  | expire error =>
    simp only [apply] at h
    split at h
    · cases h
      exact .stop _
    · rename_i events hphase
      cases h
      exact .expired events hphase
    · cases h
  | call result error => exact moves_call h

/-- **A step routes some more packets**, each with the bytes of a header. -/
theorem routed_step {traced : Bool} {e : WgLoopEvent} {l l' : WgLoop} (h : Step traced l e l') :
    ∃ out, l'.routed = l.routed ++ out ∧ ∀ q ∈ out, 20 ≤ q.data.length := by
  have hasked : ∀ {call result after} {l₀ : WgLoop}, Asked traced call result after l₀ l' →
      ∃ out, l'.routed = l₀.routed ++ out ∧ ∀ q ∈ out, 20 ≤ q.data.length := by
    rintro call result after l₀ hasked
    obtain ⟨out, hout, hlooked⟩ := hasked.routed
    refine ⟨out, hout, fun q hq => ?_⟩
    obtain ⟨r, a, -, hback⟩ := hlooked q hq
    obtain ⟨h20, hfix⟩ := Ipv4Packet.unmasquerade_eq_ok.1 hback
    rw [(Ipv4Packet.fixTransportChecksum_frame hfix).2.1]
    unfold Ipv4Packet.redirected
    rw [Ipv4Header.length_onto _ _ h20]
    exact h20
  cases moves_step h with
  | opened peer datagram events result error l' hphase h => exact hasked h
  | sealed pkt pkts events device w result error l' hphase hout h =>
    have hfiled := hasked h
    exact hfiled
  | updated events result error l' hphase h => exact hasked h
  | _ => exact ⟨[], by simp, by simp⟩

end WgLoop
end Oathgate
