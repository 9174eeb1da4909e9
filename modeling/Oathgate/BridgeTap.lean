import Oathgate.LibMailbox
import Oathgate.RouterThread
import Oathgate.WgInbound
/-!
# BridgeTap — a bridge with a tap upstream (`oathgate-bridge`: `net/wan/tap.rs`; `net/router.rs`; `lib.rs`)

The device's thread writes the packets of its channel to the device, and reads the device's frames into a buffer that
nobody looks at; the handle to the router that it is given stays unused.  `tap_is_one_way` says what the hosts and the
system behind the device notice of each other.
-/
namespace Oathgate

open Lib

/-! ## The device -/

inductive TapToken where
  | read
  | write
  deriving DecidableEq, Repr

/-- Where `TunTap::run` is, with the events of its last poll that are still to be handled. -/
inductive TapPhase where
  | polling (events : List TapToken)
  | writing (pkts : List Ipv4Packet) (events : List TapToken)
  | stopped

/-- The device's thread with its channel, the frames that wait to be read from the device, and what was written. -/
structure TunTap where
  channel : Mailbox Ipv4Packet
  frames : Mailbox (List Byte)
  phase : TapPhase
  written : List (List Byte)

/-- A waker is woken by its writer, or the system behind the device sends a frame; or the loop goes on, where the
operating system may fail its calls. -/
inductive TapEvent where
  | wake
  | arrive (frame : List Byte)
  | poll (ready : List TapToken)
  | pollFailed
  | next
  | read (failed : Bool)
  | write (failed : Bool)

namespace TunTap

/-- `TunTap::create` and the start of `run`. -/
def new : TunTap := ⟨.empty, .empty, .polling [], []⟩

/-- `TunTapHandle::write` up to the wake; nothing is sent to a thread that has ended. -/
def send (pkt : Ipv4Packet) (t : TunTap) : TunTap :=
  match t.phase with
  | .stopped => t
  | _ => { t with channel := t.channel.leave pkt }

/-- `TunTap::read_from_device`; the call waits while there is no frame. -/
def readFromDevice (failed : Bool) (t : TunTap) : Option TunTap :=
  match failed, t.frames.items with
  | true, _ => some t
  | false, [] => none
  | false, _ :: _ => some { t with frames := t.frames.takeFirst 1 }

/-- `TunTap::write_to_device` -/
def writeToDevice (failed : Bool) (pkt : Ipv4Packet) (t : TunTap) : TunTap :=
  if failed then t else { t with written := t.written ++ [pkt.data] }

/-- Takes up the next event of the last poll, or goes on to it after the last packet drained. -/
def next (t : TunTap) : Option TunTap :=
  match t.phase with
  | .polling (.write :: events) =>
    some { t with channel := t.channel.takeAll, phase := .writing t.channel.items events }
  | .writing [] events => some { t with phase := .polling events }
  | _ => none

/-- A poll reports what was rung for. -/
def poll (ready : List TapToken) (t : TunTap) : Option TunTap :=
  match t.phase with
  | .polling [] =>
    if ready.Nodup ∧ (.read ∈ ready → t.frames.rung = true) ∧ (.write ∈ ready → t.channel.rung = true) then
      some { t with
        channel := if .write ∈ ready then t.channel.hear else t.channel
        frames := if .read ∈ ready then t.frames.hear else t.frames
        phase := .polling ready }
    else none
  | _ => none

def apply (t : TunTap) : TapEvent → Option TunTap
  | .wake => if 0 < t.channel.silent then some { t with channel := t.channel.ring } else none
  | .arrive frame =>
    match t.phase with
    | .stopped => none
    | _ => some { t with frames := t.frames.deliver frame }
  | .poll ready => t.poll ready
  | .pollFailed =>
    match t.phase with
    | .polling [] => some { t with phase := .stopped }
    | _ => none
  | .next => t.next
  | .read failed =>
    match t.phase with
    | .polling (.read :: events) => (t.readFromDevice failed).map fun t => { t with phase := .polling events }
    | _ => none
  | .write failed =>
    match t.phase with
    | .writing (pkt :: pkts) events => some { t.writeToDevice failed pkt with phase := .writing pkts events }
    | _ => none

/-- What one step of the device does. -/
inductive Moves (t : TunTap) : TapEvent → TunTap → Prop where
  | wake : Moves t .wake { t with channel := t.channel.ring }
  | arrive (frame : List Byte) (hphase : t.phase ≠ .stopped) :
      Moves t (.arrive frame) { t with frames := t.frames.deliver frame }
  | poll (ready : List TapToken) (hphase : t.phase = .polling []) (honce : ready.Nodup)
      (hread : .read ∈ ready → t.frames.rung = true) :
      Moves t (.poll ready) { t with
        channel := if .write ∈ ready then t.channel.hear else t.channel
        frames := if .read ∈ ready then t.frames.hear else t.frames
        phase := .polling ready }
  | stop : Moves t .pollFailed { t with phase := .stopped }
  | woken (events : List TapToken) (hphase : t.phase = .polling (.write :: events)) :
      Moves t .next { t with channel := t.channel.takeAll, phase := .writing t.channel.items events }
  | drained (events : List TapToken) (hphase : t.phase = .writing [] events) :
      Moves t .next { t with phase := .polling events }
  | unread (events : List TapToken) (hphase : t.phase = .polling (.read :: events)) :
      Moves t (.read true) { t with phase := .polling events }
  | read (frame : List Byte) (rest : List (List Byte)) (events : List TapToken)
      (hphase : t.phase = .polling (.read :: events)) (hitems : t.frames.items = frame :: rest) :
      Moves t (.read false) { t with frames := t.frames.takeFirst 1, phase := .polling events }
  | unwritten (pkt : Ipv4Packet) (pkts : List Ipv4Packet) (events : List TapToken)
      (hphase : t.phase = .writing (pkt :: pkts) events) :
      Moves t (.write true) { t with phase := .writing pkts events }
  | wrote (pkt : Ipv4Packet) (pkts : List Ipv4Packet) (events : List TapToken)
      (hphase : t.phase = .writing (pkt :: pkts) events) :
      Moves t (.write false) { t with written := t.written ++ [pkt.data], phase := .writing pkts events }

theorem moves_step {e : TapEvent} {t t' : TunTap} (h : t.apply e = some t') : Moves t e t' := by
  unfold apply at h
  cases e with
  | wake =>
    simp only at h
    split at h
    · cases h
      exact .wake
    · cases h
  | arrive frame =>
    simp only at h
    split at h
    · cases h
    · rename_i hphase
      cases h
      exact .arrive frame hphase
  | poll ready =>
    simp only [poll] at h
    split at h
    · rename_i hphase
      split at h
      · rename_i hready
        cases h
        exact .poll ready hphase hready.1 hready.2.1
      · cases h
    · cases h
  | pollFailed =>
    simp only at h
    split at h
    · cases h
      exact .stop
    · cases h
  | next =>
    simp only [next] at h
    split at h
    · rename_i events hphase
      cases h
      exact .woken events hphase
    · rename_i events hphase
      cases h
      exact .drained events hphase
    · cases h
  | read failed =>
    simp only at h
    split at h
    · rename_i events hphase
      obtain ⟨u, hread, rfl⟩ := Option.map_eq_some_iff.1 h
      unfold readFromDevice at hread
      split at hread
      · cases hread
        exact .unread events hphase
      · cases hread
      · rename_i frame rest hitems
        cases hread
        exact .read frame rest events hphase hitems
    · cases h
  | write failed =>
    simp only at h
    split at h
    · rename_i pkt pkts events hphase
      cases h
      cases failed with
      | true => exact .unwritten pkt pkts events hphase
      | false => exact .wrote pkt pkts events hphase
    · cases h

theorem send_running {t : TunTap} (h : t.phase ≠ .stopped) (pkt : Ipv4Packet) :
    t.send pkt = { t with channel := t.channel.leave pkt } := by
  unfold send
  split
  · rename_i hstopped
    exact absurd hstopped h
  · rfl

theorem send_stopped {t : TunTap} (h : t.phase = .stopped) (pkt : Ipv4Packet) : t.send pkt = t := by
  unfold send
  rw [h]

/-! ## What becomes of the packets -/

/-- The packets drained and not yet written. -/
def inHand (t : TunTap) : List Ipv4Packet :=
  match t.phase with
  | .writing pkts _ => pkts
  | _ => []

/-- **What became of the packets given to the device**: those done with are the first given, and were written where no
write failed; while the thread runs, the others are in its hand or in its channel. -/
structure Follows (given : List Ipv4Packet) (clean : Prop) (done : List Ipv4Packet) (t : TunTap) : Prop where
  first : done <+: given
  written : t.written.Sublist (done.map Ipv4Packet.data)
  all : clean → t.written = done.map Ipv4Packet.data
  rest : t.phase ≠ .stopped → done ++ t.inHand ++ t.channel.items = given

section Follows

variable {given done : List Ipv4Packet} {clean clean' : Prop} {t t' : TunTap}

/-- A step that writes nothing to the device. -/
theorem Follows.quiet (h : Follows given clean done t) (hwritten : t'.written = t.written)
    (hpkts : t'.phase ≠ .stopped → t.phase ≠ .stopped ∧
      t'.inHand ++ t'.channel.items = t.inHand ++ t.channel.items) : Follows given clean done t' := by
  refine ⟨h.first, ?_, ?_, ?_⟩
  · rw [hwritten]
    exact h.written
  · rw [hwritten]
    exact h.all
  · intro hphase
    obtain ⟨hbefore, hpkts⟩ := hpkts hphase
    rw [List.append_assoc, hpkts, ← List.append_assoc]
    exact h.rest hbefore

theorem Follows.mono (h : Follows given clean done t) (hclean : clean' → clean) : Follows given clean' done t :=
  ⟨h.first, h.written, fun hc => h.all (hclean hc), h.rest⟩

theorem Follows.send (h : Follows given clean done t) (pkt : Ipv4Packet) :
    Follows (given ++ [pkt]) clean done (t.send pkt) := by
  have hfirst := h.first.trans (List.prefix_append given [pkt])
  by_cases hphase : t.phase = .stopped
  · rw [send_stopped hphase]
    exact ⟨hfirst, h.written, h.all, fun hrunning => absurd hphase hrunning⟩
  · rw [send_running hphase]
    refine ⟨hfirst, h.written, h.all, fun hrunning => ?_⟩
    show done ++ t.inHand ++ (t.channel.items ++ [pkt]) = given ++ [pkt]
    rw [← List.append_assoc, h.rest hrunning]

theorem follows_sends (sent : List Ipv4Packet) (h : Follows given clean done t) :
    Follows (given ++ sent) clean done (sent.foldl (fun t pkt => t.send pkt) t) := by
  induction sent generalizing given t with
  | nil =>
    rw [List.append_nil]
    exact h
  | cons pkt sent ih =>
    rw [List.append_cons]
    exact ih (h.send pkt)

/-- The next packet in hand is done with. -/
theorem Follows.taken {pkt : Ipv4Packet} {pkts : List Ipv4Packet} {events : List TapToken}
    (h : Follows given clean done t) (hphase : t.phase = .writing (pkt :: pkts) events) :
    done ++ [pkt] <+: given ∧ done ++ [pkt] ++ pkts ++ t.channel.items = given := by
  have hgiven : done ++ [pkt] ++ pkts ++ t.channel.items = given := by
    rw [← h.rest (by simp [hphase])]
    simp [inHand, hphase]
  refine ⟨?_, hgiven⟩
  rw [← hgiven, List.append_assoc (done ++ [pkt])]
  exact List.prefix_append _ _

theorem follows_step {e : TapEvent} (h : ∃ done, Follows given clean done t)
    (hclean : clean' → clean ∧ e ≠ .write true) (hstep : t.apply e = some t') :
    ∃ done, Follows given clean' done t' := by
  obtain ⟨done, hfollows⟩ := h
  have h : Follows given clean' done t := hfollows.mono fun hc => (hclean hc).1
  cases moves_step hstep with
  | wake => exact ⟨done, h.quiet rfl fun hphase => ⟨hphase, rfl⟩⟩
  | arrive frame hphase => exact ⟨done, h.quiet rfl fun hphase => ⟨hphase, rfl⟩⟩
  | poll ready hphase =>
    have hitems : (if .write ∈ ready then t.channel.hear else t.channel).items = t.channel.items := by
      split <;> rfl
    exact ⟨done, h.quiet rfl fun _ => ⟨by simp [hphase], by simp [inHand, hphase, hitems]⟩⟩
  | stop => exact ⟨done, h.quiet rfl fun hphase => absurd rfl hphase⟩
  | woken events hphase =>
    -- what was in the channel is in hand now
    exact ⟨done, h.quiet rfl fun _ => ⟨by simp [hphase], by simp [inHand, hphase, Mailbox.takeAll]⟩⟩
  | drained events hphase => exact ⟨done, h.quiet rfl fun _ => ⟨by simp [hphase], by simp [inHand, hphase]⟩⟩
  | unread events hphase => exact ⟨done, h.quiet rfl fun _ => ⟨by simp [hphase], by simp [inHand, hphase]⟩⟩
  | read frame rest events hphase hitems =>
    exact ⟨done, h.quiet rfl fun _ => ⟨by simp [hphase], by simp [inHand, hphase]⟩⟩
  | unwritten pkt pkts events hphase =>
    obtain ⟨hfirst, hrest⟩ := h.taken hphase
    refine ⟨done ++ [pkt], hfirst, ?_, fun hc => absurd rfl (hclean hc).2, fun _ => hrest⟩
    rw [List.map_append]
    exact h.written.trans (List.sublist_append_left _ _)
  | wrote pkt pkts events hphase =>
    obtain ⟨hfirst, hrest⟩ := h.taken hphase
    refine ⟨done ++ [pkt], hfirst, ?_, fun hc => ?_, fun _ => hrest⟩
    · rw [List.map_append]
      exact h.written.append (List.Sublist.refl _)
    · show t.written ++ [pkt.data] = _
      rw [h.all hc, List.map_append]
      rfl

end Follows

/-! ## Nothing is forgotten -/

/-- The events of the last poll that are still to be handled. -/
def events (t : TunTap) : List TapToken :=
  match t.phase with
  | .polling events => events
  | .writing _ events => events
  | .stopped => []

theorem events_polling {t : TunTap} {tokens : List TapToken} (h : t.phase = .polling tokens) : t.events = tokens := by
  unfold events
  rw [h]

theorem events_writing {t : TunTap} {pkts : List Ipv4Packet} {tokens : List TapToken}
    (h : t.phase = .writing pkts tokens) : t.events = tokens := by
  unfold events
  rw [h]

/-- **The thread will look into its channel** for a packet there, and there is a frame whenever it is to read one. -/
structure Attended (t : TunTap) : Prop where
  channel : t.channel.Awaited (.write ∈ t.events)
  once : t.events.Nodup
  frames : ∃ n, t.frames.Behind n (decide (.read ∈ t.events))

section Attended

variable {t t' : TunTap}

theorem Attended.send (h : t.phase ≠ .stopped → Attended t) (pkt : Ipv4Packet)
    (hrunning : (t.send pkt).phase ≠ .stopped) : Attended (t.send pkt) := by
  by_cases hphase : t.phase = .stopped
  · rw [send_stopped hphase] at hrunning
    exact absurd hphase hrunning
  · rw [send_running hphase]
    exact ⟨Mailbox.awaited_leave pkt, (h hphase).once, (h hphase).frames⟩

theorem attended_sends (sent : List Ipv4Packet) (h : t.phase ≠ .stopped → Attended t)
    (hrunning : (sent.foldl (fun t pkt => t.send pkt) t).phase ≠ .stopped) :
    Attended (sent.foldl (fun t pkt => t.send pkt) t) := by
  induction sent generalizing t with
  | nil => exact h hrunning
  | cons pkt sent ih => exact ih (Attended.send h pkt) hrunning

/-- A step that leaves channel, device and events as they were. -/
theorem Attended.keep (h : Attended t) (hchannel : t'.channel = t.channel) (hframes : t'.frames = t.frames)
    (hevents : t'.events = t.events) : Attended t' := by
  refine ⟨?_, ?_, ?_⟩
  · rw [hchannel, hevents]
    exact h.channel
  · rw [hevents]
    exact h.once
  · rw [hframes, hevents]
    exact h.frames

/-- **When the device is to be read** there is a frame, and it will not be read again before the next poll. -/
theorem Attended.readable {tokens : List TapToken} (h : Attended t) (hphase : t.phase = .polling (.read :: tokens)) :
    t.channel.Awaited (.write ∈ tokens) ∧ tokens.Nodup ∧ .read ∉ tokens ∧ ∃ n, t.frames.Behind n true := by
  obtain ⟨hchannel, honce, n, hbehind⟩ := h
  rw [events_polling hphase] at hchannel honce hbehind
  rw [List.nodup_cons] at honce
  rw [decide_eq_true (List.mem_cons_self ..)] at hbehind
  exact ⟨hchannel.mono (List.mem_of_ne_of_mem (by decide)), honce.2, honce.1, n, hbehind⟩

theorem attended_step {e : TapEvent} (h : t.phase ≠ .stopped → Attended t) (hstep : t.apply e = some t')
    (hrunning : t'.phase ≠ .stopped) : Attended t' := by
  cases moves_step hstep with
  | wake => exact ⟨Mailbox.awaited_ring, (h hrunning).once, (h hrunning).frames⟩
  | arrive frame hphase =>
    obtain ⟨n, hbehind⟩ := (h hphase).frames
    exact ⟨(h hphase).channel, (h hphase).once, _, hbehind.deliver frame⟩
  | stop => exact absurd rfl hrunning
  | poll ready hphase honce hread =>
    have hbefore := h (by simp [hphase])
    have hnone := events_polling hphase
    refine ⟨?_, honce, ?_⟩
    · show (if .write ∈ ready then t.channel.hear else t.channel).Awaited (.write ∈ ready)
      by_cases hwrite : .write ∈ ready
      · rw [if_pos hwrite]
        exact Mailbox.awaited_hear hwrite
      · rw [if_neg hwrite]
        exact hbefore.channel.mono fun hmem => by rw [hnone] at hmem; cases hmem
    · obtain ⟨n, hbehind⟩ := hbefore.frames
      rw [hnone] at hbehind
      refine ⟨n, ?_⟩
      show (if .read ∈ ready then t.frames.hear else t.frames).Behind n (decide (.read ∈ ready))
      by_cases hmem : .read ∈ ready
      · rw [if_pos hmem, decide_eq_true hmem]
        exact hbehind.hear (hread hmem)
      · rw [if_neg hmem, decide_eq_false hmem]
        exact hbehind
  | woken events hphase =>
    obtain ⟨-, honce, n, hbehind⟩ := h (by simp [hphase])
    rw [events_polling hphase] at honce hbehind
    refine ⟨Mailbox.awaited_nil rfl, (List.nodup_cons.1 honce).2, n, ?_⟩
    show t.frames.Behind n (decide (.read ∈ events))
    simpa using hbehind
  | drained events hphase => exact (h (by simp [hphase])).keep rfl rfl (events_writing hphase).symm
  | unread events hphase =>
    obtain ⟨hchannel, honce, hlast, n, hbehind⟩ := (h (by simp [hphase])).readable hphase
    refine ⟨hchannel, honce, n + 1, ?_⟩
    show t.frames.Behind (n + 1) (decide (.read ∈ events))
    rw [decide_eq_false hlast]
    exact hbehind.miss
  | read frame rest events hphase hitems =>
    obtain ⟨hchannel, honce, hlast, n, hbehind⟩ := (h (by simp [hphase])).readable hphase
    refine ⟨hchannel, honce, n, ?_⟩
    show (t.frames.takeFirst 1).Behind n (decide (.read ∈ events))
    rw [decide_eq_false hlast]
    exact hbehind.take hitems
  | unwritten pkt pkts events hphase => exact (h (by simp [hphase])).keep rfl rfl (events_writing hphase).symm
  | wrote pkt pkts events hphase => exact (h (by simp [hphase])).keep rfl rfl (events_writing hphase).symm

end Attended

end TunTap

/-! ## The hosts' side -/

namespace RouterThread

/-- **Nothing came from outside**, and the router is joined to the switch while it lives. -/
structure Inside (net : Ipv4Network) (t : RouterThread) : Prop where
  network : t.router.network = net
  quiet : wanOf (t.handled ++ t.inbox) = []
  wired : t.alive = true → Wired net t.router t.handled t.inbox

theorem inside_step {api : Dhcproto} {net : Ipv4Network} {t t' : RouterThread} {sent : List Ipv4Packet} {e : HostEvent}
    (h : Inside net t) (hstep : t.apply api e = some (t', sent)) :
    Inside net t' ∧ t'.handled.flatMap (forwarded net) = t.handled.flatMap (forwarded net) ++ sent := by
  have hmoves := moves_apply h.network h.wired hstep
  exact ⟨⟨hmoves.network, hmoves.outside.trans h.quiet, hmoves.wired⟩, hmoves.forwards⟩

end RouterThread

/-! ## The threads -/

structure BridgeTap extends hosts : RouterThread where
  tap : TunTap

inductive BridgeTapEvent where
  | hosts (e : HostEvent)
  | tap (e : TapEvent)

/-- What the hosts' side sees of an event. -/
def BridgeTapEvent.host : BridgeTapEvent → Option HostEvent
  | .hosts e => some e
  | .tap _ => none

namespace BridgeTap

open RouterThread (wanOf forwarded)

def new (mac : MacAddress) (network : Ipv4Network) (handlers : Table (BitVec 8) ProtocolHandler) : BridgeTap :=
  ⟨.new mac network handlers, .new⟩

/-- What the router writes to its WAN device is sent to the device's thread, which has a handle to the router and does
not use it. -/
def apply (api : Dhcproto) (b : BridgeTap) : BridgeTapEvent → Option BridgeTap
  | .hosts e => (b.hosts.apply api e).map fun x => ⟨x.1, x.2.foldl (fun t pkt => t.send pkt) b.tap⟩
  | .tap e => (b.tap.apply e).map fun tap => { b with tap }

def Step (api : Dhcproto) (b : BridgeTap) (e : BridgeTapEvent) (b' : BridgeTap) : Prop := b.apply api e = some b'

/-- No write of the device has failed. -/
def Clean (es : List BridgeTapEvent) : Prop := ∀ e ∈ es, e ≠ .tap (.write true)

/-- **Where a run stands**: nothing came from outside, and the device's thread has what the router forwards. -/
structure Joined (net : Ipv4Network) (es : List BridgeTapEvent) (b : BridgeTap) : Prop where
  inside : b.hosts.Inside net
  follows : ∃ done, b.tap.Follows (b.hosts.handled.flatMap (forwarded net)) (Clean es) done
  attended : b.tap.phase ≠ .stopped → b.tap.Attended

theorem joined_step {api : Dhcproto} {net : Ipv4Network} {es : List BridgeTapEvent} {b b' : BridgeTap}
    {e : BridgeTapEvent} (h : Joined net es b) (hstep : Step api b e b') : Joined net (es ++ [e]) b' := by
  have hclean : Clean (es ++ [e]) → Clean es ∧ e ≠ .tap (.write true) := fun hc =>
    ⟨fun x hx => hc x (List.mem_append_left _ hx), hc e (List.mem_append_right _ (List.mem_singleton_self _))⟩
  cases e with
  | hosts e =>
    obtain ⟨⟨hosts, sent⟩, happly, rfl⟩ := Option.map_eq_some_iff.1 hstep
    obtain ⟨hinside, hforwarded⟩ := RouterThread.inside_step h.inside happly
    obtain ⟨done, hfollows⟩ := h.follows
    refine ⟨hinside, ⟨done, ?_⟩, TunTap.attended_sends sent h.attended⟩
    simp only
    rw [hforwarded]
    exact TunTap.follows_sends sent (hfollows.mono fun hc => (hclean hc).1)
  | tap e =>
    obtain ⟨tap, happly, rfl⟩ := Option.map_eq_some_iff.1 hstep
    refine ⟨h.inside, TunTap.follows_step h.follows (fun hc => ⟨(hclean hc).1, ?_⟩) happly,
      TunTap.attended_step h.attended happly⟩
    rintro rfl
    exact (hclean hc).2 rfl

theorem joined_run {api : Dhcproto} {mac : MacAddress} {net : Ipv4Network}
    {handlers : Table (BitVec 8) ProtocolHandler} {es : List BridgeTapEvent} {b : BridgeTap}
    (hrun : Run (Step api) (new mac net handlers) es b) : Joined net es b := by
  refine Run.invariant (I := Joined net) ?_ (fun es b e b' _ h hstep => joined_step h hstep) hrun
  refine ⟨⟨rfl, rfl, fun _ => ⟨rfl, Nat.one_pos, rfl, rfl⟩⟩, ⟨[], ?_⟩, fun _ => ?_⟩
  · exact ⟨List.prefix_refl _, List.Sublist.refl _, fun _ => rfl, fun _ => rfl⟩
  · exact ⟨Mailbox.awaited_empty, List.nodup_nil, 0, Mailbox.behind_empty⟩

/-- **What the hosts' side does is a run of its own.** -/
theorem hosts_run {api : Dhcproto} {b₀ b : BridgeTap} {es : List BridgeTapEvent} (hrun : Run (Step api) b₀ es b) :
    Run (RouterThread.Step api) b₀.hosts (es.filterMap BridgeTapEvent.host) b.hosts := by
  refine Run.project BridgeTap.hosts BridgeTapEvent.host ?_ hrun
  intro b e b' hstep
  cases e with
  | hosts e =>
    obtain ⟨⟨hosts, sent⟩, happly, rfl⟩ := Option.map_eq_some_iff.1 hstep
    exact Or.inl ⟨e, rfl, sent, happly⟩
  | tap e =>
    obtain ⟨tap, -, rfl⟩ := Option.map_eq_some_iff.1 hstep
    exact Or.inr ⟨rfl, rfl⟩

/-! ## What the system behind the device reads -/

/-- The ethertype of a frame is the word at its place. -/
theorem ethertype_of_extract {bytes rest : List Byte} {frame : EthernetFrame}
    (h : EthernetFrame.extract bytes = (.ok frame, rest)) : frame.ethertype.asU16 = be16At bytes 12 := by
  by_cases hshort : bytes.length < 14
  · rw [EthernetFrame.extract_short bytes hshort] at h
    cases h
  · rw [EthernetFrame.extract_of_length bytes (by omega), Prod.mk.injEq, Res.bind_eq_ok] at h
    obtain ⟨⟨ty, hty, hframe⟩, -⟩ := h
    cases hframe
    exact ((EtherType.tryFrom_eq_ok _ _).1 hty).symm

/-- A packet forwarded for a frame holds its header. -/
theorem header_of_forwarded {net : Ipv4Network} {msgs : List RouterMsg} (hquiet : wanOf msgs = []) {pkt : Ipv4Packet}
    (hpkt : pkt ∈ msgs.flatMap (forwarded net)) : pkt.header = Ipv4Header.headerOf pkt.data := by
  obtain ⟨msg, hmsg, hpkt⟩ := List.mem_flatMap.1 hpkt
  unfold forwarded at hpkt
  rw [Option.mem_toList] at hpkt
  obtain ⟨hpkt, -⟩ := Option.filter_eq_some_iff.1 hpkt
  cases msg with
  | fromWan4 q whole =>
    have hmem : q ∈ wanOf msgs := List.mem_filterMap.2 ⟨_, hmsg, rfl⟩
    rw [hquiet] at hmem
    cases hmem
  | fromLan frame =>
    unfold RouterThread.ipv4Of at hpkt
    simp only at hpkt
    split at hpkt
    · split at hpkt
      · rename_i q hparse
        obtain ⟨-, rfl⟩ := parse_eq_ok_iff.1 hparse
        cases hpkt
        rfl
      · cases hpkt
    · cases hpkt

/-- **A bridge with a tap upstream gets nothing from it, and gives it packets where it takes frames.**  In every run of
the bridge, whatever guests send, whatever comes from the system behind the device and whatever of its reads and writes
fails: the hosts, the switch and the router are as in every run with the same steps of their own, whatever happened at
the device; what was written to the device is some of the packets the router forwards, in order, and all of them when
the device's thread waits with nothing to be told and no write has failed; the thread is never held up in a read with no
frame to be read; and whoever reads what was written as frames, as a tap device does, takes the upper half of the
packet's source address for the ethertype. -/
theorem tap_is_one_way {api : Dhcproto} {mac : MacAddress} {net : Ipv4Network}
    {handlers : Table (BitVec 8) ProtocolHandler} {es : List BridgeTapEvent} {b : BridgeTap}
    (hrun : Run (Step api) (new mac net handlers) es b) :
    (∀ es' b', Run (Step api) (new mac net handlers) es' b' →
      es'.filterMap BridgeTapEvent.host = es.filterMap BridgeTapEvent.host → b'.hosts = b.hosts) ∧
    b.tap.written.Sublist ((b.hosts.handled.flatMap (forwarded net)).map Ipv4Packet.data) ∧
    (b.tap.phase = .polling [] → b.tap.channel.silent = 0 → b.tap.channel.rung = false → Clean es →
      b.tap.written = (b.hosts.handled.flatMap (forwarded net)).map Ipv4Packet.data) ∧
    (∀ tokens, b.tap.phase = .polling (.read :: tokens) → b.tap.frames.items ≠ []) ∧
    ∀ bytes ∈ b.tap.written, ∃ pkt ∈ b.hosts.handled.flatMap (forwarded net), pkt.data = bytes ∧
      ∀ frame rest, EthernetFrame.extract bytes = (.ok frame, rest) →
        frame.ethertype.asU16 = pkt.src.extractLsb' 16 16 := by
  obtain ⟨hinside, ⟨done, hfollows⟩, hattended⟩ := joined_run hrun
  have hwritten := hfollows.written.trans (hfollows.first.sublist.map Ipv4Packet.data)
  refine ⟨?_, hwritten, ?_, ?_, ?_⟩
  · intro es' b' hrun' hsame
    have hhosts' := hosts_run hrun'
    rw [hsame] at hhosts'
    exact hhosts'.deterministic RouterThread.step_deterministic (hosts_run hrun)
  · intro hphase hsilent hrung hclean
    have hidle : ¬ TapToken.write ∈ b.tap.events := by
      rw [TunTap.events_polling hphase]
      exact List.not_mem_nil
    have hempty := (hattended (by simp [hphase])).channel.at_rest hsilent hrung hidle
    have hrest := hfollows.rest (by simp [hphase])
    have hhand : b.tap.inHand = [] := by
      unfold TunTap.inHand
      rw [hphase]
    rw [hhand, hempty, List.append_nil, List.append_nil] at hrest
    rw [hfollows.all hclean, hrest]
  · intro tokens hphase
    obtain ⟨-, -, -, n, hbehind⟩ := (hattended (by simp [hphase])).readable hphase
    exact hbehind.ne_nil
  · intro bytes hbytes
    obtain ⟨pkt, hpkt, rfl⟩ := List.mem_map.1 (hwritten.subset hbytes)
    refine ⟨pkt, hpkt, rfl, ?_⟩
    intro frame rest hextract
    have hquiet : wanOf b.hosts.handled = [] := by
      have hall := hinside.quiet
      rw [RouterThread.wanOf_append] at hall
      exact (List.append_eq_nil_iff.1 hall).1
    have hheader := header_of_forwarded hquiet hpkt
    have hsrc : pkt.src = be32At pkt.data 12 := congrArg Ipv4Header.src hheader
    rw [ethertype_of_extract hextract, hsrc, upper_be32At]

/-- A guest announces itself and asks a server outside; the query is written to the device, and something comes from
there. -/
def unanswered : List BridgeTapEvent :=
  [.hosts .connect, .hosts (.frame 1 (Router.homeRequest.frame.wire ++ Router.homeRequest.payload)), .hosts (.route 0),
    .hosts (.frame 1 (EthernetFrame.wire ⟨guestMac 0xFF, guestMac 1, .ipv4⟩ ++ (WgDevice.query 0x0A000064 1000).data)),
    .hosts (.route 0), .tap .wake, .tap (.arrive (WgDevice.answer 1000).data), .tap (.poll [.read, .write]),
    .tap (.read false), .tap .next, .tap (.write false), .tap .next]

theorem tap_is_one_way_of_query : ∃ b,
    Run (Step decodedOnly) (new (guestMac 0xFF) homeNet Table.empty) unanswered b ∧
    b.tap.written = [(WgDevice.query 0x0A000064 1000).data] ∧ wanOf b.hosts.handled = [] ∧
    ∀ bytes ∈ b.tap.written, ∀ frame rest, EthernetFrame.extract bytes ≠ (.ok frame, rest) := by
  have hrun : Run (Step decodedOnly) (new (guestMac 0xFF) homeNet Table.empty) unanswered _ :=
    .cons rfl <| .cons rfl <| .cons rfl <| .cons rfl <| .cons rfl <| .cons rfl <| .cons rfl <| .cons rfl <|
    .cons rfl <| .cons rfl <| .cons rfl <| .cons rfl .nil
  obtain ⟨-, -, hall, -, hread⟩ := tap_is_one_way hrun
  have hclean : Clean unanswered := by
    intro e he
    rintro rfl
    simp [unanswered] at he
  refine ⟨_, hrun, (hall rfl rfl rfl hclean).trans rfl, rfl, ?_⟩
  intro bytes hbytes frame rest hextract
  obtain ⟨pkt, hpkt, -, htype⟩ := hread bytes hbytes
  have htype := htype frame rest hextract
  rw [List.mem_singleton.1 hpkt] at htype
  -- no ethertype is the upper half of 10.0.0.100
  have hnone : ∀ ty : EtherType, ty.asU16 ≠ 0x0A00 := by
    intro ty
    cases ty <;> decide
  exact hnone frame.ethertype htype

end BridgeTap
end Oathgate
