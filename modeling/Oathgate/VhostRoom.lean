import Oathgate.VhostWake
/-!
# VhostRoom — frames and the room for them (`oathgate-vhost`: `queue.rs`, `handle_rx_queued`)

The length of a frame is the sender's choice, the room of a chain the receiver's driver's.  A frame that does not fit
fails in one of its three writes, when its chain is off the available ring and the frame off the pending queue, and the
error ends the device: `rx_unharmed_iff` says exactly which calls come to no harm.
-/
namespace Oathgate

open Lib

variable {Q G C R W E : Type}

namespace VirtQueue

variable {api : VirtioQueue Q G C R W E} {avail : Q → G → List C} {capacity : C → Option Nat} {room : W → Nat}

/-- **A call that does no harm**, whatever frames are pending: it returns; it used as many of the available chains as
there are frames for them, in order, and returned each to the driver; the frames it took were the first ones pending,
and each that its chain can take is in it. -/
structure Unharmed (api : VirtioQueue Q G C R W E) (avail : Q → G → List C) (capacity : C → Option Nat)
    (rx : Rx Q G C W) (r : Res (VhostError E) Unit) (rx' : Rx Q G C W) : Prop where
  returns : r = .ok ()
  serves : ∃ us returned, rx'.popped = rx.popped ++ us ∧ rx'.used = rx.used ++ returned ∧
    returned.map Prod.fst = us.map (fun u => api.headIndex u.chain) ∧
    us.map ChainUse.chain = (avail rx.vq.queue rx.guest).take rx.pending.length ∧
    us.filterMap ChainUse.frame ++ rx'.pending = rx.pending ∧
    ∀ u ∈ us, ∀ pkt, u.frame = some pkt → Takes capacity u.chain pkt → Filled api u

theorem pop_avail (hapi : api.Serves avail capacity room) {q q' : Q} {guest : G} {chain : C}
    (h : api.popDescriptorChain q guest = (some chain, q')) : avail q guest = chain :: avail q' guest := by
  cases ha : avail q guest with
  | nil =>
    have hnone := hapi.exhausted q guest ha
    rw [h] at hnone
    cases hnone
  | cons chain' rest =>
    obtain ⟨q'', hpop, hrest⟩ := hapi.pop q guest chain' rest ha
    rw [h, Prod.mk.injEq, Option.some.injEq] at hpop
    obtain ⟨rfl, rfl⟩ := hpop
    rw [hrest]

theorem pop_none (hapi : api.Serves avail capacity room) {q q' : Q} {guest : G}
    (h : api.popDescriptorChain q guest = (none, q')) : avail q guest = [] := by
  cases ha : avail q guest with
  | nil => rfl
  | cons chain rest =>
    obtain ⟨q'', hpop, -⟩ := hapi.pop q guest chain rest ha
    rw [h] at hpop
    cases hpop

/-- What a round that succeeds leaves of the frames and of the ring. -/
theorem useChain_avail (hapi : api.Serves avail capacity room) {chain : C} {pkt : EthernetPacket} {rx rx' : Rx Q G C W}
    {u : Unit} (h : useChain api chain pkt rx = (.ok u, rx')) :
    rx'.pending = rx.pending ∧ avail rx'.vq.queue rx'.guest = avail rx.vq.queue rx.guest := by
  by_cases htakes : Takes capacity chain pkt
  · obtain ⟨rx₁, huse, hpending, -, havail⟩ := useChain_grants hapi chain pkt rx htakes
    rw [h, Prod.mk.injEq] at huse
    rw [huse.2]
    exact ⟨hpending, havail⟩
  · obtain ⟨e, rx₁, huse, -⟩ := useChain_full hapi chain pkt rx htakes
    rw [h] at huse
    cases huse

/-- **A loop that succeeds uses the first chains of the ring**, one for each frame while there are chains. -/
theorem rxLoop_chains (hapi : api.Serves avail capacity room) : ∀ (fuel : Nat) (rx rx' : Rx Q G C W) (u : Unit),
    rxLoop api fuel rx = some (.ok u, rx') →
      ∃ us : List (ChainUse C W), rx'.popped = rx.popped ++ us ∧
        us.map ChainUse.chain = (avail rx.vq.queue rx.guest).take rx.pending.length
  | 0, _, _, _, h => by cases h
  | fuel + 1, rx, rx', u, h => by
    cases rxLoop_round h with
    | empty hp => exact ⟨[], (List.append_nil _).symm, by rw [hp]; rfl⟩
    | exhausted hp hpop => exact ⟨[], (List.append_nil _).symm, by rw [pop_none hapi hpop, List.take_nil]; rfl⟩
    | failed hp hpop huse hno => exact absurd rfl (hno u)
    | @moved pkt pending chain queue v rx₁ _ _ hp hpop huse hrest =>
      obtain ⟨⟨w, hd⟩, -⟩ := useChain_ok huse
      obtain ⟨hpending, havail⟩ := useChain_avail hapi huse
      obtain ⟨us, hpopped, hchains⟩ := rxLoop_chains hapi fuel rx₁ rx' u hrest
      refine ⟨⟨chain, some pkt, some w⟩ :: us, ?_, ?_⟩
      · rw [hpopped, hd.popped, List.append_assoc, List.singleton_append]
      · rw [List.map_cons, hchains, hpending, havail, hp, pop_avail hapi hpop, List.length_cons, List.take_succ_cons]

theorem handleRxQueued_chains (hapi : api.Serves avail capacity room) {fuel : Nat} {rx rx' : Rx Q G C W} {u : Unit}
    (h : handleRxQueued api fuel rx = some (.ok u, rx')) : ∃ us : List (ChainUse C W), rx'.popped = rx.popped ++ us ∧
      us.map ChainUse.chain = (avail rx.vq.queue rx.guest).take rx.pending.length := by
  rcases handleRxQueued_ok_cases h with ⟨hempty, rfl⟩ | ⟨v, hloop⟩
  · exact ⟨[], (List.append_nil _).symm, by rw [hempty]; rfl⟩
  · exact rxLoop_chains hapi fuel rx rx' v hloop

theorem unharmed_of_ok (hapi : api.Serves avail capacity room) {fuel : Nat} {rx rx' : Rx Q G C W} {u : Unit}
    (h : handleRxQueued api fuel rx = some (.ok u, rx')) : Unharmed api avail capacity rx (.ok u) rx' := by
  obtain ⟨⟨us, hd⟩, -⟩ := handleRxQueued_ok h
  obtain ⟨vs, hpopped, hchains⟩ := handleRxQueued_chains hapi h
  rw [hd.popped, List.append_cancel_left_eq] at hpopped
  subst hpopped
  refine ⟨rfl, us, us.map (report api), hd.popped, hd.used, ?_, hchains, hd.frames, fun u hu _ _ _ => hd.filled u hu⟩
  rw [List.map_map]
  rfl

/-- **A call does no harm exactly when there is nothing to do, or it can do all of it**: no frame is pending, or the
device has its memory, the ring is enabled, and every pending frame fits the chain at its place on the ring. -/
theorem rx_unharmed_iff (api : VirtioQueue Q G C R W E) (avail : Q → G → List C) (capacity : C → Option Nat)
    (room : W → Nat) (hapi : api.Serves avail capacity room) (fuel : Nat) (rx : Rx Q G C W)
    (hfuel : rx.pending.length < fuel) :
    ∃ r rx', handleRxQueued api fuel rx = some (r, rx') ∧
      (Unharmed api avail capacity rx r rx' ↔ rx.pending = [] ∨ (rx.vq.mapped = true ∧ rx.vq.enabled = true ∧
        ∀ x ∈ rx.pending.zip (avail rx.vq.queue rx.guest), ∃ n, capacity x.2 = some n ∧ 12 + x.1.wire.length ≤ n)) := by
  obtain ⟨r, rx', hcall, hiff⟩ := handleRxQueued_ok_iff hapi fuel rx hfuel
  refine ⟨r, rx', hcall, Iff.trans ⟨fun h => h.returns, ?_⟩ hiff⟩
  rintro rfl
  exact unharmed_of_ok hapi hcall

/-- One chain of a hundred bytes and, behind it, one of twenty. -/
def twoChains : RingGuest := ⟨[⟨5, [], 100⟩, ⟨6, [], 20⟩], []⟩

/-- A ring that is ready, in a device with its memory, and the frames pending for it. -/
def pendingFor (guest : RingGuest) (pending : List EthernetPacket) :
    Rx (Bool × Nat) RingGuest RingChain (Nat × List Byte) :=
  ⟨⟨true, (true, 0), true, true⟩, guest, pending, [], [], []⟩

theorem rx_unharmed_of_fitting :
    ∃ rx', handleRxQueued readyQueue 2 (pendingFor twoChains [⟨⟨guestMac 1, guestMac 2, .arp⟩, [7]⟩]) =
      some (.ok (), rx') := by
  obtain ⟨r, rx', hcall, hiff⟩ := rx_unharmed_iff readyQueue _ _ _ readyQueue_grants.serves 2
    (pendingFor twoChains [⟨⟨guestMac 1, guestMac 2, .arp⟩, [7]⟩]) (by decide)
  have hok := (hiff.2 (Or.inr ⟨rfl, rfl, ?_⟩)).returns
  · rw [hok] at hcall
    exact ⟨rx', hcall⟩
  intro x hx
  rw [show x = (⟨⟨guestMac 1, guestMac 2, .arp⟩, [7]⟩, ⟨5, [], 100⟩) from List.mem_singleton.1 hx]
  exact ⟨100, rfl, by decide⟩

/-- **An oversized frame ends its receiver.**  The frame before it is delivered; its own chain is off the ring and not
returned, and the error ends the loop of the device. -/
theorem oversized_frame_ends_device :
    ∃ rx', handleRxQueued readyQueue 3 (pendingFor twoChains
          [⟨⟨guestMac 1, guestMac 2, .arp⟩, [7]⟩, ⟨⟨guestMac 1, guestMac 2, .arp⟩, [7, 7]⟩]) =
        some (.err (.lib ()), rx') ∧
      rx'.popped.map (fun u => u.chain.head) = [5, 6] ∧ rx'.used = [(5, 27)] ∧ rx'.pending = [] :=
  ⟨_, rfl, rfl, rfl, rfl⟩

end VirtQueue
end Oathgate
