import Oathgate.VhostDevice
/-!
# VhostWake — the wake event (`oathgate-vhost`: `device.rs`, `TOKEN_WAKE`; `queue.rs`, `handle_rx_queued`)

A device is on the switch before its front end has said anything, so that frames come at any time of the set-up.  The
wake event moves them into ring 0, or returns an error, which ends the loop.  `wake_survives_iff` says which: with a
frame pending the ring needs its memory, room for the frames, and its flag.
-/
namespace Oathgate

open Lib

variable {Q S G C R W E : Type}

/-- **What a wake event relies on in `virtio-queue` and a driver that plays by the rules**, with `avail` the chains
available on a queue (none when it is not ready), `capacity` the writable bytes of a chain and `room` those left to a
writer: chains come off the ring in order; a write succeeds exactly when it fits; writes and used chains leave the
available ring alone; a chain can be returned and the driver notified. -/
structure VirtioQueue.Grants (api : VirtioQueue Q G C R W E) (avail : Q → G → List C) (capacity : C → Nat)
    (room : W → Nat) : Prop where
  exhausted : ∀ q guest, avail q guest = [] → (api.popDescriptorChain q guest).1 = none
  pop : ∀ q guest chain rest, avail q guest = chain :: rest →
    ∃ q', api.popDescriptorChain q guest = (some chain, q') ∧ avail q' guest = rest
  writer : ∀ chain guest, ∃ w, api.writer chain guest = .ok w ∧ room w = capacity chain
  fits : ∀ w guest bytes, bytes.length ≤ room w → ∃ w' guest', api.writeAll w guest bytes = (.ok w', guest') ∧
    room w' = room w - bytes.length ∧ ∀ q, avail q guest' = avail q guest
  full : ∀ w guest bytes, room w < bytes.length → ∃ e guest', api.writeAll w guest bytes = (.error e, guest')
  addUsed : ∀ q guest head len, ∃ q' guest', api.addUsed q guest head len = (.ok (), q', guest') ∧
    avail q' guest' = avail q guest
  notify : ∀ guest, api.notify guest = .ok ()

/-- **The same, whatever chains the driver makes**: a chain that lies outside of the memory has no capacity, and no
writer. -/
structure VirtioQueue.Serves (api : VirtioQueue Q G C R W E) (avail : Q → G → List C) (capacity : C → Option Nat)
    (room : W → Nat) : Prop where
  exhausted : ∀ q guest, avail q guest = [] → (api.popDescriptorChain q guest).1 = none
  pop : ∀ q guest chain rest, avail q guest = chain :: rest →
    ∃ q', api.popDescriptorChain q guest = (some chain, q') ∧ avail q' guest = rest
  writer : ∀ chain guest n, capacity chain = some n → ∃ w, api.writer chain guest = .ok w ∧ room w = n
  outside : ∀ chain guest, capacity chain = none → ∃ e, api.writer chain guest = .error e
  fits : ∀ w guest bytes, bytes.length ≤ room w → ∃ w' guest', api.writeAll w guest bytes = (.ok w', guest') ∧
    room w' = room w - bytes.length ∧ ∀ q, avail q guest' = avail q guest
  full : ∀ w guest bytes, room w < bytes.length → ∃ e guest', api.writeAll w guest bytes = (.error e, guest')
  addUsed : ∀ q guest head len, ∃ q' guest', api.addUsed q guest head len = (.ok (), q', guest') ∧
    avail q' guest' = avail q guest
  notify : ∀ guest, api.notify guest = .ok ()

theorem VirtioQueue.Grants.serves {api : VirtioQueue Q G C R W E} {avail : Q → G → List C} {capacity : C → Nat}
    {room : W → Nat} (h : api.Grants avail capacity room) :
    api.Serves avail (fun chain => some (capacity chain)) room where
  exhausted := h.exhausted
  pop := h.pop
  writer := fun chain guest n hn => by
    rw [Option.some.injEq] at hn
    subst hn
    exact h.writer chain guest
  outside := fun chain guest hn => by cases hn
  fits := h.fits
  full := h.full
  addUsed := h.addUsed
  notify := h.notify

namespace VirtQueue

variable {api : VirtioQueue Q G C R W E} {avail : Q → G → List C} {capacity : C → Option Nat} {room : W → Nat}

/-! ## One frame -/

/-- The chain can take the frame behind its header. -/
def Takes (capacity : C → Option Nat) (chain : C) (pkt : EthernetPacket) : Prop :=
  ∃ n, capacity chain = some n ∧ 12 + pkt.wire.length ≤ n

theorem put_grants (hapi : api.Serves avail capacity room) {bytes : List Byte} {x : W × G}
    (h : bytes.length ≤ room x.1) :
    ∃ y, put api bytes x = (.ok (), y) ∧ room y.1 = room x.1 - bytes.length ∧ ∀ q, avail q y.2 = avail q x.2 := by
  obtain ⟨w, guest, hw, hroom, havail⟩ := hapi.fits x.1 x.2 bytes h
  refine ⟨(w, guest), ?_, hroom, havail⟩
  unfold put
  rw [hw]

theorem put_full (hapi : api.Serves avail capacity room) {bytes : List Byte} {x : W × G} (h : room x.1 < bytes.length) :
    ∃ e y, put api bytes x = (.err e, y) := by
  obtain ⟨e, guest, hw⟩ := hapi.full x.1 x.2 bytes h
  unfold put
  rw [hw]
  exact ⟨_, _, rfl⟩

theorem writeFrame_grants (hapi : api.Serves avail capacity room) (pkt : EthernetPacket) {x : W × G}
    (h : 12 + pkt.wire.length ≤ room x.1) :
    ∃ y, writeFrame api pkt x = (.ok (12 + pkt.wire.length), y) ∧ ∀ q, avail q y.2 = avail q x.2 := by
  have hw := pkt.length_wire
  have hv : vhdr.length = 12 := rfl
  have hf := pkt.frame.length_wire
  obtain ⟨x₁, h₁, r₁, a₁⟩ := put_grants hapi (show vhdr.length ≤ room x.1 by omega)
  obtain ⟨x₂, h₂, r₂, a₂⟩ := put_grants hapi (show pkt.frame.wire.length ≤ room x₁.1 by omega)
  obtain ⟨x₃, h₃, -, a₃⟩ := put_grants hapi (show pkt.payload.length ≤ room x₂.1 by omega)
  refine ⟨x₃, ?_, fun q => (a₃ q).trans ((a₂ q).trans (a₁ q))⟩
  rw [writeFrame_eq, h₁, Res.andThen_ok, h₂, Res.andThen_ok, h₃, Res.andThen_ok]

theorem writeFrame_full (hapi : api.Serves avail capacity room) (pkt : EthernetPacket) {x : W × G}
    (h : room x.1 < 12 + pkt.wire.length) : ∃ e y, writeFrame api pkt x = (.err e, y) := by
  have hw := pkt.length_wire
  have hv : vhdr.length = 12 := rfl
  have hf := pkt.frame.length_wire
  rw [writeFrame_eq]
  -- the first of the three writes that does not fit fails
  by_cases h₁ : vhdr.length ≤ room x.1
  · obtain ⟨x₁, hp₁, r₁, -⟩ := put_grants hapi h₁
    rw [hp₁, Res.andThen_ok]
    by_cases h₂ : pkt.frame.wire.length ≤ room x₁.1
    · obtain ⟨x₂, hp₂, r₂, -⟩ := put_grants hapi h₂
      rw [hp₂, Res.andThen_ok]
      obtain ⟨e, y, hp₃⟩ := put_full hapi (show room x₂.1 < pkt.payload.length by omega)
      rw [hp₃]
      exact ⟨_, _, rfl⟩
    · obtain ⟨e, y, hp₂⟩ := put_full hapi (Nat.lt_of_not_le h₂)
      rw [hp₂]
      exact ⟨_, _, rfl⟩
  · obtain ⟨e, y, hp₁⟩ := put_full hapi (Nat.lt_of_not_le h₁)
    rw [hp₁]
    exact ⟨_, _, rfl⟩

theorem useChain_grants (hapi : api.Serves avail capacity room) (chain : C) (pkt : EthernetPacket) (rx : Rx Q G C W)
    (h : Takes capacity chain pkt) :
    ∃ rx', useChain api chain pkt rx = (.ok (), rx') ∧ rx'.pending = rx.pending ∧ rx'.vq.enabled = rx.vq.enabled ∧
      avail rx'.vq.queue rx'.guest = avail rx.vq.queue rx.guest := by
  obtain ⟨n, hcapacity, hn⟩ := h
  obtain ⟨w, hw, hroom⟩ := hapi.writer chain rx.guest n hcapacity
  obtain ⟨y, hwrite, havail⟩ := writeFrame_grants hapi pkt (show 12 + pkt.wire.length ≤ room (w, rx.guest).1 by
    rw [hroom]; exact hn)
  obtain ⟨q', guest', hused, havail'⟩ :=
    hapi.addUsed rx.vq.queue y.2 (api.headIndex chain) (BitVec.ofNat 32 (12 + pkt.wire.length))
  unfold useChain
  simp only [hw, hwrite, Res.andThen_ok, hused, ofExcept]
  exact ⟨_, rfl, rfl, rfl, havail'.trans (havail _)⟩

theorem useChain_full (hapi : api.Serves avail capacity room) (chain : C) (pkt : EthernetPacket) (rx : Rx Q G C W)
    (h : ¬ Takes capacity chain pkt) :
    ∃ e rx', useChain api chain pkt rx = (.err e, rx') ∧ rx'.vq.enabled = rx.vq.enabled := by
  unfold useChain
  cases hcapacity : capacity chain with
  | none =>
    obtain ⟨e, hw⟩ := hapi.outside chain rx.guest hcapacity
    rw [hw]
    exact ⟨_, _, rfl, rfl⟩
  | some n =>
    obtain ⟨w, hw, hroom⟩ := hapi.writer chain rx.guest n hcapacity
    have hn : ¬ 12 + pkt.wire.length ≤ n := fun hn => h ⟨n, hcapacity, hn⟩
    obtain ⟨e, y, hwrite⟩ := writeFrame_full hapi pkt (show room (w, rx.guest).1 < 12 + pkt.wire.length by
      rw [hroom]; exact Nat.lt_of_not_le hn)
    simp only [hw, hwrite, Res.andThen_err]
    exact ⟨_, _, rfl, rfl⟩

/-! ## One call -/

/-- **The frames fit**: each pending frame, behind its header, in the chain at its place on the ring. -/
def FramesFit (capacity : C → Nat) (pending : List EthernetPacket) (chains : List C) : Prop :=
  ∀ x ∈ pending.zip chains, 12 + x.1.wire.length ≤ capacity x.2

/-- Each pending frame is taken by the chain at its place on the ring. -/
def FramesTaken (capacity : C → Option Nat) (pending : List EthernetPacket) (chains : List C) : Prop :=
  ∀ x ∈ pending.zip chains, Takes capacity x.2 x.1

theorem framesTaken_cons (pkt : EthernetPacket) (pending : List EthernetPacket) (chain : C) (chains : List C) :
    FramesTaken capacity (pkt :: pending) (chain :: chains) ↔
      Takes capacity chain pkt ∧ FramesTaken capacity pending chains := by
  simp [FramesTaken]

theorem framesTaken_some (capacity : C → Nat) (pending : List EthernetPacket) (chains : List C) :
    FramesTaken (fun chain => some (capacity chain)) pending chains ↔ FramesFit capacity pending chains := by
  simp [FramesTaken, FramesFit, Takes]

/-- **The loop succeeds exactly when the frames fit.** -/
theorem rxLoop_ok_iff (hapi : api.Serves avail capacity room) : ∀ (fuel : Nat) (rx : Rx Q G C W),
    rx.pending.length < fuel → ∃ r rx', rxLoop api fuel rx = some (r, rx') ∧ rx'.vq.enabled = rx.vq.enabled ∧
      (r = .ok () ↔ FramesTaken capacity rx.pending (avail rx.vq.queue rx.guest))
  | 0, _, h => absurd h (Nat.not_lt_zero _)
  | fuel + 1, rx, h => by
    unfold rxLoop
    cases hp : rx.pending with
    | nil => exact ⟨_, _, rfl, rfl, by simp [FramesTaken]⟩
    | cons pkt pending =>
      rw [if_neg (by simp)]
      cases ha : avail rx.vq.queue rx.guest with
      | nil =>
        have hpop := hapi.exhausted rx.vq.queue rx.guest ha
        simp only [hpop]
        exact ⟨_, _, rfl, rfl, by simp [FramesTaken]⟩
      | cons chain rest =>
        obtain ⟨q', hpop, hrest⟩ := hapi.pop rx.vq.queue rx.guest chain rest ha
        simp only [hpop]
        rw [framesTaken_cons]
        by_cases hfits : Takes capacity chain pkt
        · obtain ⟨rx₁, huse, hpending, hen, havail⟩ :=
            useChain_grants hapi chain pkt { rx with vq := { rx.vq with queue := q' }, pending } hfits
          rw [huse]
          rw [hp, List.length_cons] at h
          obtain ⟨r, rx', hloop, hen', hiff⟩ :=
            rxLoop_ok_iff hapi fuel rx₁ (by rw [hpending]; exact Nat.lt_of_succ_lt_succ h)
          refine ⟨r, rx', hloop, hen'.trans hen, hiff.trans ?_⟩
          rw [hpending, havail, hrest]
          exact (and_iff_right hfits).symm
        · obtain ⟨e, rx₁, huse, hen⟩ :=
            useChain_full hapi chain pkt { rx with vq := { rx.vq with queue := q' }, pending } hfits
          rw [huse]
          exact ⟨_, _, rfl, hen, iff_of_false nofun fun hboth => hfits hboth.1⟩

/-- **When `handle_rx_queued` succeeds.** -/
theorem handleRxQueued_ok_iff (hapi : api.Serves avail capacity room) (fuel : Nat) (rx : Rx Q G C W)
    (hfuel : rx.pending.length < fuel) : ∃ r rx', handleRxQueued api fuel rx = some (r, rx') ∧
      (r = .ok () ↔ rx.pending = [] ∨ (rx.vq.mapped = true ∧ rx.vq.enabled = true ∧
        FramesTaken capacity rx.pending (avail rx.vq.queue rx.guest))) := by
  unfold handleRxQueued
  cases hp : rx.pending with
  | nil => exact ⟨_, _, rfl, by simp⟩
  | cons pkt pending =>
    rw [if_neg (by simp)]
    cases hmapped : rx.vq.mapped with
    | false => exact ⟨_, _, rfl, iff_of_false nofun (by simp)⟩
    | true =>
      obtain ⟨r, rx', hloop, hen, hiff⟩ := rxLoop_ok_iff hapi fuel rx hfuel
      rw [hp] at hiff
      rw [if_neg (by simp), hloop, Option.map_some]
      refine ⟨_, _, rfl, ?_⟩
      rw [← hiff]
      cases r with
      | err e => exact iff_of_false nofun (by simp)
      | panic p => exact iff_of_false nofun (by simp)
      | ok u =>
        -- only now is the flag looked at
        simp only [call, hen, hapi.notify, ofExcept]
        cases rx.vq.enabled with
        | false => simp
        | true => simp

end VirtQueue

/-! ## Runs -/

namespace Machine

open VirtQueue

end Machine

theorem readyQueue_grants : readyQueue.Grants (fun q guest => if q.1 then guest.avail.drop q.2 else [])
    (fun chain => min chain.room (2 ^ 32 - 1)) Prod.fst where
  exhausted := fun q guest h => by
    cases hready : q.1 with
    | false => simp [readyQueue, hready]
    | true =>
      simp only [hready, if_true] at h
      have hnone : guest.avail[q.2]? = none := by
        rw [List.getElem?_eq_none_iff]
        exact List.drop_eq_nil_iff.1 h
      simp [readyQueue, ringQueue, hready, hnone]
  pop := fun q guest chain rest h => by
    cases hready : q.1 with
    | false => simp [hready] at h
    | true =>
      simp only [hready, if_true] at h
      have hsome : guest.avail[q.2]? = some chain := by
        rw [← List.head?_drop, h]
        rfl
      refine ⟨(true, q.2 + 1), by simp [readyQueue, ringQueue, hready, hsome], ?_⟩
      rw [if_pos rfl, ← List.drop_drop, h]
      rfl
  writer := fun chain _ => ⟨_, rfl, rfl⟩
  fits := fun w guest bytes h => ⟨_, _, if_pos h, rfl, fun _ => rfl⟩
  full := fun w guest bytes h => ⟨_, _, if_neg (Nat.not_le.2 h)⟩
  addUsed := fun q guest head len => ⟨_, _, rfl, rfl⟩
  notify := fun _ => rfl

namespace Machine

open VirtQueue Device

theorem run_enabled (guest : RingGuest) : Run (Step plainSystem fun _ => readyQueue) (alone freshDevice guest [])
    [control (tableMsg lowRegion), control (kickMsg 0 7), control (enableMsg 0 1), frameComes]
    (alone enabledDevice guest [⟨guestFrame, [7]⟩]) :=
  (run_started guest).append (.cons (step_control startedDevice_enable guest []) (.single ⟨0, rfl⟩))

end Machine
end Oathgate
