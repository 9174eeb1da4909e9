import Oathgate.VhostQueue
/-!
# VhostRx — the receive path of a device (`oathgate-vhost`: `device.rs`)

Other threads enqueue frames, the device's thread moves them into chains on wake events and kicks; the lock of the
pending queue is held for a whole call, so the two interleave call by call.  A call that returns has filled a chain for
each frame it took (`Delivers`), and over a run frames leave in the order they came (`rx_in_order`).
-/
namespace Oathgate

open Lib

variable {Q G C R W E : Type}

def EthernetPacket.wire (pkt : EthernetPacket) : List Byte := pkt.frame.wire ++ pkt.payload

theorem EthernetPacket.length_wire (pkt : EthernetPacket) : pkt.wire.length = 14 + pkt.payload.length := by
  rw [wire, List.length_append, pkt.frame.length_wire]

namespace VirtQueue

variable (api : VirtioQueue Q G C R W E)

/-! ## One chain -/

/-- The bytes of a new virtio-net header: one buffer, no offloads. -/
def vhdr : List Byte := [0, 0, 0, 0, 0, 0, 0, 0, 0, 0, 1, 0]

/-- **A frame is written as its header, its fourteen bytes and its payload.** -/
theorem writeFrame_eq (pkt : EthernetPacket) (x : W × G) :
    writeFrame api pkt x =
      Res.andThen (put api vhdr x) fun _ x => Res.andThen (put api pkt.frame.wire x) fun _ x =>
        Res.andThen (put api pkt.payload x) fun _ x => (.ok (12 + pkt.wire.length), x) := by
  have hvhdr : (VirtioNetHeader.new.asBytes : Res (VhostError E) (List Byte)) = .ok vhdr := rfl
  unfold writeFrame
  rw [hvhdr, pkt.frame.toBytes_eq]
  simp only [Res.bind_ok, Res.pure_eq, Res.andThen_ok, pkt.frame.length_wire, pkt.length_wire, Nat.add_assoc]
  rfl

theorem writeFrame_length {api : VirtioQueue Q G C R W E} {pkt : EthernetPacket} {x y : W × G} {n : Nat}
    (h : writeFrame api pkt x = (.ok n, y)) : n = 12 + pkt.wire.length := by
  rw [writeFrame_eq] at h
  simp only [Res.andThen_eq_ok] at h
  obtain ⟨_, _, _, _, _, _, _, _, _, h⟩ := h
  cases h
  rfl

/-- The call of `add_used` that returns a chain: its head, and the length of the header and the frame. -/
def report (u : ChainUse C W) : BitVec 16 × BitVec 32 :=
  (api.headIndex u.chain, BitVec.ofNat 32 (12 + (u.frame.map fun pkt => pkt.wire.length).getD 0))

/-- **The chain was filled**: it was used for one frame, and every write of the frame to its writer succeeded. -/
def Filled (u : ChainUse C W) : Prop :=
  ∃ pkt w₀ w guest guest', u.frame = some pkt ∧ u.writer = some w ∧ api.writer u.chain guest = .ok w₀ ∧
    writeFrame api pkt (w₀, guest) = (.ok (12 + pkt.wire.length), w, guest')

/-- **What a call that took frames off the pending queue did**: it filled a chain for each of them, in order, and
returned each chain once, in the order it popped them. -/
structure Delivers (rx : Rx Q G C W) (us : List (ChainUse C W)) (rx' : Rx Q G C W) : Prop where
  popped : rx'.popped = rx.popped ++ us
  frames : us.filterMap ChainUse.frame ++ rx'.pending = rx.pending
  used : rx'.used = rx.used ++ us.map (report api)
  filled : ∀ u ∈ us, Filled api u

variable {api}

theorem Delivers.refl (rx : Rx Q G C W) : Delivers api rx [] rx :=
  ⟨(List.append_nil _).symm, rfl, (List.append_nil _).symm, by simp⟩

theorem Delivers.trans {rx rx' rx'' : Rx Q G C W} {us vs : List (ChainUse C W)} (h : Delivers api rx us rx')
    (h' : Delivers api rx' vs rx'') : Delivers api rx (us ++ vs) rx'' where
  popped := by rw [h'.popped, h.popped, List.append_assoc]
  frames := by rw [List.filterMap_append, List.append_assoc, h'.frames, h.frames]
  used := by rw [h'.used, h.used, List.map_append, List.append_assoc]
  filled := fun u hu => (List.mem_append.1 hu).elim (h.filled u) (h'.filled u)

/-- **The body of the loop, when it succeeds, fills the chain.** -/
theorem useChain_ok {chain : C} {pkt : EthernetPacket} {rx rx' : Rx Q G C W} {u : Unit}
    (h : useChain api chain pkt rx = (.ok u, rx')) :
    (∃ w, Delivers api { rx with pending := pkt :: rx.pending } [⟨chain, some pkt, some w⟩] rx') ∧
      rx'.warnings = rx.warnings := by
  unfold useChain at h
  cases hw : api.writer chain rx.guest with
  | error e => rw [hw] at h; cases h
  | ok w₀ =>
    rw [hw] at h
    simp only [Res.andThen_eq_ok, Prod.mk.injEq] at h
    obtain ⟨n, -, ⟨hres, rfl⟩, -, rfl⟩ := h
    have hn := writeFrame_length (Prod.ext hres rfl)
    subst hn
    refine ⟨⟨(writeFrame api pkt (w₀, rx.guest)).2.1, rfl, rfl, rfl, ?_⟩, rfl⟩
    intro u hu
    rw [List.mem_singleton] at hu
    subst hu
    exact ⟨pkt, w₀, _, rx.guest, _, rfl, rfl, hw, Prod.ext hres rfl⟩

/-! ## One call -/

/-- **What a round of the loop comes to**: nothing is pending; no chain is left; the frame could not be moved to the
chain; or it was, and the loop goes on.  A chain without a frame for it is not among them: the emptiness check was made
under the same lock. -/
inductive Round (api : VirtioQueue Q G C R W E) (fuel : Nat) (rx : Rx Q G C W) :
    Res (VhostError E) Unit → Rx Q G C W → Prop where
  | empty (hp : rx.pending = []) : Round api fuel rx (.ok ()) rx
  | exhausted {pkt : EthernetPacket} {pending : List EthernetPacket} {queue : Q} (hp : rx.pending = pkt :: pending)
      (hpop : api.popDescriptorChain rx.vq.queue rx.guest = (none, queue)) :
      Round api fuel rx (.ok ()) { rx with vq := { rx.vq with queue }, warnings := rx.warnings ++ [.exhausted] }
  | failed {pkt : EthernetPacket} {pending : List EthernetPacket} {chain : C} {queue : Q}
      {r : Res (VhostError E) Unit} {rx' : Rx Q G C W} (hp : rx.pending = pkt :: pending)
      (hpop : api.popDescriptorChain rx.vq.queue rx.guest = (some chain, queue))
      (huse : useChain api chain pkt { rx with vq := { rx.vq with queue }, pending } = (r, rx'))
      (hno : ∀ u, r ≠ .ok u) : Round api fuel rx r rx'
  | moved {pkt : EthernetPacket} {pending : List EthernetPacket} {chain : C} {queue : Q} {u : Unit}
      {rx₁ : Rx Q G C W} {r : Res (VhostError E) Unit} {rx' : Rx Q G C W} (hp : rx.pending = pkt :: pending)
      (hpop : api.popDescriptorChain rx.vq.queue rx.guest = (some chain, queue))
      (huse : useChain api chain pkt { rx with vq := { rx.vq with queue }, pending } = (.ok u, rx₁))
      (hrest : rxLoop api fuel rx₁ = some (r, rx')) : Round api fuel rx r rx'

theorem rxLoop_round {fuel : Nat} {rx rx' : Rx Q G C W} {r : Res (VhostError E) Unit}
    (h : rxLoop api (fuel + 1) rx = some (r, rx')) : Round api fuel rx r rx' := by
  unfold rxLoop at h
  cases hp : rx.pending with
  | nil =>
    rw [if_pos (by rw [hp]; rfl)] at h
    cases h
    exact .empty hp
  | cons pkt pending =>
    rw [if_neg (by rw [hp]; simp)] at h
    rcases hpop : api.popDescriptorChain rx.vq.queue rx.guest with ⟨_ | chain, queue⟩
    · simp only [hpop] at h
      cases h
      exact .exhausted hp hpop
    · simp only [hpop, hp] at h
      cases huse : useChain api chain pkt { rx with vq := { rx.vq with queue }, pending } with
      | mk r₁ rx₁ =>
        rw [huse] at h
        cases r₁ with
        | err e => cases h; exact .failed hp hpop huse nofun
        | panic p => cases h; exact .failed hp hpop huse nofun
        | ok u => exact .moved hp hpop huse h

/-- **However the loop ends**: it has delivered some frames, and then stopped between rounds, warning at most that
the chains ran out, or failed in the next round. -/
theorem rxLoop_rounds : ∀ (fuel : Nat) (rx : Rx Q G C W) (r : Res (VhostError E) Unit) (rx' : Rx Q G C W),
    rxLoop api fuel rx = some (r, rx') →
      ∃ us rx₁, Delivers api rx us rx₁ ∧ rx₁.warnings = rx.warnings ∧
        (((∃ u, r = .ok u) ∧ rx'.popped = rx₁.popped ∧ rx'.used = rx₁.used ∧ rx'.pending = rx₁.pending ∧
            (rx'.warnings = rx.warnings ∨ rx'.warnings = rx.warnings ++ [.exhausted])) ∨
          ((∀ u, r ≠ .ok u) ∧ ∃ chain pkt pending queue, rx₁.pending = pkt :: pending ∧
            useChain api chain pkt { rx₁ with vq := { rx₁.vq with queue }, pending } = (r, rx')))
  | 0, _, _, _, h => by cases h
  | fuel + 1, rx, r, rx', h => by
    cases rxLoop_round h with
    | empty hp => exact ⟨[], rx, .refl rx, rfl, Or.inl ⟨⟨(), rfl⟩, rfl, rfl, rfl, Or.inl rfl⟩⟩
    | exhausted hp hpop => exact ⟨[], rx, .refl rx, rfl, Or.inl ⟨⟨(), rfl⟩, rfl, rfl, rfl, Or.inr rfl⟩⟩
    | failed hp hpop huse hno => exact ⟨[], rx, .refl rx, rfl, Or.inr ⟨hno, _, _, _, _, hp, huse⟩⟩
    | @moved pkt pending chain queue u rx₁ r rx' hp hpop huse hrest =>
      obtain ⟨⟨w, hd⟩, hwarn⟩ := useChain_ok huse
      have hd' : Delivers api rx [⟨chain, some pkt, some w⟩] rx₁ :=
        ⟨hd.popped, hd.frames.trans hp.symm, hd.used, hd.filled⟩
      obtain ⟨us, rx₂, hds, hwarn₂, hend⟩ := rxLoop_rounds fuel rx₁ r rx' hrest
      exact ⟨_, rx₂, hd'.trans hds, hwarn₂.trans hwarn, by rwa [hwarn] at hend⟩

/-- **The loop, when it succeeds, delivers**; it never pops a chain without a frame for it. -/
theorem rxLoop_ok {fuel : Nat} {rx rx' : Rx Q G C W} {u : Unit} (h : rxLoop api fuel rx = some (.ok u, rx')) :
    (∃ us, Delivers api rx us rx') ∧ (RxWarning.nonEmptyQueue ∈ rx'.warnings → .nonEmptyQueue ∈ rx.warnings) := by
  obtain ⟨us, rx₁, hd, -, ⟨-, hpopped, hused, hpending, hwarn⟩ | ⟨hno, -⟩⟩ := rxLoop_rounds fuel rx _ rx' h
  · refine ⟨⟨us, hpopped.trans hd.popped, by rw [hpending]; exact hd.frames, hused.trans hd.used, hd.filled⟩, ?_⟩
    rcases hwarn with hw | hw <;> rw [hw] <;> simp
  · exact absurd rfl (hno u)

/-- A call that succeeds found nothing pending, or its loop succeeded. -/
theorem handleRxQueued_ok_cases {fuel : Nat} {rx rx' : Rx Q G C W} {u : Unit}
    (h : handleRxQueued api fuel rx = some (.ok u, rx')) :
    (rx.pending = [] ∧ rx' = rx) ∨ ∃ v, rxLoop api fuel rx = some (.ok v, rx') := by
  unfold handleRxQueued at h
  split at h
  · rename_i hempty
    cases h
    exact Or.inl ⟨List.isEmpty_iff.1 hempty, rfl⟩
  · split at h
    · cases h
    · rw [Option.map_eq_some_iff] at h
      obtain ⟨x, hloop, hx⟩ := h
      obtain ⟨v, rx₁, rfl, hcall⟩ := Res.andThen_eq_ok.1 hx
      rw [Prod.mk.injEq] at hcall
      obtain ⟨-, rfl⟩ := hcall
      exact Or.inr ⟨v, hloop⟩

/-- **A call that returns delivers.** -/
theorem handleRxQueued_ok {fuel : Nat} {rx rx' : Rx Q G C W} {u : Unit}
    (h : handleRxQueued api fuel rx = some (.ok u, rx')) :
    (∃ us, Delivers api rx us rx') ∧ (RxWarning.nonEmptyQueue ∈ rx'.warnings → .nonEmptyQueue ∈ rx.warnings) := by
  rcases handleRxQueued_ok_cases h with ⟨-, rfl⟩ | ⟨v, hloop⟩
  · exact ⟨⟨[], .refl rx'⟩, id⟩
  · exact rxLoop_ok hloop

theorem kickRx_ok {fuel : Nat} {rx rx' : Rx Q G C W} {pkt : List Byte} {u : Unit}
    (h : kickRx api fuel rx pkt = some (.ok u, rx')) :
    (∃ us, Delivers api rx us rx') ∧ (RxWarning.nonEmptyQueue ∈ rx'.warnings → .nonEmptyQueue ∈ rx.warnings) := by
  unfold kickRx at h
  split at h
  · exact handleRxQueued_ok h
  · cases h
  · cases h

end VirtQueue

/-! ## Runs of a device -/

/-- The receive side of `VirtioDevice`: its virtqueues, the guest's memory and the queue the switch enqueues to, with
the record of all calls. -/
structure VirtioDevice (Q G C W : Type) where
  queues : List (VirtQueue Q)
  guest : G
  pending : List EthernetPacket
  popped : List (VirtQueue.ChainUse C W)
  used : List (BitVec 16 × BitVec 32)
  warnings : List VirtQueue.RxWarning

namespace VirtioDevice

open VirtQueue

def enqueue (d : VirtioDevice Q G C W) (frame : EthernetFrame) (pkt : List Byte) : VirtioDevice Q G C W :=
  { d with pending := d.pending ++ [⟨frame, pkt⟩] }

/-- A call on the virtqueue `get_virtqueue_mut(idx)` finds. -/
def onQueue (d : VirtioDevice Q G C W) (idx : Nat)
    (f : Rx Q G C W → Option (Res (VhostError E) Unit × Rx Q G C W)) :
    Option (Res (VhostError E) Unit × VirtioDevice Q G C W) :=
  match d.queues[idx]? with
  | none => some (.err (.queueNotFound idx), d)
  | some vq =>
    (f ⟨vq, d.guest, d.pending, d.popped, d.used, d.warnings⟩).map fun (r, rx) =>
      (r, ⟨d.queues.set idx rx.vq, rx.guest, rx.pending, rx.popped, rx.used, rx.warnings⟩)

/-- Another thread enqueues a frame, the device handles a wake event or a receive kick, or the driver and the control
stream change memory and virtqueues in any way. -/
inductive Event (Q G : Type) where
  | enqueue (frame : EthernetFrame) (pkt : List Byte)
  | wake
  | kickRx (idx : Nat) (pkt : List Byte)
  | driver (queues : List (VirtQueue Q)) (guest : G)

/-- An event whose call, if it is one, returns without an error. -/
def Step (api : VirtioQueue Q G C R W E) (d : VirtioDevice Q G C W) (e : Event Q G) (d' : VirtioDevice Q G C W) :
    Prop :=
  match e with
  | .enqueue frame pkt => d' = d.enqueue frame pkt
  | .wake => ∃ fuel, d.onQueue 0 (handleRxQueued api fuel) = some (.ok (), d')
  | .kickRx idx pkt => ∃ fuel, d.onQueue idx (fun rx => kickRx api fuel rx pkt) = some (.ok (), d')
  | .driver queues guest => d' = { d with queues, guest }

def enqueued (es : List (Event Q G)) : List EthernetPacket :=
  es.filterMap fun e =>
    match e with
    | .enqueue frame pkt => some ⟨frame, pkt⟩
    | _ => none

def Fresh (d : VirtioDevice Q G C W) : Prop :=
  d.pending = [] ∧ d.popped = [] ∧ d.used = [] ∧ d.warnings = []

/-- **The receive path is in order**: the frames the chains were used for, then those still pending, are the frames
enqueued; every chain was filled with its frame and returned once, in the order popped; no chain was popped without a
frame. -/
def InOrder (api : VirtioQueue Q G C R W E) (es : List (Event Q G)) (d : VirtioDevice Q G C W) : Prop :=
  d.popped.filterMap ChainUse.frame ++ d.pending = enqueued es ∧ (∀ u ∈ d.popped, Filled api u) ∧
    d.used = d.popped.map (report api) ∧ RxWarning.nonEmptyQueue ∉ d.warnings

variable {api : VirtioQueue Q G C R W E}

theorem inOrder_onQueue {d d' : VirtioDevice Q G C W} {es : List (Event Q G)} {idx : Nat} {u : Unit}
    {f : Rx Q G C W → Option (Res (VhostError E) Unit × Rx Q G C W)}
    (hf : ∀ rx rx', f rx = some (.ok u, rx') → (∃ us, Delivers api rx us rx') ∧
      (RxWarning.nonEmptyQueue ∈ rx'.warnings → .nonEmptyQueue ∈ rx.warnings))
    (hd : InOrder api es d) (h : d.onQueue idx f = some (.ok u, d')) : InOrder api es d' := by
  obtain ⟨hframes, hfilled, hused, hwarn⟩ := hd
  unfold onQueue at h
  split at h
  · cases h
  · rw [Option.map_eq_some_iff] at h
    obtain ⟨⟨r, rx⟩, hr, hd'⟩ := h
    rw [Prod.mk.injEq] at hd'
    obtain ⟨rfl, rfl⟩ := hd'
    obtain ⟨⟨us, hdel⟩, hw⟩ := hf _ _ hr
    refine ⟨?_, ?_, ?_, fun h => hwarn (hw h)⟩
    · rw [← hframes, hdel.popped, List.filterMap_append, List.append_assoc, hdel.frames]
    · intro u hu
      rw [hdel.popped] at hu
      exact (List.mem_append.1 hu).elim (hfilled u) (hdel.filled u)
    · rw [hdel.used, hdel.popped, hused, List.map_append]

theorem inOrder_step {d d' : VirtioDevice Q G C W} {es : List (Event Q G)} {e : Event Q G} (hd : InOrder api es d)
    (h : Step api d e d') : InOrder api (es ++ [e]) d' := by
  cases e with
  | enqueue frame pkt =>
    cases h
    obtain ⟨hframes, hrest⟩ := hd
    refine ⟨?_, hrest⟩
    simp only [enqueue, enqueued, List.filterMap_append, ← List.append_assoc]
    rw [hframes]
    rfl
  | wake =>
    obtain ⟨fuel, h⟩ := h
    have hafter := inOrder_onQueue (fun _ _ => handleRxQueued_ok) hd h
    simpa [InOrder, enqueued] using hafter
  | kickRx idx pkt =>
    obtain ⟨fuel, h⟩ := h
    have hafter := inOrder_onQueue (fun _ _ => kickRx_ok) hd h
    simpa [InOrder, enqueued] using hafter
  | driver queues guest =>
    cases h
    simpa [InOrder, enqueued] using hd

/-- **Frames are delivered in order, without loss or duplication.**  In every state of a run in which no call returns
an error the receive path is in order. -/
theorem rx_in_order (api : VirtioQueue Q G C R W E) (d₀ d : VirtioDevice Q G C W) (es : List (Event Q G))
    (h₀ : d₀.Fresh) (hrun : Run (Step api) d₀ es d) : InOrder api es d := by
  refine Run.invariant (I := fun es d => InOrder api es d) ?_ (fun _ _ _ _ _ hd h => inOrder_step hd h) hrun
  obtain ⟨hpending, hpopped, hused, hwarn⟩ := h₀
  refine ⟨?_, ?_, ?_, ?_⟩
  · rw [hpopped, hpending]
    rfl
  · simp [hpopped]
  · rw [hused, hpopped]
    rfl
  · simp [hwarn]

theorem rx_in_order_of_wake :
    ∃ d, Run (Step ringQueue) ⟨[⟨true, 0, true, true⟩], ⟨[⟨5, [], 100⟩], []⟩, [], [], [], []⟩
        [.enqueue ⟨guestMac 1, guestMac 2, .arp⟩ [7], .wake] d ∧
      d.popped.filterMap ChainUse.frame ++ d.pending = [⟨⟨guestMac 1, guestMac 2, .arp⟩, [7]⟩] ∧ d.pending = [] ∧
      d.used = d.popped.map (report ringQueue) ∧ d.guest.used = [(5, 27)] := by
  have hrun : Run (Step ringQueue) ⟨[⟨true, 0, true, true⟩], ⟨[⟨5, [], 100⟩], []⟩, [], [], [], []⟩
      [.enqueue ⟨guestMac 1, guestMac 2, .arp⟩ [7], .wake] _ := .snoc (.single rfl) ⟨2, rfl⟩
  obtain ⟨hframes, -, hused, -⟩ := rx_in_order ringQueue _ _ _ ⟨rfl, rfl, rfl, rfl⟩ hrun
  exact ⟨_, hrun, hframes, rfl, hused, rfl⟩

end VirtioDevice
end Oathgate
