import Oathgate.VhostTable
import Oathgate.VhostTx
/-!
# VhostDevice — the event loop of a device (`oathgate-vhost`: `device.rs`, `run`)

A `Machine` is a device with what it works on: the guest's memory, the queue other threads enqueue frames to, and the
switch.  `exec` is one event and what it moved on a ring (`Served`).  An error of a handler ends the loop, so that a run
is a sequence of events whose handlers return without one; `configured_run` says what such a run has made of the rings.
-/
namespace Oathgate

open Lib

variable {Q S G C R W E : Type}

/-! ## Events -/

/-- What an event moved: the chains it took off a ring, the frames of them it handed to the switch, and the frames it
wrote into them. -/
structure Served (C : Type) where
  ring : Nat
  taken : List C
  handed : List (List Byte)
  written : List EthernetPacket

def Served.nothing : Served C := ⟨0, [], [], []⟩

inductive DeviceError (E : Type) where
  | control (e : ControlError E)
  | service (e : VhostError E)

/-- A device with the memory of its guest, its pending queue and the switch.  A frame the switch sends back to the
device comes in as any other, by an event of its own. -/
structure Machine (Q S G : Type) where
  dev : Device Q S
  guest : G
  pending : List EthernetPacket
  switch : VirtioSwitch

/-- Another thread enqueues a frame, uses the switch, or the driver writes to its memory; or the device handles a
message, the wake event, or a kick descriptor from which it reads `pkt`. -/
inductive Event (G : Type) where
  | enqueue (frame : EthernetFrame) (pkt : List Byte)
  | others (switch : VirtioSwitch)
  | driver (guest : G)
  | message (hdr : VHostHeader)
  | wake
  | kick (token : Nat) (pkt : List Byte)

namespace VirtQueue

/-- The chains `kick_tx` collects, and the queue it leaves; `none` when it does not come to that. -/
def collected (api : VirtioQueue Q G C R W E) (vq : VirtQueue Q) (tx : Tx Q G) (pkt : List Byte) :
    Option (List C × Q) :=
  match (checkKick pkt : Res (VhostError E) Unit) with
  | .ok _ => if vq.mapped then (api.iter tx.queue tx.guest).toOption else none
  | _ => none

theorem collected_eq_some {api : VirtioQueue Q G C R W E} {vq : VirtQueue Q} {tx : Tx Q G} {pkt : List Byte}
    {x : List C × Q} : collected api vq tx pkt = some x ↔
      (checkKick pkt : Res (VhostError E) Unit) = .ok () ∧ vq.mapped = true ∧ api.iter tx.queue tx.guest = .ok x := by
  unfold collected
  cases (checkKick pkt : Res (VhostError E) Unit) with
  | err e => simp
  | panic p => simp
  | ok u =>
    cases vq.mapped with
    | false => simp
    | true => cases api.iter tx.queue tx.guest <;> simp [Except.toOption]

theorem kickTx_collected {api : VirtioQueue Q G C R W E} {vq : VirtQueue Q} {tx : Tx Q G} {pkt : List Byte}
    {chains : List C} {queue : Q} (h : collected api vq tx pkt = some (chains, queue)) (fuel switchPort : Nat) :
    kickTx api fuel vq tx pkt switchPort =
      (sendChains api fuel switchPort chains { tx with queue }).map fun x =>
        Res.andThen x fun _ tx => (vq.call api tx.guest, tx) := by
  obtain ⟨hkick, hmapped, hiter⟩ := collected_eq_some.1 h
  unfold kickTx
  simp only [hkick, hmapped, Bool.not_true, Bool.false_eq_true, if_false, hiter]

theorem kickTx_uncollected {api : VirtioQueue Q G C R W E} {vq : VirtQueue Q} {tx : Tx Q G} {pkt : List Byte}
    (h : collected api vq tx pkt = none) (fuel switchPort : Nat) :
    ∃ r, kickTx api fuel vq tx pkt switchPort = some (r, tx) := by
  unfold collected at h
  unfold kickTx
  cases hkick : (checkKick pkt : Res (VhostError E) Unit) with
  | err e => exact ⟨_, rfl⟩
  | panic p => exact ⟨_, rfl⟩
  | ok u =>
    cases hmapped : vq.mapped with
    | false => exact ⟨_, rfl⟩
    | true =>
      cases hiter : api.iter tx.queue tx.guest with
      | error e => exact ⟨_, rfl⟩
      | ok x => rw [hkick, hmapped, hiter] at h; cases h

/-- The frame a chain was used for, if a writer of the chain was made. -/
def ChainUse.written (u : ChainUse C W) : Option EthernetPacket := u.writer.bind fun _ => u.frame

end VirtQueue

namespace Machine

open VirtQueue

/-- A service call and what it did. -/
abbrev Result (Q S G C E : Type) := Res (DeviceError E) Unit × Machine Q S G × Served C

/-- `VirtioDevice::new` on a switch: it is connected before it handles anything. -/
def new (sys : VhostSystem Q S E) (deviceQueues : BitVec 8) (switch : VirtioSwitch) (s : S) (guest : G) :
    Res (ControlError E) (Machine Q S G) := do
  let (routerPort, switch) := switch.connect []
  return { dev := ← Device.new sys deviceQueues routerPort s, guest, pending := [], switch }

variable (sys : VhostSystem Q S E) (lib : Option (List GuestRegion) → VirtioQueue Q G C R W E)

/-- A call that moves pending frames into the ring `get_virtqueue_mut(idx)` finds; the library works on the memory the
ring holds. -/
def serveRx (idx : Nat) (call : VirtioQueue Q G C R W E → Rx Q G C W → Option (Res (VhostError E) Unit × Rx Q G C W))
    (m : Machine Q S G) : Option (Result Q S G C E) :=
  match m.dev.queues[idx]? with
  | none => some (.err (.service (.queueNotFound idx)), m, .nothing)
  | some vq =>
    (call (lib vq.mem) ⟨vq.virtQueue, m.guest, m.pending, [], [], []⟩).map fun (r, rx) =>
      (r.mapErr .service,
        { m with
          dev := { m.dev with queues := m.dev.queues.set idx { vq with queue := rx.vq.queue } }
          guest := rx.guest
          pending := rx.pending },
        ⟨idx, rx.popped.map ChainUse.chain, [], rx.popped.filterMap ChainUse.written⟩)

/-- `kick_tx` on the ring `get_virtqueue_mut(idx)` finds. -/
def serveTx (fuel idx : Nat) (pkt : List Byte) (m : Machine Q S G) : Option (Result Q S G C E) :=
  match m.dev.queues[idx]? with
  | none => some (.err (.service (.queueNotFound idx)), m, .nothing)
  | some vq =>
    let tx : Tx Q G := ⟨m.switch, vq.queue, m.guest⟩
    (kickTx (lib vq.mem) fuel vq.virtQueue tx pkt m.dev.routerPort).map fun (r, tx') =>
      (r.mapErr .service,
        { m with
          dev := { m.dev with queues := m.dev.queues.set idx { vq with queue := tx'.queue } }
          guest := tx'.guest
          switch := tx'.switch },
        match collected (lib vq.mem) vq.virtQueue tx pkt with
        | some (chains, queue) =>
          ⟨idx, chains, handed (lib vq.mem) fuel m.dev.routerPort chains { tx with queue }, []⟩
        | none => .nothing)

/-- One round of `run`, with `fuel` for the loops of the rings. -/
def exec (fuel : Nat) (m : Machine Q S G) : Event G → Option (Result Q S G C E)
  | .enqueue frame pkt => some (.ok (), { m with pending := m.pending ++ [⟨frame, pkt⟩] }, .nothing)
  | .others switch => some (.ok (), { m with switch }, .nothing)
  | .driver guest => some (.ok (), { m with guest }, .nothing)
  | .message hdr =>
    let (r, dev) := m.dev.parseMsg sys hdr
    some (r.mapErr .control, { m with dev }, .nothing)
  | .wake => m.serveRx lib 0 fun api rx => handleRxQueued api fuel rx
  | .kick token pkt =>
    match m.dev.kickFds.get token with
    | some (.rx _ vq) => m.serveRx lib vq fun api rx => kickRx api fuel rx pkt
    | some (.tx _ vq) => m.serveTx lib fuel vq pkt
    | none => some (.ok (), m, .nothing)

theorem exec_wake (fuel : Nat) (m : Machine Q S G) :
    m.exec sys lib fuel .wake = m.serveRx lib 0 fun api rx => handleRxQueued api fuel rx := rfl

/-- **An event whose handler returns without an error**, so that the loop goes on, with what it moved.  (The loop takes
an `EWOULDBLOCK` of a message's handler for the end of the stream and goes on too; such messages are left out.) -/
def Step (m : Machine Q S G) (l : Event G × Served C) (m' : Machine Q S G) : Prop :=
  ∃ fuel, m.exec sys lib fuel l.1 = some (.ok (), m', l.2)

/-! ## What the messages of a run have made of the rings -/

/-- A `SET_MEM_TABLE` was handled. -/
def TableSet (ls : List (Event G × Served C)) : Prop :=
  ∃ l ∈ ls, ∃ hdr, l.1 = .message hdr ∧ Request.ofTy hdr.ty = some .setMemTable

/-- A `SET_VRING_ENABLE` for the ring was handled, whatever its `num`. -/
def EnableSent (ls : List (Event G × Served C)) (i : Nat) : Prop :=
  ∃ l ∈ ls, ∃ hdr state, l.1 = .message hdr ∧ Request.ofTy hdr.ty = some .setVringEnable ∧
    hdr.read VRingState = .ok state ∧ state.index.toNat = i

/-- Whether a ring has its memory, and whether it is enabled. -/
def flags (vq : Vring Q) : Bool × Bool := (vq.mem.isSome, vq.enabled)

/-- **The rings are as the messages made them**: with memory after a table, enabled after a `SET_VRING_ENABLE`. -/
structure Configured (rings : Nat) (ls : List (Event G × Served C)) (m : Machine Q S G) : Prop where
  length : m.dev.queues.length = rings
  ring : ∀ i f, (m.dev.queues.map flags)[i]? = some f → (f.1 = true ↔ TableSet ls) ∧ (f.2 = true ↔ EnableSent ls i)

variable {sys lib}

theorem flags_setter {req : Request} {g : Vring Q → Vring Q} (hg : Device.Setter sys req g)
    (hreq : req ≠ .setVringEnable) (vq : Vring Q) : flags (g vq) = flags vq := by
  cases hg <;> first | rfl | exact absurd rfl hreq

theorem flags_other {hdr : VHostHeader} (hmem : Request.ofTy hdr.ty ≠ some .setMemTable)
    (hen : Request.ofTy hdr.ty ≠ some .setVringEnable) (d : Device Q S) :
    (d.parseMsg sys hdr).2.queues.map flags = d.queues.map flags := by
  refine Device.parseMsg_keeps (P := fun d' : Device Q S => d'.queues.map flags = d.queues.map flags) ?_ hmem d rfl
  intro req hreq
  refine ⟨?_, ?_⟩
  · intro d₁ d₂ hq _ h
    rw [hq, h]
  · intro d₁ idx vq g hg hvq h
    refine (Device.map_set_same hvq (flags_setter hg ?_ vq)).trans h
    rintro rfl
    exact hen hreq

theorem flags_table {hdr : VHostHeader} {d d' : Device Q S} (hreq : Request.ofTy hdr.ty = some .setMemTable)
    (h : d.parseMsg sys hdr = (.ok (), d')) : d'.queues.map flags = d.queues.map fun vq => (true, vq.enabled) := by
  have hout := Device.parseMsg_outcome sys hreq d
  rw [h] at hout
  cases hout with
  | refused hno _ => exact absurd rfl hno
  | stopped hno => exact absurd rfl hno
  | unfit hno => exact absurd rfl hno
  | set _ _ _ _ hqueues _ =>
    rw [hqueues, List.map_map]
    rfl

theorem parseMsg_enable {hdr : VHostHeader} {d d' : Device Q S} (hreq : Request.ofTy hdr.ty = some .setVringEnable)
    (h : d.parseMsg sys hdr = (.ok (), d')) : ∃ state vq, hdr.read VRingState = .ok state ∧
      d.queues[state.index.toNat]? = some vq ∧ d'.queues = d.queues.set state.index.toNat vq.setEnabled := by
  unfold Device.parseMsg at h
  rw [hreq] at h
  obtain ⟨state, d₁, hread, h⟩ := Res.andThen_eq_ok.1 h
  simp only [Device.payload, Prod.mk.injEq, Res.mapErr_eq_ok] at hread
  obtain ⟨hread, rfl⟩ := hread
  unfold Device.onRing at h
  split at h
  · cases h
  · rename_i vq hvq
    cases h
    exact ⟨state, vq, hread, hvq, rfl⟩

/-- Nothing of a device is changed but the queue of one ring, or nothing. -/
def QueueOnly (d d' : Device Q S) : Prop :=
  d' = d ∨ ∃ idx vq queue, d.queues[idx]? = some vq ∧ d' = { d with queues := d.queues.set idx { vq with queue } }

/-- **A service call touches only the queue of a ring.** -/
theorem queueOnly_serveRx {idx : Nat}
    {call : VirtioQueue Q G C R W E → Rx Q G C W → Option (Res (VhostError E) Unit × Rx Q G C W)}
    {m m' : Machine Q S G} {r : Res (DeviceError E) Unit} {served : Served C}
    (h : m.serveRx lib idx call = some (r, m', served)) : QueueOnly m.dev m'.dev := by
  unfold serveRx at h
  split at h
  · cases h
    exact Or.inl rfl
  · rename_i vq hvq
    rw [Option.map_eq_some_iff] at h
    obtain ⟨⟨r₁, rx⟩, -, h⟩ := h
    cases h
    exact Or.inr ⟨idx, vq, _, hvq, rfl⟩

theorem queueOnly_serveTx {fuel idx : Nat} {pkt : List Byte} {m m' : Machine Q S G} {r : Res (DeviceError E) Unit}
    {served : Served C} (h : m.serveTx lib fuel idx pkt = some (r, m', served)) : QueueOnly m.dev m'.dev := by
  unfold serveTx at h
  split at h
  · cases h
    exact Or.inl rfl
  · rename_i vq hvq
    rw [Option.map_eq_some_iff] at h
    obtain ⟨⟨r₁, tx⟩, -, h⟩ := h
    cases h
    exact Or.inr ⟨idx, vq, _, hvq, rfl⟩

/-- **An event that is not a message touches only the queue of a ring.** -/
theorem queueOnly_event {e : Event G} {fuel : Nat} {m m' : Machine Q S G} {r : Res (DeviceError E) Unit}
    {served : Served C} (he : ∀ hdr, e ≠ .message hdr) (h : m.exec sys lib fuel e = some (r, m', served)) :
    QueueOnly m.dev m'.dev := by
  cases e with
  | enqueue frame pkt => cases h; exact Or.inl rfl
  | others switch => cases h; exact Or.inl rfl
  | driver guest => cases h; exact Or.inl rfl
  | message hdr => exact absurd rfl (he hdr)
  | wake =>
    rw [exec_wake] at h
    exact queueOnly_serveRx h
  | kick token pkt =>
    simp only [exec] at h
    split at h
    · exact queueOnly_serveRx h
    · exact queueOnly_serveTx h
    · cases h
      exact Or.inl rfl

theorem QueueOnly.flags {d d' : Device Q S} (h : QueueOnly d d') : d'.queues.map flags = d.queues.map flags := by
  rcases h with rfl | ⟨idx, vq, queue, hvq, rfl⟩
  · rfl
  · exact Device.map_set_same hvq rfl

theorem QueueOnly.mappings {d d' : Device Q S} (h : QueueOnly d d') : d'.mappings = d.mappings := by
  rcases h with rfl | ⟨idx, vq, queue, hvq, rfl⟩
  · rfl
  · rfl

theorem tableSet_snoc (ls : List (Event G × Served C)) (l : Event G × Served C) : TableSet (ls ++ [l]) ↔
    TableSet ls ∨ ∃ hdr, l.1 = .message hdr ∧ Request.ofTy hdr.ty = some .setMemTable := by
  simp [TableSet, or_and_right, exists_or]

theorem enableSent_snoc (ls : List (Event G × Served C)) (l : Event G × Served C) (i : Nat) : EnableSent (ls ++ [l]) i ↔
    EnableSent ls i ∨ ∃ hdr state, l.1 = .message hdr ∧ Request.ofTy hdr.ty = some .setVringEnable ∧
      hdr.read VRingState = .ok state ∧ state.index.toNat = i := by
  simp [EnableSent, or_and_right, exists_or]

theorem Configured.length_of_flags {rings : Nat} {ls : List (Event G × Served C)} {m m' : Machine Q S G}
    (h : Configured rings ls m) {g : Vring Q → Bool × Bool}
    (hflags : m'.dev.queues.map flags = m.dev.queues.map g) : m'.dev.queues.length = rings := by
  have hlen := congrArg List.length hflags
  rw [List.length_map, List.length_map] at hlen
  exact hlen.trans h.length

/-- A step that leaves the flags alone, and is no message that sets them. -/
theorem Configured.same {rings : Nat} {ls : List (Event G × Served C)} {l : Event G × Served C} {m m' : Machine Q S G}
    (h : Configured rings ls m) (hflags : m'.dev.queues.map flags = m.dev.queues.map flags)
    (hl : ∀ hdr, l.1 = .message hdr →
      Request.ofTy hdr.ty ≠ some .setMemTable ∧ Request.ofTy hdr.ty ≠ some .setVringEnable) :
    Configured rings (ls ++ [l]) m' := by
  refine ⟨?_, ?_⟩
  · exact h.length_of_flags hflags
  · intro i f hf
    rw [hflags] at hf
    rw [tableSet_snoc, enableSent_snoc]
    obtain ⟨hmem, hen⟩ := h.ring i f hf
    refine ⟨hmem.trans (or_iff_left ?_).symm, hen.trans (or_iff_left ?_).symm⟩
    · rintro ⟨hdr, he, hreq⟩
      exact (hl hdr he).1 hreq
    · rintro ⟨hdr, state, he, hreq, -⟩
      exact (hl hdr he).2 hreq

theorem Configured.table {rings : Nat} {ls : List (Event G × Served C)} {l : Event G × Served C} {m m' : Machine Q S G}
    {hdr : VHostHeader} (h : Configured rings ls m) (he : l.1 = .message hdr)
    (hreq : Request.ofTy hdr.ty = some .setMemTable)
    (hflags : m'.dev.queues.map flags = m.dev.queues.map fun vq => (true, vq.enabled)) :
    Configured rings (ls ++ [l]) m' := by
  refine ⟨?_, ?_⟩
  · exact h.length_of_flags hflags
  · intro i f hf
    rw [hflags, List.getElem?_map, Option.map_eq_some_iff] at hf
    obtain ⟨vq, hvq, rfl⟩ := hf
    obtain ⟨-, hen⟩ := h.ring i (flags vq) (by rw [List.getElem?_map, hvq]; rfl)
    rw [tableSet_snoc, enableSent_snoc]
    refine ⟨iff_of_true rfl (Or.inr ⟨hdr, he, hreq⟩), hen.trans (or_iff_left ?_).symm⟩
    rintro ⟨hdr', state, he', hreq', -⟩
    rw [he] at he'
    cases he'
    rw [hreq] at hreq'
    cases hreq'

theorem Configured.enable {rings : Nat} {ls : List (Event G × Served C)} {l : Event G × Served C} {m m' : Machine Q S G}
    {hdr : VHostHeader} {state : VRingState} {vq : Vring Q} (h : Configured rings ls m) (he : l.1 = .message hdr)
    (hreq : Request.ofTy hdr.ty = some .setVringEnable) (hread : hdr.read VRingState = .ok state)
    (hvq : m.dev.queues[state.index.toNat]? = some vq)
    (hqueues : m'.dev.queues = m.dev.queues.set state.index.toNat vq.setEnabled) : Configured rings (ls ++ [l]) m' := by
  have hno : ¬ ∃ hdr, l.1 = .message hdr ∧ Request.ofTy hdr.ty = some .setMemTable := by
    rintro ⟨hdr', he', hreq'⟩
    rw [he] at he'
    cases he'
    rw [hreq] at hreq'
    cases hreq'
  have hthis : ∀ i, (∃ hdr state, l.1 = .message hdr ∧ Request.ofTy hdr.ty = some .setVringEnable ∧
      hdr.read VRingState = .ok state ∧ state.index.toNat = i) ↔ state.index.toNat = i := by
    intro i
    constructor
    · rintro ⟨hdr', state', he', -, hread', hi⟩
      rw [he] at he'
      cases he'
      rw [hread] at hread'
      cases hread'
      exact hi
    · exact fun hi => ⟨hdr, state, he, hreq, hread, hi⟩
  refine ⟨by rw [hqueues, List.length_set, h.length], ?_⟩
  intro i f hf
  rw [hqueues, List.map_set, List.getElem?_set] at hf
  rw [tableSet_snoc, enableSent_snoc, hthis, or_iff_left hno]
  split at hf
  · rename_i hi
    split at hf
    · cases hf
      obtain ⟨hmem, -⟩ := h.ring _ (flags vq) (by rw [List.getElem?_map, hvq]; rfl)
      exact ⟨hmem, iff_of_true rfl (Or.inr hi)⟩
    · cases hf
  · rename_i hi
    rw [or_iff_left hi]
    exact h.ring i f hf

theorem configured_step {rings : Nat} {ls : List (Event G × Served C)} {l : Event G × Served C} {m m' : Machine Q S G}
    (h : Configured rings ls m) (hstep : Step sys lib m l m') : Configured rings (ls ++ [l]) m' := by
  obtain ⟨fuel, hexec⟩ := hstep
  by_cases hmsg : ∃ hdr, l.1 = .message hdr
  · obtain ⟨hdr, he⟩ := hmsg
    rw [he] at hexec
    simp only [exec, Option.some.injEq, Prod.mk.injEq, Res.mapErr_eq_ok] at hexec
    obtain ⟨hok, rfl, -⟩ := hexec
    have hparse : m.dev.parseMsg sys hdr = (.ok (), (m.dev.parseMsg sys hdr).2) := Prod.ext hok rfl
    by_cases hmem : Request.ofTy hdr.ty = some .setMemTable
    · exact h.table he hmem (flags_table hmem hparse)
    · by_cases hen : Request.ofTy hdr.ty = some .setVringEnable
      · obtain ⟨state, vq, hread, hvq, hqueues⟩ := parseMsg_enable hen hparse
        exact h.enable he hen hread hvq hqueues
      · refine h.same (flags_other hmem hen m.dev) ?_
        rintro hdr' he'
        rw [he] at he'
        cases he'
        exact ⟨hmem, hen⟩
  · have hno : ∀ hdr, l.1 ≠ .message hdr := fun hdr he => hmsg ⟨hdr, he⟩
    exact h.same (queueOnly_event hno hexec).flags fun hdr he => absurd he (hno hdr)

theorem configured_new {deviceQueues : BitVec 8} {switch : VirtioSwitch} {s : S} {guest : G} {m : Machine Q S G}
    (h : new sys deviceQueues switch s guest = .ok m) :
    Configured (deviceQueues.toNat * 2) ([] : List (Event G × Served C)) m := by
  unfold new at h
  rw [Res.bind_eq_ok] at h
  obtain ⟨dev, hdev, h⟩ := h
  cases h
  obtain ⟨hlen, hnew, -⟩ := Device.new_ok hdev
  refine ⟨hlen, ?_⟩
  intro i f hf
  rw [List.getElem?_map, Option.map_eq_some_iff] at hf
  obtain ⟨vq, hvq, rfl⟩ := hf
  obtain ⟨queue, rfl⟩ := hnew vq (List.mem_of_getElem? hvq)
  simp [flags, Vring.new, TableSet, EnableSent]

/-- **The rings of a run**: in every state of a run a ring has memory exactly when a table was handled, and is enabled
exactly when a `SET_VRING_ENABLE` for it was. -/
theorem configured_run {deviceQueues : BitVec 8} {switch : VirtioSwitch} {s : S} {guest : G} {m₀ m : Machine Q S G}
    {ls : List (Event G × Served C)} (hnew : new sys deviceQueues switch s guest = .ok m₀)
    (hrun : Run (Step sys lib) m₀ ls m) : Configured (deviceQueues.toNat * 2) ls m :=
  Run.invariant (I := fun ls m => Configured (deviceQueues.toNat * 2) ls m) (configured_new hnew)
    (fun _ _ _ _ _ h hstep => configured_step h hstep) hrun

end Machine

/-! ## A guest whose rings must be started -/

/-- The library on a guest with one ring, for queues of `plainSystem`: a queue that is not ready gives no chains. -/
def readyQueue : VirtioQueue (Bool × Nat) RingGuest RingChain (List Byte) (Nat × List Byte) Unit where
  iter q guest :=
    if q.1 then .ok (guest.avail.drop q.2, q.1, q.2 + (guest.avail.drop q.2).length) else .error ()
  popDescriptorChain q guest :=
    if q.1 then
      let (chain, next) := ringQueue.popDescriptorChain q.2 guest
      (chain, q.1, next)
    else (none, q)
  headIndex := ringQueue.headIndex
  reader := ringQueue.reader
  read := ringQueue.read
  writer := ringQueue.writer
  writeAll := ringQueue.writeAll
  addUsed q guest head len :=
    let (res, next, guest) := ringQueue.addUsed q.2 guest head len
    (res, (q.1, next), guest)
  notify := ringQueue.notify

namespace Device

/-- `SET_VRING_KICK` -/
def kickMsg (ring : BitVec 64) (fd : Nat) : VHostHeader := ⟨12, 1, [.scmRights [fd]], some (toLe64 ring)⟩

/-- `SET_VRING_ENABLE` -/
def enableMsg (ring num : BitVec 32) : VHostHeader := ⟨18, 1, [], some (toLe32 ring ++ toLe32 num)⟩

/-- A new device with two rings, on port 0. -/
def freshDevice : Device (Bool × Nat) Unit :=
  ⟨none, [.new (false, 0), .new (false, 0)], [], 0, 1, Table.empty, 0, (), []⟩

/-- The device after a table of one region. -/
def mappedDevice : Device (Bool × Nat) Unit :=
  { freshDevice with
    queues := freshDevice.queues.map (Vring.setMemory [⟨0x7000, 0x1000, 0⟩])
    mappings := [mappingOf lowRegion] }

/-- The device after the kick descriptor 7 of ring 0. -/
def startedDevice : Device (Bool × Nat) Unit :=
  { mappedDevice with
    queues := [⟨false, (true, 0), some [⟨0x7000, 0x1000, 0⟩], 0, 0, 0, none, none, some 7⟩,
      ⟨false, (false, 0), some [⟨0x7000, 0x1000, 0⟩], 0, 0, 0, none, none, none⟩]
    kickFds := Table.empty.insert 7 (.rx 7 0) }

/-- The device after `SET_VRING_ENABLE` of ring 0. -/
def enabledDevice : Device (Bool × Nat) Unit :=
  { startedDevice with
    queues := [⟨true, (true, 0), some [⟨0x7000, 0x1000, 0⟩], 0, 0, 0, none, none, some 7⟩,
      ⟨false, (false, 0), some [⟨0x7000, 0x1000, 0⟩], 0, 0, 0, none, none, none⟩] }

theorem freshDevice_table : freshDevice.parseMsg plainSystem (tableMsg lowRegion) = (.ok (), mappedDevice) := rfl

theorem mappedDevice_kick : mappedDevice.parseMsg plainSystem (kickMsg 0 7) = (.ok (), startedDevice) := rfl

theorem startedDevice_enable : startedDevice.parseMsg plainSystem (enableMsg 0 1) = (.ok (), enabledDevice) := rfl

end Device

namespace Machine

open Device

/-- The driver has one chain of a hundred bytes on its ring. -/
def oneChain : RingGuest := ⟨[⟨5, [], 100⟩], []⟩

/-- A machine with this device, this guest and these frames pending, alone on its switch. -/
def alone (dev : Device (Bool × Nat) Unit) (guest : RingGuest) (pending : List EthernetPacket) :
    Machine (Bool × Nat) Unit RingGuest := ⟨dev, guest, pending, ⟨[[]], Table.empty⟩⟩

/-- The front end sends a message. -/
def control (hdr : VHostHeader) : Event RingGuest × Served RingChain := (.message hdr, .nothing)

/-- A frame comes in from another guest. -/
def frameComes : Event RingGuest × Served RingChain := (.enqueue VirtQueue.guestFrame [7], .nothing)

theorem step_control {hdr : VHostHeader} {d d' : Device (Bool × Nat) Unit}
    (h : d.parseMsg plainSystem hdr = (.ok (), d')) (guest : RingGuest) (pending : List EthernetPacket) :
    Step plainSystem (fun _ => readyQueue) (alone d guest pending) (control hdr) (alone d' guest pending) := by
  refine ⟨0, ?_⟩
  simp only [control, exec, alone, h, Res.mapErr_ok]

/-- The run of a front end that sets up ring 0, up to `SET_VRING_KICK`. -/
theorem run_started (guest : RingGuest) : Run (Step plainSystem fun _ => readyQueue) (alone freshDevice guest [])
    [control (tableMsg lowRegion), control (kickMsg 0 7)] (alone startedDevice guest []) :=
  .cons (step_control freshDevice_table guest []) (.single (step_control mappedDevice_kick guest []))

end Machine
end Oathgate
