import Oathgate.VhostQueue
import Oathgate.VhostTypes
/-!
# VhostControl — control messages (`oathgate-vhost`: `device.rs`, the setters of `queue.rs`)

`parseMsg` handles one message of the front end.  What it calls outside (the setters of `virtio-queue`, mapping memory,
the poller and the sockets) is the parameter `VhostSystem`.  `Device` keeps, beside the fields of the source, the state
of the code outside and the responses sent.  `parseMsg_keeps` says once which fields of the rings a message can change.
-/
namespace Oathgate

open Lib

/-! ## Rings -/

/-- `GuestRegionMmap`: where a region is mapped, its size, and its address in the guest. -/
structure GuestRegion where
  ptr : BitVec 64
  size : BitVec 64
  guest : BitVec 64
  deriving DecidableEq, Repr

/-- **What the control path calls**: the setters of `virtio_queue::Queue` and its constructor, `mmap`, `build_raw`,
`GuestRegionMmap::new` and `from_regions` (each may refuse), the poller, and the writes to the two sockets.  `S` is the
state of all that; `traced` when traces are enabled. -/
structure VhostSystem (Q S E : Type) where
  newQueue : BitVec 16 → Except E Q
  setSize : Q → BitVec 16 → Q
  setReady : Q → Bool → Q
  setDescTableAddress : Q → Option (BitVec 32) → Option (BitVec 32) → Q
  setAvailRingAddress : Q → Option (BitVec 32) → Option (BitVec 32) → Q
  setUsedRingAddress : Q → Option (BitVec 32) → Option (BitVec 32) → Q
  setNextAvail : Q → BitVec 16 → Q
  nextAvail : Q → BitVec 16
  mmap : S → (addr size : BitVec 64) → (fd : Nat) → (offset : BitVec 64) → Except E (BitVec 64) × S
  buildRaw : (ptr size : BitVec 64) → Except E Unit
  guestRegion : GuestRegion → Except E Unit
  fromRegions : List GuestRegion → Except E Unit
  register : S → (fd : Nat) → Except E Unit × S
  deregister : S → (fd : Nat) → Except E Unit × S
  write : S → (fd : Nat) → List Byte → Except E Unit × S
  sendmsg : S → List Byte → Except E Unit × S
  traced : Bool

/-- `VirtQueue` with all its fields but the switch and the pending queue, which the rings of a device share. -/
structure Vring (Q : Type) where
  enabled : Bool
  queue : Q
  mem : Option (List GuestRegion)
  descTable : BitVec 64
  availRing : BitVec 64
  usedRing : BitVec 64
  errFd : Option Nat
  callFd : Option Nat
  kickFd : Option Nat

variable {Q S E : Type}

namespace Vring

/-- The part of a ring that moves frames. -/
def virtQueue (vq : Vring Q) : VirtQueue Q := ⟨vq.enabled, vq.queue, vq.mem.isSome, vq.callFd.isSome⟩

def new (queue : Q) : Vring Q where
  enabled := false
  queue := queue
  mem := none
  descTable := 0
  availRing := 0
  usedRing := 0
  errFd := none
  callFd := none
  kickFd := none

def setEnabled (vq : Vring Q) : Vring Q := { vq with enabled := true }

variable (sys : VhostSystem Q S E)

def setQueueSize (size : BitVec 16) (vq : Vring Q) : Vring Q := { vq with queue := sys.setSize vq.queue size }

def setNotReady (vq : Vring Q) : Vring Q := { vq with queue := sys.setReady vq.queue false }

def high (x : BitVec 64) : BitVec 32 := ((x >>> 32) &&& 0xFFFFFFFF).setWidth 32

def low (x : BitVec 64) : BitVec 32 := (x &&& 0xFFFFFFFF).setWidth 32

def setQueueAddresses (desc avail used : BitVec 64) (vq : Vring Q) : Vring Q :=
  let queue := sys.setDescTableAddress vq.queue (some (low desc)) (some (high desc))
  let queue := sys.setAvailRingAddress queue (some (low avail)) (some (high avail))
  let queue := sys.setUsedRingAddress queue (some (low used)) (some (high used))
  { vq with queue, descTable := desc, availRing := avail, usedRing := used }

def setErrorFd (fd : Nat) (vq : Vring Q) : Vring Q := { vq with errFd := some fd }

def setCallFd (fd : Nat) (vq : Vring Q) : Vring Q := { vq with callFd := some fd }

def setKickFd (fd : Nat) (vq : Vring Q) : Vring Q :=
  { vq with kickFd := some fd, queue := sys.setReady vq.queue true }

def setMemory (mem : List GuestRegion) (vq : Vring Q) : Vring Q := { vq with mem := some mem }

def setNextAvail (idx : BitVec 16) (vq : Vring Q) : Vring Q := { vq with queue := sys.setNextAvail vq.queue idx }

def clearFds (vq : Vring Q) : Vring Q := { vq with errFd := none, callFd := none, kickFd := none }

end Vring

/-! ## The device -/

inductive ControlError (E : Type) where
  | payload (e : PayloadError)
  | memory (e : MemoryError)
  | invalidMessage (msg : String)
  | queueNotFound (idx : Nat)
  | lib (e : E)

inductive KickFd where
  | rx (fd vq : Nat)
  | tx (fd vq : Nat)
  deriving DecidableEq, Repr

/-- `VirtioDevice`; `sys` is the state of the code outside, `sent` the responses, in order. -/
structure Device (Q S : Type) where
  channel : Option Nat
  queues : List (Vring Q)
  mappings : List GuestMapping
  status : BitVec 64
  numQueues : BitVec 64
  kickFds : Table Nat KickFd
  routerPort : Nat
  sys : S
  sent : List (List Byte)

/-- The requests `parse_msg` knows. -/
inductive Request where
  | getFeatures
  | setFeatures
  | setOwner
  | setMemTable
  | setVringNum
  | setVringAddr
  | setVringBase
  | getVringBase
  | setVringKick
  | setVringCall
  | setVringErr
  | getProtocolFeatures
  | setProtocolFeatures
  | getQueueNum
  | setVringEnable
  | setBackendReqFd
  | getConfig
  | setConfig
  | getMaxMemSlots
  | addMemReg
  | setStatus
  | getStatus
  deriving DecidableEq, Repr

def Request.ofTy (ty : BitVec 32) : Option Request :=
  match ty.toNat with
  | 1 => some getFeatures
  | 2 => some setFeatures
  | 3 => some setOwner
  | 5 => some setMemTable
  | 8 => some setVringNum
  | 9 => some setVringAddr
  | 10 => some setVringBase
  | 11 => some getVringBase
  | 12 => some setVringKick
  | 13 => some setVringCall
  | 14 => some setVringErr
  | 15 => some getProtocolFeatures
  | 16 => some setProtocolFeatures
  | 17 => some getQueueNum
  | 18 => some setVringEnable
  | 21 => some setBackendReqFd
  | 24 => some getConfig
  | 25 => some setConfig
  | 36 => some getMaxMemSlots
  | 37 => some addMemReg
  | 39 => some setStatus
  | 40 => some getStatus
  | _ => none

namespace Device

/-- An outcome of a handler, with the device it leaves. -/
abbrev Handled (Q S E α : Type) := Res (ControlError E) α × Device Q S

def ofExcept {α : Type} : Except E α → Res (ControlError E) α
  | .ok a => .ok a
  | .error e => .err (.lib e)

def queueMaxSize : BitVec 16 := 1024

def newQueues (sys : VhostSystem Q S E) : Nat → Res (ControlError E) (List (Vring Q))
  | 0 => .ok []
  | n + 1 => do
    let queues ← newQueues sys n
    return queues ++ [Vring.new (← ofExcept (sys.newQueue queueMaxSize))]

/-- `VirtioDevice::new` with the port `connect` returned; the number of rings is computed in eight bits. -/
def new (sys : VhostSystem Q S E) (deviceQueues : BitVec 8) (routerPort : Nat) (s : S) :
    Res (ControlError E) (Device Q S) :=
  if deviceQueues.toNat * 2 < 2 ^ 8 then do
    return { channel := none, queues := ← newQueues sys (deviceQueues.toNat * 2), mappings := [], status := 0,
             numQueues := deviceQueues.setWidth 64, kickFds := Table.empty, routerPort, sys := s, sent := [] }
  else .panic .overflow

/-- `get_virtqueue_mut(idx)?`, then a setter. -/
def onRing (idx : Nat) (f : Vring Q → Vring Q) (d : Device Q S) : Handled Q S E Unit :=
  match d.queues[idx]? with
  | none => (.err (.queueNotFound idx), d)
  | some vq => (.ok (), { d with queues := d.queues.set idx (f vq) })

/-- `find_map` over the mappings: the first that has the address decides, an overflow in it included. -/
def findGuestAddr {ε : Type} (vmm : BitVec 64) : List GuestMapping → Res ε (Option (BitVec 64))
  | [] => .ok none
  | m :: ms => do
    match ← m.guestAddr vmm with
    | some addr => return some addr
    | none => findGuestAddr vmm ms

def computeGuestAddress (d : Device Q S) (vmm : BitVec 64) : Res MemoryError (BitVec 64) := do
  match ← findGuestAddr vmm d.mappings with
  | some addr => return addr
  | none => .err (.noHostToGuestMappingFound vmm)

/-- A message to the front end: its type, its flags, the length of its payload, its payload. -/
def frontEndMsg (id flags : BitVec 32) (payload : List Byte) : List Byte :=
  toLe32 id ++ toLe32 flags ++ toLe32 (BitVec.ofNat 32 payload.length) ++ payload

variable (sys : VhostSystem Q S E)

def sendMsg (id : BitVec 32) (payload : List Byte) (d : Device Q S) : Handled Q S E Unit :=
  match d.channel with
  | some fd =>
    let (res, s) := sys.write d.sys fd (frontEndMsg id 0x01 payload)
    (ofExcept res, { d with sys := s })
  | none => (.ok (), d)

def sendResponse (id : BitVec 32) (payload : List Byte) (d : Device Q S) : Handled Q S E Unit :=
  let resp := frontEndMsg id (0x01 ||| 0x04) payload
  let (res, s) := sys.sendmsg d.sys resp
  (ofExcept res, { d with sys := s, sent := d.sent ++ [resp] })

/-- `hdr.payload()?` -/
def payload {α : Type} [TryFromPayload α] (hdr : VHostHeader) (d : Device Q S) : Handled Q S E α :=
  ((hdr.read α).mapErr .payload, d)

/-! ## SET_MEM_TABLE -/

/-- `NonZeroUsize::try_from(x).unwrap()` -/
def nonZero (x : BitVec 64) : Res (ControlError E) (BitVec 64) := if x = 0 then .panic .unwrap else .ok x

/-- One region up to `GuestRegionMmap::new`.  The traces add before anything is mapped. -/
def mapRegion (region : MemoryRegionDescription) (fd : Nat) (s : S) : Res (ControlError E) GuestRegion × S :=
  Res.andThen (if sys.traced then do
      let _ ← addU64 region.guestAddress region.size
      let _ ← addU64 region.userAddress region.size
    else .ok (), s) fun _ s =>
    Res.andThen (do return (← nonZero region.userAddress, ← nonZero region.size), s) fun (addr, sz) s =>
      let (res, s) := sys.mmap s addr sz fd region.mmapOffset
      Res.andThen (ofExcept res, s) fun ptr s =>
        Res.andThen (ofExcept (sys.buildRaw ptr region.size), s) fun _ s =>
          let gm : GuestRegion := ⟨ptr, region.size, region.guestAddress⟩
          Res.andThen (ofExcept (sys.guestRegion gm), s) fun _ s => (.ok gm, s)

/-- The loop over the regions: each one mapped is pushed to `mappings` at once. -/
def mapRegions : List (MemoryRegionDescription × Nat) → List GuestRegion → Device Q S → Handled Q S E (List GuestRegion)
  | [], regions, d => (.ok regions, d)
  | (region, fd) :: rest, regions, d =>
    let (gm, s) := mapRegion sys region fd d.sys
    Res.andThen (gm, { d with sys := s }) fun gm d =>
      Res.andThen (GuestMapping.new region.userAddress region.guestAddress region.size, d) fun mapping d =>
        mapRegions rest (regions ++ [gm]) { d with mappings := d.mappings ++ [mapping] }

def setMemTable (hdr : VHostHeader) (d : Device Q S) : Handled Q S E Unit :=
  Res.andThen (payload hdr d) fun (regionDescs : List MemoryRegionDescription) d =>
    Res.andThen (hdr.extractFds.mapErr .payload, d) fun files d =>
      if regionDescs.length ≠ files.length then (.err (.invalidMessage "set_mem_table: region / fd mismatch"), d)
      else
        Res.andThen (mapRegions sys (regionDescs.zip files) [] d) fun regions d =>
          Res.andThen (ofExcept (sys.fromRegions regions), d) fun _ d =>
            let d := { d with queues := d.queues.map (Vring.setMemory regions) }
            if hdr.ackRequired then sendResponse sys hdr.ty [] d else (.ok (), d)

/-! ## The rings -/

def setVringAddr (hdr : VHostHeader) (d : Device Q S) : Handled Q S E Unit :=
  if d.mappings.isEmpty then (.err (.memory .noMappedMemory), d)
  else
    Res.andThen (payload hdr d) fun (addr : VRingAddr) d =>
      Res.andThen ((do
          let desc ← d.computeGuestAddress addr.descUserAddr
          let avail ← d.computeGuestAddress addr.availUserAddr
          let used ← d.computeGuestAddress addr.usedUserAddr
          return (desc, avail, used) : Res MemoryError _).mapErr .memory, d) fun (desc, avail, used) d =>
        d.onRing addr.index.toNat (Vring.setQueueAddresses sys desc avail used)

def getVringBase (hdr : VHostHeader) (d : Device Q S) : Handled Q S E Unit :=
  Res.andThen (payload hdr d) fun (state : VRingState) d =>
    match d.queues[state.index.toNat]? with
    | none => (.err (.queueNotFound state.index.toNat), d)
    | some vq =>
      let vq := vq.setNotReady sys
      let kick := vq.kickFd
      let vq := vq.clearFds
      let next := sys.nextAvail vq.queue
      let d := { d with queues := d.queues.set state.index.toNat vq }
      Res.andThen (match kick with
        | some fd =>
          let (res, s) := sys.deregister d.sys fd
          (ofExcept res, { d with sys := s })
        | none => (.ok (), d)) fun _ d =>
        let resp : VRingDescriptor := { index := state.index, avail := next.setWidth 32 }
        sendResponse sys hdr.ty resp.asVec d

def setVringKick (hdr : VHostHeader) (d : Device Q S) : Handled Q S E Unit :=
  Res.andThen (payload hdr d) fun (vringIdx : BitVec 64) d =>
    Res.andThen (hdr.extractFd.mapErr .payload, d) fun fd d =>
      Res.andThen (d.onRing vringIdx.toNat (Vring.setKickFd sys fd)) fun _ d =>
        let (res, s) := sys.register d.sys fd
        Res.andThen (ofExcept res, { d with sys := s }) fun _ d =>
          let kick := if vringIdx &&& 1 = 0 then KickFd.rx fd vringIdx.toNat else KickFd.tx fd vringIdx.toNat
          (.ok (), { d with kickFds := d.kickFds.insert fd kick })

/-- `SET_VRING_CALL` and `SET_VRING_ERR`. -/
def setVringFd (set : Nat → Vring Q → Vring Q) (hdr : VHostHeader) (d : Device Q S) : Handled Q S E Unit :=
  Res.andThen (payload hdr d) fun (vringIdx : BitVec 64) d =>
    Res.andThen (hdr.extractFd.mapErr .payload, d) fun fd d => d.onRing vringIdx.toNat (set fd)

def setBackendReqFd (hdr : VHostHeader) (d : Device Q S) : Handled Q S E Unit :=
  Res.andThen (hdr.extractFd.mapErr .payload, d) fun fd d =>
    let d := { d with channel := some fd }
    if hdr.ackRequired then sendResponse sys hdr.ty (toLe64 0) d else (.ok (), d)

/-! ## The dispatch -/

/-- `VIRTIO_F_VERSION_1`, `PROTOCOL_FEATURES`, `VIRTIO_NET_F_MAC` and `VIRTIO_NET_F_STATUS`. -/
def features : BitVec 64 := 1 <<< 32 ||| 1 <<< 30 ||| 0x0020 ||| 0x10000

/-- `BACKEND_REQ`, `CONFIG`, `RESET_DEVICE`, `DEVICE_STATE` and `STATUS`. -/
def protocolFeatures : BitVec 64 := 0x20 ||| 0x200 ||| 0x2000 ||| 0x80000 ||| 0x10000

def parseMsg (hdr : VHostHeader) (d : Device Q S) : Handled Q S E Unit :=
  match Request.ofTy hdr.ty with
  | some .getFeatures => sendResponse sys hdr.ty (toLe64 features) d
  | some .setFeatures => Res.andThen (payload hdr d) fun (_ : BitVec 64) d => (.ok (), d)
  | some .getProtocolFeatures => sendResponse sys hdr.ty (toLe64 protocolFeatures) d
  | some .setProtocolFeatures => Res.andThen (payload hdr d) fun (_ : BitVec 64) d => (.ok (), d)
  | some .getQueueNum => sendResponse sys hdr.ty (toLe64 d.numQueues) d
  | some .setBackendReqFd => setBackendReqFd sys hdr d
  | some .getMaxMemSlots => sendResponse sys hdr.ty (toLe64 0x02) d
  | some .setVringEnable =>
    -- the `num` of the message, which says whether to enable or to disable, is not looked at
    Res.andThen (payload hdr d) fun (state : VRingState) d => d.onRing state.index.toNat Vring.setEnabled
  | some .setOwner => sendMsg sys 2 [] d
  | some .setVringCall => setVringFd Vring.setCallFd hdr d
  | some .setVringErr => setVringFd Vring.setErrorFd hdr d
  | some .setStatus => Res.andThen (payload hdr d) fun status d => (.ok (), { d with status })
  | some .getStatus => sendResponse sys hdr.ty (toLe64 d.status) d
  | some .setVringNum =>
    Res.andThen (payload hdr d) fun (state : VRingState) d =>
      d.onRing state.index.toNat (Vring.setQueueSize sys (state.num.setWidth 16))
  | some .setVringAddr => setVringAddr sys hdr d
  | some .setVringBase =>
    Res.andThen (payload hdr d) fun (base : VRingDescriptor) d =>
      d.onRing base.index.toNat (Vring.setNextAvail sys (base.avail.setWidth 16))
  | some .getVringBase => getVringBase sys hdr d
  | some .setVringKick => setVringKick sys hdr d
  | some .setMemTable => setMemTable sys hdr d
  | some .addMemReg => Res.andThen (payload hdr d) fun (_ : VRingAddr) d => (.ok (), d)
  | some .getConfig => (.ok (), d)
  | some .setConfig => (.ok (), d)
  | none => (.ok (), d)

/-! ## A new device -/

theorem newQueues_ok (sys : VhostSystem Q S E) : ∀ (n : Nat) (queues : List (Vring Q)), newQueues sys n = .ok queues →
    queues.length = n ∧ ∀ vq ∈ queues, ∃ queue, vq = Vring.new queue
  | 0, queues, h => by
    cases h
    simp
  | n + 1, queues, h => by
    unfold newQueues at h
    rw [Res.bind_eq_ok] at h
    obtain ⟨before, hbefore, h⟩ := h
    rw [Res.bind_eq_ok] at h
    obtain ⟨queue, -, h⟩ := h
    cases h
    obtain ⟨hlen, hnew⟩ := newQueues_ok sys n before hbefore
    refine ⟨by simp [hlen], ?_⟩
    intro vq hvq
    rcases List.mem_append.1 hvq with hvq | hvq
    · exact hnew vq hvq
    · exact ⟨queue, List.mem_singleton.1 hvq⟩

/-- **A new device** has two new rings for each pair, and no mappings. -/
theorem new_ok {sys : VhostSystem Q S E} {deviceQueues : BitVec 8} {routerPort : Nat} {s : S} {d : Device Q S}
    (h : new sys deviceQueues routerPort s = .ok d) :
    d.queues.length = deviceQueues.toNat * 2 ∧ (∀ vq ∈ d.queues, ∃ queue, vq = Vring.new queue) ∧ d.mappings = [] := by
  unfold new at h
  split at h
  · rw [Res.bind_eq_ok] at h
    obtain ⟨queues, hqueues, h⟩ := h
    cases h
    obtain ⟨hlen, hnew⟩ := newQueues_ok sys _ queues hqueues
    exact ⟨hlen, hnew, rfl⟩
  · cases h

/-! ## What a message keeps -/

/-- **What a message does to a ring**, by the kind of the message; `SET_MEM_TABLE`, which changes all of them, apart. -/
inductive Setter (sys : VhostSystem Q S E) : Request → (Vring Q → Vring Q) → Prop where
  | size (n : BitVec 16) : Setter sys .setVringNum (Vring.setQueueSize sys n)
  | addresses (desc avail used : BitVec 64) : Setter sys .setVringAddr (Vring.setQueueAddresses sys desc avail used)
  | base (idx : BitVec 16) : Setter sys .setVringBase (Vring.setNextAvail sys idx)
  | stop : Setter sys .getVringBase (fun vq => (vq.setNotReady sys).clearFds)
  | kick (fd : Nat) : Setter sys .setVringKick (Vring.setKickFd sys fd)
  | call (fd : Nat) : Setter sys .setVringCall (Vring.setCallFd fd)
  | err (fd : Nat) : Setter sys .setVringErr (Vring.setErrorFd fd)
  | enable : Setter sys .setVringEnable Vring.setEnabled

/-- A property of the rings and the mappings that the setters of a kind of message keep. -/
structure Kept (sys : VhostSystem Q S E) (req : Request) (P : Device Q S → Prop) : Prop where
  rest : ∀ d d', d'.queues = d.queues → d'.mappings = d.mappings → P d → P d'
  ring : ∀ d idx vq g, Setter sys req g → d.queues[idx]? = some vq → P d →
    P { d with queues := d.queues.set idx (g vq) }

section Keeps

variable {sys} {req : Request} {P : Device Q S → Prop}

theorem Kept.onRing (hP : Kept sys req P) {g : Vring Q → Vring Q} (hg : Setter sys req g) (idx : Nat) (d : Device Q S)
    (h : P d) : P (d.onRing (E := E) idx g).2 := by
  unfold Device.onRing
  cases hvq : d.queues[idx]? with
  | none => exact h
  | some vq => exact hP.ring d idx vq g hg hvq h

theorem Kept.sendResponse (hP : Kept sys req P) (id : BitVec 32) (bytes : List Byte) (d : Device Q S) (h : P d) :
    P (d.sendResponse sys id bytes).2 :=
  hP.rest d _ rfl rfl h

theorem Kept.setVringFd (hP : Kept sys req P) {set : Nat → Vring Q → Vring Q} (hset : ∀ fd, Setter sys req (set fd))
    (hdr : VHostHeader) (d : Device Q S) (h : P d) : P (d.setVringFd (E := E) set hdr).2 :=
  Res.andThen_keeps h fun _ _ h₁ => Res.andThen_keeps h₁ fun fd d₂ h₂ => hP.onRing (hset fd) _ d₂ h₂

theorem Kept.getVringBase (hP : Kept sys .getVringBase P) (hdr : VHostHeader) (d : Device Q S) (h : P d) :
    P (d.getVringBase sys hdr).2 := by
  refine Res.andThen_keeps h ?_
  intro state d₁ h₁
  dsimp only
  cases hvq : d₁.queues[state.index.toNat]? with
  | none => exact h₁
  | some vq =>
    have hstop := hP.ring d₁ _ vq _ .stop hvq h₁
    refine Res.andThen_keeps ?_ fun _ d₂ h₂ => hP.sendResponse _ _ d₂ h₂
    split
    · exact hP.rest { d₁ with queues := d₁.queues.set _ _ } _ rfl rfl hstop
    · exact hstop

theorem Kept.setVringKick (hP : Kept sys .setVringKick P) (hdr : VHostHeader) (d : Device Q S) (h : P d) :
    P (d.setVringKick sys hdr).2 := by
  refine Res.andThen_keeps h fun vringIdx d₁ h₁ => Res.andThen_keeps h₁ fun fd d₂ h₂ => ?_
  refine Res.andThen_keeps (hP.onRing (.kick fd) _ d₂ h₂) fun _ d₃ h₃ => ?_
  exact Res.andThen_keeps (hP.rest d₃ _ rfl rfl h₃) fun _ d₄ h₄ => hP.rest d₄ _ rfl rfl h₄

/-- **A message that sets no memory keeps what the setters of its kind keep.** -/
theorem parseMsg_keeps {hdr : VHostHeader} (hP : ∀ req, Request.ofTy hdr.ty = some req → Kept sys req P)
    (hmem : Request.ofTy hdr.ty ≠ some .setMemTable) (d : Device Q S) (h : P d) : P (parseMsg sys hdr d).2 := by
  unfold parseMsg
  cases hreq : Request.ofTy hdr.ty with
  | none => exact h
  | some req =>
    have hP := hP req hreq
    cases req with
    | getFeatures => exact hP.sendResponse _ _ d h
    | setFeatures => exact Res.andThen_keeps h fun _ _ h => h
    | setOwner =>
      simp only [sendMsg]
      cases d.channel with
      | none => exact h
      | some fd => exact hP.rest d _ rfl rfl h
    | setMemTable => exact absurd hreq hmem
    | setVringNum => exact Res.andThen_keeps h fun state d₁ h₁ => hP.onRing (.size _) _ d₁ h₁
    | setVringAddr =>
      simp only [setVringAddr]
      split
      · exact h
      · refine Res.andThen_keeps h fun addr d₁ h₁ => Res.andThen_keeps h₁ fun x d₂ h₂ => ?_
        exact hP.onRing (.addresses _ _ _) _ d₂ h₂
    | setVringBase => exact Res.andThen_keeps h fun base d₁ h₁ => hP.onRing (.base _) _ d₁ h₁
    | getVringBase => exact hP.getVringBase hdr d h
    | setVringKick => exact hP.setVringKick hdr d h
    | setVringCall => exact hP.setVringFd .call hdr d h
    | setVringErr => exact hP.setVringFd .err hdr d h
    | getProtocolFeatures => exact hP.sendResponse _ _ d h
    | setProtocolFeatures => exact Res.andThen_keeps h fun _ _ h => h
    | getQueueNum => exact hP.sendResponse _ _ d h
    | setVringEnable => exact Res.andThen_keeps h fun state d₁ h₁ => hP.onRing .enable _ d₁ h₁
    | setBackendReqFd =>
      refine Res.andThen_keeps h fun fd d₁ h₁ => ?_
      have h₂ : P { d₁ with channel := some fd } := hP.rest d₁ _ rfl rfl h₁
      dsimp only
      split
      · exact hP.sendResponse _ _ _ h₂
      · exact h₂
    | getConfig => exact h
    | setConfig => exact h
    | getMaxMemSlots => exact hP.sendResponse _ _ d h
    | addMemReg => exact Res.andThen_keeps h fun _ _ h => h
    | setStatus => exact Res.andThen_keeps h fun _ d₁ h₁ => hP.rest d₁ _ rfl rfl h₁
    | getStatus => exact hP.sendResponse _ _ d h

end Keeps

/-! ## A system that refuses nothing -/

/-- A queue is whether it is ready and its next index; memory is mapped where it is asked to be, and only the empty
table is refused. -/
def plainSystem : VhostSystem (Bool × Nat) Unit Unit where
  newQueue _ := .ok (false, 0)
  setSize q _ := q
  setReady q ready := (ready, q.2)
  setDescTableAddress q _ _ := q
  setAvailRingAddress q _ _ := q
  setUsedRingAddress q _ _ := q
  setNextAvail q idx := (q.1, idx.toNat)
  nextAvail q := BitVec.ofNat 16 q.2
  mmap s addr _ _ _ := (.ok addr, s)
  buildRaw _ _ := .ok ()
  guestRegion _ := .ok ()
  fromRegions regions := if regions.isEmpty then .error () else .ok ()
  register s _ := (.ok (), s)
  deregister s _ := (.ok (), s)
  write s _ _ := (.ok (), s)
  sendmsg s _ := (.ok (), s)
  traced := false

/-- A `SET_MEM_TABLE` of one region. -/
def tableMsg (region : MemoryRegionDescription) : VHostHeader where
  ty := 5
  flags := 1
  ancillary := [.scmRights [9]]
  payload := some (toLe32 1 ++ toLe32 0 ++ (toLe64 region.guestAddress ++ toLe64 region.size ++
    toLe64 region.userAddress ++ toLe64 region.mmapOffset))

end Device
end Oathgate
