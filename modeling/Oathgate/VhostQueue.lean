import Oathgate.Switch
/-!
# VhostQueue — virtqueues (`oathgate-vhost`: `queue.rs`, `types.rs`)

What the device calls outside (`virtio-queue`'s queue, chains, readers and writers over guest memory, and the write to
the call descriptor) is the parameter `VirtioQueue`.  `kickTx` reads the chains of the transmit queue and hands each
frame to the switch; `handleRxQueued` moves pending frames into the chains of a receive queue.  `Rx` keeps, beside the
state, a record of what was done with each chain that was popped.
-/
namespace Oathgate

open Lib

/-! ## The virtio-net header -/

structure VirtioNetHeader where
  flags : BitVec 8
  gsoType : BitVec 8
  hdrLen : BitVec 16
  gsoSize : BitVec 16
  csumStart : BitVec 16
  csumOffset : BitVec 16
  numBuffers : BitVec 16
  deriving DecidableEq, Repr

/-- The errors of a device; `lib` is one of the code outside. -/
inductive VhostError (E : Type) where
  | notEnoughData (got expected : Nat)
  | noMappedMemory
  | queueNotFound (idx : Nat)
  | queueDisabled
  | lib (e : E)

namespace VirtioNetHeader

variable {ε E : Type}

/-- `bitflags`' `from_bits(..).unwrap_or_else(empty)`: no flags when an unknown bit is set. -/
def knownBits (known bits : BitVec 8) : BitVec 8 := if bits &&& ~~~known = 0 then bits else 0

def new : VirtioNetHeader where
  flags := 0
  gsoType := 0
  hdrLen := 0
  gsoSize := 0
  csumStart := 0
  csumOffset := 0
  numBuffers := 1

def extract (pkt : List Byte) : Res (VhostError E) (VirtioNetHeader × List Byte) :=
  if pkt.length < 12 then .err (.notEnoughData pkt.length 12)
  else do
    let hdr := pkt.take 12
    let flags ← index hdr 0
    let gsoType ← index hdr 1
    let hdrLen ← le16In hdr 2 4
    let gsoSize ← le16In hdr 4 6
    let csumStart ← le16In hdr 6 8
    let csumOffset ← le16In hdr 8 10
    let numBuffers ← le16In hdr 10 12
    -- the known flags are 0x01, 0x02 and 0x04, the known offloads 0x01, 0x03, 0x04 and 0x80
    return ({ flags := knownBits 0x07 flags, gsoType := knownBits 0x87 gsoType, hdrLen, gsoSize, csumStart, csumOffset,
              numBuffers }, pkt.drop 12)

def asBytes (h : VirtioNetHeader) : Res ε (List Byte) := do
  let bytes := List.replicate 12 0
  let bytes ← setAt bytes 0 h.flags
  let bytes ← setAt bytes 1 h.gsoType
  let bytes ← copyAt bytes 2 4 (toLe16 h.hdrLen)
  let bytes ← copyAt bytes 4 6 (toLe16 h.gsoSize)
  let bytes ← copyAt bytes 6 8 (toLe16 h.csumStart)
  let bytes ← copyAt bytes 8 10 (toLe16 h.csumOffset)
  copyAt bytes 10 12 (toLe16 h.numBuffers)

end VirtioNetHeader

/-! ## The code outside -/

/-- **What a device calls**: `queue.iter(mem)` collected, `pop_descriptor_chain`, `head_index`, the reader and writer of
a chain, `add_used`, and the write to the call descriptor.  `Q` is a queue, `G` the guest memory with all rings in it,
`C` a chain, `R` and `W` its reader and writer, `E` their errors. -/
structure VirtioQueue (Q G C R W E : Type) where
  iter : Q → G → Except E (List C × Q)
  popDescriptorChain : Q → G → Option C × Q
  headIndex : C → BitVec 16
  reader : C → G → Except E R
  read : R → G → Nat → Except E (List Byte × R)
  writer : C → G → Except E W
  writeAll : W → G → List Byte → Except E W × G
  addUsed : Q → G → BitVec 16 → BitVec 32 → Except E Unit × Q × G
  notify : G → Except E Unit

/-- `VirtQueue`: `mapped` when its memory is set, `callFd` when its call descriptor is. -/
structure VirtQueue (Q : Type) where
  enabled : Bool
  queue : Q
  mapped : Bool
  callFd : Bool

variable {Q G C R W E : Type}

namespace VirtQueue

def ofExcept {α : Type} : Except E α → Res (VhostError E) α
  | .ok a => .ok a
  | .error e => .err (.lib e)

def checkKick (pkt : List Byte) : Res (VhostError E) Unit := do
  let enabled ← le64In pkt 0 8
  if enabled = 0 then .err .queueDisabled else return ()

def call (api : VirtioQueue Q G C R W E) (vq : VirtQueue Q) (guest : G) : Res (VhostError E) Unit :=
  if !vq.enabled then .err .queueDisabled
  else if vq.callFd then ofExcept (api.notify guest)
  else .ok ()

/-! ## Transmit -/

/-- The loop of `kick_tx` that reads a chain in pieces of 4096 bytes until one is short, `none` when `fuel` rounds do
not end it. -/
def readLoop (api : VirtioQueue Q G C R W E) (guest : G) : Nat → R → List Byte → Option (Except E (List Byte))
  | 0, _, _ => none
  | fuel + 1, r, pkt =>
    match api.read r guest 4096 with
    | .error e => some (.error e)
    | .ok (piece, r) =>
      let pkt := pkt ++ piece
      if piece.length < 4096 then some (.ok pkt) else readLoop api guest fuel r pkt

structure Tx (Q G : Type) where
  switch : VirtioSwitch
  queue : Q
  guest : G

/-- The body of `kick_tx` for one chain. -/
def sendChain (api : VirtioQueue Q G C R W E) (fuel switchPort : Nat) (tx : Tx Q G) (chain : C) :
    Option (Res (VhostError E) Unit × Tx Q G) :=
  match api.reader chain tx.guest with
  | .error e => some (.err (.lib e), tx)
  | .ok reader =>
    (readLoop api tx.guest fuel reader []).map fun pkt =>
      Res.andThen (do VirtioNetHeader.extract (← ofExcept pkt), tx) fun (_, pkt) tx =>
        let (res, switch) := tx.switch.process switchPort pkt
        Res.andThen (res.unwrap, { tx with switch }) fun _ tx =>
          let (res, queue, guest) :=
            api.addUsed tx.queue tx.guest (api.headIndex chain) (BitVec.ofNat 32 pkt.length)
          (ofExcept res, { tx with queue, guest })

def sendChains (api : VirtioQueue Q G C R W E) (fuel switchPort : Nat) :
    List C → Tx Q G → Option (Res (VhostError E) Unit × Tx Q G)
  | [], tx => some (.ok (), tx)
  | chain :: chains, tx =>
    match sendChain api fuel switchPort tx chain with
    | none => none
    | some (.ok _, tx) => sendChains api fuel switchPort chains tx
    | some (r, tx) => some (r, tx)

def kickTx (api : VirtioQueue Q G C R W E) (fuel : Nat) (vq : VirtQueue Q) (tx : Tx Q G) (pkt : List Byte)
    (switchPort : Nat) : Option (Res (VhostError E) Unit × Tx Q G) :=
  match (checkKick pkt : Res (VhostError E) Unit) with
  | .err e => some (.err e, tx)
  | .panic p => some (.panic p, tx)
  | .ok _ =>
    if !vq.mapped then some (.err .noMappedMemory, tx)
    else
      match api.iter tx.queue tx.guest with
      | .error e => some (.err (.lib e), tx)
      | .ok (chains, queue) =>
        (sendChains api fuel switchPort chains { tx with queue }).map fun x =>
          Res.andThen x fun _ tx => (vq.call api tx.guest, tx)

/-! ## Receive -/

/-- A chain that was popped: the frame it was used for, and its writer after the last write to it. -/
structure ChainUse (C W : Type) where
  chain : C
  frame : Option EthernetPacket
  writer : Option W

inductive RxWarning where
  | exhausted
  | nonEmptyQueue
  deriving DecidableEq, Repr

/-- What `handle_rx_queued` works on: the queue, the guest memory and the pending frames; and a record of the chains
popped, the calls of `add_used` and the warnings, each in order. -/
structure Rx (Q G C W : Type) where
  vq : VirtQueue Q
  guest : G
  pending : List EthernetPacket
  popped : List (ChainUse C W)
  used : List (BitVec 16 × BitVec 32)
  warnings : List RxWarning

def put (api : VirtioQueue Q G C R W E) (bytes : List Byte) (x : W × G) : Res (VhostError E) Unit × (W × G) :=
  match api.writeAll x.1 x.2 bytes with
  | (.ok w, guest) => (.ok (), w, guest)
  | (.error e, guest) => (.err (.lib e), x.1, guest)

/-- The three writes of a frame, behind a virtio-net header; the number of bytes. -/
def writeFrame (api : VirtioQueue Q G C R W E) (pkt : EthernetPacket) (x : W × G) :
    Res (VhostError E) Nat × (W × G) :=
  Res.andThen (do return (← VirtioNetHeader.new.asBytes, ← pkt.frame.toBytes), x) fun (vhdr, frame) x =>
    Res.andThen (put api vhdr x) fun _ x =>
      Res.andThen (put api frame x) fun _ x =>
        Res.andThen (put api pkt.payload x) fun _ x => (.ok (vhdr.length + frame.length + pkt.payload.length), x)

/-- The body of the loop of `handle_rx_queued` once it has a chain and a frame. -/
def useChain (api : VirtioQueue Q G C R W E) (chain : C) (pkt : EthernetPacket) (rx : Rx Q G C W) :
    Res (VhostError E) Unit × Rx Q G C W :=
  match api.writer chain rx.guest with
  | .error e => (.err (.lib e), { rx with popped := rx.popped ++ [⟨chain, some pkt, none⟩] })
  | .ok w =>
    let (res, w, guest) := writeFrame api pkt (w, rx.guest)
    Res.andThen (res, { rx with guest, popped := rx.popped ++ [⟨chain, some pkt, some w⟩] }) fun sz rx =>
      let head := api.headIndex chain
      let (res, queue, guest) := api.addUsed rx.vq.queue rx.guest head (BitVec.ofNat 32 sz)
      (ofExcept res, { rx with vq := { rx.vq with queue }, guest, used := rx.used ++ [(head, BitVec.ofNat 32 sz)] })

/-- The loop of `handle_rx_queued`, `none` when `fuel` rounds do not end it. -/
def rxLoop (api : VirtioQueue Q G C R W E) : Nat → Rx Q G C W → Option (Res (VhostError E) Unit × Rx Q G C W)
  | 0, _ => none
  | fuel + 1, rx =>
    if rx.pending.isEmpty then some (.ok (), rx)
    else
      let (chain, queue) := api.popDescriptorChain rx.vq.queue rx.guest
      let rx := { rx with vq := { rx.vq with queue } }
      match chain with
      | none => some (.ok (), { rx with warnings := rx.warnings ++ [.exhausted] })
      | some chain =>
        match rx.pending with
        | [] =>
          some (.ok (), { rx with
            popped := rx.popped ++ [⟨chain, none, none⟩], warnings := rx.warnings ++ [.nonEmptyQueue] })
        | pkt :: pending =>
          match useChain api chain pkt { rx with pending } with
          | (.ok _, rx) => rxLoop api fuel rx
          | (r, rx) => some (r, rx)

def handleRxQueued (api : VirtioQueue Q G C R W E) (fuel : Nat) (rx : Rx Q G C W) :
    Option (Res (VhostError E) Unit × Rx Q G C W) :=
  if rx.pending.isEmpty then some (.ok (), rx)
  else if !rx.vq.mapped then some (.err .noMappedMemory, rx)
  else (rxLoop api fuel rx).map fun x => Res.andThen x fun _ rx => (rx.vq.call api rx.guest, rx)

def kickRx (api : VirtioQueue Q G C R W E) (fuel : Nat) (rx : Rx Q G C W) (pkt : List Byte) :
    Option (Res (VhostError E) Unit × Rx Q G C W) :=
  match (checkKick pkt : Res (VhostError E) Unit) with
  | .ok _ => handleRxQueued api fuel rx
  | .err e => some (.err e, rx)
  | .panic p => some (.panic p, rx)

end VirtQueue

/-! ## A guest with two rings -/

/-- A descriptor chain: its head, the bytes of its readable descriptors and the room of its writable ones. -/
structure RingChain where
  head : BitVec 16
  readable : List Byte
  room : Nat

structure RingGuest where
  avail : List RingChain
  used : List (BitVec 16 × BitVec 32)

/-- The library on such a guest; a queue is the index of its next available chain, a reader the bytes left, a writer
the room left and the bytes written.  A chain ends before its 2^32-th byte. -/
def ringQueue : VirtioQueue Nat RingGuest RingChain (List Byte) (Nat × List Byte) Unit where
  iter next guest := .ok (guest.avail.drop next, guest.avail.length)
  popDescriptorChain next guest :=
    match guest.avail[next]? with
    | some chain => (some chain, next + 1)
    | none => (none, next)
  headIndex chain := chain.head
  reader chain _ := .ok (chain.readable.take (2 ^ 32 - 1))
  read bytes _ n := .ok (bytes.take n, bytes.drop n)
  writer chain _ := .ok (min chain.room (2 ^ 32 - 1), [])
  writeAll w guest bytes :=
    if bytes.length ≤ w.1 then (.ok (w.1 - bytes.length, w.2 ++ bytes), guest) else (.error (), guest)
  addUsed next guest head len := (.ok (), next, { guest with used := guest.used ++ [(head, len)] })
  notify _ := .ok ()

end Oathgate
