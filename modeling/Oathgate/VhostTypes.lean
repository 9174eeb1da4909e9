import Oathgate.LibBuf
/-!
# VhostTypes — the payloads of control messages (`oathgate-vhost`: `types.rs`, `error.rs`)

A message of the front end has a type, flags, file descriptors in its control data and a payload, which each handler
reads as the type it expects (`TryFromPayload`).  All words are little-endian.
-/
namespace Oathgate

open Lib

inductive PayloadError where
  | missing
  | notEnoughData (got expected : Nat)
  | missingControlData
  | noFileDescriptorsFound
  | controlDataMismatch
  deriving DecidableEq, Repr

inductive MemoryError where
  | noMappedMemory
  | noHostToGuestMappingFound (vmm : BitVec 64)
  deriving DecidableEq, Repr

/-! ## Payload types -/

class TryFromPayload (α : Type) where
  tryFromPayload : List Byte → Res PayloadError α

open TryFromPayload

instance : TryFromPayload (BitVec 64) where
  tryFromPayload pkt := if pkt.length < 8 then .err (.notEnoughData pkt.length 8) else le64In pkt 0 8

structure VRingState where
  index : BitVec 32
  num : BitVec 32
  deriving DecidableEq, Repr

instance : TryFromPayload VRingState where
  tryFromPayload pkt :=
    if pkt.length < 8 then .err (.notEnoughData pkt.length 8)
    else do
      let index ← le32In pkt 0 4
      let num ← le32In pkt 4 8
      return { index, num }

/-- The next index of the available ring of a virtqueue, in the low sixteen bits of `avail`. -/
structure VRingDescriptor where
  index : BitVec 32
  avail : BitVec 32
  deriving DecidableEq, Repr

instance : TryFromPayload VRingDescriptor where
  tryFromPayload pkt :=
    if pkt.length < 8 then .err (.notEnoughData pkt.length 8)
    else do
      let index ← le32In pkt 0 4
      let avail ← le32In pkt 4 8
      return { index, avail }

-- `as_vec` writes four zeros where `avail` belongs
def VRingDescriptor.asVec (d : VRingDescriptor) : List Byte := toLe32 d.index ++ [0x00, 0x00, 0x00, 0x00]

structure VRingAddr where
  index : BitVec 32
  flags : BitVec 32
  descUserAddr : BitVec 64
  usedUserAddr : BitVec 64
  availUserAddr : BitVec 64
  logGuestAddr : BitVec 64
  deriving DecidableEq, Repr

instance : TryFromPayload VRingAddr where
  tryFromPayload pkt :=
    if pkt.length < 40 then .err (.notEnoughData pkt.length 40)
    else do
      let index ← le32In pkt 0 4
      let flags ← le32In pkt 4 8
      let descUserAddr ← le64In pkt 8 16
      let usedUserAddr ← le64In pkt 16 24
      let availUserAddr ← le64In pkt 24 32
      let logGuestAddr ← le64In pkt 32 40
      return { index, flags, descUserAddr, usedUserAddr, availUserAddr, logGuestAddr }

structure MemoryRegionDescription where
  guestAddress : BitVec 64
  size : BitVec 64
  userAddress : BitVec 64
  mmapOffset : BitVec 64
  deriving DecidableEq, Repr

instance : TryFromPayload MemoryRegionDescription where
  tryFromPayload pkt :=
    if pkt.length < 32 then .err (.notEnoughData pkt.length 32)
    else do
      let guestAddress ← le64In pkt 0 8
      let size ← le64In pkt 8 16
      let userAddress ← le64In pkt 16 24
      let mmapOffset ← le64In pkt 24 32
      return { guestAddress, size, userAddress, mmapOffset }

/-- The loop of `Vec<MemoryRegionDescription>::try_from_payload` up to region `i`. -/
def readRegions (pkt : List Byte) : Nat → Res PayloadError (List MemoryRegionDescription)
  | 0 => .ok []
  | i + 1 => do
    let regions ← readRegions pkt i
    let start := i * 32 + 8
    let region ← tryFromPayload (← slice pkt start (start + 32))
    return regions ++ [region]

instance : TryFromPayload (List MemoryRegionDescription) where
  tryFromPayload pkt :=
    if pkt.length < 40 then .err (.notEnoughData pkt.length 40)
    else do
      let numRegions := (← le32In pkt 0 4).toNat
      if pkt.length < numRegions * 32 + 8 then .err (.notEnoughData pkt.length 40)
      else readRegions pkt numRegions

/-- **A descriptor is read back with its index, and with no position.** -/
theorem VRingDescriptor.tryFromPayload_asVec (d : VRingDescriptor) :
    tryFromPayload d.asVec = .ok { d with avail := 0 } := by
  have hlen : d.asVec.length = 8 := rfl
  have hindex : (le32In d.asVec 0 4 : Res PayloadError (BitVec 32)) = .ok d.index := by
    rw [le32In_eq d.asVec 0 (by omega), asVec, le32At_toLe32]
  have havail : (le32In d.asVec 4 8 : Res PayloadError (BitVec 32)) = .ok 0 := by
    rw [le32In_eq d.asVec 4 (by omega)]
    exact congrArg Res.ok (show (0 : Byte) ++ (0 : Byte) ++ (0 : Byte) ++ (0 : Byte) = (0 : BitVec 32) from by decide)
  simp only [tryFromPayload]
  rw [if_neg (by omega), hindex, havail]
  rfl

/-! ## Messages -/

/-- `ControlMessageOwned`: file descriptors, or another kind of control data. -/
inductive ControlMessage where
  | scmRights (fds : List Nat)
  | other
  deriving DecidableEq, Repr

structure VHostHeader where
  ty : BitVec 32
  flags : BitVec 32
  ancillary : List ControlMessage
  payload : Option (List Byte)
  deriving DecidableEq, Repr

namespace VHostHeader

def ackRequired (hdr : VHostHeader) : Bool := hdr.flags &&& 0x08 == 0x08

def extractFd (hdr : VHostHeader) : Res PayloadError Nat :=
  match hdr.ancillary with
  | [] => .err .missingControlData
  | .scmRights [] :: _ => .err .noFileDescriptorsFound
  | .scmRights (fd :: _) :: _ => .ok fd
  | .other :: _ => .err .controlDataMismatch

def extractFds (hdr : VHostHeader) : Res PayloadError (List Nat) :=
  match hdr.ancillary with
  | [] => .err .missingControlData
  | .scmRights fds :: _ => .ok fds
  | .other :: _ => .err .controlDataMismatch

/-- `payload::<T>` -/
def read (α : Type) [TryFromPayload α] (hdr : VHostHeader) : Res PayloadError α :=
  match hdr.payload with
  | none => .err .missing
  | some pkt => tryFromPayload pkt

end VHostHeader

/-! ## Address translation -/

/-- `a + b` on `u64`; an overflow panics. -/
def addU64 {ε : Type} (a b : BitVec 64) : Res ε (BitVec 64) :=
  if a.toNat + b.toNat < 2 ^ 64 then .ok (a + b) else .panic .overflow

structure GuestMapping where
  hostStart : BitVec 64
  hostEnd : BitVec 64
  guest : BitVec 64
  size : BitVec 64
  deriving DecidableEq, Repr

namespace GuestMapping

variable {ε : Type}

def new (host guest size : BitVec 64) : Res ε GuestMapping := do
  return { hostStart := host, hostEnd := ← addU64 host size, guest, size }

def guestAddr (m : GuestMapping) (vmm : BitVec 64) : Res ε (Option (BitVec 64)) :=
  if m.hostStart ≤ vmm ∧ vmm ≤ m.hostEnd then do return some (← addU64 (vmm - m.hostStart) m.guest)
  else .ok none

end GuestMapping
end Oathgate
