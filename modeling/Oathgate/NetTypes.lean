import Oathgate.LibBuf
/-!
# NetTypes — errors, hardware addresses and ethertypes (`oathgate-net`: `lib.rs`, `types.rs`, `types/mac.rs`)
-/
namespace Oathgate

open Lib

/-- `ProtocolError`, its texts as the source formats them. -/
inductive ProtocolError where
  | notEnoughData (got expected : Nat)
  | malformedPacket (msg : String)
  | other (msg : String)
  deriving DecidableEq, Repr

/-- `{n:04x}`: lower-case hexadecimal, padded with zeros to four digits. -/
def hex04 (n : Nat) : String :=
  String.ofList (List.replicate (4 - (Nat.toDigits 16 n).length) '0' ++ Nat.toDigits 16 n)

abbrev Ipv4Addr := BitVec 32
abbrev Ipv6Addr := BitVec 128

inductive IpAddr where
  | v4 (ip : Ipv4Addr)
  | v6 (ip : Ipv6Addr)
  deriving DecidableEq, Repr

/-- `Ipv4Addr::is_broadcast`: the limited broadcast address 255.255.255.255. -/
def isBroadcastV4 (ip : Ipv4Addr) : Bool := ip == BitVec.allOnes 32

/-! ## Hardware addresses -/

/-- `MacAddress([u8; 6])` -/
structure MacAddress where
  octets : List Byte
  length_octets : octets.length = 6
  deriving DecidableEq, Repr

namespace MacAddress

theorem ext {a b : MacAddress} (h : a.octets = b.octets) : a = b := by
  cases a; cases b; simp_all

def broadcast : MacAddress := ⟨[0xFF, 0xFF, 0xFF, 0xFF, 0xFF, 0xFF], rfl⟩

/-- `MacAddress::parse`: the first six bytes. -/
def parse (bytes : List Byte) : Res ProtocolError MacAddress :=
  if h : bytes.length < 6 then .err (.notEnoughData bytes.length 6)
  else .ok ⟨bytes.take 6, by rw [List.length_take]; omega⟩

def asBytes (m : MacAddress) : List Byte := m.octets

def isBroadcast (m : MacAddress) : Bool := m == broadcast

theorem parse_of_length (bytes : List Byte) (h : 6 ≤ bytes.length) :
    parse bytes = .ok ⟨bytes.take 6, by rw [List.length_take]; omega⟩ := by
  unfold parse
  rw [dif_neg (by omega)]

theorem parse_slice (b : List Byte) (s : Nat) (h : s + 6 ≤ b.length) :
    parse ((b.drop s).take 6) = .ok ⟨(b.drop s).take 6, length_slice b s 6 h⟩ := by
  have hl := length_slice b s 6 h
  rw [parse_of_length _ (by omega)]
  simp only [List.take_take, Nat.min_self]

/-- The six bytes at an offset of a buffer. -/
def readAt (b : List Byte) (i : Nat) : MacAddress :=
  ⟨[byteAt b i, byteAt b (i + 1), byteAt b (i + 2), byteAt b (i + 3), byteAt b (i + 4), byteAt b (i + 5)], rfl⟩

theorem slice_readAt (b : List Byte) (i : Nat) (h : i + 6 ≤ b.length) : (b.drop i).take 6 = (readAt b i).octets := by
  have hdrop : 6 ≤ (b.drop i).length := by
    rw [List.length_drop]
    omega
  have htake : ∀ c : List Byte, 6 ≤ c.length → c.take 6 = (readAt c 0).octets := by
    intro c hc
    match c, hc with
    | _ :: _ :: _ :: _ :: _ :: _ :: _, _ => rfl
  rw [htake _ hdrop]
  unfold readAt
  simp only [byteAt_drop, Nat.add_zero]

theorem parse_readAt (b : List Byte) (i : Nat) (h : i + 6 ≤ b.length) :
    parse ((b.drop i).take 6) = .ok (readAt b i) := by
  rw [parse_slice b i h, Res.ok.injEq]
  exact ext (slice_readAt b i h)

theorem readAt_octets (a : List Byte) (m : MacAddress) (rest : List Byte) {i : Nat} (hi : a.length = i) :
    readAt (a ++ (m.octets ++ rest)) i = m := by
  have hlen : i + 6 ≤ (a ++ (m.octets ++ rest)).length := by
    rw [List.length_append, List.length_append, m.length_octets]
    omega
  apply ext
  rw [← slice_readAt _ i hlen, List.drop_left' hi, List.take_left' m.length_octets]

theorem parse_short (bytes : List Byte) (h : bytes.length < 6) :
    parse bytes = .err (.notEnoughData bytes.length 6) := by
  unfold parse
  rw [dif_pos h]

end MacAddress

def guestMac (b : Byte) : MacAddress := ⟨[0x52, 0x54, 0, 0, 0, b], rfl⟩

/-! ## Ethertypes -/

inductive EtherType where
  | ipv4
  | ipv6
  | arp
  deriving DecidableEq, Repr

namespace EtherType

def asU16 : EtherType → BitVec 16
  | .ipv4 => 0x0800
  | .ipv6 => 0x86DD
  | .arp => 0x0806

/-- `TryFrom<u16> for EtherType` -/
def tryFrom (value : BitVec 16) : Res ProtocolError EtherType :=
  if value = EtherType.ipv4.asU16 then .ok .ipv4
  else if value = EtherType.ipv6.asU16 then .ok .ipv6
  else if value = EtherType.arp.asU16 then .ok .arp
  else .err (.malformedPacket ("unknown ethertype: 0x" ++ hex04 value.toNat))

/-- `TryFrom<&[u8]> for EtherType` -/
def tryFromSlice (value : List Byte) : Res ProtocolError EtherType :=
  if value.length < 2 then .err (.notEnoughData value.length 2)
  else do tryFrom (← be16In value 0 2)

/-- `Debug for EtherType` -/
def debug (e : EtherType) : String := "EtherType(0x" ++ hex04 e.asU16.toNat ++ ")"

theorem tryFrom_eq_ok (value : BitVec 16) (e : EtherType) : tryFrom value = .ok e ↔ value = e.asU16 := by
  unfold tryFrom
  constructor
  · intro h
    split at h
    · cases h; assumption
    split at h
    · cases h; assumption
    split at h
    · cases h; assumption
    · cases h
  · rintro rfl
    cases e <;> rfl

theorem returns_tryFrom (value : BitVec 16) : (tryFrom value).Returns := by
  unfold tryFrom
  split
  · simp
  split
  · simp
  split <;> simp

theorem tryFromSlice_eq (value : List Byte) (h : 2 ≤ value.length) :
    tryFromSlice value = tryFrom (be16At value 0) := by
  have hlen : ¬ value.length < 2 := by omega
  unfold tryFromSlice
  rw [if_neg hlen, be16In_eq value 0 h, Res.bind_ok]

theorem tryFromSlice_slice (b : List Byte) (s : Nat) (h : s + 2 ≤ b.length) :
    tryFromSlice ((b.drop s).take 2) = tryFrom (be16At b s) := by
  have hl := length_slice b s 2 h
  rw [tryFromSlice_eq _ (by omega), be16At_slice b s h]

end EtherType
end Oathgate
