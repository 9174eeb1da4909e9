import Oathgate.NetIpv4
/-!
# NetPacket — IPv4 packets (`oathgate-net`: `ipv4.rs`, `protocols.rs`)

An `Ipv4Packet` is its parsed header and the whole buffer, header included.  Address rewriting changes the header,
writes it back over the first twenty bytes and repairs the transport checksum; `fixTransportChecksum_frame` says which
bytes that can touch.
-/
namespace Oathgate

open Lib

def netProtocolIcmp : BitVec 8 := 1
def netProtocolTcp : BitVec 8 := 6
def netProtocolUdp : BitVec 8 := 17

structure Ipv4Packet where
  header : Ipv4Header
  data : List Byte
  deriving DecidableEq, Repr

namespace Ipv4Packet

variable {ε : Type}

def parse (data : List Byte) : Res ProtocolError Ipv4Packet := do
  let header ← Ipv4Header.extractFromSlice data
  return ⟨header, data⟩

def protocol (p : Ipv4Packet) : BitVec 8 := p.header.protocol

def src (p : Ipv4Packet) : Ipv4Addr := p.header.src

def dest (p : Ipv4Packet) : Ipv4Addr := p.header.dst

def headerLength (p : Ipv4Packet) : Nat := p.header.headerLength

def payload (p : Ipv4Packet) : Res ε (List Byte) := sliceFrom p.data p.headerLength

/-- Where the transport checksum lies in the payload. -/
def checksumField (proto : BitVec 8) : Option (Nat × Nat) :=
  if proto = netProtocolTcp then some (16, 18)
  else if proto = netProtocolUdp then some (6, 8)
  else none

def fixTransportChecksum (p : Ipv4Packet) : Res ε Ipv4Packet := do
  let payload ← p.payload
  match checksumField p.protocol with
  | none => return p
  | some (s, e) =>
    let payload ← copyAt payload s e [0, 0]
    let sum ← phChecksum p.src p.dest p.protocol payload
    let payload ← copyAt payload s e (toBe16 sum)
    return { p with data := p.data.take p.headerLength ++ payload }

def masquerade (p : Ipv4Packet) (ip : Ipv4Addr) : Res ε Ipv4Packet := do
  let header := p.header.masquerade ip
  let data ← header.asBytes p.data
  fixTransportChecksum ⟨header, data⟩

def reply (p : Ipv4Packet) (id : BitVec 16) (payload : List Byte) : Res ε Ipv4Header := p.header.genReply id payload

/-- A packet without options or fragments around a transport message. -/
def datagram (protocol : BitVec 8) (src dst : Ipv4Addr) (message : List Byte) : Ipv4Packet :=
  let header : Ipv4Header :=
    { version := 4, ihl := 5, length := BitVec.ofNat 16 (20 + message.length), id := 0, flags := 0, fragOffset := 0,
      ttl := 64, protocol, checksum := 0, src, dst }
  ⟨Ipv4Header.headerOf (header.wire 0 0 ++ message), header.wire 0 0 ++ message⟩

/-! ## The transport header -/

def transport (p : Ipv4Packet) : List Byte := p.data.drop p.headerLength

def srcPort (p : Ipv4Packet) : BitVec 16 := be16At p.transport 0

def dstPort (p : Ipv4Packet) : BitVec 16 := be16At p.transport 2

def icmpId (p : Ipv4Packet) : BitVec 16 := be16At p.transport 4

theorem payload_eq (p : Ipv4Packet) (h : p.headerLength ≤ p.data.length) :
    (p.payload : Res ε (List Byte)) = .ok p.transport := sliceFrom_eq _ _ h

theorem payload_eq_ok {p : Ipv4Packet} {b : List Byte} (h : (p.payload : Res ε (List Byte)) = .ok b) :
    p.headerLength ≤ p.data.length ∧ b = p.transport := by
  by_cases hl : p.headerLength ≤ p.data.length
  · rw [payload_eq p hl, Res.ok.injEq] at h
    exact ⟨hl, h.symm⟩
  · unfold payload sliceFrom slice at h
    rw [if_neg (by omega)] at h
    cases h

theorem length_transport (p : Ipv4Packet) : p.transport.length = p.data.length - p.headerLength := List.length_drop

theorem datagram_headerLength (protocol : BitVec 8) (src dst : Ipv4Addr) (message : List Byte) :
    (datagram protocol src dst message).headerLength = 20 := by
  show (((4 : Byte) <<< 4 ||| 5) &&& 0x0F).toNat * 4 = 20
  decide

theorem datagram_length (protocol : BitVec 8) (src dst : Ipv4Addr) (message : List Byte) :
    20 ≤ (datagram protocol src dst message).data.length := by
  unfold datagram
  simp only [List.length_append, Ipv4Header.length_wire]
  omega

theorem payload_datagram (protocol : BitVec 8) (src dst : Ipv4Addr) (message : List Byte) :
    ((datagram protocol src dst message).payload : Res ε (List Byte)) = .ok message := by
  have hheader := datagram_headerLength protocol src dst message
  rw [payload_eq _ (by rw [hheader]; exact datagram_length protocol src dst message), transport, hheader]
  rfl

/-- **A parsed packet is its buffer's own fields.** -/
theorem parse_eq_ok {data : List Byte} {p : Ipv4Packet} (h : parse data = .ok p) :
    20 ≤ data.length ∧ Ipv4Header.ihlBytes data ≤ data.length ∧ p = ⟨Ipv4Header.headerOf data, data⟩ := by
  unfold parse at h
  rw [Res.bind_eq_ok] at h
  obtain ⟨hdr, hx, hp⟩ := h
  by_cases h0 : data = []
  · subst h0; cases hx
  by_cases hs : data.length < Ipv4Header.ihlBytes data
  · rw [Ipv4Header.extractFromSlice_short data h0 hs] at hx
    cases hx
  by_cases h20 : data.length < 20
  · exact absurd (by rw [hx]; simp) (Ipv4Header.extractFromSlice_panic data h0 (by omega) h20)
  · rw [Ipv4Header.extractFromSlice_eq data (by omega) (by omega), Res.ok.injEq] at hx
    cases hp
    exact ⟨by omega, by omega, by rw [hx]⟩

theorem parse_eq (data : List Byte) (h : Ipv4Header.ihlBytes data ≤ data.length) (h20 : 20 ≤ data.length) :
    parse data = .ok ⟨Ipv4Header.headerOf data, data⟩ := by
  unfold parse
  rw [Ipv4Header.extractFromSlice_eq data h h20]
  rfl

theorem parse_datagram (protocol : BitVec 8) (src dst : Ipv4Addr) (message : List Byte) :
    parse (datagram protocol src dst message).data = .ok (datagram protocol src dst message) := by
  have hlen := datagram_length protocol src dst message
  have hihl : Ipv4Header.ihlBytes (datagram protocol src dst message).data = 20 :=
    datagram_headerLength protocol src dst message
  exact parse_eq _ (by omega) hlen

/-- **Repairing the transport checksum** keeps the header, the length and every byte outside the checksum field. -/
theorem fixTransportChecksum_frame {p p' : Ipv4Packet} (h : (p.fixTransportChecksum : Res ε Ipv4Packet) = .ok p') :
    p'.header = p.header ∧ p'.data.length = p.data.length ∧
      ∀ i, (∀ s e, checksumField p.protocol = some (s, e) → i < p.headerLength + s ∨ p.headerLength + e ≤ i) →
        byteAt p'.data i = byteAt p.data i := by
  unfold fixTransportChecksum at h
  rw [Res.bind_eq_ok] at h
  obtain ⟨b, hb, h⟩ := h
  obtain ⟨hl, rfl⟩ := payload_eq_ok hb
  split at h
  · cases h
    exact ⟨rfl, rfl, fun _ _ => rfl⟩
  · rename_i s e hse
    simp only [Res.bind_eq_ok, Res.pure_eq, Res.ok.injEq] at h
    obtain ⟨b₁, h1, sum, -, b₂, h2, rfl⟩ := h
    obtain ⟨hl1, hf1⟩ := copyAt_frame h1
    obtain ⟨hl2, hf2⟩ := copyAt_frame h2
    have hlt := length_transport p
    refine ⟨rfl, by simp only [List.length_append, List.length_take, hl2, hl1]; omega, ?_⟩
    intro i hi
    have hi' := hi s e hse
    simp only
    have htake : (p.data.take p.headerLength).length = p.headerLength := by rw [List.length_take]; omega
    by_cases hip : i < p.headerLength
    · rw [byteAt_append_left _ _ _ (by omega), byteAt_take _ _ _ hip]
    · rw [byteAt_append_right _ _ _ (by omega), htake, hf2 _ (by omega), hf1 _ (by omega), transport, byteAt_drop]
      congr 1
      omega

end Ipv4Packet
end Oathgate
