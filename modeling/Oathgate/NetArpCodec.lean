import Oathgate.NetArp
/-!
# NetArpCodec — ARP packets on the wire (`oathgate-net`: `protocols/arp.rs`)

The decoder finds the four addresses from the two lengths of the packet, the encoder from the version of its addresses.
On what the decoder accepts the two agree, so the codec is exact in both directions (`arp_codec_round_trips`).  The
decoder reads the target's hardware address before it looks at the length of the protocol's, which is what
`arp_accepts_iff` is about.
-/
namespace Oathgate

open Lib

variable {ε : Type}

/-- `octets` of an address. -/
def IpAddr.octets : IpAddr → List Byte
  | .v4 ip => toBe32 ip
  | .v6 ip => toBe128 ip

namespace ArpPacket

/-! ## The layout -/

/-- The packet as its bytes. -/
def wire (p : ArpPacket) : List Byte :=
  toBe16 p.hardwareType ++ toBe16 p.protocolType.asU16 ++ [p.hardwareLen] ++ [p.protocolLen] ++ toBe16 p.operation ++
    p.sha.octets ++ p.spa.octets ++ p.tha.octets ++ p.tpa.octets

/-- An ethernet packet for the addresses of its protocol. -/
def WellFormed (p : ArpPacket) : Prop :=
  p.hardwareType = 1 ∧ p.hardwareLen = 6 ∧
    ((p.protocolType = .ipv4 ∧ p.protocolLen = 4 ∧ ∃ spa tpa, p.spa = .v4 spa ∧ p.tpa = .v4 tpa) ∨
      (p.protocolType = .ipv6 ∧ p.protocolLen = 16 ∧ ∃ spa tpa, p.spa = .v6 spa ∧ p.tpa = .v6 tpa))

theorem WellFormed.sameVersion {p : ArpPacket} (h : p.WellFormed) : p.SameVersion := by
  obtain ⟨-, -, h | h⟩ := h
  · exact Or.inl h.2.2
  · exact Or.inr h.2.2

theorem length_wire {p : ArpPacket} (h : p.SameVersion) : p.wire.length = p.size := by
  have hsha := p.sha.length_octets
  have htha := p.tha.length_octets
  unfold wire
  simp only [List.length_append, List.length_singleton, hsha, htha]
  rcases h with ⟨spa, tpa, hs, ht⟩ | ⟨spa, tpa, hs, ht⟩
  · simp [size, hs, ht, IpAddr.octets, toBe16, toBe32]
  · simp [size, hs, ht, IpAddr.octets, toBe16, length_toBe128]

/-- The packet a buffer holds behind addresses of four bytes. -/
def read4 (b : List Byte) : ArpPacket :=
  { hardwareType := 1, protocolType := .ipv4, hardwareLen := 6, protocolLen := 4, operation := be16At b 6
    sha := .readAt b 8, spa := .v4 (be32At b 14), tha := .readAt b 18, tpa := .v4 (be32At b 24) }

/-- The packet a buffer holds behind addresses of sixteen bytes. -/
def read6 (b : List Byte) : ArpPacket :=
  { hardwareType := 1, protocolType := .ipv6, hardwareLen := 6, protocolLen := 16, operation := be16At b 6
    sha := .readAt b 8, spa := .v6 (be128At b 14), tha := .readAt b 30, tpa := .v6 (be128At b 36) }

/-! ## Decoding -/

/-- A packet with addresses of four bytes, and one with addresses of sixteen. -/
def Holds4 (b : List Byte) : Prop := Checked b .ipv4 ∧ byteAt b 5 = 4
def Holds6 (b : List Byte) : Prop := Checked b .ipv6 ∧ byteAt b 5 = 16 ∧ 52 ≤ b.length

theorem parse_read4 {b : List Byte} (h : Holds4 b) : parse b = .ok (read4 b) := by
  obtain ⟨hchecked, hplen⟩ := h
  have hlen := hchecked.1
  rw [parse_checked b .ipv4 hchecked, hplen]
  simp only [show (4 : BitVec 8).toNat = 4 from rfl, Nat.reduceAdd]
  rw [slice_eq b 18 24 (by omega) (by omega), Res.bind_ok, MacAddress.parse_readAt b 18 (by omega), Res.bind_ok]
  unfold parseAddresses
  rw [if_pos rfl, be32In_eq b 14 (by omega), be32In_eq b 24 (by omega)]
  rfl

theorem parse_read6 {b : List Byte} (h : Holds6 b) : parse b = .ok (read6 b) := by
  obtain ⟨hchecked, hplen, hlen⟩ := h
  rw [parse_checked b .ipv6 hchecked, hplen]
  simp only [show (16 : BitVec 8).toNat = 16 from rfl, Nat.reduceAdd]
  rw [slice_eq b 30 36 (by omega) (by omega), Res.bind_ok, MacAddress.parse_readAt b 30 (by omega), Res.bind_ok]
  unfold parseAddresses
  rw [if_pos rfl, be128In_eq b 14 (by omega), be128In_eq b 36 (by omega)]
  rfl

theorem parseAddresses_ok {b : List Byte} {ty : EtherType} {plen : BitVec 8} {i j k l : Nat} {r : IpAddr × IpAddr}
    (h : parseAddresses b ty plen i j k l = .ok r) : (ty = .ipv4 ∧ plen = 4) ∨ (ty = .ipv6 ∧ plen = 16) := by
  unfold parseAddresses at h
  cases ty with
  | arp => cases h
  | ipv4 =>
    by_cases hp : plen = 4
    · exact Or.inl ⟨rfl, hp⟩
    · rw [if_neg hp] at h
      cases h
  | ipv6 =>
    by_cases hp : plen = 16
    · exact Or.inr ⟨rfl, hp⟩
    · rw [if_neg hp] at h
      cases h

/-- **A packet the decoder accepts** is the one its buffer holds, at the fixed offsets of its version. -/
theorem parse_cases {b : List Byte} {p : ArpPacket} (h : parse b = .ok p) :
    (Holds4 b ∧ p = read4 b) ∨ (Holds6 b ∧ p = read6 b) := by
  have hfits : Fits b := by
    rw [← returns_parse, h]
    exact Res.returns_ok p
  by_cases hchecked : ∃ ty, Checked b ty
  · obtain ⟨ty, hchecked⟩ := hchecked
    have hp := h
    rw [parse_checked b ty hchecked] at hp
    simp only [Res.bind_eq_ok] at hp
    obtain ⟨-, -, -, -, addresses, haddr, -⟩ := hp
    rcases parseAddresses_ok haddr with ⟨rfl, hplen⟩ | ⟨rfl, hplen⟩
    · have hholds : Holds4 b := ⟨hchecked, hplen⟩
      rw [parse_read4 hholds, Res.ok.injEq] at h
      exact Or.inl ⟨hholds, h.symm⟩
    · have hholds : Holds6 b := ⟨hchecked, hplen, (hfits .ipv6 hchecked).2 rfl hplen⟩
      rw [parse_read6 hholds, Res.ok.injEq] at h
      exact Or.inr ⟨hholds, h.symm⟩
  · obtain ⟨e, he⟩ := parse_unchecked b fun ty hty => hchecked ⟨ty, hty⟩
    rw [he] at h
    cases h

/-! ## Encoding -/

/-- The fixed fields and the sender's hardware address, at the front of the buffer. -/
def head (p : ArpPacket) : List Byte :=
  toBe16 p.hardwareType ++ toBe16 p.protocolType.asU16 ++ [p.hardwareLen] ++ [p.protocolLen] ++ toBe16 p.operation ++
    p.sha.asBytes

theorem length_head (p : ArpPacket) : p.head.length = 14 := by
  unfold head MacAddress.asBytes
  simp [toBe16, p.sha.length_octets]

theorem wire_head (p : ArpPacket) : p.wire = p.head ++ p.spa.octets ++ p.tha.asBytes ++ p.tpa.octets := rfl

theorem asBytes_head (p : ArpPacket) {buf : List Byte} (hl : 14 ≤ buf.length) :
    (p.asBytes buf : Res ε (List Byte)) =
      match p.spa, p.tpa with
      | .v4 spa, .v4 tpa => do
        let pkt ← copyAt (p.head ++ buf.drop 14) 14 18 (toBe32 spa)
        let pkt ← copyAt pkt 18 24 p.tha.asBytes
        copyAt pkt 24 28 (toBe32 tpa)
      | .v6 spa, .v6 tpa => do
        let pkt ← copyAt (p.head ++ buf.drop 14) 14 30 (toBe128 spa)
        let pkt ← copyAt pkt 30 36 p.tha.asBytes
        copyAt pkt 36 52 (toBe128 tpa)
      | _, _ => return p.head ++ buf.drop 14 := by
  have hsha : p.sha.asBytes.length = 6 := p.sha.length_octets
  have hlen : ∀ k, (buf.drop k).length = buf.length - k := fun k => List.length_drop
  have htwo : ∀ x, (toBe16 x).length = 2 := fun _ => rfl
  unfold asBytes
  -- the fields are written in order, each after the ones before it
  rw [← List.nil_append buf, copyAt_append [] buf _ 0 2 rfl rfl (by rw [htwo]; omega), Res.bind_ok, List.nil_append,
    copyAt_append _ _ _ 2 4 rfl rfl (by rw [hlen, htwo, htwo]; omega), Res.bind_ok]
  simp only [List.drop_drop, htwo, Nat.reduceAdd]
  rw [setAt_append _ _ 4 _ rfl (by rw [hlen]; omega), Res.bind_ok, List.drop_drop,
    setAt_append _ _ 5 _ rfl (by rw [hlen]; omega), Res.bind_ok, List.drop_drop,
    copyAt_append _ _ _ 6 8 rfl rfl (by rw [hlen, htwo]; omega), Res.bind_ok, List.drop_drop,
    copyAt_append _ _ _ 8 14 rfl (by rw [hsha]) (by rw [hlen, hsha, htwo]; omega), Res.bind_ok, List.drop_drop, hsha]
  rfl

/-- Two addresses and the hardware address between them, in the rest of the buffer. -/
theorem copyAt_addresses {head rest a m c : List Byte} {i j k l : Nat} (hi : head.length = i) (hj : i + a.length = j)
    (hk : j + m.length = k) (hl : k + c.length = l) (hrest : rest.length = a.length + m.length + c.length) :
    (do
      let pkt ← copyAt (head ++ rest) i j a
      let pkt ← copyAt pkt j k m
      copyAt pkt k l c : Res ε (List Byte)) = .ok (head ++ a ++ m ++ c) := by
  have hnil : rest.drop (a.length + m.length + c.length) = [] := List.drop_eq_nil_of_le (by omega)
  rw [copyAt_append head rest a i j hi hj (by omega), Res.bind_ok,
    copyAt_append _ _ m j k (by rw [List.length_append]; omega) hk (by rw [List.length_drop]; omega), Res.bind_ok,
    List.drop_drop,
    copyAt_append _ _ c k l (by rw [List.length_append, List.length_append]; omega) hl
      (by rw [List.length_drop]; omega),
    List.drop_drop, hnil, List.append_nil]

/-- **`as_bytes` writes the layout**, whatever the buffer of the packet's size held. -/
theorem asBytes_wire {p : ArpPacket} (h : p.SameVersion) {buf : List Byte} (hl : buf.length = p.size) :
    (p.asBytes buf : Res ε (List Byte)) = .ok p.wire := by
  have htha : p.tha.asBytes.length = 6 := p.tha.length_octets
  have h28 := h.size_ge
  have hrest : (buf.drop 14).length = p.size - 14 := by rw [List.length_drop, hl]
  rw [asBytes_head p (by omega), wire_head]
  rcases h with ⟨spa, tpa, hs, ht⟩ | ⟨spa, tpa, hs, ht⟩
  · have hsize : p.size = 28 := by simp [size, hs, ht]
    have hfour : ∀ x, (toBe32 x).length = 4 := fun _ => rfl
    rw [hs, ht]
    exact copyAt_addresses p.length_head (by rw [hfour]) (by rw [htha]) (by rw [hfour])
      (by rw [hrest, hsize, hfour, htha, hfour])
  · have hsize : p.size = 52 := by simp [size, hs, ht]
    rw [hs, ht]
    exact copyAt_addresses p.length_head (by rw [length_toBe128]) (by rw [htha]) (by rw [length_toBe128])
      (by rw [hrest, hsize, length_toBe128, htha, length_toBe128])

/-! ## The codec -/

theorem head_read {b : List Byte} {p : ArpPacket} (h : Checked b p.protocolType) (hhw : p.hardwareType = 1)
    (hhl : p.hardwareLen = 6) (hpl : p.protocolLen = byteAt b 5) (hop : p.operation = be16At b 6)
    (hsha : p.sha = .readAt b 8) : p.head = b.take 14 := by
  obtain ⟨hlen, hty, hword, hbyte⟩ := h
  unfold head MacAddress.asBytes
  rw [hhw, ← hword, ← hty, hhl, ← hbyte, hpl, hop, hsha, ← slice_be16 b 0 (by omega), ← slice_be16 b 2 (by omega),
    ← slice_byte b 4 (by omega), ← slice_byte b 5 (by omega), ← slice_be16 b 6 (by omega),
    ← MacAddress.slice_readAt b 8 (by omega), List.drop_zero]
  simp only [← List.take_add, Nat.reduceAdd]

theorem wire_read4 {b : List Byte} (h : Holds4 b) : (read4 b).wire = b.take 28 := by
  obtain ⟨hchecked, hplen⟩ := h
  have hlen := hchecked.1
  have hhead : (read4 b).head = b.take 14 := head_read hchecked rfl rfl hplen.symm rfl rfl
  have htha : (read4 b).tha.asBytes = (b.drop 18).take 6 := (MacAddress.slice_readAt b 18 (by omega)).symm
  have hspa : (read4 b).spa.octets = (b.drop 14).take 4 := (slice_be32 b 14 (by omega)).symm
  have htpa : (read4 b).tpa.octets = (b.drop 24).take 4 := (slice_be32 b 24 (by omega)).symm
  rw [wire_head, hhead, hspa, htha, htpa, ← List.take_add, ← List.take_add, ← List.take_add]

theorem wire_read6 {b : List Byte} (h : Holds6 b) : (read6 b).wire = b.take 52 := by
  obtain ⟨hchecked, hplen, hlen⟩ := h
  have hhead : (read6 b).head = b.take 14 := head_read hchecked rfl rfl hplen.symm rfl rfl
  have htha : (read6 b).tha.asBytes = (b.drop 30).take 6 := (MacAddress.slice_readAt b 30 (by omega)).symm
  have hspa : (read6 b).spa.octets = (b.drop 14).take 16 := (slice_be128 b 14 (by omega)).symm
  have htpa : (read6 b).tpa.octets = (b.drop 36).take 16 := (slice_be128 b 36 (by omega)).symm
  rw [wire_head, hhead, hspa, htha, htpa, ← List.take_add, ← List.take_add, ← List.take_add]

/-- **What was decoded is written back as it was.** -/
theorem wire_of_parse {b : List Byte} {p : ArpPacket} (h : parse b = .ok p) : p.wire = b.take p.size := by
  rcases parse_cases h with ⟨hholds, rfl⟩ | ⟨hholds, rfl⟩
  · exact wire_read4 hholds
  · exact wire_read6 hholds

theorem wellFormed_of_parse {b : List Byte} {p : ArpPacket} (h : parse b = .ok p) : p.WellFormed := by
  rcases parse_cases h with ⟨-, rfl⟩ | ⟨-, rfl⟩
  · exact ⟨rfl, rfl, Or.inl ⟨rfl, rfl, _, _, rfl, rfl⟩⟩
  · exact ⟨rfl, rfl, Or.inr ⟨rfl, rfl, _, _, rfl, rfl⟩⟩

theorem checked_wire {p : ArpPacket} (h : p.WellFormed) : Checked p.wire p.protocolType := by
  have h28 := h.sameVersion.size_ge
  have hword : be16At p.wire 0 = p.hardwareType := be16At_toBe16 p.hardwareType []
  have hty : be16At p.wire 2 = p.protocolType.asU16 := be16At_toBe16 p.protocolType.asU16 []
  have hbyte : byteAt p.wire 4 = p.hardwareLen := rfl
  refine ⟨?_, hty, hword.trans h.1, hbyte.trans h.2.1⟩
  rw [length_wire h.sameVersion]
  exact h28

/-- The sender's fields in the layout. -/
theorem sender_wire (p : ArpPacket) : be16At p.wire 6 = p.operation ∧ MacAddress.readAt p.wire 8 = p.sha := by
  refine ⟨be16At_toBe16 p.operation [], ?_⟩
  unfold wire
  rw [List.append_assoc _ p.spa.octets, List.append_assoc _ (p.spa.octets ++ _), List.append_assoc _ p.sha.octets]
  exact MacAddress.readAt_octets _ p.sha _ rfl

theorem read4_wire {p : ArpPacket} (h : p.WellFormed) {spa tpa : Ipv4Addr} (hs : p.spa = .v4 spa) (ht : p.tpa = .v4 tpa)
    (hty : p.protocolType = .ipv4) (hpl : p.protocolLen = 4) : read4 p.wire = p := by
  have hhead := p.length_head
  obtain ⟨hop, hsha⟩ := p.sender_wire
  have hwire : p.wire = p.head ++ toBe32 spa ++ p.tha.octets ++ (toBe32 tpa ++ []) := by
    rw [wire_head, hs, ht, List.append_nil]
    rfl
  have htpa : be32At p.wire 24 = tpa := by
    rw [hwire]
    exact be32At_append _ tpa [] (by simp [hhead, toBe32, p.tha.length_octets])
  have htha : MacAddress.readAt p.wire 18 = p.tha := by
    rw [hwire, List.append_assoc _ p.tha.octets]
    exact MacAddress.readAt_octets _ p.tha _ (by simp [hhead, toBe32])
  have hspa : be32At p.wire 14 = spa := by
    rw [hwire, List.append_assoc _ p.tha.octets, List.append_assoc]
    exact be32At_append _ spa _ hhead
  obtain ⟨hhw, hhl, -⟩ := h
  unfold read4
  rw [hop, hsha, hspa, htha, htpa, ← hs, ← ht, ← hty, ← hpl, ← hhw, ← hhl]

theorem read6_wire {p : ArpPacket} (h : p.WellFormed) {spa tpa : Ipv6Addr} (hs : p.spa = .v6 spa) (ht : p.tpa = .v6 tpa)
    (hty : p.protocolType = .ipv6) (hpl : p.protocolLen = 16) : read6 p.wire = p := by
  have hhead := p.length_head
  obtain ⟨hop, hsha⟩ := p.sender_wire
  have hwire : p.wire = p.head ++ toBe128 spa ++ p.tha.octets ++ (toBe128 tpa ++ []) := by
    rw [wire_head, hs, ht, List.append_nil]
    rfl
  have htpa : be128At p.wire 36 = tpa := by
    rw [hwire]
    exact be128At_toBe128 _ tpa [] (by simp [hhead, length_toBe128, p.tha.length_octets])
  have htha : MacAddress.readAt p.wire 30 = p.tha := by
    rw [hwire, List.append_assoc _ p.tha.octets]
    exact MacAddress.readAt_octets _ p.tha _ (by simp [hhead, length_toBe128])
  have hspa : be128At p.wire 14 = spa := by
    rw [hwire, List.append_assoc _ p.tha.octets, List.append_assoc]
    exact be128At_toBe128 _ spa _ hhead
  obtain ⟨hhw, hhl, -⟩ := h
  unfold read6
  rw [hop, hsha, hspa, htha, htpa, ← hs, ← ht, ← hty, ← hpl, ← hhw, ← hhl]

/-- **What was encoded is decoded as it was.** -/
theorem parse_wire {p : ArpPacket} (h : p.WellFormed) : parse p.wire = .ok p := by
  have hchecked := checked_wire h
  have hplen : byteAt p.wire 5 = p.protocolLen := rfl
  obtain ⟨-, -, ⟨hty, hpl, spa, tpa, hs, ht⟩ | ⟨hty, hpl, spa, tpa, hs, ht⟩⟩ := id h
  · have hholds : Holds4 p.wire := ⟨hty ▸ hchecked, hplen.trans hpl⟩
    rw [parse_read4 hholds, read4_wire h hs ht hty hpl]
  · have hlen : p.wire.length = 52 := by
      rw [length_wire h.sameVersion]
      simp [size, hs, ht]
    have hholds : Holds6 p.wire := ⟨hty ▸ hchecked, hplen.trans hpl, Nat.le_of_eq hlen.symm⟩
    rw [parse_read6 hholds, read6_wire h hs ht hty hpl]

/-- **The codec of ARP packets is exact.**  What `parse` accepted is written back byte for byte by `as_bytes`, into
any buffer of the packet's size, which is 28 for IPv4 and 52 for IPv6, and these bytes are parsed as the same packet;
and a packet of well-formed fields is parsed from what is written of it. -/
theorem arp_codec_round_trips :
    (∀ (b : List Byte) (p : ArpPacket), parse b = .ok p → ∀ buf : List Byte, buf.length = p.size →
      (p.asBytes buf : Res ε (List Byte)) = .ok (b.take p.size) ∧ parse (b.take p.size) = .ok p ∧
        (p.protocolType = .ipv4 ∧ p.size = 28 ∨ p.protocolType = .ipv6 ∧ p.size = 52) ∧ p.size ≤ b.length) ∧
    ∀ p : ArpPacket, p.WellFormed → ∀ buf : List Byte, buf.length = p.size →
      ∃ bytes, (p.asBytes buf : Res ε (List Byte)) = .ok bytes ∧ parse bytes = .ok p := by
  constructor
  · intro b p h buf hbuf
    have hwf := wellFormed_of_parse h
    have hwire := wire_of_parse h
    rw [← hwire]
    refine ⟨asBytes_wire hwf.sameVersion hbuf, parse_wire hwf, ?_⟩
    rcases parse_cases h with ⟨hholds, rfl⟩ | ⟨hholds, rfl⟩
    · exact ⟨Or.inl ⟨rfl, rfl⟩, hholds.1.1⟩
    · exact ⟨Or.inr ⟨rfl, rfl⟩, hholds.2.2⟩
  · intro p hwf buf hbuf
    exact ⟨p.wire, asBytes_wire hwf.sameVersion hbuf, parse_wire hwf⟩

/-- A request from 10.0.0.100 for the address 10.0.0.1, and two bytes of padding behind it. -/
def paddedRequest : List Byte :=
  [0, 1, 8, 0, 6, 4, 0, 1] ++ (guestMac 1).octets ++ [10, 0, 0, 100] ++ List.replicate 6 0 ++ [10, 0, 0, 1] ++ [0, 0]

theorem arp_codec_of_request :
    ∃ p, parse paddedRequest = .ok p ∧ parse (paddedRequest.take 28) = .ok p ∧
      (p.asBytes (List.replicate 28 0xAA) : Res ProtocolError (List Byte)) = .ok (paddedRequest.take 28) := by
  have hcodec := arp_codec_round_trips (ε := ProtocolError)
  have hparse := (hcodec.1 paddedRequest _ rfl (List.replicate 28 0xAA) rfl)
  exact ⟨_, rfl, hparse.2.1, hparse.1⟩

/-! ## Acceptance -/

/-- The packets a decoder should take. -/
def Acceptable (b : List Byte) : Prop :=
  28 ≤ b.length ∧ be16At b 0 = 1 ∧ byteAt b 4 = 6 ∧
    ((be16At b 2 = 0x0800 ∧ byteAt b 5 = 4) ∨ (be16At b 2 = 0x86DD ∧ byteAt b 5 = 16 ∧ 52 ≤ b.length))

/-- The decoder returns, a packet on what it should take and an error on the rest. -/
def Accepts (b : List Byte) : Prop := (parse b).Returns ∧ ((∃ p, parse b = .ok p) ↔ Acceptable b)

theorem acceptable_iff (b : List Byte) : Acceptable b ↔ Holds4 b ∨ Holds6 b := by
  unfold Acceptable Holds4 Holds6 Checked EtherType.asU16
  constructor
  · rintro ⟨hlen, hhw, hhl, ⟨hty, hplen⟩ | ⟨hty, hplen, h52⟩⟩
    · exact Or.inl ⟨⟨hlen, hty, hhw, hhl⟩, hplen⟩
    · exact Or.inr ⟨⟨hlen, hty, hhw, hhl⟩, hplen, h52⟩
  · rintro (⟨⟨hlen, hty, hhw, hhl⟩, hplen⟩ | ⟨⟨hlen, hty, hhw, hhl⟩, hplen, h52⟩)
    · exact ⟨hlen, hhw, hhl, Or.inl ⟨hty, hplen⟩⟩
    · exact ⟨hlen, hhw, hhl, Or.inr ⟨hty, hplen, h52⟩⟩

/-- **`parse` gives a packet exactly on what it should take.** -/
theorem parse_ok_iff (b : List Byte) : (∃ p, parse b = .ok p) ↔ Acceptable b := by
  rw [acceptable_iff]
  constructor
  · rintro ⟨p, h⟩
    rcases parse_cases h with ⟨hholds, -⟩ | ⟨hholds, -⟩
    · exact Or.inl hholds
    · exact Or.inr hholds
  · rintro (hholds | hholds)
    · exact ⟨_, parse_read4 hholds⟩
    · exact ⟨_, parse_read6 hholds⟩

/-- **`parse` accepts as it should exactly when the lengths of a checked packet fit**: the slices of the addresses come
before the check of the length they are made from. -/
theorem arp_accepts_iff (b : List Byte) : Accepts b ↔ Fits b := by
  unfold Accepts
  rw [returns_parse]
  exact ⟨fun h => h.1, fun h => ⟨h, parse_ok_iff b⟩⟩

/-- A packet of 28 bytes that announces addresses of two hundred bytes, and one that announces addresses of sixteen. -/
def longAddresses : List Byte := [0, 1, 0x08, 0x00, 6, 200, 0, 1] ++ List.replicate 20 0
def cutAddresses : List Byte := [0, 1, 0x86, 0xDD, 6, 16, 0, 1] ++ List.replicate 40 0

/-- **Two packets that end the thread that parses them.** -/
theorem arp_parse_panics :
    (¬ Accepts longAddresses ∧ parse longAddresses = .panic .outOfRange) ∧
      (¬ Accepts cutAddresses ∧ parse cutAddresses = .panic .outOfRange) := by
  have hlong : parse longAddresses = .panic .outOfRange := rfl
  have hcut : parse cutAddresses = .panic .outOfRange := rfl
  have hpanic : ∀ b, parse b = .panic .outOfRange → ¬ Accepts b := fun b h hb => hb.1 .outOfRange h
  exact ⟨⟨hpanic _ hlong, hlong⟩, hpanic _ hcut, hcut⟩

end ArpPacket
end Oathgate
