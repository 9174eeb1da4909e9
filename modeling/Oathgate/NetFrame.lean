import Oathgate.NetTypes
/-!
# NetFrame — ethernet frames (`oathgate-net`: `frame.rs`)

`extract` and `toBytes` are inverse: a buffer is accepted exactly when it is some frame's fourteen bytes followed by
the payload (`extract_eq_ok`).
-/
namespace Oathgate

open Lib

structure EthernetFrame where
  dst : MacAddress
  src : MacAddress
  ethertype : EtherType
  deriving DecidableEq, Repr

structure EthernetPacket where
  frame : EthernetFrame
  payload : List Byte
  deriving DecidableEq, Repr

namespace EthernetFrame

variable {ε : Type}

def extract (pkt : List Byte) : Res ProtocolError EthernetFrame × List Byte :=
  if pkt.length < 14 then (.err (.notEnoughData pkt.length 14), pkt)
  else
    let hdr := pkt.take 14
    (do
      let dst ← MacAddress.parse (← slice hdr 0 6)
      let src ← MacAddress.parse (← slice hdr 6 12)
      let ethertype ← EtherType.tryFromSlice (← slice hdr 12 14)
      return ⟨dst, src, ethertype⟩, pkt.drop 14)

def asBytes (f : EthernetFrame) (pkt : List Byte) : Res ε (List Byte) := do
  let pkt ← copyAt pkt 0 6 f.dst.asBytes
  let pkt ← copyAt pkt 6 12 f.src.asBytes
  copyAt pkt 12 14 (toBe16 f.ethertype.asU16)

def toBytes (f : EthernetFrame) : Res ε (List Byte) := f.asBytes (List.replicate 14 0)

/-- The fourteen bytes of a frame header on the wire. -/
def wire (f : EthernetFrame) : List Byte := f.dst.octets ++ f.src.octets ++ toBe16 f.ethertype.asU16

theorem length_wire (f : EthernetFrame) : f.wire.length = 14 := by
  simp [wire, f.dst.length_octets, f.src.length_octets, toBe16]

theorem le_length_wire_append (f : EthernetFrame) (rest : List Byte) : 14 ≤ (f.wire ++ rest).length := by
  rw [List.length_append, f.length_wire]
  omega

theorem asBytes_eq (f : EthernetFrame) (pkt : List Byte) (h : 14 ≤ pkt.length) :
    (f.asBytes pkt : Res ε (List Byte)) = .ok (f.wire ++ pkt.drop 14) := by
  have hd := f.dst.length_octets
  have hs := f.src.length_octets
  have ht : (toBe16 f.ethertype.asU16).length = 2 := rfl
  have h6 : (pkt.drop f.dst.octets.length).length = pkt.length - 6 := by rw [List.length_drop, hd]
  have h12 : ((pkt.drop f.dst.octets.length).drop f.src.octets.length).length = pkt.length - 12 := by
    rw [List.length_drop, h6, hs]
    omega
  unfold asBytes MacAddress.asBytes
  rw [← List.nil_append pkt, copyAt_append [] pkt _ 0 6 rfl (by omega) (by omega), Res.bind_ok,
    copyAt_append _ _ _ 6 12 (by simp [hd]) (by omega) (by omega), Res.bind_ok,
    copyAt_append _ _ _ 12 14 (by simp [hd, hs]) rfl (by omega)]
  simp only [List.nil_append, List.drop_drop, hd, hs, wire]
  rfl

theorem toBytes_eq (f : EthernetFrame) : (f.toBytes : Res ε (List Byte)) = .ok f.wire := by
  unfold toBytes
  rw [asBytes_eq f _ (by simp)]
  simp

theorem extract_short (pkt : List Byte) (h : pkt.length < 14) :
    extract pkt = (.err (.notEnoughData pkt.length 14), pkt) := if_pos h

/-- **`extract` on a long enough buffer**: only the ethertype is checked. -/
theorem extract_of_length (pkt : List Byte) (h : 14 ≤ pkt.length) :
    extract pkt = (EtherType.tryFrom (be16At pkt 12) >>= fun e => .ok
      ⟨⟨pkt.take 6, List.length_take_of_le (Nat.le_trans (by decide) h)⟩,
        ⟨(pkt.drop 6).take 6, length_slice pkt 6 6 (Nat.le_trans (by decide) h)⟩, e⟩, pkt.drop 14) := by
  have hl : (pkt.take 14).length = 14 := by rw [List.length_take]; omega
  have hshort : ¬ pkt.length < 14 := by omega
  -- the slices of the header are slices of the buffer
  have e0 : ((pkt.take 14).drop 0).take (6 - 0) = (pkt.drop 0).take 6 := by simp [List.take_take]
  have e1 : ((pkt.take 14).drop 6).take (12 - 6) = (pkt.drop 6).take 6 := by simp [List.drop_take, List.take_take]
  have e2 : ((pkt.take 14).drop 12).take (14 - 12) = (pkt.drop 12).take 2 := by simp [List.drop_take, List.take_take]
  unfold extract
  rw [if_neg hshort]
  simp only
  rw [slice_eq _ 0 6 (by omega) (by omega), slice_eq _ 6 12 (by omega) (by omega),
    slice_eq _ 12 14 (by omega) (by omega), e0, e1, e2]
  simp only [Res.bind_ok]
  rw [MacAddress.parse_slice pkt 0 (by omega), MacAddress.parse_slice pkt 6 (by omega),
    EtherType.tryFromSlice_slice pkt 12 (by omega)]
  rfl

theorem returns_extract (pkt : List Byte) : (extract pkt).1.Returns := by
  by_cases h : pkt.length < 14
  · rw [extract_short pkt h]; simp
  · rw [extract_of_length pkt (by omega)]
    simp only [Res.returns_bind, Res.returns_ok, implies_true, and_true]
    exact EtherType.returns_tryFrom _

/-- **A buffer is accepted exactly when it is a frame's bytes and its payload.** -/
theorem extract_eq_ok (pkt rest : List Byte) (f : EthernetFrame) :
    extract pkt = (.ok f, rest) ↔ pkt = f.wire ++ rest := by
  constructor
  · intro h
    by_cases hl : pkt.length < 14
    · rw [extract_short pkt hl] at h
      cases h
    · rw [extract_of_length pkt (by omega), Prod.mk.injEq, Res.bind_eq_ok] at h
      obtain ⟨⟨e, he, hf⟩, hrest⟩ := h
      rw [EtherType.tryFrom_eq_ok] at he
      simp only [Res.ok.injEq] at hf
      subst hf hrest
      have h2 : (pkt.drop 12).take 2 = toBe16 (be16At pkt 12) := by
        have hrest : 2 ≤ (pkt.drop 12).length := by rw [List.length_drop]; omega
        rw [take_two _ hrest, toBe16_be16At, byteAt_drop, byteAt_drop]
      unfold wire
      simp only
      rw [← he, ← h2]
      have s1 : pkt.take 6 ++ (pkt.drop 6).take 6 = pkt.take 12 := (List.take_add (i := 6) (j := 6)).symm
      have s2 : pkt.take 12 ++ (pkt.drop 12).take 2 = pkt.take 14 := (List.take_add (i := 12) (j := 2)).symm
      rw [s1, s2, List.take_append_drop]
  · rintro rfl
    have hd := f.dst.length_octets
    have hs := f.src.length_octets
    have hw := f.length_wire
    rw [extract_of_length _ (f.le_length_wire_append rest)]
    have h12 : be16At (f.wire ++ rest) 12 = f.ethertype.asU16 := by
      have hsplit : f.wire ++ rest = (f.dst.octets ++ f.src.octets) ++ (toBe16 f.ethertype.asU16 ++ rest) := by
        simp [wire]
      have hmacs : (f.dst.octets ++ f.src.octets).length = 12 := by simp [hd, hs]
      rw [← Nat.add_zero 12, ← be16At_drop, hsplit, List.drop_left' hmacs, be16At_toBe16]
    rw [h12, (EtherType.tryFrom_eq_ok _ _).2 rfl, Res.bind_ok]
    have e1 : (f.wire ++ rest).take 6 = f.dst.octets := by
      unfold wire
      rw [List.append_assoc, List.append_assoc, List.take_left' hd]
    have e2 : ((f.wire ++ rest).drop 6).take 6 = f.src.octets := by
      unfold wire
      rw [List.append_assoc, List.append_assoc, List.drop_left' hd, List.take_left' hs]
    rw [List.drop_left' hw]
    simp only [e1, e2]

end EthernetFrame
end Oathgate
