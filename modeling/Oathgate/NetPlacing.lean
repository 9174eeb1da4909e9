import Oathgate.NetFragment
/-!
# NetPlacing — where a fragment ends up (`oathgate-net`: `ipv4.rs`, `add_fragment_data`)

A fragment with offset `o` belongs at byte `o` of the payload, which is byte `h + o` of a buffer with a header of `h`
bytes.  Behind the payload's end the code puts it there; before the end it writes at byte `o` of the buffer, and after a
gap it cuts or pads the buffer to `o` bytes (`fragment_placed_iff`).
-/
namespace Oathgate

open Lib

namespace Ipv4Packet

/-- **A fragment is in its place**: its bytes at its offset of the payload, zeros in a gap before it, and every other
byte as it was; the length field is that of the header and the new payload. -/
structure Placed (p q : Ipv4Packet) (offset : Nat) (fragment : List Byte) : Prop where
  there : ∀ i, i < fragment.length → q.transport[offset + i]? = fragment[i]?
  kept : ∀ i, i < p.transport.length → i < offset ∨ offset + fragment.length ≤ i →
    q.transport[i]? = p.transport[i]?
  gap : ∀ i, p.transport.length ≤ i → i < offset → q.transport[i]? = some 0
  header : q.data.take p.headerLength = p.data.take p.headerLength
  length : q.header.length.toNat = p.headerLength + q.transport.length

/-- A fragment that writing it a header too early leaves in its place: with the bytes that follow it, it is what stood
there and then the fragment. -/
def Recurs (p : Ipv4Packet) (offset : Nat) (fragment : List Byte) : Prop :=
  let there := (p.data.drop offset).take (p.headerLength + fragment.length)
  fragment ++ there.drop fragment.length = there.take p.headerLength ++ fragment

instance (p : Ipv4Packet) (offset : Nat) (fragment : List Byte) : Decidable (p.Recurs offset fragment) :=
  inferInstanceAs (Decidable (_ = _))

theorem getElem?_transport (p : Ipv4Packet) (i : Nat) : p.transport[i]? = p.data[p.headerLength + i]? :=
  List.getElem?_drop

/-- The bytes of a buffer after a write. -/
theorem getElem?_withField (b src : List Byte) {s : Nat} (hs : s + src.length ≤ b.length) (i : Nat) :
    (withField b s (s + src.length) src)[i]? =
      if i < s then b[i]? else if i < s + src.length then src[i - s]? else b[i]? := by
  have htake : (b.take s).length = s := by
    rw [List.length_take]
    omega
  have hfront : (b.take s ++ src).length = s + src.length := by rw [List.length_append, htake]
  unfold withField
  by_cases h₁ : i < s
  · rw [if_pos h₁, List.getElem?_append_left (by omega), List.getElem?_append_left (by omega),
      List.getElem?_take_of_lt h₁]
  rw [if_neg h₁]
  by_cases h₂ : i < s + src.length
  · rw [if_pos h₂, List.getElem?_append_left (by omega), List.getElem?_append_right (by omega), htake]
  · rw [if_neg h₂, List.getElem?_append_right (by omega), hfront, List.getElem?_drop]
    congr 1
    omega

/-- Writing at one place is writing `d` bytes later exactly when the bytes of both places agree. -/
theorem withField_eq_iff (b src : List Byte) {s d : Nat} (hs : s + (d + src.length) ≤ b.length) :
    withField b s (s + src.length) src = withField b (s + d) (s + d + src.length) src ↔
      src ++ ((b.drop s).take (d + src.length)).drop src.length = ((b.drop s).take (d + src.length)).take d ++ src := by
  -- the buffer in three: up to `s`, the bytes of both places, and the rest
  obtain ⟨front, window, rest, rfl, hfront, hwindow⟩ : ∃ front window rest, b = front ++ (window ++ rest) ∧
      front.length = s ∧ window.length = d + src.length := by
    refine ⟨b.take s, (b.drop s).take (d + src.length), (b.drop s).drop (d + src.length), ?_, ?_, ?_⟩
    · rw [List.take_append_drop, List.take_append_drop]
    · rw [List.length_take]
      omega
    · rw [List.length_take, List.length_drop]
      omega
  have hthere : ((front ++ (window ++ rest)).drop s).take (d + src.length) = window := by
    rw [List.drop_left' hfront, List.take_left' hwindow]
  have hearly : withField (front ++ (window ++ rest)) s (s + src.length) src =
      front ++ (src ++ window.drop src.length ++ rest) := by
    unfold withField
    rw [List.take_left' hfront, ← List.drop_drop, List.drop_left' hfront, List.drop_append_of_le_length (by omega)]
    simp only [List.append_assoc]
  have hlate : withField (front ++ (window ++ rest)) (s + d) (s + d + src.length) src =
      front ++ (window.take d ++ src ++ rest) := by
    unfold withField
    rw [List.take_append, List.take_of_length_le (by omega), hfront, Nat.add_sub_cancel_left,
      List.take_append_of_le_length (by omega), Nat.add_assoc, ← List.drop_drop, List.drop_left' hfront,
      List.drop_left' hwindow]
    simp only [List.append_assoc]
  rw [hthere, hearly, hlate, List.append_cancel_left_eq, List.append_cancel_right_eq]

theorem Placed.end_le {p q : Ipv4Packet} {offset : Nat} {fragment : List Byte} (h : Placed p q offset fragment)
    (hpos : 0 < fragment.length) : offset + fragment.length ≤ q.transport.length := by
  have hthere := h.there (fragment.length - 1) (by omega)
  rw [List.getElem?_eq_getElem (by omega : fragment.length - 1 < fragment.length)] at hthere
  have hlast := (List.getElem?_eq_some_iff.1 hthere).1
  omega

/-! ## The three branches -/

/-- Inside the payload a fragment is in its place when the buffer is written there and nowhere else. -/
theorem placed_inside_iff {p q : Ipv4Packet} {offset : Nat} {fragment : List Byte}
    (hq : q.headerLength = p.headerLength) (hdata : q.data.length = p.data.length)
    (hfield : q.header.length.toNat = p.data.length) (hwhole : p.headerLength ≤ p.data.length)
    (hin : offset + fragment.length ≤ p.transport.length) :
    Placed p q offset fragment ↔
      q.data = withField p.data (offset + p.headerLength) (offset + p.headerLength + fragment.length) fragment := by
  have hlen := p.length_transport
  have hlenq := q.length_transport
  have hbytes := getElem?_withField p.data fragment (s := offset + p.headerLength) (by omega)
  constructor
  · intro h
    apply List.ext_getElem?
    intro i
    rw [hbytes i]
    by_cases h₁ : i < p.headerLength
    · have hhead := congrArg (fun b => b[i]?) h.header
      simp only [List.getElem?_take_of_lt h₁] at hhead
      rw [if_pos (by omega), hhead]
    obtain ⟨j, rfl⟩ : ∃ j, i = p.headerLength + j := ⟨i - p.headerLength, by omega⟩
    rw [← p.getElem?_transport, ← hq, ← q.getElem?_transport]
    by_cases h₂ : q.headerLength + j < offset + q.headerLength
    · rw [if_pos h₂]
      exact h.kept j (by omega) (Or.inl (by omega))
    rw [if_neg h₂]
    by_cases h₃ : q.headerLength + j < offset + q.headerLength + fragment.length
    · have hthere := h.there (j - offset) (by omega)
      rw [Nat.add_sub_cancel' (by omega)] at hthere
      rw [if_pos h₃, hthere]
      congr 1
      omega
    · rw [if_neg h₃]
      by_cases h₄ : j < p.transport.length
      · exact h.kept j h₄ (Or.inr (by omega))
      · rw [List.getElem?_eq_none (by omega), List.getElem?_eq_none (by omega)]
  · intro h
    have hget : ∀ i, q.transport[i]? =
        if i < offset then p.transport[i]?
        else if i < offset + fragment.length then fragment[i - offset]? else p.transport[i]? := by
      intro i
      rw [q.getElem?_transport, p.getElem?_transport, h, hq, hbytes]
      by_cases h₁ : i < offset
      · rw [if_pos h₁, if_pos (by omega)]
      rw [if_neg h₁, if_neg (by omega)]
      by_cases h₂ : i < offset + fragment.length
      · rw [if_pos h₂, if_pos (by omega)]
        congr 1
        omega
      · rw [if_neg h₂, if_neg (by omega)]
    refine ⟨?_, ?_, ?_, ?_, ?_⟩
    · intro i hi
      rw [hget, if_neg (by omega), if_pos (by omega), Nat.add_sub_cancel_left]
    · intro i _ hi
      rw [hget]
      rcases hi with hi | hi
      · rw [if_pos hi]
      · rw [if_neg (by omega), if_neg (by omega)]
    · intro i hi hi'
      omega
    · rw [h]
      unfold withField
      rw [List.append_assoc, List.take_append_of_le_length (by rw [List.length_take]; omega), List.take_take,
        Nat.min_eq_left (by omega)]
    · omega

/-- A fragment that begins inside the payload is in its place where it ends there too and being a header too early
makes no difference. -/
theorem placed_overlap_iff {p : Ipv4Packet} {offset : BitVec 16} {fragment : List Byte}
    (hlen : p.header.length.toNat = p.data.length) (hwhole : p.headerLength ≤ p.data.length)
    (hin : offset.toNat < p.transport.length) :
    Fits p offset fragment ∧ Placed p (p.place offset fragment) offset.toNat fragment ↔
      offset.toNat + fragment.length ≤ p.transport.length ∧ p.Recurs offset.toNat fragment := by
  have htransport := p.length_transport
  have hover : p.place offset fragment =
      { p with data := withField p.data offset.toNat (offset.toNat + fragment.length) fragment } := by
    unfold place
    rw [if_neg (by omega), if_neg (by omega)]
    rfl
  have hover_iff (hinside : offset.toNat + fragment.length ≤ p.transport.length) :
      Placed p (p.place offset fragment) offset.toNat fragment ↔ p.Recurs offset.toNat fragment := by
    have hsize := length_withField p.data offset.toNat (offset.toNat + fragment.length) fragment (by omega)
      (by omega) (by omega)
    rw [placed_inside_iff (headerLength_place p offset fragment) (by rw [hover]; exact hsize)
      (by rw [hover]; exact hlen) hwhole hinside, hover]
    exact withField_eq_iff p.data fragment (by omega)
  constructor
  · rintro ⟨hfits, hplaced⟩
    have hinside : offset.toNat + fragment.length ≤ p.transport.length := by
      have hsize := length_place hfits
      rw [if_neg (by omega), if_neg (by omega)] at hsize
      have hpayload := (p.place offset fragment).length_transport
      rw [headerLength_place, hsize] at hpayload
      rcases Nat.eq_zero_or_pos fragment.length with hempty | hpos
      · omega
      · have hend := hplaced.end_le hpos
        omega
    exact ⟨hinside, (hover_iff hinside).1 hplaced⟩
  · rintro ⟨hinside, hrecurs⟩
    refine ⟨⟨hwhole, ?_⟩, (hover_iff hinside).2 hrecurs⟩
    rw [if_neg (by omega), if_neg (by omega)]
    omega

/-- A fragment at the end of the payload is put there. -/
theorem placed_append {p : Ipv4Packet} {offset : BitVec 16} {fragment : List Byte}
    (hlen : p.header.length.toNat = p.data.length) (hwhole : p.headerLength ≤ p.data.length)
    (hfit : p.headerLength + offset.toNat + fragment.length ≤ 65535) (hend : offset.toNat = p.transport.length) :
    Placed p (p.place offset fragment) offset.toNat fragment := by
  have htransport := p.length_transport
  have hplace : p.place offset fragment =
      ⟨{ p.header with length := p.header.length + BitVec.ofNat 16 fragment.length }, p.data ++ fragment⟩ := if_pos hend
  have hpayload : (p.place offset fragment).transport = p.transport ++ fragment := by
    rw [hplace]
    exact List.drop_append_of_le_length hwhole
  refine ⟨?_, ?_, ?_, ?_, ?_⟩
  · intro i hi
    rw [hpayload, List.getElem?_append_right (by omega), hend, Nat.add_sub_cancel_left]
  · intro i hi _
    rw [hpayload, List.getElem?_append_left hi]
  · intro i hi hi'
    omega
  · rw [hplace, List.take_append_of_le_length hwhole]
  · rw [hpayload, List.length_append, hplace]
    show (p.header.length + BitVec.ofNat 16 fragment.length).toNat = _
    rw [BitVec.toNat_add, BitVec.toNat_ofNat, hlen]
    omega

/-- Behind a gap the buffer ends a header too early. -/
theorem not_placed_gap {p : Ipv4Packet} {offset : BitVec 16} {fragment : List Byte} (hhead : 20 ≤ p.headerLength)
    (hgap : p.transport.length < offset.toNat) : ¬ Placed p (p.place offset fragment) offset.toNat fragment := by
  intro h
  have hplace : p.place offset fragment =
      ⟨{ p.header with length := offset + BitVec.ofNat 16 fragment.length },
        resize p.data offset.toNat ++ fragment⟩ := by
    unfold place
    rw [if_neg (by omega), if_pos hgap]
  have hlen : (p.place offset fragment).transport.length = offset.toNat + fragment.length - p.headerLength := by
    rw [length_transport, headerLength_place, hplace, List.length_append, length_resize]
  -- the last byte of the gap is there only with a long fragment, whose last byte is then not
  have hlast := h.gap (offset.toNat - 1) (by omega) (by omega)
  have hlong : offset.toNat - 1 < (p.place offset fragment).transport.length := (List.getElem?_eq_some_iff.1 hlast).1
  have hend := h.end_le (by omega)
  omega

/-- **A fragment is put in its place exactly at the end of the payload**, or where writing it a header too early makes
no difference.  For every packet whose length field counts its bytes and every fragment that ends within the longest
packet; the header has to lie in the buffer, as it does in every parsed packet. -/
theorem fragment_placed_iff (p : Ipv4Packet) (offset : BitVec 16) (fragment : List Byte)
    (hhead : 20 ≤ p.headerLength) (hlen : p.header.length.toNat = p.data.length)
    (hfit : p.headerLength + offset.toNat + fragment.length ≤ 65535) :
    (∃ q, (p.addFragmentData offset fragment : Res Empty Ipv4Packet) = .ok q ∧
      Placed p q offset.toNat fragment) ↔
    p.headerLength ≤ p.data.length ∧ (offset.toNat = p.transport.length ∨
      (offset.toNat + fragment.length ≤ p.transport.length ∧ p.Recurs offset.toNat fragment)) := by
  have htransport := p.length_transport
  have hplace : (∃ q, (p.addFragmentData offset fragment : Res Empty Ipv4Packet) = .ok q ∧
      Placed p q offset.toNat fragment) ↔
      Fits p offset fragment ∧ Placed p (p.place offset fragment) offset.toNat fragment := by
    simp only [addFragmentData_eq_ok]
    constructor
    · rintro ⟨_, ⟨hfits, rfl⟩, hplaced⟩
      exact ⟨hfits, hplaced⟩
    · rintro ⟨hfits, hplaced⟩
      exact ⟨_, ⟨hfits, rfl⟩, hplaced⟩
  rw [hplace]
  by_cases hwhole : p.headerLength ≤ p.data.length
  swap
  · exact iff_of_false (fun h => hwhole h.1.1) (fun h => hwhole h.1)
  rcases Nat.lt_trichotomy offset.toNat p.transport.length with hin | hend | hgap
  · rw [placed_overlap_iff hlen hwhole hin]
    constructor
    · exact fun h => ⟨hwhole, Or.inr h⟩
    · rintro ⟨-, hend | h⟩
      · omega
      · exact h
  · refine iff_of_true ⟨⟨hwhole, ?_⟩, placed_append hlen hwhole hfit hend⟩ ⟨hwhole, Or.inl hend⟩
    rw [if_pos hend]
    omega
  · refine iff_of_false (fun h => not_placed_gap hhead hgap h.2) ?_
    rintro ⟨-, hend | ⟨hinside, -⟩⟩ <;> omega

/-- The first eight bytes of a datagram from 8.8.8.8 to 10.0.0.100. -/
def firstPart : Ipv4Packet := datagram netProtocolUdp 0x08080808 0x0A000064 (List.replicate 8 1)

theorem fragment_placed_of_append :
    ∃ q, (firstPart.addFragmentData 8 (List.replicate 8 2) : Res Empty Ipv4Packet) = .ok q ∧
      Placed firstPart q 8 (List.replicate 8 2) :=
  (fragment_placed_iff firstPart 8 (List.replicate 8 2) (by decide) (by decide) (by decide)).2
    ⟨by decide, Or.inl (by decide)⟩

/-- **A fragment behind a gap of eight bytes** overwrites the destination of the packet: the buffer is cut to sixteen
bytes before it. -/
theorem fragment_behind_gap_cuts_header :
    20 ≤ firstPart.headerLength ∧ firstPart.header.length.toNat = firstPart.data.length ∧
    ∃ q, (firstPart.addFragmentData 16 (List.replicate 8 2) : Res Empty Ipv4Packet) = .ok q ∧
      q.data = firstPart.data.take 16 ++ List.replicate 8 2 ∧ ¬ Placed firstPart q 16 (List.replicate 8 2) := by
  refine ⟨by decide, by decide, _, rfl, rfl, ?_⟩
  intro h
  exact absurd h.header (by decide)

end Ipv4Packet
end Oathgate
