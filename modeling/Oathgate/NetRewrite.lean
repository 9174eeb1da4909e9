import Oathgate.NetChecksum
import Oathgate.NetFragment
import Oathgate.NetHeader
/-!
# NetRewrite — address rewriting (`oathgate-net`: `ipv4.rs`, `masquerade` and `unmasquerade`)

Both calls write the header with a new address over the first twenty bytes and repair the transport checksum.  What
they leave depends on the last addresses alone (`rewrites_path_independent`).  What they touch beside the address is
more than it should be when the packet has options or is a later fragment (`rewrite_touches_iff`), and the checksum
covers the padding behind the packet (`padding_ignored_iff`).
-/
namespace Oathgate

open Lib

variable {ε : Type}

namespace Ipv4Packet

/-! ## The bytes of a field -/

theorem byteAt_withField (b : List Byte) {s e i : Nat} {field : List Byte} (hse : s ≤ e) (he : e ≤ b.length)
    (hf : field.length = e - s) (hi : i < s ∨ e ≤ i) : byteAt (withField b s e field) i = byteAt b i := by
  have hcopy : (copyAt b s e field : Res Unit (List Byte)) = .ok (withField b s e field) :=
    copyAt_eq b s e field hse he hf
  exact (copyAt_frame hcopy).2 i hi

theorem take_withField (b : List Byte) (n s e : Nat) (field : List Byte) :
    b.take n ++ withField (b.drop n) s e field = withField b (n + s) (n + e) field := by
  have hsplit : b.take (n + s) = b.take n ++ (b.drop n).take s := List.take_add
  unfold withField
  rw [hsplit, List.drop_drop]
  simp only [List.append_assoc]

theorem drop_withField (b : List Byte) {n s e : Nat} (hs : n ≤ s) (hse : s ≤ e) (he : e ≤ b.length)
    (field : List Byte) : (withField b s e field).drop n = withField (b.drop n) (s - n) (e - n) field := by
  have htake : (b.take s).length = s := by
    rw [List.length_take]
    omega
  unfold withField
  rw [List.append_assoc, List.drop_append_of_le_length (by omega), List.drop_take, List.drop_drop, List.append_assoc,
    Nat.add_sub_cancel' (by omega : n ≤ e)]

theorem withField_append (b z : List Byte) {s e : Nat} (hse : s ≤ e) (he : e ≤ b.length) (field : List Byte) :
    withField (b ++ z) s e field = withField b s e field ++ z := by
  unfold withField
  rw [List.take_append_of_le_length (by omega), List.drop_append_of_le_length he, List.append_assoc, List.append_assoc,
    List.append_assoc]

end Ipv4Packet

namespace Ipv4Header

theorem onto_onto (h h' : Ipv4Header) (b : List Byte) : h'.onto (h.onto b) = h'.onto b := by
  have htos : byteAt (h.onto b) 1 = byteAt b 1 := rfl
  have hrest := drop_onto h b
  unfold onto at htos hrest ⊢
  rw [htos, hrest]

/-- A header is written in front of a field behind it. -/
theorem onto_withField (h : Ipv4Header) (b : List Byte) {s e : Nat} (hs : 20 ≤ s) (hse : s ≤ e) (he : e ≤ b.length)
    {field : List Byte} (hf : field.length = e - s) :
    h.onto (Ipv4Packet.withField b s e field) = Ipv4Packet.withField (h.onto b) s e field := by
  have hlen := length_onto h b (by omega)
  have htos : byteAt (Ipv4Packet.withField b s e field) 1 = byteAt b 1 :=
    Ipv4Packet.byteAt_withField b hse he hf (Or.inl (by omega))
  have htake : (h.onto b).take 20 = h.wire (byteAt b 1) (h.wireSum (byteAt b 1)) := List.take_left' (length_wire h _ _)
  have hback := Ipv4Packet.take_withField (h.onto b) 20 (s - 20) (e - 20) field
  rw [htake, drop_onto, Nat.add_sub_cancel' hs, Nat.add_sub_cancel' (by omega)] at hback
  rw [← hback]
  unfold onto
  rw [htos, Ipv4Packet.drop_withField b hs hse he]

theorem onto_append (h : Ipv4Header) (b z : List Byte) (hl : 20 ≤ b.length) : h.onto (b ++ z) = h.onto b ++ z := by
  unfold onto
  rw [byteAt_append_left b z 1 (by omega), List.drop_append_of_le_length hl, List.append_assoc]

end Ipv4Header

namespace Ipv4Packet

/-! ## The transport checksum -/

/-- The payload reaches past its checksum field. -/
def Long (p : Ipv4Packet) : Prop :=
  p.headerLength ≤ p.data.length ∧
    ∀ s e, checksumField p.protocol = some (s, e) → p.headerLength + e ≤ p.data.length

/-- The sum of the words the transport checksum covers: pseudo header and payload, its own field zero. -/
def checksumSum (p : Ipv4Packet) : Nat :=
  match checksumField p.protocol with
  | none => 0
  | some (s, e) =>
    pseudoSum p.src p.dest p.protocol p.transport.length + wordSum (withField p.transport s e [0, 0])

/-- The packet with its transport checksum repaired. -/
def fixed (p : Ipv4Packet) : Ipv4Packet :=
  match checksumField p.protocol with
  | none => p
  | some (s, e) =>
    { p with
      data := withField p.data (p.headerLength + s) (p.headerLength + e)
        (toBe16 (foldSum (BitVec.ofNat 32 p.checksumSum))) }

theorem checksumSum_some {p : Ipv4Packet} {s e : Nat} (hf : checksumField p.protocol = some (s, e)) :
    p.checksumSum =
      pseudoSum p.src p.dest p.protocol p.transport.length + wordSum (withField p.transport s e [0, 0]) := by
  unfold checksumSum
  rw [hf]

theorem fixed_none {p : Ipv4Packet} (hf : checksumField p.protocol = none) : p.fixed = p := by
  unfold fixed
  rw [hf]

theorem fixed_some {p : Ipv4Packet} {s e : Nat} (hf : checksumField p.protocol = some (s, e)) :
    p.fixed = ⟨p.header, withField p.data (p.headerLength + s) (p.headerLength + e)
      (toBe16 (foldSum (BitVec.ofNat 32 p.checksumSum)))⟩ := by
  unfold fixed
  rw [hf]

/-- **The transport checksum is repaired exactly when the payload reaches past its field and the sum fits.** -/
theorem fixTransportChecksum_fixed {p q : Ipv4Packet} :
    (p.fixTransportChecksum : Res ε Ipv4Packet) = .ok q ↔ (Long p ∧ p.checksumSum < 2 ^ 32) ∧ q = p.fixed := by
  rw [fixTransportChecksum_eq_ok]
  unfold Long
  cases hf : checksumField p.protocol with
  | none =>
    have hzero : p.checksumSum < 2 ^ 32 := by
      unfold checksumSum
      rw [hf]
      exact Nat.two_pow_pos 32
    simp [fixed_none hf, show p.checksumSum < 4294967296 from hzero]
  | some x =>
    obtain ⟨s, e⟩ := x
    have he := checksumField_eq_some hf
    subst he
    have hlen := p.length_transport
    have hzero : p.headerLength + (s + 2) ≤ p.data.length →
        (withField p.transport s (s + 2) [0, 0]).length = p.transport.length :=
      fun h => length_withField p.transport s (s + 2) [0, 0] (by omega) (by omega) (by simp)
    have hback : ∀ field, p.data.take p.headerLength ++ withField p.transport s (s + 2) field =
        withField p.data (p.headerLength + s) (p.headerLength + (s + 2)) field :=
      fun field => take_withField p.data p.headerLength s (s + 2) field
    rw [fixed_some hf, checksumSum_some hf]
    simp only [hback]
    constructor
    · rintro ⟨hl, hlong, c, hc, rfl⟩
      have hsum := (phChecksum_eq_ok (ε := ε) _ _ _ _).1 ⟨c, hc⟩
      rw [phChecksum_eq hsum, Res.ok.injEq, hzero hlong] at hc
      rw [hzero hlong] at hsum
      exact ⟨⟨⟨hl, fun _ _ h => by cases h; exact hlong⟩, hsum⟩, by rw [hc]⟩
    · rintro ⟨⟨⟨hl, hlong⟩, hsum⟩, rfl⟩
      have hreach := hlong s (s + 2) rfl
      have hsum' := hsum
      rw [← hzero hreach] at hsum'
      exact ⟨hl, hreach, _, phChecksum_eq hsum', by rw [hzero hreach]⟩

theorem fixable_iff {p : Ipv4Packet} : Fixable p ↔ Long p ∧ p.checksumSum < 2 ^ 32 := by
  rw [← fixTransportChecksum_returns_iff (ε := Unit)]
  simp only [fixTransportChecksum_fixed, exists_and_left, exists_eq, and_true]

/-- The sum fits for a payload of up to 128 KiB, twenty bytes less. -/
theorem checksumSum_lt {p : Ipv4Packet} (hlong : Long p) (hlen : p.transport.length ≤ 131052) :
    p.checksumSum < 2 ^ 32 := by
  unfold checksumSum
  cases hf : checksumField p.protocol with
  | none => exact Nat.two_pow_pos 32
  | some x =>
    obtain ⟨s, e⟩ := x
    have he := checksumField_eq_some hf
    have hreach := hlong.2 s e hf
    have htransport := p.length_transport
    have hfield := length_withField p.transport s e [0, 0] (by omega) (by omega) (by simp; omega)
    have hpseudo := pseudoSum_lt p.src p.dest p.protocol p.transport.length
    have hwords := wordSum_le (withField p.transport s e [0, 0])
    simp only
    omega

/-- **What stood in the checksum field does not matter.** -/
theorem fixed_withField {p : Ipv4Packet} (hlong : Long p) {s e : Nat} (hf : checksumField p.protocol = some (s, e))
    {field : List Byte} (hfield : field.length = 2) :
    (⟨p.header, withField p.data (p.headerLength + s) (p.headerLength + e) field⟩ : Ipv4Packet).fixed = p.fixed := by
  have he := checksumField_eq_some hf
  subst he
  have hreach := hlong.2 s (s + 2) hf
  have htransport := p.length_transport
  have hrest : (withField p.data (p.headerLength + s) (p.headerLength + (s + 2)) field).drop p.headerLength =
      withField p.transport s (s + 2) field := by
    rw [drop_withField p.data (by omega) (by omega) hreach, Nat.add_sub_cancel_left, Nat.add_sub_cancel_left]
    rfl
  have htwice : ∀ g, withField (withField p.data (p.headerLength + s) (p.headerLength + (s + 2)) field)
      (p.headerLength + s) (p.headerLength + (s + 2)) g =
        withField p.data (p.headerLength + s) (p.headerLength + (s + 2)) g :=
    fun g => withField_withField p.data (p.headerLength + s) field g hreach hfield
  generalize withField p.data (p.headerLength + s) (p.headerLength + (s + 2)) field = data at hrest htwice ⊢
  have hqf : checksumField (⟨p.header, data⟩ : Ipv4Packet).protocol = some (s, s + 2) := hf
  have hqtransport : (⟨p.header, data⟩ : Ipv4Packet).transport = withField p.transport s (s + 2) field := hrest
  have hsum : (⟨p.header, data⟩ : Ipv4Packet).checksumSum = p.checksumSum := by
    rw [checksumSum_some hqf, checksumSum_some hf, hqtransport,
      length_withField p.transport s _ field (by omega) (by omega) (by omega),
      withField_withField p.transport s _ _ (by omega) hfield]
    rfl
  rw [fixed_some hqf, fixed_some hf, hsum]
  exact congrArg (Ipv4Packet.mk p.header) (htwice _)

theorem fixed_header (p : Ipv4Packet) : p.fixed.header = p.header := by
  unfold fixed
  split
  · rfl
  · rfl

theorem length_fixed {p : Ipv4Packet} (hlong : Long p) : p.fixed.data.length = p.data.length := by
  unfold fixed
  cases hf : checksumField p.protocol with
  | none => rfl
  | some x =>
    obtain ⟨s, e⟩ := x
    have he := checksumField_eq_some hf
    have hreach := hlong.2 s e hf
    exact length_withField p.data _ _ _ (by omega) (by omega) (by simp [toBe16]; omega)

/-! ## New addresses -/

/-- The packet with its addresses in header and bytes, before the transport checksum. -/
def readdressed (p : Ipv4Packet) (src dst : Ipv4Addr) : Ipv4Packet :=
  ⟨{ p.header with src, dst }, ({ p.header with src, dst } : Ipv4Header).onto p.data⟩

/-- The packet with its addresses and both checksums. -/
def rewritten (p : Ipv4Packet) (src dst : Ipv4Addr) : Ipv4Packet := (p.readdressed src dst).fixed

theorem length_readdressed {p : Ipv4Packet} (hl : 20 ≤ p.data.length) (src dst : Ipv4Addr) :
    (p.readdressed src dst).data.length = p.data.length := Ipv4Header.length_onto _ _ hl

theorem Long.readdressed {p : Ipv4Packet} (h : Long p) (hl : 20 ≤ p.data.length) (src dst : Ipv4Addr) :
    Long (p.readdressed src dst) := by
  unfold Long
  rw [length_readdressed hl]
  exact h

theorem long_readdressed_iff {p : Ipv4Packet} (hl : 20 ≤ p.data.length) (src dst : Ipv4Addr) :
    Long (p.readdressed src dst) ↔ Long p := by
  unfold Long
  rw [length_readdressed hl]
  rfl

theorem Long.fixed {p : Ipv4Packet} (h : Long p) : Long p.fixed := by
  have hlen := length_fixed h
  unfold Long headerLength protocol at h ⊢
  rw [hlen, fixed_header]
  exact h

/-- **The last addresses win**: nothing of the ones in between is left, in the header, in the bytes or in the
checksums, when the payload lies behind the twenty bytes of the header. -/
theorem rewritten_rewritten {p : Ipv4Packet} (hlong : Long p) (hihl : 20 ≤ p.headerLength)
    (src dst src' dst' : Ipv4Addr) : (p.rewritten src dst).rewritten src' dst' = p.rewritten src' dst' := by
  have hl : 20 ≤ p.data.length := Nat.le_trans hihl hlong.1
  have honto := Ipv4Header.onto_onto { p.header with src, dst } { p.header with src := src', dst := dst' } p.data
  unfold rewritten
  cases hf : checksumField p.protocol with
  | none =>
    rw [fixed_none (p := p.readdressed src dst) hf]
    unfold readdressed
    rw [honto]
  | some x =>
    obtain ⟨s, e⟩ := x
    have he := checksumField_eq_some hf
    have hreach := hlong.2 s e hf
    have hlength := length_readdressed hl src dst
    generalize hc : toBe16 (foldSum (BitVec.ofNat 32 (p.readdressed src dst).checksumSum)) = c
    have hclen : c.length = 2 := by
      rw [← hc]
      rfl
    have hbehind := Ipv4Header.onto_withField { p.header with src := src', dst := dst' } (p.readdressed src dst).data
      (s := p.headerLength + s) (e := p.headerLength + e) (by omega) (by omega) (by omega)
      (show c.length = p.headerLength + e - (p.headerLength + s) by omega)
    have hdata : (p.readdressed src dst).data = ({ p.header with src, dst } : Ipv4Header).onto p.data := rfl
    rw [hdata, honto] at hbehind
    rw [fixed_some (p := p.readdressed src dst) hf, hc,
      ← fixed_withField (hlong.readdressed hl src' dst') (s := s) (e := e) hf hclen]
    exact congrArg (fun data => (Ipv4Packet.mk { p.header with src := src', dst := dst' } data).fixed) hbehind

theorem byteAt_fixed {p : Ipv4Packet} (hlong : Long p) {i : Nat}
    (hi : ∀ s e, checksumField p.protocol = some (s, e) → i < p.headerLength + s ∨ p.headerLength + e ≤ i) :
    byteAt p.fixed.data i = byteAt p.data i := by
  cases hf : checksumField p.protocol with
  | none => rw [fixed_none hf]
  | some x =>
    obtain ⟨s, e⟩ := x
    have he := checksumField_eq_some hf
    have hreach := hlong.2 s e hf
    rw [fixed_some hf]
    exact byteAt_withField p.data (by omega) hreach (by simp [toBe16]; omega) (hi s e hf)

/-! ## Calls -/

/-- A call that rewrites an address. -/
inductive Rewrite where
  | masquerade (ip : Ipv4Addr)
  | unmasquerade (ip : Ipv4Addr)
  deriving DecidableEq, Repr

namespace Rewrite

def apply : Rewrite → Ipv4Packet → Res ε Ipv4Packet
  | masquerade ip, p => p.masquerade ip
  | unmasquerade ip, p => p.unmasquerade ip

def src : Rewrite → Ipv4Packet → Ipv4Addr
  | masquerade ip, _ => ip
  | unmasquerade _, p => p.src

def dest : Rewrite → Ipv4Packet → Ipv4Addr
  | masquerade _, p => p.dest
  | unmasquerade ip, _ => ip

/-- The first byte of the address a call rewrites. -/
def field : Rewrite → Nat
  | masquerade _ => 12
  | unmasquerade _ => 16

theorem field_ge (r : Rewrite) : 12 ≤ r.field := by
  cases r with
  | masquerade ip => exact Nat.le_refl 12
  | unmasquerade ip => exact (by decide : 12 ≤ 16)

/-- The packet a call repairs the transport checksum of. -/
def readdressed (r : Rewrite) (p : Ipv4Packet) : Ipv4Packet := p.readdressed (r.src p) (r.dest p)

/-- **A call returns exactly on packets of twenty bytes and the checksum field, unless the sum overflows.** -/
theorem apply_eq_ok {r : Rewrite} {p q : Ipv4Packet} :
    (r.apply p : Res ε Ipv4Packet) = .ok q ↔
      20 ≤ p.data.length ∧ (Long p ∧ (r.readdressed p).checksumSum < 2 ^ 32) ∧
        q = p.rewritten (r.src p) (r.dest p) := by
  have hcall : (r.apply p : Res ε Ipv4Packet) = .ok q ↔
      20 ≤ p.data.length ∧ ((r.readdressed p).fixTransportChecksum : Res ε Ipv4Packet) = .ok q := by
    cases r with
    | masquerade ip =>
      unfold apply Ipv4Packet.masquerade
      simp only [Res.bind_eq_ok, Ipv4Header.asBytes_eq_ok]
      constructor
      · rintro ⟨_, ⟨h, rfl⟩, hq⟩
        exact ⟨h, hq⟩
      · rintro ⟨h, hq⟩
        exact ⟨_, ⟨h, rfl⟩, hq⟩
    | unmasquerade ip => exact unmasquerade_eq_ok
  rw [hcall, fixTransportChecksum_fixed]
  constructor
  · rintro ⟨h, ⟨hlong, hsum⟩, hq⟩
    exact ⟨h, ⟨(long_readdressed_iff h _ _).1 hlong, hsum⟩, hq⟩
  · rintro ⟨h, ⟨hlong, hsum⟩, hq⟩
    exact ⟨h, ⟨(long_readdressed_iff h _ _).2 hlong, hsum⟩, hq⟩

end Rewrite

/-! ## The frame of a call -/

/-- **Nothing else is touched**: a byte that changes is one of the header checksum, of the address or, in the first
fragment of a datagram, of its transport checksum. -/
def TouchesOnly (r : Rewrite) (p q : Ipv4Packet) : Prop :=
  q.data.length = p.data.length ∧
    ∀ i, byteAt q.data i ≠ byteAt p.data i →
      (10 ≤ i ∧ i < 12) ∨ (r.field ≤ i ∧ i < r.field + 4) ∨
        (p.fragmentOffset = 0 ∧ ∃ s e, checksumField p.protocol = some (s, e) ∧
          p.headerLength + s ≤ i ∧ i < p.headerLength + e)

/-- The other address is written as it was read. -/
theorem byteAt_readdressed {data : List Byte} (r : Rewrite) {i : Nat} (h12 : 12 ≤ i) (h20 : i < 20)
    (hi : i < r.field ∨ r.field + 4 ≤ i) :
    byteAt (r.readdressed ⟨Ipv4Header.headerOf data, data⟩).data i = byteAt data i := by
  have haddr := Ipv4Header.onto_addresses (b := data) (r.src ⟨Ipv4Header.headerOf data, data⟩)
    (r.dest ⟨Ipv4Header.headerOf data, data⟩) h12 h20
  refine haddr.trans ?_
  cases r with
  | masquerade ip =>
    have h16 : ¬ i < 16 := by
      rcases hi with hi | hi
      · exact absurd h12 (Nat.not_le.2 hi)
      · exact Nat.not_lt.2 hi
    rw [if_neg h16]
    show byteAt (toBe32 (be32At data 16)) (i - 16) = byteAt data i
    rw [Ipv4Header.byteAt_toBe32 data 16 (by omega)]
    congr 1
    omega
  | unmasquerade ip =>
    have h16 : i < 16 := by
      rcases hi with hi | hi
      · exact hi
      · exact absurd h20 (Nat.not_lt.2 hi)
    rw [if_pos h16]
    show byteAt (toBe32 (be32At data 12)) (i - 12) = byteAt data i
    rw [Ipv4Header.byteAt_toBe32 data 12 (by omega)]
    congr 1
    omega

/-- The bytes of the header are written once. -/
theorem byteAt_fixed_front {p : Ipv4Packet} (hlong : Long p) (hihl : 20 ≤ p.headerLength) {i : Nat} (hi : i < 20) :
    byteAt p.fixed.data i = byteAt p.data i := by
  refine byteAt_fixed hlong fun s e _ => Or.inl ?_
  exact Nat.lt_of_lt_of_le hi (Nat.le_trans hihl (Nat.le_add_right _ _))

theorem readdressed_changes_iff (data : List Byte) (r : Rewrite) :
    (∀ i, i < 10 → byteAt (r.readdressed ⟨Ipv4Header.headerOf data, data⟩).data i = byteAt data i) ↔
      byteAt data 0 &&& 0x0F = 5 ∧ be16At data 6 &&& 0x1FFF = 0 :=
  Ipv4Header.onto_changes_iff (r.src ⟨Ipv4Header.headerOf data, data⟩) (r.dest ⟨Ipv4Header.headerOf data, data⟩)

/-- **Without options, and in the first fragment, nothing else is touched.** -/
theorem touchesOnly_rewritten {data : List Byte} (r : Rewrite) (h20 : 20 ≤ data.length)
    (hlong : Long ⟨Ipv4Header.headerOf data, data⟩)
    (hihl : 20 ≤ headerLength ⟨Ipv4Header.headerOf data, data⟩) (hnibble : byteAt data 0 &&& 0x0F = 5)
    (hzero : be16At data 6 &&& 0x1FFF = 0) :
    TouchesOnly r ⟨Ipv4Header.headerOf data, data⟩ (r.readdressed ⟨Ipv4Header.headerOf data, data⟩).fixed := by
  have hlong' : Long (r.readdressed ⟨Ipv4Header.headerOf data, data⟩) := hlong.readdressed h20 _ _
  refine ⟨(length_fixed hlong').trans (length_readdressed h20 _ _), ?_⟩
  intro i hne
  by_cases hi : i < 20
  · rw [byteAt_fixed_front hlong' hihl hi] at hne
    by_cases h12 : 12 ≤ i
    · by_cases hin : r.field ≤ i ∧ i < r.field + 4
      · exact Or.inr (Or.inl hin)
      · exact absurd (byteAt_readdressed r h12 hi (by omega)) hne
    · by_cases h10 : 10 ≤ i
      · exact Or.inl ⟨h10, by omega⟩
      · exact absurd ((readdressed_changes_iff data r).2 ⟨hnibble, hzero⟩ i (by omega)) hne
  · refine Or.inr (Or.inr ⟨Ipv4Header.fragOffset_eq_zero_iff.2 hzero, ?_⟩)
    by_contra hout
    refine hne ((byteAt_fixed hlong' fun s e hf => ?_).trans ?_)
    · by_contra hbetween
      exact hout ⟨s, e, hf, Nat.not_lt.1 fun h => hbetween (Or.inl h), Nat.not_le.1 fun h => hbetween (Or.inr h)⟩
    · exact (Ipv4Header.byteAt_onto _ data).trans (if_neg hi)

/-- **A call touches nothing else exactly when the packet has no options and is not a later fragment**, and the words
of its checksum fit into 32 bits, as they do up to 128 KiB. -/
theorem rewrite_touches_iff {data : List Byte} {p : Ipv4Packet} (hp : parse data = .ok p)
    (hihl : 5 ≤ p.header.ihl.toNat) (hlong : Long p) (r : Rewrite) :
    (∃ q, (r.apply p : Res ε Ipv4Packet) = .ok q ∧ TouchesOnly r p q) ↔
      byteAt data 0 &&& 0x0F = 5 ∧ be16At data 6 &&& 0x1FFF = 0 ∧ (r.readdressed p).checksumSum < 2 ^ 32 := by
  obtain ⟨h20, -, rfl⟩ := parse_eq_ok hp
  have hhl : 20 ≤ headerLength ⟨Ipv4Header.headerOf data, data⟩ := Nat.mul_le_mul_right 4 hihl
  have hlong' : Long (r.readdressed ⟨Ipv4Header.headerOf data, data⟩) := hlong.readdressed h20 _ _
  constructor
  · rintro ⟨q, hq, -, hkeeps⟩
    obtain ⟨-, ⟨-, hsum⟩, rfl⟩ := Rewrite.apply_eq_ok.1 hq
    have hfield := r.field_ge
    have hten := (readdressed_changes_iff data r).1 fun i hi => by
      by_contra hne
      rw [← byteAt_fixed_front hlong' hhl (by omega : i < 20)] at hne
      rcases hkeeps i hne with h | h | ⟨-, s, e, -, h, -⟩
      · omega
      · omega
      · omega
    exact ⟨hten.1, hten.2, hsum⟩
  · rintro ⟨hnibble, hzero, hsum⟩
    exact ⟨_, Rewrite.apply_eq_ok.2 ⟨h20, ⟨hlong, hsum⟩, rfl⟩,
      touchesOnly_rewritten r h20 hlong hhl hnibble hzero⟩

/-- A UDP datagram of eight bytes in one piece. -/
def wholeDatagram : List Byte :=
  [0x45, 0, 0, 28, 0, 1, 0, 0, 64, 17, 0, 0, 10, 0, 0, 1, 10, 0, 0, 2, 0x30, 0x39, 0, 53, 0, 8, 0, 0]

/-- The fragment eight bytes into a UDP datagram. -/
def laterFragment : List Byte :=
  [0x45, 0, 0, 28, 0, 1, 0, 1, 64, 17, 0, 0, 10, 0, 0, 1, 10, 0, 0, 2, 1, 2, 3, 4, 5, 6, 7, 8]

theorem parse_wholeDatagram : parse wholeDatagram = .ok ⟨Ipv4Header.headerOf wholeDatagram, wholeDatagram⟩ :=
  parse_eq wholeDatagram (by decide) (by decide)

theorem parse_laterFragment : parse laterFragment = .ok ⟨Ipv4Header.headerOf laterFragment, laterFragment⟩ :=
  parse_eq laterFragment (by decide) (by decide)

theorem long_of_udp {p : Ipv4Packet} (hproto : p.protocol = netProtocolUdp) (hl : p.headerLength + 8 ≤ p.data.length) :
    Long p := by
  refine ⟨by omega, ?_⟩
  intro s e hf
  rw [hproto, show checksumField netProtocolUdp = some (6, 8) from rfl] at hf
  cases hf
  exact hl

theorem rewrite_touches_of_whole :
    ∃ q, ((Rewrite.masquerade 0xC0A80001).apply ⟨Ipv4Header.headerOf wholeDatagram, wholeDatagram⟩ :
        Res Unit Ipv4Packet) = .ok q ∧
      TouchesOnly (.masquerade 0xC0A80001) ⟨Ipv4Header.headerOf wholeDatagram, wholeDatagram⟩ q :=
  (rewrite_touches_iff parse_wholeDatagram (by decide) (long_of_udp (by decide) (by decide)) (.masquerade 0xC0A80001)).2
    ⟨by decide, by decide, by decide⟩

/-- **A later fragment gets another offset**, and two bytes of its data are taken for a checksum. -/
theorem laterFragment_touched :
    ¬ ∀ (data : List Byte) (p : Ipv4Packet) (r : Rewrite), parse data = .ok p → 5 ≤ p.header.ihl.toNat → Long p →
      ∃ q, (r.apply p : Res Unit Ipv4Packet) = .ok q ∧ TouchesOnly r p q := by
  intro h
  obtain ⟨q, hq, -, hkeeps⟩ := h laterFragment _ (.masquerade 0xC0A80001) parse_laterFragment (by decide)
    (long_of_udp (by decide) (by decide))
  obtain ⟨-, -, hq⟩ := Rewrite.apply_eq_ok.1 hq
  subst hq
  rcases hkeeps 7 (by decide +kernel) with hi | hi | ⟨hoffset, -⟩
  · exact absurd hi (by decide)
  · exact absurd hi (by decide)
  · exact absurd hoffset (by decide)

/-! ## Sequences of calls -/

def rewriteAll : List Rewrite → Ipv4Packet → Res ε Ipv4Packet
  | [], p => pure p
  | r :: rs, p => do rewriteAll rs (← r.apply p)

theorem Long.rewritten {p : Ipv4Packet} (h : Long p) (hl : 20 ≤ p.data.length) (src dst : Ipv4Addr) :
    Long (p.rewritten src dst) := (h.readdressed hl src dst).fixed

theorem header_rewritten (p : Ipv4Packet) (src dst : Ipv4Addr) :
    (p.rewritten src dst).header = { p.header with src, dst } :=
  fixed_header (p.readdressed src dst)

theorem length_rewritten {p : Ipv4Packet} (h : Long p) (hl : 20 ≤ p.data.length) (src dst : Ipv4Addr) :
    (p.rewritten src dst).data.length = p.data.length :=
  (length_fixed (h.readdressed hl src dst)).trans (length_readdressed hl src dst)

theorem headerLength_rewritten (p : Ipv4Packet) (src dst : Ipv4Addr) :
    (p.rewritten src dst).headerLength = p.headerLength :=
  (congrArg Ipv4Header.headerLength (header_rewritten p src dst)).trans rfl

theorem src_rewritten (p : Ipv4Packet) (src dst : Ipv4Addr) : (p.rewritten src dst).src = src :=
  congrArg Ipv4Header.src (header_rewritten p src dst)

theorem dest_rewritten (p : Ipv4Packet) (src dst : Ipv4Addr) : (p.rewritten src dst).dest = dst :=
  congrArg Ipv4Header.dst (header_rewritten p src dst)

/-- **After any calls** the packet is the first one with the last addresses. -/
theorem rewriteAll_rewritten : ∀ {rs : List Rewrite} {p q : Ipv4Packet}, Long p → 20 ≤ p.headerLength →
    (rewriteAll rs p : Res ε Ipv4Packet) = .ok q → (rs = [] ∧ q = p) ∨ ∃ src dst, q = p.rewritten src dst
  | [], p, q, _, _, h => by
    cases h
    exact Or.inl ⟨rfl, rfl⟩
  | r :: rs, p, q, hlong, hihl, h => by
    unfold rewriteAll at h
    rw [Res.bind_eq_ok] at h
    obtain ⟨p', hp', h⟩ := h
    obtain ⟨hl, -, rfl⟩ := Rewrite.apply_eq_ok.1 hp'
    rcases rewriteAll_rewritten (hlong.rewritten hl _ _) (by rw [headerLength_rewritten]; exact hihl) h with
      ⟨-, rfl⟩ | ⟨src, dst, rfl⟩
    · exact Or.inr ⟨_, _, rfl⟩
    · exact Or.inr ⟨src, dst, rewritten_rewritten hlong hihl _ _ src dst⟩

/-- **Up to 128 KiB every call returns.** -/
theorem apply_returns {p : Ipv4Packet} (hlong : Long p) (hihl : 20 ≤ p.headerLength) (hlen : p.data.length ≤ 131072)
    (r : Rewrite) : (r.apply p : Res ε Ipv4Packet) = .ok (p.rewritten (r.src p) (r.dest p)) := by
  have hl : 20 ≤ p.data.length := Nat.le_trans hihl hlong.1
  refine Rewrite.apply_eq_ok.2 ⟨hl, ⟨hlong, checksumSum_lt (hlong.readdressed hl _ _) ?_⟩, rfl⟩
  have hhl : (r.readdressed p).headerLength = p.headerLength := rfl
  have hlength : (r.readdressed p).data.length = p.data.length := length_readdressed hl _ _
  have htransport := length_transport (r.readdressed p)
  show (r.readdressed p).transport.length ≤ 131052
  omega

theorem rewriteAll_returns : ∀ (rs : List Rewrite) {p : Ipv4Packet}, Long p → 20 ≤ p.headerLength →
    p.data.length ≤ 131072 → ∃ q, (rewriteAll rs p : Res ε Ipv4Packet) = .ok q
  | [], p, _, _, _ => ⟨p, rfl⟩
  | r :: rs, p, hlong, hihl, hlen => by
    have hl : 20 ≤ p.data.length := Nat.le_trans hihl hlong.1
    obtain ⟨q, hq⟩ := rewriteAll_returns rs (hlong.rewritten hl (r.src p) (r.dest p))
      (by rw [headerLength_rewritten]; exact hihl) (by rw [length_rewritten hlong hl]; exact hlen)
    refine ⟨q, ?_⟩
    unfold rewriteAll
    rw [apply_returns hlong hihl hlen r, Res.bind_ok]
    exact hq

/-- Packets made by calls agree when their addresses do. -/
theorem rewriteAll_agree {p q q' : Ipv4Packet} (hlong : Long p) (hihl : 20 ≤ p.headerLength) {rs rs' : List Rewrite}
    (hrs : rs ≠ []) (hrs' : rs' ≠ []) (hq : (rewriteAll rs p : Res ε Ipv4Packet) = .ok q)
    (hq' : (rewriteAll rs' p : Res ε Ipv4Packet) = .ok q') (hsrc : q.src = q'.src) (hdest : q.dest = q'.dest) :
    q = q' := by
  rcases rewriteAll_rewritten hlong hihl hq with ⟨h, -⟩ | ⟨src, dst, rfl⟩
  · exact absurd h hrs
  rcases rewriteAll_rewritten hlong hihl hq' with ⟨h, -⟩ | ⟨src', dst', rfl⟩
  · exact absurd h hrs'
  rw [src_rewritten, src_rewritten] at hsrc
  rw [dest_rewritten, dest_rewritten] at hdest
  rw [hsrc, hdest]

theorem rewriteAll_one {p : Ipv4Packet} (hlong : Long p) (hihl : 20 ≤ p.headerLength) (hlen : p.data.length ≤ 131072)
    (r : Rewrite) : (rewriteAll [r] p : Res ε Ipv4Packet) = .ok (p.rewritten (r.src p) (r.dest p)) := by
  unfold rewriteAll
  rw [apply_returns hlong hihl hlen r]
  rfl

theorem rewriteAll_two {p : Ipv4Packet} (hlong : Long p) (hihl : 20 ≤ p.headerLength) (hlen : p.data.length ≤ 131072)
    (r r' : Rewrite) :
    (rewriteAll [r, r'] p : Res ε Ipv4Packet) =
      .ok (p.rewritten (r'.src (p.rewritten (r.src p) (r.dest p))) (r'.dest (p.rewritten (r.src p) (r.dest p)))) := by
  have hl : 20 ≤ p.data.length := Nat.le_trans hihl hlong.1
  have hlong' := hlong.rewritten hl (r.src p) (r.dest p)
  have hihl' : 20 ≤ (p.rewritten (r.src p) (r.dest p)).headerLength := by
    rw [headerLength_rewritten]
    exact hihl
  have hlen' : (p.rewritten (r.src p) (r.dest p)).data.length ≤ 131072 := by
    rw [length_rewritten hlong hl]
    exact hlen
  unfold rewriteAll
  rw [apply_returns hlong hihl hlen r, Res.bind_ok, rewriteAll_one hlong' hihl' hlen' r',
    rewritten_rewritten hlong hihl]

/-- **Address rewriting is path independent**: two sequences of calls after which a packet has the same addresses
leave the same header and the same bytes.  Up to 128 KiB all sequences return, so the last of two masquerades counts
alone, and a masquerade and an unmasquerade commute. -/
theorem rewrites_path_independent {data : List Byte} {p : Ipv4Packet} (hp : parse data = .ok p)
    (hihl : 5 ≤ p.header.ihl.toNat) (hlong : Long p) :
    (∀ (rs rs' : List Rewrite) (q q' : Ipv4Packet), rs ≠ [] → rs' ≠ [] →
        (rewriteAll rs p : Res ε Ipv4Packet) = .ok q → (rewriteAll rs' p : Res ε Ipv4Packet) = .ok q' →
        q.src = q'.src → q.dest = q'.dest → q = q') ∧
      (data.length ≤ 131072 →
        (∀ rs, ∃ q, (rewriteAll rs p : Res ε Ipv4Packet) = .ok q) ∧
        (∀ x y, (rewriteAll [.masquerade x, .masquerade y] p : Res ε Ipv4Packet) = rewriteAll [.masquerade y] p) ∧
        ∀ x y, (rewriteAll [.masquerade x, .unmasquerade y] p : Res ε Ipv4Packet) =
          rewriteAll [.unmasquerade y, .masquerade x] p) := by
  obtain ⟨-, -, hdata⟩ := parse_eq_ok hp
  have hhl : 20 ≤ p.headerLength := Nat.mul_le_mul_right 4 hihl
  refine ⟨fun rs rs' q q' hrs hrs' hq hq' => rewriteAll_agree hlong hhl hrs hrs' hq hq', ?_⟩
  intro hsize
  have hlen : p.data.length ≤ 131072 := by
    rw [hdata]
    exact hsize
  refine ⟨fun rs => rewriteAll_returns rs hlong hhl hlen, ?_, ?_⟩
  · intro x y
    rw [rewriteAll_two hlong hhl hlen, rewriteAll_one hlong hhl hlen]
    show Res.ok (p.rewritten y (p.rewritten x p.dest).dest) = Res.ok (p.rewritten y p.dest)
    rw [dest_rewritten]
  · intro x y
    rw [rewriteAll_two hlong hhl hlen, rewriteAll_two hlong hhl hlen]
    show Res.ok (p.rewritten (p.rewritten x p.dest).src y) = Res.ok (p.rewritten x (p.rewritten p.src y).dest)
    rw [src_rewritten, dest_rewritten]

theorem rewrites_path_independent_of_whole :
    (rewriteAll [.masquerade 0xC0A80001, .unmasquerade 0xC0A80002]
        ⟨Ipv4Header.headerOf wholeDatagram, wholeDatagram⟩ : Res Unit Ipv4Packet) =
      rewriteAll [.unmasquerade 0xC0A80002, .masquerade 0xC0A80001]
        ⟨Ipv4Header.headerOf wholeDatagram, wholeDatagram⟩ :=
  ((rewrites_path_independent parse_wholeDatagram (by decide) (long_of_udp (by decide) (by decide))).2
    (by decide)).2.2 0xC0A80001 0xC0A80002

end Ipv4Packet
end Oathgate
