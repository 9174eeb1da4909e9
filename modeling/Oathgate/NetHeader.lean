import Oathgate.NetPacket
/-!
# NetHeader — the IPv4 header on the wire (`oathgate-net`: `ipv4.rs`)

`extract_from_slice` gives the fragment offset in bytes, and `as_bytes` writes it as it is, where the wire has it in
units of eight bytes: the two are inverse exactly on headers with offset zero (`header_codec_iff`).  The parser checks
the length a header announces and not the twenty bytes it reads (`parse_accepts_iff`).
-/
namespace Oathgate

open Lib

variable {ε : Type}

namespace Ipv4Header

def intoBytes (h : Ipv4Header) : Res ε (List Byte) := h.asBytes (List.replicate 20 0)

/-- The flags and the fragment offset as `as_bytes` packs them. -/
def flagsFrag (h : Ipv4Header) : BitVec 16 := (h.flags.setWidth 16 <<< 13) ||| h.fragOffset

/-! ## Fields of less than a byte -/

theorem be16At_toNat (b : List Byte) (i : Nat) :
    (be16At b i).toNat = (byteAt b i).toNat * 256 + (byteAt b (i + 1)).toNat := by
  unfold be16At
  exact toNat_concat _ _

theorem and_mask13 (x : BitVec 16) : (x &&& 0x1FFF).toNat = x.toNat % 2 ^ 13 := by
  rw [BitVec.toNat_and]
  exact Nat.and_two_pow_sub_one_eq_mod x.toNat 13

/-- A first byte is written back as it was when its low nibble is five, and else with another nibble. -/
theorem firstByte_iff (x : Byte) : (x >>> 4) <<< 4 ||| 5 = x ↔ x &&& 0x0F = 5 := by
  constructor
  · intro h
    rw [← h]
    exact low_nibble_five (x >>> 4)
  · intro h
    rw [← h]
    apply BitVec.eq_of_getLsbD_eq
    intro i hi
    simp only [BitVec.getLsbD_or, BitVec.getLsbD_shiftLeft, BitVec.getLsbD_ushiftRight, BitVec.getLsbD_and]
    have hmask : (0x0F : Byte).getLsbD i = decide (i < 4) := by
      have hall : ∀ i : Fin 8, (0x0F : Byte).getLsbD i = decide (i.val < 4) := by decide
      exact hall ⟨i, hi⟩
    rw [hmask]
    by_cases h4 : i < 4
    · simp [h4]
    · simp [h4, hi, show 4 + (i - 4) = i by omega]

theorem flags_shift {flags : BitVec 8} (h : flags.toNat ≤ 7) :
    (flags.setWidth 16 <<< 13).toNat = flags.toNat * 2 ^ 13 := by
  rw [BitVec.toNat_shiftLeft, BitVec.toNat_setWidth, Nat.shiftLeft_eq]
  omega

/-- The low thirteen bits of what is packed are those of the offset in bytes. -/
theorem flagsFrag_low {h : Ipv4Header} (hf : h.flags.toNat ≤ 7) :
    h.flagsFrag.toNat % 2 ^ 13 = h.fragOffset.toNat % 2 ^ 13 := by
  unfold flagsFrag
  rw [BitVec.toNat_or, Nat.or_mod_two_pow, flags_shift hf, Nat.mul_mod_left, Nat.zero_or]

theorem flagsFrag_of_zero {h : Ipv4Header} (hf : h.flags.toNat ≤ 7) (hzero : h.fragOffset = 0) :
    h.flagsFrag.toNat = h.flags.toNat * 2 ^ 13 := by
  unfold flagsFrag
  rw [hzero, BitVec.toNat_or, flags_shift hf]
  exact Nat.or_zero _

theorem headerOf_flags (b : List Byte) : (headerOf b).flags.toNat = (byteAt b 6).toNat / 2 ^ 5 := by
  unfold headerOf
  rw [BitVec.toNat_ushiftRight, Nat.shiftRight_eq_div_pow]

theorem headerOf_fragOffset (b : List Byte) : (headerOf b).fragOffset.toNat = (be16At b 6).toNat % 2 ^ 13 * 8 := by
  unfold headerOf
  rw [BitVec.toNat_mul, and_mask13]
  have height : (8 : BitVec 16).toNat = 8 := rfl
  rw [height]
  omega

theorem fragOffset_eq_zero_iff {b : List Byte} : (headerOf b).fragOffset = 0 ↔ be16At b 6 &&& 0x1FFF = 0 := by
  have hoffset := headerOf_fragOffset b
  have hmask := and_mask13 (be16At b 6)
  constructor
  · intro h
    rw [h, show (0 : BitVec 16).toNat = 0 from rfl] at hoffset
    apply BitVec.eq_of_toNat_eq
    rw [hmask, show (0 : BitVec 16).toNat = 0 from rfl]
    omega
  · intro h
    exact congrArg (· * 8) h

/-- **The word of flags and offset is written back as it was exactly when the offset is zero.** -/
theorem flagsFrag_headerOf_iff (b : List Byte) : (headerOf b).flagsFrag = be16At b 6 ↔ be16At b 6 &&& 0x1FFF = 0 := by
  have h6 := (byteAt b 6).isLt
  have h7 := (byteAt b 7).isLt
  have hword := be16At_toNat b 6
  have hflags := headerOf_flags b
  have hoffset := headerOf_fragOffset b
  have hmask := and_mask13 (be16At b 6)
  constructor
  · intro h
    have hlow := flagsFrag_low (h := headerOf b) (by omega)
    rw [h, hoffset] at hlow
    apply BitVec.eq_of_toNat_eq
    rw [hmask, show (0 : BitVec 16).toNat = 0 from rfl]
    omega
  · intro h
    rw [h, show (0 : BitVec 16).toNat = 0 from rfl] at hmask
    apply BitVec.eq_of_toNat_eq
    rw [flagsFrag_of_zero (by omega) (fragOffset_eq_zero_iff.2 h)]
    omega

/-! ## Headers and slices -/

/-- The headers `extract_from_slice` produces from a slice without options. -/
structure Codable (h : Ipv4Header) : Prop where
  version : h.version.toNat ≤ 15
  ihl : h.ihl = 5
  flags : h.flags.toNat ≤ 7
  fragOffset : h.fragOffset.toNat % 8 = 0

/-- **What the wire says** is the header, its offset multiplied by eight, and the checksum that was written. -/
theorem headerOf_wire {h : Ipv4Header} (hh : Codable h) (tos : Byte) (c : BitVec 16) (rest : List Byte) :
    headerOf (h.wire tos c ++ rest) =
      { h with
        flags := byteAt (toBe16 h.flagsFrag) 0 >>> 5
        fragOffset := (h.flagsFrag &&& 0x1FFF) * 8
        checksum := c } := by
  have hversion : ((h.version <<< 4) ||| 5) >>> 4 = h.version := by
    have hv := hh.version
    apply BitVec.eq_of_toNat_eq
    rw [BitVec.toNat_ushiftRight, BitVec.toNat_or, Nat.shiftRight_or_distrib, BitVec.toNat_shiftLeft,
      Nat.shiftLeft_eq, Nat.shiftRight_eq_div_pow]
    have hnibble : (5 : Byte).toNat >>> 4 = 0 := rfl
    rw [hnibble, Nat.or_zero]
    omega
  have hihl : ((h.version <<< 4) ||| 5) &&& 0x0F = h.ihl := by
    rw [hh.ihl]
    exact low_nibble_five h.version
  have hlength : be16At (h.wire tos c ++ rest) 2 = h.length := be16At_toBe16 h.length []
  have hid : be16At (h.wire tos c ++ rest) 4 = h.id := be16At_toBe16 h.id []
  have hfrag : be16At (h.wire tos c ++ rest) 6 = h.flagsFrag := be16At_toBe16 h.flagsFrag []
  have hsum : be16At (h.wire tos c ++ rest) 10 = c := be16At_toBe16 c []
  have hsrc : be32At (h.wire tos c ++ rest) 12 = h.src := be32At_toBe32 h.src []
  have hdst : be32At (h.wire tos c ++ rest) 16 = h.dst := be32At_toBe32 h.dst []
  unfold headerOf
  rw [hlength, hid, hfrag, hsum, hsrc, hdst]
  have hfirst : byteAt (h.wire tos c ++ rest) 0 = (h.version <<< 4) ||| 5 := rfl
  rw [hfirst, hversion, hihl]
  rfl

/-- The header comes back from its bytes, but for the checksum. -/
def RoundTrips (h : Ipv4Header) : Prop :=
  ∃ bytes h', (h.intoBytes : Res ProtocolError (List Byte)) = .ok bytes ∧ extractFromSlice bytes = .ok h' ∧
    { h' with checksum := h.checksum } = h

/-- The header of a slice, written back into it, changes its checksum at most. -/
def KeepsBytes (b : List Byte) : Prop :=
  ∃ h b', extractFromSlice b = .ok h ∧ (h.asBytes b : Res ProtocolError (List Byte)) = .ok b' ∧
    b'.length = b.length ∧ ∀ i, i ≠ 10 → i ≠ 11 → byteAt b' i = byteAt b i

/-- What `into_bytes` writes is read with the offset multiplied by eight. -/
theorem extract_intoBytes {h : Ipv4Header} (hh : Codable h) :
    ∃ bytes c, (h.intoBytes : Res ProtocolError (List Byte)) = .ok bytes ∧
      extractFromSlice bytes = .ok { h with
        flags := byteAt (toBe16 h.flagsFrag) 0 >>> 5
        fragOffset := (h.flagsFrag &&& 0x1FFF) * 8
        checksum := c } := by
  have honto : h.onto (List.replicate 20 0) = h.wire 0 (h.wireSum 0) ++ [] := rfl
  have hhdr := headerOf_wire hh 0 (h.wireSum 0) []
  have hlen : (h.wire 0 (h.wireSum 0) ++ []).length = 20 := rfl
  have hnibble : byteAt (h.wire 0 (h.wireSum 0) ++ []) 0 &&& 0x0F = 5 := (congrArg Ipv4Header.ihl hhdr).trans hh.ihl
  refine ⟨_, h.wireSum 0, asBytes_onto h (List.replicate 20 0) (by decide), ?_⟩
  rw [honto, extractFromSlice_eq _ ?_ (Nat.le_of_eq hlen.symm), hhdr]
  unfold ihlBytes
  rw [hnibble, hlen]
  decide

theorem roundTrips_iff_fields {h : Ipv4Header} (hh : Codable h) :
    RoundTrips h ↔ byteAt (toBe16 h.flagsFrag) 0 >>> 5 = h.flags ∧ (h.flagsFrag &&& 0x1FFF) * 8 = h.fragOffset := by
  obtain ⟨bytes, c, hinto, hextract⟩ := extract_intoBytes hh
  constructor
  · rintro ⟨bytes', h', hbytes, hh', heq⟩
    rw [hinto, Res.ok.injEq] at hbytes
    rw [← hbytes, hextract, Res.ok.injEq] at hh'
    rw [← hh'] at heq
    exact ⟨congrArg Ipv4Header.flags heq, congrArg Ipv4Header.fragOffset heq⟩
  · rintro ⟨hflags, hoffset⟩
    refine ⟨_, _, hinto, hextract, ?_⟩
    rw [hflags, hoffset]

/-- **A header comes back from its bytes exactly when its offset is zero.** -/
theorem roundTrips_iff {h : Ipv4Header} (hh : Codable h) : RoundTrips h ↔ h.fragOffset = 0 := by
  have hf := hh.flags
  have hmul : ((h.flagsFrag &&& 0x1FFF) * 8).toNat = h.fragOffset.toNat % 2 ^ 13 * 8 := by
    have height : (8 : BitVec 16).toNat = 8 := rfl
    rw [BitVec.toNat_mul, and_mask13, flagsFrag_low hf, height]
    omega
  rw [roundTrips_iff_fields hh]
  constructor
  · rintro ⟨-, hoffset⟩
    rw [hoffset] at hmul
    apply BitVec.eq_of_toNat_eq
    rw [show (0 : BitVec 16).toNat = 0 from rfl]
    have hlt := h.fragOffset.isLt
    omega
  · intro hzero
    have hword := flagsFrag_of_zero hf hzero
    constructor
    · apply BitVec.eq_of_toNat_eq
      have hbyte : (byteAt (toBe16 h.flagsFrag) 0).toNat = h.flagsFrag.toNat / 2 ^ 8 % 2 ^ 8 := by
        rw [show byteAt (toBe16 h.flagsFrag) 0 = h.flagsFrag.extractLsb' 8 8 from rfl, BitVec.extractLsb'_toNat,
          Nat.shiftRight_eq_div_pow]
      rw [BitVec.toNat_ushiftRight, Nat.shiftRight_eq_div_pow, hbyte, hword]
      omega
    · apply BitVec.eq_of_toNat_eq
      rw [hmul, hzero]
      rfl

/-- The bytes that are written for the header of a slice, with any addresses. -/
theorem wire_headerOf (b : List Byte) (src dst : Ipv4Addr) (tos : Byte) (c : BitVec 16) :
    ({ headerOf b with src, dst } : Ipv4Header).wire tos c =
      [(byteAt b 0 >>> 4) <<< 4 ||| 5, tos, byteAt b 2, byteAt b 3, byteAt b 4, byteAt b 5] ++
        toBe16 (headerOf b).flagsFrag ++ [byteAt b 8, byteAt b 9] ++ toBe16 c ++ toBe32 src ++ toBe32 dst := by
  have hlength := toBe16_be16At b 2
  have hid := toBe16_be16At b 4
  unfold wire
  simp only [headerOf, hlength, hid]
  rfl

theorem byteAt_onto (h : Ipv4Header) (b : List Byte) {i : Nat} :
    byteAt (h.onto b) i = if i < 20 then byteAt (h.wire (byteAt b 1) (h.wireSum (byteAt b 1))) i else byteAt b i := by
  have hlen := h.length_wire (byteAt b 1) (h.wireSum (byteAt b 1))
  unfold onto
  split
  · rw [byteAt_append_left _ _ _ (by omega)]
  · rw [byteAt_append_right _ _ _ (by omega), byteAt_drop, hlen]
    congr 1
    omega

/-- **Which bytes a header with new addresses changes in the slice it was read from**: those of the checksum and of the
addresses, when the slice has no options and the offset is zero, and else some of the first byte or of the offset. -/
theorem onto_changes_iff {b : List Byte} (src dst : Ipv4Addr) :
    (∀ i, i < 10 → byteAt (({ headerOf b with src, dst } : Ipv4Header).onto b) i = byteAt b i) ↔
      byteAt b 0 &&& 0x0F = 5 ∧ be16At b 6 &&& 0x1FFF = 0 := by
  have hbytes : ∀ i, i < 10 → byteAt (({ headerOf b with src, dst } : Ipv4Header).onto b) i =
      byteAt ([(byteAt b 0 >>> 4) <<< 4 ||| 5, byteAt b 1, byteAt b 2, byteAt b 3, byteAt b 4, byteAt b 5] ++
        toBe16 (headerOf b).flagsFrag ++ [byteAt b 8, byteAt b 9]) i := by
    intro i hi
    rw [byteAt_onto, if_pos (by omega), wire_headerOf, List.append_assoc, List.append_assoc]
    exact byteAt_append_left _ _ _ (by simp [toBe16]; omega)
  have hword : be16At b 6 = byteAt b 6 ++ byteAt b 7 := rfl
  rw [← firstByte_iff, ← flagsFrag_headerOf_iff]
  constructor
  · intro h
    refine ⟨(hbytes 0 (by omega)).symm.trans (h 0 (by omega)), ?_⟩
    have hsix : (headerOf b).flagsFrag.extractLsb' 8 8 = byteAt b 6 := (hbytes 6 (by omega)).symm.trans (h 6 (by omega))
    have hseven : (headerOf b).flagsFrag.extractLsb' 0 8 = byteAt b 7 :=
      (hbytes 7 (by omega)).symm.trans (h 7 (by omega))
    rw [hword, ← hsix, ← hseven]
    exact (be16At_toBe16 (headerOf b).flagsFrag []).symm
  · rintro ⟨hfirst, hfrag⟩ i hi
    rw [hbytes i hi, hfirst, hfrag, toBe16_be16At]
    rcases i with _ | _ | _ | _ | _ | _ | _ | _ | _ | _ | i
    all_goals first
      | rfl
      | omega

theorem byteAt_toBe32 (b : List Byte) (i : Nat) {k : Nat} (hk : k < 4) :
    byteAt (toBe32 (be32At b i)) k = byteAt b (i + k) := by
  rw [toBe32_be32At]
  rcases k with _ | _ | _ | _ | k
  all_goals first
    | rfl
    | omega

/-- The bytes of the addresses. -/
theorem onto_addresses {b : List Byte} (src dst : Ipv4Addr) {i : Nat} (h12 : 12 ≤ i) (h20 : i < 20) :
    byteAt (({ headerOf b with src, dst } : Ipv4Header).onto b) i =
      if i < 16 then byteAt (toBe32 src) (i - 12) else byteAt (toBe32 dst) (i - 16) := by
  rw [byteAt_onto, if_pos h20, wire_headerOf]
  split
  · rw [byteAt_append_left _ _ _ (by simp [toBe16, toBe32]; omega), byteAt_append_right _ _ _ (by simp [toBe16]; omega)]
    rfl
  · rw [byteAt_append_right _ _ _ (by simp [toBe16, toBe32]; omega)]
    rfl

/-- **A slice without options keeps its bytes exactly when its offset is zero.** -/
theorem keepsBytes_iff {b : List Byte} (hlen : 20 ≤ b.length) (hnibble : byteAt b 0 &&& 0x0F = 5) :
    KeepsBytes b ↔ be16At b 6 &&& 0x1FFF = 0 := by
  have hextract : extractFromSlice b = .ok (headerOf b) := by
    apply extractFromSlice_eq _ _ hlen
    unfold ihlBytes
    rw [hnibble]
    exact hlen
  have hself : (headerOf b).onto b = ({ headerOf b with src := be32At b 12, dst := be32At b 16 } : Ipv4Header).onto b :=
    rfl
  have hchanges := onto_changes_iff (b := b) (be32At b 12) (be32At b 16)
  rw [← hself] at hchanges
  constructor
  · rintro ⟨h, b', hh, hb', -, hkeeps⟩
    rw [hextract, Res.ok.injEq] at hh
    rw [← hh, asBytes_onto _ b hlen, Res.ok.injEq] at hb'
    rw [← hb'] at hkeeps
    exact (hchanges.1 fun i hi => hkeeps i (by omega) (by omega)).2
  · intro hzero
    refine ⟨_, _, hextract, asBytes_onto _ b hlen, length_onto _ b hlen, ?_⟩
    intro i h10 h11
    by_cases hi : i < 10
    · exact hchanges.2 ⟨hnibble, hzero⟩ i hi
    · by_cases h20 : i < 20
      · rw [hself, onto_addresses _ _ (by omega) h20]
        split
        · rw [byteAt_toBe32 b 12 (by omega)]
          congr 1
          omega
        · rw [byteAt_toBe32 b 16 (by omega)]
          congr 1
          omega
      · rw [byteAt_onto, if_neg h20]

/-- **The header codec is one exactly on unfragmented headers.**  A header without options comes back from its bytes if
and only if its fragment offset is zero, and a slice without options keeps its bytes when its header is written back if
and only if its offset is. -/
theorem header_codec_iff (h : Ipv4Header) (b : List Byte) :
    (Codable h → (RoundTrips h ↔ h.fragOffset = 0)) ∧
      (20 ≤ b.length → byteAt b 0 &&& 0x0F = 5 → (KeepsBytes b ↔ be16At b 6 &&& 0x1FFF = 0)) :=
  ⟨fun hh => roundTrips_iff hh, fun hlen hnibble => keepsBytes_iff hlen hnibble⟩

/-- The header of the second fragment of a datagram, eight bytes into it. -/
def secondFragment : Ipv4Header :=
  { version := 4, ihl := 5, length := 28, id := 1, flags := 0, fragOffset := 8, ttl := 64, protocol := 17,
    checksum := 0, src := 0x0A000001, dst := 0x0A000002 }

theorem secondFragment_codable : Codable secondFragment := ⟨by decide, rfl, by decide, by decide⟩

/-- The header of a datagram in one piece and eight bytes behind it. -/
def wholeSlice : List Byte := [0x45, 0, 0, 28, 0, 1, 0, 0, 64, 17, 0, 0, 10, 0, 0, 1, 10, 0, 0, 2] ++ List.replicate 8 0

theorem header_codec_of_whole : RoundTrips { secondFragment with fragOffset := 0 } ∧ KeepsBytes wholeSlice := by
  have hcodec := header_codec_iff { secondFragment with fragOffset := 0 } wholeSlice
  exact ⟨(hcodec.1 ⟨by decide, rfl, by decide, by decide⟩).2 rfl, (hcodec.2 (by decide) (by decide)).2 (by decide)⟩

/-- **A fragment eight bytes in comes back as one sixty-four bytes in.** -/
theorem fragment_not_codable : Codable secondFragment ∧ ¬ RoundTrips secondFragment :=
  ⟨secondFragment_codable, fun h => absurd ((roundTrips_iff secondFragment_codable).1 h) (by decide)⟩

end Ipv4Header

/-! ## Acceptance -/

namespace Ipv4Packet

/-- **What a parser of packets should accept**: it returns, on twenty bytes and the header they announce it gives a
packet whose payload lies behind them, and on anything else an error. -/
def Accepts (data : List Byte) : Prop :=
  (parse data).Returns ∧
    ((∃ p, parse data = .ok p) ↔
      20 ≤ data.length ∧ 5 ≤ (byteAt data 0 &&& 0x0F).toNat ∧ (byteAt data 0 &&& 0x0F).toNat * 4 ≤ data.length) ∧
    ∀ p, parse data = .ok p → 20 ≤ p.headerLength ∧ (p.payload : Res ProtocolError _) = .ok (data.drop p.headerLength)

theorem accepts_of_err {data : List Byte} {e : ProtocolError} (herr : parse data = .err e)
    (hbad : ¬ (20 ≤ data.length ∧ 5 ≤ (byteAt data 0 &&& 0x0F).toNat ∧
      (byteAt data 0 &&& 0x0F).toNat * 4 ≤ data.length)) : Accepts data := by
  refine ⟨?_, iff_of_false ?_ hbad, ?_⟩
  · rw [herr]
    exact Res.returns_err _
  · rintro ⟨p, h⟩
    rw [herr] at h
    cases h
  · intro p h
    rw [herr] at h
    cases h

theorem accepts_short {data : List Byte} (h0 : data ≠ []) (hshort : data.length < Ipv4Header.ihlBytes data) :
    Accepts data := by
  refine accepts_of_err (e := .notEnoughData data.length (Ipv4Header.ihlBytes data)) ?_ ?_
  · unfold parse
    rw [Ipv4Header.extractFromSlice_short data h0 hshort]
    rfl
  · rintro ⟨-, -, h⟩
    exact absurd hshort (Nat.not_lt.2 h)

/-- A field is read past the end of less than twenty bytes. -/
theorem not_returns_parse {data : List Byte} (h0 : data ≠ []) (hfits : Ipv4Header.ihlBytes data ≤ data.length)
    (h20 : data.length < 20) : ¬ (parse data).Returns := by
  unfold parse
  rw [Res.returns_bind]
  exact fun h => Ipv4Header.extractFromSlice_panic data h0 hfits h20 h.1

theorem accepts_whole_iff {data : List Byte} (hfits : Ipv4Header.ihlBytes data ≤ data.length)
    (h20 : 20 ≤ data.length) : Accepts data ↔ 5 ≤ (byteAt data 0 &&& 0x0F).toNat := by
  have hparse := parse_eq data hfits h20
  constructor
  · rintro ⟨-, hok, -⟩
    exact (hok.1 ⟨_, hparse⟩).2.1
  · intro hfive
    refine ⟨?_, iff_of_true ⟨_, hparse⟩ ⟨h20, hfive, hfits⟩, ?_⟩
    · rw [hparse]
      exact Res.returns_ok _
    · intro p hp
      rw [hparse, Res.ok.injEq] at hp
      rw [← hp]
      exact ⟨Nat.mul_le_mul_right 4 hfive, payload_eq ⟨Ipv4Header.headerOf data, data⟩ hfits⟩

/-- **`parse` accepts as it should exactly when the length nibble is five or more, or the buffer ends before the header
it announces.** -/
theorem parse_accepts_iff (data : List Byte) :
    Accepts data ↔
      data = [] ∨ data.length < (byteAt data 0 &&& 0x0F).toNat * 4 ∨ 5 ≤ (byteAt data 0 &&& 0x0F).toNat := by
  have hihl : Ipv4Header.ihlBytes data = (byteAt data 0 &&& 0x0F).toNat * 4 := rfl
  rw [← hihl]
  by_cases h0 : data = []
  · subst h0
    exact iff_of_true (accepts_of_err rfl (by decide)) (Or.inl rfl)
  by_cases hshort : data.length < Ipv4Header.ihlBytes data
  · exact iff_of_true (accepts_short h0 hshort) (Or.inr (Or.inl hshort))
  by_cases h20 : data.length < 20
  · -- the header it announces is less than twenty bytes
    have hfour : ¬ 5 ≤ (byteAt data 0 &&& 0x0F).toNat := by omega
    refine iff_of_false (fun h => not_returns_parse h0 (Nat.not_lt.1 hshort) h20 h.1) ?_
    simp only [h0, hshort, hfour, or_self, not_false_eq_true]
  · rw [accepts_whole_iff (Nat.not_lt.1 hshort) (Nat.not_lt.1 h20)]
    simp only [h0, hshort, false_or]

/-- **A single byte panics**, and twenty zero bytes are a packet whose payload starts at its first byte. -/
theorem parse_not_acceptance :
    (¬ (parse [0x40]).Returns ∧ (∃ p, parse (List.replicate 20 0) = .ok p ∧ p.headerLength = 0)) ∧
      ¬ ∀ data, Accepts data := by
  have hpanic : ¬ (parse [0x40]).Returns := not_returns_parse (by simp) (by decide) (by decide)
  refine ⟨⟨hpanic, _, parse_eq (List.replicate 20 0) (by decide) (by decide), by decide⟩, ?_⟩
  intro h
  exact hpanic (h [0x40]).1

end Ipv4Packet
end Oathgate
