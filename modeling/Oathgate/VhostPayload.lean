import Oathgate.VhostTypes
/-!
# VhostPayload — what the payload decoders read (`oathgate-vhost`: `types.rs`)

`SET_VRING_ADDR` carries two 32-bit words and four 64-bit ones.  A memory table carries the number of its regions, four
bytes of padding and thirty-two bytes for each region; its decoder never reads past the payload, and gives back the
table that was written (`memoryTable_decodes`).
-/
namespace Oathgate

open Lib TryFromPayload

/-! ## Regions -/

/-- The region at the start of some bytes. -/
def regionFrom (b : List Byte) : MemoryRegionDescription where
  guestAddress := le64At b 0
  size := le64At b 8
  userAddress := le64At b 16
  mmapOffset := le64At b 24

/-- Region `i` of a memory table. -/
def regionAt (pkt : List Byte) (i : Nat) : MemoryRegionDescription := regionFrom (pkt.drop (8 + 32 * i))

theorem regionAt_eq (pkt : List Byte) (i : Nat) :
    regionAt pkt i =
      { guestAddress := le64At pkt (8 + 32 * i), size := le64At pkt (16 + 32 * i),
        userAddress := le64At pkt (24 + 32 * i), mmapOffset := le64At pkt (32 + 32 * i) } := by
  have hword : ∀ k, 8 + 32 * i + k = 8 + k + 32 * i := fun k => by omega
  unfold regionAt regionFrom
  simp only [le64At_drop, hword]

theorem region_decodes {pkt : List Byte} (h : 32 ≤ pkt.length) :
    (tryFromPayload pkt : Res PayloadError MemoryRegionDescription) = .ok (regionFrom pkt) := by
  simp only [tryFromPayload]
  rw [if_neg (by omega), le64In_eq pkt 0 (by omega), le64In_eq pkt 8 (by omega), le64In_eq pkt 16 (by omega),
    le64In_eq pkt 24 (by omega)]
  rfl

/-- **The loop stays inside the payload** and reads one region after the other. -/
theorem readRegions_eq (pkt : List Byte) : ∀ n : Nat, 8 + 32 * n ≤ pkt.length →
    readRegions pkt n = .ok ((List.range n).map (regionAt pkt))
  | 0, _ => rfl
  | n + 1, h => by
    have hbefore := readRegions_eq pkt n (by omega)
    have hslice : ((pkt.drop (n * 32 + 8)).take 32).length = 32 := length_slice pkt _ 32 (by omega)
    have hregion : regionFrom ((pkt.drop (n * 32 + 8)).take 32) = regionAt pkt n := by
      have hword : ∀ k, k + 8 ≤ 32 → le64At ((pkt.drop (n * 32 + 8)).take 32) k = le64At (pkt.drop (8 + 32 * n)) k := by
        intro k hk
        rw [le64At_slice pkt hk (by omega), le64At_drop]
        congr 1
        omega
      unfold regionAt regionFrom
      simp (disch := omega) only [hword]
    unfold readRegions
    rw [hbefore, Res.bind_ok]
    simp only
    rw [slice_eq pkt _ _ (by omega) (by omega), Res.bind_ok, Nat.add_sub_cancel_left, region_decodes (by omega),
      Res.bind_ok, hregion, List.range_succ, List.map_append]
    rfl

/-! ## Tables -/

theorem memoryTable_eq (pkt : List Byte) :
    (tryFromPayload pkt : Res PayloadError (List MemoryRegionDescription)) =
      if 40 ≤ pkt.length ∧ 8 + 32 * (le32At pkt 0).toNat ≤ pkt.length then
        .ok ((List.range (le32At pkt 0).toNat).map (regionAt pkt))
      else .err (.notEnoughData pkt.length 40) := by
  simp only [tryFromPayload]
  by_cases h40 : 40 ≤ pkt.length
  · rw [if_neg (by omega), le32In_eq pkt 0 (by omega), Res.bind_ok]
    by_cases hfits : 8 + 32 * (le32At pkt 0).toNat ≤ pkt.length
    · rw [if_neg (by omega), if_pos ⟨h40, hfits⟩]
      exact readRegions_eq pkt _ hfits
    · rw [if_pos (by omega), if_neg fun h => hfits h.2]
  · rw [if_pos (by omega), if_neg fun h => h40 h.1]

/-- The bytes of a region. -/
def encodeRegion (r : MemoryRegionDescription) : List Byte :=
  toLe64 r.guestAddress ++ toLe64 r.size ++ toLe64 r.userAddress ++ toLe64 r.mmapOffset

theorem length_toLe64 (x : BitVec 64) : (toLe64 x).length = 8 := by
  unfold toLe64
  rw [List.length_map, List.length_range]

theorem length_encodeRegion (r : MemoryRegionDescription) : (encodeRegion r).length = 32 := by
  unfold encodeRegion
  simp only [List.length_append, length_toLe64]

theorem length_encodeRegions (regions : List MemoryRegionDescription) :
    (regions.flatMap encodeRegion).length = 32 * regions.length := by
  induction regions with
  | nil => rfl
  | cons r regions ih =>
    rw [List.flatMap_cons, List.length_append, length_encodeRegion, ih, List.length_cons]
    omega

theorem le64At_behind (x : BitVec 64) (rest : List Byte) (i : Nat) :
    le64At (toLe64 x ++ rest) (8 + i) = le64At rest i := by
  rw [← le64At_drop, List.drop_left' (length_toLe64 x)]

/-- **A region is read back.** -/
theorem regionFrom_encodeRegion (r : MemoryRegionDescription) (rest : List Byte) :
    regionFrom (encodeRegion r ++ rest) = r := by
  unfold regionFrom encodeRegion
  simp only [List.append_assoc]
  have h8 := le64At_behind r.guestAddress
  have h16 := le64At_behind r.size
  have h24 := le64At_behind r.userAddress
  rw [le64At_toLe64, h8 _ 0, h8 _ 8, h8 _ 16, h16 _ 0, h16 _ 8, h24 _ 0, le64At_toLe64, le64At_toLe64, le64At_toLe64]

theorem regionsFrom_encode (rest : List Byte) : ∀ regions : List MemoryRegionDescription,
    (List.range regions.length).map (fun i => regionFrom ((regions.flatMap encodeRegion ++ rest).drop (32 * i))) =
      regions
  | [] => rfl
  | r :: regions => by
    have hrest := regionsFrom_encode rest regions
    have hnext : ∀ i, ((r :: regions).flatMap encodeRegion ++ rest).drop (32 * (i + 1)) =
        (regions.flatMap encodeRegion ++ rest).drop (32 * i) := by
      intro i
      rw [show 32 * (i + 1) = 32 + 32 * i by omega, ← List.drop_drop, List.flatMap_cons, List.append_assoc,
        List.drop_left' (length_encodeRegion r)]
    rw [List.length_cons, List.range_succ_eq_map, List.map_cons, List.map_map]
    refine congrArg₂ List.cons ?_ ?_
    · rw [Nat.mul_zero, List.drop_zero, List.flatMap_cons, List.append_assoc, regionFrom_encodeRegion]
    · conv_rhs => rw [← hrest]
      apply List.map_congr_left
      intro i _
      exact congrArg regionFrom (hnext i)

/-- **A table that was written comes back**, whatever follows. -/
theorem memoryTable_roundTrip {regions : List MemoryRegionDescription} {padding : List Byte} (rest : List Byte)
    (hne : regions ≠ []) (hcount : regions.length < 2 ^ 32) (hpadding : padding.length = 4) :
    tryFromPayload (toLe32 (BitVec.ofNat 32 regions.length) ++ padding ++ regions.flatMap encodeRegion ++ rest) =
      .ok regions := by
  generalize hpkt : toLe32 (BitVec.ofNat 32 regions.length) ++ padding ++ regions.flatMap encodeRegion ++ rest = pkt
  have hn : (le32At pkt 0).toNat = regions.length := by
    rw [← hpkt, List.append_assoc, List.append_assoc, le32At_toLe32, BitVec.toNat_ofNat, Nat.mod_eq_of_lt hcount]
  have hlen : pkt.length = 8 + 32 * regions.length + rest.length := by
    rw [← hpkt]
    simp only [List.length_append, hpadding, length_encodeRegions, toLe32, List.length_cons, List.length_nil]
  have hpos := List.length_pos_iff.2 hne
  have hhead : (toLe32 (BitVec.ofNat 32 regions.length) ++ padding).length = 8 := by
    rw [List.length_append, hpadding]
    rfl
  have hdrop : ∀ i, pkt.drop (8 + 32 * i) = (regions.flatMap encodeRegion ++ rest).drop (32 * i) := by
    intro i
    rw [← hpkt, ← List.drop_drop, List.append_assoc _ _ rest, List.drop_left' hhead]
  rw [memoryTable_eq, if_pos ⟨by omega, by omega⟩, hn]
  refine congrArg Res.ok (Eq.trans ?_ (regionsFrom_encode rest regions))
  apply List.map_congr_left
  intro i _
  exact congrArg regionFrom (hdrop i)

/-- **A memory table is decoded from what is there**: the decoder returns on every payload, with the regions that the
count announces exactly when they and forty bytes are there; a table that was written comes back, whatever follows. -/
theorem memoryTable_decodes :
    (∀ pkt : List Byte, (tryFromPayload pkt : Res PayloadError (List MemoryRegionDescription)).Returns ∧
      ((∃ regions : List MemoryRegionDescription, tryFromPayload pkt = .ok regions) ↔
        40 ≤ pkt.length ∧ 8 + 32 * (le32At pkt 0).toNat ≤ pkt.length) ∧
      ∀ regions : List MemoryRegionDescription, tryFromPayload pkt = .ok regions →
        regions.length = (le32At pkt 0).toNat ∧ ∀ i, i < regions.length → regions[i]? =
          some { guestAddress := le64At pkt (8 + 32 * i), size := le64At pkt (16 + 32 * i),
                 userAddress := le64At pkt (24 + 32 * i), mmapOffset := le64At pkt (32 + 32 * i) }) ∧
    ∀ (regions : List MemoryRegionDescription) (padding rest : List Byte), regions ≠ [] → regions.length < 2 ^ 32 →
      padding.length = 4 →
      tryFromPayload (toLe32 (BitVec.ofNat 32 regions.length) ++ padding ++ regions.flatMap encodeRegion ++ rest) =
        .ok regions := by
  refine ⟨?_, fun regions padding rest hne hcount hpadding => memoryTable_roundTrip rest hne hcount hpadding⟩
  intro pkt
  rw [memoryTable_eq]
  split
  · rename_i hfits
    refine ⟨Res.returns_ok _, iff_of_true ⟨_, rfl⟩ hfits, ?_⟩
    intro regions hregions
    rw [Res.ok.injEq] at hregions
    subst hregions
    have hlen : ((List.range (le32At pkt 0).toNat).map (regionAt pkt)).length = (le32At pkt 0).toNat := by
      rw [List.length_map, List.length_range]
    refine ⟨hlen, ?_⟩
    intro i hi
    rw [hlen] at hi
    rw [List.getElem?_map, List.getElem?_range hi, ← regionAt_eq]
    rfl
  · rename_i hshort
    refine ⟨Res.returns_err _, iff_of_false ?_ hshort, ?_⟩
    · rintro ⟨regions, h⟩
      cases h
    · intro regions h
      cases h

theorem memoryTable_decodes_of_one :
    (tryFromPayload (toLe32 1 ++ [1, 2, 3, 4] ++ encodeRegion ⟨0x1000, 0x2000, 0x7F0000, 0⟩ ++ [5]) :
      Res PayloadError (List MemoryRegionDescription)) = .ok [⟨0x1000, 0x2000, 0x7F0000, 0⟩] :=
  memoryTable_decodes.2 [⟨0x1000, 0x2000, 0x7F0000, 0⟩] [1, 2, 3, 4] [5] (by simp) (by decide) rfl

end Oathgate
