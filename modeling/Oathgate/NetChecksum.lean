import Oathgate.LibOnes
import Oathgate.NetIpv4
/-!
# NetChecksum — the Internet checksum (`oathgate-net`: `lib.rs`)

The Internet checksum is the complement of the one's-complement sum of a buffer's words.  `checksum` and `ph_checksum`
add the words in 32 bits, which is wide enough, and then fold the high half back once, which is not: where that
addition carries, the carry is cut off (`checksum_internet_iff`).  On one buffer both compute the same
(`phChecksum_eq_checksum`).
-/
namespace Oathgate

open Lib

variable {ε : Type}

/-! ## The words of a buffer -/

/-- The big-endian 16-bit words of a buffer, an odd last byte padded with zero. -/
def words : List Byte → List Nat
  | [] => []
  | [b0] => [b0.toNat * 256]
  | b0 :: b1 :: rest => (b0.toNat * 256 + b1.toNat) :: words rest

/-- The one's-complement sum of the words of a buffer. -/
def onesSum (data : List Byte) : Nat := Ones.sum (2 ^ 16) (words data)

/-- **The Internet checksum**: the complement of the one's-complement sum. -/
def internetChecksum (data : List Byte) : BitVec 16 := BitVec.ofNat 16 (Ones.complement (2 ^ 16) (onesSum data))

/-- The two bytes of a word have its value. -/
theorem word32_toBe16 (c : BitVec 16) : (word32 (c.extractLsb' 8 8) (c.extractLsb' 0 8)).toNat = c.toNat := by
  conv_rhs => rw [← concat_bytes16 c, toNat_concat]
  exact word32_toNat _ _

theorem words_lt : ∀ (data : List Byte), ∀ w ∈ words data, w < 2 ^ 16
  | [], w, h => by cases h
  | [b0], w, h => by
    have h0 := b0.isLt
    rw [words, List.mem_singleton] at h
    omega
  | b0 :: b1 :: rest, w, h => by
    have h0 := b0.isLt
    have h1 := b1.isLt
    rw [words, List.mem_cons] at h
    rcases h with rfl | h
    · omega
    · exact words_lt rest w h

theorem wordSum_eq : ∀ data : List Byte, wordSum data = (words data).sum
  | [] => rfl
  | [b0] => by
    rw [wordSum, word32_toNat, words, List.sum_singleton, show (0 : Byte).toNat = 0 from rfl, Nat.add_zero]
  | b0 :: b1 :: rest => by rw [wordSum, word32_toNat, wordSum_eq rest, words, List.sum_cons]

/-- **The words of two buffers** are those of both together when the first has a whole number of them. -/
theorem words_append : ∀ (a b : List Byte), a.length % 2 = 0 → words (a ++ b) = words a ++ words b
  | [], _, _ => rfl
  | [_], _, h => by simp at h
  | a0 :: a1 :: a, b, h => by
    have hrest := words_append a b (by simp only [List.length_cons] at h; omega)
    simp only [List.cons_append, words, hrest]

theorem wordSum_append {a b : List Byte} (h : a.length % 2 = 0) : wordSum (a ++ b) = wordSum a + wordSum b := by
  rw [wordSum_eq, words_append a b h, List.sum_append, wordSum_eq, wordSum_eq]

/-- After an odd number of bytes the next one ends the word that the last one began. -/
theorem wordSum_append_odd : ∀ {a b : List Byte}, a.length % 2 = 1 → wordSum (a ++ b) = wordSum a + wordSum (0 :: b)
  | [], _, h => by simp at h
  | [a0], [], _ => rfl
  | [a0], b0 :: b, _ => by
    simp only [List.cons_append, List.nil_append, wordSum, word32_toNat]
    simp only [show (0 : Byte).toNat = 0 from rfl]
    omega
  | a0 :: a1 :: a, b, h => by
    have hrest := wordSum_append_odd (a := a) (b := b) (by simp only [List.length_cons] at h; omega)
    simp only [List.cons_append, wordSum, hrest]
    omega

theorem wordSum_replicate : ∀ n : Nat, wordSum (List.replicate n 0) = 0
  | 0 => rfl
  | 1 => rfl
  | n + 2 => by
    simp only [List.replicate_succ, wordSum, wordSum_replicate n]
    rfl

/-- Zeros behind a buffer do not count, whether its length is even or odd. -/
theorem wordSum_append_zeros (a : List Byte) (n : Nat) : wordSum (a ++ List.replicate n 0) = wordSum a := by
  rcases Nat.mod_two_eq_zero_or_one a.length with h | h
  · rw [wordSum_append h, wordSum_replicate, Nat.add_zero]
  · rw [wordSum_append_odd h, ← List.replicate_succ, wordSum_replicate, Nat.add_zero]

theorem wordSum_le : ∀ data : List Byte, wordSum data ≤ 65535 * ((data.length + 1) / 2)
  | [] => Nat.zero_le _
  | [b0] => by
    have h := word32_toNat_lt b0 0
    simp only [wordSum, List.length_singleton]
    omega
  | b0 :: b1 :: rest => by
    have h := word32_toNat_lt b0 b1
    have hrest := wordSum_le rest
    simp only [wordSum, List.length_cons]
    omega

/-- Buffers up to 128 KiB do not overflow the sum. -/
theorem wordSum_lt {data : List Byte} (h : data.length < 131072) : wordSum data < 2 ^ 32 := by
  have hle := wordSum_le data
  omega

theorem pseudoSum_lt (src dst : Ipv4Addr) (proto : BitVec 8) (len : Nat) :
    pseudoSum src dst proto len < 6 * 2 ^ 16 := by
  have h1 := word32_toNat_lt (byteAt (toBe32 src) 2) (byteAt (toBe32 src) 3)
  have h2 := word32_toNat_lt (byteAt (toBe32 src) 0) (byteAt (toBe32 src) 1)
  have h3 := word32_toNat_lt (byteAt (toBe32 dst) 2) (byteAt (toBe32 dst) 3)
  have h4 := word32_toNat_lt (byteAt (toBe32 dst) 0) (byteAt (toBe32 dst) 1)
  have h5 := proto.isLt
  have h6 := Nat.mod_lt len (by decide : 2 ^ 16 > 0)
  unfold pseudoSum
  omega

/-! ## One fold -/

theorem foldSum_eq {n : Nat} (h : n < 2 ^ 32) :
    foldSum (BitVec.ofNat 32 n) =
      BitVec.ofNat 16 (Ones.complement (2 ^ 16) (Ones.foldOnce (2 ^ 16) n % 2 ^ 16)) := by
  have hn : (BitVec.ofNat 32 n).toNat = n := Nat.mod_eq_of_lt h
  have hmask : ∀ x m : BitVec 32, m.toNat = 2 ^ 16 - 1 → (x &&& m).toNat = x.toNat % 2 ^ 16 := by
    intro x m hm
    rw [BitVec.toNat_and, hm, Nat.and_two_pow_sub_one_eq_mod]
  apply BitVec.eq_of_toNat_eq
  unfold foldSum Ones.complement Ones.foldOnce
  rw [BitVec.toNat_not, BitVec.toNat_setWidth, BitVec.toNat_add, hmask _ _ rfl, hmask _ _ rfl,
    BitVec.toNat_ushiftRight, hn, Nat.shiftRight_eq_div_pow, BitVec.toNat_ofNat]
  omega

theorem ofNat_complement_inj {a b : Nat} (ha : a < 2 ^ 16) (hb : b < 2 ^ 16)
    (h : BitVec.ofNat 16 (Ones.complement (2 ^ 16) a) = BitVec.ofNat 16 (Ones.complement (2 ^ 16) b)) : a = b := by
  have hnat := congrArg BitVec.toNat h
  unfold Ones.complement at hnat
  rw [BitVec.toNat_ofNat, BitVec.toNat_ofNat] at hnat
  omega

/-- Two sums give one checksum when their folds agree, the carries dropped. -/
theorem foldSum_eq_iff {m n : Nat} (hm : m < 2 ^ 32) (hn : n < 2 ^ 32) :
    foldSum (BitVec.ofNat 32 m) = foldSum (BitVec.ofNat 32 n) ↔
      Ones.foldOnce (2 ^ 16) m % 2 ^ 16 = Ones.foldOnce (2 ^ 16) n % 2 ^ 16 := by
  rw [foldSum_eq hm, foldSum_eq hn]
  constructor
  · exact ofNat_complement_inj (Nat.mod_lt _ (by decide)) (Nat.mod_lt _ (by decide))
  · intro h
    rw [h]

theorem checksum_eq {data : List Byte} (h : wordSum data < 2 ^ 32) :
    (checksum data : Res ε (BitVec 16)) = .ok (foldSum (BitVec.ofNat 32 (wordSum data))) := by
  have hzero : (0 : BitVec 32).toNat + wordSum data < 2 ^ 32 := by simpa using h
  obtain ⟨r, hr⟩ := (addWords_eq_ok (ε := ε) data 0).2 hzero
  unfold checksum
  rw [hr, Res.bind_ok, addWords_value hr]
  exact congrArg (fun x => Res.ok (foldSum x)) (BitVec.zero_add _)

theorem onesSum_eq (data : List Byte) : onesSum data = Ones.residue (2 ^ 16) (wordSum data) := by
  rw [onesSum, Ones.sum_eq (by decide) (words_lt data), wordSum_eq]

/-- A word stored over a zero word is added to the sum. -/
theorem wordSum_store {data data' : List Byte} {i : Nat} (heven : i % 2 = 0) (hzero : byteAt data i = 0)
    (hzero' : byteAt data (i + 1) = 0) (c : BitVec 16)
    (hstore : (copyAt data i (i + 2) (toBe16 c) : Res ε (List Byte)) = .ok data') :
    wordSum data' = wordSum data + c.toNat := by
  have hend := copyAt_end hstore
  rw [copyAt_eq data i (i + 2) _ (by omega) hend (by simp [toBe16]), Res.ok.injEq] at hstore
  have htake : (data.take i).length % 2 = 0 := by
    rw [List.length_take]
    omega
  have hsplit : data = data.take i ++ (0 :: 0 :: data.drop (i + 2)) := by
    have h0 : data[i] = 0 := by rw [← hzero, byteAt, List.getD_eq_getElem _ _ (by omega)]
    have h1 : data[i + 1] = 0 := by rw [← hzero', byteAt, List.getD_eq_getElem _ _ (by omega)]
    conv_lhs => rw [← List.take_append_drop i data, List.drop_eq_getElem_cons (by omega : i < data.length),
      List.drop_eq_getElem_cons (by omega : i + 1 < data.length), h0, h1]
  rw [← hstore, List.append_assoc, wordSum_append htake]
  conv_rhs => rw [hsplit, wordSum_append htake]
  simp only [toBe16, List.cons_append, List.nil_append, wordSum, word32_toBe16]
  rw [show (word32 0 0).toNat = 0 from rfl]
  omega

/-- **`checksum` is the Internet checksum exactly where its fold does not carry**: the two halves of the plain sum of
the words come to a 16-bit number.  So it does, too, that the checksum stored in a zeroed, aligned field makes the sum
of the buffer all ones. -/
theorem checksum_internet_iff (data : List Byte) (hlen : data.length ≤ 65535) :
    ((checksum data : Res ε (BitVec 16)) = .ok (internetChecksum data) ↔
      (words data).sum % 2 ^ 16 + (words data).sum / 2 ^ 16 < 2 ^ 16) ∧
    ∀ i, i + 2 ≤ data.length → i % 2 = 0 → byteAt data i = 0 → byteAt data (i + 1) = 0 →
      ((∃ c data', (checksum data : Res ε (BitVec 16)) = .ok c ∧
          (copyAt data i (i + 2) (toBe16 c) : Res ε (List Byte)) = .ok data' ∧ onesSum data' = 0xFFFF) ↔
        (words data).sum % 2 ^ 16 + (words data).sum / 2 ^ 16 < 2 ^ 16) := by
  have hsum : wordSum data < 2 ^ 32 := wordSum_lt (by omega)
  have hsquare : wordSum data < 2 ^ 16 * 2 ^ 16 := hsum
  rw [← wordSum_eq]
  constructor
  · rw [checksum_eq hsum, foldSum_eq hsum, Res.ok.injEq, internetChecksum, onesSum_eq]
    constructor
    · intro h
      exact (Ones.foldOnce_eq_iff hsquare).1
        (ofNat_complement_inj (Nat.mod_lt _ (by decide)) (Ones.residue_lt (by decide) _) h)
    · intro h
      rw [(Ones.foldOnce_eq_iff hsquare).2 h]
  · intro i hi heven hzero hzero'
    have hfield : ∀ c data', (copyAt data i (i + 2) (toBe16 c) : Res ε (List Byte)) = .ok data' →
        onesSum data' = Ones.residue (2 ^ 16) (wordSum data + c.toNat) := by
      intro c data' hstore
      rw [onesSum_eq, wordSum_store heven hzero hzero' c hstore]
    have hvalue : ∀ n, (BitVec.ofNat 16 (Ones.complement (2 ^ 16) n)).toNat = Ones.complement (2 ^ 16) n := by
      intro n
      unfold Ones.complement
      rw [BitVec.toNat_ofNat]
      omega
    constructor
    · rintro ⟨c, data', hc, hstore, hall⟩
      rw [checksum_eq hsum, foldSum_eq hsum, Res.ok.injEq] at hc
      rw [hfield c data' hstore, ← hc, hvalue] at hall
      exact (Ones.residue_add_fold_iff (by decide) hsquare).1 hall
    · intro h
      obtain ⟨data', hstore, -⟩ := copyAt_ok (ε := ε) data i (i + 2)
        (toBe16 (foldSum (BitVec.ofNat 32 (wordSum data)))) (by omega) hi (by simp [toBe16])
      refine ⟨_, data', checksum_eq hsum, hstore, ?_⟩
      rw [hfield _ data' hstore, foldSum_eq hsum, hvalue]
      exact (Ones.residue_add_fold_iff (by decide) hsquare).2 h

theorem checksum_internet_of_ping :
    (checksum [0x08, 0x00, 0x00, 0x00, 0x12, 0x34, 0x00, 0x01, 0x61] : Res Unit (BitVec 16)) =
      .ok (internetChecksum [0x08, 0x00, 0x00, 0x00, 0x12, 0x34, 0x00, 0x01, 0x61]) :=
  (checksum_internet_iff [0x08, 0x00, 0x00, 0x00, 0x12, 0x34, 0x00, 0x01, 0x61] (by decide)).1.2 (by decide)

/-- **A fold that carries**: the words `FFFF`, `FFFF` and `0001` have the sum `0001`, and the checksum of `0000`. -/
theorem checksum_loses_carry :
    ¬ ∀ data : List Byte, data.length ≤ 65535 →
      (checksum data : Res Unit (BitVec 16)) = .ok (internetChecksum data) := by
  intro h
  have hwrong := h [0xFF, 0xFF, 0xFF, 0xFF, 0x00, 0x01] (by decide)
  exact absurd hwrong (by decide)

/-! ## The pseudo header -/

/-- The pseudo header and the segment as one buffer. -/
def pseudoPacket (src dst : Ipv4Addr) (proto : BitVec 8) (data : List Byte) : List Byte :=
  toBe32 src ++ toBe32 dst ++ [0, proto] ++ toBe16 (BitVec.ofNat 16 data.length) ++ data

theorem wordSum_pseudoPacket (src dst : Ipv4Addr) (proto : BitVec 8) (data : List Byte) :
    wordSum (pseudoPacket src dst proto data) = pseudoSum src dst proto data.length + wordSum data := by
  have hlen : (word32 ((BitVec.ofNat 16 data.length).extractLsb' 8 8)
      ((BitVec.ofNat 16 data.length).extractLsb' 0 8)).toNat = data.length % 2 ^ 16 := by
    rw [word32_toBe16, BitVec.toNat_ofNat]
  have hproto : (word32 0 proto).toNat = proto.toNat := by
    rw [word32_toNat]
    simp
  unfold pseudoPacket
  rw [wordSum_append (by simp [toBe32, toBe16])]
  simp only [toBe32, toBe16, List.cons_append, List.nil_append, wordSum, hlen, hproto]
  unfold pseudoSum
  have hbytes : ∀ x : BitVec 32, byteAt (toBe32 x) 0 = x.extractLsb' 24 8 ∧ byteAt (toBe32 x) 1 = x.extractLsb' 16 8 ∧
      byteAt (toBe32 x) 2 = x.extractLsb' 8 8 ∧ byteAt (toBe32 x) 3 = x.extractLsb' 0 8 := fun x => ⟨rfl, rfl, rfl, rfl⟩
  obtain ⟨s0, s1, s2, s3⟩ := hbytes src
  obtain ⟨d0, d1, d2, d3⟩ := hbytes dst
  rw [s0, s1, s2, s3, d0, d1, d2, d3]
  omega

/-- **The two checksums agree**: `ph_checksum` is `checksum` over the pseudo header and the segment in one buffer, and
neither overflows. -/
theorem phChecksum_eq_checksum (src dst : Ipv4Addr) (proto : BitVec 8) (data : List Byte) (hlen : data.length ≤ 65535) :
    ∃ c, (phChecksum src dst proto data : Res ε (BitVec 16)) = .ok c ∧
      (checksum (toBe32 src ++ toBe32 dst ++ [0, proto] ++ toBe16 (BitVec.ofNat 16 data.length) ++ data) :
        Res ε (BitVec 16)) = .ok c := by
  have hsum := wordSum_pseudoPacket src dst proto data
  have hlt : wordSum (pseudoPacket src dst proto data) < 2 ^ 32 := by
    apply wordSum_lt
    unfold pseudoPacket
    simp only [List.length_append, toBe32, toBe16, List.length_cons, List.length_nil]
    omega
  rw [hsum] at hlt
  refine ⟨_, phChecksum_eq hlt, ?_⟩
  rw [← hsum] at hlt ⊢
  exact checksum_eq hlt

theorem phChecksum_eq_checksum_of_odd :
    ∃ c, (phChecksum 0x0A000001 0x0A000002 17 [0x12, 0x34, 0x56] : Res Unit (BitVec 16)) = .ok c ∧
      (checksum [10, 0, 0, 1, 10, 0, 0, 2, 0, 17, 0, 3, 0x12, 0x34, 0x56] : Res Unit (BitVec 16)) = .ok c :=
  phChecksum_eq_checksum 0x0A000001 0x0A000002 17 [0x12, 0x34, 0x56] (by decide)

end Oathgate
