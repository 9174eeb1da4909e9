import Oathgate.NetTypes
/-!
# NetIpv4 — checksums, the IPv4 header and IPv4 packets (`oathgate-net`: `lib.rs`, `ipv4.rs`)

Arithmetic is the source's: additions of 32-bit sums overflow, slices outside the buffer panic.  `headerOf` reads the
header fields of a buffer; `extractFromSlice_eq` says the parser returns exactly that on every buffer it accepts.
-/
namespace Oathgate

open Lib

variable {ε : Type}

/-! ## Checksums -/

/-- `sum += x` on `u32` -/
def addU32 (sum x : BitVec 32) : Res ε (BitVec 32) :=
  if sum.toNat + x.toNat < 2 ^ 32 then .ok (sum + x) else .panic .overflow

/-- `u32::from_be_bytes([0x00, 0x00, b0, b1])` -/
def word32 (b0 b1 : Byte) : BitVec 32 := 0#8 ++ 0#8 ++ b0 ++ b1

/-- The loop over `data.chunks(2)`, an odd last byte padded with zero. -/
def addWords : BitVec 32 → List Byte → Res ε (BitVec 32)
  | sum, [] => .ok sum
  | sum, [b0] => addU32 sum (word32 b0 0)
  | sum, b0 :: b1 :: rest => do addWords (← addU32 sum (word32 b0 b1)) rest

/-- `!(((sum & 0xFFFF) + ((sum >> 16) & 0xFFFF)) as u16)` -/
def foldSum (sum : BitVec 32) : BitVec 16 := ~~~(((sum &&& 0xFFFF) + ((sum >>> 16) &&& 0xFFFF)).setWidth 16)

def checksum (data : List Byte) : Res ε (BitVec 16) := do return foldSum (← addWords 0 data)

/-- `ph_checksum`: the checksum with the pseudo header of TCP and UDP. -/
def phChecksum (src dst : Ipv4Addr) (proto : BitVec 8) (data : List Byte) : Res ε (BitVec 16) := do
  let s := toBe32 src
  let sum ← addU32 0 (word32 (byteAt s 2) (byteAt s 3))
  let sum ← addU32 sum (word32 (byteAt s 0) (byteAt s 1))
  let d := toBe32 dst
  let sum ← addU32 sum (word32 (byteAt d 2) (byteAt d 3))
  let sum ← addU32 sum (word32 (byteAt d 0) (byteAt d 1))
  let sum ← addU32 sum (proto.setWidth 32)
  let sum ← addU32 sum (BitVec.ofNat 32 (data.length % 2 ^ 16))
  return foldSum (← addWords sum data)

theorem word32_eq (b0 b1 : Byte) : word32 b0 b1 = (b0 ++ b1).setWidth 32 := by
  unfold word32
  apply BitVec.eq_of_getLsbD_eq
  intro i hi
  simp only [BitVec.getLsbD_append, BitVec.getLsbD_setWidth, BitVec.getLsbD_zero]
  grind

theorem word32_toNat (b0 b1 : Byte) : (word32 b0 b1).toNat = b0.toNat * 256 + b1.toNat := by
  have hlt := (b0 ++ b1).isLt
  rw [word32_eq, BitVec.toNat_setWidth, Nat.mod_eq_of_lt (by omega)]
  exact toNat_concat b0 b1

theorem word32_toNat_lt (b0 b1 : Byte) : (word32 b0 b1).toNat < 2 ^ 16 := by
  have h0 := b0.isLt
  have h1 := b1.isLt
  rw [word32_toNat]
  omega

theorem addU32_eq (sum x : BitVec 32) (h : sum.toNat + x.toNat < 2 ^ 32) :
    (addU32 sum x : Res ε (BitVec 32)) = .ok (sum + x) := if_pos h

/-- **The word loop does not overflow** while the words left cannot carry the sum past 32 bits. -/
theorem addWords_ok : ∀ (data : List Byte) (sum : BitVec 32), sum.toNat + 2 ^ 16 * data.length < 2 ^ 32 →
    ∃ r, (addWords sum data : Res ε (BitVec 32)) = .ok r
  | [], sum, _ => ⟨sum, rfl⟩
  | [b0], sum, h => by
    have hw := word32_toNat_lt b0 0
    simp only [List.length_cons, List.length_nil] at h
    exact ⟨_, addU32_eq sum _ (by omega)⟩
  | b0 :: b1 :: rest, sum, h => by
    have hw := word32_toNat_lt b0 b1
    simp only [List.length_cons] at h
    unfold addWords
    rw [addU32_eq sum _ (by omega), Res.bind_ok]
    have hs : (sum + word32 b0 b1).toNat = sum.toNat + (word32 b0 b1).toNat := by
      rw [BitVec.toNat_add, Nat.mod_eq_of_lt (by omega)]
    have hrest : (sum + word32 b0 b1).toNat + 2 ^ 16 * rest.length < 2 ^ 32 := by
      rw [hs]
      omega
    exact addWords_ok rest _ hrest

/-- The sum of the 16-bit words of a buffer, an odd last byte padded with zero. -/
def wordSum : List Byte → Nat
  | [] => 0
  | [b0] => (word32 b0 0).toNat
  | b0 :: b1 :: rest => (word32 b0 b1).toNat + wordSum rest

theorem addU32_eq_ok {sum x r : BitVec 32} (h : (addU32 sum x : Res ε (BitVec 32)) = .ok r) :
    sum.toNat + x.toNat < 2 ^ 32 ∧ r.toNat = sum.toNat + x.toNat := by
  unfold addU32 at h
  split at h
  · rename_i hlt
    cases h
    exact ⟨hlt, by rw [BitVec.toNat_add, Nat.mod_eq_of_lt hlt]⟩
  · cases h

/-- **The word loop returns exactly when the words fit into 32 bits above the sum it starts with.** -/
theorem addWords_eq_ok : ∀ (data : List Byte) (sum : BitVec 32),
    (∃ r, (addWords sum data : Res ε (BitVec 32)) = .ok r) ↔ sum.toNat + wordSum data < 2 ^ 32
  | [], sum => ⟨fun _ => sum.isLt, fun _ => ⟨sum, rfl⟩⟩
  | [b0], sum => ⟨fun ⟨r, h⟩ => (addU32_eq_ok h).1, fun h => ⟨_, addU32_eq sum _ h⟩⟩
  | b0 :: b1 :: rest, sum => by
    constructor
    · rintro ⟨r, h⟩
      unfold addWords at h
      rw [Res.bind_eq_ok] at h
      obtain ⟨s, hs, h⟩ := h
      have hrest := (addWords_eq_ok rest s).1 ⟨r, h⟩
      rw [(addU32_eq_ok hs).2] at hrest
      unfold wordSum
      omega
    · intro h
      unfold wordSum at h
      obtain ⟨s, hs⟩ : ∃ s, (addU32 sum (word32 b0 b1) : Res ε (BitVec 32)) = .ok s := ⟨_, addU32_eq sum _ (by omega)⟩
      unfold addWords
      rw [hs, Res.bind_ok]
      refine (addWords_eq_ok rest s).2 ?_
      rw [(addU32_eq_ok hs).2]
      omega

theorem addWords_value : ∀ {data : List Byte} {sum r : BitVec 32}, (addWords sum data : Res ε (BitVec 32)) = .ok r →
    r = sum + BitVec.ofNat 32 (wordSum data)
  | [], sum, r, h => by
    cases h
    exact (BitVec.add_zero sum).symm
  | [b0], sum, r, h => by
    have hlt := (addU32_eq_ok h).1
    rw [addWords, addU32_eq sum _ hlt, Res.ok.injEq] at h
    rw [wordSum, BitVec.ofNat_toNat, BitVec.setWidth_eq, h]
  | b0 :: b1 :: rest, sum, r, h => by
    unfold addWords at h
    rw [Res.bind_eq_ok] at h
    obtain ⟨s, hs, h⟩ := h
    have hlt := (addU32_eq_ok hs).1
    rw [addU32_eq sum _ hlt, Res.ok.injEq] at hs
    rw [addWords_value h, ← hs, wordSum, BitVec.ofNat_add, BitVec.ofNat_toNat, BitVec.setWidth_eq, BitVec.add_assoc]

theorem addWords_ne_err : ∀ (data : List Byte) (sum : BitVec 32) (e : ε),
    (addWords sum data : Res ε (BitVec 32)) ≠ .err e
  | [], _, _ => by simp [addWords]
  | [b0], sum, e => by
    unfold addWords addU32
    split <;> simp
  | b0 :: b1 :: rest, sum, e => by
    unfold addWords
    refine Res.bind_ne_err ?_ (fun s => addWords_ne_err rest s) e
    intro e'
    unfold addU32
    split <;> simp

theorem checksum_ok (data : List Byte) (h : data.length < 2 ^ 16) :
    ∃ c, (checksum data : Res ε (BitVec 16)) = .ok c := by
  obtain ⟨r, hr⟩ := addWords_ok (ε := ε) data 0 (by simp; omega)
  refine ⟨foldSum r, ?_⟩
  unfold checksum
  rw [hr]
  rfl

/-- The words of the pseudo header: both addresses, the protocol and the length as a 16-bit word. -/
def pseudoSum (src dst : Ipv4Addr) (proto : BitVec 8) (len : Nat) : Nat :=
  (word32 (byteAt (toBe32 src) 2) (byteAt (toBe32 src) 3)).toNat
    + (word32 (byteAt (toBe32 src) 0) (byteAt (toBe32 src) 1)).toNat
    + (word32 (byteAt (toBe32 dst) 2) (byteAt (toBe32 dst) 3)).toNat
    + (word32 (byteAt (toBe32 dst) 0) (byteAt (toBe32 dst) 1)).toNat + proto.toNat + len % 2 ^ 16

theorem addU32_ok (sum x : BitVec 32) (h : sum.toNat + x.toNat < 2 ^ 32) :
    ∃ r, (addU32 sum x : Res ε (BitVec 32)) = .ok r ∧ r.toNat = sum.toNat + x.toNat :=
  ⟨_, addU32_eq sum x h, by rw [BitVec.toNat_add, Nat.mod_eq_of_lt h]⟩

/-- **The pseudo header is summed first**, and its words cannot overflow. -/
theorem phChecksum_words (src dst : Ipv4Addr) (proto : BitVec 8) (data : List Byte) :
    ∃ s : BitVec 32, s.toNat = pseudoSum src dst proto data.length ∧
      (phChecksum src dst proto data : Res ε (BitVec 16)) = (addWords s data >>= fun r => pure (foldSum r)) := by
  have h1 := word32_toNat_lt (byteAt (toBe32 src) 2) (byteAt (toBe32 src) 3)
  have h2 := word32_toNat_lt (byteAt (toBe32 src) 0) (byteAt (toBe32 src) 1)
  have h3 := word32_toNat_lt (byteAt (toBe32 dst) 2) (byteAt (toBe32 dst) 3)
  have h4 := word32_toNat_lt (byteAt (toBe32 dst) 0) (byteAt (toBe32 dst) 1)
  have h5 : (proto.setWidth 32).toNat = proto.toNat := by
    rw [BitVec.toNat_setWidth, Nat.mod_eq_of_lt (Nat.lt_of_lt_of_le proto.isLt (by decide))]
  have h6 : (BitVec.ofNat 32 (data.length % 2 ^ 16)).toNat = data.length % 2 ^ 16 := by
    rw [BitVec.toNat_ofNat, Nat.mod_eq_of_lt (Nat.lt_trans (Nat.mod_lt _ (by decide)) (by decide))]
  have hp := proto.isLt
  have hl := Nat.mod_lt data.length (by decide : 2 ^ 16 > 0)
  have h0 : (0 : BitVec 32).toNat = 0 := rfl
  obtain ⟨s1, e1, t1⟩ := addU32_ok (ε := ε) 0 (word32 (byteAt (toBe32 src) 2) (byteAt (toBe32 src) 3)) (by omega)
  obtain ⟨s2, e2, t2⟩ := addU32_ok (ε := ε) s1 (word32 (byteAt (toBe32 src) 0) (byteAt (toBe32 src) 1)) (by omega)
  obtain ⟨s3, e3, t3⟩ := addU32_ok (ε := ε) s2 (word32 (byteAt (toBe32 dst) 2) (byteAt (toBe32 dst) 3)) (by omega)
  obtain ⟨s4, e4, t4⟩ := addU32_ok (ε := ε) s3 (word32 (byteAt (toBe32 dst) 0) (byteAt (toBe32 dst) 1)) (by omega)
  obtain ⟨s5, e5, t5⟩ := addU32_ok (ε := ε) s4 (proto.setWidth 32) (by omega)
  obtain ⟨s6, e6, t6⟩ := addU32_ok (ε := ε) s5 (BitVec.ofNat 32 (data.length % 2 ^ 16)) (by omega)
  refine ⟨s6, ?_, ?_⟩
  · unfold pseudoSum
    omega
  · unfold phChecksum
    simp only [e1, e2, e3, e4, e5, e6, Res.bind_ok]

/-- **The pseudo-header checksum returns exactly when all its words fit into 32 bits.** -/
theorem phChecksum_eq_ok (src dst : Ipv4Addr) (proto : BitVec 8) (data : List Byte) :
    (∃ c, (phChecksum src dst proto data : Res ε (BitVec 16)) = .ok c) ↔
      pseudoSum src dst proto data.length + wordSum data < 2 ^ 32 := by
  obtain ⟨s, hs, hsum⟩ := phChecksum_words (ε := ε) src dst proto data
  rw [hsum, ← hs, ← addWords_eq_ok (ε := ε) data s]
  simp only [Res.bind_eq_ok, Res.pure_eq]
  constructor
  · rintro ⟨c, r, hr, -⟩
    exact ⟨r, hr⟩
  · rintro ⟨r, hr⟩
    exact ⟨_, r, hr, rfl⟩

/-- **The pseudo-header checksum folds the sum of all its words.** -/
theorem phChecksum_eq {src dst : Ipv4Addr} {proto : BitVec 8} {data : List Byte}
    (h : pseudoSum src dst proto data.length + wordSum data < 2 ^ 32) :
    (phChecksum src dst proto data : Res ε (BitVec 16)) =
      .ok (foldSum (BitVec.ofNat 32 (pseudoSum src dst proto data.length + wordSum data))) := by
  obtain ⟨s, hs, hsum⟩ := phChecksum_words (ε := ε) src dst proto data
  rw [← hs] at h
  obtain ⟨r, hr⟩ := (addWords_eq_ok (ε := ε) data s).2 h
  rw [hsum, hr, Res.bind_ok, addWords_value hr, ← hs, BitVec.ofNat_add, BitVec.ofNat_toNat, BitVec.setWidth_eq]
  rfl

/-! ## The header -/

structure Ipv4Header where
  version : BitVec 8
  ihl : BitVec 8
  length : BitVec 16
  id : BitVec 16
  flags : BitVec 8
  fragOffset : BitVec 16
  ttl : BitVec 8
  protocol : BitVec 8
  checksum : BitVec 16
  src : Ipv4Addr
  dst : Ipv4Addr
  deriving DecidableEq, Repr

namespace Ipv4Header

/-- `Ipv4Header::new`; `id` is what the random generator returns.  `length + 20` is a 16-bit addition. -/
def new (id : BitVec 16) (src dst : Ipv4Addr) (protocol : BitVec 8) (length : BitVec 16) : Res ε Ipv4Header :=
  if length.toNat + 20 < 2 ^ 16 then
    .ok { version := 4, ihl := 5, length := length + 20, id, flags := 2, fragOffset := 0, ttl := 64, protocol,
          checksum := 0, src, dst }
  else .panic .overflow

def extractFromSlice (hdr : List Byte) : Res ProtocolError Ipv4Header :=
  if hdr.isEmpty then .err (.notEnoughData 0 20)
  else do
    let b0 ← index hdr 0
    let ihl := b0 &&& 0x0F
    let headerSz := ihl.toNat * 4
    if hdr.length < headerSz then .err (.notEnoughData hdr.length headerSz)
    else
      let version := b0 >>> 4
      let length ← be16In hdr 2 4
      let id ← be16In hdr 4 6
      let flags := (← index hdr 6) >>> 5
      -- 0x1FFF * 8 fits sixteen bits
      let fragOffset := ((← be16In hdr 6 8) &&& 0x1FFF) * 8
      let ttl ← index hdr 8
      let protocol ← index hdr 9
      let checksum ← be16In hdr 10 12
      let src ← be32In hdr 12 16
      let dst ← be32In hdr 16 20
      return { version, ihl, length, id, flags, fragOffset, ttl, protocol, checksum, src, dst }

def headerLength (h : Ipv4Header) : Nat := h.ihl.toNat * 4

def genReply (h : Ipv4Header) (id : BitVec 16) (payload : List Byte) : Res ε Ipv4Header :=
  new id h.dst h.src h.protocol (BitVec.ofNat 16 payload.length)

def masquerade (h : Ipv4Header) (src : Ipv4Addr) : Ipv4Header := { h with src }

def unmasquerade (h : Ipv4Header) (dst : Ipv4Addr) : Ipv4Header := { h with dst }

/-- `Ipv4Header::as_bytes`: the header length nibble is written as five whatever `ihl` is, and byte 1 is left alone. -/
def asBytes (h : Ipv4Header) (rpkt : List Byte) : Res ε (List Byte) := do
  let flagsFrag := (h.flags.setWidth 16 <<< 13) ||| h.fragOffset
  let rpkt ← setAt rpkt 0 ((h.version <<< 4) ||| 5)
  let rpkt ← copyAt rpkt 2 4 (toBe16 h.length)
  let rpkt ← copyAt rpkt 4 6 (toBe16 h.id)
  let rpkt ← copyAt rpkt 6 8 (toBe16 flagsFrag)
  let rpkt ← setAt rpkt 8 h.ttl
  let rpkt ← setAt rpkt 9 h.protocol
  let rpkt ← copyAt rpkt 10 12 [0x00, 0x00]
  let rpkt ← copyAt rpkt 12 16 (toBe32 h.src)
  let rpkt ← copyAt rpkt 16 20 (toBe32 h.dst)
  let csum ← Oathgate.checksum (← slice rpkt 0 20)
  copyAt rpkt 10 12 (toBe16 csum)

def ihlBytes (b : List Byte) : Nat := (byteAt b 0 &&& 0x0F).toNat * 4

def headerOf (b : List Byte) : Ipv4Header where
  version := byteAt b 0 >>> 4
  ihl := byteAt b 0 &&& 0x0F
  length := be16At b 2
  id := be16At b 4
  flags := byteAt b 6 >>> 5
  fragOffset := (be16At b 6 &&& 0x1FFF) * 8
  ttl := byteAt b 8
  protocol := byteAt b 9
  checksum := be16At b 10
  src := be32At b 12
  dst := be32At b 16

theorem and_mask4 (x : Byte) : (x &&& 0x0F).toNat = x.toNat % 2 ^ 4 := by
  rw [BitVec.toNat_and]
  exact Nat.and_two_pow_sub_one_eq_mod x.toNat 4

/-- A header is written with a length of five words, whatever its version. -/
theorem low_nibble_five (v : Byte) : ((v <<< 4) ||| 5) &&& 0x0F = 5 := by
  have hzero : v.toNat * 2 ^ 4 % 2 ^ 8 % 2 ^ 4 = 0 := by omega
  apply BitVec.eq_of_toNat_eq
  rw [and_mask4, BitVec.toNat_or, Nat.or_mod_two_pow, BitVec.toNat_shiftLeft, Nat.shiftLeft_eq, hzero, Nat.zero_or]
  rfl

theorem nibble_of_ihlBytes {b : List Byte} (h : ihlBytes b = 20) : byteAt b 0 &&& 0x0F = 5 := by
  apply BitVec.eq_of_toNat_eq
  have h5 : (5 : Byte).toNat = 5 := rfl
  unfold ihlBytes at h
  omega

theorem extractFromSlice_nil : extractFromSlice [] = .err (.notEnoughData 0 20) := rfl

theorem extractFromSlice_short (b : List Byte) (h0 : b ≠ []) (h : b.length < ihlBytes b) :
    extractFromSlice b = .err (.notEnoughData b.length (ihlBytes b)) := by
  unfold extractFromSlice
  rw [if_neg (by simpa using h0), index_eq b 0 (List.length_pos_iff.2 h0), Res.bind_ok]
  exact if_pos h

/-- **A buffer of twenty bytes that holds the header it announces is parsed field by field.** -/
theorem extractFromSlice_eq (b : List Byte) (h : ihlBytes b ≤ b.length) (h20 : 20 ≤ b.length) :
    extractFromSlice b = .ok (headerOf b) := by
  have hne : b ≠ [] := by rintro rfl; simp at h20
  unfold extractFromSlice
  rw [if_neg (by simpa using hne), index_eq b 0 (by omega), Res.bind_ok]
  simp only
  rw [if_neg (show ¬ b.length < (byteAt b 0 &&& 0x0F).toNat * 4 from Nat.not_lt.2 h)]
  simp only [be16In_eq b 2 (by omega), be16In_eq b 4 (by omega), be16In_eq b 6 (by omega),
    be16In_eq b 10 (by omega), be32In_eq b 12 (by omega), be32In_eq b 16 (by omega), index_eq b 6 (by omega),
    index_eq b 8 (by omega), index_eq b 9 (by omega), Res.bind_ok]
  rfl

/-- **A buffer that holds the header it announces but not twenty bytes panics**: the fixed offsets lie past its end. -/
theorem extractFromSlice_panic (b : List Byte) (h0 : b ≠ []) (h : ihlBytes b ≤ b.length) (h20 : b.length < 20) :
    ¬ (extractFromSlice b).Returns := by
  unfold extractFromSlice
  rw [if_neg (by simpa using h0), index_eq b 0 (List.length_pos_iff.2 h0), Res.bind_ok]
  simp only
  rw [if_neg (show ¬ b.length < (byteAt b 0 &&& 0x0F).toNat * 4 from Nat.not_lt.2 h)]
  -- no access on the way can fail with an error, and the last one is past the end
  refine (Res.not_returns_bind (be16In_ne_err b 2 4) fun _ => Res.not_returns_bind (be16In_ne_err b 4 6) fun _ =>
    Res.not_returns_bind (index_ne_err b 6) fun _ => Res.not_returns_bind (be16In_ne_err b 6 8) fun _ =>
    Res.not_returns_bind (index_ne_err b 8) fun _ => Res.not_returns_bind (index_ne_err b 9) fun _ =>
    Res.not_returns_bind (be16In_ne_err b 10 12) fun _ => Res.not_returns_bind (be32In_ne_err b 12 16) fun _ => ?_)
  unfold be32In
  rw [slice_panic b 16 20 h20]
  simp

/-- The twenty bytes `as_bytes` writes, around the byte it leaves alone. -/
def wire (h : Ipv4Header) (tos : Byte) (csum : BitVec 16) : List Byte :=
  [(h.version <<< 4) ||| 5, tos] ++ toBe16 h.length ++ toBe16 h.id
    ++ toBe16 ((h.flags.setWidth 16 <<< 13) ||| h.fragOffset) ++ [h.ttl, h.protocol] ++ toBe16 csum
    ++ toBe32 h.src ++ toBe32 h.dst

theorem length_wire (h : Ipv4Header) (tos : Byte) (csum : BitVec 16) : (h.wire tos csum).length = 20 := rfl

/-- The checksum of the twenty bytes with their checksum field zero. -/
def wireSum (h : Ipv4Header) (tos : Byte) : BitVec 16 := foldSum (BitVec.ofNat 32 (wordSum (h.wire tos 0)))

theorem checksum_wire (h : Ipv4Header) (tos : Byte) :
    (Oathgate.checksum (h.wire tos 0) : Res ε (BitVec 16)) = .ok (h.wireSum tos) := by
  obtain ⟨r, hr⟩ := addWords_ok (ε := ε) (h.wire tos 0) 0 (by rw [length_wire]; decide)
  unfold Oathgate.checksum wireSum
  rw [hr, Res.bind_ok, addWords_value hr]
  exact congrArg (fun x => Res.ok (foldSum x)) (BitVec.zero_add _)

/-- A buffer with the header written over its first twenty bytes. -/
def onto (h : Ipv4Header) (rpkt : List Byte) : List Byte :=
  h.wire (byteAt rpkt 1) (h.wireSum (byteAt rpkt 1)) ++ rpkt.drop 20

/-- **`as_bytes` replaces the first twenty bytes of a buffer and keeps the rest.** -/
theorem asBytes_onto (h : Ipv4Header) (rpkt : List Byte) (hl : 20 ≤ rpkt.length) :
    (h.asBytes rpkt : Res ε (List Byte)) = .ok (h.onto rpkt) := by
  unfold onto
  have hc := h.checksum_wire (ε := ε) (byteAt rpkt 1)
  generalize h.wireSum (byteAt rpkt 1) = c at *
  have hd1 : rpkt.drop 1 = byteAt rpkt 1 :: rpkt.drop 2 := by
    rw [List.drop_eq_getElem_cons (by omega : 1 < rpkt.length)]
    unfold byteAt
    rw [List.getD_eq_getElem _ _ (by omega)]
  have hlen : ∀ k, (rpkt.drop k).length = rpkt.length - k := fun k => List.length_drop
  unfold asBytes
  -- the fields are written in order, each after the ones before it
  rw [← List.nil_append rpkt, setAt_append [] rpkt 0 _ rfl (by omega), Res.bind_ok, List.nil_append, hd1,
    ← List.singleton_append (l := rpkt.drop 2), ← List.append_assoc,
    copyAt_append _ _ _ 2 4 rfl rfl (by rw [hlen]; simp [toBe16]; omega), Res.bind_ok,
    copyAt_append _ _ _ 4 6 rfl rfl (by simp [toBe16]; omega), Res.bind_ok,
    copyAt_append _ _ _ 6 8 rfl rfl (by simp [toBe16]; omega), Res.bind_ok,
    setAt_append _ _ 8 _ rfl (by simp [toBe16]; omega), Res.bind_ok,
    setAt_append _ _ 9 _ rfl (by simp [toBe16]; omega), Res.bind_ok,
    copyAt_append _ _ _ 10 12 rfl rfl (by simp [toBe16]; omega), Res.bind_ok,
    copyAt_append _ _ _ 12 16 rfl rfl (by simp [toBe16, toBe32]; omega), Res.bind_ok,
    copyAt_append _ _ _ 16 20 rfl rfl (by simp [toBe16, toBe32]; omega), Res.bind_ok]
  simp only [List.drop_drop]
  show (slice (h.wire (byteAt rpkt 1) 0 ++ rpkt.drop 20) 0 20 >>= fun hdr => Oathgate.checksum hdr >>= fun csum =>
    copyAt (h.wire (byteAt rpkt 1) 0 ++ rpkt.drop 20) 10 12 (toBe16 csum)) =
      .ok (h.wire (byteAt rpkt 1) c ++ rpkt.drop 20)
  have hwhole : 20 ≤ (h.wire (byteAt rpkt 1) 0 ++ rpkt.drop 20).length := by
    rw [List.length_append, length_wire]
    omega
  rw [slice_eq _ 0 20 (by omega) hwhole, Res.bind_ok, List.drop_zero, List.take_left' (length_wire h _ 0), hc,
    Res.bind_ok]
  -- the checksum goes over the two zero bytes of the first pass
  have hsplit : ∀ c, h.wire (byteAt rpkt 1) c =
      (h.wire (byteAt rpkt 1) c).take 10 ++ (toBe16 c ++ (toBe32 h.src ++ toBe32 h.dst)) := fun c => rfl
  have htake : ∀ c, (h.wire (byteAt rpkt 1) c).take 10 = (h.wire (byteAt rpkt 1) 0).take 10 := fun c => rfl
  rw [hsplit 0, hsplit c, htake c, List.append_assoc, copyAt_append _ _ _ 10 12 rfl rfl (by simp [toBe16])]
  simp [toBe16]

theorem asBytes_eq (h : Ipv4Header) (rpkt : List Byte) (hl : 20 ≤ rpkt.length) :
    ∃ csum, (h.asBytes rpkt : Res ε (List Byte)) = .ok (h.wire (byteAt rpkt 1) csum ++ rpkt.drop 20) :=
  ⟨_, h.asBytes_onto rpkt hl⟩

theorem length_of_asBytes {h : Ipv4Header} {rpkt b : List Byte} (hb : (h.asBytes rpkt : Res ε (List Byte)) = .ok b) :
    20 ≤ rpkt.length := by
  unfold asBytes at hb
  simp only [Res.bind_eq_ok] at hb
  obtain ⟨b₀, h₀, b₁, h₁, b₂, h₂, b₃, h₃, b₄, h₄, b₅, h₅, b₆, h₆, b₇, h₇, b₈, h₈, -⟩ := hb
  have hlen := (copyAt_frame h₇).1.trans <| (copyAt_frame h₆).1.trans <| (setAt_length h₅).trans <|
    (setAt_length h₄).trans <| (copyAt_frame h₃).1.trans <| (copyAt_frame h₂).1.trans <|
    (copyAt_frame h₁).1.trans <| setAt_length h₀
  rw [← hlen]
  exact copyAt_end h₈

theorem asBytes_ne_err (h : Ipv4Header) (rpkt : List Byte) (e : ε) : (h.asBytes rpkt : Res ε (List Byte)) ≠ .err e := by
  unfold asBytes
  exact Res.bind_ne_err (setAt_ne_err _ _ _) (fun _ => Res.bind_ne_err (copyAt_ne_err _ _ _ _) fun _ =>
    Res.bind_ne_err (copyAt_ne_err _ _ _ _) fun _ => Res.bind_ne_err (copyAt_ne_err _ _ _ _) fun _ =>
    Res.bind_ne_err (setAt_ne_err _ _ _) fun _ => Res.bind_ne_err (setAt_ne_err _ _ _) fun _ =>
    Res.bind_ne_err (copyAt_ne_err _ _ _ _) fun _ => Res.bind_ne_err (copyAt_ne_err _ _ _ _) fun _ =>
    Res.bind_ne_err (copyAt_ne_err _ _ _ _) fun _ => Res.bind_ne_err (slice_ne_err _ _ _) fun _ =>
    Res.bind_ne_err (Res.bind_ne_err (addWords_ne_err _ _) fun _ _ => by simp) fun _ => copyAt_ne_err _ _ _ _) e

/-- **`as_bytes` returns exactly on buffers of twenty bytes.** -/
theorem asBytes_eq_ok {h : Ipv4Header} {rpkt b : List Byte} :
    (h.asBytes rpkt : Res ε (List Byte)) = .ok b ↔ 20 ≤ rpkt.length ∧ b = h.onto rpkt := by
  constructor
  · intro hb
    have hl := length_of_asBytes hb
    rw [asBytes_onto h rpkt hl, Res.ok.injEq] at hb
    exact ⟨hl, hb.symm⟩
  · rintro ⟨hl, rfl⟩
    exact asBytes_onto h rpkt hl

theorem length_onto (h : Ipv4Header) (rpkt : List Byte) (hl : 20 ≤ rpkt.length) :
    (h.onto rpkt).length = rpkt.length := by
  rw [onto, List.length_append, length_wire, List.length_drop]
  omega

theorem drop_onto (h : Ipv4Header) (rpkt : List Byte) : (h.onto rpkt).drop 20 = rpkt.drop 20 :=
  List.drop_left' (length_wire h _ _)

end Ipv4Header
end Oathgate
