import Oathgate.NetPacket
/-!
# NetFragment — fragments and destination rewriting (`oathgate-net`: `ipv4.rs`)

`addFragmentData` puts the payload of a fragment into the packet that holds the first one.  Its offsets count payload
bytes, but only the first of its three branches places them behind the header; the other two count from the start of
the buffer.  Each operation has a lemma that says exactly when it returns and what it returns.
-/
namespace Oathgate

open Lib

variable {ε : Type}

/-- `a + b` on `u16` -/
def addU16 (a b : BitVec 16) : Res ε (BitVec 16) :=
  if a.toNat + b.toNat < 2 ^ 16 then .ok (a + b) else .panic .overflow

/-- `Vec::resize(n, 0)` -/
def resize (b : List Byte) (n : Nat) : List Byte := b.take n ++ List.replicate (n - b.length) 0

theorem length_resize (b : List Byte) (n : Nat) : (resize b n).length = n := by
  rw [resize, List.length_append, List.length_take, List.length_replicate]
  omega

theorem addU16_eq_ok {a b c : BitVec 16} :
    (addU16 a b : Res ε (BitVec 16)) = .ok c ↔ a.toNat + b.toNat < 2 ^ 16 ∧ c = a + b := by
  unfold addU16
  split <;> simp_all [eq_comm]

theorem copyAt_eq_ok {b b' src : List Byte} {s e : Nat} :
    (copyAt b s e src : Res ε (List Byte)) = .ok b' ↔
      s ≤ e ∧ e ≤ b.length ∧ src.length = e - s ∧ b' = b.take s ++ src ++ b.drop e := by
  unfold copyAt
  split
  · split <;> simp_all [eq_comm]
  · rename_i h
    simp only [reduceCtorEq, false_iff]
    rintro ⟨h1, h2, -⟩
    exact h ⟨h1, h2⟩

namespace Ipv4Packet

def id (p : Ipv4Packet) : BitVec 16 := p.header.id

def len (p : Ipv4Packet) : BitVec 16 := p.header.length

def hasFragments (p : Ipv4Packet) : Bool := p.header.flags &&& 0x01 == 0x01

def fragmentOffset (p : Ipv4Packet) : BitVec 16 := p.header.fragOffset

def addFragmentData (p : Ipv4Packet) (offset : BitVec 16) (payload : List Byte) : Res ε Ipv4Packet := do
  let uoffset := offset.toNat
  let stop := (← p.payload).length
  if uoffset = stop then
    let length ← addU16 p.header.length (BitVec.ofNat 16 payload.length)
    return ⟨{ p.header with length }, p.data ++ payload⟩
  else if uoffset > stop then
    let length ← addU16 offset (BitVec.ofNat 16 payload.length)
    return ⟨{ p.header with length }, resize p.data uoffset ++ payload⟩
  else
    let data ← copyAt p.data uoffset (uoffset + payload.length) payload
    return { p with data }

def finalize (p : Ipv4Packet) : Res ε Ipv4Packet := do
  let header := { p.header with flags := 0, fragOffset := 0 }
  let data ← header.asBytes p.data
  return ⟨header, data⟩

def unmasquerade (p : Ipv4Packet) (ip : Ipv4Addr) : Res ε Ipv4Packet := do
  let header := p.header.unmasquerade ip
  let data ← header.asBytes p.data
  fixTransportChecksum ⟨header, data⟩

/-! ## Placing a fragment -/

/-- The packet with a fragment's payload in it: behind its own payload, behind a gap, or over what is there. -/
def place (p : Ipv4Packet) (offset : BitVec 16) (payload : List Byte) : Ipv4Packet :=
  if offset.toNat = p.transport.length then
    ⟨{ p.header with length := p.header.length + BitVec.ofNat 16 payload.length }, p.data ++ payload⟩
  else if p.transport.length < offset.toNat then
    ⟨{ p.header with length := offset + BitVec.ofNat 16 payload.length }, resize p.data offset.toNat ++ payload⟩
  else
    { p with data := p.data.take offset.toNat ++ payload ++ p.data.drop (offset.toNat + payload.length) }

/-- The length field does not overflow, and what is written over lies inside the buffer. -/
def Fits (p : Ipv4Packet) (offset : BitVec 16) (payload : List Byte) : Prop :=
  p.headerLength ≤ p.data.length ∧
    if offset.toNat = p.transport.length then p.header.length.toNat + payload.length % 2 ^ 16 < 2 ^ 16
    else if p.transport.length < offset.toNat then offset.toNat + payload.length % 2 ^ 16 < 2 ^ 16
    else offset.toNat + payload.length ≤ p.data.length

theorem headerLength_place (p : Ipv4Packet) (offset : BitVec 16) (payload : List Byte) :
    (p.place offset payload).headerLength = p.headerLength := by
  unfold place
  split
  · rfl
  · split <;> rfl

/-- **How long the buffer gets**: behind a gap the header does not count. -/
theorem length_place {p : Ipv4Packet} {offset : BitVec 16} {payload : List Byte} (h : Fits p offset payload) :
    (p.place offset payload).data.length =
      if offset.toNat = p.transport.length then p.data.length + payload.length
      else if p.transport.length < offset.toNat then offset.toNat + payload.length
      else p.data.length := by
  have hfits := h.2
  unfold place
  split
  · exact List.length_append
  · rename_i hne
    rw [if_neg hne] at hfits
    split
    · rw [List.length_append, length_resize]
    · rename_i hgt
      rw [if_neg hgt] at hfits
      simp only [List.length_append, List.length_take, List.length_drop]
      omega

theorem bind_addU16_eq_ok {α : Type} {a : BitVec 16} {n : Nat} {f : BitVec 16 → α} {x : α} :
    ((addU16 a (BitVec.ofNat 16 n) : Res ε (BitVec 16)) >>= fun length => pure (f length)) = .ok x ↔
      a.toNat + n % 2 ^ 16 < 2 ^ 16 ∧ x = f (a + BitVec.ofNat 16 n) := by
  simp only [Res.bind_eq_ok, addU16_eq_ok, Res.pure_eq, Res.ok.injEq, BitVec.toNat_ofNat]
  constructor
  · rintro ⟨_, ⟨h, rfl⟩, rfl⟩
    exact ⟨h, rfl⟩
  · rintro ⟨h, rfl⟩
    exact ⟨_, ⟨h, rfl⟩, rfl⟩

/-- **A fragment is placed exactly when it fits.** -/
theorem addFragmentData_eq_ok {p q : Ipv4Packet} {offset : BitVec 16} {payload : List Byte} :
    (p.addFragmentData offset payload : Res ε Ipv4Packet) = .ok q ↔
      Fits p offset payload ∧ q = place p offset payload := by
  by_cases hl : p.headerLength ≤ p.data.length
  · unfold addFragmentData Fits place
    rw [payload_eq p hl, Res.bind_ok]
    simp only [hl, true_and]
    split
    · exact bind_addU16_eq_ok
    split
    · exact bind_addU16_eq_ok
    · simp only [Res.bind_eq_ok, copyAt_eq_ok, Res.pure_eq, Res.ok.injEq]
      constructor
      · rintro ⟨_, ⟨-, h, -, rfl⟩, rfl⟩
        exact ⟨h, rfl⟩
      · rintro ⟨h, rfl⟩
        exact ⟨_, ⟨by omega, h, by omega, rfl⟩, rfl⟩
  · constructor
    · intro h
      unfold addFragmentData at h
      rw [Res.bind_eq_ok] at h
      obtain ⟨b, hb, -⟩ := h
      exact absurd (payload_eq_ok hb).1 hl
    · rintro ⟨h, -⟩
      exact absurd h.1 hl

theorem addFragmentData_ne_err (p : Ipv4Packet) (offset : BitVec 16) (payload : List Byte) (e : ε) :
    (p.addFragmentData offset payload : Res ε Ipv4Packet) ≠ .err e := by
  have hadd : ∀ (a b : BitVec 16) (e : ε), (addU16 a b : Res ε (BitVec 16)) ≠ .err e := by
    intro a b e
    unfold addU16
    split <;> simp
  unfold addFragmentData
  refine Res.bind_ne_err (slice_ne_err _ _ _) ?_ e
  intro b e
  simp only
  split
  · exact Res.bind_ne_err (hadd _ _) (fun _ _ => by simp) e
  split
  · exact Res.bind_ne_err (hadd _ _) (fun _ _ => by simp) e
  · exact Res.bind_ne_err (copyAt_ne_err _ _ _ _) (fun _ _ => by simp) e

/-- The packet with flags and offset cleared, in its header and in its bytes. -/
def finalized (p : Ipv4Packet) : Ipv4Packet :=
  let header := { p.header with flags := 0, fragOffset := 0 }
  ⟨header, header.onto p.data⟩

theorem finalize_eq_ok {p q : Ipv4Packet} :
    (p.finalize : Res ε Ipv4Packet) = .ok q ↔ 20 ≤ p.data.length ∧ q = p.finalized := by
  unfold finalize finalized
  simp only [Res.bind_eq_ok, Ipv4Header.asBytes_eq_ok, Res.pure_eq, Res.ok.injEq]
  constructor
  · rintro ⟨_, ⟨h, rfl⟩, rfl⟩
    exact ⟨h, rfl⟩
  · rintro ⟨h, rfl⟩
    exact ⟨_, ⟨h, rfl⟩, rfl⟩

theorem finalize_ne_err (p : Ipv4Packet) (e : ε) : (p.finalize : Res ε Ipv4Packet) ≠ .err e := by
  unfold finalize
  exact Res.bind_ne_err (Ipv4Header.asBytes_ne_err _ _) (fun _ _ => by simp) e

/-! ## Rewriting the destination -/

/-- The transport bytes with the checksum field `s..e` replaced. -/
def withField (b : List Byte) (s e : Nat) (field : List Byte) : List Byte := b.take s ++ field ++ b.drop e

/-- The payload reaches the end of its checksum field, and the words of the checksum fit into 32 bits. -/
def Fixable (p : Ipv4Packet) : Prop :=
  p.headerLength ≤ p.data.length ∧
    match checksumField p.protocol with
    | none => True
    | some (s, e) =>
      p.headerLength + e ≤ p.data.length ∧
        pseudoSum p.src p.dest p.protocol p.transport.length + wordSum (withField p.transport s e [0, 0]) < 2 ^ 32

theorem checksumField_eq_some {proto : BitVec 8} {s e : Nat} (h : checksumField proto = some (s, e)) : e = s + 2 := by
  unfold checksumField at h
  split at h
  · cases h; rfl
  split at h
  · cases h; rfl
  · cases h

theorem length_withField (b : List Byte) (s e : Nat) (field : List Byte) (hse : s ≤ e) (he : e ≤ b.length)
    (hf : field.length = e - s) : (withField b s e field).length = b.length := by
  simp only [withField, List.length_append, List.length_take, List.length_drop, hf]
  omega

theorem withField_withField (b : List Byte) (s : Nat) (f g : List Byte) (he : s + 2 ≤ b.length) (hf : f.length = 2) :
    withField (withField b s (s + 2) f) s (s + 2) g = withField b s (s + 2) g := by
  have hs : (b.take s).length = s := by
    rw [List.length_take]
    omega
  have hsf : (b.take s ++ f).length = s + 2 := by
    rw [List.length_append]
    omega
  unfold withField
  rw [List.drop_left' hsf, List.append_assoc (b.take s) f, List.take_left' hs]

/-- **What repairing a transport checksum leaves**: the packet itself when its protocol has none, else the checksum over
the transport bytes with their field zeroed. -/
theorem fixTransportChecksum_eq_ok {p q : Ipv4Packet} :
    (p.fixTransportChecksum : Res ε Ipv4Packet) = .ok q ↔ p.headerLength ≤ p.data.length ∧
      match checksumField p.protocol with
      | none => q = p
      | some (s, e) => p.headerLength + e ≤ p.data.length ∧
          ∃ c, (phChecksum p.src p.dest p.protocol (withField p.transport s e [0, 0]) : Res ε (BitVec 16)) = .ok c ∧
            q = { p with data := p.data.take p.headerLength ++ withField p.transport s e (toBe16 c) } := by
  by_cases hl : p.headerLength ≤ p.data.length
  · have hlen := p.length_transport
    unfold fixTransportChecksum
    rw [payload_eq p hl, Res.bind_ok]
    simp only [hl, true_and]
    cases hf : checksumField p.protocol with
    | none =>
      simp only [Res.pure_eq, Res.ok.injEq]
      exact eq_comm
    | some x =>
      obtain ⟨s, e⟩ := x
      have he := checksumField_eq_some hf
      subst he
      simp only [Res.bind_eq_ok, copyAt_eq_ok, Res.pure_eq, Res.ok.injEq]
      constructor
      · rintro ⟨_, ⟨-, h, -, rfl⟩, c, hc, _, ⟨-, -, -, rfl⟩, rfl⟩
        refine ⟨by omega, c, hc, ?_⟩
        rw [← withField_withField p.transport s [0, 0] (toBe16 c) h rfl]
        rfl
      · rintro ⟨h, c, hc, rfl⟩
        have hlong : s + 2 ≤ p.transport.length := by omega
        have hz := length_withField p.transport s (s + 2) [0, 0] (by omega) hlong (by simp)
        refine ⟨_, ⟨by omega, hlong, by simp, rfl⟩, c, hc, _, ⟨by omega, ?_, by simp [toBe16], rfl⟩, ?_⟩
        · exact hlong.trans_eq hz.symm
        · rw [← withField_withField p.transport s [0, 0] (toBe16 c) hlong rfl]
          rfl
  · constructor
    · intro h
      unfold fixTransportChecksum at h
      rw [Res.bind_eq_ok] at h
      obtain ⟨b, hb, -⟩ := h
      exact absurd (payload_eq_ok hb).1 hl
    · rintro ⟨h, -⟩
      exact absurd h hl

theorem fixTransportChecksum_returns_iff (p : Ipv4Packet) :
    (∃ q, (p.fixTransportChecksum : Res ε Ipv4Packet) = .ok q) ↔ Fixable p := by
  simp only [fixTransportChecksum_eq_ok]
  unfold Fixable
  cases hf : checksumField p.protocol with
  | none => simp
  | some x =>
    obtain ⟨s, e⟩ := x
    have he := checksumField_eq_some hf
    subst he
    simp only
    constructor
    · rintro ⟨q, hl, hlong, c, hc, -⟩
      have hlen := p.length_transport
      have hsum := (phChecksum_eq_ok (ε := ε) _ _ _ _).1 ⟨c, hc⟩
      rw [length_withField p.transport s (s + 2) [0, 0] (by omega) (by omega) (by simp)] at hsum
      exact ⟨hl, hlong, hsum⟩
    · rintro ⟨hl, hlong, hsum⟩
      have hlen := p.length_transport
      rw [← length_withField p.transport s (s + 2) [0, 0] (by omega) (by omega) (by simp)] at hsum
      obtain ⟨c, hc⟩ := (phChecksum_eq_ok (ε := ε) _ _ _ _).2 hsum
      exact ⟨_, hl, hlong, c, hc, rfl⟩

/-- The packet with its new destination in header and bytes, before the transport checksum. -/
def redirected (p : Ipv4Packet) (ip : Ipv4Addr) : Ipv4Packet :=
  ⟨p.header.unmasquerade ip, (p.header.unmasquerade ip).onto p.data⟩

theorem unmasquerade_eq_ok {p q : Ipv4Packet} {ip : Ipv4Addr} :
    (p.unmasquerade ip : Res ε Ipv4Packet) = .ok q ↔
      20 ≤ p.data.length ∧ ((p.redirected ip).fixTransportChecksum : Res ε Ipv4Packet) = .ok q := by
  unfold unmasquerade redirected
  simp only [Res.bind_eq_ok, Ipv4Header.asBytes_eq_ok]
  constructor
  · rintro ⟨_, ⟨h, rfl⟩, hq⟩
    exact ⟨h, hq⟩
  · rintro ⟨h, hq⟩
    exact ⟨_, ⟨h, rfl⟩, hq⟩

end Ipv4Packet
end Oathgate
