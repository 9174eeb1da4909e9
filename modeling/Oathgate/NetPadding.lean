import Oathgate.NetRewrite
/-!
# NetPadding — bytes behind a packet (`oathgate-net`: `ipv4.rs`)

A short Ethernet frame carries padding behind its packet, and the bridge parses both as one buffer.  The payload then
ends with the buffer and not where the total length says, so that the transport checksum covers the padding, and its
length: `padding_ignored_iff` says which padding leaves it as it is, and zero bytes never do.
-/
namespace Oathgate

open Lib

variable {ε : Type}

namespace Ipv4Packet

/-- The packet with bytes behind it. -/
def padded (p : Ipv4Packet) (z : List Byte) : Ipv4Packet := ⟨p.header, p.data ++ z⟩

/-- A sum of words with its high half brought back once. -/
def folded (n : Nat) : Nat := Ones.foldOnce (2 ^ 16) n % 2 ^ 16

theorem parse_padded {data : List Byte} {p : Ipv4Packet} (hp : parse data = .ok p) (z : List Byte) :
    parse (data ++ z) = .ok (p.padded z) := by
  obtain ⟨h20, hihl, rfl⟩ := parse_eq_ok hp
  have hbyte : ∀ i, i < 20 → byteAt (data ++ z) i = byteAt data i := fun i hi => byteAt_append_left data z i (by omega)
  have hheader : Ipv4Header.headerOf (data ++ z) = Ipv4Header.headerOf data := by
    unfold Ipv4Header.headerOf be16At be32At
    simp (disch := omega) only [hbyte]
  have hsize : Ipv4Header.ihlBytes (data ++ z) = Ipv4Header.ihlBytes data := by
    unfold Ipv4Header.ihlBytes
    rw [hbyte 0 (by decide)]
  rw [parse_eq (data ++ z) (by rw [hsize, List.length_append]; omega) (by rw [List.length_append]; omega), hheader]
  rfl

theorem transport_padded {p : Ipv4Packet} (hl : p.headerLength ≤ p.data.length) (z : List Byte) :
    (p.padded z).transport = p.transport ++ z := List.drop_append_of_le_length hl

theorem Long.padded {p : Ipv4Packet} (h : Long p) (z : List Byte) : Long (p.padded z) := by
  have hlen : (p.padded z).data.length = p.data.length + z.length := List.length_append
  refine ⟨?_, ?_⟩
  · rw [hlen]
    exact Nat.le_add_right_of_le h.1
  · intro s e hf
    rw [hlen]
    exact Nat.le_add_right_of_le (h.2 s e hf)

theorem readdressed_padded {p : Ipv4Packet} (hl : 20 ≤ p.data.length) (z : List Byte) (src dst : Ipv4Addr) :
    (p.padded z).readdressed src dst = (p.readdressed src dst).padded z :=
  congrArg (Ipv4Packet.mk { p.header with src, dst }) (Ipv4Header.onto_append { p.header with src, dst } p.data z hl)

/-- **What the padding adds to the sum**: its words, from the middle of one when the payload ends there, and the
change of the length. -/
def paddingSum (p : Ipv4Packet) (z : List Byte) : Int :=
  (wordSum (if p.transport.length % 2 = 0 then z else 0 :: z) : Int) +
    ((p.transport.length + z.length) % 2 ^ 16 : Nat) - (p.transport.length % 2 ^ 16 : Nat)

theorem checksumSum_padded {p : Ipv4Packet} (hlong : Long p) {s e : Nat} (hf : checksumField p.protocol = some (s, e))
    (z : List Byte) : ((p.padded z).checksumSum : Int) = p.checksumSum + p.paddingSum z := by
  have he := checksumField_eq_some hf
  have hreach := hlong.2 s e hf
  have htransport := p.length_transport
  have hfield := length_withField p.transport s e [0, 0] (by omega) (by omega) (by simp; omega)
  have hpf : checksumField (p.padded z).protocol = some (s, e) := hf
  have hwords : wordSum (withField p.transport s e [0, 0] ++ z) = wordSum (withField p.transport s e [0, 0]) +
      wordSum (if p.transport.length % 2 = 0 then z else 0 :: z) := by
    split
    · rename_i heven
      exact wordSum_append (by rw [hfield]; exact heven)
    · exact wordSum_append_odd (by omega)
  rw [checksumSum_some hf, checksumSum_some hpf, transport_padded hlong.1,
    withField_append _ z (by omega) (by omega), hwords, List.length_append]
  have hpseudo : pseudoSum (p.padded z).src (p.padded z).dest (p.padded z).protocol (p.transport.length + z.length) =
      pseudoSum p.src p.dest p.protocol (p.transport.length + z.length) := rfl
  rw [hpseudo]
  unfold pseudoSum paddingSum
  omega

/-- **The padding comes to nothing**: what it adds is a multiple of 65535, up to the carries that are dropped with the
padding and without, and the sums are told from zero alike. -/
def ComesToNothing (p : Ipv4Packet) (z : List Byte) : Prop :=
  (65535 : Int) ∣ p.paddingSum z + Ones.carry (2 ^ 16) p.checksumSum - Ones.carry (2 ^ 16) (p.padded z).checksumSum ∧
    (2 ^ 16 ∣ Ones.foldOnce (2 ^ 16) (p.padded z).checksumSum ↔ 2 ^ 16 ∣ Ones.foldOnce (2 ^ 16) p.checksumSum)

theorem folded_padded_iff {p : Ipv4Packet} (hlong : Long p) {s e : Nat} (hf : checksumField p.protocol = some (s, e))
    (z : List Byte) :
    folded (p.padded z).checksumSum = folded p.checksumSum ↔ ComesToNothing p z := by
  have hsum := checksumSum_padded hlong hf z
  unfold folded ComesToNothing
  rw [Ones.foldOnce_mod_eq_iff (by decide)]
  refine and_congr_left fun _ => ?_
  rw [Nat.ModEq.comm, Nat.modEq_iff_dvd]
  have hcancel : ∀ a b c d : Int, a + b + c - (a + d) = b + c - d := by
    intro a b c d
    omega
  rw [Int.natCast_add, Int.natCast_add, hsum, hcancel]
  exact Iff.rfl

theorem withField_inj {b f g : List Byte} {s e : Nat} : withField b s e f = withField b s e g ↔ f = g := by
  unfold withField
  rw [List.append_left_inj, List.append_right_inj]

theorem toBe16_inj {a b : BitVec 16} : toBe16 a = toBe16 b ↔ a = b := by
  constructor
  · intro h
    have hread : ∀ c : BitVec 16, be16At (toBe16 c) 0 = c := fun c => be16At_toBe16 c []
    rw [← hread a, h, hread b]
  · rintro rfl
    rfl

/-- The bytes in front of the padding agree exactly when it comes to nothing. -/
theorem take_fixed_padded_iff {p : Ipv4Packet} (hlong : Long p) {s e : Nat}
    (hf : checksumField p.protocol = some (s, e)) {z : List Byte} (hsum : p.checksumSum < 2 ^ 32)
    (hsum' : (p.padded z).checksumSum < 2 ^ 32) :
    (p.padded z).fixed.data.take p.data.length = p.fixed.data ↔ ComesToNothing p z := by
  have he := checksumField_eq_some hf
  have hreach := hlong.2 s e hf
  have hpf : checksumField (p.padded z).protocol = some (s, e) := hf
  have hfield : ∀ c, (withField p.data (p.headerLength + s) (p.headerLength + e) (toBe16 c)).length = p.data.length :=
    fun c => length_withField p.data _ _ _ (by omega) hreach (by simp [toBe16]; omega)
  have hdata : (p.padded z).fixed.data = withField p.data (p.headerLength + s) (p.headerLength + e)
      (toBe16 (foldSum (BitVec.ofNat 32 (p.padded z).checksumSum))) ++ z := by
    rw [fixed_some hpf]
    have hhl : (p.padded z).headerLength = p.headerLength := rfl
    rw [hhl]
    exact withField_append p.data z (by omega) hreach _
  rw [hdata, fixed_some hf, List.take_left' (hfield _), withField_inj, toBe16_inj, ← folded_padded_iff hlong hf]
  exact foldSum_eq_iff hsum' hsum

/-- **Padding does not matter** to a call: the packet with it behind comes out as the packet alone does. -/
def IgnoresPadding (r : Rewrite) (data z : List Byte) : Prop :=
  ∃ p p' q q', parse data = .ok p ∧ parse (data ++ z) = .ok p' ∧ (r.apply p : Res Unit Ipv4Packet) = .ok q ∧
    (r.apply p' : Res Unit Ipv4Packet) = .ok q' ∧ q'.data.take data.length = q.data

theorem checksumField_of_proto {p : Ipv4Packet} (h : p.protocol = netProtocolTcp ∨ p.protocol = netProtocolUdp) :
    ∃ s e, checksumField p.protocol = some (s, e) := by
  rcases h with h | h
  · exact ⟨16, 18, by rw [h]; rfl⟩
  · exact ⟨6, 8, by rw [h]; rfl⟩

theorem Rewrite.readdressed_padded (r : Rewrite) {p : Ipv4Packet} (hl : 20 ≤ p.data.length) (z : List Byte) :
    r.readdressed (p.padded z) = (r.readdressed p).padded z := by
  cases r with
  | masquerade ip => exact Ipv4Packet.readdressed_padded hl z ip p.dest
  | unmasquerade ip => exact Ipv4Packet.readdressed_padded hl z p.src ip

/-- Both calls return when the packet is long enough for its checksum and the sums fit. -/
theorem ignoresPadding_iff_take {data : List Byte} {p : Ipv4Packet} (hp : parse data = .ok p) (r : Rewrite)
    (z : List Byte) :
    IgnoresPadding r data z ↔ (Long p ∧ (r.readdressed p).checksumSum < 2 ^ 32) ∧
      (Long (p.padded z) ∧ (r.readdressed (p.padded z)).checksumSum < 2 ^ 32) ∧
        (r.readdressed (p.padded z)).fixed.data.take data.length = (r.readdressed p).fixed.data := by
  have hpadded := parse_padded hp z
  obtain ⟨h20, -, hdata⟩ := parse_eq_ok hp
  have hl : 20 ≤ p.data.length := by rw [hdata]; exact h20
  have hl' : 20 ≤ (p.padded z).data.length := Nat.le_trans hl (by simp [padded])
  constructor
  · rintro ⟨p₀, p', q, q', hp₀, hp', hq, hq', htake⟩
    rw [hp, Res.ok.injEq] at hp₀
    rw [hpadded, Res.ok.injEq] at hp'
    rw [← hp₀] at hq
    rw [← hp'] at hq'
    obtain ⟨-, hfits, rfl⟩ := Rewrite.apply_eq_ok.1 hq
    obtain ⟨-, hfits', rfl⟩ := Rewrite.apply_eq_ok.1 hq'
    exact ⟨hfits, hfits', htake⟩
  · rintro ⟨hfits, hfits', htake⟩
    exact ⟨p, p.padded z, _, _, hp, hpadded, Rewrite.apply_eq_ok.2 ⟨hl, hfits, rfl⟩,
      Rewrite.apply_eq_ok.2 ⟨hl', hfits', rfl⟩, htake⟩

theorem ignoresPadding_iff {data : List Byte} {p : Ipv4Packet} (hp : parse data = .ok p)
    (hproto : p.protocol = netProtocolTcp ∨ p.protocol = netProtocolUdp) (hlen : data.length ≤ 65535) (r : Rewrite)
    (z : List Byte) :
    IgnoresPadding r data z ↔ Long p ∧ ((r.readdressed p).padded z).checksumSum < 2 ^ 32 ∧
      ComesToNothing (r.readdressed p) z := by
  obtain ⟨h20, -, hdata⟩ := parse_eq_ok hp
  have hl : 20 ≤ p.data.length := by rw [hdata]; exact h20
  have hlength : (r.readdressed p).data.length = data.length := by
    refine (length_readdressed hl _ _).trans ?_
    rw [hdata]
  obtain ⟨s, e, hf⟩ := checksumField_of_proto hproto
  have hrf : checksumField (r.readdressed p).protocol = some (s, e) := hf
  have htransport := (r.readdressed p).length_transport
  have hfits : Long p → (r.readdressed p).checksumSum < 2 ^ 32 :=
    fun hlong => checksumSum_lt (hlong.readdressed hl _ _) (by omega)
  rw [ignoresPadding_iff_take hp, r.readdressed_padded hl, ← hlength]
  constructor
  · rintro ⟨⟨hlong, hsum⟩, ⟨-, hsum'⟩, htake⟩
    exact ⟨hlong, hsum', (take_fixed_padded_iff (hlong.readdressed hl _ _) hrf hsum hsum').1 htake⟩
  · rintro ⟨hlong, hsum', hnothing⟩
    have htake := (take_fixed_padded_iff (hlong.readdressed hl _ _) hrf (hfits hlong) hsum').2 hnothing
    exact ⟨⟨hlong, hfits hlong⟩, ⟨hlong.padded z, hsum'⟩, htake⟩

/-- **Zero bytes count**: they change the sum by their number. -/
theorem zeros_count {p : Ipv4Packet} (hlong : Long p) {s e : Nat} (hf : checksumField p.protocol = some (s, e))
    {k : Nat} (hk : 0 < k) (hlen : p.transport.length + k + 1 < 2 ^ 16) :
    ¬ ComesToNothing p (List.replicate k 0) := by
  have hpad := checksumSum_padded hlong hf (List.replicate k 0)
  have hzeros : wordSum (if p.transport.length % 2 = 0 then List.replicate k 0 else 0 :: List.replicate k 0) = 0 := by
    split
    · exact wordSum_replicate k
    · exact wordSum_replicate (k + 1)
  have hadds : p.paddingSum (List.replicate k 0) = k := by
    unfold paddingSum
    rw [hzeros, List.length_replicate, Nat.mod_eq_of_lt (by omega), Nat.mod_eq_of_lt (by omega)]
    omega
  have hsum : (p.padded (List.replicate k 0)).checksumSum = p.checksumSum + k := by omega
  rw [← folded_padded_iff hlong hf]
  unfold folded
  rw [hsum]
  exact Ones.foldOnce_add_ne hk (by omega) _

/-- **Padding is ignored exactly when it comes to nothing in the sum**: its words and its length, which is counted
too, are a multiple of 65535 but for the carries the fold drops.  Zero bytes are never ignored. -/
theorem padding_ignored_iff {data : List Byte} {p : Ipv4Packet} (hp : parse data = .ok p)
    (hproto : p.protocol = netProtocolTcp ∨ p.protocol = netProtocolUdp) (hlen : p.len.toNat = data.length)
    (r : Rewrite) (z : List Byte) :
    (IgnoresPadding r data z ↔ Long p ∧ ((r.readdressed p).padded z).checksumSum < 2 ^ 32 ∧
        ComesToNothing (r.readdressed p) z) ∧
      ∀ k, z = List.replicate k 0 → 0 < k → data.length + k < 65535 → ¬ IgnoresPadding r data z := by
  have hsize : data.length ≤ 65535 := by
    have hlt := p.len.isLt
    omega
  have hiff := ignoresPadding_iff hp hproto hsize r z
  refine ⟨hiff, ?_⟩
  rintro k rfl hk hsmall hignores
  obtain ⟨hlong, -, hnothing⟩ := hiff.1 hignores
  obtain ⟨h20, -, hdata⟩ := parse_eq_ok hp
  have hl : 20 ≤ p.data.length := by rw [hdata]; exact h20
  obtain ⟨s, e, hf⟩ := checksumField_of_proto hproto
  have hlength : (r.readdressed p).data.length = data.length := by
    refine (length_readdressed hl _ _).trans ?_
    rw [hdata]
  have htransport := (r.readdressed p).length_transport
  have hrf : checksumField (r.readdressed p).protocol = some (s, e) := hf
  exact zeros_count (p := r.readdressed p) (hlong.readdressed hl _ _) hrf hk (by omega) hnothing

theorem padding_ignored_of_neutral :
    IgnoresPadding (.masquerade 0xC0A80001) wholeDatagram [0xFF, 0xFD] :=
  (padding_ignored_iff parse_wholeDatagram (Or.inr (by decide)) (by decide) (.masquerade 0xC0A80001) [0xFF, 0xFD]).1.2
    ⟨long_of_udp (by decide) (by decide), by decide, by decide, by decide⟩

/-- **A datagram in a short frame**: with eighteen zero bytes behind it to the minimum of Ethernet, another checksum. -/
theorem short_frame_not_ignored :
    ¬ ∀ (data : List Byte) (p : Ipv4Packet) (r : Rewrite) (z : List Byte), parse data = .ok p →
      p.protocol = netProtocolTcp ∨ p.protocol = netProtocolUdp → p.len.toNat = data.length → z ≠ [] →
      IgnoresPadding r data z := by
  intro h
  have hignores := h wholeDatagram _ (.masquerade 0xC0A80001) (List.replicate 18 0) parse_wholeDatagram
    (Or.inr (by decide)) (by decide) (by decide)
  have hnothing := ((ignoresPadding_iff parse_wholeDatagram (Or.inr (by decide)) (by decide) _ _).1 hignores).2.2
  exact absurd hnothing.1 (by decide)

end Ipv4Packet
end Oathgate
