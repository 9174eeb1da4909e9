import Oathgate.NatTable
/-!
# WgOutbound — the outbound path of the WireGuard device (`oathgate-bridge`: `net/wan/wireguard.rs`)

For every packet drained from its channel the device files the packet in the translation table, rewrites the source
address to its own and hands the bytes to the tunnel.  Ports are not rewritten: on the wire a flow keeps the protocol,
remote address and port it was filed under (`masquerade_on_wire`), so a reply is mapped to the last host that used
them.
-/
namespace Oathgate

open Lib NatTable

/-- The state of `WgDevice` the outbound path uses. -/
structure WgDevice where
  ipv4 : Ipv4Addr
  nat : NatTable

namespace WgDevice

variable {ε : Type}

/-- The body of the loop over `rx.drain()`, up to the bytes given to `encapsulate`. -/
def outbound (d : WgDevice) (pkt : Ipv4Packet) : Res ε (WgDevice × Ipv4Packet) := do
  let nat ← d.nat.insert pkt
  let pkt ← pkt.masquerade d.ipv4
  return ({ d with nat }, pkt)

/-- The loop over the drained packets, with the packets given to the tunnel in order. -/
def outboundAll : WgDevice → List Ipv4Packet → Res ε (WgDevice × List Ipv4Packet)
  | d, [] => .ok (d, [])
  | d, pkt :: pkts => do
    let (d, w) ← d.outbound pkt
    let (d, ws) ← outboundAll d pkts
    return (d, w :: ws)

/-- `r` answers the packet with the bytes `wire`: it comes from that packet's remote, with its protocol, to the port
or identifier the packet carried there. -/
def Answers (r : Ipv4Packet) (wire : List Byte) : Prop := ∃ q, Ipv4Packet.parse wire = .ok q ∧ Mirrors r q

/-- The packets a table files under the key of `p`. -/
def SameKey (p x : Ipv4Packet) : Prop := x.protocol = p.protocol ∧ x.dest = p.dest ∧ outPort x = outPort p

/-! ## On the wire -/

/-- **A masqueraded packet, read back from its bytes, is still of its flow**: protocol, destination and port are what
they were, for a packet without options. -/
theorem masquerade_on_wire {p p' : Ipv4Packet} {ip : Ipv4Addr} (h20 : p.headerLength = 20) (hl : 20 ≤ p.data.length)
    (h : (p.masquerade ip : Res ε Ipv4Packet) = .ok p') :
    ∃ q, Ipv4Packet.parse p'.data = .ok q ∧ SameKey p q := by
  unfold Ipv4Packet.masquerade at h
  obtain ⟨csum, hd⟩ := (p.header.masquerade ip).asBytes_eq (ε := ε) p.data hl
  simp only [hd, Res.bind_ok] at h
  obtain ⟨-, hlen, hbytes⟩ := Ipv4Packet.fixTransportChecksum_frame h
  have hw := (p.header.masquerade ip).length_wire (byteAt p.data 1) csum
  generalize hwire : (p.header.masquerade ip).wire (byteAt p.data 1) csum = wire at *
  simp only [List.length_append, List.length_drop, hw] at hlen
  -- the checksum field lies after the bytes that carry ports and identifiers
  have hkeep : ∀ i, i < 26 → byteAt p'.data i = byteAt (wire ++ p.data.drop 20) i := by
    intro i hi
    apply hbytes
    intro s e hse
    have h20' : Ipv4Packet.headerLength ⟨p.header.masquerade ip, wire ++ p.data.drop 20⟩ = 20 := h20
    rw [h20']
    unfold Ipv4Packet.checksumField at hse
    split at hse
    · cases hse; omega
    split at hse
    · cases hse; omega
    · cases hse
  have hhead : ∀ i, i < 20 → byteAt p'.data i = byteAt wire i := fun i hi => by
    rw [hkeep i (by omega), byteAt_append_left _ _ _ (by omega)]
  have htail : ∀ i, i < 6 → byteAt p'.data (20 + i) = byteAt p.data (20 + i) := fun i hi => by
    rw [hkeep _ (by omega), byteAt_append_right _ _ _ (by omega), byteAt_drop, hw]
    congr 1
    omega
  have hnib : byteAt p'.data 0 &&& 0x0F = 5 := by
    rw [hhead 0 (by omega), ← hwire]
    exact Ipv4Header.low_nibble_five _
  have hihl : Ipv4Header.ihlBytes p'.data = 20 := by
    unfold Ipv4Header.ihlBytes
    rw [hnib]
    rfl
  have hword : ∀ i, i < 5 → be16At p'.data (20 + i) = be16At p.data (20 + i) := fun i hi => by
    unfold be16At
    rw [htail i (by omega), Nat.add_assoc, htail (i + 1) (by omega)]
  have hproto : byteAt p'.data 9 = p.header.protocol := by
    rw [hhead 9 (by omega), ← hwire]
    rfl
  refine ⟨_, Ipv4Packet.parse_eq p'.data (by omega) (by omega), hproto, ?_, ?_⟩
  · show be32At p'.data 16 = p.header.dst
    unfold be32At
    rw [hhead 16 (by omega), hhead 17 (by omega), hhead 18 (by omega), hhead 19 (by omega), ← hwire]
    exact be32At_toBe32 p.header.dst []
  · show (if byteAt p'.data 9 = netProtocolIcmp then be16At (p'.data.drop (Ipv4Header.ihlBytes p'.data)) 4
      else be16At (p'.data.drop (Ipv4Header.ihlBytes p'.data)) 0) = outPort p
    unfold outPort Ipv4Packet.icmpId Ipv4Packet.srcPort Ipv4Packet.transport
    rw [hihl, h20, hproto, be16At_drop, be16At_drop, be16At_drop, be16At_drop, hword 4 (by omega), hword 0 (by omega)]
    rfl

theorem mirrors_of_answers {p p' r : Ipv4Packet} {ip : Ipv4Addr} (h20 : p.headerLength = 20)
    (hl : 20 ≤ p.data.length) (h : (p.masquerade ip : Res ε Ipv4Packet) = .ok p') (hr : Answers r p'.data) :
    Mirrors r p := by
  obtain ⟨q, hq, hproto, hdest, hport⟩ := masquerade_on_wire h20 hl h
  obtain ⟨q', hq', hm⟩ := hr
  rw [hq, Res.ok.injEq] at hq'
  subst hq'
  exact ⟨hproto ▸ hm.1, hdest ▸ hm.2.1, hport ▸ hm.2.2⟩

/-! ## A whole run -/

/-- **A run of the loop files every packet and masquerades every packet.** -/
theorem outboundAll_spec : ∀ (ps : List Ipv4Packet) (d d' : WgDevice) (ws : List Ipv4Packet),
    (outboundAll d ps : Res ε (WgDevice × List Ipv4Packet)) = .ok (d', ws) →
      (∀ p ∈ ps, EnoughForInsert p) ∧ (insertAll d.nat ps : Res ε NatTable) = .ok d'.nat ∧
      ∀ (i : Nat) (p q : Ipv4Packet), ps[i]? = some p → ws[i]? = some q →
        (p.masquerade d.ipv4 : Res ε Ipv4Packet) = .ok q
  | [], d, d', ws, h => by
    cases h
    exact ⟨by simp, rfl, by simp⟩
  | p :: ps, d, d', ws, h => by
    simp only [outboundAll, outbound, Res.bind_eq_ok, Res.pure_eq, Res.ok.injEq, Prod.mk.injEq] at h
    obtain ⟨⟨d₁, w⟩, ⟨nat, hnat, q, hq, rfl, rfl⟩, ⟨d₂, ws'⟩, hrest, rfl, rfl⟩ := h
    obtain ⟨hen, hall, hws⟩ := outboundAll_spec ps _ _ _ hrest
    refine ⟨?_, ?_, ?_⟩
    · intro x hx
      rcases List.mem_cons.1 hx with rfl | hx
      · exact enough_of_insert hnat
      · exact hen x hx
    · unfold insertAll
      rw [hnat, Res.bind_ok]
      exact hall
    · intro i x y hx hy
      cases i with
      | zero =>
        simp only [List.getElem?_cons_zero, Option.some.injEq] at hx hy
        rw [← hx, ← hy]
        exact hq
      | succ i => exact hws i x y (by simpa using hx) (by simpa using hy)

/-- **A reply is mapped to the last host that used its key**: the packets are parsed, without options, and the whole
sequence went through. -/
theorem reply_to_last_sender {w : Ipv4Addr} {ps ws : List Ipv4Packet} {d' : WgDevice} {i : Nat} {p q r : Ipv4Packet}
    (hps : ∀ p ∈ ps, Ipv4Packet.parse p.data = .ok p ∧ p.headerLength = 20)
    (hrun : (outboundAll ⟨w, NatTable.new⟩ ps : Res ε (WgDevice × List Ipv4Packet)) = .ok (d', ws))
    (hp : ps[i]? = some p) (hq : ws[i]? = some q) (ht : Tracked p.protocol) (hr : Answers r q.data)
    (hlong : EnoughForGet r) :
    ∃ x, LastWith (SameKey p) ps x ∧ (d'.nat.get r : Res ε (Option Ipv4Addr)) = .ok (some x.src) := by
  obtain ⟨hen, hall, hws⟩ := outboundAll_spec ps _ _ _ hrun
  have hmem : p ∈ ps := List.mem_of_getElem? hp
  obtain ⟨hparse, h20⟩ := hps p hmem
  have hm : Mirrors r p := mirrors_of_answers h20 (Ipv4Packet.parse_eq_ok hparse).1 (hws i p q hp hq) hr
  have hkey : SameKey p = Mirrors r := by
    funext x
    unfold SameKey Mirrors
    rw [hm.1, hm.2.1, hm.2.2]
  obtain ⟨x, hx⟩ := exists_lastWith (SameKey p) ps hmem ⟨rfl, rfl, rfl⟩
  refine ⟨x, hx, ?_⟩
  rw [insertAll_eq ps _ hen, Res.ok.injEq] at hall
  rw [get_eq _ r hlong, ← hall]
  exact congrArg Res.ok ((lookup_eq_some ps r x.src).2 ⟨hm.1 ▸ ht, x, hkey ▸ hx, rfl⟩)

/-- The last packet filed under the key of `p` came from the host that sent `p`. -/
def LastFromSender (ps : List Ipv4Packet) (p : Ipv4Packet) : Prop := ∀ x, LastWith (SameKey p) ps x → x.src = p.src

/-- **Replies reach two hosts exactly when each was the last to use its key**; packets under one key are answered
alike. -/
theorem replies_reach_senders_iff (w : Ipv4Addr) (ps ws : List Ipv4Packet) (d' : WgDevice) (i j : Nat)
    (p₁ p₂ q₁ q₂ r₁ r₂ : Ipv4Packet) (hps : ∀ p ∈ ps, Ipv4Packet.parse p.data = .ok p ∧ p.headerLength = 20)
    (hrun : (outboundAll ⟨w, NatTable.new⟩ ps : Res ε (WgDevice × List Ipv4Packet)) = .ok (d', ws))
    (hp₁ : ps[i]? = some p₁) (hq₁ : ws[i]? = some q₁) (ht₁ : Tracked p₁.protocol) (hr₁ : Answers r₁ q₁.data)
    (hlong₁ : EnoughForGet r₁) (hp₂ : ps[j]? = some p₂) (hq₂ : ws[j]? = some q₂) (ht₂ : Tracked p₂.protocol)
    (hr₂ : Answers r₂ q₂.data) (hlong₂ : EnoughForGet r₂) :
    (∃ x, LastWith (SameKey p₁) ps x ∧ (d'.nat.get r₁ : Res ε (Option Ipv4Addr)) = .ok (some x.src)) ∧
    (∃ x, LastWith (SameKey p₂) ps x ∧ (d'.nat.get r₂ : Res ε (Option Ipv4Addr)) = .ok (some x.src)) ∧
    (((d'.nat.get r₁ : Res ε (Option Ipv4Addr)) = .ok (some p₁.src) ∧
        (d'.nat.get r₂ : Res ε (Option Ipv4Addr)) = .ok (some p₂.src)) ↔
      LastFromSender ps p₁ ∧ LastFromSender ps p₂) ∧
    (SameKey p₁ p₂ → (d'.nat.get r₁ : Res ε (Option Ipv4Addr)) = d'.nat.get r₂) := by
  obtain ⟨x₁, hx₁, hg₁⟩ := reply_to_last_sender hps hrun hp₁ hq₁ ht₁ hr₁ hlong₁
  obtain ⟨x₂, hx₂, hg₂⟩ := reply_to_last_sender hps hrun hp₂ hq₂ ht₂ hr₂ hlong₂
  have hlast : ∀ p x, LastWith (SameKey p) ps x → (x.src = p.src ↔ LastFromSender ps p) := fun p x hx =>
    ⟨fun h y hy => by rw [lastWith_unique _ ps hy hx, h], fun h => h x hx⟩
  refine ⟨⟨x₁, hx₁, hg₁⟩, ⟨x₂, hx₂, hg₂⟩, ?_, ?_⟩
  · rw [hg₁, hg₂, ← hlast p₁ x₁ hx₁, ← hlast p₂ x₂ hx₂]
    simp only [Res.ok.injEq, Option.some.injEq]
  · intro hsame
    have hkey : SameKey p₁ = SameKey p₂ := by
      funext x
      unfold SameKey
      rw [hsame.1, hsame.2.1, hsame.2.2]
    have hx : x₁ = x₂ := lastWith_unique (SameKey p₂) ps (hkey ▸ hx₁) hx₂
    rw [hg₁, hg₂, hx]

def query (host : Ipv4Addr) (port : BitVec 16) : Ipv4Packet :=
  Ipv4Packet.datagram 17 host 0x01010101 (toBe16 port ++ [0, 53, 0, 8, 0, 0])

def answer (port : BitVec 16) : Ipv4Packet :=
  Ipv4Packet.datagram 17 0x01010101 0x0A090909 ([0, 53] ++ toBe16 port ++ [0, 8, 0, 0])

theorem replies_reach_senders_of_two_ports :
    ∃ d' w₁ w₂, (outboundAll ⟨0x0A090909, NatTable.new⟩ [query 0x0A000002 1000, query 0x0A000003 1001] :
        Res Empty (WgDevice × List Ipv4Packet)) = .ok (d', [w₁, w₂]) ∧
      ((d'.nat.get (answer 1000) : Res Empty (Option Ipv4Addr)) = .ok (some 0x0A000002) ∧
        (d'.nat.get (answer 1001) : Res Empty (Option Ipv4Addr)) = .ok (some 0x0A000003)) ∧
      LastFromSender [query 0x0A000002 1000, query 0x0A000003 1001] (query 0x0A000002 1000) := by
  refine ⟨_, _, _, rfl, ⟨by decide, by decide⟩, ?_⟩
  refine (((replies_reach_senders_iff (ε := Empty) 0x0A090909 [query 0x0A000002 1000, query 0x0A000003 1001] _ _ 0 1
    (query 0x0A000002 1000) (query 0x0A000003 1001) _ _ (answer 1000) (answer 1001) ?_ rfl rfl rfl (by decide) ?_
    (by decide) rfl rfl (by decide) ?_ (by decide)).2.2.1).1 ⟨by decide, by decide⟩).1
  · intro p hp
    simp only [List.mem_cons, List.not_mem_nil, or_false] at hp
    rcases hp with rfl | rfl <;> exact ⟨by decide, by decide⟩
  · exact ⟨_, rfl, by decide, by decide, by decide⟩
  · exact ⟨_, rfl, by decide, by decide, by decide⟩

/-- **Two hosts that choose one port are not kept apart**: 10.0.0.2 and 10.0.0.3 both ask from port 1000, and the
answer to the first is mapped to the second. -/
theorem colliding_ports_misdirect_a_reply :
    ∃ d' w₁ w₂, (outboundAll ⟨0x0A090909, NatTable.new⟩ [query 0x0A000002 1000, query 0x0A000003 1000] :
        Res Empty (WgDevice × List Ipv4Packet)) = .ok (d', [w₁, w₂]) ∧
      Answers (answer 1000) w₁.data ∧ Answers (answer 1000) w₂.data ∧
      (query 0x0A000002 1000).src ≠ (query 0x0A000003 1000).src ∧
      (d'.nat.get (answer 1000) : Res Empty (Option Ipv4Addr)) ≠ .ok (some (query 0x0A000002 1000).src) := by
  refine ⟨_, _, _, rfl, ⟨_, rfl, ?_⟩, ⟨_, rfl, ?_⟩, by decide, by decide⟩ <;>
    exact ⟨by decide, by decide, by decide⟩

end WgDevice
end Oathgate
