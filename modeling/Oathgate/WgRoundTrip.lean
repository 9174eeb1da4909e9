import Oathgate.LibRun
import Oathgate.NetRewrite
import Oathgate.WgInbound
/-!
# WgRoundTrip — a packet out through the tunnel and its answer back in (`oathgate-bridge`: `net/wan/wireguard.rs`)

The loop of the device takes packets from the LAN and packets from the tunnel in any order.  An entry of the
translation table stays until another packet is sent under its key, so an answer is handed to the router with the
sender's address as its destination and is otherwise the packet that came in.
-/
namespace Oathgate

open Lib NatTable WgDevice

/-- What the loop takes up: a packet from its channel, or one from the tunnel. -/
inductive WgEvent where
  | sent (pkt : Ipv4Packet)
  | received (pkt : List Byte)

/-- A plain packet: no options, not a fragment, at most 65535 bytes, and long enough for the ports, the identifier and
the checksum of its transport header. -/
structure Plain (b : List Byte) : Prop where
  ihl : Ipv4Header.ihlBytes b = 20
  header : 20 ≤ b.length
  size : b.length < 2 ^ 16
  whole : (WgTunnel.packetOf b).hasFragments = false
  start : (WgTunnel.packetOf b).fragmentOffset = 0
  icmp : (WgTunnel.packetOf b).protocol = netProtocolIcmp → 26 ≤ b.length
  tcp : (WgTunnel.packetOf b).protocol = netProtocolTcp → 38 ≤ b.length
  udp : (WgTunnel.packetOf b).protocol = netProtocolUdp → 28 ≤ b.length

/-! ## Sums and header bytes -/

/-- **A packet of at most 65535 bytes that reaches its checksum field can be repaired.** -/
theorem Ipv4Packet.fixable_of_long {p : Ipv4Packet} (hsize : p.data.length < 2 ^ 16)
    (hlen : p.headerLength ≤ p.data.length)
    (hlong : ∀ s e, checksumField p.protocol = some (s, e) → p.headerLength + e ≤ p.data.length) : p.Fixable := by
  have htransport := p.length_transport
  exact fixable_iff.2 ⟨⟨hlen, hlong⟩, checksumSum_lt ⟨hlen, hlong⟩ (by omega)⟩

/-- **The header of a plain packet, written back, is its first twenty bytes.** -/
theorem wire_headerOf {b : List Byte} (hb : Plain b) :
    (Ipv4Header.headerOf b).wire (byteAt b 1) (be16At b 10) = b.take 20 := by
  have hnibble := Ipv4Header.nibble_of_ihlBytes hb.ihl
  have htake : b.take 20 = (List.range 20).map (byteAt b) := by
    apply List.ext_getElem
    · simp [hb.header]
    · intro i h1 h2
      have hi : i < b.length := by
        rw [List.length_take] at h1
        omega
      rw [List.getElem_take, List.getElem_map, List.getElem_range, byteAt, List.getD_eq_getElem _ _ hi]
  have hzero : be16At b 6 &&& 0x1FFF = 0 := Ipv4Header.fragOffset_eq_zero_iff.1 hb.start
  have hself : (Ipv4Header.headerOf b).wire (byteAt b 1) (be16At b 10) =
      ({ Ipv4Header.headerOf b with src := be32At b 12, dst := be32At b 16 } : Ipv4Header).wire (byteAt b 1)
        (be16At b 10) := rfl
  rw [htake, hself, Ipv4Header.wire_headerOf, (Ipv4Header.firstByte_iff _).2 hnibble,
    (Ipv4Header.flagsFrag_headerOf_iff b).2 hzero, toBe16_be16At, toBe16_be16At, toBe32_be32At, toBe32_be32At]
  rfl

namespace WgTunnel

/-- An event whose handling returns, so that the loop goes on. -/
def Step (traced : Bool) (d : WgTunnel) (e : WgEvent) (d' : WgTunnel) : Prop :=
  match e with
  | .sent pkt => ∃ dev w, (d.outbound pkt : Res NetworkError (WgDevice × Ipv4Packet)) = .ok (dev, w) ∧
      d' = { d with toWgDevice := dev }
  | .received pkt => ∃ out, d.writeToTunnelV4 traced pkt = .ok (d', out)

/-- **What the router is sent for the answer `r`**: the packet itself, with destination `a` and a new header checksum,
and for TCP and UDP the transport checksum over the addresses `b` and `a`. -/
structure Returned (b a : Ipv4Addr) (r : List Byte) (q : Ipv4Packet) : Prop where
  dest : q.dest = a ∧ be32At q.data 16 = a
  header : q.data.take 10 = r.take 10 ∧ (q.data.drop 12).take 4 = (r.drop 12).take 4
  transport : match Ipv4Packet.checksumField (packetOf r).protocol with
    | none => q.data.drop 20 = r.drop 20
    | some (s, e) => ∃ c, (phChecksum b a (packetOf r).protocol (Ipv4Packet.withField (r.drop 20) s e [0, 0]) :
        Res NetworkError (BitVec 16)) = .ok c ∧ q.data.drop 20 = Ipv4Packet.withField (r.drop 20) s e (toBe16 c)

/-! ## The table along a run -/

theorem outbound_nat {d : WgDevice} {p w : Ipv4Packet} {dev : WgDevice}
    (h : (d.outbound p : Res NetworkError (WgDevice × Ipv4Packet)) = .ok (dev, w)) :
    dev.nat.table = d.nat.table.record (fun p => entryOf p.protocol p.dest (outPort p)) (·.src) p := by
  unfold outbound at h
  simp only [Res.bind_eq_ok, Res.pure_eq, Res.ok.injEq, Prod.mk.injEq] at h
  obtain ⟨nat, hnat, -, -, rfl, -⟩ := h
  rw [insert_eq d.nat p (enough_of_insert hnat), Res.ok.injEq] at hnat
  rw [← hnat]

/-- **An entry stays until a packet is sent under its key.** -/
theorem step_keeps_entry {traced : Bool} {d d' : WgTunnel} {e : WgEvent} {k : NatEntry} {a : Ipv4Addr}
    (h : Step traced d e d') (hkey : ∀ x, e = .sent x → entryOf x.protocol x.dest (outPort x) ≠ some k)
    (hget : d.nat.table.get k = some a) : d'.nat.table.get k = some a := by
  cases e with
  | sent x =>
    obtain ⟨dev, w, hout, rfl⟩ := h
    show dev.nat.table.get k = some a
    rw [outbound_nat hout, Table.get_record, if_neg (hkey x rfl), hget]
  | received b =>
    obtain ⟨out, h⟩ := h
    rw [writeToTunnelV4_after h]
    exact hget

theorem run_keeps_entry {traced : Bool} {d d' : WgTunnel} {es : List WgEvent} {k : NatEntry} {a : Ipv4Addr}
    (hrun : Run (Step traced) d es d')
    (hkey : ∀ x, .sent x ∈ es → entryOf x.protocol x.dest (outPort x) ≠ some k)
    (hget : d.nat.table.get k = some a) : d'.nat.table.get k = some a := by
  refine Run.invariant (I := fun es d' => (∀ x, .sent x ∈ es → entryOf x.protocol x.dest (outPort x) ≠ some k) →
    d'.nat.table.get k = some a) (fun _ => hget) ?_ hrun hkey
  intro es d₁ e d₂ _ ih hstep hkeys
  refine step_keeps_entry hstep ?_ (ih fun x hx => hkeys x (List.mem_append_left _ hx))
  rintro x rfl
  exact hkeys x (by simp)

/-! ## The way out and the way back -/

theorem checksumField_le {b : List Byte} (hb : Plain b) {s e : Nat}
    (h : Ipv4Packet.checksumField (packetOf b).protocol = some (s, e)) : 20 + e ≤ b.length := by
  unfold Ipv4Packet.checksumField at h
  split at h
  · rename_i htcp
    cases h
    exact hb.tcp htcp
  split at h
  · rename_i hudp
    cases h
    exact hb.udp hudp
  · cases h

theorem enoughForGet_of_plain {b : List Byte} (hb : Plain b) : EnoughForGet (packetOf b) := by
  intro ht
  show Ipv4Header.ihlBytes b + _ ≤ b.length
  rw [hb.ihl]
  rcases ht with h | h | h
  · have hlong := hb.icmp h
    rw [if_pos h]
    omega
  · have hlong := hb.tcp h
    split <;> omega
  · have hlong := hb.udp h
    split <;> omega

theorem enoughForInsert_of_plain {b : List Byte} (hb : Plain b) : EnoughForInsert (packetOf b) := by
  intro ht
  have hget := enoughForGet_of_plain hb ht
  split <;> split at hget <;> omega

/-- **A plain packet goes out.** -/
theorem outbound_plain (d : WgDevice) {b : List Byte} (hb : Plain b) :
    ∃ dev w, (d.outbound (packetOf b) : Res NetworkError (WgDevice × Ipv4Packet)) = .ok (dev, w) := by
  have hlen := ((packetOf b).header.masquerade d.ipv4).length_onto (packetOf b).data hb.header
  have hfix : Ipv4Packet.Fixable ⟨(packetOf b).header.masquerade d.ipv4,
      ((packetOf b).header.masquerade d.ipv4).onto (packetOf b).data⟩ := by
    refine Ipv4Packet.fixable_of_long (hlen.trans_lt hb.size) ?_ ?_
    · exact (hb.ihl.trans_le hb.header).trans_eq hlen.symm
    · intro s e hse
      have hreach := checksumField_le hb hse
      exact (show Ipv4Header.ihlBytes b + e ≤ b.length by rw [hb.ihl]; exact hreach).trans_eq hlen.symm
  obtain ⟨w, hw⟩ := (Ipv4Packet.fixTransportChecksum_returns_iff (ε := NetworkError) _).2 hfix
  unfold outbound Ipv4Packet.masquerade
  rw [insert_eq d.nat _ (enoughForInsert_of_plain hb), Res.bind_ok]
  simp only [Ipv4Header.asBytes_onto _ (packetOf b).data hb.header, Res.bind_ok]
  exact ⟨_, w, by rw [hw]; rfl⟩

theorem rebuild_plain (cache : FragmentCache) {r : List Byte} (hr : Plain r) :
    receive cache r = .ok (cache, some (packetOf r)) := by
  refine receive_eq_ok.2 ⟨⟨hr.header, hr.ihl.trans_le hr.header⟩, ?_, ?_⟩
  · unfold Placeable
    rw [hr.whole, hr.start]
    trivial
  · unfold cacheAfter handedOn
    rw [hr.whole, hr.start]
    rfl

theorem headerLength_redirected {r : List Byte} (hr : Plain r) (a : Ipv4Addr) :
    ((packetOf r).redirected a).headerLength = 20 := hr.ihl

theorem length_redirected {r : List Byte} (hr : Plain r) (a : Ipv4Addr) :
    ((packetOf r).redirected a).data.length = r.length := Ipv4Header.length_onto _ r hr.header

theorem fixable_redirected {r : List Byte} (hr : Plain r) (a : Ipv4Addr) : ((packetOf r).redirected a).Fixable := by
  have hl := headerLength_redirected hr a
  have hlen := length_redirected hr a
  refine Ipv4Packet.fixable_of_long (hlen.trans_lt hr.size) (by rw [hl, hlen]; exact hr.header) ?_
  intro s e hse
  rw [hl, hlen]
  exact checksumField_le hr hse

/-- **What the new checksum leaves of a redirected packet**: its first twenty bytes, and its transport bytes with the
checksum field set if there is one. -/
theorem parts_of_redirected {r : List Byte} (hr : Plain r) (a : Ipv4Addr) {q : Ipv4Packet}
    (hq : (((packetOf r).redirected a).fixTransportChecksum : Res NetworkError Ipv4Packet) = .ok q) :
    q.header = ((packetOf r).redirected a).header ∧ q.data.take 20 = ((packetOf r).redirected a).data.take 20 ∧
      match Ipv4Packet.checksumField (packetOf r).protocol with
      | none => q.data.drop 20 = r.drop 20
      | some (s, e) => ∃ c, (phChecksum (packetOf r).src a (packetOf r).protocol
          (Ipv4Packet.withField (r.drop 20) s e [0, 0]) : Res NetworkError (BitVec 16)) = .ok c ∧
          q.data.drop 20 = Ipv4Packet.withField (r.drop 20) s e (toBe16 c) := by
  have hl := headerLength_redirected hr a
  have htrans : ((packetOf r).redirected a).transport = r.drop 20 := by
    unfold Ipv4Packet.transport
    rw [hl]
    exact Ipv4Header.drop_onto _ r
  obtain ⟨-, hq⟩ := Ipv4Packet.fixTransportChecksum_eq_ok.1 hq
  have hproto : ((packetOf r).redirected a).protocol = (packetOf r).protocol := rfl
  rw [hproto] at hq
  cases hf : Ipv4Packet.checksumField (packetOf r).protocol with
  | none =>
    simp only [hf] at hq
    subst hq
    exact ⟨rfl, rfl, Ipv4Header.drop_onto _ r⟩
  | some x =>
    obtain ⟨s, e⟩ := x
    simp only [hf] at hq
    obtain ⟨-, c, hc, rfl⟩ := hq
    rw [htrans] at hc ⊢
    have h20 : (((packetOf r).redirected a).data.take 20).length = 20 := by
      rw [List.length_take, length_redirected hr a, Nat.min_eq_left hr.header]
    rw [hl]
    exact ⟨rfl, List.take_left' h20, c, hc, List.drop_left' h20⟩

/-- **Rewriting the destination of a plain packet** gives it the new address and leaves the rest, its checksums
apart. -/
theorem unmasquerade_plain {r : List Byte} (hr : Plain r) (a : Ipv4Addr) :
    ∃ q, ((packetOf r).unmasquerade a : Res NetworkError Ipv4Packet) = .ok q ∧ Returned (packetOf r).src a r q := by
  obtain ⟨q, hq⟩ := (Ipv4Packet.fixTransportChecksum_returns_iff (ε := NetworkError) _).2 (fixable_redirected hr a)
  refine ⟨q, Ipv4Packet.unmasquerade_eq_ok.2 ⟨hr.header, hq⟩, ?_⟩
  obtain ⟨hheader, htake, htransport⟩ := parts_of_redirected hr a hq
  have hwire : ((packetOf r).redirected a).data.take 20 =
      ((packetOf r).header.unmasquerade a).wire (byteAt r 1)
        (((packetOf r).header.unmasquerade a).wireSum (byteAt r 1)) :=
    List.take_left' (Ipv4Header.length_wire _ _ _)
  generalize ((packetOf r).header.unmasquerade a).wireSum (byteAt r 1) = csum at hwire
  rw [hwire] at htake
  have hsame := wire_headerOf hr
  refine ⟨⟨by rw [Ipv4Packet.dest, hheader]; rfl, ?_⟩, ⟨?_, ?_⟩, htransport⟩
  · have hdst : be32At (q.data.take 20) 16 = a := by
      rw [htake]
      exact be32At_toBe32 a []
    rw [← hdst]
    unfold be32At
    rw [byteAt_take _ _ _ (by omega), byteAt_take _ _ _ (by omega), byteAt_take _ _ _ (by omega),
      byteAt_take _ _ _ (by omega)]
  · calc q.data.take 10 = (q.data.take 20).take 10 := by rw [List.take_take]; rfl
      _ = (r.take 20).take 10 := by rw [htake, ← hsame]; rfl
      _ = r.take 10 := by rw [List.take_take]; rfl
  · calc (q.data.drop 12).take 4 = ((q.data.take 20).drop 12).take 4 := by rw [List.drop_take, List.take_take]; rfl
      _ = ((r.take 20).drop 12).take 4 := by rw [htake, ← hsame]; rfl
      _ = (r.drop 12).take 4 := by rw [List.drop_take, List.take_take]; rfl

/-- **The translation round trip.**  The packet in `b` goes out; whatever the loop does then, as long as it sends
nothing else under that key, an answer is handed to the router with the sender as its destination. -/
theorem nat_round_trip (traced : Bool) (d : WgTunnel) (b r : List Byte) (hb : Plain b) (hr : Plain r)
    (ht : Tracked (packetOf b).protocol) (hm : Mirrors (packetOf r) (packetOf b)) :
    ∃ dev w, (d.outbound (packetOf b) : Res NetworkError (WgDevice × Ipv4Packet)) = .ok (dev, w) ∧
      ∀ es d', Run (Step traced) { d with toWgDevice := dev } es d' →
        (∀ x, .sent x ∈ es → ¬ SameKey (packetOf b) x) →
        ∃ q, d'.writeToTunnelV4 traced r = .ok (d', some q) ∧
          Returned (packetOf b).dest (packetOf b).src r q := by
  obtain ⟨dev, w, hout⟩ := outbound_plain d.toWgDevice hb
  refine ⟨dev, w, hout, ?_⟩
  intro es d' hrun hkeys
  obtain ⟨k, hk⟩ : ∃ k, entryOf (packetOf b).protocol (packetOf b).dest (outPort (packetOf b)) = some k := by
    rcases ht with h | h | h <;> simp [entryOf, h, netProtocolIcmp, netProtocolTcp, netProtocolUdp]
  have hget : d'.nat.table.get k = some (packetOf b).src := by
    refine run_keeps_entry hrun ?_ ?_
    · intro x hx hsame
      rw [← hk, entryOf_inj ht] at hsame
      exact hkeys x hx hsame
    · show dev.nat.table.get k = some (packetOf b).src
      rw [outbound_nat hout, Table.get_record, if_pos hk]
  have hlook : d'.nat.lookup (packetOf r) = some (packetOf b).src := by
    unfold lookup
    rw [← hm.1, ← hm.2.1, ← hm.2.2, hk, Option.bind_some, hget]
  obtain ⟨q, hq, hret⟩ := unmasquerade_plain hr (packetOf b).src
  refine ⟨q, ?_, hm.2.1 ▸ hret⟩
  unfold writeToTunnelV4
  rw [rebuild_plain d'.cache hr, Res.bind_ok]
  simp only [undoNat, get_eq_ok.2 ⟨enoughForGet_of_plain hr, rfl⟩, hlook, Res.bind_ok, hq, Res.pure_eq]

theorem plain_first_query : Plain (query 0x0A000002 1000).data :=
  ⟨by decide, by decide, by decide, by decide, by decide, by decide, by decide, by decide⟩

theorem plain_second_query : Plain (query 0x0A000003 1001).data :=
  ⟨by decide, by decide, by decide, by decide, by decide, by decide, by decide, by decide⟩

theorem plain_answer : Plain (answer 1000).data :=
  ⟨by decide, by decide, by decide, by decide, by decide, by decide, by decide, by decide⟩

/-- Host 10.0.0.2 asks from port 1000, 10.0.0.3 then asks the same server from port 1001, and the server answers the
first. -/
theorem nat_round_trip_of_query :
    ∃ (d d' : WgTunnel) (q : Ipv4Packet), Run (Step true) d [.sent (packetOf (query 0x0A000003 1001).data)] d' ∧
      d'.writeToTunnelV4 true (answer 1000).data = .ok (d', some q) ∧
      Returned 0x01010101 0x0A000002 (answer 1000).data q := by
  obtain ⟨dev, w, hout, h⟩ := nat_round_trip true ⟨⟨0x0A090909, NatTable.new⟩, Table.empty⟩
    (query 0x0A000002 1000).data (answer 1000).data plain_first_query plain_answer (by decide)
    ⟨by decide, by decide, by decide⟩
  obtain ⟨dev', w', hout'⟩ := outbound_plain dev plain_second_query
  have hrun : Run (Step true) ⟨dev, Table.empty⟩ [.sent (packetOf (query 0x0A000003 1001).data)] ⟨dev', Table.empty⟩ :=
    Run.single ⟨dev', w', hout', rfl⟩
  obtain ⟨q, hq, hret⟩ := h _ _ hrun (by
    intro x hx
    rw [List.mem_singleton, WgEvent.sent.injEq] at hx
    subst hx
    rintro ⟨-, -, hport⟩
    exact absurd hport (by decide))
  exact ⟨_, _, q, hrun, hq, hret⟩

end WgTunnel
end Oathgate
