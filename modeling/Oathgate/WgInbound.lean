import Oathgate.NetFragment
import Oathgate.WgOutbound
/-!
# WgInbound — the receive loops of the WAN devices (`oathgate-bridge`: `net/wan/wireguard.rs`, `net/wan/udp.rs`)

A packet from the tunnel is parsed, put together with the fragments held for its identification, looked up in the
translation table and handed to the router.  Both loops use `?` on the result, so an error ends them as a panic does;
`Harmless` is the exact condition on a packet and the state it meets under which the loop goes on.
-/
namespace Oathgate

open Lib NatTable

/-- `NetworkError`, the kinds the receive loops return themselves. -/
inductive NetworkError where
  | generic (msg : String)
  | protocol (e : ProtocolError)
  deriving DecidableEq, Repr

/-- `HashMap<u16, Ipv4Packet>`: the packets under reassembly, by identification. -/
abbrev FragmentCache := Table (BitVec 16) Ipv4Packet

/-- The state of `WgDevice` its whole loop uses. -/
structure WgTunnel extends WgDevice where
  cache : FragmentCache

namespace WgTunnel

/-- The `match` that rebuilds fragmented packets: the cache after it, and the packet it hands on. -/
def rebuild (cache : FragmentCache) (pkt : Ipv4Packet) : Res NetworkError (FragmentCache × Option Ipv4Packet) :=
  match pkt.hasFragments, decide (pkt.fragmentOffset = 0) with
  | false, true => .ok (cache, some pkt)
  | true, true => .ok (cache.insert pkt.id pkt, none)
  | true, false =>
    match cache.get pkt.id with
    | some fpkt => do
      let fpkt ← fpkt.addFragmentData pkt.fragmentOffset (← pkt.payload)
      return (cache.insert pkt.id fpkt, none)
    | none => .ok (cache, none)
  | false, false =>
    match cache.get pkt.id with
    | some fpkt => do
      let fpkt ← fpkt.addFragmentData pkt.fragmentOffset (← pkt.payload)
      let fpkt ← fpkt.finalize
      return (cache.erase pkt.id, some fpkt)
    | none => .err (.generic "missing frag packet data")

/-- The branch `WriteToTunnelV4` up to the packet it hands on. -/
def receive (cache : FragmentCache) (pkt : List Byte) : Res NetworkError (FragmentCache × Option Ipv4Packet) := do
  let _ ← (Ipv4Header.extractFromSlice pkt).mapErr .protocol
  let pkt ← (Ipv4Packet.parse pkt).mapErr .protocol
  rebuild cache pkt

/-- The rest of the branch, with the packet the router is sent.  The last trace evaluates its arguments only when it is
enabled. -/
def undoNat (traced : Bool) (nat : NatTable) (pkt : Ipv4Packet) : Res NetworkError (Option Ipv4Packet) := do
  match ← nat.get pkt with
  | some orig => return some (← pkt.unmasquerade orig)
  | none =>
    if traced then
      let _ ← slice pkt.data 0 28
      return none
    else return none

/-- `handle_tun_result` on `WriteToTunnelV4`. -/
def writeToTunnelV4 (traced : Bool) (d : WgTunnel) (pkt : List Byte) :
    Res NetworkError (WgTunnel × Option Ipv4Packet) := do
  let (cache, pkt) ← receive d.cache pkt
  match pkt with
  | none => return ({ d with cache }, none)
  | some pkt => return ({ d with cache }, ← undoNat traced d.nat pkt)

/-- The loop over the packets received, with those the router is sent. -/
def writeAllToTunnelV4 (traced : Bool) : WgTunnel → List (List Byte) → Res NetworkError (WgTunnel × List Ipv4Packet)
  | d, [] => .ok (d, [])
  | d, pkt :: pkts => do
    let (d, out) ← d.writeToTunnelV4 traced pkt
    let (d, outs) ← writeAllToTunnelV4 traced d pkts
    return (d, out.toList ++ outs)

end WgTunnel

namespace UdpDevice

/-- The body of the loop of `UdpDevice::run`; the buffer takes 1600 bytes of a datagram. -/
def receive (datagram : List Byte) : Res NetworkError (Option Ipv4Packet) := do
  let pkt := datagram.take 1600
  let b0 ← index pkt 0
  let version := b0 >>> 4
  if version = 4 then return some (← (Ipv4Packet.parse pkt).mapErr .protocol)
  -- version 6 goes to a router without support for it, others are logged
  else return none

def receiveAll : List (List Byte) → Res NetworkError (List Ipv4Packet)
  | [] => .ok []
  | datagram :: datagrams => do
    let out ← receive datagram
    let outs ← receiveAll datagrams
    return out.toList ++ outs

end UdpDevice

/-! ## What the loops go on after -/

/-- The buffer holds the header it announces, and twenty bytes. -/
def Readable (b : List Byte) : Prop := 20 ≤ b.length ∧ Ipv4Header.ihlBytes b ≤ b.length

theorem parse_eq_ok_iff {b : List Byte} {p : Ipv4Packet} :
    Ipv4Packet.parse b = .ok p ↔ Readable b ∧ p = ⟨Ipv4Header.headerOf b, b⟩ := by
  constructor
  · intro h
    obtain ⟨h20, hihl, hp⟩ := Ipv4Packet.parse_eq_ok h
    exact ⟨⟨h20, hihl⟩, hp⟩
  · rintro ⟨⟨h20, hihl⟩, rfl⟩
    exact Ipv4Packet.parse_eq b hihl h20

namespace WgTunnel

/-- The packet in a buffer. -/
def packetOf (b : List Byte) : Ipv4Packet := ⟨Ipv4Header.headerOf b, b⟩

/-- The cache after a packet. -/
def cacheAfter (cache : FragmentCache) (p : Ipv4Packet) : FragmentCache :=
  match p.hasFragments, decide (p.fragmentOffset = 0) with
  | false, true => cache
  | true, true => cache.insert p.id p
  | true, false =>
    match cache.get p.id with
    | some f => cache.insert p.id (f.place p.fragmentOffset p.transport)
    | none => cache
  | false, false => cache.erase p.id

/-- The packet a last fragment completes. -/
def completed (f p : Ipv4Packet) : Ipv4Packet := (f.place p.fragmentOffset p.transport).finalized

/-- The packet that is handed on. -/
def handedOn (cache : FragmentCache) (p : Ipv4Packet) : Option Ipv4Packet :=
  match p.hasFragments, decide (p.fragmentOffset = 0) with
  | false, true => some p
  | true, _ => none
  | false, false => (cache.get p.id).map fun f => completed f p

/-- A fragment finds the packet it belongs to, if it must, and fits into it. -/
def Placeable (cache : FragmentCache) (p : Ipv4Packet) : Prop :=
  match p.hasFragments, decide (p.fragmentOffset = 0) with
  | _, true => True
  | true, false => ∀ f, cache.get p.id = some f → f.Fits p.fragmentOffset p.transport
  | false, false => ∃ f, cache.get p.id = some f ∧ f.Fits p.fragmentOffset p.transport ∧
      20 ≤ (f.place p.fragmentOffset p.transport).data.length

/-- **Rebuilding returns exactly when a fragment can be placed**, for a packet that was parsed. -/
theorem rebuild_eq_ok {cache : FragmentCache} {p : Ipv4Packet} (hp : p.headerLength ≤ p.data.length)
    {x : FragmentCache × Option Ipv4Packet} :
    rebuild cache p = .ok x ↔ Placeable cache p ∧ x = (cacheAfter cache p, handedOn cache p) := by
  unfold rebuild Placeable cacheAfter handedOn
  cases p.hasFragments <;> cases decide (p.fragmentOffset = 0)
  · -- a last fragment
    cases hget : cache.get p.id with
    | none => simp
    | some f =>
      simp only [p.payload_eq hp, Res.bind_ok, Res.bind_eq_ok, Ipv4Packet.addFragmentData_eq_ok,
        Ipv4Packet.finalize_eq_ok, Res.pure_eq, Res.ok.injEq, Option.some.injEq, Option.map_some, exists_eq_left']
      constructor
      · rintro ⟨_, ⟨hfits, rfl⟩, _, ⟨hlen, rfl⟩, rfl⟩
        exact ⟨⟨hfits, hlen⟩, rfl⟩
      · rintro ⟨⟨hfits, hlen⟩, rfl⟩
        exact ⟨_, ⟨hfits, rfl⟩, _, ⟨hlen, rfl⟩, rfl⟩
  · simp [eq_comm]
  · cases hget : cache.get p.id with
    | none => simp [eq_comm]
    | some f =>
      simp only [p.payload_eq hp, Res.bind_ok, Res.bind_eq_ok, Ipv4Packet.addFragmentData_eq_ok, Res.pure_eq,
        Res.ok.injEq, Option.some.injEq, forall_eq']
      constructor
      · rintro ⟨_, ⟨hfits, rfl⟩, rfl⟩
        exact ⟨hfits, rfl⟩
      · rintro ⟨hfits, rfl⟩
        exact ⟨_, ⟨hfits, rfl⟩, rfl⟩
  · simp [eq_comm]

/-- **What a received packet does to the cache and what it hands on.** -/
theorem receive_eq_ok {cache : FragmentCache} {b : List Byte} {x : FragmentCache × Option Ipv4Packet} :
    receive cache b = .ok x ↔
      Readable b ∧ Placeable cache (packetOf b) ∧ x = (cacheAfter cache (packetOf b), handedOn cache (packetOf b)) := by
  unfold receive
  simp only [Res.bind_eq_ok, Res.mapErr_eq_ok, parse_eq_ok_iff]
  constructor
  · rintro ⟨-, -, _, ⟨hb, rfl⟩, h⟩
    exact ⟨hb, (rebuild_eq_ok (p := packetOf b) hb.2).1 h⟩
  · rintro ⟨hb, h⟩
    exact ⟨_, Ipv4Header.extractFromSlice_eq b hb.2 hb.1, _, ⟨hb, rfl⟩, (rebuild_eq_ok (p := packetOf b) hb.2).2 h⟩

/-- What the rest of the branch needs of a packet handed on: its port or identifier field, the field of its transport
checksum when it has an entry, and 28 bytes for the trace when it has none. -/
def Routable (traced : Bool) (nat : NatTable) (p : Ipv4Packet) : Prop :=
  EnoughForGet p ∧
    match nat.lookup p with
    | some ip => 20 ≤ p.data.length ∧ (p.redirected ip).Fixable
    | none => traced = true → 28 ≤ p.data.length

theorem undoNat_returns_iff (traced : Bool) (nat : NatTable) (p : Ipv4Packet) :
    (∃ out, undoNat traced nat p = .ok out) ↔ Routable traced nat p := by
  unfold undoNat Routable
  simp only [Res.bind_eq_ok, get_eq_ok]
  constructor
  · rintro ⟨out, _, ⟨henough, rfl⟩, h⟩
    refine ⟨henough, ?_⟩
    cases hlook : nat.lookup p with
    | some ip =>
      simp only [hlook, Res.bind_eq_ok, Ipv4Packet.unmasquerade_eq_ok] at h
      obtain ⟨q, ⟨hlen, hq⟩, -⟩ := h
      exact ⟨hlen, (Ipv4Packet.fixTransportChecksum_returns_iff _).1 ⟨q, hq⟩⟩
    | none =>
      simp only [hlook] at h
      rintro rfl
      simp only [if_true, Res.bind_eq_ok] at h
      obtain ⟨sl, hsl, -⟩ := h
      unfold slice at hsl
      split at hsl
      · omega
      · cases hsl
  · rintro ⟨henough, h⟩
    cases hlook : nat.lookup p with
    | some ip =>
      simp only [hlook] at h
      obtain ⟨q, hq⟩ := (Ipv4Packet.fixTransportChecksum_returns_iff (ε := NetworkError) _).2 h.2
      refine ⟨some q, _, ⟨henough, rfl⟩, ?_⟩
      simp only [Ipv4Packet.unmasquerade_eq_ok.2 ⟨h.1, hq⟩, Res.bind_ok, Res.pure_eq]
    | none =>
      simp only [hlook] at h
      refine ⟨none, _, ⟨henough, rfl⟩, ?_⟩
      cases traced with
      | false => rfl
      | true => simp only [if_true, slice_eq p.data 0 28 (by omega) (h rfl), Res.bind_ok, Res.pure_eq]

/-- **The packet does not end the loop**: it holds its header, a fragment can be placed, and what is handed on can be
routed. -/
def Harmless (traced : Bool) (d : WgTunnel) (b : List Byte) : Prop :=
  Readable b ∧ Placeable d.cache (packetOf b) ∧ ∀ q, handedOn d.cache (packetOf b) = some q → Routable traced d.nat q

/-- The device after a packet. -/
def after (d : WgTunnel) (b : List Byte) : WgTunnel := { d with cache := cacheAfter d.cache (packetOf b) }

def HarmlessRun (traced : Bool) : WgTunnel → List (List Byte) → Prop
  | _, [] => True
  | d, b :: bs => Harmless traced d b ∧ HarmlessRun traced (d.after b) bs

/-- **One packet**: handling it returns exactly when it is harmless, and then changes the cache only. -/
theorem writeToTunnelV4_returns_iff (traced : Bool) (d : WgTunnel) (b : List Byte) :
    (∃ d' out, d.writeToTunnelV4 traced b = .ok (d', out)) ↔ Harmless traced d b := by
  unfold writeToTunnelV4 Harmless
  simp only [Res.bind_eq_ok, receive_eq_ok]
  constructor
  · rintro ⟨d', out, _, ⟨hb, hplace, rfl⟩, h⟩
    refine ⟨hb, hplace, ?_⟩
    intro q hq
    simp only [hq, Res.bind_eq_ok] at h
    obtain ⟨r, hr, -⟩ := h
    exact (undoNat_returns_iff traced d.nat q).1 ⟨r, hr⟩
  · rintro ⟨hb, hplace, hroute⟩
    cases hq : handedOn d.cache (packetOf b) with
    | none =>
      exact ⟨d.after b, none, _, ⟨hb, hplace, rfl⟩, rfl⟩
    | some q =>
      obtain ⟨r, hr⟩ := (undoNat_returns_iff traced d.nat q).2 (hroute q hq)
      refine ⟨d.after b, r, _, ⟨hb, hplace, rfl⟩, ?_⟩
      simp only [hr, Res.bind_ok]
      rfl

theorem writeToTunnelV4_after {traced : Bool} {d d' : WgTunnel} {b : List Byte} {out : Option Ipv4Packet}
    (h : d.writeToTunnelV4 traced b = .ok (d', out)) : d' = d.after b := by
  unfold writeToTunnelV4 at h
  simp only [Res.bind_eq_ok, receive_eq_ok] at h
  obtain ⟨_, ⟨-, -, rfl⟩, h⟩ := h
  cases hq : handedOn d.cache (packetOf b) with
  | none =>
    simp only [hq] at h
    cases h
    rfl
  | some q =>
    simp only [hq, Res.bind_eq_ok] at h
    obtain ⟨_, -, h⟩ := h
    cases h
    rfl

theorem writeAllToTunnelV4_returns_iff (traced : Bool) : ∀ (bs : List (List Byte)) (d : WgTunnel),
    (∃ d' outs, writeAllToTunnelV4 traced d bs = .ok (d', outs)) ↔ HarmlessRun traced d bs
  | [], d => ⟨fun _ => trivial, fun _ => ⟨d, [], rfl⟩⟩
  | b :: bs, d => by
    unfold writeAllToTunnelV4 HarmlessRun
    simp only [Res.bind_eq_ok]
    constructor
    · rintro ⟨d', outs, ⟨d₁, out⟩, h, ⟨d₂, outs'⟩, hs, -⟩
      refine ⟨(writeToTunnelV4_returns_iff traced d b).1 ⟨d₁, out, h⟩, ?_⟩
      rw [← writeToTunnelV4_after h]
      exact (writeAllToTunnelV4_returns_iff traced bs d₁).1 ⟨d₂, outs', hs⟩
    · rintro ⟨h, hs⟩
      obtain ⟨d₁, out, h⟩ := (writeToTunnelV4_returns_iff traced d b).2 h
      rw [← writeToTunnelV4_after h] at hs
      obtain ⟨d₂, outs, hs⟩ := (writeAllToTunnelV4_returns_iff traced bs d₁).2 hs
      exact ⟨_, _, _, h, _, hs, rfl⟩

end WgTunnel

namespace UdpDevice

/-- **The datagram does not end the loop**: it is not empty, and holds its header when it claims version 4. -/
def Harmless (b : List Byte) : Prop := b ≠ [] ∧ ((Ipv4Header.headerOf b).version = 4 → Readable b)

theorem readable_take (b : List Byte) : Readable (b.take 1600) ↔ Readable b := by
  have hihl : Ipv4Header.ihlBytes (b.take 1600) = Ipv4Header.ihlBytes b := by
    unfold Ipv4Header.ihlBytes
    rw [byteAt_take b 1600 0 (by omega)]
  have hnibble : (byteAt b 0 &&& 0x0F).toNat ≤ 15 := by
    rw [BitVec.toNat_and]
    exact Nat.and_le_right
  unfold Readable
  rw [hihl, List.length_take]
  unfold Ipv4Header.ihlBytes
  omega

theorem receive_returns_iff (b : List Byte) : (∃ out, receive b = .ok out) ↔ Harmless b := by
  unfold receive Harmless
  cases b with
  | nil => simp [index]
  | cons x rest =>
    have hb0 : (index ((x :: rest).take 1600) 0 : Res NetworkError Byte) = .ok x := rfl
    have hversion : (Ipv4Header.headerOf (x :: rest)).version = x >>> 4 := rfl
    simp only [hb0, Res.bind_ok, hversion, ne_eq, reduceCtorEq, not_false_eq_true, true_and]
    split
    · rename_i hv
      simp only [Res.bind_eq_ok, Res.mapErr_eq_ok, parse_eq_ok_iff, readable_take, hv, forall_const]
      constructor
      · rintro ⟨_, _, ⟨h, -⟩, -⟩
        exact h
      · intro h
        exact ⟨_, _, ⟨h, rfl⟩, rfl⟩
    · rename_i hv
      exact ⟨fun _ h => absurd h hv, fun _ => ⟨none, rfl⟩⟩

theorem receiveAll_returns_iff : ∀ (bs : List (List Byte)),
    (∃ outs, receiveAll bs = .ok outs) ↔ ∀ b ∈ bs, Harmless b
  | [] => by simp [receiveAll]
  | b :: bs => by
    rw [List.forall_mem_cons, ← receive_returns_iff, ← receiveAll_returns_iff bs, receiveAll]
    simp only [Res.bind_eq_ok]
    constructor
    · rintro ⟨_, out, h, outs, hs, -⟩
      exact ⟨⟨out, h⟩, outs, hs⟩
    · rintro ⟨⟨out, h⟩, outs, hs⟩
      exact ⟨_, out, h, outs, hs, rfl⟩

end UdpDevice

/-- **The receive loops go on exactly after harmless packets**: the WireGuard loop from any state, each packet in the
state it meets, and the UDP loop. -/
theorem receive_loops_go_on_iff (traced : Bool) (d : WgTunnel) (pkts datagrams : List (List Byte)) :
    ((∃ d' outs, d.writeAllToTunnelV4 traced pkts = .ok (d', outs)) ↔ d.HarmlessRun traced pkts) ∧
    ((∃ outs, UdpDevice.receiveAll datagrams = .ok outs) ↔ ∀ b ∈ datagrams, UdpDevice.Harmless b) :=
  ⟨WgTunnel.writeAllToTunnelV4_returns_iff traced pkts d, UdpDevice.receiveAll_returns_iff datagrams⟩

/-- The last fragment, at offset 8, of a UDP datagram from 1.1.1.1 to 10.9.9.9. -/
def strayFragment : List Byte :=
  [0x45, 0, 0, 28, 0, 7, 0, 1, 64, 17, 0, 0, 1, 1, 1, 1, 10, 9, 9, 9, 1, 2, 3, 4, 5, 6, 7, 8]

/-- **A stray fragment ends the WireGuard loop** of a new device, and an empty datagram the UDP loop. -/
theorem stray_fragment_ends_loop :
    (WgTunnel.mk ⟨0x0A090909, NatTable.new⟩ Table.empty).writeAllToTunnelV4 false [strayFragment] =
        .err (.generic "missing frag packet data") ∧
      UdpDevice.receiveAll [[]] = .panic .outOfRange :=
  ⟨rfl, rfl⟩

end Oathgate
