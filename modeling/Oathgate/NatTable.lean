import Oathgate.LibTable
import Oathgate.NetPacket
/-!
# NatTable — the address translation table (`oathgate-net`: `nat.rs`)

`insert` files a packet's source address under its protocol, destination and source port (ICMP: identifier); `get`
looks a packet up under its protocol, source and destination port.  A table filled by a sequence of packets therefore
answers with the source of the last packet whose key mirrors the lookup (`get_after_inserts`).
-/
namespace Oathgate

open Lib

inductive NatEntry where
  | tcp (ip : Ipv4Addr) (port : BitVec 16)
  | udp (ip : Ipv4Addr) (port : BitVec 16)
  | icmp (ip : Ipv4Addr) (id : BitVec 16)
  deriving DecidableEq, Repr

structure NatTable where
  table : Table NatEntry Ipv4Addr

namespace NatTable

variable {ε : Type}

def new : NatTable := ⟨Table.empty⟩

def putTcp (t : NatTable) (dst : Ipv4Addr) (port : BitVec 16) (src : Ipv4Addr) : NatTable :=
  ⟨t.table.insert (.tcp dst port) src⟩

def putUdp (t : NatTable) (dst : Ipv4Addr) (port : BitVec 16) (src : Ipv4Addr) : NatTable :=
  ⟨t.table.insert (.udp dst port) src⟩

def putIcmp (t : NatTable) (dst : Ipv4Addr) (id : BitVec 16) (src : Ipv4Addr) : NatTable :=
  ⟨t.table.insert (.icmp dst id) src⟩

def insert (t : NatTable) (pkt : Ipv4Packet) : Res ε NatTable :=
  if pkt.protocol = netProtocolIcmp then do
    let id ← be16In (← pkt.payload) 4 6
    return t.putIcmp pkt.dest id pkt.src
  else if pkt.protocol = netProtocolTcp then do
    let port ← be16In (← pkt.payload) 0 2
    return t.putTcp pkt.dest port pkt.src
  else if pkt.protocol = netProtocolUdp then do
    let port ← be16In (← pkt.payload) 0 2
    return t.putUdp pkt.dest port pkt.src
  else .ok t

def get (t : NatTable) (pkt : Ipv4Packet) : Res ε (Option Ipv4Addr) :=
  if pkt.protocol = netProtocolIcmp then do
    let id ← be16In (← pkt.payload) 4 6
    return t.table.get (.icmp pkt.src id)
  else if pkt.protocol = netProtocolTcp then do
    let port ← be16In (← pkt.payload) 2 4
    return t.table.get (.tcp pkt.src port)
  else if pkt.protocol = netProtocolUdp then do
    let port ← be16In (← pkt.payload) 2 4
    return t.table.get (.udp pkt.src port)
  else .ok none

def insertAll : NatTable → List Ipv4Packet → Res ε NatTable
  | t, [] => .ok t
  | t, p :: ps => do insertAll (← t.insert p) ps

/-! ## Keys -/

def Tracked (proto : BitVec 8) : Prop :=
  proto = netProtocolIcmp ∨ proto = netProtocolTcp ∨ proto = netProtocolUdp

instance (proto : BitVec 8) : Decidable (Tracked proto) := inferInstanceAs (Decidable (_ ∨ _ ∨ _))

/-- The entry of protocol `proto` for a remote address and a port or identifier. -/
def entryOf (proto : BitVec 8) (ip : Ipv4Addr) (port : BitVec 16) : Option NatEntry :=
  if proto = netProtocolIcmp then some (.icmp ip port)
  else if proto = netProtocolTcp then some (.tcp ip port)
  else if proto = netProtocolUdp then some (.udp ip port)
  else none

def outPort (p : Ipv4Packet) : BitVec 16 := if p.protocol = netProtocolIcmp then p.icmpId else p.srcPort

def inPort (p : Ipv4Packet) : BitVec 16 := if p.protocol = netProtocolIcmp then p.icmpId else p.dstPort

/-- The payload reaches the end of the field `insert` reads. -/
def EnoughForInsert (p : Ipv4Packet) : Prop :=
  Tracked p.protocol → p.headerLength + (if p.protocol = netProtocolIcmp then 6 else 2) ≤ p.data.length

/-- The payload reaches the end of the field `get` reads. -/
def EnoughForGet (p : Ipv4Packet) : Prop :=
  Tracked p.protocol → p.headerLength + (if p.protocol = netProtocolIcmp then 6 else 4) ≤ p.data.length

instance (p : Ipv4Packet) : Decidable (EnoughForInsert p) := inferInstanceAs (Decidable (_ → _))

instance (p : Ipv4Packet) : Decidable (EnoughForGet p) := inferInstanceAs (Decidable (_ → _))

/-- **`p` is an outbound packet of the flow that the inbound packet `r` answers**: same protocol, `p` sent to `r`'s
source, from the port `r` is sent to (ICMP: the same identifier). -/
def Mirrors (r p : Ipv4Packet) : Prop := p.protocol = r.protocol ∧ p.dest = r.src ∧ outPort p = inPort r

theorem entryOf_inj {proto proto' : BitVec 8} {ip ip' : Ipv4Addr} {port port' : BitVec 16} (h : Tracked proto') :
    entryOf proto ip port = entryOf proto' ip' port' ↔ proto = proto' ∧ ip = ip' ∧ port = port' := by
  constructor
  · intro he
    rcases h with rfl | rfl | rfl <;>
      by_cases h1 : proto = netProtocolIcmp <;> by_cases h2 : proto = netProtocolTcp <;>
      by_cases h3 : proto = netProtocolUdp <;>
      simp_all [entryOf, netProtocolIcmp, netProtocolTcp, netProtocolUdp]
  · rintro ⟨rfl, rfl, rfl⟩
    rfl

theorem entryOf_eq_none {proto : BitVec 8} (h : ¬ Tracked proto) (ip : Ipv4Addr) (port : BitVec 16) :
    entryOf proto ip port = none := by
  simp only [Tracked, not_or] at h
  unfold entryOf
  rw [if_neg h.1, if_neg h.2.1, if_neg h.2.2]

/-- **The field both methods read**: the word at an offset of the payload. -/
theorem readField_eq {α : Type} (p : Ipv4Packet) (s : Nat) (f : BitVec 16 → α)
    (h : p.headerLength + (s + 2) ≤ p.data.length) :
    (do return f (← be16In (← p.payload) s (s + 2)) : Res ε α) = .ok (f (be16At p.transport s)) := by
  have hlen := p.length_transport
  rw [p.payload_eq (by omega), Res.bind_ok, be16In_eq p.transport s (by omega)]
  rfl

theorem enough_of_readField {α : Type} {p : Ipv4Packet} {s e : Nat} {f : BitVec 16 → α} {a : α}
    (h : (do return f (← be16In (← p.payload) s e) : Res ε α) = .ok a) : p.headerLength + e ≤ p.data.length := by
  have hlen := p.length_transport
  simp only [Res.bind_eq_ok, be16In] at h
  obtain ⟨b, hb, port, ⟨sl, hsl, -⟩, -⟩ := h
  obtain ⟨hl, rfl⟩ := Ipv4Packet.payload_eq_ok hb
  unfold slice at hsl
  split at hsl
  · omega
  · cases hsl

/-- **`insert` records the packet's source under its outbound key.** -/
theorem insert_eq (t : NatTable) (p : Ipv4Packet) (h : EnoughForInsert p) :
    (t.insert p : Res ε NatTable) =
      .ok ⟨t.table.record (fun p => entryOf p.protocol p.dest (outPort p)) (·.src) p⟩ := by
  unfold insert
  by_cases h1 : p.protocol = netProtocolIcmp
  · have hl := h (Or.inl h1)
    rw [if_pos h1] at hl
    rw [if_pos h1, readField_eq p 4 _ hl]
    simp only [putIcmp, Table.record, entryOf, outPort, Ipv4Packet.icmpId, if_pos h1]
  rw [if_neg h1]
  by_cases h2 : p.protocol = netProtocolTcp
  · have hl := h (Or.inr (Or.inl h2))
    rw [if_neg h1] at hl
    rw [if_pos h2, readField_eq p 0 _ hl]
    simp only [putTcp, Table.record, entryOf, outPort, Ipv4Packet.srcPort, if_neg h1, if_pos h2]
  rw [if_neg h2]
  by_cases h3 : p.protocol = netProtocolUdp
  · have hl := h (Or.inr (Or.inr h3))
    rw [if_neg h1] at hl
    rw [if_pos h3, readField_eq p 0 _ hl]
    simp only [putUdp, Table.record, entryOf, outPort, Ipv4Packet.srcPort, if_neg h1, if_neg h2, if_pos h3]
  · simp only [Table.record, entryOf, if_neg h1, if_neg h2, if_neg h3]

/-- **`get` reads the table at the packet's inbound key.** -/
theorem get_eq (t : NatTable) (p : Ipv4Packet) (h : EnoughForGet p) :
    (t.get p : Res ε (Option Ipv4Addr)) = .ok ((entryOf p.protocol p.src (inPort p)).bind t.table.get) := by
  unfold get
  by_cases h1 : p.protocol = netProtocolIcmp
  · have hl := h (Or.inl h1)
    rw [if_pos h1] at hl
    rw [if_pos h1, readField_eq p 4 _ hl]
    simp only [entryOf, inPort, Ipv4Packet.icmpId, if_pos h1, Option.bind_some]
  rw [if_neg h1]
  by_cases h2 : p.protocol = netProtocolTcp
  · have hl := h (Or.inr (Or.inl h2))
    rw [if_neg h1] at hl
    rw [if_pos h2, readField_eq p 2 _ hl]
    simp only [entryOf, inPort, Ipv4Packet.dstPort, if_neg h1, if_pos h2, Option.bind_some]
  rw [if_neg h2]
  by_cases h3 : p.protocol = netProtocolUdp
  · have hl := h (Or.inr (Or.inr h3))
    rw [if_neg h1] at hl
    rw [if_pos h3, readField_eq p 2 _ hl]
    simp only [entryOf, inPort, Ipv4Packet.dstPort, if_neg h1, if_neg h2, if_pos h3, Option.bind_some]
  · simp only [entryOf, if_neg h1, if_neg h2, if_neg h3, Option.bind_none]

/-- Of a tracked protocol, the field that is read lies in the payload. -/
theorem enough_of_fields {α : Type} {p : Ipv4Packet} {s e : Nat} {icmp tcp udp : BitVec 16 → α} {other : Res ε α} {a : α}
    (ht : Tracked p.protocol)
    (h : (if p.protocol = netProtocolIcmp then do return icmp (← be16In (← p.payload) 4 6)
      else if p.protocol = netProtocolTcp then do return tcp (← be16In (← p.payload) s e)
      else if p.protocol = netProtocolUdp then do return udp (← be16In (← p.payload) s e)
      else other) = .ok a) :
    p.headerLength + (if p.protocol = netProtocolIcmp then 6 else e) ≤ p.data.length := by
  by_cases h1 : p.protocol = netProtocolIcmp
  · rw [if_pos h1] at h ⊢
    exact enough_of_readField h
  rw [if_neg h1] at h ⊢
  split at h
  · exact enough_of_readField h
  split at h
  · exact enough_of_readField h
  · rename_i h2 h3
    rcases ht with h' | h' | h' <;> contradiction

theorem enough_of_insert {t t' : NatTable} {p : Ipv4Packet} (h : (t.insert p : Res ε NatTable) = .ok t') :
    EnoughForInsert p := by
  intro ht
  unfold insert at h
  exact enough_of_fields ht h

theorem enough_of_get {t : NatTable} {p : Ipv4Packet} {found : Option Ipv4Addr}
    (h : (t.get p : Res ε (Option Ipv4Addr)) = .ok found) : EnoughForGet p := by
  intro ht
  unfold get at h
  exact enough_of_fields ht h

/-- What the table holds at the packet's inbound key. -/
def lookup (t : NatTable) (p : Ipv4Packet) : Option Ipv4Addr :=
  (entryOf p.protocol p.src (inPort p)).bind t.table.get

theorem get_eq_ok {t : NatTable} {p : Ipv4Packet} {found : Option Ipv4Addr} :
    (t.get p : Res ε (Option Ipv4Addr)) = .ok found ↔ EnoughForGet p ∧ found = t.lookup p := by
  constructor
  · intro h
    have henough := enough_of_get h
    rw [get_eq t p henough, Res.ok.injEq] at h
    exact ⟨henough, h.symm⟩
  · rintro ⟨henough, rfl⟩
    exact get_eq t p henough

theorem insertAll_eq : ∀ (ps : List Ipv4Packet) (t : NatTable), (∀ p ∈ ps, EnoughForInsert p) →
    (insertAll t ps : Res ε NatTable) =
      .ok ⟨ps.foldl (Table.record (fun p => entryOf p.protocol p.dest (outPort p)) (·.src)) t.table⟩
  | [], _, _ => rfl
  | p :: ps, t, h => by
    unfold insertAll
    rw [insert_eq t p (h p (by simp)), Res.bind_ok, insertAll_eq ps _ (fun q hq => h q (by simp [hq]))]
    rfl

theorem insertAll_append : ∀ {ps qs : List Ipv4Packet} {t t' t'' : NatTable},
    (insertAll t ps : Res ε NatTable) = .ok t' → (insertAll t' qs : Res ε NatTable) = .ok t'' →
      (insertAll t (ps ++ qs) : Res ε NatTable) = .ok t''
  | [], qs, t, t', t'', h, h' => by
    cases h
    exact h'
  | p :: ps, qs, t, t', t'', h, h' => by
    simp only [insertAll, List.cons_append, Res.bind_eq_ok] at h ⊢
    obtain ⟨u, hu, h⟩ := h
    exact ⟨u, hu, insertAll_append h h'⟩

/-- A log that was filed as a whole had all its fields. -/
theorem enough_of_insertAll : ∀ {ps : List Ipv4Packet} {t t' : NatTable},
    (insertAll t ps : Res ε NatTable) = .ok t' → ∀ p ∈ ps, EnoughForInsert p
  | [], t, t', _ => by simp
  | p :: ps, t, t', h => by
    simp only [insertAll, Res.bind_eq_ok] at h
    obtain ⟨u, hu, h⟩ := h
    rw [List.forall_mem_cons]
    exact ⟨enough_of_insert hu, enough_of_insertAll h⟩

/-- **What a table filled by a log holds under a lookup's key**: the source of the last packet that mirrors it. -/
theorem lookup_eq_some (ps : List Ipv4Packet) (r : Ipv4Packet) (a : Ipv4Addr) :
    (entryOf r.protocol r.src (inPort r)).bind
        (ps.foldl (Table.record (fun p => entryOf p.protocol p.dest (outPort p)) (·.src)) Table.empty).get = some a ↔
      Tracked r.protocol ∧ ∃ p, LastWith (Mirrors r) ps p ∧ p.src = a := by
  by_cases hr : Tracked r.protocol
  · obtain ⟨k, hk⟩ : ∃ k, entryOf r.protocol r.src (inPort r) = some k := by
      rcases hr with h | h | h <;> simp [entryOf, h, netProtocolIcmp, netProtocolTcp, netProtocolUdp]
    rw [hk, Option.bind_some, Table.get_foldl_record]
    have hkey : (fun p => entryOf p.protocol p.dest (outPort p) = some k) = Mirrors r := by
      funext p
      rw [← hk, entryOf_inj hr]
      rfl
    simp only [hkey, hr, true_and]
  · rw [entryOf_eq_none hr]
    simp [hr]

/-- **A lookup agrees with the history of inserts.** -/
theorem get_after_inserts (ps : List Ipv4Packet) (r : Ipv4Packet) (hps : ∀ p ∈ ps, EnoughForInsert p)
    (hr : EnoughForGet r) :
    ∃ t found, (insertAll new ps : Res ε NatTable) = .ok t ∧ (t.get r : Res ε (Option Ipv4Addr)) = .ok found ∧
      ∀ a, found = some a ↔ Tracked r.protocol ∧ ∃ p, LastWith (Mirrors r) ps p ∧ p.src = a :=
  ⟨_, _, insertAll_eq ps new hps, get_eq _ r hr, fun a => lookup_eq_some ps r a⟩

theorem get_after_inserts_udp :
    ∃ t found, (insertAll new [Ipv4Packet.datagram 17 0x0A000002 0x01010101 [0x03, 0xE8, 0, 53, 0, 8, 0, 0]] :
        Res Empty NatTable) = .ok t ∧
      (t.get (Ipv4Packet.datagram 17 0x01010101 0x0A000001 [0, 53, 0x03, 0xE8, 0, 8, 0, 0]) :
        Res Empty (Option Ipv4Addr)) = .ok found ∧ found = some 0x0A000002 := by
  obtain ⟨t, found, ht, hf, h⟩ := get_after_inserts (ε := Empty)
    [Ipv4Packet.datagram 17 0x0A000002 0x01010101 [0x03, 0xE8, 0, 53, 0, 8, 0, 0]]
    (Ipv4Packet.datagram 17 0x01010101 0x0A000001 [0, 53, 0x03, 0xE8, 0, 8, 0, 0]) (by decide) (by decide)
  refine ⟨t, found, ht, hf, (h _).2 ⟨by decide, _, ⟨[], [], rfl, ?_, by simp⟩, rfl⟩⟩
  exact ⟨by decide, by decide, by decide⟩

end NatTable
end Oathgate
