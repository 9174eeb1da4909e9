import Oathgate.LibRun
import Oathgate.LibTable
import Oathgate.NetFrame
/-!
# Switch — the layer 2 switch (`oathgate-bridge`: `net/switch.rs`)

A port is the queue of packets enqueued to its device.  `process` learns the port of the source and delivers to the
ports of the destination; whatever it delivers, on the table one call is one record of a log (`cache_process`), so that
the table of a run holds the port that sent last (`cache_run`).
-/
namespace Oathgate

open Lib

structure VirtioSwitch where
  ports : List (List EthernetPacket)
  cache : Table MacAddress Nat

namespace VirtioSwitch

/-- `VirtioSwitch::new`; the pcap logger only reads. -/
def new : VirtioSwitch := ⟨[], Table.empty⟩

def associatePort (s : VirtioSwitch) (port : Nat) (mac : MacAddress) : VirtioSwitch :=
  { s with cache := s.cache.insert mac port }

def getPort (s : VirtioSwitch) (mac : MacAddress) : Option Nat := s.cache.get mac

def connect (s : VirtioSwitch) (port : List EthernetPacket) : Nat × VirtioSwitch :=
  (s.ports.length, { s with ports := s.ports ++ [port] })

def enqueue (s : VirtioSwitch) (port : Nat) (pkt : EthernetPacket) : VirtioSwitch :=
  { s with ports := s.ports.modify port (fun dev => dev ++ [pkt]) }

/-- The update of the table in `process`, skipped when it already has the port. -/
def learn (s : VirtioSwitch) (port : Nat) (src : MacAddress) : VirtioSwitch :=
  match s.getPort src with
  | some p => if p = port then s else s.associatePort port src
  | none => s.associatePort port src

def others (s : VirtioSwitch) (port : Nat) : List Nat :=
  (List.range s.ports.length).filter (fun idx => decide (idx ≠ port))

/-- The delivery in `process`. -/
def deliver (s : VirtioSwitch) (port : Nat) (pkt : EthernetPacket) : VirtioSwitch :=
  if pkt.frame.dst.isBroadcast then (s.others port).foldl (fun s idx => s.enqueue idx pkt) s
  else
    match s.getPort pkt.frame.dst with
    | some port =>
      match s.ports[port]? with
      | some _ => s.enqueue port pkt
      | none => s
    | none => s

def process (s : VirtioSwitch) (port : Nat) (pkt : List Byte) : Res ProtocolError Unit × VirtioSwitch :=
  if pkt.length < 14 then (.err (.notEnoughData pkt.length 14), s)
  else
    let (frame, payload) := EthernetFrame.extract pkt
    Res.andThen (frame, s) fun frame s => (.ok (), (s.learn port frame.src).deliver port ⟨frame, payload⟩)

/-! ## One call -/

theorem learn_eq (s : VirtioSwitch) (port : Nat) (src : MacAddress) : s.learn port src = s.associatePort port src := by
  unfold learn
  cases h : s.getPort src with
  | none => rfl
  | some p =>
    by_cases hp : p = port
    · subst hp
      simp only [if_true, associatePort]
      rw [Table.insert_of_get s.cache src p h]
    · simp only [if_neg hp]

@[simp] theorem length_ports_enqueue (s : VirtioSwitch) (port : Nat) (pkt : EthernetPacket) :
    (s.enqueue port pkt).ports.length = s.ports.length := List.length_modify _ _ _

theorem getElem?_ports_enqueue (s : VirtioSwitch) (port q : Nat) (pkt : EthernetPacket) :
    (s.enqueue port pkt).ports[q]? = if q = port then s.ports[q]?.map (fun dev => dev ++ [pkt]) else s.ports[q]? := by
  unfold enqueue
  simp only [List.getElem?_modify]
  by_cases h : q = port
  · subst h
    simp
  · simp [h, Ne.symm h]

theorem cache_foldl_enqueue (pkt : EthernetPacket) :
    ∀ (targets : List Nat) (s : VirtioSwitch), (targets.foldl (fun s idx => s.enqueue idx pkt) s).cache = s.cache
  | [], _ => rfl
  | idx :: targets, s => cache_foldl_enqueue pkt targets (s.enqueue idx pkt)

theorem length_ports_foldl_enqueue (pkt : EthernetPacket) : ∀ (targets : List Nat) (s : VirtioSwitch),
    (targets.foldl (fun s idx => s.enqueue idx pkt) s).ports.length = s.ports.length
  | [], _ => rfl
  | idx :: targets, s => by
    rw [List.foldl_cons, length_ports_foldl_enqueue pkt targets, length_ports_enqueue]

/-- **A loop over distinct ports enqueues once on each of them** and on no other. -/
theorem getElem?_ports_foldl_enqueue (pkt : EthernetPacket) (q : Nat) :
    ∀ (targets : List Nat) (s : VirtioSwitch), targets.Nodup →
      (targets.foldl (fun s idx => s.enqueue idx pkt) s).ports[q]? =
        if q ∈ targets then s.ports[q]?.map (fun dev => dev ++ [pkt]) else s.ports[q]?
  | [], _, _ => rfl
  | idx :: targets, s, hnd => by
    rw [List.nodup_cons] at hnd
    rw [List.foldl_cons, getElem?_ports_foldl_enqueue pkt q targets _ hnd.2, getElem?_ports_enqueue]
    by_cases hq : q = idx
    · subst hq
      simp [hnd.1]
    · simp [hq]

theorem cache_deliver (s : VirtioSwitch) (port : Nat) (pkt : EthernetPacket) :
    (s.deliver port pkt).cache = s.cache := by
  unfold deliver
  split
  · exact cache_foldl_enqueue pkt _ s
  · split
    · split <;> rfl
    · rfl

/-- **A broadcast is enqueued once on every port but the originator's.** -/
theorem deliver_broadcast (s : VirtioSwitch) (port : Nat) (pkt : EthernetPacket)
    (h : pkt.frame.dst = MacAddress.broadcast) (q : Nat) :
    (s.deliver port pkt).ports[q]? =
      if q = port then s.ports[q]? else s.ports[q]?.map (fun dev => dev ++ [pkt]) := by
  have hnd : (s.others port).Nodup := List.Pairwise.filter _ List.nodup_range
  unfold deliver
  rw [if_pos (by simpa [MacAddress.isBroadcast] using h), getElem?_ports_foldl_enqueue pkt q _ s hnd]
  unfold others
  by_cases hq : q = port
  · simp [hq]
  · by_cases hlt : q < s.ports.length
    · simp [hq, hlt]
    · simp [hq, hlt]

/-- **A frame to a learned address is enqueued on its port only.** -/
theorem deliver_learned (s : VirtioSwitch) (port q : Nat) (pkt : EthernetPacket)
    (h : pkt.frame.dst ≠ MacAddress.broadcast) (hq : s.cache.get pkt.frame.dst = some q) (hlt : q < s.ports.length) :
    s.deliver port pkt = s.enqueue q pkt := by
  unfold deliver getPort
  rw [if_neg (by simpa [MacAddress.isBroadcast] using h), hq]
  simp only [List.getElem?_eq_getElem hlt]

theorem process_ok (s : VirtioSwitch) (port : Nat) (frame : EthernetFrame) (payload : List Byte) :
    s.process port (frame.wire ++ payload) =
      (.ok (), (s.associatePort port frame.src).deliver port ⟨frame, payload⟩) := by
  have hlen := frame.le_length_wire_append payload
  unfold process
  rw [if_neg (Nat.not_lt.2 hlen), (EthernetFrame.extract_eq_ok _ _ _).2 rfl]
  simp only [Res.andThen_ok, learn_eq]

/-- **A short frame or one with an unknown ethertype changes nothing.** -/
theorem process_rejected (s : VirtioSwitch) (port : Nat) (pkt : List Byte)
    (h : ∀ frame payload, pkt ≠ EthernetFrame.wire frame ++ payload) : ∃ e, s.process port pkt = (.err e, s) := by
  unfold process
  split
  · exact ⟨_, rfl⟩
  · cases hx : EthernetFrame.extract pkt with
    | mk r payload =>
      cases r with
      | ok frame => exact absurd ((EthernetFrame.extract_eq_ok _ _ _).1 hx) (h frame payload)
      | err e => exact ⟨e, rfl⟩
      | panic p =>
        have hret := EthernetFrame.returns_extract pkt p
        rw [hx] at hret
        exact absurd rfl hret

def sourceOf (pkt : List Byte) : Option MacAddress :=
  match EthernetFrame.extract pkt with
  | (.ok frame, _) => some frame.src
  | _ => none

theorem sourceOf_wire (frame : EthernetFrame) (payload : List Byte) :
    sourceOf (frame.wire ++ payload) = some frame.src := by
  unfold sourceOf
  rw [(EthernetFrame.extract_eq_ok _ _ _).2 rfl]

theorem sourceOf_rejected {pkt : List Byte} (h : ∀ frame payload, pkt ≠ EthernetFrame.wire frame ++ payload) :
    sourceOf pkt = none := by
  unfold sourceOf
  split
  · rename_i frame payload hx
    exact absurd ((EthernetFrame.extract_eq_ok _ _ _).1 hx) (h frame payload)
  · rfl

theorem accepted_or_rejected (pkt : List Byte) :
    (∃ frame payload, pkt = EthernetFrame.wire frame ++ payload) ∨
      ∀ frame payload, pkt ≠ EthernetFrame.wire frame ++ payload := by
  by_cases h : ∃ frame payload, pkt = EthernetFrame.wire frame ++ payload
  · exact Or.inl h
  · exact Or.inr fun frame payload he => h ⟨frame, payload, he⟩

/-- **On the table a call is one record**: the port, at the source of the frame. -/
theorem cache_process (s : VirtioSwitch) (port : Nat) (pkt : List Byte) :
    (s.process port pkt).2.cache = Table.record (fun l => sourceOf l.2) (fun l => l.1) s.cache (port, pkt) := by
  rcases accepted_or_rejected pkt with ⟨frame, payload, rfl⟩ | h
  · rw [process_ok, cache_deliver]
    unfold Table.record
    simp only [sourceOf_wire]
    rfl
  · obtain ⟨e, he⟩ := process_rejected s port pkt h
    rw [he]
    unfold Table.record
    simp only [sourceOf_rejected h]

theorem length_ports_deliver (s : VirtioSwitch) (port : Nat) (pkt : EthernetPacket) :
    (s.deliver port pkt).ports.length = s.ports.length := by
  unfold deliver
  split
  · exact length_ports_foldl_enqueue pkt _ s
  · split
    · split
      · exact length_ports_enqueue s _ pkt
      · rfl
    · rfl

theorem length_ports_process (s : VirtioSwitch) (port : Nat) (pkt : List Byte) :
    (s.process port pkt).2.ports.length = s.ports.length := by
  rcases accepted_or_rejected pkt with ⟨frame, payload, rfl⟩ | h
  · rw [process_ok, length_ports_deliver]
    rfl
  · obtain ⟨e, he⟩ := process_rejected s port pkt h
    rw [he]

/-! ## Runs -/

/-- A call of `connect`, with the port it returned, or of `process`. -/
inductive Op where
  | connect (dev : List EthernetPacket) (port : Nat)
  | process (port : Nat) (pkt : List Byte)

namespace Op

def source : Op → Option MacAddress
  | .connect .. => none
  | .process _ pkt => sourceOf pkt

def port : Op → Nat
  | .connect _ port => port
  | .process port _ => port

end Op

def Step (s : VirtioSwitch) (op : Op) (s' : VirtioSwitch) : Prop :=
  match op with
  | .connect dev port => s.connect dev = (port, s')
  | .process port pkt => (s.process port pkt).2 = s'

/-- Each call of `process` uses a port that an earlier `connect` returned. -/
def UsesPorts (ls : List Op) : Prop :=
  ∀ ls₁ port pkt ls₂, ls = ls₁ ++ .process port pkt :: ls₂ → ∃ dev, Op.connect dev port ∈ ls₁

theorem usesPorts_of_connects {ls : List Op} (h : ∀ port pkt, Op.process port pkt ∉ ls) : UsesPorts ls := by
  rintro ls₁ port pkt ls₂ rfl
  exact absurd (by simp) (h port pkt)

theorem usesPorts_snoc (ls : List Op) (op : Op) :
    UsesPorts (ls ++ [op]) ↔ UsesPorts ls ∧ ∀ port pkt, op = .process port pkt → ∃ dev, Op.connect dev port ∈ ls := by
  constructor
  · intro h
    refine ⟨?_, ?_⟩
    · rintro ls₁ port pkt ls₂ rfl
      exact h ls₁ port pkt (ls₂ ++ [op]) (by simp)
    · rintro port pkt rfl
      exact h ls port pkt [] rfl
  · rintro ⟨h, hlast⟩ ls₁ port pkt ls₂ heq
    rcases List.eq_nil_or_concat ls₂ with rfl | ⟨ls₂', op', rfl⟩
    · obtain ⟨rfl, hop⟩ := List.append_inj' heq rfl
      simp only [List.cons.injEq, and_true] at hop
      exact hlast port pkt hop
    · rw [List.concat_eq_append, ← List.cons_append, ← List.append_assoc] at heq
      exact h ls₁ port pkt ls₂' (List.append_inj' heq rfl).1

/-- **The table of a run is the log of its calls.** -/
theorem cache_run {ls : List Op} {s : VirtioSwitch} (h : Run Step new ls s) :
    s.cache = ls.foldl (Table.record Op.source Op.port) Table.empty := by
  refine Run.invariant (I := fun ls s => s.cache = ls.foldl (Table.record Op.source Op.port) Table.empty) rfl ?_ h
  intro ls t op u _ ih hstep
  rw [List.foldl_append, ← ih]
  cases op with
  | connect dev port =>
    simp only [Step, connect, Prod.mk.injEq] at hstep
    rw [← hstep.2]
    rfl
  | process port pkt =>
    simp only [Step] at hstep
    rw [← hstep, cache_process]
    rfl

theorem connected_run {ls : List Op} {s : VirtioSwitch} (h : Run Step new ls s) :
    ∀ dev port, Op.connect dev port ∈ ls → port < s.ports.length := by
  refine Run.invariant (I := fun ls s => ∀ dev port, Op.connect dev port ∈ ls → port < s.ports.length)
    (by simp) ?_ h
  intro ls t op u _ ih hstep dev port hmem
  rcases List.mem_append.1 hmem with hmem | hmem
  · have hlt := ih dev port hmem
    cases op with
    | connect dev' port' =>
      simp only [Step, connect, Prod.mk.injEq] at hstep
      rw [← hstep.2, List.length_append]
      omega
    | process port' pkt =>
      simp only [Step] at hstep
      rw [← hstep, length_ports_process]
      exact hlt
  · rw [List.mem_singleton] at hmem
    subst hmem
    simp only [Step, connect, Prod.mk.injEq] at hstep
    rw [← hstep.2, List.length_append, ← hstep.1]
    simp

/-- **A learned port is connected.** -/
theorem learned_run {ls : List Op} {s : VirtioSwitch} (h : Run Step new ls s) (hports : UsesPorts ls)
    {mac : MacAddress} {q : Nat} (hq : s.cache.get mac = some q) : q < s.ports.length := by
  rw [cache_run h, Table.get_foldl_record] at hq
  obtain ⟨op, ⟨ls₁, ls₂, hls, hsrc, -⟩, rfl⟩ := hq
  cases op with
  | connect dev port => simp [Op.source] at hsrc
  | process port pkt =>
    obtain ⟨dev, hdev⟩ := hports ls₁ port pkt ls₂ hls
    have hmem : Op.connect dev port ∈ ls := by
      rw [hls]
      exact List.mem_append_left _ hdev
    exact connected_run h dev port hmem

theorem rejected_of_header {pkt : List Byte} (h : pkt.length < 14 ∨ ∀ e : EtherType, be16At pkt 12 ≠ e.asU16)
    (frame : EthernetFrame) (payload : List Byte) : pkt ≠ frame.wire ++ payload := by
  rintro rfl
  have hlen := frame.le_length_wire_append payload
  rcases h with h | h
  · omega
  · have hx := (EthernetFrame.extract_eq_ok (frame.wire ++ payload) payload frame).2 rfl
    rw [EthernetFrame.extract_of_length _ hlen, Prod.mk.injEq, Res.bind_eq_ok] at hx
    obtain ⟨⟨e, he, -⟩, -⟩ := hx
    exact h e ((EtherType.tryFrom_eq_ok _ _).1 he)

/-- **The forwarding specification.**  After any run in which each call uses a port returned by `connect`, a call
on a frame teaches the switch the port of its source and nothing else; a broadcast is enqueued once on every port but
the ingress; a frame to an address that was a source is enqueued once, on the port that sent from it last, the frame
itself included, and on no other; and a rejected buffer changes nothing. -/
theorem process_forwards (ls : List Op) (s : VirtioSwitch) (hrun : Run Step new ls s) (port : Nat) (pkt : List Byte)
    (hports : UsesPorts (ls ++ [.process port pkt])) :
    (∀ frame payload, pkt = EthernetFrame.wire frame ++ payload →
      (s.process port pkt).1 = .ok () ∧ (s.process port pkt).2.cache = s.cache.insert frame.src port ∧
      (frame.dst = MacAddress.broadcast → ∀ q, (s.process port pkt).2.ports[q]? =
        if q = port then s.ports[q]? else s.ports[q]?.map (fun dev => dev ++ [⟨frame, payload⟩])) ∧
      (frame.dst ≠ MacAddress.broadcast → ∀ op,
        LastWith (fun op => op.source = some frame.dst) (ls ++ [.process port pkt]) op →
        op.port < s.ports.length ∧ ∀ q, (s.process port pkt).2.ports[q]? =
          if q = op.port then s.ports[q]?.map (fun dev => dev ++ [⟨frame, payload⟩]) else s.ports[q]?)) ∧
    ((pkt.length < 14 ∨ ∀ e : EtherType, be16At pkt 12 ≠ e.asU16) → ∃ e, s.process port pkt = (.err e, s)) := by
  refine ⟨?_, fun h => process_rejected s port pkt (rejected_of_header h)⟩
  rintro frame payload rfl
  have hlearn : (s.process port (frame.wire ++ payload)).2.cache = s.cache.insert frame.src port := by
    rw [process_ok, cache_deliver]
    rfl
  refine ⟨by rw [process_ok], hlearn, ?_, ?_⟩
  · intro hb q
    rw [process_ok]
    exact deliver_broadcast _ port ⟨frame, payload⟩ hb q
  · intro hb op hop
    -- the table after learning is the log with this call
    have hrun' : Run Step new (ls ++ [.process port (frame.wire ++ payload)])
        (s.process port (frame.wire ++ payload)).2 := .snoc hrun rfl
    have hget : (s.process port (frame.wire ++ payload)).2.cache.get frame.dst = some op.port := by
      rw [cache_run hrun', Table.get_foldl_record]
      exact ⟨op, hop, rfl⟩
    have hlt := learned_run hrun' hports hget
    rw [length_ports_process] at hlt
    refine ⟨hlt, ?_⟩
    intro q
    rw [hlearn] at hget
    rw [process_ok, deliver_learned (s.associatePort port frame.src) port op.port ⟨frame, payload⟩ hb hget hlt,
      getElem?_ports_enqueue]
    rfl

theorem process_forwards_to_second_port :
    ∃ s, Run Step new [.connect [] 0, .connect [] 1,
        .process 1 (EthernetFrame.wire ⟨MacAddress.broadcast, guestMac 1, .arp⟩ ++ [])] s ∧
      (s.process 0 (EthernetFrame.wire ⟨guestMac 1, guestMac 0, .ipv4⟩ ++ [7])).2.ports[1]? =
        some [⟨⟨guestMac 1, guestMac 0, .ipv4⟩, [7]⟩] := by
  let hello := EthernetFrame.wire ⟨MacAddress.broadcast, guestMac 1, .arp⟩ ++ []
  let frame : EthernetFrame := ⟨guestMac 1, guestMac 0, .ipv4⟩
  let ls : List Op := [.connect [] 0, .connect [] 1, .process 1 hello]
  have hrun : Run Step new ls _ := .cons rfl <| .cons rfl <| .cons rfl .nil
  have hports : UsesPorts (ls ++ [.process 0 (frame.wire ++ [7])]) := by
    have hconnects : UsesPorts [.connect [] 0, .connect [] 1] := usesPorts_of_connects (by simp)
    refine (usesPorts_snoc ls _).2 ⟨(usesPorts_snoc _ _).2 ⟨hconnects, ?_⟩, ?_⟩
    · rintro port pkt ⟨⟩
      exact ⟨[], by simp⟩
    · rintro port pkt ⟨⟩
      exact ⟨[], List.mem_cons_self⟩
  have hlast : LastWith (fun op => op.source = some frame.dst) (ls ++ [.process 0 (frame.wire ++ [7])])
      (.process 1 hello) :=
    ⟨[.connect [] 0, .connect [] 1], [.process 0 (frame.wire ++ [7])], rfl, by decide, by simp; decide⟩
  refine ⟨_, hrun, ?_⟩
  have hforward := ((process_forwards ls _ hrun 0 _ hports).1 frame [7] rfl).2.2.2 (by decide) _ hlast
  rw [hforward.2 1]
  rfl

/-! ## Unknown destinations -/

/-- **The frame is flooded**: enqueued once on every port but the one it came from. -/
def Flooded (s : VirtioSwitch) (port : Nat) (frame : EthernetFrame) (payload : List Byte) : Prop :=
  (s.process port (frame.wire ++ payload)).1 = .ok () ∧ ∀ q, (s.process port (frame.wire ++ payload)).2.ports[q]? =
    if q = port then s.ports[q]? else s.ports[q]?.map (fun dev => dev ++ [⟨frame, payload⟩])

/-- **An address that was no source is not in the table.** -/
theorem unknown_run {ls : List Op} {s : VirtioSwitch} (hrun : Run Step new ls s) {mac : MacAddress}
    (hunknown : ∀ op ∈ ls, op.source ≠ some mac) : s.cache.get mac = none := by
  rw [cache_run hrun]
  exact Table.get_foldl_record_none Op.port hunknown

theorem deliver_unknown (s : VirtioSwitch) (port : Nat) (pkt : EthernetPacket)
    (h : pkt.frame.dst ≠ MacAddress.broadcast) (hget : s.cache.get pkt.frame.dst = none) : s.deliver port pkt = s := by
  unfold deliver getPort
  rw [if_neg (by simpa [MacAddress.isBroadcast] using h), hget]

theorem deliver_unconnected (s : VirtioSwitch) (port q : Nat) (pkt : EthernetPacket)
    (h : pkt.frame.dst ≠ MacAddress.broadcast) (hq : s.cache.get pkt.frame.dst = some q) (hle : s.ports.length ≤ q) :
    s.deliver port pkt = s := by
  unfold deliver getPort
  rw [if_neg (by simpa [MacAddress.isBroadcast] using h), hq]
  simp only [List.getElem?_eq_none hle]

/-- The ports are as a flooded frame leaves them, though nothing was enqueued, when there is no other port. -/
theorem ports_flooded_iff (ports : List (List EthernetPacket)) (port : Nat) (pkt : EthernetPacket) :
    (∀ q, ports[q]? = if q = port then ports[q]? else ports[q]?.map (fun dev => dev ++ [pkt])) ↔
      ∀ q, q < ports.length → q = port := by
  constructor
  · intro h q hlt
    refine Decidable.byContradiction fun hq => ?_
    have hqueue := h q
    rw [if_neg hq, List.getElem?_eq_getElem hlt, Option.map_some, Option.some.injEq] at hqueue
    simpa using congrArg List.length hqueue
  · intro h q
    by_cases hq : q = port
    · rw [if_pos hq]
    · have hle : ports.length ≤ q := Nat.le_of_not_lt fun hlt => hq (h q hlt)
      rw [if_neg hq, List.getElem?_eq_none hle, Option.map_none]

/-- **An unknown destination is not flooded.**  After any run, a frame to an address that never was a source is
enqueued nowhere, unless it is its own destination and goes back to its port; so it is flooded if and only if there is
no other port to flood to, and it does not come back. -/
theorem unknown_unicast_flooded_iff (ls : List Op) (s : VirtioSwitch) (hrun : Run Step new ls s) (port : Nat)
    (frame : EthernetFrame) (payload : List Byte) (hunicast : frame.dst ≠ MacAddress.broadcast)
    (hunknown : ∀ op ∈ ls, op.source ≠ some frame.dst) :
    s.Flooded port frame payload ↔
      (∀ q, q < s.ports.length → q = port) ∧ (frame.src = frame.dst → s.ports.length ≤ port) := by
  have hnone := unknown_run hrun hunknown
  unfold Flooded
  rw [process_ok]
  simp only [true_and]
  by_cases hself : frame.src = frame.dst
  · have hget : (s.associatePort port frame.src).cache.get frame.dst = some port := by
      rw [hself]
      exact Table.get_insert_self _ _ _
    by_cases hlt : port < s.ports.length
    · -- the frame comes back to its port
      refine iff_of_false (fun h => ?_) (fun h => Nat.not_le.2 hlt (h.2 hself))
      have hqueue := h port
      rw [deliver_learned _ port port ⟨frame, payload⟩ hunicast hget hlt, getElem?_ports_enqueue, if_pos rfl,
        if_pos rfl] at hqueue
      change s.ports[port]?.map (fun dev => dev ++ [(⟨frame, payload⟩ : EthernetPacket)]) = s.ports[port]? at hqueue
      rw [List.getElem?_eq_getElem hlt, Option.map_some, Option.some.injEq] at hqueue
      simpa using congrArg List.length hqueue
    · rw [deliver_unconnected _ port port ⟨frame, payload⟩ hunicast hget (Nat.le_of_not_lt hlt)]
      exact (ports_flooded_iff s.ports port ⟨frame, payload⟩).trans
        ⟨fun h => ⟨h, fun _ => Nat.le_of_not_lt hlt⟩, fun h => h.1⟩
  · have hget : (s.associatePort port frame.src).cache.get frame.dst = none :=
      (Table.get_insert_of_ne _ _ (Ne.symm hself)).trans hnone
    rw [deliver_unknown _ port ⟨frame, payload⟩ hunicast hget]
    exact (ports_flooded_iff s.ports port ⟨frame, payload⟩).trans
      ⟨fun h => ⟨h, fun h' => absurd h' hself⟩, fun h => h.1⟩

theorem flooded_alone :
    ∃ s, Run Step new [.connect [] 0] s ∧ s.Flooded 0 ⟨guestMac 2, guestMac 1, .ipv4⟩ [7] := by
  have hrun : Run Step new [.connect [] 0] _ := .single rfl
  refine ⟨_, hrun, (unknown_unicast_flooded_iff _ _ hrun 0 ⟨guestMac 2, guestMac 1, .ipv4⟩ [7] (by decide)
    (by simp [Op.source])).2 ⟨?_, by decide⟩⟩
  intro q hq
  exact Nat.lt_one_iff.1 hq

/-- **A frame to an address that never spoke** does not reach the only other port. -/
theorem unknown_unicast_lost :
    ∃ s, Run Step new [.connect [] 0, .connect [] 1] s ∧ ¬ s.Flooded 0 ⟨guestMac 2, guestMac 1, .ipv4⟩ [7] ∧
      (s.process 0 (EthernetFrame.wire ⟨guestMac 2, guestMac 1, .ipv4⟩ ++ [7])).2.ports = [[], []] := by
  have hports : ((⟨[[], []], Table.empty⟩ : VirtioSwitch).process 0
      (EthernetFrame.wire ⟨guestMac 2, guestMac 1, .ipv4⟩ ++ [7])).2.ports = [[], []] := by
    rw [process_ok, deliver_unknown _ _ _ (by decide) (by decide)]
    rfl
  refine ⟨⟨[[], []], Table.empty⟩, .cons rfl <| .cons rfl .nil, ?_, hports⟩
  rintro ⟨-, h⟩
  have hother := h 1
  rw [hports] at hother
  cases hother

end VirtioSwitch
end Oathgate
