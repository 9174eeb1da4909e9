import Oathgate.Switch
/-!
# SwitchThreads — device threads that call `process` at the same time

One thread serves each port.  The table and the ports are behind two locks that `process` takes and releases on its
way, so a call is a sequence of atomic steps (`Pc`) and steps of different threads interleave.  `advance_alone` says
that the steps of one thread, run together, are `process`; `learning_linearizable` says what any interleaving leaves in
the table.
-/
namespace Oathgate

open Lib

namespace VirtioSwitch

/-- Where a thread stands in a call of `process`. -/
inductive Pc where
  | idle
  /-- about to read the entry of the source -/
  | read (pkt : EthernetPacket)
  /-- about to write it: it was not the thread's port -/
  | write (pkt : EthernetPacket)
  /-- about to lock the ports -/
  | lock (pkt : EthernetPacket)
  /-- about to read the entry of the destination -/
  | lookup (pkt : EthernetPacket)
  /-- delivering, these ports are left -/
  | send (pkt : EthernetPacket) (targets : List Nat)

namespace Pc

def locked : Pc → Bool
  | .lookup _ => true
  | .send .. => true
  | _ => false

end Pc

/-- The checks before the first access to the table; a rejected buffer ends the call. -/
def enter (pkt : List Byte) : Pc :=
  if pkt.length < 14 then .idle
  else
    match EthernetFrame.extract pkt with
    | (.ok frame, payload) => .read ⟨frame, payload⟩
    | _ => .idle

def targets (s : VirtioSwitch) (port : Nat) (pkt : EthernetPacket) : List Nat :=
  if pkt.frame.dst.isBroadcast then s.others port
  else
    match s.getPort pkt.frame.dst with
    | some port => if port < s.ports.length then [port] else []
    | none => []

/-- One atomic step of a call. -/
def advance (s : VirtioSwitch) (port : Nat) : Pc → VirtioSwitch × Pc
  | .idle => (s, .idle)
  | .read pkt => (s, if s.getPort pkt.frame.src = some port then .lock pkt else .write pkt)
  | .write pkt => (s.associatePort port pkt.frame.src, .lock pkt)
  | .lock pkt => (s, .lookup pkt)
  | .lookup pkt => (s, .send pkt (s.targets port pkt))
  | .send pkt (q :: qs) => (s.enqueue q pkt, .send pkt qs)
  | .send _ [] => (s, .idle)

structure Threads where
  switch : VirtioSwitch
  pc : Nat → Pc

namespace Threads

def init : Threads := ⟨new, fun _ => .idle⟩

/-- A device is connected, a thread calls `process`, or it takes the next step of its call. -/
inductive Event where
  | connect (dev : List EthernetPacket)
  | call (port : Nat) (pkt : List Byte)
  | step (port : Nat)

/-- `connect` writes the ports, so no thread may hold their lock. -/
def Step (σ : Threads) (e : Event) (σ' : Threads) : Prop :=
  match e with
  | .connect dev => (∀ p, (σ.pc p).locked = false) ∧ σ' = { σ with switch := (σ.switch.connect dev).2 }
  | .call p pkt =>
    p < σ.switch.ports.length ∧ σ.pc p = .idle ∧ σ' = { σ with pc := Function.update σ.pc p (enter pkt) }
  | .step p =>
    σ.pc p ≠ .idle ∧
      σ' = ⟨(σ.switch.advance p (σ.pc p)).1, Function.update σ.pc p (σ.switch.advance p (σ.pc p)).2⟩

end Threads

/-! ## A thread alone -/

theorem enter_wire (frame : EthernetFrame) (payload : List Byte) :
    enter (frame.wire ++ payload) = .read ⟨frame, payload⟩ := by
  have hlen := frame.le_length_wire_append payload
  unfold enter
  rw [if_neg (Nat.not_lt.2 hlen), (EthernetFrame.extract_eq_ok _ _ _).2 rfl]

theorem enter_rejected {pkt : List Byte} (h : ∀ frame payload, pkt ≠ EthernetFrame.wire frame ++ payload) :
    enter pkt = .idle := by
  unfold enter
  split
  · rfl
  · split
    · rename_i frame payload hx
      exact absurd ((EthernetFrame.extract_eq_ok _ _ _).1 hx) (h frame payload)
    · rfl

theorem associatePort_of_getPort {s : VirtioSwitch} {port : Nat} {mac : MacAddress} (h : s.getPort mac = some port) :
    s.associatePort port mac = s := by
  unfold associatePort
  rw [Table.insert_of_get s.cache mac port h]

theorem deliver_eq_foldl (s : VirtioSwitch) (port : Nat) (pkt : EthernetPacket) :
    s.deliver port pkt = (s.targets port pkt).foldl (fun s q => s.enqueue q pkt) s := by
  unfold deliver targets
  split
  · rfl
  · cases s.getPort pkt.frame.dst with
    | none => rfl
    | some q =>
      by_cases hq : q < s.ports.length
      · simp only [List.getElem?_eq_getElem hq, if_pos hq]
        rfl
      · simp only [List.getElem?_eq_none (Nat.not_lt.1 hq), if_neg hq]
        rfl

def alone (port : Nat) : Nat → VirtioSwitch × Pc → VirtioSwitch × Pc
  | 0, x => x
  | n + 1, x => alone port n (x.1.advance port x.2)

theorem alone_send (port : Nat) (pkt : EthernetPacket) :
    ∀ (qs : List Nat) (s : VirtioSwitch),
      alone port (qs.length + 1) (s, .send pkt qs) = (qs.foldl (fun s q => s.enqueue q pkt) s, .idle)
  | [], _ => rfl
  | q :: qs, s => alone_send port pkt qs (s.enqueue q pkt)

theorem alone_lock (s : VirtioSwitch) (port : Nat) (pkt : EthernetPacket) :
    ∃ n, alone port n (s, .lock pkt) = (s.deliver port pkt, .idle) := by
  refine ⟨(s.targets port pkt).length + 1 + 1 + 1, ?_⟩
  rw [deliver_eq_foldl]
  exact alone_send port pkt _ s

/-- **The steps of a thread that runs alone are `process`.** -/
theorem advance_alone (s : VirtioSwitch) (port : Nat) (pkt : List Byte) :
    ∃ n, alone port n (s, enter pkt) = ((s.process port pkt).2, .idle) := by
  rcases accepted_or_rejected pkt with ⟨frame, payload, rfl⟩ | h
  · rw [process_ok, enter_wire]
    obtain ⟨n, hn⟩ := alone_lock (s.associatePort port frame.src) port ⟨frame, payload⟩
    by_cases hp : s.getPort frame.src = some port
    · refine ⟨n + 1, ?_⟩
      rw [associatePort_of_getPort hp] at hn ⊢
      unfold alone advance
      simp only [if_pos hp]
      exact hn
    · refine ⟨n + 1 + 1, ?_⟩
      unfold alone advance
      simp only [if_neg hp]
      exact hn
  · obtain ⟨e, he⟩ := process_rejected s port pkt h
    rw [he, enter_rejected h]
    exact ⟨0, rfl⟩

/-! ## Any interleaving -/

abbrev logCall : Table MacAddress Nat → Nat × List Byte → Table MacAddress Nat :=
  Table.record (fun c => sourceOf c.2) (fun c => c.1)

/-- The call a thread has begun that has not yet taken effect on the table. -/
def Pc.pending : Pc → List (List Byte)
  | .read pkt => [pkt.frame.wire ++ pkt.payload]
  | .write pkt => [pkt.frame.wire ++ pkt.payload]
  | _ => []

namespace Threads

def Event.calls : Event → List (Nat × List Byte)
  | .call port pkt => [(port, pkt)]
  | _ => []

theorem logCall_wire (cache : Table MacAddress Nat) (port : Nat) (pkt : EthernetPacket) :
    logCall cache (port, pkt.frame.wire ++ pkt.payload) = cache.insert pkt.frame.src port := by
  unfold logCall Table.record
  simp only [sourceOf_wire]

/-- **One step of a thread**: the read takes effect when it finds the thread's own port, the write when it does not;
any other step leaves the table and what is pending. -/
theorem advance_takes_effect (s : VirtioSwitch) (port : Nat) (pc : Pc) :
    ∃ done : List (List Byte), (s.advance port pc).1.cache = (done.map fun pkt => (port, pkt)).foldl logCall s.cache ∧
      pc.pending = done ++ (s.advance port pc).2.pending := by
  cases pc with
  | idle => exact ⟨[], rfl, rfl⟩
  | read pkt =>
    unfold advance
    by_cases hp : s.getPort pkt.frame.src = some port
    · refine ⟨[pkt.frame.wire ++ pkt.payload], ?_, by simp only [if_pos hp]; rfl⟩
      simp only [List.map_cons, List.map_nil, List.foldl_cons, List.foldl_nil, logCall_wire]
      exact (Table.insert_of_get s.cache pkt.frame.src port hp).symm
    · exact ⟨[], rfl, by simp only [if_neg hp]; rfl⟩
  | write pkt =>
    refine ⟨[pkt.frame.wire ++ pkt.payload], ?_, rfl⟩
    simp only [List.map_cons, List.map_nil, List.foldl_cons, List.foldl_nil, logCall_wire]
    rfl
  | lock pkt => exact ⟨[], rfl, rfl⟩
  | lookup pkt => exact ⟨[], rfl, rfl⟩
  | send pkt targets =>
    cases targets with
    | nil => exact ⟨[], rfl, rfl⟩
    | cons q qs => exact ⟨[], rfl, rfl⟩

/-- **One event**: for each port, what was pending and began is what took effect and is pending. -/
theorem step_takes_effect (σ : Threads) (e : Event) (σ' : Threads) (h : Step σ e σ') :
    ∃ done : List (Nat × List Byte), σ'.switch.cache = done.foldl logCall σ.switch.cache ∧
      ∀ p, (σ.pc p).pending ++ Run.callsOf p e.calls = Run.callsOf p done ++ (σ'.pc p).pending := by
  cases e with
  | connect dev =>
    obtain ⟨-, rfl⟩ := h
    exact ⟨[], rfl, by simp [Event.calls]⟩
  | call q pkt =>
    obtain ⟨-, hidle, rfl⟩ := h
    rcases accepted_or_rejected pkt with ⟨frame, payload, rfl⟩ | hrej
    · refine ⟨[], rfl, ?_⟩
      intro p
      rw [enter_wire]
      by_cases hp : p = q
      · subst hp
        simp [Event.calls, Run.callsOf_singleton, hidle, Pc.pending]
      · simp [Event.calls, Run.callsOf_singleton, Ne.symm hp, Function.update_of_ne hp]
    · -- a rejected call is over when it begins
      refine ⟨[(q, pkt)], ?_, ?_⟩
      · simp only [List.foldl_cons, List.foldl_nil, Table.record, sourceOf_rejected hrej]
      · intro p
        rw [enter_rejected hrej]
        by_cases hp : p = q
        · subst hp
          simp [Event.calls, hidle, Pc.pending]
        · simp [Event.calls, Run.callsOf_singleton, Ne.symm hp, Function.update_of_ne hp]
  | step q =>
    obtain ⟨-, rfl⟩ := h
    obtain ⟨done, hcache, hpending⟩ := advance_takes_effect σ.switch q (σ.pc q)
    refine ⟨done.map fun pkt => (q, pkt), hcache, ?_⟩
    intro p
    rw [Run.callsOf_map]
    by_cases hp : p = q
    · subst hp
      simp [Event.calls, hpending]
    · simp [Event.calls, Ne.symm hp, Function.update_of_ne hp]

theorem length_ports_advance (s : VirtioSwitch) (port : Nat) (pc : Pc) :
    (s.advance port pc).1.ports.length = s.ports.length := by
  cases pc with
  | send pkt targets =>
    cases targets with
    | nil => rfl
    | cons q qs => exact length_ports_enqueue s q pkt
  | _ => rfl

theorem calls_connected {es : List Event} {σ : Threads} (h : Run Step init es σ) :
    ∀ q pkt, (q, pkt) ∈ es.flatMap Event.calls → q < σ.switch.ports.length := by
  refine Run.invariant (I := fun es σ => ∀ q pkt, (q, pkt) ∈ es.flatMap Event.calls → q < σ.switch.ports.length)
    (by simp) ?_ h
  intro es σ e σ' _ ih hstep q pkt hmem
  rw [List.flatMap_append, List.flatMap_singleton] at hmem
  cases e with
  | connect dev =>
    obtain ⟨-, rfl⟩ := hstep
    have hlt := ih q pkt (by simpa [Event.calls] using hmem)
    simp only [VirtioSwitch.connect, List.length_append]
    omega
  | call p pkt' =>
    obtain ⟨hp, -, rfl⟩ := hstep
    rcases List.mem_append.1 hmem with hmem | hmem
    · exact ih q pkt hmem
    · simp only [Event.calls, List.mem_singleton, Prod.mk.injEq] at hmem
      rw [hmem.1]
      exact hp
  | step p =>
    obtain ⟨-, rfl⟩ := hstep
    simp only [length_ports_advance]
    exact ih q pkt (by simpa [Event.calls] using hmem)

theorem cache_foldl_process : ∀ (cs : List (Nat × List Byte)) (s : VirtioSwitch),
    (cs.foldl (fun s c => (s.process c.1 c.2).2) s).cache = cs.foldl logCall s.cache
  | [], _ => rfl
  | c :: cs, s => by
    rw [List.foldl_cons, cache_foldl_process cs, cache_process, List.foldl_cons]

/-- **Learning is linearizable.**  In every reachable state each entry of the table names a connected port from which a
frame with that source was sent; and when all calls have returned, the table is the one the same calls leave when they
are made one after another, in an order that keeps each port's own. -/
theorem learning_linearizable (es : List Event) (σ : Threads) (hrun : Run Step init es σ) :
    (∀ mac q, σ.switch.cache.get mac = some q → q < σ.switch.ports.length ∧
      ∃ pkt, (q, pkt) ∈ es.flatMap Event.calls ∧ sourceOf pkt = some mac) ∧
    ((∀ p, σ.pc p = .idle) →
      ∃ lin : List (Nat × List Byte), (∀ p, Run.callsOf p lin = Run.callsOf p (es.flatMap Event.calls)) ∧
        ∀ s : VirtioSwitch, s.cache = Table.empty →
          (lin.foldl (fun s c => (s.process c.1 c.2).2) s).cache = σ.switch.cache) := by
  obtain ⟨lin, hcache, hcalls⟩ := Run.linearize Event.calls (fun σ p => (σ.pc p).pending)
    (fun σ => σ.switch.cache) logCall (fun _ => rfl) step_takes_effect hrun
  refine ⟨?_, ?_⟩
  · intro mac q hget
    -- the entry is the last call with that source
    rw [hcache] at hget
    obtain ⟨⟨q', pkt⟩, ⟨l₁, l₂, hlin, hsrc, -⟩, rfl⟩ := (Table.get_foldl_record _ _ _ _ _).1 hget
    have hin : (q', pkt) ∈ lin := by
      rw [hlin]
      simp
    have hmem : (q', pkt) ∈ es.flatMap Event.calls := by
      apply Run.mem_callsOf.1
      rw [hcalls q']
      exact List.mem_append_left _ (Run.mem_callsOf.2 hin)
    exact ⟨calls_connected hrun q' pkt hmem, pkt, hmem, hsrc⟩
  · intro hidle
    refine ⟨lin, ?_, ?_⟩
    · intro p
      rw [hcalls p, hidle p]
      exact (List.append_nil _).symm
    · intro s hs
      rw [cache_foldl_process, hs, hcache]
      rfl

theorem learning_linearizable_of_race :
    ∃ σ, Run Step init [.connect [], .connect [],
        .call 0 (EthernetFrame.wire ⟨guestMac 2, guestMac 1, .arp⟩ ++ []),
        .call 1 (EthernetFrame.wire ⟨guestMac 2, guestMac 1, .arp⟩ ++ []), .step 0, .step 1, .step 0, .step 1] σ ∧
      σ.switch.cache.get (guestMac 1) = some 1 ∧ 1 < σ.switch.ports.length := by
  have hrace : ∃ σ, Run Step init [.connect [], .connect [],
      .call 0 (EthernetFrame.wire ⟨guestMac 2, guestMac 1, .arp⟩ ++ []),
      .call 1 (EthernetFrame.wire ⟨guestMac 2, guestMac 1, .arp⟩ ++ []), .step 0, .step 1, .step 0, .step 1] σ ∧
      σ.switch.cache.get (guestMac 1) = some 1 :=
    ⟨_, .cons ⟨fun _ => rfl, rfl⟩ <| .cons ⟨fun _ => rfl, rfl⟩ <| .cons ⟨by decide, rfl, rfl⟩ <|
      .cons ⟨by decide, rfl, rfl⟩ <| .cons ⟨nofun, rfl⟩ <| .cons ⟨nofun, rfl⟩ <| .cons ⟨nofun, rfl⟩ <|
      .cons ⟨nofun, rfl⟩ .nil, rfl⟩
  obtain ⟨σ, hrun, hget⟩ := hrace
  exact ⟨σ, hrun, hget, ((learning_linearizable _ σ hrun).1 (guestMac 1) 1 hget).1⟩

end Threads

end VirtioSwitch
end Oathgate
