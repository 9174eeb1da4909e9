import Oathgate.SwitchOrder
import Oathgate.VhostEvent
/-!
# BridgeGuests — the guests of a bridge and the switch they share (`oathgate-vhost`: `device.rs`, `queue.rs`;
`oathgate-bridge`: `net/switch.rs`)

Every guest has a device with a thread of its own; the threads meet in the switch.  A kick of a transmit ring reads the
frames of the ring and calls `process` with one after another, in the atomic steps of `SwitchThreads`; what the other
threads do in between reaches neither the ring nor the frames (`Machine.exec_on`), and alone an event is `Machine.exec`
(`handle_alone`).
-/
namespace Oathgate

open Lib

variable {Q S G C R W E : Type}

/-! ## The threads -/

/-- The thread of a device: what its last kick has still to give to the switch, and whether an error of a handler has
ended its loop; with a record of the frames it has written to its guest and of those it has taken from it. -/
structure DeviceThread (Q S G : Type) where
  machine : Machine Q S G
  sending : List (List Byte)
  ended : Bool
  written : List EthernetPacket
  handed : List (List Byte)

/-- The ports of a bridge and the devices at them; a port without a device is the router's. -/
structure BridgeGuests (Q S G : Type) where
  traffic : VirtioSwitch.Traffic
  devices : Nat → Option (DeviceThread Q S G)

/-- The router or a device is connected; a guest writes to its memory; a device's thread handles an event, gives a frame
of a kick to the switch, or the router gives it one; or the thread of a port takes the next step of its call. -/
inductive GuestsEvent (S G C : Type) where
  | router
  | connect (deviceQueues : BitVec 8) (s : S) (guest : G)
  | driver (p : Nat) (guest : G)
  | handle (p : Nat) (e : Event G) (served : Served C)
  | send (p : Nat) (pkt : List Byte)
  | write (p : Nat) (pkt : List Byte)
  | step (p : Nat)

/-- The part of an event that the switch sees. -/
def GuestsEvent.calls : GuestsEvent S G C → List VirtioSwitch.Threads.Event
  | .router => [.connect []]
  | .connect .. => [.connect []]
  | .driver .. => []
  | .handle .. => []
  | .send p pkt => [.call p pkt]
  | .write p pkt => [.call p pkt]
  | .step p => [.step p]

namespace DeviceThread

def new (machine : Machine Q S G) : DeviceThread Q S G := ⟨machine, [], false, [], []⟩

/-- `VirtioDeviceRxQueue::enqueue` -/
def enqueue (d : DeviceThread Q S G) (pkt : EthernetPacket) : DeviceThread Q S G :=
  { d with machine := { d.machine with pending := d.machine.pending ++ [pkt] } }

/-- An event was handled.  The frames a kick has read go to the switch also when a later one ended the loop. -/
def after (d : DeviceThread Q S G) (r : Res (DeviceError E) Unit) (machine : Machine Q S G) (served : Served C) :
    DeviceThread Q S G :=
  match r with
  | .ok _ => ⟨machine, served.handed, false, d.written ++ served.written, d.handed ++ served.handed⟩
  | _ => ⟨machine, served.handed, true, d.written, d.handed ++ served.handed⟩

end DeviceThread

namespace BridgeGuests

open VirtioSwitch (Traffic accepted)

/-- What a port's next step does to the devices. -/
def enqueued (g : BridgeGuests Q S G) (p : Nat) : Nat → Option (DeviceThread Q S G) :=
  match (g.traffic.threads.pc p).enqueues with
  | some (q, pkt) => Function.update g.devices q ((g.devices q).map fun d => d.enqueue pkt)
  | none => g.devices

def set (g : BridgeGuests Q S G) (p : Nat) (d : DeviceThread Q S G) : BridgeGuests Q S G :=
  { g with devices := Function.update g.devices p (some d) }

def init : BridgeGuests Q S G := ⟨Traffic.init, fun _ => none⟩

/-- The events of a device's own thread. -/
def Handles : Event G → Prop
  | .message _ => True
  | .wake => True
  | .kick .. => True
  | _ => False

/-- A thread handles no event before the frames of its last one have gone through the switch. -/
inductive Step (sys : VhostSystem Q S E) (lib : Option (List GuestRegion) → VirtioQueue Q G C R W E)
    (g : BridgeGuests Q S G) : GuestsEvent S G C → BridgeGuests Q S G → Prop where
  | router (t : Traffic) (htraffic : g.traffic.Step (.connect []) t) : Step sys lib g .router { g with traffic := t }
  | connect (deviceQueues : BitVec 8) (s : S) (guest : G) (t : Traffic) (m : Machine Q S G)
      (hnew : Machine.new sys deviceQueues g.traffic.threads.switch s guest = .ok m)
      (htraffic : g.traffic.Step (.connect []) t) :
      Step sys lib g (.connect deviceQueues s guest) (({ g with traffic := t }).set m.dev.routerPort (.new m))
  | driver (p : Nat) (guest : G) (d : DeviceThread Q S G) (hd : g.devices p = some d) :
      Step sys lib g (.driver p guest) (g.set p { d with machine := { d.machine with guest } })
  | handle (p : Nat) (e : Event G) (served : Served C) (d : DeviceThread Q S G) (fuel : Nat)
      (r : Res (DeviceError E) Unit) (m : Machine Q S G) (hd : g.devices p = some d) (hended : d.ended = false)
      (hsending : d.sending = []) (hidle : g.traffic.threads.pc p = .idle) (he : Handles e)
      (hexec : (d.machine.on g.traffic.threads.switch).exec sys lib fuel e = some (r, m, served)) :
      Step sys lib g (.handle p e served) (g.set p (d.after r m served))
  | send (p : Nat) (pkt : List Byte) (rest : List (List Byte)) (t : Traffic) (d : DeviceThread Q S G)
      (hd : g.devices p = some d) (hsending : d.sending = pkt :: rest) (htraffic : g.traffic.Step (.call p pkt) t) :
      Step sys lib g (.send p pkt) (({ g with traffic := t }).set p { d with sending := rest })
  | write (p : Nat) (pkt : List Byte) (t : Traffic) (hd : g.devices p = none)
      (htraffic : g.traffic.Step (.call p pkt) t) : Step sys lib g (.write p pkt) { g with traffic := t }
  | step (p : Nat) (t : Traffic) (htraffic : g.traffic.Step (.step p) t) :
      Step sys lib g (.step p) ⟨t, g.enqueued p⟩

/-! ## A thread alone -/

/-- The events of a thread that calls the switch. -/
def Calls (p : Nat) (e : GuestsEvent S G C) : Prop := (∃ pkt, e = .send p pkt) ∨ e = .step p

/-- What a thread has still to send is left by the steps of its call. -/
theorem sending_enqueued (g : BridgeGuests Q S G) (p q : Nat) :
    (g.enqueued p q).map DeviceThread.sending = (g.devices q).map DeviceThread.sending := by
  unfold enqueued
  cases (g.traffic.threads.pc p).enqueues with
  | none => rfl
  | some x =>
    obtain ⟨r, pkt⟩ := x
    by_cases hq : q = r
    · subst hq
      simp only [Function.update_self, Option.map_map]
      rfl
    · simp only [Function.update_of_ne hq]

section Alone

variable (sys : VhostSystem Q S E) (lib : Option (List GuestRegion) → VirtioQueue Q G C R W E)

/-- **A call whose thread runs alone** ends as the steps of `alone` do. -/
theorem steps_alone (p : Nat) : ∀ (n : Nat) (g : BridgeGuests Q S G) (s : VirtioSwitch),
    VirtioSwitch.alone p n (g.traffic.threads.switch, g.traffic.threads.pc p) = (s, .idle) →
      ∃ es g', Run (Step sys lib) g es g' ∧ (∀ e ∈ es, Calls p e) ∧ g'.traffic.threads.switch = s ∧
        g'.traffic.threads.pc p = .idle ∧
        (g'.devices p).map DeviceThread.sending = (g.devices p).map DeviceThread.sending
  | 0, g, s, h => by
    obtain ⟨hs, hpc⟩ := Prod.mk.inj h
    exact ⟨[], g, .nil, by simp, hs, hpc, rfl⟩
  | n + 1, g, s, h => by
    by_cases hidle : g.traffic.threads.pc p = .idle
    · refine steps_alone p n g s ?_
      rw [← h, hidle]
      rfl
    · have hstep := Traffic.step_thread hidle
      obtain ⟨es, g', hrun, hcalls, hs, hpc, hsending⟩ := steps_alone p n ⟨g.traffic.advanced p, g.enqueued p⟩ s (by
        simp only [Traffic.advanced, Function.update_self]
        exact h)
      refine ⟨.step p :: es, g', .cons (.step p _ hstep) hrun, ?_, hs, hpc, hsending.trans (g.sending_enqueued p p)⟩
      intro e he
      rcases List.mem_cons.1 he with rfl | he
      · exact Or.inr rfl
      · exact hcalls e he

/-- **The frames of a kick go through the switch one after another**, when the thread runs alone. -/
theorem sends_alone {p : Nat} : ∀ (pkts : List (List Byte)) (g : BridgeGuests Q S G),
    (g.devices p).map DeviceThread.sending = some pkts → g.traffic.threads.pc p = .idle →
      p < g.traffic.threads.switch.ports.length →
      ∃ es g', Run (Step sys lib) g es g' ∧ (∀ e ∈ es, Calls p e) ∧
        g'.traffic.threads.switch = pkts.foldl (fun s pkt => (s.process p pkt).2) g.traffic.threads.switch ∧
        g'.traffic.threads.pc p = .idle ∧ (g'.devices p).map DeviceThread.sending = some []
  | [], g, hsending, hidle, _ => ⟨[], g, .nil, by simp, rfl, hidle, hsending⟩
  | pkt :: pkts, g, hsending, hidle, hconn => by
    obtain ⟨d, hd, hpkts⟩ := Option.map_eq_some_iff.1 hsending
    have hcall : g.traffic.Step (.call p pkt) (g.traffic.called p pkt) := Traffic.step_call hconn hidle
    have hsend : Step sys lib g (.send p pkt) _ := .send p pkt pkts _ d hd hpkts hcall
    obtain ⟨n, hn⟩ := VirtioSwitch.advance_alone g.traffic.threads.switch p pkt
    obtain ⟨es, g₁, hrun, hcalls, hswitch, hidle₁, hrest⟩ := steps_alone sys lib p n
      (({ g with traffic := g.traffic.called p pkt } : BridgeGuests Q S G).set p { d with sending := pkts }) _ (by
        simp only [set, Traffic.called, Function.update_self]
        exact hn)
    have hconn₁ : p < g₁.traffic.threads.switch.ports.length := by
      rw [hswitch, VirtioSwitch.length_ports_process]
      exact hconn
    obtain ⟨es', g₂, hrun₂, hcalls₂, hswitch₂, hidle₂, hdone⟩ := sends_alone pkts g₁ (hrest.trans (by simp [set])) hidle₁
      hconn₁
    refine ⟨.send p pkt :: (es ++ es'), g₂, .cons hsend (hrun.append hrun₂), ?_, ?_, hidle₂, hdone⟩
    · intro e he
      rcases List.mem_cons.1 he with rfl | he
      · exact Or.inl ⟨pkt, rfl⟩
      · rcases List.mem_append.1 he with he | he
        · exact hcalls e he
        · exact hcalls₂ e he
    · rw [hswitch₂, hswitch]
      rfl

variable {sys lib}

/-- **Alone, an event is `Machine.exec`**: once the frames it handed over have gone through, the switch is the one the
machine leaves. -/
theorem handle_alone {g : BridgeGuests Q S G} {p fuel : Nat} {e : Event G} {served : Served C} {d : DeviceThread Q S G}
    {r : Res (DeviceError E) Unit} {m : Machine Q S G} (hd : g.devices p = some d) (hended : d.ended = false)
    (hsending : d.sending = []) (hidle : g.traffic.threads.pc p = .idle) (he : Handles e)
    (hexec : (d.machine.on g.traffic.threads.switch).exec sys lib fuel e = some (r, m, served))
    (hport : d.machine.dev.AtPort p) (hconn : p < g.traffic.threads.switch.ports.length) :
    ∃ es g', Run (Step sys lib) g (.handle p e served :: es) g' ∧ (∀ e ∈ es, Calls p e) ∧
      g'.traffic.threads.switch = m.switch ∧ g'.traffic.threads.pc p = .idle ∧
      (g'.devices p).map DeviceThread.sending = some [] := by
  have hhandle : Step sys lib g (.handle p e served) (g.set p (d.after r m served)) :=
    .handle p e served d fuel r m hd hended hsending hidle he hexec
  have hhanded : (d.after r m served).sending = served.handed := by cases r <;> rfl
  obtain ⟨es, g', hrun, hcalls, hswitch, hdone⟩ := sends_alone sys lib (p := p) served.handed
    (g.set p (d.after r m served)) (by simp [set, hhanded]) hidle hconn
  refine ⟨es, g', .cons hhandle hrun, hcalls, ?_, hdone⟩
  have hown : ∀ switch, e ≠ .others switch := by
    rintro switch rfl
    exact he
  have hleft := Machine.switch_exec hown hexec
  rw [show (d.machine.on g.traffic.threads.switch).dev.routerPort = p from hport] at hleft
  rw [hswitch, hleft]
  rfl

end Alone

/-! ## Runs -/

/-- What a port's thread has given to the switch. -/
def given (es : List (GuestsEvent S G C)) (p : Nat) : List (List Byte) :=
  Run.callsOf p ((es.flatMap GuestsEvent.calls).flatMap VirtioSwitch.Threads.Event.calls)

/-- The frames a device has written and has pending are those that arrived at its port. -/
structure Holds (arrived : List EthernetPacket) (d : DeviceThread Q S G) : Prop where
  written : d.written <+: arrived
  pending : d.ended = false → d.written ++ d.machine.pending = arrived

/-- **The devices share the switch**: what they were sent is what arrived at their ports, and what they handed over is
what their threads have given to the switch or have still to give. -/
structure Shares (es : List (GuestsEvent S G C)) (g : BridgeGuests Q S G) : Prop where
  traffic : Run Traffic.Step Traffic.init (es.flatMap GuestsEvent.calls) g.traffic
  connected : ∀ q d, g.devices q = some d → q < g.traffic.threads.switch.ports.length ∧ d.machine.dev.AtPort q
  frames : ∀ q d, g.devices q = some d → Holds ((g.traffic.arrivals q).map Prod.snd) d
  handed : ∀ p d, g.devices p = some d → d.handed = given es p ++ d.sending

theorem given_snoc (es : List (GuestsEvent S G C)) (e : GuestsEvent S G C) (p : Nat) :
    given (es ++ [e]) p = given es p ++ Run.callsOf p (e.calls.flatMap VirtioSwitch.Threads.Event.calls) := by
  unfold given
  rw [List.flatMap_append, List.flatMap_singleton, List.flatMap_append, Run.callsOf_append]

theorem Shares.given_later {es : List (GuestsEvent S G C)} {g : BridgeGuests Q S G} (h : Shares es g) {p : Nat}
    (hp : g.traffic.threads.switch.ports.length ≤ p) : given es p = [] := by
  refine List.eq_nil_iff_forall_not_mem.2 fun pkt hpkt => ?_
  have hlt := VirtioSwitch.Threads.calls_connected (Traffic.threads_run h.traffic) p pkt (Run.mem_callsOf.1 hpkt)
  omega

/-- An event that the switch sees, after which the devices hold what they held. -/
theorem Shares.goes {es : List (GuestsEvent S G C)} {e : GuestsEvent S G C} {te : VirtioSwitch.Threads.Event}
    {g g' : BridgeGuests Q S G} (h : Shares es g) (he : e.calls = [te]) (htraffic : g.traffic.Step te g'.traffic)
    (hdevices : ∀ q d, g'.devices q = some d → q < g'.traffic.threads.switch.ports.length ∧ d.machine.dev.AtPort q ∧
      Holds ((g'.traffic.arrivals q).map Prod.snd) d ∧
      d.handed = given es q ++ Run.callsOf q te.calls ++ d.sending) : Shares (es ++ [e]) g' := by
  refine ⟨?_, ?_, ?_, ?_⟩
  · rw [List.flatMap_append, List.flatMap_singleton, he]
    exact h.traffic.snoc htraffic
  · intro q d hd
    obtain ⟨hconn, hport, -⟩ := hdevices q d hd
    exact ⟨hconn, hport⟩
  · intro q d hd
    exact (hdevices q d hd).2.2.1
  · intro q d hd
    rw [given_snoc, he, List.flatMap_singleton]
    exact (hdevices q d hd).2.2.2

/-- An event of a device that the switch does not see. -/
theorem Shares.set {es : List (GuestsEvent S G C)} {e : GuestsEvent S G C} {g : BridgeGuests Q S G} {p : Nat}
    {d d' : DeviceThread Q S G} (h : Shares es g) (he : e.calls = []) (hd : g.devices p = some d)
    (hport : d'.machine.dev.AtPort p) (hframes : Holds ((g.traffic.arrivals p).map Prod.snd) d')
    (hhanded : d'.handed = given es p ++ d'.sending) : Shares (es ++ [e]) (g.set p d') := by
  have hsame : ∀ q, given (es ++ [e]) q = given es q := by
    intro q
    rw [given_snoc, he]
    exact List.append_nil _
  have hother : ∀ q d₁, (g.set p d').devices q = some d₁ → (q = p ∧ d₁ = d') ∨ (q ≠ p ∧ g.devices q = some d₁) := by
    intro q d₁ hq
    by_cases hqp : q = p
    · subst hqp
      simp only [BridgeGuests.set, Function.update_self, Option.some.injEq] at hq
      exact Or.inl ⟨rfl, hq.symm⟩
    · simp only [BridgeGuests.set, Function.update_of_ne hqp] at hq
      exact Or.inr ⟨hqp, hq⟩
  refine ⟨?_, ?_, ?_, ?_⟩
  · rw [List.flatMap_append, List.flatMap_singleton, he, List.append_nil]
    exact h.traffic
  · intro q d₁ hq
    rcases hother q d₁ hq with ⟨rfl, rfl⟩ | ⟨-, hq⟩
    · exact ⟨(h.connected q d hd).1, hport⟩
    · exact h.connected q d₁ hq
  · intro q d₁ hq
    rcases hother q d₁ hq with ⟨rfl, rfl⟩ | ⟨-, hq⟩
    · exact hframes
    · exact h.frames q d₁ hq
  · intro q d₁ hq
    rw [hsame]
    rcases hother q d₁ hq with ⟨rfl, rfl⟩ | ⟨-, hq⟩
    · exact hhanded
    · exact h.handed q d₁ hq

/-- **What arrives at a port is enqueued to its device.** -/
theorem holds_enqueued {g : BridgeGuests Q S G} (p : Nat) {q : Nat} {d' : DeviceThread Q S G}
    (h : ∀ d, g.devices q = some d → Holds ((g.traffic.arrivals q).map Prod.snd) d)
    (hd' : g.enqueued p q = some d') : Holds ((g.traffic.recorded p q).map Prod.snd) d' := by
  unfold enqueued at hd'
  unfold Traffic.recorded
  cases hpc : (g.traffic.threads.pc p).enqueues with
  | none =>
    rw [hpc] at hd'
    exact h d' hd'
  | some x =>
    obtain ⟨r, pkt⟩ := x
    rw [hpc] at hd'
    by_cases hq : q = r
    · subst hq
      simp only [Function.update_self] at hd' ⊢
      obtain ⟨d, hd, rfl⟩ := Option.map_eq_some_iff.1 hd'
      have hholds := h d hd
      rw [List.map_append]
      refine ⟨hholds.written.trans (List.prefix_append _ _), ?_⟩
      intro hended
      have hpending := hholds.pending hended
      show d.written ++ (d.machine.pending ++ [pkt]) = _
      rw [← List.append_assoc, hpending]
      rfl
    · simp only [Function.update_of_ne hq] at hd' ⊢
      exact h d' hd'

theorem mem_enqueued {g : BridgeGuests Q S G} {p q : Nat} {d' : DeviceThread Q S G} (hd' : g.enqueued p q = some d') :
    ∃ d, g.devices q = some d ∧ d'.machine.dev = d.machine.dev ∧ d'.handed = d.handed ∧ d'.sending = d.sending := by
  unfold enqueued at hd'
  cases hpc : (g.traffic.threads.pc p).enqueues with
  | none =>
    rw [hpc] at hd'
    exact ⟨d', hd', rfl, rfl, rfl⟩
  | some x =>
    obtain ⟨r, pkt⟩ := x
    rw [hpc] at hd'
    by_cases hq : q = r
    · subst hq
      simp only [Function.update_self] at hd'
      obtain ⟨d, hd, rfl⟩ := Option.map_eq_some_iff.1 hd'
      exact ⟨d, hd, rfl, rfl, rfl⟩
    · simp only [Function.update_of_ne hq] at hd'
      exact ⟨d', hd', rfl, rfl, rfl⟩

/-- An event was handled: what it wrote was pending. -/
theorem holds_after {sys : VhostSystem Q S E} {lib : Option (List GuestRegion) → VirtioQueue Q G C R W E} {fuel : Nat}
    {arrived : List EthernetPacket} {d : DeviceThread Q S G} {e : Event G} {r : Res (DeviceError E) Unit}
    {m : Machine Q S G} {served : Served C} {switch : VirtioSwitch} (h : Holds arrived d) (hended : d.ended = false)
    (he : Handles e) (hexec : (d.machine.on switch).exec sys lib fuel e = some (r, m, served)) :
    Holds arrived (d.after r m served) := by
  have hown : ∀ frame pkt, e ≠ .enqueue frame pkt := by
    rintro frame pkt rfl
    exact he
  cases r with
  | ok u =>
    have hmoved : served.written ++ m.pending = d.machine.pending := Machine.pending_exec (m := d.machine.on switch) hown hexec
    have hall : d.written ++ served.written ++ m.pending = arrived := by
      rw [List.append_assoc, hmoved]
      exact h.pending hended
    exact ⟨⟨m.pending, hall⟩, fun _ => hall⟩
  | err e => exact ⟨h.written, fun hno => by cases hno⟩
  | panic p => exact ⟨h.written, fun hno => by cases hno⟩

theorem shares_step {sys : VhostSystem Q S E} {lib : Option (List GuestRegion) → VirtioQueue Q G C R W E}
    {es : List (GuestsEvent S G C)} {e : GuestsEvent S G C} {g g' : BridgeGuests Q S G} (h : Shares es g)
    (hstep : Step sys lib g e g') : Shares (es ++ [e]) g' := by
  have hnone : ∀ q, Run.callsOf q (VirtioSwitch.Threads.Event.connect []).calls = [] := fun _ => rfl
  cases hstep with
  | router t htraffic =>
    refine h.goes rfl htraffic ?_
    intro q d hd
    obtain ⟨hconn, hport⟩ := h.connected q d hd
    refine ⟨Nat.lt_of_lt_of_le hconn (Traffic.length_ports_step htraffic), hport, ?_, ?_⟩
    · rw [show t.arrivals = g.traffic.arrivals from htraffic.2.2]
      exact h.frames q d hd
    · rw [hnone, List.append_nil]
      exact h.handed q d hd
  | connect deviceQueues s guest t m hnew htraffic =>
    obtain ⟨hport, hpending⟩ := Machine.new_at hnew
    have hlength : t.threads.switch.ports.length = g.traffic.threads.switch.ports.length + 1 := by
      rw [htraffic.1.2]
      simp [VirtioSwitch.connect]
    refine h.goes rfl htraffic ?_
    intro q d hd
    show q < t.threads.switch.ports.length ∧ _ ∧ Holds ((t.arrivals q).map Prod.snd) d ∧ _
    rw [show t.arrivals = g.traffic.arrivals from htraffic.2.2, hnone, List.append_nil, hlength]
    by_cases hq : q = m.dev.routerPort
    · -- nothing was sent to or from the port before
      simp only [BridgeGuests.set, hq, Function.update_self, Option.some.injEq] at hd
      subst hd
      have hlast : q = g.traffic.threads.switch.ports.length := hq.trans hport
      have hnothing := (Traffic.inOrder_run h.traffic).recorded.later q (Nat.le_of_eq hlast.symm)
      refine ⟨by omega, hq.symm, ?_, ?_⟩
      · rw [hnothing]
        exact ⟨List.prefix_refl _, fun _ => hpending⟩
      · rw [h.given_later (Nat.le_of_eq hlast.symm)]
        rfl
    · simp only [BridgeGuests.set, Function.update_of_ne hq] at hd
      obtain ⟨hconn, hat⟩ := h.connected q d hd
      exact ⟨by omega, hat, h.frames q d hd, h.handed q d hd⟩
  | driver p guest d hd =>
    have hholds := h.frames p d hd
    exact h.set rfl hd (h.connected p d hd).2 ⟨hholds.written, hholds.pending⟩ (h.handed p d hd)
  | handle p e served d fuel r m hd hended hsending hidle he hexec =>
    have hport : m.dev.AtPort p := Machine.atPort_exec (m := d.machine.on g.traffic.threads.switch) (h.connected p d hd).2 hexec
    refine h.set rfl hd ?_ (holds_after (h.frames p d hd) hended he hexec) ?_
    · cases r <;> exact hport
    · have hhanded := h.handed p d hd
      rw [hsending, List.append_nil] at hhanded
      cases r <;> exact congrArg (· ++ served.handed) hhanded
  | send p pkt rest t d hd hsending htraffic =>
    refine h.goes rfl htraffic ?_
    intro q d' hd'
    have harrivals : t.arrivals = g.traffic.arrivals := htraffic.2
    have hlength := Traffic.length_ports_step htraffic
    show q < t.threads.switch.ports.length ∧ _ ∧ Holds ((t.arrivals q).map Prod.snd) d' ∧ _
    rw [harrivals]
    by_cases hq : q = p
    · subst hq
      simp only [BridgeGuests.set, Function.update_self, Option.some.injEq] at hd'
      subst hd'
      obtain ⟨hconn, hport⟩ := h.connected q d hd
      have hholds := h.frames q d hd
      refine ⟨by omega, hport, ⟨hholds.written, hholds.pending⟩, ?_⟩
      show d.handed = _
      rw [h.handed q d hd, hsending]
      simp [VirtioSwitch.Threads.Event.calls, Run.callsOf_singleton]
    · simp only [BridgeGuests.set, Function.update_of_ne hq] at hd'
      obtain ⟨hconn, hport⟩ := h.connected q d' hd'
      refine ⟨by omega, hport, h.frames q d' hd', ?_⟩
      rw [h.handed q d' hd']
      simp [VirtioSwitch.Threads.Event.calls, Run.callsOf_singleton, Ne.symm hq]
  | write p pkt t hd htraffic =>
    refine h.goes rfl htraffic ?_
    intro q d' hd'
    have harrivals : t.arrivals = g.traffic.arrivals := htraffic.2
    have hlength := Traffic.length_ports_step htraffic
    have hq : q ≠ p := by
      rintro rfl
      rw [show g.devices q = some d' from hd'] at hd
      cases hd
    obtain ⟨hconn, hport⟩ := h.connected q d' hd'
    show q < t.threads.switch.ports.length ∧ _ ∧ Holds ((t.arrivals q).map Prod.snd) d' ∧ _
    rw [harrivals]
    refine ⟨by omega, hport, h.frames q d' hd', ?_⟩
    rw [h.handed q d' hd']
    simp [VirtioSwitch.Threads.Event.calls, Run.callsOf_singleton, Ne.symm hq]
  | step p t htraffic =>
    refine h.goes rfl htraffic ?_
    intro q d' hd'
    obtain ⟨d, hd, hdev, hhanded, hsending⟩ := mem_enqueued hd'
    obtain ⟨hconn, hport⟩ := h.connected q d hd
    refine ⟨Nat.lt_of_lt_of_le hconn (Traffic.length_ports_step htraffic), ?_, ?_, ?_⟩
    · rw [hdev]
      exact hport
    · show Holds ((t.arrivals q).map Prod.snd) d'
      rw [show t.arrivals = g.traffic.recorded p from htraffic.2]
      exact holds_enqueued p (h.frames q) hd'
    · rw [hhanded, hsending, h.handed q d hd]
      simp [VirtioSwitch.Threads.Event.calls]

theorem shares_run {sys : VhostSystem Q S E} {lib : Option (List GuestRegion) → VirtioQueue Q G C R W E}
    {es : List (GuestsEvent S G C)} {g : BridgeGuests Q S G} (hrun : Run (Step sys lib) init es g) : Shares es g := by
  have hinit : Shares ([] : List (GuestsEvent S G C)) (init : BridgeGuests Q S G) := by
    refine ⟨.nil, ?_, ?_, ?_⟩
    · intro q d hd
      cases hd
    · intro q d hd
      cases hd
    · intro p d hd
      cases hd
  exact Run.invariant (I := Shares) hinit (fun _ _ _ _ _ h hstep => shares_step h hstep) hrun

open Device Machine VirtioSwitch.Traffic in
/-- A device whose ring 0 is started, and a broadcast of the router for it. -/
def broadcastToGuest : List (GuestsEvent Unit RingGuest RingChain) :=
  [.connect 1 () oneChain, .router, .handle 0 (.message (tableMsg lowRegion)) .nothing,
    .handle 0 (.message (kickMsg 0 7)) .nothing, .handle 0 (.message (enableMsg 0 1)) .nothing,
    .write 1 (announced.frame.wire ++ []), .step 1, .step 1, .step 1, .step 1, .step 1, .step 1,
    .handle 0 .wake ⟨0, [⟨5, [], 100⟩], [], [announced]⟩]

end BridgeGuests

end Oathgate
