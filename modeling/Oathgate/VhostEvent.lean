import Mathlib.Data.List.Basic
import Oathgate.VhostKick
/-!
# VhostEvent — what an event of a device does, whatever the switch (`oathgate-vhost`: `device.rs`, `queue.rs`)

A device stays at its port.  What an event does to the device, its ring and its guest does not depend on the switch it
finds (`exec_on`), the switch it leaves is the one the frames it handed over leave (`switch_exec`), and what it writes
to the guest was pending (`pending_exec`).
-/
namespace Oathgate

open Lib

variable {Q S G C R W E : Type}

/-! ## A device keeps its port -/

namespace Device

def AtPort (p : Nat) (d : Device Q S) : Prop := d.routerPort = p

variable {p : Nat} {d : Device Q S} (sys : VhostSystem Q S E)

theorem AtPort.onRing (h : d.AtPort p) (idx : Nat) (f : Vring Q → Vring Q) : (d.onRing (E := E) idx f).2.AtPort p := by
  unfold Device.onRing
  split <;> exact h

theorem AtPort.mapRegions : ∀ (descs : List (MemoryRegionDescription × Nat)) (regions : List GuestRegion)
    {d : Device Q S}, d.AtPort p → (mapRegions sys descs regions d).2.AtPort p
  | [], _, _, h => h
  | (region, fd) :: rest, regions, d, h => by
    unfold Device.mapRegions
    refine Res.andThen_keeps (P := AtPort p) h fun gm d₁ h₁ => ?_
    refine Res.andThen_keeps (P := AtPort p) h₁ fun mapping d₂ h₂ => ?_
    have hpush : AtPort p { d₂ with mappings := d₂.mappings ++ [mapping] } := h₂
    exact hpush.mapRegions rest _

theorem AtPort.setMemTable (h : d.AtPort p) (hdr : VHostHeader) : (d.setMemTable sys hdr).2.AtPort p := by
  unfold Device.setMemTable
  refine Res.andThen_keeps (P := AtPort p) h fun descs d₁ h₁ => ?_
  refine Res.andThen_keeps (P := AtPort p) h₁ fun files d₂ h₂ => ?_
  split
  · exact h₂
  · refine Res.andThen_keeps (P := AtPort p) (h₂.mapRegions sys _ _) fun regions d₃ h₃ => ?_
    refine Res.andThen_keeps (P := AtPort p) h₃ fun _ d₄ h₄ => ?_
    split <;> exact h₄

theorem AtPort.setVringFd (h : d.AtPort p) (set : Nat → Vring Q → Vring Q) (hdr : VHostHeader) :
    (d.setVringFd (E := E) set hdr).2.AtPort p := by
  unfold Device.setVringFd
  refine Res.andThen_keeps (P := AtPort p) h fun vringIdx d₁ h₁ => ?_
  exact Res.andThen_keeps (P := AtPort p) h₁ fun fd d₂ h₂ => h₂.onRing _ _

theorem AtPort.setVringKick (h : d.AtPort p) (hdr : VHostHeader) : (d.setVringKick sys hdr).2.AtPort p := by
  unfold Device.setVringKick
  refine Res.andThen_keeps (P := AtPort p) h fun vringIdx d₁ h₁ => ?_
  refine Res.andThen_keeps (P := AtPort p) h₁ fun fd d₂ h₂ => ?_
  refine Res.andThen_keeps (P := AtPort p) (h₂.onRing _ _) fun _ d₃ h₃ => ?_
  exact Res.andThen_keeps (P := AtPort p) h₃ fun _ d₄ h₄ => h₄

theorem AtPort.getVringBase (h : d.AtPort p) (hdr : VHostHeader) : (d.getVringBase sys hdr).2.AtPort p := by
  unfold Device.getVringBase
  refine Res.andThen_keeps (P := AtPort p) h fun state d₁ h₁ => ?_
  split
  · exact h₁
  · refine Res.andThen_keeps (P := AtPort p) ?_ fun _ d₂ h₂ => h₂
    split <;> exact h₁

theorem AtPort.setVringAddr (h : d.AtPort p) (hdr : VHostHeader) : (d.setVringAddr sys hdr).2.AtPort p := by
  unfold Device.setVringAddr
  split
  · exact h
  · refine Res.andThen_keeps (P := AtPort p) h fun addr d₁ h₁ => ?_
    exact Res.andThen_keeps (P := AtPort p) h₁ fun _ d₂ h₂ => h₂.onRing _ _

theorem AtPort.setBackendReqFd (h : d.AtPort p) (hdr : VHostHeader) : (d.setBackendReqFd sys hdr).2.AtPort p := by
  unfold Device.setBackendReqFd
  refine Res.andThen_keeps (P := AtPort p) h fun fd d₁ h₁ => ?_
  dsimp only
  split <;> exact h₁

theorem AtPort.parseMsg (h : d.AtPort p) (hdr : VHostHeader) : (d.parseMsg sys hdr).2.AtPort p := by
  unfold Device.parseMsg
  cases Request.ofTy hdr.ty with
  | none => exact h
  | some req =>
    cases req with
    | setOwner =>
      simp only [sendMsg]
      split <;> exact h
    | setBackendReqFd => exact h.setBackendReqFd sys hdr
    | setVringCall => exact h.setVringFd _ hdr
    | setVringErr => exact h.setVringFd _ hdr
    | setVringAddr => exact h.setVringAddr sys hdr
    | getVringBase => exact h.getVringBase sys hdr
    | setVringKick => exact h.setVringKick sys hdr
    | setMemTable => exact h.setMemTable sys hdr
    | setVringEnable => exact Res.andThen_keeps (P := AtPort p) h fun _ d₁ h₁ => h₁.onRing _ _
    | setVringNum => exact Res.andThen_keeps (P := AtPort p) h fun _ d₁ h₁ => h₁.onRing _ _
    | setVringBase => exact Res.andThen_keeps (P := AtPort p) h fun _ d₁ h₁ => h₁.onRing _ _
    | setFeatures => exact Res.andThen_keeps (P := AtPort p) h fun _ _ h₁ => h₁
    | setProtocolFeatures => exact Res.andThen_keeps (P := AtPort p) h fun _ _ h₁ => h₁
    | setStatus => exact Res.andThen_keeps (P := AtPort p) h fun _ _ h₁ => h₁
    | addMemReg => exact Res.andThen_keeps (P := AtPort p) h fun _ _ h₁ => h₁
    | _ => exact h

end Device

/-! ## A kick does not look at the switch -/

namespace VirtioSwitch

/-- Whether a frame is taken is in the frame. -/
theorem process_fst (s s' : VirtioSwitch) (port : Nat) (pkt : List Byte) :
    (s.process port pkt).1 = (s'.process port pkt).1 := by
  unfold process
  split
  · rfl
  · obtain ⟨r, payload⟩ := EthernetFrame.extract pkt
    cases r <;> rfl

end VirtioSwitch

namespace VirtQueue

variable (api : VirtioQueue Q G C R W E)

def Tx.on (tx : Tx Q G) (switch : VirtioSwitch) : Tx Q G := { tx with switch }

theorem sendChain_on (fuel switchPort : Nat) (tx : Tx Q G) (chain : C) (s : VirtioSwitch) :
    ∃ s', sendChain api fuel switchPort (tx.on s) chain =
      (sendChain api fuel switchPort tx chain).map fun x => (x.1, x.2.on s') := by
  have hguest : (tx.on s).guest = tx.guest := rfl
  unfold sendChain
  rw [hguest]
  cases api.reader chain tx.guest with
  | error e => exact ⟨s, rfl⟩
  | ok reader =>
    simp only
    cases readLoop api tx.guest fuel reader [] with
    | none => exact ⟨s, rfl⟩
    | some res =>
      simp only [Option.map_some]
      cases hx : (do VirtioNetHeader.extract (← ofExcept res) : Res (VhostError E) _) with
      | err e => exact ⟨s, rfl⟩
      | panic p => exact ⟨s, rfl⟩
      | ok x =>
        obtain ⟨hdr, pkt⟩ := x
        -- the switch takes the frame, or it does not
        have hsame := VirtioSwitch.process_fst s tx.switch switchPort pkt
        refine ⟨((tx.on s).switch.process switchPort pkt).2, ?_⟩
        simp only [Res.andThen_ok]
        rw [show ((tx.on s).switch.process switchPort pkt).1 = _ from hsame]
        cases (tx.switch.process switchPort pkt).1 <;> rfl

theorem sendChains_on (fuel switchPort : Nat) : ∀ (chains : List C) (tx : Tx Q G) (s : VirtioSwitch),
    ∃ s', sendChains api fuel switchPort chains (tx.on s) =
      (sendChains api fuel switchPort chains tx).map fun x => (x.1, x.2.on s')
  | [], _, s => ⟨s, rfl⟩
  | chain :: chains, tx, s => by
    obtain ⟨s₁, hsend⟩ := sendChain_on api fuel switchPort tx chain s
    unfold sendChains
    rw [hsend]
    cases sendChain api fuel switchPort tx chain with
    | none => exact ⟨s, rfl⟩
    | some x =>
      obtain ⟨r, tx₁⟩ := x
      cases r with
      | ok u => exact sendChains_on fuel switchPort chains tx₁ s₁
      | err e => exact ⟨s₁, rfl⟩
      | panic p => exact ⟨s₁, rfl⟩

theorem handed_on (fuel switchPort : Nat) : ∀ (chains : List C) (tx : Tx Q G) (s : VirtioSwitch),
    handed api fuel switchPort chains (tx.on s) = handed api fuel switchPort chains tx
  | [], _, _ => rfl
  | chain :: chains, tx, s => by
    obtain ⟨s₁, hsend⟩ := sendChain_on api fuel switchPort tx chain s
    have hguest : (tx.on s).guest = tx.guest := rfl
    unfold handed
    rw [hsend, hguest]
    cases chainFrame api fuel tx.guest chain with
    | none => rfl
    | some pkt =>
      cases sendChain api fuel switchPort tx chain with
      | none => rfl
      | some x =>
        obtain ⟨r, tx₁⟩ := x
        cases r with
        | ok u =>
          simp only [Option.map_some]
          rw [handed_on fuel switchPort chains tx₁ s₁]
        | err e => rfl
        | panic p => rfl

theorem kickTx_on (fuel switchPort : Nat) (vq : VirtQueue Q) (tx : Tx Q G) (pkt : List Byte) (s : VirtioSwitch) :
    ∃ s', kickTx api fuel vq (tx.on s) pkt switchPort =
      (kickTx api fuel vq tx pkt switchPort).map fun x => (x.1, x.2.on s') := by
  have hcollected : collected api vq (tx.on s) pkt = collected api vq tx pkt := rfl
  cases hiter : collected api vq tx pkt with
  | some x =>
    obtain ⟨chains, queue⟩ := x
    obtain ⟨s₁, hsends⟩ := sendChains_on api fuel switchPort chains { tx with queue } s
    refine ⟨s₁, ?_⟩
    rw [kickTx_collected (hcollected.trans hiter), kickTx_collected hiter]
    show (sendChains api fuel switchPort chains (Tx.on { tx with queue } s)).map _ = _
    rw [hsends]
    cases sendChains api fuel switchPort chains { tx with queue } with
    | none => rfl
    | some x =>
      obtain ⟨r, tx₁⟩ := x
      cases r <;> rfl
  | none =>
    -- it does not come to a chain
    refine ⟨s, ?_⟩
    unfold collected at hiter
    unfold kickTx
    cases hkick : (checkKick pkt : Res (VhostError E) Unit) with
    | err e => rfl
    | panic p => rfl
    | ok u =>
      rw [hkick] at hiter
      cases hmapped : vq.mapped with
      | false => rfl
      | true =>
        rw [hmapped] at hiter
        have hqueue : (tx.on s).queue = tx.queue := rfl
        have hguest : (tx.on s).guest = tx.guest := rfl
        simp only [Bool.not_true, Bool.false_eq_true, if_false]
        rw [hqueue, hguest]
        cases hx : api.iter tx.queue tx.guest with
        | error e => rfl
        | ok x =>
          rw [hx] at hiter
          cases hiter

end VirtQueue

namespace Machine

open VirtQueue

variable {sys : VhostSystem Q S E} {lib : Option (List GuestRegion) → VirtioQueue Q G C R W E}

/-- The machine on another switch. -/
def on (m : Machine Q S G) (switch : VirtioSwitch) : Machine Q S G := { m with switch }

theorem serveTx_on (fuel idx : Nat) (pkt : List Byte) (m : Machine Q S G) (s : VirtioSwitch) :
    ∃ s', (m.on s).serveTx lib fuel idx pkt = (m.serveTx lib fuel idx pkt).map fun x => (x.1, x.2.1.on s', x.2.2) := by
  have hdev : (m.on s).dev = m.dev := rfl
  unfold serveTx
  rw [hdev]
  cases m.dev.queues[idx]? with
  | none => exact ⟨s, rfl⟩
  | some vq =>
    obtain ⟨s', hkick⟩ := kickTx_on (lib vq.mem) fuel m.dev.routerPort vq.virtQueue ⟨m.switch, vq.queue, m.guest⟩
      pkt s
    have hcollected : collected (lib vq.mem) vq.virtQueue ⟨(m.on s).switch, vq.queue, (m.on s).guest⟩ pkt =
        collected (lib vq.mem) vq.virtQueue ⟨m.switch, vq.queue, m.guest⟩ pkt := rfl
    refine ⟨s', ?_⟩
    simp only
    rw [show kickTx (lib vq.mem) fuel vq.virtQueue ⟨(m.on s).switch, vq.queue, (m.on s).guest⟩ pkt m.dev.routerPort = _
      from hkick, hcollected]
    cases kickTx (lib vq.mem) fuel vq.virtQueue ⟨m.switch, vq.queue, m.guest⟩ pkt m.dev.routerPort with
    | none => rfl
    | some x =>
      cases collected (lib vq.mem) vq.virtQueue ⟨m.switch, vq.queue, m.guest⟩ pkt with
      | none => rfl
      | some y =>
        obtain ⟨chains, queue⟩ := y
        have hhanded := handed_on (lib vq.mem) fuel m.dev.routerPort chains ⟨m.switch, queue, m.guest⟩ s
        simp only [Option.map_some]
        rw [show handed (lib vq.mem) fuel m.dev.routerPort chains ⟨(m.on s).switch, queue, (m.on s).guest⟩ = _
          from hhanded]
        rfl

theorem serveRx_on (idx : Nat)
    (call : VirtioQueue Q G C R W E → Rx Q G C W → Option (Res (VhostError E) Unit × Rx Q G C W)) (m : Machine Q S G)
    (s : VirtioSwitch) :
    (m.on s).serveRx lib idx call = (m.serveRx lib idx call).map fun x => (x.1, x.2.1.on s, x.2.2) := by
  have hdev : (m.on s).dev = m.dev := rfl
  unfold serveRx
  rw [hdev]
  cases m.dev.queues[idx]? with
  | none => rfl
  | some vq =>
    have hguest : (m.on s).guest = m.guest := rfl
    have hpending : (m.on s).pending = m.pending := rfl
    simp only
    rw [hguest, hpending]
    cases call (lib vq.mem) ⟨vq.virtQueue, m.guest, m.pending, [], [], []⟩ with
    | none => rfl
    | some x => rfl

/-- **What an event of a device does, but for the switch it leaves, does not depend on the switch it finds**: other
threads may use the switch while the event is handled. -/
theorem exec_on (fuel : Nat) (m : Machine Q S G) (e : Event G) (s : VirtioSwitch) :
    ∃ s', (m.on s).exec sys lib fuel e = (m.exec sys lib fuel e).map fun x => (x.1, x.2.1.on s', x.2.2) := by
  cases e with
  | enqueue frame pkt => exact ⟨s, rfl⟩
  | others switch => exact ⟨switch, rfl⟩
  | driver guest => exact ⟨s, rfl⟩
  | message hdr => exact ⟨s, rfl⟩
  | wake =>
    refine ⟨s, ?_⟩
    rw [exec_wake, exec_wake]
    exact serveRx_on 0 _ m s
  | kick token pkt =>
    have hkicks : (m.on s).dev.kickFds = m.dev.kickFds := rfl
    simp only [exec]
    rw [hkicks]
    cases m.dev.kickFds.get token with
    | none => exact ⟨s, rfl⟩
    | some kick =>
      cases kick with
      | rx fd vq => exact ⟨s, serveRx_on vq _ m s⟩
      | tx fd vq => exact serveTx_on fuel vq pkt m s

/-! ## What an event moves -/

theorem filterMap_written {api : VirtioQueue Q G C R W E} {us : List (ChainUse C W)} (h : ∀ u ∈ us, Filled api u) :
    us.filterMap ChainUse.written = us.filterMap ChainUse.frame := by
  refine List.filterMap_congr fun u hu => ?_
  obtain ⟨pkt, w₀, w, guest, guest', hframe, hwriter, -, -⟩ := h u hu
  unfold ChainUse.written
  rw [hwriter]
  rfl

theorem pending_serveRx {idx : Nat}
    {call : VirtioQueue Q G C R W E → Rx Q G C W → Option (Res (VhostError E) Unit × Rx Q G C W)}
    (hcall : ∀ (api : VirtioQueue Q G C R W E) (rx rx' : Rx Q G C W) (u : Unit),
      call api rx = some (.ok u, rx') → ∃ us, Delivers api rx us rx')
    {m m' : Machine Q S G} {u : Unit} {served : Served C} (h : m.serveRx lib idx call = some (.ok u, m', served)) :
    served.written ++ m'.pending = m.pending := by
  unfold serveRx at h
  split at h
  · cases h
  · rw [Option.map_eq_some_iff] at h
    obtain ⟨⟨r, rx⟩, hrx, h⟩ := h
    simp only [Prod.mk.injEq, Res.mapErr_eq_ok] at h
    obtain ⟨rfl, rfl, rfl⟩ := h
    obtain ⟨us, hdelivers⟩ := hcall _ _ _ _ hrx
    have hpopped : rx.popped = us := hdelivers.popped
    simp only
    rw [hpopped, filterMap_written hdelivers.filled]
    exact hdelivers.frames

theorem pending_serveTx {fuel idx : Nat} {pkt : List Byte} {m m' : Machine Q S G} {r : Res (DeviceError E) Unit}
    {served : Served C} (h : m.serveTx lib fuel idx pkt = some (r, m', served)) : m'.pending = m.pending := by
  unfold serveTx at h
  split at h
  · cases h
    rfl
  · rw [Option.map_eq_some_iff] at h
    obtain ⟨⟨r, tx⟩, -, h⟩ := h
    cases h
    rfl

/-- **What an event takes off the pending queue it writes**, when its handler returns; only the switch adds to the
queue. -/
theorem pending_exec {fuel : Nat} {m m' : Machine Q S G} {e : Event G} {served : Served C}
    (he : ∀ frame pkt, e ≠ .enqueue frame pkt) (h : m.exec sys lib fuel e = some (.ok (), m', served)) :
    served.written ++ m'.pending = m.pending := by
  cases e with
  | enqueue frame pkt => exact absurd rfl (he frame pkt)
  | others switch => cases h; rfl
  | driver guest => cases h; rfl
  | message hdr =>
    simp only [exec, Option.some.injEq, Prod.mk.injEq] at h
    obtain ⟨-, rfl, rfl⟩ := h
    rfl
  | wake =>
    rw [exec_wake] at h
    refine pending_serveRx ?_ h
    intro api rx rx' u hcall
    exact (handleRxQueued_ok hcall).1
  | kick token pkt =>
    simp only [exec] at h
    split at h
    · refine pending_serveRx ?_ h
      intro api rx rx' u hcall
      exact (kickRx_ok hcall).1
    · rw [(written_serveTx h).1, pending_serveTx h]
      rfl
    · cases h
      rfl

/-- **The switch is left as the frames handed to it leave it.** -/
theorem switch_serveTx {fuel idx : Nat} {pkt : List Byte} {m m' : Machine Q S G} {r : Res (DeviceError E) Unit}
    {served : Served C} (h : m.serveTx lib fuel idx pkt = some (r, m', served)) :
    m'.switch = served.handed.foldl (fun s pkt => (s.process m.dev.routerPort pkt).2) m.switch := by
  unfold serveTx at h
  split at h
  · cases h
    rfl
  · rename_i vq hvq
    rw [Option.map_eq_some_iff] at h
    obtain ⟨⟨r₁, tx⟩, hkick, h⟩ := h
    cases h
    cases hcollected : collected (lib vq.mem) vq.virtQueue ⟨m.switch, vq.queue, m.guest⟩ pkt with
    | none =>
      obtain ⟨r₂, hnone⟩ := kickTx_uncollected hcollected fuel m.dev.routerPort
      rw [hnone] at hkick
      cases hkick
      rfl
    | some x =>
      obtain ⟨chains, queue⟩ := x
      rw [kickTx_collected hcollected, Option.map_eq_some_iff] at hkick
      obtain ⟨⟨r₂, tx₂⟩, hsends, hcall⟩ := hkick
      have hsame : tx₂ = tx := by cases r₂ <;> cases hcall <;> rfl
      rw [← hsame]
      exact sendChains_switch fuel m.dev.routerPort chains _ tx₂ r₂ hsends

theorem switch_serveRx {idx : Nat}
    {call : VirtioQueue Q G C R W E → Rx Q G C W → Option (Res (VhostError E) Unit × Rx Q G C W)}
    {m m' : Machine Q S G} {r : Res (DeviceError E) Unit} {served : Served C}
    (h : m.serveRx lib idx call = some (r, m', served)) : m'.switch = m.switch ∧ served.handed = [] := by
  unfold serveRx at h
  split at h
  · cases h
    exact ⟨rfl, rfl⟩
  · rw [Option.map_eq_some_iff] at h
    obtain ⟨⟨r₁, rx⟩, -, h⟩ := h
    cases h
    exact ⟨rfl, rfl⟩

theorem switch_exec {fuel : Nat} {m m' : Machine Q S G} {e : Event G} {r : Res (DeviceError E) Unit}
    {served : Served C} (he : ∀ switch, e ≠ .others switch) (h : m.exec sys lib fuel e = some (r, m', served)) :
    m'.switch = served.handed.foldl (fun s pkt => (s.process m.dev.routerPort pkt).2) m.switch := by
  have hrx : m'.switch = m.switch ∧ served.handed = [] →
      m'.switch = served.handed.foldl (fun s pkt => (s.process m.dev.routerPort pkt).2) m.switch := by
    rintro ⟨hswitch, hhanded⟩
    rw [hhanded, hswitch]
    rfl
  cases e with
  | enqueue frame pkt => cases h; rfl
  | others switch => exact absurd rfl (he switch)
  | driver guest => cases h; rfl
  | message hdr =>
    simp only [exec, Option.some.injEq, Prod.mk.injEq] at h
    obtain ⟨-, rfl, rfl⟩ := h
    rfl
  | wake =>
    rw [exec_wake] at h
    exact hrx (switch_serveRx h)
  | kick token pkt =>
    simp only [exec] at h
    split at h
    · exact hrx (switch_serveRx h)
    · exact switch_serveTx h
    · cases h
      rfl

theorem atPort_exec {fuel p : Nat} {m m' : Machine Q S G} {e : Event G} {r : Res (DeviceError E) Unit}
    {served : Served C} (hport : m.dev.AtPort p) (h : m.exec sys lib fuel e = some (r, m', served)) :
    m'.dev.AtPort p := by
  by_cases he : ∃ hdr, e = .message hdr
  · obtain ⟨hdr, rfl⟩ := he
    simp only [exec, Option.some.injEq, Prod.mk.injEq] at h
    obtain ⟨-, rfl, -⟩ := h
    exact hport.parseMsg sys hdr
  · have hqueue := queueOnly_event (fun hdr hmsg => he ⟨hdr, hmsg⟩) h
    rcases hqueue with hsame | ⟨idx, vq, queue, -, hset⟩
    · rw [hsame]
      exact hport
    · rw [hset]
      exact hport

theorem new_at {n : BitVec 8} {switch : VirtioSwitch} {s : S} {guest : G} {m : Machine Q S G}
    (h : Machine.new sys n switch s guest = .ok m) : m.dev.routerPort = switch.ports.length ∧ m.pending = [] := by
  unfold Machine.new at h
  simp only [Res.bind_eq_ok, Res.pure_eq, Res.ok.injEq] at h
  obtain ⟨dev, hdev, rfl⟩ := h
  refine ⟨?_, rfl⟩
  unfold Device.new at hdev
  split at hdev
  · rw [Res.bind_eq_ok] at hdev
    obtain ⟨queues, -, hdev⟩ := hdev
    cases hdev
    rfl
  · cases hdev

end Machine

end Oathgate
