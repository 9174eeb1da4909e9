import Oathgate.VhostDevice
/-!
# VhostEnable — the flag of a ring and its service (`oathgate-vhost`: `SET_VRING_ENABLE`, `queue.rs`)

`SET_VRING_ENABLE` raises the flag of a ring whatever its `num` says, and the three service paths look at the flag only
when they notify the driver, after the ring was drained.  So a ring is served whenever it has something to move: `Idle`
says when it has not.
-/
namespace Oathgate

open Lib

variable {Q S G C R W E : Type}

/-! ## What a call moves -/

namespace VirtQueue

variable {api : VirtioQueue Q G C R W E}

theorem readLoop_unique (guest : G) : ∀ (fuel fuel' : Nat) (r : R) (pkt : List Byte) (x y : Except E (List Byte)),
    readLoop api guest fuel r pkt = some x → readLoop api guest fuel' r pkt = some y → x = y
  | 0, _, _, _, _, _, h, _ => by cases h
  | _ + 1, 0, _, _, _, _, _, h => by cases h
  | fuel + 1, fuel' + 1, r, pkt, x, y, h, h' => by
    unfold readLoop at h h'
    cases hread : api.read r guest 4096 with
    | error e =>
      rw [hread] at h h'
      cases h
      cases h'
      rfl
    | ok piece =>
      simp only [hread] at h h'
      split at h
      · rename_i hshort
        rw [if_pos hshort] at h'
        cases h
        cases h'
        rfl
      · rename_i hshort
        rw [if_neg hshort] at h'
        exact readLoop_unique guest fuel fuel' piece.2 _ x y h h'

/-- A chain whose body ended without a frame has none. -/
theorem chainFrame_none {fuel switchPort : Nat} {tx : Tx Q G} {chain : C} {x : Res (VhostError E) Unit × Tx Q G}
    (hsend : sendChain api fuel switchPort tx chain = some x) (h : chainFrame api fuel tx.guest chain = none)
    (fuel' : Nat) : chainFrame api fuel' tx.guest chain = none := by
  unfold sendChain at hsend
  unfold chainFrame at h ⊢
  cases hreader : api.reader chain tx.guest with
  | error e => rfl
  | ok reader =>
    simp only [hreader, Option.map_eq_some_iff] at hsend h ⊢
    obtain ⟨res, hread, -⟩ := hsend
    rw [hread] at h
    cases hread' : readLoop api tx.guest fuel' reader [] with
    | none => rfl
    | some res' =>
      rw [readLoop_unique tx.guest fuel' fuel reader [] res' res hread' hread]
      exact h

/-- The ring gives no frame: it has no chain, or one that cannot be read or is too short for a header. -/
def NoFrame (api : VirtioQueue Q G C R W E) (guest : G) (chains : List C) : Prop :=
  ∀ chain ∈ chains.head?, ∀ fuel, chainFrame api fuel guest chain = none

theorem handed_eq_nil {fuel switchPort : Nat} {chains : List C} {tx : Tx Q G} {x : Res (VhostError E) Unit × Tx Q G}
    (h : sendChains api fuel switchPort chains tx = some x) :
    handed api fuel switchPort chains tx = [] ↔ NoFrame api tx.guest chains := by
  cases chains with
  | nil => exact iff_of_true rfl fun _ h => by cases h
  | cons chain chains =>
    simp only [NoFrame, List.head?_cons, Option.mem_some_iff, forall_eq']
    unfold handed
    cases hframe : chainFrame api fuel tx.guest chain with
    | none =>
      refine iff_of_true rfl ?_
      unfold sendChains at h
      cases hsend : sendChain api fuel switchPort tx chain with
      | none => rw [hsend] at h; cases h
      | some y => exact chainFrame_none hsend hframe
    | some pkt =>
      refine iff_of_false ?_ fun hnone => ?_
      · simp only
        split <;> simp
      · rw [hnone fuel] at hframe
        cases hframe

/-- The ring takes no frame: it has no chain, or one for which no writer can be made. -/
def NoWriter (api : VirtioQueue Q G C R W E) (queue : Q) (guest : G) : Prop :=
  ∀ chain ∈ (api.popDescriptorChain queue guest).1, ∀ w, api.writer chain guest ≠ .ok w

theorem rxLoop_prefix {fuel : Nat} {rx rx' : Rx Q G C W} {r : Res (VhostError E) Unit}
    (h : rxLoop api fuel rx = some (r, rx')) : rx.popped <+: rx'.popped := by
  obtain ⟨us, rx₁, hd, -, ⟨-, hpopped, -⟩ | ⟨-, chain, pkt, pending, queue, -, huse⟩⟩ := rxLoop_rounds fuel rx r rx' h
  · rw [hpopped, hd.popped]
    exact List.prefix_append _ _
  · obtain ⟨w, hp⟩ := useChain_popped api chain pkt { rx₁ with vq := { rx₁.vq with queue }, pending }
    rw [huse] at hp
    rw [hp, hd.popped, List.append_assoc]
    exact List.prefix_append _ _

/-- **A chain is written to exactly when a writer can be made for it**, whether or not all of the frame fits. -/
theorem useChain_written {chain : C} {pkt : EthernetPacket} {rx rx' : Rx Q G C W} {r : Res (VhostError E) Unit}
    (huse : useChain api chain pkt rx = (r, rx')) :
    ∃ u, rx'.popped = rx.popped ++ [u] ∧ (u.written = none ↔ ∀ w, api.writer chain rx.guest ≠ .ok w) := by
  have hrx : (useChain api chain pkt rx).2 = rx' := by rw [huse]
  rw [← hrx]
  unfold useChain
  cases api.writer chain rx.guest with
  | error e => exact ⟨⟨chain, some pkt, none⟩, rfl, iff_of_true rfl nofun⟩
  | ok w₀ =>
    refine ⟨⟨chain, some pkt, some (writeFrame api pkt (w₀, rx.guest)).2.1⟩, ?_, iff_of_false nofun fun h => h w₀ rfl⟩
    simp only
    cases (writeFrame api pkt (w₀, rx.guest)).1 <;> rfl

/-- **The first round decides**: a frame is written exactly when one is pending and a chain can be opened for it. -/
theorem rxLoop_written {fuel : Nat} {rx rx' : Rx Q G C W} {r : Res (VhostError E) Unit} (hpopped : rx.popped = [])
    (h : rxLoop api fuel rx = some (r, rx')) :
    rx'.popped.filterMap ChainUse.written = [] ↔ rx.pending = [] ∨ NoWriter api rx.vq.queue rx.guest := by
  cases fuel with
  | zero => cases h
  | succ fuel =>
    unfold NoWriter
    cases rxLoop_round h with
    | empty hp =>
      rw [hpopped]
      exact iff_of_true rfl (Or.inl hp)
    | exhausted hp hpop =>
      simp [hpop, hpopped]
    | failed hp hpop huse hno =>
      obtain ⟨u, hu, hwritten⟩ := useChain_written huse
      rw [hpopped, List.nil_append] at hu
      simp [hp, hpop, hu, hwritten]
    | moved hp hpop huse hrest =>
      obtain ⟨u, hu, hwritten⟩ := useChain_written huse
      obtain ⟨us, hus⟩ := rxLoop_prefix hrest
      -- the writes succeeded, so that there was a writer
      obtain ⟨⟨w, hd⟩, -⟩ := useChain_ok huse
      have hsome : u.written ≠ none := by
        have hfilled := List.singleton_inj.1 (List.append_cancel_left (hu.symm.trans hd.popped))
        rw [hfilled]
        simp [ChainUse.written]
      refine iff_of_false ?_ ?_
      · rw [← hus, hu, hpopped]
        simp [hsome]
      · rw [hp, hpop, or_iff_right (by simp)]
        exact fun hno => hsome (hwritten.2 (hno _ rfl))

/-- The ring has memory, a frame is pending and there is a chain to write it to. -/
def CanWrite (api : VirtioQueue Q G C R W E) (rx : Rx Q G C W) : Prop :=
  rx.pending ≠ [] ∧ rx.vq.mapped = true ∧ ¬ NoWriter api rx.vq.queue rx.guest

theorem handleRxQueued_written {fuel : Nat} {rx rx' : Rx Q G C W} {r : Res (VhostError E) Unit}
    (hpopped : rx.popped = []) (h : handleRxQueued api fuel rx = some (r, rx')) :
    rx'.popped.filterMap ChainUse.written = [] ↔ ¬ CanWrite api rx := by
  unfold handleRxQueued at h
  unfold CanWrite
  cases hp : rx.pending with
  | nil =>
    rw [if_pos (by rw [hp]; rfl)] at h
    cases h
    exact iff_of_true (by rw [hpopped]; rfl) (by simp)
  | cons pkt pending =>
    rw [if_neg (by rw [hp]; simp)] at h
    cases hmapped : rx.vq.mapped with
    | false =>
      rw [if_pos (by rw [hmapped]; rfl)] at h
      cases h
      exact iff_of_true (by rw [hpopped]; rfl) (by simp)
    | true =>
      rw [if_neg (by rw [hmapped]; simp), Option.map_eq_some_iff] at h
      obtain ⟨⟨r₁, rx₁⟩, hloop, hx⟩ := h
      have hsame : rx₁ = rx' := by cases r₁ <;> cases hx <;> rfl
      rw [← hsame, rxLoop_written hpopped hloop, hp]
      simp

theorem kickRx_written {fuel : Nat} {rx rx' : Rx Q G C W} {pkt : List Byte} {r : Res (VhostError E) Unit}
    (hpopped : rx.popped = []) (h : kickRx api fuel rx pkt = some (r, rx')) :
    rx'.popped.filterMap ChainUse.written = [] ↔
      ((checkKick pkt : Res (VhostError E) Unit) = .ok () → ¬ CanWrite api rx) := by
  unfold kickRx at h
  cases hkick : (checkKick pkt : Res (VhostError E) Unit) with
  | ok u =>
    rw [hkick] at h
    rw [handleRxQueued_written hpopped h]
    exact ⟨fun hno _ => hno, fun hno => hno rfl⟩
  | err e =>
    rw [hkick] at h
    cases h
    exact iff_of_true (by rw [hpopped]; rfl) nofun
  | panic p =>
    rw [hkick] at h
    cases h
    exact iff_of_true (by rw [hpopped]; rfl) nofun

end VirtQueue

/-! ## One event -/

namespace Machine

open VirtQueue

/-- The event moves no frame of the ring, in either direction. -/
def Quiet (served : Served C) (i : Nat) : Prop := served.ring = i → served.handed = [] ∧ served.written = []

variable (lib : Option (List GuestRegion) → VirtioQueue Q G C R W E)

/-- **A receive ring has nothing to move**: no frame is pending, or it has no memory or no chain to write to. -/
def RxIdle (m : Machine Q S G) (i : Nat) : Prop :=
  ∀ vq, m.dev.queues[i]? = some vq → m.pending = [] ∨ vq.mem = none ∨ NoWriter (lib vq.mem) vq.queue m.guest

/-- **A transmit ring has nothing to move**: it has no memory or no chain with a frame. -/
def TxIdle (m : Machine Q S G) (i : Nat) : Prop :=
  ∀ vq, m.dev.queues[i]? = some vq → vq.mem = none ∨
    ∀ chains queue, (lib vq.mem).iter vq.queue m.guest = .ok (chains, queue) → NoFrame (lib vq.mem) m.guest chains

/-- **The event finds nothing to move on the ring**: it is not about the ring, or its word is zero, or the ring is
idle. -/
def Idle (m : Machine Q S G) (i : Nat) : Event G → Prop
  | .wake => 0 = i → RxIdle lib m 0
  | .kick token pkt =>
    match m.dev.kickFds.get token with
    | some (.rx _ vq) => vq = i → (checkKick pkt : Res (VhostError E) Unit) = .ok () → RxIdle lib m vq
    | some (.tx _ vq) => vq = i → (checkKick pkt : Res (VhostError E) Unit) = .ok () → TxIdle lib m vq
    | none => True
  | _ => True

variable {lib}

theorem quiet_nothing (i : Nat) : Quiet (.nothing : Served C) i := fun _ => ⟨rfl, rfl⟩

theorem quiet_serveRx {idx : Nat} {m m' : Machine Q S G} {r : Res (DeviceError E) Unit} {served : Served C}
    {call : VirtioQueue Q G C R W E → Rx Q G C W → Option (Res (VhostError E) Unit × Rx Q G C W)} (word : Prop)
    (hwritten : ∀ api rx r rx', rx.popped = [] → call api rx = some (r, rx') →
      (rx'.popped.filterMap ChainUse.written = [] ↔ (word → ¬ CanWrite api rx)))
    (h : m.serveRx lib idx call = some (r, m', served)) (i : Nat) :
    Quiet served i ↔ (idx = i → word → RxIdle lib m idx) := by
  unfold serveRx at h
  cases hvq : m.dev.queues[idx]? with
  | none =>
    simp only [hvq] at h
    cases h
    exact iff_of_true (quiet_nothing i) fun _ _ vq hvq' => by rw [hvq] at hvq'; cases hvq'
  | some vq =>
    simp only [hvq, Option.map_eq_some_iff] at h
    obtain ⟨⟨r₁, rx⟩, hcall, h⟩ := h
    cases h
    have hidle : ¬ CanWrite (lib vq.mem) ⟨vq.virtQueue, m.guest, m.pending, [], [], []⟩ ↔ RxIdle lib m idx := by
      simp only [CanWrite, RxIdle, hvq, Option.some.injEq, forall_eq', Vring.virtQueue, not_and_or, not_not, ne_eq,
        Option.isSome_iff_ne_none]
    unfold Quiet
    refine imp_congr_right fun _ => ?_
    rw [and_iff_right rfl, hwritten _ _ _ _ rfl hcall, hidle]

theorem quiet_serveTx {fuel idx : Nat} {pkt : List Byte} {m m' : Machine Q S G} {r : Res (DeviceError E) Unit}
    {served : Served C} (h : m.serveTx lib fuel idx pkt = some (r, m', served)) (i : Nat) :
    Quiet served i ↔ (idx = i → (checkKick pkt : Res (VhostError E) Unit) = .ok () → TxIdle lib m idx) := by
  unfold serveTx at h
  cases hvq : m.dev.queues[idx]? with
  | none =>
    simp only [hvq] at h
    cases h
    exact iff_of_true (quiet_nothing i) fun _ _ vq hvq' => by rw [hvq] at hvq'; cases hvq'
  | some vq =>
    simp only [hvq, Option.map_eq_some_iff] at h
    obtain ⟨⟨r₁, tx⟩, hcall, h⟩ := h
    cases h
    have hidle : TxIdle lib m idx ↔ vq.mem = none ∨ ∀ chains queue,
        (lib vq.mem).iter vq.queue m.guest = .ok (chains, queue) → NoFrame (lib vq.mem) m.guest chains := by
      simp only [TxIdle, hvq, Option.some.injEq, forall_eq']
    rw [hidle]
    cases hcol : collected (lib vq.mem) vq.virtQueue ⟨m.switch, vq.queue, m.guest⟩ pkt with
    | none =>
      refine iff_of_true (quiet_nothing i) fun _ hkick => ?_
      rw [or_iff_not_imp_left]
      intro hmem chains queue hiter
      have hsome : collected (lib vq.mem) vq.virtQueue ⟨m.switch, vq.queue, m.guest⟩ pkt = some (chains, queue) :=
        collected_eq_some.2 ⟨hkick, Option.isSome_iff_ne_none.2 hmem, hiter⟩
      rw [hcol] at hsome
      cases hsome
    | some x =>
      obtain ⟨chains, queue⟩ := x
      obtain ⟨hkick, hmapped, hiter⟩ := collected_eq_some.1 hcol
      rw [kickTx_collected hcol, Option.map_eq_some_iff] at hcall
      obtain ⟨y, hsends, -⟩ := hcall
      unfold Quiet
      refine imp_congr_right fun _ => ?_
      rw [and_iff_left rfl, handed_eq_nil hsends]
      constructor
      · intro hno _
        refine Or.inr fun chains' queue' hx => ?_
        rw [hiter] at hx
        cases hx
        exact hno
      · intro hno
        rcases hno hkick with hnone | hno
        · rw [Vring.virtQueue, hnone] at hmapped
          cases hmapped
        · exact hno chains queue hiter

/-- **An event moves a frame of the ring exactly when it finds one to move**: the flag plays no part. -/
theorem quiet_exec {sys : VhostSystem Q S E} {fuel : Nat} {m m' : Machine Q S G} {e : Event G}
    {r : Res (DeviceError E) Unit} {served : Served C} (h : m.exec sys lib fuel e = some (r, m', served)) (i : Nat) :
    Quiet served i ↔ Idle lib m i e := by
  cases e with
  | enqueue frame pkt =>
    cases h
    exact iff_of_true (quiet_nothing i) trivial
  | others switch =>
    cases h
    exact iff_of_true (quiet_nothing i) trivial
  | driver guest =>
    cases h
    exact iff_of_true (quiet_nothing i) trivial
  | message hdr =>
    cases h
    exact iff_of_true (quiet_nothing i) trivial
  | wake =>
    rw [exec_wake] at h
    have hwake := quiet_serveRx True
      (fun _ _ _ _ hpopped hcall => by rw [handleRxQueued_written hpopped hcall, true_imp_iff]) h i
    simpa only [true_imp_iff, Idle] using hwake
  | kick token pkt =>
    simp only [exec] at h
    simp only [Idle]
    cases hfd : m.dev.kickFds.get token with
    | none =>
      simp only [hfd] at h
      cases h
      exact iff_of_true (quiet_nothing i) trivial
    | some kick =>
      cases kick with
      | rx fd vq =>
        simp only [hfd] at h
        exact quiet_serveRx _ (fun _ _ _ _ hpopped hcall => kickRx_written hpopped hcall) h i
      | tx fd vq =>
        simp only [hfd] at h
        exact quiet_serveTx h i

/-! ## Runs -/

/-- The `num` of a `SET_VRING_ENABLE` for the ring. -/
def enableNum (i : Nat) (l : Event G × Served C) : Option (BitVec 32) :=
  match l.1 with
  | .message hdr =>
    match Request.ofTy hdr.ty, hdr.read VRingState with
    | some .setVringEnable, .ok state => if state.index.toNat = i then some state.num else none
    | _, _ => none
  | _ => none

/-- **The ring is enabled**: the last `SET_VRING_ENABLE` for it was there to enable it. -/
def On (ls : List (Event G × Served C)) (i : Nat) : Prop :=
  ∃ num, (ls.filterMap (enableNum i)).getLast? = some num ∧ num ≠ 0

/-- An event happens, whatever its handler returns. -/
def Occurs (sys : VhostSystem Q S E) (lib : Option (List GuestRegion) → VirtioQueue Q G C R W E) (m : Machine Q S G)
    (l : Event G × Served C) (m' : Machine Q S G) : Prop :=
  ∃ fuel r, m.exec sys lib fuel l.1 = some (r, m', l.2)

/-- **A disabled ring is not served**: no event moves a frame of a ring that is not enabled when it happens. -/
def Gated (ls : List (Event G × Served C)) : Prop :=
  ∀ before l after, ls = before ++ l :: after → ∀ i, ¬ On before i → Quiet l.2 i

/-- **When a disabled ring is not served.**  Over a run and one more event, which may be the one that ends it: no frame
of a ring that is not enabled is handed to the switch or written into it exactly when each event finds its ring
enabled, or nothing to move on it. -/
theorem disabled_ring_unserved_iff (sys : VhostSystem Q S E)
    (lib : Option (List GuestRegion) → VirtioQueue Q G C R W E) (m₀ m m' : Machine Q S G)
    (ls : List (Event G × Served C)) (l : Event G × Served C) (hrun : Run (Step sys lib) m₀ ls m)
    (hlast : Occurs sys lib m l m') :
    Gated (ls ++ [l]) ↔ ∀ before x after m₁ m₂, ls ++ [l] = before ++ x :: after → Run (Step sys lib) m₀ before m₁ →
      Occurs sys lib m₁ x m₂ → ∀ i, On before i ∨ Idle lib m₁ i x.1 := by
  constructor
  · rintro hgated before x after m₁ m₂ hls - ⟨fuel, r, hexec⟩ i
    rw [or_iff_not_imp_left, ← quiet_exec hexec i]
    exact hgated before x after hls i
  · intro hcond before x after hls i hoff
    -- the event is one of the run, or the last one
    obtain ⟨m₁, m₂, hbefore, hx⟩ : ∃ m₁ m₂, Run (Step sys lib) m₀ before m₁ ∧ Occurs sys lib m₁ x m₂ := by
      rcases List.eq_nil_or_concat after with rfl | ⟨after', y, rfl⟩
      · obtain ⟨rfl, hxl⟩ := List.append_inj' hls rfl
        cases hxl
        exact ⟨m, m', hrun, hlast⟩
      · rw [List.concat_eq_append, ← List.cons_append, ← List.append_assoc] at hls
        obtain ⟨rfl, -⟩ := List.append_inj' hls rfl
        obtain ⟨m₁, hbefore, hrest⟩ := Run.split before hrun
        obtain ⟨m₂, hx, -⟩ := Run.split [x] hrest
        rw [← List.nil_append [x]] at hx
        obtain ⟨m₁', hnil, fuel, hexec⟩ := hx.unsnoc
        rw [Run.eq_of_nil hnil] at hexec
        exact ⟨m₁, m₂, hbefore, fuel, _, hexec⟩
    obtain ⟨fuel, r, hexec⟩ := id hx
    rcases hcond before x after m₁ m₂ hls hbefore hx i with hon | hidle
    · exact absurd hon hoff
    · exact (quiet_exec hexec i).2 hidle

open Device

/-- A wake event that moves the one pending frame into the one chain of ring 0. -/
def frameWritten : Event RingGuest × Served RingChain :=
  (.wake, ⟨0, [⟨5, [], 100⟩], [], [⟨guestFrame, [7]⟩]⟩)

theorem enabledDevice_disable : enabledDevice.parseMsg plainSystem (enableMsg 0 0) = (.ok (), enabledDevice) := rfl

/-- The wake event of a started ring with a chain and a frame pending, the ring's flag raised or not. -/
theorem occurs_frameWritten : ∀ dev ∈ [startedDevice, enabledDevice], ∃ m' : Machine (Bool × Nat) Unit RingGuest,
    Occurs plainSystem (fun _ => readyQueue) (alone dev oneChain [⟨guestFrame, [7]⟩]) frameWritten m' := by
  intro dev hdev
  simp only [List.mem_cons, List.not_mem_nil, or_false] at hdev
  rcases hdev with rfl | rfl
  · exact ⟨_, 2, _, rfl⟩
  · exact ⟨_, 2, _, rfl⟩

theorem disabled_ring_unserved_iff_of_frame :
    Gated ([control (tableMsg lowRegion), control (kickMsg 0 7), frameComes] ++ [frameWritten]) ↔
      ∀ before x after m₁ m₂, [control (tableMsg lowRegion), control (kickMsg 0 7), frameComes] ++ [frameWritten] =
        before ++ x :: after → Run (Step plainSystem fun _ => readyQueue) (alone freshDevice oneChain []) before m₁ →
        Occurs plainSystem (fun _ => readyQueue) m₁ x m₂ → ∀ i, On before i ∨ Idle (fun _ => readyQueue) m₁ i x.1 := by
  obtain ⟨m', hlast⟩ := occurs_frameWritten startedDevice (by simp)
  exact disabled_ring_unserved_iff plainSystem (fun _ => readyQueue) _ _ m' _ _
    ((run_started oneChain).append (.single ⟨0, rfl⟩)) hlast

/-- **A disabled ring is served.**  A frame is written into ring 0 when no `SET_VRING_ENABLE` was sent, and when the
last one carried zero. -/
theorem disabled_ring_is_served :
    (new plainSystem 1 .new () oneChain : Res (ControlError Unit) _) = .ok (alone freshDevice oneChain []) ∧
    (∃ m m' : Machine (Bool × Nat) Unit RingGuest, Run (Step plainSystem fun _ => readyQueue)
        (alone freshDevice oneChain []) [control (tableMsg lowRegion), control (kickMsg 0 7), frameComes] m ∧
      Occurs plainSystem (fun _ => readyQueue) m frameWritten m') ∧
    (∃ m m' : Machine (Bool × Nat) Unit RingGuest, Run (Step plainSystem fun _ => readyQueue)
        (alone freshDevice oneChain []) [control (tableMsg lowRegion), control (kickMsg 0 7), control (enableMsg 0 1),
          control (enableMsg 0 0), frameComes] m ∧
      Occurs plainSystem (fun _ => readyQueue) m frameWritten m') ∧
    ¬ Gated [control (tableMsg lowRegion), control (kickMsg 0 7), frameComes, frameWritten] ∧
    ¬ Gated [control (tableMsg lowRegion), control (kickMsg 0 7), control (enableMsg 0 1), control (enableMsg 0 0),
        frameComes, frameWritten] := by
  refine ⟨rfl, ?_, ?_, ?_, ?_⟩
  · obtain ⟨m', hlast⟩ := occurs_frameWritten startedDevice (by simp)
    exact ⟨_, m', (run_started oneChain).append (.single ⟨0, rfl⟩), hlast⟩
  · obtain ⟨m', hlast⟩ := occurs_frameWritten enabledDevice (by simp)
    exact ⟨_, m', (run_started oneChain).append (.cons (step_control startedDevice_enable oneChain [])
      (.cons (step_control enabledDevice_disable oneChain []) (.single ⟨0, rfl⟩))), hlast⟩
  · intro hgated
    have hquiet := hgated [control (tableMsg lowRegion), control (kickMsg 0 7), frameComes] frameWritten [] rfl 0
      (by rintro ⟨num, hnum, -⟩; cases hnum) rfl
    cases hquiet.2
  · intro hgated
    have hquiet := hgated [control (tableMsg lowRegion), control (kickMsg 0 7), control (enableMsg 0 1),
      control (enableMsg 0 0), frameComes] frameWritten [] rfl 0
      (by rintro ⟨num, hnum, hne⟩; cases hnum; exact hne rfl) rfl
    cases hquiet.2

end Machine
end Oathgate
