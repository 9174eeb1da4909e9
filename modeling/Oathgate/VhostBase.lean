import Oathgate.VhostDevice
/-!
# VhostBase — the position of a ring (`oathgate-vhost`: `SET_VRING_BASE`, `GET_VRING_BASE`)

A ring counts the chains taken off it in sixteen bits, from the base it was given.  The count is kept through any run
(`next_run`), but the response of `GET_VRING_BASE` holds four zeros in its place.
-/
namespace Oathgate

open Lib TryFromPayload

variable {Q S G C R W E : Type}

/-- **What the position relies on in `virtio-queue`**: the setters of the other fields leave the next index alone. -/
structure VhostSystem.Positions (sys : VhostSystem Q S E) : Prop where
  base : ∀ q idx, sys.nextAvail (sys.setNextAvail q idx) = idx
  size : ∀ q n, sys.nextAvail (sys.setSize q n) = sys.nextAvail q
  ready : ∀ q b, sys.nextAvail (sys.setReady q b) = sys.nextAvail q
  desc : ∀ q lo hi, sys.nextAvail (sys.setDescTableAddress q lo hi) = sys.nextAvail q
  avail : ∀ q lo hi, sys.nextAvail (sys.setAvailRingAddress q lo hi) = sys.nextAvail q
  used : ∀ q lo hi, sys.nextAvail (sys.setUsedRingAddress q lo hi) = sys.nextAvail q

/-- **And of its queues**: each chain taken off the ring moves the next index by one, modulo 2^16, and nothing else
does. -/
structure VirtioQueue.Counts (api : VirtioQueue Q G C R W E) (next : Q → BitVec 16) : Prop where
  pop : ∀ q guest chain q', api.popDescriptorChain q guest = (some chain, q') → next q' = next q + 1
  exhausted : ∀ q guest q', api.popDescriptorChain q guest = (none, q') → next q' = next q
  iter : ∀ q guest chains q', api.iter q guest = .ok (chains, q') → next q' = next q + BitVec.ofNat 16 chains.length
  addUsed : ∀ q guest head len, next (api.addUsed q guest head len).2.1 = next q

namespace VirtQueue

variable {api : VirtioQueue Q G C R W E} {next : Q → BitVec 16}

/-! ## One call -/

theorem useChain_next (hapi : api.Counts next) (chain : C) (pkt : EthernetPacket) (rx : Rx Q G C W) :
    next (useChain api chain pkt rx).2.vq.queue = next rx.vq.queue := by
  unfold useChain
  cases api.writer chain rx.guest with
  | error e => rfl
  | ok w₀ =>
    simp only
    cases (writeFrame api pkt (w₀, rx.guest)).1 with
    | ok n => exact hapi.addUsed _ _ _ _
    | err e => rfl
    | panic p => rfl

theorem one_add_ofNat (a : BitVec 16) (n : Nat) : a + 1 + BitVec.ofNat 16 n = a + BitVec.ofNat 16 (n + 1) := by
  rw [Nat.add_comm n 1, BitVec.ofNat_add, BitVec.add_assoc]
  rfl

theorem popped_next (hapi : api.Counts next) {chain : C} {pkt : EthernetPacket} {pending : List EthernetPacket}
    {queue : Q} {rx rx' : Rx Q G C W} {r : Res (VhostError E) Unit}
    (hpop : api.popDescriptorChain rx.vq.queue rx.guest = (some chain, queue))
    (huse : useChain api chain pkt { rx with vq := { rx.vq with queue }, pending } = (r, rx')) :
    next rx'.vq.queue = next rx.vq.queue + 1 := by
  have hsame := useChain_next hapi chain pkt { rx with vq := { rx.vq with queue }, pending }
  rw [huse] at hsame
  exact hsame.trans (hapi.pop _ _ _ _ hpop)

/-- **The receive loop counts the chains it pops**, also the one it fails on. -/
theorem rxLoop_next (hapi : api.Counts next) : ∀ (fuel : Nat) (rx rx' : Rx Q G C W) (r : Res (VhostError E) Unit),
    rxLoop api fuel rx = some (r, rx') →
      ∃ us, rx'.popped = rx.popped ++ us ∧ next rx'.vq.queue = next rx.vq.queue + BitVec.ofNat 16 us.length
  | 0, _, _, _, h => by cases h
  | fuel + 1, rx, rx', r, h => by
    cases rxLoop_round h with
    | empty hp => exact ⟨[], (List.append_nil _).symm, (BitVec.add_zero _).symm⟩
    | exhausted hp hpop =>
      exact ⟨[], (List.append_nil _).symm, (hapi.exhausted _ _ _ hpop).trans (BitVec.add_zero _).symm⟩
    | failed hp hpop huse hno =>
      obtain ⟨w, hpopped⟩ := useChain_popped api _ _ _
      rw [huse] at hpopped
      exact ⟨_, hpopped, popped_next hapi hpop huse⟩
    | moved hp hpop huse hrest =>
      obtain ⟨w, hpopped⟩ := useChain_popped api _ _ _
      rw [huse] at hpopped
      obtain ⟨us, hus, hnext⟩ := rxLoop_next hapi fuel _ rx' r hrest
      refine ⟨_ :: us, by rw [hus, hpopped, List.append_assoc]; rfl, ?_⟩
      rw [hnext, popped_next hapi hpop huse]
      exact one_add_ofNat _ _

theorem handleRxQueued_next (hapi : api.Counts next) {fuel : Nat} {rx rx' : Rx Q G C W} {r : Res (VhostError E) Unit}
    (h : handleRxQueued api fuel rx = some (r, rx')) :
    ∃ us, rx'.popped = rx.popped ++ us ∧ next rx'.vq.queue = next rx.vq.queue + BitVec.ofNat 16 us.length := by
  rcases handleRxQueued_loop h with rfl | ⟨r₁, hloop⟩
  · exact ⟨[], (List.append_nil _).symm, (BitVec.add_zero _).symm⟩
  · exact rxLoop_next hapi fuel rx rx' r₁ hloop

theorem kickRx_next (hapi : api.Counts next) {fuel : Nat} {rx rx' : Rx Q G C W} {pkt : List Byte}
    {r : Res (VhostError E) Unit} (h : kickRx api fuel rx pkt = some (r, rx')) :
    ∃ us, rx'.popped = rx.popped ++ us ∧ next rx'.vq.queue = next rx.vq.queue + BitVec.ofNat 16 us.length := by
  unfold kickRx at h
  split at h
  · exact handleRxQueued_next hapi h
  · cases h
    exact ⟨[], (List.append_nil _).symm, (BitVec.add_zero _).symm⟩
  · cases h
    exact ⟨[], (List.append_nil _).symm, (BitVec.add_zero _).symm⟩

theorem sendFrame_next (hapi : api.Counts next) (switchPort : Nat) (chain : C) (pkt : List Byte) (tx : Tx Q G) :
    next (sendFrame api switchPort chain pkt tx).2.queue = next tx.queue := by
  unfold sendFrame
  cases (tx.switch.process switchPort pkt).1 with
  | ok u => exact hapi.addUsed _ _ _ _
  | err e => rfl
  | panic p => rfl

/-- **Sending takes no chain**: all were taken before. -/
theorem sendChains_next (hapi : api.Counts next) (fuel switchPort : Nat) : ∀ (chains : List C) (tx tx' : Tx Q G)
    (r : Res (VhostError E) Unit), sendChains api fuel switchPort chains tx = some (r, tx') →
      next tx'.queue = next tx.queue
  | [], tx, tx', r, h => by
    cases h
    rfl
  | chain :: chains, tx, tx', r, h => by
    unfold sendChains at h
    cases hsend : sendChain api fuel switchPort tx chain with
    | none => rw [hsend] at h; cases h
    | some x =>
      obtain ⟨r₁, tx₁⟩ := x
      have hone : next tx₁.queue = next tx.queue := by
        cases hframe : chainFrame api fuel tx.guest chain with
        | none => rw [(sendChain_no_frame hframe hsend).1]
        | some pkt =>
          have hnext := sendFrame_next hapi switchPort chain pkt tx
          rw [sendChain_frame_eq hframe, Option.some.injEq] at hsend
          rwa [hsend] at hnext
      rw [hsend] at h
      cases r₁ with
      | ok u => exact (sendChains_next hapi fuel switchPort chains tx₁ tx' r h).trans hone
      | err e => cases h; exact hone
      | panic p => cases h; exact hone

theorem kickTx_next (hapi : api.Counts next) {fuel switchPort : Nat} {vq : VirtQueue Q} {tx tx' : Tx Q G}
    {pkt : List Byte} {r : Res (VhostError E) Unit} (h : kickTx api fuel vq tx pkt switchPort = some (r, tx')) :
    next tx'.queue = next tx.queue + BitVec.ofNat 16 (((collected api vq tx pkt).map Prod.fst).getD []).length := by
  cases hcol : collected api vq tx pkt with
  | none =>
    obtain ⟨r₁, hkick⟩ := kickTx_uncollected hcol fuel switchPort
    rw [hkick] at h
    cases h
    exact (BitVec.add_zero _).symm
  | some x =>
    obtain ⟨chains, queue⟩ := x
    rw [kickTx_collected hcol, Option.map_eq_some_iff] at h
    obtain ⟨⟨r₁, tx₁⟩, hsends, hx⟩ := h
    have hsame : tx₁ = tx' := by cases r₁ <;> cases hx <;> rfl
    rw [← hsame, sendChains_next hapi fuel switchPort chains _ tx₁ r₁ hsends]
    exact hapi.iter _ _ _ _ (collected_eq_some.1 hcol).2.2

end VirtQueue

/-! ## Runs -/

namespace Machine

open VirtQueue

/-- The number of chains taken off a ring. -/
def count (i : Nat) (served : Served C) : Nat := if served.ring = i then served.taken.length else 0

theorem count_nothing (i : Nat) : count i (Served.nothing : Served C) = 0 := ite_self 0

def consumed (i : Nat) (ls : List (Event G × Served C)) : Nat := (ls.map fun l => count i l.2).sum

def position (sys : VhostSystem Q S E) (d : Device Q S) (i : Nat) : Option (BitVec 16) :=
  (d.queues.map fun vq => sys.nextAvail vq.queue)[i]?

variable {sys : VhostSystem Q S E} {lib : Option (List GuestRegion) → VirtioQueue Q G C R W E}

theorem position_set {d : Device Q S} {idx k : Nat} {vq : Vring Q} {queue : Q} (hvq : d.queues[idx]? = some vq)
    (hnext : sys.nextAvail queue = sys.nextAvail vq.queue + BitVec.ofNat 16 k) (i : Nat) :
    position sys { d with queues := d.queues.set idx { vq with queue } } i =
      (position sys d i).map (· + BitVec.ofNat 16 (if idx = i then k else 0)) := by
  obtain ⟨hlt, -⟩ := List.getElem?_eq_some_iff.1 hvq
  unfold position
  rw [List.map_set, List.getElem?_set]
  by_cases hi : idx = i
  · subst hi
    rw [if_pos rfl, if_pos (by rwa [List.length_map]), if_pos rfl, List.getElem?_map, hvq]
    exact congrArg some hnext
  · rw [if_neg hi, if_neg hi]
    cases (d.queues.map fun vq => sys.nextAvail vq.queue)[i]? with
    | none => rfl
    | some x => exact congrArg some (BitVec.add_zero x).symm

theorem next_setter (hsys : sys.Positions) {req : Request} {g : Vring Q → Vring Q} (hg : Device.Setter sys req g)
    (hreq : req ≠ .setVringBase) (vq : Vring Q) : sys.nextAvail (g vq).queue = sys.nextAvail vq.queue := by
  cases hg with
  | size n => exact hsys.size _ _
  | addresses desc avail used => exact (hsys.used _ _ _).trans ((hsys.avail _ _ _).trans (hsys.desc _ _ _))
  | base idx => exact absurd rfl hreq
  | stop => exact hsys.ready _ _
  | kick fd => exact hsys.ready _ _
  | call fd => rfl
  | err fd => rfl
  | enable => rfl

/-- **No other message moves a ring.** -/
theorem position_message (hsys : sys.Positions) {hdr : VHostHeader} (h : Request.ofTy hdr.ty ≠ some .setVringBase)
    (d : Device Q S) (i : Nat) : position sys (d.parseMsg sys hdr).2 i = position sys d i := by
  by_cases hmem : Request.ofTy hdr.ty = some .setMemTable
  · have hout := Device.parseMsg_outcome sys hmem d
    generalize d.parseMsg sys hdr = x at hout ⊢
    obtain ⟨r, d'⟩ := x
    unfold position
    cases hout with
    | refused => rfl
    | stopped _ _ _ hqueues => rw [hqueues]
    | unfit _ _ _ _ hqueues => rw [hqueues]
    | set _ _ _ _ hqueues =>
      rw [hqueues, List.map_map]
      rfl
  · refine Device.parseMsg_keeps (P := fun d' : Device Q S => position sys d' i = position sys d i) ?_ hmem d rfl
    intro req hreq
    refine ⟨?_, ?_⟩
    · intro d₁ d₂ hq _ h₁
      unfold position at h₁ ⊢
      rw [hq, h₁]
    · intro d₁ idx vq g hg hvq h₁
      have hother : req ≠ .setVringBase := by
        rintro rfl
        exact h hreq
      refine Eq.trans ?_ h₁
      unfold position
      rw [Device.map_set_same hvq (next_setter hsys hg hother vq)]

theorem position_nothing {d d' : Device Q S} {i : Nat} (h : position sys d' i = position sys d i) :
    position sys d' i = (position sys d i).map (· + BitVec.ofNat 16 (count i (Served.nothing : Served C))) := by
  rw [h, count_nothing]
  cases position sys d i with
  | none => rfl
  | some x => exact congrArg some (BitVec.add_zero x).symm

theorem position_serveRx {idx : Nat} {m m' : Machine Q S G} {r : Res (DeviceError E) Unit} {served : Served C}
    {call : VirtioQueue Q G C R W E → Rx Q G C W → Option (Res (VhostError E) Unit × Rx Q G C W)}
    (hcall : ∀ mem rx r rx', call (lib mem) rx = some (r, rx') → ∃ us, rx'.popped = rx.popped ++ us ∧
      sys.nextAvail rx'.vq.queue = sys.nextAvail rx.vq.queue + BitVec.ofNat 16 us.length)
    (h : m.serveRx lib idx call = some (r, m', served)) (i : Nat) : position sys m'.dev i =
      (position sys m.dev i).map (· + BitVec.ofNat 16 (count i served)) := by
  unfold serveRx at h
  cases hvq : m.dev.queues[idx]? with
  | none =>
    simp only [hvq] at h
    cases h
    exact position_nothing rfl
  | some vq =>
    simp only [hvq, Option.map_eq_some_iff] at h
    obtain ⟨⟨r₁, rx⟩, hrx, h⟩ := h
    obtain ⟨us, hpopped, hnext⟩ := hcall _ _ _ _ hrx
    cases h
    simp only [count, hpopped, List.nil_append, List.length_map]
    exact position_set hvq hnext i

theorem position_serveTx (hlib : ∀ mem, (lib mem).Counts sys.nextAvail) {fuel idx : Nat} {pkt : List Byte}
    {m m' : Machine Q S G} {r : Res (DeviceError E) Unit} {served : Served C}
    (h : m.serveTx lib fuel idx pkt = some (r, m', served)) (i : Nat) : position sys m'.dev i =
      (position sys m.dev i).map (· + BitVec.ofNat 16 (count i served)) := by
  unfold serveTx at h
  cases hvq : m.dev.queues[idx]? with
  | none =>
    simp only [hvq] at h
    cases h
    exact position_nothing rfl
  | some vq =>
    simp only [hvq, Option.map_eq_some_iff] at h
    obtain ⟨⟨r₁, tx⟩, htx, h⟩ := h
    have hnext := kickTx_next (hlib vq.mem) htx
    have hset := position_set hvq hnext i
    cases h
    cases hcol : collected (lib vq.mem) vq.virtQueue ⟨m.switch, vq.queue, m.guest⟩ pkt with
    | none =>
      rw [hcol] at hset
      simp only [Option.map_none, Option.getD_none, List.length_nil, ite_self] at hset
      rw [count_nothing]
      exact hset
    | some x =>
      rw [hcol] at hset
      exact hset

/-- **An event moves a ring by the chains it takes off it.** -/
theorem position_exec (hsys : sys.Positions) (hlib : ∀ mem, (lib mem).Counts sys.nextAvail) {fuel : Nat}
    {m m' : Machine Q S G} {e : Event G} {r : Res (DeviceError E) Unit} {served : Served C}
    (he : ∀ hdr, e = .message hdr → Request.ofTy hdr.ty ≠ some .setVringBase)
    (h : m.exec sys lib fuel e = some (r, m', served)) (i : Nat) : position sys m'.dev i =
      (position sys m.dev i).map (· + BitVec.ofNat 16 (count i served)) := by
  cases e with
  | enqueue frame pkt => cases h; exact position_nothing rfl
  | others switch => cases h; exact position_nothing rfl
  | driver guest => cases h; exact position_nothing rfl
  | message hdr =>
    cases h
    exact position_nothing (position_message hsys (he hdr rfl) m.dev i)
  | wake =>
    rw [exec_wake] at h
    exact position_serveRx (fun mem _ _ _ => handleRxQueued_next (hlib mem)) h i
  | kick token pkt =>
    simp only [exec] at h
    split at h
    · exact position_serveRx (fun mem _ _ _ => kickRx_next (hlib mem)) h i
    · exact position_serveTx hlib h i
    · cases h
      exact position_nothing rfl

/-- **The position of a ring over a run**: where it was, plus the chains taken off it. -/
theorem position_run (hsys : sys.Positions) (hlib : ∀ mem, (lib mem).Counts sys.nextAvail) {m₀ m : Machine Q S G}
    {ls : List (Event G × Served C)} (hrun : Run (Step sys lib) m₀ ls m)
    (hls : ∀ l ∈ ls, ∀ hdr, l.1 = .message hdr → Request.ofTy hdr.ty ≠ some .setVringBase) (i : Nat) :
    position sys m.dev i = (position sys m₀.dev i).map (· + BitVec.ofNat 16 (consumed i ls)) := by
  refine Run.invariant (I := fun ls m => (∀ l ∈ ls, ∀ hdr, l.1 = .message hdr →
    Request.ofTy hdr.ty ≠ some .setVringBase) → position sys m.dev i =
      (position sys m₀.dev i).map (· + BitVec.ofNat 16 (consumed i ls))) ?_ ?_ hrun hls
  · intro _
    cases position sys m₀.dev i with
    | none => rfl
    | some x => exact congrArg some (BitVec.add_zero x).symm
  · rintro ls m l m' - ih ⟨fuel, hexec⟩ hls
    have hbefore := ih fun l hl => hls l (List.mem_append_left _ hl)
    have hone := position_exec hsys hlib (hls l (by simp)) hexec i
    rw [hone, hbefore, Option.map_map]
    congr 1
    funext x
    simp [consumed, BitVec.ofNat_add, BitVec.add_assoc]

/-! ## Stopping and resuming -/

theorem position_base (hsys : sys.Positions) {hdr : VHostHeader} {base : VRingDescriptor} {d d' : Device Q S}
    (hreq : Request.ofTy hdr.ty = some .setVringBase) (hread : hdr.read VRingDescriptor = .ok base)
    (h : d.parseMsg sys hdr = (.ok (), d')) : position sys d' base.index.toNat = some (base.avail.setWidth 16) := by
  unfold Device.parseMsg at h
  rw [hreq] at h
  simp only [Device.payload, hread, Res.mapErr_ok, Res.andThen_ok, Device.onRing] at h
  split at h
  · cases h
  · rename_i vq hvq
    cases h
    obtain ⟨hlt, -⟩ := List.getElem?_eq_some_iff.1 hvq
    unfold position
    rw [List.map_set, List.getElem?_set, if_pos rfl, if_pos (by rwa [List.length_map])]
    exact congrArg some (hsys.base _ _)

/-- **The response of `GET_VRING_BASE`** is made of the ring's index and its position. -/
theorem parseMsg_getVringBase (hsys : sys.Positions) {hdr : VHostHeader} {state : VRingState} {d d' : Device Q S}
    (hreq : Request.ofTy hdr.ty = some .getVringBase) (hread : hdr.read VRingState = .ok state)
    (h : d.parseMsg sys hdr = (.ok (), d')) :
    ∃ next, position sys d state.index.toNat = some next ∧ d'.sent = d.sent ++
      [Device.frontEndMsg hdr.ty (0x01 ||| 0x04) (VRingDescriptor.asVec ⟨state.index, next.setWidth 32⟩)] := by
  unfold Device.parseMsg at h
  rw [hreq] at h
  simp only [Device.getVringBase, Device.payload, hread, Res.mapErr_ok, Res.andThen_ok] at h
  split at h
  · cases h
  · rename_i vq hvq
    obtain ⟨_, d₁, hdereg, h⟩ := Res.andThen_eq_ok.1 h
    have hsent : d₁.sent = d.sent := by
      split at hdereg <;> exact (congrArg (fun x => x.2.sent) hdereg).symm
    refine ⟨sys.nextAvail vq.queue, by rw [position, List.getElem?_map, hvq]; rfl, ?_⟩
    have hnext : sys.nextAvail (Vring.clearFds (Vring.setNotReady sys vq)).queue = sys.nextAvail vq.queue :=
      hsys.ready _ _
    rw [hnext] at h
    rw [← hsent]
    exact (congrArg (fun x => x.2.sent) h).symm

/-- **When a stopped ring resumes where it was.**  A descriptor is read back exactly when its position is zero.  A ring
that was given the base `b` and from which chains were taken in a run, of any other messages too, stands at their sum
modulo 2^16; but the response of `GET_VRING_BASE` decodes to that, and sent back resumes there, exactly when it is
zero. -/
theorem vring_base_kept_iff (sys : VhostSystem Q S E) (lib : Option (List GuestRegion) → VirtioQueue Q G C R W E)
    (hsys : sys.Positions) (hlib : ∀ mem, (lib mem).Counts sys.nextAvail) :
    (∀ desc : VRingDescriptor, tryFromPayload desc.asVec = .ok desc ↔ desc.avail = 0) ∧
    ∀ (i b : BitVec 32) (set get : VHostHeader) (state : VRingState) (m₀ m : Machine Q S G) (d₁ d₂ : Device Q S)
      (ls : List (Event G × Served C)), Request.ofTy set.ty = some .setVringBase →
      set.read VRingDescriptor = .ok ⟨i, b⟩ → m₀.dev.parseMsg sys set = (.ok (), d₁) →
      Run (Step sys lib) { m₀ with dev := d₁ } ls m →
      (∀ l ∈ ls, ∀ hdr, l.1 = .message hdr → Request.ofTy hdr.ty ≠ some .setVringBase) →
      Request.ofTy get.ty = some .getVringBase → get.read VRingState = .ok state → state.index = i →
      m.dev.parseMsg sys get = (.ok (), d₂) →
      position sys m.dev i.toNat = some (BitVec.ofNat 16 (b.toNat + consumed i.toNat ls)) ∧
      ∃ payload, d₂.sent = m.dev.sent ++ [Device.frontEndMsg get.ty (0x01 ||| 0x04) payload] ∧
        ((tryFromPayload payload : Res PayloadError VRingDescriptor) =
            .ok ⟨i, BitVec.ofNat 32 ((b.toNat + consumed i.toNat ls) % 2 ^ 16)⟩ ↔
          (b.toNat + consumed i.toNat ls) % 2 ^ 16 = 0) ∧
        ∀ back d₃, Request.ofTy back.ty = some .setVringBase → back.payload = some payload →
          d₂.parseMsg sys back = (.ok (), d₃) → (position sys d₃ i.toNat = position sys m.dev i.toNat ↔
            (b.toNat + consumed i.toNat ls) % 2 ^ 16 = 0) := by
  refine ⟨?_, ?_⟩
  · intro desc
    rw [VRingDescriptor.tryFromPayload_asVec, Res.ok.injEq]
    constructor
    · intro h
      rw [← h]
    · intro h
      rw [← h]
  · rintro i b set get state m₀ m d₁ d₂ ls hset hsetRead hsetOk hrun hls hget hgetRead rfl hgetOk
    have hstart := position_base hsys hset hsetRead hsetOk
    have hhere : position sys m.dev state.index.toNat =
        some (BitVec.ofNat 16 (b.toNat + consumed state.index.toNat ls)) := by
      rw [position_run hsys hlib hrun hls state.index.toNat, hstart, Option.map_some, BitVec.ofNat_add]
      rfl
    generalize b.toNat + consumed state.index.toNat ls = k at hhere ⊢
    have hzero : BitVec.ofNat 16 k = 0 ↔ k % 2 ^ 16 = 0 := by
      rw [← BitVec.toNat_inj, BitVec.toNat_ofNat]
      rfl
    obtain ⟨next, hnext, hsent⟩ := parseMsg_getVringBase hsys hget hgetRead hgetOk
    refine ⟨hhere, _, hsent, ?_, ?_⟩
    · rw [VRingDescriptor.tryFromPayload_asVec, Res.ok.injEq, VRingDescriptor.mk.injEq, and_iff_right rfl,
        ← BitVec.toNat_inj, BitVec.toNat_ofNat]
      have hsmall : k % 2 ^ 16 % 2 ^ 32 = k % 2 ^ 16 := Nat.mod_eq_of_lt (by omega)
      rw [hsmall]
      exact eq_comm
    · intro back d₃ hback hpayload hbackOk
      have hread : back.read VRingDescriptor = .ok ⟨state.index, 0⟩ := by
        unfold VHostHeader.read
        rw [hpayload]
        exact VRingDescriptor.tryFromPayload_asVec _
      rw [position_base hsys hback hread hbackOk, hhere, Option.some.injEq, ← hzero]
      exact eq_comm

open Device

theorem plainSystem_positions : plainSystem.Positions where
  base := fun q idx => by simp [plainSystem]
  size := fun _ _ => rfl
  ready := fun _ _ => rfl
  desc := fun _ _ _ => rfl
  avail := fun _ _ _ => rfl
  used := fun _ _ _ => rfl

theorem readyQueue_counts : readyQueue.Counts plainSystem.nextAvail where
  pop := fun q guest chain q' h => by
    simp only [readyQueue, ringQueue] at h
    cases hready : q.1 with
    | false => simp [hready] at h
    | true =>
      simp only [hready, if_true] at h
      cases hnext : guest.avail[q.2]? with
      | none => simp [hnext] at h
      | some c =>
        simp only [hnext, Prod.mk.injEq] at h
        rw [← h.2]
        exact BitVec.ofNat_add _ _
  exhausted := fun q guest q' h => by
    simp only [readyQueue, ringQueue] at h
    cases hready : q.1 with
    | false =>
      simp only [hready, Bool.false_eq_true, if_false, Prod.mk.injEq, true_and] at h
      rw [h]
    | true =>
      simp only [hready, if_true] at h
      cases hnext : guest.avail[q.2]? with
      | none =>
        simp only [hnext, Prod.mk.injEq, true_and] at h
        rw [← h]
        rfl
      | some c => simp [hnext] at h
  iter := fun q guest chains q' h => by
    simp only [readyQueue] at h
    split at h
    · cases h
      exact BitVec.ofNat_add _ _
    · cases h
  addUsed := fun _ _ _ _ => rfl

/-- `SET_VRING_BASE` -/
def baseMsg (ring base : BitVec 32) : VHostHeader := ⟨10, 1, [], some (toLe32 ring ++ toLe32 base)⟩

/-- `GET_VRING_BASE` -/
def stopMsg (ring : BitVec 32) : VHostHeader := ⟨11, 1, [], some (toLe32 ring ++ toLe32 0)⟩

theorem vring_base_kept_iff_of_zero :
    ∃ payload d₂, freshDevice.parseMsg plainSystem (stopMsg 0) = (.ok (), d₂) ∧
      d₂.sent = [frontEndMsg 11 (0x01 ||| 0x04) payload] ∧
      (tryFromPayload payload : Res PayloadError VRingDescriptor) = .ok ⟨0, 0⟩ := by
  obtain ⟨-, hbase⟩ := vring_base_kept_iff plainSystem (fun _ => readyQueue) plainSystem_positions
    fun _ => readyQueue_counts
  obtain ⟨-, payload, hsent, hiff, -⟩ := hbase 0 0 (baseMsg 0 0) (stopMsg 0) ⟨0, 0⟩ (alone freshDevice oneChain []) _
    freshDevice _ [] rfl rfl rfl .nil (by simp) rfl rfl rfl rfl
  exact ⟨payload, _, rfl, hsent, hiff.2 rfl⟩

/-- **A stopped ring forgets its position.**  The descriptor of position 5 is read back with position 0; and a ring that
was given the base 5 is reported at 0. -/
theorem stopped_ring_forgets_position :
    (tryFromPayload (VRingDescriptor.asVec ⟨0, 5⟩) : Res PayloadError VRingDescriptor) ≠ .ok ⟨0, 5⟩ ∧
    ∃ d₁ d₂ payload, freshDevice.parseMsg plainSystem (baseMsg 0 5) = (.ok (), d₁) ∧
      position plainSystem d₁ 0 = some 5 ∧ d₁.parseMsg plainSystem (stopMsg 0) = (.ok (), d₂) ∧
      d₂.sent = [frontEndMsg 11 (0x01 ||| 0x04) payload] ∧
      (tryFromPayload payload : Res PayloadError VRingDescriptor) = .ok ⟨0, 0⟩ := by
  refine ⟨?_, _, _, VRingDescriptor.asVec ⟨0, 5⟩, rfl, rfl, rfl, rfl, VRingDescriptor.tryFromPayload_asVec _⟩
  rw [VRingDescriptor.tryFromPayload_asVec]
  decide

end Machine
end Oathgate
