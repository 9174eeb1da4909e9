import Oathgate.VhostRx
/-!
# VhostPath — a frame from one guest's chain to another's

The way of a frame: guest A's chain is read in pieces, its virtio-net header is dropped, the switch takes the frame
apart and queues it on B's port, and B's device writes it back together into one of its chains.
`switched_frame_arrives` follows one frame along all of it.
-/
namespace Oathgate

open Lib

variable {Q G C R W E : Type}

/-- **What the device relies on in `virtio-queue`**, with `left` the bytes a reader has not read, `content` the bytes a
writer has written and `room` the bytes it can still write: a read fills the buffer until the chain is exhausted, a new
writer has written nothing, a chain is cut off before its 2^32-th byte, writes go behind one another, and a write that
fits succeeds. -/
structure VirtioQueue.Lawful (api : VirtioQueue Q G C R W E) (left : R → List Byte) (content : W → List Byte)
    (room : W → Nat) : Prop where
  reader : ∀ chain guest r, api.reader chain guest = .ok r → (left r).length < 2 ^ 32
  read : ∀ r guest n, ∃ r', api.read r guest n = .ok ((left r).take n, r') ∧ left r' = (left r).drop n
  writer : ∀ chain guest w, api.writer chain guest = .ok w → content w = []
  bounded : ∀ chain guest w, api.writer chain guest = .ok w → room w < 2 ^ 32
  writeAll : ∀ w guest bytes w' guest', api.writeAll w guest bytes = (.ok w', guest') →
    content w' = content w ++ bytes ∧ room w' = room w - bytes.length
  fits : ∀ w guest bytes, bytes.length ≤ room w → ∃ w' guest', api.writeAll w guest bytes = (.ok w', guest')

theorem ringQueue_lawful : ringQueue.Lawful id Prod.snd Prod.fst where
  reader := fun chain _ r h => by
    cases h
    exact Nat.lt_of_le_of_lt (List.length_take_le _ _) (by decide)
  read := fun r _ n => ⟨r.drop n, rfl, rfl⟩
  writer := fun chain _ w h => by cases h; rfl
  bounded := fun chain _ w h => by
    cases h
    exact Nat.lt_of_le_of_lt (Nat.min_le_right _ _) (by decide)
  writeAll := fun w guest bytes w' guest' h => by
    simp only [ringQueue] at h
    split at h
    · cases h
      exact ⟨rfl, rfl⟩
    · cases h
  fits := fun w guest bytes h => ⟨_, _, if_pos h⟩

theorem VirtioNetHeader.extract_ok (hdr rest : List Byte) (h : hdr.length = 12) :
    ∃ v, (extract (hdr ++ rest) : Res (VhostError E) (VirtioNetHeader × List Byte)) = .ok (v, rest) := by
  have hlen : ¬ (hdr ++ rest).length < 12 := by
    rw [List.length_append]
    omega
  unfold extract
  rw [if_neg hlen, List.take_left' h, List.drop_left' h]
  obtain ⟨x₁, h₁⟩ := le16In_ok (ε := VhostError E) hdr 2 (by omega)
  obtain ⟨x₂, h₂⟩ := le16In_ok (ε := VhostError E) hdr 4 (by omega)
  obtain ⟨x₃, h₃⟩ := le16In_ok (ε := VhostError E) hdr 6 (by omega)
  obtain ⟨x₄, h₄⟩ := le16In_ok (ε := VhostError E) hdr 8 (by omega)
  obtain ⟨x₅, h₅⟩ := le16In_ok (ε := VhostError E) hdr 10 (by omega)
  dsimp only
  rw [index_eq hdr 0 (by omega), index_eq hdr 1 (by omega), h₁, h₂, h₃, h₄, h₅]
  exact ⟨_, rfl⟩

/-- **A frame reaches the queue of the port its destination is learned on.** -/
theorem VirtioSwitch.deliver_reaches (s : VirtioSwitch) (a b : Nat) (pkt : EthernetPacket) (q : List EthernetPacket)
    (hport : s.ports[b]? = some q) (hlearned : s.cache.get pkt.frame.dst = some b)
    (hb : pkt.frame.dst = MacAddress.broadcast → b ≠ a) : (s.deliver a pkt).ports[b]? = some (q ++ [pkt]) := by
  by_cases hdst : pkt.frame.dst = MacAddress.broadcast
  · rw [deliver_broadcast s a pkt hdst, if_neg (hb hdst), hport]
    rfl
  · have hlt : b < s.ports.length := (List.getElem?_eq_some_iff.1 hport).1
    rw [deliver_learned s a b pkt hdst hlearned hlt, getElem?_ports_enqueue, if_pos rfl, hport]
    rfl

/-- **Frames are only added**: what was queued on a port is still there, in front. -/
def VirtioSwitch.Grows (s s' : VirtioSwitch) : Prop :=
  ∀ (b : Nat) q, s.ports[b]? = some q → ∃ q', s'.ports[b]? = some q' ∧ q <+: q'

namespace VirtioSwitch

theorem Grows.refl (s : VirtioSwitch) : s.Grows s := fun _ q h => ⟨q, h, List.prefix_rfl⟩

theorem Grows.trans {s s' s'' : VirtioSwitch} (h : s.Grows s') (h' : s'.Grows s'') : s.Grows s'' := by
  intro b q hq
  obtain ⟨q₁, hq₁, hp₁⟩ := h b q hq
  obtain ⟨q₂, hq₂, hp₂⟩ := h' b q₁ hq₁
  exact ⟨q₂, hq₂, hp₁.trans hp₂⟩

theorem grows_enqueue (s : VirtioSwitch) (port : Nat) (pkt : EthernetPacket) : s.Grows (s.enqueue port pkt) := by
  intro b q hq
  rw [getElem?_ports_enqueue, hq]
  by_cases h : b = port
  · exact ⟨q ++ [pkt], by rw [if_pos h]; rfl, List.prefix_append _ _⟩
  · exact ⟨q, by rw [if_neg h], List.prefix_rfl⟩

theorem grows_foldl_enqueue (pkt : EthernetPacket) : ∀ (targets : List Nat) (s : VirtioSwitch),
    s.Grows (targets.foldl (fun s idx => s.enqueue idx pkt) s)
  | [], s => .refl s
  | idx :: targets, s => (grows_enqueue s idx pkt).trans (grows_foldl_enqueue pkt targets _)

theorem grows_deliver (s : VirtioSwitch) (port : Nat) (pkt : EthernetPacket) : s.Grows (s.deliver port pkt) := by
  unfold deliver
  split
  · exact grows_foldl_enqueue pkt _ s
  · split
    · split
      · exact grows_enqueue s _ pkt
      · exact .refl s
    · exact .refl s

theorem grows_process (s : VirtioSwitch) (port : Nat) (pkt : List Byte) : s.Grows (s.process port pkt).2 := by
  rcases accepted_or_rejected pkt with ⟨frame, payload, rfl⟩ | h
  · rw [process_ok]
    exact grows_deliver (s.associatePort port frame.src) port ⟨frame, payload⟩
  · obtain ⟨e, he⟩ := process_rejected s port pkt h
    rw [he]
    exact .refl s

end VirtioSwitch

namespace VirtQueue

variable {api : VirtioQueue Q G C R W E} {left : R → List Byte} {content : W → List Byte} {room : W → Nat}

/-! ## Transmit -/

/-- **The read loop returns all the bytes of a chain**, a multiple of 4096 of them too. -/
theorem readLoop_eq (hapi : api.Lawful left content room) (guest : G) :
    ∀ (fuel : Nat) (r : R) (pkt : List Byte), (left r).length < 4096 * fuel →
      readLoop api guest fuel r pkt = some (.ok (pkt ++ left r))
  | 0, _, _, h => by omega
  | fuel + 1, r, pkt, h => by
    obtain ⟨r', hread, hleft⟩ := hapi.read r guest 4096
    unfold readLoop
    rw [hread]
    simp only
    have hpiece : ((left r).take 4096).length = min 4096 (left r).length := List.length_take
    by_cases hshort : (left r).length < 4096
    · rw [if_pos (by omega), List.take_of_length_le (by omega)]
    · have hrest : (left r').length < 4096 * fuel := by
        rw [hleft, List.length_drop]
        omega
      rw [if_neg (by omega), readLoop_eq hapi guest fuel r' _ hrest, hleft, List.append_assoc, List.take_append_drop]

/-- **A chain that holds a header and a frame hands the frame to the switch.** -/
theorem sendChain_frame (hapi : api.Lawful left content room) (switchPort : Nat) {fuel : Nat} {tx : Tx Q G} {chain : C}
    {reader : R} {hdr payload : List Byte} {frame : EthernetFrame} (hreader : api.reader chain tx.guest = .ok reader)
    (hleft : left reader = hdr ++ (frame.wire ++ payload)) (hhdr : hdr.length = 12)
    (hfuel : (left reader).length < 4096 * fuel) :
    ∃ r tx', sendChain api fuel switchPort tx chain = some (r, tx') ∧
      tx'.switch = (tx.switch.associatePort switchPort frame.src).deliver switchPort ⟨frame, payload⟩ := by
  obtain ⟨v, hv⟩ := VirtioNetHeader.extract_ok (E := E) hdr (frame.wire ++ payload) hhdr
  unfold sendChain
  rw [hreader]
  simp only
  rw [readLoop_eq hapi tx.guest fuel reader [] hfuel, hleft]
  simp only [List.nil_append, Option.map_some, ofExcept, Res.bind_ok, hv, Res.andThen_ok, VirtioSwitch.process_ok,
    Res.unwrap]
  exact ⟨_, _, rfl, rfl⟩

/-- **Whatever a chain holds, its body ends**, and it takes nothing back from the ports. -/
theorem sendChain_total (hapi : api.Lawful left content room) (switchPort : Nat) {fuel : Nat} (hfuel : 2 ^ 20 ≤ fuel)
    (tx : Tx Q G) (chain : C) :
    ∃ r tx', sendChain api fuel switchPort tx chain = some (r, tx') ∧ tx.switch.Grows tx'.switch := by
  unfold sendChain
  cases hreader : api.reader chain tx.guest with
  | error e => exact ⟨_, _, rfl, .refl _⟩
  | ok reader =>
    have hlt := hapi.reader chain tx.guest reader hreader
    simp only
    rw [readLoop_eq hapi tx.guest fuel reader [] (by omega)]
    refine ⟨_, _, rfl, ?_⟩
    simp only [ofExcept, Res.bind_ok, List.nil_append]
    cases (VirtioNetHeader.extract (left reader) : Res (VhostError E) _) with
    | err e => exact .refl _
    | panic p => exact .refl _
    | ok x =>
      simp only
      have hgrows := tx.switch.grows_process switchPort x.2
      cases (tx.switch.process switchPort x.2).1 <;> exact hgrows

theorem sendChains_total (hapi : api.Lawful left content room) (switchPort : Nat) {fuel : Nat} (hfuel : 2 ^ 20 ≤ fuel) :
    ∀ (chains : List C) (tx : Tx Q G),
      ∃ r tx', sendChains api fuel switchPort chains tx = some (r, tx') ∧ tx.switch.Grows tx'.switch
  | [], tx => ⟨_, _, rfl, .refl _⟩
  | chain :: chains, tx => by
    obtain ⟨r, tx₁, hsend, hgrows⟩ := sendChain_total hapi switchPort hfuel tx chain
    unfold sendChains
    rw [hsend]
    cases r with
    | err e => exact ⟨_, _, rfl, hgrows⟩
    | panic p => exact ⟨_, _, rfl, hgrows⟩
    | ok v =>
      obtain ⟨r, tx₂, hsends, hgrows₂⟩ := sendChains_total hapi switchPort hfuel chains tx₁
      exact ⟨r, tx₂, hsends, hgrows.trans hgrows₂⟩

theorem sendChains_append (fuel switchPort : Nat) (rest : List C) (tx' : Tx Q G) :
    ∀ (before : List C) (tx : Tx Q G), sendChains api fuel switchPort before tx = some (.ok (), tx') →
      sendChains api fuel switchPort (before ++ rest) tx = sendChains api fuel switchPort rest tx'
  | [], tx, h => by cases h; rfl
  | chain :: before, tx, h => by
    rw [List.cons_append, sendChains]
    rw [sendChains] at h
    cases hsend : sendChain api fuel switchPort tx chain with
    | none => rw [hsend] at h; cases h
    | some x =>
      obtain ⟨r, tx₁⟩ := x
      rw [hsend] at h
      cases r with
      | ok v => exact sendChains_append fuel switchPort rest tx' before tx₁ h
      | err e => cases h
      | panic p => cases h

/-- **A kick hands over the frame of each chain it comes to.**  The later chains add behind it. -/
theorem kickTx_frame (hapi : api.Lawful left content room) {fuel : Nat} (hfuel : 2 ^ 20 ≤ fuel) {vq : VirtQueue Q}
    {tx₀ tx : Tx Q G} {kick : List Byte} {switchPort : Nat} {before after : List C} {chain : C} {queue : Q}
    (hkick : (checkKick kick : Res (VhostError E) Unit) = .ok ()) (hmapped : vq.mapped = true)
    (hiter : api.iter tx₀.queue tx₀.guest = .ok (before ++ chain :: after, queue))
    (hbefore : sendChains api fuel switchPort before { tx₀ with queue } = some (.ok (), tx))
    {reader : R} {hdr payload : List Byte} {frame : EthernetFrame} (hreader : api.reader chain tx.guest = .ok reader)
    (hleft : left reader = hdr ++ (frame.wire ++ payload)) (hhdr : hdr.length = 12) :
    ∃ r tx', kickTx api fuel vq tx₀ kick switchPort = some (r, tx') ∧
      ((tx.switch.associatePort switchPort frame.src).deliver switchPort ⟨frame, payload⟩).Grows tx'.switch := by
  have hlt := hapi.reader chain tx.guest reader hreader
  obtain ⟨r, tx₁, hsend, hswitch⟩ := sendChain_frame hapi switchPort hreader hleft hhdr (show _ < 4096 * fuel by omega)
  rw [← hswitch]
  have hsends : ∃ r tx', sendChains api fuel switchPort (before ++ chain :: after) { tx₀ with queue } = some (r, tx') ∧
      tx₁.switch.Grows tx'.switch := by
    rw [sendChains_append fuel switchPort _ tx before _ hbefore]
    unfold sendChains
    rw [hsend]
    cases r with
    | err e => exact ⟨_, _, rfl, .refl _⟩
    | panic p => exact ⟨_, _, rfl, .refl _⟩
    | ok v => exact sendChains_total hapi switchPort hfuel after tx₁
  obtain ⟨r, tx', hsends, hgrows⟩ := hsends
  unfold kickTx
  rw [hkick]
  simp only [hmapped, Bool.not_true, Bool.false_eq_true, if_false, hiter, hsends, Option.map_some]
  refine ⟨_, _, rfl, ?_⟩
  cases r <;> exact hgrows

/-! ## Receive -/

theorem put_ok (hapi : api.Lawful left content room) {bytes : List Byte} {x y : W × G} {u : Unit}
    (h : put api bytes x = (.ok u, y)) : content y.1 = content x.1 ++ bytes ∧ room y.1 = room x.1 - bytes.length := by
  unfold put at h
  split at h
  · rename_i w guest hw
    cases h
    exact hapi.writeAll _ _ _ _ _ hw
  · cases h

theorem put_fits (hapi : api.Lawful left content room) {bytes : List Byte} {x : W × G}
    (h : bytes.length ≤ room x.1) : ∃ y, put api bytes x = (.ok (), y) := by
  obtain ⟨w, guest, hw⟩ := hapi.fits x.1 x.2 bytes h
  refine ⟨(w, guest), ?_⟩
  unfold put
  rw [hw]

/-- **A written frame is in the chain**, behind the header. -/
theorem writeFrame_content (hapi : api.Lawful left content room) {pkt : EthernetPacket} {x y : W × G} {n : Nat}
    (h : writeFrame api pkt x = (.ok n, y)) : content y.1 = content x.1 ++ vhdr ++ pkt.wire := by
  rw [writeFrame_eq] at h
  simp only [Res.andThen_eq_ok] at h
  obtain ⟨_, x₁, h₁, _, x₂, h₂, _, x₃, h₃, h⟩ := h
  cases h
  rw [(put_ok hapi h₃).1, (put_ok hapi h₂).1, (put_ok hapi h₁).1, EthernetPacket.wire, List.append_assoc,
    List.append_assoc]

theorem writeFrame_fits (hapi : api.Lawful left content room) (pkt : EthernetPacket) {x : W × G}
    (h : 12 + pkt.wire.length ≤ room x.1) : ∃ y, writeFrame api pkt x = (.ok (12 + pkt.wire.length), y) := by
  have hw := pkt.length_wire
  have hv : vhdr.length = 12 := rfl
  have hf := pkt.frame.length_wire
  obtain ⟨x₁, h₁⟩ := put_fits hapi (show vhdr.length ≤ room x.1 by omega)
  have r₁ := (put_ok hapi h₁).2
  obtain ⟨x₂, h₂⟩ := put_fits hapi (show pkt.frame.wire.length ≤ room x₁.1 by omega)
  have r₂ := (put_ok hapi h₂).2
  obtain ⟨x₃, h₃⟩ := put_fits hapi (show pkt.payload.length ≤ room x₂.1 by omega)
  refine ⟨x₃, ?_⟩
  rw [writeFrame_eq, h₁, Res.andThen_ok, h₂, Res.andThen_ok, h₃, Res.andThen_ok]

/-- **A chain with room is filled and reported.** -/
theorem useChain_fits (hapi : api.Lawful left content room) (chain : C) (pkt : EthernetPacket) (rx : Rx Q G C W)
    {w₀ : W} (hw : api.writer chain rx.guest = .ok w₀) (hroom : 12 + pkt.wire.length ≤ room w₀) :
    ∃ w, content w = vhdr ++ pkt.wire ∧
      (useChain api chain pkt rx).2.popped = rx.popped ++ [⟨chain, some pkt, some w⟩] ∧
      (useChain api chain pkt rx).2.used =
        rx.used ++ [(api.headIndex chain, BitVec.ofNat 32 (12 + pkt.wire.length))] := by
  obtain ⟨⟨w, guest⟩, hwrite⟩ := writeFrame_fits hapi pkt (show 12 + pkt.wire.length ≤ room (w₀, rx.guest).1 from hroom)
  refine ⟨w, ?_, ?_⟩
  · have hcontent := writeFrame_content hapi hwrite
    rwa [hapi.writer chain rx.guest w₀ hw, List.nil_append] at hcontent
  · unfold useChain
    rw [hw]
    simp only [hwrite, Res.andThen_ok, and_self]

theorem useChain_popped (api : VirtioQueue Q G C R W E) (chain : C) (pkt : EthernetPacket) (rx : Rx Q G C W) :
    ∃ w, (useChain api chain pkt rx).2.popped = rx.popped ++ [⟨chain, some pkt, w⟩] := by
  unfold useChain
  cases api.writer chain rx.guest with
  | error e => exact ⟨none, rfl⟩
  | ok w₀ =>
    refine ⟨some (writeFrame api pkt (w₀, rx.guest)).2.1, ?_⟩
    simp only
    cases (writeFrame api pkt (w₀, rx.guest)).1 <;> rfl

theorem useChain_used (api : VirtioQueue Q G C R W E) (chain : C) (pkt : EthernetPacket) (rx : Rx Q G C W) :
    ∃ tail, (useChain api chain pkt rx).2.used = rx.used ++ tail := by
  unfold useChain
  cases api.writer chain rx.guest with
  | error e => exact ⟨[], (List.append_nil _).symm⟩
  | ok w₀ =>
    simp only
    cases (writeFrame api pkt (w₀, rx.guest)).1 with
    | ok n => exact ⟨_, rfl⟩
    | err e => exact ⟨[], (List.append_nil _).symm⟩
    | panic p => exact ⟨[], (List.append_nil _).symm⟩

/-- Every filled chain has a frame, so that frames and chains have the same index. -/
theorem getElem?_frames {us : List (ChainUse C W)} (h : ∀ u ∈ us, Filled api u) (k : Nat) :
    (us.filterMap ChainUse.frame)[k]? = us[k]?.bind ChainUse.frame := by
  induction us generalizing k with
  | nil => rfl
  | cons u us ih =>
    obtain ⟨pkt, -, -, -, -, hframe, -⟩ := h u List.mem_cons_self
    rw [List.filterMap_cons_some hframe]
    cases k with
    | zero => simp [hframe]
    | succ k => simpa using ih (fun v hv => h v (List.mem_cons_of_mem _ hv)) k

theorem length_frames : ∀ {us : List (ChainUse C W)}, (∀ u ∈ us, Filled api u) →
    (us.filterMap ChainUse.frame).length = us.length
  | [], _ => rfl
  | u :: us, h => by
    obtain ⟨pkt, -, -, -, -, hframe, -⟩ := h u List.mem_cons_self
    rw [List.filterMap_cons_some hframe, List.length_cons, length_frames fun v hv => h v (List.mem_cons_of_mem _ hv),
      List.length_cons]

/-- **The chain of a delivered frame** holds it, and was reported with its length. -/
theorem Delivers.chain_at (hapi : api.Lawful left content room) {rx rx' : Rx Q G C W} {us : List (ChainUse C W)}
    (hd : Delivers api rx us rx') {k : Nat} {u : ChainUse C W} {pkt : EthernetPacket} (hu : us[k]? = some u)
    (hpkt : rx.pending[k]? = some pkt) :
    ∃ w, u.writer = some w ∧ content w = vhdr ++ pkt.wire ∧
      (us.map (report api))[k]? = some (api.headIndex u.chain, BitVec.ofNat 32 (12 + pkt.wire.length)) := by
  obtain ⟨pkt', w₀, w, guest, guest', hframe, hwriter, hw, hwrite⟩ := hd.filled u (List.mem_of_getElem? hu)
  -- frames come off the pending queue in order
  have hk : (us.filterMap ChainUse.frame)[k]? = some pkt' := by rw [getElem?_frames hd.filled, hu]; exact hframe
  have hsame : pkt' = pkt := by
    rw [← hd.frames, List.getElem?_append_left (List.getElem?_eq_some_iff.1 hk).1, hk] at hpkt
    cases hpkt
    rfl
  subst hsame
  refine ⟨w, hwriter, ?_, ?_⟩
  · have hcontent := writeFrame_content hapi hwrite
    rwa [hapi.writer u.chain guest w₀ hw, List.nil_append] at hcontent
  · rw [List.getElem?_map, hu]
    simp [report, hframe]

/-- The chain of a round that fails: it is the last one, and if it has room the frame was written and reported. -/
theorem useChain_last (hapi : api.Lawful left content room) {rx rx' : Rx Q G C W} {r : Res (VhostError E) Unit}
    {chain : C} {pkt : EthernetPacket} (h : useChain api chain pkt rx = (r, rx')) {u : ChainUse C W}
    (hu : rx'.popped[rx.popped.length]? = some u) (hlen : rx.used.length = rx.popped.length)
    (hroom : ∃ w, api.writer u.chain rx.guest = .ok w ∧ 12 + pkt.wire.length ≤ room w) :
    ∃ w, u.writer = some w ∧ content w = vhdr ++ pkt.wire ∧
      rx'.used[rx.popped.length]? = some (api.headIndex u.chain, BitVec.ofNat 32 (12 + pkt.wire.length)) := by
  obtain ⟨w₁, hp⟩ := useChain_popped api chain pkt rx
  rw [h] at hp
  have hchain : u.chain = chain := by
    rw [hp, List.getElem?_append_right (Nat.le_refl _), Nat.sub_self] at hu
    cases hu
    rfl
  rw [hchain] at hroom ⊢
  obtain ⟨w₀, hw₀, hr₀⟩ := hroom
  obtain ⟨w, hc, hp', hused⟩ := useChain_fits hapi chain pkt rx hw₀ hr₀
  rw [h] at hp' hused
  rw [hp', List.getElem?_append_right (Nat.le_refl _), Nat.sub_self] at hu
  cases hu
  refine ⟨w, rfl, hc, ?_⟩
  rw [hused, ← hlen, List.getElem?_append_right (Nat.le_refl _), Nat.sub_self]
  rfl

/-- **The chain the loop uses for a pending frame**, when it has room, holds the header and the frame, and is reported
with their length. -/
theorem rxLoop_uses (hapi : api.Lawful left content room) {fuel : Nat} {rx rx' : Rx Q G C W}
    {r : Res (VhostError E) Unit} {before rest : List EthernetPacket} {pkt : EthernetPacket} {u : ChainUse C W}
    (hpopped : rx.popped = []) (hused : rx.used = []) (hpending : rx.pending = before ++ pkt :: rest)
    (h : rxLoop api fuel rx = some (r, rx')) (hu : rx'.popped[before.length]? = some u)
    (hroom : ∀ guest, ∃ w, api.writer u.chain guest = .ok w ∧ 12 + pkt.wire.length ≤ room w) :
    ∃ w, u.writer = some w ∧ content w = vhdr ++ pkt.wire ∧
      rx'.used[before.length]? = some (api.headIndex u.chain, BitVec.ofNat 32 (12 + pkt.wire.length)) := by
  have hpkt : rx.pending[before.length]? = some pkt := by rw [hpending]; simp
  obtain ⟨us, rx₁, hd, -, hend⟩ := rxLoop_rounds fuel rx r rx' h
  have hp₁ : rx₁.popped = us := by rw [hd.popped, hpopped, List.nil_append]
  have hu₁ : rx₁.used = us.map (report api) := by rw [hd.used, hused, List.nil_append]
  rcases hend with ⟨-, hp, hus, -, -⟩ | ⟨-, chain, pkt₁, pending, queue, hpend, huse⟩
  · rw [hp, hp₁] at hu
    rw [hus, hu₁]
    exact hd.chain_at hapi hu hpkt
  obtain ⟨w₁, hp⟩ := useChain_popped api chain pkt₁ { rx₁ with vq := { rx₁.vq with queue }, pending }
  obtain ⟨tail, htail⟩ := useChain_used api chain pkt₁ { rx₁ with vq := { rx₁.vq with queue }, pending }
  rw [huse] at hp htail
  simp only [hp₁] at hp
  by_cases hk : before.length < us.length
  · rw [hp, List.getElem?_append_left hk] at hu
    obtain ⟨w, hw, hc, hr⟩ := hd.chain_at hapi hu hpkt
    refine ⟨w, hw, hc, ?_⟩
    have hk' : before.length < (us.map (report api)).length := by rw [List.length_map]; exact hk
    rw [htail, hu₁, List.getElem?_append_left hk', hr]
  · -- the frame is the one of the round that failed
    have hlen : before.length = us.length := by
      have hlt := (List.getElem?_eq_some_iff.1 hu).1
      rw [hp, List.length_append, List.length_singleton] at hlt
      omega
    have hsame : pkt₁ = pkt := by
      rw [← hd.frames, hpend, hlen, ← length_frames hd.filled, List.getElem?_append_right (Nat.le_refl _),
        Nat.sub_self] at hpkt
      cases hpkt
      rfl
    subst hsame
    rw [hlen, ← hp₁] at hu ⊢
    exact useChain_last hapi huse hu (by rw [hu₁, hp₁, List.length_map]) (hroom rx₁.guest)

theorem handleRxQueued_loop {fuel : Nat} {rx rx' : Rx Q G C W} {r : Res (VhostError E) Unit}
    (h : handleRxQueued api fuel rx = some (r, rx')) : rx' = rx ∨ ∃ r₁, rxLoop api fuel rx = some (r₁, rx') := by
  unfold handleRxQueued at h
  split at h
  · cases h
    exact Or.inl rfl
  · split at h
    · cases h
      exact Or.inl rfl
    · rw [Option.map_eq_some_iff] at h
      obtain ⟨⟨r₁, rx₁⟩, hloop, hx⟩ := h
      cases r₁ <;> cases hx <;> exact Or.inr ⟨_, hloop⟩

/-! ## The whole way -/

/-- **Switching is transparent.**  When `kick_tx` of guest A comes to a chain that holds a virtio-net header of twelve
bytes and a frame whose destination is learned on B's port, it queues the frame on that port; and whenever B's
`handle_rx_queued`, with the frame anywhere in its pending queue, uses a chain with room for it, the bytes in the chain
behind the first twelve are the frame's, and the chain is returned with the length of both. -/
theorem switched_frame_arrives (api : VirtioQueue Q G C R W E) (left : R → List Byte) (content : W → List Byte)
    (room : W → Nat) (hapi : api.Lawful left content room) (fuel : Nat) (hfuel : 2 ^ 20 ≤ fuel) (vq : VirtQueue Q)
    (tx₀ tx : Tx Q G) (kick : List Byte) (a b : Nat) (before after : List C) (chain : C) (queue : Q)
    (hkick : (checkKick kick : Res (VhostError E) Unit) = .ok ()) (hmapped : vq.mapped = true)
    (hiter : api.iter tx₀.queue tx₀.guest = .ok (before ++ chain :: after, queue))
    (hbefore : sendChains api fuel a before { tx₀ with queue } = some (.ok (), tx)) (reader : R)
    (hdr payload : List Byte) (frame : EthernetFrame) (q : List EthernetPacket)
    (hreader : api.reader chain tx.guest = .ok reader) (hleft : left reader = hdr ++ (frame.wire ++ payload))
    (hhdr : hdr.length = 12) (hport : tx.switch.ports[b]? = some q)
    (hlearned : (tx.switch.associatePort a frame.src).getPort frame.dst = some b)
    (hb : frame.dst = MacAddress.broadcast → b ≠ a) :
    (∃ r tx' q', kickTx api fuel vq tx₀ kick a = some (r, tx') ∧
      tx'.switch.ports[b]? = some q' ∧ q ++ [⟨frame, payload⟩] <+: q') ∧
    ∀ fuel' rx r rx' earlier rest u, rx.popped = [] → rx.used = [] →
      rx.pending = earlier ++ ⟨frame, payload⟩ :: rest → handleRxQueued api fuel' rx = some (r, rx') →
      rx'.popped[earlier.length]? = some u →
      (∀ guest, ∃ w, api.writer u.chain guest = .ok w ∧ 12 + (frame.wire ++ payload).length ≤ room w) →
      ∃ w len, u.writer = some w ∧ (content w).drop 12 = frame.wire ++ payload ∧
        rx'.used[earlier.length]? = some (api.headIndex u.chain, len) ∧
        len.toNat = 12 + (frame.wire ++ payload).length := by
  refine ⟨?_, ?_⟩
  · obtain ⟨r, tx', hkicked, hgrows⟩ :=
      kickTx_frame hapi hfuel hkick hmapped hiter hbefore hreader hleft hhdr
    obtain ⟨q', hq', hprefix⟩ := hgrows b _ (VirtioSwitch.deliver_reaches _ a b ⟨frame, payload⟩ q hport hlearned hb)
    exact ⟨r, tx', q', hkicked, hq', hprefix⟩
  · intro fuel' rx r rx' earlier rest u hpopped hused hpending hcall hu hroom
    rcases handleRxQueued_loop hcall with rfl | ⟨r₁, hloop⟩
    · rw [hpopped] at hu
      simp at hu
    · obtain ⟨w, hw, hc, hr⟩ := rxLoop_uses hapi hpopped hused hpending hloop hu hroom
      refine ⟨w, _, hw, ?_, hr, ?_⟩
      · rw [hc]
        exact List.drop_left' rfl
      · -- a chain with room for the frame is shorter than the 32 bits of `add_used` can say
        obtain ⟨w₀, hw₀, hfits⟩ := hroom rx'.guest
        have hlt := hapi.bounded _ _ _ hw₀
        rw [BitVec.toNat_ofNat, EthernetPacket.wire, Nat.mod_eq_of_lt (Nat.lt_of_le_of_lt hfits hlt)]

/-- A frame from the guest on port 0 to the one on port 1. -/
def guestFrame : EthernetFrame := ⟨guestMac 1, guestMac 0, .ipv4⟩

/-- A switch that has learned port 1, and the guest on port 0 with the frame in a chain. -/
def guestSends : Tx Nat RingGuest :=
  ⟨⟨[[], []], Table.empty.insert (guestMac 1) 1⟩, 0,
    ⟨[⟨3, List.replicate 12 0 ++ (guestFrame.wire ++ [7]), 0⟩], []⟩⟩

/-- The guest on port 1 with the frame pending and a chain of a hundred bytes. -/
def guestReceives : Rx Nat RingGuest RingChain (Nat × List Byte) :=
  ⟨⟨true, 0, true, true⟩, ⟨[⟨5, [], 100⟩], []⟩, [⟨guestFrame, [7]⟩], [], [], []⟩

theorem switched_frame_arrives_at_second_guest :
    (∃ r tx' q', kickTx ringQueue (2 ^ 20) ⟨true, 0, true, true⟩ guestSends [1, 0, 0, 0, 0, 0, 0, 0] 0 = some (r, tx') ∧
      tx'.switch.ports[1]? = some q' ∧ [⟨guestFrame, [7]⟩] <+: q') ∧
    ∃ (rx' : Rx Nat RingGuest RingChain (Nat × List Byte)) (u : ChainUse RingChain (Nat × List Byte))
        (w : Nat × List Byte) (len : BitVec 32), handleRxQueued ringQueue 2 guestReceives = some (.ok (), rx') ∧
      rx'.popped[0]? = some u ∧ u.writer = some w ∧ w.2.drop 12 = guestFrame.wire ++ [7] ∧
      rx'.used[0]? = some (5, len) ∧ len.toNat = 27 := by
  obtain ⟨hsent, hused⟩ := switched_frame_arrives ringQueue id Prod.snd Prod.fst ringQueue_lawful (2 ^ 20)
    (Nat.le_refl _) ⟨true, 0, true, true⟩ guestSends _ [1, 0, 0, 0, 0, 0, 0, 0] 0 1 [] []
    ⟨3, List.replicate 12 0 ++ (guestFrame.wire ++ [7]), 0⟩ 1 rfl rfl rfl rfl _ (List.replicate 12 0) [7] guestFrame []
    rfl rfl rfl rfl (by decide) (by decide)
  refine ⟨hsent, ?_⟩
  obtain ⟨w, len, hw, hbytes, hreport, hlen⟩ := hused 2 guestReceives (.ok ()) _ [] [] _ rfl rfl rfl rfl rfl
    (fun _ => ⟨_, rfl, by decide⟩)
  exact ⟨_, _, w, len, rfl, rfl, hw, hbytes, hreport, hlen⟩

end VirtQueue
end Oathgate
