import Oathgate.VhostPath
/-!
# VhostTx — one kick of a transmit ring (`oathgate-vhost`: `queue.rs`, `kick_tx`)

`kick_tx` takes all available chains off the ring before it looks at the first.  A chain too short for a virtio-net
header ends the call with an error, a frame the switch refuses ends it with a panic, and either way the chains behind it
are neither sent nor returned.  `kickTx_harmless_iff` says that nothing else does.
-/
namespace Oathgate

open Lib

variable {Q G C R W E : Type}

/-! ## The frames a switch takes -/

namespace VirtioSwitch

/-- `process` takes the frame. -/
def takes (pkt : List Byte) : Bool := (sourceOf pkt).isSome

theorem takes_iff (pkt : List Byte) :
    takes pkt = true ↔ ∃ frame payload, pkt = EthernetFrame.wire frame ++ payload := by
  unfold takes
  rcases accepted_or_rejected pkt with ⟨frame, payload, rfl⟩ | h
  · rw [sourceOf_wire]
    exact iff_of_true rfl ⟨frame, payload, rfl⟩
  · rw [sourceOf_rejected h]
    exact iff_of_false (by simp) fun ⟨frame, payload, he⟩ => h frame payload he

/-- **The frames a switch takes** have a header, with an ethertype it knows. -/
theorem takes_iff_header (pkt : List Byte) :
    takes pkt = true ↔ 14 ≤ pkt.length ∧ ∃ e : EtherType, be16At pkt 12 = e.asU16 := by
  rw [takes_iff]
  constructor
  · rintro ⟨frame, payload, he⟩
    by_contra hno
    refine rejected_of_header ?_ frame payload he
    by_cases hlen : pkt.length < 14
    · exact Or.inl hlen
    · exact Or.inr fun e hte => hno ⟨by omega, e, hte⟩
  · rintro ⟨hlen, e, he⟩
    have hx := EthernetFrame.extract_of_length pkt hlen
    rw [(EtherType.tryFrom_eq_ok _ _).2 he, Res.bind_ok] at hx
    exact ⟨_, _, (EthernetFrame.extract_eq_ok _ _ _).1 hx⟩

end VirtioSwitch

/-! ## The library, with a record of the chains returned -/

/-- The library with a log of the heads passed to `add_used`. -/
def VirtioQueue.logged (api : VirtioQueue Q G C R W E) : VirtioQueue Q (G × List (BitVec 16)) C R W E where
  iter q guest := api.iter q guest.1
  popDescriptorChain q guest := api.popDescriptorChain q guest.1
  headIndex := api.headIndex
  reader chain guest := api.reader chain guest.1
  read r guest n := api.read r guest.1 n
  writer chain guest := api.writer chain guest.1
  writeAll w guest bytes :=
    let (res, mem) := api.writeAll w guest.1 bytes
    (res, mem, guest.2)
  addUsed q guest head len :=
    let (res, q, mem) := api.addUsed q guest.1 head len
    (res, q, mem, guest.2 ++ [head])
  notify guest := api.notify guest.1

theorem VirtioQueue.Lawful.logged {api : VirtioQueue Q G C R W E} {left : R → List Byte} {content : W → List Byte}
    {room : W → Nat} (h : api.Lawful left content room) : api.logged.Lawful left content room where
  reader := fun chain guest => h.reader chain guest.1
  read := fun r guest => h.read r guest.1
  writer := fun chain guest => h.writer chain guest.1
  bounded := fun chain guest => h.bounded chain guest.1
  writeAll := fun w guest bytes w' guest' hw => by
    have hw' : api.writeAll w guest.1 bytes = (.ok w', guest'.1) := by
      simp only [VirtioQueue.logged, Prod.mk.injEq] at hw
      obtain ⟨hres, rfl⟩ := hw
      exact Prod.ext hres rfl
    exact h.writeAll w guest.1 bytes w' guest'.1 hw'
  fits := fun w guest bytes hlen => by
    obtain ⟨w', mem, hw⟩ := h.fits w guest.1 bytes hlen
    exact ⟨w', (mem, guest.2), by simp only [VirtioQueue.logged, hw]⟩

namespace VirtQueue

/-! ## The frames handed to the switch -/

/-- The frame of a chain, as `kick_tx` comes to hand it to the switch. -/
def chainFrame (api : VirtioQueue Q G C R W E) (fuel : Nat) (guest : G) (chain : C) : Option (List Byte) :=
  match api.reader chain guest with
  | .error _ => none
  | .ok reader =>
    match readLoop api guest fuel reader [] with
    | some (.ok pkt) =>
      match (VirtioNetHeader.extract pkt : Res (VhostError E) _) with
      | .ok (_, pkt) => some pkt
      | _ => none
    | _ => none

/-- **The frames `kick_tx` hands to the switch**, in order. -/
def handed (api : VirtioQueue Q G C R W E) (fuel switchPort : Nat) : List C → Tx Q G → List (List Byte)
  | [], _ => []
  | chain :: chains, tx =>
    match chainFrame api fuel tx.guest chain with
    | none => []
    | some pkt =>
      match sendChain api fuel switchPort tx chain with
      | some (.ok _, tx) => pkt :: handed api fuel switchPort chains tx
      | _ => [pkt]

variable {api : VirtioQueue Q G C R W E}

/-- What `kick_tx` does with a frame it has read. -/
def sendFrame (api : VirtioQueue Q G C R W E) (switchPort : Nat) (chain : C) (pkt : List Byte) (tx : Tx Q G) :
    Res (VhostError E) Unit × Tx Q G :=
  Res.andThen ((tx.switch.process switchPort pkt).1.unwrap, { tx with switch := (tx.switch.process switchPort pkt).2 })
    fun _ tx =>
      let (res, queue, guest) := api.addUsed tx.queue tx.guest (api.headIndex chain) (BitVec.ofNat 32 pkt.length)
      (ofExcept res, { tx with queue, guest })

theorem sendChain_frame_eq {fuel : Nat} {tx : Tx Q G} {chain : C} {pkt : List Byte}
    (h : chainFrame api fuel tx.guest chain = some pkt) (switchPort : Nat) :
    sendChain api fuel switchPort tx chain = some (sendFrame api switchPort chain pkt tx) := by
  unfold chainFrame at h
  cases hreader : api.reader chain tx.guest with
  | error e =>
    rw [hreader] at h
    cases h
  | ok reader =>
    simp only [hreader] at h
    unfold sendChain
    simp only [hreader]
    split at h
    · rename_i pkt₀ hread
      split at h
      · rename_i hdr pkt₁ hx
        cases h
        simp only [hread, Option.map_some, ofExcept, Res.bind_ok, hx, Res.andThen_ok]
        rfl
      · cases h
    · cases h

theorem sendChain_no_frame {fuel switchPort : Nat} {tx tx' : Tx Q G} {chain : C} {r : Res (VhostError E) Unit}
    (h : chainFrame api fuel tx.guest chain = none) (hsend : sendChain api fuel switchPort tx chain = some (r, tx')) :
    tx' = tx ∧ r ≠ .ok () := by
  unfold chainFrame at h
  unfold sendChain at hsend
  cases hreader : api.reader chain tx.guest with
  | error e =>
    rw [hreader] at hsend
    cases hsend
    exact ⟨rfl, by simp⟩
  | ok reader =>
    simp only [hreader] at h hsend
    rw [Option.map_eq_some_iff] at hsend
    obtain ⟨res, hread, hsend⟩ := hsend
    rw [hread] at h
    cases res with
    | error e =>
      cases hsend
      exact ⟨rfl, by simp⟩
    | ok pkt =>
      simp only [ofExcept, Res.bind_ok] at h hsend
      cases hx : (VirtioNetHeader.extract pkt : Res (VhostError E) _) with
      | ok x => rw [hx] at h; cases h
      | err e => rw [hx] at hsend; cases hsend; exact ⟨rfl, by simp⟩
      | panic p => rw [hx] at hsend; cases hsend; exact ⟨rfl, by simp⟩

theorem switch_sendFrame (api : VirtioQueue Q G C R W E) (switchPort : Nat) (chain : C) (pkt : List Byte)
    (tx : Tx Q G) :
    (sendFrame api switchPort chain pkt tx).2.switch = (tx.switch.process switchPort pkt).2 := by
  unfold sendFrame
  generalize tx.switch.process switchPort pkt = x
  obtain ⟨r, s⟩ := x
  cases r <;> rfl

/-- **The switch is left as the frames handed to it leave it.** -/
theorem sendChains_switch (fuel switchPort : Nat) : ∀ (chains : List C) (tx tx' : Tx Q G) (r : Res (VhostError E) Unit),
    sendChains api fuel switchPort chains tx = some (r, tx') →
      tx'.switch = (handed api fuel switchPort chains tx).foldl (fun s pkt => (s.process switchPort pkt).2) tx.switch
  | [], tx, tx', r, h => by
    cases h
    rfl
  | chain :: chains, tx, tx', r, h => by
    unfold sendChains at h
    unfold handed
    cases hframe : chainFrame api fuel tx.guest chain with
    | none =>
      cases hsend : sendChain api fuel switchPort tx chain with
      | none => rw [hsend] at h; cases h
      | some x =>
        obtain ⟨r₁, tx₁⟩ := x
        obtain ⟨rfl, hno⟩ := sendChain_no_frame hframe hsend
        rw [hsend] at h
        cases r₁ with
        | ok u => exact absurd rfl hno
        | err e => cases h; rfl
        | panic p => cases h; rfl
    | some pkt =>
      have hswitch := switch_sendFrame api switchPort chain pkt tx
      rw [sendChain_frame_eq hframe] at h ⊢
      cases hres : sendFrame api switchPort chain pkt tx with
      | mk r₁ tx₁ =>
        rw [hres] at h hswitch
        cases r₁ with
        | ok u =>
          rw [List.foldl_cons, ← hswitch]
          exact sendChains_switch fuel switchPort chains tx₁ tx' r h
        | err e => cases h; exact hswitch
        | panic p => cases h; exact hswitch

/-! ## A batch -/

/-- **What a chain must hold**: a virtio-net header of twelve bytes and an Ethernet header with a known ethertype. -/
def Sendable (bytes : List Byte) : Prop := 26 ≤ bytes.length ∧ ∃ e : EtherType, be16At bytes 24 = e.asU16

theorem sendable_iff (bytes : List Byte) :
    Sendable bytes ↔ ¬ bytes.length < 12 ∧ VirtioSwitch.takes (bytes.drop 12) = true := by
  rw [VirtioSwitch.takes_iff_header, be16At_drop, List.length_drop]
  unfold Sendable
  constructor
  · rintro ⟨hlen, he⟩
    exact ⟨by omega, by omega, he⟩
  · rintro ⟨h₁, h₂, he⟩
    exact ⟨by omega, he⟩

/-- **What a kick is relied on for**: it comes back without a panic, returns every chain it collected once, and hands
the frames the switch takes to it, in the order of the ring. -/
def Harmless (api : VirtioQueue Q G C R W E) (fuel : Nat) (vq : VirtQueue Q) (tx : Tx Q G) (kick : List Byte)
    (switchPort : Nat) (chains : List C) (queue : Q) (bytes : C → List Byte) : Prop :=
  ∃ r tx', kickTx api.logged fuel vq ⟨tx.switch, tx.queue, tx.guest, []⟩ kick switchPort = some (r, tx') ∧ r.Returns ∧
    tx'.guest.2.Perm (chains.map api.headIndex) ∧
    (handed api.logged fuel switchPort chains ⟨tx.switch, queue, tx.guest, []⟩).filter VirtioSwitch.takes =
      (chains.map fun chain => (bytes chain).drop 12).filter VirtioSwitch.takes

section Batch

variable {left : R → List Byte} {content : W → List Byte} {room : W → Nat} {bytes : C → List Byte} {fuel : Nat}

theorem readLoop_bytes (hapi : api.Lawful left content room) (hfuel : 2 ^ 20 ≤ fuel) {chain : C} {guest : G} {r : R}
    (hreader : api.reader chain guest = .ok r) : readLoop api guest fuel r [] = some (.ok (left r)) := by
  have hlt := hapi.reader chain guest r hreader
  rw [readLoop_eq hapi guest fuel r [] (by omega), List.nil_append]

theorem chainFrame_long (hapi : api.Lawful left content room) (hfuel : 2 ^ 20 ≤ fuel) {chain : C} {guest : G} {r : R}
    (hreader : api.reader chain guest = .ok r) (hlen : ¬ (left r).length < 12) :
    chainFrame api fuel guest chain = some ((left r).drop 12) := by
  have hsplit : left r = (left r).take 12 ++ (left r).drop 12 := (List.take_append_drop 12 (left r)).symm
  have hhdr : ((left r).take 12).length = 12 := by rw [List.length_take]; omega
  obtain ⟨v, hv⟩ := VirtioNetHeader.extract_ok (E := E) _ ((left r).drop 12) hhdr
  rw [← hsplit] at hv
  unfold chainFrame
  simp only [hreader, readLoop_bytes hapi hfuel hreader, hv]

theorem sendChain_short (hapi : api.Lawful left content room) (hfuel : 2 ^ 20 ≤ fuel) {chain : C} {tx : Tx Q G} {r : R}
    (hreader : api.reader chain tx.guest = .ok r) (hlen : (left r).length < 12) (switchPort : Nat) :
    sendChain api fuel switchPort tx chain = some (.err (.notEnoughData (left r).length 12), tx) := by
  unfold sendChain VirtioNetHeader.extract
  simp only [hreader, readLoop_bytes hapi hfuel hreader, Option.map_some, ofExcept, Res.bind_ok, if_pos hlen,
    Res.andThen_err]

theorem sendFrame_refused {pkt : List Byte} (h : ¬ VirtioSwitch.takes pkt = true) (switchPort : Nat) (chain : C)
    (tx : Tx Q G) : sendFrame api switchPort chain pkt tx = (.panic .unwrap, tx) := by
  rw [VirtioSwitch.takes_iff] at h
  obtain ⟨e, he⟩ :=
    VirtioSwitch.process_rejected tx.switch switchPort pkt fun frame payload hp => h ⟨frame, payload, hp⟩
  unfold sendFrame
  rw [he]
  rfl

theorem sendFrame_taken (hused : ∀ queue guest head len, (api.addUsed queue guest head len).1 = .ok ())
    {pkt : List Byte} (h : VirtioSwitch.takes pkt = true) (switchPort : Nat) (chain : C)
    (tx : Tx Q (G × List (BitVec 16))) :
    ∃ tx', sendFrame api.logged switchPort chain pkt tx = (.ok (), tx') ∧
      tx'.guest.2 = tx.guest.2 ++ [api.headIndex chain] := by
  obtain ⟨frame, payload, rfl⟩ := (VirtioSwitch.takes_iff _).1 h
  unfold sendFrame
  rw [VirtioSwitch.process_ok]
  simp only [Res.unwrap, Res.andThen_ok, VirtioQueue.logged, hused, ofExcept]
  exact ⟨_, rfl, rfl⟩

theorem returns_call (api : VirtioQueue Q G C R W E) (vq : VirtQueue Q) (guest : G) :
    (vq.call api guest : Res (VhostError E) Unit).Returns := by
  unfold call
  split
  · exact Res.returns_err _
  · split
    · cases api.notify guest with
      | ok u => exact Res.returns_ok _
      | error e => exact Res.returns_err _
    · exact Res.returns_ok _

variable (hapi : api.Lawful left content room) (hfuel : 2 ^ 20 ≤ fuel)
  (hused : ∀ queue guest head len, (api.addUsed queue guest head len).1 = .ok ())

include hapi hfuel hused

/-- **A batch of good chains** is sent and returned. -/
theorem sendChains_sent (switchPort : Nat) : ∀ (chains : List C) (tx : Tx Q (G × List (BitVec 16))),
    (∀ chain ∈ chains, ∀ guest, ∃ r, api.reader chain guest = .ok r ∧ left r = bytes chain) →
    (∀ chain ∈ chains, Sendable (bytes chain)) →
      ∃ tx', sendChains api.logged fuel switchPort chains tx = some (.ok (), tx') ∧
        tx'.guest.2 = tx.guest.2 ++ chains.map api.headIndex ∧
        handed api.logged fuel switchPort chains tx = chains.map fun chain => (bytes chain).drop 12
  | [], tx, _, _ => ⟨tx, rfl, (List.append_nil _).symm, rfl⟩
  | chain :: chains, tx, hreader, hgood => by
    obtain ⟨r, hr, hleft⟩ := hreader chain List.mem_cons_self tx.guest.1
    obtain ⟨hlong, htakes⟩ := (sendable_iff _).1 (hgood chain List.mem_cons_self)
    have hframe : chainFrame api.logged fuel tx.guest chain = some ((bytes chain).drop 12) := by
      rw [chainFrame_long hapi.logged hfuel (show api.logged.reader chain tx.guest = .ok r from hr) (by rwa [hleft]),
        hleft]
    obtain ⟨tx₁, hsend, hlog⟩ := sendFrame_taken hused htakes switchPort chain tx
    obtain ⟨tx', hsends, hlogs, hhanded⟩ := sendChains_sent switchPort chains tx₁
      (fun c hc => hreader c (List.mem_cons_of_mem _ hc)) (fun c hc => hgood c (List.mem_cons_of_mem _ hc))
    refine ⟨tx', ?_, ?_, ?_⟩
    · rw [sendChains, sendChain_frame_eq hframe, hsend]
      exact hsends
    · rw [hlogs, hlog, List.append_assoc]
      rfl
    · rw [handed, hframe, sendChain_frame_eq hframe, hsend]
      simp only [hhanded, List.map_cons]

/-- **A batch with a bad chain** strands it and the chains behind it. -/
theorem sendChains_strands (switchPort : Nat) : ∀ (chains : List C) (tx : Tx Q (G × List (BitVec 16))),
    (∀ chain ∈ chains, ∀ guest, ∃ r, api.reader chain guest = .ok r ∧ left r = bytes chain) →
    (¬ ∀ chain ∈ chains, Sendable (bytes chain)) →
      ∃ r tx' returned, sendChains api.logged fuel switchPort chains tx = some (r, tx') ∧ r ≠ .ok () ∧
        tx'.guest.2 = tx.guest.2 ++ returned ∧ returned.length < chains.length
  | [], tx, _, hbad => absurd (by simp) hbad
  | chain :: chains, tx, hreader, hbad => by
    obtain ⟨r, hr, hleft⟩ := hreader chain List.mem_cons_self tx.guest.1
    have hr' : api.logged.reader chain tx.guest = .ok r := hr
    have hpos : ([] : List (BitVec 16)).length < (chain :: chains).length := by simp
    rw [sendChains]
    by_cases hlen : (left r).length < 12
    · rw [sendChain_short hapi.logged hfuel hr' hlen]
      exact ⟨_, tx, [], rfl, by simp, (List.append_nil _).symm, hpos⟩
    · rw [sendChain_frame_eq (chainFrame_long hapi.logged hfuel hr' hlen)]
      by_cases htakes : VirtioSwitch.takes ((left r).drop 12) = true
      · obtain ⟨tx₁, hsend, hlog⟩ := sendFrame_taken hused htakes switchPort chain tx
        -- this chain is sent, so that the bad one is behind it
        have hrest : ¬ ∀ c ∈ chains, Sendable (bytes c) := by
          intro hgood
          refine hbad fun c hc => ?_
          rcases List.mem_cons.1 hc with rfl | hc
          · exact (sendable_iff _).2 (by rw [← hleft]; exact ⟨hlen, htakes⟩)
          · exact hgood c hc
        obtain ⟨r', tx', returned, hsends, hno, hlogs, hlt⟩ := sendChains_strands switchPort chains tx₁
          (fun c hc => hreader c (List.mem_cons_of_mem _ hc)) hrest
        rw [hsend]
        refine ⟨r', tx', api.headIndex chain :: returned, hsends, hno, ?_, by simpa using hlt⟩
        rw [hlogs, hlog, List.append_assoc]
        rfl
      · rw [sendFrame_refused htakes]
        exact ⟨_, tx, [], rfl, by simp, (List.append_nil _).symm, hpos⟩

end Batch

/-- **When a kick is harmless.**  Exactly when every chain it collects holds a virtio-net header and a frame the switch
takes. -/
theorem kickTx_harmless_iff (api : VirtioQueue Q G C R W E) (left : R → List Byte) (content : W → List Byte)
    (room : W → Nat) (bytes : C → List Byte) (hapi : api.Lawful left content room)
    (hused : ∀ queue guest head len, (api.addUsed queue guest head len).1 = .ok ()) (fuel : Nat) (hfuel : 2 ^ 20 ≤ fuel)
    (vq : VirtQueue Q) (tx : Tx Q G) (kick : List Byte) (switchPort : Nat) (chains : List C) (queue : Q)
    (hkick : (checkKick kick : Res (VhostError E) Unit) = .ok ()) (hmapped : vq.mapped = true)
    (hiter : api.iter tx.queue tx.guest = .ok (chains, queue))
    (hreader : ∀ chain ∈ chains, ∀ guest, ∃ r, api.reader chain guest = .ok r ∧ left r = bytes chain) :
    Harmless api fuel vq tx kick switchPort chains queue bytes ↔ ∀ chain ∈ chains, Sendable (bytes chain) := by
  have hkicked : kickTx api.logged fuel vq ⟨tx.switch, tx.queue, tx.guest, []⟩ kick switchPort =
      (sendChains api.logged fuel switchPort chains ⟨tx.switch, queue, tx.guest, []⟩).map fun x =>
        Res.andThen x fun _ tx => (vq.call api.logged tx.guest, tx) := by
    unfold kickTx
    simp only [hkick, hmapped, Bool.not_true, Bool.false_eq_true, if_false, VirtioQueue.logged, hiter]
  unfold Harmless
  rw [hkicked]
  constructor
  · rintro ⟨r, tx', hcall, -, hreturned, -⟩
    by_contra hbad
    obtain ⟨r₁, tx₁, returned, hsends, hno, hlog, hlt⟩ :=
      sendChains_strands hapi hfuel hused switchPort chains ⟨tx.switch, queue, tx.guest, []⟩ hreader hbad
    rw [hsends, Option.map_some, Option.some.injEq] at hcall
    have htx : tx₁ = tx' := by
      cases r₁ with
      | ok u => exact absurd rfl hno
      | err e => cases hcall; rfl
      | panic p => cases hcall; rfl
    rw [← htx, hlog, List.nil_append] at hreturned
    have hlen := hreturned.length_eq
    rw [List.length_map] at hlen
    omega
  · intro hgood
    obtain ⟨tx', hsends, hlog, hhanded⟩ :=
      sendChains_sent hapi hfuel hused switchPort chains ⟨tx.switch, queue, tx.guest, []⟩ hreader hgood
    rw [hsends, Option.map_some]
    refine ⟨_, _, rfl, ?_, ?_, by rw [hhanded]⟩
    · exact returns_call api.logged vq tx'.guest
    · show tx'.guest.2.Perm _
      rw [hlog, List.nil_append]

/-- A chain with a virtio-net header and a frame. -/
def goodChain : RingChain := ⟨4, List.replicate 12 0 ++ (guestFrame.wire ++ [7]), 0⟩

/-- A transmit ring with these chains. -/
def txRing (avail : List RingChain) : Tx Nat RingGuest := ⟨⟨[[], []], Table.empty⟩, 0, ⟨avail, []⟩⟩

theorem kickTx_harmless_iff_of_one :
    Harmless ringQueue (2 ^ 20) ⟨true, 0, true, true⟩ (txRing [goodChain]) [1, 0, 0, 0, 0, 0, 0, 0] 0 [goodChain] 1
      (fun chain => chain.readable.take (2 ^ 32 - 1)) := by
  refine (kickTx_harmless_iff ringQueue id Prod.snd Prod.fst (fun chain => chain.readable.take (2 ^ 32 - 1))
    ringQueue_lawful (fun _ _ _ _ => rfl) (2 ^ 20) (Nat.le_refl _) ⟨true, 0, true, true⟩ (txRing [goodChain])
    [1, 0, 0, 0, 0, 0, 0, 0] 0 [goodChain] 1 rfl rfl rfl (fun _ _ _ => ⟨_, rfl, rfl⟩)).2 ?_
  intro chain hchain
  rw [List.mem_singleton.1 hchain]
  exact ⟨by decide, .ipv4, by decide⟩

/-- **One bad frame harms the ring.**  A chain of three bytes in front of a good one: the call ends with an error and
returns neither; a frame of five bytes: it panics. -/
theorem short_chain_strands_batch :
    ¬ Harmless ringQueue (2 ^ 20) ⟨true, 0, true, true⟩ (txRing [⟨3, [1, 2, 3], 0⟩, goodChain])
        [1, 0, 0, 0, 0, 0, 0, 0] 0 [⟨3, [1, 2, 3], 0⟩, goodChain] 2 (fun chain => chain.readable.take (2 ^ 32 - 1)) ∧
      (kickTx ringQueue (2 ^ 20) ⟨true, 0, true, true⟩ (txRing [⟨3, List.replicate 17 0, 0⟩, goodChain])
        [1, 0, 0, 0, 0, 0, 0, 0] 0).map Prod.fst = some (.panic .unwrap) := by
  refine ⟨?_, rfl⟩
  rintro ⟨r, tx', hcall, -, hreturned, -⟩
  cases hcall
  exact absurd hreturned.length_eq (by decide)

end VirtQueue
end Oathgate
