import Oathgate.VhostAddress
import Oathgate.VhostDevice
import Oathgate.VhostPayload
/-!
# VhostVring — the addresses of a ring (`oathgate-vhost`: `device.rs`, `SET_VRING_ADDR`)

The three addresses are translated before the ring is looked up, and the ring takes them all at once.  No translation
panics on the mappings a device can have: `GuestRegionMmap::new` refuses a region that reaches past the guest's last
address, and a mapping is pushed behind it only.
-/
namespace Oathgate

open Lib

variable {Q S E : Type}

/-- **The halves of an address** come together to it. -/
theorem Vring.high_append_low (x : BitVec 64) : Vring.high x ++ Vring.low x = x := by
  have hmask : ∀ y m : BitVec 64, m.toNat = 2 ^ 32 - 1 → (y &&& m).toNat = y.toNat % 2 ^ 32 := by
    intro y m hm
    rw [BitVec.toNat_and, hm, Nat.and_two_pow_sub_one_eq_mod]
  have hlow : (Vring.low x).toNat = x.toNat % 2 ^ 32 := by
    unfold Vring.low
    rw [BitVec.toNat_setWidth, hmask x _ rfl]
    omega
  have hhigh : (Vring.high x).toNat = x.toNat / 2 ^ 32 := by
    have hlt := x.isLt
    unfold Vring.high
    rw [BitVec.toNat_setWidth, hmask _ _ rfl, BitVec.toNat_ushiftRight, Nat.shiftRight_eq_div_pow]
    omega
  apply BitVec.eq_of_toNat_eq
  rw [toNat_concat, hhigh, hlow]
  omega

namespace Device

/-! ## The message -/

/-- **The ring the payload names has its three addresses**, translated, in its own fields and by halves in its queue;
the other rings and the rest of the device are as they were. -/
def AddressesSet (sys : VhostSystem Q S E) (pkt : List Byte) (d d' : Device Q S) : Prop :=
  ∃ vq desc avail used, d.queues[(le32At pkt 0).toNat]? = some vq ∧
    d.computeGuestAddress (le64At pkt 8) = .ok desc ∧ d.computeGuestAddress (le64At pkt 24) = .ok avail ∧
    d.computeGuestAddress (le64At pkt 16) = .ok used ∧
    (∃ descLow descHigh availLow availHigh usedLow usedHigh : BitVec 32,
      descHigh ++ descLow = desc ∧ availHigh ++ availLow = avail ∧ usedHigh ++ usedLow = used ∧
      d'.queues[(le32At pkt 0).toNat]? =
        some { vq with
          descTable := desc
          availRing := avail
          usedRing := used
          queue := sys.setUsedRingAddress
            (sys.setAvailRingAddress (sys.setDescTableAddress vq.queue (some descLow) (some descHigh))
              (some availLow) (some availHigh))
            (some usedLow) (some usedHigh) }) ∧
    (∀ i, i ≠ (le32At pkt 0).toNat → d'.queues[i]? = d.queues[i]?) ∧ d' = { d with queues := d'.queues }

theorem read_vringAddr {hdr : VHostHeader} {pkt : List Byte} (hpkt : hdr.payload = some pkt) (hlen : 40 ≤ pkt.length) :
    hdr.read VRingAddr =
      .ok { index := le32At pkt 0, flags := le32At pkt 4, descUserAddr := le64At pkt 8, usedUserAddr := le64At pkt 16,
            availUserAddr := le64At pkt 24, logGuestAddr := le64At pkt 32 } := by
  unfold VHostHeader.read
  rw [hpkt]
  simp only [TryFromPayload.tryFromPayload]
  rw [if_neg (by omega), le32In_eq pkt 0 (by omega), le32In_eq pkt 4 (by omega), le64In_eq pkt 8 (by omega),
    le64In_eq pkt 16 (by omega), le64In_eq pkt 24 (by omega), le64In_eq pkt 32 (by omega)]
  rfl

theorem parseMsg_vringAddr (sys : VhostSystem Q S E) {hdr : VHostHeader}
    (hreq : Request.ofTy hdr.ty = some .setVringAddr) (d : Device Q S) :
    parseMsg sys hdr d = setVringAddr sys hdr d := by
  unfold parseMsg
  rw [hreq]

/-- **A message that fails leaves the device alone**, and one that succeeds sets the addresses of its ring. -/
theorem setVringAddr_stopsOr (sys : VhostSystem Q S E) {hdr : VHostHeader} {pkt : List Byte}
    (hpkt : hdr.payload = some pkt) (hlen : 40 ≤ pkt.length) (d : Device Q S) :
    Res.StopsOr d (fun x => x.1 = .ok () ∧ AddressesSet sys pkt d x.2) (setVringAddr sys hdr d) := by
  unfold setVringAddr
  split
  · exact Or.inl ⟨fun _ h => (by cases h), rfl⟩
  · refine Res.stopsOr_andThen rfl ?_
    intro addr haddr
    simp only [payload, read_vringAddr hpkt hlen, Res.mapErr_ok, Res.ok.injEq] at haddr
    subst haddr
    refine Res.stopsOr_andThen rfl ?_
    rintro ⟨desc, avail, used⟩ htranslated
    simp only [Res.mapErr_eq_ok, Res.bind_eq_ok, Res.pure_eq, Res.ok.injEq, Prod.mk.injEq] at htranslated
    obtain ⟨_, hdesc, _, havail, _, hused, rfl, rfl, rfl⟩ := htranslated
    unfold onRing
    cases hvq : d.queues[(le32At pkt 0).toNat]? with
    | none => exact Or.inl ⟨fun _ h => (by cases h), rfl⟩
    | some vq =>
      obtain ⟨hlt, -⟩ := List.getElem?_eq_some_iff.1 hvq
      refine Or.inr ⟨rfl, vq, _, _, _, hvq, hdesc, havail, hused, ?_, ?_, rfl⟩
      · refine ⟨_, _, _, _, _, _, Vring.high_append_low _, Vring.high_append_low _, Vring.high_append_low _, ?_⟩
        simp only [List.getElem?_set_self hlt]
        rfl
      · intro i hi
        exact List.getElem?_set_ne hi.symm

/-- **On sound mappings the message returns.** -/
theorem setVringAddr_returns (sys : VhostSystem Q S E) {hdr : VHostHeader} {pkt : List Byte}
    (hpkt : hdr.payload = some pkt) (hlen : 40 ≤ pkt.length) {d : Device Q S} (h : ∀ m ∈ d.mappings, m.Sound) :
    (setVringAddr sys hdr d).1.Returns := by
  have hfind := computeGuestAddress_returns h
  unfold setVringAddr
  split
  · exact Res.returns_err _
  · simp only [payload, read_vringAddr hpkt hlen, Res.mapErr_ok, Res.andThen_ok]
    rw [Res.returns_andThen]
    constructor
    · rw [Res.returns_mapErr, Res.returns_bind]
      refine ⟨hfind _, fun desc _ => ?_⟩
      rw [Res.returns_bind]
      refine ⟨hfind _, fun avail _ => ?_⟩
      rw [Res.returns_bind]
      exact ⟨hfind _, fun used _ => Res.returns_ok _⟩
    · rintro ⟨desc, avail, used⟩ -
      unfold onRing
      split
      · exact Res.returns_err _
      · exact Res.returns_ok _

/-! ## The mappings of a device -/

/-- `GuestRegionMmap::new` refuses a region that reaches past the last address of the guest. -/
def RefusesOverflow (sys : VhostSystem Q S E) : Prop :=
  ∀ gm, sys.guestRegion gm = .ok () → gm.guest.toNat + gm.size.toNat < 2 ^ 64

variable {sys : VhostSystem Q S E}

theorem mapRegion_guestRegion {region : MemoryRegionDescription} {fd : Nat} {s s' : S} {gm : GuestRegion}
    (h : mapRegion sys region fd s = (.ok gm, s')) : sys.guestRegion gm = .ok () := by
  unfold mapRegion at h
  simp only [Res.andThen_eq_ok] at h
  obtain ⟨_, _, _, _, _, _, ptr, _, _, _, _, _, _, _, hregion, h⟩ := h
  cases h
  rw [Prod.mk.injEq] at hregion
  cases hg : sys.guestRegion ⟨ptr, region.size, region.guestAddress⟩ with
  | ok u => rfl
  | error e =>
    rw [hg] at hregion
    cases hregion.1

/-- A mapping is pushed when its region is mapped and `GuestMapping::new` did not overflow. -/
theorem sound_mapRegions (hsys : RefusesOverflow sys) : ∀ (descs : List (MemoryRegionDescription × Nat))
    (regions : List GuestRegion) (d : Device Q S), (∀ m ∈ d.mappings, m.Sound) →
      ∀ m ∈ (mapRegions sys descs regions d).2.mappings, m.Sound
  | [], _, _, h => h
  | (region, fd) :: rest, regions, d, h => by
    unfold mapRegions
    refine Res.andThen_cases (P := fun x : Handled Q S E (List GuestRegion) => ∀ m ∈ x.2.mappings, m.Sound) ?_
      fun _ _ => h
    intro gm d₁ hgm
    rw [Prod.mk.injEq] at hgm
    obtain ⟨hgm, rfl⟩ := hgm
    refine Res.andThen_cases (P := fun x : Handled Q S E (List GuestRegion) => ∀ m ∈ x.2.mappings, m.Sound) ?_
      fun _ _ => h
    intro mapping d₂ hmapping
    rw [Prod.mk.injEq] at hmapping
    obtain ⟨hmapping, rfl⟩ := hmapping
    have hmap : mapRegion sys region fd d.sys = (.ok gm, (mapRegion sys region fd d.sys).2) :=
      Prod.ext hgm rfl
    obtain ⟨hsize, hguest⟩ := mapRegion_ok hmap
    have hfits := hsys gm (mapRegion_guestRegion hmap)
    rw [hsize, hguest] at hfits
    refine sound_mapRegions hsys rest _ _ ?_
    intro m hm
    rcases List.mem_append.1 hm with hm | hm
    · exact h m hm
    · rw [List.mem_singleton.1 hm]
      exact GuestMapping.sound_new hmapping hfits

/-- **A message keeps the mappings sound**, however it ends. -/
theorem sound_parseMsg (hsys : RefusesOverflow sys) (hdr : VHostHeader) {d : Device Q S}
    (h : ∀ m ∈ d.mappings, m.Sound) : ∀ m ∈ (parseMsg sys hdr d).2.mappings, m.Sound := by
  by_cases hmem : Request.ofTy hdr.ty = some .setMemTable
  · have hset : parseMsg sys hdr d = setMemTable sys hdr d := by
      unfold parseMsg
      rw [hmem]
    rw [hset]
    unfold setMemTable
    refine Res.andThen_keeps (P := fun d' : Device Q S => ∀ m ∈ d'.mappings, m.Sound) h fun table d₁ h₁ => ?_
    refine Res.andThen_keeps (P := fun d' : Device Q S => ∀ m ∈ d'.mappings, m.Sound) h₁ fun files d₂ h₂ => ?_
    dsimp only
    split
    · exact h₂
    · refine Res.andThen_keeps (P := fun d' : Device Q S => ∀ m ∈ d'.mappings, m.Sound)
        (sound_mapRegions hsys _ _ d₂ h₂) fun regions d₃ h₃ => ?_
      refine Res.andThen_keeps (P := fun d' : Device Q S => ∀ m ∈ d'.mappings, m.Sound) h₃ fun _ d₄ h₄ => ?_
      split
      · exact h₄
      · exact h₄
  · have hsame : (parseMsg sys hdr d).2.mappings = d.mappings := by
      refine parseMsg_keeps (P := fun d' : Device Q S => d'.mappings = d.mappings) ?_ hmem d rfl
      intro req _
      exact ⟨fun d₁ d₂ _ hm hd => hm.trans hd, fun d₁ idx vq g _ _ hd => hd⟩
    rw [hsame]
    exact h

end Device

/-! ## All-or-nothing -/

namespace Machine

open VirtQueue

variable {G C R W : Type} (sys : VhostSystem Q S E) (lib : Option (List GuestRegion) → VirtioQueue Q G C R W E)

/-- An event, however its handler ends. -/
def Moves (m : Machine Q S G) (e : Event G) (m' : Machine Q S G) : Prop :=
  ∃ (fuel : Nat) (r : Res (DeviceError E) Unit) (served : Served C), m.exec sys lib fuel e = some (r, m', served)

variable {sys lib}

/-- **An event keeps the mappings sound.** -/
theorem sound_moves (hsys : Device.RefusesOverflow sys) {m m' : Machine Q S G} {e : Event G}
    (hm : Moves sys lib m e m') (h : ∀ x ∈ m.dev.mappings, x.Sound) : ∀ x ∈ m'.dev.mappings, x.Sound := by
  obtain ⟨fuel, r, served, hexec⟩ := hm
  by_cases hmsg : ∃ hdr, e = .message hdr
  · obtain ⟨hdr, rfl⟩ := hmsg
    cases hexec
    exact Device.sound_parseMsg hsys hdr h
  · rw [(queueOnly_event (fun hdr he => hmsg ⟨hdr, he⟩) hexec).mappings]
    exact h

theorem sound_run (hsys : Device.RefusesOverflow sys) {deviceQueues : BitVec 8} {switch : VirtioSwitch} {s : S}
    {guest : G} {m₀ m : Machine Q S G} {es : List (Event G)} (hnew : new sys deviceQueues switch s guest = .ok m₀)
    (hrun : Run (Moves sys lib) m₀ es m) : ∀ x ∈ m.dev.mappings, x.Sound := by
  refine Run.invariant (I := fun _ m => ∀ x ∈ m.dev.mappings, x.Sound) ?_ ?_ hrun
  · unfold new at hnew
    rw [Res.bind_eq_ok] at hnew
    obtain ⟨dev, hdev, hnew⟩ := hnew
    cases hnew
    intro x hx
    rw [(Device.new_ok hdev).2.2] at hx
    cases hx
  · rintro es m e m' - h hmoves
    exact sound_moves hsys hmoves h

end Machine

/-- **The message is all or nothing**: an error and the device as it was, or the three addresses of the ring. -/
def Device.AllOrNothing (sys : VhostSystem Q S E) (hdr : VHostHeader) (pkt : List Byte) (d : Device Q S) : Prop :=
  ((∃ e, (d.parseMsg sys hdr).1 = .err e) ∧ (d.parseMsg sys hdr).2 = d) ∨
    ((d.parseMsg sys hdr).1 = .ok () ∧ Device.AddressesSet sys pkt d (d.parseMsg sys hdr).2)

/-- **`SET_VRING_ADDR` is all or nothing and keeps the rings apart**, in every state of a run of the device.  In any
other state of the fields it is, too, unless a translation overflows, and that panics with the device as it was. -/
theorem vring_addr_all_or_nothing {G C R W : Type} (sys : VhostSystem Q S E)
    (lib : Option (List GuestRegion) → VirtioQueue Q G C R W E) (hsys : Device.RefusesOverflow sys) (hdr : VHostHeader)
    (pkt : List Byte) (hty : Request.ofTy hdr.ty = some .setVringAddr) (hpkt : hdr.payload = some pkt)
    (hlen : 40 ≤ pkt.length) :
    (∀ (deviceQueues : BitVec 8) (switch : VirtioSwitch) (s : S) (guest : G) (m₀ m : Machine Q S G)
      (es : List (Event G)), Machine.new sys deviceQueues switch s guest = .ok m₀ →
      Run (Machine.Moves sys lib) m₀ es m → Device.AllOrNothing sys hdr pkt m.dev) ∧
    ∀ d : Device Q S, Device.AllOrNothing sys hdr pkt d ∨
      ((¬ ∀ m ∈ d.mappings, m.Sound) ∧ (d.parseMsg sys hdr).2 = d) := by
  have hany : ∀ d : Device Q S, (∀ m ∈ d.mappings, m.Sound) → Device.AllOrNothing sys hdr pkt d := by
    intro d hsound
    have hreturns := Device.setVringAddr_returns sys hpkt hlen hsound
    have hstops := Device.setVringAddr_stopsOr sys hpkt hlen d
    unfold Device.AllOrNothing
    rw [Device.parseMsg_vringAddr sys hty d]
    rcases hstops with ⟨hno, hsame⟩ | hset
    · refine Or.inl ⟨?_, hsame⟩
      cases hr : (d.setVringAddr sys hdr).1 with
      | ok u => exact absurd hr (hno u)
      | err e => exact ⟨e, rfl⟩
      | panic p => exact absurd hr (hreturns p)
    · exact Or.inr hset
  constructor
  · intro deviceQueues switch s guest m₀ m es hnew hrun
    exact hany m.dev (Machine.sound_run hsys hnew hrun)
  · intro d
    by_cases hsound : ∀ m ∈ d.mappings, m.Sound
    · exact Or.inl (hany d hsound)
    · rcases Device.setVringAddr_stopsOr sys hpkt hlen d with ⟨-, hsame⟩ | hset
      · refine Or.inr ⟨hsound, ?_⟩
        rw [Device.parseMsg_vringAddr sys hty d]
        exact hsame
      · refine Or.inl (Or.inr ?_)
        rw [Device.parseMsg_vringAddr sys hty d]
        exact hset

/-- The plain system, with the check of `GuestRegionMmap::new`. -/
def checkedSystem : VhostSystem (Bool × Nat) Unit Unit :=
  { Device.plainSystem with
    guestRegion := fun gm => if gm.guest.toNat + gm.size.toNat < 2 ^ 64 then .ok () else .error () }

theorem checkedSystem_refuses : Device.RefusesOverflow checkedSystem := by
  intro gm h
  by_contra hover
  have hrefused : checkedSystem.guestRegion gm = .error () := if_neg hover
  rw [hrefused] at h
  cases h

/-- The payload for ring 0 with its rings in the low region. -/
def addrPayload : List Byte :=
  toLe32 0 ++ toLe32 0 ++ toLe64 0x7000 ++ toLe64 0x7200 ++ toLe64 0x7100 ++ toLe64 0

theorem vring_addr_all_or_nothing_of_one :
    Machine.new checkedSystem 1 .new () ⟨[], []⟩ = .ok (Machine.alone Device.freshDevice ⟨[], []⟩ []) ∧
      Device.AllOrNothing checkedSystem ⟨9, 1, [], some addrPayload⟩ addrPayload Device.mappedDevice := by
  have hnew : Machine.new checkedSystem 1 .new () ⟨[], []⟩ = .ok (Machine.alone Device.freshDevice ⟨[], []⟩ []) := rfl
  have hrun : Run (Machine.Moves checkedSystem fun _ => readyQueue) (Machine.alone Device.freshDevice ⟨[], []⟩ [])
      [.message (Device.tableMsg Device.lowRegion)] (Machine.alone Device.mappedDevice ⟨[], []⟩ []) :=
    Run.single ⟨0, .ok (), .nothing, rfl⟩
  refine ⟨hnew, ?_⟩
  exact (vring_addr_all_or_nothing checkedSystem (fun _ => readyQueue) checkedSystem_refuses
    ⟨9, 1, [], some addrPayload⟩ addrPayload rfl rfl (by decide)).1 1 .new () ⟨[], []⟩ _ _ _ hnew hrun

end Oathgate
