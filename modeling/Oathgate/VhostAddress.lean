import Mathlib.Data.List.Pairwise
import Oathgate.VhostControl
/-!
# VhostAddress — from host to guest addresses (`oathgate-vhost`: `types.rs`, `device.rs`)

The first mapping that has an address translates it, and a mapping has its end address too, which is not in it.  Where
the next region starts there and stands later in the list, its first byte is translated with the region before
(`guest_address_iff`).
-/
namespace Oathgate

open Lib

variable {Q S : Type}

namespace GuestMapping

/-- **A mapping that `new` made of a region in the guest's address space.** -/
structure Sound (m : GuestMapping) : Prop where
  host : m.hostEnd.toNat = m.hostStart.toNat + m.size.toNat
  guest : m.guest.toNat + m.size.toNat < 2 ^ 64

theorem sound_new {ε : Type} {host guest size : BitVec 64} {m : GuestMapping}
    (h : (new host guest size : Res ε GuestMapping) = .ok m) (hguest : guest.toNat + size.toNat < 2 ^ 64) :
    m.Sound := by
  unfold new addU64 at h
  split at h
  · rename_i hhost
    cases h
    exact ⟨by rw [BitVec.toNat_add, Nat.mod_eq_of_lt hhost], hguest⟩
  · cases h

/-- The address is one of the region's. -/
def Holds (m : GuestMapping) (v : BitVec 64) : Prop := m.hostStart ≤ v ∧ v < m.hostEnd

/-- The test of `guest_addr`. -/
def Reaches (m : GuestMapping) (v : BitVec 64) : Prop := m.hostStart ≤ v ∧ v ≤ m.hostEnd

instance (m : GuestMapping) (v : BitVec 64) : Decidable (m.Holds v) := inferInstanceAs (Decidable (_ ∧ _))

instance (m : GuestMapping) (v : BitVec 64) : Decidable (m.Reaches v) := inferInstanceAs (Decidable (_ ∧ _))

/-- Where the region has the address in the guest. -/
def inGuest (m : GuestMapping) (v : BitVec 64) : BitVec 64 := m.guest + (v - m.hostStart)

theorem reaches_iff {m : GuestMapping} {v : BitVec 64} (h : m.Sound) (hsize : m.size ≠ 0) :
    m.Reaches v ↔ m.Holds v ∨ m.hostEnd = v := by
  have hpos : m.size.toNat ≠ 0 := fun h0 => hsize (BitVec.eq_of_toNat_eq h0)
  have hhost := h.host
  have hend : m.hostEnd = v ↔ m.hostEnd.toNat = v.toNat := BitVec.toNat_inj.symm
  unfold Reaches Holds
  rw [hend]
  simp only [BitVec.le_def, BitVec.lt_def]
  omega

theorem Holds.reaches {m : GuestMapping} {v : BitVec 64} (h : m.Holds v) : m.Reaches v := by
  obtain ⟨hstart, hend⟩ := h
  exact ⟨hstart, BitVec.le_of_lt hend⟩

theorem not_holds_end (m : GuestMapping) : ¬ m.Holds m.hostEnd := fun h => BitVec.lt_irrefl _ h.2

/-- **A mapping translates what it reaches.** -/
theorem guestAddr_eq {ε : Type} {m : GuestMapping} (h : m.Sound) (v : BitVec 64) :
    (m.guestAddr v : Res ε (Option (BitVec 64))) = .ok (if m.Reaches v then some (m.inGuest v) else none) := by
  unfold guestAddr
  by_cases hreach : m.hostStart ≤ v ∧ v ≤ m.hostEnd
  · have hhost := h.host
    have hguest := h.guest
    have hoffset : (v - m.hostStart).toNat = v.toNat - m.hostStart.toNat := BitVec.toNat_sub_of_le hreach.1
    have hle := BitVec.le_def.1 hreach.2
    unfold addU64
    rw [if_pos hreach, if_pos (show m.Reaches v from hreach), if_pos (by omega), Res.bind_ok, BitVec.add_comm]
    rfl
  · rw [if_neg hreach, if_neg (show ¬ m.Reaches v from hreach)]

end GuestMapping

namespace Device

open GuestMapping

theorem findGuestAddr_eq {ε : Type} (v : BitVec 64) : ∀ ms : List GuestMapping, (∀ m ∈ ms, m.Sound) →
    (findGuestAddr v ms : Res ε (Option (BitVec 64))) = .ok ((ms.find? fun m => decide (m.Reaches v)).map (·.inGuest v))
  | [], _ => rfl
  | m :: ms, h => by
    have hrest := findGuestAddr_eq (ε := ε) v ms fun x hx => h x (List.mem_cons_of_mem m hx)
    unfold findGuestAddr
    rw [guestAddr_eq (h m List.mem_cons_self), Res.bind_ok, List.find?_cons]
    by_cases hreach : m.Reaches v
    · simp [hreach]
    · simp [hreach, hrest]

/-- **The first mapping that reaches an address translates it.** -/
theorem computeGuestAddress_eq {d : Device Q S} (h : ∀ m ∈ d.mappings, m.Sound) (v : BitVec 64) :
    d.computeGuestAddress v =
      match d.mappings.find? fun m => decide (m.Reaches v) with
      | some m => .ok (m.inGuest v)
      | none => .err (.noHostToGuestMappingFound v) := by
  unfold computeGuestAddress
  rw [findGuestAddr_eq v d.mappings h, Res.bind_ok]
  cases d.mappings.find? fun m => decide (m.Reaches v) with
  | none => rfl
  | some m => rfl

theorem computeGuestAddress_returns {d : Device Q S} (h : ∀ m ∈ d.mappings, m.Sound) (v : BitVec 64) :
    (d.computeGuestAddress v).Returns := by
  rw [computeGuestAddress_eq h v]
  split
  · exact Res.returns_ok _
  · exact Res.returns_err _

/-! ## Separate regions -/

def Apart (m m' : GuestMapping) : Prop := m.hostEnd ≤ m'.hostStart ∨ m'.hostEnd ≤ m.hostStart

instance : Std.Symm Apart where
  symm _ _ h := h.symm

/-- Mappings of regions that are not empty and whose host ranges are disjoint. -/
structure Separate (ms : List GuestMapping) : Prop where
  sound : ∀ m ∈ ms, m.Sound
  nonempty : ∀ m ∈ ms, m.size ≠ 0
  apart : ms.Pairwise Apart

/-- **What a translation is**: an address of a region becomes the address with the same offset in the guest, and any
other is refused. -/
def Translates (ms : List GuestMapping) (v : BitVec 64) (r : Res MemoryError (BitVec 64)) : Prop :=
  (∀ m ∈ ms, m.Holds v → r = .ok (m.guest + (v - m.hostStart))) ∧ ((∀ m ∈ ms, ¬ m.Holds v) → ∃ e, r = .err e)

/-- Two regions apart have no address in common, nor the same end. -/
theorem apart_false {ms : List GuestMapping} (h : Separate ms) {m m' : GuestMapping} (hm : m ∈ ms) (hm' : m' ∈ ms)
    {v : BitVec 64} (hboth : (m.Holds v ∧ m'.Holds v) ∨ (m.hostEnd = v ∧ m'.hostEnd = v)) : ¬ Apart m m' := by
  have hpos : m.size.toNat ≠ 0 := fun h0 => h.nonempty m hm (BitVec.eq_of_toNat_eq h0)
  have hpos' : m'.size.toNat ≠ 0 := fun h0 => h.nonempty m' hm' (BitVec.eq_of_toNat_eq h0)
  have hhost := (h.sound m hm).host
  have hhost' := (h.sound m' hm').host
  unfold Apart Holds at *
  simp only [BitVec.le_def, BitVec.lt_def] at *
  rcases hboth with ⟨hv, hv'⟩ | ⟨rfl, hv'⟩
  · omega
  · have hend := congrArg BitVec.toNat hv'
    omega

theorem Separate.unique {ms : List GuestMapping} (h : Separate ms) {m m' : GuestMapping} (hm : m ∈ ms) (hm' : m' ∈ ms)
    {v : BitVec 64} (hboth : (m.Holds v ∧ m'.Holds v) ∨ (m.hostEnd = v ∧ m'.hostEnd = v)) : m = m' := by
  by_contra hne
  exact apart_false h hm hm' hboth (h.apart.forall hm hm' hne)

/-- The region that holds the end of another starts there. -/
theorem Separate.starts {ms : List GuestMapping} (h : Separate ms) {m m' : GuestMapping} (hm : m ∈ ms) (hm' : m' ∈ ms)
    (hholds : m'.Holds m.hostEnd) : m'.hostStart = m.hostEnd := by
  have hne : m ≠ m' := by
    rintro rfl
    exact not_holds_end m hholds
  have hpos : m.size.toNat ≠ 0 := fun h0 => h.nonempty m hm (BitVec.eq_of_toNat_eq h0)
  have hhost := (h.sound m hm).host
  have hapart := h.apart.forall hm hm' hne
  unfold Apart at hapart
  unfold Holds at hholds
  simp only [BitVec.le_def, BitVec.lt_def] at hapart hholds
  apply BitVec.eq_of_toNat_eq
  omega

theorem inGuest_hostEnd {m : GuestMapping} (h : m.Sound) : m.inGuest m.hostEnd = m.guest + m.size := by
  have hend : m.hostEnd = m.hostStart + m.size := by
    have hhost := h.host
    have hlt := m.hostEnd.isLt
    apply BitVec.eq_of_toNat_eq
    rw [BitVec.toNat_add]
    omega
  unfold GuestMapping.inGuest
  rw [hend, BitVec.add_comm m.hostStart, BitVec.add_sub_cancel]

/-- **The first that reaches the end of a region** is the region itself, unless one before it holds that address. -/
theorem find_end {ms pre post : List GuestMapping} {m : GuestMapping} (h : Separate ms) (hms : ms = pre ++ m :: post)
    (hpre : ∀ m' ∈ pre, ¬ m'.Holds m.hostEnd) : (ms.find? fun m' => decide (m'.Reaches m.hostEnd)) = some m := by
  have hm : m ∈ ms := by
    rw [hms]
    exact List.mem_append_right pre List.mem_cons_self
  have hreach : m.Reaches m.hostEnd := (reaches_iff (h.sound m hm) (h.nonempty m hm)).2 (Or.inr rfl)
  rw [List.find?_eq_some_iff_append]
  refine ⟨by simpa using hreach, pre, post, hms, ?_⟩
  intro m₀ hm₀
  have hmem : m₀ ∈ ms := by
    rw [hms]
    exact List.mem_append_left _ hm₀
  have hapart := h.apart
  rw [hms, List.pairwise_append] at hapart
  have hnot : ¬ m₀.Reaches m.hostEnd := by
    intro hreach₀
    rcases (reaches_iff (h.sound m₀ hmem) (h.nonempty m₀ hmem)).1 hreach₀ with hholds | hend
    · exact hpre m₀ hm₀ hholds
    · exact apart_false h hmem hm (Or.inr ⟨hend, rfl⟩) (hapart.2.2 m₀ hm₀ m List.mem_cons_self)
  simpa using hnot

/-- The address of a region is translated with it when it is the first that reaches the address. -/
theorem translates_holder {ms : List GuestMapping} (h : Separate ms) {m : GuestMapping} (hm : m ∈ ms) {v : BitVec 64}
    (hholds : m.Holds v) : Translates ms v (.ok (m.inGuest v)) := by
  refine ⟨?_, fun hnone => absurd hholds (hnone m hm)⟩
  intro m' hm' hholds'
  rw [h.unique hm' hm (Or.inl ⟨hholds', hholds⟩)]
  rfl

theorem translates_none {ms : List GuestMapping} {v : BitVec 64}
    (hfind : (ms.find? fun m => decide (m.Reaches v)) = none) (e : MemoryError) : Translates ms v (.err e) := by
  refine ⟨?_, fun _ => ⟨e, rfl⟩⟩
  intro m hm hholds
  exact absurd (by simpa using hholds.reaches) (List.find?_eq_none.1 hfind m hm)

/-- **The end of a region is translated with it** as it should be when the region that starts there goes on in the
guest where the first one ends. -/
theorem translates_end_iff {ms : List GuestMapping} (h : Separate ms) {m : GuestMapping} (hm : m ∈ ms) :
    Translates ms m.hostEnd (.ok (m.inGuest m.hostEnd)) ↔
      ∃ m' ∈ ms, m'.Holds m.hostEnd ∧ m'.guest = m.guest + m.size := by
  have hstart : ∀ m' ∈ ms, m'.Holds m.hostEnd → m'.inGuest m.hostEnd = m'.guest := by
    intro m' hm' hholds
    unfold GuestMapping.inGuest
    rw [← h.starts hm hm' hholds, BitVec.sub_self, BitVec.add_zero]
  have hend := inGuest_hostEnd (h.sound m hm)
  constructor
  · intro htrans
    by_cases hholder : ∃ m' ∈ ms, m'.Holds m.hostEnd
    · obtain ⟨m', hm', hholds⟩ := hholder
      have hok := htrans.1 m' hm' hholds
      rw [Res.ok.injEq, hend] at hok
      exact ⟨m', hm', hholds, (hstart m' hm' hholds).symm.trans hok.symm⟩
    · obtain ⟨e, he⟩ := htrans.2 fun m' hm' hholds => hholder ⟨m', hm', hholds⟩
      cases he
  · rintro ⟨m', hm', hholds, hguest⟩
    rw [hend, ← hguest, ← hstart m' hm' hholds]
    exact translates_holder h hm' hholds

/-- **An address is translated as it should be exactly when it is not the end of a region**, or the region that starts
there stands earlier in the list or goes on in the guest where the first one ends. -/
theorem guest_address_iff (d : Device Q S) (h : Separate d.mappings) (v : BitVec 64) :
    Translates d.mappings v (d.computeGuestAddress v) ↔
      ∀ pre m post, d.mappings = pre ++ m :: post → m.hostEnd = v →
        (∃ m' ∈ pre, m'.Holds v) ∨ ∃ m' ∈ post, m'.Holds v ∧ m'.guest = m.guest + m.size := by
  rw [computeGuestAddress_eq h.sound]
  constructor
  · rintro htrans pre m post hms rfl
    by_cases hpre : ∃ m' ∈ pre, m'.Holds m.hostEnd
    · exact Or.inl hpre
    have hm : m ∈ d.mappings := by
      rw [hms]
      exact List.mem_append_right pre List.mem_cons_self
    rw [find_end h hms fun m' hm' hholds => hpre ⟨m', hm', hholds⟩] at htrans
    obtain ⟨m', hm', hholds, hguest⟩ := (translates_end_iff h hm).1 htrans
    rw [hms, List.mem_append, List.mem_cons] at hm'
    rcases hm' with hm' | rfl | hm'
    · exact Or.inl ⟨m', hm', hholds⟩
    · exact absurd hholds (not_holds_end m')
    · exact Or.inr ⟨m', hm', hholds, hguest⟩
  · intro hcond
    cases hfind : d.mappings.find? fun m => decide (m.Reaches v) with
    | none => exact translates_none hfind _
    | some m =>
      obtain ⟨hreach, pre, post, hms, hpre⟩ := List.find?_eq_some_iff_append.1 hfind
      have hm : m ∈ d.mappings := List.mem_of_find?_eq_some hfind
      rcases (reaches_iff (h.sound m hm) (h.nonempty m hm)).1 (by simpa using hreach) with hholds | rfl
      · exact translates_holder h hm hholds
      · rcases hcond pre m post hms rfl with ⟨m', hm', hholds⟩ | ⟨m', hm', hholds, hguest⟩
        · exact absurd (by simpa using hholds.reaches) (by simpa using hpre m' hm')
        · have hmem : m' ∈ d.mappings := by
            rw [hms]
            exact List.mem_append_right pre (List.mem_cons_of_mem m hm')
          exact (translates_end_iff h hm).2 ⟨m', hmem, hholds, hguest⟩

/-- Memory below a hole in the guest, and memory above it that the host has right behind. -/
def belowHole : GuestMapping := ⟨0x7000, 0x8000, 0x0, 0x1000⟩

def aboveHole : GuestMapping := ⟨0x8000, 0x9000, 0x100000, 0x1000⟩

/-- A device with some mappings. -/
def mappedBy (ms : List GuestMapping) : Device Unit Unit := ⟨none, [], ms, 0, 0, Table.empty, 0, (), []⟩

theorem separate_pair {m m' : GuestMapping} (hm : m.Sound ∧ m.size ≠ 0) (hm' : m'.Sound ∧ m'.size ≠ 0)
    (h : Apart m m') : Separate [m, m'] := by
  refine ⟨?_, ?_, List.pairwise_pair.2 h⟩
  · exact List.forall_mem_cons.2 ⟨hm.1, List.forall_mem_singleton.2 hm'.1⟩
  · exact List.forall_mem_cons.2 ⟨hm.2, List.forall_mem_singleton.2 hm'.2⟩

theorem belowHole_sound : belowHole.Sound ∧ belowHole.size ≠ 0 := ⟨⟨by decide, by decide⟩, by decide⟩

theorem aboveHole_sound : aboveHole.Sound ∧ aboveHole.size ≠ 0 := ⟨⟨by decide, by decide⟩, by decide⟩

theorem guest_address_of_last_byte :
    Translates [belowHole, aboveHole] 0x7FFF ((mappedBy [belowHole, aboveHole]).computeGuestAddress 0x7FFF) := by
  refine (guest_address_iff (mappedBy [belowHole, aboveHole])
    (separate_pair belowHole_sound aboveHole_sound (Or.inl (by decide))) 0x7FFF).2 ?_
  intro pre m post hms hend
  have hm : m ∈ [belowHole, aboveHole] := by
    have hmem : m ∈ pre ++ m :: post := List.mem_append_right pre List.mem_cons_self
    rw [← hms] at hmem
    exact hmem
  simp only [List.mem_cons, List.not_mem_nil, or_false] at hm
  rcases hm with rfl | rfl
  · exact absurd hend (by decide)
  · exact absurd hend (by decide)

/-- **The first byte above the hole** is translated to the hole. -/
theorem first_byte_in_hole :
    (mappedBy [belowHole, aboveHole]).computeGuestAddress 0x8000 = .ok 0x1000 ∧
      ¬ ∀ (d : Device Unit Unit) (v : BitVec 64), Separate d.mappings →
        Translates d.mappings v (d.computeGuestAddress v) := by
  have hcode : (mappedBy [belowHole, aboveHole]).computeGuestAddress 0x8000 = .ok 0x1000 := by decide
  refine ⟨hcode, ?_⟩
  intro h
  have htrans := h (mappedBy [belowHole, aboveHole]) 0x8000
    (separate_pair belowHole_sound aboveHole_sound (Or.inl (by decide)))
  have hright := htrans.1 aboveHole (List.mem_cons_of_mem _ List.mem_cons_self) (by decide)
  rw [hcode] at hright
  exact absurd hright (by decide)

end Device
end Oathgate
