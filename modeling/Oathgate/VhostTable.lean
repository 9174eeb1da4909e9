import Oathgate.LibRun
import Oathgate.VhostControl
/-!
# VhostTable — the memory table of a device (`oathgate-vhost`: `device.rs`, `SET_MEM_TABLE`)

The table lives in two places: the mappings addresses are translated with, and the memory each ring holds.  The rings
get theirs after all regions are mapped; a mapping is pushed as soon as its region is, behind those that are there, and
nothing takes one off.  `Clean` is the exact condition on a message under which the two stay the latest table.
-/
namespace Oathgate

open Lib

variable {Q S E : Type}

namespace Device

/-! ## The loop over the regions -/

def mappingOf (region : MemoryRegionDescription) : GuestMapping where
  hostStart := region.userAddress
  hostEnd := region.userAddress + region.size
  guest := region.guestAddress
  size := region.size

def Fits (region : MemoryRegionDescription) : Prop := region.userAddress.toNat + region.size.toNat < 2 ^ 64

theorem guestMapping_new {ε : Type} {region : MemoryRegionDescription} (h : Fits region) :
    (GuestMapping.new region.userAddress region.guestAddress region.size : Res ε GuestMapping) =
      .ok (mappingOf region) := by
  unfold GuestMapping.new addU64
  unfold Fits at h
  rw [if_pos h]
  rfl

theorem guestMapping_new_overflow {ε : Type} {region : MemoryRegionDescription} (h : ¬ Fits region) :
    (GuestMapping.new region.userAddress region.guestAddress region.size : Res ε GuestMapping) = .panic .overflow := by
  unfold GuestMapping.new addU64
  unfold Fits at h
  rw [if_neg h]
  rfl

/-- **The region can be mapped**, and leaves the code outside in `s'`. -/
def Maps (sys : VhostSystem Q S E) (region : MemoryRegionDescription × Nat) (s : S) (gm : GuestRegion) (s' : S) :
    Prop :=
  mapRegion sys region.1 region.2 s = (.ok gm, s') ∧ Fits region.1

/-- **All regions can be mapped**, one after another. -/
inductive MapsAll (sys : VhostSystem Q S E) :
    List (MemoryRegionDescription × Nat) → S → List GuestRegion → S → Prop where
  | nil (s : S) : MapsAll sys [] s [] s
  | cons {region : MemoryRegionDescription × Nat} {rest : List (MemoryRegionDescription × Nat)} {gm : GuestRegion}
      {gms : List GuestRegion} {s s₁ s₂ : S} :
      Maps sys region s gm s₁ → MapsAll sys rest s₁ gms s₂ → MapsAll sys (region :: rest) s (gm :: gms) s₂

variable {sys : VhostSystem Q S E}

theorem mapRegion_ok {region : MemoryRegionDescription} {fd : Nat} {s s' : S} {gm : GuestRegion}
    (h : mapRegion sys region fd s = (.ok gm, s')) : gm.size = region.size ∧ gm.guest = region.guestAddress := by
  unfold mapRegion at h
  simp only [Res.andThen_eq_ok] at h
  obtain ⟨_, _, _, _, _, _, _, _, _, _, _, _, _, _, _, h⟩ := h
  cases h
  exact ⟨rfl, rfl⟩

theorem MapsAll.regions {descs : List (MemoryRegionDescription × Nat)} {s s' : S} {gms : List GuestRegion}
    (h : MapsAll sys descs s gms s') :
    gms.map (fun gm => (gm.guest, gm.size)) = descs.map (fun x => (x.1.guestAddress, x.1.size)) := by
  induction h with
  | nil => rfl
  | cons hm _ ih =>
    obtain ⟨hsize, hguest⟩ := mapRegion_ok hm.1
    rw [List.map_cons, List.map_cons, ih, hsize, hguest]

theorem mapRegions_all {descs : List (MemoryRegionDescription × Nat)} {s s' : S} {gms : List GuestRegion}
    (h : MapsAll sys descs s gms s') : ∀ (regions : List GuestRegion) (d : Device Q S), d.sys = s →
      mapRegions sys descs regions d =
        (.ok (regions ++ gms), { d with sys := s', mappings := d.mappings ++ descs.map fun x => mappingOf x.1 }) := by
  induction h with
  | nil s =>
    rintro regions d rfl
    simp [mapRegions]
  | cons hm _ ih =>
    rintro regions d rfl
    obtain ⟨hmap, hfits⟩ := hm
    unfold mapRegions
    simp only [hmap, Res.andThen_ok, guestMapping_new hfits]
    rw [ih _ _ rfl]
    simp

/-- The first region, if there is one, cannot be mapped. -/
def NoneMaps (sys : VhostSystem Q S E) (descs : List (MemoryRegionDescription × Nat)) (s : S) : Prop :=
  ∀ region ∈ descs.head?, ∀ gm s', ¬ Maps sys region s gm s'

theorem mapRegions_first {region : MemoryRegionDescription} {fd : Nat} {d : Device Q S}
    (hnone : ∀ gm s', ¬ Maps sys (region, fd) d.sys gm s') (rest : List (MemoryRegionDescription × Nat))
    (regions : List GuestRegion) : (∀ rs, (mapRegions sys ((region, fd) :: rest) regions d).1 ≠ .ok rs) ∧
      (mapRegions sys ((region, fd) :: rest) regions d).2.mappings = d.mappings := by
  unfold mapRegions
  rcases hmap : mapRegion sys region fd d.sys with ⟨_ | _ | _, s'⟩
  · have hover : ¬ Fits region := fun hfits => hnone _ _ ⟨hmap, hfits⟩
    simp [guestMapping_new_overflow hover]
  · simp
  · simp

/-- **A loop that stops**: the mappings of the regions before the one that failed stay behind. -/
theorem mapRegions_stops (sys : VhostSystem Q S E) : ∀ (descs : List (MemoryRegionDescription × Nat)) (d : Device Q S)
    (regions : List GuestRegion), (¬ ∃ gms s', MapsAll sys descs d.sys gms s') →
      (∀ rs, (mapRegions sys descs regions d).1 ≠ .ok rs) ∧ ∃ tail,
        (mapRegions sys descs regions d).2.mappings = d.mappings ++ tail ∧ (tail = [] ↔ NoneMaps sys descs d.sys)
  | [], d, _, h => absurd ⟨[], d.sys, .nil d.sys⟩ h
  | (region, fd) :: rest, d, regions, h => by
    by_cases hfirst : ∃ gm s', Maps sys (region, fd) d.sys gm s'
    · obtain ⟨gm, s', hm⟩ := hfirst
      obtain ⟨hmap, hfits⟩ := id hm
      unfold mapRegions
      simp only [hmap, Res.andThen_ok, guestMapping_new hfits]
      obtain ⟨hno, tail, htail, -⟩ := mapRegions_stops sys rest
        { d with sys := s', mappings := d.mappings ++ [mappingOf region] } (regions ++ [gm])
        (by rintro ⟨gms, s'', hall⟩; exact h ⟨_, _, .cons hm hall⟩)
      refine ⟨hno, mappingOf region :: tail, by rw [htail]; simp, ?_⟩
      exact iff_of_false (by simp) fun hnone => hnone _ rfl gm s' hm
    · have hnone : ∀ gm s', ¬ Maps sys (region, fd) d.sys gm s' := fun gm s' hm => hfirst ⟨gm, s', hm⟩
      obtain ⟨hno, hmappings⟩ := mapRegions_first hnone rest regions
      refine ⟨hno, [], by rw [List.append_nil]; exact hmappings, iff_of_true rfl ?_⟩
      intro x hx
      cases hx
      exact hnone

theorem queues_mapRegions (sys : VhostSystem Q S E) : ∀ (descs : List (MemoryRegionDescription × Nat))
    (regions : List GuestRegion) (d : Device Q S), (mapRegions sys descs regions d).2.queues = d.queues
  | [], _, _ => rfl
  | (region, fd) :: rest, regions, d => by
    unfold mapRegions
    refine Res.andThen_keeps (P := fun d' : Device Q S => d'.queues = d.queues) rfl ?_
    intro gm d₁ h₁
    refine Res.andThen_keeps (P := fun d' : Device Q S => d'.queues = d.queues) h₁ ?_
    intro mapping d₂ h₂
    exact (queues_mapRegions sys rest _ _).trans h₂

/-! ## One message -/

/-- A table with a descriptor for each region. -/
def Carries (hdr : VHostHeader) (table : List MemoryRegionDescription) (files : List Nat) : Prop :=
  hdr.read (List MemoryRegionDescription) = .ok table ∧ hdr.extractFds = .ok files ∧ table.length = files.length

/-- The table's memory is accepted, and the acknowledgement it asks for can be sent. -/
def Accepted (sys : VhostSystem Q S E) (hdr : VHostHeader) (s : S) : Prop :=
  hdr.ackRequired = true → (sys.sendmsg s (frontEndMsg hdr.ty (0x01 ||| 0x04) [])).1 = .ok ()

/-- **What `SET_MEM_TABLE` can do**: it is refused before the loop; the loop stops; the memory is refused after it; or
the rings get the memory. -/
inductive TableOutcome (sys : VhostSystem Q S E) (hdr : VHostHeader) (d : Device Q S) :
    Res (ControlError E) Unit → Device Q S → Prop where
  | refused {r : Res (ControlError E) Unit} : r ≠ .ok () → (∀ table files, ¬ Carries hdr table files) →
      TableOutcome sys hdr d r d
  | stopped {r : Res (ControlError E) Unit} {d' : Device Q S} {table : List MemoryRegionDescription}
      {files : List Nat} {tail : List GuestMapping} : r ≠ .ok () → Carries hdr table files →
      (¬ ∃ gms s', MapsAll sys (table.zip files) d.sys gms s') → d'.queues = d.queues →
      d'.mappings = d.mappings ++ tail → (tail = [] ↔ NoneMaps sys (table.zip files) d.sys) →
      TableOutcome sys hdr d r d'
  | unfit {r : Res (ControlError E) Unit} {d' : Device Q S} {table : List MemoryRegionDescription} {files : List Nat}
      {gms : List GuestRegion} {s' : S} {e : E} : r ≠ .ok () → Carries hdr table files →
      MapsAll sys (table.zip files) d.sys gms s' → sys.fromRegions gms = .error e → d'.queues = d.queues →
      d'.mappings = d.mappings ++ table.map mappingOf → TableOutcome sys hdr d r d'
  | set {r : Res (ControlError E) Unit} {d' : Device Q S} {table : List MemoryRegionDescription} {files : List Nat}
      {gms : List GuestRegion} {s' : S} : (r = .ok () ↔ Accepted sys hdr s') → Carries hdr table files →
      MapsAll sys (table.zip files) d.sys gms s' → sys.fromRegions gms = .ok () →
      d'.queues = d.queues.map (Vring.setMemory gms) → d'.mappings = d.mappings ++ table.map mappingOf →
      TableOutcome sys hdr d r d'

theorem setMemTable_carries {hdr : VHostHeader} {table : List MemoryRegionDescription} {files : List Nat}
    (h : Carries hdr table files) (d : Device Q S) : setMemTable sys hdr d =
      Res.andThen (mapRegions sys (table.zip files) [] d) fun regions d =>
        Res.andThen (ofExcept (sys.fromRegions regions), d) fun _ d =>
          let d := { d with queues := d.queues.map (Vring.setMemory regions) }
          if hdr.ackRequired then sendResponse sys hdr.ty [] d else (.ok (), d) := by
  obtain ⟨hread, hfds, hlen⟩ := h
  simp only [setMemTable, payload, hread, hfds, Res.mapErr_ok, Res.andThen_ok, hlen, ne_eq, not_true_eq_false, if_false]

theorem setMemTable_refused (sys : VhostSystem Q S E) {hdr : VHostHeader}
    (h : ∀ table files, ¬ Carries hdr table files) (d : Device Q S) :
    (setMemTable sys hdr d).1 ≠ .ok () ∧ (setMemTable sys hdr d).2 = d := by
  unfold setMemTable payload
  cases hread : hdr.read (List MemoryRegionDescription) with
  | err e => exact ⟨nofun, rfl⟩
  | panic p => exact ⟨nofun, rfl⟩
  | ok table =>
    cases hfds : hdr.extractFds with
    | err e => exact ⟨nofun, rfl⟩
    | panic p => exact ⟨nofun, rfl⟩
    | ok files =>
      have hlen : table.length ≠ files.length := fun hlen => h table files ⟨hread, hfds, hlen⟩
      simp [hlen]

theorem setMemTable_outcome (sys : VhostSystem Q S E) (hdr : VHostHeader) (d : Device Q S) :
    TableOutcome sys hdr d (setMemTable sys hdr d).1 (setMemTable sys hdr d).2 := by
  by_cases hcarries : ∃ table files, Carries hdr table files
  · obtain ⟨table, files, hc⟩ := hcarries
    have hdescs : (table.zip files).map (fun x => mappingOf x.1) = table.map mappingOf := by
      rw [show (fun x : MemoryRegionDescription × Nat => mappingOf x.1) = mappingOf ∘ Prod.fst from rfl, ← List.map_map,
        List.map_fst_zip (Nat.le_of_eq hc.2.2)]
    rw [setMemTable_carries hc]
    by_cases hall : ∃ gms s', MapsAll sys (table.zip files) d.sys gms s'
    · obtain ⟨gms, s', hall⟩ := hall
      rw [mapRegions_all hall [] d rfl, Res.andThen_ok, List.nil_append, hdescs]
      cases hfrom : sys.fromRegions gms with
      | error e => exact .unfit nofun hc hall hfrom rfl rfl
      | ok u =>
        refine .set ?_ hc hall hfrom ?_ ?_
        · simp only [ofExcept, Res.andThen_ok, Accepted]
          cases hack : hdr.ackRequired with
          | false => simp
          | true =>
            simp only [if_true, sendResponse, true_imp_iff]
            cases (sys.sendmsg s' (frontEndMsg hdr.ty (0x01 ||| 0x04) [])).1 <;> simp [ofExcept]
        · simp only [ofExcept, Res.andThen_ok]
          split <;> rfl
        · simp only [ofExcept, Res.andThen_ok]
          split <;> rfl
    · obtain ⟨hno, tail, htail, hiff⟩ := mapRegions_stops sys (table.zip files) d [] hall
      have hqueues := queues_mapRegions sys (table.zip files) [] d
      cases hx : mapRegions sys (table.zip files) [] d with
      | mk r d' =>
        rw [hx] at hno htail hqueues
        cases r with
        | ok rs => exact absurd rfl (hno rs)
        | err e => exact .stopped nofun hc hall hqueues htail hiff
        | panic p => exact .stopped nofun hc hall hqueues htail hiff
  · have hnone : ∀ table files, ¬ Carries hdr table files := fun table files hc => hcarries ⟨table, files, hc⟩
    obtain ⟨hno, hsame⟩ := setMemTable_refused sys hnone d
    rw [hsame]
    exact .refused hno hnone

theorem parseMsg_outcome (sys : VhostSystem Q S E) {hdr : VHostHeader}
    (hreq : Request.ofTy hdr.ty = some .setMemTable) (d : Device Q S) :
    TableOutcome sys hdr d (parseMsg sys hdr d).1 (parseMsg sys hdr d).2 := by
  have hset : parseMsg sys hdr d = setMemTable sys hdr d := by
    unfold parseMsg
    rw [hreq]
  rw [hset]
  exact setMemTable_outcome sys hdr d

/-! ## The latest table -/

/-- A message and how its handler ended. -/
abbrev Outcome (E : Type) := VHostHeader × Res (ControlError E) Unit

/-- The table a message set. -/
def tableSet (l : Outcome E) : Option (List MemoryRegionDescription) :=
  match Request.ofTy l.1.ty, l.1.read (List MemoryRegionDescription), l.2 with
  | some .setMemTable, .ok table, .ok _ => some table
  | _, _, _ => none

def lastTable (ls : List (Outcome E)) : Option (List MemoryRegionDescription) := (ls.filterMap tableSet).getLast?

/-- **Both places hold the latest table**: the mappings are its regions, and the memory of every ring is made of
them. -/
structure Current (ls : List (Outcome E)) (d : Device Q S) : Prop where
  mappings : d.mappings = ((lastTable ls).getD []).map mappingOf
  memory : ∀ mem ∈ d.queues.map Vring.mem, mem.map (List.map fun gm => (gm.guest, gm.size)) =
    (lastTable ls).map (List.map fun region => (region.guestAddress, region.size))

/-- The message is handled, with a value or an error. -/
def Handles (sys : VhostSystem Q S E) (d : Device Q S) (l : Outcome E) (d' : Device Q S) : Prop :=
  parseMsg sys l.1 d = (l.2, d') ∧ l.2.Returns

/-- **The message leaves both places at the latest table**, and as they were if it is a table and fails. -/
structure StaysCurrent (ls : List (Outcome E)) (d : Device Q S) (l : Outcome E) (d' : Device Q S) : Prop where
  current : Current (ls ++ [l]) d'
  failed : Request.ofTy l.1.ty = some .setMemTable → l.2 ≠ .ok () →
    d'.mappings = d.mappings ∧ d'.queues.map Vring.mem = d.queues.map Vring.mem

/-- **The message is not a table, or is one that maps no region, or is the first to map one and succeeds.** -/
def Clean (sys : VhostSystem Q S E) (hdr : VHostHeader) (d : Device Q S) : Prop :=
  Request.ofTy hdr.ty = some .setMemTable → ∀ table files, Carries hdr table files →
    NoneMaps sys (table.zip files) d.sys ∨
      (d.mappings = [] ∧ ∃ gms s', MapsAll sys (table.zip files) d.sys gms s' ∧ sys.fromRegions gms = .ok () ∧
        Accepted sys hdr s')

theorem lastTable_snoc (ls : List (Outcome E)) (l : Outcome E) :
    lastTable (ls ++ [l]) = (tableSet l).or (lastTable ls) := by
  unfold lastTable
  rw [List.filterMap_append, List.getLast?_append]
  cases h : tableSet l <;> simp [h]

theorem tableSet_of_ne {l : Outcome E} (h : Request.ofTy l.1.ty ≠ some .setMemTable) : tableSet l = none := by
  unfold tableSet
  split
  · contradiction
  · rfl

theorem tableSet_failed {l : Outcome E} (h : l.2 ≠ .ok ()) : tableSet l = none := by
  unfold tableSet
  split
  · rename_i u _ _ hok
    exact absurd hok h
  · rfl

theorem tableSet_ok {l : Outcome E} {table : List MemoryRegionDescription}
    (hreq : Request.ofTy l.1.ty = some .setMemTable) (hread : l.1.read (List MemoryRegionDescription) = .ok table)
    (hok : l.2 = .ok ()) : tableSet l = some table := by
  unfold tableSet
  rw [hreq, hread, hok]

theorem Current.congr {ls ls' : List (Outcome E)} {d d' : Device Q S} (h : Current ls d)
    (hlast : lastTable ls' = lastTable ls) (hmappings : d'.mappings = d.mappings)
    (hmem : d'.queues.map Vring.mem = d.queues.map Vring.mem) : Current ls' d' := by
  refine ⟨?_, ?_⟩
  · rw [hmappings, hlast, h.mappings]
  · rw [hmem, hlast]
    exact h.memory

theorem map_set_same {α β : Type} {f : α → β} {l : List α} {idx : Nat} {a a' : α} (ha : l[idx]? = some a)
    (h : f a' = f a) : (l.set idx a').map f = l.map f := by
  obtain ⟨hlt, rfl⟩ := List.getElem?_eq_some_iff.1 ha
  have hlt' : idx < (l.map f).length := by rwa [List.length_map]
  have hsame := List.set_getElem_self hlt'
  rw [List.map_set, h]
  rwa [List.getElem_map] at hsame

theorem Setter.mem {req : Request} {g : Vring Q → Vring Q} (hg : Setter sys req g) (vq : Vring Q) :
    (g vq).mem = vq.mem := by
  cases hg <;> rfl

/-- **A message that is no table touches neither place.** -/
theorem parseMsg_other (sys : VhostSystem Q S E) {hdr : VHostHeader}
    (h : Request.ofTy hdr.ty ≠ some .setMemTable) (d : Device Q S) :
    (parseMsg sys hdr d).2.mappings = d.mappings ∧
      (parseMsg sys hdr d).2.queues.map Vring.mem = d.queues.map Vring.mem := by
  refine parseMsg_keeps (P := fun d' : Device Q S => d'.mappings = d.mappings ∧
    d'.queues.map Vring.mem = d.queues.map Vring.mem) ?_ h d ⟨rfl, rfl⟩
  intro req _
  refine ⟨?_, ?_⟩
  · rintro d₁ d₂ hq hm ⟨h₁, h₂⟩
    exact ⟨hm.trans h₁, (congrArg (List.map Vring.mem) hq).trans h₂⟩
  · rintro d₁ idx vq g hg hvq ⟨h₁, h₂⟩
    exact ⟨h₁, (map_set_same hvq (hg.mem vq)).trans h₂⟩

theorem Carries.unique {hdr : VHostHeader} {table table' : List MemoryRegionDescription} {files files' : List Nat}
    (h : Carries hdr table files) (h' : Carries hdr table' files') : table' = table ∧ files' = files := by
  obtain ⟨hread, hfds, -⟩ := h
  obtain ⟨hread', hfds', -⟩ := h'
  rw [hread] at hread'
  rw [hfds] at hfds'
  cases hread'
  cases hfds'
  exact ⟨rfl, rfl⟩

theorem MapsAll.unique {descs : List (MemoryRegionDescription × Nat)} {s s₁ s₂ : S} {gms₁ gms₂ : List GuestRegion}
    (h₁ : MapsAll sys descs s gms₁ s₁) (h₂ : MapsAll sys descs s gms₂ s₂) : gms₂ = gms₁ ∧ s₂ = s₁ := by
  induction h₁ generalizing gms₂ s₂ with
  | nil s =>
    cases h₂
    exact ⟨rfl, rfl⟩
  | cons hm₁ _ ih =>
    cases h₂ with
    | cons hm₂ hrest =>
      obtain ⟨h₁, -⟩ := hm₁
      obtain ⟨h₂, -⟩ := hm₂
      rw [h₁] at h₂
      cases h₂
      obtain ⟨rfl, rfl⟩ := ih hrest
      exact ⟨rfl, rfl⟩

theorem MapsAll.noneMaps {descs : List (MemoryRegionDescription × Nat)} {s s' : S} {gms : List GuestRegion}
    (h : MapsAll sys descs s gms s') : NoneMaps sys descs s ↔ descs = [] := by
  cases h with
  | nil => exact iff_of_true (fun _ hx => by cases hx) rfl
  | cons hm _ => exact iff_of_false (fun hnone => hnone _ rfl _ _ hm) (by simp)

theorem Carries.zip_eq_nil {hdr : VHostHeader} {table : List MemoryRegionDescription} {files : List Nat}
    (h : Carries hdr table files) : table.zip files = [] ↔ table = [] := by
  obtain ⟨-, -, hlen⟩ := h
  rw [List.zip_eq_nil_iff]
  constructor
  · rintro (h | rfl)
    · exact h
    · exact List.length_eq_zero_iff.1 hlen
  · exact Or.inl

/-- A table whose regions all map is clean exactly when it is empty, or there are no mappings and the rest succeeds. -/
theorem clean_iff_of_maps {hdr : VHostHeader} {d : Device Q S} {table : List MemoryRegionDescription} {files : List Nat}
    {gms : List GuestRegion} {s' : S} (hreq : Request.ofTy hdr.ty = some .setMemTable) (hc : Carries hdr table files)
    (hall : MapsAll sys (table.zip files) d.sys gms s') : Clean sys hdr d ↔
      table = [] ∨ (d.mappings = [] ∧ sys.fromRegions gms = .ok () ∧ Accepted sys hdr s') := by
  constructor
  · intro hclean
    rcases hclean hreq table files hc with hnone | ⟨hm, gms', s'', hall', hfrom, hacc⟩
    · exact Or.inl (hc.zip_eq_nil.1 (hall.noneMaps.1 hnone))
    · obtain ⟨rfl, rfl⟩ := hall.unique hall'
      exact Or.inr ⟨hm, hfrom, hacc⟩
  · rintro h - table' files' hc'
    obtain ⟨rfl, rfl⟩ := hc.unique hc'
    rcases h with h | ⟨hm, hfrom, hacc⟩
    · exact Or.inl (hall.noneMaps.2 (hc.zip_eq_nil.2 h))
    · exact Or.inr ⟨hm, gms, s', hall, hfrom, hacc⟩

/-- A table that fails and leaves the rings alone is in step exactly when it pushed nothing. -/
theorem staysCurrent_failed {ls : List (Outcome E)} {d d' : Device Q S} {l : Outcome E} {tail : List GuestMapping}
    (hcur : Current ls d) (hreq : Request.ofTy l.1.ty = some .setMemTable) (hno : l.2 ≠ .ok ())
    (hqueues : d'.queues = d.queues) (hmappings : d'.mappings = d.mappings ++ tail) :
    StaysCurrent ls d l d' ↔ tail = [] := by
  constructor
  · intro h
    have hsame := (h.failed hreq hno).1
    rwa [hmappings, List.append_right_eq_self] at hsame
  · rintro rfl
    rw [List.append_nil] at hmappings
    have hmem := congrArg (List.map Vring.mem) hqueues
    refine ⟨hcur.congr ?_ hmappings hmem, fun _ _ => ⟨hmappings, hmem⟩⟩
    rw [lastTable_snoc, tableSet_failed hno]
    rfl

/-- A table that succeeds is in step exactly when there were no mappings. -/
theorem staysCurrent_set {ls : List (Outcome E)} {d d' : Device Q S} {l : Outcome E} {s s' : S}
    {table : List MemoryRegionDescription} {files : List Nat} {gms : List GuestRegion}
    (hreq : Request.ofTy l.1.ty = some .setMemTable) (hok : l.2 = .ok ()) (hc : Carries l.1 table files)
    (hall : MapsAll sys (table.zip files) s gms s') (hqueues : d'.queues = d.queues.map (Vring.setMemory gms))
    (hmappings : d'.mappings = d.mappings ++ table.map mappingOf) : StaysCurrent ls d l d' ↔ d.mappings = [] := by
  have hlast : lastTable (ls ++ [l]) = some table := by
    rw [lastTable_snoc, tableSet_ok hreq hc.1 hok]
    rfl
  constructor
  · intro h
    have hm := h.current.mappings
    rwa [hlast, Option.getD_some, hmappings, List.append_left_eq_self] at hm
  · intro hnil
    refine ⟨⟨?_, ?_⟩, fun _ hno => absurd hok hno⟩
    · rw [hlast, hmappings, hnil]
      rfl
    · intro mem hmem
      rw [hqueues, List.map_map, List.mem_map] at hmem
      obtain ⟨vq, -, rfl⟩ := hmem
      rw [hlast]
      show some (gms.map _) = some (table.map _)
      rw [hall.regions, show (fun x : MemoryRegionDescription × Nat => (x.1.guestAddress, x.1.size)) =
        (fun region => (region.guestAddress, region.size)) ∘ Prod.fst from rfl, ← List.map_map,
        List.map_fst_zip (Nat.le_of_eq hc.2.2)]

/-- **What keeps the places together.**  A message met in step leaves both places at the latest table exactly when it is
clean. -/
theorem staysCurrent_iff (hempty : ∃ e, sys.fromRegions [] = .error e) {ls : List (Outcome E)} {d d' : Device Q S}
    {l : Outcome E} (hcur : Current ls d) (h : Handles sys d l d') : StaysCurrent ls d l d' ↔ Clean sys l.1 d := by
  obtain ⟨hparse, hret⟩ := h
  by_cases hreq : Request.ofTy l.1.ty = some .setMemTable
  · have hout := parseMsg_outcome sys hreq d
    rw [hparse] at hout
    cases hout with
    | refused hno hnone =>
      have hclean : Clean sys l.1 d' := fun _ table files hc => absurd hc (hnone table files)
      exact iff_of_true ((staysCurrent_failed hcur hreq hno rfl (List.append_nil _).symm).2 rfl) hclean
    | @stopped _ table files tail hno hc hall hqueues hmappings hiff =>
      rw [staysCurrent_failed hcur hreq hno hqueues hmappings, hiff]
      constructor
      · intro hnone _ table' files' hc'
        obtain ⟨rfl, rfl⟩ := hc.unique hc'
        exact Or.inl hnone
      · intro hclean
        rcases hclean hreq table files hc with hnone | ⟨-, gms, s', hall', -⟩
        · exact hnone
        · exact absurd ⟨gms, s', hall'⟩ hall
    | unfit hno hc hall hfrom hqueues hmappings =>
      rw [staysCurrent_failed hcur hreq hno hqueues hmappings, clean_iff_of_maps hreq hc hall, hfrom,
        List.map_eq_nil_iff]
      simp
    | @set _ table files gms s' hok hc hall hfrom hqueues hmappings =>
      -- `from_regions` refuses the empty list, so that a region was mapped
      have htable : table ≠ [] := by
        rintro rfl
        obtain ⟨e, he⟩ := hempty
        cases hall
        rw [he] at hfrom
        cases hfrom
      rw [clean_iff_of_maps hreq hc hall]
      by_cases hacc : Accepted sys l.1 s'
      · rw [staysCurrent_set hreq (hok.2 hacc) hc hall hqueues hmappings]
        simp [htable, hfrom, hacc]
      · refine iff_of_false ?_ (by simp [htable, hacc])
        intro hstays
        have hsame := (hstays.failed hreq fun h => hacc (hok.1 h)).1
        rw [hmappings, List.append_right_eq_self, List.map_eq_nil_iff] at hsame
        exact htable hsame
  · obtain ⟨hmappings, hmem⟩ := parseMsg_other sys hreq d
    rw [hparse] at hmappings hmem
    refine iff_of_true ⟨hcur.congr ?_ hmappings hmem, fun h => absurd h hreq⟩ fun h => absurd h hreq
    rw [lastTable_snoc, tableSet_of_ne hreq]
    rfl

/-! ## Runs -/

theorem current_new {deviceQueues : BitVec 8} {routerPort : Nat} {s : S} {d : Device Q S}
    (h : new sys deviceQueues routerPort s = .ok d) : Current ([] : List (Outcome E)) d := by
  obtain ⟨-, hnew, hmappings⟩ := new_ok h
  refine ⟨hmappings, ?_⟩
  intro mem hmem
  obtain ⟨vq, hvq, rfl⟩ := List.mem_map.1 hmem
  obtain ⟨queue, rfl⟩ := hnew vq hvq
  rfl

/-- **The address map is the latest memory table, as long as each table is clean.**  In every state of a run of clean
messages the mappings and the memory of the rings are those of the last table that was set; the next message leaves
them so, and a table that fails leaves them alone, exactly when it is clean. -/
theorem mappings_follow_table (sys : VhostSystem Q S E) (hempty : ∃ e, sys.fromRegions [] = .error e)
    (deviceQueues : BitVec 8) (routerPort : Nat) (s : S) (d₀ d : Device Q S) (ls : List (Outcome E))
    (hnew : new sys deviceQueues routerPort s = .ok d₀)
    (hrun : Run (fun d l d' => Handles sys d l d' ∧ Clean sys l.1 d) d₀ ls d) :
    Current ls d ∧ ∀ l d', Handles sys d l d' → (StaysCurrent ls d l d' ↔ Clean sys l.1 d) := by
  have hcur : Current ls d := by
    refine Run.invariant (I := fun ls d => Current ls d) (current_new hnew) ?_ hrun
    rintro ls d l d' - hcur ⟨hstep, hclean⟩
    exact ((staysCurrent_iff hempty hcur hstep).2 hclean).current
  exact ⟨hcur, fun l d' hstep => staysCurrent_iff hempty hcur hstep⟩

def lowRegion : MemoryRegionDescription := ⟨0x0, 0x1000, 0x7000, 0⟩

def highRegion : MemoryRegionDescription := ⟨0x8000, 0x1000, 0x9000, 0⟩

/-- A table of one region, set. -/
def tableIsSet (region : MemoryRegionDescription) : Outcome Unit := (tableMsg region, .ok ())

theorem mappings_follow_table_of_one :
    ∃ d₀ d : Device (Bool × Nat) Unit, new plainSystem 1 0 () = .ok d₀ ∧
      Handles plainSystem d₀ (tableIsSet lowRegion) d ∧ Current [tableIsSet lowRegion] d := by
  have hcarries : Carries (tableMsg lowRegion) [lowRegion] [9] := ⟨rfl, rfl, rfl⟩
  refine ⟨_, _, rfl, ⟨rfl, nofun⟩, ?_⟩
  refine (mappings_follow_table plainSystem ⟨(), rfl⟩ 1 0 () _ _ [tableIsSet lowRegion] rfl
    (Run.single ⟨⟨rfl, nofun⟩, ?_⟩)).1
  intro _ table files hc
  obtain ⟨rfl, rfl⟩ := hcarries.unique hc
  exact Or.inr ⟨rfl, _, _, .cons ⟨rfl, by unfold Fits; decide⟩ (.nil ()), rfl, nofun⟩

/-- **A second table is added to the first.**  After two tables, both handled successfully, the mappings are not those
of the second, and an address of the first is still translated. -/
theorem second_table_leaves_first :
    ∃ d₀ d : Device (Bool × Nat) Unit, new plainSystem 1 0 () = .ok d₀ ∧
      Run (Handles plainSystem) d₀ [tableIsSet lowRegion, tableIsSet highRegion] d ∧
      lastTable [tableIsSet lowRegion, tableIsSet highRegion] = some [highRegion] ∧
      d.mappings = [mappingOf lowRegion, mappingOf highRegion] ∧ d.computeGuestAddress 0x7010 = .ok 0x10 ∧
      ¬ Current [tableIsSet lowRegion, tableIsSet highRegion] d := by
  refine ⟨_, _, rfl, (Run.single ⟨rfl, nofun⟩).snoc ⟨rfl, nofun⟩, rfl, rfl, rfl, ?_⟩
  intro h
  exact absurd h.mappings (by decide)

end Device
end Oathgate
