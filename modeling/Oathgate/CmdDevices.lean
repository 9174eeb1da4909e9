import Oathgate.CmdBridge
/-!
# CmdDevices — several devices by name (`oathgate`: `database/device.rs`, `get_many`)

`get_many` reads the rows whose name is asked for and compares how many there are with how many names were given.
Names are not unique in the table and may come twice in the request: the devices a name has too many make up for those
another has too few, and no device at all is a case of too few (`getMany_iff`).
-/
namespace Oathgate

open Lib

namespace Database
namespace Device

/-- The name is that of a device. -/
def Named (db : Database) (name : String) : Prop := ∃ row ∈ db.devices, row.name = name

instance (db : Database) (name : String) : Decidable (Named db name) := inferInstanceAs (Decidable (∃ row ∈ _, _))

/-- **A lookup of several devices**: it succeeds when every name is that of a device, with a device for each name, and
else its message lists the names without one. -/
structure LooksUp (env : Env) (names : List String) (host : Host) : Prop where
  ok_iff : (∃ devices, (getMany env names host).1 = .ok devices) ↔ ∀ name ∈ names, Named host.db name
  found : ∀ devices, (getMany env names host).1 = .ok devices →
    ∀ name ∈ names, ∃ device ∈ devices, device.name = name
  lists : ∀ e, (getMany env names host).1 = .err e → ∃ missing,
    e = .msg ("unable to find the following devices: " ++ ", ".intercalate missing) ∧ missing.Nodup ∧
      ∀ name, name ∈ missing ↔ name ∈ names ∧ ¬ Named host.db name

/-- How many devices have the name. -/
def held (db : Database) (name : String) : Nat := (db.devices.map DeviceRow.name).count name

/-- The requested names, each taken once, have together as many devices as the request has entries. -/
def Balanced (db : Database) (names : List String) : Prop :=
  (names.dedup.map (held db)).sum = names.length

instance (db : Database) (names : List String) : Decidable (Balanced db names) := inferInstanceAs (Decidable (_ = _))

theorem balanced_iff (db : Database) (names : List String) :
    Balanced db names ↔ (db.devices.filter fun row => decide (row.name ∈ names)).length = names.length := by
  unfold Balanced held
  rw [← countP_mem_eq_sum, List.countP_map, List.countP_eq_length_filter]
  rfl

theorem mem_found (os : Os) (alive : List Pid) {db : Database} {names : List String} {name : String}
    (hname : name ∈ names) :
    name ∈ ((db.devices.filter fun row => decide (row.name ∈ names)).map (fromRow os alive)).map Device.name ↔
      Named db name := by
  simp only [List.mem_map, List.mem_filter, decide_eq_true_eq]
  constructor
  · rintro ⟨_, ⟨row, ⟨hrow, -⟩, rfl⟩, hdev⟩
    exact ⟨row, hrow, hdev⟩
  · rintro ⟨row, hrow, rfl⟩
    exact ⟨_, ⟨row, ⟨hrow, hname⟩, rfl⟩, rfl⟩

/-- **What `get_many` gives when SQLite answers.** -/
theorem getMany_eq {env : Env} (hread : env.read = true) (names : List String) (host : Host) :
    (getMany env names host).1 =
      if Balanced host.db names then
        .ok ((host.db.devices.filter fun row => decide (row.name ∈ names)).map (fromRow env.os host.alive))
      else .err (.msg ("unable to find the following devices: " ++
        ", ".intercalate (names.dedup.filter fun name => decide (¬ Named host.db name)))) := by
  have hquery : ∀ q : Database → List Device, host.query env.read (fun db => .ok (q db)) = (.ok (q host.db), host) := by
    intro q
    rw [hread]
    rfl
  unfold getMany
  rw [hquery, Res.andThen_ok, List.length_map]
  by_cases hbal : Balanced host.db names
  · rw [if_pos hbal, if_neg (not_not.2 ((balanced_iff host.db names).1 hbal))]
  · rw [if_neg hbal, if_pos fun h => hbal ((balanced_iff host.db names).2 h)]
    have hmissing : names.dedup.filter (fun name => decide (name ∉
        ((host.db.devices.filter fun row => decide (row.name ∈ names)).map (fromRow env.os host.alive)).map
          Device.name)) = names.dedup.filter fun name => decide (¬ Named host.db name) := by
      apply List.filter_congr
      intro name hname
      simp only [mem_found env.os host.alive (List.mem_dedup.1 hname)]
    simp only [hmissing]

theorem looksUp_iff_balanced {env : Env} (hread : env.read = true) (names : List String) (host : Host) :
    LooksUp env names host ↔ (Balanced host.db names ↔ ∀ name ∈ names, Named host.db name) := by
  have hout := getMany_eq hread names host
  have hok : (∃ devices, (getMany env names host).1 = .ok devices) ↔ Balanced host.db names := by
    rw [hout]
    by_cases hbal : Balanced host.db names
    · rw [if_pos hbal]
      exact iff_of_true ⟨_, rfl⟩ hbal
    · rw [if_neg hbal]
      exact iff_of_false (fun ⟨_, h⟩ => by cases h) hbal
  constructor
  · intro h
    rw [← hok]
    exact h.ok_iff
  · intro hagree
    refine ⟨hok.trans hagree, ?_, ?_⟩
    · intro devices hdevices name hname
      have hbal := hok.1 ⟨devices, hdevices⟩
      rw [hout, if_pos hbal] at hdevices
      cases hdevices
      have hmem := (mem_found env.os host.alive hname).2 (hagree.1 hbal name hname)
      obtain ⟨device, hdevice, rfl⟩ := List.mem_map.1 hmem
      exact ⟨device, hdevice, rfl⟩
    · intro e he
      have hbal : ¬ Balanced host.db names := by
        intro hbal
        rw [hout, if_pos hbal] at he
        cases he
      rw [hout, if_neg hbal] at he
      cases he
      refine ⟨_, rfl, (List.nodup_dedup names).filter _, ?_⟩
      intro name
      rw [List.mem_filter, List.mem_dedup, decide_eq_true_eq]

/-! ## Too many and too few -/

/-- The devices that requested names have beyond the mentions of the name. -/
def surplus (db : Database) (names : List String) : Nat :=
  (names.dedup.map fun name => held db name - names.count name).sum

/-- The mentions of requested names beyond the devices of the name, all of them where the name has none. -/
def deficit (db : Database) (names : List String) : Nat :=
  (names.dedup.map fun name => names.count name - held db name).sum

theorem named_iff_held (db : Database) (name : String) : Named db name ↔ 1 ≤ held db name := by
  unfold held Named
  rw [Nat.one_le_iff_ne_zero, Ne, List.count_eq_zero, not_not, List.mem_map]

/-- What one list has beyond the other, with the other, is what the other has beyond it, with it. -/
theorem sum_sub_add {α : Type} (xs : List α) (f g : α → Nat) :
    (xs.map fun x => f x - g x).sum + (xs.map g).sum = (xs.map fun x => g x - f x).sum + (xs.map f).sum := by
  have hmax : ∀ x, f x - g x + g x = g x - f x + f x := fun x => by omega
  rw [← List.sum_map_add, ← List.sum_map_add]
  simp only [hmax]

theorem balanced_iff_surplus (db : Database) (names : List String) :
    Balanced db names ↔ surplus db names = deficit db names := by
  have hsum : surplus db names + (names.dedup.map fun name => names.count name).sum =
      deficit db names + (names.dedup.map (held db)).sum := sum_sub_add _ _ _
  rw [List.sum_map_count_dedup_eq_length] at hsum
  unfold Balanced
  omega

/-- **`get_many` looks up several devices exactly when too many and too few do not hide each other.**  Either every name
has a device, and the devices that names have beyond their mentions are as many as the mentions beyond the devices; or
a name has none, and they are not. -/
theorem getMany_iff (env : Env) (names : List String) (host : Host) (hread : env.read = true) :
    LooksUp env names host ↔
      ((∀ name ∈ names, 1 ≤ held host.db name) ∧ surplus host.db names = deficit host.db names) ∨
        ((∃ name ∈ names, held host.db name = 0) ∧ surplus host.db names ≠ deficit host.db names) := by
  rw [looksUp_iff_balanced hread, balanced_iff_surplus]
  simp only [named_iff_held]
  have hmissing : (∃ name ∈ names, held host.db name = 0) ↔ ¬ ∀ name ∈ names, 1 ≤ held host.db name := by
    simp only [not_forall, Nat.not_le, Nat.lt_one_iff, exists_prop]
  rw [hmissing]
  tauto

/-- A host with a stopped device for each name. -/
def hostOf (names : List String) : Host :=
  let devices := names.mapIdx fun i name => ⟨BitVec.ofNat 128 i, none, name⟩
  { Host.emptyHost with db := { Database.empty with devices } }

theorem getMany_of_two : LooksUp (Host.sampleEnv 1 none) ["wan", "lan"] (hostOf ["lan", "wan", "dmz"]) :=
  (getMany_iff (Host.sampleEnv 1 none) ["wan", "lan"] (hostOf ["lan", "wan", "dmz"]) rfl).2 (by decide)

/-- **Two devices of one name stand in for a device that is missing**, and one device asked for twice is reported
missing under no name. -/
theorem getMany_counts :
    ((∃ devices, (getMany (Host.sampleEnv 1 none) ["lan", "wan"] (hostOf ["lan", "lan"])).1 = .ok devices ∧
        devices.map Device.name = ["lan", "lan"]) ∧
      ¬ LooksUp (Host.sampleEnv 1 none) ["lan", "wan"] (hostOf ["lan", "lan"])) ∧
    (getMany (Host.sampleEnv 1 none) ["lan", "lan"] (hostOf ["lan"])).1 =
        .err (.msg "unable to find the following devices: ") ∧
      ¬ LooksUp (Host.sampleEnv 1 none) ["lan", "lan"] (hostOf ["lan"]) := by
  refine ⟨⟨⟨_, rfl, rfl⟩, ?_⟩, rfl, ?_⟩
  · intro h
    exact absurd (h.ok_iff.1 ⟨_, rfl⟩) (by decide)
  · intro h
    obtain ⟨devices, hdevices⟩ := h.ok_iff.2 (by decide)
    cases hdevices

/-- Where names are unique in the table and in the request, the lookup is right. -/
theorem looksUp_of_unique (env : Env) (names : List String) (host : Host) (hread : env.read = true)
    (hrows : (host.db.devices.map DeviceRow.name).Nodup) (hnames : names.Nodup) : LooksUp env names host := by
  have hnamed : ∀ name, Named host.db name ↔ name ∈ host.db.devices.map DeviceRow.name := by
    intro name
    rw [List.mem_map]
    rfl
  have hcounts : (names.dedup.map (held host.db)).sum =
      names.countP fun name => decide (Named host.db name) := by
    rw [hnames.dedup, ← sum_map_ite_eq_countP]
    congr 1
    apply List.map_congr_left
    intro name _
    simp only [held, hrows.count, hnamed, decide_eq_true_eq]
  rw [looksUp_iff_balanced hread]
  unfold Balanced
  rw [hcounts, List.countP_eq_length]
  simp only [decide_eq_true_eq]

end Device
end Database
end Oathgate
