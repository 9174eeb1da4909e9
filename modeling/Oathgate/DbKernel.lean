import Oathgate.DbBase
/-!
# DbKernel — the default kernel (`oathgate`: `database/kernel.rs`, `cmd/kernel.rs`)

Two triggers of the schema clear the old default before a new one is written, in whichever arm of the upsert.  Over any
sequence of saves at most one kernel is the default, and the last one saved as the default is (`one_default_kernel`).
-/
namespace Oathgate

open Lib

namespace Kernel

def setDefault (k : Kernel) : Kernel := { k with default := true }

/-- `enforce_kernel_default_insert` and `enforce_kernel_default_update`, which have one body. -/
def enforceKernelDefault (new : Kernel) (rows : List Kernel) : List Kernel :=
  if new.default then rows.map (fun row => { row with default := false }) else rows

/-- The upsert of `Kernel::save`: whichever arm it takes, the trigger of the arm comes first. -/
def upsertRow (rows : List Kernel) (k : Kernel) : Res AppError (List Kernel) :=
  Database.upsertUnique Kernel.id Kernel.hash "kernels.hash" (enforceKernelDefault k rows) k

def save (commits : Bool) (k : Kernel) (db : Database) : Res AppError Unit × Database :=
  db.transaction commits fun db => do
    let kernels ← upsertRow db.kernels k
    return ((), { db with kernels })

/-- `Kernel::get`, the first row with the name. -/
def get (name : String) (db : Database) : Res AppError Kernel :=
  match db.kernels.find? (fun row => decide (row.name = name)) with
  | some k => .ok k
  | none => .err .database

def getDefault (db : Database) : Res AppError Kernel :=
  match db.kernels.find? (fun row => row.default) with
  | some k => .ok k
  | none => .err .database

/-- `kernel_set_default` -/
def kernelSetDefault (commits : Bool) (name : String) (db : Database) : Res AppError Unit × Database :=
  Res.andThen (get name db, db) fun k db => k.setDefault.save commits db

/-! ## One save -/

/-- The row that is the default, or none. -/
def AtMostOneDefault (rows : List Kernel) : Prop := (rows.filter (fun row => row.default)).length ≤ 1

theorem mem_enforceKernelDefault {new x : Kernel} {rows : List Kernel} (h : x ∈ enforceKernelDefault new rows) :
    ∃ y ∈ rows, x.id = y.id ∧ (x.default = true → new.default = false ∧ x = y) := by
  unfold enforceKernelDefault at h
  by_cases hnew : new.default = true
  · rw [if_pos hnew] at h
    obtain ⟨y, hy, rfl⟩ := List.mem_map.1 h
    exact ⟨y, hy, rfl, by simp⟩
  · rw [if_neg hnew] at h
    exact ⟨x, h, rfl, fun _ => ⟨by simpa using hnew, rfl⟩⟩

theorem ids_enforceKernelDefault (new : Kernel) (rows : List Kernel) :
    (enforceKernelDefault new rows).map Kernel.id = rows.map Kernel.id := by
  unfold enforceKernelDefault
  split
  · rw [List.map_map]
    rfl
  · rfl

/-- The kernels are told apart by their ids, and no two of them are the default. -/
structure Valid (rows : List Kernel) : Prop where
  ids : (rows.map Kernel.id).Nodup
  one : ∀ x ∈ rows, ∀ y ∈ rows, x.default = true → y.default = true → x = y

theorem Valid.atMostOneDefault {rows : List Kernel} (h : Valid rows) : AtMostOneDefault rows := by
  have hnodup : (rows.filter (fun row => row.default)).Nodup := (List.Nodup.of_map _ h.ids).filter _
  have hone : ∀ x ∈ rows.filter (fun row => row.default), ∀ y ∈ rows.filter (fun row => row.default), x = y := by
    intro x hx y hy
    obtain ⟨hx, hxd⟩ := List.mem_filter.1 hx
    obtain ⟨hy, hyd⟩ := List.mem_filter.1 hy
    exact h.one x hx y hy hxd hyd
  unfold AtMostOneDefault
  generalize rows.filter (fun row => row.default) = l at hnodup hone
  cases l with
  | nil => simp
  | cons x l =>
    cases l with
    | nil => simp
    | cons y l =>
      have hxy : x = y := hone x (by simp) y (by simp)
      simp [hxy] at hnodup

/-- **Saving a default kernel makes its row the one default.** -/
theorem default_iff_of_upsertRow {rows rows' : List Kernel} {k : Kernel} (h : upsertRow rows k = .ok rows')
    (hk : k.default = true) (x : Kernel) (hx : x ∈ rows') : x.default = true ↔ x = k := by
  rw [Database.upsertUnique_ok h, mem_upsert] at hx
  constructor
  · intro hxd
    rcases hx with hx | ⟨hx, -⟩
    · exact hx
    · obtain ⟨y, -, -, hy⟩ := mem_enforceKernelDefault hx
      rw [hk] at hy
      exact absurd (hy hxd).1 (by decide)
  · rintro rfl
    exact hk

theorem valid_upsertRow {rows rows' : List Kernel} {k : Kernel} (hv : Valid rows) (h : upsertRow rows k = .ok rows') :
    Valid rows' := by
  have hrows := Database.upsertUnique_ok h
  constructor
  · rw [hrows]
    apply nodup_upsert
    rw [ids_enforceKernelDefault]
    exact hv.ids
  · intro x hx y hy hxd hyd
    by_cases hk : k.default = true
    · rw [(default_iff_of_upsertRow h hk x hx).1 hxd, (default_iff_of_upsertRow h hk y hy).1 hyd]
    · -- the trigger does not fire, and the saved row is no default
      have hold : ∀ z ∈ rows', z.default = true → z ∈ rows := by
        intro z hz hzd
        rw [hrows, mem_upsert] at hz
        rcases hz with rfl | ⟨hz, -⟩
        · exact absurd hzd hk
        · obtain ⟨w, hw, -, hzw⟩ := mem_enforceKernelDefault hz
          rw [(hzw hzd).2]
          exact hw
      exact hv.one x (hold x hx hxd) y (hold y hy hyd) hxd hyd

theorem save_cases (commits : Bool) (k : Kernel) (db : Database) :
    (∃ rows, upsertRow db.kernels k = .ok rows ∧ k.save commits db = (.ok (), { db with kernels := rows })) ∨
      (k.save commits db).1 ≠ .ok () ∧ (k.save commits db).2 = db := by
  unfold save
  rcases db.transaction_cases commits (fun db => do
      let kernels ← upsertRow db.kernels k
      return ((), { db with kernels })) with ⟨a, db', hf, ht⟩ | ⟨hne, hdb⟩
  · obtain ⟨rows, hrows, hret⟩ := (Res.bind_eq_ok _ _ _).1 hf
    simp only [Res.pure_eq, Res.ok.injEq, Prod.mk.injEq, true_and] at hret
    exact Or.inl ⟨rows, hrows, by rw [ht, hret]⟩
  · exact Or.inr ⟨hne (), hdb⟩

/-- **`kernel_set_default` that succeeds leaves the named kernel for `get_default` to find.** -/
theorem getDefault_kernelSetDefault {commits : Bool} {name : String} {db db' : Database}
    (h : kernelSetDefault commits name db = (.ok (), db')) :
    ∃ k, get name db = .ok k ∧ getDefault db' = .ok k.setDefault := by
  obtain ⟨k, _, hget, hsaved⟩ := Res.andThen_eq_ok.1 h
  obtain ⟨hk, rfl⟩ := Prod.mk.inj hget
  refine ⟨k, hk, ?_⟩
  rcases save_cases commits k.setDefault db with ⟨rows, hrows, hsave⟩ | ⟨hne, -⟩
  · rw [hsaved] at hsave
    obtain ⟨-, rfl⟩ := Prod.mk.inj hsave
    have hmem : k.setDefault ∈ rows := by
      rw [Database.upsertUnique_ok hrows, mem_upsert]
      exact Or.inl rfl
    unfold getDefault
    cases hfind : rows.find? (fun row => row.default) with
    | none => exact absurd rfl (List.find?_eq_none.1 hfind _ hmem)
    | some x =>
      have hx := (default_iff_of_upsertRow hrows rfl x (List.mem_of_find?_eq_some hfind)).1 (List.find?_some hfind)
      simp only [hx]
  · rw [hsaved] at hne
    exact absurd rfl hne

/-! ## Any sequence of saves -/

/-- The tables after some saves, each with whether SQLite carries it through. -/
def saveAll (saves : List (Kernel × Bool)) (db : Database) : Database :=
  saves.foldl (fun db s => (s.1.save s.2 db).2) db

theorem valid_save {db : Database} (hv : Valid db.kernels) (commits : Bool) (k : Kernel) :
    Valid (k.save commits db).2.kernels := by
  rcases save_cases commits k db with ⟨rows, hrows, hsave⟩ | ⟨-, hdb⟩
  · rw [hsave]
    exact valid_upsertRow hv hrows
  · rw [hdb]
    exact hv

theorem valid_saveAll {db : Database} (hv : Valid db.kernels) (saves : List (Kernel × Bool)) :
    Valid (saveAll saves db).kernels := by
  induction saves generalizing db with
  | nil => exact hv
  | cons s saves ih => exact ih (valid_save hv s.2 s.1)

/-- **One default kernel.**  After any saves on the empty tables, failed ones included, at most one kernel is the
default.  A further save that succeeds with the flag set makes its kernel the one default, and one that does not succeed
leaves the tables as they were. -/
theorem one_default_kernel (saves : List (Kernel × Bool)) :
    AtMostOneDefault (saveAll saves Database.empty).kernels ∧
    ∀ (k : Kernel) (commits : Bool),
      ((k.save commits (saveAll saves Database.empty)).1 = .ok () → k.default = true →
        k ∈ (k.save commits (saveAll saves Database.empty)).2.kernels ∧
        ∀ row ∈ (k.save commits (saveAll saves Database.empty)).2.kernels, row.default = true ↔ row = k) ∧
      ((k.save commits (saveAll saves Database.empty)).1 ≠ .ok () →
        (k.save commits (saveAll saves Database.empty)).2 = saveAll saves Database.empty) := by
  have hempty : Valid Database.empty.kernels := ⟨List.nodup_nil, fun _ hx => (by cases hx)⟩
  refine ⟨(valid_saveAll hempty saves).atMostOneDefault, ?_⟩
  intro k commits
  rcases save_cases commits k (saveAll saves Database.empty) with ⟨rows, hrows, hsave⟩ | ⟨hne, hdb⟩
  · rw [hsave]
    refine ⟨?_, fun h => absurd rfl h⟩
    intro _ hk
    refine ⟨?_, default_iff_of_upsertRow hrows hk⟩
    rw [Database.upsertUnique_ok hrows, mem_upsert]
    exact Or.inl rfl
  · exact ⟨fun h => absurd h hne, fun _ => hdb⟩

/-- Two default kernels one after the other, then the first again: the hash of the second is taken by a third save that
fails, and the first is the default at the end. -/
def sampleSaves : List (Kernel × Bool) :=
  [(⟨1, "a", "old", "6.9.1", true⟩, true), (⟨2, "b", "new", "6.10", true⟩, true),
    (⟨3, "b", "copy", "6.10", true⟩, true), (⟨1, "a", "old", "6.9.1", true⟩, true)]

example : (saveAll sampleSaves Database.empty).kernels.map (fun row => (row.name, row.default)) =
    [("old", true), ("new", false)] := by decide

end Kernel
end Oathgate
