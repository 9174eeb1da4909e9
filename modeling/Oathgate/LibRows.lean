import Mathlib.Algebra.BigOperators.Group.List.Lemmas
import Mathlib.Algebra.Order.Ring.Nat
import Mathlib.Data.List.Dedup
import Mathlib.Data.List.Nodup
/-!
# LibRows — tables of rows with a key

A table is the list of its rows.  `upsert` replaces the row with the key of the new one, or appends it, and `deleteKey`
drops the rows with a key.  Whatever arm an upsert takes, its rows are the new one and the old ones with other keys
(`mem_upsert`), and keys stay distinct.
-/
namespace Lib

variable {R K : Type} [DecidableEq K] (key : R → K)

/-- **Insert a row, or replace the one that has its key.** -/
def upsert (rows : List R) (r : R) : List R :=
  if rows.any (fun x => decide (key x = key r)) then rows.map (fun x => if key x = key r then r else x)
  else rows ++ [r]

def deleteKey (rows : List R) (k : K) : List R := rows.filter (fun x => decide (key x ≠ k))

variable {key}

theorem mem_upsert {rows : List R} {r x : R} : x ∈ upsert key rows r ↔ x = r ∨ (x ∈ rows ∧ key x ≠ key r) := by
  unfold upsert
  by_cases h : ∃ y ∈ rows, key y = key r
  · rw [if_pos (by simpa using h)]
    obtain ⟨y, hy, hyr⟩ := h
    simp only [List.mem_map]
    constructor
    · rintro ⟨z, hz, rfl⟩
      by_cases hzr : key z = key r
      · exact Or.inl (if_pos hzr)
      · rw [if_neg hzr]
        exact Or.inr ⟨hz, hzr⟩
    · rintro (rfl | ⟨hx, hxr⟩)
      · exact ⟨y, hy, if_pos hyr⟩
      · exact ⟨x, hx, if_neg hxr⟩
  · rw [if_neg (by simpa using h)]
    have hne : ∀ y ∈ rows, key y ≠ key r := fun y hy hyr => h ⟨y, hy, hyr⟩
    simp only [List.mem_append, List.mem_singleton]
    constructor
    · rintro (hx | rfl)
      · exact Or.inr ⟨hx, hne x hx⟩
      · exact Or.inl rfl
    · rintro (rfl | ⟨hx, -⟩)
      · exact Or.inr rfl
      · exact Or.inl hx

theorem upsert_of_new {rows : List R} {r : R} (h : ∀ x ∈ rows, key x ≠ key r) : upsert key rows r = rows ++ [r] := by
  unfold upsert
  rw [if_neg (by simpa using h)]

theorem mem_deleteKey {rows : List R} {k : K} {x : R} : x ∈ deleteKey key rows k ↔ x ∈ rows ∧ key x ≠ k := by
  simp [deleteKey]

/-- **An upsert keeps the keys distinct.** -/
theorem nodup_upsert {rows : List R} (h : (rows.map key).Nodup) (r : R) : ((upsert key rows r).map key).Nodup := by
  unfold upsert
  split
  · have hmap : (rows.map fun x => if key x = key r then r else x).map key = rows.map key := by
      rw [List.map_map]
      apply List.map_congr_left
      intro x _
      by_cases hx : key x = key r
      · simp [hx]
      · simp [hx]
    rw [hmap]
    exact h
  · rename_i hnew
    rw [List.map_append, List.map_singleton, List.nodup_append]
    refine ⟨h, List.nodup_singleton _, ?_⟩
    simpa using hnew

theorem nodup_deleteKey {rows : List R} (h : (rows.map key).Nodup) (k : K) : ((deleteKey key rows k).map key).Nodup :=
  h.sublist (List.filter_sublist.map key)

omit [DecidableEq K] in
/-- Rows with distinct keys are told apart by their keys. -/
theorem eq_of_key_eq {rows : List R} (h : (rows.map key).Nodup) {x y : R} (hx : x ∈ rows) (hy : y ∈ rows)
    (hk : key x = key y) : x = y := List.inj_on_of_nodup_map h hx hy hk

/-! ## Counting keys -/

omit [DecidableEq K] in
theorem sum_map_ite_eq_countP (p : K → Bool) (ks : List K) :
    (ks.map fun k => if p k then 1 else 0).sum = ks.countP p := by
  induction ks with
  | nil => rfl
  | cons k ks ih => rw [List.map_cons, List.sum_cons, ih, List.countP_cons, Nat.add_comm]

/-- **The keys that are in a list, counted key by key.** -/
theorem countP_mem_eq_sum (keys ks : List K) :
    keys.countP (fun k => decide (k ∈ ks)) = (ks.dedup.map fun n => keys.count n).sum := by
  induction keys with
  | nil => simp
  | cons k keys ih =>
    have hone : (ks.dedup.map fun n => if (k == n) = true then 1 else 0).sum = if k ∈ ks then 1 else 0 := by
      rw [sum_map_ite_eq_countP]
      simp only [← List.mem_dedup (l := ks), ← (List.nodup_dedup ks).count]
      exact List.countP_congr fun n _ => by rw [beq_iff_eq, beq_iff_eq, eq_comm]
    simp only [List.countP_cons, List.count_cons, List.sum_map_add, ih, hone, decide_eq_true_eq]

end Lib
