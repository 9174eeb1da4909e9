import Mathlib.Logic.Function.Basic
import Mathlib.Data.List.Induction
/-!
# LibTable — tables of keyed writes, and what a history of writes leaves in them

A `Table` is a map from keys to values, read and written at one key at a time.  Most tables are filled by a log of
records, each of which may write one key (`record`); `get_foldl_record` says what a lookup then returns: the value of
the last record that wrote the key.
-/
namespace Lib

/-- **`a` is the last element of `l` with property `p`.** -/
def LastWith {α : Type} (p : α → Prop) (l : List α) (a : α) : Prop :=
  ∃ l₁ l₂, l = l₁ ++ a :: l₂ ∧ p a ∧ ∀ b ∈ l₂, ¬ p b

/-- **The last element of a list with one more**: the new element when it has the property, else the old last. -/
theorem lastWith_append_singleton {α : Type} (p : α → Prop) (l : List α) (a b : α) :
    LastWith p (l ++ [b]) a ↔ (p b ∧ a = b) ∨ (¬ p b ∧ LastWith p l a) := by
  constructor
  · rintro ⟨l₁, l₂, hl, ha, hlast⟩
    rcases List.eq_nil_or_concat l₂ with rfl | ⟨l₂', x, rfl⟩
    · obtain ⟨-, hab⟩ := List.append_inj' hl rfl
      simp only [List.cons.injEq, and_true] at hab
      exact Or.inl ⟨hab ▸ ha, hab.symm⟩
    · rw [List.concat_eq_append, ← List.cons_append, ← List.append_assoc] at hl
      obtain ⟨hl', hx⟩ := List.append_inj' hl rfl
      simp only [List.cons.injEq, and_true] at hx
      exact Or.inr ⟨hx ▸ hlast x (by simp), l₁, l₂', hl', ha, fun c hc => hlast c (by simp [hc])⟩
  · rintro (⟨hb, rfl⟩ | ⟨hb, l₁, l₂, rfl, ha, hlast⟩)
    · exact ⟨l, [], rfl, hb, by simp⟩
    · refine ⟨l₁, l₂ ++ [b], by simp, ha, ?_⟩
      intro c hc
      rcases List.mem_append.1 hc with hc | hc
      · exact hlast c hc
      · rwa [List.mem_singleton.1 hc]

theorem lastWith_unique {α : Type} (p : α → Prop) (l : List α) {a b : α} (ha : LastWith p l a) (hb : LastWith p l b) :
    a = b := by
  induction l using List.reverseRecOn with
  | nil => obtain ⟨l₁, l₂, h, -⟩ := ha; simp at h
  | append_singleton l x ih =>
    rw [lastWith_append_singleton] at ha hb
    rcases ha with ⟨hx, rfl⟩ | ⟨hx, ha⟩ <;> rcases hb with ⟨hx', rfl⟩ | ⟨hx', hb⟩
    · rfl
    · exact absurd hx hx'
    · exact absurd hx' hx
    · exact ih ha hb

theorem exists_lastWith {α : Type} (p : α → Prop) (l : List α) {a : α} (ha : a ∈ l) (hp : p a) :
    ∃ b, LastWith p l b := by
  induction l using List.reverseRecOn with
  | nil => simp at ha
  | append_singleton l x ih =>
    simp only [lastWith_append_singleton]
    by_cases hx : p x
    · exact ⟨x, Or.inl ⟨hx, rfl⟩⟩
    · rcases List.mem_append.1 ha with ha | ha
      · obtain ⟨b, hb⟩ := ih ha
        exact ⟨b, Or.inr ⟨hx, hb⟩⟩
      · exact absurd (List.mem_singleton.1 ha ▸ hp) hx

structure Table (K V : Type) where
  get : K → Option V

namespace Table

variable {K V α : Type} [DecidableEq K]

def empty : Table K V := ⟨fun _ => none⟩

def insert (t : Table K V) (k : K) (v : V) : Table K V := ⟨Function.update t.get k (some v)⟩

def erase (t : Table K V) (k : K) : Table K V := ⟨Function.update t.get k none⟩

omit [DecidableEq K] in
@[simp] theorem get_empty (k : K) : (empty : Table K V).get k = none := rfl

theorem get_insert (t : Table K V) (k k' : K) (v : V) :
    (t.insert k v).get k' = if k' = k then some v else t.get k' :=
  Function.update_apply t.get k (some v) k'

@[simp] theorem get_insert_self (t : Table K V) (k : K) (v : V) : (t.insert k v).get k = some v := by
  rw [get_insert, if_pos rfl]

theorem get_insert_of_ne (t : Table K V) {k k' : K} (v : V) (h : k' ≠ k) : (t.insert k v).get k' = t.get k' := by
  rw [get_insert, if_neg h]

theorem get_erase (t : Table K V) (k k' : K) : (t.erase k).get k' = if k' = k then none else t.get k' :=
  Function.update_apply t.get k none k'

@[simp] theorem get_erase_self (t : Table K V) (k : K) : (t.erase k).get k = none := by
  rw [get_erase, if_pos rfl]

theorem get_erase_of_ne (t : Table K V) {k k' : K} (h : k' ≠ k) : (t.erase k).get k' = t.get k' := by
  rw [get_erase, if_neg h]

theorem insert_of_get (t : Table K V) (k : K) (v : V) (h : t.get k = some v) : t.insert k v = t := by
  unfold insert
  rw [← h, Function.update_eq_self]

/-! ## Histories -/

/-- One record of a log: it writes its value at its key, or nothing when it has none. -/
def record (key : α → Option K) (val : α → V) (t : Table K V) (a : α) : Table K V :=
  match key a with
  | some k => t.insert k (val a)
  | none => t

theorem get_record (key : α → Option K) (val : α → V) (t : Table K V) (a : α) (k : K) :
    (record key val t a).get k = if key a = some k then some (val a) else t.get k := by
  unfold record
  cases hk : key a with
  | none => simp
  | some k' =>
    simp only [Option.some.injEq]
    rw [get_insert]
    by_cases h : k = k'
    · rw [if_pos h, if_pos h.symm]
    · rw [if_neg h, if_neg (Ne.symm h)]

/-- **A table filled by a log holds, at each key, the value of the last record that wrote it.** -/
theorem get_foldl_record (key : α → Option K) (val : α → V) (k : K) (v : V) (l : List α) :
    (l.foldl (record key val) empty).get k = some v ↔
      ∃ a, LastWith (fun a => key a = some k) l a ∧ val a = v := by
  -- on the last record: it wrote the key, or the earlier log decides
  induction l using List.reverseRecOn with
  | nil => simp [LastWith]
  | append_singleton l b ih =>
    rw [List.foldl_append, List.foldl_cons, List.foldl_nil, get_record]
    simp only [lastWith_append_singleton]
    by_cases hb : key b = some k
    · simp [hb]
    · simp [hb, ih]

/-- A key no record wrote is not in the table. -/
theorem get_foldl_record_none {key : α → Option K} (val : α → V) {k : K} {l : List α} (h : ∀ a ∈ l, key a ≠ some k) :
    (l.foldl (record key val) empty).get k = none := by
  rw [Option.eq_none_iff_forall_ne_some]
  intro v hget
  rw [get_foldl_record] at hget
  obtain ⟨a, ⟨l₁, l₂, hl, hk, -⟩, -⟩ := hget
  exact h a (by rw [hl]; simp) hk

end Table
end Lib
