import Oathgate.LibRun
import Oathgate.LibTable
/-!
# LibLease — handing out the resources of a pool

Who holds what is a table from resources to holders.  A grant gives a resource that nobody else holds (`Grant`); the
free part of a pool is what the table does not hold (`free`).  Grants never take a resource away, so a holder keeps
what it was given along every run (`run_keeps`), and a grant removes exactly its resource from the free part
(`free_insert`).
-/
namespace Lib
namespace Lease

variable {α β : Type} [DecidableEq α]

/-- **`held` gives `g.1` to `g.2`**: nobody else holds it. -/
def Grant (held : Table α β) (g : α × β) (held' : Table α β) : Prop :=
  (∀ b, held.get g.1 = some b → b = g.2) ∧ held' = held.insert g.1 g.2

theorem grant_keeps {held held' : Table α β} {g : α × β} (h : Grant held g held') {a : α} {b : β}
    (ha : held.get a = some b) : held'.get a = some b := by
  obtain ⟨hfree, rfl⟩ := h
  by_cases hag : a = g.1
  · subst hag
    rw [hfree b ha, Table.get_insert_self]
  · rw [Table.get_insert_of_ne _ _ hag, ha]

theorem grant_all {held held' : Table α β} {g : α × β} (h : Grant held g held') (P : α → Prop) :
    (∀ a b, held'.get a = some b → P a) ↔ (∀ a b, held.get a = some b → P a) ∧ P g.1 := by
  constructor
  · exact fun hP => ⟨fun a b ha => hP a b (grant_keeps h ha), hP g.1 g.2 (by rw [h.2, Table.get_insert_self])⟩
  · rintro ⟨hP, hg⟩ a b ha
    rw [h.2, Table.get_insert] at ha
    by_cases hag : a = g.1
    · exact hag ▸ hg
    · exact hP a b (by rwa [if_neg hag] at ha)

omit [DecidableEq α] in
/-- Nobody holds two resources. -/
def One (held : Table α β) : Prop := ∀ a a' b, held.get a = some b → held.get a' = some b → a = a'

/-- **A grant leaves nobody with two resources** when nobody had two and its receiver had no other one. -/
theorem grant_one_iff {held held' : Table α β} {g : α × β} (h : Grant held g held') :
    One held' ↔ One held ∧ ∀ a, held.get a = some g.2 → a = g.1 := by
  have hnew : held'.get g.1 = some g.2 := by rw [h.2, Table.get_insert_self]
  have hold : ∀ a b, held'.get a = some b → a ≠ g.1 → held.get a = some b := by
    intro a b ha hne
    rwa [h.2, Table.get_insert_of_ne _ _ hne] at ha
  constructor
  · intro hone
    exact ⟨fun a a' b ha ha' => hone a a' b (grant_keeps h ha) (grant_keeps h ha'),
      fun a ha => hone a g.1 g.2 (grant_keeps h ha) hnew⟩
  · rintro ⟨hone, honly⟩ a a' b ha ha'
    by_cases hag : a = g.1
    · by_cases hag' : a' = g.1
      · rw [hag, hag']
      · rw [hag, hnew, Option.some.injEq] at ha
        rw [← ha] at ha'
        exact hag.trans (honly a' (hold a' _ ha' hag')).symm
    · by_cases hag' : a' = g.1
      · rw [hag', hnew, Option.some.injEq] at ha'
        rw [← ha'] at ha
        exact (honly a (hold a _ ha hag)).trans hag'.symm
      · exact hone a a' b (hold a b ha hag) (hold a' b ha' hag')

/-- **Every grant of a run still stands at its end.** -/
theorem run_stands {held held' : Table α β} {gs : List (α × β)} (h : Run Grant held gs held') :
    ∀ g ∈ gs, held'.get g.1 = some g.2 := by
  refine Run.invariant (I := fun gs t => ∀ g ∈ gs, t.get g.1 = some g.2) (by simp) ?_ h
  intro gs t g u _ hi hg x hx
  rcases List.mem_append.1 hx with hx | hx
  · exact grant_keeps hg (hi x hx)
  · rw [List.mem_singleton.1 hx, hg.2, Table.get_insert_self]

/-! ## The free part of a pool -/

omit [DecidableEq α] in
def free (pool : List α) (held : Table α β) : List α := pool.filter (fun a => (held.get a).isNone)

omit [DecidableEq α] in
theorem free_empty (pool : List α) : free pool (Table.empty : Table α β) = pool :=
  List.filter_eq_self.2 (fun _ _ => rfl)

omit [DecidableEq α] in
theorem mem_free {pool : List α} {held : Table α β} {a : α} : a ∈ free pool held ↔ a ∈ pool ∧ held.get a = none := by
  simp [free]

omit [DecidableEq α] in
theorem nodup_free {pool : List α} (held : Table α β) (h : pool.Nodup) : (free pool held).Nodup :=
  List.Pairwise.filter _ h

theorem free_insert (pool : List α) (held : Table α β) (a : α) (b : β) :
    free pool (held.insert a b) = (free pool held).filter (fun x => decide (x ≠ a)) := by
  unfold free
  rw [List.filter_filter]
  apply List.filter_congr
  intro x _
  by_cases hx : x = a
  · subst hx; simp
  · rw [Table.get_insert_of_ne _ _ hx]; simp [hx]

/-- **Taking the first free resource leaves the rest.** -/
theorem free_insert_head {pool rest : List α} {held : Table α β} {a : α} (b : β) (hpool : pool.Nodup)
    (h : free pool held = a :: rest) : free pool (held.insert a b) = rest := by
  have hnd := nodup_free held hpool
  rw [h, List.nodup_cons] at hnd
  rw [free_insert, h, List.filter_cons_of_neg (by simp)]
  exact List.filter_eq_self.2 (fun x hx => by simpa using ne_of_mem_of_not_mem hx hnd.1)

omit [DecidableEq α] in
theorem free_head {pool rest : List α} {held : Table α β} {a : α} (h : free pool held = a :: rest) :
    held.get a = none := (mem_free.1 (by rw [h]; exact List.mem_cons_self)).2

end Lease
end Lib
