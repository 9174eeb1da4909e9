/-!
# LibMailbox — things left for an owner who waits to be told

Whoever leaves a thing rings after it; the owner hears a ring once, and takes what there is some time after.  Nothing is
forgotten as long as the owner takes everything after every ring it has heard (`Awaited`); an owner that takes one thing
a ring falls behind whenever a ring was not heard before the next (`Behind`).
-/
namespace Lib

variable {α : Type}

/-- What was left and not taken, how often that was not rung for yet, and whether there is a ring to hear. -/
structure Mailbox (α : Type) where
  items : List α
  silent : Nat
  rung : Bool

namespace Mailbox

def empty : Mailbox α := ⟨[], 0, false⟩

def leave (a : α) (box : Mailbox α) : Mailbox α :=
  { box with items := box.items ++ [a], silent := box.silent + 1 }

/-- The ring for a thing that was left before. -/
def ring (box : Mailbox α) : Mailbox α := { box with silent := box.silent - 1, rung := true }

/-- A thing that is left and rung for at once. -/
def deliver (a : α) (box : Mailbox α) : Mailbox α := { box with items := box.items ++ [a], rung := true }

/-- Things that are left and rung for at once, if there are any. -/
def deliverAll (as : List α) (box : Mailbox α) : Mailbox α :=
  if as = [] then box else { box with items := box.items ++ as, rung := true }

def hear (box : Mailbox α) : Mailbox α := { box with rung := false }

def takeAll (box : Mailbox α) : Mailbox α := { box with items := [] }

def takeFirst (n : Nat) (box : Mailbox α) : Mailbox α := { box with items := box.items.drop n }

@[simp] theorem items_deliverAll (as : List α) (box : Mailbox α) : (box.deliverAll as).items = box.items ++ as := by
  unfold deliverAll
  split
  · rename_i h
    rw [h, List.append_nil]
  · rfl

theorem rung_deliverAll {as : List α} {box : Mailbox α} (h : (box.deliverAll as).rung = false) :
    as = [] ∧ box.rung = false := by
  unfold deliverAll at h
  split at h
  · rename_i hnil
    exact ⟨hnil, h⟩
  · cases h

@[simp] theorem silent_deliverAll (as : List α) (box : Mailbox α) : (box.deliverAll as).silent = box.silent := by
  unfold deliverAll
  split
  · rfl
  · rfl

/-- **Nothing is forgotten**: what lies in the box will be rung for, can be heard, or is attended to. -/
def Awaited (attended : Prop) (box : Mailbox α) : Prop :=
  box.items ≠ [] → 0 < box.silent ∨ box.rung = true ∨ attended

variable {attended attended' : Prop} {box : Mailbox α}

theorem awaited_empty : (empty : Mailbox α).Awaited attended := fun h => absurd rfl h

theorem awaited_nil (h : box.items = []) : box.Awaited attended := fun hne => absurd h hne

theorem awaited_leave (a : α) : (box.leave a).Awaited attended := fun _ => Or.inl (Nat.succ_pos _)

theorem awaited_ring : box.ring.Awaited attended := fun _ => Or.inr (Or.inl rfl)

theorem awaited_deliver (a : α) : (box.deliver a).Awaited attended := fun _ => Or.inr (Or.inl rfl)

theorem Awaited.deliverAll (as : List α) (h : box.Awaited attended) : (box.deliverAll as).Awaited attended := by
  unfold Mailbox.deliverAll
  split
  · exact h
  · exact fun _ => Or.inr (Or.inl rfl)

/-- The owner attends after a ring it has heard. -/
theorem awaited_hear (h : attended) : box.hear.Awaited attended := fun _ => Or.inr (Or.inr h)

theorem Awaited.mono (h : box.Awaited attended) (himp : attended → attended') : box.Awaited attended' := by
  intro hne
  rcases h hne with h | h | h
  · exact Or.inl h
  · exact Or.inr (Or.inl h)
  · exact Or.inr (Or.inr (himp h))

/-- **At rest the box is empty**: no ring is due or to be heard, and the owner attends to nothing. -/
theorem Awaited.at_rest (h : box.Awaited attended) (hsilent : box.silent = 0) (hrung : box.rung = false)
    (hidle : ¬ attended) : box.items = [] := by
  by_cases hne : box.items = []
  · exact hne
  · rcases h hne with h | h | h
    · omega
    · rw [hrung] at h
      cases h
    · exact absurd h hidle

/-! ## An owner that takes one thing a ring -/

/-- What lies in the box of an owner that takes one thing for each ring it has heard: as many things as it is behind,
one more while there is a ring to hear, and one more while the thing for the last ring is `due`. -/
def Behind (n : Nat) (due : Bool) (box : Mailbox α) : Prop := box.items.length = n + box.rung.toNat + due.toNat

variable {n : Nat} {due : Bool}

theorem behind_empty : (empty : Mailbox α).Behind 0 false := rfl

/-- **A thing that comes while there is a ring to hear is one more to be behind.** -/
theorem Behind.deliver (a : α) (h : box.Behind n due) : (box.deliver a).Behind (if box.rung then n + 1 else n) due := by
  unfold Behind at h ⊢
  unfold Mailbox.deliver
  simp only [List.length_append, List.length_singleton]
  cases hrung : box.rung with
  | true =>
    rw [hrung] at h
    simp only [if_true, Bool.toNat_true] at h ⊢
    omega
  | false =>
    rw [hrung] at h
    simp only [Bool.false_eq_true, if_false, Bool.toNat_true, Bool.toNat_false] at h ⊢
    omega

theorem Behind.hear (h : box.Behind n false) (hrung : box.rung = true) : box.hear.Behind n true := by
  unfold Behind at h ⊢
  rw [hrung] at h
  exact h

theorem Behind.take {a : α} {rest : List α} (h : box.Behind n true) (hitems : box.items = a :: rest) :
    (box.takeFirst 1).Behind n false := by
  unfold Behind at h ⊢
  unfold takeFirst
  rw [hitems, List.length_cons] at h
  simp only [hitems, List.drop_succ_cons, List.drop_zero]
  simp only [Bool.toNat_true, Bool.toNat_false] at h ⊢
  omega

/-- **A thing that was due and not taken is one more to be behind.** -/
theorem Behind.miss (h : box.Behind n true) : box.Behind (n + 1) false := by
  unfold Behind at h ⊢
  simp only [Bool.toNat_true, Bool.toNat_false] at h ⊢
  omega

/-- There is a thing to take for a ring that was heard. -/
theorem Behind.ne_nil (h : box.Behind n true) : box.items ≠ [] := by
  intro hnone
  unfold Behind at h
  rw [hnone, List.length_nil, Bool.toNat_true] at h
  omega

theorem Behind.le (h : box.Behind n due) : n ≤ box.items.length := by
  unfold Behind at h
  omega

theorem Behind.at_rest (h : box.Behind n false) (hrung : box.rung = false) : box.items.length = n := by
  unfold Behind at h
  rw [hrung] at h
  exact h

end Mailbox
end Lib
