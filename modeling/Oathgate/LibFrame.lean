import Mathlib.Data.List.Basic
/-!
# LibFrame — messages that say in a header how long they are

A `Framing` is a header of a fixed length and the size it announces.  A stream of frames is cut in one way only
(`frames_flatten`): no frame is the beginning of another, so that a reader needs nothing but the bytes.
-/
namespace Lib

/-- How frames say where they end. -/
structure Framing (α : Type) where
  head : Nat
  pos : 0 < head
  size : List α → Nat

namespace Framing

variable {α : Type} (f : Framing α)

/-- A header, and as much after it as it announces. -/
def IsFrame (x : List α) : Prop := f.head ≤ x.length ∧ x.length = f.head + f.size (x.take f.head)

/-- The first frame of a stream and what follows it, if all of it is there. -/
def next (s : List α) : Option (List α × List α) :=
  let n := f.head + f.size (s.take f.head)
  if s.length < f.head ∨ s.length < n then none else some (s.take n, s.drop n)

/-- The frames a stream begins with, and the rest. -/
def framesFrom : Nat → List α → List (List α) × List α
  | 0, s => ([], s)
  | fuel + 1, s =>
    match f.next s with
    | none => ([], s)
    | some (x, rest) => (x :: (framesFrom fuel rest).1, (framesFrom fuel rest).2)

def frames (s : List α) : List (List α) × List α := f.framesFrom s.length s

variable {f}

theorem isFrame_append {hdr payload : List α} (hhead : hdr.length = f.head) (hsize : f.size hdr = payload.length) :
    f.IsFrame (hdr ++ payload) := by
  unfold IsFrame
  rw [List.take_left' hhead, hsize, List.length_append, hhead]
  exact ⟨Nat.le_add_right _ _, rfl⟩

theorem IsFrame.pos {x : List α} (hx : f.IsFrame x) : 0 < x.length := Nat.lt_of_lt_of_le f.pos hx.1

/-- **A frame is read off the front of a stream**, and what follows it is left. -/
theorem IsFrame.next_append {x : List α} (hx : f.IsFrame x) (rest : List α) : f.next (x ++ rest) = some (x, rest) := by
  obtain ⟨hle, hlen⟩ := hx
  unfold next
  simp only
  rw [List.take_append_of_le_length hle, ← hlen, if_neg (by rw [List.length_append]; omega), List.take_left,
    List.drop_left]

theorem framesFrom_flatten : ∀ (xs : List (List α)) (rest : List α) (fuel : Nat), (∀ x ∈ xs, f.IsFrame x) →
    f.next rest = none → xs.length ≤ fuel → f.framesFrom fuel (xs.flatten ++ rest) = (xs, rest)
  | [], rest, 0, _, _, _ => rfl
  | [], rest, fuel + 1, _, hrest, _ => by
    simp only [framesFrom, List.flatten_nil, List.nil_append, hrest]
  | x :: xs, rest, fuel + 1, hxs, hrest, hfuel => by
    have hx := hxs x List.mem_cons_self
    have ih := framesFrom_flatten xs rest fuel (fun y hy => hxs y (List.mem_cons_of_mem x hy)) hrest
      (by simpa using hfuel)
    simp only [framesFrom, List.flatten_cons, List.append_assoc, hx.next_append, ih]

theorem length_le_flatten : ∀ (xs : List (List α)), (∀ x ∈ xs, 0 < x.length) → xs.length ≤ xs.flatten.length
  | [], _ => Nat.le_refl 0
  | x :: xs, h => by
    have hx := h x List.mem_cons_self
    have ih := length_le_flatten xs fun y hy => h y (List.mem_cons_of_mem x hy)
    rw [List.flatten_cons, List.length_append, List.length_cons]
    omega

/-- **A stream of frames is cut into just these frames.** -/
theorem frames_flatten {xs : List (List α)} (hxs : ∀ x ∈ xs, f.IsFrame x) : f.frames xs.flatten = (xs, []) := by
  have hnil : f.next ([] : List α) = none := by
    unfold next
    exact if_pos (Or.inl f.pos)
  have hlen := length_le_flatten xs fun x hx => (hxs x hx).pos
  have hcut := framesFrom_flatten xs [] xs.flatten.length hxs hnil hlen
  rwa [List.append_nil] at hcut

end Framing
end Lib
