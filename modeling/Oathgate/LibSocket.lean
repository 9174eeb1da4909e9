import Oathgate.LibBuf
/-!
# LibSocket — byte streams read through non-blocking receives

A receive asks for at most so many bytes and gets a piece of the stream, or learns that it would block.  `available`
is a socket on which the whole stream has arrived, `deliver` one on which it arrives and is handed out in any pieces.
`Flows` says that the socket gives a run of bytes without coming up empty on the way.  A `Channel` is a socket that
passes control data along with what is sent.
-/
namespace Lib

inductive Errno where
  | wouldBlock
  | other (code : Int)
  deriving DecidableEq, Repr

/-- A non-blocking receive of at most so many bytes, with the socket after it. -/
abbrev Recv (S : Type) := Nat → S → Except Errno (List Byte) × S

/-- **The socket gives these bytes** to reads that ask for what is missing, at most `most` at a time. -/
inductive Flows {S : Type} (recv : Recv S) (most : Nat) : S → List Byte → S → Prop where
  | done (s : S) : Flows recv most s [] s
  | more {s s₁ s₂ : S} {got rest : List Byte} : got ≠ [] → recv (min (got ++ rest).length most) s = (.ok got, s₁) →
      Flows recv most s₁ rest s₂ → Flows recv most s (got ++ rest) s₂

/-- **A receive takes from the front of the stream** and blocks only without taking anything. -/
structure Streams {S : Type} (recv : Recv S) (stream : S → List Byte) : Prop where
  takes : ∀ {n s got s'}, recv n s = (.ok got, s') → stream s = got ++ stream s'
  blocks : ∀ {n s e s'}, recv n s = (.error e, s') → e = .wouldBlock ∧ stream s' = stream s

theorem Streams.flows {S : Type} {recv : Recv S} {stream : S → List Byte} (h : Streams recv stream) {most : Nat}
    {s s' : S} {bytes : List Byte} (hf : Flows recv most s bytes s') : stream s = bytes ++ stream s' := by
  induction hf with
  | done => rfl
  | more _ hrecv _ ih => rw [h.takes hrecv, ih, List.append_assoc]

/-- **What flows from a socket flows from one that simulates it.** -/
theorem Flows.map {S T : Type} {recv : Recv S} {recv' : Recv T} {most : Nat} (f : S → T)
    (hsim : ∀ n s, n ≤ most → recv' n (f s) = ((recv n s).1, f (recv n s).2)) {s s' : S} {bytes : List Byte}
    (h : Flows recv most s bytes s') : Flows recv' most (f s) bytes (f s') := by
  induction h with
  | done s => exact .done (f s)
  | more hgot hrecv _ ih => exact .more hgot (by rw [hsim _ _ (Nat.min_le_right _ _), hrecv]) ih

/-! ## A stream that has arrived -/

/-- The socket holds the rest of the stream. -/
def available : Recv (List Byte) := fun n s => if s = [] then (.error .wouldBlock, s) else (.ok (s.take n), s.drop n)

theorem available_nil (n : Nat) : available n [] = (.error .wouldBlock, []) := rfl

theorem available_append (got rest : List Byte) (h : got ≠ []) :
    available got.length (got ++ rest) = (.ok got, rest) := by
  unfold available
  rw [if_neg (by simp [h]), List.take_left, List.drop_left]

theorem flows_available (most : Nat) (hmost : 0 < most) (bytes rest : List Byte) :
    Flows available most (bytes ++ rest) bytes rest := by
  -- on the length: each read takes a piece of at most `most` bytes
  induction hn : bytes.length using Nat.strong_induction_on generalizing bytes with
  | _ n ih =>
    subst hn
    by_cases hb : bytes = []
    · subst hb
      exact .done rest
    have hpos : 0 < bytes.length := List.length_pos_iff.2 hb
    have htake : bytes.take most ≠ [] := by
      simp only [ne_eq, List.take_eq_nil_iff, hb, or_false]
      omega
    have hrecv : available (min (bytes.take most ++ bytes.drop most).length most) (bytes ++ rest) =
        (.ok (bytes.take most), bytes.drop most ++ rest) := by
      have hlen : min bytes.length most = (bytes.take most).length := by rw [List.length_take, Nat.min_comm]
      rw [List.take_append_drop, hlen, ← available_append _ _ htake, ← List.append_assoc, List.take_append_drop]
    have hrest := ih (bytes.drop most).length (by rw [List.length_drop]; omega) (bytes.drop most) rfl
    have hmore := Flows.more htake hrecv hrest
    rwa [List.take_append_drop] at hmore

/-! ## A stream that arrives in pieces -/

/-- What happens at one receive: so many more bytes arrive first, and at most `most` of them are handed out, though
never none. -/
structure Cut where
  arrivals : Nat
  most : Nat

/-- A stream on its way: what has arrived, what is still to come, and how the receives to come will find it. -/
structure Delivery where
  arrived : List Byte
  coming : List Byte
  cuts : Nat → Cut

namespace Delivery

/-- What has not been read. -/
def stream (d : Delivery) : List Byte := d.arrived ++ d.coming

/-- The socket when the next receive looks at it. -/
def arrive (d : Delivery) : Delivery where
  arrived := d.arrived ++ d.coming.take (d.cuts 0).arrivals
  coming := d.coming.drop (d.cuts 0).arrivals
  cuts := fun i => d.cuts (i + 1)

theorem stream_arrive (d : Delivery) : d.arrive.stream = d.stream := by
  unfold stream arrive
  simp only
  rw [List.append_assoc, List.take_append_drop]

end Delivery

/-- **A receive that returns any non-empty piece of what has arrived**, or would block when nothing has. -/
def deliver : Recv Delivery := fun n d =>
  if d.arrive.arrived = [] then (.error .wouldBlock, d.arrive)
  else
    let k := min n (max 1 (d.cuts 0).most)
    (.ok (d.arrive.arrived.take k), { d.arrive with arrived := d.arrive.arrived.drop k })

theorem streams_deliver : Streams deliver Delivery.stream where
  takes := by
    intro n d got d' h
    unfold deliver at h
    split at h
    · cases h
    · cases h
      rw [← d.stream_arrive]
      unfold Delivery.stream
      simp only
      rw [← List.append_assoc, List.take_append_drop]
  blocks := by
    intro n d e d' h
    unfold deliver at h
    split at h
    · cases h
      exact ⟨rfl, d.stream_arrive⟩
    · cases h

/-- A stream that has arrived, with receives that are given all they ask for, up to `most`. -/
def arrivedWhole (arrivals most : Nat) (bytes : List Byte) : Delivery := ⟨bytes, [], fun _ => ⟨arrivals, most⟩⟩

theorem deliver_arrivedWhole {arrivals most n : Nat} (hn : n ≤ most) (bytes : List Byte) :
    deliver n (arrivedWhole arrivals most bytes) =
      ((available n bytes).1, arrivedWhole arrivals most (available n bytes).2) := by
  have harrive : (arrivedWhole arrivals most bytes).arrive = arrivedWhole arrivals most bytes := by
    simp [Delivery.arrive, arrivedWhole]
  have hk : min n (max 1 most) = n := by omega
  unfold deliver available
  rw [harrive]
  by_cases hb : bytes = []
  · subst hb
    rfl
  · rw [if_neg hb, if_neg (by exact hb)]
    simp only [arrivedWhole, hk]

/-- A receive finds nothing, or at least one byte. -/
theorem deliver_cases (n : Nat) (hn : 0 < n) (d : Delivery) :
    (∃ d', deliver n d = (.error .wouldBlock, d')) ∨ ∃ got d', deliver n d = (.ok got, d') ∧ got ≠ [] := by
  unfold deliver
  split
  · exact Or.inl ⟨_, rfl⟩
  · rename_i h
    refine Or.inr ⟨_, _, rfl, ?_⟩
    simp only [ne_eq, List.take_eq_nil_iff, h, or_false]
    omega

/-! ## A socket that passes control data along -/

/-- One send: its bytes, and the control data that goes with the first of them. -/
structure Segment (A : Type) where
  bytes : List Byte
  control : Option A
  deriving DecidableEq, Repr

/-- What has been sent and not received, and whether the other end is closed. -/
structure Channel (A : Type) where
  segments : List (Segment A)
  closed : Bool
  deriving DecidableEq, Repr

namespace Channel

variable {A : Type}

/-- What a receive of at most so many bytes takes: it goes on to the next send while it has room, but not past control
data. -/
def takeFrom : Nat → List (Segment A) → (List Byte × Option A) × List (Segment A)
  | _, [] => (([], none), [])
  | n, seg :: rest =>
    if n = 0 then (([], none), seg :: rest)
    else if n < seg.bytes.length then ((seg.bytes.take n, seg.control), ⟨seg.bytes.drop n, none⟩ :: rest)
    else if seg.control.isSome then ((seg.bytes, seg.control), rest)
    else
      let ((bytes, control), rest) := takeFrom (n - seg.bytes.length) rest
      ((seg.bytes ++ bytes, control), rest)

/-- A non-blocking receive: nothing to take is an error, or the end of the stream when the other end is closed. -/
def recv (n : Nat) (ch : Channel A) : Except Errno (List Byte × Option A) × Channel A :=
  if ch.segments = [] then (if ch.closed then .ok ([], none) else .error .wouldBlock, ch)
  else (.ok (takeFrom n ch.segments).1, { ch with segments := (takeFrom n ch.segments).2 })

def send (seg : Segment A) (ch : Channel A) : Channel A := { ch with segments := ch.segments ++ [seg] }

theorem takeFrom_zero (segs : List (Segment A)) : takeFrom 0 segs = (([], none), segs) := by
  cases segs with
  | nil => rfl
  | cons seg rest => simp [takeFrom]

/-- **A receive of no more than the first send takes a piece of it**, with its control data. -/
theorem takeFrom_front (a b : List Byte) (ha : a ≠ []) (c : Option A) (rest : List (Segment A)) :
    takeFrom a.length (⟨a ++ b, c⟩ :: rest) = ((a, c), if b = [] then rest else ⟨b, none⟩ :: rest) := by
  have hpos : 0 < a.length := List.length_pos_iff.2 ha
  unfold takeFrom
  rw [if_neg (by omega)]
  by_cases hb : b = []
  · subst hb
    rw [if_neg (by simp), if_pos rfl]
    cases c with
    | none => simp [takeFrom_zero]
    | some c => simp
  · have hlt : 0 < b.length := List.length_pos_iff.2 hb
    rw [if_pos (by simp only [List.length_append]; omega), if_neg hb, List.take_left, List.drop_left]

theorem recv_front (a b : List Byte) (ha : a ≠ []) (c : Option A) (rest : List (Segment A)) (closed : Bool) :
    recv a.length (⟨⟨a ++ b, c⟩ :: rest, closed⟩ : Channel A) =
      (.ok (a, c), ⟨if b = [] then rest else ⟨b, none⟩ :: rest, closed⟩) := by
  unfold recv
  rw [if_neg (by simp)]
  simp only [takeFrom_front a b ha c rest]

/-- **A receive of as many bytes as pieces without control data hold takes them all**, wherever they were cut. -/
theorem takeFrom_pieces (pieces : List (List Byte)) (hpieces : ∀ p ∈ pieces, p ≠ []) (rest : List (Segment A)) :
    takeFrom pieces.flatten.length (pieces.map (fun p => ⟨p, none⟩) ++ rest) = ((pieces.flatten, none), rest) := by
  induction pieces with
  | nil => exact takeFrom_zero rest
  | cons p pieces ih =>
    rw [List.forall_mem_cons] at hpieces
    have hpos : 0 < p.length := List.length_pos_iff.2 hpieces.1
    have hlen : (p :: pieces).flatten.length = p.length + pieces.flatten.length := by
      rw [List.flatten_cons, List.length_append]
    rw [hlen, List.map_cons, List.cons_append]
    unfold takeFrom
    rw [if_neg (by omega), if_neg (by simp), if_neg (by simp), Nat.add_sub_cancel_left, ih hpieces.2, List.flatten_cons]

theorem recv_pieces {pieces : List (List Byte)} (hne : pieces ≠ []) (hpieces : ∀ p ∈ pieces, p ≠ [])
    (rest : List (Segment A)) (closed : Bool) :
    recv pieces.flatten.length ⟨pieces.map (fun p => ⟨p, none⟩) ++ rest, closed⟩ =
      (.ok (pieces.flatten, none), ⟨rest, closed⟩) := by
  unfold recv
  rw [if_neg (by simp [hne])]
  simp only [takeFrom_pieces pieces hpieces rest]

end Channel

end Lib
