import Mathlib.Algebra.Order.Ring.Nat
/-!
# LibRes — computations that return, fail or panic

A call has three ways to end: it returns a value, it returns an error its caller sees, or it panics and takes its
thread with it.  `Res` keeps the three apart, so that "never panics" is a statement about results and not about the
absence of a definition.  `bind` is the `?` operator: an error or a panic ends the rest of the body.
-/
namespace Lib

inductive Panic where
  | outOfRange
  | lengthMismatch
  | unwrap
  | overflow
  deriving DecidableEq, Repr

/-- **The outcome of a call**: a value, an error of type `ε`, or a panic. -/
inductive Res (ε α : Type) where
  | ok (a : α)
  | err (e : ε)
  | panic (p : Panic)
  deriving DecidableEq, Repr

namespace Res

variable {ε ε' α β : Type}

def bind : Res ε α → (α → Res ε β) → Res ε β
  | .ok a, f => f a
  | .err e, _ => .err e
  | .panic p, _ => .panic p

instance : Monad (Res ε) where
  pure := .ok
  bind := Res.bind

/-- `unwrap`: an error becomes a panic. -/
def unwrap : Res ε α → Res ε' α
  | .ok a => .ok a
  | .err _ => .panic .unwrap
  | .panic p => .panic p

/-- `?` where the caller's error type is another: the error is converted. -/
def mapErr (f : ε → ε') : Res ε α → Res ε' α
  | .ok a => .ok a
  | .err e => .err (f e)
  | .panic p => .panic p

/-- The call came back to its caller, with a value or an error. -/
def Returns (x : Res ε α) : Prop := ∀ p, x ≠ .panic p

@[simp] theorem bind_ok (a : α) (f : α → Res ε β) : (Res.ok a >>= f) = f a := rfl

@[simp] theorem bind_err (e : ε) (f : α → Res ε β) : ((Res.err e : Res ε α) >>= f) = .err e := rfl

@[simp] theorem bind_panic (p : Panic) (f : α → Res ε β) : ((Res.panic p : Res ε α) >>= f) = .panic p := rfl

@[simp] theorem pure_eq (a : α) : (pure a : Res ε α) = .ok a := rfl

theorem bind_eq_ok (x : Res ε α) (f : α → Res ε β) (b : β) :
    (x >>= f) = .ok b ↔ ∃ a, x = .ok a ∧ f a = .ok b := by
  cases x <;> simp

@[simp] theorem mapErr_ok (f : ε → ε') (a : α) : (Res.ok a : Res ε α).mapErr f = .ok a := rfl

@[simp] theorem mapErr_eq_ok (f : ε → ε') (x : Res ε α) (a : α) : x.mapErr f = .ok a ↔ x = .ok a := by
  cases x <;> simp [mapErr]

theorem unwrap_eq_ok (x : Res ε α) (a : α) : (x.unwrap : Res ε' α) = .ok a ↔ x = .ok a := by
  cases x <;> simp [unwrap]

@[simp] theorem returns_ok (a : α) : (Res.ok a : Res ε α).Returns := fun p h => by cases h

@[simp] theorem returns_err (e : ε) : (Res.err e : Res ε α).Returns := fun p h => by cases h

@[simp] theorem not_returns_panic (p : Panic) : ¬ (Res.panic p : Res ε α).Returns := fun h => h p rfl

/-- **A sequence returns exactly when its first part does and its continuation does on the value.** -/
theorem returns_bind (x : Res ε α) (f : α → Res ε β) :
    (x >>= f).Returns ↔ x.Returns ∧ ∀ a, x = .ok a → (f a).Returns := by
  cases x with
  | ok a => simp
  | err e => simp
  | panic p => simp

theorem returns_mapErr (f : ε → ε') (x : Res ε α) : (x.mapErr f).Returns ↔ x.Returns := by
  cases x with
  | ok a => exact iff_of_true (returns_ok a) (returns_ok a)
  | err e => exact iff_of_true (returns_err (f e)) (returns_err e)
  | panic p => exact iff_of_false (not_returns_panic p) (not_returns_panic p)

theorem bind_ne_err {x : Res ε α} {f : α → Res ε β} (hx : ∀ e, x ≠ .err e) (hf : ∀ a e, f a ≠ .err e) (e : ε) :
    (x >>= f) ≠ .err e := by
  cases x with
  | ok a => exact hf a e
  | err e' => exact absurd rfl (hx e')
  | panic p => simp

/-- A step that cannot fail with an error, followed by one that never returns, never returns. -/
theorem not_returns_bind {x : Res ε α} {f : α → Res ε β} (hx : ∀ e, x ≠ .err e) (hf : ∀ a, ¬ (f a).Returns) :
    ¬ (x >>= f).Returns := by
  cases x with
  | ok a => exact hf a
  | err e => exact absurd rfl (hx e)
  | panic p => simp

/-! ## With a state

A method that returns a result and updates its receiver keeps the updates it made before an error, so the state stands
beside the result. -/

variable {σ : Type}

/-- **`?` on a method call**: continue on a value, keep the state reached on an error or a panic. -/
def andThen (x : Res ε α × σ) (f : α → σ → Res ε β × σ) : Res ε β × σ :=
  match x.1 with
  | .ok a => f a x.2
  | .err e => (.err e, x.2)
  | .panic p => (.panic p, x.2)

@[simp] theorem andThen_ok (a : α) (s : σ) (f : α → σ → Res ε β × σ) : andThen (.ok a, s) f = f a s := rfl

@[simp] theorem andThen_err (e : ε) (s : σ) (f : α → σ → Res ε β × σ) : andThen (.err e, s) f = (.err e, s) := rfl

@[simp] theorem andThen_panic (p : Panic) (s : σ) (f : α → σ → Res ε β × σ) :
    andThen (.panic p, s) f = (.panic p, s) := rfl

/-- **A sequence gives a value exactly when its first part does and its continuation does.** -/
theorem andThen_eq_ok {x : Res ε α × σ} {f : α → σ → Res ε β × σ} {b : β} {s' : σ} :
    andThen x f = (.ok b, s') ↔ ∃ a s, x = (.ok a, s) ∧ f a s = (.ok b, s') := by
  obtain ⟨r, s⟩ := x
  cases r with
  | ok a => exact ⟨fun h => ⟨a, s, rfl, h⟩, by rintro ⟨_, _, ⟨⟩, h⟩; exact h⟩
  | err e => simp
  | panic p => simp

/-- A first part that leaves the state alone gives its value to the continuation. -/
theorem andThen_stay_eq_ok {r : Res ε α} {s : σ} {f : α → σ → Res ε β × σ} {b : β} {s' : σ} :
    andThen (r, s) f = (.ok b, s') ↔ ∃ a, r = .ok a ∧ f a s = (.ok b, s') := by
  cases r with
  | ok a => simp
  | err e => simp
  | panic p => simp

/-- **What every part of a sequence keeps, the sequence keeps**, however it ends. -/
theorem andThen_keeps {P : σ → Prop} {x : Res ε α × σ} {f : α → σ → Res ε β × σ} (hx : P x.2)
    (hf : ∀ a s, P s → P (f a s).2) : P (andThen x f).2 := by
  obtain ⟨r, s⟩ := x
  cases r with
  | ok a => exact hf a s hx
  | err e => exact hx
  | panic p => exact hx

/-- **What holds at the end of a sequence**: look at the value the first part gave, or at the state it stopped in. -/
theorem andThen_cases {P : Res ε β × σ → Prop} {x : Res ε α × σ} {f : α → σ → Res ε β × σ}
    (hok : ∀ a s, x = (.ok a, s) → P (f a s)) (hstop : ∀ r : Res ε β, (∀ b, r ≠ .ok b) → P (r, x.2)) :
    P (andThen x f) := by
  obtain ⟨r, s⟩ := x
  cases r with
  | ok a => exact hok a s rfl
  | err e => exact hstop (.err e) (fun _ h => by cases h)
  | panic p => exact hstop (.panic p) (fun _ h => by cases h)

/-- The call stopped in the state `s`, or came to what `Q` says. -/
def StopsOr (s : σ) (Q : Res ε β × σ → Prop) (x : Res ε β × σ) : Prop := ((∀ b, x.1 ≠ .ok b) ∧ x.2 = s) ∨ Q x

/-- A first part that leaves the state alone stops there, or the rest goes on from it. -/
theorem stopsOr_andThen {s : σ} {Q : Res ε β × σ → Prop} {x : Res ε α × σ} {f : α → σ → Res ε β × σ} (hx : x.2 = s)
    (hok : ∀ a, x.1 = .ok a → StopsOr s Q (f a s)) : StopsOr s Q (andThen x f) := by
  subst hx
  obtain ⟨r, s⟩ := x
  cases r with
  | ok a => exact hok a rfl
  | err e => exact Or.inl ⟨fun _ h => (by cases h), rfl⟩
  | panic p => exact Or.inl ⟨fun _ h => (by cases h), rfl⟩

theorem returns_andThen (x : Res ε α × σ) (f : α → σ → Res ε β × σ) :
    (andThen x f).1.Returns ↔ x.1.Returns ∧ ∀ a, x.1 = .ok a → (f a x.2).1.Returns := by
  obtain ⟨r, s⟩ := x
  cases r <;> simp

end Res
end Lib
