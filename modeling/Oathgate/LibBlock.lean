import Mathlib.Data.Nat.Notation
/-!
# LibBlock — numbers in blocks of one size

The blocks of size `k` start at its multiples.  `base k x` and `last k x` are the ends of the block `x` lies in, and two
numbers lie in one block exactly when dividing by `k` gives the same (`mem_iff`); the number after `x` is in the block
of `x` unless `x` is its last (`succ_div`).
-/
namespace Lib
namespace Block

variable {k : Nat}

def base (k x : Nat) : Nat := x / k * k

def last (k x : Nat) : Nat := base k x + (k - 1)

theorem base_le (k x : Nat) : base k x ≤ x := Nat.div_mul_le_self x k

theorem le_last (hk : 0 < k) (x : Nat) : x ≤ last k x := by
  have hmod := Nat.mod_lt x hk
  have hdiv := Nat.div_add_mod' x k
  unfold last base
  omega

/-- **The block of `x`** is what lies between its ends. -/
theorem mem_iff (hk : 0 < k) {x y : Nat} : base k x ≤ y ∧ y ≤ last k x ↔ y / k = x / k := by
  constructor
  · rintro ⟨hlow, hhigh⟩
    unfold last at hhigh
    unfold base at hlow hhigh
    refine Nat.div_eq_of_lt_le hlow ?_
    rw [Nat.succ_mul]
    omega
  · intro h
    have hlow := base_le k y
    have hhigh := le_last hk y
    unfold last base at *
    rw [h] at hlow hhigh
    exact ⟨hlow, hhigh⟩

theorem base_congr {x y : Nat} (h : y / k = x / k) : base k y = base k x := by
  unfold base
  rw [h]

theorem last_congr {x y : Nat} (h : y / k = x / k) : last k y = last k x := by
  unfold last
  rw [base_congr h]

/-- **Two blocks are one or have nothing in common.** -/
theorem same_or_apart (hk : 0 < k) (x y : Nat) :
    (base k y = base k x ∧ last k y = last k x) ∨
      ∀ z, ¬ ((base k x ≤ z ∧ z ≤ last k x) ∧ (base k y ≤ z ∧ z ≤ last k y)) := by
  by_cases h : y / k = x / k
  · exact Or.inl ⟨base_congr h, last_congr h⟩
  · refine Or.inr ?_
    rintro z ⟨hx, hy⟩
    exact h (((mem_iff hk).1 hy).symm.trans ((mem_iff hk).1 hx))

/-- **The next number is in the block** unless the block ends. -/
theorem succ_div (hk : 0 < k) {x : Nat} (h : x ≠ last k x) : (x + 1) / k = x / k := by
  have hlow := base_le k x
  have hhigh := le_last hk x
  exact (mem_iff hk).1 ⟨by omega, by omega⟩

/-- After a block's last number the next block begins. -/
theorem succ_div_of_last (hk : 0 < k) {x : Nat} (h : x = last k x) : (x + 1) / k = x / k + 1 := by
  have hnext : x + 1 = (x / k + 1) * k := by
    rw [Nat.succ_mul]
    unfold last base at h
    omega
  rw [hnext, Nat.mul_div_cancel _ hk]

end Block
end Lib
