import Mathlib.Data.Nat.ModEq
/-!
# LibOnes — one's-complement sums

Words below a radix are added with an end-around carry: the carry out of the highest place goes in at the lowest.  The
sum is zero only when all words are, and else the number from one to the radix less one that has the remainder of the
plain sum (`sum_eq`).  `foldOnce` is the short cut that adds plainly and brings the high part back once; it can carry
itself: `foldOnce_eq_iff` says exactly when it does not, and `foldOnce_mod_eq_iff` which sums a fold takes for one
another.
-/
namespace Lib
namespace Ones

def carryAdd (radix a b : Nat) : Nat := (a + b) % radix + (a + b) / radix

/-- The one's-complement sum of some words. -/
def sum (radix : Nat) (ws : List Nat) : Nat := ws.foldl (carryAdd radix) 0

def complement (radix a : Nat) : Nat := radix - 1 - a

/-- The one's-complement value of a plain sum. -/
def residue (radix n : Nat) : Nat := if n = 0 then 0 else (n - 1) % (radix - 1) + 1

/-- The low part of a plain sum and its high part. -/
def foldOnce (radix n : Nat) : Nat := n % radix + n / radix

/-- The carry of a fold. -/
def carry (radix n : Nat) : Nat := foldOnce radix n / radix

variable {radix : Nat}

theorem residue_lt (h : 1 < radix) (n : Nat) : residue radix n < radix := by
  unfold residue
  split
  · omega
  · have hmod := Nat.mod_lt (n - 1) (show radix - 1 > 0 by omega)
    omega

theorem residue_eq_zero {n : Nat} : residue radix n = 0 ↔ n = 0 := by
  unfold residue
  split
  · simp [*]
  · simp [*]

theorem residue_mod (n : Nat) : residue radix n % (radix - 1) = n % (radix - 1) := by
  unfold residue
  split
  · simp [*]
  · rename_i hn
    rw [Nat.mod_add_mod, Nat.sub_add_cancel (Nat.pos_of_ne_zero hn)]

/-- **The value of a sum is told by its size, its remainder and whether it is zero.** -/
theorem eq_residue {a n : Nat} (hlt : a < radix) (hmod : a % (radix - 1) = n % (radix - 1)) (hzero : a = 0 ↔ n = 0) :
    a = residue radix n := by
  unfold residue
  split
  · rename_i hn
    exact hzero.2 hn
  · rename_i hn
    have ha : a ≠ 0 := fun h => hn (hzero.1 h)
    have hpred : (a - 1) % (radix - 1) = (n - 1) % (radix - 1) := by
      have hstep : ∀ x, x ≠ 0 → (x - 1 + 1) % (radix - 1) = x % (radix - 1) := by
        intro x hx
        rw [Nat.sub_add_cancel (Nat.pos_of_ne_zero hx)]
      have hboth : (a - 1 + 1) % (radix - 1) = (n - 1 + 1) % (radix - 1) := by
        rw [hstep a ha, hstep n hn, hmod]
      exact Nat.ModEq.add_right_cancel' 1 hboth
    rw [Nat.mod_eq_of_lt (show a - 1 < radix - 1 by omega)] at hpred
    omega

/-- Bringing the high part back keeps the remainder. -/
theorem foldOnce_mod (n : Nat) : foldOnce radix n % (radix - 1) = n % (radix - 1) := by
  unfold foldOnce
  cases radix with
  | zero => simp
  | succ r =>
    have hn : n = n % (r + 1) + n / (r + 1) + r * (n / (r + 1)) := by
      have hdiv := Nat.mod_add_div n (r + 1)
      have hmul : (r + 1) * (n / (r + 1)) = r * (n / (r + 1)) + n / (r + 1) := Nat.succ_mul _ _
      omega
    rw [Nat.add_sub_cancel]
    conv_rhs => rw [hn, Nat.add_mul_mod_self_left]

theorem foldOnce_eq_zero {n : Nat} : foldOnce radix n = 0 ↔ n = 0 := by
  unfold foldOnce
  constructor
  · intro hfold
    obtain ⟨hlow, hhigh⟩ := Nat.add_eq_zero_iff.1 hfold
    have hdiv := Nat.mod_add_div n radix
    rw [hlow, hhigh, Nat.mul_zero] at hdiv
    exact hdiv.symm
  · rintro rfl
    simp

/-- **A fold that does not carry is the value of the sum.** -/
theorem foldOnce_eq {n : Nat} (hlt : foldOnce radix n < radix) : foldOnce radix n = residue radix n :=
  eq_residue hlt (foldOnce_mod n) foldOnce_eq_zero

/-- A fold that carries is one less than the value of the sum, once the carry is dropped. -/
theorem foldOnce_carries {n : Nat} (hn : n < radix * radix) (hge : radix ≤ foldOnce radix n) :
    foldOnce radix n - radix + 1 = residue radix n ∧ foldOnce radix n % radix = foldOnce radix n - radix ∧
      foldOnce radix n - radix + 1 < radix := by
  have hpos : 0 < radix := by
    rcases Nat.eq_zero_or_pos radix with rfl | hpos
    · simp at hn
    · exact hpos
  have hlow : n % radix < radix := Nat.mod_lt n hpos
  have hhigh : n / radix < radix := Nat.div_lt_of_lt_mul hn
  have hsmall : foldOnce radix n - radix + 1 < radix := by
    unfold foldOnce at hge ⊢
    omega
  refine ⟨eq_residue hsmall ?_ ?_, ?_, hsmall⟩
  · have hback : foldOnce radix n = foldOnce radix n - radix + 1 + (radix - 1) := by omega
    rw [← foldOnce_mod n]
    conv_rhs => rw [hback, Nat.add_mod_right]
  · constructor
    · intro hzero
      omega
    · rintro rfl
      unfold foldOnce at hge
      simp at hge
      omega
  · rw [Nat.mod_eq_sub_mod hge, Nat.mod_eq_of_lt (by omega)]

/-- **Dropping the carry of a fold is right exactly when there is none.** -/
theorem foldOnce_eq_iff {n : Nat} (hn : n < radix * radix) :
    foldOnce radix n % radix = residue radix n ↔ foldOnce radix n < radix := by
  constructor
  · intro heq
    by_contra hge
    obtain ⟨hres, hmod, -⟩ := foldOnce_carries hn (by omega)
    omega
  · intro hlt
    rw [Nat.mod_eq_of_lt hlt]
    exact foldOnce_eq hlt

/-- **Two folds agree, their carries dropped**, exactly when the sums have one remainder up to these carries, and
both or neither come to zero. -/
theorem foldOnce_mod_eq_iff (h : 1 < radix) {m n : Nat} :
    foldOnce radix m % radix = foldOnce radix n % radix ↔
      m + carry radix n ≡ n + carry radix m [MOD radix - 1] ∧
        (radix ∣ foldOnce radix m ↔ radix ∣ foldOnce radix n) := by
  have hfold : ∀ n, foldOnce radix n % radix + carry radix n ≡ n [MOD radix - 1] :=
    fun n => (foldOnce_mod (foldOnce radix n)).trans (foldOnce_mod n)
  have hlt : ∀ n, foldOnce radix n % radix < radix := fun n => Nat.mod_lt _ (by omega)
  have hswap : foldOnce radix n % radix + carry radix n + carry radix m =
      foldOnce radix n % radix + carry radix m + carry radix n := Nat.add_right_comm _ _ _
  have hm := (hfold m).add_right (carry radix n)
  have hn := (hfold n).add_right (carry radix m)
  rw [hswap] at hn
  constructor
  · intro heq
    rw [heq] at hm
    exact ⟨hm.symm.trans hn, by rw [Nat.dvd_iff_mod_eq_zero, Nat.dvd_iff_mod_eq_zero, heq]⟩
  · rintro ⟨hmod, hzero⟩
    have hsame : foldOnce radix m % radix ≡ foldOnce radix n % radix [MOD radix - 1] :=
      (hm.trans (hmod.trans hn.symm)).add_right_cancel' _ |>.add_right_cancel' _
    rw [Nat.dvd_iff_mod_eq_zero, Nat.dvd_iff_mod_eq_zero] at hzero
    rw [eq_residue (hlt m) hsame hzero]
    exact (eq_residue (hlt n) rfl Iff.rfl).symm

/-- **Adding to a plain sum shows in its fold**, but for the values that come to nothing around the carry. -/
theorem foldOnce_add_ne {k : Nat} (hk : 0 < k) (hlt : k + 1 < radix) (n : Nat) :
    foldOnce radix (n + k) % radix ≠ foldOnce radix n % radix := by
  have hshift : ∀ a j, 0 < j → j < radix → (a + j) % radix ≠ a % radix := by
    intro a j hpos hj heq
    exact absurd (Nat.le_of_dvd hpos (Nat.add_modEq_left_iff.1 heq)) (Nat.not_le.2 hj)
  have hdiv := Nat.mod_add_div n radix
  have hlow := Nat.mod_lt n (show radix > 0 by omega)
  by_cases hcarry : n % radix + k < radix
  · have hmod : (n + k) % radix = n % radix + k := by
      rw [Nat.add_mod, Nat.mod_eq_of_lt (show k < radix by omega), Nat.mod_eq_of_lt hcarry]
    have hquot : (n + k) / radix = n / radix := by
      rw [Nat.add_div (by omega), Nat.mod_eq_of_lt (show k < radix by omega), if_neg (by omega),
        Nat.div_eq_of_lt (show k < radix by omega), Nat.add_zero]
    have hfold : foldOnce radix (n + k) = foldOnce radix n + k := by
      unfold foldOnce
      omega
    rw [hfold]
    exact hshift _ k hk (by omega)
  · have hmod : (n + k) % radix + radix = n % radix + k := by
      rw [Nat.add_mod, Nat.mod_eq_of_lt (show k < radix by omega), Nat.mod_eq_sub_mod (by omega),
        Nat.mod_eq_of_lt (by omega), Nat.sub_add_cancel (by omega)]
    have hquot : (n + k) / radix = n / radix + 1 := by
      rw [Nat.add_div (by omega), Nat.mod_eq_of_lt (show k < radix by omega), if_pos (by omega),
        Nat.div_eq_of_lt (show k < radix by omega), Nat.add_zero]
    have hfold : foldOnce radix (n + k) + radix = foldOnce radix n + (k + 1) := by
      unfold foldOnce
      omega
    rw [← Nat.add_mod_right, hfold]
    exact hshift _ (k + 1) (by omega) hlt

/-! ## Sums -/

theorem carryAdd_eq_foldOnce (a b : Nat) : carryAdd radix a b = foldOnce radix (a + b) := rfl

/-- **One more word.** -/
theorem carryAdd_residue (h : 1 < radix) (n : Nat) {b : Nat} (hb : b < radix) :
    carryAdd radix (residue radix n) b = residue radix (n + b) := by
  have ha := residue_lt h n
  have hlt : carryAdd radix (residue radix n) b < radix := by
    unfold carryAdd
    by_cases hsum : residue radix n + b < radix
    · rw [Nat.mod_eq_of_lt hsum, Nat.div_eq_of_lt hsum]
      omega
    · rw [Nat.mod_eq_sub_mod (by omega), Nat.mod_eq_of_lt (by omega),
        Nat.div_eq_of_lt_le (k := 1) (by omega) (by omega)]
      omega
  apply eq_residue hlt
  · rw [carryAdd_eq_foldOnce, foldOnce_mod, Nat.add_mod, residue_mod, ← Nat.add_mod]
  · rw [carryAdd_eq_foldOnce, foldOnce_eq_zero, Nat.add_eq_zero_iff, Nat.add_eq_zero_iff, residue_eq_zero]

/-- **A one's-complement sum has the value of the plain sum.** -/
theorem sum_eq (h : 1 < radix) {ws : List Nat} (hws : ∀ w ∈ ws, w < radix) : sum radix ws = residue radix ws.sum := by
  have hfrom : ∀ (ws : List Nat) (n : Nat), (∀ w ∈ ws, w < radix) →
      ws.foldl (carryAdd radix) (residue radix n) = residue radix (n + ws.sum) := by
    intro ws
    induction ws with
    | nil => exact fun n _ => rfl
    | cons w ws ih =>
      intro n hws
      rw [List.foldl_cons, carryAdd_residue h n (hws w List.mem_cons_self),
        ih _ fun x hx => hws x (List.mem_cons_of_mem _ hx), List.sum_cons, Nat.add_assoc]
  have hzero := hfrom ws 0 hws
  rw [Nat.zero_add] at hzero
  exact hzero

/-- **A sum and its complement come to all ones.** -/
theorem residue_add_complement (h : 1 < radix) (n : Nat) :
    residue radix (n + complement radix (residue radix n)) = radix - 1 := by
  have hlt := residue_lt h n
  rw [← carryAdd_residue h n (show complement radix (residue radix n) < radix by unfold complement; omega)]
  have hsum : residue radix n + complement radix (residue radix n) = radix - 1 := by
    unfold complement
    omega
  unfold carryAdd
  rw [hsum, Nat.mod_eq_of_lt (by omega), Nat.div_eq_of_lt (by omega), Nat.add_zero]

/-- **The complement of a fold, its carry dropped**, makes the sum all ones exactly when there was no carry. -/
theorem residue_add_fold_iff (h : 2 < radix) {n : Nat} (hn : n < radix * radix) :
    residue radix (n + complement radix (foldOnce radix n % radix)) = radix - 1 ↔ foldOnce radix n < radix := by
  constructor
  · intro hall
    by_contra hge
    obtain ⟨hres, hmod, hsmall⟩ := foldOnce_carries hn (by omega)
    have hone : carryAdd radix (residue radix n) (complement radix (foldOnce radix n % radix)) = 1 := by
      have hsum : residue radix n + complement radix (foldOnce radix n % radix) = radix := by
        unfold complement
        omega
      unfold carryAdd
      rw [hsum, Nat.mod_self, Nat.div_self (by omega)]
    rw [carryAdd_residue (by omega) n (by unfold complement; omega)] at hone
    omega
  · intro hlt
    rw [(foldOnce_eq_iff hn).2 hlt]
    exact residue_add_complement (by omega) n

end Ones
end Lib
