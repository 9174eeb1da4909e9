import Mathlib.Data.List.Forall2
import Mathlib.Data.List.Induction
import Mathlib.Data.Nat.Digits.Defs
import Mathlib.Tactic.Ring
/-!
# LibRadix — numerals in a radix

`readRadix` is Rust's `from_str_radix` for the unsigned type of `w` bits: one plus sign may stand in front, every
further character is a digit, and each step of the accumulation is checked.  What it computes is the value of the digits
where this fits the type (`readRadix_eq_some`), so it takes back what the formatter writes, whatever zeros this pads
with (`readRadix_padded`), and it sees no more of a text than its digits (`readRadix_congr`).
-/
namespace Lib
namespace Radix

/-! ## Digits -/

/-- The digits and then the letters, of either case. -/
def charValue (c : Char) : Option Nat :=
  if '0'.toNat ≤ c.toNat ∧ c.toNat ≤ '9'.toNat then some (c.toNat - '0'.toNat)
  else if 'a'.toNat ≤ c.toNat ∧ c.toNat ≤ 'z'.toNat then some (c.toNat - 'a'.toNat + 10)
  else if 'A'.toNat ≤ c.toNat ∧ c.toNat ≤ 'Z'.toNat then some (c.toNat - 'A'.toNat + 10)
  else none

/-- `char::to_digit` -/
def toDigit (radix : Nat) (c : Char) : Option Nat := (charValue c).filter (· < radix)

theorem toDigit_lt {radix d : Nat} {c : Char} (h : toDigit radix c = some d) : d < radix := by
  have hfilter := (Option.filter_eq_some_iff.1 h).2
  exact of_decide_eq_true hfilter

theorem ne_plus_of_digit {radix : Nat} {c : Char} (h : (toDigit radix c).isSome) : c ≠ '+' := by
  have hplus : toDigit radix '+' = none := rfl
  rintro rfl
  rw [hplus] at h
  cases h

theorem toDigit_zero {radix : Nat} (h : 0 < radix) : toDigit radix '0' = some 0 :=
  Option.filter_eq_some_iff.2 ⟨rfl, decide_eq_true h⟩

theorem charValue_digitChar : ∀ d < 16, charValue d.digitChar = some d := by decide

theorem toDigit_digitChar {radix d : Nat} (hradix : radix ≤ 16) (h : d < radix) :
    toDigit radix d.digitChar = some d :=
  Option.filter_eq_some_iff.2 ⟨charValue_digitChar d (by omega), decide_eq_true h⟩

theorem toNat_toUpper (c : Char) :
    c.toUpper.toNat = if 'a'.toNat ≤ c.toNat ∧ c.toNat ≤ 'z'.toNat then c.toNat - 32 else c.toNat := by
  unfold Char.toUpper
  split
  · rename_i h
    have hlow : 97 ≤ c.val.toNat := h.1
    have hhigh : c.val.toNat ≤ 122 := h.2
    have hshift : ('A'.val - 'a'.val).toNat = 2 ^ 32 - 32 := rfl
    rw [if_pos ⟨hlow, hhigh⟩]
    show (c.val + ('A'.val - 'a'.val)).toNat = c.val.toNat - 32
    rw [UInt32.toNat_add, hshift]
    omega
  · rename_i h
    exact (if_neg h).symm

/-- **The case of a letter does not matter.** -/
theorem toDigit_toUpper (radix : Nat) (c : Char) : toDigit radix c.toUpper = toDigit radix c := by
  have hvalue : charValue c.toUpper = charValue c := by
    unfold charValue
    rw [toNat_toUpper]
    simp only [show '0'.toNat = 48 from rfl, show '9'.toNat = 57 from rfl, show 'a'.toNat = 97 from rfl,
      show 'z'.toNat = 122 from rfl, show 'A'.toNat = 65 from rfl, show 'Z'.toNat = 90 from rfl]
    grind
  unfold toDigit
  rw [hvalue]

/-! ## Values -/

/-- Digits, and at least one of them. -/
def IsNumeral (radix : Nat) (s : List Char) : Prop := s ≠ [] ∧ ∀ c ∈ s, (toDigit radix c).isSome

instance (radix : Nat) (s : List Char) : Decidable (IsNumeral radix s) :=
  @instDecidableAnd _ _ _ (List.decidableBAll _ s)

/-- What the digits of a text come to, the last one counting least. -/
def value (radix : Nat) (s : List Char) : Nat := Nat.ofDigits radix (s.filterMap (toDigit radix)).reverse

theorem IsNumeral.head_ne_plus {radix : Nat} {s : List Char} (h : IsNumeral radix s) : s.head? ≠ some '+' :=
  fun hhead => ne_plus_of_digit (h.2 '+' (List.mem_of_mem_head? hhead)) rfl

theorem value_snoc {radix d : Nat} {c : Char} (s : List Char) (h : toDigit radix c = some d) :
    value radix (s ++ [c]) = value radix s * radix + d := by
  unfold value
  rw [List.filterMap_append, List.reverse_append, List.filterMap_cons_some h, List.filterMap_nil,
    List.reverse_singleton, List.singleton_append, Nat.ofDigits_cons]
  ring

theorem value_zeros {radix : Nat} (hradix : 0 < radix) (k : Nat) (s : List Char) :
    value radix (List.replicate k '0' ++ s) = value radix s := by
  have hzeros : (List.replicate k '0').filterMap (toDigit radix) = List.replicate k 0 :=
    List.filterMap_replicate_of_some (toDigit_zero hradix)
  unfold value
  rw [List.filterMap_append, List.reverse_append, hzeros, List.reverse_replicate, Nat.ofDigits_append_replicate_zero]

/-! ## Reading -/

/-- A checked operation: nothing where the result does not fit the type. -/
def fitting (w n : Nat) : Option Nat := if n < 2 ^ w then some n else none

/-- One round of the loop: `checked_mul`, the digit, `checked_add`. -/
def pushDigit (w radix acc : Nat) (c : Char) : Option Nat := do
  let shifted ← fitting w (acc * radix)
  let digit ← toDigit radix c
  fitting w (shifted + digit)

/-- `from_str_radix` -/
def readRadix (w radix : Nat) (s : List Char) : Option (BitVec w) :=
  let digits := if s.head? = some '+' then s.tail else s
  if digits = [] then none else (digits.foldlM (pushDigit w radix) 0).map (BitVec.ofNat w)

theorem fitting_eq_some {w n m : Nat} : fitting w n = some m ↔ n = m ∧ m < 2 ^ w := by
  unfold fitting
  constructor
  · intro h
    split at h
    · rename_i hlt
      obtain rfl := Option.some.inj h
      exact ⟨rfl, hlt⟩
    · cases h
  · rintro ⟨rfl, hlt⟩
    exact if_pos hlt

/-- The product fits where the sum does. -/
theorem pushDigit_eq_some {w radix acc n : Nat} {c : Char} :
    pushDigit w radix acc c = some n ↔ ∃ d, toDigit radix c = some d ∧ acc * radix + d = n ∧ n < 2 ^ w := by
  unfold pushDigit
  simp only [Option.bind_eq_bind, Option.bind_eq_some_iff, fitting_eq_some]
  constructor
  · rintro ⟨_, ⟨rfl, -⟩, d, hd, hsum, hlt⟩
    exact ⟨d, hd, hsum, hlt⟩
  · rintro ⟨d, hd, hsum, hlt⟩
    exact ⟨_, ⟨rfl, by omega⟩, d, hd, hsum, hlt⟩

/-- **The loop computes the value of its digits, and stops where there is another character or no room.** -/
theorem foldlM_pushDigit {w radix : Nat} {s : List Char} : ∀ {n : Nat},
    s.foldlM (pushDigit w radix) 0 = some n ↔
      (∀ c ∈ s, (toDigit radix c).isSome) ∧ value radix s = n ∧ n < 2 ^ w := by
  induction s using List.reverseRecOn with
  | nil =>
    intro n
    have hzero : value radix [] = 0 := rfl
    rw [hzero, List.foldlM_nil]
    constructor
    · intro h
      obtain rfl := Option.some.inj h
      exact ⟨by simp, rfl, Nat.two_pow_pos w⟩
    · rintro ⟨-, rfl, -⟩
      rfl
  | append_singleton s c ih =>
    intro n
    have hstep : (s ++ [c]).foldlM (pushDigit w radix) 0 = some n ↔
        ∃ acc, s.foldlM (pushDigit w radix) 0 = some acc ∧ pushDigit w radix acc c = some n := by
      simp only [List.foldlM_append, List.foldlM_cons, List.foldlM_nil, Option.pure_def, Option.bind_eq_bind,
        Option.bind_fun_some, Option.bind_eq_some_iff]
    rw [hstep]
    constructor
    · rintro ⟨acc, hacc, hpush⟩
      obtain ⟨hdigits, hvalue, -⟩ := ih.1 hacc
      obtain ⟨d, hd, hsum, hlt⟩ := pushDigit_eq_some.1 hpush
      refine ⟨?_, ?_, hlt⟩
      · intro c' hc'
        rcases List.mem_append.1 hc' with hs | hlast
        · exact hdigits c' hs
        · obtain rfl := List.mem_singleton.1 hlast
          exact Option.isSome_of_eq_some hd
      · rw [value_snoc s hd, hvalue, hsum]
    · rintro ⟨hdigits, hvalue, hlt⟩
      obtain ⟨d, hd⟩ := Option.isSome_iff_exists.1 (hdigits c (by simp))
      rw [value_snoc s hd] at hvalue
      have hle : value radix s ≤ value radix s * radix :=
        Nat.le_mul_of_pos_right _ (Nat.zero_lt_of_lt (toDigit_lt hd))
      have hacc := ih.2 ⟨fun c hc => hdigits c (by simp [hc]), rfl, by omega⟩
      exact ⟨_, hacc, pushDigit_eq_some.2 ⟨d, hd, hvalue, hlt⟩⟩

/-- **Without a sign, what is read is a numeral and its value.** -/
theorem readRadix_eq_some {w radix : Nat} {s : List Char} {b : BitVec w} (hplus : s.head? ≠ some '+') :
    readRadix w radix s = some b ↔ IsNumeral radix s ∧ value radix s = b.toNat := by
  unfold readRadix IsNumeral
  simp only [if_neg hplus]
  constructor
  · intro h
    split at h
    · cases h
    · rename_i hne
      obtain ⟨n, hn, rfl⟩ := Option.map_eq_some_iff.1 h
      obtain ⟨hdigits, hvalue, hlt⟩ := foldlM_pushDigit.1 hn
      refine ⟨⟨hne, hdigits⟩, ?_⟩
      rw [hvalue, BitVec.toNat_ofNat, Nat.mod_eq_of_lt hlt]
  · rintro ⟨⟨hne, hdigits⟩, hvalue⟩
    rw [if_neg hne, foldlM_pushDigit.2 ⟨hdigits, hvalue, b.isLt⟩, Option.map_some, BitVec.ofNat_toNat,
      BitVec.setWidth_eq]

/-- A numeral whose value fits is read as it. -/
theorem readRadix_of_lt {w radix : Nat} {s : List Char} (h : IsNumeral radix s) (hlt : value radix s < 2 ^ w) :
    readRadix w radix s = some (BitVec.ofNat w (value radix s)) := by
  refine (readRadix_eq_some h.head_ne_plus).2 ⟨h, ?_⟩
  rw [BitVec.toNat_ofNat, Nat.mod_eq_of_lt hlt]

/-- Two texts with the same digits at the same places, and a plus sign at the same places. -/
abbrev SameDigits (radix : Nat) : List Char → List Char → Prop :=
  List.Forall₂ fun c d => toDigit radix c = toDigit radix d ∧ (c = '+' ↔ d = '+')

theorem foldlM_congr {w radix : Nat} {s t : List Char} (h : SameDigits radix s t) (acc : Nat) :
    s.foldlM (pushDigit w radix) acc = t.foldlM (pushDigit w radix) acc := by
  induction h generalizing acc with
  | nil => rfl
  | @cons c d s t hhead _ ih =>
    have hpush : pushDigit w radix acc c = pushDigit w radix acc d := by
      unfold pushDigit
      rw [hhead.1]
    simp only [List.foldlM_cons, hpush, ih]

/-- **Nothing but the digits is read.** -/
theorem readRadix_congr {w radix : Nat} {s t : List Char} (h : SameDigits radix s t) :
    readRadix w radix s = readRadix w radix t := by
  cases h with
  | nil => rfl
  | @cons c d s t hhead htail =>
    unfold readRadix
    simp only [List.head?_cons, Option.some.injEq, List.tail_cons]
    by_cases hc : c = '+'
    · have hempty : s = [] ↔ t = [] := by
        rw [← List.length_eq_zero_iff, ← List.length_eq_zero_iff, htail.length_eq]
      simp only [if_pos hc, if_pos (hhead.2.1 hc), hempty, foldlM_congr htail]
    · have hd : d ≠ '+' := fun h => hc (hhead.2.2 h)
      simp only [if_neg hc, if_neg hd, reduceCtorEq, if_false, foldlM_congr (List.Forall₂.cons hhead htail)]

/-! ## Writing -/

/-- A number in a radix, with zeros in front up to a width. -/
def padded (radix width n : Nat) : List Char := (Nat.toDigits radix n).leftpad width '0'

theorem isNumeral_toDigits {radix : Nat} (hlow : 1 < radix) (hhigh : radix ≤ 16) (n : Nat) :
    IsNumeral radix (Nat.toDigits radix n) ∧ value radix (Nat.toDigits radix n) = n := by
  induction n using Nat.strongRecOn with
  | ind n ih =>
    by_cases hlt : n < radix
    · have hdigit := toDigit_digitChar hhigh hlt
      rw [Nat.toDigits_of_lt_base hlt]
      refine ⟨⟨by simp, by simp [hdigit]⟩, ?_⟩
      exact (value_snoc [] hdigit).trans (Nat.zero_mul radix ▸ Nat.zero_add n)
    · obtain ⟨⟨-, hdigits⟩, hvalue⟩ := ih (n / radix) (Nat.div_lt_self (by omega) hlow)
      have hlast := toDigit_digitChar hhigh (Nat.mod_lt n (Nat.zero_lt_of_lt hlow))
      rw [Nat.toDigits_of_base_le hlow (by omega)]
      refine ⟨⟨by simp, ?_⟩, ?_⟩
      · intro c hc
        rcases List.mem_append.1 hc with hfront | hback
        · exact hdigits c hfront
        · rw [List.mem_singleton.1 hback, hlast]
          rfl
      · rw [value_snoc _ hlast, hvalue, Nat.mul_comm]
        exact Nat.div_add_mod n radix

theorem isNumeral_padded {radix : Nat} (hlow : 1 < radix) (hhigh : radix ≤ 16) (width n : Nat) :
    IsNumeral radix (padded radix width n) := by
  obtain ⟨⟨hne, hdigits⟩, -⟩ := isNumeral_toDigits hlow hhigh n
  refine ⟨fun h => hne (List.append_eq_nil_iff.1 h).2, fun c hc => ?_⟩
  rcases List.mem_append.1 hc with hzero | hdigit
  · rw [List.eq_of_mem_replicate hzero, toDigit_zero (by omega)]
    rfl
  · exact hdigits c hdigit

/-- **A padded numeral is read as its number.** -/
theorem readRadix_padded {w radix : Nat} (hlow : 1 < radix) (hhigh : radix ≤ 16) (width : Nat) (b : BitVec w) :
    readRadix w radix (padded radix width b.toNat) = some b := by
  have hnumeral := isNumeral_padded hlow hhigh width b.toNat
  have hvalue : value radix (padded radix width b.toNat) = b.toNat :=
    (value_zeros (by omega) _ _).trans (isNumeral_toDigits hlow hhigh b.toNat).2
  exact (readRadix_eq_some hnumeral.head_ne_plus).2 ⟨hnumeral, hvalue⟩

end Radix
end Lib
