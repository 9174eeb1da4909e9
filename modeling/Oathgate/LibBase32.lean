import Mathlib.Algebra.Order.Ring.Nat
import Mathlib.Data.List.Basic
/-!
# LibBase32 — numbers in Crockford's base 32

The text of a number below `32 ^ k` in `k` symbols, the highest first.  Different numbers have different texts, and a
text has none of the characters that paths are made with.
-/
namespace Lib
namespace Base32

def alphabet : List Char := "0123456789ABCDEFGHJKMNPQRSTVWXYZ".toList

def symbol (i : Nat) : Char := alphabet.getD i '0'

def encode : Nat → Nat → List Char
  | 0, _ => []
  | k + 1, n => encode k (n / 32) ++ [symbol (n % 32)]

theorem symbol_inj : ∀ i < 32, ∀ j < 32, symbol i = symbol j → i = j := by decide

theorem symbol_ne : ∀ i < 32, symbol i ≠ '.' ∧ symbol i ≠ '/' := by decide

theorem length_encode (k n : Nat) : (encode k n).length = k := by
  induction k generalizing n with
  | zero => rfl
  | succ k ih => rw [encode, List.length_append, ih, List.length_singleton]

/-- **A text tells its number.** -/
theorem encode_inj (k : Nat) : ∀ n m, n < 32 ^ k → m < 32 ^ k → encode k n = encode k m → n = m := by
  induction k with
  | zero =>
    intro n m hn hm _
    rw [Nat.pow_zero] at hn hm
    omega
  | succ k ih =>
    intro n m hn hm h
    rw [Nat.pow_succ] at hn hm
    obtain ⟨hinit, hlast⟩ := List.append_inj' h rfl
    have hlow : n % 32 = m % 32 :=
      symbol_inj _ (Nat.mod_lt _ (by decide)) _ (Nat.mod_lt _ (by decide)) (List.cons.inj hlast).1
    have hhigh : n / 32 = m / 32 :=
      ih _ _ (Nat.div_lt_of_lt_mul (by omega)) (Nat.div_lt_of_lt_mul (by omega)) hinit
    omega

theorem mem_encode {k n : Nat} {c : Char} (h : c ∈ encode k n) : c ≠ '.' ∧ c ≠ '/' := by
  induction k generalizing n with
  | zero => cases h
  | succ k ih =>
    rw [encode, List.mem_append, List.mem_singleton] at h
    rcases h with h | rfl
    · exact ih h
    · exact symbol_ne _ (Nat.mod_lt _ (by decide))

end Base32
end Lib
