import Mathlib.Data.List.Induction
import Oathgate.LibBuf
/-!
# LibText — bytes and IPv4 addresses as text

The decimal numeral of a number is what `Nat.toDigits 10` writes; a digit string without a leading zero is the numeral
of its value (`toDigits_ofDigitChars`).  `readU8` takes what Rust's `u8::from_str` takes, a plus sign and leading zeros
included; an address is four numerals with dots between them and has no other text (`readIpv4_eq_some`).
-/
namespace Lib
namespace Text

/-! ## Numerals -/

theorem toNat_of_isDigit {c : Char} (h : c.isDigit) : 48 ≤ c.toNat ∧ c.toNat ≤ 57 := Char.isDigit_iff_toNat.1 h

theorem digitChar_toNat {c : Char} (h : c.isDigit) : (c.toNat - 48).digitChar = c := by
  obtain ⟨hlow, hhigh⟩ := toNat_of_isDigit h
  have hlt : c.toNat - 48 < 10 := by omega
  apply Char.toNat_inj.1
  rw [Nat.toNat_digitChar_of_lt_ten hlt]
  omega

/-- **A digit string without a leading zero is the numeral of its value.** -/
theorem toDigits_ofDigitChars : ∀ (s : List Char), s ≠ [] → (∀ c ∈ s, c.isDigit) →
    (s.head? = some '0' → s.length = 1) → Nat.toDigits 10 (Nat.ofDigitChars 10 s 0) = s := by
  intro s
  induction s using List.reverseRecOn with
  | nil => exact fun h => absurd rfl h
  | append_singleton s c ih =>
    intro _ hdigits hhead
    have hc := hdigits c (by simp)
    obtain ⟨hlow, hhigh⟩ := toNat_of_isDigit hc
    have hval : Nat.ofDigitChars 10 (s ++ [c]) 0 = 10 * Nat.ofDigitChars 10 s 0 + (c.toNat - 48) := by
      rw [Nat.ofDigitChars_append, Nat.ofDigitChars_cons, Nat.ofDigitChars_nil]
      rfl
    rw [hval]
    by_cases hne : s = []
    · subst hne
      rw [Nat.ofDigitChars_nil, Nat.mul_zero, Nat.zero_add, Nat.toDigits_of_lt_base (by omega), digitChar_toNat hc]
      rfl
    · have hzero : s.head? ≠ some '0' := by
        intro h
        have hlen := hhead (by rw [List.head?_append, h]; rfl)
        rw [List.length_append, List.length_singleton] at hlen
        exact hne (List.eq_nil_of_length_eq_zero (by omega))
      have hs := ih hne (fun c hc => hdigits c (by simp [hc])) fun h => absurd h hzero
      have hpos : 0 < Nat.ofDigitChars 10 s 0 := by
        refine Nat.pos_of_ne_zero fun h => ?_
        rw [h] at hs
        rw [← hs] at hzero
        exact hzero rfl
      rw [← Nat.toDigits_append_toDigits (by omega) hpos (by omega), hs, Nat.toDigits_of_lt_base (by omega),
        digitChar_toNat hc]

/-- The byte a digit string comes to, if it is one and not too large. -/
def readDigits (s : List Char) : Option Byte :=
  if s ≠ [] ∧ s.all Char.isDigit ∧ Nat.ofDigitChars 10 s 0 < 256 then some (BitVec.ofNat 8 (Nat.ofDigitChars 10 s 0))
  else none

theorem readDigits_eq_some {s : List Char} {b : Byte} :
    readDigits s = some b ↔ s ≠ [] ∧ (∀ c ∈ s, c.isDigit) ∧ Nat.ofDigitChars 10 s 0 = b.toNat := by
  unfold readDigits
  constructor
  · intro h
    split at h
    · rename_i hs
      obtain ⟨hne, hdigits, hlt⟩ := hs
      have hb : b = BitVec.ofNat 8 (Nat.ofDigitChars 10 s 0) := (Option.some.inj h).symm
      refine ⟨hne, List.all_eq_true.1 hdigits, ?_⟩
      rw [hb, BitVec.toNat_ofNat, Nat.mod_eq_of_lt hlt]
    · cases h
  · rintro ⟨hne, hdigits, hval⟩
    rw [if_pos ⟨hne, List.all_eq_true.2 hdigits, hval ▸ b.isLt⟩, hval, BitVec.ofNat_toNat, BitVec.setWidth_eq]

def numeral (b : Byte) : List Char := Nat.toDigits 10 b.toNat

theorem numeral_ne_nil (b : Byte) : numeral b ≠ [] := Nat.toDigits_ne_nil

theorem isDigit_of_mem_numeral {b : Byte} {c : Char} (h : c ∈ numeral b) : c.isDigit :=
  Nat.isDigit_of_mem_toDigits (by omega) (by omega) h

theorem not_mem_numeral {b : Byte} {c : Char} (h : ¬ c.isDigit) : c ∉ numeral b :=
  fun hmem => h (isDigit_of_mem_numeral hmem)

theorem readDigits_numeral (b : Byte) : readDigits (numeral b) = some b :=
  readDigits_eq_some.2 ⟨numeral_ne_nil b, fun _ => isDigit_of_mem_numeral, Nat.ofDigitChars_ten_toDigits⟩

/-- `u8::from_str`: a plus sign may stand before the digits. -/
def readU8 (s : List Char) : Option Byte := readDigits (if s.head? = some '+' then s.tail else s)

theorem readU8_eq_some {s : List Char} {b : Byte} (hplus : s.head? ≠ some '+') :
    readU8 s = some b ↔ s ≠ [] ∧ (∀ c ∈ s, c.isDigit) ∧ Nat.ofDigitChars 10 s 0 = b.toNat := by
  unfold readU8
  rw [if_neg hplus, readDigits_eq_some]

theorem readU8_numeral (b : Byte) : readU8 (numeral b) = some b := by
  have hplus : (numeral b).head? ≠ some '+' :=
    fun h => not_mem_numeral (by decide) (List.mem_of_mem_head? h)
  unfold readU8
  rw [if_neg hplus, readDigits_numeral]

/-! ## Parts of a text -/

section parts

variable {α : Type}

/-- **Parts that keep clear of the separator are those between it.** -/
theorem splitOn_eq_iff [BEq α] [LawfulBEq α] {sep : α} {parts : List (List α)} (hne : parts ≠ [])
    (hsep : ∀ part ∈ parts, sep ∉ part) {s : List α} : s.splitOn sep = parts ↔ s = [sep].intercalate parts := by
  constructor
  · rintro rfl
    exact (List.intercalate_splitOn sep).symm
  · rintro rfl
    exact List.splitOn_intercalate sep hsep hne

/-- Parts that keep clear of every separator are those between any one of these. -/
theorem splitOnP_intercalate {p : α → Bool} {sep : α} (hsep : p sep) :
    ∀ {parts : List (List α)}, parts ≠ [] → (∀ part ∈ parts, ∀ a ∈ part, p a = false) →
      ([sep].intercalate parts).splitOnP p = parts
  | [part], _, hparts => by
    rw [List.intercalate_singleton, List.splitOnP_eq_singleton (hparts part (by simp))]
  | part :: next :: rest, _, hparts => by
    have hrest := splitOnP_intercalate hsep (List.cons_ne_nil next rest) fun q hq => hparts q (by simp [hq])
    rw [List.intercalate_cons_cons, List.append_assoc, List.singleton_append,
      List.splitOnP_append_cons_of_forall_mem (hparts part (by simp)) sep hsep, hrest]

/-- **Texts that agree on where the separators stand are cut at the same places.** -/
theorem splitOnP_forall₂ {p : α → Bool} {R : α → α → Prop} (hR : ∀ a b, R a b → p a = p b) {s t : List α}
    (h : List.Forall₂ R s t) : List.Forall₂ (List.Forall₂ R) (s.splitOnP p) (t.splitOnP p) := by
  induction h with
  | nil => exact .cons .nil .nil
  | @cons a b s t hab _ ih =>
    rw [List.splitOnP_cons_eq_if_modifyHead, List.splitOnP_cons_eq_if_modifyHead, hR a b hab]
    split
    · exact .cons .nil ih
    · generalize s.splitOnP p = parts, t.splitOnP p = parts' at ih
      cases ih with
      | nil => exact .nil
      | cons hpart hrest => exact .cons (.cons hab hpart) hrest

end parts

/-! ## IPv4 addresses -/

/-- An octet in `Ipv4Addr::from_str`: at most three digits, and no leading zero. -/
def readOctet (s : List Char) : Option Byte :=
  if s.length ≤ 3 ∧ (s.head? = some '0' → s.length = 1) then readDigits s else none

/-- `Ipv4Addr::from_str` -/
def readIpv4 (s : List Char) : Option (BitVec 32) :=
  match s.splitOn '.' with
  | [a, b, c, d] => do return be32At [← readOctet a, ← readOctet b, ← readOctet c, ← readOctet d] 0
  | _ => none

/-- `Display for Ipv4Addr` -/
def showIpv4 (ip : BitVec 32) : List Char := ['.'].intercalate ((toBe32 ip).map numeral)

theorem numeral_head (b : Byte) (h : (numeral b).head? = some '0') : (numeral b).length = 1 := by
  revert b
  decide

theorem length_numeral_le (b : Byte) : (numeral b).length ≤ 3 :=
  (Nat.length_toDigits_le_iff (by omega) (by omega)).2 (Nat.lt_trans b.isLt (by omega))

/-- **An octet has one text.** -/
theorem readOctet_eq_some {s : List Char} {b : Byte} : readOctet s = some b ↔ s = numeral b := by
  unfold readOctet
  constructor
  · intro h
    split at h
    · rename_i hs
      obtain ⟨hne, hdigits, hval⟩ := readDigits_eq_some.1 h
      rw [numeral, ← hval]
      exact (toDigits_ofDigitChars s hne hdigits hs.2).symm
    · cases h
  · rintro rfl
    rw [if_pos ⟨length_numeral_le b, numeral_head b⟩, readDigits_numeral]

/-- **An address has one text.** -/
theorem readIpv4_eq_some {s : List Char} {ip : BitVec 32} : readIpv4 s = some ip ↔ s = showIpv4 ip := by
  have hdot (b : Byte) : '.' ∉ numeral b := not_mem_numeral (by decide)
  have hparts : s.splitOn '.' = (toBe32 ip).map numeral ↔ s = showIpv4 ip :=
    splitOn_eq_iff (by simp [toBe32]) (by simp [toBe32, hdot])
  rw [← hparts]
  unfold readIpv4
  constructor
  · intro h
    split at h
    · rename_i a b c d hsplit
      simp only [Option.pure_def, Option.bind_eq_bind, Option.bind_eq_some_iff, readOctet_eq_some] at h
      obtain ⟨a', rfl, b', rfl, c', rfl, d', rfl, hip⟩ := h
      rw [hsplit, ← Option.some.inj hip, toBe32_be32At]
      rfl
    · cases h
  · intro hsplit
    have hread (b : Byte) : readOctet (numeral b) = some b := readOctet_eq_some.2 rfl
    rw [hsplit]
    simp only [toBe32, List.map_cons, List.map_nil, hread]
    exact congrArg some (by simpa [toBe32] using be32At_toBe32 ip [])

theorem readIpv4_showIpv4 (ip : BitVec 32) : readIpv4 (showIpv4 ip) = some ip := readIpv4_eq_some.2 rfl

/-- An address is digits and dots. -/
theorem mem_showIpv4 {ip : BitVec 32} {c : Char} (h : c ∈ showIpv4 ip) : c.isDigit ∨ c = '.' := by
  simp only [showIpv4, toBe32, List.map_cons, List.map_nil, List.intercalate_cons_cons, List.intercalate_singleton,
    List.mem_append, List.mem_singleton] at h
  have hdigit {b : Byte} (h : c ∈ numeral b) : c.isDigit := isDigit_of_mem_numeral h
  tauto

end Text
end Lib
