import Oathgate.LibText
import Oathgate.NetSubnet
/-!
# NetCidr — network addresses as text (`oathgate-net`: `types/netaddress.rs`)

`Display` writes the address, a slash and the number of bits set in the mask; the prefix is not a field, so reading the
text back rests on the mask being the one its own bit count builds (`fromStr_display`).  `from_str` takes the first two
parts between slashes and never looks at what follows them, and hands any byte to `new`, which overflows past 32
(`fromStr_grammar_iff`).  What serde writes and reads is this text.
-/
namespace Oathgate

open Lib Lib.Text

namespace IpNet

/-! ## The text of a network -/

def display (n : Ipv4Network) : String :=
  let mask := n.mask.cpopNatRec 32 0
  String.ofList (showIpv4 n.ip ++ '/' :: Nat.toDigits 10 mask)

/-- `from_str`: `parts.next()` twice, the second with a default. -/
def fromStr (s : String) : Res String Ipv4Network := do
  let parts := s.toList.splitOn '/'
  let some ip := parts[0]? | .err "missing ip component"
  let mask := parts[1]?.getD "32".toList
  let some ip := readIpv4 ip | .err "unable to parse ip address"
  let some mask := readU8 mask | .err "unable to parse subnet mask"
  new ip mask

/-- `serialize_str(&self.to_string())` -/
def serialize (n : Ipv4Network) : String := n.display

/-- `deserialize_str` with `Ipv4NetworkVisitor`, whose `visit_str` hands the error's text to the format's `custom`. -/
def deserialize {ε : Type} (custom : String → ε) (v : String) : Res ε Ipv4Network := (fromStr v).mapErr custom

/-! ## Specifications -/

theorem slash_not_mem_showIpv4 (ip : BitVec 32) : '/' ∉ showIpv4 ip :=
  fun h => absurd (mem_showIpv4 h) (by decide)

/-- **What the parser does with the parts.** -/
theorem fromStr_of_parts {s : String} {ip : BitVec 32} {rest : List (List Char)}
    (h : s.toList.splitOn '/' = showIpv4 ip :: rest) :
    fromStr s = match readU8 (rest.head?.getD "32".toList) with
      | some mask => new ip mask
      | none => .err "unable to parse subnet mask" := by
  unfold fromStr
  simp only [h, List.getElem?_cons_zero, List.getElem?_cons_succ, List.head?_eq_getElem?, readIpv4_showIpv4]
  cases readU8 (rest[0]?.getD "32".toList) <;> rfl

/-- Where the first part is no address there is an error. -/
theorem fromStr_of_unread {s : String} (h : ∀ ip rest, s.toList.splitOn '/' ≠ showIpv4 ip :: rest) :
    ∃ e, fromStr s = .err e := by
  cases hparts : s.toList.splitOn '/' with
  | nil => exact absurd hparts (List.splitOn_ne_nil _ _)
  | cons part rest =>
    have hread : readIpv4 part = none := by
      by_contra hsome
      obtain ⟨ip, hip⟩ := Option.ne_none_iff_exists'.1 hsome
      rw [readIpv4_eq_some.1 hip] at hparts
      exact h ip rest hparts
    refine ⟨"unable to parse ip address", ?_⟩
    unfold fromStr
    simp only [hparts, List.getElem?_cons_zero, hread]

/-! ## There and back -/

theorem display_eq (n : Ipv4Network) :
    n.display = String.ofList (showIpv4 n.ip ++ '/' :: numeral n.subnetMaskBits) := by
  have hbits : n.subnetMaskBits.toNat = n.mask.cpopNatRec 32 0 := by
    have hle := BitVec.cpopNatRec_zero_le n.mask 32
    unfold subnetMaskBits
    rw [BitVec.toNat_ofNat, Nat.mod_eq_of_lt (by omega)]
  rw [numeral, hbits]
  rfl

theorem splitOn_display (n : Ipv4Network) :
    n.display.toList.splitOn '/' = [showIpv4 n.ip, numeral n.subnetMaskBits] := by
  have hslash : '/' ∉ numeral n.subnetMaskBits := not_mem_numeral (by decide)
  refine (splitOn_eq_iff (by simp) (by simp [slash_not_mem_showIpv4, hslash])).2 ?_
  rw [display_eq, String.toList_ofList]
  simp

/-- **The text of a network reads back as that network.** -/
theorem fromStr_display (n : Ipv4Network) : fromStr n.display = .ok n := by
  rw [fromStr_of_parts (splitOn_display n), List.head?_cons, Option.getD_some, readU8_numeral]
  exact new_subnetMaskBits (by omega) n n.ip

/-- **A network address survives its own text**, and so it does a configuration that is written and read. -/
theorem text_round_trip {ε : Type} (custom : String → ε) (ip : BitVec 32) (p : BitVec 8) (hp : p.toNat ≤ 32) :
    ∃ n, (new ip p : Res String Ipv4Network) = .ok n ∧ n.ip = ip ∧ n.subnetMaskBits = p ∧
      fromStr n.display = .ok n ∧ deserialize custom n.serialize = .ok n := by
  refine ⟨⟨ip, clearLow 32 (32 - p.toNat), _, Nat.sub_le _ _, rfl⟩, if_pos hp, rfl, ?_, fromStr_display _, ?_⟩
  · apply BitVec.eq_of_toNat_eq
    rw [toNat_subnetMaskBits (by omega) _ (Nat.sub_le _ _) rfl]
    omega
  · unfold deserialize serialize
    rw [fromStr_display, Res.mapErr_ok]

theorem text_round_trip_of_private :
    ∃ n : Ipv4Network, (new 0x0a0a0a01#32 24 : Res String Ipv4Network) = .ok n ∧ n.display = "10.10.10.1/24" ∧
      fromStr "10.10.10.1/24" = .ok n := by
  obtain ⟨n, hnew, hip, hp, hread, -⟩ := text_round_trip id 0x0a0a0a01#32 24 (by decide)
  have htext : n.display = "10.10.10.1/24" := by
    rw [display_eq, hip, hp]
    decide
  exact ⟨n, hnew, htext, htext ▸ hread⟩

/-! ## What is accepted -/

/-- A decimal prefix length of an IPv4 network. -/
def IsPrefixLen (t : List Char) : Prop := t ≠ [] ∧ (∀ c ∈ t, c.isDigit) ∧ Nat.ofDigitChars 10 t 0 ≤ 32

/-- **The grammar**: an address, or an address, a slash and a prefix length, and nothing after it. -/
def IsNetworkText (s : String) : Prop :=
  ∃ ip, s.toList = showIpv4 ip ∨ ∃ t, IsPrefixLen t ∧ s.toList = showIpv4 ip ++ '/' :: t

/-- A byte after an address is a plain one of at most 32, and the text ends there. -/
def PlainMask (s : String) : Prop :=
  ∀ ip mask rest m, s.toList.splitOn '/' = showIpv4 ip :: mask :: rest → readU8 mask = some m →
    m.toNat ≤ 32 ∧ mask.head? ≠ some '+' ∧ rest = []

theorem isPrefixLen_iff {t : List Char} :
    IsPrefixLen t ↔ t.head? ≠ some '+' ∧ ∃ m, readU8 t = some m ∧ m.toNat ≤ 32 := by
  constructor
  · rintro ⟨hne, hdigits, hle⟩
    have hplus : t.head? ≠ some '+' := fun h => absurd (hdigits '+' (List.mem_of_mem_head? h)) (by decide)
    have hval : (BitVec.ofNat 8 (Nat.ofDigitChars 10 t 0)).toNat = Nat.ofDigitChars 10 t 0 := by
      rw [BitVec.toNat_ofNat, Nat.mod_eq_of_lt (by omega)]
    exact ⟨hplus, _, (readU8_eq_some hplus).2 ⟨hne, hdigits, hval.symm⟩, hval.symm ▸ hle⟩
  · rintro ⟨hplus, m, hm, hle⟩
    obtain ⟨hne, hdigits, hval⟩ := (readU8_eq_some hplus).1 hm
    exact ⟨hne, hdigits, hval ▸ hle⟩

theorem IsPrefixLen.slash_not_mem {t : List Char} (h : IsPrefixLen t) : '/' ∉ t :=
  fun hmem => absurd (h.2.1 '/' hmem) (by decide)

/-- **The grammar by parts.** -/
theorem isNetworkText_iff {s : String} :
    IsNetworkText s ↔ ∃ ip, s.toList.splitOn '/' = [showIpv4 ip] ∨
      ∃ t, IsPrefixLen t ∧ s.toList.splitOn '/' = [showIpv4 ip, t] := by
  have hone (ip : BitVec 32) : s.toList.splitOn '/' = [showIpv4 ip] ↔ s.toList = showIpv4 ip := by
    rw [splitOn_eq_iff (by simp) (by simp [slash_not_mem_showIpv4]), List.intercalate_singleton]
  have htwo (ip : BitVec 32) {t : List Char} (ht : IsPrefixLen t) :
      s.toList.splitOn '/' = [showIpv4 ip, t] ↔ s.toList = showIpv4 ip ++ '/' :: t := by
    rw [splitOn_eq_iff (by simp) (by simp [slash_not_mem_showIpv4, ht.slash_not_mem])]
    simp
  constructor
  · rintro ⟨ip, h | ⟨t, ht, h⟩⟩
    · exact ⟨ip, .inl ((hone ip).2 h)⟩
    · exact ⟨ip, .inr ⟨t, ht, (htwo ip ht).2 h⟩⟩
  · rintro ⟨ip, h | ⟨t, ht, h⟩⟩
    · exact ⟨ip, .inl ((hone ip).1 h)⟩
    · exact ⟨ip, .inr ⟨t, ht, (htwo ip ht).1 h⟩⟩

section parts

variable {s : String} {ip : BitVec 32} {mask : List Char} {rest : List (List Char)} {m : Byte}
variable (h : s.toList.splitOn '/' = showIpv4 ip :: mask :: rest)
include h

theorem isNetworkText_of_parts : IsNetworkText s ↔ rest = [] ∧ IsPrefixLen mask := by
  rw [isNetworkText_iff, h]
  constructor
  · rintro ⟨ip', hone | ⟨t, ht, htwo⟩⟩
    · simp at hone
    · simp only [List.cons.injEq] at htwo
      obtain ⟨-, rfl, hrest⟩ := htwo
      exact ⟨hrest, ht⟩
  · rintro ⟨rfl, hmask⟩
    exact ⟨ip, .inr ⟨mask, hmask, rfl⟩⟩

theorem plainMask_of_parts (hm : readU8 mask = some m) :
    PlainMask s ↔ m.toNat ≤ 32 ∧ mask.head? ≠ some '+' ∧ rest = [] := by
  constructor
  · exact fun hplain => hplain ip mask rest m h hm
  · intro hall ip' mask' rest' m' h' hm'
    rw [h] at h'
    simp only [List.cons.injEq] at h'
    obtain ⟨-, rfl, rfl⟩ := h'
    obtain rfl := Option.some.inj (hm.symm.trans hm')
    exact hall

theorem fromStr_of_mask (hm : readU8 mask = some m) : fromStr s = new ip m := by
  rw [fromStr_of_parts h, List.head?_cons, Option.getD_some, hm]

/-- With a byte in its second part, a text is taken as the grammar says exactly when the byte is a plain mask. -/
theorem fromStr_grammar_of_mask (hm : readU8 mask = some m) :
    ((fromStr s).Returns ∧ ((∃ n, fromStr s = .ok n) ↔ IsNetworkText s)) ↔ PlainMask s := by
  rw [plainMask_of_parts h hm, isNetworkText_of_parts h, isPrefixLen_iff, fromStr_of_mask h hm]
  by_cases hle : m.toNat ≤ 32
  · have hok : (new ip m : Res String Ipv4Network) = .ok ⟨ip, clearLow 32 (32 - m.toNat), _, Nat.sub_le _ _, rfl⟩ :=
      if_pos hle
    simp only [hok, hm, Res.returns_ok, Res.ok.injEq, exists_eq', Option.some.injEq, hle, true_and, true_iff,
      exists_eq_left', and_true]
    exact and_comm
  · have hpanic : (new ip m : Res String Ipv4Network) = .panic .overflow := if_neg hle
    simp [hpanic, hle]

end parts

/-- **`from_str` comes back and takes the grammar's texts exactly where a byte after an address is a plain mask.** -/
theorem fromStr_grammar_iff (s : String) :
    ((fromStr s).Returns ∧ ((∃ n, fromStr s = .ok n) ↔ IsNetworkText s)) ↔ PlainMask s := by
  by_cases haddr : ∃ ip rest, s.toList.splitOn '/' = showIpv4 ip :: rest
  · obtain ⟨ip, rest, hparts⟩ := haddr
    cases rest with
    | nil =>
      -- the default prefix stands in for the second part
      have hdefault : readU8 ([].head?.getD "32".toList) = some 32#8 := by decide
      have hok : fromStr s = .ok ⟨ip, clearLow 32 0, 0, Nat.zero_le _, rfl⟩ := by
        rw [fromStr_of_parts hparts, hdefault]
        rfl
      have hplain : PlainMask s := by
        intro ip' mask rest m h
        rw [hparts] at h
        simp at h
      exact iff_of_true (by simp [hok, isNetworkText_iff.2 ⟨ip, .inl hparts⟩]) hplain
    | cons mask rest =>
      cases hm : readU8 mask with
      | some m => exact fromStr_grammar_of_mask hparts hm
      | none =>
        have herr : fromStr s = .err "unable to parse subnet mask" := by
          rw [fromStr_of_parts hparts, List.head?_cons, Option.getD_some, hm]
        have htext : ¬ IsNetworkText s := by
          rw [isNetworkText_of_parts hparts, isPrefixLen_iff, hm]
          simp
        have hplain : PlainMask s := by
          intro ip' mask' rest' m' h' hm'
          rw [hparts] at h'
          simp only [List.cons.injEq] at h'
          rw [← h'.2.1, hm] at hm'
          cases hm'
        exact iff_of_true (by simp [herr, htext]) hplain
  · have hno (ip : BitVec 32) (rest : List (List Char)) : s.toList.splitOn '/' ≠ showIpv4 ip :: rest :=
      fun h => haddr ⟨ip, rest, h⟩
    obtain ⟨e, herr⟩ := fromStr_of_unread hno
    have htext : ¬ IsNetworkText s := by
      rw [isNetworkText_iff]
      rintro ⟨ip, h | ⟨t, -, h⟩⟩
      · exact hno ip _ h
      · exact hno ip _ h
    have hplain : PlainMask s := fun ip mask rest m h => absurd h (hno ip _)
    exact iff_of_true (by simp [herr, htext]) hplain

/-- A prefix past 32 overflows; a third part is passed over. -/
theorem prefix_33_panics :
    fromStr "10.0.0.1/33" = .panic .overflow ∧
    (∃ n, fromStr "10.0.0.1/24/8" = .ok n) ∧ ¬ IsNetworkText "10.0.0.1/24/8" := by
  have hparts : "10.0.0.1/24/8".toList.splitOn '/' = showIpv4 0x0a000001#32 :: "24".toList :: ["8".toList] := by decide
  have hmask : readU8 "24".toList = some 24#8 := by decide
  refine ⟨by decide, ?_, ?_⟩
  · rw [fromStr_of_mask hparts hmask]
    exact ⟨_, rfl⟩
  · rw [isNetworkText_of_parts hparts]
    simp

end IpNet
end Oathgate
