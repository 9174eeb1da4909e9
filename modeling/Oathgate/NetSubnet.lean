import Oathgate.NetTypes
/-!
# NetSubnet — network addresses (`oathgate-net`: `types/netaddress.rs`)

`Ipv4Network` and `Ipv6Network` are one text in the source at 32 and 128 bits, and one definition here, `IpNet w`.  The
fields are private there and only `new` builds a value, so the mask is always a prefix mask; that is the field
`prefix_mask`.
-/
namespace Oathgate

open Lib

/-- The loop of `new`: clear the low `n` bits of the all-ones mask, one at a time. -/
def clearLow (w n : Nat) : BitVec w :=
  (List.range n).foldl (fun subnet idx => subnet ^^^ (1#w <<< idx)) (BitVec.allOnes w)

theorem getLsbD_clearLow (w i : Nat) : ∀ n, (clearLow w n).getLsbD i = (decide (i < w) && decide (n ≤ i))
  | 0 => by simp [clearLow]
  | n + 1 => by
    have ih := getLsbD_clearLow w i n
    unfold clearLow at ih ⊢
    rw [List.range_succ, List.foldl_append, List.foldl_cons, List.foldl_nil, BitVec.getLsbD_xor, ih,
      BitVec.getLsbD_shiftLeft, BitVec.getLsbD_one]
    by_cases hi : i < w
    · have hw : 0 < w := by omega
      rcases Nat.lt_trichotomy i n with h | rfl | h
      · simp [h, show ¬ n ≤ i by omega, show ¬ n + 1 ≤ i by omega]
      · simp [hi, hw]
      · simp [hi, Nat.le_of_lt h, show ¬ i < n by omega, show i - n ≠ 0 by omega, show n + 1 ≤ i by omega]
    · simp [hi]

theorem cpopNatRec_clearLow (w n : Nat) : ∀ k, k ≤ w → (clearLow w n).cpopNatRec k 0 = k - n
  | 0, _ => by simp
  | k + 1, hk => by
    rw [BitVec.cpopNatRec_succ, BitVec.cpopNatRec_eq, cpopNatRec_clearLow w n k (by omega), getLsbD_clearLow]
    by_cases hn : n ≤ k
    · simp [hn, show k < w by omega]
      omega
    · simp [hn]
      omega

/-- `Ipv4Network` (`w = 32`) and `Ipv6Network` (`w = 128`) -/
structure IpNet (w : Nat) where
  ip : BitVec w
  mask : BitVec w
  prefix_mask : ∃ n, n ≤ w ∧ mask = clearLow w n
  deriving DecidableEq

abbrev Ipv4Network := IpNet 32

namespace IpNet

variable {ε : Type} {w : Nat}

theorem ext {a b : IpNet w} (hip : a.ip = b.ip) (hmask : a.mask = b.mask) : a = b := by
  cases a; cases b; simp_all

/-- `new`: `w - mask` is an 8-bit subtraction, which overflows past the width. -/
def new (ip : BitVec w) (mask : BitVec 8) : Res ε (IpNet w) :=
  if mask.toNat ≤ w then .ok ⟨ip, clearLow w (w - mask.toNat), _, Nat.sub_le _ _, rfl⟩ else .panic .overflow

/-- `subnet_mask_bits`: `count_ones() as u8` -/
def subnetMaskBits (n : IpNet w) : BitVec 8 := BitVec.ofNat 8 (n.mask.cpopNatRec w 0)

def network (n : IpNet w) : BitVec w := n.ip &&& n.mask

def broadcast (n : IpNet w) : BitVec w := n.ip ||| ~~~n.mask

def contains (n : IpNet w) (ip : BitVec w) : Bool := (ip &&& n.mask) == n.network

def next (n : IpNet w) : Res ε (Option (IpNet w)) :=
  let ip := n.ip + 1
  if ip = n.network ∨ ip = n.broadcast then .ok none
  else do return some (← new ip n.subnetMaskBits)

/-! ## Specifications -/

section small

variable (hw : w < 256)
include hw

theorem subnetMaskBits_toNat_le (n : IpNet w) : n.subnetMaskBits.toNat ≤ w := by
  have h := BitVec.cpopNatRec_zero_le n.mask w
  unfold subnetMaskBits
  rw [BitVec.toNat_ofNat, Nat.mod_eq_of_lt (by omega)]
  exact h

theorem toNat_subnetMaskBits (n : IpNet w) {k : Nat} (hk : k ≤ w) (hm : n.mask = clearLow w k) :
    n.subnetMaskBits.toNat = w - k := by
  unfold subnetMaskBits
  rw [hm, cpopNatRec_clearLow w k w (Nat.le_refl _), BitVec.toNat_ofNat, Nat.mod_eq_of_lt (by omega)]

/-- **The mask is rebuilt from its own bit count.** -/
theorem clearLow_subnetMaskBits (n : IpNet w) : clearLow w (w - n.subnetMaskBits.toNat) = n.mask := by
  obtain ⟨k, hk, hm⟩ := n.prefix_mask
  rw [toNat_subnetMaskBits hw n hk hm, hm, show w - (w - k) = k by omega]

/-- **A network with another's bit count has its mask**; nothing overflows. -/
theorem new_subnetMaskBits (n : IpNet w) (ip : BitVec w) :
    (new ip n.subnetMaskBits : Res ε (IpNet w)) = .ok ⟨ip, n.mask, n.prefix_mask⟩ := by
  unfold new
  rw [if_pos (subnetMaskBits_toNat_le hw n)]
  exact congrArg Res.ok (ext rfl (clearLow_subnetMaskBits hw n))

theorem next_eq (n : IpNet w) :
    (n.next : Res ε (Option (IpNet w))) =
      .ok (if n.ip + 1 = n.network ∨ n.ip + 1 = n.broadcast then none else some ⟨n.ip + 1, n.mask, n.prefix_mask⟩) := by
  unfold next
  simp only
  split
  · rfl
  · rw [new_subnetMaskBits hw]
    rfl

end small

theorem contains_ip (n : IpNet w) : n.contains n.ip = true := by
  simp [contains, network]

/-- The network address is the least of a network's addresses, the broadcast address the greatest. -/
theorem network_le_of_contains (n : IpNet w) (x : BitVec w) (h : n.contains x = true) : n.network ≤ x := by
  have hx : x &&& n.mask = n.network := by simpa [contains] using h
  rw [← hx, BitVec.le_def, BitVec.toNat_and]
  exact Nat.and_le_left

theorem broadcast_eq_of_contains (n : IpNet w) (x : BitVec w) (h : n.contains x = true) :
    n.broadcast = x ||| ~~~n.mask := by
  have hx : x &&& n.mask = n.ip &&& n.mask := by simpa [contains, network] using h
  unfold broadcast
  apply BitVec.eq_of_getLsbD_eq
  intro i hi
  have hbit := congrArg (fun v => v.getLsbD i) hx
  simp only [BitVec.getLsbD_and] at hbit
  simp only [BitVec.getLsbD_or, BitVec.getLsbD_not]
  cases hm : n.mask.getLsbD i <;> simp_all

theorem le_broadcast_of_contains (n : IpNet w) (x : BitVec w) (h : n.contains x = true) : x ≤ n.broadcast := by
  rw [broadcast_eq_of_contains n x h, BitVec.le_def, BitVec.toNat_or]
  exact Nat.left_le_or

theorem broadcast_of_contains_allOnes (n : IpNet w) (h : n.contains (BitVec.allOnes w) = true) :
    n.broadcast = BitVec.allOnes w := by
  rw [broadcast_eq_of_contains n _ h]
  exact BitVec.allOnes_or

end IpNet
end Oathgate
