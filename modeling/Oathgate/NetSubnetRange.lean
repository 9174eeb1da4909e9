import Oathgate.LibBlock
import Oathgate.NetSubnet
/-!
# NetSubnetRange — the addresses of a network (`oathgate-net`: `types/netaddress.rs`)

A network whose mask clears `k` bits is the block of `2 ^ k` addresses its own address lies in: `network` is the first
of them and `broadcast` the last.  `next` compares its successor with these two only, so that it leaves the network
where the address is already the last one (`next_stays_iff`).
-/
namespace Oathgate

open Lib

variable {w k : Nat}

/-! ## Masks -/

theorem toNat_not_clearLow (hk : k ≤ w) : (~~~clearLow w k).toNat = 2 ^ k - 1 := by
  have hones : ~~~clearLow w k = BitVec.ofNat w (2 ^ k - 1) := by
    apply BitVec.eq_of_getLsbD_eq
    intro i hi
    rw [BitVec.getLsbD_not, getLsbD_clearLow, BitVec.getLsbD_ofNat, Nat.testBit_two_pow_sub_one]
    simp only [hi, decide_true, Bool.true_and]
    by_cases h : k ≤ i
    · simp [h, Nat.not_lt.2 h]
    · simp [h, Nat.lt_of_not_le h]
  have hpow : 2 ^ k ≤ 2 ^ w := Nat.pow_le_pow_right (by omega) hk
  have hpos : 0 < 2 ^ k := Nat.two_pow_pos k
  rw [hones, BitVec.toNat_ofNat, Nat.mod_eq_of_lt (by omega)]

/-- **Masking an address gives the first of its block.** -/
theorem toNat_and_clearLow (x : BitVec w) : (x &&& clearLow w k).toNat = Block.base (2 ^ k) x.toNat := by
  have hshift : x &&& clearLow w k = (x >>> k) <<< k := by
    apply BitVec.eq_of_getLsbD_eq
    intro i hi
    rw [BitVec.getLsbD_and, getLsbD_clearLow, BitVec.getLsbD_shiftLeft, BitVec.getLsbD_ushiftRight]
    by_cases h : k ≤ i
    · simp [hi, h, Nat.not_lt.2 h, Nat.add_sub_cancel' h]
    · simp [h, Nat.lt_of_not_le h]
  have hle := Block.base_le (2 ^ k) x.toNat
  unfold Block.base at hle ⊢
  rw [hshift, BitVec.toNat_shiftLeft, BitVec.toNat_ushiftRight, Nat.shiftRight_eq_div_pow, Nat.shiftLeft_eq,
    Nat.mod_eq_of_lt (Nat.lt_of_le_of_lt hle x.isLt)]

/-- **Setting the bits outside of the mask gives the last.** -/
theorem toNat_or_clearLow (hk : k ≤ w) (x : BitVec w) :
    (x ||| ~~~clearLow w k).toNat = Block.last (2 ^ k) x.toNat := by
  have hdisjoint : (x &&& clearLow w k) &&& ~~~clearLow w k = 0#w := by
    rw [BitVec.and_assoc, BitVec.and_not_self]
    exact BitVec.and_zero
  have hsplit : x ||| ~~~clearLow w k = (x &&& clearLow w k) + ~~~clearLow w k := by
    rw [BitVec.add_eq_or_of_and_eq_zero _ _ hdisjoint]
    apply BitVec.eq_of_getLsbD_eq
    intro i hi
    simp only [BitVec.getLsbD_or, BitVec.getLsbD_and, BitVec.getLsbD_not]
    cases x.getLsbD i <;> cases (clearLow w k).getLsbD i <;> simp [hi]
  rw [hsplit, BitVec.toNat_add_of_and_eq_zero hdisjoint, toNat_and_clearLow, toNat_not_clearLow hk]
  rfl

theorem toNat_succ (x : BitVec w) : (x + 1).toNat = (x.toNat + 1) % 2 ^ w := by
  rw [BitVec.toNat_add, BitVec.ofNat_eq_ofNat, BitVec.toNat_ofNat, Nat.add_mod_mod]

namespace IpNet

/-! ## The block of a network -/

/-- How many addresses a network has. -/
def size (n : IpNet w) : Nat := 2 ^ (w - n.subnetMaskBits.toNat)

theorem size_pos (n : IpNet w) : 0 < n.size := Nat.two_pow_pos _

theorem network_le (n : IpNet w) : n.network ≤ n.ip := n.network_le_of_contains n.ip n.contains_ip

theorem le_broadcast (n : IpNet w) : n.ip ≤ n.broadcast := n.le_broadcast_of_contains n.ip n.contains_ip

section small

variable (hw : w < 256)
include hw

theorem toNat_network (n : IpNet w) : n.network.toNat = Block.base n.size n.ip.toNat := by
  unfold network
  rw [← clearLow_subnetMaskBits hw n, toNat_and_clearLow]
  rfl

theorem toNat_broadcast (n : IpNet w) : n.broadcast.toNat = Block.last n.size n.ip.toNat := by
  unfold broadcast
  rw [← clearLow_subnetMaskBits hw n, toNat_or_clearLow (Nat.sub_le _ _)]
  rfl

theorem contains_iff_div (n : IpNet w) (x : BitVec w) :
    n.contains x = true ↔ x.toNat / n.size = n.ip.toNat / n.size := by
  have hnet := toNat_network hw n
  have hmasked : (x &&& n.mask).toNat = Block.base n.size x.toNat := by
    rw [← clearLow_subnetMaskBits hw n, toNat_and_clearLow]
    rfl
  unfold contains
  rw [beq_iff_eq, ← BitVec.toNat_inj, hmasked, hnet]
  exact ⟨Nat.eq_of_mul_eq_mul_right n.size_pos, Block.base_congr⟩

/-- **A network's addresses** are those from its network address to its broadcast address. -/
theorem contains_iff_between (n : IpNet w) (x : BitVec w) :
    n.contains x = true ↔ n.network ≤ x ∧ x ≤ n.broadcast := by
  rw [contains_iff_div hw, BitVec.le_def, BitVec.le_def, toNat_network hw, toNat_broadcast hw,
    Block.mem_iff n.size_pos]

/-- **Subnet arithmetic.**  The network made of an address and a prefix holds the addresses from its network address to
its broadcast address, `2 ^ (w - p)` of them; it remembers the prefix; and two networks with one prefix have the same
addresses or none in common. -/
theorem subnet_arithmetic (ip : BitVec w) (p : BitVec 8) (hp : p.toNat ≤ w) :
    ∃ n, (new ip p : Res Empty (IpNet w)) = .ok n ∧
      (∀ x, n.contains x = true ↔ n.network ≤ x ∧ x ≤ n.broadcast) ∧
      n.broadcast.toNat = n.network.toNat + (2 ^ (w - p.toNat) - 1) ∧
      n.subnetMaskBits = p ∧
      ∀ ip' n', (new ip' p : Res Empty (IpNet w)) = .ok n' →
        (n'.network = n.network ∧ n'.broadcast = n.broadcast) ∨
          ∀ x, ¬ ((n.network ≤ x ∧ x ≤ n.broadcast) ∧ (n'.network ≤ x ∧ x ≤ n'.broadcast)) := by
  have hbits : ∀ (ip : BitVec w) (n : IpNet w), (new ip p : Res Empty (IpNet w)) = .ok n → n.subnetMaskBits = p := by
    intro ip n h
    unfold new at h
    rw [if_pos hp, Res.ok.injEq] at h
    subst h
    apply BitVec.eq_of_toNat_eq
    rw [toNat_subnetMaskBits hw _ (Nat.sub_le _ _) rfl]
    omega
  have hnew : (new ip p : Res Empty (IpNet w)) = .ok ⟨ip, clearLow w (w - p.toNat), _, Nat.sub_le _ _, rfl⟩ := if_pos hp
  generalize (⟨ip, clearLow w (w - p.toNat), _, Nat.sub_le _ _, rfl⟩ : IpNet w) = n at hnew
  have hp' := hbits ip n hnew
  refine ⟨n, hnew, contains_iff_between hw n, ?_, hp', ?_⟩
  · rw [toNat_broadcast hw, toNat_network hw, ← hp']
    rfl
  · intro ip' n' hnew'
    have hsize : n'.size = n.size := by
      unfold size
      rw [hbits ip' n' hnew', hp']
    simp only [BitVec.le_def, ← BitVec.toNat_inj, toNat_network hw, toNat_broadcast hw, hsize]
    rcases Block.same_or_apart n.size_pos n.ip.toNat n'.ip.toNat with h | h
    · exact Or.inl h
    · exact Or.inr fun x => h x.toNat

omit hw in
theorem subnet_arithmetic_of_half :
    (∃ n, (new 0x0A0A0AD5#32 25 : Res Empty (IpNet 32)) = .ok n ∧
      n.broadcast.toNat = n.network.toNat + 127 ∧ n.subnetMaskBits = 25) ∧
    ∃ n, (new (0xFE80#128 <<< 112) 64 : Res Empty (IpNet 128)) = .ok n ∧
      n.broadcast.toNat = n.network.toNat + (2 ^ 64 - 1) ∧ n.subnetMaskBits = 64 := by
  obtain ⟨n, hn, -, hrange, hbits, -⟩ := subnet_arithmetic (by decide : 32 < 256) 0x0A0A0AD5#32 25 (by decide)
  obtain ⟨n', hn', -, hrange', hbits', -⟩ :=
    subnet_arithmetic (by decide : 128 < 256) (0xFE80#128 <<< 112) 64 (by decide)
  exact ⟨⟨n, hn, hrange, hbits⟩, n', hn', hrange', hbits'⟩

/-! ## The next address -/

/-- **What `next` promises**: the address after this one, inside the network and at neither of its ends. -/
def StaysInside (n : IpNet w) : Prop :=
  ∀ m, (n.next : Res Empty (Option (IpNet w))) = .ok (some m) →
    n.contains m.ip = true ∧ m.mask = n.mask ∧ m.ip.toNat = n.ip.toNat + 1 ∧ m.ip ≠ n.network ∧ m.ip ≠ n.broadcast

theorem contains_network (n : IpNet w) : n.contains n.network = true :=
  (contains_iff_between hw n _).2 ⟨BitVec.le_refl _, BitVec.le_trans (network_le n) (le_broadcast n)⟩

theorem contains_broadcast (n : IpNet w) : n.contains n.broadcast = true :=
  (contains_iff_between hw n _).2 ⟨BitVec.le_trans (network_le n) (le_broadcast n), BitVec.le_refl _⟩

/-- Below the broadcast address the successor neither wraps nor leaves the network. -/
theorem succ_of_ne_broadcast (n : IpNet w) (h : n.ip ≠ n.broadcast) :
    (n.ip + 1).toNat = n.ip.toNat + 1 ∧ n.contains (n.ip + 1) = true := by
  have hne : n.ip.toNat ≠ n.broadcast.toNat := fun heq => h (BitVec.eq_of_toNat_eq heq)
  have hle : n.ip.toNat ≤ n.broadcast.toNat := le_broadcast n
  have hlt := n.broadcast.isLt
  have hsucc : (n.ip + 1).toNat = n.ip.toNat + 1 := by
    rw [toNat_succ, Nat.mod_eq_of_lt (by omega)]
  rw [toNat_broadcast hw] at hne
  rw [contains_iff_div hw, hsucc]
  exact ⟨rfl, Block.succ_div n.size_pos hne⟩

/-- The address after the broadcast address lies outside, unless the network is all addresses there are. -/
theorem not_contains_succ_broadcast (n : IpNet w) (h : n.ip = n.broadcast) (hp : n.subnetMaskBits ≠ 0) :
    n.contains (n.ip + 1) ≠ true := by
  have hlast : n.ip.toNat = Block.last n.size n.ip.toNat := by
    rw [← toNat_broadcast hw, ← h]
  rw [Ne, contains_iff_div hw, toNat_succ]
  by_cases hwrap : n.ip.toNat + 1 < 2 ^ w
  · rw [Nat.mod_eq_of_lt hwrap, Block.succ_div_of_last n.size_pos hlast]
    omega
  · -- the last address of all: its block is not the first one
    have hlt := n.ip.isLt
    have hzero : n.ip.toNat + 1 = 2 ^ w := by omega
    have hbits : n.subnetMaskBits.toNat ≠ 0 := fun hb => hp (BitVec.eq_of_toNat_eq hb)
    have hsize : n.size ≤ n.ip.toNat := by
      have hbound := subnetMaskBits_toNat_le hw n
      have hpow : n.size < 2 ^ w := Nat.pow_lt_pow_right (by omega) (by omega)
      omega
    have hpos : 0 < n.ip.toNat / n.size := Nat.div_pos hsize n.size_pos
    rw [hzero, Nat.mod_self, Nat.zero_div]
    omega

/-- A network of all addresses there are: after the last one comes the first. -/
theorem succ_of_whole (n : IpNet w) (h : n.ip = n.broadcast) (hp : n.subnetMaskBits = 0) : n.ip + 1 = n.network := by
  have hsize : n.size = 2 ^ w := by
    unfold size
    rw [hp]
    rfl
  have hlast : n.ip.toNat = Block.last n.size n.ip.toNat := by
    rw [← toNat_broadcast hw, ← h]
  have hzero : n.ip.toNat / 2 ^ w = 0 := Nat.div_eq_of_lt n.ip.isLt
  unfold Block.last Block.base at hlast
  rw [hsize, hzero, Nat.zero_mul, Nat.zero_add] at hlast
  have hpos := Nat.two_pow_pos w
  apply BitVec.eq_of_toNat_eq
  rw [toNat_network hw, toNat_succ, hlast, Nat.sub_add_cancel hpos, Nat.mod_self]
  unfold Block.base
  rw [hsize, Nat.div_eq_of_lt (by omega), Nat.zero_mul]

/-- **`next` stays in the network exactly below its broadcast address**, or when the network is all addresses there are:
one past the broadcast address is neither of the two addresses it is compared with. -/
theorem next_stays_iff (n : IpNet w) : n.StaysInside ↔ n.ip ≠ n.broadcast ∨ n.subnetMaskBits = 0 := by
  have hnext := next_eq (ε := Empty) hw n
  constructor
  · intro hstays
    refine Classical.byContradiction fun hcond => ?_
    rw [not_or, not_not] at hcond
    have hout := not_contains_succ_broadcast hw n hcond.1 hcond.2
    have hends : ¬ (n.ip + 1 = n.network ∨ n.ip + 1 = n.broadcast) := by
      rintro (heq | heq)
      · exact hout (heq ▸ contains_network hw n)
      · exact hout (heq ▸ contains_broadcast hw n)
    rw [if_neg hends] at hnext
    exact hout (hstays _ hnext).1
  · intro hcond m hm
    rw [hnext, Res.ok.injEq] at hm
    split at hm
    · cases hm
    · rename_i hends
      cases hm
      have hne : n.ip ≠ n.broadcast := by
        rcases hcond with h | h
        · exact h
        · exact fun heq => hends (Or.inl (succ_of_whole hw n heq h))
      obtain ⟨hsucc, hin⟩ := succ_of_ne_broadcast hw n hne
      exact ⟨hin, rfl, hsucc, fun h => hends (Or.inl h), fun h => hends (Or.inr h)⟩

omit hw in
theorem next_stays_of_first :
    ∃ n, (new 0x0A0A0A01#32 24 : Res Empty (IpNet 32)) = .ok n ∧ n.StaysInside :=
  ⟨_, rfl, (next_stays_iff (by decide) _).2 (Or.inl (by decide))⟩

omit hw in
/-- **The address after 10.10.10.255 is given as the next of its network**, and is not in it. -/
theorem next_of_broadcast_leaves :
    ∃ n m, (new 0x0A0A0AFF#32 24 : Res Empty (IpNet 32)) = .ok n ∧
      (n.next : Res Empty (Option (IpNet 32))) = .ok (some m) ∧ m.ip = 0x0A0A0B00 ∧ n.contains m.ip = false ∧
      ¬ n.StaysInside := by
  refine ⟨_, _, rfl, rfl, rfl, rfl, ?_⟩
  intro h
  exact absurd (h _ rfl).1 (by decide)

end small

end IpNet
end Oathgate
