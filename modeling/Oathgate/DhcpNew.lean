import Oathgate.DhcpPool
import Oathgate.NetSubnetRange
/-!
# DhcpNew — the loop that fills the pool (`oathgate-bridge`: `net/dhcp.rs`)

The loop of `new` halts where the next address is an end of the current network or past the end of the range
(`halts_iff`).  Inside a network it meets one of the two and has then pushed the whole range (`pool_is_range`); from
any start it meets one, except in networks of a single address, where every address is both ends of its own network
and none is the next one's (`new_terminates_iff`).
-/
namespace Oathgate
namespace DhcpServer

open Lib

variable {ε : Type}

theorem toNat_add_ofNat (ip : Ipv4Addr) {i : Nat} (h : ip.toNat + i < 2 ^ 32) :
    (ip + BitVec.ofNat 32 i).toNat = ip.toNat + i := by
  rw [BitVec.toNat_add, BitVec.toNat_ofNat, Nat.mod_eq_of_lt (by omega : i < 2 ^ 32), Nat.mod_eq_of_lt h]

/-- **Where the loop halts**, in numbers. -/
theorem halts_iff (n : Ipv4Network) (end_ ip : Ipv4Addr) :
    Halts n.mask end_ ip ↔
      ((ip.toNat + 1) % 2 ^ 32 = Block.base n.size ip.toNat ∨ (ip.toNat + 1) % 2 ^ 32 = Block.last n.size ip.toNat) ∨
        end_.toNat < (ip.toNat + 1) % 2 ^ 32 := by
  have hnet : (ip &&& n.mask).toNat = Block.base n.size ip.toNat :=
    IpNet.toNat_network (by omega : 32 < 256) ⟨ip, n.mask, n.prefix_mask⟩
  have hbcast : (ip ||| ~~~n.mask).toNat = Block.last n.size ip.toNat :=
    IpNet.toNat_broadcast (by omega : 32 < 256) ⟨ip, n.mask, n.prefix_mask⟩
  unfold Halts
  rw [← BitVec.toNat_inj, ← BitVec.toNat_inj, gt_iff_lt, BitVec.lt_def, toNat_succ, hnet, hbcast]

/-- What `new` returns once its loop has a first address to halt at. -/
theorem new_of_first {network : Ipv4Network} {cfg : DhcpConfig} {k fuel : Nat} (hk : k < fuel)
    (hbefore : ∀ i, i < k → ¬ Halts network.mask cfg.end_ (cfg.start + BitVec.ofNat 32 i))
    (hhalt : Halts network.mask cfg.end_ (cfg.start + BitVec.ofNat 32 k)) :
    (new fuel network cfg : Option (Res ε DhcpServer)) =
      some (.ok ⟨network, 86400, (List.range (k + 1)).map (fun i => cfg.start + BitVec.ofNat 32 i), Table.empty⟩) := by
  unfold new
  rw [IpNet.new_subnetMaskBits (by omega : 32 < 256)]
  simp only [poolLoop_of_first k fuel ⟨cfg.start, network.mask, network.prefix_mask⟩ [] hk hbefore hhalt,
    Option.map_some, Res.bind_ok, Res.pure_eq, List.nil_append]

/-- Inside a network the loop passes every address below both limits, and halts at the lower limit. -/
theorem halts_inside {n : Ipv4Network} {end_ ip : Ipv4Addr} (hip : n.contains ip = true)
    (hfree : ip.toNat < n.broadcast.toNat) (hle : ip.toNat ≤ end_.toNat) :
    Halts n.mask end_ ip ↔ ip.toNat = min end_.toNat (n.broadcast.toNat - 1) := by
  have hdiv := (IpNet.contains_iff_div (by omega : 32 < 256) n ip).1 hip
  have hbase := Block.base_le n.size ip.toNat
  have hlast : Block.last n.size ip.toNat = n.broadcast.toNat := by
    rw [IpNet.toNat_broadcast (by omega : 32 < 256), Block.last_congr hdiv]
  have hlt := n.broadcast.isLt
  rw [halts_iff, hlast, Nat.mod_eq_of_lt (by omega)]
  omega

/-- **The pool is the range inside the network.**  With a start in the network other than its broadcast address and an
end that is not before it, `new` returns after as many rounds as the pool has addresses, and the pool is the ascending
list from the start up to the end or the last address below the broadcast address, each once. -/
theorem pool_is_range (network : Ipv4Network) (cfg : DhcpConfig) (hstart : network.contains cfg.start = true)
    (hle : cfg.start ≤ cfg.end_) (hfree : cfg.start ≠ network.broadcast) :
    ∃ s, (∀ fuel, s.available.length ≤ fuel → (new fuel network cfg : Option (Res Empty DhcpServer)) = some (.ok s)) ∧
      s.available.map BitVec.toNat = List.range' cfg.start.toNat
        (min cfg.end_.toNat (network.broadcast.toNat - 1) + 1 - cfg.start.toNat) ∧
      s.available.Nodup := by
  have hbelow : cfg.start.toNat < network.broadcast.toNat :=
    Nat.lt_of_le_of_ne (network.le_broadcast_of_contains _ hstart) fun heq => hfree (BitVec.eq_of_toNat_eq heq)
  have hle' : cfg.start.toNat ≤ cfg.end_.toNat := hle
  have hlt := network.broadcast.isLt
  generalize htop : min cfg.end_.toNat (network.broadcast.toNat - 1) = top
  obtain ⟨k, hk⟩ : ∃ k, cfg.start.toNat + k = top := ⟨top - cfg.start.toNat, by omega⟩
  have haddr : ∀ i, i ≤ k → (cfg.start + BitVec.ofNat 32 i).toNat = cfg.start.toNat + i :=
    fun i hi => toNat_add_ofNat _ (by omega)
  -- every address up to the last one is inside, so that the loop halts at the last one and at none before
  have hhalts : ∀ i, i ≤ k → (Halts network.mask cfg.end_ (cfg.start + BitVec.ofNat 32 i) ↔ i = k) := by
    intro i hi
    have haddr' := haddr i hi
    have hin : network.contains (cfg.start + BitVec.ofNat 32 i) = true := by
      have hnet := network.network_le_of_contains _ hstart
      rw [BitVec.le_def] at hnet
      rw [IpNet.contains_iff_between (by omega : 32 < 256), BitVec.le_def, BitVec.le_def, haddr']
      omega
    rw [halts_inside hin (by omega) (by omega), htop]
    omega
  have hnew : ∀ fuel, k < fuel → (new fuel network cfg : Option (Res Empty DhcpServer)) = _ := fun fuel hfuel =>
    new_of_first hfuel (fun i hi h => by have := (hhalts i (by omega)).1 h; omega) ((hhalts k (Nat.le_refl k)).2 rfl)
  refine ⟨_, fun fuel hfuel => hnew fuel ?_, ?_, pool_nodup (hnew (k + 1) (by omega))⟩
  · rw [List.length_map, List.length_range] at hfuel
    exact hfuel
  · rw [List.map_map, show top + 1 - cfg.start.toNat = k + 1 by omega, List.range'_eq_map_range]
    apply List.map_congr_left
    intro i hi
    rw [List.mem_range] at hi
    exact haddr i (by omega)

theorem pool_is_range_of_home :
    ∃ s, (new 155 homeNet ⟨0x0A000064, 0x0A0000FF⟩ : Option (Res Empty DhcpServer)) = some (.ok s) ∧
      s.available.map BitVec.toNat = List.range' 0x0A000064 155 := by
  obtain ⟨s, hnew, hpool, -⟩ :=
    pool_is_range homeNet ⟨0x0A000064, 0x0A0000FF⟩ (by decide) (by decide) (by decide)
  have hbcast : homeNet.broadcast.toNat = 0x0A0000FF := rfl
  rw [hbcast] at hpool
  have hlen := congrArg List.length hpool
  rw [List.length_map, List.length_range'] at hlen
  exact ⟨s, hnew 155 (Nat.le_of_eq hlen), hpool⟩

/-- In a network of one address the loop halts at nothing but the end of the range. -/
theorem not_halts_single (n : Ipv4Network) (hsingle : n.subnetMaskBits = 32) (ip : Ipv4Addr) :
    ¬ Halts n.mask (BitVec.allOnes 32) ip := by
  have hsize : n.size = 1 := by
    unfold IpNet.size
    rw [hsingle]
    rfl
  have hlt := ip.isLt
  rw [halts_iff, hsize, BitVec.toNat_allOnes]
  unfold Block.last Block.base
  omega

/-- The end of a range below 255.255.255.255 halts the loop. -/
theorem halts_end (mask : Ipv4Addr) {end_ : Ipv4Addr} (h : end_ ≠ BitVec.allOnes 32) : Halts mask end_ end_ := by
  have hne : end_.toNat ≠ 2 ^ 32 - 1 := fun heq => h (BitVec.eq_of_toNat_eq (heq.trans BitVec.toNat_allOnes.symm))
  have hlt := end_.isLt
  refine Or.inr ?_
  rw [gt_iff_lt, BitVec.lt_def, toNat_succ]
  omega

/-- The last address but one of all halts the loop, in networks of two addresses or more. -/
theorem halts_top (n : Ipv4Network) (end_ : Ipv4Addr) (h : n.subnetMaskBits ≠ 32) :
    Halts n.mask end_ (BitVec.ofNat 32 (2 ^ 32 - 2)) := by
  have hbits : n.subnetMaskBits.toNat < 32 :=
    Nat.lt_of_le_of_ne (IpNet.subnetMaskBits_toNat_le (by omega) n) fun heq => h (BitVec.eq_of_toNat_eq heq)
  have hsize : 2 ^ 1 ≤ n.size := Nat.pow_le_pow_right (by omega) (by omega)
  -- the block of the last address of all ends with it, and holds the one before
  have hlast : Block.last n.size (2 ^ 32 - 1) = 2 ^ 32 - 1 := by
    have hbcast := IpNet.toNat_broadcast (by omega : 32 < 256) ⟨BitVec.allOnes 32, n.mask, n.prefix_mask⟩
    rw [IpNet.broadcast_of_contains_allOnes _ (IpNet.contains_ip _), BitVec.toNat_allOnes] at hbcast
    exact hbcast.symm
  have hbefore : (2 ^ 32 - 2) / n.size = (2 ^ 32 - 1) / n.size := by
    rw [← Block.mem_iff n.size_pos, hlast]
    unfold Block.last at hlast
    omega
  rw [halts_iff, BitVec.toNat_ofNat, Nat.mod_eq_of_lt (by omega : 2 ^ 32 - 2 < 2 ^ 32), Block.last_congr hbefore, hlast]
  omega

/-- **The loop of `new` terminates exactly when the network has more than one address or the range ends below
255.255.255.255.** -/
theorem new_terminates_iff (network : Ipv4Network) (cfg : DhcpConfig) :
    (∃ fuel s, (new fuel network cfg : Option (Res Empty DhcpServer)) = some (.ok s)) ↔
      ¬ (network.subnetMaskBits = 32 ∧ cfg.end_ = BitVec.allOnes 32) := by
  constructor
  · rintro ⟨fuel, s, hnew⟩ ⟨hsingle, hend⟩
    obtain ⟨-, -, k, -, -, hhalt⟩ := new_spec hnew
    rw [hend] at hhalt
    exact not_halts_single network hsingle _ hhalt
  · intro h
    obtain ⟨ip, hip⟩ : ∃ ip, Halts network.mask cfg.end_ ip := by
      by_cases hsingle : network.subnetMaskBits = 32
      · exact ⟨_, halts_end _ fun hend => h ⟨hsingle, hend⟩⟩
      · exact ⟨_, halts_top network cfg.end_ hsingle⟩
    have hex : ∃ k, Halts network.mask cfg.end_ (cfg.start + BitVec.ofNat 32 k) := by
      refine ⟨(ip - cfg.start).toNat, ?_⟩
      rw [BitVec.ofNat_toNat, BitVec.setWidth_eq, BitVec.add_comm, BitVec.sub_add_cancel]
      exact hip
    exact ⟨_, _, new_of_first (Nat.lt_succ_self _) (fun i hi => Nat.find_min hex hi) (Nat.find_spec hex)⟩

/-- 10.0.0.1 given without a prefix. -/
def singleNet : Ipv4Network := ⟨0x0A000001, clearLow 32 0, 0, by omega, rfl⟩

theorem subnetMaskBits_singleNet : singleNet.subnetMaskBits = 32 := by
  apply BitVec.eq_of_toNat_eq
  rw [IpNet.toNat_subnetMaskBits (by omega) singleNet (by omega : 0 ≤ 32) rfl]
  rfl

theorem new_singleNet (fuel : Nat) :
    (new fuel singleNet ⟨0x0A000001, 0xFFFFFFFF⟩ : Option (Res Empty DhcpServer)) = none := by
  have hloop : (poolLoop fuel ⟨0x0A000001, singleNet.mask, singleNet.prefix_mask⟩ 0xFFFFFFFF [] :
      Option (Res Empty (List Ipv4Addr))) = none :=
    poolLoop_none fuel _ [] fun i _ => not_halts_single singleNet subnetMaskBits_singleNet _
  unfold new
  rw [IpNet.new_subnetMaskBits (by omega : 32 < 256)]
  simp only [hloop, Option.map_none]

/-- **A network given without a prefix and a range up to 255.255.255.255** keep the loop going for ever. -/
theorem single_network_never_filled :
    ¬ ∃ fuel r, (new fuel singleNet ⟨0x0A000001, 0xFFFFFFFF⟩ : Option (Res Empty DhcpServer)) = some r := by
  rintro ⟨fuel, r, h⟩
  rw [new_singleNet fuel] at h
  cases h

end DhcpServer
end Oathgate
