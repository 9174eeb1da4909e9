import Oathgate.DhcpServer
import Mathlib.Data.List.Nodup
import Mathlib.Data.Nat.Find
/-!
# DhcpPool — the pool the server starts with, and what leasing does to it

`new` fills the queue with consecutive addresses; whenever it returns they are distinct, since a round that comes back
to an address comes back for ever (`pool_nodup`).  From then on the queue is always the free part of that pool
(`Conserves`), which every lease keeps.
-/
namespace Oathgate
namespace DhcpServer

open Lib Lease

variable {ε : Type}

/-! ## The pool -/

/-- The loop of `new` ends at `ip`: the address after it is the network or broadcast address of `ip`'s block, or past
the end. -/
def Halts (mask end_ ip : Ipv4Addr) : Prop :=
  (ip + 1 = ip &&& mask ∨ ip + 1 = ip ||| ~~~mask) ∨ ip + 1 > end_

instance (mask end_ ip : Ipv4Addr) : Decidable (Halts mask end_ ip) := inferInstanceAs (Decidable (_ ∨ _))

theorem poolLoop_succ (fuel : Nat) (n : Ipv4Network) (end_ : Ipv4Addr) (acc : List Ipv4Addr) :
    (poolLoop (fuel + 1) n end_ acc : Option (Res ε (List Ipv4Addr))) =
      if Halts n.mask end_ n.ip then some (.ok (acc ++ [n.ip]))
      else poolLoop fuel ⟨n.ip + 1, n.mask, n.prefix_mask⟩ end_ (acc ++ [n.ip]) := by
  conv => lhs; unfold poolLoop
  simp only [IpNet.next_eq (by omega : 32 < 256)]
  by_cases h1 : n.ip + 1 = n.network ∨ n.ip + 1 = n.broadcast
  · rw [if_pos h1, if_pos (show Halts n.mask end_ n.ip from Or.inl h1)]
  · rw [if_neg h1]
    by_cases h2 : n.ip + 1 > end_
    · simp only [if_pos h2, if_pos (show Halts n.mask end_ n.ip from Or.inr h2)]
    · simp only [if_neg h2, if_neg (show ¬ Halts n.mask end_ n.ip from not_or.2 ⟨h1, h2⟩)]

/-- The address `i` rounds into the loop. -/
theorem add_one_add (ip : Ipv4Addr) (i : Nat) : ip + 1 + BitVec.ofNat 32 i = ip + BitVec.ofNat 32 (i + 1) := by
  rw [BitVec.ofNat_add, BitVec.add_assoc, BitVec.add_comm 1]
  rfl

/-- **The loop pushes consecutive addresses** up to the first one it halts at. -/
theorem poolLoop_of_first {end_ : Ipv4Addr} : ∀ (k fuel : Nat) (n : Ipv4Network) (acc : List Ipv4Addr), k < fuel →
    (∀ i, i < k → ¬ Halts n.mask end_ (n.ip + BitVec.ofNat 32 i)) → Halts n.mask end_ (n.ip + BitVec.ofNat 32 k) →
      (poolLoop fuel n end_ acc : Option (Res ε (List Ipv4Addr))) =
        some (.ok (acc ++ (List.range (k + 1)).map (fun i => n.ip + BitVec.ofNat 32 i)))
  | _, 0, _, _, hk, _, _ => by omega
  | 0, fuel + 1, n, acc, _, _, hhalt => by
    rw [poolLoop_succ, if_pos (by simpa using hhalt)]
    simp
  | k + 1, fuel + 1, n, acc, hk, hbefore, hhalt => by
    have hfirst : ¬ Halts n.mask end_ n.ip := by simpa using hbefore 0 (by omega)
    rw [poolLoop_succ, if_neg hfirst,
      poolLoop_of_first k fuel ⟨n.ip + 1, n.mask, n.prefix_mask⟩ _ (by omega)
        (fun i hi => by rw [add_one_add]; exact hbefore (i + 1) (by omega)) (by rw [add_one_add]; exact hhalt),
      List.range_succ_eq_map (n := k + 1), List.map_cons, List.map_map, List.append_assoc]
    simp only [add_one_add, Function.comp_def]
    simp

/-- A loop that halts at none of the addresses it can try runs out of fuel. -/
theorem poolLoop_none {end_ : Ipv4Addr} : ∀ (fuel : Nat) (n : Ipv4Network) (acc : List Ipv4Addr),
    (∀ i, i < fuel → ¬ Halts n.mask end_ (n.ip + BitVec.ofNat 32 i)) →
      (poolLoop fuel n end_ acc : Option (Res ε (List Ipv4Addr))) = none
  | 0, _, _, _ => rfl
  | fuel + 1, n, acc, h => by
    have hfirst : ¬ Halts n.mask end_ n.ip := by simpa using h 0 (by omega)
    rw [poolLoop_succ, if_neg hfirst]
    refine poolLoop_none fuel _ _ fun i hi => ?_
    rw [add_one_add]
    exact h (i + 1) (by omega)

/-- **A loop that returns** has met an address it halts at. -/
theorem poolLoop_spec (fuel : Nat) (n : Ipv4Network) (end_ : Ipv4Addr) (acc : List Ipv4Addr)
    (r : Res ε (List Ipv4Addr)) (h : poolLoop fuel n end_ acc = some r) :
    ∃ k, r = .ok (acc ++ (List.range (k + 1)).map (fun i => n.ip + BitVec.ofNat 32 i)) ∧
      (∀ i, i < k → ¬ Halts n.mask end_ (n.ip + BitVec.ofNat 32 i)) ∧ Halts n.mask end_ (n.ip + BitVec.ofNat 32 k) := by
  by_cases hex : ∃ k, k < fuel ∧ Halts n.mask end_ (n.ip + BitVec.ofNat 32 k)
  · obtain ⟨hk, hhalt⟩ := Nat.find_spec hex
    have hbefore : ∀ i, i < Nat.find hex → ¬ Halts n.mask end_ (n.ip + BitVec.ofNat 32 i) :=
      fun i hi hh => Nat.find_min hex hi ⟨by omega, hh⟩
    rw [poolLoop_of_first _ fuel n acc hk hbefore hhalt, Option.some.injEq] at h
    exact ⟨_, h.symm, hbefore, hhalt⟩
  · have hnone : ∀ i, i < fuel → ¬ Halts n.mask end_ (n.ip + BitVec.ofNat 32 i) :=
      fun i hi hh => hex ⟨i, hi, hh⟩
    rw [poolLoop_none fuel n acc hnone] at h
    cases h

theorem new_spec {fuel : Nat} {network : Ipv4Network} {cfg : DhcpConfig} {s : DhcpServer}
    (h : new fuel network cfg = some (.ok s : Res ε DhcpServer)) :
    s.network = network ∧ s.leased = Table.empty ∧
      ∃ k, s.available = (List.range (k + 1)).map (fun i => cfg.start + BitVec.ofNat 32 i) ∧
        (∀ i, i < k → ¬ Halts network.mask cfg.end_ (cfg.start + BitVec.ofNat 32 i)) ∧
        Halts network.mask cfg.end_ (cfg.start + BitVec.ofNat 32 k) := by
  unfold new at h
  rw [IpNet.new_subnetMaskBits (by omega : 32 < 256)] at h
  simp only [Option.map_eq_some_iff] at h
  obtain ⟨r, hr, hs⟩ := h
  obtain ⟨k, rfl, hbefore, hk⟩ := poolLoop_spec fuel _ _ _ r hr
  simp only [Res.bind_ok, Res.pure_eq, Res.ok.injEq, List.nil_append] at hs
  subst hs
  exact ⟨rfl, rfl, k, rfl, hbefore, hk⟩

/-- **The pool has no address twice**: a loop that passed all addresses would meet the first one again and pass it
again. -/
theorem pool_nodup {fuel : Nat} {network : Ipv4Network} {cfg : DhcpConfig} {s : DhcpServer}
    (h : new fuel network cfg = some (.ok s : Res ε DhcpServer)) : s.available.Nodup := by
  obtain ⟨-, -, k, ha, hbefore, hk⟩ := new_spec h
  have hlt : k < 2 ^ 32 := by
    apply Classical.byContradiction
    intro hge
    apply hbefore (k - 2 ^ 32) (by omega)
    have hwrap : BitVec.ofNat 32 (k - 2 ^ 32) = BitVec.ofNat 32 k := by
      apply BitVec.eq_of_toNat_eq
      simp only [BitVec.toNat_ofNat]
      omega
    rwa [hwrap]
  rw [ha]
  refine List.Nodup.map_on ?_ List.nodup_range
  intro i hi j hj hij
  rw [List.mem_range] at hi hj
  have hnat := congrArg BitVec.toNat ((BitVec.add_right_inj _).1 hij)
  simp only [BitVec.toNat_ofNat] at hnat
  omega

/-! ## Leasing -/

/-- **The queue is the free part of the pool.** -/
def Conserves (pool : List Ipv4Addr) (s : DhcpServer) : Prop := s.available = free pool s.leased

theorem conserves_new {fuel : Nat} {network : Ipv4Network} {cfg : DhcpConfig} {s : DhcpServer}
    (h : new fuel network cfg = some (.ok s : Res ε DhcpServer)) : Conserves s.available s := by
  unfold Conserves
  rw [(new_spec h).2.1, free_empty]

/-- The client asks for an address it can have: nobody holds it, or it does itself. -/
def AsksFor (s : DhcpServer) (mac : MacAddress) (requested : Option Ipv4Addr) (ip : Ipv4Addr) : Prop :=
  requested = some ip ∧ ∀ m, s.leased.get ip = some m → m = mac

/-- An address the client can have is given to it, and leaves the queue. -/
theorem assign_asked {s : DhcpServer} {mac : MacAddress} {requested : Option Ipv4Addr} {ip : Ipv4Addr}
    (h : AsksFor s mac requested ip) :
    s.assign mac requested = (some ip,
      { s with
        available := s.available.filter (fun x => decide (x ≠ ip)), leased := s.leased.insert ip mac }) := by
  obtain ⟨rfl, hm⟩ := h
  unfold assign chooseIp
  cases hl : s.leased.get ip with
  | none => simp only [hl]
  | some m => simp only [hl, if_pos (hm m hl)]

/-- Without one the queue decides. -/
theorem chooseIp_unasked {s : DhcpServer} {mac : MacAddress} {requested : Option Ipv4Addr}
    (h : ¬ ∃ ip, AsksFor s mac requested ip) : s.chooseIp mac requested = s.popFront := by
  unfold chooseIp
  cases requested with
  | none => rfl
  | some ria =>
    cases hl : s.leased.get ria with
    | none => exact absurd ⟨ria, rfl, by simp [hl]⟩ h
    | some m =>
      have hne : m ≠ mac := fun he => h ⟨ria, rfl, fun m' hm' => by rw [hl] at hm'; cases hm'; exact he⟩
      simp only [hl, if_neg hne]

theorem assign_unasked {s : DhcpServer} {mac : MacAddress} {requested : Option Ipv4Addr}
    (h : ¬ ∃ ip, AsksFor s mac requested ip) : (s.assign mac requested).1 = s.available.head? := by
  unfold assign
  rw [chooseIp_unasked h]
  unfold popFront
  cases s.available with
  | nil => rfl
  | cons ip rest => rfl

/-- **Everything a lease can do**: give the address asked for, or the head of the queue, or nothing when the queue is
empty. -/
theorem assign_cases (pool : List Ipv4Addr) (hpool : pool.Nodup) (s : DhcpServer) (hs : Conserves pool s)
    (mac : MacAddress) (requested : Option Ipv4Addr) :
    (∃ ip, (s.assign mac requested).1 = some ip ∧ AsksFor s mac requested ip ∧
      Grant s.leased (ip, mac) (s.assign mac requested).2.leased ∧ Conserves pool (s.assign mac requested).2) ∨
    ((¬ ∃ ip, AsksFor s mac requested ip) ∧
      ((∃ ip, (s.assign mac requested).1 = some ip ∧ s.available.head? = some ip ∧
        Grant s.leased (ip, mac) (s.assign mac requested).2.leased ∧ Conserves pool (s.assign mac requested).2) ∨
      ((s.assign mac requested).1 = none ∧ s.available = [] ∧ (s.assign mac requested).2 = s))) := by
  unfold Conserves at hs
  by_cases h : ∃ ip, AsksFor s mac requested ip
  · obtain ⟨ria, hask⟩ := h
    refine Or.inl ⟨ria, ?_⟩
    rw [assign_asked hask]
    exact ⟨rfl, hask, ⟨hask.2, rfl⟩, by simp only [Conserves, hs, free_insert]⟩
  · refine Or.inr ⟨h, ?_⟩
    unfold assign
    rw [chooseIp_unasked h]
    unfold popFront
    cases ha : s.available with
    | nil => exact Or.inr ⟨rfl, rfl, rfl⟩
    | cons ip rest =>
      rw [ha] at hs
      refine Or.inl ⟨ip, rfl, rfl, ⟨?_, rfl⟩, ?_⟩
      · intro b hb
        have hfree := free_head hs.symm
        rw [hfree] at hb
        cases hb
      · exact (free_insert_head mac hpool hs.symm).symm

def LeaseStep (api : Dhcproto) (s : DhcpServer) (msg : Message) (s' : DhcpServer) : Prop :=
  ∃ r, (s.leaseIp api msg : Res Empty (Option Ipv4Network) × DhcpServer) = (.ok r, s')

theorem leaseStep_iff (api : Dhcproto) (s : DhcpServer) (msg : Message) (s' : DhcpServer) :
    LeaseStep api s msg s' ↔ ∃ mac, From api msg mac ∧ s' = (s.assign mac (getRequestedIp msg)).2 := by
  constructor
  · rintro ⟨r, hr⟩
    by_cases hclient : ∃ mac, From api msg mac
    · obtain ⟨mac, hmac⟩ := hclient
      rw [leaseIp_eq s msg mac hmac, Prod.mk.injEq] at hr
      exact ⟨mac, hmac, hr.2.symm⟩
    · obtain ⟨p, hp⟩ := leaseIp_panic (ε := Empty) s msg hclient
      rw [hp] at hr
      cases hr
  · rintro ⟨mac, hmac, rfl⟩
    exact ⟨_, leaseIp_eq s msg mac hmac⟩

theorem conserves_assign (pool : List Ipv4Addr) (hpool : pool.Nodup) (s : DhcpServer) (hs : Conserves pool s)
    (mac : MacAddress) (requested : Option Ipv4Addr) : Conserves pool (s.assign mac requested).2 := by
  rcases assign_cases pool hpool s hs mac requested with ⟨ip, -, -, -, hc⟩ | ⟨-, ⟨ip, -, -, -, hc⟩ | ⟨-, -, hsame⟩⟩
  · exact hc
  · exact hc
  · rw [hsame]; exact hs

theorem conserves_run {api : Dhcproto} {pool : List Ipv4Addr} {s₀ s : DhcpServer} {msgs : List Message}
    (hpool : pool.Nodup) (h₀ : Conserves pool s₀) (h : Run (LeaseStep api) s₀ msgs s) : Conserves pool s := by
  refine Run.invariant (I := fun _ s => Conserves pool s) h₀ ?_ h
  intro _ t msg u _ hi hstep
  obtain ⟨mac, -, rfl⟩ := (leaseStep_iff api t msg u).1 hstep
  exact conserves_assign pool hpool t hi mac _

/-- **The pool is conserved.**  In every state of a run of `lease_ip` calls the queue is the initial pool without the
leased addresses, in order and without duplicates; and the next call from any client gives it the address it asks for
when nobody else holds it, else the first unleased address of the pool, and nothing only when every address of the
pool is leased, leaving the server as it was. -/
theorem lease_conserves_pool (api : Dhcproto) (fuel : Nat) (network : Ipv4Network) (cfg : DhcpConfig)
    (s₀ s : DhcpServer) (msgs : List Message) (hnew : new fuel network cfg = some (.ok s₀ : Res Empty DhcpServer))
    (hrun : Run (LeaseStep api) s₀ msgs s) :
    s.available = s₀.available.filter (fun ip => (s.leased.get ip).isNone) ∧ s.available.Nodup ∧
    ∀ msg mac, From api msg mac →
      ∃ r s', (s.leaseIp api msg : Res Empty (Option Ipv4Network) × DhcpServer) = (.ok r, s') ∧
        (r = none → s' = s ∧ ∀ ip ∈ s₀.available, ∃ m, s.leased.get ip = some m) ∧
        ∀ n, r = some n → s'.leased = s.leased.insert n.ip mac ∧
          (AsksFor s mac (getRequestedIp msg) n.ip ∨
            ((¬ ∃ ip, AsksFor s mac (getRequestedIp msg) ip) ∧
              s₀.available.find? (fun ip => (s.leased.get ip).isNone) = some n.ip)) := by
  have hpool := pool_nodup hnew
  have hs : Conserves s₀.available s := conserves_run hpool (conserves_new hnew) hrun
  have hfirst : s.available.head? = s₀.available.find? (fun ip => (s.leased.get ip).isNone) := by
    rw [show s.available = _ from hs, free, List.head?_filter]
  have hnodup : s.available.Nodup := by
    rw [show s.available = _ from hs]
    exact nodup_free _ hpool
  refine ⟨hs, hnodup, ?_⟩
  intro msg mac hmac
  refine ⟨_, _, leaseIp_eq s msg mac hmac, ?_⟩
  rcases assign_cases _ hpool s hs mac (getRequestedIp msg) with
    ⟨ip, hip, hask, hgrant, -⟩ | ⟨hno, ⟨ip, hip, hhead, hgrant, -⟩ | ⟨hip, hempty, hsame⟩⟩
  · rw [hip]
    refine ⟨by simp, ?_⟩
    intro n hn
    cases hn
    exact ⟨hgrant.2, Or.inl hask⟩
  · rw [hip]
    refine ⟨by simp, ?_⟩
    intro n hn
    cases hn
    exact ⟨hgrant.2, Or.inr ⟨hno, hfirst ▸ hhead⟩⟩
  · rw [hip, hsame]
    refine ⟨fun _ => ⟨rfl, ?_⟩, by simp⟩
    intro ip hmem
    -- an unleased address of the pool would be in the queue
    cases hl : s.leased.get ip with
    | some m => exact ⟨m, rfl⟩
    | none =>
      have hqueued : ip ∈ s.available := by
        rw [show s.available = _ from hs]
        exact mem_free.2 ⟨hmem, hl⟩
      rw [hempty] at hqueued
      cases hqueued

theorem lease_conserves_pool_of_two :
    ∃ s₀ s, new 3 homeNet ⟨0x0A000064, 0x0A000065⟩ = some (.ok s₀ : Res Empty DhcpServer) ∧
      Run (LeaseStep decodedOnly) s₀ [clientMsg .discover 1 none] s ∧ s.available = [0x0A000065] := by
  refine ⟨_, _, rfl, .single ⟨_, rfl⟩, ?_⟩
  rw [(lease_conserves_pool decodedOnly 3 homeNet ⟨0x0A000064, 0x0A000065⟩ _ _ [clientMsg .discover 1 none] rfl
    (.single ⟨_, rfl⟩)).1]
  decide

end DhcpServer
end Oathgate
