import Oathgate.DhcpRun
/-!
# DhcpRange — which addresses are ever leased

The pool lies between `start` and `end` (`pool_in_range`).  An address also enters the lease map because a client asked
for it, and `lease_ip` does not look where it lies.  `leases_inside_iff` says exactly which runs lease inside the range
and never the router's own address.
-/
namespace Oathgate
namespace DhcpServer

open Lib Lease

variable {ε : Type} {api : Dhcproto} {network : Ipv4Network} {cfg : DhcpConfig}

def Host (network : Ipv4Network) (ip : Ipv4Addr) : Prop :=
  network.contains ip = true ∧ ip ≠ network.network ∧ ip ≠ network.broadcast

/-- An address the server may lease: from `start` to `end`, and not the router's, the network's or the broadcast
address. -/
def Leasable (network : Ipv4Network) (cfg : DhcpConfig) (ip : Ipv4Addr) : Prop :=
  (cfg.start ≤ ip ∧ ip ≤ cfg.end_) ∧ ip ≠ network.ip ∧ ip ≠ network.network ∧ ip ≠ network.broadcast

theorem leasable_iff_of_host (hstart : Host network cfg.start) (hend : Host network cfg.end_) (ip : Ipv4Addr) :
    Leasable network cfg ip ↔ (cfg.start ≤ ip ∧ ip ≤ cfg.end_) ∧ ip ≠ network.ip := by
  constructor
  · intro h
    exact ⟨h.1, h.2.1⟩
  · rintro ⟨hr, hip⟩
    refine ⟨hr, hip, ?_, ?_⟩
    · rintro rfl
      exact hstart.2.1 (BitVec.le_antisymm hr.1 (network.network_le_of_contains _ hstart.1))
    · rintro rfl
      exact hend.2.2 (BitVec.le_antisymm (network.le_broadcast_of_contains _ hend.1) hr.2)

theorem succ_le_end_of_not_halts {mask end_ ip : Ipv4Addr} (h : ¬ Halts mask end_ ip) : ip + 1 ≤ end_ := by
  have hle := (not_or.1 h).2
  rwa [gt_iff_lt, BitVec.not_lt] at hle

/-- **The pool lies between `start` and `end`.**  The end is a host address, so that counting up to it does not wrap
around. -/
theorem pool_in_range {fuel : Nat} {s : DhcpServer} (hend : Host network cfg.end_) (hle : cfg.start ≤ cfg.end_)
    (h : new fuel network cfg = some (.ok s : Res ε DhcpServer)) :
    ∀ ip ∈ s.available, cfg.start ≤ ip ∧ ip ≤ cfg.end_ := by
  obtain ⟨-, -, k, ha, hbefore, -⟩ := new_spec h
  have hmax : cfg.end_.toNat < 2 ^ 32 - 1 := by
    have hne : cfg.end_ ≠ BitVec.allOnes 32 := by
      intro he
      apply hend.2.2
      rw [he, network.broadcast_of_contains_allOnes (he ▸ hend.1)]
    have hne' : cfg.end_.toNat ≠ 2 ^ 32 - 1 := by
      intro he
      apply hne
      apply BitVec.eq_of_toNat_eq
      rw [he]
      rfl
    have hlt := cfg.end_.isLt
    omega
  rw [BitVec.le_def] at hle
  -- by induction on the rounds: the i-th address is `start + i`, and no greater than the end
  have hround : ∀ i, i ≤ k → (cfg.start + BitVec.ofNat 32 i).toNat = cfg.start.toNat + i ∧
      cfg.start.toNat + i ≤ cfg.end_.toNat := by
    intro i
    induction i with
    | zero => intro _; simpa using hle
    | succ i ih =>
      intro hi
      obtain ⟨heq, hlei⟩ := ih (by omega)
      have hnext := succ_le_end_of_not_halts (hbefore i (by omega))
      have hsucc : cfg.start + BitVec.ofNat 32 i + 1 = cfg.start + BitVec.ofNat 32 (i + 1) := by
        rw [BitVec.ofNat_add, BitVec.add_assoc]
        rfl
      have hnat : (cfg.start + BitVec.ofNat 32 i + 1).toNat = cfg.start.toNat + (i + 1) := by
        rw [BitVec.toNat_add, heq, show (1 : BitVec 32).toNat = 1 from rfl, Nat.mod_eq_of_lt (by omega), Nat.add_assoc]
      rw [BitVec.le_def, hnat] at hnext
      rw [← hsucc]
      exact ⟨hnat, hnext⟩
  intro ip hip
  rw [ha] at hip
  obtain ⟨i, hi, rfl⟩ := List.mem_map.1 hip
  rw [List.mem_range] at hi
  obtain ⟨heq, hlei⟩ := hround i (by omega)
  rw [BitVec.le_def, BitVec.le_def, heq]
  omega

/-! ## Careful runs -/

/-- **The request that does no harm.**  A client that is leased an address asks for none that nobody holds, or for one
between `start` and `end` that is not the router's; and a client served from the queue does not find the router's
address at its head. -/
def Careful (api : Dhcproto) (network : Ipv4Network) (cfg : DhcpConfig) (s : DhcpServer) (msg : Message) : Prop :=
  (answerType msg).isSome = true →
    (∀ ip, getRequestedIp msg = some ip → s.leased.get ip = none → (cfg.start ≤ ip ∧ ip ≤ cfg.end_) ∧ ip ≠ network.ip) ∧
    ((∀ ip, getRequestedIp msg = some ip → ∃ mac, s.leased.get ip = some mac ∧ ¬ From api msg mac) →
      s.available.head? ≠ some network.ip)

def CarefulStep (api : Dhcproto) (network : Ipv4Network) (cfg : DhcpConfig) (s : DhcpServer)
    (l : Message × Res ProtocolError (Option Message)) (s' : DhcpServer) : Prop :=
  ServeStep api s l s' ∧ Careful api network cfg s l.1

def LeasesInside (network : Ipv4Network) (cfg : DhcpConfig) (s : DhcpServer) : Prop :=
  ∀ ip mac, s.leased.get ip = some mac → Leasable network cfg ip

section step

variable {s : DhcpServer} {msg : Message} {mac : MacAddress} {ip : Ipv4Addr}

theorem careful_of_asksFor (hrange : ∀ ip, Leasable network cfg ip ↔ (cfg.start ≤ ip ∧ ip ≤ cfg.end_) ∧ ip ≠ network.ip)
    (hin : LeasesInside network cfg s) (hty : (answerType msg).isSome = true) (hmac : From api msg mac)
    (hask : AsksFor s mac (getRequestedIp msg) ip) : Careful api network cfg s msg ↔ Leasable network cfg ip := by
  obtain ⟨hreq, hfree⟩ := hask
  cases hl : s.leased.get ip with
  | some m =>
    -- it renews an address it holds
    have hm := hfree m hl
    subst hm
    refine iff_of_true (fun _ => ⟨?_, ?_⟩) (hin ip m hl)
    · intro ip' hip' hnone
      rw [hreq] at hip'
      cases hip'
      rw [hl] at hnone
      cases hnone
    · intro hheld
      obtain ⟨m', hm', hnot⟩ := hheld ip hreq
      rw [hl] at hm'
      cases hm'
      exact absurd hmac hnot
  | none =>
    rw [hrange]
    constructor
    · intro hc
      exact (hc hty).1 ip hreq hl
    · intro h _
      refine ⟨?_, ?_⟩
      · intro ip' hip' _
        rw [hreq] at hip'
        cases hip'
        exact h
      · intro hheld
        obtain ⟨m', hm', -⟩ := hheld ip hreq
        rw [hl] at hm'
        cases hm'

theorem careful_of_queue (hty : (answerType msg).isSome = true) (hmac : From api msg mac)
    (hno : ¬ ∃ ip, AsksFor s mac (getRequestedIp msg) ip) :
    Careful api network cfg s msg ↔ s.available.head? ≠ some network.ip := by
  have hheld : ∀ ip, getRequestedIp msg = some ip → ∃ m, s.leased.get ip = some m ∧ ¬ From api msg m := by
    intro ip hip
    cases hl : s.leased.get ip with
    | none => exact absurd ⟨ip, hip, by simp [hl]⟩ hno
    | some m =>
      refine ⟨m, rfl, fun hm => hno ⟨ip, hip, ?_⟩⟩
      intro m' hm'
      rw [hl] at hm'
      cases hm'
      exact From.unique hmac hm
  constructor
  · intro hc
    exact (hc hty).2 hheld
  · intro hhead _
    refine ⟨?_, fun _ => hhead⟩
    intro ip hip hnone
    obtain ⟨m, hm, -⟩ := hheld ip hip
    rw [hnone] at hm
    cases hm

end step

/-- **One message keeps the leases inside exactly when it is careful.** -/
theorem leasesInside_step {pool : List Ipv4Addr} (hpool : pool.Nodup)
    (hrange : ∀ ip, Leasable network cfg ip ↔ (cfg.start ≤ ip ∧ ip ≤ cfg.end_) ∧ ip ≠ network.ip)
    (hin : ∀ ip ∈ pool, cfg.start ≤ ip ∧ ip ≤ cfg.end_) {s s' : DhcpServer}
    {l : Message × Res ProtocolError (Option Message)} (hs : Conserves pool s) (h : ServeStep api s l s') :
    LeasesInside network cfg s' ↔ LeasesInside network cfg s ∧ Careful api network cfg s l.1 := by
  obtain ⟨msg, r⟩ := l
  rcases serveStep_cases h with ⟨ty, mac, hty, hmac, rfl, -⟩ | ⟨hty, rfl, -⟩
  · have hsome : (answerType msg).isSome = true := by rw [hty]; rfl
    rcases assign_cases pool hpool s hs mac (getRequestedIp msg) with
      ⟨ip, -, hask, hgrant, -⟩ | ⟨hno, ⟨ip, -, hhead, hgrant, -⟩ | ⟨-, hempty, hsame⟩⟩
    · refine (grant_all hgrant _).trans (and_congr_right ?_)
      intro hin
      exact (careful_of_asksFor hrange hin hsome hmac hask).symm
    · refine (grant_all hgrant _).trans (and_congr_right ?_)
      intro _
      have hmem : ip ∈ pool := by
        have hqueued : ip ∈ s.available := List.mem_of_head? hhead
        rw [show s.available = _ from hs] at hqueued
        exact (mem_free.1 hqueued).1
      rw [careful_of_queue hsome hmac hno, hhead, hrange]
      simp [hin ip hmem]
    · rw [hsame, careful_of_queue hsome hmac hno, hempty]
      simp
  · have hcareful : Careful api network cfg s' msg := fun hsome => by rw [hty] at hsome; cases hsome
    simp [hcareful]

/-- **Leases stay inside the pool exactly in careful runs.**  With `start ≤ end` two host addresses of the network:
at the end of a run every address leased or answered lies between `start` and `end` and is none of the router's, the
network's and the broadcast address, if and only if every step of the run was careful. -/
theorem leases_inside_iff (api : Dhcproto) (fuel : Nat) (network : Ipv4Network) (cfg : DhcpConfig)
    (s₀ s : DhcpServer) (ls : List (Message × Res ProtocolError (Option Message))) (hstart : Host network cfg.start)
    (hend : Host network cfg.end_) (hle : cfg.start ≤ cfg.end_)
    (hnew : new fuel network cfg = some (.ok s₀ : Res Empty DhcpServer)) (hrun : Run (ServeStep api) s₀ ls s) :
    (LeasesInside network cfg s ∧ ∀ msg reply, (msg, .ok (some reply)) ∈ ls → Leasable network cfg reply.yiaddr) ↔
      Run (CarefulStep api network cfg) s₀ ls s := by
  have hpool := pool_nodup hnew
  have hin := pool_in_range hend hle hnew
  have hrange := leasable_iff_of_host hstart hend
  have hleases : LeasesInside network cfg s ↔ Run (CarefulStep api network cfg) s₀ ls s := by
    refine Run.invariant (I := fun ls s => LeasesInside network cfg s ↔ Run (CarefulStep api network cfg) s₀ ls s)
      ?_ ?_ hrun
    · refine iff_of_true ?_ .nil
      intro ip mac hip
      rw [(new_spec hnew).2.1] at hip
      cases hip
    · intro ls t l u hrun ih hstep
      have hs := (run_refines_grants hpool (conserves_new hnew) hrun).1
      rw [leasesInside_step hpool hrange hin hs hstep, ih]
      constructor
      · rintro ⟨hr, hc⟩
        exact .snoc hr ⟨hstep, hc⟩
      · intro hr
        -- a careful run passes the same states
        obtain ⟨t', hr', hstep', hc⟩ := hr.unsnoc
        have hsame := Run.deterministic serveStep_deterministic hrun (hr'.mono fun _ _ _ h => h.1)
        subst hsame
        exact ⟨hr', hc⟩
  rw [← hleases]
  constructor
  · intro h
    exact h.1
  · intro h
    refine ⟨h, ?_⟩
    intro msg reply hmem
    obtain ⟨mac, hmac⟩ := answer_from hrun hmem
    exact h _ mac (answer_stands hpool (conserves_new hnew) hrun hmem hmac)

theorem leases_inside_of_discover :
    ∃ s₀ s ls, Host homeNet 0x0A000064 ∧ Host homeNet 0x0A000065 ∧
      new 3 homeNet ⟨0x0A000064, 0x0A000065⟩ = some (.ok s₀ : Res Empty DhcpServer) ∧
      Run (ServeStep decodedOnly) s₀ ls s ∧ s.leased.get 0x0A000064 = some (guestMac 1) ∧
      LeasesInside homeNet ⟨0x0A000064, 0x0A000065⟩ s := by
  have hstart : Host homeNet 0x0A000064 := ⟨by decide, by decide, by decide⟩
  have hend : Host homeNet 0x0A000065 := ⟨by decide, by decide, by decide⟩
  have hstep : ServeStep decodedOnly (homeServer [0x0A000064, 0x0A000065] Table.empty)
      (clientMsg .discover 1 none, .ok (some _)) _ :=
    ⟨Res.returns_ok _, serve_answer decodedOnly _ (clientMsg .discover 1 none) (guestMac 1) .offer rfl rfl rfl⟩
  have hcareful : Careful decodedOnly homeNet ⟨0x0A000064, 0x0A000065⟩ (homeServer [0x0A000064, 0x0A000065] Table.empty)
      (clientMsg .discover 1 none) := fun _ => ⟨nofun, fun _ => by decide⟩
  exact ⟨_, _, _, hstart, hend, rfl, .single hstep, rfl,
    ((leases_inside_iff decodedOnly 3 homeNet ⟨0x0A000064, 0x0A000065⟩ _ _ _ hstart hend (by decide) rfl
      (.single hstep)).2 (.single ⟨hstep, hcareful⟩)).1⟩

/-- **A client takes the router's address.**  On 10.0.0.1/24 with a pool from 10.0.0.100 to 10.0.0.101, a Discover
that asks for 10.0.0.1 is offered it. -/
theorem router_address_is_leased :
    ∃ s₀ s reply, Host homeNet 0x0A000064 ∧ Host homeNet 0x0A000065 ∧
      new 3 homeNet ⟨0x0A000064, 0x0A000065⟩ = some (.ok s₀ : Res Empty DhcpServer) ∧
      Run (ServeStep decodedOnly) s₀ [(clientMsg .discover 1 (some homeNet.ip), .ok (some reply))] s ∧
      reply.yiaddr = homeNet.ip ∧ s.leased.get homeNet.ip = some (guestMac 1) ∧
      ¬ LeasesInside homeNet ⟨0x0A000064, 0x0A000065⟩ s := by
  have hstep : ServeStep decodedOnly (homeServer [0x0A000064, 0x0A000065] Table.empty)
      (clientMsg .discover 1 (some homeNet.ip), .ok (some _)) _ :=
    ⟨Res.returns_ok _, serve_answer decodedOnly _ (clientMsg .discover 1 (some homeNet.ip)) (guestMac 1) .offer rfl
      rfl rfl⟩
  have hstart : Host homeNet 0x0A000064 := ⟨by decide, by decide, by decide⟩
  have hend : Host homeNet 0x0A000065 := ⟨by decide, by decide, by decide⟩
  refine ⟨_, _, _, hstart, hend, rfl, .single hstep, rfl, rfl, ?_⟩
  intro hin
  exact (hin homeNet.ip (guestMac 1) rfl).2.1 rfl

end DhcpServer
end Oathgate
