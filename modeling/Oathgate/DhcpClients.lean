import Oathgate.DhcpRun
/-!
# DhcpClients — what a client is answered and what it comes to hold (`oathgate-bridge`: `net/dhcp.rs`)

Discover and Request go through one choice of an address: the one in the option, when the client can have it, and the
next of the queue in every other case.  So an Ack can carry an address other than the one asked for, and a client that
holds an address is given another one unless it asks for its own.
-/
namespace Oathgate
namespace DhcpServer

open Lib Lease

/-! ## Acks -/

/-- The address a client asks for: the one in the option, or else its own. -/
def askedIp (msg : Message) : Option Ipv4Addr :=
  match getRequestedIp msg with
  | some ip => some ip
  | none => if msg.ciaddr = 0 then none else some msg.ciaddr

/-- An Ack to the message carries the address it asks for, if it asks for one. -/
def Confirms (api : Dhcproto) (s : DhcpServer) (msg : Message) : Prop :=
  ∀ reply ip, (s.serve api msg).1 = .ok (some reply) → reply.msgType = some .ack → askedIp msg = some ip →
    reply.yiaddr = ip

/-- What the server gives to a client: what it asks for, or the head of the queue. -/
theorem assign_eq_some {s : DhcpServer} {mac : MacAddress} {requested : Option Ipv4Addr} {ip : Ipv4Addr} :
    (s.assign mac requested).1 = some ip ↔
      AsksFor s mac requested ip ∨ ((¬ ∃ ip, AsksFor s mac requested ip) ∧ s.available.head? = some ip) := by
  by_cases h : ∃ ip, AsksFor s mac requested ip
  · obtain ⟨ria, hask⟩ := h
    rw [assign_asked hask]
    constructor
    · intro heq
      cases heq
      exact Or.inl hask
    · rintro (hask' | ⟨hno, -⟩)
      · rw [← hask.1.symm.trans hask'.1]
      · exact absurd ⟨ria, hask⟩ hno
  · rw [assign_unasked h]
    constructor
    · exact fun hhead => Or.inr ⟨h, hhead⟩
    · rintro (hask | ⟨-, hhead⟩)
      · exact absurd ⟨ip, hask⟩ h
      · exact hhead

theorem answerType_request {msg : Message} (hty : msg.msgType = some .request) : answerType msg = some .ack := by
  unfold answerType
  rw [hty]

theorem serve_request (api : Dhcproto) (s : DhcpServer) {msg : Message} {mac : MacAddress}
    (hty : msg.msgType = some .request) (hmac : From api msg mac) {ip : Ipv4Addr} :
    (∃ reply, (s.serve api msg).1 = .ok (some reply) ∧ reply.msgType = some .ack ∧ reply.yiaddr = ip) ↔
      (s.assign mac (getRequestedIp msg)).1 = some ip := by
  obtain ⟨addr, haddr, hparse⟩ := hmac
  rw [serve_answer api s msg mac .ack (answerType_request hty) haddr hparse]
  cases (s.assign mac (getRequestedIp msg)).1 with
  | none =>
    constructor
    · rintro ⟨reply, h, -⟩
      cases h
    · intro h
      cases h
  | some given =>
    constructor
    · rintro ⟨reply, h, -, rfl⟩
      cases h
      rw [yiaddr_replyMessage]
    · intro h
      cases h
      exact ⟨_, rfl, msgType_replyMessage api _ _ _ _ _, yiaddr_replyMessage api _ _ _ _ _⟩

theorem askedIp_of_requested {msg : Message} {ip : Ipv4Addr} (h : getRequestedIp msg = some ip) :
    askedIp msg = some ip := by
  unfold askedIp
  rw [h]

/-- The client can have what its option asks for. -/
theorem asksFor_of_from {api : Dhcproto} {s : DhcpServer} {msg : Message} {mac : MacAddress} {ip : Ipv4Addr}
    (hmac : From api msg mac) :
    AsksFor s mac (getRequestedIp msg) ip ↔
      getRequestedIp msg = some ip ∧ ∀ m, s.leased.get ip = some m → From api msg m := by
  refine and_congr_right fun _ => forall_congr' fun m => imp_congr_right fun _ => ?_
  constructor
  · rintro rfl
    exact hmac
  · exact fun h => hmac.unique h

/-- **An Ack confirms the address asked for exactly when the choice cannot fall on another.**  Either the message has no
hardware address of six bytes or more, because `hlen` is less or more than the field holds, or the address is in the
option and no other client holds it, or there is no next address in the queue but that one. -/
theorem ack_confirms_iff (api : Dhcproto) (s : DhcpServer) (msg : Message) (hty : msg.msgType = some .request) :
    Confirms api s msg ↔ ∀ ip, askedIp msg = some ip →
      (∀ addr, api.chaddr msg = .ok addr → addr.length < 6) ∨
        (getRequestedIp msg = some ip ∧ ∀ m, s.leased.get ip = some m → From api msg m) ∨
        ∀ next, s.available.head? = some next → next = ip := by
  by_cases hclient : ∃ mac, From api msg mac
  · obtain ⟨mac, hmac⟩ := hclient
    obtain ⟨addr, haddr, hlong⟩ := from_iff_length.1 ⟨mac, hmac⟩
    constructor
    · intro hconf ip hasked
      refine Or.inr ?_
      by_cases hcan : ∃ ria, AsksFor s mac (getRequestedIp msg) ria
      · obtain ⟨ria, hask⟩ := hcan
        have hsame : ria = ip := Option.some.inj ((askedIp_of_requested hask.1).symm.trans hasked)
        rw [hsame, asksFor_of_from hmac] at hask
        exact Or.inl hask
      · refine Or.inr fun next hnext => ?_
        obtain ⟨reply, hreply, hack, hy⟩ :=
          (serve_request api s hty hmac).2 (assign_eq_some.2 (Or.inr ⟨hcan, hnext⟩))
        exact hy.symm.trans (hconf reply ip hreply hack hasked)
    · intro hcond reply ip hreply hack hasked
      have hgiven := (serve_request api s hty hmac).1 ⟨reply, hreply, hack, rfl⟩
      rcases assign_eq_some.1 hgiven with hask | ⟨hno, hhead⟩
      · exact Option.some.inj ((askedIp_of_requested hask.1).symm.trans hasked)
      · rcases hcond ip hasked with h | h | h
        · exact absurd (h addr haddr) (by omega)
        · exact absurd ⟨ip, (asksFor_of_from hmac).2 h⟩ hno
        · exact h _ hhead
  · refine iff_of_true ?_ fun _ _ => Or.inl fun addr haddr => ?_
    · intro reply ip hreply
      obtain ⟨p, hp⟩ := serve_panic api s msg .ack (answerType_request hty) hclient
      rw [hp] at hreply
      cases hreply
    · exact Nat.lt_of_not_le fun hlong => hclient (from_iff_length.2 ⟨addr, haddr, hlong⟩)

/-- A Request of a client that renews the address it holds. -/
def renewal (b : Byte) (ip : Ipv4Addr) : Message := { clientMsg .request b none with ciaddr := ip }

theorem ack_confirms_of_option :
    Confirms decodedOnly (homeServer [0x0A000065] (Table.empty.insert 0x0A000064 (guestMac 1)))
      (clientMsg .request 1 (some 0x0A000064)) := by
  refine (ack_confirms_iff decodedOnly _ _ rfl).2 fun ip hasked => Or.inr (Or.inl ?_)
  cases hasked
  refine ⟨rfl, fun m hm => ?_⟩
  rw [show (homeServer [0x0A000065] (Table.empty.insert 0x0A000064 (guestMac 1))).leased.get 0x0A000064 =
    some (guestMac 1) from rfl, Option.some.injEq] at hm
  rw [← hm]
  exact ⟨_, rfl, rfl⟩

/-- **A renewal is acknowledged with another address**: the Ack repeats the client's own and gives it the next one. -/
theorem renewal_moves_client :
    ∃ reply, ((homeServer [0x0A000065] (Table.empty.insert 0x0A000064 (guestMac 1))).serve decodedOnly
        (renewal 1 0x0A000064)).1 = .ok (some reply) ∧ reply.msgType = some .ack ∧
      askedIp (renewal 1 0x0A000064) = some 0x0A000064 ∧ reply.ciaddr = 0x0A000064 ∧ reply.yiaddr = 0x0A000065 :=
  ⟨_, rfl, rfl, rfl, rfl, rfl⟩

/-! ## One lease for each client -/

/-- No client holds two addresses. -/
def OneLease (s : DhcpServer) : Prop := One s.leased

/-- **A message that adds no second lease** to its client: it holds nothing, or asks in the option for what it holds, or
nothing is left and it cannot have what it asks for. -/
def AddsNone (api : Dhcproto) (s : DhcpServer) (msg : Message) : Prop :=
  answerType msg = none ∨ ∀ mac, From api msg mac →
    (∀ ip, s.leased.get ip ≠ some mac) ∨
      (∃ ip, getRequestedIp msg = some ip ∧ s.leased.get ip = some mac) ∨
        (s.available = [] ∧ ¬ ∃ ip, AsksFor s mac (getRequestedIp msg) ip)

theorem addsNone_iff {api : Dhcproto} {s : DhcpServer} {msg : Message} {mac : MacAddress} (hty : answerType msg ≠ none)
    (hmac : From api msg mac) :
    s.AddsNone api msg ↔ (∀ ip, s.leased.get ip ≠ some mac) ∨
      (∃ ip, getRequestedIp msg = some ip ∧ s.leased.get ip = some mac) ∨
        (s.available = [] ∧ ¬ ∃ ip, AsksFor s mac (getRequestedIp msg) ip) := by
  constructor
  · rintro (h | h)
    · exact absurd h hty
    · exact h mac hmac
  · intro h
    refine Or.inr fun mac' hmac' => ?_
    rw [hmac.unique hmac']
    exact h

/-- What a client holds is among what it can ask for. -/
theorem asksFor_held {s : DhcpServer} {mac : MacAddress} {requested : Option Ipv4Addr} {ip : Ipv4Addr}
    (hreq : requested = some ip) (hheld : s.leased.get ip = some mac) : AsksFor s mac requested ip :=
  ⟨hreq, fun _ hm => Option.some.inj (hm.symm.trans hheld)⟩

/-- **One message keeps one lease for each client exactly when it adds no second one.** -/
theorem oneLease_step {api : Dhcproto} {pool : List Ipv4Addr} (hpool : pool.Nodup) {s s' : DhcpServer}
    {l : Message × Res ProtocolError (Option Message)} (hs : Conserves pool s) (h : ServeStep api s l s') :
    s'.OneLease ↔ s.OneLease ∧ s.AddsNone api l.1 := by
  obtain ⟨msg, r⟩ := l
  rcases serveStep_cases h with ⟨ty, mac, hty, hmac, rfl, -⟩ | ⟨hnone, rfl, -⟩
  · simp only [addsNone_iff (by rw [hty]; simp) hmac]
    rcases assign_cases pool hpool s hs mac (getRequestedIp msg) with
      ⟨ip, -, hask, hgrant, -⟩ | ⟨hno, ⟨ip, -, hhead, hgrant, -⟩ | ⟨-, hempty, hsame⟩⟩
    · -- it gets what it asks for: the only address it may hold
      refine (grant_one_iff hgrant).trans (and_congr_right fun hone => ?_)
      constructor
      · intro honly
        by_cases hheld : ∃ a, s.leased.get a = some mac
        · obtain ⟨a, ha⟩ := hheld
          have hsame : a = ip := honly a ha
          exact Or.inr (Or.inl ⟨ip, hask.1, hsame ▸ ha⟩)
        · exact Or.inl fun a ha => hheld ⟨a, ha⟩
      · rintro (hnone | ⟨a, hreq, ha⟩ | ⟨-, hno⟩) b hb
        · exact absurd hb (hnone b)
        · rw [Option.some.inj (hask.1.symm.trans hreq)]
          exact hone b a mac hb ha
        · exact absurd ⟨ip, hask⟩ hno
    · -- it gets a free address: it may hold none
      refine (grant_one_iff hgrant).trans (and_congr_right fun _ => ?_)
      have hfree : s.leased.get ip ≠ some mac := by
        have hqueued : ip ∈ s.available := List.mem_of_mem_head? hhead
        rw [show s.available = free pool s.leased from hs, mem_free] at hqueued
        rw [hqueued.2]
        exact fun h => by cases h
      constructor
      · refine fun honly => Or.inl fun a ha => ?_
        have hsame : a = ip := honly a ha
        exact hfree (hsame ▸ ha)
      · rintro (hnone | ⟨a, hreq, ha⟩ | ⟨hempty, -⟩) b hb
        · exact absurd hb (hnone b)
        · exact absurd ⟨a, asksFor_held hreq ha⟩ hno
        · rw [hempty] at hhead
          cases hhead
    · rw [hsame]
      exact (and_iff_left (Or.inr (Or.inr ⟨hempty, hno⟩))).symm
  · exact (and_iff_left (Or.inl hnone)).symm

/-- **Every client holds at most one address exactly as long as no message adds a second one.**  For every run of
messages from a new server. -/
theorem one_lease_iff (api : Dhcproto) (fuel : Nat) (network : Ipv4Network) (cfg : DhcpConfig) (s₀ s : DhcpServer)
    (ls : List (Message × Res ProtocolError (Option Message)))
    (hnew : new fuel network cfg = some (.ok s₀ : Res Empty DhcpServer)) (hrun : Run (ServeStep api) s₀ ls s) :
    s.OneLease ↔ ∀ ls₁ l ls₂ t, ls = ls₁ ++ l :: ls₂ → Run (ServeStep api) s₀ ls₁ t → t.AddsNone api l.1 := by
  have hpool := pool_nodup hnew
  have h₀ : s₀.OneLease := by
    intro ip ip' mac hip
    rw [(new_spec hnew).2.1] at hip
    cases hip
  refine Run.iff_all (C := fun t l => t.AddsNone api l.1) serveStep_deterministic h₀ ?_ hrun
  intro ls t l u hr hstep
  exact oneLease_step hpool (run_refines_grants hpool (conserves_new hnew) hr).1 hstep

theorem one_lease_of_discover :
    ∃ s₀ s r, new 3 homeNet ⟨0x0A000064, 0x0A000065⟩ = some (.ok s₀ : Res Empty DhcpServer) ∧
      Run (ServeStep decodedOnly) s₀ [(clientMsg .discover 1 none, r)] s ∧
      s.leased.get 0x0A000064 = some (guestMac 1) ∧ s.OneLease := by
  have hrun : Run (ServeStep decodedOnly) (homeServer [0x0A000064, 0x0A000065] Table.empty)
      [(clientMsg .discover 1 none, _)] (homeServer [0x0A000065] (Table.empty.insert 0x0A000064 (guestMac 1))) :=
    .single ⟨Res.returns_ok _, serve_answer decodedOnly _ (clientMsg .discover 1 none) (guestMac 1) .offer rfl rfl rfl⟩
  refine ⟨_, _, _, rfl, hrun, rfl, ?_⟩
  refine (one_lease_iff decodedOnly 3 homeNet ⟨0x0A000064, 0x0A000065⟩ _ _ _ rfl hrun).2 ?_
  rintro ls₁ l ls₂ t hsplit ht
  cases ls₁ with
  | nil =>
    cases hsplit
    rw [ht.eq_of_nil]
    exact Or.inr fun mac _ => Or.inl fun ip h => by cases h
  | cons x xs => simp at hsplit

/-- **A client that discovers twice holds the whole pool**, and the next client finds none left. -/
theorem second_discover_takes_all :
    ∃ s₀ s r₁ r₂, new 3 homeNet ⟨0x0A000064, 0x0A000065⟩ = some (.ok s₀ : Res Empty DhcpServer) ∧
      Run (ServeStep decodedOnly) s₀
        [(clientMsg .discover 1 none, .ok (some r₁)), (clientMsg .discover 1 none, .ok (some r₂))] s ∧
      s.leased.get 0x0A000064 = some (guestMac 1) ∧ s.leased.get 0x0A000065 = some (guestMac 1) ∧ ¬ s.OneLease ∧
      s.available = [] ∧
      (s.serve decodedOnly (clientMsg .discover 2 none)).1 = .err (.other "address space exhausted") := by
  let s₁ := homeServer [0x0A000065] (Table.empty.insert 0x0A000064 (guestMac 1))
  let s₂ := homeServer [] ((Table.empty.insert 0x0A000064 (guestMac 1)).insert 0x0A000065 (guestMac 1))
  have hfirst : Run (ServeStep decodedOnly) (homeServer [0x0A000064, 0x0A000065] Table.empty)
      [(clientMsg .discover 1 none, .ok (some _))] s₁ :=
    .single ⟨Res.returns_ok _, serve_answer decodedOnly _ (clientMsg .discover 1 none) (guestMac 1) .offer rfl rfl rfl⟩
  have hrun : Run (ServeStep decodedOnly) (homeServer [0x0A000064, 0x0A000065] Table.empty)
      [(clientMsg .discover 1 none, .ok (some _)), (clientMsg .discover 1 none, .ok (some _))] s₂ :=
    hfirst.snoc
      ⟨Res.returns_ok _, serve_answer decodedOnly s₁ (clientMsg .discover 1 none) (guestMac 1) .offer rfl rfl rfl⟩
  refine ⟨_, s₂, _, _, rfl, hrun, rfl, rfl, ?_, rfl, rfl⟩
  intro hone
  exact absurd (hone 0x0A000064 0x0A000065 (guestMac 1) rfl rfl) (by decide)

end DhcpServer
end Oathgate
