import Oathgate.DhcpPool
/-!
# DhcpRun — runs of the server over messages

`serve` answers one decoded message; a run is any sequence of messages of any clients.  On the lease map a run is a run
of grants (`run_refines_grants`), so that what was granted once stands for ever; with the pool's conservation this
gives what each client sees (`lease_agreement`).
-/
namespace Oathgate

open Lib Lease

namespace Message

theorem getOpt_insertOpt (m : Message) (opt : DhcpOption) (code : BitVec 8) :
    (m.insertOpt opt).getOpt code = if opt.code = code then some opt else m.getOpt code := by
  unfold getOpt insertOpt
  rw [List.find?_append]
  by_cases h : opt.code = code
  · subst h
    have hnone : (m.opts.filter (fun o => o.code != opt.code)).find? (fun o => o.code == opt.code) = none := by
      simp [List.find?_eq_none]
    rw [hnone]
    simp
  · rw [if_neg h]
    have hfind : (m.opts.filter (fun o => o.code != opt.code)).find? (fun o => o.code == code) =
        m.opts.find? (fun o => o.code == code) := by
      rw [List.find?_filter]
      congr 1
      funext o
      by_cases ho : o.code = code
      · simp [ho, Ne.symm h]
      · simp [ho]
    rw [hfind]
    simp [h]

theorem yiaddr_foldl_insertOpt : ∀ (opts : List DhcpOption) (m : Message), (opts.foldl insertOpt m).yiaddr = m.yiaddr
  | [], _ => rfl
  | opt :: opts, m => yiaddr_foldl_insertOpt opts (m.insertOpt opt)

end Message

namespace DhcpServer

variable (api : Dhcproto)

/-! ## One message -/

theorem buildMessage_eq {msg : Message} {addr : List Byte} (haddr : api.chaddr msg = .ok addr) (s : DhcpServer)
    (ip : Ipv4Network) (ty : MessageType) {ε : Type} :
    (s.buildMessage api msg ip ty : Res ε Message) = .ok (s.replyMessage api msg ip ty addr) := by
  unfold buildMessage
  rw [haddr]
  rfl

theorem yiaddr_replyMessage (s : DhcpServer) (msg : Message) (ip : Ipv4Network) (ty : MessageType)
    (addr : List Byte) : (s.replyMessage api msg ip ty addr).yiaddr = ip.ip := by
  unfold replyMessage
  rw [Message.yiaddr_foldl_insertOpt]
  by_cases hty : ty = .ack
  · simp only [if_pos hty]; rfl
  · simp only [if_neg hty]; rfl

theorem msgType_replyMessage (s : DhcpServer) (msg : Message) (ip : Ipv4Network) (ty : MessageType)
    (addr : List Byte) : (s.replyMessage api msg ip ty addr).msgType = some ty := by
  unfold replyMessage Message.msgType
  simp [Message.getOpt_insertOpt, DhcpOption.code]

/-- The messages the server leases an address for, and the type of its answer. -/
def answerType (msg : Message) : Option MessageType :=
  match msg.msgType with
  | some .discover => some .offer
  | some .request => some .ack
  | _ => none

/-- **A Discover or Request of a named client** is answered with the address `assign` chose, if any. -/
theorem serve_answer (s : DhcpServer) (msg : Message) {addr : List Byte} (mac : MacAddress) (ty : MessageType)
    (hty : answerType msg = some ty) (haddr : api.chaddr msg = .ok addr) (hmac : MacAddress.parse addr = .ok mac) :
    s.serve api msg =
      ((match (s.assign mac (getRequestedIp msg)).1 with
        | some ip => .ok (some ((s.assign mac (getRequestedIp msg)).2.replyMessage api msg
            ⟨ip, s.network.mask, s.network.prefix_mask⟩ ty addr))
        | none => .err (.other "address space exhausted")),
        (s.assign mac (getRequestedIp msg)).2) := by
  have hlease : ∀ ty, Res.andThen (s.handleLease api ty msg) (fun rmsg s => (.ok (some rmsg), s)) =
      ((match (s.assign mac (getRequestedIp msg)).1 with
        | some ip => .ok (some ((s.assign mac (getRequestedIp msg)).2.replyMessage api msg
            ⟨ip, s.network.mask, s.network.prefix_mask⟩ ty addr))
        | none => .err (.other "address space exhausted")),
        (s.assign mac (getRequestedIp msg)).2) := by
    intro ty
    unfold handleLease
    rw [leaseIp_eq s msg mac ⟨addr, haddr, hmac⟩]
    cases (s.assign mac (getRequestedIp msg)).1 with
    | none => rfl
    | some ip => simp only [Option.map_some, Res.andThen_ok, buildMessage_eq api haddr]
  unfold answerType at hty
  unfold serve
  split at hty
  · rename_i hd
    rw [hd]
    cases hty
    exact hlease .offer
  · rename_i hr
    rw [hr]
    cases hty
    exact hlease .ack
  · cases hty

theorem serve_panic (s : DhcpServer) (msg : Message) (ty : MessageType) (hty : answerType msg = some ty)
    (h : ¬ ∃ mac, From api msg mac) : ∃ p, s.serve api msg = (.panic p, s) := by
  obtain ⟨p, hp⟩ := leaseIp_panic (ε := ProtocolError) s msg h
  refine ⟨p, ?_⟩
  unfold answerType at hty
  unfold serve
  split at hty
  · rename_i hd
    rw [hd]
    simp only [handleDiscover, handleLease, hp, Res.andThen_panic]
  · rename_i hr
    rw [hr]
    simp only [handleRequest, handleLease, hp, Res.andThen_panic]
  · cases hty

theorem serve_other (s : DhcpServer) (msg : Message) (hty : answerType msg = none) :
    (s.serve api msg).2 = s ∧ (s.serve api msg).1.Returns ∧ ∀ reply, (s.serve api msg).1 ≠ .ok (some reply) := by
  unfold answerType at hty
  unfold serve
  split <;> simp_all

theorem serve_unanswered (s : DhcpServer) (msg : Message) (hty : msg.msgType ≠ none) (hother : answerType msg = none) :
    s.serve api msg = (.ok none, s) := by
  unfold answerType at hother
  unfold serve
  split at hother
  · cases hother
  · cases hother
  · rename_i hdiscover hrequest
    split
    · rename_i hnone
      exact absurd hnone hty
    · rename_i h
      exact absurd h hdiscover
    · rename_i h
      exact absurd h hrequest
    · rfl

/-- **A message the server decodes and does not answer** leaves the server and the buffer, and gives the length zero. -/
theorem handlePort_unanswered (s : DhcpServer) {data buf : List Byte} {msg : Message}
    (hdecode : api.decode data = .ok msg) (hty : msg.msgType ≠ none) (hother : answerType msg = none) :
    s.handlePort api data buf = (.ok 0, s, buf) := by
  have hcopy : (copyAt buf 0 0 [] : Res ProtocolError _) = .ok buf := by
    rw [copyAt_eq buf 0 0 [] (by omega) (by omega) rfl]
    rfl
  unfold handlePort
  simp only [hdecode, serve_unanswered api s msg hty hother, Option.elim, List.length_nil, hcopy]

/-! ## Runs -/

variable {api}

/-- A message and what the server answered; it came back to serve the next one. -/
def ServeStep (api : Dhcproto) (s : DhcpServer) (l : Message × Res ProtocolError (Option Message)) (s' : DhcpServer) :
    Prop :=
  l.2.Returns ∧ s.serve api l.1 = (l.2, s')

theorem serveStep_deterministic (s : DhcpServer) (l : Message × Res ProtocolError (Option Message))
    (t t' : DhcpServer) (h : ServeStep api s l t) (h' : ServeStep api s l t') : t = t' := by
  have hsame := h.2.symm.trans h'.2
  cases hsame
  rfl

/-- **Everything a message can do**: a Discover or Request leases the address it is answered with, or finds none left;
anything else is ignored. -/
theorem serveStep_cases {s s' : DhcpServer} {msg : Message} {r : Res ProtocolError (Option Message)}
    (h : ServeStep api s (msg, r) s') :
    (∃ ty mac, answerType msg = some ty ∧ From api msg mac ∧ s' = (s.assign mac (getRequestedIp msg)).2 ∧
      ((∃ reply, r = .ok (some reply) ∧ (s.assign mac (getRequestedIp msg)).1 = some reply.yiaddr) ∨
        ((∀ reply, r ≠ .ok (some reply)) ∧ (s.assign mac (getRequestedIp msg)).1 = none))) ∨
    (answerType msg = none ∧ s' = s ∧ ∀ reply, r ≠ .ok (some reply)) := by
  obtain ⟨hret, hserve⟩ := h
  simp only at hret hserve
  cases hty : answerType msg with
  | none =>
    obtain ⟨hsame, -, hno⟩ := serve_other api s msg hty
    rw [hserve] at hsame hno
    exact Or.inr ⟨rfl, hsame, hno⟩
  | some ty =>
    refine Or.inl ?_
    by_cases hclient : ∃ mac, From api msg mac
    · obtain ⟨mac, addr, haddr, hmac⟩ := hclient
      rw [serve_answer api s msg mac ty hty haddr hmac, Prod.mk.injEq] at hserve
      obtain ⟨hr, hs⟩ := hserve
      refine ⟨ty, mac, rfl, ⟨addr, haddr, hmac⟩, hs.symm, ?_⟩
      cases hip : (s.assign mac (getRequestedIp msg)).1 with
      | none =>
        rw [hip] at hr
        exact Or.inr ⟨by simp [← hr], rfl⟩
      | some ip =>
        rw [hip] at hr
        exact Or.inl ⟨_, hr.symm, by rw [yiaddr_replyMessage]⟩
    · obtain ⟨p, hp⟩ := serve_panic api s msg ty hty hclient
      rw [hp, Prod.mk.injEq] at hserve
      rw [← hserve.1] at hret
      exact absurd hret (Res.not_returns_panic _)

def grantOf (api : Dhcproto) (l : Message × Res ProtocolError (Option Message)) : Option (Ipv4Addr × MacAddress) :=
  match l.2, (clientMac api l.1 : Res ProtocolError MacAddress) with
  | .ok (some reply), .ok mac => some (reply.yiaddr, mac)
  | _, _ => none

theorem grantOf_reply {msg reply : Message} {mac : MacAddress} (h : From api msg mac) :
    grantOf api (msg, .ok (some reply)) = some (reply.yiaddr, mac) := by
  unfold grantOf
  rw [clientMac_eq_ok.2 h]

theorem grantOf_none {msg : Message} {r : Res ProtocolError (Option Message)} (h : ∀ reply, r ≠ .ok (some reply)) :
    grantOf api (msg, r) = none := by
  unfold grantOf
  split
  · rename_i reply _ hr _
    exact absurd hr (h reply)
  · rfl

/-- **One message is at most one grant**, the one its answer announces. -/
theorem serveStep_refines_grant {pool : List Ipv4Addr} (hpool : pool.Nodup) {s s' : DhcpServer}
    {l : Message × Res ProtocolError (Option Message)} (hs : Conserves pool s) (h : ServeStep api s l s') :
    Conserves pool s' ∧ Run Grant s.leased (grantOf api l).toList s'.leased := by
  obtain ⟨msg, r⟩ := l
  rcases serveStep_cases h with ⟨ty, mac, -, hmac, rfl, hr⟩ | ⟨-, rfl, hno⟩
  · refine ⟨conserves_assign pool hpool s hs mac _, ?_⟩
    rcases assign_cases pool hpool s hs mac (getRequestedIp msg) with
      ⟨ip, hip, -, hgrant, -⟩ | ⟨-, ⟨ip, hip, -, hgrant, -⟩ | ⟨hip, -, hsame⟩⟩ <;>
      rcases hr with ⟨reply, rfl, hy⟩ | ⟨hno, hy⟩ <;> rw [hip] at hy <;> cases hy
    · rw [grantOf_reply hmac]
      exact .single hgrant
    · rw [grantOf_reply hmac]
      exact .single hgrant
    · rw [grantOf_none hno, hsame]
      exact .nil
  · rw [grantOf_none hno]
    exact ⟨hs, .nil⟩

/-- **A run of messages is a run of grants on the lease map**, those its answers announce. -/
theorem run_refines_grants {pool : List Ipv4Addr} (hpool : pool.Nodup) {s₀ s : DhcpServer}
    {ls : List (Message × Res ProtocolError (Option Message))} (h₀ : Conserves pool s₀)
    (h : Run (ServeStep api) s₀ ls s) :
    Conserves pool s ∧ Run Grant s₀.leased (ls.filterMap (grantOf api)) s.leased := by
  refine Run.invariant (I := fun ls s => Conserves pool s ∧ Run Grant s₀.leased (ls.filterMap (grantOf api)) s.leased)
    ⟨h₀, .nil⟩ ?_ h
  rintro ls t l u - ⟨hc, hr⟩ hstep
  obtain ⟨hc', hr'⟩ := serveStep_refines_grant hpool hc hstep
  refine ⟨hc', ?_⟩
  have hlast : [l].filterMap (grantOf api) = (grantOf api l).toList := by
    cases hg : grantOf api l <;> simp [hg]
  rw [List.filterMap_append, hlast]
  exact hr.append hr'

theorem answer_stands {pool : List Ipv4Addr} (hpool : pool.Nodup) {s₀ s : DhcpServer}
    {ls : List (Message × Res ProtocolError (Option Message))} (h₀ : Conserves pool s₀)
    (h : Run (ServeStep api) s₀ ls s) {msg reply : Message} {mac : MacAddress} (hmem : (msg, .ok (some reply)) ∈ ls)
    (hmac : From api msg mac) : s.leased.get reply.yiaddr = some mac :=
  run_stands (run_refines_grants hpool h₀ h).2 _ (List.mem_filterMap.2 ⟨_, hmem, grantOf_reply hmac⟩)

theorem answer_from {s₀ s : DhcpServer} {ls : List (Message × Res ProtocolError (Option Message))}
    (h : Run (ServeStep api) s₀ ls s) {msg reply : Message} (hmem : (msg, .ok (some reply)) ∈ ls) :
    ∃ mac, From api msg mac := by
  obtain ⟨ls₁, ls₂, rfl⟩ := List.append_of_mem hmem
  rw [List.append_cons] at h
  obtain ⟨t, h₁, -⟩ := Run.split _ h
  obtain ⟨u, -, hstep⟩ := h₁.unsnoc
  rcases serveStep_cases hstep with ⟨-, mac, -, hmac, -⟩ | ⟨-, -, hno⟩
  · exact ⟨mac, hmac⟩
  · exact absurd rfl (hno reply)

theorem serve_renewal (s : DhcpServer) {msg : Message} {mac : MacAddress} {ty : MessageType} {ip : Ipv4Addr}
    (hty : answerType msg = some ty) (hmac : From api msg mac) (hreq : getRequestedIp msg = some ip)
    (hheld : s.leased.get ip = some mac) :
    ∃ reply, (s.serve api msg).1 = .ok (some reply) ∧ reply.yiaddr = ip ∧ reply.msgType = some ty := by
  have hassign : (s.assign mac (getRequestedIp msg)).1 = some ip := by
    unfold assign chooseIp
    rw [hreq]
    simp [hheld]
  obtain ⟨addr, haddr, hparse⟩ := hmac
  rw [serve_answer api s msg mac ty hty haddr hparse, hassign]
  exact ⟨_, rfl, yiaddr_replyMessage api _ _ _ _ _, msgType_replyMessage api _ _ _ _ _⟩

/-- **Leases are agreed on.**  Once an address was offered or acknowledged to a client, the lease map holds it for that
client in every later state, no answer carries it to another client, and every later Discover or Request of the client
for it is offered or acknowledged with it. -/
theorem lease_agreement (api : Dhcproto) (fuel : Nat) (network : Ipv4Network) (cfg : DhcpConfig) (s₀ s : DhcpServer)
    (ls : List (Message × Res ProtocolError (Option Message)))
    (hnew : new fuel network cfg = some (.ok s₀ : Res Empty DhcpServer)) (hrun : Run (ServeStep api) s₀ ls s)
    (msg reply : Message) (mac : MacAddress) (hmem : (msg, .ok (some reply)) ∈ ls) (hmac : From api msg mac) :
    s.leased.get reply.yiaddr = some mac ∧
    (∀ msg' reply' mac', (msg', .ok (some reply')) ∈ ls → From api msg' mac' → reply'.yiaddr = reply.yiaddr →
      mac' = mac) ∧
    ∀ msg' ty, From api msg' mac → answerType msg' = some ty → getRequestedIp msg' = some reply.yiaddr →
      ∃ reply', (s.serve api msg').1 = .ok (some reply') ∧ reply'.yiaddr = reply.yiaddr ∧ reply'.msgType = some ty := by
  have hpool := pool_nodup hnew
  have h₀ := conserves_new hnew
  have hheld := answer_stands hpool h₀ hrun hmem hmac
  refine ⟨hheld, ?_, ?_⟩
  · intro msg' reply' mac' hmem' hmac' hsame
    have hheld' := answer_stands hpool h₀ hrun hmem' hmac'
    rw [hsame, hheld] at hheld'
    cases hheld'
    rfl
  · intro msg' ty hmac' hty hreq
    exact serve_renewal s hty hmac' hreq hheld

theorem lease_agreement_of_rivals :
    ∃ s₀ s r₁ r₂, new 3 homeNet ⟨0x0A000064, 0x0A000065⟩ = some (.ok s₀ : Res Empty DhcpServer) ∧
      Run (ServeStep decodedOnly) s₀
        [(clientMsg .discover 1 none, .ok (some r₁)), (clientMsg .discover 2 (some 0x0A000064), .ok (some r₂))] s ∧
      r₁.yiaddr = 0x0A000064 ∧ r₂.yiaddr = 0x0A000065 ∧ s.leased.get r₁.yiaddr = some (guestMac 1) := by
  let s₁ := homeServer [0x0A000065] (Table.empty.insert 0x0A000064 (guestMac 1))
  let s₂ := homeServer [] ((Table.empty.insert 0x0A000064 (guestMac 1)).insert 0x0A000065 (guestMac 2))
  let r₁ := s₁.replyMessage decodedOnly (clientMsg .discover 1 none)
    ⟨0x0A000064, homeNet.mask, homeNet.prefix_mask⟩ .offer (guestMac 1).octets
  let r₂ := s₂.replyMessage decodedOnly (clientMsg .discover 2 (some 0x0A000064))
    ⟨0x0A000065, homeNet.mask, homeNet.prefix_mask⟩ .offer (guestMac 2).octets
  have hrun : Run (ServeStep decodedOnly) (homeServer [0x0A000064, 0x0A000065] Table.empty)
      [(clientMsg .discover 1 none, .ok (some r₁)), (clientMsg .discover 2 (some 0x0A000064), .ok (some r₂))] s₂ :=
    .snoc (.single (t := s₁) ⟨Res.returns_ok _, serve_answer decodedOnly _ _ (guestMac 1) .offer rfl rfl rfl⟩)
      ⟨Res.returns_ok _, serve_answer decodedOnly _ _ (guestMac 2) .offer rfl rfl rfl⟩
  refine ⟨_, s₂, r₁, r₂, rfl, hrun, rfl, rfl, ?_⟩
  exact (lease_agreement decodedOnly 3 homeNet ⟨0x0A000064, 0x0A000065⟩ _ _ _ rfl hrun (clientMsg .discover 1 none) r₁
    (guestMac 1) List.mem_cons_self ⟨_, rfl, rfl⟩).1

end DhcpServer
end Oathgate
