import Oathgate.SwitchOrder
/-!
# SwitchReach — which frames are sure to arrive (`oathgate-bridge`: `net/switch.rs`, `process`)

A lookup finds the ports of a frame while other threads learn.  It finds every port for a broadcast, and the right one
for an address that stays where it is; from then on no frame to it is dropped (`framesTo_step`).
-/
namespace Oathgate

open Lib

namespace VirtioSwitch

namespace Traffic

open Threads (Event)

/-- **The address stays with the port**: it was learned, and no other port's thread sends from it. -/
structure Stays (t : Traffic) (es : List Event) (mac : MacAddress) (q : Nat) : Prop where
  learned : t.threads.switch.getPort mac = some q
  held : ∀ p, p ≠ q → ∀ pkt, (t.threads.pc p).frame = some pkt → pkt.frame.src ≠ mac
  sent : ∀ p, p ≠ q → ∀ pkt ∈ given es p, pkt.frame.src ≠ mac

/-- **Frames from this port to this address go to that port**, whenever they are looked up. -/
def Bound (t : Traffic) (es : List Event) (p q : Nat) (mac : MacAddress) : Prop :=
  q < t.threads.switch.ports.length ∧
    (mac = MacAddress.broadcast ∧ p ≠ q ∨ mac ≠ MacAddress.broadcast ∧ Stays t es mac q)

theorem Bound.mem_targets {t : Traffic} {es : List Event} {p q : Nat} {mac : MacAddress} (h : Bound t es p q mac)
    {pkt : EthernetPacket} (hpkt : pkt.frame.dst = mac) : q ∈ t.threads.switch.targets p pkt := by
  obtain ⟨hq, ⟨hbcast, hpq⟩ | ⟨hbcast, hstays⟩⟩ := h
  · have hdst : pkt.frame.dst.isBroadcast = true := by
      rw [hpkt, hbcast]
      rfl
    unfold targets others
    rw [if_pos hdst]
    simp [hq, Ne.symm hpq]
  · have hdst : ¬ pkt.frame.dst.isBroadcast = true := by
      rw [hpkt]
      simpa [MacAddress.isBroadcast] using hbcast
    unfold targets
    rw [if_neg hdst, hpkt, hstays.learned]
    simp [hq]

/-- The table keeps an address whose frames no other thread sends. -/
theorem getPort_advance {t : Traffic} {mac : MacAddress} {p q : Nat} (hport : t.threads.switch.getPort mac = some q)
    (hheld : p ≠ q → ∀ pkt, (t.threads.pc p).frame = some pkt → pkt.frame.src ≠ mac) :
    (t.threads.switch.advance p (t.threads.pc p)).1.getPort mac = some q := by
  cases hpc : t.threads.pc p with
  | write pkt =>
    rw [hpc] at hheld
    show (t.threads.switch.cache.insert pkt.frame.src p).get mac = some q
    by_cases hmac : mac = pkt.frame.src
    · have hp : p = q := by
        by_contra hne
        exact hheld hne pkt rfl hmac.symm
      rw [hmac, Table.get_insert_self, hp]
    · rw [Table.get_insert_of_ne _ _ hmac]
      exact hport
  | send pkt targets =>
    cases targets with
    | nil => exact hport
    | cons r rs => exact hport
  | _ => exact hport

theorem frame_advance (s : VirtioSwitch) (p : Nat) (pc : Pc) {pkt : EthernetPacket}
    (h : (s.advance p pc).2.frame = some pkt) : pc.frame = some pkt := by
  cases pc with
  | idle => cases h
  | read pkt' =>
    simp only [advance] at h
    split at h <;> exact h
  | send pkt' targets =>
    cases targets with
    | nil => cases h
    | cons r rs => exact h
  | _ => exact h

theorem stays_step {t t' : Traffic} {e : Event} {es : List Event} {mac : MacAddress} {q : Nat}
    (h : Stays t (e :: es) mac q) (hstep : Step t e t') : Stays t' es mac q := by
  have hmem : ∀ p pkt, pkt ∈ given [e] p → pkt ∈ given (e :: es) p := by
    intro p pkt hpkt
    rw [show e :: es = [e] ++ es from rfl, given_append]
    exact List.mem_append_left _ hpkt
  have hsent : ∀ p, p ≠ q → ∀ pkt ∈ given es p, pkt.frame.src ≠ mac := by
    intro p hp pkt hpkt
    refine h.sent p hp pkt ?_
    rw [show e :: es = [e] ++ es from rfl, given_append]
    exact List.mem_append_right _ hpkt
  obtain ⟨hthreads, -⟩ := hstep
  cases e with
  | connect dev =>
    obtain ⟨-, hσ⟩ := hthreads
    refine ⟨?_, ?_, hsent⟩
    · rw [hσ]
      exact h.learned
    · rw [hσ]
      exact h.held
  | call p' bytes =>
    obtain ⟨-, -, hσ⟩ := hthreads
    refine ⟨?_, ?_, hsent⟩
    · rw [hσ]
      exact h.learned
    · intro p hp pkt hpc
      rw [hσ] at hpc
      by_cases hpp : p = p'
      · subst hpp
        simp only [Function.update_self, frame_enter] at hpc
        refine h.sent p hp pkt (hmem p pkt ?_)
        rw [given_singleton]
        refine List.mem_filterMap.2 ⟨bytes, ?_, hpc⟩
        simp [Event.calls, Run.callsOf_singleton]
      · simp only [Function.update_of_ne hpp] at hpc
        exact h.held p hp pkt hpc
  | step p' =>
    obtain ⟨-, hσ⟩ := hthreads
    refine ⟨?_, ?_, hsent⟩
    · rw [hσ]
      exact getPort_advance h.learned (h.held p')
    · intro p hp pkt hpc
      rw [hσ] at hpc
      by_cases hpp : p = p'
      · subst hpp
        simp only [Function.update_self] at hpc
        exact h.held p hp pkt (frame_advance _ _ _ hpc)
      · simp only [Function.update_of_ne hpp] at hpc
        exact h.held p hp pkt hpc

theorem bound_step {t t' : Traffic} {e : Event} {es : List Event} {p q : Nat} {mac : MacAddress}
    (h : Bound t (e :: es) p q mac) (hstep : Step t e t') : Bound t' es p q mac := by
  obtain ⟨hq, hway⟩ := h
  refine ⟨Nat.lt_of_lt_of_le hq (length_ports_step hstep), ?_⟩
  rcases hway with hbcast | ⟨hbcast, hstays⟩
  · exact Or.inl hbcast
  · exact Or.inr ⟨hbcast, stays_step hstays hstep⟩

/-- The frames among these to an address. -/
def framesTo (mac : MacAddress) (pkts : List EthernetPacket) : List EthernetPacket :=
  pkts.filter fun pkt => decide (pkt.frame.dst = mac)

theorem framesTo_append (mac : MacAddress) (pkts pkts' : List EthernetPacket) :
    framesTo mac (pkts ++ pkts') = framesTo mac pkts ++ framesTo mac pkts' := List.filter_append _ _

/-- **No frame to the address is dropped by a step.** -/
theorem framesTo_step {t t' : Traffic} {e : Event} {es : List Event} {p q : Nat} {mac : MacAddress} (haimed : Aimed t)
    (h : Bound t (e :: es) p q mac) (hstep : Step t e t') :
    framesTo mac (t'.passed p q) = framesTo mac (t.passed p q) ++ framesTo mac (given [e] p) := by
  rw [← framesTo_append]
  rcases step_passes haimed hstep p q with hpassed | ⟨pkt, -, hout, hnone, hgone⟩
  · rw [hpassed]
  · have hother : pkt.frame.dst ≠ mac := fun hdst => hout (h.mem_targets hdst)
    have hdrop : framesTo mac [pkt] = [] := by
      unfold framesTo
      simp [hother]
    rw [hnone, List.append_nil, ← hgone, framesTo_append, hdrop, List.append_nil]

theorem framesTo_run : ∀ {es : List Event} {t₀ t : Traffic} {p q : Nat} {mac : MacAddress}, Aimed t₀ →
    Bound t₀ es p q mac → Run Step t₀ es t →
      framesTo mac (t.passed p q) = framesTo mac (t₀.passed p q) ++ framesTo mac (given es p)
  | [], t₀, t, p, q, mac, _, _, hrun => by
    rw [hrun.eq_of_nil]
    exact (List.append_nil _).symm
  | e :: es, t₀, t, p, q, mac, haimed, hbound, hrun => by
    obtain ⟨t₁, hstep, hrest⟩ := hrun.uncons
    rw [framesTo_run (aimed_step haimed hstep) (bound_step hbound hstep) hrest, framesTo_step haimed hbound hstep,
      List.append_assoc, ← framesTo_append, ← given_append]
    rfl

/-- **Frames for a port arrive there, all of them.**  From any reachable state on, however the threads interleave:
between two moments at which a port's thread is not in a call, another port has received of its frames to an address
exactly those it sent in between, in order and each once, when the address is the broadcast address, or is known to be
the other port's and no other thread sends from it. -/
theorem frames_reach_port {es₀ es : List Event} {t₀ t : Traffic} (h₀ : Run Step init es₀ t₀) (hrun : Run Step t₀ es t)
    {p q : Nat} {mac : MacAddress} (hbound : Bound t₀ es p q mac) (hidle₀ : t₀.threads.pc p = .idle)
    (hidle : t.threads.pc p = .idle) :
    framesTo mac (Run.callsOf p (t.arrivals q)) =
      framesTo mac (Run.callsOf p (t₀.arrivals q)) ++ framesTo mac (given es p) := by
  have hall := framesTo_run (inOrder_run h₀).aimed hbound hrun
  unfold passed at hall
  rw [hidle₀, hidle] at hall
  simpa [Pc.coming] using hall

theorem frames_reach_port_of_announcement : ∃ t, Run Step init [.connect [], .connect []] twoPorts ∧
    Run Step twoPorts announcement t ∧
    framesTo MacAddress.broadcast (Run.callsOf 0 (t.arrivals 1)) = [announced] := by
  have h₀ : Run Step init [.connect [], .connect []] twoPorts :=
    .cons (step_connect fun _ => rfl) <| .cons (step_connect fun _ => rfl) .nil
  have hrun : Run Step twoPorts announcement _ :=
    .cons (step_call (by decide) rfl) <| .cons (step_thread nofun) <| .cons (step_thread nofun) <|
    .cons (step_thread nofun) <| .cons (step_thread nofun) <| .cons (step_thread nofun) <|
    .cons (step_thread nofun) .nil
  have hall := frames_reach_port h₀ hrun (p := 0) (q := 1) ⟨by decide, Or.inl ⟨rfl, by decide⟩⟩ rfl rfl
  exact ⟨_, h₀, hrun, hall.trans rfl⟩

end Traffic

end VirtioSwitch
end Oathgate
