import Oathgate.VhostEnable
import Oathgate.VhostReply
/-!
# VhostKick — which ring a kick serves (`oathgate-vhost`: `device.rs`, `kick_fds`)

`SET_VRING_KICK` files a descriptor under its ring, in the direction the parity of the ring's index says.  The table is
a log of these messages, and so a frame crosses a ring one way only, and only when the last message that named the
descriptor named that ring (`frames_cross_one_way`).
-/
namespace Oathgate

open Lib

variable {Q S G C R W E : Type}

namespace ControlServer

theorem kicks_foldl_next (hdrs : List VHostHeader) (server : ControlServer) : (hdrs.foldl next server).kicks =
    hdrs.foldl (Table.record VHostHeader.kickFd VHostHeader.kickEntry) server.kicks := by
  induction hdrs generalizing server with
  | nil => rfl
  | cons hdr hdrs ih => exact ih (server.next hdr)

end ControlServer

/-- The last message that named a descriptor named this ring. -/
def KickedBy (hdrs : List VHostHeader) (fd ring : Nat) : Prop :=
  ∃ hdr, LastWith (fun hdr : VHostHeader => hdr.kickFd = some fd) hdrs hdr ∧ hdr.kickRing = some ring

theorem VHostHeader.kickRing_of_kickFd {hdr : VHostHeader} {fd : Nat} (h : hdr.kickFd = some fd) :
    ∃ ring, hdr.kickRing = some ring := by
  unfold kickFd at h
  split at h
  · rename_i ring _ hring _
    exact ⟨ring, hring⟩
  · cases h

/-- **The entry of a descriptor** is the ring of the last message that named it, in the direction of its parity. -/
theorem kickedBy_of_get {hdrs : List VHostHeader} {token : Nat} {kick : KickFd}
    (h : (hdrs.foldl (Table.record VHostHeader.kickFd VHostHeader.kickEntry) Table.empty).get token = some kick) :
    ∃ ring, KickedBy hdrs token ring ∧ kick = if ring % 2 = 0 then .rx token ring else .tx token ring := by
  rw [Table.get_foldl_record] at h
  obtain ⟨hdr, hlast, rfl⟩ := h
  have hfd : hdr.kickFd = some token := by
    obtain ⟨_, _, _, hfd, _⟩ := hlast
    exact hfd
  obtain ⟨ring, hring⟩ := hdr.kickRing_of_kickFd hfd
  refine ⟨ring, ⟨hdr, hlast, hring⟩, ?_⟩
  unfold VHostHeader.kickEntry
  rw [hring, hfd]
  rfl

namespace Machine

open VirtQueue

variable {sys : VhostSystem Q S E} {lib : Option (List GuestRegion) → VirtioQueue Q G C R W E}

/-- Frames are only written into the ring. -/
theorem handed_serveRx {idx : Nat}
    {call : VirtioQueue Q G C R W E → Rx Q G C W → Option (Res (VhostError E) Unit × Rx Q G C W)}
    {m m' : Machine Q S G} {r : Res (DeviceError E) Unit} {served : Served C}
    (h : m.serveRx lib idx call = some (r, m', served)) :
    served.handed = [] ∧ (served.written ≠ [] → served.ring = idx) := by
  unfold serveRx at h
  split at h
  · cases h
    exact ⟨rfl, fun hne => absurd rfl hne⟩
  · rw [Option.map_eq_some_iff] at h
    obtain ⟨⟨r₁, rx⟩, -, h⟩ := h
    cases h
    exact ⟨rfl, fun _ => rfl⟩

/-- Frames are only taken from the ring. -/
theorem written_serveTx {fuel idx : Nat} {pkt : List Byte} {m m' : Machine Q S G} {r : Res (DeviceError E) Unit}
    {served : Served C} (h : m.serveTx lib fuel idx pkt = some (r, m', served)) :
    served.written = [] ∧ (served.handed ≠ [] → served.ring = idx) := by
  unfold serveTx at h
  split at h
  · cases h
    exact ⟨rfl, fun hne => absurd rfl hne⟩
  · rw [Option.map_eq_some_iff] at h
    obtain ⟨⟨r₁, tx⟩, -, h⟩ := h
    cases h
    split
    · exact ⟨rfl, fun _ => rfl⟩
    · exact ⟨rfl, fun hne => absurd rfl hne⟩

/-- **Frames cross a ring one way, and for the descriptor of that ring.**  Over a run and one more event, which may be
the one that ends it: the event writes frames only into a ring with an even index and hands over frames only of a ring
with an odd one, never both; and unless it is the wake event, which is about ring 0, it is a kick of a descriptor which
the last `SET_VRING_KICK` that named it gave to this very ring. -/
theorem frames_cross_one_way {deviceQueues : BitVec 8} {switch : VirtioSwitch} {s : S} {guest : G}
    {m₀ m m' : Machine Q S G} {ms : List (Event G × Served C)} {l : Event G × Served C}
    (hnew : Machine.new sys deviceQueues switch s guest = .ok m₀) (hrun : Run (Step sys lib) m₀ ms m)
    (hlast : Occurs sys lib m l m') :
    (l.2.written ≠ [] → l.2.handed = [] ∧ l.2.ring % 2 = 0) ∧
    (l.2.handed ≠ [] → l.2.written = [] ∧ l.2.ring % 2 = 1) ∧
    (l.2.written ≠ [] ∨ l.2.handed ≠ [] → (l.1 = .wake ∧ l.2.ring = 0) ∨
      ∃ token pkt, l.1 = .kick token pkt ∧ KickedBy (Link.messages ms) token l.2.ring) := by
  obtain ⟨fuel, r, hexec⟩ := hlast
  obtain ⟨e, served⟩ := l
  have hnothing : served = .nothing → (served.written ≠ [] → served.handed = [] ∧ served.ring % 2 = 0) ∧
      (served.handed ≠ [] → served.written = [] ∧ served.ring % 2 = 1) ∧
      (served.written ≠ [] ∨ served.handed ≠ [] → (e = .wake ∧ served.ring = 0) ∨
        ∃ token pkt, e = .kick token pkt ∧ KickedBy (Link.messages ms) token served.ring) := by
    rintro rfl
    simp [Served.nothing]
  cases e with
  | enqueue frame pkt =>
    cases hexec
    exact hnothing rfl
  | others switch =>
    cases hexec
    exact hnothing rfl
  | driver guest =>
    cases hexec
    exact hnothing rfl
  | message hdr =>
    cases hexec
    exact hnothing rfl
  | wake =>
    rw [exec_wake] at hexec
    obtain ⟨hhanded, hring⟩ := handed_serveRx hexec
    refine ⟨fun hne => ⟨hhanded, by rw [hring hne]⟩, fun hne => absurd hhanded hne, ?_⟩
    rintro (hne | hne)
    · exact Or.inl ⟨rfl, hring hne⟩
    · exact absurd hhanded hne
  | kick token pkt =>
    simp only [exec] at hexec
    -- the table is a log of the messages
    have hkicks : m.dev.kickFds = (Link.messages ms).foldl (Table.record VHostHeader.kickFd VHostHeader.kickEntry)
        Table.empty := by
      have hserver := (Link.server_run hrun).2
      rw [(Link.server_new hnew).1] at hserver
      exact (congrArg ControlServer.kicks hserver).trans (ControlServer.kicks_foldl_next _ _)
    cases hget : m.dev.kickFds.get token with
    | none =>
      rw [hget] at hexec
      cases hexec
      exact hnothing rfl
    | some kick =>
      have hlog := hget
      rw [hkicks] at hlog
      obtain ⟨ring, hby, hkick⟩ := kickedBy_of_get hlog
      rw [hget] at hexec
      by_cases heven : ring % 2 = 0
      · rw [if_pos heven] at hkick
        subst hkick
        obtain ⟨hhanded, hring⟩ := handed_serveRx hexec
        refine ⟨fun hne => ⟨hhanded, by rw [hring hne]; exact heven⟩, fun hne => absurd hhanded hne, ?_⟩
        rintro (hne | hne)
        · exact Or.inr ⟨token, pkt, rfl, by rw [hring hne]; exact hby⟩
        · exact absurd hhanded hne
      · rw [if_neg heven] at hkick
        subst hkick
        obtain ⟨hwritten, hring⟩ := written_serveTx hexec
        refine ⟨fun hne => absurd hwritten hne, fun hne => ⟨hwritten, by rw [hring hne]; omega⟩, ?_⟩
        rintro (hne | hne)
        · exact absurd hwritten hne
        · exact Or.inr ⟨token, pkt, rfl, by rw [hring hne]; exact hby⟩

open Device in
/-- Ring 0 is started with the descriptor 7, a frame comes in, and the descriptor is kicked. -/
theorem frames_cross_one_way_of_kick : ∃ served : Served RingChain, served.written = [⟨guestFrame, [7]⟩] ∧
    served.ring % 2 = 0 ∧ KickedBy (Link.messages [control (tableMsg lowRegion), control (kickMsg 0 7), frameComes]) 7
      served.ring := by
  obtain ⟨m', served, hwritten, hlast⟩ : ∃ (m' : Machine _ _ _) (served : Served RingChain),
      served.written = [⟨guestFrame, [7]⟩] ∧ Occurs plainSystem (fun _ => readyQueue)
        (alone startedDevice oneChain [⟨guestFrame, [7]⟩]) (.kick 7 (toLe64 1), served) m' :=
    ⟨_, ⟨0, [⟨5, [], 100⟩], [], [⟨guestFrame, [7]⟩]⟩, rfl, 2, _, rfl⟩
  have hrun := (run_started oneChain).append (.single (l := frameComes)
    (t := alone startedDevice oneChain [⟨guestFrame, [7]⟩]) ⟨0, rfl⟩)
  have hways := frames_cross_one_way (show Machine.new plainSystem 1 .new () oneChain = .ok _ from rfl) hrun hlast
  have hne : served.written ≠ [] := by simp [hwritten]
  refine ⟨served, hwritten, (hways.1 hne).2, ?_⟩
  rcases hways.2.2 (Or.inl hne) with ⟨he, -⟩ | ⟨token, pkt, he, hby⟩
  · cases he
  · cases he
    exact hby

end Machine
end Oathgate
