import Oathgate.LibRun
import Oathgate.TtyAgent
/-!
# TtyCut — messages that arrive in pieces

The agent keeps no part of a message between two reads: a length that has not come reads as zero and ends the session,
and data that has not come is left to be taken for the next message.  As long as no round of the loop is cut inside a
message, what reaches the terminal is what was sent (`uncut_run_writes_payloads`).
-/
namespace Oathgate

open Lib

namespace SockTTY

/-- A round of the socket's loop that returned. -/
def Step (t : SockTTY Delivery) (action : SocketAction) (t' : SockTTY Delivery) : Prop :=
  runSocket deliver t = (.ok action, t')

/-- **A round is not cut**: nothing has arrived when it looks for a message, or the message comes whole. -/
def Uncut (t : SockTTY Delivery) : Prop :=
  ∀ m rest, m.WellFormed → t.client.stream = m.bytes ++ rest →
    (∃ s', deliver 1 t.client = (.error .wouldBlock, s')) ∨ ∃ s', Comes deliver t.client m s'

/-- A round that returned and was not cut. -/
def UncutStep (t : SockTTY Delivery) (action : SocketAction) (t' : SockTTY Delivery) : Prop :=
  Uncut t ∧ Step t action t'

/-- The agent before the first byte has arrived. -/
def waiting (ms : List TtyMsg) (cuts : Nat → Cut) : SockTTY Delivery := ⟨⟨[], wire ms, cuts⟩, [], []⟩

/-! ## One round -/

theorem runSocket_blocked {t : SockTTY Delivery} {s' : Delivery} (h : deliver 1 t.client = (.error .wouldBlock, s')) :
    runSocket deliver t = (.ok .wouldBlock, { t with client := s' }) := by
  unfold runSocket
  rw [readFromSocket_blocked h]
  rfl

theorem runSocket_comes {m : TtyMsg} (hm : m.WellFormed) {t : SockTTY Delivery} {s' : Delivery}
    (h : Comes deliver t.client m s') :
    runSocket deliver t = (.ok m.action,
      { t with client := s', written := t.written ++ m.payload, sizes := t.sizes ++ m.sizes }) := by
  unfold runSocket
  rw [readFromSocket_comes hm h, Res.andThen_ok]
  cases m with
  | data d => rfl
  | resize size => simp [TtyMsg.action, TtyMsg.payload]

/-- **Where a session stands**: some messages have been carried out, and the bytes of the others are still to be
read. -/
def Stands (ms : List TtyMsg) (t : SockTTY Delivery) : Prop :=
  ∃ done rest, ms = done ++ rest ∧ t.client.stream = wire rest ∧ t.written = done.flatMap TtyMsg.payload ∧
    t.sizes = done.flatMap TtyMsg.sizes

/-- Once every byte has been read, every message has been carried out. -/
theorem Stands.finished {ms : List TtyMsg} {t : SockTTY Delivery} (h : Stands ms t) (hempty : t.client.stream = []) :
    t.written = ms.flatMap TtyMsg.payload ∧ t.sizes = ms.flatMap TtyMsg.sizes := by
  obtain ⟨done, rest, rfl, hstream, hwritten, hsizes⟩ := h
  cases rest with
  | nil =>
    rw [List.append_nil]
    exact ⟨hwritten, hsizes⟩
  | cons m rest =>
    rw [hempty, wire, List.flatMap_cons] at hstream
    cases m <;> simp [TtyMsg.bytes] at hstream

/-- **A round that is not cut returns**, and carries out the next message or waits for it. -/
theorem uncut_round {ms : List TtyMsg} (hwf : ∀ m ∈ ms, m.WellFormed) {t : SockTTY Delivery} (h : Stands ms t)
    (huncut : Uncut t) : ∃ action t', Step t action t' ∧ Stands ms t' := by
  obtain ⟨done, rest, rfl, hstream, hwritten, hsizes⟩ := h
  have hwait : ∀ s', deliver 1 t.client = (.error .wouldBlock, s') →
      ∃ action t', Step t action t' ∧ Stands (done ++ rest) t' := by
    intro s' hs'
    refine ⟨_, _, runSocket_blocked hs', done, rest, rfl, ?_, hwritten, hsizes⟩
    exact (streams_deliver.blocks hs').2.trans hstream
  cases rest with
  | nil =>
    rcases deliver_cases 1 Nat.one_pos t.client with ⟨s', hs'⟩ | ⟨got, s', hs', hgot⟩
    · exact hwait s' hs'
    · rw [streams_deliver.takes hs'] at hstream
      exact absurd (List.append_eq_nil_iff.1 hstream).1 hgot
  | cons m rest =>
    have hm := hwf m (by simp)
    rcases huncut m (wire rest) hm hstream with ⟨s', hs'⟩ | ⟨s', hs'⟩
    · exact hwait s' hs'
    · refine ⟨_, _, runSocket_comes hm hs', done ++ [m], rest, by simp, ?_, by simp [hwritten], by simp [hsizes]⟩
      have hafter := hs'.stream streams_deliver
      rw [hstream, wire, List.flatMap_cons] at hafter
      exact (List.append_cancel_left hafter).symm

theorem stands_run {ms : List TtyMsg} (hwf : ∀ m ∈ ms, m.WellFormed) {cuts : Nat → Cut} {actions : List SocketAction}
    {t : SockTTY Delivery} (hrun : Run UncutStep (waiting ms cuts) actions t) : Stands ms t := by
  refine Run.invariant (I := fun _ t => Stands ms t) ⟨[], ms, rfl, rfl, rfl, rfl⟩ ?_ hrun
  rintro actions t action u - hstands ⟨huncut, hstep⟩
  obtain ⟨action', u', hstep', hstands'⟩ := uncut_round hwf hstands huncut
  unfold Step at hstep hstep'
  rw [hstep, Prod.mk.injEq] at hstep'
  rw [hstep'.2]
  exact hstands'

/-- **A stream that has arrived is never cut.** -/
theorem uncut_arrivedWhole (arrivals : Nat) (bytes written : List Byte) (sizes : List Winsize) :
    Uncut ⟨arrivedWhole arrivals bufferSize bytes, written, sizes⟩ := by
  intro m rest hm hstream
  have hbytes : bytes = m.bytes ++ rest := by
    rw [← hstream]
    exact (List.append_nil bytes).symm
  subst hbytes
  exact Or.inr ⟨_, (comes_available hm rest).map (arrivedWhole arrivals bufferSize)
    fun n s hn => deliver_arrivedWhole hn s⟩

/-- **What is sent reaches the terminal, as long as no round is cut inside a message.**  Along every run of the loop on
the bytes of well-formed messages, however they arrive and are handed out, whose rounds each find nothing or a whole
message: the rounds return, the terminal has got the data of the messages read so far and the window sizes they set,
and, once every byte has been read, of all of them. -/
theorem uncut_run_writes_payloads (ms : List TtyMsg) (hwf : ∀ m ∈ ms, m.WellFormed) (cuts : Nat → Cut)
    (actions : List SocketAction) (t : SockTTY Delivery) (hrun : Run UncutStep (waiting ms cuts) actions t) :
    Stands ms t ∧
    (t.client.stream = [] → t.written = ms.flatMap TtyMsg.payload ∧ t.sizes = ms.flatMap TtyMsg.sizes) ∧
    (Uncut t → ∃ action t', Step t action t') := by
  have hstands := stands_run hwf hrun
  refine ⟨hstands, hstands.finished, ?_⟩
  intro huncut
  obtain ⟨action, t', hstep, -⟩ := uncut_round hwf hstands huncut
  exact ⟨action, t', hstep⟩

/-- A letter and a window size that arrive in one piece. -/
def lettersAtOnce : SockTTY Delivery := waiting [.data [0x61], .resize ⟨24, 80⟩] fun _ => ⟨9, bufferSize⟩

theorem uncut_run_of_letter_and_size :
    ∃ t, Run UncutStep lettersAtOnce [.writeToTTY, .continue_] t ∧ t.written = [0x61] ∧ t.sizes = [⟨24, 80⟩] := by
  have hwf : ∀ m ∈ [TtyMsg.data [0x61], .resize ⟨24, 80⟩], m.WellFormed := by decide
  have hfirst : Uncut lettersAtOnce := by
    -- the first receive finds the whole stream
    intro m rest hm hstream
    rcases uncut_arrivedWhole 9 lettersAtOnce.client.stream [] [] m rest hm (by rw [← hstream]; rfl) with h | h
    · exact Or.inl h
    · refine Or.inr ?_
      cases m with
      | data d => exact h
      | resize size => exact h
  have hrun : Run UncutStep lettersAtOnce [.writeToTTY, .continue_] _ :=
    .cons ⟨hfirst, rfl⟩ <| .cons ⟨uncut_arrivedWhole 9 _ _ _, rfl⟩ .nil
  exact ⟨_, hrun, (uncut_run_writes_payloads _ hwf _ _ _ hrun).2.1 rfl⟩

/-- How a letter arrives when its header is sent before it. -/
def headerFirst : Nat → Cut := fun i =>
  if i = 0 then ⟨3, bufferSize⟩ else if i < 3 then ⟨0, bufferSize⟩ else ⟨1, bufferSize⟩

/-- **A letter that arrives after its header is lost**: the round that reads the header writes nothing, and the letter
is then taken for a message of unknown type. -/
theorem letter_after_header_lost :
    ¬ ∀ ms : List TtyMsg, (∀ m ∈ ms, m.WellFormed) → ∀ (cuts : Nat → Cut) (actions : List SocketAction)
      (t : SockTTY Delivery), Run Step (waiting ms cuts) actions t → t.client.stream = [] →
        t.written = ms.flatMap TtyMsg.payload ∧ t.sizes = ms.flatMap TtyMsg.sizes := by
  intro h
  have hrun : Run Step (waiting [.data [0x61]] headerFirst) [.writeToTTY, .continue_] _ := .cons rfl <| .cons rfl .nil
  have hwritten := (h [.data [0x61]] (by decide) headerFirst _ _ hrun rfl).1
  exact absurd hwritten (by decide)

end SockTTY
end Oathgate
