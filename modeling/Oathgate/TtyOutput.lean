import Oathgate.LibMailbox
import Oathgate.LibRun
import Oathgate.TtyAgent
/-!
# TtyOutput — what the shell writes (`oathgate-fabrial`: `tty.rs`, `run`; `oathgate-runner`: `pty/fabrial.rs`,
`read_pty`; `hypervisor.rs`, `run`)

The agent and the runner are each told once of bytes that have come.  The agent takes one piece off its terminal each
time it is told, and sends it without waiting; the runner holds the lock of the terminals and takes what has come until
it would block.  `screen_shows_output` says what of the shell's output reaches the screen, and
`closed_connection_keeps_lock` what becomes of the runner when the agent is gone: a receive from a connection that was
shut down never blocks.
-/
namespace Oathgate

open Lib

/-! ## The two loops -/

inductive AgentToken where
  | sock
  | tty
  deriving DecidableEq, Repr

/-- Where `SockTTY::run` is, with the events of its last poll that are still to be handled.  A thread that has ended
has shut the connection down. -/
inductive AgentPhase where
  | polling (events : List AgentToken)
  | reading (events : List AgentToken)
  | sending (msg : List Byte) (events : List AgentToken)
  | dead

/-- The events of the last poll that are still to be handled. -/
def AgentPhase.events : AgentPhase → List AgentToken
  | .polling events => events
  | .reading events => events
  | .sending _ events => events
  | .dead => []

/-- The message the agent has read and not sent. -/
def AgentPhase.inHand : AgentPhase → List Byte
  | .sending msg _ => msg
  | _ => []

/-- Where `Hypervisor::run` is: it polls, is inside `read_pty`, or has returned. -/
inductive ScreenPhase where
  | polling
  | reading
  | stopped
  deriving DecidableEq, Repr

/-- The shell's output that the agent has not read, the messages it sent with what the socket took of each, what the
runner has not received of that, and what its parser has processed. -/
structure Session where
  tty : SockTTY Delivery
  output : Mailbox Byte
  agent : AgentPhase
  sent : List (List Byte × List Byte)
  wire : Mailbox Byte
  runner : ScreenPhase
  screen : List Byte

/-- The shell writes; the agent goes on, or the runner, with what the operating system answers; or another thread takes
the lock of the terminals to write. -/
inductive SessionEvent where
  | shell (bytes : List Byte)
  | poll (ready : List AgentToken)
  | pollFailed
  | next
  | round
  | read (n : Nat) (error : Option Errno)
  | send (n : Nat) (error : Option Errno)
  | wake
  | recv (n : Nat) (error : Option Errno)
  | signal
  | lock

namespace Session

/-- A connection on which the runner's messages arrive as `input`. -/
def new (input : Delivery) : Session :=
  ⟨⟨input, [], []⟩, .empty, .polling [], [], .empty, .polling, []⟩

/-- `SockTTY::run` returns: the connection is shut down, which the runner is told like bytes. -/
def hangUp (s : Session) : Session := { s with agent := .dead, wire := { s.wire with rung := true } }

/-- A round of the loop `'sock`. -/
def round (s : Session) : Option Session :=
  match s.agent with
  | .reading events =>
    match SockTTY.runSocket deliver s.tty with
    | (.ok .wouldBlock, tty) => some { s with tty, agent := .polling events }
    | (.ok _, tty) => some { s with tty }
    | (_, tty) => some { s with tty }.hangUp
  | _ => none

/-- `read_from_tty`, which gets so many bytes. -/
def read (n : Nat) (error : Option Errno) (s : Session) : Option Session :=
  match s.agent, error with
  | .polling (.tty :: _), some _ => some s.hangUp
  | .polling (.tty :: events), none =>
    if n ≤ SockTTY.bufferSize ∧ n ≤ s.output.items.length then
      some { s with output := s.output.takeFirst n, agent := .sending (s.output.items.take n) events }
    else none
  | _, _ => none

/-- `write_to_socket`, which does not wait: the socket takes so many bytes, and the others are dropped. -/
def send (n : Nat) (error : Option Errno) (s : Session) : Option Session :=
  match s.agent, error with
  | .sending _ _, some _ => some s.hangUp
  | .sending msg events, none =>
    if n ≤ msg.length then
      some { s with
        sent := s.sent ++ [(msg, msg.take n)]
        wire := s.wire.deliverAll (msg.take n)
        agent := .polling events }
    else none
  | _, _ => none

/-- A receive of `read_pty`.  It would block when nothing has come, and gets nothing once the agent is gone. -/
def recv (n : Nat) (error : Option Errno) (s : Session) : Option Session :=
  match s.runner, error with
  | .reading, some .wouldBlock => none
  | .reading, some (.other _) => some { s with runner := .stopped }
  | .reading, none =>
    match s.wire.items, s.agent with
    | [], .dead => if n = 0 then some s else none
    | [], _ => if n = 0 then some { s with runner := .polling } else none
    | items, _ =>
      if 1 ≤ n ∧ n ≤ 4096 ∧ n ≤ items.length then
        some { s with wire := s.wire.takeFirst n, screen := s.screen ++ items.take n }
      else none
  | _, _ => none

/-- A poll reports what was rung for; the lock is free when the runner is not inside `read_pty`. -/
def apply (s : Session) : SessionEvent → Option Session
  | .shell bytes =>
    match s.agent with
    | .dead => none
    | _ => some { s with output := s.output.deliverAll bytes }
  | .poll ready =>
    match s.agent with
    | .polling [] =>
      if .tty ∈ ready → s.output.rung = true then
        some { s with output := if .tty ∈ ready then s.output.hear else s.output, agent := .polling ready }
      else none
    | _ => none
  | .pollFailed =>
    match s.agent with
    | .polling [] => some s.hangUp
    | _ => none
  | .next =>
    match s.agent with
    | .polling (.sock :: events) => some { s with agent := .reading events }
    | _ => none
  | .round => s.round
  | .read n error => s.read n error
  | .send n error => s.send n error
  | .wake =>
    if s.runner = .polling ∧ s.wire.rung = true then some { s with wire := s.wire.hear, runner := .reading } else none
  | .recv n error => s.recv n error
  | .signal => if s.runner = .polling then some { s with runner := .stopped } else none
  | .lock => if s.runner = .reading then none else some s

def Step (s : Session) (e : SessionEvent) (s' : Session) : Prop := s.apply e = some s'

/-! ## What a step does -/

/-- **The steps of a session**, one by one. -/
inductive Moves (s : Session) : SessionEvent → Session → Prop where
  | shell (bytes : List Byte) (hagent : s.agent ≠ .dead) :
      Moves s (.shell bytes) { s with output := s.output.deliverAll bytes }
  | poll (ready : List AgentToken) (hagent : s.agent = .polling []) :
      Moves s (.poll ready)
        { s with output := if .tty ∈ ready then s.output.hear else s.output, agent := .polling ready }
  | hangUp (e : SessionEvent) (tty : SockTTY Delivery) (hagent : s.agent ≠ .dead)
      (he : e = .pollFailed ∨ e = .round ∨ (∃ n err, e = .read n (some err)) ∨ ∃ n err, e = .send n (some err)) :
      Moves s e { s with tty }.hangUp
  | next (events : List AgentToken) (hagent : s.agent = .polling (.sock :: events)) :
      Moves s .next { s with agent := .reading events }
  | round (tty : SockTTY Delivery) (events : List AgentToken) (agent : AgentPhase) (hagent : s.agent = .reading events)
      (hafter : agent = .polling events ∨ agent = .reading events) : Moves s .round { s with tty, agent }
  | read (n : Nat) (events : List AgentToken) (hagent : s.agent = .polling (.tty :: events))
      (hn : n ≤ SockTTY.bufferSize) :
      Moves s (.read n none)
        { s with output := s.output.takeFirst n, agent := .sending (s.output.items.take n) events }
  | send (n : Nat) (msg : List Byte) (events : List AgentToken) (hagent : s.agent = .sending msg events) :
      Moves s (.send n none) { s with
        sent := s.sent ++ [(msg, msg.take n)]
        wire := s.wire.deliverAll (msg.take n)
        agent := .polling events }
  | wake (hrunner : s.runner = .polling) : Moves s .wake { s with wire := s.wire.hear, runner := .reading }
  | received (n : Nat) (hrunner : s.runner = .reading) :
      Moves s (.recv n none)
        { s with wire := s.wire.takeFirst n, screen := s.screen ++ s.wire.items.take n }
  | blocked (n : Nat) (hrunner : s.runner = .reading) (hempty : s.wire.items = []) (hagent : s.agent ≠ .dead) :
      Moves s (.recv n none) { s with runner := .polling }
  | stop (e : SessionEvent) (hrunner : s.runner ≠ .stopped)
      (he : (e = .signal ∧ s.runner = .polling) ∨ ∃ n err, e = .recv n (some err)) :
      Moves s e { s with runner := .stopped }
  | lock (hrunner : s.runner ≠ .reading) : Moves s .lock s

theorem moves_round {s s' : Session} (h : s.round = some s') : Moves s .round s' := by
  unfold round at h
  split at h
  · rename_i events hagent
    have halive : s.agent ≠ .dead := by
      rw [hagent]
      exact fun hdead => by cases hdead
    split at h
    · cases h
      exact .round _ events _ hagent (Or.inl rfl)
    · cases h
      exact .round _ events _ hagent (Or.inr hagent)
    · cases h
      exact .hangUp _ _ halive (Or.inr (Or.inl rfl))
  · cases h

theorem moves_read {s s' : Session} {n : Nat} {error : Option Errno} (h : s.read n error = some s') :
    Moves s (.read n error) s' := by
  unfold read at h
  split at h
  · rename_i events err hagent
    cases h
    refine .hangUp _ s.tty ?_ (Or.inr (Or.inr (Or.inl ⟨n, err, rfl⟩)))
    rw [hagent]
    exact fun hdead => by cases hdead
  · rename_i events hagent
    split at h
    · rename_i hn
      cases h
      exact .read n events hagent hn.1
    · cases h
  · cases h

theorem moves_send {s s' : Session} {n : Nat} {error : Option Errno} (h : s.send n error = some s') :
    Moves s (.send n error) s' := by
  unfold send at h
  split at h
  · rename_i msg events err hagent
    cases h
    refine .hangUp _ s.tty ?_ (Or.inr (Or.inr (Or.inr ⟨n, err, rfl⟩)))
    rw [hagent]
    exact fun hdead => by cases hdead
  · rename_i msg events hagent
    split at h
    · cases h
      exact .send n msg events hagent
    · cases h
  · cases h

theorem moves_recv {s s' : Session} {n : Nat} {error : Option Errno} (h : s.recv n error = some s') :
    Moves s (.recv n error) s' := by
  unfold recv at h
  split at h
  · cases h
  · rename_i code hrunner
    cases h
    refine .stop _ ?_ (Or.inr ⟨n, _, rfl⟩)
    rw [hrunner]
    exact fun hstopped => by cases hstopped
  · rename_i hrunner
    split at h
    · rename_i hempty _
      split at h
      · rename_i hn
        cases h
        have hsame : s = { s with wire := s.wire.takeFirst n, screen := s.screen ++ s.wire.items.take n } := by
          simp [hn, Mailbox.takeFirst]
        nth_rewrite 2 [hsame]
        exact .received n hrunner
      · cases h
    · rename_i hempty hagent
      split at h
      · cases h
        exact .blocked n hrunner hempty hagent
      · cases h
    · split at h
      · cases h
        exact .received n hrunner
      · cases h
  · cases h

/-- **Everything a step can do.** -/
theorem moves_step {s s' : Session} {e : SessionEvent} (h : Step s e s') : Moves s e s' := by
  unfold Step apply at h
  cases e with
  | shell bytes =>
    simp only at h
    split at h
    · cases h
    · rename_i hagent
      cases h
      exact .shell bytes hagent
  | poll ready =>
    simp only at h
    split at h
    · rename_i hagent
      split at h
      · cases h
        exact .poll ready hagent
      · cases h
    · cases h
  | pollFailed =>
    simp only at h
    split at h
    · rename_i hagent
      cases h
      refine .hangUp _ s.tty ?_ (Or.inl rfl)
      rw [hagent]
      exact fun hdead => by cases hdead
    · cases h
  | next =>
    simp only at h
    split at h
    · rename_i events hagent
      cases h
      exact .next events hagent
    · cases h
  | round => exact moves_round h
  | read n error => exact moves_read h
  | send n error => exact moves_send h
  | wake =>
    simp only at h
    split at h
    · rename_i hrunner
      cases h
      exact .wake hrunner.1
    · cases h
  | recv n error => exact moves_recv h
  | signal =>
    simp only at h
    split at h
    · rename_i hrunner
      cases h
      refine .stop _ ?_ (Or.inl ⟨rfl, hrunner⟩)
      rw [hrunner]
      exact fun hstopped => by cases hstopped
    · cases h
  | lock =>
    simp only at h
    split at h
    · cases h
    · rename_i hrunner
      cases h
      exact .lock hrunner

/-! ## What a session has done -/

/-- All the shell wrote. -/
def written (es : List SessionEvent) : List Byte :=
  es.flatMap fun
    | .shell bytes => bytes
    | _ => []

/-- What of the shell's output was not read, and what the last read left of it. -/
def unread (es : List SessionEvent) : List Byte × List Byte :=
  es.foldl (fun (x : List Byte × List Byte) e =>
    match e with
    | .shell bytes => (x.1 ++ bytes, x.2)
    | .read n none => (x.1.drop n, x.1.drop n)
    | _ => x) ([], [])

/-- An event that neither brings output nor takes it off the terminal. -/
def Silent (e : SessionEvent) : Prop := (∀ bytes, e ≠ .shell bytes) ∧ ∀ n, e ≠ .read n none

theorem written_snoc_silent {e : SessionEvent} (h : Silent e) (es : List SessionEvent) :
    written (es ++ [e]) = written es := by
  unfold written
  rw [List.flatMap_append, List.flatMap_singleton]
  cases e with
  | shell bytes => exact absurd rfl (h.1 bytes)
  | _ => exact List.append_nil _

theorem unread_snoc_silent {e : SessionEvent} (h : Silent e) (es : List SessionEvent) :
    unread (es ++ [e]) = unread es := by
  unfold unread
  rw [List.foldl_append]
  cases e with
  | shell bytes => exact absurd rfl (h.1 bytes)
  | read n error =>
    cases error with
    | none => exact absurd rfl (h.2 n)
    | some err => rfl
  | _ => rfl

/-- **Where the shell's output is**: sent, in the agent's hand or unread; and when the agent has not been told of it,
the last read left it. -/
structure Outlet (es : List SessionEvent) (s : Session) : Prop where
  output : s.output.items = (unread es).1
  heard : s.agent ≠ .dead → s.output.rung = false → .tty ∉ s.agent.events → (unread es).1 = (unread es).2
  first : (s.sent.map Prod.fst).flatten <+: written es
  all : s.agent ≠ .dead → (s.sent.map Prod.fst).flatten ++ s.agent.inHand ++ s.output.items = written es
  short : s.agent.inHand.length ≤ SockTTY.bufferSize
  parts : ∀ p ∈ s.sent, p.2 <+: p.1 ∧ p.1.length ≤ SockTTY.bufferSize

/-- Most steps leave the output where it is. -/
theorem Outlet.same {es : List SessionEvent} {s s' : Session} {e : SessionEvent} (h : Outlet es s) (he : Silent e)
    (halive : s'.agent ≠ .dead → s.agent ≠ .dead) (hitems : s'.output.items = s.output.items)
    (hrung : s'.output.rung = false → .tty ∉ s'.agent.events → s.output.rung = false ∧ .tty ∉ s.agent.events)
    (hsent : s'.sent = s.sent) (hhand : s'.agent ≠ .dead → s'.agent.inHand = s.agent.inHand)
    (hshort : s'.agent.inHand.length ≤ SockTTY.bufferSize) : Outlet (es ++ [e]) s' := by
  refine ⟨?_, ?_, ?_, ?_, hshort, ?_⟩
  · rw [hitems, unread_snoc_silent he]
    exact h.output
  · intro hlives hquiet hnone
    rw [unread_snoc_silent he]
    obtain ⟨hquiet', hnone'⟩ := hrung hquiet hnone
    exact h.heard (halive hlives) hquiet' hnone'
  · rw [hsent, written_snoc_silent he]
    exact h.first
  · intro hlives
    rw [hsent, hhand hlives, hitems, written_snoc_silent he]
    exact h.all (halive hlives)
  · rw [hsent]
    exact h.parts

theorem unread_snoc_shell (es : List SessionEvent) (bytes : List Byte) :
    unread (es ++ [.shell bytes]) = ((unread es).1 ++ bytes, (unread es).2) := by
  unfold unread
  rw [List.foldl_append]
  rfl

theorem unread_snoc_read (es : List SessionEvent) (n : Nat) :
    unread (es ++ [.read n none]) = ((unread es).1.drop n, (unread es).1.drop n) := by
  unfold unread
  rw [List.foldl_append]
  rfl

theorem written_snoc_shell (es : List SessionEvent) (bytes : List Byte) :
    written (es ++ [.shell bytes]) = written es ++ bytes := by
  simp [written]

theorem written_snoc_read (es : List SessionEvent) (n : Nat) : written (es ++ [.read n none]) = written es := by
  simp [written]

theorem outlet_step {es : List SessionEvent} {s s' : Session} {e : SessionEvent} (h : Outlet es s)
    (hmoves : Moves s e s') : Outlet (es ++ [e]) s' := by
  cases hmoves with
  | shell bytes hagent =>
    refine ⟨?_, ?_, ?_, ?_, h.short, h.parts⟩
    · rw [unread_snoc_shell]
      simp only [Mailbox.items_deliverAll, h.output]
    · intro hlives hquiet hnone
      obtain ⟨rfl, hquiet'⟩ := Mailbox.rung_deliverAll hquiet
      rw [unread_snoc_shell]
      simp only [List.append_nil]
      exact h.heard hlives hquiet' hnone
    · rw [written_snoc_shell]
      exact h.first.trans (List.prefix_append _ _)
    · intro hlives
      rw [written_snoc_shell, ← h.all hlives]
      show _ ++ (s.output.deliverAll bytes).items = _
      rw [Mailbox.items_deliverAll, ← List.append_assoc]
  | poll ready hagent =>
    have hhand : s.agent.inHand = [] := by
      rw [hagent]
      rfl
    refine h.same ⟨by simp, by simp⟩ ?_ ?_ ?_ rfl ?_ (Nat.zero_le _)
    · intro _ hdead
      rw [hagent] at hdead
      cases hdead
    · simp only
      split
      · rfl
      · rfl
    · intro hquiet hnone
      have hother : .tty ∉ ready := hnone
      simp only at hquiet
      rw [if_neg hother] at hquiet
      rw [hagent]
      exact ⟨hquiet, by simp [AgentPhase.events]⟩
    · exact fun _ => hhand.symm
  | hangUp e tty hagent he =>
    have hsilent : Silent e := by
      rcases he with rfl | rfl | ⟨n, err, rfl⟩ | ⟨n, err, rfl⟩
      · exact ⟨by simp, by simp⟩
      · exact ⟨by simp, by simp⟩
      · exact ⟨by simp, by simp⟩
      · exact ⟨by simp, by simp⟩
    refine ⟨?_, fun hlives => absurd rfl hlives, ?_, fun hlives => absurd rfl hlives, Nat.zero_le _, h.parts⟩
    · rw [unread_snoc_silent hsilent]
      exact h.output
    · rw [written_snoc_silent hsilent]
      exact h.first
  | next events hagent =>
    have hhand : s.agent.inHand = [] := by
      rw [hagent]
      rfl
    refine h.same ⟨by simp, by simp⟩ ?_ rfl ?_ rfl (fun _ => hhand.symm) (Nat.zero_le _)
    · intro _ hdead
      rw [hagent] at hdead
      cases hdead
    · intro hquiet hnone
      rw [hagent]
      exact ⟨hquiet, by simpa [AgentPhase.events] using hnone⟩
  | round tty events agent hagent hafter =>
    have hhand : s.agent.inHand = [] := by
      rw [hagent]
      rfl
    have hevents : agent.events = events := by
      rcases hafter with rfl | rfl
      · rfl
      · rfl
    have hnone : agent.inHand = [] := by
      rcases hafter with rfl | rfl
      · rfl
      · rfl
    refine h.same ⟨by simp, by simp⟩ ?_ rfl ?_ rfl (fun _ => hnone.trans hhand.symm) ?_
    · intro _ hdead
      rw [hagent] at hdead
      cases hdead
    · intro hquiet hother
      rw [hagent]
      refine ⟨hquiet, ?_⟩
      show .tty ∉ events
      rw [← hevents]
      exact hother
    · show agent.inHand.length ≤ _
      rw [hnone]
      exact Nat.zero_le _
  | read n events hagent hn =>
    have hhand : s.agent.inHand = [] := by
      rw [hagent]
      rfl
    have halive : s.agent ≠ .dead := by
      rw [hagent]
      exact fun hdead => by cases hdead
    have hall := h.all halive
    rw [hhand, List.append_nil] at hall
    refine ⟨?_, ?_, ?_, ?_, ?_, h.parts⟩
    · rw [unread_snoc_read, ← h.output]
      rfl
    · intro _ _ _
      rw [unread_snoc_read]
    · rw [written_snoc_read]
      exact h.first
    · intro _
      rw [written_snoc_read, ← hall]
      show _ ++ s.output.items.take n ++ s.output.items.drop n = _
      rw [List.append_assoc, List.take_append_drop]
    · show (s.output.items.take n).length ≤ _
      rw [List.length_take]
      omega
  | send n msg events hagent =>
    have halive : s.agent ≠ .dead := by
      rw [hagent]
      exact fun hdead => by cases hdead
    have hhand : s.agent.inHand = msg := by
      rw [hagent]
      rfl
    have hall := h.all halive
    have hsilent : Silent (.send n none) := ⟨by simp, by simp⟩
    have hsent : ((s.sent ++ [(msg, msg.take n)]).map Prod.fst).flatten = (s.sent.map Prod.fst).flatten ++ msg := by
      simp
    rw [hhand] at hall
    refine ⟨?_, ?_, ?_, ?_, Nat.zero_le _, ?_⟩
    · rw [unread_snoc_silent hsilent]
      exact h.output
    · intro _ hquiet hnone
      rw [unread_snoc_silent hsilent]
      refine h.heard halive hquiet ?_
      rw [hagent]
      exact hnone
    · rw [written_snoc_silent hsilent, ← hall]
      simp only [hsent]
      exact List.prefix_append _ _
    · intro _
      rw [written_snoc_silent hsilent, ← hall]
      simp only [hsent, AgentPhase.inHand, List.append_nil]
    · intro p hp
      rcases List.mem_append.1 hp with hp | hp
      · exact h.parts p hp
      · rw [List.mem_singleton] at hp
        subst hp
        refine ⟨List.take_prefix _ _, ?_⟩
        rw [← hhand]
        exact h.short
  | wake hrunner => exact h.same ⟨by simp, by simp⟩ (fun h => h) rfl (fun hq hn => ⟨hq, hn⟩) rfl (fun _ => rfl) h.short
  | received n hrunner =>
    exact h.same ⟨by simp, by simp⟩ (fun h => h) rfl (fun hq hn => ⟨hq, hn⟩) rfl (fun _ => rfl) h.short
  | blocked n hrunner hempty hagent =>
    exact h.same ⟨by simp, by simp⟩ (fun h => h) rfl (fun hq hn => ⟨hq, hn⟩) rfl (fun _ => rfl) h.short
  | stop e hrunner he =>
    have hsilent : Silent e := by
      rcases he with ⟨rfl, -⟩ | ⟨n, err, rfl⟩
      · exact ⟨by simp, by simp⟩
      · exact ⟨by simp, by simp⟩
    exact h.same hsilent (fun h => h) rfl (fun hq hn => ⟨hq, hn⟩) rfl (fun _ => rfl) h.short
  | lock hrunner => exact h.same ⟨by simp, by simp⟩ (fun h => h) rfl (fun hq hn => ⟨hq, hn⟩) rfl (fun _ => rfl) h.short

/-- **Where what the socket took is**: processed or not received; and the runner, unless it has returned, receives or
will be told, of bytes as of the end of the connection. -/
structure Inlet (s : Session) : Prop where
  wire : s.screen ++ s.wire.items = (s.sent.map Prod.snd).flatten
  silent : s.wire.silent = 0
  told : s.runner ≠ .stopped → s.wire.Awaited (s.runner = .reading)
  ended : s.agent = .dead → s.runner ≠ .stopped → s.runner = .reading ∨ s.wire.rung = true

theorem inlet_step {s s' : Session} {e : SessionEvent} (h : Inlet s) (hmoves : Moves s e s') : Inlet s' := by
  obtain ⟨hwire, hsilent, htold, hended⟩ := h
  have halive : ∀ agent : AgentPhase, agent ≠ .dead → agent = .dead → s.runner ≠ .stopped →
      s.runner = .reading ∨ s.wire.rung = true := fun _ hne hdead => absurd hdead hne
  cases hmoves with
  | shell bytes hagent => exact ⟨hwire, hsilent, htold, hended⟩
  | poll ready hagent => exact ⟨hwire, hsilent, htold, halive _ (by simp)⟩
  | hangUp e tty hagent he =>
    exact ⟨hwire, hsilent, fun _ => fun _ => Or.inr (Or.inl rfl), fun _ _ => Or.inr rfl⟩
  | next events hagent => exact ⟨hwire, hsilent, htold, halive _ (by simp)⟩
  | round tty events agent hagent hafter =>
    refine ⟨hwire, hsilent, htold, halive agent ?_⟩
    rcases hafter with rfl | rfl
    · exact fun hdead => by cases hdead
    · exact fun hdead => by cases hdead
  | read n events hagent hn => exact ⟨hwire, hsilent, htold, halive _ (by simp)⟩
  | send n msg events hagent =>
    refine ⟨?_, ?_, fun hgoes => (htold hgoes).deliverAll _, fun hdead => by cases hdead⟩
    · simp only [Mailbox.items_deliverAll]
      rw [← List.append_assoc, hwire]
      simp
    · rw [← hsilent]
      exact Mailbox.silent_deliverAll _ _
  | wake hrunner => exact ⟨hwire, hsilent, fun _ => Mailbox.awaited_hear rfl, fun _ _ => Or.inl rfl⟩
  | received n hrunner =>
    refine ⟨?_, hsilent, fun _ => fun _ => Or.inr (Or.inr hrunner), fun _ _ => Or.inl hrunner⟩
    show s.screen ++ s.wire.items.take n ++ s.wire.items.drop n = _
    rw [List.append_assoc, List.take_append_drop, hwire]
  | blocked n hrunner hempty hagent =>
    exact ⟨hwire, hsilent, fun _ => Mailbox.awaited_nil hempty, fun hdead => absurd hdead hagent⟩
  | stop e hrunner he =>
    exact ⟨hwire, hsilent, fun hgoes => absurd rfl hgoes, fun _ hgoes => absurd rfl hgoes⟩
  | lock hrunner => exact ⟨hwire, hsilent, htold, hended⟩

/-! ## Runs -/

theorem outlet_run {input : Delivery} {es : List SessionEvent} {s : Session} (hrun : Run Step (new input) es s) :
    Outlet es s ∧ Inlet s := by
  refine Run.invariant (I := fun es s => Outlet es s ∧ Inlet s) ⟨?_, ?_⟩ ?_ hrun
  · exact ⟨rfl, fun _ _ _ => rfl, List.nil_prefix, fun _ => rfl, Nat.zero_le _, fun p hp => by cases hp⟩
  · exact ⟨rfl, rfl, fun _ => Mailbox.awaited_empty, fun hdead => by cases hdead⟩
  · rintro es t e u - ⟨houtlet, hinlet⟩ hstep
    exact ⟨outlet_step houtlet (moves_step hstep), inlet_step hinlet (moves_step hstep)⟩

theorem reads_run {input : Delivery} {es : List SessionEvent} {s : Session} (hrun : Run Step (new input) es s) :
    ∀ n, .read n none ∈ es → n ≤ SockTTY.bufferSize := by
  refine Run.invariant (I := fun es _ => ∀ n, .read n none ∈ es → n ≤ SockTTY.bufferSize) (by simp) ?_ hrun
  intro es t e u _ ih hstep n hmem
  rcases List.mem_append.1 hmem with hmem | hmem
  · exact ih n hmem
  · rw [List.mem_singleton] at hmem
    subst hmem
    have hmoves := moves_step hstep
    generalize he : SessionEvent.read n none = e at hmoves
    cases hmoves with
    | read k events hagent hk =>
      cases he
      exact hk
    | hangUp e tty hagent hfails => rcases hfails with rfl | rfl | ⟨k, err, rfl⟩ | ⟨k, err, rfl⟩ <;> cases he
    | stop e hrunner hstops => rcases hstops with ⟨rfl, -⟩ | ⟨k, err, rfl⟩ <;> cases he
    | _ => cases he

/-- Both loops wait and have nothing to be told. -/
structure AtRest (s : Session) : Prop where
  agent : s.agent = .polling []
  heard : s.output.rung = false
  runner : s.runner = .polling
  told : s.wire.rung = false

/-- **The screen shows the output in order, but for what was dropped or left.**  In every run, however the shell, the
agent, the runner and its users come in between: the agent sends the shell's output in messages of at most its buffer's
size, in order; the parser has processed and the socket holds what the socket took of each, a first part; and once both
loops wait and have been told of everything, the parser has processed all the socket took, and what is missing besides
is exactly what the agent's last read left, which takes no more than its buffer's size. -/
theorem screen_shows_output {input : Delivery} {es : List SessionEvent} {s : Session}
    (hrun : Run Step (new input) es s) :
    (s.sent.map Prod.fst).flatten <+: written es ∧
    (∀ p ∈ s.sent, p.2 <+: p.1 ∧ p.1.length ≤ SockTTY.bufferSize) ∧
    s.screen ++ s.wire.items = (s.sent.map Prod.snd).flatten ∧
    (∀ n, .read n none ∈ es → n ≤ SockTTY.bufferSize) ∧
    (s.AtRest → s.screen = (s.sent.map Prod.snd).flatten ∧
      (s.sent.map Prod.fst).flatten ++ (unread es).2 = written es ∧
      ((∀ p ∈ s.sent, p.2 = p.1) → s.screen ++ (unread es).2 = written es)) := by
  obtain ⟨houtlet, hinlet⟩ := outlet_run hrun
  refine ⟨houtlet.first, houtlet.parts, hinlet.wire, reads_run hrun, ?_⟩
  rintro ⟨hagent, hheard, hrunner, htold⟩
  have halive : s.agent ≠ .dead := by
    rw [hagent]
    exact fun hdead => by cases hdead
  have hnone : .tty ∉ s.agent.events := by
    rw [hagent]
    exact fun hmem => by cases hmem
  have hgoes : s.runner ≠ .stopped ∧ s.runner ≠ .reading := by
    rw [hrunner]
    exact ⟨by decide, by decide⟩
  have hempty : s.wire.items = [] := (hinlet.told hgoes.1).at_rest hinlet.silent htold hgoes.2
  have hscreen : s.screen = (s.sent.map Prod.snd).flatten := by
    rw [← hinlet.wire, hempty, List.append_nil]
  have hall : (s.sent.map Prod.fst).flatten ++ (unread es).2 = written es := by
    have hsum := houtlet.all halive
    rw [hagent] at hsum
    rw [← houtlet.heard halive hheard hnone, ← houtlet.output, ← hsum]
    simp [AgentPhase.inHand]
  refine ⟨hscreen, hall, fun hwhole => ?_⟩
  have hsame : s.sent.map Prod.snd = s.sent.map Prod.fst := List.map_congr_left hwhole
  rw [hscreen, hsame]
  exact hall

/-- Nothing arrives from the runner. -/
def quietInput : Delivery := ⟨[], [], fun _ => ⟨0, 0⟩⟩

theorem screen_shows_output_of_two : ∃ s, Run Step (new quietInput)
    [.shell [104, 105], .poll [.tty], .read 2 none, .send 2 none, .wake, .recv 2 none, .recv 0 none] s ∧
    s.AtRest ∧ s.screen = [104, 105] := by
  obtain ⟨s, hrun, hrest, hsent⟩ : ∃ s, Run Step (new quietInput)
      [.shell [104, 105], .poll [.tty], .read 2 none, .send 2 none, .wake, .recv 2 none, .recv 0 none] s ∧ s.AtRest ∧
      (s.sent.map Prod.snd).flatten = [104, 105] :=
    ⟨_, .cons rfl <| .cons rfl <| .cons rfl <| .cons rfl <| .cons rfl <| .cons rfl <| .cons rfl .nil,
      ⟨rfl, rfl, rfl, rfl⟩, rfl⟩
  exact ⟨s, hrun, hrest, ((screen_shows_output hrun).2.2.2.2 hrest).1.trans hsent⟩

/-! ## The end of a connection -/

/-- **Inside `read_pty` of a connection that was shut down** the runner stays, and nothing that needs it or the lock
happens. -/
theorem reading_step {s s' : Session} {e : SessionEvent} (hstep : Step s e s') (hdead : s.agent = .dead)
    (hreading : s.runner = .reading) :
    s'.agent = .dead ∧ e ≠ .lock ∧ e ≠ .signal ∧ e ≠ .wake ∧
      (s'.runner = .reading ∨ s'.runner = .stopped ∧ ∃ n err, e = .recv n (some err)) := by
  have hmoves := moves_step hstep
  cases hmoves with
  | shell bytes hagent => exact absurd hdead hagent
  | poll ready hagent =>
    rw [hdead] at hagent
    cases hagent
  | hangUp e tty hagent he => exact absurd hdead hagent
  | next events hagent =>
    rw [hdead] at hagent
    cases hagent
  | round tty events agent hagent hafter =>
    rw [hdead] at hagent
    cases hagent
  | read n events hagent hn =>
    rw [hdead] at hagent
    cases hagent
  | send n msg events hagent =>
    rw [hdead] at hagent
    cases hagent
  | wake hrunner =>
    rw [hreading] at hrunner
    cases hrunner
  | received n hrunner => exact ⟨hdead, by simp, by simp, by simp, Or.inl hreading⟩
  | blocked n hrunner hempty hagent => exact absurd hdead hagent
  | stop e hrunner he =>
    rcases he with ⟨rfl, hpolling⟩ | ⟨n, err, rfl⟩
    · rw [hreading] at hpolling
      cases hpolling
    · exact ⟨hdead, by simp, by simp, by simp, Or.inr ⟨rfl, n, err, rfl⟩⟩
  | lock hrunner => exact absurd hreading hrunner

theorem reading_run {s s' : Session} {es : List SessionEvent} (hrun : Run Step s es s') (hdead : s.agent = .dead)
    (hreading : s.runner = .reading) (hfails : ∀ n err, .recv n (some err) ∉ es) :
    s'.agent = .dead ∧ s'.runner = .reading ∧ ∀ e ∈ es, e ≠ .lock ∧ e ≠ .signal := by
  refine Run.invariant (I := fun es s' => (∀ n err, .recv n (some err) ∉ es) →
    s'.agent = .dead ∧ s'.runner = .reading ∧ ∀ e ∈ es, e ≠ .lock ∧ e ≠ .signal)
    (fun _ => ⟨hdead, hreading, by simp⟩) ?_ hrun hfails
  intro es t e u _ ih hstep hfails
  obtain ⟨htdead, htreading, hes⟩ := ih fun n err hmem => hfails n err (List.mem_append_left _ hmem)
  obtain ⟨hudead, hlock, hsignal, -, hafter⟩ := reading_step hstep htdead htreading
  refine ⟨hudead, ?_, ?_⟩
  · rcases hafter with h | ⟨-, n, err, rfl⟩
    · exact h
    · exact absurd (List.mem_append_right _ (List.mem_singleton.2 rfl)) (hfails n err)
  · intro e' he'
    rcases List.mem_append.1 he' with he' | he'
    · exact hes e' he'
    · rw [List.mem_singleton.1 he']
      exact ⟨hlock, hsignal⟩

/-- **Once the agent is gone, the runner never leaves `read_pty`.**  In every run in which the agent's thread has ended,
the runner, unless it has returned, is inside `read_pty` or can be told; and from when it is inside, as long as no
receive fails, it stays there, whatever happens: it handles no signal to stop, and nobody gets the terminals' lock to
write. -/
theorem closed_connection_keeps_lock {input : Delivery} {es : List SessionEvent} {s : Session}
    (hrun : Run Step (new input) es s) (hdead : s.agent = .dead) (hgoes : s.runner ≠ .stopped) :
    (s.runner = .reading ∨ ∃ t, Step s .wake t) ∧
    ∀ t es' s', (s.runner = .reading ∧ t = s ∨ Step s .wake t) → Run Step t es' s' →
      (∀ n err, .recv n (some err) ∉ es') → s'.runner = .reading ∧ .lock ∉ es' ∧ .signal ∉ es' := by
  obtain ⟨-, hinlet⟩ := outlet_run hrun
  constructor
  · cases hrunner : s.runner with
    | reading => exact Or.inl rfl
    | stopped => exact absurd hrunner hgoes
    | polling =>
      right
      rcases hinlet.ended hdead hgoes with h | hrung
      · rw [hrunner] at h
        cases h
      · exact ⟨_, if_pos ⟨hrunner, hrung⟩⟩
  · intro t es' s' htold hrun' hfails
    have hinside : t.agent = .dead ∧ t.runner = .reading := by
      rcases htold with ⟨hreading, rfl⟩ | hwake
      · exact ⟨hdead, hreading⟩
      · cases moves_step hwake with
        | wake hrunner => exact ⟨hdead, rfl⟩
        | hangUp e tty hagent he => exact absurd hdead hagent
        | stop e hrunner he => rcases he with ⟨h, -⟩ | ⟨n, err, h⟩ <;> cases h
    obtain ⟨-, hreading, hes⟩ := reading_run hrun' hinside.1 hinside.2 hfails
    exact ⟨hreading, fun hmem => (hes _ hmem).1 rfl, fun hmem => (hes _ hmem).2 rfl⟩

/-- The shell writes a byte and ends: reading its terminal fails. -/
theorem closed_connection_keeps_lock_of_exit : ∃ s t s',
    Run Step (new quietInput) [.shell [10], .poll [.tty], .read 0 (some (.other 5))] s ∧ Step s .wake t ∧
    Run Step t [.recv 0 none, .recv 0 none] s' ∧ s'.runner = .reading := by
  obtain ⟨s, t, s', hrun, hdead, hrunner, hwake, hrun'⟩ : ∃ s t s',
      Run Step (new quietInput) [.shell [10], .poll [.tty], .read 0 (some (.other 5))] s ∧ s.agent = .dead ∧
      s.runner = .polling ∧ Step s .wake t ∧ Run Step t [.recv 0 none, .recv 0 none] s' :=
    ⟨_, _, _, .cons rfl <| .cons rfl <| .cons rfl .nil, rfl, rfl, rfl, .cons rfl <| .cons rfl .nil⟩
  have hgoes : s.runner ≠ .stopped := by
    rw [hrunner]
    decide
  exact ⟨s, t, s', hrun, hwake, hrun',
    ((closed_connection_keeps_lock hrun hdead hgoes).2 t _ s' (Or.inr hwake) hrun' (by simp)).1⟩

end Session
end Oathgate
