import Oathgate.TtyRunner
/-!
# TtyTerminals — the terminals of a virtual machine (`oathgate-runner`: `pty.rs`, `pty/pipe.rs`, `pty/fabrial.rs`,
`hypervisor/terminal.rs`)

A `Pty` is the pipe to the machine's serial console or a connection to the agent in the guest.  The map keeps the ptys
under their tokens, one window size for all of them and which one is shown.  A send may fail at any time; the map logs
a failed resize and goes on.
-/
namespace Oathgate

open Lib

/-! ## Ptys -/

/-- The writing end of a pty: what was written, how many writes were tried, and which of them fail. -/
structure Outgoing where
  sent : List (List Byte)
  tries : Nat
  fails : Nat → Option Errno

namespace Outgoing

def send (bytes : List Byte) (out : Outgoing) : Res IoError Unit × Outgoing :=
  match out.fails out.tries with
  | some e => (.err (.errno e), { out with tries := out.tries + 1 })
  | none => (.ok (), { out with sent := out.sent ++ [bytes], tries := out.tries + 1 })

/-- Sends one after another, up to the first that fails. -/
def sendAll : List (List Byte) → Outgoing → Res IoError Unit × Outgoing
  | [], out => (.ok (), out)
  | bytes :: rest, out => Res.andThen (out.send bytes) fun _ out => out.sendAll rest

/-- No write has failed. -/
def Healthy (out : Outgoing) : Prop := ∀ i < out.tries, out.fails i = none

theorem fails_send (bytes : List Byte) (out : Outgoing) : (out.send bytes).2.fails = out.fails := by
  unfold send
  split
  · rfl
  · rfl

theorem tries_send (bytes : List Byte) (out : Outgoing) : (out.send bytes).2.tries = out.tries + 1 := by
  unfold send
  split
  · rfl
  · rfl

theorem Healthy.of_send {bytes : List Byte} {out : Outgoing} (h : (out.send bytes).2.Healthy) :
    out.Healthy ∧ (out.send bytes).1 = .ok () ∧ (out.send bytes).2.sent = out.sent ++ [bytes] := by
  have hlast := h out.tries (by rw [tries_send]; omega)
  rw [fails_send] at hlast
  refine ⟨?_, ?_, ?_⟩
  · intro i hi
    have hi' := h i (by rw [tries_send]; omega)
    rwa [fails_send] at hi'
  · unfold send
    rw [hlast]
  · unfold send
    rw [hlast]

/-- **A writing end that is healthy after some writes was so before, and has taken all of them.** -/
theorem Healthy.of_sendAll : ∀ {msgs : List (List Byte)} {out : Outgoing}, (out.sendAll msgs).2.Healthy →
    out.Healthy ∧ (out.sendAll msgs).2.sent = out.sent ++ msgs
  | [], out, h => ⟨h, (List.append_nil _).symm⟩
  | bytes :: rest, out, h => by
    -- had the first write failed, the end would not be healthy now
    have hfirst : (out.send bytes).2.Healthy := by
      unfold sendAll at h
      rcases hsend : out.send bytes with ⟨r, out'⟩
      rw [hsend] at h
      cases r with
      | ok u => exact (Healthy.of_sendAll h).1
      | err e => exact h
      | panic p => exact h
    obtain ⟨hout, hok, hsent⟩ := hfirst.of_send
    have hstep : out.sendAll (bytes :: rest) = (out.send bytes).2.sendAll rest := by
      rcases hsend : out.send bytes with ⟨r, out'⟩
      rw [hsend] at hok
      simp only at hok
      subst hok
      simp only [sendAll, hsend, Res.andThen_ok]
    rw [hstep] at h ⊢
    refine ⟨hout, ?_⟩
    rw [(Healthy.of_sendAll h).2, hsent, List.append_assoc]
    rfl

end Outgoing

inductive PtyKind where
  | pipe
  | fabrial
  deriving DecidableEq, Repr

/-- An `OathgatePty` with the window size of its parser. -/
structure Pty where
  kind : PtyKind
  parser : Winsize
  out : Outgoing

namespace Pty

/-- `PipePty::new` and `FabrialPty::connect`, with what they write to. -/
def new (kind : PtyKind) (fails : Nat → Option Errno) : Pty := ⟨kind, ⟨24, 80⟩, ⟨[], 0, fails⟩⟩

def sendAll (msgs : List (List Byte)) (pty : Pty) : Res IoError Unit × Pty :=
  let (r, out) := pty.out.sendAll msgs
  (r, { pty with out })

def writePty (data : List Byte) (pty : Pty) : Res IoError Unit × Pty :=
  match pty.kind with
  | .pipe => pty.sendAll [data]
  | .fabrial => pty.sendAll (FabrialPty.writePty data)

/-- The parser takes the new size first; a pipe has no one else to tell. -/
def resizePty (rows cols : BitVec 16) (pty : Pty) : Res IoError Unit × Pty :=
  let pty := { pty with parser := ⟨rows, cols⟩ }
  match pty.kind with
  | .pipe => (.ok (), pty)
  | .fabrial => pty.sendAll (FabrialPty.resizePty rows cols)

@[simp] theorem kind_writePty (data : List Byte) (pty : Pty) : (pty.writePty data).2.kind = pty.kind := by
  unfold writePty
  split
  · rfl
  · rfl

@[simp] theorem parser_writePty (data : List Byte) (pty : Pty) : (pty.writePty data).2.parser = pty.parser := by
  unfold writePty
  split
  · rfl
  · rfl

@[simp] theorem kind_resizePty (rows cols : BitVec 16) (pty : Pty) : (pty.resizePty rows cols).2.kind = pty.kind := by
  unfold resizePty
  cases pty.kind with
  | pipe => rfl
  | fabrial => rfl

@[simp] theorem parser_resizePty (rows cols : BitVec 16) (pty : Pty) :
    (pty.resizePty rows cols).2.parser = ⟨rows, cols⟩ := by
  unfold resizePty
  cases pty.kind with
  | pipe => rfl
  | fabrial => rfl

/-- **What a connection that has not failed has been asked**: the calls whose messages it has sent. -/
def Called (pty : Pty) (calls : List FabrialPty.Call) : Prop :=
  pty.out.Healthy → pty.out.sent = calls.flatMap FabrialPty.Call.sends

theorem Called.call {pty pty' : Pty} {calls : List FabrialPty.Call} {c : FabrialPty.Call} (h : pty.Called calls)
    (hsend : pty'.out = (pty.out.sendAll c.sends).2) : pty'.Called (calls ++ [c]) := by
  intro hhealthy
  rw [hsend] at hhealthy
  obtain ⟨hbefore, hsent⟩ := hhealthy.of_sendAll
  rw [hsend, hsent, h hbefore, List.flatMap_append, List.flatMap_singleton]

theorem Called.writePty {pty : Pty} {calls : List FabrialPty.Call} (hkind : pty.kind = .fabrial)
    (h : pty.Called calls) (data : List Byte) : (pty.writePty data).2.Called (calls ++ [.writePty data]) := by
  refine h.call ?_
  unfold Pty.writePty
  rw [hkind]
  rfl

theorem Called.resizePty {pty : Pty} {calls : List FabrialPty.Call} (hkind : pty.kind = .fabrial)
    (h : pty.Called calls) (rows cols : BitVec 16) :
    (pty.resizePty rows cols).2.Called (calls ++ [.resizePty rows cols]) := by
  refine h.call ?_
  unfold Pty.resizePty
  simp only [hkind]
  rfl

end Pty

/-! ## The map -/

/-- `TerminalMap`; the tokens of its terminals are distinct. -/
structure TerminalMap where
  terminals : List (Nat × Pty)
  winsz : Winsize
  active : Option Nat

namespace TerminalMap

def default : TerminalMap := ⟨[], ⟨24, 80⟩, none⟩

/-- A failed resize is logged; the pty is filed all the same, in the place of one with its token. -/
def insert (token : Nat) (pty : Pty) (map : TerminalMap) : TerminalMap :=
  let (_, pty) := pty.resizePty map.winsz.rows map.winsz.cols
  { map with terminals := map.terminals.filter (fun x => decide (x.1 ≠ token)) ++ [(token, pty)] }

def get (token : Nat) (map : TerminalMap) : Option Pty := map.terminals.lookup token

def getActive (map : TerminalMap) : Option Pty := map.active.bind fun id => map.get id

def setActive (token : Nat) (map : TerminalMap) : TerminalMap := { map with active := some token }

/-- The pty under a token after a call on it. -/
def put (token : Nat) (pty : Pty) (map : TerminalMap) : TerminalMap :=
  { map with terminals := map.terminals.map fun x => if x.1 = token then (token, pty) else x }

/-- Without an active pty the data is discarded. -/
def writeToPty (data : List Byte) (map : TerminalMap) : Res IoError Unit × TerminalMap :=
  match map.active with
  | none => (.ok (), map)
  | some token =>
    match map.get token with
    | none => (.ok (), map)
    | some term =>
      let (r, term) := term.writePty data
      (r, map.put token term)

/-- A size that is already set is set no more; of a new one every pty is told, and failures are logged. -/
def setSize (rows cols : BitVec 16) (map : TerminalMap) : TerminalMap :=
  if rows ≠ map.winsz.rows ∨ cols ≠ map.winsz.cols then
    { map with
      winsz := ⟨rows, cols⟩
      terminals := map.terminals.map fun x => (x.1, (x.2.resizePty rows cols).2) }
  else map

def tokens (map : TerminalMap) : List Nat := map.terminals.map Prod.fst

@[simp] theorem active_insert (token : Nat) (pty : Pty) (map : TerminalMap) :
    (map.insert token pty).active = map.active := rfl

@[simp] theorem winsz_insert (token : Nat) (pty : Pty) (map : TerminalMap) :
    (map.insert token pty).winsz = map.winsz := rfl

/-- **A new token replaces nothing.** -/
theorem terminals_insert {token : Nat} {map : TerminalMap} (hnew : token ∉ map.tokens) (pty : Pty) :
    (map.insert token pty).terminals =
      map.terminals ++ [(token, (pty.resizePty map.winsz.rows map.winsz.cols).2)] := by
  have hkeep : map.terminals.filter (fun x => decide (x.1 ≠ token)) = map.terminals := by
    refine List.filter_eq_self.2 fun x hx => ?_
    rw [decide_eq_true_eq]
    rintro rfl
    exact hnew (List.mem_map_of_mem hx)
  unfold insert
  simp only [hkeep]

theorem tokens_insert {token : Nat} {map : TerminalMap} (hnew : token ∉ map.tokens) (pty : Pty) :
    (map.insert token pty).tokens = map.tokens ++ [token] := by
  unfold tokens
  rw [terminals_insert hnew pty, List.map_append]
  rfl

@[simp] theorem tokens_put (token : Nat) (pty : Pty) (map : TerminalMap) : (map.put token pty).tokens = map.tokens := by
  unfold tokens put
  rw [List.map_map]
  refine List.map_congr_left fun x _ => ?_
  simp only [Function.comp_apply]
  split
  · rename_i h
    exact h.symm
  · rfl

theorem tokens_writeToPty (data : List Byte) (map : TerminalMap) : (map.writeToPty data).2.tokens = map.tokens := by
  unfold writeToPty
  split
  · rfl
  · split
    · rfl
    · exact tokens_put _ _ map

theorem winsz_writeToPty (data : List Byte) (map : TerminalMap) : (map.writeToPty data).2.winsz = map.winsz := by
  unfold writeToPty
  split
  · rfl
  · split <;> rfl

theorem active_writeToPty (data : List Byte) (map : TerminalMap) : (map.writeToPty data).2.active = map.active := by
  unfold writeToPty
  split
  · rfl
  · split <;> rfl

@[simp] theorem tokens_setSize (rows cols : BitVec 16) (map : TerminalMap) :
    (map.setSize rows cols).tokens = map.tokens := by
  unfold setSize tokens
  split
  · rw [List.map_map]
    rfl
  · rfl

@[simp] theorem active_setSize (rows cols : BitVec 16) (map : TerminalMap) :
    (map.setSize rows cols).active = map.active := by
  unfold setSize
  split <;> rfl

@[simp] theorem winsz_setSize (rows cols : BitVec 16) (map : TerminalMap) :
    (map.setSize rows cols).winsz = ⟨rows, cols⟩ := by
  unfold setSize
  split
  · rfl
  · rename_i h
    rw [not_or, not_not, not_not] at h
    obtain ⟨hr, hc⟩ := h
    rw [hr, hc]

/-- A terminal that is filed is found. -/
theorem get_eq_some {map : TerminalMap} (hnodup : map.tokens.Nodup) {token : Nat} {pty : Pty} :
    map.get token = some pty ↔ (token, pty) ∈ map.terminals := by
  unfold get tokens at *
  generalize map.terminals = terminals at hnodup ⊢
  induction terminals with
  | nil => simp
  | cons x rest ih =>
    obtain ⟨t, p⟩ := x
    rw [List.map_cons, List.nodup_cons] at hnodup
    rw [List.lookup_cons, List.mem_cons, Prod.mk.injEq]
    by_cases ht : token = t
    · subst ht
      have hrest : (token, pty) ∉ rest := fun h => hnodup.1 (List.mem_map.2 ⟨_, h, rfl⟩)
      simp only [beq_self_eq_true, Option.some.injEq, true_and, hrest, or_false]
      exact eq_comm
    · rw [beq_false_of_ne ht]
      simp only [ht, false_and, false_or]
      exact ih hnodup.2

/-- **What a write does to a terminal**: the active one is written to, the others are as they were. -/
theorem mem_writeToPty {map : TerminalMap} (hnodup : map.tokens.Nodup) {data : List Byte} {token : Nat} {pty : Pty} :
    (token, pty) ∈ (map.writeToPty data).2.terminals ↔
      ∃ before, (token, before) ∈ map.terminals ∧
        pty = if map.active = some token then (before.writePty data).2 else before := by
  unfold writeToPty
  cases hactive : map.active with
  | none => simp
  | some t =>
    simp only
    cases hget : map.get t with
    | none =>
      -- the active pty is not filed, so that no terminal has its token
      have hno : ∀ p, (t, p) ∉ map.terminals := fun p hp => by
        rw [(get_eq_some hnodup).2 hp] at hget
        cases hget
      simp only
      constructor
      · intro h
        refine ⟨pty, h, ?_⟩
        rw [if_neg]
        rintro ⟨rfl⟩
        exact hno pty h
      · rintro ⟨before, h, rfl⟩
        rw [if_neg]
        · exact h
        · rintro ⟨rfl⟩
          exact hno before h
    | some term =>
      have hterm := (get_eq_some hnodup).1 hget
      simp only [put, List.mem_map]
      constructor
      · rintro ⟨x, hx, hput⟩
        by_cases hxt : x.1 = t
        · rw [if_pos hxt] at hput
          cases hput
          refine ⟨term, hterm, ?_⟩
          rw [if_pos rfl]
        · rw [if_neg hxt] at hput
          subst hput
          refine ⟨pty, hx, ?_⟩
          rw [if_neg]
          rintro ⟨rfl⟩
          exact hxt rfl
      · rintro ⟨before, h, rfl⟩
        by_cases ht : t = token
        · subst ht
          have hsame : before = term := by
            have hbefore := (get_eq_some hnodup).2 h
            rw [hget] at hbefore
            cases hbefore
            rfl
          subst hsame
          exact ⟨(t, before), h, by simp⟩
        · refine ⟨(token, before), h, ?_⟩
          rw [if_neg (Ne.symm ht), if_neg]
          rintro ⟨rfl⟩
          exact ht rfl

end TerminalMap
end Oathgate
