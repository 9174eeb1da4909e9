import Oathgate.TtyCut
import Oathgate.TtyTerminals
/-!
# TtyHypervisor — the runner and the users of its terminals (`oathgate-runner`: `hypervisor.rs`, `run`)

The runner files the serial console under token 1 and each connection to a guest's agent under the next token from 10
on, and shows what it filed last.  Filing and showing are two holds of the lock, and the users of the terminals (keys
by `write_to_pty`, window sizes by `set_size`) may come between them.  `terminals_in_step` says what always holds of
the map, `guest_follows_runner` what the agent at the other end of a connection makes of it.
-/
namespace Oathgate

open Lib

/-! ## Steps -/

/-- Where `run` is: it has filed nothing, has filed a terminal it does not show yet, or polls. -/
inductive RunnerPhase where
  | starting
  | filed (token next : Nat)
  | polling
  deriving DecidableEq, Repr

structure Runner where
  terminals : TerminalMap
  next : Nat
  phase : RunnerPhase

/-- The runner files its console, files a connection, or shows what it filed; or a user sets a size or types. -/
inductive RunnerEvent where
  | console (fails : Nat → Option Errno)
  | connect (fails : Nat → Option Errno)
  | activate (token : Nat)
  | setSize (rows cols : BitVec 16)
  | write (data : List Byte)

namespace Runner

def new : Runner := ⟨.default, 10, .starting⟩

def apply (r : Runner) : RunnerEvent → Option Runner
  | .console fails =>
    match r.phase with
    | .starting =>
      some { r with terminals := r.terminals.insert 1 (.new .pipe fails), phase := .filed 1 r.next }
    | _ => none
  | .connect fails =>
    match r.phase with
    | .polling =>
      some { r with terminals := r.terminals.insert r.next (.new .fabrial fails), phase := .filed r.next (r.next + 1) }
    | _ => none
  | .activate token =>
    match r.phase with
    | .filed filed next =>
      if token = filed then some ⟨r.terminals.setActive token, next, .polling⟩ else none
    | _ => none
  | .setSize rows cols => some { r with terminals := r.terminals.setSize rows cols }
  | .write data => some { r with terminals := (r.terminals.writeToPty data).2 }

def Step (r : Runner) (e : RunnerEvent) (r' : Runner) : Prop := r.apply e = some r'

theorem step_console {r r' : Runner} {fails : Nat → Option Errno} (h : Step r (.console fails) r') :
    r.phase = .starting ∧
      r' = { r with terminals := r.terminals.insert 1 (.new .pipe fails), phase := .filed 1 r.next } := by
  unfold Step apply at h
  cases hphase : r.phase <;> simp only [hphase] at h <;> cases h
  exact ⟨rfl, rfl⟩

theorem step_connect {r r' : Runner} {fails : Nat → Option Errno} (h : Step r (.connect fails) r') :
    r.phase = .polling ∧ r' = { r with terminals := r.terminals.insert r.next (.new .fabrial fails)
                                       phase := .filed r.next (r.next + 1) } := by
  unfold Step apply at h
  cases hphase : r.phase <;> simp only [hphase] at h <;> cases h
  exact ⟨rfl, rfl⟩

theorem step_activate {r r' : Runner} {token : Nat} (h : Step r (.activate token) r') :
    ∃ next, r.phase = .filed token next ∧ r' = ⟨r.terminals.setActive token, next, .polling⟩ := by
  unfold Step apply at h
  cases hphase : r.phase with
  | starting => simp [hphase] at h
  | polling => simp [hphase] at h
  | filed filed next =>
    simp only [hphase] at h
    split at h
    · rename_i htoken
      cases h
      exact ⟨next, by rw [htoken], rfl⟩
    · cases h

/-! ## What a run has done -/

/-- How many connections were filed. -/
def connections (es : List RunnerEvent) : Nat :=
  es.countP fun
    | .connect _ => true
    | _ => false

/-- The tokens filed: the console's, then one after another. -/
def filedTokens (es : List RunnerEvent) : List Nat :=
  (if es.any fun | .console _ => true | _ => false then [1] else []) ++ List.range' 10 (connections es)

/-- The size set last. -/
def lastSize (es : List RunnerEvent) : Winsize :=
  es.foldl (fun size e =>
    match e with
    | .setSize rows cols => ⟨rows, cols⟩
    | _ => size) ⟨24, 80⟩

/-- The terminal shown last. -/
def shown (es : List RunnerEvent) : Option Nat :=
  es.foldl (fun shown e =>
    match e with
    | .activate token => some token
    | _ => shown) none

/-- What was typed while a terminal was shown. -/
def typed (token : Nat) (es : List RunnerEvent) : List Byte :=
  (es.foldl (fun (x : Option Nat × List Byte) e =>
    match e with
    | .activate t => (some t, x.2)
    | .write data => (x.1, if x.1 = some token then x.2 ++ data else x.2)
    | _ => x) (none, [])).2

section Snoc

variable (es : List RunnerEvent) (fails : Nat → Option Errno) (token t : Nat) (rows cols : BitVec 16) (data : List Byte)

@[simp] theorem connections_console : connections (es ++ [.console fails]) = connections es := by simp [connections]

@[simp] theorem connections_connect : connections (es ++ [.connect fails]) = connections es + 1 := by
  simp [connections]

theorem filedTokens_connect :
    filedTokens (es ++ [.connect fails]) = filedTokens es ++ [10 + connections es] := by
  unfold filedTokens
  rw [connections_connect, List.range'_concat, List.any_append]
  simp

theorem filedTokens_activate : filedTokens (es ++ [.activate token]) = filedTokens es := by
  simp [filedTokens, connections]

theorem filedTokens_setSize : filedTokens (es ++ [.setSize rows cols]) = filedTokens es := by
  simp [filedTokens, connections]

theorem filedTokens_write : filedTokens (es ++ [.write data]) = filedTokens es := by
  simp [filedTokens, connections]

@[simp] theorem lastSize_setSize : lastSize (es ++ [.setSize rows cols]) = ⟨rows, cols⟩ := by simp [lastSize]

@[simp] theorem shown_activate : shown (es ++ [.activate token]) = some token := by simp [shown]

theorem typed_activate : typed token (es ++ [.activate t]) = typed token es := by simp [typed]

theorem typed_fst : (es.foldl (fun (x : Option Nat × List Byte) e =>
    match e with
    | .activate t => (some t, x.2)
    | .write data => (x.1, if x.1 = some token then x.2 ++ data else x.2)
    | _ => x) (none, [])).1 = shown es := by
  induction es using List.reverseRecOn with
  | nil => rfl
  | append_singleton es e ih =>
    simp only [shown, List.foldl_append, List.foldl_cons, List.foldl_nil] at ih ⊢
    cases e with
    | activate t => rfl
    | write data => exact ih
    | _ => exact ih

theorem typed_write : typed token (es ++ [.write data]) =
    if shown es = some token then typed token es ++ data else typed token es := by
  rw [← typed_fst es token]
  simp only [typed, List.foldl_append, List.foldl_cons, List.foldl_nil]

end Snoc

theorem filedTokens_console {es : List RunnerEvent} (h : connections es = 0) (fails : Nat → Option Errno) :
    filedTokens (es ++ [.console fails]) = [1] := by
  unfold filedTokens
  rw [connections_console, h, List.any_append]
  simp

/-! ## The map of a run -/

theorem mem_filedTokens {es : List RunnerEvent} {token : Nat} (h : token ∈ filedTokens es) :
    token = 1 ∨ (10 ≤ token ∧ token < 10 + connections es) := by
  unfold filedTokens at h
  rcases List.mem_append.1 h with h | h
  · split at h
    · exact Or.inl (List.mem_singleton.1 h)
    · cases h
  · exact Or.inr (List.mem_range'_1.1 h)

theorem nodup_filedTokens (es : List RunnerEvent) : (filedTokens es).Nodup := by
  unfold filedTokens
  refine List.nodup_append.2 ⟨?_, List.nodup_range', ?_⟩
  · split
    · simp
    · simp
  · rintro a ha b hb rfl
    have hb := (List.mem_range'_1.1 hb).1
    split at ha
    · rw [List.mem_singleton.1 ha] at hb
      omega
    · cases ha

/-- **Where a run stands**: before the console is filed, between filing a terminal and showing it, or polling. -/
def Filing (es : List RunnerEvent) (r : Runner) : Prop :=
  match r.phase with
  | .starting => filedTokens es = [] ∧ connections es = 0 ∧ shown es = none ∧ r.next = 10
  | .filed token next => (filedTokens es).getLast? = some token ∧ shown es = (filedTokens es).dropLast.getLast? ∧
      next = 10 + connections es
  | .polling => filedTokens es ≠ [] ∧ shown es = (filedTokens es).getLast? ∧ r.next = 10 + connections es

/-- **The map is what the run made it**: its tokens, the one shown, and one size for all parsers. -/
structure InStep (es : List RunnerEvent) (r : Runner) : Prop where
  filing : Filing es r
  tokens : r.terminals.tokens = filedTokens es
  active : r.terminals.active = shown es
  winsz : r.terminals.winsz = lastSize es
  sizes : ∀ x ∈ r.terminals.terminals, x.2.parser = lastSize es

theorem InStep.nodup {es : List RunnerEvent} {r : Runner} (h : InStep es r) : r.terminals.tokens.Nodup :=
  h.tokens ▸ nodup_filedTokens es

/-- The sizes after a terminal is filed under a new token. -/
theorem InStep.sizes_insert {es : List RunnerEvent} {r : Runner} (h : InStep es r) {token : Nat}
    (hnew : token ∉ r.terminals.tokens) (pty : Pty) :
    ∀ x ∈ (r.terminals.insert token pty).terminals, x.2.parser = lastSize es := by
  intro x hx
  rw [TerminalMap.terminals_insert hnew] at hx
  rcases List.mem_append.1 hx with hx | hx
  · exact h.sizes x hx
  · rw [List.mem_singleton.1 hx, ← h.winsz]
    exact Pty.parser_resizePty _ _ pty

theorem inStep_console {es : List RunnerEvent} {r r' : Runner} {fails : Nat → Option Errno} (h : InStep es r)
    (hstep : Step r (.console fails) r') : InStep (es ++ [.console fails]) r' := by
  obtain ⟨hphase, rfl⟩ := step_console hstep
  have hfiling := h.filing
  simp only [Filing, hphase] at hfiling
  obtain ⟨hnone, hconnections, hshown, hnext⟩ := hfiling
  have hnew : 1 ∉ r.terminals.tokens := by simp [h.tokens, hnone]
  have hlast : lastSize (es ++ [.console fails]) = lastSize es := by simp [lastSize]
  have hshown' : shown (es ++ [.console fails]) = none := by
    rw [← hshown]
    simp [shown]
  refine ⟨?_, ?_, ?_, ?_, ?_⟩
  · simp only [Filing, filedTokens_console hconnections, hshown', connections_console, hconnections, hnext]
    simp
  · rw [TerminalMap.tokens_insert hnew, h.tokens, hnone, filedTokens_console hconnections]
    rfl
  · exact (h.active.trans hshown).trans hshown'.symm
  · exact h.winsz.trans hlast.symm
  · rw [hlast]
    exact h.sizes_insert hnew _

/-- The next token is none of those filed. -/
theorem InStep.next_new {es : List RunnerEvent} {r : Runner} (h : InStep es r) (hphase : r.phase = .polling) :
    r.next ∉ filedTokens es := by
  have hfiling := h.filing
  simp only [Filing, hphase] at hfiling
  intro hmem
  rw [hfiling.2.2] at hmem
  have := mem_filedTokens hmem
  omega

theorem inStep_connect {es : List RunnerEvent} {r r' : Runner} {fails : Nat → Option Errno} (h : InStep es r)
    (hstep : Step r (.connect fails) r') : InStep (es ++ [.connect fails]) r' := by
  obtain ⟨hphase, rfl⟩ := step_connect hstep
  have hnew : r.next ∉ r.terminals.tokens := h.tokens ▸ h.next_new hphase
  have hfiling := h.filing
  simp only [Filing, hphase] at hfiling
  obtain ⟨hne, hshown, hnext⟩ := hfiling
  have hlast : lastSize (es ++ [.connect fails]) = lastSize es := by simp [lastSize]
  have hshown' : shown (es ++ [.connect fails]) = shown es := by simp [shown]
  refine ⟨?_, ?_, ?_, ?_, ?_⟩
  · simp only [Filing, filedTokens_connect, hshown', hshown, connections_connect, hnext]
    refine ⟨List.getLast?_concat, ?_, by omega⟩
    rw [List.dropLast_concat]
  · rw [TerminalMap.tokens_insert hnew, h.tokens, filedTokens_connect, hnext]
  · exact h.active.trans hshown'.symm
  · exact h.winsz.trans hlast.symm
  · rw [hlast]
    exact h.sizes_insert hnew _

theorem inStep_activate {es : List RunnerEvent} {r r' : Runner} {token : Nat} (h : InStep es r)
    (hstep : Step r (.activate token) r') : InStep (es ++ [.activate token]) r' := by
  obtain ⟨next, hphase, rfl⟩ := step_activate hstep
  have hfiling := h.filing
  simp only [Filing, hphase] at hfiling
  obtain ⟨hfiled, -, hnext⟩ := hfiling
  have hlast : lastSize (es ++ [.activate token]) = lastSize es := by simp [lastSize]
  have hconnections : connections (es ++ [.activate token]) = connections es := by simp [connections]
  refine ⟨?_, ?_, ?_, ?_, ?_⟩
  · simp only [Filing, filedTokens_activate, shown_activate, hconnections, hnext, hfiled, and_true]
    rintro hnil
    rw [hnil] at hfiled
    cases hfiled
  · rw [filedTokens_activate]
    exact h.tokens
  · rw [shown_activate]
    rfl
  · exact h.winsz.trans hlast.symm
  · rw [hlast]
    exact h.sizes

theorem inStep_setSize {es : List RunnerEvent} {r r' : Runner} {rows cols : BitVec 16} (h : InStep es r)
    (hstep : Step r (.setSize rows cols) r') : InStep (es ++ [.setSize rows cols]) r' := by
  cases hstep
  have hshown : shown (es ++ [.setSize rows cols]) = shown es := by simp [shown]
  have hconnections : connections (es ++ [.setSize rows cols]) = connections es := by simp [connections]
  refine ⟨?_, ?_, ?_, ?_, ?_⟩
  · have hfiling := h.filing
    simpa only [Filing, filedTokens_setSize, hshown, hconnections] using hfiling
  · rw [filedTokens_setSize, TerminalMap.tokens_setSize]
    exact h.tokens
  · rw [hshown, TerminalMap.active_setSize]
    exact h.active
  · rw [lastSize_setSize, TerminalMap.winsz_setSize]
  · rw [lastSize_setSize]
    intro x hx
    unfold TerminalMap.setSize at hx
    split at hx
    · obtain ⟨y, -, rfl⟩ := List.mem_map.1 hx
      exact Pty.parser_resizePty _ _ y.2
    · rename_i hsame
      rw [not_or, not_not, not_not] at hsame
      obtain ⟨hrows, hcols⟩ := hsame
      rw [h.sizes x hx, ← h.winsz, hrows, hcols]

theorem inStep_write {es : List RunnerEvent} {r r' : Runner} {data : List Byte} (h : InStep es r)
    (hstep : Step r (.write data) r') : InStep (es ++ [.write data]) r' := by
  cases hstep
  have hlast : lastSize (es ++ [.write data]) = lastSize es := by simp [lastSize]
  have hshown : shown (es ++ [.write data]) = shown es := by simp [shown]
  have hconnections : connections (es ++ [.write data]) = connections es := by simp [connections]
  refine ⟨?_, ?_, ?_, ?_, ?_⟩
  · have hfiling := h.filing
    simpa only [Filing, filedTokens_write, hshown, hconnections] using hfiling
  · rw [filedTokens_write, TerminalMap.tokens_writeToPty]
    exact h.tokens
  · rw [hshown, TerminalMap.active_writeToPty]
    exact h.active
  · rw [hlast, TerminalMap.winsz_writeToPty]
    exact h.winsz
  · rw [hlast]
    rintro ⟨token, pty⟩ hx
    obtain ⟨before, hbefore, rfl⟩ := (TerminalMap.mem_writeToPty h.nodup).1 hx
    have hsize := h.sizes _ hbefore
    simp only
    split
    · rw [Pty.parser_writePty]
      exact hsize
    · exact hsize

theorem inStep_step {es : List RunnerEvent} {r r' : Runner} {e : RunnerEvent} (h : InStep es r)
    (hstep : Step r e r') : InStep (es ++ [e]) r' := by
  cases e with
  | console fails => exact inStep_console h hstep
  | connect fails => exact inStep_connect h hstep
  | activate token => exact inStep_activate h hstep
  | setSize rows cols => exact inStep_setSize h hstep
  | write data => exact inStep_write h hstep

theorem inStep_run {es : List RunnerEvent} {r : Runner} (hrun : Run Step new es r) : InStep es r := by
  have hnew : InStep [] new := by
    refine ⟨?_, rfl, rfl, rfl, ?_⟩
    · exact ⟨rfl, rfl, rfl, rfl⟩
    · intro x hx
      cases hx
  exact Run.invariant (I := InStep) hnew (fun _ _ _ _ _ h hstep => inStep_step h hstep) hrun

/-- What is shown has been filed. -/
theorem InStep.shown_filed {es : List RunnerEvent} {r : Runner} (h : InStep es r) {token : Nat}
    (hshown : shown es = some token) : token ∈ filedTokens es := by
  have hfiling := h.filing
  unfold Filing at hfiling
  cases hphase : r.phase with
  | starting =>
    simp only [hphase] at hfiling
    rw [hfiling.2.2.1] at hshown
    cases hshown
  | filed filed next =>
    simp only [hphase] at hfiling
    rw [hfiling.2.1] at hshown
    exact List.dropLast_subset _ (List.mem_of_getLast? hshown)
  | polling =>
    simp only [hphase] at hfiling
    rw [hfiling.2.1] at hshown
    exact List.mem_of_getLast? hshown

/-- **One size, and always a terminal to type into.**  In every run, with users who type and set sizes between any two
holds of the lock: the terminals are the console and all connections ever made, each under a token of its own that is
none of the runner's other tokens; the one shown is the last filed, or the one before it until that is shown, so that
from the first `activate` on nothing typed is discarded; and the parser of every terminal has the size set last, also
where telling the guest failed. -/
theorem terminals_in_step {es : List RunnerEvent} {r : Runner} (hrun : Run Step new es r) :
    r.terminals.tokens = filedTokens es ∧ (filedTokens es).Nodup ∧
    (∀ token ∈ filedTokens es, token ≠ 2 ∧ token ≠ 3 ∧ token ≠ 4) ∧
    (r.terminals.active = match r.phase with
      | .starting => none
      | .filed .. => (filedTokens es).dropLast.getLast?
      | .polling => (filedTokens es).getLast?) ∧
    (r.terminals.active ≠ none → ∃ pty, r.terminals.getActive = some pty) ∧
    ∀ x ∈ r.terminals.terminals, x.2.parser = lastSize es := by
  have h := inStep_run hrun
  have hactive : r.terminals.active = match r.phase with
      | .starting => none
      | .filed .. => (filedTokens es).dropLast.getLast?
      | .polling => (filedTokens es).getLast? := by
    rw [h.active]
    have hfiling := h.filing
    unfold Filing at hfiling
    cases hphase : r.phase with
    | starting =>
      rw [hphase] at hfiling
      exact hfiling.2.2.1
    | filed token next =>
      rw [hphase] at hfiling
      exact hfiling.2.1
    | polling =>
      rw [hphase] at hfiling
      exact hfiling.2.1
  refine ⟨h.tokens, nodup_filedTokens es, ?_, hactive, ?_, h.sizes⟩
  · intro token htoken
    have := mem_filedTokens htoken
    omega
  · intro hne
    obtain ⟨token, htoken⟩ := Option.ne_none_iff_exists'.1 hne
    have hmem : token ∈ r.terminals.tokens := h.tokens ▸ h.shown_filed (h.active.symm.trans htoken)
    obtain ⟨⟨t, pty⟩, hpty, rfl⟩ := List.mem_map.1 hmem
    refine ⟨pty, ?_⟩
    unfold TerminalMap.getActive
    rw [htoken]
    exact (TerminalMap.get_eq_some h.nodup).2 hpty

theorem terminals_in_step_of_connect : ∃ r, Run Step new [.console fun _ => none, .activate 1, .setSize 50 132,
      .connect fun _ => none, .write [0x61], .activate 10] r ∧ r.terminals.active = some 10 ∧
    ∀ x ∈ r.terminals.terminals, x.2.parser = ⟨50, 132⟩ := by
  have hrun : Run Step new [.console fun _ => none, .activate 1, .setSize 50 132, .connect fun _ => none,
      .write [0x61], .activate 10] _ :=
    .cons rfl <| .cons rfl <| .cons rfl <| .cons rfl <| .cons rfl <| .cons rfl .nil
  obtain ⟨-, -, -, hactive, -, hsizes⟩ := terminals_in_step hrun
  exact ⟨_, hrun, hactive, hsizes⟩

/-! ## What a guest is told -/

/-- A window with an area, and some data of a length a message can hold. -/
def EventValid : RunnerEvent → Prop
  | .setSize rows cols => (FabrialPty.Call.resizePty rows cols).Valid
  | .write data => (FabrialPty.Call.writePty data).Valid
  | _ => True

/-- **A connection has been told all of it**: what was typed while it was shown, and last the size of the map. -/
def Told (es : List RunnerEvent) (winsz : Winsize) (token : Nat) (pty : Pty) : Prop :=
  pty.kind = .fabrial → ∃ calls, pty.Called calls ∧ (∀ c ∈ calls, c.Valid) ∧
    calls.flatMap (fun c => c.msg.payload) = typed token es ∧ (FabrialPty.resizes calls).getLast? = some winsz

/-- Every connection has been told, and nothing was typed into terminals there are not. -/
structure AllTold (es : List RunnerEvent) (r : Runner) : Prop where
  told : ∀ x ∈ r.terminals.terminals, Told es r.terminals.winsz x.1 x.2
  unfiled : ∀ token ∉ filedTokens es, typed token es = []

theorem Told.congr {es es' : List RunnerEvent} {winsz : Winsize} {token : Nat} {pty : Pty} (h : Told es winsz token pty)
    (htyped : typed token es' = typed token es) : Told es' winsz token pty := by
  unfold Told
  rw [htyped]
  exact h

theorem Told.resizePty {es : List RunnerEvent} {winsz : Winsize} {token : Nat} {pty : Pty} {rows cols : BitVec 16}
    (h : Told es winsz token pty) (hvalid : (FabrialPty.Call.resizePty rows cols).Valid) :
    Told es ⟨rows, cols⟩ token (pty.resizePty rows cols).2 := by
  intro hkind
  rw [Pty.kind_resizePty] at hkind
  obtain ⟨calls, hcalled, hcalls, hpayload, -⟩ := h hkind
  refine ⟨calls ++ [.resizePty rows cols], hcalled.resizePty hkind rows cols, ?_, ?_, ?_⟩
  · intro c hc
    rcases List.mem_append.1 hc with hc | hc
    · exact hcalls c hc
    · rw [List.mem_singleton.1 hc]
      exact hvalid
  · rw [List.flatMap_append, hpayload]
    simp [FabrialPty.Call.msg, TtyMsg.payload]
  · simp [FabrialPty.resizes]

/-- A new connection is told the size when it is filed. -/
theorem told_new {es : List RunnerEvent} {winsz : Winsize} {token : Nat} (kind : PtyKind) (fails : Nat → Option Errno)
    (htyped : typed token es = []) (hvalid : (FabrialPty.Call.resizePty winsz.rows winsz.cols).Valid) :
    Told es winsz token ((Pty.new kind fails).resizePty winsz.rows winsz.cols).2 := by
  intro hkind
  rw [Pty.kind_resizePty] at hkind
  have hnone : (Pty.new kind fails).Called [] := fun _ => rfl
  refine ⟨[.resizePty winsz.rows winsz.cols], hnone.resizePty hkind _ _, ?_, ?_, rfl⟩
  · simpa using hvalid
  · rw [htyped]
    rfl

theorem lastSize_valid {es : List RunnerEvent} (hvalid : ∀ e ∈ es, EventValid e) :
    (FabrialPty.Call.resizePty (lastSize es).rows (lastSize es).cols).Valid := by
  induction es using List.reverseRecOn with
  | nil => exact ⟨by decide, by decide⟩
  | append_singleton es e ih =>
    have hbefore := ih fun e he => hvalid e (List.mem_append_left _ he)
    have hlast := hvalid e (by simp)
    unfold lastSize at hbefore ⊢
    rw [List.foldl_append]
    cases e with
    | setSize rows cols => exact hlast
    | _ => exact hbefore

/-- Filing a terminal under a new token tells it the size, and leaves the others as they were. -/
theorem AllTold.insert {es es' : List RunnerEvent} {r : Runner} (h : AllTold es r) {token : Nat}
    (hnew : token ∉ r.terminals.tokens) (kind : PtyKind) (fails : Nat → Option Errno)
    (htyped : ∀ t, typed t es' = typed t es) (hunfiled : typed token es = [])
    (hvalid : (FabrialPty.Call.resizePty r.terminals.winsz.rows r.terminals.winsz.cols).Valid) :
    ∀ x ∈ (r.terminals.insert token (.new kind fails)).terminals, Told es' r.terminals.winsz x.1 x.2 := by
  intro x hx
  rw [TerminalMap.terminals_insert hnew] at hx
  rcases List.mem_append.1 hx with hx | hx
  · exact (h.told x hx).congr (htyped x.1)
  · rw [List.mem_singleton.1 hx]
    exact told_new kind fails ((htyped token).trans hunfiled) hvalid

theorem allTold_step {es : List RunnerEvent} {r r' : Runner} {e : RunnerEvent} (hin : InStep es r)
    (hvalid : ∀ e' ∈ es ++ [e], EventValid e') (h : AllTold es r) (hstep : Step r e r') : AllTold (es ++ [e]) r' := by
  have hsize := lastSize_valid fun e' he' => hvalid e' (List.mem_append_left [e] he')
  rw [← hin.winsz] at hsize
  have hlast := hvalid e (by simp)
  cases e with
  | console fails =>
    have htyped : ∀ t, typed t (es ++ [.console fails]) = typed t es := fun t => by simp [typed]
    obtain ⟨hphase, rfl⟩ := step_console hstep
    have hfiling := hin.filing
    simp only [Filing, hphase] at hfiling
    have hnone : ∀ t, t ∉ filedTokens es := by simp [hfiling.1]
    refine ⟨h.insert (hin.tokens ▸ hnone 1) _ _ htyped (h.unfiled 1 (hnone 1)) hsize, ?_⟩
    intro token _
    rw [htyped]
    exact h.unfiled token (hnone token)
  | connect fails =>
    have htyped : ∀ t, typed t (es ++ [.connect fails]) = typed t es := fun t => by simp [typed]
    obtain ⟨hphase, rfl⟩ := step_connect hstep
    have hnew := hin.next_new hphase
    refine ⟨h.insert (hin.tokens ▸ hnew) _ _ htyped (h.unfiled _ hnew) hsize, ?_⟩
    intro token htoken
    rw [htyped]
    rw [filedTokens_connect] at htoken
    exact h.unfiled token fun hmem => htoken (List.mem_append_left _ hmem)
  | activate token =>
    obtain ⟨next, -, rfl⟩ := step_activate hstep
    refine ⟨fun x hx => (h.told x hx).congr (typed_activate es _ _), ?_⟩
    intro t ht
    rw [filedTokens_activate] at ht
    rw [typed_activate]
    exact h.unfiled t ht
  | setSize rows cols =>
    have htyped : ∀ t, typed t (es ++ [.setSize rows cols]) = typed t es := fun t => by simp [typed]
    cases hstep
    refine ⟨?_, ?_⟩
    · intro x hx
      rw [TerminalMap.winsz_setSize]
      refine Told.congr ?_ (htyped x.1)
      unfold TerminalMap.setSize at hx
      split at hx
      · obtain ⟨y, hy, rfl⟩ := List.mem_map.1 hx
        exact (h.told y hy).resizePty hlast
      · rename_i hsame
        rw [not_or, not_not, not_not] at hsame
        have htold := h.told x hx
        rwa [show r.terminals.winsz = ⟨rows, cols⟩ by rw [hsame.1, hsame.2]] at htold
    · intro t ht
      rw [filedTokens_setSize] at ht
      rw [htyped]
      exact h.unfiled t ht
  | write data =>
    cases hstep
    refine ⟨?_, ?_⟩
    · rintro ⟨token, pty⟩ hx
      rw [TerminalMap.winsz_writeToPty]
      obtain ⟨before, hbefore, rfl⟩ := (TerminalMap.mem_writeToPty hin.nodup).1 hx
      have htold := h.told _ hbefore
      simp only
      rw [hin.active]
      by_cases hshown : shown es = some token
      · rw [if_pos hshown]
        intro hkind
        rw [Pty.kind_writePty] at hkind
        obtain ⟨calls, hcalled, hcalls, hpayload, hresizes⟩ := htold hkind
        refine ⟨calls ++ [.writePty data], hcalled.writePty hkind data, ?_, ?_, ?_⟩
        · intro c hc
          rcases List.mem_append.1 hc with hc | hc
          · exact hcalls c hc
          · rw [List.mem_singleton.1 hc]
            exact hlast
        · rw [typed_write, if_pos hshown, List.flatMap_append, hpayload]
          simp [FabrialPty.Call.msg, TtyMsg.payload]
        · simpa [FabrialPty.resizes] using hresizes
      · rw [if_neg hshown]
        refine htold.congr ?_
        rw [typed_write, if_neg hshown]
    · intro token htoken
      rw [filedTokens_write] at htoken
      have hshown : shown es ≠ some token := fun hshown => htoken (hin.shown_filed hshown)
      rw [typed_write, if_neg hshown]
      exact h.unfiled token htoken

theorem allTold_run {es : List RunnerEvent} {r : Runner} (hvalid : ∀ e ∈ es, EventValid e) (hrun : Run Step new es r) :
    AllTold es r := by
  have hnew : (∀ e ∈ [], EventValid e) → AllTold [] new := by
    rintro -
    refine ⟨?_, fun token _ => rfl⟩
    intro x hx
    cases hx
  refine Run.invariant (I := fun es r => (∀ e ∈ es, EventValid e) → AllTold es r) hnew ?_ hrun hvalid
  intro done r e r' hreached h hstep hvalid
  refine allTold_step (inStep_run hreached) hvalid (h fun e' he' => hvalid e' ?_) hstep
  exact List.mem_append_left _ he'

/-- **What is typed reaches the guest that is shown, and its window has the size of the map.**  In every run with valid
sizes and keys, and for every connection filed that has not failed: however its bytes arrive at the agent, as long as no
round of the agent is cut inside a message, the terminal of the guest gets a prefix of what was typed while the
connection was shown and nothing else; once the agent has read everything it has got all of it, and the size it set
last is the one of the map. -/
theorem guest_follows_runner {es : List RunnerEvent} {r : Runner} (hvalid : ∀ e ∈ es, EventValid e)
    (hrun : Run Step new es r) {token : Nat} {pty : Pty} (hpty : (token, pty) ∈ r.terminals.terminals)
    (hkind : pty.kind = .fabrial) (hhealthy : pty.out.Healthy) {cuts : Nat → Cut} {actions : List SocketAction}
    {t : SockTTY Delivery}
    (hagent : Run SockTTY.UncutStep ⟨⟨[], pty.out.sent.flatten, cuts⟩, [], []⟩ actions t) :
    t.written <+: typed token es ∧
    (t.client.stream = [] → t.written = typed token es ∧ t.sizes.getLast? = some r.terminals.winsz) := by
  obtain ⟨calls, hcalled, hcalls, hpayload, hresizes⟩ := (allTold_run hvalid hrun).told _ hpty hkind
  have hwf : ∀ m ∈ calls.map FabrialPty.Call.msg, m.WellFormed := by
    intro m hm
    obtain ⟨c, hc, rfl⟩ := List.mem_map.1 hm
    exact (hcalls c hc).wellFormed
  have hsent : pty.out.sent.flatten = SockTTY.wire (calls.map FabrialPty.Call.msg) := by
    rw [hcalled hhealthy, ← FabrialPty.sent_eq]
    rfl
  have htyped : (calls.map FabrialPty.Call.msg).flatMap TtyMsg.payload = typed token es := by
    rw [← hpayload, List.flatMap_map]
  rw [hsent] at hagent
  have hstands := SockTTY.stands_run hwf hagent
  refine ⟨?_, fun hempty => ?_⟩
  · obtain ⟨done, rest, hsplit, -, hwritten, -⟩ := hstands
    rw [hwritten, ← htyped, hsplit, List.flatMap_append]
    exact List.prefix_append _ _
  · obtain ⟨hwritten, hsizes⟩ := hstands.finished hempty
    rw [hwritten, hsizes, htyped, ← FabrialPty.resizes_eq]
    exact ⟨rfl, hresizes⟩

/-- A guest whose connection was filed and shown, and into which a letter was typed. -/
def letterTyped : List RunnerEvent :=
  [.console fun _ => none, .activate 1, .connect fun _ => none, .activate 10, .write [0x61]]

/-- The connection to that guest, and what its agent gets at once. -/
def letterPty : Pty := ⟨.fabrial, ⟨24, 80⟩, ⟨[[0x02, 24, 0, 80, 0], [0x01, 1, 0], [0x61]], 3, fun _ => none⟩⟩

def letterAgent : SockTTY Delivery :=
  ⟨⟨[], letterPty.out.sent.flatten, fun _ => ⟨9, SockTTY.bufferSize⟩⟩, [], []⟩

theorem guest_follows_runner_of_letter : ∃ r t, Run Step new letterTyped r ∧
    (10, letterPty) ∈ r.terminals.terminals ∧
    Run SockTTY.UncutStep letterAgent [.continue_, .writeToTTY] t ∧
    t.written = [0x61] ∧ t.sizes.getLast? = some ⟨24, 80⟩ := by
  have hvalid : ∀ e ∈ letterTyped, EventValid e := by
    intro e he
    simp only [letterTyped, List.mem_cons, List.not_mem_nil, or_false] at he
    rcases he with rfl | rfl | rfl | rfl | rfl
    · trivial
    · trivial
    · trivial
    · trivial
    · exact ⟨by decide, by decide⟩
  have hrun : Run Step new letterTyped ⟨⟨[(1, Pty.new .pipe fun _ => none), (10, letterPty)], ⟨24, 80⟩, some 10⟩,
      11, .polling⟩ :=
    .cons rfl <| .cons rfl <| .cons rfl <| .cons rfl <| .cons rfl .nil
  have hmem : (10, letterPty) ∈ [(1, Pty.new .pipe fun _ => none), (10, letterPty)] := by simp
  have hfirst : SockTTY.Uncut letterAgent := by
    -- the first receive finds the whole stream
    intro m rest hm hstream
    rcases SockTTY.uncut_arrivedWhole 9 letterAgent.client.stream [] [] m rest hm (by rw [← hstream]; rfl) with h | h
    · exact Or.inl h
    · refine Or.inr ?_
      cases m with
      | data d => exact h
      | resize size => exact h
  have hagent : Run SockTTY.UncutStep letterAgent [.continue_, .writeToTTY] _ :=
    .cons ⟨hfirst, rfl⟩ <| .cons ⟨SockTTY.uncut_arrivedWhole 9 _ _ _, rfl⟩ .nil
  have hfollows := guest_follows_runner hvalid hrun hmem rfl (fun _ _ => rfl) hagent
  obtain ⟨hwritten, hsizes⟩ := hfollows.2 rfl
  exact ⟨_, _, hrun, hmem, hagent, hwritten, hsizes⟩

end Runner
end Oathgate
