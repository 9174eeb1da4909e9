import Oathgate.CmdHost
import Oathgate.LibRun
/-!
# CmdFork — a process in the background (`oathgate`: `fork.rs`)

`Forker::fork` forks twice, so that its work runs in a process that leads no session, and the caller reads that process's
pid from a pipe.  Caller, child and worker run side by side, every call of theirs may fail, and SIGTERM may come at any
time.  `fork_hands_over_worker` says what the caller can rely on, and when it waits for ever.
-/
namespace Oathgate

open Lib

/-! ## The three processes -/

/-- A process, as far as its session and SIGTERM go. -/
structure Proc where
  pid : Pid
  session : Pid
  blocked : Bool
  waits : Bool

/-- The new process of a `fork`: the session and the signal mask are the parent's, no signal waits. -/
def Proc.forked (pid : Pid) (p : Proc) : Proc := { p with pid, waits := false }

/-- The calls of `Forker::fork`, in the caller. -/
inductive ForkCall where
  | block
  | signalfd
  | pipe
  | fork
  | unblock
  | read
  deriving DecidableEq, Repr

inductive CallerPc where
  | making (call : ForkCall)
  | refused (call : ForkCall)
  | told (pid : Pid)
  | killed

/-- `run_child`, in the first child; `failed` sleeps before it exits. -/
inductive ChildPc where
  | setsid
  | fork
  | write (pid : Pid)
  | failed
  | exited (code : Int)
  | killed

/-- `run_grandchild`, and the exit after it. -/
inductive WorkerPc where
  | starting
  | working
  | finished (code : Int)
  | exited (code : Int)
  | killed

structure Child extends Proc where
  pc : ChildPc

structure Worker extends Proc where
  pc : WorkerPc

/-- SIGTERM waits where it is blocked; otherwise it kills. -/
def Child.term (c : Child) : Child := if c.blocked then { c with waits := true } else { c with pc := .killed }

def Worker.term (w : Worker) : Worker := if w.blocked then { w with waits := true } else { w with pc := .killed }

theorem Child.term_of_blocked {c : Child} (h : c.blocked = true) : c.term = { c with waits := true } := if_pos h

/-- Who has the pipe's write end open: `fork` has it until it returns, `run_child` until it returns in both processes. -/
def CallerPc.holdsPipe : CallerPc → Bool
  | .making .fork => true
  | .making .unblock => true
  | .making .read => true
  | _ => false

def ChildPc.holdsPipe : ChildPc → Bool
  | .setsid => true
  | .fork => true
  | .write _ => true
  | _ => false

def WorkerPc.holdsPipe : WorkerPc → Bool
  | .starting => true
  | .working => true
  | _ => false

structure Forking where
  caller : Proc
  callerPc : CallerPc
  child : Option Child
  worker : Option Worker
  pipe : List Byte

/-- One of the processes makes its next call, which fails (`none`) or is granted; the new process of a `fork` gets the
pid that comes with the grant.  Or someone sends SIGTERM. -/
inductive ForkEvent where
  | caller (granted : Option Pid)
  | child (granted : Option Pid)
  | worker (granted : Option Pid)
  | sigterm (pid : Pid)

namespace Forking

def new (pid session : Pid) : Forking :=
  { caller := ⟨pid, session, false, false⟩, callerPc := .making .block, child := none, worker := none, pipe := [] }

/-- A pid the kernel may give a new process. -/
def unused (s : Forking) (pid : Pid) : Bool :=
  decide (pid ≠ s.caller.pid) && decide (pid ≠ s.caller.session) && s.child.all fun c => decide (pid ≠ c.pid)

def writable (s : Forking) : Bool :=
  s.callerPc.holdsPipe || s.child.any (fun c => c.pc.holdsPipe) || s.worker.any fun w => w.pc.holdsPipe

/-- `read` of the caller into its four zeros: it blocks while the pipe is empty and may be written. -/
def readPipe (s : Forking) : Option (List Byte) :=
  if s.pipe = [] ∧ s.writable = true then none
  else some (s.pipe.take 4 ++ List.replicate (4 - (s.pipe.take 4).length) 0)

/-- `Forker::fork` in the caller, one call on. -/
def callerStep (s : Forking) (granted : Option Pid) : Option Forking :=
  match s.callerPc, granted with
  | .making call, none => some { s with callerPc := .refused call }
  | .making .block, some _ =>
    some { s with caller := { s.caller with blocked := true }, callerPc := .making .signalfd }
  | .making .signalfd, some _ => some { s with callerPc := .making .pipe }
  | .making .pipe, some _ => some { s with callerPc := .making .fork }
  | .making .fork, some pid =>
    if s.unused pid then some { s with child := some ⟨s.caller.forked pid, .setsid⟩, callerPc := .making .unblock }
    else none
  -- a signal that waits comes when it is unblocked
  | .making .unblock, some _ =>
    some { s with
      caller := { s.caller with blocked := false }
      callerPc := if s.caller.waits then .killed else .making .read }
  | .making .read, some _ =>
    s.readPipe.map fun buf => { s with pipe := s.pipe.drop 4, callerPc := .told (le32At buf 0) }
  | _, _ => none

/-- `run_child` and the exit after it, one call on. -/
def childStep (s : Forking) (granted : Option Pid) : Option Forking :=
  match s.child with
  | none => none
  | some c =>
    match c.pc, granted with
    | .setsid, some _ => some { s with child := some { c with session := c.pid, pc := .fork } }
    | .fork, some pid =>
      if s.unused pid then
        some { s with
          child := some { c with pc := .write pid }
          worker := some ⟨c.toProc.forked pid, .starting⟩ }
      else none
    | .write pid, some _ =>
      some { s with child := some { c with pc := .exited 0 }, pipe := s.pipe ++ toLe32 pid }
    | .setsid, none => some { s with child := some { c with pc := .failed } }
    | .fork, none => some { s with child := some { c with pc := .failed } }
    | .write _, none => some { s with child := some { c with pc := .failed } }
    | .failed, _ => some { s with child := some { c with pc := .exited (-1) } }
    | _, _ => none

/-- `run_grandchild` and the exit after it: what is done before the work may fail and is not looked at. -/
def workerStep (s : Forking) (granted : Option Pid) : Option Forking :=
  match s.worker with
  | none => none
  | some w =>
    match w.pc, granted with
    | .starting, _ => some { s with worker := some { w with pc := .working } }
    | .working, some _ => some { s with worker := some { w with pc := .finished 0 } }
    | .working, none => some { s with worker := some { w with pc := .finished (-1) } }
    | .finished code, _ => some { s with worker := some { w with pc := .exited code } }
    | _, _ => none

def termCaller (s : Forking) : Forking :=
  if s.caller.blocked then { s with caller := { s.caller with waits := true } } else { s with callerPc := .killed }

def apply (s : Forking) : ForkEvent → Option Forking
  | .caller granted => s.callerStep granted
  | .child granted => s.childStep granted
  | .worker granted => s.workerStep granted
  | .sigterm pid =>
    if pid = s.caller.pid then some s.termCaller
    else some { s with
      child := s.child.map fun c => if pid = c.pid then c.term else c
      worker := s.worker.map fun w => if pid = w.pid then w.term else w }

def Step (s : Forking) (e : ForkEvent) (t : Forking) : Prop := s.apply e = some t

/-! ## What stands between the processes -/

/-- What a child has left behind it: the worker it made, and what it wrote for the caller. -/
def Handed (pc : ChildPc) (worker : Option Worker) (pipe : List Byte) : Prop :=
  match pc with
  | .setsid => worker = none ∧ pipe = []
  | .fork => worker = none ∧ pipe = []
  | .write pid => pipe = [] ∧ ∃ w, worker = some w ∧ w.pid = pid
  | .failed => pipe = []
  | .exited code => if code = 0 then ∃ w, worker = some w ∧ (pipe = [] ∨ pipe = toLe32 w.pid) else pipe = []
  | .killed => False

/-- What the caller finds when it comes to its next call. -/
def Finds (pc : CallerPc) (child : Option Child) (worker : Option Worker) (pipe : List Byte) : Prop :=
  match pc with
  | .making .unblock => ∃ c, child = some c ∧ (c.pc = .exited 0 → pipe ≠ [])
  | .making .read => ∃ c, child = some c ∧ (c.pc = .exited 0 → pipe ≠ [])
  | .making _ => child = none
  | .told pid => (∃ c, child = some c ∧ c.pc = .exited 0) ∧ ∃ w, worker = some w ∧ w.pid = pid
  | .refused _ => True
  | .killed => True

/-- Whether the caller's SIGTERM is blocked. -/
def masked : CallerPc → Bool
  | .making call => decide (call ≠ .block) && decide (call ≠ .read)
  | .refused call => decide (call ≠ .block) && decide (call ≠ .read)
  | .told _ => false
  | .killed => false

/-- A worker in the session of the child, where SIGTERM waits. -/
structure Daemon (caller : Pid) (child : Option Child) (w : Worker) : Prop where
  blocked : w.blocked = true
  pc : w.pc ≠ .killed
  caller : w.pid ≠ caller
  session : ∃ c, child = some c ∧ w.session = c.pid ∧ w.pid ≠ c.pid

/-- **The invariant** of the three processes and the pipe. -/
structure Sound (s : Forking) : Prop where
  mask : s.caller.blocked = masked s.callerPc
  finds : Finds s.callerPc s.child s.worker s.pipe
  childless : s.child = none → s.worker = none ∧ s.pipe = []
  handed : ∀ c, s.child = some c → Handed c.pc s.worker s.pipe
  child : ∀ c, s.child = some c → c.blocked = true ∧ c.pid ≠ s.caller.pid ∧ c.pid ≠ s.caller.session
  leads : ∀ c, s.child = some c → c.pc = .fork → c.session = c.pid
  worker : ∀ w, s.worker = some w → Daemon s.caller.pid s.child w

theorem sound_new (pid session : Pid) : Sound (new pid session) where
  mask := rfl
  finds := rfl
  childless := fun _ => ⟨rfl, rfl⟩
  handed := nofun
  child := nofun
  leads := nofun
  worker := nofun

/-- The pipe is empty unless the child wrote the worker's pid and ended well. -/
theorem Handed.of_pipe {pc : ChildPc} {worker : Option Worker} {pipe : List Byte} (h : Handed pc worker pipe)
    (hne : pipe ≠ []) : pc = .exited 0 ∧ ∃ w, worker = some w ∧ pipe = toLe32 w.pid := by
  cases pc with
  | setsid => exact absurd h.2 hne
  | fork => exact absurd h.2 hne
  | write pid => exact absurd h.1 hne
  | failed => exact absurd h hne
  | killed => exact h.elim
  | exited code =>
    unfold Handed at h
    simp only at h
    split at h
    · rename_i hcode
      obtain ⟨w, hw, hpipe⟩ := h
      exact ⟨by rw [hcode], w, hw, hpipe.resolve_left hne⟩
    · exact absurd h hne

/-- **A read that comes back has the worker's pid**: the caller's own end keeps an empty pipe open. -/
theorem Sound.read {s : Forking} (h : Sound s) (hpc : s.callerPc = .making .read) {buf : List Byte}
    (hbuf : s.readPipe = some buf) : ∃ c w, s.child = some c ∧ c.pc = .exited 0 ∧ s.worker = some w ∧
      s.pipe = toLe32 w.pid ∧ buf = toLe32 w.pid := by
  have hwritable : s.writable = true := by
    unfold writable
    rw [hpc]
    rfl
  have hne : s.pipe ≠ [] := by
    intro hnil
    unfold readPipe at hbuf
    rw [if_pos ⟨hnil, hwritable⟩] at hbuf
    cases hbuf
  have hfinds := h.finds
  rw [hpc] at hfinds
  obtain ⟨c, hc, -⟩ := hfinds
  obtain ⟨hexit, w, hw, hpipe⟩ := (h.handed c hc).of_pipe hne
  refine ⟨c, w, hc, hexit, hw, hpipe, ?_⟩
  unfold readPipe at hbuf
  rw [if_neg fun hand => hne hand.1, hpipe] at hbuf
  exact (Option.some.inj hbuf).symm

theorem sound_caller {s t : Forking} {granted : Option Pid} (h : Sound s) (hstep : s.callerStep granted = some t) :
    Sound t := by
  have hread := @Sound.read s h
  obtain ⟨hmask, hfinds, hchildless, hhanded, hchild, hleads, hworker⟩ := h
  unfold callerStep at hstep
  split at hstep
  · rename_i call hpc
    obtain rfl := Option.some.inj hstep
    rw [hpc] at hmask
    exact ⟨hmask, trivial, hchildless, hhanded, hchild, hleads, hworker⟩
  · rename_i pid hpc
    obtain rfl := Option.some.inj hstep
    rw [hpc] at hfinds
    exact ⟨rfl, hfinds, hchildless, hhanded, hchild, hleads, hworker⟩
  · rename_i pid hpc
    obtain rfl := Option.some.inj hstep
    rw [hpc] at hmask hfinds
    exact ⟨hmask, hfinds, hchildless, hhanded, hchild, hleads, hworker⟩
  · rename_i pid hpc
    obtain rfl := Option.some.inj hstep
    rw [hpc] at hmask hfinds
    exact ⟨hmask, hfinds, hchildless, hhanded, hchild, hleads, hworker⟩
  · rename_i pid hpc
    split at hstep
    · rename_i hunused
      obtain rfl := Option.some.inj hstep
      rw [hpc] at hmask hfinds
      obtain ⟨hnoworker, hpipe⟩ := hchildless hfinds
      unfold unused at hunused
      simp only [ne_eq, Bool.and_eq_true, decide_eq_true_eq] at hunused
      refine ⟨hmask, ⟨_, rfl, nofun⟩, nofun, ?_, ?_, ?_, ?_⟩
      · rintro c ⟨⟩
        exact ⟨hnoworker, hpipe⟩
      · rintro c ⟨⟩
        exact ⟨hmask, hunused.1.1, hunused.1.2⟩
      · rintro c ⟨⟩ hfork
        cases hfork
      · intro w hw
        rw [show s.worker = some w from hw] at hnoworker
        cases hnoworker
    · cases hstep
  · rename_i pid hpc
    obtain rfl := Option.some.inj hstep
    rw [hpc] at hfinds
    cases hwaits : s.caller.waits with
    | true => exact ⟨by simp [masked], by simp [Finds], hchildless, hhanded, hchild, hleads, hworker⟩
    | false => exact ⟨by simp [masked], hfinds, hchildless, hhanded, hchild, hleads, hworker⟩
  · rename_i pid hpc
    obtain ⟨buf, hbuf, rfl⟩ := Option.map_eq_some_iff.mp hstep
    obtain ⟨c, w, hc, hexit, hw, hpipe, rfl⟩ := hread hpc hbuf
    rw [hpc] at hmask
    have htold : le32At (toLe32 w.pid) 0 = w.pid := by
      have := le32At_toLe32 w.pid []
      rwa [List.append_nil] at this
    have hempty : s.pipe.drop 4 = [] := by
      rw [hpipe]
      rfl
    refine ⟨hmask, ⟨⟨c, hc, hexit⟩, w, hw, htold.symm⟩, fun hnone => ?_, fun d hd => ?_, hchild, hleads, hworker⟩
    · rw [show s.child = none from hnone] at hc
      cases hc
    · obtain rfl := Option.some.inj (hc.symm.trans hd)
      rw [hexit]
      exact ⟨w, hw, Or.inl hempty⟩
  · cases hstep

/-- A child that goes on to a call it has not made yet keeps its worker's session. -/
theorem Daemon.child {caller : Pid} {c d : Child} {w : Worker} (h : Daemon caller (some c) w) (hpid : d.pid = c.pid) :
    Daemon caller (some d) w := by
  refine ⟨h.blocked, h.pc, h.caller, d, rfl, ?_⟩
  obtain ⟨e, he, hsession, hne⟩ := h.session
  obtain rfl := Option.some.inj he
  rw [hpid]
  exact ⟨hsession, hne⟩

/-- The caller waits for a child that has not written anything. -/
theorem Finds.child {pc : CallerPc} {c d : Child} {worker worker' : Option Worker} {pipe pipe' : List Byte}
    (h : Finds pc (some c) worker pipe) (hworker : ∀ w, worker = some w → ∃ w', worker' = some w' ∧ w'.pid = w.pid)
    (hkept : c.pc = .exited 0 → d.pc = .exited 0)
    (hd : d.pc = .exited 0 → (c.pc = .exited 0 → pipe ≠ []) → pipe' ≠ []) : Finds pc (some d) worker' pipe' := by
  cases pc with
  | making call =>
    cases call with
    | unblock =>
      obtain ⟨_, ⟨⟩, hc⟩ := h
      exact ⟨d, rfl, fun hexit => hd hexit hc⟩
    | read =>
      obtain ⟨_, ⟨⟩, hc⟩ := h
      exact ⟨d, rfl, fun hexit => hd hexit hc⟩
    | block => cases h
    | signalfd => cases h
    | pipe => cases h
    | fork => cases h
  | refused call => trivial
  | killed => trivial
  | told pid =>
    obtain ⟨⟨_, ⟨⟩, hexit⟩, w, hw, hpid⟩ := h
    obtain ⟨w', hw', hpid'⟩ := hworker w hw
    exact ⟨⟨d, rfl, hkept hexit⟩, w', hw', hpid'.trans hpid⟩

/-- A step of the child that changes its own record and nothing else. -/
theorem Sound.set_child {s : Forking} (h : Sound s) {c d : Child} (hc : s.child = some c) (hpid : d.pid = c.pid)
    (hblocked : d.blocked = c.blocked) (hhanded : Handed d.pc s.worker s.pipe)
    (hleads : d.pc = .fork → d.session = d.pid) (hexit : d.pc = .exited 0 ↔ c.pc = .exited 0) :
    Sound { s with child := some d } := by
  have hfinds := h.finds
  rw [hc] at hfinds
  refine ⟨h.mask, hfinds.child (fun w hw => ⟨w, hw, rfl⟩) hexit.mpr fun hd hne => hne (hexit.mp hd), nofun, ?_, ?_, ?_, ?_⟩
  · rintro _ ⟨⟩
    exact hhanded
  · rintro _ ⟨⟩
    rw [hblocked, hpid]
    exact h.child c hc
  · rintro _ ⟨⟩
    exact hleads
  · intro w hw
    have hdaemon := h.worker w hw
    rw [hc] at hdaemon
    exact hdaemon.child hpid

theorem sound_child {s t : Forking} {granted : Option Pid} (h : Sound s) (hstep : s.childStep granted = some t) :
    Sound t := by
  unfold childStep at hstep
  split at hstep
  · cases hstep
  rename_i c hc
  have hhanded := h.handed c hc
  split at hstep
  · rename_i pid hpc
    obtain rfl := Option.some.inj hstep
    rw [hpc] at hhanded
    exact h.set_child hc rfl rfl hhanded (fun _ => rfl) (by simp [hpc])
  · rename_i pid hpc
    split at hstep
    · rename_i hunused
      obtain rfl := Option.some.inj hstep
      rw [hpc] at hhanded
      obtain ⟨hnoworker, hpipe⟩ := hhanded
      obtain ⟨hblocked, hcaller, hsession⟩ := h.child c hc
      unfold unused at hunused
      rw [hc] at hunused
      simp only [ne_eq, Option.all_some, Bool.and_eq_true, decide_eq_true_eq] at hunused
      have hfinds := h.finds
      rw [hc, hnoworker] at hfinds
      refine ⟨h.mask, hfinds.child nofun (fun hexit => by rw [hpc] at hexit; cases hexit) nofun, nofun, ?_, ?_, ?_, ?_⟩
      · rintro _ ⟨⟩
        exact ⟨hpipe, _, rfl, rfl⟩
      · rintro _ ⟨⟩
        exact ⟨hblocked, hcaller, hsession⟩
      · rintro _ ⟨⟩ hfork
        cases hfork
      · rintro _ ⟨⟩
        exact ⟨hblocked, nofun, hunused.1.1, _, rfl, h.leads c hc hpc, hunused.2⟩
    · cases hstep
  · rename_i pid answer hpc
    obtain rfl := Option.some.inj hstep
    rw [hpc] at hhanded
    obtain ⟨hpipe, w, hw, rfl⟩ := hhanded
    have hne : s.pipe ++ toLe32 w.pid ≠ [] := List.append_ne_nil_of_right_ne_nil _ nofun
    have hfinds := h.finds
    rw [hc] at hfinds
    refine ⟨h.mask, hfinds.child (fun w hw => ⟨w, hw, rfl⟩) (fun _ => rfl) fun _ _ => hne, nofun, ?_, ?_, ?_, ?_⟩
    · rintro _ ⟨⟩
      exact ⟨w, hw, Or.inr (by rw [hpipe, List.nil_append])⟩
    · rintro _ ⟨⟩
      exact h.child c hc
    · rintro _ ⟨⟩ hfork
      cases hfork
    · intro w' hw'
      have hdaemon := h.worker w' hw'
      rw [hc] at hdaemon
      exact hdaemon.child rfl
  · rename_i hpc
    obtain rfl := Option.some.inj hstep
    rw [hpc] at hhanded
    exact h.set_child hc rfl rfl hhanded.2 nofun (by simp [hpc])
  · rename_i hpc
    obtain rfl := Option.some.inj hstep
    rw [hpc] at hhanded
    exact h.set_child hc rfl rfl hhanded.2 nofun (by simp [hpc])
  · rename_i pid hpc
    obtain rfl := Option.some.inj hstep
    rw [hpc] at hhanded
    exact h.set_child hc rfl rfl hhanded.1 nofun (by simp [hpc])
  · rename_i answer hpc
    obtain rfl := Option.some.inj hstep
    rw [hpc] at hhanded
    exact h.set_child hc rfl rfl hhanded nofun (by simp [hpc])
  · cases hstep

theorem Finds.worker {pc : CallerPc} {child : Option Child} {w v : Worker} {pipe : List Byte}
    (h : Finds pc child (some w) pipe) (hpid : v.pid = w.pid) : Finds pc child (some v) pipe := by
  cases pc with
  | making call =>
    cases call with
    | unblock => exact h
    | read => exact h
    | block => exact h
    | signalfd => exact h
    | pipe => exact h
    | fork => exact h
  | refused call => trivial
  | killed => trivial
  | told pid =>
    obtain ⟨hchild, _, ⟨⟩, hw⟩ := h
    exact ⟨hchild, v, rfl, hpid.trans hw⟩

theorem Handed.worker {pc : ChildPc} {w v : Worker} {pipe : List Byte} (h : Handed pc (some w) pipe)
    (hpid : v.pid = w.pid) : Handed pc (some v) pipe := by
  cases pc with
  | setsid => cases h.1
  | fork => cases h.1
  | write pid =>
    obtain ⟨hpipe, _, ⟨⟩, hw⟩ := h
    exact ⟨hpipe, v, rfl, hpid.trans hw⟩
  | failed => exact h
  | killed => exact h
  | exited code =>
    unfold Handed at h ⊢
    simp only at h ⊢
    split at h
    · rename_i hcode
      obtain ⟨_, ⟨⟩, hpipe⟩ := h
      rw [if_pos hcode]
      exact ⟨v, rfl, by rwa [hpid]⟩
    · rename_i hcode
      rw [if_neg hcode]
      exact h

/-- A step of the worker, whose pid stays. -/
theorem Sound.set_worker {s : Forking} (h : Sound s) {w v : Worker} (hw : s.worker = some w)
    (hv : Daemon s.caller.pid s.child v) (hpid : v.pid = w.pid) : Sound { s with worker := some v } := by
  have hfinds := h.finds
  rw [hw] at hfinds
  refine ⟨h.mask, hfinds.worker hpid, ?_, ?_, h.child, h.leads, ?_⟩
  · intro hnone
    obtain ⟨hnoworker, -⟩ := h.childless hnone
    rw [hw] at hnoworker
    cases hnoworker
  · intro c hc
    have hhanded := h.handed c hc
    rw [hw] at hhanded
    exact hhanded.worker hpid
  · rintro _ ⟨⟩
    exact hv

theorem sound_worker {s t : Forking} {granted : Option Pid} (h : Sound s) (hstep : s.workerStep granted = some t) :
    Sound t := by
  unfold workerStep at hstep
  split at hstep
  · cases hstep
  rename_i w hw
  have hdaemon := h.worker w hw
  split at hstep
  · obtain rfl := Option.some.inj hstep
    exact h.set_worker hw ⟨hdaemon.blocked, nofun, hdaemon.caller, hdaemon.session⟩ rfl
  · obtain rfl := Option.some.inj hstep
    exact h.set_worker hw ⟨hdaemon.blocked, nofun, hdaemon.caller, hdaemon.session⟩ rfl
  · obtain rfl := Option.some.inj hstep
    exact h.set_worker hw ⟨hdaemon.blocked, nofun, hdaemon.caller, hdaemon.session⟩ rfl
  · obtain rfl := Option.some.inj hstep
    exact h.set_worker hw ⟨hdaemon.blocked, nofun, hdaemon.caller, hdaemon.session⟩ rfl
  · cases hstep

theorem Daemon.term {caller : Pid} {child : Option Child} {w : Worker} (h : Daemon caller child w) :
    w.term = { w with waits := true } := if_pos h.blocked

theorem sound_sigterm {s t : Forking} {pid : Pid} (h : Sound s) (hstep : s.apply (.sigterm pid) = some t) :
    Sound t := by
  unfold apply at hstep
  simp only at hstep
  split at hstep
  · obtain rfl := Option.some.inj hstep
    unfold termCaller
    split
    · exact ⟨h.mask, h.finds, h.childless, h.handed, h.child, h.leads, h.worker⟩
    · rename_i hblocked
      exact ⟨by simpa [masked] using hblocked, trivial, h.childless, h.handed, h.child, h.leads, h.worker⟩
  · obtain rfl := Option.some.inj hstep
    cases hc : s.child with
    | none =>
      obtain ⟨hw, -⟩ := h.childless hc
      rw [hw]
      have hsame : { s with child := none, worker := none } = s := by rw [← hc, ← hw]
      exact hsame ▸ h
    | some c =>
      obtain ⟨hblocked, -⟩ := h.child c hc
      have hsound : Sound { s with child := some (if pid = c.pid then c.term else c) } := by
        split
        · rw [Child.term_of_blocked hblocked]
          exact h.set_child hc rfl rfl (h.handed c hc) (h.leads c hc) Iff.rfl
        · exact h.set_child hc rfl rfl (h.handed c hc) (h.leads c hc) Iff.rfl
      cases hw : s.worker with
      | none =>
        rw [hw] at hsound
        exact hsound
      | some w =>
        have hdaemon := hsound.worker w hw
        simp only [Option.map_some]
        by_cases hpid : pid = w.pid
        · rw [if_pos hpid, hdaemon.term]
          exact hsound.set_worker hw ⟨hdaemon.blocked, hdaemon.pc, hdaemon.caller, hdaemon.session⟩ rfl
        · rw [if_neg hpid]
          exact hsound.set_worker hw hdaemon rfl

theorem sound_step {s t : Forking} {e : ForkEvent} (h : Sound s) (hstep : Step s e t) : Sound t := by
  cases e with
  | caller granted => exact sound_caller h hstep
  | child granted => exact sound_child h hstep
  | worker granted => exact sound_worker h hstep
  | sigterm pid => exact sound_sigterm h hstep

theorem sound_run {s t : Forking} {es : List ForkEvent} (h : Sound s) (hrun : Run Step s es t) : Sound t :=
  hrun.invariant (I := fun _ t => Sound t) h fun _ _ _ _ _ ht hstep => sound_step ht hstep

/-! ## What no step takes back -/

/-- The child has ended, or is about to, without a word to the caller. -/
def Lost (s : Forking) : Prop := ∃ c, s.child = some c ∧ (c.pc = .failed ∨ c.pc = .exited (-1))

/-- A caller that has come to its read and has no answer. -/
def Waiting : CallerPc → Prop
  | .making call => call = .read
  | .refused call => call = .read
  | .killed => True
  | .told _ => False

theorem Lost.not_exited {s : Forking} (h : s.Lost) {c : Child} (hc : s.child = some c) : c.pc ≠ .exited 0 := by
  intro hexit
  obtain ⟨d, hd, hlost⟩ := h
  obtain rfl := Option.some.inj (hc.symm.trans hd)
  rw [hexit] at hlost
  simp at hlost

/-- What a step keeps: the worker there is, a child that is lost, and a caller that waits for a lost child. -/
structure Keeps (s t : Forking) : Prop where
  worker : ∀ w, s.worker = some w → ∃ w', t.worker = some w' ∧ w'.pid = w.pid
  lost : s.Lost → t.Lost
  waiting : s.Lost → Waiting s.callerPc → Waiting t.callerPc

theorem keeps_caller {s t : Forking} {granted : Option Pid} (h : Sound s) (hstep : s.callerStep granted = some t) :
    Keeps s t := by
  have hfinds := h.finds
  have hread := @Sound.read s h
  unfold callerStep at hstep
  split at hstep
  · rename_i call hpc
    obtain rfl := Option.some.inj hstep
    exact ⟨fun w hw => ⟨w, hw, rfl⟩, id, fun _ => by rw [hpc]; exact id⟩
  · rename_i pid hpc
    obtain rfl := Option.some.inj hstep
    exact ⟨fun w hw => ⟨w, hw, rfl⟩, id, fun _ => by rw [hpc]; nofun⟩
  · rename_i pid hpc
    obtain rfl := Option.some.inj hstep
    exact ⟨fun w hw => ⟨w, hw, rfl⟩, id, fun _ => by rw [hpc]; nofun⟩
  · rename_i pid hpc
    obtain rfl := Option.some.inj hstep
    exact ⟨fun w hw => ⟨w, hw, rfl⟩, id, fun _ => by rw [hpc]; nofun⟩
  · rename_i pid hpc
    split at hstep
    · obtain rfl := Option.some.inj hstep
      rw [hpc] at hfinds
      refine ⟨fun w hw => ⟨w, hw, rfl⟩, ?_, fun _ => by rw [hpc]; nofun⟩
      rintro ⟨c, hc, -⟩
      rw [show s.child = none from hfinds] at hc
      cases hc
    · cases hstep
  · rename_i pid hpc
    obtain rfl := Option.some.inj hstep
    exact ⟨fun w hw => ⟨w, hw, rfl⟩, id, fun _ => by rw [hpc]; nofun⟩
  · rename_i pid hpc
    obtain ⟨buf, hbuf, rfl⟩ := Option.map_eq_some_iff.mp hstep
    obtain ⟨c, w, hc, hexit, -⟩ := hread hpc hbuf
    exact ⟨fun w hw => ⟨w, hw, rfl⟩, id, fun hlost => absurd hexit (hlost.not_exited hc)⟩
  · cases hstep

/-- A step of a lost child is its exit. -/
theorem keeps_child {s t : Forking} {granted : Option Pid} (h : Sound s) (hstep : s.childStep granted = some t) :
    Keeps s t := by
  unfold childStep at hstep
  split at hstep
  · cases hstep
  rename_i c hc
  have hhanded := h.handed c hc
  have hlost : s.Lost → c.pc = .failed ∨ c.pc = .exited (-1) := by
    rintro ⟨d, hd, hpc⟩
    rwa [Option.some.inj (hc.symm.trans hd)]
  split at hstep
  · rename_i pid hpc
    obtain rfl := Option.some.inj hstep
    rw [hpc] at hlost
    exact ⟨fun w hw => ⟨w, hw, rfl⟩, fun h => by simpa using hlost h, fun _ => id⟩
  · rename_i pid hpc
    split at hstep
    · obtain rfl := Option.some.inj hstep
      rw [hpc] at hhanded hlost
      refine ⟨fun w hw => ?_, fun h => by simpa using hlost h, fun _ => id⟩
      rw [hhanded.1] at hw
      cases hw
    · cases hstep
  · rename_i pid answer hpc
    obtain rfl := Option.some.inj hstep
    rw [hpc] at hlost
    exact ⟨fun w hw => ⟨w, hw, rfl⟩, fun h => by simpa using hlost h, fun _ => id⟩
  · obtain rfl := Option.some.inj hstep
    exact ⟨fun w hw => ⟨w, hw, rfl⟩, fun _ => ⟨_, rfl, Or.inl rfl⟩, fun _ => id⟩
  · obtain rfl := Option.some.inj hstep
    exact ⟨fun w hw => ⟨w, hw, rfl⟩, fun _ => ⟨_, rfl, Or.inl rfl⟩, fun _ => id⟩
  · obtain rfl := Option.some.inj hstep
    exact ⟨fun w hw => ⟨w, hw, rfl⟩, fun _ => ⟨_, rfl, Or.inl rfl⟩, fun _ => id⟩
  · obtain rfl := Option.some.inj hstep
    exact ⟨fun w hw => ⟨w, hw, rfl⟩, fun _ => ⟨_, rfl, Or.inr rfl⟩, fun _ => id⟩
  · cases hstep

theorem keeps_worker {s t : Forking} {granted : Option Pid} (hstep : s.workerStep granted = some t) : Keeps s t := by
  unfold workerStep at hstep
  split at hstep
  · cases hstep
  rename_i w hw
  have hkept (v : Worker) (hpid : v.pid = w.pid) : Keeps s { s with worker := some v } := by
    refine ⟨fun w' hw' => ⟨v, rfl, ?_⟩, id, fun _ => id⟩
    rwa [← Option.some.inj (hw.symm.trans hw')]
  split at hstep
  · obtain rfl := Option.some.inj hstep
    exact hkept _ rfl
  · obtain rfl := Option.some.inj hstep
    exact hkept _ rfl
  · obtain rfl := Option.some.inj hstep
    exact hkept _ rfl
  · obtain rfl := Option.some.inj hstep
    exact hkept _ rfl
  · cases hstep

theorem keeps_sigterm {s t : Forking} {pid : Pid} (h : Sound s) (hstep : s.apply (.sigterm pid) = some t) :
    Keeps s t := by
  unfold apply at hstep
  simp only at hstep
  split at hstep
  · obtain rfl := Option.some.inj hstep
    unfold termCaller
    split
    · exact ⟨fun w hw => ⟨w, hw, rfl⟩, id, fun _ => id⟩
    · exact ⟨fun w hw => ⟨w, hw, rfl⟩, id, fun _ _ => trivial⟩
  · obtain rfl := Option.some.inj hstep
    refine ⟨?_, ?_, fun _ => id⟩
    · intro w hw
      refine ⟨_, by rw [hw]; rfl, ?_⟩
      simp only
      split
      · rw [(h.worker w hw).term]
      · rfl
    · rintro ⟨c, hc, hpc⟩
      obtain ⟨hblocked, -⟩ := h.child c hc
      refine ⟨_, by rw [hc]; rfl, ?_⟩
      simp only
      split
      · rw [Child.term_of_blocked hblocked]
        exact hpc
      · exact hpc

theorem keeps_step {s t : Forking} {e : ForkEvent} (h : Sound s) (hstep : Step s e t) : Keeps s t := by
  cases e with
  | caller granted => exact keeps_caller h hstep
  | child granted => exact keeps_child h hstep
  | worker granted => exact keeps_worker hstep
  | sigterm pid => exact keeps_sigterm h hstep

theorem keeps_run {s t : Forking} {es : List ForkEvent} (h : Sound s) (hrun : Run Step s es t) : Keeps s t := by
  induction hrun with
  | nil => exact ⟨fun w hw => ⟨w, hw, rfl⟩, id, fun _ => id⟩
  | snoc hrun hstep ih =>
    have hkeeps := keeps_step (sound_run h hrun) hstep
    refine ⟨fun w hw => ?_, fun hlost => hkeeps.lost (ih.lost hlost),
      fun hlost hwaits => hkeeps.waiting (ih.lost hlost) (ih.waiting hlost hwaits)⟩
    obtain ⟨w', hw', hpid'⟩ := ih.worker w hw
    obtain ⟨w'', hw'', hpid''⟩ := hkeeps.worker w' hw'
    exact ⟨w'', hw'', hpid''.trans hpid'⟩

/-- **A waiting caller can be told exactly when the child has ended well.** -/
theorem Sound.answered_iff {s : Forking} (h : Sound s) (hpc : s.callerPc = .making .read) (any : Pid) :
    (∃ t, Step s (.caller (some any)) t) ↔ ∃ c, s.child = some c ∧ c.pc = .exited 0 := by
  have hstep : s.apply (.caller (some any)) =
      s.readPipe.map fun buf => { s with pipe := s.pipe.drop 4, callerPc := .told (le32At buf 0) } := by
    simp only [apply, callerStep, hpc]
  constructor
  · rintro ⟨t, ht⟩
    unfold Step at ht
    rw [hstep] at ht
    obtain ⟨buf, hbuf, -⟩ := Option.map_eq_some_iff.mp ht
    obtain ⟨c, w, hc, hexit, -⟩ := h.read hpc hbuf
    exact ⟨c, hc, hexit⟩
  · rintro ⟨c, hc, hexit⟩
    have hfinds := h.finds
    rw [hpc, hc] at hfinds
    obtain ⟨_, ⟨⟩, hne⟩ := hfinds
    have hbuf : s.readPipe = some (s.pipe.take 4 ++ List.replicate (4 - (s.pipe.take 4).length) 0) :=
      if_neg fun hand => hne hexit hand.1
    exact ⟨_, hstep.trans (congrArg _ hbuf)⟩

/-! ## What a command sees -/

/-- What `fork` returned. -/
def result : CallerPc → Option (Res AppError Pid)
  | .making _ => none
  | .refused _ => some (.err .errno)
  | .told pid => some (.ok pid)
  | .killed => none

def isTold : CallerPc → Bool
  | .told _ => true
  | _ => false

/-- The processes as a command's environment has them: the worker that was started, and whether the caller knows. -/
def outcome (s : Forking) : Option Fork := s.worker.map fun w => ⟨w.pid, isTold s.callerPc⟩

/-- **A command sees the processes as `Host.fork` does.** -/
theorem Sound.host_fork {s : Forking} (h : Sound s) {r : Res AppError Pid} (hr : result s.callerPc = some r) {env : Env}
    (henv : env.fork = s.outcome) (host : Host) :
    host.fork env = (r, { host with alive := (s.worker.map fun w => w.pid).toList ++ host.alive }) := by
  unfold Host.fork
  rw [henv]
  unfold outcome
  cases hpc : s.callerPc with
  | making call =>
    rw [hpc] at hr
    cases hr
  | killed =>
    rw [hpc] at hr
    cases hr
  | refused call =>
    rw [hpc] at hr
    obtain rfl := Option.some.inj hr
    cases s.worker with
    | none => rfl
    | some w => rfl
  | told pid =>
    rw [hpc] at hr
    obtain rfl := Option.some.inj hr
    have hfinds := h.finds
    rw [hpc] at hfinds
    obtain ⟨-, w, hw, rfl⟩ := hfinds
    rw [hw]
    rfl

/-- **Whichever calls of `Forker::fork` fail, in whatever order the processes run and whenever SIGTERM comes**: the pid
its caller is told is that of the worker the child made, which no later step takes back, where SIGTERM is blocked and
never kills, in a session that is not the caller's and that it does not lead; a caller that has come to its read is told exactly when
the child ended well, and from when the child ends otherwise it waits for ever or until its read is interrupted, its own
end of the pipe keeping it there; SIGTERM stays blocked exactly in a caller whose call fails between blocking and
unblocking it; and what a command sees is the environment `Host.fork` works on. -/
theorem fork_hands_over_worker {pid session : Pid} {es : List ForkEvent} {s : Forking}
    (hrun : Run Step (new pid session) es s) :
    (∀ p, s.callerPc = .told p → ∀ es' t, Run Step s es' t → ∃ w, t.worker = some w ∧ w.pid = p) ∧
    (∀ w, s.worker = some w → w.blocked = true ∧ w.pc ≠ .killed ∧ w.session ≠ w.pid ∧ w.session ≠ s.caller.session) ∧
    (s.callerPc = .making .read →
      ∀ any, (∃ t, Step s (.caller (some any)) t) ↔ ∃ c, s.child = some c ∧ c.pc = .exited 0) ∧
    (s.Lost → Waiting s.callerPc → ∀ es' t, Run Step s es' t → t.Lost ∧ Waiting t.callerPc) ∧
    (∀ r, result s.callerPc = some r →
      (s.caller.blocked = true ↔ ∃ call, s.callerPc = .refused call ∧ call ≠ .block ∧ call ≠ .read) ∧
      ∀ env (host : Host), env.fork = s.outcome →
        host.fork env = (r, { host with alive := (s.worker.map fun w => w.pid).toList ++ host.alive })) := by
  have h : Sound s := sound_run (sound_new pid session) hrun
  refine ⟨?_, ?_, fun hpc any => h.answered_iff hpc any, ?_, fun r hr => ⟨?_, fun env host henv => h.host_fork hr henv host⟩⟩
  · intro p hpc es' t hrun'
    have hfinds := h.finds
    rw [hpc] at hfinds
    obtain ⟨-, w, hw, rfl⟩ := hfinds
    exact (keeps_run h hrun').worker w hw
  · intro w hw
    obtain ⟨hblocked, hpc, -, c, hc, hsession, hne⟩ := h.worker w hw
    rw [hsession]
    exact ⟨hblocked, hpc, hne.symm, (h.child c hc).2.2⟩
  · intro hlost hwaits es' t hrun'
    have hkeeps := keeps_run h hrun'
    exact ⟨hkeeps.lost hlost, hkeeps.waiting hlost hwaits⟩
  · rw [h.mask]
    cases hpc : s.callerPc with
    | making call =>
      rw [hpc] at hr
      cases hr
    | killed =>
      rw [hpc] at hr
      cases hr
    | told pid => simp [masked]
    | refused call => simp [masked]

/-- The kernel grants everything but the second `fork`. -/
def forkRefused : List ForkEvent :=
  [.caller (some 1), .caller (some 1), .caller (some 1), .caller (some 101), .caller (some 1), .child (some 1), .child none]

theorem fork_hands_over_worker_of_refusal : ∃ s, Run Step (new 100 99) forkRefused s ∧ s.callerPc = .making .read ∧
    s.Lost ∧ ∀ es' t, Run Step s es' t → t.Lost ∧ Waiting t.callerPc := by
  have hrun : Run Step (new 100 99) forkRefused _ :=
    .cons rfl (.cons rfl (.cons rfl (.cons rfl (.cons rfl (.cons rfl (.single rfl))))))
  obtain ⟨-, -, -, hlost, -⟩ := fork_hands_over_worker hrun
  exact ⟨_, hrun, rfl, ⟨_, rfl, Or.inl rfl⟩, hlost ⟨_, rfl, Or.inl rfl⟩ rfl⟩

end Forking
end Oathgate
