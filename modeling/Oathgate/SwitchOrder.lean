import Oathgate.SwitchThreads
/-!
# SwitchOrder — what arrives at a port, and from which (`oathgate-bridge`: `net/switch.rs`, `process`)

`Traffic` is what threads that call `process` at the same time leave on the ports, with a record of the port each frame
came from.  A thread's call is a sequence of atomic steps, so that the calls of two threads have no order; `step_passes`
says what one step does to the frames on their way from one port to another, and from it every port receives the frames
of each other one in the order they were sent.
-/
namespace Oathgate

open Lib

namespace VirtioSwitch

/-- The frame of a buffer that `process` takes. -/
def accepted (pkt : List Byte) : Option EthernetPacket :=
  match enter pkt with
  | .read pkt => some pkt
  | _ => none

namespace Pc

/-- The frame of a call that goes on. -/
def frame : Pc → Option EthernetPacket
  | .idle => none
  | .read pkt => some pkt
  | .write pkt => some pkt
  | .lock pkt => some pkt
  | .lookup pkt => some pkt
  | .send pkt _ => some pkt

/-- What the call may still enqueue on the port. -/
def coming (q : Nat) : Pc → List EthernetPacket
  | .idle => []
  | .read pkt => [pkt]
  | .write pkt => [pkt]
  | .lock pkt => [pkt]
  | .lookup pkt => [pkt]
  | .send pkt targets => if q ∈ targets then [pkt] else []

/-- What the next step enqueues, and on which port. -/
def enqueues : Pc → Option (Nat × EthernetPacket)
  | .send pkt (q :: _) => some (q, pkt)
  | _ => none

end Pc

/-- Threads that call `process`, with what was enqueued on each port and by which port's thread. -/
structure Traffic where
  threads : Threads
  arrivals : Nat → List (Nat × EthernetPacket)

namespace Traffic

open Threads (Event)

def init : Traffic := ⟨Threads.init, fun _ => []⟩

/-- The record after the next step of a thread. -/
def recorded (t : Traffic) (p : Nat) : Nat → List (Nat × EthernetPacket) :=
  match (t.threads.pc p).enqueues with
  | some (q, pkt) => Function.update t.arrivals q (t.arrivals q ++ [(p, pkt)])
  | none => t.arrivals

/-- A device is connected with an empty queue. -/
def Step (t : Traffic) (e : Event) (t' : Traffic) : Prop :=
  Threads.Step t.threads e t'.threads ∧
    match e with
    | .connect dev => dev = [] ∧ t'.arrivals = t.arrivals
    | .call _ _ => t'.arrivals = t.arrivals
    | .step p => t'.arrivals = t.recorded p

def connected (t : Traffic) : Traffic :=
  ⟨{ t.threads with switch := (t.threads.switch.connect []).2 }, t.arrivals⟩

def called (t : Traffic) (p : Nat) (pkt : List Byte) : Traffic :=
  ⟨{ t.threads with pc := Function.update t.threads.pc p (enter pkt) }, t.arrivals⟩

def advanced (t : Traffic) (p : Nat) : Traffic :=
  ⟨⟨(t.threads.switch.advance p (t.threads.pc p)).1,
    Function.update t.threads.pc p (t.threads.switch.advance p (t.threads.pc p)).2⟩, t.recorded p⟩

theorem step_connect {t : Traffic} (h : ∀ p, (t.threads.pc p).locked = false) : Step t (.connect []) t.connected :=
  ⟨⟨h, rfl⟩, rfl, rfl⟩

theorem step_call {t : Traffic} {p : Nat} {pkt : List Byte} (hp : p < t.threads.switch.ports.length)
    (hidle : t.threads.pc p = .idle) : Step t (.call p pkt) (t.called p pkt) := ⟨⟨hp, hidle, rfl⟩, rfl⟩

theorem step_thread {t : Traffic} {p : Nat} (h : t.threads.pc p ≠ .idle) : Step t (.step p) (t.advanced p) :=
  ⟨⟨h, rfl⟩, rfl⟩

/-- The frames a port's thread has given to the switch, of those it takes. -/
def given (es : List Event) (p : Nat) : List EthernetPacket :=
  (Run.callsOf p (es.flatMap Event.calls)).filterMap accepted

/-- The frames from one port that have arrived at the other, and the one that may still. -/
def passed (t : Traffic) (p q : Nat) : List EthernetPacket :=
  Run.callsOf p (t.arrivals q) ++ (t.threads.pc p).coming q

theorem threads_run {es : List Event} {t : Traffic} (hrun : Run Step init es t) :
    Run Threads.Step Threads.init es t.threads := by
  induction hrun with
  | nil => exact .nil
  | snoc _ hstep ih => exact ih.snoc hstep.1

/-! ## One step -/

theorem given_append (es es' : List Event) (p : Nat) : given (es ++ es') p = given es p ++ given es' p := by
  unfold given
  rw [List.flatMap_append, Run.callsOf_append, List.filterMap_append]

theorem given_singleton (e : Event) (p : Nat) : given [e] p = (Run.callsOf p e.calls).filterMap accepted := by
  unfold given
  rw [List.flatMap_singleton]

theorem coming_enter (q : Nat) (pkt : List Byte) : (enter pkt).coming q = (accepted pkt).toList := by
  unfold accepted
  rcases accepted_or_rejected pkt with ⟨frame, payload, rfl⟩ | h
  · rw [enter_wire]
    rfl
  · rw [enter_rejected h]
    rfl

theorem frame_enter (pkt : List Byte) : (enter pkt).frame = accepted pkt := by
  unfold accepted
  rcases accepted_or_rejected pkt with ⟨frame, payload, rfl⟩ | h
  · rw [enter_wire]
    rfl
  · rw [enter_rejected h]
    rfl

/-- A call delivers to connected ports, to each once. -/
def Aimed (t : Traffic) : Prop :=
  ∀ p pkt qs, t.threads.pc p = .send pkt qs → qs.Nodup ∧ ∀ q ∈ qs, q < t.threads.switch.ports.length

theorem targets_aimed (s : VirtioSwitch) (p : Nat) (pkt : EthernetPacket) :
    (s.targets p pkt).Nodup ∧ ∀ q ∈ s.targets p pkt, q < s.ports.length := by
  unfold targets
  split
  · unfold others
    refine ⟨List.Pairwise.filter _ List.nodup_range, fun q hq => ?_⟩
    exact List.mem_range.1 (List.mem_filter.1 hq).1
  · split
    · split
      · rename_i hlt
        exact ⟨by simp, fun q hq => by rwa [List.mem_singleton.1 hq]⟩
      · exact ⟨.nil, by simp⟩
    · exact ⟨.nil, by simp⟩

theorem aimed_step {t t' : Traffic} {e : Event} (h : Aimed t) (hstep : Step t e t') : Aimed t' := by
  obtain ⟨hthreads, -⟩ := hstep
  intro p pkt qs hpc
  cases e with
  | connect dev =>
    obtain ⟨-, hσ⟩ := hthreads
    rw [hσ] at hpc ⊢
    obtain ⟨hnodup, hlt⟩ := h p pkt qs hpc
    refine ⟨hnodup, fun q hq => Nat.lt_of_lt_of_le (hlt q hq) ?_⟩
    simp [connect]
  | call p' bytes =>
    obtain ⟨-, -, hσ⟩ := hthreads
    rw [hσ] at hpc ⊢
    by_cases hp : p = p'
    · subst hp
      simp only [Function.update_self] at hpc
      rcases accepted_or_rejected bytes with ⟨frame, payload, rfl⟩ | hrej
      · rw [enter_wire] at hpc
        cases hpc
      · rw [enter_rejected hrej] at hpc
        cases hpc
    · simp only [Function.update_of_ne hp] at hpc
      exact h p pkt qs hpc
  | step p' =>
    obtain ⟨-, hσ⟩ := hthreads
    rw [hσ] at hpc ⊢
    simp only [Threads.length_ports_advance]
    by_cases hp : p = p'
    · subst hp
      simp only [Function.update_self] at hpc
      cases hbefore : t.threads.pc p with
      | idle => rw [hbefore] at hpc; cases hpc
      | read pkt' =>
        rw [hbefore] at hpc
        simp only [advance] at hpc
        split at hpc <;> cases hpc
      | write pkt' => rw [hbefore] at hpc; cases hpc
      | lock pkt' => rw [hbefore] at hpc; cases hpc
      | lookup pkt' =>
        rw [hbefore] at hpc
        cases hpc
        exact targets_aimed _ _ _
      | send pkt' targets =>
        rw [hbefore] at hpc
        cases targets with
        | nil => cases hpc
        | cons r rs =>
          cases hpc
          obtain ⟨hnodup, hlt⟩ := h p _ _ hbefore
          exact ⟨(List.nodup_cons.1 hnodup).2, fun q hq => hlt q (List.mem_cons_of_mem _ hq)⟩
    · simp only [Function.update_of_ne hp] at hpc
      exact h p pkt qs hpc

theorem length_ports_step {t t' : Traffic} {e : Event} (hstep : Step t e t') :
    t.threads.switch.ports.length ≤ t'.threads.switch.ports.length := by
  obtain ⟨hthreads, -⟩ := hstep
  cases e with
  | connect dev =>
    obtain ⟨-, hσ⟩ := hthreads
    rw [hσ]
    simp [connect]
  | call p bytes =>
    obtain ⟨-, -, hσ⟩ := hthreads
    rw [hσ]
  | step p =>
    obtain ⟨-, hσ⟩ := hthreads
    rw [hσ]
    exact Nat.le_of_eq (Threads.length_ports_advance _ _ _).symm

/-- **What a step of a thread does to its own frames on their way to a port**: they are the same before and after, but
for one that turns out not to go there. -/
theorem advance_passes {t : Traffic} (h : Aimed t) (p q : Nat) {s' : VirtioSwitch} {pc' : Pc}
    (hadv : t.threads.switch.advance p (t.threads.pc p) = (s', pc')) :
    Run.callsOf p (t.recorded p q) ++ pc'.coming q = t.passed p q ∨
      ∃ pkt, t.threads.pc p = .lookup pkt ∧ q ∉ t.threads.switch.targets p pkt ∧
        Run.callsOf p (t.recorded p q) ++ pc'.coming q ++ [pkt] = t.passed p q := by
  unfold passed recorded
  cases hpc : t.threads.pc p with
  | idle => rw [hpc] at hadv; cases hadv; exact Or.inl rfl
  | read pkt =>
    rw [hpc] at hadv
    simp only [advance] at hadv
    left
    split at hadv <;> cases hadv <;> rfl
  | write pkt => rw [hpc] at hadv; cases hadv; exact Or.inl rfl
  | lock pkt => rw [hpc] at hadv; cases hadv; exact Or.inl rfl
  | lookup pkt =>
    rw [hpc] at hadv
    cases hadv
    by_cases hq : q ∈ t.threads.switch.targets p pkt
    · left
      simp [Pc.coming, Pc.enqueues, hq]
    · right
      refine ⟨pkt, rfl, hq, ?_⟩
      simp [Pc.coming, Pc.enqueues, hq]
  | send pkt targets =>
    rw [hpc] at hadv
    left
    cases targets with
    | nil =>
      cases hadv
      simp [Pc.coming, Pc.enqueues]
    | cons r rs =>
      cases hadv
      by_cases hq : q = r
      · -- the frame is enqueued, and will not be again
        subst hq
        have hout : q ∉ rs := (List.nodup_cons.1 (h p pkt (q :: rs) hpc).1).1
        simp [Pc.coming, Pc.enqueues, hout, Run.callsOf_singleton]
      · simp [Pc.coming, Pc.enqueues, hq]

theorem callsOf_recorded {t : Traffic} {p p' : Nat} (hp : p ≠ p') (q : Nat) :
    Run.callsOf p (t.recorded p' q) = Run.callsOf p (t.arrivals q) := by
  unfold recorded
  cases (t.threads.pc p').enqueues with
  | none => rfl
  | some x =>
    obtain ⟨r, pkt⟩ := x
    by_cases hq : q = r
    · subst hq
      simp [Run.callsOf_singleton, Ne.symm hp]
    · simp [hq]

/-- **What an event does to the frames on their way from one port to another**: those a call brings come behind the
others, and only one that turns out not to go there is gone. -/
theorem step_passes {t t' : Traffic} {e : Event} (h : Aimed t) (hstep : Step t e t') (p q : Nat) :
    t'.passed p q = t.passed p q ++ given [e] p ∨
      ∃ pkt, t.threads.pc p = .lookup pkt ∧ q ∉ t.threads.switch.targets p pkt ∧ given [e] p = [] ∧
        t'.passed p q ++ [pkt] = t.passed p q := by
  obtain ⟨hthreads, harrivals⟩ := hstep
  rw [given_singleton]
  cases e with
  | connect dev =>
    obtain ⟨-, hσ⟩ := hthreads
    left
    unfold passed
    rw [hσ, harrivals.2]
    exact (List.append_nil _).symm
  | call p' bytes =>
    obtain ⟨-, hidle, hσ⟩ := hthreads
    left
    unfold passed
    rw [hσ, show t'.arrivals = t.arrivals from harrivals]
    by_cases hp : p = p'
    · subst hp
      have hgiven : (Run.callsOf p (Event.call p bytes).calls).filterMap accepted = (accepted bytes).toList := by
        simp only [Event.calls, Run.callsOf_singleton, if_true, List.filterMap_cons, List.filterMap_nil]
        cases accepted bytes <;> rfl
      simp only [Function.update_self]
      rw [hgiven, coming_enter, hidle]
      simp [Pc.coming]
    · simp [Event.calls, Run.callsOf_singleton, hp, Ne.symm hp]
  | step p' =>
    obtain ⟨-, hσ⟩ := hthreads
    have harr : t'.arrivals = t.recorded p' := harrivals
    by_cases hp : p = p'
    · subst hp
      obtain ⟨s', pc', hadv⟩ : ∃ s' pc', t.threads.switch.advance p (t.threads.pc p) = (s', pc') := ⟨_, _, rfl⟩
      have hpassed : t'.passed p q = Run.callsOf p (t.recorded p q) ++ pc'.coming q := by
        unfold passed
        rw [harr, hσ, hadv]
        simp
      rw [hpassed]
      rcases advance_passes h p q hadv with hsame | ⟨pkt, hpc, hout, hgone⟩
      · left
        rw [hsame]
        exact (List.append_nil _).symm
      · exact Or.inr ⟨pkt, hpc, hout, rfl, hgone⟩
    · left
      unfold passed
      rw [harr, hσ, callsOf_recorded hp]
      simp [Event.calls, Function.update_of_ne hp]

/-! ## Runs -/

/-- **The record is what is on the ports.** -/
structure Recorded (t : Traffic) : Prop where
  ports : ∀ q dev, t.threads.switch.ports[q]? = some dev → dev = (t.arrivals q).map Prod.snd
  later : ∀ q, t.threads.switch.ports.length ≤ q → t.arrivals q = []

theorem recorded_enqueue {t t' : Traffic} (h : Recorded t) {p r : Nat} {pkt : EthernetPacket}
    (hr : r < t.threads.switch.ports.length) (hswitch : t'.threads.switch = t.threads.switch.enqueue r pkt)
    (harrivals : t'.arrivals = Function.update t.arrivals r (t.arrivals r ++ [(p, pkt)])) : Recorded t' := by
  refine ⟨?_, ?_⟩
  · intro q dev hdev
    rw [hswitch, getElem?_ports_enqueue] at hdev
    rw [harrivals]
    by_cases hq : q = r
    · subst hq
      rw [if_pos rfl, Option.map_eq_some_iff] at hdev
      obtain ⟨before, hbefore, rfl⟩ := hdev
      rw [Function.update_self, List.map_append, ← h.ports q before hbefore]
      rfl
    · rw [if_neg hq] at hdev
      rw [Function.update_of_ne hq]
      exact h.ports q dev hdev
  · intro q hq
    rw [hswitch, length_ports_enqueue] at hq
    rw [harrivals, Function.update_of_ne (by omega)]
    exact h.later q hq

theorem recorded_step {t t' : Traffic} {e : Event} (haimed : Aimed t) (h : Recorded t) (hstep : Step t e t') :
    Recorded t' := by
  obtain ⟨hthreads, harrivals⟩ := hstep
  cases e with
  | connect dev =>
    obtain ⟨-, hσ⟩ := hthreads
    obtain ⟨rfl, harr⟩ := harrivals
    refine ⟨?_, ?_⟩
    · intro q dev hdev
      rw [hσ] at hdev
      rw [harr]
      simp only [connect] at hdev
      rw [List.getElem?_append] at hdev
      split at hdev
      · exact h.ports q dev hdev
      · rename_i hq
        rw [h.later q (Nat.not_lt.1 hq)]
        have hnil := List.mem_singleton.1 (List.mem_of_getElem? hdev)
        rw [hnil]
        rfl
    · intro q hq
      rw [hσ] at hq
      rw [harr]
      simp only [connect, List.length_append] at hq
      exact h.later q (by omega)
  | call p bytes =>
    obtain ⟨-, -, hσ⟩ := hthreads
    have harr : t'.arrivals = t.arrivals := harrivals
    refine ⟨?_, ?_⟩
    · rw [hσ, harr]
      exact h.ports
    · rw [hσ, harr]
      exact h.later
  | step p =>
    obtain ⟨-, hσ⟩ := hthreads
    have harr : t'.arrivals = t.recorded p := harrivals
    unfold recorded at harr
    have hsame : (t.threads.pc p).enqueues = none → t'.threads.switch.ports = t.threads.switch.ports → Recorded t' := by
      intro hnone hports
      rw [hnone] at harr
      refine ⟨?_, ?_⟩
      · rw [hports, harr]
        exact h.ports
      · rw [hports, harr]
        exact h.later
    cases hpc : t.threads.pc p with
    | send pkt targets =>
      cases targets with
      | nil => exact hsame (by rw [hpc]; rfl) (by rw [hσ, hpc]; rfl)
      | cons r rs =>
        rw [hpc] at harr
        have hr := (haimed p pkt (r :: rs) hpc).2 r List.mem_cons_self
        exact recorded_enqueue h hr (by rw [hσ, hpc]; rfl) harr
    | _ => exact hsame (by rw [hpc]; rfl) (by rw [hσ, hpc]; rfl)

/-- **Frames keep their order**: those from one port at another, and the one on its way, are some of those sent, in
order. -/
structure InOrder (es : List Event) (t : Traffic) : Prop where
  aimed : Aimed t
  recorded : Recorded t
  order : ∀ p q, (t.passed p q).Sublist (given es p)

theorem inOrder_step {es : List Event} {t t' : Traffic} {e : Event} (h : InOrder es t) (hstep : Step t e t') :
    InOrder (es ++ [e]) t' := by
  refine ⟨aimed_step h.aimed hstep, recorded_step h.aimed h.recorded hstep, ?_⟩
  intro p q
  rw [given_append]
  rcases step_passes h.aimed hstep p q with hpassed | ⟨pkt, -, -, hnone, hgone⟩
  · rw [hpassed]
    exact List.Sublist.append (h.order p q) (List.Sublist.refl _)
  · rw [hnone, List.append_nil]
    refine (List.sublist_append_left _ [pkt]).trans ?_
    rw [hgone]
    exact h.order p q

theorem inOrder_run {es : List Event} {t : Traffic} (hrun : Run Step init es t) : InOrder es t := by
  have hinit : InOrder [] init := by
    refine ⟨?_, ⟨?_, fun _ _ => rfl⟩, fun _ _ => List.Sublist.refl _⟩
    · intro p pkt qs hpc
      cases hpc
    · intro q dev hdev
      cases hdev
  exact Run.invariant (I := InOrder) hinit (fun _ _ _ _ _ h hstep => inOrder_step h hstep) hrun

/-! ## Where frames go -/

/-- **A frame may be enqueued there**: a broadcast anywhere but where it came from, any other frame where a frame from
the address it is for was sent. -/
def Due (es : List Event) (p q : Nat) (pkt : EthernetPacket) : Prop :=
  if pkt.frame.dst.isBroadcast then p ≠ q else ∃ pkt' ∈ given es q, pkt'.frame.src = pkt.frame.dst

/-- **Nothing goes where it is not due**, and the table holds what was sent. -/
structure Learned (es : List Event) (t : Traffic) : Prop where
  held : ∀ p pkt, (t.threads.pc p).frame = some pkt → pkt ∈ given es p
  cache : ∀ mac q, t.threads.switch.getPort mac = some q → ∃ pkt ∈ given es q, pkt.frame.src = mac
  aimed : ∀ p pkt qs, t.threads.pc p = .send pkt qs → ∀ q ∈ qs, Due es p q pkt
  arrived : ∀ p q pkt, (p, pkt) ∈ t.arrivals q → Due es p q pkt

theorem mem_given_snoc {es : List Event} {e : Event} {p : Nat} {pkt : EthernetPacket} (h : pkt ∈ given es p) :
    pkt ∈ given (es ++ [e]) p := by
  rw [given_append]
  exact List.mem_append_left _ h

theorem due_snoc {es : List Event} {e : Event} {p q : Nat} {pkt : EthernetPacket} (h : Due es p q pkt) :
    Due (es ++ [e]) p q pkt := by
  unfold Due at h ⊢
  split
  · rename_i hbcast
    rwa [if_pos hbcast] at h
  · rename_i hbcast
    rw [if_neg hbcast] at h
    obtain ⟨pkt', hmem, hsrc⟩ := h
    exact ⟨pkt', mem_given_snoc hmem, hsrc⟩

/-- **The ports a lookup yields are due**, as the table is. -/
theorem due_targets {es : List Event} {s : VirtioSwitch}
    (hcache : ∀ mac q, s.getPort mac = some q → ∃ pkt ∈ given es q, pkt.frame.src = mac) (p : Nat)
    (pkt : EthernetPacket) : ∀ q ∈ s.targets p pkt, Due es p q pkt := by
  intro q hq
  unfold targets at hq
  unfold Due
  split at hq
  · rename_i hbcast
    rw [if_pos hbcast]
    unfold others at hq
    have hne := (List.mem_filter.1 hq).2
    exact Ne.symm (of_decide_eq_true hne)
  · rename_i hbcast
    rw [if_neg hbcast]
    split at hq
    · rename_i port hport
      split at hq
      · rw [List.mem_singleton.1 hq]
        exact hcache _ _ hport
      · cases hq
    · cases hq

theorem Learned.mono {es : List Event} {e : Event} {t : Traffic} (h : Learned es t) : Learned (es ++ [e]) t where
  held p pkt hpc := mem_given_snoc (h.held p pkt hpc)
  cache mac q hport := by
    obtain ⟨pkt, hmem, hsrc⟩ := h.cache mac q hport
    exact ⟨pkt, mem_given_snoc hmem, hsrc⟩
  aimed p pkt qs hpc q hq := due_snoc (h.aimed p pkt qs hpc q hq)
  arrived p q pkt hmem := due_snoc (h.arrived p q pkt hmem)

/-- **A step of a thread keeps to what is due.** -/
theorem learned_advance {es : List Event} {t t' : Traffic} {p : Nat} (h : Learned es t) {s' : VirtioSwitch} {pc' : Pc}
    (hadv : t.threads.switch.advance p (t.threads.pc p) = (s', pc'))
    (hthreads : t'.threads = ⟨s', Function.update t.threads.pc p pc'⟩) (harrivals : t'.arrivals = t.recorded p) :
    Learned es t' := by
  have hgoes : (∀ pkt, pc'.frame = some pkt → pkt ∈ given es p) →
      (∀ mac q, s'.getPort mac = some q → ∃ pkt ∈ given es q, pkt.frame.src = mac) →
      (∀ pkt qs, pc' = .send pkt qs → ∀ q ∈ qs, Due es p q pkt) → Learned es t' := by
    intro hheld hcache haimed
    refine ⟨?_, ?_, ?_, ?_⟩
    · intro p' pkt hpc
      rw [hthreads] at hpc
      by_cases hp : p' = p
      · subst hp
        simp only [Function.update_self] at hpc
        exact hheld pkt hpc
      · simp only [Function.update_of_ne hp] at hpc
        exact h.held p' pkt hpc
    · rw [hthreads]
      exact hcache
    · intro p' pkt qs hpc
      rw [hthreads] at hpc
      by_cases hp : p' = p
      · subst hp
        simp only [Function.update_self] at hpc
        exact haimed pkt qs hpc
      · simp only [Function.update_of_ne hp] at hpc
        exact h.aimed p' pkt qs hpc
    · intro p' q pkt hmem
      rw [harrivals] at hmem
      unfold recorded at hmem
      cases hpc : t.threads.pc p with
      | send pkt' targets =>
        rw [hpc] at hmem
        cases targets with
        | nil => exact h.arrived p' q pkt hmem
        | cons r rs =>
          simp only [Pc.enqueues] at hmem
          by_cases hq : q = r
          · subst hq
            simp only [Function.update_self, List.mem_append, List.mem_singleton, Prod.mk.injEq] at hmem
            rcases hmem with hmem | ⟨rfl, rfl⟩
            · exact h.arrived p' q pkt hmem
            · exact h.aimed p' pkt _ hpc q List.mem_cons_self
          · rw [Function.update_of_ne hq] at hmem
            exact h.arrived p' q pkt hmem
      | _ =>
        rw [hpc] at hmem
        exact h.arrived p' q pkt hmem
  have hheld : ∀ pkt, (t.threads.pc p).frame = some pkt → pkt ∈ given es p := h.held p
  have haimed := h.aimed p
  cases hpc : t.threads.pc p with
  | idle =>
    rw [hpc] at hadv
    cases hadv
    exact hgoes (fun _ hno => by cases hno) h.cache (fun _ _ hno => by cases hno)
  | read pkt =>
    rw [hpc] at hadv hheld
    simp only [advance] at hadv
    split at hadv
    · cases hadv
      exact hgoes hheld h.cache (fun _ _ hno => by cases hno)
    · cases hadv
      exact hgoes hheld h.cache (fun _ _ hno => by cases hno)
  | write pkt =>
    rw [hpc] at hadv hheld
    cases hadv
    refine hgoes hheld ?_ (fun _ _ hno => by cases hno)
    -- the source of the frame is learned
    intro mac q hport
    unfold getPort associatePort at hport
    by_cases hmac : mac = pkt.frame.src
    · subst hmac
      rw [Table.get_insert_self, Option.some.injEq] at hport
      subst hport
      exact ⟨pkt, hheld pkt rfl, rfl⟩
    · rw [Table.get_insert_of_ne _ _ hmac] at hport
      exact h.cache mac q hport
  | lock pkt =>
    rw [hpc] at hadv hheld
    cases hadv
    exact hgoes hheld h.cache (fun _ _ hno => by cases hno)
  | lookup pkt =>
    rw [hpc] at hadv hheld
    cases hadv
    refine hgoes hheld h.cache ?_
    intro pkt' qs hsend
    cases hsend
    exact due_targets h.cache p pkt
  | send pkt targets =>
    rw [hpc] at hadv hheld haimed
    cases targets with
    | nil =>
      cases hadv
      exact hgoes (fun _ hno => by cases hno) h.cache (fun _ _ hno => by cases hno)
    | cons r rs =>
      cases hadv
      refine hgoes hheld h.cache ?_
      intro pkt' qs hsend q hq
      cases hsend
      exact haimed _ _ rfl q (List.mem_cons_of_mem _ hq)

theorem learned_step {es : List Event} {t t' : Traffic} {e : Event} (h : Learned es t) (hstep : Step t e t') :
    Learned (es ++ [e]) t' := by
  obtain ⟨hthreads, harrivals⟩ := hstep
  cases e with
  | connect dev =>
    obtain ⟨-, hσ⟩ := hthreads
    obtain ⟨-, harr⟩ := harrivals
    have hmono : Learned (es ++ [.connect dev]) t := h.mono
    refine ⟨?_, ?_, ?_, ?_⟩
    · rw [hσ]
      exact hmono.held
    · rw [hσ]
      exact hmono.cache
    · rw [hσ]
      exact hmono.aimed
    · rw [harr]
      exact hmono.arrived
  | call p' bytes =>
    obtain ⟨-, -, hσ⟩ := hthreads
    have harr : t'.arrivals = t.arrivals := harrivals
    have hmono : Learned (es ++ [.call p' bytes]) t := h.mono
    refine ⟨?_, ?_, ?_, ?_⟩
    · intro p pkt hpc
      rw [hσ] at hpc
      by_cases hp : p = p'
      · subst hp
        simp only [Function.update_self, frame_enter] at hpc
        rw [given_append, given_singleton]
        refine List.mem_append_right _ (List.mem_filterMap.2 ⟨bytes, ?_, hpc⟩)
        simp [Event.calls, Run.callsOf_singleton]
      · simp only [Function.update_of_ne hp] at hpc
        exact hmono.held p pkt hpc
    · rw [hσ]
      exact hmono.cache
    · intro p pkt qs hpc
      rw [hσ] at hpc
      by_cases hp : p = p'
      · subst hp
        simp only [Function.update_self] at hpc
        rcases accepted_or_rejected bytes with ⟨frame, payload, rfl⟩ | hrej
        · rw [enter_wire] at hpc
          cases hpc
        · rw [enter_rejected hrej] at hpc
          cases hpc
      · simp only [Function.update_of_ne hp] at hpc
        exact hmono.aimed p pkt qs hpc
    · rw [harr]
      exact hmono.arrived
  | step p' =>
    obtain ⟨-, hσ⟩ := hthreads
    obtain ⟨s', pc', hadv⟩ : ∃ s' pc', t.threads.switch.advance p' (t.threads.pc p') = (s', pc') := ⟨_, _, rfl⟩
    rw [hadv] at hσ
    exact learned_advance h.mono hadv hσ harrivals

theorem learned_run {es : List Event} {t : Traffic} (hrun : Run Step init es t) : Learned es t := by
  have hinit : Learned [] init := by
    refine ⟨?_, ?_, ?_, ?_⟩
    · intro p pkt hpc
      cases hpc
    · intro mac q hport
      cases hport
    · intro p pkt qs hpc
      cases hpc
    · intro p q pkt hmem
      cases hmem
  exact Run.invariant (I := Learned) hinit (fun _ _ _ _ _ h hstep => learned_step h hstep) hrun

/-- **Frames keep their order, and stay away from those they are not for.**  In every run of threads that call
`process` at the same time: what is on a port is what was enqueued there; of each other port it has some of the frames
that port's thread sent, each at most as often as it was sent and in the order they were sent; and it has no frame but
broadcasts of others, and frames to an address from which its own thread has sent. -/
theorem frames_keep_order {es : List Event} {t : Traffic} (hrun : Run Step init es t) :
    (∀ q dev, t.threads.switch.ports[q]? = some dev → dev = (t.arrivals q).map Prod.snd) ∧
    (∀ p q, (Run.callsOf p (t.arrivals q)).Sublist (given es p)) ∧
    (∀ p q pkt, (p, pkt) ∈ t.arrivals q → Due es p q pkt) := by
  have horder := inOrder_run hrun
  refine ⟨horder.recorded.ports, ?_, (learned_run hrun).arrived⟩
  intro p q
  exact (List.sublist_append_left _ _).trans (horder.order p q)

/-- A broadcast of the first of two ports. -/
def announced : EthernetPacket := ⟨⟨MacAddress.broadcast, guestMac 1, .arp⟩, []⟩

def twoPorts : Traffic := ⟨⟨⟨[[], []], Table.empty⟩, fun _ => .idle⟩, fun _ => []⟩

def announcement : List Event :=
  [.call 0 (announced.frame.wire ++ []), .step 0, .step 0, .step 0, .step 0, .step 0, .step 0]

theorem frames_keep_order_of_announcement : ∃ t, Run Step init ([.connect [], .connect []] ++ announcement) t ∧
    t.threads.switch.ports = [[], [announced]] ∧ Due ([.connect [], .connect []] ++ announcement) 0 1 announced := by
  have hrun : Run Step init ([.connect [], .connect []] ++ announcement) _ :=
    .cons (step_connect fun _ => rfl) <| .cons (step_connect fun _ => rfl) <| .cons (step_call (by decide) rfl) <|
    .cons (step_thread nofun) <| .cons (step_thread nofun) <| .cons (step_thread nofun) <|
    .cons (step_thread nofun) <| .cons (step_thread nofun) <| .cons (step_thread nofun) .nil
  obtain ⟨-, -, hdue⟩ := frames_keep_order hrun
  exact ⟨_, hrun, rfl, hdue 0 1 announced (List.mem_singleton.2 rfl)⟩

end Traffic

end VirtioSwitch
end Oathgate
