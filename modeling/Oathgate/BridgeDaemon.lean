import Oathgate.BridgeGuests
import Oathgate.LibMailbox
/-!
# BridgeDaemon — the loop that accepts guests (`oathgate-bridge`: `lib.rs`, `Bridge::run`; `oathgate-vhost`: `vhost.rs`)

The bridge's own thread polls the socket the guests connect to and the signals.  It is told once of a client that has
come, and not again of one that comes before it has polled; each time it is told it accepts one client, makes a device
for it and starts the device's thread.  `clients_wait_behind` says which clients are served and which wait.
-/
namespace Oathgate

open Lib

variable {Q S G C R W E K : Type}

/-! ## The loop -/

inductive DaemonToken where
  | vhost
  | signal
  deriving DecidableEq, Repr

/-- Where `Bridge::run` is, with the events of its last poll that are still to be handled. -/
inductive DaemonPhase where
  | polling (events : List DaemonToken)
  | stopped
  | failed

/-- The clients that wait for an accept, SIGTERM, the clients taken with the ports of the devices made for them, and the
switch with its devices. -/
structure BridgeDaemon (Q S G K : Type) where
  clients : Mailbox K
  signals : Mailbox Unit
  phase : DaemonPhase
  taken : List (K × Option Nat)
  guests : BridgeGuests Q S G

/-- A client connects to the socket, or SIGTERM comes; the loop polls or handles its next event, where `accept_and_spawn`
may fail before the client is accepted, when the device is made, and when its thread is started; or a device or the
router does something. -/
inductive DaemonEvent (S G C K : Type) where
  | client (k : K)
  | sigterm
  | poll (ready : List DaemonToken)
  | pollFailed
  | refused
  | closed
  | unstarted
  | accepted (s : S) (guest : G)
  | signal
  | guests (e : GuestsEvent S G C)

def DaemonPhase.events : DaemonPhase → List DaemonToken
  | .polling events => events
  | _ => []

/-- What the switch and the devices see of an event; a port without a thread has no device. -/
def DaemonEvent.guest : DaemonEvent S G C K → Option (GuestsEvent S G C)
  | .unstarted => some .router
  | .accepted s guest => some (.connect 1 s guest)
  | .guests e => some e
  | _ => none

def DaemonEvent.arrival : DaemonEvent S G C K → Option K
  | .client k => some k
  | _ => none

namespace BridgeDaemon

/-- The router is connected, and the loop comes to its first poll. -/
def start : BridgeDaemon Q S G K :=
  ⟨.empty, .empty, .polling [], [], { BridgeGuests.init with traffic := VirtioSwitch.Traffic.init.connected }⟩

/-- The next client is taken from the socket. -/
def take (k : K) (port : Option Nat) (events : List DaemonToken) (d : BridgeDaemon Q S G K) : BridgeDaemon Q S G K :=
  { d with clients := d.clients.takeFirst 1, phase := .polling events, taken := d.taken ++ [(k, port)] }

def port (d : BridgeDaemon Q S G K) : Nat := d.guests.traffic.threads.switch.ports.length

/-- A poll returns everything that was rung for. -/
inductive Step (sys : VhostSystem Q S E) (lib : Option (List GuestRegion) → VirtioQueue Q G C R W E)
    (d : BridgeDaemon Q S G K) : DaemonEvent S G C K → BridgeDaemon Q S G K → Prop where
  | client (k : K) (events : List DaemonToken) (hphase : d.phase = .polling events) :
      Step sys lib d (.client k) { d with clients := d.clients.deliver k }
  | sigterm : Step sys lib d .sigterm { d with signals := d.signals.deliver () }
  | poll (ready : List DaemonToken) (hphase : d.phase = .polling []) (hready : ready ≠ []) (hnodup : ready.Nodup)
      (hvhost : .vhost ∈ ready ↔ d.clients.rung = true) (hsignal : .signal ∈ ready ↔ d.signals.rung = true) :
      Step sys lib d (.poll ready)
        { d with clients := d.clients.hear, signals := d.signals.hear, phase := .polling ready }
  | pollFailed (hphase : d.phase = .polling []) : Step sys lib d .pollFailed { d with phase := .failed }
  | refused (events : List DaemonToken) (hphase : d.phase = .polling (.vhost :: events)) :
      Step sys lib d .refused { d with phase := .polling events }
  | closed (k : K) (rest : List K) (events : List DaemonToken) (hphase : d.phase = .polling (.vhost :: events))
      (hclients : d.clients.items = k :: rest) : Step sys lib d .closed (d.take k none events)
  | unstarted (k : K) (rest : List K) (events : List DaemonToken) (g : BridgeGuests Q S G)
      (hphase : d.phase = .polling (.vhost :: events)) (hclients : d.clients.items = k :: rest)
      (hguests : d.guests.Step sys lib .router g) :
      Step sys lib d .unstarted { d.take k none events with guests := g }
  | accepted (s : S) (guest : G) (k : K) (rest : List K) (events : List DaemonToken) (g : BridgeGuests Q S G)
      (hphase : d.phase = .polling (.vhost :: events)) (hclients : d.clients.items = k :: rest)
      (hguests : d.guests.Step sys lib (.connect 1 s guest) g) :
      Step sys lib d (.accepted s guest) { d.take k (some d.port) events with guests := g }
  | signal (events : List DaemonToken) (hphase : d.phase = .polling (.signal :: events)) :
      Step sys lib d .signal { d with phase := if d.signals.items = [] then .polling events else .stopped }
  | guests (e : GuestsEvent S G C) (g : BridgeGuests Q S G) (he : ∀ te ∈ e.calls, te ≠ .connect [])
      (hguests : d.guests.Step sys lib e g) : Step sys lib d (.guests e) { d with guests := g }

/-! ## How far the loop is behind -/

/-- The clients that have come, and those that came when the loop could be told of one already or whose accept failed. -/
def arrivals (es : List (DaemonEvent S G C K)) : List K := es.filterMap DaemonEvent.arrival

def tick (x : Bool × Nat) : DaemonEvent S G C K → Bool × Nat
  | .client _ => (true, if x.1 then x.2 + 1 else x.2)
  | .poll _ => (false, x.2)
  | .refused => (x.1, x.2 + 1)
  | _ => x

def behind (es : List (DaemonEvent S G C K)) : Nat := (es.foldl tick (false, 0)).2

theorem arrivals_snoc (es : List (DaemonEvent S G C K)) (e : DaemonEvent S G C K) :
    arrivals (es ++ [e]) = arrivals es ++ e.arrival.toList := by
  unfold arrivals
  rw [List.filterMap_append]
  cases harrival : e.arrival with
  | none => simp [harrival]
  | some k => simp [harrival]

theorem tick_snoc (es : List (DaemonEvent S G C K)) (e : DaemonEvent S G C K) :
    (es ++ [e]).foldl tick (false, 0) = tick (es.foldl tick (false, 0)) e := by
  rw [List.foldl_append]
  rfl

theorem behind_snoc (es : List (DaemonEvent S G C K)) (e : DaemonEvent S G C K) :
    behind (es ++ [e]) = (tick (es.foldl tick (false, 0)) e).2 := congrArg Prod.snd (tick_snoc es e)

theorem guest_snoc (es : List (DaemonEvent S G C K)) (e : DaemonEvent S G C K) :
    (es ++ [e]).filterMap DaemonEvent.guest = es.filterMap DaemonEvent.guest ++ e.guest.toList := by
  rw [List.filterMap_append]
  cases hguest : e.guest with
  | none => simp [hguest]
  | some k => simp [hguest]

/-- **The loop never catches up.** -/
theorem tick_le (x : Bool × Nat) (es : List (DaemonEvent S G C K)) : x.2 ≤ (es.foldl tick x).2 := by
  induction es generalizing x with
  | nil => exact Nat.le_refl _
  | cons e es ih =>
    refine Nat.le_trans ?_ (ih (tick x e))
    cases e with
    | client k =>
      show x.2 ≤ if x.1 then x.2 + 1 else x.2
      split
      · exact Nat.le_succ _
      · exact Nat.le_refl _
    | refused => exact Nat.le_succ _
    | _ => exact Nat.le_refl _

theorem behind_le_append (es es' : List (DaemonEvent S G C K)) : behind es ≤ behind (es ++ es') := by
  unfold behind
  rw [List.foldl_append]
  exact tick_le _ es'

/-! ## Devices stay -/

/-- No event takes a device from its port. -/
theorem device_stays {sys : VhostSystem Q S E} {lib : Option (List GuestRegion) → VirtioQueue Q G C R W E}
    {g g' : BridgeGuests Q S G} {e : GuestsEvent S G C} (hstep : g.Step sys lib e g') {p : Nat}
    (hp : (g.devices p).isSome) : (g'.devices p).isSome := by
  have hset (h : BridgeGuests Q S G) (hdevices : h.devices = g.devices) (q : Nat) (d : DeviceThread Q S G) :
      ((h.set q d).devices p).isSome := by
    unfold BridgeGuests.set
    simp only
    by_cases hq : p = q
    · rw [hq, Function.update_self]
      rfl
    · rw [Function.update_of_ne hq, hdevices]
      exact hp
  cases hstep with
  | router t htraffic => exact hp
  | connect n s guest t m hnew htraffic => exact hset { g with traffic := t } rfl _ _
  | driver q guest d hd => exact hset g rfl _ _
  | handle q e served d fuel r m hd hended hsending hidle he hexec => exact hset g rfl _ _
  | send q pkt rest t d hd hsending htraffic => exact hset { g with traffic := t } rfl _ _
  | write q pkt t hd htraffic => exact hp
  | step q t htraffic =>
    have hsending := congrArg Option.isSome (BridgeGuests.sending_enqueued g q p)
    rw [Option.isSome_map, Option.isSome_map] at hsending
    exact hsending.trans hp

/-- The device of a client is at the next port. -/
theorem device_connected {sys : VhostSystem Q S E} {lib : Option (List GuestRegion) → VirtioQueue Q G C R W E}
    {g g' : BridgeGuests Q S G} {n : BitVec 8} {s : S} {guest : G} (hstep : g.Step sys lib (.connect n s guest) g') :
    (g'.devices g.traffic.threads.switch.ports.length).isSome := by
  cases hstep with
  | connect _ _ _ t m hnew htraffic =>
    obtain ⟨hport, -⟩ := Machine.new_at hnew
    unfold BridgeGuests.set
    simp only
    rw [hport, Function.update_self]
    rfl

/-! ## The invariant -/

/-- The loop has taken the first clients that came and has a device for each of those it made one for; the others wait,
and SIGTERM is handled once it is polled. -/
structure Serves (sys : VhostSystem Q S E) (lib : Option (List GuestRegion) → VirtioQueue Q G C R W E)
    (es : List (DaemonEvent S G C K)) (d : BridgeDaemon Q S G K) : Prop where
  order : d.taken.map Prod.fst ++ d.clients.items = arrivals es
  rung : (es.foldl tick (false, 0)).1 = d.clients.rung
  behind : ∀ events, d.phase = .polling events →
    d.clients.Behind (behind es) (decide (.vhost ∈ events)) ∧ d.signals.Awaited (.signal ∈ events) ∧ events.Nodup
  guests : Run (BridgeGuests.Step sys lib) BridgeGuests.init (.router :: es.filterMap DaemonEvent.guest) d.guests
  silent : d.signals.silent = 0
  terms : .sigterm ∈ es → d.signals.items ≠ []
  devices : ∀ p ∈ d.taken.filterMap Prod.snd, (d.guests.devices p).isSome
  ports : (d.taken.filterMap Prod.snd).Nodup

variable {sys : VhostSystem Q S E} {lib : Option (List GuestRegion) → VirtioQueue Q G C R W E}

theorem serves_start : Serves sys lib [] (start : BridgeDaemon Q S G K) where
  order := rfl
  rung := rfl
  behind := by
    rintro events ⟨⟩
    exact ⟨Mailbox.behind_empty, Mailbox.awaited_empty, .nil⟩
  guests := .single (.router _ (VirtioSwitch.Traffic.step_connect fun _ => rfl))
  silent := rfl
  terms := nofun
  devices := nofun
  ports := .nil

theorem Serves.unseen {es : List (DaemonEvent S G C K)} {d : BridgeDaemon Q S G K} (h : Serves sys lib es d)
    {e : DaemonEvent S G C K} (he : e.guest = none) :
    Run (BridgeGuests.Step sys lib) BridgeGuests.init (.router :: (es ++ [e]).filterMap DaemonEvent.guest) d.guests := by
  rw [guest_snoc, he, Option.toList_none, List.append_nil]
  exact h.guests

theorem Serves.seen {es : List (DaemonEvent S G C K)} {d : BridgeDaemon Q S G K} (h : Serves sys lib es d)
    {e : DaemonEvent S G C K} {ge : GuestsEvent S G C} (he : e.guest = some ge) {g : BridgeGuests Q S G}
    (hstep : d.guests.Step sys lib ge g) :
    Run (BridgeGuests.Step sys lib) BridgeGuests.init (.router :: (es ++ [e]).filterMap DaemonEvent.guest) g := by
  rw [guest_snoc, he]
  exact h.guests.snoc hstep

theorem Serves.order_of {es : List (DaemonEvent S G C K)} {d : BridgeDaemon Q S G K} (h : Serves sys lib es d)
    {e : DaemonEvent S G C K} (he : e.arrival = none) :
    d.taken.map Prod.fst ++ d.clients.items = arrivals (es ++ [e]) := by
  rw [arrivals_snoc, he, Option.toList_none, List.append_nil]
  exact h.order

theorem Serves.rung_of {es : List (DaemonEvent S G C K)} {d : BridgeDaemon Q S G K} (h : Serves sys lib es d)
    {e : DaemonEvent S G C K} (he : ∀ x, (tick x e).1 = x.1) :
    ((es ++ [e]).foldl tick (false, 0)).1 = d.clients.rung := by
  rw [tick_snoc, he]
  exact h.rung

theorem Serves.terms_of {es : List (DaemonEvent S G C K)} {d : BridgeDaemon Q S G K} (h : Serves sys lib es d)
    {e : DaemonEvent S G C K} (he : .sigterm ≠ e) : .sigterm ∈ es ++ [e] → d.signals.items ≠ [] := by
  intro hmem
  exact h.terms ((List.mem_append.mp hmem).resolve_right fun hlast => he (List.mem_singleton.mp hlast))

theorem Serves.client {es : List (DaemonEvent S G C K)} {d : BridgeDaemon Q S G K} (h : Serves sys lib es d) (k : K) :
    Serves sys lib (es ++ [.client k]) { d with clients := d.clients.deliver k } := by
  refine ⟨?_, ?_, ?_, h.unseen rfl, h.silent, h.terms_of nofun, h.devices, h.ports⟩
  · rw [arrivals_snoc, ← h.order, List.append_assoc]
    rfl
  · rw [tick_snoc]
    rfl
  · intro events' hphase'
    obtain ⟨hbehind, hsignals, hnodup⟩ := h.behind events' hphase'
    refine ⟨?_, hsignals, hnodup⟩
    have hticked : BridgeDaemon.behind (es ++ [.client k]) =
        if d.clients.rung then BridgeDaemon.behind es + 1 else BridgeDaemon.behind es := by
      rw [behind_snoc, ← h.rung]
      rfl
    rw [hticked]
    exact hbehind.deliver k

theorem Serves.poll {es : List (DaemonEvent S G C K)} {d : BridgeDaemon Q S G K} (h : Serves sys lib es d)
    {ready : List DaemonToken} (hphase : d.phase = .polling []) (hnodup : ready.Nodup)
    (hvhost : .vhost ∈ ready ↔ d.clients.rung = true) (hsignal : .signal ∈ ready ↔ d.signals.rung = true) :
    Serves sys lib (es ++ [.poll ready])
      { d with clients := d.clients.hear, signals := d.signals.hear, phase := .polling ready } := by
  obtain ⟨hbehind, hsignals, -⟩ := h.behind [] hphase
  refine ⟨h.order_of rfl, ?_, ?_, h.unseen rfl, h.silent, h.terms_of nofun, h.devices, h.ports⟩
  · rw [tick_snoc]
    rfl
  · rintro _ ⟨⟩
    refine ⟨?_, ?_, hnodup⟩
    · rw [behind_snoc]
      by_cases hready : .vhost ∈ ready
      · rw [decide_eq_true hready]
        exact hbehind.hear (hvhost.mp hready)
      · have hrung : d.clients.rung = false := by
          simpa using mt hvhost.mpr hready
        have hheard : d.clients.hear = d.clients := by
          unfold Mailbox.hear
          rw [← hrung]
        rw [decide_eq_false hready, hheard]
        exact hbehind
    · intro hne
      rcases hsignals hne with hsilent | hrung | hmem
      · exact Or.inl hsilent
      · exact Or.inr (Or.inr (hsignal.mpr hrung))
      · cases hmem

/-- The next event is not one of the socket's. -/
theorem vhost_handled {events : List DaemonToken} (hnodup : (DaemonToken.vhost :: events).Nodup) :
    decide (.vhost ∈ events) = false := decide_eq_false (List.nodup_cons.mp hnodup).1

/-- The next client is taken, whatever becomes of it. -/
theorem Serves.take {es : List (DaemonEvent S G C K)} {d : BridgeDaemon Q S G K} (h : Serves sys lib es d)
    {e : DaemonEvent S G C K} (harrival : e.arrival = none) (htick : ∀ x, tick x e = x) (hterm : .sigterm ≠ e) {k : K}
    {rest : List K} (hclients : d.clients.items = k :: rest) {events : List DaemonToken}
    (hphase : d.phase = .polling (.vhost :: events)) {port : Option Nat} {g : BridgeGuests Q S G}
    (hguests : Run (BridgeGuests.Step sys lib) BridgeGuests.init
      (.router :: (es ++ [e]).filterMap DaemonEvent.guest) g)
    (hdevices : ∀ p ∈ d.taken.filterMap Prod.snd ++ port.toList, (g.devices p).isSome)
    (hports : (d.taken.filterMap Prod.snd ++ port.toList).Nodup) :
    Serves sys lib (es ++ [e]) { d.take k port events with guests := g } := by
  obtain ⟨hbehind, hsignals, hnodup⟩ := h.behind _ hphase
  have hsnoc : (d.taken ++ [(k, port)]).filterMap Prod.snd = d.taken.filterMap Prod.snd ++ port.toList := by
    rw [List.filterMap_append]
    cases port with
    | none => rfl
    | some p => rfl
  refine ⟨?_, h.rung_of fun x => congrArg Prod.fst (htick x), ?_, hguests, h.silent, h.terms_of hterm, ?_, ?_⟩
  · have horder := h.order_of harrival
    rw [hclients] at horder
    rw [← horder]
    unfold BridgeDaemon.take Mailbox.takeFirst
    simp [hclients]
  · rintro _ ⟨⟩
    rw [behind_snoc, htick, vhost_handled hnodup]
    rw [decide_eq_true List.mem_cons_self] at hbehind
    refine ⟨hbehind.take hclients, hsignals.mono fun hmem => ?_, (List.nodup_cons.mp hnodup).2⟩
    exact (List.mem_cons.mp hmem).resolve_left nofun
  · intro p hp
    exact hdevices p (hsnoc ▸ hp)
  · exact hsnoc ▸ hports

/-- A client whose device is at the next port. -/
theorem Serves.accepted {es : List (DaemonEvent S G C K)} {d : BridgeDaemon Q S G K} (h : Serves sys lib es d) {s : S}
    {guest : G} {k : K} {rest : List K} {events : List DaemonToken} {g : BridgeGuests Q S G}
    (hphase : d.phase = .polling (.vhost :: events)) (hclients : d.clients.items = k :: rest)
    (hguests : d.guests.Step sys lib (.connect 1 s guest) g) :
    Serves sys lib (es ++ [.accepted s guest]) { d.take k (some d.port) events with guests := g } := by
  refine h.take (e := .accepted s guest) rfl (fun x => rfl) nofun hclients hphase (h.seen rfl hguests) ?_ ?_
  · intro p hp
    rcases List.mem_append.mp hp with hp | hp
    · exact device_stays hguests (h.devices p hp)
    · obtain rfl : p = d.port := by simpa using hp
      exact device_connected hguests
  · refine List.nodup_append.mpr ⟨h.ports, List.pairwise_singleton _ _, ?_⟩
    rintro p hp _ hport rfl
    obtain rfl : p = d.port := by simpa using hport
    obtain ⟨dev, hdev⟩ := Option.isSome_iff_exists.mp (h.devices _ hp)
    obtain ⟨hlt, -⟩ := (BridgeGuests.shares_run h.guests).connected _ dev hdev
    exact Nat.lt_irrefl _ hlt

theorem serves_step {es : List (DaemonEvent S G C K)} {d d' : BridgeDaemon Q S G K} {e : DaemonEvent S G C K}
    (h : Serves sys lib es d) (hstep : Step sys lib d e d') : Serves sys lib (es ++ [e]) d' := by
  cases hstep with
  | client k events hphase => exact h.client k
  | sigterm =>
    refine ⟨h.order_of rfl, h.rung_of fun _ => rfl, ?_, h.unseen rfl, h.silent, ?_, h.devices, h.ports⟩
    · intro events hphase
      obtain ⟨hbehind, -, hnodup⟩ := h.behind events hphase
      rw [behind_snoc]
      exact ⟨hbehind, Mailbox.awaited_deliver (), hnodup⟩
    · intro _
      exact List.append_ne_nil_of_right_ne_nil _ nofun
  | poll ready hphase hready hnodup hvhost hsignal => exact h.poll hphase hnodup hvhost hsignal
  | pollFailed hphase =>
    exact ⟨h.order_of rfl, h.rung_of fun _ => rfl, nofun, h.unseen rfl, h.silent, h.terms_of nofun, h.devices, h.ports⟩
  | refused events hphase =>
    obtain ⟨hbehind, hsignals, hnodup⟩ := h.behind _ hphase
    refine ⟨h.order_of rfl, h.rung_of fun _ => rfl, ?_, h.unseen rfl, h.silent, h.terms_of nofun, h.devices, h.ports⟩
    rintro _ ⟨⟩
    rw [behind_snoc, vhost_handled hnodup]
    rw [decide_eq_true List.mem_cons_self] at hbehind
    refine ⟨hbehind.miss, hsignals.mono fun hmem => ?_, (List.nodup_cons.mp hnodup).2⟩
    exact (List.mem_cons.mp hmem).resolve_left nofun
  | closed k rest events hphase hclients =>
    refine h.take (e := .closed) (g := d.guests) rfl (fun x => rfl) nofun hclients hphase (h.unseen rfl) ?_ ?_
    · rw [Option.toList_none, List.append_nil]
      exact h.devices
    · rw [Option.toList_none, List.append_nil]
      exact h.ports
  | unstarted k rest events g hphase hclients hguests =>
    refine h.take (e := .unstarted) rfl (fun x => rfl) nofun hclients hphase (h.seen rfl hguests) ?_ ?_
    · rw [Option.toList_none, List.append_nil]
      exact fun p hp => device_stays hguests (h.devices p hp)
    · rw [Option.toList_none, List.append_nil]
      exact h.ports
  | accepted s guest k rest events g hphase hclients hguests => exact h.accepted hphase hclients hguests
  | signal events hphase =>
    obtain ⟨hbehind, hsignals, hnodup⟩ := h.behind _ hphase
    refine ⟨h.order_of rfl, h.rung_of fun _ => rfl, ?_, h.unseen rfl, h.silent, h.terms_of nofun, h.devices, h.ports⟩
    intro events' hphase'
    simp only at hphase'
    split at hphase'
    · rename_i hnil
      cases hphase'
      rw [behind_snoc]
      have hsame : decide (DaemonToken.vhost ∈ DaemonToken.signal :: events) = decide (DaemonToken.vhost ∈ events) := by
        simp
      rw [hsame] at hbehind
      exact ⟨hbehind, Mailbox.awaited_nil hnil, (List.nodup_cons.mp hnodup).2⟩
    · cases hphase'
  | guests e g he hguests =>
    refine ⟨h.order_of rfl, h.rung_of fun _ => rfl, ?_, h.seen rfl hguests, h.silent, h.terms_of nofun,
      fun p hp => device_stays hguests (h.devices p hp), h.ports⟩
    intro events hphase
    rw [behind_snoc]
    exact h.behind events hphase

theorem serves_run {es : List (DaemonEvent S G C K)} {d : BridgeDaemon Q S G K}
    (hrun : Run (Step sys lib) start es d) : Serves sys lib es d :=
  Run.invariant (I := fun es d => Serves sys lib es d) serves_start (fun _ _ _ _ _ h hstep => serves_step h hstep) hrun

/-! ## Who is served -/

/-- The loop has ended. -/
def Over (d : BridgeDaemon Q S G K) : Prop := ∀ events, d.phase ≠ .polling events

theorem over_step {d d' : BridgeDaemon Q S G K} {e : DaemonEvent S G C K} (h : d.Over) (hstep : Step sys lib d e d') :
    d'.Over ∧ d'.taken = d.taken := by
  cases hstep with
  | client k events hphase => exact absurd hphase (h _)
  | sigterm => exact ⟨h, rfl⟩
  | poll ready hphase hready hnodup hvhost hsignal => exact absurd hphase (h _)
  | pollFailed hphase => exact absurd hphase (h _)
  | refused events hphase => exact absurd hphase (h _)
  | closed k rest events hphase hclients => exact absurd hphase (h _)
  | unstarted k rest events g hphase hclients hguests => exact absurd hphase (h _)
  | accepted s guest k rest events g hphase hclients hguests => exact absurd hphase (h _)
  | signal events hphase => exact absurd hphase (h _)
  | guests e g he hguests => exact ⟨h, rfl⟩

theorem over_run {es : List (DaemonEvent S G C K)} {d d' : BridgeDaemon Q S G K} (h : d.Over)
    (hrun : Run (Step sys lib) d es d') : d'.Over ∧ d'.taken = d.taken := by
  induction hrun with
  | nil => exact ⟨h, rfl⟩
  | snoc _ hstep ih =>
    obtain ⟨hover, htaken⟩ := over_step ih.1 hstep
    exact ⟨hover, htaken.trans ih.2⟩

/-- **Which guests the bridge serves, and which wait.**  In every run of the bridge's own thread beside those of its
devices: it has taken the first clients that came, in order, and has a device at a port of its own for each of those it
could make one for; switch and devices run as in `guests_receive_in_order`; when nothing is to be polled and nothing
left to be handled, SIGTERM has never come, and as many clients wait as came when another was not polled yet or found
their accept refused; from then on at least as many wait as long as the loop goes on; and nobody is taken once it has
ended. -/
theorem clients_wait_behind {es : List (DaemonEvent S G C K)} {d : BridgeDaemon Q S G K}
    (hrun : Run (Step sys lib) start es d) :
    d.taken.map Prod.fst ++ d.clients.items = arrivals es ∧
    ((d.taken.filterMap Prod.snd).Nodup ∧ ∀ p ∈ d.taken.filterMap Prod.snd, ∃ dev, d.guests.devices p = some dev) ∧
    Run (BridgeGuests.Step sys lib) BridgeGuests.init (.router :: es.filterMap DaemonEvent.guest) d.guests ∧
    (d.phase = .polling [] → d.clients.rung = false → d.signals.rung = false →
      .sigterm ∉ es ∧ d.clients.items.length = behind es) ∧
    (∀ es' d' events, Run (Step sys lib) d es' d' → d'.phase = .polling events →
      behind es ≤ d'.clients.items.length) ∧
    (d.Over → ∀ es' d', Run (Step sys lib) d es' d' → d'.taken = d.taken) := by
  have hserves := serves_run hrun
  refine ⟨hserves.order, ⟨hserves.ports, fun p hp => Option.isSome_iff_exists.mp (hserves.devices p hp)⟩, hserves.guests,
    ?_, ?_, fun hover es' d' hrun' => (over_run hover hrun').2⟩
  · intro hphase hclients hsignals
    obtain ⟨hbehind, hawaited, -⟩ := hserves.behind [] hphase
    refine ⟨fun hterm => ?_, hbehind.at_rest hclients⟩
    exact hserves.terms hterm (hawaited.at_rest hserves.silent hsignals nofun)
  · intro es' d' events hrun' hphase
    obtain ⟨hbehind, -, -⟩ := (serves_run (hrun.append hrun')).behind events hphase
    exact Nat.le_trans (behind_le_append es es') hbehind.le

/-- Two guests start at the same time. -/
def twoAtOnce : List (DaemonEvent Unit RingGuest RingChain Nat) :=
  [.client 1, .client 2, .poll [.vhost], .accepted () Machine.oneChain]

theorem clients_wait_behind_of_two : ∃ d, Run (Step Device.plainSystem fun _ => readyQueue) start twoAtOnce d ∧
    d.taken = [(1, some 1)] ∧ d.clients.items = [2] ∧ ∀ es' d' events,
    Run (Step Device.plainSystem fun _ => readyQueue) d es' d' → d'.phase = .polling events →
      1 ≤ d'.clients.items.length := by
  have hrun : Run (Step Device.plainSystem fun _ => readyQueue) start twoAtOnce _ :=
    .cons (.client 1 [] rfl) <| .cons (.client 2 [] rfl) <|
    .cons (.poll [.vhost] rfl nofun (List.pairwise_singleton _ _) (by decide) (by decide)) <|
    .single (.accepted () _ 1 [2] [] _ rfl rfl (.connect 1 () _ _ _ rfl (VirtioSwitch.Traffic.step_connect fun _ => rfl)))
  obtain ⟨-, -, -, -, hwait, -⟩ := clients_wait_behind hrun
  exact ⟨_, hrun, rfl, rfl, hwait⟩

end BridgeDaemon
end Oathgate
