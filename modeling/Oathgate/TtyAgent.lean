import Oathgate.LibSocket
/-!
# TtyAgent — the terminal of the guest agent (`oathgate-fabrial`: `tty.rs`)

The agent reads messages off a stream socket: a type byte, then a length and data, or a window size.  Every receive is
non-blocking and into a zeroed buffer, so that bytes which have not come read as zeros.  A message that comes whole off
the socket is decoded as sent (`readFromSocket_comes`).
-/
namespace Oathgate

open Lib

inductive IoError where
  | errno (e : Errno)
  | other (text : String)
  deriving DecidableEq, Repr

inductive SocketAction where
  | writeToTTY
  | wouldBlock
  | continue_
  deriving DecidableEq, Repr

structure Winsize where
  rows : BitVec 16
  cols : BitVec 16
  deriving DecidableEq, Repr

/-- The TTY is what was written to it and the window sizes it was set to. -/
structure SockTTY (S : Type) where
  client : S
  written : List Byte
  sizes : List Winsize

namespace SockTTY

variable {S : Type} (recv : Recv S)

def bufferSize : Nat := 2048

/-- `non_blocking_recv!` -/
def nonBlockingRecv (n : Nat) (t : SockTTY S) : Res IoError (List Byte) × SockTTY S :=
  match recv n t.client with
  | (.ok got, client) => (.ok got, { t with client })
  | (.error .wouldBlock, client) => (.ok [], { t with client })
  | (.error e, client) => (.err (.errno e), { t with client })

/-- A receive into a buffer of `n` zeros. -/
def recvZeroed (n : Nat) (t : SockTTY S) : Res IoError (List Byte) × SockTTY S :=
  Res.andThen (nonBlockingRecv recv n t) fun got t => (.ok (got ++ List.replicate (n - got.length) 0), t)

/-- The loop of `handle_socket_data`: `length` bytes are missing, and each round gets one at least. -/
def readData (bufLen : Nat) : Nat → Nat → List Byte → SockTTY S → Res IoError (List Byte) × SockTTY S
  | 0, _, msg, t => (.ok msg, t)
  | fuel + 1, length, msg, t =>
    let sz := min length bufLen
    if sz = 0 then (.ok msg, t)
    else
      Res.andThen (nonBlockingRecv recv sz t) fun got t =>
        if got = [] then (.ok msg, t) else readData bufLen fuel (length - got.length) (msg ++ got) t

def handleSocketData (bufLen : Nat) (t : SockTTY S) : Res IoError (List Byte) × SockTTY S :=
  Res.andThen (recvZeroed recv 2 t) fun length t =>
    let length := (le16At length 0).toNat
    if length = 0 then (.err (.other "data length missing for data msg"), t)
    else readData recv bufLen length length [] t

def handleTtyResize (t : SockTTY S) : Res IoError Unit × SockTTY S :=
  Res.andThen (recvZeroed recv 4 t) fun buf t =>
    let rows := le16At buf 0
    let cols := le16At buf 2
    if rows = 0 ∨ cols = 0 then (.err (.other "invalid resize message"), t)
    else (.ok (), { t with sizes := t.sizes ++ [⟨rows, cols⟩] })

def msgTyZero : Byte := 0x00
def msgTyData : Byte := 0x01
def msgTyTtyResize : Byte := 0x02

/-- `SockTTY::read_from_socket`, with the message it leaves in `msg`. -/
def readFromSocket (bufLen : Nat) (t : SockTTY S) : Res IoError (SocketAction × List Byte) × SockTTY S :=
  Res.andThen (recvZeroed recv 1 t) fun msgType t =>
    let msgType := byteAt msgType 0
    if msgType = msgTyZero then (.ok (.wouldBlock, []), t)
    else if msgType = msgTyData then
      Res.andThen (handleSocketData recv bufLen t) fun msg t => (.ok (.writeToTTY, msg), t)
    else if msgType = msgTyTtyResize then
      Res.andThen (handleTtyResize recv t) fun _ t => (.ok (.continue_, []), t)
    else (.ok (.continue_, []), t)

def writeToTty (t : SockTTY S) (data : List Byte) : SockTTY S := { t with written := t.written ++ data }

/-- One round of the socket's loop in `SockTTY::run`. -/
def runSocket (t : SockTTY S) : Res IoError SocketAction × SockTTY S :=
  Res.andThen (readFromSocket recv bufferSize t) fun (action, msg) t =>
    match action with
    | .writeToTTY => (.ok action, t.writeToTty msg)
    | .wouldBlock => (.ok action, t)
    | .continue_ => (.ok action, t)

/-- Successive calls of `read_from_socket`. -/
def reads : Nat → SockTTY S → List (Res IoError (SocketAction × List Byte)) × SockTTY S
  | 0, t => ([], t)
  | n + 1, t =>
    let (r, t) := readFromSocket recv bufferSize t
    let (rs, t) := reads n t
    (r :: rs, t)

end SockTTY

/-! ## Messages -/

/-- What the protocol can say. -/
inductive TtyMsg where
  | data (bytes : List Byte)
  | resize (size : Winsize)
  deriving DecidableEq, Repr

namespace TtyMsg

def bytes : TtyMsg → List Byte
  | .data d => SockTTY.msgTyData :: toLe16 (BitVec.ofNat 16 d.length) ++ d
  | .resize size => SockTTY.msgTyTtyResize :: toLe16 size.rows ++ toLe16 size.cols

/-- A message the agent accepts: some data, but not more than its length can say, or a window with an area. -/
def WellFormed : TtyMsg → Prop
  | .data d => 1 ≤ d.length ∧ d.length ≤ 65535
  | .resize size => size.rows ≠ 0 ∧ size.cols ≠ 0

instance : DecidablePred WellFormed
  | .data _ => inferInstanceAs (Decidable (_ ∧ _))
  | .resize _ => inferInstanceAs (Decidable (_ ∧ _))

/-- The action a message asks for. -/
def action : TtyMsg → SocketAction
  | .data _ => .writeToTTY
  | .resize _ => .continue_

/-- What a message writes to the TTY. -/
def payload : TtyMsg → List Byte
  | .data d => d
  | .resize _ => []

/-- The window size a message sets. -/
def sizes : TtyMsg → List Winsize
  | .data _ => []
  | .resize size => [size]

end TtyMsg

namespace SockTTY

variable {S : Type} {recv : Recv S}

/-! ## One receive -/

theorem nonBlockingRecv_ok {n : Nat} {t : SockTTY S} {got : List Byte} {s : S} (h : recv n t.client = (.ok got, s)) :
    nonBlockingRecv recv n t = (.ok got, { t with client := s }) := by
  unfold nonBlockingRecv
  rw [h]

theorem recvZeroed_ok {n : Nat} {t : SockTTY S} {got : List Byte} {s : S} (h : recv n t.client = (.ok got, s))
    (hlen : got.length = n) : recvZeroed recv n t = (.ok got, { t with client := s }) := by
  unfold recvZeroed
  rw [nonBlockingRecv_ok h, Res.andThen_ok, hlen, Nat.sub_self]
  simp

/-- **Rounds beyond the missing bytes change nothing**: the loop ends by itself. -/
theorem readData_fuel (bufLen : Nat) : ∀ (fuel fuel' length : Nat) (msg : List Byte) (t : SockTTY S), length ≤ fuel →
    length ≤ fuel' → readData recv bufLen fuel length msg t = readData recv bufLen fuel' length msg t
  | 0, 0, _, _, _, _, _ => rfl
  | 0, fuel' + 1, length, msg, t, h, _ => by
    obtain rfl : length = 0 := by omega
    simp [readData]
  | fuel + 1, 0, length, msg, t, _, h => by
    obtain rfl : length = 0 := by omega
    simp [readData]
  | fuel + 1, fuel' + 1, length, msg, t, h, h' => by
    unfold readData
    simp only
    congr 2
    funext got t
    by_cases hgot : got = []
    · rw [if_pos hgot, if_pos hgot]
    · have hpos : 0 < got.length := List.length_pos_iff.2 hgot
      rw [if_neg hgot, if_neg hgot]
      exact readData_fuel bufLen fuel fuel' _ _ t (by omega) (by omega)

/-- **The loop collects what flows.** -/
theorem readData_flows {bufLen : Nat} (hbuf : 0 < bufLen) {s s' : S} {bytes : List Byte}
    (h : Flows recv bufLen s bytes s') : ∀ (fuel : Nat) (msg : List Byte) (t : SockTTY S), bytes.length ≤ fuel →
      t.client = s → readData recv bufLen fuel bytes.length msg t = (.ok (msg ++ bytes), { t with client := s' }) := by
  induction h with
  | done s =>
    intro fuel msg t _ ht
    subst ht
    cases fuel with
    | zero => simp [readData]
    | succ fuel => simp [readData]
  | @more s s₁ s₂ got rest hgot hrecv _ ih =>
    intro fuel msg t hfuel ht
    subst ht
    have hpos : 0 < got.length := List.length_pos_iff.2 hgot
    rw [List.length_append] at hfuel
    cases fuel with
    | zero => omega
    | succ fuel =>
      unfold readData
      simp only
      rw [if_neg (by rw [List.length_append]; omega), nonBlockingRecv_ok hrecv, Res.andThen_ok, if_neg hgot,
        List.length_append, Nat.add_sub_cancel_left, ih fuel _ _ (by omega) rfl, List.append_assoc]

/-! ## One message -/

/-- **A message comes whole off the socket**: its length or window size in one piece, its data without a gap. -/
def Comes (recv : Recv S) (s : S) (m : TtyMsg) (s' : S) : Prop :=
  match m with
  | .data d => ∃ s₁ s₂, recv 1 s = (.ok [msgTyData], s₁) ∧ recv 2 s₁ = (.ok (toLe16 (BitVec.ofNat 16 d.length)), s₂) ∧
      Flows recv bufferSize s₂ d s'
  | .resize size => ∃ s₁, recv 1 s = (.ok [msgTyTtyResize], s₁) ∧
      recv 4 s₁ = (.ok (toLe16 size.rows ++ toLe16 size.cols), s')

theorem Comes.stream {stream : S → List Byte} (hstream : Streams recv stream) {s s' : S} {m : TtyMsg}
    (h : Comes recv s m s') : stream s = m.bytes ++ stream s' := by
  cases m with
  | data d =>
    obtain ⟨s₁, s₂, htype, hlen, hflow⟩ := h
    rw [hstream.takes htype, hstream.takes hlen, hstream.flows hflow]
    simp [TtyMsg.bytes]
  | resize size =>
    obtain ⟨s₁, htype, hsize⟩ := h
    rw [hstream.takes htype, hstream.takes hsize]
    simp [TtyMsg.bytes]

theorem Comes.map {T : Type} {recv' : Recv T} (f : S → T)
    (hsim : ∀ n s, n ≤ bufferSize → recv' n (f s) = ((recv n s).1, f (recv n s).2)) {s s' : S} {m : TtyMsg}
    (h : Comes recv s m s') : Comes recv' (f s) m (f s') := by
  cases m with
  | data d =>
    obtain ⟨s₁, s₂, htype, hlen, hflow⟩ := h
    refine ⟨f s₁, f s₂, ?_, ?_, hflow.map f hsim⟩
    · rw [hsim 1 s (by decide), htype]
    · rw [hsim 2 s₁ (by decide), hlen]
  | resize size =>
    obtain ⟨s₁, htype, hsize⟩ := h
    refine ⟨f s₁, ?_, ?_⟩
    · rw [hsim 1 s (by decide), htype]
    · rw [hsim 4 s₁ (by decide), hsize]

/-- A window size that comes whole is set, or refused when it has no area. -/
theorem readFromSocket_resize {bufLen : Nat} {size : Winsize} {t : SockTTY S} {s₁ s' : S}
    (htype : recv 1 t.client = (.ok [msgTyTtyResize], s₁))
    (hsize : recv 4 s₁ = (.ok (toLe16 size.rows ++ toLe16 size.cols), s')) :
    readFromSocket recv bufLen t =
      if size.rows = 0 ∨ size.cols = 0 then (.err (.other "invalid resize message"), { t with client := s' })
      else (.ok (.continue_, []), { t with client := s', sizes := t.sizes ++ [size] }) := by
  have hr : le16At (toLe16 size.rows ++ toLe16 size.cols) 0 = size.rows := le16At_toLe16 _ _
  have hc : le16At (toLe16 size.rows ++ toLe16 size.cols) 2 = size.cols := le16At_toLe16 size.cols []
  have hbytes : recvZeroed recv 4 { t with client := s₁ } = (.ok _, { t with client := s' }) := recvZeroed_ok hsize rfl
  unfold readFromSocket
  rw [recvZeroed_ok htype rfl, Res.andThen_ok]
  simp only
  rw [if_neg (by decide), if_neg (by decide), if_pos (by rfl)]
  unfold handleTtyResize
  rw [hbytes, Res.andThen_ok]
  simp only [hr, hc]
  split
  · rfl
  · rfl

/-- **A message that comes whole is decoded as it was sent.** -/
theorem readFromSocket_comes {m : TtyMsg} (hm : m.WellFormed) {t : SockTTY S} {s' : S} (h : Comes recv t.client m s') :
    readFromSocket recv bufferSize t =
      (.ok (m.action, m.payload), { t with client := s', sizes := t.sizes ++ m.sizes }) := by
  cases m with
  | data d =>
    obtain ⟨s₁, s₂, htype, hlen, hflow⟩ := h
    obtain ⟨hpos, hmax⟩ := hm
    have hlength : (le16At (toLe16 (BitVec.ofNat 16 d.length)) 0).toNat = d.length := by
      rw [← List.append_nil (toLe16 _), le16At_toLe16, BitVec.toNat_ofNat, Nat.mod_eq_of_lt (by omega)]
    have hbytes : recvZeroed recv 2 { t with client := s₁ } = (.ok _, { t with client := s₂ }) := recvZeroed_ok hlen rfl
    unfold readFromSocket
    rw [recvZeroed_ok htype rfl, Res.andThen_ok]
    simp only
    rw [if_neg (by decide), if_pos (by rfl)]
    unfold handleSocketData
    rw [hbytes, Res.andThen_ok]
    simp only [hlength]
    rw [if_neg (by omega), readData_flows (by decide) hflow _ _ _ (Nat.le_refl _) rfl, Res.andThen_ok]
    simp [TtyMsg.action, TtyMsg.payload, TtyMsg.sizes]
  | resize size =>
    obtain ⟨s₁, htype, hsize⟩ := h
    rw [readFromSocket_resize htype hsize, if_neg (not_or.2 hm)]
    rfl

/-- **A socket that would block is reported as such**, and nothing else happens. -/
theorem readFromSocket_blocked {bufLen : Nat} {t : SockTTY S} {s' : S}
    (h : recv 1 t.client = (.error .wouldBlock, s')) :
    readFromSocket recv bufLen t = (.ok (.wouldBlock, []), { t with client := s' }) := by
  unfold readFromSocket recvZeroed nonBlockingRecv
  rw [h]
  rfl

/-! ## A stream that has arrived -/

/-- The bytes of a sequence of messages. -/
def wire (ms : List TtyMsg) : List Byte := ms.flatMap TtyMsg.bytes

/-- What a call that decodes a message returns. -/
def decoded (m : TtyMsg) : Res IoError (SocketAction × List Byte) := .ok (m.action, m.payload)

theorem comes_available {m : TtyMsg} (hm : m.WellFormed) (rest : List Byte) :
    Comes available (m.bytes ++ rest) m rest := by
  cases m with
  | data d =>
    have hlen : available 2 (toLe16 (BitVec.ofNat 16 d.length) ++ (d ++ rest)) = (.ok _, d ++ rest) :=
      available_append _ _ (by simp [toLe16])
    refine ⟨toLe16 (BitVec.ofNat 16 d.length) ++ (d ++ rest), d ++ rest, ?_, hlen, ?_⟩
    · rw [← List.append_assoc]
      exact available_append [msgTyData] _ (by simp)
    · exact flows_available bufferSize (by decide) d rest
  | resize size =>
    have hsize : available 4 ((toLe16 size.rows ++ toLe16 size.cols) ++ rest) = (.ok _, rest) :=
      available_append _ _ (by simp [toLe16])
    refine ⟨toLe16 size.rows ++ toLe16 size.cols ++ rest, ?_, hsize⟩
    exact available_append [msgTyTtyResize] _ (by simp)

theorem reads_add (n k : Nat) (t : SockTTY S) :
    reads recv (n + k) t = ((reads recv n t).1 ++ (reads recv k (reads recv n t).2).1,
      (reads recv k (reads recv n t).2).2) := by
  induction n generalizing t with
  | zero => simp [reads]
  | succ n ih =>
    rw [Nat.add_right_comm]
    simp only [reads, ih, List.cons_append]

/-- **Well-formed messages are decoded one by one**, and what follows them is left. -/
theorem reads_wire : ∀ (ms : List TtyMsg) (rest : List Byte) (t : SockTTY (List Byte)), (∀ m ∈ ms, m.WellFormed) →
    t.client = wire ms ++ rest →
      reads available ms.length t =
        (ms.map decoded, { t with client := rest, sizes := t.sizes ++ ms.flatMap TtyMsg.sizes })
  | [], rest, t, _, ht => by
    simp only [wire, List.flatMap_nil, List.nil_append] at ht
    subst ht
    simp [reads]
  | m :: ms, rest, t, hwf, ht => by
    have hm := hwf m List.mem_cons_self
    rw [wire, List.flatMap_cons, List.append_assoc] at ht
    have hcomes := comes_available hm (wire ms ++ rest)
    have hread := readFromSocket_comes hm (ht ▸ hcomes)
    have hrest := reads_wire ms rest { t with client := wire ms ++ rest, sizes := t.sizes ++ m.sizes }
      (fun m' hm' => hwf m' (List.mem_cons_of_mem _ hm')) rfl
    simp only [List.length_cons, reads, hread, hrest, List.map_cons, List.flatMap_cons, List.append_assoc]
    rfl

theorem reads_exhausted (k : Nat) (t : SockTTY (List Byte)) (ht : t.client = []) :
    reads available k t = (List.replicate k (.ok (.wouldBlock, [])), t) := by
  obtain ⟨client, written, sizes⟩ := t
  simp only at ht
  subst ht
  induction k with
  | zero => rfl
  | succ k ih =>
    have hread : readFromSocket available bufferSize (⟨[], written, sizes⟩ : SockTTY (List Byte)) =
        (.ok (.wouldBlock, []), ⟨[], written, sizes⟩) := readFromSocket_blocked (available_nil 1)
    simp only [reads, hread, ih, List.replicate_succ]

end SockTTY
end Oathgate
