import Oathgate.LibSocket
import Oathgate.VhostDevice
/-!
# VhostStream — the control stream of a device (`oathgate-vhost`: `device.rs`, `read_stream`; `types.rs`, `parse`)

A message is read in two receives, a header of twelve bytes with its descriptors and the payload the header announces,
both into zeroed buffers and neither checked for its length.  A `Link` is a machine and the socket its front end sends
on, in as many sends for a message as it likes.  As long as no round of the read loop comes inside a message, what the
machine makes of the bytes is a run over the messages (`control_stream_in_order`): they are handled in order, none
twice, and none is lost.  A round that comes between a header and its payload takes the header away
(`header_alone_is_lost`).
-/
namespace Oathgate

open Lib

variable {Q S G C R W E T : Type}

/-! ## Receiving a message -/

/-- The sizes are read at fixed places: a shorter slice panics. -/
def VHostHeader.parse {ε : Type} (pkt : List Byte) (ancillary : List ControlMessage) :
    Res ε (VHostHeader × BitVec 32) := do
  let ty ← le32In pkt 0 4
  let flags ← le32In pkt 4 8
  let sz ← le32In pkt 8 12
  return ({ ty, flags, ancillary, payload := none }, sz)

def VHostHeader.setPayload (payload : List Byte) (hdr : VHostHeader) : VHostHeader :=
  { hdr with payload := some payload }

/-- A header has the control messages it was parsed with. -/
theorem VHostHeader.ancillary_parse {ε : Type} {pkt : List Byte} {ancillary : List ControlMessage} {hdr : VHostHeader}
    {sz : BitVec 32} (h : (VHostHeader.parse pkt ancillary : Res ε _) = .ok (hdr, sz)) : hdr.ancillary = ancillary := by
  unfold VHostHeader.parse at h
  simp only [Res.bind_eq_ok, Res.pure_eq, Res.ok.injEq, Prod.mk.injEq] at h
  obtain ⟨ty, -, flags, -, sz', -, rfl, -⟩ := h
  rfl

/-- What a `recvmsg` returned: its bytes, and its control messages unless they were cut off. -/
structure RecvMsg where
  bytes : List Byte
  cmsgs : Except Errno (List ControlMessage)

inductive StreamError (E : Type) where
  | errno (e : Errno)
  | headerMissing
  | control (e : ControlError E)

namespace Device

/-- `recvmsg` with `MSG_DONTWAIT`: room for so much control data, and for so many bytes. -/
abbrev RecvMsgCall (T : Type) := (space n : Nat) → T → Except Errno RecvMsg × T

variable (recvmsg : RecvMsgCall T)

/-- `cmsg_space!([RawFd; 1])`: a header of sixteen bytes, a descriptor of four and padding to a multiple of eight. -/
def cmsgSpace : Nat := 24

/-- The first `recvmsg` of `read_stream`, into twelve zeros. -/
def recvHeader (strm : T) : Res (StreamError E) (VHostHeader × BitVec 32) × T :=
  match recvmsg cmsgSpace 12 strm with
  | (.error e, strm) => (.err (.errno e), strm)
  | (.ok rmsg, strm) =>
    -- `iovs` has a slice when there are bytes
    if rmsg.bytes = [] then (.err .headerMissing, strm)
    else
      match rmsg.cmsgs with
      | .error e => (.err (.errno e), strm)
      | .ok ancillary =>
        (VHostHeader.parse (rmsg.bytes ++ List.replicate (12 - rmsg.bytes.length) 0) ancillary, strm)

/-- The second `recvmsg`, into `sz` zeros; without a payload there is none. -/
def recvPayload (hdr : VHostHeader) (sz : BitVec 32) (strm : T) : Res (StreamError E) VHostHeader × T :=
  if 0 < sz.toNat then
    match recvmsg 0 sz.toNat strm with
    | (.error e, strm) => (.err (.errno e), strm)
    | (.ok rmsg, strm) =>
      (.ok (hdr.setPayload (rmsg.bytes ++ List.replicate (sz.toNat - rmsg.bytes.length) 0)), strm)
  else (.ok hdr, strm)

def recvMessage (strm : T) : Res (StreamError E) VHostHeader × T :=
  Res.andThen (recvHeader recvmsg strm) fun (hdr, sz) strm => recvPayload recvmsg hdr sz strm

/-- `VirtioDevice::read_stream` -/
def readStream (sys : VhostSystem Q S E) (d : Device Q S) (strm : T) : Res (StreamError E) Unit × Device Q S × T :=
  match (recvMessage recvmsg strm : Res (StreamError E) VHostHeader × T) with
  | (.ok hdr, strm) =>
    let (r, d) := d.parseMsg sys hdr
    (r.mapErr .control, d, strm)
  | (.err e, strm) => (.err e, d, strm)
  | (.panic p, strm) => (.panic p, d, strm)

end Device

/-! ## What a front end sends -/

/-- A message of the front end, with the descriptors that go along. -/
structure FrontEndMsg where
  ty : BitVec 32
  flags : BitVec 32
  payload : List Byte
  fds : List Nat
  sized : payload.length < 2 ^ 32

namespace FrontEndMsg

def head (msg : FrontEndMsg) : List Byte :=
  toLe32 msg.ty ++ toLe32 msg.flags ++ toLe32 (BitVec.ofNat 32 msg.payload.length)

def bytes (msg : FrontEndMsg) : List Byte := Device.frontEndMsg msg.ty msg.flags msg.payload

/-- The control data of the first send of a message. -/
def control (msg : FrontEndMsg) : Option (List Nat) := if msg.fds = [] then none else some msg.fds

/-- What the device is to make of a message. -/
def header (msg : FrontEndMsg) : VHostHeader where
  ty := msg.ty
  flags := msg.flags
  ancillary := if msg.fds = [] then [] else [.scmRights msg.fds]
  payload := if msg.payload = [] then none else some msg.payload

theorem bytes_eq (msg : FrontEndMsg) : msg.bytes = msg.head ++ msg.payload := rfl

theorem length_head (msg : FrontEndMsg) : msg.head.length = 12 := rfl

/-- **A header is read back**, whatever control data came with it. -/
theorem parse_head {ε : Type} (msg : FrontEndMsg) (ancillary : List ControlMessage) :
    (VHostHeader.parse msg.head ancillary : Res ε _) =
      .ok (⟨msg.ty, msg.flags, ancillary, none⟩, BitVec.ofNat 32 msg.payload.length) := by
  have hty : le32At msg.head 0 = msg.ty := by
    rw [head, List.append_assoc, le32At_toLe32]
  have hflags : le32At msg.head 4 = msg.flags := concat_bytes32 _
  have hsz : le32At msg.head 8 = BitVec.ofNat 32 msg.payload.length := concat_bytes32 _
  have hlen := msg.length_head
  unfold VHostHeader.parse
  rw [le32In_eq _ 0 (by omega), le32In_eq _ 4 (by omega), le32In_eq _ 8 (by omega), hty, hflags, hsz]
  rfl

theorem toNat_size (msg : FrontEndMsg) : (BitVec.ofNat 32 msg.payload.length).toNat = msg.payload.length := by
  rw [BitVec.toNat_ofNat, Nat.mod_eq_of_lt msg.sized]

end FrontEndMsg

/-- The table of one region as a front end sends it. -/
def tableSend : FrontEndMsg where
  ty := 5
  flags := 1
  payload := toLe32 1 ++ toLe32 0 ++ (toLe64 Device.lowRegion.guestAddress ++ toLe64 Device.lowRegion.size ++
    toLe64 Device.lowRegion.userAddress ++ toLe64 Device.lowRegion.mmapOffset)
  fds := [9]
  sized := by decide

/-! ## The socket -/

/-- `ENOBUFS` -/
def enobufs : Errno := .other 105

/-- **What `read_stream` relies on in `nix`**: a receive takes what is on the socket, up to the room it is given;
without control data there are no control messages, descriptors that fit the space are one message, and `cmsgs` fails
where they were cut off.  Descriptors take four bytes each, behind a header of sixteen. -/
structure Device.RecvMsgCall.Lawful (recvmsg : Device.RecvMsgCall (Channel (List Nat))) : Prop where
  fails : ∀ {space n strm e strm'}, strm.recv n = (.error e, strm') → recvmsg space n strm = (.error e, strm')
  plain : ∀ {space n strm bytes strm'}, strm.recv n = (.ok (bytes, none), strm') →
    recvmsg space n strm = (.ok ⟨bytes, .ok []⟩, strm')
  fits : ∀ {space n strm bytes fds strm'}, strm.recv n = (.ok (bytes, some fds), strm') →
    16 + 4 * fds.length ≤ space → recvmsg space n strm = (.ok ⟨bytes, .ok [.scmRights fds]⟩, strm')
  cutOff : ∀ {space n strm bytes fds strm'}, strm.recv n = (.ok (bytes, some fds), strm') →
    space < 16 + 4 * fds.length → recvmsg space n strm = (.ok ⟨bytes, .error enobufs⟩, strm')

/-- **The message lies on the socket** in pieces, but for what is left to send; its header and its descriptors are with
the first piece. -/
def FrontEndMsg.Lies (msg : FrontEndMsg) (segs : List (Segment (List Nat))) (left : List Byte) : Prop :=
  ∃ (first : List Byte) (pieces : List (List Byte)),
    segs = ⟨first, msg.control⟩ :: pieces.map (fun p => ⟨p, none⟩) ∧ 12 ≤ first.length ∧ (∀ p ∈ pieces, p ≠ []) ∧
    msg.bytes = first ++ pieces.flatten ++ left

/-- What is on the socket behind the header: pieces that hold the payload. -/
theorem FrontEndMsg.Lies.front {msg : FrontEndMsg} {segs : List (Segment (List Nat))} (h : msg.Lies segs [])
    (rest : List (Segment (List Nat))) (closed : Bool) :
    ∃ tail : List (List Byte), (∀ p ∈ tail, p ≠ []) ∧ tail.flatten = msg.payload ∧
      Channel.recv 12 ⟨segs ++ rest, closed⟩ =
        (.ok (msg.head, msg.control), ⟨tail.map (fun p => ⟨p, none⟩) ++ rest, closed⟩) := by
  obtain ⟨first, pieces, rfl, hlen, hpieces, hbytes⟩ := h
  rw [List.append_nil, msg.bytes_eq] at hbytes
  -- the first piece is the header and the beginning of the payload
  obtain ⟨b, rfl⟩ : ∃ b, first = msg.head ++ b := by
    refine ⟨first.drop 12, ?_⟩
    have hhead := congrArg (List.take 12) hbytes
    rw [← msg.length_head, List.take_left, List.take_append_of_le_length (msg.length_head ▸ hlen)] at hhead
    rw [hhead, ← msg.length_head, List.take_append_drop]
  rw [List.append_assoc, List.append_cancel_left_eq] at hbytes
  have hne : msg.head ≠ [] := List.ne_nil_of_length_pos (by rw [msg.length_head]; decide)
  have hfront := Channel.recv_front msg.head b hne msg.control (pieces.map (fun p => ⟨p, none⟩) ++ rest) closed
  rw [msg.length_head] at hfront
  by_cases hb : b = []
  · subst hb
    exact ⟨pieces, hpieces, hbytes.symm, hfront⟩
  · rw [if_neg hb] at hfront
    exact ⟨b :: pieces, List.forall_mem_cons.2 ⟨hb, hpieces⟩, hbytes.symm, hfront⟩

namespace Device

variable {recvmsg : RecvMsgCall (Channel (List Nat))}

theorem recvHeader_lies (hrecv : recvmsg.Lawful) {msg : FrontEndMsg} {tail : List (Segment (List Nat))}
    {strm : Channel (List Nat)} {closed : Bool}
    (hfront : strm.recv 12 = (.ok (msg.head, msg.control), ⟨tail, closed⟩)) :
    (recvHeader recvmsg strm : Res (StreamError E) _ × _) =
      (if msg.fds.length ≤ 2 then
        .ok (⟨msg.ty, msg.flags, msg.header.ancillary, none⟩, BitVec.ofNat 32 msg.payload.length)
      else .err (.errno enobufs), ⟨tail, closed⟩) := by
  have hne : msg.head ≠ [] := List.ne_nil_of_length_pos (by rw [msg.length_head]; decide)
  unfold recvHeader
  unfold FrontEndMsg.control at hfront
  by_cases hnone : msg.fds = []
  · rw [if_pos hnone] at hfront
    rw [hrecv.plain hfront, if_pos (by simp [hnone])]
    simp only [if_neg hne, msg.length_head, Nat.sub_self, List.replicate_zero, List.append_nil, msg.parse_head,
      FrontEndMsg.header, if_pos hnone]
  · rw [if_neg hnone] at hfront
    by_cases hfds : msg.fds.length ≤ 2
    · rw [hrecv.fits hfront (by unfold cmsgSpace; omega), if_pos hfds]
      simp only [if_neg hne, msg.length_head, Nat.sub_self, List.replicate_zero, List.append_nil, msg.parse_head,
        FrontEndMsg.header, if_neg hnone]
    · rw [hrecv.cutOff hfront (by unfold cmsgSpace; omega), if_neg hfds]
      simp only [if_neg hne]

/-- **A message that lies on the socket is received whole**, unless its descriptors do not fit. -/
theorem recvMessage_lies (hrecv : recvmsg.Lawful) {msg : FrontEndMsg} {segs : List (Segment (List Nat))}
    (h : msg.Lies segs []) (rest : List (Segment (List Nat))) (closed : Bool) :
    (msg.fds.length ≤ 2 → (recvMessage recvmsg ⟨segs ++ rest, closed⟩ : Res (StreamError E) _ × _) =
      (.ok msg.header, ⟨rest, closed⟩)) ∧
    (2 < msg.fds.length → (recvMessage recvmsg ⟨segs ++ rest, closed⟩ : Res (StreamError E) VHostHeader × _).1 =
      .err (.errno enobufs)) := by
  obtain ⟨tail, htail, hpayload, hfront⟩ := h.front rest closed
  unfold recvMessage
  rw [recvHeader_lies hrecv hfront]
  constructor
  · intro hfds
    rw [if_pos hfds, Res.andThen_ok]
    simp only [recvPayload, msg.toNat_size]
    by_cases hpay : msg.payload = []
    · have hnone : tail = [] := by
        cases tail with
        | nil => rfl
        | cons p tail =>
          rw [hpay, List.flatten_cons, List.append_eq_nil_iff] at hpayload
          exact absurd hpayload.1 (htail p List.mem_cons_self)
      rw [if_neg (by rw [hpay]; decide), hnone]
      simp only [FrontEndMsg.header, if_pos hpay, List.map_nil, List.nil_append]
    · have hsome : tail ≠ [] := by
        rintro rfl
        exact hpay hpayload.symm
      have hpieces := Channel.recv_pieces hsome htail rest closed
      rw [hpayload] at hpieces
      rw [if_pos (List.length_pos_iff.2 hpay), hrecv.plain hpieces]
      simp only [VHostHeader.setPayload, FrontEndMsg.header, if_neg hpay, Nat.sub_self, List.replicate_zero,
        List.append_nil]
  · intro hfds
    rw [if_neg (by omega), Res.andThen_err]

theorem recvMessage_drained (hrecv : recvmsg.Lawful) (closed : Bool) :
    (recvMessage recvmsg ⟨[], closed⟩ : Res (StreamError E) VHostHeader × _) =
      (.err (if closed then .headerMissing else .errno .wouldBlock), ⟨[], closed⟩) := by
  unfold recvMessage recvHeader
  cases closed with
  | false =>
    have hblocks : Channel.recv 12 (⟨[], false⟩ : Channel (List Nat)) = (.error .wouldBlock, ⟨[], false⟩) := rfl
    rw [hrecv.fails hblocks]
    rfl
  | true =>
    have hends : Channel.recv 12 (⟨[], true⟩ : Channel (List Nat)) = (.ok ([], none), ⟨[], true⟩) := rfl
    rw [hrecv.plain hends]
    rfl

end Device

/-! ## Several messages on the socket -/

/-- **The messages lie on the socket one behind the other**; the last one may still be being sent. -/
inductive OnSocket : List FrontEndMsg → List (Segment (List Nat)) → List Byte → Prop where
  | nil : OnSocket [] [] []
  | whole {msg : FrontEndMsg} {flight : List FrontEndMsg} {own segs : List (Segment (List Nat))} {left : List Byte} :
      msg.Lies own [] → OnSocket flight segs left → OnSocket (msg :: flight) (own ++ segs) left
  | sending {msg : FrontEndMsg} {segs : List (Segment (List Nat))} {left : List Byte} :
      msg.Lies segs left → left ≠ [] → OnSocket [msg] segs left

theorem OnSocket.of_lies {msg : FrontEndMsg} {segs : List (Segment (List Nat))} {left : List Byte}
    (h : msg.Lies segs left) : OnSocket [msg] segs left := by
  by_cases hleft : left = []
  · subst hleft
    have hwhole := OnSocket.whole h .nil
    rwa [List.append_nil] at hwhole
  · exact .sending h hleft

/-- The front end begins another message. -/
theorem OnSocket.send {flight : List FrontEndMsg} {segs : List (Segment (List Nat))} {left : List Byte}
    (h : OnSocket flight segs left) (hleft : left = []) (msg : FrontEndMsg) {n : Nat} (hn : 12 ≤ n) :
    OnSocket (flight ++ [msg]) (segs ++ [⟨msg.bytes.take n, msg.control⟩]) (msg.bytes.drop n) := by
  induction h with
  | nil =>
    refine .of_lies ⟨msg.bytes.take n, [], rfl, ?_, nofun, ?_⟩
    · rw [List.length_take, msg.bytes_eq, List.length_append, msg.length_head]
      omega
    · rw [List.flatten_nil, List.append_nil, List.take_append_drop]
  | whole hlies _ ih =>
    rw [List.cons_append, List.append_assoc]
    exact .whole hlies (ih hleft)
  | sending _ hne => exact absurd hleft hne

/-- The front end sends more of a message. -/
theorem OnSocket.more {flight : List FrontEndMsg} {segs : List (Segment (List Nat))} {left : List Byte}
    (h : OnSocket flight segs left) (hleft : left ≠ []) {n : Nat} (hn : 0 < n) :
    OnSocket flight (segs ++ [⟨left.take n, none⟩]) (left.drop n) := by
  induction h with
  | nil => exact absurd rfl hleft
  | whole hlies _ ih =>
    rw [List.append_assoc]
    exact .whole hlies (ih hleft)
  | @sending msg segs left hlies _ =>
    obtain ⟨first, pieces, rfl, hlen, hpieces, hbytes⟩ := hlies
    refine .of_lies ⟨first, pieces ++ [left.take n], ?_, hlen, ?_, ?_⟩
    · rw [List.map_append]
      rfl
    · intro p hp
      rcases List.mem_append.1 hp with hp | hp
      · exact hpieces p hp
      · rw [List.mem_singleton.1 hp, Ne, List.take_eq_nil_iff]
        rintro (rfl | hnil)
        · exact absurd hn (Nat.lt_irrefl 0)
        · exact hleft hnil
    · rw [hbytes, List.flatten_append, List.flatten_singleton, List.append_assoc, List.append_assoc, List.append_assoc,
        List.take_append_drop]

/-! ## A device and its front end -/

/-- A machine and the socket its front end sends on, with what is left of the message the front end is sending. -/
structure Link (Q S G : Type) where
  machine : Machine Q S G
  strm : Channel (List Nat)
  unsent : List Byte

/-- The front end sends so many bytes of a new message, with its descriptors, or so many more of the message it is
sending, or closes its end; the device makes a round of its read loop, or does something that is not about the
socket. -/
inductive LinkEvent (G C : Type) where
  | send (msg : FrontEndMsg) (n : Nat)
  | more (n : Nat)
  | close
  | round
  | other (l : Event G × Served C)

namespace Link

variable (recvmsg : Device.RecvMsgCall (Channel (List Nat))) (sys : VhostSystem Q S E)
  (lib : Option (List GuestRegion) → VirtioQueue Q G C R W E)

/-- A round of the loop `'read`. -/
def readRound (k : Link Q S G) : Res (StreamError E) Unit × Link Q S G :=
  let (r, dev, strm) := Device.readStream recvmsg sys k.machine.dev k.strm
  (r, { k with machine := { k.machine with dev }, strm })

/-- **What happens while the device runs.**  A round without an error is followed by another, one that would block ends
the loop until more is sent; any other error ends the device. -/
def Step (k : Link Q S G) (l : LinkEvent G C) (k' : Link Q S G) : Prop :=
  match l with
  | .send msg n => k.strm.closed = false ∧ k.unsent = [] ∧ 0 < n ∧
      k' = { k with strm := k.strm.send ⟨msg.bytes.take n, msg.control⟩, unsent := msg.bytes.drop n }
  | .more n => k.strm.closed = false ∧ k.unsent ≠ [] ∧ 0 < n ∧
      k' = { k with strm := k.strm.send ⟨k.unsent.take n, none⟩, unsent := k.unsent.drop n }
  | .close => k' = { k with strm := { k.strm with closed := true } }
  | .round => k.readRound recvmsg sys = (.ok (), k') ∨ k.readRound recvmsg sys = (.err (.errno .wouldBlock), k')
  | .other l => (∀ hdr, l.1 ≠ .message hdr) ∧ Machine.Step sys lib k.machine l k'.machine ∧ k'.strm = k.strm ∧
      k'.unsent = k.unsent

/-- **A step that comes inside no header and no message**: a header is sent at once, and the device makes no round
while a message is being sent. -/
def UncutStep (k : Link Q S G) (l : LinkEvent G C) (k' : Link Q S G) : Prop :=
  Step recvmsg sys lib k l k' ∧ (∀ msg n, l = .send msg n → 12 ≤ n) ∧ (l = .round → k.unsent = [])

/-- The messages a front end sent, or began to send. -/
def sent (ls : List (LinkEvent G C)) : List FrontEndMsg :=
  ls.filterMap fun
    | .send msg _ => some msg
    | _ => none

/-- The events of a run that are not about the socket. -/
def others (ls : List (LinkEvent G C)) : List (Event G × Served C) :=
  ls.filterMap fun
    | .other l => some l
    | _ => none

/-- The messages handled in a run of a machine. -/
def messages (ms : List (Event G × Served C)) : List VHostHeader :=
  ms.filterMap fun l =>
    match l.1 with
    | .message hdr => some hdr
    | _ => none

/-- The events of a run of a machine that are no messages. -/
def silent (ms : List (Event G × Served C)) : List (Event G × Served C) :=
  ms.filter fun l =>
    match l.1 with
    | .message _ => false
    | _ => true

/-- **A run over bytes is a run over messages**: of the messages sent, `done` are handled by the run `ms` of the
machine, which does everything else as it was done, and `flight` are still on the socket. -/
structure Refines (m₀ : Machine Q S G) (ls : List (LinkEvent G C)) (k : Link Q S G) (ms : List (Event G × Served C))
    (done flight : List FrontEndMsg) : Prop where
  run : Run (Machine.Step sys lib) m₀ ms k.machine
  sent : sent ls = done ++ flight
  messages : messages ms = done.map FrontEndMsg.header
  others : silent ms = others ls
  fits : ∀ msg ∈ done, msg.fds.length ≤ 2
  strm : OnSocket flight k.strm.segments k.unsent

/-- What the next round is to do to the machine with these messages on the socket. -/
def nextRound (k : Link Q S G) (flight : List FrontEndMsg) : Res (StreamError E) Unit × Machine Q S G :=
  match flight with
  | [] => (.err (if k.strm.closed then .headerMissing else .errno .wouldBlock), k.machine)
  | msg :: _ =>
    if msg.fds.length ≤ 2 then
      let (r, dev) := k.machine.dev.parseMsg sys msg.header
      (r.mapErr .control, { k.machine with dev })
    else (.err (.errno enobufs), k.machine)

variable {recvmsg sys lib}

/-- A round that receives a message handles it. -/
theorem readRound_of_ok {k : Link Q S G} {hdr : VHostHeader} {strm : Channel (List Nat)}
    (h : (Device.recvMessage recvmsg k.strm : Res (StreamError E) _ × _) = (.ok hdr, strm)) :
    k.readRound recvmsg sys = ((k.machine.dev.parseMsg sys hdr).1.mapErr .control,
      { k with machine := { k.machine with dev := (k.machine.dev.parseMsg sys hdr).2 }, strm }) := by
  unfold readRound Device.readStream
  rw [h]

/-- A round that receives none leaves the machine as it was. -/
theorem readRound_of_not_ok (sys : VhostSystem Q S E) {k : Link Q S G}
    (h : ∀ hdr, (Device.recvMessage recvmsg k.strm : Res (StreamError E) VHostHeader × _).1 ≠ .ok hdr) :
    (k.readRound recvmsg sys).1 ≠ .ok () ∧ (k.readRound recvmsg sys).2.machine = k.machine ∧
      ∀ e, (Device.recvMessage recvmsg k.strm : Res (StreamError E) VHostHeader × _).1 = .err e →
        (k.readRound recvmsg sys).1 = .err e := by
  unfold readRound Device.readStream
  cases hrecv : (Device.recvMessage recvmsg k.strm : Res (StreamError E) VHostHeader × _) with | mk r strm
  rw [hrecv] at h
  cases r with
  | ok hdr => exact absurd rfl (h hdr)
  | err e =>
    refine ⟨nofun, rfl, ?_⟩
    rintro e' ⟨⟩
    rfl
  | panic p => exact ⟨nofun, rfl, nofun⟩

/-- **With no message cut, the next round** handles the first message on the socket, and leaves the others there. -/
theorem readRound_eq (sys : VhostSystem Q S E) (hrecv : recvmsg.Lawful) {k : Link Q S G} {flight : List FrontEndMsg}
    (hstrm : OnSocket flight k.strm.segments k.unsent) (hwhole : k.unsent = []) :
    ((k.readRound recvmsg sys).1, (k.readRound recvmsg sys).2.machine) = k.nextRound sys flight ∧
      ((k.readRound recvmsg sys).1 = .ok () →
        OnSocket flight.tail (k.readRound recvmsg sys).2.strm.segments (k.readRound recvmsg sys).2.unsent) ∧
      (flight = [] → (k.readRound recvmsg sys).2 = k) := by
  obtain ⟨machine, ⟨segments, closed⟩, unsent⟩ := k
  simp only at hstrm hwhole
  cases hstrm with
  | nil =>
    have hdrained := Device.recvMessage_drained (E := E) hrecv closed
    have hround : (⟨machine, ⟨[], closed⟩, []⟩ : Link Q S G).readRound recvmsg sys =
        (.err (if closed then .headerMissing else .errno .wouldBlock), ⟨machine, ⟨[], closed⟩, []⟩) := by
      unfold readRound Device.readStream
      simp only [hdrained]
    rw [hround]
    exact ⟨rfl, nofun, fun _ => rfl⟩
  | sending hlies hne => exact absurd hwhole hne
  | @whole msg flight own segs _ hlies hrest =>
    obtain ⟨hfits, hcut⟩ := Device.recvMessage_lies (E := E) hrecv hlies segs closed
    by_cases hfds : msg.fds.length ≤ 2
    · rw [readRound_of_ok (hfits hfds)]
      refine ⟨?_, fun _ => hrest, nofun⟩
      unfold nextRound
      simp only [if_pos hfds]
    · have herr := hcut (by omega)
      have hnone : ∀ hdr, (Device.recvMessage recvmsg ⟨own ++ segs, closed⟩ :
          Res (StreamError E) VHostHeader × _).1 ≠ .ok hdr := by
        rw [herr]
        exact nofun
      obtain ⟨hnot, hsame, hround⟩ := readRound_of_not_ok sys (k := ⟨machine, ⟨own ++ segs, closed⟩, unsent⟩) hnone
      refine ⟨?_, fun h => absurd h hnot, nofun⟩
      rw [hround _ herr, hsame]
      unfold nextRound
      simp only [if_neg hfds]

/-- **A header that a round finds alone is lost**: the round blocks for the payload, and the next one takes what comes
of the payload for a header. -/
theorem header_alone_is_lost (hrecv : recvmsg.Lawful) (msg : FrontEndMsg) (hpayload : msg.payload ≠ [])
    (hfds : msg.fds.length ≤ 2) (m : Machine Q S G) :
    (⟨m, ⟨[⟨msg.head, msg.control⟩], false⟩, msg.payload⟩ : Link Q S G).readRound recvmsg sys =
      (.err (.errno .wouldBlock), ⟨m, ⟨[], false⟩, msg.payload⟩) := by
  have hne : msg.head ≠ [] := List.ne_nil_of_length_pos (by rw [msg.length_head]; decide)
  have hfront := Channel.recv_front msg.head [] hne msg.control [] false
  rw [msg.length_head, List.append_nil, if_pos rfl] at hfront
  have hheader := Device.recvHeader_lies (E := E) hrecv hfront
  unfold readRound Device.readStream Device.recvMessage
  rw [hheader, if_pos hfds, Res.andThen_ok]
  simp only [Device.recvPayload, msg.toNat_size]
  have hblocks : Channel.recv msg.payload.length (⟨[], false⟩ : Channel (List Nat)) =
      (.error .wouldBlock, ⟨[], false⟩) := rfl
  rw [if_pos (List.length_pos_iff.2 hpayload), hrecv.fails hblocks]

section Run

variable {m₀ : Machine Q S G} {ls : List (LinkEvent G C)} {k k' : Link Q S G} {ms : List (Event G × Served C)}
  {done flight : List FrontEndMsg}

theorem Refines.send (h : Refines sys lib m₀ ls k ms done flight) (msg : FrontEndMsg) {n : Nat} (hn : 12 ≤ n)
    (hwhole : k.unsent = []) : Refines sys lib m₀ (ls ++ [.send msg n])
      { k with strm := k.strm.send ⟨msg.bytes.take n, msg.control⟩, unsent := msg.bytes.drop n } ms done
      (flight ++ [msg]) where
  run := h.run
  sent := by rw [Link.sent, List.filterMap_append, ← Link.sent, h.sent, List.append_assoc]; rfl
  messages := h.messages
  others := by rw [h.others, Link.others, Link.others, List.filterMap_append]; simp
  fits := h.fits
  strm := h.strm.send hwhole msg hn

/-- What changes neither the messages nor the machine. -/
theorem Refines.same (h : Refines sys lib m₀ ls k ms done flight) {l : LinkEvent G C}
    (hl : Link.sent [l] = [] ∧ Link.others [l] = []) (hmachine : k'.machine = k.machine)
    (hstrm : OnSocket flight k'.strm.segments k'.unsent) : Refines sys lib m₀ (ls ++ [l]) k' ms done flight where
  run := hmachine ▸ h.run
  sent := by rw [Link.sent, List.filterMap_append, ← Link.sent, ← Link.sent, h.sent, hl.1, List.append_nil]
  messages := h.messages
  others := by
    rw [h.others]
    unfold Link.others
    rw [List.filterMap_append, ← Link.others, ← Link.others, hl.2, List.append_nil]
  fits := h.fits
  strm := hstrm

theorem Refines.other (h : Refines sys lib m₀ ls k ms done flight) {l : Event G × Served C}
    (hl : ∀ hdr, l.1 ≠ .message hdr) (hstep : Machine.Step sys lib k.machine l k'.machine)
    (hstrm : k'.strm = k.strm) (hunsent : k'.unsent = k.unsent) :
    Refines sys lib m₀ (ls ++ [.other l]) k' (ms ++ [l]) done flight where
  run := .snoc h.run hstep
  sent := by rw [Link.sent, List.filterMap_append, ← Link.sent, h.sent]; simp
  messages := by
    rw [Link.messages, List.filterMap_append, ← Link.messages, h.messages, List.append_right_eq_self]
    obtain ⟨e, served⟩ := l
    cases e with
    | message hdr => exact absurd rfl (hl hdr)
    | _ => rfl
  others := by
    rw [Link.silent, List.filter_append, ← Link.silent, h.others, Link.others, Link.others, List.filterMap_append]
    obtain ⟨e, served⟩ := l
    cases e with
    | message hdr => exact absurd rfl (hl hdr)
    | _ => rfl
  fits := h.fits
  strm := by
    rw [hstrm, hunsent]
    exact h.strm

/-- A round that returns has handled the first message on the socket. -/
theorem Refines.handle (hrecv : recvmsg.Lawful) (h : Refines sys lib m₀ ls k ms done flight) (hwhole : k.unsent = [])
    (hround : k.readRound recvmsg sys = (.ok (), k')) :
    ∃ msg rest, flight = msg :: rest ∧
      Refines sys lib m₀ (ls ++ [.round]) k' (ms ++ [(.message msg.header, .nothing)]) (done ++ [msg]) rest := by
  obtain ⟨hnext, hleft, -⟩ := readRound_eq sys hrecv h.strm hwhole
  rw [hround] at hnext hleft
  unfold nextRound at hnext
  cases flight with
  | nil => cases hnext
  | cons msg rest =>
    simp only at hnext
    split at hnext
    · rename_i hfds
      simp only [Prod.mk.injEq] at hnext
      obtain ⟨hok, hmachine⟩ := hnext
      rw [eq_comm, Res.mapErr_eq_ok] at hok
      refine ⟨msg, rest, rfl, ?_⟩
      exact {
        run := by
          refine .snoc h.run ⟨0, ?_⟩
          simp only [Machine.exec, hok, Res.mapErr_ok, hmachine]
        sent := by rw [Link.sent, List.filterMap_append, ← Link.sent, h.sent]; simp
        messages := by
          rw [Link.messages, List.filterMap_append, ← Link.messages, h.messages, List.map_append]
          rfl
        others := by
          rw [Link.silent, List.filter_append, ← Link.silent, h.others, Link.others, Link.others,
            List.filterMap_append]
          rfl
        fits := by
          intro msg' hmsg
          rcases List.mem_append.1 hmsg with hmsg | hmsg
          · exact h.fits msg' hmsg
          · rwa [List.mem_singleton.1 hmsg]
        strm := hleft rfl }
    · cases hnext

/-- A round that would block has found nothing. -/
theorem Refines.drained (hrecv : recvmsg.Lawful) (h : Refines sys lib m₀ ls k ms done flight) (hwhole : k.unsent = [])
    (hround : k.readRound recvmsg sys = (.err (.errno .wouldBlock), k')) : flight = [] ∧ k' = k := by
  obtain ⟨hnext, -, hsame⟩ := readRound_eq sys hrecv h.strm hwhole
  rw [hround] at hnext hsame
  unfold nextRound at hnext
  cases flight with
  | nil => exact ⟨rfl, hsame rfl⟩
  | cons msg rest =>
    simp only at hnext
    split at hnext
    · obtain ⟨hres, -⟩ := Prod.mk.inj hnext
      cases hparse : (k.machine.dev.parseMsg sys msg.header).1 <;> simp [hparse, Res.mapErr] at hres
    · cases hnext

theorem refines_step (hrecv : recvmsg.Lawful) (h : Refines sys lib m₀ ls k ms done flight) {l : LinkEvent G C}
    (hstep : UncutStep recvmsg sys lib k l k') :
    ∃ ms' done' flight', Refines sys lib m₀ (ls ++ [l]) k' ms' done' flight' := by
  obtain ⟨hstep, hheader, hbetween⟩ := hstep
  cases l with
  | send msg n =>
    obtain ⟨-, hwhole, -, rfl⟩ := hstep
    exact ⟨_, _, _, h.send msg (hheader msg n rfl) hwhole⟩
  | more n =>
    obtain ⟨-, hunsent, hn, rfl⟩ := hstep
    exact ⟨_, _, _, h.same ⟨rfl, rfl⟩ rfl (h.strm.more hunsent hn)⟩
  | close =>
    cases hstep
    exact ⟨_, _, _, h.same ⟨rfl, rfl⟩ rfl h.strm⟩
  | round =>
    rcases hstep with hround | hround
    · obtain ⟨msg, rest, -, h'⟩ := h.handle hrecv (hbetween rfl) hround
      exact ⟨_, _, _, h'⟩
    · obtain ⟨-, rfl⟩ := h.drained hrecv (hbetween rfl) hround
      exact ⟨_, _, _, h.same ⟨rfl, rfl⟩ rfl h.strm⟩
  | other l =>
    obtain ⟨hl, hmachine, hstrm, hunsent⟩ := hstep
    exact ⟨_, _, _, h.other hl hmachine hstrm hunsent⟩

theorem refines_run (hrecv : recvmsg.Lawful) (hrun : Run (UncutStep recvmsg sys lib) ⟨m₀, ⟨[], false⟩, []⟩ ls k) :
    ∃ ms done flight, Refines sys lib m₀ ls k ms done flight := by
  refine Run.invariant (I := fun ls k => ∃ ms done flight, Refines sys lib m₀ ls k ms done flight) ?_ ?_ hrun
  · exact ⟨[], [], [], .nil, rfl, rfl, rfl, by simp, .nil⟩
  · rintro ls k l k' - ⟨ms, done, flight, h⟩ hstep
    exact refines_step hrecv h hstep

end Run
end Link

/-! ### A receive on a local socket -/

/-- Stands for `recvmsg`: the descriptors of a send are one control message, unless the space is too small for them. -/
def recvRights : Device.RecvMsgCall (Channel (List Nat)) := fun space n strm =>
  match strm.recv n with
  | (.error e, strm) => (.error e, strm)
  | (.ok (bytes, none), strm) => (.ok ⟨bytes, .ok []⟩, strm)
  | (.ok (bytes, some fds), strm) =>
    (.ok ⟨bytes, if 16 + 4 * fds.length ≤ space then .ok [.scmRights fds] else .error enobufs⟩, strm)

theorem recvRights_lawful : Device.RecvMsgCall.Lawful recvRights where
  fails h := by unfold recvRights; rw [h]
  plain h := by unfold recvRights; rw [h]
  fits h hspace := by unfold recvRights; rw [h]; simp only [if_pos hspace]
  cutOff h hspace := by unfold recvRights; rw [h]; simp only [if_neg (Nat.not_le.2 hspace)]

namespace Link

open Device in
/-- The front end sends the table of one region in two pieces, and the device handles it. -/
theorem run_table : Run (UncutStep (C := RingChain) recvRights plainSystem fun _ => readyQueue)
    ⟨.alone freshDevice Machine.oneChain [], ⟨[], false⟩, []⟩ [.send tableSend 12, .more 40, .round]
    ⟨.alone mappedDevice Machine.oneChain [], ⟨[], false⟩, []⟩ :=
  .cons ⟨⟨rfl, rfl, by decide, rfl⟩, by rintro _ _ ⟨⟩; exact Nat.le_refl 12, nofun⟩ <|
    .cons ⟨⟨rfl, by decide, by decide, rfl⟩, nofun, nofun⟩ <| .single ⟨Or.inl rfl, nofun, fun _ => rfl⟩

end Link

/-! ## The size of a table -/

/-- The memory of every ring is of at most two regions. -/
def Device.SmallMemory (d : Device Q S) : Prop :=
  ∀ mem ∈ d.queues.map Vring.mem, ∀ regions, mem = some regions → regions.length ≤ 2

namespace Device

variable {sys : VhostSystem Q S E}

theorem SmallMemory.congr {d d' : Device Q S} (h : d.SmallMemory)
    (hmem : d'.queues.map Vring.mem = d.queues.map Vring.mem) : d'.SmallMemory := by
  unfold SmallMemory
  rw [hmem]
  exact h

theorem MapsAll.length {descs : List (MemoryRegionDescription × Nat)} {s s' : S} {gms : List GuestRegion}
    (h : MapsAll sys descs s gms s') : gms.length = descs.length := by
  have hlen := congrArg List.length h.regions
  rwa [List.length_map, List.length_map] at hlen

theorem smallMemory_parseMsg {hdr : VHostHeader} (hfds : ∀ fds, hdr.extractFds = .ok fds → fds.length ≤ 2)
    {d : Device Q S} (h : d.SmallMemory) : (d.parseMsg sys hdr).2.SmallMemory := by
  by_cases hreq : Request.ofTy hdr.ty = some .setMemTable
  · have hout := parseMsg_outcome sys hreq d
    generalize (d.parseMsg sys hdr).1 = r, (d.parseMsg sys hdr).2 = d' at hout ⊢
    cases hout with
    | refused _ _ => exact h
    | stopped _ _ _ hqueues => exact h.congr (by rw [hqueues])
    | unfit _ _ _ _ hqueues => exact h.congr (by rw [hqueues])
    | @set _ table files gms s' _ hcarries hall _ hqueues _ =>
      -- as many regions as descriptors
      have hlen : gms.length ≤ 2 := by
        rw [hall.length, List.length_zip]
        exact (Nat.min_le_right _ _).trans (hfds files hcarries.2.1)
      intro mem hmem regions hregions
      rw [hqueues, List.map_map, List.mem_map] at hmem
      obtain ⟨vq, -, rfl⟩ := hmem
      cases hregions
      exact hlen
  · exact h.congr (parseMsg_other sys hreq d).2

end Device

theorem Machine.QueueOnly.smallMemory {d d' : Device Q S} (h : QueueOnly d d') (hd : d.SmallMemory) :
    d'.SmallMemory := by
  rcases h with rfl | ⟨idx, vq, queue, hvq, rfl⟩
  · exact hd
  · exact hd.congr (Device.map_set_same hvq rfl)

namespace Device

variable {recvmsg : RecvMsgCall (Channel (List Nat))}

/-- A header that is received has the control messages that came with it. -/
theorem ancillary_recvHeader {strm strm' : Channel (List Nat)} {hdr : VHostHeader} {sz : BitVec 32}
    (h : (recvHeader recvmsg strm : Res (StreamError E) _ × _) = (.ok (hdr, sz), strm')) :
    ∃ bytes t, recvmsg cmsgSpace 12 strm = (.ok ⟨bytes, .ok hdr.ancillary⟩, t) := by
  unfold recvHeader at h
  cases hgot : recvmsg cmsgSpace 12 strm with | mk r t
  rw [hgot] at h
  cases r with
  | error e => cases h
  | ok rmsg =>
    obtain ⟨bytes, cmsgs⟩ := rmsg
    simp only at h
    split at h
    · cases h
    · cases cmsgs with
      | error e => cases h
      | ok ancillary => exact ⟨bytes, t, by rw [VHostHeader.ancillary_parse (Prod.mk.inj h).1]⟩

/-- What a receive with room for a header's control data can say of descriptors. -/
theorem cmsgs_recvmsg (hrecv : recvmsg.Lawful) {n : Nat} {strm t : Channel (List Nat)} {bytes : List Byte}
    {cmsgs : List ControlMessage} (h : recvmsg cmsgSpace n strm = (.ok ⟨bytes, .ok cmsgs⟩, t)) :
    cmsgs = [] ∨ ∃ fds, cmsgs = [.scmRights fds] ∧ fds.length ≤ 2 := by
  cases hgot : strm.recv n with | mk r strm'
  cases r with
  | error e =>
    rw [hrecv.fails hgot] at h
    cases h
  | ok x =>
    obtain ⟨got, control⟩ := x
    cases control with
    | none =>
      rw [hrecv.plain hgot] at h
      simp only [Prod.mk.injEq, Except.ok.injEq, RecvMsg.mk.injEq] at h
      exact Or.inl h.1.2.symm
    | some fds =>
      by_cases hspace : 16 + 4 * fds.length ≤ cmsgSpace
      · rw [hrecv.fits hgot hspace] at h
        simp only [Prod.mk.injEq, Except.ok.injEq, RecvMsg.mk.injEq] at h
        refine Or.inr ⟨fds, h.1.2.symm, ?_⟩
        unfold cmsgSpace at hspace
        omega
      · rw [hrecv.cutOff hgot (by omega)] at h
        cases h

/-- **No message that is received has more than two descriptors**, however it was cut. -/
theorem fds_recvMessage (hrecv : recvmsg.Lawful) {strm strm' : Channel (List Nat)} {hdr : VHostHeader}
    (h : (recvMessage recvmsg strm : Res (StreamError E) _ × _) = (.ok hdr, strm')) {fds : List Nat}
    (hfds : hdr.extractFds = .ok fds) : fds.length ≤ 2 := by
  obtain ⟨⟨hdr₀, sz⟩, strm₀, hheader, hpayload⟩ := Res.andThen_eq_ok.1 h
  obtain ⟨bytes, t, hgot⟩ := ancillary_recvHeader hheader
  -- the payload leaves the control messages
  have hsame : hdr.ancillary = hdr₀.ancillary := by
    unfold recvPayload at hpayload
    simp only at hpayload
    split at hpayload
    · split at hpayload
      · cases hpayload
      · cases hpayload
        rfl
    · cases hpayload
      rfl
  unfold VHostHeader.extractFds at hfds
  rw [hsame] at hfds
  rcases cmsgs_recvmsg hrecv hgot with hnone | ⟨fds', hsome, hfew⟩
  · rw [hnone] at hfds
    cases hfds
  · rw [hsome] at hfds
    cases hfds
    exact hfew

end Device

namespace Link

variable {sys : VhostSystem Q S E} {lib : Option (List GuestRegion) → VirtioQueue Q G C R W E}

theorem smallMemory_new {deviceQueues : BitVec 8} {switch : VirtioSwitch} {s : S} {guest : G} {m₀ : Machine Q S G}
    (hnew : Machine.new sys deviceQueues switch s guest = .ok m₀) : m₀.dev.SmallMemory := by
  unfold Machine.new at hnew
  rw [Res.bind_eq_ok] at hnew
  obtain ⟨dev, hdev, hm⟩ := hnew
  cases hm
  obtain ⟨-, hrings, -⟩ := Device.new_ok hdev
  intro mem hmem regions hregions
  obtain ⟨vq, hvq, rfl⟩ := List.mem_map.1 hmem
  obtain ⟨queue, rfl⟩ := hrings vq hvq
  cases hregions

theorem smallMemory_step {recvmsg : Device.RecvMsgCall (Channel (List Nat))} (hrecv : recvmsg.Lawful)
    {k k' : Link Q S G} {l : LinkEvent G C} (h : k.machine.dev.SmallMemory) (hstep : Step recvmsg sys lib k l k') :
    k'.machine.dev.SmallMemory := by
  cases l with
  | send msg n =>
    obtain ⟨-, -, -, rfl⟩ := hstep
    exact h
  | more n =>
    obtain ⟨-, -, -, rfl⟩ := hstep
    exact h
  | close =>
    cases hstep
    exact h
  | other l =>
    obtain ⟨hl, ⟨fuel, hexec⟩, -⟩ := hstep
    exact (Machine.queueOnly_event hl hexec).smallMemory h
  | round =>
    have hafter : (k.readRound recvmsg sys).2.machine.dev.SmallMemory := by
      cases hgot : (Device.recvMessage recvmsg k.strm : Res (StreamError E) VHostHeader × _) with | mk r strm
      cases r with
      | ok hdr =>
        rw [readRound_of_ok hgot]
        exact Device.smallMemory_parseMsg (fun fds hfds => Device.fds_recvMessage hrecv hgot hfds) h
      | err e =>
        rw [(readRound_of_not_ok sys (by rw [hgot]; exact nofun)).2.1]
        exact h
      | panic p =>
        rw [(readRound_of_not_ok sys (by rw [hgot]; exact nofun)).2.1]
        exact h
    rcases hstep with hround | hround
    · rwa [hround] at hafter
    · rwa [hround] at hafter

/-- A table of three regions, with the two descriptors that fit. -/
def threeRegions : FrontEndMsg where
  ty := 5
  flags := 1
  payload := toLe32 3 ++ toLe32 0 ++ (List.replicate 3 (toLe64 Device.lowRegion.guestAddress ++
    toLe64 Device.lowRegion.size ++ toLe64 Device.lowRegion.userAddress ++ toLe64 Device.lowRegion.mmapOffset)).flatten
  fds := [9, 10]
  sized := by decide

end Link
end Oathgate
