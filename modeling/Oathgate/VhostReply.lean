import Oathgate.LibFrame
import Oathgate.VhostStream
/-!
# VhostReply — what a device answers its front end (`oathgate-vhost`: `device.rs`, `parse_msg`, `send_response`)

A `ControlServer` is the device as its front end sees it: a status, a table which descriptor kicks which ring, and a
rule which request is answered with what.  All a device sends back, over any run and whatever its rings do meanwhile,
are the answers of this server to the messages it handled (`replies_in_order`), cut apart by nothing but their headers.
-/
namespace Oathgate

open Lib

variable {Q S G C R W E : Type}

/-! ## The server a front end sees -/

/-- The header of a message announces the length of its payload. -/
def vhostFraming : Framing Byte := ⟨12, by decide, fun hdr => (le32At hdr 8).toNat⟩

/-- A message back to the front end. -/
structure Reply where
  ty : BitVec 32
  payload : List Byte
  deriving DecidableEq, Repr

namespace Reply

/-- A reply says the version and that it is one. -/
def bytes (r : Reply) : List Byte := Device.frontEndMsg r.ty 0x05 r.payload

theorem isFrame_bytes (r : Reply) (h : r.payload.length < 2 ^ 32) : vhostFraming.IsFrame r.bytes := by
  refine Framing.isFrame_append rfl ?_
  have hsize : le32At (toLe32 r.ty ++ toLe32 0x05 ++ toLe32 (BitVec.ofNat 32 r.payload.length)) 8 =
      BitVec.ofNat 32 r.payload.length := concat_bytes32 _
  simp only [vhostFraming, hsize, BitVec.toNat_ofNat, Nat.mod_eq_of_lt h]

end Reply

namespace VHostHeader

/-- The ring of a `SET_VRING_KICK`. -/
def kickRing (hdr : VHostHeader) : Option Nat :=
  match Request.ofTy hdr.ty, hdr.read (BitVec 64) with
  | some .setVringKick, .ok idx => some idx.toNat
  | _, _ => none

/-- The descriptor of a `SET_VRING_KICK`. -/
def kickFd (hdr : VHostHeader) : Option Nat :=
  match hdr.kickRing, hdr.extractFd with
  | some _, .ok fd => some fd
  | _, _ => none

/-- What `SET_VRING_KICK` files: the rings with an even index receive, the others transmit. -/
def kickEntry (hdr : VHostHeader) : KickFd :=
  let ring := hdr.kickRing.getD 0
  let fd := hdr.kickFd.getD 0
  if ring % 2 = 0 then .rx fd ring else .tx fd ring

end VHostHeader

/-- What a front end knows of its device: how many pairs of rings it has, the status it set last, and which descriptor
it is to kick for which ring. -/
structure ControlServer where
  queues : BitVec 64
  status : BitVec 64
  kicks : Table Nat KickFd

namespace ControlServer

def new (deviceQueues : BitVec 8) : ControlServer := ⟨deviceQueues.setWidth 64, 0, Table.empty⟩

/-- **The answer to a message.**  Of the messages that set something, only a table and the back end's channel are
acknowledged; the position of a ring is not told, and the configuration space is not. -/
def answer (server : ControlServer) (hdr : VHostHeader) : Option (List Byte) :=
  match Request.ofTy hdr.ty with
  | some .getFeatures => some (toLe64 Device.features)
  | some .getProtocolFeatures => some (toLe64 Device.protocolFeatures)
  | some .getQueueNum => some (toLe64 server.queues)
  | some .getMaxMemSlots => some (toLe64 2)
  | some .getStatus => some (toLe64 server.status)
  | some .getVringBase =>
    match hdr.read VRingState with
    | .ok state => some (toLe32 state.index ++ toLe32 0)
    | _ => none
  | some .setMemTable => if hdr.ackRequired then some [] else none
  | some .setBackendReqFd => if hdr.ackRequired then some (toLe64 0) else none
  | _ => none

/-- The status a message leaves. -/
def statusAfter (server : ControlServer) (hdr : VHostHeader) : BitVec 64 :=
  match Request.ofTy hdr.ty, hdr.read (BitVec 64) with
  | some .setStatus, .ok status => status
  | _, _ => server.status

/-- **The server a message leaves**: a new status, or a descriptor filed under a ring. -/
def next (server : ControlServer) (hdr : VHostHeader) : ControlServer where
  queues := server.queues
  status := server.statusAfter hdr
  kicks := Table.record VHostHeader.kickFd VHostHeader.kickEntry server.kicks hdr

def reply (server : ControlServer) (hdr : VHostHeader) : List Reply :=
  ((server.answer hdr).map (Reply.mk hdr.ty)).toList

/-- The answers to a sequence of messages, each by the server its predecessors leave. -/
def replies : ControlServer → List VHostHeader → List Reply
  | _, [] => []
  | server, hdr :: hdrs => server.reply hdr ++ replies (server.next hdr) hdrs

theorem next_of_ne {hdr : VHostHeader} (hstatus : Request.ofTy hdr.ty ≠ some .setStatus)
    (hkick : Request.ofTy hdr.ty ≠ some .setVringKick) (server : ControlServer) : server.next hdr = server := by
  have hring : hdr.kickRing = none := by
    unfold VHostHeader.kickRing
    split
    · contradiction
    · rfl
  have hfd : hdr.kickFd = none := by
    unfold VHostHeader.kickFd
    rw [hring]
  have hsame : server.statusAfter hdr = server.status := by
    unfold statusAfter
    split
    · contradiction
    · rfl
  unfold next Table.record
  rw [hfd, hsame]

theorem replies_append (server : ControlServer) (hdrs hdrs' : List VHostHeader) :
    server.replies (hdrs ++ hdrs') = server.replies hdrs ++ (hdrs.foldl next server).replies hdrs' := by
  induction hdrs generalizing server with
  | nil => rfl
  | cons hdr hdrs ih => simp only [List.cons_append, replies, ih, List.foldl_cons, List.append_assoc]

/-- An answer is short. -/
theorem length_answer {server : ControlServer} {hdr : VHostHeader} {payload : List Byte}
    (h : server.answer hdr = some payload) : payload.length ≤ 8 := by
  unfold answer at h
  split at h
  · cases h; simp [toLe64]
  · cases h; simp [toLe64]
  · cases h; simp [toLe64]
  · cases h; simp [toLe64]
  · cases h; simp [toLe64]
  · split at h
    · cases h; simp [toLe32]
    · cases h
  · split at h
    · cases h; simp
    · cases h
  · split at h
    · cases h; simp [toLe64]
    · cases h
  · cases h

theorem isFrame_replies {server : ControlServer} {hdrs : List VHostHeader} :
    ∀ x ∈ (server.replies hdrs).map Reply.bytes, vhostFraming.IsFrame x := by
  induction hdrs generalizing server with
  | nil => simp [replies]
  | cons hdr hdrs ih =>
    intro x hx
    simp only [replies, List.map_append, List.mem_append] at hx
    rcases hx with hx | hx
    · obtain ⟨r, hr, rfl⟩ := List.mem_map.1 hx
      simp only [reply, Option.mem_toList, Option.map_eq_some_iff] at hr
      obtain ⟨payload, hpayload, rfl⟩ := hr
      have hlen := length_answer hpayload
      exact Reply.isFrame_bytes _ (by simp only; omega)
    · exact ih x hx

end ControlServer

/-! ## One message -/

namespace Device

variable {sys : VhostSystem Q S E}

/-- The server a device is. -/
def server (d : Device Q S) : ControlServer := ⟨d.numQueues, d.status, d.kickFds⟩

/-- **Between two devices**: the server is now this, and these messages were sent back. -/
structure Says (d d' : Device Q S) (server : ControlServer) (out : List (List Byte)) : Prop where
  sent : d'.sent = d.sent ++ out
  server : d'.server = server

theorem Says.silent {d d' : Device Q S} {server : ControlServer} (hsent : d'.sent = d.sent)
    (hserver : d'.server = server) : d.Says d' server [] := ⟨hsent.trans (List.append_nil _).symm, hserver⟩

theorem Says.refl (d : Device Q S) : d.Says d d.server [] := .silent rfl rfl

theorem Says.trans {d d₁ d₂ : Device Q S} {server server' : ControlServer} {out out' : List (List Byte)}
    (h : d.Says d₁ server out) (h' : d₁.Says d₂ server' out') : d.Says d₂ server' (out ++ out') where
  sent := by rw [h'.sent, h.sent, List.append_assoc]
  server := h'.server

theorem Says.trans_same {d d₁ d₂ : Device Q S} {server : ControlServer} {out out' : List (List Byte)}
    (h : d.Says d₁ server out) (h' : d₁.Says d₂ d₁.server out') : d.Says d₂ server (out ++ out') :=
  h.server ▸ h.trans h'

theorem says_onRing (idx : Nat) (f : Vring Q → Vring Q) (d : Device Q S) :
    d.Says (d.onRing (E := E) idx f).2 d.server [] := by
  unfold onRing
  split
  · exact .refl d
  · exact .silent rfl rfl

theorem says_sendResponse (sys : VhostSystem Q S E) (id : BitVec 32) (payload : List Byte) (d : Device Q S) :
    d.Says (d.sendResponse sys id payload).2 d.server [Reply.bytes ⟨id, payload⟩] := ⟨rfl, rfl⟩

theorem says_sendMsg (sys : VhostSystem Q S E) (id : BitVec 32) (payload : List Byte) (d : Device Q S) :
    d.Says (d.sendMsg sys id payload).2 d.server [] := by
  unfold sendMsg
  split
  · exact .silent rfl rfl
  · exact .refl d

theorem says_mapRegions (sys : VhostSystem Q S E) : ∀ (descs : List (MemoryRegionDescription × Nat))
    (regions : List GuestRegion) (d : Device Q S), d.Says (mapRegions sys descs regions d).2 d.server []
  | [], _, d => .refl d
  | (region, fd) :: rest, regions, d => by
    unfold mapRegions
    have hmap : ∀ s, d.Says { d with sys := s } d.server [] := fun _ => .silent rfl rfl
    refine Res.andThen_keeps (P := fun d' : Device Q S => d.Says d' d.server []) (hmap _) ?_
    intro gm d₁ h₁
    refine Res.andThen_keeps (P := fun d' : Device Q S => d.Says d' d.server []) h₁ ?_
    intro mapping d₂ h₂
    have hrest := says_mapRegions sys rest (regions ++ [gm]) { d₂ with mappings := d₂.mappings ++ [mapping] }
    have hpush : d₂.Says { d₂ with mappings := d₂.mappings ++ [mapping] } d₂.server [] :=
      .silent rfl rfl
    exact h₂.trans_same (hpush.trans_same hrest)

theorem says_setMemTable {hdr : VHostHeader} {d d' : Device Q S} (h : d.setMemTable sys hdr = (.ok (), d')) :
    d.Says d' d.server (if hdr.ackRequired then [Reply.bytes ⟨hdr.ty, []⟩] else []) := by
  unfold setMemTable at h
  obtain ⟨descs, -, h⟩ := Res.andThen_stay_eq_ok.1 h
  obtain ⟨files, -, h⟩ := Res.andThen_stay_eq_ok.1 h
  split at h
  · cases h
  · obtain ⟨regions, d₃, hregions, h⟩ := Res.andThen_eq_ok.1 h
    obtain ⟨u, -, h⟩ := Res.andThen_stay_eq_ok.1 h
    have hmap := says_mapRegions sys (descs.zip files) [] d
    rw [hregions] at hmap
    have hset : d₃.Says { d₃ with queues := d₃.queues.map (Vring.setMemory regions) } d₃.server [] :=
      .silent rfl rfl
    have hmem := hmap.trans_same hset
    cases hack : hdr.ackRequired with
    | false =>
      simp only [hack, Bool.false_eq_true, if_false, Prod.mk.injEq, true_and] at h ⊢
      exact h ▸ hmem
    | true =>
      simp only [hack, if_true] at h ⊢
      have hsend := says_sendResponse sys hdr.ty []
        { d₃ with queues := d₃.queues.map (Vring.setMemory regions) }
      rw [h] at hsend
      exact hmem.trans_same hsend

theorem and_one_eq_zero (x : BitVec 64) : x &&& 1 = 0 ↔ x.toNat % 2 = 0 := by
  rw [← BitVec.toNat_inj, BitVec.toNat_and]
  exact iff_of_eq (congrArg (· = 0) (Nat.and_one_is_mod x.toNat))

/-- **`SET_VRING_KICK` files its descriptor under its ring**, and says nothing. -/
theorem says_setVringKick {hdr : VHostHeader} {d d' : Device Q S} (hreq : Request.ofTy hdr.ty = some .setVringKick)
    (h : d.setVringKick sys hdr = (.ok (), d')) : d.Says d' (d.server.next hdr) [] := by
  unfold setVringKick at h
  obtain ⟨vringIdx, hidx, h⟩ := Res.andThen_stay_eq_ok.1 h
  obtain ⟨fd, hfd, h⟩ := Res.andThen_stay_eq_ok.1 h
  rw [Res.mapErr_eq_ok] at hidx hfd
  obtain ⟨u, d₁, hring, h⟩ := Res.andThen_eq_ok.1 h
  have hsaid := says_onRing (E := E) vringIdx.toNat (Vring.setKickFd sys fd) d
  rw [hring] at hsaid
  obtain ⟨u', -, h⟩ := Res.andThen_stay_eq_ok.1 h
  cases h
  have hkickRing : hdr.kickRing = some vringIdx.toNat := by
    unfold VHostHeader.kickRing
    rw [hreq, hidx]
  have hkickFd : hdr.kickFd = some fd := by
    unfold VHostHeader.kickFd
    rw [hkickRing, hfd]
  have hstatus : d.server.statusAfter hdr = d.server.status := by
    unfold ControlServer.statusAfter
    rw [hreq]
  have hentry : hdr.kickEntry = if vringIdx &&& 1 = 0 then .rx fd vringIdx.toNat else .tx fd vringIdx.toNat := by
    unfold VHostHeader.kickEntry
    simp only [hkickFd, hkickRing, Option.getD_some, and_one_eq_zero]
  have hnext : d.server.next hdr = { d.server with kicks := d.server.kicks.insert fd hdr.kickEntry } := by
    unfold ControlServer.next Table.record
    simp only [hkickFd, hstatus]
  rw [hnext, hentry, ← hsaid.server]
  exact .silent (hsaid.sent.trans (List.append_nil _)) rfl

theorem says_getVringBase {hdr : VHostHeader} {d d' : Device Q S} (h : d.getVringBase sys hdr = (.ok (), d')) :
    ∃ state, hdr.read VRingState = .ok state ∧
      d.Says d' d.server [Reply.bytes ⟨hdr.ty, toLe32 state.index ++ toLe32 0⟩] := by
  unfold getVringBase at h
  obtain ⟨state, hread, h⟩ := Res.andThen_stay_eq_ok.1 h
  refine ⟨state, (Res.mapErr_eq_ok _ _ _).1 hread, ?_⟩
  split at h
  · cases h
  · rename_i vq hvq
    obtain ⟨u, d₂, hkick, h⟩ := Res.andThen_eq_ok.1 h
    have hstop : d.Says d₂ d.server [] := by
      split at hkick
      · obtain ⟨-, rfl⟩ := Prod.mk.inj hkick
        exact .silent rfl rfl
      · cases hkick
        exact .silent rfl rfl
    have hsend := says_sendResponse sys hdr.ty
      (VRingDescriptor.asVec ⟨state.index, (sys.nextAvail (vq.setNotReady sys).clearFds.queue).setWidth 32⟩) d₂
    rw [h] at hsend
    exact hstop.trans_same hsend

/-- A message that sets no status and no descriptor is answered by the server there is. -/
theorem says_parseMsg_same {hdr : VHostHeader} {d d' : Device Q S} (hstatus : Request.ofTy hdr.ty ≠ some .setStatus)
    (hkick : Request.ofTy hdr.ty ≠ some .setVringKick) (h : d.parseMsg sys hdr = (.ok (), d')) :
    d.Says d' d.server ((d.server.reply hdr).map Reply.bytes) := by
  have hresponse : ∀ payload, d.sendResponse sys hdr.ty payload = (.ok (), d') →
      d.Says d' d.server [Reply.bytes ⟨hdr.ty, payload⟩] := by
    intro payload hsend
    have hsaid := says_sendResponse sys hdr.ty payload d
    rwa [hsend] at hsaid
  have hring : ∀ idx f, d.onRing idx f = ((.ok (), d') : Handled Q S E Unit) → d.Says d' d.server [] := by
    intro idx f hset
    have hsaid := says_onRing (E := E) idx f d
    rwa [hset] at hsaid
  unfold parseMsg at h
  unfold ControlServer.reply ControlServer.answer
  cases hreq : Request.ofTy hdr.ty with
  | none =>
    simp only [hreq] at h ⊢
    cases h
    exact .refl d
  | some req =>
    simp only [hreq] at h ⊢
    cases req with
    | getFeatures => exact hresponse _ h
    | getProtocolFeatures => exact hresponse _ h
    | getQueueNum => exact hresponse _ h
    | getMaxMemSlots => exact hresponse _ h
    | getStatus => exact hresponse _ h
    | setMemTable =>
      have hsaid := says_setMemTable h
      cases hack : hdr.ackRequired with
      | false => simpa [hack] using hsaid
      | true => simpa [hack] using hsaid
    | setBackendReqFd =>
      obtain ⟨fd, -, h⟩ := Res.andThen_stay_eq_ok.1 h
      have hchannel : d.Says { d with channel := some fd } d.server [] := .silent rfl rfl
      cases hack : hdr.ackRequired with
      | false =>
        simp only [hack, Bool.false_eq_true, if_false, Prod.mk.injEq, true_and] at h
        simpa [hack] using h ▸ hchannel
      | true =>
        simp only [hack, if_true] at h
        have hsend := says_sendResponse sys hdr.ty (toLe64 0) { d with channel := some fd }
        rw [h] at hsend
        simpa [hack] using hchannel.trans_same hsend
    | getVringBase =>
      obtain ⟨state, hread, hsaid⟩ := says_getVringBase h
      simpa [hread] using hsaid
    | setStatus => exact absurd hreq hstatus
    | setOwner =>
      have hsend : d.sendMsg sys 2 [] = (.ok (), d') := h
      have hsaid := says_sendMsg sys 2 [] d
      rwa [hsend] at hsaid
    | setVringKick => exact absurd hreq hkick
    | setVringAddr =>
      have h : d.setVringAddr sys hdr = (.ok (), d') := h
      unfold setVringAddr at h
      split at h
      · cases h
      · obtain ⟨addr, -, h⟩ := Res.andThen_stay_eq_ok.1 h
        obtain ⟨x, -, h⟩ := Res.andThen_stay_eq_ok.1 h
        exact hring _ _ h
    | setVringNum =>
      obtain ⟨state, -, h⟩ := Res.andThen_stay_eq_ok.1 h
      exact hring _ _ h
    | setVringBase =>
      obtain ⟨base, -, h⟩ := Res.andThen_stay_eq_ok.1 h
      exact hring _ _ h
    | setVringEnable =>
      obtain ⟨state, -, h⟩ := Res.andThen_stay_eq_ok.1 h
      exact hring _ _ h
    | setVringCall =>
      obtain ⟨idx, -, h⟩ := Res.andThen_stay_eq_ok.1 h
      obtain ⟨fd, -, h⟩ := Res.andThen_stay_eq_ok.1 h
      exact hring _ _ h
    | setVringErr =>
      obtain ⟨idx, -, h⟩ := Res.andThen_stay_eq_ok.1 h
      obtain ⟨fd, -, h⟩ := Res.andThen_stay_eq_ok.1 h
      exact hring _ _ h
    | setFeatures =>
      obtain ⟨x, -, h⟩ := Res.andThen_stay_eq_ok.1 h
      cases h
      exact .refl d
    | setProtocolFeatures =>
      obtain ⟨x, -, h⟩ := Res.andThen_stay_eq_ok.1 h
      cases h
      exact .refl d
    | addMemReg =>
      obtain ⟨x, -, h⟩ := Res.andThen_stay_eq_ok.1 h
      cases h
      exact .refl d
    | getConfig =>
      cases h
      exact .refl d
    | setConfig =>
      cases h
      exact .refl d

/-- **A message is answered as the server answers it**, and makes of the server what it makes of the device. -/
theorem says_parseMsg {hdr : VHostHeader} {d d' : Device Q S} (h : d.parseMsg sys hdr = (.ok (), d')) :
    d.Says d' (d.server.next hdr) ((d.server.reply hdr).map Reply.bytes) := by
  have hquiet : ∀ req, Request.ofTy hdr.ty = some req → req = .setStatus ∨ req = .setVringKick →
      d.server.reply hdr = [] := by
    intro req hreq hor
    unfold ControlServer.reply ControlServer.answer
    rcases hor with rfl | rfl <;> rw [hreq] <;> rfl
  by_cases hstatus : Request.ofTy hdr.ty = some .setStatus
  · rw [hquiet _ hstatus (Or.inl rfl)]
    unfold parseMsg at h
    simp only [hstatus] at h
    obtain ⟨status, hread, h⟩ := Res.andThen_stay_eq_ok.1 h
    rw [Res.mapErr_eq_ok] at hread
    cases h
    refine .silent rfl ?_
    unfold ControlServer.next ControlServer.statusAfter Table.record VHostHeader.kickFd VHostHeader.kickRing
    simp only [hstatus, hread]
    rfl
  · by_cases hkick : Request.ofTy hdr.ty = some .setVringKick
    · rw [hquiet _ hkick (Or.inr rfl)]
      unfold parseMsg at h
      simp only [hkick] at h
      exact says_setVringKick hkick h
    · rw [ControlServer.next_of_ne hstatus hkick]
      exact says_parseMsg_same hstatus hkick h

theorem says_queueOnly {d d' : Device Q S} (h : Machine.QueueOnly d d') : d.Says d' d.server [] := by
  rcases h with rfl | ⟨idx, vq, queue, -, rfl⟩
  · exact .refl _
  · exact .silent rfl rfl

end Device

/-! ## Runs -/

namespace Link

variable {sys : VhostSystem Q S E} {lib : Option (List GuestRegion) → VirtioQueue Q G C R W E}

theorem messages_snoc (ms : List (Event G × Served C)) (l : Event G × Served C) :
    messages (ms ++ [l]) = messages ms ++ messages [l] := List.filterMap_append

/-- **A device is a control server**: it has said what the server says, and is the server it has become. -/
theorem server_run {m₀ m : Machine Q S G} {ms : List (Event G × Served C)}
    (hrun : Run (Machine.Step sys lib) m₀ ms m) :
    m.dev.sent = m₀.dev.sent ++ (m₀.dev.server.replies (messages ms)).map Reply.bytes ∧
      m.dev.server = (messages ms).foldl ControlServer.next m₀.dev.server := by
  induction hrun with
  | nil => exact ⟨(List.append_nil _).symm, rfl⟩
  | @snoc ms m m' l _ hstep ih =>
    obtain ⟨hsent, hserver⟩ := ih
    obtain ⟨fuel, hexec⟩ := hstep
    by_cases hmsg : ∃ hdr, l.1 = .message hdr
    · obtain ⟨hdr, he⟩ := hmsg
      have hlast : messages [l] = [hdr] := by simp [messages, he]
      rw [he] at hexec
      simp only [Machine.exec, Option.some.injEq, Prod.mk.injEq, Res.mapErr_eq_ok] at hexec
      obtain ⟨hok, rfl, -⟩ := hexec
      have hparse : m.dev.parseMsg sys hdr = (.ok (), (m.dev.parseMsg sys hdr).2) := Prod.ext hok rfl
      have hsaid := Device.says_parseMsg hparse
      rw [messages_snoc, hlast, List.foldl_append, ← hserver, ControlServer.replies_append, ← hserver]
      refine ⟨?_, hsaid.server⟩
      rw [hsaid.sent, hsent, List.map_append, List.append_assoc]
      simp only [ControlServer.replies, List.append_nil]
    · have hno : ∀ hdr, l.1 ≠ .message hdr := fun hdr he => hmsg ⟨hdr, he⟩
      have hlast : messages [l] = [] := by
        obtain ⟨e, served⟩ := l
        cases e with
        | message hdr => exact absurd rfl (hno hdr)
        | _ => rfl
      have hsaid := Device.says_queueOnly (Machine.queueOnly_event hno hexec)
      rw [messages_snoc, hlast, List.append_nil]
      refine ⟨?_, hsaid.server.trans hserver⟩
      rw [hsaid.sent, List.append_nil, hsent]

theorem server_new {deviceQueues : BitVec 8} {switch : VirtioSwitch} {s : S} {guest : G} {m₀ : Machine Q S G}
    (hnew : Machine.new sys deviceQueues switch s guest = .ok m₀) :
    m₀.dev.server = .new deviceQueues ∧ m₀.dev.sent = [] := by
  unfold Machine.new at hnew
  rw [Res.bind_eq_ok] at hnew
  obtain ⟨dev, hdev, hm⟩ := hnew
  cases hm
  unfold Device.new at hdev
  split at hdev
  · rw [Res.bind_eq_ok] at hdev
    obtain ⟨queues, -, hdev⟩ := hdev
    cases hdev
    exact ⟨rfl, rfl⟩
  · cases hdev

/-- `SET_STATUS` and `GET_STATUS` -/
def setStatusSend : FrontEndMsg := ⟨39, 1, toLe64 0x0f, [], by decide⟩

def getStatusSend : FrontEndMsg := ⟨40, 1, [], [], by decide⟩

/-- The driver's status is set, in two pieces, and asked for. -/
def statusEvents : List (LinkEvent RingGuest RingChain) :=
  [.send setStatusSend 12, .more 8, .send getStatusSend 12, .round, .round]

end Link
end Oathgate
