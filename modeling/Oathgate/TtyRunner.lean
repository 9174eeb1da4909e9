import Oathgate.TtyAgent
/-!
# TtyRunner — the runner's side of the terminal (`oathgate-runner`: `pty/fabrial.rs`)

`write_pty` sends a header and the data in two sends, `resize_pty` one message of five bytes.  What it sends is what
the agent decodes, call for call (`runner_messages_decoded`).
-/
namespace Oathgate

open Lib

namespace FabrialPty

/-- The sends of `FabrialPty::write_pty`: the header holds the low sixteen bits of the length. -/
def writePty (data : List Byte) : List (List Byte) :=
  let len := toLe64 (BitVec.ofNat 64 data.length)
  let hdr := [0x01, byteAt len 0, byteAt len 1]
  [hdr, data]

/-- The sends of `FabrialPty::resize_pty`. -/
def resizePty (rows cols : BitVec 16) : List (List Byte) :=
  let rows := toLe16 rows
  let cols := toLe16 cols
  [[0x02, byteAt rows 0, byteAt rows 1, byteAt cols 0, byteAt cols 1]]

inductive Call where
  | writePty (data : List Byte)
  | resizePty (rows cols : BitVec 16)

namespace Call

def sends : Call → List (List Byte)
  | .writePty data => FabrialPty.writePty data
  | .resizePty rows cols => FabrialPty.resizePty rows cols

/-- The message a call stands for. -/
def msg : Call → TtyMsg
  | .writePty data => .data data
  | .resizePty rows cols => .resize ⟨rows, cols⟩

end Call

/-- All bytes a sequence of calls sends. -/
def sent (calls : List Call) : List Byte := (calls.flatMap Call.sends).flatten

/-- **A call sends the bytes of its message.** -/
theorem sends_eq (c : Call) : c.sends.flatten = c.msg.bytes := by
  cases c with
  | resizePty rows cols => rfl
  | writePty data =>
    have hhdr := toLe16_of_toLe64 data.length
    simp only [Call.sends, writePty, List.flatten_cons, List.flatten_nil, List.append_nil, List.cons_append,
      List.nil_append, Call.msg, TtyMsg.bytes, hhdr]
    rfl

theorem sent_cons (c : Call) (calls : List Call) : sent (c :: calls) = c.msg.bytes ++ sent calls := by
  unfold sent
  rw [List.flatMap_cons, List.flatten_append, sends_eq]

theorem sent_eq (calls : List Call) : sent calls = SockTTY.wire (calls.map Call.msg) := by
  induction calls with
  | nil => rfl
  | cons c calls ih =>
    rw [sent_cons, ih]
    rfl

/-- The calls the protocol is made for: some data, of a length the header can hold, and a window with an area. -/
def Call.Valid : Call → Prop
  | .writePty data => 1 ≤ data.length ∧ data.length ≤ 65535
  | .resizePty rows cols => 1 ≤ rows.toNat ∧ 1 ≤ cols.toNat

theorem Call.Valid.wellFormed {c : Call} (h : c.Valid) : c.msg.WellFormed := by
  cases c with
  | writePty data => exact h
  | resizePty rows cols =>
    obtain ⟨hr, hc⟩ := h
    refine ⟨?_, ?_⟩
    · rintro rfl
      exact absurd hr (by decide)
    · rintro rfl
      exact absurd hc (by decide)

/-- The result of the call of `read_from_socket` that answers a call of the runner. -/
def Call.result : Call → Res IoError (SocketAction × List Byte)
  | .writePty data => .ok (.writeToTTY, data)
  | .resizePty .. => .ok (.continue_, [])

/-- The window sizes a sequence of calls sets. -/
def resizes (calls : List Call) : List Winsize :=
  calls.filterMap fun
    | .writePty _ => none
    | .resizePty rows cols => some ⟨rows, cols⟩

theorem results_eq (calls : List Call) : calls.map Call.result = (calls.map Call.msg).map SockTTY.decoded := by
  rw [List.map_map]
  apply List.map_congr_left
  intro c _
  cases c <;> rfl

theorem resizes_eq (calls : List Call) : resizes calls = (calls.map Call.msg).flatMap TtyMsg.sizes := by
  unfold resizes
  induction calls with
  | nil => rfl
  | cons c calls ih => cases c <;> simp [ih, Call.msg, TtyMsg.sizes]

/-- **What the runner sends is what the agent decodes.**  With all its bytes on the socket, the first reads answer the
calls one by one: the data of each write, the new window size and then `Continue` for each resize, and the rest of the
bytes stays; every read after that would block.  A read would block exactly when no byte is left. -/
theorem runner_messages_decoded (calls : List Call) (hcalls : ∀ c ∈ calls, c.Valid) (t : SockTTY (List Byte))
    (ht : t.client = sent calls) :
    (∀ done rest, calls = done ++ rest →
      SockTTY.reads available done.length t =
        (done.map Call.result, { t with client := sent rest, sizes := t.sizes ++ resizes done })) ∧
    (∀ k, SockTTY.reads available (calls.length + k) t =
      (calls.map Call.result ++ List.replicate k (.ok (.wouldBlock, [])),
        { t with client := [], sizes := t.sizes ++ resizes calls })) ∧
    ∀ n, (SockTTY.readFromSocket available SockTTY.bufferSize (SockTTY.reads available n t).2).1 =
        .ok (.wouldBlock, []) ↔ (SockTTY.reads available n t).2.client = [] := by
  have hdone : ∀ done rest, calls = done ++ rest → SockTTY.reads available done.length t =
      (done.map Call.result, { t with client := sent rest, sizes := t.sizes ++ resizes done }) := by
    rintro done rest rfl
    have hwf : ∀ m ∈ done.map Call.msg, m.WellFormed := by
      intro m hm
      obtain ⟨c, hc, rfl⟩ := List.mem_map.1 hm
      exact (hcalls c (List.mem_append_left _ hc)).wellFormed
    have hclient : t.client = SockTTY.wire (done.map Call.msg) ++ sent rest := by
      rw [ht, ← sent_eq]
      simp [sent]
    have hreads := SockTTY.reads_wire (done.map Call.msg) (sent rest) t hwf hclient
    rw [List.length_map] at hreads
    rw [hreads, results_eq, resizes_eq]
  have hall : ∀ k, SockTTY.reads available (calls.length + k) t =
      (calls.map Call.result ++ List.replicate k (.ok (.wouldBlock, [])),
        { t with client := [], sizes := t.sizes ++ resizes calls }) := by
    intro k
    have hcalls' := hdone calls [] (List.append_nil _).symm
    rw [SockTTY.reads_add, hcalls', SockTTY.reads_exhausted k _ rfl]
    rfl
  refine ⟨hdone, hall, ?_⟩
  intro n
  rcases Nat.lt_or_ge n calls.length with hn | hn
  · -- a call is still to be answered
    have hsplit : calls = calls.take n ++ calls[n] :: calls.drop (n + 1) := by
      rw [← List.drop_eq_getElem_cons hn, List.take_append_drop]
    have hreads := hdone _ _ hsplit
    rw [List.length_take_of_le (Nat.le_of_lt hn)] at hreads
    have hwf := (hcalls calls[n] (List.getElem_mem hn)).wellFormed
    rw [hreads, sent_cons, SockTTY.readFromSocket_comes hwf (SockTTY.comes_available hwf _)]
    cases calls[n] with
    | writePty data => simp [Call.msg, TtyMsg.action, TtyMsg.bytes]
    | resizePty rows cols => simp [Call.msg, TtyMsg.action, TtyMsg.bytes]
  · obtain ⟨k, rfl⟩ := Nat.exists_eq_add_of_le hn
    rw [hall k]
    simp only [iff_true]
    rw [SockTTY.readFromSocket_blocked (available_nil 1)]

theorem runner_write_and_resize_decoded :
    SockTTY.reads available 3 ⟨sent [.writePty [0x6C, 0x73], .resizePty 24 80], [], []⟩ =
      ([.ok (.writeToTTY, [0x6C, 0x73]), .ok (.continue_, []), .ok (.wouldBlock, [])], ⟨[], [], [⟨24, 80⟩]⟩) := by
  have hvalid : ∀ c ∈ [Call.writePty [0x6C, 0x73], .resizePty 24 80], c.Valid := by
    intro c hc
    simp only [List.mem_cons, List.not_mem_nil, or_false] at hc
    rcases hc with rfl | rfl
    · exact ⟨by decide, by decide⟩
    · exact ⟨by decide, by decide⟩
  exact (runner_messages_decoded _ hvalid ⟨_, [], []⟩ rfl).2.1 1

end FabrialPty
end Oathgate
