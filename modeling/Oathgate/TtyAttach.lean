import Oathgate.TtyAgent
/-!
# TtyAttach — the terminal of `oathgate shard attach` (`oathgate`: `cmd/shard/fabrial.rs`)

The second encoder of the terminal protocol.  It puts five bytes in front of a key where the agent reads three, so that
the agent takes two bytes of the header for data and the end of the key for the next message.  A session is decoded as
it was typed exactly when no key in it sends anything (`attach_decoded_iff`).
-/
namespace Oathgate

open Lib

/-- `KeyCode` of `crossterm`, with the codes `run_ui` does not name as one. -/
inductive KeyCode where
  | char (ch : Char)
  | backspace
  | tab
  | enter
  | up
  | down
  | right
  | left
  | f (n : Nat)
  | other
  deriving DecidableEq

/-- `KeyModifiers` of `crossterm`, a set of bits. -/
abbrev KeyModifiers := BitVec 8

def modifiersEmpty : KeyModifiers := 0
def modifiersShift : KeyModifiers := 1
def modifiersCtrl : KeyModifiers := 2

inductive UiEvent where
  | key (modifiers : KeyModifiers) (code : KeyCode)
  | resize (cols rows : BitVec 16)
  | other
  deriving DecidableEq

namespace ShardAttach

/-- `char::encode_utf8` -/
def encodeUtf8 (ch : Char) : List Byte := (String.utf8EncodeChar ch).map UInt8.toBitVec

/-- Bytes written into the middle of a buffer. -/
def put (bytes : List Byte) (i : Nat) (src : List Byte) : List Byte :=
  bytes.take i ++ src ++ bytes.drop (i + src.length)

/-- `encode!`, with no bytes for a key that is not handled. -/
def encode (bytes seq : List Byte) : Nat × List Byte := (seq.length, put bytes 5 seq)

/-- The sequences of the keys without modifiers. -/
def plainSequence : KeyCode → List Byte
  | .backspace => [0x08]
  | .tab => [0x09]
  | .enter => [0x0A]
  | .up => [0x1B, 0x4F, 0x41]
  | .down => [0x1B, 0x4F, 0x42]
  | .right => [0x1B, 0x4F, 0x43]
  | .left => [0x1B, 0x4F, 0x44]
  | .f 1 => [0x1B, 0x4F, 0x50]
  | .f 2 => [0x1B, 0x4F, 0x51]
  | .f 3 => [0x1B, 0x4F, 0x52]
  | .f 4 => [0x1B, 0x4F, 0x53]
  | .f 5 => [0x1B, 0x5B, 0x31, 0x35, 0x7E]
  | .f 6 => [0x1B, 0x5B, 0x31, 0x37, 0x7E]
  | .f 7 => [0x1B, 0x5B, 0x31, 0x38, 0x7E]
  | .f 8 => [0x1B, 0x5B, 0x31, 0x39, 0x7E]
  | .f 9 => [0x1B, 0x5B, 0x32, 0x30, 0x7E]
  | .f 10 => [0x1B, 0x5B, 0x32, 0x31, 0x7E]
  | .f 11 => [0x1B, 0x5B, 0x32, 0x33, 0x7E]
  | .f 12 => [0x1B, 0x5B, 0x32, 0x34, 0x7E]
  | _ => []

/-- The sequences of the keys with Control. -/
def ctrlSequence : KeyCode → List Byte
  | .char 'c' => [0x03]
  | .char 'd' => [0x04]
  | .char 'r' => [0x12]
  | .char 'u' => [0x15]
  | .char 'z' => [0x1A]
  | _ => []

/-- The `match` of `run_ui` on a key: the size it returns and the buffer it leaves. -/
def encodeKey (bytes : List Byte) (modifiers : KeyModifiers) (code : KeyCode) : Nat × List Byte :=
  if modifiers = modifiersEmpty then
    match code with
    | .char ch => ((encodeUtf8 ch).length, put bytes 5 (encodeUtf8 ch))
    | code => encode bytes (plainSequence code)
  else if modifiers = modifiersCtrl then encode bytes (ctrlSequence code)
  else if modifiers = modifiersShift then
    match code with
    | .char ch => ((encodeUtf8 ch).length, put bytes 3 (encodeUtf8 ch))
    | _ => (0, bytes)
  else (0, bytes)

/-- A key of `run_ui`: the bytes it sends and the buffer after. -/
def handleKey (bytes : List Byte) (modifiers : KeyModifiers) (code : KeyCode) : List (List Byte) × List Byte :=
  let (sz, bytes) := encodeKey bytes modifiers code
  if sz > 0 then
    let szb := toLe64 (BitVec.ofNat 64 sz)
    let bytes := bytes.set 0 0x01
    let bytes := bytes.set 1 (byteAt szb 0)
    let bytes := bytes.set 2 (byteAt szb 1)
    let bytes := bytes.set 3 (byteAt szb 2)
    let bytes := bytes.set 4 (byteAt szb 4)
    ([bytes.take (sz + 5)], bytes)
  else ([], bytes)

def resizePty (rows cols : BitVec 16) (bytes : List Byte) : List (List Byte) × List Byte :=
  let bytes := bytes.set 0 0x02
  let bytes := put bytes 1 (toLe16 rows)
  let bytes := put bytes 3 (toLe16 cols)
  ([bytes.take 5], bytes)

def handleEvent (bytes : List Byte) : UiEvent → List (List Byte) × List Byte
  | .key modifiers code => handleKey bytes modifiers code
  | .resize cols rows => resizePty rows cols bytes
  | .other => ([], bytes)

/-- The sends of the loop of `run_ui`. -/
def loop : List Byte → List UiEvent → List (List Byte)
  | _, [] => []
  | bytes, ev :: events =>
    let (sends, bytes) := handleEvent bytes ev
    sends ++ loop bytes events

/-- The sends of `run_ui`: the size of the terminal, when it is known, and then the events. -/
def runUi (size : Option (BitVec 16 × BitVec 16)) (events : List UiEvent) : List (List Byte) :=
  let bytes := List.replicate 10 0x00
  match size with
  | some (cols, rows) =>
    let (sends, bytes) := resizePty rows cols bytes
    sends ++ loop bytes events
  | none => loop bytes events

/-! ## What the events stand for -/

/-- **The bytes a key stands for**: the encoding of a character, with or without Shift, or the sequence of the key. -/
def keyBytes (modifiers : KeyModifiers) : KeyCode → List Byte
  | .char ch =>
    if modifiers = modifiersEmpty ∨ modifiers = modifiersShift then encodeUtf8 ch
    else if modifiers = modifiersCtrl then ctrlSequence (.char ch)
    else []
  | code => if modifiers = modifiersEmpty then plainSequence code else []

/-- The message an event stands for. -/
def msgOf : UiEvent → Option TtyMsg
  | .key modifiers code => if keyBytes modifiers code = [] then none else some (.data (keyBytes modifiers code))
  | .resize cols rows => some (.resize ⟨rows, cols⟩)
  | .other => none

/-- The size of the terminal at the start, as the event it is sent as. -/
def announced (size : Option (BitVec 16 × BitVec 16)) : List UiEvent :=
  size.toList.map fun (cols, rows) => .resize cols rows

/-- **An event the agent decodes**: a key that stands for nothing, or a window with an area. -/
def Decodable : UiEvent → Prop
  | .key modifiers code => keyBytes modifiers code = []
  | .resize cols rows => rows ≠ 0 ∧ cols ≠ 0
  | .other => True

theorem runUi_eq (size : Option (BitVec 16 × BitVec 16)) (events : List UiEvent) :
    runUi size events = loop (List.replicate 10 0x00) (announced size ++ events) := by
  cases size with
  | none => rfl
  | some wh => rfl

/-! ## Keys -/

theorem length_encodeUtf8 (ch : Char) : 1 ≤ (encodeUtf8 ch).length ∧ (encodeUtf8 ch).length ≤ 4 := by
  unfold encodeUtf8
  rw [List.length_map, String.length_utf8EncodeChar]
  exact ⟨ch.utf8Size_pos, ch.utf8Size_le_four⟩

/-- Only the null character is encoded with a zero in front. -/
theorem encodeUtf8_zero (ch : Char) (rest : List Byte) (h : encodeUtf8 ch = 0 :: rest) : rest = [] := by
  have hlead : ∀ n : Nat, (UInt8.ofNat n).toBitVec = 0 → n % 256 = 0 := by
    intro n hn
    have := congrArg BitVec.toNat hn
    simpa using this
  unfold encodeUtf8 String.utf8EncodeChar at h
  simp only at h
  split at h
  · simp only [List.map_cons, List.map_nil, List.cons.injEq] at h
    exact h.2.symm
  · split at h
    · simp only [List.map_cons, List.cons.injEq] at h
      have := hlead _ h.1
      omega
    · split at h
      · simp only [List.map_cons, List.cons.injEq] at h
        have := hlead _ h.1
        omega
      · simp only [List.map_cons, List.cons.injEq] at h
        have := hlead _ h.1
        omega

theorem plainSequence_spec (code : KeyCode) :
    (plainSequence code).length ≤ 5 ∧ (plainSequence code).head? ≠ some 0 := by
  unfold plainSequence
  split <;> decide

theorem ctrlSequence_spec (code : KeyCode) : (ctrlSequence code).length ≤ 1 ∧ (ctrlSequence code).head? ≠ some 0 := by
  unfold ctrlSequence
  split <;> decide

theorem ctrlSequence_eq_nil (code : KeyCode) (h : ∀ ch, code ≠ .char ch) : ctrlSequence code = [] := by
  unfold ctrlSequence
  split
  all_goals first
    | rfl
    | exact absurd rfl (h _)

/-- **The size of a key is the number of bytes it stands for**, and a key that stands for none leaves the buffer. -/
theorem encodeKey_size (bytes : List Byte) (modifiers : KeyModifiers) (code : KeyCode) :
    (encodeKey bytes modifiers code).1 = (keyBytes modifiers code).length := by
  unfold encodeKey keyBytes
  by_cases he : modifiers = modifiersEmpty
  · cases code <;> simp [he, encode]
  · by_cases hc : modifiers = modifiersCtrl
    · have hs : ¬ modifiersCtrl = modifiersShift := by decide
      have he' : ¬ modifiersCtrl = modifiersEmpty := by decide
      subst hc
      cases code <;> simp [hs, he', encode, ctrlSequence_eq_nil]
    · by_cases hs : modifiers = modifiersShift
      · subst hs
        cases code <;> simp [he, hc]
      · cases code <;> simp [he, hc, hs]

theorem length_keyBytes (modifiers : KeyModifiers) (code : KeyCode) : (keyBytes modifiers code).length ≤ 5 := by
  unfold keyBytes
  split
  · split
    · exact Nat.le_trans (length_encodeUtf8 _).2 (by omega)
    · split
      · exact Nat.le_trans (ctrlSequence_spec _).1 (by omega)
      · exact Nat.zero_le _
  · split
    · exact (plainSequence_spec _).1
    · exact Nat.zero_le _

/-- No key but the null character stands for bytes with a zero in front. -/
theorem keyBytes_zero (modifiers : KeyModifiers) (code : KeyCode) (rest : List Byte)
    (h : keyBytes modifiers code = 0 :: rest) : rest = [] := by
  unfold keyBytes at h
  cases code with
  | char ch =>
    simp only at h
    split at h
    · exact encodeUtf8_zero ch rest h
    · split at h
      · exact absurd (by rw [h]; rfl) (ctrlSequence_spec (.char ch)).2
      · cases h
  | _ =>
    simp only at h
    split at h
    · exact absurd (by rw [h]; rfl) (plainSequence_spec _).2
    · cases h

theorem length_put (bytes src : List Byte) (i : Nat) (h : i + src.length ≤ bytes.length) :
    (put bytes i src).length = bytes.length := by
  unfold put
  simp only [List.length_append, List.length_take, List.length_drop]
  omega

theorem length_encodeKey (bytes : List Byte) (modifiers : KeyModifiers) (code : KeyCode) (h : bytes.length = 10) :
    (encodeKey bytes modifiers code).2.length = 10 := by
  have hutf : ∀ ch i, i ≤ 5 → (put bytes i (encodeUtf8 ch)).length = 10 := by
    intro ch i hi
    have := (length_encodeUtf8 ch).2
    rw [length_put _ _ _ (by omega), h]
  have hplain : ∀ code, (encode bytes (plainSequence code)).2.length = 10 := by
    intro code
    have := (plainSequence_spec code).1
    exact (length_put _ _ _ (by omega)).trans h
  unfold encodeKey
  split
  · split
    · exact hutf _ 5 (by omega)
    · exact hplain _
  · split
    · have := (ctrlSequence_spec code).1
      exact (length_put _ _ _ (by omega)).trans h
    · split
      · split
        · exact hutf _ 3 (by omega)
        · exact h
      · exact h

theorem set_header (bytes : List Byte) (h : 5 ≤ bytes.length) (a b c d e : Byte) :
    ((((bytes.set 0 a).set 1 b).set 2 c).set 3 d).set 4 e = [a, b, c, d, e] ++ bytes.drop 5 := by
  match bytes, h with
  | _ :: _ :: _ :: _ :: _ :: rest, _ => rfl

/-- **What a key sends**: a header of five bytes, of which the last two are zero, and as many bytes as it stands for. -/
theorem handleKey_sends (bytes : List Byte) (modifiers : KeyModifiers) (code : KeyCode) (hb : bytes.length = 10)
    (hk : keyBytes modifiers code ≠ []) :
    ∃ tail bytes', handleKey bytes modifiers code =
        ([SockTTY.msgTyData :: toLe16 (BitVec.ofNat 16 (keyBytes modifiers code).length) ++ (0 :: 0 :: tail)], bytes') ∧
      tail.length = (keyBytes modifiers code).length ∧ bytes'.length = 10 := by
  have hsize := encodeKey_size bytes modifiers code
  have hlen := length_encodeKey bytes modifiers code hb
  have hmax := length_keyBytes modifiers code
  have hpos : 0 < (keyBytes modifiers code).length := List.length_pos_iff.2 hk
  generalize (keyBytes modifiers code).length = sz at *
  cases hx : encodeKey bytes modifiers code with | mk n buf
  rw [hx] at hsize hlen
  simp only at hsize hlen
  subst hsize
  have hzero : byteAt (toLe64 (BitVec.ofNat 64 n)) 2 = 0 ∧ byteAt (toLe64 (BitVec.ofNat 64 n)) 4 = 0 := by
    have hsmall : ∀ n : Fin 6, byteAt (toLe64 (BitVec.ofNat 64 n.val)) 2 = 0 ∧
        byteAt (toLe64 (BitVec.ofNat 64 n.val)) 4 = 0 := by decide
    exact hsmall ⟨n, by omega⟩
  have hbuf : ((((buf.set 0 0x01).set 1 (byteAt (toLe64 (BitVec.ofNat 64 n)) 0)).set 2
      (byteAt (toLe64 (BitVec.ofNat 64 n)) 1)).set 3 (byteAt (toLe64 (BitVec.ofNat 64 n)) 2)).set 4
      (byteAt (toLe64 (BitVec.ofNat 64 n)) 4) =
        (SockTTY.msgTyData :: toLe16 (BitVec.ofNat 16 n) ++ [0, 0]) ++ buf.drop 5 := by
    rw [set_header buf (by omega), hzero.1, hzero.2, toLe16_of_toLe64]
    rfl
  refine ⟨(buf.drop 5).take n, (SockTTY.msgTyData :: toLe16 (BitVec.ofNat 16 n) ++ [0, 0]) ++ buf.drop 5, ?_, ?_, ?_⟩
  · unfold handleKey
    rw [hx]
    have hhdr : n + 5 = (SockTTY.msgTyData :: toLe16 (BitVec.ofNat 16 n) ++ [0, 0]).length + n := Nat.add_comm n 5
    simp only [gt_iff_lt, if_pos hpos, hbuf]
    rw [hhdr, List.take_length_add_append, List.append_assoc]
    rfl
  · rw [List.length_take, List.length_drop]
    omega
  · rw [List.length_append, List.length_drop]
    simp only [toLe16, List.length_append, List.length_cons, List.length_nil]
    omega

theorem handleKey_silent (bytes : List Byte) (modifiers : KeyModifiers) (code : KeyCode)
    (hk : keyBytes modifiers code = []) :
    handleKey bytes modifiers code = ([], (encodeKey bytes modifiers code).2) := by
  have hsize := encodeKey_size bytes modifiers code
  rw [hk] at hsize
  unfold handleKey
  cases hx : encodeKey bytes modifiers code with | mk n buf
  rw [hx] at hsize
  simp only [List.length_nil] at hsize
  subst hsize
  rfl

theorem resizePty_sends (rows cols : BitVec 16) (bytes : List Byte) (hb : bytes.length = 10) :
    ∃ bytes', resizePty rows cols bytes = ([(TtyMsg.resize ⟨rows, cols⟩).bytes], bytes') ∧ bytes'.length = 10 := by
  match bytes, hb with
  | [b0, b1, b2, b3, b4, b5, b6, b7, b8, b9], _ => exact ⟨_, rfl, rfl⟩

theorem length_handleEvent (bytes : List Byte) (ev : UiEvent) (hb : bytes.length = 10) :
    (handleEvent bytes ev).2.length = 10 := by
  cases ev with
  | other => exact hb
  | resize cols rows =>
    obtain ⟨bytes', h, hlen⟩ := resizePty_sends rows cols bytes hb
    simp only [handleEvent, h, hlen]
  | key modifiers code =>
    by_cases hk : keyBytes modifiers code = []
    · simp only [handleEvent, handleKey_silent bytes modifiers code hk]
      exact length_encodeKey bytes modifiers code hb
    · obtain ⟨tail, bytes', h, -, hlen⟩ := handleKey_sends bytes modifiers code hb hk
      simp only [handleEvent, h, hlen]

/-! ## Sessions -/

/-- **A session without keys that send anything is the bytes of its messages.** -/
theorem loop_wire : ∀ (events : List UiEvent) (bytes : List Byte), bytes.length = 10 → (∀ ev ∈ events, Decodable ev) →
    (loop bytes events).flatten = SockTTY.wire (events.filterMap msgOf) ∧
      ∀ m ∈ events.filterMap msgOf, m.WellFormed
  | [], _, _, _ => ⟨rfl, by simp⟩
  | ev :: events, bytes, hb, hev => by
    have hfirst := hev ev List.mem_cons_self
    obtain ⟨hrest, hwf⟩ := loop_wire events (handleEvent bytes ev).2 (length_handleEvent bytes ev hb)
      fun ev' h => hev ev' (List.mem_cons_of_mem _ h)
    unfold loop
    simp only [List.flatten_append, hrest]
    cases ev with
    | other => exact ⟨rfl, hwf⟩
    | key modifiers code =>
      have hnone : msgOf (.key modifiers code) = none := if_pos hfirst
      rw [List.filterMap_cons_none hnone]
      exact ⟨by simp [handleEvent, handleKey_silent bytes modifiers code hfirst], hwf⟩
    | resize cols rows =>
      obtain ⟨bytes', h, -⟩ := resizePty_sends rows cols bytes hb
      have hsome : msgOf (.resize cols rows) = some (.resize ⟨rows, cols⟩) := rfl
      rw [List.filterMap_cons_some hsome]
      refine ⟨by simp [handleEvent, h, SockTTY.wire], ?_⟩
      intro m hm
      rcases List.mem_cons.1 hm with rfl | hm
      · exact hfirst
      · exact hwf m hm

/-- A zero where a type byte should be is taken for an empty socket. -/
theorem readFromSocket_zero (rest : List Byte) (t : SockTTY (List Byte)) (ht : t.client = 0 :: rest) :
    (SockTTY.readFromSocket available SockTTY.bufferSize t).1 = .ok (.wouldBlock, []) := by
  have hrecv : available 1 t.client = (.ok [0], rest) := by
    rw [ht]
    exact available_append [0] rest (by simp)
  unfold SockTTY.readFromSocket
  rw [SockTTY.recvZeroed_ok hrecv rfl, Res.andThen_ok]
  rfl

/-- **A key that sends anything is not decoded**: its data starts with the zeros of the header, and where that happens
to be right a zero stands in the place of the next message. -/
theorem key_not_decoded (k tail rest : List Byte) (hzero : ∀ k', k = 0 :: k' → k' = []) (hk : k ≠ [])
    (hmax : k.length ≤ 5) (htail : tail.length = k.length) (ms : List TtyMsg) (t : SockTTY (List Byte))
    (ht : t.client = SockTTY.msgTyData :: toLe16 (BitVec.ofNat 16 k.length) ++ (0 :: 0 :: tail) ++ rest)
    (hreads : (SockTTY.reads available (ms.length + 1) t).1 = SockTTY.decoded (.data k) :: ms.map SockTTY.decoded) :
    (SockTTY.reads available (ms.length + 1) t).2.client ≠ [] := by
  have hpos : 0 < k.length := List.length_pos_iff.2 hk
  -- the agent reads a message of the announced length, two bytes too early
  let d := (0 :: 0 :: tail : List Byte).take k.length
  have hd : d.length = k.length := by
    simp only [d, List.length_take, List.length_cons]
    omega
  have hclient : t.client = (TtyMsg.data d).bytes ++ ((0 :: 0 :: tail : List Byte).drop k.length ++ rest) := by
    rw [ht]
    simp only [TtyMsg.bytes, hd, d]
    rw [List.append_assoc, List.append_assoc, ← List.append_assoc (List.take _ _), List.take_append_drop]
  have hwf : (TtyMsg.data d).WellFormed := ⟨by omega, by omega⟩
  have hread := SockTTY.readFromSocket_comes hwf (hclient ▸ SockTTY.comes_available hwf _)
  simp only [SockTTY.reads, hread] at hreads ⊢
  rw [List.cons.injEq] at hreads
  have hdk : d = k := by
    have := hreads.1
    simpa [SockTTY.decoded, TtyMsg.payload, TtyMsg.action] using this
  cases k with
  | nil => exact absurd rfl hk
  | cons k₀ k' =>
    simp only [d, List.length_cons, List.take_succ_cons, List.cons.injEq] at hdk
    obtain ⟨rfl, -⟩ := hdk
    obtain rfl := hzero k' rfl
    -- one zero is left of the header
    cases ms with
    | nil => simp [SockTTY.reads]
    | cons m ms =>
      have hnext := hreads.2
      simp only [List.length_cons, SockTTY.reads, List.map_cons, List.cons.injEq] at hnext
      rw [readFromSocket_zero _ _ rfl] at hnext
      cases m with
      | data d => simp [SockTTY.decoded, TtyMsg.action] at hnext
      | resize size => simp [SockTTY.decoded, TtyMsg.action] at hnext

/-- The reads of a session give its messages and leave nothing. -/
def Exact (ms : List TtyMsg) (t : SockTTY (List Byte)) : Prop :=
  (SockTTY.reads available ms.length t).1 = ms.map SockTTY.decoded ∧
    (SockTTY.reads available ms.length t).2.client = []

theorem resize_exact {size : Winsize} {rest : List Byte} {ms : List TtyMsg} {t : SockTTY (List Byte)}
    (ht : t.client = (TtyMsg.resize size).bytes ++ rest) (h : Exact (.resize size :: ms) t) :
    (size.rows ≠ 0 ∧ size.cols ≠ 0) ∧ Exact ms { t with client := rest, sizes := t.sizes ++ [size] } := by
  have htype : available 1 t.client = (.ok [SockTTY.msgTyTtyResize], toLe16 size.rows ++ toLe16 size.cols ++ rest) := by
    rw [ht]
    exact available_append [SockTTY.msgTyTtyResize] _ (by simp)
  have hsize : available 4 (toLe16 size.rows ++ toLe16 size.cols ++ rest) = (.ok _, rest) :=
    available_append (toLe16 size.rows ++ toLe16 size.cols) rest (by simp [toLe16])
  unfold Exact at h
  simp only [List.length_cons, SockTTY.reads, List.map_cons, List.cons.injEq] at h
  rw [SockTTY.readFromSocket_resize htype hsize] at h
  by_cases harea : size.rows = 0 ∨ size.cols = 0
  · rw [if_pos harea] at h
    simp [SockTTY.decoded] at h
  · rw [if_neg harea] at h
    exact ⟨not_or.1 harea, h.1.2, h.2⟩

/-- **The first event of a session that is decoded exactly is one the agent decodes**, and so is the rest. -/
theorem first_decodable {first : UiEvent} {events : List UiEvent} {bytes : List Byte} {t : SockTTY (List Byte)}
    (hb : bytes.length = 10) (ht : t.client = (loop bytes (first :: events)).flatten)
    (h : Exact ((first :: events).filterMap msgOf) t) :
    Decodable first ∧ ∃ t', t'.client = (loop (handleEvent bytes first).2 events).flatten ∧
      Exact (events.filterMap msgOf) t' := by
  unfold loop at ht
  simp only [List.flatten_append] at ht
  cases first with
  | other => exact ⟨trivial, t, ht, h⟩
  | key modifiers code =>
    by_cases hk : keyBytes modifiers code = []
    · have hnone : msgOf (.key modifiers code) = none := if_pos hk
      have hsilent : (handleEvent bytes (.key modifiers code)).1 = [] :=
        congrArg Prod.fst (handleKey_silent bytes modifiers code hk)
      rw [List.filterMap_cons_none hnone] at h
      rw [hsilent] at ht
      exact ⟨hk, t, ht, h⟩
    · have hsome : msgOf (.key modifiers code) = some (.data (keyBytes modifiers code)) := if_neg hk
      obtain ⟨tail, bytes', hsend, htail, -⟩ := handleKey_sends bytes modifiers code hb hk
      rw [List.filterMap_cons_some hsome] at h
      simp only [handleEvent, hsend, List.flatten_cons, List.flatten_nil, List.append_nil] at ht
      have hlost := key_not_decoded _ tail _ (keyBytes_zero modifiers code) hk (length_keyBytes _ _) htail _ t ht h.1
      exact absurd h.2 hlost
  | resize cols rows =>
    have hsome : msgOf (.resize cols rows) = some (.resize ⟨rows, cols⟩) := rfl
    obtain ⟨bytes', hsend, -⟩ := resizePty_sends rows cols bytes hb
    rw [List.filterMap_cons_some hsome] at h
    simp only [handleEvent, hsend, List.flatten_cons, List.flatten_nil, List.append_nil] at ht ⊢
    obtain ⟨harea, hrest⟩ := resize_exact ht h
    exact ⟨harea, _, rfl, hrest⟩

theorem decodable_of_exact : ∀ (events : List UiEvent) (bytes : List Byte) (t : SockTTY (List Byte)),
    bytes.length = 10 → t.client = (loop bytes events).flatten → Exact (events.filterMap msgOf) t →
      ∀ ev ∈ events, Decodable ev
  | [], _, _, _, _, _, _, hev => by cases hev
  | first :: events, bytes, t, hb, ht, h, ev, hev => by
    obtain ⟨hfirst, t', ht', h'⟩ := first_decodable hb ht h
    rcases List.mem_cons.1 hev with rfl | hev
    · exact hfirst
    · exact decodable_of_exact events _ t' (length_handleEvent bytes first hb) ht' h' ev hev

/-- **A session is decoded as it was typed if and only if no key in it stands for anything and every window has an
area.**  Decoding the bytes of `run_ui` gives one write for each key that stands for bytes and one resize for each
window size, the one announced at the start included, in order and with nothing left over, exactly for those
sessions. -/
theorem attach_decoded_iff (size : Option (BitVec 16 × BitVec 16)) (events : List UiEvent) :
    SockTTY.reads available ((announced size ++ events).filterMap msgOf).length ⟨(runUi size events).flatten, [], []⟩ =
        (((announced size ++ events).filterMap msgOf).map SockTTY.decoded,
          ⟨[], [], ((announced size ++ events).filterMap msgOf).flatMap TtyMsg.sizes⟩) ↔
      ∀ ev ∈ announced size ++ events, Decodable ev := by
  have hlen : (List.replicate 10 (0x00 : Byte)).length = 10 := List.length_replicate
  rw [runUi_eq]
  constructor
  · intro h
    exact decodable_of_exact _ _ ⟨_, [], []⟩ hlen rfl ⟨congrArg Prod.fst h, congrArg (fun x => x.2.client) h⟩
  · intro h
    obtain ⟨hwire, hwf⟩ := loop_wire (announced size ++ events) _ hlen h
    have hreads := SockTTY.reads_wire _ []
      ⟨(loop (List.replicate 10 0x00) (announced size ++ events)).flatten, [], []⟩ hwf
      (by rw [hwire, List.append_nil])
    rw [hreads]
    rfl

/-- **Typing an `a` writes a zero to the terminal**, and leaves the `a` behind a byte that reads as an empty socket. -/
theorem attach_letter_lost :
    SockTTY.reads available 1 ⟨(runUi none [.key modifiersEmpty (.char 'a')]).flatten, [], []⟩ =
        ([.ok (.writeToTTY, [0x00])], ⟨[0x00, 0x61], [], []⟩) ∧
      ¬ SockTTY.reads available 1 ⟨(runUi none [.key modifiersEmpty (.char 'a')]).flatten, [], []⟩ =
        ([.ok (.writeToTTY, [0x61])], ⟨[], [], []⟩) := by
  have h : SockTTY.reads available 1 ⟨(runUi none [.key modifiersEmpty (.char 'a')]).flatten, [], []⟩ =
      ([.ok (.writeToTTY, [0x00])], ⟨[0x00, 0x61], [], []⟩) := rfl
  refine ⟨h, ?_⟩
  rw [h]
  simp

end ShardAttach
end Oathgate
