import Oathgate.LibRun
import Oathgate.WgInbound
/-!
# WgReassembly — fragments in order (`oathgate-bridge`: `net/wan/wireguard.rs`)

`Split` says what the fragments of a datagram are, in offset order.  While they arrive in that order the cache holds,
under their identification, the first fragment's header and the payloads so far (`held`), whatever else arrives in
between, and the last fragment hands on the whole datagram (`interleaved`).
-/
namespace Oathgate

open Lib

namespace WgTunnel

/-- The cache, and what each packet so far handed on. -/
structure Reassembly where
  cache : FragmentCache
  yielded : List (Option Ipv4Packet)

/-- The receive branch on one packet after another, until one ends the loop. -/
def receiveAll : Reassembly → List (List Byte) → Res NetworkError Unit × Reassembly
  | s, [] => (.ok (), s)
  | s, b :: bs =>
    match receive s.cache b with
    | .ok (cache, out) => receiveAll ⟨cache, s.yielded ++ [out]⟩ bs
    | .err e => (.err e, s)
    | .panic p => (.panic p, s)

/-- The payload of a fragment. -/
def body (f : List Byte) : List Byte := f.drop (Ipv4Header.ihlBytes f)

def bodies (fs : List (List Byte)) : List Byte := fs.flatMap body

/-- Each fragment but the last announces more, and each lies at the offset where the payloads before it end.  An offset
is a multiple of eight, so every payload but the last is too. -/
def Contiguous : Nat → List (List Byte) → Prop
  | _, [] => True
  | offset, f :: rest => (packetOf f).hasFragments = !rest.isEmpty ∧ (packetOf f).fragmentOffset.toNat = offset ∧
      Contiguous (offset + (body f).length) rest

/-- **The fragments of one datagram in offset order**: contiguous packets of one identification, each as long as its
header says, of a datagram of at most 65535 bytes. -/
structure Split (id : BitVec 16) (fs : List (List Byte)) : Prop where
  two : 2 ≤ fs.length
  header : ∀ f ∈ fs, 20 ≤ Ipv4Header.ihlBytes f ∧ Ipv4Header.ihlBytes f ≤ f.length
  length : ∀ f ∈ fs, (packetOf f).len.toNat = f.length
  id : ∀ f ∈ fs, (packetOf f).id = id
  contiguous : Contiguous 0 fs
  total : ∀ f ∈ fs.head?, Ipv4Header.ihlBytes f + (bodies fs).length < 2 ^ 16

/-- A packet that is not a fragment. -/
def Whole (b : List Byte) : Prop :=
  Readable b ∧ (packetOf b).hasFragments = false ∧ (packetOf b).fragmentOffset = 0

/-- **`q` is the datagram the fragments `fs` were split from**, in its header and in its bytes. -/
structure Rebuilt (fs : List (List Byte)) (q : Ipv4Packet) : Prop where
  payload : q.data.drop 20 = bodies fs
  len : q.len.toNat = 20 + (bodies fs).length
  flags : q.header.flags = 0
  offset : q.fragmentOffset = 0
  fields : ∀ f ∈ fs.head?, q.src = (packetOf f).src ∧ q.dest = (packetOf f).dest ∧
    q.protocol = (packetOf f).protocol ∧ q.header.ttl = (packetOf f).header.ttl ∧ q.id = (packetOf f).id
  wire : Ipv4Header.headerOf q.data = { q.header with checksum := be16At q.data 10 }

/-! ## One packet -/

theorem receiveAll_append (as bs : List (List Byte)) : ∀ (s : Reassembly),
    receiveAll s (as ++ bs) = Res.andThen (receiveAll s as) fun _ s' => receiveAll s' bs := by
  induction as with
  | nil => intro s; rfl
  | cons a as ih =>
    intro s
    rw [List.cons_append, receiveAll, receiveAll]
    cases receive s.cache a with
    | ok x => exact ih _
    | err e => rfl
    | panic p => rfl

theorem receive_whole (cache : FragmentCache) {b : List Byte} (hb : Whole b) :
    receive cache b = .ok (cache, some (packetOf b)) := by
  obtain ⟨hread, hmore, hoff⟩ := hb
  refine receive_eq_ok.2 ⟨hread, ?_, ?_⟩
  · unfold Placeable
    rw [hmore, hoff]
    trivial
  · unfold cacheAfter handedOn
    rw [hmore, hoff]
    rfl

theorem receive_first (cache : FragmentCache) {f : List Byte} (hf : Readable f)
    (hmore : (packetOf f).hasFragments = true) (hoff : (packetOf f).fragmentOffset = 0) :
    receive cache f = .ok (cache.insert (packetOf f).id (packetOf f), none) := by
  refine receive_eq_ok.2 ⟨hf, ?_, ?_⟩
  · unfold Placeable
    rw [hmore, hoff]
    trivial
  · unfold cacheAfter handedOn
    rw [hmore, hoff]
    rfl

theorem receive_middle {cache : FragmentCache} {f : List Byte} {p : Ipv4Packet} (hf : Readable f)
    (hmore : (packetOf f).hasFragments = true) (hoff : (packetOf f).fragmentOffset ≠ 0)
    (hget : cache.get (packetOf f).id = some p) {x : FragmentCache × Option Ipv4Packet} :
    receive cache f = .ok x ↔ p.Fits (packetOf f).fragmentOffset (body f) ∧
      x = (cache.insert (packetOf f).id (p.place (packetOf f).fragmentOffset (body f)), none) := by
  have hdec : decide ((packetOf f).fragmentOffset = 0) = false := decide_eq_false hoff
  rw [receive_eq_ok]
  unfold Placeable cacheAfter handedOn
  rw [hmore, hdec, hget]
  simp only [hf, true_and, Option.some.injEq, forall_eq']
  rfl

theorem receive_last {cache : FragmentCache} {f : List Byte} {p : Ipv4Packet} (hf : Readable f)
    (hmore : (packetOf f).hasFragments = false) (hoff : (packetOf f).fragmentOffset ≠ 0)
    (hget : cache.get (packetOf f).id = some p) {x : FragmentCache × Option Ipv4Packet} :
    receive cache f = .ok x ↔ (p.Fits (packetOf f).fragmentOffset (body f) ∧
      20 ≤ (p.place (packetOf f).fragmentOffset (body f)).data.length) ∧
      x = (cache.erase (packetOf f).id, some (completed p (packetOf f))) := by
  have hdec : decide ((packetOf f).fragmentOffset = 0) = false := decide_eq_false hoff
  rw [receive_eq_ok]
  unfold Placeable cacheAfter handedOn
  rw [hmore, hdec, hget]
  simp only [hf, true_and, Option.some.injEq, exists_eq_left', Option.map_some]
  rfl

/-! ## What the cache holds -/

/-- The packet held for the first fragments `pre` of a datagram. -/
def held (pre : List (List Byte)) : Ipv4Packet :=
  let first := pre.headD []
  ⟨{ Ipv4Header.headerOf first with length := BitVec.ofNat 16 (Ipv4Header.ihlBytes first + (bodies pre).length) },
    first.take (Ipv4Header.ihlBytes first) ++ bodies pre⟩

theorem bodies_append (as bs : List (List Byte)) : bodies (as ++ bs) = bodies as ++ bodies bs := List.flatMap_append

theorem bodies_cons (f : List Byte) (fs : List (List Byte)) : bodies (f :: fs) = body f ++ bodies fs :=
  List.flatMap_cons

theorem bodies_singleton (f : List Byte) : bodies [f] = body f := List.flatMap_singleton body f

theorem held_singleton {f : List Byte} (hihl : Ipv4Header.ihlBytes f ≤ f.length)
    (hlen : (packetOf f).len.toNat = f.length) : held [f] = packetOf f := by
  have hbody : (body f).length = f.length - Ipv4Header.ihlBytes f := List.length_drop
  have hlength : BitVec.ofNat 16 (Ipv4Header.ihlBytes f + (body f).length) = (Ipv4Header.headerOf f).length := by
    apply BitVec.eq_of_toNat_eq
    rw [hbody, Nat.add_sub_cancel' hihl, ← hlen, BitVec.toNat_ofNat]
    exact Nat.mod_eq_of_lt (packetOf f).len.isLt
  unfold held
  rw [bodies_singleton]
  simp only [List.headD_cons, hlength]
  exact congrArg (Ipv4Packet.mk _) (List.take_append_drop _ f)

theorem transport_held (pre : List (List Byte))
    (hihl : Ipv4Header.ihlBytes (pre.headD []) ≤ (pre.headD []).length) :
    (held pre).transport = bodies pre := by
  have htake : ((pre.headD []).take (Ipv4Header.ihlBytes (pre.headD []))).length =
      Ipv4Header.ihlBytes (pre.headD []) := by
    rw [List.length_take]
    omega
  exact List.drop_left' htake

/-- **The next fragment goes behind what is held.** -/
theorem place_held (pre : List (List Byte)) (hpre : pre ≠ []) {f : List Byte} {offset : BitVec 16}
    (hihl : Ipv4Header.ihlBytes (pre.headD []) ≤ (pre.headD []).length) (hoff : offset.toNat = (bodies pre).length)
    (htotal : Ipv4Header.ihlBytes (pre.headD []) + (bodies (pre ++ [f])).length < 2 ^ 16) :
    (held pre).Fits offset (body f) ∧ (held pre).place offset (body f) = held (pre ++ [f]) := by
  have htrans := transport_held pre hihl
  have heq : offset.toNat = (held pre).transport.length := by rw [htrans, hoff]
  have hhead : (pre ++ [f]).headD [] = pre.headD [] := by
    cases pre with
    | nil => exact absurd rfl hpre
    | cons a as => rfl
  rw [bodies_append, bodies_singleton, List.length_append] at htotal
  have hlen : (held pre).header.length.toNat = Ipv4Header.ihlBytes (pre.headD []) + (bodies pre).length := by
    show (BitVec.ofNat 16 _).toNat = _
    rw [BitVec.toNat_ofNat, Nat.mod_eq_of_lt (by omega)]
  constructor
  · refine ⟨?_, ?_⟩
    · show Ipv4Header.ihlBytes (pre.headD []) ≤ _
      rw [held, List.length_append, List.length_take]
      omega
    · rw [if_pos heq, hlen, Nat.mod_eq_of_lt (by omega)]
      omega
  · unfold Ipv4Packet.place
    rw [if_pos heq]
    unfold held
    rw [hhead, bodies_append, bodies_singleton, List.length_append]
    simp only [List.append_assoc, Ipv4Packet.mk.injEq, Ipv4Header.mk.injEq, true_and, and_true]
    rw [← BitVec.ofNat_add, Nat.add_assoc]

/-! ## The datagram that is handed on -/

theorem version_of_nibble (b : Byte) : ((((b >>> 4) <<< 4) ||| 5 : Byte)) >>> 4 = b >>> 4 := by
  revert b
  decide

/-- **A header without fragments is read back from the bytes written for it.** -/
theorem headerOf_wire (h : Ipv4Header) (tos : Byte) (csum : BitVec 16) (rest : List Byte) (b : Byte)
    (hversion : h.version = b >>> 4) (hihl : h.ihl = 5) (hflags : h.flags = 0) (hoff : h.fragOffset = 0) :
    Ipv4Header.headerOf (h.wire tos csum ++ rest) = { h with checksum := csum } := by
  have hver : byteAt (h.wire tos csum ++ rest) 0 >>> 4 = h.version := by
    show ((h.version <<< 4) ||| 5) >>> 4 = h.version
    rw [hversion]
    exact version_of_nibble b
  have hnib : byteAt (h.wire tos csum ++ rest) 0 &&& 0x0F = h.ihl := by
    rw [hihl]
    exact Ipv4Header.low_nibble_five h.version
  have hzero : (h.flags.setWidth 16 <<< 13) ||| h.fragOffset = 0 := by
    rw [hflags, hoff]
    decide
  have hword : be16At (h.wire tos csum ++ rest) 6 = (h.flags.setWidth 16 <<< 13) ||| h.fragOffset :=
    be16At_toBe16 ((h.flags.setWidth 16 <<< 13) ||| h.fragOffset) []
  have hbyte : byteAt (h.wire tos csum ++ rest) 6 = ((h.flags.setWidth 16 <<< 13) ||| h.fragOffset).extractLsb' 8 8 :=
    rfl
  rw [hzero] at hword hbyte
  have hlength : be16At (h.wire tos csum ++ rest) 2 = h.length := be16At_toBe16 h.length []
  have hid : be16At (h.wire tos csum ++ rest) 4 = h.id := be16At_toBe16 h.id []
  have hsum : be16At (h.wire tos csum ++ rest) 10 = csum := be16At_toBe16 csum []
  have hsrc : be32At (h.wire tos csum ++ rest) 12 = h.src := be32At_toBe32 h.src []
  have hdst : be32At (h.wire tos csum ++ rest) 16 = h.dst := be32At_toBe32 h.dst []
  unfold Ipv4Header.headerOf
  rw [hver, hnib, hlength, hid, hword, hbyte, hsum, hsrc, hdst]
  have hflags' : (0 : BitVec 16).extractLsb' 8 8 >>> 5 = h.flags := by
    rw [hflags]
    decide
  have hoff' : ((0 : BitVec 16) &&& 0x1FFF) * 8 = h.fragOffset := by
    rw [hoff]
    decide
  rw [hflags', hoff']
  rfl

theorem length_data_held (pre : List (List Byte))
    (hihl : Ipv4Header.ihlBytes (pre.headD []) ≤ (pre.headD []).length) :
    (held pre).data.length = Ipv4Header.ihlBytes (pre.headD []) + (bodies pre).length := by
  rw [held, List.length_append, List.length_take]
  omega

/-- **The datagram is rebuilt** when its first fragment has no options. -/
theorem rebuilt_finalized {id : BitVec 16} {fs : List (List Byte)} (hs : Split id fs)
    (hihl : ∀ f ∈ fs.head?, Ipv4Header.ihlBytes f = 20) : Rebuilt fs (held fs).finalized := by
  obtain ⟨first, rest, rfl⟩ : ∃ first rest, fs = first :: rest := by
    cases fs with
    | nil => exact absurd hs.two (by simp)
    | cons f rest => exact ⟨f, rest, rfl⟩
  have h20 : Ipv4Header.ihlBytes first = 20 := hihl first (by simp)
  have hlong : 20 ≤ first.length := h20 ▸ (hs.header first (by simp)).2
  have htotal := hs.total first (by simp)
  rw [h20] at htotal
  have htrans : (held (first :: rest)).data.drop 20 = bodies (first :: rest) := by
    have htake : (first.take 20).length = 20 := by
      rw [List.length_take]
      omega
    show (first.take (Ipv4Header.ihlBytes first) ++ bodies (first :: rest)).drop 20 = _
    rw [h20]
    exact List.drop_left' htake
  refine ⟨?_, ?_, rfl, rfl, ?_, ?_⟩
  · show (Ipv4Header.onto _ _).drop 20 = _
    rw [Ipv4Header.drop_onto, htrans]
  · show (BitVec.ofNat 16 (Ipv4Header.ihlBytes first + (bodies (first :: rest)).length)).toNat = _
    rw [h20, BitVec.toNat_ofNat, Nat.mod_eq_of_lt htotal]
  · intro f hf
    simp only [List.head?_cons, Option.mem_some_iff] at hf
    subst hf
    exact ⟨rfl, rfl, rfl, rfl, rfl⟩
  · have hnibble := Ipv4Header.nibble_of_ihlBytes h20
    have hread := headerOf_wire (held (first :: rest)).finalized.header (byteAt (held (first :: rest)).data 1)
      ((held (first :: rest)).finalized.header.wireSum (byteAt (held (first :: rest)).data 1))
      ((held (first :: rest)).data.drop 20) (byteAt first 0) rfl hnibble rfl rfl
    have hsum : be16At (held (first :: rest)).finalized.data 10 =
        (held (first :: rest)).finalized.header.wireSum (byteAt (held (first :: rest)).data 1) := be16At_toBe16 _ []
    rw [hsum]
    exact hread

/-! ## Fragments in order -/

/-- **What the cache holds once the fragments `pre` of `fs` have arrived.** -/
structure Progress (id : BitVec 16) (fs pre : List (List Byte)) (cache : FragmentCache) : Prop where
  holding : pre ≠ [] → pre ≠ fs → cache.get id = some (held pre)
  done : pre = fs → cache.get id = none

theorem contiguous_append : ∀ (pre : List (List Byte)) (offset : Nat) {f : List Byte} {rest : List (List Byte)},
    Contiguous offset (pre ++ f :: rest) →
      (packetOf f).hasFragments = !rest.isEmpty ∧
        (packetOf f).fragmentOffset.toNat = offset + (bodies pre).length
  | [], _, _, _, h => ⟨h.1, h.2.1⟩
  | a :: pre, offset, f, rest, h => by
    obtain ⟨hmore, hoff⟩ := contiguous_append pre _ h.2.2
    refine ⟨hmore, ?_⟩
    rw [hoff, bodies_cons, List.length_append, Nat.add_assoc]

theorem Split.more {id : BitVec 16} {fs : List (List Byte)} (hs : Split id fs) (pre : List (List Byte)) (f : List Byte)
    (rest : List (List Byte)) (hfs : fs = pre ++ f :: rest) : (packetOf f).hasFragments = !rest.isEmpty :=
  (contiguous_append pre 0 (hfs ▸ hs.contiguous)).1

theorem Split.offset {id : BitVec 16} {fs : List (List Byte)} (hs : Split id fs) (pre : List (List Byte))
    (f : List Byte) (rest : List (List Byte)) (hfs : fs = pre ++ f :: rest) :
    (packetOf f).fragmentOffset.toNat = (bodies pre).length := by
  rw [(contiguous_append pre 0 (hfs ▸ hs.contiguous)).2, Nat.zero_add]

theorem Split.readable {id : BitVec 16} {fs : List (List Byte)} (hs : Split id fs) {f : List Byte} (hf : f ∈ fs) :
    Readable f := by
  obtain ⟨h20, hle⟩ := hs.header f hf
  exact ⟨h20.trans hle, hle⟩

theorem Split.progress_nil {id : BitVec 16} {fs : List (List Byte)} (hs : Split id fs) (cache : FragmentCache) :
    Progress id fs [] cache := by
  refine ⟨fun h => absurd rfl h, ?_⟩
  rintro rfl
  exact absurd hs.two (by simp)

/-- The first fragment carries data. -/
def CarriesFirst (fs : List (List Byte)) : Prop := ∀ f ∈ fs.head?, body f ≠ []

theorem Split.offset_ne_zero {id : BitVec 16} {fs : List (List Byte)} (hs : Split id fs) (hfirst : CarriesFirst fs)
    {pre rest : List (List Byte)} {f : List Byte} (hpre : pre ≠ []) (hfs : fs = pre ++ f :: rest) :
    (packetOf f).fragmentOffset ≠ 0 := by
  intro hzero
  have hoff := hs.offset pre f rest hfs
  rw [hzero] at hoff
  cases pre with
  | nil => exact hpre rfl
  | cons a as =>
    have hne : body a ≠ [] := hfirst a (by rw [hfs]; rfl)
    have hpos := List.length_pos_iff.2 hne
    rw [bodies_cons, List.length_append] at hoff
    have h0 : (0 : BitVec 16).toNat = 0 := rfl
    omega

/-- **The next fragment in order goes behind those held.** -/
theorem Split.place_next {id : BitVec 16} {fs : List (List Byte)} (hs : Split id fs) {pre rest : List (List Byte)}
    {f : List Byte} (hpre : pre ≠ []) (hfs : fs = pre ++ f :: rest) :
    (held pre).Fits (packetOf f).fragmentOffset (body f) ∧
      (held pre).place (packetOf f).fragmentOffset (body f) = held (pre ++ [f]) := by
  have hoff := hs.offset pre f rest hfs
  cases pre with
  | nil => exact absurd rfl hpre
  | cons first as =>
    have hheader := hs.header first (by rw [hfs]; simp)
    have htotal := hs.total first (by rw [hfs]; rfl)
    have hsplit : bodies fs = bodies (first :: as ++ [f]) ++ bodies rest := by
      rw [← bodies_append, List.append_assoc, hfs]
      rfl
    rw [hsplit, List.length_append] at htotal
    exact place_held (first :: as) hpre hheader.2 hoff (by simp only [List.headD_cons]; omega)

theorem Split.twenty_le_held {id : BitVec 16} {fs : List (List Byte)} (hs : Split id fs) :
    20 ≤ (held fs).data.length := by
  cases fs with
  | nil => exact absurd hs.two (by simp)
  | cons first rest =>
    have hheader := hs.header first (by simp)
    rw [length_data_held (first :: rest) hheader.2]
    exact hheader.1.trans (Nat.le_add_right _ _)

theorem receive_next_first {id : BitVec 16} {fs : List (List Byte)} (hs : Split id fs) {f : List Byte}
    {rest : List (List Byte)} (hfs : fs = f :: rest) (cache : FragmentCache) :
    rest ≠ [] ∧ receive cache f = .ok (cache.insert id (held [f]), none) := by
  have hmem : f ∈ fs := by rw [hfs]; simp
  have hread := hs.readable hmem
  have hrest : rest ≠ [] := by
    rintro rfl
    have htwo := hs.two
    rw [hfs] at htwo
    simp at htwo
  have hmore : (packetOf f).hasFragments = true := by
    rw [hs.more [] f rest hfs]
    simpa using hrest
  have hzero : (packetOf f).fragmentOffset = 0 := BitVec.eq_of_toNat_eq (hs.offset [] f rest hfs)
  refine ⟨hrest, ?_⟩
  rw [receive_first cache hread hmore hzero, hs.id f hmem, held_singleton hread.2 (hs.length f hmem)]

theorem receive_next_middle {id : BitVec 16} {fs : List (List Byte)} (hs : Split id fs) (hfirst : CarriesFirst fs)
    {pre rest : List (List Byte)} {f : List Byte} (hpre : pre ≠ []) (hrest : rest ≠ []) (hfs : fs = pre ++ f :: rest)
    {cache : FragmentCache} (hget : cache.get id = some (held pre)) :
    receive cache f = .ok (cache.insert id (held (pre ++ [f])), none) := by
  have hmem : f ∈ fs := by rw [hfs]; simp
  have hid := hs.id f hmem
  have hmore : (packetOf f).hasFragments = true := by
    rw [hs.more pre f rest hfs]
    simpa using hrest
  obtain ⟨hfits, hplace⟩ := hs.place_next hpre hfs
  rw [receive_middle (hs.readable hmem) hmore (hs.offset_ne_zero hfirst hpre hfs) (by rw [hid, hget]), hplace, hid]
  exact ⟨hfits, rfl⟩

theorem receive_next_last {id : BitVec 16} {fs : List (List Byte)} (hs : Split id fs) (hfirst : CarriesFirst fs)
    {pre : List (List Byte)} {f : List Byte} (hpre : pre ≠ []) (hfs : fs = pre ++ [f]) {cache : FragmentCache}
    (hget : cache.get id = some (held pre)) :
    receive cache f = .ok (cache.erase id, some (held fs).finalized) := by
  have hmem : f ∈ fs := by rw [hfs]; simp
  have hid := hs.id f hmem
  obtain ⟨hfits, hplace⟩ := hs.place_next hpre hfs
  rw [← hfs] at hplace
  have hcomp : completed (held pre) (packetOf f) = (held fs).finalized := by
    show ((held pre).place (packetOf f).fragmentOffset (body f)).finalized = _
    rw [hplace]
  rw [receive_last (hs.readable hmem) (hs.more pre f [] hfs) (hs.offset_ne_zero hfirst hpre hfs) (by rw [hid, hget]),
    hplace, hcomp, hid]
  exact ⟨⟨hfits, hs.twenty_le_held⟩, rfl⟩

/-- **The next fragment in order**: it is taken into the cache, and the last one hands on what is held. -/
theorem receive_next {id : BitVec 16} {fs : List (List Byte)} (hs : Split id fs) (hfirst : CarriesFirst fs)
    {pre rest : List (List Byte)} {f : List Byte} (hfs : fs = pre ++ f :: rest) {cache : FragmentCache}
    (hprog : Progress id fs pre cache) :
    ∃ cache', receive cache f = .ok (cache', if rest = [] then some (held fs).finalized else none) ∧
      Progress id fs (pre ++ [f]) cache' ∧ ∀ k, k ≠ id → cache'.get k = cache.get k := by
  have hne : pre ≠ fs := by
    intro h
    have hlen := congrArg List.length (h.trans hfs)
    simp at hlen
  have hlast : pre ++ [f] = fs ↔ rest = [] := by
    rw [hfs]
    simp [eq_comm]
  by_cases hpre : pre = []
  · subst hpre
    obtain ⟨hrest, hrecv⟩ := receive_next_first hs hfs cache
    refine ⟨_, by rw [hrecv, if_neg hrest], ?_, fun k hk => Table.get_insert_of_ne _ _ hk⟩
    exact ⟨fun _ _ => Table.get_insert_self _ _ _, fun h => absurd (hlast.1 h) hrest⟩
  · have hget := hprog.holding hpre hne
    by_cases hrest : rest = []
    · subst hrest
      refine ⟨_, by rw [receive_next_last hs hfirst hpre hfs hget, if_pos rfl], ?_,
        fun k hk => Table.get_erase_of_ne _ hk⟩
      exact ⟨fun _ h => absurd hfs.symm h, fun _ => Table.get_erase_self _ _⟩
    · refine ⟨_, by rw [receive_next_middle hs hfirst hpre hrest hfs hget, if_neg hrest], ?_,
        fun k hk => Table.get_insert_of_ne _ _ hk⟩
      exact ⟨fun _ _ => Table.get_insert_self _ _ _, fun h => absurd (hlast.1 h) hrest⟩

/-! ## Interleaved datagrams -/

section Interleaved

variable {D : Type} [DecidableEq D]

/-- What an arrival after `before` hands on; it is tagged with its datagram, or with none when it is not a fragment. -/
def expected (frags : D → List (List Byte)) (before : List (Option D × List Byte)) :
    Option D × List Byte → Option Ipv4Packet
  | (none, b) => some (packetOf b)
  | (some d, b) =>
    if Run.callsOf (some d) before ++ [b] = frags d then some (held (frags d)).finalized else none

/-- **An arrival changes the entry of its own datagram only.** -/
theorem receive_arrival {frags : D → List (List Byte)} {ids : D → BitVec 16} (hids : Function.Injective ids)
    (hsplit : ∀ d, Split (ids d) (frags d)) (hfirst : ∀ d, CarriesFirst (frags d)) {cache : FragmentCache}
    {xs : List (Option D × List Byte)} {x : Option D × List Byte} (hwhole : ∀ b, x = (none, b) → Whole b)
    (horder : ∀ d, Run.callsOf (some d) (xs ++ [x]) <+: frags d)
    (hprog : ∀ d, Progress (ids d) (frags d) (Run.callsOf (some d) xs) cache) :
    ∃ cache', receive cache x.2 = .ok (cache', expected frags xs x) ∧
      ∀ d, Progress (ids d) (frags d) (Run.callsOf (some d) (xs ++ [x])) cache' := by
  obtain ⟨tag, b⟩ := x
  cases tag with
  | none =>
    refine ⟨cache, receive_whole cache (hwhole b rfl), ?_⟩
    intro d
    rw [Run.callsOf_append, Run.callsOf_singleton, if_neg (by simp), List.append_nil]
    exact hprog d
  | some d =>
    have hown : Run.callsOf (some d) (xs ++ [(some d, b)]) = Run.callsOf (some d) xs ++ [b] := by
      rw [Run.callsOf_append, Run.callsOf_singleton, if_pos rfl]
    obtain ⟨rest, hrest⟩ := horder d
    rw [hown] at hrest
    have hfs : frags d = Run.callsOf (some d) xs ++ b :: rest := by
      rw [← hrest, List.append_assoc]
      rfl
    obtain ⟨cache', hrecv, hown', hother⟩ := receive_next (hsplit d) (hfirst d) hfs (hprog d)
    refine ⟨cache', ?_, ?_⟩
    · rw [hrecv]
      have hiff : rest = [] ↔ Run.callsOf (some d) xs ++ [b] = frags d := by
        rw [← hrest]
        simp [eq_comm]
      simp only [expected, hiff]
    · intro d'
      by_cases hd : d' = d
      · subst hd
        rwa [hown]
      · have hcalls : Run.callsOf (some d') (xs ++ [(some d, b)]) = Run.callsOf (some d') xs := by
          rw [Run.callsOf_append, Run.callsOf_singleton, if_neg (by simpa using Ne.symm hd), List.append_nil]
        rw [hcalls]
        have hkeep := hother (ids d') (fun h => hd (hids h))
        exact ⟨fun h₁ h₂ => by rw [hkeep]; exact (hprog d').holding h₁ h₂,
          fun h => by rw [hkeep]; exact (hprog d').done h⟩

/-- One more output, at the place of the last arrival. -/
theorem outputs_snoc {α β : Type} {xs : List α} {outs : List β} {g : List α → α → β} (x : α)
    (hlen : outs.length = xs.length)
    (hpos : ∀ pre y post, xs = pre ++ y :: post → outs[pre.length]? = some (g pre y)) :
    ∀ pre y post, xs ++ [x] = pre ++ y :: post → (outs ++ [g xs x])[pre.length]? = some (g pre y) := by
  intro pre y post hxs
  rcases List.eq_nil_or_concat post with rfl | ⟨post', z, rfl⟩
  · obtain ⟨hpre, hx⟩ := List.append_inj' hxs rfl
    simp only [List.cons.injEq, and_true] at hx
    rw [← hpre, ← hx, ← hlen, List.getElem?_append_right (Nat.le_refl _), Nat.sub_self]
    rfl
  · rw [List.concat_eq_append, ← List.cons_append, ← List.append_assoc] at hxs
    obtain ⟨hxs, -⟩ := List.append_inj' hxs rfl
    have hlt : pre.length < outs.length := by
      rw [hlen, hxs]
      simp
    rw [List.getElem?_append_left hlt]
    exact hpos pre y post' hxs

/-- **Interleaved arrivals do not disturb one another**: every datagram's cache entry tells its own fragments so far. -/
theorem interleaved {frags : D → List (List Byte)} {ids : D → BitVec 16} (hids : Function.Injective ids)
    (hsplit : ∀ d, Split (ids d) (frags d)) (hfirst : ∀ d, CarriesFirst (frags d)) (cache : FragmentCache)
    (ys : List (Option Ipv4Packet)) (xs : List (Option D × List Byte)) :
    (∀ b, (none, b) ∈ xs → Whole b) → (∀ d, Run.callsOf (some d) xs <+: frags d) →
    ∃ s, receiveAll ⟨cache, ys⟩ (xs.map Prod.snd) = (.ok (), s) ∧
      (∀ d, Progress (ids d) (frags d) (Run.callsOf (some d) xs) s.cache) ∧
      ∃ outs, s.yielded = ys ++ outs ∧ outs.length = xs.length ∧
        ∀ pre x post, xs = pre ++ x :: post → outs[pre.length]? = some (expected frags pre x) := by
  -- on the last arrival: the entries tell the fragments so far
  induction xs using List.reverseRecOn with
  | nil =>
    intro _ _
    exact ⟨⟨cache, ys⟩, rfl, fun d => (hsplit d).progress_nil cache, [], (List.append_nil ys).symm, rfl, by simp⟩
  | append_singleton xs x ih =>
    intro hwhole horder
    have horder' : ∀ d, Run.callsOf (some d) xs <+: frags d := fun d => by
      have h := horder d
      rw [Run.callsOf_append] at h
      exact (List.prefix_append _ _).trans h
    obtain ⟨s, hrun, hprog, outs, hyield, hlen, hpos⟩ :=
      ih (fun b hb => hwhole b (List.mem_append_left _ hb)) horder'
    obtain ⟨cache', hrecv, hprog'⟩ :=
      receive_arrival hids hsplit hfirst (fun b hb => hwhole b (by simp [hb])) horder hprog
    refine ⟨⟨cache', s.yielded ++ [expected frags xs x]⟩, ?_, hprog', outs ++ [expected frags xs x], ?_, ?_, ?_⟩
    · rw [List.map_append, receiveAll_append, hrun]
      simp only [List.map_cons, List.map_nil, Res.andThen_ok, receiveAll, hrecv]
    · rw [hyield, List.append_assoc]
    · simp [hlen]
    · exact outputs_snoc x hlen hpos

/-- **Fragments in order are reassembled exactly, however datagrams interleave.**  Packets that are not fragments pass
through, the last fragment of a datagram hands on the datagram, its other fragments hand on nothing, and a complete
datagram leaves no entry. -/
theorem in_order_fragments_reassemble (frags : D → List (List Byte)) (ids : D → BitVec 16) (cache : FragmentCache)
    (xs : List (Option D × List Byte)) (hids : Function.Injective ids) (hsplit : ∀ d, Split (ids d) (frags d))
    (hihl : ∀ d, ∀ f ∈ frags d, Ipv4Header.ihlBytes f = 20) (hfirst : ∀ d, CarriesFirst (frags d))
    (hwhole : ∀ b, (none, b) ∈ xs → Whole b) (horder : ∀ d, Run.callsOf (some d) xs <+: frags d) :
    ∃ s, receiveAll ⟨cache, []⟩ (xs.map Prod.snd) = (.ok (), s) ∧ s.yielded.length = xs.length ∧
      (∀ pre b post, xs = pre ++ (none, b) :: post → s.yielded[pre.length]? = some (some (packetOf b))) ∧
      (∀ pre d b post, xs = pre ++ (some d, b) :: post →
        if Run.callsOf (some d) pre ++ [b] = frags d then
          ∃ q, s.yielded[pre.length]? = some (some q) ∧ Rebuilt (frags d) q
        else s.yielded[pre.length]? = some none) ∧
      ∀ d, Run.callsOf (some d) xs = frags d → s.cache.get (ids d) = none := by
  obtain ⟨s, hrun, hprog, outs, hyield, hlen, hpos⟩ := interleaved hids hsplit hfirst cache [] xs hwhole horder
  rw [List.nil_append] at hyield
  subst hyield
  refine ⟨s, hrun, hlen, ?_, ?_, fun d => (hprog d).done⟩
  · intro pre b post hxs
    exact hpos pre (none, b) post hxs
  · intro pre d b post hxs
    have hout := hpos pre (some d, b) post hxs
    simp only [expected] at hout
    split
    · rename_i hlast
      rw [if_pos hlast] at hout
      exact ⟨_, hout, rebuilt_finalized (hsplit d) fun f hf => hihl d f (List.mem_of_mem_head? hf)⟩
    · rename_i hlast
      rwa [if_neg hlast] at hout

end Interleaved

instance decidableContiguous : ∀ (offset : Nat) (fs : List (List Byte)), Decidable (Contiguous offset fs)
  | _, [] => inferInstanceAs (Decidable True)
  | offset, f :: rest =>
    have := decidableContiguous (offset + (body f).length) rest
    inferInstanceAs (Decidable (_ ∧ _ ∧ _))

/-- A fragment of a UDP datagram from 1.1.1.1 to 10.9.9.9, at offset `8 * units`. -/
def fragment (id : Byte) (more : Bool) (units : Byte) (payload : List Byte) : List Byte :=
  [0x45, 0, 0, BitVec.ofNat 8 (20 + payload.length), 0, id, if more then 0x20 else 0, units, 64, 17, 0, 0,
    1, 1, 1, 1, 10, 9, 9, 9] ++ payload

/-- Two datagrams in two fragments each. -/
def twoDatagrams : Bool → List (List Byte)
  | true => [fragment 7 true 0 [0, 53, 3, 232, 0, 10, 0, 0], fragment 7 false 1 [1, 2]]
  | false => [fragment 9 true 0 [0, 53, 3, 233, 0, 11, 0, 0], fragment 9 false 1 [3, 4, 5]]

theorem split_twoDatagrams (d : Bool) : Split (if d then 7 else 9) (twoDatagrams d) := by
  cases d <;> exact ⟨by decide, by decide, by decide, by decide, by decide, by decide⟩

/-- The second datagram arrives, and a whole packet with its identification, inside the first. -/
def mixedArrivals : List (Option Bool × List Byte) :=
  [(some true, fragment 7 true 0 [0, 53, 3, 232, 0, 10, 0, 0]),
    (some false, fragment 9 true 0 [0, 53, 3, 233, 0, 11, 0, 0]),
    (none, fragment 9 false 0 [8, 8]), (some false, fragment 9 false 1 [3, 4, 5]),
    (some true, fragment 7 false 1 [1, 2])]

theorem in_order_fragments_reassemble_of_two :
    ∃ s q₁ q₂, receiveAll ⟨Table.empty, []⟩ (mixedArrivals.map Prod.snd) = (.ok (), s) ∧
      s.yielded[0]? = some none ∧ s.yielded[1]? = some none ∧
      s.yielded[2]? = some (some (packetOf (fragment 9 false 0 [8, 8]))) ∧
      s.yielded[3]? = some (some q₁) ∧ Rebuilt (twoDatagrams false) q₁ ∧
      s.yielded[4]? = some (some q₂) ∧ Rebuilt (twoDatagrams true) q₂ ∧
      s.cache.get 7 = none ∧ s.cache.get 9 = none := by
  obtain ⟨s, hrun, -, hwhole, hfrag, hdone⟩ := in_order_fragments_reassemble twoDatagrams
    (fun d => if d then 7 else 9) Table.empty mixedArrivals (Bool.injective_iff.2 (by decide)) split_twoDatagrams
    (by decide) (by unfold CarriesFirst; decide)
    (by
      intro b hb
      simp only [mixedArrivals, List.mem_cons, Prod.mk.injEq, reduceCtorEq, false_and, true_and, List.not_mem_nil,
        or_false, false_or] at hb
      subst hb
      exact ⟨⟨by decide, by decide⟩, by decide, by decide⟩)
    (by decide)
  obtain ⟨q₁, h3, hq₁⟩ := hfrag (mixedArrivals.take 3) false _ _ rfl
  obtain ⟨q₂, h4, hq₂⟩ := hfrag (mixedArrivals.take 4) true _ _ rfl
  exact ⟨s, q₁, q₂, hrun, hfrag [] true _ _ rfl, hfrag (mixedArrivals.take 1) false _ _ rfl,
    hwhole (mixedArrivals.take 2) _ _ rfl, h3, hq₁, h4, hq₂, hdone true (by decide), hdone false (by decide)⟩

/-- **An empty first fragment is forgotten in the cache**: the last fragment then lies at offset zero and passes through
as a whole packet. -/
theorem empty_first_fragment_stays :
    Split 7 [fragment 7 true 0 [], fragment 7 false 0 [1, 2, 3, 4, 5, 6, 7, 8]] ∧
      ∃ s, receiveAll ⟨Table.empty, []⟩ [fragment 7 true 0 [], fragment 7 false 0 [1, 2, 3, 4, 5, 6, 7, 8]] =
          (.ok (), s) ∧ s.cache.get 7 ≠ none :=
  ⟨⟨by decide, by decide, by decide, by decide, by decide, by decide⟩, _, rfl, by decide⟩

end WgTunnel
end Oathgate
