import Mathlib.Data.List.Perm.Subperm
import Oathgate.WgReassembly
/-!
# WgFragmentOrder — fragments in any order, and datagrams under one identification

The receive branch drops what comes before the first fragment, hands on at the last fragment whatever is missing, and
after a gap counts offsets from the start of the buffer.  So it is safe on exactly two kinds of arrival order: every
fragment behind the data in front of it, and the last one before the first (`reassembly_safe_iff`).  Entries are kept by
identification only, so two datagrams that share one stay apart when one of them arrives uninterrupted
(`datagrams_stay_apart`).
-/
namespace Oathgate

open Lib

namespace WgTunnel

/-- **The bytes of `q` carry the payload and the total length of the datagram.** -/
def Carries (fs : List (List Byte)) (q : Ipv4Packet) : Prop :=
  ∃ p, Ipv4Packet.parse q.data = .ok p ∧ p.transport = bodies fs ∧
    ∀ f ∈ fs.head?, p.len.toNat = Ipv4Header.ihlBytes f + (bodies fs).length

/-- **A packet is handed on only once all fragments have arrived, and carries their datagram.** -/
def HandsOnWhole (fs arrivals : List (List Byte)) (yielded : List (Option Ipv4Packet)) : Prop :=
  ∀ i q, yielded[i]? = some (some q) → fs.Subperm (arrivals.take (i + 1)) ∧ Carries fs q

/-- The last fragment arrives before the first. -/
def LastBeforeFirst (fs arrivals : List (List Byte)) : Prop :=
  ∃ pre last post, arrivals = pre ++ last :: post ∧ fs.getLast? = some last ∧ ∀ f ∈ fs.head?, f ∉ pre

/-- **Each of the fragments `v`, which follow the first, arrives when all the data in front of it has arrived.** -/
def OnTime (first : List Byte) (v : List (List Byte)) : Prop :=
  ∀ a g b, v = a ++ g :: b → (packetOf g).fragmentOffset.toNat ≤ (bodies (first :: a)).length

/-- **The fragments build the datagram up**: the last one arrives last, and all that follow the first are on time.  What
comes before the first is dropped, and can only be fragments without data. -/
def BuildUp (fs arrivals : List (List Byte)) : Prop :=
  ∃ u first v last, arrivals = u ++ first :: (v ++ [last]) ∧ fs.head? = some first ∧ fs.getLast? = some last ∧
    OnTime first (v ++ [last])

/-! ## The loop -/

theorem receiveAll_yielded (bs : List (List Byte)) : ∀ (s : Reassembly),
    s.yielded <+: (receiveAll s bs).2.yielded := by
  induction bs with
  | nil => intro s; exact List.prefix_rfl
  | cons b bs ih =>
    intro s
    rw [receiveAll]
    cases receive s.cache b with
    | ok x =>
      obtain ⟨cache, out⟩ := x
      exact (List.prefix_append _ [out]).trans (ih ⟨cache, s.yielded ++ [out]⟩)
    | err e => exact List.prefix_rfl
    | panic p => exact List.prefix_rfl

/-- A packet fails with an error only when it cannot be parsed or is a last fragment without its first. -/
theorem receive_ne_err {cache : FragmentCache} {b : List Byte} (hb : Readable b)
    (h : (packetOf b).hasFragments = true ∨ cache.get (packetOf b).id ≠ none) (e : NetworkError) :
    receive cache b ≠ .err e := by
  unfold receive
  rw [Ipv4Header.extractFromSlice_eq b hb.2 hb.1, Ipv4Packet.parse_eq b hb.2 hb.1]
  simp only [Res.mapErr_ok, Res.bind_ok]
  change rebuild cache (packetOf b) ≠ .err e
  unfold rebuild
  cases hmore : (packetOf b).hasFragments <;> cases decide ((packetOf b).fragmentOffset = 0)
  · cases hget : cache.get (packetOf b).id with
    | none => simp [hmore, hget] at h
    | some f =>
      exact Res.bind_ne_err (slice_ne_err _ _ _) (fun _ => Res.bind_ne_err (Ipv4Packet.addFragmentData_ne_err _ _ _)
        fun _ => Res.bind_ne_err (Ipv4Packet.finalize_ne_err _) fun _ _ => by simp) e
  · simp
  · cases hget : cache.get (packetOf b).id with
    | none => simp
    | some f =>
      exact Res.bind_ne_err (slice_ne_err _ _ _) (fun _ => Res.bind_ne_err (Ipv4Packet.addFragmentData_ne_err _ _ _)
        fun _ _ => by simp) e
  · simp

theorem receive_stray {cache : FragmentCache} {b : List Byte} (hb : Readable b)
    (hmore : (packetOf b).hasFragments = false) (hoff : (packetOf b).fragmentOffset ≠ 0)
    (hget : cache.get (packetOf b).id = none) :
    receive cache b = .err (.generic "missing frag packet data") := by
  have hdec : decide ((packetOf b).fragmentOffset = 0) = false := decide_eq_false hoff
  unfold receive
  rw [Ipv4Header.extractFromSlice_eq b hb.2 hb.1, Ipv4Packet.parse_eq b hb.2 hb.1]
  simp only [Res.mapErr_ok, Res.bind_ok]
  change rebuild cache (packetOf b) = _
  unfold rebuild
  rw [hmore, hdec, hget]

/-- **Without its first fragment a datagram leaves no trace**: its other fragments are dropped, and the last one ends
the loop. -/
theorem receiveAll_absent {id : BitVec 16} : ∀ (bs : List (List Byte)) (s : Reassembly),
    s.cache.get id = none →
    (∀ b ∈ bs, Readable b ∧ (packetOf b).id = id ∧ (packetOf b).fragmentOffset ≠ 0) →
    ∃ n, (receiveAll s bs).1.Returns ∧ (receiveAll s bs).2 = ⟨s.cache, s.yielded ++ List.replicate n none⟩ ∧
      ((∀ b ∈ bs, (packetOf b).hasFragments = true) → (receiveAll s bs).1 = .ok () ∧ n = bs.length)
  | [], s, _, _ => ⟨0, by simp [receiveAll], by simp [receiveAll], by simp [receiveAll]⟩
  | b :: bs, s, hget, hbs => by
    obtain ⟨hread, hid, hoff⟩ := hbs b (by simp)
    have hdec : decide ((packetOf b).fragmentOffset = 0) = false := decide_eq_false hoff
    cases hmore : (packetOf b).hasFragments with
    | true =>
      have hrecv : receive s.cache b = .ok (s.cache, none) := by
        refine receive_eq_ok.2 ⟨hread, ?_, ?_⟩
        · unfold Placeable
          rw [hmore, hdec, hid, hget]
          simp
        · unfold cacheAfter handedOn
          rw [hmore, hdec, hid, hget]
      obtain ⟨n, hret, hstate, hok⟩ := receiveAll_absent bs ⟨s.cache, s.yielded ++ [none]⟩ hget
        (fun c hc => hbs c (List.mem_cons_of_mem _ hc))
      rw [receiveAll, hrecv]
      refine ⟨n + 1, hret, ?_, ?_⟩
      · rw [hstate, List.append_assoc, List.replicate_succ]
        rfl
      · intro hall
        obtain ⟨h₁, h₂⟩ := hok fun c hc => hall c (List.mem_cons_of_mem _ hc)
        exact ⟨h₁, by rw [h₂, List.length_cons]⟩
    | false =>
      rw [receiveAll, receive_stray hread hmore hoff (by rw [hid]; exact hget)]
      refine ⟨0, by simp, by simp, ?_⟩
      intro hall
      exact absurd (hall b (by simp)) (by simp [hmore])

/-! ## Where fragments lie -/

theorem Split.located {id : BitVec 16} {fs : List (List Byte)} (hs : Split id fs) {f : List Byte} (hf : f ∈ fs) :
    ∃ a b, fs = a ++ f :: b ∧ (packetOf f).fragmentOffset.toNat = (bodies a).length := by
  obtain ⟨a, b, hfs⟩ := List.append_of_mem hf
  exact ⟨a, b, hfs, hs.offset a f b hfs⟩

/-- **A fragment's payload is the datagram's at its offset.** -/
theorem Split.body_eq {id : BitVec 16} {fs : List (List Byte)} (hs : Split id fs) {f : List Byte} (hf : f ∈ fs) :
    body f = ((bodies fs).drop (packetOf f).fragmentOffset.toNat).take (body f).length := by
  obtain ⟨a, b, hfs, hoff⟩ := hs.located hf
  rw [hoff, hfs, bodies_append, List.drop_left, bodies_cons, List.take_left]

/-- **Fragments do not overlap.** -/
theorem Split.eq_of_overlap {id : BitVec 16} {fs : List (List Byte)} (hs : Split id fs) {f g : List Byte} (hf : f ∈ fs)
    (hg : g ∈ fs) (hdata : body g ≠ []) (hle : (packetOf f).fragmentOffset.toNat ≤ (packetOf g).fragmentOffset.toNat)
    (hlt : (packetOf g).fragmentOffset.toNat < (packetOf f).fragmentOffset.toNat + (body f).length) : g = f := by
  have hpos := List.length_pos_iff.2 hdata
  obtain ⟨a, b, hfs, hoff⟩ := hs.located hf
  rw [hfs, List.mem_append, List.mem_cons] at hg
  rcases hg with hg | hg | hg
  · obtain ⟨a₁, a₂, rfl⟩ := List.append_of_mem hg
    have hoff' := hs.offset a₁ g (a₂ ++ f :: b) (by rw [hfs, List.append_assoc]; rfl)
    rw [bodies_append, bodies_cons, List.length_append, List.length_append] at hoff
    omega
  · exact hg
  · obtain ⟨b₁, b₂, rfl⟩ := List.append_of_mem hg
    have hoff' := hs.offset (a ++ f :: b₁) g b₂ (by rw [hfs, List.append_assoc]; rfl)
    rw [bodies_append, bodies_cons, List.length_append, List.length_append, ← hoff] at hoff'
    omega

/-- The fragments that carry data. -/
def carrying (fs : List (List Byte)) : List (List Byte) := fs.filter fun f => !(body f).isEmpty

theorem mem_carrying {fs : List (List Byte)} {f : List Byte} : f ∈ carrying fs ↔ f ∈ fs ∧ body f ≠ [] := by
  simp [carrying]

theorem carrying_append (as bs : List (List Byte)) : carrying (as ++ bs) = carrying as ++ carrying bs :=
  List.filter_append _ _

theorem contiguous_le : ∀ {fs : List (List Byte)} {offset : Nat}, Contiguous offset fs →
    ∀ f ∈ fs, offset ≤ (packetOf f).fragmentOffset.toNat
  | [], _, _, f, hf => by simp at hf
  | a :: rest, offset, h, f, hf => by
    rcases List.mem_cons.1 hf with rfl | hf
    · exact h.2.1.ge
    · exact (Nat.le_add_right _ _).trans (contiguous_le h.2.2 f hf)

/-- **A fragment that carries data occurs once.** -/
theorem nodup_carrying : ∀ {fs : List (List Byte)} {offset : Nat}, Contiguous offset fs → (carrying fs).Nodup
  | [], _, _ => List.nodup_nil
  | a :: rest, offset, h => by
    have hrest := nodup_carrying h.2.2
    unfold carrying at hrest ⊢
    by_cases hdata : body a = []
    · rwa [List.filter_cons_of_neg (by simp [hdata])]
    · rw [List.filter_cons_of_pos (by simp [hdata]), List.nodup_cons]
      refine ⟨?_, hrest⟩
      intro hmem
      have hle := contiguous_le h.2.2 a (List.mem_filter.1 hmem).1
      have hpos := List.length_pos_iff.2 hdata
      have hoff := h.2.1
      omega

theorem nodup_carrying_left {as bs : List (List Byte)} (h : (carrying (as ++ bs)).Nodup) : (carrying as).Nodup := by
  rw [carrying_append] at h
  exact (List.nodup_append.1 h).1

theorem fresh_of_nodup {as bs : List (List Byte)} {f : List Byte} (h : (carrying (as ++ f :: bs)).Nodup)
    (hdata : body f ≠ []) : f ∉ as := by
  intro hmem
  rw [carrying_append] at h
  exact (List.nodup_append.1 h).2.2 f (mem_carrying.2 ⟨hmem, hdata⟩) f (mem_carrying.2 ⟨by simp, hdata⟩) rfl

theorem fragmentOffset_mod_eight (f : List Byte) : (packetOf f).fragmentOffset.toNat % 8 = 0 := by
  have hmask : (be16At f 6 &&& 0x1FFF).toNat = (be16At f 6).toNat % 2 ^ 13 := by
    rw [BitVec.toNat_and]
    exact Nat.and_two_pow_sub_one_eq_mod _ 13
  have h8 : (8 : BitVec 16).toNat = 8 := rfl
  show ((be16At f 6 &&& 0x1FFF) * 8).toNat % 8 = 0
  rw [BitVec.toNat_mul, hmask, h8]
  omega

/-! ## Fragments on time -/

theorem OnTime.left {first : List Byte} {v w : List (List Byte)} (h : OnTime first (v ++ w)) : OnTime first v := by
  intro a g b hv
  exact h a g (b ++ w) (by rw [hv, List.append_assoc]; rfl)

theorem onTime_snoc {first f : List Byte} {v : List (List Byte)} : OnTime first (v ++ [f]) ↔
    OnTime first v ∧ (packetOf f).fragmentOffset.toNat ≤ (bodies (first :: v)).length := by
  constructor
  · intro h
    exact ⟨h.left, h v f [] rfl⟩
  · rintro ⟨hv, hf⟩ a g b h
    rcases List.eq_nil_or_concat b with rfl | ⟨b', x, rfl⟩
    · obtain ⟨rfl, hx⟩ := List.append_inj' h rfl
      cases hx
      exact hf
    · rw [List.concat_eq_append, ← List.cons_append, ← List.append_assoc] at h
      exact hv a g b' (List.append_inj' h rfl).1

/-- **What fragments on time hold**: the datagram up to where they reach, and every fragment with data that lies in
front of there. -/
theorem OnTime.reach {id : BitVec 16} {fs rest : List (List Byte)} {first : List Byte} (hs : Split id fs)
    (hfs : fs = first :: rest) (v : List (List Byte)) : (∀ f ∈ v, f ∈ fs) → (carrying (first :: v)).Nodup →
    OnTime first v →
    (∀ g ∈ fs, body g ≠ [] → (packetOf g).fragmentOffset.toNat < (bodies (first :: v)).length → g ∈ first :: v) ∧
      bodies (first :: v) = (bodies fs).take (bodies (first :: v)).length := by
  have hmem : first ∈ fs := by rw [hfs]; simp
  have hzero : (packetOf first).fragmentOffset.toNat = 0 := hs.offset [] first rest hfs
  induction v using List.reverseRecOn with
  | nil =>
    intro _ _ _
    rw [bodies_singleton]
    refine ⟨?_, ?_⟩
    · intro g hg hdata hlt
      rw [hs.eq_of_overlap hmem hg hdata (by omega) (by omega)]
      exact List.mem_singleton_self first
    · rw [hfs, bodies_cons, List.take_left]
  | append_singleton v f ih =>
    intro hin hnodup hon
    obtain ⟨hv, hle⟩ := onTime_snoc.1 hon
    have hf : f ∈ fs := hin f (by simp)
    rw [← List.cons_append] at hnodup ⊢
    obtain ⟨hcover, htake⟩ := ih (fun g hg => hin g (List.mem_append_left _ hg))
      (nodup_carrying_left hnodup) hv
    rw [bodies_append, bodies_singleton]
    by_cases hdata : body f = []
    · rw [hdata, List.append_nil]
      exact ⟨fun g hg hdata' hlt => List.mem_append_left _ (hcover g hg hdata' hlt), htake⟩
    · -- what lies in front has arrived, so that a fragment with data is right behind it
      have heq : (packetOf f).fragmentOffset.toNat = (bodies (first :: v)).length := by
        refine Nat.le_antisymm hle (Nat.le_of_not_lt fun hlt => ?_)
        exact fresh_of_nodup hnodup hdata (hcover f hf hdata hlt)
      rw [List.length_append]
      refine ⟨?_, ?_⟩
      · intro g hg hdata' hlt
        by_cases hfront : (packetOf g).fragmentOffset.toNat < (bodies (first :: v)).length
        · exact List.mem_append_left _ (hcover g hg hdata' hfront)
        · rw [hs.eq_of_overlap hf hg hdata' (by omega) (by omega)]
          simp
      · have hbody := hs.body_eq hf
        rw [heq] at hbody
        rw [List.take_add, ← htake, ← hbody]

theorem held_congr {first : List Byte} {v w : List (List Byte)} (h : bodies (first :: v) = bodies (first :: w)) :
    held (first :: v) = held (first :: w) := by
  unfold held
  rw [h]
  rfl

/-- **A fragment on time goes where it belongs.** -/
theorem OnTime.place {id : BitVec 16} {fs rest v : List (List Byte)} {first f : List Byte} (hs : Split id fs)
    (hfs : fs = first :: rest) (hin : ∀ g ∈ v, g ∈ fs) (hf : f ∈ fs) (hnodup : (carrying (first :: v ++ [f])).Nodup)
    (hon : OnTime first (v ++ [f])) :
    (held (first :: v)).Fits (packetOf f).fragmentOffset (body f) ∧
      (held (first :: v)).place (packetOf f).fragmentOffset (body f) = held (first :: (v ++ [f])) := by
  have hheader := (hs.header first (by rw [hfs]; simp)).2
  have htotal := hs.total first (by rw [hfs]; rfl)
  obtain ⟨hv, hle⟩ := onTime_snoc.1 hon
  have hin' : ∀ g ∈ v ++ [f], g ∈ fs := by
    intro g hg
    rcases List.mem_append.1 hg with hg | hg
    · exact hin g hg
    · rwa [List.mem_singleton.1 hg]
  have htake := (OnTime.reach hs hfs (v ++ [f]) hin' hnodup hon).2
  have hlen : (bodies (first :: (v ++ [f]))).length ≤ (bodies fs).length := by
    rw [htake]
    exact List.length_take_le' _ _
  by_cases heq : (packetOf f).fragmentOffset.toNat = (bodies (first :: v)).length
  · exact place_held (first :: v) (by simp) hheader heq (by
      simp only [List.headD_cons, List.cons_append]
      omega)
  · -- in front of the end of what is held: a fragment without data
    have hempty : body f = [] := by
      by_contra hdata
      have hcover := (OnTime.reach hs hfs v hin
        (nodup_carrying_left hnodup) hv).1
      exact fresh_of_nodup hnodup hdata (hcover f hf hdata (by omega))
    have hsize := length_data_held (first :: v) hheader
    have htrans := congrArg List.length (transport_held (first :: v) hheader)
    have hsame : held (first :: (v ++ [f])) = held (first :: v) := by
      apply held_congr
      rw [← List.cons_append, bodies_append, bodies_singleton, hempty, List.append_nil]
    simp only [List.headD_cons] at hsize
    refine ⟨⟨?_, ?_⟩, ?_⟩
    · show Ipv4Header.ihlBytes first ≤ _
      omega
    · rw [if_neg (by omega), if_neg (by omega), hempty, List.length_nil]
      omega
    · unfold Ipv4Packet.place
      rw [if_neg (by omega), if_neg (by omega), hsame, hempty, List.length_nil, List.append_nil, Nat.add_zero,
        List.take_append_drop]

/-! ## Filling the entry -/

/-- A fragment that is neither the first nor the last. -/
def Middle (fs : List (List Byte)) (f : List Byte) : Prop := ∃ a b, fs = a ++ f :: b ∧ a ≠ [] ∧ b ≠ []

theorem Middle.mem {fs : List (List Byte)} {f : List Byte} (h : Middle fs f) : f ∈ fs := by
  obtain ⟨a, b, rfl, -⟩ := h
  simp

theorem Split.middle {id : BitVec 16} {fs : List (List Byte)} (hs : Split id fs) (hfirst : CarriesFirst fs)
    {f : List Byte} (hf : Middle fs f) :
    Readable f ∧ (packetOf f).id = id ∧ (packetOf f).hasFragments = true ∧ (packetOf f).fragmentOffset ≠ 0 := by
  refine ⟨hs.readable hf.mem, hs.id f hf.mem, ?_⟩
  obtain ⟨a, b, hfs, ha, hb⟩ := hf
  refine ⟨?_, hs.offset_ne_zero hfirst ha hfs⟩
  rw [hs.more a f b hfs]
  simpa using hb

/-- **The entry after the first fragment and the middle ones `v`**: they were on time and it holds their data, or its
length is a multiple of eight; and it never reaches past the offset of the last fragment. -/
structure Filling (fs : List (List Byte)) (first : List Byte) (v : List (List Byte)) (p : Ipv4Packet) : Prop where
  header : p.headerLength = Ipv4Header.ihlBytes first
  bound : p.data.length ≤ Ipv4Header.ihlBytes first + (bodies fs.dropLast).length
  shape : (OnTime first v ∧ p = held (first :: v)) ∨ p.data.length % 8 = 0

theorem bodies_dropLast_ge {fs a b : List (List Byte)} {f : List Byte} (hfs : fs = a ++ f :: b) (hb : b ≠ []) :
    (bodies (a ++ [f])).length ≤ (bodies fs.dropLast).length := by
  have hdrop : fs.dropLast = (a ++ [f]) ++ b.dropLast := by
    rw [hfs, List.append_cons, List.dropLast_append_of_ne_nil hb]
  rw [hdrop, bodies_append (a ++ [f]), List.length_append]
  exact Nat.le_add_right _ _

/-- **Where a middle fragment ends**: at a multiple of eight, and not behind the offset of the last. -/
theorem Split.middle_end {id : BitVec 16} {fs : List (List Byte)} (hs : Split id fs) {f : List Byte}
    (hf : Middle fs f) : ((packetOf f).fragmentOffset.toNat + (body f).length) % 8 = 0 ∧
      (packetOf f).fragmentOffset.toNat + (body f).length ≤ (bodies fs.dropLast).length := by
  obtain ⟨a, b, hfs, -, hb⟩ := hf
  have hbound := bodies_dropLast_ge hfs hb
  have hend : (bodies (a ++ [f])).length = (packetOf f).fragmentOffset.toNat + (body f).length := by
    rw [bodies_append, bodies_singleton, List.length_append, hs.offset a f b hfs]
  rw [← hend]
  refine ⟨?_, hbound⟩
  cases b with
  | nil => exact absurd rfl hb
  | cons g b =>
    rw [← hs.offset (a ++ [f]) g b (by rw [hfs, List.append_assoc]; rfl)]
    exact fragmentOffset_mod_eight g

/-- **A middle fragment keeps the shape of the entry.** -/
theorem filling_place {id : BitVec 16} {fs rest v : List (List Byte)} {first f : List Byte} {p : Ipv4Packet}
    (hs : Split id fs) (hfs : fs = first :: rest) (hin : ∀ g ∈ v, g ∈ fs) (hf : Middle fs f)
    (hnodup : (carrying (first :: v ++ [f])).Nodup) (hp : Filling fs first v p)
    (hfits : p.Fits (packetOf f).fragmentOffset (body f)) :
    Filling fs first (v ++ [f]) (p.place (packetOf f).fragmentOffset (body f)) := by
  obtain ⟨hnext, hbound⟩ := hs.middle_end hf
  have hmod := fragmentOffset_mod_eight f
  have hlen := p.length_transport
  have hheader := hp.header
  have hpbound := hp.bound
  have hle := hfits.1
  have hsize := Ipv4Packet.length_place hfits
  refine ⟨(p.headerLength_place _ _).trans hheader, by rw [hsize]; split <;> [omega; split <;> omega], ?_⟩
  by_cases hgt : p.transport.length < (packetOf f).fragmentOffset.toNat
  · -- behind a gap: the buffer is cut or filled to the offset, without the header
    rw [if_neg (by omega), if_pos hgt] at hsize
    exact Or.inr (by rw [hsize]; exact hnext)
  rw [if_neg hgt] at hsize
  rcases hp.shape with ⟨hon, rfl⟩ | hgap
  · have htrans := congrArg List.length (transport_held (first :: v) (hs.header first (by rw [hfs]; simp)).2)
    have hon' : OnTime first (v ++ [f]) := onTime_snoc.2 ⟨hon, by omega⟩
    exact Or.inl ⟨hon', (OnTime.place hs hfs hin hf.mem hnodup hon').2⟩
  · right
    rw [hsize]
    split <;> omega

/-- **Middle fragments behind the first**, when none of them panics: they hand on nothing, and the entry keeps its
shape. -/
theorem receiveAll_middles {id : BitVec 16} {fs rest : List (List Byte)} {first : List Byte} (hs : Split id fs)
    (hfirst : CarriesFirst fs) (hfs : fs = first :: rest) :
    ∀ (ms v : List (List Byte)) (s : Reassembly) (p : Ipv4Packet), (∀ f ∈ v, f ∈ fs) → (∀ f ∈ ms, Middle fs f) →
    (carrying (first :: v ++ ms)).Nodup → s.cache.get id = some p → Filling fs first v p →
    (receiveAll s ms).1.Returns →
    ∃ s' p', receiveAll s ms = (.ok (), s') ∧ s'.yielded = s.yielded ++ List.replicate ms.length none ∧
      s'.cache.get id = some p' ∧ Filling fs first (v ++ ms) p'
  | [], v, s, p, _, _, _, hget, hfill, _ => ⟨s, p, rfl, by simp, hget, by rwa [List.append_nil]⟩
  | f :: ms, v, s, p, hin, hmid, hnodup, hget, hfill, hret => by
    have hf := hmid f (by simp)
    obtain ⟨hread, hid, hmore, hoff⟩ := hs.middle hfirst hf
    have hget' : s.cache.get (packetOf f).id = some p := by rw [hid, hget]
    rw [receiveAll] at hret ⊢
    cases hrecv : receive s.cache f with
    | err e => exact absurd hrecv (receive_ne_err hread (Or.inl hmore) e)
    | panic q =>
      rw [hrecv] at hret
      exact absurd hret (Res.not_returns_panic q)
    | ok x =>
      rw [hrecv] at hret
      obtain ⟨hfits, rfl⟩ := (receive_middle hread hmore hoff hget').1 hrecv
      have hnodup' : (carrying (first :: (v ++ [f]) ++ ms)).Nodup := by simpa using hnodup
      have hfill' := filling_place hs hfs hin hf
        (nodup_carrying_left hnodup') hfill hfits
      obtain ⟨s', p', hrun, hyield, hget'', hfill''⟩ := receiveAll_middles hs hfirst hfs ms (v ++ [f]) _ _
        (by simpa [or_imp, forall_and] using ⟨hin, hf.mem⟩) (fun g hg => hmid g (List.mem_cons_of_mem _ hg)) hnodup'
        (by rw [hid]; exact Table.get_insert_self _ _ _) hfill' hret
      refine ⟨s', p', hrun, ?_, hget'', by rwa [List.append_assoc] at hfill''⟩
      rw [hyield, List.append_assoc, List.length_cons, List.replicate_succ]
      rfl

/-- **Fragments on time** do not panic, and the entry holds their data. -/
theorem receiveAll_onTime {id : BitVec 16} {fs rest : List (List Byte)} {first : List Byte} (hs : Split id fs)
    (hfirst : CarriesFirst fs) (hfs : fs = first :: rest) :
    ∀ (ms v : List (List Byte)) (s : Reassembly), (∀ f ∈ v, f ∈ fs) → (∀ f ∈ ms, Middle fs f) →
    (carrying (first :: v ++ ms)).Nodup → OnTime first (v ++ ms) → s.cache.get id = some (held (first :: v)) →
    ∃ s', receiveAll s ms = (.ok (), s') ∧ s'.yielded = s.yielded ++ List.replicate ms.length none ∧
      s'.cache.get id = some (held (first :: (v ++ ms)))
  | [], v, s, _, _, _, _, hget => ⟨s, rfl, by simp, by rwa [List.append_nil]⟩
  | f :: ms, v, s, hin, hmid, hnodup, hon, hget => by
    have hf := hmid f (by simp)
    obtain ⟨hread, hid, hmore, hoff⟩ := hs.middle hfirst hf
    have hnodup' : (carrying (first :: (v ++ [f]) ++ ms)).Nodup := by simpa using hnodup
    have hon' : OnTime first (v ++ [f] ++ ms) := by rwa [List.append_assoc]
    obtain ⟨hfits, hplace⟩ := OnTime.place hs hfs hin hf.mem
      (nodup_carrying_left hnodup') hon'.left
    have hrecv := (receive_middle hread hmore hoff (by rw [hid]; exact hget)).2 ⟨hfits, rfl⟩
    rw [hplace, hid] at hrecv
    obtain ⟨s', hrun, hyield, hget'⟩ := receiveAll_onTime hs hfirst hfs ms (v ++ [f])
      ⟨s.cache.insert id (held (first :: (v ++ [f]))), s.yielded ++ [none]⟩
      (by simpa [or_imp, forall_and] using ⟨hin, hf.mem⟩) (fun g hg => hmid g (List.mem_cons_of_mem _ hg)) hnodup' hon'
      (Table.get_insert_self _ _ _)
    rw [receiveAll, hrecv]
    refine ⟨s', hrun, ?_, by rwa [List.append_assoc] at hget'⟩
    rw [hyield, List.append_assoc, List.length_cons, List.replicate_succ]
    rfl

/-- **The bytes handed on have a header of twenty bytes**, so the buffer is twenty bytes longer than the payload. -/
theorem length_place_of_carries {fs : List (List Byte)} {last : List Byte} {p : Ipv4Packet}
    (h20 : 20 ≤ (p.place (packetOf last).fragmentOffset (body last)).data.length)
    (hcarries : Carries fs (completed p (packetOf last))) :
    (p.place (packetOf last).fragmentOffset (body last)).data.length = 20 + (bodies fs).length := by
  obtain ⟨q, hq, htrans, -⟩ := hcarries
  have hq' := (Ipv4Packet.parse_eq_ok hq).2.2
  have hfive := Ipv4Header.low_nibble_five (p.place (packetOf last).fragmentOffset (body last)).header.version
  have hhl : Ipv4Packet.headerLength ⟨Ipv4Header.headerOf (completed p (packetOf last)).data,
      (completed p (packetOf last)).data⟩ = 20 := by
    have hb0 : byteAt (completed p (packetOf last)).data 0 =
        ((p.place (packetOf last).fragmentOffset (body last)).header.version <<< 4) ||| 5 := rfl
    show (byteAt (completed p (packetOf last)).data 0 &&& 0x0F).toNat * 4 = 20
    rw [hb0, hfive]
    rfl
  have hdatalen : (completed p (packetOf last)).data.length =
      (p.place (packetOf last).fragmentOffset (body last)).data.length := Ipv4Header.length_onto _ _ h20
  have hlen := congrArg List.length htrans
  rw [hq', Ipv4Packet.length_transport, hhl] at hlen
  simp only [hdatalen] at hlen
  omega

/-- **When the last fragment makes the datagram complete**: its first fragment had no options, and the fragments behind
the first were on time, the last one too. -/
theorem carries_completed {id : BitVec 16} {fs v : List (List Byte)} {first last : List Byte} {p : Ipv4Packet}
    (hs : Split id fs) (hfs : fs = fs.dropLast ++ [last]) (hfill : Filling fs first v p)
    (hheld : Ipv4Header.ihlBytes first ≤ first.length) (hfits : p.Fits (packetOf last).fragmentOffset (body last))
    (h20 : 20 ≤ (p.place (packetOf last).fragmentOffset (body last)).data.length)
    (hcarries : Carries fs (completed p (packetOf last))) :
    Ipv4Header.ihlBytes first = 20 ∧ OnTime first (v ++ [last]) := by
  have hoff := hs.offset fs.dropLast last [] hfs
  have hmod := fragmentOffset_mod_eight last
  have htotal : (bodies fs).length = (bodies fs.dropLast).length + (body last).length := by
    conv_lhs => rw [hfs]
    rw [bodies_append, bodies_singleton, List.length_append]
  have hsize := length_place_of_carries h20 hcarries
  have hlen := p.length_transport
  have hheader := hfill.header
  have hbound := hfill.bound
  have hle := hfits.1
  rw [Ipv4Packet.length_place hfits] at hsize
  -- it goes right behind what is held: after a gap the buffer is too short
  have heq : (packetOf last).fragmentOffset.toNat = p.transport.length := by
    by_contra hne
    rw [if_neg hne] at hsize
    split at hsize <;> omega
  rw [if_pos heq] at hsize
  refine ⟨by omega, ?_⟩
  rcases hfill.shape with ⟨hon, rfl⟩ | hgap
  · refine onTime_snoc.2 ⟨hon, ?_⟩
    rw [heq, transport_held (first :: v) hheld]
  · omega

/-! ## Every arrival order -/

/-- **A run of fragments in order** hands on the datagram at its last fragment and nothing before. -/
theorem receiveAll_prefix {id : BitVec 16} {fs : List (List Byte)} (hs : Split id fs) (hfirst : CarriesFirst fs)
    (cache : FragmentCache) (ys : List (Option Ipv4Packet)) (pre : List (List Byte)) : pre <+: fs →
    ∃ s outs, receiveAll ⟨cache, ys⟩ pre = (.ok (), s) ∧ Progress id fs pre s.cache ∧ s.yielded = ys ++ outs ∧
      outs.length = pre.length ∧ ∀ i q, outs[i]? = some (some q) → i + 1 = fs.length ∧ q = (held fs).finalized := by
  induction pre using List.reverseRecOn with
  | nil =>
    intro _
    exact ⟨⟨cache, ys⟩, [], rfl, hs.progress_nil cache, (List.append_nil ys).symm, rfl, by simp⟩
  | append_singleton pre f ih =>
    rintro ⟨rest, hfs⟩
    have hfs' : fs = pre ++ f :: rest := by rw [← hfs, List.append_assoc]; rfl
    obtain ⟨s, outs, hrun, hprog, hyield, hlen, hout⟩ := ih ⟨f :: rest, hfs'.symm⟩
    obtain ⟨cache', hrecv, hprog', -⟩ := receive_next hs hfirst hfs' hprog
    refine ⟨⟨cache', s.yielded ++ [if rest = [] then some (held fs).finalized else none]⟩,
      outs ++ [if rest = [] then some (held fs).finalized else none], ?_, hprog', ?_, by simp [hlen], ?_⟩
    · rw [receiveAll_append, hrun]
      simp only [Res.andThen_ok, receiveAll, hrecv]
    · rw [hyield, List.append_assoc]
    · intro i q hq
      rw [List.getElem?_append] at hq
      split at hq
      · exact hout i q hq
      · rw [List.getElem?_singleton] at hq
        split at hq
        · rw [Option.some.injEq] at hq
          split at hq
          · rename_i hi hrest
            rw [Option.some.injEq] at hq
            subst hrest
            have hsize := congrArg List.length hfs'
            rw [List.length_append, List.length_singleton] at hsize
            exact ⟨by omega, hq.symm⟩
          · cases hq
        · cases hq

theorem carries_of_rebuilt {fs : List (List Byte)} {q : Ipv4Packet} (h : Rebuilt fs q) (hlen : 20 ≤ q.data.length)
    (hihl : q.header.ihl = 5) (hfirst : ∀ f ∈ fs.head?, Ipv4Header.ihlBytes f = 20) : Carries fs q := by
  have hheader : (Ipv4Header.headerOf q.data).ihl = 5 := by
    rw [h.wire]
    exact hihl
  have h20 : Ipv4Header.ihlBytes q.data = 20 := by
    show (Ipv4Header.headerOf q.data).ihl.toNat * 4 = 20
    rw [hheader]
    rfl
  refine ⟨_, Ipv4Packet.parse_eq q.data (by omega) hlen, ?_, ?_⟩
  · show q.data.drop (Ipv4Header.ihlBytes q.data) = _
    rw [h20, h.payload]
  · intro f hf
    show (Ipv4Header.headerOf q.data).length.toNat = _
    rw [h.wire, hfirst f hf]
    exact h.len

theorem carries_finalized {id : BitVec 16} {fs : List (List Byte)} (hs : Split id fs)
    (hihl : ∀ f ∈ fs.head?, Ipv4Header.ihlBytes f = 20) : Carries fs (held fs).finalized := by
  refine carries_of_rebuilt (rebuilt_finalized hs hihl) ?_ ?_ hihl
  · show 20 ≤ (Ipv4Header.onto _ (held fs).data).length
    rw [Ipv4Header.length_onto _ _ hs.twenty_le_held]
    exact hs.twenty_le_held
  · cases fs with
    | nil => exact absurd hs.two (by simp)
    | cons first rest => exact Ipv4Header.nibble_of_ihlBytes (hihl first rfl)

/-- The first fragment, those in the middle and the last. -/
theorem Split.ends {id : BitVec 16} {fs : List (List Byte)} (hs : Split id fs) :
    ∃ first mid last, fs = first :: (mid ++ [last]) := by
  have htwo := hs.two
  cases fs with
  | nil => simp at htwo
  | cons first rest =>
    rcases List.eq_nil_or_concat rest with rfl | ⟨mid, last, rfl⟩
    · simp at htwo
    · exact ⟨first, mid, last, by rw [List.concat_eq_append]⟩

theorem middle_of_mem {fs mid : List (List Byte)} {first last f : List Byte} (hfs : fs = first :: (mid ++ [last]))
    (hf : f ∈ mid) : Middle fs f := by
  obtain ⟨a, b, rfl⟩ := List.append_of_mem hf
  exact ⟨first :: a, b ++ [last], by rw [hfs]; simp, by simp, by simp⟩

/-- What arrives besides the first and the last fragment are those in the middle. -/
theorem perm_mid {u v post mid : List (List Byte)} {first last : List Byte}
    (h : (u ++ first :: (v ++ last :: post)).Perm (first :: (mid ++ [last]))) : (u ++ (v ++ post)).Perm mid := by
  have harr : (u ++ first :: (v ++ last :: post)).Perm (first :: last :: (u ++ (v ++ post))) := by
    refine List.perm_middle.trans (List.Perm.cons first ?_)
    rw [← List.append_assoc, ← List.append_assoc]
    exact List.perm_middle
  have hfs : (first :: (mid ++ [last])).Perm (first :: last :: mid) :=
    List.Perm.cons first (List.perm_append_singleton last mid)
  exact ((harr.symm.trans (h.trans hfs)).cons_inv).cons_inv

theorem nodup_of_perm {id : BitVec 16} {fs arrivals : List (List Byte)} (hs : Split id fs) (hperm : arrivals.Perm fs) :
    (carrying arrivals).Nodup :=
  (hperm.filter _).nodup_iff.2 (nodup_carrying hs.contiguous)

/-- **Fragments on time up to the last one hold the datagram.** -/
theorem OnTime.whole {id : BitVec 16} {fs mid v : List (List Byte)} {first last : List Byte} (hs : Split id fs)
    (hfs : fs = first :: (mid ++ [last])) (hin : ∀ f ∈ v ++ [last], f ∈ fs)
    (hnodup : (carrying (first :: (v ++ [last]))).Nodup) (hon : OnTime first (v ++ [last])) :
    held (first :: (v ++ [last])) = held fs := by
  have htake := (OnTime.reach hs hfs (v ++ [last]) hin hnodup hon).2
  have hoff := hs.offset (first :: mid) last [] hfs
  have hle := (onTime_snoc.1 hon).2
  have htotal : (bodies fs).length ≤ (bodies (first :: (v ++ [last]))).length := by
    rw [hfs, ← List.cons_append, ← List.cons_append, bodies_append, bodies_append, List.length_append,
      List.length_append]
    omega
  rw [List.take_of_length_le htotal, hfs] at htake
  rw [hfs]
  exact held_congr htake

/-- The packet handed on after a number of fragments that hand on nothing. -/
theorem yielded_last {n i : Nat} {p q : Ipv4Packet}
    (h : (List.replicate n (none : Option Ipv4Packet) ++ [some p])[i]? = some (some q)) : i = n ∧ q = p := by
  rw [List.getElem?_append] at h
  split at h
  · rw [List.getElem?_replicate] at h
    split at h <;> cases h
  · rw [List.getElem?_singleton, List.length_replicate] at h
    rename_i hle
    rw [List.length_replicate] at hle
    split at h
    · cases h
      exact ⟨by omega, rfl⟩
    · cases h

/-- **Reassembly is safe**: no fragment panics, and a packet is handed on only when it is the whole datagram. -/
def Safe (fs : List (List Byte)) (cache : FragmentCache) (arrivals : List (List Byte)) : Prop :=
  (receiveAll ⟨cache, []⟩ arrivals).1.Returns ∧
    HandsOnWhole fs arrivals (receiveAll ⟨cache, []⟩ arrivals).2.yielded

/-- **What comes before the first fragment is dropped.** -/
theorem receiveAll_early {id : BitVec 16} {fs u : List (List Byte)} {cache : FragmentCache} (hs : Split id fs)
    (hfirst : CarriesFirst fs) (hcache : cache.get id = none) (hu : ∀ f ∈ u, Middle fs f) :
    receiveAll ⟨cache, []⟩ u = (.ok (), ⟨cache, List.replicate u.length none⟩) := by
  obtain ⟨n, -, hstate, hok⟩ := receiveAll_absent u ⟨cache, []⟩ hcache fun b hb =>
    ⟨(hs.middle hfirst (hu b hb)).1, (hs.middle hfirst (hu b hb)).2.1, (hs.middle hfirst (hu b hb)).2.2.2⟩
  obtain ⟨hres, rfl⟩ := hok fun b hb => (hs.middle hfirst (hu b hb)).2.2.1
  exact Prod.ext hres hstate

/-- **The first fragment starts the entry.** -/
theorem receiveAll_start {id : BitVec 16} {fs rest u : List (List Byte)} {first : List Byte} {cache : FragmentCache}
    (hs : Split id fs) (hfirst : CarriesFirst fs) (hfs : fs = first :: rest) (hcache : cache.get id = none)
    (hu : ∀ f ∈ u, Middle fs f) (bs : List (List Byte)) : receiveAll ⟨cache, []⟩ (u ++ first :: bs) =
      receiveAll ⟨cache.insert id (held [first]), List.replicate (u.length + 1) none⟩ bs := by
  rw [receiveAll_append, receiveAll_early hs hfirst hcache hu, Res.andThen_ok, receiveAll,
    (receive_next_first hs hfs cache).2, List.replicate_succ']

theorem safe_of_lastBeforeFirst {id : BitVec 16} {fs arrivals : List (List Byte)} {cache : FragmentCache}
    (hs : Split id fs) (hfirst : CarriesFirst fs) (hcache : cache.get id = none) (hperm : arrivals.Perm fs)
    (h : LastBeforeFirst fs arrivals) : Safe fs cache arrivals := by
  obtain ⟨first, mid, last, hfs⟩ := hs.ends
  obtain ⟨pre, last', post, rfl, hlast', hlate⟩ := h
  have hlast : last' = last := by
    rw [hfs, ← List.cons_append, List.getLast?_concat, Option.some.injEq] at hlast'
    exact hlast'.symm
  subst hlast
  have hmiddle : ∀ f ∈ pre, Middle fs f := by
    intro f hf
    have hrest : (pre ++ post).Perm (first :: mid) := by
      have hfs' : fs.Perm (last' :: first :: mid) := by
        rw [hfs, ← List.cons_append]
        exact List.perm_append_singleton last' _
      exact (List.perm_middle.symm.trans (hperm.trans hfs')).cons_inv
    rcases List.mem_cons.1 (hrest.subset (List.mem_append_left _ hf)) with rfl | hf'
    · exact absurd hf (hlate f (by rw [hfs]; rfl))
    · exact middle_of_mem hfs hf'
  -- the last fragment finds no entry and ends the loop
  have hmem : last' ∈ fs := by rw [hfs]; simp
  have hsplit : fs = (first :: mid) ++ last' :: [] := hfs
  have hstray := receive_stray (hs.readable hmem) (hs.more _ _ _ hsplit) (hs.offset_ne_zero hfirst (by simp) hsplit)
    (by rw [hs.id last' hmem]; exact hcache)
  have hrun : receiveAll ⟨cache, []⟩ (pre ++ last' :: post) =
      (.err (.generic "missing frag packet data"), ⟨cache, List.replicate pre.length none⟩) := by
    rw [receiveAll_append, receiveAll_early hs hfirst hcache hmiddle, Res.andThen_ok, receiveAll, hstray]
  unfold Safe
  rw [hrun]
  refine ⟨Res.returns_err _, ?_⟩
  intro i q hq
  rw [List.getElem?_replicate] at hq
  split at hq <;> cases hq

theorem safe_of_buildUp {id : BitVec 16} {fs arrivals : List (List Byte)} {cache : FragmentCache} (hs : Split id fs)
    (hfirst : CarriesFirst fs) (hcache : cache.get id = none) (hperm : arrivals.Perm fs) (h : BuildUp fs arrivals)
    (hihl : ∀ f ∈ fs.head?, Ipv4Header.ihlBytes f = 20) : Safe fs cache arrivals := by
  obtain ⟨first, mid, last, hfs⟩ := hs.ends
  obtain ⟨u, first', v, last', rfl, hhead, hlast, hon⟩ := h
  obtain rfl : first = first' := by rw [hfs] at hhead; exact Option.some.inj hhead
  obtain rfl : last = last' := by
    rw [hfs, ← List.cons_append, List.getLast?_concat] at hlast
    exact Option.some.inj hlast
  have hmid := perm_mid (hfs ▸ hperm)
  rw [List.append_nil] at hmid
  have hu : ∀ f ∈ u, Middle fs f := fun f hf => middle_of_mem hfs (hmid.subset (List.mem_append_left _ hf))
  have hv : ∀ f ∈ v, Middle fs f := fun f hf => middle_of_mem hfs (hmid.subset (List.mem_append_right _ hf))
  have hnodup : (carrying (first :: (v ++ [last]))).Nodup := by
    have hall := nodup_of_perm hs hperm
    rw [carrying_append] at hall
    exact (List.nodup_append.1 hall).2.1
  have hmem : last ∈ fs := by rw [hfs]; simp
  have hsplit : fs = (first :: mid) ++ last :: [] := hfs
  have hin : ∀ f ∈ v ++ [last], f ∈ fs := by
    intro f hf
    rcases List.mem_append.1 hf with hf | hf
    · exact (hv f hf).mem
    · rwa [List.mem_singleton.1 hf]
  obtain ⟨s, hrun, hyield, hget⟩ := receiveAll_onTime hs hfirst hfs v []
    ⟨cache.insert id (held [first]), List.replicate (u.length + 1) none⟩ (by simp) hv (nodup_carrying_left hnodup)
    hon.left (Table.get_insert_self _ _ _)
  obtain ⟨hfits, hplace⟩ := OnTime.place hs hfs (fun f hf => (hv f hf).mem) hmem hnodup hon
  rw [OnTime.whole hs hfs hin hnodup hon] at hplace
  have hrecv := (receive_last (hs.readable hmem) (hs.more _ _ _ hsplit) (hs.offset_ne_zero hfirst (by simp) hsplit)
    (by rw [hs.id last hmem]; exact hget)).2 ⟨⟨hfits, by rw [hplace]; exact hs.twenty_le_held⟩, rfl⟩
  have hcomp : completed (held (first :: v)) (packetOf last) = (held fs).finalized := by
    show ((held (first :: v)).place (packetOf last).fragmentOffset (body last)).finalized = _
    rw [hplace]
  rw [hcomp] at hrecv
  have hall : receiveAll ⟨cache, []⟩ (u ++ first :: (v ++ [last])) = (.ok (), ⟨s.cache.erase (packetOf last).id,
      List.replicate (u.length + 1 + v.length) none ++ [some (held fs).finalized]⟩) := by
    rw [receiveAll_start hs hfirst hfs hcache hu, receiveAll_append, hrun, Res.andThen_ok, receiveAll, hrecv,
      List.replicate_add, ← hyield]
    rfl
  unfold Safe
  rw [hall]
  refine ⟨Res.returns_ok _, ?_⟩
  intro i q hq
  obtain ⟨rfl, rfl⟩ := yielded_last hq
  refine ⟨?_, carries_finalized hs hihl⟩
  rw [List.take_of_length_le (by simp; omega)]
  exact hperm.symm.subperm

theorem filling_first {id : BitVec 16} {fs mid : List (List Byte)} {first last : List Byte} (hs : Split id fs)
    (hfs : fs = first :: (mid ++ [last])) : Filling fs first [] (held [first]) := by
  have hsize := length_data_held [first] (hs.header first (by rw [hfs]; simp)).2
  have hbound := bodies_dropLast_ge (a := []) hfs (by simp)
  refine ⟨rfl, hsize.trans_le (Nat.add_le_add_left hbound _), Or.inl ⟨?_, rfl⟩⟩
  intro a g b h
  simp at h

/-- **A run that meets the first fragment before the last**, when no fragment panics: at the last fragment it hands on
what the entry holds then. -/
theorem yielded_at_last {id : BitVec 16} {fs u mid v post : List (List Byte)} {first last : List Byte}
    {cache : FragmentCache} (hs : Split id fs) (hfirst : CarriesFirst fs) (hcache : cache.get id = none)
    (hfs : fs = first :: (mid ++ [last])) (hu : ∀ f ∈ u, Middle fs f) (hv : ∀ f ∈ v, Middle fs f)
    (hnodup : (carrying (first :: v)).Nodup)
    (hret : (receiveAll ⟨cache, []⟩ (u ++ first :: (v ++ last :: post))).1.Returns) :
    ∃ p, Filling fs first v p ∧ p.Fits (packetOf last).fragmentOffset (body last) ∧
      20 ≤ (p.place (packetOf last).fragmentOffset (body last)).data.length ∧
      (receiveAll ⟨cache, []⟩ (u ++ first :: (v ++ last :: post))).2.yielded[u.length + 1 + v.length]? =
        some (some (completed p (packetOf last))) := by
  have hlast : last ∈ fs := by rw [hfs]; simp
  have hsplit : fs = (first :: mid) ++ last :: [] := hfs
  rw [receiveAll_start hs hfirst hfs hcache hu, receiveAll_append] at hret ⊢
  obtain ⟨hretv, hrest⟩ := (Res.returns_andThen _ _).1 hret
  obtain ⟨s, p, hrun, hyield, hget, hfill⟩ := receiveAll_middles hs hfirst hfs v [] _ _ (by simp) hv hnodup
    (Table.get_insert_self _ _ _) (filling_first hs hfs) hretv
  rw [hrun] at hrest ⊢
  have hretl := hrest () rfl
  rw [receiveAll] at hretl
  rw [Res.andThen_ok, receiveAll]
  have hget' : s.cache.get (packetOf last).id = some p := by rw [hs.id last hlast, hget]
  cases hrecv : receive s.cache last with
  | err e => exact absurd hrecv (receive_ne_err (hs.readable hlast) (Or.inr (by rw [hget']; simp)) e)
  | panic q =>
    rw [hrecv] at hretl
    exact absurd hretl (Res.not_returns_panic q)
  | ok x =>
    obtain ⟨⟨hfits, h20⟩, rfl⟩ := (receive_last (hs.readable hlast) (hs.more _ _ _ hsplit)
      (hs.offset_ne_zero hfirst (by simp) hsplit) hget').1 hrecv
    refine ⟨p, hfill, hfits, h20, ?_⟩
    obtain ⟨tail, htail⟩ := receiveAll_yielded post
      ⟨s.cache.erase (packetOf last).id, s.yielded ++ [some (completed p (packetOf last))]⟩
    have hlen : u.length + 1 + v.length = s.yielded.length := by
      rw [hyield]
      simp
    rw [← htail, List.append_assoc, hlen, List.getElem?_append_right (Nat.le_refl _), Nat.sub_self]
    rfl

/-- **What a safe run that meets the first fragment before the last looks like**: the fragments build the datagram up,
and the first has no options. -/
theorem buildUp_of_safe {id : BitVec 16} {fs arrivals : List (List Byte)} {cache : FragmentCache} (hs : Split id fs)
    (hfirst : CarriesFirst fs) (hcache : cache.get id = none) (hperm : arrivals.Perm fs)
    (hsafe : Safe fs cache arrivals) (hlate : ¬ LastBeforeFirst fs arrivals) :
    BuildUp fs arrivals ∧ ∀ f ∈ fs.head?, Ipv4Header.ihlBytes f = 20 := by
  obtain ⟨first, mid, last, hfs⟩ := hs.ends
  obtain ⟨hret, hwhole⟩ := hsafe
  have hhead : fs.head? = some first := by rw [hfs]; rfl
  have hlast : fs.getLast? = some last := by rw [hfs, ← List.cons_append, List.getLast?_concat]
  have hdrop : fs = fs.dropLast ++ [last] := by rw [hfs, ← List.cons_append, List.dropLast_concat]
  -- the arrivals are `u`, the first fragment, `v`, the last fragment, `post`
  obtain ⟨pre, post, rfl⟩ := List.append_of_mem (hperm.mem_iff.2 (show last ∈ fs by rw [hfs]; simp))
  have hfirstpre : first ∈ pre := by
    by_contra hno
    refine hlate ⟨pre, last, post, rfl, hlast, ?_⟩
    intro f hf
    rw [hhead, Option.mem_some_iff] at hf
    rwa [← hf]
  obtain ⟨u, v, rfl⟩ := List.append_of_mem hfirstpre
  rw [List.append_assoc, List.cons_append] at hret hperm hwhole ⊢
  have hmid := perm_mid (hfs ▸ hperm)
  have hmiddle : ∀ f, f ∈ u ∨ f ∈ v → Middle fs f := by
    intro f hf
    refine middle_of_mem hfs (hmid.subset ?_)
    simp only [List.mem_append]
    tauto
  have hnodup : (carrying (first :: v)).Nodup := by
    have hall := nodup_of_perm hs hperm
    rw [carrying_append] at hall
    have htail : (carrying (first :: v ++ last :: post)).Nodup := (List.nodup_append.1 hall).2.1
    exact nodup_carrying_left htail
  obtain ⟨p, hfill, hfits, h20, hyield⟩ := yielded_at_last hs hfirst hcache hfs (fun f hf => hmiddle f (Or.inl hf))
    (fun f hf => hmiddle f (Or.inr hf)) hnodup hret
  obtain ⟨hall, hcarries⟩ := hwhole _ _ hyield
  obtain ⟨hihl, hon⟩ := carries_completed hs hdrop hfill (hs.header first (by rw [hfs]; simp)).2 hfits h20 hcarries
  -- everything has arrived with the last fragment
  have hpost : post = [] := by
    have hle := hall.length_le
    have hlen := hperm.length_eq
    rw [List.length_take] at hle
    simp only [List.length_append, List.length_cons] at hlen hle
    exact List.eq_nil_of_length_eq_zero (by omega)
  subst hpost
  refine ⟨⟨u, first, v, last, rfl, hhead, hlast, hon⟩, ?_⟩
  intro f hf
  rw [hhead, Option.mem_some_iff] at hf
  rwa [← hf]

/-- **When reassembly is safe.**  Fragments that arrive once each are reassembled safely exactly when they build the
datagram up and the first has no options, or when the last comes before the first and nothing is handed on. -/
theorem reassembly_safe_iff (id : BitVec 16) (fs arrivals : List (List Byte)) (cache : FragmentCache)
    (hs : Split id fs) (hfirst : CarriesFirst fs) (hcache : cache.get id = none) (hperm : arrivals.Perm fs) :
    Safe fs cache arrivals ↔
      LastBeforeFirst fs arrivals ∨ (BuildUp fs arrivals ∧ ∀ f ∈ fs.head?, Ipv4Header.ihlBytes f = 20) := by
  constructor
  · intro hsafe
    by_cases hlate : LastBeforeFirst fs arrivals
    · exact Or.inl hlate
    · exact Or.inr (buildUp_of_safe hs hfirst hcache hperm hsafe hlate)
  · rintro (hlate | ⟨hbuild, hihl⟩)
    · exact safe_of_lastBeforeFirst hs hfirst hcache hperm hlate
    · exact safe_of_buildUp hs hfirst hcache hperm hbuild hihl

theorem buildUp_self {id : BitVec 16} {fs : List (List Byte)} (hs : Split id fs) : BuildUp fs fs := by
  obtain ⟨first, mid, last, hfs⟩ := hs.ends
  refine ⟨[], first, mid, last, hfs, by rw [hfs]; rfl, by rw [hfs, ← List.cons_append, List.getLast?_concat], ?_⟩
  intro a g b h
  exact (hs.offset (first :: a) g b (by rw [hfs, h]; rfl)).le

theorem OnTime.isPrefix {id : BitVec 16} {fs rest : List (List Byte)} {first : List Byte} (hs : Split id fs)
    (hfs : fs = first :: rest) (hdata : ∀ f ∈ fs, body f ≠ []) (w : List (List Byte)) : (∀ f ∈ w, f ∈ fs) →
    (carrying (first :: w)).Nodup → OnTime first w → first :: w <+: fs := by
  induction w using List.reverseRecOn with
  | nil => exact fun _ _ _ => ⟨rest, hfs.symm⟩
  | append_singleton w f ih =>
    intro hin hnodup hon
    rw [← List.cons_append] at hnodup ⊢
    obtain ⟨b, hb⟩ := ih (fun g hg => hin g (List.mem_append_left _ hg)) (nodup_carrying_left hnodup) hon.left
    have hf := hin f (by simp)
    have hle := (onTime_snoc.1 hon).2
    -- what comes after `first :: w` in the split lies behind their data, and the next one right behind it
    rw [← hb] at hf
    rcases List.mem_append.1 hf with hf | hf
    · exact absurd hf (fresh_of_nodup hnodup (hdata f (hin f (by simp))))
    · obtain ⟨c, d, rfl⟩ := List.append_of_mem hf
      have hoff := hs.offset (first :: w ++ c) f d (by rw [← hb, List.append_assoc])
      cases c with
      | nil => exact ⟨d, by rw [← hb, List.append_assoc]; rfl⟩
      | cons g c =>
        have hpos := List.length_pos_iff.2 (hdata g (by rw [← hb]; simp))
        rw [bodies_append, bodies_cons g, List.length_append, List.length_append] at hoff
        omega

/-- **When every fragment carries data**, only the offset order builds the datagram up. -/
theorem eq_of_buildUp {id : BitVec 16} {fs arrivals : List (List Byte)} (hs : Split id fs)
    (hdata : ∀ f ∈ fs, body f ≠ []) (hperm : arrivals.Perm fs) (h : BuildUp fs arrivals) : arrivals = fs := by
  obtain ⟨u, first, v, last, rfl, hhead, hlast, hon⟩ := h
  obtain ⟨rest, hfs⟩ : ∃ rest, fs = first :: rest := List.head?_eq_some_iff.1 hhead
  have hnodup := nodup_of_perm hs hperm
  rw [carrying_append] at hnodup
  obtain ⟨t, ht⟩ := OnTime.isPrefix hs hfs hdata (v ++ [last]) (fun f hf => hperm.subset (by
    rw [List.mem_append, List.mem_cons]
    exact Or.inr (Or.inr hf))) (List.nodup_append.1 hnodup).2.1 hon
  have hnil : t = [] := by
    rcases List.eq_nil_or_concat t with rfl | ⟨t', x, rfl⟩
    · rfl
    · rw [← ht, List.concat_eq_append, ← List.append_assoc, List.getLast?_concat, Option.some.injEq] at hlast
      subst hlast
      have hall := nodup_carrying hs.contiguous
      rw [← ht, List.concat_eq_append, ← List.append_assoc] at hall
      exact absurd (by simp) (fresh_of_nodup hall (hdata x (by rw [← ht]; simp)))
  subst hnil
  rw [List.append_nil] at ht
  rw [ht] at hperm ⊢
  have hlen := hperm.length_eq
  rw [List.length_append] at hlen
  rw [List.eq_nil_of_length_eq_zero (show u.length = 0 by omega), List.nil_append]

/-- A datagram in three fragments. -/
def threeFragments : List (List Byte) :=
  [fragment 7 true 0 [0, 53, 3, 232, 0, 20, 0, 0], fragment 7 true 1 [1, 2, 3, 4, 5, 6, 7, 8],
    fragment 7 false 2 [9, 10, 11, 12]]

theorem split_threeFragments : Split 7 threeFragments :=
  ⟨by decide, by decide, by decide, by decide, by decide, by decide⟩

theorem reassembly_safe_of_three : Safe threeFragments Table.empty threeFragments :=
  (reassembly_safe_iff 7 threeFragments threeFragments Table.empty split_threeFragments
    (by unfold CarriesFirst; decide) rfl (List.Perm.refl _)).2 (Or.inr ⟨buildUp_self split_threeFragments, by decide⟩)

/-- **The last fragment hands on a datagram with a hole**: it overtakes the second one, and a packet is handed on before
that has arrived. -/
theorem overtaking_fragment_hands_on_a_hole :
    Split 7 threeFragments ∧ [threeFragments[0], threeFragments[2], threeFragments[1]].Perm threeFragments ∧
      ∃ q, (receiveAll ⟨Table.empty, []⟩ [threeFragments[0], threeFragments[2], threeFragments[1]]).2.yielded =
          [none, some q, none] ∧
        threeFragments[1] ∉ [threeFragments[0], threeFragments[2], threeFragments[1]].take 2 ∧
        q.transport ≠ bodies threeFragments :=
  ⟨split_threeFragments, by decide, _, rfl, by decide, by decide⟩

/-! ## One identification, two datagrams -/

/-- **One of the two datagrams arrives uninterrupted**: all of its fragments between those of the other. -/
def Uninterrupted (xs : List (Bool × List Byte)) : Prop :=
  ∃ t u v w, xs = u ++ v ++ w ∧ (∀ x ∈ u, x.1 = !t) ∧ (∀ x ∈ v, x.1 = t) ∧ ∀ x ∈ w, x.1 = !t

theorem callsOf_own {t : Bool} {xs : List (Bool × List Byte)} (h : ∀ x ∈ xs, x.1 = t) :
    Run.callsOf t xs = xs.map Prod.snd := by
  unfold Run.callsOf
  rw [List.filter_eq_self.2 (by simpa using h)]

theorem callsOf_other {t : Bool} {xs : List (Bool × List Byte)} (h : ∀ x ∈ xs, x.1 = !t) : Run.callsOf t xs = [] := by
  unfold Run.callsOf
  rw [List.filter_eq_nil_iff.2 (fun x hx => by simp [h x hx]), List.map_nil]

/-- **The rest of a datagram whose entry is gone** hands on nothing, unless all of it is still to come. -/
theorem receiveAll_rest {id : BitVec 16} {fs pre rest : List (List Byte)} (hs : Split id fs) (hfirst : CarriesFirst fs)
    (hfs : fs = pre ++ rest) (s : Reassembly) (hempty : s.cache.get id = none) :
    ∃ outs, (receiveAll s rest).2.yielded = s.yielded ++ outs ∧ ∀ q, some q ∈ outs → q = (held fs).finalized := by
  by_cases hnil : pre = []
  · rw [hnil, List.nil_append] at hfs
    obtain ⟨s', outs, hrun, -, hyield, -, hout⟩ := receiveAll_prefix hs hfirst s.cache s.yielded rest
      (hfs ▸ List.prefix_rfl)
    refine ⟨outs, by rw [hrun]; exact hyield, ?_⟩
    intro q hq
    obtain ⟨i, hi⟩ := List.getElem?_of_mem hq
    exact (hout i q hi).2
  · obtain ⟨n, -, hstate, -⟩ := receiveAll_absent rest s hempty (by
      intro b hb
      obtain ⟨a, c, rfl⟩ := List.append_of_mem hb
      have hsplit : fs = (pre ++ a) ++ b :: c := by rw [hfs, List.append_assoc]
      have hmem : b ∈ fs := by rw [hsplit]; simp
      exact ⟨hs.readable hmem, hs.id b hmem, hs.offset_ne_zero hfirst (by simp [hnil]) hsplit⟩)
    refine ⟨List.replicate n none, by rw [hstate], ?_⟩
    intro q hq
    exact absurd (List.eq_of_mem_replicate hq) (by simp)

/-- **Two datagrams under one identification stay apart when one of them arrives uninterrupted**: whatever is handed on
is one of them. -/
theorem datagrams_stay_apart (id : BitVec 16) (frags : Bool → List (List Byte)) (cache : FragmentCache)
    (xs : List (Bool × List Byte)) (hsplit : ∀ t, Split id (frags t)) (hfirst : ∀ t, CarriesFirst (frags t))
    (hihl : ∀ t, ∀ f ∈ (frags t).head?, Ipv4Header.ihlBytes f = 20) (horder : ∀ t, Run.callsOf t xs = frags t)
    (hwhole : Uninterrupted xs) :
    ∀ q, some q ∈ (receiveAll ⟨cache, []⟩ (xs.map Prod.snd)).2.yielded →
      Rebuilt (frags true) q ∨ Rebuilt (frags false) q := by
  obtain ⟨t, u, v, w, rfl, hu, hv, hw⟩ := hwhole
  have hinner : v.map Prod.snd = frags t := by
    rw [← horder t, Run.callsOf_append, Run.callsOf_append, callsOf_other hu, callsOf_own hv, callsOf_other hw]
    simp
  have hnot : ∀ x : Bool × List Byte, x.1 = t → x.1 = !(!t) := fun x hx => by rw [Bool.not_not, hx]
  have houter : u.map Prod.snd ++ w.map Prod.snd = frags (!t) := by
    rw [← horder (!t), Run.callsOf_append, Run.callsOf_append, callsOf_own hu,
      callsOf_other (fun x hx => hnot x (hv x hx)), callsOf_own hw]
    simp
  -- everything handed on comes from one of the two splits
  have hfinal : ∀ q, (q = (held (frags (!t))).finalized ∨ q = (held (frags t)).finalized) →
      Rebuilt (frags true) q ∨ Rebuilt (frags false) q := by
    intro q hq
    have hone : ∃ d, Rebuilt (frags d) q := by
      rcases hq with rfl | rfl
      · exact ⟨!t, rebuilt_finalized (hsplit _) (hihl _)⟩
      · exact ⟨t, rebuilt_finalized (hsplit _) (hihl _)⟩
    obtain ⟨d, hd⟩ := hone
    cases d with
    | true => exact Or.inl hd
    | false => exact Or.inr hd
  obtain ⟨s₁, outs₁, hrun₁, -, hyield₁, -, hout₁⟩ := receiveAll_prefix (hsplit (!t)) (hfirst _) cache []
    (u.map Prod.snd) ⟨w.map Prod.snd, houter⟩
  obtain ⟨s₂, outs₂, hrun₂, hprog₂, hyield₂, -, hout₂⟩ := receiveAll_prefix (hsplit t) (hfirst _) s₁.cache s₁.yielded
    (v.map Prod.snd) (hinner ▸ List.prefix_rfl)
  have hempty : s₂.cache.get id = none := hprog₂.done hinner
  have hrun : receiveAll ⟨cache, []⟩ ((u ++ v ++ w).map Prod.snd) = receiveAll s₂ (w.map Prod.snd) := by
    rw [List.map_append, List.map_append, receiveAll_append, receiveAll_append, hrun₁, Res.andThen_ok, hrun₂,
      Res.andThen_ok]
  obtain ⟨outs₃, hyield₃, hout₃⟩ := receiveAll_rest (hsplit (!t)) (hfirst _) houter.symm s₂ hempty
  rw [hrun, hyield₃, hyield₂, hyield₁, List.nil_append]
  intro q hq
  apply hfinal
  rcases List.mem_append.1 hq with hq | hq
  · rcases List.mem_append.1 hq with hq | hq
    · obtain ⟨i, hi⟩ := List.getElem?_of_mem hq
      exact Or.inl (hout₁ i q hi).2
    · obtain ⟨i, hi⟩ := List.getElem?_of_mem hq
      exact Or.inr (hout₂ i q hi).2
  · exact Or.inl (hout₃ q hq)

/-- Two datagrams of one identification, from 1.1.1.1 and from 1.1.1.2. -/
def twoSenders : Bool → List (List Byte)
  | true => [fragment 7 true 0 [0, 53, 3, 232, 0, 10, 0, 0], fragment 7 false 1 [1, 2]]
  | false => [(fragment 7 true 0 [0, 53, 3, 233, 0, 10, 0, 0]).set 15 2, (fragment 7 false 1 [3, 4]).set 15 2]

theorem split_twoSenders (t : Bool) : Split 7 (twoSenders t) := by
  cases t <;> exact ⟨by decide, by decide, by decide, by decide, by decide, by decide⟩

def tagged (t : Bool) : List (Bool × List Byte) := (twoSenders t).map fun f => (t, f)

theorem datagrams_stay_apart_of_turns :
    ∃ q, some q ∈ (receiveAll ⟨Table.empty, []⟩ ((tagged true ++ tagged false).map Prod.snd)).2.yielded ∧
      (Rebuilt (twoSenders true) q ∨ Rebuilt (twoSenders false) q) := by
  have hq : some (held (twoSenders false)).finalized ∈
      (receiveAll ⟨Table.empty, []⟩ ((tagged true ++ tagged false).map Prod.snd)).2.yielded := by decide
  refine ⟨_, hq, datagrams_stay_apart 7 twoSenders Table.empty (tagged true ++ tagged false) split_twoSenders
    (by unfold CarriesFirst; decide) (by decide) (by decide) ?_ _ hq⟩
  exact ⟨false, tagged true, tagged false, [], by simp, by decide, by decide, by simp⟩

/-- **Fragments of two senders are mixed**: the second first fragment replaces the entry of the first, and the other
sender's last fragment is handed on behind it. -/
theorem shared_identification_mixes_senders :
    (∀ t, Split 7 (twoSenders t)) ∧ (packetOf (twoSenders true)[0]!).src ≠ (packetOf (twoSenders false)[0]!).src ∧
      ∃ q, (receiveAll ⟨Table.empty, []⟩ [(twoSenders true)[0]!, (twoSenders false)[0]!, (twoSenders true)[1]!,
          (twoSenders false)[1]!]).2.yielded = [none, none, some q] ∧
        q.src = (packetOf (twoSenders false)[0]!).src ∧
        q.transport = body (twoSenders false)[0]! ++ body (twoSenders true)[1]! ∧
        ¬ Rebuilt (twoSenders true) q ∧ ¬ Rebuilt (twoSenders false) q := by
  refine ⟨split_twoSenders, by decide, _, rfl, by decide, by decide, ?_, ?_⟩
  · intro h
    exact absurd h.payload (by decide)
  · intro h
    exact absurd h.payload (by decide)

end WgTunnel
end Oathgate
