import Oathgate.NetTypes
/-!
# NetArp — ARP packets (`oathgate-net`: `protocols/arp.rs`)

The parser checks 28 bytes, then computes the offsets of the addresses from the lengths the packet announces.
`returns_parse` says exactly on which buffers these offsets stay inside.
-/
namespace Oathgate

open Lib

structure ArpPacket where
  hardwareType : BitVec 16
  protocolType : EtherType
  hardwareLen : BitVec 8
  protocolLen : BitVec 8
  operation : BitVec 16
  sha : MacAddress
  spa : IpAddr
  tha : MacAddress
  tpa : IpAddr
  deriving DecidableEq, Repr

namespace ArpPacket

variable {ε : Type}

/-- The match on the hardware type and its length in `parse`. -/
def checkHardware (hardwareType : BitVec 16) (hardwareLen : BitVec 8) : Res ProtocolError Unit :=
  if hardwareType = 1 then
    if hardwareLen = 6 then .ok ()
    else .err (.malformedPacket ("hardware type (ethernet) does have expected length (6), has length "
      ++ toString hardwareLen.toNat))
  else .err (.malformedPacket ("unknown hardware type: 0x" ++ hex04 hardwareType.toNat))

/-- The match on the protocol type and its length in `parse`: the sender's and the target's address, `spa` and `tpa`
the ranges they are read from. -/
def parseAddresses (bytes : List Byte) (protocolType : EtherType) (protocolLen : BitVec 8) (spaStart spaEnd : Nat)
    (tpaStart tpaEnd : Nat) : Res ProtocolError (IpAddr × IpAddr) :=
  match protocolType with
  | .ipv4 =>
    if protocolLen = 4 then do
      let spa ← be32In bytes spaStart spaEnd
      let tpa ← be32In bytes tpaStart tpaEnd
      return (.v4 spa, .v4 tpa)
    else .err (.malformedPacket ("protocol type (ipv4) does not have expected length (4), has length "
      ++ toString protocolLen.toNat))
  | .ipv6 =>
    if protocolLen = 16 then do
      let spa ← be128In bytes spaStart spaEnd
      let tpa ← be128In bytes tpaStart tpaEnd
      return (.v6 spa, .v6 tpa)
    else .err (.malformedPacket ("protocol type (ipv6) does not have expected length (16), has length "
      ++ toString protocolLen.toNat))
  | .arp => .err (.malformedPacket ("invalid ethertype for ARP packet: " ++ protocolType.debug))

def parse (bytes : List Byte) : Res ProtocolError ArpPacket :=
  if bytes.length < 28 then .err (.notEnoughData bytes.length 28)
  else do
    let hardwareType ← be16In bytes 0 2
    let protocolType ← EtherType.tryFromSlice (← slice bytes 2 4)
    let hardwareLen ← index bytes 4
    let protocolLen ← index bytes 5
    let operation ← be16In bytes 6 8
    checkHardware hardwareType hardwareLen
    let hlu := hardwareLen.toNat
    let plu := protocolLen.toNat
    let shaEnd := 8 + hlu
    let spaEnd := shaEnd + plu
    let thaEnd := spaEnd + hlu
    let tpaEnd := thaEnd + plu
    let sha ← MacAddress.parse (← slice bytes 8 shaEnd)
    let tha ← MacAddress.parse (← slice bytes spaEnd thaEnd)
    let (spa, tpa) ← parseAddresses bytes protocolType protocolLen shaEnd spaEnd thaEnd tpaEnd
    return { hardwareType, protocolType, hardwareLen, protocolLen, operation, sha, spa, tha, tpa }

def toReply (p : ArpPacket) (mac : MacAddress) : ArpPacket :=
  { p with tpa := p.spa, tha := p.sha, spa := p.tpa, sha := mac, operation := 2 }

def size (p : ArpPacket) : Nat :=
  match p.spa, p.tpa with
  | .v4 _, .v4 _ => 28
  | .v6 _, .v6 _ => 52
  | _, _ => 0

def asBytes (p : ArpPacket) (pkt : List Byte) : Res ε (List Byte) := do
  let pkt ← copyAt pkt 0 2 (toBe16 p.hardwareType)
  let pkt ← copyAt pkt 2 4 (toBe16 p.protocolType.asU16)
  let pkt ← setAt pkt 4 p.hardwareLen
  let pkt ← setAt pkt 5 p.protocolLen
  let pkt ← copyAt pkt 6 8 (toBe16 p.operation)
  let pkt ← copyAt pkt 8 14 p.sha.asBytes
  match p.spa, p.tpa with
  | .v4 spa, .v4 tpa =>
    let pkt ← copyAt pkt 14 18 (toBe32 spa)
    let pkt ← copyAt pkt 18 24 p.tha.asBytes
    copyAt pkt 24 28 (toBe32 tpa)
  | .v6 spa, .v6 tpa =>
    let pkt ← copyAt pkt 14 30 (toBe128 spa)
    let pkt ← copyAt pkt 30 36 p.tha.asBytes
    copyAt pkt 36 52 (toBe128 tpa)
  | _, _ => return pkt

/-! ## Where the parser stays inside -/

/-- The addresses of a packet are of one version. -/
def SameVersion (p : ArpPacket) : Prop :=
  (∃ spa tpa, p.spa = .v4 spa ∧ p.tpa = .v4 tpa) ∨ ∃ spa tpa, p.spa = .v6 spa ∧ p.tpa = .v6 tpa

/-- The checks `parse` makes before it uses the lengths: a known protocol type, and ethernet addresses of six bytes. -/
def Checked (bytes : List Byte) (ty : EtherType) : Prop :=
  28 ≤ bytes.length ∧ be16At bytes 2 = ty.asU16 ∧ be16At bytes 0 = 1 ∧ byteAt bytes 4 = 6

/-- **The announced lengths fit**: a packet that passes the checks is as long as its addresses up to the target's
hardware address, and holds both addresses when they are IPv6. -/
def Fits (bytes : List Byte) : Prop :=
  ∀ ty, Checked bytes ty → 20 + (byteAt bytes 5).toNat ≤ bytes.length ∧
    (ty = .ipv6 → byteAt bytes 5 = 16 → 52 ≤ bytes.length)

/-- The part of `parse` after its checks. -/
def parseFrom (bytes : List Byte) (hardwareType : BitVec 16) (protocolType : EtherType) (hardwareLen : BitVec 8) :
    Res ProtocolError ArpPacket := do
  let protocolLen := byteAt bytes 5
  let shaEnd := 8 + hardwareLen.toNat
  let spaEnd := shaEnd + protocolLen.toNat
  let thaEnd := spaEnd + hardwareLen.toNat
  let tpaEnd := thaEnd + protocolLen.toNat
  let sha ← MacAddress.parse (← slice bytes 8 shaEnd)
  let tha ← MacAddress.parse (← slice bytes spaEnd thaEnd)
  let (spa, tpa) ← parseAddresses bytes protocolType protocolLen shaEnd spaEnd thaEnd tpaEnd
  return { hardwareType, protocolType, hardwareLen, protocolLen, operation := be16At bytes 6, sha, spa, tha, tpa }

theorem parse_of_length (bytes : List Byte) (h : 28 ≤ bytes.length) :
    parse bytes = (do
      let ty ← EtherType.tryFrom (be16At bytes 2)
      checkHardware (be16At bytes 0) (byteAt bytes 4)
      parseFrom bytes (be16At bytes 0) ty (byteAt bytes 4)) := by
  have hlen : ¬ bytes.length < 28 := by omega
  unfold parse
  rw [if_neg hlen, be16In_eq bytes 0 (by omega), slice_eq bytes 2 4 (by omega) (by omega),
    index_eq bytes 4 (by omega), index_eq bytes 5 (by omega), be16In_eq bytes 6 (by omega)]
  simp only [Res.bind_ok]
  rw [EtherType.tryFromSlice_slice bytes 2 (by omega)]
  rfl

theorem parse_checked (bytes : List Byte) (ty : EtherType) (h : Checked bytes ty) :
    parse bytes = (do
      let tha ← MacAddress.parse (← slice bytes (14 + (byteAt bytes 5).toNat) (20 + (byteAt bytes 5).toNat))
      let (spa, tpa) ← parseAddresses bytes ty (byteAt bytes 5) 14 (14 + (byteAt bytes 5).toNat)
        (20 + (byteAt bytes 5).toNat) (20 + (byteAt bytes 5).toNat + (byteAt bytes 5).toNat)
      return { hardwareType := 1, protocolType := ty, hardwareLen := 6, protocolLen := byteAt bytes 5,
               operation := be16At bytes 6, sha := .readAt bytes 8, spa, tha, tpa }) := by
  obtain ⟨hlen, hty, hhw, hhl⟩ := h
  have hsix : (6 : BitVec 8).toNat = 6 := rfl
  rw [parse_of_length bytes hlen, (EtherType.tryFrom_eq_ok _ _).2 hty, hhw, hhl]
  simp only [Res.bind_ok, checkHardware, if_true]
  unfold parseFrom
  simp only [hsix, Nat.reduceAdd, Nat.add_right_comm 14 _ 6]
  rw [slice_eq bytes 8 14 (by omega) (by omega), Res.bind_ok, MacAddress.parse_readAt bytes 8 (by omega), Res.bind_ok]

theorem parse_unchecked (bytes : List Byte) (h : ∀ ty, ¬ Checked bytes ty) : ∃ e, parse bytes = .err e := by
  by_cases hlen : 28 ≤ bytes.length
  · rw [parse_of_length bytes hlen]
    cases hty : EtherType.tryFrom (be16At bytes 2) with
    | err e => exact ⟨e, rfl⟩
    | panic p => exact absurd hty (EtherType.returns_tryFrom _ p)
    | ok ty =>
      rw [EtherType.tryFrom_eq_ok] at hty
      simp only [Res.bind_ok]
      unfold checkHardware
      by_cases hhw : be16At bytes 0 = 1
      · by_cases hhl : byteAt bytes 4 = 6
        · exact absurd ⟨hlen, hty, hhw, hhl⟩ (h ty)
        · rw [if_pos hhw, if_neg hhl]
          exact ⟨_, rfl⟩
      · rw [if_neg hhw]
        exact ⟨_, rfl⟩
  · unfold parse
    rw [if_pos (Nat.lt_of_not_le hlen)]
    exact ⟨_, rfl⟩

theorem returns_parseAddresses (bytes : List Byte) (ty : EtherType) (hlen : 28 ≤ bytes.length)
    (hplu : 20 + (byteAt bytes 5).toNat ≤ bytes.length) :
    (parseAddresses bytes ty (byteAt bytes 5) 14 (14 + (byteAt bytes 5).toNat) (20 + (byteAt bytes 5).toNat)
      (20 + (byteAt bytes 5).toNat + (byteAt bytes 5).toNat)).Returns ↔
      (ty = .ipv6 → byteAt bytes 5 = 16 → 52 ≤ bytes.length) := by
  generalize byteAt bytes 5 = plen at hplu ⊢
  unfold parseAddresses
  cases ty with
  | arp => simp
  | ipv4 =>
    by_cases hp : plen = 4
    · subst hp
      simp only [if_true, show (4 : BitVec 8).toNat = 4 from rfl]
      rw [be32In_eq bytes 14 (by omega), be32In_eq bytes 24 (by omega)]
      simp
    · simp only [if_neg hp]
      simp
  | ipv6 =>
    by_cases hp : plen = 16
    · subst hp
      simp only [if_true, show (16 : BitVec 8).toNat = 16 from rfl] at hplu ⊢
      rw [be128In_eq bytes 14 (by omega), Res.bind_ok]
      by_cases h52 : 52 ≤ bytes.length
      · rw [be128In_eq bytes 36 h52]
        simp [h52]
      · unfold be128In
        rw [slice_panic bytes 36 52 (by omega)]
        simp [h52]
    · simp only [if_neg hp, Res.returns_err, true_iff]
      exact fun _ h => absurd h hp

/-- **`parse` returns exactly on the packets whose announced lengths fit.** -/
theorem returns_parse (bytes : List Byte) : (parse bytes).Returns ↔ Fits bytes := by
  by_cases hc : ∃ ty, Checked bytes ty
  · obtain ⟨ty, hty⟩ := hc
    have honly : ∀ ty', Checked bytes ty' → ty' = ty := by
      intro ty' h'
      have hword := h'.2.1.symm.trans hty.2.1
      revert hword
      cases ty' <;> cases ty <;> simp [EtherType.asU16]
    have hfits : Fits bytes ↔ 20 + (byteAt bytes 5).toNat ≤ bytes.length ∧
        (ty = .ipv6 → byteAt bytes 5 = 16 → 52 ≤ bytes.length) :=
      ⟨fun h => h ty hty, fun h ty' hty' => honly ty' hty' ▸ h⟩
    have hp := parse_checked bytes ty hty
    rw [hfits, hp]
    by_cases hplu : 20 + (byteAt bytes 5).toNat ≤ bytes.length
    · have hsix : 20 + (byteAt bytes 5).toNat - (14 + (byteAt bytes 5).toNat) = 6 := by omega
      rw [slice_eq bytes _ _ (by omega) hplu, Res.bind_ok, hsix, MacAddress.parse_readAt bytes _ (by omega),
        Res.bind_ok, Res.returns_bind, returns_parseAddresses bytes ty hty.1 hplu]
      simp [hplu]
    · rw [slice_panic bytes _ _ (by omega)]
      simp [hplu]
  · obtain ⟨e, he⟩ := parse_unchecked bytes fun ty hty => hc ⟨ty, hty⟩
    rw [he]
    simp only [Res.returns_err, true_iff]
    exact fun ty hty => absurd ⟨ty, hty⟩ hc

theorem SameVersion.toReply {p : ArpPacket} (h : p.SameVersion) (mac : MacAddress) : (p.toReply mac).SameVersion := by
  rcases h with ⟨spa, tpa, hs, ht⟩ | ⟨spa, tpa, hs, ht⟩
  · exact Or.inl ⟨tpa, spa, ht, hs⟩
  · exact Or.inr ⟨tpa, spa, ht, hs⟩

theorem SameVersion.size_toReply {p : ArpPacket} (h : p.SameVersion) (mac : MacAddress) :
    (p.toReply mac).size = p.size := by
  rcases h with ⟨spa, tpa, hs, ht⟩ | ⟨spa, tpa, hs, ht⟩ <;> simp [size, ArpPacket.toReply, hs, ht]

theorem SameVersion.size_ge {p : ArpPacket} (h : p.SameVersion) : 28 ≤ p.size := by
  rcases h with ⟨spa, tpa, hs, ht⟩ | ⟨spa, tpa, hs, ht⟩ <;> simp [size, hs, ht]

end ArpPacket
end Oathgate
