import Oathgate.LibRadix
import Oathgate.LibText
import Oathgate.NetTypes
/-!
# NetMac — hardware addresses as text (`oathgate-net`: `types/mac.rs`)

`Display` writes six octets of two hex digits with colons between them.  `from_str` cuts at colons and hyphens and sees
nothing but digits, so either separator and either case comes back as the same address (`mac_round_trip`).  It drops
the segments it cannot read before it counts those left, and the octet parser takes a plus sign: six octets are an
address whatever unreadable segments stand among them (`fromStr_segments_iff`).  What serde writes and reads is this
text.
-/
namespace Oathgate

open Lib Lib.Text Lib.Radix

namespace MacAddress

/-! ## The text of an address -/

/-- `{:02x}` -/
def hex02 (b : Byte) : List Char := padded 16 2 b.toNat

def display (m : MacAddress) : String := String.ofList ([':'].intercalate (m.octets.map hex02))

/-- The pattern `&[':', '-']`. -/
def isSeparator (c : Char) : Bool := c == ':' || c == '-'

/-- `s.split(&[':', '-'])` -/
def segments (s : String) : List (List Char) := s.toList.splitOnP isSeparator

/-- `u8::from_str_radix(s, 16)` -/
def readHex (t : List Char) : Option Byte := readRadix 8 16 t

/-- `from_str`: what `filter_map` keeps, if these are six. -/
def fromStr (s : String) : Res String MacAddress :=
  let parts := (segments s).filterMap readHex
  if h : parts.length ≠ 6 then .err "invalid MAC format, expected: 01:02:03:04:05:05"
  else .ok ⟨parts.take 6, by rw [List.length_take]; omega⟩

/-- `serialize_str(&self.to_string())` -/
def serialize (m : MacAddress) : String := m.display

/-- `deserialize_str` with `MacAddressVisitor`. -/
def deserialize {ε : Type} (custom : String → ε) (v : String) : Res ε MacAddress := (fromStr v).mapErr custom

/-! ## Specifications -/

theorem fromStr_of_six {s : String} (h : ((segments s).filterMap readHex).length = 6) :
    fromStr s = .ok ⟨(segments s).filterMap readHex, h⟩ := by
  have hok : fromStr s = .ok ⟨((segments s).filterMap readHex).take 6, by rw [List.length_take]; omega⟩ :=
    dif_neg (not_not_intro h)
  rw [hok, Res.ok.injEq]
  exact ext (List.take_of_length_le (by omega))

theorem fromStr_of_not_six {s : String} (h : ((segments s).filterMap readHex).length ≠ 6) :
    fromStr s = .err "invalid MAC format, expected: 01:02:03:04:05:05" := dif_pos h

/-- **What is read are the octets.** -/
theorem fromStr_eq_ok {s : String} {m : MacAddress} :
    fromStr s = .ok m ↔ (segments s).filterMap readHex = m.octets := by
  constructor
  · intro h
    by_cases hlen : ((segments s).filterMap readHex).length = 6
    · rw [fromStr_of_six hlen, Res.ok.injEq] at h
      rw [← h]
    · rw [fromStr_of_not_six hlen] at h
      cases h
  · intro h
    have hlen : ((segments s).filterMap readHex).length = 6 := h ▸ m.length_octets
    rw [fromStr_of_six hlen, Res.ok.injEq]
    exact ext h

/-- **Six readable segments are an address, and no other number of them is.** -/
theorem fromStr_cases (s : String) :
    ((segments s).countP (fun t => (readHex t).isSome) = 6 ∧ ∃ m, fromStr s = .ok m) ∨
      ((segments s).countP (fun t => (readHex t).isSome) ≠ 6 ∧ ∃ e, fromStr s = .err e) := by
  rw [← List.length_filterMap_eq_countP]
  by_cases hlen : ((segments s).filterMap readHex).length = 6
  · exact .inl ⟨hlen, _, fromStr_of_six hlen⟩
  · exact .inr ⟨hlen, _, fromStr_of_not_six hlen⟩

/-! ## There and back -/

/-- A character as it stands, a colon as a hyphen, or a hex letter in upper case. -/
def Respelled (c d : Char) : Prop := d = c ∨ c = ':' ∧ d = '-' ∨ c ∈ "abcdef".toList ∧ d = c.toUpper

instance : DecidableRel Respelled := fun _ _ => inferInstanceAs (Decidable (_ ∨ _))

theorem isSeparator_of_digit {c : Char} (h : (toDigit 16 c).isSome) : isSeparator c = false := by
  by_contra hsep
  rw [Bool.not_eq_false] at hsep
  have hc : c = ':' ∨ c = '-' := by simpa [isSeparator] using hsep
  rcases hc with rfl | rfl
  · exact absurd h (by decide)
  · exact absurd h (by decide)

theorem isDigit_of_letter {c : Char} (h : c ∈ "abcdef".toList) : (toDigit 16 c).isSome := by
  have hall : "abcdef".toList.all (fun c => (toDigit 16 c).isSome) := by decide
  exact List.all_eq_true.1 hall c h

theorem Respelled.isSeparator {c d : Char} (h : Respelled c d) : isSeparator c = isSeparator d := by
  rcases h with rfl | ⟨rfl, rfl⟩ | ⟨hc, rfl⟩
  · rfl
  · rfl
  · have hdigit := isDigit_of_letter hc
    have hupper := (toDigit_toUpper 16 c).symm ▸ hdigit
    rw [isSeparator_of_digit hdigit, isSeparator_of_digit hupper]

theorem Respelled.digit {c d : Char} (h : Respelled c d) :
    toDigit 16 c = toDigit 16 d ∧ (c = '+' ↔ d = '+') := by
  rcases h with rfl | ⟨rfl, rfl⟩ | ⟨hc, rfl⟩
  · exact ⟨rfl, Iff.rfl⟩
  · decide
  · have hdigit := isDigit_of_letter hc
    have hupper := (toDigit_toUpper 16 c).symm ▸ hdigit
    exact ⟨(toDigit_toUpper 16 c).symm, iff_of_false (ne_plus_of_digit hdigit) (ne_plus_of_digit hupper)⟩

/-- **Separator and case do not matter**, in any text. -/
theorem fromStr_respelled {s t : String} (h : List.Forall₂ Respelled s.toList t.toList) : fromStr s = fromStr t := by
  have hsegments : List.Forall₂ (List.Forall₂ Respelled) (segments s) (segments t) :=
    splitOnP_forall₂ (fun _ _ hc => hc.isSeparator) h
  have hread : (segments s).filterMap readHex = (segments t).filterMap readHex := by
    generalize segments s = parts, segments t = parts' at hsegments
    induction hsegments with
    | nil => rfl
    | cons hpart _ ih =>
      have hsame : SameDigits 16 _ _ := hpart.imp fun _ _ hc => hc.digit
      rw [List.filterMap_cons, List.filterMap_cons, ih]
      unfold readHex
      rw [readRadix_congr hsame]
  unfold fromStr
  simp only [hread]

theorem isSeparator_hex02 {b : Byte} {c : Char} (h : c ∈ hex02 b) : isSeparator c = false :=
  isSeparator_of_digit ((isNumeral_padded (by omega) (by omega) 2 b.toNat).2 c h)

theorem segments_display (m : MacAddress) : segments m.display = m.octets.map hex02 := by
  have hne : m.octets.map hex02 ≠ [] := by
    intro h
    have hlen := m.length_octets
    rw [List.map_eq_nil_iff.1 h] at hlen
    cases hlen
  have hclear : ∀ part ∈ m.octets.map hex02, ∀ c ∈ part, isSeparator c = false := by
    intro part hpart c hc
    obtain ⟨b, -, rfl⟩ := List.mem_map.1 hpart
    exact isSeparator_hex02 hc
  unfold segments display
  rw [String.toList_ofList]
  exact splitOnP_intercalate rfl hne hclear

theorem fromStr_display (m : MacAddress) : fromStr m.display = .ok m := by
  have hread : readHex ∘ hex02 = some := funext fun b => readRadix_padded (by omega) (by omega) 2 b
  rw [fromStr_eq_ok, segments_display, List.filterMap_map, hread, List.filterMap_some]

/-- A configuration that is written is read. -/
theorem deserialize_serialize {ε : Type} (custom : String → ε) (m : MacAddress) :
    deserialize custom m.serialize = .ok m := by
  unfold deserialize serialize
  rw [fromStr_display, Res.mapErr_ok]

/-- **An address survives its own text**, with hyphens and upper-case letters anywhere in it too. -/
theorem mac_round_trip (m : MacAddress) :
    fromStr m.display = .ok m ∧
    ∀ t : String, List.Forall₂ Respelled m.display.toList t.toList → fromStr t = .ok m := by
  refine ⟨fromStr_display m, fun t h => ?_⟩
  rw [← fromStr_respelled h, fromStr_display]

theorem mac_round_trip_of_mixed :
    display ⟨[0x52, 0x54, 0x00, 0xde, 0xad, 0x01], rfl⟩ = "52:54:00:de:ad:01" ∧
      fromStr "52-54:00-DE:aD:01" = .ok ⟨[0x52, 0x54, 0x00, 0xde, 0xad, 0x01], rfl⟩ := by
  have htext : display ⟨[0x52, 0x54, 0x00, 0xde, 0xad, 0x01], rfl⟩ = "52:54:00:de:ad:01" := by decide
  refine ⟨htext, (mac_round_trip _).2 _ ?_⟩
  rw [htext]
  decide

/-! ## What is accepted -/

/-- **A hexadecimal octet**: hex digits of a value below 256. -/
def IsHexOctet (t : List Char) : Prop := IsNumeral 16 t ∧ value 16 t < 256

instance (t : List Char) : Decidable (IsHexOctet t) := inferInstanceAs (Decidable (_ ∧ _))

/-- **The grammar**: six segments, each a hexadecimal octet. -/
def IsMacText (s : String) : Prop := (segments s).length = 6 ∧ ∀ t ∈ segments s, IsHexOctet t

/-- Where six segments are readable there are no others, and none of them has a plus sign. -/
def AllRead (s : String) : Prop :=
  (segments s).countP (fun t => (readHex t).isSome) = 6 →
    (segments s).length = 6 ∧ ∀ t ∈ segments s, t.head? ≠ some '+'

/-- An octet of the grammar is a readable segment without a sign. -/
theorem isHexOctet_iff {t : List Char} : IsHexOctet t ↔ (readHex t).isSome ∧ t.head? ≠ some '+' := by
  constructor
  · rintro ⟨hnumeral, hlt⟩
    exact ⟨Option.isSome_of_eq_some (readRadix_of_lt hnumeral hlt), hnumeral.head_ne_plus⟩
  · rintro ⟨hread, hplus⟩
    obtain ⟨b, hb⟩ := Option.isSome_iff_exists.1 hread
    obtain ⟨hnumeral, hvalue⟩ := (readRadix_eq_some hplus).1 hb
    exact ⟨hnumeral, hvalue ▸ b.isLt⟩

/-- **The segments of a text of the grammar are read one by one.** -/
theorem IsMacText.octets {s : String} (h : IsMacText s) {m : MacAddress} (hm : fromStr s = .ok m) :
    m.octets.map BitVec.toNat = (segments s).map (value 16) := by
  have hread : ∀ t ∈ segments s, (readHex t).map BitVec.toNat = some (value 16 t) := by
    intro t ht
    obtain ⟨hnumeral, hlt⟩ := h.2 t ht
    unfold readHex
    rw [readRadix_of_lt hnumeral hlt, Option.map_some, BitVec.toNat_ofNat, Nat.mod_eq_of_lt hlt]
  rw [← fromStr_eq_ok.1 hm, List.map_filterMap, List.filterMap_congr hread]
  exact congrFun List.filterMap_eq_map _

/-- **A text of the grammar is six readable segments of which none is left out.** -/
theorem isMacText_iff {s : String} :
    IsMacText s ↔ (segments s).countP (fun t => (readHex t).isSome) = 6 ∧ AllRead s := by
  constructor
  · rintro ⟨hlen, hoctets⟩
    have hall : (segments s).countP (fun t => (readHex t).isSome) = (segments s).length :=
      List.countP_eq_length.2 fun t ht => (isHexOctet_iff.1 (hoctets t ht)).1
    exact ⟨hall.trans hlen, fun _ => ⟨hlen, fun t ht => (isHexOctet_iff.1 (hoctets t ht)).2⟩⟩
  · rintro ⟨hsix, hread⟩
    obtain ⟨hlen, hplus⟩ := hread hsix
    have hall := List.countP_eq_length.1 (hsix.trans hlen.symm)
    exact ⟨hlen, fun t ht => isHexOctet_iff.2 ⟨hall t ht, hplus t ht⟩⟩

/-- **`from_str` takes the grammar's texts alone, as the octets they spell, exactly where none of its segments goes
unread beside six others and none of the six has a sign.** -/
theorem fromStr_segments_iff (s : String) :
    ((∀ m, fromStr s = .ok m → IsMacText s ∧ m.octets.map BitVec.toNat = (segments s).map (value 16)) ∧
      ((∃ t ∈ segments s, ¬ IsHexOctet t) ∨ (segments s).length ≠ 6 → ∃ e, fromStr s = .err e)) ↔ AllRead s := by
  constructor
  · rintro ⟨haccepted, -⟩ hsix
    rcases fromStr_cases s with ⟨-, m, hm⟩ | ⟨hne, -⟩
    · exact (isMacText_iff.1 (haccepted m hm).1).2 hsix
    · exact absurd hsix hne
  · intro hread
    rcases fromStr_cases s with ⟨hsix, m, hm⟩ | ⟨hne, e, herr⟩
    · have htext := isMacText_iff.2 ⟨hsix, hread⟩
      refine ⟨fun m hm => ⟨htext, htext.octets hm⟩, ?_⟩
      rintro (⟨t, ht, hbad⟩ | hlen)
      · exact absurd (htext.2 t ht) hbad
      · exact absurd htext.1 hlen
    · refine ⟨fun m hm => ?_, fun _ => ⟨e, herr⟩⟩
      rw [herr] at hm
      cases hm

/-- A segment that is no number is passed over, and a sign is taken. -/
theorem unread_segment_passed_over :
    fromStr "52:54:00:dg:de:ad:01" = .ok ⟨[0x52, 0x54, 0x00, 0xde, 0xad, 0x01], rfl⟩ ∧
    ((∃ t ∈ segments "52:54:00:dg:de:ad:01", ¬ IsHexOctet t) ∧ (segments "52:54:00:dg:de:ad:01").length = 7) ∧
    (∃ m, fromStr "+5:54:00:de:ad:01" = .ok m) ∧ ¬ IsMacText "+5:54:00:de:ad:01" := by
  have hread : fromStr "+5:54:00:de:ad:01" = .ok ⟨[0x05, 0x54, 0x00, 0xde, 0xad, 0x01], rfl⟩ := by decide
  have hsign : ¬ IsHexOctet "+5".toList := fun h => h.1.head_ne_plus rfl
  refine ⟨by decide, ⟨⟨"dg".toList, by decide, by decide⟩, by decide⟩, ⟨_, hread⟩, fun h => ?_⟩
  exact hsign (h.2 _ (by decide))

end MacAddress
end Oathgate
