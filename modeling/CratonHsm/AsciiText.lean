import CratonHsm.DecimalText

/-!
# Texts as bytes

A text as its UTF-8 bytes and back (`decode_utf8`), ASCII texts, whose bytes are the codes of
their characters (`utf8_of_ascii`), and bytes written in hexadecimal (`decodeHexBytes_hexBytes`).
-/

namespace AsciiText
open PrefixFreeCode List

/-- The bytes of a text. -/
def utf8 (text : List Char) : Bytes := text.flatMap String.utf8EncodeChar

/-- `str::from_utf8`. -/
def decode (bytes : Bytes) : Option String := String.fromUTF8? ⟨bytes.toArray⟩

theorem decode_utf8 (text : List Char) : decode (utf8 text) = some (String.ofList text) := by
  have hbytes : (⟨(utf8 text).toArray⟩ : ByteArray) = (String.ofList text).toByteArray := by
    rw [← String.utf8Encode_toList, String.toList_ofList, List.utf8Encode]
    apply ByteArray.ext
    simp [utf8]
  have hvalid : String.fromUTF8? (String.ofList text).toByteArray = some (String.ofList text) := by
    simp only [String.fromUTF8?, (String.ofList text).isValidUTF8, dite_true]
    rfl
  rw [decode, hbytes, hvalid]

theorem utf8_append (s t : List Char) : utf8 (s ++ t) = utf8 s ++ utf8 t := flatMap_append

/-! ## ASCII -/

/-- All characters are ASCII. -/
def Ascii (text : List Char) : Prop := ∀ c ∈ text, c.toNat < 128

theorem utf8_of_ascii {text : List Char} (h : Ascii text) :
    utf8 text = text.map fun c => UInt8.ofNat c.toNat :=
  DecimalText.utf8_of_ascii h

theorem mem_utf8_of_ascii {text : List Char} (h : Ascii text) {b : UInt8} (hb : b ∈ utf8 text) :
    ∃ c ∈ text, b = UInt8.ofNat c.toNat ∧ b.toNat = c.toNat := by
  rw [utf8_of_ascii h] at hb
  obtain ⟨c, hc, rfl⟩ := mem_map.mp hb
  refine ⟨c, hc, rfl, ?_⟩
  rw [UInt8.toNat_ofNat']
  exact Nat.mod_eq_of_lt (Nat.lt_trans (h c hc) (by decide))

/-! ## Hexadecimal -/

/-- A digit of `{:02x}`. -/
def hexChar (n : Nat) : Char :=
  if n < 10 then Char.ofNat (48 + n) else Char.ofNat (97 + (n - 10))

/-- Every byte as two digits. -/
def hexBytes (bytes : Bytes) : List Char :=
  bytes.flatMap fun b => [hexChar (b.toNat / 16), hexChar (b.toNat % 16)]

/-- The value of a hexadecimal digit. -/
def hexNib (b : UInt8) : Option UInt8 :=
  if 0x30 ≤ b ∧ b ≤ 0x39 then some (b - 0x30)
  else if 0x61 ≤ b ∧ b ≤ 0x66 then some (b - 0x61 + 10)
  else if 0x41 ≤ b ∧ b ≤ 0x46 then some (b - 0x41 + 10)
  else none

/-- `decode_hex_bytes`. -/
def decodeHexBytes : Bytes → Option Bytes
  | [] => some []
  | [_] => none
  | hi :: lo :: rest => do
    let hi ← hexNib hi
    let lo ← hexNib lo
    let rest ← decodeHexBytes rest
    return (hi <<< 4 ||| lo) :: rest

/-- What one byte looks like. -/
theorem hexChar_byte : ∀ n : Fin 256,
    utf8 [hexChar (n.val / 16), hexChar (n.val % 16)] =
      [UInt8.ofNat (hexChar (n.val / 16)).toNat, UInt8.ofNat (hexChar (n.val % 16)).toNat] ∧
    (hexNib (UInt8.ofNat (hexChar (n.val / 16)).toNat)).bind (fun hi =>
      (hexNib (UInt8.ofNat (hexChar (n.val % 16)).toNat)).map fun lo => hi <<< 4 ||| lo) =
        some (UInt8.ofNat n.val) := by
  decide +kernel

theorem hexChar_range : ∀ n : Fin 16, 48 ≤ (hexChar n.val).toNat ∧ (hexChar n.val).toNat < 103 := by
  decide

theorem mem_hexBytes {bytes : Bytes} {c : Char} (h : c ∈ hexBytes bytes) :
    48 ≤ c.toNat ∧ c.toNat < 103 := by
  obtain ⟨b, _, hc⟩ := mem_flatMap.mp h
  have hb : b.toNat < 256 := b.toNat_lt
  simp only [mem_cons, not_mem_nil, or_false] at hc
  rcases hc with rfl | rfl
  · exact hexChar_range ⟨b.toNat / 16, by omega⟩
  · exact hexChar_range ⟨b.toNat % 16, by omega⟩

theorem hexBytes_length (bytes : Bytes) : (hexBytes bytes).length = 2 * bytes.length := by
  induction bytes with
  | nil => rfl
  | cons b bytes ih =>
    have hcons : hexBytes (b :: bytes) =
        hexChar (b.toNat / 16) :: hexChar (b.toNat % 16) :: hexBytes bytes := rfl
    rw [hcons, length_cons, length_cons, length_cons, ih]
    omega

/-- **Bytes written in hexadecimal are read back.** -/
theorem decodeHexBytes_hexBytes (bytes : Bytes) :
    decodeHexBytes (utf8 (hexBytes bytes)) = some bytes := by
  induction bytes with
  | nil => rfl
  | cons b bytes ih =>
    obtain ⟨hdigits, hvalue⟩ := hexChar_byte ⟨b.toNat, b.toNat_lt⟩
    have hcons : utf8 (hexBytes (b :: bytes)) =
        utf8 [hexChar (b.toNat / 16), hexChar (b.toNat % 16)] ++ utf8 (hexBytes bytes) :=
      utf8_append _ (hexBytes bytes)
    rw [hcons, hdigits]
    simp only [cons_append, nil_append, decodeHexBytes, ih]
    obtain ⟨hi, hhi, hlo⟩ := Option.bind_eq_some_iff.mp hvalue
    obtain ⟨lo, hlo, hbyte⟩ := Option.map_eq_some_iff.mp hlo
    rw [UInt8.ofNat_toNat] at hbyte
    simp [hhi, hlo, hbyte]

end AsciiText
