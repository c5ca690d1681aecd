import CratonHsm.AsciiText
import CratonHsm.LdapAuth

/-!
# DN values

What `escape_dn_value` writes, read as RFC 4514 says.  The escaper takes each byte of a UTF-8 text
for a character, so an ASCII text is read back and no other.
-/

namespace CratonHsm.Auth
open PrefixFreeCode AsciiText List

/-- The bytes of an attribute value of a DN (RFC 4514).  What has to be escaped is refused without
its backslash: a space or `#` at the beginning, a space at the end, these characters anywhere. -/
def readDnValue : Bool → List Char → Option Bytes
  | _, [] => some []
  | first, c :: rest =>
    if c = '\\' then
      match rest with
      | [] => none
      | d :: rest =>
        if d ∈ "\"+,;<>\\ #=".toList then (readDnValue false rest).map (utf8 [d] ++ ·)
        else
          match rest with
          | [] => none
          | e :: rest =>
            (decodeHexBytes (utf8 [d, e])).bind fun b => (readDnValue false rest).map (b ++ ·)
    else if c ∈ "\"+,;<>\x00".toList ∨ c = ' ' ∧ (first ∨ rest = []) ∨ c = '#' ∧ first then none
    else (readDnValue false rest).map (utf8 [c] ++ ·)

/-- `byte as char`. -/
def charOfByte (b : UInt8) : Char := Char.ofNat b.toNat

/-- A byte below 128 is written as itself, any other as two bytes. -/
theorem utf8_charOfByte_cases : ∀ n : Fin 256,
    if n.val < 128 then utf8 [Char.ofNat n.val] = [UInt8.ofNat n.val]
    else (utf8 [Char.ofNat n.val]).length = 2 := by
  decide +kernel

theorem utf8_charOfByte {b : UInt8} (h : b.toNat < 128) : utf8 [charOfByte b] = [b] := by
  have hcase := utf8_charOfByte_cases ⟨b.toNat, b.toNat_lt⟩
  rwa [if_pos h, UInt8.ofNat_toNat] at hcase

theorem length_utf8_charOfByte {b : UInt8} (h : ¬ b.toNat < 128) :
    (utf8 [charOfByte b]).length = 2 := by
  have hcase := utf8_charOfByte_cases ⟨b.toNat, b.toNat_lt⟩
  rwa [if_neg h] at hcase

theorem utf8_cons (c : Char) (text : List Char) : utf8 (c :: text) = utf8 [c] ++ utf8 text :=
  utf8_append [c] text

theorem length_le_utf8_charOfByte (bytes : Bytes) :
    bytes.length ≤ (utf8 (bytes.map charOfByte)).length := by
  induction bytes with
  | nil => exact Nat.zero_le _
  | cons b bytes ih =>
    have hone : 1 ≤ (utf8 [charOfByte b]).length := by
      by_cases h : b.toNat < 128
      · rw [utf8_charOfByte h, length_singleton]
      · rw [length_utf8_charOfByte h]
        decide
    rw [map_cons, utf8_cons, length_append, length_cons]
    omega

/-- Bytes taken for characters are these bytes again only if they are ASCII. -/
theorem utf8_charOfByte_eq_iff (bytes : Bytes) :
    utf8 (bytes.map charOfByte) = bytes ↔ ∀ b ∈ bytes, b.toNat < 128 := by
  induction bytes with
  | nil => exact ⟨fun _ _ hb => absurd hb not_mem_nil, fun _ => rfl⟩
  | cons b bytes ih =>
    rw [map_cons, utf8_cons, forall_mem_cons, ← ih]
    by_cases h : b.toNat < 128
    · rw [utf8_charOfByte h, singleton_append, cons.injEq]
      exact ⟨fun heq => ⟨h, heq.2⟩, fun heq => ⟨rfl, heq.2⟩⟩
    · refine ⟨fun heq => absurd (congrArg length heq) ?_, fun heq => absurd heq.1 h⟩
      have hrest := length_le_utf8_charOfByte bytes
      rw [length_append, length_utf8_charOfByte h, length_cons]
      omega

section Read
variable {rest : List Char} {first : Bool}

theorem readDnValue_escaped {d : Char} (hd : d ∈ "\"+,;<>\\ #=".toList) :
    readDnValue first ('\\' :: d :: rest) = (readDnValue false rest).map (utf8 [d] ++ ·) := by
  rw [readDnValue.eq_def]
  exact if_pos hd

theorem readDnValue_plain {c : Char} (hc : c ≠ '\\')
    (hplain : ¬ (c ∈ "\"+,;<>\x00".toList ∨ c = ' ' ∧ (first ∨ rest = []) ∨ c = '#' ∧ first)) :
    readDnValue first (c :: rest) = (readDnValue false rest).map (utf8 [c] ++ ·) := by
  rw [readDnValue.eq_def]
  dsimp only
  rw [if_neg hc, if_neg hplain]

/-- One byte is read back as the character it was taken for, wherever it stands. -/
theorem readDnValue_escapeDnByte {len i : Nat} {b : UInt8} (hlast : i ≠ len - 1 → rest ≠ []) :
    readDnValue (i = 0) (escapeDnByte len i b ++ rest) =
      (readDnValue false rest).map (utf8 [charOfByte b] ++ ·) := by
  have hescaped : ∀ c, c ∈ "\"+,;<>\\ #=".toList →
      readDnValue (i = 0) (['\\', c] ++ rest) = (readDnValue false rest).map (utf8 [c] ++ ·) :=
    fun c hmem => readDnValue_escaped hmem
  unfold escapeDnByte charOfByte
  generalize Char.ofNat b.toNat = c
  dsimp only
  split
  case h_8 =>
    show readDnValue _ ('\\' :: '0' :: '0' :: rest) = _
    rw [readDnValue, if_pos rfl]
    rfl
  case h_9 =>
    split
    · exact hescaped _ (by decide)
    next hmiddle =>
    rw [not_or] at hmiddle
    rw [singleton_append, readDnValue_plain (by decide)]
    simp [hmiddle.1, hlast hmiddle.2]
  case h_10 =>
    split
    · exact hescaped _ (by decide)
    next hlater =>
    rw [singleton_append, readDnValue_plain (by decide)]
    simp [hlater]
  case h_11 =>
    rw [singleton_append, readDnValue_plain ‹_›]
    simp only [String.reduceToList, mem_cons, not_mem_nil]
    tauto
  all_goals exact hescaped _ (by decide)

theorem escapeDnByte_ne_nil (len i : Nat) (b : UInt8) : escapeDnByte len i b ≠ [] := by
  unfold escapeDnByte
  dsimp only
  split <;> first | exact cons_ne_nil _ _ | (split <;> exact cons_ne_nil _ _)

theorem readDnValue_escapes {bytes : Bytes} {len i : Nat} (hlen : i + bytes.length = len) :
    readDnValue (i = 0) ((bytes.zipIdx i).flatMap fun (b, i) => escapeDnByte len i b) =
      some (utf8 (bytes.map charOfByte)) := by
  induction bytes generalizing i with
  | nil => rfl
  | cons b bytes ih =>
    rw [length_cons] at hlen
    have hrest := ih (i := i + 1) (by omega)
    rw [decide_eq_false (Nat.succ_ne_zero i)] at hrest
    rw [zipIdx_cons, flatMap_cons, readDnValue_escapeDnByte, hrest, map_cons,
      utf8_cons (charOfByte b) (bytes.map charOfByte)]
    · rfl
    · intro hi
      cases bytes with
      | nil => exact absurd (by simp at hlen; omega) hi
      | cons c bytes =>
        rw [zipIdx_cons, flatMap_cons]
        exact append_ne_nil_of_left_ne_nil (escapeDnByte_ne_nil _ _ c) _

end Read

/-- The escaped value stands for the text. -/
def DnFaithful (u : String) : Prop := readDnValue true (escapeDnValue u) = some (asBytes u)

/-- **DN escaping is faithful** exactly for ASCII text. -/
theorem dnFaithful_iff_ascii (u : String) : DnFaithful u ↔ ∀ b ∈ asBytes u, b.toNat < 128 := by
  have hread : readDnValue true (escapeDnValue u) = some (utf8 ((asBytes u).map charOfByte)) :=
    readDnValue_escapes (Nat.zero_add _)
  rw [DnFaithful, hread, Option.some.injEq]
  exact utf8_charOfByte_eq_iff (asBytes u)

theorem dnFaithful_specials : DnFaithful " a,\\#=\x00 " :=
  (dnFaithful_iff_ascii _).mpr (by decide +kernel)

/-- The two bytes of `é` become two characters. -/
theorem dn_of_accented_name : ¬ DnFaithful "é" := by
  unfold DnFaithful
  decide +kernel

end CratonHsm.Auth
