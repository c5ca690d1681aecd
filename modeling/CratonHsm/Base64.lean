import CratonHsm.AsciiText

/-!
# Base64

The standard alphabet with padding: three bytes are four digits of six bits.  The decoder takes
digits as they come, keeps the bits that do not fill a byte yet, stops at a padding character and
refuses everything else.  What the encoder writes is read back (`decode_encode`).
-/

namespace Base64
open PrefixFreeCode Option

/-- The standard alphabet. -/
def alphabet : List Char :=
  "ABCDEFGHIJKLMNOPQRSTUVWXYZabcdefghijklmnopqrstuvwxyz0123456789+/".toList

/-- The character for six bits. -/
def digit (n : Nat) : Char := alphabet.getD n 'A'

/-- The six bits of a character. -/
def value (c : Char) : Option Nat :=
  if 'A' ≤ c ∧ c ≤ 'Z' then some (c.toNat - 65)
  else if 'a' ≤ c ∧ c ≤ 'z' then some (c.toNat - 97 + 26)
  else if '0' ≤ c ∧ c ≤ '9' then some (c.toNat - 48 + 52)
  else if c = '+' then some 62
  else if c = '/' then some 63
  else none

/-- The six-bit groups of the bytes; a shorter last group is padded. -/
def encode : Bytes → List Char
  | [] => []
  | [a] => [digit (a.toNat / 4), digit (a.toNat % 4 * 16), '=', '=']
  | [a, b] =>
    [digit (a.toNat / 4), digit (a.toNat % 4 * 16 + b.toNat / 16), digit (b.toNat % 16 * 4), '=']
  | a :: b :: c :: rest =>
    digit (a.toNat / 4) :: digit (a.toNat % 4 * 16 + b.toNat / 16) ::
      digit (b.toNat % 16 * 4 + c.toNat / 64) :: digit (c.toNat % 64) :: encode rest

/-- `buf` holds the `bits` bits that are not given out yet. -/
def decodeFrom (buf bits : Nat) : List Char → Option Bytes
  | [] => some []
  | c :: rest =>
    if c = '=' then some []
    else
      match value c with
      | none => none
      | some v =>
        if 8 ≤ bits + 6 then
          (decodeFrom ((buf * 64 + v) % 2 ^ (bits - 2)) (bits - 2) rest).map
            (UInt8.ofNat ((buf * 64 + v) / 2 ^ (bits - 2)) :: ·)
        else decodeFrom (buf * 64 + v) (bits + 6) rest

/-- The bytes of a text with padding. -/
def decode (text : List Char) : Option Bytes := decodeFrom 0 0 text

/-- A character of the alphabet, or padding. -/
def isBase64 (c : Char) : Bool :=
  ('A' ≤ c && c ≤ 'Z') || ('a' ≤ c && c ≤ 'z') || ('0' ≤ c && c ≤ '9') || c = '+' || c = '/' ||
    c = '='

theorem digit_spec : ∀ n : Fin 64,
    value (digit n.val) = some n.val ∧ digit n.val ≠ '=' ∧ isBase64 (digit n.val) = true ∧
      (digit n.val).toNat < 128 ∧ digit n.val ≠ ':' := by
  decide +kernel

/-- A digit that does not fill a byte. -/
theorem decodeFrom_digit_short (n : Nat) (hn : n < 64) (buf : Nat) (rest : List Char) :
    decodeFrom buf 0 (digit n :: rest) = decodeFrom (buf * 64 + n) 6 rest := by
  obtain ⟨hvalue, hpad, _⟩ := digit_spec ⟨n, hn⟩
  rw [decodeFrom, if_neg hpad, hvalue]
  dsimp only
  rw [if_neg (by omega)]

/-- A digit that fills a byte. -/
theorem decodeFrom_digit (n : Nat) (hn : n < 64) {buf bits : Nat} (hbits : 2 ≤ bits)
    (rest : List Char) :
    decodeFrom buf bits (digit n :: rest) =
      (decodeFrom ((buf * 64 + n) % 2 ^ (bits - 2)) (bits - 2) rest).map
        (UInt8.ofNat ((buf * 64 + n) / 2 ^ (bits - 2)) :: ·) := by
  obtain ⟨hvalue, hpad, _⟩ := digit_spec ⟨n, hn⟩
  rw [decodeFrom, if_neg hpad, hvalue]
  dsimp only
  rw [if_pos (by omega)]

theorem ofNat_eq {n : Nat} {b : UInt8} (h : n = b.toNat) : UInt8.ofNat n = b := by
  rw [h, UInt8.ofNat_toNat]

theorem decodeFrom_pad (buf bits : Nat) (rest : List Char) :
    decodeFrom buf bits ('=' :: rest) = some [] := by
  rw [decodeFrom, if_pos rfl]

/-- **Bytes are read back.** -/
theorem decode_encode (bytes : Bytes) : decode (encode bytes) = some bytes := by
  unfold decode
  induction bytes using encode.induct with
  | case1 => rfl
  | case2 a =>
    have ha := a.toNat_lt
    rw [encode, decodeFrom_digit_short _ (by omega), decodeFrom_digit _ (by omega) (by omega),
      decodeFrom_pad, map_some]
    exact congrArg (fun x => some [x]) (ofNat_eq (by omega))
  | case3 a b =>
    have ha := a.toNat_lt
    have hb := b.toNat_lt
    rw [encode, decodeFrom_digit_short _ (by omega), decodeFrom_digit _ (by omega) (by omega),
      decodeFrom_digit _ (by omega) (by omega), decodeFrom_pad, map_some, map_some]
    simp only [some.injEq, List.cons.injEq, and_true]
    exact ⟨ofNat_eq (by omega), ofNat_eq (by omega)⟩
  | case4 a b c rest ih =>
    have ha := a.toNat_lt
    have hb := b.toNat_lt
    have hc := c.toNat_lt
    rw [encode, decodeFrom_digit_short _ (by omega), decodeFrom_digit _ (by omega) (by omega),
      decodeFrom_digit _ (by omega) (by omega), decodeFrom_digit _ (by omega) (by omega)]
    have hnone : ((((0 * 64 + a.toNat / 4) * 64 + (a.toNat % 4 * 16 + b.toNat / 16)) %
        2 ^ (6 - 2) * 64 + (b.toNat % 16 * 4 + c.toNat / 64)) % 2 ^ (6 - 2 - 2) * 64 +
        c.toNat % 64) % 2 ^ (6 - 2 - 2 - 2) = 0 := by omega
    rw [hnone, ih, map_some, map_some, map_some]
    simp only [some.injEq, List.cons.injEq, and_true]
    exact ⟨ofNat_eq (by omega), ofNat_eq (by omega), ofNat_eq (by omega)⟩

theorem length_encode (bytes : Bytes) : (encode bytes).length = 4 * ((bytes.length + 2) / 3) := by
  induction bytes using encode.induct with
  | case1 => rfl
  | case2 | case3 => simp [encode]
  | case4 a b c rest ih =>
    rw [encode]
    simp only [List.length_cons, ih]
    omega

theorem spec_of_mem_encode {bytes : Bytes} {c : Char} (h : c ∈ encode bytes) :
    isBase64 c = true ∧ c.toNat < 128 ∧ c ≠ ':' := by
  revert c
  have hdigit : ∀ n, n < 64 → isBase64 (digit n) = true ∧ (digit n).toNat < 128 ∧ digit n ≠ ':' :=
    fun n hn => (digit_spec ⟨n, hn⟩).2.2
  have hpad : isBase64 '=' = true ∧ '='.toNat < 128 ∧ '=' ≠ ':' := by decide
  induction bytes using encode.induct with
  | case1 => exact nofun
  | case2 a =>
    have ha := a.toNat_lt
    simp only [encode, List.forall_mem_cons]
    exact ⟨hdigit _ (by omega), hdigit _ (by omega), hpad, hpad, nofun⟩
  | case3 a b =>
    have ha := a.toNat_lt
    have hb := b.toNat_lt
    simp only [encode, List.forall_mem_cons]
    exact ⟨hdigit _ (by omega), hdigit _ (by omega), hdigit _ (by omega), hpad, nofun⟩
  | case4 a b c rest ih =>
    have ha := a.toNat_lt
    have hb := b.toNat_lt
    have hc := c.toNat_lt
    simp only [encode, List.forall_mem_cons]
    exact ⟨hdigit _ (by omega), hdigit _ (by omega), hdigit _ (by omega), hdigit _ (by omega), @ih⟩

end Base64
