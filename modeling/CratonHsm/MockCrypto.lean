import CratonHsm.Base64
import CratonHsm.ByteFields
import CratonHsm.JsonText
import CratonHsm.Sha256

/-!
# Mock cryptography of the cloud shims

`mock_crypto.rs`: HMAC behind a label, sub-keys by the expansion half of HKDF, and a stream cipher
that is one HMAC for each block of 32 bytes.  The cipher is its own inverse (`xorStream_xorStream`).
Secrets have 32 bytes, so HMAC needs no hashing of its key.

The texts and random draws of the requests are here as well: requests take base64 texts and limit
their length in bytes.
-/

namespace CratonHsm.Cloud
open PrefixFreeCode AsciiText List Option

/-- A text as its characters. -/
abbrev Text := List Char

/-- The number of bytes of a text. -/
def byteLen (text : Text) : Nat := (utf8 text).length

theorem byteLen_of_ascii {t : Text} (h : Ascii t) : byteLen t = t.length := by
  rw [byteLen, utf8_of_ascii h, length_map]

theorem ascii_encode (bytes : Bytes) : Ascii (Base64.encode bytes) :=
  fun _ hc => (Base64.spec_of_mem_encode hc).2.1

theorem all_isBase64_encode (bytes : Bytes) : (Base64.encode bytes).all Base64.isBase64 = true :=
  all_eq_true.mpr fun _ hc => (Base64.spec_of_mem_encode hc).1

theorem byteLen_append (s t : Text) : byteLen (s ++ t) = byteLen s + byteLen t := by
  rw [byteLen, utf8_append, length_append]
  rfl

/-- JSON values for the responses. -/
def text (s : String) : JsonText.Json := .string s.toList

def number (n : Nat) : JsonText.Json := .number (Nat.toDigits 10 n)

/-- What a request draws: the nonce of a ciphertext, and other bytes by their number. -/
structure Draws where
  nonce : Bytes
  length_nonce : nonce.length = 12
  fresh : Nat → Bytes
  length_fresh : ∀ n, (fresh n).length = n

theorem bind_eq_ok {ε α β : Type} {x : Except ε α} {f : α → Except ε β} {v : β} :
    (x >>= f) = .ok v ↔ ∃ a, x = .ok a ∧ f a = .ok v := by
  cases x with
  | error | ok => simp [bind, Except.bind]

/-! ## Primitives -/

/-- `HMAC(secret, label ‖ 0x00 ‖ message)`. -/
def hmacSign (secret label message : Bytes) : Bytes :=
  Sha256.hmac secret (label ++ [0x00] ++ message)

theorem length_hmacSign (secret label message : Bytes) :
    (hmacSign secret label message).length = 32 :=
  Sha256.hash_length _

/-- The first block of HKDF-Expand, which is all of 32 bytes. -/
def subkey (master label : Bytes) : Bytes := Sha256.hmac master (label ++ [0x01])

/-- The keystream of one block. -/
def streamBlock (secret nonce : Bytes) (counter : Nat) : Bytes :=
  Sha256.hmac secret (nonce ++ bigEndian 8 counter)

theorem length_streamBlock (secret nonce : Bytes) (counter : Nat) :
    (streamBlock secret nonce counter).length = 32 :=
  Sha256.hash_length _

/-- The blocks from a counter on; the counter is checked after each block. -/
def xorFrom (secret nonce : Bytes) (counter : Nat) (data : Bytes) : Option Bytes :=
  if data = [] then some []
  else
    let out := List.zipWith (· ^^^ ·) (data.take 32) (streamBlock secret nonce counter)
    if counter + 1 < 2 ^ 64 then
      (xorFrom secret nonce (counter + 1) (data.drop 32)).map (out ++ ·)
    else none
termination_by data.length
decreasing_by
  rename_i hdata _
  have hpos := length_pos_iff.mpr hdata
  rw [length_drop]
  omega

/-- Encryption and decryption with the key stream. -/
def xorStream (secret nonce data : Bytes) : Option Bytes := xorFrom secret nonce 0 data

/-! ## The cipher is its own inverse -/

variable {data secret nonce out : Bytes}

theorem zipWith_xor_zipWith_xor {block : Bytes} (h : data.length ≤ block.length) :
    List.zipWith (· ^^^ ·) (List.zipWith (· ^^^ ·) data block) block = data := by
  induction data generalizing block with
  | nil => rw [zipWith_nil_left, zipWith_nil_left]
  | cons d data ih =>
    cases block with
    | nil => exact absurd h (by simp)
    | cons k block =>
      have hrest : data.length ≤ block.length := Nat.le_of_succ_le_succ h
      rw [zipWith_cons_cons, zipWith_cons_cons, ih hrest, UInt8.xor_assoc,
        UInt8.xor_self, UInt8.xor_zero]

theorem xorFrom_involutive {counter : Nat} (h : xorFrom secret nonce counter data = some out) :
    out.length = data.length ∧ xorFrom secret nonce counter out = some data := by
  induction hn : data.length using Nat.strong_induction_on generalizing counter data out with
  | _ n ih =>
    subst hn
    rw [xorFrom] at h
    split at h
    · next hnil =>
      obtain rfl := some.inj h
      subst hnil
      refine ⟨rfl, ?_⟩
      rw [xorFrom, if_pos rfl]
    next hdata =>
    have hpos := length_pos_iff.mpr hdata
    dsimp only at h
    split at h
    next hcounter =>
      obtain ⟨rest, hrest, rfl⟩ := map_eq_some_iff.mp h
      have hdrop : (data.drop 32).length = data.length - 32 := length_drop
      obtain ⟨hlength, hback⟩ := ih _ (by omega) hrest rfl
      generalize hblock : List.zipWith (· ^^^ ·) (data.take 32) (streamBlock secret nonce counter) =
        block at *
      have hblockLen : block.length = min 32 data.length := by
        rw [← hblock, length_zipWith, length_streamBlock, length_take]
        omega
      -- a block that is not full is the last one
      have hsplit : (block ++ rest).take 32 = block ∧ (block ++ rest).drop 32 = rest := by
        by_cases hfull : 32 ≤ data.length
        · have hlen : block.length = 32 := by omega
          exact ⟨take_left' hlen, drop_left' hlen⟩
        · have hnone : rest = [] := eq_nil_of_length_eq_zero (by omega)
          rw [hnone, append_nil]
          exact ⟨take_of_length_le (by omega), drop_eq_nil_of_le (by omega)⟩
      have hne : block ++ rest ≠ [] := by
        apply ne_nil_of_length_pos
        rw [length_append]
        omega
      refine ⟨by rw [length_append]; omega, ?_⟩
      have hundo : List.zipWith (· ^^^ ·) block (streamBlock secret nonce counter) =
          data.take 32 := by
        rw [← hblock]
        apply zipWith_xor_zipWith_xor
        rw [length_streamBlock, length_take]
        omega
      rw [xorFrom, if_neg hne]
      dsimp only
      rw [if_pos hcounter, hsplit.1, hsplit.2, hback, map_some, hundo,
        take_append_drop]
    · cases h

/-- **Encrypting twice gives the data back.** -/
theorem xorStream_xorStream (h : xorStream secret nonce data = some out) :
    xorStream secret nonce out = some data :=
  (xorFrom_involutive h).2

/-- The counter does not run out on data that fits the memory. -/
theorem xorFrom_some {counter : Nat} (h : counter + data.length < 2 ^ 64) :
    ∃ out, xorFrom secret nonce counter data = some out := by
  induction hn : data.length using Nat.strong_induction_on generalizing counter data with
  | _ n ih =>
    subst hn
    rw [xorFrom]
    by_cases hdata : data = []
    · exact ⟨[], if_pos hdata⟩
    have hpos := length_pos_iff.mpr hdata
    have hdrop : (data.drop 32).length = data.length - 32 := length_drop
    obtain ⟨rest, hrest⟩ := ih _ (by omega) (show counter + 1 + (data.drop 32).length < 2 ^ 64 by
      omega) rfl
    rw [if_neg hdata]
    dsimp only
    rw [if_pos (by omega), hrest]
    exact ⟨_, rfl⟩

end CratonHsm.Cloud
