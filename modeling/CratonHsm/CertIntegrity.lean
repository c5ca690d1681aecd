import CratonHsm.AsciiText
import CratonHsm.Sha256

/-!
# Errors, hexadecimal texts and HMAC of the certified crate

`error.rs`, `hex_util.rs` and the part of `integrity.rs` that the signer of binaries and the test
vector runner stand on.
-/

namespace CratonHsm.Certified
open PrefixFreeCode AsciiText

/-- The variants of `CertError` in use. -/
inductive CertError where
  | keyTooShort (actual minimum : Nat)
  | hmacMismatch
  | hexDecode (message : String)
  | json
  | badEnvelope (message : String)
  | other (message : String)
  deriving DecidableEq

/-! ## Hexadecimal -/

/-- Bytes in hexadecimal. -/
def hexEncode (bytes : Bytes) : String := String.ofList (hexBytes bytes)

/-! ## HMAC -/

/-- HMAC-SHA256 for a key of any length: one that is longer than a block is hashed first. -/
def hmacSha256 (key msg : Bytes) : Bytes :=
  Sha256.hmac (if 64 < key.length then Sha256.hash key else key) msg

theorem length_hmacSha256 (key msg : Bytes) : (hmacSha256 key msg).length = 32 :=
  Sha256.hash_length _

def minHmacKeyBytes : Nat := 32

def hmacSha256TagLen : Nat := 32

/-- The parts are fed one after the other. -/
def computeHmacSha256Parts (key : Bytes) (parts : List Bytes) : Except CertError Bytes :=
  if key.length < minHmacKeyBytes then .error (.keyTooShort key.length minHmacKeyBytes)
  else .ok (hmacSha256 key parts.flatten)

/-- Two tags are compared, lengths first. -/
def constantTimeVerifyWithLenCheck (computed expected : Bytes) : Except CertError Unit :=
  if expected.length = hmacSha256TagLen then
    if computed = expected then .ok () else .error .hmacMismatch
  else .error .hmacMismatch

/-- The tag over the parts is computed and compared. -/
def verifyHmacSha256Parts (key : Bytes) (parts : List Bytes) (expected : Bytes) :
    Except CertError Unit :=
  match computeHmacSha256Parts key parts with
  | .error e => .error e
  | .ok computed => constantTimeVerifyWithLenCheck computed expected

/-- A tag is accepted if it is the one that is computed. -/
theorem verifyHmacSha256Parts_ok_iff {key : Bytes} {parts : List Bytes} {expected : Bytes} :
    verifyHmacSha256Parts key parts expected = .ok () ↔
      computeHmacSha256Parts key parts = .ok expected := by
  unfold verifyHmacSha256Parts computeHmacSha256Parts
  by_cases hkey : key.length < minHmacKeyBytes
  · rw [if_pos hkey]
    exact iff_of_false nofun nofun
  rw [if_neg hkey]
  dsimp only
  unfold constantTimeVerifyWithLenCheck
  constructor
  · intro h
    split at h
    · split at h
      · next hsame => rw [hsame]
      · cases h
    · cases h
  · intro h
    have hsame := Except.ok.inj h
    rw [if_pos (hsame ▸ length_hmacSha256 _ _), if_pos hsame]

end CratonHsm.Certified
