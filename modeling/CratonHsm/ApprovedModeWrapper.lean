import CratonHsm.ApprovedMode
import CratonHsm.ByteFields

/-!
# The approved-mode wrapper

`approved_mode_wrapper.rs`: a backend in front of another one, which checks a mechanism name
against the policy before it passes a call on.  The name is fixed by the entry point, and for
AES and key generation by the size that the call gives.  For RSA with a key the wrapper does not
look at the key: it asks for `RSA-2048` in all of them.  So the policy's minimum decides whether
any RSA key can be used, and not which.
-/

namespace CratonHsm.Certified
open PrefixFreeCode

/-! ## Calls of a backend -/

/-- The hashes that a caller can name. -/
inductive HashAlg where
  | sha256
  | sha384
  | sha512

/-- The gated entry points of `CryptoBackend`, with their arguments. -/
inductive BackendCall where
  | rsaPkcs1v15Sign (privateKeyDer data : Bytes) (hashAlg : Option HashAlg)
  | rsaPkcs1v15Verify (modulus publicExponent data signature : Bytes) (hashAlg : Option HashAlg)
  | rsaPssSign (privateKeyDer data : Bytes) (hashAlg : HashAlg)
  | rsaPssVerify (modulus publicExponent data signature : Bytes) (hashAlg : HashAlg)
  | ecdsaP256Sign (privateKeyBytes data : Bytes)
  | ecdsaP256Verify (publicKeySec1 data signatureDer : Bytes)
  | ecdsaP384Sign (privateKeyBytes data : Bytes)
  | ecdsaP384Verify (publicKeySec1 data signatureDer : Bytes)
  | ed25519Sign (privateKeyBytes data : Bytes)
  | ed25519Verify (publicKeyBytes data signatureBytes : Bytes)
  | rsaPkcs1v15SignPrehashed (privateKeyDer digest : Bytes) (hashAlg : HashAlg)
  | rsaPkcs1v15VerifyPrehashed (modulus publicExponent digest signature : Bytes) (hashAlg : HashAlg)
  | rsaPssSignPrehashed (privateKeyDer digest : Bytes) (hashAlg : HashAlg)
  | rsaPssVerifyPrehashed (modulus publicExponent digest signature : Bytes) (hashAlg : HashAlg)
  | ecdsaP256SignPrehashed (privateKeyBytes digest : Bytes)
  | ecdsaP256VerifyPrehashed (publicKeySec1 digest signatureDer : Bytes)
  | ecdsaP384SignPrehashed (privateKeyBytes digest : Bytes)
  | ecdsaP384VerifyPrehashed (publicKeySec1 digest signatureDer : Bytes)
  | aes256GcmEncrypt (key plaintext : Bytes)
  | aes256GcmDecrypt (key data : Bytes)
  | aesCbcEncrypt (key iv plaintext : Bytes)
  | aesCbcDecrypt (key iv ciphertext : Bytes)
  | aesCtrEncrypt (key iv plaintext : Bytes)
  | aesCtrDecrypt (key iv ciphertext : Bytes)
  | rsaOaepEncrypt (modulus publicExponent plaintext : Bytes) (hashAlg : HashAlg)
  | rsaOaepDecrypt (privateKeyDer ciphertext : Bytes) (hashAlg : HashAlg)
  | generateAesKey (keyLenBytes : Nat) (fipsMode : Bool)
  | generateRsaKeyPair (modulusBits : UInt32) (fipsMode : Bool)
  | generateEcP256KeyPair
  | generateEcP384KeyPair
  | generateEd25519KeyPair
  | computeDigest (mechanism : UInt64) (data : Bytes)
  | createHasher (mechanism : UInt64)
  | aesKeyWrap (wrappingKey keyToWrap : Bytes) (fipsMode : Bool)
  | aesKeyUnwrap (wrappingKey wrappedKey : Bytes) (fipsMode : Bool)
  | ecdhP256 (privateKeyBytes peerPublicKeySec1 : Bytes) (okmLen : Option Nat)
  | ecdhP384 (privateKeyBytes peerPublicKeySec1 : Bytes) (okmLen : Option Nat)

/-- `HsmError::MechanismInvalid`, and the other errors of a backend by their code. -/
inductive CryptoError where
  | mechanismInvalid
  | other (code : UInt64)

/-- A backend with a state of its own; what its calls return is left open. -/
structure CryptoBackend (S R : Type) where
  call : BackendCall → S → Except CryptoError R × S

/-- The mechanism name for an AES key of the given number of bytes. -/
def aesMechanism : Nat → Except CryptoError (Option (List Char))
  | 16 => .ok (some "AES-128".toList)
  | 24 => .ok (some "AES-192".toList)
  | 32 => .ok (some "AES-256".toList)
  | _ => .error .mechanismInvalid

/-- `digest_mech_name`, on `CKM_SHA256`, `CKM_SHA384` and `CKM_SHA512`. -/
def digestMechName (mech : UInt64) : Option (List Char) :=
  if mech = 0x250 then some "SHA-256".toList
  else if mech = 0x260 then some "SHA-384".toList
  else if mech = 0x270 then some "SHA-512".toList
  else none

/-- The mechanism name that the wrapper's entry point asks for, if it asks; an AES key of another
size is refused at once. -/
def BackendCall.mechanism : BackendCall → Except CryptoError (Option (List Char))
  | .rsaPkcs1v15Sign .. => .ok (some "RSA-2048".toList)
  | .rsaPkcs1v15Verify .. => .ok (some "RSA-2048".toList)
  | .rsaPssSign .. => .ok (some "RSA-2048".toList)
  | .rsaPssVerify .. => .ok (some "RSA-2048".toList)
  | .ecdsaP256Sign .. => .ok (some "ECDSA-P256".toList)
  | .ecdsaP256Verify .. => .ok (some "ECDSA-P256".toList)
  | .ecdsaP384Sign .. => .ok (some "ECDSA-P384".toList)
  | .ecdsaP384Verify .. => .ok (some "ECDSA-P384".toList)
  | .ed25519Sign .. => .ok (some "Ed25519".toList)
  | .ed25519Verify .. => .ok (some "Ed25519".toList)
  | .rsaPkcs1v15SignPrehashed .. => .ok (some "RSA-2048-PREHASHED".toList)
  | .rsaPkcs1v15VerifyPrehashed .. => .ok (some "RSA-2048-PREHASHED".toList)
  | .rsaPssSignPrehashed .. => .ok (some "RSA-2048-PREHASHED".toList)
  | .rsaPssVerifyPrehashed .. => .ok (some "RSA-2048-PREHASHED".toList)
  | .ecdsaP256SignPrehashed .. => .ok (some "ECDSA-P256-PREHASHED".toList)
  | .ecdsaP256VerifyPrehashed .. => .ok (some "ECDSA-P256-PREHASHED".toList)
  | .ecdsaP384SignPrehashed .. => .ok (some "ECDSA-P384-PREHASHED".toList)
  | .ecdsaP384VerifyPrehashed .. => .ok (some "ECDSA-P384-PREHASHED".toList)
  | .aes256GcmEncrypt .. => .ok (some "AES-256".toList)
  | .aes256GcmDecrypt .. => .ok (some "AES-256".toList)
  | .aesCbcEncrypt key _ _ => aesMechanism key.length
  | .aesCbcDecrypt key _ _ => aesMechanism key.length
  | .aesCtrEncrypt key _ _ => aesMechanism key.length
  | .aesCtrDecrypt key _ _ => aesMechanism key.length
  | .rsaOaepEncrypt .. => .ok (some "RSA-2048".toList)
  | .rsaOaepDecrypt .. => .ok (some "RSA-2048".toList)
  | .generateAesKey keyLenBytes _ => aesMechanism keyLenBytes
  | .generateRsaKeyPair modulusBits _ => .ok (some (rsaName modulusBits.toNat))
  | .generateEcP256KeyPair => .ok (some "ECDSA-P256".toList)
  | .generateEcP384KeyPair => .ok (some "ECDSA-P384".toList)
  | .generateEd25519KeyPair => .ok (some "Ed25519".toList)
  | .computeDigest mechanism _ => .ok (digestMechName mechanism)
  | .createHasher mechanism => .ok (digestMechName mechanism)
  | .aesKeyWrap wrappingKey _ _ => aesMechanism wrappingKey.length
  | .aesKeyUnwrap wrappingKey _ _ => aesMechanism wrappingKey.length
  | .ecdhP256 .. => .ok (some "ECDSA-P256".toList)
  | .ecdhP384 .. => .ok (some "ECDSA-P384".toList)

/-! ## The wrapper -/

/-- A backend behind the policy. -/
structure ApprovedModeBackend (S R : Type) where
  inner : CryptoBackend S R
  config : ApprovedModeConfig

section Wrapper
variable [CaseMapping] {S R : Type}

/-- The policy is asked before the backend. -/
def ApprovedModeBackend.gate (b : ApprovedModeBackend S R) (mechanism : List Char) :
    Except CryptoError Unit :=
  (checkMechanismApproved mechanism b.config).mapError fun _ => .mechanismInvalid

/-- Every entry point: the gate, and then the inner backend. -/
def ApprovedModeBackend.call (b : ApprovedModeBackend S R) (c : BackendCall) (s : S) :
    Except CryptoError R × S :=
  match c.mechanism with
  | .error e => (.error e, s)
  | .ok none => b.inner.call c s
  | .ok (some name) =>
    match b.gate name with
    | .error e => (.error e, s)
    | .ok () => b.inner.call c s

/-- A backend that writes down the calls it gets. -/
def CryptoBackend.recording (inner : CryptoBackend S R) :
    CryptoBackend (S × List BackendCall) R where
  call c s := ((inner.call c s.1).1, (inner.call c s.1).2, s.2 ++ [c])

/-- The calls that reach the inner backend when the wrapper is called. -/
def received (inner : CryptoBackend S R) (config : ApprovedModeConfig) (c : BackendCall) (s : S) :
    List BackendCall :=
  ((ApprovedModeBackend.mk inner.recording config).call c (s, [])).2.2

/-- The call reaches the inner backend, as it is. -/
def Reaches (inner : CryptoBackend S R) (config : ApprovedModeConfig) (c : BackendCall) (s : S) :
    Prop := received inner config c s = [c]

variable {inner : CryptoBackend S R} {config : ApprovedModeConfig} {c : BackendCall} {s : S}

/-- **A call reaches the inner backend if its mechanism is approved**, and nothing does
otherwise. -/
theorem reaches_iff {name : List Char} (hname : c.mechanism = .ok (some name)) :
    Reaches inner config c s ↔ isAlgorithmApproved name config = true := by
  unfold Reaches received ApprovedModeBackend.call ApprovedModeBackend.gate
  rw [hname, ← checkMechanismApproved_ok_iff]
  dsimp only
  cases hcheck : checkMechanismApproved name config with
  | error e => simp [Except.mapError]
  | ok u => simp [Except.mapError, CryptoBackend.recording]

end Wrapper

/-! ## RSA keys -/

/-- The number of bits of a modulus. -/
def bitLength (n : Nat) : Nat := if n = 0 then 0 else n.log2 + 1

/-- The number of modulus bits of the key of an RSA call that is not for a digest; `derBits`
reads it out of a private key. -/
def BackendCall.rsaKeyBits (derBits : Bytes → Option Nat) : BackendCall → Option Nat
  | .rsaPkcs1v15Sign privateKeyDer _ _ => derBits privateKeyDer
  | .rsaPkcs1v15Verify modulus _ _ _ _ => some (bitLength (ofBigEndian modulus))
  | .rsaPssSign privateKeyDer _ _ => derBits privateKeyDer
  | .rsaPssVerify modulus _ _ _ _ => some (bitLength (ofBigEndian modulus))
  | .rsaOaepEncrypt modulus _ _ _ => some (bitLength (ofBigEndian modulus))
  | .rsaOaepDecrypt privateKeyDer _ _ => derBits privateKeyDer
  | _ => none

theorem mechanism_of_rsaKeyBits {derBits : Bytes → Option Nat} {c : BackendCall} {b : Nat}
    (h : c.rsaKeyBits derBits = some b) : c.mechanism = .ok (some (rsaName 2048)) := by
  cases c with
  | rsaPkcs1v15Sign | rsaPkcs1v15Verify | rsaPssSign | rsaPssVerify | rsaOaepEncrypt
  | rsaOaepDecrypt => rfl
  | _ => cases h

section Policy
variable [CaseMapping] {S R : Type}

/-- **The policy applies to the key** exactly where the configured minimum is 2048 and the policy
approves the key, or the minimum is larger and the policy does not.  Key generation follows the
policy always. -/
theorem rsa_policy_iff (config : ApprovedModeConfig) (hvalid : validateConfig config = .ok ())
    (inner : CryptoBackend S R) (derBits : Bytes → Option Nat) (c : BackendCall) (b : Nat)
    (hbits : c.rsaKeyBits derBits = some b) (s : S) :
    ((Reaches inner config c s ↔ isAlgorithmApproved (rsaName b) config = true) ↔
      config.minRsaKeyBits = 2048 ∧ 2048 ≤ b ∧ b < 2 ^ 32 ∨
      config.minRsaKeyBits ≠ 2048 ∧ (b < config.minRsaKeyBits.toNat ∨ 2 ^ 32 ≤ b)) ∧
    ∀ (bits : UInt32) (fipsMode : Bool),
      Reaches inner config (.generateRsaKeyPair bits fipsMode) s ↔
      isAlgorithmApproved (rsaName bits.toNat) config = true := by
  refine ⟨?_, fun bits fipsMode => reaches_iff rfl⟩
  obtain ⟨hlow, _⟩ := minRsaKeyBits_of_validateConfig hvalid
  have hsize : (2048 : UInt32).toNat = 2048 := rfl
  rw [reaches_iff (mechanism_of_rsaKeyBits hbits), isAlgorithmApproved_rsaName,
    isAlgorithmApproved_rsaName]
  by_cases hmin : config.minRsaKeyBits = 2048
  · simp only [hmin, hsize, true_and, ne_eq, not_true_eq_false, false_and, or_false]
    omega
  · have hmore : config.minRsaKeyBits.toNat ≠ 2048 := fun heq =>
      hmin (UInt32.toNat_inj.mp (heq.trans hsize.symm))
    simp only [hmin, false_and, false_or, ne_eq, not_false_eq_true, true_and]
    omega

end Policy

section Samples

attribute [local instance] plainCase

/-- An inner backend that accepts everything. -/
def acceptingBackend : CryptoBackend Unit Unit where
  call _ s := (.ok (), s)

theorem rsa_policy_iff_3072 :
    Reaches acceptingBackend defaultFipsConfig (.rsaPssSign [1] [2] .sha256) () ↔
      isAlgorithmApproved (rsaName 3072) defaultFipsConfig = true :=
  (rsa_policy_iff defaultFipsConfig (by decide) acceptingBackend (fun _ => some 3072)
    (.rsaPssSign [1] [2] .sha256) 3072 rfl ()).1.mpr (.inl (by decide))

/-- A verification with a modulus of 1024 bits. -/
def shortKeyCall : BackendCall :=
  .rsaPkcs1v15Verify (List.replicate 128 0x80) [1, 0, 1] [] [] (some .sha256)

/-- A verification with a modulus of 4096 bits. -/
def longKeyCall : BackendCall :=
  .rsaPkcs1v15Verify (List.replicate 512 0x80) [1, 0, 1] [] [] (some .sha256)

/-- The default policy with a minimum of 3072 bits. -/
def strictConfig : ApprovedModeConfig := { defaultFipsConfig with minRsaKeyBits := 3072 }

/-- **The wrapper errs in both directions**: under the default policy a key of 1024 bits is used,
and under a minimum of 3072 bits a key of 4096 bits is refused. -/
theorem rsa_gate_ignores_key :
    validateConfig defaultFipsConfig = .ok () ∧
    shortKeyCall.rsaKeyBits (fun _ => none) = some 1024 ∧
    Reaches acceptingBackend defaultFipsConfig shortKeyCall () ∧
    isAlgorithmApproved (rsaName 1024) defaultFipsConfig = false ∧
    validateConfig strictConfig = .ok () ∧
    longKeyCall.rsaKeyBits (fun _ => none) = some 4096 ∧
    ¬ Reaches acceptingBackend strictConfig longKeyCall () ∧
    isAlgorithmApproved (rsaName 4096) strictConfig = true := by
  have happroved : isAlgorithmApproved (rsaName 2048) defaultFipsConfig = true := by
    rw [isAlgorithmApproved_rsaName]
    decide
  have hrefused : ¬ isAlgorithmApproved (rsaName 2048) strictConfig = true := by
    rw [isAlgorithmApproved_rsaName]
    decide
  refine ⟨by decide, by decide +kernel, ?_, ?_, by decide, by decide +kernel, ?_, ?_⟩
  · exact (reaches_iff rfl).mpr happroved
  · rw [← Bool.not_eq_true, isAlgorithmApproved_rsaName]
    decide
  · exact fun hreaches => hrefused ((reaches_iff rfl).mp hreaches)
  · rw [isAlgorithmApproved_rsaName]
    decide

end Samples

end CratonHsm.Certified
