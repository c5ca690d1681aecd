import CratonHsm.GuardedRun
import CratonHsm.MockCrypto
import CratonHsm.OrderedMaps

/-!
# The Vault transit backend

`vault_plugin.rs`: named keys with a growing list of versions, and requests on them.  A ciphertext
is `vault:v<version>:<base64>`, and what is inside is a nonce, the context, the encrypted bytes and
a tag.  A configuration has two floors: versions below the first one are not to be opened any more,
and below the second one not to be used for encryption.  `Encrypt` and `Decrypt` look at them;
`Rewrap` and `DataKey` do not.

A request is one step.  What it draws at random comes with it.
-/

namespace CratonHsm.Cloud
open PrefixFreeCode AsciiText GuardedRun Std List

/-! ## Types -/

/-- Errors with their text; `shown` is what `escape_debug` puts behind it. -/
inductive VaultError where
  | keyNotFound (name : String)
  | keyExists (name : String)
  | invalidCiphertext (message : String)
  | permissionDenied (message : String) (shown : Option String := none)
  | invalidRequest (message : String) (shown : Option String := none)
  | authenticationFailed (message : String)
  | internal (message : String)
  deriving DecidableEq

/-- The key types of the transit engine. -/
inductive VaultKeyType where
  | aes256Gcm96
  | aes128Gcm96
  | rsaOaep2048
  | rsaOaep4096
  | ecdsaP256
  | ecdsaP384
  deriving DecidableEq

/-- The name of a key type in requests. -/
def VaultKeyType.wireName : VaultKeyType → String
  | .aes256Gcm96 => "aes256-gcm96"
  | .aes128Gcm96 => "aes128-gcm96"
  | .rsaOaep2048 => "rsa-2048"
  | .rsaOaep4096 => "rsa-4096"
  | .ecdsaP256 => "ecdsa-p256"
  | .ecdsaP384 => "ecdsa-p384"

/-- The key type encrypts. -/
def VaultKeyType.supportsEncrypt : VaultKeyType → Bool
  | .aes256Gcm96 | .aes128Gcm96 | .rsaOaep2048 | .rsaOaep4096 => true
  | .ecdsaP256 | .ecdsaP384 => false

/-- The key type signs. -/
def VaultKeyType.supportsSign : VaultKeyType → Bool
  | .ecdsaP256 | .ecdsaP384 | .rsaOaep2048 | .rsaOaep4096 => true
  | .aes256Gcm96 | .aes128Gcm96 => false

/-- The part of the configuration that requests look at. -/
structure VaultTransitConfig where
  minDecryptionVersion : UInt32 := 1
  minEncryptionVersion : UInt32 := 0
  deletionAllowed : Bool := false

/-- A request to the engine. -/
inductive VaultTransitRequest where
  | encrypt (keyName : String) (plaintextB64 : Text) (context : Option Bytes)
  | decrypt (keyName : String) (ciphertext : Text) (context : Option Bytes)
  | rewrap (keyName : String) (ciphertext : Text) (context : Option Bytes)
  | sign (keyName : String) (inputB64 : Text) (hashAlgorithm : String)
  | verify (keyName : String) (inputB64 : Text) (signature : Text) (hashAlgorithm : String)
  | dataKey (keyName : String) (plaintext : Bool) (bits : UInt32)
  | hash (algorithm : String) (inputB64 : Text)
  | hmac (keyName : String) (inputB64 : Text) (algorithm : String)
  | random (bytes : Nat)
  | exportKey (name : String) (version : Option UInt32)
  | listKeys
  | readKey (name : String)
  | deleteKey (name : String)
  | createKey (name : String) (keyType : VaultKeyType) (exportable : Bool)
  | rotateKey (name : String)

/-- The payload in the order of insertion. -/
abbrev VaultTransitResponse := List (String × JsonText.Json)

def VaultTransitResponse.get (r : VaultTransitResponse) (key : String) : Option JsonText.Json :=
  r.lookup key

/-- What the policy distinguishes. -/
inductive VaultOp where
  | read
  | manage
  | crypto
  | sign
  | hash
  | export
  deriving DecidableEq

def VaultOp.debug : VaultOp → String
  | .read => "Read"
  | .manage => "Manage"
  | .crypto => "Crypto"
  | .sign => "Sign"
  | .hash => "Hash"
  | .export => "Export"

/-- Who asks. -/
structure VaultIdentity where
  principal : String

/-- The material of every version, and the number of the latest one. -/
structure MockKeyEntry where
  keyType : VaultKeyType
  exportable : Bool
  versions : List Bytes
  latestVersion : Nat

/-- The keys with their configuration and policy. -/
structure MockVaultBackend where
  keys : ExtTreeMap String MockKeyEntry
  config : VaultTransitConfig
  acl : VaultIdentity → String → VaultOp → Bool

/-- The digests besides SHA-256. -/
class Sha2Family where
  sha224 : Bytes → Bytes
  sha384 : Bytes → Bytes
  sha512 : Bytes → Bytes

/-! ## Limits and wire format -/

def maxVaultCiphertextLen : Nat := 128 * 1024

def maxVaultInputLen : Nat := 1024 * 1024

def maxVaultRandomBytes : Nat := 64 * 1024

def maxVaultKeyNameLen : Nat := 256

/-- A key name is short and of plain characters. -/
def validateVaultKeyName (name : String) : Except VaultError Unit :=
  if name.toList = [] then .error (.invalidRequest "name must not be empty")
  else if maxVaultKeyNameLen < byteLen name.toList then
    .error (.invalidRequest ("name exceeds " ++ toString maxVaultKeyNameLen ++ " bytes"))
  else if '\x00' ∈ name.toList then
    .error (.invalidRequest "name must not contain NUL bytes")
  else if name.toList.head? = some '/' then
    .error (.invalidRequest "name must not start with '/'")
  else .ok ()

/-- The text up to the first colon, and what is behind it. -/
def splitColon (text : Text) : Option (Text × Text) :=
  match text.dropWhile (· ≠ ':') with
  | [] => none
  | _ :: rest => some (text.takeWhile (· ≠ ':'), rest)

def wrongFormat : VaultError := .invalidCiphertext "expected vault:v\x7bn\x7d:\x7bb64\x7d"

/-- The version and the payload of a ciphertext. -/
def parseVaultCiphertext (ct : Text) : Except VaultError (Nat × Text) :=
  if maxVaultCiphertextLen < byteLen ct then
    .error (.invalidCiphertext ("ciphertext exceeds maximum allowed length (" ++
      toString maxVaultCiphertextLen ++ " bytes)"))
  else
    match splitColon ct with
    | none => .error wrongFormat
    | some (start, rest) =>
      match splitColon rest with
      | none => .error wrongFormat
      | some (versionStr, payload) =>
        if start ≠ "vault".toList then .error wrongFormat
        else
          match versionStr with
          | [] => .error (.invalidCiphertext "missing 'v' prefix on version")
          | v :: digits =>
            if v ≠ 'v' then .error (.invalidCiphertext "missing 'v' prefix on version")
            else
              match DecimalText.parseText (2 ^ 32) digits with
              | none => .error (.invalidCiphertext "invalid version number")
              | some version =>
                if payload.all Base64.isBase64 then .ok (version, payload)
                else .error (.invalidCiphertext "base64 payload contains invalid characters")

/-- A ciphertext with the version of its key. -/
def formatVaultCiphertext (version : Nat) (b64 : Text) : Text :=
  "vault:v".toList ++ (Nat.toDigits 10 version ++ ':' :: b64)

/-! ## Key entries -/

/-- A new key has one version. -/
def MockKeyEntry.new (keyType : VaultKeyType) (exportable : Bool) (bytes : Bytes) :
    MockKeyEntry where
  keyType := keyType
  exportable := exportable
  versions := [bytes]
  latestVersion := 1

/-- A new version of the key. -/
def MockKeyEntry.rotate (e : MockKeyEntry) (bytes : Bytes) : MockKeyEntry :=
  { e with
    versions := e.versions ++ [bytes]
    latestVersion := (e.versions.length + 1) % 2 ^ 32 }

/-- `versions.get(version.checked_sub(1)?)`. -/
def MockKeyEntry.material (e : MockKeyEntry) (version : Nat) : Option Bytes :=
  if version = 0 then none else e.versions[version - 1]?

/-! ## Ciphertexts -/

def ctTag (secret label body : Bytes) : Bytes :=
  hmacSign (subkey secret (utf8 "WRAP-AUTH".toList)) label body

def vaultXorStream (secret context data : Bytes) : Except VaultError Bytes :=
  match xorStream (subkey secret (utf8 "WRAP-ENC".toList)) context data with
  | none => .error (.internal "xor counter overflow")
  | some out => .ok out

def signHmac (secret label value : Bytes) : Bytes :=
  hmacSign (subkey secret (utf8 "SIGN".toList)) label value

def b64Decode (input : Text) : Except VaultError Bytes :=
  match Base64.decode input with
  | none => .error (.invalidRequest "invalid base64")
  | some bytes => .ok bytes

def transitLabel : Bytes := utf8 "VAULT-TRANSIT".toList

/-- The bytes in front of the encrypted ones. -/
def blobHead (nonce ctx : Bytes) : Bytes := nonce ++ bigEndian 8 ctx.length ++ ctx

/-- The nonce, the ciphertext and the tag. -/
def buildCiphertext (nonce secret : Bytes) (context : Option Bytes) (plaintext : Bytes)
    (version : Nat) : Except VaultError Text :=
  let ctx := context.getD []
  if 2 ^ 64 ≤ ctx.length then .error (.internal "context length exceeds u64")
  else
    match vaultXorStream secret (Sha256.hash (nonce ++ ctx)) plaintext with
    | .error e => .error e
    | .ok encrypted =>
      let blob := blobHead nonce ctx ++ encrypted
      .ok (formatVaultCiphertext version
        (Base64.encode (blob ++ ctTag secret transitLabel blob)))

/-- The plaintext, if the tag is right. -/
def openCiphertext (secret : Bytes) (context : Option Bytes) (b64Blob : Text) :
    Except VaultError Bytes :=
  match Base64.decode b64Blob with
  | none => .error (.invalidCiphertext "base64 decode failed")
  | some blob =>
    if blob.length < 12 + 8 + 32 then .error (.invalidCiphertext "blob too short")
    else
      let tagOffset := blob.length - 32
      let body := blob.take tagOffset
      let tag := blob.drop tagOffset
      if ctTag secret transitLabel body ≠ tag then
        .error (.authenticationFailed "ciphertext tag mismatch")
      else
        let nonce := slice body 0 12
        let ctxLen := ofBigEndian (slice body 12 20)
        let ctxEnd := 20 + ctxLen
        if 2 ^ 64 ≤ ctxEnd then .error (.invalidCiphertext "context length overflow")
        else if body.length < ctxEnd then
          .error (.invalidCiphertext "context length out of bounds")
        else
          let storedCtx := slice body 20 ctxEnd
          if storedCtx ≠ context.getD [] then .error (.authenticationFailed "context mismatch")
          else vaultXorStream secret (Sha256.hash (nonce ++ storedCtx)) (body.drop ctxEnd)

/-! ## Requests -/

/-- What the policy is asked for a request. -/
def opFor : VaultTransitRequest → VaultOp
  | .listKeys | .readKey .. => .read
  | .createKey .. | .rotateKey .. | .deleteKey .. => .manage
  | .encrypt .. | .decrypt .. | .rewrap .. | .dataKey .. => .crypto
  | .sign .. | .verify .. => .sign
  | .hmac .. | .hash .. | .random .. => .hash
  | .exportKey .. => .export

/-- The key that a request names. -/
def keyNameOf : VaultTransitRequest → Option String
  | .encrypt keyName .. | .decrypt keyName .. | .rewrap keyName .. | .sign keyName ..
  | .verify keyName .. | .dataKey keyName .. | .hmac keyName .. => some keyName
  | .createKey name .. | .rotateKey name | .deleteKey name | .readKey name
  | .exportKey name .. => some name
  | .listKeys | .hash .. | .random .. => none

/-- An input is not too long. -/
def validateInput (input : Text) : Except VaultError Unit :=
  if maxVaultInputLen < byteLen input then
    .error (.invalidRequest ("input exceeds " ++ toString maxVaultInputLen ++ " bytes"))
  else if input.all Base64.isBase64 then .ok ()
  else .error (.invalidRequest "input is not valid base64")

def validateHashAlgorithm (alg : String) : Except VaultError Unit :=
  if alg ∈ ["sha2-224", "sha2-256", "sha2-384", "sha2-512"] then .ok ()
  else .error (.invalidRequest "unsupported hash algorithm: " alg)

namespace MockVaultBackend

/-- The key of a name. -/
def getKey (b : MockVaultBackend) (name : String) : Except VaultError MockKeyEntry :=
  match b.keys[name]? with
  | none => .error (.keyNotFound name)
  | some entry => .ok entry

/-- Encryption with the latest version. -/
def encrypt (b : MockVaultBackend) (draws : Draws) (keyName : String) (plaintextB64 : Text)
    (context : Option Bytes) : Except VaultError VaultTransitResponse := do
  validateInput plaintextB64
  let entry ← b.getKey keyName
  if !entry.keyType.supportsEncrypt then
    .error (.invalidRequest (entry.keyType.wireName ++ " does not support encryption"))
  else
    let ver := entry.latestVersion
    if 0 < b.config.minEncryptionVersion ∧ ver < b.config.minEncryptionVersion.toNat then
      .error (.permissionDenied ("key version " ++ toString ver ++
        " below minimum encryption version " ++ toString b.config.minEncryptionVersion))
    else
      match entry.material ver with
      | none => .error (.internal "missing key material")
      | some secret => do
        let plaintext ← b64Decode plaintextB64
        let ct ← buildCiphertext draws.nonce secret context plaintext ver
        .ok [("ciphertext", .string ct)]

/-- Decryption with the version of the ciphertext. -/
def decrypt (b : MockVaultBackend) (keyName : String) (ciphertext : Text)
    (context : Option Bytes) : Except VaultError VaultTransitResponse := do
  let entry ← b.getKey keyName
  let (version, payload) ← parseVaultCiphertext ciphertext
  if version < b.config.minDecryptionVersion.toNat then
    .error (.permissionDenied ("ciphertext version " ++ toString version ++
      " below minimum decryption version " ++ toString b.config.minDecryptionVersion))
  else
    match entry.material version with
    | none => .error (.invalidCiphertext ("no key version " ++ toString version))
    | some secret => do
      let plaintext ← openCiphertext secret context payload
      .ok [("plaintext", .string (Base64.encode plaintext))]

/-- The floors are not looked at. -/
def rewrap (b : MockVaultBackend) (draws : Draws) (keyName : String) (ciphertext : Text)
    (context : Option Bytes) : Except VaultError VaultTransitResponse := do
  let entry ← b.getKey keyName
  let (version, payload) ← parseVaultCiphertext ciphertext
  match entry.material version with
  | none => .error (.invalidCiphertext ("no key version " ++ toString version))
  | some oldSecret => do
    let plaintext ← openCiphertext oldSecret context payload
    let newVer := entry.latestVersion
    match entry.material newVer with
    | none => .error (.internal "missing latest material")
    | some newSecret => do
      let newCt ← buildCiphertext draws.nonce newSecret context plaintext newVer
      .ok [("ciphertext", .string newCt)]

/-- The message that is signed. -/
def signedMessage (hashAlgorithm : String) (input : Bytes) : Bytes :=
  utf8 hashAlgorithm.toList ++ [0] ++ input

/-- A signature with the latest version. -/
def sign (b : MockVaultBackend) (keyName : String) (inputB64 : Text) (hashAlgorithm : String) :
    Except VaultError VaultTransitResponse := do
  validateInput inputB64
  validateHashAlgorithm hashAlgorithm
  let entry ← b.getKey keyName
  if !entry.keyType.supportsSign then
    .error (.invalidRequest (entry.keyType.wireName ++ " does not support signing"))
  else
    let ver := entry.latestVersion
    match entry.material ver with
    | none => .error (.internal "missing key material")
    | some secret => do
      let input ← b64Decode inputB64
      let raw := signHmac secret (utf8 "SIGN".toList) (signedMessage hashAlgorithm input)
      .ok [("signature", .string (formatVaultCiphertext ver (Base64.encode raw)))]

/-- The signature is computed again and compared. -/
def verify (b : MockVaultBackend) (keyName : String) (inputB64 signature : Text)
    (hashAlgorithm : String) : Except VaultError VaultTransitResponse := do
  validateInput inputB64
  validateHashAlgorithm hashAlgorithm
  let entry ← b.getKey keyName
  let (version, payload) ← (parseVaultCiphertext signature).mapError fun _ =>
    .invalidRequest "signature is not vault format"
  match entry.material version with
  | none => .error (.invalidRequest ("no key version " ++ toString version))
  | some secret => do
    let input ← b64Decode inputB64
    let provided ← b64Decode payload
    let expected := signHmac secret (utf8 "SIGN".toList) (signedMessage hashAlgorithm input)
    .ok [("valid", .bool (expected = provided))]

/-- The floor is not looked at. -/
def dataKey (b : MockVaultBackend) (draws : Draws) (keyName : String) (plaintext : Bool)
    (bits : UInt32) : Except VaultError VaultTransitResponse :=
  if bits ≠ 128 ∧ bits ≠ 256 ∧ bits ≠ 512 then
    .error (.invalidRequest "bits must be 128, 256, or 512")
  else do
    let entry ← b.getKey keyName
    if !entry.keyType.supportsEncrypt then
      .error (.invalidRequest (entry.keyType.wireName ++ " does not support encryption"))
    else
      let ver := entry.latestVersion
      match entry.material ver with
      | none => .error (.internal "missing material")
      | some secret => do
        let dataKey := draws.fresh (bits.toNat / 8)
        let ct ← buildCiphertext draws.nonce secret none dataKey ver
        .ok (("ciphertext", .string ct) ::
          if plaintext then [("plaintext", .string (Base64.encode dataKey))] else [])

def hashInput [Sha2Family] (algorithm : String) (inputB64 : Text) :
    Except VaultError VaultTransitResponse := do
  validateInput inputB64
  validateHashAlgorithm algorithm
  let input ← b64Decode inputB64
  let digest ←
    if algorithm = "sha2-224" then .ok (Sha2Family.sha224 input)
    else if algorithm = "sha2-256" then .ok (Sha256.hash input)
    else if algorithm = "sha2-384" then .ok (Sha2Family.sha384 input)
    else if algorithm = "sha2-512" then .ok (Sha2Family.sha512 input)
    else .error (.invalidRequest "unsupported hash algorithm: " algorithm)
  .ok [("sum", .string (Base64.encode digest))]

def hmac (b : MockVaultBackend) (keyName : String) (inputB64 : Text) (algorithm : String) :
    Except VaultError VaultTransitResponse := do
  validateInput inputB64
  validateHashAlgorithm algorithm
  let entry ← b.getKey keyName
  let ver := entry.latestVersion
  match entry.material ver with
  | none => .error (.internal "missing material")
  | some secret => do
    let input ← b64Decode inputB64
    let mac := hmacSign secret (utf8 algorithm.toList) input
    .ok [("hmac", .string (formatVaultCiphertext ver (Base64.encode mac)))]

def random (draws : Draws) (bytes : Nat) : Except VaultError VaultTransitResponse :=
  if maxVaultRandomBytes < bytes then
    .error (.invalidRequest ("bytes exceeds " ++ toString maxVaultRandomBytes))
  else .ok [("random_bytes", .string (Base64.encode (draws.fresh bytes)))]

/-- The material, if the key is exportable. -/
def exportKey (b : MockVaultBackend) (name : String) (version : Option UInt32) :
    Except VaultError VaultTransitResponse := do
  let entry ← b.getKey name
  if !entry.exportable then .error (.permissionDenied ("key " ++ name ++ " is not exportable"))
  else
    let v := (version.map UInt32.toNat).getD entry.latestVersion
    match entry.material v with
    | none => .error (.invalidRequest ("no version " ++ toString v))
    | some bytes =>
      .ok [("name", text name),
        ("keys", .object [(Nat.toDigits 10 v, .string (Base64.encode bytes))])]

def readKey (b : MockVaultBackend) (name : String) : Except VaultError VaultTransitResponse := do
  let entry ← b.getKey name
  .ok [("name", text name), ("type", text entry.keyType.wireName),
    ("exportable", .bool entry.exportable), ("latest_version", number entry.latestVersion),
    ("min_decryption_version", number b.config.minDecryptionVersion.toNat),
    ("min_encryption_version", number b.config.minEncryptionVersion.toNat)]

/-- The keys in order. -/
def listKeys (b : MockVaultBackend) : VaultTransitResponse :=
  [("keys", .array (b.keys.keys.map text))]

/-- A new key under an unused name. -/
def createKey (b : MockVaultBackend) (draws : Draws) (name : String) (keyType : VaultKeyType)
    (exportable : Bool) : Except VaultError VaultTransitResponse × MockVaultBackend :=
  match b.keys[name]? with
  | some _ => (.error (.keyExists name), b)
  | none =>
    (.ok [("name", text name), ("type", text keyType.wireName), ("exportable", .bool exportable),
        ("latest_version", number 1)],
      { b with keys := b.keys.insert name (.new keyType exportable (draws.fresh 32)) })

/-- The key gets another version. -/
def rotateKey (b : MockVaultBackend) (draws : Draws) (name : String) :
    Except VaultError VaultTransitResponse × MockVaultBackend :=
  match b.keys[name]? with
  | none => (.error (.keyNotFound name), b)
  | some entry =>
    (.ok [("name", text name),
        ("latest_version", number (entry.rotate (draws.fresh 32)).latestVersion)],
      { b with keys := b.keys.insert name (entry.rotate (draws.fresh 32)) })

/-- The key is removed, if that is allowed. -/
def deleteKey (b : MockVaultBackend) (name : String) :
    Except VaultError VaultTransitResponse × MockVaultBackend :=
  if !b.config.deletionAllowed then
    (.error (.permissionDenied "key deletion is not allowed by policy"), b)
  else
    match b.keys[name]? with
    | none => (.error (.keyNotFound name), b)
    | some _ => (.ok [("deleted", text name)], { b with keys := b.keys.erase name })

section Dispatch
variable [Sha2Family]

/-- The arms of `dispatch`, behind its checks. -/
def perform (b : MockVaultBackend) (draws : Draws) :
    VaultTransitRequest → Except VaultError VaultTransitResponse × MockVaultBackend
  | .createKey name keyType exportable => b.createKey draws name keyType exportable
  | .rotateKey name => b.rotateKey draws name
  | .deleteKey name => b.deleteKey name
  | .listKeys => (.ok b.listKeys, b)
  | .readKey name => (b.readKey name, b)
  | .exportKey name version => (b.exportKey name version, b)
  | .encrypt keyName plaintextB64 context => (b.encrypt draws keyName plaintextB64 context, b)
  | .decrypt keyName ciphertext context => (b.decrypt keyName ciphertext context, b)
  | .rewrap keyName ciphertext context => (b.rewrap draws keyName ciphertext context, b)
  | .sign keyName inputB64 hashAlgorithm => (b.sign keyName inputB64 hashAlgorithm, b)
  | .verify keyName inputB64 signature hashAlgorithm =>
    (b.verify keyName inputB64 signature hashAlgorithm, b)
  | .dataKey keyName plaintext bits => (b.dataKey draws keyName plaintext bits, b)
  | .hash algorithm inputB64 => (hashInput algorithm inputB64, b)
  | .hmac keyName inputB64 algorithm => (b.hmac keyName inputB64 algorithm, b)
  | .random bytes => (random draws bytes, b)

/-- The request goes to its handler. -/
def dispatch (b : MockVaultBackend) (identity : VaultIdentity) (draws : Draws)
    (req : VaultTransitRequest) : Except VaultError VaultTransitResponse × MockVaultBackend :=
  let op := opFor req
  let keyForAcl := (keyNameOf req).getD ""
  if !b.acl identity keyForAcl op then
    (.error (.permissionDenied ("vault ACL denied " ++ op.debug ++ " on ") keyForAcl), b)
  else
    match (keyNameOf req).elim (.ok ()) validateVaultKeyName with
    | .error e => (.error e, b)
    | .ok () => b.perform draws req

/-- One call of `handle_request_as`. -/
structure VaultCall where
  identity : VaultIdentity
  draws : Draws
  request : VaultTransitRequest

def answer (b : MockVaultBackend) (c : VaultCall) : Except VaultError VaultTransitResponse :=
  (b.dispatch c.identity c.draws c.request).1

/-- The backend after a request. -/
def step (b : MockVaultBackend) (c : VaultCall) : MockVaultBackend :=
  (b.dispatch c.identity c.draws c.request).2

end Dispatch

/-- `with_config(config).with_acl(acl)`. -/
def withConfig (config : VaultTransitConfig) (acl : VaultIdentity → String → VaultOp → Bool) :
    MockVaultBackend where
  keys := ∅
  config := config
  acl := acl

end MockVaultBackend

/-! ## The wire format -/

theorem splitColon_append (start rest : Text) (h : ∀ c ∈ start, c ≠ ':') :
    splitColon (start ++ ':' :: rest) = some (start, rest) := by
  have hall : ∀ c ∈ start, decide (c ≠ ':') = true := fun c hc => decide_eq_true (h c hc)
  rw [splitColon, dropWhile_append_of_pos hall, takeWhile_append_of_pos hall,
    dropWhile_cons_of_neg (by simp), takeWhile_cons_of_neg (by simp), append_nil]

theorem ne_colon_of_mem_toDigits {n : Nat} {c : Char} (h : c ∈ Nat.toDigits 10 n) : c ≠ ':' := by
  rintro rfl
  have hrange := DecimalText.range_of_mem_toDigits h
  exact absurd hrange.2 (by decide)

theorem splitColon_version (version : Nat) (b64 : Text) :
    splitColon ('v' :: (Nat.toDigits 10 version ++ ':' :: b64)) =
      some ('v' :: Nat.toDigits 10 version, b64) := by
  apply splitColon_append ('v' :: Nat.toDigits 10 version) b64
  intro c hc
  rcases mem_cons.mp hc with rfl | hc
  · decide
  · exact ne_colon_of_mem_toDigits hc

theorem splitColon_format (version : Nat) (b64 : Text) :
    splitColon (formatVaultCiphertext version b64) =
      some ("vault".toList, 'v' :: (Nat.toDigits 10 version ++ ':' :: b64)) := by
  apply splitColon_append "vault".toList
  have hplain : "vault".toList.all (fun c => c ≠ ':') = true := by decide
  intro c hc
  exact of_decide_eq_true (all_eq_true.mp hplain c hc)

/-- **What was formatted is parsed back**, if it is not too long. -/
theorem parseVaultCiphertext_format {version : Nat} {b64 : Text} (hversion : version < 2 ^ 32)
    (hb64 : b64.all Base64.isBase64 = true)
    (hlen : byteLen (formatVaultCiphertext version b64) ≤ maxVaultCiphertextLen) :
    parseVaultCiphertext (formatVaultCiphertext version b64) = .ok (version, b64) := by
  rw [parseVaultCiphertext, if_neg (Nat.not_lt.mpr hlen), splitColon_format]
  simp only [splitColon_version, DecimalText.parseText_toDigits, hversion, hb64, if_true, ne_eq,
    not_true_eq_false, if_false]

theorem ascii_toDigits (n : Nat) : Ascii (Nat.toDigits 10 n) :=
  fun _ hc => Nat.lt_of_le_of_lt (DecimalText.range_of_mem_toDigits hc).2 (by decide)

theorem byteLen_format (version : Nat) (bytes : Bytes) :
    byteLen (formatVaultCiphertext version (Base64.encode bytes)) =
      8 + (Nat.toDigits 10 version).length + 4 * ((bytes.length + 2) / 3) := by
  have hpayload : byteLen (':' :: Base64.encode bytes) = 1 + 4 * ((bytes.length + 2) / 3) := by
    have hascii : Ascii (':' :: Base64.encode bytes) := by
      intro c hc
      rcases mem_cons.mp hc with rfl | hc
      · decide
      · exact ascii_encode bytes c hc
    rw [byteLen_of_ascii hascii, length_cons, Base64.length_encode, Nat.add_comm]
  have hsum : ∀ start : Text, byteLen (start ++ (Nat.toDigits 10 version ++
      ':' :: Base64.encode bytes)) =
      byteLen start + ((Nat.toDigits 10 version).length + (1 + 4 * ((bytes.length + 2) / 3))) := by
    intro start
    rw [byteLen_append, byteLen_append, hpayload, byteLen_of_ascii (ascii_toDigits version)]
  have hstart : byteLen "vault:v".toList = 7 := rfl
  have htotal := hsum "vault:v".toList
  exact htotal.trans (by omega)

/-! ## Opening what was built -/

variable {nonce secret plaintext encrypted : Bytes} {context : Option Bytes} {version : Nat}
  {ct : Text}

theorem length_ctTag (secret label body : Bytes) : (ctTag secret label body).length = 32 :=
  length_hmacSign _ _ _

theorem vaultXorStream_ok {context data out : Bytes}
    (h : vaultXorStream secret context data = .ok out) :
    xorStream (subkey secret (utf8 "WRAP-ENC".toList)) context data = some out := by
  rw [vaultXorStream] at h
  split at h
  · cases h
  next hsome =>
  rw [hsome]
  exact congrArg some (Except.ok.inj h)

theorem vaultXorStream_involutive {context data out : Bytes}
    (h : vaultXorStream secret context data = .ok out) :
    vaultXorStream secret context out = .ok data := by
  rw [vaultXorStream, xorStream_xorStream (vaultXorStream_ok h)]

/-- The bytes of a ciphertext. -/
theorem buildCiphertext_ok (h : buildCiphertext nonce secret context plaintext version = .ok ct) :
    ∃ encrypted,
      vaultXorStream secret (Sha256.hash (nonce ++ context.getD [])) plaintext = .ok encrypted ∧
      (context.getD []).length < 2 ^ 64 ∧
      ct = formatVaultCiphertext version (Base64.encode
        (blobHead nonce (context.getD []) ++ encrypted ++
          ctTag secret transitLabel (blobHead nonce (context.getD []) ++ encrypted))) := by
  rw [buildCiphertext] at h
  split at h
  · cases h
  next hctx =>
  split at h
  · cases h
  next encrypted hencrypted =>
  exact ⟨encrypted, hencrypted, Nat.not_le.mp hctx, (Except.ok.inj h).symm⟩

theorem buildCiphertext_some (version : Nat) (hctx : (context.getD []).length < 2 ^ 64)
    (hplaintext : plaintext.length < 2 ^ 64) :
    ∃ ct, buildCiphertext nonce secret context plaintext version = .ok ct := by
  obtain ⟨encrypted, hencrypted⟩ : ∃ out, xorFrom (subkey secret (utf8 "WRAP-ENC".toList))
      (Sha256.hash (nonce ++ context.getD [])) 0 plaintext = some out :=
    xorFrom_some (by omega)
  have hstream : vaultXorStream secret (Sha256.hash (nonce ++ context.getD [])) plaintext =
      .ok encrypted := by
    rw [vaultXorStream, xorStream, hencrypted]
  rw [buildCiphertext, if_neg (Nat.not_le.mpr hctx), hstream]
  exact ⟨_, rfl⟩

section
variable (hnonce : nonce.length = 12)
include hnonce

/-- **A blob made under a secret and a context opens under them.** -/
theorem openCiphertext_blob (hctx : 20 + (context.getD []).length < 2 ^ 64)
    (h : vaultXorStream secret (Sha256.hash (nonce ++ context.getD [])) plaintext = .ok encrypted) :
    openCiphertext secret context (Base64.encode (blobHead nonce (context.getD []) ++ encrypted ++
      ctTag secret transitLabel (blobHead nonce (context.getD []) ++ encrypted))) =
      .ok plaintext := by
  generalize hgetD : context.getD [] = ctx at *
  generalize hbody : blobHead nonce ctx ++ encrypted = body
  generalize htag : ctTag secret transitLabel body = tag
  have htagLen : tag.length = 32 := htag ▸ length_ctTag _ _ _
  have hcode : (bigEndian 8 ctx.length).length = 8 := bigEndian_length _ _
  have hhead : (blobHead nonce ctx).length = 20 + ctx.length := by
    rw [blobHead, length_append, length_append, hnonce, hcode]
  have hbodyLen : body.length = 20 + ctx.length + encrypted.length := by
    rw [← hbody, length_append, hhead]
  -- the fields of the body
  have hnonceAt : slice body 0 12 = nonce :=
    slice_of_eq (a := []) (c := bigEndian 8 ctx.length ++ ctx ++ encrypted)
      (by rw [← hbody, blobHead]; simp only [nil_append, append_assoc]) rfl
      (by rw [hnonce]; rfl)
  have hlenAt : slice body 12 20 = bigEndian 8 ctx.length :=
    slice_of_eq (a := nonce) (c := ctx ++ encrypted)
      (by rw [← hbody, blobHead]; simp only [append_assoc]) hnonce.symm
      (by rw [hnonce, hcode])
  have hctxAt : slice body 20 (20 + ctx.length) = ctx :=
    slice_of_eq (a := nonce ++ bigEndian 8 ctx.length) (c := encrypted)
      (by rw [← hbody, blobHead]) (by rw [length_append, hnonce, hcode])
      (by rw [length_append, hnonce, hcode])
  have hdrop : body.drop (20 + ctx.length) = encrypted := by
    rw [← hbody, ← hhead, drop_left]
  have hdecoded : ofBigEndian (bigEndian 8 ctx.length) = ctx.length :=
    ofBigEndian_bigEndian (by omega)
  have hoffset : (body ++ tag).length - 32 = body.length := by
    rw [length_append, htagLen, Nat.add_sub_cancel]
  have hlong : ¬ (body ++ tag).length < 12 + 8 + 32 := by
    rw [length_append]
    omega
  rw [openCiphertext, Base64.decode_encode]
  dsimp only
  rw [if_neg hlong, hoffset, take_left, drop_left, htag, if_neg (not_not.mpr rfl),
    hlenAt, hdecoded, if_neg (Nat.not_le.mpr hctx), if_neg (by omega), hctxAt,
    hgetD, if_neg (not_not.mpr rfl), hnonceAt, hdrop]
  exact vaultXorStream_involutive h

/-- The length of a ciphertext, from those of the context and of the plaintext. -/
theorem byteLen_built (h : buildCiphertext nonce secret context plaintext version = .ok ct) :
    byteLen ct = 8 + (Nat.toDigits 10 version).length +
      4 * ((52 + (context.getD []).length + plaintext.length + 2) / 3) := by
  obtain ⟨encrypted, hencrypted, _, rfl⟩ := buildCiphertext_ok h
  have hsame : encrypted.length = plaintext.length :=
    (xorFrom_involutive (vaultXorStream_ok hencrypted)).1
  have hblob : (blobHead nonce (context.getD []) ++ encrypted ++ ctTag secret transitLabel
      (blobHead nonce (context.getD []) ++ encrypted)).length =
      52 + (context.getD []).length + plaintext.length := by
    rw [length_append, length_append, length_ctTag, blobHead, length_append,
      length_append, hnonce, bigEndian_length, hsame]
    omega
  rw [byteLen_format, hblob]

/-- **A ciphertext that was built is parsed and opened**, if it is not too long. -/
theorem built_opens (hversion : version < 2 ^ 32)
    (h : buildCiphertext nonce secret context plaintext version = .ok ct)
    (hlen : byteLen ct ≤ maxVaultCiphertextLen) :
    ∃ b64, ct = formatVaultCiphertext version b64 ∧
      parseVaultCiphertext ct = .ok (version, b64) ∧
      openCiphertext secret context b64 = .ok plaintext := by
  have hctx : 20 + (context.getD []).length < 2 ^ 64 := by
    rw [byteLen_built hnonce h, maxVaultCiphertextLen] at hlen
    omega
  obtain ⟨encrypted, hencrypted, _, rfl⟩ := buildCiphertext_ok h
  exact ⟨_, rfl, parseVaultCiphertext_format hversion (all_isBase64_encode _) hlen,
    openCiphertext_blob hnonce hctx hencrypted⟩

end

end CratonHsm.Cloud
