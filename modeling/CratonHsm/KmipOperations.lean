import CratonHsm.KmipStore

/-!
# The KMIP operation handlers

The `process_*` handlers of `operations.rs` and `dispatch_operation`.  A handler takes the
request and the store and returns the response and the store afterwards.  The system clock,
the random number generator and HKDF are parameters.
-/

namespace CratonHsm
open Std PrefixFreeCode

/-- The operations that a request can ask for. -/
inductive KmipOperation where
  | create | createKeyPair | register | locate | get | getAttributes | addAttribute
  | modifyAttribute | deleteAttribute | activate | revoke | destroy | query | check | encrypt
  | decrypt | sign | signatureVerify | mac | macVerify | rngRetrieve | deriveKey
  deriving DecidableEq

/-- The name of an operation in messages. -/
def KmipOperation.display : KmipOperation → String
  | create => "Create"
  | createKeyPair => "CreateKeyPair"
  | register => "Register"
  | deriveKey => "DeriveKey"
  | locate => "Locate"
  | get => "Get"
  | getAttributes => "GetAttributes"
  | addAttribute => "AddAttribute"
  | modifyAttribute => "ModifyAttribute"
  | deleteAttribute => "DeleteAttribute"
  | activate => "Activate"
  | revoke => "Revoke"
  | destroy => "Destroy"
  | query => "Query"
  | check => "Check"
  | encrypt => "Encrypt"
  | decrypt => "Decrypt"
  | sign => "Sign"
  | signatureVerify => "SignatureVerify"
  | mac => "MAC"
  | macVerify => "MACVerify"
  | rngRetrieve => "RNG_Retrieve"

/-- `SUPPORTED_OPERATIONS`. -/
def supportedOperations : List KmipOperation :=
  [.create, .get, .activate, .revoke, .destroy, .query, .getAttributes, .register, .locate,
    .check, .addAttribute, .modifyAttribute, .deleteAttribute, .deriveKey, .rngRetrieve]

/-- `SUPPORTED_OBJECT_TYPES`. -/
def supportedObjectTypes : List KmipObjectType := [.symmetricKey, .publicKey, .privateKey]

/-- A request with the identity and the policy of its connection. -/
structure KmipRequest where
  operation : KmipOperation := .query
  uniqueId : Option String := none
  attributes : List KmipAttribute := []
  callerIdentity : Option String := none
  strictOwnerAcl : Bool := false

/-- The outcome of a request. -/
inductive KmipResultStatus where
  | success | operationFailed | operationPending | operationUndone
  deriving DecidableEq

/-- The answer to a request. -/
structure KmipResponse where
  status : KmipResultStatus
  reason : Option KmipResultReason := none
  message : Option String := none
  uniqueId : Option String := none
  objectType : Option KmipObjectType := none
  keyMaterial : Option Bytes := none
  attributes : List KmipAttribute := []
  locatedIds : List String := []
  deriving DecidableEq

namespace KmipResponse

/-- Success, with the id of the object. -/
def success (uniqueId : String) : KmipResponse := { status := .success, uniqueId := some uniqueId }

/-- A failure with its reason. -/
def error (reason : KmipResultReason) (message : String) : KmipResponse :=
  { status := .operationFailed, reason := some reason, message := some message }

/-- Success without an id. -/
def successBare : KmipResponse := { status := .success }

end KmipResponse

/-- What a handler reads of its surroundings: the clock, and the generator, which fails or
fills a buffer of the wanted length. -/
structure KmipEnv where
  nowEpoch : Nat
  tryFillBytes : Nat → Option Bytes

/-- The `hkdf` crate over SHA-256: salt, input key, info and output length. -/
class HkdfSha256 where
  expand : Option Bytes → Bytes → Bytes → Nat → Option Bytes

/-! ## The owner check -/

/-- `ct_str_eq`: the differences of the padded bytes and of the lengths, accumulated. -/
def ctStrEq (a b : String) : Bool :=
  let aa := asBytes a
  let bb := asBytes b
  let diff := (List.range (max aa.length bb.length)).foldl
    (fun d i => d ||| (aa.getD i 0 ^^^ bb.getD i 0)) (0 : UInt8)
  diff = 0 && aa.length = bb.length

/-- The answer to anybody who may not see an object. -/
def objectNotFound : KmipResponse := .error .objectNotFound "object not found"

/-- `check_owner_acl_with_options`: the refusal, if there is one. -/
def checkOwnerAclWithOptions (obj : KmipStoredObject) (caller : Option String) (strict : Bool) :
    Option KmipResponse :=
  match obj.attributes["owner"]? with
  | some (.text owner) =>
    match caller with
    | some c => if ctStrEq c owner then none else some objectNotFound
    | none => some objectNotFound
  | _ => if strict && caller.isSome then some objectNotFound else none

/-- `check_owner_acl`. -/
def checkOwnerAcl (obj : KmipStoredObject) (caller : Option String) : Option KmipResponse :=
  checkOwnerAclWithOptions obj caller false

/-- `check_owner_acl_for_request`. -/
def checkOwnerAclForRequest (obj : KmipStoredObject) (request : KmipRequest) :
    Option KmipResponse :=
  checkOwnerAclWithOptions obj request.callerIdentity request.strictOwnerAcl

/-- An answer and the store after it. -/
abbrev KmipResult := KmipResponse × InMemoryKeyStore

/-- The identifier that an operation needs. -/
def withUniqueId (request : KmipRequest) (store : InMemoryKeyStore) (name : String)
    (handler : String → KmipResult) : KmipResult :=
  match request.uniqueId with
  | none => (.error .invalidMessage (name ++ " requires a UniqueIdentifier"), store)
  | some id => handler id

/-- An object that exists and passes the owner check. -/
def withOwnedObject (request : KmipRequest) (store : InMemoryKeyStore) (id : String)
    (handler : KmipStoredObject → KmipResult) : KmipResult :=
  match store.get id with
  | none => (objectNotFound, store)
  | some obj =>
    match checkOwnerAclForRequest obj request with
    | some resp => (resp, store)
    | none => handler obj

/-- The answer after a change of the store, or the refusal with its text. -/
def answerUpdate (store : InMemoryKeyStore) (id message : String)
    (result : Except KmipResultReason InMemoryKeyStore) : KmipResult :=
  match result with
  | .ok store => (.success id, store)
  | .error reason => (.error reason message, store)

/-! ## The handlers -/

/-- The caller becomes the owner unless the request names one. -/
def attachOwner (attrs : KmipAttributes) (caller : Option String) : KmipAttributes :=
  if attrs.contains "owner" then attrs
  else
    match caller with
    | some c => attrs.insert "owner" (.text c)
    | none => attrs

/-- The last attribute of this name that carries the wanted kind of value. -/
def lastAttribute {α : Type} (attrs : List KmipAttribute) (name : String)
    (read : KmipAttributeValue → Option α) : Option α :=
  attrs.foldl (fun acc a => if a.name = name then (read a.value).or acc else acc) none

def KmipAttributeValue.toInteger? : KmipAttributeValue → Option Int32
  | .integer v => some v
  | _ => none

def KmipAttributeValue.toEnum? : KmipAttributeValue → Option UInt32
  | .enum v => some v
  | _ => none

def KmipAttributeValue.toBytes? : KmipAttributeValue → Option Bytes
  | .bytes b => some b
  | _ => none

/-- The key lengths that an algorithm of `Create` allows. -/
def createLengthError (algo : Option UInt32) (keyLen : Int) : Option String :=
  match algo with
  | none => none
  | some alg =>
    if alg = 1 then
      if keyLen ≠ 128 ∧ keyLen ≠ 192 then
        some ("3DES requires key length 128 or 192 bits, got " ++ toString keyLen)
      else none
    else if alg = 3 then
      if keyLen ≠ 128 ∧ keyLen ≠ 192 ∧ keyLen ≠ 256 then
        some ("AES requires key length 128, 192, or 256 bits, got " ++ toString keyLen)
      else none
    else some ("unsupported algorithm 0x" ++ hexPadded 4 alg.toNat ++ " for symmetric key creation")

/-- A new symmetric key of the wanted length. -/
def processCreate (env : KmipEnv) (request : KmipRequest) (store : InMemoryKeyStore) :
    KmipResult :=
  let algo := lastAttribute request.attributes "Cryptographic Algorithm" (·.toEnum?)
  let attrs := collectAttributes request.attributes
  match lastAttribute request.attributes "Cryptographic Length" (·.toInteger?) with
  | none =>
    (.error .invalidField "Create requires an explicit Cryptographic Length attribute", store)
  | some len =>
    let keyLen := len.toInt
    match createLengthError algo keyLen with
    | some message => (.error .invalidField message, store)
    | none =>
      if keyLen ≤ 0 then
        (.error .invalidField ("Cryptographic Length must be positive, got " ++ toString keyLen),
          store)
      else if keyLen % 8 ≠ 0 ∨ keyLen < 128 then
        (.error .invalidField "Cryptographic Length must be a multiple of 8 and at least 128 bits",
          store)
      else
        match env.tryFillBytes (keyLen.toNat / 8) with
        | none => (.error .cryptographicFailure "OS RNG unavailable", store)
        | some material =>
          let (id, store) := store.create env.nowEpoch .symmetricKey material
            (attachOwner attrs request.callerIdentity)
          ({ KmipResponse.success id with objectType := some .symmetricKey }, store)

/-- The type and the material of an object. -/
def processGet (request : KmipRequest) (store : InMemoryKeyStore) : KmipResult :=
  withUniqueId request store "Get" fun id =>
    match store.get id with
    | none => (objectNotFound, store)
    | some obj =>
      if obj.state = .destroyed then (.error .objectNotFound "object has been destroyed", store)
      else
        match checkOwnerAclForRequest obj request with
        | some resp => (resp, store)
        | none => ({ KmipResponse.success obj.id with
            objectType := some obj.objectType, keyMaterial := obj.keyMaterial }, store)

/-- `acl_checked_transition`: the owner check, not the strict one, and only if the object
exists. -/
def aclCheckedTransition (request : KmipRequest) (store : InMemoryKeyStore) (id : String)
    (mutate : Unit → KmipResult) : KmipResult :=
  match store.get id with
  | some obj =>
    match checkOwnerAcl obj request.callerIdentity with
    | some resp => (resp, store)
    | none => mutate ()
  | none => mutate ()

/-- The shape of Activate, Revoke and Destroy. -/
def processTransition (request : KmipRequest) (store : InMemoryKeyStore) (name verb : String)
    (transition : String → Except KmipResultReason InMemoryKeyStore) : KmipResult :=
  withUniqueId request store name fun id =>
    aclCheckedTransition request store id fun _ =>
      answerUpdate store id (verb ++ " failed for " ++ id) (transition id)

/-- The object becomes active. -/
def processActivate (env : KmipEnv) (request : KmipRequest) (store : InMemoryKeyStore) :
    KmipResult :=
  processTransition request store "Activate" "activate" (store.activate env.nowEpoch)

/-- The object is deactivated. -/
def processRevoke (env : KmipEnv) (request : KmipRequest) (store : InMemoryKeyStore) :
    KmipResult :=
  processTransition request store "Revoke" "revoke" (store.revoke env.nowEpoch)

/-- The object is destroyed. -/
def processDestroy (env : KmipEnv) (request : KmipRequest) (store : InMemoryKeyStore) :
    KmipResult :=
  processTransition request store "Destroy" "destroy" (store.destroy env.nowEpoch)

/-- The operations and object types that the server knows. -/
def processQuery : KmipResponse :=
  { KmipResponse.successBare with
    locatedIds := supportedOperations.map (fun op => "OP:" ++ op.display) ++
      supportedObjectTypes.map (fun t => "OT:" ++ t.display) }

/-- The attributes of an object. -/
def processGetAttributes (request : KmipRequest) (store : InMemoryKeyStore) : KmipResult :=
  withUniqueId request store "GetAttributes" fun id =>
    withOwnedObject request store id fun _ =>
      match store.getAttributes id with
      | some attrs => ({ KmipResponse.success id with attributes := attrs }, store)
      | none => (objectNotFound, store)

/-- The first object type of a Register request that is not known. -/
def unknownObjectType (attrs : List KmipAttribute) : Option UInt32 :=
  attrs.findSome? fun a =>
    if a.name = "Object Type" then
      a.value.toEnum?.filter (fun v => (KmipObjectType.fromU32 v).isNone)
    else none

/-- An object under an id that the caller chooses. -/
def processRegister (env : KmipEnv) (request : KmipRequest) (store : InMemoryKeyStore) :
    KmipResult :=
  withUniqueId request store "Register" fun id =>
    match (store.get id).bind (checkOwnerAclForRequest · request) with
    | some resp => (resp, store)
    | none =>
      match unknownObjectType request.attributes with
      | some v =>
        (.error .invalidField ("unknown Object Type enum value: 0x" ++ hexPadded 8 v.toNat), store)
      | none =>
        let objectType := ((lastAttribute request.attributes "Object Type" (·.toEnum?)).bind
          KmipObjectType.fromU32).getD .symmetricKey
        let keyMaterial := lastAttribute request.attributes "Key Material" (·.toBytes?)
        -- the key material does not become an attribute
        let attrs :=
          collectAttributes (request.attributes.filter (fun a => a.name ≠ "Key Material"))
        match store.register env.nowEpoch id objectType keyMaterial
            (attachOwner attrs request.callerIdentity) with
        | .ok (id, store) => ({ KmipResponse.success id with objectType := some objectType }, store)
        | .error reason => (.error reason "register failed", store)

/-- The object exists and is the caller's; the usage counter goes down. -/
def processCheck (env : KmipEnv) (request : KmipRequest) (store : InMemoryKeyStore) : KmipResult :=
  withUniqueId request store "Check" fun id =>
    match store.get id with
    | none => (objectNotFound, store)
    | some obj =>
      if obj.state = .destroyed then (.error .objectNotFound "object has been destroyed", store)
      else
        match checkOwnerAclForRequest obj request with
        | some resp => (resp, store)
        | none =>
          let (remaining, store) := store.decrementUsageCounter env.nowEpoch obj.id
          ({ KmipResponse.success obj.id with
            attributes := (remaining.map fun n =>
              KmipAttribute.mk InMemoryKeyStore.usageCounterName (.longInteger n)).toList }, store)

/-- What `AddAttribute` has against one of the new attributes. -/
def addAttributeRefusal (obj : KmipStoredObject) (attr : KmipAttribute) : Option KmipResponse :=
  if hasOuterWhitespace attr.name then
    some (.error .invalidField "attribute name must not have surrounding whitespace")
  else if attr.name.toList.any (fun c => c = '\t' || c = '\n' || c = '\r') then
    some (.error .invalidField "attribute name must not contain control whitespace")
  else if isImmutableAttribute attr.name then
    some (.error .permissionDenied
      ("attribute \x27" ++ attr.name ++ "\x27 is immutable via AddAttribute"))
  else if obj.hasAttributeIgnoringCase attr.name then
    some (.error .invalidField ("attribute \x27" ++ attr.name ++
      "\x27 already exists (case-insensitive); use ModifyAttribute instead"))
  else none

/-- `ModifyAttribute` and `DeleteAttribute` refuse immutable and missing attributes. -/
def presentAttributeRefusal (hint : String) (obj : KmipStoredObject) (name : String) :
    Option KmipResponse :=
  if isImmutableAttribute name then
    some (.error .permissionDenied ("attribute \x27" ++ name ++ "\x27 is immutable"))
  else if obj.attributes.contains name then none
  else some (.error .itemNotFound ("attribute \x27" ++ name ++ "\x27 does not exist" ++ hint))

/-- The shape of the three attribute operations. -/
def processAttributes (request : KmipRequest) (store : InMemoryKeyStore)
    (name emptyMessage failMessage : String)
    (refusal : KmipStoredObject → KmipAttribute → Option KmipResponse)
    (update : String → Except KmipResultReason InMemoryKeyStore) : KmipResult :=
  withUniqueId request store name fun id =>
    if request.attributes = [] then (.error .invalidField emptyMessage, store)
    else
      withOwnedObject request store id fun obj =>
        match request.attributes.findSome? (refusal obj) with
        | some resp => (resp, store)
        | none => answerUpdate store id failMessage (update id)

/-- New attributes, none of which may exist. -/
def processAddAttribute (env : KmipEnv) (request : KmipRequest) (store : InMemoryKeyStore) :
    KmipResult :=
  processAttributes request store "AddAttribute"
    "AddAttribute requires at least one attribute" "add_attribute failed" addAttributeRefusal
    (store.addAttributes env.nowEpoch · (collectAttributes request.attributes))

/-- New values for attributes that exist. -/
def processModifyAttribute (env : KmipEnv) (request : KmipRequest) (store : InMemoryKeyStore) :
    KmipResult :=
  processAttributes request store "ModifyAttribute"
    "ModifyAttribute requires at least one attribute" "modify_attribute failed"
    (fun obj a => presentAttributeRefusal "; use AddAttribute" obj a.name)
    (store.modifyAttributes env.nowEpoch · (collectAttributes request.attributes))

/-- Attributes that exist are removed. -/
def processDeleteAttribute (env : KmipEnv) (request : KmipRequest) (store : InMemoryKeyStore) :
    KmipResult :=
  processAttributes request store "DeleteAttribute"
    "DeleteAttribute requires at least one attribute name" "delete_attribute failed"
    (fun obj a => presentAttributeRefusal "" obj a.name)
    (store.deleteAttributes env.nowEpoch · (request.attributes.map KmipAttribute.name))

/-- `LOCATE_MAX_RESULTS_DEFAULT`. -/
def locateMaxResultsDefault : Nat := 1000

/-- The loop of `process_locate`: the visible ids up to the cap, and whether it was
reached with ids left. -/
def locateVisible (visible : String → Bool) : List String → List String → List String × Bool
  | [], filtered => (filtered, false)
  | id :: ids, filtered =>
    if locateMaxResultsDefault ≤ filtered.length then (filtered, true)
    else locateVisible visible ids (if visible id then filtered ++ [id] else filtered)

/-- The ids of the objects that match and that the caller may see, up to a cap. -/
def processLocate (request : KmipRequest) (store : InMemoryKeyStore) : KmipResponse :=
  let visible (id : String) : Bool :=
    match store.get id with
    | some obj => (checkOwnerAcl obj request.callerIdentity).isNone
    | none => false
  let (filtered, truncated) :=
    locateVisible visible (store.locate (collectAttributes request.attributes)) []
  { KmipResponse.successBare with
    locatedIds := filtered
    attributes := if truncated then [⟨"Locate-Truncated", .boolean true⟩] else [] }

/-- The stub of the cryptographic operations. -/
def stubResponse (op : KmipOperation) : KmipResponse :=
  .error .operationNotSupported (op.display ++ ": operation not implemented in this build")

/-- Random bytes of the wanted length. -/
def processRngRetrieve (env : KmipEnv) (request : KmipRequest) : KmipResponse :=
  let bits := ((lastAttribute request.attributes "Cryptographic Length" (·.toInteger?)).map
    Int32.toInt).getD 256
  if bits ≤ 0 ∨ bits % 8 ≠ 0 then
    .error .invalidField "RNG_Retrieve length must be positive and a multiple of 8 bits"
  else if 16 * 1024 < bits.toNat / 8 then
    .error .invalidField "RNG_Retrieve length exceeds server cap (16 KiB)"
  else
    match env.tryFillBytes (bits.toNat / 8) with
    | none => .error .cryptographicFailure "OS RNG unavailable"
    | some buf => { KmipResponse.successBare with attributes := [⟨"Data", .bytes buf⟩] }

/-- The output length of a DeriveKey request, if it is acceptable. -/
def deriveKeyBits (request : KmipRequest) : Option Int32 :=
  (lastAttribute request.attributes "Cryptographic Length" (·.toInteger?)).filter fun b =>
    0 < b.toInt && b.toInt % 8 = 0 && b.toInt ≤ 8192

/-- A new key, derived from the material of another one. -/
def processDeriveKey [HkdfSha256] (env : KmipEnv) (request : KmipRequest)
    (store : InMemoryKeyStore) : KmipResult :=
  withUniqueId request store "DeriveKey" fun id =>
    match deriveKeyBits request with
    | none => (.error .invalidField
        "DeriveKey requires a positive Cryptographic Length (multiple of 8, <= 8192 bits)", store)
    | some outBits =>
      match (store.get id).filter (fun o => o.state ≠ .destroyed) with
      | none => (.error .objectNotFound "DeriveKey: input key not found", store)
      | some obj =>
        match checkOwnerAclForRequest obj request with
        | some resp => (resp, store)
        | none =>
          match obj.keyMaterial.filter (fun m => m ≠ []) with
          | none => (.error .cryptographicFailure "DeriveKey: input key has no material", store)
          | some ikm =>
            let salt := (lastAttribute request.attributes "Salt" (·.toBytes?)).filter (· ≠ [])
            let info := (lastAttribute request.attributes "Info" (·.toBytes?)).getD []
            match HkdfSha256.expand salt ikm info (outBits.toInt.toNat / 8) with
            | none => (.error .cryptographicFailure "DeriveKey: HKDF expand failed", store)
            | some okm =>
              let owner : KmipAttributes :=
                match request.callerIdentity with
                | some c => (∅ : KmipAttributes).insert "owner" (.text c)
                | none => ∅
              let attrs := (owner.insert "Cryptographic Length" (.integer outBits)).insert
                "Derived From" (.text id)
              let (newId, store) := store.create env.nowEpoch .symmetricKey okm attrs
              ({ KmipResponse.success newId with objectType := some .symmetricKey }, store)

/-- `dispatch_operation`. -/
def dispatchOperation [HkdfSha256] (env : KmipEnv) (request : KmipRequest)
    (store : InMemoryKeyStore) : KmipResult :=
  match request.operation with
  | .create => processCreate env request store
  | .get => processGet request store
  | .activate => processActivate env request store
  | .revoke => processRevoke env request store
  | .destroy => processDestroy env request store
  | .query => (processQuery, store)
  | .getAttributes => processGetAttributes request store
  | .register => processRegister env request store
  | .locate => (processLocate request store, store)
  | .check => processCheck env request store
  | .addAttribute => processAddAttribute env request store
  | .modifyAttribute => processModifyAttribute env request store
  | .deleteAttribute => processDeleteAttribute env request store
  | .deriveKey => processDeriveKey env request store
  | .rngRetrieve => (processRngRetrieve env request, store)
  | .createKeyPair => (stubResponse .createKeyPair, store)
  | .encrypt => (stubResponse .encrypt, store)
  | .decrypt => (stubResponse .decrypt, store)
  | .sign => (stubResponse .sign, store)
  | .signatureVerify => (stubResponse .signatureVerify, store)
  | .mac => (stubResponse .mac, store)
  | .macVerify => (stubResponse .macVerify, store)

end CratonHsm
