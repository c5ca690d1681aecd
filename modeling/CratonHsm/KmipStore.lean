import CratonHsm.RaftCommand

/-!
# KMIP objects and the in-memory key store

The stored objects of `operations.rs`, the lifecycle table and `InMemoryKeyStore`.  Hash
maps are sorted maps here; the only place where their order can be observed is the order of
the attributes that `get_attributes` returns and of the ids that `locate` returns.  The
wall clock is an argument of the operations that stamp an object.
-/

namespace CratonHsm
open Std PrefixFreeCode

/-- The lifecycle of an object. -/
inductive KmipObjectState where
  | preActive | active | deactivated | compromised | destroyed
  deriving DecidableEq

/-- The `Debug` name, which is also the `Display` text. -/
def KmipObjectState.display : KmipObjectState → String
  | preActive => "PreActive"
  | active => "Active"
  | deactivated => "Deactivated"
  | compromised => "Compromised"
  | destroyed => "Destroyed"

/-- The types of managed objects. -/
inductive KmipObjectType where
  | symmetricKey | publicKey | privateKey | certificate | secretData | opaqueData
  deriving DecidableEq

namespace KmipObjectType

/-- The number on the wire. -/
def toU32 : KmipObjectType → UInt32
  | symmetricKey => 1
  | publicKey => 2
  | privateKey => 3
  | certificate => 6
  | secretData => 7
  | opaqueData => 8

/-- The type with a number. -/
def fromU32 (v : UInt32) : Option KmipObjectType :=
  if v = 1 then some symmetricKey
  else if v = 2 then some publicKey
  else if v = 3 then some privateKey
  else if v = 6 then some certificate
  else if v = 7 then some secretData
  else if v = 8 then some opaqueData
  else none

/-- The name in messages. -/
def display : KmipObjectType → String
  | symmetricKey => "SymmetricKey"
  | publicKey => "PublicKey"
  | privateKey => "PrivateKey"
  | certificate => "Certificate"
  | secretData => "SecretData"
  | opaqueData => "OpaqueData"

end KmipObjectType

/-- Why a request fails. -/
inductive KmipResultReason where
  | itemNotFound | notAuthorized | permissionDenied | objectNotFound | cryptographicFailure
  | invalidMessage | invalidField | operationNotSupported | generalFailure
  deriving DecidableEq

/-- The value of an attribute. -/
inductive KmipAttributeValue where
  | text (s : String)
  | integer (v : Int32)
  | longInteger (v : Int64)
  | enum (v : UInt32)
  | bytes (b : Bytes)
  | boolean (v : Bool)
  deriving DecidableEq

/-- A named attribute. -/
structure KmipAttribute where
  name : String
  value : KmipAttributeValue
  deriving DecidableEq

/-- Attributes by name. -/
abbrev KmipAttributes := ExtTreeMap String KmipAttributeValue

/-- Collecting named attributes into a map: a later one replaces an earlier one. -/
def collectAttributes (attrs : List KmipAttribute) : KmipAttributes :=
  attrs.foldl (fun m a => m.insert a.name a.value) ∅

/-- A managed object. -/
structure KmipStoredObject where
  id : String
  objectType : KmipObjectType
  state : KmipObjectState
  keyMaterial : Option Bytes
  attributes : KmipAttributes
  created : Nat
  modified : Nat

/-! ## Attribute names -/

/-- `str::to_ascii_lowercase`. -/
def asciiLowercase (s : String) : String := s.map Char.toLower

/-- `IMMUTABLE_ATTRIBUTES`. -/
def immutableAttributes : List String :=
  ["owner", "Cryptographic Algorithm", "Cryptographic Length", "Object Type", "Key Material"]

/-- `is_immutable_attribute`, ignoring ASCII case. -/
def isImmutableAttribute (name : String) : Bool :=
  immutableAttributes.any (fun i => asciiLowercase i = asciiLowercase name)

/-- `char::is_whitespace`: the Unicode property `White_Space`. -/
def isWhitespace (c : Char) : Bool :=
  let n := c.toNat
  (9 ≤ n && n ≤ 13) || n = 0x20 || n = 0x85 || n = 0xA0 || n = 0x1680 ||
    (0x2000 ≤ n && n ≤ 0x200A) || n = 0x2028 || n = 0x2029 || n = 0x202F || n = 0x205F || n = 0x3000

/-- `str::trim`, on the characters. -/
def trimmed (s : String) : List Char :=
  ((s.toList.dropWhile isWhitespace).reverse.dropWhile isWhitespace).reverse

/-- The name is empty or has whitespace around it. -/
def hasOuterWhitespace (name : String) : Bool := trimmed name = [] || trimmed name ≠ name.toList

/-- Some attribute of the object has this name up to ASCII case. -/
def KmipStoredObject.hasAttributeIgnoringCase (obj : KmipStoredObject) (name : String) : Bool :=
  obj.attributes.keys.any (fun k => asciiLowercase k = asciiLowercase name)

/-! ## The lifecycle -/

/-- `allowed_transitions`. -/
def allowedTransitions : KmipObjectState → KmipObjectState → Bool
  | .preActive, .active => true
  | .active, .deactivated => true
  | .preActive, .destroyed => true
  | .deactivated, .destroyed => true
  | _, _ => false

/-! ## The store -/

/-- `InMemoryKeyStore`.  A type without an entry in the index has an empty one. -/
structure InMemoryKeyStore where
  objects : ExtTreeMap String KmipStoredObject := ∅
  typeIndex : KmipObjectType → ExtTreeSet String := fun _ => ∅
  counter : UInt64 := 1

/-- Hexadecimal digits padded with zeros to a width. -/
def hexPadded (width n : Nat) : String := String.ofList ((Nat.toDigits 16 n).leftpad width '0')

namespace InMemoryKeyStore

/-- The id enters the index of its type. -/
def indexInsert (s : InMemoryKeyStore) (t : KmipObjectType) (id : String) : InMemoryKeyStore :=
  { s with typeIndex := fun u => if u = t then (s.typeIndex u).insert id else s.typeIndex u }

/-- The id leaves the index of its type. -/
def indexRemove (s : InMemoryKeyStore) (t : KmipObjectType) (id : String) : InMemoryKeyStore :=
  { s with typeIndex := fun u => if u = t then (s.typeIndex u).erase id else s.typeIndex u }

/-- Writing an object back under its key. -/
def put (s : InMemoryKeyStore) (id : String) (obj : KmipStoredObject) : InMemoryKeyStore :=
  { s with objects := s.objects.insert id obj }

/-- The object under an id. -/
def get (s : InMemoryKeyStore) (id : String) : Option KmipStoredObject := s.objects[id]?

/-- `create`: the counter wraps around. -/
def create (s : InMemoryKeyStore) (nowEpoch : Nat) (objectType : KmipObjectType)
    (keyMaterial : Bytes) (attributes : KmipAttributes) : String × InMemoryKeyStore :=
  let id := "kmip-" ++ hexPadded 8 s.counter.toNat
  let obj : KmipStoredObject := {
    id := id, objectType := objectType, state := .preActive, keyMaterial := some keyMaterial
    attributes := attributes, created := nowEpoch, modified := nowEpoch }
  (id, ({ s with counter := s.counter + 1 }.indexInsert objectType id).put id obj)

/-- The checks that `activate`, `revoke` and `destroy` share: the object exists, is not
destroyed and may go to the new state. -/
def transitionTarget (s : InMemoryKeyStore) (id : String) (target : KmipObjectState) :
    Except KmipResultReason KmipStoredObject :=
  match s.objects[id]? with
  | none => .error .objectNotFound
  | some obj =>
    if obj.state = .destroyed then .error .objectNotFound
    else if allowedTransitions obj.state target then .ok obj
    else .error .permissionDenied

/-- From pre-active to active. -/
def activate (s : InMemoryKeyStore) (nowEpoch : Nat) (id : String) :
    Except KmipResultReason InMemoryKeyStore := do
  let obj ← s.transitionTarget id .active
  return s.put id { obj with state := .active, modified := nowEpoch }

/-- From active to deactivated. -/
def revoke (s : InMemoryKeyStore) (nowEpoch : Nat) (id : String) :
    Except KmipResultReason InMemoryKeyStore := do
  let obj ← s.transitionTarget id .deactivated
  return s.put id { obj with state := .deactivated, modified := nowEpoch }

/-- `destroy` also leaves the type index and erases the key material. -/
def destroy (s : InMemoryKeyStore) (nowEpoch : Nat) (id : String) :
    Except KmipResultReason InMemoryKeyStore := do
  let obj ← s.transitionTarget id .destroyed
  return (s.indexRemove obj.objectType id).put id
    { obj with state := .destroyed, keyMaterial := none, modified := nowEpoch }

/-- The attributes of the filter that `matched` leaves to be compared are those of the
object. -/
def matchesFilter (obj : KmipStoredObject) (filter : KmipAttributes) (matched : String → Bool) :
    Bool :=
  filter.toList.all (fun p => matched p.1 || obj.attributes[p.1]? = some p.2)

/-- `locate`: through the type index if the filter names a known object type. -/
def locate (s : InMemoryKeyStore) (filter : KmipAttributes) : List String :=
  let scan := (s.objects.toList.filter (fun p =>
    p.2.state ≠ .destroyed && matchesFilter p.2 filter (fun _ => false))).map Prod.fst
  match filter["Object Type"]? with
  | some (.enum v) =>
    match KmipObjectType.fromU32 v with
    | some t => (s.typeIndex t).toList.filter (fun id =>
        match s.objects[id]? with
        | some obj => obj.state ≠ .destroyed && matchesFilter obj filter (· = "Object Type")
        | none => false)
    | none => scan
  | _ => scan

/-- `SYNTHETIC_NAMES`. -/
def syntheticNames : List String := ["State", "Object Type", "Initial Date", "Last Change Date"]

/-- `get_attributes`: the stored attributes, then those made from the object's own fields,
which win over stored ones of the same name. -/
def getAttributes (s : InMemoryKeyStore) (id : String) : Option (List KmipAttribute) :=
  s.objects[id]?.map fun obj =>
    let stored := obj.attributes.toList.filter fun p =>
      !syntheticNames.any (fun n => asciiLowercase n = asciiLowercase p.1)
    stored.map (fun p => ⟨p.1, p.2⟩) ++ [
      ⟨"State", .text obj.state.display⟩,
      ⟨"Object Type", .enum obj.objectType.toU32⟩,
      ⟨"Initial Date", .longInteger (Int64.ofNat obj.created)⟩,
      ⟨"Last Change Date", .longInteger (Int64.ofNat obj.modified)⟩]

/-- `register`: a present id is reported as not found. -/
def register (s : InMemoryKeyStore) (nowEpoch : Nat) (id : String) (objectType : KmipObjectType)
    (keyMaterial : Option Bytes) (attributes : KmipAttributes) :
    Except KmipResultReason (String × InMemoryKeyStore) :=
  match s.objects[id]? with
  | some _ => .error .objectNotFound
  | none =>
    let obj : KmipStoredObject := {
      id := id, objectType := objectType, state := .preActive, keyMaterial := keyMaterial
      attributes := attributes, created := nowEpoch, modified := nowEpoch }
    .ok (id, (s.put id obj).indexInsert objectType id)

/-- The store refuses a new attribute of this name on the object. -/
def refusesNewAttribute (obj : KmipStoredObject) (name : String) : Bool :=
  hasOuterWhitespace name || name.toList.any (fun c => isWhitespace c && c ≠ ' ') ||
    obj.hasAttributeIgnoringCase name

/-- The attributes are written over those of the object. -/
def withAttributes (obj : KmipStoredObject) (attrs : KmipAttributes) (nowEpoch : Nat) :
    KmipStoredObject :=
  { obj with
    attributes := attrs.foldl (fun m k v => m.insert k v) obj.attributes
    modified := nowEpoch }

/-- Attributes are added to an object. -/
def addAttributes (s : InMemoryKeyStore) (nowEpoch : Nat) (id : String) (attrs : KmipAttributes) :
    Except KmipResultReason InMemoryKeyStore :=
  match s.objects[id]? with
  | none => .error .objectNotFound
  | some obj =>
    if attrs.keys.any isImmutableAttribute then .error .permissionDenied
    else if attrs.keys.any (refusesNewAttribute obj) then .error .invalidField
    else .ok (s.put id (withAttributes obj attrs nowEpoch))

/-- Attributes of an object get new values. -/
def modifyAttributes (s : InMemoryKeyStore) (nowEpoch : Nat) (id : String)
    (attrs : KmipAttributes) : Except KmipResultReason InMemoryKeyStore :=
  match s.objects[id]? with
  | none => .error .objectNotFound
  | some obj =>
    if attrs.keys.any isImmutableAttribute then .error .permissionDenied
    else .ok (s.put id (withAttributes obj attrs nowEpoch))

/-- Attributes of an object are removed. -/
def deleteAttributes (s : InMemoryKeyStore) (nowEpoch : Nat) (id : String) (names : List String) :
    Except KmipResultReason InMemoryKeyStore :=
  match s.objects[id]? with
  | none => .error .objectNotFound
  | some obj =>
    if names.any isImmutableAttribute then .error .permissionDenied
    else .ok (s.put id { obj with
      attributes := names.foldl (fun m n => m.erase n) obj.attributes, modified := nowEpoch })

/-- The attribute that limits the use of a key. -/
def usageCounterName : String := "Cryptographic Usage Limits Counter"

/-- `decrement_usage_counter`: the count left, if the object has a counter. -/
def decrementUsageCounter (s : InMemoryKeyStore) (nowEpoch : Nat) (id : String) :
    Option Int64 × InMemoryKeyStore :=
  match s.objects[id]? with
  | none => (none, s)
  | some obj =>
    let cur : Option Int :=
      match obj.attributes[usageCounterName]? with
      | some (.longInteger v) => some v.toInt
      | some (.integer v) => some v.toInt
      | _ => none
    match cur with
    | none => (none, s)
    | some cur =>
      let next := Int64.ofInt (max (cur - 1) 0)
      (some next, s.put id { obj with
        attributes := obj.attributes.insert usageCounterName (.longInteger next)
        modified := nowEpoch })

/-- The store without the object of this id. -/
def remove (s : InMemoryKeyStore) (id : String) : InMemoryKeyStore :=
  { s with
    objects := s.objects.erase id
    typeIndex := fun t => (s.typeIndex t).erase id }

@[simp] theorem remove_objects (s : InMemoryKeyStore) (id : String) :
    (s.remove id).objects[id]? = none := by
  simp [remove]

end InMemoryKeyStore

end CratonHsm
