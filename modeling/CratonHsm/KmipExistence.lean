import CratonHsm.KmipOperations

/-!
# What a caller learns about another owner's object

The response to a request that names an object of another owner, compared with the response
on the store without that object.  The owner check answers as if the object were missing,
but not every handler gives that answer for a missing object, and some look at the state of
the object first.  `Masked` says for which requests and objects the two responses agree.
-/

namespace CratonHsm
open Std PrefixFreeCode InMemoryKeyStore List

/-! ## The comparison of identities -/

theorem foldl_or_eq_zero (f : Nat → UInt8) (l : List Nat) (init : UInt8) :
    l.foldl (fun d i => d ||| f i) init = 0 ↔ init = 0 ∧ ∀ i ∈ l, f i = 0 := by
  induction l generalizing init with
  | nil => simp
  | cons i l ih =>
    rw [foldl_cons, ih, UInt8.or_eq_zero_iff]
    simp [and_assoc]

/-- `ct_str_eq` is equality. -/
theorem ctStrEq_iff (a b : String) : ctStrEq a b = true ↔ a = b := by
  simp only [ctStrEq, Bool.and_eq_true, decide_eq_true_eq, foldl_or_eq_zero, true_and]
  constructor
  · rintro ⟨hbytes, hlen⟩
    apply asBytes_injective
    apply ext_getElem? fun i => ?_
    by_cases hi : i < (asBytes a).length
    · have hxor := hbytes i (mem_range.mpr (by omega))
      have hj : i < (asBytes b).length := by omega
      rw [getElem?_eq_getElem hi, getElem?_eq_getElem hj]
      simpa [getD_eq_getElem?_getD, getElem?_eq_getElem hi,
        getElem?_eq_getElem hj] using hxor
    · rw [getElem?_eq_none (by omega), getElem?_eq_none (by omega)]
  · rintro rfl
    exact ⟨fun i _ => UInt8.xor_self, rfl⟩

/-- The object is owned, and not by the caller. -/
def ForeignTo (obj : KmipStoredObject) (caller : Option String) : Prop :=
  ∃ owner, obj.attributes["owner"]? = some (.text owner) ∧ caller ≠ some owner

/-- The owner check denies an object of another owner, strict or not. -/
theorem ForeignTo.denied {obj : KmipStoredObject} {caller : Option String}
    (h : ForeignTo obj caller) (strict : Bool) :
    checkOwnerAclWithOptions obj caller strict = some objectNotFound := by
  obtain ⟨owner, howner, hne⟩ := h
  simp only [checkOwnerAclWithOptions, howner]
  cases caller with
  | none => rfl
  | some c =>
    have hct : ¬ ctStrEq c owner = true := fun heq => hne (by rw [(ctStrEq_iff c owner).mp heq])
    simp only [hct]
    rfl

/-! ## The responses -/

/-- The operations that name one object. -/
def targetedOperations : List KmipOperation :=
  [.get, .getAttributes, .activate, .revoke, .destroy, .check, .addAttribute, .modifyAttribute,
    .deleteAttribute, .deriveKey]

/-- The request and the state of the object it names let the handler hide the object. -/
def Masked (request : KmipRequest) (obj : KmipStoredObject) : Prop :=
  match request.operation with
  | .getAttributes | .addAttribute | .modifyAttribute | .deleteAttribute => True
  | .get | .check => obj.state ≠ .destroyed
  | .deriveKey => obj.state = .destroyed ∨ deriveKeyBits request = none
  | _ => False

section Responses
variable {request : KmipRequest} {store : InMemoryKeyStore} {id : String} {obj : KmipStoredObject}

theorem withUniqueId_some (hid : request.uniqueId = some id) (s : InMemoryKeyStore) (name : String)
    (handler : String → KmipResult) : withUniqueId request s name handler = handler id := by
  simp only [withUniqueId, hid]

theorem withOwnedObject_foreign (hobj : store.get id = some obj)
    (hforeign : ForeignTo obj request.callerIdentity) (handler : KmipStoredObject → KmipResult) :
    withOwnedObject request store id handler = (objectNotFound, store) := by
  simp only [withOwnedObject, hobj, checkOwnerAclForRequest, hforeign.denied]

theorem withOwnedObject_missing {s : InMemoryKeyStore} (h : s.get id = none)
    (handler : KmipStoredObject → KmipResult) :
    withOwnedObject request s id handler = (objectNotFound, s) := by
  simp only [withOwnedObject, h]

theorem get_remove (store : InMemoryKeyStore) (id : String) : (store.remove id).get id = none :=
  remove_objects store id

theorem transitionTarget_missing {s : InMemoryKeyStore} (h : s.get id = none)
    (target : KmipObjectState) : s.transitionTarget id target = .error .objectNotFound := by
  have hnone : s.objects[id]? = none := h
  simp only [transitionTarget, hnone]

/-- The two texts of a refused transition differ from each other, whatever the id. -/
theorem failed_ne_objectNotFound {verb : String} (hverb : verb.toList.head? ≠ some 'o')
    (hne : verb.toList ≠ []) (id : String) :
    objectNotFound ≠ .error .objectNotFound (verb ++ " failed for " ++ id) := by
  intro heq
  have hmessage : "object not found" = verb ++ " failed for " ++ id :=
    Option.some.inj (congrArg KmipResponse.message heq)
  have hhead := congrArg (fun s => s.toList.head?) hmessage
  obtain ⟨c, cs, hcs⟩ := exists_cons_of_ne_nil hne
  simp only [String.toList_append, hcs, cons_append, head?_cons] at hhead hverb
  exact hverb (hhead.symm.trans (by decide))

/-- The answer for a destroyed object gives it away. -/
theorem destroyed_iff (s : InMemoryKeyStore) : ((if obj.state = .destroyed then
    (KmipResponse.error .objectNotFound "object has been destroyed", s)
    else (objectNotFound, s)) : KmipResult).1 = objectNotFound ↔ obj.state ≠ .destroyed := by
  split
  · simp only [*, ne_eq, not_true_eq_false, iff_false]
    decide
  · simp only [*, ne_eq, not_false_eq_true]

section Foreign
variable (hid : request.uniqueId = some id) (hobj : store.get id = some obj)
  (hforeign : ForeignTo obj request.callerIdentity)
include hid hobj hforeign

/-- A transition never hides the object. -/
theorem processTransition_ne (name : String) {verb : String}
    (hverb : verb.toList.head? ≠ some 'o') (hne : verb.toList ≠ [])
    {present missing : String → Except KmipResultReason InMemoryKeyStore}
    (ht : missing id = .error .objectNotFound) :
    (processTransition request store name verb present).1 ≠
      (processTransition request (store.remove id) name verb missing).1 := by
  simp only [processTransition, withUniqueId_some hid, aclCheckedTransition, hobj, checkOwnerAcl,
    hforeign.denied, get_remove store id, answerUpdate, ht]
  exact failed_ne_objectNotFound hverb hne id

/-- The attribute operations check their arguments first and the owner next. -/
theorem processAttributes_eq (name emptyMessage failMessage : String)
    (refusal : KmipStoredObject → KmipAttribute → Option KmipResponse)
    (present missing : String → Except KmipResultReason InMemoryKeyStore) :
    (processAttributes request store name emptyMessage failMessage refusal present).1 =
      (processAttributes request (store.remove id) name emptyMessage failMessage refusal
        missing).1 := by
  simp only [processAttributes, withUniqueId_some hid]
  by_cases hempty : request.attributes = []
  · simp only [hempty, if_true]
  · simp only [hempty, if_false, withOwnedObject_foreign hobj hforeign,
      withOwnedObject_missing (get_remove store id)]

theorem processGetAttributes_eq :
    (processGetAttributes request store).1 =
      (processGetAttributes request (store.remove id)).1 := by
  simp only [processGetAttributes, withUniqueId_some hid, withOwnedObject_foreign hobj hforeign,
    withOwnedObject_missing (get_remove store id)]

theorem processGet_iff :
    (processGet request store).1 = (processGet request (store.remove id)).1 ↔
      obj.state ≠ .destroyed := by
  simp only [processGet, withUniqueId_some hid, hobj, get_remove, checkOwnerAclForRequest,
    hforeign.denied]
  exact destroyed_iff store

theorem processCheck_iff (env : KmipEnv) :
    (processCheck env request store).1 = (processCheck env request (store.remove id)).1 ↔
      obj.state ≠ .destroyed := by
  simp only [processCheck, withUniqueId_some hid, hobj, get_remove, checkOwnerAclForRequest,
    hforeign.denied]
  exact destroyed_iff store

/-- A destroyed input key is reported like a missing one, a live one of another owner is
not. -/
theorem processDeriveKey_iff [HkdfSha256] (env : KmipEnv) :
    (processDeriveKey env request store).1 = (processDeriveKey env request (store.remove id)).1 ↔
      obj.state = .destroyed ∨ deriveKeyBits request = none := by
  have hgone : ((store.remove id).get id).filter (fun o => o.state ≠ .destroyed) = none := by
    rw [get_remove, Option.filter_none]
  simp only [processDeriveKey, withUniqueId_some hid, hgone]
  rcases hbits : deriveKeyBits request with _ | bits
  · simp
  by_cases hstate : obj.state = .destroyed
  · have hdead : (store.get id).filter (fun o => o.state ≠ .destroyed) = none := by
      simp [hobj, hstate]
    simp only [hdead, hstate, true_or]
  · have hlive : (store.get id).filter (fun o => o.state ≠ .destroyed) = some obj := by
      simp [hobj, hstate]
    simp only [hlive, checkOwnerAclForRequest, hforeign.denied, hstate, reduceCtorEq, or_self,
      iff_false]
    decide

end Foreign

end Responses

/-- **The existence of another owner's object** shows in the response exactly when the
request and the object are not masked. -/
theorem dispatchOperation_remove_iff [HkdfSha256] (env : KmipEnv) {request : KmipRequest}
    {store : InMemoryKeyStore} {id : String} {obj : KmipStoredObject}
    (hop : request.operation ∈ targetedOperations) (hid : request.uniqueId = some id)
    (hobj : store.objects[id]? = some obj) (hforeign : ForeignTo obj request.callerIdentity) :
    (dispatchOperation env request store).1 = (dispatchOperation env request (store.remove id)).1 ↔
      Masked request obj := by
  have hget : store.get id = some obj := hobj
  have hmissing := transitionTarget_missing (get_remove store id)
  simp only [dispatchOperation, Masked]
  cases h : request.operation with
  | get => exact processGet_iff hid hget hforeign
  | getAttributes => exact iff_true_intro (processGetAttributes_eq hid hget hforeign)
  | activate | revoke | destroy =>
    refine iff_false_intro (processTransition_ne hid hget hforeign _ (by decide) (by decide) ?_)
    simp only [activate, revoke, destroy, hmissing]
    rfl
  | check => exact processCheck_iff hid hget hforeign env
  | addAttribute | modifyAttribute | deleteAttribute =>
    exact iff_true_intro (processAttributes_eq hid hget hforeign _ _ _ _ _ _)
  | deriveKey => exact processDeriveKey_iff hid hget hforeign env
  | _ =>
    rw [h] at hop
    exact absurd hop (by decide)

/-! ## A key of another tenant -/

/-- A key of `alice`, created and not yet activated. -/
def aliceKey : KmipStoredObject where
  id := "kmip-00000001"
  objectType := .symmetricKey
  state := .preActive
  keyMaterial := some (List.replicate 16 7)
  attributes := (∅ : KmipAttributes).insert "owner" (.text "alice")
  created := 0
  modified := 0

def aliceStore : InMemoryKeyStore where
  objects := (∅ : ExtTreeMap String KmipStoredObject).insert "kmip-00000001" aliceKey
  counter := 2

/-- `bob` asks about the key of `alice`. -/
def bobRequest (op : KmipOperation) : KmipRequest where
  operation := op
  uniqueId := some "kmip-00000001"
  callerIdentity := some "bob"

def sampleEnv : KmipEnv := ⟨0, fun n => some (List.replicate n 0)⟩

theorem aliceKey_foreign : ForeignTo aliceKey (some "bob") :=
  ⟨"alice", by decide +kernel, by decide⟩

/-- HKDF plays no part in the refusals. -/
@[reducible]
def zeroHkdf : HkdfSha256 := ⟨fun _ _ _ n => some (List.replicate n 0)⟩

theorem dispatchOperation_remove_get :
    (@dispatchOperation zeroHkdf sampleEnv (bobRequest .get) aliceStore).1 =
      (@dispatchOperation zeroHkdf sampleEnv (bobRequest .get)
        (aliceStore.remove "kmip-00000001")).1 :=
  (@dispatchOperation_remove_iff zeroHkdf sampleEnv (bobRequest .get) aliceStore "kmip-00000001"
    aliceKey (by decide) rfl rfl aliceKey_foreign).mpr (show aliceKey.state ≠ .destroyed by decide)

/-- `Activate` says `object not found` of another owner's key and `activate failed` of a
missing one. -/
theorem activate_tells_foreign_from_missing :
    ¬ ∀ [HkdfSha256] (env : KmipEnv) (request : KmipRequest) (store : InMemoryKeyStore)
      (id : String) (obj : KmipStoredObject), request.operation ∈ targetedOperations →
      request.uniqueId = some id → store.objects[id]? = some obj →
      ForeignTo obj request.callerIdentity →
      (dispatchOperation env request store).1 =
        (dispatchOperation env request (store.remove id)).1 := by
  intro h
  have heq := @h zeroHkdf sampleEnv (bobRequest .activate) aliceStore "kmip-00000001" aliceKey
    (by decide) rfl rfl aliceKey_foreign
  revert heq
  decide +kernel

end CratonHsm
