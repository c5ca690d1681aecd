import CratonHsm.KmipEffects

/-!
# Requests and the objects they do not name

The server and its clients take their ids from one namespace: `create` writes under the next
id of its counter without looking whether a client has registered something there.  A
request touches nothing but its target exactly when that id is free.
-/

namespace CratonHsm
open Std OrderedMaps PrefixFreeCode GuardedRun

section Frame
variable [HkdfSha256]

/-- The request succeeds in creating an object under an id of the server. -/
def Creates (store : InMemoryKeyStore) (event : KmipEvent) : Prop :=
  event.2.operation ∈ creatingOperations ∧ (answerTo store event).status = .success

instance (store : InMemoryKeyStore) (event : KmipEvent) : Decidable (Creates store event) :=
  inferInstanceAs (Decidable (_ ∧ _))

/-- A `Create` gives a length that its algorithm allows, and the random generator answers. -/
def AcceptsCreate (env : KmipEnv) (request : KmipRequest) : Prop :=
  ∃ len ∈ lastAttribute request.attributes "Cryptographic Length" (·.toInteger?),
    createLengthError (lastAttribute request.attributes "Cryptographic Algorithm" (·.toEnum?))
      len.toInt = none ∧
    len.toInt % 8 = 0 ∧ 128 ≤ len.toInt ∧ (env.tryFillBytes (len.toInt.toNat / 8)).isSome

/-- A `DeriveKey` gives a length and names a live object that the caller owns and whose material
can be expanded. -/
def AcceptsDeriveKey (request : KmipRequest) (store : InMemoryKeyStore) : Prop :=
  ∃ id ∈ request.uniqueId, ∃ bits ∈ deriveKeyBits request, ∃ obj ∈ store.get id,
    obj.state ≠ .destroyed ∧ checkOwnerAclForRequest obj request = none ∧
    ∃ ikm ∈ obj.keyMaterial, ikm ≠ [] ∧
      (HkdfSha256.expand ((lastAttribute request.attributes "Salt" (·.toBytes?)).filter (· ≠ []))
        ikm ((lastAttribute request.attributes "Info" (·.toBytes?)).getD [])
        (bits.toInt.toNat / 8)).isSome

/-- The store would take a new object for the request. -/
def Accepts (store : InMemoryKeyStore) (event : KmipEvent) : Prop :=
  event.2.operation = .create ∧ AcceptsCreate event.1 event.2 ∨
    event.2.operation = .deriveKey ∧ AcceptsDeriveKey event.2 store

instance (env : KmipEnv) (request : KmipRequest) : Decidable (AcceptsCreate env request) :=
  inferInstanceAs (Decidable (∃ _ ∈ _, _))

instance (request : KmipRequest) (store : InMemoryKeyStore) :
    Decidable (AcceptsDeriveKey request store) :=
  inferInstanceAs (Decidable (∃ _ ∈ _, _))

instance (store : InMemoryKeyStore) (event : KmipEvent) : Decidable (Accepts store event) :=
  inferInstanceAs (Decidable (_ ∨ _))

omit [HkdfSha256] in
theorem processCreate_success_iff {env : KmipEnv} {request : KmipRequest}
    {store : InMemoryKeyStore} :
    (processCreate env request store).1.status = .success ↔ AcceptsCreate env request := by
  unfold processCreate AcceptsCreate
  rcases lastAttribute request.attributes "Cryptographic Length" (·.toInteger?) with _ | len
  · simp [KmipResponse.error]
  simp only [Option.mem_def, Option.some.injEq, exists_eq_left']
  split
  · next h => simp [h, KmipResponse.error]
  next h =>
  simp only [h, true_and]
  by_cases hpos : len.toInt ≤ 0
  · rw [if_pos hpos]
    constructor
    · intro he
      cases he
    · intro he
      omega
  rw [if_neg hpos]
  by_cases hsize : len.toInt % 8 ≠ 0 ∨ len.toInt < 128
  · rw [if_pos hsize]
    constructor
    · intro he
      cases he
    · intro he
      omega
  rw [if_neg hsize]
  rcases env.tryFillBytes (len.toInt.toNat / 8) with _ | material
  · simp [KmipResponse.error]
  · simp only [Option.isSome_some, and_true]
    exact iff_of_true rfl (by omega)

theorem processDeriveKey_success_iff {env : KmipEnv} {request : KmipRequest}
    {store : InMemoryKeyStore} :
    (processDeriveKey env request store).1.status = .success ↔ AcceptsDeriveKey request store := by
  unfold processDeriveKey withUniqueId AcceptsDeriveKey
  rcases request.uniqueId with _ | id
  · simp [KmipResponse.error]
  rcases deriveKeyBits request with _ | bits
  · simp [KmipResponse.error]
  simp only [Option.mem_def, Option.some.injEq, exists_eq_left']
  rcases store.get id with _ | obj
  · simp [KmipResponse.error]
  simp only [Option.some.injEq, exists_eq_left']
  by_cases hdead : obj.state = .destroyed
  · rw [Option.filter_some_neg (by simpa using hdead)]
    simp [hdead, KmipResponse.error]
  rw [Option.filter_some_pos (by simpa using hdead)]
  dsimp only
  cases hacl : checkOwnerAclForRequest obj request with
  | some resp =>
    rw [checkOwnerAclWithOptions_some hacl]
    simp [objectNotFound, KmipResponse.error]
  | none =>
    rcases obj.keyMaterial with _ | ikm
    · simp [KmipResponse.error]
    by_cases hne : ikm = []
    · rw [Option.filter_some_neg (by simpa using hne)]
      simp [hne, KmipResponse.error]
    rw [Option.filter_some_pos (by simpa using hne)]
    simp only [Option.some.injEq, exists_eq_left']
    cases HkdfSha256.expand ((lastAttribute request.attributes "Salt"
        (·.toBytes?)).filter (· ≠ [])) ikm
        ((lastAttribute request.attributes "Info" (·.toBytes?)).getD [])
        (bits.toInt.toNat / 8) with
    | none => simp [KmipResponse.error]
    | some okm => simp [hdead, hne, KmipResponse.success]

/-- **Which requests create**, by the request and the store before it. -/
theorem creates_iff {store : InMemoryKeyStore} {event : KmipEvent} :
    Creates store event ↔ Accepts store event := by
  unfold Creates Accepts answerTo dispatchOperation
  cases event.2.operation with
  | create => simp [creatingOperations, processCreate_success_iff]
  | deriveKey => simp [creatingOperations, processDeriveKey_success_iff]
  | _ => simp [creatingOperations]

/-- A created object finds its id unused. -/
def FreshRule (store : InMemoryKeyStore) (event : KmipEvent) : Prop :=
  Accepts store event → store.nextId ∉ store.objects

instance (store : InMemoryKeyStore) (event : KmipEvent) : Decidable (FreshRule store event) :=
  inferInstanceAs (Decidable (_ → _))

/-- The objects that the request does not name stay as they are, and an id that the server
chooses was not in use. -/
structure TouchesOnlyTarget (store : InMemoryKeyStore) (event : KmipEvent) : Prop where
  others : ∀ (id : String) (obj : KmipStoredObject), store.objects[id]? = some obj →
    event.2.uniqueId ≠ some id → (kmipStep store event).objects[id]? = some obj
  unused : Creates store event → ∀ id, (answerTo store event).uniqueId = some id →
    id ∉ store.objects

variable {store : InMemoryKeyStore} {event : KmipEvent} {id : String} {obj : KmipStoredObject}

omit [HkdfSha256] in
theorem mem_objects (h : store.objects[id]? = some obj) : id ∈ store.objects := by
  rw [ExtTreeMap.mem_iff_isSome_getElem?, h]
  rfl

theorem FreshRule.ne_nextId (h : FreshRule store event) (hobj : store.objects[id]? = some obj)
    (hcreates : Creates store event) : id ≠ store.nextId :=
  fun he => h (creates_iff.mp hcreates) (he ▸ mem_objects hobj)

/-- **A stored object after a request** that does not create another one in its place: it is
as before, or the request names it and changes it. -/
theorem object_kmipStep (hkeyed : store.WellKeyed) (hobj : store.objects[id]? = some obj)
    (hid : Creates store event → id ≠ store.nextId) :
    ∃ obj', (kmipStep store event).objects[id]? = some obj' ∧
      (obj' = obj ∨ event.2.uniqueId = some id ∧ Change event.1 event.2 obj obj' ∧
        (answerTo store event).status = .success) := by
  cases kmipStep_effect hkeyed event with
  | unchanged hstore _ => exact ⟨obj, by rw [hstore]; exact hobj, .inl rfl⟩
  | created hop hr _ _ hobjects _ =>
    have hne : id ≠ store.nextId := hid ⟨hop, hr⟩
    exact ⟨obj, by rw [hobjects, getElem?_insert_of_ne hne]; exact hobj, .inl rfl⟩
  | @registered id' _ _ _ hfree _ _ _ hobjects _ =>
    have hne : id ≠ id' := by
      rintro rfl
      rw [hfree] at hobj
      cases hobj
    exact ⟨obj, by rw [hobjects, getElem?_insert_of_ne hne]; exact hobj, .inl rfl⟩
  | @updated id' obj₁ obj₂ htarget hfound hr hchange hobjects _ =>
    by_cases he : id = id'
    · subst he
      have heq : obj₁ = obj := Option.some.inj (hfound.symm.trans hobj)
      subst heq
      exact ⟨obj₂, by rw [hobjects, ExtTreeMap.getElem?_insert_self], .inr ⟨htarget, hchange, hr⟩⟩
    · exact ⟨obj, by rw [hobjects, getElem?_insert_of_ne he]; exact hobj, .inl rfl⟩

/-- A creating request adds an object under the next id, and answers with that id. -/
theorem Creates.effect (hkeyed : store.WellKeyed) (h : Creates store event) :
    (answerTo store event).uniqueId = some store.nextId ∧
      (kmipStep store event).counter = store.counter + 1 ∧
      ∃ obj, New event.2 store.nextId obj ∧
        (kmipStep store event).objects = store.objects.insert store.nextId obj := by
  obtain ⟨hop, hr⟩ := h
  have hproducing : event.2.operation ∈ producingOperations := by
    revert hop
    cases event.2.operation <;> decide
  cases kmipStep_effect hkeyed event with
  | unchanged _ hfail =>
    rw [hfail hproducing] at hr
    cases hr
  | created _ _ hid hnew hobjects hcounter => exact ⟨hid, hcounter, _, hnew, hobjects⟩
  | registered hregister =>
    rw [hregister] at hop
    exact absurd hop (by decide)
  | updated _ _ _ hchange _ _ =>
    exfalso
    cases hchange with
    | moved hmove _ _ =>
      revert hop hmove
      cases event.2.operation <;> simp [creatingOperations, transitionState]
    | rewritten hrewrite _ _ =>
      revert hop hrewrite
      cases event.2.operation <;> decide

omit [HkdfSha256] in
theorem mem_insert_objects {objects : ExtTreeMap String KmipStoredObject} {k : String} :
    k ∈ objects.insert id obj ↔ k = id ∨ k ∈ objects := by
  rw [ExtTreeMap.mem_insert, Std.compare_eq_iff_eq, eq_comm]

/-- Any other request leaves the counter alone and adds at most the id that it registers. -/
theorem kmipStep_of_not_creates (hkeyed : store.WellKeyed) (h : ¬ Creates store event) :
    (kmipStep store event).counter = store.counter ∧
      ∀ id ∈ (kmipStep store event).objects, id ∈ store.objects ∨
        event.2.operation = .register ∧ event.2.uniqueId = some id := by
  cases kmipStep_effect hkeyed event with
  | unchanged hstore _ =>
    rw [hstore]
    exact ⟨rfl, fun id hid => .inl hid⟩
  | created hop hr _ _ _ _ => exact absurd ⟨hop, hr⟩ h
  | registered hop htarget _ _ _ _ hobjects hcounter =>
    refine ⟨hcounter, fun id hid => ?_⟩
    rw [hobjects, mem_insert_objects] at hid
    rcases hid with rfl | hid
    · exact .inr ⟨hop, htarget⟩
    · exact .inl hid
  | updated _ hfound _ _ hobjects hcounter =>
    refine ⟨hcounter, fun id hid => .inl ?_⟩
    rw [hobjects, mem_insert_objects] at hid
    rcases hid with rfl | hid
    · exact mem_objects hfound
    · exact hid

/-- **Requests only touch their target** exactly when a created object finds its id
unused. -/
theorem touchesOnlyTarget_iff (hreach : Reachable store) :
    TouchesOnlyTarget store event ↔ FreshRule store event := by
  have hkeyed := hreach.wellKeyed
  constructor
  · intro h haccepts
    have hcreates := creates_iff.mpr haccepts
    exact h.unused hcreates _ (hcreates.effect hkeyed).1
  intro hfresh
  constructor
  · intro id obj hobj hne
    obtain ⟨obj', hobj', rfl | ⟨htarget, -⟩⟩ := object_kmipStep hkeyed hobj
      (hfresh.ne_nextId hobj)
    · exact hobj'
    · exact absurd htarget hne
  · intro hcreates id hid
    rw [(hcreates.effect hkeyed).1] at hid
    cases hid
    exact hfresh (creates_iff.mp hcreates)

end Frame

/-! ## A registered id in the way of the counter -/

/-- A caller registers an object under an id of its choice. -/
def registerEvent (caller : Option String) (id : String) (attrs : List KmipAttribute) : KmipEvent :=
  (sampleEnv, { operation := .register, uniqueId := some id, attributes := attrs
                callerIdentity := caller })

/-- A caller creates a 128-bit key. -/
def createEvent (caller : Option String) (attrs : List KmipAttribute) : KmipEvent :=
  (sampleEnv, { operation := .create, callerIdentity := caller
                attributes := ⟨"Cryptographic Length", .integer 128⟩ :: attrs })

section Collision
attribute [local instance] zeroHkdf

/-- A key of `mallory` that is not in the way of the counter. -/
def registeredStore : InMemoryKeyStore := kmipStep {} (registerEvent (some "mallory") "k" [])

theorem touchesOnlyTarget_next_to_key :
    "k" ∈ registeredStore.objects ∧
      TouchesOnlyTarget registeredStore (createEvent (some "alice") []) :=
  ⟨by decide +kernel, (touchesOnlyTarget_iff ⟨[_], rfl⟩).mpr (by decide +kernel)⟩

/-- The first key that the server creates replaces what `mallory` registered under its id. -/
theorem create_overwrites_registered :
    ¬ ∀ [HkdfSha256] (store : InMemoryKeyStore) (event : KmipEvent), Reachable store →
      TouchesOnlyTarget store event := by
  intro h
  have htouch := h (kmipStep {} (registerEvent (some "mallory") "kmip-00000001" []))
    (createEvent (some "alice") []) ⟨[_], rfl⟩
  have hunused := htouch.unused (by decide +kernel) "kmip-00000001" (by decide +kernel)
  exact hunused (by decide +kernel)

end Collision

end CratonHsm
