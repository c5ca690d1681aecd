import CratonHsm.GuardedRun
import CratonHsm.KmipExistence
import CratonHsm.OrderedMaps

/-!
# What a request does to the store

A request leaves the objects alone, adds one under an id chosen by the server or by the
client, or changes the one it names.  `Effect` lists these outcomes with what the response
says in each of them, and `dispatchOperation_effect` is the one place where the handlers are
taken apart: everything said below about runs of requests is derived from it.
-/

namespace CratonHsm
open Std OrderedMaps PrefixFreeCode GuardedRun InMemoryKeyStore List Option ExtTreeMap

/-- A collected attribute was in the list. -/
theorem mem_of_collectAttributes {attrs : List KmipAttribute} {n : String} {v : KmipAttributeValue}
    (h : (collectAttributes attrs)[n]? = some v) : ⟨n, v⟩ ∈ attrs := by
  induction attrs using List.reverseRecOn with
  | nil => simp [collectAttributes] at h
  | append_singleton attrs a ih =>
    rw [collectAttributes, foldl_append, foldl_cons, foldl_nil] at h
    rcases getElem?_insert_cases h with ⟨rfl, rfl⟩ | ⟨-, h⟩
    · exact mem_append_right _ mem_cons_self
    · exact mem_append_left _ (ih h)

theorem collectAttributes_eq_none {attrs : List KmipAttribute} {n : String}
    (h : n ∉ attrs.map KmipAttribute.name) : (collectAttributes attrs)[n]? = none := by
  cases hv : (collectAttributes attrs)[n]? with
  | none => rfl
  | some v => exact absurd (mem_map_of_mem (mem_of_collectAttributes hv)) h

/-- The attribute map without this name leaves the attribute of the object alone. -/
theorem withAttributes_of_none (obj : KmipStoredObject) {attrs : KmipAttributes} {n : String}
    (h : attrs[n]? = none) (now : Nat) :
    (withAttributes obj attrs now).attributes[n]? = obj.attributes[n]? := by
  rw [withAttributes, foldl_eq_foldl_toList]
  apply getElem?_foldl_insert
  rintro ⟨k, v⟩ hp rfl
  rw [mem_toList_iff_getElem?_eq_some.mp hp] at h
  cases h

/-! ## The outcomes -/

namespace InMemoryKeyStore

/-- The id of the next object that the server names. -/
def nextId (s : InMemoryKeyStore) : String := "kmip-" ++ hexPadded 8 s.counter.toNat

/-- Every object is stored under its own id. -/
def WellKeyed (s : InMemoryKeyStore) : Prop :=
  ∀ (id : String) (obj : KmipStoredObject), s.objects[id]? = some obj → obj.id = id

end InMemoryKeyStore

/-- The operations that add an object under an id of the server. -/
def creatingOperations : List KmipOperation := [.create, .deriveKey]

/-- The operations that add an object. -/
def producingOperations : List KmipOperation := [.create, .deriveKey, .register]

/-- The operations that write the attributes of an object. -/
def rewritingOperations : List KmipOperation :=
  [.addAttribute, .modifyAttribute, .deleteAttribute, .check]

/-- The state that a lifecycle operation asks for. -/
def transitionState : KmipOperation → Option KmipObjectState
  | .activate => some .active
  | .revoke => some .deactivated
  | .destroy => some .destroyed
  | _ => none

/-- The names of the attributes that a request may write. -/
def touchedNames (request : KmipRequest) : List String :=
  if request.operation = .check then [InMemoryKeyStore.usageCounterName]
  else request.attributes.map KmipAttribute.name

/-- `Create` and `Register` take the owner from the attributes of the request; none of them
names another owner than the caller `c`. -/
def NamesNoOther (request : KmipRequest) (c : String) : Prop :=
  request.operation ∈ [.create, .register] →
    ∀ a ∈ request.attributes, a.name = "owner" → a.value = .text c

instance (request : KmipRequest) (c : String) : Decidable (NamesNoOther request c) :=
  inferInstanceAs (Decidable (_ → _))

/-- The object that a request adds under an id. -/
structure New (request : KmipRequest) (id : String) (obj : KmipStoredObject) : Prop where
  id_eq : obj.id = id
  state_eq : obj.state = .preActive
  owner_eq : ∀ c, request.callerIdentity = some c → NamesNoOther request c →
    obj.attributes["owner"]? = some (.text c)

/-- How a request changes the object it names: along the lifecycle, or in its attributes. -/
inductive Change (env : KmipEnv) (request : KmipRequest) (obj : KmipStoredObject) :
    KmipStoredObject → Prop where
  | moved {target : KmipObjectState} (hop : transitionState request.operation = some target)
      (hacl : checkOwnerAcl obj request.callerIdentity = none)
      (hallowed : allowedTransitions obj.state target = true) :
      Change env request obj
        { obj with
          state := target
          keyMaterial := if target = .destroyed then none else obj.keyMaterial
          modified := env.nowEpoch }
  | rewritten {attrs : KmipAttributes} (hop : request.operation ∈ rewritingOperations)
      (hacl : checkOwnerAclForRequest obj request = none)
      (hkeep : ∀ name, name ∉ touchedNames request ∨ isImmutableAttribute name = true →
        attrs[name]? = obj.attributes[name]?) :
      Change env request obj { obj with attributes := attrs, modified := env.nowEpoch }

/-- The outcomes of a request, on the objects and the counter. -/
inductive Effect (env : KmipEnv) (request : KmipRequest) (store : InMemoryKeyStore) :
    KmipResponse → InMemoryKeyStore → Prop where
  | unchanged {r : KmipResponse} {store' : InMemoryKeyStore} (hstore : store' = store)
      (hr : request.operation ∈ producingOperations → r.status = .operationFailed) :
      Effect env request store r store'
  | created {r : KmipResponse} {store' : InMemoryKeyStore} {obj : KmipStoredObject}
      (hop : request.operation ∈ creatingOperations) (hr : r.status = .success)
      (hid : r.uniqueId = some store.nextId) (hnew : New request store.nextId obj)
      (hobjects : store'.objects = store.objects.insert store.nextId obj)
      (hcounter : store'.counter = store.counter + 1) : Effect env request store r store'
  | registered {r : KmipResponse} {store' : InMemoryKeyStore} {id : String}
      {obj : KmipStoredObject} (hop : request.operation = .register)
      (htarget : request.uniqueId = some id) (hfree : store.objects[id]? = none)
      (hr : r.status = .success) (hid : r.uniqueId = some id) (hnew : New request id obj)
      (hobjects : store'.objects = store.objects.insert id obj)
      (hcounter : store'.counter = store.counter) : Effect env request store r store'
  | updated {r : KmipResponse} {store' : InMemoryKeyStore} {id : String}
      {obj obj' : KmipStoredObject} (htarget : request.uniqueId = some id)
      (hfound : store.objects[id]? = some obj) (hr : r.status = .success)
      (hchange : Change env request obj obj')
      (hobjects : store'.objects = store.objects.insert id obj')
      (hcounter : store'.counter = store.counter) : Effect env request store r store'

/-! ## The handlers -/

section Handlers
variable {env : KmipEnv} {request : KmipRequest} {store : InMemoryKeyStore} {r : KmipResponse}
  {target : KmipObjectState} {obj : KmipStoredObject} {attrs : KmipAttributes}

theorem Effect.refused (hr : r.status = .operationFailed) : Effect env request store r store :=
  .unchanged rfl fun _ => hr

theorem Effect.read (hop : request.operation ∉ producingOperations) :
    Effect env request store r store :=
  .unchanged rfl fun h => absurd h hop

/-- The caller becomes the owner if the request names no other one. -/
theorem attachOwner_owner {attrs : List KmipAttribute} {c : String}
    (h : ∀ a ∈ attrs, a.name = "owner" → a.value = .text c) :
    (attachOwner (collectAttributes attrs) (some c))["owner"]? = some (.text c) := by
  unfold attachOwner
  split
  · next hcontains =>
    rw [contains_eq_isSome_getElem?] at hcontains
    obtain ⟨v, hv⟩ := isSome_iff_exists.mp hcontains
    have hvalue : v = .text c := h _ (mem_of_collectAttributes hv) rfl
    rw [hv, hvalue]
  · exact getElem?_insert_self

/-- Every refusal of the owner check is the same. -/
theorem checkOwnerAclWithOptions_some {caller : Option String}
    {strict : Bool} (h : checkOwnerAclWithOptions obj caller strict = some r) :
    r = objectNotFound := by
  unfold checkOwnerAclWithOptions at h
  split at h
  · split at h
    · split at h
      · cases h
      · exact (some.inj h).symm
    · exact (some.inj h).symm
  · split at h
    · exact (some.inj h).symm
    · cases h

/-- `create` answers with the next id. -/
theorem create_effect {t : KmipObjectType} {material : Bytes}
    (hop : request.operation ∈ creatingOperations)
    (howner : ∀ c, request.callerIdentity = some c → NamesNoOther request c →
      attrs["owner"]? = some (.text c)) :
    Effect env request store
      { KmipResponse.success (store.create env.nowEpoch t material attrs).1 with
        objectType := some t }
      (store.create env.nowEpoch t material attrs).2 :=
  .created hop rfl rfl ⟨rfl, rfl, howner⟩ rfl rfl

/-- Whether `Create` succeeds does not depend on the store. -/
theorem processCreate_cases (env : KmipEnv) (request : KmipRequest) :
    (∃ reason message, ∀ s, processCreate env request s = (.error reason message, s)) ∨
    ∃ material, ∀ s, processCreate env request s =
      ({ KmipResponse.success s.nextId with objectType := some .symmetricKey },
        (s.create env.nowEpoch .symmetricKey material
          (attachOwner (collectAttributes request.attributes) request.callerIdentity)).2) := by
  simp only [processCreate]
  split
  · exact .inl ⟨_, _, fun _ => rfl⟩
  split
  · exact .inl ⟨_, _, fun _ => rfl⟩
  split
  · exact .inl ⟨_, _, fun _ => rfl⟩
  split
  · exact .inl ⟨_, _, fun _ => rfl⟩
  · split
    · exact .inl ⟨_, _, fun _ => rfl⟩
    · exact .inr ⟨_, fun _ => rfl⟩

theorem processCreate_effect (hop : request.operation = .create) :
    Effect env request store (processCreate env request store).1
      (processCreate env request store).2 := by
  rcases processCreate_cases env request with ⟨reason, message, hr⟩ | ⟨material, hr⟩
  · rw [hr]
    exact .refused rfl
  rw [hr]
  refine create_effect (by rw [hop]; decide) fun c hc howner => ?_
  rw [hc]
  exact attachOwner_owner (howner (by rw [hop]; decide))

theorem processRegister_effect (hop : request.operation = .register) :
    Effect env request store (processRegister env request store).1
      (processRegister env request store).2 := by
  unfold processRegister withUniqueId
  rcases hid : request.uniqueId with _ | id
  · exact .refused rfl
  dsimp only
  split
  · next resp hresp =>
    obtain ⟨obj, -, hacl⟩ := bind_eq_some_iff.mp hresp
    rw [checkOwnerAclWithOptions_some hacl]
    exact .refused rfl
  split
  · exact .refused rfl
  cases hfree : store.objects[id]? with
  | some obj =>
    simp only [register, hfree]
    exact .refused rfl
  | none =>
    simp only [register, hfree]
    refine .registered hop hid hfree rfl rfl ⟨rfl, rfl, fun c hc howner => ?_⟩ rfl rfl
    rw [hc]
    exact attachOwner_owner fun a ha => howner (by rw [hop]; decide) a (mem_filter.mp ha).1

/-- The transition of the lifecycle operations, if it succeeds. -/
theorem transitionTarget_ok {id : String} (h : store.transitionTarget id target = .ok obj) :
    store.objects[id]? = some obj ∧ allowedTransitions obj.state target = true := by
  unfold transitionTarget at h
  split at h
  · cases h
  split at h
  · cases h
  split at h
  · next hallowed =>
    cases h
    exact ⟨‹_›, hallowed⟩
  · cases h

/-- What `activate`, `revoke` and `destroy` have in common. -/
def Transition (now : Nat) (store : InMemoryKeyStore) (id : String) (target : KmipObjectState)
    (result : Except KmipResultReason InMemoryKeyStore) : Prop :=
  ∀ store', result = .ok store' → ∃ obj, store.transitionTarget id target = .ok obj ∧
    store' = (if target = .destroyed then store.indexRemove obj.objectType id else store).put id
      { obj with
        state := target
        keyMaterial := if target = .destroyed then none else obj.keyMaterial
        modified := now }

/-- The object that passes the checks is written in its new state. -/
theorem Transition.of_target {now : Nat} {id : String} {f : KmipStoredObject → InMemoryKeyStore}
    (hf : ∀ obj, f obj =
      (if target = .destroyed then store.indexRemove obj.objectType id else store).put id
        { obj with
          state := target
          keyMaterial := if target = .destroyed then none else obj.keyMaterial
          modified := now }) :
    Transition now store id target
      (do let obj ← store.transitionTarget id target; return f obj) := by
  intro store' h
  cases ht : store.transitionTarget id target with
  | error e =>
    rw [ht] at h
    cases h
  | ok obj =>
    rw [ht] at h
    cases h
    exact ⟨obj, rfl, hf obj⟩

theorem processTransition_effect (name verb : String)
    {transition : String → Except KmipResultReason InMemoryKeyStore}
    (hop : transitionState request.operation = some target)
    (ht : ∀ id, Transition env.nowEpoch store id target (transition id)) :
    Effect env request store (processTransition request store name verb transition).1
      (processTransition request store name verb transition).2 := by
  have hread : request.operation ∉ producingOperations := by
    intro hin
    simp only [producingOperations, mem_cons, not_mem_nil, or_false] at hin
    rcases hin with h | h | h <;> simp [h, transitionState] at hop
  unfold processTransition withUniqueId
  rcases hid : request.uniqueId with _ | id
  · exact .read hread
  simp only [aclCheckedTransition]
  cases hresult : transition id with
  | error e =>
    -- the store comes back as it was, whatever the owner check says
    split
    · split <;> exact .read hread
    · exact .read hread
  | ok store' =>
    obtain ⟨obj, htarget, hstore⟩ := ht id store' hresult
    have hcounter : store'.counter = store.counter := by
      rw [hstore]
      split <;> rfl
    have hobjects : store'.objects = store.objects.insert id
        { obj with
          state := target
          keyMaterial := if target = .destroyed then none else obj.keyMaterial
          modified := env.nowEpoch } := by
      rw [hstore]
      by_cases hdead : target = .destroyed
      · simp only [hdead, if_true]
        rfl
      · simp only [hdead, if_false]
        rfl
    obtain ⟨hfound, hallowed⟩ := transitionTarget_ok htarget
    have hget : store.get id = some obj := hfound
    simp only [hget]
    cases hacl : checkOwnerAcl obj request.callerIdentity with
    | some resp => exact .read hread
    | none => exact .updated hid hfound rfl (.moved hop hacl hallowed) hobjects hcounter

/-- What the three attribute updates have in common: the names that are kept, and the
immutable ones, have the attributes they had. -/
def Rewrite (now : Nat) (kept : String → Prop) (store : InMemoryKeyStore) (id : String)
    (result : Except KmipResultReason InMemoryKeyStore) : Prop :=
  ∀ store', result = .ok store' → ∃ obj attrs, store.objects[id]? = some obj ∧
    (∀ name, kept name ∨ isImmutableAttribute name = true →
      attrs[name]? = obj.attributes[name]?) ∧
    store' = store.put id { obj with attributes := attrs, modified := now }

/-- Attributes that may be written name no immutable one. -/
theorem withAttributes_keeps (obj : KmipStoredObject) (now : Nat)
    (himm : ¬ attrs.keys.any isImmutableAttribute = true) (name : String)
    (h : attrs[name]? = none ∨ isImmutableAttribute name = true) :
    (withAttributes obj attrs now).attributes[name]? = obj.attributes[name]? := by
  apply withAttributes_of_none
  rcases h with hname | hname
  · exact hname
  cases hv : attrs[name]? with
  | none => rfl
  | some v =>
    refine absurd (any_eq_true.mpr ⟨name, ?_, hname⟩) himm
    rw [ExtTreeMap.mem_keys, ExtTreeMap.mem_iff_isSome_getElem?, hv]
    rfl

theorem addAttributes_rewrite (now : Nat) (id : String) (attrs : KmipAttributes) :
    Rewrite now (fun name => attrs[name]? = none) store id (store.addAttributes now id attrs) := by
  intro store' h
  unfold addAttributes at h
  split at h
  · cases h
  split at h
  · cases h
  split at h
  · cases h
  cases h
  exact ⟨_, _, ‹_›, withAttributes_keeps _ now ‹_›, rfl⟩

theorem modifyAttributes_rewrite (now : Nat) (id : String) (attrs : KmipAttributes) :
    Rewrite now (fun name => attrs[name]? = none) store id
      (store.modifyAttributes now id attrs) := by
  intro store' h
  unfold modifyAttributes at h
  split at h
  · cases h
  split at h
  · cases h
  cases h
  exact ⟨_, _, ‹_›, withAttributes_keeps _ now ‹_›, rfl⟩

theorem deleteAttributes_rewrite (now : Nat) (id : String) (names : List String) :
    Rewrite now (fun name => name ∉ names) store id (store.deleteAttributes now id names) := by
  intro store' h
  unfold deleteAttributes at h
  split at h
  · cases h
  split at h
  · cases h
  next himm =>
  cases h
  refine ⟨_, _, ‹_›, fun name hname => getElem?_foldl_erase _ _ ?_, rfl⟩
  rcases hname with hname | hname
  · exact hname
  · exact fun hin => himm (any_eq_true.mpr ⟨name, hin, hname⟩)

theorem processAttributes_effect (name emptyMessage failMessage : String)
    (refusal : KmipStoredObject → KmipAttribute → Option KmipResponse)
    {update : String → Except KmipResultReason InMemoryKeyStore} {kept : String → Prop}
    (hop : request.operation ∈ [.addAttribute, .modifyAttribute, .deleteAttribute])
    (hkept : ∀ name, name ∉ request.attributes.map KmipAttribute.name → kept name)
    (hupdate : ∀ id, Rewrite env.nowEpoch kept store id (update id)) :
    Effect env request store
      (processAttributes request store name emptyMessage failMessage refusal update).1
      (processAttributes request store name emptyMessage failMessage refusal update).2 := by
  have hread : request.operation ∉ producingOperations := by
    revert hop
    cases request.operation <;> decide
  have hnames : touchedNames request = request.attributes.map KmipAttribute.name := by
    refine if_neg fun h => ?_
    rw [h] at hop
    exact absurd hop (by decide)
  unfold processAttributes withUniqueId
  rcases hid : request.uniqueId with _ | id
  · exact .read hread
  simp only [withOwnedObject]
  split
  · exact .read hread
  rcases hfound : store.get id with _ | obj
  · exact .read hread
  dsimp only
  cases hacl : checkOwnerAclForRequest obj request with
  | some resp => exact .read hread
  | none =>
    dsimp only
    split
    · exact .read hread
    rcases hresult : update id with _ | store'
    · exact .read hread
    obtain ⟨obj', attrs, hobj, hkeep, rfl⟩ := hupdate id store' hresult
    have heq : obj' = obj := some.inj (hobj.symm.trans hfound)
    subst heq
    refine .updated hid hobj rfl (.rewritten ?_ hacl ?_) rfl rfl
    · revert hop
      cases request.operation <;> decide
    · rw [hnames]
      exact fun name hname => hkeep name (hname.imp_left (hkept name))

theorem usageCounterName_mutable :
    isImmutableAttribute usageCounterName = false := by decide +kernel

/-- `Check` changes the object it names, since that object is stored under its own id. -/
theorem processCheck_effect (hkeyed : store.WellKeyed) (hop : request.operation = .check) :
    Effect env request store (processCheck env request store).1
      (processCheck env request store).2 := by
  have hread : request.operation ∉ producingOperations := by rw [hop]; decide
  unfold processCheck withUniqueId
  rcases hid : request.uniqueId with _ | id
  · exact .read hread
  dsimp only
  rcases hfound : store.get id with _ | obj
  · exact .read hread
  have hobj : store.objects[id]? = some obj := hfound
  dsimp only
  split
  · exact .read hread
  cases hacl : checkOwnerAclForRequest obj request with
  | some resp => exact .read hread
  | none =>
    dsimp only
    rw [hkeyed id obj hobj]
    unfold decrementUsageCounter
    simp only [hobj]
    split
    · exact .read hread
    refine .updated hid hobj rfl (.rewritten ?_ hacl fun name hname => ?_) rfl rfl
    · rw [hop]
      decide
    apply getElem?_insert_of_ne
    rintro rfl
    rcases hname with hname | hname
    · exact hname (by simp [touchedNames, hop])
    · rw [usageCounterName_mutable] at hname
      cases hname

theorem processDeriveKey_effect [HkdfSha256] (hop : request.operation = .deriveKey) :
    Effect env request store (processDeriveKey env request store).1
      (processDeriveKey env request store).2 := by
  unfold processDeriveKey withUniqueId
  rcases request.uniqueId with _ | id
  · exact .refused rfl
  rcases deriveKeyBits request with _ | outBits
  · exact .refused rfl
  dsimp only
  split
  · exact .refused rfl
  next obj _ =>
  cases hacl : checkOwnerAclForRequest obj request with
  | some resp =>
    rw [checkOwnerAclWithOptions_some hacl]
    exact .refused rfl
  | none =>
    dsimp only
    split
    · exact .refused rfl
    split
    · exact .refused rfl
    · refine create_effect (by rw [hop]; decide) fun c hc _ => ?_
      rw [getElem?_insert_of_ne (by decide), getElem?_insert_of_ne (by decide), hc]
      exact getElem?_insert_self

theorem withUniqueId_read (name : String) {handler : String → KmipResult}
    (hop : request.operation ∉ producingOperations) (h : ∀ id, (handler id).2 = store) :
    Effect env request store (withUniqueId request store name handler).1
      (withUniqueId request store name handler).2 := by
  have hstore : (withUniqueId request store name handler).2 = store := by
    unfold withUniqueId
    split
    · rfl
    · exact h _
  rw [hstore]
  exact .read hop

/-- **The outcomes of a request.** -/
theorem dispatchOperation_effect [HkdfSha256] (hkeyed : store.WellKeyed) :
    Effect env request store (dispatchOperation env request store).1
      (dispatchOperation env request store).2 := by
  unfold dispatchOperation
  cases hop : request.operation with
  | create => exact processCreate_effect hop
  | register => exact processRegister_effect hop
  | deriveKey => exact processDeriveKey_effect hop
  | check => exact processCheck_effect hkeyed hop
  | activate | revoke | destroy =>
    exact processTransition_effect _ _ (by rw [hop, transitionState])
      fun _ => .of_target fun _ => rfl
  | addAttribute =>
    exact processAttributes_effect _ _ _ _ (by rw [hop]; decide)
      (fun _ => collectAttributes_eq_none) (fun id => addAttributes_rewrite _ id _)
  | modifyAttribute =>
    exact processAttributes_effect _ _ _ _ (by rw [hop]; decide)
      (fun _ => collectAttributes_eq_none) (fun id => modifyAttributes_rewrite _ id _)
  | deleteAttribute =>
    exact processAttributes_effect _ _ _ _ (by rw [hop]; decide) (fun _ => id)
      (fun id => deleteAttributes_rewrite _ id _)
  | get =>
    refine withUniqueId_read _ (by rw [hop]; decide) fun id => ?_
    split
    · rfl
    split
    · rfl
    · split <;> rfl
  | getAttributes =>
    refine withUniqueId_read _ (by rw [hop]; decide) fun id => ?_
    unfold withOwnedObject
    split
    · rfl
    split
    · rfl
    · split <;> rfl
  | query | locate | rngRetrieve | createKeyPair | encrypt | decrypt | sign | signatureVerify
  | mac | macVerify => exact .read (by rw [hop]; decide)

end Handlers

/-! ## Runs -/

section Runs

theorem Change.id_eq {env : KmipEnv} {request : KmipRequest} {obj obj' : KmipStoredObject}
    (h : Change env request obj obj') : obj'.id = obj.id := by
  cases h <;> rfl

/-- An object written under its own id. -/
theorem WellKeyed.insert {store store' : InMemoryKeyStore} {id : String} {obj : KmipStoredObject}
    (h : store.WellKeyed) (hid : obj.id = id)
    (hobjects : store'.objects = store.objects.insert id obj) : store'.WellKeyed := by
  rw [WellKeyed, hobjects]
  exact forall_insert hid h

theorem wellKeyed_empty : ({} : InMemoryKeyStore).WellKeyed := by
  intro id obj h
  simp at h

variable [HkdfSha256] {store : InMemoryKeyStore}

/-- A request with the clock and the generator that its handler meets. -/
abbrev KmipEvent := KmipEnv × KmipRequest

/-- The store after a request. -/
def kmipStep (store : InMemoryKeyStore) (event : KmipEvent) : InMemoryKeyStore :=
  (dispatchOperation event.1 event.2 store).2

/-- The response to an event. -/
def answerTo (store : InMemoryKeyStore) (event : KmipEvent) : KmipResponse :=
  (dispatchOperation event.1 event.2 store).1

/-- The store is that of a run of requests from the empty store. -/
def Reachable (store : InMemoryKeyStore) : Prop := ∃ events, store = run kmipStep {} events

theorem kmipStep_effect (hkeyed : store.WellKeyed) (event : KmipEvent) :
    Effect event.1 event.2 store (answerTo store event) (kmipStep store event) :=
  dispatchOperation_effect hkeyed

theorem wellKeyed_kmipStep (h : store.WellKeyed) (event : KmipEvent) :
    (kmipStep store event).WellKeyed := by
  cases kmipStep_effect h event with
  | unchanged hstore _ =>
    rw [hstore]
    exact h
  | created _ _ _ hnew hobjects | registered _ _ _ _ _ hnew hobjects =>
    exact WellKeyed.insert h hnew.id_eq hobjects
  | updated _ hfound _ hchange hobjects _ =>
    exact WellKeyed.insert h (hchange.id_eq.trans (h _ _ hfound)) hobjects

theorem Reachable.wellKeyed (h : Reachable store) : store.WellKeyed := by
  obtain ⟨events, rfl⟩ := h
  have hstep : ∀ s event, InMemoryKeyStore.WellKeyed s → True → (kmipStep s event).WellKeyed :=
    fun s event hs _ => wellKeyed_kmipStep hs event
  exact induction_run hstep wellKeyed_empty (along_true events)

end Runs

end CratonHsm
