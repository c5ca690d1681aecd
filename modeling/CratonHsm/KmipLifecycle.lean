import Mathlib.Data.List.Chain
import CratonHsm.KmipLocate
import CratonHsm.KmipServerIds

/-!
# The life of an object

The successive values of one object along a run of requests.  Since a request changes only the
object it names and in one of two ways (`Change`), the values after the creation form a chain
of single changes; the path through the lifecycle, the fields that never change, the key
material and the immutable attributes are all read off that chain.
-/

namespace CratonHsm
open Std OrderedMaps PrefixFreeCode GuardedRun List

/-! ## One change -/

/-- One request later, the object is the same or some request has changed it. -/
def Later (a b : KmipStoredObject) : Prop := b = a ∨ ∃ env request, Change env request a b

section Later
variable {a b : KmipStoredObject}

theorem Later.type_created (h : Later a b) :
    b.objectType = a.objectType ∧ b.created = a.created := by
  rcases h with rfl | ⟨env, request, hchange⟩
  · exact ⟨rfl, rfl⟩
  · cases hchange <;> exact ⟨rfl, rfl⟩

/-- The state stays with the material, or moves along the table. -/
theorem Later.state_material (h : Later a b) :
    b.state = a.state ∧ b.keyMaterial = a.keyMaterial ∨
      allowedTransitions a.state b.state = true ∧
        b.keyMaterial = if b.state = .destroyed then none else a.keyMaterial := by
  rcases h with rfl | ⟨env, request, hchange⟩
  · exact .inl ⟨rfl, rfl⟩
  · cases hchange with
    | moved _ _ hallowed => exact .inr ⟨hallowed, rfl⟩
    | rewritten _ _ _ => exact .inl ⟨rfl, rfl⟩

theorem Later.immutable (h : Later a b) {name : String} (hname : isImmutableAttribute name = true) :
    b.attributes[name]? = a.attributes[name]? := by
  rcases h with rfl | ⟨env, request, hchange⟩
  · rfl
  cases hchange with
  | moved _ _ _ => rfl
  | rewritten _ _ hkeep => exact hkeep name (.inr hname)

/-- No transition leads out of `Destroyed`. -/
theorem allowedTransitions_destroyed (target : KmipObjectState) :
    allowedTransitions .destroyed target = false := by
  cases target <;> rfl

theorem Later.destroyed (h : Later a b) (ha : a.state = .destroyed) : b.state = .destroyed := by
  rcases h.state_material with ⟨hstate, -⟩ | ⟨hallowed, -⟩
  · exact hstate.trans ha
  · rw [ha, allowedTransitions_destroyed] at hallowed
    cases hallowed

end Later

/-! ## The chain of an object -/

/-- The values of an object from its creation on, as the lifecycle demands them. -/
structure IsLifecycle (objs : List KmipStoredObject) : Prop where
  starts : ∀ first ∈ objs.head?, first.state = .preActive
  path : objs.IsChain fun a b => b.state = a.state ∨ allowedTransitions a.state b.state = true
  absorbing : objs.IsChain fun a b => a.state = .destroyed → b.state = .destroyed
  fixed : ∀ first ∈ objs.head?, ∀ obj ∈ objs,
    obj.objectType = first.objectType ∧ obj.created = first.created
  material : ∀ first ∈ objs.head?, ∀ obj ∈ objs,
    obj.keyMaterial = if obj.state = .destroyed then none else first.keyMaterial

/-- What holds of the first value and is carried along by every change holds of all. -/
theorem forall_of_chain {objs : List KmipStoredObject} {Q : KmipStoredObject → Prop}
    (hchain : objs.IsChain Later) (hcarry : ∀ a b, Later a b → Q a → Q b)
    (hfirst : ∀ first ∈ objs.head?, Q first) : ∀ obj ∈ objs, Q obj :=
  hchain.induction Q objs hcarry fun hne => hfirst _ (head?_eq_some_head hne)

theorem isLifecycle_of_chain {objs : List KmipStoredObject} (hchain : objs.IsChain Later)
    (hstart : ∀ first ∈ objs.head?, first.state = .preActive) : IsLifecycle objs where
  starts := hstart
  path := hchain.imp fun a b h => h.state_material.imp And.left And.left
  absorbing := hchain.imp fun a b h => h.destroyed
  fixed := by
    intro first hfirst
    refine forall_of_chain hchain (fun a b h ha => ?_) fun obj hobj => ?_
    · obtain ⟨htype, hcreated⟩ := h.type_created
      exact ⟨htype.trans ha.1, hcreated.trans ha.2⟩
    · cases hfirst.symm.trans hobj
      exact ⟨rfl, rfl⟩
  material := by
    intro first hfirst
    refine forall_of_chain hchain (fun a b h ha => ?_) fun obj hobj => ?_
    · rcases h.state_material with ⟨hstate, hmaterial⟩ | ⟨hallowed, hmaterial⟩
      · rw [hmaterial, hstate, ha]
      have hlive : a.state ≠ .destroyed := by
        intro hdead
        rw [hdead, allowedTransitions_destroyed] at hallowed
        cases hallowed
      rw [hmaterial, ha, if_neg hlive]
    · cases hfirst.symm.trans hobj
      rw [hstart first hfirst]
      rfl

/-! ## The answers -/

section Answers
variable {store : InMemoryKeyStore} {event : KmipEvent} {id : String}

/-- The guard that `Get` and `Check` share lets only live objects through. -/
theorem live_of_guard {request : KmipRequest} {name : String} {use : KmipStoredObject → KmipResult}
    (hkeyed : store.WellKeyed) (huse : ∀ obj, (use obj).1.uniqueId = some obj.id)
    (h : (withUniqueId request store name fun target =>
      match store.get target with
      | none => (objectNotFound, store)
      | some obj =>
        if obj.state = .destroyed then (.error .objectNotFound "object has been destroyed", store)
        else
          match checkOwnerAclForRequest obj request with
          | some resp => (resp, store)
          | none => use obj).1.uniqueId = some id) :
    ∃ obj, store.objects[id]? = some obj ∧ obj.state ≠ .destroyed := by
  simp only [withUniqueId] at h
  split at h
  · cases h
  next target _ =>
  split at h
  · cases h
  next obj hobj =>
  split at h
  · cases h
  next hlive =>
  split at h
  · next hacl =>
    rw [checkOwnerAclWithOptions_some hacl] at h
    cases h
  · rw [huse] at h
    have hid : target = id := (hkeyed target obj hobj).symm.trans (Option.some.inj h)
    exact ⟨obj, hid ▸ hobj, hlive⟩

variable [HkdfSha256]
  {obj : KmipStoredObject}

/-- The parts of a response that a destroyed object must not reach, and the effect of a
failed request. -/
structure Orderly (store : InMemoryKeyStore) (event : KmipEvent) : Prop where
  unreturned : ∀ (id : String) (obj : KmipStoredObject), store.objects[id]? = some obj →
    obj.state = .destroyed → event.2.operation ∈ [.get, .check] →
    (answerTo store event).uniqueId ≠ some id
  refused : ∀ (id : String) (obj : KmipStoredObject), store.objects[id]? = some obj →
    obj.state = .destroyed → event.2.operation ∈ [.get, .check, .deriveKey] →
    event.2.uniqueId = some id → (answerTo store event).status = .operationFailed
  unlisted : ∀ (id : String) (obj : KmipStoredObject), store.objects[id]? = some obj →
    obj.state = .destroyed → event.2.operation = .locate → id ∉ (answerTo store event).locatedIds
  failed : (answerTo store event).status = .operationFailed →
    (kmipStep store event).objects = store.objects

/-- `Get` and `Check` answer with the id of a stored object that is not destroyed. -/
theorem answerTo_uniqueId (hkeyed : store.WellKeyed) (hop : event.2.operation ∈ [.get, .check])
    (h : (answerTo store event).uniqueId = some id) :
    ∃ obj, store.objects[id]? = some obj ∧ obj.state ≠ .destroyed := by
  simp only [mem_cons, not_mem_nil, or_false] at hop
  unfold answerTo dispatchOperation at h
  rcases hop with hop | hop
  · rw [hop] at h
    exact live_of_guard hkeyed (fun _ => rfl) h
  · rw [hop] at h
    exact live_of_guard hkeyed (fun _ => rfl) h

/-- A destroyed object is refused by the operations that would use it. -/
theorem answerTo_destroyed (hobj : store.objects[id]? = some obj) (hdead : obj.state = .destroyed)
    (hop : event.2.operation ∈ [.get, .check, .deriveKey]) (htarget : event.2.uniqueId = some id) :
    (answerTo store event).status = .operationFailed := by
  have hget : store.get id = some obj := hobj
  simp only [mem_cons, not_mem_nil, or_false] at hop
  unfold answerTo dispatchOperation
  rcases hop with hop | hop | hop
  · simp only [hop, processGet, withUniqueId, htarget, hget, hdead, if_true]
    rfl
  · simp only [hop, processCheck, withUniqueId, htarget, hget, hdead, if_true]
    rfl
  · have hfilter : (store.get id).filter (fun o => o.state ≠ .destroyed) = none := by
      simp [hget, hdead]
    simp only [hop, processDeriveKey, withUniqueId, htarget, hfilter]
    split <;> rfl

theorem answerTo_locate (hop : event.2.operation = .locate)
    (h : id ∈ (answerTo store event).locatedIds) :
    id ∈ store.locate (collectAttributes event.2.attributes) := by
  unfold answerTo dispatchOperation at h
  rw [hop] at h
  dsimp only at h
  rw [processLocate_eq rfl] at h
  exact (mem_filter.mp (mem_of_mem_take h)).1

theorem orderly (hkeyed : store.WellKeyed) : Orderly store event where
  unreturned id obj hobj hdead hop hid := by
    obtain ⟨live, hlive, hstate⟩ := answerTo_uniqueId hkeyed hop hid
    cases hobj.symm.trans hlive
    exact hstate hdead
  refused id obj hobj hdead hop htarget := answerTo_destroyed hobj hdead hop htarget
  unlisted id obj hobj hdead hop hid := by
    obtain ⟨live, hlive, hstate⟩ := live_of_mem_locate (answerTo_locate hop hid)
    cases hobj.symm.trans hlive
    exact hstate hdead
  failed hfail := by
    cases kmipStep_effect hkeyed event with
    | unchanged hstore _ => rw [hstore]
    | created _ hr | registered _ _ _ hr | updated _ _ hr => rw [hr] at hfail; cases hfail

end Answers

/-! ## Runs -/

section Runs

/-- What is new in a map after an insertion is what was inserted. -/
theorem eq_of_getElem?_insert {objects : ExtTreeMap String KmipStoredObject} {k id : String}
    {obj obj' : KmipStoredObject} (hnone : objects[id]? = none)
    (hsome : (objects.insert k obj')[id]? = some obj) : k = id ∧ obj' = obj := by
  rcases getElem?_insert_cases hsome with ⟨rfl, rfl⟩ | ⟨-, hold⟩
  · exact ⟨rfl, rfl⟩
  · cases hnone.symm.trans hold

variable [HkdfSha256]

/-- The values of the object under an id along a run in which created ids are fresh. -/
theorem observed_later {events : List KmipEvent} (hfresh : Along kmipStep FreshRule {} events)
    (id : String) :
    ∃ (n : Nat) (objs : List KmipStoredObject),
      observed kmipStep (fun s => s.objects[id]?) {} events =
        List.replicate n none ++ objs.map some ∧
      objs.IsChain Later ∧ ∀ first ∈ objs.head?, first.state = .preActive := by
  have hkeyed : ∀ s event, s.WellKeyed → FreshRule s event → (kmipStep s event).WellKeyed :=
    fun s event hs _ => wellKeyed_kmipStep hs event
  refine observed_chain hkeyed ?_ ?_ wellKeyed_empty (by simp) hfresh
  · intro s event obj hs _ hnone hsome
    cases kmipStep_effect hs event with
    | unchanged hstore _ =>
      rw [hstore, hnone] at hsome
      cases hsome
    | created _ _ _ hnew hobjects | registered _ _ _ _ _ hnew hobjects =>
      rw [hobjects] at hsome
      obtain ⟨-, rfl⟩ := eq_of_getElem?_insert hnone hsome
      exact hnew.state_eq
    | updated _ hfound _ _ hobjects _ =>
      rw [hobjects] at hsome
      obtain ⟨rfl, -⟩ := eq_of_getElem?_insert hnone hsome
      rw [hnone] at hfound
      cases hfound
  · intro s event obj hs hrule hobj
    obtain ⟨obj', hobj', heq | ⟨-, hchange, -⟩⟩ := object_kmipStep hs hobj (hrule.ne_nextId hobj)
    · exact ⟨obj', hobj', .inl heq⟩
    · exact ⟨obj', hobj', .inr ⟨_, _, hchange⟩⟩

theorem orderly_along (events : List KmipEvent) {store : InMemoryKeyStore}
    (hkeyed : store.WellKeyed) : Along kmipStep Orderly store events := by
  induction events generalizing store with
  | nil => trivial
  | cons event events ih => exact ⟨orderly hkeyed, ih (wellKeyed_kmipStep hkeyed event)⟩

/-- **Key lifecycle**, along every run that registers no id of the server's form and creates
fewer than `2 ^ 64` objects. -/
theorem kmip_lifecycle {events : List KmipEvent} (hrule : ∀ event ∈ events, RegisterRule event)
    (hcount : count kmipStep Creates {} events < 2 ^ 64) :
    (∀ id : String, ∃ (n : Nat) (objs : List KmipStoredObject),
      observed kmipStep (fun s => s.objects[id]?) {} events =
        List.replicate n none ++ objs.map some ∧ IsLifecycle objs) ∧
      Along kmipStep Orderly {} events := by
  refine ⟨fun id => ?_, orderly_along events wellKeyed_empty⟩
  obtain ⟨n, objs, hobs, hchain, hstart⟩ := observed_later (fresh_along hrule hcount).1 id
  exact ⟨n, objs, hobs, isLifecycle_of_chain hchain hstart⟩

/-- **Protected attributes are fixed at creation**, along the same runs. -/
theorem immutable_attributes_fixed {events : List KmipEvent}
    (hrule : ∀ event ∈ events, RegisterRule event)
    (hcount : count kmipStep Creates {} events < 2 ^ 64) (id name : String)
    (hname : ∃ entry ∈ immutableAttributes, asciiLowercase entry = asciiLowercase name) :
    ∃ (n : Nat) (objs : List KmipStoredObject),
      observed kmipStep (fun s => s.objects[id]?) {} events =
        List.replicate n none ++ objs.map some ∧
      ∀ first ∈ objs.head?, ∀ obj ∈ objs, obj.attributes[name]? = first.attributes[name]? := by
  have himm : isImmutableAttribute name = true := by
    obtain ⟨entry, hentry, heq⟩ := hname
    exact any_eq_true.mpr ⟨entry, hentry, decide_eq_true heq⟩
  obtain ⟨n, objs, hobs, hchain, -⟩ := observed_later (fresh_along hrule hcount).1 id
  refine ⟨n, objs, hobs, fun first hfirst => ?_⟩
  refine forall_of_chain hchain (fun a b h ha => (h.immutable himm).trans ha) fun obj hobj => ?_
  cases hfirst.symm.trans hobj
  rfl

end Runs

/-! ## A key from its creation to its destruction -/

section Sample
attribute [local instance] zeroHkdf

/-- `alice` asks for something to be done with the first key. -/
def aliceEvent (op : KmipOperation) : KmipEvent :=
  (sampleEnv, { operation := op, uniqueId := some "kmip-00000001", callerIdentity := some "alice" })

def keyLife : List KmipEvent :=
  [registerEvent (some "bob") "vault" [], createEvent (some "alice") [], aliceEvent .activate,
    aliceEvent .revoke, aliceEvent .destroy, aliceEvent .get]

theorem kmip_lifecycle_key :
    (∃ (n : Nat) (objs : List KmipStoredObject),
      observed kmipStep (fun s => s.objects["kmip-00000001"]?) {} keyLife =
        List.replicate n none ++ objs.map some ∧ IsLifecycle objs) ∧
    ((run kmipStep {} keyLife).objects["kmip-00000001"]?).map (fun o => (o.state, o.keyMaterial)) =
      some (.destroyed, none) := by
  have hrule : ∀ event ∈ keyLife, RegisterRule event := by decide +kernel
  exact ⟨(kmip_lifecycle hrule (by decide +kernel)).1 _, by decide +kernel⟩

theorem immutable_attributes_fixed_owner :
    ∃ (n : Nat) (objs : List KmipStoredObject),
      observed kmipStep (fun s => s.objects["kmip-00000001"]?) {} keyLife =
        List.replicate n none ++ objs.map some ∧
      ∀ first ∈ objs.head?, ∀ obj ∈ objs, obj.attributes["Owner"]? = first.attributes["Owner"]? :=
  immutable_attributes_fixed (by decide +kernel) (by decide +kernel) "kmip-00000001" "Owner"
    ⟨"owner", by decide, by decide +kernel⟩

end Sample

end CratonHsm
