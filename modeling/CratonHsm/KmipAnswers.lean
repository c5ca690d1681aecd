import CratonHsm.KmipFrame

/-!
# What the answer to a request depends on

Apart from `Locate`, a handler reads the store only at the id that the request names and at
the counter: on two stores that agree there it gives the same answer (`answerTo_congr`).  If
the owner check refuses the named object, only the state of that object shows
(`answerTo_refused`).  No handler but `Locate` and `Query` lists ids.
-/

namespace CratonHsm
open Std PrefixFreeCode GuardedRun InMemoryKeyStore Option

/-! ## Stores that agree on the named object -/

section Agreement
variable {request : KmipRequest} {s s' : InMemoryKeyStore} {id : String}
  {r r' : Except KmipResultReason InMemoryKeyStore}

theorem withUniqueId_congr (name : String) {f g : String → KmipResult}
    (h : ∀ id, request.uniqueId = some id → (f id).1 = (g id).1) :
    (withUniqueId request s' name f).1 = (withUniqueId request s name g).1 := by
  unfold withUniqueId
  cases hid : request.uniqueId with
  | none => rfl
  | some id => exact h id hid

theorem withOwnedObject_congr {f g : KmipStoredObject → KmipResult} (hget : s'.get id = s.get id)
    (h : ∀ obj, s.get id = some obj → (f obj).1 = (g obj).1) :
    (withOwnedObject request s' id f).1 = (withOwnedObject request s id g).1 := by
  unfold withOwnedObject
  rw [hget]
  rcases hobj : s.get id with _ | obj
  · rfl
  dsimp only
  cases checkOwnerAclForRequest obj request with
  | some resp => rfl
  | none => exact h obj hobj

/-- Two results that fail alike. -/
def FailAlike (r r' : Except KmipResultReason InMemoryKeyStore) : Prop :=
  ∀ reason, r = .error reason ↔ r' = .error reason

theorem FailAlike.refl (r : Except KmipResultReason InMemoryKeyStore) : FailAlike r r :=
  fun _ => Iff.rfl

theorem failAlike_ok (t t' : InMemoryKeyStore) : FailAlike (.ok t) (.ok t') := by
  intro reason
  constructor <;> intro h <;> cases h

/-- Both are turned away by the same check. -/
theorem FailAlike.refused {c : Prop} [Decidable c] {reason : KmipResultReason}
    (h : FailAlike r r') :
    FailAlike (if c then .error reason else r) (if c then .error reason else r') := by
  split
  · exact .refl _
  · exact h

theorem answerUpdate_congr (message : String) (h : FailAlike r r') :
    (answerUpdate s' id message r').1 = (answerUpdate s id message r).1 := by
  cases r with
  | error reason => rw [(h reason).mp rfl]; rfl
  | ok t =>
    cases r' with
    | error reason => cases (h reason).mpr rfl
    | ok t' => rfl

theorem failAlike_bind {t t' : KmipStoredObject → InMemoryKeyStore}
    (r : Except KmipResultReason KmipStoredObject) :
    FailAlike (do let obj ← r; return t obj) (do let obj ← r; return t' obj) := by
  cases r with
  | error e => exact .refl _
  | ok obj => exact failAlike_ok _ _

theorem processTransition_congr (name verb : String)
    {transition transition' : String → Except KmipResultReason InMemoryKeyStore}
    (hsame : ∀ id, request.uniqueId = some id → s'.objects[id]? = s.objects[id]?)
    (halike : ∀ id, s'.objects[id]? = s.objects[id]? → FailAlike (transition id) (transition' id)) :
    (processTransition request s' name verb transition').1 =
      (processTransition request s name verb transition).1 := by
  refine withUniqueId_congr name fun id hid => ?_
  have hget : s'.get id = s.get id := hsame id hid
  unfold aclCheckedTransition
  rw [hget]
  rcases s.get id with _ | obj
  · exact answerUpdate_congr _ (halike id hget)
  dsimp only
  cases checkOwnerAcl obj request.callerIdentity with
  | some resp => rfl
  | none => exact answerUpdate_congr _ (halike id hget)

theorem processAttributes_congr (name emptyMessage failMessage : String)
    (refusal : KmipStoredObject → KmipAttribute → Option KmipResponse)
    {update update' : String → Except KmipResultReason InMemoryKeyStore}
    (hsame : ∀ id, request.uniqueId = some id → s'.objects[id]? = s.objects[id]?)
    (halike : ∀ id, s'.objects[id]? = s.objects[id]? → FailAlike (update id) (update' id)) :
    (processAttributes request s' name emptyMessage failMessage refusal update').1 =
      (processAttributes request s name emptyMessage failMessage refusal update).1 := by
  refine withUniqueId_congr name fun id hid => ?_
  have hget : s'.get id = s.get id := hsame id hid
  by_cases hempty : request.attributes = []
  · rw [if_pos hempty, if_pos hempty]
  rw [if_neg hempty, if_neg hempty]
  refine withOwnedObject_congr hget fun obj _ => ?_
  cases request.attributes.findSome? (refusal obj) with
  | some resp => rfl
  | none => exact answerUpdate_congr _ (halike id hget)

theorem decrementUsageCounter_congr (now : Nat) (h : s'.objects[id]? = s.objects[id]?) :
    (s'.decrementUsageCounter now id).1 = (s.decrementUsageCounter now id).1 := by
  unfold decrementUsageCounter
  rw [h]
  cases s.objects[id]? with
  | none => rfl
  | some obj =>
    dsimp only
    split <;> rfl

theorem nextId_congr (h : s'.counter = s.counter) : s'.nextId = s.nextId := by
  rw [nextId, nextId, h]

theorem processCreate_congr {env : KmipEnv} (hcounter : s'.counter = s.counter) :
    (processCreate env request s').1 = (processCreate env request s).1 := by
  rcases processCreate_cases env request with ⟨reason, message, hr⟩ | ⟨material, hr⟩
  · rw [hr, hr]
  · rw [hr, hr, nextId_congr hcounter]

end Agreement

section Congruence
variable [HkdfSha256] {s s' : InMemoryKeyStore} {event : KmipEvent}

/-- **An answer depends on the named object and the counter**, `Locate` apart. -/
theorem answerTo_congr (hkeyed : s.WellKeyed) (hop : event.2.operation ≠ .locate)
    (hcounter : s'.counter = s.counter)
    (hsame : ∀ id, event.2.uniqueId = some id → s'.objects[id]? = s.objects[id]?) :
    answerTo s' event = answerTo s event := by
  unfold answerTo dispatchOperation
  cases hcase : event.2.operation with
  | locate => exact absurd hcase hop
  | create =>
    exact processCreate_congr hcounter
  | get =>
    refine withUniqueId_congr "Get" fun id hid => ?_
    have hget : s'.get id = s.get id := hsame id hid
    rw [hget]
    rcases s.get id with _ | obj
    · rfl
    dsimp only
    split
    · rfl
    · split <;> rfl
  | activate | revoke | destroy =>
    refine processTransition_congr _ _ hsame fun id h => ?_
    simp only [activate, revoke, destroy, transitionTarget, h]
    exact failAlike_bind _
  | getAttributes =>
    refine withUniqueId_congr "GetAttributes" fun id hid => ?_
    have hget : s'.get id = s.get id := hsame id hid
    refine withOwnedObject_congr hget fun obj _ => ?_
    have hattrs : s'.getAttributes id = s.getAttributes id := by
      unfold getAttributes
      rw [hsame id hid]
    rw [hattrs]
    cases s.getAttributes id <;> rfl
  | register =>
    refine withUniqueId_congr "Register" fun id hid => ?_
    have hget : s'.get id = s.get id := hsame id hid
    rw [hget]
    split
    · rfl
    split
    · rfl
    simp only [register, hsame id hid]
    cases s.objects[id]? <;> rfl
  | check =>
    refine withUniqueId_congr "Check" fun id hid => ?_
    have hget : s'.get id = s.get id := hsame id hid
    rw [hget]
    rcases hobj : s.get id with _ | obj
    · rfl
    have hcount : (s'.decrementUsageCounter event.1.nowEpoch obj.id).1 =
        (s.decrementUsageCounter event.1.nowEpoch obj.id).1 := by
      rw [hkeyed id obj hobj]
      exact decrementUsageCounter_congr _ (hsame id hid)
    dsimp only
    split
    · rfl
    split
    · rfl
    · simp only [hcount]
  | addAttribute | modifyAttribute | deleteAttribute =>
    refine processAttributes_congr _ _ _ _ hsame fun id h => ?_
    simp only [addAttributes, modifyAttributes, deleteAttributes, h]
    cases s.objects[id]? with
    | none => exact .refl _
    | some obj =>
      -- the checks read the object alone
      repeat apply FailAlike.refused
      exact failAlike_ok _ _
  | deriveKey =>
    refine withUniqueId_congr "DeriveKey" fun id hid => ?_
    have hget : s'.get id = s.get id := hsame id hid
    rw [hget]
    split
    · rfl
    split
    · rfl
    split
    · rfl
    split
    · rfl
    dsimp only
    split
    · rfl
    exact congrArg (fun i => { KmipResponse.success i with
      objectType := some KmipObjectType.symmetricKey }) (nextId_congr hcounter)
  | query | rngRetrieve | createKeyPair | encrypt | decrypt | sign | signatureVerify | mac
  | macVerify => rfl

end Congruence

/-! ## A refused object -/

/-- The owner check that the handler of a request makes: the lifecycle operations and
`Locate` leave out the strict option. -/
def ownerCheck (request : KmipRequest) (obj : KmipStoredObject) : Option KmipResponse :=
  if request.operation ∈ [.activate, .revoke, .destroy, .locate] then
    checkOwnerAcl obj request.callerIdentity
  else checkOwnerAclForRequest obj request

/-- The handler of the request turns the object away. -/
def Refused (request : KmipRequest) (obj : KmipStoredObject) : Prop :=
  ownerCheck request obj = some objectNotFound

section RefusedObject
variable {s s' : InMemoryKeyStore} {event : KmipEvent} {id : String}
  {obj obj' : KmipStoredObject} {request : KmipRequest}

section
variable (h : Refused request obj)
include h

theorem Refused.legacy (hop : request.operation ∈ [.activate, .revoke, .destroy, .locate]) :
    checkOwnerAcl obj request.callerIdentity = some objectNotFound := by
  rw [Refused, ownerCheck, if_pos hop] at h
  exact h

theorem Refused.strict (hop : request.operation ∉ [.activate, .revoke, .destroy, .locate]) :
    checkOwnerAclForRequest obj request = some objectNotFound := by
  rw [Refused, ownerCheck, if_neg hop] at h
  exact h

/-- A request that changes the object has passed its check. -/
theorem Refused.not_change {env : KmipEnv} :
    ¬ Change env request obj obj' := by
  intro hchange
  cases hchange with
  | moved hop hacl _ =>
    rw [h.legacy (by revert hop; cases request.operation <;> simp [transitionState])] at hacl
    cases hacl
  | rewritten hop hacl _ =>
    rw [h.strict (by revert hop; cases request.operation <;> decide)] at hacl
    cases hacl

end

variable [HkdfSha256]

/-- **The answer about a refused object** shows nothing of it but its state. -/
theorem answerTo_refused (hop : event.2.operation ≠ .locate) (hcounter : s'.counter = s.counter)
    (htarget : event.2.uniqueId = some id) (hobj : s.objects[id]? = some obj)
    (hobj' : s'.objects[id]? = some obj') (hrefused : Refused event.2 obj)
    (hrefused' : Refused event.2 obj') (hstate : obj'.state = obj.state) :
    answerTo s' event = answerTo s event := by
  have hget : s.get id = some obj := hobj
  have hget' : s'.get id = some obj' := hobj'
  -- with the check of the handler at hand, both stores take the same branches
  by_cases hlegacy : event.2.operation ∈ [.activate, .revoke, .destroy, .locate]
  · have hacl := hrefused.legacy hlegacy
    have hacl' := hrefused'.legacy hlegacy
    have htransition : ∀ name verb t t', (processTransition event.2 s' name verb t').1 =
        (processTransition event.2 s name verb t).1 := by
      intro name verb t t'
      simp only [processTransition, withUniqueId_some htarget, aclCheckedTransition, hget, hget',
        hacl, hacl']
    unfold answerTo dispatchOperation
    cases hcase : event.2.operation with
    | activate | revoke | destroy => exact htransition _ _ _ _
    | locate => exact absurd hcase hop
    | _ => exact absurd (hcase ▸ hlegacy) (by decide)
  · have hacl := hrefused.strict hlegacy
    have hacl' := hrefused'.strict hlegacy
    have howned : ∀ f f', (withOwnedObject event.2 s' id f').1 =
        (withOwnedObject event.2 s id f).1 := by
      intro f f'
      simp only [withOwnedObject, hget, hget', hacl, hacl']
    have hattributes : ∀ name empty fail refusal t t',
        (processAttributes event.2 s' name empty fail refusal t').1 =
          (processAttributes event.2 s name empty fail refusal t).1 := by
      intro name empty fail refusal t t'
      simp only [processAttributes, withUniqueId_some htarget]
      split
      · rfl
      · exact howned _ _
    unfold answerTo dispatchOperation
    cases hcase : event.2.operation with
    | locate => exact absurd hcase hop
    | activate | revoke | destroy =>
      rw [hcase] at hlegacy
      exact absurd (by decide) hlegacy
    | create => exact processCreate_congr hcounter
    | get | check =>
      simp only [processGet, processCheck, withUniqueId_some htarget, hget, hget', hacl, hacl',
        hstate]
      split <;> rfl
    | getAttributes =>
      simp only [processGetAttributes, withUniqueId_some htarget]
      exact howned _ _
    | register =>
      simp only [processRegister, withUniqueId_some htarget, hget, hget', bind_some, hacl,
        hacl']
    | addAttribute | modifyAttribute | deleteAttribute => exact hattributes _ _ _ _ _ _
    | deriveKey =>
      simp only [processDeriveKey, withUniqueId_some htarget]
      split
      · rfl
      by_cases hdead : obj.state = .destroyed <;>
        simp [hget, hget', filter_some, hstate, hdead, hacl, hacl']
    | query | rngRetrieve | createKeyPair | encrypt | decrypt | sign | signatureVerify | mac
    | macVerify => rfl

end RefusedObject

/-! ## Ids in an answer -/

section Ids
variable {request : KmipRequest} {s : InMemoryKeyStore}

theorem withUniqueId_locatedIds (name : String) {handler : String → KmipResult}
    (h : ∀ id, (handler id).1.locatedIds = []) :
    (withUniqueId request s name handler).1.locatedIds = [] := by
  unfold withUniqueId
  split
  · rfl
  · exact h _

theorem checkOwnerAcl_locatedIds {obj : KmipStoredObject} {caller : Option String} {strict : Bool}
    {r : KmipResponse} (h : checkOwnerAclWithOptions obj caller strict = some r) :
    r.locatedIds = [] := by
  rw [checkOwnerAclWithOptions_some h]
  rfl

theorem withOwnedObject_locatedIds {id : String} {handler : KmipStoredObject → KmipResult}
    (h : ∀ obj, (handler obj).1.locatedIds = []) :
    (withOwnedObject request s id handler).1.locatedIds = [] := by
  unfold withOwnedObject
  split
  · rfl
  split
  · exact checkOwnerAcl_locatedIds ‹_›
  · exact h _

theorem answerUpdate_locatedIds (id message : String)
    (result : Except KmipResultReason InMemoryKeyStore) :
    (answerUpdate s id message result).1.locatedIds = [] := by
  cases result <;> rfl

theorem processTransition_locatedIds (name verb : String)
    (transition : String → Except KmipResultReason InMemoryKeyStore) :
    (processTransition request s name verb transition).1.locatedIds = [] := by
  refine withUniqueId_locatedIds name fun id => ?_
  unfold aclCheckedTransition
  split
  · split
    · exact checkOwnerAcl_locatedIds ‹_›
    · exact answerUpdate_locatedIds _ _ _
  · exact answerUpdate_locatedIds _ _ _

/-- The refusals of the attribute operations list nothing. -/
theorem processAttributes_locatedIds (name emptyMessage failMessage : String)
    {refusal : KmipStoredObject → KmipAttribute → Option KmipResponse}
    (hrefusal : ∀ obj a r, refusal obj a = some r → r.locatedIds = [])
    (update : String → Except KmipResultReason InMemoryKeyStore) :
    (processAttributes request s name emptyMessage failMessage refusal update).1.locatedIds
      = [] := by
  refine withUniqueId_locatedIds name fun id => ?_
  split
  · rfl
  refine withOwnedObject_locatedIds fun obj => ?_
  split
  · next resp hresp =>
    obtain ⟨a, -, ha⟩ := List.exists_of_findSome?_eq_some hresp
    exact hrefusal obj a resp ha
  · exact answerUpdate_locatedIds _ _ _

theorem addAttributeRefusal_locatedIds (obj : KmipStoredObject) (a : KmipAttribute)
    (r : KmipResponse) (h : addAttributeRefusal obj a = some r) : r.locatedIds = [] := by
  unfold addAttributeRefusal at h
  split at h
  · cases h; rfl
  split at h
  · cases h; rfl
  split at h
  · cases h; rfl
  · split at h
    · cases h; rfl
    · cases h

theorem presentAttributeRefusal_locatedIds (hint : String) (obj : KmipStoredObject)
    (a : KmipAttribute) (r : KmipResponse) (h : presentAttributeRefusal hint obj a.name = some r) :
    r.locatedIds = [] := by
  unfold presentAttributeRefusal at h
  split at h
  · cases h; rfl
  · split at h
    · cases h
    · cases h; rfl

/-- **Only `Locate` and `Query` list ids.** -/
theorem answerTo_locatedIds [HkdfSha256] {event : KmipEvent}
    (hop : event.2.operation ∉ [.locate, .query]) : (answerTo s event).locatedIds = [] := by
  unfold answerTo dispatchOperation
  cases hcase : event.2.operation with
  | locate | query =>
    rw [hcase] at hop
    exact absurd (by decide) hop
  | create =>
    rcases processCreate_cases event.1 event.2 with ⟨reason, message, hr⟩ | ⟨material, hr⟩
    · exact congrArg (fun result => result.1.locatedIds) (hr s)
    · exact congrArg (fun result => result.1.locatedIds) (hr s)
  | get | check =>
    refine withUniqueId_locatedIds _ fun id => ?_
    split
    · rfl
    split
    · rfl
    split
    · exact checkOwnerAcl_locatedIds ‹_›
    · rfl
  | activate | revoke | destroy => exact processTransition_locatedIds _ _ _
  | addAttribute => exact processAttributes_locatedIds _ _ _ addAttributeRefusal_locatedIds _
  | modifyAttribute | deleteAttribute =>
    exact processAttributes_locatedIds _ _ _ (presentAttributeRefusal_locatedIds _) _
  | getAttributes =>
    refine withUniqueId_locatedIds "GetAttributes" fun id =>
      withOwnedObject_locatedIds fun obj => ?_
    split <;> rfl
  | register =>
    refine withUniqueId_locatedIds "Register" fun id => ?_
    split
    · next resp hresp =>
      obtain ⟨obj, -, hacl⟩ := bind_eq_some_iff.mp hresp
      exact checkOwnerAcl_locatedIds hacl
    · split
      · rfl
      dsimp only
      split <;> rfl
  | deriveKey =>
    refine withUniqueId_locatedIds "DeriveKey" fun id => ?_
    split
    · rfl
    split
    · rfl
    split
    · exact checkOwnerAcl_locatedIds ‹_›
    split
    · rfl
    dsimp only
    split <;> rfl
  | rngRetrieve =>
    simp only [processRngRetrieve]
    split
    · rfl
    split
    · rfl
    · split <;> rfl
  | createKeyPair | encrypt | decrypt | sign | signatureVerify | mac | macVerify => rfl

end Ids

end CratonHsm
