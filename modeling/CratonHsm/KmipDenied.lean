import CratonHsm.KmipOwnership
import CratonHsm.KmipServer
import CratonHsm.KmipUsage

/-!
# A batch under a policy that denies everything

The gate of the batch loop lets `Create`, `CreateKeyPair`, `Check` and `RNG_Retrieve` through
unasked.  `Check` counts down the usage counter of the object it names, so a denying policy
does not protect it.  A batch leaves the objects of the store alone, names none of them and
shows nothing of them exactly when no `Check` gets past the owner check of one and no `Create`
lands on the id of one.
-/

namespace CratonHsm
open Std OrderedMaps PrefixFreeCode GuardedRun InMemoryKeyStore List Option

section Denied
variable {pre s t : InMemoryKeyStore} {id : String} {obj : KmipStoredObject}

/-! ## Two stores -/

/-- `t` is `s` with other attributes, material and dates on its objects. -/
structure Masks (s t : InMemoryKeyStore) : Prop where
  counter : t.counter = s.counter
  faces : ∀ (id : String) obj, s.objects[id]? = some obj → ∃ obj', t.objects[id]? = some obj' ∧
    SameFace obj obj'
  absent : ∀ id, id ∉ s.objects → t.objects[id]? = none

/-- `s` is a store with the objects of `pre`, and `t` is `s` with these objects masked. -/
structure Shadow (pre s t : InMemoryKeyStore) : Prop where
  counter : t.counter = s.counter
  kept : ∀ id ∈ pre.objects, s.objects[id]? = pre.objects[id]?
  faces : ∀ (id : String) obj, pre.objects[id]? = some obj → ∃ obj', t.objects[id]? = some obj' ∧
    SameFace obj obj'
  rest : ∀ id, id ∉ pre.objects → t.objects[id]? = s.objects[id]?
  keyed : ∀ id, id ∉ pre.objects → ∀ obj, s.objects[id]? = some obj → obj.id = id

theorem Masks.shadow (h : Masks pre t) : Shadow pre pre t where
  counter := h.counter
  kept _ _ := rfl
  faces := h.faces
  rest id hid := by
    rw [ExtTreeMap.getElem?_eq_none hid]
    exact h.absent id hid
  keyed id hid obj hobj := absurd (mem_objects hobj) hid

theorem Masks.refl (s : InMemoryKeyStore) : Masks s s where
  counter := rfl
  faces _ obj hobj := ⟨obj, hobj, ⟨rfl, rfl, rfl⟩⟩
  absent _ hid := ExtTreeMap.getElem?_eq_none hid

section
variable (h : Shadow pre s t)
include h

/-- Both stores get the same object under a new id. -/
theorem Shadow.insert {s' t' : InMemoryKeyStore} (hid : id ∉ pre.objects)
    (hobj : obj.id = id) (hs : s'.objects = s.objects.insert id obj)
    (ht : t'.objects = t.objects.insert id obj) (hcounter : t'.counter = s'.counter) :
    Shadow pre s' t' where
  counter := hcounter
  kept k hk := by
    have hne : k ≠ id := fun he => hid (he ▸ hk)
    rw [hs, getElem?_insert_of_ne hne]
    exact h.kept k hk
  faces k o ho := by
    have hne : k ≠ id := fun he => hid (he ▸ mem_objects ho)
    rw [ht, getElem?_insert_of_ne hne]
    exact h.faces k o ho
  rest k hk := by
    rw [hs, ht, ExtTreeMap.getElem?_insert, ExtTreeMap.getElem?_insert, h.rest k hk]
  keyed k hk o ho := by
    rcases getElem?_insert_cases (hs ▸ ho) with ⟨rfl, rfl⟩ | ⟨-, ho⟩
    · exact hobj
    · exact h.keyed k hk o ho

/-- What one item does on both stores. -/
structure Alike (pre : InMemoryKeyStore) (r r' : KmipResult) : Prop where
  same : r'.1 = r.1
  shadow : Shadow pre r.2 r'.2
  unnamed : ∀ id ∈ pre.objects, r.1.uniqueId ≠ some id ∧ id ∉ r.1.locatedIds

/-- An answer without ids that changes nothing. -/
theorem Shadow.answer {r : KmipResponse} (hid : r.uniqueId = none)
    (hlist : r.locatedIds = []) : Alike pre (r, s) (r, t) where
  same := rfl
  shadow := h
  unnamed id _ := by
    rw [hid, hlist]
    exact ⟨nofun, not_mem_nil⟩

omit h in
/-- The countdown reads nothing but the object, and writes nothing else. -/
theorem decrementUsageCounter_cases (now : Nat) (obj : KmipStoredObject) :
    (∀ s id, s.objects[id]? = some obj → decrementUsageCounter s now id = (none, s)) ∨
    ∃ n obj', obj'.id = obj.id ∧
      ∀ s id, s.objects[id]? = some obj →
        decrementUsageCounter s now id = (some n, s.put id obj') := by
  cases hcount : usageCount obj with
  | none => exact .inl fun s id hobj => decrementUsageCounter_none now hobj hcount
  | some k =>
    refine .inr ⟨_, _, ?_, fun s id hobj => decrementUsageCounter_some now hobj hcount⟩
    rfl

/-- **An object looks the same on both stores**: `Check` of a new one. -/
theorem alike_check_new (request : KmipRequest) (env : KmipEnv) (hid : request.uniqueId = some id)
    (hfree : id ∉ pre.objects) :
    Alike pre (processCheck env request s) (processCheck env request t) := by
  unfold processCheck
  rw [withUniqueId_some hid, withUniqueId_some hid]
  have hget : t.get id = s.get id := h.rest id hfree
  rw [hget]
  rcases hobj : s.get id with _ | obj
  · exact h.answer rfl rfl
  have hkey : obj.id = id := h.keyed id hfree obj hobj
  have hobj' : t.objects[id]? = some obj := hget.trans hobj
  dsimp only
  by_cases hdead : obj.state = .destroyed
  · rw [if_pos hdead, if_pos hdead]
    exact h.answer rfl rfl
  rw [if_neg hdead, if_neg hdead]
  cases hacl : checkOwnerAclForRequest obj request with
  | some resp =>
    rw [checkOwnerAclWithOptions_some hacl]
    exact h.answer rfl rfl
  | none =>
    -- the answer carries the id, which is not one of `pre`
    have hnamed : ∀ k ∈ pre.objects, some obj.id ≠ some k ∧ k ∉ ([] : List String) := by
      intro k hk
      refine ⟨fun he => hfree ?_, not_mem_nil⟩
      rw [← hkey, some.inj he]
      exact hk
    rw [hkey] at hnamed ⊢
    rcases decrementUsageCounter_cases env.nowEpoch obj with hnone | ⟨n, obj', ho, hput⟩
    · simp only [hnone s id hobj, hnone t id hobj']
      exact ⟨rfl, h, hnamed⟩
    · simp only [hput s id hobj, hput t id hobj']
      exact ⟨rfl, h.insert hfree (ho.trans hkey) rfl rfl h.counter, hnamed⟩

/-- A `Check` that does not get past an object of `pre`. -/
theorem alike_check (request : KmipRequest) (env : KmipEnv) (hop : request.operation = .check)
    (hnew : ∀ id ∈ request.uniqueId, MayCheck id s (env, request) → id ∉ pre.objects) :
    Alike pre (processCheck env request s) (processCheck env request t) := by
  rcases hid : request.uniqueId with _ | id
  · unfold processCheck withUniqueId
    rw [hid]
    exact h.answer rfl rfl
  by_cases hmem : id ∈ pre.objects
  · obtain ⟨obj, hpre⟩ := isSome_iff_exists.mp (ExtTreeMap.mem_iff_isSome_getElem?.mp hmem)
    obtain ⟨obj', hobj', hface⟩ := h.faces id obj hpre
    have hobj : s.get id = some obj := (h.kept id hmem).trans hpre
    have hget' : t.get id = some obj' := hobj'
    have hsame : checkOwnerAclForRequest obj' request = checkOwnerAclForRequest obj request :=
      hface.checkOwnerAcl_eq _ _
    unfold processCheck
    rw [withUniqueId_some hid, withUniqueId_some hid, hobj, hget']
    dsimp only
    rw [hface.state_eq, hsame]
    by_cases hdead : obj.state = .destroyed
    · rw [if_pos hdead, if_pos hdead]
      exact h.answer rfl rfl
    rw [if_neg hdead, if_neg hdead]
    cases hacl : checkOwnerAclForRequest obj request with
    | some resp =>
      rw [checkOwnerAclWithOptions_some hacl]
      exact h.answer rfl rfl
    | none => exact absurd hmem (hnew id hid ⟨hop, hid, obj, hobj, hdead, hacl⟩)
  · exact alike_check_new h request env hid hmem

/-- `Create` under an id that is not one of `pre`. -/
theorem alike_create (request : KmipRequest) (env : KmipEnv)
    (hnew : AcceptsCreate env request → s.nextId ∉ pre.objects) :
    Alike pre (processCreate env request s) (processCreate env request t) := by
  rcases processCreate_cases env request with ⟨reason, message, hr⟩ | ⟨material, hr⟩
  · rw [hr, hr]
    exact h.answer rfl rfl
  have hfree : s.nextId ∉ pre.objects :=
    hnew (processCreate_success_iff.mp (congrArg (fun r => r.1.status) (hr s)))
  have hnext : t.nextId = s.nextId := by
    unfold nextId
    rw [h.counter]
  rw [hr, hr, hnext]
  refine ⟨rfl, ?_, fun k hk => ⟨fun he => hfree ?_, not_mem_nil⟩⟩
  · refine h.insert hfree rfl rfl ?_ (congrArg (· + 1) h.counter)
    simp only [create, put, indexInsert, h.counter]
    rfl
  · rw [some.inj he]
    exact hk

theorem alike_rngRetrieve (request : KmipRequest) (env : KmipEnv) :
    Alike pre (processRngRetrieve env request, s) (processRngRetrieve env request, t) := by
  refine h.answer ?_ ?_
  all_goals
    simp only [processRngRetrieve]
    split
    · rfl
    split
    · rfl
    · split <;> rfl

end

theorem wrapMaterial_names (server : KmipServer) (env : KmipEnv) (r : KmipResponse) :
    (∀ id, (wrapMaterial server env r).uniqueId = some id → r.uniqueId = some id) ∧
      ∀ id ∈ (wrapMaterial server env r).locatedIds, id ∈ r.locatedIds := by
  unfold wrapMaterial
  split
  · split
    · exact ⟨fun _ h => h, fun _ h => h⟩
    constructor
    · intro id h
      cases h
    · intro id h
      cases h
  · exact ⟨fun _ h => h, fun _ h => h⟩

theorem wrapMaterial_uniqueId {server : KmipServer} {env : KmipEnv} {r : KmipResponse}
    (h : r.keyMaterial = none) :
    (wrapMaterial server env r).uniqueId = r.uniqueId := by
  unfold wrapMaterial
  rw [h]
  cases server.kek <;> rfl

/-! ## One item -/

variable [HkdfSha256] {server : KmipServer} {caller : String} {event : KmipEvent}

/-- The policy turns every request away. -/
def DeniesAll (acl : KmipAcl) : Prop := ∀ caller op id, ∃ reason, acl caller op id = .deny reason

/-- The store after one item of a batch. -/
def itemStep (server : KmipServer) (caller : String) (store : InMemoryKeyStore)
    (event : KmipEvent) : InMemoryKeyStore :=
  (answerItem server caller store event).2

/-- The item gets past the owner check of no object of `pre` and creates none in its place. -/
def AvoidsExisting (pre store : InMemoryKeyStore) (event : KmipEvent) : Prop :=
  (∀ id ∈ event.2.uniqueId, MayCheck id store event → id ∉ pre.objects) ∧
  (event.2.operation = .create → AcceptsCreate event.1 event.2 → store.nextId ∉ pre.objects)

instance (pre store : InMemoryKeyStore) (event : KmipEvent) :
    Decidable (AvoidsExisting pre store event) :=
  inferInstanceAs (Decidable ((∀ _ ∈ _, _) ∧ _))

/-- The batch leaves the objects of the store alone, names none of them and is answered the same
whatever their attributes (the owner apart), their material and their dates are. -/
structure Frozen (server : KmipServer) (caller : String) (store : InMemoryKeyStore)
    (events : List KmipEvent) : Prop where
  kept : ∀ (id : String) (obj : KmipStoredObject), store.objects[id]? = some obj →
    (batchLoop server caller store events).2.objects[id]? = some obj
  unnamed : ∀ r ∈ (batchLoop server caller store events).1, ∀ id ∈ store.objects,
    r.uniqueId ≠ some id ∧ id ∉ r.locatedIds
  hidden : ∀ other, Masks store other →
    (batchLoop server caller other events).1 = (batchLoop server caller store events).1

/-- A gated item is answered by the policy alone. -/
theorem answerItem_gated (hdeny : DeniesAll server.acl)
    (hgated : operationRequiresAcl event.2.operation = true) :
    ∃ reason message, ∀ s, answerItem server caller s event = (.error reason message, s) := by
  obtain ⟨reason, hreason⟩ := hdeny event.2.callerIdentity event.2.operation event.2.uniqueId
  refine ⟨reason, "ACL denied " ++ event.2.operation.display ++ " for caller " ++ caller,
    fun s => ?_⟩
  simp only [answerItem, if_pos hgated, hreason]

/-- Any other item goes to its handler. -/
theorem answerItem_ungated (s : InMemoryKeyStore)
    (hgated : operationRequiresAcl event.2.operation = false) :
    answerItem server caller s event =
      (wrapMaterial server event.1 (answerTo s event), kmipStep s event) := by
  simp only [answerItem, hgated]
  rfl

/-- The id that a handler answers with, where it gives no material away. -/
theorem answerItem_uniqueId (hgated : operationRequiresAcl event.2.operation = false)
    (h : (answerTo s event).uniqueId = some id ∧ (answerTo s event).keyMaterial = none) :
    (answerItem server caller s event).1.uniqueId = some id := by
  rw [answerItem_ungated s hgated, wrapMaterial_uniqueId h.2]
  exact h.1

/-- **An item under a denying policy** is answered alike on both stores. -/
theorem alike_answerItem (hdeny : DeniesAll server.acl) (h : Shadow pre s t)
    (hrule : AvoidsExisting pre s event) :
    Alike pre (answerItem server caller s event) (answerItem server caller t event) := by
  cases hgated : operationRequiresAcl event.2.operation with
  | true =>
    obtain ⟨reason, message, hr⟩ : ∃ reason message, ∀ s, answerItem server caller s event =
        (.error reason message, s) := answerItem_gated hdeny hgated
    rw [hr, hr]
    exact h.answer rfl rfl
  | false =>
    have halike : Alike pre (dispatchOperation event.1 event.2 s)
        (dispatchOperation event.1 event.2 t) := by
      obtain ⟨hcheck, hcreate⟩ := hrule
      unfold dispatchOperation
      cases hop : event.2.operation with
      | create => exact alike_create h _ _ (hcreate hop)
      | check => exact alike_check h _ _ hop hcheck
      | rngRetrieve => exact alike_rngRetrieve h _ _
      | createKeyPair => exact h.answer rfl rfl
      | _ =>
        rw [hop] at hgated
        cases hgated
    rw [answerItem_ungated s hgated, answerItem_ungated t hgated]
    refine ⟨congrArg (wrapMaterial server event.1) halike.same, halike.shadow, fun id hid => ?_⟩
    obtain ⟨hname, hlist⟩ := wrapMaterial_names server event.1 (answerTo s event)
    obtain ⟨hne, hmem⟩ := halike.unnamed id hid
    exact ⟨fun he => hne (hname id he), fun he => hmem (hlist id he)⟩

/-! ## The batch -/

/-- What the loop does on both stores, by induction over the batch. -/
theorem alike_batchLoop (hdeny : DeniesAll server.acl) {events : List KmipEvent}
    (h : Shadow pre s t) (hrule : Along (itemStep server caller) (AvoidsExisting pre) s events) :
    (batchLoop server caller t events).1 = (batchLoop server caller s events).1 ∧
      Shadow pre (batchLoop server caller s events).2 (batchLoop server caller t events).2 ∧
      ∀ r ∈ (batchLoop server caller s events).1, ∀ id ∈ pre.objects,
        r.uniqueId ≠ some id ∧ id ∉ r.locatedIds := by
  induction events generalizing s t with
  | nil => exact ⟨rfl, h, fun r hr => absurd hr not_mem_nil⟩
  | cons event events ih =>
    have hitem : Alike pre (answerItem server caller s event)
        (answerItem server caller t event) := alike_answerItem hdeny h hrule.1
    obtain ⟨hsame, hshadow, hunnamed⟩ := ih hitem.shadow hrule.2
    refine ⟨?_, hshadow, fun r hr => ?_⟩
    · simp only [batchLoop]
      rw [hitem.same, hsame]
    · rcases mem_cons.mp hr with rfl | hr
      · exact hitem.unnamed
      · exact hunnamed r hr

/-- An item that names no object of `pre` avoids them: a `Check` that gets past one and a `Create`
in the place of one both answer with its id. -/
theorem avoidsExisting_of_unnamed (hkeyed : pre.WellKeyed) (h : Shadow pre s s)
    (hun : ∀ id ∈ pre.objects, (answerItem server caller s event).1.uniqueId ≠ some id) :
    AvoidsExisting pre s event := by
  constructor
  · rintro id - ⟨hop, htarget, obj, hobj, hlive, hacl⟩ hmem
    refine hun id hmem (answerItem_uniqueId (by rw [hop]; decide) ?_)
    have hkey : obj.id = id := hkeyed id obj ((h.kept id hmem).symm.trans hobj)
    have hget : s.get id = some obj := hobj
    unfold answerTo dispatchOperation
    simp only [hop, processCheck, withUniqueId_some htarget, hget, if_neg hlive, hacl, hkey]
    exact ⟨rfl, rfl⟩
  · intro hop haccepts hmem
    refine hun s.nextId hmem (answerItem_uniqueId (by rw [hop]; decide) ?_)
    have hsuccess : (processCreate event.1 event.2 s).1.status = .success :=
      processCreate_success_iff.mpr haccepts
    unfold answerTo dispatchOperation
    rw [hop]
    rcases processCreate_cases event.1 event.2 with ⟨reason, message, hr⟩ | ⟨material, hr⟩
    · rw [hr] at hsuccess
      cases hsuccess
    · rw [hr]
      exact ⟨rfl, rfl⟩

/-- The items of a batch whose answers name no object of `pre`, by induction over the batch. -/
theorem along_of_unnamed (hdeny : DeniesAll server.acl) (hkeyed : pre.WellKeyed)
    {events : List KmipEvent} (h : Shadow pre s s)
    (hun : ∀ r ∈ (batchLoop server caller s events).1, ∀ id ∈ pre.objects, r.uniqueId ≠ some id) :
    Along (itemStep server caller) (AvoidsExisting pre) s events := by
  induction events generalizing s with
  | nil => trivial
  | cons event events ih =>
    have hhead : AvoidsExisting pre s event :=
      avoidsExisting_of_unnamed hkeyed h (hun _ mem_cons_self)
    exact ⟨hhead, ih (alike_answerItem hdeny h hhead).shadow
      fun r hr => hun r (mem_cons_of_mem _ hr)⟩

/-- **A denying policy freezes the objects of the store** exactly when no `Check` gets past the
owner check of one and no `Create` takes the id of one. -/
theorem denied_batch_frozen_iff {store : InMemoryKeyStore} {events : List KmipEvent}
    (hdeny : DeniesAll server.acl) (hkeyed : store.WellKeyed) :
    Frozen server caller store events ↔
      Along (itemStep server caller) (AvoidsExisting store) store events := by
  have hself : Shadow store store store := (Masks.refl store).shadow
  constructor
  · intro h
    exact along_of_unnamed hdeny hkeyed hself fun r hr id hid => (h.unnamed r hr id hid).1
  · intro hrule
    obtain ⟨-, hshadow, hunnamed⟩ := alike_batchLoop hdeny hself hrule
    refine ⟨fun id obj hobj => ?_, hunnamed, fun other hmask =>
      (alike_batchLoop hdeny hmask.shadow hrule).1⟩
    rw [hshadow.kept id (mem_objects hobj)]
    exact hobj

end Denied

section Sample
attribute [local instance] zeroHkdf

/-- A server whose policy denies everything. -/
def denyingServer : KmipServer := { acl := fun _ _ _ => .deny .permissionDenied }

theorem denyingServer_denies : DeniesAll denyingServer.acl := fun _ _ _ => ⟨.permissionDenied, rfl⟩

/-- `bob` checks the key of `alice`. -/
def bobChecks : KmipEvent :=
  ((aliceEvent .check).1, { (aliceEvent .check).2 with callerIdentity := some "bob" })

theorem denied_batch_frozen_iff_sample :
    Frozen denyingServer "<anon>" (countedStore 2)
        [aliceEvent .destroy, bobChecks, createEvent (some "alice") []] ∧
      ¬ Frozen denyingServer "<anon>" (countedStore 2) [bobChecks, aliceEvent .check] := by
  have hkeyed : (countedStore 2).WellKeyed := Reachable.wellKeyed ⟨[_], rfl⟩
  exact ⟨(denied_batch_frozen_iff denyingServer_denies hkeyed).mpr (by decide +kernel),
    (denied_batch_frozen_iff denyingServer_denies hkeyed).not.mpr (by decide +kernel)⟩

/-- `Check` counts down under a policy that denies everything. -/
theorem check_counts_down_denied :
    ¬ ∀ [HkdfSha256] (server : KmipServer) (caller : String) (store : InMemoryKeyStore)
      (events : List KmipEvent), DeniesAll server.acl → Reachable store →
      Frozen server caller store events := by
  intro h
  have hfrozen := h denyingServer "<anon>" (countedStore 2) [aliceEvent .check]
    denyingServer_denies ⟨[_], rfl⟩
  have hstored : ((countedStore 2).objects["kmip-00000001"]?).bind usageCount = some 2 := by
    decide +kernel
  obtain ⟨obj, hobj, hcount⟩ := bind_eq_some_iff.mp hstored
  have hkept := hfrozen.kept "kmip-00000001" obj hobj
  have hafter : ((batchLoop denyingServer "<anon>" (countedStore 2)
      [aliceEvent .check]).2.objects["kmip-00000001"]?).bind usageCount = some 1 := by
    decide +kernel
  rw [hkept, bind_some, hcount] at hafter
  cases hafter

end Sample

end CratonHsm
