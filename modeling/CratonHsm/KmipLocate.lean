import CratonHsm.KmipFrame

/-!
# Locate through the type index

`locate` answers a filter that names a known object type from a secondary index, which
`create`, `register` and `destroy` maintain by hand and whose entries it does not compare
with the type of the stored object.  `Indexed` says that the index is right.  Every operation
of the store keeps it, except a `create` that finds its id in use: the old object loses its
place in the store and keeps it in the index.
-/

namespace CratonHsm
open Std OrderedMaps PrefixFreeCode GuardedRun List

/-! ## What locate finds -/

section Locate
variable {s : InMemoryKeyStore} {id : String} {filter : KmipAttributes} {obj : KmipStoredObject}

theorem matchesFilter_iff {matched : String → Bool} :
    InMemoryKeyStore.matchesFilter obj filter matched = true ↔
      ∀ (name : String) (value : KmipAttributeValue), filter[name]? = some value →
        matched name = true ∨ obj.attributes[name]? = some value := by
  simp only [InMemoryKeyStore.matchesFilter, all_eq_true, Prod.forall,
    ExtTreeMap.mem_toList_iff_getElem?_eq_some, Bool.or_eq_true, decide_eq_true_eq]

/-- The ids that a filter with a known object type finds. -/
theorem mem_locate_type {v : UInt32} {t : KmipObjectType}
    (hfilter : filter["Object Type"]? = some (.enum v)) (ht : KmipObjectType.fromU32 v = some t) :
    id ∈ s.locate filter ↔ id ∈ s.typeIndex t ∧ ∃ obj, s.objects[id]? = some obj ∧
      obj.state ≠ .destroyed ∧
      ∀ (name : String) (value : KmipAttributeValue), name ≠ "Object Type" →
        filter[name]? = some value → obj.attributes[name]? = some value := by
  simp only [InMemoryKeyStore.locate, hfilter, ht, mem_filter, ExtTreeSet.mem_toList]
  refine and_congr_right fun _ => ?_
  rcases hobj : s.objects[id]? with _ | obj
  · simp
  simp only [Bool.and_eq_true, decide_eq_true_eq, matchesFilter_iff, Option.some.injEq,
    exists_eq_left']
  refine and_congr_right fun _ => forall₂_congr fun name value => ?_
  by_cases hname : name = "Object Type" <;> simp [hname]

/-- No id is listed twice, whatever the path. -/
theorem nodup_locate : (s.locate filter).Nodup := by
  have hindex : ∀ t, (s.typeIndex t).toList.Nodup := by
    intro t
    refine ExtTreeSet.distinct_toList.imp fun h he => h ?_
    rw [he, compare_self]
  have hscan : (s.objects.toList.map Prod.fst).Nodup := by
    refine pairwise_map.mpr (ExtTreeMap.distinct_keys_toList.imp fun h he => h ?_)
    rw [he, compare_self]
  unfold InMemoryKeyStore.locate
  split
  · split
    · exact (hindex _).filter _
    · exact hscan.sublist (filter_sublist.map _)
  · exact hscan.sublist (filter_sublist.map _)

/-- Locate finds stored objects that are not destroyed. -/
theorem live_of_mem_locate (h : id ∈ s.locate filter) :
    ∃ obj, s.objects[id]? = some obj ∧ obj.state ≠ .destroyed := by
  have hscan : ∀ p : String × KmipStoredObject → Bool,
      id ∈ (s.objects.toList.filter fun q => q.2.state ≠ .destroyed && p q).map Prod.fst →
      ∃ obj, s.objects[id]? = some obj ∧ obj.state ≠ .destroyed := by
    intro p hin
    obtain ⟨⟨k, obj⟩, hmem, rfl⟩ := mem_map.mp hin
    simp only [mem_filter, Bool.and_eq_true, decide_eq_true_eq] at hmem
    exact ⟨obj, ExtTreeMap.mem_toList_iff_getElem?_eq_some.mp hmem.1, hmem.2.1⟩
  unfold InMemoryKeyStore.locate at h
  split at h
  · split at h
    · have hlive := (mem_filter.mp h).2
      split at hlive
      · next obj hobj =>
        simp only [Bool.and_eq_true, decide_eq_true_eq] at hlive
        exact ⟨obj, hobj, hlive.1⟩
      · cases hlive
    · exact hscan _ h
  · exact hscan _ h

end Locate

/-- The loop of `process_locate` lists the first visible ids, up to the cap. -/
theorem locateVisible_fst (visible : String → Bool) (ids filtered : List String)
    (h : filtered.length ≤ locateMaxResultsDefault) :
    (locateVisible visible ids filtered).1 =
      filtered ++ (ids.filter visible).take (locateMaxResultsDefault - filtered.length) := by
  induction ids generalizing filtered with
  | nil => simp [locateVisible]
  | cons id ids ih =>
    unfold locateVisible
    by_cases hfull : locateMaxResultsDefault ≤ filtered.length
    · rw [if_pos hfull, Nat.sub_eq_zero_of_le hfull]
      simp
    rw [if_neg hfull]
    by_cases hvisible : visible id = true
    · have hroom : locateMaxResultsDefault - filtered.length =
          locateMaxResultsDefault - (filtered ++ [id]).length + 1 := by
        rw [length_append, length_singleton]
        omega
      rw [if_pos hvisible, ih _ (by rw [length_append, length_singleton]; omega),
        filter_cons_of_pos hvisible, hroom, take_succ_cons, append_assoc]
      rfl
    · rw [if_neg hvisible, ih _ h, filter_cons_of_neg hvisible]

namespace InMemoryKeyStore

/-- The index lists the live objects of each type. -/
def Indexed (s : InMemoryKeyStore) : Prop :=
  ∀ (t : KmipObjectType) (id : String), id ∈ s.typeIndex t ↔
    ∃ obj, s.objects[id]? = some obj ∧ obj.objectType = t ∧ obj.state ≠ .destroyed

section Index
variable {s : InMemoryKeyStore} {id : String} {obj obj' : KmipStoredObject}

theorem mem_index_insert {t u : KmipObjectType} {k : String} :
    k ∈ (s.indexInsert t id).typeIndex u ↔ u = t ∧ k = id ∨ k ∈ s.typeIndex u := by
  unfold indexInsert
  by_cases hu : u = t
  · simp only [hu, if_true, ExtTreeSet.mem_insert, Std.compare_eq_iff_eq, true_and]
    rw [eq_comm]
  · simp only [hu, if_false, false_and, false_or]

theorem mem_index_erase {t u : KmipObjectType} {k : String} :
    k ∈ (s.indexRemove t id).typeIndex u ↔ ¬ (u = t ∧ k = id) ∧ k ∈ s.typeIndex u := by
  unfold indexRemove
  by_cases hu : u = t
  · simp only [hu, if_true, ExtTreeSet.mem_erase, ne_eq, Std.compare_eq_iff_eq, true_and]
    rw [eq_comm]
  · simp only [hu, if_false, false_and, not_false_eq_true, true_and]

/-- A new object under an unused id. -/
theorem Indexed.add {s' : InMemoryKeyStore} (h : s.Indexed) (hfree : id ∉ s.objects)
    (hlive : obj.state ≠ .destroyed) (hobjects : s'.objects = s.objects.insert id obj)
    (hindex : s'.typeIndex = (s.indexInsert obj.objectType id).typeIndex) : s'.Indexed := by
  intro t k
  rw [hindex, hobjects, mem_index_insert]
  by_cases hk : k = id
  · subst hk
    have hnot : k ∉ s.typeIndex t := by
      intro hin
      obtain ⟨old, hold, -⟩ := (h t k).mp hin
      exact hfree (mem_objects hold)
    simp only [hnot, or_false, and_true, ExtTreeMap.getElem?_insert_self, Option.some.injEq,
      exists_eq_left', hlive, ne_eq, not_false_eq_true]
    exact eq_comm
  · rw [getElem?_insert_of_ne hk]
    simp [hk, h t k]

/-- An object of the same type that is live exactly if the old one was. -/
theorem Indexed.replace (h : s.Indexed) (hobj : s.objects[id]? = some obj)
    (htype : obj'.objectType = obj.objectType)
    (hlive : obj'.state = .destroyed ↔ obj.state = .destroyed) : (s.put id obj').Indexed := by
  intro t k
  rw [show (s.put id obj').typeIndex = s.typeIndex from rfl, h t k,
    show (s.put id obj').objects = s.objects.insert id obj' from rfl]
  by_cases hk : k = id
  · subst hk
    simp [hobj, htype, hlive]
  · rw [getElem?_insert_of_ne hk]

/-- A destroyed object leaves the index. -/
theorem Indexed.drop (h : s.Indexed) (hobj : s.objects[id]? = some obj)
    (hdead : obj'.state = .destroyed) :
    ((s.indexRemove obj.objectType id).put id obj').Indexed := by
  intro t k
  rw [show ((s.indexRemove obj.objectType id).put id obj').typeIndex =
      (s.indexRemove obj.objectType id).typeIndex from rfl, mem_index_erase, h t k,
    show ((s.indexRemove obj.objectType id).put id obj').objects =
        s.objects.insert id obj' from rfl]
  by_cases hk : k = id
  · subst hk
    simp only [hobj, ExtTreeMap.getElem?_insert_self, Option.some.injEq, exists_eq_left', hdead]
    constructor
    · rintro ⟨hne, rfl, -⟩
      exact absurd ⟨rfl, trivial⟩ hne
    · rintro ⟨-, hne⟩
      exact absurd rfl hne
  · rw [getElem?_insert_of_ne hk]
    simp [hk]

end Index

end InMemoryKeyStore

/-! ## The operations of the store -/

/-- The calls of `KmipKeyStore` that change the store. -/
inductive StoreCall where
  | create (now : Nat) (t : KmipObjectType) (material : Bytes) (attrs : KmipAttributes)
  | register (now : Nat) (id : String) (t : KmipObjectType) (material : Option Bytes)
      (attrs : KmipAttributes)
  | activate (now : Nat) (id : String)
  | revoke (now : Nat) (id : String)
  | destroy (now : Nat) (id : String)
  | addAttributes (now : Nat) (id : String) (attrs : KmipAttributes)
  | modifyAttributes (now : Nat) (id : String) (attrs : KmipAttributes)
  | deleteAttributes (now : Nat) (id : String) (names : List String)
  | decrementUsageCounter (now : Nat) (id : String)

/-- A call that fails leaves the store as it is. -/
def settle (s : InMemoryKeyStore) (result : Except KmipResultReason InMemoryKeyStore) :
    InMemoryKeyStore :=
  match result with
  | .ok s' => s'
  | .error _ => s

def storeStep (s : InMemoryKeyStore) : StoreCall → InMemoryKeyStore
  | .create now t material attrs => (s.create now t material attrs).2
  | .register now id t material attrs =>
    settle s ((s.register now id t material attrs).map Prod.snd)
  | .activate now id => settle s (s.activate now id)
  | .revoke now id => settle s (s.revoke now id)
  | .destroy now id => settle s (s.destroy now id)
  | .addAttributes now id attrs => settle s (s.addAttributes now id attrs)
  | .modifyAttributes now id attrs => settle s (s.modifyAttributes now id attrs)
  | .deleteAttributes now id names => settle s (s.deleteAttributes now id names)
  | .decrementUsageCounter now id => (s.decrementUsageCounter now id).2

/-- A created object finds its id unused. -/
def CreateRule (s : InMemoryKeyStore) (call : StoreCall) : Prop :=
  match call with
  | .create .. => s.nextId ∉ s.objects
  | _ => True

instance (s : InMemoryKeyStore) (call : StoreCall) : Decidable (CreateRule s call) := by
  unfold CreateRule
  split <;> infer_instance

open InMemoryKeyStore

section Calls
variable {s : InMemoryKeyStore} {target : KmipObjectState}

variable {result : Except KmipResultReason InMemoryKeyStore} {id : String}

theorem indexed_settle (h : s.Indexed) (hok : ∀ s', result = .ok s' → s'.Indexed) :
    (settle s result).Indexed := by
  cases result with
  | error e => exact h
  | ok s' => exact hok s' rfl

/-- The object of a lifecycle call is live, and so is one that may be activated or
revoked. -/
theorem transitionTarget_live {obj : KmipStoredObject}
    (h : s.transitionTarget id target = .ok obj) : obj.state ≠ .destroyed := by
  obtain ⟨-, hallowed⟩ := transitionTarget_ok h
  intro hdead
  rw [hdead] at hallowed
  cases target <;> cases hallowed

theorem indexed_transition {now : Nat} (h : s.Indexed)
    (ht : Transition now s id target result) : (settle s result).Indexed := by
  refine indexed_settle h fun s' hs' => ?_
  obtain ⟨obj, htarget, rfl⟩ := ht s' hs'
  by_cases hdead : target = .destroyed
  · rw [if_pos hdead]
    exact h.drop (transitionTarget_ok htarget).1 hdead
  · rw [if_neg hdead]
    exact h.replace (transitionTarget_ok htarget).1 rfl
      ⟨fun he => absurd he hdead, fun he => absurd he (transitionTarget_live htarget)⟩

theorem indexed_rewrite {now : Nat} {kept : String → Prop} (h : s.Indexed)
    (hr : Rewrite now kept s id result) : (settle s result).Indexed := by
  refine indexed_settle h fun s' hs' => ?_
  obtain ⟨obj, attrs, hobj, -, rfl⟩ := hr s' hs'
  exact h.replace hobj rfl Iff.rfl

theorem indexed_storeStep (h : s.Indexed) (call : StoreCall) (hrule : CreateRule s call) :
    (storeStep s call).Indexed := by
  cases call with
  | create now t material attrs => exact h.add hrule (by simp) rfl rfl
  | register now id t material attrs =>
    refine indexed_settle h fun s' hs' => ?_
    unfold register at hs'
    split at hs'
    · cases hs'
    next hfree =>
    cases hs'
    refine h.add ?_ (by simp) rfl rfl
    rw [ExtTreeMap.mem_iff_isSome_getElem?, hfree]
    simp
  | activate | revoke | destroy => exact indexed_transition h (.of_target fun _ => rfl)
  | addAttributes now id attrs => exact indexed_rewrite h (addAttributes_rewrite now id attrs)
  | modifyAttributes now id attrs => exact indexed_rewrite h (modifyAttributes_rewrite now id attrs)
  | deleteAttributes now id names => exact indexed_rewrite h (deleteAttributes_rewrite now id names)
  | decrementUsageCounter now id =>
    simp only [storeStep, decrementUsageCounter]
    split
    · exact h
    next obj hobj =>
    split
    · exact h
    · exact h.replace hobj rfl Iff.rfl

end Calls

theorem indexed_empty : ({} : InMemoryKeyStore).Indexed := by
  intro t id
  simp

/-- **Locate by type is exact** in every store reached by calls of which no `create` finds
its id in use. -/
theorem locate_type_exact {calls : List StoreCall} (hfresh : Along storeStep CreateRule {} calls)
    {filter : KmipAttributes} {v : UInt32} {t : KmipObjectType}
    (hfilter : filter["Object Type"]? = some (.enum v)) (ht : KmipObjectType.fromU32 v = some t) :
    ((run storeStep {} calls).locate filter).Nodup ∧
      ∀ id, id ∈ (run storeStep {} calls).locate filter ↔
        ∃ obj, (run storeStep {} calls).objects[id]? = some obj ∧ obj.state ≠ .destroyed ∧
          obj.objectType = t ∧
          ∀ (name : String) (value : KmipAttributeValue), name ≠ "Object Type" →
            filter[name]? = some value → obj.attributes[name]? = some value := by
  have hstep : ∀ (s : InMemoryKeyStore) call, s.Indexed → CreateRule s call →
      (storeStep s call).Indexed := fun s call h hrule => indexed_storeStep h call hrule
  have hindexed : (run storeStep {} calls).Indexed := induction_run hstep indexed_empty hfresh
  refine ⟨nodup_locate, fun id => ?_⟩
  rw [mem_locate_type hfilter ht, hindexed t id]
  constructor
  · rintro ⟨⟨obj, hobj, htype, -⟩, obj', hobj', hlive, hattrs⟩
    rw [hobj] at hobj'
    cases hobj'
    exact ⟨obj, hobj, hlive, htype, hattrs⟩
  · rintro ⟨obj, hobj, hlive, htype, hattrs⟩
    exact ⟨⟨obj, hobj, htype, hlive⟩, obj, hobj, hlive, hattrs⟩

/-! ## An id that changes its type -/

/-- A filter for one object type. -/
def typeFilter (v : UInt32) : KmipAttributes := (∅ : KmipAttributes).insert "Object Type" (.enum v)

/-- A symmetric key and a private key in the store. -/
def twoKeyCalls : List StoreCall :=
  [.create 0 .symmetricKey [1] ∅, .create 1 .privateKey [2] ∅]

theorem locate_type_exact_two_keys :
    ((run storeStep {} twoKeyCalls).locate (typeFilter 1)).Nodup ∧
      ∀ id ∈ (run storeStep {} twoKeyCalls).locate (typeFilter 1),
        id ∈ (run storeStep {} twoKeyCalls).objects := by
  have hfresh : Along storeStep CreateRule {} twoKeyCalls := by decide +kernel
  have hfilter : (typeFilter 1)["Object Type"]? = some (.enum 1) := by decide +kernel
  obtain ⟨hnodup, hmem⟩ := locate_type_exact hfresh hfilter rfl
  refine ⟨hnodup, fun id hid => ?_⟩
  obtain ⟨obj, hobj, -⟩ := (hmem id).mp hid
  exact mem_objects hobj

/-- A private key registered under the first id of the counter, and the symmetric key that
replaces it there. -/
def retypedCalls : List StoreCall :=
  [.register 0 "kmip-00000001" .privateKey none ∅, .create 0 .symmetricKey [1] ∅]

/-- The filter for private keys finds the symmetric key. -/
theorem locate_finds_retyped :
    ¬ ∀ (calls : List StoreCall) (filter : KmipAttributes) (v : UInt32) (t : KmipObjectType),
      filter["Object Type"]? = some (.enum v) → KmipObjectType.fromU32 v = some t →
      ((run storeStep {} calls).locate filter).Nodup ∧
      ∀ id, id ∈ (run storeStep {} calls).locate filter ↔
        ∃ obj, (run storeStep {} calls).objects[id]? = some obj ∧ obj.state ≠ .destroyed ∧
          obj.objectType = t ∧
          ∀ (name : String) (value : KmipAttributeValue), name ≠ "Object Type" →
            filter[name]? = some value → obj.attributes[name]? = some value := by
  intro h
  obtain ⟨-, hmem⟩ := h retypedCalls (typeFilter 3) 3 .privateKey (by decide +kernel) (by decide)
  obtain ⟨obj, hobj, -, htype, -⟩ := (hmem "kmip-00000001").mp (by decide +kernel)
  have hstored : ((run storeStep {} retypedCalls).objects["kmip-00000001"]?).map
      KmipStoredObject.objectType = some .symmetricKey := by decide +kernel
  rw [hobj, Option.map_some, htype] at hstored
  cases hstored

/-! ## The caller's view -/

/-- The object is there and passes the owner check. -/
def visibleTo (request : KmipRequest) (store : InMemoryKeyStore) (id : String) : Bool :=
  (store.get id).any fun obj => (checkOwnerAcl obj request.callerIdentity).isNone

/-- The visible ones of the ids that locate finds. -/
def locateView (request : KmipRequest) (store : InMemoryKeyStore) : List String :=
  (store.locate (collectAttributes request.attributes)).filter (visibleTo request store)

section View
variable {request : KmipRequest} {s : InMemoryKeyStore}

theorem processLocate_eq {truncated : Bool}
    (h : (locateVisible (visibleTo request s)
      (s.locate (collectAttributes request.attributes)) []).2 = truncated) :
    processLocate request s = { KmipResponse.successBare with
      locatedIds := (locateView request s).take locateMaxResultsDefault
      attributes := if truncated then [⟨"Locate-Truncated", .boolean true⟩] else [] } := by
  have hfst := locateVisible_fst (visibleTo request s)
    (s.locate (collectAttributes request.attributes)) [] (Nat.zero_le _)
  simp only [nil_append, length_nil, Nat.sub_zero] at hfst
  rw [locateView, ← hfst, ← h]
  unfold processLocate
  dsimp only
  congr 5
  all_goals
    funext id
    unfold visibleTo
    cases s.get id <;> rfl

variable {ids : ExtTreeMap String Unit} {other id : String}

end View

end CratonHsm
