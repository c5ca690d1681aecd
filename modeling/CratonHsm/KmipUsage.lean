import CratonHsm.KmipLifecycle

/-!
# Usage limits

`Check` counts the uses of a key down in its counter attribute, but the count stops at zero
and the answer does not depend on it: a key whose counter has run out passes every further
`Check`.  The limit holds if no `Check` is made after the count has reached zero.
-/

namespace CratonHsm
open Std PrefixFreeCode GuardedRun InMemoryKeyStore Option

/-- The count that is left on an object, if it has a counter. -/
def usageCount (obj : KmipStoredObject) : Option Int :=
  match obj.attributes[usageCounterName]? with
  | some (.longInteger v) => some v.toInt
  | some (.integer v) => some v.toInt
  | _ => none

theorem usageCount_congr {a b : KmipStoredObject}
    (h : b.attributes[usageCounterName]? = a.attributes[usageCounterName]?) :
    usageCount b = usageCount a := by
  unfold usageCount
  rw [h]

variable {obj : KmipStoredObject} {k : Int} {store : InMemoryKeyStore}

theorem usageCount_lt (h : usageCount obj = some k) : k < 2 ^ 63 := by
  unfold usageCount at h
  split at h
  · next v _ =>
    cases h
    exact v.toInt_lt
  · next v _ =>
    cases h
    have := v.toInt_lt
    omega
  · cases h

/-- The next count fits into the counter. -/
theorem toInt_nextCount (h : k < 2 ^ 63) : (Int64.ofInt (max (k - 1) 0)).toInt = max (k - 1) 0 := by
  exact Int64.toInt_ofInt_of_le (by omega) (by omega)

/-- `decrement_usage_counter` on an object with a counter. -/
theorem decrementUsageCounter_some {id : String} (now : Nat)
    (hobj : store.objects[id]? = some obj) (hcount : usageCount obj = some k) :
    store.decrementUsageCounter now id =
      (some (Int64.ofInt (max (k - 1) 0)), store.put id { obj with
      attributes := obj.attributes.insert usageCounterName
        (.longInteger (Int64.ofInt (max (k - 1) 0)))
      modified := now }) := by
  unfold decrementUsageCounter
  unfold usageCount at hcount
  split at hcount
  · next v hv =>
    cases hcount
    simp only [hobj, hv]
  · next v hv =>
    cases hcount
    simp only [hobj, hv]
  · cases hcount

/-- `decrement_usage_counter` on an object without one. -/
theorem decrementUsageCounter_none {id : String} (now : Nat)
    (hobj : store.objects[id]? = some obj) (hcount : usageCount obj = none) :
    store.decrementUsageCounter now id = (none, store) := by
  unfold decrementUsageCounter
  simp only [hobj]
  split
  · rfl
  · next hcur => cases hcur.symm.trans hcount

section Usage
variable [HkdfSha256]

/-- A `Check` of the object that succeeds. -/
def ChecksOut (id : String) (store : InMemoryKeyStore) (event : KmipEvent) : Prop :=
  event.2.operation = .check ∧ event.2.uniqueId = some id ∧
    (answerTo store event).status = .success

instance (id : String) (store : InMemoryKeyStore) (event : KmipEvent) :
    Decidable (ChecksOut id store event) := inferInstanceAs (Decidable (_ ∧ _ ∧ _))

/-- A `Check` of the object that finds it alive and passes its owner check. -/
def MayCheck (id : String) (store : InMemoryKeyStore) (event : KmipEvent) : Prop :=
  event.2.operation = .check ∧ event.2.uniqueId = some id ∧ ∃ obj ∈ store.get id,
    obj.state ≠ .destroyed ∧ checkOwnerAclForRequest obj event.2 = none

instance (id : String) (store : InMemoryKeyStore) (event : KmipEvent) :
    Decidable (MayCheck id store event) := inferInstanceAs (Decidable (_ ∧ _ ∧ ∃ _ ∈ _, _))

/-- **Which checks succeed**, by the request and the object before it. -/
theorem checksOut_iff {id : String} {store : InMemoryKeyStore} {event : KmipEvent} :
    ChecksOut id store event ↔ MayCheck id store event := by
  refine and_congr_right fun hop => and_congr_right fun htarget => ?_
  unfold answerTo dispatchOperation
  simp only [hop, processCheck, withUniqueId_some htarget]
  rcases store.get id with _ | obj
  · simp [objectNotFound, KmipResponse.error]
  simp only [mem_def, some.injEq, exists_eq_left']
  by_cases hdead : obj.state = .destroyed
  · simp [hdead, KmipResponse.error]
  cases hacl : checkOwnerAclForRequest obj event.2 with
  | some resp =>
    rw [checkOwnerAclWithOptions_some hacl]
    simp [hdead, objectNotFound, KmipResponse.error]
  | none => simp [hdead, KmipResponse.success]

/-- The attribute operations do not name the counter. -/
def LeavesCounter (event : KmipEvent) : Prop :=
  event.2.operation ∈ [.addAttribute, .modifyAttribute, .deleteAttribute] →
    usageCounterName ∉ event.2.attributes.map KmipAttribute.name

instance (event : KmipEvent) : Decidable (LeavesCounter event) :=
  inferInstanceAs (Decidable (_ → _))

/-- The count that is left on the object under an id. -/
def usageLeft (store : InMemoryKeyStore) (id : String) : Int :=
  ((store.objects[id]?).bind usageCount).getD 0

/-- The attribute operations leave the counter alone, a created object finds its id unused,
and a `Check` of the live object that passes its owner check finds something left. -/
def UsageRule (id : String) (store : InMemoryKeyStore) (event : KmipEvent) : Prop :=
  LeavesCounter event ∧ FreshRule store event ∧
    (MayCheck id store event → 1 ≤ usageLeft store id)

instance (id : String) (store : InMemoryKeyStore) (event : KmipEvent) :
    Decidable (UsageRule id store event) := inferInstanceAs (Decidable (_ ∧ _ ∧ (_ → _)))

variable {store : InMemoryKeyStore} {event : KmipEvent} {id : String} {obj : KmipStoredObject}

/-- A `Check` that succeeds counts down by one, and not below zero. -/
theorem check_counts_down {k : Int} (hkeyed : store.WellKeyed)
    (hobj : store.objects[id]? = some obj) (hcount : usageCount obj = some k)
    (h : ChecksOut id store event) :
    ∃ obj', (kmipStep store event).objects[id]? = some obj' ∧
      usageCount obj' = some (max (k - 1) 0) := by
  obtain ⟨hop, htarget, hr⟩ := h
  have hget : store.get id = some obj := hobj
  have hlive : obj.state ≠ .destroyed := by
    intro hdead
    rw [answerTo_destroyed hobj hdead (by rw [hop]; decide) htarget] at hr
    cases hr
  unfold answerTo dispatchOperation at hr
  unfold kmipStep dispatchOperation
  simp only [hop, processCheck, withUniqueId_some htarget, hget, hlive, if_false] at hr ⊢
  cases hacl : checkOwnerAclForRequest obj event.2 with
  | some resp =>
    rw [hacl, checkOwnerAclWithOptions_some hacl] at hr
    cases hr
  | none =>
    rw [hkeyed id obj hobj, decrementUsageCounter_some _ hobj hcount]
    refine ⟨_, ExtTreeMap.getElem?_insert_self, ?_⟩
    rw [usageCount, ExtTreeMap.getElem?_insert_self]
    exact congrArg some (toInt_nextCount (usageCount_lt hcount))

/-- Any other request leaves the count as it is. -/
theorem usageCount_kept {k : Int} (hkeyed : store.WellKeyed)
    (hobj : store.objects[id]? = some obj) (hcount : usageCount obj = some k)
    (hleaves : LeavesCounter event) (hfresh : FreshRule store event)
    (h : ¬ ChecksOut id store event) :
    ∃ obj', (kmipStep store event).objects[id]? = some obj' ∧ usageCount obj' = some k := by
  obtain ⟨obj', hobj', rfl | ⟨htarget, hchange, hr⟩⟩ :=
    object_kmipStep hkeyed hobj (hfresh.ne_nextId hobj)
  · exact ⟨obj', hobj', hcount⟩
  refine ⟨obj', hobj', (usageCount_congr ?_).trans hcount⟩
  cases hchange with
  | moved _ _ _ => rfl
  | rewritten hop _ hkeep =>
    refine hkeep usageCounterName (.inl ?_)
    have hcheck : event.2.operation ≠ .check := fun hcheck => h ⟨hcheck, htarget, hr⟩
    rw [touchedNames, if_neg hcheck]
    refine hleaves ?_
    revert hop hcheck
    cases event.2.operation <;> decide

/-- **Usage limits bound use** as long as no `Check` succeeds with nothing left. -/
theorem usage_bounds_checks {events : List KmipEvent} {n : Nat} (hkeyed : store.WellKeyed)
    (hobj : store.objects[id]? = some obj) (hcount : usageCount obj = some (n : Int))
    (hrule : Along kmipStep (UsageRule id) store events) :
    count kmipStep (ChecksOut id) store events ≤ n := by
  induction events generalizing store obj n with
  | nil => exact Nat.zero_le n
  | cons event events ih =>
    obtain ⟨⟨hleaves, hfresh, hsome⟩, hrest⟩ := hrule
    have hkeyed' := wellKeyed_kmipStep hkeyed event
    rw [count]
    by_cases hcheck : ChecksOut id store event
    · have hleft : (1 : Int) ≤ n := by
        have := hsome (checksOut_iff.mp hcheck)
        rw [usageLeft, hobj, bind_some, hcount] at this
        exact this
      obtain ⟨obj', hobj', hcount'⟩ := check_counts_down hkeyed hobj hcount hcheck
      have hpred : max ((n : Int) - 1) 0 = ((n - 1 : Nat) : Int) := by omega
      rw [hpred] at hcount'
      have := ih hkeyed' hobj' hcount' hrest
      rw [if_pos hcheck]
      omega
    · obtain ⟨obj', hobj', hcount'⟩ := usageCount_kept hkeyed hobj hcount hleaves hfresh hcheck
      rw [if_neg hcheck, Nat.zero_add]
      exact ih hkeyed' hobj' hcount' hrest

end Usage

/-! ## A key with no uses left -/

section Sample
attribute [local instance] zeroHkdf

/-- The store after `alice` has created a key with a usage counter. -/
def countedStore (n : Int64) : InMemoryKeyStore :=
  kmipStep {} (createEvent (some "alice") [⟨usageCounterName, .longInteger n⟩])

theorem usage_bounds_two_checks :
    count kmipStep (ChecksOut "kmip-00000001") (countedStore 2)
      [aliceEvent .check, aliceEvent .check] ≤ 2 := by
  have hstored : ((countedStore 2).objects["kmip-00000001"]?).bind usageCount = some 2 := by
    decide +kernel
  obtain ⟨obj, hobj, hcount⟩ := bind_eq_some_iff.mp hstored
  exact usage_bounds_checks (Reachable.wellKeyed ⟨[_], rfl⟩) hobj hcount (by decide +kernel)

/-- A key created without any use left passes `Check`. -/
theorem check_without_uses_left :
    ¬ ∀ [HkdfSha256] (store : InMemoryKeyStore) (events : List KmipEvent) (id : String)
      (obj : KmipStoredObject) (n : Nat), Reachable store → store.objects[id]? = some obj →
      usageCount obj = some (n : Int) → (∀ event ∈ events, LeavesCounter event) →
      count kmipStep (ChecksOut id) store events ≤ n := by
  intro h
  have hstored : ((countedStore 0).objects["kmip-00000001"]?).bind usageCount = some 0 := by
    decide +kernel
  obtain ⟨obj, hobj, hcount⟩ := bind_eq_some_iff.mp hstored
  have hle := h (countedStore 0) [aliceEvent .check] "kmip-00000001" obj 0 ⟨[_], rfl⟩ hobj hcount
    (by decide +kernel)
  exact absurd hle (by decide +kernel)

end Sample

end CratonHsm
