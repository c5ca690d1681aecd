import CratonHsm.KmipAnswers
import CratonHsm.KmipLocate

/-!
# Owners and what is closed to others

An object is closed to a request if the request leaves it as it is and answers the same
whatever its attributes, its material and its dates are.  Objects of another owner are closed
to every request that does not create something in their place.  Objects without an owner are
closed to authenticated callers under `strict_owner_acl` only on the paths that make the
strict check, which `Activate`, `Revoke`, `Destroy` and `Locate` do not.
-/

namespace CratonHsm
open Std OrderedMaps PrefixFreeCode GuardedRun InMemoryKeyStore ExtTreeMap Option

/-! ## Closed objects -/

/-- Two objects that differ in what the owner check is to protect. -/
structure SameFace (a b : KmipStoredObject) : Prop where
  id_eq : b.id = a.id
  state_eq : b.state = a.state
  owner_eq : b.attributes["owner"]? = a.attributes["owner"]?

variable {a b : KmipStoredObject} {request : KmipRequest}

theorem SameFace.checkOwnerAcl_eq (h : SameFace a b) (caller : Option String) (strict : Bool) :
    checkOwnerAclWithOptions b caller strict = checkOwnerAclWithOptions a caller strict := by
  unfold checkOwnerAclWithOptions
  rw [h.owner_eq]

theorem SameFace.refused (h : SameFace a b) (ha : Refused request a) : Refused request b := by
  unfold Refused ownerCheck checkOwnerAcl checkOwnerAclForRequest at ha ⊢
  rw [h.checkOwnerAcl_eq, h.checkOwnerAcl_eq]
  exact ha

section Closed
variable [HkdfSha256]

/-- The request does not change the object, its answer does not depend on what is to be
protected, and the object is not listed (`Query` lists operations and types, not objects). -/
structure Closed (store : InMemoryKeyStore) (event : KmipEvent) (id : String)
    (obj : KmipStoredObject) : Prop where
  unchanged : (kmipStep store event).objects[id]? = some obj
  unread : event.2.operation ≠ .locate → ∀ obj', SameFace obj obj' →
    answerTo (store.put id obj') event = answerTo store event
  bare : event.2.operation = .locate → (answerTo store event).keyMaterial = none ∧
    ∀ a ∈ (answerTo store event).attributes, a = ⟨"Locate-Truncated", .boolean true⟩
  unlisted : event.2.operation ≠ .query → id ∉ (answerTo store event).locatedIds

variable {store : InMemoryKeyStore} {event : KmipEvent} {id : String} {obj obj' : KmipStoredObject}

omit [HkdfSha256] in
theorem put_objects_of_ne {k : String} (h : k ≠ id) :
    (store.put id obj').objects[k]? = store.objects[k]? := getElem?_insert_of_ne h obj'

omit [HkdfSha256] in
theorem put_objects_self : (store.put id obj').objects[id]? = some obj' := getElem?_insert_self

/-- `Locate` answers with ids and at most the mark that it has stopped. -/
theorem answerTo_locate_bare (hop : event.2.operation = .locate) :
    (answerTo store event).keyMaterial = none ∧
      ∀ a ∈ (answerTo store event).attributes, a = ⟨"Locate-Truncated", .boolean true⟩ := by
  unfold answerTo dispatchOperation
  simp only [hop, processLocate]
  refine ⟨rfl, fun a ha => ?_⟩
  split at ha
  · exact List.mem_singleton.mp ha
  · cases ha

/-- The ids that `Locate` lists: the visible ones, up to the cap. -/
theorem answerTo_locatedIds_locate (hop : event.2.operation = .locate) :
    (answerTo store event).locatedIds =
      (locateView event.2 store).take locateMaxResultsDefault := by
  unfold answerTo dispatchOperation
  simp only [hop]
  rw [processLocate_eq rfl]

/-- An object that the request does not name. -/
theorem closed_of_unnamed (hkeyed : store.WellKeyed) (hobj : store.objects[id]? = some obj)
    (hop : event.2.operation ≠ .locate) (htarget : event.2.uniqueId ≠ some id)
    (hid : Creates store event → id ≠ store.nextId) : Closed store event id obj where
  unchanged := by
    obtain ⟨obj₁, hobj₁, rfl | ⟨hnamed, -⟩⟩ := object_kmipStep hkeyed hobj hid
    · exact hobj₁
    · exact absurd hnamed htarget
  unread := by
    intro _ obj' _
    refine answerTo_congr hkeyed hop rfl fun k hk => put_objects_of_ne ?_
    rintro rfl
    exact htarget hk
  bare hlocate := absurd hlocate hop
  unlisted hquery := by
    rw [answerTo_locatedIds (by simp [hop, hquery])]
    exact List.not_mem_nil

/-- An object that the owner check of the handler refuses. -/
theorem closed_of_refused (hkeyed : store.WellKeyed) (hobj : store.objects[id]? = some obj)
    (hrefused : Refused event.2 obj) (hid : Creates store event → id ≠ store.nextId) :
    Closed store event id obj where
  unchanged := by
    obtain ⟨obj₁, hobj₁, rfl | ⟨-, hchange, -⟩⟩ := object_kmipStep hkeyed hobj hid
    · exact hobj₁
    · exact absurd hchange hrefused.not_change
  unread := by
    intro hop obj' hface
    by_cases htarget : event.2.uniqueId = some id
    · exact answerTo_refused hop rfl htarget hobj put_objects_self hrefused
        (hface.refused hrefused) hface.state_eq
    · exact (closed_of_unnamed hkeyed hobj hop htarget hid).unread hop obj' hface
  bare := answerTo_locate_bare
  unlisted hquery := by
    by_cases hop : event.2.operation = .locate
    · rw [answerTo_locatedIds_locate hop]
      intro hin
      have hvisible := (List.mem_filter.mp (List.mem_of_mem_take hin)).2
      rw [visibleTo, InMemoryKeyStore.get, hobj, any_some,
        hrefused.legacy (by rw [hop]; decide)] at hvisible
      cases hvisible
    · rw [answerTo_locatedIds (by simp [hop, hquery])]
      exact List.not_mem_nil

end Closed

/-! ## Objects without an owner -/

section Strict
variable [HkdfSha256] {store store' : InMemoryKeyStore} {event : KmipEvent} {id c : String}
  {obj obj' : KmipStoredObject} {target : KmipObjectState}

end Strict

/-! ## Listing next to a hidden object -/

section Listing
variable {β : Type} {m : ExtTreeMap String β} {k : String}

theorem keys_insert_of_mem (h : k ∈ m) (v : β) : (m.insert k v).keys = m.keys := by
  have hasymm : ∀ a b : String, compare a b = .lt → compare b a = .lt → a = b := by
    intro a b hab hba
    rw [OrientedOrd.eq_swap, hba] at hab
    cases hab
  have hmem : ∀ n, n ∈ (m.insert k v).keys ↔ n ∈ m.keys := by
    intro n
    rw [mem_keys, mem_keys, mem_insert, Std.compare_eq_iff_eq]
    constructor
    · rintro (rfl | hn)
      · exact h
      · exact hn
    · exact .inr
  have hnodup : ∀ m : ExtTreeMap String β, m.keys.Nodup := by
    intro m
    refine ordered_keys.imp fun hab he => ?_
    rw [he, compare_self] at hab
    cases hab
  exact List.Perm.eq_of_pairwise (fun a b _ _ => hasymm a b) ordered_keys
    ordered_keys ((List.perm_ext_iff_of_nodup (hnodup _) (hnodup _)).mpr hmem)

/-- A scan of the entries by their values, as one of the keys. -/
theorem filter_toList_keys (p : β → Bool) :
    (m.toList.filter fun q => p q.2).map Prod.fst = m.keys.filter fun n => m[n]?.any p := by
  rw [← map_fst_toList_eq_keys, List.filter_map]
  refine congrArg (List.map Prod.fst) (List.filter_congr fun q hq => ?_)
  rw [Function.comp_apply, mem_toList_iff_getElem?_eq_some.mp hq, any_some]

end Listing

/-- `locate` filters a list of candidates that the contents of the objects do not affect. -/
theorem locate_candidates {s s' : InMemoryKeyStore} (filter : KmipAttributes)
    (hindex : s'.typeIndex = s.typeIndex) (hkeys : s'.objects.keys = s.objects.keys) :
    ∃ (ids : List String) (p : KmipStoredObject → Bool),
      s.locate filter = ids.filter (fun k => s.objects[k]?.any p) ∧
      s'.locate filter = ids.filter (fun k => s'.objects[k]?.any p) := by
  have hscan : ∀ t : InMemoryKeyStore, t.objects.keys = s.objects.keys →
      (t.objects.toList.filter (fun q => q.2.state ≠ .destroyed &&
        matchesFilter q.2 filter (fun _ => false))).map Prod.fst =
      s.objects.keys.filter (fun k => t.objects[k]?.any fun o => o.state ≠ .destroyed &&
        matchesFilter o filter (fun _ => false)) := by
    intro t ht
    rw [← ht]
    exact filter_toList_keys fun o => o.state ≠ .destroyed &&
      matchesFilter o filter (fun _ => false)
  unfold locate
  split
  · split
    · next t _ =>
      refine ⟨(s.typeIndex t).toList, fun o => o.state ≠ .destroyed &&
        matchesFilter o filter (· = "Object Type"), ?_, ?_⟩
      · refine List.filter_congr fun k _ => ?_
        cases s.objects[k]? <;> rfl
      · rw [hindex]
        refine List.filter_congr fun k _ => ?_
        cases s'.objects[k]? <;> rfl
    · exact ⟨_, _, hscan s rfl, hscan s' hkeys⟩
  · exact ⟨_, _, hscan s rfl, hscan s' hkeys⟩

section Hidden
variable [HkdfSha256] {store : InMemoryKeyStore} {event : KmipEvent} {id : String}
  {obj obj' : KmipStoredObject}

/-- The list of `Locate` is the same whatever a refused object contains. -/
theorem locatedIds_put_refused (hop : event.2.operation = .locate)
    (hobj : store.objects[id]? = some obj) (hrefused : Refused event.2 obj)
    (hface : SameFace obj obj') :
    (answerTo (store.put id obj') event).locatedIds = (answerTo store event).locatedIds := by
  have hlegacy : event.2.operation ∈ [.activate, .revoke, .destroy, .locate] := by
    rw [hop]
    decide
  have hkeys : (store.put id obj').objects.keys = store.objects.keys :=
    keys_insert_of_mem (mem_objects hobj) obj'
  have hindex : (store.put id obj').typeIndex = store.typeIndex := rfl
  obtain ⟨ids, p, hs, hs'⟩ := locate_candidates (collectAttributes event.2.attributes) hindex hkeys
  rw [answerTo_locatedIds_locate hop, answerTo_locatedIds_locate hop, locateView, locateView, hs,
    hs', List.filter_filter, List.filter_filter]
  refine congrArg (List.take _) (List.filter_congr fun k _ => ?_)
  unfold visibleTo InMemoryKeyStore.get
  by_cases hk : k = id
  · subst hk
    simp only [put_objects_self, hobj, any_some, hrefused.legacy hlegacy,
      (hface.refused hrefused).legacy hlegacy]
    rfl
  · rw [put_objects_of_ne hk]

end Hidden

/-! ## Objects and their makers -/

section Makers

theorem Change.owner_eq {env : KmipEnv}
    (h : Change env request a b) : b.attributes["owner"]? = a.attributes["owner"]? := by
  cases h with
  | moved _ _ _ => rfl
  | rewritten _ _ hkeep => exact hkeep "owner" (.inr (by decide +kernel))

variable [HkdfSha256]

/-- An object under this id is owned by `c`, and closed to every other caller whose request
meets the condition. -/
def BelongsTo (rule : InMemoryKeyStore → KmipEvent → Prop) (c id : String)
    (store : InMemoryKeyStore) : Prop :=
  ∃ obj, store.objects[id]? = some obj ∧ obj.attributes["owner"]? = some (.text c) ∧
    ∀ event, rule store event → event.2.callerIdentity ≠ some c →
      Closed store event id obj ∧
      ∀ obj', SameFace obj obj' → event.2.operation = .locate →
        (answerTo (store.put id obj') event).locatedIds = (answerTo store event).locatedIds

/-- The request is authenticated. -/
def Authenticated (_ : InMemoryKeyStore) (event : KmipEvent) : Prop :=
  event.2.callerIdentity.isSome = true

/-- It names no other owner for what it makes, and a created object finds its id unused. -/
def MakerRule (store : InMemoryKeyStore) (event : KmipEvent) : Prop :=
  (∃ c ∈ event.2.callerIdentity, NamesNoOther event.2 c) ∧ FreshRule store event

variable {store : InMemoryKeyStore} {event : KmipEvent} {c id : String}

/-- The owner of a produced object is its maker. -/
theorem produced_owner (hkeyed : store.WellKeyed) (hrule : MakerRule store event)
    (hop : event.2.operation ∈ producingOperations) (hcaller : event.2.callerIdentity = some c)
    (hr : (answerTo store event).status = .success)
    (hid : (answerTo store event).uniqueId = some id) :
    ∃ obj, (kmipStep store event).objects[id]? = some obj ∧
      obj.attributes["owner"]? = some (.text c) := by
  obtain ⟨⟨c', hc', hnames⟩, -⟩ := hrule
  cases hc'.symm.trans hcaller
  cases kmipStep_effect hkeyed event with
  | unchanged _ hfail =>
    rw [hfail hop] at hr
    cases hr
  | created _ _ hnext hnew hobjects | registered _ _ _ _ hnext hnew hobjects =>
    cases hnext.symm.trans hid
    exact ⟨_, by rw [hobjects, getElem?_insert_self], hnew.owner_eq c hcaller hnames⟩
  | updated _ _ _ hchange _ _ =>
    exfalso
    cases hchange with
    | moved hmove _ _ =>
      revert hop hmove
      cases event.2.operation <;> simp [producingOperations, transitionState]
    | rewritten hrewrite _ _ =>
      revert hop hrewrite
      cases event.2.operation <;> decide

/-- No request takes the owner away. -/
theorem owner_kmipStep (hkeyed : store.WellKeyed) (hfresh : FreshRule store event)
    (h : ∃ obj, store.objects[id]? = some obj ∧ obj.attributes["owner"]? = some (.text c)) :
    ∃ obj, (kmipStep store event).objects[id]? = some obj ∧
      obj.attributes["owner"]? = some (.text c) := by
  obtain ⟨obj, hobj, howner⟩ := h
  obtain ⟨obj', hobj', rfl | ⟨-, hchange, -⟩⟩ :=
    object_kmipStep hkeyed hobj (hfresh.ne_nextId hobj)
  · exact ⟨obj', hobj', howner⟩
  · exact ⟨obj', hobj', hchange.owner_eq.trans howner⟩

/-- What belongs to `c` is refused to everybody else. -/
theorem belongsTo_of_owner (hkeyed : store.WellKeyed)
    (h : ∃ obj, store.objects[id]? = some obj ∧ obj.attributes["owner"]? = some (.text c)) :
    BelongsTo MakerRule c id store := by
  obtain ⟨obj, hobj, howner⟩ := h
  refine ⟨obj, hobj, howner, fun event hrule hcaller => ?_⟩
  have hforeign : ForeignTo obj event.2.callerIdentity := ⟨c, howner, hcaller⟩
  have hrefused : Refused event.2 obj := by
    unfold Refused ownerCheck
    split
    · exact hforeign.denied false
    · exact hforeign.denied _
  exact ⟨closed_of_refused hkeyed hobj hrefused (hrule.2.ne_nextId hobj),
    fun obj' hface hop => locatedIds_put_refused hop hobj hrefused hface⟩

/-- **Objects belong to whoever made them**, in every run of authenticated requests that name
no other owner and create nothing under a used id. -/
theorem produced_belongsTo {before after : List KmipEvent}
    (hrule : Along kmipStep MakerRule {} (before ++ event :: after))
    (hop : event.2.operation ∈ producingOperations) (hcaller : event.2.callerIdentity = some c)
    (hr : (answerTo (run kmipStep {} before) event).status = .success)
    (hid : (answerTo (run kmipStep {} before) event).uniqueId = some id) :
    BelongsTo MakerRule c id (run kmipStep {} (before ++ event :: after)) := by
  have hreach : ∀ events, (run kmipStep {} events).WellKeyed :=
    fun events => Reachable.wellKeyed ⟨events, rfl⟩
  obtain ⟨-, hevent, hafter⟩ := along_append.mp hrule
  have hmade := produced_owner (hreach before) hevent hop hcaller hr hid
  -- the owner survives the rest of the run
  have hstep : ∀ s e, (s.WellKeyed ∧ ∃ obj, s.objects[id]? = some obj ∧
      obj.attributes["owner"]? = some (.text c)) → MakerRule s e →
      ((kmipStep s e).WellKeyed ∧ ∃ obj, (kmipStep s e).objects[id]? = some obj ∧
        obj.attributes["owner"]? = some (.text c)) :=
    fun s e hs hmaker => ⟨wellKeyed_kmipStep hs.1 e, owner_kmipStep hs.1 hmaker.2 hs.2⟩
  have hend := induction_run hstep ⟨wellKeyed_kmipStep (hreach before) event, hmade⟩ hafter
  rw [run_append]
  exact belongsTo_of_owner hend.1 hend.2

end Makers

/-! ## Samples -/

section Samples
attribute [local instance] zeroHkdf

/-- `bob` asks about the first key on a server with `strict_owner_acl`. -/
def strictEvent (op : KmipOperation) : KmipEvent :=
  (sampleEnv, { operation := op, uniqueId := some "kmip-00000001", callerIdentity := some "bob"
                strictOwnerAcl := true })

theorem produced_belongsTo_alice :
    BelongsTo MakerRule "alice" "kmip-00000001"
      (run kmipStep {} ([] ++ createEvent (some "alice") [] :: [strictEvent .get])) := by
  refine produced_belongsTo ⟨⟨⟨"alice", rfl, by decide +kernel⟩, by decide +kernel⟩,
    ⟨⟨"bob", rfl, by decide +kernel⟩, by decide +kernel⟩, trivial⟩ ?_ rfl ?_ ?_
  · decide
  · decide +kernel
  · decide +kernel

/-- `alice` creates a key whose attributes name `mallory` as its owner. -/
theorem create_for_another_owner :
    ¬ ∀ [HkdfSha256] (before after : List KmipEvent) (event : KmipEvent) (c id : String),
      Along kmipStep Authenticated {} (before ++ event :: after) →
      event.2.operation ∈ producingOperations → event.2.callerIdentity = some c →
      (answerTo (run kmipStep {} before) event).status = .success →
      (answerTo (run kmipStep {} before) event).uniqueId = some id →
      BelongsTo Authenticated c id (run kmipStep {} (before ++ event :: after)) := by
  intro h
  obtain ⟨obj, hobj, howner, -⟩ := h [] []
    (createEvent (some "alice") [⟨"owner", .text "mallory"⟩]) "alice" "kmip-00000001"
    ⟨rfl, trivial⟩ (by decide) rfl (by decide +kernel) (by decide +kernel)
  have hstored : ((run kmipStep {} ([] ++
      createEvent (some "alice") [⟨"owner", .text "mallory"⟩] ::
        [])).objects["kmip-00000001"]?).bind
      (fun o => o.attributes["owner"]?) = some (.text "mallory") := by decide +kernel
  rw [hobj, bind_some, howner] at hstored
  exact absurd hstored (by decide)

end Samples

end CratonHsm
