import CratonHsm.MfaReplay

/-!
# Approval by a completed challenge

`has_completed_challenge` answers from indices that three code paths keep in step with the map
of challenges.  As long as every removal of a completed challenge goes through `evict_expired`
and both clocks agree on what has expired, the indices are exact: a session is approved at a
moment if and only if one of its challenges was verified and is not expired then.

Neither is a matter of course.  `verify` drops an expired challenge without touching the
indices, also one that was completed before, and the eviction goes by the wall clock, in whole
seconds.
-/

namespace CratonHsm.Auth
open Std GuardedRun OrderedMaps MfaManager List

/-! ## The heap -/

variable {x : Nat × String} {heap : List (Nat × String)} {calls : List MfaCall} {call : MfaCall}
  {p : MfaChallenge → Bool} {k : String}

theorem mem_heapPush {y : Nat × String} : y ∈ heapPush x heap ↔ y = x ∨ y ∈ heap := by
  induction heap with
  | nil => simp [heapPush]
  | cons z rest ih =>
    unfold heapPush
    split
    · simp
    · rw [mem_cons, ih, mem_cons]
      tauto

/-- Entries are popped in the order of their expiry. -/
def HeapSorted (heap : List (Nat × String)) : Prop := heap.Pairwise fun x y => x.1 ≤ y.1

theorem heapSorted_push (h : HeapSorted heap) : HeapSorted (heapPush x heap) := by
  induction heap with
  | nil => simp [heapPush, HeapSorted]
  | cons y rest ih =>
    obtain ⟨hy, hrest⟩ := pairwise_cons.mp h
    unfold heapPush
    split
    · next hbefore =>
      have hxy : x.1 ≤ y.1 := by
        simp only [heapBefore, Bool.or_eq_true, Bool.and_eq_true, decide_eq_true_eq, beq_iff_eq]
          at hbefore
        omega
      exact pairwise_cons.mpr
        ⟨forall_mem_cons.mpr ⟨hxy, fun z hz => Nat.le_trans hxy (hy z hz)⟩, h⟩
    · next hbefore =>
      have hyx : y.1 ≤ x.1 := by
        simp only [heapBefore, Bool.or_eq_true, Bool.and_eq_true, decide_eq_true_eq, beq_iff_eq]
          at hbefore
        omega
      refine pairwise_cons.mpr ⟨?_, ih hrest⟩
      intro z hz
      rcases mem_heapPush.mp hz with rfl | hz
      · exact hyx
      · exact hy z hz

/-- Every entry that is due is popped. -/
theorem mem_takeWhile_of_due {now : Nat} (h : HeapSorted heap) (hx : x ∈ heap) (hdue : x.1 ≤ now) :
    x ∈ heap.takeWhile (·.1 ≤ now) := by
  induction heap with
  | nil => cases hx
  | cons y rest ih =>
    obtain ⟨hy, hrest⟩ := pairwise_cons.mp h
    have hyx : y.1 ≤ now := by
      rcases mem_cons.mp hx with rfl | hx
      · exact hdue
      · exact Nat.le_trans (hy x hx) hdue
    rw [takeWhile_cons_of_pos (by simpa using hyx)]
    rcases mem_cons.mp hx with rfl | hx
    · exact mem_cons_self
    · exact mem_cons_of_mem y (ih hrest hx)

/-- An entry that is not due stays. -/
theorem mem_dropWhile_of_not_due {now : Nat} (hx : x ∈ heap) (hlater : now < x.1) :
    x ∈ heap.dropWhile (·.1 ≤ now) := by
  rw [← @takeWhile_append_dropWhile _ (·.1 ≤ now) heap] at hx
  rcases mem_append.mp hx with hpopped | hkept
  · have hdue : x.1 ≤ now := of_decide_eq_true (all_eq_true.mp all_takeWhile x hpopped)
    omega
  · exact hkept

/-! ## Eviction -/

section Eviction
variable {now : Nat} {challenges : ExtTreeMap String MfaChallenge} {c : MfaChallenge} {id : String}

/-- The loop passes over an entry, or removes its challenge. -/
theorem removeDue_cons (now : Nat) (challenges : ExtTreeMap String MfaChallenge) (k : Nat × String)
    (rest : List (Nat × String)) :
    (∀ e : MfaChallenge, challenges[k.2]? = some e → now < e.expiresAt) ∧
        removeDue now (k :: rest) challenges = removeDue now rest challenges ∨
      ∃ e : MfaChallenge, challenges[k.2]? = some e ∧ e.expiresAt ≤ now ∧
        removeDue now (k :: rest) challenges = ((removeDue now rest (challenges.erase k.2)).1,
          e :: (removeDue now rest (challenges.erase k.2)).2) := by
  rw [removeDue]
  rcases hk : challenges[k.2]? with _ | e
  · exact .inl ⟨nofun, rfl⟩
  by_cases hexpired : e.expiresAt ≤ now
  · exact .inr ⟨e, rfl, hexpired, if_pos hexpired⟩
  · refine .inl ⟨?_, if_neg hexpired⟩
    rintro _ ⟨⟩
    exact Nat.not_le.mp hexpired

/-- The challenges that the loop leaves: of those it visits, the ones that have not expired. -/
theorem getElem?_removeDue (due : List (Nat × String)) :
    (removeDue now due challenges).1[id]? = some c ↔
      challenges[id]? = some c ∧ (id ∈ due.map (·.2) → now < c.expiresAt) := by
  induction due generalizing challenges with
  | nil => simp [removeDue]
  | cons k rest ih =>
    simp only [map_cons, mem_cons]
    rcases removeDue_cons now challenges k rest with ⟨hlive, hr⟩ | ⟨e, hk, hexpired, hr⟩
    · rw [hr, ih]
      refine and_congr_right fun hc => ⟨fun hlater => ?_, fun hlater hid => hlater (.inr hid)⟩
      rintro (rfl | hid)
      · exact hlive c hc
      · exact hlater hid
    · rw [hr, ih]
      by_cases hid : id = k.2
      · subst hid
        simp only [ExtTreeMap.getElem?_erase_self, reduceCtorEq, false_and, false_iff]
        rintro ⟨hc, hlater⟩
        cases hk.symm.trans hc
        have hless := hlater (.inl trivial)
        omega
      · rw [getElem?_erase_of_ne hid]
        exact and_congr_right fun _ =>
          ⟨fun h hor => h (hor.resolve_left hid), fun h hor => h (.inr hor)⟩

/-- The challenges that the loop removes. -/
theorem mem_removeDue (due : List (Nat × String)) : c ∈ (removeDue now due challenges).2 ↔
    ∃ id ∈ due.map (·.2), challenges[id]? = some c ∧ c.expiresAt ≤ now := by
  induction due generalizing challenges with
  | nil => simp [removeDue]
  | cons k rest ih =>
    simp only [map_cons, mem_cons]
    rcases removeDue_cons now challenges k rest with ⟨hlive, hr⟩ | ⟨e, hk, hexpired, hr⟩
    · rw [hr, ih]
      constructor
      · rintro ⟨id, hid, hc⟩
        exact ⟨id, .inr hid, hc⟩
      · rintro ⟨id, rfl | hid, hc, hle⟩
        · exact absurd (hlive c hc) (Nat.not_lt.mpr hle)
        · exact ⟨id, hid, hc, hle⟩
    · rw [hr, mem_cons, ih]
      constructor
      · rintro (rfl | ⟨id, hid, hc, hle⟩)
        · exact ⟨k.2, .inl rfl, hk, hexpired⟩
        · exact ⟨id, .inr hid, getElem?_of_erase hc, hle⟩
      · rintro ⟨id, hid, hc, hle⟩
        by_cases hne : id = k.2
        · subst hne
          exact .inl (Option.some.inj (hc.symm.trans hk))
        · refine .inr ⟨id, hid.resolve_left hne, ?_, hle⟩
          rw [getElem?_erase_of_ne hne]
          exact hc

end Eviction

/-- Every challenge has its entry in the heap. -/
structure HeapCovers (m : MfaManager) : Prop where
  sorted : HeapSorted m.expiryHeap
  covers : ∀ id c, m.challenges[id]? = some c → (c.expiresAt, id) ∈ m.expiryHeap

section Evicted
variable {m : MfaManager} {now : Nat}

/-- **Eviction leaves exactly the challenges that have not expired** by the wall clock. -/
theorem getElem?_evictExpired (h : HeapCovers m) {id : String} {c : MfaChallenge} :
    (m.evictExpired now).challenges[id]? = some c ↔
      m.challenges[id]? = some c ∧ now < c.expiresAt := by
  simp only [evictExpired, getElem?_removeDue]
  refine and_congr_right fun hc => ⟨fun hlater => ?_, fun hlater _ => hlater⟩
  by_contra hdue
  have hpopped := mem_takeWhile_of_due h.sorted (h.covers id c hc) (Nat.not_lt.mp hdue)
  exact hdue (hlater (mem_map.mpr ⟨_, hpopped, rfl⟩))

theorem heapCovers_evictExpired (h : HeapCovers m) : HeapCovers (m.evictExpired now) where
  sorted := List.Pairwise.sublist (dropWhile_sublist _) h.sorted
  covers id c hc := by
    obtain ⟨hc, hlater⟩ := (getElem?_evictExpired h).mp hc
    exact mem_dropWhile_of_not_due (h.covers id c hc) hlater

/-- A completed challenge of the given kind is in the map. -/
def Holds (m : MfaManager) (p : MfaChallenge → Bool) : Prop :=
  ∃ (id : String) (c : MfaChallenge), m.challenges[id]? = some c ∧ p c = true ∧ c.completed = true

/-- The value of an index after the eviction. -/
def reindexed (m : MfaManager) (now : Nat) (p : MfaChallenge → Bool) (old : Bool) : Bool :=
  let (challenges, removed) := removeDue now (m.expiryHeap.takeWhile (·.1 ≤ now)) m.challenges
  if (removed.filter (·.completed)).any p &&
      !(challenges.toList.any fun (_, e) => p e && e.completed && decide (now < e.expiresAt)) then
    false
  else old

/-- **Eviction keeps an exact index exact**: the entry is dropped with the last completed
challenge behind it. -/
theorem reindexed_iff (h : HeapCovers m) (p : MfaChallenge → Bool) {old : Bool}
    (hold : old = true ↔ Holds m p) :
    reindexed m now p old = true ↔ Holds (m.evictExpired now) p := by
  -- what is left of the kind after the eviction
  have hactive : ((removeDue now (m.expiryHeap.takeWhile (·.1 ≤ now)) m.challenges).1.toList.any
      fun (_, e) => p e && e.completed && decide (now < e.expiresAt)) = true ↔
        Holds (m.evictExpired now) p := by
    rw [any_eq_true]
    constructor
    · rintro ⟨⟨id, e⟩, hmem, hp⟩
      simp only [Bool.and_eq_true] at hp
      exact ⟨id, e, ExtTreeMap.mem_toList_iff_getElem?_eq_some.mp hmem, hp.1.1, hp.1.2⟩
    · rintro ⟨id, e, hc, hp, hcompleted⟩
      refine ⟨(id, e), ExtTreeMap.mem_toList_iff_getElem?_eq_some.mpr hc, ?_⟩
      have hlater := ((getElem?_evictExpired h).mp hc).2
      simp [hp, hcompleted, hlater]
  have hdropped : ∀ (id : String) (c : MfaChallenge), m.challenges[id]? = some c → p c = true →
      c.completed = true → c.expiresAt ≤ now →
        ((removeDue now (m.expiryHeap.takeWhile (·.1 ≤ now)) m.challenges).2.filter
          (·.completed)).any p = true := by
    intro id c hc hp hcompleted hexpired
    have hpopped := mem_takeWhile_of_due h.sorted (h.covers id c hc) hexpired
    have hremoved := (mem_removeDue (m.expiryHeap.takeWhile (·.1 ≤ now))).mpr
      ⟨id, mem_map.mpr ⟨_, hpopped, rfl⟩, hc, hexpired⟩
    exact any_eq_true.mpr ⟨c, mem_filter.mpr ⟨hremoved, hcompleted⟩, hp⟩
  unfold reindexed
  dsimp only
  by_cases hleft : Holds (m.evictExpired now) p
  · have hbefore : Holds m p := by
      obtain ⟨id, c, hc, hp, hcompleted⟩ := hleft
      exact ⟨id, c, ((getElem?_evictExpired h).mp hc).1, hp, hcompleted⟩
    rw [hactive.mpr hleft, Bool.not_true, Bool.and_false, if_neg Bool.false_ne_true]
    exact ⟨fun _ => hleft, fun _ => hold.mpr hbefore⟩
  · refine ⟨fun hvalue => ?_, fun hholds => absurd hholds hleft⟩
    -- the entry survived, so no completed challenge of the kind was removed, and none is left
    have hinactive := Bool.eq_false_iff.mpr (mt hactive.mp hleft)
    rw [hinactive, Bool.not_false, Bool.and_true] at hvalue
    split at hvalue
    · cases hvalue
    next hkept =>
    obtain ⟨id, c, hc, hp, hcompleted⟩ := hold.mp hvalue
    by_cases hexpired : c.expiresAt ≤ now
    · exact absurd (hdropped id c hc hp hcompleted hexpired) hkept
    · exact ⟨id, c, (getElem?_evictExpired h).mpr ⟨hc, Nat.not_le.mp hexpired⟩, hp, hcompleted⟩

end Evicted

/-! ## Runs -/

namespace MfaCall

/-- The moment of a call, on the monotonic clock. -/
def monoReading : MfaCall → Option Nat
  | issue r => some r.mono
  | verify _ _ _ _ mono _ => some mono
  | hasCompleted _ _ mono => some mono
  | hasCompletedFor _ _ _ mono => some mono
  | pruneSteps _ => none

/-- What is issued. -/
def issued : MfaCall → Option MfaIssue
  | issue r => some r
  | _ => none

/-- The clocks of a look-up. -/
def lookup : MfaCall → Option (Nat × Nat)
  | hasCompleted _ wall mono => some (wall, mono)
  | hasCompletedFor _ _ wall mono => some (wall, mono)
  | _ => none

end MfaCall

/-- Both clocks agree at a look-up on whether a challenge has expired. -/
def ClocksAgree (timeoutSecs wall mono : Nat) (r : MfaIssue) : Prop :=
  r.wall + timeoutSecs ≤ wall ↔ r.mono + fromSecs timeoutSecs ≤ mono

instance (timeoutSecs wall mono : Nat) (r : MfaIssue) :
    Decidable (ClocksAgree timeoutSecs wall mono r) :=
  inferInstanceAs (Decidable (_ ↔ _))

/-- A run in which every identifier is drawn once, the monotonic clock does not run backwards,
and both clocks agree at every look-up on which challenges have expired. -/
structure Orderly (timeoutSecs : Nat) (calls : List MfaCall) : Prop where
  fresh : ((calls.filterMap MfaCall.issued).map (·.id)).Nodup
  forward : (calls.filterMap MfaCall.monoReading).Pairwise (· ≤ ·)
  agree : calls.Pairwise fun earlier call => ∀ r ∈ earlier.issued, ∀ t ∈ call.lookup,
    ClocksAgree timeoutSecs t.1 t.2 r

/-- The call does not verify a completed challenge once more after its end. -/
def NoLateRepeat (m : MfaManager) : MfaCall → Prop
  | .verify id sessionHandle _ _ mono _ =>
    ∀ c ∈ m.challenges[id]?, c.sessionHandle = sessionHandle → c.expiresAtMono ≤ mono →
      c.completed = false
  | _ => True

instance (m : MfaManager) (call : MfaCall) : Decidable (NoLateRepeat m call) := by
  cases call <;> unfold NoLateRepeat <;> infer_instance

/-- The challenge that a call verifies. -/
def verifiedChallenge [MfaHash] (m : MfaManager) : MfaCall → Option MfaChallenge
  | .verify id sessionHandle response wall mono pruneAt =>
    if (m.verify id sessionHandle response wall mono pruneAt).1 = .ok () then m.challenges[id]?
    else none
  | _ => none

/-- Of the given session. -/
def ofSession (s : UInt64) (c : MfaChallenge) : Bool := decide (c.sessionHandle = s)

/-- Of the given session and bound to the operation. -/
def ofOperation (s : UInt64) (operation : String) (c : MfaChallenge) : Bool :=
  decide (c.sessionHandle = s) && decide (c.boundOperation = some operation)

/-- **The indices are exact**: the map holds issued challenges, those that are completed were
verified, a verified one that is gone has expired, and each index has the completed challenges
of the map behind it. -/
structure Exact (m : MfaManager) (timeoutSecs : Nat) (issued : List MfaIssue)
    (verified : List MfaChallenge) (now : Nat) : Prop where
  timeout : m.timeoutSecs = timeoutSecs
  heap : HeapCovers m
  known : ∀ (id : String) (c : MfaChallenge), m.challenges[id]? = some c → ∃ r ∈ issued, r.id = id ∧
    c.expiresAt = r.wall + timeoutSecs ∧ c.expiresAtMono = r.mono + fromSecs timeoutSecs
  kept : ∀ c ∈ verified, (∃ id : String, m.challenges[id]? = some { c with completed := true }) ∨
    c.expiresAtMono ≤ now
  completed : ∀ (id : String) (c : MfaChallenge), m.challenges[id]? = some c → c.completed = true →
    ∃ v ∈ verified, { v with completed := true } = c
  sessions : ∀ s, m.completedSessions s = true ↔ Holds m (ofSession s)
  operations : ∀ s op, m.completedOps (s, op) = true ↔ Holds m (ofOperation s op)

namespace Exact
variable {m : MfaManager} {timeoutSecs now : Nat} {issued : List MfaIssue}
  {verified : List MfaChallenge}

section
variable (h : Exact m timeoutSecs issued verified now)
include h

theorem later {moment : Nat} (hle : now ≤ moment) :
    Exact m timeoutSecs issued verified moment where
  timeout := h.timeout
  heap := h.heap
  known := h.known
  kept c hc := (h.kept c hc).imp_right fun hexpired => Nat.le_trans hexpired hle
  completed := h.completed
  sessions := h.sessions
  operations := h.operations

/-- Steps of other parts of the state do not matter. -/
theorem congr {m' : MfaManager} (hchallenges : m'.challenges = m.challenges)
    (hsessions : m'.completedSessions = m.completedSessions)
    (hops : m'.completedOps = m.completedOps) (hheap : m'.expiryHeap = m.expiryHeap)
    (htimeout : m'.timeoutSecs = m.timeoutSecs) :
    Exact m' timeoutSecs issued verified now := by
  have hholds : ∀ p, Holds m' p ↔ Holds m p := by
    intro p
    unfold Holds
    rw [hchallenges]
  refine ⟨htimeout.trans h.timeout, ⟨hheap ▸ h.heap.sorted, ?_⟩, ?_, ?_, ?_, ?_, ?_⟩
  · rw [hchallenges, hheap]
    exact h.heap.covers
  · rw [hchallenges]
    exact h.known
  · rw [hchallenges]
    exact h.kept
  · rw [hchallenges]
    exact h.completed
  · intro s
    rw [hholds, hsessions]
    exact h.sessions s
  · intro s op
    rw [hholds, hops]
    exact h.operations s op

/-- Eviction at a moment at which the clocks agree. -/
theorem evictExpired {wall : Nat} (hagree : ∀ r ∈ issued, ClocksAgree timeoutSecs wall now r) :
    Exact (m.evictExpired wall) timeoutSecs issued verified now where
  timeout := h.timeout
  heap := heapCovers_evictExpired h.heap
  known id c hc := h.known id c ((getElem?_evictExpired h.heap).mp hc).1
  kept c hc := by
    rcases h.kept c hc with ⟨id, hin⟩ | hexpired
    · by_cases hlater : wall < c.expiresAt
      · exact .inl ⟨id, (getElem?_evictExpired h.heap).mpr ⟨hin, hlater⟩⟩
      obtain ⟨r, hr, -, hwall, hmono⟩ := h.known id _ hin
      have hover := (hagree r hr).mp (by rw [← hwall]; exact Nat.not_lt.mp hlater)
      rw [← hmono] at hover
      exact .inr hover
    · exact .inr hexpired
  completed id c hc := h.completed id c ((getElem?_evictExpired h.heap).mp hc).1
  sessions s := reindexed_iff h.heap (ofSession s) (h.sessions s)
  operations s op := reindexed_iff h.heap (ofOperation s op) (h.operations s op)

end

/-- What a change of one entry of the map does to the completed challenges: an entry that was
not completed is replaced by one that is not, or removed. -/
theorem holds_congr {m' : MfaManager}
    (hother : ∀ id : String, id ≠ k → m'.challenges[id]? = m.challenges[id]?)
    (hold : ∀ c, m.challenges[k]? = some c → c.completed = false)
    (hnew : ∀ c, m'.challenges[k]? = some c → c.completed = false) : Holds m' p ↔ Holds m p := by
  have hne : ∀ (n : MfaManager), (∀ c, n.challenges[k]? = some c → c.completed = false) →
      ∀ (id : String) (c : MfaChallenge), n.challenges[id]? = some c → c.completed = true →
        id ≠ k := by
    rintro n hn id c hc hcompleted rfl
    rw [hn c hc] at hcompleted
    cases hcompleted
  constructor
  · rintro ⟨id, c, hc, hp, hcompleted⟩
    refine ⟨id, c, ?_, hp, hcompleted⟩
    rw [← hother id (hne m' hnew id c hc hcompleted)]
    exact hc
  · rintro ⟨id, c, hc, hp, hcompleted⟩
    refine ⟨id, c, ?_, hp, hcompleted⟩
    rw [hother id (hne m hold id c hc hcompleted)]
    exact hc

section Steps
variable (h : Exact m timeoutSecs issued verified now)
include h

/-- A new challenge under a new identifier. -/
theorem issue [MfaHash] {r : MfaIssue} (hfresh : ∀ r' ∈ issued, r'.id ≠ r.id) :
    Exact (m.issueChallengeFor r) timeoutSecs (issued ++ [r]) verified now := by
  have hnone : m.challenges[r.id]? = none := by
    cases hc : m.challenges[r.id]? with
    | none => rfl
    | some c =>
      obtain ⟨r', hr', hid, -⟩ := h.known r.id c hc
      exact absurd hid (hfresh r' hr')
  have hself : (m.issueChallengeFor r).challenges[r.id]? = some (r.challenge m.timeoutSecs) :=
    ExtTreeMap.getElem?_insert_self
  have hother : ∀ id : String, id ≠ r.id →
      (m.issueChallengeFor r).challenges[id]? = m.challenges[id]? :=
    fun id hid => getElem?_insert_of_ne hid _
  have hsame : ∀ p, Holds (m.issueChallengeFor r) p ↔ Holds m p := by
    intro p
    refine holds_congr hother ?_ ?_
    · intro c hc
      rw [hnone] at hc
      cases hc
    · intro c hc
      cases hself.symm.trans hc
      rfl
  refine ⟨h.timeout, ⟨heapSorted_push h.heap.sorted, ?_⟩, ?_, ?_, ?_, ?_, ?_⟩
  · exact forall_insert (mem_heapPush.mpr (.inl rfl)) fun id c hc =>
      mem_heapPush.mpr (.inr (h.heap.covers id c hc))
  · refine forall_insert ⟨r, by simp, rfl, by rw [← h.timeout]; rfl, by rw [← h.timeout]; rfl⟩
      fun id c hc => ?_
    obtain ⟨r', hr', hid, htimes⟩ := h.known id c hc
    exact ⟨r', mem_append_left _ hr', hid, htimes⟩
  · intro c hc
    rcases h.kept c hc with ⟨id, hin⟩ | hexpired
    · refine .inl ⟨id, ?_⟩
      rw [hother id (by rintro rfl; rw [hnone] at hin; cases hin)]
      exact hin
    · exact .inr hexpired
  · exact forall_insert nofun h.completed
  · intro s
    rw [hsame]
    exact h.sessions s
  · intro s op
    rw [hsame]
    exact h.operations s op

/-- An expired challenge that was not completed is dropped. -/
theorem drop (hk : ∀ c, m.challenges[k]? = some c → c.completed = false) :
    Exact { m with challenges := m.challenges.erase k } timeoutSecs issued verified now := by
  have hother : ∀ id : String, id ≠ k → (m.challenges.erase k)[id]? = m.challenges[id]? :=
    fun id hid => getElem?_erase_of_ne hid
  have hleft : ∀ (id : String) (c : MfaChallenge), (m.challenges.erase k)[id]? = some c →
      m.challenges[id]? = some c :=
    fun id c hc => getElem?_of_erase hc
  have hsame : ∀ p, Holds { m with challenges := m.challenges.erase k } p ↔ Holds m p := by
    intro p
    refine holds_congr hother hk ?_
    intro c hc
    simp at hc
  refine ⟨h.timeout, ⟨h.heap.sorted, fun id c hc => h.heap.covers id c (hleft id c hc)⟩,
    fun id c hc => h.known id c (hleft id c hc), ?_,
    fun id c hc => h.completed id c (hleft id c hc),
    ?_, ?_⟩
  · intro c hc
    rcases h.kept c hc with ⟨id, hin⟩ | hexpired
    · refine .inl ⟨id, ?_⟩
      refine (hother id ?_).trans hin
      rintro rfl
      cases hk _ hin
    · exact .inr hexpired
  · intro s
    rw [hsame]
    exact h.sessions s
  · intro s op
    rw [hsame]
    exact h.operations s op

/-- A live challenge is completed. -/
theorem complete {c : MfaChallenge} (hc : m.challenges[k]? = some c) :
    Exact (m.complete k c) timeoutSecs issued (verified ++ [c]) now := by
  have hself : (m.complete k c).challenges[k]? = some { c with completed := true } :=
    ExtTreeMap.getElem?_insert_self
  have hother : ∀ id : String, id ≠ k → (m.complete k c).challenges[id]? = m.challenges[id]? :=
    fun id hid => getElem?_insert_of_ne hid _
  have hholds : ∀ p : MfaChallenge → Bool, p { c with completed := true } = p c →
      (Holds (m.complete k c) p ↔ p c = true ∨ Holds m p) := by
    intro p hp
    constructor
    · rintro ⟨id, e, he, hpe, hcompleted⟩
      rcases getElem?_insert_cases he with ⟨rfl, rfl⟩ | ⟨-, he⟩
      · exact .inl (hp ▸ hpe)
      · exact .inr ⟨id, e, he, hpe, hcompleted⟩
    · rintro (hpc | ⟨id, e, he, hpe, hcompleted⟩)
      · exact ⟨k, _, hself, hp.trans hpc, rfl⟩
      by_cases hid : id = k
      · subst hid
        cases hc.symm.trans he
        exact ⟨id, _, hself, hp.trans hpe, rfl⟩
      · exact ⟨id, e, (hother id hid).trans he, hpe, hcompleted⟩
  refine ⟨h.timeout, ⟨h.heap.sorted, ?_⟩, ?_, ?_, ?_, ?_, ?_⟩
  · exact forall_insert (h.heap.covers k c hc) h.heap.covers
  · exact forall_insert (h.known k c hc) h.known
  · intro v hv
    rcases mem_append.mp hv with hv | hv
    · rcases h.kept v hv with ⟨id, hin⟩ | hexpired
      · refine .inl ⟨id, ?_⟩
        by_cases hid : id = k
        · subst hid
          cases hc.symm.trans hin
          exact hself
        · exact (hother id hid).trans hin
      · exact .inr hexpired
    · rw [mem_singleton] at hv
      subst hv
      exact .inl ⟨k, hself⟩
  · refine forall_insert (fun _ => ⟨c, by simp, rfl⟩) fun id e he hcompleted => ?_
    obtain ⟨v, hv, hsame⟩ := h.completed id e he hcompleted
    exact ⟨v, mem_append_left _ hv, hsame⟩
  · intro s
    rw [hholds _ rfl, ← h.sessions s]
    by_cases hs : s = c.sessionHandle
    · simp [MfaManager.complete, ofSession, hs]
    · simp [MfaManager.complete, ofSession, hs, Ne.symm hs]
  · intro s op
    rw [hholds _ rfl, ← h.operations s op]
    by_cases hs : c.boundOperation = some op ∧ s = c.sessionHandle
    · simp [MfaManager.complete, ofOperation, hs.1, hs.2]
    have hno : ofOperation s op c = false := by
      simp only [ofOperation, Bool.and_eq_false_iff, decide_eq_false_iff_not]
      tauto
    simp [MfaManager.complete, hno, hs]

/-- **Every call keeps the indices exact.** -/
theorem step [MfaHash] (hnow : ∀ t ∈ call.monoReading, t = now)
    (hfresh : ∀ r ∈ call.issued, ∀ r' ∈ issued, r'.id ≠ r.id)
    (hagree : ∀ t ∈ call.lookup, ∀ r ∈ issued, ClocksAgree timeoutSecs t.1 t.2 r)
    (hrepeat : NoLateRepeat m call) :
    Exact (m.step call) timeoutSecs (issued ++ call.issued.toList)
      (verified ++ (verifiedChallenge m call).toList) now := by
  cases call with
  | issue r =>
    have hissue := h.issue (hfresh r rfl)
    simpa [MfaManager.step, verifiedChallenge, MfaCall.issued] using hissue
  | verify id sessionHandle response wall mono pruneAt =>
    simp only [MfaManager.step, verifiedChallenge, MfaCall.issued, Option.toList_none,
      append_nil]
    rcases m.verify_cases id sessionHandle response wall mono pruneAt with ⟨e, hgo⟩ |
      ⟨c, hc, hsession, hexpired, hgo⟩ | ⟨c, m', hc, -, -, hcheck, hgo⟩
    · simpa [hgo] using h
    · -- an expired challenge leaves the map, but not the indices
      have hdropped := h.drop (k := id) fun c' hc' => by
        cases hc.symm.trans hc'
        exact hrepeat c hc hsession hexpired
      simpa [hgo] using hdropped
    · obtain ⟨hchallenges, hsessions, hops, hheap, htimeout, -⟩ :=
        MfaManager.checkResponse_ok hcheck
      rw [hgo]
      simp only [if_true, hc, Option.toList_some]
      exact (h.congr hchallenges hsessions hops hheap htimeout).complete (hchallenges ▸ hc)
  | hasCompleted _ wall mono | hasCompletedFor _ _ wall mono =>
    cases hnow mono rfl
    have hevicted := h.evictExpired (hagree (wall, _) rfl)
    simpa [MfaManager.step, MfaManager.hasCompletedChallenge, MfaManager.hasCompletedChallengeFor,
      verifiedChallenge, MfaCall.issued] using hevicted
  | pruneSteps wall =>
    have hpruned : Exact (m.pruneExpiredTotpSteps wall) timeoutSecs issued verified now :=
      h.congr rfl rfl rfl rfl rfl
    simpa [MfaManager.step, verifiedChallenge, MfaCall.issued] using hpruned

end Steps

end Exact

theorem Orderly.of_snoc {timeoutSecs : Nat}
    (h : Orderly timeoutSecs (calls ++ [call])) : Orderly timeoutSecs calls where
  fresh := by
    have hfresh := h.fresh
    rw [filterMap_append, map_append] at hfresh
    exact (pairwise_append.mp hfresh).1
  forward := by
    have hforward := h.forward
    rw [filterMap_append] at hforward
    exact (pairwise_append.mp hforward).1
  agree := (pairwise_append.mp h.agree).1

/-- What a run demands of its last call. -/
theorem Orderly.last {timeoutSecs : Nat} (h : Orderly timeoutSecs (calls ++ [call])) :
    (∀ t ∈ call.monoReading, ∀ t' ∈ calls.filterMap MfaCall.monoReading, t' ≤ t) ∧
      (∀ r ∈ call.issued, ∀ r' ∈ calls.filterMap MfaCall.issued, r'.id ≠ r.id) ∧
      ∀ t ∈ call.lookup, ∀ r ∈ calls.filterMap MfaCall.issued,
        ClocksAgree timeoutSecs t.1 t.2 r := by
  refine ⟨?_, ?_, ?_⟩
  · intro t ht t' ht'
    have hforward := h.forward
    rw [filterMap_append] at hforward
    exact (pairwise_append.mp hforward).2.2 t' ht' t (by simpa using ht)
  · intro r hr r' hr'
    have hfresh := h.fresh
    rw [filterMap_append, map_append] at hfresh
    have hapart := (pairwise_append.mp hfresh).2.2
    exact hapart _ (mem_map_of_mem hr') _ (mem_map_of_mem (by simpa using hr))
  · intro t ht r hr
    obtain ⟨earlier, hearlier, hissued⟩ := mem_filterMap.mp hr
    have hagree := (pairwise_append.mp h.agree).2.2
    exact hagree earlier hearlier call (mem_singleton_self _) r hissued t ht

section Runs
variable {timeoutSecs : Nat} {totpSecrets : String → Option TotpConfig}

theorem exact_new (now : Nat) : Exact (.new timeoutSecs totpSecrets) timeoutSecs [] [] now where
  timeout := rfl
  heap := ⟨List.Pairwise.nil, fun id c hc => by simp [new] at hc⟩
  known id c hc := by simp [new] at hc
  kept c hc := by cases hc
  completed id c hc := by simp [new] at hc
  sessions s := by simp [new, Holds]
  operations s op := by simp [new, Holds]

/-- What an exact index answers at a moment. -/
theorem Exact.answer {m : MfaManager} {now wall : Nat} {issued : List MfaIssue}
    {verified : List MfaChallenge} (h : Exact m timeoutSecs issued verified now)
    (hagree : ∀ r ∈ issued, ClocksAgree timeoutSecs wall now r)
    (hp : ∀ c, p { c with completed := true } = p c) :
    Holds (m.evictExpired wall) p ↔ ∃ c ∈ verified, p c = true ∧ now < c.expiresAtMono := by
  have hevicted := h.evictExpired hagree
  constructor
  · rintro ⟨id, c, hc, hpc, hcompleted⟩
    obtain ⟨v, hv, rfl⟩ := hevicted.completed id c hc hcompleted
    obtain ⟨hin, hlater⟩ := (getElem?_evictExpired h.heap).mp hc
    obtain ⟨r, hr, -, hwall, hmono⟩ := h.known id _ hin
    refine ⟨v, hv, (hp v).symm.trans hpc, ?_⟩
    -- it is not expired by the wall clock, hence not by the other
    by_contra hexpired
    have hover := (hagree r hr).mpr (by rw [← hmono]; exact Nat.not_lt.mp hexpired)
    rw [← hwall] at hover
    exact absurd hlater (Nat.not_lt.mpr hover)
  · rintro ⟨c, hc, hpc, hlive⟩
    rcases hevicted.kept c hc with ⟨id, hin⟩ | hexpired
    · exact ⟨id, _, hin, (hp c).trans hpc, rfl⟩
    · exact absurd hlive (Nat.not_lt.mpr hexpired)

variable [MfaHash]

/-- **The indices are exact after every orderly run**, at every later moment. -/
theorem exact_run (horderly : Orderly timeoutSecs calls)
    (hrepeat : Along step NoLateRepeat (.new timeoutSecs totpSecrets) calls) (now : Nat)
    (hnow : ∀ t ∈ calls.filterMap MfaCall.monoReading, t ≤ now) :
    Exact (run step (.new timeoutSecs totpSecrets) calls) timeoutSecs
      (calls.filterMap MfaCall.issued)
      (outcomes step verifiedChallenge (.new timeoutSecs totpSecrets) calls) now := by
  -- along the prefixes; the state before a call is taken at the moment of the call
  induction calls using List.reverseRecOn generalizing now with
  | nil => exact exact_new now
  | append_singleton calls call ih =>
    obtain ⟨hearlier, hlast⟩ := along_snoc.mp hrepeat
    obtain ⟨hforward, hfresh, hagree⟩ := horderly.last
    have hstep := fun moment hmoment htime =>
      (ih horderly.of_snoc hearlier moment hmoment).step htime hfresh hagree hlast
    have hissued : (calls ++ [call]).filterMap MfaCall.issued =
        calls.filterMap MfaCall.issued ++ call.issued.toList := by
      rw [filterMap_append]
      cases hr : call.issued with
      | none | some => simp [hr]
    rw [run_snoc, outcomes_snoc, hissued]
    cases ht : call.monoReading with
    | none =>
      refine hstep now (fun t ht' => hnow t ?_) (fun t ht' => ?_)
      · rw [filterMap_append]
        exact mem_append_left _ ht'
      · rw [ht] at ht'
        cases ht'
    | some moment =>
      have hcall := hstep moment (hforward moment ht) fun t ht' => by
        rw [ht] at ht'
        exact (Option.some.inj ht').symm
      refine hcall.later (hnow moment ?_)
      rw [filterMap_append]
      exact mem_append_right _ (by simp [ht])

/-- **Approval is a live verified challenge.**  After a run in which the clocks agree at the
look-ups and no completed challenge is verified again after its end, a session is approved at a
moment if and only if one of its challenges was verified and expires later on the monotonic
clock, and approved for an operation if and only if such a challenge was bound to it. -/
theorem approved_iff_live {calls : List MfaCall} {s : UInt64} {wall mono : Nat}
    (horderly : Orderly timeoutSecs (calls ++ [.hasCompleted s wall mono]))
    (hrepeat : Along MfaManager.step NoLateRepeat (.new timeoutSecs totpSecrets) calls) :
    let m := run MfaManager.step (.new timeoutSecs totpSecrets) calls
    let verified := outcomes MfaManager.step verifiedChallenge (.new timeoutSecs totpSecrets) calls
    ((m.hasCompletedChallenge s wall).1 = true ↔
      ∃ c ∈ verified, c.sessionHandle = s ∧ mono < c.expiresAtMono) ∧
    ∀ op, ((m.hasCompletedChallengeFor s op wall).1 = true ↔
      ∃ c ∈ verified, c.sessionHandle = s ∧ c.boundOperation = some op ∧
        mono < c.expiresAtMono) := by
  obtain ⟨hforward, -, hagree⟩ := horderly.last
  have hexact := exact_run horderly.of_snoc hrepeat mono (hforward mono rfl)
  have hclocks := hagree (wall, mono) rfl
  refine ⟨?_, fun op => ?_⟩
  · have hsession := (hexact.evictExpired hclocks).sessions s
    have hanswer := hexact.answer hclocks (p := ofSession s) fun _ => rfl
    simpa [hasCompletedChallenge, ofSession] using hsession.trans hanswer
  · have hoperation := (hexact.evictExpired hclocks).operations s op
    have hanswer := hexact.answer hclocks (p := ofOperation s op) fun _ => rfl
    simpa [hasCompletedChallengeFor, ofOperation, and_assoc] using
      hoperation.trans hanswer

end Runs

/-! ## Samples -/

section Sample

/-- A PIN is kept as it is, behind its salt. -/
@[reducible] def plainMfaHash : MfaHash := ⟨fun _ _ => [], fun pin salt => salt ++ pin⟩

attribute [local instance] plainMfaHash

/-- A PIN challenge for an operation. -/
def pinIssue (id : String) (s : UInt64) (op : String) (wall : Nat) : MfaIssue where
  id := id
  wall := wall
  mono := fromSecs wall
  sessionHandle := s
  userId := "alice"
  challengeType := .reenterPin
  expectedPin := some (asBytes "1234")
  boundOperation := some op

/-- A challenge of a minute is issued and answered right away. -/
def confirmed : List MfaCall :=
  [.issue (pinIssue "c1" 1 "destroy" 100), .verify "c1" 1 (asBytes "1234") 100 (fromSecs 100) 100]

/-- It is answered again after its end. -/
def confirmedTwice : List MfaCall :=
  confirmed ++ [.verify "c1" 1 (asBytes "1234") 170 (fromSecs 170) 170]

theorem approved_iff_live_confirmed :
    let m := run MfaManager.step (.new 60 onlyAlice) confirmed
    let verified := outcomes MfaManager.step verifiedChallenge (.new 60 onlyAlice) confirmed
    ((m.hasCompletedChallenge 1 150).1 = true ↔
      ∃ c ∈ verified, c.sessionHandle = 1 ∧ fromSecs 150 < c.expiresAtMono) ∧
    ∀ op, ((m.hasCompletedChallengeFor 1 op 150).1 = true ↔
      ∃ c ∈ verified, c.sessionHandle = 1 ∧ c.boundOperation = some op ∧
        fromSecs 150 < c.expiresAtMono) :=
  approved_iff_live ⟨by decide, by decide, by decide⟩ (by decide)

/-- The second answer is refused as expired, and it is the one that removes the challenge.  The
session stays approved for the operation, an hour later and with clocks in agreement. -/
theorem approved_after_expiry : ∃ calls,
    Orderly 60 (calls ++ [.hasCompleted 1 3600 (fromSecs 3600)]) ∧
    ((run MfaManager.step (.new 60 onlyAlice) calls).hasCompletedChallenge 1 3600).1 = true ∧
    ((run MfaManager.step (.new 60 onlyAlice) calls).hasCompletedChallengeFor 1 "destroy" 3600).1 =
      true ∧
    ∀ c ∈ outcomes MfaManager.step verifiedChallenge (.new 60 onlyAlice) calls,
      c.expiresAtMono ≤ fromSecs 3600 :=
  ⟨confirmedTwice, ⟨by decide, by decide, by decide⟩, by decide, by decide, by decide⟩

end Sample

end CratonHsm.Auth
