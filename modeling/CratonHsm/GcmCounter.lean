import CratonHsm.GcmJournal
import CratonHsm.RunHistory

/-!
# The nonce budget of a key

`reserve_gcm_nonce` and `evict_gcm_counters` of the AWS-LC backend, one call after the other.  A
key is known by its fingerprint.  A reservation takes the count from the map, or from the journal
if the map has none, adds one and tells the journal; every 1024th reservation looks at the size of
the map and drops the keys with the lowest counts, and those at the limit, if it has grown too
large.
-/

namespace CratonHsm.Awslc
open GuardedRun
open List hiding count
open CratonHsm.Auth (HsmError)

/-! ## The journal, if there is one -/

/-- `PersistentGcmCounter`. -/
inductive GcmPersist where
  | inMemory
  | fileBacked (fb : FileBacked)

namespace GcmPersist

/-- The ceiling of a key, and whether it is poisoned. -/
def persistedState (p : GcmPersist) (fp : Fingerprint) : Nat × Bool :=
  match p with
  | .inMemory => (0, false)
  | .fileBacked fb => fb.persistedState fp

/-- The journal is told of a count. -/
def recordAdvance (p : GcmPersist) (fp : Fingerprint) (newCount : Nat) :
    Except HsmError Unit × GcmPersist :=
  match p with
  | .inMemory => (.ok (), .inMemory)
  | .fileBacked fb =>
    ((fb.recordAdvance fp newCount).1, .fileBacked (fb.recordAdvance fp newCount).2)

/-- The journal is brought up to the count of a key. -/
def flushFingerprint (p : GcmPersist) (fp : Fingerprint) (newCount : Nat) :
    Except HsmError Unit × GcmPersist :=
  match p with
  | .inMemory => (.ok (), .inMemory)
  | .fileBacked fb =>
    ((fb.flushFingerprint fp newCount).1, .fileBacked (fb.flushFingerprint fp newCount).2)

/-- The journal is told that a key is used up. -/
def recordPoison (p : GcmPersist) (fp : Fingerprint) : Except HsmError Unit × GcmPersist :=
  match p with
  | .inMemory => (.ok (), .inMemory)
  | .fileBacked fb => ((fb.recordPoison fp).1, .fileBacked (fb.recordPoison fp).2)

/-- There is a journal file. -/
def onFile : GcmPersist → Bool
  | .inMemory => false
  | .fileBacked _ => true

/-- The file failed its integrity check when it was opened. -/
def broken : GcmPersist → Bool
  | .inMemory => false
  | .fileBacked fb => fb.integrityFailed

/-- The counter on the file, up to the limit. -/
def stored (p : GcmPersist) (fp : Fingerprint) : Nat :=
  match p with
  | .inMemory => 0
  | .fileBacked fb => min (fb.entry fp).persisted aesGcmNonceLimit

/-- Nothing on the file is lowered or forgotten. -/
structure Grows (p q : GcmPersist) : Prop where
  stored : ∀ fp, p.stored fp ≤ q.stored fp
  poisoned : ∀ fp, (p.persistedState fp).2 = true → (q.persistedState fp).2 = true
  broken : q.broken = p.broken
  onFile : q.onFile = p.onFile

theorem Grows.refl (p : GcmPersist) : Grows p p := ⟨fun _ => Nat.le_refl _, fun _ => id, rfl, rfl⟩

theorem stored_le_limit (p : GcmPersist) (fp : Fingerprint) : p.stored fp ≤ aesGcmNonceLimit := by
  cases p with
  | inMemory => exact Nat.zero_le _
  | fileBacked fb => exact Nat.min_le_right _ _

/-- An entry in memory is replaced by one that is not lower and still poisoned if it was. -/
theorem grows_update {fb fb' : FileBacked} {fp : Fingerprint} {e : PersistEntry}
    (hintact : fb.integrityFailed = false) (hintact' : fb'.integrityFailed = false)
    (hknown : fb'.known = Function.update fb.known fp (some e))
    (hcounter : min (fb.entry fp).persisted aesGcmNonceLimit ≤ e.persisted)
    (hpoisoned : (fb.entry fp).poisoned = true → e.poisoned = true) :
    Grows (.fileBacked fb) (.fileBacked fb') := by
  have hentry : ∀ fp', fb'.entry fp' = if fp = fp' then e else fb.entry fp' := by
    intro fp'
    rw [FileBacked.entry, hknown, entryOrDefault_update, FileBacked.entry]
  refine ⟨?_, ?_, hintact'.trans hintact.symm, rfl⟩
  · intro fp'
    rw [stored, stored, hentry]
    by_cases hfp : fp = fp'
    · subst hfp
      rw [if_pos rfl]
      omega
    · rw [if_neg hfp]
  · intro fp'
    simp only [persistedState, FileBacked.persistedState, hintact, hintact', Bool.false_eq_true,
      false_and, if_false, hentry]
    by_cases hfp : fp = fp'
    · subst hfp
      rw [if_pos rfl]
      exact hpoisoned
    · rw [if_neg hfp]
      exact id

variable {n : Nat}

/-- A broken file records nothing. -/
theorem of_broken {p : GcmPersist} (h : p.broken = true) :
    (∀ fp n, (p.recordAdvance fp n).1 ≠ .ok () ∧ (p.recordAdvance fp n).2 = p) ∧
      (∀ fp n, (p.flushFingerprint fp n).2 = p) ∧ ∀ fp, (p.recordPoison fp).2 = p := by
  cases p with
  | inMemory => cases h
  | fileBacked fb =>
    have hfailed : fb.integrityFailed = true := h
    simp [recordAdvance, flushFingerprint, recordPoison, FileBacked.recordAdvance,
      FileBacked.flushFingerprint, FileBacked.recordPoison, hfailed]

/-- An advance is recorded unless the file is broken, and the file is then not below it. -/
theorem recordAdvance_spec (p : GcmPersist) (fp : Fingerprint) (hn : n ≤ aesGcmNonceLimit) :
    Grows p (p.recordAdvance fp n).2 ∧
      ((p.recordAdvance fp n).1 = .ok () ↔ p.broken = false) ∧
      (p.onFile = true → p.broken = false → n ≤ (p.recordAdvance fp n).2.stored fp) := by
  cases p with
  | inMemory => exact ⟨Grows.refl _, by simp [recordAdvance, broken], nofun⟩
  | fileBacked fb =>
    rw [recordAdvance, FileBacked.recordAdvance]
    by_cases hfailed : fb.integrityFailed = true
    · rw [if_pos hfailed]
      exact ⟨Grows.refl _, by simp [broken, hfailed], by simp [broken, hfailed]⟩
    rw [if_neg hfailed]
    have hintact : fb.integrityFailed = false := Bool.not_eq_true _ ▸ hfailed
    dsimp only
    by_cases hwindow : (fb.entry fp).persisted ≠ 0 ∧ n < (fb.entry fp).persisted
    · rw [if_pos hwindow]
      refine ⟨grows_update hintact hintact rfl (Nat.min_le_left _ _) id, by simp [broken, hintact],
        fun _ _ => ?_⟩
      rw [stored, FileBacked.entry, entryOrDefault_update, if_pos rfl]
      omega
    · rw [if_neg hwindow]
      refine ⟨grows_update hintact hintact rfl ?_ id, by simp [broken, hintact], fun _ _ => ?_⟩
      · dsimp only
        omega
      · rw [stored, FileBacked.entry, FileBacked.write, entryOrDefault_update, if_pos rfl]
        dsimp only
        omega

variable {p : GcmPersist}

/-- An advance does not poison a key. -/
theorem recordAdvance_poisoned (hintact : p.broken = false) (fp : Fingerprint)
    (n : Nat) : ((p.recordAdvance fp n).2.persistedState fp).2 = (p.persistedState fp).2 := by
  cases p with
  | inMemory => rfl
  | fileBacked fb =>
    have hfb : fb.integrityFailed = false := hintact
    rw [recordAdvance, FileBacked.recordAdvance, if_neg (by simp [hfb])]
    by_cases hwindow : (fb.entry fp).persisted ≠ 0 ∧ n < (fb.entry fp).persisted
    · rw [if_pos hwindow]
      simp [persistedState, FileBacked.persistedState, hfb, FileBacked.entry, entryOrDefault_update]
    · rw [if_neg hwindow]
      simp [persistedState, FileBacked.persistedState, hfb, FileBacked.entry, FileBacked.write,
        entryOrDefault_update]

theorem flushFingerprint_spec (p : GcmPersist) (fp : Fingerprint) (n : Nat) :
    Grows p (p.flushFingerprint fp n).2 := by
  cases p with
  | inMemory => exact Grows.refl _
  | fileBacked fb =>
    rw [flushFingerprint, FileBacked.flushFingerprint]
    by_cases hfailed : fb.integrityFailed = true
    · rw [if_pos hfailed]
      exact Grows.refl _
    rw [if_neg hfailed]
    have hintact : fb.integrityFailed = false := Bool.not_eq_true _ ▸ hfailed
    by_cases hdone : n ≤ (fb.entry fp).persisted
    · rw [if_pos hdone]
      exact grows_update hintact hintact rfl (Nat.min_le_left _ _) id
    rw [if_neg hdone]
    refine grows_update hintact hintact rfl ?_ id
    dsimp only
    omega

/-- A file gives its counters as they are unless it is broken and refuses the key. -/
theorem stored_eq_min (fp : Fingerprint) (h : p.broken = false ∨ (p.persistedState fp).2 ≠ true) :
    p.stored fp = min (p.persistedState fp).1 aesGcmNonceLimit := by
  cases p with
  | inMemory => rfl
  | fileBacked fb =>
    rw [persistedState, FileBacked.persistedState] at h ⊢
    split
    · next hcond =>
      rw [if_pos hcond, broken, hcond.1] at h
      simp at h
    · rfl

theorem recordPoison_stored (hfile : p.onFile = true) (hintact : p.broken = false)
    (fp : Fingerprint) : (p.recordPoison fp).2.stored fp = aesGcmNonceLimit := by
  cases p with
  | inMemory => cases hfile
  | fileBacked fb =>
    have hfb : fb.integrityFailed = false := hintact
    rw [recordPoison, FileBacked.recordPoison, if_neg (by simp [hfb]), stored, FileBacked.entry,
      FileBacked.write, entryOrDefault_update, if_pos rfl]
    exact Nat.min_self _

theorem recordPoison_spec (p : GcmPersist) (fp : Fingerprint) : Grows p (p.recordPoison fp).2 := by
  cases p with
  | inMemory => exact Grows.refl _
  | fileBacked fb =>
    rw [recordPoison, FileBacked.recordPoison]
    by_cases hfailed : fb.integrityFailed = true
    · rw [if_pos hfailed]
      exact Grows.refl _
    · rw [if_neg hfailed]
      have hintact : fb.integrityFailed = false := Bool.not_eq_true _ ▸ hfailed
      exact grows_update hintact hintact rfl (Nat.min_le_right _ _) fun _ => rfl

end GcmPersist

/-! ## The counters of the process -/

/-- `AES_GCM_COUNTERS`. -/
abbrev Counters := List (Fingerprint × Nat)

namespace Counters

/-- The count of a key in the map. -/
def get (m : Counters) (fp : Fingerprint) : Option Nat := (m.find? (·.1 = fp)).map (·.2)

/-- The count of an entry is stored; a new entry is put at the end. -/
def set (m : Counters) (fp : Fingerprint) (n : Nat) : Counters :=
  if (get m fp).isSome then m.map fun e => if e.1 = fp then (fp, n) else e else m ++ [(fp, n)]

/-- The map without a key. -/
def remove (m : Counters) (fp : Fingerprint) : Counters := m.filter (·.1 ≠ fp)

theorem get_cons (e : Fingerprint × Nat) (m : Counters) (fp : Fingerprint) :
    get (e :: m) fp = if e.1 = fp then some e.2 else get m fp := by
  rw [get, find?_cons]
  by_cases he : e.1 = fp
  · simp [he]
  · simp [he, get]

section
variable (m : Counters)

theorem get_append (e : Fingerprint × Nat) (fp : Fingerprint) :
    get (m ++ [e]) fp = (get m fp).or (if e.1 = fp then some e.2 else none) := by
  induction m with
  | nil => rw [nil_append, get_cons]; rfl
  | cons d m ih =>
    rw [cons_append, get_cons, get_cons, ih]
    by_cases hd : d.1 = fp
    · rw [if_pos hd, if_pos hd, Option.some_or]
    · rw [if_neg hd, if_neg hd]

theorem get_map (fp fp' : Fingerprint) (n : Nat) :
    get (m.map fun e => if e.1 = fp then (fp, n) else e) fp' =
      if fp = fp' then (get m fp').map fun _ => n else get m fp' := by
  induction m with
  | nil => by_cases h : fp = fp' <;> simp [get, h]
  | cons d m ih =>
    rw [map_cons, get_cons, get_cons, ih]
    by_cases hd : d.1 = fp
    · subst hd
      by_cases hfp : d.1 = fp' <;> simp [hfp]
    rw [if_neg hd]
    by_cases hfp : fp = fp'
    · subst hfp
      simp [hd]
    · simp [hfp]

theorem get_set (fp fp' : Fingerprint) (n : Nat) :
    get (set m fp n) fp' = if fp = fp' then some n else get m fp' := by
  rw [set]
  by_cases hsome : (get m fp).isSome = true
  · rw [if_pos hsome, get_map]
    by_cases hfp : fp = fp'
    · subst hfp
      obtain ⟨c, hc⟩ := Option.isSome_iff_exists.mp hsome
      rw [if_pos rfl, if_pos rfl, hc, Option.map_some]
    · rw [if_neg hfp, if_neg hfp]
  · rw [if_neg hsome, get_append]
    by_cases hfp : fp = fp'
    · subst hfp
      rw [Option.not_isSome_iff_eq_none] at hsome
      rw [hsome, Option.none_or]
    · rw [if_neg hfp, if_neg hfp, Option.or_none]

/-- The later count replaces the earlier one. -/
theorem set_set (fp : Fingerprint) (n n' : Nat) :
    set (set m fp n) fp n' = set m fp n' := by
  have hsome : (get (set m fp n) fp).isSome = true := by
    rw [get_set, if_pos rfl]
    rfl
  rw [set, if_pos hsome, set]
  by_cases hfp : (get m fp).isSome = true
  · rw [if_pos hfp, set, if_pos hfp, map_map]
    refine map_congr_left fun e _ => ?_
    by_cases he : e.1 = fp <;> simp [he]
  rw [if_neg hfp, set, if_neg hfp, map_append]
  congr 1
  · refine (map_congr_left fun e he => ?_).trans (map_id m)
    have hne : e.1 ≠ fp := by
      intro heq
      apply hfp
      rw [get, Option.isSome_map, find?_isSome]
      exact ⟨e, he, by simpa using heq⟩
    rw [if_neg hne]
    rfl
  · simp

theorem get_remove (fp fp' : Fingerprint) :
    get (remove m fp) fp' = if fp = fp' then none else get m fp' := by
  induction m with
  | nil => by_cases h : fp = fp' <;> simp [remove, get, h]
  | cons d m ih =>
    rw [remove, filter_cons]
    by_cases hd : d.1 = fp
    · rw [if_neg (by simp [hd]), get_cons]
      refine ih.trans ?_
      by_cases hfp : fp = fp'
      · rw [if_pos hfp, if_pos hfp]
      · rw [if_neg hfp, if_neg hfp, if_neg (hd ▸ hfp)]
    · rw [if_pos (by simpa using hd), get_cons, get_cons]
      by_cases hfp : fp = fp'
      · rw [if_pos hfp, if_neg (hfp ▸ hd)]
        exact ih.trans (if_pos hfp)
      rw [if_neg hfp]
      by_cases hdfp : d.1 = fp'
      · rw [if_pos hdfp, if_pos hdfp]
      · rw [if_neg hdfp, if_neg hdfp]
        exact ih.trans (if_neg hfp)

end

end Counters

/-! ## Reserving and evicting -/

def gcmCounterMapMax : Nat := 10000

def gcmEvictInterval : Nat := 1024

/-- The journal, the map of counts and the number of reservations made. -/
structure GcmProcess where
  persist : GcmPersist
  counters : Counters := []
  tick : Nat := 0

/-- `select_nth_unstable`: the value at the index when the list is sorted. -/
def selectNth (counts : List Nat) (index : Nat) : Nat := ((counts.mergeSort (· ≤ ·))[index]?).getD 0

namespace GcmProcess

/-- A key below the threshold: it is dropped if the flush succeeds. -/
def evictOne (s : GcmProcess) (e : Fingerprint × Nat) : GcmProcess :=
  match s.persist.flushFingerprint e.1 e.2 with
  | (.ok (), persist) => { s with persist, counters := Counters.remove s.counters e.1 }
  | (.error _, persist) => { s with persist }

/-- `evict_gcm_counters`: keys at the limit are dropped without a flush. -/
def evict (s : GcmProcess) (maxEntries : Nat) : GcmProcess :=
  let exhausted := s.counters.filter (aesGcmNonceLimit ≤ ·.2)
  let snapshot := s.counters.filter (·.2 < aesGcmNonceLimit)
  let dropped :=
    { s with counters := exhausted.foldl (fun m e => Counters.remove m e.1) s.counters }
  if snapshot.length ≤ maxEntries then dropped
  else
    let threshold := selectNth (snapshot.map (·.2)) maxEntries
    (snapshot.filter (·.2 < threshold)).foldl evictOne dropped

/-- The end of a reservation: every so often the map is looked at. -/
def sweep (s : GcmProcess) : GcmProcess :=
  let ticked := { s with tick := s.tick + 1 }
  if s.tick % gcmEvictInterval = 0 ∧ gcmCounterMapMax < s.counters.length then
    ticked.evict gcmCounterMapMax
  else ticked

/-- The count that a reservation for the key starts from: that of the map, or of the file. -/
def resumesFrom (s : GcmProcess) (fp : Fingerprint) : Nat :=
  (Counters.get s.counters fp).getD (s.persist.persistedState fp).1

/-- `reserve_gcm_nonce`, from the fingerprint of the key on. -/
def reserve (s : GcmProcess) (fp : Fingerprint) : Except HsmError Unit × GcmProcess :=
  if (s.persist.persistedState fp).2 then (.error .generalError, s)
  else
    let current := s.resumesFrom fp
    if aesGcmNonceLimit ≤ current then
      (.error .generalError,
        { s with
          counters := Counters.set s.counters fp current
          persist := (s.persist.recordPoison fp).2 })
    else
      match s.persist.recordAdvance fp (current + 1) with
      | (.error e, persist) =>
        (.error e, { s with counters := Counters.set s.counters fp current, persist })
      | (.ok (), persist) =>
        (.ok (), sweep ⟨persist, Counters.set s.counters fp (current + 1), s.tick⟩)

/-- The fingerprint with the given number in it. -/
def numbered (i : Nat) : Fingerprint := ⟨PrefixFreeCode.bigEndian 32 i, by simp⟩

theorem numbered_inj {i j : Nat} (hi : i < 256 ^ 32) (hj : j < 256 ^ 32)
    (h : numbered i = numbered j) : i = j := by
  have hbytes : PrefixFreeCode.bigEndian 32 i = PrefixFreeCode.bigEndian 32 j :=
    congrArg Fingerprint.bytes h
  have hmod := PrefixFreeCode.bigEndian_mod hbytes
  rwa [Nat.mod_eq_of_lt hi, Nat.mod_eq_of_lt hj] at hmod

end GcmProcess

end CratonHsm.Awslc
