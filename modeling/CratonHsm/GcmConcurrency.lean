import CratonHsm.GcmCounter

/-!
# Reservations under concurrent calls

`reserve_gcm_nonce`, `evict_gcm_counters` and `reset_gcm_counter` as programs of threads that
interleave at every operation on the two maps, the per-key mutex and the journal.  The entry of
the counter map is held from hydration until the journal has answered, so the count of a key is
changed by one thread at a time.

The mutex of a key is itself removed by eviction and reset.  As long as that does not happen while
a call of the key has taken the mutex and not yet recorded its advance, all calls of the key share
one mutex, and the persisted value that a call has read is not overtaken before it is used.  If it
does happen, a thread that was held up hydrates from a value that is out of date, and the budget of
the key is handed out once more.
-/

namespace CratonHsm.Awslc
open GuardedRun Function GcmProcess Option
open CratonHsm.Auth (HsmError)

/-! ## Threads -/

/-- A call that a thread can make. -/
inductive GcmCall where
  | reserve (fp : Fingerprint)
  | evict (maxEntries : Nat)
  | reset (fp : Fingerprint)

/-- The reservation that an eviction was started from, with the mutex it holds. -/
abbrev Caller := Option (Fingerprint × Nat)

/-- Where a thread stands: before each operation on a map, a mutex or the journal. -/
inductive GcmPc where
  | idle
  /-- before `GCM_KEY_LOCKS.get` -/
  | lockGet (fp : Fingerprint)
  /-- before `GCM_KEY_LOCKS.entry(..).or_insert_with` -/
  | lockInsert (fp : Fingerprint)
  /-- before `key_lock.lock()` -/
  | lockAcquire (fp : Fingerprint) (lock : Nat)
  /-- before `persisted_state`, with the mutex held -/
  | readPersisted (fp : Fingerprint) (lock : Nat)
  /-- before `AES_GCM_COUNTERS.entry`, with the value read -/
  | hydrate (fp : Fingerprint) (lock persisted : Nat)
  /-- before `record_advance`, with the entry held and the count raised -/
  | advance (fp : Fingerprint) (lock current : Nat)
  /-- before `record_poison`, with the entry held -/
  | poison (fp : Fingerprint) (lock : Nat)
  /-- before the tick and the look at the size of the map -/
  | tick (fp : Fingerprint) (lock : Nat)
  /-- `evict_gcm_counters` before it walks the map -/
  | evictSnapshot (caller : Caller) (maxEntries : Nat)
  /-- before the counters of exhausted keys are removed -/
  | dropCounter (caller : Caller) (exhausted : List Fingerprint) (victims : Counters)
  /-- before the mutex of an exhausted key is removed -/
  | dropLock (caller : Caller) (fp : Fingerprint) (exhausted : List Fingerprint)
    (victims : Counters)
  /-- before `flush_fingerprint` of the next victim -/
  | evictFlush (caller : Caller) (victims : Counters)
  /-- before the counter of a flushed victim is removed -/
  | evictCounter (caller : Caller) (fp : Fingerprint) (victims : Counters)
  /-- before its mutex is removed -/
  | evictLock (caller : Caller) (fp : Fingerprint) (victims : Counters)
  /-- before the mutex is released and the call returns -/
  | unlock (lock : Nat)
  /-- `reset_gcm_counter` before the counter is removed -/
  | resetCounter (fp : Fingerprint)
  /-- `reset_gcm_counter` before the mutex is removed -/
  | resetLock (fp : Fingerprint)

/-- The maps, the mutexes, the entries that are held, and the journal. -/
structure GcmShared (T : Type) where
  persist : GcmPersist
  counters : Counters := []
  tick : Nat := 0
  /-- `GCM_KEY_LOCKS`: the mutex of a key. -/
  locks : Fingerprint → Option Nat := fun _ => none
  nextLock : Nat := 0
  /-- Who holds a mutex. -/
  holder : Nat → Option T := fun _ => none
  /-- Who holds the entry of a key in the counter map. -/
  guard : Fingerprint → Option T := fun _ => none

namespace GcmShared
variable {T : Type}

/-- A new mutex for the key. -/
def insertLock (s : GcmShared T) (fp : Fingerprint) : GcmShared T :=
  { s with locks := Function.update s.locks fp (some s.nextLock), nextLock := s.nextLock + 1 }

/-- The entry of the key is taken, and its count set. -/
def takeEntry (s : GcmShared T) (t : T) (fp : Fingerprint) (count : Nat) : GcmShared T :=
  { s with
    counters := Counters.set s.counters fp count
    guard := Function.update s.guard fp (some t) }

/-- The journal has answered, and the entry of the key is released. -/
def releaseEntry (s : GcmShared T) (fp : Fingerprint) (persist : GcmPersist) : GcmShared T :=
  { s with persist, guard := Function.update s.guard fp none }

end GcmShared

/-- Threads on the shared counters. -/
structure GcmThreads (T : Type) where
  shared : GcmShared T
  pc : T → GcmPc := fun _ => .idle

/-- A thread begins a call or makes its next step. -/
inductive GcmStep (T : Type) where
  | invoke (t : T) (call : GcmCall)
  | advance (t : T)

namespace GcmThreads
variable {T : Type}

/-- Where a call begins. -/
def start : GcmCall → GcmPc
  | .reserve fp => .lockGet fp
  | .evict maxEntries => .evictSnapshot none maxEntries
  | .reset fp => .resetCounter fp

/-- After an eviction: the reservation it was started from returns. -/
def afterEvict : Caller → GcmPc
  | none => .idle
  | some (_, lock) => .unlock lock

/-- The keys of a snapshot that are to be evicted. -/
def victimsOf (counters : Counters) (maxEntries : Nat) : Counters :=
  let snapshot := counters.filter (·.2 < aesGcmNonceLimit)
  if snapshot.length ≤ maxEntries then []
  else snapshot.filter (·.2 < selectNth (snapshot.map (·.2)) maxEntries)

def nextDrop (caller : Caller) (victims : Counters) : List Fingerprint → GcmPc
  | [] => .evictFlush caller victims
  | fp :: rest => .dropCounter caller (fp :: rest) victims

/-- The next step of a thread from a place: the shared state after it and the next place.  A
thread that has to wait stays where it is. -/
def next (s : GcmShared T) (t : T) : GcmPc → GcmShared T × GcmPc
  | .idle => (s, .idle)
  | .lockGet fp =>
    match s.locks fp with
    | some lock => (s, .lockAcquire fp lock)
    | none => (s, .lockInsert fp)
  | .lockInsert fp =>
    match s.locks fp with
    | some lock => (s, .lockAcquire fp lock)
    | none => (s.insertLock fp, .lockAcquire fp s.nextLock)
  | .lockAcquire fp lock =>
    match s.holder lock with
    | some _ => (s, .lockAcquire fp lock)
    | none => ({ s with holder := Function.update s.holder lock (some t) }, .readPersisted fp lock)
  | .readPersisted fp lock =>
    if (s.persist.persistedState fp).2 then (s, .unlock lock)
    else (s, .hydrate fp lock (s.persist.persistedState fp).1)
  | .hydrate fp lock persisted =>
    match s.guard fp with
    | some _ => (s, .hydrate fp lock persisted)
    | none =>
      let current := (Counters.get s.counters fp).getD persisted
      if aesGcmNonceLimit ≤ current then (s.takeEntry t fp current, .poison fp lock)
      else (s.takeEntry t fp (current + 1), .advance fp lock current)
  | .advance fp lock current =>
    match s.persist.recordAdvance fp (current + 1) with
    | (.ok (), persist) => (s.releaseEntry fp persist, .tick fp lock)
    | (.error _, persist) =>
      -- the count is set back before the entry is released
      (({ s with counters := Counters.set s.counters fp current }).releaseEntry fp persist,
        .unlock lock)
  | .poison fp lock => (s.releaseEntry fp (s.persist.recordPoison fp).2, .unlock lock)
  | .tick fp lock =>
    ({ s with tick := s.tick + 1 },
      if s.tick % gcmEvictInterval = 0 ∧ gcmCounterMapMax < s.counters.length then
        .evictSnapshot (some (fp, lock)) gcmCounterMapMax
      else .unlock lock)
  | .evictSnapshot caller maxEntries =>
    (s, nextDrop caller (victimsOf s.counters maxEntries)
      ((s.counters.filter (aesGcmNonceLimit ≤ ·.2)).map (·.1)))
  | .dropCounter caller [] victims => (s, .evictFlush caller victims)
  | .dropCounter caller (fp :: rest) victims =>
    match s.guard fp with
    | some _ => (s, .dropCounter caller (fp :: rest) victims)
    | none =>
      ({ s with counters := Counters.remove s.counters fp }, .dropLock caller fp rest victims)
  | .dropLock caller fp rest victims =>
    ({ s with locks := Function.update s.locks fp none }, nextDrop caller victims rest)
  | .evictFlush caller [] => (s, afterEvict caller)
  | .evictFlush caller (e :: victims) =>
    match s.persist.flushFingerprint e.1 e.2 with
    | (.ok (), persist) => ({ s with persist }, .evictCounter caller e.1 victims)
    | (.error _, persist) => ({ s with persist }, .evictFlush caller victims)
  | .evictCounter caller fp victims =>
    match s.guard fp with
    | some _ => (s, .evictCounter caller fp victims)
    | none =>
      ({ s with counters := Counters.remove s.counters fp }, .evictLock caller fp victims)
  | .evictLock caller fp victims =>
    ({ s with locks := Function.update s.locks fp none }, .evictFlush caller victims)
  | .unlock lock => ({ s with holder := Function.update s.holder lock none }, .idle)
  | .resetCounter fp =>
    match s.guard fp with
    | some _ => (s, .resetCounter fp)
    | none => ({ s with counters := Counters.remove s.counters fp }, .resetLock fp)
  | .resetLock fp => ({ s with locks := Function.update s.locks fp none }, .idle)

/-- The thread moves on. -/
def goto [DecidableEq T] (s : GcmThreads T) (t : T) (r : GcmShared T × GcmPc) : GcmThreads T :=
  ⟨r.1, Function.update s.pc t r.2⟩

/-- One step of the whole. -/
def step [DecidableEq T] (s : GcmThreads T) : GcmStep T → GcmThreads T
  | .invoke t call =>
    match s.pc t with
    | .idle => s.goto t (s.shared, start call)
    | _ => s
  | .advance t => s.goto t (next s.shared t (s.pc t))

/-! ## The places of one key -/

section Key
variable (fp : Fingerprint)

/-- The thread has taken the mutex of the key and has not recorded its advance yet. -/
def Pending : GcmPc → Option Nat
  | .lockAcquire fp' lock => if fp' = fp then some lock else none
  | .readPersisted fp' lock => if fp' = fp then some lock else none
  | .hydrate fp' lock _ => if fp' = fp then some lock else none
  | .advance fp' lock _ => if fp' = fp then some lock else none
  | .poison fp' lock => if fp' = fp then some lock else none
  | _ => none

/-- The mutex that a thread holds. -/
def Holding : GcmPc → Option Nat
  | .readPersisted _ lock => some lock
  | .hydrate _ lock _ => some lock
  | .advance _ lock _ => some lock
  | .poison _ lock => some lock
  | .tick _ lock => some lock
  | .evictSnapshot caller _ => caller.map (·.2)
  | .dropCounter caller _ _ => caller.map (·.2)
  | .dropLock caller _ _ _ => caller.map (·.2)
  | .evictFlush caller _ => caller.map (·.2)
  | .evictCounter caller _ _ => caller.map (·.2)
  | .evictLock caller _ _ => caller.map (·.2)
  | .unlock lock => some lock
  | _ => none

/-- The entry of the counter map that a thread holds. -/
def Guarding : GcmPc → Option Fingerprint
  | .advance fp' _ _ => some fp'
  | .poison fp' _ => some fp'
  | _ => none

/-- The key whose mutex the next step removes. -/
def Unlocking : GcmPc → Option Fingerprint
  | .dropLock _ fp' _ _ => some fp'
  | .evictLock _ fp' _ => some fp'
  | .resetLock fp' => some fp'
  | _ => none

/-- The step does not remove the mutex of the key while a call has taken it and not yet recorded
its advance. -/
def KeepsLock (s : GcmThreads T) : GcmStep T → Prop
  | .invoke _ _ => True
  | .advance t => Unlocking (s.pc t) = some fp → ∀ u, Pending fp (s.pc u) = none

/-- The step grants a reservation for the key: the journal has recorded the advance, and the call
returns `Ok` from here on. -/
def Grants (s : GcmThreads T) : GcmStep T → Prop
  | .invoke _ _ => False
  | .advance t =>
    match s.pc t with
    | .advance fp' _ current =>
      fp' = fp ∧ (s.shared.persist.recordAdvance fp' (current + 1)).1 = .ok ()
    | _ => False

instance (s : GcmThreads T) (e : GcmStep T) : Decidable (Grants fp s e) := by
  unfold Grants
  split
  · infer_instance
  · split <;> infer_instance

end Key

/-! ## The invariant -/

section Invariant
variable {fp : Fingerprint} {n : Nat} {s s' : GcmShared T} {t u : T} {p : GcmPc}

/-- The shared state after `n` grants for the key: the file covers them, and so does the count in
the map, which the file covers in turn unless its entry is held. -/
structure SharedSound (fp : Fingerprint) (n : Nat) (s : GcmShared T) : Prop where
  onFile : s.persist.onFile = true
  intact : s.persist.broken = false
  granted : n ≤ s.persist.stored fp
  present : ∀ c, Counters.get s.counters fp = some c →
    n ≤ c ∧ (s.guard fp = none → min c aesGcmNonceLimit ≤ s.persist.stored fp)

/-- What the place of a thread says about the shared state. -/
structure PcSound (fp : Fingerprint) (n : Nat) (s : GcmShared T) (t : T) (p : GcmPc) : Prop where
  lock : ∀ l, Pending fp p = some l → s.locks fp = some l
  held : ∀ l, Holding p = some l → s.holder l = some t
  guarded : Guarding p = some fp → s.guard fp = some t
  room : ∀ fp' l current, p = .advance fp' l current → current < aesGcmNonceLimit
  fresh : ∀ l v, p = .hydrate fp l v → n ≤ v ∧ min v aesGcmNonceLimit ≤ s.persist.stored fp
  raised : ∀ l current, p = .advance fp l current →
    Counters.get s.counters fp = some (current + 1) ∧ n ≤ current

/-- A step of a thread does not touch what the others hold. -/
structure Quiet (fp : Fingerprint) (s s' : GcmShared T) (t : T) : Prop where
  holder : ∀ l u, u ≠ t → s.holder l = some u → s'.holder l = some u
  guard : ∀ u, u ≠ t → s.guard fp = some u →
    s'.guard fp = some u ∧ Counters.get s'.counters fp = Counters.get s.counters fp
  stored : s.persist.stored fp ≤ s'.persist.stored fp

theorem PcSound.mono (h : PcSound fp n s u p) (hq : Quiet fp s s' t) (hu : u ≠ t)
    (hlock : ∀ l, Pending fp p = some l → s'.locks fp = some l) : PcSound fp n s' u p := by
  refine ⟨hlock, fun l hl => hq.holder l u hu (h.held l hl),
    fun hg => (hq.guard u hu (h.guarded hg)).1,
    h.room, ?_, ?_⟩
  · intro l v hp
    exact ⟨(h.fresh l v hp).1, Nat.le_trans (h.fresh l v hp).2 hq.stored⟩
  intro l current hp
  have hguard := h.guarded (by rw [hp]; rfl)
  rw [(hq.guard u hu hguard).2]
  exact h.raised l current hp

/-- A place that has nothing to do with the key but may hold a mutex. -/
theorem PcSound.outside (hpending : Pending fp p = none) (hguarding : Guarding p = none)
    (hheld : ∀ l, Holding p = some l → s.holder l = some t) : PcSound fp n s t p := by
  refine ⟨?_, hheld, ?_, ?_, ?_, ?_⟩
  · intro l hl
    rw [hpending] at hl
    cases hl
  · intro hg
    rw [hguarding] at hg
    cases hg
  · rintro fp' l current rfl
    cases hguarding
  · rintro l v rfl
    simp [Pending] at hpending
  · rintro l current rfl
    cases hguarding

/-- What a step of one thread gives: the shared state, the others, and the thread itself. -/
structure StepSound (fp : Fingerprint) (n : Nat) (s : GcmShared T) (t : T)
    (r : GcmShared T × GcmPc) : Prop where
  shared : SharedSound fp n r.1
  quiet : Quiet fp s r.1 t
  own : PcSound fp n r.1 t r.2

theorem Quiet.same (hholder : s'.holder = s.holder) (hguard : s'.guard = s.guard)
    (hcounters : s'.counters = s.counters) (hpersist : s.persist.Grows s'.persist) :
    Quiet fp s s' t :=
  ⟨fun _ _ _ h => by rw [hholder]; exact h, fun _ _ h => by rw [hguard, hcounters]; exact ⟨h, rfl⟩,
    hpersist.stored fp⟩

theorem SharedSound.same (h : SharedSound fp n s) (hguard : s'.guard = s.guard)
    (hcounters : s'.counters = s.counters) (hpersist : s.persist.Grows s'.persist) :
    SharedSound fp n s' := by
  refine ⟨hpersist.onFile.trans h.onFile, hpersist.broken.trans h.intact,
    Nat.le_trans h.granted (hpersist.stored fp), ?_⟩
  intro c hc
  rw [hcounters] at hc
  obtain ⟨hn, hcovered⟩ := h.present c hc
  refine ⟨hn, fun hfree => Nat.le_trans (hcovered ?_) (hpersist.stored fp)⟩
  rw [← hguard]
  exact hfree

variable {fp' : Fingerprint} {lock : Nat}

theorem pcSound_lockAcquire (hlock : s.locks fp' = some lock) :
    PcSound fp n s t (.lockAcquire fp' lock) := by
  refine ⟨?_, nofun, nofun, nofun, nofun, nofun⟩
  intro l hl
  by_cases hfp : fp' = fp
  · rw [Pending, if_pos hfp] at hl
    rw [← hfp, hlock, hl]
  · rw [Pending, if_neg hfp] at hl
    cases hl

theorem pcSound_nextDrop {caller : Caller} {victims : Counters} (exhausted : List Fingerprint)
    (hheld : ∀ l, caller.map (·.2) = some l → s.holder l = some t) :
    PcSound fp n s t (nextDrop caller victims exhausted) := by
  cases exhausted with
  | nil | cons => exact PcSound.outside rfl rfl hheld

theorem pcSound_afterEvict {caller : Caller}
    (hheld : ∀ l, caller.map (·.2) = some l → s.holder l = some t) :
    PcSound fp n s t (afterEvict caller) := by
  cases caller with
  | none => exact PcSound.outside rfl rfl nofun
  | some c => exact PcSound.outside rfl rfl hheld

section Shared
variable (h : SharedSound fp n s)
include h

/-- A step that only moves the thread, or writes to the journal for good. -/
theorem stepSound_moved (hholder : s'.holder = s.holder) (hguard : s'.guard = s.guard)
    (hcounters : s'.counters = s.counters)
    (hpersist : s.persist.Grows s'.persist) (hown : PcSound fp n s' t p) :
    StepSound fp n s t (s', p) :=
  ⟨h.same hguard hcounters hpersist, Quiet.same hholder hguard hcounters hpersist, hown⟩

theorem stepSound_stay (hown : PcSound fp n s t p) : StepSound fp n s t (s, p) :=
  stepSound_moved h rfl rfl rfl (GcmPersist.Grows.refl _) hown

/-- The counter of a key is removed; its entry is not held. -/
theorem stepSound_remove (hguard : s.guard fp' = none) (hpending : Pending fp p = none)
    (hguarding : Guarding p = none)
    (hheld : ∀ l, Holding p = some l → s.holder l = some t) :
    StepSound fp n s t ({ s with counters := Counters.remove s.counters fp' }, p) := by
  refine ⟨⟨h.onFile, h.intact, h.granted, ?_⟩, ⟨fun _ _ _ h => h, ?_, Nat.le_refl _⟩,
    PcSound.outside hpending hguarding hheld⟩
  · intro c hc
    rw [Counters.get_remove] at hc
    by_cases hfp : fp' = fp
    · rw [if_pos hfp] at hc
      cases hc
    · rw [if_neg hfp] at hc
      exact h.present c hc
  · intro u _ hu
    refine ⟨hu, ?_⟩
    have hfp : fp' ≠ fp := by
      rintro rfl
      rw [hguard] at hu
      cases hu
    rw [Counters.get_remove, if_neg hfp]

theorem stepSound_lockInsert : StepSound fp n s t (s.insertLock fp', .lockAcquire fp' s.nextLock) :=
  stepSound_moved h rfl rfl rfl (GcmPersist.Grows.refl _)
    (pcSound_lockAcquire (update_self _ _ _))

theorem stepSound_lockAcquire (hp : PcSound fp n s t (.lockAcquire fp' lock))
    (hfree : s.holder lock = none) :
    StepSound fp n s t ({ s with holder := update s.holder lock (some t) },
      .readPersisted fp' lock) := by
  refine ⟨⟨h.onFile, h.intact, h.granted, h.present⟩, ⟨?_, fun _ _ hu => ⟨hu, rfl⟩, Nat.le_refl _⟩,
    ⟨hp.lock, ?_, nofun, nofun, nofun, nofun⟩⟩
  · intro l u _ hl
    have hne : l ≠ lock := by
      rintro rfl
      rw [hfree] at hl
      cases hl
    exact (update_of_ne hne _ _).trans hl
  · intro l hl
    obtain rfl := some.inj hl
    exact update_self _ _ _

/-- What is read from the file covers the grants. -/
theorem pcSound_hydrate (hp : PcSound fp n s t (.readPersisted fp' lock)) :
    PcSound fp n s t (.hydrate fp' lock (s.persist.persistedState fp').1) := by
  refine ⟨hp.lock, hp.held, nofun, nofun, ?_, nofun⟩
  intro l v hv
  obtain ⟨rfl, rfl, rfl⟩ := GcmPc.hydrate.inj hv
  have hstored := GcmPersist.stored_eq_min fp' (.inl h.intact)
  have hgranted := h.granted
  omega

/-- The entry of a key is taken and its count set. -/
theorem stepSound_set {m : Nat} (hfree : s.guard fp' = none) (hm : fp' = fp → n ≤ m)
    (hown : PcSound fp n (s.takeEntry t fp' m) t p) :
    StepSound fp n s t (s.takeEntry t fp' m, p) := by
  refine ⟨⟨h.onFile, h.intact, h.granted, ?_⟩, ⟨fun _ _ _ hu => hu, ?_, Nat.le_refl _⟩, hown⟩
  · intro c hc
    have hset := Counters.get_set s.counters fp' fp m
    by_cases hfp : fp' = fp
    · subst hfp
      rw [if_pos rfl] at hset
      refine ⟨some.inj (hset.symm.trans hc) ▸ hm rfl, fun hguard => ?_⟩
      simp only [GcmShared.takeEntry, update_self] at hguard
      cases hguard
    · rw [if_neg hfp] at hset
      obtain ⟨hn, hcovered⟩ := h.present c (hset.symm.trans hc)
      refine ⟨hn, fun hguard => hcovered ?_⟩
      simp only [GcmShared.takeEntry, update_of_ne (Ne.symm hfp)] at hguard
      exact hguard
  · intro u _ hu
    have hfp : fp ≠ fp' := by
      rintro rfl
      rw [hfree] at hu
      cases hu
    exact ⟨(update_of_ne hfp _ _).trans hu, (Counters.get_set _ _ _ _).trans
      (if_neg (Ne.symm hfp))⟩

theorem stepSound_hydrate {persisted : Nat}
    (hp : PcSound fp n s t (.hydrate fp' lock persisted)) (hfree : s.guard fp' = none) :
    StepSound fp n s t (next s t (.hydrate fp' lock persisted)) := by
  have hcurrent : fp' = fp → n ≤ (Counters.get s.counters fp').getD persisted := by
    rintro rfl
    cases hc : Counters.get s.counters fp' with
    | none => exact (hp.fresh lock persisted rfl).1
    | some c => exact (h.present c hc).1
  simp only [next, hfree]
  by_cases hfull : aesGcmNonceLimit ≤ (Counters.get s.counters fp').getD persisted
  · rw [if_pos hfull]
    apply stepSound_set h hfree hcurrent
    refine ⟨hp.lock, hp.held, ?_, nofun, nofun, nofun⟩
    intro hg
    obtain rfl := some.inj hg
    exact update_self _ _ _
  · rw [if_neg hfull]
    apply stepSound_set h hfree fun hfp => Nat.le_succ_of_le (hcurrent hfp)
    refine ⟨hp.lock, hp.held, ?_, ?_, nofun, ?_⟩
    · intro hg
      obtain rfl := some.inj hg
      exact update_self _ _ _
    · intro fp'' l current heq
      obtain ⟨_, _, rfl⟩ := GcmPc.advance.inj heq
      omega
    · intro l current heq
      obtain ⟨rfl, _, rfl⟩ := GcmPc.advance.inj heq
      exact ⟨(Counters.get_set _ _ _ _).trans (if_pos rfl), hcurrent rfl⟩

/-- The journal has answered and the entry is released. -/
theorem stepSound_release {q : GcmPersist} {m : Nat}
    (hmine : fp' = fp → s.guard fp = some t) (hq : s.persist.Grows q) (hm : m ≤ q.stored fp)
    (hpresent : fp' = fp → ∀ c, Counters.get s.counters fp = some c → m ≤ c ∧ min c
      aesGcmNonceLimit ≤ q.stored fp) (hother : fp' ≠ fp → m = n)
    (hown : PcSound fp m (s.releaseEntry fp' q) t p) :
    StepSound fp m s t (s.releaseEntry fp' q, p) := by
  refine ⟨⟨hq.onFile.trans h.onFile, hq.broken.trans h.intact, hm, ?_⟩,
    ⟨fun _ _ _ hu => hu, ?_, hq.stored fp⟩, hown⟩
  · intro c hc
    by_cases hfp : fp' = fp
    · obtain ⟨hmc, hcovered⟩ := hpresent hfp c hc
      exact ⟨hmc, fun _ => hcovered⟩
    obtain ⟨hn, hcovered⟩ := h.present c hc
    refine ⟨hother hfp ▸ hn, fun hguard => Nat.le_trans (hcovered ?_) (hq.stored fp)⟩
    simp only [GcmShared.releaseEntry, update_of_ne (Ne.symm hfp)] at hguard
    exact hguard
  · intro u hu hguard
    have hfp : fp ≠ fp' := by
      intro hfp
      rw [hmine hfp.symm] at hguard
      exact hu (some.inj hguard).symm
    exact ⟨(update_of_ne hfp _ _).trans hguard, rfl⟩

/-- The journal records an advance, which counts for its key. -/
theorem stepSound_advance {current : Nat}
    (hp : PcSound fp n s t (.advance fp' lock current)) :
    StepSound fp (if fp' = fp then n + 1 else n) s t (next s t (.advance fp' lock current)) := by
  have hroom := hp.room fp' lock current rfl
  obtain ⟨hgrows, hok, hstored⟩ := s.persist.recordAdvance_spec fp' (n := current + 1) hroom
  have hgranted := Nat.le_trans h.granted (hgrows.stored fp)
  have hcovered := hstored h.onFile h.intact
  have hres := hok.mpr h.intact
  rcases hrecord : s.persist.recordAdvance fp' (current + 1) with ⟨result, persist⟩
  rw [hrecord] at hgrows hgranted hcovered hres
  dsimp only at hgrows hgranted hcovered hres
  subst hres
  simp only [next, hrecord]
  by_cases hfp : fp' = fp
  · subst hfp
    rw [if_pos rfl]
    obtain ⟨hget, hn⟩ := hp.raised lock current rfl
    refine stepSound_release h (fun _ => hp.guarded rfl) hgrows (by omega) ?_
      (fun hne => (hne rfl).elim) (PcSound.outside rfl rfl hp.held)
    intro _ c hc
    obtain rfl := some.inj (hget.symm.trans hc)
    exact ⟨by omega, by omega⟩
  · rw [if_neg hfp]
    exact stepSound_release h (fun heq => (hfp heq).elim) hgrows hgranted
      (fun heq => (hfp heq).elim) (fun _ => rfl) (PcSound.outside rfl rfl hp.held)

theorem stepSound_poison (hp : PcSound fp n s t (.poison fp' lock)) :
    StepSound fp n s t (next s t (.poison fp' lock)) := by
  have hgrows := s.persist.recordPoison_spec fp'
  refine stepSound_release h (fun hfp => hp.guarded (congrArg some hfp)) hgrows
    (Nat.le_trans h.granted (hgrows.stored fp)) ?_ (fun _ => rfl) (PcSound.outside rfl rfl hp.held)
  rintro rfl c hc
  rw [GcmPersist.recordPoison_stored h.onFile h.intact]
  exact ⟨(h.present c hc).1, Nat.min_le_right _ _⟩

theorem stepSound_unlock (hp : PcSound fp n s t (.unlock lock)) :
    StepSound fp n s t (next s t (.unlock lock)) := by
  refine ⟨⟨h.onFile, h.intact, h.granted, h.present⟩, ⟨?_, fun _ _ hu => ⟨hu, rfl⟩, Nat.le_refl _⟩,
    PcSound.outside rfl rfl nofun⟩
  intro l u hu hl
  have hne : l ≠ lock := by
    rintro rfl
    rw [hp.held l rfl] at hl
    exact hu (some.inj hl).symm
  exact (update_of_ne hne _ _).trans hl

/-- Every step but the grant for the key. -/
theorem next_sound (hp : PcSound fp n s t p)
    (hnot : ∀ lock current, p ≠ .advance fp lock current) : StepSound fp n s t (next s t p) := by
  cases p with
  | idle => exact stepSound_stay h hp
  | lockGet fp' =>
    simp only [next]
    split
    · next lock hlock => exact stepSound_stay h (pcSound_lockAcquire hlock)
    · exact stepSound_stay h (PcSound.outside rfl rfl nofun)
  | lockInsert fp' =>
    simp only [next]
    split
    · next lock hlock => exact stepSound_stay h (pcSound_lockAcquire hlock)
    · exact stepSound_lockInsert h
  | lockAcquire fp' lock =>
    simp only [next]
    split
    · exact stepSound_stay h hp
    · next hfree => exact stepSound_lockAcquire h hp hfree
  | readPersisted fp' lock =>
    simp only [next]
    split
    · exact stepSound_stay h (PcSound.outside rfl rfl hp.held)
    · exact stepSound_stay h (pcSound_hydrate h hp)
  | hydrate fp' lock persisted =>
    cases hguard : s.guard fp' with
    | none => exact stepSound_hydrate h hp hguard
    | some u =>
      simp only [next, hguard]
      exact stepSound_stay h hp
  | advance fp' lock current =>
    have hfp : fp' ≠ fp := by
      rintro rfl
      exact hnot lock current rfl
    have hstep := stepSound_advance h hp
    rw [if_neg hfp] at hstep
    exact hstep
  | poison fp' lock => exact stepSound_poison h hp
  | tick fp' lock =>
    refine stepSound_moved h rfl rfl rfl (GcmPersist.Grows.refl _) ?_
    split <;> exact PcSound.outside rfl rfl hp.held
  | evictSnapshot caller maxEntries => exact stepSound_stay h (pcSound_nextDrop _ hp.held)
  | dropCounter caller exhausted victims =>
    rcases exhausted with _ | ⟨fp', rest⟩
    · exact stepSound_stay h (PcSound.outside rfl rfl hp.held)
    simp only [next]
    split
    · exact stepSound_stay h hp
    · next hfree => exact stepSound_remove h hfree rfl rfl hp.held
  | dropLock caller fp' rest victims =>
    exact stepSound_moved h rfl rfl rfl (GcmPersist.Grows.refl _) (pcSound_nextDrop _ hp.held)
  | evictFlush caller victims =>
    rcases victims with _ | ⟨e, victims⟩
    · exact stepSound_stay h (pcSound_afterEvict hp.held)
    have hgrows := s.persist.flushFingerprint_spec e.1 e.2
    simp only [next]
    split
    · next persist heq =>
      rw [heq] at hgrows
      exact stepSound_moved h rfl rfl rfl hgrows (PcSound.outside rfl rfl hp.held)
    · next e' persist heq =>
      rw [heq] at hgrows
      exact stepSound_moved h rfl rfl rfl hgrows (PcSound.outside rfl rfl hp.held)
  | evictCounter | resetCounter =>
    simp only [next]
    split
    · exact stepSound_stay h hp
    · next hfree => exact stepSound_remove h hfree rfl rfl hp.held
  | evictLock | resetLock =>
    exact stepSound_moved h rfl rfl rfl (GcmPersist.Grows.refl _) (PcSound.outside rfl rfl hp.held)
  | unlock lock => exact stepSound_unlock h hp

end Shared

/-- The mutex of the key stays unless the step removes it. -/
theorem next_locks (hkeeps : Unlocking p ≠ some fp) (hlock : s.locks fp = some lock) :
    (next s t p).1.locks fp = some lock := by
  fun_cases next s t p
  case case5 fp' hnone =>
    -- a new mutex is for another key
    have hfp : fp ≠ fp' := by
      rintro rfl
      rw [hnone] at hlock
      cases hlock
    exact (update_of_ne hfp _ _).trans hlock
  all_goals first
    | exact hlock
    | exact (update_of_ne (fun heq => hkeeps (congrArg some heq.symm)) _ _).trans hlock

end Invariant

/-! ## Runs -/

section Runs
variable {fp : Fingerprint} {n m : Nat} {s : GcmThreads T} {t u : T}

/-- After `n` grants for the key. -/
structure Sound (fp : Fingerprint) (n : Nat) (s : GcmThreads T) : Prop where
  shared : SharedSound fp n s.shared
  places : ∀ t, PcSound fp n s.shared t (s.pc t)

/-- The calls of a key share its mutex, so two threads do not hold it. -/
theorem Sound.exclusive (h : Sound fp n s) {l l' : Nat} (ht : Pending fp (s.pc t) = some l)
    (ht' : Holding (s.pc t) = some l) (hu : Pending fp (s.pc u) = some l')
    (hu' : Holding (s.pc u) = some l') : u = t := by
  have hl := (h.places t).lock l ht
  rw [(h.places u).lock l' hu] at hl
  obtain rfl := some.inj hl
  have hholder := (h.places t).held l' ht'
  rw [(h.places u).held l' hu'] at hholder
  exact some.inj hholder

/-- A grant does not overtake what another thread has read or counted. -/
theorem Sound.others (h : Sound fp n s) {lock current : Nat}
    (ht : s.pc t = .advance fp lock current) (hu : u ≠ t) :
    PcSound fp (n + 1) s.shared u (s.pc u) := by
  have hpc := h.places u
  have hpending : Pending fp (s.pc t) = some lock := by rw [ht, Pending, if_pos rfl]
  have hholding : Holding (s.pc t) = some lock := by rw [ht]; rfl
  refine ⟨hpc.lock, hpc.held, hpc.guarded, hpc.room, ?_, ?_⟩
  · intro l v hv
    exact (hu (h.exclusive hpending hholding (by rw [hv, Pending, if_pos rfl])
      (by rw [hv]; rfl))).elim
  · intro l c hc
    exact (hu (h.exclusive hpending hholding (by rw [hc, Pending, if_pos rfl])
      (by rw [hc]; rfl))).elim

theorem sound_start {persist : GcmPersist} (hfile : persist.onFile = true)
    (hintact : persist.broken = false) (fp : Fingerprint) :
    Sound fp 0 (⟨{ persist }, fun _ => .idle⟩ : GcmThreads T) :=
  ⟨⟨hfile, hintact, Nat.zero_le _, nofun⟩, fun _ => PcSound.outside rfl rfl nofun⟩

variable [DecidableEq T]

theorem goto_sound {r : GcmShared T × GcmPc} (hstep : StepSound fp m s.shared t r)
    (hothers : ∀ u, u ≠ t → PcSound fp m s.shared u (s.pc u))
    (hlock : ∀ u l, u ≠ t → Pending fp (s.pc u) = some l → r.1.locks fp = some l) :
    Sound fp m (s.goto t r) := by
  refine ⟨hstep.shared, fun u => ?_⟩
  by_cases hu : u = t
  · subst hu
    simp only [goto, update_self]
    exact hstep.own
  · simp only [goto, update_of_ne hu]
    exact (hothers u hu).mono hstep.quiet hu fun l hl => hlock u l hu hl

theorem sound_invoke (h : Sound fp n s) (call : GcmCall) :
    Sound fp n (step s (.invoke t call)) := by
  simp only [step]
  split
  · refine goto_sound (stepSound_stay h.shared ?_) (fun u _ => h.places u)
      fun u l _ hl => (h.places u).lock l hl
    cases call with
    | reserve | evict | reset => exact PcSound.outside rfl rfl nofun
  · exact h

theorem sound_advance (h : Sound fp n s) (hkeeps : KeepsLock fp s (.advance t)) :
    Sound fp (n + if Grants fp s (.advance t) then 1 else 0) (step s (.advance t)) := by
  have hlock : ∀ u l, u ≠ t → Pending fp (s.pc u) = some l →
      (next s.shared t (s.pc t)).1.locks fp = some l := by
    intro u l _ hl
    refine next_locks (fun hunlocking => ?_) ((h.places u).lock l hl)
    rw [hkeeps hunlocking u] at hl
    cases hl
  by_cases hadvance : ∃ lock current, s.pc t = .advance fp lock current
  · obtain ⟨lock, current, ht⟩ := hadvance
    have hp := h.places t
    rw [ht] at hp
    have hgrants : Grants fp s (.advance t) := by
      simp only [Grants, ht, true_and]
      exact (s.shared.persist.recordAdvance_spec fp
        (hp.room fp lock current rfl)).2.1.mpr h.shared.intact
    have hstep := stepSound_advance h.shared hp
    rw [if_pos rfl, ← ht] at hstep
    rw [if_pos hgrants]
    exact goto_sound hstep (fun u hu => h.others ht hu) hlock
  · have hnot : ¬ Grants fp s (.advance t) := by
      intro hgrants
      simp only [Grants] at hgrants
      split at hgrants
      · next fp' lock current ht =>
        obtain ⟨rfl, _⟩ := hgrants
        exact hadvance ⟨lock, current, ht⟩
      · exact hgrants
    rw [if_neg hnot]
    exact goto_sound (next_sound h.shared (h.places t) fun lock current ht =>
      hadvance ⟨lock, current, ht⟩) (fun u _ => h.places u) hlock

theorem sound_run {events : List (GcmStep T)} (h : Sound fp 0 s)
    (hkeeps : Along step (KeepsLock fp) s events) :
    Sound fp (count step (Grants fp) s events) (run step s events) := by
  refine induction_snoc (I := fun es r => Sound fp (count step (Grants fp) s es) r) h ?_ hkeeps
  intro es e hes _ he
  rw [count_snoc, run_snoc]
  cases e with
  | invoke t call =>
    rw [if_neg (by simp [Grants])]
    exact sound_invoke hes call
  | advance t => exact sound_advance hes he

omit [DecidableEq T] in
/-- A journal that is broken stays as it is. -/
theorem next_of_broken {s : GcmShared T} {p : GcmPc} (h : s.persist.broken = true) :
    (next s t p).1.persist = s.persist := by
  obtain ⟨hadvance, hflush, hpoison⟩ := GcmPersist.of_broken h
  cases p with
  | advance fp lock current =>
    have hkept := (hadvance fp (current + 1)).2
    simp only [next]
    split <;> next heq => exact (congrArg Prod.snd heq).symm.trans hkept
  | evictFlush caller victims =>
    cases victims with
    | nil => rfl
    | cons e victims =>
      have hkept := hflush e.1 e.2
      simp only [next]
      split <;> next heq => exact (congrArg Prod.snd heq).symm.trans hkept
  | poison fp lock => exact hpoison fp
  | dropCounter caller fps victims =>
    cases fps with
    | nil => rfl
    | cons fp rest =>
      simp only [next]
      split <;> rfl
  | idle | tick | evictSnapshot | dropLock | evictLock | unlock | resetLock => rfl
  | hydrate =>
    simp only [next]
    split
    · rfl
    · split <;> rfl
  | lockGet | lockInsert | lockAcquire | readPersisted | evictCounter | resetCounter =>
    simp only [next]
    split <;> rfl

/-- A broken journal grants nothing. -/
theorem count_of_broken {persist : GcmPersist} (h : persist.broken = true)
    (events : List (GcmStep T)) :
    count step (Grants fp) ⟨{ persist }, fun _ => .idle⟩ events = 0 := by
  suffices hrun : (run step (⟨{ persist }, fun _ => .idle⟩ : GcmThreads T)
      events).shared.persist.broken = true ∧
      count step (Grants fp) ⟨{ persist }, fun _ => .idle⟩ events = 0 from hrun.2
  refine induction_snoc (I := fun es (r : GcmThreads T) => r.shared.persist.broken = true ∧
    count step (Grants fp) ⟨{ persist }, fun _ => .idle⟩ es = 0) ⟨h, rfl⟩ ?_ (along_true events)
  rintro es e ⟨hbroken, hnone⟩ - -
  rw [count_snoc, run_snoc, hnone]
  cases e with
  | invoke t call =>
    refine ⟨?_, by simp [Grants]⟩
    simp only [step]
    split <;> exact hbroken
  | advance t =>
    refine ⟨(congrArg GcmPersist.broken (next_of_broken hbroken)).trans hbroken, ?_⟩
    have hnot : ¬ Grants fp (run step ⟨{ persist }, fun _ => .idle⟩ es) (.advance t) := by
      simp only [Grants]
      split
      · exact fun hgrants => ((GcmPersist.of_broken hbroken).1 _ _).1 hgrants.2
      · exact fun hgrants => hgrants
    rw [if_neg hnot]

/-- **The budget of a key holds under every interleaving** of reservations, evictions and resets
by any threads on a journal file, as long as the mutex of the key is not removed between a call
taking it and recording its advance. -/
theorem budget_holds_concurrently (persist : GcmPersist) (hfile : persist.onFile = true)
    (fp : Fingerprint) (events : List (GcmStep T))
    (hkeeps : Along step (KeepsLock fp) ⟨{ persist }, fun _ => .idle⟩ events) :
    count step (Grants fp) ⟨{ persist }, fun _ => .idle⟩ events ≤ 2 ^ 32 := by
  cases hbroken : persist.broken with
  | true =>
    rw [count_of_broken hbroken]
    exact Nat.zero_le _
  | false =>
    have h := (sound_run (sound_start hfile hbroken fp) hkeeps).shared.granted
    exact Nat.le_trans h (GcmPersist.stored_le_limit _ fp)

end Runs

/-- A new journal file. -/
def emptyFile : GcmPersist := .fileBacked ⟨[], [], fun _ => none, false⟩

/-- No call has been made yet. -/
def newProcess : GcmThreads Bool := ⟨{ persist := emptyFile }, fun _ => .idle⟩

instance (fp : Fingerprint) (s : GcmThreads Bool) (e : GcmStep Bool) :
    Decidable (KeepsLock fp s e) := by
  unfold KeepsLock
  split <;> infer_instance

/-- One thread makes a reservation; the other resets the key and makes one. -/
def resetBetween (fp : Fingerprint) : List (GcmStep Bool) :=
  .invoke true (.reserve fp) :: List.replicate 8 (.advance true) ++
  .invoke false (.reset fp) :: List.replicate 2 (.advance false) ++
  .invoke false (.reserve fp) :: List.replicate 8 (.advance false)

/-- Both are granted. -/
theorem budget_holds_concurrently_reset :
    count step (Grants (numbered 1)) newProcess (resetBetween (numbered 1)) = 2 ∧
      count step (Grants (numbered 1)) newProcess (resetBetween (numbered 1)) ≤ 2 ^ 32 :=
  ⟨by decide +kernel, budget_holds_concurrently emptyFile rfl (numbered 1) _ (by decide +kernel)⟩

/-! ### A value that is read too early -/

section Stale
variable (fp : Fingerprint)

/-- A reservation that finds the mutex of its key. -/
def again : List (GcmStep Bool) := .invoke false (.reserve fp) :: List.replicate 7 (.advance false)

/-- The first thread reads the persisted count and is held up; the second resets the key and makes
a reservation. -/
def opening : List (GcmStep Bool) :=
  .invoke true (.reserve fp) :: List.replicate 4 (.advance true) ++
  .invoke false (.reset fp) :: List.replicate 2 (.advance false) ++
  .invoke false (.reserve fp) :: List.replicate 8 (.advance false)

/-- The second thread resets the key again, and the first one goes on. -/
def closing : List (GcmStep Bool) :=
  .invoke false (.reset fp) :: List.replicate 2 (.advance false) ++ List.replicate 4 (.advance true)

def staleRun (n : Nat) : List (GcmStep Bool) :=
  opening fp ++ (List.replicate n (again fp)).flatten ++ closing fp

/-- The first thread is held up; the second has made `n` reservations. -/
structure Ready (n : Nat) (s : GcmThreads Bool) : Prop where
  stale : s.pc true = .hydrate fp 0 0
  idle : s.pc false = .idle
  lock : s.shared.locks fp = some 1
  free : s.shared.holder 1 = none
  unguarded : s.shared.guard fp = none
  counters : s.shared.counters = [(fp, n)]
  intact : s.shared.persist.broken = false
  usable : (s.shared.persist.persistedState fp).2 = false

variable {fp} {n : Nat} {s : GcmThreads Bool}

/-- What the journal answers, as the second thread meets it. -/
theorem recordAdvance_usable {p : GcmPersist} (fp : Fingerprint) (hn : n ≤ aesGcmNonceLimit)
    (hintact : p.broken = false) (husable : (p.persistedState fp).2 = false) :
    ∃ q, p.recordAdvance fp n = (.ok (), q) ∧ q.broken = false ∧
      (q.persistedState fp).2 = false := by
  obtain ⟨hgrows, hok, _⟩ := p.recordAdvance_spec fp hn
  refine ⟨(p.recordAdvance fp n).2, Prod.ext (hok.mpr hintact) rfl, hgrows.broken.trans hintact, ?_⟩
  rw [GcmPersist.recordAdvance_poisoned hintact, husable]

-- The threads are run symbolically: what a step does is read off its place.
attribute [local simp] run count step goto next start Grants GcmShared.insertLock
  GcmShared.takeEntry GcmShared.releaseEntry Counters.get Counters.set Counters.remove

theorem ready_opening (fp : Fingerprint) : Ready fp 1 (run step newProcess (opening fp)) ∧
    count step (Grants fp) newProcess (opening fp) = 1 := by
  obtain ⟨q, hq, hintact, husable⟩ :=
    recordAdvance_usable (n := 1) (p := emptyFile) fp (by decide) rfl rfl
  have hpersisted : emptyFile.persistedState fp = (0, false) := rfl
  have hroom : ¬ aesGcmNonceLimit ≤ 0 := by decide
  have hsmall : ¬ gcmCounterMapMax < 1 := by decide
  constructor
  · constructor <;> simp [opening, newProcess, *]
  · simp [opening, newProcess, *]

theorem ready_again (h : Ready fp n s) (hn : n < aesGcmNonceLimit) :
    Ready fp (n + 1) (run step s (again fp)) ∧ count step (Grants fp) s (again fp) = 1 := by
  obtain ⟨q, hq, hintact, husable⟩ := recordAdvance_usable fp hn h.intact h.usable
  obtain ⟨⟨persist, counters, tick, locks, nextLock, holder, guard⟩, pc⟩ := s
  obtain ⟨hstale, hidle, hlock, hfree, hguard, hcounters, _, husable'⟩ := h
  dsimp only at *
  subst hcounters
  have hroom : ¬ aesGcmNonceLimit ≤ n := Nat.not_le.mpr hn
  have hsmall : ¬ gcmCounterMapMax < 1 := by decide
  constructor
  · constructor <;> simp [again, *]
  · simp [again, *]

/-- Only the number of reservations is left of a loop of them. -/
theorem ready_loop (h : Ready fp n s) (m : Nat) (hm : n + m ≤ aesGcmNonceLimit) :
    Ready fp (n + m) (run step s (List.replicate m (again fp)).flatten) ∧
      count step (Grants fp) s (List.replicate m (again fp)).flatten = m := by
  induction m generalizing n s with
  | zero => exact ⟨h, rfl⟩
  | succ m ih =>
    obtain ⟨hready, hcount⟩ := ready_again h (by omega)
    obtain ⟨hready', hcount'⟩ := ih hready (by omega)
    rw [List.replicate_succ, List.flatten_cons, run_append, count_append, hcount, hcount']
    refine ⟨?_, Nat.add_comm 1 m⟩
    rw [Nat.add_right_comm] at hready'
    exact hready'

/-- The value that was read at the start is below the limit, so the last reservation is granted. -/
theorem closing_grants (h : Ready fp n s) :
    count step (Grants fp) s (closing fp) = 1 ∧ ∀ t, (run step s (closing fp)).pc t = .idle := by
  obtain ⟨q, hq, _, _⟩ := recordAdvance_usable (n := 1) fp (by decide) h.intact h.usable
  obtain ⟨⟨persist, counters, tick, locks, nextLock, holder, guard⟩, pc⟩ := s
  obtain ⟨hstale, hidle, hlock, hfree, hguard, hcounters, _, husable'⟩ := h
  dsimp only at *
  subst hcounters
  have hroom : ¬ aesGcmNonceLimit ≤ 0 := by decide
  have hsmall : ¬ gcmCounterMapMax < 1 := by decide
  constructor
  · simp [closing, *]
  · intro t
    cases t <;> simp [closing, *]

/-- A key is granted one more than its budget, on a new journal file and without a failure: the
first thread reads the persisted count, the key is reset, the second thread uses the whole budget
under a new mutex, and after another reset the first one starts from what it read. -/
theorem stale_read_exceeds_budget :
    count step (Grants (numbered 1)) newProcess
        (staleRun (numbered 1) (2 ^ 32 - 1)) = 2 ^ 32 + 1 ∧
      ∀ t, (run step newProcess (staleRun (numbered 1) (2 ^ 32 - 1))).pc t = .idle := by
  obtain ⟨hopen, hcount⟩ := ready_opening (numbered 1)
  obtain ⟨hloop, hcount'⟩ := ready_loop hopen (2 ^ 32 - 1) (by decide)
  obtain ⟨hclose, hidle⟩ := closing_grants hloop
  rw [staleRun]
  constructor
  · rw [count_append, count_append, run_append, hcount, hcount', hclose]
    omega
  · rw [run_append, run_append]
    exact hidle

end Stale

end GcmThreads

end CratonHsm.Awslc
