import CratonHsm.GcmCounter

/-!
# Exhausted keys of the OpenSSL backend

`check_gcm_usage`, `reset_gcm_counter` and `evict_gcm_counters` of `craton-hsm-openssl/src/lib.rs`,
as programs of threads that interleave at every operation on the two maps and on the journal.  A key
that reaches the limit goes into the set of poisoned keys and into the journal, and its counter is
removed.

A key that is in the set, or poisoned in the journal, is refused from then on, and so is every key
once the file has failed its integrity check (`Blocked`).  But the set has a cap, and at the limit
nobody looks whether it took the key.  If the journal does not take it either, the key is forgotten:
its counter is gone, and the next call begins to count anew.

The entry of the counter map is locked from the look at the count until the count is exchanged, so
this is one step.  A walk over the map is one step as well.
-/

namespace CratonHsm.Openssl
open GuardedRun PrefixFreeCode Function List Option
open CratonHsm.Awslc (Fingerprint Counters PersistEntry Known entryOrDefault)
open CratonHsm.Awslc.GcmProcess (numbered numbered_inj)

/-- The errors of the nonce checks. -/
inductive HsmError where
  | keyFunctionNotPermitted
  | deviceMemory
  | generalError
  deriving DecidableEq

/-- The result of a call. -/
abbrev HsmResult := Except HsmError Unit

def aesGcmNonceLimit : Nat := 2 ^ 32

def gcmCounterMapSoftCap : Nat := 1000000

def gcmPoisonedHardCap : Nat := 1048576

def gcmLoadTimePoisonWindow : Nat := 1024

def batchThreshold : Nat := 1024

/-! ## The journal -/

/-- The journal as the process sees it.  The file is not read again after it was opened; whether a
write to it succeeds comes with the step that makes it. -/
inductive PersistentGcmCounter where
  | inMemory
  | fileBacked (known : Known) (integrityFailed : Bool)

namespace PersistentGcmCounter

/-- The ceiling of a key, and whether it is poisoned. -/
def persistedState (p : PersistentGcmCounter) (fp : Fingerprint) : Nat × Bool :=
  match p with
  | .inMemory => (0, false)
  | .fileBacked known integrityFailed =>
    if integrityFailed && (known fp).isSome then (aesGcmNonceLimit, true)
    else
      match known fp with
      | some e => (e.persisted, e.poisoned)
      | none => (0, false)

/-- The journal is told of a count. -/
def recordAdvance (p : PersistentGcmCounter) (fp : Fingerprint) (newCount : Nat) (wrote : Bool) :
    HsmResult × PersistentGcmCounter :=
  match p with
  | .inMemory => (.ok (), p)
  | .fileBacked known integrityFailed =>
    let e := entryOrDefault known fp
    if integrityFailed then (.error .generalError, p)
    else if e.persisted ≠ 0 ∧ newCount ≤ e.persisted then (.ok (), p)
    else if !wrote then (.error .generalError, p)
    else
      (.ok (), .fileBacked (Function.update known fp
        (some { e with persisted := min (newCount + batchThreshold) aesGcmNonceLimit })) false)

/-- `record_poison`; its callers only log the error. -/
def recordPoison (p : PersistentGcmCounter) (fp : Fingerprint) (wrote : Bool) :
    PersistentGcmCounter :=
  match p with
  | .inMemory => p
  | .fileBacked known integrityFailed =>
    if integrityFailed || !wrote then p
    else .fileBacked (Function.update known fp (some ⟨aesGcmNonceLimit, true⟩)) false

/-- The file failed its integrity check. -/
def broken : PersistentGcmCounter → Bool
  | .inMemory => false
  | .fileBacked _ integrityFailed => integrityFailed

end PersistentGcmCounter

/-! ## Threads -/

/-- A call that a thread can make. -/
inductive GcmCall where
  | check (fp : Fingerprint)
  | reset (fp : Fingerprint)
  | evict (maxEntries : Nat)

/-- Where `poison_insert_capped` is called from, with the count that was read. -/
inductive Site where
  | onDisk (base : Nat)
  | atLoad (base : Nat)
  | atLimit

/-- Where `evict_gcm_counters` stands. -/
inductive EvictPc where
  | len
  | exhausted
  | lenAgain
  | lenNow
  | walk (evictCount : Nat)
  | retain (threshold : Nat × Nat)
  | last

/-- Where a call stands: before each operation on a map or the journal. -/
inductive GcmPc where
  /-- before `persisted_state` -/
  | readState (fp : Fingerprint)
  /-- before the look into the set that guards the poisoning at load -/
  | lookAtLoad (fp : Fingerprint) (base : Nat)
  /-- the three operations of `poison_insert_capped` -/
  | poisonContains (fp : Fingerprint) (site : Site)
  | poisonLen (fp : Fingerprint) (site : Site)
  | poisonInsert (fp : Fingerprint) (site : Site)
  /-- before `record_poison` of a key poisoned at load -/
  | recordAtLoad (fp : Fingerprint) (base : Nat)
  /-- before the look into the set that refuses the call -/
  | lookPoisoned (fp : Fingerprint) (base : Nat)
  /-- before `AES_GCM_COUNTERS.entry` -/
  | count (fp : Fingerprint) (base : Nat)
  /-- before `AES_GCM_COUNTERS.remove` of a key at the limit -/
  | removeCounter (fp : Fingerprint)
  /-- before its `record_poison` -/
  | recordAtLimit (fp : Fingerprint)
  /-- before `record_advance` -/
  | recordAdvance (fp : Fingerprint) (newCount : Nat)
  /-- before the look at the size of the map -/
  | size (fp : Fingerprint)
  /-- in an eviction, of its own or at the end of a check -/
  | evict (caller : Option Fingerprint) (maxEntries : Nat) (pc : EvictPc)
  /-- `reset_gcm_counter` before its look into the set, and before the removal -/
  | resetLook (fp : Fingerprint)
  | resetRemove (fp : Fingerprint)

/-- A call goes on or returns. -/
inductive Next where
  | goto (p : GcmPc)
  | done (r : HsmResult)

/-- What the threads share. -/
structure GcmShared where
  counters : Counters := []
  poisoned : List Fingerprint := []
  persist : PersistentGcmCounter

/-- The words of a fingerprint, xored. -/
def fpHash (fp : Fingerprint) : Nat :=
  [0, 8, 16, 24].foldl (fun acc i => acc ^^^ ofLittleEndian (slice fp.bytes i (i + 8))) 0

/-- The order in which keys are dropped. -/
def evictKey (e : Fingerprint × Nat) : Nat × Nat := (e.2, fpHash e.1)

def keyLe (a b : Nat × Nat) : Bool := a.1 < b.1 || (a.1 == b.1 && a.2 ≤ b.2)

/-- The largest of the `evictCount + 1` smallest keys. -/
def evictThreshold (counters : Counters) (evictCount : Nat) : Option (Nat × Nat) :=
  (((counters.map evictKey).mergeSort keyLe).take (evictCount + 1)).getLast?

/-- What follows `poison_insert_capped`.  At the limit its result is not looked at. -/
def afterPoison (fp : Fingerprint) (taken : Bool) : Site → Next
  | .onDisk base => if taken then .goto (.lookPoisoned fp base) else .done (.error .deviceMemory)
  | .atLoad base => if taken then .goto (.recordAtLoad fp base) else .done (.error .deviceMemory)
  | .atLimit => .goto (.removeCounter fp)

namespace GcmShared

def evictNext (s : GcmShared) (caller : Option Fingerprint) (maxEntries : Nat) :
    EvictPc → GcmShared × Next
  | .len =>
    (s, if s.counters.length ≤ maxEntries then .done (.ok ())
      else .goto (.evict caller maxEntries .exhausted))
  | .exhausted =>
    ({ s with counters := s.counters.filter (·.2 < aesGcmNonceLimit) },
      .goto (.evict caller maxEntries .lenAgain))
  | .lenAgain =>
    (s, if s.counters.length ≤ maxEntries then .done (.ok ())
      else .goto (.evict caller maxEntries .lenNow))
  | .lenNow =>
    (s, if s.counters.length ≤ maxEntries then .done (.ok ())
      else .goto (.evict caller maxEntries (.walk (s.counters.length - maxEntries))))
  | .walk evictCount =>
    (s, match evictThreshold s.counters evictCount with
      | none => .done (.ok ())
      | some threshold => .goto (.evict caller maxEntries (.retain threshold)))
  | .retain threshold =>
    ({ s with counters := s.counters.filter fun e => keyLe threshold (evictKey e) },
      .goto (.evict caller maxEntries .last))
  | .last =>
    (s, .done (if maxEntries < s.counters.length then .error .deviceMemory else .ok ()))

/-- One step of a call from a place. -/
def next (s : GcmShared) (wrote : Bool) : GcmPc → GcmShared × Next
  | .readState fp =>
    let (base, diskPoisoned) := s.persist.persistedState fp
    (s, if diskPoisoned then .goto (.poisonContains fp (.onDisk base))
      else if base ≠ 0 ∧ aesGcmNonceLimit - gcmLoadTimePoisonWindow ≤ base then
        .goto (.lookAtLoad fp base)
      else .goto (.lookPoisoned fp base))
  | .lookAtLoad fp base =>
    (s, if fp ∈ s.poisoned then .goto (.lookPoisoned fp base)
      else .goto (.poisonContains fp (.atLoad base)))
  | .poisonContains fp site =>
    (s, if fp ∈ s.poisoned then afterPoison fp true site else .goto (.poisonLen fp site))
  | .poisonLen fp site =>
    (s, if gcmPoisonedHardCap ≤ s.poisoned.length then afterPoison fp false site
      else .goto (.poisonInsert fp site))
  | .poisonInsert fp site =>
    ({ s with poisoned := s.poisoned.insert fp }, afterPoison fp true site)
  | .recordAtLoad fp base =>
    ({ s with persist := s.persist.recordPoison fp wrote }, .goto (.lookPoisoned fp base))
  | .lookPoisoned fp base =>
    (s, if fp ∈ s.poisoned then .done (.error .keyFunctionNotPermitted)
      else .goto (.count fp base))
  | .count fp base =>
    let cur := (Counters.get s.counters fp).getD base
    if aesGcmNonceLimit ≤ cur + 1 then
      ({ s with counters := Counters.set s.counters fp cur }, .goto (.poisonContains fp .atLimit))
    else
      ({ s with counters := Counters.set s.counters fp (cur + 1) },
        .goto (.recordAdvance fp (cur + 1)))
  | .removeCounter fp =>
    ({ s with counters := Counters.remove s.counters fp }, .goto (.recordAtLimit fp))
  | .recordAtLimit fp =>
    ({ s with persist := s.persist.recordPoison fp wrote },
      .done (.error .keyFunctionNotPermitted))
  | .recordAdvance fp newCount =>
    match s.persist.recordAdvance fp newCount wrote with
    | (.error e, persist) => ({ s with persist := persist }, .done (.error e))
    | (.ok (), persist) => ({ s with persist := persist }, .goto (.size fp))
  | .size fp =>
    (s, if gcmCounterMapSoftCap + gcmCounterMapSoftCap / 20 < s.counters.length then
        .goto (.evict (some fp) gcmCounterMapSoftCap .len)
      else .done (.ok ()))
  | .evict caller maxEntries pc => s.evictNext caller maxEntries pc
  | .resetLook fp =>
    (s, if fp ∈ s.poisoned then .done (.ok ()) else .goto (.resetRemove fp))
  | .resetRemove fp => ({ s with counters := Counters.remove s.counters fp }, .done (.ok ()))

end GcmShared

/-- The key that a call is a check of. -/
def GcmPc.checks : GcmPc → Option Fingerprint
  | .readState fp | .lookAtLoad fp _ | .poisonContains fp _ | .poisonLen fp _ | .poisonInsert fp _
  | .recordAtLoad fp _ | .lookPoisoned fp _ | .count fp _ | .removeCounter fp | .recordAtLimit fp
  | .recordAdvance fp _ | .size fp => some fp
  | .evict caller _ _ => caller
  | .resetLook _ | .resetRemove _ => none

/-- Where a call begins. -/
def GcmCall.start : GcmCall → GcmPc
  | .check fp => .readState fp
  | .reset fp => .resetLook fp
  | .evict maxEntries => .evict none maxEntries .len

def Next.place : Next → Option GcmPc
  | .goto p => some p
  | .done _ => none

/-- The process; `none` is a thread that is not in a call. -/
structure GcmThreads (T : Type) where
  shared : GcmShared
  pc : T → Option GcmPc

/-- A thread begins a call or makes its next step; `wrote` says whether the journal takes a write.
-/
inductive GcmStep (T : Type) where
  | invoke (t : T) (call : GcmCall)
  | advance (t : T) (wrote : Bool)

namespace GcmThreads
variable {T : Type} [DecidableEq T]

/-- The process when the journal has been opened. -/
def start (persist : PersistentGcmCounter) : GcmThreads T := ⟨{ persist := persist }, fun _ => none⟩

/-- One step of a thread. -/
def step (s : GcmThreads T) : GcmStep T → GcmThreads T
  | .invoke t call =>
    match s.pc t with
    | none => { s with pc := Function.update s.pc t (some call.start) }
    | some _ => s
  | .advance t wrote =>
    match s.pc t with
    | none => s
    | some p =>
      ⟨(s.shared.next wrote p).1, Function.update s.pc t (s.shared.next wrote p).2.place⟩

/-- What a check returns in this step, with its key. -/
def answer (s : GcmThreads T) : GcmStep T → Option (Fingerprint × HsmResult)
  | .invoke _ _ => none
  | .advance t wrote =>
    match s.pc t with
    | none => none
    | some p =>
      match (s.shared.next wrote p).2 with
      | .goto _ => none
      | .done r => p.checks.map (·, r)

end GcmThreads

/-! ## A blocked key stays blocked -/

variable {fp : Fingerprint} {wrote : Bool}

namespace PersistentGcmCounter
variable {p q : PersistentGcmCounter}

/-- No poison record is lost, and a broken file stays as it is. -/
structure Grows (p q : PersistentGcmCounter) : Prop where
  poisoned : ∀ fp, (p.persistedState fp).2 = true → (q.persistedState fp).2 = true
  broken : q.broken = p.broken

theorem Grows.refl (p : PersistentGcmCounter) : Grows p p := ⟨fun _ => id, rfl⟩

/-- An entry of an intact file is replaced by one that is poisoned if it was. -/
theorem grows_update {known : Known} {e : PersistEntry}
    (he : (entryOrDefault known fp).poisoned = true → e.poisoned = true) :
    Grows (.fileBacked known false) (.fileBacked (update known fp (some e)) false) := by
  refine ⟨fun fp' h => ?_, rfl⟩
  simp only [persistedState, Bool.false_and, Bool.false_eq_true, if_false] at h ⊢
  by_cases hfp : fp' = fp
  · subst hfp
    rw [update_self]
    apply he
    rw [entryOrDefault]
    cases hk : known fp' with
    | none =>
      rw [hk] at h
      cases h
    | some e' =>
      rw [hk] at h
      exact h
  · rw [update_of_ne hfp]
    exact h

theorem recordAdvance_grows (p : PersistentGcmCounter) (fp : Fingerprint) (n : Nat)
    (wrote : Bool) : Grows p (p.recordAdvance fp n wrote).2 := by
  cases p with
  | inMemory => exact .refl _
  | fileBacked known integrityFailed =>
    cases integrityFailed with
    | true => exact .refl _
    | false =>
      simp only [recordAdvance, Bool.false_eq_true, if_false]
      split
      · exact .refl _
      split
      · exact .refl _
      · exact grows_update id

theorem recordPoison_grows (p : PersistentGcmCounter) (fp : Fingerprint) (wrote : Bool) :
    Grows p (p.recordPoison fp wrote) := by
  cases p with
  | inMemory => exact .refl _
  | fileBacked known integrityFailed =>
    rw [recordPoison]
    split
    · exact .refl _
    next h =>
    obtain ⟨rfl, _⟩ : integrityFailed = false ∧ wrote = true := by simpa using h
    exact grows_update fun _ => rfl

theorem recordAdvance_of_broken (h : p.broken = true) (fp : Fingerprint) (n : Nat) (wrote : Bool) :
    p.recordAdvance fp n wrote = (.error .generalError, p) := by
  cases p with
  | inMemory => cases h
  | fileBacked known integrityFailed =>
    obtain rfl : integrityFailed = true := h
    rfl

theorem recordAdvance_ne {n : Nat} :
    p.recordAdvance fp n wrote ≠ (.error .keyFunctionNotPermitted, q) := by
  cases p with
  | inMemory => nofun
  | fileBacked known integrityFailed =>
    simp only [recordAdvance]
    split
    · nofun
    split
    · nofun
    split <;> nofun

/-- The journal keeps the poison record, or refuses everything. -/
def Takes (p : PersistentGcmCounter) (wrote : Bool) : Prop :=
  match p with
  | .inMemory => False
  | .fileBacked _ integrityFailed => integrityFailed = true ∨ wrote = true

theorem recordPoison_takes (fp : Fingerprint) (h : p.Takes wrote) :
    ((p.recordPoison fp wrote).persistedState fp).2 = true ∨
      (p.recordPoison fp wrote).broken = true := by
  cases p with
  | inMemory => cases h
  | fileBacked known integrityFailed =>
    cases integrityFailed with
    | true => exact .inr rfl
    | false =>
      obtain rfl : wrote = true := h.resolve_left nofun
      left
      simp [recordPoison, persistedState]

end PersistentGcmCounter

namespace GcmShared
variable {s s' : GcmShared}

/-- The key is in the set or poisoned in the journal, or no key is served at all. -/
def Blocked (s : GcmShared) (fp : Fingerprint) : Prop :=
  fp ∈ s.poisoned ∨ (s.persist.persistedState fp).2 = true ∨ s.persist.broken = true

/-- No key is forgotten as poisoned. -/
structure Grows (s s' : GcmShared) : Prop where
  poisoned : ∀ fp ∈ s.poisoned, fp ∈ s'.poisoned
  persist : s.persist.Grows s'.persist

theorem grows_of_eq (hpoisoned : s'.poisoned = s.poisoned) (hpersist : s'.persist = s.persist) :
    Grows s s' := by
  refine ⟨fun fp h => ?_, ?_⟩
  · rw [hpoisoned]
    exact h
  · rw [hpersist]
    exact .refl _

theorem Blocked.grows (h : s.Blocked fp) (hgrows : Grows s s') : s'.Blocked fp := by
  rcases h with h | h | h
  · exact .inl (hgrows.poisoned fp h)
  · exact .inr (.inl (hgrows.persist.poisoned fp h))
  · exact .inr (.inr (hgrows.persist.broken.trans h))

/-- **No step takes a key out of the set or off the journal.** -/
theorem next_grows (s : GcmShared) (wrote : Bool) (p : GcmPc) : Grows s (s.next wrote p).1 := by
  cases p with
  | poisonInsert fp site =>
    exact ⟨fun _ h => mem_insert_of_mem h, .refl _⟩
  | recordAtLoad _ _ | recordAtLimit _ =>
    exact ⟨fun _ h => h, PersistentGcmCounter.recordPoison_grows ..⟩
  | recordAdvance fp n =>
    have hgrows := PersistentGcmCounter.recordAdvance_grows s.persist fp n wrote
    simp only [next]
    split
    next hrecord =>
      rw [hrecord] at hgrows
      exact ⟨fun _ h => h, hgrows⟩
    next hrecord =>
      rw [hrecord] at hgrows
      exact ⟨fun _ h => h, hgrows⟩
  | count fp base =>
    simp only [next]
    split <;> exact grows_of_eq rfl rfl
  | evict caller maxEntries pc => cases pc <;> exact grows_of_eq rfl rfl
  | _ => exact grows_of_eq rfl rfl

/-! ## A call that starts then cannot pass -/

end GcmShared

/-- The check has counted, and will return `Ok` unless the eviction fails. -/
def GcmPc.counted : GcmPc → Bool
  | .size _ => true
  | .evict caller _ _ => caller.isSome
  | _ => false

/-- The journal said that the key is poisoned. -/
def Site.fromDisk : Site → Bool
  | .onDisk _ => true
  | _ => false

/-- On the way to a refusal. -/
def GcmPc.Cornered (poisoned : List Fingerprint) : GcmPc → Prop
  | .readState _ => True
  | .poisonContains _ site | .poisonLen _ site | .poisonInsert _ site => site.fromDisk = true
  | .lookAtLoad fp _ | .lookPoisoned fp _ => fp ∈ poisoned
  | _ => False

namespace GcmShared
variable {s s' : GcmShared} {p : GcmPc}

/-- Where a check can be that started when its key was blocked. -/
structure Barred (fp : Fingerprint) (s : GcmShared) (p : GcmPc) : Prop where
  checks : p.checks = some fp
  uncounted : p.counted = false
  cornered : s.persist.broken = true ∨ p.Cornered s.poisoned

theorem Barred.grows (h : s.Barred fp p) (hgrows : Grows s s') : s'.Barred fp p := by
  refine ⟨h.checks, h.uncounted, h.cornered.imp (hgrows.persist.broken.trans ·) fun hc => ?_⟩
  cases p with
  | lookAtLoad fp' _ | lookPoisoned fp' _ => exact hgrows.poisoned fp' hc
  | _ => exact hc

/-- The call goes on to a place where it is barred, or fails. -/
def NextBarred (fp : Fingerprint) (s : GcmShared) : Next → Prop
  | .goto p => s.Barred fp p
  | .done r => r ≠ .ok ()

/-- After the insertion a key from the journal is in the set, or the call fails. -/
theorem nextBarred_afterPoison {taken : Bool} {site : Site}
    (h : s.persist.broken = true ∨ site.fromDisk = true ∧ (taken = true → fp ∈ s.poisoned)) :
    s.NextBarred fp (afterPoison fp taken site) := by
  cases site with
  | atLimit => exact ⟨rfl, rfl, h.imp_right fun h => by cases h.1⟩
  | onDisk base =>
    cases taken with
    | true => exact ⟨rfl, rfl, h.imp_right fun h => h.2 rfl⟩
    | false => nofun
  | atLoad base =>
    cases taken with
    | true => exact ⟨rfl, rfl, h.imp_right fun h => by cases h.1⟩
    | false => nofun

/-- **A step of a barred call.** -/
theorem Barred.next (h : s.Barred fp p) (hblocked : s.Blocked fp) (wrote : Bool) :
    (s.next wrote p).1.NextBarred fp (s.next wrote p).2 := by
  obtain ⟨hchecks, huncounted, hcornered⟩ := h
  cases p <;> cases hchecks
  case readState =>
    -- a key that the journal does not call poisoned is in the set
    have hset : (s.persist.persistedState fp).2 = false →
        s.persist.broken = true ∨ fp ∈ s.poisoned := by
      intro hdisk
      rcases hblocked with h | h | h
      · exact .inr h
      · rw [hdisk] at h
        cases h
      · exact .inl h
    simp only [GcmShared.next]
    split
    · exact ⟨rfl, rfl, .inr rfl⟩
    next hdisk =>
    have hset := hset ((Bool.not_eq_true _).mp hdisk)
    split <;> exact ⟨rfl, rfl, hset⟩
  case lookAtLoad =>
    simp only [GcmShared.next]
    split
    next hin => exact ⟨rfl, rfl, .inr hin⟩
    next hout => exact ⟨rfl, rfl, hcornered.imp_right fun hin => absurd hin hout⟩
  case poisonContains =>
    simp only [GcmShared.next]
    split
    next hin => exact nextBarred_afterPoison (hcornered.imp_right fun h => ⟨h, fun _ => hin⟩)
    · exact ⟨rfl, rfl, hcornered⟩
  case poisonLen =>
    simp only [GcmShared.next]
    split
    · exact nextBarred_afterPoison (hcornered.imp_right fun h => ⟨h, nofun⟩)
    · exact ⟨rfl, rfl, hcornered⟩
  case poisonInsert =>
    exact nextBarred_afterPoison
      (hcornered.imp_right fun h => ⟨h, fun _ => mem_insert_self ..⟩)
  case recordAtLoad =>
    have hbroken := hcornered.resolve_right id
    exact ⟨rfl, rfl, .inl ((PersistentGcmCounter.recordPoison_grows ..).broken.trans hbroken)⟩
  case lookPoisoned =>
    simp only [GcmShared.next]
    split
    · nofun
    next hout => exact ⟨rfl, rfl, hcornered.imp_right fun hin => absurd hin hout⟩
  case count =>
    have hbroken := hcornered.resolve_right id
    simp only [GcmShared.next]
    split <;> exact ⟨rfl, rfl, .inl hbroken⟩
  case removeCounter =>
    exact ⟨rfl, rfl, .inl (hcornered.resolve_right id)⟩
  case recordAtLimit => nofun
  case recordAdvance =>
    -- a broken file takes no advance
    simp only [GcmShared.next,
      PersistentGcmCounter.recordAdvance_of_broken (hcornered.resolve_right id)]
    nofun
  case size | evict => cases huncounted

end GcmShared

theorem afterPoison_ne {taken : Bool} {site : Site} :
    afterPoison fp taken site ≠ .done (.error .keyFunctionNotPermitted) := by
  cases site <;> cases taken <;> nofun

/-- The two places where a check is refused for its key. -/
theorem refusal {s : GcmShared} {p : GcmPc} (hchecks : p.checks = some fp)
    (h : (s.next wrote p).2 = .done (.error .keyFunctionNotPermitted)) :
    (∃ base, p = .lookPoisoned fp base ∧ fp ∈ s.poisoned) ∨ p = .recordAtLimit fp := by
  cases p with
  | lookPoisoned fp' base =>
    obtain rfl := some.inj hchecks
    simp only [GcmShared.next] at h
    split at h
    next hin => exact .inl ⟨base, rfl, hin⟩
    · cases h
  | recordAtLimit fp' =>
    obtain rfl := some.inj hchecks
    exact .inr rfl
  | poisonInsert fp' site => exact absurd h afterPoison_ne
  | poisonContains _ _ | poisonLen _ _ =>
    simp only [GcmShared.next] at h
    split at h
    · exact absurd h afterPoison_ne
    · cases h
  | recordAdvance fp' n =>
    simp only [GcmShared.next] at h
    split at h
    next e _ hrecord =>
      obtain rfl : e = .keyFunctionNotPermitted := by
        cases h
        rfl
      exact absurd hrecord PersistentGcmCounter.recordAdvance_ne
    · cases h
  | evict caller maxEntries pc =>
    cases pc <;> simp only [GcmShared.next, GcmShared.evictNext] at h <;> (try split at h) <;>
      cases h
  | readState fp' =>
    simp only [GcmShared.next] at h
    split at h
    · cases h
    · split at h <;> cases h
  | lookAtLoad _ _ | count _ _ | size _ =>
    simp only [GcmShared.next] at h
    split at h <;> cases h
  | recordAtLoad _ _ | removeCounter _ => cases h
  | resetLook _ | resetRemove _ => cases hchecks

namespace GcmThreads
variable {T : Type} {s : GcmThreads T} {t : T}

/-- The thread is in no call, or in one that cannot pass. -/
structure BarredAt (fp : Fingerprint) (t : T) (s : GcmThreads T) : Prop where
  blocked : s.shared.Blocked fp
  barred : ∀ p, s.pc t = some p → s.shared.Barred fp p

theorem BarredAt.answer (h : BarredAt fp t s) (wrote : Bool) :
    s.answer (.advance t wrote) ≠ some (fp, .ok ()) := by
  intro hanswer
  simp only [GcmThreads.answer] at hanswer
  split at hanswer
  · cases hanswer
  next p hp =>
  have hnext := (h.barred p hp).next h.blocked wrote
  generalize (s.shared.next wrote p).2 = r at hanswer hnext
  cases r with
  | goto q => cases hanswer
  | done r =>
    obtain ⟨_, _, hr⟩ := map_eq_some_iff.mp hanswer
    exact hnext (congrArg Prod.snd hr)

variable [DecidableEq T]

theorem shared_grows (s : GcmThreads T) (e : GcmStep T) : s.shared.Grows (s.step e).shared := by
  cases e with
  | invoke t call =>
    simp only [step]
    split <;> exact GcmShared.grows_of_eq rfl rfl
  | advance t wrote =>
    simp only [step]
    split
    · exact GcmShared.grows_of_eq rfl rfl
    · exact GcmShared.next_grows ..

theorem blocked_run (h : s.shared.Blocked fp) (events : List (GcmStep T)) :
    (run step s events).shared.Blocked fp :=
  induction_run (I := fun r : GcmThreads T => r.shared.Blocked fp)
    (fun r e hr _ => hr.grows (shared_grows r e)) h (along_true events)

/-- Steps of all threads, as long as this one makes no other call. -/
theorem BarredAt.step (h : BarredAt fp t s) {e : GcmStep T} (hcall : ∀ call, e ≠ .invoke t call) :
    BarredAt fp t (s.step e) := by
  refine ⟨h.blocked.grows (shared_grows s e), fun p hp => ?_⟩
  have hgrows := shared_grows s e
  cases e with
  | invoke u call =>
    have hne : t ≠ u := by
      rintro rfl
      exact hcall call rfl
    simp only [GcmThreads.step] at hp hgrows ⊢
    split at hp
    · dsimp only at hp
      rw [update_of_ne hne] at hp
      exact h.barred p hp
    · exact h.barred p hp
  | advance u wrote =>
    simp only [GcmThreads.step] at hp hgrows ⊢
    split at hp
    · exact h.barred p hp
    next q hq =>
    rw [hq] at hgrows
    dsimp only at hp
    by_cases htu : t = u
    · subst htu
      have hnext := (h.barred q hq).next h.blocked wrote
      rw [update_self] at hp
      generalize (s.shared.next wrote q).2 = r at hp hnext
      cases r with
      | goto q' =>
        obtain rfl := some.inj hp
        exact hnext
      | done r => cases hp
    · rw [update_of_ne htu] at hp
      exact (h.barred p hp).grows hgrows

/-- The refusal at the limit of a key that neither the set nor the journal has taken. -/
def Forgets (s : GcmThreads T) : GcmStep T → Prop
  | .invoke _ _ => False
  | .advance t wrote => ∃ fp, s.pc t = some (.recordAtLimit fp) ∧ fp ∉ s.shared.poisoned ∧
      ¬ s.shared.persist.Takes wrote

/-- A refused key is blocked, unless it is forgotten. -/
theorem blocked_of_refused
    (h : s.answer (.advance t wrote) = some (fp, .error .keyFunctionNotPermitted))
    (hkept : ¬ s.Forgets (.advance t wrote)) :
    (s.step (.advance t wrote)).shared.Blocked fp := by
  simp only [answer] at h
  split at h
  · cases h
  next p hp =>
  have hgrows := shared_grows s (.advance t wrote)
  cases hnext : (s.shared.next wrote p).2 with
  | goto q =>
    rw [hnext] at h
    cases h
  | done r =>
    rw [hnext] at h
    obtain ⟨fp', hchecks, hr⟩ := map_eq_some_iff.mp h
    obtain ⟨rfl, rfl⟩ := Prod.mk.inj hr
    rcases refusal hchecks hnext with ⟨base, rfl, hin⟩ | rfl
    · exact .inl (hgrows.poisoned _ hin)
    by_cases hin : fp' ∈ s.shared.poisoned
    · exact .inl (hgrows.poisoned _ hin)
    have htakes : s.shared.persist.Takes wrote := by
      by_contra hno
      exact hkept ⟨fp', hp, hin, hno⟩
    have hrecord := PersistentGcmCounter.recordPoison_takes fp' htakes
    have hstep : (s.step (.advance t wrote)).shared.persist =
        s.shared.persist.recordPoison fp' wrote := by
      simp only [step, hp]
      rfl
    rw [GcmShared.Blocked, hstep]
    exact .inr hrecord

/-- **A refused key stays refused**, unless neither the set nor the journal took it: no check of the
key that starts after the refusal returns `Ok`, whatever all threads do before, between and
meanwhile. -/
theorem stays_refused_of_taken (persist : PersistentGcmCounter)
    (before between meanwhile : List (GcmStep T)) (t u : T) (fp : Fingerprint)
    (wrote wrote' : Bool)
    (hrefused : (run GcmThreads.step (start persist) before).answer (.advance t wrote) =
      some (fp, .error .keyFunctionNotPermitted))
    (hkept : ¬ (run GcmThreads.step (start persist) before).Forgets (.advance t wrote))
    (hidle : (run GcmThreads.step (start persist) (before ++ .advance t wrote :: between)).pc u =
      none)
    (hcall : ∀ call, GcmStep.invoke u call ∉ meanwhile) :
    (run GcmThreads.step (start persist) (before ++ .advance t wrote :: between ++
      .invoke u (.check fp) :: meanwhile)).answer (.advance u wrote') ≠ some (fp, .ok ()) := by
  have hblocked : (run step (start persist)
      (before ++ .advance t wrote :: between)).shared.Blocked fp := by
    rw [run_append]
    exact blocked_run (blocked_of_refused hrefused hkept) between
  rw [run_append]
  generalize run step (start persist) (before ++ .advance t wrote :: between) = s at *
  have hstart : BarredAt fp u (s.step (.invoke u (.check fp))) := by
    refine ⟨hblocked.grows (shared_grows ..), fun p hp => ?_⟩
    simp only [step, hidle, update_self] at hp
    obtain rfl := some.inj hp
    exact ⟨rfl, rfl, .inr trivial⟩
  have hrun : BarredAt fp u
      (run step (s.step (.invoke u (.check fp))) meanwhile) := by
    refine induction_run (I := BarredAt fp u) (P := fun _ e => ∀ call, e ≠ .invoke u call)
      (fun _ _ hr he => hr.step he) hstart ?_
    exact along_of_forall fun _ e he call heq => hcall call (heq ▸ he)
  exact hrun.answer wrote'

/-! ## A key is forgotten -/

section Sample

/-- One thread without a journal, at a place or between two calls. -/
def single (counters : Counters) (poisoned : List Fingerprint) (pc : Option GcmPc) :
    GcmThreads Unit :=
  ⟨⟨counters, poisoned, .inMemory⟩, fun _ => pc⟩

/-- The first steps of a check. -/
def callSteps (fp : Fingerprint) (n : Nat) : List (GcmStep Unit) :=
  .invoke () (.check fp) :: List.replicate n (.advance () true)

/-- The map after `n` checks of one key. -/
def tally (fp : Fingerprint) (n : Nat) : Counters := if n = 0 then [] else [(fp, n)]

variable {poisoned : List Fingerprint} {n : Nat}

theorem update_unit {α : Type} (f : Unit → α) (v : α) : update f () v = fun _ => v :=
  funext fun _ => update_self ..

theorem get_tally (fp : Fingerprint) (n : Nat) : (Counters.get (tally fp n) fp).getD 0 = n := by
  rw [tally]
  split
  next h =>
    rw [h]
    rfl
  · simp [Counters.get]

theorem tally_succ (fp : Fingerprint) (n : Nat) : tally fp (n + 1) = [(fp, n + 1)] := rfl

theorem set_tally (fp : Fingerprint) (n m : Nat) : Counters.set (tally fp n) fp m = [(fp, m)] := by
  rw [tally]
  split <;> simp [Counters.set, Counters.get]

/-- Below the limit the key is counted. -/
theorem run_counted (hn : n + 1 < aesGcmNonceLimit) (hout : fp ∉ poisoned) :
    run step (single (tally fp n) poisoned none) (callSteps fp 4) =
      single (tally fp (n + 1)) poisoned (some (.size fp)) := by
  simp [run, callSteps, single, List.replicate, step, update_unit, GcmCall.start,
    GcmShared.next, PersistentGcmCounter.persistedState, PersistentGcmCounter.recordAdvance,
    Next.place, hout, get_tally, set_tally, Nat.not_le.mpr hn, tally_succ]

theorem run_returned (fp : Fingerprint) (n : Nat) (poisoned : List Fingerprint) :
    (single (tally fp (n + 1)) poisoned (some (.size fp))).step (.advance () true) =
      single (tally fp (n + 1)) poisoned none := by
  simp [single, step, update_unit, GcmShared.next, Next.place, tally_succ,
    gcmCounterMapSoftCap]

/-- Checks of one key, one after the other. -/
def checksOf (fp : Fingerprint) (n : Nat) : List (GcmStep Unit) :=
  (List.replicate n (callSteps fp 5)).flatten

theorem run_checksOf (hn : n < aesGcmNonceLimit) (hout : fp ∉ poisoned) :
    run step (single [] poisoned none) (checksOf fp n) =
      single (tally fp n) poisoned none := by
  induction n with
  | zero => rfl
  | succ n ih =>
    have hcall : callSteps fp 5 = callSteps fp 4 ++ [.advance () true] := rfl
    rw [checksOf, replicate_succ', flatten_append, flatten_singleton, ← checksOf,
      run_append, ih (by omega), hcall, run_snoc, run_counted hn hout, run_returned]

/-- At the limit the key is looked up in the set, which has no room for it or takes it. -/
theorem run_limit (hn : aesGcmNonceLimit ≤ n + 1) (hout : fp ∉ poisoned) :
    run step (single (tally fp n) poisoned none) (callSteps fp 4) =
      single [(fp, n)] poisoned (some (.poisonLen fp .atLimit)) := by
  simp [run, callSteps, single, List.replicate, step, update_unit, GcmCall.start,
    GcmShared.next, PersistentGcmCounter.persistedState, Next.place, hout, get_tally, set_tally, hn]

theorem run_taken (hout : fp ∉ poisoned) (hroom : poisoned.length < gcmPoisonedHardCap) :
    run step (single [(fp, n)] poisoned (some (.poisonLen fp .atLimit)))
      (List.replicate 4 (.advance () true)) = single [] (fp :: poisoned) none := by
  simp [run, single, List.replicate, step, update_unit, GcmShared.next, Next.place, hout,
    Nat.not_le.mpr hroom, afterPoison, Counters.remove, PersistentGcmCounter.recordPoison]

theorem run_passedOver (hfull : gcmPoisonedHardCap ≤ poisoned.length) :
    run step (single [(fp, n)] poisoned (some (.poisonLen fp .atLimit)))
      (List.replicate 2 (.advance () true)) = single [] poisoned (some (.recordAtLimit fp)) := by
  simp [run, single, List.replicate, step, update_unit, GcmShared.next, Next.place,
    hfull, afterPoison, Counters.remove]

/-- A key is checked up to the limit and beyond. -/
def exhaust (fp : Fingerprint) : List (GcmStep Unit) :=
  checksOf fp (aesGcmNonceLimit - 1) ++ callSteps fp 4

theorem run_exhaust (hout : fp ∉ poisoned) :
    run step (single [] poisoned none) (exhaust fp) =
      single [(fp, aesGcmNonceLimit - 1)] poisoned (some (.poisonLen fp .atLimit)) := by
  have hlt : aesGcmNonceLimit - 1 < aesGcmNonceLimit := by decide
  rw [exhaust, run_append, run_checksOf hlt hout, run_limit (by omega) hout]

/-- The first `n` numbered keys, the last one in front. -/
def filled (n : Nat) : List Fingerprint := ((List.range n).map numbered).reverse

theorem filled_succ (n : Nat) : filled (n + 1) = numbered n :: filled n := by
  rw [filled, range_succ, map_append, reverse_append]
  rfl

theorem length_filled (n : Nat) : (filled n).length = n := by
  rw [filled, length_reverse, length_map, length_range]

theorem numbered_notMem_filled (hn : n ≤ gcmPoisonedHardCap) : numbered n ∉ filled n := by
  intro h
  obtain ⟨i, hi, heq⟩ := mem_map.mp (mem_reverse.mp h)
  have hlt : i < n := mem_range.mp hi
  have hcap : gcmPoisonedHardCap < 256 ^ 32 := by decide
  have hsame := numbered_inj (by omega) (by omega) heq
  omega

/-- Each of the first `n` keys is exhausted. -/
def fill (n : Nat) : List (GcmStep Unit) :=
  (List.range n).flatMap fun i => exhaust (numbered i) ++ List.replicate 4 (.advance () true)

theorem run_fill (hn : n ≤ gcmPoisonedHardCap) :
    run step (start .inMemory) (fill n) = single [] (filled n) none := by
  induction n with
  | zero => rfl
  | succ n ih =>
    rw [fill, range_succ, flatMap_append, run_append, flatMap_singleton]
    show run step (run step (start .inMemory) (fill n)) _ = _
    rw [ih (by omega), run_append, run_exhaust (numbered_notMem_filled (by omega)),
      run_taken (numbered_notMem_filled (by omega)) (by rw [length_filled]; omega), filled_succ]

/-- A journal in which one key is poisoned. -/
def poisonedJournal : PersistentGcmCounter :=
  .fileBacked (fun fp => if fp = numbered 0 then some ⟨aesGcmNonceLimit, true⟩ else none) false

theorem stays_refused_of_taken_sample :
    (run GcmThreads.step (start poisonedJournal) (callSteps (numbered 0) 4 ++
      .advance () true :: [] ++ callSteps (numbered 0) 2)).answer (.advance () true) ≠
      some (numbered 0, .ok ()) := by
  apply stays_refused_of_taken poisonedJournal (callSteps (numbered 0) 4) []
    (List.replicate 2 (.advance () true)) () () (numbered 0) true true
  · decide
  · rintro ⟨fp, hpc, _⟩
    cases hpc
  · rfl
  · intro call h
    cases eq_of_mem_replicate h

/-- The key after the set is full. -/
def victim : Fingerprint := numbered gcmPoisonedHardCap

theorem answer_passedOver (fp : Fingerprint) (poisoned : List Fingerprint) :
    (single [] poisoned (some (.recordAtLimit fp))).answer (.advance () true) =
      some (fp, .error .keyFunctionNotPermitted) ∧
    (single [] poisoned (some (.recordAtLimit fp))).step (.advance () true) =
      single (tally fp 0) poisoned none := by
  refine ⟨rfl, ?_⟩
  simp [single, step, update_unit, GcmShared.next, Next.place, tally,
    PersistentGcmCounter.recordPoison]

/-- **A refused key is served again**: the set is filled by other keys, the next key is refused at
its limit and not taken, and the check after that returns `Ok`. -/
theorem full_set_forgets_key : ∃ before : List (GcmStep Unit),
    (run GcmThreads.step (start .inMemory) before).answer (.advance () true) =
      some (victim, .error .keyFunctionNotPermitted) ∧
    (run GcmThreads.step (start .inMemory)
      (before ++ .advance () true :: callSteps victim 4)).answer (.advance () true) =
      some (victim, .ok ()) := by
  have hout : victim ∉ filled gcmPoisonedHardCap := numbered_notMem_filled (Nat.le_refl _)
  have hfull : gcmPoisonedHardCap ≤ (filled gcmPoisonedHardCap).length := by rw [length_filled]
  have hrun : run step (start .inMemory) (fill gcmPoisonedHardCap ++ (exhaust victim ++
      List.replicate 2 (.advance () true))) =
      single [] (filled gcmPoisonedHardCap) (some (.recordAtLimit victim)) := by
    rw [run_append, run_fill (Nat.le_refl _), run_append, run_exhaust hout, run_passedOver hfull]
  generalize filled gcmPoisonedHardCap = poisoned at hrun hout
  obtain ⟨hanswer, hstep⟩ := answer_passedOver victim poisoned
  refine ⟨_, by rw [hrun]; exact hanswer, ?_⟩
  rw [run_append, hrun]
  show (run step (step _ _) (callSteps victim 4)).answer _ = _
  rw [hstep, run_counted (by decide) hout]
  simp [single, answer, GcmShared.next, tally, gcmCounterMapSoftCap, GcmPc.checks]

end Sample

end GcmThreads

end CratonHsm.Openssl
