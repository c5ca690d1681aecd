import CratonHsm.AuthError
import CratonHsm.GuardedRun
import CratonHsm.OrderedMaps

/-!
# The rate limiter of authentication failures

`AuthRateLimiter` of the authentication crate: one counter per key with the start of its
window and a lockout.  Within one window failures add up and a lockout, once set, is only
moved forward.  The window does not slide, though: the first failure after it has run out
starts a new count *and* clears the lockout, so both promises of the module hold as long as no
such failure comes between.
-/

namespace CratonHsm.Auth
open Std OrderedMaps GuardedRun List

/-! ## The limiter -/

/-- What to do when the table of addresses is full. -/
inductive RateLimitPolicy where
  | failOpen
  | failClosed
  deriving DecidableEq

/-- `RateLimitConfig`, with its defaults. -/
structure RateLimitConfig where
  maxAttempts : UInt32 := 5
  windowSecs : UInt64 := 300
  lockoutSecs : UInt64 := 900
  policy : RateLimitPolicy := .failOpen

/-- `RateLimitEntry`; instants are in nanoseconds. -/
structure RateLimitEntry where
  failedCount : Nat
  windowStart : Nat
  lockedUntil : Option Nat
  deriving DecidableEq

/-- Every so many checks the table is cleaned. -/
def CLEANUP_INTERVAL : UInt64 := 128
/-- The size at which the table is full. -/
def MAX_ENTRIES : Nat := 100000
/-- The size down to which a full table is cut. -/
def SOFT_CAP_ENTRIES : Nat := MAX_ENTRIES / 10 * 9
def BUDGET : Nat := 256

/-- `u32::MAX`, where the failure count saturates. -/
def U32_MAX : Nat := UInt32.size - 1

/-- What a call sees of its surroundings: its own reading of the clock, the reading of the
cleanup it may run, and the order in which the map's iterator then yields the keys, which the
map does not specify. -/
structure Timing where
  now : Nat
  cleanupAt : Nat
  order : List String
  deriving DecidableEq

/-- The failures of each address, and the number of checks made. -/
structure AuthRateLimiter where
  entries : ExtTreeMap String RateLimitEntry
  config : RateLimitConfig
  checkCount : UInt64
  capacityExhaustedCount : UInt64

namespace RateLimitConfig

/-- The window of an entry has run out. -/
def expired (c : RateLimitConfig) (now : Nat) (e : RateLimitEntry) : Bool :=
  c.windowSecs.toNat ≤ asSecs (now - e.windowStart)

/-- `max_age`: the sum of both durations, saturating as `u64`. -/
def maxAge (c : RateLimitConfig) : Nat :=
  fromSecs (min (c.windowSecs.toNat + c.lockoutSecs.toNat) (UInt64.size - 1))

/-- What `cleanup_stale_entries` may remove: neither locked nor young. -/
def stale (c : RateLimitConfig) (now : Nat) (e : RateLimitEntry) : Bool :=
  let stillLocked := (e.lockedUntil.map fun u => decide (now < u)).getD false
  let inWindow := decide (now - e.windowStart < c.maxAge)
  !stillLocked && !inWindow

/-- What `record_failure` makes of an entry. -/
def recorded (c : RateLimitConfig) (now : Nat) (e : RateLimitEntry) : RateLimitEntry :=
  let e := if c.expired now e then ⟨0, now, none⟩ else e
  let e := { e with failedCount := min (e.failedCount + 1) (U32_MAX) }
  if c.maxAttempts.toNat ≤ e.failedCount then
    { e with lockedUntil := some (now + fromSecs c.lockoutSecs.toNat) }
  else e

/-- What `check_rate_limit` answers for a key with an entry. -/
def verdict (c : RateLimitConfig) (now : Nat) (e : RateLimitEntry) : Except HsmError Unit :=
  if (e.lockedUntil.map fun u => decide (now < u)).getD false then .error .pinLocked
  else if c.expired now e then .ok ()
  else if c.maxAttempts.toNat ≤ e.failedCount then .error .pinLocked
  else .ok ()

end RateLimitConfig

namespace AuthRateLimiter

/-- `AuthRateLimiter::new`. -/
def new (config : RateLimitConfig) : AuthRateLimiter := ⟨∅, config, 0, 0⟩

/-- `cleanup_stale_entries`, with the order of the map's iterator. -/
def cleanupStaleEntries (l : AuthRateLimiter) (now : Nat) (order : List String) :
    AuthRateLimiter :=
  if l.entries.size = 0 then l
  else
    let start := l.checkCount.toNat % l.entries.size
    let visited := (order.drop start).take BUDGET
    let victims := visited.filter fun k => l.entries[k]?.any (l.config.stale now)
    { l with entries := victims.foldl (removeIf (l.config.stale now)) l.entries }

/-- The part of `check_rate_limit` before it reads the clock. -/
def ticked (l : AuthRateLimiter) (cleanupAt : Nat) (order : List String) : AuthRateLimiter :=
  let tick := l.checkCount
  let l := { l with checkCount := tick + 1 }
  if tick % CLEANUP_INTERVAL = 0 ∨ SOFT_CAP_ENTRIES ≤ l.entries.size then
    l.cleanupStaleEntries cleanupAt order
  else l

/-- `check_rate_limit`. -/
def checkRateLimit (l : AuthRateLimiter) (key : String) (t : Timing) :
    Except HsmError Unit × AuthRateLimiter :=
  let l := l.ticked t.cleanupAt t.order
  match l.entries[key]? with
  | none =>
    if l.config.policy = .failClosed ∧ MAX_ENTRIES ≤ l.entries.size then
      (.error .pinLocked, { l with capacityExhaustedCount := l.capacityExhaustedCount + 1 })
    else (.ok (), l)
  | some e => (l.config.verdict t.now e, l)

/-- The cleanup that `record_failure` makes before it adds an entry above the soft cap. -/
def softCapCleanup (l : AuthRateLimiter) (cleanupAt : Nat) (order : List String) :
    AuthRateLimiter :=
  if SOFT_CAP_ENTRIES ≤ l.entries.size then l.cleanupStaleEntries cleanupAt order else l

/-- `record_failure`. -/
def recordFailure (l : AuthRateLimiter) (key : String) (t : Timing) : AuthRateLimiter :=
  match l.entries[key]? with
  | some e => { l with entries := l.entries.insert key (l.config.recorded t.now e) }
  | none =>
    let l := l.softCapCleanup t.cleanupAt t.order
    if MAX_ENTRIES ≤ l.entries.size then
      { l with capacityExhaustedCount := l.capacityExhaustedCount + 1 }
    else { l with entries := l.entries.insert key (l.config.recorded t.now ⟨0, t.now, none⟩) }

/-- `record_success`. -/
def recordSuccess (l : AuthRateLimiter) (key : String) : AuthRateLimiter :=
  { l with entries := l.entries.erase key }

end AuthRateLimiter

/-! ## Runs -/

/-- A call of the limiter. -/
inductive LimiterCall where
  | check (key : String) (t : Timing)
  | failure (key : String) (t : Timing)
  | success (key : String)
  | cleanup (now : Nat) (order : List String)
  deriving DecidableEq

namespace LimiterCall

/-- The readings of the clock, in the order in which the call makes them. -/
def readings : LimiterCall → List Nat
  | check _ t => [t.cleanupAt, t.now]
  | failure _ t => [t.now, t.cleanupAt]
  | success _ => []
  | cleanup now _ => [now]

/-- The call records a failure of the key. -/
def isFailure (key : String) : LimiterCall → Bool
  | failure k _ => k == key
  | _ => false

end LimiterCall

open AuthRateLimiter

/-- One call. -/
def AuthRateLimiter.step (l : AuthRateLimiter) : LimiterCall → AuthRateLimiter
  | .check key t => (l.checkRateLimit key t).2
  | .failure key t => l.recordFailure key t
  | .success key => l.recordSuccess key
  | .cleanup now order => l.cleanupStaleEntries now order

/-- The clock does not run backwards. -/
def LimiterClock (calls : List LimiterCall) : Prop :=
  (calls.flatMap LimiterCall.readings).Pairwise (· ≤ ·)

instance (calls : List LimiterCall) : Decidable (LimiterClock calls) :=
  inferInstanceAs (Decidable (List.Pairwise _ _))

variable {l : AuthRateLimiter} {key : String} {e : RateLimitEntry} {now cleanupAt : Nat}
  {order : List String} {c : RateLimitConfig} {t : Timing}

/-! ## What a call does to the entry of a key -/

theorem stale_of_lockedUntil {u : Nat} (hu : e.lockedUntil = some u) (h : now < u) :
    c.stale now e = false := by
  simp [RateLimitConfig.stale, hu, h]

/-- The age limit is at least the window. -/
theorem stale_of_not_expired (h : c.expired now e = false) : c.stale now e = false := by
  have hage : now - e.windowStart < c.maxAge := by
    rw [RateLimitConfig.expired, decide_eq_false_iff_not, Nat.not_le, asSecs_lt] at h
    have hwindow : c.windowSecs.toNat < UInt64.size := c.windowSecs.toNat_lt_size
    have hmin : c.windowSecs.toNat ≤
        min (c.windowSecs.toNat + c.lockoutSecs.toNat) (UInt64.size - 1) := by omega
    exact Nat.lt_of_lt_of_le h (Nat.mul_le_mul_right _ hmin)
  simp [RateLimitConfig.stale, hage]

theorem cleanup_config : (l.cleanupStaleEntries now order).config = l.config := by
  unfold cleanupStaleEntries
  split <;> rfl

section
variable (he : l.entries[key]? = some e)
include he

/-- The cleanup keeps what is not stale. -/
theorem cleanup_keeps (hstale : l.config.stale now e = false) :
    (l.cleanupStaleEntries now order).entries[key]? = some e := by
  unfold cleanupStaleEntries
  split
  · exact he
  · exact getElem?_foldl_removeIf _ _ he hstale

omit he in
theorem ticked_config : (l.ticked cleanupAt order).config = l.config := by
  unfold ticked
  dsimp only
  split
  · exact cleanup_config
  · rfl

theorem ticked_keeps (hstale : l.config.stale cleanupAt e = false) :
    (l.ticked cleanupAt order).entries[key]? = some e := by
  unfold ticked
  dsimp only
  split
  · exact cleanup_keeps he hstale
  · exact he

/-- A check of a key with an entry answers from the entry. -/
theorem checkRateLimit_of_some (hstale : l.config.stale t.cleanupAt e = false) :
    (l.checkRateLimit key t).1 = l.config.verdict t.now e := by
  rw [checkRateLimit, ticked_keeps he hstale, ticked_config]

omit he in
/-- A check changes nothing but what its cleanup removes. -/
theorem checkRateLimit_entries (k : String) :
    (l.checkRateLimit k t).2.entries = (l.ticked t.cleanupAt t.order).entries := by
  unfold checkRateLimit
  dsimp only
  split
  · split <;> rfl
  · rfl

theorem recordFailure_of_some :
    l.recordFailure key t =
      { l with entries := l.entries.insert key (l.config.recorded t.now e) } := by
  rw [recordFailure, he]

end

theorem softCapCleanup_config : (l.softCapCleanup cleanupAt order).config = l.config := by
  unfold softCapCleanup
  split
  · exact cleanup_config
  · rfl

theorem softCapCleanup_size : (l.softCapCleanup cleanupAt order).entries.size ≤ l.entries.size := by
  unfold softCapCleanup cleanupStaleEntries
  split
  · split
    · exact Nat.le_refl _
    · exact size_foldl_removeIf _ _ _
  · exact Nat.le_refl _

/-- A failure of a key that has no entry makes one, if there is room. -/
theorem recordFailure_of_none (hnone : l.entries[key]? = none)
    (hroom : l.entries.size < MAX_ENTRIES) :
    (l.recordFailure key t).entries[key]? =
      some (l.config.recorded t.now ⟨0, t.now, none⟩) := by
  have hmax : ¬ MAX_ENTRIES ≤ (l.softCapCleanup t.cleanupAt t.order).entries.size :=
    Nat.not_le.mpr (Nat.lt_of_le_of_lt softCapCleanup_size hroom)
  rw [recordFailure, hnone]
  simp only [if_neg hmax, softCapCleanup_config]
  exact ExtTreeMap.getElem?_insert_self

/-- A failure of another key leaves alone what is not stale. -/
theorem recordFailure_keeps {k : String} (hk : key ≠ k) (he : l.entries[key]? = some e)
    (hstale : l.config.stale t.cleanupAt e = false) :
    (l.recordFailure k t).entries[key]? = some e := by
  unfold recordFailure
  split
  · exact (getElem?_insert_of_ne hk _).trans he
  have hkept : (l.softCapCleanup t.cleanupAt t.order).entries[key]? = some e := by
    unfold softCapCleanup
    split
    · exact cleanup_keeps he hstale
    · exact he
  dsimp only
  split
  · exact hkept
  · exact (getElem?_insert_of_ne hk _).trans hkept

theorem step_config (l : AuthRateLimiter) (call : LimiterCall) :
    (l.step call).config = l.config := by
  cases call with
  | check k t =>
    simp only [step, checkRateLimit]
    split
    · split <;> exact ticked_config
    · exact ticked_config
  | failure k t =>
    simp only [step, recordFailure]
    split
    · rfl
    · split <;> exact softCapCleanup_config
  | success k => rfl
  | cleanup now order => exact cleanup_config

/-- **What a call does to an entry**: an entry that is stale at none of the call's readings
is gone after a success of its key, recorded to by a failure of its key, and otherwise stays
as it is. -/
theorem entry_step {call : LimiterCall} (he : l.entries[key]? = some e)
    (hfresh : ∀ t ∈ call.readings, l.config.stale t e = false) (hsuccess : call ≠ .success key) :
    (∃ t, call = .failure key t ∧ (l.step call).entries[key]? = some (l.config.recorded t.now e)) ∨
    call.isFailure key = false ∧ (l.step call).entries[key]? = some e := by
  cases call with
  | check k t =>
    right
    refine ⟨rfl, ?_⟩
    rw [step, checkRateLimit_entries]
    exact ticked_keeps he (hfresh t.cleanupAt (by simp [LimiterCall.readings]))
  | failure k t =>
    by_cases hk : k = key
    · subst hk
      left
      refine ⟨t, rfl, ?_⟩
      rw [step, recordFailure_of_some he]
      exact ExtTreeMap.getElem?_insert_self
    · right
      refine ⟨by simpa [LimiterCall.isFailure] using hk, ?_⟩
      exact recordFailure_keeps (Ne.symm hk) he
        (hfresh t.cleanupAt (by simp [LimiterCall.readings]))
  | success k =>
    right
    have hk : key ≠ k := by
      intro h
      exact hsuccess (by rw [h])
    exact ⟨rfl, (getElem?_erase_of_ne hk).trans he⟩
  | cleanup now order =>
    right
    exact ⟨rfl, cleanup_keeps he (hfresh now (by simp [LimiterCall.readings]))⟩

/-! ## Failures of one window -/

theorem recorded_windowStart (h : c.expired now e = false) :
    (c.recorded now e).windowStart = e.windowStart := by
  simp only [RateLimitConfig.recorded, h, Bool.false_eq_true, if_false]
  split <;> rfl

theorem recorded_failedCount (h : c.expired now e = false) :
    (c.recorded now e).failedCount = min (e.failedCount + 1) (U32_MAX) := by
  simp only [RateLimitConfig.recorded, h, Bool.false_eq_true, if_false]
  split <;> rfl

theorem one_le_recorded_failedCount : 1 ≤ (c.recorded now e).failedCount := by
  have hsize : 1 ≤ U32_MAX := by decide
  unfold RateLimitConfig.recorded
  dsimp only
  generalize (if c.expired now e = true then (⟨0, now, none⟩ : RateLimitEntry) else e) = e'
  split
  · dsimp only
    omega
  · dsimp only
    omega

/-- The failures of the key among some calls. -/
def failures (key : String) (calls : List LimiterCall) : Nat :=
  calls.countP (LimiterCall.isFailure key)

/-- The window that began at `start` has not run out at `t`. -/
def WindowOpen (c : RateLimitConfig) (start t : Nat) : Prop :=
  asSecs (t - start) < c.windowSecs.toNat

variable {calls : List LimiterCall} {deadline : Nat}

/-- **Within one window failures add up.** -/
theorem counted_run {start : Nat}
    (hopen : ∀ call ∈ calls, ∀ t ∈ call.readings, WindowOpen l.config start t)
    (hsuccess : LimiterCall.success key ∉ calls) (he : l.entries[key]? = some e)
    (hstart : e.windowStart = start) :
    ∃ e', (run step l calls).entries[key]? = some e' ∧ e'.windowStart = start ∧
      min (e.failedCount + failures key calls) (U32_MAX) ≤ e'.failedCount := by
  induction calls generalizing l e with
  | nil => exact ⟨e, he, hstart, Nat.min_le_left _ _⟩
  | cons call calls ih =>
    have hrunning : ∀ t ∈ call.readings, l.config.expired t e = false := by
      intro t ht
      rw [RateLimitConfig.expired, hstart, decide_eq_false_iff_not, Nat.not_le]
      exact hopen call mem_cons_self t ht
    have hopen' : ∀ call' ∈ calls, ∀ t ∈ call'.readings,
        WindowOpen (l.step call).config start t := by
      intro call' hcall t ht
      rw [step_config]
      exact hopen call' (mem_cons_of_mem call hcall) t ht
    have hsuccess' : LimiterCall.success key ∉ calls := fun h => hsuccess (mem_cons_of_mem call h)
    have hcall : call ≠ .success key := fun h => hsuccess (h ▸ mem_cons_self)
    rcases entry_step he (fun t ht => stale_of_not_expired (hrunning t ht)) hcall with
      ⟨t, rfl, hstep⟩ | ⟨hother, hstep⟩
    · -- one more failure in the running window
      have hnow := hrunning t.now (by simp [LimiterCall.readings])
      obtain ⟨e', he', hstart', hcount⟩ := ih hopen' hsuccess' hstep
        ((recorded_windowStart hnow).trans hstart)
      refine ⟨e', he', hstart', ?_⟩
      rw [recorded_failedCount hnow] at hcount
      have hone : failures key (.failure key t :: calls) = failures key calls + 1 :=
        countP_cons_of_pos (by simp [LimiterCall.isFailure])
      have hsat : ∀ a n m : Nat, min (a + (n + 1)) m = min (min (a + 1) m + n) m := by omega
      rw [hone, hsat]
      exact hcount
    · obtain ⟨e', he', hstart', hcount⟩ := ih hopen' hsuccess' hstep hstart
      refine ⟨e', he', hstart', ?_⟩
      have hnone : failures key (call :: calls) = failures key calls :=
        countP_cons_of_neg (by simp [hother])
      rw [hnone]
      exact hcount

/-- A full window that is still running locks its key. -/
theorem verdict_of_count (hopen : c.expired now e = false)
    (hcount : c.maxAttempts.toNat ≤ e.failedCount) : c.verdict now e = .error .pinLocked := by
  unfold RateLimitConfig.verdict
  split
  · rfl
  rw [hopen]
  rfl

/-- At least `max_attempts` failures of a key in a period shorter than the window, none of
them dropped for lack of room and no success among them, with a check right after the last:
`first` is the first failure of the period and `rest` what follows up to the last. -/
structure Burst (config : RateLimitConfig) (key : String) (before : List LimiterCall)
    (first : Timing) (rest : List LimiterCall) (check : Timing) : Prop where
  attempts : 1 ≤ config.maxAttempts
  window : 1 ≤ config.windowSecs
  clock : LimiterClock (before ++ [.failure key first] ++ rest ++ [.check key check])
  room : Along AuthRateLimiter.step (fun l _ => l.entries.size < MAX_ENTRIES) (.new config)
    (before ++ [.failure key first] ++ rest ++ [.check key check])
  failures : config.maxAttempts.toNat ≤ 1 + failures key rest
  noSuccess : LimiterCall.success key ∉ rest
  last : ∀ call ∈ rest.getLast?, call.isFailure key
  short : check.now < first.now + fromSecs config.windowSecs.toNat

/-- No reading of a call is later than one of a later call. -/
theorem LimiterClock.le {t : Timing} (h : LimiterClock (calls ++ [.check key t])) :
    ∀ call ∈ calls ++ [.check key t], ∀ r ∈ call.readings, r ≤ t.now := by
  intro call hcall r hr
  unfold LimiterClock at h
  rw [flatMap_append, pairwise_append] at h
  obtain ⟨-, hcheck, hle⟩ := h
  rcases mem_append.mp hcall with hbefore | hlast
  · exact hle r (mem_flatMap.mpr ⟨call, hbefore, hr⟩) t.now (by simp [LimiterCall.readings])
  rw [mem_singleton] at hlast
  subst hlast
  simp only [LimiterCall.readings, mem_cons, not_mem_nil, or_false] at hr
  rcases hr with rfl | rfl
  · simpa [LimiterCall.readings] using hcheck
  · exact Nat.le_refl _

theorem WindowOpen.mono {start r s : Nat} (h : WindowOpen c start s) (hr : r ≤ s) :
    WindowOpen c start r := by
  unfold WindowOpen at *
  rw [asSecs_lt] at *
  omega

theorem run_config (l : AuthRateLimiter) (calls : List LimiterCall) :
    (run step l calls).config = l.config := by
  induction calls generalizing l with
  | nil => rfl
  | cons call calls ih => exact (ih _).trans (step_config l call)

/-- After a failure there is an entry with a count, unless the map is full. -/
theorem entry_of_failure (hroom : l.entries.size < MAX_ENTRIES) :
    ∃ e, (l.step (.failure key t)).entries[key]? = some e ∧ 1 ≤ e.failedCount := by
  cases he : l.entries[key]? with
  | none => exact ⟨_, recordFailure_of_none he hroom, one_le_recorded_failedCount⟩
  | some e =>
    refine ⟨l.config.recorded t.now e, ?_, one_le_recorded_failedCount⟩
    rw [step, recordFailure_of_some he]
    exact ExtTreeMap.getElem?_insert_self

/-- **Failures of one window lock the key**: the window that counts the first failure of the
burst is still running at the check. -/
theorem locked_of_burst {config : RateLimitConfig} {before rest : List LimiterCall}
    {first check : Timing} (h : Burst config key before first rest check)
    (hopen : ∀ e, (run AuthRateLimiter.step (.new config)
        (before ++ [.failure key first])).entries[key]? = some e →
      WindowOpen config e.windowStart check.now) :
    ((run AuthRateLimiter.step (.new config)
      (before ++ [.failure key first] ++ rest)).checkRateLimit
        key check).1 = .error .pinLocked := by
  obtain ⟨-, hroom⟩ := along_append.mp (along_append.mp (along_append.mp h.room).1).1
  obtain ⟨e, he, hone⟩ : ∃ e, (run step (.new config)
      (before ++ [.failure key first])).entries[key]? = some e ∧ 1 ≤ e.failedCount := by
    rw [run_snoc]
    exact entry_of_failure hroom.1
  have hwindow := hopen e he
  have hle := h.clock.le
  have hconfig : (run step (.new config)
      (before ++ [.failure key first])).config = config := run_config _ _
  have hrest : ∀ call ∈ rest, ∀ r ∈ call.readings, WindowOpen (run step
      (.new config) (before ++ [.failure key first])).config e.windowStart r := by
    intro call hcall r hr
    rw [hconfig]
    exact hwindow.mono (hle call (by simp [hcall]) r hr)
  obtain ⟨e', he', hstart, hcount⟩ := counted_run hrest h.noSuccess he rfl
  rw [← run_append] at he'
  have hconfig' : (run step (.new config)
      (before ++ [.failure key first] ++ rest)).config = config := run_config _ _
  have hrunning : ∀ r, r ≤ check.now → config.expired r e' = false := by
    intro r hr
    rw [RateLimitConfig.expired, hstart, decide_eq_false_iff_not, Nat.not_le]
    exact hwindow.mono hr
  have hcleanup : check.cleanupAt ≤ check.now :=
    hle (.check key check) (by simp) _ (by simp [LimiterCall.readings])
  -- the count saturates at a value no configuration exceeds
  have hmax : config.maxAttempts.toNat ≤ U32_MAX :=
    Nat.le_pred_of_lt config.maxAttempts.toNat_lt_size
  rw [checkRateLimit_of_some he'
      (by rw [hconfig']; exact stale_of_not_expired (hrunning _ hcleanup)),
    hconfig']
  refine verdict_of_count (hrunning _ (Nat.le_refl _)) ?_
  have hfailures := h.failures
  have hmin := Nat.le_min.mpr ⟨Nat.le_trans hfailures (Nat.add_le_add_right hone _), hmax⟩
  exact Nat.le_trans hmin hcount

/-- `secs` seconds on the clock, with one key in the map. -/
def aliceAt (secs : Nat) : Timing := ⟨fromSecs secs, fromSecs secs, ["alice"]⟩

def aliceFails (secs : Nat) : LimiterCall := .failure "alice" (aliceAt secs)

/-- Five failures of a new key in four seconds, and a check. -/
theorem locked_of_burst_fresh :
    ((run AuthRateLimiter.step (.new {}) ([] ++ [.failure "alice" (aliceAt 10)] ++
      [aliceFails 11, aliceFails 12, aliceFails 13, aliceFails 14])).checkRateLimit
        "alice" (aliceAt 15)).1 = .error .pinLocked :=
  locked_of_burst
    { attempts := by decide
      window := by decide
      clock := by decide
      room := by decide +kernel
      failures := by decide
      noSuccess := by decide
      last := by decide
      short := by decide }
    (by
      have he : (run step (.new {})
          ([] ++ [.failure "alice" (aliceAt 10)])).entries["alice"]? =
            some ⟨1, fromSecs 10, none⟩ := by decide +kernel
      intro e h
      cases he.symm.trans h
      unfold WindowOpen
      decide)

/-- A failure every five minutes starts the windows anew: seven failures within two seconds
are split by the boundary at 300 seconds, and the check lets the key through. -/
theorem burst_across_windows : ∃ before rest first check,
    Burst {} "alice" before first rest check ∧ failures "alice" rest = 6 ∧
      ((run AuthRateLimiter.step (.new {}) (before ++ [.failure "alice" first] ++
        rest)).checkRateLimit "alice" check).1 = .ok () := by
  refine ⟨[aliceFails 0], [aliceFails 299, aliceFails 299, aliceFails 301, aliceFails 301,
    aliceFails 301, aliceFails 301], aliceAt 299, aliceAt 301, ?_, by decide, by decide +kernel⟩
  exact
    { attempts := by decide
      window := by decide
      clock := by decide
      room := by decide +kernel
      failures := by decide
      noSuccess := by decide
      last := by decide
      short := by decide }

/-! ## Lockouts -/

/-- The failure sets a lockout. -/
def SetsLockout (l : AuthRateLimiter) (key : String) (t : Timing) : Prop :=
  ∃ e, (l.step (.failure key t)).entries[key]? = some e ∧
    l.config.maxAttempts.toNat ≤ e.failedCount ∧
    e.lockedUntil = some (t.now + fromSecs l.config.lockoutSecs.toNat)

/-- The call is no failure of the key that finds its window run out, unless one failure is
enough for a lockout. -/
def InWindow (key : String) (l : AuthRateLimiter) (call : LimiterCall) : Prop :=
  ∀ t e, call = .failure key t → l.entries[key]? = some e →
    l.config.expired t.now e = false ∨ l.config.maxAttempts ≤ 1

theorem recorded_lockedUntil (h : c.maxAttempts.toNat ≤ (c.recorded now e).failedCount) :
    (c.recorded now e).lockedUntil = some (now + fromSecs c.lockoutSecs.toNat) := by
  unfold RateLimitConfig.recorded at h ⊢
  dsimp only at h ⊢
  generalize (if c.expired now e = true then (⟨0, now, none⟩ : RateLimitEntry) else e) = e' at h ⊢
  split
  · rfl
  next hless =>
  rw [if_neg hless] at h
  exact absurd h hless

/-- A full count stays full in a running window, and where one failure fills it. -/
theorem recorded_full (hfull : c.maxAttempts.toNat ≤ e.failedCount)
    (h : c.expired now e = false ∨ c.maxAttempts ≤ 1) :
    c.maxAttempts.toNat ≤ (c.recorded now e).failedCount := by
  rcases h with hrunning | hone
  · have hmax : c.maxAttempts.toNat ≤ U32_MAX := Nat.le_pred_of_lt c.maxAttempts.toNat_lt_size
    rw [recorded_failedCount hrunning]
    exact Nat.le_min.mpr ⟨Nat.le_succ_of_le hfull, hmax⟩
  · exact Nat.le_trans hone one_le_recorded_failedCount

/-- The key is locked at least until `deadline`, by a full count. -/
def LockedUntil (l : AuthRateLimiter) (key : String) (deadline : Nat) : Prop :=
  ∃ e u, l.entries[key]? = some e ∧ l.config.maxAttempts.toNat ≤ e.failedCount ∧
    e.lockedUntil = some u ∧ deadline ≤ u

section
variable (h : LockedUntil l key deadline)
include h

/-- One call keeps a lockout that has not run out. -/
theorem LockedUntil.step {call : LimiterCall} {since : Nat}
    (huntil : deadline ≤ since + fromSecs l.config.lockoutSecs.toNat)
    (hreadings : ∀ r ∈ call.readings, since ≤ r ∧ r < deadline) (hsuccess : call ≠ .success key)
    (hwindow : InWindow key l call) :
    LockedUntil (l.step call) key deadline := by
  obtain ⟨e, u, he, hfull, hu, hle⟩ := h
  have hfresh : ∀ r ∈ call.readings, l.config.stale r e = false := by
    intro r hr
    exact stale_of_lockedUntil hu (Nat.lt_of_lt_of_le (hreadings r hr).2 hle)
  rcases entry_step he hfresh hsuccess with ⟨t, rfl, hstep⟩ | ⟨-, hstep⟩
  · have hfull' := recorded_full hfull (hwindow t e rfl he)
    have hnow := hreadings t.now (by simp [LimiterCall.readings])
    refine ⟨_, _, hstep, ?_, recorded_lockedUntil hfull', by omega⟩
    rw [step_config]
    exact hfull'
  · refine ⟨e, u, hstep, ?_, hu, hle⟩
    rw [step_config]
    exact hfull

/-- A run keeps it. -/
theorem LockedUntil.run {since : Nat}
    (huntil : deadline ≤ since + fromSecs l.config.lockoutSecs.toNat)
    (hreadings : ∀ call ∈ calls, ∀ r ∈ call.readings, since ≤ r ∧ r < deadline)
    (hsuccess : LimiterCall.success key ∉ calls)
    (hwindow : Along AuthRateLimiter.step (InWindow key) l calls) :
    LockedUntil (run AuthRateLimiter.step l calls) key deadline := by
  induction calls generalizing l with
  | nil => exact h
  | cons call calls ih =>
    have hcall : call ≠ .success key := fun he => hsuccess (he ▸ mem_cons_self)
    refine ih (h.step huntil (hreadings call mem_cons_self) hcall hwindow.1) ?_ ?_ ?_ hwindow.2
    · rw [step_config]
      exact huntil
    · intro call' hmem
      exact hreadings call' (mem_cons_of_mem call hmem)
    · exact fun hmem => hsuccess (mem_cons_of_mem call hmem)

theorem checkRateLimit_of_locked (hcleanup : t.cleanupAt < deadline) (hnow : t.now < deadline) :
    (l.checkRateLimit key t).1 = .error .pinLocked := by
  obtain ⟨e, u, he, -, hu, hle⟩ := h
  have hlocked : t.now < u := Nat.lt_of_lt_of_le hnow hle
  rw [checkRateLimit_of_some he (stale_of_lockedUntil hu (Nat.lt_of_lt_of_le hcleanup hle))]
  simp [RateLimitConfig.verdict, hu, hlocked]

end

/-- **A lockout lasts** while no failure of its key comes after the end of its window: every
check before its end is turned away. -/
theorem lockout_lasts {failed check : Timing} {calls : List LimiterCall}
    (hset : SetsLockout l key failed)
    (hclock : LimiterClock ([.failure key failed] ++ calls ++ [.check key check]))
    (hsuccess : LimiterCall.success key ∉ calls)
    (hbefore : check.now < failed.now + fromSecs l.config.lockoutSecs.toNat)
    (hwindow : Along AuthRateLimiter.step (InWindow key) (l.step (.failure key failed)) calls) :
    ((run AuthRateLimiter.step (l.step (.failure key failed)) calls).checkRateLimit
      key check).1 = .error .pinLocked := by
  have hle := hclock.le
  have hge : ∀ call ∈ calls, ∀ r ∈ call.readings, failed.now ≤ r := by
    intro call hcall r hr
    unfold LimiterClock at hclock
    simp only [flatMap_append, flatMap_cons, LimiterCall.readings, cons_append,
      pairwise_cons] at hclock
    have hmem : r ∈ calls.flatMap LimiterCall.readings := mem_flatMap.mpr ⟨call, hcall, hr⟩
    exact hclock.1 r (by simp [hmem])
  obtain ⟨e, he, hfull, hu⟩ := hset
  have hlocked : LockedUntil (l.step (.failure key failed)) key
      (failed.now + fromSecs l.config.lockoutSecs.toNat) := by
    refine ⟨e, _, he, ?_, hu, Nat.le_refl _⟩
    rw [step_config]
    exact hfull
  have hreadings : ∀ call ∈ calls, ∀ r ∈ call.readings, failed.now ≤ r ∧
      r < failed.now + fromSecs l.config.lockoutSecs.toNat := by
    intro call hcall r hr
    have hlast := hle call (by simp [hcall]) r hr
    exact ⟨hge call hcall r hr, by omega⟩
  have hrun := hlocked.run (Nat.le_of_eq (by rw [step_config])) hreadings hsuccess hwindow
  have hcleanup : check.cleanupAt ≤ check.now :=
    hle (.check key check) (by simp) _ (by simp [LimiterCall.readings])
  exact checkRateLimit_of_locked hrun (by omega) hbefore

/-- After five failures, a late sixth one of the same window moves the lockout, and a check
ten minutes after them is turned away. -/
theorem lockout_lasts_alice :
    ((run AuthRateLimiter.step ((run AuthRateLimiter.step (.new {}) [aliceFails 10, aliceFails 11,
      aliceFails 12, aliceFails 13]).step (aliceFails 14))
        [aliceFails 200, .cleanup (fromSecs 400) ["alice"]]).checkRateLimit "alice"
          (aliceAt 614)).1 = .error .pinLocked := by
  refine lockout_lasts ?_ (by decide) (by decide) (by decide +kernel) ?_
  · exact ⟨⟨5, fromSecs 10, some (fromSecs 914)⟩, by decide +kernel, by decide +kernel,
      by decide +kernel⟩
  refine ⟨?_, ?_, trivial⟩
  · have he : (step (run step (.new {}) [aliceFails 10,
        aliceFails 11, aliceFails 12, aliceFails 13]) (aliceFails 14)).entries["alice"]? =
          some ⟨5, fromSecs 10, some (fromSecs 914)⟩ := by decide +kernel
    intro t e hcall hentry
    cases hcall
    cases he.symm.trans hentry
    exact .inl (by decide +kernel)
  · intro t e hcall
    cases hcall

/-- The default window is shorter than the default lockout: the failure of an attempt that
was let through before the lockout and comes back after five minutes clears it. -/
theorem lockout_cleared_by_late_failure : ∃ failed late check,
    SetsLockout (run AuthRateLimiter.step (.new {}) [aliceFails 10, aliceFails 11, aliceFails 12,
      aliceFails 13]) "alice" failed ∧
    LimiterClock ([.failure "alice" failed] ++ [.failure "alice" late] ++ [.check "alice" check]) ∧
    check.now < failed.now + fromSecs 900 ∧
    ((run AuthRateLimiter.step ((run AuthRateLimiter.step (.new {}) [aliceFails 10, aliceFails 11,
      aliceFails 12, aliceFails 13]).step (.failure "alice" failed))
        [.failure "alice" late]).checkRateLimit "alice" check).1 = .ok () := by
  refine ⟨aliceAt 14, aliceAt 320, aliceAt 321, ?_, by decide, by decide, by decide +kernel⟩
  exact ⟨⟨5, fromSecs 10, some (fromSecs 914)⟩, by decide +kernel, by decide +kernel,
    by decide +kernel⟩

end CratonHsm.Auth
