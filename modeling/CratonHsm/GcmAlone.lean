import CratonHsm.GcmConcurrency

/-!
# Threads that take turns

The threads and the process that makes one call after the other are two models of the same code.
They agree: threads that make their calls one after the other leave the journal, the counters and
the tick as the process does (`run_serial`).
-/

namespace CratonHsm.Awslc
open Function GuardedRun List GcmProcess

/-- What the threads share, as the process sees it. -/
abbrev GcmShared.process {T : Type} (s : GcmShared T) : GcmProcess :=
  ⟨s.persist, s.counters, s.tick⟩

/-- A call, as the process makes it. -/
def GcmProcess.call (p : GcmProcess) : GcmCall → GcmProcess
  | .reserve fp => (p.reserve fp).2
  | .evict maxEntries => p.evict maxEntries
  | .reset fp => { p with counters := Counters.remove p.counters fp }

namespace GcmThreads
variable {T : Type} {s : GcmShared T} {t : T} {p q r : GcmPc} {process : GcmProcess}
  {P Q : GcmShared T → Prop}

/-- The thread comes from one place to another, while nobody else moves. -/
def Ends (s : GcmShared T) (t : T) (p q : GcmPc) (Q : GcmShared T → Prop) : Prop :=
  ∃ k s', (fun a => next a.1 t a.2)^[k] (s, p) = (s', q) ∧ Q s'

theorem Ends.done (h : Q s) : Ends s t p p Q := ⟨0, s, rfl, h⟩

theorem Ends.step (h : Ends (next s t p).1 t (next s t p).2 q Q) : Ends s t p q Q := by
  obtain ⟨k, s', hk, hs'⟩ := h
  exact ⟨k + 1, s', hk, hs'⟩

theorem Ends.bind (h : Ends s t p q P) (hrest : ∀ s', P s' → Ends s' t q r Q) :
    Ends s t p r Q := by
  obtain ⟨k, s₁, hk, hs₁⟩ := h
  obtain ⟨k', s₂, hk', hs₂⟩ := hrest s₁ hs₁
  exact ⟨k' + k, s₂, by rw [iterate_add_apply, hk, hk'], hs₂⟩

theorem Ends.advance (h : Ends s t p .idle Q) : Ends (next s t p).1 t (next s t p).2 .idle Q := by
  obtain ⟨k, s', hk, hs'⟩ := h
  cases k with
  | zero =>
    cases hk
    exact .done hs'
  | succ k => exact ⟨k, s', hk, hs'⟩

theorem Ends.rests (h : Ends s t .idle .idle Q) : Q s := by
  obtain ⟨k, s', hk, hs'⟩ := h
  rw [iterate_fixed rfl] at hk
  cases hk
  exact hs'

/-- No entry is held, and the process and the mutexes are as given. -/
structure Shows (holder : Nat → Option T) (process : GcmProcess) (s : GcmShared T) : Prop where
  process : s.process = process
  holder : s.holder = holder
  free : ∀ fp, s.guard fp = none

section Alone
variable (hfree : ∀ fp, s.guard fp = none) (caller : Caller)
include hfree

/-- The keys at the limit are dropped. -/
theorem drop_alone (victims : Counters) (exhausted : List Fingerprint) :
    Ends s t (nextDrop caller victims exhausted) (.evictFlush caller victims)
      (Shows s.holder ⟨s.persist, exhausted.foldl Counters.remove s.counters, s.tick⟩) := by
  induction exhausted generalizing s with
  | nil => exact .done ⟨rfl, rfl, hfree⟩
  | cons fp rest ih =>
    refine .step ?_
    simp only [nextDrop, next, hfree]
    exact .step (ih hfree)

/-- The victims are flushed and dropped one by one. -/
theorem flush_alone (victims : Counters) :
    Ends s t (.evictFlush caller victims) (afterEvict caller)
      (Shows s.holder (victims.foldl GcmProcess.evictOne s.process)) := by
  induction victims generalizing s with
  | nil => exact .step (.done ⟨rfl, rfl, hfree⟩)
  | cons e victims ih =>
    refine .step ?_
    rw [foldl_cons, GcmProcess.evictOne]
    rcases hflush : s.persist.flushFingerprint e.1 e.2 with ⟨_ | _, persist⟩ <;>
      simp only [next, hflush]
    · exact ih hfree
    · refine .step ?_
      simp only [next, hfree]
      exact .step (ih hfree)

/-- **An eviction alone** does what `evict_gcm_counters` does. -/
theorem evict_alone (maxEntries : Nat) :
    Ends s t (.evictSnapshot caller maxEntries) (afterEvict caller)
      (Shows s.holder (s.process.evict maxEntries)) := by
  refine .step ((drop_alone hfree caller _ _).bind fun s₁ h₁ => ?_)
  have hflush := flush_alone (t := t) h₁.free caller (victimsOf s.counters maxEntries)
  rw [h₁.process, h₁.holder, foldl_map] at hflush
  simp only [GcmProcess.evict]
  by_cases hfew : (s.counters.filter (·.2 < aesGcmNonceLimit)).length ≤ maxEntries
  · simpa only [victimsOf, hfew, if_true, foldl_nil] using hflush
  · simpa only [victimsOf, hfew, if_false] using hflush

/-- The end of a reservation. -/
theorem sweep_alone (fp : Fingerprint) (lock : Nat) :
    Ends s t (.tick fp lock) (.unlock lock) (Shows s.holder s.process.sweep) := by
  refine .step ?_
  simp only [next, GcmProcess.sweep]
  by_cases hdue : s.tick % gcmEvictInterval = 0 ∧ gcmCounterMapMax < s.counters.length
  · simp only [if_pos hdue]
    exact evict_alone (s := { s with tick := s.tick + 1 }) hfree (some (fp, lock)) gcmCounterMapMax
  · simp only [if_neg hdue]
    exact .done ⟨rfl, rfl, hfree⟩

/-- A reservation while the mutex is held. -/
theorem held_alone (fp : Fingerprint) (lock : Nat) :
    Ends s t (.readPersisted fp lock) (.unlock lock)
      (Shows s.holder (s.process.reserve fp).2) := by
  have hreleased : ∀ k, update (update s.guard fp (some t)) fp none k = none := by
    rw [update_idem, funext hfree, update_eq_self]
    exact fun _ => rfl
  refine .step ?_
  simp only [next, GcmProcess.reserve, GcmProcess.resumesFrom]
  by_cases hpoisoned : (s.persist.persistedState fp).2
  · simp only [if_pos hpoisoned]
    exact .done ⟨rfl, rfl, hfree⟩
  simp only [if_neg hpoisoned]
  refine .step ?_
  simp only [next, hfree]
  by_cases hlimit : aesGcmNonceLimit ≤ (s.counters.get fp).getD (s.persist.persistedState fp).1
  · simp only [hlimit, if_true]
    exact .step (.done ⟨rfl, rfl, hreleased⟩)
  simp only [hlimit, if_false]
  refine .step ?_
  simp only [next, GcmShared.takeEntry, GcmShared.releaseEntry, Counters.set_set]
  rcases s.persist.recordAdvance fp _ with ⟨_ | _, persist⟩
  · exact .done ⟨rfl, rfl, hreleased⟩
  · exact sweep_alone hreleased fp lock

end Alone

/-- No call is in progress. -/
abbrev Rests (process : GcmProcess) : GcmShared T → Prop := Shows (fun _ => none) process

/-- A reservation from the mutex on. -/
theorem acquired_alone (h : Rests process s) (fp : Fingerprint) (lock : Nat) :
    Ends s t (.lockAcquire fp lock) .idle (Rests (process.reserve fp).2) := by
  obtain ⟨rfl, hholder, hfree⟩ := h
  refine .step ?_
  simp only [next, hholder]
  have hheld := held_alone (t := t)
    (s := { s with holder := update (fun _ => none) lock (some t) }) hfree fp lock
  refine hheld.bind fun s₁ h₁ => .step (.done ⟨h₁.process, ?_, h₁.free⟩)
  simp only [next, h₁.holder, update_idem]
  exact update_eq_self ..

/-- **A call alone** does what the process does. -/
theorem call_alone (h : Rests process s) (call : GcmCall) :
    Ends s t (start call) .idle (Rests (process.call call)) := by
  cases call with
  | reserve fp =>
    refine .step ?_
    simp only [start, next]
    cases hlock : s.locks fp with
    | some lock => exact acquired_alone h fp lock
    | none =>
      refine .step ?_
      simp only [next, hlock]
      exact acquired_alone (s := s.insertLock fp) ⟨h.process, h.holder, h.free⟩ fp s.nextLock
  | evict maxEntries =>
    obtain ⟨rfl, hholder, hfree⟩ := h
    have hevict := evict_alone (t := t) hfree none maxEntries
    rwa [hholder] at hevict
  | reset fp =>
    obtain ⟨rfl, hholder, hfree⟩ := h
    refine .step ?_
    simp only [start, next, hfree]
    exact .step (.done ⟨rfl, hholder, hfree⟩)

section Run
variable [DecidableEq T] (persist : GcmPersist) {schedule : List (GcmStep T)}

/-- A call starts only when no other is in progress. -/
def Serial (s : GcmThreads T) : GcmStep T → Prop
  | .invoke _ _ => ∀ u, s.pc u = .idle
  | .advance _ => True

def called : GcmStep T → Option GcmCall
  | .invoke _ call => some call
  | .advance _ => none

/-- What the process does with the calls of a schedule. -/
def serve (schedule : List (GcmStep T)) : GcmProcess :=
  (schedule.filterMap called).foldl GcmProcess.call ⟨persist, [], 0⟩

/-- At most one call is in progress, and its thread will end where the process does. -/
def Turn (process : GcmProcess) (g : GcmThreads T) : Prop :=
  ∃ t, (∀ u ≠ t, g.pc u = .idle) ∧ Ends g.shared t (g.pc t) .idle (Rests process)

theorem turn_step {g : GcmThreads T} {e : GcmStep T} (h : Turn process g) (he : Serial g e) :
    Turn ((called e).elim process process.call) (g.step e) := by
  obtain ⟨t, hothers, hends⟩ := h
  cases e with
  | invoke u call =>
    have hidle : ∀ v, g.pc v = .idle := he
    rw [hidle t] at hends
    refine ⟨u, fun v hv => ?_, ?_⟩
    · simp only [step, hidle, goto, update_of_ne hv]
    · simp only [step, hidle, goto, update_self]
      exact call_alone hends.rests call
  | advance u =>
    by_cases hu : u = t
    · subst hu
      refine ⟨u, fun v hv => ?_, ?_⟩
      · simp only [step, goto, update_of_ne hv, hothers v hv]
      · simp only [step, goto, update_self]
        exact hends.advance
    · have hstay : g.step (.advance u) = g := by
        simp only [step, goto, hothers u hu, next]
        rw [← hothers u hu, update_eq_self]
      rw [hstay]
      exact ⟨t, hothers, hends⟩

/-- **Threads that take turns**: however far they have come, the thread at work ends its call, and
what is left then is what the process leaves after the same calls. -/
theorem run_serial [Inhabited T] (h : Along step Serial ⟨{ persist }, fun _ => .idle⟩ schedule) :
    Turn (serve persist schedule) (run step ⟨{ persist }, fun _ => .idle⟩ schedule) := by
  refine induction_snoc (I := fun es g => Turn (serve persist es) g)
    ⟨default, fun _ _ => rfl, .done ⟨rfl, rfl, fun _ => rfl⟩⟩ (fun es e hes _ he => ?_) h
  rw [run_snoc, serve, filterMap_append, foldl_append]
  cases e <;> exact turn_step hes he

end Run

/-- A reservation, a reset by the other thread and a reservation after it. -/
theorem run_serial_reset :
    Turn (serve emptyFile (resetBetween (numbered 1)))
      (run step newProcess (resetBetween (numbered 1))) := by
  have hadvance : ∀ (s : GcmThreads Bool) n t, Along step Serial s (replicate n (.advance t)) :=
    fun s n t => along_of_forall fun _ e he => eq_of_mem_replicate he ▸ trivial
  refine run_serial emptyFile (along_append.mpr ⟨along_append.mpr
    ⟨⟨fun _ => rfl, hadvance _ _ _⟩, ?_, hadvance _ _ _⟩, ?_, hadvance _ _ _⟩)
  · intro u
    cases u <;> rfl
  · intro u
    cases u <;> rfl

end GcmThreads

end CratonHsm.Awslc
