import CratonHsm.FsmModel
import CratonHsm.RunHistory

/-!
# The module at run time

`ModuleFsm` of `fsm.rs` as programs of threads that interleave at every operation on its atomics.
`try_transition` reads the state, looks up the transition, asks the guard, and compares and swaps;
`enter_error_state` takes the latch, runs the hook if it won it, and swaps the state to
`ErrorState`.

The latch is set once and for all, and `try_transition` does not know of it.  So the hook runs
once for each entry into the error state only where the state is entered once and not by a
transition: a module that is powered off and on again and fails a second time is not zeroized.
-/

namespace CratonHsm.Certified
open GuardedRun Function List

/-! ## The module -/

namespace FsmModel

/-- The first transition that leaves the state on the event. -/
def findEdge (m : FsmModel) (current : ModuleState) (event : String) : Option FsmTransition :=
  m.transitions.find? fun t => t.origin = current && t.event = event

end FsmModel

/-- The events of the module. -/
inductive Event where
  | powerOn
  | runSelfTests
  | selfTestsPassed
  | selfTestsFailed
  | zeroize
  | powerOff

/-- The name of an event in the graph. -/
def Event.name : Event → String
  | .powerOn => "power_on"
  | .runSelfTests => "run_self_tests"
  | .selfTestsPassed => "self_tests_passed"
  | .selfTestsFailed => "self_tests_failed"
  | .zeroize => "zeroize"
  | .powerOff => "power_off"

/-- Why the module enters the error state. -/
inductive ErrorReason where
  | katFailure
  | integrityFailure
  | fatalRuntimeError

/-- The byte that is stored for a state. -/
def stateToU8 : ModuleState → UInt8
  | .powerOff => 0
  | .powerOn => 1
  | .selfTest => 2
  | .cryptoOfficerMode => 3
  | .userMode => 4
  | .errorState => 5
  | .zeroization => 6

/-- An unknown byte is read as the error state. -/
def u8ToState (v : UInt8) : ModuleState :=
  if v = 0 then .powerOff
  else if v = 1 then .powerOn
  else if v = 2 then .selfTest
  else if v = 3 then .cryptoOfficerMode
  else if v = 4 then .userMode
  else if v = 6 then .zeroization
  else .errorState

@[simp] theorem u8ToState_stateToU8 (s : ModuleState) : u8ToState (stateToU8 s) = s := by
  cases s <;> rfl

/-- The atomics of the module and the guard predicate. -/
structure ModuleFsm where
  model : FsmModel
  state : UInt8
  errorLatched : Bool
  guard : Option (String → Bool)

namespace ModuleFsm

/-- The module in its initial state. -/
def new (model : FsmModel) : ModuleFsm := ⟨model, stateToU8 model.initialState, false, none⟩

/-- The state that the byte stands for. -/
def currentState (f : ModuleFsm) : ModuleState := u8ToState f.state

/-- What the guard predicate answers; without one every guarded transition is refused. -/
def allowed (f : ModuleFsm) (guard : String) : Bool := (f.guard.map (· guard)).getD false

/-- `compare_exchange` on the state. -/
def compareExchange (f : ModuleFsm) (current new : UInt8) : ModuleFsm :=
  if f.state = current then { f with state := new } else f

end ModuleFsm

/-! ## Threads -/

/-- A call that a thread can make. -/
inductive FsmCall where
  | tryTransition (event : Event)
  | enterErrorState (reason : ErrorReason)

/-- Where a thread stands: before each operation on the atomics, the guard and the hook. -/
inductive FsmPc where
  | idle
  /-- `try_transition` before it loads the state. -/
  | transitionLoad (event : Event)
  /-- `try_transition` before it asks the guard, with the state that it read. -/
  | transitionGuard (event : Event) (current : UInt8) (target : ModuleState) (guard : String)
  /-- `try_transition` before `compare_exchange`. -/
  | transitionSwap (event : Event) (current : UInt8) (target : ModuleState)
  /-- `enter_error_state` before `compare_exchange` on the latch. -/
  | errorLatch (reason : ErrorReason)
  /-- `enter_error_state` before `hook.zeroize`. -/
  | errorHook (reason : ErrorReason)
  /-- `enter_error_state` before it loads the state. -/
  | errorLoad
  /-- `enter_error_state` before `compare_exchange`, with the state that it read. -/
  | errorSwap (current : UInt8)

/-- The module, the reasons that the hooks were run for, and where each thread stands. -/
structure FsmThreads (T : Type) where
  fsm : ModuleFsm
  hooks : List ErrorReason
  pc : T → FsmPc

/-- A thread begins a call or makes its next step, or a guard is installed. -/
inductive FsmStep (T : Type) where
  | invoke (t : T) (call : FsmCall)
  | advance (t : T)
  | setGuard (predicate : String → Bool)

namespace FsmThreads
variable {T : Type} [DecidableEq T] {hooks : List ErrorReason}

/-- No thread is in a call. -/
def initial (model : FsmModel) : FsmThreads T := ⟨.new model, [], fun _ => .idle⟩

/-- Where a call begins. -/
def start : FsmCall → FsmPc
  | .tryTransition event => .transitionLoad event
  | .enterErrorState reason => .errorLatch reason

/-- The next step from a place: the module after it, the runs of the hook, and the next place. -/
def next (f : ModuleFsm) : FsmPc → ModuleFsm × List ErrorReason × FsmPc
  | .idle => (f, [], .idle)
  | .transitionLoad event =>
    match f.model.findEdge f.currentState event.name with
    | none => (f, [], .idle)
    | some t =>
      match t.guard with
      | none => (f, [], .transitionSwap event f.state t.target)
      | some guard => (f, [], .transitionGuard event f.state t.target guard)
  | .transitionGuard event current target guard =>
    (f, [], if f.allowed guard then .transitionSwap event current target else .idle)
  | .transitionSwap event current target =>
    (f.compareExchange current (stateToU8 target), [],
      if f.state = current then .idle else .transitionLoad event)
  | .errorLatch reason =>
    if f.errorLatched then (f, [], .errorLoad)
    else ({ f with errorLatched := true }, [], .errorHook reason)
  | .errorHook reason => (f, [reason], .errorLoad)
  | .errorLoad => (f, [], if f.state = stateToU8 .errorState then .idle else .errorSwap f.state)
  | .errorSwap current =>
    (f.compareExchange current (stateToU8 .errorState), [],
      if f.state = current then .idle else .errorLoad)

/-- The module, the runs of the hook and the next place of a thread. -/
def goto (s : FsmThreads T) (t : T) (r : ModuleFsm × List ErrorReason × FsmPc) : FsmThreads T :=
  ⟨r.1, s.hooks ++ r.2.1, Function.update s.pc t r.2.2⟩

/-- One step of the whole. -/
def step (s : FsmThreads T) : FsmStep T → FsmThreads T
  | .invoke t call =>
    match s.pc t with
    | .idle => s.goto t (s.fsm, [], start call)
    | _ => s
  | .advance t => s.goto t (next s.fsm (s.pc t))
  | .setGuard predicate => { s with fsm := { s.fsm with guard := some predicate } }

theorem step_invoke {s : FsmThreads T} {t : T} (hidle : s.pc t = .idle) (call : FsmCall) :
    s.step (.invoke t call) = s.goto t (s.fsm, [], start call) := by
  simp only [step, hidle]

/-! ## The latch and the hook -/

/-- The place lies between the latch and the return of `enter_error_state`. -/
def Entering : FsmPc → Prop
  | .errorHook _ => True
  | .errorLoad => True
  | .errorSwap _ => True
  | _ => False

/-- The latch is won and the hook has still to be run. -/
def BeforeHook : FsmPc → Prop
  | .errorHook _ => True
  | _ => False

/-- The step moves the module into the error state. -/
def EntersError (s : FsmThreads T) (e : FsmStep T) : Prop :=
  s.fsm.currentState ≠ .errorState ∧ (s.step e).fsm.currentState = .errorState

instance (s : FsmThreads T) (e : FsmStep T) : Decidable (EntersError s e) :=
  inferInstanceAs (Decidable (_ ∧ _))

/-- The step does not move the module into the error state by a transition. -/
def NotByTransition (s : FsmThreads T) : FsmStep T → Prop
  | .advance t =>
    match s.pc t with
    | .transitionSwap _ _ _ => ¬ EntersError s (.advance t)
    | _ => True
  | _ => True

instance (s : FsmThreads T) (e : FsmStep T) : Decidable (NotByTransition s e) := by
  unfold NotByTransition
  split
  · split <;> infer_instance
  · infer_instance

/-- The latch, the runs of the hook and the entries into the error state. -/
structure Latched (latched error : Bool) (hooks entries : Nat) (pc : T → FsmPc) : Prop where
  unset : latched = false → hooks = 0 ∧ entries = 0 ∧ error = false ∧ ∀ t, ¬ Entering (pc t)
  set : latched = true →
    hooks = 1 ∧ (∀ t, ¬ BeforeHook (pc t)) ∨
    hooks = 0 ∧ ∃ t, BeforeHook (pc t) ∧ ∀ u, BeforeHook (pc u) → u = t
  entered : error = true → 1 ≤ entries
  notYet : latched = true → entries = 0 → ∃ t, Entering (pc t)

namespace Latched
variable {latched error error' : Bool} {hooks entries entries' : Nat} {pc : T → FsmPc} {t : T}
  {p : FsmPc}

omit [DecidableEq T] in
/-- Threads that move without crossing the latch or the hook do not matter. -/
theorem frame (h : Latched latched error hooks entries pc) {pc' : T → FsmPc}
    (hentering : ∀ u, Entering (pc' u) ↔ Entering (pc u))
    (hbefore : ∀ u, BeforeHook (pc' u) ↔ BeforeHook (pc u)) :
    Latched latched error hooks entries pc' := by
  refine ⟨?_, ?_, h.entered, ?_⟩
  · simpa only [hentering] using h.unset
  · simpa only [hbefore] using h.set
  · simpa only [hentering] using h.notYet

/-- A property of the places stays as it is if it does for the thread that moves. -/
theorem update_iff {P : FsmPc → Prop} (h : P p ↔ P (pc t)) (u : T) :
    P (update pc t p u) ↔ P (pc u) := by
  by_cases hu : u = t
  · rw [hu, update_self, h]
  · rw [update_of_ne hu]

theorem frame_update (h : Latched latched error hooks entries pc)
    (hentering : Entering p ↔ Entering (pc t)) (hbefore : BeforeHook p ↔ BeforeHook (pc t)) :
    Latched latched error hooks entries (update pc t p) :=
  h.frame (update_iff hentering) (update_iff hbefore)

section
variable (h : Latched latched error hooks entries pc)
include h

omit [DecidableEq T] in
/-- The state may leave the error state, and may not enter it. -/
theorem move (hmove : error' = true → error = true) :
    Latched latched error' hooks entries pc := by
  refine ⟨?_, h.set, fun herror => h.entered (hmove herror), h.notYet⟩
  intro hunset
  obtain ⟨hhooks, hentries, hout, hnone⟩ := h.unset hunset
  refine ⟨hhooks, hentries, ?_, hnone⟩
  cases error' with
  | false => rfl
  | true => rw [hmove rfl] at hout; exact hout

omit h in
/-- A thread wins the latch. -/
theorem win (h : Latched false error hooks entries pc) (reason : ErrorReason) :
    Latched true error hooks entries (update pc t (.errorHook reason)) := by
  obtain ⟨hhooks, _, _, hnone⟩ := h.unset rfl
  refine ⟨nofun, fun _ => .inr ⟨hhooks, t, ?_, ?_⟩, h.entered, fun _ _ => ⟨t, ?_⟩⟩
  · rw [update_self]
    trivial
  · intro u hu
    by_contra hut
    rw [update_of_ne hut] at hu
    refine hnone u ?_
    cases hpc : pc u with
    | errorHook _ => trivial
    | _ => rw [hpc] at hu; exact hu.elim
  · rw [update_self]
    trivial

omit h in
/-- A thread finds the latch taken. -/
theorem lose (h : Latched true error hooks entries pc) (hbefore : ¬ BeforeHook (pc t)) :
    Latched true error hooks entries (update pc t .errorLoad) := by
  have hsame := update_iff (P := BeforeHook) (p := .errorLoad) ⟨False.elim, hbefore⟩
  refine ⟨nofun, ?_, h.entered, fun _ _ => ⟨t, ?_⟩⟩
  · simpa only [hsame] using h.set
  · rw [update_self]
    trivial

/-- The thread that won the latch runs the hook. -/
theorem hook (hbefore : BeforeHook (pc t)) (hentering : Entering (pc t)) :
    Latched latched error (hooks + 1) entries (update pc t .errorLoad) := by
  rcases latched with _ | _
  · exact absurd hentering ((h.unset rfl).2.2.2 t)
  rcases h.set rfl with ⟨_, hnone⟩ | ⟨hhooks, w, _, honly⟩
  · exact absurd hbefore (hnone t)
  refine ⟨nofun, fun _ => .inl ⟨by rw [hhooks], ?_⟩, h.entered, fun _ _ => ⟨t, ?_⟩⟩
  · intro u hu
    by_cases hut : u = t
    · rw [hut, update_self] at hu
      exact hu
    · rw [update_of_ne hut] at hu
      exact hut ((honly u hu).trans (honly t hbefore).symm)
  · rw [update_self]
    trivial

/-- A thread returns from `enter_error_state`: the error state was entered. -/
theorem leave (hentering : Entering (pc t))
    (hbefore : ¬ BeforeHook (pc t)) (hentries : 1 ≤ entries') :
    Latched latched true hooks entries' (update pc t .idle) := by
  rcases latched with _ | _
  · exact absurd hentering ((h.unset rfl).2.2.2 t)
  have hsame := update_iff (P := BeforeHook) (p := .idle) ⟨False.elim, hbefore⟩
  refine ⟨nofun, ?_, fun _ => hentries, ?_⟩
  · simpa only [hsame] using h.set
  · intro _ hnone
    omega

end

end Latched

/-- The module is in the error state. -/
def inError (s : FsmThreads T) : Bool := s.fsm.currentState = .errorState

/-- What holds after `entries` entries into the error state. -/
def Sound (entries : Nat) (s : FsmThreads T) : Prop :=
  Latched s.fsm.errorLatched s.inError s.hooks.length entries s.pc

section Step
variable {s : FsmThreads T} {t : T} {n : Nat}

theorem not_entersError_of_state_eq {e : FsmStep T} (h : (s.step e).fsm.state = s.fsm.state) :
    ¬ EntersError s e := by
  rintro ⟨hout, hin⟩
  exact hout (by rw [← hin, ModuleFsm.currentState, ModuleFsm.currentState, h])

/-- A step of the thread keeps the account. -/
def AdvanceSound (n : Nat) (s : FsmThreads T) (t : T) : Prop :=
  Sound (n + if EntersError s (.advance t) then 1 else 0) (s.step (.advance t))

/-- A step that leaves the state of the module alone. -/
theorem advanceSound_of_next {f : ModuleFsm} {p q : FsmPc}
    (hpc : s.pc t = q) (hnext : next s.fsm q = (f, hooks, p)) (hstate : f.state = s.fsm.state)
    (h : Latched f.errorLatched s.inError (s.hooks ++ hooks).length n (update s.pc t p)) :
    AdvanceSound n s t := by
  have hstep : s.step (.advance t) = s.goto t (f, hooks, p) := by rw [step, hpc, hnext]
  have hstay : ¬ EntersError s (.advance t) := by
    apply not_entersError_of_state_eq
    rw [hstep]
    exact hstate
  have herror : (s.goto t (f, hooks, p)).inError = s.inError := by
    unfold inError goto ModuleFsm.currentState
    congr
  rw [AdvanceSound, if_neg hstay, hstep, Sound, herror]
  exact h

/-- A step that leaves the module and the hooks alone and does not cross the latch. -/
theorem advanceSound_of_moved {p q : FsmPc} (h : Sound n s) (hpc : s.pc t = q)
    (hnext : next s.fsm q = (s.fsm, [], p)) (hentering : Entering p ↔ Entering q)
    (hbefore : BeforeHook p ↔ BeforeHook q) : AdvanceSound n s t := by
  refine advanceSound_of_next hpc hnext rfl ?_
  rw [append_nil]
  exact h.frame_update (hpc ▸ hentering) (hpc ▸ hbefore)

variable {event : Event} {current : UInt8}

section
variable (h : Sound n s)
include h

theorem sound_transitionSwap {target : ModuleState}
    (hpc : s.pc t = .transitionSwap event current target) (hnot : ¬ EntersError s (.advance t)) :
    AdvanceSound n s t := by
  have hmove : (s.step (.advance t)).inError = true → s.inError = true := by
    simp only [inError, decide_eq_true_eq]
    intro hin
    by_contra hout
    exact hnot ⟨hout, hin⟩
  have hlatch : (s.step (.advance t)).fsm.errorLatched = s.fsm.errorLatched := by
    simp only [step, goto, hpc, next, ModuleFsm.compareExchange]
    split <;> rfl
  have hhooks : (s.step (.advance t)).hooks = s.hooks := by
    simp [step, goto, hpc, next]
  rw [AdvanceSound, if_neg hnot, Sound, hlatch, hhooks]
  refine Latched.move ?_ hmove
  simp only [step, goto, hpc, next]
  refine Latched.frame_update h ?_ ?_
  · rw [hpc]
    split <;> exact Iff.rfl
  · rw [hpc]
    split <;> exact Iff.rfl

theorem sound_errorLatch {reason : ErrorReason}
    (hpc : s.pc t = .errorLatch reason) : AdvanceSound n s t := by
  unfold Sound at h
  by_cases hlatch : s.fsm.errorLatched = true
  · have hlost := Latched.lose (t := t) (hlatch ▸ h) (by rw [hpc]; exact id)
    refine advanceSound_of_next hpc (by rw [next, if_pos hlatch]) rfl ?_
    rw [hlatch, append_nil]
    exact hlost
  · refine advanceSound_of_next hpc (if_neg hlatch) rfl ?_
    rw [Bool.not_eq_true] at hlatch
    rw [hlatch] at h
    rw [append_nil]
    exact h.win reason

theorem sound_errorHook {reason : ErrorReason}
    (hpc : s.pc t = .errorHook reason) : AdvanceSound n s t := by
  refine advanceSound_of_next hpc rfl rfl ?_
  rw [length_append]
  exact Latched.hook h (by rw [hpc]; trivial) (by rw [hpc]; trivial)

theorem sound_errorLoad (hpc : s.pc t = .errorLoad) : AdvanceSound n s t := by
  by_cases hstate : s.fsm.state = stateToU8 .errorState
  · have hin : s.inError = true := by
      simp [inError, ModuleFsm.currentState, hstate]
    refine advanceSound_of_next hpc (by rw [next, if_pos hstate]) rfl ?_
    rw [append_nil, hin]
    exact Latched.leave h (by rw [hpc]; trivial) (by rw [hpc]; exact id) (h.entered hin)
  · refine advanceSound_of_moved h hpc ?_ (p := .errorSwap s.fsm.state) Iff.rfl Iff.rfl
    rw [next, if_neg hstate]

theorem sound_errorSwap (hpc : s.pc t = .errorSwap current) : AdvanceSound n s t := by
  by_cases hstate : s.fsm.state = current
  · have hin : (s.step (.advance t)).fsm.currentState = .errorState := by
      simp [step, goto, hpc, next, ModuleFsm.compareExchange, hstate, ModuleFsm.currentState]
    -- the state is swapped to the error state here, or it was there before
    have hentries : 1 ≤ n + if EntersError s (.advance t) then 1 else 0 := by
      by_cases hout : s.fsm.currentState = .errorState
      · have hentered := h.entered (decide_eq_true hout)
        omega
      · rw [if_pos ⟨hout, hin⟩]
        omega
    have hleft : Latched s.fsm.errorLatched true s.hooks.length
        (n + if EntersError s (.advance t) then 1 else 0) (update s.pc t .idle) :=
      Latched.leave h (by rw [hpc]; trivial) (by rw [hpc]; exact id) hentries
    rw [AdvanceSound, Sound, inError, decide_eq_true hin]
    have hstep : s.step (.advance t) =
        s.goto t ({ s.fsm with state := stateToU8 .errorState }, [], .idle) := by
      rw [step, hpc, next, if_pos hstate, ModuleFsm.compareExchange, if_pos hstate]
    simpa only [hstep, goto, append_nil] using hleft
  · refine advanceSound_of_moved h hpc ?_ (p := .errorLoad) Iff.rfl Iff.rfl
    rw [next, ModuleFsm.compareExchange, if_neg hstate, if_neg hstate]

theorem sound_transitionLoad (hpc : s.pc t = .transitionLoad event) : AdvanceSound n s t := by
  have hnext : ∃ p, next s.fsm (.transitionLoad event) = (s.fsm, [], p) ∧ ¬ Entering p ∧
      ¬ BeforeHook p := by
    rw [next]
    split
    · exact ⟨_, rfl, id, id⟩
    · split <;> exact ⟨_, rfl, id, id⟩
  obtain ⟨p, hnext, hentering, hbefore⟩ := hnext
  exact advanceSound_of_moved h hpc hnext ⟨hentering, False.elim⟩ ⟨hbefore, False.elim⟩

theorem sound_transitionGuard {target : ModuleState} {guard : String}
    (hpc : s.pc t = .transitionGuard event current target guard) : AdvanceSound n s t := by
  refine advanceSound_of_moved h hpc rfl ?_ ?_
  · split <;> exact Iff.rfl
  · split <;> exact Iff.rfl

/-- **A step keeps the account of the entries.** -/
theorem sound_step {e : FsmStep T} (hnot : NotByTransition s e) :
    Sound (n + if EntersError s e then 1 else 0) (s.step e) := by
  cases e with
  | setGuard predicate =>
    rw [if_neg (not_entersError_of_state_eq rfl)]
    exact h
  | invoke t call =>
    by_cases hidle : s.pc t = .idle
    · have hstay : ¬ EntersError s (.invoke t call) := by
        apply not_entersError_of_state_eq
        rw [step_invoke hidle]
        rfl
      rw [if_neg hstay, step_invoke hidle, Sound, goto, append_nil]
      refine Latched.frame_update h ?_ ?_
      · rw [hidle]
        cases call <;> exact Iff.rfl
      · rw [hidle]
        cases call <;> exact Iff.rfl
    · have hstep : s.step (.invoke t call) = s := by
        simp only [step]
      rw [if_neg (not_entersError_of_state_eq (by rw [hstep])), hstep]
      exact h
  | advance t =>
    cases hpc : s.pc t with
    | idle => exact advanceSound_of_moved h hpc rfl Iff.rfl Iff.rfl
    | transitionLoad event => exact sound_transitionLoad h hpc
    | transitionGuard event current target guard => exact sound_transitionGuard h hpc
    | transitionSwap event current target =>
      simp only [NotByTransition, hpc] at hnot
      exact sound_transitionSwap h hpc hnot
    | errorLatch reason => exact sound_errorLatch h hpc
    | errorHook reason => exact sound_errorHook h hpc
    | errorLoad => exact sound_errorLoad h hpc
    | errorSwap current => exact sound_errorSwap h hpc

end

end Step

theorem sound_run {model : FsmModel} (hinitial : model.initialState ≠ .errorState)
    {events : List (FsmStep T)} (h : Along step NotByTransition (initial model) events) :
    Sound (count step EntersError (initial model) events)
      (run step (initial model) events) := by
  refine induction_snoc (I := fun es s => Sound (count step EntersError
    (initial model) es) s) ?_ ?_ h
  · refine ⟨fun _ => ⟨rfl, rfl, ?_, fun _ => id⟩, nofun, ?_, nofun⟩
    · simpa [inError, initial, ModuleFsm.new, ModuleFsm.currentState] using hinitial
    · intro herror
      simp [inError, initial, ModuleFsm.new, ModuleFsm.currentState, hinitial] at herror
  · intro es e hes _ hnot
    rw [count_snoc, run_snoc]
    exact sound_step hes hnot

/-- No call is in progress. -/
def Quiet (s : FsmThreads T) : Prop := ∀ t, s.pc t = .idle

/-- **The hook runs once for each entry into the error state**, whatever the calls and however
they interleave, in a module that does not start in that state, enters it at most once, and does
not enter it by a transition. -/
theorem zeroized_on_entry (model : FsmModel) (hinitial : model.initialState ≠ .errorState)
    (events : List (FsmStep T)) (hnot : Along step NotByTransition (initial model) events)
    (honce : count step EntersError (initial model) events ≤ 1)
    (hquiet : (run step (initial model) events).Quiet) :
    (run step (initial model) events).hooks.length =
      count step EntersError (initial model) events := by
  have h := sound_run hinitial hnot
  have hnone : ∀ t, ¬ Entering ((run step (initial model) events).pc t) := by
    intro t
    rw [hquiet t]
    exact id
  rcases hlatch : (run step (initial model) events).fsm.errorLatched with _ | _
  · obtain ⟨hhooks, hentries, _, _⟩ := h.unset hlatch
    omega
  have hentered : count step EntersError (initial model) events ≠ 0 := by
    intro hzero
    obtain ⟨t, ht⟩ := h.notYet hlatch hzero
    exact hnone t ht
  rcases h.set hlatch with ⟨hhooks, _⟩ | ⟨_, t, ht, _⟩
  · omega
  rw [hquiet t] at ht
  exact ht.elim

/-- Two threads report an error at once; the second finds the latch taken and the state set. -/
def racingErrors : List (FsmStep Bool) :=
  [.invoke true (.enterErrorState .katFailure), .invoke false (.enterErrorState .integrityFailure),
    .advance true, .advance false, .advance false, .advance true, .advance true, .advance false,
    .advance true, .advance true, .advance false, .advance false]

theorem racing_errors_zeroize_once :
    (run step (initial defaultFipsFsm) racingErrors).hooks.length =
      count step EntersError (initial defaultFipsFsm) racingErrors :=
  zeroized_on_entry defaultFipsFsm (by decide) racingErrors (by decide) (by decide) (by
    intro t
    cases t <;> rfl)

/-- An error, power off, power on, and an error again, by one thread. -/
def secondEpisode : List (FsmStep Unit) :=
  [.invoke () (.enterErrorState .katFailure), .advance (), .advance (), .advance (), .advance (),
    .invoke () (.tryTransition .powerOff), .advance (), .advance (),
    .invoke () (.tryTransition .powerOn), .advance (), .advance (),
    .invoke () (.enterErrorState .fatalRuntimeError), .advance (), .advance (), .advance ()]

/-- The power-on sequence up to a self test that fails. -/
def failedSelfTest : List (FsmStep Unit) :=
  [.invoke () (.tryTransition .powerOn), .advance (), .advance (),
    .invoke () (.tryTransition .runSelfTests), .advance (), .advance (),
    .invoke () (.tryTransition .selfTestsFailed), .advance (), .advance ()]

/-- **The second episode is not zeroized**, and a failed self test is not zeroized at all. -/
theorem entry_without_zeroize :
    defaultFipsFsm.validateFsm = .ok () ∧
    (run step (initial defaultFipsFsm) secondEpisode).pc () = .idle ∧
    (run step (initial defaultFipsFsm) secondEpisode).hooks.length = 1 ∧
    count step EntersError (initial defaultFipsFsm) secondEpisode = 2 ∧
    (run step (initial defaultFipsFsm) failedSelfTest).pc () = .idle ∧
    (run step (initial defaultFipsFsm) failedSelfTest).hooks.length = 0 ∧
    count step EntersError (initial defaultFipsFsm) failedSelfTest = 1 := by
  refine ⟨by decide, rfl, rfl, by decide, rfl, rfl, by decide⟩

end FsmThreads

end CratonHsm.Certified
