import CratonHsm.GraphSearch

/-!
# The finite state model of the module

`fsm.rs` up to the validation of a model.  The validation looks at single transitions: what
leaves `PowerOn` and `ErrorState`, and that operational states do not go straight to
`PowerOff`.  It says nothing about what leads into the operational states from `PowerOff` and
`Zeroization`, or from `SelfTest` to `PowerOff`.  Only where a model has no such transition do
the local checks add up to a cut: no way around the self test, and none around zeroization.
-/

namespace CratonHsm.Certified
open List Option

/-- The states of the module. -/
inductive ModuleState where
  | powerOff
  | powerOn
  | selfTest
  | cryptoOfficerMode
  | userMode
  | errorState
  | zeroization
  deriving DecidableEq, Repr

namespace ModuleState

/-- Every state. -/
def all : List ModuleState :=
  [powerOff, powerOn, selfTest, cryptoOfficerMode, userMode, errorState, zeroization]

theorem mem_all (s : ModuleState) : s ∈ all := by
  cases s <;> decide

instance : Fintype ModuleState where
  elems := ⟨all, by decide⟩
  complete := mem_all

/-- `CryptoOfficerMode` and `UserMode`. -/
def operational (s : ModuleState) : Bool := s = cryptoOfficerMode || s = userMode

end ModuleState

open ModuleState

/-- A transition; `from` and `to` of the source are `origin` and `target` here. -/
structure FsmTransition where
  origin : ModuleState
  target : ModuleState
  event : String
  guard : Option String := none
  deriving DecidableEq

/-- A transition graph with its initial state. -/
structure FsmModel where
  transitions : List FsmTransition
  initialState : ModuleState

/-- `default_fips_fsm`. -/
def defaultFipsFsm : FsmModel where
  initialState := .powerOff
  transitions := [
    ⟨.powerOff, .powerOn, "power_on", none⟩,
    ⟨.powerOn, .selfTest, "run_self_tests", none⟩,
    ⟨.selfTest, .cryptoOfficerMode, "self_tests_passed", some "all_kats_pass"⟩,
    ⟨.selfTest, .errorState, "self_tests_failed", none⟩,
    ⟨.cryptoOfficerMode, .userMode, "authenticate_user", some "valid_credentials"⟩,
    ⟨.userMode, .cryptoOfficerMode, "authenticate_co", some "valid_co_credentials"⟩,
    ⟨.cryptoOfficerMode, .zeroization, "zeroize", none⟩,
    ⟨.userMode, .zeroization, "zeroize", none⟩,
    ⟨.cryptoOfficerMode, .errorState, "runtime_error", none⟩,
    ⟨.userMode, .errorState, "runtime_error", none⟩,
    ⟨.errorState, .zeroization, "zeroize", none⟩,
    ⟨.errorState, .powerOff, "power_off", none⟩,
    ⟨.zeroization, .powerOff, "zeroization_complete", none⟩]

/-! ## Validation -/

/-- The violations that `validate_fsm` reports, each standing for its text. -/
inductive FsmViolation where
  | notReachable (state initial : ModuleState)
  | deadState (state : ModuleState)
  | powerOnWithoutSelfTest
  | powerOnBypass (target : ModuleState)
  | errorStateTarget (target : ModuleState)
  | operationalToPowerOff (state : ModuleState)
  | duplicate (state : ModuleState) (event : String)
  deriving DecidableEq

namespace FsmModel

/-- The states that one transition leads to. -/
def adjacency (m : FsmModel) (s : ModuleState) : List ModuleState :=
  (m.transitions.filter (·.origin = s)).map (·.target)

/-- The states that the depth-first search marks; each state is pushed at most once, so as many
rounds as there are states are enough. -/
def visited (m : FsmModel) : ModuleState → Bool :=
  (GraphSearch.search m.adjacency all.length (.start m.initialState)).visited

/-- The pairs of state and event that occur again, in the order of the transitions. -/
def duplicates : List (ModuleState × String) → List FsmTransition → List FsmViolation
  | _, [] => []
  | seen, t :: rest =>
    if (t.origin, t.event) ∈ seen then .duplicate t.origin t.event :: duplicates seen rest
    else duplicates ((t.origin, t.event) :: seen) rest

/-- `validate_fsm_inner`. -/
def violations (m : FsmModel) : List FsmViolation :=
  let powerOnTargets := m.adjacency .powerOn
  (all.filter fun s => !m.visited s).map (FsmViolation.notReachable · m.initialState) ++
  (all.filter fun s => s ≠ .powerOff && (m.adjacency s).isEmpty).map
    FsmViolation.deadState ++
  (if .selfTest ∈ powerOnTargets then [] else [FsmViolation.powerOnWithoutSelfTest]) ++
  (powerOnTargets.filter (· ≠ .selfTest)).map FsmViolation.powerOnBypass ++
  ((m.transitions.filter fun t =>
    t.origin = .errorState && t.target ≠ .zeroization && t.target ≠ .powerOff).map
      fun t => FsmViolation.errorStateTarget t.target) ++
  ((m.transitions.filter fun t => t.origin.operational && t.target = .powerOff).map
    fun t => FsmViolation.operationalToPowerOff t.origin) ++
  duplicates [] m.transitions

/-- `validate_fsm`; the source sorts the texts. -/
def validateFsm (m : FsmModel) : Except (List FsmViolation) Unit :=
  if m.violations = [] then .ok () else .error m.violations

/-! ## What a model that passes looks like -/

/-- There is a transition. -/
def Edge (m : FsmModel) (a b : ModuleState) : Prop :=
  ∃ t ∈ m.transitions, t.origin = a ∧ t.target = b

instance (m : FsmModel) (a b : ModuleState) : Decidable (m.Edge a b) :=
  inferInstanceAs (Decidable (∃ t ∈ m.transitions, _))

variable {a b : ModuleState} {seen : List (ModuleState × String)} {ts : List FsmTransition}

variable {m : FsmModel}

theorem mem_adjacency : b ∈ m.adjacency a ↔ m.Edge a b := by
  simp [adjacency, Edge, and_assoc]

theorem visited_iff {s : ModuleState} :
    m.visited s = true ↔ Relation.ReflTransGen m.Edge m.initialState s := by
  have hsearch : m.visited s = true ↔
      Relation.ReflTransGen (fun a b => b ∈ m.adjacency a) m.initialState s :=
    GraphSearch.visited_search_iff (Nat.le_refl _)
  simpa only [mem_adjacency] using hsearch

theorem duplicates_eq_nil :
    duplicates seen ts = [] ↔
      (ts.map fun t => (t.origin, t.event)).Nodup ∧ ∀ t ∈ ts, (t.origin, t.event) ∉ seen := by
  induction ts generalizing seen with
  | nil => simp [duplicates]
  | cons t rest ih =>
    rw [duplicates]
    by_cases hseen : (t.origin, t.event) ∈ seen
    · simp [hseen]
    rw [if_neg hseen, ih, map_cons, nodup_cons]
    constructor
    · rintro ⟨hrest, hnew⟩
      refine ⟨⟨fun hmem => ?_, hrest⟩, ?_⟩
      · obtain ⟨u, hu, hkey⟩ := mem_map.mp hmem
        exact hnew u hu (hkey ▸ mem_cons_self)
      exact forall_mem_cons.mpr ⟨hseen, fun u hu hmem => hnew u hu (mem_cons_of_mem _ hmem)⟩
    · rintro ⟨⟨hhead, hrest⟩, hnew⟩
      refine ⟨hrest, fun u hu hmem => ?_⟩
      rcases mem_cons.mp hmem with hkey | hmem
      · exact hhead (hkey ▸ mem_map_of_mem hu)
      · exact hnew u (mem_cons_of_mem _ hu) hmem

/-- What the checks say of the transitions. -/
structure Validated (m : FsmModel) : Prop where
  reachable : ∀ s, Relation.ReflTransGen m.Edge m.initialState s
  alive : ∀ s, s ≠ .powerOff → ∃ b, m.Edge s b
  tested : m.Edge .powerOn .selfTest
  onlyTested : ∀ b, m.Edge .powerOn b → b = .selfTest
  error : ∀ b, m.Edge .errorState b → b = .zeroization ∨ b = .powerOff
  operational : ∀ s, s.operational = true → ¬ m.Edge s .powerOff
  unambiguous : (m.transitions.map fun t => (t.origin, t.event)).Nodup

/-- **The validation accepts exactly the models with these properties.** -/
theorem validateFsm_ok_iff : m.validateFsm = .ok () ↔ m.Validated := by
  have hok : m.validateFsm = .ok () ↔ m.violations = [] := by
    unfold validateFsm
    by_cases h : m.violations = [] <;> simp [h]
  have htested : (if .selfTest ∈ m.adjacency .powerOn then []
      else [FsmViolation.powerOnWithoutSelfTest]) = [] ↔ m.Edge .powerOn .selfTest := by
    simp [mem_adjacency]
  have halive : (∀ s ∈ ModuleState.all, (s ≠ .powerOff && (m.adjacency s).isEmpty) = false) ↔
      ∀ s, s ≠ .powerOff → ∃ b, m.Edge s b := by
    simp [mem_all, ← mem_adjacency, eq_nil_iff_forall_not_mem]
  rw [hok]
  simp only [violations, append_eq_nil_iff, map_eq_nil_iff, filter_eq_nil_iff,
    Bool.not_eq_true, duplicates_eq_nil, htested, halive]
  constructor
  · rintro ⟨⟨⟨⟨⟨⟨hreach, hdead⟩, htest⟩, hbypass⟩, herror⟩, hoper⟩, hdup, _⟩
    refine ⟨?_, hdead, htest, ?_, ?_, ?_, hdup⟩
    · simpa [mem_all, visited_iff] using hreach
    · simpa [mem_adjacency] using hbypass
    · rintro b ⟨t, ht, horigin, rfl⟩
      simpa [horigin, or_iff_not_imp_left] using herror t ht
    · rintro s hs ⟨t, ht, rfl, htarget⟩
      simpa [hs, htarget] using hoper t ht
  · intro h
    refine ⟨⟨⟨⟨⟨⟨?_, h.alive⟩, h.tested⟩, ?_⟩, ?_⟩, ?_⟩, h.unambiguous, by simp⟩
    · simpa [mem_all, visited_iff] using h.reachable
    · simpa [mem_adjacency] using h.onlyTested
    · intro t ht
      by_cases horigin : t.origin = .errorState
      · simpa [horigin, or_iff_not_imp_left] using h.error t.target ⟨t, ht, horigin, rfl⟩
      · simp [horigin]
    · intro t ht
      by_cases htarget : t.target = .powerOff
      · have hno := fun hoper => h.operational t.origin hoper ⟨t, ht, rfl, htarget⟩
        simpa [htarget] using hno
      · simp [htarget]

theorem notReachable_notMem_duplicates : .notReachable a b ∉ duplicates seen ts := by
  induction ts generalizing seen with
  | nil => exact not_mem_nil
  | cons t rest ih =>
    rw [duplicates]
    split
    · simp [ih]
    · exact ih

/-- **The reachability check is exact.**  The search ends with an empty stack, and a state is
reported exactly if no transitions lead to it from the initial state. -/
theorem validateFsm_reports_unreachable (m : FsmModel) (s : ModuleState) :
    (GraphSearch.search m.adjacency all.length (.start m.initialState)).stack = [] ∧
    ((∃ vs, m.validateFsm = .error vs ∧ .notReachable s m.initialState ∈ vs) ↔
      ¬ Relation.ReflTransGen m.Edge m.initialState s) := by
  refine ⟨GraphSearch.search_stack _ _ (Nat.le_refl _), ?_⟩
  have hmem : .notReachable s m.initialState ∈ m.violations ↔
      ¬ Relation.ReflTransGen m.Edge m.initialState s := by
    have htest : FsmViolation.notReachable s m.initialState ∉
        (if .selfTest ∈ m.adjacency .powerOn then [] else [.powerOnWithoutSelfTest]) := by
      split <;> simp
    simp [violations, notReachable_notMem_duplicates, htest, mem_all, ← visited_iff]
  rw [← hmem, validateFsm]
  constructor
  · rintro ⟨vs, hvs, hin⟩
    split at hvs
    · cases hvs
    · cases hvs
      exact hin
  · intro hin
    exact ⟨_, if_neg (ne_nil_of_mem hin), hin⟩

/-! ## The cut -/

/-- A path along transitions. -/
def Path (m : FsmModel) (path : List ModuleState) : Prop := path.IsChain m.Edge

instance (m : FsmModel) (path : List ModuleState) : Decidable (m.Path path) :=
  inferInstanceAs (Decidable (path.IsChain m.Edge))

section Cut
variable {m : FsmModel}

/-- The module neither serves nor starts. -/
def Idle (s : ModuleState) : Prop := s = .powerOff ∨ s = .zeroization ∨ s = .errorState

/-- The states that a module gets to while it is idle. -/
def IdleReach (m : FsmModel) : ModuleState → ModuleState → Prop :=
  Relation.ReflTransGen fun a b => m.Edge a b ∧ Idle b

/-- Every state serves, starts or is idle. -/
theorem starts_or_idle {s : ModuleState} (h : s.operational = false) :
    s = .powerOn ∨ s = .selfTest ∨ Idle s := by
  cases s with
  | cryptoOfficerMode | userMode => cases h
  | _ => simp [Idle]

theorem Idle.ne_selfTest {s : ModuleState} (h : Idle s) : s ≠ .selfTest := by
  rintro rfl
  rcases h with h | h | h <;> cases h

theorem Path.concat {path : List ModuleState} {x s : ModuleState} (h : m.Path path)
    (hend : path.getLast? = some x) (hedge : m.Edge x s) : m.Path (path ++ [s]) := by
  refine isChain_append.mpr ⟨h, .singleton _, fun y hy z hz => ?_⟩
  cases hend.symm.trans hy
  cases hz
  exact hedge

theorem IdleReach.exists_path {x : ModuleState} (ha : Idle a) (h : m.IdleReach a x) :
    ∃ path, m.Path path ∧ path.head? = some a ∧ path.getLast? = some x ∧ ∀ s ∈ path, Idle s := by
  induction h with
  | refl => exact ⟨[a], .singleton _, rfl, rfl, by simpa using ha⟩
  | tail _ hlast ih =>
    obtain ⟨path, hpath, hhead, hend, hidle⟩ := ih
    refine ⟨path ++ [_], hpath.concat hend hlast.1, ?_, getLast?_concat, ?_⟩
    · rw [head?_append, hhead]
      rfl
    · intro s hs
      rcases mem_append.mp hs with hs | hs
      · exact hidle s hs
      · exact mem_singleton.mp hs ▸ hlast.2

/-- The self test is passed by, from the initial state, exactly if the module starts to serve while
it is idle. -/
theorem Validated.selfTest_mem_iff (h : m.Validated) :
    (∀ path, m.Path path → path.head? = some m.initialState → ∀ s, s.operational = true →
      path.getLast? = some s → .selfTest ∈ path) ↔
    m.initialState = .powerOn ∨ m.initialState = .selfTest ∨ Idle m.initialState ∧
      ∀ x, m.IdleReach m.initialState x → ∀ s, s.operational = true → ¬ m.Edge x s := by
  constructor
  · intro hcut
    have hstart : m.initialState.operational = false := by
      refine Bool.eq_false_iff.mpr fun hs => ?_
      have hself := hcut [m.initialState] (.singleton _) rfl _ hs rfl
      rw [← mem_singleton.mp hself] at hs
      cases hs
    refine (starts_or_idle hstart).imp_right
      (Or.imp_right fun hidle => ⟨hidle, fun x hx s hs hedge => ?_⟩)
    obtain ⟨path, hpath, hhead, hend, hall⟩ := IdleReach.exists_path hidle hx
    have hself : .selfTest ∈ path ++ [s] :=
      hcut (path ++ [s]) (hpath.concat hend hedge) (by rw [head?_append, hhead]; rfl) s hs
        getLast?_concat
    rcases mem_append.mp hself with hself | hself
    · exact (hall _ hself).ne_selfTest rfl
    · rw [← mem_singleton.mp hself] at hs
      cases hs
  · intro hcond path hpath hhead s hs hlast
    by_contra hnotest
    have havoid : ∀ a ∈ path, a ≠ .selfTest := fun a ha hself => hnotest (hself ▸ ha)
    -- a path that is not at the self test stays idle, or stays at `PowerOn`
    have hstay : ∀ a ∈ path, a = .powerOn ∨ Idle a ∧ m.IdleReach m.initialState a := by
      refine GraphSearch.mem_of_isChain hpath ?_ ?_
      · intro a ha
        rw [hhead] at ha
        obtain rfl := some.inj ha
        rcases hcond with hon | hself | hidle
        · exact .inl hon
        · exact absurd hself (havoid _ (mem_of_mem_head? hhead))
        · exact .inr ⟨hidle.1, .refl⟩
      · intro a _ b hb hedge ha
        rcases ha with rfl | ⟨hidle, hreach⟩
        · exact absurd (h.onlyTested b hedge) (havoid b hb)
        have hserves : b.operational = false := by
          rcases hcond with hon | hself | ⟨-, hcond⟩
          · -- nothing idle is reached from `PowerOn` before the self test
            rw [hon] at hreach
            rcases hreach.cases_head with rfl | ⟨c, ⟨hc, hcidle⟩, -⟩
            · rcases hidle with h | h | h <;> cases h
            · exact absurd (h.onlyTested c hc) hcidle.ne_selfTest
          · exact absurd hself (havoid _ (mem_of_mem_head? hhead))
          · exact Bool.eq_false_iff.mpr fun hs => hcond a hreach b hs hedge
        rcases starts_or_idle hserves with hon | hself | hbidle
        · exact .inl hon
        · exact absurd hself (havoid _ hb)
        · exact .inr ⟨hbidle, hreach.tail ⟨hedge, hbidle⟩⟩
    rcases hstay s (mem_of_getLast? hlast) with rfl | ⟨rfl | rfl | rfl, -⟩ <;> cases hs

/-- Zeroization is passed by exactly if the self test may end in `PowerOff` and an operational state
may go back to it, at once or over `PowerOn`. -/
theorem Validated.zeroization_mem_iff (h : m.Validated) :
    (∀ path, m.Path path → ∀ s, s.operational = true → path.head? = some s →
      path.getLast? = some .powerOff → .zeroization ∈ path ∨ .errorState ∈ path) ↔
    ¬ m.Edge .selfTest .powerOff ∨
      ∀ s, s.operational = true → ¬ m.Edge s .selfTest ∧ ¬ m.Edge s .powerOn := by
  constructor
  · intro hcut
    by_contra hway
    rw [not_or, not_not] at hway
    obtain ⟨hoff, hback⟩ := hway
    refine hback fun s hs => ⟨fun hself => ?_, fun hon => ?_⟩
    · have hpath : m.Path [s, .selfTest, .powerOff] := by simpa [Path] using ⟨hself, hoff⟩
      rcases hcut _ hpath s hs rfl rfl with hmem | hmem <;> cases s <;> cases hs <;>
        simp at hmem
    · have hpath : m.Path [s, .powerOn, .selfTest, .powerOff] := by
        simpa [Path] using ⟨hon, h.tested, hoff⟩
      rcases hcut _ hpath s hs rfl rfl with hmem | hmem <;> cases s <;> cases hs <;>
        simp at hmem
  · intro hcond path hpath s hs hhead hlast
    by_contra hnone
    rw [not_or] at hnone
    have hserving : ∀ a ∈ path.head?, a.operational = true := by
      intro a ha
      rw [hhead] at ha
      exact some.inj ha ▸ hs
    -- away from both, the module serves, or is on its way through the self test
    have hon : ∀ a ∈ path, a ≠ .powerOff ∧
        ((∀ s, s.operational = true → ¬ m.Edge s .selfTest ∧ ¬ m.Edge s .powerOn) →
          a.operational = true) := by
      refine GraphSearch.mem_of_isChain hpath ?_ ?_
      · intro a ha
        have hoper := hserving a ha
        refine ⟨fun hpower => ?_, fun _ => hoper⟩
        rw [hpower] at hoper
        cases hoper
      · intro a ha b hb hedge hprev
        obtain ⟨haoff, haserves⟩ := hprev
        have hboff : b ≠ .powerOff := by
          rintro rfl
          cases a with
          | powerOff => exact haoff rfl
          | powerOn => cases h.onlyTested _ hedge
          | selfTest => exact hcond.elim (fun hno => hno hedge) fun hno => by cases haserves hno
          | cryptoOfficerMode | userMode => exact h.operational _ rfl hedge
          | errorState => exact hnone.2 ha
          | zeroization => exact hnone.1 ha
        refine ⟨hboff, fun hno => ?_⟩
        obtain ⟨hself, hpoweron⟩ := hno a (haserves hno)
        cases b with
        | powerOff => exact absurd rfl hboff
        | powerOn => exact absurd hedge hpoweron
        | selfTest => exact absurd hedge hself
        | cryptoOfficerMode | userMode => rfl
        | errorState => exact absurd hb hnone.2
        | zeroization => exact absurd hb hnone.1
    exact (hon _ (mem_of_getLast? hlast)).1 rfl

end Cut

/-- **The ways around the self test and around zeroization**, exactly: a validated model has none
around the self test if it starts in `PowerOn` or `SelfTest`, or idle with no transition into an
operational state from where it gets while it is idle; and none around zeroization if the self test
does not lead to `PowerOff`, or no operational state goes back to `SelfTest` or `PowerOn`. -/
theorem self_test_and_zeroization_iff (m : FsmModel) (hvalid : m.validateFsm = .ok ()) :
    ((∀ path, m.Path path → path.head? = some m.initialState → ∀ s, s.operational = true →
      path.getLast? = some s → .selfTest ∈ path) ↔
      m.initialState = .powerOn ∨ m.initialState = .selfTest ∨ Idle m.initialState ∧
        ∀ x, m.IdleReach m.initialState x → ∀ s, s.operational = true → ¬ m.Edge x s) ∧
    ((∀ path, m.Path path → ∀ s, s.operational = true → path.head? = some s →
      path.getLast? = some .powerOff → .zeroization ∈ path ∨ .errorState ∈ path) ↔
      ¬ m.Edge .selfTest .powerOff ∨
        ∀ s, s.operational = true → ¬ m.Edge s .selfTest ∧ ¬ m.Edge s .powerOn) :=
  ⟨(validateFsm_ok_iff.mp hvalid).selfTest_mem_iff,
    (validateFsm_ok_iff.mp hvalid).zeroization_mem_iff⟩

/-- The default model, with a way from `SelfTest` to `PowerOff` and one from `Zeroization` to user
mode that is not taken before the self test. -/
def resumingFsm : FsmModel where
  initialState := .powerOff
  transitions := defaultFipsFsm.transitions ++ [
    ⟨.selfTest, .powerOff, "power_off", none⟩, ⟨.zeroization, .userMode, "resume", none⟩]

/-- It has no way around the self test, and none around zeroization. -/
theorem self_test_and_zeroization_iff_resuming :
    (∀ path, resumingFsm.Path path → path.head? = some .powerOff →
      path.getLast? = some .userMode → .selfTest ∈ path) ∧
    (∀ path, resumingFsm.Path path → path.head? = some .userMode →
      path.getLast? = some .powerOff → .zeroization ∈ path ∨ .errorState ∈ path) := by
  obtain ⟨htest, hzero⟩ := self_test_and_zeroization_iff resumingFsm (by decide)
  have hreach : ∀ x, resumingFsm.IdleReach .powerOff x → x = .powerOff := by
    intro x hx
    induction hx with
    | refl => rfl
    | tail _ hlast ih =>
      subst ih
      rcases hlast.2 with rfl | rfl | rfl
      · rfl
      · exact absurd hlast.1 (by decide)
      · exact absurd hlast.1 (by decide)
  refine ⟨fun path hpath hhead => htest.mpr (.inr (.inr ⟨.inl rfl, fun x hx s hs => ?_⟩)) path hpath
    hhead .userMode rfl, fun path hpath => hzero.mpr (.inr fun s hs => ?_) path hpath .userMode rfl⟩
  · rw [hreach x hx]
    revert hs
    cases s <;> decide
  · revert hs
    cases s <;> decide

/-- The default model with three transitions more: a return from the officer to the self test, a
way from `PowerOff` to user mode and one from `SelfTest` to `PowerOff`. -/
def bypassFsm : FsmModel where
  initialState := .powerOff
  transitions := defaultFipsFsm.transitions ++ [
    ⟨.powerOff, .userMode, "resume", none⟩,
    ⟨.cryptoOfficerMode, .selfTest, "run_self_tests", none⟩,
    ⟨.selfTest, .powerOff, "power_off", none⟩]

/-- **The validation accepts a model with both ways around.** -/
theorem validated_model_with_bypass :
    bypassFsm.validateFsm = .ok () ∧
    bypassFsm.Path [.powerOff, .userMode] ∧
    bypassFsm.initialState = .powerOff ∧
    .selfTest ∉ [ModuleState.powerOff, .userMode] ∧
    bypassFsm.Path [.cryptoOfficerMode, .selfTest, .powerOff] ∧
    .zeroization ∉ [ModuleState.cryptoOfficerMode, .selfTest, .powerOff] ∧
    .errorState ∉ [ModuleState.cryptoOfficerMode, .selfTest, .powerOff] := by
  decide

end FsmModel

end CratonHsm.Certified
