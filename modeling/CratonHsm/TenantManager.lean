import CratonHsm.AuthTypes
import CratonHsm.GuardedRun

/-!
# Tenants and their quotas

`TenantManager` as sequential code: tenants and usage counters in two maps, and reservations
against the quota of the tenant.

A deletion does not wait for sessions, and a session is released by the name of its tenant
alone.  A session of a deleted incarnation therefore counts down the counter of the next one,
and its quota can be exceeded by the difference; it cannot as long as every release meets the
incarnation it was reserved under.
-/

namespace CratonHsm.Auth
open GuardedRun Function

/-! ## The manager -/

/-- `TenantConfig`, without the list of algorithms, which the manager does not read. -/
structure TenantConfig where
  maxKeys : UInt64 := 10000
  maxSessions : UInt64 := 100

/-- `Tenant`; name and creation time are not read. -/
structure Tenant where
  config : TenantConfig
  enabled : Bool

/-- How many keys and sessions a tenant has. -/
structure TenantUsage where
  keyCount : Nat := 0
  sessionCount : Nat := 0
  deriving DecidableEq

/-- What a tenant has a quota of. -/
inductive Resource where
  | key
  | session
  deriving DecidableEq

/-- The quota of a tenant. -/
def TenantConfig.quota (c : TenantConfig) : Resource → Nat
  | .key => c.maxKeys.toNat
  | .session => c.maxSessions.toNat

def TenantUsage.count (u : TenantUsage) : Resource → Nat
  | .key => u.keyCount
  | .session => u.sessionCount

/-- The atomic update of one counter. -/
def TenantUsage.modify (u : TenantUsage) (f : Nat → Nat) : Resource → TenantUsage
  | .key => { u with keyCount := f u.keyCount }
  | .session => { u with sessionCount := f u.sessionCount }

/-- `TenantManager`: the maps as functions. -/
structure TenantManager where
  tenants : TenantId → Option Tenant
  usage : TenantId → Option TenantUsage

namespace TenantManager

/-- `TenantManager::new`. -/
def new : TenantManager := ⟨fun _ => none, fun _ => none⟩

/-- `create_tenant`. -/
def createTenant (m : TenantManager) (id : TenantId) (config : TenantConfig) :
    Except HsmError Unit × TenantManager :=
  match m.tenants id with
  | some _ => (.error .generalError, m)
  | none =>
    (.ok (), {
      tenants := Function.update m.tenants id (some ⟨config, true⟩)
      usage := Function.update m.usage id (some {}) })

/-- The key count that `delete_tenant` reads; a missing record counts as zero. -/
def keyCount (m : TenantManager) (id : TenantId) : Nat :=
  match m.usage id with
  | some u => u.keyCount
  | none => 0

/-- `delete_tenant`.  The refused deletion sets the tenant enabled. -/
def deleteTenant (m : TenantManager) (id : TenantId) : Except HsmError Unit × TenantManager :=
  match m.tenants id with
  | none => (.error .generalError, m)
  | some t =>
    if 0 < m.keyCount id then
      (.error .generalError,
        { m with tenants := Function.update m.tenants id (some { t with enabled := true }) })
    else
      (.ok (), {
        tenants := Function.update m.tenants id none
        usage := Function.update m.usage id none })

/-- The two decrements: saturating, and nothing without a record. -/
def decrement (m : TenantManager) (r : Resource) (id : TenantId) : TenantManager :=
  match m.usage id with
  | none => m
  | some u => { m with usage := Function.update m.usage id (some (u.modify (· - 1) r)) }

/-- `decrement_key_count`. -/
def decrementKeyCount (m : TenantManager) (id : TenantId) : TenantManager := m.decrement .key id

/-- `decrement_session_count`. -/
def decrementSessionCount (m : TenantManager) (id : TenantId) : TenantManager :=
  m.decrement .session id

/-- The first half of a reservation: the quota of an enabled tenant. -/
def quotaOf (m : TenantManager) (r : Resource) (id : TenantId) : Except HsmError Nat :=
  match m.tenants id with
  | none => .error .generalError
  | some t => if t.enabled then .ok (t.config.quota r) else .error .generalError

/-- The second half: one more within the quota. -/
def countUp (m : TenantManager) (r : Resource) (id : TenantId) (max : Nat) :
    Except HsmError Unit × TenantManager :=
  match m.usage id with
  | none => (.error .generalError, m)
  | some u =>
    if u.count r < max then
      (.ok (), { m with usage := Function.update m.usage id (some (u.modify (· + 1) r)) })
    else (.error .tenantQuotaExceeded, m)

/-- The two reservations. -/
def tryReserve (m : TenantManager) (r : Resource) (id : TenantId) :
    Except HsmError Unit × TenantManager :=
  match m.quotaOf r id with
  | .error e => (.error e, m)
  | .ok max => m.countUp r id max

/-- `try_reserve_session`. -/
def tryReserveSession (m : TenantManager) (id : TenantId) :
    Except HsmError Unit × TenantManager :=
  m.tryReserve .session id

variable {m : TenantManager} {r : Resource} {id : TenantId}

/-- The second half of a reservation either changes nothing or counts one more. -/
theorem countUp_cases (m : TenantManager) (r : Resource) (id : TenantId) (max : Nat) :
    (∃ e, m.countUp r id max = (.error e, m)) ∨
    ∃ u, m.usage id = some u ∧ u.count r < max ∧ m.countUp r id max =
      (.ok (), { m with usage := update m.usage id (some (u.modify (· + 1) r)) }) := by
  unfold countUp
  cases hu : m.usage id with
  | none => exact .inl ⟨_, rfl⟩
  | some u =>
    by_cases hroom : u.count r < max
    · exact .inr ⟨u, rfl, hroom, by simp [hroom]⟩
    · exact .inl ⟨.tenantQuotaExceeded, by simp [hroom]⟩

/-- A reservation either changes nothing or counts one more within the quota. -/
theorem tryReserve_cases (m : TenantManager) (r : Resource) (id : TenantId) :
    (∃ e, m.tryReserve r id = (.error e, m)) ∨
    ∃ t u, m.tenants id = some t ∧ m.usage id = some u ∧ u.count r < t.config.quota r ∧
      m.tryReserve r id =
        (.ok (), { m with usage := update m.usage id (some (u.modify (· + 1) r)) }) := by
  unfold tryReserve quotaOf
  rcases ht : m.tenants id with _ | t
  · exact .inl ⟨_, rfl⟩
  by_cases henabled : t.enabled = true
  · simp only [henabled, if_true]
    rcases m.countUp_cases r id (t.config.quota r) with ⟨e, hgo⟩ | ⟨u, hu, hroom, hgo⟩
    · exact .inl ⟨e, hgo⟩
    · exact .inr ⟨t, u, rfl, hu, hroom, hgo⟩
  · exact .inl ⟨.generalError, by simp [henabled]⟩

end TenantManager

/-! ## Sessions across incarnations -/

/-- A run on session quotas: the manager, and beside it how often each tenant was created, the
configuration of its latest creation, and how many sessions each incarnation has reserved and
not yet released. -/
structure SessionBooks where
  manager : TenantManager
  incarnation : TenantId → Nat
  latest : TenantId → Option TenantConfig
  live : TenantId → Nat → Nat

/-- Nothing was created. -/
def SessionBooks.initial : SessionBooks := ⟨.new, fun _ => 0, fun _ => none, fun _ _ => 0⟩

/-- A call; a release names the incarnation under which its session was reserved, which
`decrement_session_count` is not told. -/
inductive SessionCall where
  | create (id : TenantId) (config : TenantConfig)
  | delete (id : TenantId)
  | reserve (id : TenantId)
  | release (id : TenantId) (incarnation : Nat)

/-- The tenant a call is about. -/
def SessionCall.tenant : SessionCall → TenantId
  | create id _ => id
  | delete id => id
  | reserve id => id
  | release id _ => id

namespace SessionBooks

/-- The sessions of one incarnation, changed. -/
def withLive (s : SessionBooks) (id : TenantId) (i n : Nat) : TenantId → Nat → Nat :=
  Function.update s.live id (Function.update (s.live id) i n)

/-- One call. -/
def step (s : SessionBooks) : SessionCall → SessionBooks
  | .create id config =>
    match s.manager.createTenant id config with
    | (.error _, m) => { s with manager := m }
    | (.ok (), m) =>
      { s with
        manager := m
        incarnation := Function.update s.incarnation id (s.incarnation id + 1)
        latest := Function.update s.latest id (some config) }
  | .delete id => { s with manager := (s.manager.deleteTenant id).2 }
  | .reserve id =>
    match s.manager.tryReserveSession id with
    | (.error _, m) => { s with manager := m }
    | (.ok (), m) =>
      { s with
        manager := m
        live := s.withLive id (s.incarnation id) (s.live id (s.incarnation id) + 1) }
  | .release id i =>
    { s with
      manager := s.manager.decrementSessionCount id
      live := s.withLive id i (s.live id i - 1) }

/-- The call releases a session that is reserved and not yet released. -/
def ReleasesLive (s : SessionBooks) : SessionCall → Prop
  | .release id i => 0 < s.live id i
  | _ => True

/-- The call does not release a session of an earlier incarnation while the tenant is in use
again. -/
def ReleasesCurrent (s : SessionBooks) : SessionCall → Prop
  | .release id i => s.manager.usage id = none ∨ i = s.incarnation id
  | _ => True

/-- The sessions of the latest incarnation. -/
def current (s : SessionBooks) (id : TenantId) : Nat := s.live id (s.incarnation id)

/-- The books of one tenant are in order: counter and sessions agree while it exists, and the
sessions of the latest incarnation are within its quota. -/
structure InOrder (s : SessionBooks) (id : TenantId) : Prop where
  absent : s.manager.tenants id = none → s.manager.usage id = none
  present : ∀ t, s.manager.tenants id = some t → s.latest id = some t.config ∧
    ∃ u, s.manager.usage id = some u ∧ u.sessionCount = s.current id
  future : ∀ i, s.incarnation id < i → s.live id i = 0
  quota : ∀ c, s.latest id = some c → s.current id ≤ c.maxSessions.toNat

variable {s : SessionBooks} {id : TenantId}

theorem inOrder_initial (id : TenantId) : initial.InOrder id where
  absent _ := rfl
  present t ht := by cases ht
  future _ _ := rfl
  quota c hc := by cases hc

section
variable (h : s.InOrder id)
include h

/-- The books of one tenant depend only on what they hold under its name. -/
theorem InOrder.congr {s' : SessionBooks} (htenants : s'.manager.tenants id = s.manager.tenants id)
    (husage : s'.manager.usage id = s.manager.usage id)
    (hincarnation : s'.incarnation id = s.incarnation id) (hlatest : s'.latest id = s.latest id)
    (hlive : s'.live id = s.live id) : s'.InOrder id := by
  have hcurrent : s'.current id = s.current id := by
    unfold current
    rw [hlive, hincarnation]
  constructor
  · rw [htenants, husage]
    exact h.absent
  · rw [htenants, husage, hlatest, hcurrent]
    exact h.present
  · rw [hincarnation, hlive]
    exact h.future
  · rw [hlatest, hcurrent]
    exact h.quota

/-- A call about another tenant leaves the books alone. -/
theorem InOrder.step_other {call : SessionCall} (hne : id ≠ call.tenant) :
    (s.step call).InOrder id := by
  cases call with
  | create k config =>
    simp only [step, TenantManager.createTenant]
    cases s.manager.tenants k with
    | some t => exact h.congr rfl rfl rfl rfl rfl
    | none =>
      exact h.congr (update_of_ne hne _ _) (update_of_ne hne _ _)
        (update_of_ne hne _ _) (update_of_ne hne _ _) rfl
  | delete k =>
    simp only [step, TenantManager.deleteTenant]
    rcases s.manager.tenants k with _ | t
    · exact h.congr rfl rfl rfl rfl rfl
    dsimp only
    split
    · exact h.congr (update_of_ne hne _ _) rfl rfl rfl rfl
    · exact h.congr (update_of_ne hne _ _) (update_of_ne hne _ _) rfl rfl rfl
  | reserve k =>
    simp only [step, TenantManager.tryReserveSession]
    rcases s.manager.tryReserve_cases .session k with ⟨e, hgo⟩ | ⟨t, u, -, -, -, hgo⟩
    · rw [hgo]
      exact h
    · rw [hgo]
      exact h.congr rfl (update_of_ne hne _ _) rfl rfl (update_of_ne hne _ _)
  | release k i =>
    refine h.congr ?_ ?_ rfl rfl (update_of_ne hne _ _)
    · simp only [step, TenantManager.decrementSessionCount, TenantManager.decrement]
      split <;> rfl
    simp only [step, TenantManager.decrementSessionCount, TenantManager.decrement]
    split
    · rfl
    · exact update_of_ne hne _ _

theorem InOrder.step_create (config : TenantConfig) : (s.step (.create id config)).InOrder id := by
  simp only [step, TenantManager.createTenant]
  cases ht : s.manager.tenants id with
  | some t => exact h
  | none =>
    -- the new incarnation has no session yet
    have hnew : s.live id (s.incarnation id + 1) = 0 := h.future _ (Nat.lt_succ_self _)
    constructor
    · simp
    · intro t htenant
      simp only [update_self, Option.some.injEq] at htenant
      subst htenant
      refine ⟨by simp, {}, by simp, ?_⟩
      simp [current, hnew]
    · intro i hi
      simp only [update_self] at hi
      exact h.future i (by omega)
    · intro c hc
      simp [current, hnew]

theorem InOrder.step_delete : (s.step (.delete id)).InOrder id := by
  simp only [step, TenantManager.deleteTenant]
  rcases ht : s.manager.tenants id with _ | t
  · exact h
  obtain ⟨hlatest, u, hu, hcount⟩ := h.present t ht
  dsimp only
  split
  · constructor
    · simp
    · intro t' htenant
      simp only [update_self, Option.some.injEq] at htenant
      subst htenant
      exact ⟨hlatest, u, hu, hcount⟩
    · exact h.future
    · exact h.quota
  · constructor
    · simp
    · intro t' htenant
      simp at htenant
    · exact h.future
    · exact h.quota

end

theorem current_withLive (s : SessionBooks) (id : TenantId) (n : Nat) :
    s.withLive id (s.incarnation id) n id (s.incarnation id) = n := by
  simp [withLive]

section
variable (h : s.InOrder id)
include h

theorem future_withLive {i n : Nat}
    (hi : i ≤ s.incarnation id ∨ n = 0) :
    ∀ j, s.incarnation id < j → s.withLive id i n id j = 0 := by
  intro j hj
  simp only [withLive, update_self]
  by_cases hji : j = i
  · subst hji
    rw [update_self]
    omega
  · rw [update_of_ne hji]
    exact h.future j hj

theorem InOrder.step_reserve : (s.step (.reserve id)).InOrder id := by
  simp only [step, TenantManager.tryReserveSession]
  rcases s.manager.tryReserve_cases .session id with ⟨e, hgo⟩ | ⟨t, u, ht, hu, hroom, hgo⟩
  · rw [hgo]
    exact h
  rw [hgo]
  obtain ⟨hlatest, u', hu', hcount⟩ := h.present t ht
  cases hu.symm.trans hu'
  constructor
  · intro hnone
    rw [ht] at hnone
    cases hnone
  · intro t' htenant
    cases ht.symm.trans htenant
    refine ⟨hlatest, _, update_self .., ?_⟩
    exact (congrArg (· + 1) hcount).trans (current_withLive s id _).symm
  · exact future_withLive h (.inl (Nat.le_refl _))
  · intro c hc
    cases hlatest.symm.trans hc
    have hless : u.sessionCount < t.config.maxSessions.toNat := hroom
    rw [hcount, current] at hless
    exact Nat.le_trans (Nat.le_of_eq (current_withLive s id _)) hless

theorem InOrder.step_release {i : Nat} (hi : s.manager.usage id = none ∨ i = s.incarnation id) :
    (s.step (.release id i)).InOrder id := by
  -- the sessions of the latest incarnation do not grow
  have hle : s.withLive id i (s.live id i - 1) id (s.incarnation id) ≤ s.current id := by
    simp only [withLive, update_self, current]
    by_cases he : s.incarnation id = i
    · rw [he, update_self]
      omega
    · refine Nat.le_of_eq ?_
      rw [update_of_ne he]
  have hfuture := future_withLive h (i := i) (n := s.live id i - 1) (by
    by_cases hlate : i ≤ s.incarnation id
    · exact .inl hlate
    · exact .inr (by rw [h.future i (by omega)]))
  have hquota : ∀ c, s.latest id = some c →
      s.withLive id i (s.live id i - 1) id (s.incarnation id) ≤ c.maxSessions.toNat :=
    fun c hc => Nat.le_trans hle (h.quota c hc)
  simp only [step, TenantManager.decrementSessionCount, TenantManager.decrement]
  cases hu : s.manager.usage id with
  | none =>
    refine ⟨fun _ => hu, ?_, hfuture, hquota⟩
    intro t ht
    obtain ⟨-, u, hu', -⟩ := h.present t ht
    cases hu.symm.trans hu'
  | some u =>
    rcases hi with hnone | rfl
    · cases hu.symm.trans hnone
    refine ⟨?_, ?_, hfuture, hquota⟩
    · intro ht
      cases hu.symm.trans (h.absent ht)
    intro t ht
    obtain ⟨hlatest, u', hu', hcount⟩ := h.present t ht
    cases hu.symm.trans hu'
    refine ⟨hlatest, _, update_self .., ?_⟩
    exact (congrArg (· - 1) hcount).trans (current_withLive s id _).symm

/-- One call keeps all books in order. -/
theorem InOrder.step {call : SessionCall} (hcall : s.ReleasesCurrent call) :
    (s.step call).InOrder id := by
  by_cases hne : id = call.tenant
  · cases call with
    | create k config =>
      cases hne
      exact h.step_create config
    | delete k =>
      cases hne
      exact h.step_delete
    | reserve k =>
      cases hne
      exact h.step_reserve
    | release k i =>
      cases hne
      exact h.step_release hcall
  · exact h.step_other hne

end

end SessionBooks

open SessionBooks

/-- **The session quota survives re-creation** when no session of an earlier incarnation is
released while the tenant is in use again. -/
theorem session_quota {calls : List SessionCall}
    (h : Along SessionBooks.step ReleasesCurrent .initial calls) (id : TenantId) :
    ∀ c, (run SessionBooks.step .initial calls).latest id = some c →
      (run SessionBooks.step .initial calls).current id ≤ c.maxSessions.toNat :=
  (induction_run (I := fun s : SessionBooks => s.InOrder id) (fun _ _ hs he => hs.step he)
    (inOrder_initial id) h).quota

/-- A tenant with room for one session. -/
def acme : TenantId := ⟨"acme", by decide +kernel⟩

def oneSession : TenantConfig := { maxSessions := 1 }

/-- A session outlives the tenant and is released before the tenant is created again. -/
theorem session_quota_recreated :
    (run SessionBooks.step .initial [.create acme oneSession, .reserve acme, .delete acme,
      .release acme 1, .create acme oneSession, .reserve acme]).current acme ≤ 1 := by
  refine session_quota ?_ acme oneSession ?_
  · exact ⟨trivial, trivial, trivial, .inl rfl, trivial, trivial, trivial⟩
  · rfl

/-- The release of a session of the first incarnation makes room for a second session of the
next one. -/
theorem session_quota_exceeded : ∃ calls, Along SessionBooks.step ReleasesLive .initial calls ∧
    (run SessionBooks.step .initial calls).latest acme = some oneSession ∧
    oneSession.maxSessions.toNat < (run SessionBooks.step .initial calls).current acme := by
  refine ⟨[.create acme oneSession, .reserve acme, .delete acme, .create acme oneSession,
    .reserve acme, .release acme 1, .reserve acme], ?_, rfl, by decide +kernel⟩
  exact ⟨trivial, trivial, trivial, trivial, trivial, Nat.zero_lt_one, trivial, trivial⟩

end CratonHsm.Auth
