import CratonHsm.TenantManager

/-!
# Tenants under concurrent calls

`create_tenant`, `delete_tenant`, `try_reserve_key` and `decrement_key_count` as programs of
threads that interleave at every operation on a map and every atomic update.  The guard that
`delete_tenant` holds on the tenant's entry and the guards that pin a usage record are held
as written.

The two maps are not updated together: a reservation drops its guard on the tenant before it
counts, and creation and deletion touch the usage record after the tenant.  So a deletion that
overlaps a creation or a reservation of the same tenant can leave one map without the other
and lose a reserved key.  Without such an overlap the maps agree whenever no call is in
progress, and a tenant with reserved keys stays.
-/

namespace CratonHsm.Auth
open GuardedRun Function TenantManager Option

/-! ## Threads -/

/-- A call that a thread can make. -/
inductive TenantCall where
  | create (id : TenantId) (config : TenantConfig)
  | delete (id : TenantId)
  | reserveKey (id : TenantId)
  | decrementKey (id : TenantId)

/-- Where a thread stands: before each operation on a map and each atomic update of a call. -/
inductive Pc where
  | idle
  /-- `create_tenant` before `tenants.entry`. -/
  | create (id : TenantId) (config : TenantConfig)
  /-- `create_tenant` before `usage.insert`. -/
  | createUsage (id : TenantId)
  /-- `delete_tenant` before `tenants.entry`. -/
  | delete (id : TenantId)
  /-- `delete_tenant` with the entry, before it reads the key count. -/
  | deleteCount (id : TenantId)
  /-- `delete_tenant` with the entry and the count. -/
  | deleteDecide (id : TenantId) (keyCount : Nat)
  /-- `delete_tenant` before `usage.remove`. -/
  | deleteUsage (id : TenantId)
  /-- `try_reserve_key` before `tenants.get`. -/
  | reserve (id : TenantId)
  /-- `try_reserve_key` before `usage.get`. -/
  | reserveUsage (id : TenantId) (max : Nat)
  /-- `try_reserve_key` with the usage record, before `fetch_update`. -/
  | reserveCount (id : TenantId) (max : Nat)
  /-- `decrement_key_count` before `usage.get`. -/
  | decrement (id : TenantId)
  /-- `decrement_key_count` with the usage record, before `fetch_update`. -/
  | decrementCount (id : TenantId)

namespace Pc

/-- The tenant the thread is at work on. -/
def tenant : Pc → Option TenantId
  | idle => none
  | create id _ => some id
  | createUsage id => some id
  | delete id => some id
  | deleteCount id => some id
  | deleteDecide id _ => some id
  | deleteUsage id => some id
  | reserve id => some id
  | reserveUsage id _ => some id
  | reserveCount id _ => some id
  | decrement id => some id
  | decrementCount id => some id

/-- The thread is between calls. -/
def isIdle : Pc → Bool
  | idle => true
  | _ => false

/-- The thread holds the entry of the tenant. -/
def holdsTenant (id : TenantId) : Pc → Bool
  | deleteCount k => k = id
  | deleteDecide k _ => k = id
  | _ => false

/-- The thread holds a read guard on the usage record. -/
def readsUsage (id : TenantId) : Pc → Bool
  | reserveCount k _ => k = id
  | decrementCount k => k = id
  | _ => false

/-- The thread holds no entry and is not about to add or remove a usage record. -/
def passive : Pc → Bool
  | createUsage _ => false
  | deleteCount _ => false
  | deleteDecide _ _ => false
  | deleteUsage _ => false
  | _ => true

/-- The thread is in `delete_tenant`. -/
def deletes (id : TenantId) : Pc → Bool
  | delete k => k = id
  | deleteCount k => k = id
  | deleteDecide k _ => k = id
  | deleteUsage k => k = id
  | _ => false

/-- The thread is in `create_tenant` or `try_reserve_key`. -/
def createsOrReserves (id : TenantId) : Pc → Bool
  | create k _ => k = id
  | createUsage k => k = id
  | reserve k => k = id
  | reserveUsage k _ => k = id
  | reserveCount k _ => k = id
  | _ => false

end Pc

/-- Where a call begins. -/
def TenantCall.start : TenantCall → Pc
  | create id config => .create id config
  | delete id => .delete id
  | reserveKey id => .reserve id
  | decrementKey id => .decrement id

/-- `n` threads on one manager, and beside them how many reservations succeeded and how many
decrements were made since the latest creation of each tenant. -/
structure TenantThreads (n : Nat) where
  manager : TenantManager
  pc : Fin n → Pc
  reserved : TenantId → Nat
  decremented : TenantId → Nat

/-- A thread begins a call or makes its next step. -/
inductive ThreadStep (n : Nat) where
  | invoke (t : Fin n) (call : TenantCall)
  | advance (t : Fin n)

namespace TenantThreads
variable {n : Nat} {p : Pc}

/-- No call has been made yet. -/
def initial : TenantThreads n := ⟨.new, fun _ => .idle, fun _ => 0, fun _ => 0⟩

/-- The entry of the tenant is not held. -/
def TenantFree (s : TenantThreads n) (id : TenantId) : Prop := ∀ t, (s.pc t).holdsTenant id = false

/-- The usage record is not pinned. -/
def UsageFree (s : TenantThreads n) (id : TenantId) : Prop := ∀ t, (s.pc t).readsUsage id = false

instance (s : TenantThreads n) (id : TenantId) : Decidable (s.TenantFree id) :=
  inferInstanceAs (Decidable (∀ t, (s.pc t).holdsTenant id = false))

instance (s : TenantThreads n) (id : TenantId) : Decidable (s.UsageFree id) :=
  inferInstanceAs (Decidable (∀ t, (s.pc t).readsUsage id = false))

/-- The thread stands at `p` next. -/
def goto (s : TenantThreads n) (t : Fin n) (p : Pc) : TenantThreads n :=
  { s with pc := Function.update s.pc t p }

def setTenant (s : TenantThreads n) (id : TenantId) (tenant : Option Tenant) : TenantThreads n :=
  { s with manager := { s.manager with tenants := Function.update s.manager.tenants id tenant } }

def setUsage (s : TenantThreads n) (id : TenantId) (usage : Option TenantUsage) :
    TenantThreads n :=
  { s with manager := { s.manager with usage := Function.update s.manager.usage id usage } }

/-- Both counts begin anew. -/
def resetCounts (s : TenantThreads n) (id : TenantId) : TenantThreads n :=
  { s with
    reserved := Function.update s.reserved id 0
    decremented := Function.update s.decremented id 0 }

def countReserved (s : TenantThreads n) (id : TenantId) : TenantThreads n :=
  { s with reserved := Function.update s.reserved id (s.reserved id + 1) }

def countDecremented (s : TenantThreads n) (id : TenantId) : TenantThreads n :=
  { s with decremented := Function.update s.decremented id (s.decremented id + 1) }

/-- The next step of a thread; it stays where it is while another holds what it needs. -/
def advance (s : TenantThreads n) (t : Fin n) : TenantThreads n :=
  match s.pc t with
  | .idle => s
  | .create id config =>
    if s.TenantFree id then
      match s.manager.tenants id with
      | some _ => s.goto t .idle
      | none => ((s.setTenant id (some ⟨config, true⟩)).resetCounts id).goto t (.createUsage id)
    else s
  | .createUsage id => if s.UsageFree id then (s.setUsage id (some {})).goto t .idle else s
  | .delete id =>
    if s.TenantFree id then
      match s.manager.tenants id with
      | none => s.goto t .idle
      | some tenant =>
        (s.setTenant id (some { tenant with enabled := false })).goto t (.deleteCount id)
    else s
  | .deleteCount id => s.goto t (.deleteDecide id (s.manager.keyCount id))
  | .deleteDecide id keyCount =>
    if 0 < keyCount then
      (s.setTenant id ((s.manager.tenants id).map fun tenant =>
        { tenant with enabled := true })).goto
        t .idle
    else (s.setTenant id none).goto t (.deleteUsage id)
  | .deleteUsage id => if s.UsageFree id then (s.setUsage id none).goto t .idle else s
  | .reserve id =>
    if s.TenantFree id then
      match s.manager.quotaOf .key id with
      | .error _ => s.goto t .idle
      | .ok max => s.goto t (.reserveUsage id max)
    else s
  | .reserveUsage id max =>
    match s.manager.usage id with
    | none => s.goto t .idle
    | some _ => s.goto t (.reserveCount id max)
  | .reserveCount id max =>
    match s.manager.countUp .key id max with
    | (.error _, _) => s.goto t .idle
    | (.ok (), m) => ({ s with manager := m }.countReserved id).goto t .idle
  | .decrement id =>
    match s.manager.usage id with
    | none => (s.countDecremented id).goto t .idle
    | some _ => s.goto t (.decrementCount id)
  | .decrementCount id =>
    ({ s with manager := s.manager.decrementKeyCount id }.countDecremented id).goto t .idle

/-- One step of the whole. -/
def step (s : TenantThreads n) : ThreadStep n → TenantThreads n
  | .invoke t call => if (s.pc t).isIdle then s.goto t call.start else s
  | .advance t => s.advance t

/-- No call is in progress. -/
def Quiescent (s : TenantThreads n) : Prop := ∀ t, (s.pc t).isIdle = true

/-- No deletion of a tenant overlaps a creation or a reservation of it. -/
def Separated (s : TenantThreads n) : Prop :=
  ∀ t u id, (s.pc t).deletes id = true → (s.pc u).createsOrReserves id = false

/-! ## The maps between calls -/

theorem tenant_of_deletes {id : TenantId} (h : p.deletes id = true) :
    p.tenant = some id := by
  cases p <;> simp_all [Pc.deletes, Pc.tenant]

/-- Separation can be checked at the tenants that the threads are at work on. -/
theorem separated_iff {s : TenantThreads n} : s.Separated ↔
    ∀ t u, ((s.pc t).tenant.all fun id => !(s.pc t).deletes id || !(s.pc u).createsOrReserves id) =
      true := by
  constructor
  · intro h t u
    cases htenant : (s.pc t).tenant with
    | none => rfl
    | some id =>
      cases hdeletes : (s.pc t).deletes id with
      | false => simp [hdeletes]
      | true => simp [h t u id hdeletes]
  · intro h t u id hdeletes
    have hall := h t u
    rw [tenant_of_deletes hdeletes] at hall
    simpa [hdeletes] using hall

instance (s : TenantThreads n) : Decidable s.Separated := decidable_of_iff' _ separated_iff

instance (s : TenantThreads n) : Decidable s.Quiescent :=
  inferInstanceAs (Decidable (∀ t, (s.pc t).isIdle = true))

/-- **What the maps have in common while calls are in progress**, for one tenant: each entry
has its counterpart or a thread about to add or remove it, the entry's holder is alone, a
deletion past its decision has met no key, and the keys outstanding are counted. -/
structure Consistent (s : TenantThreads n) (id : TenantId) : Prop where
  tenantCounted : s.manager.tenants id ≠ none →
    s.manager.usage id ≠ none ∨ ∃ t, s.pc t = .createUsage id
  countOwned : s.manager.usage id ≠ none →
    s.manager.tenants id ≠ none ∨ ∃ t, s.pc t = .deleteUsage id
  creating : ∀ t, s.pc t = .createUsage id →
    s.manager.tenants id ≠ none ∧ s.manager.usage id = none
  oneCreator : ∀ t u, s.pc t = .createUsage id → s.pc u = .createUsage id → t = u
  holding : ∀ t, (s.pc t).holdsTenant id = true → s.manager.tenants id ≠ none
  oneHolder : ∀ t u, (s.pc t).holdsTenant id = true → (s.pc u).holdsTenant id = true → t = u
  decided : ∀ t, s.pc t = .deleteDecide id 0 → s.manager.keyCount id = 0
  removing : ∀ t, s.pc t = .deleteUsage id →
    s.manager.tenants id = none ∧ s.manager.keyCount id = 0
  booked : s.reserved id ≤ s.manager.keyCount id + s.decremented id

variable {s : TenantThreads n} {t : Fin n} {id k : TenantId}

theorem consistent_initial (id : TenantId) : (initial : TenantThreads n).Consistent id := by
  constructor <;> simp [initial, new, keyCount, Pc.holdsTenant]

/-- The thread plays no part in the invariant of the tenant. -/
def Apart (id : TenantId) (p : Pc) : Prop :=
  p ≠ .createUsage id ∧ p.holdsTenant id = false ∧ p ≠ .deleteUsage id

/-- A step that changes nothing about the tenant, of a thread that plays no part before and
after. -/
theorem Consistent.of_apart {s' : TenantThreads n} (h : s.Consistent id)
    (htenants : s'.manager.tenants id = s.manager.tenants id)
    (husage : s'.manager.usage id = s.manager.usage id) (hreserved : s'.reserved id = s.reserved id)
    (hdecremented : s'.decremented id = s.decremented id)
    (hpc : s'.pc = update s.pc t p) (hbefore : Apart id (s.pc t)) (hafter : Apart id p) :
    s'.Consistent id := by
  obtain ⟨h1, h2, h3⟩ := hbefore
  obtain ⟨h4, h5, h6⟩ := hafter
  have hcount : s'.manager.keyCount id = s.manager.keyCount id := by
    unfold keyCount
    rw [husage]
  have hat : ∀ u, s'.pc u = if u = t then p else s.pc u := by
    intro u
    rw [hpc, update_apply]
  have hdecide : ∀ c, p ≠ .deleteDecide id c := by
    intro c he
    rw [he] at h5
    simp [Pc.holdsTenant] at h5
  constructor
  · grind [h.tenantCounted]
  · grind [h.countOwned]
  · grind [h.creating]
  · grind [h.oneCreator]
  · grind [h.holding]
  · grind [h.oneHolder]
  · grind [h.decided]
  · grind [h.removing]
  · grind [h.booked]

/-- A thread at work on another tenant plays no part. -/
theorem apart_of_tenant (h : p.tenant ≠ some id) : Apart id p := by
  cases p <;> simp_all [Apart, Pc.tenant, Pc.holdsTenant]

theorem apart_of_passive (h : p.passive = true) : Apart id p := by
  cases p <;> simp_all [Apart, Pc.passive, Pc.holdsTenant]

/-- **What the next step of a thread can be.** -/
inductive Advance (s : TenantThreads n) (t : Fin n) : TenantThreads n → Prop
  | waits : Advance s t s
  | moves {p : Pc} (hbefore : (s.pc t).passive = true) (hafter : p.passive = true) :
      Advance s t (s.goto t p)
  | createEntry {id : TenantId} {config : TenantConfig} (hpc : s.pc t = .create id config)
      (hnone : s.manager.tenants id = none) : Advance s t
        (((s.setTenant id (some ⟨config, true⟩)).resetCounts id).goto t (.createUsage id))
  | createUsage {id : TenantId} (hpc : s.pc t = .createUsage id) :
      Advance s t ((s.setUsage id (some {})).goto t .idle)
  | deleteEntry {id : TenantId} {tenant : Tenant} (hpc : s.pc t = .delete id)
      (hfree : s.TenantFree id) (hsome : s.manager.tenants id = some tenant) : Advance s t
        ((s.setTenant id (some { tenant with enabled := false })).goto t (.deleteCount id))
  | deleteCount {id : TenantId} (hpc : s.pc t = .deleteCount id) :
      Advance s t (s.goto t (.deleteDecide id (s.manager.keyCount id)))
  | deleteRefuse {id : TenantId} {keyCount : Nat} (hpc : s.pc t = .deleteDecide id keyCount) :
      Advance s t ((s.setTenant id
        ((s.manager.tenants id).map fun tenant => { tenant with enabled := true })).goto t .idle)
  | deleteRemove {id : TenantId} (hpc : s.pc t = .deleteDecide id 0) :
      Advance s t ((s.setTenant id none).goto t (.deleteUsage id))
  | deleteUsage {id : TenantId} (hpc : s.pc t = .deleteUsage id) :
      Advance s t ((s.setUsage id none).goto t .idle)
  | reserveCount {id : TenantId} {max : Nat} {u : TenantUsage}
      (hpc : s.pc t = .reserveCount id max) (hu : s.manager.usage id = some u) : Advance s t
        (((s.setUsage id (some (u.modify (· + 1) .key))).countReserved id).goto t .idle)
  | decrementNone {id : TenantId} (hbefore : (s.pc t).passive = true)
      (hpc : (s.pc t).tenant = some id) : Advance s t ((s.countDecremented id).goto t .idle)
  | decrementCount {id : TenantId} {u : TenantUsage} (hpc : s.pc t = .decrementCount id)
      (hu : s.manager.usage id = some u) : Advance s t
        (((s.setUsage id (some (u.modify (· - 1) .key))).countDecremented id).goto t .idle)

theorem advance_cases (s : TenantThreads n) (t : Fin n) : Advance s t (s.advance t) := by
  unfold advance
  cases hpc : s.pc t with
  | idle => exact .waits
  | create id config =>
    dsimp only
    split
    · split
      · exact .moves (by rw [hpc]; rfl) rfl
      · next hnone => exact .createEntry hpc hnone
    · exact .waits
  | createUsage id =>
    dsimp only
    split
    · exact .createUsage hpc
    · exact .waits
  | delete id =>
    dsimp only
    split
    · next hfree =>
      split
      · exact .moves (by rw [hpc]; rfl) rfl
      · next tenant hsome => exact .deleteEntry hpc hfree hsome
    · exact .waits
  | deleteCount id => exact .deleteCount hpc
  | deleteDecide id keyCount =>
    dsimp only
    split
    · exact .deleteRefuse hpc
    · next hzero =>
      obtain rfl : keyCount = 0 := by omega
      exact .deleteRemove hpc
  | deleteUsage id =>
    dsimp only
    split
    · exact .deleteUsage hpc
    · exact .waits
  | reserve id =>
    dsimp only
    split
    · split <;> exact .moves (by rw [hpc]; rfl) rfl
    · exact .waits
  | reserveUsage id max =>
    dsimp only
    split <;> exact .moves (by rw [hpc]; rfl) rfl
  | reserveCount id max =>
    dsimp only
    rcases s.manager.countUp_cases .key id max with ⟨e, hgo⟩ | ⟨u, hu, -, hgo⟩
    · rw [hgo]
      exact .moves (by rw [hpc]; rfl) rfl
    · rw [hgo]
      exact .reserveCount hpc hu
  | decrement id =>
    dsimp only
    split
    · exact .decrementNone (by rw [hpc]; rfl) (by rw [hpc]; rfl)
    · exact .moves (by rw [hpc]; rfl) rfl
  | decrementCount id =>
    dsimp only [decrementKeyCount, decrement]
    cases hu : s.manager.usage id with
    | none => exact .decrementNone (by rw [hpc]; rfl) (by rw [hpc]; rfl)
    | some u => exact .decrementCount hpc hu

/-- A step leaves every other tenant as it is. -/
theorem Advance.elsewhere {s' : TenantThreads n} (h : Advance s t s')
    (hne : (s.pc t).tenant ≠ some id) :
    s'.manager.tenants id = s.manager.tenants id ∧ s'.manager.usage id = s.manager.usage id ∧
      s'.reserved id = s.reserved id ∧ s'.decremented id = s.decremented id ∧
      ∃ p, s'.pc = update s.pc t p ∧ Apart id p := by
  have hother : ∀ k, (s.pc t).tenant = some k → id ≠ k := by
    rintro k hk rfl
    exact hne hk
  cases h with
  | waits => exact ⟨rfl, rfl, rfl, rfl, s.pc t, by simp, apart_of_tenant hne⟩
  | moves _ hafter => exact ⟨rfl, rfl, rfl, rfl, _, rfl, apart_of_passive hafter⟩
  | decrementNone _ hpc =>
    have hk := hother _ hpc
    exact ⟨rfl, rfl, rfl, update_of_ne hk _ _, _, rfl, apart_of_passive rfl⟩
  | createEntry hpc _ | createUsage hpc | deleteEntry hpc _ _ | deleteCount hpc
  | deleteRefuse hpc | deleteRemove hpc | deleteUsage hpc | reserveCount hpc _
  | decrementCount hpc _ =>
    have hk := hother _ (by rw [hpc]; rfl)
    refine ⟨?_, ?_, ?_, ?_, _, rfl, apart_of_tenant ?_⟩ <;>
      simp [goto, setTenant, setUsage, resetCounts, countReserved, countDecremented, Pc.tenant, hk,
        Ne.symm hk]

/-! ## The steps on the tenant itself -/

section Own
variable {config : TenantConfig} {tenant : Tenant} {max : Nat}

/-- While a thread creates or reserves, none deletes. -/
theorem Separated.no_deletion (hsep : s.Separated) (h : (s.pc t).createsOrReserves id = true) :
    ∀ u, (s.pc u).deletes id = false := by
  intro u
  by_contra hu
  have hno := hsep u t id (by simpa using hu)
  rw [h] at hno
  cases hno

/-- While a thread deletes, none creates or reserves. -/
theorem Separated.no_creation (hsep : s.Separated) (h : (s.pc t).deletes id = true) :
    ∀ u, (s.pc u).createsOrReserves id = false :=
  fun u => hsep t u id h

section Steps
variable (h : s.Consistent id)
include h

/-- `tenants.entry` of a creation.  No record of an earlier incarnation is left, because no
deletion is on its way. -/
theorem Consistent.create_entry (hsep : s.Separated) (hpc : s.pc t = .create id config)
    (hnone : s.manager.tenants id = none) :
    (((s.setTenant id (some ⟨config, true⟩)).resetCounts id).goto t (.createUsage id)).Consistent
      id := by
  have hcreates : (s.pc t).createsOrReserves id = true := by simp [hpc, Pc.createsOrReserves]
  have hapart := hsep.no_deletion hcreates
  have husage : s.manager.usage id = none := by
    by_contra hu
    rcases h.countOwned hu with ht | ⟨u, hu⟩
    · exact ht hnone
    · have hno := hapart u
      simp [hu, Pc.deletes] at hno
  constructor <;>
    simp only [goto, resetCounts, setTenant, keyCount, update_apply, if_true]
  · grind
  · grind
  · grind
  · grind [h.creating]
  · grind
  · grind [h.oneHolder, Pc.holdsTenant]
  · grind
  · grind [Pc.deletes]
  · grind

/-- `usage.insert` of a creation. -/
theorem Consistent.create_usage (hsep : s.Separated) (hpc : s.pc t = .createUsage id) :
    ((s.setUsage id (some {})).goto t .idle).Consistent id := by
  have hcreates : (s.pc t).createsOrReserves id = true := by simp [hpc, Pc.createsOrReserves]
  have hapart := hsep.no_deletion hcreates
  obtain ⟨htenant, husage⟩ := h.creating t hpc
  have hbooked := h.booked
  constructor <;>
    simp only [goto, setUsage, keyCount, update_apply, if_true]
  · grind
  · grind
  · grind [h.oneCreator]
  · grind [h.oneCreator]
  · grind
  · grind [h.oneHolder, Pc.holdsTenant]
  · grind
  · grind [Pc.deletes]
  · grind [keyCount]

/-- `tenants.entry` of a deletion: the entry was free, so its holder is alone. -/
theorem Consistent.delete_entry (hpc : s.pc t = .delete id) (hfree : s.TenantFree id)
    (hsome : s.manager.tenants id = some tenant) :
    ((s.setTenant id (some { tenant with enabled := false })).goto t (.deleteCount id)).Consistent
      id := by
  have hbooked := h.booked
  constructor <;>
    simp only [goto, setTenant, keyCount, update_apply, if_true]
  · grind [h.tenantCounted]
  · grind
  · grind [h.creating]
  · grind [h.oneCreator]
  · grind
  · grind [TenantFree, Pc.holdsTenant]
  · grind [TenantFree, Pc.holdsTenant]
  · grind [h.removing]
  · grind [keyCount]

theorem Consistent.delete_count (hpc : s.pc t = .deleteCount id) :
    (s.goto t (.deleteDecide id (s.manager.keyCount id))).Consistent id := by
  have hholds : (s.pc t).holdsTenant id = true := by simp [hpc, Pc.holdsTenant]
  constructor <;> simp only [goto, update_apply]
  · grind [h.tenantCounted]
  · grind [h.countOwned]
  · grind [h.creating]
  · grind [h.oneCreator]
  · grind [h.holding]
  · grind [h.oneHolder, Pc.holdsTenant]
  · grind [h.decided]
  · grind [h.removing]
  · exact h.booked

theorem Consistent.delete_refuse {keyCount : Nat} (hpc : s.pc t = .deleteDecide id keyCount) :
    ((s.setTenant id ((s.manager.tenants id).map fun tenant =>
      { tenant with enabled := true })).goto
      t .idle).Consistent id := by
  have hholds : (s.pc t).holdsTenant id = true := by simp [hpc, Pc.holdsTenant]
  obtain ⟨tenant, htenant⟩ := ne_none_iff_exists'.mp (h.holding t hholds)
  have hbooked := h.booked
  rw [htenant, map_some]
  constructor <;>
    simp only [goto, setTenant, TenantManager.keyCount, update_apply, if_true]
  · grind [h.tenantCounted]
  · grind [h.countOwned]
  · grind [h.creating]
  · grind [h.oneCreator]
  · grind [h.holding]
  · grind [h.oneHolder, Pc.holdsTenant]
  · grind [h.decided, TenantManager.keyCount]
  · grind [h.removing, TenantManager.keyCount]
  · grind [TenantManager.keyCount]

/-- `entry.remove` of a deletion: no key is counted, and no creation is on its way. -/
theorem Consistent.delete_remove (hsep : s.Separated) (hpc : s.pc t = .deleteDecide id 0) :
    ((s.setTenant id none).goto t (.deleteUsage id)).Consistent id := by
  have hdeletes : (s.pc t).deletes id = true := by simp [hpc, Pc.deletes]
  have hapart := hsep.no_creation hdeletes
  have hholds : (s.pc t).holdsTenant id = true := by simp [hpc, Pc.holdsTenant]
  have hcount := h.decided t hpc
  have hbooked := h.booked
  constructor <;>
    simp only [goto, setTenant, update_apply, if_true]
  · grind
  · grind
  · grind [Pc.createsOrReserves]
  · grind [h.oneCreator]
  · grind [h.oneHolder, Pc.holdsTenant]
  · grind [h.oneHolder, Pc.holdsTenant]
  · grind [keyCount]
  · grind [keyCount]
  · grind [keyCount]

/-- `usage.remove` of a deletion. -/
theorem Consistent.delete_usage (hsep : s.Separated) (hpc : s.pc t = .deleteUsage id) :
    ((s.setUsage id none).goto t .idle).Consistent id := by
  have hdeletes : (s.pc t).deletes id = true := by simp [hpc, Pc.deletes]
  have hapart := hsep.no_creation hdeletes
  obtain ⟨htenant, hcount⟩ := h.removing t hpc
  have hbooked := h.booked
  constructor <;>
    simp only [goto, setUsage, keyCount, update_apply, if_true]
  · grind
  · grind
  · grind [Pc.createsOrReserves]
  · grind [h.oneCreator]
  · grind [h.holding, Pc.holdsTenant]
  · grind [h.oneHolder, Pc.holdsTenant]
  · grind
  · grind
  · grind

/-- `fetch_update` of a reservation: no deletion has read the count. -/
theorem Consistent.reserve_count {u : TenantUsage} (hsep : s.Separated)
    (hpc : s.pc t = .reserveCount id max) (hu : s.manager.usage id = some u) :
    (((s.setUsage id (some (u.modify (· + 1) .key))).countReserved id).goto t .idle).Consistent
      id := by
  have hcreates : (s.pc t).createsOrReserves id = true := by simp [hpc, Pc.createsOrReserves]
  have hapart := hsep.no_deletion hcreates
  have hbooked := h.booked
  simp only [keyCount, hu] at hbooked
  constructor <;>
    simp only [goto, setUsage, countReserved, keyCount, TenantUsage.modify,
      update_apply, if_true]
  · grind
  · grind [h.countOwned]
  · grind [h.creating]
  · grind [h.oneCreator]
  · grind [h.holding, Pc.holdsTenant]
  · grind [h.oneHolder, Pc.holdsTenant]
  · grind [Pc.deletes]
  · grind [Pc.deletes]
  · grind

/-- `fetch_update` of a decrement. -/
theorem Consistent.decrement_count {u : TenantUsage} (hpc : s.pc t = .decrementCount id)
    (hu : s.manager.usage id = some u) :
    (((s.setUsage id (some (u.modify (· - 1) .key))).countDecremented id).goto t .idle).Consistent
      id := by
  have hbooked := h.booked
  have hkeys : s.manager.keyCount id = u.keyCount := by simp [keyCount, hu]
  constructor <;>
    simp only [goto, setUsage, countDecremented, keyCount, TenantUsage.modify,
      update_apply, if_true]
  · grind
  · grind [h.countOwned]
  · grind [h.creating]
  · grind [h.oneCreator]
  · grind [h.holding, Pc.holdsTenant]
  · grind [h.oneHolder, Pc.holdsTenant]
  · grind [h.decided]
  · grind [h.removing]
  · grind

/-- A decrement that finds no record. -/
theorem Consistent.decrement_none (hbefore : Apart id (s.pc t)) :
    ((s.countDecremented id).goto t .idle).Consistent id := by
  have hquiet : (s.goto t .idle).Consistent id :=
    h.of_apart rfl rfl rfl rfl rfl hbefore (apart_of_tenant (by simp [Pc.tenant]))
  refine { hquiet with booked := ?_ }
  have hbooked := h.booked
  simp only [goto, countDecremented, update_self]
  omega

/-- A step on the tenant itself, or on another. -/
theorem Consistent.advance (hsep : s.Separated) : (s.advance t).Consistent id := by
  have hstep := s.advance_cases t
  by_cases hown : (s.pc t).tenant = some id
  swap
  · obtain ⟨htenants, husage, hreserved, hdecremented, p, hpc, hafter⟩ := hstep.elsewhere hown
    exact h.of_apart htenants husage hreserved hdecremented hpc (apart_of_tenant hown) hafter
  generalize s.advance t = s' at hstep ⊢
  have hat : ∀ {p k}, s.pc t = p → p.tenant = some k → k = id := by
    rintro p k rfl hk
    exact some.inj (hk.symm.trans hown)
  cases hstep with
  | waits => exact h
  | moves hbefore hafter =>
    exact h.of_apart rfl rfl rfl rfl rfl (apart_of_passive hbefore) (apart_of_passive hafter)
  | createEntry hpc hnone =>
    obtain rfl := hat hpc rfl
    exact h.create_entry hsep hpc hnone
  | createUsage hpc =>
    obtain rfl := hat hpc rfl
    exact h.create_usage hsep hpc
  | deleteEntry hpc hfree hsome =>
    obtain rfl := hat hpc rfl
    exact h.delete_entry hpc hfree hsome
  | deleteCount hpc =>
    obtain rfl := hat hpc rfl
    exact h.delete_count hpc
  | deleteRefuse hpc =>
    obtain rfl := hat hpc rfl
    exact h.delete_refuse hpc
  | deleteRemove hpc =>
    obtain rfl := hat hpc rfl
    exact h.delete_remove hsep hpc
  | deleteUsage hpc =>
    obtain rfl := hat hpc rfl
    exact h.delete_usage hsep hpc
  | reserveCount hpc hu =>
    obtain rfl := hat hpc rfl
    exact h.reserve_count hsep hpc hu
  | decrementNone hbefore hpc =>
    obtain rfl := hat rfl hpc
    exact h.decrement_none (apart_of_passive hbefore)
  | decrementCount hpc hu =>
    obtain rfl := hat hpc rfl
    exact h.decrement_count hpc hu

end Steps

end Own

/-- One step of any thread. -/
theorem Consistent.step {e : ThreadStep n} (h : s.Consistent id) (hsep : s.Separated) :
    (s.step e).Consistent id := by
  cases e with
  | advance t => exact h.advance hsep
  | invoke t call =>
    simp only [TenantThreads.step]
    split
    · next hidle =>
      have hbefore : Apart id (s.pc t) := by
        cases hpc : s.pc t <;> simp_all [Pc.isIdle, Apart, Pc.holdsTenant]
      refine h.of_apart rfl rfl rfl rfl rfl hbefore ?_
      cases call <;> simp [TenantCall.start, Apart, Pc.holdsTenant]
    · exact h

end TenantThreads

open TenantThreads

/-- **A tenant with a reserved key stays**, and between calls the two maps agree, as long as no
deletion overlaps a creation or a reservation of the same tenant. -/
theorem tenant_with_keys_stays {n : Nat} {steps : List (ThreadStep n)}
    (h : Along TenantThreads.step (fun s _ => s.Separated) .initial steps)
    (hquiet : (run TenantThreads.step .initial steps).Quiescent) (id : TenantId) :
    ((run TenantThreads.step .initial steps).manager.tenants id ≠ none ↔
      (run TenantThreads.step .initial steps).manager.usage id ≠ none) ∧
    ((run TenantThreads.step .initial steps).decremented id <
        (run TenantThreads.step .initial steps).reserved id →
      (run TenantThreads.step .initial steps).manager.tenants id ≠ none) := by
  have hs := induction_run (I := fun s : TenantThreads n => s.Consistent id)
    (fun _ _ hs hsep => hs.step hsep) (consistent_initial id) h
  generalize run step .initial steps = s at hs hquiet ⊢
  have hcount : s.manager.usage id ≠ none → s.manager.tenants id ≠ none := by
    intro hu
    rcases hs.countOwned hu with ht | ⟨t, hpc⟩
    · exact ht
    · have hidle := hquiet t
      simp [hpc, Pc.isIdle] at hidle
  refine ⟨⟨?_, hcount⟩, ?_⟩
  · intro ht
    rcases hs.tenantCounted ht with hu | ⟨t, hpc⟩
    · exact hu
    · have hidle := hquiet t
      simp [hpc, Pc.isIdle] at hidle
  · -- more reservations than decrements mean a count, and the count has its tenant
    intro hmore
    have hbooked := hs.booked
    refine hcount fun hnone => ?_
    have hzero : s.manager.keyCount id = 0 := by simp [keyCount, hnone]
    omega

/-- Two threads: one creates the tenant and decrements, the other reserves two keys. -/
def separateCalls : List (ThreadStep 2) :=
  [.invoke 0 (.create acme {}), .advance 0, .advance 0,
    .invoke 1 (.reserveKey acme), .advance 1, .invoke 0 (.decrementKey acme), .advance 1,
    .advance 0, .advance 1, .advance 0, .invoke 1 (.reserveKey acme), .advance 1, .advance 1,
    .advance 1]

theorem tenant_with_keys_stays_acme :
    (run TenantThreads.step .initial separateCalls).manager.tenants acme ≠ none :=
  (tenant_with_keys_stays (by decide +kernel) (by decide +kernel) acme).2 (by decide +kernel)

/-- A reservation reads the tenant, the deletion then finds no key and removes the tenant, and
the reservation counts in the record that is about to go: it succeeds and its tenant is gone.
A deletion inside a creation leaves a usage record without a tenant. -/
theorem tenant_with_key_deleted :
    (∃ steps : List (ThreadStep 2), (run TenantThreads.step .initial steps).Quiescent ∧
      (run TenantThreads.step .initial steps).decremented acme <
        (run TenantThreads.step .initial steps).reserved acme ∧
      (run TenantThreads.step .initial steps).manager.tenants acme = none) ∧
    ∃ steps : List (ThreadStep 2), (run TenantThreads.step .initial steps).Quiescent ∧
      (run TenantThreads.step .initial steps).manager.tenants acme = none ∧
      (run TenantThreads.step .initial steps).manager.usage acme ≠ none := by
  refine ⟨⟨[.invoke 0 (.create acme {}), .advance 0, .advance 0, .invoke 1 (.reserveKey acme),
    .advance 1, .invoke 0 (.delete acme), .advance 0, .advance 0, .advance 0, .advance 1,
    .advance 1, .advance 0], by decide +kernel, by decide +kernel, rfl⟩,
    ⟨[.invoke 0 (.create acme {}), .advance 0, .invoke 1 (.delete acme), .advance 1, .advance 1,
    .advance 1, .advance 1, .advance 0], by decide +kernel, rfl, by decide +kernel⟩⟩

end CratonHsm.Auth
