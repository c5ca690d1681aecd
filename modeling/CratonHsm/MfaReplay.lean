import CratonHsm.MfaManager
import CratonHsm.RunHistory

/-!
# TOTP codes are accepted once

An accepted step of a user is remembered until it is pruned, and it must not be pruned while
the user's window still reaches back to it.  The pruning by the user's own settings is safe:
the cutoff lies before the window.  But each verification prunes the steps of *all* users with
the cutoff of the one that verifies, so the theorem needs that no user's cutoff passes the
window of another.
-/

namespace CratonHsm.Auth
open GuardedRun List MfaManager Option

/-! ## What a call accepts -/

/-- `MfaManager::new`, with the users' settings. -/
def MfaManager.new (timeoutSecs : Nat) (totpSecrets : String → Option TotpConfig) : MfaManager where
  timeoutSecs := timeoutSecs
  totpSecrets := totpSecrets

namespace MfaCall

/-- The readings of the wall clock, in order. -/
def wallReadings : MfaCall → List Nat
  | issue r => [r.wall]
  | verify _ _ _ wall _ pruneAt => [wall, pruneAt]
  | hasCompleted _ wall _ => [wall]
  | hasCompletedFor _ _ wall _ => [wall]
  | pruneSteps wall => [wall]

/-- The last reading. -/
def lastWall : MfaCall → Nat
  | issue r => r.wall
  | verify _ _ _ _ _ pruneAt => pruneAt
  | hasCompleted _ wall _ => wall
  | hasCompletedFor _ _ wall _ => wall
  | pruneSteps wall => wall

/-- The time of a verification. -/
def verifiedAt : MfaCall → Option Nat
  | verify _ _ _ wall _ _ => some wall
  | _ => none

end MfaCall

/-- The wall clock does not run backwards. -/
def WallForward (calls : List MfaCall) : Prop :=
  (calls.flatMap MfaCall.wallReadings).Pairwise (· ≤ ·)

instance (calls : List MfaCall) : Decidable (WallForward calls) :=
  inferInstanceAs (Decidable (List.Pairwise _ _))

/-- The user and the step of a TOTP verification that succeeds. -/
def acceptedStep [MfaHash] (m : MfaManager) : MfaCall → Option (String × Nat)
  | .verify id sessionHandle response wall mono pruneAt =>
    match m.challenges[id]? with
    | none => none
    | some c =>
      if c.challengeType = .totp ∧
          (m.verify id sessionHandle response wall mono pruneAt).1 = .ok () then
        match m.totpStep c response wall with
        | .ok (_, step) => some (c.userId, step)
        | .error _ => none
      else none
  | _ => none

/-- At every verification of the run, the cutoff of no user lies in the window of another. -/
def CutoffsApart (totpSecrets : String → Option TotpConfig) (calls : List MfaCall) : Prop :=
  ∀ call ∈ calls, ∀ now ∈ call.verifiedAt, ∀ u v cu cv, totpSecrets u = some cu →
    totpSecrets v = some cv → cv.cutoff now ≤ cu.start now

/-! ## Windows and cutoffs -/

namespace TotpConfig
variable {c : TotpConfig} {now later step : Nat}

theorem start_mono (h : now ≤ later) : c.start now ≤ c.start later := by
  have hdiv : now / c.period ≤ later / c.period := Nat.div_le_div_right h
  unfold start
  omega

theorem cutoff_le_start : c.cutoff now ≤ c.start now := by
  unfold cutoff start
  omega

theorem start_le_of_mem_window (h : step ∈ c.window now) : c.start now ≤ step := by
  unfold window at h
  rw [mem_range'_1] at h
  exact h.1

end TotpConfig

/-! ## What is remembered -/

/-- A step of a user may be forgotten at a time: it lies before the cutoff of that user. -/
def Forgettable (m : MfaManager) (now : Nat) (k : String × Nat) : Prop :=
  ∀ config, m.totpSecrets k.1 = some config → k.2 < config.cutoff now

theorem pruned_or_kept {m : MfaManager} (now : Nat) {k : String × Nat} (hk : k ∈ m.usedTotpSteps) :
    k ∈ (m.pruneExpiredTotpSteps now).usedTotpSteps ∨ Forgettable m now k := by
  by_cases hforget : Forgettable m now k
  · exact .inr hforget
  left
  obtain ⟨user, step⟩ := k
  unfold Forgettable at hforget
  cases hconfig : m.totpSecrets user with
  | none => simp [hconfig] at hforget
  | some config =>
    simp only [hconfig, some.injEq, forall_eq', Nat.not_lt] at hforget
    simp only [pruneExpiredTotpSteps, mem_filter, hconfig]
    exact ⟨hk, decide_eq_true hforget⟩

/-- What a successful verification does to the memory: the step was not in it, and of the old
steps and the new one only those are lost that lie before a cutoff. -/
theorem consumeStep_ok {m : MfaManager} {userId : String} {config : TotpConfig}
    {step now pruneAt : Nat}
    {m' : MfaManager} (h : m.consumeStep userId config step now pruneAt = (.ok (), m')) :
    (userId, step) ∉ m.usedTotpSteps ∧ m'.totpSecrets = m.totpSecrets ∧
    ∀ k ∈ (userId, step) :: m.usedTotpSteps,
      k ∈ m'.usedTotpSteps ∨ k.2 < config.cutoff now ∨ Forgettable m pruneAt k := by
  unfold consumeStep at h
  split at h
  · cases h
  next hnew =>
  refine ⟨hnew, ?_⟩
  simp only [Prod.mk.injEq, true_and] at h
  have hfirst : ∀ k ∈ (userId, step) :: m.usedTotpSteps,
      k ∈ ((userId, step) :: m.usedTotpSteps).filter (fun k => config.cutoff now ≤ k.2) ∨
        k.2 < config.cutoff now := by
    intro k hk
    by_cases hcut : k.2 < config.cutoff now
    · exact .inr hcut
    · exact .inl (mem_filter.mpr ⟨hk, decide_eq_true (Nat.not_lt.mp hcut)⟩)
  subst h
  split
  · refine ⟨rfl, fun k hk => ?_⟩
    rcases hfirst k hk with hkept | hcut
    · rcases pruned_or_kept pruneAt (m := { m with
        usedTotpSteps := ((userId, step) :: m.usedTotpSteps).filter
          (fun k => config.cutoff now ≤ k.2)
        totpVerifyCount := m.totpVerifyCount + 1 }) hkept with hkept' | hforget
      · exact .inl hkept'
      · exact .inr (.inr hforget)
    · exact .inr (.inl hcut)
  · refine ⟨rfl, fun k hk => ?_⟩
    rcases hfirst k hk with hkept | hcut
    · exact .inl hkept
    · exact .inr (.inl hcut)

theorem evictExpired_usedTotpSteps (m : MfaManager) (now : Nat) :
    (m.evictExpired now).usedTotpSteps = m.usedTotpSteps ∧
      (m.evictExpired now).totpSecrets = m.totpSecrets := by
  exact ⟨rfl, rfl⟩

/-- Every accepted step of a user is still in the memory or lies before the user's window. -/
def Remembers (m : MfaManager) (accepted : List (String × Nat)) (now : Nat) : Prop :=
  ∀ k ∈ accepted, ∃ config, m.totpSecrets k.1 = some config ∧
    (k ∈ m.usedTotpSteps ∨ k.2 < config.start now)

variable {accepted : List (String × Nat)}

/-- Time passes, and the memory loses only what is before a cutoff. -/
theorem Remembers.mono {m m' : MfaManager} {now later : Nat}
    (h : Remembers m accepted now) (hsecrets : m'.totpSecrets = m.totpSecrets)
    (hlater : now ≤ later)
    (hkept : ∀ k ∈ m.usedTotpSteps, k ∈ m'.usedTotpSteps ∨ Forgettable m later k) :
    Remembers m' accepted later := by
  intro k hk
  obtain ⟨config, hconfig, hused | hold⟩ := h k hk
  · refine ⟨config, by rw [hsecrets, hconfig], ?_⟩
    rcases hkept k hused with hin | hforget
    · exact .inl hin
    · exact .inr (Nat.lt_of_lt_of_le (hforget config hconfig) TotpConfig.cutoff_le_start)
  · exact ⟨config, by rw [hsecrets, hconfig],
      .inr (Nat.lt_of_lt_of_le hold (TotpConfig.start_mono hlater))⟩

section Runs
variable [MfaHash] {m : MfaManager} {call : MfaCall}

theorem mem_of_matchStep {c : TotpConfig} {code step : Nat} {steps : List Nat}
    (h : matchStep c code steps = .ok (some step)) : step ∈ steps := by
  induction steps with
  | nil => cases h
  | cons first rest ih =>
    unfold matchStep at h
    split at h
    · cases h
    split at h
    · cases h
    · next later hlater =>
      cases h
      exact mem_cons_of_mem first (ih hlater)
    · split at h
      · cases h
        exact mem_cons_self
      · cases h

/-- A step that was found lies in the window of the user's settings. -/
theorem totpStep_ok {c : MfaChallenge} {response : PrefixFreeCode.Bytes} {now step : Nat}
    {config : TotpConfig} (h : m.totpStep c response now = .ok (config, step)) :
    m.totpSecrets c.userId = some config ∧ config.start now ≤ step := by
  unfold totpStep at h
  split at h
  · cases h
  split at h
  · cases h
  split at h
  · cases h
  next config' hconfig =>
  split at h
  · cases h
  · cases h
  · next step' hmatch =>
    cases h
    exact ⟨hconfig, TotpConfig.start_le_of_mem_window (mem_of_matchStep hmatch)⟩

/-! ## Runs -/

/-- **What a verification does to the memory of steps**: either it accepts no step and leaves
the memory alone, or it accepts a new step of the user's window and loses only steps before a
cutoff. -/
theorem verify_steps (m : MfaManager) (id : String) (sessionHandle : UInt64)
    (response : PrefixFreeCode.Bytes) (wall mono pruneAt : Nat) :
    (acceptedStep m (.verify id sessionHandle response wall mono pruneAt) = none ∧
      (m.verify id sessionHandle response wall mono pruneAt).2.usedTotpSteps = m.usedTotpSteps) ∨
    ∃ user step config,
      acceptedStep m (.verify id sessionHandle response wall mono pruneAt) = some (user, step) ∧
      m.totpSecrets user = some config ∧ config.start wall ≤ step ∧
      (user, step) ∉ m.usedTotpSteps ∧
      ∀ k ∈ (user, step) :: m.usedTotpSteps,
        k ∈ (m.verify id sessionHandle response wall mono pruneAt).2.usedTotpSteps ∨
          k.2 < config.cutoff wall ∨ Forgettable m pruneAt k := by
  dsimp only [acceptedStep]
  rcases m.verify_cases id sessionHandle response wall mono pruneAt with ⟨e, hgo⟩ |
    ⟨c, hc, -, -, hgo⟩ | ⟨c, m', hc, -, -, hcheck, hgo⟩
  · left
    rw [hgo]
    refine ⟨?_, rfl⟩
    split
    · rfl
    · simp
  · left
    rw [hgo, hc]
    exact ⟨by simp, rfl⟩
  · rw [hgo, hc]
    unfold checkResponse at hcheck
    split at hcheck
    · next htotp =>
      right
      unfold verifyTotpResponse at hcheck
      split at hcheck
      · cases hcheck
      next config step hstep =>
      obtain ⟨hconfig, hstart⟩ := totpStep_ok hstep
      obtain ⟨hnew, -, hkept⟩ := consumeStep_ok hcheck
      exact ⟨c.userId, step, config, by simp [htotp, hstep], hconfig, hstart, hnew, hkept⟩
    · next hpin =>
      left
      obtain rfl := (Prod.mk.inj hcheck).2
      exact ⟨by simp [hpin], rfl⟩

theorem step_totpSecrets (m : MfaManager) (call : MfaCall) :
    (m.step call).totpSecrets = m.totpSecrets := by
  cases call with
  | issue r => rfl
  | verify id sessionHandle response wall mono pruneAt =>
    dsimp only [step]
    rcases m.verify_cases id sessionHandle response wall mono pruneAt with ⟨e, hgo⟩ |
      ⟨c, -, -, -, hgo⟩ | ⟨c, m', -, -, -, hcheck, hgo⟩
    · rw [hgo]
    · rw [hgo]
    · rw [hgo]
      exact (checkResponse_ok hcheck).2.2.2.2.2
  | hasCompleted _ wall | hasCompletedFor _ _ wall => exact (evictExpired_usedTotpSteps m wall).2
  | pruneSteps wall => rfl

/-- **One call**: what it accepts is new, and everything accepted stays remembered. -/
theorem Remembers.step {now : Nat} (h : Remembers m accepted now)
    (hnow : ∀ t ∈ call.wallReadings, now ≤ t) (hclock : call.wallReadings.Pairwise (· ≤ ·))
    (hcut : CutoffsApart m.totpSecrets [call]) :
    (∀ k ∈ acceptedStep m call, k ∉ accepted) ∧
      Remembers (m.step call) (accepted ++ (acceptedStep m call).toList) call.lastWall := by
  have hquiet : ∀ later, now ≤ later → acceptedStep m call = none →
      (m.step call).usedTotpSteps = m.usedTotpSteps → (∀ k ∈ acceptedStep m call, k ∉ accepted) ∧
        Remembers (m.step call) (accepted ++ (acceptedStep m call).toList) later := by
    intro later hlater hnone hsame
    rw [hnone]
    refine ⟨fun k hk => (not_mem_none k hk).elim, ?_⟩
    simp only [toList_none, append_nil]
    exact h.mono (step_totpSecrets m call) hlater fun k hk => .inl (hsame ▸ hk)
  cases call with
  | issue r => exact hquiet r.wall (hnow _ mem_cons_self) rfl rfl
  | hasCompleted _ wall | hasCompletedFor _ _ wall =>
    exact hquiet wall (hnow _ mem_cons_self) rfl (evictExpired_usedTotpSteps m wall).1
  | pruneSteps wall =>
    refine ⟨fun k hk => (not_mem_none k hk).elim, ?_⟩
    simp only [acceptedStep, toList_none, append_nil]
    exact h.mono rfl (hnow _ mem_cons_self) fun k hk => pruned_or_kept wall hk
  | verify id sessionHandle response wall mono pruneAt =>
    have hwall : now ≤ wall := hnow _ mem_cons_self
    have hprune : wall ≤ pruneAt := by simpa [MfaCall.wallReadings] using hclock
    rcases verify_steps m id sessionHandle response wall mono pruneAt with ⟨hnone, hsame⟩ |
      ⟨user, step, config, haccepted, hconfig, hstart, hnew, hkept⟩
    · exact hquiet _ (Nat.le_trans hwall hprune) hnone hsame
    -- a step that lies before the cutoff of this user lies before the window of its own
    have hlost : ∀ k c, m.totpSecrets k.1 = some c → k ∈ (user, step) :: m.usedTotpSteps →
        k ∈ (m.verify id sessionHandle response wall mono pruneAt).2.usedTotpSteps ∨
          k.2 < c.start pruneAt := by
      intro k c hc hk
      rcases hkept k hk with hin | hcutoff | hforget
      · exact .inl hin
      · have hle := hcut _ mem_cons_self wall rfl k.1 user c config hc hconfig
        have hmono := c.start_mono hprune
        exact .inr (by omega)
      · exact .inr (Nat.lt_of_lt_of_le (hforget c hc) TotpConfig.cutoff_le_start)
    rw [haccepted]
    constructor
    · intro k hk hold
      cases hk
      obtain ⟨c, hc, hused | hbefore⟩ := h (user, step) hold
      · exact hnew hused
      · cases hc.symm.trans hconfig
        have hmono := config.start_mono hwall
        omega
    · intro k hk
      simp only [toList_some, mem_append, mem_singleton] at hk
      rcases hk with hk | rfl
      · obtain ⟨c, hc, hused | hbefore⟩ := h k hk
        · exact ⟨c, by rw [step_totpSecrets, hc], hlost k c hc (mem_cons_of_mem _ hused)⟩
        · have hmono := c.start_mono (Nat.le_trans hwall hprune)
          exact ⟨c, by rw [step_totpSecrets, hc], .inr (Nat.lt_of_lt_of_le hbefore hmono)⟩
      · exact ⟨config, by rw [step_totpSecrets, hconfig],
          hlost _ config hconfig mem_cons_self⟩

/-- A run: what it accepts is new and without repetition. -/
theorem Remembers.run {calls : List MfaCall} {now : Nat}
    (h : Remembers m accepted now) (hnodup : accepted.Nodup)
    (hnow : ∀ t ∈ calls.flatMap MfaCall.wallReadings, now ≤ t) (hclock : WallForward calls)
    (hcut : CutoffsApart m.totpSecrets calls) :
    (accepted ++ outcomes MfaManager.step acceptedStep m calls).Nodup := by
  induction calls generalizing m accepted now with
  | nil => simpa [outcomes] using hnodup
  | cons call calls ih =>
    unfold WallForward at hclock
    rw [flatMap_cons, pairwise_append] at hclock
    obtain ⟨hcall, hrest, hbetween⟩ := hclock
    obtain ⟨hnew, hstep⟩ := h.step (fun t ht => hnow t (by simp [ht])) hcall
      (fun c hc => hcut c (by simp_all))
    rw [outcomes, ← append_assoc]
    refine ih hstep ?_ ?_ hrest ?_
    · rw [nodup_append]
      refine ⟨hnodup, by cases acceptedStep m call <;> simp, ?_⟩
      intro a ha b hb he
      subst he
      exact hnew a (by simpa using hb) ha
    · intro t ht
      refine hbetween _ ?_ t ht
      cases call <;> simp [MfaCall.wallReadings, MfaCall.lastWall]
    · rw [step_totpSecrets]
      exact fun c hc => hcut c (mem_cons_of_mem call hc)

/-- **A TOTP code is accepted once**: no two successful verifications of a user match the same
step, provided no user's cutoff passes another user's window at a verification. -/
theorem totp_accepted_once {timeoutSecs : Nat} {totpSecrets : String → Option TotpConfig}
    {calls : List MfaCall} (hclock : WallForward calls) (hcut : CutoffsApart totpSecrets calls) :
    (outcomes MfaManager.step acceptedStep (.new timeoutSecs totpSecrets) calls).Nodup := by
  have h : Remembers (.new timeoutSecs totpSecrets) [] 0 := fun k hk => by cases hk
  have hrun := h.run nodup_nil (fun t _ => Nat.zero_le t) hclock hcut
  rwa [nil_append] at hrun

end Runs

/-- With one period for all users, skews may differ by a factor of two. -/
theorem cutoffsApart_of_period {totpSecrets : String → Option TotpConfig} {calls : List MfaCall}
    (h : ∀ u v cu cv, totpSecrets u = some cu → totpSecrets v = some cv →
      cu.period = cv.period ∧ cu.skew ≤ 2 * cv.skew + 1) : CutoffsApart totpSecrets calls := by
  intro call hcall now hnow u v cu cv hu hv
  obtain ⟨hperiod, hskew⟩ := h u v cu cv hu hv
  unfold TotpConfig.cutoff TotpConfig.start
  rw [hperiod]
  omega

/-! Two users with SHA-256 codes. -/

section Sample

/-- No SHA-1 code and no PIN occurs. -/
@[reducible] def noMfaHash : MfaHash := ⟨fun _ _ => [], fun _ _ => []⟩

attribute [local instance] noMfaHash

def aliceTotp : TotpConfig where
  rawSecret := asBytes "12345678901234567890"
  hashAlgorithm := .sha256

/-- A new code every second. -/
def bobTotp : TotpConfig where
  rawSecret := asBytes "09876543210987654321"
  period := 1
  hashAlgorithm := .sha256

def twoUsers (user : String) : Option TotpConfig :=
  if user = "alice" then some aliceTotp else if user = "bob" then some bobTotp else none

def onlyAlice (user : String) : Option TotpConfig :=
  if user = "alice" then some aliceTotp else none

/-- A TOTP challenge. -/
def totpIssue (id user : String) (session : UInt64) (wall : Nat) : MfaIssue where
  id := id
  wall := wall
  mono := fromSecs wall
  sessionHandle := session
  userId := user
  challengeType := .totp

/-- A challenge is issued and answered in the same second. -/
def answered (id user code : String) (session : UInt64) (wall : Nat) : List MfaCall :=
  [.issue (totpIssue id user session wall),
    .verify id session (asBytes code) wall (fromSecs wall) wall]

theorem totp_accepted_once_alice :
    (outcomes step acceptedStep (.new 60 onlyAlice)
      (answered "c1" "alice" "254785" 1 60 ++ answered "c2" "alice" "254785" 2 62)).Nodup := by
  refine totp_accepted_once (by decide) (cutoffsApart_of_period ?_)
  intro u v cu cv hu hv
  unfold onlyAlice at hu hv
  split at hu
  · split at hv
    · cases hu
      cases hv
      exact ⟨rfl, by decide⟩
    · cases hv
  · cases hu

/-- Alice's code is accepted, Bob logs in, and Alice's code is accepted again: Bob's
verification has removed her step, which is small in his count of seconds. -/
theorem totp_accepted_twice : ∃ calls, WallForward calls ∧
    outcomes step acceptedStep (.new 60 twoUsers) calls =
      [("alice", 2), ("bob", 61), ("alice", 2)] :=
  ⟨answered "c1" "alice" "254785" 1 60 ++ answered "c2" "bob" "994933" 2 61 ++
    answered "c3" "alice" "254785" 3 62, by decide, by decide +kernel⟩

end Sample

end CratonHsm.Auth
