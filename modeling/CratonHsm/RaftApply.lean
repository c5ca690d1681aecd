import CratonHsm.RaftVerify

/-!
# Applying committed entries and taking snapshots

`apply_committed` walks the state machine from `applied` to `committed`, one entry at
a time and at most one membership change per pass; `maybe_snapshot` compacts the log
once enough entries have been applied.  The loop is written over the four things it
changes, with the distance between the watermarks as its fuel; `applyLoop_stops` says
that the fuel is enough.
-/

namespace CratonHsm
open PrefixFreeCode

/-- What the apply loop changes. -/
structure ApplyProgress where
  log : RaftLog
  stateMachine : ClusterStateMachine
  sawConfigChange : Bool := false
  halted : Bool

namespace ApplyProgress

/-- One pass of the loop body; `none` is a `break` that changes nothing. -/
def step (p : ApplyProgress) : Option (Bool × ApplyProgress) :=
  if p.log.applied < p.log.committed then
    let next := p.log.applied + 1
    match p.log.get next with
    | none => none
    | some entry =>
      let isConfigChange := entry.command.isConfigChange
      if isConfigChange && p.sawConfigChange then none
      else
        let p := { p with sawConfigChange := p.sawConfigChange || isConfigChange }
        match p.stateMachine.apply entry with
        | .ok (_, sm) => some (true, { p with log := p.log.apply next, stateMachine := sm })
        | .error _ => some (false, { p with halted := true })
  else none

/-- The loop: go on after an applied entry, stop after an error or a `break`. -/
def applyLoop : Nat → ApplyProgress → ApplyProgress
  | 0, p => p
  | fuel + 1, p =>
    match p.step with
    | none => p
    | some (true, q) => applyLoop fuel q
    | some (false, q) => q

/-- What one pass does: it applies the next entry, or halts on it. -/
theorem step_spec {p q : ApplyProgress} {applied : Bool} (h : p.step = some (applied, q)) :
    p.log.applied < p.log.committed ∧
      q.log = (if applied then { p.log with applied := p.log.applied + 1 } else p.log) ∧
      (applied = false → q.halted = true) ∧
      (q.sawConfigChange = true →
        p.sawConfigChange = true ∨ ∃ e ∈ p.log.entries, e.command.isConfigChange = true) := by
  unfold step at h
  split at h
  · rename_i hlt
    dsimp only at h
    split at h
    · cases h
    rename_i entry hget
    have hmem : entry ∈ p.log.entries := RaftLog.mem_of_get hget
    have hsaw : (p.sawConfigChange || entry.command.isConfigChange) = true →
        p.sawConfigChange = true ∨ ∃ e ∈ p.log.entries, e.command.isConfigChange = true := by
      intro hor
      rcases Bool.or_eq_true_iff.mp hor with hp | he
      · exact .inl hp
      · exact .inr ⟨entry, hmem, he⟩
    split at h
    · cases h
    split at h
    · cases h
      refine ⟨hlt, ?_, fun hf => (Bool.noConfusion hf), hsaw⟩
      simp only [RaftLog.apply, if_true]
      rw [if_pos ⟨Nat.lt_succ_self _, hlt⟩]
    · cases h
      exact ⟨hlt, rfl, fun _ => rfl, hsaw⟩
  · cases h

/-- The loop moves `applied` up to at most `committed`, and touches nothing else of the
log. -/
theorem applyLoop_spec (fuel : Nat) (p : ApplyProgress) :
    (∃ a, (applyLoop fuel p).log = { p.log with applied := a } ∧
      p.log.applied ≤ a ∧ a ≤ max p.log.applied p.log.committed) ∧
    ((applyLoop fuel p).sawConfigChange = true →
      p.sawConfigChange = true ∨ ∃ e ∈ p.log.entries, e.command.isConfigChange = true) := by
  induction fuel generalizing p with
  | zero => exact ⟨⟨p.log.applied, rfl, Nat.le_refl _, Nat.le_max_left _ _⟩, .inl⟩
  | succ fuel ih =>
    unfold applyLoop
    split
    · exact ⟨⟨p.log.applied, rfl, Nat.le_refl _, Nat.le_max_left _ _⟩, .inl⟩
    · rename_i q hstep
      obtain ⟨hlt, hlog, -, hsaw⟩ := step_spec hstep
      rw [if_pos rfl] at hlog
      obtain ⟨⟨a, ha, hle, hmax⟩, hcfg⟩ := ih q
      rw [hlog] at ha hle hmax hcfg
      refine ⟨⟨a, ha, ?_, ?_⟩, ?_⟩
      · exact Nat.le_of_succ_le hle
      · dsimp only at hmax
        omega
      · intro hs
        rcases hcfg hs with hq | he
        · exact hsaw hq
        · exact .inr he
    · rename_i q hstep
      obtain ⟨-, hlog, -, hsaw⟩ := step_spec hstep
      exact ⟨⟨p.log.applied, hlog, Nat.le_refl _, Nat.le_max_left _ _⟩, hsaw⟩

end ApplyProgress

namespace RaftNode
variable {σ : Type}

/-- The committed entries are applied, up to the first that fails. -/
def applyCommitted (n : RaftNode σ) (clock : Clock) : RaftNode σ :=
  match n.stateMachine with
  | none => n
  | some sm =>
    let p := ApplyProgress.applyLoop (n.log.committed - n.log.applied)
      { log := n.log, stateMachine := sm, halted := n.applyHalted }
    let n := { n with
      log := p.log, stateMachine := some p.stateMachine, applyHalted := p.halted }
    if p.sawConfigChange then n.syncPeersFromVoters clock p.stateMachine.voters else n

/-- **What `apply_committed` changes**: the applied watermark, the state machine and the
halt flag; the peer list only when the log holds a membership change. -/
theorem applyCommitted_spec (n : RaftNode σ) (clock : Clock) :
    ∃ a sm halted, n.log.applied ≤ a ∧ a ≤ max n.log.applied n.log.committed ∧
      (n.applyCommitted clock = { n with
          log := { n.log with applied := a }, stateMachine := sm, applyHalted := halted } ∨
        (∃ e ∈ n.log.entries, e.command.isConfigChange = true) ∧
          ∃ voters, n.applyCommitted clock = syncPeersFromVoters { n with
            log := { n.log with applied := a }, stateMachine := sm, applyHalted := halted }
            clock voters) := by
  unfold applyCommitted
  split
  · exact ⟨n.log.applied, n.stateMachine, n.applyHalted, Nat.le_refl _, Nat.le_max_left _ _,
      .inl rfl⟩
  rename_i sm _
  obtain ⟨⟨a, hlog, hle, hmax⟩, hcfg⟩ := ApplyProgress.applyLoop_spec
    (n.log.committed - n.log.applied)
    { log := n.log, stateMachine := sm, halted := n.applyHalted }
  dsimp only at hlog hle hmax hcfg ⊢
  generalize ApplyProgress.applyLoop _ _ = p at hlog hcfg ⊢
  rw [hlog]
  refine ⟨a, some p.stateMachine, p.halted, hle, hmax, ?_⟩
  split
  · rename_i hsaw
    rcases hcfg hsaw with hfalse | he
    · cases hfalse
    · exact .inr ⟨he, _, rfl⟩
  · exact .inl rfl

variable [SnapshotCodec]

/-- The snapshot `maybe_snapshot` would write now. -/
def snapshotDue (n : RaftNode σ) : Option PersistedSnapshot :=
  let applied := n.log.applied
  if n.snapshotInterval = 0 then none
  else if applied < n.lastSnapshotIndex + n.snapshotInterval then none
  else
    match n.stateMachine with
    | none => none
    | some sm =>
      match SnapshotCodec.toVec sm.snapshot with
      | none => none
      | some data => some {
          lastIndex := applied
          lastTerm := (n.log.get applied).elim n.lastSnapshotTerm LogEntry.term
          voters := sm.voters
          data := data }

/-- When a snapshot is due, and what it covers. -/
theorem snapshotDue_spec {n : RaftNode σ} {snap : PersistedSnapshot}
    (h : n.snapshotDue = some snap) :
    0 < n.snapshotInterval ∧ n.lastSnapshotIndex + n.snapshotInterval ≤ n.log.applied ∧
      snap.lastIndex = n.log.applied ∧
      snap.lastTerm = (n.log.get n.log.applied).elim n.lastSnapshotTerm LogEntry.term := by
  unfold snapshotDue at h
  dsimp only at h
  split at h
  · cases h
  split at h
  · cases h
  split at h
  · cases h
  split at h
  · cases h
  cases h
  exact ⟨by omega, by omega, rfl, rfl⟩

variable [RaftStorage σ]

/-- Write a snapshot to the store, if there is one; `false` when the write failed. -/
def persistSnapshot (storage : Option σ) (snap : PersistedSnapshot) : Bool × Option σ :=
  match storage with
  | none => (true, none)
  | some store =>
    match RaftStorage.saveSnapshot store snap with
    | (.ok (), store) => (true, some store)
    | (.error _, store) => (false, some store)

/-- A snapshot is taken if one is due, and the log is cut. -/
def maybeSnapshot (n : RaftNode σ) : RaftNode σ :=
  match n.snapshotDue with
  | none => n
  | some snap =>
    let (saved, storage) := persistSnapshot n.storage snap
    if saved then
      { n with
        storage := persistTruncate storage snap.lastIndex
        log := n.log.discardThrough snap.lastIndex
        lastSnapshotIndex := snap.lastIndex
        lastSnapshotTerm := snap.lastTerm }
    else { n with storage := storage }

/-- `maybe_snapshot` compacts the log: a snapshot is due and the store takes it. -/
def TakesSnapshot (n : RaftNode σ) : Prop :=
  ∃ snap, n.snapshotDue = some snap ∧ (persistSnapshot n.storage snap).1 = true

/-- **The two ways `maybe_snapshot` returns**: with a compacted log, or with nothing but
the store touched. -/
theorem maybeSnapshot_cases (n : RaftNode σ) :
    (∃ snap storage, n.snapshotDue = some snap ∧
      persistSnapshot n.storage snap = (true, storage) ∧
      n.maybeSnapshot = { n with
        storage := persistTruncate storage snap.lastIndex
        log := n.log.discardThrough snap.lastIndex
        lastSnapshotIndex := snap.lastIndex
        lastSnapshotTerm := snap.lastTerm }) ∨
    (¬ n.TakesSnapshot ∧ ∃ storage, n.maybeSnapshot = { n with storage := storage } ∧
      (storage = n.storage ∨ ∃ snap, persistSnapshot n.storage snap = (false, storage))) := by
  unfold maybeSnapshot
  cases hd : n.snapshotDue with
  | none =>
    refine .inr ⟨?_, n.storage, rfl, .inl rfl⟩
    rintro ⟨snap, hs, -⟩
    rw [hd] at hs
    cases hs
  | some snap =>
    dsimp only
    cases hp : persistSnapshot n.storage snap with
    | mk saved storage =>
      cases saved with
      | true => exact .inl ⟨snap, storage, rfl, hp, rfl⟩
      | false =>
        refine .inr ⟨?_, storage, rfl, .inr ⟨snap, hp⟩⟩
        rintro ⟨snap', hs, ht⟩
        rw [hd] at hs
        cases hs
        rw [hp] at ht
        cases ht

end RaftNode

end CratonHsm
