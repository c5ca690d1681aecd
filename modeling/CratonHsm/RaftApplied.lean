import CratonHsm.GuardedRun
import CratonHsm.RaftLogInvariant

/-!
# The log and the state machine agree on what is applied

The applied position is kept twice: as the watermark of the log and as `last_applied` of
the state machine.  `apply_committed` moves both by one, a restored snapshot moves the
machine to the position it was taken at and the log to the position it was sent for, and a
restart builds both anew from the store.  A history records what was done to the machine of
a node since it booted; `appliedInStep_run` says that in every run of a cluster the two
positions agree, and that the history applies one index after another, with no gap but
where a snapshot jumps forward.

Nothing is asked of the store but that it behaves when it works: writes and reads may fail.
-/

namespace CratonHsm
open GuardedRun StorageModel RaftLog List ClusterStateMachine RaftNode Function Option

/-! ## Histories of a state machine -/

/-- What is done to a state machine: an entry applied, or a snapshot restored. -/
inductive MachineAction where
  | applied (index : Nat)
  | restored (index : Nat)
  deriving DecidableEq

namespace MachineAction

/-- The position after an action: one further for an entry, anywhere forward for a
snapshot. -/
def advance (position : Nat) : MachineAction → Option Nat
  | applied i => if i = position + 1 then some i else none
  | restored i => if position ≤ i then some i else none

/-- The position after a history, if every action is in order. -/
def positionAfter (start : Nat) (actions : List MachineAction) : Option Nat :=
  actions.foldlM advance start

/-- The index of an applied entry. -/
def appliedIndex : MachineAction → Option Nat
  | applied i => some i
  | restored _ => none

@[simp] theorem positionAfter_nil (p : Nat) : positionAfter p [] = some p := rfl

@[simp] theorem positionAfter_cons (p : Nat) (a : MachineAction) (as : List MachineAction) :
    positionAfter p (a :: as) = (a.advance p).bind fun q => positionAfter q as := rfl

theorem positionAfter_append {p q : Nat} {as bs : List MachineAction}
    (h : positionAfter p as = some q) : positionAfter p (as ++ bs) = positionAfter q bs := by
  unfold positionAfter at h ⊢
  rw [foldlM_append, h]
  rfl

theorem le_of_advance {p q : Nat} {a : MachineAction} (h : a.advance p = some q) : p ≤ q := by
  cases a with
  | applied | restored =>
    simp only [advance, ite_none_right_eq_some, some.injEq] at h
    omega

/-- A history in order applies each index once, in increasing order, above where it
starts. -/
theorem appliedIndex_increasing {start stop : Nat} {actions : List MachineAction}
    (h : positionAfter start actions = some stop) :
    (actions.filterMap appliedIndex).Pairwise (· < ·) ∧
      ∀ i ∈ actions.filterMap appliedIndex, start < i := by
  induction actions generalizing start with
  | nil => simp
  | cons a actions ih =>
    rw [positionAfter_cons, bind_eq_some_iff] at h
    obtain ⟨q, hq, hrest⟩ := h
    obtain ⟨hpair, habove⟩ := ih hrest
    have hle := le_of_advance hq
    cases a with
    | applied i =>
      simp only [advance, ite_none_right_eq_some, some.injEq] at hq
      obtain ⟨hi, rfl⟩ := hq
      simp only [filterMap_cons, appliedIndex, pairwise_cons, mem_cons]
      refine ⟨⟨habove, hpair⟩, ?_⟩
      rintro j (rfl | hj)
      · omega
      have := habove j hj
      omega
    | restored i =>
      exact ⟨hpair, fun j hj => Nat.lt_of_le_of_lt hle (habove j hj)⟩

end MachineAction

open MachineAction

/-! ## The apply loop -/

/-- The machine accepts exactly the next index. -/
theorem ClusterStateMachine.apply_ok {sm sm' : ClusterStateMachine} {e : LogEntry}
    {o : ApplyOutcome} (h : sm.apply e = .ok (o, sm')) :
    e.index = sm.lastApplied + 1 ∧ sm'.lastApplied = e.index := by
  unfold apply at h
  dsimp only at h
  split at h
  · cases h
  rename_i hindex
  refine ⟨not_not.mp hindex, ?_⟩
  split at h
  · cases h; rfl
  · cases h; rfl
  · cases h; rfl
  · cases h; rfl

namespace ApplyProgress

/-- The log and the machine are at the same position. -/
def InStep (p : ApplyProgress) : Prop := p.log.applied = p.stateMachine.lastApplied

/-- One pass applies the next index to both, or leaves both alone. -/
theorem step_inStep {p q : ApplyProgress} {applied : Bool} (h : p.InStep)
    (hstep : p.step = some (applied, q)) : q.InStep ∧
      q.stateMachine.lastApplied = p.stateMachine.lastApplied + if applied then 1 else 0 := by
  obtain ⟨-, hlog, -⟩ := step_spec hstep
  unfold step at hstep
  split at hstep
  swap
  · cases hstep
  dsimp only at hstep
  split at hstep
  · cases hstep
  split at hstep
  · cases hstep
  split at hstep
  · rename_i hok
    obtain ⟨hindex, hlast⟩ := apply_ok hok
    cases hstep
    refine ⟨?_, ?_⟩
    · change RaftLog.applied _ = _
      rw [hlog, if_pos rfl]
      change p.log.applied + 1 = _
      rw [hlast, hindex, h]
    · rw [hlast, hindex, if_pos rfl]
  · cases hstep
    exact ⟨h, rfl⟩

/-- The entries the loop applies, by the positions the machine takes. -/
def appliedBy : Nat → ApplyProgress → List MachineAction
  | 0, _ => []
  | fuel + 1, p =>
    match p.step with
    | some (true, q) => .applied q.stateMachine.lastApplied :: appliedBy fuel q
    | _ => []

/-- **The loop keeps log and machine in step**, and applies one index after another. -/
theorem applyLoop_inStep (fuel : Nat) {p : ApplyProgress} (h : p.InStep) :
    (applyLoop fuel p).InStep ∧
      positionAfter p.stateMachine.lastApplied (appliedBy fuel p) =
        some (applyLoop fuel p).stateMachine.lastApplied := by
  induction fuel generalizing p with
  | zero => exact ⟨h, rfl⟩
  | succ fuel ih =>
    unfold applyLoop appliedBy
    rcases hstep : p.step with _ | r
    · exact ⟨h, rfl⟩
    obtain ⟨applied, q⟩ := r
    obtain ⟨hq, hlast⟩ := step_inStep h hstep
    cases applied with
    | false =>
      refine ⟨hq, ?_⟩
      rw [positionAfter_nil]
      exact congrArg some hlast.symm
    | true =>
      obtain ⟨hloop, hpos⟩ := ih hq
      refine ⟨hloop, ?_⟩
      rw [if_pos rfl] at hlast
      rw [positionAfter_cons, advance, if_pos hlast, bind_some]
      exact hpos

end ApplyProgress

/-! ## A node -/

/-- A codec that reads back what it writes. -/
class LawfulSnapshotCodec [SnapshotCodec] : Prop where
  fromSlice_toVec : ∀ (s : StateMachineSnapshot) (data : PrefixFreeCode.Bytes),
    SnapshotCodec.toVec s = some data → SnapshotCodec.fromSlice data = some s

/-- The bytes are a snapshot taken at this index. -/
def TakenAt [SnapshotCodec] (index : Nat) (data : PrefixFreeCode.Bytes) : Prop :=
  ∃ t, SnapshotCodec.fromSlice data = some t ∧ t.lastApplied = index

namespace RaftNode
variable {σ : Type} {storage : Option σ} {args : InstallSnapshotArgs} {n : RaftNode σ}
  {snap : PersistedSnapshot}

/-- What `apply_committed` applies. -/
def appliedBy (n : RaftNode σ) : List MachineAction :=
  match n.stateMachine with
  | none => []
  | some sm => ApplyProgress.appliedBy (n.log.committed - n.log.applied)
      { log := n.log, stateMachine := sm, halted := n.applyHalted }

/-- A new node with a new state machine. -/
def Fresh (n : RaftNode σ) : Prop :=
  n.IsNew ∧ ∃ voters, n.stateMachine = some (ClusterStateMachine.new voters)

theorem Fresh.machine (h : n.Fresh) : n.stateMachine.map lastApplied = some 0 := by
  obtain ⟨-, voters, hsm⟩ := h
  rw [hsm]
  rfl

/-- Both orders of the wiring calls end with the same log, peers and machine, the machine
at the applied position of the log. -/
def AttachOrderFree [RaftStorage σ] [SnapshotCodec] (n : RaftNode σ) (clock : Clock) (store : σ)
    (sm : ClusterStateMachine) : Prop :=
  let machineFirst := ((n.attachStateMachine sm).attachStorage clock store).2
  let storeFirst := (n.attachStorage clock store).2.attachStateMachine sm
  machineFirst.log = storeFirst.log ∧ machineFirst.peers = storeFirst.peers ∧
    machineFirst.stateMachine = storeFirst.stateMachine ∧
    ∀ m ∈ [machineFirst, storeFirst],
      m.stateMachine.map ClusterStateMachine.lastApplied = some m.log.applied

section Attach

/-- `attach_storage` reads this snapshot. -/
def LoadsSnapshot [RaftStorage σ] (store : σ) (snap : PersistedSnapshot) : Prop :=
  (∃ hs, RaftStorage.loadHardState store = .ok hs) ∧
    (∃ entries, RaftStorage.loadLog store = .ok entries) ∧
    RaftStorage.loadSnapshot store = .ok (some snap)

variable [SnapshotCodec]

/-- The machine after a snapshot is restored into it. -/
def restoredMachine (snap : PersistedSnapshot) (sm : ClusterStateMachine) : ClusterStateMachine :=
  (SnapshotCodec.fromSlice snap.data).elim sm ClusterStateMachine.restoreFromSnapshot

/-- A snapshot reaches the machine that is attached, and moves the log to its position. -/
theorem restoreSnapshot_attached (n : RaftNode σ) (clock : Clock) (snap : PersistedSnapshot)
    (sm : ClusterStateMachine) :
    (n.attachStateMachine sm).restoreSnapshot clock snap =
      (n.restoreSnapshot clock snap).attachStateMachine (restoredMachine snap sm) ∧
    (n.restoreSnapshot clock snap).log = n.log.discardThrough snap.lastIndex := by
  unfold restoreSnapshot restoredMachine attachStateMachine
  constructor
  · cases SnapshotCodec.fromSlice snap.data <;> dsimp only <;> split <;> rfl
  · dsimp only
    split <;> rfl

variable [RaftStorage σ]

/-- Wiring the machine first differs in what a loaded snapshot makes of it. -/
theorem attachStorage_attached {n : RaftNode σ} (hnew : n.IsNew) (clock : Clock) (store : σ)
    (sm : ClusterStateMachine) :
    (∃ snap, LoadsSnapshot store snap ∧
      ((n.attachStateMachine sm).attachStorage clock store).2 =
        (n.attachStorage clock store).2.attachStateMachine (restoredMachine snap sm) ∧
      (n.attachStorage clock store).2.log.applied = snap.lastIndex) ∨
    (∀ snap, ¬ LoadsSnapshot store snap) ∧
      ((n.attachStateMachine sm).attachStorage clock store).2 =
        (n.attachStorage clock store).2.attachStateMachine sm ∧
      (n.attachStorage clock store).2.log.applied = 0 := by
  unfold attachStorage LoadsSnapshot
  rcases hhard : RaftStorage.loadHardState store with _ | hs
  · exact .inr ⟨by simp, rfl, by rw [hnew.log]⟩
  rcases hlog : RaftStorage.loadLog store with _ | entries
  · exact .inr ⟨by simp, rfl, by rw [hnew.log]⟩
  have happlied : (entries.foldl append n.log).applied = 0 := by
    rw [foldl_append, hnew.log]
  rcases hsnap : RaftStorage.loadSnapshot store with _ | _ | snap
  · exact .inr ⟨by simp, rfl, happlied⟩
  · exact .inr ⟨by simp, rfl, happlied⟩
  · obtain ⟨hmachine, hlog⟩ := restoreSnapshot_attached
      { n with currentTerm := hs.currentTerm, votedFor := hs.votedFor,
               log := entries.foldl append n.log } clock snap sm
    refine .inl ⟨snap, ⟨⟨hs, rfl⟩, ⟨entries, rfl⟩, rfl⟩, ?_, ?_⟩
    · exact congrArg (fun m : RaftNode σ => { m with storage := some store }) hmachine
    · refine (congrArg RaftLog.applied hlog).trans ?_
      unfold discardThrough
      dsimp only
      rw [happlied]
      split <;> omega

/-- **Attach order does not matter** exactly if no snapshot is read, or it is one of position 0 that
makes nothing else of a new machine: `attach_storage` restores only a machine it finds attached. -/
theorem attachOrderFree_iff {n : RaftNode σ} (hnew : n.IsNew) (clock : Clock) (store : σ)
    (voters : List String) :
    n.AttachOrderFree clock store (ClusterStateMachine.new voters) ↔
      ∀ snap, LoadsSnapshot store snap → snap.lastIndex = 0 ∧
        restoredMachine snap (ClusterStateMachine.new voters) = ClusterStateMachine.new voters := by
  unfold AttachOrderFree
  rcases n.attachStorage_attached hnew clock store (.new voters) with
    ⟨snap, hloads, hmachine, happlied⟩ | ⟨hnone, hmachine, happlied⟩
  · have honly : ∀ snap', LoadsSnapshot store snap' → snap' = snap := by
      intro snap' hloads'
      simpa using hloads'.2.2.symm.trans hloads.2.2
    rw [hmachine]
    constructor
    · rintro ⟨-, -, hsame, hstep⟩ snap' hloads'
      rw [honly snap' hloads']
      refine ⟨?_, some.inj hsame⟩
      have hzero := hstep _ (.tail _ (.head _))
      exact (happlied.symm.trans (some.inj hzero).symm)
    · intro h
      obtain ⟨hindex, hrestored⟩ := h snap hloads
      rw [hrestored]
      refine ⟨rfl, rfl, rfl, fun m hm => ?_⟩
      obtain rfl : m = (n.attachStorage clock store).2.attachStateMachine (.new voters) := by
        simpa using hm
      exact congrArg some (happlied.trans hindex).symm
  · rw [hmachine]
    refine iff_of_true ⟨rfl, rfl, rfl, fun m hm => ?_⟩ fun snap hloads => absurd hloads (hnone snap)
    obtain rfl : m = (n.attachStorage clock store).2.attachStateMachine (.new voters) := by
      simpa using hm
    exact congrArg some happlied.symm

end Attach

/-- The snapshot that is due is one of the machine as it is. -/
theorem snapshotDue_data [SnapshotCodec] (h : n.snapshotDue = some snap) :
    ∃ sm, n.stateMachine = some sm ∧ SnapshotCodec.toVec sm.snapshot = some snap.data := by
  unfold snapshotDue at h
  dsimp only at h
  split at h
  · cases h
  split at h
  · cases h
  split at h
  · cases h
  rename_i sm hsm
  split at h
  · cases h
  rename_i data hdata
  cases h
  exact ⟨sm, hsm, hdata⟩

section Aligned
variable [StorageModel σ]

/-- The append loop leaves the watermarks alone. -/
theorem appendLoop_marks (entries : List LogEntry) (p : AppendProgress σ) :
    (p.appendLoop entries).2.log.committed = p.log.committed ∧
      (p.appendLoop entries).2.log.applied = p.log.applied := by
  induction entries generalizing p with
  | nil => exact ⟨rfl, rfl⟩
  | cons e entries ih =>
    unfold AppendProgress.appendLoop
    split
    · split
      · split
        · exact ⟨rfl, rfl⟩
        rename_i log htrunc
        obtain ⟨-, -, hlog⟩ := truncateAfter_ok htrunc
        obtain ⟨hc, ha⟩ := ih (AppendProgress.push
          { p with log := log, storage := persistTruncate p.storage (e.index - 1) } e)
        refine ⟨hc.trans ?_, ha.trans ?_⟩
        · rw [AppendProgress.push, append_committed, hlog]
        · rw [AppendProgress.push, append_applied, hlog]
      · exact ih p
    · exact ih (p.push e)

variable [SnapshotCodec]

/-- A snapshot in the store was taken at the index it is filed under. -/
def SnapshotAligned (storage : Option σ) : Prop :=
  ∀ s snap, storage = some s → (StorageModel.contents s).snapshot = some snap →
    TakenAt snap.lastIndex snap.data

/-- A write that leaves the snapshot alone. -/
theorem SnapshotAligned.write {write : σ → Except StorageError Unit × σ}
    {effect : InMemoryStorage → InMemoryStorage} (h : SnapshotAligned storage)
    (hw : ∀ s, WriteMeets contents s (write s) effect)
    (hsame : ∀ c, (effect c).snapshot = c.snapshot) :
    SnapshotAligned (storage.map fun s => (write s).2) := by
  intro s' snap hs hsnap
  obtain ⟨s, rfl, rfl⟩ := map_eq_some_iff.mp hs
  apply h s snap rfl
  rcases hw s with ⟨_, -, hc⟩ | ⟨-, hc⟩
  · rw [← hc]
    exact hsnap
  · rw [← hsame, ← hc]
    exact hsnap

theorem SnapshotAligned.truncate (h : SnapshotAligned storage)
    (after : Nat) : SnapshotAligned (persistTruncate storage after) :=
  h.write (fun s => truncateLogAfter_meets s after) fun _ => rfl

theorem SnapshotAligned.append (h : SnapshotAligned storage)
    (entries : List LogEntry) : SnapshotAligned (persistAppended storage entries) :=
  h.write (fun s => appendLog_meets s entries) fun _ => rfl

/-- A snapshot filed under the index it was taken at may be written. -/
theorem SnapshotAligned.save {storage storage' : Option σ}
    {saved : Bool} (h : SnapshotAligned storage) (ht : TakenAt snap.lastIndex snap.data)
    (hp : persistSnapshot storage snap = (saved, storage')) : SnapshotAligned storage' := by
  have hst := stored_persistSnapshot hp
  intro s' snap' hs hsnap
  subst hs
  rcases storage with _ | s
  · cases saved <;> simp at hst
  cases saved with
  | true =>
    simp only [stored_some, if_true, map_some, some.injEq] at hst
    rw [hst] at hsnap
    cases hsnap
    exact ht
  | false =>
    simp only [stored_some, Bool.false_eq_true, if_false, some.injEq] at hst
    exact h s snap' rfl (hst ▸ hsnap)

/-- Log and machine of the node are at position `p`, the store agrees. -/
structure Aligned (n : RaftNode σ) (p : Nat) : Prop where
  machine : n.stateMachine.map ClusterStateMachine.lastApplied = some p
  applied : n.log.applied = p
  committed : p ≤ n.log.committed
  snapshot : n.lastSnapshotIndex ≤ p
  store : SnapshotAligned n.storage

theorem Fresh.aligned (h : n.Fresh) : n.Aligned 0 := by
  refine ⟨h.machine, ?_, Nat.zero_le _, Nat.le_of_eq h.1.snapshotIndex, ?_⟩
  · rw [h.1.log]
  · rw [h.1.storage]
    nofun

namespace Aligned
variable {n m : RaftNode σ} {p : Nat}

section Steps
variable (h : n.Aligned p)
include h

/-- A change that leaves the applied positions and the snapshot alone. -/
theorem of_frame (hsm : m.stateMachine = n.stateMachine) (happ : m.log.applied = n.log.applied)
    (hc : n.log.committed ≤ m.log.committed) (hs : m.lastSnapshotIndex = n.lastSnapshotIndex)
    (hst : SnapshotAligned m.storage) :
    m.Aligned p :=
  ⟨hsm ▸ h.machine, happ.trans h.applied, h.committed.trans hc, hs ▸ h.snapshot, hst⟩

/-- A change of other fields. -/
theorem of_same (hsame : (m.stateMachine, m.log, m.lastSnapshotIndex, m.storage) =
    (n.stateMachine, n.log, n.lastSnapshotIndex, n.storage)) : m.Aligned p := by
  simp only [Prod.mk.injEq] at hsame
  obtain ⟨hsm, hlog, hs, hst⟩ := hsame
  exact h.of_frame hsm (hlog ▸ rfl) (hlog ▸ Nat.le_refl _) hs (hst ▸ h.store)

/-- A change of the store alone. -/
theorem with_storage (hst : SnapshotAligned storage) : Aligned { n with storage := storage } p :=
  h.of_frame rfl rfl (Nat.le_refl _) rfl hst

theorem persistHardState : n.persistHardState.Aligned p :=
  h.with_storage (h.store.write (fun s => saveHardState_meets s _) fun _ => rfl)

theorem syncCommitted : n.syncCommittedStateBestEffort.Aligned p :=
  h.with_storage (h.store.write (fun s => syncAllCommittedState_meets s) fun _ => rfl)

theorem becomeFollower (term : Nat) : (n.becomeFollower term).Aligned p :=
  Aligned.persistHardState (h.of_same rfl)

theorem adoptTerm (term : Nat) : (n.adoptTerm term).Aligned p := by
  unfold RaftNode.adoptTerm
  split
  · exact h.becomeFollower term
  · exact h

theorem concede (term : Nat) : (n.concede term).Aligned p := by
  unfold RaftNode.concede
  split
  · exact h.becomeFollower term
  · split
    · exact h.becomeFollower term
    · exact h

theorem castVote (args : RequestVoteArgs) : (n.castVote args).2.Aligned p := by
  unfold RaftNode.castVote
  split
  · exact Aligned.persistHardState (h.of_same rfl)
  · exact h

theorem checkPrevLog (i t : Nat) : (n.checkPrevLog i t).2.Aligned p := by
  rcases n.checkPrevLog_node i t with hr | ⟨-, e, log, -, -, -, htrunc, hr⟩
  · rw [hr]
    exact h
  obtain ⟨-, -, hlog⟩ := truncateAfter_ok htrunc
  rw [hr]
  refine h.of_frame rfl ?_ ?_ rfl (h.store.truncate _)
  · rw [hlog]
  · rw [hlog]

theorem appendBatch (entries : List LogEntry) : (n.appendBatch entries).2.Aligned p := by
  have hstore : SnapshotAligned (n.appendBatch entries).2.storage :=
    appendBatch_storage (fun _ after hst => hst.truncate after) (fun _ es hst => hst.append es)
      n entries h.store
  obtain ⟨hc, ha⟩ := appendLoop_marks entries { log := n.log, storage := n.storage }
  unfold RaftNode.appendBatch at hstore ⊢
  split
  · rename_i hcons
    rw [if_pos hcons] at hstore
    dsimp only at hstore ⊢
    split
    · rename_i hdone
      rw [if_pos hdone] at hstore
      exact h.of_frame rfl ha (Nat.le_of_eq hc.symm) rfl hstore
    · rename_i hdone
      rw [if_neg hdone] at hstore
      exact h.of_frame rfl ha (Nat.le_of_eq hc.symm) rfl hstore
  · exact h

theorem commit (i : Nat) : Aligned { n with log := n.log.commit i } p := by
  refine h.of_frame rfl (commit_applied _ _) ?_ rfl h.store
  change n.log.committed ≤ (n.log.commit i).committed
  rcases n.log.commit_committed i with hc | ⟨hc, hlt, -⟩
  · exact Nat.le_of_eq hc.symm
  · omega

theorem followCommit (args : AppendEntriesArgs) : (n.followCommit args).Aligned p := by
  rcases n.followCommit_node args with hr | ⟨-, hr⟩
  · rw [hr]
    exact h
  · rw [hr]
    exact (h.commit _).syncCommitted

theorem advanceCommitIndex : n.advanceCommitIndex.Aligned p := by
  rcases n.advanceCommitIndex_node with hr | ⟨i, -, hr⟩
  · rw [hr]
    exact h
  · rw [hr]
    exact h.commit i

theorem advanceAndSync : n.advanceAndSync.Aligned p := by
  rcases n.advanceAndSync_node with hr | hr
  · rw [hr]
    exact h.advanceCommitIndex
  · rw [hr]
    exact h.advanceCommitIndex.syncCommitted

/-- **Applying moves log and machine together.** -/
theorem applyCommitted (clock : Clock) :
    ∃ q, (n.applyCommitted clock).Aligned q ∧ positionAfter p n.appliedBy = some q := by
  obtain ⟨sm, hsm, hlast⟩ := map_eq_some_iff.mp h.machine
  have hstart : ApplyProgress.InStep
      { log := n.log, stateMachine := sm, halted := n.applyHalted } :=
    h.applied.trans hlast.symm
  obtain ⟨hstep, hpos⟩ := ApplyProgress.applyLoop_inStep (n.log.committed - n.log.applied) hstart
  obtain ⟨⟨a, hlog, hle, hmax⟩, -⟩ := ApplyProgress.applyLoop_spec
    (n.log.committed - n.log.applied)
    { log := n.log, stateMachine := sm, halted := n.applyHalted }
  unfold RaftNode.applyCommitted RaftNode.appliedBy
  rw [hsm, ← hlast]
  dsimp only at hpos hlog hle hmax ⊢
  generalize ApplyProgress.applyLoop (n.log.committed - n.log.applied) _ = stop at *
  refine ⟨stop.stateMachine.lastApplied, ?_, hpos⟩
  have hend : stop.stateMachine.lastApplied = a := by
    rw [← hstep, hlog]
  have happlied := h.applied
  have hcommitted := h.committed
  have hsnapshot := h.snapshot
  have haligned : Aligned { n with
      log := stop.log, stateMachine := some stop.stateMachine, applyHalted := stop.halted }
      stop.stateMachine.lastApplied := by
    refine ⟨rfl, hstep, ?_, ?_, h.store⟩
    · change _ ≤ stop.log.committed
      rw [hlog, hend]
      dsimp only
      omega
    · change n.lastSnapshotIndex ≤ _
      omega
  split
  · exact haligned.of_same rfl
  · exact haligned

end Steps

end Aligned

/-! ## Snapshots -/

/-- A request as `prepare_install_snapshot` builds it: one chunk, taken at the index it is
sent for. -/
structure Genuine (args : InstallSnapshotArgs) : Prop where
  offset : args.offset = 0
  lastChunk : args.lastChunk = true
  taken : TakenAt args.lastIncludedIndex args.data

/-- What `attach_storage` restores. -/
def bootActions (storage : Option σ) : List MachineAction :=
  match storage with
  | none => []
  | some s =>
    match RaftStorage.loadHardState s, RaftStorage.loadLog s, RaftStorage.loadSnapshot s with
    | .ok _, .ok _, .ok (some snap) => (SnapshotCodec.fromSlice snap.data).toList.map fun t =>
        .restored t.lastApplied
    | _, _, _ => []

namespace Aligned
variable {n : RaftNode σ} {p : Nat}

theorem of_receipt (h : n.Aligned p) {m : RaftNode σ} (hr : ReceiptOnly n m) : m.Aligned p := by
  obtain ⟨_, _, _, rfl⟩ := hr
  exact h.of_same rfl

/-- A node is booted anew: log and machine start at the snapshot of the store. -/
theorem boot (hnew : n.IsNew) (hsm : n.stateMachine.map lastApplied = some 0)
    (clock : Clock) {store : σ} (hstore : SnapshotAligned (some store)) :
    ∃ q, (n.attachStorage clock store).2.Aligned q ∧
      positionAfter 0 (bootActions (some store)) = some q := by
  have hfresh : ∀ (entries : List LogEntry) (term : Nat) (vote : Option String)
      (storage : Option σ), SnapshotAligned storage → Aligned { n with
        currentTerm := term, votedFor := vote, storage := storage
        log := entries.foldl append n.log } 0 := by
    intro entries term vote storage hst
    refine ⟨hsm, ?_, Nat.zero_le _, Nat.le_of_eq hnew.snapshotIndex, hst⟩
    rw [foldl_append, hnew.log]
  have hnone : SnapshotAligned (none : Option σ) := nofun
  unfold attachStorage
  rcases hhard : RaftStorage.loadHardState store with _ | hs
  · exact ⟨0, hfresh [] n.currentTerm n.votedFor n.storage (hnew.storage ▸ hnone),
      by simp [bootActions, hhard]⟩
  rcases hlog : RaftStorage.loadLog store with _ | entries
  · exact ⟨0, hfresh [] _ _ n.storage (hnew.storage ▸ hnone), by simp [bootActions, hlog]⟩
  rcases hsnap : RaftStorage.loadSnapshot store with _ | found
  · exact ⟨0, hfresh entries hs.currentTerm hs.votedFor n.storage (hnew.storage ▸ hnone),
      by simp [bootActions, hsnap]⟩
  rcases found with _ | snap
  · exact ⟨0, hfresh entries hs.currentTerm hs.votedFor (some store) hstore,
      by simp [bootActions, hsnap]⟩
  have hheld := loadSnapshot_meets store _ hsnap
  obtain ⟨t, ht, hindex⟩ := hstore store snap rfl hheld.symm
  obtain ⟨sm, hm, -⟩ := map_eq_some_iff.mp hsm
  refine ⟨snap.lastIndex, ?_, ?_⟩
  · dsimp only
    unfold restoreSnapshot
    rw [foldl_append, hnew.log, ht, hm]
    dsimp only
    have hgoal : Aligned { n with
        currentTerm := hs.currentTerm, votedFor := hs.votedFor, storage := some store
        lastSnapshotIndex := snap.lastIndex, lastSnapshotTerm := snap.lastTerm
        log := discardThrough
          { entries := [] ++ entries, committed := 0, applied := 0 } snap.lastIndex
        stateMachine := some (restoreFromSnapshot t) }
        snap.lastIndex := by
      refine ⟨congrArg some hindex, ?_, ?_, Nat.le_refl _, hstore⟩
      · simp only [discardThrough]
        split <;> omega
      · simp only [discardThrough]
        split <;> omega
    split
    · exact hgoal
    · exact hgoal.of_frame rfl rfl (Nat.le_refl _) rfl hstore
  · simp [bootActions, hhard, hlog, hsnap, ht, hindex, advance]

/-- The machine jumps forward to the position of the snapshot, and the log with it. -/
theorem adoptSnapshot (h : n.Aligned p) (clock : Clock)
    {snap : StateMachineSnapshot} (hindex : snap.lastApplied = args.lastIncludedIndex)
    (hle : n.log.committed ≤ args.lastIncludedIndex) :
    (n.adoptSnapshot clock args snap).Aligned args.lastIncludedIndex := by
  obtain ⟨sm, hsm, -⟩ := map_eq_some_iff.mp h.machine
  have happlied := h.applied
  have hcommitted := h.committed
  refine ⟨?_, ?_, ?_, Nat.le_refl _, h.store.truncate _⟩
  · change (n.stateMachine.map _).map _ = _
    rw [hsm]
    exact congrArg some hindex
  · change (n.log.discardThrough args.lastIncludedIndex).applied = _
    simp only [discardThrough]
    split <;> omega
  · change _ ≤ (n.log.discardThrough args.lastIncludedIndex).committed
    simp only [discardThrough]
    split <;> omega

variable [LawfulSnapshotCodec]

theorem maybeSnapshot (h : n.Aligned p) : n.maybeSnapshot.Aligned p := by
  rcases n.maybeSnapshot_cases with ⟨snap, storage, hdue, hsave, hr⟩ | ⟨-, storage, hr, hst⟩
  · obtain ⟨-, -, hindex, -⟩ := snapshotDue_spec hdue
    obtain ⟨sm, hsm, hdata⟩ := snapshotDue_data hdue
    have hlast : sm.lastApplied = p := by
      have := h.machine
      rw [hsm] at this
      exact some.inj this
    have hp : snap.lastIndex = p := hindex.trans h.applied
    have htaken : TakenAt snap.lastIndex snap.data :=
      ⟨sm.snapshot, LawfulSnapshotCodec.fromSlice_toVec _ _ hdata, hlast.trans hp.symm⟩
    rw [hr]
    refine ⟨h.machine, ?_, ?_, Nat.le_of_eq hp, (h.store.save htaken hsave).truncate _⟩
    · simp only [discardThrough]
      split <;> omega
    · simp only [discardThrough]
      split <;> omega
  · rw [hr]
    refine h.with_storage ?_
    rcases hst with rfl | ⟨snap, hsave⟩
    · exact h.store
    have hst := stored_persistSnapshot hsave
    intro s snap' hs hsnap
    subst hs
    obtain ⟨s₀, hs₀, hc⟩ := map_eq_some_iff.mp hst.symm
    exact h.store s₀ snap' hs₀ (hc ▸ hsnap)

/-- What a node sends is genuine. -/
theorem prepareInstallSnapshot [HmacSha256] (h : n.Aligned p) {clock : Clock}
    (hargs : n.prepareInstallSnapshot clock = some args) :
    Genuine args := by
  obtain ⟨sm, hsm, hlast⟩ := map_eq_some_iff.mp h.machine
  have hsnapshot := h.snapshot
  unfold RaftNode.prepareInstallSnapshot at hargs
  rw [hsm] at hargs
  simp only [bind_eq_bind, bind_some, bind_eq_some_iff] at hargs
  obtain ⟨data, hdata, hargs⟩ := hargs
  cases hargs
  refine ⟨rfl, rfl, sm.snapshot, LawfulSnapshotCodec.fromSlice_toVec _ _ hdata, ?_⟩
  change sm.lastApplied = max n.lastSnapshotIndex sm.lastApplied
  omega

end Aligned

variable [HmacSha256]

/-- What `handle_install_snapshot` restores. -/
def restoredBy (n : RaftNode σ) (clock : Clock) (args : InstallSnapshotArgs) :
    List MachineAction :=
  if (n.installSnapshot clock args).1 = .installed then
    ((n.snapshotPayload clock args).bind SnapshotCodec.fromSlice).toList.map fun t =>
      .restored t.lastApplied
  else []

namespace Aligned
variable {n : RaftNode σ} {p : Nat}

/-- **A genuine snapshot moves log and machine together**, and never back. -/
theorem installSnapshot (h : n.Aligned p) (clock : Clock)
    (hargs : Genuine args) : ∃ q, (n.installSnapshot clock args).2.Aligned q ∧
      positionAfter p (n.restoredBy clock args) = some q := by
  rcases n.installSnapshot_cases clock args with
    ⟨-, hreach, hr⟩ | ⟨data, m, hpay, -, hle, hm, hr⟩
  · have hno : (n.installSnapshot clock args).1 ≠ .installed := by
      intro hin
      rw [hin] at hreach
      cases hreach
    refine ⟨p, ?_, by rw [restoredBy, if_neg hno, positionAfter_nil]⟩
    rcases hr with hr | hr
    · exact h.of_receipt hr
    · exact (h.adoptTerm args.term).of_receipt hr
  · have hsingle : args.offset = 0 ∧ args.lastChunk = true := ⟨hargs.offset, hargs.lastChunk⟩
    have hdata : data = args.data := by
      rcases snapshotPayload_complete hpay with ⟨-, hdata⟩ | ⟨hmany, -⟩
      · exact hdata
      · exact absurd hsingle hmany
    obtain ⟨t, ht, hindex⟩ := hargs.taken
    have hmal := (h.adoptTerm args.term).of_receipt hm
    have hmle : m.log.committed ≤ args.lastIncludedIndex := by
      have hlog : m.log = n.log := hm.log.1.trans (n.adoptTerm_log args.term).1
      rw [hlog]
      exact hle
    have hpp : p ≤ args.lastIncludedIndex := hmal.committed.trans hmle
    rw [restoredBy, hpay, hr, hdata]
    unfold persistAndAdopt
    cases hsave : persistSnapshot m.storage (snapshotRecord args args.data) with
    | mk saved storage =>
      have htaken : TakenAt (snapshotRecord args args.data).lastIndex
          (snapshotRecord args args.data).data := ⟨t, ht, hindex⟩
      have hst := hmal.store.save htaken hsave
      cases saved with
      | false => exact ⟨p, hmal.with_storage hst, rfl⟩
      | true =>
        simp only [if_true, ht, bind_some, toList_some, map_cons, map_nil,
          positionAfter_cons, advance, hindex, if_pos hpp, positionAfter_nil]
        exact ⟨_, (hmal.with_storage hst).adoptSnapshot clock hindex hmle, rfl⟩

end Aligned

/-! ## One call -/

/-- The node on which a call makes its call of `apply_committed`, if it gets that far. -/
def applyPoint (n : RaftNode σ) : NodeEvent σ → Option (RaftNode σ)
  | .applyCommitted _ => some n
  | .handleAppendEntries clock args =>
    if (n.handleAppendEntries clock args).1.success then some (n.afterBatch clock args) else none
  | .handleAppendEntriesReply clock _ peerId reply sent =>
    let (verified, m) := n.verifyAppendEntriesReply clock reply
    if verified ∧ reply.term ≤ n.currentTerm ∧ reply.success then
      some ((m.recordSuccess peerId sent).advanceAndSync)
    else none
  | .submitCommand _ command =>
    if n.state = .leader ∧ n.peers = [] then
      some (advanceCommitIndex { n with
        log := n.log.append (n.newEntry command)
        storage := persistAppended n.storage [n.newEntry command] })
    else none
  | _ => none

/-- What a call does to the state machine of a node that keeps running. -/
def machineActions (n : RaftNode σ) : NodeEvent σ → List MachineAction
  | .handleInstallSnapshot clock args => n.restoredBy clock args
  | .attachStorage _ store => bootActions (some store)
  | event => (n.applyPoint event).elim [] appliedBy

/-- The calls of a node that keeps running: a snapshot is one that a node prepared, and a
store is attached to a new node and holds no snapshot yet. -/
def Live (n : RaftNode σ) : NodeEvent σ → Prop
  | .handleInstallSnapshot _ args => Genuine args
  | .attachStorage _ store => n.IsNew ∧ (StorageModel.contents store).snapshot = none
  | .restart _ _ => False
  | _ => True

namespace Aligned
variable {n : RaftNode σ} {p : Nat}

theorem handleRequestVote (h : n.Aligned p) (clock : Clock) (args : RequestVoteArgs) :
    (n.handleRequestVote clock args).2.Aligned p := by
  obtain ⟨cache, m, rfl, ⟨-, hr⟩ | ⟨-, hr⟩⟩ := n.handleRequestVote_cases clock args
  · rw [hr]
    exact h.of_same rfl
  rw [hr]
  have hm : Aligned { n with replayCache := cache } p := h.of_same rfl
  exact (hm.adoptTerm args.term).castVote args

theorem submitCommand (h : n.Aligned p) (clock : Clock) (command : RaftCommand) :
    ∃ q, (n.submitCommand clock command).2.Aligned q ∧ positionAfter p
      (n.machineActions (.submitCommand clock command)) = some q := by
  unfold machineActions applyPoint afterBatch
  dsimp only
  rcases n.submitCommand_cases clock command with
    ⟨hns, hr⟩ | ⟨hs, m, hm, -, ⟨hp, hr⟩ | ⟨hp, hr⟩⟩
  · exact ⟨p, by rw [hr]; exact h, by simp [hns]⟩
  all_goals
    have hmal : m.Aligned p := by
      rw [hm]
      exact h.of_frame rfl rfl (Nat.le_refl _) rfl (h.store.append _)
  · obtain ⟨q, hq, hpos⟩ := hmal.advanceCommitIndex.applyCommitted clock
    refine ⟨q, by rw [hr]; exact hq, ?_⟩
    rw [if_pos ⟨hs, hp⟩, ← hm]
    exact hpos
  · exact ⟨p, by rw [hr]; exact hmal, by simp [hp]⟩

variable [LawfulSnapshotCodec]

theorem handleAppendEntries (h : n.Aligned p) (clock : Clock) (args : AppendEntriesArgs) :
    ∃ q, (n.handleAppendEntries clock args).2.Aligned q ∧ positionAfter p
      (n.machineActions (.handleAppendEntries clock args)) = some q := by
  unfold machineActions applyPoint afterBatch
  dsimp only
  obtain ⟨cache, m, hm, hver, ⟨-, hr⟩ | ⟨-, -, hr⟩⟩ := n.handleAppendEntries_cases clock args
  · rw [hr]
    refine ⟨p, ?_, rfl⟩
    rw [hm]
    exact h.of_same rfl
  have hmal : m.Aligned p := by
    rw [hm]
    exact h.of_same rfl
  obtain ⟨k, hk, hcases⟩ := m.acceptEntries_cases clock args
  have hkal : k.Aligned p := by
    rw [hk]
    have hconcede := hmal.concede args.term
    exact hconcede.of_same rfl
  rw [hr, ← hver, ← hk]
  rcases hcases with ⟨-, ha⟩ | ⟨-, ⟨-, ha⟩ | ⟨-, ha⟩⟩
  · rw [ha]
    exact ⟨p, hkal.checkPrevLog _ _, rfl⟩
  · rw [ha]
    exact ⟨p, hkal.appendBatch _, rfl⟩
  · rw [ha]
    obtain ⟨q, hq, hpos⟩ :=
      ((hkal.appendBatch args.entries).followCommit args).applyCommitted clock
    exact ⟨q, hq.maybeSnapshot, hpos⟩

theorem handleAppendEntriesReply (h : n.Aligned p) (clock : Clock) (draw : Nat)
    (peerId : String) (reply : AppendEntriesReply) (sent : Nat) :
    ∃ q, (n.handleAppendEntriesReply clock draw peerId reply sent).Aligned q ∧ positionAfter p
      (n.machineActions (.handleAppendEntriesReply clock draw peerId reply sent)) = some q := by
  unfold machineActions applyPoint afterBatch
  dsimp only
  obtain ⟨accepts, m, hm, hver, hcases⟩ :=
    n.handleAppendEntriesReply_cases clock draw peerId reply sent
  have hmal : m.Aligned p := by
    rw [hm]
    exact h.of_same rfl
  rw [← hver]
  rcases hcases with ⟨hv, hr⟩ | ⟨hv, hlt, hr⟩ | ⟨hv, hle, hs, hr⟩ | ⟨hv, -, hs, hr⟩
  · refine ⟨p, ?_, by simp [hv]⟩
    rw [hr]
    exact hmal.of_same rfl
  · refine ⟨p, ?_, by simp [Nat.not_le.mpr hlt]⟩
    rw [hr]
    exact hmal.becomeFollower reply.term
  · have hrec : (m.recordSuccess peerId sent).Aligned p := by
      obtain ⟨next, matched, hnode⟩ := m.recordSuccess_node peerId sent
      rw [hnode]
      exact hmal.of_same rfl
    obtain ⟨q, hq, hpos⟩ := hrec.advanceAndSync.applyCommitted clock
    refine ⟨q, ?_, ?_⟩
    · rw [hr]
      exact hq.maybeSnapshot
    · rw [if_pos ⟨hv, hle, hs⟩]
      exact hpos
  · refine ⟨p, ?_, by simp [hs]⟩
    obtain ⟨next, hnode⟩ := m.backOff_node draw peerId
    rw [hr, hnode]
    exact hmal.of_same rfl

/-- **Every call of a running node moves log and machine together.** -/
theorem step (h : n.Aligned p) {event : NodeEvent σ} (hlive : n.Live event) :
    ∃ q, (n.step event).Aligned q ∧ positionAfter p (n.machineActions event) = some q := by
  cases event with
  | tryBecomeCandidate draw =>
    refine ⟨p, ?_, rfl⟩
    change ((n.tryBecomeCandidate draw).getD n).Aligned p
    unfold tryBecomeCandidate
    cases Term.checkedNext n.currentTerm with
    | none => exact h
    | some term =>
      exact Aligned.persistHardState (h.of_same rfl)
  | becomeLeader => exact ⟨p, h.of_same rfl, rfl⟩
  | handleRequestVote clock args => exact ⟨p, h.handleRequestVote clock args, rfl⟩
  | handleAppendEntries clock args => exact h.handleAppendEntries clock args
  | handleAppendEntriesReply clock draw peerId reply sent =>
    exact h.handleAppendEntriesReply clock draw peerId reply sent
  | handleInstallSnapshot clock args => exact h.installSnapshot clock hlive
  | submitCommand clock command => exact h.submitCommand clock command
  | applyCommitted clock => exact h.applyCommitted clock
  | maybeSnapshot => exact ⟨p, h.maybeSnapshot, rfl⟩
  | attachStorage clock store =>
    obtain ⟨hnew, hnone⟩ := hlive
    have hzero : p = 0 := by
      rw [← h.applied, hnew.log]
    have hstore : SnapshotAligned (some store) := by
      intro s snap hs hsnap
      cases hs
      rw [hnone] at hsnap
      cases hsnap
    subst hzero
    exact boot hnew h.machine clock hstore
  | restart clock fresh => exact hlive.elim

end Aligned

end Aligned

end RaftNode

/-! ## A cluster -/

/-- Nodes that send each other snapshots, with the history of each state machine since its
node booted. -/
structure SnapshotCluster (σ : Type) where
  node : String → RaftNode σ
  snapshots : List InstallSnapshotArgs := []
  history : String → List MachineAction := fun _ => []

/-- A call on a node of the cluster. -/
inductive SnapshotEvent (σ : Type) where
  | call (v : String) (event : NodeEvent σ)
  | prepareInstallSnapshot (v : String) (clock : Clock)

namespace SnapshotCluster

section Runs
variable {σ : Type} [StorageModel σ] [SnapshotCodec] {c : SnapshotCluster σ}

/-- A cluster of new nodes with new state machines. -/
structure Start (c : SnapshotCluster σ) : Prop where
  fresh : ∀ v, (c.node v).Fresh
  snapshots : c.snapshots = []
  history : ∀ v, c.history v = []

/-- Every node is at the position its history ends at, and every snapshot on its way is
genuine. -/
structure InStep (c : SnapshotCluster σ) : Prop where
  nodes : ∀ v, ∃ p, (c.node v).Aligned p ∧ positionAfter 0 (c.history v) = some p
  snapshots : ∀ args ∈ c.snapshots, RaftNode.Genuine args

theorem Start.inStep (h : c.Start) : c.InStep := by
  refine ⟨fun v => ⟨0, (h.fresh v).aligned, ?_⟩, ?_⟩
  · rw [h.history v]
    rfl
  · rw [h.snapshots]
    nofun

variable [HmacSha256]

/-- The history of a node after a call; a restart begins a new one. -/
def historyAfter (c : SnapshotCluster σ) (v : String) : NodeEvent σ → List MachineAction
  | .restart _ _ => RaftNode.bootActions (c.node v).storage
  | event => c.history v ++ (c.node v).machineActions event

/-- The cluster after a call.  A prepared snapshot stays on its way, to be delivered to any
node, late, repeatedly or never. -/
def step (c : SnapshotCluster σ) : SnapshotEvent σ → SnapshotCluster σ
  | .call v event => { c with
      node := Function.update c.node v ((c.node v).step event)
      history := Function.update c.history v (c.historyAfter v event) }
  | .prepareInstallSnapshot v clock => { c with
      snapshots := c.snapshots ++ ((c.node v).prepareInstallSnapshot clock).toList }

/-- The runs in question: snapshots come from `prepare_install_snapshot`, a node that
starts or restarts has a new state machine before it attaches its store, and the first
store of a node holds no snapshot. -/
def Allowed (c : SnapshotCluster σ) : SnapshotEvent σ → Prop
  | .call _ (.handleInstallSnapshot _ args) => args ∈ c.snapshots
  | .call v (.attachStorage _ store) =>
    (c.node v).IsNew ∧ (StorageModel.contents store).snapshot = none
  | .call _ (.restart _ fresh) => fresh.Fresh
  | _ => True

/-- A call moves the node it is made on. -/
theorem InStep.call (h : c.InStep) {v : String} {event : NodeEvent σ}
    (hv : ∃ q, ((c.node v).step event).Aligned q ∧
      positionAfter 0 (c.historyAfter v event) = some q) :
    (step c (.call v event)).InStep := by
  refine ⟨fun u => ?_, h.snapshots⟩
  by_cases hu : u = v
  · subst hu
    simpa only [step, update_self] using hv
  · simpa only [step, update_of_ne hu] using h.nodes u

variable [LawfulSnapshotCodec]

theorem InStep.step (h : c.InStep) {e : SnapshotEvent σ}
    (he : c.Allowed e) : (SnapshotCluster.step c e).InStep := by
  cases e with
  | prepareInstallSnapshot v clock =>
    refine ⟨h.nodes, fun args hargs => ?_⟩
    rcases mem_append.mp hargs with hold | hnew
    · exact h.snapshots args hold
    · obtain ⟨p, hp, -⟩ := h.nodes v
      exact hp.prepareInstallSnapshot (mem_toList.mp hnew)
  | call v event =>
    apply h.call
    obtain ⟨p, hp, hpos⟩ := h.nodes v
    -- a call that is not a restart continues the history
    have hrun : (c.node v).Live event → ∃ q, ((c.node v).step event).Aligned q ∧
        positionAfter 0 (c.history v ++ (c.node v).machineActions event) = some q := by
      intro hlive
      obtain ⟨q, hq, hmove⟩ := hp.step hlive
      exact ⟨q, hq, (positionAfter_append hpos).trans hmove⟩
    cases event with
    | restart clock fresh =>
      have hfresh : fresh.Fresh := he
      change ∃ q, ((c.node v).step (.restart clock fresh)).Aligned q ∧
        positionAfter 0 (RaftNode.bootActions (c.node v).storage) = some q
      unfold RaftNode.step
      cases hst : (c.node v).storage with
      | none => exact ⟨0, hfresh.aligned, rfl⟩
      | some store => exact RaftNode.Aligned.boot hfresh.1 hfresh.machine clock (hst ▸ hp.store)
    | handleInstallSnapshot clock args => exact hrun (h.snapshots args he)
    | attachStorage clock store => exact hrun he
    | _ => exact hrun trivial

/-- **The log and the state machine agree on what is applied.**  In every state of a run the
two positions of every node agree, and what was done to its machine since it booted is in
order: each index is applied at most once, each is one more than the position before it, and
a restored snapshot moves the position forward. -/
theorem appliedInStep_run {c : SnapshotCluster σ} (hc : c.Start)
    {events : List (SnapshotEvent σ)} (h : Along step Allowed c events) (v : String) :
    ∃ sm, ((run step c events).node v).stateMachine = some sm ∧
      ((run step c events).node v).log.applied = sm.lastApplied ∧
      positionAfter 0 ((run step c events).history v) = some sm.lastApplied ∧
      (((run step c events).history v).filterMap appliedIndex).Pairwise (· < ·) := by
  have hin : (run step c events).InStep := induction_run (fun r e hr he => hr.step he) hc.inStep h
  obtain ⟨p, hp, hpos⟩ := hin.nodes v
  obtain ⟨sm, hsm, rfl⟩ := map_eq_some_iff.mp hp.machine
  exact ⟨sm, hsm, hp.applied, hpos, (appliedIndex_increasing hpos).1⟩

end Runs

section Sample

/-- The state machine of `n1` after its first entry. -/
def firstSnapshot : StateMachineSnapshot := { lastApplied := 1, voters := ["n1"] }

/-- `serde_json` on this one snapshot; any other is refused. -/
@[reducible]
def firstSnapshotCodec : SnapshotCodec where
  toVec s :=
    if s.lastApplied = 1 ∧ s.voters = ["n1"] ∧ s.keys.isEmpty then some (jsonSnapshot s) else none
  fromSlice bytes := if bytes = jsonSnapshot firstSnapshot then some firstSnapshot else none

attribute [local instance] firstSnapshotCodec hmacSha256

theorem firstSnapshotCodec_lawful : LawfulSnapshotCodec where
  fromSlice_toVec s data h := by
    simp only [SnapshotCodec.toVec, ite_none_right_eq_some, some.injEq] at h
    obtain ⟨⟨hlast, hvoters, hkeys⟩, rfl⟩ := h
    have hs : s = firstSnapshot := by
      obtain ⟨last, voters, keys⟩ := s
      obtain rfl : last = 1 := hlast
      obtain rfl : voters = ["n1"] := hvoters
      obtain rfl : keys = ∅ := Std.ExtTreeMap.isEmpty_iff.mp hkeys
      rfl
    rw [hs]
    exact if_pos rfl

/-- `n1` on its own, and nodes that know it. -/
def firstCluster : SnapshotCluster InMemoryStorage where
  node v := { (RaftNode.new v (if v = "n1" then [] else ["n1"]) 1000 0 :
      RaftNode InMemoryStorage) with
    clusterSecret := some sampleSecret
    stateMachine := some (ClusterStateMachine.new ["n1"]) }

/-- `n1` leads, applies an entry, and prepares a snapshot. -/
def snapshotPrepared : List (SnapshotEvent InMemoryStorage) :=
  [.call "n1" (.tryBecomeCandidate 0), .call "n1" .becomeLeader,
    .call "n1" (.submitCommand (sampleClock 1000) .noop),
    .prepareInstallSnapshot "n1" (sampleClock 1000)]

/-- The snapshot of `n1`, signed. -/
def sentSnapshot : InstallSnapshotArgs :=
  let data := jsonSnapshot firstSnapshot
  let args : InstallSnapshotArgs := {
    term := 1, leaderId := "n1", lastIncludedIndex := 1, lastIncludedTerm := 1
    data := data, timestampMs := 1000, hmac := none, offset := 0
    totalSize := data.length, lastChunk := true }
  { args with hmac := some (args.computeHmac sampleSecret) }

def snapshotDelivered : List (SnapshotEvent InMemoryStorage) :=
  snapshotPrepared ++ [.call "n2" (.handleInstallSnapshot (sampleClock 1000) sentSnapshot)]

theorem firstCluster_start : firstCluster.Start :=
  ⟨fun _ => ⟨⟨rfl, rfl, rfl, rfl, rfl, rfl, rfl, rfl, rfl⟩, ["n1"], rfl⟩, rfl, fun _ => rfl⟩

/-- A node that has taken the snapshot of another is where that one was. -/
theorem appliedInStep_delivered :
    ((run step firstCluster snapshotDelivered).node "n2").log.applied = 1 ∧
      ∃ sm, ((run step firstCluster snapshotDelivered).node "n2").stateMachine = some sm ∧
        ((run step firstCluster snapshotDelivered).node "n2").log.applied = sm.lastApplied ∧
        positionAfter 0 ((run step firstCluster snapshotDelivered).history "n2") =
          some sm.lastApplied ∧
        (((run step firstCluster snapshotDelivered).history "n2").filterMap
          appliedIndex).Pairwise (· < ·) := by
  have := firstSnapshotCodec_lawful
  have hsent : (run step firstCluster snapshotPrepared).snapshots = [sentSnapshot] := by
    unfold sentSnapshot
    rw [hmacSha256_eq]
    decide +kernel
  have happlied : ((run step firstCluster snapshotDelivered).node "n2").log.applied = 1 := by
    unfold snapshotDelivered sentSnapshot
    rw [hmacSha256_eq]
    decide +kernel
  refine ⟨happlied, appliedInStep_run firstCluster_start ?_ "n2"⟩
  refine along_snoc.mpr ⟨⟨trivial, trivial, trivial, trivial, trivial⟩, ?_⟩
  change sentSnapshot ∈ (run step firstCluster snapshotPrepared).snapshots
  rw [hsent]
  exact mem_singleton.mpr rfl

/-- A store with a vote and a log, and no snapshot, may be read in either order. -/
theorem attachOrderFree_iff_log_only :
    (new "n1" [] 1000 0 : RaftNode InMemoryStorage).AttachOrderFree (sampleClock 0)
      { hard := ⟨1, some "n1"⟩, log := [⟨1, 1, .noop⟩] } (ClusterStateMachine.new ["n1"]) :=
  (attachOrderFree_iff (new_isNew _ _ _ _) _ _ _).mpr fun _ h => by
    simp [LoadsSnapshot, RaftStorage.loadSnapshot] at h

/-- The store holds a snapshot of position 1: a machine attached after it stays empty. -/
theorem late_machine_not_restored :
    ¬ (new "n1" [] 1000 0 : RaftNode InMemoryStorage).AttachOrderFree (sampleClock 0)
      { snapshot := some { lastIndex := 1, lastTerm := 1, data := jsonSnapshot firstSnapshot,
                           voters := ["n1"] } }
      (ClusterStateMachine.new ["n1"]) := by
  rintro ⟨-, -, -, h⟩
  have := h _ (.tail _ (.head _))
  revert this
  decide +kernel

end Sample

end SnapshotCluster

end CratonHsm
