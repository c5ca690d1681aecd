import CratonHsm.RaftInstall
import CratonHsm.RaftReplication

/-!
# What the store holds

The effect of the node's persistence helpers on the contents of its store, for any
store that meets `StorageModel`, and what `attach_storage` recovers from them.
-/

namespace CratonHsm
open StorageModel
namespace RaftNode
variable {σ : Type} {effect : InMemoryStorage → InMemoryStorage}
  {write : σ → Except StorageError Unit × σ}

section Model
variable [StorageModel σ]

/-- The contents of the attached store. -/
def stored (storage : Option σ) : Option InMemoryStorage := storage.map StorageModel.contents

@[simp] theorem stored_none : stored (none : Option σ) = none := rfl

@[simp] theorem stored_some (s : σ) : stored (some s) = some (contents s) := rfl

/-- A write behind an optional store: its contents move as told, or not at all. -/
theorem stored_write (hw : ∀ s, WriteMeets contents s (write s) effect) (storage : Option σ) :
    stored (storage.map fun s => (write s).2) = stored storage ∨
      stored (storage.map fun s => (write s).2) = (stored storage).map effect := by
  cases storage with
  | none => exact .inl rfl
  | some s =>
    rcases hw s with ⟨e, -, hc⟩ | ⟨-, hc⟩
    · exact .inl (congrArg some hc)
    · exact .inr (congrArg some hc)

/-- `save_snapshot` behind an optional store. -/
theorem stored_persistSnapshot {storage storage' : Option σ} {snap : PersistedSnapshot}
    {saved : Bool} (h : persistSnapshot storage snap = (saved, storage')) :
    stored storage' = if saved then (stored storage).map (fun c => { c with snapshot := some snap })
      else stored storage := by
  unfold persistSnapshot at h
  rcases storage with _ | s
  · cases h; rfl
  have hw := saveSnapshot_meets s snap
  dsimp only at h
  split at h
  · rename_i s' hs
    cases h
    rw [hs] at hw
    rcases hw with ⟨e, he, -⟩ | ⟨-, hc⟩
    · cases he
    · exact congrArg some hc
  · rename_i e s' hs
    cases h
    rw [hs] at hw
    rcases hw with ⟨e, -, hc⟩ | ⟨hok, -⟩
    · exact congrArg some hc
    · cases hok

/-- A step-down persists the new hard state, unless the write fails. -/
theorem stored_becomeFollower (n : RaftNode σ) (term : Nat) :
    stored (n.becomeFollower term).storage = stored n.storage ∨
      stored (n.becomeFollower term).storage = (stored n.storage).map fun c =>
        { c with hard := ⟨term, if n.currentTerm < term then none else n.votedFor⟩ } :=
  stored_write (fun s => saveHardState_meets s _) n.storage

end Model

section Reliable
variable [ReliableStorage σ]

theorem stored_write_ok (hw : ∀ s, WriteMeets contents s (write s) effect)
    (hok : ∀ s, (write s).1 = .ok ()) (storage : Option σ) :
    stored (storage.map fun s => (write s).2) = (stored storage).map effect := by
  rcases storage with _ | s
  · rfl
  rcases hw s with ⟨e, he, -⟩ | ⟨-, hc⟩
  · rw [hok s] at he
    cases he
  · exact congrArg some hc

theorem stored_persistHardState (n : RaftNode σ) :
    stored n.persistHardState.storage = (stored n.storage).map fun c =>
      { c with hard := ⟨n.currentTerm, n.votedFor⟩ } :=
  stored_write_ok (fun s => saveHardState_meets s _)
    (fun s => ReliableStorage.saveHardState_ok s _) n.storage

theorem stored_persistAppended (storage : Option σ) (entries : List LogEntry) :
    stored (persistAppended storage entries) = (stored storage).map fun c =>
      { c with log := c.log ++ entries } :=
  stored_write_ok (fun s => appendLog_meets s _)
    (fun s => ReliableStorage.appendLog_ok s _) storage

theorem stored_persistTruncate (storage : Option σ) (after : Nat) :
    stored (persistTruncate storage after) = (stored storage).map fun c =>
      { c with log := c.log.filter (fun e => e.index ≤ after) } :=
  stored_write_ok (fun s => truncateLogAfter_meets s _)
    (fun s => ReliableStorage.truncateLogAfter_ok s _) storage

theorem stored_syncCommitted (n : RaftNode σ) :
    stored n.syncCommittedStateBestEffort.storage = stored n.storage := by
  have h := stored_write_ok (fun s : σ => syncAllCommittedState_meets s)
    (fun s => ReliableStorage.syncAllCommittedState_ok s) n.storage
  rw [Option.map_id] at h
  exact h

theorem persistSnapshot_saved (storage : Option σ) (snap : PersistedSnapshot) :
    (persistSnapshot storage snap).1 = true := by
  unfold persistSnapshot
  rcases storage with _ | s
  · rfl
  dsimp only
  split
  · rfl
  rename_i e s' hs
  have := ReliableStorage.saveSnapshot_ok s snap
  rw [hs] at this
  cases this

end Reliable

/-! ## Recovery -/

section Recovery
variable [SnapshotCodec]

theorem restoreSnapshot_hard (n : RaftNode σ) (clock : Clock) (snap : PersistedSnapshot)
    (term : Nat) (vote : Option String) :
    restoreSnapshot { n with currentTerm := term, votedFor := vote } clock snap =
      { n.restoreSnapshot clock snap with currentTerm := term, votedFor := vote } := by
  unfold restoreSnapshot
  dsimp only
  split <;> rfl

variable [StorageModel σ]

/-- What `attach_storage` makes of a store with these contents, up to the hard state and
the handle on the store. -/
def recover (n : RaftNode σ) (clock : Clock) (c : InMemoryStorage) : RaftNode σ :=
  let n := { n with log := { n.log with entries := n.log.entries ++ c.log } }
  match c.snapshot with
  | some snap => n.restoreSnapshot clock snap
  | none => n

omit [StorageModel σ] [SnapshotCodec] in
theorem foldl_append (entries : List LogEntry) (l : RaftLog) :
    entries.foldl RaftLog.append l = { l with entries := l.entries ++ entries } := by
  induction entries generalizing l with
  | nil => simp
  | cons e entries ih =>
    rw [List.foldl_cons, ih]
    simp

/-- **What `attach_storage` recovers**: the hard state of the store, and the rest from
its log and snapshot. -/
theorem attachStorage_ok {n m : RaftNode σ} {clock : Clock} {store : σ}
    (h : n.attachStorage clock store = (.ok (), m)) :
    m = { n.recover clock (contents store) with
      currentTerm := (contents store).hard.currentTerm
      votedFor := (contents store).hard.votedFor
      storage := some store } := by
  unfold attachStorage at h
  split at h
  · cases h
  rename_i hs hhard
  split at h
  · cases h
  rename_i entries hlog
  split at h
  · cases h
  rename_i snap hsnap
  cases h
  have hh := loadHardState_meets store hs hhard
  have hl := loadLog_meets store entries hlog
  have hp := loadSnapshot_meets store snap hsnap
  subst hh hl hp
  unfold recover
  rw [foldl_append]
  rcases (contents store).snapshot with _ | snap
  · rfl
  exact congrArg (fun r : RaftNode σ => { r with storage := some store })
    (restoreSnapshot_hard
      { n with log := { n.log with
          entries := n.log.entries ++ (contents store).log } } clock snap _ _)

end Recovery

end RaftNode

end CratonHsm
