import CratonHsm.RaftMessages

/-!
# Persistent storage

The `RaftStorage` trait of `storage.rs` as a class over the type of stores, with the
in-memory implementation.  Operations that write return the store afterwards along
with their result, so a failing write may still be observed.

`StorageModel` says what it means for a store to behave: it has contents, a failed
write leaves them alone, and a successful write changes them as the in-memory store
would.  `ReliableStorage` adds that every operation succeeds.
-/

namespace CratonHsm
open PrefixFreeCode

/-- Persisted hard state. -/
structure HardState where
  currentTerm : Nat := 0
  votedFor : Option String := none
  deriving DecidableEq

/-- Why the storage fails. -/
inductive StorageError where
  | io (message : String)
  | codec (message : String)
  | snapshotIntegrityFailure (message : String)
  deriving DecidableEq

/-- On-disk snapshot record. -/
structure PersistedSnapshot where
  lastIndex : Nat
  lastTerm : Nat
  voters : List String
  data : Bytes
  deriving DecidableEq

/-- `trait RaftStorage`. -/
class RaftStorage (σ : Type) where
  loadHardState : σ → Except StorageError HardState
  saveHardState : σ → HardState → Except StorageError Unit × σ
  loadLog : σ → Except StorageError (List LogEntry)
  appendLog : σ → List LogEntry → Except StorageError Unit × σ
  truncateLogAfter : σ → Nat → Except StorageError Unit × σ
  saveSnapshot : σ → PersistedSnapshot → Except StorageError Unit × σ
  loadSnapshot : σ → Except StorageError (Option PersistedSnapshot)
  syncAllCommittedState : σ → Except StorageError Unit × σ

/-- Non-persistent storage. -/
structure InMemoryStorage where
  hard : HardState := {}
  log : List LogEntry := []
  snapshot : Option PersistedSnapshot := none
  deriving DecidableEq

instance : RaftStorage InMemoryStorage where
  loadHardState s := .ok s.hard
  saveHardState s state := (.ok (), { s with hard := state })
  loadLog s := .ok s.log
  appendLog s entries := (.ok (), { s with log := s.log ++ entries })
  truncateLogAfter s after := (.ok (), { s with log := s.log.filter (fun e => e.index ≤ after) })
  saveSnapshot s snapshot := (.ok (), { s with snapshot := some snapshot })
  loadSnapshot s := .ok s.snapshot
  syncAllCommittedState s := (.ok (), s)

/-- A write that either fails and leaves the contents alone, or succeeds with the given
effect on them. -/
def WriteMeets {σ : Type} (contents : σ → InMemoryStorage) (s : σ)
    (r : Except StorageError Unit × σ) (effect : InMemoryStorage → InMemoryStorage) : Prop :=
  (∃ e, r.1 = .error e ∧ contents r.2 = contents s) ∨
    (r.1 = .ok () ∧ contents r.2 = effect (contents s))

/-- A store whose contents are those of an in-memory store, up to failed
operations. -/
class StorageModel (σ : Type) extends RaftStorage σ where
  contents : σ → InMemoryStorage
  loadHardState_meets : ∀ s hs, loadHardState s = .ok hs → hs = (contents s).hard
  loadLog_meets : ∀ s log, loadLog s = .ok log → log = (contents s).log
  loadSnapshot_meets : ∀ s snap, loadSnapshot s = .ok snap → snap = (contents s).snapshot
  saveHardState_meets : ∀ s hs,
    WriteMeets contents s (saveHardState s hs) (fun c => { c with hard := hs })
  appendLog_meets : ∀ s es,
    WriteMeets contents s (appendLog s es) (fun c => { c with log := c.log ++ es })
  truncateLogAfter_meets : ∀ s after,
    WriteMeets contents s (truncateLogAfter s after)
      (fun c => { c with log := c.log.filter (fun e => e.index ≤ after) })
  saveSnapshot_meets : ∀ s snap,
    WriteMeets contents s (saveSnapshot s snap) (fun c => { c with snapshot := some snap })
  syncAllCommittedState_meets : ∀ s, WriteMeets contents s (syncAllCommittedState s) id

/-- A store whose operations succeed. -/
class ReliableStorage (σ : Type) extends StorageModel σ where
  loadHardState_ok : ∀ s, loadHardState s = .ok (contents s).hard
  loadLog_ok : ∀ s, loadLog s = .ok (contents s).log
  loadSnapshot_ok : ∀ s, loadSnapshot s = .ok (contents s).snapshot
  saveHardState_ok : ∀ s hs, (saveHardState s hs).1 = .ok ()
  appendLog_ok : ∀ s es, (appendLog s es).1 = .ok ()
  truncateLogAfter_ok : ∀ s after, (truncateLogAfter s after).1 = .ok ()
  saveSnapshot_ok : ∀ s snap, (saveSnapshot s snap).1 = .ok ()
  syncAllCommittedState_ok : ∀ s, (syncAllCommittedState s).1 = .ok ()

instance : ReliableStorage InMemoryStorage where
  contents s := s
  loadHardState_meets _ _ h := (Except.ok.inj h).symm
  loadLog_meets _ _ h := (Except.ok.inj h).symm
  loadSnapshot_meets _ _ h := (Except.ok.inj h).symm
  saveHardState_meets _ _ := .inr ⟨rfl, rfl⟩
  appendLog_meets _ _ := .inr ⟨rfl, rfl⟩
  truncateLogAfter_meets _ _ := .inr ⟨rfl, rfl⟩
  saveSnapshot_meets _ _ := .inr ⟨rfl, rfl⟩
  syncAllCommittedState_meets _ := .inr ⟨rfl, rfl⟩
  loadHardState_ok _ := rfl
  loadLog_ok _ := rfl
  loadSnapshot_ok _ := rfl
  saveHardState_ok _ _ := rfl
  appendLog_ok _ _ := rfl
  truncateLogAfter_ok _ _ := rfl
  saveSnapshot_ok _ _ := rfl
  syncAllCommittedState_ok _ := rfl

end CratonHsm
