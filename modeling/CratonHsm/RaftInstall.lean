import CratonHsm.RaftApply
import CratonHsm.RaftElection

/-!
# Snapshot installation and recovery

`handle_install_snapshot` has a dozen return points.  `installSnapshot` names each of
them with an `InstallOutcome`, so that what holds after a rejection can be stated; the
reply of the source only carries a term and is read off the outcome.
-/

namespace CratonHsm
open Std PrefixFreeCode

/-- The return points of `handle_install_snapshot`. -/
inductive InstallOutcome where
  /-- Verification failed. -/
  | forged
  | staleTerm
  /-- The sender is not the leader of the current term. -/
  | wrongLeader
  /-- The snapshot disagrees with the term of a committed entry. -/
  | termConflict
  /-- The snapshot is older than the committed log and consistent with it. -/
  | alreadyCommitted
  /-- The snapshot is older than the committed log and cannot be checked. -/
  | unverifiable
  | descriptorMismatch
  | tooLarge
  /-- The chunk is stored and more are to come. -/
  | chunkBuffered
  | persistFailed
  /-- The assembled bytes do not deserialize. -/
  | malformed
  | installed
  deriving DecidableEq

/-- The call got as far as writing the snapshot to the store. -/
def InstallOutcome.reachesStore : InstallOutcome → Bool
  | .persistFailed | .malformed | .installed => true
  | _ => false

namespace RaftNode
variable {σ : Type}

/-- Bump the forged-snapshot counter. -/
def rejectSnapshot (n : RaftNode σ) : RaftNode σ :=
  { n with forgedSnapshotRejects := n.forgedSnapshotRejects + 1 }

/-- The guard on snapshots below the committed index. -/
def committedGuard (n : RaftNode σ) (args : InstallSnapshotArgs) : Option InstallOutcome :=
  if args.lastIncludedIndex < n.log.committed then
    if args.lastIncludedIndex = n.lastSnapshotIndex then
      if args.lastIncludedTerm ≠ n.lastSnapshotTerm then some .termConflict
      else some .unverifiable
    else
      match n.log.get args.lastIncludedIndex with
      | some localEntry =>
        if localEntry.term ≠ args.lastIncludedTerm then some .termConflict
        else some .alreadyCommitted
      | none => some .unverifiable
  else none

/-- The assembled bytes, or the outcome that ends the call here. -/
inductive Assembly where
  | complete (data : Bytes)
  | stopped (outcome : InstallOutcome)

/-- Chunked reassembly: a single chunk bypasses the buffer of its leader. -/
def reassemble (n : RaftNode σ) (args : InstallSnapshotArgs) : Assembly × RaftNode σ :=
  if args.offset = 0 ∧ args.lastChunk then (.complete args.data, n)
  else
    let key := args.leaderId
    let buf := n.snapshotChunkBuffers[key]?.getD {
      data := [], totalSize := args.totalSize
      lastIncludedIndex := args.lastIncludedIndex, lastIncludedTerm := args.lastIncludedTerm }
    let dropped := { n with snapshotChunkBuffers := n.snapshotChunkBuffers.erase key }
    if buf.lastIncludedIndex ≠ args.lastIncludedIndex ∨
        buf.lastIncludedTerm ≠ args.lastIncludedTerm ∨
        (args.totalSize ≠ 0 ∧ buf.totalSize ≠ 0 ∧ buf.totalSize ≠ args.totalSize) then
      (.stopped .descriptorMismatch, dropped.rejectSnapshot)
    else if maxInstallSnapshotBytes < buf.data.length + args.data.length then
      (.stopped .tooLarge, dropped.rejectSnapshot)
    else
      let data := buf.data ++ args.data
      if args.lastChunk then (.complete data, dropped)
      else (.stopped .chunkBuffered, { n with
        snapshotChunkBuffers := n.snapshotChunkBuffers.insert key { buf with data := data } })

section Handler
variable [RaftStorage σ] [SnapshotCodec]

/-- Restore the state machine, compact the log and adopt the voters. -/
def adoptSnapshot (n : RaftNode σ) (clock : Clock) (args : InstallSnapshotArgs)
    (snap : StateMachineSnapshot) : RaftNode σ :=
  let n := { n with
    stateMachine := n.stateMachine.map fun _ => ClusterStateMachine.restoreFromSnapshot snap
    log := n.log.discardThrough args.lastIncludedIndex
    lastSnapshotIndex := args.lastIncludedIndex
    lastSnapshotTerm := args.lastIncludedTerm }
  let n := n.syncPeersFromVoters clock snap.voters
  { n with storage := persistTruncate n.storage args.lastIncludedIndex }

/-- The record written before the bytes are parsed. -/
def snapshotRecord (args : InstallSnapshotArgs) (data : Bytes) : PersistedSnapshot where
  lastIndex := args.lastIncludedIndex
  lastTerm := args.lastIncludedTerm
  voters := (SnapshotCodec.fromSlice data).elim [] StateMachineSnapshot.voters
  data := data

/-- Persist first, then parse, then adopt. -/
def persistAndAdopt (n : RaftNode σ) (clock : Clock) (args : InstallSnapshotArgs)
    (data : Bytes) : InstallOutcome × RaftNode σ :=
  let (saved, storage) := persistSnapshot n.storage (snapshotRecord args data)
  let n := { n with storage := storage }
  if saved then
    match SnapshotCodec.fromSlice data with
    | none => (.malformed, n.rejectSnapshot)
    | some snap => (.installed, n.adoptSnapshot clock args snap)
  else (.persistFailed, n)

/-- The part of `handle_install_snapshot` after the term is settled. -/
def receiveSnapshot (n : RaftNode σ) (clock : Clock) (args : InstallSnapshotArgs) :
    InstallOutcome × RaftNode σ :=
  if n.currentLeaderHint.any (fun known => known ≠ args.leaderId) then
    (.wrongLeader, n.rejectSnapshot)
  else
    match n.committedGuard args with
    | some outcome =>
      (outcome, if outcome = .alreadyCommitted then n else n.rejectSnapshot)
    | none =>
      match n.reassemble args with
      | (.stopped outcome, n) => (outcome, n)
      | (.complete data, n) => n.persistAndAdopt clock args data

variable [HmacSha256]

/-- `handle_install_snapshot`, with its return point. -/
def installSnapshot (n : RaftNode σ) (clock : Clock) (args : InstallSnapshotArgs) :
    InstallOutcome × RaftNode σ :=
  let (verified, n) := n.verifyInstallSnapshot clock args
  if verified = false then (.forged, n.rejectSnapshot)
  else if args.term < n.currentTerm then (.staleTerm, n.rejectSnapshot)
  else (n.adoptTerm args.term).receiveSnapshot clock args

/-- The bytes that pass every guard of `handle_install_snapshot` before the store is
written. -/
def snapshotPayload (n : RaftNode σ) (clock : Clock) (args : InstallSnapshotArgs) :
    Option Bytes :=
  let (verified, n) := n.verifyInstallSnapshot clock args
  if verified = false then none
  else if args.term < n.currentTerm then none
  else
    let n := n.adoptTerm args.term
    if n.currentLeaderHint.any (fun known => known ≠ args.leaderId) then none
    else if (n.committedGuard args).isSome then none
    else
      match (n.reassemble args).1 with
      | .complete data => some data
      | .stopped _ => none

/-- `handle_install_snapshot`: a forged request does not learn the term. -/
def handleInstallSnapshot (n : RaftNode σ) (clock : Clock) (args : InstallSnapshotArgs) :
    InstallSnapshotReply × RaftNode σ :=
  let (outcome, n) := n.installSnapshot clock args
  ({ term := if outcome = .forged then 0 else n.currentTerm }, n)

/-- `prepare_install_snapshot`. -/
def prepareInstallSnapshot (n : RaftNode σ) (clock : Clock) : Option InstallSnapshotArgs := do
  let sm ← n.stateMachine
  let snap := sm.snapshot
  let data ← SnapshotCodec.toVec snap
  let lastIncludedIndex := max n.lastSnapshotIndex snap.lastApplied
  let lastIncludedTerm :=
    if lastIncludedIndex = n.lastSnapshotIndex then n.lastSnapshotTerm
    else (n.log.get lastIncludedIndex).elim n.lastSnapshotTerm LogEntry.term
  let args : InstallSnapshotArgs := {
    term := n.currentTerm, leaderId := n.id, lastIncludedIndex := lastIncludedIndex
    lastIncludedTerm := lastIncludedTerm, data := data, timestampMs := clock.wallMs
    hmac := none, offset := 0, totalSize := data.length, lastChunk := true }
  some { args with hmac := n.clusterSecret.map args.computeHmac }

end Handler

/-! ## What a received snapshot can change -/

/-- Changed at most in the replay cache, the chunk buffers and the rejection counter. -/
def ReceiptOnly (n m : RaftNode σ) : Prop :=
  ∃ cache buffers rejects, m = { n with
    replayCache := cache, snapshotChunkBuffers := buffers, forgedSnapshotRejects := rejects }

variable {n m : RaftNode σ} {args : InstallSnapshotArgs}

theorem ReceiptOnly.trans {k : RaftNode σ} (h₁ : ReceiptOnly n m) (h₂ : ReceiptOnly m k) :
    ReceiptOnly n k := by
  obtain ⟨c₁, b₁, r₁, rfl⟩ := h₁
  obtain ⟨c₂, b₂, r₂, rfl⟩ := h₂
  exact ⟨c₂, b₂, r₂, rfl⟩

theorem rejectSnapshot_receiptOnly (n : RaftNode σ) : ReceiptOnly n n.rejectSnapshot :=
  ⟨_, _, _, rfl⟩

/-- The bytes buffered for a leader. -/
def buffered (n : RaftNode σ) (leaderId : String) : Bytes :=
  n.snapshotChunkBuffers[leaderId]?.elim [] SnapshotChunkBuffer.data

/-- **What a chunk does**: a single one is complete as it is; of several, one is refused and
the buffer dropped, or it is the last and completes the buffer, or it is appended. -/
theorem reassemble_cases (n : RaftNode σ) (args : InstallSnapshotArgs) :
    (args.offset = 0 ∧ args.lastChunk = true) ∧ n.reassemble args = (.complete args.data, n) ∨
    ¬ (args.offset = 0 ∧ args.lastChunk = true) ∧
      ((∃ o, o.reachesStore = false ∧ n.reassemble args = (.stopped o, rejectSnapshot { n with
          snapshotChunkBuffers := n.snapshotChunkBuffers.erase args.leaderId })) ∨
        n.reassemble args = (.complete (n.buffered args.leaderId ++ args.data), { n with
          snapshotChunkBuffers := n.snapshotChunkBuffers.erase args.leaderId }) ∨
        ∃ buf, buf.data = n.buffered args.leaderId ++ args.data ∧
          n.reassemble args = (.stopped .chunkBuffered, { n with
            snapshotChunkBuffers := n.snapshotChunkBuffers.insert args.leaderId buf })) := by
  have hdata : ∀ buf : SnapshotChunkBuffer, buf.data = [] →
      (n.snapshotChunkBuffers[args.leaderId]?.getD buf).data = n.buffered args.leaderId := by
    intro buf hbuf
    unfold buffered
    cases n.snapshotChunkBuffers[args.leaderId]? with
    | none => exact hbuf
    | some _ => rfl
  unfold reassemble
  split
  · rename_i hsingle
    exact .inl ⟨hsingle, rfl⟩
  rename_i hmany
  refine .inr ⟨hmany, ?_⟩
  dsimp only
  rw [hdata _ rfl]
  split
  · exact .inl ⟨_, rfl, rfl⟩
  split
  · exact .inl ⟨_, rfl, rfl⟩
  split
  · exact .inr (.inl rfl)
  · exact .inr (.inr ⟨_, rfl, rfl⟩)

theorem reassemble_receiptOnly (n : RaftNode σ) (args : InstallSnapshotArgs) :
    ReceiptOnly n (n.reassemble args).2 := by
  rcases n.reassemble_cases args with ⟨-, h⟩ | ⟨-, ⟨o, -, h⟩ | h | ⟨buf, -, h⟩⟩
  all_goals
    rw [h]
    exact ⟨_, _, _, rfl⟩

theorem ReceiptOnly.adoptTerm [RaftStorage σ] (h : ReceiptOnly n m) (term : Nat) :
    ReceiptOnly (n.adoptTerm term) (m.adoptTerm term) := by
  obtain ⟨c, b, r, rfl⟩ := h
  unfold RaftNode.adoptTerm
  split <;> exact ⟨c, b, r, rfl⟩

theorem committedGuard_eq_none_iff :
    n.committedGuard args = none ↔ n.log.committed ≤ args.lastIncludedIndex := by
  unfold committedGuard
  constructor
  · intro h
    split at h
    · split at h
      · split at h <;> cases h
      · split at h
        · split at h <;> cases h
        · cases h
    · omega
  · intro h
    rw [if_neg (Nat.not_lt.mpr h)]

theorem committedGuard_reachesStore {o : InstallOutcome} (h : n.committedGuard args = some o) :
    o.reachesStore = false := by
  unfold committedGuard at h
  split at h
  · split at h
    · split at h <;> cases h <;> rfl
    · split at h
      · split at h <;> cases h <;> rfl
      · cases h; rfl
  · cases h

theorem reassemble_reachesStore {o : InstallOutcome} (h : n.reassemble args = (.stopped o, m)) :
    o.reachesStore = false := by
  rcases n.reassemble_cases args with ⟨-, hr⟩ | ⟨-, ⟨o, ho, hr⟩ | hr | ⟨buf, -, hr⟩⟩
  all_goals
    rw [hr] at h
    cases h
  · exact ho
  · rfl

section Cases
variable [RaftStorage σ] [SnapshotCodec] [HmacSha256]

/-- **The two ways `handle_install_snapshot` goes.**  Either a guard ends the call, and
only receipts and the term have changed; or the guards let a payload through, and the
rest of the call is `persistAndAdopt`. -/
theorem installSnapshot_cases (n : RaftNode σ) (clock : Clock) (args : InstallSnapshotArgs) :
    (n.snapshotPayload clock args = none ∧
      (n.installSnapshot clock args).1.reachesStore = false ∧
      (ReceiptOnly n (n.installSnapshot clock args).2 ∨
        ReceiptOnly (n.adoptTerm args.term) (n.installSnapshot clock args).2)) ∨
    (∃ data m, n.snapshotPayload clock args = some data ∧ n.currentTerm ≤ args.term ∧
      n.log.committed ≤ args.lastIncludedIndex ∧ ReceiptOnly (n.adoptTerm args.term) m ∧
      n.installSnapshot clock args = m.persistAndAdopt clock args data) := by
  unfold installSnapshot snapshotPayload
  cases hv : n.verifyInstallSnapshot clock args with
  | mk verified n₁ =>
    have hr₁ : ReceiptOnly n n₁ := by
      obtain ⟨cache, hc⟩ := n.verifyInstallSnapshot_node clock args
      rw [hv] at hc
      exact ⟨cache, _, _, hc⟩
    have hterm : n₁.currentTerm = n.currentTerm := by obtain ⟨c, b, r, rfl⟩ := hr₁; rfl
    dsimp only
    by_cases hverified : verified = false
    · rw [if_pos hverified, if_pos hverified]
      exact .inl ⟨rfl, rfl, .inl (hr₁.trans n₁.rejectSnapshot_receiptOnly)⟩
    rw [if_neg hverified, if_neg hverified]
    by_cases hstale : args.term < n₁.currentTerm
    · rw [if_pos hstale, if_pos hstale]
      exact .inl ⟨rfl, rfl, .inl (hr₁.trans n₁.rejectSnapshot_receiptOnly)⟩
    rw [if_neg hstale, if_neg hstale]
    have hr₂ := hr₁.adoptTerm args.term
    have hcomm : (n₁.adoptTerm args.term).log.committed = n.log.committed := by
      obtain ⟨c, b, r, rfl⟩ := hr₁
      unfold RaftNode.adoptTerm becomeFollower persistHardState
      split <;> rfl
    generalize n₁.adoptTerm args.term = n₂ at hr₂ hcomm ⊢
    unfold receiveSnapshot
    by_cases hhint : n₂.currentLeaderHint.any (fun known => known ≠ args.leaderId) = true
    · rw [if_pos hhint, if_pos hhint]
      exact .inl ⟨rfl, rfl, .inr (hr₂.trans n₂.rejectSnapshot_receiptOnly)⟩
    rw [if_neg hhint, if_neg hhint]
    cases hg : n₂.committedGuard args with
    | some o =>
      refine .inl ⟨rfl, committedGuard_reachesStore hg, .inr ?_⟩
      dsimp only
      split
      · exact hr₂
      · exact hr₂.trans n₂.rejectSnapshot_receiptOnly
    | none =>
      have hr₃ := hr₂.trans (n₂.reassemble_receiptOnly args)
      have hle : n.log.committed ≤ args.lastIncludedIndex := by
        rw [← hcomm]
        exact committedGuard_eq_none_iff.mp hg
      cases ha : n₂.reassemble args with
      | mk assembly n₃ =>
        rw [ha] at hr₃
        cases assembly with
        | stopped o => exact .inl ⟨rfl, reassemble_reachesStore ha, .inr hr₃⟩
        | complete data => exact .inr ⟨data, n₃, rfl, by omega, hle, hr₃, rfl⟩

omit [SnapshotCodec] in
/-- A payload is what reassembly gives on the buffers of the node. -/
theorem snapshotPayload_complete {clock : Clock} {data : Bytes}
    (h : n.snapshotPayload clock args = some data) :
    (args.offset = 0 ∧ args.lastChunk = true) ∧ data = args.data ∨
      ¬ (args.offset = 0 ∧ args.lastChunk = true) ∧
        data = n.buffered args.leaderId ++ args.data := by
  obtain ⟨cache, hv⟩ := n.verifyInstallSnapshot_node clock args
  unfold snapshotPayload at h
  generalize n.verifyInstallSnapshot clock args = r at hv h
  dsimp only at h
  split at h
  · cases h
  split at h
  · cases h
  split at h
  · cases h
  split at h
  · cases h
  have hbuf : (r.2.adoptTerm args.term).buffered args.leaderId = n.buffered args.leaderId := by
    rw [hv]
    unfold RaftNode.adoptTerm
    split <;> rfl
  rcases (r.2.adoptTerm args.term).reassemble_cases args with
    ⟨hsingle, hr⟩ | ⟨hmany, ⟨o, -, hr⟩ | hr | ⟨buf, -, hr⟩⟩
  all_goals
    rw [hr] at h
    cases h
  · exact .inl ⟨hsingle, rfl⟩
  · exact .inr ⟨hmany, by rw [hbuf]⟩

end Cases

/-! ## Recovery -/

section Recovery
variable [RaftStorage σ] [SnapshotCodec]

/-- The snapshot half of `attach_storage`. -/
def restoreSnapshot (n : RaftNode σ) (clock : Clock) (snap : PersistedSnapshot) : RaftNode σ :=
  let n := { n with
    lastSnapshotIndex := snap.lastIndex
    lastSnapshotTerm := snap.lastTerm
    log := n.log.discardThrough snap.lastIndex
    stateMachine := match SnapshotCodec.fromSlice snap.data with
      | some s => n.stateMachine.map fun _ => ClusterStateMachine.restoreFromSnapshot s
      | none => n.stateMachine }
  if snap.voters = [] then n else n.syncPeersFromVoters clock snap.voters

/-- `attach_storage`: what was read before an error stays in the node. -/
def attachStorage (n : RaftNode σ) (clock : Clock) (store : σ) :
    Except StorageError Unit × RaftNode σ :=
  match RaftStorage.loadHardState store with
  | .error e => (.error e, n)
  | .ok hs =>
    let n := { n with currentTerm := hs.currentTerm, votedFor := hs.votedFor }
    match RaftStorage.loadLog store with
    | .error e => (.error e, n)
    | .ok entries =>
      let n := { n with log := entries.foldl RaftLog.append n.log }
      match RaftStorage.loadSnapshot store with
      | .error e => (.error e, n)
      | .ok snap =>
        let n := match snap with
          | some snap => n.restoreSnapshot clock snap
          | none => n
        (.ok (), { n with storage := some store })

end Recovery

end RaftNode

end CratonHsm
