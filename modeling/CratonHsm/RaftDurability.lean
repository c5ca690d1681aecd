import CratonHsm.RaftRecovery

/-!
# Durable before visible

A vote or an acknowledgement must be on disk before it is answered.  The persistence
helpers log a failed write and go on, so the answer does not wait for the disk.  This
module follows what each write does to the contents of a store whose writes may fail, and
says exactly when a granted vote and an acknowledged batch are in the store.
-/

namespace CratonHsm
open StorageModel RaftStorage
namespace RaftNode
variable {σ : Type}

section Store
variable [StorageModel σ]

/-- The attached store, if there is one, has the entry in its log. -/
def Logged (storage : Option σ) (e : LogEntry) : Prop :=
  ∀ s, storage = some s → e ∈ (StorageModel.contents s).log

/-- A write decides by its verdict whether its effect is what the store then holds. -/
theorem logged_write {write : σ → Except StorageError Unit × σ}
    {effect : InMemoryStorage → InMemoryStorage}
    (hw : ∀ s, WriteMeets contents s (write s) effect) (storage : Option σ)
    (e : LogEntry) :
    Logged (storage.map fun s => (write s).2) e ↔ ∀ s, storage = some s →
      ((write s).1 = .ok () → e ∈ (effect (contents s)).log) ∧
      ((write s).1 ≠ .ok () → e ∈ (contents s).log) := by
  rcases storage with _ | s
  · simp [Logged]
  simp only [Logged, Option.map_some, Option.some.injEq, forall_eq']
  rcases hw s with ⟨err, herr, hc⟩ | ⟨hok, hc⟩
  · simp [herr, hc]
  · simp [hok, hc]

theorem logged_syncCommitted (n : RaftNode σ) (e : LogEntry) :
    Logged n.syncCommittedStateBestEffort.storage e ↔ Logged n.storage e := by
  refine (logged_write (fun s => syncAllCommittedState_meets s) n.storage e).trans ?_
  refine forall_congr' fun s => imp_congr_right fun _ => ?_
  by_cases hok : (syncAllCommittedState s).1 = .ok () <;> simp [hok]

theorem logged_persistAppended (storage : Option σ) (entries : List LogEntry) (e : LogEntry) :
    Logged (persistAppended storage entries) e ↔ ∀ s, storage = some s →
      e ∈ (contents s).log ∨
        e ∈ entries ∧ (appendLog s entries).1 = .ok () := by
  unfold persistAppended
  rw [logged_write (fun s => appendLog_meets s entries)]
  refine forall_congr' fun s => imp_congr_right fun _ => ?_
  by_cases hok : (appendLog s entries).1 = .ok () <;> simp [hok]

theorem logged_persistTruncate (storage : Option σ) (after : Nat) (e : LogEntry) :
    Logged (persistTruncate storage after) e ↔ ∀ s, storage = some s →
      e ∈ (contents s).log ∧
        ((truncateLogAfter s after).1 = .ok () → e.index ≤ after) := by
  unfold persistTruncate
  rw [logged_write (fun s => truncateLogAfter_meets s after)]
  refine forall_congr' fun s => imp_congr_right fun _ => ?_
  by_cases hok : (truncateLogAfter s after).1 = .ok () <;> simp [hok]

theorem logged_iff {storage : Option σ} {e : LogEntry} :
    Logged storage e ↔ ∀ c, stored storage = some c → e ∈ c.log := by
  cases storage <;> simp [Logged]

/-- Saving a snapshot leaves the stored log alone. -/
theorem logged_persistSnapshot {storage storage' : Option σ} {snap : PersistedSnapshot}
    {saved : Bool} (h : persistSnapshot storage snap = (saved, storage')) (e : LogEntry) :
    Logged storage' e ↔ Logged storage e := by
  rw [logged_iff, logged_iff, stored_persistSnapshot h]
  cases saved <;> simp

/-- Following the commit and applying do not touch the stored log. -/
theorem logged_followCommit_apply (n : RaftNode σ) (clock : Clock) (args : AppendEntriesArgs)
    (e : LogEntry) :
    Logged ((n.followCommit args).applyCommitted clock).storage e ↔ Logged n.storage e := by
  have happ : ((n.followCommit args).applyCommitted clock).storage =
      (n.followCommit args).storage := by
    obtain ⟨a, sm, halted, -, -, hr | ⟨-, voters, hr⟩⟩ :=
      (n.followCommit args).applyCommitted_spec clock
    · rw [hr]
    · rw [hr]
      rfl
  rw [happ]
  rcases n.followCommit_node args with hs | ⟨-, hs⟩
  · rw [hs]
  · rw [hs]
    exact logged_syncCommitted _ e

/-- **What a completed batch leaves in the store.** -/
theorem logged_appendBatch {n : RaftNode σ} {entries : List LogEntry}
    {loop : Bool × AppendProgress σ}
    (hloop : AppendProgress.appendLoop { log := n.log, storage := n.storage } entries = loop)
    (h : (n.appendBatch entries).1 = true) (e : LogEntry) :
    Logged (n.appendBatch entries).2.storage e ↔ ∀ s, loop.2.storage = some s →
      e ∈ (contents s).log ∨
        e ∈ loop.2.newlyAppended ∧ (appendLog s loop.2.newlyAppended).1 = .ok () := by
  unfold appendBatch at h ⊢
  by_cases hc : consecutive entries = true
  · rw [if_pos hc, hloop] at h ⊢
    dsimp only at h ⊢
    by_cases hdone : loop.1 = true
    · rw [if_pos hdone]
      by_cases hnil : loop.2.newlyAppended = []
      · rw [if_pos hnil]
        simp [Logged, hnil]
      · rw [if_neg hnil]
        exact logged_persistAppended _ _ e
    · rw [if_neg hdone] at h
      cases h
  · rw [if_neg hc] at h
    cases h

variable [SnapshotCodec]

/-- `maybe_snapshot` cuts the entries from this index on out of the store: a snapshot
below it is due, the store takes it, and the truncation behind it succeeds. -/
def CutsStore (n : RaftNode σ) (index : Nat) : Prop :=
  ∃ snap s, n.snapshotDue = some snap ∧ persistSnapshot n.storage snap = (true, some s) ∧
    (RaftStorage.truncateLogAfter s snap.lastIndex).1 = .ok () ∧ snap.lastIndex < index

/-- **What the closing call of `maybe_snapshot` leaves in the store.** -/
theorem logged_maybeSnapshot (n : RaftNode σ) (e : LogEntry) :
    Logged n.maybeSnapshot.storage e ↔ Logged n.storage e ∧ ¬ n.CutsStore e.index := by
  rcases n.maybeSnapshot_cases with ⟨snap, storage, hdue, hsave, hr⟩ | ⟨hno, storage, hr, hst⟩
  · rw [hr, logged_persistTruncate, ← logged_persistSnapshot hsave]
    constructor
    · intro h
      refine ⟨fun s hs => (h s hs).1, ?_⟩
      rintro ⟨snap', s, hdue', hsave', hok, hlt⟩
      rw [hdue] at hdue'
      cases hdue'
      rw [hsave] at hsave'
      cases hsave'
      have := (h s rfl).2 hok
      omega
    · rintro ⟨hlogged, hkeep⟩ s rfl
      refine ⟨hlogged s rfl, fun hok => ?_⟩
      by_contra hgt
      exact hkeep ⟨snap, s, hdue, hsave, hok, by omega⟩
  · have hcuts : ¬ n.CutsStore e.index := by
      rintro ⟨snap, s, hdue, hsave, -⟩
      exact hno ⟨snap, hdue, by rw [hsave]⟩
    rw [hr]
    rcases hst with rfl | ⟨snap, hsave⟩
    · simp [hcuts]
    · simp [hcuts, logged_persistSnapshot hsave]

/-- Recovery keeps a stored entry, in the log or behind the snapshot. -/
theorem recovered_of_stored {fresh r : RaftNode σ} {boot : Clock} {s : σ} {e : LogEntry}
    (hattach : fresh.attachStorage boot s = (.ok (), r))
    (he : e ∈ (contents s).log) :
    e ∈ r.log.entries ∨ e.index ≤ r.lastSnapshotIndex := by
  rw [attachStorage_ok hattach]
  unfold recover
  rcases (contents s).snapshot with _ | snap
  · exact .inl (List.mem_append_right _ he)
  by_cases hle : e.index ≤ snap.lastIndex
  · right
    unfold restoreSnapshot
    dsimp only
    split <;> exact hle
  · have hmem : e ∈ (fresh.log.entries ++ (contents s).log).filter
        (fun x => snap.lastIndex < x.index) :=
      List.mem_filter.mpr ⟨List.mem_append_right _ he, by simpa using hle⟩
    left
    unfold restoreSnapshot
    dsimp only
    split <;> exact hmem

end Store

/-! ## Votes -/

section Vote
variable [StorageModel σ]

/-- A vote is only granted in the term of the request. -/
theorem adoptTerm_term_of_grant {n : RaftNode σ} {args : RequestVoteArgs}
    (h : (n.adoptTerm args.term).shouldGrantVote args.candidateId args.term args.lastLogIndex
      args.lastLogTerm = true) : (n.adoptTerm args.term).currentTerm = args.term := by
  have hge : args.term ≤ (n.adoptTerm args.term).currentTerm := by
    unfold adoptTerm
    split
    · exact Nat.le_refl _
    · omega
  unfold shouldGrantVote at h
  split at h
  · cases h
  · omega

/-- What the write of a granted vote leaves in the store. -/
theorem hard_saveHardState (s : σ) (hs : HardState) :
    (contents (saveHardState s hs).2).hard = hs ↔
      (saveHardState s hs).1 = .ok () ∨ (contents s).hard = hs := by
  rcases saveHardState_meets s hs with ⟨err, herr, hc⟩ | ⟨hok, hc⟩
  · simp [herr, hc]
  · simp [hok, hc]

variable [SnapshotCodec] [HmacSha256]

/-- A granted vote is in the store, and a node that boots from there remembers it. -/
def VoteDurable (n : RaftNode σ) (clock : Clock) (args : RequestVoteArgs) : Prop :=
  (n.handleRequestVote clock args).1.voteGranted = true →
    ∀ s, (n.handleRequestVote clock args).2.storage = some s →
      (StorageModel.contents s).hard = ⟨args.term, some args.candidateId⟩ ∧
      ∀ (fresh : RaftNode σ) boot r, fresh.attachStorage boot s = (.ok (), r) →
        r.currentTerm = args.term ∧ r.votedFor = some args.candidateId

/-- The vote reaches the store: if it is put to the vote and granted, the write of the
hard state succeeds, or the store has that very hard state already. -/
def VoteWritten (n : RaftNode σ) (clock : Clock) (args : RequestVoteArgs) : Prop :=
  (n.verifyRequestVote clock args).1 = true →
    (n.adoptTerm args.term).shouldGrantVote args.candidateId args.term args.lastLogIndex
      args.lastLogTerm = true →
    ∀ s, (n.adoptTerm args.term).storage = some s →
      (RaftStorage.saveHardState s ⟨args.term, some args.candidateId⟩).1 = .ok () ∨
        (StorageModel.contents s).hard = ⟨args.term, some args.candidateId⟩

theorem voteDurable_iff (n : RaftNode σ) (clock : Clock) (args : RequestVoteArgs) :
    n.VoteDurable clock args ↔ n.VoteWritten clock args := by
  unfold VoteDurable VoteWritten
  obtain ⟨cache, m, rfl, ⟨hv, hr⟩ | ⟨hv, hr⟩⟩ := n.handleRequestVote_cases clock args
  · simp [hr, hv]
  have hadopt : RaftNode.adoptTerm { n with replayCache := cache } args.term =
      { n.adoptTerm args.term with replayCache := cache } := by
    unfold adoptTerm
    split <;> rfl
  rw [hr, hv, hadopt]
  unfold castVote
  by_cases hgrant : (n.adoptTerm args.term).shouldGrantVote args.candidateId args.term
      args.lastLogIndex args.lastLogTerm = true
  · have hterm := adoptTerm_term_of_grant hgrant
    have hgrant' : shouldGrantVote { n.adoptTerm args.term with replayCache := cache }
        args.candidateId args.term args.lastLogIndex args.lastLogTerm = true := hgrant
    rw [if_pos hgrant']
    simp only [hgrant, forall_const, persistHardState, hterm, Option.map_eq_some_iff,
      forall_exists_index, and_imp, forall_apply_eq_imp_iff₂]
    refine forall_congr' fun s => imp_congr_right fun _ => ?_
    rw [← hard_saveHardState, and_iff_left_iff_imp]
    intro hhard fresh boot r hattach
    rw [attachStorage_ok hattach, hhard]
    exact ⟨rfl, rfl⟩
  · have hgrant' : ¬ shouldGrantVote { n.adoptTerm args.term with replayCache := cache }
        args.candidateId args.term args.lastLogIndex args.lastLogTerm = true := hgrant
    rw [if_neg hgrant']
    simp [hgrant]

end Vote

/-! ## Acknowledged entries -/

section Batch
variable [StorageModel σ] [SnapshotCodec] [HmacSha256]

/-- An acknowledged batch is in the store, and a new node that boots from there has it
in its log or behind its snapshot. -/
def BatchDurable (n : RaftNode σ) (clock : Clock) (args : AppendEntriesArgs) : Prop :=
  (n.handleAppendEntries clock args).1.success = true →
    ∀ s, (n.handleAppendEntries clock args).2.storage = some s →
      (∀ e ∈ args.entries, e ∈ (StorageModel.contents s).log) ∧
      ∀ (fresh : RaftNode σ) boot r, fresh.IsNew → fresh.attachStorage boot s = (.ok (), r) →
        ∀ e ∈ args.entries, e ∈ r.log.entries ∨ e.index ≤ r.lastSnapshotIndex

/-- The append loop of the request, over the store as the step-down leaves it. -/
def batchLoop (n : RaftNode σ) (args : AppendEntriesArgs) : Bool × AppendProgress σ :=
  AppendProgress.appendLoop { log := n.log, storage := (n.concede args.term).storage }
    args.entries

/-- The node on which an accepted request makes its closing call of `maybe_snapshot`. -/
def beforeSnapshot (n : RaftNode σ) (clock : Clock) (args : AppendEntriesArgs) : RaftNode σ :=
  (n.afterBatch clock args).applyCommitted clock

/-- The batch reaches the store, if the request gets through the append loop: each entry
is in the store behind the truncations of the loop, or the loop appends it and
`append_log` succeeds; and the closing snapshot does not cut it away. -/
def BatchWritten (n : RaftNode σ) (clock : Clock) (args : AppendEntriesArgs) : Prop :=
  n.ReachesLoop clock args → (n.batchLoop args).1 = true → ∀ e ∈ args.entries,
    (∀ s, (n.batchLoop args).2.storage = some s →
      e ∈ (StorageModel.contents s).log ∨ e ∈ (n.batchLoop args).2.newlyAppended ∧
        (RaftStorage.appendLog s (n.batchLoop args).2.newlyAppended).1 = .ok ()) ∧
    ¬ (n.beforeSnapshot clock args).CutsStore e.index

/-- The two ways a request is answered: refused, or accepted with this node behind the
answer. -/
theorem handleAppendEntries_success_iff (n : RaftNode σ) (clock : Clock)
    (args : AppendEntriesArgs) :
    ((n.handleAppendEntries clock args).1.success = true ↔
      n.ReachesLoop clock args ∧ (n.batchLoop args).1 = true) ∧
    ((n.handleAppendEntries clock args).1.success = true →
      (n.handleAppendEntries clock args).2 = (n.beforeSnapshot clock args).maybeSnapshot ∧
      ∀ e, Logged (n.beforeSnapshot clock args).storage e ↔
        ∀ s, (n.batchLoop args).2.storage = some s → e ∈ (contents s).log ∨
          e ∈ (n.batchLoop args).2.newlyAppended ∧
            (appendLog s (n.batchLoop args).2.newlyAppended).1 = .ok ()) := by
  obtain ⟨cache, m, hm, hver, ⟨hv, hr⟩ | ⟨hv, hterm, hr⟩⟩ := n.handleAppendEntries_cases clock args
  · have hno : ¬ n.ReachesLoop clock args := by
      rintro ⟨hv', hterm, -⟩
      rcases hv with hv | hlt
      · rw [hv] at hv'
        cases hv'
      · omega
    simp [hr, hno]
  obtain ⟨k, hk, hcases⟩ := m.acceptEntries_cases clock args
  obtain ⟨hklog, hkcheck⟩ := accepting_log hm hk args.prevLogIndex args.prevLogTerm
  have hkstore : k.storage = (n.concede args.term).storage := by
    rw [hk, hm]
    unfold noteLeader recordHeartbeat concede
    split
    · rfl
    · split <;> rfl
  have hloop : AppendProgress.appendLoop { log := k.log, storage := k.storage } args.entries =
      n.batchLoop args := by
    rw [hklog, hkstore]
    rfl
  have hreach : n.ReachesLoop clock args ↔
      (k.checkPrevLog args.prevLogIndex args.prevLogTerm).1 = true ∧
        consecutive args.entries = true := by
    rw [hkcheck]
    exact ⟨fun h => ⟨h.2.2.1, h.2.2.2⟩, fun h => ⟨hv, hterm, h.1, h.2⟩⟩
  have hbatch : (k.appendBatch args.entries).1 = true ↔
      consecutive args.entries = true ∧ (n.batchLoop args).1 = true := by
    rw [← hloop]
    unfold appendBatch
    by_cases hc : consecutive args.entries = true
    · rw [if_pos hc]
      dsimp only
      split <;> simp_all
    · simp [hc]
  rw [hr]
  rcases hcases with ⟨hcheck, ha⟩ | ⟨hcheck, ⟨hb, ha⟩ | ⟨hb, ha⟩⟩
  · simp [ha, hreach, hcheck]
  · have hno : ¬ (consecutive args.entries = true ∧ (n.batchLoop args).1 = true) := by
      rw [← hbatch, hb]
      exact Bool.false_ne_true
    rw [ha, hreach]
    refine ⟨⟨nofun, fun h => absurd ⟨h.1.2, h.2⟩ hno⟩, nofun⟩
  · obtain ⟨hc, hdone⟩ := hbatch.mp hb
    have hpoint : n.beforeSnapshot clock args =
        ((k.appendBatch args.entries).2.followCommit args).applyCommitted clock := by
      unfold beforeSnapshot afterBatch
      rw [← hver, ← hk]
    rw [ha, hreach, hpoint]
    refine ⟨⟨fun _ => ⟨⟨hcheck, hc⟩, hdone⟩, fun _ => rfl⟩, fun _ => ⟨rfl, fun e => ?_⟩⟩
    rw [logged_followCommit_apply, logged_appendBatch hloop hb]

theorem batchDurable_iff (n : RaftNode σ) (clock : Clock) (args : AppendEntriesArgs) :
    n.BatchDurable clock args ↔ n.BatchWritten clock args := by
  obtain ⟨hiff, hnode⟩ := n.handleAppendEntries_success_iff clock args
  -- the recovered log is a consequence of what the store holds
  have hdurable : n.BatchDurable clock args ↔
      ((n.handleAppendEntries clock args).1.success = true →
        ∀ e ∈ args.entries, Logged (n.handleAppendEntries clock args).2.storage e) := by
    constructor
    · intro h hs e he s hst
      exact (h hs s hst).1 e he
    · intro h hs s hst
      exact ⟨fun e he => h hs e he s hst,
        fun fresh boot r _ hattach e he => recovered_of_stored hattach (h hs e he s hst)⟩
  rw [hdurable]
  constructor
  · intro h hreach hdone e he
    have hs := hiff.mpr ⟨hreach, hdone⟩
    obtain ⟨hr, hlog⟩ := hnode hs
    rw [← hlog, ← logged_maybeSnapshot, ← hr]
    exact h hs e he
  · intro h hs e he
    obtain ⟨hreach, hdone⟩ := hiff.mp hs
    obtain ⟨hr, hlog⟩ := hnode hs
    rw [hr, logged_maybeSnapshot, hlog]
    exact h hreach hdone e he

/-- **Durable before visible**, exactly when the writes behind the answer succeed. -/
theorem durableBeforeVisible_iff (n : RaftNode σ) (clock : Clock) :
    (∀ args, n.VoteDurable clock args ↔ n.VoteWritten clock args) ∧
      ∀ args, n.BatchDurable clock args ↔ n.BatchWritten clock args :=
  ⟨n.voteDurable_iff clock, n.batchDurable_iff clock⟩

end Batch

section Sample
attribute [local instance] noSnapshotCodec hmacSha256

/-- A store on a full disk: it reads, and every write fails. -/
structure FullDisk where
  held : InMemoryStorage := {}
  deriving DecidableEq

/-- What a write on a full disk returns. -/
def noSpace (s : FullDisk) : Except StorageError Unit × FullDisk :=
  (.error (.io "No space left on device"), s)

instance : StorageModel FullDisk where
  loadHardState s := .ok s.held.hard
  saveHardState s _ := noSpace s
  loadLog s := .ok s.held.log
  appendLog s _ := noSpace s
  truncateLogAfter s _ := noSpace s
  saveSnapshot s _ := noSpace s
  loadSnapshot s := .ok s.held.snapshot
  syncAllCommittedState s := noSpace s
  contents := FullDisk.held
  loadHardState_meets _ _ h := (Except.ok.inj h).symm
  loadLog_meets _ _ h := (Except.ok.inj h).symm
  loadSnapshot_meets _ _ h := (Except.ok.inj h).symm
  saveHardState_meets _ _ := .inl ⟨_, rfl, rfl⟩
  appendLog_meets _ _ := .inl ⟨_, rfl, rfl⟩
  truncateLogAfter_meets _ _ := .inl ⟨_, rfl, rfl⟩
  saveSnapshot_meets _ _ := .inl ⟨_, rfl, rfl⟩
  syncAllCommittedState_meets _ := .inl ⟨_, rfl, rfl⟩

/-- A follower whose disk is full. -/
def fullDiskFollower : RaftNode FullDisk :=
  { (new "n2" ["n1", "n3"] 1000 0 : RaftNode FullDisk) with
    clusterSecret := some sampleSecret
    storage := some {} }

/-- A signed request for the first vote. -/
def firstVoteRequest : RequestVoteArgs := signedVote 1 "n1" 0 0 1000

/-- On a full disk the vote is granted and the entry acknowledged, and the store holds
neither. -/
theorem answered_on_full_disk :
    ¬ fullDiskFollower.VoteDurable (sampleClock 1000) firstVoteRequest ∧
      ¬ fullDiskFollower.BatchDurable (sampleClock 1000) (firstBatch 1000) := by
  have hvote : (fullDiskFollower.handleRequestVote (sampleClock 1000)
        firstVoteRequest).1.voteGranted = true ∧
      (fullDiskFollower.handleRequestVote (sampleClock 1000)
        firstVoteRequest).2.storage = some {} := by
    unfold firstVoteRequest
    rw [hmacSha256_eq]
    decide +kernel
  have hbatch : (fullDiskFollower.handleAppendEntries (sampleClock 1000)
        (firstBatch 1000)).1.success = true ∧
      (fullDiskFollower.handleAppendEntries (sampleClock 1000)
        (firstBatch 1000)).2.storage = some {} := by
    unfold firstBatch
    rw [hmacSha256_eq]
    decide +kernel
  obtain ⟨hgrant, hvoted⟩ := hvote
  obtain ⟨hack, happended⟩ := hbatch
  constructor
  · intro h
    have hhard := (h hgrant {} hvoted).1
    cases hhard
  · intro h
    have hlog := (h hack {} happended).1 _ (List.mem_singleton.mpr rfl)
    cases hlog

end Sample

end RaftNode

end CratonHsm
