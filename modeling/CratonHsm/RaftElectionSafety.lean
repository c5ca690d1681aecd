import Mathlib.Data.Finset.Card
import CratonHsm.RaftRun

/-!
# Election safety across crashes

A node votes at most once per term, also when it crashes in between: every change of
`(current_term, voted_for)` is written to the store before the call returns
(`HardSynced`), and a restart reads both back.  Each call either leaves the pair alone
(`VoteKept`), or moves to a later term, or records a first vote (`VoteStep`).  Two
quorums of one voter set share a voter, so a term has at most one winner.
-/

namespace CratonHsm
open Option
namespace RaftNode

section Votes
variable {σ : Type} [ReliableStorage σ] {m : RaftNode σ}

/-- The store records the term and the vote of the node. -/
def HardSynced (n : RaftNode σ) : Prop :=
  ∃ c, stored n.storage = some c ∧ c.hard = ⟨n.currentTerm, n.votedFor⟩

/-- The hard state in the store, if there is one. -/
def storedHard (storage : Option σ) : Option HardState := (stored storage).map InMemoryStorage.hard

/-- Term and vote are left alone, in memory and in the store. -/
structure VoteKept (n m : RaftNode σ) : Prop where
  id : m.id = n.id
  term : m.currentTerm = n.currentTerm
  vote : m.votedFor = n.votedFor
  hard : storedHard m.storage = storedHard n.storage

theorem VoteKept.refl (n : RaftNode σ) : VoteKept n n := ⟨rfl, rfl, rfl, rfl⟩

theorem VoteKept.trans {n m k : RaftNode σ} (h₁ : VoteKept n m) (h₂ : VoteKept m k) :
    VoteKept n k :=
  ⟨h₂.id.trans h₁.id, h₂.term.trans h₁.term, h₂.vote.trans h₁.vote, h₂.hard.trans h₁.hard⟩

theorem HardSynced.of_kept {n m : RaftNode σ} (h : HardSynced n) (hk : VoteKept n m) :
    HardSynced m := by
  obtain ⟨c, hc, hard⟩ := h
  have hm := hk.hard
  unfold storedHard at hm
  rw [hc, map_some] at hm
  obtain ⟨c', hc', heq⟩ := map_eq_some_iff.mp hm
  refine ⟨c', hc', ?_⟩
  rw [heq, hard, hk.term, hk.vote]

/-! ## The parts of a call that keep the vote -/

theorem storedHard_persistTruncate (storage : Option σ) (after : Nat) :
    storedHard (persistTruncate storage after) = storedHard storage := by
  unfold storedHard
  rw [stored_persistTruncate, map_map]
  rfl

theorem storedHard_persistAppended (storage : Option σ) (entries : List LogEntry) :
    storedHard (persistAppended storage entries) = storedHard storage := by
  unfold storedHard
  rw [stored_persistAppended, map_map]
  rfl

theorem storedHard_persistSnapshot {storage storage' : Option σ} {snap : PersistedSnapshot}
    {saved : Bool} (h : persistSnapshot storage snap = (saved, storage')) :
    storedHard storage' = storedHard storage := by
  unfold storedHard
  rw [stored_persistSnapshot h]
  cases saved with
  | false => rfl
  | true =>
    rw [if_pos rfl, map_map]
    rfl

section
variable (n : RaftNode σ)

theorem syncCommitted_voteKept : VoteKept n n.syncCommittedStateBestEffort := by
  refine ⟨rfl, rfl, rfl, ?_⟩
  unfold storedHard
  rw [stored_syncCommitted]

theorem checkPrevLog_voteKept (i t : Nat) : VoteKept n (n.checkPrevLog i t).2 := by
  rcases n.checkPrevLog_node i t with h | ⟨-, e, log, -, -, -, -, h⟩
  · rw [h]; exact .refl n
  · rw [h]; exact ⟨rfl, rfl, rfl, storedHard_persistTruncate _ _⟩

theorem appendBatch_voteKept (entries : List LogEntry) : VoteKept n (n.appendBatch entries).2 := by
  have hhard := appendBatch_storage (R := fun st => storedHard st = storedHard n.storage)
    (fun st after h => (storedHard_persistTruncate st after).trans h)
    (fun st es h => (storedHard_persistAppended st es).trans h) n entries rfl
  obtain ⟨log, storage, h⟩ := n.appendBatch_node entries
  rw [h] at hhard ⊢
  exact ⟨rfl, rfl, rfl, hhard⟩

theorem followCommit_voteKept (args : AppendEntriesArgs) : VoteKept n (n.followCommit args) := by
  rcases n.followCommit_node args with h | ⟨-, h⟩
  · rw [h]; exact .refl n
  rw [h]
  have hcommit : VoteKept n { n with log := n.log.commit (min args.leaderCommit args.lastNew) } :=
    ⟨rfl, rfl, rfl, rfl⟩
  exact hcommit.trans (syncCommitted_voteKept _)

theorem applyCommitted_voteKept (clock : Clock) : VoteKept n (n.applyCommitted clock) := by
  obtain ⟨a, sm, halted, -, -, h | ⟨-, voters, h⟩⟩ := n.applyCommitted_spec clock
  · rw [h]; exact ⟨rfl, rfl, rfl, rfl⟩
  · rw [h]; exact ⟨rfl, rfl, rfl, rfl⟩

theorem advanceCommitIndex_voteKept : VoteKept n n.advanceCommitIndex := by
  rcases n.advanceCommitIndex_node with h | ⟨i, -, h⟩
  · rw [h]; exact .refl n
  · rw [h]; exact ⟨rfl, rfl, rfl, rfl⟩

theorem advanceAndSync_voteKept : VoteKept n n.advanceAndSync := by
  rcases n.advanceAndSync_node with h | h
  · rw [h]; exact advanceCommitIndex_voteKept n
  · rw [h]; exact (advanceCommitIndex_voteKept n).trans (syncCommitted_voteKept _)

end

/-! ## What a call does to the vote -/

/-- The term does not go back, a vote of the term stays, and both are in the store. -/
structure VoteStep (n m : RaftNode σ) : Prop where
  id : m.id = n.id
  term_le : n.currentTerm ≤ m.currentTerm
  vote : m.currentTerm = n.currentTerm → ∀ c, n.votedFor = some c → m.votedFor = some c
  synced : HardSynced m

variable {n : RaftNode σ} {t : Nat} {c : String}

theorem VoteStep.of_kept (hs : HardSynced n) (hk : VoteKept n m) : VoteStep n m :=
  ⟨hk.id, Nat.le_of_eq hk.term.symm, fun _ _ hc => hk.vote.trans hc, hs.of_kept hk⟩

theorem VoteStep.trans {m k : RaftNode σ} (h₁ : VoteStep n m) (h₂ : VoteStep m k) :
    VoteStep n k := by
  refine ⟨h₂.id.trans h₁.id, Nat.le_trans h₁.term_le h₂.term_le, ?_, h₂.synced⟩
  intro hterm c hc
  have h₁le := h₁.term_le
  have h₂le := h₂.term_le
  exact h₂.vote (by omega) c (h₁.vote (by omega) c hc)

/-- Persisting synchronizes the store. -/
theorem persistHardState_synced (n : RaftNode σ) (h : (stored n.storage).isSome) :
    HardSynced n.persistHardState := by
  obtain ⟨c, hc⟩ := isSome_iff_exists.mp h
  refine ⟨{ c with hard := ⟨n.currentTerm, n.votedFor⟩ }, ?_, rfl⟩
  have hw := n.stored_persistHardState
  rw [hc] at hw
  exact hw

theorem HardSynced.isSome (h : HardSynced n) : (stored n.storage).isSome := by
  obtain ⟨c, hc, -⟩ := h
  rw [hc]
  rfl

section
variable (hs : HardSynced n)
include hs

theorem becomeFollower_voteStep {term : Nat} (hle : n.currentTerm ≤ term) :
    VoteStep n (n.becomeFollower term) := by
  refine ⟨rfl, hle, ?_, persistHardState_synced _ hs.isSome⟩
  intro hterm c hc
  change (if n.currentTerm < term then none else n.votedFor) = some c
  have hnot : ¬ n.currentTerm < term := Nat.not_lt.mpr (Nat.le_of_eq hterm)
  rw [if_neg hnot, hc]

theorem adoptTerm_voteStep (term : Nat) :
    VoteStep n (n.adoptTerm term) ∧ term ≤ (n.adoptTerm term).currentTerm := by
  unfold adoptTerm
  split
  · rename_i hlt
    exact ⟨becomeFollower_voteStep hs (Nat.le_of_lt hlt), Nat.le_refl _⟩
  · rename_i hle
    exact ⟨.of_kept hs (.refl n), Nat.le_of_not_lt hle⟩

theorem concede_voteStep {term : Nat} (hle : n.currentTerm ≤ term) :
    VoteStep n (n.concede term) := by
  unfold concede
  split
  · exact becomeFollower_voteStep hs hle
  · split
    · exact becomeFollower_voteStep hs hle
    · exact .of_kept hs (.refl n)

/-- A granted vote is for the current term, and recorded. -/
theorem castVote_voteStep (args : RequestVoteArgs) :
    VoteStep n (n.castVote args).2 ∧ ((n.castVote args).1.voteGranted = true →
      (n.castVote args).1.term = (n.castVote args).2.currentTerm ∧
        (n.castVote args).2.votedFor = some args.candidateId) := by
  unfold castVote
  split
  · rename_i hgrant
    refine ⟨⟨rfl, Nat.le_refl _, ?_, persistHardState_synced _ hs.isSome⟩, fun _ => ⟨rfl, rfl⟩⟩
    -- a vote already given was for this candidate
    intro _ c hc
    unfold shouldGrantVote at hgrant
    split at hgrant
    · cases hgrant
    split at hgrant
    · cases hgrant
    rename_i hany
    rw [hc] at hany
    have : c = args.candidateId := by simpa using hany
    rw [this]
    rfl
  · exact ⟨.of_kept hs (.refl n), fun h => Bool.noConfusion h⟩

theorem handleRequestVote_voteStep [HmacSha256] (clock : Clock) (args : RequestVoteArgs) :
    VoteStep n (n.handleRequestVote clock args).2 ∧
      ((n.handleRequestVote clock args).1.voteGranted = true →
        (n.handleRequestVote clock args).1.term =
            (n.handleRequestVote clock args).2.currentTerm ∧
          (n.handleRequestVote clock args).2.votedFor = some args.candidateId) := by
  obtain ⟨cache, m, hm, ⟨-, h⟩ | ⟨-, h⟩⟩ := n.handleRequestVote_cases clock args
  all_goals
    have hstep : VoteStep n m := .of_kept hs (by rw [hm]; exact ⟨rfl, rfl, rfl, rfl⟩)
    rw [h]
  · exact ⟨hstep, fun h => Bool.noConfusion h⟩
  · have hadopt := (adoptTerm_voteStep hstep.synced args.term).1
    have hcast := castVote_voteStep hadopt.synced args
    exact ⟨(hstep.trans hadopt).trans hcast.1, hcast.2⟩

theorem tryBecomeCandidate_voteStep {draw : Nat} (h : n.tryBecomeCandidate draw = some m) :
    VoteStep n m ∧ n.currentTerm < m.currentTerm ∧ m.votedFor = some n.id := by
  obtain ⟨next, hnext, rfl⟩ := map_eq_some_iff.mp h
  have hlt : n.currentTerm < next := by
    unfold Term.checkedNext at hnext
    split at hnext
    · cases hnext
      exact Nat.lt_succ_self _
    · cases hnext
  refine ⟨⟨rfl, Nat.le_of_lt hlt, ?_, persistHardState_synced _ hs.isSome⟩, hlt, rfl⟩
  intro hterm
  exact absurd hterm (Nat.ne_of_gt hlt)

end

theorem submitCommand_voteKept (n : RaftNode σ) (clock : Clock) (command : RaftCommand) :
    VoteKept n (n.submitCommand clock command).2 := by
  rcases n.submitCommand_cases clock command with ⟨-, h⟩ | ⟨-, m, hm, -, hcases⟩
  · rw [h]
    exact .refl n
  have happ : VoteKept n m := by
    rw [hm]
    exact ⟨rfl, rfl, rfl, storedHard_persistAppended _ _⟩
  rcases hcases with ⟨-, h⟩ | ⟨-, h⟩
  · rw [h]
    exact (happ.trans (advanceCommitIndex_voteKept m)).trans (applyCommitted_voteKept _ clock)
  · rw [h]
    exact happ

/-- A vote given earlier: its term is past, or it is the vote of the term. -/
def Recorded (n : RaftNode σ) (t : Nat) (c : String) : Prop :=
  t < n.currentTerm ∨ t = n.currentTerm ∧ n.votedFor = some c

theorem Recorded.step (h : n.Recorded t c) (hs : VoteStep n m) : m.Recorded t c := by
  have hle := hs.term_le
  rcases h with hlt | ⟨rfl, hv⟩
  · exact .inl (by omega)
  rcases Nat.lt_or_ge n.currentTerm m.currentTerm with hlt | hge
  · exact .inl hlt
  · have heq : m.currentTerm = n.currentTerm := by omega
    exact .inr ⟨heq.symm, hs.vote heq c hv⟩

variable [SnapshotCodec]

theorem maybeSnapshot_voteKept (n : RaftNode σ) : VoteKept n n.maybeSnapshot := by
  rcases n.maybeSnapshot_cases with ⟨snap, storage, -, hp, h⟩ | ⟨-, storage, h, hs⟩
  · rw [h]
    refine ⟨rfl, rfl, rfl, ?_⟩
    exact (storedHard_persistTruncate _ _).trans (storedHard_persistSnapshot hp)
  · rw [h]
    refine ⟨rfl, rfl, rfl, ?_⟩
    rcases hs with hs | ⟨snap, hp⟩
    · exact congrArg storedHard hs
    · exact storedHard_persistSnapshot hp

theorem persistAndAdopt_voteKept (n : RaftNode σ) (clock : Clock) (args : InstallSnapshotArgs)
    (data : PrefixFreeCode.Bytes) : VoteKept n (n.persistAndAdopt clock args data).2 := by
  unfold persistAndAdopt
  cases hp : persistSnapshot n.storage (snapshotRecord args data) with
  | mk saved storage =>
    have hhard := storedHard_persistSnapshot hp
    dsimp only
    split
    · split
      · exact ⟨rfl, rfl, rfl, hhard⟩
      · exact ⟨rfl, rfl, rfl, (storedHard_persistTruncate _ _).trans hhard⟩
    · exact ⟨rfl, rfl, rfl, hhard⟩

/-- After the term is settled, AppendEntries keeps the vote. -/
theorem acceptEntries_voteKept (n : RaftNode σ) (clock : Clock) (args : AppendEntriesArgs) :
    VoteKept (n.concede args.term) (n.acceptEntries clock args).2 := by
  obtain ⟨m, hm, hcases⟩ := n.acceptEntries_cases clock args
  have hnote : VoteKept (n.concede args.term) m := by rw [hm]; exact ⟨rfl, rfl, rfl, rfl⟩
  rcases hcases with ⟨-, h⟩ | ⟨-, ⟨-, h⟩ | ⟨-, h⟩⟩
  · rw [h]
    exact hnote.trans (m.checkPrevLog_voteKept _ _)
  · rw [h]
    exact hnote.trans (m.appendBatch_voteKept _)
  · rw [h]
    exact (((hnote.trans (m.appendBatch_voteKept _)).trans (followCommit_voteKept _ args)).trans
      (applyCommitted_voteKept _ clock)).trans (maybeSnapshot_voteKept _)

/-- A new node that has attached a store. -/
def Booted (n : RaftNode σ) : Prop :=
  ∃ (fresh : RaftNode σ) (clock : Clock) (store : σ),
    fresh.IsNew ∧ n = (fresh.attachStorage clock store).2

theorem attachStorage_reliable (fresh : RaftNode σ) (clock : Clock) (store : σ) :
    (fresh.attachStorage clock store).1 = .ok () := by
  unfold attachStorage
  rw [ReliableStorage.loadHardState_ok]
  rw [ReliableStorage.loadLog_ok]
  rw [ReliableStorage.loadSnapshot_ok]

/-- A node that attaches a store takes term and vote from it. -/
theorem attachStorage_hard (fresh : RaftNode σ) (clock : Clock) (store : σ) :
    (fresh.attachStorage clock store).2.storage = some store ∧
      StorageModel.contents store = { StorageModel.contents store with
        hard := ⟨(fresh.attachStorage clock store).2.currentTerm,
          (fresh.attachStorage clock store).2.votedFor⟩ } ∧
      (fresh.attachStorage clock store).2.id = fresh.id := by
  have h := attachStorage_ok
    (Prod.ext (attachStorage_reliable fresh clock store) rfl :
      fresh.attachStorage clock store = (.ok (), (fresh.attachStorage clock store).2))
  rw [h]
  refine ⟨rfl, rfl, ?_⟩
  unfold recover restoreSnapshot
  dsimp only
  split
  · split <;> rfl
  · rfl

theorem Booted.synced (h : n.Booted) : HardSynced n := by
  obtain ⟨fresh, clock, store, -, rfl⟩ := h
  obtain ⟨hst, hc, -⟩ := fresh.attachStorage_hard clock store
  exact ⟨StorageModel.contents store, by rw [hst]; rfl, by rw [hc]⟩

/-! ## Calls -/

variable [HmacSha256]

variable {events : List (NodeEvent σ)}

theorem handleAppendEntries_voteStep (hs : HardSynced n) (clock : Clock)
    (args : AppendEntriesArgs) :
    VoteStep n (n.handleAppendEntries clock args).2 := by
  obtain ⟨cache, m, hm, -, ⟨-, h⟩ | ⟨-, hle, h⟩⟩ := n.handleAppendEntries_cases clock args
  all_goals
    have hstep : VoteStep n m := .of_kept hs (by rw [hm]; exact ⟨rfl, rfl, rfl, rfl⟩)
    rw [h]
  · exact hstep
  · have hterm : m.currentTerm ≤ args.term := by rw [hm]; exact hle
    have hc := concede_voteStep hstep.synced hterm
    exact (hstep.trans hc).trans (.of_kept hc.synced (m.acceptEntries_voteKept clock args))

theorem handleInstallSnapshot_voteStep (hs : HardSynced n) (clock : Clock)
    (args : InstallSnapshotArgs) : VoteStep n (n.handleInstallSnapshot clock args).2 := by
  have hadopt := (adoptTerm_voteStep hs args.term).1
  have hreceipt : ∀ {a b : RaftNode σ}, ReceiptOnly a b → VoteKept a b := by
    rintro a b ⟨c, buffers, r, rfl⟩
    exact ⟨rfl, rfl, rfl, rfl⟩
  change VoteStep n (n.installSnapshot clock args).2
  rcases n.installSnapshot_cases clock args with ⟨-, -, hr | hr⟩ | ⟨data, m, -, -, -, hr, heq⟩
  · exact .of_kept hs (hreceipt hr)
  · exact hadopt.trans (.of_kept hadopt.synced (hreceipt hr))
  · rw [heq]
    exact hadopt.trans (.of_kept hadopt.synced
      ((hreceipt hr).trans (m.persistAndAdopt_voteKept clock args data)))

theorem handleAppendEntriesReply_voteStep (hs : HardSynced n) (clock : Clock) (draw : Nat)
    (peerId : String) (reply : AppendEntriesReply) (sent : Nat) :
    VoteStep n (n.handleAppendEntriesReply clock draw peerId reply sent) := by
  obtain ⟨accepts, m, hm, -, hcases⟩ :=
    n.handleAppendEntriesReply_cases clock draw peerId reply sent
  have hstep : VoteStep n m := .of_kept hs (by rw [hm]; exact ⟨rfl, rfl, rfl, rfl⟩)
  rcases hcases with ⟨-, h⟩ | ⟨-, hlt, h⟩ | ⟨-, -, -, h⟩ | ⟨-, -, -, h⟩
  · rw [h]
    exact hstep.trans (.of_kept hstep.synced ⟨rfl, rfl, rfl, rfl⟩)
  · rw [h]
    have hle : m.currentTerm ≤ reply.term := by rw [hm]; exact Nat.le_of_lt hlt
    exact hstep.trans (becomeFollower_voteStep hstep.synced hle)
  · have hrec : VoteKept m (m.recordSuccess peerId sent) := by
      obtain ⟨next, matched, h⟩ := m.recordSuccess_node peerId sent
      rw [h]
      exact ⟨rfl, rfl, rfl, rfl⟩
    rw [h]
    exact hstep.trans (.of_kept hstep.synced (((hrec.trans (advanceAndSync_voteKept _)).trans
      (applyCommitted_voteKept _ clock)).trans (maybeSnapshot_voteKept _)))
  · have hback : VoteKept m (m.backOff draw peerId) := by
      obtain ⟨next, h⟩ := m.backOff_node draw peerId
      rw [h]
      exact ⟨rfl, rfl, rfl, rfl⟩
    rw [h]
    exact hstep.trans (.of_kept hstep.synced hback)

/-! ## Runs -/

/-- The vote a call gives, with its term: a self-vote, or a granted request. -/
def grant (n : RaftNode σ) : NodeEvent σ → Option (Nat × String)
  | .tryBecomeCandidate draw => (n.tryBecomeCandidate draw).map fun m => (m.currentTerm, n.id)
  | .handleRequestVote clock args =>
    let reply := (n.handleRequestVote clock args).1
    if reply.voteGranted then some (reply.term, args.candidateId) else none
  | _ => none

/-- The votes of a run, in order. -/
def grants (n : RaftNode σ) : List (NodeEvent σ) → List (Nat × String)
  | [] => []
  | e :: rest => (n.grant e).toList ++ (n.step e).grants rest

/-- The calls of one process over one store: no foreign store is attached, and a restart
boots a new node of the same id. -/
def OwnStore (n : RaftNode σ) : NodeEvent σ → Prop
  | .attachStorage _ _ => False
  | .restart _ fresh => fresh.IsNew ∧ fresh.id = n.id
  | _ => True

section
variable (hs : HardSynced n)
include hs

/-- **What one call does to the vote**, and that a vote it gives is recorded. -/
theorem step_voteStep {e : NodeEvent σ} (he : n.OwnStore e) :
    VoteStep n (n.step e) ∧ ∀ t c, n.grant e = some (t, c) →
      t = (n.step e).currentTerm ∧ (n.step e).votedFor = some c := by
  have hnone : ∀ t c, (none : Option (Nat × String)) = some (t, c) →
      t = (n.step e).currentTerm ∧ (n.step e).votedFor = some c := fun _ _ h => by cases h
  cases e with
  | tryBecomeCandidate draw =>
    simp only [step, grant]
    rcases ht : n.tryBecomeCandidate draw with _ | m
    · exact ⟨.of_kept hs (.refl n), fun _ _ h => by cases h⟩
    obtain ⟨hstep, -, hvote⟩ := tryBecomeCandidate_voteStep hs ht
    refine ⟨hstep, ?_⟩
    rintro t c h
    cases h
    exact ⟨rfl, hvote⟩
  | handleRequestVote clock args =>
    obtain ⟨hstep, hgrant⟩ := handleRequestVote_voteStep hs clock args
    refine ⟨hstep, ?_⟩
    intro t c h
    unfold grant at h
    dsimp only at h
    split at h
    · rename_i hg
      cases h
      exact hgrant hg
    · cases h
  | becomeLeader => exact ⟨.of_kept hs ⟨rfl, rfl, rfl, rfl⟩, hnone⟩
  | handleAppendEntries clock args => exact ⟨handleAppendEntries_voteStep hs clock args, hnone⟩
  | handleAppendEntriesReply clock draw peerId reply sent =>
    exact ⟨handleAppendEntriesReply_voteStep hs clock draw peerId reply sent, hnone⟩
  | handleInstallSnapshot clock args =>
    exact ⟨handleInstallSnapshot_voteStep hs clock args, hnone⟩
  | submitCommand clock command =>
    exact ⟨.of_kept hs (n.submitCommand_voteKept clock command), hnone⟩
  | applyCommitted clock => exact ⟨.of_kept hs (n.applyCommitted_voteKept clock), hnone⟩
  | maybeSnapshot => exact ⟨.of_kept hs n.maybeSnapshot_voteKept, hnone⟩
  | attachStorage clock store => cases he
  | restart clock fresh =>
    refine ⟨?_, hnone⟩
    obtain ⟨c, hc, hard⟩ := hs
    obtain ⟨store, hst, rfl⟩ := map_eq_some_iff.mp hc
    obtain ⟨hst', hcont, hid⟩ := fresh.attachStorage_hard clock store
    have hvote := hcont ▸ hard
    have hstep : n.step (.restart clock fresh) = (fresh.attachStorage clock store).2 := by
      unfold step
      rw [hst]
    rw [hstep]
    obtain ⟨hterm, hvoted⟩ := HardState.mk.inj hvote
    refine ⟨hid.trans he.2, Nat.le_of_eq hterm.symm, fun _ c hv => hvoted.trans hv, ?_⟩
    exact ⟨StorageModel.contents store, by rw [hst']; rfl, by rw [hcont]⟩

section
variable (h : Along OwnStore n events)
include h

/-- A recorded vote is the only one the rest of the run can give for its term. -/
theorem grants_of_recorded {c' : String}
    (hr : n.Recorded t c) (hg : (t, c') ∈ n.grants events) : c' = c := by
  induction events generalizing n with
  | nil => cases hg
  | cons e rest ih =>
    obtain ⟨hstep, hgrant⟩ := step_voteStep hs h.1
    have hr' := hr.step hstep
    rcases List.mem_append.mp hg with hnow | hlater
    · obtain ⟨ht, hv⟩ := hgrant t c' (mem_toList.mp hnow)
      rcases hr' with hlt | ⟨-, hv'⟩
      · omega
      · exact some.inj (hv.symm.trans hv')
    · exact ih hstep.synced h.2 hr' hlater

/-- **One vote per term**, over a whole run. -/
theorem grants_unique {c' : String}
    (hc : (t, c) ∈ n.grants events) (hc' : (t, c') ∈ n.grants events) : c = c' := by
  induction events generalizing n with
  | nil => cases hc
  | cons e rest ih =>
    obtain ⟨hstep, hgrant⟩ := step_voteStep hs h.1
    rcases List.mem_append.mp hc with hnow | hlater
    · have hmem := mem_toList.mp hnow
      rcases List.mem_append.mp hc' with hnow' | hlater'
      · have hsame : some (t, c) = some (t, c') := hmem.symm.trans (mem_toList.mp hnow')
        cases hsame
        rfl
      · exact (grants_of_recorded hstep.synced h.2 (.inr (hgrant t c hmem)) hlater').symm
    · rcases List.mem_append.mp hc' with hnow' | hlater'
      · have hmem' := mem_toList.mp hnow'
        exact grants_of_recorded hstep.synced h.2 (.inr (hgrant t c' hmem')) hlater
      · exact ih hstep.synced h.2 hlater hlater'

theorem run_synced : HardSynced (n.run events) :=
  GuardedRun.induction_run (P := OwnStore) (fun _ _ hn he => (step_voteStep hn he).1.synced) hs h

theorem run_term_le : n.currentTerm ≤ (n.run events).currentTerm := by
  induction events generalizing n with
  | nil => exact Nat.le_refl _
  | cons e rest ih =>
    have hstep := (step_voteStep hs h.1).1
    exact Nat.le_trans hstep.term_le (ih hstep.synced h.2)

end

end

/-- **Election safety with crashes.**  A booted node gives one vote per term and its term
never goes back; two candidates with a quorum of one voter set behind them in one term
are the same node. -/
theorem electionSafety :
    (∀ (n : RaftNode σ) (es fs : List (NodeEvent σ)), n.Booted → Along OwnStore n (es ++ fs) →
      (∀ t c c', (t, c) ∈ n.grants (es ++ fs) → (t, c') ∈ n.grants (es ++ fs) → c = c') ∧
        (n.run es).currentTerm ≤ (n.run (es ++ fs)).currentTerm) ∧
    (∀ (voters : Finset String) (start : String → RaftNode σ)
      (events : String → List (NodeEvent σ)),
      (∀ v ∈ voters, (start v).Booted ∧ Along OwnStore (start v) (events v)) →
      ∀ (a b : RaftNode σ) (A B : Finset String) (t : Nat),
        a.peers.length + 1 = voters.card → b.peers.length + 1 = voters.card →
        A ⊆ voters → B ⊆ voters → a.quorumSize ≤ A.card → b.quorumSize ≤ B.card →
        (∀ v ∈ A, (t, a.id) ∈ (start v).grants (events v)) →
        (∀ v ∈ B, (t, b.id) ∈ (start v).grants (events v)) → a.id = b.id) := by
  refine ⟨?_, ?_⟩
  · intro n es fs hb h
    refine ⟨fun t c c' hc hc' => grants_unique hb.synced h hc hc', ?_⟩
    obtain ⟨hes, hfs⟩ := GuardedRun.along_append.mp h
    rw [run, run, GuardedRun.run_append]
    exact run_term_le (run_synced hb.synced hes) hfs
  · intro voters start events hv a b A B t ha hb hA hB hqa hqb hga hgb
    -- two majorities of the voter set share a voter, who voted once in the term
    have hcard : voters.card < A.card + B.card := by
      unfold quorumSize at hqa hqb
      omega
    obtain ⟨v, hmem⟩ := Finset.inter_nonempty_of_card_lt_card_add_card hA hB hcard
    obtain ⟨hvA, hvB⟩ := Finset.mem_inter.mp hmem
    obtain ⟨hboot, hrun⟩ := hv v (hA hvA)
    exact grants_unique hboot.synced hrun (hga v hvA) (hgb v hvB)

end Votes

/-! ## What a pre-vote says about the vote -/

section Prediction
variable [RaftStorage σ]

theorem voteGranted_castVote (n : RaftNode σ) (args : RequestVoteArgs) :
    (n.castVote args).1.voteGranted =
      n.shouldGrantVote args.candidateId args.term args.lastLogIndex args.lastLogTerm := by
  unfold castVote
  cases n.shouldGrantVote args.candidateId args.term args.lastLogIndex args.lastLogTerm <;> rfl

variable [HmacSha256]

/-- The vote request with the values of a pre-vote. -/
def voteAfter (pre : PreVoteArgs) (timestampMs : Nat) (hmac : Option Mac) : RequestVoteArgs :=
  ⟨pre.term, pre.candidateId, pre.lastLogIndex, pre.lastLogTerm, timestampMs, hmac⟩

/-- If the pre-vote is granted, so is the vote request in the same state. -/
def PredictsVote (n : RaftNode σ) (clock : Clock) (pre : PreVoteArgs) (clock' : Clock)
    (args : RequestVoteArgs) : Prop :=
  (n.handlePreVote clock pre).voteGranted = true →
    (n.handleRequestVote clock' args).1.voteGranted = true

/-- What a verified vote request is granted on: an adopted term clears the vote. -/
theorem handleRequestVote_granted_iff {n : RaftNode σ} {clock : Clock} {args : RequestVoteArgs}
    (h : (n.verifyRequestVote clock args).1 = true) :
    (n.handleRequestVote clock args).1.voteGranted = true ↔
      (n.currentTerm < args.term ∨ n.currentTerm = args.term ∧
        ∀ voted ∈ n.votedFor, voted = args.candidateId) ∧
      upToDate n.log args.lastLogIndex args.lastLogTerm = true := by
  obtain ⟨cache, m, rfl, ⟨hrefused, -⟩ | ⟨-, hvote⟩⟩ := n.handleRequestVote_cases clock args
  · rw [h] at hrefused
    cases hrefused
  rw [hvote, voteGranted_castVote]
  unfold shouldGrantVote adoptTerm
  split
  next hlt =>
    unfold becomeFollower persistHardState
    simp [hlt]
  next hle =>
    rcases Nat.lt_or_eq_of_le (Nat.le_of_not_lt hle) with hbelow | hsame
    · simp [hbelow, hle, Nat.ne_of_gt hbelow]
    · cases n.votedFor <;> simp [hsame]

/-- **A pre-vote predicts the vote** exactly if its term is not the term of the node, or the node
has voted for no other candidate in it, or the pre-vote is refused because a leader was heard of
recently or the log of the candidate is behind.  `handle_pre_vote` does not read `voted_for`. -/
theorem predictsVote_iff (n : RaftNode σ) (clock clock' : Clock) (pre : PreVoteArgs)
    (timestampMs : Nat) (hmac : Option Mac) (hpre : n.verifyPreVote clock pre = true)
    (hargs : (n.verifyRequestVote clock' (voteAfter pre timestampMs hmac)).1 = true) :
    n.PredictsVote clock pre clock' (voteAfter pre timestampMs hmac) ↔
      pre.term < n.currentTerm ∨ n.currentTerm < pre.term ∨
      (∀ voted ∈ n.votedFor, voted = pre.candidateId) ∨
      n.heardLeaderRecently clock.wallMs = true ∨
      upToDate n.log pre.lastLogIndex pre.lastLogTerm = false := by
  unfold PredictsVote
  rw [handlePreVote_granted_iff, handleRequestVote_granted_iff hargs]
  simp only [voteAfter, hpre, true_and]
  generalize (∀ voted ∈ n.votedFor, voted = pre.candidateId) = votedForNoOther
  rcases Nat.lt_trichotomy pre.term n.currentTerm with hlt | heq | hgt
  · simp [hlt]
  · rw [heq]
    cases n.heardLeaderRecently clock.wallMs <;>
      cases upToDate n.log pre.lastLogIndex pre.lastLogTerm <;> simp
  · simp [hgt]

end Prediction

section Sample
attribute [local instance] noSnapshotCodec hmacSha256

def freshVoter (id : String) : RaftNode InMemoryStorage :=
  { (new id (["n1", "n2", "n3"].filter (· ≠ id)) 1000 0 : RaftNode InMemoryStorage) with
    clusterSecret := some sampleSecret }

def bootedVoter (id : String) : RaftNode InMemoryStorage :=
  ((freshVoter id).attachStorage (sampleClock 0) {}).2

theorem bootedVoter_booted (id : String) : (bootedVoter id).Booted :=
  ⟨freshVoter id, sampleClock 0, {}, ⟨rfl, rfl, rfl, rfl, rfl, rfl, rfl, rfl, rfl⟩, rfl⟩

def voteRequest (candidate : String) : RequestVoteArgs := signedVote 1 candidate 0 0 1000

/-- `n1` stands in term 1; `n2` votes for it, crashes, and is asked again by `n3`. -/
def firstElection (id : String) : List (NodeEvent InMemoryStorage) :=
  if id = "n1" then [.tryBecomeCandidate 0]
  else if id = "n2" then
    [.handleRequestVote (sampleClock 1000) (voteRequest "n1"),
      .restart (sampleClock 1001) (freshVoter "n2"),
      .handleRequestVote (sampleClock 1002) (voteRequest "n3")]
  else []

theorem firstElection_ownStore (id : String) :
    Along OwnStore (bootedVoter id) (firstElection id) := by
  unfold firstElection
  split
  · exact ⟨trivial, trivial⟩
  split
  · rename_i h
    rw [h]
    refine ⟨trivial, ⟨⟨rfl, rfl, rfl, rfl, rfl, rfl, rfl, rfl, rfl⟩, ?_⟩, trivial, trivial⟩
    unfold voteRequest
    rw [hmacSha256_eq]
    decide +kernel
  · trivial

/-- The restarted voter keeps its vote of term 1, and the winner of term 1 is `n1`. -/
theorem electionSafety_first_election :
    (∀ c, (1, c) ∈ (bootedVoter "n2").grants (firstElection "n2") → "n1" = c) ∧
      ((bootedVoter "n1").run (firstElection "n1")).id = (freshVoter "n1").id := by
  have hn1 : (1, "n1") ∈ (bootedVoter "n1").grants (firstElection "n1") := by decide +kernel
  have hn2 : (1, "n1") ∈ (bootedVoter "n2").grants (firstElection "n2") := by
    unfold firstElection voteRequest
    rw [hmacSha256_eq]
    decide +kernel
  refine ⟨fun c hc => ?_, ?_⟩
  · exact (electionSafety.1 (bootedVoter "n2") (firstElection "n2") []
      (bootedVoter_booted "n2") (by simpa using firstElection_ownStore "n2")).1 1 "n1" c
      (by simpa using hn2) (by simpa using hc)
  refine electionSafety.2 {"n1", "n2", "n3"} bootedVoter firstElection
    (fun v _ => ⟨bootedVoter_booted v, firstElection_ownStore v⟩)
    ((bootedVoter "n1").run (firstElection "n1")) (freshVoter "n1") {"n1", "n2"}
    {"n1", "n2"} 1 (by decide) (by decide) (by decide) (by decide) (by decide) (by decide)
    ?_ ?_ <;>
  · intro v hv
    rcases Finset.mem_insert.mp hv with rfl | hv
    · exact hn1
    · rw [Finset.mem_singleton.mp hv]
      exact hn2

def preVoteRequest (candidate : String) : PreVoteArgs :=
  let args : PreVoteArgs := {
    term := 1, candidateId := candidate, lastLogIndex := 0, lastLogTerm := 0
    timestampMs := 1000, hmac := none }
  { args with hmac := some (args.computeHmac sampleSecret) }

/-- A voter of term 1 that has voted for `n1`. -/
def committedVoter : RaftNode InMemoryStorage :=
  { freshVoter "n2" with currentTerm := 1, votedFor := some "n1" }

theorem preVote_verified (candidate : String) (h : candidate = "n1" ∨ candidate = "n3") :
    committedVoter.verifyPreVote (sampleClock 1000) (preVoteRequest candidate) = true ∧
      (committedVoter.verifyRequestVote (sampleClock 1000)
        (voteAfter (preVoteRequest candidate) 1000 (voteRequest candidate).hmac)).1 = true := by
  unfold preVoteRequest voteRequest
  rw [hmacSha256_eq]
  rcases h with rfl | rfl <;> decide +kernel

/-- The voter gives `n1` the pre-vote of term 1, and the vote again. -/
theorem predictsVote_iff_same_candidate :
    committedVoter.PredictsVote (sampleClock 1000) (preVoteRequest "n1") (sampleClock 1000)
      (voteAfter (preVoteRequest "n1") 1000 (voteRequest "n1").hmac) :=
  (predictsVote_iff committedVoter _ _ _ _ _ (preVote_verified "n1" (.inl rfl)).1
    (preVote_verified "n1" (.inl rfl)).2).mpr (.inr (.inr (.inl (by decide))))

/-- It grants `n3` the pre-vote of that term, not the vote. -/
theorem preVote_granted_after_vote :
    committedVoter.verifyPreVote (sampleClock 1000) (preVoteRequest "n3") = true ∧
      (committedVoter.verifyRequestVote (sampleClock 1000)
        (voteAfter (preVoteRequest "n3") 1000 (voteRequest "n3").hmac)).1 = true ∧
      ¬ committedVoter.PredictsVote (sampleClock 1000) (preVoteRequest "n3") (sampleClock 1000)
        (voteAfter (preVoteRequest "n3") 1000 (voteRequest "n3").hmac) := by
  refine ⟨(preVote_verified "n3" (.inr rfl)).1, (preVote_verified "n3" (.inr rfl)).2, ?_⟩
  unfold PredictsVote preVoteRequest voteRequest
  rw [hmacSha256_eq]
  decide +kernel

end Sample

end RaftNode

end CratonHsm
