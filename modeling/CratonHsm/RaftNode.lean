import CratonHsm.RaftLog
import CratonHsm.RaftReplayCache
import CratonHsm.RaftRateLimiter
import CratonHsm.RaftStateMachine
import CratonHsm.RaftStorage

/-!
# The consensus node

The state of `RaftNode` and its role transitions.  Methods that take `&mut self`
become functions that return the node afterwards; atomics and locked maps behind
`&self` are part of that state.  A method that reads the clock takes the readings as
a `Clock`, and a random choice takes the number the generator would be asked for.

The node is generic in the type of its store.  A store operation that fails is logged
and otherwise ignored by the source, except where an error is returned; so the
persistence helpers keep the store the operation leaves behind and drop its verdict.
-/

namespace CratonHsm
open Std PrefixFreeCode

/-- The clock readings of one call, in the order the source takes them: for the
freshness window, for the replay cache, the later wall-clock reading, and the
monotonic clock. -/
structure Clock where
  freshnessMs : Nat
  replayMs : Nat
  wallMs : Nat
  monotonicMs : Nat

/-- `gen_range(lo..=hi)`, as a function of the number drawn. -/
def genRange (draw lo hi : Nat) : Nat := lo + draw % (hi - lo + 1)

/-- `MAX_FUTURE_SKEW_MS`. -/
def maxFutureSkewMs : Nat := 1000

/-- A partially received snapshot. -/
structure SnapshotChunkBuffer where
  data : Bytes
  totalSize : Nat
  lastIncludedIndex : Nat
  lastIncludedTerm : Nat

/-- A node of the cluster, with the fields that the modelled calls read. -/
structure RaftNode (σ : Type) where
  id : String
  state : RaftState := .follower
  currentTerm : Nat := 0
  votedFor : Option String := none
  log : RaftLog := {}
  peers : List String
  baseElectionTimeoutMs : Nat
  electionTimeoutMs : Nat
  lastHeartbeatMs : Nat := 0
  lastHeartbeatMonotonicMs : Nat := 0
  clusterSecret : Option Secret := none
  maxMessageAgeMs : Nat := 30000
  maxFutureSkewMs : Nat := CratonHsm.maxFutureSkewMs
  nextIndex : ExtTreeMap String Nat := ∅
  matchIndex : ExtTreeMap String Nat := ∅
  replayCache : ReplayCache := {}
  storage : Option σ := none
  stateMachine : Option ClusterStateMachine := none
  lastSnapshotIndex : Nat := 0
  lastSnapshotTerm : Nat := 0
  /-- Number of entries between automatic snapshots; 0 disables them. -/
  snapshotInterval : Nat := 0
  voteRateLimiter : VoteRateLimiter
  lastConfigChangeAt : ExtTreeMap String Nat := ∅
  minConfigChangeIntervalMs : Nat := 500
  snapshotChunkBuffers : ExtTreeMap String SnapshotChunkBuffer := ∅
  recentDepartedPeers : ExtTreeMap String Nat := ∅
  forgedReplyRejects : Nat := 0
  forgedSnapshotRejects : Nat := 0
  /-- The leader of the last AppendEntries accepted in the current term. -/
  currentLeaderHint : Option String := none
  acceptLegacyReplyHmacTags : Bool := true
  legacyReplyHmacAccepts : Nat := 0
  applyHalted : Bool := false

namespace RaftNode
variable {σ : Type}

/-- The election timeout with its jitter. -/
def jitteredTimeout (base draw : Nat) : Nat :=
  base + if 0 < base / 2 then genRange draw 0 (base / 2) else 0

/-- `RaftNode::with_vote_rate_limiter_config`. -/
def withVoteRateLimiterConfig (id : String) (peers : List String)
    (baseElectionTimeoutMs draw : Nat) (cfg : VoteRateLimiterConfig) : RaftNode σ where
  id := id
  peers := peers
  baseElectionTimeoutMs := baseElectionTimeoutMs
  electionTimeoutMs := jitteredTimeout baseElectionTimeoutMs draw
  voteRateLimiter := VoteRateLimiter.new cfg.capacity cfg.refillIntervalMs

/-- `RaftNode::new`: a follower at term 0 without a cluster secret. -/
def new (id : String) (peers : List String) (baseElectionTimeoutMs draw : Nat) : RaftNode σ :=
  withVoteRateLimiterConfig id peers baseElectionTimeoutMs draw
    (VoteRateLimiterConfig.adaptiveForClusterSize (peers.length + 1))

def setClusterSecret (n : RaftNode σ) (secret : Secret) : RaftNode σ :=
  { n with clusterSecret := some secret }

/-- The node gets a state machine. -/
def attachStateMachine (n : RaftNode σ) (sm : ClusterStateMachine) : RaftNode σ :=
  { n with stateMachine := some sm }

/-- `RaftNode::last_snapshot`. -/
def lastSnapshot (n : RaftNode σ) : Nat × Nat := (n.lastSnapshotIndex, n.lastSnapshotTerm)

/-! ## Persistence helpers -/

section Persistence
variable [RaftStorage σ]

/-- Term and vote are written; a failure is ignored. -/
def persistHardState (n : RaftNode σ) : RaftNode σ :=
  { n with storage :=
      n.storage.map fun s => (RaftStorage.saveHardState s ⟨n.currentTerm, n.votedFor⟩).2 }

/-- `persist_appended`, on the store alone. -/
def persistAppended (storage : Option σ) (entries : List LogEntry) : Option σ :=
  storage.map fun s => (RaftStorage.appendLog s entries).2

/-- `persist_truncate`, on the store alone. -/
def persistTruncate (storage : Option σ) (after : Nat) : Option σ :=
  storage.map fun s => (RaftStorage.truncateLogAfter s after).2

/-- The storage is synced; a failure is ignored. -/
def syncCommittedStateBestEffort (n : RaftNode σ) : RaftNode σ :=
  { n with storage := n.storage.map fun s => (RaftStorage.syncAllCommittedState s).2 }

/-! ## Role transitions -/

/-- `try_become_candidate`; `none` is `RaftError::TermOverflow`. -/
def tryBecomeCandidate (n : RaftNode σ) (draw : Nat) : Option (RaftNode σ) :=
  (Term.checkedNext n.currentTerm).map fun next =>
    persistHardState { n with
      currentTerm := next
      state := .candidate
      votedFor := some n.id
      electionTimeoutMs := jitteredTimeout n.baseElectionTimeoutMs draw }

/-- The node steps down, and forgets its vote if the term is newer. -/
def becomeFollower (n : RaftNode σ) (term : Nat) : RaftNode σ :=
  persistHardState { n with
    state := .follower
    currentTerm := term
    votedFor := if n.currentTerm < term then none else n.votedFor
    currentLeaderHint := if n.currentTerm < term then none else n.currentLeaderHint }

end Persistence

/-- A candidate leads, with fresh indices for its peers. -/
def becomeLeader (n : RaftNode σ) : RaftNode σ :=
  let last := n.log.lastIndex
  { n with
    state := .leader
    nextIndex := n.peers.foldl (fun m p => m.insert p (last + 1)) ∅
    matchIndex := n.peers.foldl (fun m p => m.insert p 0) ∅ }

/-- The node leads. -/
def isLeader (n : RaftNode σ) : Bool := n.state = .leader

/-- `leader_lease_is_valid`: a clock behind the last heartbeat fails closed. -/
def leaderLeaseIsValid (n : RaftNode σ) (nowMs : Nat) : Bool :=
  n.state = .leader && n.lastHeartbeatMs ≤ nowMs &&
    nowMs - n.lastHeartbeatMs < n.electionTimeoutMs

/-- Nodes, including self, needed for a majority. -/
def quorumSize (n : RaftNode σ) : Nat := (n.peers.length + 1) / 2 + 1

/-- The leader was heard now. -/
def recordHeartbeat (n : RaftNode σ) (clock : Clock) : RaftNode σ :=
  { n with lastHeartbeatMs := clock.wallMs, lastHeartbeatMonotonicMs := clock.monotonicMs }

/-- The up-to-date comparison of the two vote paths. -/
def upToDate (l : RaftLog) (lastLogIndex : Nat) (lastLogTerm : Nat) : Bool :=
  if l.lastTerm < lastLogTerm then true
  else if lastLogTerm = l.lastTerm then l.lastIndex ≤ lastLogIndex
  else false

/-- Term, vote and log allow the vote. -/
def shouldGrantVote (n : RaftNode σ) (candidateId : String) (candidateTerm : Nat)
    (candidateLastLogIndex : Nat) (candidateLastLogTerm : Nat) : Bool :=
  if candidateTerm < n.currentTerm then false
  else if n.votedFor.any (fun voted => voted ≠ candidateId) then false
  else upToDate n.log candidateLastLogIndex candidateLastLogTerm

/-! ## Membership -/

/-- `sync_peers_from_voters`: replication state of surviving peers is kept, a leader
seeds it for new ones, and departed peers stay on the allowlist for a grace period. -/
def syncPeersFromVoters (n : RaftNode σ) (clock : Clock) (voters : List String) : RaftNode σ :=
  let newPeers := voters.filter (fun v => v ≠ n.id)
  let surviving (k : String) (_ : Nat) : Bool := newPeers.contains k
  let seed (m : ExtTreeMap String Nat) (v : Nat) : ExtTreeMap String Nat :=
    if n.state = .leader then newPeers.foldl (fun m p => m.insertIfNew p v) m else m
  let now := clock.monotonicMs
  let leaving := n.peers.filter (fun p => !newPeers.contains p)
  let departed := (leaving.foldl (fun m p => m.insert p now) n.recentDepartedPeers).filter
    (fun _ ts => now - ts < n.electionTimeoutMs)
  let allowed := ((ExtTreeSet.ofList newPeers).insert n.id).insertMany departed.keys
  { n with
    nextIndex := seed (n.nextIndex.filter surviving) (n.log.lastIndex + 1)
    matchIndex := seed (n.matchIndex.filter surviving) 0
    lastConfigChangeAt := n.lastConfigChangeAt.filter surviving
    recentDepartedPeers := departed
    voteRateLimiter := n.voteRateLimiter.setAllowedPeers (some allowed)
    peers := newPeers }

end RaftNode

end CratonHsm
