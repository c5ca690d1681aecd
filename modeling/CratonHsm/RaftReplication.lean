import Mathlib.Data.List.Sort
import CratonHsm.RaftApply
import CratonHsm.RaftElection

/-!
# Log replication

The follower's half (`handle_append_entries`) and the leader's half
(`submit_command`, `prepare_append_entries`, `handle_append_entries_reply`,
`advance_commit_index`) of log replication.
-/

namespace CratonHsm
open Std PrefixFreeCode

/-- What the append loop of `handle_append_entries` changes. -/
structure AppendProgress (σ : Type) where
  log : RaftLog
  storage : Option σ
  newlyAppended : List LogEntry := []

namespace AppendProgress
variable {σ : Type}

/-- Append one entry to the log and to the persistence buffer. -/
def push (p : AppendProgress σ) (entry : LogEntry) : AppendProgress σ :=
  { p with log := p.log.append entry, newlyAppended := p.newlyAppended ++ [entry] }

/-- The append loop; `false` when a conflict would cut committed or applied entries. -/
def appendLoop [RaftStorage σ] (p : AppendProgress σ) :
    List LogEntry → Bool × AppendProgress σ
  | [] => (true, p)
  | entry :: rest =>
    match p.log.get entry.index with
    | some existing =>
      if existing.term ≠ entry.term then
        match p.log.truncateAfter (entry.index - 1) with
        | .error _ => (false, p)
        | .ok log =>
          let storage := RaftNode.persistTruncate p.storage (entry.index - 1)
          appendLoop (push { p with log := log, storage := storage } entry) rest
      else appendLoop p rest
    | none => appendLoop (p.push entry) rest

end AppendProgress

/-- Every window of two entries has consecutive indices. -/
def consecutive : List LogEntry → Bool
  | a :: b :: rest => b.index = a.index + 1 && consecutive (b :: rest)
  | _ => true

/-- Index of the last entry the request covers. -/
def AppendEntriesArgs.lastNew (a : AppendEntriesArgs) : Nat :=
  a.entries.getLast?.elim a.prevLogIndex LogEntry.index

namespace RaftNode
variable {σ : Type} [RaftStorage σ]

/-! ## The follower -/

/-- Step down for a higher term, or concede a same-term election. -/
def concede (n : RaftNode σ) (term : Nat) : RaftNode σ :=
  if n.currentTerm < term then n.becomeFollower term
  else if n.state ≠ .follower then n.becomeFollower term
  else n

/-- Record the leader's identity and its heartbeat. -/
def noteLeader (n : RaftNode σ) (clock : Clock) (leaderId : String) : RaftNode σ :=
  recordHeartbeat { n with currentLeaderHint := some leaderId } clock

/-- The consistency check on the entry before the batch. -/
def checkPrevLog (n : RaftNode σ) (prevLogIndex : Nat) (prevLogTerm : Nat) :
    Bool × RaftNode σ :=
  if prevLogIndex = 0 then (true, n)
  else if prevLogIndex < n.lastSnapshotIndex then (false, n)
  else if prevLogIndex = n.lastSnapshotIndex then (prevLogTerm = n.lastSnapshotTerm, n)
  else
    match n.log.get prevLogIndex with
    | none => (false, n)
    | some entry =>
      if entry.term ≠ prevLogTerm then
        match n.log.truncateAfter (prevLogIndex - 1) with
        | .error _ => (false, n)
        | .ok log =>
          (false, { n with log := log, storage := persistTruncate n.storage (prevLogIndex - 1) })
      else (true, n)

/-- The append loop, and the persistence of what it appended. -/
def appendBatch (n : RaftNode σ) (entries : List LogEntry) : Bool × RaftNode σ :=
  if consecutive entries then
    let (done, p) := AppendProgress.appendLoop { log := n.log, storage := n.storage } entries
    if done then
      (true, { n with
        log := p.log
        storage := if p.newlyAppended = [] then p.storage
          else persistAppended p.storage p.newlyAppended })
    else (false, { n with log := p.log, storage := p.storage })
  else (false, n)

/-- Advance the commit index to what the leader has committed of this batch. -/
def followCommit (n : RaftNode σ) (args : AppendEntriesArgs) : RaftNode σ :=
  if n.log.committed < args.leaderCommit then
    syncCommittedStateBestEffort
      { n with log := n.log.commit (min args.leaderCommit args.lastNew) }
  else n

variable [HmacSha256] [SnapshotCodec]

/-- The part of `handle_append_entries` after the term check. -/
def acceptEntries (n : RaftNode σ) (clock : Clock) (args : AppendEntriesArgs) :
    Bool × RaftNode σ :=
  let n := (n.concede args.term).noteLeader clock args.leaderId
  let (consistent, n) := n.checkPrevLog args.prevLogIndex args.prevLogTerm
  if consistent then
    let (appended, n) := n.appendBatch args.entries
    if appended then (true, ((n.followCommit args).applyCommitted clock).maybeSnapshot)
    else (false, n)
  else (false, n)

/-- The follower's side of replication. -/
def handleAppendEntries (n : RaftNode σ) (clock : Clock) (args : AppendEntriesArgs) :
    AppendEntriesReply × RaftNode σ :=
  let (verified, n) := n.verifyAppendEntries clock args
  if verified = false ∨ args.term < n.currentTerm then
    ({ term := n.currentTerm, success := false }, n)
  else
    let (success, n) := n.acceptEntries clock args
    ({ term := n.currentTerm, success := success }, n)

/-- The node on which an accepted request makes its call of `apply_committed`. -/
def afterBatch (n : RaftNode σ) (clock : Clock) (args : AppendEntriesArgs) : RaftNode σ :=
  let m := ((n.verifyAppendEntries clock args).2.concede args.term).noteLeader clock args.leaderId
  (m.appendBatch args.entries).2.followCommit args

/-! ## The leader -/

/-- `advance_commit_index`: the upper median of the replicated indices, committed when
it is an entry of the current term. -/
def advanceCommitIndex (n : RaftNode σ) : RaftNode σ :=
  let matchIndices := n.peers.map (fun p => n.matchIndex[p]?.getD 0) ++ [n.log.lastIndex]
  let sorted := matchIndices.insertionSort (· ≤ ·)
  let newCommit := sorted.getD (sorted.length / 2) 0
  if n.log.committed < newCommit then
    match n.log.get newCommit with
    | some entry =>
      if entry.term = n.currentTerm then { n with log := n.log.commit newCommit } else n
    | none =>
      if newCommit ≤ n.lastSnapshotIndex ∧ n.lastSnapshotTerm = n.currentTerm then
        { n with log := n.log.commit newCommit }
      else n
  else n

/-- `submit_command`: the index of the new entry, or `none` if not the leader. -/
def submitCommand (n : RaftNode σ) (clock : Clock) (command : RaftCommand) :
    Option Nat × RaftNode σ :=
  if n.isLeader then
    let index := n.log.lastIndex + 1
    let entry : LogEntry := { term := n.currentTerm, index := index, command := command }
    let n := { n with
      log := n.log.append entry, storage := persistAppended n.storage [entry] }
    (some index, if n.peers = [] then n.advanceCommitIndex.applyCommitted clock else n)
  else (none, n)

/-- `prepare_append_entries_shared`, with `into_args` folded in. -/
def prepareAppendEntriesShared (n : RaftNode σ) (clock : Clock) (peerId : String)
    (baseNextIdx : Nat) (sharedEntries : List LogEntry) (roundHasConfigChange : Bool) :
    Option AppendEntriesArgs × RaftNode σ :=
  match n.isLeader, n.nextIndex[peerId]? with
  | true, some nextIdx =>
    let prevLogIndex := nextIdx - 1
    let prevLogTerm :=
      if prevLogIndex = 0 then 0
      else if prevLogIndex = n.lastSnapshotIndex then n.lastSnapshotTerm
      else (n.log.get prevLogIndex).elim 0 LogEntry.term
    let entries :=
      if baseNextIdx ≤ nextIdx then sharedEntries.drop (nextIdx - baseNextIdx)
      else n.log.entriesSliceFrom nextIdx
    let gated := roundHasConfigChange && entries.any (fun e => e.command.isConfigChange) &&
      decide (0 < n.minConfigChangeIntervalMs)
    let tooSoon := n.lastConfigChangeAt[peerId]?.any
      (fun last => clock.monotonicMs - last < n.minConfigChangeIntervalMs)
    if gated && tooSoon then (none, n)
    else
      let args : AppendEntriesArgs := {
        term := n.currentTerm, leaderId := n.id, prevLogIndex := prevLogIndex
        prevLogTerm := prevLogTerm, entries := entries, leaderCommit := n.log.committed
        timestampMs := clock.wallMs, hmac := none }
      (some { args with hmac := n.clusterSecret.map args.computeHmac },
        if gated then
          { n with lastConfigChangeAt := n.lastConfigChangeAt.insert peerId clock.monotonicMs }
        else n)
  | _, _ => (none, n)

/-- The signed request for a peer, from its next index on. -/
def prepareAppendEntries (n : RaftNode σ) (clock : Clock) (peerId : String) :
    Option AppendEntriesArgs × RaftNode σ :=
  match n.isLeader, n.nextIndex[peerId]? with
  | true, some nextIdx =>
    let sharedEntries := n.log.entriesSliceFrom nextIdx
    n.prepareAppendEntriesShared clock peerId nextIdx sharedEntries
      (sharedEntries.any (fun e => e.command.isConfigChange))
  | _, _ => (none, n)

/-- The per-peer loop of a replication round. -/
def replicateLoop (clock : String → Clock) (baseNextIdx : Nat) (sharedEntries : List LogEntry)
    (roundHasConfigChange : Bool) :
    List String → RaftNode σ → List (String × AppendEntriesArgs) × RaftNode σ
  | [], n => ([], n)
  | peer :: rest, n =>
    let (prepared, n) := n.prepareAppendEntriesShared (clock peer) peer baseNextIdx
      sharedEntries roundHasConfigChange
    let (messages, n) := replicateLoop clock baseNextIdx sharedEntries roundHasConfigChange rest n
    (prepared.elim messages (fun args => (peer, args) :: messages), n)

/-- `replicate_to_all`: one shared suffix, from the smallest next index. -/
def replicateToAll (n : RaftNode σ) (clock : String → Clock) :
    List (String × AppendEntriesArgs) × RaftNode σ :=
  if n.isLeader then
    let known := n.peers.filterMap (fun p => n.nextIndex[p]?)
    let baseNextIdx := known.min?.getD (n.log.lastIndex + 1)
    let sharedEntries := n.log.entriesSliceFrom baseNextIdx
    replicateLoop clock baseNextIdx sharedEntries
      (sharedEntries.any (fun e => e.command.isConfigChange)) n.peers n
  else ([], n)

/-- The bookkeeping of a success reply: the match index is rebuilt from the next index
as it is now and the number of entries sent then. -/
def recordSuccess (n : RaftNode σ) (peerId : String) (entriesSent : Nat) : RaftNode σ :=
  match n.nextIndex[peerId]? with
  | none => n
  | some ni =>
    let newMatch := ni - 1 + entriesSent
    { n with
      nextIndex := n.nextIndex.insert peerId (newMatch + 1)
      matchIndex := n.matchIndex.insert peerId newMatch }

/-- The backoff of a failure reply. -/
def backOff (n : RaftNode σ) (draw : Nat) (peerId : String) : RaftNode σ :=
  match n.nextIndex[peerId]? with
  | none => n
  | some ni =>
    if 1 < ni then
      let step := if 4 < ni then genRange draw 1 2 else 1
      { n with nextIndex := n.nextIndex.insert peerId (max (ni - step) 1) }
    else n

/-- The commit advance of a success reply, with its durability barrier. -/
def advanceAndSync (n : RaftNode σ) : RaftNode σ :=
  let m := n.advanceCommitIndex
  if n.log.committed < m.log.committed then m.syncCommittedStateBestEffort else m

/-- The leader's side: a success is counted, a failure backs off. -/
def handleAppendEntriesReply (n : RaftNode σ) (clock : Clock) (draw : Nat) (peerId : String)
    (reply : AppendEntriesReply) (entriesSent : Nat) : RaftNode σ :=
  let (verified, n) := n.verifyAppendEntriesReply clock reply
  if verified = false then { n with forgedReplyRejects := n.forgedReplyRejects + 1 }
  else if n.currentTerm < reply.term then n.becomeFollower reply.term
  else if reply.success then
    (((n.recordSuccess peerId entriesSent).advanceAndSync).applyCommitted clock).maybeSnapshot
  else n.backOff draw peerId

/-! ## What each part can change -/

section Frames
omit [HmacSha256] [SnapshotCodec]

/-- Whatever truncation of the store preserves, the append loop preserves. -/
theorem appendLoop_storage {R : Option σ → Prop}
    (htrunc : ∀ st after, R st → R (persistTruncate st after)) (entries : List LogEntry)
    (p : AppendProgress σ) (hp : R p.storage) : R (p.appendLoop entries).2.storage := by
  induction entries generalizing p with
  | nil => exact hp
  | cons e entries ih =>
    unfold AppendProgress.appendLoop
    split
    · split
      · split
        · exact hp
        · exact ih _ (htrunc _ _ hp)
      · exact ih p hp
    · exact ih _ hp

/-- The consistency check cuts the log at a conflicting entry, or changes nothing. -/
theorem checkPrevLog_node (n : RaftNode σ) (i t : Nat) :
    (n.checkPrevLog i t).2 = n ∨
      (n.checkPrevLog i t).1 = false ∧ ∃ e log, n.lastSnapshotIndex < i ∧ n.log.get i = some e ∧
        e.term ≠ t ∧ n.log.truncateAfter (i - 1) = .ok log ∧
        (n.checkPrevLog i t).2 =
          { n with log := log, storage := persistTruncate n.storage (i - 1) } := by
  unfold checkPrevLog
  split
  · exact .inl rfl
  split
  · exact .inl rfl
  split
  · exact .inl rfl
  split
  · exact .inl rfl
  rename_i e hget
  split
  · rename_i hterm
    split
    · exact .inl rfl
    rename_i log htrunc
    exact .inr ⟨rfl, e, log, by omega, hget, hterm, htrunc, rfl⟩
  · exact .inl rfl

/-- A batch changes the log and the store. -/
theorem appendBatch_node (n : RaftNode σ) (entries : List LogEntry) :
    ∃ log storage, (n.appendBatch entries).2 = { n with log := log, storage := storage } := by
  unfold appendBatch
  split
  · dsimp only
    split <;> exact ⟨_, _, rfl⟩
  · exact ⟨n.log, n.storage, rfl⟩

/-- Whatever the writes of a batch preserve, the batch preserves. -/
theorem appendBatch_storage {R : Option σ → Prop}
    (htrunc : ∀ st after, R st → R (persistTruncate st after))
    (happend : ∀ st es, R st → R (persistAppended st es)) (n : RaftNode σ)
    (entries : List LogEntry) (hn : R n.storage) : R (n.appendBatch entries).2.storage := by
  have hloop := appendLoop_storage htrunc entries { log := n.log, storage := n.storage } hn
  unfold appendBatch
  split
  · dsimp only
    split
    · split
      · exact hloop
      · exact happend _ _ hloop
    · exact hloop
  · exact hn

/-- Following the leader's commit moves the committed watermark, behind a barrier. -/
theorem followCommit_node (n : RaftNode σ) (args : AppendEntriesArgs) :
    n.followCommit args = n ∨ n.log.committed < args.leaderCommit ∧
      n.followCommit args = syncCommittedStateBestEffort
        { n with log := n.log.commit (min args.leaderCommit args.lastNew) } := by
  unfold followCommit
  split
  · rename_i h
    exact .inr ⟨h, rfl⟩
  · exact .inl rfl

omit [RaftStorage σ] in
/-- The commit advance moves the committed watermark. -/
theorem advanceCommitIndex_node (n : RaftNode σ) :
    n.advanceCommitIndex = n ∨ ∃ i, n.log.committed < i ∧
      n.advanceCommitIndex = { n with log := n.log.commit i } := by
  unfold advanceCommitIndex
  dsimp only
  split
  · rename_i h
    split
    · split
      · exact .inr ⟨_, h, rfl⟩
      · exact .inl rfl
    · split
      · exact .inr ⟨_, h, rfl⟩
      · exact .inl rfl
  · exact .inl rfl

theorem advanceAndSync_node (n : RaftNode σ) :
    n.advanceAndSync = n.advanceCommitIndex ∨
      n.advanceAndSync = n.advanceCommitIndex.syncCommittedStateBestEffort := by
  unfold advanceAndSync
  dsimp only
  split
  · exact .inr rfl
  · exact .inl rfl

omit [RaftStorage σ] in
/-- The replication bookkeeping changes nothing but its two maps. -/
theorem recordSuccess_node (n : RaftNode σ) (peerId : String) (sent : Nat) :
    ∃ next matched, n.recordSuccess peerId sent =
      { n with nextIndex := next, matchIndex := matched } := by
  unfold recordSuccess
  split
  · exact ⟨n.nextIndex, n.matchIndex, rfl⟩
  · exact ⟨_, _, rfl⟩

omit [RaftStorage σ] in
theorem backOff_node (n : RaftNode σ) (draw : Nat) (peerId : String) :
    ∃ next, n.backOff draw peerId = { n with nextIndex := next } := by
  unfold backOff
  split
  · exact ⟨n.nextIndex, rfl⟩
  · split
    · exact ⟨_, rfl⟩
    · exact ⟨n.nextIndex, rfl⟩

end Frames

omit [HmacSha256] in
/-- **The three ways AppendEntries goes** once the term is settled: refused at the entry
before the batch, refused at a conflict inside it, or accepted. -/
theorem acceptEntries_cases (n : RaftNode σ) (clock : Clock) (args : AppendEntriesArgs) :
    ∃ m, m = (n.concede args.term).noteLeader clock args.leaderId ∧
      ((m.checkPrevLog args.prevLogIndex args.prevLogTerm).1 = false ∧
        n.acceptEntries clock args =
          (false, (m.checkPrevLog args.prevLogIndex args.prevLogTerm).2) ∨
      (m.checkPrevLog args.prevLogIndex args.prevLogTerm).1 = true ∧
        ((m.appendBatch args.entries).1 = false ∧
          n.acceptEntries clock args = (false, (m.appendBatch args.entries).2) ∨
        (m.appendBatch args.entries).1 = true ∧ n.acceptEntries clock args = (true,
          (((m.appendBatch args.entries).2.followCommit args).applyCommitted
            clock).maybeSnapshot))) := by
  refine ⟨_, rfl, ?_⟩
  unfold acceptEntries
  generalize (n.concede args.term).noteLeader clock args.leaderId = m
  have hnode := m.checkPrevLog_node args.prevLogIndex args.prevLogTerm
  dsimp only
  rcases hc : (m.checkPrevLog args.prevLogIndex args.prevLogTerm).1 with _ | _
  · exact .inl ⟨rfl, by rw [if_neg Bool.false_ne_true]⟩
  refine .inr ⟨rfl, ?_⟩
  rcases hnode with hsame | ⟨hfalse, -⟩
  · rw [if_pos rfl, hsame]
    cases hb : (m.appendBatch args.entries).1 with
    | false => exact .inl ⟨rfl, by rw [if_neg Bool.false_ne_true]⟩
    | true => exact .inr ⟨rfl, by rw [if_pos rfl]⟩
  · rw [hc] at hfalse
    cases hfalse

/-- **The two ways an AppendEntries request goes**: refused by verification or for its
term, or handed on. -/
theorem handleAppendEntries_cases (n : RaftNode σ) (clock : Clock) (args : AppendEntriesArgs) :
    ∃ cache m, m = { n with replayCache := cache } ∧ m = (n.verifyAppendEntries clock args).2 ∧
      (((n.verifyAppendEntries clock args).1 = false ∨ args.term < n.currentTerm) ∧
        n.handleAppendEntries clock args = ({ term := m.currentTerm, success := false }, m) ∨
      (n.verifyAppendEntries clock args).1 = true ∧ n.currentTerm ≤ args.term ∧
        n.handleAppendEntries clock args =
          ({ term := (m.acceptEntries clock args).2.currentTerm,
             success := (m.acceptEntries clock args).1 }, (m.acceptEntries clock args).2)) := by
  obtain ⟨cache, hc⟩ := n.verifyAppendEntries_node clock args
  refine ⟨cache, _, hc, rfl, ?_⟩
  have hterm : (n.verifyAppendEntries clock args).2.currentTerm = n.currentTerm := by rw [hc]
  unfold handleAppendEntries
  dsimp only
  split
  · rename_i hor
    exact .inl ⟨hterm ▸ hor, rfl⟩
  · rename_i hor
    rw [not_or, Bool.not_eq_false, hterm] at hor
    exact .inr ⟨hor.1, Nat.le_of_not_lt hor.2, rfl⟩

/-- **The four ways a reply goes**: forged, of a later term, success, failure. -/
theorem handleAppendEntriesReply_cases (n : RaftNode σ) (clock : Clock) (draw : Nat)
    (peerId : String) (reply : AppendEntriesReply) (sent : Nat) :
    ∃ accepts m, m = { n with legacyReplyHmacAccepts := accepts } ∧
      m = (n.verifyAppendEntriesReply clock reply).2 ∧
      ((n.verifyAppendEntriesReply clock reply).1 = false ∧
        n.handleAppendEntriesReply clock draw peerId reply sent =
          { m with forgedReplyRejects := m.forgedReplyRejects + 1 } ∨
      (n.verifyAppendEntriesReply clock reply).1 = true ∧ n.currentTerm < reply.term ∧
        n.handleAppendEntriesReply clock draw peerId reply sent = m.becomeFollower reply.term ∨
      (n.verifyAppendEntriesReply clock reply).1 = true ∧ reply.term ≤ n.currentTerm ∧
        reply.success = true ∧ n.handleAppendEntriesReply clock draw peerId reply sent =
          (((m.recordSuccess peerId sent).advanceAndSync).applyCommitted clock).maybeSnapshot ∨
      (n.verifyAppendEntriesReply clock reply).1 = true ∧ reply.term ≤ n.currentTerm ∧
        reply.success = false ∧
        n.handleAppendEntriesReply clock draw peerId reply sent = m.backOff draw peerId) := by
  obtain ⟨accepts, hc⟩ := n.authenticateReply_node clock reply.timestampMs reply.hmac
    (fun legacy s => reply.computeHmac legacy s)
  change (n.verifyAppendEntriesReply clock reply).2 = _ at hc
  refine ⟨accepts, _, hc, rfl, ?_⟩
  have hterm : (n.verifyAppendEntriesReply clock reply).2.currentTerm = n.currentTerm := by
    rw [hc]
  unfold handleAppendEntriesReply
  dsimp only
  rw [hterm]
  split
  · rename_i hv
    exact .inl ⟨hv, rfl⟩
  rename_i hv
  rw [Bool.not_eq_false] at hv
  split
  · rename_i hlt
    exact .inr (.inl ⟨hv, hlt, rfl⟩)
  rename_i hle
  cases hs : reply.success with
  | true => exact .inr (.inr (.inl ⟨hv, Nat.le_of_not_lt hle, rfl, by rw [if_pos rfl]⟩))
  | false =>
    exact .inr (.inr (.inr ⟨hv, Nat.le_of_not_lt hle, rfl, by rw [if_neg Bool.false_ne_true]⟩))

/-- The entry `submit_command` appends. -/
def newEntry (n : RaftNode σ) (command : RaftCommand) : LogEntry where
  term := n.currentTerm
  index := n.log.lastIndex + 1
  command := command

omit [HmacSha256] [SnapshotCodec] in
/-- **The two ways `submit_command` goes**: not the leader, or one entry appended, and
committed at once in a cluster of one. -/
theorem submitCommand_cases (n : RaftNode σ) (clock : Clock) (command : RaftCommand) :
    n.state ≠ .leader ∧ n.submitCommand clock command = (none, n) ∨
      n.state = .leader ∧ ∃ m, m = { n with
          log := n.log.append (n.newEntry command)
          storage := persistAppended n.storage [n.newEntry command] } ∧
        (n.submitCommand clock command).1 = some (n.log.lastIndex + 1) ∧
        (n.peers = [] ∧
          (n.submitCommand clock command).2 = m.advanceCommitIndex.applyCommitted clock ∨
        n.peers ≠ [] ∧ (n.submitCommand clock command).2 = m) := by
  unfold submitCommand isLeader
  by_cases hl : n.state = .leader
  · rw [if_pos (decide_eq_true hl)]
    refine .inr ⟨hl, _, rfl, rfl, ?_⟩
    by_cases hp : n.peers = []
    · exact .inl ⟨hp, by dsimp only; rw [if_pos hp]; rfl⟩
    · exact .inr ⟨hp, by dsimp only; rw [if_neg hp]; rfl⟩
  · rw [if_neg (by simpa using hl)]
    exact .inl ⟨hl, rfl⟩

end RaftNode

end CratonHsm
