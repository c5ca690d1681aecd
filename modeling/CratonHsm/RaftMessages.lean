import CratonHsm.RaftCommand

/-!
# RPC messages and their MACs

The request and reply types of `raft.rs`, the byte string each of them feeds to
HMAC-SHA256, and the freshness window of an incoming message.  HMAC-SHA256 itself is
the `hmac`/`sha2` crates' and enters as the class `HmacSha256`; the comparison of two
digests is constant-time in the source and plain equality here.
-/

namespace CratonHsm
open PrefixFreeCode

/-- A MAC tag, `[u8; 32]`. -/
abbrev Mac := Vector UInt8 32

/-- The shared cluster secret, `[u8; 32]`. -/
abbrev Secret := Vector UInt8 32

/-- HMAC-SHA256 of a byte string under a secret. -/
class HmacSha256 where
  mac : Secret → Bytes → Mac

/-! ## Message types -/

/-- A candidate asks for a vote. -/
structure RequestVoteArgs where
  term : Nat
  candidateId : String
  lastLogIndex : Nat
  lastLogTerm : Nat
  timestampMs : Nat
  hmac : Option Mac
  deriving DecidableEq

/-- The answer to a request for a vote. -/
structure RequestVoteReply where
  term : Nat
  voteGranted : Bool
  timestampMs : Nat := 0
  hmac : Option Mac := none
  deriving DecidableEq

/-- A leader sends entries, or none as a heartbeat. -/
structure AppendEntriesArgs where
  term : Nat
  leaderId : String
  prevLogIndex : Nat
  prevLogTerm : Nat
  entries : List LogEntry
  leaderCommit : Nat
  timestampMs : Nat
  hmac : Option Mac
  deriving DecidableEq

/-- The answer to a batch of entries. -/
structure AppendEntriesReply where
  term : Nat
  success : Bool
  timestampMs : Nat := 0
  hmac : Option Mac := none
  deriving DecidableEq

/-- A leader sends a chunk of its snapshot. -/
structure InstallSnapshotArgs where
  term : Nat
  leaderId : String
  lastIncludedIndex : Nat
  lastIncludedTerm : Nat
  data : Bytes
  timestampMs : Nat
  hmac : Option Mac
  /-- Byte offset of this chunk within the full snapshot. -/
  offset : Nat := 0
  /-- Declared size of the full snapshot; 0 means `data.len()`. -/
  totalSize : Nat := 0
  /-- Whether this is the final chunk. -/
  lastChunk : Bool := true
  deriving DecidableEq

/-- The answer to a chunk. -/
structure InstallSnapshotReply where
  term : Nat
  timestampMs : Nat := 0
  hmac : Option Mac := none
  deriving DecidableEq

/-- A node asks whether it would get a vote. -/
structure PreVoteArgs where
  term : Nat
  candidateId : String
  lastLogIndex : Nat
  lastLogTerm : Nat
  timestampMs : Nat
  hmac : Option Mac
  deriving DecidableEq

/-- The answer to such a question. -/
structure PreVoteReply where
  term : Nat
  voteGranted : Bool
  timestampMs : Nat := 0
  hmac : Option Mac := none
  deriving DecidableEq

/-- A membership proposal. -/
structure ConfigChangeProposal where
  proposalId : String
  nodeId : String
  action : MembershipAction
  timestampMs : Nat
  deriving DecidableEq

/-- An authenticated approval of a membership proposal. -/
structure ConfigChangeApproval where
  proposalId : String
  approverId : String
  timestampMs : Nat
  hmac : Mac
  deriving DecidableEq

/-! ## Domain separation tags -/

def domainRequestVote : UInt8 := 0x01
def domainAppendEntries : UInt8 := 0x02
def domainInstallSnapshot : UInt8 := 0x03
def domainConfigChangeApproval : UInt8 := 0x04
def domainPreVote : UInt8 := 0x05
def domainReplyLegacy : UInt8 := 0x06
def domainReplyRequestVote : UInt8 := 0x10
def domainReplyAppendEntries : UInt8 := 0x11
def domainReplyInstallSnapshot : UInt8 := 0x12
def domainReplyPreVote : UInt8 := 0x13

/-! ## MAC inputs -/

/-- `u64::to_be_bytes`. -/
def u64Bytes (n : Nat) : Bytes := bigEndian 8 n

/-- `u8::from(bool)`. -/
def boolByte (b : Bool) : Bytes := [if b then 1 else 0]

/-- The body shared by the two vote requests. -/
def voteInput (tag : UInt8) (term : Nat) (candidateId : String) (lastLogIndex : Nat)
    (lastLogTerm : Nat) (timestampMs : Nat) : Bytes :=
  tag :: (u64Bytes term ++ (pushLp (asBytes candidateId) ++ (u64Bytes lastLogIndex ++
    (u64Bytes lastLogTerm ++ u64Bytes timestampMs))))

/-- The body shared by the replies that carry a verdict. -/
def verdictInput (tag : Bytes) (term : Nat) (verdict : Bool) (timestampMs : Nat) : Bytes :=
  tag ++ (u64Bytes term ++ (boolByte verdict ++ u64Bytes timestampMs))

/-- The bytes hashed by `compute_request_vote_hmac`. -/
def RequestVoteArgs.macInput (a : RequestVoteArgs) : Bytes :=
  voteInput domainRequestVote a.term a.candidateId a.lastLogIndex a.lastLogTerm a.timestampMs

/-- The bytes hashed by `compute_pre_vote_hmac`. -/
def PreVoteArgs.macInput (a : PreVoteArgs) : Bytes :=
  voteInput domainPreVote a.term a.candidateId a.lastLogIndex a.lastLogTerm a.timestampMs

/-- One entry of an AppendEntries MAC: index, term, and the canonical command behind
its precomputed length. -/
def LogEntry.macInput (e : LogEntry) : Bytes :=
  u64Bytes e.index ++ (u64Bytes e.term ++
    (bigEndian 4 e.command.canonicalByteLen ++ e.command.canonicalBytes))

/-- The bytes hashed by `compute_append_entries_hmac`. -/
def AppendEntriesArgs.macInput (a : AppendEntriesArgs) : Bytes :=
  domainAppendEntries :: (u64Bytes a.term ++ (pushLp (asBytes a.leaderId) ++
    (u64Bytes a.prevLogIndex ++ (u64Bytes a.prevLogTerm ++ (u64Bytes a.leaderCommit ++
      (u64Bytes a.timestampMs ++ (bigEndian 4 a.entries.length ++
        a.entries.flatMap LogEntry.macInput)))))))

/-- The bytes hashed by `compute_install_snapshot_hmac`: the chunk descriptor is not
among them. -/
def InstallSnapshotArgs.macInput (a : InstallSnapshotArgs) : Bytes :=
  domainInstallSnapshot :: (u64Bytes a.term ++ (pushLp (asBytes a.leaderId) ++
    (u64Bytes a.lastIncludedIndex ++ (u64Bytes a.lastIncludedTerm ++
      (u64Bytes a.timestampMs ++ pushLp a.data)))))

/-- The action byte of an approval. -/
def MembershipAction.approvalTag : MembershipAction → UInt8
  | addNode => 0x01
  | removeNode => 0x02
  | addLearner => 0x03
  | promoteLearner => 0x04

/-- The bytes hashed by `compute_config_change_approval_hmac`: the approval, and the
node and action of the proposal it approves. -/
def ConfigChangeApproval.macInput (a : ConfigChangeApproval) (nodeId : String)
    (action : MembershipAction) : Bytes :=
  domainConfigChangeApproval :: (pushLp (asBytes a.proposalId) ++ (pushLp (asBytes nodeId) ++
    ([action.approvalTag] ++ (pushLp (asBytes a.approverId) ++ u64Bytes a.timestampMs))))

/-- The prefix of a reply MAC: one byte of its own, or the two bytes of the scheme
that preceded it. -/
def replyTag (legacy : Bool) (tag kind : UInt8) : Bytes :=
  if legacy then [domainReplyLegacy, kind] else [tag]

/-- `compute_request_vote_reply_hmac` and its `_legacy` sibling. -/
def RequestVoteReply.macInput (legacy : Bool) (r : RequestVoteReply) : Bytes :=
  verdictInput (replyTag legacy domainReplyRequestVote 0x01) r.term r.voteGranted r.timestampMs

/-- `compute_pre_vote_reply_hmac` and its `_legacy` sibling. -/
def PreVoteReply.macInput (legacy : Bool) (r : PreVoteReply) : Bytes :=
  verdictInput (replyTag legacy domainReplyPreVote 0x05) r.term r.voteGranted r.timestampMs

/-- `compute_append_entries_reply_hmac` and its `_legacy` sibling. -/
def AppendEntriesReply.macInput (legacy : Bool) (r : AppendEntriesReply) : Bytes :=
  verdictInput (replyTag legacy domainReplyAppendEntries 0x02) r.term r.success r.timestampMs

/-- `compute_install_snapshot_reply_hmac` and its `_legacy` sibling. -/
def InstallSnapshotReply.macInput (legacy : Bool) (r : InstallSnapshotReply) : Bytes :=
  replyTag legacy domainReplyInstallSnapshot 0x03 ++ (u64Bytes r.term ++ u64Bytes r.timestampMs)

/-! ## Freshness -/

/-- `check_message_freshness` at the clock reading `now`: the past up to `maxAgeMs`, the
future up to `maxFutureSkewMs`. -/
def checkMessageFreshness (now timestampMs maxAgeMs maxFutureSkewMs : Nat) : Bool :=
  if timestampMs ≤ now then now - timestampMs ≤ maxAgeMs
  else timestampMs - now ≤ maxFutureSkewMs

/-! ## Ceilings of the wire format -/

/-- `MAX_WIRE_FRAME_BYTES`, 1 MiB. -/
def maxWireFrameBytes : Nat := 1 * 1024 * 1024

/-- `MAX_INSTALL_SNAPSHOT_BYTES`, 64 MiB. -/
def maxInstallSnapshotBytes : Nat := 64 * 1024 * 1024

end CratonHsm
