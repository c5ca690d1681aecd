import CratonHsm.RaftNode
import CratonHsm.Sha256

/-!
# Authentication of RPCs

Signing and verification.  The three requests that enter the replay cache share one
tail (`authenticate`), the four replies another (`authenticateReply`); each `verify_*`
method is one of these two behind its own size gate and over its own MAC input.
-/

namespace CratonHsm
open PrefixFreeCode

/-- The `hmac` and `sha2` crates' HMAC-SHA256. -/
@[reducible]
def hmacSha256 : HmacSha256 where
  mac secret input := ⟨(Sha256.hmac secret.toList input).toArray, by
    rw [List.size_toArray]
    exact Sha256.hash_length _⟩

/-- The same function, in the form for evaluation. -/
@[reducible]
def windowHmacSha256 : HmacSha256 where
  mac secret input := ⟨(Sha256.windowHmac secret.toList input).toArray, by
    rw [List.size_toArray, ← Sha256.hmac_eq]
    exact Sha256.hash_length _⟩

theorem hmacSha256_eq : hmacSha256 = windowHmacSha256 := by
  -- on the arrays, so that the kernel never compares the two functions by unfolding them
  refine congrArg HmacSha256.mk ?_
  funext secret input
  refine Vector.toArray_inj.mp ?_
  exact congrArg (fun hmac => (hmac secret.toList input).toArray) Sha256.hmac_eq

/-- A secret and a clock for evaluation on concrete inputs. -/
def sampleSecret : Secret := Vector.replicate 32 7

def sampleClock (nowMs : Nat) : Clock := ⟨nowMs, nowMs, nowMs, nowMs⟩

section Hmac
variable [HmacSha256]

/-- The MAC over the fields of the message. -/
def RequestVoteArgs.computeHmac (secret : Secret) (a : RequestVoteArgs) : Mac :=
  HmacSha256.mac secret a.macInput

/-- The MAC over the fields of the message. -/
def PreVoteArgs.computeHmac (secret : Secret) (a : PreVoteArgs) : Mac :=
  HmacSha256.mac secret a.macInput

/-- The MAC over the fields of the message. -/
def AppendEntriesArgs.computeHmac (secret : Secret) (a : AppendEntriesArgs) : Mac :=
  HmacSha256.mac secret a.macInput

/-- The MAC over the fields of the message. -/
def InstallSnapshotArgs.computeHmac (secret : Secret) (a : InstallSnapshotArgs) : Mac :=
  HmacSha256.mac secret a.macInput

/-- The MAC over the fields of the message. -/
def RequestVoteReply.computeHmac (legacy : Bool) (secret : Secret) (r : RequestVoteReply) : Mac :=
  HmacSha256.mac secret (r.macInput legacy)

/-- The MAC over the fields of the message. -/
def PreVoteReply.computeHmac (legacy : Bool) (secret : Secret) (r : PreVoteReply) : Mac :=
  HmacSha256.mac secret (r.macInput legacy)

/-- The MAC over the fields of the message. -/
def AppendEntriesReply.computeHmac (legacy : Bool) (secret : Secret)
    (r : AppendEntriesReply) : Mac :=
  HmacSha256.mac secret (r.macInput legacy)

/-- The MAC over the fields of the message. -/
def InstallSnapshotReply.computeHmac (legacy : Bool) (secret : Secret)
    (r : InstallSnapshotReply) : Mac :=
  HmacSha256.mac secret (r.macInput legacy)

namespace RaftNode
variable {σ : Type}

/-! ## Signing -/

/-- `sign_request_vote_reply`: stamped and signed, or left alone without a secret. -/
def signRequestVoteReply (n : RaftNode σ) (clock : Clock) (reply : RequestVoteReply) :
    RequestVoteReply :=
  match n.clusterSecret with
  | none => reply
  | some secret =>
    let stamped := { reply with timestampMs := clock.wallMs }
    { stamped with hmac := some (stamped.computeHmac false secret) }

def signPreVoteReply (n : RaftNode σ) (clock : Clock) (reply : PreVoteReply) : PreVoteReply :=
  match n.clusterSecret with
  | none => reply
  | some secret =>
    let stamped := { reply with timestampMs := clock.wallMs }
    { stamped with hmac := some (stamped.computeHmac false secret) }

/-- The reply with its time and MAC. -/
def signAppendEntriesReply (n : RaftNode σ) (clock : Clock) (reply : AppendEntriesReply) :
    AppendEntriesReply :=
  match n.clusterSecret with
  | none => reply
  | some secret =>
    let stamped := { reply with timestampMs := clock.wallMs }
    { stamped with hmac := some (stamped.computeHmac false secret) }

def signInstallSnapshotReply (n : RaftNode σ) (clock : Clock) (reply : InstallSnapshotReply) :
    InstallSnapshotReply :=
  match n.clusterSecret with
  | none => reply
  | some secret =>
    let stamped := { reply with timestampMs := clock.wallMs }
    { stamped with hmac := some (stamped.computeHmac false secret) }

/-! ## Verification -/

/-- The freshness window of the node. -/
def isFresh (n : RaftNode σ) (clock : Clock) (timestampMs : Nat) : Bool :=
  checkMessageFreshness clock.freshnessMs timestampMs n.maxMessageAgeMs n.maxFutureSkewMs

/-- Secret, freshness, MAC, then the replay cache. -/
def authenticate (n : RaftNode σ) (clock : Clock) (timestampMs : Nat) (hmac : Option Mac)
    (compute : Secret → Mac) : Bool × RaftNode σ :=
  match n.clusterSecret, hmac with
  | some secret, some provided =>
    let computed := compute secret
    if n.isFresh clock timestampMs ∧ provided = computed then
      let (replayed, cache) :=
        n.replayCache.checkAndInsert computed clock.replayMs n.maxMessageAgeMs
      (!replayed, { n with replayCache := cache })
    else (false, n)
  | _, _ => (false, n)

/-- The request is authentic, recent and new. -/
def verifyRequestVote (n : RaftNode σ) (clock : Clock) (a : RequestVoteArgs) :
    Bool × RaftNode σ :=
  if maxWireFrameBytes < (asBytes a.candidateId).length then (false, n)
  else n.authenticate clock a.timestampMs a.hmac a.computeHmac

/-- The running size estimate of `verify_append_entries` passes the ceiling. -/
def frameTooLarge : Nat → List LogEntry → Bool
  | _, [] => false
  | estimated, e :: rest =>
    let estimated := estimated + e.command.canonicalBytes.length
    maxWireFrameBytes < estimated || frameTooLarge estimated rest

/-- The request is authentic, recent and new. -/
def verifyAppendEntries (n : RaftNode σ) (clock : Clock) (a : AppendEntriesArgs) :
    Bool × RaftNode σ :=
  if frameTooLarge (asBytes a.leaderId).length a.entries then (false, n)
  else n.authenticate clock a.timestampMs a.hmac a.computeHmac

/-- The request is authentic, recent and new. -/
def verifyInstallSnapshot (n : RaftNode σ) (clock : Clock) (a : InstallSnapshotArgs) :
    Bool × RaftNode σ :=
  if maxInstallSnapshotBytes < a.data.length then (false, n)
  else if maxInstallSnapshotBytes < a.totalSize then (false, n)
  else n.authenticate clock a.timestampMs a.hmac a.computeHmac

/-- `verify_pre_vote` does not touch the replay cache. -/
def verifyPreVote (n : RaftNode σ) (clock : Clock) (a : PreVoteArgs) : Bool :=
  match n.clusterSecret, a.hmac with
  | some secret, some provided => n.isFresh clock a.timestampMs && provided = a.computeHmac secret
  | _, _ => false

/-- A reply verifies under its own tag, or under the legacy tag while those are
accepted. -/
def authenticateReply (n : RaftNode σ) (clock : Clock) (timestampMs : Nat) (hmac : Option Mac)
    (compute : Bool → Secret → Mac) : Bool × RaftNode σ :=
  match n.clusterSecret, hmac with
  | some secret, some provided =>
    if n.isFresh clock timestampMs then
      if provided = compute false secret then (true, n)
      else if n.acceptLegacyReplyHmacTags ∧ provided = compute true secret then
        (true, { n with legacyReplyHmacAccepts := n.legacyReplyHmacAccepts + 1 })
      else (false, n)
    else (false, n)
  | _, _ => (false, n)

def verifyRequestVoteReply (n : RaftNode σ) (clock : Clock) (r : RequestVoteReply) :
    Bool × RaftNode σ :=
  n.authenticateReply clock r.timestampMs r.hmac (fun legacy s => r.computeHmac legacy s)

def verifyPreVoteReply (n : RaftNode σ) (clock : Clock) (r : PreVoteReply) :
    Bool × RaftNode σ :=
  n.authenticateReply clock r.timestampMs r.hmac (fun legacy s => r.computeHmac legacy s)

/-- The reply is authentic and recent. -/
def verifyAppendEntriesReply (n : RaftNode σ) (clock : Clock) (r : AppendEntriesReply) :
    Bool × RaftNode σ :=
  n.authenticateReply clock r.timestampMs r.hmac (fun legacy s => r.computeHmac legacy s)

def verifyInstallSnapshotReply (n : RaftNode σ) (clock : Clock) (r : InstallSnapshotReply) :
    Bool × RaftNode σ :=
  n.authenticateReply clock r.timestampMs r.hmac (fun legacy s => r.computeHmac legacy s)

/-! ## What verification can change -/

section
variable (n : RaftNode σ)

omit [HmacSha256] in
theorem authenticate_node (clock : Clock) (ts : Nat) (hmac : Option Mac) (compute : Secret → Mac) :
    ∃ cache, (n.authenticate clock ts hmac compute).2 = { n with replayCache := cache } := by
  unfold authenticate
  split
  · dsimp only
    split
    · exact ⟨_, rfl⟩
    · exact ⟨n.replayCache, rfl⟩
  · exact ⟨n.replayCache, rfl⟩

/-- Verifying a request changes the replay cache and nothing else. -/
theorem verifyRequestVote_node (clock : Clock) (a : RequestVoteArgs) :
    ∃ cache, (n.verifyRequestVote clock a).2 = { n with replayCache := cache } := by
  unfold verifyRequestVote
  split
  · exact ⟨n.replayCache, rfl⟩
  · exact n.authenticate_node clock _ _ _

theorem verifyAppendEntries_node (clock : Clock) (a : AppendEntriesArgs) :
    ∃ cache, (n.verifyAppendEntries clock a).2 = { n with replayCache := cache } := by
  unfold verifyAppendEntries
  split
  · exact ⟨n.replayCache, rfl⟩
  · exact n.authenticate_node clock _ _ _

theorem verifyInstallSnapshot_node (clock : Clock) (a : InstallSnapshotArgs) :
    ∃ cache, (n.verifyInstallSnapshot clock a).2 = { n with replayCache := cache } := by
  unfold verifyInstallSnapshot
  split
  · exact ⟨n.replayCache, rfl⟩
  · split
    · exact ⟨n.replayCache, rfl⟩
    · exact n.authenticate_node clock _ _ _

end

omit [HmacSha256] in
/-- Verifying a reply changes the legacy counter and nothing else. -/
theorem authenticateReply_node (n : RaftNode σ) (clock : Clock) (ts : Nat) (hmac : Option Mac)
    (compute : Bool → Secret → Mac) :
    ∃ k, (n.authenticateReply clock ts hmac compute).2 =
      { n with legacyReplyHmacAccepts := k } := by
  unfold authenticateReply
  split
  · split
    · split
      · exact ⟨n.legacyReplyHmacAccepts, rfl⟩
      · split
        · exact ⟨_, rfl⟩
        · exact ⟨n.legacyReplyHmacAccepts, rfl⟩
    · exact ⟨n.legacyReplyHmacAccepts, rfl⟩
  · exact ⟨n.legacyReplyHmacAccepts, rfl⟩

end RaftNode

/-! ## Signed messages for evaluation -/

def signedAppend (term : Nat) (leaderId : String) (prevLogIndex prevLogTerm : Nat)
    (entries : List LogEntry) (leaderCommit timestampMs : Nat) : AppendEntriesArgs :=
  let args : AppendEntriesArgs := {
    term := term, leaderId := leaderId, prevLogIndex := prevLogIndex, prevLogTerm := prevLogTerm
    entries := entries, leaderCommit := leaderCommit, timestampMs := timestampMs, hmac := none }
  { args with hmac := some (args.computeHmac sampleSecret) }

def signedVote (term : Nat) (candidateId : String) (lastLogIndex lastLogTerm timestampMs : Nat) :
    RequestVoteArgs :=
  let args : RequestVoteArgs := {
    term := term, candidateId := candidateId, lastLogIndex := lastLogIndex
    lastLogTerm := lastLogTerm, timestampMs := timestampMs, hmac := none }
  { args with hmac := some (args.computeHmac sampleSecret) }

def signedSuccess (term timestampMs : Nat) : AppendEntriesReply :=
  let reply : AppendEntriesReply := { term := term, success := true, timestampMs := timestampMs }
  { reply with hmac := some (reply.computeHmac false sampleSecret) }

end Hmac

end CratonHsm
