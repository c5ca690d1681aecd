import CratonHsm.RaftVerify

/-!
# Elections

The RequestVote and PreVote handlers.
-/

namespace CratonHsm
namespace RaftNode
variable {σ : Type} [HmacSha256]

/-- A heartbeat within the election timeout; the deadline is a `checked_add`. -/
def heardLeaderRecently (n : RaftNode σ) (nowMs : Nat) : Bool :=
  n.lastHeartbeatMs + n.electionTimeoutMs ≤ u64Max ∧
    nowMs < n.lastHeartbeatMs + n.electionTimeoutMs

/-- A pre-vote is granted without changing the node. -/
def handlePreVote (n : RaftNode σ) (clock : Clock) (args : PreVoteArgs) : PreVoteReply :=
  if n.verifyPreVote clock args = false then { term := 0, voteGranted := false }
  else if args.term < n.currentTerm then { term := n.currentTerm, voteGranted := false }
  else if n.heardLeaderRecently clock.wallMs then
    { term := n.currentTerm, voteGranted := false }
  else
    { term := n.currentTerm, voteGranted := upToDate n.log args.lastLogIndex args.lastLogTerm }

/-- What a pre-vote is granted on. -/
theorem handlePreVote_granted_iff {n : RaftNode σ} {clock : Clock} {args : PreVoteArgs} :
    (n.handlePreVote clock args).voteGranted = true ↔
      n.verifyPreVote clock args = true ∧ n.currentTerm ≤ args.term ∧
        n.heardLeaderRecently clock.wallMs = false ∧
        upToDate n.log args.lastLogIndex args.lastLogTerm = true := by
  unfold handlePreVote
  split_ifs <;> simp_all

/-- `prepare_pre_vote`: the prospective term is carried, not adopted. -/
def preparePreVote (n : RaftNode σ) (clock : Clock) : Option PreVoteArgs := do
  let secret ← n.clusterSecret
  let prospective ← Term.checkedNext n.currentTerm
  let args : PreVoteArgs := {
    term := prospective, candidateId := n.id, lastLogIndex := n.log.lastIndex
    lastLogTerm := n.log.lastTerm, timestampMs := clock.wallMs, hmac := none }
  some { args with hmac := some (args.computeHmac secret) }

/-- `pre_vote_majority_reached`, the candidate's own grant included. -/
def preVoteMajorityReached (n : RaftNode σ) (replies : List PreVoteReply) : Bool :=
  n.quorumSize ≤ 1 + replies.countP (fun r => r.voteGranted)

variable [RaftStorage σ]

/-- `try_become_candidate_with_prevote`; `none` is the term overflow. -/
def tryBecomeCandidateWithPrevote (n : RaftNode σ) (draw : Nat) (replies : List PreVoteReply) :
    Option (Bool × RaftNode σ) :=
  if n.preVoteMajorityReached replies then (n.tryBecomeCandidate draw).map fun m => (true, m)
  else some (false, n)

/-- The node adopts a higher term as a follower. -/
def adoptTerm (n : RaftNode σ) (term : Nat) : RaftNode σ :=
  if n.currentTerm < term then n.becomeFollower term else n

/-- The vote itself, once the term is settled. -/
def castVote (n : RaftNode σ) (args : RequestVoteArgs) : RequestVoteReply × RaftNode σ :=
  if n.shouldGrantVote args.candidateId args.term args.lastLogIndex args.lastLogTerm then
    ({ term := n.currentTerm, voteGranted := true },
      persistHardState { n with votedFor := some args.candidateId })
  else ({ term := n.currentTerm, voteGranted := false }, n)

/-- A vote, if the request is authentic. -/
def handleRequestVote (n : RaftNode σ) (clock : Clock) (args : RequestVoteArgs) :
    RequestVoteReply × RaftNode σ :=
  let (verified, n) := n.verifyRequestVote clock args
  if verified then (n.adoptTerm args.term).castVote args
  else ({ term := n.currentTerm, voteGranted := false }, n)

/-- **The two ways RequestVote goes**: refused by verification, or put to the vote. -/
theorem handleRequestVote_cases (n : RaftNode σ) (clock : Clock) (args : RequestVoteArgs) :
    ∃ cache m, m = { n with replayCache := cache } ∧
      ((n.verifyRequestVote clock args).1 = false ∧ n.handleRequestVote clock args =
          ({ term := m.currentTerm, voteGranted := false }, m) ∨
        (n.verifyRequestVote clock args).1 = true ∧
          n.handleRequestVote clock args = (m.adoptTerm args.term).castVote args) := by
  obtain ⟨cache, hc⟩ := n.verifyRequestVote_node clock args
  refine ⟨cache, _, hc, ?_⟩
  unfold handleRequestVote
  dsimp only
  cases (n.verifyRequestVote clock args).1 with
  | false => exact .inl ⟨rfl, by rw [if_neg Bool.false_ne_true]⟩
  | true => exact .inr ⟨rfl, by rw [if_pos rfl]⟩

/-- `handle_request_vote_rpc`: rate limited first, and dropped silently. -/
def handleRequestVoteRpc (n : RaftNode σ) (clock : Clock) (args : RequestVoteArgs) :
    Option RequestVoteReply × RaftNode σ :=
  let (allowed, limiter) := n.voteRateLimiter.tryConsume args.candidateId clock.wallMs
  let n := { n with voteRateLimiter := limiter }
  if allowed then
    let (reply, n) := n.handleRequestVote clock args
    (some reply, n)
  else (none, n)

end RaftNode

end CratonHsm
