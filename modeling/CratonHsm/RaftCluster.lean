import CratonHsm.GuardedRun
import CratonHsm.RaftLeader

/-!
# Runs of a cluster

Nodes that exchange messages through a network.  The driver makes the calls of the source
on any node in any order; a request stays in the network until it is handled, and so does
its reply, so that messages are delayed, lost and reordered at will.

The source leaves two things to the driver: the RequestVote of a candidate, which it fills
in from the candidate's accessors and signs with the cluster secret, and the pairing of a
reply with the request it answers, of which `handle_append_entries_reply` is told the
sender and the number of entries.
-/

namespace CratonHsm
open GuardedRun Function

/-- The nodes and the messages on their way, each with the node it goes to or, for a reply,
the node that gave it and the request it answers. -/
structure Cluster (σ : Type) where
  node : String → RaftNode σ
  ballots : List (String × RequestVoteArgs) := []
  votes : List (String × RequestVoteArgs × RequestVoteReply) := []
  appends : List (String × AppendEntriesArgs) := []
  answers : List (String × AppendEntriesArgs × AppendEntriesReply) := []

/-- A call on the node `v`. -/
inductive ClusterEvent where
  | tryBecomeCandidate (v : String) (draw : Nat)
  | requestVote (v : String) (clock : Clock) (peer : String)
  | handleRequestVote (v : String) (clock : Clock) (args : RequestVoteArgs)
  | becomeLeader (v : String)
  | submitCommand (v : String) (clock : Clock) (command : RaftCommand)
  | prepareAppendEntries (v : String) (clock : Clock) (peer : String)
  | replicateToAll (v : String) (clock : String → Clock)
  | handleAppendEntries (v : String) (clock : Clock) (args : AppendEntriesArgs)
  /-- The reply of `peer` to `args` reaches `v`. -/
  | handleAppendEntriesReply (v : String) (clock : Clock) (draw : Nat) (peer : String)
      (args : AppendEntriesArgs) (reply : AppendEntriesReply)

/-- The node that is called. -/
def ClusterEvent.actor : ClusterEvent → String
  | tryBecomeCandidate v _ | requestVote v _ _ | handleRequestVote v _ _ | becomeLeader v
  | submitCommand v _ _ | prepareAppendEntries v _ _ | replicateToAll v _
  | handleAppendEntries v _ _ | handleAppendEntriesReply v _ _ _ _ _ => v

/-- The RequestVote of a candidate. -/
def RaftNode.requestVoteArgs {σ : Type} [HmacSha256] (n : RaftNode σ) (clock : Clock) :
    Option RequestVoteArgs :=
  if n.state = .candidate then
    let args : RequestVoteArgs := {
      term := n.currentTerm, candidateId := n.id, lastLogIndex := n.log.lastIndex
      lastLogTerm := n.log.lastTerm, timestampMs := clock.wallMs, hmac := none }
    some { args with hmac := n.clusterSecret.map args.computeHmac }
  else none

namespace RaftNode
variable {σ : Type} [HmacSha256] (n : RaftNode σ) (clock : Clock)

/-- Signing leaves the verdict alone. -/
@[simp] theorem signAppendEntriesReply_success (reply : AppendEntriesReply) :
    (n.signAppendEntriesReply clock reply).success = reply.success := by
  unfold signAppendEntriesReply
  split <;> rfl

@[simp] theorem signRequestVoteReply_voteGranted (reply : RequestVoteReply) :
    (n.signRequestVoteReply clock reply).voteGranted = reply.voteGranted := by
  unfold signRequestVoteReply
  split <;> rfl

@[simp] theorem signRequestVoteReply_term (reply : RequestVoteReply) :
    (n.signRequestVoteReply clock reply).term = reply.term := by
  unfold signRequestVoteReply
  split <;> rfl

end RaftNode

namespace Cluster
variable {σ : Type}

/-- The cluster with the node `v` replaced. -/
def set (c : Cluster σ) (v : String) (n : RaftNode σ) : Cluster σ :=
  { c with node := Function.update c.node v n }

variable [RaftStorage σ] [SnapshotCodec] [HmacSha256]

/-- The cluster after a call. -/
def step (c : Cluster σ) : ClusterEvent → Cluster σ
  | .tryBecomeCandidate v draw => c.set v (((c.node v).tryBecomeCandidate draw).getD (c.node v))
  | .requestVote v clock peer =>
    { c with ballots := c.ballots ++
        ((c.node v).requestVoteArgs clock).toList.map fun args => (peer, args) }
  | .handleRequestVote v clock args =>
    let (reply, n) := (c.node v).handleRequestVote clock args
    { c.set v n with
      ballots := c.ballots.erase (v, args)
      votes := c.votes ++ [(v, args, n.signRequestVoteReply clock reply)] }
  | .becomeLeader v => c.set v (c.node v).becomeLeader
  | .submitCommand v clock command => c.set v ((c.node v).submitCommand clock command).2
  | .prepareAppendEntries v clock peer =>
    let (prepared, n) := (c.node v).prepareAppendEntries clock peer
    { c.set v n with appends := c.appends ++ prepared.toList.map fun args => (peer, args) }
  | .replicateToAll v clock =>
    let (messages, n) := (c.node v).replicateToAll clock
    { c.set v n with appends := c.appends ++ messages }
  | .handleAppendEntries v clock args =>
    let (reply, n) := (c.node v).handleAppendEntries clock args
    { c.set v n with
      appends := c.appends.erase (v, args)
      answers := c.answers ++ [(v, args, n.signAppendEntriesReply clock reply)] }
  | .handleAppendEntriesReply v clock draw peer args reply =>
    { c.set v ((c.node v).handleAppendEntriesReply clock draw peer reply args.entries.length) with
      answers := c.answers.erase (peer, args, reply) }

/-- The cluster after a run. -/
def run (c : Cluster σ) (events : List ClusterEvent) : Cluster σ := GuardedRun.run step c events

omit [RaftStorage σ] [SnapshotCodec] [HmacSha256] in
@[simp] theorem set_node (c : Cluster σ) (v : String) (n : RaftNode σ) :
    (c.set v n).node = update c.node v n := rfl

/-- The node sends requests, and keeps its core and its roster. -/
inductive Sent (c : Cluster σ) (v : String) : Cluster σ → Prop
  | intro (n : RaftNode σ) (messages : List (String × AppendEntriesArgs))
      (hsends : ∀ x ∈ messages, (c.node v).Sends x.1 x.2) (hcore : n.core = (c.node v).core)
      (hroster : n.roster = (c.node v).roster) :
      Sent c v { c.set v n with appends := c.appends ++ messages }

section Sent
variable {c : Cluster σ} {v : String} (hsnap : (c.node v).lastSnapshotIndex = 0)
  (hl : Numbered 1 (c.node v).log.entries)
  (hpos : (c.node v).state = .leader → RaftNode.NextPos (c.node v).roster)
include hsnap hl hpos

theorem sent_prepareAppendEntries (clock : Clock) (peer : String) :
    c.Sent v (c.step (.prepareAppendEntries v clock peer)) := by
  obtain ⟨hsends, hcore, hroster⟩ := RaftNode.prepareAppendEntries_sends hsnap hl hpos clock peer
  refine .intro _ (((c.node v).prepareAppendEntries clock peer).1.toList.map fun args =>
    (peer, args)) (fun x hx => ?_) hcore hroster
  obtain ⟨args, hargs, rfl⟩ := List.mem_map.mp hx
  exact hsends args (Option.mem_toList.mp hargs)

theorem sent_replicateToAll (clock : String → Clock) :
    c.Sent v (c.step (.replicateToAll v clock)) := by
  obtain ⟨hsends, hcore, hroster⟩ := RaftNode.replicateToAll_sends hsnap hl hpos clock
  exact .intro _ _ hsends hcore hroster

end Sent

/-- A call changes the node it is made on. -/
theorem step_node_of_ne (c : Cluster σ) {e : ClusterEvent} {u : String} (h : u ≠ e.actor) :
    (c.step e).node u = c.node u := by
  cases e with
  | requestVote v clock peer => rfl
  | _ => exact update_of_ne h _ _

theorem run_node_of_ne {c : Cluster σ} {events : List ClusterEvent} {u : String}
    (h : ∀ e ∈ events, u ≠ e.actor) : (c.run events).node u = c.node u := by
  induction events generalizing c with
  | nil => rfl
  | cons e events ih =>
    rw [← c.step_node_of_ne (h e (List.mem_cons_self ..))]
    exact ih (fun x hx => h x (List.mem_cons_of_mem _ hx))

end Cluster

/-- The driver and the network of a replication run: a node accepts only AppendEntries that
were sent to it, only candidates are made leader, and the membership is not changed. -/
def ReplicationRule {σ : Type} [HmacSha256] (c : Cluster σ) : ClusterEvent → Prop
  | .handleAppendEntries v clock args =>
    ((c.node v).verifyAppendEntries clock args).1 = true → (v, args) ∈ c.appends
  | .becomeLeader v => (c.node v).state = .candidate
  | .submitCommand _ _ command => command.isConfigChange = false
  | _ => True

instance {σ : Type} [HmacSha256] (c : Cluster σ) : (e : ClusterEvent) →
    Decidable (ReplicationRule c e)
  | .handleAppendEntries v clock args => inferInstanceAs (Decidable
      (((c.node v).verifyAppendEntries clock args).1 = true → (v, args) ∈ c.appends))
  | .becomeLeader v => inferInstanceAs (Decidable ((c.node v).state = .candidate))
  | .submitCommand _ _ command => inferInstanceAs (Decidable (command.isConfigChange = false))
  | .tryBecomeCandidate .. | .requestVote .. | .handleRequestVote .. | .prepareAppendEntries ..
  | .replicateToAll .. | .handleAppendEntriesReply .. => inferInstanceAs (Decidable True)

/-- A node before its first call, over an empty store or none, with snapshots off. -/
structure RaftNode.IsFresh {σ : Type} (n : RaftNode σ) : Prop where
  state : n.state = .follower
  term : n.currentTerm = 0
  vote : n.votedFor = none
  log : n.log = {}
  nextIndex : n.nextIndex = ∅
  matchIndex : n.matchIndex = ∅
  snapshotIndex : n.lastSnapshotIndex = 0
  interval : n.snapshotInterval = 0

/-- Fresh nodes under their names, and nothing under way. -/
structure Cluster.IsFresh {σ : Type} (c : Cluster σ) : Prop where
  node : ∀ v, (c.node v).IsFresh
  id : ∀ v, (c.node v).id = v
  ballots : c.ballots = []
  votes : c.votes = []
  appends : c.appends = []
  answers : c.answers = []

/-! ## A cluster for evaluation -/

/-- Nodes that share a secret, with the peers of a cluster of three. -/
def trio : Cluster InMemoryStorage where
  node v := { (RaftNode.new v (["n1", "n2", "n3"].filter (· ≠ v)) 1000 0 :
      RaftNode InMemoryStorage) with clusterSecret := some sampleSecret, storage := some {} }

theorem trio_isFresh : trio.IsFresh :=
  ⟨fun _ => ⟨rfl, rfl, rfl, rfl, rfl, rfl, rfl, rfl⟩, fun _ => rfl, rfl, rfl, rfl, rfl⟩

/-- The AppendEntries of `n1`, leader of term 1, with its first entry. -/
def firstAppend [HmacSha256] (timestampMs : Nat) : AppendEntriesArgs :=
  signedAppend 1 "n1" 0 0 [⟨1, 1, .noop⟩] 0 timestampMs

end CratonHsm
