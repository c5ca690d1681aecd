import CratonHsm.GuardedRun
import CratonHsm.RaftStored

/-!
# Runs of a node

A node is driven by calls.  `NodeEvent` lists the calls that change it and `step` makes one;
runs and conditions along them are those of `GuardedRun`.
-/

namespace CratonHsm

/-- A call on a node. -/
inductive NodeEvent (σ : Type) where
  | tryBecomeCandidate (draw : Nat)
  | becomeLeader
  | handleRequestVote (clock : Clock) (args : RequestVoteArgs)
  | handleAppendEntries (clock : Clock) (args : AppendEntriesArgs)
  | handleAppendEntriesReply (clock : Clock) (draw : Nat) (peerId : String)
      (reply : AppendEntriesReply) (entriesSent : Nat)
  | handleInstallSnapshot (clock : Clock) (args : InstallSnapshotArgs)
  | submitCommand (clock : Clock) (command : RaftCommand)
  | applyCommitted (clock : Clock)
  | maybeSnapshot
  | attachStorage (clock : Clock) (store : σ)
  /-- The process restarts: a new node attaches the store of the old one. -/
  | restart (clock : Clock) (fresh : RaftNode σ)

namespace RaftNode
variable {σ : Type}

/-- A node as `RaftNode::new` builds it; the configuration is free. -/
structure IsNew (n : RaftNode σ) : Prop where
  state : n.state = .follower
  term : n.currentTerm = 0
  vote : n.votedFor = none
  log : n.log = {}
  nextIndex : n.nextIndex = ∅
  matchIndex : n.matchIndex = ∅
  storage : n.storage = none
  snapshotIndex : n.lastSnapshotIndex = 0
  snapshotTerm : n.lastSnapshotTerm = 0

theorem new_isNew (id : String) (peers : List String) (base draw : Nat) :
    (new id peers base draw : RaftNode σ).IsNew := ⟨rfl, rfl, rfl, rfl, rfl, rfl, rfl, rfl, rfl⟩

variable [RaftStorage σ] [SnapshotCodec] [HmacSha256]

/-- The node after a call. -/
def step (n : RaftNode σ) : NodeEvent σ → RaftNode σ
  | .tryBecomeCandidate draw => (n.tryBecomeCandidate draw).getD n
  | .becomeLeader => n.becomeLeader
  | .handleRequestVote clock args => (n.handleRequestVote clock args).2
  | .handleAppendEntries clock args => (n.handleAppendEntries clock args).2
  | .handleAppendEntriesReply clock draw peerId reply entriesSent =>
    n.handleAppendEntriesReply clock draw peerId reply entriesSent
  | .handleInstallSnapshot clock args => (n.handleInstallSnapshot clock args).2
  | .submitCommand clock command => (n.submitCommand clock command).2
  | .applyCommitted clock => n.applyCommitted clock
  | .maybeSnapshot => n.maybeSnapshot
  | .attachStorage clock store => (n.attachStorage clock store).2
  | .restart clock fresh =>
    match n.storage with
    | none => fresh
    | some store => (fresh.attachStorage clock store).2

/-- The node after a run. -/
def run (n : RaftNode σ) (events : List (NodeEvent σ)) : RaftNode σ := GuardedRun.run step n events

/-- The condition holds of every call of the run, in the state before it. -/
abbrev Along (P : RaftNode σ → NodeEvent σ → Prop) (n : RaftNode σ)
    (events : List (NodeEvent σ)) : Prop :=
  GuardedRun.Along step P n events

end RaftNode

end CratonHsm
