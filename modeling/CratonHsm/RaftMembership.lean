import CratonHsm.GuardedRun
import CratonHsm.RaftRun

/-!
# Membership changes by proposal

`propose_config_change`, `record_config_change_approval` and
`commit_config_change_proposal`: a leader opens a proposal, collects signed approvals, and
appends the `ConfigChange` once as many nodes as a quorum have approved.  The open
proposals (`pending_config_changes`) are kept beside the rest of the node, which no other
call looks at.

The second half is about who authorised an appended change.  The approvals of a proposal
are counted, not compared with the voters of the moment, so the count can be made up of
nodes that have been removed since (`departed_voters_authorise`).  Where every approver is
still a voter and the peer list is no shorter than the voter set, the approvals are a
majority of the voters (`majority_at_commit`).
-/

namespace CratonHsm
open Std GuardedRun List Option

/-- A proposal and those who have approved it. -/
structure PendingConfigChange where
  proposal : ConfigChangeProposal
  approvers : ExtTreeSet String

theorem mem_insert_approver {approvers : ExtTreeSet String} {id x : String} :
    id ∈ approvers.insert x ↔ id = x ∨ id ∈ approvers := by
  rw [ExtTreeSet.mem_insert, Std.compare_eq_iff_eq, eq_comm]

/-- Some entry above the committed index changes the membership. -/
def RaftLog.hasUncommittedConfigChange (l : RaftLog) : Bool :=
  (List.range' (l.committed + 1) (l.lastIndex - l.committed)).any fun i =>
    (l.get i).any fun e => e.command.isConfigChange

/-- A node with its open proposals. -/
structure MemberNode (σ : Type) where
  node : RaftNode σ
  pendingConfigChanges : ExtTreeMap String PendingConfigChange := ∅

namespace MemberNode
variable {σ : Type}

/-- `propose_config_change`: one proposal at a time, and none while a change is
uncommitted.  The leader approves its own. -/
def proposeConfigChange (m : MemberNode σ) (clock : Clock) (proposalId nodeId : String)
    (action : MembershipAction) : Option ConfigChangeProposal × MemberNode σ :=
  if m.node.isLeader = false then (none, m)
  else if m.node.clusterSecret.isNone then (none, m)
  else if m.pendingConfigChanges.isEmpty = false then (none, m)
  else if m.node.log.hasUncommittedConfigChange then (none, m)
  else
    let proposal : ConfigChangeProposal := ⟨proposalId, nodeId, action, clock.wallMs⟩
    let pending : PendingConfigChange := {
      proposal := proposal, approvers := (∅ : ExtTreeSet String).insert m.node.id }
    (some proposal, { m with
      pendingConfigChanges := m.pendingConfigChanges.insert proposalId pending })

/-- The voters according to the state machine; without one, the peers and the node
itself. -/
def isVoter (m : MemberNode σ) (id : String) : Bool :=
  match m.node.stateMachine with
  | some sm => sm.voters.any (fun v => v = id)
  | none => id = m.node.id || m.node.peers.any (fun p => p = id)

section Approval
variable [HmacSha256]

/-- The approval is fresh, from a voter, and signed for this proposal. -/
def approves (m : MemberNode σ) (clock : Clock) (secret : Secret)
    (proposal : ConfigChangeProposal) (approval : ConfigChangeApproval) : Bool :=
  m.node.isFresh clock approval.timestampMs && m.isVoter approval.approverId &&
    decide (approval.hmac = HmacSha256.mac secret
      (({ approval with proposalId := proposal.proposalId }).macInput proposal.nodeId
        proposal.action))

/-- `record_config_change_approval`. -/
def recordConfigChangeApproval (m : MemberNode σ) (clock : Clock)
    (approval : ConfigChangeApproval) : Bool × MemberNode σ :=
  match m.node.clusterSecret, m.pendingConfigChanges[approval.proposalId]? with
  | some secret, some pending =>
    if m.approves clock secret pending.proposal approval then
      let pending := { pending with approvers := pending.approvers.insert approval.approverId }
      (true, { m with
        pendingConfigChanges := m.pendingConfigChanges.insert approval.proposalId pending })
    else (false, m)
  | _, _ => (false, m)

end Approval

section Commit
variable [RaftStorage σ]

/-- `commit_config_change_proposal`: the index of the new entry, or `none`. -/
def commitConfigChangeProposal (m : MemberNode σ) (clock : Clock) (proposalId : String) :
    Option Nat × MemberNode σ :=
  if m.node.isLeader = false then (none, m)
  else
    match m.pendingConfigChanges[proposalId]? with
    | none => (none, m)
    | some pending =>
      if pending.approvers.size < m.node.quorumSize then (none, m)
      else
        match m.node.submitCommand clock
            (.configChange pending.proposal.nodeId pending.proposal.action) with
        | (none, node) => (none, { m with node := node })
        | (some index, node) => (some index, { m with
            node := node, pendingConfigChanges := m.pendingConfigChanges.erase proposalId })

/-- `config_change_approvals`. -/
def configChangeApprovals (m : MemberNode σ) (proposalId : String) : Nat :=
  m.pendingConfigChanges[proposalId]?.elim 0 (fun p => p.approvers.size)

/-- The proposal is open, the node leads, and enough nodes have approved. -/
def Ready (m : MemberNode σ) (proposalId : String) (pending : PendingConfigChange) : Prop :=
  m.node.state = .leader ∧ m.pendingConfigChanges[proposalId]? = some pending ∧
    m.node.quorumSize ≤ pending.approvers.size

/-- **The two ways a commit goes**: nothing happens, or a ready proposal is submitted as a
command and closed. -/
theorem commitConfigChangeProposal_cases (m : MemberNode σ) (clock : Clock)
    (proposalId : String) :
    (¬ ∃ pending, m.Ready proposalId pending) ∧
        m.commitConfigChangeProposal clock proposalId = (none, m) ∨
      ∃ pending, m.Ready proposalId pending ∧
        m.commitConfigChangeProposal clock proposalId =
          (some (m.node.log.lastIndex + 1), { m with
            node := (m.node.submitCommand clock
              (.configChange pending.proposal.nodeId pending.proposal.action)).2
            pendingConfigChanges := m.pendingConfigChanges.erase proposalId }) := by
  unfold commitConfigChangeProposal RaftNode.isLeader
  by_cases hl : m.node.state = .leader
  swap
  · left
    simp [Ready, hl]
  rcases hp : m.pendingConfigChanges[proposalId]? with _ | pending
  · left
    simp [Ready, hl, hp]
  by_cases hq : pending.approvers.size < m.node.quorumSize
  · left
    simp only [hl, decide_true, Bool.true_eq_false, if_false, if_pos hq, and_true]
    rintro ⟨p, -, hget, hle⟩
    rw [hp] at hget
    cases hget
    omega
  · right
    refine ⟨pending, ⟨hl, hp, by omega⟩, ?_⟩
    simp only [hl, decide_true, Bool.true_eq_false, if_false, if_neg hq]
    rcases m.node.submitCommand_cases clock
        (.configChange pending.proposal.nodeId pending.proposal.action) with
      ⟨hno, -⟩ | ⟨-, _, -, hsome, -⟩
    · exact absurd hl hno
    generalize m.node.submitCommand clock
      (.configChange pending.proposal.nodeId pending.proposal.action) = r at hsome ⊢
    obtain ⟨i, node⟩ := r
    subst hsome
    rfl

end Commit

/-! ## Runs -/

end MemberNode

/-- A call on a node with proposals. -/
inductive MemberEvent (σ : Type) where
  | node (event : NodeEvent σ)
  | propose (clock : Clock) (proposalId nodeId : String) (action : MembershipAction)
  | record (clock : Clock) (approval : ConfigChangeApproval)
  | commit (clock : Clock) (proposalId : String)

namespace MemberNode
variable {σ : Type}

/-- A proposal leaves the rest of the node alone, and opens with the proposer's approval. -/
theorem proposeConfigChange_cases (m : MemberNode σ) (clock : Clock)
    (proposalId nodeId : String) (action : MembershipAction) :
    m.proposeConfigChange clock proposalId nodeId action = (none, m) ∨
      ∃ proposal, proposal = ⟨proposalId, nodeId, action, clock.wallMs⟩ ∧
        m.node.log.hasUncommittedConfigChange = false ∧
        m.proposeConfigChange clock proposalId nodeId action =
          (some proposal, { m with
            pendingConfigChanges := m.pendingConfigChanges.insert proposalId
              { proposal := proposal
                approvers := (∅ : ExtTreeSet String).insert m.node.id } }) := by
  unfold proposeConfigChange
  split
  · exact .inl rfl
  split
  · exact .inl rfl
  split
  · exact .inl rfl
  split
  · exact .inl rfl
  rename_i hfree
  exact .inr ⟨_, rfl, by simpa using hfree, rfl⟩

variable [HmacSha256]

/-- An approval is recorded only for an open proposal that it verifies against. -/
theorem recordConfigChangeApproval_cases (m : MemberNode σ) (clock : Clock)
    (approval : ConfigChangeApproval) :
    m.recordConfigChangeApproval clock approval = (false, m) ∨
      ∃ secret pending, m.node.clusterSecret = some secret ∧
        m.pendingConfigChanges[approval.proposalId]? = some pending ∧
        m.approves clock secret pending.proposal approval = true ∧
        m.recordConfigChangeApproval clock approval =
          (true, { m with
            pendingConfigChanges := m.pendingConfigChanges.insert approval.proposalId
              { pending with approvers := pending.approvers.insert approval.approverId } }) := by
  unfold recordConfigChangeApproval
  split
  · rename_i secret pending hs hp
    by_cases hok : m.approves clock secret pending.proposal approval = true
    · exact .inr ⟨secret, pending, hs, hp, hok, by rw [if_pos hok]⟩
    · exact .inl (by rw [if_neg hok])
  · exact .inl rfl

variable [RaftStorage σ] [SnapshotCodec]

/-- The node after a call.  Open proposals are kept in memory only, so a restart drops
them. -/
def step (m : MemberNode σ) : MemberEvent σ → MemberNode σ
  | .node (.restart clock fresh) => { node := m.node.step (.restart clock fresh) }
  | .node event => { m with node := m.node.step event }
  | .propose clock proposalId nodeId action =>
    (m.proposeConfigChange clock proposalId nodeId action).2
  | .record clock approval => (m.recordConfigChangeApproval clock approval).2
  | .commit clock proposalId => (m.commitConfigChangeProposal clock proposalId).2

/-- No call of the node itself opens a proposal or adds an approval. -/
theorem step_node_pending (m : MemberNode σ) (event : NodeEvent σ) :
    (m.step (.node event)).pendingConfigChanges = m.pendingConfigChanges ∨
      (m.step (.node event)).pendingConfigChanges = ∅ := by
  cases event with
  | restart clock fresh => exact .inr rfl
  | _ => exact .inl rfl

/-- The approvers of an open proposal are all voters still, and the voters are no more
than the peers and the node itself. -/
def ApproversCurrent (m : MemberNode σ) (proposalId : String) : Prop :=
  ∀ pending sm, m.pendingConfigChanges[proposalId]? = some pending →
    m.node.stateMachine = some sm → sm.voters.length ≤ m.node.peers.length + 1 ∧
      ∀ id ∈ pending.approvers, id ∈ sm.voters

end MemberNode

/-! ## Who authorised a change -/

/-- A node with the approvals it has recorded: each proposal with a node that approved it,
the proposer among them. -/
structure Audited (σ : Type) where
  member : MemberNode σ
  recorded : List (ConfigChangeProposal × String) := []

namespace Audited
variable {σ : Type}

/-- A strict majority of the voters of the moment has a recorded approval of the
proposal. -/
def MajorityApproved (a : Audited σ) (proposal : ConfigChangeProposal) : Prop :=
  ∀ sm, a.member.node.stateMachine = some sm →
    sm.voters.length < 2 * (sm.voters.filter fun v => (proposal, v) ∈ a.recorded).length

/-- Every approver of an open proposal is on record. -/
def Backed (a : Audited σ) : Prop :=
  ∀ (proposalId : String) (pending : PendingConfigChange),
    a.member.pendingConfigChanges[proposalId]? = some pending →
    ∀ id ∈ pending.approvers, (pending.proposal, id) ∈ a.recorded

theorem Backed.of_sub {a b : Audited σ} (h : a.Backed)
    (hpending : ∀ (p : String) x, b.member.pendingConfigChanges[p]? = some x →
      a.member.pendingConfigChanges[p]? = some x)
    (hrecorded : a.recorded ⊆ b.recorded) : b.Backed :=
  fun p x hx id hid => hrecorded (h p x (hpending p x hx) id hid)

/-- Voters on record outnumber the rest when every approver of a quorum is one. -/
theorem majority_of_current {a : Audited σ} (h : a.Backed) {proposalId : String}
    {pending : PendingConfigChange}
    (hp : a.member.pendingConfigChanges[proposalId]? = some pending)
    (hquorum : a.member.node.quorumSize ≤ pending.approvers.size)
    (hcurrent : a.member.ApproversCurrent proposalId) : a.MajorityApproved pending.proposal := by
  intro sm hsm
  obtain ⟨hlen, hvoters⟩ := hcurrent pending sm hp hsm
  have hnodup : pending.approvers.toList.Nodup := by
    refine (ExtTreeSet.distinct_toList (t := pending.approvers)).imp ?_
    intro x y hne heq
    exact hne (heq ▸ ReflCmp.compare_self)
  have hsubset : pending.approvers.toList ⊆
      sm.voters.filter fun v => (pending.proposal, v) ∈ a.recorded := by
    intro id hid
    rw [ExtTreeSet.mem_toList] at hid
    exact mem_filter.mpr ⟨hvoters id hid, by simpa using h _ pending hp id hid⟩
  have hle := (subperm_of_subset hnodup hsubset).length_le
  rw [ExtTreeSet.length_toList] at hle
  unfold RaftNode.quorumSize at hquorum
  omega

variable [RaftStorage σ] [SnapshotCodec] [HmacSha256]

/-- What a call adds to the record: the proposer of a new proposal, or the approver whose
approval verified against an open one. -/
def newlyRecorded (m : MemberNode σ) : MemberEvent σ → List (ConfigChangeProposal × String)
  | .propose clock proposalId nodeId action =>
    (m.proposeConfigChange clock proposalId nodeId action).1.toList.map fun p => (p, m.node.id)
  | .record clock approval =>
    if (m.recordConfigChangeApproval clock approval).1 then
      m.pendingConfigChanges[approval.proposalId]?.toList.map fun pending =>
        (pending.proposal, approval.approverId)
    else []
  | _ => []

/-- A call, and what it adds to the record. -/
def step (a : Audited σ) (e : MemberEvent σ) : Audited σ where
  member := a.member.step e
  recorded := a.recorded ++ newlyRecorded a.member e

/-- A commit that appends has a majority behind it. -/
def Authorised (a : Audited σ) (clock : Clock) (proposalId : String) : Prop :=
  ∀ pending index, a.member.pendingConfigChanges[proposalId]? = some pending →
    (a.member.commitConfigChangeProposal clock proposalId).1 = some index →
    a.MajorityApproved pending.proposal

theorem Backed.step {a : Audited σ} (h : a.Backed) (e : MemberEvent σ) :
    (Audited.step a e).Backed := by
  have hsub : a.recorded ⊆ (Audited.step a e).recorded := subset_append_left _ _
  cases e with
  | node event =>
    refine h.of_sub (fun p x hx => ?_) hsub
    rcases a.member.step_node_pending event with hsame | hempty
    · exact hsame ▸ hx
    · simp [Audited.step, hempty] at hx
  | commit clock proposalId =>
    refine h.of_sub (fun p x hx => ?_) hsub
    rcases a.member.commitConfigChangeProposal_cases clock proposalId with
      ⟨-, hr⟩ | ⟨pending, -, hr⟩
    · simpa only [Audited.step, MemberNode.step, hr] using hx
    simp only [Audited.step, MemberNode.step, hr, ExtTreeMap.getElem?_erase] at hx
    split at hx
    · cases hx
    · exact hx
  | propose clock proposalId nodeId action =>
    rcases a.member.proposeConfigChange_cases clock proposalId nodeId action with
      hr | ⟨proposal, -, -, hr⟩
    · refine h.of_sub (fun p x hx => ?_) hsub
      simpa only [Audited.step, MemberNode.step, hr] using hx
    intro p x hx id hid
    simp only [Audited.step, MemberNode.step, hr, ExtTreeMap.getElem?_insert] at hx
    split at hx
    · -- the new proposal has its proposer for an approver
      cases hx
      have hself : id = a.member.node.id := by
        rcases mem_insert_approver.mp hid with hself | hnone
        · exact hself
        · simp at hnone
      have hnew : (proposal, id) ∈ newlyRecorded a.member
          (.propose clock proposalId nodeId action) := by
        simp [newlyRecorded, hr, hself]
      exact mem_append_right _ hnew
    · exact hsub (h p x hx id hid)
  | record clock approval =>
    rcases a.member.recordConfigChangeApproval_cases clock approval with
      hr | ⟨secret, pending, -, hp, -, hr⟩
    · refine h.of_sub (fun p x hx => ?_) hsub
      simpa only [Audited.step, MemberNode.step, hr] using hx
    intro p x hx id hid
    simp only [Audited.step, MemberNode.step, hr, ExtTreeMap.getElem?_insert] at hx
    split at hx
    · cases hx
      rcases mem_insert_approver.mp hid with rfl | hold
      · have hnew : (pending.proposal, approval.approverId) ∈ newlyRecorded a.member
            (.record clock approval) := by
          simp [newlyRecorded, hr, hp]
        exact mem_append_right _ hnew
      · exact hsub (h _ pending hp id hold)
    · exact hsub (h p x hx id hid)

/-- **A majority of the voters stands behind an appended change**, in every run and at
every commit that finds the approvers of the proposal among the voters. -/
theorem majority_at_commit {m : MemberNode σ} (hm : m.pendingConfigChanges = ∅)
    (events : List (MemberEvent σ)) (clock : Clock) (proposalId : String)
    (hcurrent : (run step ⟨m, []⟩ events : Audited σ).member.ApproversCurrent proposalId) :
    (run step ⟨m, []⟩ events : Audited σ).Authorised clock proposalId := by
  have hstart : (⟨m, []⟩ : Audited σ).Backed := by
    intro p x hx
    have hx' : (m.pendingConfigChanges)[p]? = some x := hx
    rw [hm] at hx'
    simp at hx'
  have hback : (run step ⟨m, []⟩ events : Audited σ).Backed := by
    refine induction_run (P := fun _ _ => True) (fun r e hr _ => hr.step e) hstart ?_
    exact along_true events
  intro pending index hp hcommit
  rcases (run step ⟨m, []⟩ events : Audited σ).member.commitConfigChangeProposal_cases clock
      proposalId with ⟨-, hr⟩ | ⟨pending', ⟨-, hp', hquorum⟩, -⟩
  · rw [hr] at hcommit
    cases hcommit
  · rw [hp] at hp'
    cases hp'
    exact majority_of_current hback hp hquorum hcurrent

end Audited

section Sample
attribute [local instance] noSnapshotCodec hmacSha256

/-- A member of a cluster of these voters, with a state machine that knows them. -/
def sampleMember (voters : List String) : MemberNode InMemoryStorage where
  node := { (RaftNode.new "n1" (voters.erase "n1") 1000 0 : RaftNode InMemoryStorage) with
    clusterSecret := some sampleSecret
    stateMachine := some (ClusterStateMachine.new voters) }

/-- A signed approval of the proposal. -/
def signedApproval (approverId nodeId : String) (action : MembershipAction) :
    ConfigChangeApproval :=
  let approval : ConfigChangeApproval := {
    proposalId := "p1", approverId := approverId, timestampMs := 1000,
    hmac := Vector.replicate 32 0 }
  { approval with hmac := HmacSha256.mac sampleSecret (approval.macInput nodeId action) }

/-- A signed AppendEntries of the leader `n2` of term 2, from the start of the log. -/
def secondLeaderBatch (commands : List RaftCommand) (leaderCommit : Nat) : AppendEntriesArgs :=
  signedAppend 2 "n2" 0 0 (commands.mapIdx fun i command => ⟨2, i + 1, command⟩) leaderCommit 1000

/-- Win the election of the next term. -/
def winElection : List (MemberEvent InMemoryStorage) :=
  [.node (.tryBecomeCandidate 0), .node .becomeLeader]

/-- The leader of three proposes to add `n4`, and `n2` approves. -/
def proposalApproved : List (MemberEvent InMemoryStorage) :=
  winElection ++ [.propose (sampleClock 1000) "p1" "n4" .addNode,
    .record (sampleClock 1000) (signedApproval "n2" "n4" .addNode)]

/-- Five voters: `n4` and `n5` approve a proposal of `n1`, then the leader of the next term
has both removed, and `n1` leads again. -/
def approversRemoved : List (MemberEvent InMemoryStorage) :=
  winElection ++ [.propose (sampleClock 1000) "p1" "n2" .removeNode,
    .record (sampleClock 1000) (signedApproval "n4" "n2" .removeNode),
    .record (sampleClock 1000) (signedApproval "n5" "n2" .removeNode),
    .node (.handleAppendEntries (sampleClock 1000) (secondLeaderBatch
      [.configChange "n4" .removeNode, .configChange "n5" .removeNode] 2)),
    .node (.applyCommitted (sampleClock 1000))] ++ winElection

namespace Audited

/-- The state after a run of a sample member. -/
def sampleRun (voters : List String) (events : List (MemberEvent InMemoryStorage)) :
    Audited InMemoryStorage :=
  run step ⟨sampleMember voters, []⟩ events

/-- What a commit of the proposal finds. -/
structure CommitView where
  result : Option Nat
  voters : Option (List String)
  peers : List String
  pending : Option (ConfigChangeProposal × List String)
  recorded : List (ConfigChangeProposal × String)
  deriving DecidableEq

def commitView (a : Audited InMemoryStorage) : CommitView where
  result := (a.member.commitConfigChangeProposal (sampleClock 1000) "p1").1
  voters := a.member.node.stateMachine.map ClusterStateMachine.voters
  peers := a.member.node.peers
  pending := (a.member.pendingConfigChanges["p1"]?).map
    (fun p => (p.proposal, p.approvers.toList))
  recorded := a.recorded

/-- The proposals of the two runs. -/
def addFourth : ConfigChangeProposal := ⟨"p1", "n4", .addNode, 1000⟩

def removeSecond : ConfigChangeProposal := ⟨"p1", "n2", .removeNode, 1000⟩

theorem proposalApproved_view :
    commitView (sampleRun ["n1", "n2", "n3"] proposalApproved) =
      { result := some 1
        voters := some ["n1", "n2", "n3"]
        peers := ["n2", "n3"]
        pending := some (addFourth, ["n1", "n2"])
        recorded := [(addFourth, "n1"), (addFourth, "n2")] } := by
  unfold sampleRun proposalApproved signedApproval
  rw [hmacSha256_eq]
  decide +kernel

theorem approversRemoved_view :
    commitView (sampleRun ["n1", "n2", "n3", "n4", "n5"] approversRemoved) =
      { result := some 3
        voters := some ["n1", "n2", "n3"]
        peers := ["n2", "n3"]
        pending := some (removeSecond, ["n1", "n4", "n5"])
        recorded := [(removeSecond, "n1"), (removeSecond, "n4"), (removeSecond, "n5")] } := by
  unfold sampleRun approversRemoved signedApproval secondLeaderBatch
  rw [hmacSha256_eq]
  decide +kernel

/-- Two of three voters approve, and the change is appended with a majority behind it. -/
theorem majority_two_of_three :
    ((sampleRun ["n1", "n2", "n3"] proposalApproved).member.commitConfigChangeProposal
      (sampleClock 1000) "p1").1 = some 1 ∧
    (sampleRun ["n1", "n2", "n3"] proposalApproved).Authorised (sampleClock 1000) "p1" := by
  have hview := proposalApproved_view
  simp only [commitView, CommitView.mk.injEq] at hview
  obtain ⟨hcommit, hvoters, hpeers, hpending, -⟩ := hview
  have hcurrent : (sampleRun ["n1", "n2", "n3"] proposalApproved).member.ApproversCurrent
      "p1" := by
    intro pending sm hp hsm
    rw [hsm] at hvoters
    rw [hp] at hpending
    have hlist : pending.approvers.toList = ["n1", "n2"] :=
      congrArg Prod.snd (some.inj hpending)
    have hsmlist : sm.voters = ["n1", "n2", "n3"] := some.inj hvoters
    rw [hpeers, hsmlist]
    refine ⟨by decide, fun id hid => ?_⟩
    rw [← ExtTreeSet.mem_toList, hlist] at hid
    exact mem_append_left ["n3"] hid
  exact ⟨hcommit, majority_at_commit rfl proposalApproved _ _ hcurrent⟩

/-- A change is appended that two removed nodes and one of the three voters approved. -/
theorem departed_voters_authorise :
    ((sampleRun ["n1", "n2", "n3", "n4", "n5"]
      approversRemoved).member.commitConfigChangeProposal (sampleClock 1000) "p1").1 = some 3 ∧
    ¬ (sampleRun ["n1", "n2", "n3", "n4", "n5"] approversRemoved).Authorised
      (sampleClock 1000) "p1" := by
  have hview := approversRemoved_view
  simp only [commitView, CommitView.mk.injEq] at hview
  obtain ⟨hcommit, hvoters, -, hpending, hrecorded⟩ := hview
  refine ⟨hcommit, fun h => ?_⟩
  obtain ⟨pending, hp, hprop⟩ := map_eq_some_iff.mp hpending
  obtain ⟨sm, hsm, hlist⟩ := map_eq_some_iff.mp hvoters
  have hmajority := h pending 3 hp hcommit sm hsm
  have hproposal : pending.proposal = removeSecond := congrArg Prod.fst hprop
  rw [hlist, hproposal, hrecorded] at hmajority
  revert hmajority
  decide

end Audited

end Sample

end CratonHsm
