import CratonHsm.RaftLeader
import CratonHsm.RaftMembership

/-!
# One membership change at a time

The guard against a second membership change is looked at when a proposal is opened; the
entry is appended later, and the proposal stays open when the node loses its leadership in
between.  Along a run in which every commit finds no uncommitted change in the log, no log
ever holds two of them above its committed index, whatever the role of the node
(`oneInFlight_run`); without that, a leader can come to hold two (`two_changes_in_flight`).

Snapshots are off, as in `RaftCore`.
-/

namespace CratonHsm
open Std GuardedRun TermHistory RaftNode List

/-- The membership changes of a log above an index. -/
def changesAbove (c : Nat) (l : List LogEntry) : List LogEntry :=
  l.filter fun e => c < e.index && e.command.isConfigChange

theorem changesAbove_append (c : Nat) (l m : List LogEntry) :
    changesAbove c (l ++ m) = changesAbove c l ++ changesAbove c m :=
  filter_append ..

/-- A shorter log has no more changes above an index, and fewer of them lie above a later
one. -/
theorem changesAbove_length_le {c c' : Nat} {l l' : List LogEntry} (hc : c ≤ c')
    (hl : l'.Sublist l) : (changesAbove c' l').length ≤ (changesAbove c l).length := by
  have hmono : (changesAbove c' l').Sublist (changesAbove c l') := by
    apply monotone_filter_right
    intro e he
    simp only [Bool.and_eq_true, decide_eq_true_eq] at he ⊢
    exact ⟨Nat.lt_of_le_of_lt hc he.1, he.2⟩
  exact hmono.length_le.trans (hl.filter _).length_le

/-- A numbered log has nothing above its end. -/
theorem changesAbove_eq_nil {c : Nat} {l : List LogEntry} (hl : Numbered 1 l)
    (hle : l.length ≤ c) : changesAbove c l = [] := by
  rw [changesAbove, List.filter_eq_nil_iff]
  intro e he
  obtain ⟨i, hi⟩ := List.mem_iff_getElem?.mp he
  obtain ⟨hlt, -⟩ := List.getElem?_eq_some_iff.mp hi
  have hindex := hl i e hi
  simp only [Bool.and_eq_true, decide_eq_true_eq, not_and]
  intro habove
  omega

/-- An accepted request of a leader with at most one change above what it has committed
leaves the follower with at most one above what it has committed. -/
theorem RaftNode.Accepted.changes_le {l w l' : List LogEntry} {c c' : Nat}
    {args : AppendEntriesArgs} {success : Bool}
    (h : RaftNode.Accepted l w c args success l' c') (hw : Numbered 1 w)
    (hl : (changesAbove c l).length ≤ 1)
    (hleader : (changesAbove args.leaderCommit w).length ≤ 1) :
    (changesAbove c' l').length ≤ 1 := by
  rcases h.source with hcut | ⟨hok, rfl⟩
  · exact (changesAbove_length_le h.le_commit hcut.sublist).trans hl
  have hreach := h.reaches hok
  have hinitial := take_prefix (args.prevLogIndex + args.entries.length) w
  by_cases hle : args.leaderCommit ≤ c'
  · exact (changesAbove_length_le hle hinitial.sublist).trans hleader
  -- the batch ends where the follower has committed
  rw [changesAbove_eq_nil (hw.initial hinitial)]
  · exact Nat.zero_le 1
  · rw [length_take]
    omega

namespace MemberNode
variable {σ : Type} {n : RaftNode σ} {args : AppendEntriesArgs}

/-- At most one membership change is above the committed index. -/
def OneInFlight (m : MemberNode σ) : Prop :=
  (changesAbove m.node.log.committed m.node.log.entries).length ≤ 1

/-- The invariant, on the core of the node. -/
structure Governed (k : NodeCore) : Prop where
  snapshot : k.lastSnapshotIndex = 0
  interval : k.snapshotInterval = 0
  numbered : Numbered 1 k.entries
  changes : (changesAbove k.committed k.entries).length ≤ 1

namespace Governed
variable {k k' : NodeCore}

/-- The log stays as it is or is cut, and the committed index does not fall. -/
theorem of_cut (h : Governed k) (hsnap : k'.lastSnapshotIndex = k.lastSnapshotIndex)
    (hint : k'.snapshotInterval = k.snapshotInterval) (hentries : k'.entries <+: k.entries)
    (hcommitted : k.committed ≤ k'.committed) : Governed k' :=
  ⟨hsnap.trans h.snapshot, hint.trans h.interval, h.numbered.initial hentries,
    (changesAbove_length_le hcommitted hentries.sublist).trans h.changes⟩

theorem adopt (h : Governed k) (term : Nat) (vote : Option String) :
    Governed { k.adopt term with votedFor := vote } := by
  refine h.of_cut ?_ ?_ ?_ ?_
  · rcases k.adopt_cases term with ⟨-, hr⟩ | ⟨-, hr⟩ <;> rw [hr]
  · rcases k.adopt_cases term with ⟨-, hr⟩ | ⟨-, hr⟩ <;> rw [hr]
  · simp
  · simp

/-- One entry is appended, and the committed index does not fall. -/
theorem append (h : Governed k) {e : LogEntry} (hnum : Numbered 1 (k.entries ++ [e]))
    (hentries : k'.entries = k.entries ++ [e]) (hcommitted : k.committed ≤ k'.committed)
    (hsnap : k'.lastSnapshotIndex = k.lastSnapshotIndex)
    (hint : k'.snapshotInterval = k.snapshotInterval)
    (hfree : e.command.isConfigChange = true → changesAbove k.committed k.entries = []) :
    Governed k' := by
  refine ⟨hsnap.trans h.snapshot, hint.trans h.interval, hentries ▸ hnum, ?_⟩
  refine (changesAbove_length_le hcommitted (List.Sublist.refl _)).trans ?_
  rw [hentries, changesAbove_append, length_append]
  by_cases hchange : e.command.isConfigChange = true
  · have hone : (changesAbove k.committed [e]).length ≤ 1 := length_filter_le _ [e]
    rw [hfree hchange, length_nil]
    omega
  · have hnone : changesAbove k.committed [e] = [] := by
      simp [changesAbove, hchange]
    rw [hnone]
    exact h.changes

end Governed

/-! ## One call -/

/-- The request comes from a leader that obeys the rule: it carries a piece of a log that
agrees with this one wherever their terms meet, with at most one membership change above
what that leader has committed; or it carries nothing. -/
def FromObeyingLeader (l : List LogEntry) (args : AppendEntriesArgs) : Prop :=
  args.entries = [] ∨ ∃ w, Numbered 1 w ∧ Match LogEntry.term l w ∧ Proper w args ∧
    (changesAbove args.leaderCommit w).length ≤ 1

section Calls
variable [RaftStorage σ]

/-- A command keeps the invariant if it is no membership change, or there is none above
the committed index. -/
theorem submitCommand_governed (h : Governed n.core) (clock : Clock)
    {command : RaftCommand} (hfree : command.isConfigChange = true →
      changesAbove n.log.committed n.log.entries = []) :
    Governed (n.submitCommand clock command).2.core := by
  rcases submitCommand_core h.snapshot h.numbered clock command with
    ⟨-, hr⟩ | ⟨-, m, c, rfl, hadv, hr, -⟩
  · rw [hr]
    exact h
  have hle : n.log.committed ≤ c := by
    rcases hadv with hsame | ⟨hlt, -⟩
    · exact Nat.le_of_eq hsame.symm
    · exact Nat.le_of_lt hlt
  rw [hr]
  exact h.append (newEntry_numbered h.numbered command) rfl hle rfl rfl hfree

variable [SnapshotCodec]

/-- A request without entries at most cuts the log. -/
theorem acceptEntries_empty {k : NodeCore} (hk : n.core = k) (h : Governed k)
    (hempty : args.entries = []) (clock : Clock)
    (hterm : k.currentTerm ≤ args.term) : Governed (n.acceptEntries clock args).2.core := by
  have hes : Numbered (args.prevLogIndex + 1) args.entries := by
    rw [hempty]
    exact Numbered.nil _
  obtain ⟨l', c', hcore, hout⟩ := acceptEntries_outcome hk h.snapshot h.numbered hes clock
    hterm (.of_core hk h.interval)
  rw [hcore]
  generalize (n.acceptEntries clock args).1 = success at hout
  cases hout with
  | refused => exact h.of_cut rfl rfl prefix_rfl (Nat.le_refl _)
  | cut _ _ _ _ => exact h.of_cut rfl rfl (List.take_prefix _ _) (Nat.le_refl _)
  | covered _ _ => exact h.of_cut rfl rfl prefix_rfl (Nat.le_max_left _ _)
  | written _ _ hj _ =>
    rw [hempty] at hj
    exact absurd hj (Nat.not_lt_zero _)

/-- A request of an obeying leader keeps the invariant. -/
theorem acceptEntries_governed {k : NodeCore} (hk : n.core = k)
    (h : Governed k) (hfrom : FromObeyingLeader k.entries args)
    (clock : Clock) (hterm : k.currentTerm ≤ args.term) :
    Governed (n.acceptEntries clock args).2.core := by
  rcases hfrom with hempty | ⟨w, hw, hmatch, hp, hleader⟩
  · exact acceptEntries_empty hk h hempty clock hterm
  obtain ⟨l', c', hcore, hacc⟩ := acceptEntries_accepted hk h.snapshot h.interval
    h.numbered hw hmatch hp clock hterm
  rw [hcore]
  exact ⟨h.snapshot, h.interval, hacc.follows.numbered h.numbered hw,
    hacc.changes_le hw h.changes hleader⟩

variable [HmacSha256]

theorem handleAppendEntriesReply_governed (h : Governed n.core) (clock : Clock)
    (draw : Nat) (peerId : String) (reply : AppendEntriesReply) (sent : Nat) :
    Governed (n.handleAppendEntriesReply clock draw peerId reply sent).core := by
  cases handleAppendEntriesReply_core h.snapshot h.interval h.numbered clock draw peerId
      reply sent with
  | ignored hcore | backedOff _ hcore =>
    rw [hcore]
    exact h
  | superseded hcore _ =>
    rw [hcore]
    exact h.adopt reply.term (n.core.adopt reply.term).votedFor
  | recorded c _ _ _ hadv hcore _ _ =>
    have hsame : (n.recordSuccess peerId sent).log.committed = n.log.committed :=
      congrArg NodeCore.committed (n.core_recordSuccess peerId sent)
    have hle : n.log.committed ≤ c := by
      rcases hadv with heq | ⟨hlt, -⟩
      · exact Nat.le_of_eq (hsame.symm.trans heq.symm)
      · exact Nat.le_of_lt (hsame ▸ hlt)
    rw [hcore]
    exact h.of_cut rfl rfl prefix_rfl hle

/-- The runs in question: entries come from obeying leaders, the node's own commands are no
membership changes, and the node keeps its memory and takes no snapshots from others. -/
def Obeys (m : MemberNode σ) : MemberEvent σ → Prop
  | .node (.handleAppendEntries _ args) => FromObeyingLeader m.node.log.entries args
  | .node (.submitCommand _ command) => command.isConfigChange = false
  | .node (.handleInstallSnapshot _ _) => False
  | .node (.attachStorage _ _) => False
  | .node (.restart _ _) => False
  | _ => True

/-- A proposal is only committed while no membership change is above the committed
index. -/
def CommitsAlone (m : MemberNode σ) : MemberEvent σ → Prop
  | .commit _ proposalId => (∃ pending, m.Ready proposalId pending) →
      changesAbove m.node.log.committed m.node.log.entries = []
  | _ => True

theorem step_governed {m : MemberNode σ} (h : Governed m.node.core) {e : MemberEvent σ}
    (hobeys : m.Obeys e) (halone : m.CommitsAlone e) : Governed (m.step e).node.core := by
  cases e with
  | propose clock proposalId nodeId action =>
    rcases m.proposeConfigChange_cases clock proposalId nodeId action with
      hr | ⟨proposal, -, -, hr⟩
    · rw [step, hr]
      exact h
    · rw [step, hr]
      exact h
  | record clock approval =>
    rcases m.recordConfigChangeApproval_cases clock approval with hr | ⟨_, _, -, -, -, hr⟩
    · rw [step, hr]
      exact h
    · rw [step, hr]
      exact h
  | commit clock proposalId =>
    rcases m.commitConfigChangeProposal_cases clock proposalId with
      ⟨-, hr⟩ | ⟨pending, hready, hr⟩
    · rw [step, hr]
      exact h
    · rw [step, hr]
      exact submitCommand_governed h clock fun _ => halone ⟨pending, hready⟩
  | node event =>
    cases event with
    | tryBecomeCandidate draw =>
      rcases m.node.core_tryBecomeCandidate draw with hr | hr
      · exact hr ▸ h
      · exact hr ▸ h.of_cut rfl rfl prefix_rfl (Nat.le_refl _)
    | becomeLeader => exact h.of_cut rfl rfl prefix_rfl (Nat.le_refl _)
    | handleRequestVote clock args =>
      rcases m.node.handleRequestVote_core clock args with ⟨hr, -⟩ | ⟨-, hcast, -⟩
      · exact hr ▸ h
      · obtain ⟨vote, hr⟩ := hcast.adopted
        exact hr ▸ h.adopt args.term vote
    | handleAppendEntries clock args =>
      obtain ⟨cache, k, hk, ⟨hr, -⟩ | ⟨-, hterm, hr, -⟩⟩ :=
        m.node.handleAppendEntries_core clock args
      · change Governed (m.node.handleAppendEntries clock args).2.core
        rw [hr, hk]
        exact h
      · change Governed (m.node.handleAppendEntries clock args).2.core
        rw [hr]
        exact acceptEntries_governed (k := m.node.core) (by rw [hk]; rfl) h hobeys clock hterm
    | handleAppendEntriesReply clock draw peerId reply sent =>
      exact handleAppendEntriesReply_governed h clock draw peerId reply sent
    | submitCommand clock command =>
      refine submitCommand_governed h clock fun hchange => ?_
      have hno : command.isConfigChange = false := hobeys
      rw [hno] at hchange
      cases hchange
    | applyCommitted clock => exact m.node.core_applyCommitted clock ▸ h
    | maybeSnapshot => exact core_maybeSnapshot (.inl h.interval) ▸ h
    | handleInstallSnapshot | attachStorage | restart => exact hobeys.elim

/-- **At most one membership change is in flight**, in every state of a run whose commits
find none above the committed index. -/
theorem oneInFlight_run {m : MemberNode σ} (hnew : m.node.IsNew)
    (hint : m.node.snapshotInterval = 0) {events : List (MemberEvent σ)}
    (h : Along step (fun r e => r.Obeys e ∧ r.CommitsAlone e) m events) :
    (run step m events).OneInFlight := by
  have hstart : Governed m.node.core := by
    have hentries : m.node.core.entries = [] := congrArg RaftLog.entries hnew.log
    refine ⟨hnew.snapshotIndex, hint, hentries ▸ Numbered.nil 1, ?_⟩
    rw [hentries]
    exact Nat.zero_le 1
  have hgov : Governed (run step m events).node.core :=
    induction_run (I := fun r => Governed r.node.core)
      (fun r e hr he => step_governed hr he.1 he.2) hstart h
  exact hgov.changes

end Calls

section Sample
attribute [local instance] noSnapshotCodec hmacSha256

/-- A member of three without a state machine. -/
def plainMember : MemberNode InMemoryStorage where
  node := { (RaftNode.new "n1" ["n2", "n3"] 1000 0 : RaftNode InMemoryStorage) with
    clusterSecret := some sampleSecret }

/-- The proposal to add `n4` is approved while the leader of the next term replicates a
change of its own; then `n1` leads again. -/
def overtakenProposal : List (MemberEvent InMemoryStorage) :=
  proposalApproved ++ [.node (.handleAppendEntries (sampleClock 1000)
    (secondLeaderBatch [.configChange "n5" .addNode] 0))] ++ winElection

/-- The commit of the approved proposal. -/
def commitProposal : MemberEvent InMemoryStorage := .commit (sampleClock 1000) "p1"

/-- The log of the second leader. -/
def secondLeaderLog : List LogEntry := [⟨2, 1, .configChange "n5" .addNode⟩]

/-- The log of the second leader obeys the rule, whatever an empty log held before. -/
theorem fromObeyingLeader_second :
    FromObeyingLeader [] (secondLeaderBatch [.configChange "n5" .addNode] 0) := by
  refine .inr ⟨secondLeaderLog, ?_, ?_, ⟨Nat.zero_le _, ?_, prefix_rfl⟩, ?_⟩
  · exact Numbered.singleton_iff.mpr rfl
  · intro i a b ha
    simp at ha
  · intro e hpos
    exact absurd hpos (Nat.lt_irrefl 0)
  · decide

/-- Proposing and approving append nothing. -/
theorem proposalApproved_log : (run step plainMember proposalApproved).node.log.entries = [] := by
  unfold proposalApproved signedApproval
  rw [hmacSha256_eq]
  decide +kernel

/-- A proposal is approved and committed with nothing else in flight. -/
theorem oneInFlight_single_proposal :
    (run step plainMember (proposalApproved ++ [commitProposal])).OneInFlight := by
  refine oneInFlight_run ⟨rfl, rfl, rfl, rfl, rfl, rfl, rfl, rfl, rfl⟩ rfl ?_
  refine along_append.mpr ⟨⟨⟨trivial, trivial⟩, ⟨trivial, trivial⟩, ⟨trivial, trivial⟩,
    ⟨trivial, trivial⟩, trivial⟩, ⟨trivial, fun _ => ?_⟩, trivial⟩
  rw [proposalApproved_log]
  rfl

/-- An approved proposal is committed over the uncommitted change of another leader: the
leader's log then holds two changes above its committed index. -/
theorem two_changes_in_flight :
    Along step Obeys plainMember (overtakenProposal ++ [commitProposal]) ∧
      (run step plainMember (overtakenProposal ++ [commitProposal])).node.state = .leader ∧
      ¬ (run step plainMember (overtakenProposal ++ [commitProposal])).OneInFlight := by
  have hafter : (run step plainMember (overtakenProposal ++ [commitProposal])).node.state =
        .leader ∧
      2 ≤ (changesAbove
        (run step plainMember (overtakenProposal ++ [commitProposal])).node.log.committed
        (run step plainMember
          (overtakenProposal ++ [commitProposal])).node.log.entries).length := by
    unfold overtakenProposal proposalApproved signedApproval secondLeaderBatch
    rw [hmacSha256_eq]
    decide +kernel
  refine ⟨?_, hafter.1, fun h => Nat.not_succ_le_self 1 (hafter.2.trans h)⟩
  have happend : Along step Obeys plainMember proposalApproved ∧
      (run step plainMember proposalApproved).Obeys (.node (.handleAppendEntries
        (sampleClock 1000) (secondLeaderBatch [.configChange "n5" .addNode] 0))) := by
    refine ⟨⟨trivial, trivial, trivial, trivial, trivial⟩, ?_⟩
    change FromObeyingLeader (run step plainMember proposalApproved).node.log.entries _
    rw [proposalApproved_log]
    exact fromObeyingLeader_second
  refine along_append.mpr ⟨along_append.mpr ⟨along_snoc.mpr happend, ?_⟩, trivial, trivial⟩
  exact ⟨trivial, trivial, trivial⟩

end Sample

end MemberNode

end CratonHsm
