import CratonHsm.RaftLogMatching
import CratonHsm.RaftMatchIndex
import CratonHsm.RaftQuorum

/-!
# Agreement of committed entries

The safety of the cluster: no two nodes hold different entries at an index that both have
committed.  The cluster simulates the machine of `QuorumReplication` (`SafetySim`): every
call is answered by moves at the node it is made on, the messages under way mean what the
machine has recorded, and a committed prefix is one that the machine has decided; leaders hold it.

The bookkeeping of replies is the weak point.  A leader counts a peer by `match_index`, which
`handle_append_entries_reply` rebuilds from `next_index`, and the call commits on any node,
leader or not.  The simulation asks that the replies of a leader are current, and that a node
out of office commits nothing by a reply (`ReplySound`); without that, committed entries are
lost.
-/

namespace CratonHsm
open TermHistory GuardedRun QuorumReplication RaftNode RaftLog Function List

/-! ## Runs -/

/-- Who has voted for `v` in its term: itself, and the peers whose granted replies it has. -/
def Cluster.supporters {σ : Type} (c : Cluster σ) (v : String) : Finset String :=
  (insert v (c.node v).peers.toFinset).filter fun p => p = v ∨ ∃ x ∈ c.votes,
    x.1 = p ∧ x.2.1.candidateId = v ∧ x.2.2.voteGranted = true ∧
      x.2.2.term = (c.node v).currentTerm

/-- Only the winner of an election is made leader; RequestVotes and replies are those that
were sent, and a reply goes to the sender of the request. -/
def ElectionRule {σ : Type} [HmacSha256] (c : Cluster σ) : ClusterEvent → Prop
  | .handleRequestVote v clock args =>
    ((c.node v).verifyRequestVote clock args).1 = true → (v, args) ∈ c.ballots
  | .becomeLeader v => (c.node v).quorumSize ≤ (c.supporters v).card
  | .handleAppendEntriesReply v clock _ peer args reply =>
    args.leaderId = v ∧ (((c.node v).verifyAppendEntriesReply clock reply).1 = true →
      (peer, args, reply) ∈ c.answers)
  | _ => True

/-- A winner has the granted replies of a quorum without counting its own vote. -/
def ElectedByPeers {σ : Type} (c : Cluster σ) : ClusterEvent → Prop
  | .becomeLeader v => (c.node v).quorumSize ≤ ((c.supporters v).erase v).card
  | _ => True

/-- The calls of a run of the voters. -/
def SafetyRule {σ : Type} [HmacSha256] (voters : Finset String) (c : Cluster σ)
    (e : ClusterEvent) : Prop :=
  e.actor ∈ voters ∧ ReplicationRule c e ∧ ElectionRule c e

/-- A node that is not the leader commits nothing by a reply. -/
def NoLateCommit {σ : Type} [RaftStorage σ] [SnapshotCodec] [HmacSha256] (c : Cluster σ) :
    ClusterEvent → Prop
  | .handleAppendEntriesReply v clock draw peer args reply => (c.node v).state ≠ .leader →
    ((c.node v).handleAppendEntriesReply clock draw peer reply
      args.entries.length).log.committed = (c.node v).log.committed
  | _ => True

/-- A node that is not the leader is given no success reply that it would act on. -/
def InOffice {σ : Type} [HmacSha256] (c : Cluster σ) : ClusterEvent → Prop
  | .handleAppendEntriesReply v clock _ _ _ reply =>
    ((c.node v).verifyAppendEntriesReply clock reply).1 = true →
      reply.term ≤ (c.node v).currentTerm → reply.success = true → (c.node v).state = .leader
  | _ => True

/-- What the commit rule relies on at each reply. -/
def ReplySound {σ : Type} [RaftStorage σ] [SnapshotCodec] [HmacSha256] (c : Cluster σ)
    (e : ClusterEvent) : Prop := ReplyCurrent c e ∧ NoLateCommit c e

instance {σ : Type} [HmacSha256] (c : Cluster σ) : (e : ClusterEvent) →
    Decidable (ElectionRule c e)
  | .handleRequestVote v clock args => inferInstanceAs (Decidable
      (((c.node v).verifyRequestVote clock args).1 = true → (v, args) ∈ c.ballots))
  | .becomeLeader v =>
    inferInstanceAs (Decidable ((c.node v).quorumSize ≤ (c.supporters v).card))
  | .handleAppendEntriesReply v clock _ peer args reply => inferInstanceAs (Decidable
      (args.leaderId = v ∧ (((c.node v).verifyAppendEntriesReply clock reply).1 = true →
        (peer, args, reply) ∈ c.answers)))
  | .tryBecomeCandidate .. | .requestVote .. | .submitCommand .. | .prepareAppendEntries ..
  | .replicateToAll .. | .handleAppendEntries .. => inferInstanceAs (Decidable True)

instance {σ : Type} [HmacSha256] (voters : Finset String) (c : Cluster σ) (e : ClusterEvent) :
    Decidable (SafetyRule voters c e) :=
  inferInstanceAs (Decidable (_ ∧ _ ∧ _))

instance {σ : Type} (c : Cluster σ) : (e : ClusterEvent) → Decidable (ElectedByPeers c e)
  | .becomeLeader v =>
    inferInstanceAs (Decidable ((c.node v).quorumSize ≤ ((c.supporters v).erase v).card))
  | .tryBecomeCandidate .. | .requestVote .. | .handleRequestVote .. | .submitCommand ..
  | .prepareAppendEntries .. | .replicateToAll .. | .handleAppendEntries ..
  | .handleAppendEntriesReply .. => inferInstanceAs (Decidable True)

instance {σ : Type} [HmacSha256] (c : Cluster σ) : (e : ClusterEvent) → Decidable (InOffice c e)
  | .handleAppendEntriesReply v clock _ _ _ reply => inferInstanceAs (Decidable
      (((c.node v).verifyAppendEntriesReply clock reply).1 = true →
        reply.term ≤ (c.node v).currentTerm → reply.success = true → (c.node v).state = .leader))
  | .tryBecomeCandidate .. | .requestVote .. | .handleRequestVote .. | .becomeLeader ..
  | .submitCommand .. | .prepareAppendEntries .. | .replicateToAll ..
  | .handleAppendEntries .. => inferInstanceAs (Decidable True)

/-- A reply that a node acts on is the only one that commits. -/
theorem noLateCommit_of_inOffice {σ : Type} [RaftStorage σ] [SnapshotCodec] [HmacSha256]
    {c : Cluster σ} {e : ClusterEvent} (h : InOffice c e) : NoLateCommit c e := by
  cases e with
  | handleAppendEntriesReply v clock draw peer args reply =>
    intro hnot
    obtain ⟨accepts, m, hm, -, ⟨-, hr⟩ | ⟨-, -, hr⟩ | ⟨hver, hle, hs, -⟩ | ⟨-, -, -, hr⟩⟩ :=
      (c.node v).handleAppendEntriesReply_cases clock draw peer reply args.entries.length
    · rw [hr, hm]
    · rw [hr, hm]
      rfl
    · exact absurd (h hver hle hs) hnot
    · rw [hr, hm]
      unfold backOff
      split
      · rfl
      · split <;> rfl
  | _ => trivial

/-- No two nodes hold different entries at an index that both have committed. -/
def Cluster.CommittedAgree {σ : Type} (c : Cluster σ) : Prop :=
  ∀ u v i, i ≤ (c.node u).log.committed → i ≤ (c.node v).log.committed →
    (c.node u).log.get i = (c.node v).log.get i

/-- A leader is the only one of its term, and holds whatever any node has committed unless a voter
is in a later term. -/
def Cluster.LeaderComplete {σ : Type} (voters : Finset String) (c : Cluster σ) : Prop :=
  ∀ u v, (c.node v).state = .leader →
    ((c.node u).state = .leader → (c.node u).currentTerm = (c.node v).currentTerm → u = v) ∧
    ((∀ w ∈ voters, (c.node w).currentTerm ≤ (c.node v).currentTerm) →
      (c.node u).log.entries.take (c.node u).log.committed <+: (c.node v).log.entries)

/-- Fresh nodes, of which the voters are each other's peers. -/
structure Cluster.IsFreshOf {σ : Type} (voters : Finset String) (c : Cluster σ) : Prop where
  fresh : c.IsFresh
  peers : ∀ v ∈ voters, PeersOf voters v (c.node v).peers

/-! ## The simulation -/

/-- The RequestVote of a candidacy that the machine has recorded. -/
def Ballot (s : State String LogEntry) (args : RequestVoteArgs) : Prop :=
  ∃ L, s.stood args.term args.candidateId L ∧ args.lastLogIndex = L.length ∧
    args.lastLogTerm = lastTerm LogEntry.term L

theorem Ballot.grows {s q : State String LogEntry} {args : RequestVoteArgs} (h : Ballot s args)
    (hg : Grows s q) : Ballot q args := by
  obtain ⟨L, hstood, hindex, hterm⟩ := h
  exact ⟨L, hg.stood _ _ _ hstood, hindex, hterm⟩

/-- The vote comparison of the source is the machine's. -/
theorem upToDate_machine {l : RaftLog} (hl : Numbered 1 l.entries) {L : List LogEntry}
    (h : upToDate l L.length (lastTerm LogEntry.term L) = true) :
    UpToDate LogEntry.term L l.entries := by
  have hterm : l.lastTerm = lastTerm LogEntry.term l.entries := rfl
  unfold upToDate at h
  rw [hterm, lastIndex_eq_length hl] at h
  split at h
  · rename_i hlt
    exact .inl hlt
  split at h
  · rename_i heq
    exact .inr ⟨heq.symm, of_decide_eq_true h⟩
  · cases h

/-- The cluster, seen from the machine. -/
structure SafetySim {σ : Type} (voters : Finset String) (s : State String LogEntry)
    (c : Cluster σ) : Prop where
  inv : Inv LogEntry.term (Majority voters) s
  logs : LogSim s.history s.leader c
  node : ∀ v, NodeSafe voters s v (c.node v).core (c.node v).roster
  ballots : ∀ x ∈ c.ballots, Ballot s x.2
  votes : ∀ x ∈ c.votes, x.2.2.voteGranted = true →
    ∃ W, s.granted x.1 x.2.2.term x.2.1.candidateId W
  appends : ∀ x ∈ c.appends, Request voters s x.2
  answers : ∀ x ∈ c.answers, x.2.2.success = true → Answer s x.1 x.2.1

theorem SameHistory.logs {σ : Type} {s q : State String LogEntry} {c : Cluster σ}
    (h : SameHistory s q) (hs : LogSim s.history s.leader c) : LogSim q.history q.leader c := by
  rw [h.history, h.leader]
  exact hs

namespace SafetySim
variable {σ : Type} {voters : Finset String} {s q : State String LogEntry} {c c' : Cluster σ}

section
variable (h : SafetySim voters s c)
include h

/-- One node moves, and the machine with it. -/
theorem of_moves {v : String} (hm : Moves voters v s q)
    {n : RaftNode σ} (hnode : c'.node = update c.node v n)
    (hlogs : LogSim q.history q.leader c') (hn : NodeSafe voters q v n.core n.roster)
    (hballots : ∀ x ∈ c'.ballots, x ∈ c.ballots)
    (hvotes : ∀ x ∈ c'.votes, x ∈ c.votes ∨ (x.2.2.voteGranted = true → ∃ W, q.granted x.1
      x.2.2.term x.2.1.candidateId W))
    (happends : ∀ x ∈ c'.appends, x ∈ c.appends ∨ Request voters q x.2)
    (hanswers : ∀ x ∈ c'.answers, x ∈ c.answers ∨ (x.2.2.success = true → Answer q x.1 x.2.1)) :
    SafetySim voters q c' := by
  have hg := hm.grows h.inv
  refine ⟨hm.inv h.inv, hlogs, fun u => ?_, fun x hx => (h.ballots x (hballots x hx)).grows hg,
    fun x hx => ?_, fun x hx => ?_, fun x hx => ?_⟩
  · rw [hnode]
    by_cases hu : u = v
    · rw [hu, update_self]
      exact hn
    · rw [update_of_ne hu]
      exact (h.node u).of_moves h.inv hm hu
  · rcases hvotes x hx with hold | hnew
    · intro hgranted
      obtain ⟨W, hW⟩ := h.votes x hold hgranted
      exact ⟨W, hg.granted _ _ _ _ hW⟩
    · exact hnew
  · rcases happends x hx with hold | hnew
    · exact (h.appends x hold).grows h.inv hg
    · exact hnew
  · rcases hanswers x hx with hold | hnew
    · exact fun hs => (h.answers x hold hs).grows hg
    · exact hnew

/-- What a leader sends is a piece of what its term has written. -/
theorem sends {v p : String} {args : AppendEntriesArgs}
    (hsend : (c.node v).Sends p args) : Request voters s args := by
  have hn := h.node v
  obtain ⟨hled, hwritten⟩ := (h.logs.node v).leads hsend.leads
  change s.leader (c.node v).currentTerm = some v at hled
  change s.history.written (c.node v).currentTerm = (c.node v).log.entries at hwritten
  obtain ⟨ni, hni, -, ⟨-, hproper⟩ | ⟨hlt, -⟩⟩ := hsend.next
  · refine ⟨?_, ?_, ?_, ?_⟩
    · rw [hsend.term, hled]
      rfl
    · rw [hsend.term, hwritten]
      exact hproper
    · rw [hsend.term, hwritten, hsend.commit]
      exact hn.committed_le
    · rw [hsend.term, hwritten, hsend.commit]
      exact hn.decided
  · have hle := hn.next_le hsend.leads p ni hni
    change ni ≤ (c.node v).log.entries.length + 1 at hle
    omega

theorem of_sent {v : String} (hsent : c.Sent v c') :
    SafetySim voters s c' := by
  have hlogs := h.logs.of_sent hsent
  obtain ⟨n, messages, hsends, hcore, hroster⟩ := hsent
  refine h.of_moves (.refl voters v s) rfl hlogs ?_ (fun x hx => hx) (fun x hx => .inl hx)
    (fun x hx => ?_) (fun x hx => .inl hx)
  · rw [hcore, hroster]
    exact h.node v
  · rcases mem_append.mp hx with hold | hnew
    · exact .inl hold
    · exact .inr (h.sends (hsends x hnew))

end

variable {v : String} {clock : Clock} {args : AppendEntriesArgs}

/-- The quorum of a winner is a majority of voters that have voted for it. -/
theorem majority_of_quorum (h : SafetySim voters s c) (hv : v ∈ voters)
    (hcand : (c.node v).state = .candidate)
    (hquorum : (c.node v).quorumSize ≤ (c.supporters v).card) :
    Majority voters (c.supporters v) ∧
      ∀ u ∈ c.supporters v, ∃ W, s.granted u (c.node v).currentTerm v W := by
  have hpeers := (h.node v).peers hv
  refine ⟨⟨?_, ?_⟩, fun u hu => ?_⟩
  · rw [← hpeers.voters]
    exact Finset.filter_subset _ _
  · rw [hpeers.card]
    change (c.node v).peers.length + 1 < _
    unfold quorumSize at hquorum
    omega
  · rcases (Finset.mem_filter.mp hu).2 with rfl | ⟨x, hx, rfl, hid, hgranted, hterm⟩
    · exact ((h.node u).stands hcand).2
    · rw [← hterm, ← hid]
      exact h.votes x hx hgranted

/-- A success is recorded, and the leader commits what it now knows to be held. -/
theorem recorded (h : SafetySim voters s c) (hv : v ∈ voters) {peer : String}
    (hanswer : Answer s peer args)
    (hcurrent : (c.node v).state = .leader → ∀ ni, (c.node v).nextIndex[peer]? = some ni →
      args.term = (c.node v).currentTerm ∧ ni ≤ args.prevLogIndex + 1 ∨ ni + args.entries.length ≤
      (c.node v).matchIndex[peer]?.getD 0 + 1) {c' : Nat}
    (hadv : ((c.node v).recordSuccess peer args.entries.length).Advances c')
    (hlate : (c.node v).state ≠ .leader → c' = (c.node v).log.committed) :
    ∃ q, Moves voters v s q ∧ SameHistory s q ∧
      NodeSafe voters q v { (c.node v).core with committed := c' }
        ((c.node v).recordSuccess peer args.entries.length).roster := by
  have hwritten : (c.node v).state = .leader →
      s.history.written (c.node v).currentTerm = (c.node v).log.entries :=
    fun hleads => ((h.logs.node v).leads hleads).2
  have hrec := (h.node v).record hwritten (h.logs.node v).next hanswer hcurrent
  have hcore := (c.node v).core_recordSuccess peer args.entries.length
  by_cases hleads : (c.node v).state = .leader
  swap
  · rw [hlate hleads]
    exact ⟨s, .refl voters v s, .refl s, hrec⟩
  rw [← hcore] at hrec ⊢
  refine hrec.advance h.inv hv ?_ ?_ ?_ hadv
  · exact (congrArg NodeCore.id hcore).trans (h.logs.node v).id
  · exact (congrArg NodeCore.state hcore).trans hleads
  have hterm := congrArg NodeCore.currentTerm hcore
  have hentries := congrArg NodeCore.entries hcore
  change (recordSuccess _ _ _).currentTerm = (c.node v).currentTerm at hterm
  change (recordSuccess _ _ _).log.entries = (c.node v).log.entries at hentries
  rw [hterm, hentries]
  exact hwritten hleads

theorem init (hc : c.IsFreshOf voters) : SafetySim voters State.init c := by
  have hnode : ∀ v, NodeSafe voters State.init v (c.node v).core (c.node v).roster := by
    intro v
    have hv := hc.fresh.node v
    have hlog : (c.node v).core.entries = [] := by
      change (c.node v).log.entries = []
      rw [hv.log]
    have hcommitted : (c.node v).core.committed = 0 := by
      change (c.node v).log.committed = 0
      rw [hv.log]
    have hstate : (c.node v).core.state = .follower := hv.state
    refine ⟨hlog.symm, hv.term.symm, fun _ _ hg => hg.elim, fun hs => ?_, hc.peers v, fun hs => ?_,
      fun hs => ?_, ?_, .inl ?_⟩
    · rw [hstate] at hs
      cases hs
    · rw [hstate] at hs
      cases hs
    · rw [hstate] at hs
      cases hs
    · rw [hcommitted]
      exact Nat.zero_le _
    · rw [hlog, take_nil]
  refine ⟨.init, .init hc.fresh, hnode, ?_, ?_, ?_, ?_⟩
  · rw [hc.fresh.ballots]
    exact nofun
  · rw [hc.fresh.votes]
    exact nofun
  · rw [hc.fresh.appends]
    exact nofun
  · rw [hc.fresh.answers]
    exact nofun

/-- Decided prefixes agree, and so do committed entries. -/
theorem committedAgree (h : SafetySim voters s c) : c.CommittedAgree := by
  have hle : ∀ u v i, i ≤ (c.node u).log.committed →
      (c.node u).log.entries.take (c.node u).log.committed <+:
        (c.node v).log.entries.take (c.node v).log.committed →
      (c.node u).log.get i = (c.node v).log.get i := by
    intro u v i hi hprefix
    rw [get_of_numbered (h.logs.entries_numbered u) Nat.one_pos,
      get_of_numbered (h.logs.entries_numbered v) Nat.one_pos]
    split
    swap
    · rfl
    have hlen : (c.node u).log.committed ≤ (c.node u).log.entries.length := (h.node u).committed_le
    have hget := getElem?_initial hprefix (i := i - 1) (by rw [length_take]; omega)
    have hlt : i - 1 < (c.node v).log.committed := by
      have := hprefix.length_le
      rw [length_take, length_take] at this
      omega
    rw [getElem?_take_of_lt hlt, getElem?_take_of_lt (by omega)] at hget
    exact hget.symm
  intro u v i hu hv
  rcases h.inv.decided_agree (fun _ _ hQ hB => Majority.meets hQ hB) (h.node u).decided
    (h.node v).decided with huv | hvu
  · exact hle u v i hu huv
  · exact (hle v u i hv hvu).symm

/-- A majority has elected the leader, and shares a voter with the half that has acknowledged. -/
theorem leaderComplete (h : SafetySim voters s c) : c.LeaderComplete voters := by
  intro u v hv
  obtain ⟨hled, hwritten⟩ := (h.logs.node v).leads hv
  refine ⟨fun hu hterm => ?_, fun hlatest => ?_⟩
  · obtain ⟨hled', -⟩ := (h.logs.node u).leads hu
    exact Option.some.inj (hled'.symm.trans ((congrArg s.leader hterm).trans hled))
  rcases (h.node u).decided with hnil | ⟨t, P, hP, hprefix⟩
  · exact hnil ▸ nil_prefix
  obtain ⟨-, hPt, B, hB, hacked⟩ := id hP
  obtain ⟨-, Q, hQ, -⟩ := h.inv.elected _ v hled
  obtain ⟨w, hw⟩ := hQ.meets hB
  obtain ⟨hwQ, hwB⟩ := Finset.mem_inter.mp hw
  obtain ⟨P', hP', -⟩ := hacked w hwB
  have hle : t ≤ (c.node v).currentTerm :=
    calc t ≤ s.cur w := h.inv.acked_le w t P' hP'
      _ = (c.node w).currentTerm := (h.node w).cur
      _ ≤ (c.node v).currentTerm := hlatest w (hQ.1 hwQ)
  refine hprefix.trans (?_ : P <+: (c.node v).core.entries)
  rw [← hwritten]
  rcases Nat.lt_or_eq_of_le hle with hlt | rfl
  · exact (h.inv.chosen_in_start (fun _ _ => Majority.meets) hP hlt
      (Option.isSome_of_mem hled)).trans (h.inv.valid.start_initial _)
  · exact hPt

/-! ## One lemma for each call -/

variable [RaftStorage σ] [SnapshotCodec] [HmacSha256]

section Calls
variable (h : SafetySim voters s c)
include h

theorem tryBecomeCandidate (v : String) (draw : Nat) :
    ∃ q, SafetySim voters q (c.step (.tryBecomeCandidate v draw)) := by
  have hlogs := h.logs.step_same (e := .tryBecomeCandidate v draw) trivial id
  have hmove : ∃ q, Moves voters v s q ∧ SameHistory s q ∧
      NodeSafe voters q v (((c.node v).tryBecomeCandidate draw).getD (c.node v)).core
        (((c.node v).tryBecomeCandidate draw).getD (c.node v)).roster := by
    rw [roster_tryBecomeCandidate]
    rcases (c.node v).core_tryBecomeCandidate draw with hcore | hcore
    · rw [hcore]
      exact ⟨s, .refl voters v s, .refl s, h.node v⟩
    · rw [hcore, show (c.node v).id = v from (h.logs.node v).id]
      exact (h.node v).stand h.inv
  obtain ⟨q, hm, hsame, hn⟩ := hmove
  exact ⟨q, h.of_moves hm rfl (hsame.logs hlogs) hn (fun x hx => hx) (fun x hx => .inl hx)
    (fun x hx => .inl hx) (fun x hx => .inl hx)⟩

theorem requestVote (v : String) (clock : Clock) (peer : String) :
    SafetySim voters s (c.step (.requestVote v clock peer)) := by
  refine { h with
    logs := h.logs.step_same (e := .requestVote v clock peer) trivial id
    node := h.node, votes := h.votes, appends := h.appends, answers := h.answers
    ballots := fun x hx => ?_ }
  rcases mem_append.mp hx with hold | hnew
  · exact h.ballots x hold
  obtain ⟨args, hargs, rfl⟩ := mem_map.mp hnew
  rw [Option.mem_toList] at hargs
  unfold requestVoteArgs at hargs
  split at hargs
  swap
  · cases hargs
  rename_i hstate
  cases hargs
  have hid : (c.node v).id = v := (h.logs.node v).id
  refine ⟨(c.node v).log.entries, ?_, lastIndex_eq_length (h.logs.entries_numbered v), rfl⟩
  rw [hid]
  exact ((h.node v).stands hstate).1

theorem handleRequestVote {args : RequestVoteArgs}
    (hsent : ((c.node v).verifyRequestVote clock args).1 = true → (v, args) ∈ c.ballots) :
    ∃ q, SafetySim voters q (c.step (.handleRequestVote v clock args)) := by
  have hlogs := h.logs.step_same (e := .handleRequestVote v clock args) trivial id
  have hmove : ∃ q, Moves voters v s q ∧ SameHistory s q ∧
      NodeSafe voters q v ((c.node v).handleRequestVote clock args).2.core
        ((c.node v).handleRequestVote clock args).2.roster ∧
      (((c.node v).handleRequestVote clock args).1.voteGranted = true →
        ∃ W, q.granted v ((c.node v).handleRequestVote clock args).1.term args.candidateId W) := by
    rw [roster_handleRequestVote]
    rcases (c.node v).handleRequestVote_core clock args with ⟨hcore, hno⟩ | ⟨hver, hcast, hterm⟩
    · rw [hcore, hno]
      exact ⟨s, .refl voters v s, .refl s, h.node v, nofun⟩
    obtain ⟨q, hm, hsame, hn⟩ := (h.node v).adopt h.inv args.term
    by_cases hg : ((c.node v).handleRequestVote clock args).1.voteGranted = true
    swap
    · refine ⟨q, hm, hsame, ?_, fun hyes => absurd hyes hg⟩
      rw [hcast.core, if_neg hg]
      exact hn
    -- the ballot is of a candidacy of the term that the voter is in by now
    obtain ⟨L, hstood, hindex, hlast⟩ := h.ballots _ (hsent hver)
    have hcompare := hcast.compare hg
    rw [hindex, hlast] at hcompare
    have hcur := hcast.term hg
    obtain ⟨q', hm', hsame', hn', hgranted⟩ := hn.vote (hm.inv h.inv)
      (by rw [hcur]; exact (hm.grows h.inv).stood _ _ _ hstood)
      (by rw [NodeCore.adopt_entries]; exact upToDate_machine (h.logs.entries_numbered v) hcompare)
      (hcast.vote hg)
    refine ⟨q', hm.trans hm', hsame.trans hsame', ?_, fun _ => ?_⟩
    · rw [hcast.core, if_pos hg]
      exact hn'
    · rw [hterm]
      exact ⟨_, hgranted⟩
  obtain ⟨q, hm, hsame, hn, hgranted⟩ := hmove
  refine ⟨q, h.of_moves hm rfl (hsame.logs hlogs) hn (fun x hx => mem_of_mem_erase hx)
    (fun x hx => ?_) (fun x hx => .inl hx) (fun x hx => .inl hx)⟩
  rcases mem_append.mp hx with hold | hnew
  · exact .inl hold
  rw [mem_singleton.mp hnew]
  right
  rw [signRequestVoteReply_voteGranted, signRequestVoteReply_term]
  exact hgranted

theorem becomeLeader (hv : v ∈ voters)
    (hcand : (c.node v).state = .candidate)
    (hquorum : (c.node v).quorumSize ≤ (c.supporters v).card) :
    ∃ q, SafetySim voters q (c.step (.becomeLeader v)) := by
  obtain ⟨hQ, hvotes⟩ := h.majority_of_quorum hv hcand hquorum
  -- an earlier winner of the term would be `v`, who is still a candidate
  have hfree : s.leader (c.node v).currentTerm = none := by
    rw [Option.eq_none_iff_forall_ne_some]
    intro u hu
    obtain rfl := h.inv.elected_once (fun _ _ hQ hR => hQ.meets hR.half) hu hQ hvotes
    exact ((h.logs.node v).led _ hu).2 rfl hcand
  have hlogs := h.logs.elect hcand hfree
  have hlen := lastIndex_eq_length (h.logs.entries_numbered v)
  obtain ⟨q, hm, hhistory, hleader, hn⟩ := (h.node v).elect h.inv hcand hfree hQ hvotes
    (show (c.node v).becomeLeader.roster.peers = (c.node v).roster.peers from rfl)
    (fun p ni hni => (becomeLeader_nextIndex hni).trans (congrArg (· + 1) hlen))
    (fun p m hm => becomeLeader_matchIndex hm)
  refine ⟨q, h.of_moves (n := (c.node v).becomeLeader) hm rfl ?_ hn (fun x hx => hx)
    (fun x hx => .inl hx) (fun x hx => .inl hx) (fun x hx => .inl hx)⟩
  rw [hhistory, hleader]
  exact hlogs

theorem submitCommand (hv : v ∈ voters) (clock : Clock)
    {command : RaftCommand} (hcommand : command.isConfigChange = false) :
    ∃ q, SafetySim voters q (c.step (.submitCommand v clock command)) := by
  have hnode := h.logs.node v
  rcases submitCommand_core hnode.snapshot (h.logs.entries_numbered v) clock command with
    ⟨hnot, hsame⟩ | ⟨hleads, m, c', hmdef, hadv, hcore, -, hroster⟩
  · refine ⟨s, h.of_moves (.refl voters v s) rfl (h.logs.step_same hcommand hnot) ?_
      (fun x hx => hx) (fun x hx => .inl hx) (fun x hx => .inl hx) (fun x hx => .inl hx)⟩
    rw [hsame]
    exact h.node v
  obtain ⟨hled, hwritten⟩ := hnode.leads hleads
  change s.leader (c.node v).currentTerm = some v at hled
  change s.history.written (c.node v).currentTerm = (c.node v).log.entries at hwritten
  have hlogs : LogSim _ _ (c.step (.submitCommand v clock command)) := h.logs.submit hleads hcommand
  obtain ⟨q, hm, hhistory, hleader, hn⟩ := (h.node v).append h.inv hleads hled hwritten
    (e := (c.node v).newEntry command) rfl
  have hmnode : NodeSafe voters q v m.core m.roster := by
    rw [hmdef]
    exact hn
  have hmwritten : q.history.written m.currentTerm = m.log.entries := by
    rw [hhistory, hmdef]
    change (History.extend _ (c.node v).currentTerm _).written (c.node v).currentTerm = _
    rw [History.extend_written_self, hwritten]
    rfl
  obtain ⟨q', hm', hsame', hn'⟩ := hmnode.advance (hm.inv h.inv) hv
    (by rw [hmdef]; exact hnode.id) (by rw [hmdef]; exact hleads) hmwritten hadv
  have hfree : ConfigFree m.log.entries := by
    rw [hmdef]
    intro e he
    rcases mem_append.mp he with hold | hnew
    · exact h.logs.entries_configFree v e hold
    · rw [mem_singleton.mp hnew]
      exact hcommand
  refine ⟨q', h.of_moves (hm.trans hm') rfl ?_ ?_ (fun x hx => hx) (fun x hx => .inl hx)
    (fun x hx => .inl hx) (fun x hx => .inl hx)⟩
  · refine hsame'.logs ?_
    rw [hhistory, hleader]
    exact hlogs
  · rw [hcore, hroster hfree]
    rw [hmdef] at hn' ⊢
    exact hn'

theorem handleAppendEntries
    (hsent : ((c.node v).verifyAppendEntries clock args).1 = true → (v, args) ∈ c.appends) :
    ∃ q, SafetySim voters q (c.step (.handleAppendEntries v clock args)) := by
  have hlogs := h.logs.step_same (e := .handleAppendEntries v clock args) hsent id
  have hself : (c.step (.handleAppendEntries v clock args)).node v =
      ((c.node v).handleAppendEntries clock args).2 := update_self ..
  have hn := h.logs.node v
  have hmove : ∃ q, Moves voters v s q ∧ SameHistory s q ∧
      NodeSafe voters q v ((c.node v).handleAppendEntries clock args).2.core
        ((c.node v).handleAppendEntries clock args).2.roster ∧
      (((c.node v).handleAppendEntries clock args).1.success = true → Answer q v args) := by
    have hfree := hlogs.entries_configFree v
    rw [hself] at hfree
    obtain ⟨cache, m, hm, ⟨hafter, hfail⟩ | ⟨hver, hterm, hafter, hsuccess⟩⟩ :=
      (c.node v).handleAppendEntries_core clock args
    · rw [hafter, hfail, hm]
      exact ⟨s, .refl voters v s, .refl s, h.node v, nofun⟩
    have hreq := h.appends _ (hsent hver)
    obtain ⟨l', c', hcore, hacc⟩ := acceptEntries_accepted (n := m)
      (show m.core = (c.node v).core by rw [hm]; rfl) hn.snapshot hn.interval
      (h.logs.entries_numbered v) (h.logs.numbered _) (h.logs.entries_matches v _) hreq.proper
      clock hterm
    rw [hafter] at hfree
    have hroster : (m.acceptEntries clock args).2.roster = (c.node v).roster := by
      rw [roster_acceptEntries (by rw [hm]; exact hn.interval) hfree, hm]
      rfl
    rw [hafter, hsuccess, hcore, hroster]
    exact (h.node v).accept h.inv hreq hterm hacc
  obtain ⟨q, hm, hsame, hnode, hanswer⟩ := hmove
  refine ⟨q, h.of_moves hm rfl (hsame.logs hlogs) hnode (fun x hx => hx) (fun x hx => .inl hx)
    (fun x hx => .inl (mem_of_mem_erase hx)) (fun x hx => ?_)⟩
  rcases mem_append.mp hx with hold | hnew
  · exact .inl hold
  rw [mem_singleton.mp hnew]
  right
  rw [signAppendEntriesReply_success]
  exact hanswer

theorem handleAppendEntriesReply (hv : v ∈ voters) {draw : Nat}
    {peer : String} {reply : AppendEntriesReply}
    (hsent : ((c.node v).verifyAppendEntriesReply clock reply).1 = true → (peer, args, reply) ∈
      c.answers) (hsound : ReplySound c (.handleAppendEntriesReply v clock draw peer args reply)) :
    ∃ q, SafetySim voters q (c.step (.handleAppendEntriesReply v clock draw peer args reply)) := by
  have hlogs := h.logs.step_same (e := .handleAppendEntriesReply v clock draw peer args reply)
    trivial id
  obtain ⟨hcurrent, hlate⟩ := hsound
  have hn := h.logs.node v
  have hmove : ∃ q, Moves voters v s q ∧ SameHistory s q ∧ NodeSafe voters q v
      ((c.node v).handleAppendEntriesReply clock draw peer reply args.entries.length).core
      ((c.node v).handleAppendEntriesReply clock draw peer reply args.entries.length).roster := by
    rcases handleAppendEntriesReply_core hn.snapshot hn.interval
      (h.logs.entries_numbered v) clock draw peer reply args.entries.length with
      ⟨hcore, hroster⟩ | ⟨hcore, hroster⟩ | ⟨c', hver, hle, hs, hadv, hcore, -, hroster⟩ |
        ⟨draw', hcore, hroster⟩
    · rw [hcore, hroster]
      exact ⟨s, .refl voters v s, .refl s, h.node v⟩
    · rw [hcore, hroster]
      exact (h.node v).adopt h.inv reply.term
    · have hcommitted := congrArg NodeCore.committed hcore
      rw [hcore, hroster (h.logs.entries_configFree v)]
      exact h.recorded hv (h.answers _ (hsent hver) hs)
        (fun hleads => hcurrent hver hle hs hleads) hadv
        (fun hnot => hcommitted.symm.trans (hlate hnot))
    · rw [hcore, hroster]
      refine ⟨s, .refl voters v s, .refl s, ?_⟩
      rcases (c.node v).backOff_maps draw' peer with hsame | ⟨x, y, hx, -, hyx, hset⟩
      · rw [hsame]
        exact h.node v
      rw [hset]
      refine (h.node v).with_roster rfl (fun hl p ni hni => ?_) (fun _ p m hm => .inl hm)
      rcases insert_getElem? hni with ⟨rfl, rfl⟩ | hold
      · exact .inr (Nat.le_trans hyx ((h.node v).next_le hl _ x hx))
      · exact .inl hold
  obtain ⟨q, hm, hsame, hnode⟩ := hmove
  exact ⟨q, h.of_moves hm rfl (hsame.logs hlogs) hnode (fun x hx => hx) (fun x hx => .inl hx)
    (fun x hx => .inl hx) (fun x hx => .inl (mem_of_mem_erase hx))⟩

/-- **Every call of the run is answered by moves of the machine.** -/
theorem step {e : ClusterEvent} (hrule : SafetyRule voters c e)
    (hsound : ReplySound c e) : ∃ q, SafetySim voters q (c.step e) := by
  obtain ⟨hv, hreplicates, helects⟩ := hrule
  cases e with
  | tryBecomeCandidate v draw => exact h.tryBecomeCandidate v draw
  | requestVote v clock peer => exact ⟨s, h.requestVote v clock peer⟩
  | handleRequestVote v clock args => exact h.handleRequestVote helects
  | becomeLeader v => exact h.becomeLeader hv hreplicates helects
  | submitCommand v clock command => exact h.submitCommand hv clock hreplicates
  | prepareAppendEntries v clock peer =>
    exact ⟨s, h.of_sent (h.logs.prepareAppendEntries v clock peer)⟩
  | replicateToAll v clock => exact ⟨s, h.of_sent (h.logs.replicateToAll v clock)⟩
  | handleAppendEntries v clock args => exact h.handleAppendEntries hreplicates
  | handleAppendEntriesReply v clock draw peer args reply =>
    exact h.handleAppendEntriesReply hv helects.2 hsound

end Calls

end SafetySim

namespace Cluster
variable {σ : Type} [RaftStorage σ] [SnapshotCodec] [HmacSha256]

/-- **The run of the cluster is a run of the machine.** -/
theorem safetySim_run {voters : Finset String} {c : Cluster σ} (hc : c.IsFreshOf voters)
    {events : List ClusterEvent}
    (h : Along step (fun c e => SafetyRule voters c e ∧ ReplySound c e) c events) :
    ∃ s, SafetySim voters s (c.run events) :=
  induction_run (I := fun r => ∃ s, SafetySim voters s r)
    (fun _ _ hr he => hr.elim fun _ hs => hs.step he.1 he.2) ⟨_, .init hc⟩ h

/-- **State machine safety**: in every run whose success replies are current and reach a leader, no
two nodes hold different entries at an index that both have committed. -/
theorem committedAgree_run {voters : Finset String} {c : Cluster σ} (hc : c.IsFreshOf voters)
    {events : List ClusterEvent}
    (h : Along step (fun c e => SafetyRule voters c e ∧ ReplyCurrent c e ∧ InOffice c e) c
      events) : (c.run events).CommittedAgree := by
  obtain ⟨s, hs⟩ := safetySim_run hc (h.imp fun _ _ he =>
    ⟨he.1, he.2.1, noLateCommit_of_inOffice he.2.2⟩)
  exact hs.committedAgree

/-- **Leader completeness** in every run whose replies all meet `ReplySound`. -/
theorem leaderComplete_run {voters : Finset String} {c : Cluster σ} (hc : c.IsFreshOf voters)
    {events : List ClusterEvent}
    (h : Along step (fun c e => SafetyRule voters c e ∧ ReplySound c e) c events) :
    (c.run events).LeaderComplete voters := by
  obtain ⟨s, hs⟩ := safetySim_run hc h
  exact hs.leaderComplete

end Cluster

section Sample

def trioVoters : Finset String := {"n1", "n2", "n3"}

theorem trio_isFreshOf : trio.IsFreshOf trioVoters := by
  refine ⟨trio_isFresh, fun v hv => ?_⟩
  have hpeers : ∀ v ∈ trioVoters, (trio.node v).peers.Nodup ∧ v ∉ (trio.node v).peers ∧
      insert v (trio.node v).peers.toFinset = trioVoters := by decide +kernel
  exact ⟨(hpeers v hv).1, (hpeers v hv).2.1, (hpeers v hv).2.2⟩

/-- Five nodes that share a secret. -/
def quintet : Cluster InMemoryStorage where
  node v := { (RaftNode.new v (["n1", "n2", "n3", "n4", "n5"].filter (· ≠ v)) 1000 0 :
      RaftNode InMemoryStorage) with clusterSecret := some sampleSecret, storage := some {} }

def quintetVoters : Finset String := {"n1", "n2", "n3", "n4", "n5"}

theorem quintet_isFreshOf : quintet.IsFreshOf quintetVoters := by
  refine ⟨⟨fun _ => ⟨rfl, rfl, rfl, rfl, rfl, rfl, rfl, rfl⟩, fun _ => rfl, rfl, rfl, rfl, rfl⟩,
    fun v hv => ?_⟩
  have hpeers : ∀ v ∈ quintetVoters, (quintet.node v).peers.Nodup ∧
      v ∉ (quintet.node v).peers ∧ insert v (quintet.node v).peers.toFinset = quintetVoters := by
    decide +kernel
  exact ⟨(hpeers v hv).1, (hpeers v hv).2.1, (hpeers v hv).2.2⟩

section Messages
variable [HmacSha256]

/-- The AppendEntries of `leaderId` behind the first entry, which is of term 1. -/
def nextAppend (term : Nat) (leaderId : String) (entries : List LogEntry)
    (leaderCommit timestampMs : Nat) : AppendEntriesArgs :=
  signedAppend term leaderId 1 1 entries leaderCommit timestampMs

/-- `n1` wins term 1 with the vote of `n2`, and commits its first entry on both. -/
def firstCommit : List ClusterEvent :=
  [.tryBecomeCandidate "n1" 0, .requestVote "n1" (sampleClock 800) "n2",
    .handleRequestVote "n2" (sampleClock 801) (signedVote 1 "n1" 0 0 800), .becomeLeader "n1",
    .submitCommand "n1" (sampleClock 900) .noop,
    .prepareAppendEntries "n1" (sampleClock 1000) "n2",
    .handleAppendEntries "n2" (sampleClock 1001) (firstAppend 1000),
    .handleAppendEntriesReply "n1" (sampleClock 1002) 0 "n2" (firstAppend 1000)
      (signedSuccess 1 1001),
    .prepareAppendEntries "n1" (sampleClock 1003) "n2",
    .handleAppendEntries "n2" (sampleClock 1004) (nextAppend 1 "n1" [] 1 1003)]

/-- `n1` wins term 1 and brings its first entry to `n2` and `n3`, twice each, and to `n4`.
The second confirmations of `n2` and `n3` reach it after its second entry. -/
def doubleConfirmation : List ClusterEvent :=
  [.tryBecomeCandidate "n1" 0, .requestVote "n1" (sampleClock 800) "n2",
    .requestVote "n1" (sampleClock 800) "n3", .requestVote "n1" (sampleClock 800) "n4",
    .handleRequestVote "n2" (sampleClock 801) (signedVote 1 "n1" 0 0 800),
    .handleRequestVote "n3" (sampleClock 802) (signedVote 1 "n1" 0 0 800),
    .handleRequestVote "n4" (sampleClock 803) (signedVote 1 "n1" 0 0 800), .becomeLeader "n1",
    .submitCommand "n1" (sampleClock 900) .noop,
    .prepareAppendEntries "n1" (sampleClock 1000) "n2",
    .prepareAppendEntries "n1" (sampleClock 1001) "n2",
    .prepareAppendEntries "n1" (sampleClock 1000) "n3",
    .prepareAppendEntries "n1" (sampleClock 1001) "n3",
    .prepareAppendEntries "n1" (sampleClock 1000) "n4",
    .handleAppendEntries "n2" (sampleClock 1002) (firstAppend 1000),
    .handleAppendEntries "n2" (sampleClock 1003) (firstAppend 1001),
    .handleAppendEntries "n3" (sampleClock 1004) (firstAppend 1000),
    .handleAppendEntries "n3" (sampleClock 1005) (firstAppend 1001),
    .handleAppendEntries "n4" (sampleClock 1006) (firstAppend 1000),
    .handleAppendEntriesReply "n1" (sampleClock 1007) 0 "n2" (firstAppend 1000)
      (signedSuccess 1 1002),
    .handleAppendEntriesReply "n1" (sampleClock 1008) 0 "n3" (firstAppend 1000)
      (signedSuccess 1 1004),
    .submitCommand "n1" (sampleClock 1009) (.keySync "k1" []),
    .handleAppendEntriesReply "n1" (sampleClock 1010) 0 "n2" (firstAppend 1001)
      (signedSuccess 1 1003),
    .handleAppendEntriesReply "n1" (sampleClock 1011) 0 "n3" (firstAppend 1001)
      (signedSuccess 1 1005)]

/-- `n2` wins term 2 and brings a second entry of its own to `n3` and `n4`. -/
def nextLeader : List ClusterEvent :=
  [.tryBecomeCandidate "n2" 0, .requestVote "n2" (sampleClock 1100) "n3",
    .requestVote "n2" (sampleClock 1100) "n4", .requestVote "n2" (sampleClock 1100) "n5",
    .handleRequestVote "n3" (sampleClock 1101) (signedVote 2 "n2" 1 1 1100),
    .handleRequestVote "n4" (sampleClock 1102) (signedVote 2 "n2" 1 1 1100),
    .handleRequestVote "n5" (sampleClock 1103) (signedVote 2 "n2" 1 1 1100), .becomeLeader "n2",
    .submitCommand "n2" (sampleClock 1200) (.keySync "k2" []),
    .prepareAppendEntries "n2" (sampleClock 1201) "n3",
    .prepareAppendEntries "n2" (sampleClock 1201) "n4",
    .handleAppendEntries "n3" (sampleClock 1202)
      (nextAppend 2 "n2" [⟨2, 2, .keySync "k2" []⟩] 0 1201),
    .handleAppendEntries "n4" (sampleClock 1203)
      (nextAppend 2 "n2" [⟨2, 2, .keySync "k2" []⟩] 0 1201),
    .handleAppendEntriesReply "n2" (sampleClock 1204) 0 "n3"
      (nextAppend 2 "n2" [⟨2, 2, .keySync "k2" []⟩] 0 1201) (signedSuccess 2 1202),
    .handleAppendEntriesReply "n2" (sampleClock 1205) 0 "n4"
      (nextAppend 2 "n2" [⟨2, 2, .keySync "k2" []⟩] 0 1201) (signedSuccess 2 1203)]

end Messages

section Signed
attribute [local instance] noSnapshotCodec windowHmacSha256

/-- Its replies are current and reach a leader. -/
theorem firstCommit_along : GuardedRun.Along Cluster.step
    (fun c e => SafetyRule trioVoters c e ∧ ReplyCurrent c e ∧ InOffice c e) trio firstCommit := by
  decide +kernel

theorem committedAgree_first_commit :
    ((trio.run firstCommit).node "n1").log.committed = 1 ∧
      ((trio.run firstCommit).node "n2").log.committed = 1 ∧
      ((trio.run firstCommit).node "n1").log.get 1 =
        ((trio.run firstCommit).node "n2").log.get 1 := by
  have hcommitted : ((trio.run firstCommit).node "n1").log.committed = 1 ∧
      ((trio.run firstCommit).node "n2").log.committed = 1 := by
    decide +kernel
  have hagree := Cluster.committedAgree_run trio_isFreshOf firstCommit_along
  exact ⟨hcommitted.1, hcommitted.2,
    hagree "n1" "n2" 1 (Nat.le_of_eq hcommitted.1.symm) (Nat.le_of_eq hcommitted.2.symm)⟩

theorem leaderComplete_first_commit :
    ((trio.run firstCommit).node "n1").state = .leader ∧
      (trio.run firstCommit).LeaderComplete trioVoters :=
  ⟨by decide +kernel, Cluster.leaderComplete_run trio_isFreshOf (firstCommit_along.imp
    fun _ _ he => ⟨he.1, he.2.1, noLateCommit_of_inOffice he.2.2⟩)⟩

end Signed

/-- A short stand-in for the MAC: the longer run only needs that its messages differ. -/
@[reducible]
def remainderHmac : HmacSha256 where
  mac _ input := ⟨(PrefixFreeCode.bigEndian 32
    (input.foldl (fun n b => n * 256 + b.toNat) 0 % (2 ^ 256 - 189))).toArray, by simp⟩

attribute [local instance] noSnapshotCodec remainderHmac

/-- `n1` commits its second entry on the word of `n2` and `n3`, who do not have it, and `n2`
commits another one at that index.  Both are elected by the replies of a quorum of others. -/
theorem committed_entry_replaced :
    ¬ ∀ [SnapshotCodec] [HmacSha256] (voters : Finset String) (c : Cluster InMemoryStorage)
      (events : List ClusterEvent), c.IsFreshOf voters →
      GuardedRun.Along Cluster.step (fun c e => SafetyRule voters c e ∧ ElectedByPeers c e) c
        events →
      (c.run events).CommittedAgree := by
  intro h
  have hfirst : GuardedRun.Along Cluster.step
      (fun c e => SafetyRule quintetVoters c e ∧ ElectedByPeers c e) quintet
      doubleConfirmation := by
    decide +kernel
  have hnext : GuardedRun.Along Cluster.step
      (fun c e => SafetyRule quintetVoters c e ∧ ElectedByPeers c e)
      (GuardedRun.run Cluster.step quintet doubleConfirmation) nextLeader := by
    decide +kernel
  have hrun := GuardedRun.along_append.mpr ⟨hfirst, hnext⟩
  have hagree := h quintetVoters quintet (doubleConfirmation ++ nextLeader) quintet_isFreshOf hrun
    "n1" "n2" 2
  revert hagree
  decide +kernel

end Sample

end CratonHsm
