import CratonHsm.QuorumReplication
import CratonHsm.RaftLeader

/-!
# A node and its quorums

The bridge between a node of the cluster and the abstract machine of `QuorumReplication`.
Candidates need more than half of the voters.  The commit rule takes the upper median of
what the voters hold, so in a cluster of even size it is content with half of them; a
majority and a half still meet, and that is all that safety asks for.

`NodeSafe` says what the state of a node means to the machine.  Each of the lemmas behind it
answers one kind of call with moves of the machine at that node (`Moves`).
-/

namespace CratonHsm
open Std TermHistory QuorumReplication Function List

/-! ## Quorums -/

/-- More than half of the voters. -/
def Majority (voters Q : Finset String) : Prop := Q ⊆ voters ∧ voters.card < 2 * Q.card

/-- At least half of the voters. -/
def HalfOf (voters B : Finset String) : Prop := B ⊆ voters ∧ voters.card ≤ 2 * B.card

theorem Majority.half {voters Q : Finset String} (h : Majority voters Q) : HalfOf voters Q :=
  ⟨h.1, Nat.le_of_lt h.2⟩

theorem Majority.meets {voters Q B : Finset String} (hQ : Majority voters Q)
    (hB : HalfOf voters B) : (Q ∩ B).Nonempty := by
  rw [← Finset.card_pos]
  have hsum := Finset.card_union_add_card_inter Q B
  have hle := Finset.card_le_card (Finset.union_subset hQ.1 hB.1)
  have hQcard := hQ.2
  have hBcard := hB.2
  omega

/-- The peers of `v` are the other voters. -/
structure PeersOf (voters : Finset String) (v : String) (peers : List String) : Prop where
  nodup : peers.Nodup
  notMem : v ∉ peers
  voters : insert v peers.toFinset = voters

variable {voters : Finset String} {s q : State String LogEntry} {c : String}

theorem PeersOf.card {v : String} {peers : List String}
    (h : PeersOf voters v peers) : voters.card = peers.length + 1 := by
  rw [← h.voters, Finset.card_insert_of_notMem (by rw [mem_toFinset]; exact h.notMem),
    toFinset_card_of_nodup h.nodup]

/-- What stands behind the `i`th smallest element of a list is not below it. -/
theorem le_countP_insertionSort {l : List Nat} {i : Nat} (hi : i < l.length) :
    l.length - i ≤ l.countP fun x => (l.insertionSort (· ≤ ·)).getD i 0 ≤ x := by
  have hperm : (l.insertionSort (· ≤ ·)).Perm l := perm_insertionSort _ _
  have hsorted : (l.insertionSort (· ≤ ·)).Pairwise (· ≤ ·) := pairwise_insertionSort _ _
  generalize l.insertionSort (· ≤ ·) = s at hperm hsorted ⊢
  have hs : i < s.length := by
    rw [hperm.length_eq]
    exact hi
  have hbehind : ∀ x ∈ s.drop i, s.getD i 0 ≤ x := by
    intro x hx
    rw [getD_eq_getElem?_getD, getElem?_eq_getElem hs, Option.getD_some]
    have hdrop := hsorted.sublist (drop_sublist i s)
    rw [drop_eq_getElem_cons hs] at hx hdrop
    rcases mem_cons.mp hx with rfl | hx
    · exact Nat.le_refl _
    · exact (pairwise_cons.mp hdrop).1 x hx
  calc l.length - i
      = (s.drop i).length := by rw [length_drop, hperm.length_eq]
    _ = (s.drop i).countP fun x => s.getD i 0 ≤ x :=
        (countP_eq_length.mpr fun x hx => decide_eq_true (hbehind x hx)).symm
    _ ≤ s.countP fun x => s.getD i 0 ≤ x := (drop_sublist i s).countP_le
    _ = l.countP fun x => s.getD i 0 ≤ x := hperm.countP_eq _

/-- What is above the `i`th smallest element stands behind it. -/
theorem countP_lt_insertionSort {l : List Nat} {i : Nat} (hi : i < l.length) :
    (l.countP fun x => (l.insertionSort (· ≤ ·)).getD i 0 < x) < l.length - i := by
  have hperm : (l.insertionSort (· ≤ ·)).Perm l := perm_insertionSort _ _
  have hsorted : (l.insertionSort (· ≤ ·)).Pairwise (· ≤ ·) := pairwise_insertionSort _ _
  generalize l.insertionSort (· ≤ ·) = s at hperm hsorted ⊢
  have hs : i < s.length := by
    rw [hperm.length_eq]
    exact hi
  have hbefore : ∀ x ∈ s.take (i + 1), ¬ s.getD i 0 < x := by
    intro x hx
    obtain ⟨j, hj, rfl⟩ := mem_iff_getElem.mp hx
    rw [length_take] at hj
    rw [getD_eq_getElem?_getD, getElem?_eq_getElem hs, Option.getD_some, getElem_take, Nat.not_lt]
    rcases Nat.lt_or_eq_of_le (show j ≤ i by omega) with hlt | rfl
    · exact pairwise_iff_getElem.mp hsorted _ _ _ _ hlt
    · exact Nat.le_refl _
  calc (l.countP fun x => s.getD i 0 < x)
      = s.countP fun x => s.getD i 0 < x := (hperm.countP_eq _).symm
    _ = (s.take (i + 1)).countP (fun x => s.getD i 0 < x) +
        (s.drop (i + 1)).countP (fun x => s.getD i 0 < x) := by
          rw [← countP_append, take_append_drop]
    _ = (s.drop (i + 1)).countP fun x => s.getD i 0 < x := by
          rw [countP_eq_zero.mpr fun x hx => by simpa using hbefore x hx, Nat.zero_add]
    _ ≤ (s.drop (i + 1)).length := countP_le_length
    _ < l.length - i := by
          rw [length_drop, hperm.length_eq]
          omega

namespace RaftNode
variable {σ : Type} {n : RaftNode σ}

/-- How far each node is, as the leader knows it: the peers by their match index, itself by
its last index. -/
def heldIndices (n : RaftNode σ) : List Nat :=
  n.peers.map (fun p => n.matchIndex[p]?.getD 0) ++ [n.log.lastIndex]

theorem length_heldIndices (n : RaftNode σ) : n.heldIndices.length = n.peers.length + 1 := by
  rw [heldIndices, length_append, length_map, length_singleton]

/-- At least half of the cluster holds the index, as the leader knows it. -/
def HalfHolds (n : RaftNode σ) (c : Nat) : Prop :=
  n.peers.length + 1 ≤ 2 * n.heldIndices.countP fun x => c ≤ x

theorem insertionSort_heldIndices (n : RaftNode σ) :
    (n.heldIndices.insertionSort (· ≤ ·)).getD ((n.peers.length + 1) / 2) 0 = n.newCommit := by
  unfold newCommit
  dsimp only
  rw [length_insertionSort, ← length_heldIndices]
  rfl

/-- The nodes from the middle of the sorted indices upwards are at the index considered. -/
theorem le_countP_newCommit (n : RaftNode σ) :
    n.peers.length + 1 - (n.peers.length + 1) / 2 ≤
      n.heldIndices.countP fun x => n.newCommit ≤ x := by
  have hcount := le_countP_insertionSort (i := (n.peers.length + 1) / 2) (l := n.heldIndices) (by
    rw [length_heldIndices]
    omega)
  rwa [insertionSort_heldIndices, length_heldIndices] at hcount

/-- **The index considered** is the largest that half of the cluster holds. -/
theorem halfHolds_iff (n : RaftNode σ) (c : Nat) : n.HalfHolds c ↔ c ≤ n.newCommit := by
  unfold HalfHolds
  constructor
  · intro hhalf
    by_contra hlt
    have habove := countP_lt_insertionSort (i := (n.peers.length + 1) / 2) (l := n.heldIndices) (by
      rw [length_heldIndices]
      omega)
    rw [insertionSort_heldIndices, length_heldIndices] at habove
    have hmono : (n.heldIndices.countP fun x => c ≤ x) ≤
        n.heldIndices.countP fun x => n.newCommit < x :=
      countP_mono_left fun x _ hx => by
        simp only [decide_eq_true_eq] at hx ⊢
        omega
    omega
  · intro hle
    have hcount := n.le_countP_newCommit
    have hmono : (n.heldIndices.countP fun x => n.newCommit ≤ x) ≤
        n.heldIndices.countP fun x => c ≤ x :=
      countP_mono_left fun x _ hx => by
        simp only [decide_eq_true_eq] at hx ⊢
        omega
    omega

/-- The voters that hold the log up to `c`, as a leader counts them. -/
def holders (n : RaftNode σ) (c : Nat) : Finset String :=
  insert n.id (n.peers.filter fun p => c ≤ n.matchIndex[p]?.getD 0).toFinset

/-- **The index that the commit rule considers is held by half of the voters.** -/
theorem half_holders (hp : PeersOf voters n.id n.peers) :
    HalfOf voters (n.holders n.newCommit) := by
  have hsub : (n.peers.filter fun p => n.newCommit ≤ n.matchIndex[p]?.getD 0).toFinset ⊆
      n.peers.toFinset := by
    intro p hp
    rw [mem_toFinset] at hp ⊢
    exact (mem_filter.mp hp).1
  refine ⟨?_, ?_⟩
  · rw [← hp.voters]
    exact Finset.insert_subset_insert _ hsub
  have hnotMem : n.id ∉ (n.peers.filter fun p =>
      n.newCommit ≤ n.matchIndex[p]?.getD 0).toFinset := by
    intro hmem
    exact hp.notMem (mem_toFinset.mp (hsub hmem))
  have hcount := n.le_countP_newCommit
  rw [heldIndices, countP_append, countP_map, countP_eq_length_filter] at hcount
  have hlast : List.countP (fun x => decide (n.newCommit ≤ x)) [n.log.lastIndex] ≤ 1 :=
    countP_le_length
  have hfilter : (n.peers.filter ((fun x => decide (n.newCommit ≤ x)) ∘
      fun p => n.matchIndex[p]?.getD 0)) =
      n.peers.filter fun p => n.newCommit ≤ n.matchIndex[p]?.getD 0 := rfl
  rw [hfilter] at hcount
  rw [holders, Finset.card_insert_of_notMem hnotMem,
    toFinset_card_of_nodup (hp.nodup.filter _), hp.card]
  omega

/-- What a commit is to rest on: a quorum that holds the index, and an entry of the current
term there. -/
def CommitsByQuorum (n : RaftNode σ) : Prop :=
  n.log.committed < n.advanceCommitIndex.log.committed →
    n.quorumSize ≤ n.heldIndices.countP (fun x => n.advanceCommitIndex.log.committed ≤ x) ∧
      ∃ e, n.log.get n.advanceCommitIndex.log.committed = some e ∧ e.term = n.currentTerm

/-- The commit rule takes this index: it is in reach of the log, and its entry is of the current
term, or there is none and a snapshot of the current term covers it. -/
def Acceptable (n : RaftNode σ) (c : Nat) : Prop :=
  n.log.committed < c ∧ c ≤ n.log.lastIndex ∧
    ((∃ e, n.log.get c = some e ∧ e.term = n.currentTerm) ∨
      n.log.get c = none ∧ c ≤ n.lastSnapshotIndex ∧ n.lastSnapshotTerm = n.currentTerm)

/-- A commit goes to the index considered, if it is acceptable. -/
theorem advanceCommitIndex_committed (n : RaftNode σ) :
    n.Acceptable n.newCommit ∧ n.advanceCommitIndex.log.committed = n.newCommit ∨
      ¬ n.Acceptable n.newCommit ∧ n.advanceCommitIndex.log.committed = n.log.committed := by
  rw [advanceCommitIndex_eq]
  unfold Acceptable
  by_cases hlt : n.log.committed < n.newCommit
  swap
  · rw [if_neg hlt]
    exact .inr ⟨fun h => hlt h.1, rfl⟩
  rw [if_pos hlt]
  by_cases hle : n.newCommit ≤ n.log.lastIndex
  · cases he : n.log.get n.newCommit with
    | none => by_cases hcovered : n.newCommit ≤ n.lastSnapshotIndex ∧
        n.lastSnapshotTerm = n.currentTerm <;> simp [hlt, hle, hcovered, RaftLog.commit]
    | some e => by_cases hterm : e.term = n.currentTerm <;> simp [hlt, hle, hterm, RaftLog.commit]
  · refine .inr ⟨fun h => hle h.2.1, ?_⟩
    cases n.log.get n.newCommit with
    | none => dsimp only; split <;> simp [RaftLog.commit, hle]
    | some e => dsimp only; split <;> simp [RaftLog.commit, hle]

/-- **A commit has its quorum and its entry** exactly if the largest index that half of the cluster
holds, where the commit rule takes it, is held by a quorum and has an entry in the log.  In a
cluster of odd size half is a quorum. -/
theorem commitsByQuorum_iff (n : RaftNode σ) :
    n.CommitsByQuorum ↔
      ∀ c, n.HalfHolds c → ¬ n.HalfHolds (c + 1) → n.Acceptable c →
        (n.log.get c).isSome ∧
          (n.peers.length % 2 = 0 ∨ n.quorumSize ≤ n.heldIndices.countP fun x => c ≤ x) := by
  have hquorum : n.peers.length % 2 = 0 →
      n.quorumSize ≤ n.heldIndices.countP fun x => n.newCommit ≤ x := by
    intro hodd
    have hcount := n.le_countP_newCommit
    unfold quorumSize
    omega
  have hlargest : ∀ c, n.HalfHolds c → ¬ n.HalfHolds (c + 1) → c = n.newCommit := by
    intro c hc hc'
    rw [halfHolds_iff] at hc hc'
    omega
  constructor
  · intro hquorate c hc hc' hacceptable
    cases hlargest c hc hc'
    rcases n.advanceCommitIndex_committed with ⟨-, hcommit⟩ | ⟨hnot, -⟩
    · rw [CommitsByQuorum, hcommit] at hquorate
      obtain ⟨hheld, e, he, -⟩ := hquorate hacceptable.1
      exact ⟨by rw [he]; rfl, .inr hheld⟩
    · exact absurd hacceptable hnot
  · intro h hraise
    rcases n.advanceCommitIndex_committed with ⟨hacceptable, hcommit⟩ | ⟨-, hsame⟩
    · rw [hcommit]
      obtain ⟨hsome, hheld⟩ := h n.newCommit ((n.halfHolds_iff _).mpr (Nat.le_refl _))
        (fun hnext => by
          rw [halfHolds_iff] at hnext
          omega) hacceptable
      refine ⟨hheld.elim hquorum fun h => h, ?_⟩
      rcases hacceptable.2.2 with hentry | ⟨hnone, -⟩
      · exact hentry
      · rw [hnone] at hsome
        cases hsome
    · omega

/-- A leader with one entry of its term, of which no peer has reported anything. -/
def loneLeader (peers : List String) : RaftNode InMemoryStorage :=
  { (new "n1" peers 1000 0 : RaftNode InMemoryStorage) with
    state := .leader, currentTerm := 1, log := { entries := [⟨1, 1, .noop⟩] } }

/-- The leader of a cluster of four, two of whose peers have reported the entry. -/
def followedLeader : RaftNode InMemoryStorage :=
  { loneLeader ["n2", "n3", "n4"] with
    matchIndex := ((∅ : ExtTreeMap String Nat).insert "n2" 1).insert "n3" 1 }

/-- Three of the four hold the entry that is committed. -/
theorem commitsByQuorum_iff_followed :
    followedLeader.log.committed < followedLeader.advanceCommitIndex.log.committed ∧
      followedLeader.CommitsByQuorum := by
  refine ⟨by decide, (commitsByQuorum_iff followedLeader).mpr fun c _ _ hc => ?_⟩
  have hone : c = 1 := Nat.le_antisymm hc.2.1 hc.1
  rw [hone]
  decide

/-- Of two nodes the leader commits alone. -/
theorem two_nodes_commit_alone : ¬ (loneLeader ["n2"]).CommitsByQuorum := by
  unfold CommitsByQuorum
  decide +kernel

end RaftNode

/-! ## Moves of the machine at one node -/

/-- The machine moves at the node `v`: the logs, terms and votes of the others stay. -/
structure Moves (voters : Finset String) (v : String) (s q : State String LogEntry) :
    Prop where
  steps : Relation.ReflTransGen (Step LogEntry.term (Majority voters)) s q
  log : ∀ u, u ≠ v → q.log u = s.log u
  cur : ∀ u, u ≠ v → q.cur u = s.cur u
  granted : ∀ u, u ≠ v → ∀ t c W, q.granted u t c W → s.granted u t c W

namespace Moves
variable {voters : Finset String} {v : String} {s q r : State String LogEntry}

theorem refl (voters : Finset String) (v : String) (s : State String LogEntry) :
    Moves voters v s s :=
  ⟨.refl, fun _ _ => rfl, fun _ _ => rfl, fun _ _ _ _ _ h => h⟩

theorem trans (h : Moves voters v s q) (h' : Moves voters v q r) : Moves voters v s r where
  steps := h.steps.trans h'.steps
  log u hu := (h'.log u hu).trans (h.log u hu)
  cur u hu := (h'.cur u hu).trans (h.cur u hu)
  granted u hu t c W hg := h.granted u hu t c W (h'.granted u hu t c W hg)

theorem inv (h : Moves voters v s q) (hI : Inv LogEntry.term (Majority voters) s) :
    Inv LogEntry.term (Majority voters) q := hI.steps h.steps

theorem grows (h : Moves voters v s q) (hI : Inv LogEntry.term (Majority voters) s) :
    Grows s q := hI.grows h.steps

theorem adopt {t : Nat} (hle : s.cur v ≤ t) :
    Moves voters v s (s.adopt v t) where
  steps := .single (.adopt v t hle)
  log _ _ := rfl
  cur _ hu := update_of_ne hu _ _
  granted _ _ _ _ _ hg := hg

theorem stand {t : Nat} (hlt : s.cur v < t) :
    Moves voters v s (s.stand v t) where
  steps := .single (.stand v t hlt)
  log _ _ := rfl
  cur _ hu := update_of_ne hu _ _
  granted u hu _ _ _ hg := by
    rcases hg with hg | ⟨hv, -⟩
    · exact hg
    · exact absurd hv hu

theorem grant {L : List LogEntry} (hstood : s.stood (s.cur v) c L)
    (hcmp : UpToDate LogEntry.term L (s.log v))
    (honce : ∀ c' W, s.granted v (s.cur v) c' W → c' = c) :
    Moves voters v s (s.grant v c) where
  steps := .single (.grant v c L hstood hcmp honce)
  log _ _ := rfl
  cur _ _ := rfl
  granted u hu _ _ _ hg := by
    rcases hg with hg | ⟨hv, -⟩
    · exact hg
    · exact absurd hv hu

theorem elect {Q : Finset String} (hstood : s.stood (s.cur v) v (s.log v))
    (hfree : s.leader (s.cur v) = none) (hQ : Majority voters Q)
    (hvotes : ∀ u ∈ Q, ∃ W, s.granted u (s.cur v) v W) :
    Moves voters v s (s.elect v) where
  steps := .single (.elect v Q hstood hfree hQ hvotes)
  log _ _ := rfl
  cur _ _ := rfl
  granted _ _ _ _ _ hg := hg

theorem append {e : LogEntry} (hled : s.leader (s.cur v) = some v)
    (hlog : s.log v = s.history.written (s.cur v)) (he : e.term = s.cur v) :
    Moves voters v s (s.append v e) where
  steps := .single (.append v e hled hlog he)
  log _ hu := update_of_ne hu _ _
  cur _ _ := rfl
  granted _ _ _ _ _ hg := hg

theorem overwrite {l : List LogEntry} (hled : (s.leader (s.cur v)).isSome)
    (hfrom : l <+: s.log v ∨ l <+: s.history.written (s.cur v))
    (hkeep : ∀ P, P <+: s.log v → P <+: s.history.written (s.cur v) → P <+: l) :
    Moves voters v s (s.overwrite v l) where
  steps := .single (.overwrite v l hled hfrom hkeep)
  log _ hu := update_of_ne hu _ _
  cur _ _ := rfl
  granted _ _ _ _ _ hg := hg

theorem ack {P : List LogEntry} (hheld : P <+: s.log v)
    (hwritten : P <+: s.history.written (s.cur v)) :
    Moves voters v s (s.ack v P) where
  steps := .single (.ack v P hheld hwritten)
  log _ _ := rfl
  cur _ _ := rfl
  granted _ _ _ _ _ hg := hg

end Moves

/-! ## What the state of a node means -/

/-- A node, seen from the machine. -/
structure NodeSafe (voters : Finset String) (s : State String LogEntry) (v : String)
    (k : NodeCore) (r : Roster) : Prop where
  log : s.log v = k.entries
  cur : s.cur v = k.currentTerm
  voted : ∀ c W, s.granted v k.currentTerm c W → k.votedFor = some c
  stands : k.state = .candidate →
    s.stood k.currentTerm v k.entries ∧ ∃ W, s.granted v k.currentTerm v W
  peers : v ∈ voters → PeersOf voters v r.peers
  next_le : k.state = .leader → ∀ (p : String) (ni : Nat), r.nextIndex[p]? = some ni →
    ni ≤ k.entries.length + 1
  matched : k.state = .leader → ∀ (p : String) (m : Nat), r.matchIndex[p]? = some m →
    m ≤ k.entries.length ∧ (0 < m → s.Acked p k.currentTerm (k.entries.take m))
  committed_le : k.committed ≤ k.entries.length
  decided : Decided (HalfOf voters) s (k.entries.take k.committed)

/-- The moves of a call change neither the history nor the leaders. -/
structure SameHistory (s q : State String LogEntry) : Prop where
  history : q.history = s.history
  leader : q.leader = s.leader

theorem SameHistory.refl (s : State String LogEntry) : SameHistory s s := ⟨rfl, rfl⟩

theorem SameHistory.trans {s q r : State String LogEntry} (h : SameHistory s q)
    (h' : SameHistory q r) : SameHistory s r :=
  ⟨h'.history.trans h.history, h'.leader.trans h.leader⟩

/-- An AppendEntries under way: a piece of what its term has written, and a commit index
that is decided there. -/
structure Request (voters : Finset String) (s : State String LogEntry)
    (args : AppendEntriesArgs) : Prop where
  led : (s.leader args.term).isSome
  proper : Proper (s.history.written args.term) args
  commit_le : args.leaderCommit ≤ (s.history.written args.term).length
  decided : Decided (HalfOf voters) s ((s.history.written args.term).take args.leaderCommit)

variable {args : AppendEntriesArgs}

theorem Request.grows (h : Request voters s args)
    (hI : Inv LogEntry.term (Majority voters) s) (hg : Grows s q) : Request voters q args where
  led := hg.led h.led
  proper := h.proper.mono (hg.written _)
  commit_le := Nat.le_trans h.commit_le (hg.written _).length_le
  decided := by
    rw [← take_initial (hg.written _) h.commit_le]
    exact hg.decided hI h.decided

/-- A success reply under way: the node has acknowledged what the request covers. -/
structure Answer (s : State String LogEntry) (p : String) (args : AppendEntriesArgs) :
    Prop where
  end_le : args.prevLogIndex + args.entries.length ≤ (s.history.written args.term).length
  acked : s.Acked p args.term
    ((s.history.written args.term).take (args.prevLogIndex + args.entries.length))

theorem Answer.grows {p : String} (h : Answer s p args) (hg : Grows s q) : Answer q p args where
  end_le := Nat.le_trans h.end_le (hg.written _).length_le
  acked := by
    rw [← take_initial (hg.written _) h.end_le]
    exact hg.ackedBy h.acked

namespace NodeSafe
variable {voters : Finset String} {s q : State String LogEntry} {v : String} {k : NodeCore}
  {r : Roster}

section Safe
variable (h : NodeSafe voters s v k r)
include h

/-- The records grow, and the node stays as it is. -/
theorem grows (hI : Inv LogEntry.term (Majority voters) s) (hg : Grows s q)
    (hlog : q.log v = s.log v) (hcur : q.cur v = s.cur v)
    (hvoted : ∀ t c W, q.granted v t c W → s.granted v t c W) : NodeSafe voters q v k r where
  log := hlog.trans h.log
  cur := hcur.trans h.cur
  voted c W hW := h.voted c W (hvoted _ c W hW)
  stands hs := by
    obtain ⟨hstood, W, hW⟩ := h.stands hs
    exact ⟨hg.stood _ _ _ hstood, W, hg.granted _ _ _ _ hW⟩
  peers := h.peers
  next_le := h.next_le
  matched hl p m hm :=
    ⟨(h.matched hl p m hm).1, fun hpos => hg.ackedBy ((h.matched hl p m hm).2 hpos)⟩
  committed_le := h.committed_le
  decided := hg.decided hI h.decided

theorem of_moves (hI : Inv LogEntry.term (Majority voters) s) {u : String}
    (hm : Moves voters u s q) (hne : v ≠ u) : NodeSafe voters q v k r :=
  h.grows hI (hm.grows hI) (hm.log v hne) (hm.cur v hne) (hm.granted v hne)

/-- Out of office the maps may be anything. -/
theorem with_roster {r' : Roster} (hpeers : r'.peers = r.peers)
    (hnext : k.state = .leader → ∀ (p : String) (ni : Nat), r'.nextIndex[p]? = some ni →
      r.nextIndex[p]? = some ni ∨ ni ≤ k.entries.length + 1)
    (hmatch : k.state = .leader → ∀ (p : String) (m : Nat), r'.matchIndex[p]? = some m →
      r.matchIndex[p]? = some m ∨ m ≤ k.entries.length ∧ (0 < m → s.Acked p k.currentTerm
      (k.entries.take m))) :
    NodeSafe voters s v k r' := by
  refine { h with
    peers := fun hv => hpeers ▸ h.peers hv, next_le := fun hl p ni hni => ?_
    matched := fun hl p m hm => ?_ }
  · rcases hnext hl p ni hni with hold | hsmall
    · exact h.next_le hl p ni hold
    · exact hsmall
  · rcases hmatch hl p m hm with hold | hnew
    · exact h.matched hl p m hold
    · exact hnew

section Moves
variable (hI : Inv LogEntry.term (Majority voters) s)
include hI

/-- A vote of a later term has not been given. -/
theorem no_vote_later {t : Nat}
    (hlt : k.currentTerm < t) {W : List LogEntry} : ¬ s.granted v t c W := by
  intro hg
  have := hI.granted_le v t c W hg
  rw [h.cur] at this
  omega

/-- The node opens a later term as a follower without a vote. -/
theorem adopt (t : Nat) :
    ∃ q, Moves voters v s q ∧ SameHistory s q ∧ NodeSafe voters q v (k.adopt t) r := by
  rcases k.adopt_cases t with ⟨hlt, heq⟩ | ⟨-, heq⟩
  swap
  · exact ⟨s, .refl _ _ _, .refl s, by rw [heq]; exact h⟩
  have hmoves : Moves voters v s (s.adopt v t) := .adopt (by rw [h.cur]; exact Nat.le_of_lt hlt)
  refine ⟨_, hmoves, ⟨rfl, rfl⟩, ?_⟩
  rw [heq]
  exact {
    log := h.log
    cur := update_self ..
    voted := fun c W hg => absurd hg (h.no_vote_later hI hlt)
    stands := nofun
    peers := h.peers
    next_le := nofun
    matched := nofun
    committed_le := h.committed_le
    decided := (hmoves.grows hI).decided hI h.decided }

/-- The node opens the next term as a candidate and votes for itself. -/
theorem stand :
    ∃ q, Moves voters v s q ∧ SameHistory s q ∧ NodeSafe voters q v
      { k with state := .candidate, currentTerm := k.currentTerm + 1, votedFor := some v } r := by
  have hmoves : Moves voters v s _ := .stand (t := k.currentTerm + 1)
    (by rw [h.cur]; exact Nat.lt_succ_self _)
  refine ⟨_, hmoves, ⟨rfl, rfl⟩, ?_⟩
  exact {
    log := h.log
    cur := update_self ..
    voted := fun c W hg => by
      rcases hg with hg | ⟨-, -, rfl, -⟩
      · exact absurd hg (h.no_vote_later hI (Nat.lt_succ_self _))
      · rfl
    stands := fun _ => ⟨.inr ⟨rfl, rfl, h.log.symm⟩, s.log v, .inr ⟨rfl, rfl, rfl, rfl⟩⟩
    peers := h.peers
    next_le := nofun
    matched := nofun
    committed_le := h.committed_le
    decided := (hmoves.grows hI).decided hI h.decided }

/-- The node votes in its term for a candidate that is up to date. -/
theorem vote {L : List LogEntry}
    (hstood : s.stood k.currentTerm c L) (hcmp : UpToDate LogEntry.term L k.entries)
    (honce : ∀ d, k.votedFor = some d → d = c) :
    ∃ q, Moves voters v s q ∧ SameHistory s q ∧
      NodeSafe voters q v { k with votedFor := some c } r ∧
      q.granted v k.currentTerm c k.entries := by
  have hmoves : Moves voters v s _ := .grant (c := c) (L := L)
    (by rw [h.cur]; exact hstood) (by rw [h.log]; exact hcmp)
    (fun d W hg => honce d (h.voted d W (h.cur ▸ hg)))
  have hg := hmoves.grows hI
  refine ⟨_, hmoves, ⟨rfl, rfl⟩, ?_, .inr ⟨rfl, h.cur.symm, rfl, h.log.symm⟩⟩
  refine {
    log := h.log, cur := h.cur, voted := fun d W hd => ?_, stands := fun hs => ?_
    peers := h.peers, next_le := h.next_le, matched := fun hl p m hm => ?_
    committed_le := h.committed_le, decided := hg.decided hI h.decided }
  · rcases hd with hd | ⟨-, -, rfl, -⟩
    · rw [honce d (h.voted d W hd)]
    · rfl
  · obtain ⟨hst, W, hW⟩ := h.stands hs
    exact ⟨hst, W, .inl hW⟩
  · exact h.matched hl p m hm

/-- The node becomes the writer of its term. -/
theorem elect (hstate : k.state = .candidate)
    (hfree : s.leader k.currentTerm = none) {Q : Finset String} (hQ : Majority voters Q)
    (hvotes : ∀ u ∈ Q, ∃ W, s.granted u k.currentTerm v W) {r' : Roster}
    (hpeers : r'.peers = r.peers)
    (hnext : ∀ (p : String) (ni : Nat), r'.nextIndex[p]? = some ni → ni = k.entries.length + 1)
    (hmatch : ∀ (p : String) (m : Nat), r'.matchIndex[p]? = some m → m = 0) :
    ∃ q, Moves voters v s q ∧ q.history = s.history.begin k.currentTerm k.entries ∧
      q.leader = update s.leader k.currentTerm (some v) ∧
      NodeSafe voters q v { k with state := .leader } r' := by
  have hmoves : Moves voters v s _ := .elect (Q := Q)
    (by rw [h.cur, h.log]; exact (h.stands hstate).1) (by rw [h.cur]; exact hfree) hQ
    (by rw [h.cur]; exact hvotes)
  refine ⟨_, hmoves, by rw [← h.cur, ← h.log]; rfl, by rw [← h.cur]; rfl, ?_⟩
  exact {
    log := h.log
    cur := h.cur
    voted := h.voted
    stands := nofun
    peers := fun hv => hpeers ▸ h.peers hv
    next_le := fun _ p ni hni => Nat.le_of_eq (hnext p ni hni)
    matched := fun _ p m hm => by
      rw [hmatch p m hm]
      exact ⟨Nat.zero_le _, fun hpos => absurd hpos (Nat.lt_irrefl 0)⟩
    committed_le := h.committed_le
    decided := (hmoves.grows hI).decided hI h.decided }

/-- The writer of a term appends an entry of it. -/
theorem append (hleads : k.state = .leader)
    (hled : s.leader k.currentTerm = some v)
    (hwritten : s.history.written k.currentTerm = k.entries) {e : LogEntry}
    (he : e.term = k.currentTerm) :
    ∃ q, Moves voters v s q ∧ q.history = s.history.extend k.currentTerm e ∧
      q.leader = s.leader ∧ NodeSafe voters q v { k with entries := k.entries ++ [e] } r := by
  have hmoves : Moves voters v s _ := .append (e := e)
    (by rw [h.cur]; exact hled) (by rw [h.log, h.cur]; exact hwritten.symm)
    (by rw [h.cur]; exact he)
  have hg := hmoves.grows hI
  refine ⟨_, hmoves, by rw [← h.cur]; rfl, rfl, ?_⟩
  have hle : k.entries.length ≤ (k.entries ++ [e]).length := by
    rw [length_append]
    exact Nat.le_add_right _ _
  refine {
    log := (update_self ..).trans (by rw [h.log])
    cur := h.cur, voted := h.voted, stands := fun hs => ?_, peers := h.peers
    next_le := fun hl p ni hni => ?_, matched := fun hl p m hm => ?_
    committed_le := Nat.le_trans h.committed_le hle, decided := ?_ }
  · change k.state = .candidate at hs
    rw [hleads] at hs
    cases hs
  · have := h.next_le hl p ni hni
    dsimp only
    omega
  · obtain ⟨hm', hacked⟩ := h.matched hl p m hm
    refine ⟨Nat.le_trans hm' hle, fun hpos => ?_⟩
    rw [take_append_of_le_length hm']
    exact hg.ackedBy (hacked hpos)
  · rw [take_append_of_le_length h.committed_le]
    exact hg.decided hI h.decided

end Moves

end Safe

/-- **A leader commits what half of the voters hold**, at an entry of its term. -/
theorem advance {σ : Type} {n : RaftNode σ} (h : NodeSafe voters s v n.core n.roster)
    (hI : Inv LogEntry.term (Majority voters) s) (hv : v ∈ voters) (hid : n.id = v)
    (hleads : n.state = .leader) (hwritten : s.history.written n.currentTerm = n.log.entries)
    {c : Nat} (hadv : n.Advances c) :
    ∃ q, Moves voters v s q ∧ SameHistory s q ∧
      NodeSafe voters q v { n.core with committed := c } n.roster := by
  rcases hadv with rfl | ⟨hlt, hle, hc, e, he, hterm⟩
  · exact ⟨s, .refl _ _ _, .refl s, h⟩
  have hlog : s.log v = n.log.entries := h.log
  have hcur : s.cur v = n.currentTerm := h.cur
  -- the leader first acknowledges its own log
  have hmoves : Moves voters v s _ := .ack (P := n.log.entries)
    (by rw [hlog]) (by rw [hcur, hwritten])
  have hg := hmoves.grows hI
  have hself := h.grows hI hg rfl rfl (fun _ _ _ hg => hg)
  refine ⟨_, hmoves, ⟨rfl, rfl⟩, { hself with
    committed_le := hle
    decided := .inr ⟨n.currentTerm, n.log.entries.take c, ⟨?_, ?_, n.holders c, ?_, ?_⟩,
      prefix_rfl⟩ }⟩
  · rw [← hwritten] at he
    rw [length_take, Nat.min_eq_left hle]
    dsimp only [State.ack]
    rcases hI.valid.written_term he with ⟨-, hearlier⟩ | ⟨hstart, -⟩
    · omega
    · omega
  · exact hwritten ▸ take_prefix _ _
  · rw [hc]
    exact RaftNode.half_holders (by rw [hid]; exact h.peers hv)
  · intro p hp
    rcases Finset.mem_insert.mp hp with rfl | hp
    · exact ⟨n.log.entries, .inr ⟨hid, hcur.symm, rfl⟩, take_prefix _ _⟩
    rw [mem_toFinset, mem_filter, decide_eq_true_eq] at hp
    cases hm : n.matchIndex[p]? with
    | none =>
      rw [hm, Option.getD_none] at hp
      omega
    | some m =>
      rw [hm, Option.getD_some] at hp
      obtain ⟨P', hP', htake⟩ := hg.ackedBy ((h.matched hleads p m hm).2 (by omega))
      exact ⟨P', hP', (take_prefix_take_left hp.2).trans htake⟩

/-- **A node takes in a request**, and acknowledges what it confirms. -/
theorem accept (h : NodeSafe voters s v k r) (hI : Inv LogEntry.term (Majority voters) s)
    (hreq : Request voters s args)
    (hterm : k.currentTerm ≤ args.term) {success : Bool} {l' : List LogEntry} {c' : Nat}
    (hacc : RaftNode.Accepted k.entries (s.history.written args.term) k.committed args success
      l' c') :
    ∃ q, Moves voters v s q ∧ SameHistory s q ∧
      NodeSafe voters q v { k.concede args.term with entries := l', committed := c' } r ∧
      (success = true → Answer q v args) := by
  have hadopt : Moves voters v s (s.adopt v args.term) := .adopt (by rw [h.cur]; exact hterm)
  have hcur : (s.adopt v args.term).cur v = args.term := update_self ..
  have hlog : (s.adopt v args.term).log v = k.entries := h.log
  have hover : Moves voters v (s.adopt v args.term) _ := .overwrite (l := l')
    (by rw [hcur]; exact hreq.led)
    (by rw [hcur, hlog]; exact hacc.follows.source)
    (by rw [hcur, hlog]; exact hacc.follows.keep)
  have hboth := hadopt.trans hover
  have hgrows := hboth.grows hI
  have hcommit : c' ≤ l'.length ∧ Decided (HalfOf voters) s (l'.take c') := by
    rcases hacc.commit_le with hsame | ⟨hs, hleader, hend⟩
    · have hkept := hacc.follows.committed
      have hlen : (k.entries.take k.committed).length = k.committed := by
        rw [length_take, Nat.min_eq_left h.committed_le]
      rw [hsame]
      refine ⟨hlen ▸ hkept.length_le, ?_⟩
      rw [← take_initial hkept (Nat.le_of_eq hlen.symm), take_take, Nat.min_self]
      exact h.decided
    · have hcovers := hacc.covers hs
      have hlen : ((s.history.written args.term).take
          (args.prevLogIndex + args.entries.length)).length =
          args.prevLogIndex + args.entries.length := by
        rw [length_take, Nat.min_eq_left hreq.proper.end_le]
      refine ⟨Nat.le_trans hend (hlen ▸ hcovers.length_le), ?_⟩
      rw [← take_initial hcovers (by omega), take_take, Nat.min_eq_left hend]
      exact hreq.decided.initial (take_prefix_take_left hleader)
  have hsafe := hover.inv (hadopt.inv hI)
  have hnode : NodeSafe voters ((s.adopt v args.term).overwrite v l') v
      { k.concede args.term with entries := l', committed := c' } r := {
    log := update_self ..
    cur := hcur
    voted := fun c W hg => by
      change s.granted v args.term c W at hg
      change (if k.currentTerm < args.term then none else k.votedFor) = some c
      rcases Nat.lt_or_eq_of_le hterm with hlt | heq
      · exact absurd hg (h.no_vote_later hI hlt)
      rw [if_neg (by omega)]
      exact h.voted c W (heq ▸ hg)
    stands := nofun
    peers := h.peers
    next_le := nofun
    matched := nofun
    committed_le := hcommit.1
    decided := hgrows.decided hI hcommit.2 }
  by_cases hs : success = true
  swap
  · exact ⟨_, hboth, ⟨rfl, rfl⟩, hnode, fun hs' => absurd hs' hs⟩
  have hack : Moves voters v ((s.adopt v args.term).overwrite v l') _ :=
    .ack (P := (s.history.written args.term).take (args.prevLogIndex + args.entries.length))
    (by rw [hnode.log]; exact hacc.covers hs)
    (by rw [hnode.cur]; exact take_prefix _ _)
  refine ⟨_, hboth.trans hack, ⟨rfl, rfl⟩,
    hnode.grows hsafe (hack.grows hsafe) rfl rfl (fun _ _ _ hg => hg), fun _ => ?_⟩
  exact ⟨hreq.proper.end_le, _, .inr ⟨rfl, hcur.symm, rfl⟩, prefix_rfl⟩

/-- **A leader records a success** of a reply that is current. -/
theorem record {σ : Type} {n : RaftNode σ} (h : NodeSafe voters s v n.core n.roster)
    (hwritten : n.state = .leader → s.history.written n.currentTerm = n.log.entries)
    (hpos : RaftNode.NextPos n.roster) {peer : String} (hanswer : Answer s peer args)
    (hcurrent : n.state = .leader → ∀ ni, n.nextIndex[peer]? = some ni →
      args.term = n.currentTerm ∧ ni ≤ args.prevLogIndex + 1 ∨
        ni + args.entries.length ≤ n.matchIndex[peer]?.getD 0 + 1) :
    NodeSafe voters s v n.core (n.recordSuccess peer args.entries.length).roster := by
  rcases n.recordSuccess_maps peer args.entries.length with hsame | ⟨ni, hni, hset⟩
  · rw [hsame]
    exact h
  have hni' : 0 < ni := hpos peer ni hni
  have hnew : n.state = .leader → ni - 1 + args.entries.length ≤ n.log.entries.length ∧
      (0 < ni - 1 + args.entries.length → s.Acked peer n.currentTerm
        (n.log.entries.take (ni - 1 + args.entries.length))) := by
    intro hleads
    rcases hcurrent hleads ni hni with ⟨hterm, hle⟩ | hle
    · have hend := hanswer.end_le
      obtain ⟨P, hP, htake⟩ := hanswer.acked
      rw [hterm, hwritten hleads] at hend htake
      rw [hterm] at hP
      exact ⟨by omega, fun _ => ⟨P, hP, (take_prefix_take_left (by omega)).trans htake⟩⟩
    -- no more than is known already
    rcases hm : n.matchIndex[peer]? with _ | m
    · rw [hm, Option.getD_none] at hle
      exact ⟨by omega, fun hlt => by omega⟩
    rw [hm, Option.getD_some] at hle
    obtain ⟨hlen, hacked⟩ := h.matched hleads peer m hm
    change m ≤ n.log.entries.length at hlen
    refine ⟨by omega, fun hlt => ?_⟩
    obtain ⟨P, hP, htake⟩ := hacked (by omega)
    exact ⟨P, hP, (take_prefix_take_left (by omega)).trans htake⟩
  refine h.with_roster (by rw [hset]) (fun hl p x hx => ?_) (fun hl p m hm => ?_)
  · rw [hset] at hx
    rcases RaftNode.insert_getElem? hx with ⟨-, rfl⟩ | hold
    · exact .inr (Nat.succ_le_succ (hnew hl).1)
    · exact .inl hold
  · rw [hset] at hm
    rcases RaftNode.insert_getElem? hm with ⟨rfl, rfl⟩ | hold
    · exact .inr (hnew hl)
    · exact .inl hold

end NodeSafe

end CratonHsm
