import CratonHsm.TermHistory
import CratonHsm.RaftLogInvariant

/-!
# What a call does to the core of a node

For the safety of a cluster, a node is its role, term, vote, log and committed index
(`NodeCore`); the rest is bookkeeping of one process.  This module says once, for each
call and with snapshots off, what becomes of the core.  The long one is
`handle_append_entries`: seen from the log `w` of the leader that sent the request, the
follower cuts its log at a conflict, or ends up with a prefix of `w`, and never loses what
the two logs have in common (`Follows`).
-/

namespace CratonHsm
open TermHistory RaftLog List

/-- The part of a node that cluster safety is about. -/
structure NodeCore where
  id : String
  state : RaftState
  currentTerm : Nat
  votedFor : Option String
  entries : List LogEntry
  committed : Nat
  lastSnapshotIndex : Nat
  snapshotInterval : Nat

namespace NodeCore

/-- A later term makes the node a follower without a vote. -/
def adopt (c : NodeCore) (term : Nat) : NodeCore :=
  if c.currentTerm < term then
    { c with state := .follower, currentTerm := term, votedFor := none }
  else c

/-- The leader of `term` makes the node a follower. -/
def concede (c : NodeCore) (term : Nat) : NodeCore :=
  { c with
    state := .follower
    currentTerm := term
    votedFor := if c.currentTerm < term then none else c.votedFor }

variable (c : NodeCore) (term : Nat)

/-- A node adopts the term, or is at it or beyond. -/
theorem adopt_cases : c.currentTerm < term ∧
      c.adopt term = { c with state := .follower, currentTerm := term, votedFor := none } ∨
    term ≤ c.currentTerm ∧ c.adopt term = c := by
  unfold adopt
  split
  · rename_i hlt
    exact .inl ⟨hlt, rfl⟩
  · rename_i hlt
    exact .inr ⟨Nat.le_of_not_lt hlt, rfl⟩

@[simp] theorem adopt_entries : (c.adopt term).entries = c.entries := by
  unfold adopt
  split <;> rfl

@[simp] theorem adopt_committed : (c.adopt term).committed = c.committed := by
  unfold adopt
  split <;> rfl

end NodeCore

theorem Numbered.initial {b : Nat} {l m : List LogEntry} (h : Numbered b m) (hl : l <+: m) :
    Numbered b l := by
  obtain ⟨r, rfl⟩ := hl
  exact (Numbered.append_iff.mp h).1

/-- A batch numbered from behind `prev_log_index` ends where it says. -/
theorem AppendEntriesArgs.lastNew_of_numbered {args : AppendEntriesArgs}
    (h : Numbered (args.prevLogIndex + 1) args.entries) :
    args.lastNew = args.prevLogIndex + args.entries.length := by
  unfold lastNew
  by_cases hnil : args.entries = []
  · rw [hnil]
    rfl
  have hpos := length_pos_iff.mpr hnil
  rw [getLast?_eq_getElem?]
  cases he : args.entries[args.entries.length - 1]? with
  | none =>
    rw [getElem?_eq_none_iff] at he
    omega
  | some e =>
    have := h _ e he
    rw [Option.elim_some]
    omega

/-- The request carries a piece of the log `w`: the entries behind `prev_log_index`, and the
term before them. -/
structure Proper (w : List LogEntry) (args : AppendEntriesArgs) : Prop where
  prev_le : args.prevLogIndex ≤ w.length
  prev_term : ∀ e, 0 < args.prevLogIndex → w[args.prevLogIndex - 1]? = some e →
    args.prevLogTerm = e.term
  piece : w.take args.prevLogIndex ++ args.entries <+: w

namespace Proper
variable {w : List LogEntry} {args : AppendEntriesArgs}

section
variable (h : Proper w args)
include h

theorem mono {w' : List LogEntry} (hw : w <+: w') : Proper w' args := by
  refine ⟨Nat.le_trans h.prev_le hw.length_le, fun e hpos he => ?_, ?_⟩
  · have hlt : args.prevLogIndex - 1 < w.length := by
      have := h.prev_le
      omega
    exact h.prev_term e hpos ((getElem?_initial hw hlt).symm.trans he)
  · rw [← take_initial hw h.prev_le]
    exact h.piece.trans hw

/-- The batch ends within `w`. -/
theorem end_le : args.prevLogIndex + args.entries.length ≤ w.length := by
  have hlen := h.piece.length_le
  rwa [length_append, length_take, Nat.min_eq_left h.prev_le] at hlen

theorem take_eq :
    w.take args.prevLogIndex ++ args.entries =
      w.take (args.prevLogIndex + args.entries.length) := by
  have heq := prefix_iff_eq_take.mp h.piece
  rw [length_append, length_take, Nat.min_eq_left h.prev_le] at heq
  exact heq

theorem numbered (hw : Numbered 1 w) : Numbered (args.prevLogIndex + 1) args.entries := by
  have hn := (Numbered.append_iff.mp (hw.initial h.piece)).2
  rw [length_take, Nat.min_eq_left h.prev_le] at hn
  rwa [Nat.add_comm]

theorem length_front : (w.take args.prevLogIndex).length = args.prevLogIndex :=
  length_take_of_le h.prev_le

/-- The entry of the batch at a position is the entry of `w` behind it. -/
theorem getElem?_entries {i : Nat} (hi : i < args.entries.length) :
    w[args.prevLogIndex + i]? = args.entries[i]? := by
  rw [getElem?_initial h.piece (by rw [length_append, h.length_front]; omega),
    getElem?_append_right (by rw [h.length_front]; omega), h.length_front,
    Nat.add_sub_cancel_left]

theorem take_add {j : Nat} (hj : j ≤ args.entries.length) :
    w.take (args.prevLogIndex + j) = w.take args.prevLogIndex ++ args.entries.take j := by
  have hle : args.prevLogIndex + j ≤ (w.take args.prevLogIndex ++ args.entries).length := by
    rw [length_append, h.length_front]
    omega
  rw [← take_initial h.piece hle, take_append, h.length_front,
    take_of_length_le (by rw [h.length_front]; omega), Nat.add_sub_cancel_left]

end

end Proper

/-- A request whose `prev_log_index` lies beyond the leader's log: it carries no entries and
no term. -/
structure Beyond (args : AppendEntriesArgs) : Prop where
  prev_pos : 0 < args.prevLogIndex
  prev_term : args.prevLogTerm = 0
  entries : args.entries = []

/-- How a follower's log `l` may change under a leader with the log `w`. -/
structure Follows (l w l' : List LogEntry) (committed : Nat) : Prop where
  source : l' <+: l ∨ l' <+: w
  keep : ∀ P, P <+: l → P <+: w → P <+: l'
  committed : l.take committed <+: l'

namespace Follows
variable {l w : List LogEntry} {committed : Nat}

theorem refl (l w : List LogEntry) (committed : Nat) : Follows l w l committed :=
  ⟨.inl prefix_rfl, fun _ h _ => h, take_prefix _ _⟩

theorem numbered {l' : List LogEntry} (h : Follows l w l' committed) (hl : Numbered 1 l)
    (hw : Numbered 1 w) : Numbered 1 l' := by
  rcases h.source with hs | hs
  · exact hl.initial hs
  · exact hw.initial hs

/-- Lists that differ in a term at a position have nothing in common beyond it. -/
theorem common_le {P : List LogEntry} {k : Nat} (hl : P <+: l) (hw : P <+: w)
    (hdiff : ∀ x y, l[k]? = some x → w[k]? = some y → x.term ≠ y.term) : P.length ≤ k := by
  by_contra hlt
  have hk : k < P.length := Nat.lt_of_not_le hlt
  have hx : l[k]? = some P[k] := (getElem?_initial hl hk).trans (getElem?_eq_getElem hk)
  have hy : w[k]? = some P[k] := (getElem?_initial hw hk).trans (getElem?_eq_getElem hk)
  exact hdiff _ _ hx hy rfl

/-- The log is cut at an entry that differs in term from `w`. -/
theorem cut {k : Nat} (hc : committed ≤ k)
    (hdiff : ∀ x y, l[k]? = some x → w[k]? = some y → x.term ≠ y.term) :
    Follows l w (l.take k) committed := by
  refine ⟨.inl (List.take_prefix _ _), fun P hl hw => ?_, take_prefix_take_left hc⟩
  exact prefix_take_iff.mpr ⟨hl, common_le hl hw hdiff⟩

/-- The log is equal to `w` up to `k`, and is replaced from there on by more of `w`. -/
theorem replace {k j : Nat} (hkj : k ≤ j) (hsame : l.take k = w.take k)
    (hend : l.length ≤ k ∨ committed ≤ k ∧
      ∀ x y, l[k]? = some x → w[k]? = some y → x.term ≠ y.term) :
    Follows l w (w.take j) committed := by
  have hle : w.take k <+: w.take j := take_prefix_take_left hkj
  refine ⟨.inr (List.take_prefix _ _), fun P hl hw => ?_, ?_⟩
  · refine List.IsPrefix.trans (prefix_take_iff.mpr ⟨hw, ?_⟩) hle
    rcases hend with hlen | ⟨-, hdiff⟩
    · exact Nat.le_trans hl.length_le hlen
    · exact common_le hl hw hdiff
  · refine List.IsPrefix.trans ?_ (hsame ▸ hle)
    rcases hend with hlen | ⟨hc, -⟩
    · rw [take_of_length_le hlen]
      exact take_prefix _ _
    · exact take_prefix_take_left hc

end Follows

/-- The log holds the place behind which the batch goes. -/
def AppendEntriesArgs.PrevHeld (args : AppendEntriesArgs) (l : List LogEntry) : Prop :=
  args.prevLogIndex = 0 ∨ ∃ e, l[args.prevLogIndex - 1]? = some e ∧ e.term = args.prevLogTerm

/-- What AppendEntries makes of a log `l` with `c` entries committed: a refusal cuts at most
the entry before the batch and what follows it; a success finds the whole batch in place, or
writes what the log does not share with it, over nothing that is committed. -/
inductive AppendOutcome (l : List LogEntry) (c : Nat) (args : AppendEntriesArgs) :
    Bool → List LogEntry → Nat → Prop
  | refused : AppendOutcome l c args false l c
  | cut {e : LogEntry} (hpos : 0 < args.prevLogIndex) (he : l[args.prevLogIndex - 1]? = some e)
      (hterm : e.term ≠ args.prevLogTerm) (hc : c ≤ args.prevLogIndex - 1) :
      AppendOutcome l c args false (l.take (args.prevLogIndex - 1)) c
  | covered (hprev : args.PrevHeld l)
      (hag : Agrees l args.entries args.prevLogIndex args.entries.length) :
      AppendOutcome l c args true l
        (max c (min args.leaderCommit (args.prevLogIndex + args.entries.length)))
  | written {j : Nat} (hprev : args.PrevHeld l) (hag : Agrees l args.entries args.prevLogIndex j)
      (hj : j < args.entries.length)
      (hwhy : l.length = args.prevLogIndex + j ∨ c ≤ args.prevLogIndex + j ∧
        args.prevLogIndex + j < l.length ∧ ∀ x e, l[args.prevLogIndex + j]? = some x →
          args.entries[j]? = some e → x.term ≠ e.term) :
      AppendOutcome l c args true (l.take (args.prevLogIndex + j) ++ args.entries.drop j)
        (max c (min args.leaderCommit (args.prevLogIndex + args.entries.length)))

/-- What AppendEntries makes of a follower's log `l` and committed index `c`, seen from the
leader's log `w`: a success confirms `w` up to the end of the batch, and commits up to there
whatever the leader has committed. -/
structure RaftNode.Accepted (l w : List LogEntry) (c : Nat) (args : AppendEntriesArgs)
    (success : Bool) (l' : List LogEntry) (c' : Nat) : Prop where
  follows : Follows l w l' c
  covers : success = true → w.take (args.prevLogIndex + args.entries.length) <+: l'
  source : l' <+: l ∨ success = true ∧ l' = w.take (args.prevLogIndex + args.entries.length)
  commit_le : c' = c ∨ success = true ∧
    c' ≤ args.leaderCommit ∧ c' ≤ args.prevLogIndex + args.entries.length
  le_commit : c ≤ c'
  reaches : success = true →
    min args.leaderCommit (args.prevLogIndex + args.entries.length) ≤ c'

section Outcome
variable {l w l' : List LogEntry} {c c' : Nat} {args : AppendEntriesArgs} {success : Bool}

theorem AppendEntriesArgs.PrevHeld.le_length (h : args.PrevHeld l) :
    args.prevLogIndex ≤ l.length := by
  rcases h with hzero | ⟨e, he, -⟩
  · omega
  obtain ⟨hlt, -⟩ := List.getElem?_eq_some_iff.mp he
  omega

/-- The log is equal to the leader's up to the batch. -/
theorem AppendEntriesArgs.PrevHeld.take_eq (h : args.PrevHeld l)
    (hmatch : Match LogEntry.term l w) (hp : Proper w args) :
    l.take args.prevLogIndex = w.take args.prevLogIndex := by
  by_cases hzero : args.prevLogIndex = 0
  · rw [hzero]
    rfl
  obtain ⟨e, he, hterm⟩ := h.resolve_left hzero
  -- the entry before the batch is of the leader's term there
  have hwlt : args.prevLogIndex - 1 < w.length := by
    have := hp.prev_le
    omega
  have hw := getElem?_eq_getElem hwlt
  have hsame := hp.prev_term _ (Nat.pos_of_ne_zero hzero) hw
  have := hmatch _ _ _ he hw (hterm.trans hsame)
  rwa [show args.prevLogIndex - 1 + 1 = args.prevLogIndex from by omega] at this

/-- While the batch agrees in term with the log, both agree with the leader's log. -/
theorem Proper.take_eq_of_agrees (hp : Proper w args) (hmatch : Match LogEntry.term l w)
    (hprev : l.take args.prevLogIndex = w.take args.prevLogIndex) {j : Nat}
    (hag : Agrees l args.entries args.prevLogIndex j) :
    l.take (args.prevLogIndex + j) = w.take (args.prevLogIndex + j) := by
  cases j with
  | zero => exact hprev
  | succ j =>
    obtain ⟨x, e, hx, he, hterm⟩ := hag j (Nat.lt_succ_self j)
    obtain ⟨hj, -⟩ := List.getElem?_eq_some_iff.mp he
    exact hmatch _ x e hx ((hp.getElem?_entries hj).trans he) hterm

namespace AppendOutcome

section
variable (h : AppendOutcome l c args success l' c')
include h

theorem numbered (hl : Numbered 1 l)
    (hes : Numbered (args.prevLogIndex + 1) args.entries) : Numbered 1 l' := by
  cases h with
  | refused => exact hl
  | cut _ _ _ _ => exact hl.take _
  | covered _ _ => exact hl
  | @written j _ _ _ hwhy =>
    refine Numbered.append_iff.mpr ⟨hl.take _, ?_⟩
    rw [length_take_of_le (by omega)]
    exact (show args.prevLogIndex + 1 + j = 1 + (args.prevLogIndex + j) by omega) ▸ hes.drop j

/-- A success leaves the whole batch in the log. -/
theorem end_le (hok : success = true) :
    args.prevLogIndex + args.entries.length ≤ l'.length := by
  cases h with
  | refused | cut => cases hok
  | covered hprev hag =>
    cases hlen : args.entries.length with
    | zero => exact hprev.le_length
    | succ j =>
      obtain ⟨x, e, hx, -⟩ := hag j (by omega)
      obtain ⟨hlt, -⟩ := List.getElem?_eq_some_iff.mp hx
      omega
  | written _ _ hj hwhy =>
    rw [List.length_append, List.length_drop, List.length_take_of_le (by omega)]
    omega

omit h in
/-- The committed index stays, or moves within what the leader has committed of the batch. -/
theorem commit_cases (c i j : Nat) :
    max c (min i j) = c ∨ true = true ∧ max c (min i j) ≤ i ∧ max c (min i j) ≤ j := by
  rcases Nat.le_total (min i j) c with h | h
  · exact .inl (Nat.max_eq_left h)
  · exact .inr ⟨rfl, by omega, by omega⟩

/-- The outcome, if the batch is a piece of the leader's log. -/
theorem accepted (hmatch : Match LogEntry.term l w)
    (hp : Proper w args) : RaftNode.Accepted l w c args success l' c' := by
  cases h with
  | refused =>
    exact ⟨.refl _ _ _, nofun, .inl prefix_rfl, .inl rfl, Nat.le_refl _, nofun⟩
  | cut hpos he hterm hc =>
    refine ⟨.cut hc fun x y hx hy => ?_, nofun, .inl (List.take_prefix _ _), .inl rfl,
      Nat.le_refl _, nofun⟩
    cases he.symm.trans hx
    rw [← hp.prev_term y hpos hy]
    exact hterm
  | covered hprev hag =>
    refine ⟨.refl _ _ _, fun _ => ?_, .inl prefix_rfl, commit_cases _ _ _,
      Nat.le_max_left _ _, fun _ => Nat.le_max_right _ _⟩
    rw [← hp.take_eq_of_agrees hmatch (hprev.take_eq hmatch hp) hag]
    exact take_prefix _ _
  | @written j hprev hag hj hwhy =>
    have hsame := hp.take_eq_of_agrees hmatch (hprev.take_eq hmatch hp) hag
    -- the result is the leader's log up to the end of the batch
    have hresult : l.take (args.prevLogIndex + j) ++ args.entries.drop j =
        w.take (args.prevLogIndex + args.entries.length) := by
      rw [hsame, hp.take_add (Nat.le_of_lt hj), append_assoc, take_append_drop,
        hp.take_eq]
    rw [hresult]
    refine ⟨.replace (Nat.add_le_add_left (Nat.le_of_lt hj) _) hsame ?_,
      fun _ => prefix_rfl, .inr ⟨rfl, rfl⟩, commit_cases _ _ _, Nat.le_max_left _ _,
      fun _ => Nat.le_max_right _ _⟩
    rcases hwhy with hend | ⟨hc, -, hconflict⟩
    · exact .inl (Nat.le_of_eq hend)
    · exact .inr ⟨hc, fun x y hx hy =>
        hconflict x y hx ((hp.getElem?_entries hj).symm.trans hy)⟩

end

end AppendOutcome

end Outcome

namespace RaftNode
variable {σ : Type} {n : RaftNode σ} {k : NodeCore}

/-- The fields of a node that the replication invariants read. -/
def core (n : RaftNode σ) : NodeCore where
  id := n.id
  state := n.state
  currentTerm := n.currentTerm
  votedFor := n.votedFor
  entries := n.log.entries
  committed := n.log.committed
  lastSnapshotIndex := n.lastSnapshotIndex
  snapshotInterval := n.snapshotInterval

theorem core_applyCommitted (n : RaftNode σ) (clock : Clock) :
    (n.applyCommitted clock).core = n.core := by
  obtain ⟨a, sm, halted, -, -, h | ⟨-, voters, h⟩⟩ := n.applyCommitted_spec clock
  · rw [h]
    rfl
  · rw [h]
    rfl

section Calls

/-- What a vote request does: the term is adopted, and the vote is granted only to a
candidate of the node's term, whose log is up to date, and who has the vote already if
anyone has. -/
structure VoteCast (n : RaftNode σ) (args : RequestVoteArgs) (granted : Bool)
    (after : NodeCore) : Prop where
  core : after = if granted then
      { n.core.adopt args.term with votedFor := some args.candidateId }
    else n.core.adopt args.term
  term : granted = true → (n.core.adopt args.term).currentTerm = args.term
  vote : granted = true → ∀ c, (n.core.adopt args.term).votedFor = some c → c = args.candidateId
  compare : granted = true → upToDate n.log args.lastLogIndex args.lastLogTerm = true

theorem VoteCast.adopted {args : RequestVoteArgs} {granted : Bool}
    {after : NodeCore} (h : VoteCast n args granted after) :
    ∃ vote, after = { n.core.adopt args.term with votedFor := vote } := by
  rw [h.core]
  split
  · exact ⟨_, rfl⟩
  · exact ⟨(n.core.adopt args.term).votedFor, rfl⟩

variable [RaftStorage σ]

theorem core_maybeSnapshot [SnapshotCodec]
    (h : n.snapshotInterval = 0 ∨ n.log.applied < n.snapshotInterval) :
    n.maybeSnapshot.core = n.core := by
  rcases n.maybeSnapshot_cases with ⟨snap, storage, hdue, -, -⟩ | ⟨-, storage, hm, -⟩
  · obtain ⟨hpos, hle, -⟩ := snapshotDue_spec hdue
    omega
  · rw [hm]
    rfl

theorem core_adoptTerm (n : RaftNode σ) (term : Nat) :
    (n.adoptTerm term).core = n.core.adopt term := by
  unfold adoptTerm NodeCore.adopt
  by_cases hlt : n.currentTerm < term
  · rw [if_pos hlt, if_pos (show n.core.currentTerm < term from hlt)]
    unfold becomeFollower
    rw [if_pos hlt]
    rfl
  · rw [if_neg hlt, if_neg (show ¬ n.core.currentTerm < term from hlt)]

theorem core_concede {term : Nat} (hle : n.currentTerm ≤ term) :
    (n.concede term).core = n.core.concede term := by
  unfold concede
  split
  · rfl
  rename_i hnot
  have heq : n.currentTerm = term := by omega
  split
  · rfl
  rename_i hstate
  unfold NodeCore.concede
  rw [if_neg (show ¬ n.core.currentTerm < term from hnot), ← heq]
  have hf : n.state = .follower := not_not.mp hstate
  unfold core
  rw [hf]

/-! ## AppendEntries -/

/-- Following the leader's commit stays within what the request covers, and gets there if
the log does. -/
theorem core_followCommit (n : RaftNode σ) (args : AppendEntriesArgs) :
    ∃ c, (n.followCommit args).core = { n.core with committed := c } ∧
      (c = n.log.committed ∨ c ≤ args.leaderCommit ∧ c ≤ args.lastNew) ∧
      n.log.committed ≤ c ∧
      (args.lastNew ≤ n.log.lastIndex → min args.leaderCommit args.lastNew ≤ c) := by
  unfold followCommit
  by_cases hlt : n.log.committed < args.leaderCommit
  · refine ⟨(n.log.commit (min args.leaderCommit args.lastNew)).committed, ?_, ?_, ?_⟩
    · rw [if_pos hlt]
      unfold core
      dsimp only [syncCommittedStateBestEffort]
      rw [commit_entries]
    · rcases n.log.commit_committed (min args.leaderCommit args.lastNew) with hc | ⟨hc, -⟩
      · exact .inl hc
      · right
        omega
    · unfold commit
      split
      · exact ⟨by dsimp only; omega, fun _ => Nat.le_refl _⟩
      · exact ⟨Nat.le_refl _, fun hle => by omega⟩
  · rw [if_neg hlt]
    exact ⟨n.log.committed, rfl, .inl rfl, Nat.le_refl _, fun _ => by omega⟩

section Follow
variable {n : RaftNode σ} {w : List LogEntry} {args : AppendEntriesArgs}

/-- The consistency check passes before the first entry, or behind an entry of the term it
names. -/
theorem checkPrevLog_true {i t : Nat} (hsnap : n.lastSnapshotIndex = 0)
    (hl : Numbered 1 n.log.entries) (h : (n.checkPrevLog i t).1 = true) :
    i = 0 ∨ ∃ e, n.log.entries[i - 1]? = some e ∧ e.term = t := by
  unfold checkPrevLog at h
  by_cases hzero : i = 0
  · exact .inl hzero
  have hpos : 1 ≤ i := Nat.pos_of_ne_zero hzero
  refine .inr ?_
  rw [if_neg hzero, hsnap, if_neg (Nat.not_lt_zero _), if_neg hzero,
    get_of_numbered hl Nat.one_pos, if_pos hpos] at h
  rcases he : n.log.entries[i - 1]? with _ | e
  · rw [he] at h
    cases h
  rw [he] at h
  dsimp only at h
  split at h
  · split at h <;> cases h
  · rename_i hterm
    exact ⟨e, rfl, not_not.mp hterm⟩

/-- It cuts the log only at an entry of another term, above what is committed. -/
theorem checkPrevLog_cut (hl : Numbered 1 n.log.entries) (i t : Nat) :
    (n.checkPrevLog i t).2 = n ∨
      ∃ e storage, n.log.entries[i - 1]? = some e ∧ e.term ≠ t ∧ n.log.committed ≤ i - 1 ∧
        0 < i ∧ (n.checkPrevLog i t).2 = { n with
          log := { n.log with entries := n.log.entries.take (i - 1) }, storage := storage } := by
  rcases n.checkPrevLog_node i t with h | ⟨-, e, log, hlt, he, hterm, htrunc, h⟩
  · exact .inl h
  have hpos : 0 < i := Nat.lt_of_le_of_lt (Nat.zero_le _) hlt
  obtain ⟨hc, -, -⟩ := truncateAfter_ok htrunc
  rw [get_of_numbered hl Nat.one_pos, if_pos (show 1 ≤ i from hpos)] at he
  rw [truncateAfter_entries hl htrunc] at h
  exact .inr ⟨e, _, he, hterm, hc, hpos, h⟩

/-- **What a batch does to a numbered log** that reaches its start: for `j` entries the two
agree in term, and there the batch or the log ends, or the log is cut above what is
committed; or the batch is refused. -/
theorem appendBatch_log {i : Nat} {es : List LogEntry} (hl : Numbered 1 n.log.entries)
    (hes : Numbered (i + 1) es) (hlen : i ≤ n.log.entries.length) :
    ∃ j storage, Agrees n.log.entries es i j ∧
      ((∃ ok, n.appendBatch es = (ok, { n with storage := storage }) ∧
        (ok = true → j = es.length)) ∨
      n.appendBatch es = (true, { n with
          log := { n.log with entries := n.log.entries.take (i + j) ++ es.drop j }
          storage := storage }) ∧ j < es.length ∧
        (n.log.entries.length = i + j ∨ n.log.committed ≤ i + j ∧ i + j < n.log.entries.length ∧
          ∀ x e, n.log.entries[i + j]? = some x → es[j]? = some e → x.term ≠ e.term)) := by
  obtain ⟨j, hag, hout⟩ := AppendProgress.appendLoop_spec
    (p := { log := n.log, storage := n.storage }) Nat.one_pos hl (Nat.add_comm i 1 ▸ hes) hlen
  unfold appendBatch
  by_cases hcons : consecutive es = true
  swap
  · rw [if_neg hcons]
    exact ⟨j, _, hag, .inl ⟨false, rfl, nofun⟩⟩
  rw [if_pos hcons]
  generalize AppendProgress.appendLoop { log := n.log, storage := n.storage } es = r at hout ⊢
  cases hout with
  | covered hj => exact ⟨j, _, hag, .inl ⟨true, rfl, fun _ => hj⟩⟩
  | extended hj hend => exact ⟨j, _, hag, .inr ⟨rfl, hj, .inl hend.symm⟩⟩
  | replaced hj hlt hconflict hc ha =>
    exact ⟨j, _, hag, .inr ⟨rfl, hj, .inr ⟨by dsimp only at hc; omega, hlt, hconflict⟩⟩⟩
  | refused hj hlt hc => exact ⟨j, _, hag, .inl ⟨false, rfl, nofun⟩⟩

variable [SnapshotCodec]

omit [SnapshotCodec] in
theorem concede_noteLeader_applied (n : RaftNode σ) (term : Nat) (clock : Clock)
    (leaderId : String) :
    ((n.concede term).noteLeader clock leaderId).log.applied = n.log.applied := by
  unfold concede
  split
  · rfl
  · split <;> rfl

omit [SnapshotCodec] in
theorem followCommit_applied (n : RaftNode σ) (args : AppendEntriesArgs) :
    (n.followCommit args).log.applied = n.log.applied := by
  unfold followCommit
  split
  · exact RaftLog.commit_applied _ _
  · rfl

omit [RaftStorage σ] [SnapshotCodec] in
/-- Nothing beyond the committed index is applied. -/
theorem applyCommitted_applied_le (n : RaftNode σ) (clock : Clock) :
    (n.applyCommitted clock).log.applied ≤ max n.log.applied n.log.committed := by
  obtain ⟨a, sm, halted, -, hle, h | ⟨-, voters, h⟩⟩ := n.applyCommitted_spec clock
  · rw [h]
    exact hle
  · rw [h]
    exact hle

/-- No snapshot is due after the request: they are off, or what can be applied by then lies below
the interval. -/
def SnapshotNotDue (n : RaftNode σ) (args : AppendEntriesArgs) : Prop :=
  n.snapshotInterval = 0 ∨ max n.log.applied (max n.log.committed
    (min args.leaderCommit (args.prevLogIndex + args.entries.length))) < n.snapshotInterval

omit [RaftStorage σ] [SnapshotCodec] in
theorem SnapshotNotDue.of_core (hk : n.core = k) (h : k.snapshotInterval = 0) :
    n.SnapshotNotDue args := .inl ((congrArg NodeCore.snapshotInterval hk).trans h)

/-- **AppendEntries on a numbered log.**  No snapshot is taken on the way. -/
theorem acceptEntries_outcome (hk : n.core = k) (hsnap : k.lastSnapshotIndex = 0)
    (hl : Numbered 1 k.entries) (hes : Numbered (args.prevLogIndex + 1) args.entries)
    (clock : Clock) (hterm : k.currentTerm ≤ args.term)
    (hno : n.SnapshotNotDue args) :
    ∃ l' c', (n.acceptEntries clock args).2.core =
        { k.concede args.term with entries := l', committed := c' } ∧
      AppendOutcome k.entries k.committed args (n.acceptEntries clock args).1 l' c' := by
  subst hk
  change Numbered 1 n.log.entries at hl
  change ∃ l' c', _ ∧ AppendOutcome n.log.entries n.log.committed args _ l' c'
  obtain ⟨m, hm, hcases⟩ := n.acceptEntries_cases clock args
  have hcore : m.core = n.core.concede args.term := by
    rw [hm, ← core_concede hterm]
    rfl
  have hentries : m.log.entries = n.log.entries := congrArg NodeCore.entries hcore
  have hcommitted : m.log.committed = n.log.committed := congrArg NodeCore.committed hcore
  have hmsnap : m.lastSnapshotIndex = 0 := (congrArg NodeCore.lastSnapshotIndex hcore).trans hsnap
  have hmint : m.snapshotInterval = n.snapshotInterval := congrArg NodeCore.snapshotInterval hcore
  rw [← hentries] at hl
  rw [← hentries, ← hcommitted, ← hcore]
  rcases hcases with ⟨-, hr⟩ | ⟨htrue, hcases⟩
  · rw [hr]
    rcases checkPrevLog_cut hl args.prevLogIndex args.prevLogTerm with
      h | ⟨e, storage, he, hne, hc, hpos, h⟩
    · exact ⟨_, _, by rw [h]; rfl, .refused⟩
    · exact ⟨_, _, by rw [h]; rfl, .cut hpos he hne hc⟩
  have hprev : args.PrevHeld m.log.entries := checkPrevLog_true hmsnap hl htrue
  obtain ⟨j, storage, hag, hout⟩ := appendBatch_log hl hes hprev.le_length
  rcases hcases with ⟨hfalse, hr⟩ | ⟨hok, hr⟩
  · rw [hr]
    rcases hout with ⟨ok, hb, -⟩ | ⟨hb, -⟩
    · exact ⟨_, _, by rw [hb]; rfl, .refused⟩
    · rw [hb] at hfalse
      cases hfalse
  obtain ⟨l', hb, hout⟩ : ∃ l', (m.appendBatch args.entries).2 = { m with
        log := { m.log with entries := l' }, storage := storage } ∧
      AppendOutcome m.log.entries m.log.committed args true l' (max m.log.committed
        (min args.leaderCommit (args.prevLogIndex + args.entries.length))) := by
    rcases hout with ⟨ok, hb, hj⟩ | ⟨hb, hj, hwhy⟩
    · rw [hb] at hok
      exact ⟨m.log.entries, by rw [hb], .covered hprev (hj hok ▸ hag)⟩
    · exact ⟨_, by rw [hb], .written hprev hag hj hwhy⟩
  obtain ⟨c, hfollow, hc, hmono, hreach⟩ := core_followCommit (m.appendBatch args.entries).2 args
  have hreached := hreach (by
    rw [hb, lastIndex_eq_length (hout.numbered hl hes),
      AppendEntriesArgs.lastNew_of_numbered hes]
    exact hout.end_le rfl)
  rw [AppendEntriesArgs.lastNew_of_numbered hes] at hc hreached
  have hbc : (m.appendBatch args.entries).2.log.committed = m.log.committed := by rw [hb]
  have happ : (((m.appendBatch args.entries).2.followCommit args).applyCommitted clock).core =
      { m.core with entries := l', committed := c } := by
    rw [core_applyCommitted, hfollow, hb]
    rfl
  have hmax : c = max m.log.committed
      (min args.leaderCommit (args.prevLogIndex + args.entries.length)) := by omega
  rw [hr]
  refine ⟨l', c, (core_maybeSnapshot ?_).trans happ, hmax ▸ hout⟩
  have happlied : ((m.appendBatch args.entries).2.followCommit args).log.applied =
      n.log.applied := by
    rw [followCommit_applied, hb, hm]
    exact concede_noteLeader_applied n args.term clock args.leaderId
  have hle := applyCommitted_applied_le ((m.appendBatch args.entries).2.followCommit args) clock
  have hcom : ((m.appendBatch args.entries).2.followCommit args).log.committed = c :=
    congrArg NodeCore.committed hfollow
  have hint : (((m.appendBatch args.entries).2.followCommit args).applyCommitted
      clock).snapshotInterval = n.snapshotInterval :=
    (congrArg NodeCore.snapshotInterval happ).trans hmint
  rw [happlied, hcom, hmax, hcommitted] at hle
  rcases hno with hzero | hlt
  · exact .inl (hint.trans hzero)
  · exact .inr (by omega)

/-- **AppendEntries, seen from the leader's log.** -/
theorem acceptEntries_accepted (hk : n.core = k) (hsnap : k.lastSnapshotIndex = 0)
    (hint : k.snapshotInterval = 0) (hl : Numbered 1 k.entries) (hw : Numbered 1 w)
    (hmatch : Match LogEntry.term k.entries w) (hp : Proper w args) (clock : Clock)
    (hterm : k.currentTerm ≤ args.term) :
    ∃ l' c', (n.acceptEntries clock args).2.core =
        { k.concede args.term with entries := l', committed := c' } ∧
      Accepted k.entries w k.committed args (n.acceptEntries clock args).1 l' c' := by
  obtain ⟨l', c', hcore, hout⟩ :=
    acceptEntries_outcome hk hsnap hl (hp.numbered hw) clock hterm (.of_core hk hint)
  exact ⟨l', c', hcore, hout.accepted hmatch hp⟩

/-- A request behind a place that no log holds is refused; at most it cuts the log. -/
theorem acceptEntries_beyond (hk : n.core = k) (hsnap : k.lastSnapshotIndex = 0)
    (hint : k.snapshotInterval = 0) (hl : Numbered 1 k.entries)
    (hpos : ∀ e ∈ k.entries, 0 < e.term) (hp : Beyond args) (clock : Clock)
    (hterm : k.currentTerm ≤ args.term) :
    ∃ l', (n.acceptEntries clock args).2.core =
        { k.concede args.term with entries := l' } ∧ l' <+: k.entries ∧
      (n.acceptEntries clock args).1 = false := by
  have hes : Numbered (args.prevLogIndex + 1) args.entries := by
    rw [hp.entries]
    exact Numbered.nil _
  obtain ⟨l', c', hcore, hout⟩ :=
    acceptEntries_outcome hk hsnap hl hes clock hterm (.of_core hk hint)
  -- no entry of the log has term 0
  have habsent : ¬ args.PrevHeld k.entries := by
    rintro (hzero | ⟨e, he, hterm⟩)
    · exact absurd hzero (Nat.ne_of_gt hp.prev_pos)
    have := hpos e (mem_of_getElem? he)
    have := hp.prev_term
    omega
  rw [hcore]
  generalize (n.acceptEntries clock args).1 = success at hout
  cases hout with
  | refused => exact ⟨k.entries, rfl, prefix_rfl, rfl⟩
  | cut _ _ _ _ => exact ⟨_, rfl, take_prefix _ _, rfl⟩
  | covered hprev | written hprev => exact absurd hprev habsent

end Follow

/-- **The two ways an AppendEntries request goes**, on the core. -/
theorem handleAppendEntries_core [HmacSha256] [SnapshotCodec] (n : RaftNode σ) (clock : Clock)
    (args : AppendEntriesArgs) : ∃ cache m, m = { n with replayCache := cache } ∧
      ((n.handleAppendEntries clock args).2 = m ∧
        (n.handleAppendEntries clock args).1.success = false ∨
      (n.verifyAppendEntries clock args).1 = true ∧ n.currentTerm ≤ args.term ∧
        (n.handleAppendEntries clock args).2 = (m.acceptEntries clock args).2 ∧
        (n.handleAppendEntries clock args).1.success = (m.acceptEntries clock args).1) := by
  obtain ⟨cache, m, hm, -, ⟨-, hr⟩ | ⟨hver, hterm, hr⟩⟩ := n.handleAppendEntries_cases clock args
  · exact ⟨cache, m, hm, .inl (by rw [hr]; exact ⟨rfl, rfl⟩)⟩
  · exact ⟨cache, m, hm, .inr ⟨hver, hterm, by rw [hr], by rw [hr]⟩⟩

/-! ## Elections -/

/-- A candidacy opens the next term with a vote for oneself; at the last term there is
none. -/
theorem core_tryBecomeCandidate (n : RaftNode σ) (draw : Nat) :
    ((n.tryBecomeCandidate draw).getD n).core = n.core ∨
      ((n.tryBecomeCandidate draw).getD n).core = { n.core with
        state := .candidate, currentTerm := n.currentTerm + 1, votedFor := some n.id } := by
  unfold tryBecomeCandidate Term.checkedNext
  split
  · exact .inr rfl
  · exact .inl rfl

theorem castVote_core (n : RaftNode σ) (args : RequestVoteArgs) :
    VoteCast n args ((n.adoptTerm args.term).castVote args).1.voteGranted
      ((n.adoptTerm args.term).castVote args).2.core ∧
    ((n.adoptTerm args.term).castVote args).1.term = (n.core.adopt args.term).currentTerm := by
  have hcore := n.core_adoptTerm args.term
  have hterm : (n.adoptTerm args.term).currentTerm = (n.core.adopt args.term).currentTerm :=
    congrArg NodeCore.currentTerm hcore
  have hvoted : (n.adoptTerm args.term).votedFor = (n.core.adopt args.term).votedFor :=
    congrArg NodeCore.votedFor hcore
  have hlog : (n.adoptTerm args.term).log.entries = n.log.entries :=
    (congrArg NodeCore.entries hcore).trans (NodeCore.adopt_entries _ _)
  unfold castVote
  split
  · rename_i hgrant
    unfold shouldGrantVote at hgrant
    split at hgrant
    · cases hgrant
    rename_i hle
    split at hgrant
    · cases hgrant
    rename_i hfree
    refine ⟨⟨?_, fun _ => ?_, fun _ c hc => ?_, fun _ => ?_⟩, hterm⟩
    · rw [if_pos rfl, ← hcore]
      rfl
    · rw [hterm] at hle
      rcases n.core.adopt_cases args.term with ⟨-, hadopt⟩ | ⟨hge, hadopt⟩
      · rw [hadopt]
      · rw [hadopt] at hle ⊢
        omega
    · rw [hvoted, hc] at hfree
      simpa using hfree
    · unfold upToDate at hgrant ⊢
      rwa [lastTerm_congr hlog, lastIndex_congr hlog] at hgrant
  · refine ⟨⟨?_, nofun, nofun, nofun⟩, hterm⟩
    rw [if_neg Bool.false_ne_true]
    exact hcore

theorem handleRequestVote_core [HmacSha256] (n : RaftNode σ) (clock : Clock)
    (args : RequestVoteArgs) :
    (n.handleRequestVote clock args).2.core = n.core ∧
        (n.handleRequestVote clock args).1.voteGranted = false ∨
      (n.verifyRequestVote clock args).1 = true ∧
        VoteCast n args (n.handleRequestVote clock args).1.voteGranted
          (n.handleRequestVote clock args).2.core ∧
        (n.handleRequestVote clock args).1.term = (n.core.adopt args.term).currentTerm := by
  obtain ⟨cache, m, hm, ⟨-, hr⟩ | ⟨hver, hr⟩⟩ := n.handleRequestVote_cases clock args
  · rw [hr, hm]
    exact .inl ⟨rfl, rfl⟩
  have hcast := m.castVote_core args
  rw [hr]
  rw [hm] at hcast ⊢
  exact .inr ⟨hver, ⟨hcast.1.core, hcast.1.term, hcast.1.vote, hcast.1.compare⟩, hcast.2⟩

end Calls

end RaftNode

end CratonHsm
