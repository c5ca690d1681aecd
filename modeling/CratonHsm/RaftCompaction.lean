import CratonHsm.RaftStored

/-!
# Compaction and the vote rule

The up-to-date check of both vote paths reads the last position of the retained log.
Compaction must not change the answer: a voter that has moved entries into a snapshot
still holds them.  It does not as long as one entry survives the cut; when the cut
empties the log, the last position falls back to `(0, 0)` and not to the snapshot
boundary, and the voter grants to anyone.
-/

namespace CratonHsm
open RaftLog List

/-- The order of log positions, term first. -/
def PositionLt (term index term' index' : Nat) : Prop :=
  term < term' ∨ term = term' ∧ index < index'

namespace RaftNode
variable {σ : Type} {n m : RaftNode σ} {args : InstallSnapshotArgs}

/-- Index of the logical last position: the last retained entry, or else the snapshot
boundary. -/
def logicalLastIndex (n : RaftNode σ) : Nat :=
  n.log.entries.getLast?.elim n.lastSnapshotIndex LogEntry.index

def logicalLastTerm (n : RaftNode σ) : Nat :=
  n.log.entries.getLast?.elim n.lastSnapshotTerm LogEntry.term

/-- **Compaction keeps the vote rule**: the compacted node answers every vote and
pre-vote as the uncompacted one, and denies every candidate whose last position is
below its own logical last position. -/
structure VoteRulePreserved [HmacSha256] (uncompacted compacted : RaftNode σ) : Prop where
  sameVote : ∀ id term index lastTerm,
    compacted.shouldGrantVote id term index lastTerm =
      uncompacted.shouldGrantVote id term index lastTerm
  samePreVote : ∀ clock args,
    compacted.handlePreVote clock args = uncompacted.handlePreVote clock args
  denies : ∀ id term index lastTerm,
    PositionLt lastTerm index compacted.logicalLastTerm compacted.logicalLastIndex →
      compacted.shouldGrantVote id term index lastTerm = false
  deniesPreVote : ∀ clock args,
    PositionLt args.lastLogTerm args.lastLogIndex compacted.logicalLastTerm
      compacted.logicalLastIndex → (compacted.handlePreVote clock args).voteGranted = false

theorem upToDate_iff (l : RaftLog) (index term : Nat) :
    upToDate l index term = true ↔ ¬ PositionLt term index l.lastTerm l.lastIndex := by
  unfold upToDate PositionLt
  split
  · simp only [true_iff]; omega
  · split
    · simp only [decide_eq_true_eq]; omega
    · simp only [Bool.false_eq_true, false_iff, not_not]; omega

theorem upToDate_congr {l m : RaftLog} (hi : l.lastIndex = m.lastIndex)
    (ht : l.lastTerm = m.lastTerm) : upToDate l = upToDate m := by
  unfold upToDate
  rw [hi, ht]

/-- Two logs that judge every candidate alike have the same last position. -/
theorem lastPosition_of_upToDate {l m : RaftLog} (h : ∀ i t, upToDate l i t = upToDate m i t) :
    l.lastIndex = m.lastIndex ∧ l.lastTerm = m.lastTerm := by
  have hl := (upToDate_iff m l.lastIndex l.lastTerm).mp (by
    rw [← h, upToDate_iff]; unfold PositionLt; omega)
  have hm := (upToDate_iff l m.lastIndex m.lastTerm).mp (by
    rw [h, upToDate_iff]; unfold PositionLt; omega)
  unfold PositionLt at hl hm
  omega

/-- The voter would vote for this candidate, were its log judged up to date. -/
theorem shouldGrantVote_self (n : RaftNode σ) (index term : Nat) :
    n.shouldGrantVote (n.votedFor.getD "") n.currentTerm index term =
      upToDate n.log index term := by
  unfold shouldGrantVote
  rw [if_neg (Nat.lt_irrefl _)]
  cases n.votedFor with
  | none => rfl
  | some v => simp

theorem upToDate_of_shouldGrantVote {n : RaftNode σ} {id : String} {term index lastTerm : Nat}
    (h : n.shouldGrantVote id term index lastTerm = true) :
    upToDate n.log index lastTerm = true := by
  unfold shouldGrantVote at h
  split at h
  · cases h
  split at h
  · cases h
  · exact h

section Vote
variable [HmacSha256]

/-- Everything the two vote paths read besides the log. -/
structure SameVoter (n m : RaftNode σ) : Prop where
  term : m.currentTerm = n.currentTerm
  vote : m.votedFor = n.votedFor
  secret : m.clusterSecret = n.clusterSecret
  age : m.maxMessageAgeMs = n.maxMessageAgeMs
  skew : m.maxFutureSkewMs = n.maxFutureSkewMs
  heartbeat : m.lastHeartbeatMs = n.lastHeartbeatMs
  timeout : m.electionTimeoutMs = n.electionTimeoutMs

/-- The vote rule is preserved when the last position is, and that position is the
logical one. -/
theorem voteRulePreserved_of_last (hs : SameVoter n m)
    (hi : m.log.lastIndex = n.log.lastIndex) (ht : m.log.lastTerm = n.log.lastTerm)
    (hli : m.logicalLastIndex = m.log.lastIndex) (hlt : m.logicalLastTerm = m.log.lastTerm) :
    VoteRulePreserved n m where
  sameVote id term index lastTerm := by
    unfold shouldGrantVote
    rw [hs.term, hs.vote, upToDate_congr hi ht]
  samePreVote clock args := by
    unfold handlePreVote verifyPreVote isFresh heardLeaderRecently
    rw [hs.term, hs.secret, hs.age, hs.skew, hs.heartbeat, hs.timeout, upToDate_congr hi ht]
  denies id term index lastTerm hlow := by
    rw [hli, hlt] at hlow
    rw [← Bool.not_eq_true]
    intro hg
    exact (upToDate_iff _ _ _).mp (upToDate_of_shouldGrantVote hg) hlow
  deniesPreVote clock args hlow := by
    rw [hli, hlt] at hlow
    rw [← Bool.not_eq_true]
    intro hg
    exact (upToDate_iff _ _ _).mp (handlePreVote_granted_iff.mp hg).2.2.2 hlow

/-- Conversely, a node that keeps the rule keeps its last position, and never reports one
below its logical last position. -/
theorem last_of_voteRulePreserved (hs : SameVoter n m) (h : VoteRulePreserved n m) :
    (m.log.lastIndex = n.log.lastIndex ∧ m.log.lastTerm = n.log.lastTerm) ∧
      ¬ PositionLt m.log.lastTerm m.log.lastIndex m.logicalLastTerm m.logicalLastIndex := by
  refine ⟨lastPosition_of_upToDate fun i t => ?_, fun hlow => ?_⟩
  · have := h.sameVote (n.votedFor.getD "") n.currentTerm i t
    rw [shouldGrantVote_self] at this
    rw [← this, ← hs.vote, ← hs.term, shouldGrantVote_self]
  · have := h.denies (m.votedFor.getD "") m.currentTerm _ _ hlow
    rw [shouldGrantVote_self, ← Bool.not_eq_true, upToDate_iff] at this
    apply this
    unfold PositionLt
    omega

end Vote

/-! ## The last position after a cut -/

theorem getLast?_filter_of_last {l : List LogEntry} {e : LogEntry} {p : LogEntry → Bool}
    (hl : l.getLast? = some e) (he : p e = true) : (l.filter p).getLast? = some e := by
  obtain ⟨init, rfl⟩ := getLast?_eq_some_iff.mp hl
  rw [filter_append, filter_cons_of_pos he]
  simp

/-- A cut below the last entry keeps it. -/
theorem getLast?_discardThrough {l : RaftLog} {s : Nat} (h : s < l.lastIndex) :
    ∃ e, l.entries.getLast? = some e ∧ (l.discardThrough s).entries.getLast? = some e := by
  unfold lastIndex at h
  cases hl : l.entries.getLast? with
  | none => rw [hl] at h; cases h
  | some e =>
    rw [hl] at h
    refine ⟨e, rfl, getLast?_filter_of_last hl ?_⟩
    exact decide_eq_true h

/-- After a cut at or above the last entry, what is retained ends beyond the cut. -/
theorem lastIndex_discardThrough (l : RaftLog) (s : Nat) :
    (l.discardThrough s).entries = [] ∨ s < (l.discardThrough s).lastIndex := by
  rcases hl : (l.discardThrough s).entries.getLast? with _ | e
  · exact .inl (getLast?_eq_none_iff.mp hl)
  right
  have hmem : e ∈ l.entries.filter (fun e => decide (s < e.index)) := mem_of_getLast? hl
  unfold lastIndex
  rw [hl]
  exact of_decide_eq_true (mem_filter.mp hmem).2

/-! ## The two compactions -/

section Compactions
variable [RaftStorage σ] [SnapshotCodec] [HmacSha256]

/-- `maybe_snapshot` keeps the vote rule exactly when an entry beyond the applied index
survives it. -/
theorem voteRulePreserved_maybeSnapshot_iff {n : RaftNode σ} (h : n.TakesSnapshot) :
    VoteRulePreserved n n.maybeSnapshot ↔ n.log.applied < n.log.lastIndex := by
  rcases n.maybeSnapshot_cases with ⟨snap, storage, hdue, -, heq⟩ | ⟨hno, -⟩
  swap
  · exact absurd h hno
  obtain ⟨hpos, hle, hidx, -⟩ := snapshotDue_spec hdue
  have hs : SameVoter n n.maybeSnapshot := by
    rw [heq]
    exact ⟨rfl, rfl, rfl, rfl, rfl, rfl, rfl⟩
  have hlog : n.maybeSnapshot.log = n.log.discardThrough n.log.applied := by rw [heq, hidx]
  have hsnap : n.maybeSnapshot.lastSnapshotIndex = n.log.applied := by rw [heq, hidx]
  constructor
  · intro hp
    obtain ⟨⟨hi, -⟩, hnot⟩ := last_of_voteRulePreserved hs hp
    by_contra hlast
    rw [hlog] at hi hnot
    rcases lastIndex_discardThrough n.log n.log.applied with hempty | hbeyond
    · -- the logical last position is the boundary, and the log reports `(0, 0)`
      apply hnot
      unfold logicalLastTerm logicalLastIndex lastTerm lastIndex PositionLt
      rw [hlog, hempty, hsnap]
      simp only [getLast?_nil, Option.elim_none]
      omega
    · omega
  · intro hlast
    obtain ⟨e, he, he'⟩ := getLast?_discardThrough hlast
    apply voteRulePreserved_of_last hs
    · unfold lastIndex; rw [hlog, he, he']
    · unfold lastTerm; rw [hlog, he, he']
    · unfold logicalLastIndex lastIndex; rw [hlog, he']; rfl
    · unfold logicalLastTerm lastTerm; rw [hlog, he']; rfl

omit [RaftStorage σ] [SnapshotCodec] [HmacSha256] in
/-- The node with the entries a snapshot covers back in its log. -/
def withCovered (n : RaftNode σ) (covered : List LogEntry) : RaftNode σ :=
  { n with log := { n.log with entries := covered ++ n.log.entries } }

/-- The log of a node that installed a snapshot. -/
theorem installSnapshot_installed {clock : Clock}
    (h : n.installSnapshot clock args = (.installed, m)) :
    m.log = n.log.discardThrough args.lastIncludedIndex ∧
      m.lastSnapshotIndex = args.lastIncludedIndex ∧
      m.lastSnapshotTerm = args.lastIncludedTerm := by
  rcases n.installSnapshot_cases clock args with ⟨-, hstore, -⟩ | ⟨data, q, -, -, -, hq, heq⟩
  · rw [h] at hstore
    cases hstore
  have hlog : q.log = n.log := by
    obtain ⟨c, b, r, rfl⟩ := hq
    unfold adoptTerm becomeFollower persistHardState
    split <;> rfl
  rw [h] at heq
  unfold persistAndAdopt at heq
  dsimp only at heq
  split at heq
  · split at heq
    · cases heq
    cases heq
    refine ⟨?_, rfl, rfl⟩
    rw [← hlog]
    rfl
  · cases heq

/-- Installing a snapshot keeps the vote rule exactly when an entry beyond it was in the
log, or it covers nothing. -/
theorem voteRulePreserved_installSnapshot_iff {clock : Clock}
    (h : n.installSnapshot clock args = (.installed, m))
    {covered : List LogEntry} (hc : covered.getLast?.elim (0, 0) (fun e => (e.index, e.term)) =
      (args.lastIncludedIndex, args.lastIncludedTerm)) :
    VoteRulePreserved (m.withCovered covered) m ↔
      (∃ e ∈ n.log.entries, args.lastIncludedIndex < e.index) ∨
        args.lastIncludedIndex = 0 ∧ args.lastIncludedTerm = 0 := by
  obtain ⟨hlog, hsi, hst⟩ := installSnapshot_installed h
  have hs : SameVoter (m.withCovered covered) m := ⟨rfl, rfl, rfl, rfl, rfl, rfl, rfl⟩
  have hentries : m.log.entries =
      n.log.entries.filter (fun e => args.lastIncludedIndex < e.index) := by rw [hlog]; rfl
  have hfull : (m.withCovered covered).log.entries = covered ++ m.log.entries := rfl
  cases hlast : m.log.entries.getLast? with
  | some e =>
    have hmem : e ∈ n.log.entries ∧ args.lastIncludedIndex < e.index := by
      have he := mem_of_getLast? hlast
      rw [hentries] at he
      exact ⟨(mem_filter.mp he).1, of_decide_eq_true (mem_filter.mp he).2⟩
    have hfulllast : (m.withCovered covered).log.entries.getLast? = some e := by
      rw [hfull, getLast?_append, hlast]
      rfl
    refine ⟨fun _ => .inl ⟨e, hmem⟩, fun _ => ?_⟩
    apply voteRulePreserved_of_last hs
    · unfold lastIndex; rw [hfulllast, hlast]
    · unfold lastTerm; rw [hfulllast, hlast]
    · unfold logicalLastIndex lastIndex; rw [hlast]; rfl
    · unfold logicalLastTerm lastTerm; rw [hlast]; rfl
  | none =>
    have hempty : m.log.entries = [] := getLast?_eq_none_iff.mp hlast
    have hnone : ¬ ∃ e ∈ n.log.entries, args.lastIncludedIndex < e.index := by
      rintro ⟨e, he, hlt⟩
      have : e ∈ m.log.entries := by
        rw [hentries]
        exact mem_filter.mpr ⟨he, decide_eq_true hlt⟩
      rw [hempty] at this
      cases this
    have hcovered : (m.withCovered covered).log.lastIndex = args.lastIncludedIndex ∧
        (m.withCovered covered).log.lastTerm = args.lastIncludedTerm := by
      unfold lastIndex lastTerm
      rw [hfull, hempty, append_nil]
      cases hcl : covered.getLast? with
      | none | some => rw [hcl] at hc; exact Prod.mk.inj hc
    have hzero : m.log.lastIndex = 0 ∧ m.log.lastTerm = 0 := by
      unfold lastIndex lastTerm
      rw [hlast]
      exact ⟨rfl, rfl⟩
    constructor
    · intro hp
      obtain ⟨⟨hi, ht⟩, -⟩ := last_of_voteRulePreserved hs hp
      right
      omega
    · rintro (hex | ⟨hi, ht⟩)
      · exact absurd hex hnone
      apply voteRulePreserved_of_last hs
      · omega
      · omega
      · unfold logicalLastIndex; rw [hlast, hzero.1]; exact hsi.trans hi
      · unfold logicalLastTerm; rw [hlast, hzero.2]; exact hst.trans ht

/-- **When compaction keeps the vote rule.**  For `maybe_snapshot` the uncompacted node
is the node before; for an installed snapshot it is the node with any log up to the
boundary put back in front. -/
theorem voteRulePreserved_iff :
    (∀ n : RaftNode σ, n.TakesSnapshot →
      (VoteRulePreserved n n.maybeSnapshot ↔ n.log.applied < n.log.lastIndex)) ∧
    (∀ (n m : RaftNode σ) (clock : Clock) (args : InstallSnapshotArgs)
      (covered : List LogEntry), n.installSnapshot clock args = (.installed, m) →
      covered.getLast?.elim (0, 0) (fun e => (e.index, e.term)) =
        (args.lastIncludedIndex, args.lastIncludedTerm) →
      (VoteRulePreserved (m.withCovered covered) m ↔
        (∃ e ∈ n.log.entries, args.lastIncludedIndex < e.index) ∨
          args.lastIncludedIndex = 0 ∧ args.lastIncludedTerm = 0)) :=
  ⟨fun _ h => voteRulePreserved_maybeSnapshot_iff h,
    fun _ _ _ _ _ h hc => voteRulePreserved_installSnapshot_iff h hc⟩

end Compactions

section Sample

/-- A voter at term 1 that has applied the first of the given entries. -/
def sampleVoter (entries : List LogEntry) : RaftNode InMemoryStorage :=
  { (new "n2" ["n1", "n3"] 1000 0 : RaftNode InMemoryStorage) with
    currentTerm := 1
    clusterSecret := some sampleSecret
    log := { entries := entries, committed := 1, applied := 1 }
    stateMachine := some { lastApplied := 1 }
    snapshotInterval := 1
    storage := some {} }

def sampleEntry (index : Nat) : LogEntry := { term := 1, index := index, command := .noop }

def sampleSnapshot : StateMachineSnapshot := { lastApplied := 1 }

@[reducible]
def sampleCodec : SnapshotCodec := jsonCodec [sampleSnapshot]

attribute [local instance] sampleCodec hmacSha256

/-- The leader's snapshot up to the first entry. -/
def sampleInstall : InstallSnapshotArgs :=
  let args : InstallSnapshotArgs := {
    term := 1, leaderId := "n1", lastIncludedIndex := 1, lastIncludedTerm := 1
    data := jsonSnapshot sampleSnapshot, timestampMs := 1000, hmac := none }
  { args with hmac := some (args.computeHmac sampleSecret) }

theorem sampleVoter_takesSnapshot (entries : List LogEntry) :
    (sampleVoter entries).TakesSnapshot := ⟨_, rfl, rfl⟩

/-- The voter after that snapshot. -/
def sampleInstalled : RaftNode InMemoryStorage :=
  ((sampleVoter [sampleEntry 1, sampleEntry 2]).installSnapshot (sampleClock 1000)
    sampleInstall).2

theorem sampleVoter_installs :
    (sampleVoter [sampleEntry 1, sampleEntry 2]).installSnapshot (sampleClock 1000)
      sampleInstall = (.installed, sampleInstalled) := by
  have h : ((sampleVoter [sampleEntry 1, sampleEntry 2]).installSnapshot (sampleClock 1000)
      sampleInstall).1 = .installed := by
    unfold sampleInstall
    rw [hmacSha256_eq]
    decide +kernel
  unfold sampleInstalled
  generalize (sampleVoter _).installSnapshot _ _ = r at h ⊢
  obtain ⟨o, m⟩ := r
  cases h
  rfl

/-- A voter that keeps its second entry keeps the vote rule through both compactions. -/
theorem voteRulePreserved_two_entries :
    VoteRulePreserved (sampleVoter [sampleEntry 1, sampleEntry 2])
      (sampleVoter [sampleEntry 1, sampleEntry 2]).maybeSnapshot ∧
    VoteRulePreserved (sampleInstalled.withCovered [sampleEntry 1]) sampleInstalled := by
  constructor
  · exact (voteRulePreserved_iff.1 _ (sampleVoter_takesSnapshot _)).mpr (by decide)
  · refine (voteRulePreserved_iff.2 _ _ _ _ [sampleEntry 1] sampleVoter_installs rfl).mpr ?_
    exact .inl ⟨sampleEntry 2, by decide, by decide⟩

/-- A voter whose only entry is compacted away grants its vote to an empty log. -/
theorem voteRule_lost_on_emptied_log :
    ¬ ∀ (σ : Type) [RaftStorage σ] [SnapshotCodec] [HmacSha256] (n : RaftNode σ),
      n.TakesSnapshot → VoteRulePreserved n n.maybeSnapshot := by
  intro h
  have hsame := (h InMemoryStorage (sampleVoter [sampleEntry 1])
    (sampleVoter_takesSnapshot _)).sameVote "n3" 2 0 0
  exact absurd hsame (by decide)

end Sample

end RaftNode

end CratonHsm
