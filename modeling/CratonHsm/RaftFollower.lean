import CratonHsm.RaftCore
import CratonHsm.RaftRejection

/-!
# The append rule of a follower

What AppendEntries is to make of the log of a follower: a success puts the batch in its place,
keeps what lies below it, and keeps what lies beyond it unless the batch conflicts with the
log; a refusal cuts at most entries that are not committed.  `handle_append_entries` compares
the terms of entries and nothing else, and a success may be followed by a snapshot, which
discards the entries it covers.  So the rule holds of logs in which an index and a term
determine the entry, as long as no snapshot is due (`appendsByRule_of_matching`).
-/

namespace CratonHsm
open List

/-- An entry of the batch differs in term from the one the log holds in its place. -/
def Conflicts (l es : List LogEntry) (i : Nat) : Prop :=
  ∃ k x e, l[i + k]? = some x ∧ es[k]? = some e ∧ x.term ≠ e.term

/-- The log `l'` that a batch `es` behind the first `i` entries is to make of `l`. -/
structure AppendRule (l es : List LogEntry) (i : Nat) (l' : List LogEntry) : Prop where
  below : l'.take i = l.take i
  batch : (l'.drop i).take es.length = es
  kept : ¬ Conflicts l es i → l'.drop (i + es.length) = l.drop (i + es.length)
  cut : Conflicts l es i → l'.drop (i + es.length) = []

section Rule
variable {l es : List LogEntry} {i j : Nat}

/-- Entries of the log and the batch in one place and of one term are equal. -/
def MatchesBatch (l es : List LogEntry) (i : Nat) : Prop :=
  ∀ k x e, l[i + k]? = some x → es[k]? = some e → x.term = e.term → x = e

section
variable (h : MatchesBatch l es i)
include h

theorem MatchesBatch.take (hag : Agrees l es i j) :
    l.take (i + j) = l.take i ++ es.take j := by
  induction j with
  | zero => simp
  | succ j ih =>
    obtain ⟨x, e, hx, he, hterm⟩ := hag j (Nat.lt_succ_self j)
    obtain rfl := h j x e hx he hterm
    rw [← Nat.add_assoc, take_add_one, hx, ih fun m hm => hag m (Nat.lt_succ_of_lt hm),
      take_add_one, he, append_assoc]

/-- The whole batch is in the log already. -/
theorem AppendRule.covered (hlen : i ≤ l.length)
    (hag : Agrees l es i es.length) : AppendRule l es i l := by
  have hno : ¬ Conflicts l es i := by
    rintro ⟨k, x, e, hx, he, hne⟩
    obtain ⟨hk, -⟩ := List.getElem?_eq_some_iff.mp he
    obtain ⟨y, f, hy, hf, hterm⟩ := hag k hk
    cases hx.symm.trans hy
    cases he.symm.trans hf
    exact hne hterm
  have hdrop := congrArg (List.drop i) (h.take hag)
  rw [List.drop_take, Nat.add_sub_cancel_left, List.take_length,
    List.drop_left' (List.length_take_of_le hlen)] at hdrop
  exact ⟨rfl, hdrop, fun _ => rfl, fun hc => absurd hc hno⟩

/-- The batch is written over what follows the entries it shares with the log. -/
theorem AppendRule.written (hlen : i ≤ l.length) (hag : Agrees l es i j) (hj : j < es.length)
    (hwhy : l.length = i + j ∨ i + j < l.length ∧
      ∀ x e, l[i + j]? = some x → es[j]? = some e → x.term ≠ e.term) :
    AppendRule l es i (l.take (i + j) ++ es.drop j) := by
  have htake : (l.take i).length = i := length_take_of_le hlen
  have hdrop : (l.take i ++ es).drop (i + es.length) = [] :=
    drop_eq_nil_of_le (by rw [length_append, htake])
  rw [h.take hag, append_assoc, take_append_drop]
  refine ⟨by rw [take_left' htake], by rw [drop_left' htake, take_length], ?_,
    fun _ => hdrop⟩
  intro hno
  rw [hdrop]
  rcases hwhy with hend | ⟨hlt, hne⟩
  · exact (drop_eq_nil_of_le (by omega)).symm
  · exact absurd ⟨j, _, _, getElem?_eq_getElem hlt, getElem?_eq_getElem hj,
      hne _ _ (getElem?_eq_getElem hlt) (getElem?_eq_getElem hj)⟩ hno

end

end Rule

namespace RaftNode

section Handler
variable {σ : Type} {args : AppendEntriesArgs}

/-- The follower's half of Raft's rule, for a node before and after a request. -/
structure FollowsRule (n m : RaftNode σ) (args : AppendEntriesArgs) (success : Bool) : Prop where
  accepted : success = true →
    AppendRule n.log.entries args.entries args.prevLogIndex m.log.entries ∧ m.log.committed =
      max n.log.committed (min args.leaderCommit (args.prevLogIndex + args.entries.length))
  refused : success = false → m.log.entries = n.log.entries ∨
    ∃ k, n.log.committed ≤ k ∧ m.log.entries = n.log.entries.take k
  monotone : n.log.committed ≤ m.log.committed
  stable : ∀ k e, k < n.log.committed → n.log.entries[k]? = some e → m.log.entries[k]? = some e

/-- The node can take the batch: it holds the entry before it, and the terms differ nowhere below
the committed index. -/
def Attaches (n : RaftNode σ) (args : AppendEntriesArgs) : Prop :=
  args.PrevHeld n.log.entries ∧ ∀ k x e, n.log.entries[args.prevLogIndex + k]? = some x →
    args.entries[k]? = some e → x.term ≠ e.term → n.log.committed ≤ args.prevLogIndex + k

theorem Attaches.of_agrees {n : RaftNode σ} {j : Nat} (hprev : args.PrevHeld n.log.entries)
    (hag : Agrees n.log.entries args.entries args.prevLogIndex j)
    (hend : n.log.entries.length ≤ args.prevLogIndex + j ∨ args.entries.length ≤ j ∨
      n.log.committed ≤ args.prevLogIndex + j) : n.Attaches args := by
  refine ⟨hprev, fun k x e hx he hne => ?_⟩
  by_cases hk : k < j
  · obtain ⟨y, f, hy, hf, hterm⟩ := hag k hk
    cases hx.symm.trans hy
    cases he.symm.trans hf
    exact absurd hterm hne
  · obtain ⟨hlog, -⟩ := List.getElem?_eq_some_iff.mp hx
    obtain ⟨hbatch, -⟩ := List.getElem?_eq_some_iff.mp he
    omega

theorem FollowsRule.of_outcome {n m : RaftNode σ} {success : Bool}
    (h : AppendOutcome n.log.entries n.log.committed args success m.log.entries m.log.committed)
    (hmatch : n.Attaches args → MatchesBatch n.log.entries args.entries args.prevLogIndex) :
    n.FollowsRule m args success := by
  generalize hl : m.log.entries = l at h
  generalize hc : m.log.committed = c at h
  cases h with
  | refused =>
    exact ⟨nofun, fun _ => .inl hl, Nat.le_of_eq hc.symm, fun k e _ he => by rw [hl, he]⟩
  | cut _ _ _ hle =>
    refine ⟨nofun, fun _ => .inr ⟨_, hle, hl⟩, Nat.le_of_eq hc.symm, fun k e hk he => ?_⟩
    rw [hl, List.getElem?_take_of_lt (by omega), he]
  | covered hprev hag =>
    refine ⟨fun _ => ⟨?_, hc⟩, nofun, hc ▸ Nat.le_max_left _ _, fun k e _ he => by rw [hl, he]⟩
    rw [hl]
    exact .covered (hmatch (.of_agrees hprev hag (.inr (.inl (Nat.le_refl _))))) hprev.le_length hag
  | written hprev hag hj hwhy =>
    have hattaches : n.Attaches args :=
      .of_agrees hprev hag (hwhy.imp Nat.le_of_eq fun hcut => .inr hcut.1)
    refine ⟨fun _ => ⟨?_, hc⟩, nofun, hc ▸ Nat.le_max_left _ _, fun k e hk he => ?_⟩
    · rw [hl]
      exact .written (hmatch hattaches) hprev.le_length hag hj (hwhy.imp_right And.right)
    · obtain ⟨hlt, -⟩ := List.getElem?_eq_some_iff.mp he
      rw [hl, List.getElem?_append_left (by rw [List.length_take]; omega),
        List.getElem?_take_of_lt (by omega), he]

variable [RaftStorage σ] [SnapshotCodec]

/-- The rule for the part of the call behind the checks of the request. -/
theorem acceptEntries_rule {n : RaftNode σ}
    (hsnap : n.lastSnapshotIndex = 0) (hl : Numbered 1 n.log.entries)
    (hes : Numbered (args.prevLogIndex + 1) args.entries)
    (hmatch : n.Attaches args → MatchesBatch n.log.entries args.entries args.prevLogIndex)
    (clock : Clock) (hterm : n.currentTerm ≤ args.term) (hno : n.SnapshotNotDue args) :
    n.FollowsRule (n.acceptEntries clock args).2 args (n.acceptEntries clock args).1 := by
  obtain ⟨l', c', hcore, hout⟩ := acceptEntries_outcome rfl hsnap hl hes clock hterm hno
  obtain rfl : RaftLog.entries _ = l' := congrArg NodeCore.entries hcore
  obtain rfl : RaftLog.committed _ = c' := congrArg NodeCore.committed hcore
  exact .of_outcome hout hmatch

variable [HmacSha256]

/-- What `handle_append_entries` is to do. -/
def AppendsByRule (n : RaftNode σ) (clock : Clock) (args : AppendEntriesArgs) : Prop :=
  n.FollowsRule (n.handleAppendEntries clock args).2 args
    (n.handleAppendEntries clock args).1.success

/-- **A follower appends by Raft's rule**, if no snapshot is due and, where the node can take the
batch, an index and a term determine the entry. -/
theorem appendsByRule_of_matching (n : RaftNode σ) (clock : Clock) (args : AppendEntriesArgs)
    (hl : Numbered 1 n.log.entries) (hsnap : n.lastSnapshotIndex = 0)
    (hver : (n.verifyAppendEntries clock args).1 = true) (hterm : n.currentTerm ≤ args.term)
    (hes : Numbered (args.prevLogIndex + 1) args.entries)
    (hmatch : n.Attaches args → MatchesBatch n.log.entries args.entries args.prevLogIndex)
    (hno : n.SnapshotNotDue args) : n.AppendsByRule clock args := by
  obtain ⟨cache, m, rfl, -, ⟨hbad | hlt, -⟩ | ⟨-, -, hr⟩⟩ := n.handleAppendEntries_cases clock args
  · rw [hver] at hbad
    cases hbad
  · omega
  unfold AppendsByRule
  rw [hr]
  obtain ⟨h₁, h₂, h₃, h₄⟩ := acceptEntries_rule (n := { n with replayCache := cache }) hsnap hl hes
    hmatch clock hterm hno
  exact ⟨h₁, h₂, h₃, h₄⟩

end Handler

section Sample
attribute [local instance] noSnapshotCodec hmacSha256

def oneEntryFollower : RaftNode InMemoryStorage :=
  { (new "n2" ["n1", "n3"] 1000 0 : RaftNode InMemoryStorage) with
    clusterSecret := some sampleSecret, log := { entries := [⟨1, 1, .noop⟩] } }

/-- A signed batch of one entry of term 1. -/
def oneEntryBatch (prev : Nat) (command : RaftCommand) : AppendEntriesArgs :=
  signedAppend 1 "n1" prev prev [⟨1, prev + 1, command⟩] 1 1000

/-- A follower that takes snapshots, but not yet. -/
def snapshottingFollower : RaftNode InMemoryStorage :=
  { oneEntryFollower with stateMachine := some {}, snapshotInterval := 100 }

theorem appendsByRule_of_matching_next : snapshottingFollower.AppendsByRule (sampleClock 1000)
    (oneEntryBatch 1 (.keySync "k" [])) := by
  refine appendsByRule_of_matching _ _ _ (Numbered.singleton_iff.mpr rfl) rfl ?_ (by decide)
    (Numbered.singleton_iff.mpr rfl) ?_ (.inr (by decide))
  · unfold oneEntryBatch
    rw [hmacSha256_eq]
    decide +kernel
  · rintro - (_ | k) x e hx he
    · cases hx
    · cases he

/-- Another entry of the same index and term is confirmed, and not taken over. -/
theorem same_term_entry_kept :
    (oneEntryFollower.verifyAppendEntries (sampleClock 1000)
      (oneEntryBatch 0 (.keySync "k" []))).1 = true ∧
    ¬ oneEntryFollower.AppendsByRule (sampleClock 1000) (oneEntryBatch 0 (.keySync "k" [])) := by
  have hrun : (oneEntryFollower.verifyAppendEntries (sampleClock 1000)
        (oneEntryBatch 0 (.keySync "k" []))).1 = true ∧
      (oneEntryFollower.handleAppendEntries (sampleClock 1000)
        (oneEntryBatch 0 (.keySync "k" []))).1.success = true ∧
      (oneEntryFollower.handleAppendEntries (sampleClock 1000)
        (oneEntryBatch 0 (.keySync "k" []))).2.log.entries = [⟨1, 1, .noop⟩] := by
    unfold oneEntryBatch
    rw [hmacSha256_eq]
    decide +kernel
  refine ⟨hrun.1, fun h => ?_⟩
  have hbatch := (h.accepted hrun.2.1).1.batch
  rw [hrun.2.2] at hbatch
  cases hbatch

end Sample

end RaftNode

end CratonHsm
