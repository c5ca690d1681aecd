import CratonHsm.RaftAppend
import CratonHsm.RaftRun

/-!
# The representation invariant of the log

The offset arithmetic of `RaftLog::get` is right as long as the entries are numbered
from `last_snapshot_index + 1` on.  `LogInv` is that, with the order of the watermarks.
Every operation on the log keeps it, provided entries arrive where the log ends: the
batch of an AppendEntries that gets past the consistency check may still start
anywhere (`BatchFits`), `submit_command` numbers from 1 again once compaction has
emptied the log, and `attach_storage` appends to whatever the node holds.
-/

namespace CratonHsm
open RaftLog List

/-- The entries are numbered from the snapshot boundary `s` on, and the watermarks are in
order between the boundary and the end. -/
structure LogInv (s : Nat) (l : RaftLog) : Prop where
  numbered : Numbered (s + 1) l.entries
  snapshot_le : s ≤ l.applied
  applied_le : l.applied ≤ l.committed
  committed_le : l.committed ≤ s + l.entries.length

namespace LogInv
variable {s : Nat} {l : RaftLog}

theorem empty : LogInv 0 {} := ⟨.nil 1, Nat.le_refl 0, Nat.le_refl 0, Nat.le_refl 0⟩

section Ends
variable (h : LogInv s l)
include h

theorem end_eq : max l.lastIndex s = s + l.entries.length := max_lastIndex h.numbered

variable {e : LogEntry}

theorem append (he : e.index = s + l.entries.length + 1) :
    LogInv s (l.append e) := by
  refine ⟨?_, h.snapshot_le, h.applied_le, ?_⟩
  · exact Numbered.append_iff.mpr ⟨h.numbered, Numbered.singleton_iff.mpr (by omega)⟩
  · have := h.committed_le
    simp only [append_committed, append_entries, length_append]
    omega

theorem commit (i : Nat) : LogInv s (l.commit i) := by
  have hend := h.end_eq
  obtain ⟨hn, hs, ha, hc⟩ := h
  refine ⟨by rwa [commit_entries], by rwa [commit_applied], ?_, ?_⟩
  · rw [commit_applied]
    rcases l.commit_committed i with hsame | ⟨hi, hlt, -⟩ <;> omega
  · rw [commit_entries]
    rcases l.commit_committed i with hsame | ⟨hi, -, hle⟩ <;> omega

theorem advance {a : Nat} (hle : l.applied ≤ a) (hmax : a ≤ max l.applied l.committed) :
    LogInv s { l with applied := a } := by
  obtain ⟨hn, hs, ha, hc⟩ := h
  exact ⟨hn, Nat.le_trans hs hle, by dsimp only; omega, hc⟩

/-- Cutting a suffix above the watermarks. -/
theorem take {k : Nat} (hc : l.committed ≤ s + k) :
    LogInv s { l with entries := l.entries.take k } := by
  obtain ⟨hn, hs, ha, hend⟩ := h
  refine ⟨hn.take k, hs, ha, ?_⟩
  simp only [length_take]
  omega

theorem truncateAfter {m : RaftLog} {after : Nat} (ht : l.truncateAfter after = .ok m) :
    LogInv s m := by
  obtain ⟨hc, ha, -⟩ := truncateAfter_ok ht
  rw [truncateAfter_entries h.numbered ht]
  have := h.snapshot_le
  exact h.take (by omega)

/-- Compaction moves the boundary forward. -/
theorem discardThrough {t : Nat} (ht : s ≤ t) : LogInv t (l.discardThrough t) := by
  have hentries := RaftLog.discardThrough_entries h.numbered t
  obtain ⟨hn, hs, ha, hend⟩ := h
  refine ⟨?_, ?_, ?_, ?_⟩
  · rw [hentries]
    have := hn.drop (t + 1 - (s + 1))
    rwa [show s + 1 + (t + 1 - (s + 1)) = t + 1 from by omega] at this
  · unfold RaftLog.discardThrough
    dsimp only
    split <;> omega
  · unfold RaftLog.discardThrough
    dsimp only
    split <;> split <;> omega
  · rw [hentries, length_drop]
    unfold RaftLog.discardThrough
    dsimp only
    split <;> omega

/-- Compaction loses no position: the end of the log stays, or moves to the boundary. -/
theorem discardThrough_end {t : Nat} (ht : s ≤ t) :
    t + (l.discardThrough t).entries.length = max t (s + l.entries.length) := by
  rw [discardThrough_entries h.numbered, length_drop]
  omega

end Ends

variable {es : List LogEntry}

/-- The append loop keeps the invariant, for a batch that starts inside the log or right
behind it. -/
theorem loopOutcome {σ : Type} [RaftStorage σ] {p q : AppendProgress σ}
    {k j : Nat} {done : Bool} (h : LogInv s p.log) (hes : Numbered (s + 1 + k) es)
    (hout : AppendProgress.LoopOutcome (s + 1) k j p es (done, q)) : LogInv s q.log := by
  have hcont : k + j ≤ p.log.entries.length → p.log.committed ≤ s + (k + j) →
      LogInv s { p.log with entries := p.log.entries.take (k + j) ++ es.drop j } := by
    intro hle hc
    obtain ⟨hn, hs, ha, hend⟩ := h.take hc
    refine ⟨Numbered.append_iff.mpr ⟨hn, ?_⟩, hs, ha, ?_⟩
    · have hlen : (p.log.entries.take (k + j)).length = k + j := by
        rw [length_take]; omega
      have := hes.drop j
      rwa [hlen, show s + 1 + (k + j) = s + 1 + k + j from by omega]
    · rw [length_append]
      exact Nat.le_trans hend (Nat.add_le_add_left (Nat.le_add_right _ _) s)
  have hcommitted := h.committed_le
  cases hout with
  | covered hj => exact h
  | extended hj hend => exact hcont (Nat.le_of_eq hend) (by omega)
  | replaced hj hlt hconflict hc ha => exact hcont (Nat.le_of_lt hlt) (by omega)
  | refused hj hlt hc => exact h

end LogInv

/-- A batch of consecutive entries is numbered from its first index. -/
theorem numbered_of_consecutive
    (h : consecutive (e :: es) = true) : Numbered e.index (e :: es) := by
  induction es generalizing e with
  | nil => exact Numbered.singleton_iff.mpr rfl
  | cons f es ih =>
    obtain ⟨hf, hrest⟩ := Bool.and_eq_true_iff.mp h
    have hindex : f.index = e.index + 1 := of_decide_eq_true hf
    exact Numbered.cons_iff.mpr ⟨rfl, hindex ▸ ih hrest⟩

namespace RaftNode
variable {σ : Type} {events : List (NodeEvent σ)}

/-- Log and snapshot boundary of the node are in order. -/
def LogOk (n : RaftNode σ) : Prop := LogInv n.lastSnapshotIndex n.log

/-- The position behind which the next entry belongs. -/
def logicalEnd (n : RaftNode σ) : Nat := max n.log.lastIndex n.lastSnapshotIndex

variable {n m : RaftNode σ}

theorem LogOk.end_eq (h : n.LogOk) :
    n.logicalEnd = n.lastSnapshotIndex + n.log.entries.length := LogInv.end_eq h

/-- The representation invariant, as the operations of `RaftLog` rely on it. -/
structure RepresentationInvariant (n : RaftNode σ) : Prop where
  consecutive : ∀ k e f, n.log.entries[k]? = some e → n.log.entries[k + 1]? = some f →
    f.index = e.index + 1
  first : ∀ e, n.log.entries.head? = some e → e.index = n.lastSnapshotIndex + 1
  applied_le : n.log.applied ≤ n.log.committed
  committed_le : n.log.committed ≤ max n.log.lastIndex n.lastSnapshotIndex
  get_index : ∀ i e, n.log.get i = some e → e.index = i

theorem LogOk.representation (h : n.LogOk) : n.RepresentationInvariant := by
  refine ⟨?_, ?_, h.applied_le, ?_, ?_⟩
  · intro k e f he hf
    rw [h.numbered k e he, h.numbered (k + 1) f hf]
    omega
  · intro e he
    rw [head?_eq_getElem?] at he
    exact h.numbered 0 e he
  · rw [LogInv.end_eq h]
    exact h.committed_le
  · intro i e he
    exact index_of_get h.numbered (Nat.succ_pos _) he

theorem IsNew.logOk (h : n.IsNew) : n.LogOk := by
  unfold LogOk
  rw [h.log, h.snapshotIndex]
  exact .empty

/-- **Where the next entry goes.**  With entries in the log, or nothing compacted,
`submit_command` appends right behind the logical end. -/
theorem lastIndex_eq_end (h : n.LogOk) (hsafe : n.log.entries ≠ [] ∨ n.lastSnapshotIndex = 0) :
    n.log.lastIndex = n.logicalEnd := by
  rw [h.end_eq]
  have hmax := LogInv.end_eq h
  rcases hsafe with hne | hzero
  · have := lastIndex_of_numbered h.numbered hne
    omega
  · omega

section Parts
variable [RaftStorage σ]

theorem logOk_checkPrevLog (h : n.LogOk) (i t : Nat) : (n.checkPrevLog i t).2.LogOk := by
  rcases n.checkPrevLog_node i t with hsame | ⟨-, e, log, -, -, -, htrunc, hcut⟩
  · rwa [hsame]
  · rw [hcut]
    exact h.truncateAfter htrunc

/-- The first entry of the batch lies inside the log or right behind it. -/
def BatchFits (n : RaftNode σ) (entries : List LogEntry) : Prop :=
  ∀ e, entries.head? = some e → n.lastSnapshotIndex < e.index ∧ e.index ≤ n.logicalEnd + 1

/-- A batch that fits goes through the loop as `LoopOutcome` says. -/
theorem appendLoop_of_fits (h : n.LogOk)
    (hc : consecutive (e :: es) = true) (hfits : n.BatchFits (e :: es)) :
    ∃ k j, Numbered (n.lastSnapshotIndex + 1 + k) (e :: es) ∧
      AppendProgress.LoopOutcome (n.lastSnapshotIndex + 1) k j
        { log := n.log, storage := n.storage } (e :: es)
        (AppendProgress.appendLoop { log := n.log, storage := n.storage } (e :: es)) := by
  obtain ⟨hlo, hhi⟩ := hfits e rfl
  rw [h.end_eq] at hhi
  obtain ⟨k, hk⟩ := Nat.exists_eq_add_of_le hlo
  have hnum := numbered_of_consecutive hc
  rw [hk] at hnum
  obtain ⟨j, -, hout⟩ := AppendProgress.appendLoop_spec
    (p := { log := n.log, storage := n.storage }) (Nat.succ_pos _) h.numbered hnum
    (by dsimp only; omega)
  exact ⟨k, j, hnum, hout⟩

theorem logOk_appendBatch (h : n.LogOk) {entries : List LogEntry}
    (hfits : consecutive entries = true → n.BatchFits entries) :
    (n.appendBatch entries).2.LogOk := by
  unfold appendBatch
  split
  · rename_i hc
    have hloop : LogInv n.lastSnapshotIndex
        (AppendProgress.appendLoop { log := n.log, storage := n.storage } entries).2.log := by
      cases entries with
      | nil => exact h
      | cons e es =>
        obtain ⟨k, j, hnum, hout⟩ := appendLoop_of_fits h hc (hfits hc)
        exact LogInv.loopOutcome (p := { log := n.log, storage := n.storage }) h hnum hout
    dsimp only
    split <;> exact hloop
  · exact h

theorem logOk_followCommit (h : n.LogOk) (args : AppendEntriesArgs) :
    (n.followCommit args).LogOk := by
  rcases n.followCommit_node args with hsame | ⟨-, hcommit⟩
  · rwa [hsame]
  · rw [hcommit]
    exact h.commit _

end Parts

/-! ## Calls that move no position -/

/-- The log stays in order and ends where it ended; the role does not change. -/
structure KeepsEnd (n m : RaftNode σ) : Prop where
  ok : m.LogOk
  state : m.state = n.state
  fin : m.logicalEnd = n.logicalEnd

namespace KeepsEnd

theorem trans {k : RaftNode σ} (h₁ : KeepsEnd n m) (h₂ : KeepsEnd m k) : KeepsEnd n k :=
  ⟨h₂.ok, h₂.state.trans h₁.state, h₂.fin.trans h₁.fin⟩

theorem of_entries (hstate : m.state = n.state) (hsnap : m.lastSnapshotIndex = n.lastSnapshotIndex)
    (hentries : m.log.entries = n.log.entries) (hok : m.LogOk) : KeepsEnd n m := by
  refine ⟨hok, hstate, ?_⟩
  unfold logicalEnd
  rw [hsnap, lastIndex_congr hentries]

theorem refl (h : n.LogOk) : KeepsEnd n n := .of_entries rfl rfl rfl h

end KeepsEnd

theorem applyCommitted_keepsEnd (h : n.LogOk) (clock : Clock) :
    KeepsEnd n (n.applyCommitted clock) := by
  obtain ⟨a, sm, halted, hle, hmax, happ | ⟨-, voters, happ⟩⟩ := n.applyCommitted_spec clock
  · rw [happ]
    exact .of_entries rfl rfl rfl (h.advance hle hmax)
  · rw [happ]
    exact .of_entries rfl rfl rfl (h.advance hle hmax)

theorem advanceCommitIndex_keepsEnd (h : n.LogOk) : KeepsEnd n n.advanceCommitIndex := by
  rcases n.advanceCommitIndex_node with hsame | ⟨i, -, hcommit⟩
  · rw [hsame]
    exact .refl h
  · rw [hcommit]
    exact .of_entries rfl rfl (commit_entries _ _) (h.commit i)

/-- What a call may do to the log: it stays in order, and a node that leads after the
call has lost no position. -/
structure LogStep (n m : RaftNode σ) : Prop where
  ok : m.LogOk
  grows : m.state = .leader → n.logicalEnd ≤ m.logicalEnd

theorem KeepsEnd.logStep (h : KeepsEnd n m) : LogStep n m :=
  ⟨h.ok, fun _ => Nat.le_of_eq h.fin.symm⟩

/-- The log and the boundary were not touched. -/
theorem LogStep.of_same (h : n.LogOk) (hlog : m.log = n.log)
    (hsnap : m.lastSnapshotIndex = n.lastSnapshotIndex) : LogStep n m := by
  refine ⟨?_, fun _ => ?_⟩
  · unfold LogOk
    rwa [hlog, hsnap]
  · unfold logicalEnd
    rw [hlog, hsnap]

theorem ReceiptOnly.log (h : ReceiptOnly n m) :
    m.log = n.log ∧ m.lastSnapshotIndex = n.lastSnapshotIndex := by
  obtain ⟨cache, buffers, rejects, rfl⟩ := h
  exact ⟨rfl, rfl⟩

section Steps
variable [RaftStorage σ]

theorem advanceAndSync_keepsEnd (h : n.LogOk) : KeepsEnd n n.advanceAndSync := by
  have hadv := advanceCommitIndex_keepsEnd h
  rcases n.advanceAndSync_node with hsame | hsync
  · rwa [hsame]
  · rw [hsync]
    exact hadv.trans (.of_entries rfl rfl rfl hadv.ok)

theorem maybeSnapshot_keepsEnd [SnapshotCodec] (h : n.LogOk) : KeepsEnd n n.maybeSnapshot := by
  rcases n.maybeSnapshot_cases with ⟨snap, storage, hdue, -, hm⟩ | ⟨-, storage, hm, -⟩
  · obtain ⟨-, -, hindex, -⟩ := snapshotDue_spec hdue
    rw [hm]
    have hok := h.discardThrough (t := snap.lastIndex) (by rw [hindex]; exact h.snapshot_le)
    refine ⟨hok, rfl, ?_⟩
    have hend := h.discardThrough_end (t := snap.lastIndex) (by rw [hindex]; exact h.snapshot_le)
    have hcut : snap.lastIndex ≤ n.lastSnapshotIndex + n.log.entries.length := by
      rw [hindex]
      exact Nat.le_trans h.applied_le h.committed_le
    rw [LogOk.end_eq (n := { n with
      storage := persistTruncate storage snap.lastIndex
      log := n.log.discardThrough snap.lastIndex
      lastSnapshotIndex := snap.lastIndex
      lastSnapshotTerm := snap.lastTerm }) hok, h.end_eq]
    dsimp only
    omega
  · rw [hm]
    exact .of_entries rfl rfl rfl h

/-! ## The handlers -/

theorem adoptTerm_log (n : RaftNode σ) (term : Nat) :
    (n.adoptTerm term).log = n.log ∧
      (n.adoptTerm term).lastSnapshotIndex = n.lastSnapshotIndex := by
  unfold adoptTerm
  split <;> exact ⟨rfl, rfl⟩

/-- Stepping down for the leader of a term leaves the log and the boundary alone. -/
theorem concede_log (n : RaftNode σ) (term : Nat) :
    (n.concede term).log = n.log ∧ (n.concede term).lastSnapshotIndex = n.lastSnapshotIndex ∧
      (n.concede term).lastSnapshotTerm = n.lastSnapshotTerm ∧
      (n.concede term).state = .follower := by
  unfold concede
  split
  · exact ⟨rfl, rfl, rfl, rfl⟩
  split
  · exact ⟨rfl, rfl, rfl, rfl⟩
  · rename_i hf
    exact ⟨rfl, rfl, rfl, not_not.mp hf⟩

/-- The verdict of the consistency check depends on the log and the boundary. -/
theorem checkPrevLog_congr (hlog : m.log = n.log)
    (hindex : m.lastSnapshotIndex = n.lastSnapshotIndex)
    (hterm : m.lastSnapshotTerm = n.lastSnapshotTerm) (i t : Nat) :
    (m.checkPrevLog i t).1 = (n.checkPrevLog i t).1 := by
  unfold checkPrevLog
  rw [hlog, hindex, hterm]
  split
  · rfl
  split
  · rfl
  split
  · rfl
  split
  · rfl
  split
  · split <;> rfl
  · rfl

/-- The node that checks the previous entry has the log of the node that was called. -/
theorem accepting_log {k : RaftNode σ} {cache : ReplayCache} {clock : Clock}
    {args : AppendEntriesArgs} (hm : m = { n with replayCache := cache })
    (hk : k = (m.concede args.term).noteLeader clock args.leaderId) (i t : Nat) :
    k.log = n.log ∧ (k.checkPrevLog i t).1 = (n.checkPrevLog i t).1 := by
  obtain ⟨hlog, hindex, hterm, -⟩ := m.concede_log args.term
  subst hm hk
  refine ⟨hlog, checkPrevLog_congr ?_ ?_ ?_ i t⟩
  · exact hlog
  · exact hindex
  · exact hterm

theorem castVote_log (n : RaftNode σ) (args : RequestVoteArgs) :
    (n.castVote args).2.log = n.log ∧
      (n.castVote args).2.lastSnapshotIndex = n.lastSnapshotIndex := by
  unfold castVote
  split <;> exact ⟨rfl, rfl⟩

theorem submitCommand_logStep (h : n.LogOk) (clock : Clock) (command : RaftCommand)
    (hsafe : n.state = .leader → n.log.entries ≠ [] ∨ n.lastSnapshotIndex = 0) :
    LogStep n (n.submitCommand clock command).2 ∧
      ∀ i, (n.submitCommand clock command).1 = some i → i = n.logicalEnd + 1 ∧
        ((n.submitCommand clock command).2.logicalEnd = i) := by
  rcases n.submitCommand_cases clock command with ⟨-, hr⟩ | ⟨hl, m, hm, hindex, hcases⟩
  · rw [hr]
    exact ⟨.of_same h rfl rfl, fun i hi => by cases hi⟩
  have hlast := lastIndex_eq_end h (hsafe hl)
  have hend := h.end_eq
  have happend : m.LogOk := by
    rw [hm]
    exact h.append (show n.log.lastIndex + 1 = _ by omega)
  have hmend : m.logicalEnd = n.logicalEnd + 1 := by
    rw [happend.end_eq, h.end_eq, hm]
    simp [Nat.add_assoc]
  have hkeeps : KeepsEnd m (n.submitCommand clock command).2 := by
    rcases hcases with ⟨-, hr⟩ | ⟨-, hr⟩
    · rw [hr]
      have hadv := advanceCommitIndex_keepsEnd happend
      exact hadv.trans (applyCommitted_keepsEnd hadv.ok clock)
    · rw [hr]
      exact .refl happend
  refine ⟨⟨hkeeps.ok, fun _ => ?_⟩, ?_⟩
  · rw [hkeeps.fin]
    omega
  intro i hi
  rw [hindex] at hi
  cases hi
  rw [hkeeps.fin]
  omega

theorem handleRequestVote_logStep [HmacSha256] (h : n.LogOk) (clock : Clock)
    (args : RequestVoteArgs) :
    LogStep n (n.handleRequestVote clock args).2 := by
  obtain ⟨cache, m, rfl, ⟨-, hr⟩ | ⟨-, hr⟩⟩ := n.handleRequestVote_cases clock args
  · rw [hr]
    exact .of_same h rfl rfl
  rw [hr]
  obtain ⟨hlog, hsnap⟩ := castVote_log (adoptTerm { n with replayCache := cache } args.term) args
  obtain ⟨hlog', hsnap'⟩ := adoptTerm_log { n with replayCache := cache } args.term
  exact .of_same h (hlog.trans hlog') (hsnap.trans hsnap')

/-- A node that has accepted an AppendEntries of its term is a follower with a log in
order. -/
theorem acceptEntries_logOk [SnapshotCodec] (h : n.LogOk) (clock : Clock)
    (args : AppendEntriesArgs)
    (hfits : (n.checkPrevLog args.prevLogIndex args.prevLogTerm).1 = true →
      consecutive args.entries = true → n.BatchFits args.entries) :
    (n.acceptEntries clock args).2.LogOk ∧ (n.acceptEntries clock args).2.state = .follower := by
  obtain ⟨m, hm, hcases⟩ := n.acceptEntries_cases clock args
  obtain ⟨hmlog, hmsnap, hmterm, hmstate⟩ : m.log = n.log ∧
      m.lastSnapshotIndex = n.lastSnapshotIndex ∧ m.lastSnapshotTerm = n.lastSnapshotTerm ∧
      m.state = .follower := by
    rw [hm]
    exact n.concede_log args.term
  have hok : m.LogOk := by
    unfold LogOk
    rwa [hmlog, hmsnap]
  rw [← checkPrevLog_congr hmlog hmsnap hmterm] at hfits
  have hmfits : (m.checkPrevLog args.prevLogIndex args.prevLogTerm).1 = true →
      consecutive args.entries = true → m.BatchFits args.entries := by
    intro hcheck hc e he
    have := hfits hcheck hc e he
    unfold logicalEnd at this ⊢
    rwa [hmlog, hmsnap]
  rcases hcases with ⟨-, hr⟩ | ⟨hcheck, ⟨-, hr⟩ | ⟨-, hr⟩⟩
  · rw [hr]
    refine ⟨logOk_checkPrevLog hok _ _, ?_⟩
    rcases m.checkPrevLog_node args.prevLogIndex args.prevLogTerm with hs |
      ⟨-, e, log, -, -, -, -, hs⟩
    · rw [hs]; exact hmstate
    · rw [hs]; exact hmstate
  · rw [hr]
    refine ⟨logOk_appendBatch hok (hmfits hcheck), ?_⟩
    obtain ⟨log, storage, hs⟩ := m.appendBatch_node args.entries
    rw [hs]
    exact hmstate
  · rw [hr]
    have hbatch := logOk_appendBatch hok (hmfits hcheck)
    have hbstate : (m.appendBatch args.entries).2.state = .follower := by
      obtain ⟨log, storage, hs⟩ := m.appendBatch_node args.entries
      rw [hs]
      exact hmstate
    generalize (m.appendBatch args.entries).2 = b at hbatch hbstate ⊢
    have hfollow := logOk_followCommit hbatch args
    have hfstate : (b.followCommit args).state = .follower := by
      rcases b.followCommit_node args with hs | ⟨-, hs⟩
      · rw [hs]; exact hbstate
      · rw [hs]; exact hbstate
    have happ := applyCommitted_keepsEnd hfollow clock
    have hall := happ.trans (maybeSnapshot_keepsEnd happ.ok)
    exact ⟨hall.ok, hall.state.trans hfstate⟩

/-- The entries of the store beyond its snapshot are numbered from there on. -/
def StoreFits (store : σ) : Prop :=
  ∀ entries, RaftStorage.loadLog store = .ok entries →
    match RaftStorage.loadSnapshot store with
    | .ok (some snap) =>
      Numbered (snap.lastIndex + 1) (entries.filter (fun e => snap.lastIndex < e.index))
    | _ => Numbered 1 entries

/-- A node with nothing in its log takes over a store whose log is in order. -/
theorem attachStorage_logOk [SnapshotCodec] (hlog : n.log = {}) (hsnap : n.lastSnapshotIndex = 0)
    (clock : Clock) {store : σ} (hfits : StoreFits store) :
    (n.attachStorage clock store).2.LogOk ∧
      (n.attachStorage clock store).2.state = n.state := by
  have hnil : ∀ entries, Numbered 1 entries →
      LogInv 0 { entries := entries, committed := 0, applied := 0 } := fun entries h =>
    ⟨h, Nat.le_refl 0, Nat.le_refl 0, Nat.zero_le _⟩
  unfold attachStorage LogOk
  split
  · rw [hlog, hsnap]
    exact ⟨.empty, rfl⟩
  dsimp only
  split
  · rw [hlog, hsnap]
    exact ⟨.empty, rfl⟩
  rename_i entries hentries
  have hloaded := hfits entries hentries
  rw [foldl_append, hlog]
  cases hs : RaftStorage.loadSnapshot store with
  | error err =>
    rw [hs] at hloaded
    rw [hsnap]
    exact ⟨hnil _ hloaded, rfl⟩
  | ok loaded =>
    rw [hs] at hloaded
    rcases loaded with _ | snap
    · rw [hsnap]
      exact ⟨hnil _ hloaded, rfl⟩
    unfold restoreSnapshot
    dsimp only
    have hinv : LogInv snap.lastIndex (discardThrough
        { entries := entries, committed := 0, applied := 0 } snap.lastIndex) := by
      refine ⟨hloaded, ?_, ?_, ?_⟩ <;> unfold discardThrough <;> dsimp only <;>
        split <;> omega
    split <;> exact ⟨hinv, rfl⟩

variable [HmacSha256] [SnapshotCodec]

/-- The request gets as far as the append loop. -/
def ReachesLoop (n : RaftNode σ) (clock : Clock) (args : AppendEntriesArgs) : Prop :=
  (n.verifyAppendEntries clock args).1 = true ∧ n.currentTerm ≤ args.term ∧
    (n.checkPrevLog args.prevLogIndex args.prevLogTerm).1 = true ∧
    consecutive args.entries = true

section
variable (h : n.LogOk)
include h

theorem handleAppendEntries_logStep {clock : Clock} {args : AppendEntriesArgs}
    (hfits : n.ReachesLoop clock args → n.BatchFits args.entries) :
    LogStep n (n.handleAppendEntries clock args).2 := by
  obtain ⟨cache, m, rfl, -, ⟨-, hr⟩ | ⟨hv, hterm, hr⟩⟩ := n.handleAppendEntries_cases clock args
  · rw [hr]
    exact .of_same h rfl rfl
  rw [hr]
  have hsame := checkPrevLog_congr (n := { n with replayCache := cache }) (m := n) rfl rfl rfl
    args.prevLogIndex args.prevLogTerm
  obtain ⟨hok, hstate⟩ := acceptEntries_logOk (n := { n with replayCache := cache }) h clock
    args (fun hcheck hc => hfits ⟨hv, hterm, hsame.trans hcheck, hc⟩)
  refine ⟨hok, fun hl => ?_⟩
  rw [hstate] at hl
  cases hl

theorem handleAppendEntriesReply_logStep (clock : Clock) (draw : Nat)
    (peerId : String) (reply : AppendEntriesReply) (sent : Nat) :
    LogStep n (n.handleAppendEntriesReply clock draw peerId reply sent) := by
  obtain ⟨accepts, m, rfl, -, hcases⟩ :=
    n.handleAppendEntriesReply_cases clock draw peerId reply sent
  rcases hcases with ⟨-, hr⟩ | ⟨-, -, hr⟩ | ⟨-, -, -, hr⟩ | ⟨-, -, -, hr⟩
  · rw [hr]
    exact .of_same h rfl rfl
  · rw [hr]
    exact .of_same h rfl rfl
  · rw [hr]
    obtain ⟨next, matched, hrec⟩ :=
      recordSuccess_node { n with legacyReplyHmacAccepts := accepts } peerId sent
    rw [hrec]
    have hrecord : KeepsEnd n { n with
        legacyReplyHmacAccepts := accepts, nextIndex := next, matchIndex := matched } :=
      .of_entries rfl rfl rfl h
    have hadv := hrecord.trans (advanceAndSync_keepsEnd hrecord.ok)
    have happ := hadv.trans (applyCommitted_keepsEnd hadv.ok clock)
    exact (happ.trans (maybeSnapshot_keepsEnd happ.ok)).logStep
  · rw [hr]
    obtain ⟨next, hback⟩ := backOff_node { n with legacyReplyHmacAccepts := accepts } draw peerId
    rw [hback]
    exact .of_same h rfl rfl

/-- An installed snapshot moves the boundary to its index, which is not below the
committed index; a rejected one leaves the log alone. -/
theorem handleInstallSnapshot_logStep (clock : Clock) (args : InstallSnapshotArgs) :
    LogStep n (n.handleInstallSnapshot clock args).2 := by
  change LogStep n (n.installSnapshot clock args).2
  obtain ⟨hlog, hsnap⟩ := n.adoptTerm_log args.term
  rcases n.installSnapshot_cases clock args with ⟨-, -, hr | hr⟩ | ⟨data, m, -, -, hle, hr, hi⟩
  · exact .of_same h hr.log.1 hr.log.2
  · exact .of_same h (hr.log.1.trans hlog) (hr.log.2.trans hsnap)
  have hmlog : m.log = n.log := hr.log.1.trans hlog
  have hmsnap : m.lastSnapshotIndex = n.lastSnapshotIndex := hr.log.2.trans hsnap
  rw [hi]
  unfold persistAndAdopt
  dsimp only
  split
  · split
    · exact .of_same h hmlog hmsnap
    have hbound : n.lastSnapshotIndex ≤ args.lastIncludedIndex :=
      Nat.le_trans h.snapshot_le (Nat.le_trans h.applied_le hle)
    have hok := h.discardThrough hbound
    have hend := h.discardThrough_end hbound
    rename_i snap _
    generalize (persistSnapshot m.storage (snapshotRecord args data)).2 = storage
    generalize hadopt : adoptSnapshot { m with storage := storage } clock args snap = r
    have hrlog : r.log = n.log.discardThrough args.lastIncludedIndex := by
      rw [← hadopt, ← hmlog]
      rfl
    have hrsnap : r.lastSnapshotIndex = args.lastIncludedIndex := by
      rw [← hadopt]
      rfl
    have hrok : r.LogOk := by
      unfold LogOk
      rwa [hrlog, hrsnap]
    refine ⟨hrok, fun _ => ?_⟩
    rw [h.end_eq, hrok.end_eq, hrlog, hrsnap]
    omega
  · exact .of_same h hmlog hmsnap

/-! ## Runs -/

/-- What a call must meet for the log to stay in order: a batch fits, a leader submits
only where its last retained entry is its logical end, and a store is attached to an
empty node and is itself in order. -/
def LogSafe (n : RaftNode σ) : NodeEvent σ → Prop
  | .handleAppendEntries clock args => n.ReachesLoop clock args → n.BatchFits args.entries
  | .submitCommand _ _ => n.state = .leader → n.log.entries ≠ [] ∨ n.lastSnapshotIndex = 0
  | .attachStorage _ store => n.log = {} ∧ n.lastSnapshotIndex = 0 ∧ StoreFits store
  | .restart _ fresh => fresh.IsNew ∧ ∀ store, n.storage = some store → StoreFits store
  | _ => True

/-- **What one call does to the log.** -/
theorem step_logStep {e : NodeEvent σ} (he : n.LogSafe e) : LogStep n (n.step e) := by
  cases e with
  | tryBecomeCandidate draw =>
    simp only [step]
    cases ht : n.tryBecomeCandidate draw with
    | none => exact (KeepsEnd.refl h).logStep
    | some m =>
      obtain ⟨next, -, rfl⟩ := Option.map_eq_some_iff.mp ht
      exact .of_same h rfl rfl
  | becomeLeader => exact .of_same h rfl rfl
  | handleRequestVote clock args => exact handleRequestVote_logStep h clock args
  | handleAppendEntries clock args => exact handleAppendEntries_logStep h he
  | handleAppendEntriesReply clock draw peerId reply sent =>
    exact handleAppendEntriesReply_logStep h clock draw peerId reply sent
  | handleInstallSnapshot clock args => exact handleInstallSnapshot_logStep h clock args
  | submitCommand clock command => exact (submitCommand_logStep h clock command he).1
  | applyCommitted clock => exact (applyCommitted_keepsEnd h clock).logStep
  | maybeSnapshot => exact (maybeSnapshot_keepsEnd h).logStep
  | attachStorage clock store =>
    obtain ⟨hlog, hsnap, hfits⟩ := he
    refine ⟨(attachStorage_logOk hlog hsnap clock hfits).1, fun _ => ?_⟩
    unfold logicalEnd
    rw [hlog, hsnap]
    exact Nat.zero_le _
  | restart clock fresh =>
    obtain ⟨hnew, hfits⟩ := he
    have hnot : fresh.state ≠ .leader := by rw [hnew.state]; exact RaftState.noConfusion
    simp only [step]
    cases hst : n.storage with
    | none => exact ⟨hnew.logOk, fun hl => absurd hl hnot⟩
    | some store =>
      obtain ⟨hok, hstate⟩ :=
        attachStorage_logOk hnew.log hnew.snapshotIndex clock (hfits store hst)
      exact ⟨hok, fun hl => absurd (hstate ▸ hl) hnot⟩

theorem run_logOk (hrun : Along LogSafe n events) : (n.run events).LogOk :=
  GuardedRun.induction_run (P := LogSafe) (fun _ _ hn he => (step_logStep hn he).ok) h hrun

omit h in
/-- **The log keeps its representation** along every run of a new node whose calls meet
`LogSafe`. -/
theorem representationInvariant_run {n : RaftNode σ} (hn : n.IsNew) {events : List (NodeEvent σ)}
    (h : Along LogSafe n events) : (n.run events).RepresentationInvariant :=
  (run_logOk hn.logOk h).representation

/-! ## The indices of a leadership -/

/-- The indices `submit_command` has returned since the node last was not the leader. -/
def submitted (n : RaftNode σ) : List (NodeEvent σ) → List Nat → List Nat
  | [], earlier => earlier
  | e :: rest, earlier =>
    let returned := match e with
      | .submitCommand clock command => (n.submitCommand clock command).1.toList
      | _ => []
    (n.step e).submitted rest (if (n.step e).isLeader then earlier ++ returned else [])

/-- No index of the current leadership lies beyond the logical end. -/
theorem submitted_le (hrun : Along LogSafe n events)
    {earlier : List Nat} (hearlier : ∀ j ∈ earlier, j ≤ n.logicalEnd) :
    ∀ j ∈ n.submitted events earlier, j ≤ (n.run events).logicalEnd := by
  induction events generalizing n earlier with
  | nil => exact hearlier
  | cons e rest ih =>
    have hstep := step_logStep h hrun.1
    refine ih hstep.ok hrun.2 ?_
    intro j hj
    split at hj
    · rename_i hleads
      have hgrows := hstep.grows (of_decide_eq_true hleads)
      rcases mem_append.mp hj with hold | hnew
      · exact Nat.le_trans (hearlier j hold) hgrows
      cases e with
      | submitCommand clock command =>
        obtain ⟨-, hend⟩ := (submitCommand_logStep h clock command hrun.1).2 j
          (Option.mem_toList.mp hnew)
        exact Nat.le_of_eq hend.symm
      | _ => cases hnew
    · cases hj

end

/-- The index `submit_command` returns after a run is new. -/
def IndexFresh (n : RaftNode σ) (events : List (NodeEvent σ)) (clock : Clock)
    (command : RaftCommand) : Prop :=
  ∀ i, ((n.run events).submitCommand clock command).1 = some i →
    i = max (n.run events).log.lastIndex (n.run events).lastSnapshotIndex + 1 ∧
      (n.run events).log.committed < i ∧ (n.run events).log.applied < i ∧
      ∀ j ∈ n.submitted events [], j < i

/-- **A leader reuses no index** along a run whose calls meet `LogSafe`. -/
theorem indexFresh_run {n : RaftNode σ} (hn : n.LogOk) {events : List (NodeEvent σ)}
    {clock : Clock} {command : RaftCommand}
    (h : Along LogSafe n (events ++ [.submitCommand clock command])) :
    n.IndexFresh events clock command := by
  obtain ⟨hevents, hsubmit, -⟩ := GuardedRun.along_append.mp h
  have hok := run_logOk hn hevents
  intro i hi
  obtain ⟨hindex, -⟩ := (submitCommand_logStep hok clock command hsubmit).2 i hi
  have hend := hok.end_eq
  have hcommitted := hok.committed_le
  have happlied := hok.applied_le
  refine ⟨hindex, by omega, by omega, ?_⟩
  intro j hj
  have := submitted_le hn hevents (fun j hj => by cases hj) j hj
  omega

end Steps

section Sample
attribute [local instance] noSnapshotCodec hmacSha256

/-- The five calls that write to the log. -/
def WritesLog {σ : Type} : NodeEvent σ → Prop
  | .submitCommand _ _ | .handleAppendEntries _ _ | .handleInstallSnapshot _ _
  | .maybeSnapshot | .attachStorage _ _ => True
  | _ => False

/-- A follower that takes a snapshot after every applied entry. -/
def eagerFollower : RaftNode InMemoryStorage :=
  { (new "n2" ["n1", "n3"] 1000 0 : RaftNode InMemoryStorage) with
    clusterSecret := some sampleSecret
    stateMachine := some {}
    snapshotInterval := 1 }

/-- The leader's first entry, already committed. -/
def firstBatch (timestampMs : Nat) : AppendEntriesArgs :=
  signedAppend 1 "n1" 0 0 [⟨1, 1, .noop⟩] 1 timestampMs

theorem eagerFollower_isNew : eagerFollower.IsNew := ⟨rfl, rfl, rfl, rfl, rfl, rfl, rfl, rfl, rfl⟩

/-- One delivery of the first batch leaves the representation in order. -/
theorem representationInvariant_first_batch :
    (eagerFollower.run [.handleAppendEntries (sampleClock 1000)
      (firstBatch 1000)]).RepresentationInvariant := by
  refine representationInvariant_run eagerFollower_isNew ⟨fun _ e he => ?_, trivial⟩
  cases he
  exact ⟨by decide, by decide⟩

/-- A retransmission of the first batch, after the snapshot that covers it: the compacted
entry is appended again, behind the boundary. -/
theorem compacted_entry_appended_again :
    ¬ ∀ (σ : Type) [RaftStorage σ] [SnapshotCodec] [HmacSha256] (n : RaftNode σ)
      (events : List (NodeEvent σ)), n.IsNew → (∀ e ∈ events, WritesLog e) →
      (n.run events).RepresentationInvariant := by
  intro h
  have hinv := h InMemoryStorage eagerFollower
    [.handleAppendEntries (sampleClock 1000) (firstBatch 1000),
      .handleAppendEntries (sampleClock 1001) (firstBatch 1001)] eagerFollower_isNew
    (by
      intro e he
      rcases mem_cons.mp he with rfl | he
      · trivial
      rw [mem_singleton.mp he]
      trivial)
  revert hinv
  unfold firstBatch
  rw [hmacSha256_eq]
  intro hinv
  have hfirst := hinv.first { term := 1, index := 1, command := .noop } (by decide +kernel)
  exact absurd hfirst (by decide +kernel)

/-- The calls of a leadership: winning it, submitting, committing, applying, compacting and
installing. -/
def LeaderCall {σ : Type} : NodeEvent σ → Prop
  | .tryBecomeCandidate _ | .becomeLeader | .submitCommand _ _
  | .handleAppendEntriesReply _ _ _ _ _ | .applyCommitted _ | .maybeSnapshot
  | .handleInstallSnapshot _ _ => True
  | _ => False

/-- A cluster of one that takes a snapshot after every applied entry. -/
def soleNode : RaftNode InMemoryStorage :=
  { (new "n1" [] 1000 0 : RaftNode InMemoryStorage) with
    stateMachine := some {}
    snapshotInterval := 1 }

theorem soleNode_isNew : soleNode.IsNew := ⟨rfl, rfl, rfl, rfl, rfl, rfl, rfl, rfl, rfl⟩

/-- It is elected and submits one command, which is committed and applied at once. -/
def firstSubmission : List (NodeEvent InMemoryStorage) :=
  [.tryBecomeCandidate 0, .becomeLeader, .submitCommand (sampleClock 1000) .noop]

/-- Without a snapshot in between the second command gets the next index. -/
theorem indexFresh_second_submission :
    ((soleNode.run firstSubmission).submitCommand (sampleClock 1001) .noop).1 = some 2 ∧
      soleNode.IndexFresh firstSubmission (sampleClock 1001) .noop := by
  refine ⟨by decide +kernel, indexFresh_run soleNode_isNew.logOk
    ⟨trivial, trivial, fun _ => ?_, fun _ => ?_, trivial⟩⟩
  · exact .inr rfl
  · exact .inr rfl

/-- After `maybe_snapshot` the second command gets the index of the first. -/
theorem index_reused_after_snapshot :
    ¬ ∀ (σ : Type) [RaftStorage σ] [SnapshotCodec] [HmacSha256] (n : RaftNode σ)
      (events : List (NodeEvent σ)) (clock : Clock) (command : RaftCommand), n.IsNew →
      (∀ e ∈ events, LeaderCall e) → n.IndexFresh events clock command := by
  intro h
  have hfresh := h InMemoryStorage soleNode (firstSubmission ++ [.maybeSnapshot])
    (sampleClock 1001) .noop soleNode_isNew
    (by
      intro e he
      simp only [firstSubmission, cons_append, nil_append, mem_cons,
        not_mem_nil, or_false] at he
      rcases he with rfl | rfl | rfl | rfl <;> trivial)
  obtain ⟨hindex, -⟩ := hfresh 1 (by decide +kernel)
  exact absurd hindex (by decide +kernel)

end Sample

end RaftNode

end CratonHsm
