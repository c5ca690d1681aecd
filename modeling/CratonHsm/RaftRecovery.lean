import CratonHsm.RaftElectionSafety
import CratonHsm.RaftLogInvariant

/-!
# Crash recovery

What a node would find again after a crash: term and vote (`HardSynced`), the snapshot
boundary, and the log entries above it (`LogSynced`).  Memory and store are written by
separate calls.  The append paths keep them in step.  The snapshot paths do not: memory is
compacted from the front, and the store is cut from the back by `truncate_log_after` at the
same index, so the entries above the snapshot survive in memory only.  Recovery is
complete as long as every snapshot covers the whole log.
-/

namespace CratonHsm
open StorageModel RaftLog List
namespace RaftNode

/-- The entries beyond an index. -/
def above (s : Nat) (l : List LogEntry) : List LogEntry := l.filter (fun e => s < e.index)

/-- The boundary a snapshot record stands for. -/
def boundary (snapshot : Option PersistedSnapshot) : Nat × Nat :=
  snapshot.elim (0, 0) fun s => (s.lastIndex, s.lastTerm)

theorem above_append (s : Nat) (l m : List LogEntry) : above s (l ++ m) = above s l ++ above s m :=
  filter_append l m

theorem above_above (s : Nat) (l : List LogEntry) : above s (above s l) = above s l := by
  unfold above
  rw [filter_filter]
  simp

/-- Cutting a suffix and reading above the boundary commute. -/
theorem above_filter_le (s after : Nat) (l : List LogEntry) :
    above s (l.filter (fun e => e.index ≤ after)) =
      (above s l).filter (fun e => e.index ≤ after) := by
  unfold above
  rw [filter_filter, filter_filter]
  congr 1
  funext e
  exact Bool.and_comm _ _

theorem above_eq_nil {s : Nat} {l : List LogEntry} (h : ∀ e ∈ l, e.index ≤ s) : above s l = [] := by
  refine filter_eq_nil_iff.mpr fun e he => ?_
  have := h e he
  simp only [decide_eq_true_eq]
  omega

section Recovery
variable {σ : Type} [ReliableStorage σ] {snapshot : Option PersistedSnapshot} {log : List LogEntry}
  {n : RaftNode σ} {args : InstallSnapshotArgs}

/-- The log and the snapshot in the store. -/
def storedLog (storage : Option σ) : Option (List LogEntry × Option PersistedSnapshot) :=
  (stored storage).map fun c => (c.log, c.snapshot)

theorem storedLog_persistHardState (n : RaftNode σ) :
    storedLog n.persistHardState.storage = storedLog n.storage := by
  unfold storedLog
  rw [stored_persistHardState, Option.map_map]
  rfl

theorem storedLog_syncCommitted (n : RaftNode σ) :
    storedLog n.syncCommittedStateBestEffort.storage = storedLog n.storage := by
  unfold storedLog
  rw [stored_syncCommitted]

theorem storedLog_persistAppended (storage : Option σ) (entries : List LogEntry) :
    storedLog (persistAppended storage entries) =
      (storedLog storage).map fun p => (p.1 ++ entries, p.2) := by
  unfold storedLog
  rw [stored_persistAppended, Option.map_map, Option.map_map]
  rfl

theorem storedLog_persistTruncate (storage : Option σ) (after : Nat) :
    storedLog (persistTruncate storage after) =
      (storedLog storage).map fun p => (p.1.filter (fun e => e.index ≤ after), p.2) := by
  unfold storedLog
  rw [stored_persistTruncate, Option.map_map, Option.map_map]
  rfl

theorem storedLog_persistSnapshot (storage : Option σ) (snap : PersistedSnapshot) :
    storedLog (persistSnapshot storage snap).2 =
      (storedLog storage).map fun p => (p.1, some snap) := by
  have h := stored_persistSnapshot (Prod.ext (persistSnapshot_saved storage snap) rfl :
    persistSnapshot storage snap = (true, (persistSnapshot storage snap).2))
  unfold storedLog
  rw [h, if_pos rfl, Option.map_map, Option.map_map]
  rfl

/-- **The store agrees with memory** on the snapshot boundary and on the entries above it;
the entries in memory are consecutive. -/
structure LogSynced (n : RaftNode σ) (b : Nat) (log : List LogEntry)
    (snapshot : Option PersistedSnapshot) : Prop where
  stored : storedLog n.storage = some (log, snapshot)
  boundary : boundary snapshot = n.lastSnapshot
  entries : above n.lastSnapshotIndex log = above n.lastSnapshotIndex n.log.entries
  positive : snapshot = none → ∀ e ∈ log, 0 < e.index
  numbered : Numbered b n.log.entries
  base : 0 < b

namespace LogSynced
variable {n m : RaftNode σ} {b : Nat} {log : List LogEntry} {snapshot : Option PersistedSnapshot}

section
variable (h : LogSynced n b log snapshot)
include h

theorem of_frame (hentries : m.log.entries = n.log.entries)
    (hsnap : m.lastSnapshot = n.lastSnapshot)
    (hstore : storedLog m.storage = storedLog n.storage) : LogSynced m b log snapshot := by
  have hindex : m.lastSnapshotIndex = n.lastSnapshotIndex := congrArg Prod.fst hsnap
  refine ⟨hstore.trans h.stored, h.boundary.trans hsnap.symm, ?_, h.positive, ?_, h.base⟩
  · rw [hindex, hentries]
    exact h.entries
  · rw [hentries]
    exact h.numbered

/-- Memory and store are cut behind the same index. -/
theorem cut {after : Nat} (hentries : m.log.entries = n.log.entries.take (after + 1 - b))
    (hsnap : m.lastSnapshot = n.lastSnapshot)
    (hstore : storedLog m.storage = storedLog (persistTruncate n.storage after)) :
    LogSynced m b (log.filter (fun e => e.index ≤ after)) snapshot := by
  have hindex : m.lastSnapshotIndex = n.lastSnapshotIndex := congrArg Prod.fst hsnap
  refine ⟨?_, h.boundary.trans hsnap.symm, ?_, ?_, ?_, h.base⟩
  · rw [hstore, storedLog_persistTruncate, h.stored]
    rfl
  · rw [hindex, hentries, ← h.numbered.filter_le, above_filter_le, above_filter_le, h.entries]
  · intro hnone e he
    exact h.positive hnone e (mem_filter.mp he).1
  · rw [hentries]
    exact h.numbered.take _

/-- Memory and store are continued with the same entries. -/
theorem continued (es : List LogEntry) (hes : Numbered (b + n.log.entries.length) es)
    (hentries : m.log.entries = n.log.entries ++ es) (hsnap : m.lastSnapshot = n.lastSnapshot)
    (hstore : storedLog m.storage = storedLog (persistAppended n.storage es)) :
    LogSynced m b (log ++ es) snapshot := by
  have hindex : m.lastSnapshotIndex = n.lastSnapshotIndex := congrArg Prod.fst hsnap
  have hbase := h.base
  refine ⟨?_, h.boundary.trans hsnap.symm, ?_, ?_, ?_, h.base⟩
  · rw [hstore, storedLog_persistAppended, h.stored]
    rfl
  · rw [hindex, hentries, above_append, above_append, h.entries]
  · refine fun hnone => forall_mem_append.mpr ⟨h.positive hnone, fun e he => ?_⟩
    have := hes.mem_index he
    omega
  · rw [hentries]
    exact Numbered.append_iff.mpr ⟨h.numbered, hes⟩

/-- An empty log may be numbered from anywhere. -/
theorem rebase (hnil : n.log.entries = []) {c : Nat} (hc : 0 < c) : LogSynced n c log snapshot :=
  ⟨h.stored, h.boundary, h.entries, h.positive, hnil ▸ .nil c, hc⟩

end

end LogSynced

/-- The log is in step with the store. -/
def LogInStep (n : RaftNode σ) : Prop := ∃ b log snapshot, LogSynced n b log snapshot

theorem LogInStep.of_frame {n m : RaftNode σ} (h : n.LogInStep)
    (hentries : m.log.entries = n.log.entries) (hsnap : m.lastSnapshot = n.lastSnapshot)
    (hstore : storedLog m.storage = storedLog n.storage) : m.LogInStep := by
  obtain ⟨b, log, snapshot, h⟩ := h
  exact ⟨b, log, snapshot, h.of_frame hentries hsnap hstore⟩

/-! ## The append paths -/

theorem checkPrevLog_inStep (h : n.LogInStep) (i t : Nat) : (n.checkPrevLog i t).2.LogInStep := by
  rcases n.checkPrevLog_node i t with hsame | ⟨-, e, log, -, -, -, htrunc, hcut⟩
  · rwa [hsame]
  obtain ⟨b, slog, snapshot, h⟩ := h
  have hlog := truncateAfter_entries h.numbered htrunc
  rw [hcut]
  exact ⟨b, _, snapshot, h.cut (by rw [hlog]) rfl rfl⟩

/-- The batch starts inside the retained log or right behind it; an empty log can be
continued anywhere. -/
def BatchConnects (n : RaftNode σ) (entries : List LogEntry) : Prop :=
  ∀ e, entries.head? = some e → 0 < e.index ∧
    ∀ f, n.log.entries.head? = some f → f.index ≤ e.index ∧ e.index ≤ n.log.lastIndex + 1

/-- A base for the numbering of the log from which the batch starts inside it. -/
theorem LogSynced.base_for {b : Nat} (h : LogSynced n b log snapshot) {e : LogEntry}
    {es : List LogEntry} (hc : n.BatchConnects (e :: es)) :
    ∃ c k, LogSynced n c log snapshot ∧ e.index = c + k ∧ k ≤ n.log.entries.length := by
  obtain ⟨hpos, hconn⟩ := hc e rfl
  by_cases hnil : n.log.entries = []
  · exact ⟨e.index, 0, h.rebase hnil hpos, rfl, Nat.zero_le _⟩
  obtain ⟨f, rest, hf⟩ := exists_cons_of_ne_nil hnil
  have hfirst : f.index = b := h.numbered 0 f (by rw [hf]; rfl)
  obtain ⟨hlo, hhi⟩ := hconn f (by rw [hf]; rfl)
  have hlast := lastIndex_of_numbered h.numbered hnil
  exact ⟨b, e.index - b, h, by omega, by omega⟩

theorem appendBatch_inStep (h : n.LogInStep) {entries : List LogEntry}
    (hc : consecutive entries = true → n.BatchConnects entries) :
    (n.appendBatch entries).2.LogInStep := by
  unfold appendBatch
  by_cases hcons : consecutive entries = true
  swap
  · rw [if_neg hcons]
    exact h
  rw [if_pos hcons]
  rcases entries with _ | ⟨e, es⟩
  · exact h
  obtain ⟨b, log, snapshot, h⟩ := h
  obtain ⟨c, k, hsync, hindex, hle⟩ := h.base_for (hc hcons)
  have hnum := numbered_of_consecutive hcons
  rw [hindex] at hnum
  obtain ⟨j, -, hout⟩ := AppendProgress.appendLoop_spec
    (p := { log := n.log, storage := n.storage }) hsync.base hsync.numbered hnum hle
  generalize AppendProgress.appendLoop { log := n.log, storage := n.storage } (e :: es) = r
    at hout ⊢
  have hdrop : Numbered (c + (k + j)) ((e :: es).drop j) := Nat.add_assoc c k j ▸ hnum.drop j
  have hsome : j < (e :: es).length → [] ++ (e :: es).drop j ≠ [] := by
    intro hj hnil
    rw [nil_append, drop_eq_nil_iff] at hnil
    omega
  cases hout with
  | covered | refused => exact ⟨c, log, snapshot, hsync.of_frame rfl rfl rfl⟩
  | extended hj hend =>
    refine ⟨c, _, snapshot, hsync.continued ((e :: es).drop j) ?_ ?_ rfl ?_⟩
    · rw [← hend]
      exact hdrop
    · change List.take _ _ ++ _ = _
      rw [hend, take_length]
    · exact congrArg storedLog (if_neg (hsome hj))
  | replaced hj hlt hconflict hcommitted happlied =>
    have hcut : LogSynced { n with
        log := { n.log with entries := n.log.entries.take (k + j) }
        storage := persistTruncate n.storage (c + k + j - 1) } c
        (log.filter fun x => x.index ≤ c + k + j - 1) snapshot := by
      refine hsync.cut ?_ rfl rfl
      rw [show c + k + j - 1 + 1 - c = k + j from by omega]
    refine ⟨c, _, snapshot, hcut.continued ((e :: es).drop j) ?_ rfl rfl ?_⟩
    · rw [length_take, Nat.min_eq_left (Nat.le_of_lt hlt)]
      exact hdrop
    · exact congrArg storedLog (if_neg (hsome hj))

/-! ## Calls -/

variable {n : RaftNode σ}

section Kept
variable (h : n.LogInStep)
include h

/-- A call that writes the hard state only. -/
theorem becomeFollower_inStep (term : Nat) : (n.becomeFollower term).LogInStep :=
  h.of_frame rfl rfl (storedLog_persistHardState _)

theorem adoptTerm_inStep (term : Nat) : (n.adoptTerm term).LogInStep := by
  unfold adoptTerm
  split
  · exact becomeFollower_inStep h term
  · exact h

theorem concede_inStep (term : Nat) : (n.concede term).LogInStep := by
  unfold concede
  split
  · exact becomeFollower_inStep h term
  · split
    · exact becomeFollower_inStep h term
    · exact h

theorem castVote_inStep (args : RequestVoteArgs) : (n.castVote args).2.LogInStep := by
  unfold castVote
  split
  · exact h.of_frame rfl rfl (storedLog_persistHardState _)
  · exact h

theorem followCommit_inStep (args : AppendEntriesArgs) : (n.followCommit args).LogInStep := by
  rcases n.followCommit_node args with hsame | ⟨-, hcommit⟩
  · rwa [hsame]
  · rw [hcommit]
    exact h.of_frame (commit_entries _ _) rfl (storedLog_syncCommitted _)

theorem applyCommitted_inStep (clock : Clock) : (n.applyCommitted clock).LogInStep := by
  obtain ⟨a, sm, halted, -, -, happ | ⟨-, voters, happ⟩⟩ := n.applyCommitted_spec clock
  · rw [happ]
    exact h.of_frame rfl rfl rfl
  · rw [happ]
    exact h.of_frame rfl rfl rfl

theorem advanceCommitIndex_inStep : n.advanceCommitIndex.LogInStep := by
  rcases n.advanceCommitIndex_node with hsame | ⟨i, -, hcommit⟩
  · rwa [hsame]
  · rw [hcommit]
    exact h.of_frame (commit_entries _ _) rfl rfl

theorem advanceAndSync_inStep : n.advanceAndSync.LogInStep := by
  rcases n.advanceAndSync_node with hsame | hsync
  · rw [hsame]
    exact advanceCommitIndex_inStep h
  · rw [hsync]
    exact (advanceCommitIndex_inStep h).of_frame rfl rfl (storedLog_syncCommitted _)

theorem submitCommand_inStep (clock : Clock) (command : RaftCommand) :
    (n.submitCommand clock command).2.LogInStep := by
  rcases n.submitCommand_cases clock command with ⟨-, hr⟩ | ⟨-, m, hm, -, hcases⟩
  · rwa [hr]
  have happend : m.LogInStep := by
    obtain ⟨b, log, snapshot, h⟩ := h
    rw [hm]
    by_cases hnil : n.log.entries = []
    · -- an empty log is numbered from 1 again
      refine ⟨1, _, snapshot, (h.rebase hnil Nat.one_pos).continued [n.newEntry command] ?_ rfl
        rfl rfl⟩
      refine Numbered.singleton_iff.mpr ?_
      simp [newEntry, lastIndex, hnil]
    · refine ⟨b, _, snapshot, h.continued [n.newEntry command] ?_ rfl rfl rfl⟩
      have hlast := lastIndex_of_numbered h.numbered hnil
      exact Numbered.singleton_iff.mpr hlast
  rcases hcases with ⟨-, hr⟩ | ⟨-, hr⟩
  · rw [hr]
    exact applyCommitted_inStep (advanceCommitIndex_inStep happend) clock
  · rwa [hr]

end Kept

/-! ## The snapshot paths -/

/-- **A snapshot that covers the whole log**: afterwards both logs are empty above it. -/
theorem LogSynced.covered {n m : RaftNode σ} {b : Nat} (h : LogSynced n b log snapshot)
    (snap : PersistedSnapshot) (hcover : n.log.lastIndex ≤ snap.lastIndex)
    (hentries : m.log.entries = above snap.lastIndex n.log.entries)
    (hsnap : m.lastSnapshot = (snap.lastIndex, snap.lastTerm))
    (hstore : storedLog m.storage = (storedLog n.storage).map fun p =>
      (p.1.filter (fun e => e.index ≤ snap.lastIndex), some snap)) : m.LogInStep := by
  have hnil : m.log.entries = [] := by
    rw [hentries]
    refine above_eq_nil fun e he => ?_
    have hne : n.log.entries ≠ [] := ne_nil_of_mem he
    have hlast := lastIndex_of_numbered h.numbered hne
    have := h.numbered.mem_index he
    omega
  have hindex : m.lastSnapshotIndex = snap.lastIndex := congrArg Prod.fst hsnap
  refine ⟨1, log.filter fun e => e.index ≤ snap.lastIndex, some snap,
    ⟨?_, hsnap.symm, ?_, ?_, hnil ▸ .nil 1, Nat.one_pos⟩⟩
  · rw [hstore, h.stored]
    rfl
  · rw [hnil, hindex, above_eq_nil fun e he => of_decide_eq_true (mem_filter.mp he).2]
    rfl
  · intro hnone
    cases hnone

variable [SnapshotCodec]

theorem maybeSnapshot_inStep (h : n.LogInStep)
    (hcover : n.TakesSnapshot → n.log.lastIndex ≤ n.log.applied) : n.maybeSnapshot.LogInStep := by
  rcases n.maybeSnapshot_cases with ⟨snap, storage, hdue, hp, hm⟩ | ⟨-, storage, hm, hs⟩
  · obtain ⟨-, -, hindex, -⟩ := snapshotDue_spec hdue
    obtain ⟨b, log, snapshot, h⟩ := h
    have hle := hcover ⟨snap, hdue, congrArg Prod.fst hp⟩
    have hstorage : storage = (persistSnapshot n.storage snap).2 := by rw [hp]
    rw [hm]
    refine h.covered snap (by rw [hindex]; exact hle) rfl rfl ?_
    rw [storedLog_persistTruncate, hstorage, storedLog_persistSnapshot, Option.map_map]
    rfl
  · rw [hm]
    rcases hs with hs | ⟨snap, hp⟩
    · exact h.of_frame rfl rfl (congrArg storedLog hs)
    · have := persistSnapshot_saved n.storage snap
      rw [hp] at this
      cases this

theorem persistAndAdopt_inStep (h : n.LogInStep) (clock : Clock)
    {data : PrefixFreeCode.Bytes} (hparse : (SnapshotCodec.fromSlice data).isSome)
    (hcover : n.log.lastIndex ≤ args.lastIncludedIndex) :
    (n.persistAndAdopt clock args data).2.LogInStep := by
  obtain ⟨snap, hsnap⟩ := Option.isSome_iff_exists.mp hparse
  obtain ⟨b, log, snapshot, h⟩ := h
  unfold persistAndAdopt
  dsimp only
  rw [if_pos (persistSnapshot_saved _ _), hsnap]
  refine h.covered (snapshotRecord args data) hcover rfl rfl ?_
  change storedLog (persistTruncate _ _) = _
  rw [storedLog_persistTruncate]
  change Option.map _ (storedLog (persistSnapshot n.storage (snapshotRecord args data)).2) = _
  rw [storedLog_persistSnapshot, Option.map_map]
  rfl

/-! ## Recovery -/

/-- What a new node recovers from a store with these contents. -/
theorem attachStorage_recovers {fresh : RaftNode σ} (hnew : fresh.IsNew) (clock : Clock)
    (store : σ) (hstore : storedLog (some store) = some (log, snapshot)) :
    ∃ r, fresh.attachStorage clock store = (.ok (), r) ∧ r.storage = some store ∧
      r.currentTerm = (contents store).hard.currentTerm ∧
      r.votedFor = (contents store).hard.votedFor ∧
      r.lastSnapshot = boundary snapshot ∧
      r.log.entries = if snapshot.isSome then above (boundary snapshot).1 log else log := by
  obtain ⟨hlog, hsnap⟩ : (contents store).log = log ∧
      (contents store).snapshot = snapshot :=
    Prod.mk.inj (Option.some.inj hstore)
  have hok : fresh.attachStorage clock store = (.ok (), (fresh.attachStorage clock store).2) :=
    Prod.ext (attachStorage_reliable fresh clock store) rfl
  refine ⟨_, hok, ?_⟩
  rw [attachStorage_ok hok]
  refine ⟨rfl, rfl, rfl, ?_⟩
  unfold recover
  rw [hlog, hsnap, hnew.log]
  rcases snapshot with _ | snap
  · exact ⟨Prod.ext hnew.snapshotIndex hnew.snapshotTerm, rfl⟩
  unfold restoreSnapshot
  dsimp only
  split <;> exact ⟨rfl, rfl⟩

/-- **Nothing acknowledged is lost**: a new node that attaches the store of `n` recovers
its term, vote, snapshot boundary and the log above it. -/
def Recovers (n : RaftNode σ) : Prop :=
  ∃ store, n.storage = some store ∧ ∀ (fresh : RaftNode σ) (clock : Clock), fresh.IsNew →
    ∃ r, fresh.attachStorage clock store = (.ok (), r) ∧ r.currentTerm = n.currentTerm ∧
      r.votedFor = n.votedFor ∧ r.lastSnapshot = n.lastSnapshot ∧
      above n.lastSnapshotIndex r.log.entries = above n.lastSnapshotIndex n.log.entries

theorem recovers_of_inStep (hs : HardSynced n) (h : n.LogInStep) : n.Recovers := by
  obtain ⟨c, hc, hard⟩ := hs
  obtain ⟨b, log, snapshot, h⟩ := h
  obtain ⟨store, hstore, rfl⟩ := Option.map_eq_some_iff.mp hc
  refine ⟨store, hstore, fun fresh clock hnew => ?_⟩
  obtain ⟨r, hr, -, hterm, hvote, hsnap, hentries⟩ :=
    attachStorage_recovers hnew clock store (hstore ▸ h.stored)
  refine ⟨r, hr, by rw [hterm, hard], by rw [hvote, hard], hsnap.trans h.boundary, ?_⟩
  have hindex : (boundary snapshot).1 = n.lastSnapshotIndex := congrArg Prod.fst h.boundary
  rw [hentries, ← h.entries, hindex]
  split
  · exact above_above _ _
  · rfl

/-- A restart finds memory and store in step. -/
theorem LogInStep.restart {fresh : RaftNode σ} (h : n.LogInStep) {store : σ}
    (hstore : n.storage = some store) (hnew : fresh.IsNew) (clock : Clock) :
    (fresh.attachStorage clock store).2.LogInStep := by
  obtain ⟨b, log, snapshot, h⟩ := h
  have hst : storedLog (some store) = some (log, snapshot) := hstore ▸ h.stored
  obtain ⟨r, hr, hrst, -, -, hsnap, hentries⟩ := attachStorage_recovers hnew clock store hst
  have hindex : (boundary snapshot).1 = n.lastSnapshotIndex := congrArg Prod.fst h.boundary
  have hrindex : r.lastSnapshotIndex = n.lastSnapshotIndex := (congrArg Prod.fst hsnap).trans hindex
  -- without a snapshot the boundary is 0, and every stored entry lies above it
  have habove : r.log.entries = above n.lastSnapshotIndex n.log.entries := by
    rw [hentries, ← h.entries, ← hindex]
    cases snapshot with
    | some snap => rfl
    | none =>
      refine (filter_eq_self.mpr fun e he => ?_).symm
      exact decide_eq_true (h.positive rfl e he)
  rw [hr]
  refine ⟨b + (n.lastSnapshotIndex + 1 - b), log, snapshot,
    ⟨hrst ▸ hst, hsnap.symm, ?_, h.positive, ?_, ?_⟩⟩
  · rw [hrindex, habove, above_above, h.entries]
  · rw [habove]
    unfold above
    rw [h.numbered.filter_gt]
    exact h.numbered.drop _
  · have := h.base
    omega

/-- A new node that has attached a store whose log is in order. -/
def BootedFrom (n : RaftNode σ) : Prop :=
  ∃ (fresh : RaftNode σ) (clock : Clock) (store : σ),
    fresh.IsNew ∧ StoreFits store ∧ n = (fresh.attachStorage clock store).2

theorem BootedFrom.inStep (h : n.BootedFrom) : n.LogInStep := by
  obtain ⟨fresh, clock, store, hnew, hfits, rfl⟩ := h
  have hloaded := hfits _ (ReliableStorage.loadLog_ok store)
  rw [ReliableStorage.loadSnapshot_ok store] at hloaded
  have hst : storedLog (some store) =
    some ((contents store).log, (contents store).snapshot) := rfl
  obtain ⟨r, hr, hrst, -, -, hsnap, hentries⟩ := attachStorage_recovers hnew clock store hst
  have hindex : r.lastSnapshotIndex = _ := congrArg Prod.fst hsnap
  rw [hr]
  cases hs : (contents store).snapshot with
  | none =>
    rw [hs] at hloaded hsnap hentries hindex hst
    refine ⟨1, _, none, ⟨hrst ▸ hst, hsnap.symm, ?_, ?_, ?_, Nat.one_pos⟩⟩
    · rw [hentries]
      rfl
    · intro _ e he
      have := hloaded.mem_index he
      omega
    · rw [hentries]
      exact hloaded
  | some snap =>
    rw [hs] at hloaded hsnap hentries hindex hst
    refine ⟨snap.lastIndex + 1, _, some snap, ⟨hrst ▸ hst, hsnap.symm, ?_, ?_, ?_, Nat.succ_pos _⟩⟩
    · rw [hindex, hentries]
      exact (above_above _ _).symm
    · intro hnone
      cases hnone
    · rw [hentries]
      exact hloaded

theorem BootedFrom.booted (h : n.BootedFrom) : n.Booted := by
  obtain ⟨fresh, clock, store, hnew, -, hn⟩ := h
  exact ⟨fresh, clock, store, hnew, hn⟩

/-! ## One call -/

variable [HmacSha256]

/-- The node on which a call makes its closing call of `maybe_snapshot`, if it gets that
far. -/
def snapshotPoint (n : RaftNode σ) : NodeEvent σ → Option (RaftNode σ)
  | .maybeSnapshot => some n
  | .handleAppendEntries clock args =>
    if (n.handleAppendEntries clock args).1.success then
      some ((n.afterBatch clock args).applyCommitted clock)
    else none
  | .handleAppendEntriesReply clock _ peerId reply sent =>
    let (verified, m) := n.verifyAppendEntriesReply clock reply
    if verified ∧ reply.term ≤ n.currentTerm ∧ reply.success then
      some ((m.recordSuccess peerId sent).advanceAndSync.applyCommitted clock)
    else none
  | _ => none

/-- What a call must meet for the store to stay in step: a batch connects to the log, an
installed payload parses, and a snapshot, taken or installed, covers the whole log. -/
def RecoverySafe (n : RaftNode σ) (e : NodeEvent σ) : Prop :=
  n.OwnStore e ∧
    (∀ m, n.snapshotPoint e = some m → m.TakesSnapshot → m.log.lastIndex ≤ m.log.applied) ∧
    match e with
    | .handleAppendEntries clock args => n.ReachesLoop clock args → n.BatchConnects args.entries
    | .handleInstallSnapshot clock args => ∀ data, n.snapshotPayload clock args = some data →
        (SnapshotCodec.fromSlice data).isSome ∧ n.log.lastIndex ≤ args.lastIncludedIndex
    | _ => True

variable {clock : Clock}

theorem handleAppendEntries_inStep (h : n.LogInStep) {args : AppendEntriesArgs}
    (he : n.RecoverySafe (.handleAppendEntries clock args)) :
    (n.handleAppendEntries clock args).2.LogInStep := by
  obtain ⟨-, hcover, hconn⟩ := he
  obtain ⟨cache, m, hm, hver, ⟨-, hr⟩ | ⟨hv, hterm, hr⟩⟩ := n.handleAppendEntries_cases clock args
  · rw [hr, hm]
    exact h.of_frame rfl rfl rfl
  have hmstep : m.LogInStep := by
    rw [hm]
    exact h.of_frame rfl rfl rfl
  obtain ⟨k, hk, hcases⟩ := m.acceptEntries_cases clock args
  obtain ⟨hklog, hkcheck⟩ := accepting_log hm hk args.prevLogIndex args.prevLogTerm
  have hkstep : k.LogInStep := by
    rw [hk]
    exact (concede_inStep hmstep args.term).of_frame rfl rfl rfl
  have hbatch : (k.checkPrevLog args.prevLogIndex args.prevLogTerm).1 = true →
      (k.appendBatch args.entries).2.LogInStep := by
    intro hcheck
    refine appendBatch_inStep hkstep fun hcons e hhead => ?_
    rw [hklog]
    exact hconn ⟨hv, hterm, hkcheck ▸ hcheck, hcons⟩ e hhead
  rw [hr]
  rcases hcases with ⟨-, ha⟩ | ⟨hcheck, ⟨-, ha⟩ | ⟨-, ha⟩⟩
  · rw [ha]
    exact checkPrevLog_inStep hkstep _ _
  · rw [ha]
    exact hbatch hcheck
  · have hpoint : n.snapshotPoint (.handleAppendEntries clock args) =
        some (((k.appendBatch args.entries).2.followCommit args).applyCommitted clock) := by
      unfold snapshotPoint afterBatch
      dsimp only
      rw [hr, ha, ← hver, ← hk]
      rfl
    rw [ha]
    exact maybeSnapshot_inStep
      (applyCommitted_inStep (followCommit_inStep (hbatch hcheck) args) clock) (hcover _ hpoint)

theorem handleAppendEntriesReply_inStep (h : n.LogInStep) {draw : Nat} {peerId : String}
    {reply : AppendEntriesReply} {sent : Nat}
    (he : n.RecoverySafe (.handleAppendEntriesReply clock draw peerId reply sent)) :
    (n.handleAppendEntriesReply clock draw peerId reply sent).LogInStep := by
  obtain ⟨-, hcover, -⟩ := he
  obtain ⟨accepts, m, hm, hver, hcases⟩ :=
    n.handleAppendEntriesReply_cases clock draw peerId reply sent
  have hmstep : m.LogInStep := by
    rw [hm]
    exact h.of_frame rfl rfl rfl
  rcases hcases with ⟨-, hr⟩ | ⟨-, -, hr⟩ | ⟨hv, hterm, hs, hr⟩ | ⟨-, -, -, hr⟩
  · rw [hr]
    exact hmstep.of_frame rfl rfl rfl
  · rw [hr]
    exact becomeFollower_inStep hmstep reply.term
  · have hpoint : n.snapshotPoint (.handleAppendEntriesReply clock draw peerId reply sent) =
        some ((m.recordSuccess peerId sent).advanceAndSync.applyCommitted clock) := by
      unfold snapshotPoint
      dsimp only
      rw [if_pos ⟨hv, hterm, hs⟩, ← hver]
    have hrec : (m.recordSuccess peerId sent).LogInStep := by
      obtain ⟨next, matched, hrec⟩ := m.recordSuccess_node peerId sent
      rw [hrec]
      exact hmstep.of_frame rfl rfl rfl
    rw [hr]
    exact maybeSnapshot_inStep (applyCommitted_inStep (advanceAndSync_inStep hrec) clock)
      (hcover _ hpoint)
  · obtain ⟨next, hback⟩ := m.backOff_node draw peerId
    rw [hr, hback]
    exact hmstep.of_frame rfl rfl rfl

theorem handleInstallSnapshot_inStep (h : n.LogInStep)
    (he : n.RecoverySafe (.handleInstallSnapshot clock args)) :
    (n.handleInstallSnapshot clock args).2.LogInStep := by
  obtain ⟨-, -, hinstall⟩ := he
  have hreceipt : ∀ {a b : RaftNode σ}, ReceiptOnly a b → a.LogInStep → b.LogInStep := by
    rintro a b ⟨c, buffers, r, rfl⟩ ha
    exact ha.of_frame rfl rfl rfl
  have hadopt := adoptTerm_inStep h args.term
  change (n.installSnapshot clock args).2.LogInStep
  rcases n.installSnapshot_cases clock args with ⟨-, -, hr | hr⟩ | ⟨data, m, hpay, -, -, hr, heq⟩
  · exact hreceipt hr h
  · exact hreceipt hr hadopt
  · obtain ⟨hparse, hcover⟩ := hinstall data hpay
    have hlog : m.log = n.log := hr.log.1.trans (n.adoptTerm_log args.term).1
    rw [heq]
    exact persistAndAdopt_inStep (hreceipt hr hadopt) clock hparse (by rw [hlog]; exact hcover)

/-! ## Runs -/

theorem step_inStep (hs : HardSynced n) (h : n.LogInStep) {e : NodeEvent σ}
    (he : n.RecoverySafe e) :
    (n.step e).LogInStep := by
  cases e with
  | tryBecomeCandidate draw =>
    simp only [step]
    cases ht : n.tryBecomeCandidate draw with
    | none => exact h
    | some m =>
      obtain ⟨next, -, rfl⟩ := Option.map_eq_some_iff.mp ht
      exact h.of_frame rfl rfl (storedLog_persistHardState _)
  | becomeLeader => exact h.of_frame rfl rfl rfl
  | handleRequestVote clock args =>
    obtain ⟨cache, m, hm, ⟨-, hr⟩ | ⟨-, hr⟩⟩ := n.handleRequestVote_cases clock args
    all_goals
      have hmstep : m.LogInStep := by
        rw [hm]
        exact h.of_frame rfl rfl rfl
      simp only [step]
      rw [hr]
    · exact hmstep
    · exact castVote_inStep (adoptTerm_inStep hmstep args.term) args
  | handleAppendEntries clock args => exact handleAppendEntries_inStep h he
  | handleAppendEntriesReply clock draw peerId reply sent =>
    exact handleAppendEntriesReply_inStep h he
  | handleInstallSnapshot clock args => exact handleInstallSnapshot_inStep h he
  | submitCommand clock command => exact submitCommand_inStep h clock command
  | applyCommitted clock => exact applyCommitted_inStep h clock
  | maybeSnapshot => exact maybeSnapshot_inStep h (he.2.1 n rfl)
  | attachStorage clock store => exact he.1.elim
  | restart clock fresh =>
    obtain ⟨c, hc, -⟩ := hs
    obtain ⟨store, hstore, -⟩ := Option.map_eq_some_iff.mp hc
    simp only [step]
    rw [hstore]
    exact h.restart hstore he.1.1 clock

/-- **Recovery is complete** at the end of every run whose calls meet `RecoverySafe`, and so
at every point of it. -/
theorem recovers_run {n : RaftNode σ} (hn : n.BootedFrom) {events : List (NodeEvent σ)}
    (h : Along RecoverySafe n events) : (n.run events).Recovers := by
  have hrun : HardSynced (n.run events) ∧ (n.run events).LogInStep :=
    GuardedRun.induction_run (P := RecoverySafe) (I := fun n => HardSynced n ∧ n.LogInStep)
      (fun _ _ hn he => ⟨(step_voteStep hn.1 he.1).1.synced, step_inStep hn.1 hn.2 he⟩)
      ⟨hn.booted.synced, hn.inStep⟩ h
  exact recovers_of_inStep hrun.1 hrun.2

end Recovery

section Sample
attribute [local instance] noSnapshotCodec hmacSha256

/-- The calls between which a crash is considered. -/
def DurableCall {σ : Type} : NodeEvent σ → Prop
  | .submitCommand _ _ | .handleAppendEntries _ _ | .handleAppendEntriesReply _ _ _ _ _
  | .handleInstallSnapshot _ _ | .applyCommitted _ | .maybeSnapshot => True
  | _ => False

/-- The follower that takes a snapshot after every applied entry, over an empty store. -/
def durableFollower : RaftNode InMemoryStorage := (eagerFollower.attachStorage (sampleClock 0) {}).2

theorem durableFollower_bootedFrom : durableFollower.BootedFrom := by
  refine ⟨eagerFollower, sampleClock 0, {}, eagerFollower_isNew, ?_, rfl⟩
  intro entries h
  cases h
  exact .nil 1

/-- The first batch is committed whole, so its snapshot covers the log. -/
theorem recovers_first_batch :
    (durableFollower.run [.handleAppendEntries (sampleClock 1000) (firstBatch 1000)]).Recovers := by
  refine recovers_run durableFollower_bootedFrom ⟨⟨trivial, ?_, ?_⟩, trivial⟩
  · intro m hm _
    have hall : ((durableFollower.snapshotPoint (.handleAppendEntries (sampleClock 1000)
        (firstBatch 1000))).all fun m => m.log.lastIndex ≤ m.log.applied) = true := by
      unfold firstBatch
      rw [hmacSha256_eq]
      decide +kernel
    rw [hm] at hall
    exact of_decide_eq_true hall
  · intro _ e he
    cases he
    exact ⟨Nat.one_pos, fun f hf => by cases hf⟩

/-- Two entries of which the leader has committed the first. -/
def halfCommitted : AppendEntriesArgs :=
  signedAppend 1 "n1" 0 0 [⟨1, 1, .noop⟩, ⟨1, 2, .noop⟩] 1 1000

/-- The snapshot at index 1 cuts the acknowledged entry 2 from the store. -/
theorem acknowledged_entry_lost :
    ¬ ∀ [SnapshotCodec] [HmacSha256] (n : RaftNode InMemoryStorage)
      (events : List (NodeEvent InMemoryStorage)), n.BootedFrom → (∀ e ∈ events, DurableCall e) →
      (n.run events).Recovers := by
  intro h
  obtain ⟨store, hstore, hrec⟩ := h durableFollower
    [.handleAppendEntries (sampleClock 1000) halfCommitted] durableFollower_bootedFrom
    (fun e he => by rw [mem_singleton.mp he]; trivial)
  obtain ⟨r, hr, -, -, -, hentries⟩ := hrec eagerFollower (sampleClock 2000) eagerFollower_isNew
  have hr' : r = (eagerFollower.attachStorage (sampleClock 2000)
      ((durableFollower.run [.handleAppendEntries (sampleClock 1000)
        halfCommitted]).storage.getD {})).2 := by
    rw [hstore, Option.getD_some, hr]
  rw [hr'] at hentries
  revert hentries
  unfold halfCommitted
  rw [hmacSha256_eq]
  decide +kernel

end Sample

end RaftNode

end CratonHsm
