import CratonHsm.RaftCore

/-!
# The leader's bookkeeping

What the calls do to the peers of a node and to its `next_index` and `match_index`
(`Roster`), what a leader sends, and when it commits.  As in `RaftCore`, snapshots are off;
the log holds no membership change, so the peers stay what they are.
-/

namespace CratonHsm
open Std TermHistory RaftLog List Option

/-- The peers of a node and what it knows of their logs. -/
structure Roster where
  peers : List String
  nextIndex : ExtTreeMap String Nat
  matchIndex : ExtTreeMap String Nat

/-- No entry changes the membership. -/
def ConfigFree (l : List LogEntry) : Prop := ∀ e ∈ l, e.command.isConfigChange = false

theorem ConfigFree.initial {l m : List LogEntry} (h : ConfigFree m) (hl : l <+: m) :
    ConfigFree l := fun e he => h e (hl.subset he)

namespace RaftNode
variable {σ : Type} {args : AppendEntriesArgs} {ni : Nat} {p : String}

/-- What a leader keeps of its peers. -/
def roster (n : RaftNode σ) : Roster where
  peers := n.peers
  nextIndex := n.nextIndex
  matchIndex := n.matchIndex

theorem roster_applyCommitted {n : RaftNode σ} (h : ConfigFree n.log.entries) (clock : Clock) :
    (n.applyCommitted clock).roster = n.roster := by
  obtain ⟨a, sm, halted, -, -, hr | ⟨⟨e, he, hconfig⟩, -⟩⟩ := n.applyCommitted_spec clock
  · rw [hr]
    rfl
  · rw [h e he] at hconfig
    cases hconfig

/-- The maps once the log has been applied: a membership change drops peers, and a leader
seeds the new ones. -/
structure Resynced (n : RaftNode σ) (r : Roster) : Prop where
  next : ∀ (p : String) (x : Nat), r.nextIndex[p]? = some x →
    n.nextIndex[p]? = some x ∨ x = n.log.lastIndex + 1
  matched : ∀ (p : String) (x : Nat), r.matchIndex[p]? = some x →
    n.matchIndex[p]? = some x ∨ x = 0

theorem Resynced.refl (n : RaftNode σ) : n.Resynced n.roster :=
  ⟨fun _ _ h => .inl h, fun _ _ h => .inl h⟩

theorem Resynced.congr {n m : RaftNode σ} {r : Roster} (h : m.Resynced r)
    (hroster : m.roster = n.roster) (hentries : m.log.entries = n.log.entries) :
    n.Resynced r := by
  have hnext : m.nextIndex = n.nextIndex := congrArg Roster.nextIndex hroster
  have hmatch : m.matchIndex = n.matchIndex := congrArg Roster.matchIndex hroster
  refine ⟨fun p x hx => ?_, fun p x hx => ?_⟩
  · rw [← hnext, ← lastIndex_congr hentries]
    exact h.next p x hx
  · rw [← hmatch]
    exact h.matched p x hx

/-- Seeding leaves the entries that exist. -/
theorem foldl_insertIfNew_getElem? {peers : List String} {v x : Nat} :
    ∀ {m : ExtTreeMap String Nat},
      (peers.foldl (fun m p => m.insertIfNew p v) m)[p]? = some x → m[p]? = some x ∨ x = v := by
  induction peers with
  | nil => exact fun h => .inl h
  | cons q peers ih =>
    intro m h
    rcases ih h with hm | hv
    · rw [ExtTreeMap.getElem?_insertIfNew] at hm
      split at hm
      · exact .inr (some.inj hm).symm
      · exact .inl hm
    · exact .inr hv

theorem syncPeersFromVoters_resynced (n : RaftNode σ) (clock : Clock) (voters : List String) :
    n.Resynced (n.syncPeersFromVoters clock voters).roster := by
  have hmap : ∀ (m : ExtTreeMap String Nat) (keep : String → Nat → Bool) (peers : List String)
      (v : Nat) (p : String) (x : Nat), (if n.state = .leader then
        peers.foldl (fun m p => m.insertIfNew p v) (m.filter keep)
        else m.filter keep)[p]? = some x →
      m[p]? = some x ∨ x = v := by
    intro m keep peers v p x hx
    have hkept : (m.filter keep)[p]? = some x ∨ x = v := by
      split at hx
      · exact foldl_insertIfNew_getElem? hx
      · exact .inl hx
    rcases hkept with hkept | hv
    · rw [ExtTreeMap.getElem?_filter', filter_eq_some_iff] at hkept
      exact .inl hkept.1
    · exact .inr hv
  exact ⟨fun p x hx => hmap _ _ _ _ p x hx, fun p x hx => hmap _ _ _ _ p x hx⟩

theorem applyCommitted_resynced (n : RaftNode σ) (clock : Clock) :
    n.Resynced (n.applyCommitted clock).roster := by
  obtain ⟨a, sm, halted, -, -, hr | ⟨-, voters, hr⟩⟩ := n.applyCommitted_spec clock
  · rw [hr]
    exact .refl n
  · rw [hr]
    exact (syncPeersFromVoters_resynced _ clock voters).congr rfl rfl

variable {n : RaftNode σ}

/-- The index `advance_commit_index` considers: the upper median of what the peers and the
node itself hold. -/
def newCommit (n : RaftNode σ) : Nat :=
  let sorted := (n.peers.map (fun p => n.matchIndex[p]?.getD 0) ++
    [n.log.lastIndex]).insertionSort (· ≤ ·)
  sorted.getD (sorted.length / 2) 0

/-- The committed index stays, or moves up to the median at an entry of the current
term. -/
def Advances (n : RaftNode σ) (c : Nat) : Prop :=
  c = n.log.committed ∨ n.log.committed < c ∧ c ≤ n.log.entries.length ∧ c = n.newCommit ∧
    ∃ e, n.log.entries[c - 1]? = some e ∧ e.term = n.currentTerm

theorem advanceCommitIndex_eq (n : RaftNode σ) : n.advanceCommitIndex =
    if n.log.committed < n.newCommit then
      match n.log.get n.newCommit with
      | some entry =>
        if entry.term = n.currentTerm then { n with log := n.log.commit n.newCommit } else n
      | none =>
        if n.newCommit ≤ n.lastSnapshotIndex ∧ n.lastSnapshotTerm = n.currentTerm then
          { n with log := n.log.commit n.newCommit }
        else n
    else n := rfl

theorem advanceCommitIndex_advances (hsnap : n.lastSnapshotIndex = 0)
    (hl : Numbered 1 n.log.entries) :
    ∃ c, n.advanceCommitIndex = { n with log := { n.log with committed := c } } ∧
      n.Advances c := by
  have hstay : ∃ c, n = { n with log := { n.log with committed := c } } ∧ n.Advances c :=
    ⟨n.log.committed, rfl, .inl rfl⟩
  rw [advanceCommitIndex_eq]
  by_cases hlt : n.log.committed < n.newCommit
  swap
  · rw [if_neg hlt]
    exact hstay
  rw [if_pos hlt]
  have hpos : 1 ≤ n.newCommit := by omega
  rcases he : n.log.get n.newCommit with _ | e
  · rw [if_neg (by omega)]
    exact hstay
  dsimp only
  split
  swap
  · exact hstay
  rename_i hterm
  rw [get_of_numbered hl Nat.one_pos, if_pos hpos] at he
  obtain ⟨hle, -⟩ := List.getElem?_eq_some_iff.mp he
  refine ⟨n.newCommit, ?_, .inr ⟨hlt, by omega, rfl, e, he, hterm⟩⟩
  unfold commit
  rw [if_pos ⟨hlt, by rw [lastIndex_eq_length hl]; omega⟩]

theorem newEntry_numbered (hl : Numbered 1 n.log.entries) (command : RaftCommand) :
    Numbered 1 (n.log.entries ++ [n.newEntry command]) := by
  rw [Numbered.append_iff, Numbered.singleton_iff]
  refine ⟨hl, ?_⟩
  unfold newEntry
  rw [lastIndex_eq_length hl, Nat.add_comm]

theorem core_recordSuccess (n : RaftNode σ) (peerId : String) (sent : Nat) :
    (n.recordSuccess peerId sent).core = n.core := by
  obtain ⟨next, matched, h⟩ := n.recordSuccess_node peerId sent
  rw [h]
  rfl

section Calls
variable [RaftStorage σ]

section
variable (n : RaftNode σ)

theorem roster_maybeSnapshot [SnapshotCodec] : n.maybeSnapshot.roster = n.roster := by
  rcases n.maybeSnapshot_cases with ⟨snap, storage, -, -, hm⟩ | ⟨-, storage, hm, -⟩
  · rw [hm]
    rfl
  · rw [hm]
    rfl

theorem roster_adoptTerm (term : Nat) : (n.adoptTerm term).roster = n.roster := by
  unfold adoptTerm
  split <;> rfl

theorem roster_concede (term : Nat) : (n.concede term).roster = n.roster := by
  unfold concede
  split
  · rfl
  split <;> rfl

theorem roster_tryBecomeCandidate (draw : Nat) :
    ((n.tryBecomeCandidate draw).getD n).roster = n.roster := by
  unfold tryBecomeCandidate
  cases Term.checkedNext n.currentTerm <;> rfl

theorem roster_handleRequestVote [HmacSha256] (clock : Clock)
    (args : RequestVoteArgs) : (n.handleRequestVote clock args).2.roster = n.roster := by
  obtain ⟨cache, m, hm, ⟨-, hr⟩ | ⟨-, hr⟩⟩ := n.handleRequestVote_cases clock args
  · rw [hr, hm]
    rfl
  have hadopt := m.roster_adoptTerm args.term
  rw [hr]
  unfold castVote
  split
  · rw [hm] at hadopt ⊢
    exact hadopt
  · rw [hm] at hadopt ⊢
    exact hadopt

end

theorem roster_acceptEntries [SnapshotCodec] {clock : Clock}
    (hint : n.snapshotInterval = 0) (h : ConfigFree (n.acceptEntries clock args).2.log.entries) :
    (n.acceptEntries clock args).2.roster = n.roster := by
  obtain ⟨m, hm, hcases⟩ := n.acceptEntries_cases clock args
  have hroster : m.roster = n.roster := by
    rw [hm, ← n.roster_concede args.term]
    rfl
  have hmint : m.snapshotInterval = 0 := by
    rw [hm]
    unfold concede
    split
    · exact hint
    · split <;> exact hint
  rcases hcases with ⟨-, hr⟩ | ⟨-, ⟨-, hr⟩ | ⟨-, hr⟩⟩
  · rw [hr, ← hroster]
    rcases m.checkPrevLog_node args.prevLogIndex args.prevLogTerm with
      hc | ⟨-, e, log, -, -, -, -, hc⟩
    · rw [hc]
    · rw [hc]
      rfl
  · obtain ⟨log, storage, hb⟩ := m.appendBatch_node args.entries
    rw [hr, ← hroster, hb]
    rfl
  · obtain ⟨log, storage, hb⟩ := m.appendBatch_node args.entries
    obtain ⟨c, hcore, -⟩ := core_followCommit (m.appendBatch args.entries).2 args
    have hfollow : ((m.appendBatch args.entries).2.followCommit args).roster = m.roster := by
      rw [hb]
      rcases followCommit_node { m with log := log, storage := storage } args with hf | ⟨-, hf⟩
      · rw [hf]
        rfl
      · rw [hf]
        rfl
    have hfint : ((m.appendBatch args.entries).2.followCommit args).snapshotInterval = 0 := by
      have := congrArg NodeCore.snapshotInterval hcore
      rw [hb] at this ⊢
      exact this.trans hmint
    have happ := core_applyCommitted ((m.appendBatch args.entries).2.followCommit args) clock
    have hsame := core_maybeSnapshot (.inl ((congrArg NodeCore.snapshotInterval happ).trans hfint))
    rw [happ] at hsame
    rw [hr] at h ⊢
    have hfree : ConfigFree ((m.appendBatch args.entries).2.followCommit args).log.entries := by
      change ConfigFree (core _).entries
      rw [← hsame]
      exact h
    rw [roster_maybeSnapshot, roster_applyCommitted hfree, hfollow, hroster]

/-! ## Committing -/

/-- What a leader does with a command: one entry behind its log, committed at once in a
cluster of one. -/
theorem submitCommand_core (hsnap : n.lastSnapshotIndex = 0) (hl : Numbered 1 n.log.entries)
    (clock : Clock) (command : RaftCommand) :
    n.state ≠ .leader ∧ (n.submitCommand clock command).2 = n ∨
      n.state = .leader ∧ ∃ m c, m = { n with
          log := n.log.append (n.newEntry command)
          storage := persistAppended n.storage [n.newEntry command] } ∧ m.Advances c ∧
        (n.submitCommand clock command).2.core = { m.core with committed := c } ∧
        m.Resynced (n.submitCommand clock command).2.roster ∧
        (ConfigFree m.log.entries → (n.submitCommand clock command).2.roster = n.roster) := by
  rcases n.submitCommand_cases clock command with
    ⟨hns, hr⟩ | ⟨hs, m, hm, -, ⟨-, hr⟩ | ⟨-, hr⟩⟩
  · exact .inl ⟨hns, by rw [hr]⟩
  · have hnum : Numbered 1 m.log.entries := by
      rw [hm]
      exact newEntry_numbered hl command
    have hmsnap : m.lastSnapshotIndex = 0 := by
      rw [hm]
      exact hsnap
    obtain ⟨c, hadv, hc⟩ := advanceCommitIndex_advances hmsnap hnum
    refine .inr ⟨hs, m, c, hm, hc, ?_, ?_, fun hfree => ?_⟩
    · rw [hr, core_applyCommitted, hadv]
      rfl
    · rw [hr]
      exact (applyCommitted_resynced _ clock).congr (by rw [hadv]; rfl) (by rw [hadv])
    · rw [hr, roster_applyCommitted (by rw [hadv]; exact hfree), hadv, hm]
      rfl
  · refine .inr ⟨hs, m, m.log.committed, hm, .inl rfl, by rw [hr]; rfl, by rw [hr]; exact .refl m,
      fun _ => ?_⟩
    rw [hr, hm]
    rfl

/-- **The four ways a reply goes**, on the core and the roster. -/
inductive ReplyOutcome (n : RaftNode σ) (verified : Bool) (peerId : String)
    (reply : AppendEntriesReply) (sent : Nat) (after : RaftNode σ) : Prop
  | ignored (hcore : after.core = n.core) (hroster : after.roster = n.roster)
  | superseded (hcore : after.core = n.core.adopt reply.term) (hroster : after.roster = n.roster)
  | recorded (c : Nat) (hver : verified = true) (hle : reply.term ≤ n.currentTerm)
      (hsuccess : reply.success = true) (hadv : (n.recordSuccess peerId sent).Advances c)
      (hcore : after.core = { n.core with committed := c })
      (hresync : (n.recordSuccess peerId sent).Resynced after.roster)
      (hroster : ConfigFree n.log.entries →
        after.roster = (n.recordSuccess peerId sent).roster)
  | backedOff (draw : Nat) (hcore : after.core = n.core)
      (hroster : after.roster = (n.backOff draw peerId).roster)

theorem handleAppendEntriesReply_core [HmacSha256] [SnapshotCodec] (hsnap : n.lastSnapshotIndex = 0)
    (hint : n.snapshotInterval = 0) (hl : Numbered 1 n.log.entries) (clock : Clock) (draw : Nat)
    (peerId : String) (reply : AppendEntriesReply) (sent : Nat) :
    ReplyOutcome n (n.verifyAppendEntriesReply clock reply).1 peerId reply sent
      (n.handleAppendEntriesReply clock draw peerId reply sent) := by
  obtain ⟨accepts, m, hm, -, ⟨-, hr⟩ | ⟨-, hlt, hr⟩ | ⟨hver, hle, hs, hr⟩ | ⟨-, -, -, hr⟩⟩ :=
    n.handleAppendEntriesReply_cases clock draw peerId reply sent
  · rw [hr, hm]
    exact .ignored rfl rfl
  · have hadopt := m.core_adoptTerm reply.term
    unfold adoptTerm at hadopt
    rw [hm] at hadopt hr
    rw [if_pos (show n.currentTerm < reply.term from hlt)] at hadopt
    rw [hr]
    exact .superseded hadopt rfl
  · -- the counter of legacy tags plays no part in the bookkeeping
    have hrec : m.recordSuccess peerId sent =
        { n.recordSuccess peerId sent with legacyReplyHmacAccepts := accepts } := by
      rw [hm]
      unfold recordSuccess
      cases n.nextIndex[peerId]? <;> rfl
    have hcore : (m.recordSuccess peerId sent).core = n.core := by
      rw [hrec]
      exact n.core_recordSuccess peerId sent
    have hentries : (m.recordSuccess peerId sent).log.entries = n.log.entries :=
      congrArg NodeCore.entries hcore
    obtain ⟨c, hadv, hc⟩ := advanceCommitIndex_advances
      ((congrArg NodeCore.lastSnapshotIndex hcore).trans hsnap) (hentries ▸ hl)
    have hsync : (m.recordSuccess peerId sent).advanceAndSync.core =
          { n.core with committed := c } ∧
        (m.recordSuccess peerId sent).advanceAndSync.roster =
          (n.recordSuccess peerId sent).roster := by
      rcases (m.recordSuccess peerId sent).advanceAndSync_node with h | h
      · rw [h, hadv, ← hcore, hrec]
        exact ⟨rfl, rfl⟩
      · rw [h, hadv, ← hcore, hrec]
        exact ⟨rfl, rfl⟩
    refine .recorded c hver hle hs ?_ ?_ ?_ fun hfree => ?_
    · rw [hrec] at hc
      exact hc
    · rw [hr, core_maybeSnapshot, core_applyCommitted, hsync.1]
      have happ := core_applyCommitted (m.recordSuccess peerId sent).advanceAndSync clock
      rw [hsync.1] at happ
      exact .inl ((congrArg NodeCore.snapshotInterval happ).trans hint)
    · rw [hr, roster_maybeSnapshot]
      refine (applyCommitted_resynced _ clock).congr hsync.2 ?_
      have hsame := congrArg NodeCore.entries (hsync.1.trans (by rw [← hcore]))
      have hrecorded := congrArg NodeCore.entries (n.core_recordSuccess peerId sent)
      exact hsame.trans (hentries.trans hrecorded.symm)
    · rw [hr, roster_maybeSnapshot, roster_applyCommitted ?_, hsync.2]
      change ConfigFree (core _).entries
      rw [hsync.1]
      exact hfree
  · obtain ⟨next, hb⟩ := m.backOff_node draw peerId
    refine .backedOff draw ?_ ?_
    · rw [hr, hb, hm]
      rfl
    rw [hr, hm]
    unfold backOff
    cases n.nextIndex[peerId]? with
    | none => rfl
    | some ni =>
      dsimp only
      split <;> rfl

end Calls

/-! ## The two maps -/

variable {p : String} {x : Nat}

/-- A lookup after an insertion finds the new entry under its key, or an old one. -/
theorem insert_getElem? {m : ExtTreeMap String Nat} {k : String} {v : Nat}
    (h : (m.insert k v)[p]? = some x) : k = p ∧ x = v ∨ m[p]? = some x := by
  rw [ExtTreeMap.getElem?_insert] at h
  split at h
  · rename_i hk
    exact .inl ⟨LawfulEqCmp.eq_of_compare hk, (some.inj h).symm⟩
  · exact .inr h

/-- A new leader knows the same of every peer. -/
theorem foldl_insert_getElem? {peers : List String} {v : Nat} :
    ∀ {m : ExtTreeMap String Nat}, (peers.foldl (fun m p => m.insert p v) m)[p]? = some x →
      x = v ∨ m[p]? = some x := by
  induction peers with
  | nil => exact fun h => .inr h
  | cons q peers ih =>
    intro m h
    rcases ih h with hv | hm
    · exact .inl hv
    · exact (insert_getElem? hm).imp_left And.right

theorem becomeLeader_nextIndex (h : n.becomeLeader.nextIndex[p]? = some x) :
    x = n.log.lastIndex + 1 := by
  rcases foldl_insert_getElem? h with hx | hx
  · exact hx
  · simp at hx

theorem becomeLeader_matchIndex (h : n.becomeLeader.matchIndex[p]? = some x) : x = 0 := by
  rcases foldl_insert_getElem? h with hx | hx
  · exact hx
  · simp at hx

/-- A success touches the entry of one peer, and both maps at once. -/
theorem recordSuccess_maps (n : RaftNode σ) (peerId : String) (sent : Nat) :
    (n.recordSuccess peerId sent).roster = n.roster ∨
      ∃ ni, n.roster.nextIndex[peerId]? = some ni ∧
        (n.recordSuccess peerId sent).roster = { n.roster with
          nextIndex := n.roster.nextIndex.insert peerId (ni - 1 + sent + 1)
          matchIndex := n.roster.matchIndex.insert peerId (ni - 1 + sent) } := by
  unfold recordSuccess
  cases h : n.nextIndex[peerId]? with
  | none => exact .inl rfl
  | some ni => exact .inr ⟨ni, h, rfl⟩

/-- Backing off lowers the next index of one peer, and not below 1. -/
theorem backOff_maps (n : RaftNode σ) (draw : Nat) (peerId : String) :
    (n.backOff draw peerId).roster = n.roster ∨
      ∃ ni x, n.roster.nextIndex[peerId]? = some ni ∧ 0 < x ∧ x ≤ ni ∧
        (n.backOff draw peerId).roster =
          { n.roster with nextIndex := n.roster.nextIndex.insert peerId x } := by
  unfold backOff
  rcases h : n.nextIndex[peerId]? with _ | ni
  · exact .inl rfl
  dsimp only
  by_cases hni : 1 < ni
  · rw [if_pos hni]
    exact .inr ⟨ni, max (ni - if 4 < ni then genRange draw 1 2 else 1) 1, h, by omega, by omega,
      rfl⟩
  · rw [if_neg hni]
    exact .inl rfl

/-! ## What a leader sends -/

/-- The request that a leader sends to a peer: the log behind the peer's next index, or
nothing when that index lies beyond the log. -/
structure Sends (n : RaftNode σ) (peerId : String) (args : AppendEntriesArgs) : Prop where
  leads : n.state = .leader
  term : args.term = n.currentTerm
  leaderId : args.leaderId = n.id
  commit : args.leaderCommit = n.log.committed
  next : ∃ ni, n.nextIndex[peerId]? = some ni ∧ args.prevLogIndex = ni - 1 ∧
    (ni ≤ n.log.entries.length + 1 ∧ Proper n.log.entries args ∨
      n.log.entries.length + 1 < ni ∧ Beyond args)

/-- The request for a next index, whatever its commit index, clock and MAC are. -/
theorem proper_or_beyond (hl : Numbered 1 n.log.entries)
    (hni : 0 < ni) (hprev : args.prevLogIndex = ni - 1)
    (hterm : args.prevLogTerm = if ni - 1 = 0 then 0 else (n.log.get (ni - 1)).elim 0
      LogEntry.term) (hentries : args.entries = n.log.entries.drop (ni - 1)) :
    ni ≤ n.log.entries.length + 1 ∧ Proper n.log.entries args ∨
      n.log.entries.length + 1 < ni ∧ Beyond args := by
  have hget : 0 < ni - 1 → n.log.get (ni - 1) = n.log.entries[ni - 1 - 1]? := by
    intro hpos
    rw [get_of_numbered hl Nat.one_pos, if_pos (show 1 ≤ ni - 1 from hpos)]
  by_cases hle : ni ≤ n.log.entries.length + 1
  · refine .inl ⟨hle, ⟨by omega, fun e hpos he => ?_, ?_⟩⟩
    · rw [hprev] at hpos he
      rw [hterm, if_neg (Nat.ne_of_gt hpos), hget hpos, he]
      rfl
    · rw [hprev, hentries, take_append_drop]
  · have hpos : 0 < ni - 1 := by omega
    refine .inr ⟨by omega, ⟨by omega, ?_, ?_⟩⟩
    · rw [hterm, if_neg (Nat.ne_of_gt hpos), hget hpos, getElem?_eq_none (by omega)]
      rfl
    · rw [hentries, drop_eq_nil_of_le (by omega)]

/-- The smallest next index of the peers is one of them, or the one behind the log. -/
theorem replicate_base {b : Nat}
    (hnext : ∀ (p : String) (ni : Nat), n.nextIndex[p]? = some ni → b ≤ ni)
    (hend : b ≤ n.log.lastIndex + 1) :
    b ≤ ((n.peers.filterMap (fun p => n.nextIndex[p]?)).min?).getD (n.log.lastIndex + 1) := by
  cases hmin : (n.peers.filterMap (fun p => n.nextIndex[p]?)).min? with
  | none => exact hend
  | some x =>
    obtain ⟨p, -, hp⟩ := mem_filterMap.mp (min?_mem hmin)
    exact hnext p x hp

/-- What a round sends to a peer, when the shared suffix begins within the log. -/
theorem slice_shared {b base : Nat} (hl : Numbered b n.log.entries) (hbase : b ≤ base) (ni : Nat) :
    (if base ≤ ni then (n.log.entriesSliceFrom base).drop (ni - base)
      else n.log.entriesSliceFrom ni) = n.log.entries.drop (ni - b) := by
  split
  · rw [entriesSliceFrom_of_numbered hl, drop_drop]
    congr 1
    omega
  · exact entriesSliceFrom_of_numbered hl ni

/-- The shared suffix, cut for a peer, is the suffix of the peer exactly if it begins within the
log, or at the next index of the peer, or nothing is left to send. -/
theorem drop_shared_eq_iff {b base ni : Nat} (hl : Numbered b n.log.entries) (hle : base ≤ ni)
    (hpos : 0 < ni) :
    (n.log.entriesSliceFrom base).drop (ni - base) = n.log.entriesSliceFrom ni ↔
      b ≤ base ∨ ni ≤ base ∨ n.log.lastIndex < ni := by
  rw [entriesSliceFrom_of_numbered hl, entriesSliceFrom_of_numbered hl, drop_drop]
  have hlast : n.log.lastIndex < ni ↔ n.log.entries.length ≤ ni - b := by
    by_cases hne : n.log.entries = []
    · simp [lastIndex, hne, hpos]
    · have hend := lastIndex_of_numbered hl hne
      have hlength := length_pos_iff.mpr hne
      omega
  rw [hlast]
  constructor
  · intro heq
    have hlength := congrArg length heq
    simp only [length_drop] at hlength
    omega
  · rintro (h | h | h)
    · rw [show base - b + (ni - base) = ni - b by omega]
    · rw [show base - b + (ni - base) = ni - b by omega]
    · rw [drop_eq_nil_of_le h, drop_eq_nil_of_le (by omega)]

/-- No next index is 0. -/
def NextPos (r : Roster) : Prop := ∀ (p : String) (ni : Nat), r.nextIndex[p]? = some ni → 0 < ni

/-- The next index of a peer is set to a positive one. -/
theorem NextPos.insert {r : Roster} (h : NextPos r) {x : Nat}
    (hx : 0 < x) {q : String} (hq : (r.nextIndex.insert p x)[q]? = some ni) :
    0 < ni := by
  rcases insert_getElem? hq with ⟨-, rfl⟩ | hold
  · exact hx
  · exact h q ni hold

section Sending
variable [HmacSha256]

/-- The request for a next index. -/
def request (n : RaftNode σ) (clock : Clock) (nextIdx : Nat) (entries : List LogEntry) :
    AppendEntriesArgs :=
  let args : AppendEntriesArgs := {
    term := n.currentTerm, leaderId := n.id, prevLogIndex := nextIdx - 1
    prevLogTerm := if nextIdx - 1 = 0 then 0
      else if nextIdx - 1 = n.lastSnapshotIndex then n.lastSnapshotTerm
      else (n.log.get (nextIdx - 1)).elim 0 LogEntry.term
    entries := entries, leaderCommit := n.log.committed, timestampMs := clock.wallMs, hmac := none }
  { args with hmac := n.clusterSecret.map args.computeHmac }

section Shared
variable {clock : Clock} {peerId : String} {base : Nat} {shared : List LogEntry} {flag : Bool}

/-- What is sent is the request for the next index of the peer. -/
theorem prepareAppendEntriesShared_some
    (h : (n.prepareAppendEntriesShared clock peerId base shared flag).1 = some args) :
    ∃ ni, n.state = .leader ∧ n.nextIndex[peerId]? = some ni ∧ args = n.request clock ni
      (if base ≤ ni then shared.drop (ni - base) else n.log.entriesSliceFrom ni) := by
  unfold prepareAppendEntriesShared at h
  split at h
  · rename_i ni hleads hnext
    refine ⟨ni, of_decide_eq_true hleads, hnext, ?_⟩
    generalize (if base ≤ ni then _ else _) = entries at h ⊢
    dsimp only at h
    split at h
    · cases h
    · exact (some.inj h).symm
  · cases h

/-- Preparing a request moves at most the time of a configuration change. -/
theorem prepareAppendEntriesShared_node :
    ∃ times, (n.prepareAppendEntriesShared clock peerId base shared flag).2 =
      { n with lastConfigChangeAt := times } := by
  unfold prepareAppendEntriesShared
  split
  · rename_i ni _ _
    generalize (if base ≤ ni then _ else _) = entries
    dsimp only
    split
    · exact ⟨_, rfl⟩
    dsimp only
    split <;> exact ⟨_, rfl⟩
  · exact ⟨_, rfl⟩

/-- Every request of a round is prepared from the node, up to those times. -/
theorem replicateLoop_node (clock : String → Clock) (peers : List String) (n : RaftNode σ) :
    (∃ times, (replicateLoop clock base shared flag peers n).2 =
      { n with lastConfigChangeAt := times }) ∧
    ∀ x ∈ (replicateLoop clock base shared flag peers n).1, x.1 ∈ peers ∧ ∃ times,
      (prepareAppendEntriesShared { n with lastConfigChangeAt := times } (clock x.1) x.1 base shared
        flag).1 = some x.2 := by
  induction peers generalizing n with
  | nil => exact ⟨⟨_, rfl⟩, nofun⟩
  | cons p peers ih =>
    obtain ⟨times, hnode⟩ : ∃ times, (n.prepareAppendEntriesShared (clock p) p base shared flag).2 =
        { n with lastConfigChangeAt := times } := prepareAppendEntriesShared_node
    obtain ⟨⟨times', hend⟩, hrest⟩ := ih { n with lastConfigChangeAt := times }
    unfold replicateLoop
    dsimp only
    rw [hnode]
    refine ⟨⟨times', hend⟩, fun x hx => ?_⟩
    have hlater := fun hx => (hrest x hx).imp_left (mem_cons_of_mem p)
    cases hprep : (n.prepareAppendEntriesShared (clock p) p base shared flag).1 with
    | none =>
      rw [hprep] at hx
      exact hlater hx
    | some args =>
      rw [hprep] at hx
      rcases mem_cons.mp hx with rfl | hx
      · exact ⟨mem_cons_self, n.lastConfigChangeAt, hprep⟩
      · exact hlater hx

end Shared

section
variable (hsnap : n.lastSnapshotIndex = 0)
include hsnap

section
variable (hl : Numbered 1 n.log.entries)
include hl

theorem request_sends (hpos : NextPos n.roster) (hleads : n.state = .leader) {peerId : String}
    (hnext : n.nextIndex[peerId]? = some ni) (clock : Clock) :
    n.Sends peerId (n.request clock ni (n.log.entries.drop (ni - 1))) := by
  have hni : 0 < ni := hpos peerId ni hnext
  refine ⟨hleads, rfl, rfl, rfl, ni, hnext, rfl, proper_or_beyond hl hni rfl ?_ rfl⟩
  unfold request
  by_cases hzero : ni - 1 = 0
  · rw [if_pos hzero, if_pos hzero]
  · rw [if_neg hzero, if_neg hzero, if_neg (by omega)]

theorem prepareAppendEntries_sends (hpos : n.state = .leader → NextPos n.roster) (clock : Clock)
    (peerId : String) :
    (∀ args, (n.prepareAppendEntries clock peerId).1 = some args → n.Sends peerId args) ∧
    (n.prepareAppendEntries clock peerId).2.core = n.core ∧
    (n.prepareAppendEntries clock peerId).2.roster = n.roster := by
  unfold prepareAppendEntries
  split
  · rename_i ni _ hnext
    refine ⟨fun args hargs => ?_, ?_⟩
    · obtain ⟨ni', hleads, hnext', rfl⟩ := prepareAppendEntriesShared_some hargs
      cases hnext.symm.trans hnext'
      rw [if_pos (Nat.le_refl _), Nat.sub_self, drop_zero,
        entriesSliceFrom_of_numbered hl]
      exact request_sends hsnap hl (hpos hleads) hleads hnext clock
    · obtain ⟨times, hnode⟩ := prepareAppendEntriesShared_node (n := n)
      rw [hnode]
      exact ⟨rfl, rfl⟩
  · exact ⟨nofun, rfl, rfl⟩

theorem replicateToAll_sends
    (hpos : n.state = .leader → NextPos n.roster) (clock : String → Clock) :
    (∀ x ∈ (n.replicateToAll clock).1, n.Sends x.1 x.2) ∧
    (n.replicateToAll clock).2.core = n.core ∧ (n.replicateToAll clock).2.roster = n.roster := by
  unfold replicateToAll
  split
  · obtain ⟨⟨times, hnode⟩, hrequests⟩ := replicateLoop_node clock n.peers n
    refine ⟨fun x hx => ?_, ?_⟩
    · obtain ⟨-, times, hx⟩ := hrequests x hx
      obtain ⟨ni, hleads, hnext, hargs⟩ := prepareAppendEntriesShared_some hx
      rw [hargs]
      have hslice := slice_shared hl (replicate_base (hpos hleads) (Nat.succ_pos _)) ni
      exact hslice ▸ request_sends hsnap hl (hpos hleads) hleads hnext (clock x.1)
    · rw [hnode]
      exact ⟨rfl, rfl⟩
  · exact ⟨nofun, rfl, rfl⟩

end

end

/-- The peer was not sent a configuration change so recently that it has to wait for the
next. -/
def Unlimited (n : RaftNode σ) (clock : Clock) (peerId : String) : Prop :=
  ∀ last, n.lastConfigChangeAt[peerId]? = some last →
    n.minConfigChangeIntervalMs ≤ clock.monotonicMs - last

theorem prepareAppendEntries_unlimited {clock : Clock} {peerId : String}
    (hleads : n.state = .leader) (hnext : n.nextIndex[peerId]? = some ni)
    (hfree : n.Unlimited clock peerId) : (n.prepareAppendEntries clock peerId).1 =
      some (n.request clock ni (n.log.entriesSliceFrom ni)) := by
  have hsoon : n.lastConfigChangeAt[peerId]?.any
      (fun last => clock.monotonicMs - last < n.minConfigChangeIntervalMs) = false := by
    cases hlast : n.lastConfigChangeAt[peerId]? with
    | none => rfl
    | some last => exact decide_eq_false (Nat.not_lt.mpr (hfree last hlast))
  have hleads : n.isLeader = true := decide_eq_true hleads
  unfold prepareAppendEntries
  rw [hleads, hnext]
  unfold prepareAppendEntriesShared
  rw [hleads, hnext]
  dsimp only
  rw [hsoon, Bool.and_false, if_neg Bool.false_ne_true, if_pos (Nat.le_refl _), Nat.sub_self,
    drop_zero]
  rfl

/-- What a round sends to a peer is what would be prepared for it alone: the entries from its next
index on. -/
def RequestAgrees (n : RaftNode σ) (clock : Clock) (p : String) (args : AppendEntriesArgs) : Prop :=
  ∃ ni alone, n.nextIndex[p]? = some ni ∧ (n.prepareAppendEntries clock p).1 = some alone ∧
    args.prevLogIndex = alone.prevLogIndex ∧ args.prevLogTerm = alone.prevLogTerm ∧
    args.entries = alone.entries ∧ args.entries = n.log.entries.filter fun e => ni ≤ e.index

/-- A round in which a peer is served: its next index is known, and its request carries the shared
suffix from the smallest next index on. -/
theorem replicateToAll_mem {clock : String → Clock} {args : AppendEntriesArgs}
    (h : (p, args) ∈ (n.replicateToAll clock).1) :
    ∃ ni base, n.state = .leader ∧ n.nextIndex[p]? = some ni ∧
      (∃ q ∈ n.peers, n.nextIndex[q]? = some base) ∧
      (∀ q ∈ n.peers, ∀ nq, n.nextIndex[q]? = some nq → base ≤ nq) ∧ base ≤ ni ∧
      args = n.request (clock p) ni ((n.log.entriesSliceFrom base).drop (ni - base)) := by
  unfold replicateToAll at h
  split at h
  swap
  · cases h
  obtain ⟨hpeer, times, hprep⟩ := (replicateLoop_node clock n.peers n).2 (p, args) h
  obtain ⟨ni, hleads, hni, hargs⟩ := prepareAppendEntriesShared_some hprep
  have hknown : ni ∈ n.peers.filterMap fun p => n.nextIndex[p]? := mem_filterMap.mpr ⟨p, hpeer, hni⟩
  cases hmin : (n.peers.filterMap fun p => n.nextIndex[p]?).min? with
  | none =>
    rw [min?_eq_none_iff] at hmin
    rw [hmin] at hknown
    cases hknown
  | some base =>
    obtain ⟨hmem, hleast⟩ := min?_eq_some_iff.mp hmin
    obtain ⟨q, hq, hbase⟩ := mem_filterMap.mp hmem
    have hle := hleast ni hknown
    rw [hmin, Option.getD_some, if_pos hle] at hargs
    exact ⟨ni, base, hleads, hni, ⟨q, hq, hbase⟩,
      fun q hq nq hnq => hleast nq (mem_filterMap.mpr ⟨q, hq, hnq⟩), hle, hargs⟩

/-- **The shared suffix serves a peer** exactly if the log still holds the next index of every peer,
or no peer is further behind than this one, or there is nothing to send to it. -/
theorem replicateToAll_agrees_iff {b : Nat} (hl : Numbered b n.log.entries)
    (hpos : NextPos n.roster)
    (clock : String → Clock) (p : String) (args : AppendEntriesArgs)
    (hmem : (p, args) ∈ (n.replicateToAll clock).1) (clock' : Clock)
    (hfree : n.Unlimited clock' p) (ni : Nat) (hni : n.nextIndex[p]? = some ni) :
    n.RequestAgrees clock' p args ↔
      (∀ q ∈ n.peers, ∀ nq, n.nextIndex[q]? = some nq → b ≤ nq) ∨
      (∀ q ∈ n.peers, ∀ nq, n.nextIndex[q]? = some nq → ni ≤ nq) ∨ n.log.lastIndex < ni := by
  obtain ⟨ni', base, hleads, hni', ⟨q, hq, hbase⟩, hleast, hle, rfl⟩ := replicateToAll_mem hmem
  cases hni.symm.trans hni'
  have hlow : ∀ c, (∀ q ∈ n.peers, ∀ nq, n.nextIndex[q]? = some nq → c ≤ nq) ↔ c ≤ base :=
    fun c => ⟨fun h => h q hq base hbase, fun h q hq nq hnq => Nat.le_trans h (hleast q hq nq hnq)⟩
  rw [hlow, hlow, ← drop_shared_eq_iff hl hle (hpos p ni hni)]
  have halone := prepareAppendEntries_unlimited hleads hni hfree
  constructor
  · rintro ⟨ni', alone, hni', halone', -, -, heq, -⟩
    cases halone.symm.trans halone'
    exact heq
  · intro heq
    refine ⟨ni, _, hni, halone, rfl, rfl, heq, heq.trans ?_⟩
    have hfilter := hl.filter_gt (ni - 1)
    rw [Nat.sub_add_cancel (hpos p ni hni)] at hfilter
    rw [entriesSliceFrom_of_numbered hl, ← hfilter]
    exact filter_congr fun e _ => decide_eq_decide.mpr (by have := hpos p ni hni; omega)

end Sending

section Sample
attribute [local instance] hmacSha256

/-- A leader whose log begins at index 6, with a peer that lacks `next` and one that lacks
entry 7. -/
def compactedLeader (next : Nat) : RaftNode InMemoryStorage :=
  { (new "n1" ["n2", "n3"] 1000 0 : RaftNode InMemoryStorage) with
    state := .leader, currentTerm := 1, lastSnapshotIndex := 5, lastSnapshotTerm := 1
    log := { entries := [⟨1, 6, .noop⟩, ⟨1, 7, .noop⟩], committed := 5, applied := 5 }
    nextIndex := ((∅ : ExtTreeMap String Nat).insert "n2" next).insert "n3" 7 }

theorem compactedLeader_next {next : Nat}
    (h : (compactedLeader next).nextIndex[p]? = some ni) : ni = 7 ∨ ni = next := by
  rcases insert_getElem? h with ⟨-, rfl⟩ | h
  · exact .inl rfl
  rcases insert_getElem? h with ⟨-, rfl⟩ | h
  · exact .inr rfl
  · simp at h

theorem compactedLeader_numbered (next : Nat) : Numbered 6 (compactedLeader next).log.entries :=
  Numbered.cons_iff.mpr ⟨rfl, Numbered.singleton_iff.mpr rfl⟩

theorem compactedLeader_sends : ∀ next ∈ [3, 6], ("n3", (compactedLeader next).request
    (sampleClock 1000) 7 (if next = 6 then [⟨1, 7, .noop⟩] else [])) ∈
      ((compactedLeader next).replicateToAll fun _ => sampleClock 1000).1 := by decide

/-- The peers lack entries 6 and 7, which the log holds. -/
theorem replicateToAll_agrees_iff_compacted :
    (compactedLeader 6).RequestAgrees (sampleClock 1000) "n3"
      ((compactedLeader 6).request (sampleClock 1000) 7 [⟨1, 7, .noop⟩]) := by
  refine (replicateToAll_agrees_iff (compactedLeader_numbered 6) (fun p ni h => ?_) _ "n3" _
    (compactedLeader_sends 6 (by decide)) _ (fun _ h => by cases h) 7
    rfl).mpr (.inl fun q _ nq h => ?_)
  · rcases compactedLeader_next h with rfl | rfl <;> decide
  · rcases compactedLeader_next h with rfl | rfl <;> decide

/-- A peer that has fallen behind the snapshot takes the entries of the others with it. -/
theorem lagging_peer_starves_others :
    ("n3", (compactedLeader 3).request (sampleClock 1000) 7 []) ∈
        ((compactedLeader 3).replicateToAll fun _ => sampleClock 1000).1 ∧
      ¬ (compactedLeader 3).RequestAgrees (sampleClock 1000) "n3"
        ((compactedLeader 3).request (sampleClock 1000) 7 []) := by
  refine ⟨compactedLeader_sends 3 (by decide), ?_⟩
  rintro ⟨ni, -, hni, -, -, -, -, hes⟩
  cases hni
  cases hes

end Sample

end RaftNode

end CratonHsm
