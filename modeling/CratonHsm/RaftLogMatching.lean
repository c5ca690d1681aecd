import CratonHsm.RaftCluster

/-!
# Log matching

The invariant behind log matching ties the cluster to a history of terms (`TermHistory`):
the log of a leader is what its term has written, every log is recorded in the history, and
every AppendEntries under way carries a piece of what its term has written.  It is stated
over the history and the leader of each term, and is reused for the safety of commits.
-/

namespace CratonHsm
open TermHistory GuardedRun RaftNode Function List Option

/-- A node, seen from the history. -/
structure NodeSim (h : History LogEntry) (leader : Nat → Option String) (v : String)
    (k : NodeCore) (r : Roster) : Prop where
  id : k.id = v
  snapshot : k.lastSnapshotIndex = 0
  interval : k.snapshotInterval = 0
  recorded : h.Recorded k.entries
  term_le : ∀ e ∈ k.entries, e.term ≤ k.currentTerm
  pos : k.state ≠ .follower → 0 < k.currentTerm
  candidate : k.state = .candidate → ∀ e ∈ k.entries, e.term < k.currentTerm
  leads : k.state = .leader →
    leader k.currentTerm = some v ∧ h.written k.currentTerm = k.entries
  led : ∀ t, leader t = some v →
    t ≤ k.currentTerm ∧ (k.currentTerm = t → k.state ≠ .candidate)
  next : RaftNode.NextPos r

namespace NodeSim
variable {h : History LogEntry} {leader : Nat → Option String} {v : String} {k : NodeCore}
  {r : Roster} {t : Nat}

section Moves
variable (hs : NodeSim h leader v k r)
include hs

/-- The vote and the committed index play no part. -/
theorem irrelevant (vote : Option String) (c : Nat) :
    NodeSim h leader v { k with votedFor := vote, committed := c } r := { hs with }

theorem with_roster {r' : Roster} (hr : RaftNode.NextPos r') :
    NodeSim h leader v k r' := { hs with next := hr }

/-- The node opens a later term as a candidate or a follower. -/
theorem later {state : RaftState} (hstate : state ≠ .leader) (hlt : k.currentTerm < t)
    (vote : Option String) :
    NodeSim h leader v { k with state := state, currentTerm := t, votedFor := vote } r where
  id := hs.id
  snapshot := hs.snapshot
  interval := hs.interval
  recorded := hs.recorded
  term_le e he := Nat.le_of_lt (Nat.lt_of_le_of_lt (hs.term_le e he) hlt)
  pos _ := Nat.lt_of_le_of_lt (Nat.zero_le _) hlt
  candidate _ e he := Nat.lt_of_le_of_lt (hs.term_le e he) hlt
  leads hl := absurd hl hstate
  led u hu := by
    have := (hs.led u hu).1
    refine ⟨by dsimp only; omega, fun heq => ?_⟩
    dsimp only at heq
    omega
  next := hs.next

theorem adopt (t : Nat) : NodeSim h leader v (k.adopt t) r := by
  rcases k.adopt_cases t with ⟨hlt, heq⟩ | ⟨-, heq⟩
  · rw [heq]
    exact hs.later (by decide) hlt none
  · rw [heq]
    exact hs

variable {l : List LogEntry}

/-- The node follows the leader of `t`. -/
theorem follow (hv : h.Valid LogEntry.term) (hle : k.currentTerm ≤ t)
    (hl : l <+: k.entries ∨ l <+: h.written t) (c : Nat) :
    NodeSim h leader v { k.concede t with entries := l, committed := c } r where
  id := hs.id
  snapshot := hs.snapshot
  interval := hs.interval
  recorded := by
    rcases hl with hl | hl
    · exact hs.recorded.initial hv hl
    · exact hv.recorded_initial hl
  term_le e he := by
    rcases hl with hl | hl
    · exact Nat.le_trans (hs.term_le e (hl.subset he)) hle
    obtain ⟨i, hi⟩ := getElem?_of_mem (hl.subset he)
    rcases hv.written_term hi with ⟨-, hlt⟩ | ⟨-, heq⟩
    · exact Nat.le_of_lt hlt
    · exact Nat.le_of_eq heq
  pos hne := absurd rfl hne
  candidate hc := by cases hc
  leads hl := by cases hl
  led u hu := ⟨Nat.le_trans (hs.led u hu).1 hle, fun _ hc => by cases hc⟩
  next := hs.next

/-- Another node becomes the leader of a free term. -/
theorem begin {u : String} (hfree : leader t = none) (hnew : h.written t = []) (hne : v ≠ u) :
    NodeSim (h.begin t l) (update leader t (some u)) v k r where
  id := hs.id
  snapshot := hs.snapshot
  interval := hs.interval
  recorded := hs.recorded.begin hnew
  term_le := hs.term_le
  pos := hs.pos
  candidate := hs.candidate
  leads hl := by
    obtain ⟨hled, hwritten⟩ := hs.leads hl
    have ht : k.currentTerm ≠ t := by
      rintro rfl
      rw [hfree] at hled
      cases hled
    rw [update_of_ne ht, History.begin_written_of_ne h ht]
    exact ⟨hled, hwritten⟩
  led s hled := by
    by_cases hst : s = t
    · rw [hst, update_self] at hled
      exact absurd (some.inj hled).symm hne
    · rw [update_of_ne hst] at hled
      exact hs.led s hled
  next := hs.next

/-- The leader of another node's term appends an entry. -/
theorem extend {u : String} (e : LogEntry) (hled : leader t = some u) (hne : v ≠ u) :
    NodeSim (h.extend t e) leader v k r := by
  refine { hs with recorded := hs.recorded.extend, leads := fun hl => ?_ }
  obtain ⟨hv, hwritten⟩ := hs.leads hl
  have ht : k.currentTerm ≠ t := by
    rintro rfl
    rw [hled] at hv
    exact hne (some.inj hv).symm
  rw [History.extend_written_of_ne h ht]
  exact ⟨hv, hwritten⟩

end Moves

end NodeSim

/-- The cluster, seen from the history. -/
structure LogSim {σ : Type} (h : History LogEntry) (leader : Nat → Option String)
    (c : Cluster σ) : Prop where
  valid : h.Valid LogEntry.term
  unled : ∀ t, leader t = none → h.written t = []
  numbered : ∀ t, Numbered 1 (h.written t)
  configFree : ∀ t, ConfigFree (h.written t)
  term_pos : ∀ t, ∀ e ∈ h.written t, 0 < e.term
  node : ∀ v, NodeSim h leader v (c.node v).core (c.node v).roster
  append : ∀ x ∈ c.appends, (leader x.2.term).isSome ∧
    (Proper (h.written x.2.term) x.2 ∨ Beyond x.2)

namespace LogSim
variable {σ : Type} {h : History LogEntry} {leader : Nat → Option String} {c : Cluster σ}
  {v : String} {args : AppendEntriesArgs}

/-- What holds of every prefix of what the terms have written, holds of every log. -/
theorem of_recorded {p : List LogEntry → Prop} (hnil : p [])
    (hwritten : ∀ t l, l <+: h.written t → p l) (hl : h.Recorded l) : p l := by
  rcases hl with rfl | ⟨t, -, hw⟩
  · exact hnil
  · exact hwritten t l hw

section
variable (hs : LogSim h leader c)
include hs

theorem entries_numbered (v : String) : Numbered 1 (c.node v).log.entries :=
  of_recorded (p := Numbered 1) (.nil 1) (fun t _ hl => (hs.numbered t).initial hl)
    (hs.node v).recorded

theorem entries_configFree (v : String) : ConfigFree (c.node v).log.entries :=
  of_recorded (p := ConfigFree) nofun (fun t _ hl => (hs.configFree t).initial hl)
    (hs.node v).recorded

theorem entries_term_pos (v : String) : ∀ e ∈ (c.node v).log.entries, 0 < e.term :=
  of_recorded (p := fun l => ∀ e ∈ l, 0 < e.term) nofun
    (fun t _ hl e he => hs.term_pos t e (hl.subset he)) (hs.node v).recorded

/-- Every log matches what every term has written. -/
theorem entries_matches (v : String) (t : Nat) :
    Match LogEntry.term (c.node v).log.entries (h.written t) :=
  (hs.node v).recorded.matches hs.valid (hs.valid.recorded_initial prefix_rfl)

end

/-- One node moves, and the others keep their meaning. -/
theorem node_update {n : RaftNode σ} (hn : NodeSim h leader v n.core n.roster)
    (hothers : ∀ u, u ≠ v → NodeSim h leader u (c.node u).core (c.node u).roster) :
    ∀ u, NodeSim h leader u (update c.node v n u).core
      (update c.node v n u).roster :=
  (forall_update_iff c.node fun u m => NodeSim h leader u m.core m.roster).mpr
    ⟨hn, hothers⟩

/-- One node moves, under the same history. -/
theorem of_node (hs : LogSim h leader c) {c' : Cluster σ} {n : RaftNode σ}
    (hnode : c'.node = update c.node v n) (hn : NodeSim h leader v n.core n.roster)
    (happ : ∀ x ∈ c'.appends, x ∈ c.appends ∨ (leader x.2.term).isSome ∧
      (Proper (h.written x.2.term) x.2 ∨ Beyond x.2)) : LogSim h leader c' := by
  refine { hs with node := ?_, append := fun x hx => ?_ }
  · rw [hnode]
    exact node_update hn fun u _ => hs.node u
  · rcases happ x hx with hold | hnew
    · exact hs.append x hold
    · exact hnew

theorem init (hc : c.IsFresh) : LogSim .empty (fun _ => none) c := by
  refine ⟨History.valid_empty _, fun _ _ => rfl, fun _ => .nil 1, fun _ => nofun, fun _ => nofun,
    fun v => ?_, fun x hx => ?_⟩
  · have hv := hc.node v
    refine ⟨hc.id v, hv.snapshotIndex, hv.interval, ?_, ?_, ?_, ?_, ?_, fun _ => nofun, ?_⟩
    · exact .inl (by change (c.node v).log.entries = []; rw [hv.log])
    · change ∀ e ∈ (c.node v).log.entries, _
      rw [hv.log]
      exact nofun
    · exact fun hne => absurd hv.state hne
    · intro hcand
      rw [show (c.node v).core.state = _ from hv.state] at hcand
      cases hcand
    · intro hlead
      rw [show (c.node v).core.state = _ from hv.state] at hlead
      cases hlead
    · intro p ni hp
      change (c.node v).nextIndex[p]? = some ni at hp
      rw [hv.nextIndex] at hp
      simp at hp
  · rw [hc.appends] at hx
    cases hx

/-! ## Calls that write nothing new -/

/-- A request sent by a leader carries a piece of what its term has written. -/
theorem sends (hs : LogSim h leader c) {v p : String}
    (hsend : (c.node v).Sends p args) : (leader args.term).isSome ∧
      (Proper (h.written args.term) args ∨ Beyond args) := by
  obtain ⟨hled, hwritten⟩ := (hs.node v).leads hsend.leads
  change leader (c.node v).currentTerm = _ at hled
  change h.written (c.node v).currentTerm = (c.node v).log.entries at hwritten
  rw [hsend.term, hled, hwritten]
  obtain ⟨ni, -, -, ⟨-, hproper⟩ | ⟨-, hbeyond⟩⟩ := hsend.next
  · exact ⟨rfl, .inl hproper⟩
  · exact ⟨rfl, .inr hbeyond⟩

theorem of_sent (hs : LogSim h leader c) {c' : Cluster σ} (hsent : c.Sent v c') :
    LogSim h leader c' := by
  obtain ⟨n, messages, hsends, hcore, hroster⟩ := hsent
  refine hs.of_node rfl ?_ fun x hx => ?_
  · rw [hcore, hroster]
    exact hs.node v
  · rcases mem_append.mp hx with hold | hnew
    · exact .inl hold
    · exact .inr (hs.sends (hsends x hnew))

section Frames
variable [RaftStorage σ] [HmacSha256]

theorem handleRequestVote (hs : LogSim h leader c) (v : String) (clock : Clock)
    (args : RequestVoteArgs) :
    NodeSim h leader v ((c.node v).handleRequestVote clock args).2.core
      ((c.node v).handleRequestVote clock args).2.roster := by
  rw [roster_handleRequestVote]
  rcases (c.node v).handleRequestVote_core clock args with ⟨hcore, -⟩ | ⟨-, hcast, -⟩
  · rw [hcore]
    exact hs.node v
  · obtain ⟨vote, hcore⟩ := hcast.adopted
    rw [hcore]
    exact ((hs.node v).adopt args.term).irrelevant _ _

variable [SnapshotCodec]

theorem prepareAppendEntries (hs : LogSim h leader c) (v : String) (clock : Clock)
    (peer : String) : c.Sent v (c.step (.prepareAppendEntries v clock peer)) :=
  Cluster.sent_prepareAppendEntries (hs.node v).snapshot (hs.entries_numbered v)
    (fun _ => (hs.node v).next) clock peer

theorem replicateToAll (hs : LogSim h leader c) (v : String) (clock : String → Clock) :
    c.Sent v (c.step (.replicateToAll v clock)) :=
  Cluster.sent_replicateToAll (hs.node v).snapshot (hs.entries_numbered v)
    (fun _ => (hs.node v).next) clock

omit [HmacSha256] in
/-- A node after an accepted AppendEntries follows the writer of its term. -/
theorem acceptEntries (hs : LogSim h leader c) {clock : Clock}
    {m : RaftNode σ} (hcore : m.core = (c.node v).core)
    (hroster : m.roster = (c.node v).roster) (hterm : (c.node v).currentTerm ≤ args.term)
    (hsent : Proper (h.written args.term) args ∨ Beyond args) :
    NodeSim h leader v (m.acceptEntries clock args).2.core
      (m.acceptEntries clock args).2.roster := by
  have hn := hs.node v
  have hresult : ∃ l c', (m.acceptEntries clock args).2.core =
      { (c.node v).core.concede args.term with entries := l, committed := c' } ∧
      (l <+: (c.node v).core.entries ∨ l <+: h.written args.term) := by
    rcases hsent with hproper | hbeyond
    · obtain ⟨l, c', hafter, hacc⟩ := acceptEntries_accepted hcore hn.snapshot
        hn.interval (hs.entries_numbered v) (hs.numbered _) (hs.entries_matches v _) hproper clock
        hterm
      exact ⟨l, c', hafter, hacc.follows.source⟩
    · obtain ⟨l, hafter, hcut, -⟩ := acceptEntries_beyond hcore hn.snapshot
        hn.interval (hs.entries_numbered v) (hs.entries_term_pos v) hbeyond clock hterm
      exact ⟨l, (c.node v).log.committed, hafter, .inl hcut⟩
  obtain ⟨l, c', hafter, hsource⟩ := hresult
  have hsim := hn.follow hs.valid hterm hsource c'
  rw [← hafter] at hsim
  have hfree : ConfigFree (m.acceptEntries clock args).2.log.entries :=
    of_recorded (p := ConfigFree) nofun (fun t _ hl => (hs.configFree t).initial hl) hsim.recorded
  rw [roster_acceptEntries ((congrArg NodeCore.snapshotInterval hcore).trans hn.interval)
    hfree, hroster]
  exact hsim

end Frames

end LogSim

/-- The calls that write to the history: a new leader, and a leader's new entry. -/
def Cluster.Writes {σ : Type} (c : Cluster σ) : ClusterEvent → Prop
  | .becomeLeader _ => True
  | .submitCommand v _ _ => (c.node v).state = .leader
  | _ => False

namespace LogSim
variable {σ : Type} {h : History LogEntry} {leader : Nat → Option String} {c : Cluster σ}
variable [RaftStorage σ] [SnapshotCodec] [HmacSha256]

section
variable (hs : LogSim h leader c)
include hs

theorem handleAppendEntriesReply (v : String) (clock : Clock)
    (draw : Nat) (peer : String) (reply : AppendEntriesReply) (sent : Nat) :
    NodeSim h leader v ((c.node v).handleAppendEntriesReply clock draw peer reply sent).core
      ((c.node v).handleAppendEntriesReply clock draw peer reply sent).roster := by
  have hn := hs.node v
  rcases handleAppendEntriesReply_core hn.snapshot hn.interval (hs.entries_numbered v)
    clock draw peer reply sent with
    ⟨hcore, hroster⟩ | ⟨hcore, hroster⟩ | ⟨c', -, -, -, -, hcore, -, hroster⟩ |
      ⟨draw', hcore, hroster⟩
  · rw [hcore, hroster]
    exact hn
  · rw [hcore, hroster]
    exact hn.adopt reply.term
  · rw [hcore, hroster (hs.entries_configFree v)]
    refine (hn.irrelevant _ c').with_roster fun q ni hq => ?_
    rcases (c.node v).recordSuccess_maps peer sent with hsame | ⟨x, -, hset⟩
    · rw [hsame] at hq
      exact hn.next q ni hq
    · rw [hset] at hq
      exact hn.next.insert (Nat.succ_pos _) hq
  · rw [hcore, hroster]
    refine hn.with_roster fun q ni hq => ?_
    rcases (c.node v).backOff_maps draw' peer with hsame | ⟨x, y, -, hy, -, hset⟩
    · rw [hsame] at hq
      exact hn.next q ni hq
    · rw [hset] at hq
      exact hn.next.insert hy hq

/-- A call that writes nothing keeps the history. -/
theorem step_same {e : ClusterEvent} (hrule : ReplicationRule c e)
    (hwrites : ¬ c.Writes e) : LogSim h leader (c.step e) := by
  cases e with
  | tryBecomeCandidate v draw =>
    refine hs.of_node rfl ?_ (fun x hx => .inl hx)
    rw [roster_tryBecomeCandidate]
    rcases (c.node v).core_tryBecomeCandidate draw with hcore | hcore
    · rw [hcore]
      exact hs.node v
    · rw [hcore]
      exact (hs.node v).later (by decide) (Nat.lt_succ_self _) _
  | requestVote v clock peer => exact { hs with node := hs.node, append := hs.append }
  | handleRequestVote v clock args =>
    exact hs.of_node rfl (hs.handleRequestVote v clock args) (fun x hx => .inl hx)
  | becomeLeader v => exact absurd trivial hwrites
  | submitCommand v clock command =>
    rcases submitCommand_core (hs.node v).snapshot (hs.entries_numbered v) clock command
      with ⟨-, hsame⟩ | ⟨hleads, -⟩
    · refine hs.of_node (v := v) (n := c.node v) ?_ (hs.node v) (fun x hx => .inl hx)
      simp only [Cluster.step, hsame, Cluster.set_node]
    · exact absurd hleads hwrites
  | prepareAppendEntries v clock peer => exact hs.of_sent (hs.prepareAppendEntries v clock peer)
  | replicateToAll v clock => exact hs.of_sent (hs.replicateToAll v clock)
  | handleAppendEntries v clock args =>
    refine hs.of_node (n := ((c.node v).handleAppendEntries clock args).2) rfl ?_
      (fun x hx => .inl (mem_of_mem_erase hx))
    obtain ⟨cache, m, rfl, ⟨hsame, -⟩ | ⟨hver, hterm, hafter, -⟩⟩ :=
      (c.node v).handleAppendEntries_core clock args
    · rw [hsame]
      exact hs.node v
    · rw [hafter]
      exact hs.acceptEntries rfl rfl hterm (hs.append _ (hrule hver)).2
  | handleAppendEntriesReply v clock draw peer args reply =>
    exact hs.of_node rfl (hs.handleAppendEntriesReply v clock draw peer reply _)
      (fun x hx => .inl hx)

/-! ## Calls that write -/

/-- A candidate becomes the leader of its term, which nobody has led. -/
theorem elect {v : String} (hcand : (c.node v).state = .candidate)
    (hfree : leader (c.node v).currentTerm = none) :
    LogSim (h.begin (c.node v).currentTerm (c.node v).log.entries)
      (update leader (c.node v).currentTerm (some v)) (c.step (.becomeLeader v)) := by
  have hn := hs.node v
  have hnew := hs.unled _ hfree
  have hwritten : ∀ p : List LogEntry → Prop, (∀ t, p (h.written t)) → p (c.node v).log.entries →
      ∀ t, p ((h.begin (c.node v).currentTerm (c.node v).log.entries).written t) :=
    fun p hold hown =>
      (forall_update_iff h.written fun _ l => p l).mpr ⟨hown, fun t _ => hold t⟩
  refine ⟨hs.valid.begin hnew hn.recorded (hn.candidate hcand), fun t ht => ?_,
    hwritten _ hs.numbered (hs.entries_numbered v),
    hwritten _ hs.configFree (hs.entries_configFree v),
    hwritten (fun l => ∀ e ∈ l, 0 < e.term) hs.term_pos (hs.entries_term_pos v),
    node_update ?_ (fun u hu => (hs.node u).begin hfree hnew hu), fun x hx => ?_⟩
  · have hne : t ≠ (c.node v).currentTerm := by
      rintro rfl
      rw [update_self] at ht
      cases ht
    rw [update_of_ne hne] at ht
    rw [History.begin_written_of_ne h hne]
    exact hs.unled t ht
  · refine { hn with
      recorded := hn.recorded.begin hnew, pos := fun _ => hn.pos ?_, candidate := nofun
      leads := fun _ => ⟨update_self .., History.begin_written_self ..⟩
      led := fun t ht => ?_, next := fun p x hx => ?_ }
    · change (c.node v).state ≠ _
      rw [hcand]
      decide
    · refine ⟨?_, fun _ => nofun⟩
      by_cases heq : t = (c.node v).currentTerm
      · exact Nat.le_of_eq heq
      · rw [update_of_ne heq] at ht
        exact (hn.led t ht).1
    · rw [becomeLeader_nextIndex hx]
      exact Nat.succ_pos _
  · obtain ⟨hled, hsent⟩ := hs.append x hx
    have hne : x.2.term ≠ (c.node v).currentTerm := by
      intro heq
      rw [heq, hfree] at hled
      cases hled
    rw [update_of_ne hne, History.begin_written_of_ne h hne]
    exact ⟨hled, hsent⟩

/-- A leader appends an entry of its term. -/
theorem submit {v : String} {clock : Clock} {command : RaftCommand}
    (hleads : (c.node v).state = .leader) (hcommand : command.isConfigChange = false) :
    LogSim (h.extend (c.node v).currentTerm ((c.node v).newEntry command)) leader
      (c.step (.submitCommand v clock command)) := by
  have hn := hs.node v
  obtain ⟨hled, hown⟩ := hn.leads hleads
  change leader (c.node v).currentTerm = some v at hled
  change h.written (c.node v).currentTerm = (c.node v).log.entries at hown
  have hvalid := hs.valid.extend (t := (c.node v).currentTerm)
    (e := (c.node v).newEntry command) rfl
  have hself : (h.extend (c.node v).currentTerm ((c.node v).newEntry command)).written
      (c.node v).currentTerm = (c.node v).log.entries ++ [(c.node v).newEntry command] := by
    rw [History.extend_written_self, hown]
  have hwritten : ∀ p : List LogEntry → Prop, (∀ t, p (h.written t)) →
      p ((c.node v).log.entries ++ [(c.node v).newEntry command]) →
      ∀ t, p ((h.extend (c.node v).currentTerm ((c.node v).newEntry command)).written t) := by
    intro p hold hnew
    rw [← hown] at hnew
    exact (forall_update_iff h.written fun _ l => p l).mpr ⟨hnew, fun t _ => hold t⟩
  have hfree : ConfigFree ((c.node v).log.entries ++ [(c.node v).newEntry command]) :=
    forall_mem_append.mpr ⟨hs.entries_configFree v, forall_mem_singleton.mpr hcommand⟩
  have hpos : 0 < (c.node v).currentTerm := hn.pos (by
    change (c.node v).state ≠ _
    rw [hleads]
    decide)
  have hterms : ∀ e ∈ (c.node v).log.entries ++ [(c.node v).newEntry command],
      0 < e.term ∧ e.term ≤ (c.node v).currentTerm :=
    forall_mem_append.mpr ⟨fun e he => ⟨hs.entries_term_pos v e he, hn.term_le e he⟩,
      forall_mem_singleton.mpr ⟨hpos, Nat.le_refl _⟩⟩
  refine ⟨hvalid, fun t ht => ?_,
    hwritten _ hs.numbered (newEntry_numbered (hs.entries_numbered v) command),
    hwritten _ hs.configFree hfree,
    hwritten (fun l => ∀ e ∈ l, 0 < e.term) hs.term_pos (fun e he => (hterms e he).1),
    node_update ?_ (fun u hu => (hs.node u).extend _ hled hu), fun x hx => ?_⟩
  · have hne : t ≠ (c.node v).currentTerm := by
      rintro rfl
      rw [hled] at ht
      cases ht
    rw [History.extend_written_of_ne h hne]
    exact hs.unled t ht
  · rcases submitCommand_core hn.snapshot (hs.entries_numbered v) clock command with
      ⟨hnot, -⟩ | ⟨-, m, c', hm, -, hcore, -, hroster⟩
    · exact absurd hleads hnot
    have hmfree : ConfigFree m.log.entries := by
      rw [hm]
      exact hfree
    rw [hroster hmfree, hcore, hm]
    exact { hn with
      recorded := hvalid.recorded_initial (t := (c.node v).currentTerm) (by
        rw [hself]
        exact prefix_rfl)
      term_le := fun e he => (hterms e he).2
      candidate := fun hc => by
        change (c.node v).state = _ at hc
        rw [hleads] at hc
        cases hc
      leads := fun _ => ⟨hled, hself⟩ }
  · obtain ⟨hsome, hproper | hbeyond⟩ := hs.append x hx
    · exact ⟨hsome, .inl (hproper.mono (h.written_initial_extend _ _ _))⟩
    · exact ⟨hsome, .inr hbeyond⟩

end

end LogSim

/-! ## Runs -/

namespace Cluster
variable {σ : Type}

/-- The node `v` leads term `t`. -/
def LeaderAt (c : Cluster σ) (v : String) (t : Nat) : Prop :=
  (c.node v).state = .leader ∧ (c.node v).currentTerm = t

variable [RaftStorage σ] [SnapshotCodec] [HmacSha256]

/-- At most one node is leader of a term, in the course of a run. -/
def OneLeader (c : Cluster σ) (events : List ClusterEvent) : Prop :=
  ∀ es fs, es <+: events → fs <+: events → ∀ t u v,
    (c.run es).LeaderAt u t → (c.run fs).LeaderAt v t → u = v

theorem OneLeader.initial {c : Cluster σ} {es fs : List ClusterEvent} (h : c.OneLeader fs)
    (hes : es <+: fs) : c.OneLeader es :=
  fun ds ds' hds hds' => h ds ds' (hds.trans hes) (hds'.trans hes)

/-- A state of the run has a history, whose leaders have led in the run. -/
def HasHistory (c : Cluster σ) (events : List ClusterEvent) (r : Cluster σ) : Prop :=
  ∃ h leader, LogSim h leader r ∧
    ∀ t v, leader t = some v → ∃ es, es <+: events ∧ (c.run es).LeaderAt v t

theorem HasHistory.step {c : Cluster σ} {es : List ClusterEvent} {e : ClusterEvent}
    (hr : c.HasHistory es (c.run es)) (hrule : ReplicationRule (c.run es) e)
    (hone : c.OneLeader (es ++ [e])) : c.HasHistory (es ++ [e]) (c.run (es ++ [e])) := by
  obtain ⟨h, leader, hs, hled⟩ := hr
  have hlast : c.run (es ++ [e]) = (c.run es).step e := run_snoc es e
  have hled' : ∀ t v, leader t = some v → ∃ fs, fs <+: es ++ [e] ∧ (c.run fs).LeaderAt v t := by
    intro t v hv
    obtain ⟨fs, hfs, hat⟩ := hled t v hv
    exact ⟨fs, hfs.trans (prefix_append _ _), hat⟩
  by_cases hwrites : (c.run es).Writes e
  swap
  · exact ⟨h, leader, hlast ▸ hs.step_same hrule hwrites, hled'⟩
  cases e with
  | becomeLeader v =>
    have hat : (c.run (es ++ [.becomeLeader v])).LeaderAt v ((c.run es).node v).currentTerm := by
      rw [hlast]
      unfold LeaderAt
      simp only [Cluster.step, set_node, update_self]
      exact ⟨rfl, rfl⟩
    have hfree : leader ((c.run es).node v).currentTerm = none := by
      rw [eq_none_iff_forall_ne_some]
      intro u hu
      obtain ⟨fs, hfs, hfat⟩ := hled' _ u hu
      obtain rfl := hone fs _ hfs prefix_rfl _ u v hfat hat
      exact ((hs.node u).led _ hu).2 rfl hrule
    refine ⟨_, _, hlast ▸ hs.elect hrule hfree, fun t u hu => ?_⟩
    by_cases ht : t = ((c.run es).node v).currentTerm
    · rw [ht, update_self] at hu
      obtain rfl := some.inj hu
      exact ⟨_, prefix_rfl, ht ▸ hat⟩
    · rw [update_of_ne ht] at hu
      exact hled' t u hu
  | submitCommand v clock command =>
    exact ⟨_, leader, hlast ▸ hs.submit hwrites hrule, hled'⟩
  | _ => exact hwrites.elim

/-- **Log matching**: two logs that hold entries of one index and term are identical at
every index up to it. -/
theorem logMatching {c : Cluster σ} (hc : c.IsFresh) {events : List ClusterEvent}
    (hrule : Along step ReplicationRule c events) (hone : c.OneLeader events) :
    ∀ u v, ∀ e ∈ ((c.run events).node u).log.entries, ∀ f ∈ ((c.run events).node v).log.entries,
      e.index = f.index → e.term = f.term → ∀ i ≤ e.index,
        ((c.run events).node u).log.get i = ((c.run events).node v).log.get i := by
  have hhistory : c.OneLeader events → c.HasHistory events (c.run events) :=
    induction_snoc (I := fun es r => c.OneLeader es → c.HasHistory es r)
      (fun _ => ⟨_, _, .init hc, nofun⟩)
      (fun es e ih _ he hone => (ih (hone.initial (prefix_append _ _))).step he hone) hrule
  obtain ⟨h, leader, hs, -⟩ := hhistory hone
  intro u v e he f hf hindex hterm i hi
  have hu := hs.entries_numbered u
  have hv := hs.entries_numbered v
  obtain ⟨k, hk⟩ := getElem?_of_mem he
  obtain ⟨j, hj⟩ := getElem?_of_mem hf
  have hek := hu k e hk
  have hfj := hv j f hj
  obtain rfl : k = j := by omega
  have htake := (hs.node u).recorded.matches hs.valid (hs.node v).recorded k e f hk hj hterm
  rw [RaftLog.get_of_numbered hu Nat.one_pos, RaftLog.get_of_numbered hv Nat.one_pos]
  split
  · have hik : i - 1 < k + 1 := by omega
    change ((c.run events).node u).log.entries.take (k + 1) = _ at htake
    rw [← getElem?_take_of_lt hik, htake, getElem?_take_of_lt hik]
    rfl
  · rfl

end Cluster

section Sample
attribute [local instance] noSnapshotCodec hmacSha256

/-- `n1` leads term 1 and brings two entries to `n2`. -/
def firstReplication : List ClusterEvent :=
  [.tryBecomeCandidate "n1" 0, .becomeLeader "n1",
    .submitCommand "n1" (sampleClock 900) (.keySync "k" [1]),
    .submitCommand "n1" (sampleClock 901) .noop,
    .prepareAppendEntries "n1" (sampleClock 1000) "n2",
    .handleAppendEntries "n2" (sampleClock 1001)
      (signedAppend 1 "n1" 0 0 [⟨1, 1, .keySync "k" [1]⟩, ⟨1, 2, .noop⟩] 0 1000)]

theorem firstReplication_rule : GuardedRun.Along Cluster.step ReplicationRule trio
    firstReplication := by
  unfold firstReplication
  rw [hmacSha256_eq]
  exact ⟨trivial, rfl, rfl, rfl, trivial, fun _ => by decide +kernel, trivial⟩

theorem firstReplication_oneLeader : trio.OneLeader firstReplication := by
  have hn2 : ∀ k, k < 7 →
      ((trio.run (firstReplication.take k)).node "n2").state ≠ .leader := by
    rw [hmacSha256_eq]
    decide +kernel
  have honly : ∀ es, es <+: firstReplication → ∀ t u, (trio.run es).LeaderAt u t → u = "n1" := by
    intro es hes t u hu
    by_contra hne
    have hlen := hes.length_le
    by_cases hu2 : u = "n2"
    · rw [prefix_iff_eq_take] at hes
      refine hn2 es.length (Nat.lt_succ_of_le hlen) ?_
      rw [← hes, ← hu2]
      exact hu.1
    · have hfresh : (trio.run es).node u = trio.node u := by
        refine Cluster.run_node_of_ne fun e he => ?_
        have hmem := hes.subset he
        simp only [firstReplication, mem_cons, not_mem_nil, or_false] at hmem
        rcases hmem with rfl | rfl | rfl | rfl | rfl | rfl <;> assumption
      have hleads := hu.1
      rw [hfresh] at hleads
      cases hleads
  intro es fs hes hfs t u v hu hv
  rw [honly es hes t u hu, honly fs hfs t v hv]

/-- Both logs hold the second entry, and so they agree on the first. -/
theorem logMatching_first_entry :
    ((trio.run firstReplication).node "n1").log.get 1 =
      ((trio.run firstReplication).node "n2").log.get 1 := by
  have hlogs : ⟨1, 2, .noop⟩ ∈ ((trio.run firstReplication).node "n1").log.entries ∧
      ⟨1, 2, .noop⟩ ∈ ((trio.run firstReplication).node "n2").log.entries := by
    rw [hmacSha256_eq]
    decide +kernel
  exact Cluster.logMatching trio_isFresh firstReplication_rule firstReplication_oneLeader "n1" "n2"
    ⟨1, 2, .noop⟩ hlogs.1 ⟨1, 2, .noop⟩ hlogs.2 rfl rfl 1 (by decide)

end Sample

end CratonHsm
