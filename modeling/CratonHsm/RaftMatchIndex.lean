import CratonHsm.RaftCluster

/-!
# A leader's knowledge of a follower

A leader and one follower, whose log only that leader writes.  `match_index` is meant to be
a lower bound on what the follower has confirmed.  The source rebuilds it from
`next_index` as it is when the reply arrives, so the bound needs a condition on each
success reply: `next_index` still points at the request answered, or the reply brings
nothing new (`ReplyCurrent`).

The follower's log is compared with the leader's present log, of which every request ever
sent carries a piece.
-/

namespace CratonHsm
open Std TermHistory GuardedRun RaftNode RaftLog Function List

/-- The last index that the request covers. -/
def AppendEntriesArgs.coverage (a : AppendEntriesArgs) : Nat := a.prevLogIndex + a.entries.length

/-- The largest index covered by requests of term `t`, 0 if there are none. -/
def covered (t : Nat) (requests : List AppendEntriesArgs) : Nat :=
  ((requests.filter (fun a => a.term = t)).map AppendEntriesArgs.coverage).max?.getD 0

theorem covered_cases (t : Nat) (requests : List AppendEntriesArgs) :
    covered t requests = 0 ∨ ∃ a ∈ requests, a.term = t ∧ covered t requests = a.coverage := by
  unfold covered
  cases h : ((requests.filter (fun a => a.term = t)).map AppendEntriesArgs.coverage).max? with
  | none => exact .inl rfl
  | some x =>
    obtain ⟨a, ha, heq⟩ := mem_map.mp (max?_mem h)
    obtain ⟨hmem, hterm⟩ := mem_filter.mp ha
    exact .inr ⟨a, hmem, of_decide_eq_true hterm, heq.symm⟩

theorem coverage_le_covered {requests : List AppendEntriesArgs} {a : AppendEntriesArgs}
    (h : a ∈ requests) : a.coverage ≤ covered a.term requests :=
  le_max?_getD_of_mem (mem_map_of_mem (mem_filter.mpr ⟨h, decide_eq_true rfl⟩))

theorem covered_le_append (t : Nat) (requests more : List AppendEntriesArgs) :
    covered t requests ≤ covered t (requests ++ more) := by
  rcases covered_cases t requests with h | ⟨a, ha, rfl, h⟩
  · rw [h]
    exact Nat.zero_le _
  · rw [h]
    exact coverage_le_covered (mem_append_left more ha)

namespace Cluster
variable {σ : Type} [RaftStorage σ] [SnapshotCodec] [HmacSha256]

/-- The request that `p` answers with success in this call, if there is one. -/
def confirms (c : Cluster σ) (p : String) : ClusterEvent → List AppendEntriesArgs
  | .handleAppendEntries v clock args =>
    if v = p ∧ ((c.node v).handleAppendEntries clock args).1.success = true then [args] else []
  | _ => []

/-- The requests that `p` answers with success in the course of a run. -/
def confirmed (p : String) (c : Cluster σ) : List ClusterEvent → List AppendEntriesArgs
  | [] => []
  | e :: es => c.confirms p e ++ (c.step e).confirmed p es

theorem confirmed_snoc (p : String) (c : Cluster σ) (es : List ClusterEvent) (e : ClusterEvent) :
    c.confirmed p (es ++ [e]) = c.confirmed p es ++ (c.run es).confirms p e := by
  induction es generalizing c with
  | nil => exact append_nil _
  | cons x es ih =>
    rw [cons_append, confirmed, ih, confirmed, append_assoc]
    rfl

/-- **The bookkeeping is sound**: what a leader believes of `p`, `p` has confirmed in the
leader's term, and the two logs agree so far. -/
def MatchSound (c : Cluster σ) (l p : String) (confirmed : List AppendEntriesArgs) : Prop :=
  (c.node l).state = .leader → ∀ m, (c.node l).matchIndex[p]? = some m →
    m ≤ covered (c.node l).currentTerm confirmed ∧
      ∀ i ≤ m, (c.node p).log.get i = (c.node l).log.get i

end Cluster

/-- The calls of a run of the leader `l` and the follower `p`: only `l` is ever made leader,
when it is a candidate, and only `p` takes its requests; messages are delivered as sent. -/
def PairRule {σ : Type} [HmacSha256] (l p : String) (c : Cluster σ) : ClusterEvent → Prop
  | .handleAppendEntries v clock args =>
    v = p ∧ (((c.node v).verifyAppendEntries clock args).1 = true → (v, args) ∈ c.appends)
  | .handleAppendEntriesReply v clock _ peer args reply =>
    v = l ∧ (((c.node v).verifyAppendEntriesReply clock reply).1 = true →
      (peer, args, reply) ∈ c.answers)
  | .becomeLeader v => v = l ∧ (c.node v).state = .candidate
  | .submitCommand v _ _ | .prepareAppendEntries v _ _ | .replicateToAll v _ => v = l
  | .tryBecomeCandidate v _ | .handleRequestVote v _ _ | .requestVote v _ _ => v = l ∨ v = p

/-- A leader that takes in a success reply has not moved `next_index` beyond the request
answered, which is of its term; or what it would record is no more than it knows. -/
def ReplyCurrent {σ : Type} [HmacSha256] (c : Cluster σ) : ClusterEvent → Prop
  | .handleAppendEntriesReply v clock _ peer args reply =>
    ((c.node v).verifyAppendEntriesReply clock reply).1 = true →
      reply.term ≤ (c.node v).currentTerm → reply.success = true → (c.node v).state = .leader →
      ∀ ni, (c.node v).nextIndex[peer]? = some ni →
        args.term = (c.node v).currentTerm ∧ ni ≤ args.prevLogIndex + 1 ∨
          ni + args.entries.length ≤ (c.node v).matchIndex[peer]?.getD 0 + 1
  | _ => True

instance decidableForallSome {α : Type} {P : α → Prop} [DecidablePred P] : (o : Option α) →
    Decidable (∀ a, o = some a → P a)
  | none => isTrue nofun
  | some a => decidable_of_iff (P a)
      ⟨fun h _ hb => Option.some.inj hb ▸ h, fun h => h a rfl⟩

instance {σ : Type} [HmacSha256] (c : Cluster σ) : (e : ClusterEvent) →
    Decidable (ReplyCurrent c e)
  | .handleAppendEntriesReply v clock _ peer args reply => inferInstanceAs (Decidable
      (((c.node v).verifyAppendEntriesReply clock reply).1 = true →
        reply.term ≤ (c.node v).currentTerm → reply.success = true →
        (c.node v).state = .leader → ∀ ni, (c.node v).nextIndex[peer]? = some ni →
          args.term = (c.node v).currentTerm ∧ ni ≤ args.prevLogIndex + 1 ∨
            ni + args.entries.length ≤ (c.node v).matchIndex[peer]?.getD 0 + 1))
  | .tryBecomeCandidate .. | .requestVote .. | .handleRequestVote .. | .becomeLeader ..
  | .submitCommand .. | .prepareAppendEntries .. | .replicateToAll ..
  | .handleAppendEntries .. => inferInstanceAs (Decidable True)

/-- Where a run of the pair starts: nothing is under way, the logs match, and the coming
leader is a follower in a term not before those of the other's entries. -/
structure PairStart {σ : Type} (l p : String) (c : Cluster σ) : Prop where
  snapshot : ∀ v, v = l ∨ v = p → (c.node v).lastSnapshotIndex = 0
  interval : ∀ v, v = l ∨ v = p → (c.node v).snapshotInterval = 0
  numbered : ∀ v, v = l ∨ v = p → Numbered 1 (c.node v).log.entries
  agree : Match LogEntry.term (c.node p).log.entries (c.node l).log.entries
  term_le : ∀ e ∈ (c.node p).log.entries, e.term ≤ (c.node l).currentTerm
  leader : (c.node l).state = .follower
  follower : (c.node p).state ≠ .leader
  appends : c.appends = []
  answers : c.answers = []

/-! ## The invariant -/

/-- The leader's side; `t₀` is its term at the start. -/
structure PairLeader (p : String) (t₀ : Nat) (confirmed : List AppendEntriesArgs)
    (k : NodeCore) (r : Roster) : Prop where
  snapshot : k.lastSnapshotIndex = 0
  interval : k.snapshotInterval = 0
  numbered : Numbered 1 k.entries
  term_le : t₀ ≤ k.currentTerm
  late : k.state ≠ .follower → t₀ < k.currentTerm
  next_pos : k.state = .leader → RaftNode.NextPos r
  next_le : k.state = .leader → ∀ ni, r.nextIndex[p]? = some ni → ni ≤ k.entries.length + 1
  matched : k.state = .leader → ∀ m, r.matchIndex[p]? = some m →
    m ≤ covered k.currentTerm confirmed

/-- The follower's side, against the leader's log `w`. -/
structure PairFollower (t₀ : Nat) (w : List LogEntry) (confirmed : List AppendEntriesArgs)
    (k : NodeCore) : Prop where
  snapshot : k.lastSnapshotIndex = 0
  interval : k.snapshotInterval = 0
  numbered : Numbered 1 k.entries
  not_leader : k.state ≠ .leader
  agree : Match LogEntry.term k.entries w
  tail : ∀ i e, k.entries[i]? = some e → w.length ≤ i → e.term ≤ t₀
  holds : ∀ a ∈ confirmed, a.coverage ≤ w.length ∧ w.take a.coverage <+: k.entries

/-- The leader and one follower, and what has been confirmed between them. -/
structure PairSim {σ : Type} (l p : String) (t₀ : Nat) (confirmed : List AppendEntriesArgs)
    (c : Cluster σ) : Prop where
  leader : PairLeader p t₀ confirmed (c.node l).core (c.node l).roster
  follower : PairFollower t₀ (c.node l).log.entries confirmed (c.node p).core
  appends : ∀ x ∈ c.appends, x.1 = p → Proper (c.node l).log.entries x.2
  answers : ∀ x ∈ c.answers, x.1 = p ∧ (x.2.2.success = true → x.2.1 ∈ confirmed)

namespace PairLeader
variable {p : String} {t₀ : Nat} {confirmed : List AppendEntriesArgs} {k : NodeCore} {r : Roster}

section Moves
variable (h : PairLeader p t₀ confirmed k r)
include h

theorem irrelevant (vote : Option String) (c : Nat) :
    PairLeader p t₀ confirmed { k with votedFor := vote, committed := c } r := { h with }

/-- Out of office, the maps may be anything. -/
theorem later {state : RaftState} {t : Nat} (hstate : state ≠ .leader) (hlt : k.currentTerm < t)
    (vote : Option String) :
    PairLeader p t₀ confirmed { k with state := state, currentTerm := t, votedFor := vote } r where
  snapshot := h.snapshot
  interval := h.interval
  numbered := h.numbered
  term_le := Nat.le_of_lt (Nat.lt_of_le_of_lt h.term_le hlt)
  late _ := Nat.lt_of_le_of_lt h.term_le hlt
  next_pos hl := absurd hl hstate
  next_le hl := absurd hl hstate
  matched hl := absurd hl hstate

theorem adopt (t : Nat) : PairLeader p t₀ confirmed (k.adopt t) r := by
  rcases k.adopt_cases t with ⟨hlt, heq⟩ | ⟨-, heq⟩
  · rw [heq]
    exact h.later (by decide) hlt none
  · rw [heq]
    exact h

theorem more (requests : List AppendEntriesArgs) : PairLeader p t₀ (confirmed ++ requests) k r :=
  { h with matched := fun hl m hm =>
      Nat.le_trans (h.matched hl m hm) (covered_le_append _ _ _) }

/-- The maps change; while in office, each entry of `p` is one that was there, or small. -/
theorem with_roster {r' : Roster} (hpos : k.state = .leader → RaftNode.NextPos r')
    (hnext : k.state = .leader → ∀ ni, r'.nextIndex[p]? = some ni → r.nextIndex[p]? = some ni ∨ ni
      ≤ k.entries.length + 1)
    (hmatch : k.state = .leader → ∀ m, r'.matchIndex[p]? = some m → r.matchIndex[p]? = some m ∨ m
      ≤ covered k.currentTerm confirmed) :
    PairLeader p t₀ confirmed k r' := by
  refine { h with next_pos := hpos, next_le := fun hl ni hni => ?_, matched := fun hl m hm => ?_ }
  · rcases hnext hl ni hni with hold | hsmall
    · exact h.next_le hl ni hold
    · exact hsmall
  · rcases hmatch hl m hm with hold | hsmall
    · exact h.matched hl m hold
    · exact hsmall

end Moves

/-- The maps are brought in line with the voters. -/
theorem resynced {σ : Type} {n : RaftNode σ} (h : PairLeader p t₀ confirmed k n.roster)
    (hr : n.Resynced r) (hlast : n.log.lastIndex = k.entries.length) :
    PairLeader p t₀ confirmed k r := by
  refine h.with_roster (fun hl q ni hq => ?_) (fun _ ni hni => ?_) (fun _ x hx => ?_)
  · rcases hr.next q ni hq with hold | hnew
    · exact h.next_pos hl q ni hold
    · omega
  · rcases hr.next p ni hni with hold | hnew
    · exact .inl hold
    · exact .inr (Nat.le_of_eq (hlast ▸ hnew))
  · rcases hr.matched p x hx with hold | hnew
    · exact .inl hold
    · exact .inr (hnew ▸ Nat.zero_le _)

end PairLeader

namespace PairFollower
variable {t₀ : Nat} {w : List LogEntry} {confirmed : List AppendEntriesArgs} {k : NodeCore}

section Moves
variable (h : PairFollower t₀ w confirmed k)
include h

theorem with_log {k' : NodeCore}
    (hlog : k'.entries = k.entries) (hsnap : k'.lastSnapshotIndex = k.lastSnapshotIndex)
    (hint : k'.snapshotInterval = k.snapshotInterval) (hstate : k'.state ≠ .leader) :
    PairFollower t₀ w confirmed k' where
  snapshot := hsnap.trans h.snapshot
  interval := hint.trans h.interval
  numbered := hlog ▸ h.numbered
  not_leader := hstate
  agree := hlog ▸ h.agree
  tail := hlog ▸ h.tail
  holds := hlog ▸ h.holds

theorem adopt (t : Nat) : PairFollower t₀ w confirmed (k.adopt t) := by
  rcases k.adopt_cases t with ⟨-, heq⟩ | ⟨-, heq⟩
  · rw [heq]
    exact h.with_log rfl rfl rfl nofun
  · rw [heq]
    exact h

/-- The leader appends an entry of a term after the start. -/
theorem extend {e : LogEntry} (he : t₀ < e.term) : PairFollower t₀ (w ++ [e]) confirmed k := by
  refine { h with agree := ?_, tail := fun i x hx hi => ?_, holds := fun a ha => ?_ }
  · intro i x y hx hy hterm
    rcases Nat.lt_trichotomy i w.length with hi | hi | hi
    · rw [getElem?_append_left hi] at hy
      rw [h.agree i x y hx hy hterm, take_append_of_le_length hi]
    · -- the new entry has a term that the follower's log does not reach
      rw [hi, getElem?_concat_length] at hy
      cases hy
      have := h.tail i x hx (Nat.le_of_eq hi.symm)
      omega
    · rw [getElem?_eq_none (by simp; omega)] at hy
      cases hy
  · rw [length_append] at hi
    exact h.tail i x hx (by omega)
  · obtain ⟨hle, hheld⟩ := h.holds a ha
    rw [length_append, take_append_of_le_length hle]
    exact ⟨by omega, hheld⟩

/-- The follower takes in a request. -/
theorem follow (hw : Numbered 1 w) {l' : List LogEntry}
    (hf : Follows k.entries w l' k.committed) {t c : Nat} :
    PairFollower t₀ w confirmed { k.concede t with entries := l', committed := c } where
  snapshot := h.snapshot
  interval := h.interval
  numbered := hf.numbered h.numbered hw
  not_leader hl := by cases hl
  agree := by
    rcases hf.source with hs | hs
    · exact h.agree.prefix_left hs
    · exact .of_initial hs
  tail i e he hi := by
    obtain ⟨hlt, -⟩ := List.getElem?_eq_some_iff.mp he
    rcases hf.source with hs | hs
    · exact h.tail i e ((getElem?_initial hs hlt).trans he) hi
    · have := hs.length_le
      dsimp only at hlt
      omega
  holds a ha := ⟨(h.holds a ha).1, hf.keep _ (h.holds a ha).2 (List.take_prefix _ _)⟩

end Moves

end PairFollower

namespace PairSim
variable {σ : Type} {l p : String} {t₀ : Nat} {confirmed : List AppendEntriesArgs}
  {c c' : Cluster σ} {args : AppendEntriesArgs}

section Kept
variable (h : PairSim l p t₀ confirmed c)
include h

/-- The leader moves, and keeps its log. -/
theorem of_leader (hne : l ≠ p) {n : RaftNode σ}
    (hnode : c'.node = update c.node l n)
    (hn : PairLeader p t₀ confirmed n.core n.roster)
    (hentries : n.log.entries = (c.node l).log.entries)
    (happ : ∀ x ∈ c'.appends, x ∈ c.appends ∨ (x.1 = p → Proper n.log.entries x.2))
    (hans : ∀ x ∈ c'.answers, x ∈ c.answers) : PairSim l p t₀ confirmed c' := by
  have hl : c'.node l = n := by rw [hnode, update_self]
  have hp : c'.node p = c.node p := by rw [hnode, update_of_ne hne.symm]
  refine ⟨hl ▸ hn, ?_, fun x hx hxp => ?_, fun x hx => h.answers x (hans x hx)⟩
  · rw [hl, hp, hentries]
    exact h.follower
  rw [hl]
  rcases happ x hx with hold | hnew
  · rw [hentries]
    exact h.appends x hold hxp
  · exact hnew hxp

/-- The follower moves. -/
theorem of_follower (hne : l ≠ p) {n : RaftNode σ}
    (hnode : c'.node = update c.node p n)
    (hn : PairFollower t₀ (c.node l).log.entries confirmed n.core)
    (happ : ∀ x ∈ c'.appends, x ∈ c.appends) (hans : ∀ x ∈ c'.answers, x ∈ c.answers) :
    PairSim l p t₀ confirmed c' := by
  have hp : c'.node p = n := by rw [hnode, update_self]
  have hl : c'.node l = c.node l := by rw [hnode, update_of_ne hne]
  refine ⟨hl ▸ h.leader, ?_, fun x hx => ?_, fun x hx => h.answers x (hans x hx)⟩
  · rw [hl, hp]
    exact hn
  · rw [hl]
    exact h.appends x (happ x hx)

/-- A confirmation is within the leader's log. -/
theorem covered_le (t : Nat) : covered t confirmed ≤ (c.node l).log.entries.length := by
  rcases covered_cases t confirmed with h0 | ⟨a, ha, -, heq⟩
  · rw [h0]
    exact Nat.zero_le _
  · rw [heq]
    exact (h.follower.holds a ha).1

theorem becomeLeader (hne : l ≠ p)
    (hcand : (c.node l).state = .candidate) :
    PairSim l p t₀ confirmed (c.set l (c.node l).becomeLeader) := by
  have hlen := lastIndex_eq_length (l := (c.node l).log) h.leader.numbered
  refine h.of_leader hne rfl ?_ rfl (fun x hx => .inl hx) (fun x hx => hx)
  refine { h.leader with
    late := fun _ => h.leader.late ?_, next_pos := fun _ q ni hq => ?_
    next_le := fun _ ni hni => ?_, matched := fun _ m hm => ?_ }
  · change (c.node l).state ≠ _
    rw [hcand]
    decide
  · rw [becomeLeader_nextIndex hq]
    exact Nat.succ_pos _
  · rw [becomeLeader_nextIndex hni]
    change _ ≤ (c.node l).log.entries.length + 1
    omega
  · rw [becomeLeader_matchIndex hm]
    exact Nat.zero_le _

/-- What the leader sends to `p` is a piece of its log. -/
theorem sends {q : String}
    (hsend : (c.node l).Sends q args) (hq : q = p) : Proper (c.node l).log.entries args := by
  obtain ⟨ni, hni, -, ⟨-, hproper⟩ | ⟨hlt, -⟩⟩ := hsend.next
  · exact hproper
  · have hle := h.leader.next_le hsend.leads ni (hq ▸ hni)
    change ni ≤ (c.node l).log.entries.length + 1 at hle
    omega

theorem of_sent (hne : l ≠ p) (hsent : c.Sent l c') : PairSim l p t₀ confirmed c' := by
  obtain ⟨n, messages, hsends, hcore, hroster⟩ := hsent
  have hentries : n.log.entries = (c.node l).log.entries := congrArg NodeCore.entries hcore
  refine h.of_leader hne rfl ?_ hentries (fun x hx => ?_) (fun x hx => hx)
  · rw [hcore, hroster]
    exact h.leader
  rcases mem_append.mp hx with hold | hnew
  · exact .inl hold
  · rw [hentries]
    exact .inr (h.sends (hsends x hnew))

/-- The bookkeeping of a success reply that meets the condition. -/
theorem recordSuccess {peer : String} (hcurrent : (c.node l).state = .leader →
      ∀ ni, (c.node l).nextIndex[peer]? = some ni →
        args.term = (c.node l).currentTerm ∧ ni ≤ args.prevLogIndex + 1 ∨
        ni + args.entries.length ≤ (c.node l).matchIndex[peer]?.getD 0 + 1)
    (hpeer : peer = p) (hconfirmed : args ∈ confirmed) :
    PairLeader p t₀ confirmed (c.node l).core
      ((c.node l).recordSuccess peer args.entries.length).roster := by
  have hn := h.leader
  rcases (c.node l).recordSuccess_maps peer args.entries.length with
    hsame | ⟨ni, hni, hset⟩
  · rw [hsame]
    exact hn
  -- the new match index is covered by a confirmed request
  have hbound : (c.node l).state = .leader →
      ni - 1 + args.entries.length ≤ covered (c.node l).currentTerm confirmed := by
    intro hleads
    rcases hcurrent hleads ni hni with ⟨hterm, hle⟩ | hle
    · have hcov := coverage_le_covered hconfirmed
      rw [hterm] at hcov
      unfold AppendEntriesArgs.coverage at hcov
      omega
    · have hpos := hn.next_pos hleads peer ni hni
      have hold : (c.node l).matchIndex[peer]?.getD 0 ≤
          covered (c.node l).currentTerm confirmed := by
        rw [hpeer]
        cases hm : (c.node l).matchIndex[p]? with
        | none => exact Nat.zero_le _
        | some m => exact hn.matched hleads m hm
      omega
  have hlen := h.covered_le (c.node l).currentTerm
  refine hn.with_roster (fun hl q x hq => ?_) (fun hl x hx => ?_) (fun hl m hm => ?_)
  · rw [hset] at hq
    exact (hn.next_pos hl).insert (Nat.succ_pos _) hq
  · rw [hset] at hx
    rcases insert_getElem? hx with ⟨-, rfl⟩ | hold
    · have := hbound hl
      exact .inr (by change _ ≤ (c.node l).log.entries.length + 1; omega)
    · exact .inl hold
  · rw [hset] at hm
    rcases insert_getElem? hm with ⟨-, rfl⟩ | hold
    · exact .inr (hbound hl)
    · exact .inl hold

end Kept

theorem start (hc : PairStart l p c) : PairSim l p (c.node l).currentTerm [] c := by
  have hlead : ∀ {P : Prop}, (c.node l).core.state = .leader → P := by
    intro P hl
    rw [show (c.node l).core.state = _ from hc.leader] at hl
    cases hl
  refine ⟨⟨hc.snapshot l (.inl rfl), hc.interval l (.inl rfl), hc.numbered l (.inl rfl),
      Nat.le_refl _, fun hne => absurd hc.leader hne, hlead, hlead, hlead⟩,
    ⟨hc.snapshot p (.inr rfl), hc.interval p (.inr rfl), hc.numbered p (.inr rfl), hc.follower,
      hc.agree, fun i e he _ => hc.term_le e (mem_of_getElem? he), nofun⟩,
    fun x hx => ?_, fun x hx => ?_⟩
  · rw [hc.appends] at hx
    cases hx
  · rw [hc.answers] at hx
    cases hx

theorem matchSound (h : PairSim l p t₀ confirmed c) : c.MatchSound l p confirmed := by
  intro hleads m hm
  have hle : m ≤ covered (c.node l).currentTerm confirmed := h.leader.matched hleads m hm
  refine ⟨hle, fun i hi => ?_⟩
  rw [get_of_numbered (b := 1) h.follower.numbered Nat.one_pos,
    get_of_numbered (b := 1) h.leader.numbered Nat.one_pos]
  split
  swap
  · rfl
  -- the follower holds what covers the match index
  rcases covered_cases (c.node l).currentTerm confirmed with h0 | ⟨a, ha, -, heq⟩
  · omega
  obtain ⟨hlen, hheld⟩ := h.follower.holds a ha
  have hlt : i - 1 < a.coverage := by omega
  have hget := getElem?_initial hheld (i := i - 1) (by rw [length_take]; omega)
  rw [getElem?_take_of_lt hlt] at hget
  exact hget

variable [RaftStorage σ]

theorem tryBecomeCandidate (h : PairSim l p t₀ confirmed c) (hne : l ≠ p) {v : String}
    (hv : v = l ∨ v = p) (draw : Nat) :
    PairSim l p t₀ confirmed
      (c.set v (((c.node v).tryBecomeCandidate draw).getD (c.node v))) := by
  have hcore := (c.node v).core_tryBecomeCandidate draw
  have hroster := (c.node v).roster_tryBecomeCandidate draw
  rcases hv with rfl | rfl
  · refine h.of_leader hne rfl ?_ ?_ (fun x hx => .inl hx) (fun x hx => hx)
    · rw [hroster]
      rcases hcore with hc | hc
      · rw [hc]
        exact h.leader
      · rw [hc]
        exact h.leader.later (by decide) (Nat.lt_succ_self _) _
    · rcases hcore with hc | hc
      · exact congrArg NodeCore.entries hc
      · exact congrArg NodeCore.entries hc
  · refine h.of_follower hne rfl ?_ (fun x hx => hx) (fun x hx => hx)
    rcases hcore with hc | hc
    · rw [hc]
      exact h.follower
    · rw [hc]
      exact h.follower.with_log rfl rfl rfl nofun

theorem submitCommand (h : PairSim l p t₀ confirmed c) (hne : l ≠ p) (clock : Clock)
    (command : RaftCommand) :
    PairSim l p t₀ confirmed (c.set l ((c.node l).submitCommand clock command).2) := by
  have hn := h.leader
  rcases submitCommand_core hn.snapshot hn.numbered clock command with
    ⟨-, hsame⟩ | ⟨hleads, m, c', hm, -, hcore, hresync, -⟩
  · rw [hsame]
    exact h.of_leader hne rfl hn rfl (fun x hx => .inl hx) (fun x hx => hx)
  -- the log grows, so both sides and the requests under way are rebuilt
  have hterm : t₀ < ((c.node l).newEntry command).term := hn.late (by
    change (c.node l).state ≠ _
    rw [hleads]
    decide)
  have hentries : ((c.node l).submitCommand clock command).2.log.entries =
      (c.node l).log.entries ++ [(c.node l).newEntry command] := by
    refine (congrArg NodeCore.entries hcore).trans ?_
    rw [hm]
    rfl
  have hnum := newEntry_numbered (n := c.node l) hn.numbered command
  have hl : (c.set l ((c.node l).submitCommand clock command).2).node l =
      ((c.node l).submitCommand clock command).2 := update_self ..
  have hp : (c.set l ((c.node l).submitCommand clock command).2).node p = c.node p :=
    update_of_ne hne.symm _ _
  refine ⟨?_, ?_, fun x hx hxp => ?_, h.answers⟩
  · have hbase : PairLeader p t₀ confirmed { m.core with committed := c' } m.roster := by
      rw [hm]
      refine { hn with numbered := hnum, next_le := fun hs ni hni => ?_ }
      have := hn.next_le hs ni hni
      change ni ≤ (c.node l).log.entries.length + 1 at this
      change ni ≤ ((c.node l).log.entries ++ [_]).length + 1
      rw [length_append]
      omega
    rw [hl, hcore]
    exact hbase.resynced hresync (lastIndex_eq_length (by rw [hm]; exact hnum))
  · rw [hl, hp, hentries]
    exact h.follower.extend hterm
  · rw [hl, hentries]
    exact (h.appends x hx hxp).mono (prefix_append _ _)

variable [HmacSha256]

theorem handleRequestVote (h : PairSim l p t₀ confirmed c) (hne : l ≠ p) {v : String}
    (hv : v = l ∨ v = p) (clock : Clock) (args : RequestVoteArgs)
    (hnode : c'.node = update c.node v ((c.node v).handleRequestVote clock args).2)
    (happ : c'.appends = c.appends) (hans : c'.answers = c.answers) :
    PairSim l p t₀ confirmed c' := by
  have hroster := (c.node v).roster_handleRequestVote clock args
  have hcore : ((c.node v).handleRequestVote clock args).2.core = (c.node v).core ∨
      ∃ vote, ((c.node v).handleRequestVote clock args).2.core =
        { (c.node v).core.adopt args.term with votedFor := vote } := by
    rcases (c.node v).handleRequestVote_core clock args with ⟨hc, -⟩ | ⟨-, hcast, -⟩
    · exact .inl hc
    · exact .inr hcast.adopted
  rcases hv with rfl | rfl
  · refine h.of_leader hne hnode ?_ ?_ (fun x hx => .inl (happ ▸ hx)) (fun x hx => hans ▸ hx)
    · rw [hroster]
      rcases hcore with hc | ⟨vote, hc⟩
      · rw [hc]
        exact h.leader
      · rw [hc]
        exact (h.leader.adopt _).irrelevant _ _
    · rcases hcore with hc | ⟨vote, hc⟩
      · exact congrArg NodeCore.entries hc
      · exact (congrArg NodeCore.entries hc).trans (NodeCore.adopt_entries _ _)
  · refine h.of_follower hne hnode ?_ (fun x hx => happ ▸ hx) (fun x hx => hans ▸ hx)
    rcases hcore with hc | ⟨vote, hc⟩
    · rw [hc]
      exact h.follower
    · rw [hc]
      exact (h.follower.adopt _).with_log rfl rfl rfl (h.follower.adopt _).not_leader

variable [SnapshotCodec] {args : AppendEntriesArgs}

section
variable (h : PairSim l p t₀ confirmed c)
include h

/-- The follower takes in a request, and confirms it or not. -/
theorem handleAppendEntries (hne : l ≠ p) {clock : Clock}
    (hsent : ((c.node p).verifyAppendEntries clock args).1 = true → (p, args) ∈ c.appends) :
    PairSim l p t₀ (confirmed ++ c.confirms p (.handleAppendEntries p clock args))
      (c.step (.handleAppendEntries p clock args)) := by
  have hn := h.follower
  have hw := h.leader.numbered
  have hnode : (c.step (.handleAppendEntries p clock args)).node =
      update c.node p ((c.node p).handleAppendEntries clock args).2 := rfl
  have hp : (c.step (.handleAppendEntries p clock args)).node p =
      ((c.node p).handleAppendEntries clock args).2 := update_self ..
  have hl : (c.step (.handleAppendEntries p clock args)).node l = c.node l := update_of_ne hne _ _
  have hconfirms : c.confirms p (.handleAppendEntries p clock args) =
      if ((c.node p).handleAppendEntries clock args).1.success = true then [args] else [] := by
    simp only [Cluster.confirms, true_and]
  -- the follower's side, with what it confirms
  have hfollower : PairFollower t₀ (c.node l).log.entries
      (confirmed ++ c.confirms p (.handleAppendEntries p clock args))
      ((c.node p).handleAppendEntries clock args).2.core := by
    rw [hconfirms]
    obtain ⟨cache, m, hm, ⟨hsame, hfail⟩ | ⟨hver, hterm, hafter, hsuccess⟩⟩ :=
      (c.node p).handleAppendEntries_core clock args
    · rw [hfail, if_neg Bool.false_ne_true, append_nil, hsame, hm]
      exact hn
    have hproper := h.appends _ (hsent hver) rfl
    obtain ⟨l', c', hcore, hacc⟩ := acceptEntries_accepted
      (show m.core = (c.node p).core by rw [hm]; rfl) hn.snapshot hn.interval hn.numbered hw
      hn.agree hproper clock hterm
    rw [hafter, hsuccess, hcore]
    have hnew := hn.follow hw hacc.follows (t := args.term) (c := c')
    refine { hnew with holds := fun a ha => ?_ }
    rcases mem_append.mp ha with hold | hnow
    · exact hnew.holds a hold
    split at hnow
    · rename_i htrue
      rw [mem_singleton.mp hnow]
      exact ⟨hproper.end_le, hacc.covers htrue⟩
    · cases hnow
  refine ⟨?_, ?_, fun x hx hxp => ?_, fun x hx => ?_⟩
  · rw [hl]
    exact h.leader.more _
  · rw [hl, hp]
    exact hfollower
  · rw [hl]
    exact h.appends x (mem_of_mem_erase hx) hxp
  · rcases mem_append.mp hx with hold | hnew
    · obtain ⟨hxp, hmem⟩ := h.answers x hold
      exact ⟨hxp, fun hs => mem_append_left _ (hmem hs)⟩
    rw [mem_singleton.mp hnew]
    refine ⟨rfl, fun hs => mem_append_right _ ?_⟩
    rw [hconfirms, if_pos (by rwa [signAppendEntriesReply_success] at hs)]
    exact mem_singleton_self _

/-- The leader takes in a reply that meets the condition. -/
theorem handleAppendEntriesReply (hne : l ≠ p) {clock : Clock}
    {draw : Nat} {peer : String} {reply : AppendEntriesReply}
    (hsent : ((c.node l).verifyAppendEntriesReply clock reply).1 = true → (peer, args, reply) ∈
      c.answers)
    (hcurrent : ReplyCurrent c (.handleAppendEntriesReply l clock draw peer args reply)) :
    PairSim l p t₀ confirmed (c.step (.handleAppendEntriesReply l clock draw peer args reply)) := by
  have hn := h.leader
  have hout := handleAppendEntriesReply_core hn.snapshot hn.interval hn.numbered clock draw
    peer reply args.entries.length
  have hleader : PairLeader p t₀ confirmed
      ((c.node l).handleAppendEntriesReply clock draw peer reply args.entries.length).core
      ((c.node l).handleAppendEntriesReply clock draw peer reply args.entries.length).roster := by
    rcases hout with ⟨hcore, hroster⟩ | ⟨hcore, hroster⟩ |
      ⟨c', hver, hle, hs, -, hcore, hresync, -⟩ | ⟨draw', hcore, hroster⟩
    · rw [hcore, hroster]
      exact hn
    · rw [hcore, hroster]
      exact hn.adopt reply.term
    · rw [hcore]
      obtain ⟨hpeer, hconfirmed⟩ := h.answers _ (hsent hver)
      have hrec := h.recordSuccess (fun hleads => hcurrent hver hle hs hleads) hpeer
        (hconfirmed hs)
      have hlast : ((c.node l).recordSuccess peer args.entries.length).log.lastIndex =
          (c.node l).log.entries.length := by
        rw [lastIndex_congr (congrArg NodeCore.entries
          ((c.node l).core_recordSuccess peer args.entries.length))]
        exact lastIndex_eq_length hn.numbered
      exact (hrec.irrelevant _ c').resynced hresync hlast
    · rw [hcore, hroster]
      rcases (c.node l).backOff_maps draw' peer with hsame | ⟨x, y, hx, hy, hyx, hset⟩
      · rw [hsame]
        exact hn
      rw [hset]
      refine hn.with_roster (fun hl q ni hq => (hn.next_pos hl).insert hy hq)
        (fun hl ni hni => ?_) (fun _ m hm => .inl hm)
      rcases insert_getElem? hni with ⟨rfl, rfl⟩ | hold
      · exact .inr (Nat.le_trans hyx (hn.next_le hl x hx))
      · exact .inl hold
  refine h.of_leader hne rfl hleader ?_ (fun x hx => .inl hx)
    (fun x hx => mem_of_mem_erase hx)
  rcases hout with ⟨hcore, -⟩ | ⟨hcore, -⟩ | ⟨c', -, -, -, -, hcore, -, -⟩ | ⟨draw', hcore, -⟩
  · exact congrArg NodeCore.entries hcore
  · exact (congrArg NodeCore.entries hcore).trans (NodeCore.adopt_entries _ _)
  · exact congrArg NodeCore.entries hcore
  · exact congrArg NodeCore.entries hcore

theorem step (hne : l ≠ p) {e : ClusterEvent}
    (hrule : PairRule l p c e) (hcurrent : ReplyCurrent c e) :
    PairSim l p t₀ (confirmed ++ c.confirms p e) (c.step e) := by
  have hquiet : ∀ {c' : Cluster σ}, PairSim l p t₀ confirmed c' →
      PairSim l p t₀ (confirmed ++ []) c' := fun h' =>
    (append_nil confirmed).symm ▸ h'
  cases e with
  | handleAppendEntries v clock args =>
    obtain ⟨rfl, hsent⟩ := hrule
    exact h.handleAppendEntries hne hsent
  | handleAppendEntriesReply v clock draw peer args reply =>
    obtain ⟨rfl, hsent⟩ := hrule
    exact hquiet (h.handleAppendEntriesReply hne hsent hcurrent)
  | becomeLeader v =>
    obtain ⟨rfl, hcand⟩ := hrule
    exact hquiet (h.becomeLeader hne hcand)
  | submitCommand v clock command =>
    obtain rfl := hrule
    exact hquiet (h.submitCommand hne clock command)
  | prepareAppendEntries v clock peer =>
    obtain rfl := hrule
    exact hquiet (h.of_sent hne (Cluster.sent_prepareAppendEntries
      h.leader.snapshot h.leader.numbered h.leader.next_pos clock peer))
  | replicateToAll v clock =>
    obtain rfl := hrule
    exact hquiet (h.of_sent hne (Cluster.sent_replicateToAll
      h.leader.snapshot h.leader.numbered h.leader.next_pos clock))
  | tryBecomeCandidate v draw =>
    exact hquiet (h.tryBecomeCandidate hne hrule draw)
  | handleRequestVote v clock args =>
    exact hquiet (h.handleRequestVote hne hrule clock args rfl rfl rfl)
  | requestVote v clock peer =>
    exact hquiet ⟨h.leader, h.follower, h.appends, h.answers⟩

end

end PairSim

namespace Cluster
variable {σ : Type} [RaftStorage σ] [SnapshotCodec] [HmacSha256]

/-- **The match index is sound** after every run of a leader and a follower whose success
replies all meet `ReplyCurrent`. -/
theorem matchSound_run {l p : String} (hne : l ≠ p) {c : Cluster σ} (hc : PairStart l p c)
    {events : List ClusterEvent}
    (h : Along step (fun c e => PairRule l p c e ∧ ReplyCurrent c e) c events) :
    (c.run events).MatchSound l p (c.confirmed p events) := by
  have hsim : PairSim l p (c.node l).currentTerm (c.confirmed p events) (c.run events) := by
    refine induction_snoc (I := fun es r => PairSim l p (c.node l).currentTerm (c.confirmed p es) r)
      (PairSim.start hc) (fun es e ih _ he => ?_) h
    rw [confirmed_snoc, run_snoc]
    exact ih.step hne he.1 he.2
  exact hsim.matchSound

end Cluster

section Sample
attribute [local instance] noSnapshotCodec hmacSha256

theorem trio_pairStart : PairStart "n1" "n2" trio :=
  ⟨fun _ _ => rfl, fun _ _ => rfl, fun _ _ => .nil 1, fun _ _ _ h => (by cases h), nofun, rfl,
    nofun, rfl, rfl⟩

/-- The reply with which `n2` confirms a request of term 1. -/
def confirmation (timestampMs : Nat) : AppendEntriesReply := signedSuccess 1 timestampMs

/-- `n1` leads term 1 and brings its first entry to `n2`, who confirms it. -/
def firstConfirmation : List ClusterEvent :=
  [.tryBecomeCandidate "n1" 0, .becomeLeader "n1", .submitCommand "n1" (sampleClock 900) .noop,
    .prepareAppendEntries "n1" (sampleClock 1000) "n2",
    .handleAppendEntries "n2" (sampleClock 1001) (firstAppend 1000),
    .handleAppendEntriesReply "n1" (sampleClock 1002) 0 "n2" (firstAppend 1000)
      (confirmation 1001)]

theorem matchSound_first_confirmation :
    (trio.run firstConfirmation).MatchSound "n1" "n2" (trio.confirmed "n2" firstConfirmation) := by
  refine Cluster.matchSound_run (by decide) trio_pairStart ?_
  unfold firstConfirmation confirmation
  rw [hmacSha256_eq]
  refine ⟨⟨.inl rfl, trivial⟩, ⟨⟨rfl, rfl⟩, trivial⟩, ⟨rfl, trivial⟩, ⟨rfl, trivial⟩,
    ⟨⟨rfl, fun _ => by decide +kernel⟩, trivial⟩, ⟨⟨rfl, fun _ => by decide +kernel⟩, ?_⟩,
    trivial⟩
  -- the next index of `n2` is still 1
  intro _ _ _ _ ni hni
  have hnext : ni = 1 := by
    refine Option.some.inj (hni.symm.trans ?_)
    decide +kernel
  subst hnext
  exact .inl ⟨by decide +kernel, Nat.le_refl 1⟩

/-- `n1` sends its first entry to `n2` twice before the first reply arrives. -/
def overlappingRequests : List ClusterEvent :=
  [.tryBecomeCandidate "n1" 0, .becomeLeader "n1", .submitCommand "n1" (sampleClock 900) .noop,
    .prepareAppendEntries "n1" (sampleClock 1000) "n2",
    .prepareAppendEntries "n1" (sampleClock 1001) "n2",
    .handleAppendEntries "n2" (sampleClock 1002) (firstAppend 1000),
    .handleAppendEntries "n2" (sampleClock 1003) (firstAppend 1001),
    .handleAppendEntriesReply "n1" (sampleClock 1004) 0 "n2" (firstAppend 1000)
      (confirmation 1002),
    .handleAppendEntriesReply "n1" (sampleClock 1005) 0 "n2" (firstAppend 1001)
      (confirmation 1003)]

/-- The second reply moves the match index beyond the log of `n2`. -/
theorem matchIndex_overshoots :
    ¬ ∀ [SnapshotCodec] [HmacSha256] (l p : String) (c : Cluster InMemoryStorage)
      (events : List ClusterEvent), l ≠ p → PairStart l p c →
      GuardedRun.Along Cluster.step (PairRule l p) c events →
      (c.run events).MatchSound l p (c.confirmed p events) := by
  intro h
  have hrule : GuardedRun.Along Cluster.step (PairRule "n1" "n2") trio overlappingRequests := by
    unfold overlappingRequests confirmation
    rw [hmacSha256_eq]
    exact ⟨.inl rfl, ⟨rfl, rfl⟩, rfl, rfl, rfl, ⟨rfl, fun _ => by decide +kernel⟩,
      ⟨rfl, fun _ => by decide +kernel⟩, ⟨rfl, fun _ => by decide +kernel⟩,
      ⟨rfl, fun _ => by decide +kernel⟩, trivial⟩
  have hend : ((trio.run overlappingRequests).node "n1").state = .leader ∧
      ((trio.run overlappingRequests).node "n1").matchIndex["n2"]? = some 2 ∧
      covered ((trio.run overlappingRequests).node "n1").currentTerm
        (trio.confirmed "n2" overlappingRequests) = 1 := by
    unfold overlappingRequests confirmation
    rw [hmacSha256_eq]
    decide +kernel
  obtain ⟨hleads, hmatch, hcovered⟩ := hend
  have := (h "n1" "n2" trio overlappingRequests (by decide) trio_pairStart hrule hleads 2 hmatch).1
  omega

end Sample

end CratonHsm
