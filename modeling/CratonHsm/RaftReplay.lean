import CratonHsm.GuardedRun
import CratonHsm.RaftVerify
import Mathlib.Data.List.Nodup
import Mathlib.Data.List.TakeWhile

/-!
# Replayed requests

Runs of the three verifications that share the replay cache.  The freshness window is
measured from the sender's timestamp, the stay in the cache from the receiver's clock at
the insertion.  A request is accepted once only if the first ends before the second, which
is so when the timestamp lies strictly before the clock at the insertion (`Stamped`).
-/

namespace CratonHsm
open GuardedRun List

/-- The requests that pass through the replay cache. -/
inductive SignedRequest where
  | requestVote (args : RequestVoteArgs)
  | appendEntries (args : AppendEntriesArgs)
  | installSnapshot (args : InstallSnapshotArgs)

namespace SignedRequest

/-- The MAC of a request. -/
def hmac : SignedRequest → Option Mac
  | requestVote a => a.hmac
  | appendEntries a => a.hmac
  | installSnapshot a => a.hmac

/-- When a request was signed. -/
def timestampMs : SignedRequest → Nat
  | requestVote a => a.timestampMs
  | appendEntries a => a.timestampMs
  | installSnapshot a => a.timestampMs

end SignedRequest

/-! ## What one insertion does to the cache -/

namespace ReplayCache
variable {c : ReplayCache} {mac m : Mac} {now maxAge : Nat}

theorem checkAndInsert_seen {t : Nat} (h : c.seen mac = some t) :
    c.checkAndInsert mac now maxAge = (true, c) := by
  simp only [checkAndInsert, h]

/-- The loop that enforces the hard cap: what it removes, and what stays. -/
def capLoop : List (Nat × Mac) → List (Nat × Mac) × List (Nat × Mac)
  | [] => ([], [])
  | p :: rest =>
    if replayCachePerShardMax < rest.length + 1 then (p :: (capLoop rest).1, (capLoop rest).2)
    else ([], p :: rest)

theorem capLoop_eq (order : List (Nat × Mac)) :
    capLoop order = (order.take (order.length - replayCachePerShardMax),
      order.drop (order.length - replayCachePerShardMax)) := by
  induction order with
  | nil => rfl
  | cons p rest ih =>
    rw [capLoop, ih, length_cons]
    split
    · rw [Nat.sub_add_comm (by omega), take_succ_cons, drop_succ_cons]
    · rw [Nat.sub_eq_zero_of_le (by omega), take_zero, drop_zero]

/-- What the cap loop of a call removes. -/
def capRemoved (c : ReplayCache) (mac : Mac) (nowMs maxAgeMs : Nat) : List (Nat × Mac) :=
  match c.seen mac with
  | some _ => []
  | none => (capLoop ((c.shards (shardOf mac) ++ [(nowMs, mac)]).dropWhile
      fun p => maxAgeMs ≤ nowMs - p.1)).1

/-- **What an insertion does.**  The queue of the shard, with the new MAC at its end, falls into
its expired front, what the cap loop removes, and what stays. -/
theorem checkAndInsert_new (h : c.seen mac = none) : ∃ c' expired kept,
    c.checkAndInsert mac now maxAge = (false, c') ∧
    c.shards (shardOf mac) ++ [(now, mac)] = expired ++ c.capRemoved mac now maxAge ++ kept ∧
    (∀ p ∈ expired, maxAge ≤ now - p.1) ∧ kept.length ≤ replayCachePerShardMax ∧
    c'.shards = (fun k => if k = shardOf mac then kept else c.shards k) ∧
    (∀ m, c'.seen m = none ↔ m ∈ (expired ++ c.capRemoved mac now maxAge).map Prod.snd ∨
      m ≠ mac ∧ c.seen m = none) ∧
    c'.fullEvictions = c.fullEvictions + (c.capRemoved mac now maxAge).length := by
  simp only [checkAndInsert, capRemoved, h, capLoop_eq]
  generalize hold : (fun p : Nat × Mac => decide (maxAge ≤ now - p.1)) = old
  generalize c.shards (shardOf mac) ++ [(now, mac)] = order
  generalize hover : (order.dropWhile old).length - replayCachePerShardMax = overflow
  refine ⟨_, order.takeWhile old, (order.dropWhile old).drop overflow, rfl, ?_, fun p hp => ?_, ?_,
    rfl, fun m => ?_, ?_⟩
  · rw [append_assoc, take_append_drop, takeWhile_append_dropWhile]
  · subst hold
    simpa using mem_takeWhile_imp hp
  · rw [length_drop]
    omega
  · simp only [forget, any_eq_true, decide_eq_true_eq, map_append, mem_append, mem_map]
    split
    next hcap => simp [hcap]
    next hcap =>
    split
    next hage => simp [hage]
    next hage =>
    simp only [hcap, hage, or_self, false_or]
    split <;> simp [*]
  · rw [length_take, Nat.min_eq_left (by omega)]

section
variable (h : c.seen mac = none)
include h

theorem checkAndInsert_fst : (c.checkAndInsert mac now maxAge).1 = false := by
  simp only [checkAndInsert, h]

theorem mem_shards_insert {k : Fin replayCacheShards} {p : Nat × Mac}
    (hp : p ∈ (c.checkAndInsert mac now maxAge).2.shards k) :
    p = (now, mac) ∨ p ∈ c.shards k := by
  simp only [checkAndInsert, h] at hp
  by_cases hk : k = shardOf mac
  · rw [if_pos hk] at hp
    have horder := (dropWhile_suffix _).mem (mem_of_mem_drop hp)
    rcases mem_append.mp horder with hold | hnew
    · exact .inr (hk ▸ hold)
    · exact .inl (mem_singleton.mp hnew)
  · rw [if_neg hk] at hp
    exact .inr hp

/-- While the hard cap does not evict, a MAC is missing only if it was never there or its
entry in some shard has reached the age limit. -/
theorem seen_insert_none
    (hcap : (c.checkAndInsert mac now maxAge).2.fullEvictions = c.fullEvictions)
    (hm : (c.checkAndInsert mac now maxAge).2.seen m = none) :
    (m ≠ mac ∧ c.seen m = none) ∨
    ∃ p, (p = (now, mac) ∨ ∃ k, p ∈ c.shards k) ∧ p.2 = m ∧ maxAge ≤ now - p.1 := by
  obtain ⟨c', expired, kept, hnew, horder, hold, -, -, hnone, hcount⟩ :=
    @checkAndInsert_new c mac now maxAge h
  rw [hnew] at hm hcap
  dsimp only at hcap
  have hempty : c.capRemoved mac now maxAge = [] := eq_nil_of_length_eq_zero (by omega)
  rw [hempty, append_nil] at hnone horder
  refine ((hnone m).mp hm).symm.imp_right fun hgone => ?_
  obtain ⟨p, hp, hpm⟩ := mem_map.mp hgone
  have hin : p ∈ c.shards (shardOf mac) ++ [(now, mac)] := horder ▸ mem_append_left _ hp
  refine ⟨p, ?_, hpm, hold p hp⟩
  rcases mem_append.mp hin with hin | hnew
  · exact .inr ⟨_, hin⟩
  · exact .inl (mem_singleton.mp hnew)

end

/-! ## Runs of insertions -/

/-- A call of `check_and_insert`. -/
structure ReplayInsert where
  mac : Mac
  nowMs : Nat
  maxAgeMs : Nat

def insertStep (c : ReplayCache) (e : ReplayInsert) : ReplayCache :=
  (c.checkAndInsert e.mac e.nowMs e.maxAgeMs).2

/-- The removals made by the cap loop in a run. -/
def capRemovals : ReplayCache → List ReplayInsert → Nat
  | _, [] => 0
  | c, e :: rest =>
    (c.capRemoved e.mac e.nowMs e.maxAgeMs).length + capRemovals (c.insertStep e) rest

/-- A MAC is in a queue exactly if it is a key of the map and the queue is that of its shard; it is
there once; the queues keep within the cap, and the counter is the given number. -/
structure Represented (c : ReplayCache) (removals : Nat) : Prop where
  keys : ∀ m k, m ∈ (c.shards k).map Prod.snd ↔ c.seen m ≠ none ∧ shardOf m = k
  once : ∀ k, ((c.shards k).map Prod.snd).Nodup
  bounded : ∀ k, (c.shards k).length ≤ replayCachePerShardMax
  counted : c.fullEvictions = removals

theorem Represented.insertStep {removals : Nat} (h : c.Represented removals) (e : ReplayInsert) :
    (c.insertStep e).Represented (removals + (c.capRemoved e.mac e.nowMs e.maxAgeMs).length) := by
  unfold ReplayCache.insertStep
  rcases hseen : c.seen e.mac with _ | t
  swap
  · rw [checkAndInsert_seen hseen]
    simpa [capRemoved, hseen] using h
  obtain ⟨c', expired, kept, hnew, horder, -, hkept, hshards, hnone, hcounted⟩ :=
    checkAndInsert_new hseen
  generalize expired ++ c.capRemoved e.mac e.nowMs e.maxAgeMs = gone at horder hnone
  -- the queue before the evictions holds its MACs once
  have hmacs : (c.shards (shardOf e.mac)).map Prod.snd ++ [e.mac] =
      gone.map Prod.snd ++ kept.map Prod.snd := by
    rw [← map_append, ← horder, map_append]
    rfl
  have honce : ((c.shards (shardOf e.mac)).map Prod.snd ++ [e.mac]).Nodup := by
    refine (h.once _).append (nodup_singleton _) (disjoint_singleton.mpr fun hin => ?_)
    exact ((h.keys _ _).mp hin).1 hseen
  obtain ⟨-, hkeptOnce, hapart⟩ := nodup_append'.mp (hmacs ▸ honce)
  rw [hnew]
  refine ⟨fun m k => ?_, fun k => ?_, fun k => ?_, hcounted.trans (by rw [h.counted])⟩
  · have hmem : (c.seen m ≠ none ∧ shardOf m = shardOf e.mac) ∨ m = e.mac ↔
        m ∈ gone.map Prod.snd ∨ m ∈ kept.map Prod.snd := by
      rw [← h.keys, ← mem_singleton, ← mem_append, hmacs, mem_append]
    have hmac : m = e.mac → shardOf m = shardOf e.mac := congrArg shardOf
    have hnone := hnone m
    rw [hshards]
    dsimp only
    by_cases hk : k = shardOf e.mac
    · rw [if_pos hk, hk]
      tauto
    · rw [if_neg hk, h.keys]
      refine and_congr_left fun hm => ?_
      have hother : shardOf m ≠ shardOf e.mac := fun heq => hk (hm.symm.trans heq)
      have hgone : m ∉ gone.map Prod.snd := fun hin =>
        (hmem.mpr (.inl hin)).elim (fun hold => hother hold.2) fun hm => hother (hmac hm)
      rw [ne_eq, ne_eq, hnone, or_iff_right hgone, and_iff_right (mt hmac hother)]
  · rw [hshards]
    dsimp only
    split
    · exact hkeptOnce
    · exact h.once k
  · rw [hshards]
    dsimp only
    split
    · exact hkept
    · exact h.bounded k

/-- **The map and the queues agree** after every sequence of calls, and the counter says how many
MACs the cap loop removed. -/
theorem represented_run (calls : List ReplayInsert) :
    (run insertStep {} calls).Represented (capRemovals {} calls) := by
  have hrun : ∀ (c : ReplayCache) n, c.Represented n →
      (run insertStep c calls).Represented (n + capRemovals c calls) := by
    induction calls with
    | nil => exact fun c n h => h
    | cons e calls ih =>
      intro c n h
      rw [capRemovals, ← Nat.add_assoc]
      exact ih _ _ (h.insertStep e)
  have hempty : Represented {} 0 := ⟨by simp, by simp, by simp, rfl⟩
  simpa using hrun {} 0 hempty

end ReplayCache

section Hmac
variable [HmacSha256] {σ : Type}

namespace RaftNode

/-- The verification of a request, by its kind. -/
def verify (n : RaftNode σ) (clock : Clock) : SignedRequest → Bool × RaftNode σ
  | .requestVote a => n.verifyRequestVote clock a
  | .appendEntries a => n.verifyAppendEntries clock a
  | .installSnapshot a => n.verifyInstallSnapshot clock a

/-- The request is turned away and nothing changes. -/
def Rejects (n : RaftNode σ) (r : Bool × RaftNode σ) : Prop := r.1 = false ∧ r.2 = n

/-- The request is accepted under the MAC `m`, which enters the cache. -/
def Admits (n : RaftNode σ) (clock : Clock) (timestampMs : Nat) (m : Mac)
    (r : Bool × RaftNode σ) : Prop :=
  n.isFresh clock timestampMs = true ∧ n.replayCache.seen m = none ∧ r.1 = true ∧
  r.2 = { n with replayCache :=
    (n.replayCache.checkAndInsert m clock.replayMs n.maxMessageAgeMs).2 }

omit [HmacSha256] in
theorem authenticate_cases (n : RaftNode σ) (clock : Clock) (ts : Nat) (hmac : Option Mac)
    (compute : Secret → Mac) :
    n.Rejects (n.authenticate clock ts hmac compute) ∨
    ∃ m, hmac = some m ∧ n.Admits clock ts m (n.authenticate clock ts hmac compute) := by
  simp only [authenticate]
  split
  · rename_i secret provided hsecret
    by_cases hok : n.isFresh clock ts = true ∧ provided = compute secret
    · rw [if_pos hok]
      obtain ⟨hfresh, rfl⟩ := hok
      cases hseen : n.replayCache.seen (compute secret) with
      | some t =>
        -- a replay leaves the cache as it is
        rw [ReplayCache.checkAndInsert_seen hseen]
        exact .inl ⟨rfl, rfl⟩
      | none =>
        refine .inr ⟨_, rfl, hfresh, hseen, ?_, rfl⟩
        simp only [ReplayCache.checkAndInsert_fst hseen, Bool.not_false]
    · rw [if_neg hok]
      exact .inl ⟨rfl, rfl⟩
  · exact .inl ⟨rfl, rfl⟩

/-- Every verification rejects without a change, or admits. -/
theorem verify_cases (n : RaftNode σ) (clock : Clock) (req : SignedRequest) :
    n.Rejects (n.verify clock req) ∨
    ∃ m, req.hmac = some m ∧ n.Admits clock req.timestampMs m (n.verify clock req) := by
  cases req with
  | requestVote a =>
    simp only [verify, verifyRequestVote]
    split
    · exact .inl ⟨rfl, rfl⟩
    · exact n.authenticate_cases clock _ _ _
  | appendEntries a =>
    simp only [verify, verifyAppendEntries]
    split
    · exact .inl ⟨rfl, rfl⟩
    · exact n.authenticate_cases clock _ _ _
  | installSnapshot a =>
    simp only [verify, verifyInstallSnapshot]
    split
    · exact .inl ⟨rfl, rfl⟩
    · split
      · exact .inl ⟨rfl, rfl⟩
      · exact n.authenticate_cases clock _ _ _

end RaftNode

/-! ## Runs of verifications -/

/-- A request that is verified, and when. -/
structure VerifyCall where
  clock : Clock
  request : SignedRequest

/-- A node and the latest reading of its clock. -/
structure Verifier (σ : Type) where
  node : RaftNode σ
  clockMs : Nat

namespace Verifier

def step (v : Verifier σ) (e : VerifyCall) : Verifier σ where
  node := (v.node.verify e.clock e.request).2
  clockMs := e.clock.replayMs

/-- The MAC of the request, if the call accepts it. -/
def accepts (v : Verifier σ) (e : VerifyCall) : List Mac :=
  if (v.node.verify e.clock e.request).1 = true then e.request.hmac.toList else []

/-- The MACs of the requests accepted in a run, in order. -/
def accepted (v : Verifier σ) : List VerifyCall → List Mac
  | [] => []
  | e :: es => v.accepts e ++ (v.step e).accepted es

/-- The clock does not go back: not between calls, and not within one. -/
def InOrder (v : Verifier σ) (e : VerifyCall) : Prop :=
  v.clockMs ≤ e.clock.freshnessMs ∧ e.clock.freshnessMs ≤ e.clock.replayMs

/-- The hard cap does not evict in this call. -/
def WithinCap (v : Verifier σ) (e : VerifyCall) : Prop :=
  (v.step e).node.replayCache.fullEvictions = v.node.replayCache.fullEvictions

instance (v : Verifier σ) (e : VerifyCall) : Decidable (v.InOrder e) :=
  inferInstanceAs (Decidable (_ ∧ _))

instance (v : Verifier σ) (e : VerifyCall) : Decidable (v.WithinCap e) :=
  inferInstanceAs (Decidable (_ = _))

/-- A fresh request was stamped strictly before the clock reads at the cache. -/
def Stamped (v : Verifier σ) (e : VerifyCall) : Prop :=
  v.node.isFresh e.clock e.request.timestampMs = true →
    e.request.timestampMs < e.clock.replayMs

/-- A MAC stands for one message, and so for one timestamp. -/
def Identified (calls : List VerifyCall) : Prop :=
  ∀ e ∈ calls, ∀ f ∈ calls, ∀ m, e.request.hmac = some m → f.request.hmac = some m →
    e.request.timestampMs = f.request.timestampMs

/-- An accepted request: its MAC, its timestamp and the clock at the insertion. -/
structure Acceptance where
  mac : Mac
  timestampMs : Nat
  insertedMs : Nat

/-- What the cache knows of the requests accepted so far. -/
structure Remembers (history : List Acceptance) (v : Verifier σ) : Prop where
  once : (history.map Acceptance.mac).Nodup
  past : ∀ x ∈ history, x.timestampMs < x.insertedMs ∧ x.insertedMs ≤ v.clockMs
  queued : ∀ k, ∀ p ∈ v.node.replayCache.shards k,
    ∃ x ∈ history, x.mac = p.2 ∧ x.insertedMs = p.1
  /-- A MAC leaves the map only at the age limit. -/
  kept : ∀ x ∈ history, v.node.replayCache.seen x.mac = none →
    x.insertedMs + v.node.maxMessageAgeMs ≤ v.clockMs

variable {v : Verifier σ} {history : List Acceptance} {e : VerifyCall}

omit [HmacSha256] in
theorem Remembers.later (h : Remembers history v) {t : Nat} (hle : v.clockMs ≤ t) :
    Remembers history { v with clockMs := t } where
  once := h.once
  past x hx := ⟨(h.past x hx).1, Nat.le_trans (h.past x hx).2 hle⟩
  queued := h.queued
  kept x hx hnone := Nat.le_trans (h.kept x hx hnone) hle

omit [HmacSha256] in
/-- A request that is still fresh and was accepted before is still in the cache. -/
theorem Remembers.seen (h : Remembers history v) {clock : Clock} {x : Acceptance}
    (hx : x ∈ history) (hclock : v.clockMs ≤ clock.freshnessMs)
    (hfresh : v.node.isFresh clock x.timestampMs = true) :
    v.node.replayCache.seen x.mac ≠ none := by
  intro hnone
  have hage := h.kept x hx hnone
  obtain ⟨hstamp, hins⟩ := h.past x hx
  simp only [RaftNode.isFresh, checkMessageFreshness] at hfresh
  rw [if_pos (by omega)] at hfresh
  have hwindow := of_decide_eq_true hfresh
  omega

/-- The step of an accepted request. -/
theorem Remembers.admit (h : Remembers history v) {m : Mac}
    (hnew : ∀ x ∈ history, x.mac ≠ m) (hclock : v.clockMs ≤ e.clock.replayMs)
    (hstamp : e.request.timestampMs < e.clock.replayMs) (hcap : v.WithinCap e)
    (hadm : v.node.Admits e.clock e.request.timestampMs m (v.node.verify e.clock e.request)) :
    Remembers (history ++ [⟨m, e.request.timestampMs, e.clock.replayMs⟩]) (v.step e) := by
  obtain ⟨-, hnone, -, hnode⟩ := hadm
  simp only [WithinCap, step, hnode] at hcap
  simp only [step, hnode]
  have hlast : ∀ x, x ∈ history ++ [⟨m, e.request.timestampMs, e.clock.replayMs⟩] →
      x ∈ history ∨ x = ⟨m, e.request.timestampMs, e.clock.replayMs⟩ := fun x hx => by
    rwa [mem_append, mem_singleton] at hx
  constructor
  · rw [map_append, nodup_append]
    refine ⟨h.once, nodup_singleton _, fun a ha b hb => ?_⟩
    obtain ⟨x, hx, rfl⟩ := mem_map.mp ha
    rw [mem_singleton.mp hb]
    exact hnew x hx
  · intro x hx
    rcases hlast x hx with hold | rfl
    · exact ⟨(h.past x hold).1, Nat.le_trans (h.past x hold).2 hclock⟩
    · exact ⟨hstamp, Nat.le_refl _⟩
  · intro k p hp
    rcases ReplayCache.mem_shards_insert hnone hp with rfl | hold
    · exact ⟨_, mem_append_right _ mem_cons_self, rfl, rfl⟩
    · obtain ⟨x, hx, hmac, hins⟩ := h.queued k p hold
      exact ⟨x, mem_append_left _ hx, hmac, hins⟩
  · intro x hx hgone
    rcases ReplayCache.seen_insert_none hnone hcap hgone with ⟨hne, hbefore⟩ | ⟨p, hp, hpm, hage⟩
    · rcases hlast x hx with hold | rfl
      · exact Nat.le_trans (h.kept x hold hbefore) hclock
      · exact absurd rfl hne
    -- the popped entry is the one of `x`, since no MAC was accepted twice
    have hins : p.1 = x.insertedMs ∧ x.insertedMs ≤ e.clock.replayMs := by
      rcases hp with rfl | ⟨k, hk⟩
      · rcases hlast x hx with hold | rfl
        · exact absurd hpm.symm (hnew x hold)
        · exact ⟨rfl, Nat.le_refl _⟩
      · obtain ⟨y, hy, hymac, hyins⟩ := h.queued k p hk
        rcases hlast x hx with hold | rfl
        · have hxy : x = y := inj_on_of_nodup_map h.once hold hy (hymac.trans hpm).symm
          exact ⟨hxy ▸ hyins.symm, Nat.le_trans (h.past x hold).2 hclock⟩
        · exact absurd (hymac.trans hpm) (hnew y hy)
    dsimp only
    omega

/-- The induction over the run: what was accepted before and what the run accepts are
different requests. -/
theorem Remembers.run {calls : List VerifyCall} :
    ∀ {v : Verifier σ} {history : List Acceptance}, Remembers history v →
      (∀ x ∈ history, ∀ e ∈ calls, e.request.hmac = some x.mac →
        e.request.timestampMs = x.timestampMs) →
      Identified calls →
      Along step (fun v e => v.InOrder e ∧ v.WithinCap e ∧ v.Stamped e) v calls →
      (history.map Acceptance.mac ++ v.accepted calls).Nodup := by
  induction calls with
  | nil =>
    intro v history h _ _ _
    simpa only [accepted, append_nil] using h.once
  | cons e es ih =>
    intro v history h hstamps hid hal
    obtain ⟨⟨hclock, hcap, hstamped⟩, hrest⟩ := hal
    have hle : v.clockMs ≤ e.clock.replayMs := Nat.le_trans hclock.1 hclock.2
    have hid' : Identified es := fun f hf g hg =>
      hid f (mem_cons_of_mem _ hf) g (mem_cons_of_mem _ hg)
    have htail : ∀ x ∈ history, ∀ f ∈ es, f.request.hmac = some x.mac →
        f.request.timestampMs = x.timestampMs := fun x hx f hf =>
      hstamps x hx f (mem_cons_of_mem _ hf)
    rcases v.node.verify_cases e.clock e.request with ⟨hno, hnode⟩ | ⟨m, hm, hadm⟩
    · have hnext : v.step e = { v with clockMs := e.clock.replayMs } := by
        simp only [step, hnode]
      have hrun := ih (hnext ▸ h.later hle) htail hid' hrest
      simpa only [accepted, accepts, hno, Bool.false_eq_true, if_false, nil_append] using hrun
    obtain ⟨hfresh, hnone, hyes, -⟩ := id hadm
    have hnew : ∀ x ∈ history, x.mac ≠ m := by
      rintro x hx rfl
      rw [hstamps x hx e mem_cons_self hm] at hfresh
      exact h.seen hx hclock.1 hfresh hnone
    have hstep := h.admit hnew hle (hstamped hfresh) hcap hadm
    have hrun := ih hstep (fun x hx f hf hfm => by
      rcases mem_append.mp hx with hold | hlast
      · exact htail x hold f hf hfm
      · rw [mem_singleton.mp hlast] at hfm ⊢
        exact hid f (mem_cons_of_mem _ hf) e mem_cons_self m hfm hm) hid' hrest
    simpa only [accepted, accepts, hyes, if_true, hm, Option.toList_some, map_append,
      map_cons, map_nil, append_assoc] using hrun

/-- **No replay is accepted** in a run from an empty cache whose requests are stamped
strictly before they reach it. -/
theorem accepted_nodup {v : Verifier σ} (hempty : v.node.replayCache = {})
    {calls : List VerifyCall} (hid : Identified calls)
    (hal : Along step (fun v e => v.InOrder e ∧ v.WithinCap e ∧ v.Stamped e) v calls) :
    (v.accepted calls).Nodup := by
  have hstart : Remembers [] v := by
    constructor
    · exact nodup_nil
    · exact nofun
    · intro k p hp
      rw [hempty] at hp
      cases hp
    · exact nofun
  simpa only [map_nil, nil_append] using hstart.run nofun hid hal

end Verifier
end Hmac

/-! ## A replay at the edge of the window -/

/-- A vote request of `n1`. -/
def sampleVoteRequest [HmacSha256] (term timestampMs : Nat) : RequestVoteArgs :=
  signedVote term "n1" 0 0 timestampMs

/-- A node with the default windows of 30 s and 1 s. -/
def sampleVerifier : Verifier InMemoryStorage where
  node := { (RaftNode.new "n2" ["n1", "n3"] 1000 0 : RaftNode InMemoryStorage) with
    clusterSecret := some sampleSecret }
  clockMs := 0

attribute [local instance] hmacSha256

namespace Verifier

/-- A request delivered twice, one and two milliseconds after it was stamped. -/
def promptReplay : List VerifyCall :=
  [⟨sampleClock 1001, .requestVote (sampleVoteRequest 1 1000)⟩,
    ⟨sampleClock 1002, .requestVote (sampleVoteRequest 1 1000)⟩]

theorem accepted_nodup_prompt : (sampleVerifier.accepted promptReplay).Nodup := by
  refine accepted_nodup rfl ?_ ?_
  · intro e he f hf _ _ _
    simp only [promptReplay, mem_cons, not_mem_nil, or_false] at he hf
    rcases he with rfl | rfl <;> rcases hf with rfl | rfl <;> rfl
  · unfold promptReplay
    rw [hmacSha256_eq]
    exact ⟨⟨by decide, by decide +kernel, fun _ => by decide⟩,
      ⟨by decide, by decide +kernel, fun _ => by decide⟩, trivial⟩

/-- A request delivered as it is stamped; when it is exactly 30 s old, another one of its
shard evicts it, and it is delivered again. -/
def edgeReplay : List VerifyCall :=
  [⟨sampleClock 1000, .requestVote (sampleVoteRequest 1 1000)⟩,
    ⟨sampleClock 31000, .requestVote (sampleVoteRequest 2 30998)⟩,
    ⟨sampleClock 31000, .requestVote (sampleVoteRequest 1 1000)⟩]

theorem edgeReplay_requests (e : VerifyCall) (he : e ∈ edgeReplay) :
    e.request = .requestVote (sampleVoteRequest 1 1000) ∨
    e.request = .requestVote (sampleVoteRequest 2 30998) := by
  simp only [edgeReplay, mem_cons, not_mem_nil, or_false] at he
  rcases he with rfl | rfl | rfl
  · exact .inl rfl
  · exact .inr rfl
  · exact .inl rfl

/-- The second delivery is 30 s old and so still fresh, but the cache has dropped its MAC. -/
theorem replay_accepted_at_edge :
    ¬ ∀ [HmacSha256] (v : Verifier InMemoryStorage) (calls : List VerifyCall),
      v.node.replayCache = {} → Identified calls →
      Along step (fun v e => v.InOrder e ∧ v.WithinCap e) v calls → (v.accepted calls).Nodup := by
  intro h
  have hid : Identified edgeReplay := by
    intro e he f hf m hem hfm
    have hne : (SignedRequest.requestVote (sampleVoteRequest 1 1000)).hmac ≠
        (SignedRequest.requestVote (sampleVoteRequest 2 30998)).hmac := by
      rw [hmacSha256_eq]
      decide +kernel
    rcases edgeReplay_requests e he with h1 | h1 <;>
      rcases edgeReplay_requests f hf with h2 | h2 <;>
      rw [h1] at hem ⊢ <;> rw [h2] at hfm ⊢
    · exact absurd (hem.trans hfm.symm) hne
    · exact absurd (hfm.trans hem.symm) hne
  have hal : Along step (fun v e => v.InOrder e ∧ v.WithinCap e) sampleVerifier edgeReplay := by
    unfold edgeReplay
    rw [hmacSha256_eq]
    exact ⟨⟨by decide, by decide +kernel⟩, ⟨by decide, by decide +kernel⟩,
      ⟨by decide, by decide +kernel⟩, trivial⟩
  have hnodup := h sampleVerifier edgeReplay rfl hid hal
  revert hnodup
  unfold edgeReplay
  rw [hmacSha256_eq]
  decide +kernel

end Verifier

end CratonHsm
