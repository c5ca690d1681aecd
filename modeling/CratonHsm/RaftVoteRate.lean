import CratonHsm.GuardedRun
import CratonHsm.RaftNode
import CratonHsm.TokenBucket

/-!
# How many votes a peer can ask for

Runs of the vote rate limiter: `try_consume` calls of any peers, interleaved with the
maintenance that evicts stale buckets.  An evicted bucket comes back full, so the bound on
the grants of a window needs every evicted bucket to be due to be full (`EvictsFull`).  The
age at which the node evicts, twice its base election timeout, does not guarantee that.
-/

namespace CratonHsm
open Std TokenBucket ExtTreeMap

/-- `run_periodic_maintenance`: the number of evicted buckets, and the node afterwards. -/
def RaftNode.runPeriodicMaintenance {σ : Type} (n : RaftNode σ) (nowMs : Nat) :
    Nat × RaftNode σ :=
  let (evicted, limiter) := n.voteRateLimiter.evictStale nowMs (n.baseElectionTimeoutMs * 2)
  (evicted, { n with voteRateLimiter := limiter })

/-- A call on the limiter. -/
inductive LimiterEvent where
  | tryConsume (peer : String) (nowMs : Nat)
  | evictStale (nowMs staleAfterMs : Nat)

/-- When a call is made. -/
def LimiterEvent.nowMs : LimiterEvent → Nat
  | tryConsume _ now => now
  | evictStale now _ => now

namespace VoteRateLimiter

/-- The limiter after a call. -/
def step (l : VoteRateLimiter) : LimiterEvent → VoteRateLimiter
  | .tryConsume peer now => (l.tryConsume peer now).2
  | .evictStale now staleAfter => (l.evictStale now staleAfter).2

/-- Whether the event is a grant to `p` within the window. -/
def grants (l : VoteRateLimiter) (p : String) (t0 t1 : Nat) : LimiterEvent → Nat
  | .tryConsume peer now =>
    if peer = p ∧ t0 ≤ now ∧ now ≤ t1 ∧ (l.tryConsume peer now).1 = true then 1 else 0
  | .evictStale _ _ => 0

/-- The calls of the run within the window that grant `p` a token. -/
def granted (p : String) (t0 t1 : Nat) (l : VoteRateLimiter) : List LimiterEvent → Nat
  | [] => 0
  | e :: es => l.grants p t0 t1 e + (l.step e).granted p t0 t1 es

/-- An eviction of the bucket of `p` finds it due to be full. -/
def EvictsFull (p : String) (l : VoteRateLimiter) : LimiterEvent → Prop
  | .tryConsume _ _ => True
  | .evictStale now staleAfter => staleAfter ≠ 0 → ∀ b, l.state[p]? = some b →
      staleAfter ≤ now - b.lastRefillMs →
      l.capacity ≤ b.tokens + (now - b.lastRefillMs) / l.refillIntervalMs

/-- An eviction age of a whole refill is enough. -/
theorem evictsFull_of_age {p : String} {l : VoteRateLimiter} {now staleAfter : Nat}
    (hr : 0 < l.refillIntervalMs) (h : l.capacity * l.refillIntervalMs ≤ staleAfter) :
    l.EvictsFull p (.evictStale now staleAfter) := by
  intro _ b _ hstale
  have hdue : l.capacity ≤ (now - b.lastRefillMs) / l.refillIntervalMs :=
    (Nat.le_div_iff_mul_le hr).mpr (Nat.le_trans h hstale)
  omega

end VoteRateLimiter

/-! ## The steps on one bucket -/

/-- The part of a bucket that the bound is about. -/
def VoteBucket.toBucket (b : VoteBucket) : Bucket := ⟨b.tokens, b.lastRefillMs⟩

namespace VoteRateLimiter
variable {l : VoteRateLimiter} {p : String} {now : Nat}

theorem refill_toBucket {b : VoteBucket} (hr : 0 < l.refillIntervalMs)
    (hb : b.tokens ≤ l.capacity) :
    (l.refill b now).toBucket = b.toBucket.refill l.capacity l.refillIntervalMs now := by
  simp only [refill, hr, if_true, Bucket.refill, VoteBucket.toBucket]
  by_cases hk : 0 < (now - b.lastRefillMs) / l.refillIntervalMs
  · simp only [hk, if_true]
  · -- no token is due: the minimum with the capacity changes nothing
    have hzero : (now - b.lastRefillMs) / l.refillIntervalMs = 0 := Nat.eq_zero_of_not_pos hk
    simp only [hzero, Nat.lt_irrefl, if_false, Nat.add_zero, Nat.zero_mul, Nat.min_eq_left hb]

/-- What a call can do to the limiter and to the bucket of `p`. -/
theorem tryConsume_cases (l : VoteRateLimiter) (peer : String) (now : Nat) :
    ((l.tryConsume peer now).1 = false ∧ (l.tryConsume peer now).2.state = l.state) ∨
    (∃ b, b = l.refill (l.state[peer]?.getD ⟨l.capacity, now, 0⟩) now ∧
      (((l.tryConsume peer now).1 = false ∧
        (l.tryConsume peer now).2.state = l.state.insert peer { b with rejected := b.rejected + 1 })
      ∨ ((l.tryConsume peer now).1 = true ∧ 0 < b.tokens ∧
        (l.tryConsume peer now).2.state =
          l.state.insert peer { b with tokens := b.tokens - 1 }))) := by
  simp only [tryConsume]
  by_cases href : l.refuses peer = true
  · rw [if_pos href]
    exact .inl ⟨rfl, rfl⟩
  rw [if_neg href]
  refine .inr ⟨_, rfl, ?_⟩
  by_cases hzero : (l.refill (l.state[peer]?.getD ⟨l.capacity, now, 0⟩) now).tokens = 0
  · rw [if_pos hzero]
    exact .inl ⟨rfl, rfl⟩
  · rw [if_neg hzero]
    exact .inr ⟨rfl, Nat.pos_of_ne_zero hzero, rfl⟩

theorem step_config (l : VoteRateLimiter) (e : LimiterEvent) :
    (l.step e).capacity = l.capacity ∧ (l.step e).refillIntervalMs = l.refillIntervalMs := by
  cases e with
  | tryConsume peer now =>
    simp only [step, tryConsume]
    split
    · exact ⟨rfl, rfl⟩
    · split <;> exact ⟨rfl, rfl⟩
  | evictStale now staleAfter =>
    simp only [step, evictStale]
    split <;> exact ⟨rfl, rfl⟩

theorem evictStale_getElem? (l : VoteRateLimiter) (now staleAfter : Nat) (p : String) :
    (l.evictStale now staleAfter).2.state[p]? = l.state[p]? ∨
    (staleAfter ≠ 0 ∧ (l.evictStale now staleAfter).2.state[p]? = none ∧
      ∃ b, l.state[p]? = some b ∧ staleAfter ≤ now - b.lastRefillMs) := by
  simp only [evictStale]
  by_cases hz : staleAfter = 0
  · rw [if_pos hz]
    exact .inl rfl
  rw [if_neg hz]
  simp only [getElem?_filter']
  cases hb : l.state[p]? with
  | none => exact .inl rfl
  | some b =>
    by_cases hstale : staleAfter ≤ now - b.lastRefillMs
    · exact .inr ⟨hz, by simp [hstale], b, rfl, hstale⟩
    · exact .inl (by simp [hstale])

/-! ## The invariant -/

/-- With `g` grants in the window so far: the bucket of `p` is within its capacity, and the
grants are paid for. -/
structure WithinRate (p : String) (t0 now g : Nat) (l : VoteRateLimiter) : Prop where
  valid : ∀ b, l.state[p]? = some b → b.tokens ≤ l.capacity ∧ b.lastRefillMs ≤ now
  paid : g = 0 ∨ (t0 ≤ now ∧ Paid l.capacity l.refillIntervalMs t0 now g
    (l.state[p]?.map VoteBucket.toBucket))

variable {t0 t1 g : Nat}

section
variable (h : WithinRate p t0 now g l)
include h

/-- A call made later finds the bucket as it is. -/
theorem WithinRate.later {later : Nat} (hle : now ≤ later)
    {l' : VoteRateLimiter} (hc : l'.capacity = l.capacity)
    (hr : l'.refillIntervalMs = l.refillIntervalMs) (hs : l'.state[p]? = l.state[p]?) :
    WithinRate p t0 later g l' := by
  constructor
  · intro b hb
    obtain ⟨htokens, hlast⟩ := h.valid b (hs ▸ hb)
    exact ⟨hc ▸ htokens, Nat.le_trans hlast hle⟩
  · rcases h.paid with hg | ⟨ht, hpaid⟩
    · exact .inl hg
    · rw [hc, hr, hs]
      exact .inr ⟨Nat.le_trans ht hle, hpaid.mono hle⟩

section
variable (hr : 0 < l.refillIntervalMs)
include hr

/-- The bucket a call works on, refilled: within its capacity, and the grants are paid for
if the call is in or after the window. -/
theorem WithinRate.refilled {later : Nat} (hle : now ≤ later) {b : VoteBucket}
    (hb : b = l.refill (l.state[p]?.getD ⟨l.capacity, later, 0⟩) later) :
    b.tokens ≤ l.capacity ∧ b.lastRefillMs ≤ later ∧ (g = 0 ∨ t0 ≤ later) ∧
    (t0 ≤ later → Paid l.capacity l.refillIntervalMs t0 later g (some b.toBucket)) := by
  -- the entry before the refill: the present bucket, or a full one made now
  obtain ⟨entry, hentry, htokens, hlast, hpaid⟩ : ∃ entry,
      l.state[p]?.getD ⟨l.capacity, later, 0⟩ = entry ∧ entry.tokens ≤ l.capacity ∧
      entry.lastRefillMs ≤ later ∧ (t0 ≤ later → g = 0 ∨
        Paid l.capacity l.refillIntervalMs t0 later g (some entry.toBucket)) := by
    cases hs : l.state[p]? with
    | none =>
      refine ⟨_, rfl, Nat.le_refl _, Nat.le_refl _, fun ht => ?_⟩
      rcases h.paid with hg | ⟨_, hold⟩
      · exact .inl hg
      · rw [hs] at hold
        exact .inr ((hold.mono hle).create hr ht)
    | some b0 =>
      obtain ⟨htokens, hlast⟩ := h.valid b0 hs
      refine ⟨b0, rfl, htokens, Nat.le_trans hlast hle, fun _ => ?_⟩
      rcases h.paid with hg | ⟨_, hold⟩
      · exact .inl hg
      · rw [hs] at hold
        exact .inr (hold.mono hle)
  rw [hentry] at hb
  have hto : b.toBucket = entry.toBucket.refill l.capacity l.refillIntervalMs later :=
    hb ▸ refill_toBucket hr htokens
  have htok : b.tokens = (entry.toBucket.refill l.capacity l.refillIntervalMs later).tokens :=
    congrArg Bucket.tokens hto
  have hlst : b.lastRefillMs = (entry.toBucket.refill l.capacity l.refillIntervalMs later).last :=
    congrArg Bucket.last hto
  refine ⟨htok ▸ Nat.min_le_right _ _, hlst ▸ refill_last_le hlast, ?_, fun ht => ?_⟩
  · rcases h.paid with hg | ⟨ht, _⟩
    · exact .inl hg
    · exact .inr (Nat.le_trans ht hle)
  · rw [hto]
    exact paid_refill hr hlast ht (hpaid ht)

/-- A call by `p` keeps the invariant and counts what it grants. -/
theorem WithinRate.tryConsume_self {later : Nat} (hle : now ≤ later) (hend : later ≤ t1) :
    WithinRate p t0 later (g + l.grants p t0 t1 (.tryConsume p later))
      (l.step (.tryConsume p later)) := by
  obtain ⟨hc, hi⟩ := l.step_config (.tryConsume p later)
  simp only [step] at hc hi
  simp only [step, grants, true_and, hend]
  rcases l.tryConsume_cases p later with ⟨hno, hs⟩ | ⟨b, hb, hcase⟩
  · simp only [hno, Bool.false_eq_true, and_false, if_false, Nat.add_zero]
    exact h.later hle hc hi (by rw [hs])
  obtain ⟨htokens, hlast, hwindow, hpaid⟩ := h.refilled hr hle hb
  rcases hcase with ⟨hno, hs⟩ | ⟨hyes, hpos, hs⟩
  · -- an empty bucket is written back with one more rejection
    have hget := congrArg (fun m => m[p]?) hs
    simp only [getElem?_insert_self] at hget
    simp only [hno, Bool.false_eq_true, and_false, if_false, Nat.add_zero]
    constructor
    · intro b' hb'
      rw [hget] at hb'
      cases hb'
      exact ⟨hc ▸ htokens, hlast⟩
    · rw [hc, hi, hget]
      rcases hwindow with hg | ht
      · exact .inl hg
      · exact .inr ⟨ht, hpaid ht⟩
  · have hget := congrArg (fun m => m[p]?) hs
    simp only [getElem?_insert_self] at hget
    constructor
    · intro b' hb'
      rw [hget] at hb'
      cases hb'
      exact ⟨hc ▸ Nat.le_trans (Nat.sub_le _ _) htokens, hlast⟩
    · rw [hc, hi, hget]
      by_cases ht : t0 ≤ later
      · simp only [ht, hyes, and_self, if_true]
        exact .inr ⟨trivial, (hpaid ht).take hpos⟩
      -- the grant is made before the window opens
      have hg : g = 0 := hwindow.resolve_right ht
      simp only [ht, false_and, if_false]
      exact .inl hg

theorem WithinRate.step
    {e : LimiterEvent} (hle : now ≤ e.nowMs) (hend : e.nowMs ≤ t1) (hfull : l.EvictsFull p e) :
    WithinRate p t0 e.nowMs (g + l.grants p t0 t1 e) (l.step e) := by
  obtain ⟨hc, hi⟩ := l.step_config e
  cases e with
  | tryConsume peer later =>
    by_cases hp : peer = p
    · subst hp
      exact h.tryConsume_self hr hle hend
    have hother : (l.tryConsume peer later).2.state[p]? = l.state[p]? := by
      rcases l.tryConsume_cases peer later with ⟨-, hs⟩ | ⟨b, -, ⟨-, hs⟩ | ⟨-, -, hs⟩⟩
      · rw [hs]
      · rw [hs, getElem?_insert, if_neg (by simpa using hp)]
      · rw [hs, getElem?_insert, if_neg (by simpa using hp)]
    simp only [grants, hp, false_and, if_false, Nat.add_zero]
    exact h.later hle hc hi hother
  | evictStale later staleAfter =>
    rcases l.evictStale_getElem? later staleAfter p with hsame | ⟨hz, hgone, b, hb, hstale⟩
    · exact h.later hle hc hi hsame
    have hdue := hfull hz b hb hstale
    constructor
    · intro b' hb'
      exact absurd (hgone.symm.trans hb') nofun
    rcases h.paid with hg | ⟨ht, hpaid⟩
    · exact .inl hg
    rw [hb] at hpaid
    rw [hc, hi]
    refine .inr ⟨Nat.le_trans ht hle, ?_⟩
    simp only [VoteRateLimiter.step, hgone, Option.map_none]
    exact (hpaid.mono hle).remove hr hdue

end

end

/-- The induction over the run.  Beyond the window nothing is counted, so the invariant is
needed up to its end only. -/
theorem granted_bound_from {c r : Nat} (hr : 0 < r) {events : List LimiterEvent} :
    ∀ {l : VoteRateLimiter} {now g : Nat}, l.capacity = c → l.refillIntervalMs = r →
      (now ≤ t1 → WithinRate p t0 now g l) → g ≤ c + (t1 - t0) / r + 1 →
      (∀ e ∈ events, now ≤ e.nowMs) → events.Pairwise (fun e f => e.nowMs ≤ f.nowMs) →
      GuardedRun.Along step (EvictsFull p) l events →
      g + l.granted p t0 t1 events ≤ c + (t1 - t0) / r + 1 := by
  induction events with
  | nil => exact fun _ _ _ hg _ _ _ => hg
  | cons e es ih =>
    intro l now g hc hi hinv hg hlate hsorted hal
    obtain ⟨hc', hi'⟩ := l.step_config e
    obtain ⟨hfirst, hrest⟩ := List.pairwise_cons.mp hsorted
    have hle : now ≤ e.nowMs := hlate e List.mem_cons_self
    have hnext : e.nowMs ≤ t1 → WithinRate p t0 e.nowMs (g + l.grants p t0 t1 e) (l.step e) :=
      fun hend => (hinv (Nat.le_trans hle hend)).step (hi ▸ hr) hle hend hal.1
    have hbound : g + l.grants p t0 t1 e ≤ c + (t1 - t0) / r + 1 := by
      by_cases hend : e.nowMs ≤ t1
      · rcases (hnext hend).paid with hzero | ⟨ht, hpaid⟩
        · omega
        have hb := hpaid.bound (by rw [hi', hi]; exact hr) ht hend
        rwa [hc', hi', hc, hi] at hb
      · have hnone : l.grants p t0 t1 e = 0 := by
          cases e with
          | evictStale _ _ => rfl
          | tryConsume peer later =>
            exact if_neg fun hin => hend hin.2.2.1
        omega
    have htail := ih (hc'.trans hc) (hi'.trans hi) hnext hbound hfirst hrest hal.2
    rwa [Nat.add_assoc] at htail

/-- **The vote rate limit over whole runs**: from an empty limiter, with evictions of full
buckets only, a peer is granted at most `c + (t1 - t0) / r + 1` tokens in a window. -/
theorem granted_le {l : VoteRateLimiter} (hempty : l.state = ∅) (hr : 0 < l.refillIntervalMs)
    (p : String) {events : List LimiterEvent}
    (hsorted : events.Pairwise (fun e f => e.nowMs ≤ f.nowMs))
    (hfull : GuardedRun.Along step (EvictsFull p) l events) (t0 t1 : Nat) :
    l.granted p t0 t1 events ≤ l.capacity + (t1 - t0) / l.refillIntervalMs + 1 := by
  have hstart : WithinRate p t0 0 0 l := by
    constructor
    · intro b hb
      rw [hempty, getElem?_empty] at hb
      cases hb
    · exact .inl rfl
  have hrun : 0 + l.granted p t0 t1 events ≤ l.capacity + (t1 - t0) / l.refillIntervalMs + 1 :=
    granted_bound_from hr rfl rfl (fun _ => hstart) (Nat.zero_le _) (fun _ _ => Nat.zero_le _)
      hsorted hfull
  rwa [Nat.zero_add] at hrun

/-! ## Runs of the adaptive limiter -/

/-- The limiter of a node whose one peer is `n2`. -/
def sampleLimiter : VoteRateLimiter :=
  (new (VoteRateLimiterConfig.adaptiveForClusterSize 2).capacity
    (VoteRateLimiterConfig.adaptiveForClusterSize 2).refillIntervalMs).setAllowedPeers
    (some {"n2"})

/-- Three calls at once, an eviction, three more calls. -/
def burstAround (evictAt staleAfter : Nat) : List LimiterEvent :=
  [.tryConsume "n2" 0, .tryConsume "n2" 0, .tryConsume "n2" 0, .evictStale evictAt staleAfter,
    .tryConsume "n2" evictAt, .tryConsume "n2" evictAt, .tryConsume "n2" evictAt]

/-- An eviction after three refill intervals keeps the bound. -/
theorem granted_le_late_eviction :
    sampleLimiter.granted "n2" 0 7500 (burstAround 7500 7500) ≤ 3 + (7500 - 0) / 2500 + 1 := by
  refine granted_le (l := sampleLimiter) rfl (by decide) "n2" (by decide) ?_ 0 7500
  exact ⟨trivial, trivial, trivial, evictsFull_of_age (by decide +kernel) (by decide +kernel),
    trivial, trivial, trivial, trivial⟩

/-- The limiter after the first three calls. -/
def drainedLimiter : VoteRateLimiter :=
  ((sampleLimiter.step (.tryConsume "n2" 0)).step (.tryConsume "n2" 0)).step (.tryConsume "n2" 0)

/-- Its only bucket is stale after 300 ms. -/
theorem drainedLimiter_filter :
    drainedLimiter.state.filter (fun _ b => !(150 * 2 ≤ 300 - b.lastRefillMs)) = ∅ := by
  have hstate : drainedLimiter.state =
      (∅ : ExtTreeMap String VoteBucket).insert "n2" ⟨0, 0, 0⟩ := by
    rfl
  apply ext_getElem?
  intro k
  rw [getElem?_filter', hstate, getElem?_insert]
  by_cases hk : compare "n2" k = .eq <;> simp [hk]

/-- With a base election timeout of 150 ms the node evicts after 300 ms: the
drained bucket comes back full, and six tokens are granted within 300 ms. -/
theorem drained_bucket_refilled_by_eviction :
    ¬ ∀ (l : VoteRateLimiter) (p : String) (events : List LimiterEvent) (t0 t1 : Nat),
      l.state = ∅ → 0 < l.refillIntervalMs → events.Pairwise (fun e f => e.nowMs ≤ f.nowMs) →
      l.granted p t0 t1 events ≤ l.capacity + (t1 - t0) / l.refillIntervalMs + 1 := by
  intro h
  have hbound := h sampleLimiter "n2" (burstAround 300 (150 * 2)) 0 300 rfl (by decide) (by decide)
  have hgone : drainedLimiter.step (.evictStale 300 (150 * 2)) = sampleLimiter :=
    congrArg (fun m => { sampleLimiter with state := m }) drainedLimiter_filter
  revert hbound
  decide +kernel

end VoteRateLimiter

end CratonHsm
