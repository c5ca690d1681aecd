import CratonHsm.RaftMessages

/-!
# The vote rate limiter

The per-peer token bucket of `raft.rs` that stands in front of inbound RequestVote
RPCs.  Tokens are `u32` and timestamps `u64`; the saturating operations of the source
are exact on the values a bucket can hold.
-/

namespace CratonHsm
open Std

/-- `MAX_VOTE_RATE_LIMITER_PEERS`. -/
def maxVoteRateLimiterPeers : Nat := 65536

/-- The tokens of a peer. -/
structure VoteBucket where
  tokens : Nat
  lastRefillMs : Nat
  rejected : Nat
  deriving DecidableEq

/-- A bucket for each peer. -/
structure VoteRateLimiter where
  state : ExtTreeMap String VoteBucket := ∅
  capacity : Nat
  refillIntervalMs : Nat
  /-- Known-peer allowlist; `none` permits insertion up to the hard cap. -/
  allowedPeers : Option (ExtTreeSet String) := none
  unknownRejects : Nat := 0

namespace VoteRateLimiter

/-- `VoteRateLimiter::new`: a zero capacity is clamped to 1. -/
def new (capacity refillIntervalMs : Nat) : VoteRateLimiter where
  capacity := if capacity = 0 then 1 else capacity
  refillIntervalMs := refillIntervalMs

/-- `set_allowed_peers`. -/
def setAllowedPeers (l : VoteRateLimiter) (peers : Option (ExtTreeSet String)) :
    VoteRateLimiter :=
  { l with allowedPeers := peers }

/-- Whether the allowlist, or the hard cap in its absence, turns a peer away. -/
def refuses (l : VoteRateLimiter) (peer : String) : Bool :=
  match l.allowedPeers with
  | some allowed => !allowed.contains peer
  | none => maxVoteRateLimiterPeers ≤ l.state.size && !l.state.contains peer

/-- Refill from the time elapsed since the last refill; leftover milliseconds stay with
`lastRefillMs`. -/
def refill (l : VoteRateLimiter) (b : VoteBucket) (nowMs : Nat) : VoteBucket :=
  if 0 < l.refillIntervalMs then
    let refills := (nowMs - b.lastRefillMs) / l.refillIntervalMs
    if 0 < refills then
      { b with
        tokens := min (b.tokens + refills) l.capacity
        lastRefillMs := b.lastRefillMs + refills * l.refillIntervalMs }
    else b
  else b

/-- `try_consume`: whether the RPC may be processed, and the limiter afterwards. -/
def tryConsume (l : VoteRateLimiter) (peer : String) (nowMs : Nat) : Bool × VoteRateLimiter :=
  if l.refuses peer then (false, { l with unknownRejects := l.unknownRejects + 1 })
  else
    let entry := l.state[peer]?.getD ⟨l.capacity, nowMs, 0⟩
    let b := l.refill entry nowMs
    if b.tokens = 0 then
      (false, { l with state := l.state.insert peer { b with rejected := b.rejected + 1 } })
    else
      (true, { l with state := l.state.insert peer { b with tokens := b.tokens - 1 } })

/-- `evict_stale`: the number of evicted buckets, and the limiter afterwards. -/
def evictStale (l : VoteRateLimiter) (nowMs staleAfterMs : Nat) : Nat × VoteRateLimiter :=
  if staleAfterMs = 0 then (0, l)
  else
    let kept := l.state.filter (fun _ b => !(staleAfterMs ≤ nowMs - b.lastRefillMs))
    (l.state.size - kept.size, { l with state := kept })

end VoteRateLimiter

/-- `VoteRateLimiterConfig`. -/
structure VoteRateLimiterConfig where
  capacity : Nat
  refillIntervalMs : Nat

/-- `VoteRateLimiterConfig::adaptive_for_cluster_size`. -/
def VoteRateLimiterConfig.adaptiveForClusterSize (clusterSize : Nat) : VoteRateLimiterConfig where
  capacity := 3
  refillIntervalMs := min (max (5000 / max clusterSize 1) 500) 5000

end CratonHsm
