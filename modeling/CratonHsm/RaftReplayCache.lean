import CratonHsm.RaftMessages

/-!
# The replay-protection cache

The bounded MAC cache of `raft.rs`.  A MAC enters the shared map `seen` and the FIFO of
one of eight shards; each insertion pops the expired entries off the front of that
shard, then enforces the shard's hard cap, and removes what it popped from `seen`.
-/

namespace CratonHsm

/-- `REPLAY_CACHE_MAX`. -/
def replayCacheMax : Nat := 16384

/-- `REPLAY_CACHE_SHARDS`. -/
abbrev replayCacheShards : Nat := 8

/-- `REPLAY_CACHE_PER_SHARD_MAX`. -/
def replayCachePerShardMax : Nat := replayCacheMax / replayCacheShards

/-- The MACs seen lately, in shards. -/
structure ReplayCache where
  seen : Mac → Option Nat := fun _ => none
  /-- The FIFO of each shard, eldest first: insertion time and MAC. -/
  shards : Fin replayCacheShards → List (Nat × Mac) := fun _ => []
  /-- Evictions caused by the hard cap. -/
  fullEvictions : Nat := 0

namespace ReplayCache

/-- `u64::from_ne_bytes` on a little-endian target. -/
def fromLeBytes (bytes : List UInt8) : BitVec 64 :=
  BitVec.ofNat 64 (bytes.foldr (fun b acc => b.toNat + 256 * acc) 0)

/-- `ReplayCache::shard_of`: XOR-fold the MAC, mix, reduce. -/
def shardOf (mac : Mac) : Fin replayCacheShards :=
  let chunk (i : Nat) := fromLeBytes ((mac.toList.drop (8 * i)).take 8)
  let acc := chunk 0 ^^^ chunk 1 ^^^ chunk 2 ^^^ chunk 3
  let mixed := acc.rotateLeft 13 * 0x9e3779b97f4a7c15#64
  ⟨mixed.toNat % replayCacheShards, Nat.mod_lt _ (by decide)⟩

/-- Removing the popped MACs from the shared map. -/
def forget (seen : Mac → Option Nat) (popped : List (Nat × Mac)) : Mac → Option Nat :=
  fun m => if popped.any (fun p => p.2 = m) then none else seen m

/-- `ReplayCache::check_and_insert`: whether the MAC was already present, and the cache
afterwards. -/
def checkAndInsert (c : ReplayCache) (mac : Mac) (nowMs maxAgeMs : Nat) : Bool × ReplayCache :=
  match c.seen mac with
  | some _ => (true, c)
  | none =>
    let seen := fun m => if m = mac then some nowMs else c.seen m
    let shard := shardOf mac
    let order := c.shards shard ++ [(nowMs, mac)]
    let expired (p : Nat × Mac) : Bool := maxAgeMs ≤ nowMs - p.1
    let aged := order.dropWhile expired
    let overflow := aged.length - replayCachePerShardMax
    (false, {
      seen := forget (forget seen (order.takeWhile expired)) (aged.take overflow)
      shards := fun s => if s = shard then aged.drop overflow else c.shards s
      fullEvictions := c.fullEvictions + overflow })

end ReplayCache

end CratonHsm
