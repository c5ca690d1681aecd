import CratonHsm.KmipEffects
import CratonHsm.Sha256

/-!
# The KMIP server

The replay cache, and the loop of `process_message_internal` over a batch with its access-control
gate.  The key-encryption provider sees the environment of the item it is called for, so that it
may be randomised.
-/

namespace CratonHsm
open PrefixFreeCode

/-! ## Access control -/

/-- What the policy says to a request. -/
inductive KmipAclDecision where
  | allow
  | deny (reason : KmipResultReason)
  deriving DecidableEq

/-- `KmipAcl::authorize`: the caller, the operation and the object. -/
abbrev KmipAcl := Option String → KmipOperation → Option String → KmipAclDecision

/-- `operation_requires_acl`. -/
def operationRequiresAcl (op : KmipOperation) : Bool :=
  op ∈ [.destroy, .revoke, .activate, .get, .getAttributes, .addAttribute, .modifyAttribute,
    .deleteAttribute, .deriveKey, .register, .query, .locate, .encrypt, .decrypt, .sign,
    .signatureVerify, .mac, .macVerify]

/-! ## The replay cache -/

/-- `REPLAY_CACHE_HARD_CAP`. -/
def replayCacheHardCap : Nat := 65536

/-- `ReplayCache`: digests with the time they were last recorded, in nanoseconds. -/
structure KmipReplayCache where
  seen : List (Bytes × Nat) := []
  window : Nat
  checkCounter : UInt64 := 0

namespace KmipReplayCache

/-- `ReplayCache::new`: a window of at least a second. -/
def new (windowSecs : Nat) : KmipReplayCache := { window := max windowSecs 1 * 1000000000 }

/-- `ReplayCache::key`. -/
def key (identity : Option String) (ccv : String) : Bytes :=
  Sha256.hash (asBytes (identity.getD "") ++ 0xFF :: asBytes ccv)

/-- `check_and_record`: whether the request repeats one, and the cache afterwards. -/
def checkAndRecord (c : KmipReplayCache) (identity : Option String) (ccv : String) (now : Nat) :
    Bool × KmipReplayCache :=
  let seen := if c.checkCounter % 100 = 0 then c.seen.filter (fun p => now - p.2 < c.window)
    else c.seen
  let c := { c with seen := seen, checkCounter := c.checkCounter + 1 }
  let k := key identity ccv
  match c.seen.lookup k with
  | some ts =>
    if now - ts < c.window then (true, c)
    else if replayCacheHardCap ≤ c.seen.length then (true, c)
    else (false, { c with seen := c.seen.map fun p => if p.1 = k then (k, now) else p })
  | none =>
    if replayCacheHardCap ≤ c.seen.length then (true, c)
    else (false, { c with seen := (k, now) :: c.seen })

end KmipReplayCache

/-! ## The server -/

/-- The fields of `KmipServer` that the batch loop reads. -/
structure KmipServer where
  acl : KmipAcl
  /-- `KekProvider::wrap`, if there is a provider. -/
  kek : Option (KmipEnv → Bytes → Option Bytes) := none

/-- The response with its key material wrapped. -/
def wrapMaterial (server : KmipServer) (env : KmipEnv) (r : KmipResponse) : KmipResponse :=
  match server.kek, r.keyMaterial with
  | some wrap, some material =>
    match wrap env material with
    | some wrapped => { r with keyMaterial := some wrapped }
    | none => .error .cryptographicFailure "KEK wrap failed"
  | _, _ => r

section Loop
variable [HkdfSha256]

/-- The body of the batch loop: the access-control gate, the handler, the wrapping. -/
def answerItem (server : KmipServer) (caller : String) (store : InMemoryKeyStore)
    (event : KmipEvent) : KmipResult :=
  let request := event.2
  let dispatch : KmipResult :=
    let (r, store) := dispatchOperation event.1 request store
    (wrapMaterial server event.1 r, store)
  if operationRequiresAcl request.operation then
    match server.acl request.callerIdentity request.operation request.uniqueId with
    | .allow => dispatch
    | .deny reason => (.error reason
        ("ACL denied " ++ request.operation.display ++ " for caller " ++ caller), store)
  else dispatch

/-- The batch loop. -/
def batchLoop (server : KmipServer) (caller : String) :
    InMemoryKeyStore → List KmipEvent → List KmipResponse × InMemoryKeyStore
  | store, [] => ([], store)
  | store, event :: events =>
    let (r, store) := answerItem server caller store event
    let (rs, store) := batchLoop server caller store events
    (r :: rs, store)

end Loop

end CratonHsm
