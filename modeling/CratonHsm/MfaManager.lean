import CratonHsm.AuthTypes
import CratonHsm.ByteFields
import CratonHsm.OrderedMaps
import CratonHsm.Sha256

/-!
# MFA challenges

`MfaManager`: challenges that are issued for a session, verified by a TOTP code or by the PIN,
and counted as approval until they expire.  Expiry is decided by the monotonic clock when a
challenge is verified and by the wall clock when approvals are looked up.  Accepted TOTP steps
are remembered in one set for all users.
-/

namespace CratonHsm.Auth
open Std PrefixFreeCode OrderedMaps

/-! ## TOTP -/

/-- The hash of a TOTP. -/
inductive TotpHashAlgorithm where
  | sha1
  | sha256
  deriving DecidableEq

/-- HMAC-SHA-1 and the PIN hash (PBKDF2 with the configured number of iterations) come from
libraries; nothing is assumed of them. -/
class MfaHash where
  hmacSha1 : (key message : Bytes) → Bytes
  hashPin : (pin salt : Bytes) → Bytes

/-- `TotpConfig`, with the decoded secret. -/
structure TotpConfig where
  rawSecret : Bytes
  digits : Nat := 6
  period : Nat := 30
  skew : Nat := 0
  hashAlgorithm : TotpHashAlgorithm := .sha1

namespace TotpConfig

/-- The earliest step accepted at a time. -/
def start (c : TotpConfig) (now : Nat) : Nat := now / c.period - c.skew

/-- The steps accepted at a time. -/
def window (c : TotpConfig) (now : Nat) : List Nat :=
  List.range' (c.start now) (now / c.period + c.skew + 1 - c.start now)

/-- `prune_cutoff`: accepted steps before it are forgotten. -/
def cutoff (c : TotpConfig) (now : Nat) : Nat := now / c.period - (2 * c.skew + 1)

end TotpConfig

/-- `dynamic_truncate`. -/
def dynamicTruncate (result : Bytes) : Except HsmError Nat :=
  match result.getLast? with
  | none => .error .generalError
  | some last =>
    match (result.drop (last &&& 0x0f).toNat).take 4 with
    | [b0, b1, b2, b3] => .ok (ofBigEndian [b0 &&& 0x7f, b1, b2, b3])
    | _ => .error .generalError

/-- `str::parse::<u32>` of the bytes of a text: an optional plus sign and decimal digits. -/
def parseU32 (response : Bytes) : Option Nat :=
  let digits := if response.head? = some 0x2b then response.tail else response
  if digits ≠ [] ∧ digits.all (fun b => 0x30 ≤ b && b ≤ 0x39) then
    let value := digits.foldl (fun v b => 10 * v + (b.toNat - 0x30)) 0
    if value < UInt32.size then some value else none
  else none

section Hash
variable [MfaHash]

/-- `10 ^ digits` is a `u32` in the source, so codes of at most nine digits are meant. -/
def generateTotpCodeWithAlg (secret : Bytes) (time period digits : Nat)
    (algorithm : TotpHashAlgorithm) : Except HsmError Nat :=
  let counterBytes := bigEndian 8 (time / period)
  let mac := match algorithm with
    | .sha1 => MfaHash.hmacSha1 secret counterBytes
    | .sha256 => Sha256.hmac secret counterBytes
  (dynamicTruncate mac).map (· % 10 ^ digits)

/-- The loop of `verify_totp_response`: the last step whose code is the given one.  The time of a
step stays within a `u64`. -/
def matchStep (c : TotpConfig) (code : Nat) : List Nat → Except HsmError (Option Nat)
  | [] => .ok none
  | step :: rest =>
    match generateTotpCodeWithAlg c.rawSecret (step * c.period) c.period c.digits
        c.hashAlgorithm with
    | .error e => .error e
    | .ok expected =>
      match matchStep c code rest with
      | .error e => .error e
      | .ok (some later) => .ok (some later)
      | .ok none => .ok (if expected = code then some step else none)

/-! ## The manager -/

/-- What a challenge asks for. -/
inductive MfaChallengeType where
  | totp
  | reenterPin
  deriving DecidableEq

/-- `MfaChallenge`.  The wall clock counts seconds, the monotonic one nanoseconds. -/
structure MfaChallenge where
  sessionHandle : UInt64
  userId : String
  challengeType : MfaChallengeType
  expiresAt : Nat
  expiresAtMono : Nat
  completed : Bool
  expectedPinHash : Option Bytes
  salt : Bytes
  boundOperation : Option String
  deriving DecidableEq

/-- `MfaManager`.  The indices are sets; the heap is the list of its entries in the order in
which they are popped; the users' TOTP settings are fixed. -/
structure MfaManager where
  challenges : ExtTreeMap String MfaChallenge := ∅
  completedSessions : UInt64 → Bool := fun _ => false
  completedOps : UInt64 × String → Bool := fun _ => false
  timeoutSecs : Nat
  totpSecrets : String → Option TotpConfig
  usedTotpSteps : List (String × Nat) := []
  totpVerifyCount : UInt64 := 0
  expiryHeap : List (Nat × String) := []

/-- What `issue_challenge_for` is given, draws and reads. -/
structure MfaIssue where
  id : String
  salt : Bytes := []
  wall : Nat
  mono : Nat
  sessionHandle : UInt64
  userId : String
  challengeType : MfaChallengeType
  expectedPin : Option Bytes := none
  boundOperation : Option String := none

/-- The order of the heap: by expiry, then by identifier. -/
def heapBefore (x y : Nat × String) : Bool := x.1 < y.1 || (x.1 == y.1 && decide (x.2 < y.2))

/-- The expiry joins the queue. -/
def heapPush (x : Nat × String) : List (Nat × String) → List (Nat × String)
  | [] => [x]
  | y :: rest => if heapBefore x y then x :: y :: rest else y :: heapPush x rest

/-- The challenge that `issue_challenge_for` makes. -/
def MfaIssue.challenge (r : MfaIssue) (timeoutSecs : Nat) : MfaChallenge where
  sessionHandle := r.sessionHandle
  userId := r.userId
  challengeType := r.challengeType
  expiresAt := r.wall + timeoutSecs
  expiresAtMono := r.mono + fromSecs timeoutSecs
  completed := false
  expectedPinHash := match r.challengeType with
    | .reenterPin => r.expectedPin.map fun pin => MfaHash.hashPin pin r.salt
    | .totp => none
  salt := r.salt
  boundOperation := r.boundOperation

namespace MfaManager

/-- `issue_challenge_for`; `issue_challenge` is the case without an operation. -/
def issueChallengeFor (m : MfaManager) (r : MfaIssue) : MfaManager :=
  { m with
    expiryHeap := heapPush ((r.challenge m.timeoutSecs).expiresAt, r.id) m.expiryHeap
    challenges := m.challenges.insert r.id (r.challenge m.timeoutSecs) }

/-- `prune_expired_totp_steps`. -/
def pruneExpiredTotpSteps (m : MfaManager) (now : Nat) : MfaManager :=
  { m with usedTotpSteps := m.usedTotpSteps.filter fun (user, step) =>
      match m.totpSecrets user with
      | some config => config.cutoff now ≤ step
      | none => UInt64.size - 1 ≤ step }

/-- The first part of `verify_totp_response`: the settings of the user and the step to which
the code belongs. -/
def totpStep (m : MfaManager) (c : MfaChallenge) (response : Bytes) (now : Nat) :
    Except HsmError (TotpConfig × Nat) :=
  if c.sessionHandle = 0 then .error .argumentsBad
  else
    match parseU32 response with
    | none => .error .signatureInvalid
    | some code =>
      match m.totpSecrets c.userId with
      | none => .error .mfaChallengeInvalid
      | some config =>
        match matchStep config code (config.window now) with
        | .error e => .error e
        | .ok none => .error .signatureInvalid
        | .ok (some step) => .ok (config, step)

/-- The second part: the step is used up, and steps that this user can no longer use are
forgotten, whichever user they belong to. -/
def consumeStep (m : MfaManager) (userId : String) (config : TotpConfig) (step now pruneAt : Nat) :
    Except HsmError Unit × MfaManager :=
  if (userId, step) ∈ m.usedTotpSteps then (.error .signatureInvalid, m)
  else
    let count := m.totpVerifyCount
    let m := { m with
      usedTotpSteps := ((userId, step) :: m.usedTotpSteps).filter fun k => config.cutoff now ≤ k.2
      totpVerifyCount := count + 1 }
    (.ok (), if count % 64 = 0 then m.pruneExpiredTotpSteps pruneAt else m)

/-- `verify_totp_response`. -/
def verifyTotpResponse (m : MfaManager) (c : MfaChallenge) (response : Bytes) (now pruneAt : Nat) :
    Except HsmError Unit × MfaManager :=
  match m.totpStep c response now with
  | .error e => (.error e, m)
  | .ok (config, step) => m.consumeStep c.userId config step now pruneAt

/-- `verify_pin_response`. -/
def verifyPinResponse (c : MfaChallenge) (response : Bytes) : Except HsmError Unit :=
  match c.expectedPinHash with
  | some expected =>
    if expected = MfaHash.hashPin response c.salt then .ok () else .error .pinIncorrect
  | none => .error .generalError

/-- The check of the response in `verify`. -/
def checkResponse (m : MfaManager) (c : MfaChallenge) (response : Bytes) (now pruneAt : Nat) :
    Except HsmError Unit × MfaManager :=
  match c.challengeType with
  | .totp => m.verifyTotpResponse c response now pruneAt
  | .reenterPin => (verifyPinResponse c response, m)

/-- The end of `verify`: the challenge and the indices. -/
def complete (m : MfaManager) (id : String) (c : MfaChallenge) : MfaManager :=
  { m with
    challenges := m.challenges.insert id { c with completed := true }
    completedSessions := fun s => if s = c.sessionHandle then true else m.completedSessions s
    completedOps := fun k =>
      if c.boundOperation = some k.2 ∧ k.1 = c.sessionHandle then true else m.completedOps k }

/-- `verify`, with its readings of both clocks and the one of the pruning. -/
def verify (m : MfaManager) (id : String) (sessionHandle : UInt64) (response : Bytes)
    (wall mono pruneAt : Nat) : Except HsmError Unit × MfaManager :=
  match m.challenges[id]? with
  | none => (.error .mfaChallengeInvalid, m)
  | some c =>
    if c.sessionHandle ≠ sessionHandle then (.error .mfaChallengeInvalid, m)
    else if c.expiresAtMono ≤ mono then
      (.error .mfaChallengeInvalid, { m with challenges := m.challenges.erase id })
    else
      match m.checkResponse c response wall pruneAt with
      | (.error e, m) => (.error e, m)
      | (.ok (), m) => (.ok (), m.complete id c)

variable {m m' : MfaManager} {id : String} {c : MfaChallenge} {response : Bytes}
  {sessionHandle : UInt64} {wall mono pruneAt : Nat}

/-- A response that is not accepted changes nothing. -/
theorem checkResponse_error {e : HsmError}
    (h : m.checkResponse c response wall pruneAt = (.error e, m')) : m' = m := by
  unfold checkResponse at h
  split at h
  · unfold verifyTotpResponse consumeStep at h
    split at h
    · cases h
      rfl
    split at h
    · cases h
      rfl
    · cases h
  · exact (Prod.mk.inj h).2.symm

/-- An accepted response touches the memory of TOTP steps only. -/
theorem checkResponse_ok (h : m.checkResponse c response wall pruneAt = (.ok (), m')) :
    m'.challenges = m.challenges ∧ m'.completedSessions = m.completedSessions ∧
      m'.completedOps = m.completedOps ∧ m'.expiryHeap = m.expiryHeap ∧
      m'.timeoutSecs = m.timeoutSecs ∧ m'.totpSecrets = m.totpSecrets := by
  unfold checkResponse at h
  split at h
  · unfold verifyTotpResponse consumeStep at h
    split at h
    · cases h
    split at h
    · cases h
    cases h
    split <;> exact ⟨rfl, rfl, rfl, rfl, rfl, rfl⟩
  · rw [← (Prod.mk.inj h).2]
    exact ⟨rfl, rfl, rfl, rfl, rfl, rfl⟩

/-- **What `verify` can do**: refuse, drop an expired challenge, or complete a live one. -/
theorem verify_cases (m : MfaManager) (id : String) (sessionHandle : UInt64) (response : Bytes)
    (wall mono pruneAt : Nat) :
    (∃ e, m.verify id sessionHandle response wall mono pruneAt = (.error e, m)) ∨
    (∃ c, m.challenges[id]? = some c ∧ c.sessionHandle = sessionHandle ∧ c.expiresAtMono ≤ mono ∧
      m.verify id sessionHandle response wall mono pruneAt =
        (.error .mfaChallengeInvalid, { m with challenges := m.challenges.erase id })) ∨
    ∃ c m', m.challenges[id]? = some c ∧ c.sessionHandle = sessionHandle ∧
      mono < c.expiresAtMono ∧ m.checkResponse c response wall pruneAt = (.ok (), m') ∧
      m.verify id sessionHandle response wall mono pruneAt = (.ok (), m'.complete id c) := by
  unfold verify
  rcases hc : m.challenges[id]? with _ | c
  · exact .inl ⟨_, rfl⟩
  by_cases hsession : c.sessionHandle = sessionHandle
  · by_cases hexpired : c.expiresAtMono ≤ mono
    · exact .inr (.inl ⟨c, rfl, hsession, hexpired, by simp [hsession, hexpired]⟩)
    cases hcheck : m.checkResponse c response wall pruneAt with
    | mk result m' =>
      cases result with
      | error e =>
        cases checkResponse_error hcheck
        exact .inl ⟨e, by simp [hsession, hexpired, hcheck]⟩
      | ok u =>
        cases u
        exact .inr (.inr ⟨c, m', rfl, hsession, Nat.not_le.mp hexpired, hcheck,
          by simp [hsession, hexpired, hcheck]⟩)
  · exact .inl ⟨.mfaChallengeInvalid, by simp [hsession]⟩

end MfaManager
end Hash

/-! ## Eviction -/

/-- The loop of `evict_expired` over the popped heap entries: the challenges that are left, and
those that were removed. -/
def removeDue (now : Nat) : List (Nat × String) → ExtTreeMap String MfaChallenge →
    ExtTreeMap String MfaChallenge × List MfaChallenge
  | [], challenges => (challenges, [])
  | (_, id) :: rest, challenges =>
    match challenges[id]? with
    | none => removeDue now rest challenges
    | some c =>
      if c.expiresAt ≤ now then
        let (left, removed) := removeDue now rest (challenges.erase id)
        (left, c :: removed)
      else removeDue now rest challenges

namespace MfaManager

/-- `evict_expired`. -/
def evictExpired (m : MfaManager) (now : Nat) : MfaManager :=
  let (challenges, removed) := removeDue now (m.expiryHeap.takeWhile (·.1 ≤ now)) m.challenges
  let dropped := removed.filter (·.completed)
  let stillActive := fun (p : MfaChallenge → Bool) =>
    challenges.toList.any fun (_, e) => p e && e.completed && decide (now < e.expiresAt)
  { m with
    expiryHeap := m.expiryHeap.dropWhile (·.1 ≤ now)
    challenges := challenges
    completedSessions := fun s =>
      if dropped.any (·.sessionHandle = s) && !stillActive (·.sessionHandle = s) then false
      else m.completedSessions s
    completedOps := fun k =>
      if dropped.any (fun c => c.sessionHandle = k.1 && c.boundOperation = some k.2) &&
          !stillActive (fun e => e.sessionHandle = k.1 && e.boundOperation = some k.2) then false
      else m.completedOps k }

/-- `has_completed_challenge`. -/
def hasCompletedChallenge (m : MfaManager) (sessionHandle : UInt64) (wall : Nat) :
    Bool × MfaManager :=
  let m := m.evictExpired wall
  (m.completedSessions sessionHandle, m)

/-- `has_completed_challenge_for`. -/
def hasCompletedChallengeFor (m : MfaManager) (sessionHandle : UInt64) (operation : String)
    (wall : Nat) : Bool × MfaManager :=
  let m := m.evictExpired wall
  (m.completedOps (sessionHandle, operation), m)

end MfaManager

/-! ## Runs -/

/-- A call of the manager, with the readings of the clocks.  `has_completed_challenge` reads
the wall clock only; `mono` is the moment at which it is called. -/
inductive MfaCall where
  | issue (r : MfaIssue)
  | verify (id : String) (sessionHandle : UInt64) (response : Bytes) (wall mono pruneAt : Nat)
  | hasCompleted (sessionHandle : UInt64) (wall mono : Nat)
  | hasCompletedFor (sessionHandle : UInt64) (operation : String) (wall mono : Nat)
  | pruneSteps (wall : Nat)

/-- One call. -/
def MfaManager.step [MfaHash] (m : MfaManager) : MfaCall → MfaManager
  | .issue r => m.issueChallengeFor r
  | .verify id sessionHandle response wall mono pruneAt =>
    (m.verify id sessionHandle response wall mono pruneAt).2
  | .hasCompleted sessionHandle wall _ => (m.hasCompletedChallenge sessionHandle wall).2
  | .hasCompletedFor sessionHandle operation wall _ =>
    (m.hasCompletedChallengeFor sessionHandle operation wall).2
  | .pruneSteps wall => m.pruneExpiredTotpSteps wall

end CratonHsm.Auth
