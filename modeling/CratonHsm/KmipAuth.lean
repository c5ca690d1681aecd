import CratonHsm.FailureWindow
import CratonHsm.KmipOperations
import CratonHsm.RunHistory
import CratonHsm.Sha256

/-!
# Authentication by a static token

The gate of `process_message_internal` and the rate limiter in front of it.  The limiter
counts failures per bucket, and the bucket of a request is a digest of the peer's address and
of the token it presents.  So the limit holds for each token of a peer, but a peer that never
repeats a token is never limited.
-/

namespace CratonHsm
open PrefixFreeCode GuardedRun FailureWindow
open List hiding count

/-! ## The limiter -/

/-- `AuthRateLimiter`.  Clock readings and the window are in nanoseconds. -/
structure AuthRateLimiter where
  failures : Bytes → Option Entry := fun _ => none
  maxFailures : Nat
  window : Nat
  checkCounter : UInt64 := 0

namespace AuthRateLimiter

/-- `AuthRateLimiter::new`. -/
def new (maxFailures windowSecs : Nat) : AuthRateLimiter where
  maxFailures := maxFailures
  window := windowSecs * 1000000000

/-- `evict_stale`. -/
def evictStale (l : AuthRateLimiter) (now : Nat) : AuthRateLimiter :=
  { l with failures := fun k => evict l.window now (l.failures k) }

/-- The periodic part of `is_rate_limited`. -/
def counted (l : AuthRateLimiter) (evictAt : Nat) : AuthRateLimiter :=
  let swept := if l.checkCounter % 100 = 0 then l.evictStale evictAt else l
  { swept with checkCounter := l.checkCounter + 1 }

/-- `is_rate_limited`, with the readings of the clock by `evict_stale` and by itself. -/
def isRateLimited (l : AuthRateLimiter) (clientId : Bytes) (evictAt now : Nat) :
    Bool × AuthRateLimiter :=
  let l := l.counted evictAt
  (limited l.maxFailures l.window now (l.failures clientId), l)

/-- `record_failure`. -/
def recordFailure (l : AuthRateLimiter) (clientId : Bytes) (now : Nat) : AuthRateLimiter :=
  { l with failures := fun k =>
      if k = clientId then some (record l.window now (l.failures clientId)) else l.failures k }

end AuthRateLimiter

/-! ## The gate -/

/-- The settings of `KmipServerConfig` and of the build that the gate reads. -/
structure AuthConfig where
  requireAuth : Bool := true
  authToken : Option String := none
  /-- The crate feature `insecure-static-token`. -/
  insecureStaticToken : Bool := true

/-- What the gate sees of a request: the text of the peer's IP address, the token, the
identity of the transport, the environment variable and the clock at its three readings. -/
structure AuthRequest where
  peerIp : Option String := none
  clientToken : Option String := none
  preauthIdentity : Option String := none
  staticTokenAllowed : Bool := true
  evictAt : Nat
  checkAt : Nat
  failAt : Nat

/-- `client_hash`: every slot is marked as present or absent. -/
def clientHash (peerIp clientToken : Option String) : Bytes :=
  let peer := match peerIp with
    | some ip => 1 :: asBytes ip
    | none => [0]
  let token := match clientToken with
    | some t => 1 :: Sha256.hash (asBytes t)
    | none => [0]
  Sha256.hash (peer ++ 0xFF :: token)

def AuthRequest.bucket (r : AuthRequest) : Bytes := clientHash r.peerIp r.clientToken

/-- The text of a refusal. -/
abbrev AuthError := KmipResultReason × String

/-- The answer to a wrong token. -/
def invalidToken : AuthError := (.permissionDenied, "authentication failed: invalid token")

/-- The branches behind the limiter: the outcome and whether a failure is recorded. -/
def checkToken (config : AuthConfig) (r : AuthRequest) : Except AuthError (Option String) × Bool :=
  if config.insecureStaticToken then
    if r.staticTokenAllowed then
      match config.authToken, r.clientToken with
      | some expected, some provided =>
        -- both sides are hashed before they are compared
        if Sha256.hash (asBytes expected) = Sha256.hash (asBytes provided) then
          (.ok (some provided), false)
        else (.error invalidToken, true)
      | some _, none =>
        (.error (.permissionDenied, "authentication required but no token provided"), true)
      | none, _ => (.error (.permissionDenied, "server authentication token not configured"), false)
    else
      (.error (.permissionDenied, "static-token authentication not permitted: set " ++
        "CRATON_HSM_ALLOW_INSECURE_STATIC_TOKEN=1 or integrate craton-hsm-auth"), false)
  else
    (.error (.permissionDenied, "KMIP server built without the \x27insecure-static-token\x27 " ++
      "feature; integrate craton-hsm-auth (mTLS / IdP) for authentication"), true)

/-- The authentication gate: the identity or the refusal, and the limiter afterwards. -/
def authenticate (config : AuthConfig) (l : AuthRateLimiter) (r : AuthRequest) :
    Except AuthError (Option String) × AuthRateLimiter :=
  match r.preauthIdentity with
  | some id => (.ok (some id), l)
  | none =>
    if config.requireAuth then
      let (blocked, l) := l.isRateLimited r.bucket r.evictAt r.checkAt
      if blocked then
        (.error (.permissionDenied, "too many authentication failures — try again later"), l)
      else
        let (outcome, failed) := checkToken config r
        (outcome, if failed then l.recordFailure r.bucket r.failAt else l)
    else (.ok r.clientToken, l)

/-- One request after the other. -/
def authStep (config : AuthConfig) (l : AuthRateLimiter) (r : AuthRequest) : AuthRateLimiter :=
  (authenticate config l r).2

/-- A wrong token of the peer is compared with the configured one. -/
def Guesses (config : AuthConfig) (ip : String) (l : AuthRateLimiter) (r : AuthRequest) : Prop :=
  r.peerIp = some ip ∧ (authenticate config l r).1 = .error invalidToken

instance (config : AuthConfig) (ip : String) (l : AuthRateLimiter) (r : AuthRequest) :
    Decidable (Guesses config ip l r) := inferInstanceAs (Decidable (_ ∧ _))

/-! ## The limit of a bucket -/

section Bucket
variable {config : AuthConfig} {l : AuthRateLimiter} {r : AuthRequest} {ip : String} {k : Bytes}
  {a : Nat}

/-- The readings of the clock during a request lie in order, in the period from `a` on that is
shorter than the window. -/
structure InPeriod (a window : Nat) (r : AuthRequest) : Prop where
  begins : a ≤ r.evictAt
  evict_check : r.evictAt ≤ r.checkAt
  check_fail : r.checkAt ≤ r.failAt
  ends : r.failAt < a + window

theorem counted_limits (l : AuthRateLimiter) (evictAt : Nat) :
    (l.counted evictAt).maxFailures = l.maxFailures ∧ (l.counted evictAt).window = l.window := by
  unfold AuthRateLimiter.counted
  split <;> exact ⟨rfl, rfl⟩

/-- Only a wrong token is answered as one, and it is recorded. -/
theorem checkToken_invalid (h : (checkToken config r).1 = .error invalidToken) :
    (checkToken config r).2 = true ∧ ∃ expected provided, config.authToken = some expected ∧
      r.clientToken = some provided ∧
      Sha256.hash (asBytes expected) ≠ Sha256.hash (asBytes provided) := by
  unfold checkToken at h ⊢
  split at h
  · split at h
    · split at h
      · next expected provided hexpected hprovided =>
        by_cases heq : Sha256.hash (asBytes expected) = Sha256.hash (asBytes provided)
        · rw [if_pos heq] at h
          cases h
        · exact ⟨by rw [if_pos ‹_›, if_pos ‹_›, if_neg heq], expected, provided, hexpected,
            hprovided, heq⟩
      · exact absurd (Except.error.inj h) (by decide)
      · exact absurd (Except.error.inj h) (by decide)
    · exact absurd (Except.error.inj h) (by decide)
  · exact absurd (Except.error.inj h) (by decide)

/-- What the gate does to the limiter: nothing, the periodic sweep, or the sweep and a failure
that the limiter admits in the bucket of the request.  A wrong token is a failure. -/
theorem authStep_cases (config : AuthConfig) (l : AuthRateLimiter) (r : AuthRequest) :
    (authStep config l r = l ∨ authStep config l r = l.counted r.evictAt) ∧
        (authenticate config l r).1 ≠ .error invalidToken ∨
      limited l.maxFailures l.window r.checkAt ((l.counted r.evictAt).failures r.bucket) = false ∧
        authStep config l r = (l.counted r.evictAt).recordFailure r.bucket r.failAt := by
  obtain ⟨hmax, hwindow⟩ := counted_limits l r.evictAt
  unfold authStep authenticate
  split
  · exact .inl ⟨.inl rfl, fun h => by cases h⟩
  split
  · simp only [AuthRateLimiter.isRateLimited, hmax, hwindow]
    split
    · exact .inl ⟨.inr rfl, fun h => absurd (Except.error.inj h) (by decide)⟩
    next hblocked =>
    by_cases hfailed : (checkToken config r).2 = true
    · exact .inr ⟨Bool.eq_false_iff.mpr hblocked, if_pos hfailed⟩
    · exact .inl ⟨.inr (if_neg hfailed), fun h => hfailed (checkToken_invalid h).1⟩
  · exact .inl ⟨.inl rfl, fun h => by cases h⟩

/-- The limiter keeps its limits. -/
theorem authStep_limits (config : AuthConfig) (l : AuthRateLimiter) (r : AuthRequest) :
    (authStep config l r).maxFailures = l.maxFailures ∧
      (authStep config l r).window = l.window := by
  have hcounted := counted_limits l r.evictAt
  rcases authStep_cases config l r with ⟨hstep | hstep, -⟩ | ⟨-, hstep⟩
  · rw [hstep]
    exact ⟨rfl, rfl⟩
  · rw [hstep]
    exact hcounted
  · rw [hstep]
    exact hcounted

theorem authenticate_invalid (h : (authenticate config l r).1 = .error invalidToken) :
    ∃ expected provided, config.authToken = some expected ∧ r.clientToken = some provided ∧
      Sha256.hash (asBytes expected) ≠ Sha256.hash (asBytes provided) := by
  unfold authenticate at h
  split at h
  · cases h
  split at h
  · by_cases hblocked : (l.isRateLimited r.bucket r.evictAt r.checkAt).1 = true
    · simp only [hblocked, if_true] at h
      exact absurd (Except.error.inj h) (by decide)
    · simp only [hblocked] at h
      exact (checkToken_invalid h).2
  · cases h

/-- The sweep does not raise the allowance of a bucket. -/
theorem allowance_counted (h : InPeriod a l.window r) :
    allowance l.maxFailures a ((l.counted r.evictAt).failures k) ≤
      allowance l.maxFailures a (l.failures k) := by
  unfold AuthRateLimiter.counted
  split
  · have := h.evict_check
    have := h.check_fail
    have := h.ends
    exact allowance_evict h.begins (by omega)
  · exact Nat.le_refl _

/-- A wrong token compared in the bucket. -/
def GuessesIn (config : AuthConfig) (k : Bytes) (l : AuthRateLimiter) (r : AuthRequest) : Prop :=
  r.bucket = k ∧ (authenticate config l r).1 = .error invalidToken

instance (config : AuthConfig) (k : Bytes) (l : AuthRateLimiter) (r : AuthRequest) :
    Decidable (GuessesIn config k l r) := inferInstanceAs (Decidable (_ ∧ _))

/-- A wrong token uses up one of the allowance of its bucket. -/
theorem allowance_authStep (hmax : 0 < l.maxFailures) (h : InPeriod a l.window r) :
    (if GuessesIn config k l r then 1 else 0) +
        allowance l.maxFailures a ((authStep config l r).failures k) ≤
      allowance l.maxFailures a (l.failures k) := by
  have hswept : allowance l.maxFailures a ((l.counted r.evictAt).failures k) ≤
      allowance l.maxFailures a (l.failures k) := allowance_counted h
  rcases authStep_cases config l r with ⟨hstep, hvalid⟩ | ⟨hadmitted, hstep⟩
  · rw [if_neg fun hguess : GuessesIn config k l r => hvalid hguess.2, Nat.zero_add]
    rcases hstep with hstep | hstep
    · refine Nat.le_of_eq ?_
      rw [hstep]
    · rw [hstep]
      exact hswept
  · rw [hstep]
    unfold AuthRateLimiter.recordFailure
    by_cases hk : k = r.bucket
    · subst hk
      have hwindow := (counted_limits l r.evictAt).2
      have hrecord := allowance_record hmax hadmitted
        (Nat.le_trans h.begins (Nat.le_trans h.evict_check h.check_fail)) h.check_fail h.ends
      simp only [if_true, hwindow]
      split <;> omega
    · rw [if_neg fun hguess : GuessesIn config k l r => hk hguess.1.symm]
      simp only [hk, if_false]
      omega

/-- The wrong tokens of one bucket within a period. -/
theorem guessesIn_bounded {requests : List AuthRequest} (hmax : 0 < l.maxFailures)
    (hperiod : ∀ r ∈ requests, InPeriod a l.window r) :
    count (authStep config) (GuessesIn config k) l requests ≤
      allowance l.maxFailures a (l.failures k) := by
  induction requests generalizing l with
  | nil => exact Nat.zero_le _
  | cons r requests ih =>
    obtain ⟨hmax', hwindow'⟩ := authStep_limits config l r
    have hfirst : (if GuessesIn config k l r then 1 else 0) + _ ≤ _ :=
      allowance_authStep hmax (hperiod r mem_cons_self)
    have hrest : count (authStep config) (GuessesIn config k) (authStep config l r) requests ≤ _ :=
      ih (by rw [hmax']; exact hmax)
      (by rw [hwindow']; exact fun r hr => hperiod r (mem_cons_of_mem _ hr))
    rw [hmax'] at hrest
    rw [count]
    omega

/-- **Wrong tokens of a peer are limited** within any period shorter than the window, if all
of them are the same token. -/
theorem guesses_bounded {requests : List AuthRequest} {token : String}
    (hmax : 0 < l.maxFailures) (hperiod : ∀ r ∈ requests, InPeriod a l.window r)
    (hone : ∀ r ∈ requests, r.peerIp = some ip →
      ∀ t ∈ r.clientToken, t = token ∨ some t = config.authToken) :
    count (authStep config) (Guesses config ip) l requests ≤ 2 * l.maxFailures := by
  have hbucket : ∀ l, ∀ r ∈ requests, Guesses config ip l r →
      GuessesIn config (clientHash (some ip) (some token)) l r := by
    rintro l r hr ⟨hpeer, hanswer⟩
    refine ⟨?_, hanswer⟩
    obtain ⟨expected, provided, hexpected, hprovided, hne⟩ := authenticate_invalid hanswer
    rcases hone r hr hpeer provided hprovided with rfl | heq
    · rw [AuthRequest.bucket, hpeer, hprovided]
    · rw [hexpected] at heq
      cases heq
      exact absurd rfl hne
  calc count (authStep config) (Guesses config ip) l requests
      ≤ count (authStep config) (GuessesIn config (clientHash (some ip) (some token))) l requests :=
        count_mono hbucket
    _ ≤ allowance l.maxFailures a (l.failures (clientHash (some ip) (some token))) :=
        guessesIn_bounded hmax hperiod
    _ ≤ 2 * l.maxFailures := allowance_le _ _ _

end Bucket

/-! ## Tokens that are not repeated -/

section Distinct
variable {config : AuthConfig} {l : AuthRateLimiter} {ip : String}

/-- A request of the peer with a wrong token and no identity of the transport. -/
def IsGuess (config : AuthConfig) (ip : String) (r : AuthRequest) : Prop :=
  r.peerIp = some ip ∧ r.preauthIdentity = none ∧
    (checkToken config r).1 = .error invalidToken

instance (config : AuthConfig) (ip : String) (r : AuthRequest) :
    Decidable (IsGuess config ip r) := inferInstanceAs (Decidable (_ ∧ _ ∧ _))

theorem counted_failures_none {k : Bytes} (h : l.failures k = none) (evictAt : Nat) :
    (l.counted evictAt).failures k = none := by
  unfold AuthRateLimiter.counted
  split
  · simp only [AuthRateLimiter.evictStale, h, evict, Option.filter_none]
  · exact h

/-- A token that the limiter has not seen of this peer is compared. -/
theorem guesses_of_new {r : AuthRequest} (hauth : config.requireAuth = true)
    (hguess : IsGuess config ip r) (hnew : l.failures r.bucket = none) : Guesses config ip l r := by
  obtain ⟨hpeer, hpreauth, hwrong⟩ := hguess
  have hfree : (l.isRateLimited r.bucket r.evictAt r.checkAt).1 = false := by
    simp only [AuthRateLimiter.isRateLimited, counted_failures_none hnew, limited]
  refine ⟨hpeer, ?_⟩
  unfold authenticate
  simp only [hpreauth, hauth, if_true, hfree]
  exact hwrong

/-- The other buckets stay empty. -/
theorem authStep_failures_none {r : AuthRequest} {k : Bytes} (hk : k ≠ r.bucket)
    (h : l.failures k = none) : (authStep config l r).failures k = none := by
  rcases authStep_cases config l r with ⟨hstep | hstep, -⟩ | ⟨-, hstep⟩
  · rw [hstep]
    exact h
  · rw [hstep]
    exact counted_failures_none h _
  · rw [hstep]
    simp only [AuthRateLimiter.recordFailure, hk, if_false]
    exact counted_failures_none h _

/-- **A peer that never repeats a token is never limited**: every guess is compared. -/
theorem distinct_guesses_compared {requests : List AuthRequest} (hauth : config.requireAuth = true)
    (hguess : ∀ r ∈ requests, IsGuess config ip r)
    (hdistinct : (requests.map AuthRequest.bucket).Nodup)
    (hnew : ∀ r ∈ requests, l.failures r.bucket = none) :
    count (authStep config) (Guesses config ip) l requests = requests.length := by
  induction requests generalizing l with
  | nil => rfl
  | cons r requests ih =>
    rw [map_cons, nodup_cons] at hdistinct
    have hfirst : Guesses config ip l r :=
      guesses_of_new hauth (hguess r mem_cons_self) (hnew r mem_cons_self)
    have hrest : ∀ r' ∈ requests, (authStep config l r).failures r'.bucket = none := by
      intro r' hr'
      refine authStep_failures_none ?_ (hnew r' (mem_cons_of_mem _ hr'))
      intro heq
      exact hdistinct.1 (heq ▸ mem_map_of_mem hr')
    rw [count, if_pos hfirst, ih (fun r' hr' => hguess r' (mem_cons_of_mem _ hr'))
      hdistinct.2 hrest, length_cons]
    omega

end Distinct

/-! ## A peer that tries the alphabet -/

/-- A server with a static token. -/
def tokenConfig : AuthConfig := { authToken := some "correct horse battery staple" }

/-- A guess of the peer at time zero. -/
def guess (token : String) : AuthRequest where
  peerIp := some "203.0.113.9"
  clientToken := some token
  evictAt := 0
  checkAt := 0
  failAt := 0

theorem guess_inPeriod (token : String) :
    InPeriod 0 (AuthRateLimiter.new 5 60).window (guess token) where
  begins := Nat.le_refl 0
  evict_check := Nat.le_refl 0
  check_fail := Nat.le_refl 0
  ends := by
    show 0 < 0 + 60 * 1000000000
    omega

/-- Twelve times the same wrong token. -/
theorem guesses_bounded_repeated :
    count (authStep tokenConfig) (Guesses tokenConfig "203.0.113.9") (AuthRateLimiter.new 5 60)
      (List.replicate 12 (guess "a")) ≤ 2 * 5 := by
  have hperiod : ∀ r ∈ List.replicate 12 (guess "a"),
      InPeriod 0 (AuthRateLimiter.new 5 60).window r := by
    intro r hr
    rw [eq_of_mem_replicate hr]
    exact guess_inPeriod "a"
  have hone : ∀ r ∈ List.replicate 12 (guess "a"), r.peerIp = some "203.0.113.9" →
      ∀ t ∈ r.clientToken, t = "a" ∨ some t = tokenConfig.authToken := by
    intro r hr _ t ht
    rw [eq_of_mem_replicate hr] at ht
    cases ht
    exact .inl rfl
  exact guesses_bounded (by decide) hperiod hone

def guesses : List AuthRequest := ["a", "b", "c", "d", "e", "f", "g", "h", "i", "j", "k"].map guess

/-- Eleven different tokens of one peer are compared at the same moment. -/
theorem guesses_unbounded :
    ¬ ∀ (config : AuthConfig) (requests : List AuthRequest) (ip : String) (a : Nat),
      config.requireAuth = true → config.authToken.isSome = true →
      (∀ r ∈ requests, r.preauthIdentity = none ∧
        InPeriod a (AuthRateLimiter.new 5 60).window r) →
      requests.Pairwise (fun r r' => r.failAt ≤ r'.evictAt) →
      count (authStep config) (Guesses config ip) (AuthRateLimiter.new 5 60) requests ≤ 2 * 5 := by
  intro h
  have hperiod : ∀ r ∈ guesses, r.preauthIdentity = none ∧
      InPeriod 0 (AuthRateLimiter.new 5 60).window r := by
    intro r hr
    obtain ⟨token, -, rfl⟩ := mem_map.mp hr
    exact ⟨rfl, guess_inPeriod token⟩
  have hwrong : ∀ r ∈ guesses, IsGuess tokenConfig "203.0.113.9" r := by
    simp only [IsGuess, checkToken, Sha256.hash_eq]
    decide +kernel
  have hdistinct : (guesses.map AuthRequest.bucket).Nodup := by
    unfold AuthRequest.bucket clientHash
    simp only [Sha256.hash_eq]
    decide +kernel
  have hle := h tokenConfig guesses "203.0.113.9" 0 rfl rfl hperiod (by decide +kernel)
  rw [distinct_guesses_compared rfl hwrong hdistinct fun r _ => rfl] at hle
  exact absurd hle (by decide)

end CratonHsm
