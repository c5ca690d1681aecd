import CratonHsm.AuthRateLimit
import CratonHsm.AuthTypes
import CratonHsm.RunHistory
import CratonHsm.Sha256

/-!
# Login with a bearer token

`OidcAuthProvider` of the authentication crate (`auth/oidc.rs`), from the answer of
`validate_token` on: the check that a token id was not seen before, the identity that is read from
the claims, and the rate limiter around them.

A token id is kept from its first use for what is left until `exp`, but for at least five minutes
and at most a day, and every 512th check drops those whose time is up.  The token itself is
accepted until `exp` plus the allowed clock skew.  So it is accepted once if its id is dropped only
after that; if it lives longer than a day, or is presented within the skew, a sweep lets it in
again.
-/

namespace CratonHsm.Auth
open PrefixFreeCode GuardedRun Function
open List hiding count

/-! ## Claims -/

/-- A JSON value; of a number only the reading as `u64` matters, and of an object nothing. -/
inductive JsonValue where
  | null
  | bool (b : Bool)
  | number (asU64 : Option UInt64)
  | string (s : String)
  | array (elements : List JsonValue)
  | object

/-- The claims of a token by name. -/
abbrev Claims := String → Option JsonValue

/-- `Value::as_str`. -/
def JsonValue.asStr : JsonValue → Option String
  | .string s => some s
  | _ => none

namespace Claims

/-- A claim that is a text. -/
def str (claims : Claims) (key : String) : Option String := (claims key).bind JsonValue.asStr

/-- A claim that is a number. -/
def u64 (claims : Claims) (key : String) : Option UInt64 :=
  match claims key with
  | some (.number n) => n
  | _ => none

/-- `extract_string_claim`. -/
def extractStringClaim (claims : Claims) (key : String) : Option String :=
  match claims key with
  | some (.string s) => some s
  | some (.array elements) => elements.head?.bind JsonValue.asStr
  | _ => none

end Claims

/-- The configuration of the provider. -/
structure OidcConfig where
  roleClaim : String
  tenantClaim : Option String := none
  mfaClaim : Option String := none
  clockSkewSecs : UInt64 := 5
  rateLimit : Option RateLimitConfig := none
  requireJti : Bool := false

/-- `role_rank`. -/
def roleRank : HsmRole → Nat
  | .so => 5
  | .keyManager => 4
  | .operator => 3
  | .user => 2
  | .auditor => 1

/-- `consider` of `extract_highest_role`. -/
def considerRole (best : Option HsmRole) (s : String) : Option HsmRole :=
  match parseRole s with
  | none => best
  | some r => if best.all (roleRank · < roleRank r) then some r else best

namespace OidcConfig

/-- `extract_highest_role`. -/
def extractHighestRole (c : OidcConfig) (claims : Claims) : Option HsmRole :=
  match claims c.roleClaim with
  | some (.string s) => considerRole none s
  | some (.array elements) => (elements.filterMap JsonValue.asStr).foldl considerRole none
  | _ => none

/-- `extract_mfa`. -/
def extractMfa (c : OidcConfig) (claims : Claims) : Bool :=
  match c.mfaClaim with
  | none => false
  | some name =>
    match claims name with
    | some (.bool b) => !b
    | some (.string s) =>
      let text := String.ofList (trimmed s)
      !(asciiLowercase text == "true" || text == "1")
    | _ => true

/-- The tenant claim: it may be missing, but not malformed. -/
def extractTenant (c : OidcConfig) (claims : Claims) : Except HsmError (Option TenantId) :=
  match c.tenantClaim.bind claims.extractStringClaim with
  | none => .ok none
  | some raw =>
    match TenantId.tryNew raw with
    | .ok tenant => .ok (some tenant)
    | .error _ => .error .pinIncorrect

/-- What `authenticate` reads from the claims once the token is accepted. -/
def identify (c : OidcConfig) (claims : Claims) : Except HsmError AuthResult :=
  match claims.str "sub" with
  | none => .error .pinIncorrect
  | some sub =>
    match c.extractHighestRole claims with
    | none => .error .pinIncorrect
    | some role =>
      match c.extractTenant claims with
      | .error e => .error e
      | .ok tenantId => .ok ⟨role, "oidc:" ++ sub, tenantId, c.extractMfa claims⟩

end OidcConfig

/-! ## The provider -/

/-- The provider with the token ids it has seen. -/
structure OidcAuthProvider where
  config : OidcConfig
  rateLimiter : AuthRateLimiter
  /-- `seen_jtis`: the instant until which a token id is kept. -/
  seenJtis : String → Option Nat := fun _ => none
  /-- `jti_cleanup_tick`, whose wrap at a multiple of 512 is not seen. -/
  jtiCleanupTick : Nat := 0

/-- A call of `authenticate`: the credentials, what `validate_token` answers, and the readings of
the clocks. -/
structure OidcLogin where
  credentials : AuthCredentials
  validated : Except HsmError Claims
  /-- The instant of the validation, which the model of the call does not use. -/
  validatedAt : Nat
  /-- `now_unix` -/
  unixSecs : Nat
  deadlineAt : Nat
  sweptAt : Nat
  checked : Timing
  failed : Timing

def MAX_JTI_RETENTION : Nat := 24 * 3600

def MIN_JTI_RETENTION : Nat := 300

/-- How long a token id is kept, in seconds. -/
def jtiRetention (exp : UInt64) (unixSecs : Nat) : Nat :=
  max MIN_JTI_RETENTION (min (exp.toNat - unixSecs) MAX_JTI_RETENTION)

namespace OidcAuthProvider

/-- A provider that has seen no token. -/
def new (config : OidcConfig) : OidcAuthProvider where
  config := config
  rateLimiter := .new (config.rateLimit.getD {})

/-- `hash_token`. -/
def hashToken (token : String) : String :=
  String.join (((Sha256.hash (asBytes token)).take 16).map fun b => hexPadded 2 b.toNat)

/-- The token ids after the sweep that every 512th check makes. -/
def retained (p : OidcAuthProvider) (login : OidcLogin) : String → Option Nat :=
  if p.jtiCleanupTick % 512 = 0 then fun jti => (p.seenJtis jti).filter (login.sweptAt < ·)
  else p.seenJtis

/-- `check_jti`. -/
def checkJti (p : OidcAuthProvider) (claims : Claims) (login : OidcLogin) :
    Except HsmError Unit × OidcAuthProvider :=
  if p.config.requireJti = false then (.ok (), p)
  else match claims.str "jti" with
    | none => (.error .pinIncorrect, p)
    | some jti =>
      match claims.u64 "exp" with
      | none => (.error .pinIncorrect, p)
      | some exp =>
        let deadline := login.deadlineAt + fromSecs (jtiRetention exp login.unixSecs)
        let seen := p.retained login
        let ticked := { p with seenJtis := seen, jtiCleanupTick := p.jtiCleanupTick + 1 }
        if (seen jti).isSome then (.error .pinIncorrect, ticked)
        else (.ok (), { ticked with seenJtis := Function.update seen jti (some deadline) })

/-- `authenticate`. -/
def authenticate (p : OidcAuthProvider) (login : OidcLogin) :
    Except HsmError AuthResult × OidcAuthProvider :=
  match login.credentials with
  | .token bearerToken =>
    let key := hashToken bearerToken
    let failure := fun (p : OidcAuthProvider) =>
      { p with rateLimiter := p.rateLimiter.recordFailure key login.failed }
    match p.rateLimiter.checkRateLimit key login.checked with
    | (.error e, limiter) => (.error e, { p with rateLimiter := limiter })
    | (.ok (), limiter) =>
      match login.validated with
      | .error e => (.error e, failure { p with rateLimiter := limiter })
      | .ok claims =>
        match { p with rateLimiter := limiter }.checkJti claims login with
        | (.error e, p) => (.error e, failure p)
        | (.ok (), p) =>
          match p.config.identify claims with
          | .error e => (.error e, failure p)
          | .ok result => (.ok result, { p with rateLimiter := p.rateLimiter.recordSuccess key })
  | _ => (.error .functionNotSupported, p)

/-- The provider after a login. -/
def step (p : OidcAuthProvider) (login : OidcLogin) : OidcAuthProvider := (p.authenticate login).2

/-- The claims that a call takes to `check_jti`. -/
def presented (p : OidcAuthProvider) (login : OidcLogin) : Option Claims :=
  match login.credentials with
  | .token bearerToken =>
    match (p.rateLimiter.checkRateLimit (hashToken bearerToken) login.checked).1,
      login.validated with
    | .ok (), .ok claims => some claims
    | _, _ => none
  | _ => none

/-- The call presents a token with this id and passes `check_jti`. -/
def Passes (jti : String) (p : OidcAuthProvider) (login : OidcLogin) : Prop :=
  match p.presented login with
  | some claims => claims.str "jti" = some jti ∧ (p.checkJti claims login).1 = .ok ()
  | none => False

instance (jti : String) (p : OidcAuthProvider) (login : OidcLogin) :
    Decidable (Passes jti p login) := by
  unfold Passes
  split <;> infer_instance

/-- The sweep of the call drops the token id. -/
def Drops (jti : String) (p : OidcAuthProvider) (login : OidcLogin) : Prop :=
  (∃ claims, p.presented login = some claims ∧ (claims.str "jti").isSome ∧
    (claims.u64 "exp").isSome) ∧ (p.seenJtis jti).isSome ∧ p.retained login jti = none

/-! ## One call -/

section Call
variable {p : OidcAuthProvider} {login : OidcLogin} {claims : Claims} {jti : String}

theorem checkJti_limiter (p : OidcAuthProvider) (limiter : AuthRateLimiter) (claims : Claims)
    (login : OidcLogin) : { p with rateLimiter := limiter }.checkJti claims login =
      ((p.checkJti claims login).1,
        { (p.checkJti claims login).2 with rateLimiter := limiter }) := by
  have hretained : { p with rateLimiter := limiter }.retained login = p.retained login := rfl
  unfold checkJti
  rw [hretained]
  split
  · rfl
  split
  · rfl
  next jti _ =>
  split
  · rfl
  by_cases hseen : (p.retained login jti).isSome
  · simp only [hseen, if_true]
  · simp only [hseen, Bool.false_eq_true, if_false]

theorem checkJti_config (p : OidcAuthProvider) (claims : Claims) (login : OidcLogin) :
    (p.checkJti claims login).2.config = p.config := by
  unfold checkJti
  split
  · rfl
  split
  · rfl
  split
  · rfl
  dsimp only
  split <;> rfl

/-- What a call leaves apart from the limiter. -/
theorem step_spec (p : OidcAuthProvider) (login : OidcLogin) :
    (step p login).config = p.config ∧
    (step p login).seenJtis = match p.presented login with
      | some claims => (p.checkJti claims login).2.seenJtis
      | none => p.seenJtis := by
  unfold step authenticate presented
  cases hcredentials : login.credentials with
  | pin | certificate | ldapBind => exact ⟨rfl, rfl⟩
  | token bearerToken =>
    dsimp only
    rcases hcheck : p.rateLimiter.checkRateLimit (hashToken bearerToken) login.checked with
      ⟨e | ⟨⟩, limiter⟩
    · exact ⟨rfl, rfl⟩
    rcases hvalid : login.validated with _ | claims
    · exact ⟨rfl, rfl⟩
    dsimp only
    have hconfig := p.checkJti_config claims login
    rw [checkJti_limiter]
    rcases hjti : p.checkJti claims login with ⟨e | ⟨⟩, q⟩
    · rw [hjti] at hconfig
      exact ⟨hconfig, rfl⟩
    rw [hjti] at hconfig
    dsimp only
    split <;> exact ⟨hconfig, rfl⟩

/-- A check that is passed: the id is not among those kept, and is kept from now on. -/
theorem checkJti_ok (hrequire : p.config.requireJti = true)
    (hjti : claims.str "jti" = some jti) (h : (p.checkJti claims login).1 = .ok ()) :
    (claims.u64 "exp").isSome ∧ p.retained login jti = none ∧
      ((p.checkJti claims login).2.seenJtis jti).isSome := by
  unfold checkJti at h ⊢
  rw [if_neg (by simp [hrequire]), hjti] at h ⊢
  dsimp only at h ⊢
  split at h
  · cases h
  next exp hexp =>
  by_cases hseen : (p.retained login jti).isSome
  · rw [if_pos hseen] at h
    cases h
  rw [if_neg hseen]
  refine ⟨by rw [hexp]; rfl, Option.not_isSome_iff_eq_none.mp hseen, ?_⟩
  dsimp only
  rw [update_self]
  rfl

/-- An id is only dropped by the sweep. -/
theorem checkJti_keeps (claims : Claims) (login : OidcLogin)
    (hrequire : p.config.requireJti = true)
    (hseen : (p.seenJtis jti).isSome) :
    ((p.checkJti claims login).2.seenJtis jti).isSome ∨
      ((claims.str "jti").isSome ∧ (claims.u64 "exp").isSome ∧ p.retained login jti = none) := by
  unfold checkJti
  rw [if_neg (by simp [hrequire])]
  split
  · exact .inl hseen
  next jti' hjti =>
  split
  · exact .inl hseen
  next exp hexp =>
  by_cases hkept : (p.retained login jti).isSome
  · left
    dsimp only
    split
    · exact hkept
    dsimp only
    by_cases heq : jti = jti'
    · rw [heq, update_self]
      rfl
    · rw [update_of_ne heq]
      exact hkept
  · right
    exact ⟨by rw [hjti]; rfl, by rw [hexp]; rfl, Option.not_isSome_iff_eq_none.mp hkept⟩

theorem seen_of_passes (hrequire : p.config.requireJti = true) (h : Passes jti p login) :
    ((step p login).seenJtis jti).isSome := by
  unfold Passes at h
  rw [(step_spec p login).2]
  split at h
  · exact (checkJti_ok hrequire h.1 h.2).2.2
  · exact h.elim

/-- A token whose id is kept passes only if its own sweep drops the id. -/
theorem drops_of_passes (hrequire : p.config.requireJti = true) (hseen : (p.seenJtis jti).isSome)
    (h : Passes jti p login) : Drops jti p login := by
  unfold Passes at h
  split at h
  · next claims hpresented =>
    obtain ⟨hexp, hnone, -⟩ := checkJti_ok hrequire h.1 h.2
    exact ⟨⟨claims, hpresented, by rw [h.1]; rfl, hexp⟩, hseen, hnone⟩
  · exact h.elim

theorem step_keeps (login : OidcLogin) (hrequire : p.config.requireJti = true)
    (hseen : (p.seenJtis jti).isSome) :
    ((step p login).seenJtis jti).isSome ∨ Drops jti p login := by
  rw [(step_spec p login).2]
  cases hpresented : p.presented login with
  | none => exact .inl hseen
  | some claims =>
    rcases checkJti_keeps claims login hrequire hseen with hkept | ⟨hjti, hexp, hnone⟩
    · exact .inl hkept
    · exact .inr ⟨⟨claims, hpresented, hjti, hexp⟩, hseen, hnone⟩

end Call

/-! ## Runs -/

/-- What `validate_token` is taken to answer at a wall time in seconds: a token that is genuine is
accepted exactly from `nbf` to `exp`, give or take the skew. -/
def validateAt (skew : UInt64) (claims : Option Claims) (wall : Nat) : Except HsmError Claims :=
  match claims with
  | none => .error .pinIncorrect
  | some claims =>
    match claims.u64 "exp" with
    | none => .error .pinIncorrect
    | some exp =>
      if ((claims.u64 "nbf").all fun nbf => nbf.toNat ≤ wall + skew.toNat) ∧
        wall ≤ exp.toNat + skew.toNat then .ok claims
      else .error .pinIncorrect

/-- What a run takes place in: the wall clock is `offset` ahead of the monotonic one, a call takes
no longer than `delay`, and `claimsOf` says what a genuine token holds. -/
structure Setting where
  config : OidcConfig
  offset : Nat
  delay : Nat
  claimsOf : String → Option Claims

namespace Setting

/-- The readings of a call are those of the clocks, and validation is taken at its word. -/
structure Reads (c : Setting) (login : OidcLogin) : Prop where
  unix : ∃ unixAt, login.validatedAt ≤ unixAt ∧ unixAt ≤ login.deadlineAt ∧
    login.unixSecs = asSecs (c.offset + unixAt)
  ordered : login.validatedAt ≤ login.deadlineAt ∧ login.deadlineAt ≤ login.sweptAt
  prompt : login.sweptAt ≤ login.validatedAt + c.delay
  validates : ∀ bearerToken, login.credentials = .token bearerToken → login.validated =
    validateAt c.config.clockSkewSecs (c.claimsOf bearerToken)
      (asSecs (c.offset + login.validatedAt))

/-- The calls are made one after the other. -/
def Ordered (logins : List OidcLogin) : Prop := logins.Pairwise fun a b => a.sweptAt ≤ b.validatedAt

/-- Every token of the run with this id is past `exp` and the skew at the instant, by the time
that a call takes. -/
def Expired (c : Setting) (logins : List OidcLogin) (jti : String) (instant : Nat) : Prop :=
  ∀ login ∈ logins, ∀ bearerToken claims exp, login.credentials = .token bearerToken →
    c.claimsOf bearerToken = some claims → claims.str "jti" = some jti →
    claims.u64 "exp" = some exp →
    fromSecs (exp.toNat + c.config.clockSkewSecs.toNat + 1) + c.delay ≤ c.offset + instant

/-- The sweep of the call drops only ids whose tokens have expired. -/
def DropsExpired (c : Setting) (logins : List OidcLogin) (p : OidcAuthProvider)
    (login : OidcLogin) :
    Prop :=
  ∀ jti, Drops jti p login → c.Expired logins jti login.sweptAt

end Setting

section Runs
variable {c : Setting} {logins : List OidcLogin} {p : OidcAuthProvider} {login : OidcLogin}
  {jti : String} {instant : Nat} {rest : List OidcLogin}

theorem Setting.Expired.mono (h : c.Expired logins jti instant) {later : Nat}
    (hle : instant ≤ later) : c.Expired logins jti later := by
  intro login hlogin bearerToken claims exp hcredentials hclaims hjti hexp
  have := h login hlogin bearerToken claims exp hcredentials hclaims hjti hexp
  omega

theorem of_validateAt {skew : UInt64} {claims : Option Claims} {accepted : Claims} {wall : Nat}
    (h : validateAt skew claims wall = .ok accepted) :
    claims = some accepted ∧ ∃ exp, accepted.u64 "exp" = some exp ∧
      wall ≤ exp.toNat + skew.toNat := by
  unfold validateAt at h
  split at h
  · cases h
  next claims =>
  split at h
  · cases h
  next exp hexp =>
  split at h
  · next hwindow =>
    cases h
    exact ⟨rfl, exp, hexp, hwindow.2⟩
  · cases h

theorem of_presented {claims : Claims} (h : p.presented login = some claims) :
    ∃ bearerToken, login.credentials = .token bearerToken ∧ login.validated = .ok claims := by
  unfold presented at h
  split at h
  · next bearerToken hcredentials =>
    split at h
    · next hvalidated =>
      cases h
      exact ⟨bearerToken, hcredentials, hvalidated⟩
    · cases h
  · cases h

/-- A token that passes has not expired when it is validated. -/
theorem not_expired_of_passes (hreads : c.Reads login) (hlogin : login ∈ logins)
    (h : Passes jti p login) (hexpired : c.Expired logins jti instant) :
    login.validatedAt + c.delay < instant := by
  unfold Passes at h
  split at h
  · next claims hpresented =>
    obtain ⟨bearerToken, hcredentials, hvalidated⟩ := of_presented hpresented
    rw [hreads.validates bearerToken hcredentials] at hvalidated
    obtain ⟨hclaims, exp, hexp, hwall⟩ := of_validateAt hvalidated
    have hlate := hexpired login hlogin bearerToken claims exp hcredentials hclaims h.1 hexp
    have hvalid := asSecs_lt.mp (Nat.lt_succ_of_le hwall)
    rw [Nat.succ_eq_add_one] at hvalid
    omega
  · exact h.elim

/-- The id was seen before: it is kept, or its tokens have expired. -/
def Known (c : Setting) (logins : List OidcLogin) (jti : String) (p : OidcAuthProvider)
    (instant : Nat) : Prop :=
  (p.seenJtis jti).isSome ∨ c.Expired logins jti instant

section Required
variable (hrequire : p.config.requireJti = true)
include hrequire

section
variable (h : Known c logins jti p instant)
include h

theorem known_step (hdrops : c.DropsExpired logins p login)
    (hle : instant ≤ login.sweptAt) : Known c logins jti (step p login) login.sweptAt := by
  rcases h with hseen | hexpired
  · rcases step_keeps login hrequire hseen with hkept | hdropped
    · exact .inl hkept
    · exact .inr (hdrops jti hdropped)
  · exact .inr (hexpired.mono hle)

theorem not_passes_of_known
    (hdrops : c.DropsExpired logins p login) (hreads : c.Reads login) (hlogin : login ∈ logins)
    (hle : instant ≤ login.validatedAt) :
    ¬ Passes jti p login := by
  intro hpasses
  rcases h with hseen | hexpired
  · -- the sweep of this very call has dropped the id
    have hdropped := hdrops jti (drops_of_passes hrequire hseen hpasses)
    have := not_expired_of_passes hreads hlogin hpasses hdropped
    have := hreads.prompt
    omega
  · have := not_expired_of_passes hreads hlogin hpasses hexpired
    omega

/-- The rest of a run, once the id is known. -/
theorem count_of_known (hrest : ∀ login ∈ rest, login ∈ logins ∧ c.Reads login)
    (hfrom : ∀ login ∈ rest, instant ≤ login.validatedAt) (hordered : Setting.Ordered rest)
    (hdrops : Along step (c.DropsExpired logins) p rest) : count step (Passes jti) p rest = 0 := by
  induction rest generalizing p instant with
  | nil => rfl
  | cons login rest ih =>
    obtain ⟨hlogin, hreads⟩ := hrest login mem_cons_self
    have hle := hfrom login mem_cons_self
    obtain ⟨hnext, hordered'⟩ := pairwise_cons.mp hordered
    rw [count, if_neg (not_passes_of_known hrequire h hdrops.1 hreads hlogin hle), Nat.zero_add]
    have hinstant : instant ≤ login.sweptAt := by
      have := hreads.ordered
      omega
    exact ih (by rw [(step_spec p login).1]; exact hrequire)
      (known_step hrequire h hdrops.1 hinstant)
      (fun l hl => hrest l (mem_cons_of_mem _ hl)) hnext hordered' hdrops.2

end

theorem count_passes_le_one
    (hrest : ∀ login ∈ rest, login ∈ logins ∧ c.Reads login) (hordered : Setting.Ordered rest)
    (hdrops : Along step (c.DropsExpired logins) p rest) : count step (Passes jti) p rest ≤ 1 := by
  induction rest generalizing p with
  | nil => exact Nat.zero_le _
  | cons login rest ih =>
    obtain ⟨hnext, hordered'⟩ := pairwise_cons.mp hordered
    have hrequire' : (step p login).config.requireJti = true := by
      rw [(step_spec p login).1]
      exact hrequire
    have hrest' : ∀ l ∈ rest, l ∈ logins ∧ c.Reads l := fun l hl =>
      hrest l (mem_cons_of_mem _ hl)
    rw [count]
    by_cases hpasses : Passes jti p login
    · have hzero := count_of_known hrequire' (.inl (seen_of_passes hrequire hpasses)) hrest' hnext
        hordered' hdrops.2
      exact Nat.le_of_eq (by rw [if_pos hpasses, hzero])
    · rw [if_neg hpasses, Nat.zero_add]
      exact ih hrequire' hrest' hordered' hdrops.2

end Required

/-- **A token is accepted at most once**, as long as a sweep drops an id only after every token
with it has expired. -/
theorem token_accepted_once (c : Setting) (hrequire : c.config.requireJti = true)
    (logins : List OidcLogin) (hreads : ∀ login ∈ logins, c.Reads login)
    (hordered : Setting.Ordered logins)
    (hdrops : Along step (c.DropsExpired logins) (new c.config) logins) (jti : String) :
    count step (Passes jti) (new c.config) logins ≤ 1 :=
  count_passes_le_one hrequire (fun login hlogin => ⟨hlogin, hreads login hlogin⟩) hordered hdrops

end Runs

/-! ### A token that lives for two days -/

section Sample

/-- The claims of a token whose text is also its id. -/
def sampleClaims (jti : String) : Claims
  | "sub" => some (.string "alice")
  | "role" => some (.string "operator")
  | "jti" => some (.string jti)
  | "exp" => some (.number (some 172800))
  | _ => none

def sampleSetting : Setting where
  config := { roleClaim := "role", requireJti := true }
  offset := 0
  delay := 0
  claimsOf token := some (sampleClaims token)

/-- A call at the given second. -/
def sampleCall (token : String) (secs : Nat) : OidcLogin where
  credentials := .token token
  validated := .ok (sampleClaims token)
  validatedAt := fromSecs secs
  unixSecs := secs
  deadlineAt := fromSecs secs
  sweptAt := fromSecs secs
  checked := ⟨fromSecs secs, fromSecs secs, []⟩
  failed := ⟨fromSecs secs, fromSecs secs, []⟩

theorem sampleCall_reads (token : String) {secs : Nat} (hsecs : secs ≤ 172800) :
    sampleSetting.Reads (sampleCall token secs) := by
  have hwall : asSecs (0 + fromSecs secs) = secs := by
    unfold asSecs fromSecs
    omega
  refine ⟨⟨fromSecs secs, Nat.le_refl _, Nat.le_refl _, hwall.symm⟩, ⟨Nat.le_refl _, Nat.le_refl _⟩,
    Nat.le_add_right _ _, ?_⟩
  intro bearerToken hcredentials
  obtain rfl := AuthCredentials.token.inj hcredentials
  have hexp : (sampleClaims token).u64 "exp" = some 172800 := rfl
  have hnbf : (sampleClaims token).u64 "nbf" = none := rfl
  have hwindow : secs ≤ (172800 : UInt64).toNat + (5 : UInt64).toNat :=
    Nat.le_trans hsecs (by decide +kernel)
  unfold validateAt
  simp only [sampleSetting, sampleCall, hexp, hnbf, hwall, Option.all_none, true_and]
  rw [if_pos hwindow]

variable {p : OidcAuthProvider} {token : String} {secs n : Nat}

/-- A provider in the course of the run: nobody has failed. -/
structure Running (n : Nat) (p : OidcAuthProvider) : Prop where
  config : p.config = sampleSetting.config
  entries : p.rateLimiter.entries = ∅
  tick : p.jtiCleanupTick = n

theorem checkRateLimit_empty {l : AuthRateLimiter} (h : l.entries = ∅) (key : String) (t : Timing) :
    ∃ l', l.checkRateLimit key t = (.ok (), l') ∧ l'.entries = ∅ := by
  have hticked : (l.ticked t.cleanupAt t.order).entries = ∅ := by
    unfold AuthRateLimiter.ticked AuthRateLimiter.cleanupStaleEntries
    dsimp only
    split
    · rw [if_pos (by rw [h]; rfl)]
      exact h
    · exact h
  refine ⟨l.ticked t.cleanupAt t.order, ?_, hticked⟩
  unfold AuthRateLimiter.checkRateLimit
  dsimp only
  rw [hticked]
  simp [MAX_ENTRIES]

/-- A call whose token id is not kept after the sweep goes through. -/
theorem step_accepts (h : Running n p) (token : String) (secs : Nat)
    (hnone : p.retained (sampleCall token secs) token = none) :
    Passes token p (sampleCall token secs) ∧ Running (n + 1) (step p (sampleCall token secs)) ∧
      (step p (sampleCall token secs)).seenJtis = update (p.retained (sampleCall token secs))
        token (some (fromSecs secs + fromSecs (jtiRetention 172800 secs))) := by
  obtain ⟨limiter, hlimiter, hempty⟩ :=
    checkRateLimit_empty h.entries (hashToken token) (sampleCall token secs).checked
  have hjti : (sampleClaims token).str "jti" = some token := rfl
  have hexp : (sampleClaims token).u64 "exp" = some 172800 := rfl
  have hrequire : ¬ p.config.requireJti = false := by rw [h.config]; decide
  have hcheck : p.checkJti (sampleClaims token) (sampleCall token secs) = (.ok (),
      { p with
        seenJtis := update (p.retained (sampleCall token secs)) token
          (some (fromSecs secs + fromSecs (jtiRetention 172800 secs)))
        jtiCleanupTick := p.jtiCleanupTick + 1 }) := by
    rw [checkJti, if_neg hrequire, hjti]
    rw [hexp]
    dsimp only
    rw [if_neg (by rw [hnone]; decide)]
    rfl
  have hidentify : p.config.identify (sampleClaims token) =
      .ok ⟨.operator, "oidc:alice", none, false⟩ := by
    have hsub : (sampleClaims token).str "sub" = some "alice" := rfl
    have hclaim : sampleClaims token "role" = some (.string "operator") := rfl
    have hrole : considerRole none "operator" = some .operator := by decide +kernel
    rw [h.config, OidcConfig.identify, hsub]
    simp only [OidcConfig.extractHighestRole, sampleSetting, hclaim, hrole]
    rfl
  have hpresented : p.presented (sampleCall token secs) = some (sampleClaims token) := by
    simp only [presented, sampleCall] at hlimiter ⊢
    rw [hlimiter]
  have hstep : step p (sampleCall token secs) =
      ⟨p.config, limiter.recordSuccess (hashToken token),
        update (p.retained (sampleCall token secs)) token
          (some (fromSecs secs + fromSecs (jtiRetention 172800 secs))), p.jtiCleanupTick + 1⟩ := by
    have hcredentials : (sampleCall token secs).credentials = .token token := rfl
    have hvalidated : (sampleCall token secs).validated = .ok (sampleClaims token) := rfl
    rw [step, authenticate, hcredentials]
    dsimp only
    rw [hlimiter, hvalidated]
    dsimp only
    rw [checkJti_limiter, hcheck]
    dsimp only
    rw [hidentify]
  refine ⟨?_, ?_, by rw [hstep]⟩
  · unfold Passes
    rw [hpresented]
    dsimp only
    rw [hcheck]
    exact ⟨hjti, rfl⟩
  · rw [hstep]
    refine ⟨h.config, ?_, by rw [h.tick]⟩
    rw [AuthRateLimiter.recordSuccess, hempty]
    rfl

/-- Different token texts. -/
def numberedToken (i : Nat) : String := String.ofList (List.replicate (i + 1) 'x')

theorem numberedToken_inj {i j : Nat} (h : numberedToken i = numberedToken j) : i = j := by
  have hlength := congrArg (fun s => s.toList.length) h
  simpa [numberedToken] using hlength

/-- The first `n` tokens have been presented at time 0. -/
structure Filled (n : Nat) (p : OidcAuthProvider) : Prop extends Running n p where
  seen : ∀ i, p.seenJtis (numberedToken i) = if i < n then some (fromSecs 86400) else none

theorem filled_step (h : Filled n p) (hn : n < 512) :
    Passes (numberedToken n) p (sampleCall (numberedToken n) 0) ∧
      Filled (n + 1) (step p (sampleCall (numberedToken n) 0)) := by
  have hretained : ∀ i, p.retained (sampleCall (numberedToken n) 0) (numberedToken i) =
      if i < n then some (fromSecs 86400) else none := by
    intro i
    unfold retained
    rw [h.tick]
    by_cases hzero : n % 512 = 0
    · -- the first call: nothing is kept yet
      have hn0 : n = 0 := by omega
      rw [if_pos hzero, h.seen, hn0, if_neg (Nat.not_lt_zero i)]
      rfl
    · rw [if_neg hzero]
      exact h.seen i
  obtain ⟨hpasses, hrunning, hseen⟩ := step_accepts h.toRunning (numberedToken n) 0
    (by rw [hretained, if_neg (Nat.lt_irrefl n)])
  refine ⟨hpasses, hrunning, ?_⟩
  intro i
  rw [hseen]
  by_cases hi : i = n
  · subst hi
    rw [update_self, if_pos (Nat.lt_succ_self i)]
    decide
  · rw [update_of_ne fun heq => hi (numberedToken_inj heq), hretained]
    by_cases hlt : i < n
    · rw [if_pos hlt, if_pos (by omega)]
    · rw [if_neg hlt, if_neg (by omega)]

/-- The tokens from `n` on, one call each. -/
def fillers (n m : Nat) : List OidcLogin :=
  (List.range m).map fun i => sampleCall (numberedToken (n + i)) 0

theorem filled_fillers (h : Filled n p) (m : Nat) (hm : n + m ≤ 512) :
    Filled (n + m) (run step p (fillers n m)) := by
  induction m with
  | zero => exact h
  | succ m ih =>
    rw [fillers, range_succ, map_append, map_singleton, run_snoc]
    exact (filled_step (ih (by omega)) (by omega)).2

theorem filled_new : Filled 0 (new sampleSetting.config) := ⟨⟨rfl, rfl, rfl⟩, fun _ => rfl⟩

/-- The same token twice within its retention, the second time in vain. -/
theorem token_accepted_once_sample :
    count step (Passes (numberedToken 0)) (new sampleSetting.config)
      [sampleCall (numberedToken 0) 0, sampleCall (numberedToken 0) 10] ≤ 1 := by
  refine token_accepted_once sampleSetting rfl
    [sampleCall (numberedToken 0) 0, sampleCall (numberedToken 0) 10] ?_ ?_ ⟨?_, ?_, trivial⟩ _
  · intro login hlogin
    simp only [mem_cons, not_mem_nil, or_false] at hlogin
    rcases hlogin with rfl | rfl
    · exact sampleCall_reads _ (by decide)
    · exact sampleCall_reads _ (by decide)
  · exact pairwise_pair.mpr (Nat.zero_le _)
  · rintro jti ⟨-, hseen, -⟩
    cases hseen
  · rintro jti ⟨-, hseen, hretained⟩
    have hfilled := (filled_step filled_new (by decide)).2
    unfold retained at hretained
    rw [hfilled.tick, if_neg (by decide)] at hretained
    rw [hretained] at hseen
    cases hseen

/-- The token is presented again after a day, when the 513th check sweeps. -/
def replayRun : List OidcLogin :=
  sampleCall (numberedToken 0) 0 :: (fillers 1 511 ++ [sampleCall (numberedToken 0) 86400])

theorem passes_again (h : Filled 512 p) :
    Passes (numberedToken 0) p (sampleCall (numberedToken 0) 86400) := by
  have hdropped : p.retained (sampleCall (numberedToken 0) 86400) (numberedToken 0) = none := by
    unfold retained
    rw [h.tick, if_pos (by decide), h.seen]
    decide
  exact (step_accepts h.toRunning (numberedToken 0) 86400 hdropped).1

theorem count_replay (h : Filled 1 p) : 1 ≤ count step (Passes (numberedToken 0)) p
    (fillers 1 511 ++ [sampleCall (numberedToken 0) 86400]) := by
  have hfull : Filled 512 (run step p (fillers 1 511)) := filled_fillers h 511 (by decide)
  rw [count_snoc]
  -- only what is known of the state matters from here on
  generalize run step p (fillers 1 511) = q at hfull ⊢
  rw [if_pos (passes_again hfull)]
  exact Nat.le_add_left _ _

theorem replayRun_calls {login : OidcLogin} (h : login ∈ replayRun) :
    ∃ token secs, login = sampleCall token secs ∧ secs ≤ 86400 := by
  rcases mem_cons.mp h with rfl | h
  · exact ⟨_, 0, rfl, by decide⟩
  rcases mem_append.mp h with h | h
  · obtain ⟨i, -, rfl⟩ := mem_map.mp h
    exact ⟨_, 0, rfl, by decide⟩
  · obtain rfl := mem_singleton.mp h
    exact ⟨_, 86400, rfl, by decide⟩

theorem replayRun_ordered : Setting.Ordered replayRun := by
  have hzero : ∀ login ∈ fillers 1 511, login.sweptAt = 0 := by
    intro login hlogin
    obtain ⟨i, -, rfl⟩ := mem_map.mp hlogin
    rfl
  refine pairwise_cons.mpr ⟨fun _ _ => Nat.zero_le _, pairwise_append.mpr ⟨?_, ?_, ?_⟩⟩
  · refine List.Pairwise.imp_of_mem (R := fun _ _ => True) ?_
      (pairwise_of_forall fun _ _ => trivial)
    intro a b ha _ _
    rw [hzero a ha]
    exact Nat.zero_le _
  · exact pairwise_singleton _ _
  · intro a ha b _
    rw [hzero a ha]
    exact Nat.zero_le _

/-- A token that expires after two days passes twice: its id is kept for a day, and the first sweep
after that drops it. -/
theorem long_token_passes_twice :
    (∀ login ∈ replayRun, sampleSetting.Reads login) ∧ Setting.Ordered replayRun ∧
      1 < count step (Passes (numberedToken 0)) (new sampleSetting.config) replayRun := by
  refine ⟨?_, replayRun_ordered, ?_⟩
  · intro login hlogin
    obtain ⟨token, secs, rfl, hsecs⟩ := replayRun_calls hlogin
    exact sampleCall_reads token (by omega)
  · obtain ⟨hfirst, hfilled⟩ := filled_step filled_new (by decide)
    have hreplay := count_replay hfilled
    rw [replayRun, count, if_pos hfirst]
    omega

end Sample

end OidcAuthProvider

end CratonHsm.Auth
