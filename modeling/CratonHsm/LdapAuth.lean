import CratonHsm.AuthRateLimit
import CratonHsm.AuthTypes
import CratonHsm.RunHistory
import CratonHsm.Sha256

/-!
# The LDAP provider

`LdapAuthProvider`: a login takes a connection, binds as the user, searches the user's entry
and maps its groups to a role.  What the directory server answers is an input of every call
(`LdapExchange`).

A connection that is opened because no pool slot holds one is counted as overflow.  The count
is released when the connection is returned and when its bind breaks, but not when the bind
is refused or the search fails: `overflowCount_run` says that the count is exactly the number
of such logins.  The password is handed to the server as it is, also when it is empty.
-/

namespace CratonHsm.Auth
open Std GuardedRun

/-! ## Configuration -/

/-- How a connection is secured. -/
inductive LdapTlsMode where
  | none
  | ldaps
  | startTls
  deriving DecidableEq

/-- `LdapConfig`, with its defaults; the address and the timeout of the server are part of
what `LdapExchange` stands for. -/
structure LdapConfig where
  baseDn : String
  bindDnTemplate : String
  /-- A `BTreeMap`: entries in the order of the group names. -/
  roleMapping : ExtTreeMap String String
  tenantAttribute : Option String := none
  tlsMode : LdapTlsMode := .startTls
  userSearchFilter : String := "(uid=\x7b\x7d)"
  groupAttribute : String := "memberOf"
  requireMfa : Bool := false
  poolSize : Nat := 4
  maxConnections : Option Nat := none
  rateLimit : Option RateLimitConfig := none
  allowPlaintext : Bool := false

/-- How often the placeholder occurs in a template. -/
def countPlaceholders : List Char → Nat
  | '\x7b' :: '\x7d' :: rest => countPlaceholders rest + 1
  | _ :: rest => countPlaceholders rest
  | [] => 0

/-- `template.replace("{}", value)`. -/
def replacePlaceholder (value : List Char) : List Char → List Char
  | '\x7b' :: '\x7d' :: rest => value ++ replacePlaceholder value rest
  | c :: rest => c :: replacePlaceholder value rest
  | [] => []

/-- The refusal of a template. -/
def templateError (field template : String) : HsmError :=
  .configError ("ldap: " ++ field ++ " must contain exactly one `\x7b\x7d` placeholder, got " ++
    toString (countPlaceholders template.toList))

/-- `LdapConfig::validate`. -/
def LdapConfig.validate (c : LdapConfig) : Except HsmError Unit :=
  if countPlaceholders c.bindDnTemplate.toList ≠ 1 then
    .error (templateError "bind_dn_template" c.bindDnTemplate)
  else if countPlaceholders c.userSearchFilter.toList ≠ 1 then
    .error (templateError "user_search_filter" c.userSearchFilter)
  else if c.tlsMode = .none ∧ c.allowPlaintext = false then
    .error (.configError ("ldap: tls_mode = none requires allow_plaintext = true; \n" ++
      "                     bind credentials would traverse the network in cleartext"))
  else .ok ()

/-! ## Escaping -/

/-- `escape_ldap_filter` (RFC 4515). -/
def escapeLdapFilter (input : String) : List Char :=
  input.toList.flatMap fun c =>
    match c with
    | '\\' => "\\5c".toList
    | '*' => "\\2a".toList
    | '(' => "\\28".toList
    | ')' => "\\29".toList
    | '\x00' => "\\00".toList
    | c => [c]

/-- One byte of `escape_dn_value`, at its place in a value of `len` bytes. -/
def escapeDnByte (len i : Nat) (b : UInt8) : List Char :=
  let c := Char.ofNat b.toNat
  match c with
  | ',' | '+' | '"' | '\\' | '<' | '>' | ';' => ['\\', c]
  | '\x00' => "\\00".toList
  | ' ' => if i = 0 ∨ i = len - 1 then ['\\', ' '] else [c]
  | '#' => if i = 0 then ['\\', '#'] else [c]
  | _ => [c]

/-- `escape_dn_value` (RFC 4514).  It walks over the *bytes* of the text and pushes each as a
character of its own. -/
def escapeDnValue (input : String) : List Char :=
  let bytes := asBytes input
  bytes.zipIdx.flatMap fun (b, i) => escapeDnByte bytes.length i b

/-! ## The server -/

/-- The attributes of an entry of the directory. -/
abbrev LdapEntry := ExtTreeMap String (List String)

/-- What a search comes to: a transport error, a result that is not a success, or entries. -/
inductive SearchReply where
  | transportError
  | resultError
  | found (entries : List LdapEntry)

/-- The search did not come to a list of entries. -/
def SearchReply.failed : SearchReply → Bool
  | .found _ => false
  | _ => true

/-- What the server answers during one login: whether a connection can be opened, the result
code of the bind (none for a transport error), the same for the second attempt on a fresh
connection, and the reply to the search. -/
structure LdapExchange where
  connects : Bool
  bind : (dn password : String) → Option UInt32
  reconnects : Bool
  rebind : (dn password : String) → Option UInt32
  search : (baseDn filter : String) → (attrs : List String) → SearchReply

namespace LdapConfig

/-- `map_role`. -/
def mapRole (c : LdapConfig) (groups : List String) : Option HsmRole :=
  (c.roleMapping.toList.find? fun (groupDn, _) => groups.contains groupDn).bind
    fun (_, roleName) => parseRole roleName

/-- The DN of a user. -/
def bindDn (c : LdapConfig) (username : String) : String :=
  String.ofList (replacePlaceholder (escapeDnValue username) c.bindDnTemplate.toList)

/-- The search for the entry of a user. -/
def searchUser (c : LdapConfig) (username : String) (server : LdapExchange) : SearchReply :=
  server.search c.baseDn
    (String.ofList (replacePlaceholder (escapeLdapFilter username) c.userSearchFilter.toList))
    (c.groupAttribute :: c.tenantAttribute.toList)

/-- The last part of `ldap_authenticate`: role and tenant from what the search found. -/
def authResult (c : LdapConfig) (username : String) (entries : List LdapEntry) :
    Except HsmError AuthResult :=
  match entries with
  | [] => .error .pinIncorrect
  | entry :: _ =>
    match c.mapRole (entry[c.groupAttribute]?.getD []) with
    | none => .error .operationDenied
    | some role =>
      let result := fun tenantId =>
        .ok ⟨role, "ldap:" ++ username, tenantId, c.requireMfa⟩
      match c.tenantAttribute.bind fun attr => entry[attr]?.bind List.head? with
      | none => result none
      | some raw =>
        match TenantId.tryNew raw with
        | .ok t => result (some t)
        | .error _ => .error .pinIncorrect

end LdapConfig

/-! ## The provider -/

/-- `LdapAuthProvider`; a slot of the pool is `true` when it holds a connection. -/
structure LdapAuthProvider where
  config : LdapConfig
  pool : List Bool
  overflowCount : Nat
  maxOverflow : Nat
  rateLimiter : AuthRateLimiter

namespace LdapAuthProvider

/-- `LdapAuthProvider::try_new`. -/
def tryNew (config : LdapConfig) : Except HsmError LdapAuthProvider :=
  match config.validate with
  | .error e => .error e
  | .ok () =>
    let poolSize := max config.poolSize 1
    .ok {
      config := config
      pool := List.replicate poolSize false
      overflowCount := 0
      maxOverflow := match config.maxConnections with
        | some mc => mc - poolSize
        | none => 2
      rateLimiter := .new (config.rateLimit.getD {}) }

/-- `hashed_username`. -/
def hashedUsername (username : String) : String :=
  String.join (((Sha256.hash (asBytes username)).take 8).map fun b => hexPadded 2 b.toNat)

/-- `take_connection` when no other call holds a slot: the connection of the first slot that
has one, or a new one within the overflow limit.  Returns whether it is overflow. -/
def takeConnection (p : LdapAuthProvider) (connects : Bool) :
    Except HsmError Bool × LdapAuthProvider :=
  match p.pool.findIdx? id with
  | some i => (.ok false, { p with pool := p.pool.set i false })
  | none =>
    if p.maxOverflow ≤ p.overflowCount then (.error .connectionPoolExhausted, p)
    else
      let p := { p with overflowCount := p.overflowCount + 1 }
      if connects then (.ok true, p)
      else (.error .generalError, { p with overflowCount := p.overflowCount - 1 })

/-- The overflow count after a connection is given up. -/
def released (p : LdapAuthProvider) (isOverflow : Bool) : LdapAuthProvider :=
  if isOverflow then { p with overflowCount := p.overflowCount - 1 } else p

/-- `return_connection`: into the first empty slot. -/
def returnConnection (p : LdapAuthProvider) (isOverflow : Bool) : LdapAuthProvider :=
  let p := p.released isOverflow
  match p.pool.findIdx? (! ·) with
  | some i => { p with pool := p.pool.set i true }
  | none => p

/-- The bind of `ldap_authenticate` on a connection it has taken; a bind that breaks is tried
once more on a fresh connection, which is not counted.  Returns whether the bound connection
is overflow. -/
def bindTaken (p : LdapAuthProvider) (isOverflow : Bool) (username password : String)
    (server : LdapExchange) : Except HsmError Bool × LdapAuthProvider :=
  let dn := p.config.bindDn username
  match server.bind dn password with
  | some rc => if rc ≠ 0 then (.error .pinIncorrect, p) else (.ok isOverflow, p)
  | none =>
    let p := p.released isOverflow
    if server.reconnects then
      match server.rebind dn password with
      | none => (.error .generalError, p)
      | some rc => if rc ≠ 0 then (.error .pinIncorrect, p) else (.ok false, p)
    else (.error .generalError, p)

/-- The search of `ldap_authenticate` on a bound connection, and what follows. -/
def searchBound (p : LdapAuthProvider) (isOverflow : Bool) (username : String)
    (server : LdapExchange) : Except HsmError AuthResult × LdapAuthProvider :=
  match p.config.searchUser username server with
  | .transportError | .resultError => (.error .generalError, p)
  | .found entries => (p.config.authResult username entries, p.returnConnection isOverflow)

/-- `ldap_authenticate`. -/
def ldapAuthenticate (p : LdapAuthProvider) (username password : String)
    (server : LdapExchange) : Except HsmError AuthResult × LdapAuthProvider :=
  match p.takeConnection server.connects with
  | (.error e, p) => (.error e, p)
  | (.ok isOverflow, p) =>
    match p.bindTaken isOverflow username password server with
    | (.error e, p) => (.error e, p)
    | (.ok isOverflow, p) => p.searchBound isOverflow username server

end LdapAuthProvider

/-- A call of `authenticate`: the credentials, what the server answers, and the readings of
the clock by the rate limiter. -/
structure LdapLogin where
  credentials : AuthCredentials
  server : LdapExchange
  checked : Timing
  failed : Timing

/-- `authenticate`. -/
def LdapAuthProvider.authenticate (p : LdapAuthProvider) (login : LdapLogin) :
    Except HsmError AuthResult × LdapAuthProvider :=
  match login.credentials with
  | .ldapBind username password =>
    let key := hashedUsername username
    match p.rateLimiter.checkRateLimit key login.checked with
    | (.error e, limiter) => (.error e, { p with rateLimiter := limiter })
    | (.ok (), limiter) =>
      match { p with rateLimiter := limiter }.ldapAuthenticate username password login.server with
      | (.ok result, p) => (.ok result, { p with rateLimiter := p.rateLimiter.recordSuccess key })
      | (.error e, p) =>
        (.error e, { p with rateLimiter := p.rateLimiter.recordFailure key login.failed })
  | _ => (.error .functionNotSupported, p)

namespace LdapAuthProvider

/-- One call. -/
def step (p : LdapAuthProvider) (login : LdapLogin) : LdapAuthProvider := (p.authenticate login).2

/-! ## Overflow accounting -/

/-- The login opens an overflow connection, and the server refuses its bind or fails its
search. -/
def abandons (p : LdapAuthProvider) (username password : String) (server : LdapExchange) : Bool :=
  decide ((p.takeConnection server.connects).1 = .ok true) &&
    match server.bind (p.config.bindDn username) password with
    | some rc => rc ≠ 0 || (p.config.searchUser username server).failed
    | none => false

/-- The same of a call, which the rate limiter has to let through. -/
def abandonsCall (p : LdapAuthProvider) (login : LdapLogin) : Bool :=
  match login.credentials with
  | .ldapBind username password =>
    decide ((p.rateLimiter.checkRateLimit (hashedUsername username) login.checked).1 = .ok ()) &&
      p.abandons username password login.server
  | _ => false

variable {p q : LdapAuthProvider} {username password : String} {server : LdapExchange}
  {login : LdapLogin}

/-- What `take_connection` can do. -/
theorem takeConnection_cases (connects : Bool) :
    (∃ i, p.pool[i]? = some true ∧
      p.takeConnection connects = (.ok false, { p with pool := p.pool.set i false })) ∨
    (∃ e, p.takeConnection connects = (.error e, p)) ∨
    p.takeConnection connects = (.ok true, { p with overflowCount := p.overflowCount + 1 }) := by
  unfold takeConnection
  split
  next i hi =>
    obtain ⟨hlt, hidle, -⟩ := List.findIdx?_eq_some_iff_getElem.mp hi
    exact .inl ⟨i, List.getElem?_eq_some_iff.mpr ⟨hlt, hidle⟩, rfl⟩
  split
  · exact .inr (.inl ⟨_, rfl⟩)
  · cases connects with
    | true => exact .inr (.inr rfl)
    | false => exact .inr (.inl ⟨_, rfl⟩)

theorem returnConnection_overflowCount (isOverflow : Bool) :
    (p.returnConnection isOverflow).overflowCount = (p.released isOverflow).overflowCount := by
  unfold returnConnection
  dsimp only
  split <;> rfl

theorem released_overflowCount {isOverflow : Bool} {n : Nat}
    (h : p.overflowCount = n + isOverflow.toNat) : (p.released isOverflow).overflowCount = n := by
  cases isOverflow with
  | false => exact h
  | true => simp [released, h]

/-- What the bind can do: go through, be refused, or break and then end without a counted
connection. -/
theorem bindTaken_cases (isOverflow : Bool) :
    (server.bind (p.config.bindDn username) password = some 0 ∧
      p.bindTaken isOverflow username password server = (.ok isOverflow, p)) ∨
    (∃ rc, rc ≠ 0 ∧ server.bind (p.config.bindDn username) password = some rc ∧
      p.bindTaken isOverflow username password server = (.error .pinIncorrect, p)) ∨
    (server.bind (p.config.bindDn username) password = none ∧
      ((∃ e, p.bindTaken isOverflow username password server = (.error e, p.released isOverflow)) ∨
        server.rebind (p.config.bindDn username) password = some 0 ∧
        p.bindTaken isOverflow username password server = (.ok false, p.released isOverflow))) := by
  unfold bindTaken
  cases hbind : server.bind (p.config.bindDn username) password with
  | some rc =>
    by_cases hrc : rc = 0
    · exact .inl ⟨by rw [hrc], by simp [hbind, hrc]⟩
    · exact .inr (.inl ⟨rc, hrc, rfl, by simp [hbind, hrc]⟩)
  | none =>
    refine .inr (.inr ⟨rfl, ?_⟩)
    rcases hopen : server.reconnects with _ | _
    · exact .inl ⟨.generalError, by simp [hbind]⟩
    cases hrebind : server.rebind (p.config.bindDn username) password with
    | none => exact .inl ⟨.generalError, by simp [hbind, hrebind]⟩
    | some rc =>
      by_cases hrc : rc = 0
      · exact .inr ⟨by rw [hrc], by simp [hbind, hrebind, hrc]⟩
      · exact .inl ⟨.pinIncorrect, by simp [hbind, hrebind, hrc]⟩

/-- The search keeps a connection counted when it fails. -/
theorem searchBound_overflowCount {isOverflow : Bool} {n : Nat}
    (h : p.overflowCount = n + isOverflow.toNat) :
    (p.searchBound isOverflow username server).2.overflowCount =
      n + (isOverflow && (p.config.searchUser username server).failed).toNat := by
  unfold searchBound
  cases p.config.searchUser username server with
  | transportError | resultError => simpa [SearchReply.failed] using h
  | found entries =>
    have hreturn : (p.returnConnection isOverflow).overflowCount = n := by
      rw [returnConnection_overflowCount, released_overflowCount h]
    simpa [SearchReply.failed] using hreturn

/-- After the connection is taken, what stays counted is an overflow connection whose bind is
refused or whose search fails. -/
theorem bound_overflowCount (isOverflow : Bool) {n : Nat}
    (h : p.overflowCount = n + isOverflow.toNat) :
    (match p.bindTaken isOverflow username password server with
      | (.error e, p) => ((.error e, p) : Except HsmError AuthResult × LdapAuthProvider)
      | (.ok isOverflow, p) => p.searchBound isOverflow username server).2.overflowCount =
    n + (isOverflow && match server.bind (p.config.bindDn username) password with
      | some rc => rc ≠ 0 || (p.config.searchUser username server).failed
      | none => false).toNat := by
  rcases p.bindTaken_cases isOverflow with ⟨hbind, hgo⟩ | ⟨rc, hrc, hbind, hgo⟩ |
    ⟨hbind, ⟨e, hgo⟩ | ⟨-, hgo⟩⟩
  · rw [hgo, hbind]
    simpa using searchBound_overflowCount h
  · rw [hgo, hbind]
    simpa [hrc] using h
  · rw [hgo, hbind]
    simpa using released_overflowCount h
  · -- the fresh connection is bound and not counted
    rw [hgo, hbind]
    have hfresh : (p.released isOverflow).overflowCount = n + Bool.toNat false := by
      rw [released_overflowCount h]
      rfl
    simpa using searchBound_overflowCount hfresh

/-- **What a login leaves counted**: the connection it abandons. -/
theorem ldapAuthenticate_overflowCount (p : LdapAuthProvider) (username password : String)
    (server : LdapExchange) :
    (p.ldapAuthenticate username password server).2.overflowCount =
      p.overflowCount + (p.abandons username password server).toNat := by
  unfold ldapAuthenticate abandons
  rcases p.takeConnection_cases server.connects with ⟨i, -, h⟩ | ⟨e, h⟩ | h
  · rw [h]
    simpa using bound_overflowCount false rfl
  · rw [h]
    simp
  · rw [h]
    simpa using bound_overflowCount true rfl

theorem takeConnection_limiter (limiter : AuthRateLimiter) (connects : Bool) :
    ({ p with rateLimiter := limiter }.takeConnection connects).1 =
      (p.takeConnection connects).1 := by
  unfold takeConnection
  dsimp only
  split
  · rfl
  split
  · rfl
  · split <;> rfl

/-- One call adds one to the count if it abandons its connection, and nothing else. -/
theorem overflowCount_step (p : LdapAuthProvider) (login : LdapLogin) :
    (p.step login).overflowCount = p.overflowCount + (p.abandonsCall login).toNat := by
  unfold step authenticate abandonsCall
  cases login.credentials with
  | pin | token | certificate => rfl
  | ldapBind username password =>
    dsimp only
    obtain ⟨answer, limiter⟩ := p.rateLimiter.checkRateLimit (hashedUsername username) login.checked
    rcases answer with _ | u
    · simp
    have hcount := ldapAuthenticate_overflowCount { p with rateLimiter := limiter } username
      password login.server
    have habandons : ({ p with rateLimiter := limiter }).abandons username password login.server =
        p.abandons username password login.server := by
      unfold abandons
      rw [takeConnection_limiter]
    rw [habandons] at hcount
    cases u
    dsimp only
    generalize ({ p with rateLimiter := limiter }).ldapAuthenticate username password
      login.server = outcome at hcount ⊢
    obtain ⟨result, q⟩ := outcome
    cases result <;> simpa using hcount

/-- **The count is the number of abandoned connections.** -/
theorem overflowCount_run (p : LdapAuthProvider) (logins : List LdapLogin) :
    (run step p logins).overflowCount =
      p.overflowCount + count step (fun q l => q.abandonsCall l = true) p logins := by
  induction logins generalizing p with
  | nil => rfl
  | cons login logins ih =>
    have hone : (p.abandonsCall login).toNat = if p.abandonsCall login = true then 1 else 0 := by
      cases p.abandonsCall login <;> rfl
    rw [count, ← hone, ← Nat.add_assoc, ← overflowCount_step]
    exact ih (p.step login)

theorem tryNew_overflowCount {config : LdapConfig} (h : tryNew config = .ok p) :
    p.overflowCount = 0 := by
  unfold tryNew at h
  split at h
  · cases h
  cases h
  rfl

/-- A provider with an idle connection, or below its overflow limit, has a connection to give. -/
theorem takeConnection_of_free (h : true ∈ p.pool ∨ p.overflowCount < p.maxOverflow) :
    ∃ isOverflow, (p.takeConnection true).1 = .ok isOverflow := by
  unfold takeConnection
  split
  · exact ⟨false, rfl⟩
  next hnone =>
    have hbusy : true ∉ p.pool := fun hidle => by
      simpa using List.findIdx?_eq_none_iff.mp hnone true hidle
    rw [if_neg (Nat.not_le_of_lt (h.resolve_left hbusy))]
    exact ⟨true, rfl⟩

end LdapAuthProvider

open LdapAuthProvider

/-- **Overflow is released** as long as no login holds an overflow connection when its bind is
refused or its search fails: after any such run nothing is counted, and the next login finds a
connection if the server accepts one. -/
theorem overflow_released {config : LdapConfig} {p : LdapAuthProvider} {logins : List LdapLogin}
    (hnew : tryNew config = .ok p)
    (h : Along step (fun q login => q.abandonsCall login = false) p logins) :
    (run step p logins).overflowCount = 0 ∧
      (0 < (run step p logins).maxOverflow →
        ∃ isOverflow, ((run step p logins).takeConnection true).1 = .ok isOverflow) := by
  have hzero : (run step p logins).overflowCount = 0 :=
    induction_run (I := fun q => q.overflowCount = 0) (fun q login hq hgo => by
      rw [overflowCount_step, hq, hgo]
      rfl) (tryNew_overflowCount hnew) h
  exact ⟨hzero, fun hmax => takeConnection_of_free (.inr (hzero ▸ hmax))⟩

/-! A directory with one entry. -/

/-- One pooled connection; the other settings are the defaults. -/
def sampleLdapConfig : LdapConfig where
  baseDn := "dc=example,dc=com"
  bindDnTemplate := "uid={},ou=users,dc=example,dc=com"
  roleMapping := (∅ : ExtTreeMap String String).insert "cn=operators" "Operator"
  poolSize := 1

/-- The provider that `try_new` makes of it. -/
def sampleLdapProvider : LdapAuthProvider where
  config := sampleLdapConfig
  pool := [false]
  overflowCount := 0
  maxOverflow := 2
  rateLimiter := .new {}

theorem tryNew_sample : tryNew sampleLdapConfig = .ok sampleLdapProvider := by
  have hvalid : sampleLdapConfig.validate = .ok () := by decide +kernel
  unfold tryNew
  rw [hvalid]
  rfl

/-- The server: a non-empty password is right or refused with code 49, an empty one is not
looked at, and the user is an operator. -/
def sampleExchange : LdapExchange where
  connects := true
  bind _ password := if password = "" ∨ password = "secret" then some 0 else some 49
  reconnects := true
  rebind _ password := if password = "" ∨ password = "secret" then some 0 else some 49
  search _ _ _ := .found [(∅ : ExtTreeMap String (List String)).insert "memberOf" ["cn=operators"]]

def sampleLogin (password : String) (secs : Nat) : LdapLogin where
  credentials := .ldapBind "alice" password
  server := sampleExchange
  checked := ⟨fromSecs secs, fromSecs secs, []⟩
  failed := ⟨fromSecs secs, fromSecs secs, []⟩

/-- The first login opens the connection of the pool; a wrong password on it is no leak. -/
theorem overflow_released_sample :
    (run step sampleLdapProvider
      [sampleLogin "secret" 1, sampleLogin "wrong" 2]).overflowCount = 0 :=
  (overflow_released tryNew_sample (by decide +kernel)).1

/-- Two wrong passwords with an empty pool use up the overflow limit for good: the right
password is refused for lack of a connection. -/
theorem overflow_leaks_on_refused_bind : ∃ p, tryNew sampleLdapConfig = .ok p ∧
    (run step p [sampleLogin "wrong" 1, sampleLogin "guess" 2]).overflowCount = 2 ∧
    ((run step p [sampleLogin "wrong" 1, sampleLogin "guess" 2]).takeConnection true).1 =
      .error .connectionPoolExhausted ∧
    ((run step p [sampleLogin "wrong" 1, sampleLogin "guess" 2]).authenticate
      (sampleLogin "secret" 3)).1 = .error .connectionPoolExhausted :=
  ⟨sampleLdapProvider, tryNew_sample, by decide +kernel, by decide +kernel, by decide +kernel⟩

/-! ## The size of the pool -/

/-- The provider, and how many overflow and how many other connections are handed out. -/
structure PoolUse where
  provider : LdapAuthProvider
  out : Bool → Nat

/-- A call on the connection pool. -/
inductive PoolCall where
  | take (connects : Bool)
  | giveBack (isOverflow : Bool)

namespace PoolUse
open List Function

def start (p : LdapAuthProvider) : PoolUse := ⟨p, fun _ => 0⟩

/-- Only a connection that is handed out is returned. -/
def next (s : PoolUse) : PoolCall → PoolUse
  | .take connects =>
    match s.provider.takeConnection connects with
    | (.ok isOverflow, p) => ⟨p, update s.out isOverflow (s.out isOverflow + 1)⟩
    | (.error _, p) => { s with provider := p }
  | .giveBack isOverflow =>
    if 0 < s.out isOverflow then
      ⟨s.provider.returnConnection isOverflow, update s.out isOverflow (s.out isOverflow - 1)⟩
    else s

/-- As many pooled connections as there are slots are idle or handed out. -/
def Filled (s : PoolUse) : Prop := s.provider.pool.length ≤ s.provider.pool.count true + s.out false

/-- The pool is exhausted only if all its connections are handed out.  (A server that refuses the
connection gives the same error.) -/
def FullyUsed (s : PoolUse) : Prop :=
  (s.provider.takeConnection true).1 = .error .connectionPoolExhausted →
    s.provider.pool.length + s.provider.maxOverflow ≤ s.out false + s.out true

variable {s : PoolUse} {filled : Prop}

/-- The overflow connections are counted, and the pool is filled if it once was. -/
structure Sound (filled : Prop) (s : PoolUse) : Prop where
  counted : s.provider.overflowCount = s.out true
  filled : filled → s.Filled

/-- A returned connection goes to an empty slot, if there is one. -/
theorem returnConnection_pool (p : LdapAuthProvider) (isOverflow : Bool) :
    (p.returnConnection isOverflow).pool.length = p.pool.length ∧
    min p.pool.length (p.pool.count true + 1) ≤
      (p.returnConnection isOverflow).pool.count true := by
  have hpool : (p.released isOverflow).pool = p.pool := by cases isOverflow <;> rfl
  unfold returnConnection
  dsimp only
  rw [hpool]
  rcases hslot : p.pool.findIdx? (! ·) with _ | i
  · have hall : ∀ b ∈ p.pool, true = b := by
      intro b hb
      simpa using (findIdx?_eq_none_iff.mp hslot b hb).symm
    simp [hpool, count_eq_length.mpr hall]
  · obtain ⟨hi, hempty, -⟩ := findIdx?_eq_some_iff_getElem.mp hslot
    simp [count_set hi, show p.pool[i] = false by simpa using hempty]

theorem Sound.next (h : s.Sound filled) (call : PoolCall) : (s.next call).Sound filled := by
  obtain ⟨hcount, hfilled⟩ := h
  unfold Filled at hfilled
  cases call with
  | take connects =>
    rw [PoolUse.next]
    rcases s.provider.takeConnection_cases connects with ⟨i, hi, hr⟩ | ⟨e, hr⟩ | hr
    · -- a slot is emptied for the connection that is handed out
      rw [hr]
      obtain ⟨hlt, hslot⟩ := List.getElem?_eq_some_iff.mp hi
      have hone : 0 < s.provider.pool.count true := count_pos_iff.mpr (mem_of_getElem? hi)
      refine ⟨by simpa using hcount, fun h => ?_⟩
      have hfilled := hfilled h
      simp [Filled, count_set hlt, hslot]
      omega
    · rw [hr]
      exact ⟨hcount, hfilled⟩
    · rw [hr]
      exact ⟨by simp [hcount], by simpa [Filled] using hfilled⟩
  | giveBack isOverflow =>
    rw [PoolUse.next]
    split
    · obtain ⟨hlength, hslot⟩ := returnConnection_pool s.provider isOverflow
      have hreleased := returnConnection_overflowCount (p := s.provider) isOverflow
      constructor
      · cases isOverflow <;> simp [hreleased, released, hcount]
      · intro h
        have hfilled := hfilled h
        cases isOverflow <;> simp [Filled, hlength] <;> omega
    · exact ⟨hcount, hfilled⟩

theorem Sound.fullyUsed (h : s.Sound True) : s.FullyUsed := by
  intro hfull
  have hfilled := h.filled trivial
  have hcounted := h.counted
  unfold takeConnection at hfull
  unfold Filled at hfilled
  split at hfull
  · cases hfull
  next hnone =>
  have hempty : s.provider.pool.count true = 0 :=
    count_eq_zero.mpr fun hmem => by simpa using findIdx?_eq_none_iff.mp hnone _ hmem
  split at hfull
  · omega
  · cases hfull

/-- **The pool is used up to its size** once as many pooled connections as it has slots have been
opened. -/
theorem fullyUsed_of_filled {config : LdapConfig} {p : LdapAuthProvider}
    (hnew : tryNew config = .ok p) (before after : List PoolCall)
    (hfilled : (run next (start p) before).Filled) :
    (run next (start p) (before ++ after)).FullyUsed := by
  have hrun : ∀ (filled : Prop) s calls, Sound filled s → (run next s calls).Sound filled :=
    fun filled _ calls hs =>
      induction_run (I := Sound filled) (fun _ call h _ => h.next call) hs (along_true calls)
  have hbefore : (run next (start p) before).Sound False :=
    hrun _ _ before ⟨tryNew_overflowCount hnew, False.elim⟩
  rw [run_append]
  exact (hrun True _ after ⟨hbefore.counted, fun _ => hfilled⟩).fullyUsed

/-- A connection that came back fills the only slot, and three are handed out after it. -/
theorem fullyUsed_sample :
    (run next (start sampleLdapProvider)
      ([.take true, .giveBack true] ++ [.take true, .take true, .take true])).FullyUsed :=
  fullyUsed_of_filled tryNew_sample _ _ (by unfold Filled; decide +kernel)

/-- A pool of one connection and no overflow has none to give: it never gets its first. -/
theorem exhausted_at_once : ¬ ∀ (config : LdapConfig) (p : LdapAuthProvider)
    (calls : List PoolCall),
    tryNew config = .ok p → (run next (start p) calls).FullyUsed := by
  intro h
  have hvalid : { sampleLdapConfig with maxConnections := some 1 }.validate = .ok () := by
    decide +kernel
  have hused := h { sampleLdapConfig with maxConnections := some 1 } _ [] (by
    rw [tryNew, hvalid]) (by decide +kernel)
  revert hused
  decide +kernel

end PoolUse

/-! ## What a login proves -/

/-- A server that follows RFC 4513: with a non-empty password the bind succeeds only if the
password was verified.  Nothing is said of an empty one. -/
structure FollowsRfc4513 (verified : String → String → Prop) (server : LdapExchange) : Prop where
  bind : ∀ dn password, password ≠ "" → server.bind dn password = some 0 → verified dn password
  rebind : ∀ dn password, password ≠ "" → server.rebind dn password = some 0 → verified dn password

namespace LdapAuthProvider
variable {p : LdapAuthProvider} {username password : String} {server : LdapExchange}
  {login : LdapLogin} {result : AuthResult}

/-- Taking a connection does not change the configuration. -/
theorem takeConnection_config (connects : Bool) :
    (p.takeConnection connects).2.config = p.config := by
  rcases p.takeConnection_cases connects with ⟨i, -, h⟩ | ⟨e, h⟩ | h
  · rw [h]
  · rw [h]
  · rw [h]

/-- A login that goes through had a bind answered with code 0, at the first attempt or on the
fresh connection. -/
theorem bind_of_ldapAuthenticate
    (h : (p.ldapAuthenticate username password server).1 = .ok result) :
    server.bind (p.config.bindDn username) password = some 0 ∨
      server.rebind (p.config.bindDn username) password = some 0 := by
  have hconfig := p.takeConnection_config server.connects
  unfold ldapAuthenticate at h
  generalize p.takeConnection server.connects = taken at h hconfig
  obtain ⟨e | isOverflow, q⟩ := taken
  · cases h
  simp only at h hconfig
  rcases q.bindTaken_cases isOverflow with ⟨hbind, -⟩ | ⟨rc, -, -, hgo⟩ |
    ⟨-, ⟨e, hgo⟩ | ⟨hrebind, -⟩⟩
  · exact .inl (hconfig ▸ hbind)
  · rw [hgo] at h
    cases h
  · rw [hgo] at h
    cases h
  · exact .inr (hconfig ▸ hrebind)

/-- A call that goes through is an LDAP bind that went through. -/
theorem ldapAuthenticate_of_authenticate (h : (p.authenticate login).1 = .ok result) :
    ∃ username password limiter, login.credentials = .ldapBind username password ∧
      ({ p with rateLimiter := limiter }.ldapAuthenticate username password login.server).1 =
        .ok result := by
  unfold authenticate at h
  cases hcredentials : login.credentials with
  | pin | token | certificate =>
    rw [hcredentials] at h
    cases h
  | ldapBind username password =>
    rw [hcredentials] at h
    dsimp only at h
    generalize p.rateLimiter.checkRateLimit (hashedUsername username) login.checked = checked at h
    obtain ⟨answer, limiter⟩ := checked
    refine ⟨username, password, limiter, rfl, ?_⟩
    rcases answer with _ | u
    · cases h
    cases u
    dsimp only at h
    generalize ({ p with rateLimiter := limiter }).ldapAuthenticate username password
      login.server = outcome at h ⊢
    obtain ⟨e | r, q⟩ := outcome
    · cases h
    · exact h

/-- The provider lets a login of the user through to the server, and gives some entry of a
directory a role: the rate limiter has room, a connection can be had, and the configuration maps
the entry. -/
def Admits (p : LdapAuthProvider) (username : String) (checked : Timing) : Prop :=
  (p.rateLimiter.checkRateLimit (hashedUsername username) checked).1 = .ok () ∧
    (true ∈ p.pool ∨ p.overflowCount < p.maxOverflow) ∧
    ∃ entries result, p.config.authResult username entries = .ok result

/-- A bind that is answered with code 0 at once is a login, if the entry is given a role. -/
theorem ldapAuthenticate_of_bind {entries : List LdapEntry}
    (hfree : true ∈ p.pool ∨ p.overflowCount < p.maxOverflow) (hconnects : server.connects = true)
    (hbind : server.bind (p.config.bindDn username) password = some 0)
    (hsearch : p.config.searchUser username server = .found entries)
    (hrole : p.config.authResult username entries = .ok result) :
    (p.ldapAuthenticate username password server).1 = .ok result := by
  obtain ⟨isOverflow, hok⟩ := takeConnection_of_free hfree
  have hconfig := p.takeConnection_config true
  unfold ldapAuthenticate
  rw [hconnects]
  generalize p.takeConnection true = taken at hok hconfig
  obtain ⟨answer, q⟩ := taken
  cases hok
  rw [← hconfig] at hbind hsearch hrole
  simp [bindTaken, searchBound, hbind, hsearch, hrole]

/-- A call that the rate limiter lets through answers as the bind does. -/
theorem authenticate_of_checked (p : LdapAuthProvider) (login : LdapLogin)
    (hcredentials : login.credentials = .ldapBind username password)
    (hchecked : (p.rateLimiter.checkRateLimit (hashedUsername username) login.checked).1 = .ok ()) :
    ∃ limiter, (p.authenticate login).1 =
      ({ p with rateLimiter := limiter }.ldapAuthenticate username password login.server).1 := by
  unfold authenticate
  rw [hcredentials]
  dsimp only
  generalize p.rateLimiter.checkRateLimit (hashedUsername username) login.checked = checked
    at hchecked
  obtain ⟨answer, limiter⟩ := checked
  refine ⟨limiter, ?_⟩
  cases hchecked
  dsimp only
  generalize ({ p with rateLimiter := limiter }).ldapAuthenticate username password
    login.server = outcome
  obtain ⟨e | r, q⟩ := outcome <;> rfl

/-- A server that accepts an empty password unseen, and no other, and finds these entries. -/
def unauthenticatedServer (entries : List LdapEntry) : LdapExchange where
  connects := true
  bind _ password := if password = "" then some 0 else some 49
  reconnects := true
  rebind _ _ := none
  search _ _ _ := .found entries

theorem unauthenticatedServer_follows (entries : List LdapEntry) :
    FollowsRfc4513 (fun _ _ => False) (unauthenticatedServer entries) := by
  constructor <;>
  · intro dn password hne hbind
    simp [unauthenticatedServer, hne] at hbind

end LdapAuthProvider

/-- **A login proves the password** exactly if the password is not empty: for a provider that
admits the user, every server that follows RFC 4513 has verified the password of every login that
goes through, or the password is empty. -/
theorem login_proves_password_iff (p : LdapAuthProvider) (username password : String)
    (checked : Timing) (hadmits : p.Admits username checked) :
    (∀ (verified : String → String → Prop) (login : LdapLogin) (result : AuthResult),
      login.credentials = .ldapBind username password → login.checked = checked →
      FollowsRfc4513 verified login.server → (p.authenticate login).1 = .ok result →
      verified (p.config.bindDn username) password) ↔ password ≠ "" := by
  constructor
  · rintro hproves rfl
    obtain ⟨hchecked, hfree, entries, result, hrole⟩ := hadmits
    let login : LdapLogin :=
      ⟨.ldapBind username "", unauthenticatedServer entries, checked, checked⟩
    obtain ⟨limiter, hcall⟩ := p.authenticate_of_checked login rfl hchecked
    refine hproves (fun _ _ => False) login result rfl rfl
      (unauthenticatedServer_follows entries) ?_
    rw [hcall]
    exact ldapAuthenticate_of_bind (p := { p with rateLimiter := limiter }) hfree rfl rfl rfl hrole
  · intro hne verified login result hcredentials _ hserver h
    obtain ⟨username', password', limiter, hcredentials', hok⟩ := ldapAuthenticate_of_authenticate h
    obtain ⟨rfl, rfl⟩ := AuthCredentials.ldapBind.inj (hcredentials.symm.trans hcredentials')
    rcases bind_of_ldapAuthenticate hok with hbind | hrebind
    · exact hserver.bind _ _ hne hbind
    · exact hserver.rebind _ _ hne hrebind

theorem sampleExchange_follows :
    FollowsRfc4513 (fun _ password => password = "secret") sampleExchange := by
  constructor <;>
  · intro dn password hne hbind
    simp only [sampleExchange, hne, false_or] at hbind
    by_cases hsecret : password = "secret"
    · exact hsecret
    · rw [if_neg hsecret] at hbind
      cases hbind

theorem sampleLdapProvider_admits :
    sampleLdapProvider.Admits "alice" (sampleLogin "secret" 1).checked :=
  ⟨by decide +kernel, by decide,
    [(∅ : ExtTreeMap String (List String)).insert "memberOf" ["cn=operators"]],
    ⟨.operator, "ldap:alice", none, false⟩, by decide +kernel⟩

/-- The directory has verified the password of the login that goes through. -/
theorem login_proves_password_iff_sample :
    (sampleLdapProvider.authenticate (sampleLogin "secret" 1)).1 =
      .ok ⟨.operator, "ldap:alice", none, false⟩ ∧
    ∀ verified, FollowsRfc4513 verified sampleExchange →
      verified (sampleLdapProvider.config.bindDn "alice") "secret" := by
  have hok : (sampleLdapProvider.authenticate (sampleLogin "secret" 1)).1 =
      .ok ⟨.operator, "ldap:alice", none, false⟩ := by decide +kernel
  refine ⟨hok, fun verified hserver => ?_⟩
  exact (login_proves_password_iff sampleLdapProvider "alice" "secret" _
    sampleLdapProvider_admits).mpr (by decide) verified (sampleLogin "secret" 1) _ rfl rfl
      hserver hok

/-- An empty password is handed to the server, which may accept it unseen. -/
theorem empty_password_accepted : ∃ config p login result, config.validate = .ok () ∧
    tryNew config = .ok p ∧ FollowsRfc4513 (fun _ password => password = "secret") login.server ∧
    login.credentials = .ldapBind "alice" "" ∧ p.config.bindDn "alice" ≠ "" ∧
    (p.authenticate login).1 = .ok result :=
  ⟨sampleLdapConfig, sampleLdapProvider, sampleLogin "" 1, ⟨.operator, "ldap:alice", none, false⟩,
    by decide +kernel, tryNew_sample, sampleExchange_follows, rfl, by decide +kernel,
    by decide +kernel⟩

end CratonHsm.Auth
