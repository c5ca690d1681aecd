import CratonHsm.CertAuth
import CratonHsm.LdapAuth
import CratonHsm.OidcAuth

/-!
# User ids across the providers

`LocalPinProvider` (`auth/local_pin.rs`), and the user ids that the four providers return.  The
PIN, LDAP and OIDC providers each put a mark of their own before the name.  A certificate stands
under its common name alone, so its holder is told apart from the users of the other providers
exactly if the common name is none of their ids: every name is a name of some directory and of some
token, while a PIN login has one of two ids.
-/

namespace CratonHsm.Auth
open PrefixFreeCode

/-! ## The PIN provider -/

/-- `HsmRole::as_str`. -/
def HsmRole.asStr : HsmRole → String
  | .user => "User"
  | .so => "SO"
  | .auditor => "Auditor"
  | .keyManager => "KeyManager"
  | .operator => "Operator"

/-- The variants of the error that the PIN provider returns. -/
inductive LocalPinError where
  | userTypeInvalid
  | pinIncorrect
  | functionNotSupported
  deriving DecidableEq

/-- The provider for PINs. -/
structure LocalPinProvider where
  pinVerifier : Option (UInt64 → Bytes → Bool)

/-- The role of a PKCS#11 user type. -/
def roleOfUserType (userType : UInt64) : Option HsmRole :=
  if userType = 0 then some .so else if userType = 1 then some .user else none

/-- `authenticate`. -/
def LocalPinProvider.authenticate (p : LocalPinProvider) (credentials : AuthCredentials) :
    Except LocalPinError AuthResult :=
  match credentials with
  | .pin userType pin =>
    match roleOfUserType userType with
    | none => .error .userTypeInvalid
    | some role =>
      match p.pinVerifier with
      | none => .error .functionNotSupported
      | some verify =>
        if verify userType pin = false then .error .pinIncorrect
        else .ok ⟨role, "local:" ++ role.asStr, none, false⟩
  | _ => .error .functionNotSupported

/-! ## The providers together -/

/-- The providers of identities. -/
inductive ProviderKind where
  | localPin
  | ldap
  | oidc
  | certificate
  deriving DecidableEq

/-- A call of `authenticate` of one of the providers, in any state. -/
inductive ProviderCall where
  | localPin (p : LocalPinProvider) (credentials : AuthCredentials)
  | ldap (p : LdapAuthProvider) (login : LdapLogin)
  | oidc (p : OidcAuthProvider) (login : OidcLogin)
  | certificate (p : CertAuthProvider) (credentials : AuthCredentials) (now : Int)

namespace ProviderCall

/-- The provider that a call goes to. -/
def kind : ProviderCall → ProviderKind
  | .localPin _ _ => .localPin
  | .ldap _ _ => .ldap
  | .oidc _ _ => .oidc
  | .certificate _ _ _ => .certificate

/-- The result of a call that succeeds. -/
def result [X509] : ProviderCall → Option AuthResult
  | .localPin p credentials => (p.authenticate credentials).toOption
  | .ldap p login => (p.authenticate login).1.toOption
  | .oidc p login => (p.authenticate login).1.toOption
  | .certificate p credentials now => (p.authenticate credentials now).toOption

/-- What a provider puts before the name. -/
def mark : ProviderKind → Option String
  | .localPin => some "local:"
  | .ldap => some "ldap:"
  | .oidc => some "oidc:"
  | .certificate => none

/-- The ids of a PIN login, and whatever begins with the mark of a directory or of a token. -/
def TakenId (id : String) : Prop :=
  id = "local:User" ∨ id = "local:SO" ∨ "ldap:".toList <+: id.toList ∨ "oidc:".toList <+: id.toList

/-- The common name of the leaf, if a certificate is presented, is no id of another provider. -/
def PlainName [X509] : ProviderCall → Prop
  | .certificate _ (.certificate (der :: _)) _ =>
    ∀ leaf cn, X509.certificate der = some leaf → extractCn leaf.subject = some cn → ¬ TakenId cn
  | _ => True

/-! ## The ids of each provider -/

section Ids
variable {result : AuthResult}

theorem localPin_userId {p : LocalPinProvider} {credentials : AuthCredentials}
    (h : p.authenticate credentials = .ok result) :
    result.userId = "local:User" ∨ result.userId = "local:SO" := by
  unfold LocalPinProvider.authenticate at h
  split at h
  · split at h
    · cases h
    next role hrole =>
    split at h
    · cases h
    split at h
    · cases h
    cases h
    unfold roleOfUserType at hrole
    split at hrole
    · cases hrole
      exact .inr rfl
    split at hrole
    · cases hrole
      exact .inl rfl
    · cases hrole
  · cases h

theorem authResult_userId {c : LdapConfig} {username : String} {entries : List LdapEntry}
    (h : c.authResult username entries = .ok result) : result.userId = "ldap:" ++ username := by
  unfold LdapConfig.authResult at h
  split at h
  · cases h
  split at h
  · cases h
  split at h
  · cases h
    rfl
  split at h
  · cases h
    rfl
  · cases h

theorem ldap_userId {p : LdapAuthProvider} {login : LdapLogin}
    (h : (p.authenticate login).1 = .ok result) : ∃ name, result.userId = "ldap:" ++ name := by
  obtain ⟨username, password, limiter, -, hok⟩ :=
    LdapAuthProvider.ldapAuthenticate_of_authenticate h
  refine ⟨username, ?_⟩
  unfold LdapAuthProvider.ldapAuthenticate at hok
  split at hok
  · cases hok
  split at hok
  · cases hok
  unfold LdapAuthProvider.searchBound at hok
  split at hok
  · cases hok
  · cases hok
  · exact authResult_userId hok

theorem identify_userId {c : OidcConfig} {claims : Claims} (h : c.identify claims = .ok result) :
    ∃ name, result.userId = "oidc:" ++ name := by
  unfold OidcConfig.identify at h
  split at h
  · cases h
  next sub _ =>
  split at h
  · cases h
  split at h
  · cases h
  cases h
  exact ⟨sub, rfl⟩

theorem oidc_userId {p : OidcAuthProvider} {login : OidcLogin}
    (h : (p.authenticate login).1 = .ok result) : ∃ name, result.userId = "oidc:" ++ name := by
  unfold OidcAuthProvider.authenticate at h
  split at h
  · dsimp only at h
    split at h
    · cases h
    split at h
    · cases h
    split at h
    · cases h
    split at h
    · cases h
    next hidentify =>
    cases h
    exact identify_userId hidentify
  · cases h

/-- A text does not begin with two different marks. -/
theorem mark_inj {k k' : ProviderKind} {m m' : String} {text : List Char} (hm : mark k = some m)
    (hm' : mark k' = some m') (h : m.toList <+: text) (h' : m'.toList <+: text) : k = k' := by
  have hcompare := List.prefix_or_prefix_of_prefix h h'
  revert hcompare
  cases k <;> cases hm <;> cases k' <;> cases hm' <;> decide

theorem ok_of_toOption {E A : Type} {answer : Except E A} {a : A} (h : answer.toOption = some a) :
    answer = .ok a := by
  cases answer with
  | error e => cases h
  | ok b => rw [Option.some.inj h]

theorem isPrefix_of_eq_append {id m : String} (name : String) (h : id = m ++ name) :
    m.toList <+: id.toList :=
  ⟨name.toList, by rw [h, String.toList_append]⟩

theorem exists_eq_append {id m : String} (h : m.toList <+: id.toList) : ∃ name, id = m ++ name := by
  obtain ⟨name, hname⟩ := h
  exact ⟨String.ofList name, String.toList_inj.mp (by simp [hname])⟩

variable [X509]

/-- The id of a provider with a mark begins with it, and is taken. -/
theorem userId_marked {call : ProviderCall} {m : String} (hresult : call.result = some result)
    (hmark : mark call.kind = some m) :
    m.toList <+: result.userId.toList ∧ TakenId result.userId := by
  cases call with
  | localPin p credentials =>
    cases hmark
    rcases localPin_userId (ok_of_toOption hresult) with hid | hid
    · exact ⟨isPrefix_of_eq_append "User" hid, .inl hid⟩
    · exact ⟨isPrefix_of_eq_append "SO" hid, .inr (.inl hid)⟩
  | ldap p login =>
    cases hmark
    obtain ⟨name, hid⟩ := ldap_userId (ok_of_toOption hresult)
    exact ⟨isPrefix_of_eq_append name hid, .inr (.inr (.inl (isPrefix_of_eq_append name hid)))⟩
  | oidc p login =>
    cases hmark
    obtain ⟨name, hid⟩ := oidc_userId (ok_of_toOption hresult)
    exact ⟨isPrefix_of_eq_append name hid, .inr (.inr (.inr (isPrefix_of_eq_append name hid)))⟩
  | certificate p credentials now => cases hmark

/-- The id of a certificate is taken exactly if its common name is. -/
theorem takenId_certificate {p : CertAuthProvider} {credentials : AuthCredentials} {now : Int}
    (hresult : (ProviderCall.certificate p credentials now).result = some result) :
    TakenId result.userId ↔ ¬ (ProviderCall.certificate p credentials now).PlainName := by
  obtain ⟨leafDer, rest, leaf, rfl, hleaf, -, hid⟩ :=
    CertAuthProvider.of_authenticate (ok_of_toOption hresult)
  rw [hid, CertAuthProvider.userIdOf]
  cases hcn : extractCn leaf.subject with
  | some cn => simp [PlainName, hleaf, hcn]
  | none =>
    refine iff_of_false ?_ (not_not_intro fun leaf' cn hleaf' hcn' => ?_)
    · rw [Option.getD_none]
      rintro (h | h | h | h)
      · simpa using congrArg String.toList h
      · simpa using congrArg String.toList h
      · simp at h
      · simp at h
    · cases hleaf.symm.trans hleaf'
      cases hcn.symm.trans hcn'

end Ids

/-! ## Logins for every name -/

section Names

theorem checkRateLimit_new (config : RateLimitConfig) (key : String) (t : Timing) :
    ((AuthRateLimiter.new config).checkRateLimit key t).1 = .ok () := by
  have hentries : ((AuthRateLimiter.new config).ticked t.cleanupAt t.order).entries = ∅ := by
    simp [AuthRateLimiter.ticked, AuthRateLimiter.cleanupStaleEntries, AuthRateLimiter.new]
  unfold AuthRateLimiter.checkRateLimit
  simp [hentries, MAX_ENTRIES]

variable [X509]

/-- Every name is a name of a directory. -/
theorem exists_ldap_login (name : String) : ∃ p login r,
    (ProviderCall.ldap p login).result = some r ∧ r.userId = "ldap:" ++ name := by
  let entry : LdapEntry :=
    (∅ : Std.ExtTreeMap String (List String)).insert "memberOf" ["cn=operators"]
  let login : LdapLogin := ⟨.ldapBind name "secret", sampleExchange, ⟨0, 0, []⟩, ⟨0, 0, []⟩⟩
  have hrole : sampleLdapConfig.mapRole (entry[sampleLdapConfig.groupAttribute]?.getD []) =
      some .operator := by decide +kernel
  have hauth : sampleLdapConfig.authResult name [entry] =
      .ok ⟨.operator, "ldap:" ++ name, none, false⟩ := by
    rw [LdapConfig.authResult, hrole]
    rfl
  obtain ⟨limiter, hcall⟩ := sampleLdapProvider.authenticate_of_checked login rfl
    (checkRateLimit_new _ _ _)
  have hok : ({ sampleLdapProvider with rateLimiter := limiter }.ldapAuthenticate name "secret"
      sampleExchange).1 = .ok ⟨.operator, "ldap:" ++ name, none, false⟩ :=
    LdapAuthProvider.ldapAuthenticate_of_bind (.inr (show 0 < 2 by decide)) rfl rfl rfl hauth
  refine ⟨sampleLdapProvider, login, ⟨.operator, "ldap:" ++ name, none, false⟩, ?_, rfl⟩
  rw [result, hcall, hok]
  rfl

/-- Every name is the subject of a token. -/
theorem exists_oidc_login (name : String) : ∃ p login r,
    (ProviderCall.oidc p login).result = some r ∧ r.userId = "oidc:" ++ name := by
  let claims : Claims := fun key =>
    if key = "sub" then some (.string name) else if key = "role" then some (.string "Operator")
    else none
  let login : OidcLogin := {
    credentials := .token "token", validated := .ok claims, validatedAt := 0, unixSecs := 0
    deadlineAt := 0, sweptAt := 0, checked := ⟨0, 0, []⟩, failed := ⟨0, 0, []⟩ }
  have hrole : considerRole none "Operator" = some .operator := by decide +kernel
  have hidentify : (⟨"role", none, none, 5, none, false⟩ : OidcConfig).identify claims =
      .ok ⟨.operator, "oidc:" ++ name, none, false⟩ := by
    simp [OidcConfig.identify, Claims.str, claims, JsonValue.asStr, OidcConfig.extractHighestRole,
      hrole, OidcConfig.extractTenant, OidcConfig.extractMfa]
  refine ⟨.new { roleClaim := "role" }, login, ⟨.operator, "oidc:" ++ name, none, false⟩, ?_, rfl⟩
  have hchecked := checkRateLimit_new {} (OidcAuthProvider.hashToken "token") ⟨0, 0, []⟩
  unfold result OidcAuthProvider.authenticate
  simp only [login, OidcAuthProvider.new, Option.getD_none]
  generalize (AuthRateLimiter.new {}).checkRateLimit (OidcAuthProvider.hashToken "token")
    ⟨0, 0, []⟩ = checked at hchecked ⊢
  obtain ⟨answer, limiter⟩ := checked
  cases hchecked
  simp only [OidcAuthProvider.checkJti, if_pos, hidentify]
  rfl

/-- A taken id is the id of a login with another provider than the certificate provider. -/
theorem exists_login_of_takenId {id : String} (h : TakenId id) :
    ∃ (b : ProviderCall) (r : AuthResult),
      b.kind ≠ .certificate ∧ b.result = some r ∧ r.userId = id := by
  have hlocal : ∀ userType role, roleOfUserType userType = some role →
      (ProviderCall.localPin ⟨some fun _ _ => true⟩ (.pin userType [])).result =
        some ⟨role, "local:" ++ role.asStr, none, false⟩ := by
    intro userType role hrole
    simp [result, LocalPinProvider.authenticate, hrole, Except.toOption]
  rcases h with rfl | rfl | h | h
  · exact ⟨_, _, by decide, hlocal 1 .user rfl, rfl⟩
  · exact ⟨_, _, by decide, hlocal 0 .so rfl, rfl⟩
  · obtain ⟨name, rfl⟩ := exists_eq_append h
    obtain ⟨p, login, r, hresult, hid⟩ := exists_ldap_login name
    exact ⟨.ldap p login, r, by simp [kind], hresult, hid⟩
  · obtain ⟨name, rfl⟩ := exists_eq_append h
    obtain ⟨p, login, r, hresult, hid⟩ := exists_oidc_login name
    exact ⟨.oidc p login, r, by simp [kind], hresult, hid⟩

end Names

/-- **The PIN, LDAP and OIDC providers give different user ids**, and the holder of a certificate
has the id of no user of theirs exactly if the common name is neither `local:User` nor `local:SO`
and begins neither with `ldap:` nor with `oidc:`. -/
theorem user_ids_differ_iff [X509] :
    (∀ (a b : ProviderCall) (r r' : AuthResult), a.kind ≠ b.kind → a.kind ≠ .certificate →
      b.kind ≠ .certificate → a.result = some r → b.result = some r' → r.userId ≠ r'.userId) ∧
    ∀ (a : ProviderCall) (r : AuthResult), a.kind = .certificate → a.result = some r →
      ((∀ (b : ProviderCall) (r' : AuthResult), b.kind ≠ .certificate → b.result = some r' →
        r.userId ≠ r'.userId) ↔ a.PlainName) := by
  have hmarked : ∀ k : ProviderKind, k ≠ .certificate → ∃ m, mark k = some m := by
    intro k hk
    cases k with
    | localPin | ldap | oidc => exact ⟨_, rfl⟩
    | certificate => exact absurd rfl hk
  constructor
  · intro a b r r' hkind ha hb hr hr' heq
    obtain ⟨m, hm⟩ := hmarked _ ha
    obtain ⟨m', hm'⟩ := hmarked _ hb
    refine hkind (mark_inj hm hm' (userId_marked hr hm).1 ?_)
    rw [heq]
    exact (userId_marked hr' hm').1
  · intro a r hkind hr
    cases a with
    | localPin | ldap | oidc => cases hkind
    | certificate p credentials now =>
      constructor
      · intro hdiffer
        by_contra hname
        obtain ⟨b, r', hb, hr', hid⟩ := exists_login_of_takenId ((takenId_certificate hr).mpr hname)
        exact hdiffer b r' hb hr' hid.symm
      · intro hplain b r' hb hr' heq
        obtain ⟨m', hm'⟩ := hmarked _ hb
        refine (takenId_certificate hr).mp ?_ hplain
        rw [heq]
        exact (userId_marked hr' hm').2

/-! ### A common name that is a user id -/

section Sample

@[reducible] def ldapNameX509 : X509 := sampleX509 "ldap:alice"

attribute [local instance] ldapNameX509

/-- A certificate that the trusted root has issued for this common name. -/
def certificateLogin : ProviderCall :=
  .certificate
    { config := { subjectRoleMapping := [⟨"CN=ldap:alice", "operator"⟩], trustedRoots := [[1]] } }
    (.certificate [[2], [1]]) 10

/-- The same for the common name `local:bob`. -/
def bobsCertificate : ProviderCall :=
  .certificate
    { config := { subjectRoleMapping := [⟨"CN=local:bob", "operator"⟩], trustedRoots := [[1]] } }
    (.certificate [[2], [1]]) 10

def ldapLogin : ProviderCall := .ldap sampleLdapProvider (sampleLogin "secret" 1)

theorem ldapLogin_result : ldapLogin.result = some ⟨.operator, "ldap:alice", none, false⟩ := by
  decide +kernel

/-- The holder of a certificate with the common name `local:bob` has the id of neither the PIN user
nor a directory user; a PIN login never has this id. -/
theorem user_ids_differ_iff_sample :
    @ProviderCall.result (sampleX509 "local:bob") bobsCertificate =
      some ⟨.operator, "local:bob", none, false⟩ ∧
    ∀ (b : ProviderCall) (r : AuthResult), b.kind ≠ .certificate →
      @ProviderCall.result (sampleX509 "local:bob") b = some r → "local:bob" ≠ r.userId := by
  have hresult : @ProviderCall.result (sampleX509 "local:bob") bobsCertificate =
      some ⟨.operator, "local:bob", none, false⟩ := by decide +kernel
  refine ⟨hresult, ((@user_ids_differ_iff (sampleX509 "local:bob")).2 _ _ rfl hresult).mpr ?_⟩
  intro leaf cn hleaf hcn
  cases hleaf
  cases (show extractCn _ = some "local:bob" by decide +kernel).symm.trans hcn
  unfold TakenId
  decide

/-- The holder of a certificate with the common name `ldap:alice` has the user id of the directory
user `alice`. -/
theorem certificate_takes_ldap_id :
    certificateLogin.kind ≠ ldapLogin.kind ∧
      certificateLogin.result = some ⟨.operator, "ldap:alice", none, false⟩ ∧
      ldapLogin.result = some ⟨.operator, "ldap:alice", none, false⟩ :=
  ⟨by decide, by decide +kernel, ldapLogin_result⟩

end Sample

end ProviderCall

end CratonHsm.Auth
