import CratonHsm.AuthTypes
import CratonHsm.GuardedRun

/-!
# Login with a certificate

`CertAuthProvider` of the authentication crate (`auth/cert.rs`): the chain to a trusted root, the
key usage, the revocation lists, and what is read from the subject.  Certificates and revocation
lists are given by their DER bytes; parsing them and checking a signature is the business of
`X509`, and a certificate is known here by what the provider reads of it.

A refresh replaces the fetched lists by those of the URLs that answered.  A revoked certificate
stays refused while the URL that revoked it is silent, provided that no other list of its issuer
that is in use leaves it out.  If one does, the answer of another URL makes the certificate good
again.
-/

namespace CratonHsm.Auth
open PrefixFreeCode GuardedRun List

/-! ## Certificates and revocation lists -/

/-- The attribute types of a distinguished name that are read. -/
inductive AttributeType where
  | commonName
  | organizationalUnit
  | organizationName
  | other (oid : String)
  deriving DecidableEq

/-- The attributes of a name in their order; the value is missing if it is not a text. -/
structure X509Name where
  attributes : List (AttributeType × Option String)
  deriving DecidableEq

/-- The kinds of alternative name that are read. -/
inductive GeneralName where
  | rfc822Name (email : String)
  | dnsName (dns : String)
  | directoryName (name : X509Name)
  | other

/-- The basic constraints extension. -/
structure BasicConstraints where
  ca : Bool
  pathLenConstraint : Option Nat

/-- The extended key usages that are read. -/
structure ExtendedKeyUsage where
  clientAuth : Bool
  any : Bool

/-- An extension of a certificate, which may be absent or malformed. -/
inductive Extension (A : Type) where
  | absent
  | malformed
  | present (value : A)

/-- What the provider reads of a certificate. -/
structure Certificate where
  subject : X509Name
  issuer : X509Name
  rawSerial : Bytes
  publicKey : Bytes
  subjectKeyIdentifier : Option Bytes := none
  basicConstraints : Extension BasicConstraints := .absent
  /-- Whether the key usage has `keyCertSign`. -/
  keyUsage : Extension Bool := .absent
  extendedKeyUsage : Extension ExtendedKeyUsage := .absent
  subjectAlternativeName : List GeneralName := []

/-- What the provider reads of a revocation list; times are in seconds. -/
structure CertificateRevocationList where
  issuer : X509Name
  authorityKeyIdentifier : Option Bytes
  lastUpdate : Int
  nextUpdate : Option Int
  revoked : List Bytes

/-- The X.509 parser and the signature checks. -/
class X509 where
  certificate : Bytes → Option Certificate
  crl : Bytes → Option CertificateRevocationList
  /-- `validity().is_valid()` at a time. -/
  isValid : Certificate → Int → Bool
  verifyCertificate (der publicKey : Bytes) : Bool
  verifyCrl (der publicKey : Bytes) : Bool
  display : X509Name → String

/-! ## Configuration -/

/-- A pattern for subjects and the role it gives. -/
structure CertRoleMapping where
  subjectPattern : String
  role : String

/-- How revocation is checked. -/
structure CertRevocationConfig where
  enabled : Bool := false
  crls : List Bytes := []
  crlUrls : List String := []
  maxAgeSecs : UInt64 := 86400
  requireNextUpdate : Bool := true

/-- The configuration of certificate authentication. -/
structure CertConfig where
  subjectRoleMapping : List CertRoleMapping
  tenantSanOid : Option String := none
  trustedRoots : List Bytes := []
  requireMfa : Bool := false
  revocation : CertRevocationConfig := {}
  /-- Whether a fetcher is configured; what it answers is given with each refresh. -/
  httpFetcher : Bool := false

/-- The provider with the revocation lists it has fetched. -/
structure CertAuthProvider where
  config : CertConfig
  refreshedCrls : List Bytes := []

/-! ## Names -/

/-- `extract_cn`. -/
def extractCn (name : X509Name) : Option String :=
  match name.attributes.find? (·.1 = .commonName) with
  | some (_, some cn) => if trimmed cn = [] then none else some (String.ofList (trimmed cn))
  | _ => none

/-- `str::split_once`. -/
def splitOnce (c : Char) : List Char → Option (List Char × List Char)
  | [] => none
  | d :: rest => if d = c then some ([], rest) else (splitOnce c rest).map fun r => (d :: r.1, r.2)

/-- What `str::rsplit_once` leaves after the last occurrence. -/
def afterLast (c : Char) (s : List Char) : Option (List Char) :=
  (splitOnce c s.reverse).map fun r => r.1.reverse

/-- Equal up to the case of ASCII letters. -/
def eqIgnoreAsciiCase (a b : String) : Bool := asciiLowercase a = asciiLowercase b

/-- The attribute that a pattern names. -/
def attributeOf (field : List Char) : Option AttributeType :=
  match String.ofList (field.map Char.toUpper) with
  | "CN" => some .commonName
  | "OU" => some .organizationalUnit
  | "O" => some .organizationName
  | _ => none

/-- `match_subject_dn`. -/
def matchSubjectDn (name : X509Name) (pattern : String) : Bool :=
  match splitOnce '=' (trimmed pattern) with
  | some (field, value) =>
    match attributeOf (trimmed (String.ofList field)) with
    | none => false
    | some oid =>
      name.attributes.any fun attr =>
        attr.1 = oid &&
          attr.2.any (eqIgnoreAsciiCase · (String.ofList (trimmed (String.ofList value))))
  | none => (extractCn name).any (eqIgnoreAsciiCase · (String.ofList (trimmed pattern)))

/-- The role of the first mapping that matches and names one. -/
def mappedRole (mappings : List CertRoleMapping) (name : X509Name) : Option HsmRole :=
  mappings.findSome? fun m =>
    if matchSubjectDn name m.subjectPattern then parseRole m.role else none

/-- The tenant that one alternative name stands for. -/
def tenantOfSan (oid : String) : GeneralName → Option TenantId
  | .rfc822Name email =>
    if oid = "email" ∨ oid = "rfc822" then
      (afterLast '@' email.toList).bind fun domain =>
        (TenantId.tryNew (String.ofList domain)).toOption
    else none
  | .dnsName dns => if oid = "dns" then (TenantId.tryNew dns).toOption else none
  | .directoryName name =>
    if oid = "directory" then
      match name.attributes.find? (·.1 = .commonName) with
      | some (_, some cn) => (TenantId.tryNew cn).toOption
      | _ => none
    else none
  | .other => none

/-- `extract_tenant_from_sans`. -/
def CertConfig.extractTenantFromSans (c : CertConfig) (cert : Certificate) :
    Except HsmError (Option TenantId) :=
  match c.tenantSanOid with
  | none => .ok none
  | some oid =>
    match (cert.subjectAlternativeName.filterMap (tenantOfSan oid)).eraseDups with
    | [] => .ok none
    | [tenant] => .ok (some tenant)
    | _ => .error .pinIncorrect

section Provider
variable [X509]

/-! ## Revocation -/

/-- `crl_usable` of `try_check_revocation`. -/
def CertRevocationConfig.usable (c : CertRevocationConfig) (crl : CertificateRevocationList)
    (now : Int) : Bool :=
  if now < crl.lastUpdate then false
  -- the age limit is cast to a signed number
  else if 0 < c.maxAgeSecs ∧ c.maxAgeSecs.toInt64.toInt < now - crl.lastUpdate then false
  else match crl.nextUpdate with
    | some next => decide (now ≤ next)
    | none => !c.requireNextUpdate

namespace CertAuthProvider

/-- The trusted root that a list is bound to by its key identifier and issuer. -/
def crlSigner (p : CertAuthProvider) (crl : CertificateRevocationList) : Option Certificate :=
  p.config.trustedRoots.findSome? fun der =>
    match X509.certificate der with
    | none => none
    | some root =>
      if (crl.authorityKeyIdentifier.all fun kid => root.subjectKeyIdentifier = some kid) ∧
        root.subject = crl.issuer then some root else none

/-- One list in the loop of `try_check_revocation`: whether it is usable for the issuer. -/
def examineCrl (p : CertAuthProvider) (serial : Bytes) (issuer : X509Name) (now : Int)
    (der : Bytes) : Except HsmError Bool :=
  match X509.crl der with
  | none => .error .generalError
  | some crl =>
    if crl.issuer ≠ issuer then .ok false
    else match p.crlSigner crl with
      | none => .error .pinIncorrect
      | some signer =>
        if X509.verifyCrl der signer.publicKey = false then .error .pinIncorrect
        else if p.config.revocation.usable crl now = false then .ok false
        else if serial ∈ crl.revoked then .error .pinIncorrect
        else .ok true

/-- `RevocationOutcome`. -/
inductive RevocationOutcome where
  | matched
  | noUsableCrl
  deriving DecidableEq

/-- The loop of `try_check_revocation`. -/
def examineCrls (p : CertAuthProvider) (serial : Bytes) (issuer : X509Name) (now : Int) :
    List Bytes → Bool → Except HsmError RevocationOutcome
  | [], foundUsable => .ok (if foundUsable then .matched else .noUsableCrl)
  | der :: rest, foundUsable =>
    match p.examineCrl serial issuer now der with
    | .error e => .error e
    | .ok usable => examineCrls p serial issuer now rest (foundUsable || usable)

/-- `try_check_revocation`. -/
def tryCheckRevocation (p : CertAuthProvider) (source : List Bytes) (serial : Bytes)
    (issuer : X509Name) (now : Int) : Except HsmError RevocationOutcome :=
  p.examineCrls serial issuer now source false

/-- `check_revocation`. -/
def checkRevocation (p : CertAuthProvider) (cert : Certificate) (now : Int) :
    Except HsmError Unit :=
  if p.config.revocation.enabled = false then .ok ()
  else
    let refreshed := p.refreshedCrls
    let primary := if refreshed ≠ [] then refreshed else p.config.revocation.crls
    let fallback := if refreshed ≠ [] then p.config.revocation.crls else []
    match p.tryCheckRevocation primary cert.rawSerial cert.issuer now with
    | .error e => .error e
    | .ok .matched => .ok ()
    | .ok .noUsableCrl =>
      if fallback ≠ [] then
        match p.tryCheckRevocation fallback cert.rawSerial cert.issuer now with
        | .error e => .error e
        | .ok .matched => .ok ()
        | .ok .noUsableCrl => .error .pinIncorrect
      else .error .pinIncorrect

/-- The list that a URL supplies, if it is well formed. -/
def fetched (fetch : String → Except HsmError Bytes) (url : String) : Option Bytes :=
  match fetch url with
  | .ok der => if (X509.crl der).isSome then some der else none
  | .error _ => none

/-- `refresh_crls_if_stale`, with what the fetcher answers for each URL. -/
def refreshCrlsIfStale (p : CertAuthProvider) (fetch : String → Except HsmError Bytes) :
    Except HsmError Bool × CertAuthProvider :=
  if p.config.httpFetcher = false then (.ok false, p)
  else if p.config.revocation.crlUrls = [] then (.ok false, p)
  else
    let newCrls := p.config.revocation.crlUrls.filterMap (fetched fetch)
    if newCrls = [] then (.error .generalError, p)
    else (.ok true, { p with refreshedCrls := newCrls })

/-! ## The chain -/

/-- One step of the chain: the child is issued and signed by the parent, a certificate authority
with room for the `below` certificates between. -/
def checkLink (now : Int) (below : Nat) (childDer parentDer : Bytes) : Except HsmError Unit :=
  match X509.certificate childDer, X509.certificate parentDer with
  | some child, some parent =>
    if child.issuer ≠ parent.subject then .error .pinIncorrect
    else if X509.verifyCertificate childDer parent.publicKey = false then .error .pinIncorrect
    else if X509.isValid parent now = false then .error .pinIncorrect
    else match parent.basicConstraints with
      | .present bc =>
        if bc.ca = false then .error .pinIncorrect
        else match parent.keyUsage with
          | .present true =>
            if bc.pathLenConstraint.any (· < below) then .error .pinIncorrect else .ok ()
          | _ => .error .pinIncorrect
      | _ => .error .pinIncorrect
  | _, _ => .error .generalError

/-- Each certificate is issued by the next one. -/
def checkLinks (now : Int) : Nat → List Bytes → Except HsmError Unit
  | below, child :: parent :: rest =>
    match checkLink now below child parent with
    | .error e => .error e
    | .ok () => checkLinks now (below + 1) (parent :: rest)
  | _, _ => .ok ()

/-- A chain of one: the certificate is itself a trusted root. -/
def validateRoot (p : CertAuthProvider) (leafDer : Bytes) (now : Int) : Except HsmError Unit :=
  if leafDer ∉ p.config.trustedRoots then .error .pinIncorrect
  else match X509.certificate leafDer with
    | none => .error .generalError
    | some leaf =>
      if X509.verifyCertificate leafDer leaf.publicKey = false then .error .pinIncorrect
      else p.checkRevocation leaf now

/-- `validate_chain`. -/
def validateChain (p : CertAuthProvider) (certChain : List Bytes) (now : Int) :
    Except HsmError Unit :=
  match certChain with
  | [leafDer] =>
    if p.config.trustedRoots ≠ [] then p.validateRoot leafDer now else .error .pinIncorrect
  | chain =>
    match checkLinks now 0 chain with
    | .error e => .error e
    | .ok () =>
      match chain.getLast? with
      | none => .error .generalError
      | some root => if root ∈ p.config.trustedRoots then .ok () else .error .pinIncorrect

/-- The extended key usage of the leaf allows a client. -/
def checkClientAuth : Extension ExtendedKeyUsage → Except HsmError Unit
  | .present eku =>
    if eku.clientAuth = false ∧ eku.any = false then .error .pinIncorrect else .ok ()
  | .absent => .ok ()
  | .malformed => .error .pinIncorrect

/-- The user id of a subject. -/
def userIdOf (subject : X509Name) : String :=
  (extractCn subject).getD ("cert:" ++ X509.display subject)

/-- `authenticate`, from the leaf on. -/
def authenticateLeaf (p : CertAuthProvider) (certChain : List Bytes) (cert : Certificate)
    (now : Int) : Except HsmError AuthResult :=
  if X509.isValid cert now = false then .error .pinIncorrect
  else
    match if p.config.trustedRoots ≠ [] then p.validateChain certChain now else .ok () with
    | .error e => .error e
    | .ok () =>
      match checkClientAuth cert.extendedKeyUsage with
      | .error e => .error e
      | .ok () =>
        match p.checkRevocation cert now with
        | .error e => .error e
        | .ok () =>
          match mappedRole p.config.subjectRoleMapping cert.subject with
          | none => .error .pinIncorrect
          | some role =>
            match p.config.extractTenantFromSans cert with
            | .error e => .error e
            | .ok tenantId => .ok ⟨role, userIdOf cert.subject, tenantId, p.config.requireMfa⟩

/-- `authenticate`. -/
def authenticate (p : CertAuthProvider) (credentials : AuthCredentials) (now : Int) :
    Except HsmError AuthResult :=
  match credentials with
  | .certificate [] => .error .pinIncorrect
  | .certificate (der :: rest) =>
    match X509.certificate der with
    | none => .error .generalError
    | some cert => p.authenticateLeaf (der :: rest) cert now
  | _ => .error .functionNotSupported

/-! ## What a refresh leaves -/

section Refresh
variable {p q : CertAuthProvider} {cert : Certificate} {now : Int} {der : Bytes}

/-- A login that goes through found the certificate not revoked, and has its user id. -/
theorem of_authenticate {credentials : AuthCredentials} {result : AuthResult}
    (h : p.authenticate credentials now = .ok result) :
    ∃ leafDer rest leaf, credentials = .certificate (leafDer :: rest) ∧
      X509.certificate leafDer = some leaf ∧ p.checkRevocation leaf now = .ok () ∧
      result.userId = userIdOf leaf.subject := by
  unfold authenticate at h
  split at h
  · cases h
  · next leafDer rest =>
    split at h
    · cases h
    next leaf hleaf =>
    refine ⟨leafDer, rest, leaf, rfl, hleaf, ?_⟩
    unfold authenticateLeaf at h
    split at h
    · cases h
    split at h
    · cases h
    split at h
    · cases h
    split at h
    · cases h
    next hrevocation =>
    split at h
    · cases h
    split at h
    · cases h
    next tenantId _ =>
    cases h
    exact ⟨hrevocation, rfl⟩
  · cases h

/-- The list has a valid signature, is in use at the time, and contains the certificate. -/
def Revokes (p : CertAuthProvider) (cert : Certificate) (now : Int) (der : Bytes) : Prop :=
  ∃ crl signer, X509.crl der = some crl ∧ crl.issuer = cert.issuer ∧
    p.crlSigner crl = some signer ∧ X509.verifyCrl der signer.publicKey = true ∧
    p.config.revocation.usable crl now = true ∧ cert.rawSerial ∈ crl.revoked

/-- The list has a valid signature, is in use at the time, and leaves the certificate out. -/
def Clears (p : CertAuthProvider) (cert : Certificate) (now : Int) (der : Bytes) : Prop :=
  ∃ crl signer, X509.crl der = some crl ∧ crl.issuer = cert.issuer ∧
    p.crlSigner crl = some signer ∧ X509.verifyCrl der signer.publicKey = true ∧
    p.config.revocation.usable crl now = true ∧ cert.rawSerial ∉ crl.revoked

theorem examineCrl_of_revokes (h : p.Revokes cert now der) :
    p.examineCrl cert.rawSerial cert.issuer now der = .error .pinIncorrect := by
  obtain ⟨crl, signer, hcrl, hissuer, hsigner, hverify, husable, hlisted⟩ := h
  simp [examineCrl, hcrl, hissuer, hsigner, hverify, husable, hlisted]

theorem clears_of_examineCrl (h : p.examineCrl cert.rawSerial cert.issuer now der = .ok true) :
    p.Clears cert now der := by
  unfold examineCrl at h
  split at h
  · cases h
  next crl hcrl =>
  by_cases hissuer : crl.issuer = cert.issuer
  · rw [if_neg (not_not.mpr hissuer)] at h
    split at h
    · cases h
    next signer hsigner =>
    split at h
    · cases h
    next hverify =>
    split at h
    · cases h
    next husable =>
    split at h
    · cases h
    next hlisted =>
    exact ⟨crl, signer, hcrl, hissuer, hsigner, Bool.not_eq_false _ ▸ hverify,
      Bool.not_eq_false _ ▸ husable, hlisted⟩
  · rw [if_pos hissuer] at h
    cases h

/-- A source with a list that revokes is not passed. -/
theorem examineCrls_of_revokes {source : List Bytes} (hder : der ∈ source)
    (h : p.Revokes cert now der) (found : Bool) (outcome : RevocationOutcome) :
    p.examineCrls cert.rawSerial cert.issuer now source found ≠ .ok outcome := by
  induction source generalizing found with
  | nil => cases hder
  | cons d rest ih =>
    rw [examineCrls]
    rcases mem_cons.mp hder with rfl | hrest
    · rw [examineCrl_of_revokes h]
      nofun
    · split
      · nofun
      · exact ih hrest _

/-- A source that decides in favour has a list that does. -/
theorem clears_of_examineCrls {source : List Bytes} {found : Bool}
    (h : p.examineCrls cert.rawSerial cert.issuer now source found = .ok .matched) :
    found = true ∨ ∃ d ∈ source, p.Clears cert now d := by
  induction source generalizing found with
  | nil =>
    cases found with
    | false => cases h
    | true => exact .inl rfl
  | cons d rest ih =>
    rw [examineCrls] at h
    split at h
    · cases h
    next usable husable =>
    rcases ih h with hfound | ⟨d', hd', hclears⟩
    · rcases Bool.or_eq_true_iff.mp hfound with hfound | rfl
      · exact .inl hfound
      · exact .inr ⟨d, mem_cons_self, clears_of_examineCrl husable⟩
    · exact .inr ⟨d', mem_cons_of_mem d hd', hclears⟩

/-- The fetched lists decide if one of them revokes the certificate. -/
theorem checkRevocation_of_revokes (henabled : p.config.revocation.enabled = true)
    (hder : der ∈ p.refreshedCrls) (h : p.Revokes cert now der) :
    p.checkRevocation cert now ≠ .ok () := by
  have hne : p.refreshedCrls ≠ [] := ne_nil_of_mem hder
  have hprimary := examineCrls_of_revokes hder h false
  unfold checkRevocation tryCheckRevocation
  simp only [henabled, Bool.true_eq_false, if_false, hne, ne_eq, not_false_eq_true, if_true]
  split
  · nofun
  · next heq => exact (hprimary _ heq).elim
  · next heq => exact (hprimary _ heq).elim

/-- A certificate is found good only by a list that leaves it out. -/
theorem clears_of_checkRevocation (henabled : p.config.revocation.enabled = true)
    (h : p.checkRevocation cert now = .ok ()) :
    ∃ d, (d ∈ p.refreshedCrls ∨ d ∈ p.config.revocation.crls) ∧ p.Clears cert now d := by
  have hsource : ∀ {source : List Bytes},
      p.examineCrls cert.rawSerial cert.issuer now source false = .ok .matched →
      ∃ d ∈ source, p.Clears cert now d := by
    intro source heq
    rcases clears_of_examineCrls heq with hfound | hd
    · cases hfound
    · exact hd
  unfold checkRevocation tryCheckRevocation at h
  by_cases hempty : p.refreshedCrls = []
  · simp only [henabled, Bool.true_eq_false, if_false, hempty, ne_eq, not_true_eq_false] at h
    split at h
    · cases h
    · next heq =>
      obtain ⟨d, hd, hclears⟩ := hsource heq
      exact ⟨d, .inr hd, hclears⟩
    · cases h
  · simp only [henabled, Bool.true_eq_false, if_false, hempty, ne_eq, not_false_eq_true,
      if_true] at h
    split at h
    · cases h
    · next heq =>
      obtain ⟨d, hd, hclears⟩ := hsource heq
      exact ⟨d, .inl hd, hclears⟩
    by_cases hstatic : p.config.revocation.crls = []
    · rw [if_neg (not_not.mpr hstatic)] at h
      cases h
    rw [if_pos hstatic] at h
    split at h
    · cases h
    · next heq =>
      obtain ⟨d, hd, hclears⟩ := hsource heq
      exact ⟨d, .inr hd, hclears⟩
    · cases h

end Refresh

section Runs
variable {p q : CertAuthProvider} {cert : Certificate} {now : Int} {der : Bytes}
  {fetch : String → Except HsmError Bytes} {url : String}

/-- The provider after a call. -/
def step (p : CertAuthProvider) (fetch : String → Except HsmError Bytes) : CertAuthProvider :=
  (p.refreshCrlsIfStale fetch).2

theorem step_config (p : CertAuthProvider) (fetch : String → Except HsmError Bytes) :
    (step p fetch).config = p.config := by
  unfold step refreshCrlsIfStale
  split
  · rfl
  split
  · rfl
  dsimp only
  split <;> rfl

theorem run_config (p : CertAuthProvider) (fetches : List (String → Except HsmError Bytes)) :
    (run step p fetches).config = p.config := by
  refine induction_run (I := fun q : CertAuthProvider => q.config = p.config) ?_ rfl
    (along_true fetches)
  intro q fetch hq _
  rw [step_config, hq]

/-- A refresh keeps the fetched lists or has them all from the URLs that answered. -/
theorem step_refreshedCrls (p : CertAuthProvider) (fetch : String → Except HsmError Bytes) :
    (step p fetch).refreshedCrls = p.refreshedCrls ∨
      (step p fetch).refreshedCrls = p.config.revocation.crlUrls.filterMap (fetched fetch) := by
  unfold step refreshCrlsIfStale
  split
  · exact .inl rfl
  split
  · exact .inl rfl
  dsimp only
  split
  · exact .inl rfl
  · exact .inr rfl

/-- What a URL supplies is among the fetched lists. -/
theorem mem_step_refreshedCrls (hfetcher : p.config.httpFetcher = true)
    (hurl : url ∈ p.config.revocation.crlUrls) (hfetched : fetched fetch url = some der) :
    der ∈ (step p fetch).refreshedCrls := by
  have hmem : der ∈ p.config.revocation.crlUrls.filterMap (fetched fetch) :=
    mem_filterMap.mpr ⟨url, hurl, hfetched⟩
  unfold step refreshCrlsIfStale
  rw [if_neg (by simp [hfetcher]), if_neg (ne_nil_of_mem hurl)]
  rw [if_neg (ne_nil_of_mem hmem)]
  exact hmem

theorem Revokes.config (h : p.Revokes cert now der) (hconfig : q.config = p.config) :
    q.Revokes cert now der := by
  simp only [Revokes, crlSigner, hconfig]
  exact h

theorem Clears.config (h : p.Clears cert now der) (hconfig : q.config = p.config) :
    q.Clears cert now der := by
  simp only [Clears, crlSigner, hconfig]
  exact h

/-- The fetched lists still hold the one that revokes, or none that clears. -/
theorem run_refreshedCrls {after : List (String → Except HsmError Bytes)}
    (hder : der ∈ q.refreshedCrls)
    (hothers : ∀ fetch ∈ after, ∀ url ∈ q.config.revocation.crlUrls, ∀ d,
      fetched fetch url = some d → ¬ q.Clears cert now d) :
    der ∈ (run step q after).refreshedCrls ∨
      ∀ d ∈ (run step q after).refreshedCrls, ¬ q.Clears cert now d := by
  induction after using List.reverseRecOn with
  | nil => exact .inl hder
  | append_singleton es fetch ih =>
    have hbefore := ih fun f hf => hothers f (mem_append_left _ hf)
    rw [run_snoc]
    rcases step_refreshedCrls (run step q es) fetch with hsame | hnew
    · rw [hsame]
      exact hbefore
    right
    intro d hd
    rw [hnew, run_config] at hd
    obtain ⟨url, hurl, hfetched⟩ := mem_filterMap.mp hd
    exact hothers fetch (by simp) url hurl d hfetched

/-- **A refresh does not make a revoked certificate good**, however many follow: as long as the
list that a URL supplied is in use, and no list that came later or is configured is in use and
leaves the certificate out. -/
theorem revoked_after_refresh (p : CertAuthProvider) (henabled : p.config.revocation.enabled = true)
    (hfetcher : p.config.httpFetcher = true) (cert : Certificate) (now : Int)
    (before after : List (String → Except HsmError Bytes))
    (fetch : String → Except HsmError Bytes) (x : String) (der : Bytes)
    (hx : x ∈ p.config.revocation.crlUrls) (hfetched : fetched fetch x = some der)
    (hsilent : ∀ f ∈ after, fetched f x = none) (hrevokes : p.Revokes cert now der)
    (hothers : ∀ d, (d ∈ p.config.revocation.crls ∨
      ∃ f ∈ after, ∃ url ∈ p.config.revocation.crlUrls, url ≠ x ∧ fetched f url = some d) →
      ¬ p.Clears cert now d)
    (leafDer : Bytes) (rest : List Bytes) (hleaf : X509.certificate leafDer = some cert)
    (result : AuthResult) :
    (run step p (before ++ fetch :: after)).authenticate (.certificate (leafDer :: rest)) now ≠
      .ok result := by
  intro hok
  have hconfig := run_config p (before ++ [fetch])
  have hfinal := run_config p (before ++ fetch :: after)
  have hder : der ∈ (run step p (before ++ [fetch])).refreshedCrls := by
    have hbefore := run_config p before
    rw [run_snoc]
    exact mem_step_refreshedCrls (hbefore ▸ hfetcher) (hbefore ▸ hx) hfetched
  have hlists : der ∈ (run step (run step p (before ++ [fetch])) after).refreshedCrls ∨
      ∀ d ∈ (run step (run step p (before ++ [fetch])) after).refreshedCrls,
        ¬ (run step p (before ++ [fetch])).Clears cert now d := by
    apply run_refreshedCrls hder
    intro f hf url hurl d hd hclears
    have hne : url ≠ x := by
      rintro rfl
      rw [hsilent f hf] at hd
      cases hd
    exact hothers d (.inr ⟨f, hf, url, hconfig ▸ hurl, hne, hd⟩) (hclears.config hconfig.symm)
  rw [← run_append, append_assoc, singleton_append] at hlists
  obtain ⟨leafDer', rest', leaf, heq, hleaf', hgood, -⟩ := of_authenticate hok
  cases heq
  obtain rfl := Option.some.inj (hleaf.symm.trans hleaf')
  rcases hlists with hmem | hnone
  · exact checkRevocation_of_revokes (hfinal ▸ henabled) hmem (hrevokes.config hfinal) hgood
  obtain ⟨d, hd, hclears⟩ := clears_of_checkRevocation (hfinal ▸ henabled) hgood
  rcases hd with hd | hd
  · exact hnone d hd (hclears.config (hconfig.trans hfinal.symm))
  · exact hothers d (.inl (hfinal ▸ hd)) (hclears.config hfinal.symm)

end Runs

end CertAuthProvider

end Provider

/-! ### Two lists of one issuer -/

section Sample

def rootName : X509Name := ⟨[(.commonName, some "Root")]⟩

def rootCertificate : Certificate where
  subject := rootName
  issuer := rootName
  rawSerial := [1]
  publicKey := [1]
  basicConstraints := .present ⟨true, none⟩
  keyUsage := .present true

/-- A certificate that the root has issued. -/
def issuedCertificate (commonName : String) : Certificate where
  subject := ⟨[(.commonName, some commonName)]⟩
  issuer := rootName
  rawSerial := [2]
  publicKey := [2]

/-- The lists of the root, in use from time 0 to time 1000. -/
def rootCrl (revoked : List Bytes) : CertificateRevocationList :=
  ⟨rootName, none, 0, some 1000, revoked⟩

/-- The root is `[1]` and its certificate for the name `[2]`; the list `[3]` revokes it, and `[4]`
revokes nothing. -/
@[reducible] def sampleX509 (commonName : String) : X509 where
  certificate der :=
    if der = [1] then some rootCertificate
    else if der = [2] then some (issuedCertificate commonName) else none
  crl der :=
    if der = [3] then some (rootCrl [[2]]) else if der = [4] then some (rootCrl []) else none
  isValid _ _ := true
  verifyCertificate _ _ := true
  verifyCrl _ _ := true
  display _ := "CN=" ++ commonName

@[reducible] def aliceX509 : X509 := sampleX509 "alice"

attribute [local instance] aliceX509

namespace CertAuthProvider

def crlProvider : CertAuthProvider where
  config :=
    { subjectRoleMapping := [⟨"CN=alice", "operator"⟩]
      trustedRoots := [[1]]
      revocation := { enabled := true, crlUrls := ["x", "y"] }
      httpFetcher := true }

/-- Only one URL answers. -/
def onlyFrom (url : String) (der : Bytes) (u : String) : Except HsmError Bytes :=
  if u = url then .ok der else .error .generalError

theorem crlProvider_revokes : crlProvider.Revokes (issuedCertificate "alice") 10 [3] :=
  ⟨rootCrl [[2]], rootCertificate, rfl, rfl, rfl, rfl, by decide, by decide⟩

/-- A refresh in which no URL answers. -/
theorem revoked_after_failed_refresh :
    (run step crlProvider [onlyFrom "x" [3], fun _ => .error .generalError]).authenticate
      (.certificate [[2], [1]]) 10 ≠ .ok ⟨.operator, "alice", none, false⟩ := by
  refine revoked_after_refresh crlProvider rfl rfl (issuedCertificate "alice") 10 []
    [fun _ => .error .generalError] (onlyFrom "x" [3]) "x" [3] (by decide) rfl ?_
    crlProvider_revokes ?_ [2] [[1]] rfl _
  · intro f hf
    obtain rfl := mem_singleton.mp hf
    rfl
  · rintro d (hd | ⟨f, hf, url, -, -, hd⟩)
    · cases hd
    obtain rfl := mem_singleton.mp hf
    cases hd

/-- A certificate is revoked by the list from one URL.  At the next refresh that URL does not
answer, and another one supplies a list of the same issuer without it: the login goes through,
while the list that revokes it is still in use. -/
theorem other_url_unrevokes :
    crlProvider.Revokes (issuedCertificate "alice") 10 [3] ∧
      fetched (onlyFrom "x" [3]) "x" = some [3] ∧ fetched (onlyFrom "y" [4]) "x" = none ∧
      (run step crlProvider [onlyFrom "x" [3]]).authenticate (.certificate [[2], [1]]) 10 =
        .error .pinIncorrect ∧
      (run step crlProvider [onlyFrom "x" [3], onlyFrom "y" [4]]).authenticate
        (.certificate [[2], [1]]) 10 = .ok ⟨.operator, "alice", none, false⟩ :=
  ⟨crlProvider_revokes, rfl, rfl, by decide +kernel, by decide +kernel⟩

end CertAuthProvider

end Sample

end CratonHsm.Auth
