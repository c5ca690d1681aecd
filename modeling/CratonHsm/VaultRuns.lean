import CratonHsm.VaultTransit

/-!
# Runs of the Vault transit backend

What a request that succeeded has seen, one lemma for each request that handles a ciphertext, and
that no request changes the configuration.  From these, the version floors: `Encrypt` and `Decrypt`
keep them always, `Rewrap` and `DataKey` where the configuration or the key leaves nothing to check.
-/

namespace CratonHsm.Cloud
open PrefixFreeCode AsciiText GuardedRun OrderedMaps Std List

namespace MockVaultBackend

variable {b : MockVaultBackend} {draws : Draws} {name : String} {context : Option Bytes}
  {entry : MockKeyEntry} {secret plaintext : Bytes} {ct payload input : Text} {version : Nat}
  {identity : VaultIdentity} {req : VaultTransitRequest} {c : VaultCall}
  {resp : VaultTransitResponse}

/-! ## What a request has seen -/

theorem getKey_eq_ok : b.getKey name = .ok entry ↔ b.keys[name]? = some entry := by
  rw [getKey]
  cases b.keys[name]? <;> simp

theorem b64Decode_eq_ok {bytes : Bytes} :
    b64Decode input = .ok bytes ↔ Base64.decode input = some bytes := by
  rw [b64Decode]
  cases Base64.decode input <;> simp

theorem encrypt_ok (h : b.encrypt draws name input context = .ok resp) :
    ∃ entry secret plaintext ct, b.keys[name]? = some entry ∧
      b.config.minEncryptionVersion.toNat ≤ entry.latestVersion ∧
      entry.material entry.latestVersion = some secret ∧
      Base64.decode input = some plaintext ∧
      buildCiphertext draws.nonce secret context plaintext entry.latestVersion = .ok ct ∧
      resp = [("ciphertext", .string ct)] := by
  obtain ⟨_, _, h⟩ := bind_eq_ok.mp h
  obtain ⟨entry, hentry, h⟩ := bind_eq_ok.mp h
  split at h
  · cases h
  dsimp only at h
  split at h
  · cases h
  next hfloor =>
  split at h
  · cases h
  next secret hsecret =>
  obtain ⟨plaintext, hplaintext, h⟩ := bind_eq_ok.mp h
  obtain ⟨ct, hct, h⟩ := bind_eq_ok.mp h
  refine ⟨entry, secret, plaintext, ct, getKey_eq_ok.mp hentry, ?_, hsecret,
    b64Decode_eq_ok.mp hplaintext, hct, (Except.ok.inj h).symm⟩
  -- a floor of zero is no floor
  exact Nat.not_lt.mp fun hlt =>
    hfloor ⟨UInt32.lt_iff_toNat_lt.mpr (Nat.lt_of_le_of_lt (Nat.zero_le _) hlt), hlt⟩

theorem decrypt_ok (h : b.decrypt name ct context = .ok resp) :
    ∃ version payload, parseVaultCiphertext ct = .ok (version, payload) ∧
      b.config.minDecryptionVersion.toNat ≤ version := by
  obtain ⟨entry, _, h⟩ := bind_eq_ok.mp h
  obtain ⟨⟨version, payload⟩, hparse, h⟩ := bind_eq_ok.mp h
  dsimp only at h
  split at h
  · cases h
  next hfloor =>
  exact ⟨version, payload, hparse, Nat.not_lt.mp hfloor⟩

theorem one_le_of_material (h : entry.material version = some secret) : 1 ≤ version := by
  rw [MockKeyEntry.material] at h
  split at h
  · cases h
  next hzero => exact Nat.one_le_iff_ne_zero.mpr hzero

theorem rewrap_ok (h : b.rewrap draws name ct context = .ok resp) :
    ∃ entry version payload newSecret plaintext newCt, b.keys[name]? = some entry ∧
      parseVaultCiphertext ct = .ok (version, payload) ∧ 1 ≤ version ∧
      entry.material entry.latestVersion = some newSecret ∧
      buildCiphertext draws.nonce newSecret context plaintext entry.latestVersion = .ok newCt ∧
      resp = [("ciphertext", .string newCt)] := by
  obtain ⟨entry, hentry, h⟩ := bind_eq_ok.mp h
  obtain ⟨⟨version, payload⟩, hparse, h⟩ := bind_eq_ok.mp h
  dsimp only at h
  split at h
  · cases h
  next oldSecret hold =>
  obtain ⟨plaintext, _, h⟩ := bind_eq_ok.mp h
  split at h
  · cases h
  next newSecret hnew =>
  obtain ⟨newCt, hnewCt, h⟩ := bind_eq_ok.mp h
  exact ⟨entry, version, payload, newSecret, plaintext, newCt, getKey_eq_ok.mp hentry, hparse,
    one_le_of_material hold, hnew, hnewCt, (Except.ok.inj h).symm⟩

theorem dataKey_ok {plaintext : Bool} {bits : UInt32}
    (h : b.dataKey draws name plaintext bits = .ok resp) :
    ∃ entry secret ct rest, b.keys[name]? = some entry ∧
      entry.material entry.latestVersion = some secret ∧
      buildCiphertext draws.nonce secret none (draws.fresh (bits.toNat / 8)) entry.latestVersion =
        .ok ct ∧
      resp = ("ciphertext", .string ct) :: rest := by
  rw [dataKey] at h
  split at h
  · cases h
  obtain ⟨entry, hentry, h⟩ := bind_eq_ok.mp h
  split at h
  · cases h
  dsimp only at h
  split at h
  · cases h
  next secret hsecret =>
  obtain ⟨ct, hct, h⟩ := bind_eq_ok.mp h
  exact ⟨entry, secret, ct, _, getKey_eq_ok.mp hentry, hsecret, hct, (Except.ok.inj h).symm⟩

/-! ## Requests that succeed -/

theorem rewrap_of {newCt : Text} {oldSecret newSecret : Bytes}
    (hentry : b.keys[name]? = some entry)
    (hparse : parseVaultCiphertext ct = .ok (version, payload))
    (hold : entry.material version = some oldSecret)
    (hopen : openCiphertext oldSecret context payload = .ok plaintext)
    (hnew : entry.material entry.latestVersion = some newSecret)
    (hbuild : buildCiphertext draws.nonce newSecret context plaintext entry.latestVersion = .ok
      newCt) :
    b.rewrap draws name ct context = .ok [("ciphertext", .string newCt)] := by
  rw [rewrap, getKey_eq_ok.mpr hentry, hparse]
  simp only [bind, Except.bind]
  rw [hold]
  dsimp only
  rw [hopen]
  rw [hnew]
  dsimp only
  rw [hbuild]

theorem dataKey_of (hentry : b.keys[name]? = some entry)
    (hsupports : entry.keyType.supportsEncrypt = true)
    (hsecret : entry.material entry.latestVersion = some secret)
    (hbuild : buildCiphertext draws.nonce secret none (draws.fresh 32) entry.latestVersion = .ok
      ct) :
    b.dataKey draws name false 256 = .ok [("ciphertext", .string ct)] := by
  rw [dataKey, if_neg (by decide), getKey_eq_ok.mpr hentry]
  simp only [bind, Except.bind]
  rw [hsupports, hsecret, if_neg (by decide)]
  have hbits : UInt32.toNat 256 / 8 = 32 := by decide
  dsimp only
  rw [hbits, hbuild]
  rfl

section Calls

/-- A key whose latest version is not below the floor, or a floor that excludes no version. -/
def EncryptionCovered (b : MockVaultBackend) (name : String) : Prop :=
  b.config.minEncryptionVersion.toNat ≤ 1 ∨
    ∀ entry, b.keys[name]? = some entry →
      b.config.minEncryptionVersion.toNat ≤ entry.latestVersion

theorem EncryptionCovered.le (h : b.EncryptionCovered name) (hentry : b.keys[name]? = some entry)
    (hmaterial : entry.material entry.latestVersion = some secret) :
    b.config.minEncryptionVersion.toNat ≤ entry.latestVersion := by
  rcases h with hfloor | hlatest
  · exact Nat.le_trans hfloor (one_le_of_material hmaterial)
  · exact hlatest entry hentry

/-- A response that starts with a ciphertext that was just built. -/
theorem get_of_built {nonce : Bytes}
    (h : buildCiphertext nonce secret context plaintext version = .ok ct)
    (rest : VaultTransitResponse) :
    ∃ b64, VaultTransitResponse.get (("ciphertext", .string ct) :: rest) "ciphertext" =
      some (.string (formatVaultCiphertext version b64)) := by
  obtain ⟨encrypted, _, _, rfl⟩ := buildCiphertext_ok h
  exact ⟨_, lookup_cons_self⟩

variable [Sha2Family]

/-- A call that passes the checks of `dispatch`. -/
theorem dispatch_of_allowed (hacl : b.acl identity ((keyNameOf req).getD "") (opFor req) = true)
    (hname : (keyNameOf req).elim (.ok ()) validateVaultKeyName = .ok ()) :
    b.dispatch identity draws req = b.perform draws req := by
  rw [dispatch, hacl, hname]
  rfl

theorem dispatch_named (hkey : keyNameOf req = some name)
    (hacl : b.acl identity name (opFor req) = true) (hname : validateVaultKeyName name = .ok ()) :
    b.dispatch identity draws req = b.perform draws req := by
  apply dispatch_of_allowed
  · rw [hkey]
    exact hacl
  · rw [hkey]
    exact hname

/-- A call that was answered has passed them. -/
theorem dispatch_ok (h : (b.dispatch identity draws req).1 = .ok resp) :
    b.acl identity ((keyNameOf req).getD "") (opFor req) = true ∧
      (keyNameOf req).elim (.ok ()) validateVaultKeyName = .ok () ∧
      (b.perform draws req).1 = .ok resp := by
  by_cases hacl : b.acl identity ((keyNameOf req).getD "") (opFor req) = true
  · cases hname : (keyNameOf req).elim (.ok ()) validateVaultKeyName with
    | error e =>
      rw [dispatch, hacl, hname] at h
      cases h
    | ok u =>
      rw [dispatch_of_allowed hacl hname] at h
      exact ⟨hacl, rfl, h⟩
  · rw [dispatch, (Bool.not_eq_true _).mp hacl] at h
    cases h

/-! ## What a request leaves as it is -/

/-- A call does nothing, or passed the checks and does what its arm does. -/
theorem step_cases (b : MockVaultBackend) (c : VaultCall) :
    b.step c = b ∨ b.answer c = (b.perform c.draws c.request).1 ∧
      b.step c = (b.perform c.draws c.request).2 := by
  rw [answer, step]
  by_cases hacl : b.acl c.identity ((keyNameOf c.request).getD "") (opFor c.request) = true
  · cases hname : (keyNameOf c.request).elim (.ok ()) validateVaultKeyName with
    | error e =>
      left
      rw [dispatch, hacl, hname]
      rfl
    | ok u =>
      right
      rw [dispatch_of_allowed hacl hname]
      exact ⟨rfl, rfl⟩
  · left
    rw [dispatch, (Bool.not_eq_true _).mp hacl]
    rfl

/-- A call changes nothing but the keys. -/
theorem step_eq (b : MockVaultBackend) (c : VaultCall) :
    ∃ keys, b.step c = { b with keys := keys } := by
  rcases step_cases b c with hsame | ⟨_, hstep⟩
  · exact ⟨b.keys, hsame⟩
  rw [hstep]
  cases c.request with
  | createKey n keyType exportable =>
    simp only [perform, createKey]
    split <;> exact ⟨_, rfl⟩
  | rotateKey n =>
    simp only [perform, rotateKey]
    split <;> exact ⟨_, rfl⟩
  | deleteKey n =>
    simp only [perform, deleteKey]
    split
    · exact ⟨_, rfl⟩
    · split <;> exact ⟨_, rfl⟩
  | _ => exact ⟨_, rfl⟩

theorem run_config (b : MockVaultBackend) (calls : List VaultCall) :
    (run step b calls).config = b.config ∧ (run step b calls).acl = b.acl := by
  apply induction_run (I := fun r : MockVaultBackend => r.config = b.config ∧ r.acl = b.acl) _
    ⟨rfl, rfl⟩ (along_true calls)
  intro r c hr _
  obtain ⟨keys, hstep⟩ := step_eq r c
  rw [hstep]
  exact hr

/-! ## The floors -/

/-- The ciphertext that a request opens. -/
def opened : VaultTransitRequest → Option Text
  | .decrypt _ ciphertext _ | .rewrap _ ciphertext _ => some ciphertext
  | _ => none

/-- The requests that produce a ciphertext. -/
def produces : VaultTransitRequest → Bool
  | .encrypt .. | .dataKey .. | .rewrap .. => true
  | _ => false

/-- If the call succeeds, it opened no version and produced none below the floors. -/
structure RespectsFloors (b : MockVaultBackend) (c : VaultCall) : Prop where
  opens : ∀ resp ct, b.answer c = .ok resp → opened c.request = some ct →
    ∃ version payload, parseVaultCiphertext ct = .ok (version, payload) ∧
      b.config.minDecryptionVersion.toNat ≤ version
  produced : ∀ resp, b.answer c = .ok resp → produces c.request = true →
    ∃ version b64, resp.get "ciphertext" = some (.string (formatVaultCiphertext version b64)) ∧
      b.config.minEncryptionVersion.toNat ≤ version

/-- The requests without a check of their own have nothing to check. -/
def FloorsCovered (b : MockVaultBackend) : VaultTransitRequest → Prop
  | .rewrap name .. => b.config.minDecryptionVersion.toNat ≤ 1 ∧ b.EncryptionCovered name
  | .dataKey name .. => b.EncryptionCovered name
  | _ => True

/-- The floors hold for a request that is covered, in any state. -/
theorem respectsFloors_of_covered (h : b.FloorsCovered c.request) : b.RespectsFloors c := by
  constructor
  · intro resp ct hanswer hopened
    obtain ⟨_, _, hperform⟩ := dispatch_ok hanswer
    cases hreq : c.request with
    | decrypt name ciphertext context =>
      rw [hreq] at hperform hopened
      obtain rfl := Option.some.inj hopened
      exact decrypt_ok hperform
    | rewrap name ciphertext context =>
      rw [hreq] at hperform hopened h
      obtain rfl := Option.some.inj hopened
      obtain ⟨_, version, payload, _, _, _, _, hparse, hpos, _⟩ := rewrap_ok hperform
      exact ⟨version, payload, hparse, Nat.le_trans h.1 hpos⟩
    | _ =>
      rw [hreq] at hopened
      cases hopened
  · intro resp hanswer hproduces
    obtain ⟨_, _, hperform⟩ := dispatch_ok hanswer
    cases hreq : c.request with
    | encrypt name input context =>
      rw [hreq] at hperform
      obtain ⟨entry, _, _, ct, _, hfloor, _, _, hct, rfl⟩ := encrypt_ok hperform
      obtain ⟨b64, hget⟩ := get_of_built hct []
      exact ⟨_, b64, hget, hfloor⟩
    | rewrap name ciphertext context =>
      rw [hreq] at hperform h
      obtain ⟨entry, _, _, _, _, ct, hentry, _, _, hmaterial, hct, rfl⟩ := rewrap_ok hperform
      obtain ⟨b64, hget⟩ := get_of_built hct []
      exact ⟨_, b64, hget, h.2.le hentry hmaterial⟩
    | dataKey name plaintext bits =>
      rw [hreq] at hperform h
      obtain ⟨entry, _, ct, rest, hentry, hmaterial, hct, rfl⟩ := dataKey_ok hperform
      obtain ⟨b64, hget⟩ := get_of_built hct rest
      exact ⟨_, b64, hget, EncryptionCovered.le h hentry hmaterial⟩
    | _ =>
      rw [hreq] at hproduces
      cases hproduces

/-- **Version floors**, in every reachable state: a call that has nothing to check or makes the
check itself opens no version below `min_decryption_version` and returns none below
`min_encryption_version`. -/
theorem floors_hold_of_covered (config : VaultTransitConfig)
    (acl : VaultIdentity → String → VaultOp → Bool) (calls : List VaultCall) (c : VaultCall)
    (h : (GuardedRun.run MockVaultBackend.step (withConfig config acl) calls).FloorsCovered
      c.request) :
    (GuardedRun.run MockVaultBackend.step (withConfig config acl) calls).RespectsFloors c :=
  respectsFloors_of_covered h

/-! ## What becomes of a version -/

/-- The key has the version, with the given material. -/
def Holds (b : MockVaultBackend) (name : String) (version : Nat) (secret : Bytes) : Prop :=
  ∃ entry, b.keys[name]? = some entry ∧ entry.material version = some secret

/-- Only its deletion takes a version away from a key. -/
theorem Holds.step (h : b.Holds name version secret) (hkeep : c.request ≠ .deleteKey name) :
    (b.step c).Holds name version secret := by
  rcases step_cases b c with hsame | ⟨_, hstep⟩
  · rwa [hsame]
  rw [hstep]
  obtain ⟨entry, hentry, hsecret⟩ := h
  cases hreq : c.request with
  | createKey n keyType exportable =>
    simp only [perform, createKey]
    split
    · exact ⟨entry, hentry, hsecret⟩
    next hnone =>
    have hn : name ≠ n := fun hn => by cases hentry.symm.trans (hn ▸ hnone)
    exact ⟨entry, (getElem?_insert_of_ne hn _).trans hentry, hsecret⟩
  | rotateKey n =>
    simp only [perform, rotateKey]
    split
    · exact ⟨entry, hentry, hsecret⟩
    next old hold =>
    by_cases hn : name = n
    · subst hn
      cases hentry.symm.trans hold
      refine ⟨_, ExtTreeMap.getElem?_insert_self, ?_⟩
      -- the new version is appended
      have hpos := one_le_of_material hsecret
      rw [MockKeyEntry.material, if_neg (by omega)] at hsecret ⊢
      exact (getElem?_append_left (List.getElem?_eq_some_iff.mp hsecret).1).trans hsecret
    · exact ⟨entry, (getElem?_insert_of_ne hn _).trans hentry, hsecret⟩
  | deleteKey n =>
    have hn : name ≠ n := fun hn => hkeep (hn ▸ hreq)
    simp only [perform, deleteKey]
    split
    · exact ⟨entry, hentry, hsecret⟩
    split
    · exact ⟨entry, hentry, hsecret⟩
    · exact ⟨entry, (getElem?_erase_of_ne hn).trans hentry, hsecret⟩
  | _ => exact ⟨entry, hentry, hsecret⟩

/-- **What was encrypted can be decrypted** until its key is deleted, however often the key is
rotated, if the ciphertext is not too long and its version is not retired. -/
theorem decrypt_after_encrypt (h : b.encrypt draws name input context =
      .ok [("ciphertext", .string ct)]) (hlen : byteLen ct ≤ maxVaultCiphertextLen)
    (hversion : ∀ entry, b.keys[name]? = some entry → entry.latestVersion < 2 ^ 32 ∧
      b.config.minDecryptionVersion.toNat ≤ entry.latestVersion)
    (calls : List VaultCall) (hkeep : ∀ c ∈ calls, c.request ≠ .deleteKey name) :
    ∃ plaintext, Base64.decode input = some plaintext ∧
      (run step b calls).decrypt name ct context =
        .ok [("plaintext", .string (Base64.encode plaintext))] := by
  obtain ⟨entry, secret, plaintext, _, hentry, -, hsecret, hinput, hbuild, hresp⟩ := encrypt_ok h
  cases hresp
  obtain ⟨hfits, hfloor⟩ := hversion entry hentry
  obtain ⟨b64, -, hparse, hopen⟩ := built_opens draws.length_nonce hfits hbuild hlen
  obtain ⟨entry', hentry', hsecret'⟩ := induction_run (I := (Holds · name _ secret))
    (fun _ _ hr hc => hr.step hc) ⟨entry, hentry, hsecret⟩ (along_of_forall fun _ => hkeep)
  refine ⟨plaintext, hinput, ?_⟩
  rw [decrypt, getKey_eq_ok.mpr hentry', hparse]
  simp only [bind, Except.bind, (run_config _ _).1, if_neg (Nat.not_lt.mpr hfloor), hsecret', hopen]

/-! ## A retired version comes back -/

theorem keys_created {keyType : VaultKeyType} {exportable : Bool}
    (hacl : b.acl identity name .manage = true) (hname : validateVaultKeyName name = .ok ())
    (hnone : b.keys[name]? = none) :
    (b.step ⟨identity, draws, .createKey name keyType exportable⟩).keys[name]? =
      some (.new keyType exportable (draws.fresh 32)) := by
  rw [step, dispatch_named rfl hacl hname]
  show (b.createKey draws name keyType exportable).2.keys[name]? = _
  rw [createKey, hnone]
  exact ExtTreeMap.getElem?_insert_self

theorem keys_rotated (hacl : b.acl identity name .manage = true)
    (hname : validateVaultKeyName name = .ok ()) (hentry : b.keys[name]? = some entry) :
    (b.step ⟨identity, draws, .rotateKey name⟩).keys[name]? =
      some (entry.rotate (draws.fresh 32)) := by
  rw [step, dispatch_named rfl hacl hname]
  show (b.rotateKey draws name).2.keys[name]? = _
  rw [rotateKey, hentry]
  exact ExtTreeMap.getElem?_insert_self

theorem step_dataKey (b : MockVaultBackend) (identity : VaultIdentity) (draws : Draws)
    (name : String) (plaintext : Bool) (bits : UInt32) :
    b.step ⟨identity, draws, .dataKey name plaintext bits⟩ = b := by
  rcases step_cases b ⟨identity, draws, .dataKey name plaintext bits⟩ with h | ⟨_, h⟩
  · exact h
  rw [h]
  rfl

end Calls

def allowAllVaultAcl : VaultIdentity → String → VaultOp → Bool := fun _ _ _ => true

/-- Version 1 is retired, and so is version 2 for encryption. -/
def retiring : VaultTransitConfig where
  minDecryptionVersion := 2
  minEncryptionVersion := 3

def zeroDraws : Draws where
  nonce := List.replicate 12 0
  length_nonce := length_replicate
  fresh n := List.replicate n 0
  length_fresh _ := length_replicate

/-- A request of one application. -/
def appCall (request : VaultTransitRequest) : VaultCall := ⟨⟨"app"⟩, zeroDraws, request⟩

@[reducible] def zeroFamily : Sha2Family where
  sha224 _ := List.replicate 28 0
  sha384 _ := List.replicate 48 0
  sha512 _ := List.replicate 64 0

section Sample
attribute [local instance] zeroFamily

def createK : VaultCall := appCall (.createKey "k" .aes256Gcm96 false)

def dataKeyK : VaultCall := appCall (.dataKey "k" false 256)

def rotateK : VaultCall := appCall (.rotateKey "k")

/-- Version 1 is retired for encryption, and the key has a second one, which the data key gets. -/
theorem floors_hold_of_covered_rotated :
    (∃ resp, (run step (withConfig { minEncryptionVersion := 2 } allowAllVaultAcl)
      [createK, rotateK]).answer dataKeyK = .ok resp) ∧
    (run step (withConfig { minEncryptionVersion := 2 } allowAllVaultAcl)
      [createK, rotateK]).RespectsFloors dataKeyK := by
  have hcreated : (run step (withConfig { minEncryptionVersion := 2 } allowAllVaultAcl)
      [createK]).keys["k"]? = some (.new .aes256Gcm96 false (List.replicate 32 0)) :=
    keys_created rfl rfl ExtTreeMap.getElem?_empty
  have hacl : ((run step (withConfig { minEncryptionVersion := 2 } allowAllVaultAcl)
      [createK]).acl ⟨"app"⟩ "k" .manage) = true := by
    rw [(run_config _ _).2]
    rfl
  have hrotated : (run step (withConfig { minEncryptionVersion := 2 } allowAllVaultAcl)
      [createK, rotateK]).keys["k"]? = some ((MockKeyEntry.new .aes256Gcm96 false
        (List.replicate 32 0)).rotate (List.replicate 32 0)) :=
    keys_rotated hacl rfl hcreated
  have hconfig := run_config (withConfig { minEncryptionVersion := 2 } allowAllVaultAcl)
    [createK, rotateK]
  refine ⟨?_, floors_hold_of_covered _ _ _ dataKeyK (.inr fun entry hentry => ?_)⟩
  · obtain ⟨ct, hct⟩ : ∃ ct, buildCiphertext zeroDraws.nonce (List.replicate 32 0) none
        (List.replicate 32 0) 2 = .ok ct :=
      buildCiphertext_some 2 (by decide) (by rw [length_replicate]; decide)
    rw [answer, dataKeyK, appCall, dispatch_named rfl (by rw [hconfig.2]; rfl) rfl]
    exact ⟨_, dataKey_of hrotated rfl rfl hct⟩
  · cases hrotated.symm.trans hentry
    rw [hconfig.1]
    decide

/-- A text of two bytes, and a rotation. -/
theorem decrypt_after_rotation : ∃ ct,
    (run step (run step (withConfig {} allowAllVaultAcl) [createK]) [rotateK]).decrypt "k" ct none =
      .ok [("plaintext", .string "aGk=".toList)] := by
  have hkey : (run step (withConfig {} allowAllVaultAcl) [createK]).keys["k"]? =
      some (.new .aes256Gcm96 false (List.replicate 32 0)) :=
    keys_created rfl rfl ExtTreeMap.getElem?_empty
  have hconfig := (run_config (withConfig {} allowAllVaultAcl) [createK]).1
  obtain ⟨ct, hct⟩ : ∃ ct, buildCiphertext zeroDraws.nonce (List.replicate 32 0) none
    [104, 105] 1 = .ok ct := buildCiphertext_some 1 (by decide) (by decide)
  have hencrypt : (run step (withConfig {} allowAllVaultAcl) [createK]).encrypt zeroDraws "k"
      "aGk=".toList none = .ok [("ciphertext", .string ct)] := by
    rw [encrypt, getKey_eq_ok.mpr hkey, hconfig]
    exact congrArg (· >>= fun c => .ok [("ciphertext", JsonText.Json.string c)]) hct
  have hlen : byteLen ct ≤ maxVaultCiphertextLen := by
    rw [byteLen_built zeroDraws.length_nonce hct]
    decide
  obtain ⟨_, hplaintext, hdecrypt⟩ := decrypt_after_encrypt hencrypt hlen (by
    intro entry hentry
    cases hkey.symm.trans hentry
    rw [hconfig]
    decide) [rotateK] (by simp [rotateK, appCall])
  cases hplaintext
  exact ⟨ct, hdecrypt⟩

/-- Keys of 32 bytes wrapped without a context, under a version of one digit. -/
theorem built_short {nonce : Bytes} (hnonce : nonce.length = 12)
    (hplaintext : plaintext.length = 32) (hversion : version < 10)
    (h : buildCiphertext nonce secret none plaintext version = .ok ct) :
    ∃ b64, ct = formatVaultCiphertext version b64 ∧
      parseVaultCiphertext ct = .ok (version, b64) ∧
      openCiphertext secret none b64 = .ok plaintext := by
  apply built_opens hnonce (by omega) h
  have hdigits : (Nat.toDigits 10 version).length = 1 := by
    rw [Nat.toDigits_of_lt_base hversion]
    rfl
  rw [byteLen_built hnonce h, hdigits, hplaintext]
  decide

/-- A data key comes back under version 1.  After a rotation, `Rewrap` opens it and wraps it under
version 2. -/
theorem rewrap_revives_retired_version : ∃ b64 newB64,
    (run step (withConfig retiring allowAllVaultAcl) [createK]).answer dataKeyK =
      .ok [("ciphertext", .string (formatVaultCiphertext 1 b64))] ∧
    parseVaultCiphertext (formatVaultCiphertext 1 b64) = .ok (1, b64) ∧
    (run step (withConfig retiring allowAllVaultAcl) [createK, dataKeyK, rotateK]).answer
      (appCall (.rewrap "k" (formatVaultCiphertext 1 b64) none)) =
      .ok [("ciphertext", .string (formatVaultCiphertext 2 newB64))] ∧
    1 < retiring.minDecryptionVersion.toNat ∧ 2 < retiring.minEncryptionVersion.toNat := by
  have hname : validateVaultKeyName "k" = .ok () := rfl
  -- the key and its first version
  have hcreated : (run step (withConfig retiring allowAllVaultAcl) [createK]).keys["k"]? =
      some (.new .aes256Gcm96 false (List.replicate 32 0)) :=
    keys_created rfl hname ExtTreeMap.getElem?_empty
  generalize hstart : run step (withConfig retiring allowAllVaultAcl) [createK] = start
    at hcreated ⊢
  have hacl : start.acl = allowAllVaultAcl := hstart ▸ (run_config _ _).2
  obtain ⟨ct, hct⟩ : ∃ ct, buildCiphertext zeroDraws.nonce (List.replicate 32 0) none
      (List.replicate 32 0) 1 = .ok ct :=
    buildCiphertext_some 1 (by decide) (by rw [length_replicate]; decide)
  obtain ⟨b64, rfl, hparse, hopen⟩ :=
    built_short zeroDraws.length_nonce length_replicate (by decide) hct
  have hdata : start.answer dataKeyK =
      .ok [("ciphertext", .string (formatVaultCiphertext 1 b64))] := by
    rw [answer, dataKeyK, appCall, dispatch_named rfl (by rw [hacl]; rfl) hname]
    exact dataKey_of hcreated rfl rfl hct
  -- the second version
  have hrun : run step (withConfig retiring allowAllVaultAcl) [createK, dataKeyK, rotateK] =
      start.step rotateK := by
    have hsplit : run step (withConfig retiring allowAllVaultAcl) [createK, dataKeyK, rotateK] =
        ((run step (withConfig retiring allowAllVaultAcl) [createK]).step dataKeyK).step rotateK :=
      rfl
    rw [hsplit, hstart, dataKeyK, appCall, step_dataKey]
  have hrotated : (start.step rotateK).keys["k"]? =
      some ((MockKeyEntry.new .aes256Gcm96 false (List.replicate 32 0)).rotate
        (List.replicate 32 0)) :=
    keys_rotated (by rw [hacl]; rfl) hname hcreated
  obtain ⟨newCt, hnewCt⟩ : ∃ newCt, buildCiphertext zeroDraws.nonce (List.replicate 32 0) none
      (List.replicate 32 0) 2 = .ok newCt :=
    buildCiphertext_some 2 (by decide) (by rw [length_replicate]; decide)
  obtain ⟨newB64, rfl, _⟩ :=
    built_short zeroDraws.length_nonce length_replicate (by decide) hnewCt
  refine ⟨b64, newB64, hdata, hparse, ?_, by decide, by decide⟩
  have hacl' : (start.step rotateK).acl = allowAllVaultAcl :=
    (run_config start [rotateK]).2.trans hacl
  rw [hrun, answer, appCall, dispatch_named rfl (by rw [hacl']; rfl) hname]
  exact rewrap_of hrotated hparse rfl hopen rfl hnewCt

end Sample

end MockVaultBackend

end CratonHsm.Cloud
