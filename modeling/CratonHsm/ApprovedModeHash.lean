import CratonHsm.ApprovedModeWrapper

/-!
# The hash policy of approved mode

A configuration lists the hashes that may be used, each in one of two spellings: `SHA-256` and
`SHA2-256` both pass the validation.  The wrapper asks the classifier for the first one only, and
the classifier compares it with the list as it is written.  A digest mechanism that the wrapper
has no name for is passed on without asking, and an RSA call is asked about by the size of the key
and not by its hash.
-/

namespace CratonHsm.Certified
open PrefixFreeCode List

/-- The name under which the wrapper asks for a hash. -/
def HashAlg.name : HashAlg → List Char
  | .sha256 => "SHA-256".toList
  | .sha384 => "SHA-384".toList
  | .sha512 => "SHA-512".toList

/-- The spellings of a hash in `APPROVED_HASH_NAMES`. -/
def HashAlg.spellings : HashAlg → List (List Char)
  | .sha256 => ["SHA-256".toList, "SHA2-256".toList]
  | .sha384 => ["SHA-384".toList, "SHA2-384".toList]
  | .sha512 => ["SHA-512".toList, "SHA2-512".toList]

/-- The hash of a digest mechanism. -/
def digestAlg (mech : UInt64) : Option HashAlg :=
  if mech = 0x250 then some .sha256
  else if mech = 0x260 then some .sha384
  else if mech = 0x270 then some .sha512
  else none

theorem digestMechName_eq (mech : UInt64) :
    digestMechName mech = (digestAlg mech).map HashAlg.name := by
  unfold digestMechName digestAlg
  split_ifs <;> rfl

/-- The hash that an RSA signature call names, as it is or for a digest. -/
def BackendCall.rsaHash : BackendCall → Option HashAlg
  | .rsaPkcs1v15Sign _ _ hashAlg => hashAlg
  | .rsaPkcs1v15Verify _ _ _ _ hashAlg => hashAlg
  | .rsaPssSign _ _ hashAlg => some hashAlg
  | .rsaPssVerify _ _ _ _ hashAlg => some hashAlg
  | .rsaPkcs1v15SignPrehashed _ _ hashAlg => some hashAlg
  | .rsaPkcs1v15VerifyPrehashed _ _ _ _ hashAlg => some hashAlg
  | .rsaPssSignPrehashed _ _ hashAlg => some hashAlg
  | .rsaPssVerifyPrehashed _ _ _ _ hashAlg => some hashAlg
  | _ => none

/-- The call signs or verifies a digest. -/
def BackendCall.forDigest : BackendCall → Bool
  | .rsaPkcs1v15SignPrehashed .. | .rsaPkcs1v15VerifyPrehashed .. | .rsaPssSignPrehashed ..
  | .rsaPssVerifyPrehashed .. => true
  | _ => false

section Policy
variable {S R : Type} {config : ApprovedModeConfig}

theorem stripSuffix_hashName (alg : HashAlg) : stripSuffix "-PREHASHED".toList alg.name = none := by
  cases alg <;> decide

variable [CaseMapping]

/-- The configuration has an entry that reads as the given text in upper case. -/
def ListedAs (config : ApprovedModeConfig) (text : List Char) : Prop :=
  ∃ entry ∈ config.allowedHashAlgorithms, toUppercase entry.toList = text

/-- The configuration lists the hash under one of its spellings. -/
def Listed (config : ApprovedModeConfig) (alg : HashAlg) : Prop :=
  ∃ text ∈ alg.spellings, ListedAs config text

theorem toUppercase_hashName (alg : HashAlg) : toUppercase alg.name = alg.name := by
  have hupper : alg.name.all (fun c => c.toNat < 128 ∧ c.toUpper = c) = true := by
    cases alg <;> decide
  apply toUppercase_eq_self
  intro c hc
  obtain ⟨hascii, hsame⟩ := of_decide_eq_true (all_eq_true.mp hupper c hc)
  exact upperChar_of_ascii hascii hsame

/-- The classifier knows a hash name only through the list of the configuration. -/
theorem classifyMechanism_hashName (alg : HashAlg) (config : ApprovedModeConfig) :
    classifyMechanism alg.name config =
      if config.allowedHashAlgorithms.any (fun a => toUppercase a.toList = alg.name) = true
      then .hashApproved else .unknown := by
  have hsha1 : ¬ (alg.name = "SHA-1".toList ∨ alg.name = "SHA1".toList) := by
    cases alg <;> decide
  have hsha : ("SHA-".toList <+: alg.name ∨ "SHA2-".toList <+: alg.name) ∧
      containsWith alg.name = false := by
    cases alg <;> decide
  have hed : alg.name ≠ "ED25519".toList := by cases alg <;> decide
  have hrsa : stripPrefix "RSA-".toList alg.name = none := by cases alg <;> decide
  have haes : stripPrefix "AES-".toList alg.name = none := by cases alg <;> decide
  have hec : alg.name ≠ "ECDSA-P256".toList ∧ alg.name ≠ "ECDSA-P384".toList := by
    cases alg <;> decide
  rw [classifyMechanism_eq, toUppercase_hashName, stripSuffix_hashName]
  rw [classifyPlain, if_neg hsha1, hrsa, haes, Option.bind_none]
  by_cases hlisted :
      config.allowedHashAlgorithms.any (fun a => toUppercase a.toList = alg.name) = true
  · rw [if_pos ⟨hsha.1, hsha.2, hlisted⟩, if_pos hlisted]
  · rw [if_neg (fun h => hlisted h.2.2), if_neg hlisted, if_neg hed]
    rw [if_neg hec.1, if_neg hec.2]

theorem isAlgorithmApproved_hashName (alg : HashAlg) (config : ApprovedModeConfig) :
    isAlgorithmApproved alg.name config = true ↔ ListedAs config alg.name := by
  rw [isAlgorithmApproved, classifyMechanism_hashName]
  have hany : config.allowedHashAlgorithms.any (fun a => toUppercase a.toList = alg.name) = true ↔
      ListedAs config alg.name := by
    simp only [any_eq_true, decide_eq_true_eq, ListedAs]
  by_cases hlisted :
      config.allowedHashAlgorithms.any (fun a => toUppercase a.toList = alg.name) = true
  · rw [if_pos hlisted]
    exact iff_of_true rfl (hany.mp hlisted)
  · rw [if_neg hlisted]
    exact iff_of_false Bool.false_ne_true (fun h => hlisted (hany.mpr h))

/-- The name that the wrapper asks for is one of the spellings. -/
theorem Listed.of_name {alg : HashAlg} (h : ListedAs config alg.name) : Listed config alg := by
  refine ⟨alg.name, ?_, h⟩
  cases alg <;> exact mem_cons_self

theorem allowPrehashedSigning_of_validateConfig
    (h : validateConfig config = .ok ()) : config.allowPrehashedSigning = false := by
  have hnone : configViolations config = [] := by
    by_contra hsome
    rw [validateConfig, if_neg hsome] at h
    cases h
  simp only [configViolations, append_eq_nil_iff] at hnone
  by_contra hallowed
  rw [Bool.not_eq_false] at hallowed
  rw [if_pos hallowed] at hnone
  cases hnone.2

/-- RSA on a digest is classified as such, whatever the size. -/
theorem isAlgorithmApproved_rsaPrehashed :
    isAlgorithmApproved "RSA-2048-PREHASHED".toList config = config.allowPrehashedSigning := by
  have hname : "RSA-2048-PREHASHED".toList.all (fun c => c.toNat < 128 ∧ c.toUpper = c) = true := by
    decide
  have hupper : toUppercase "RSA-2048-PREHASHED".toList = "RSA-2048-PREHASHED".toList := by
    apply toUppercase_eq_self
    intro c hc
    obtain ⟨hascii, hsame⟩ := of_decide_eq_true (all_eq_true.mp hname c hc)
    exact upperChar_of_ascii hascii hsame
  have hstrip : stripSuffix "-PREHASHED".toList "RSA-2048-PREHASHED".toList =
      some (rsaName 2048) := by decide
  rw [isAlgorithmApproved, classifyMechanism_eq, hupper, hstrip]
  dsimp only
  rw [classifyMechanism_rsaName, if_pos (by decide)]

variable {inner : CryptoBackend S R} {config : ApprovedModeConfig} {c : BackendCall} {s : S}

/-- A call that the wrapper has no name for is passed on. -/
theorem reaches_of_unnamed (hname : c.mechanism = .ok none) : Reaches inner config c s := by
  unfold Reaches received ApprovedModeBackend.call
  rw [hname]
  rfl

/-- **What the wrapper does with a digest**: an unknown mechanism goes through, a known one if
the list has it in the first spelling. -/
theorem reaches_digest_iff {mech : UInt64} (hmech : c.mechanism = .ok (digestMechName mech)) :
    Reaches inner config c s ↔
      digestAlg mech = none ∨ ∃ alg, digestAlg mech = some alg ∧ ListedAs config alg.name := by
  rw [digestMechName_eq] at hmech
  rcases halg : digestAlg mech with _ | alg
  · rw [halg] at hmech
    exact iff_of_true (reaches_of_unnamed hmech) (.inl rfl)
  rw [halg] at hmech
  rw [reaches_iff hmech, isAlgorithmApproved_hashName]
  constructor
  · exact fun h => .inr ⟨alg, rfl, h⟩
  · rintro (hnone | ⟨alg', hsome, h⟩)
    · cases hnone
    · exact Option.some.inj hsome ▸ h

/-- **An RSA signature call** is let through under a policy with the least minimum, and only if it
is not for a digest; its hash is not looked at. -/
theorem reaches_rsa_iff (hvalid : validateConfig config = .ok ()) {alg : HashAlg}
    (hhash : c.rsaHash = some alg) :
    Reaches inner config c s ↔ config.minRsaKeyBits = 2048 ∧ c.forDigest = false := by
  have hplain : c.mechanism = .ok (some (rsaName 2048)) →
      (Reaches inner config c s ↔ config.minRsaKeyBits = 2048) := by
    intro hmech
    rw [reaches_iff hmech, isAlgorithmApproved_rsaName, ← UInt32.toNat_inj]
    have hlow := (minRsaKeyBits_of_validateConfig hvalid).1
    have hsize : (2048 : UInt32).toNat = 2048 := rfl
    omega
  have hdigest : c.mechanism = .ok (some "RSA-2048-PREHASHED".toList) →
      ¬ Reaches inner config c s := by
    intro hmech
    rw [reaches_iff hmech, isAlgorithmApproved_rsaPrehashed,
      allowPrehashedSigning_of_validateConfig hvalid]
    exact Bool.false_ne_true
  cases c with
  | rsaPkcs1v15Sign | rsaPkcs1v15Verify | rsaPssSign | rsaPssVerify =>
    exact (hplain rfl).trans (and_iff_left rfl).symm
  | rsaPkcs1v15SignPrehashed | rsaPkcs1v15VerifyPrehashed | rsaPssSignPrehashed
  | rsaPssVerifyPrehashed => exact iff_of_false (hdigest rfl) nofun
  | _ => cases hhash

/-- **The hash policy**, exactly: a digest follows it where its mechanism is known and its hash, if
listed, is listed in the spelling that the wrapper asks for; an RSA signature call where it is for a
digest, where the minimum is above 2048, or where its hash is listed. -/
theorem hash_policy_iff (config : ApprovedModeConfig) (hvalid : validateConfig config = .ok ())
    (inner : CryptoBackend S R) (s : S) :
    (∀ mech data,
      ((Reaches inner config (.computeDigest mech data) s ↔
          ∃ alg, digestAlg mech = some alg ∧ Listed config alg) ∧
        (Reaches inner config (.createHasher mech) s ↔
          ∃ alg, digestAlg mech = some alg ∧ Listed config alg)) ↔
      ∃ alg, digestAlg mech = some alg ∧ (Listed config alg → ListedAs config alg.name)) ∧
    ∀ c alg, BackendCall.rsaHash c = some alg →
      ((Reaches inner config c s → Listed config alg) ↔
        c.forDigest = true ∨ config.minRsaKeyBits ≠ 2048 ∨ Listed config alg) := by
  constructor
  · intro mech data
    rw [reaches_digest_iff rfl, reaches_digest_iff rfl, and_self_iff]
    rcases halg : digestAlg mech with _ | alg
    · simp
    · simp only [reduceCtorEq, Option.some.injEq, exists_eq_left', false_or]
      exact ⟨fun h => h.mpr, fun h => ⟨.of_name, h⟩⟩
  · intro c alg hhash
    rw [reaches_rsa_iff hvalid hhash]
    cases c.forDigest <;> simp [imp_iff_not_or]

end Policy

section Samples
attribute [local instance] plainCase

theorem listed_defaultFipsConfig (alg : HashAlg) : ListedAs defaultFipsConfig alg.name := by
  cases alg with
  | sha256 => exact ⟨"SHA-256", by decide, by decide⟩
  | sha384 => exact ⟨"SHA-384", by decide, by decide⟩
  | sha512 => exact ⟨"SHA-512", by decide, by decide⟩

theorem hash_policy_iff_default :
    Reaches acceptingBackend defaultFipsConfig (.computeDigest 0x250 [1]) () :=
  (((hash_policy_iff defaultFipsConfig (by decide) acceptingBackend ()).1 0x250 [1]).mpr
    ⟨.sha256, rfl, fun _ => listed_defaultFipsConfig .sha256⟩).1.mpr
    ⟨.sha256, rfl, .of_name (listed_defaultFipsConfig .sha256)⟩

/-- The default policy with one hash, in the second spelling. -/
def oneHashConfig : ApprovedModeConfig :=
  { defaultFipsConfig with allowedHashAlgorithms := ["SHA2-256"] }

/-- **The wrapper errs in both directions**: it refuses SHA-256 where the list has it as
`SHA2-256`, passes on SHA-1 (`CKM_SHA_1`), and signs with SHA-512 that is not listed. -/
theorem hash_gate_errs :
    validateConfig oneHashConfig = .ok () ∧
    Listed oneHashConfig .sha256 ∧
    ¬ Reaches acceptingBackend oneHashConfig (.computeDigest 0x250 [1]) () ∧
    digestAlg 0x220 = none ∧
    Reaches acceptingBackend oneHashConfig (.computeDigest 0x220 [1]) () ∧
    Reaches acceptingBackend oneHashConfig (.createHasher 0x220) () ∧
    ¬ Listed oneHashConfig .sha512 ∧
    Reaches acceptingBackend oneHashConfig (.rsaPssSign [1] [2] .sha512) () := by
  have hentry : ∀ text, ListedAs oneHashConfig text → text = "SHA2-256".toList := by
    rintro text ⟨entry, hentry, rfl⟩
    rw [mem_singleton.mp hentry]
    decide
  have hnone : digestAlg 0x220 = none := by decide
  refine ⟨by decide, ⟨"SHA2-256".toList, by decide, "SHA2-256", by decide, by decide⟩, ?_, hnone,
    (reaches_digest_iff rfl).mpr (.inl hnone), (reaches_digest_iff rfl).mpr (.inl hnone), ?_, ?_⟩
  · intro hreaches
    have happroved : isAlgorithmApproved (HashAlg.name .sha256) oneHashConfig = true :=
      (reaches_iff rfl).mp hreaches
    have hname := hentry _ ((isAlgorithmApproved_hashName _ _).mp happroved)
    revert hname
    decide
  · rintro ⟨text, htext, hlisted⟩
    rw [hentry text hlisted] at htext
    revert htext
    decide
  · have happroved : isAlgorithmApproved (rsaName 2048) oneHashConfig = true := by
      rw [isAlgorithmApproved_rsaName]
      decide
    exact (reaches_iff rfl).mpr happroved

end Samples

end CratonHsm.Certified
