import CratonHsm.DecimalText

/-!
# The policy of approved mode

`approved_mode.rs`: the configuration, its validation, and the classifier of mechanism names that
the policy is applied through.  A name is taken to upper case, a trailing `-PREHASHED` is taken
off, and what is left is compared with the names of the algorithms; `RSA-` is followed by the size
of the modulus in decimal.
-/

namespace CratonHsm.Certified
open List

/-- What `char::to_uppercase` does outside ASCII.  A character of the result is in upper case. -/
class CaseMapping where
  upper : Char → List Char
  upper_upper : ∀ c, ¬ c.toNat < 128 → ∀ d ∈ upper c,
    (if d.toNat < 128 then [d.toUpper] else upper d) = [d]

theorem ascii_toUpper : ∀ n : Fin 128, (Char.ofNat n.val).toUpper.toNat < 128 ∧
    (Char.ofNat n.val).toUpper.toUpper = (Char.ofNat n.val).toUpper := by
  decide

section Uppercase
variable [CaseMapping]

/-- The upper case of a letter. -/
def upperChar (c : Char) : List Char :=
  if c.toNat < 128 then [c.toUpper] else CaseMapping.upper c

/-- `str::to_uppercase`. -/
def toUppercase (text : List Char) : List Char := text.flatMap upperChar

theorem upperChar_of_ascii {c : Char} (hascii : c.toNat < 128) (hupper : c.toUpper = c) :
    upperChar c = [c] := by
  rw [upperChar, if_pos hascii, hupper]

theorem toUppercase_eq_self {text : List Char} (h : ∀ c ∈ text, upperChar c = [c]) :
    toUppercase text = text := by
  induction text with
  | nil => rfl
  | cons c text ih =>
    have hrest := ih fun d hd => h d (mem_cons_of_mem _ hd)
    rw [toUppercase] at hrest ⊢
    rw [flatMap_cons, h c mem_cons_self, hrest, singleton_append]

theorem upperChar_of_mem {text : List Char} {d : Char} (h : d ∈ toUppercase text) :
    upperChar d = [d] := by
  obtain ⟨c, _, hd⟩ := mem_flatMap.mp h
  by_cases hascii : c.toNat < 128
  · rw [upperChar, if_pos hascii, mem_singleton] at hd
    subst hd
    have hupper := ascii_toUpper ⟨c.toNat, hascii⟩
    rw [Char.ofNat_toNat] at hupper
    exact upperChar_of_ascii hupper.1 hupper.2
  · rw [upperChar, if_neg hascii] at hd
    exact CaseMapping.upper_upper c hascii d hd

end Uppercase

/-- `strip_suffix`. -/
def stripSuffix (suffix text : List Char) : Option (List Char) :=
  if suffix <:+ text then some (text.take (text.length - suffix.length)) else none

theorem stripSuffix_some {suffix text stripped : List Char}
    (h : stripSuffix suffix text = some stripped) : stripped <+: text ∧
      stripped.length + suffix.length = text.length := by
  rw [stripSuffix] at h
  split at h
  · next hsuffix =>
    obtain rfl := Option.some.inj h
    refine ⟨List.take_prefix _ _, ?_⟩
    have hle := hsuffix.length_le
    rw [length_take]
    omega
  · cases h

/-- `strip_prefix`. -/
def stripPrefix (start text : List Char) : Option (List Char) :=
  if start <+: text then some (text.drop start.length) else none

/-! ## Configuration -/

/-- What the policy allows in approved mode. -/
structure ApprovedModeConfig where
  minRsaKeyBits : UInt32
  allowedHashAlgorithms : List String
  allowedSymmetricKeySizes : List Nat
  allowSha1 : Bool
  allowEd25519 : Bool
  allowPrehashedSigning : Bool
  allowEcdsaP256 : Bool := true
  allowEcdsaP384 : Bool := true

/-- The configuration of FIPS 140-3 mode. -/
def defaultFipsConfig : ApprovedModeConfig where
  minRsaKeyBits := 2048
  allowedHashAlgorithms := ["SHA-256", "SHA-384", "SHA-512"]
  allowedSymmetricKeySizes := [24, 32]
  allowSha1 := false
  allowEd25519 := false
  allowPrehashedSigning := false

/-- The names under which a hash is approved. -/
def approvedHashNames : List String :=
  ["SHA-256", "SHA-384", "SHA-512", "SHA2-256", "SHA2-384", "SHA2-512"]

def maxReasonableRsaBits : UInt32 := 16384

/-- The violations that `validate_config` reports, each standing for its text. -/
inductive ConfigViolation where
  | rsaBelowMinimum (bits : UInt32)
  | rsaAboveBound (bits : UInt32)
  | sha1
  | ed25519
  | noHash
  | hashNotApproved (name : String)
  | noSymmetricKeySize
  | aes128
  | prehashedSigning
  deriving DecidableEq

section Classifier

/-- `format!("RSA-{bits}")`. -/
def rsaName (bits : Nat) : List Char := "RSA-".toList ++ Nat.toDigits 10 bits

/-- The name ends in a digit. -/
theorem stripSuffix_rsaName (bits : Nat) :
    stripSuffix "-PREHASHED".toList (rsaName bits) = none := by
  rw [stripSuffix, if_neg]
  intro hsuffix
  have hlast := hsuffix.getLast (by decide)
  have hdigits : (Nat.toDigits 10 bits).getLast Nat.toDigits_ne_nil = 'D' := by
    have happend : (rsaName bits).getLast (by simp [rsaName]) =
        (Nat.toDigits 10 bits).getLast Nat.toDigits_ne_nil :=
      getLast_append_of_ne_nil _ Nat.toDigits_ne_nil
    rw [← happend]
    exact hlast.symm
  have hdigit := DecimalText.range_of_mem_toDigits
    (hdigits ▸ getLast_mem (Nat.toDigits_ne_nil (n := bits) (b := 10)))
  revert hdigit
  decide

variable [CaseMapping] {c : ApprovedModeConfig}

/-- What is wrong with a configuration. -/
def configViolations (c : ApprovedModeConfig) : List ConfigViolation :=
  (if c.minRsaKeyBits < 2048 then [ConfigViolation.rsaBelowMinimum c.minRsaKeyBits] else []) ++
  (if c.minRsaKeyBits > maxReasonableRsaBits then
    [ConfigViolation.rsaAboveBound c.minRsaKeyBits] else []) ++
  (if c.allowSha1 then [ConfigViolation.sha1] else []) ++
  (if c.allowEd25519 then [ConfigViolation.ed25519] else []) ++
  (if c.allowedHashAlgorithms.isEmpty then [ConfigViolation.noHash] else []) ++
  ((c.allowedHashAlgorithms.filter fun name =>
    !approvedHashNames.any fun a => a.toList = toUppercase name.toList).map
      ConfigViolation.hashNotApproved) ++
  (if c.allowedSymmetricKeySizes.isEmpty then [ConfigViolation.noSymmetricKeySize] else []) ++
  (if c.allowedSymmetricKeySizes.contains 16 then [ConfigViolation.aes128] else []) ++
  (if c.allowPrehashedSigning then [ConfigViolation.prehashedSigning] else [])

/-- A configuration is accepted if nothing is wrong with it. -/
def validateConfig (c : ApprovedModeConfig) : Except (List ConfigViolation) Unit :=
  if configViolations c = [] then .ok () else .error (configViolations c)

theorem minRsaKeyBits_of_validateConfig (h : validateConfig c = .ok ()) :
    2048 ≤ c.minRsaKeyBits.toNat ∧ c.minRsaKeyBits.toNat ≤ 16384 := by
  have hnone : configViolations c = [] := by
    by_contra hsome
    rw [validateConfig, if_neg hsome] at h
    cases h
  simp only [configViolations, append_eq_nil_iff] at hnone
  obtain ⟨⟨⟨⟨⟨⟨⟨⟨hlow, hhigh⟩, _⟩, _⟩, _⟩, _⟩, _⟩, _⟩, _⟩ := hnone
  constructor
  · by_contra hless
    have hbound : (2048 : UInt32).toNat = 2048 := rfl
    rw [if_pos (UInt32.lt_iff_toNat_lt.mpr (by omega))] at hlow
    cases hlow
  · by_contra hmore
    have hbound : maxReasonableRsaBits.toNat = 16384 := rfl
    rw [if_pos (UInt32.lt_iff_toNat_lt.mpr (by omega))] at hhigh
    cases hhigh

/-! ## The classifier -/

/-- A mechanism name, parsed. -/
inductive Mechanism where
  | sha1
  | hashApproved
  | aes (bytes : Nat)
  | rsa (bits : Nat)
  | ecdsaP256
  | ecdsaP384
  | ed25519
  | prehashed
  | unknown
  deriving DecidableEq

/-- `m.contains("WITH")`. -/
def containsWith (m : List Char) : Bool := m.tails.any fun t => "WITH".toList.isPrefixOf t

/-- The comparisons of `classify_mechanism`, for a text in upper case without the suffix. -/
def classifyPlain (c : ApprovedModeConfig) (m : List Char) : Mechanism :=
  if m = "SHA-1".toList ∨ m = "SHA1".toList then .sha1
  else if ("SHA-".toList <+: m ∨ "SHA2-".toList <+: m) ∧ containsWith m = false ∧
      c.allowedHashAlgorithms.any (fun a => toUppercase a.toList = m) = true then .hashApproved
  else if m = "ED25519".toList then .ed25519
  else
    match (stripPrefix "RSA-".toList m).bind (DecimalText.parseText (2 ^ 32)) with
    | some bits => .rsa bits
    | none =>
      match stripPrefix "AES-".toList m with
      | some rest =>
        if rest = "128".toList then .aes 16
        else if rest = "192".toList then .aes 24
        else if rest = "256".toList then .aes 32
        else .unknown
      | none =>
        if m = "ECDSA-P256".toList then .ecdsaP256
        else if m = "ECDSA-P384".toList then .ecdsaP384
        else .unknown

/-- The rounds of `classify_mechanism` on a text in upper case; each takes off one suffix. -/
def classifyUpper (c : ApprovedModeConfig) : Nat → List Char → Mechanism
  | 0, _ => .unknown
  | rounds + 1, m =>
    match stripSuffix "-PREHASHED".toList m with
    | some stripped =>
      match classifyUpper c rounds stripped with
      | .unknown => .unknown
      | _ => .prehashed
    | none => classifyPlain c m

/-- Which mechanism a name stands for. -/
def classifyMechanism (mechanism : List Char) (c : ApprovedModeConfig) : Mechanism :=
  classifyUpper c ((toUppercase mechanism).length + 1) (toUppercase mechanism)

/-- More rounds than characters change nothing. -/
theorem classifyUpper_rounds (c : ApprovedModeConfig) {rounds rounds' : Nat} {m : List Char}
    (h : m.length < rounds) (h' : m.length < rounds') :
    classifyUpper c rounds m = classifyUpper c rounds' m := by
  induction rounds generalizing rounds' m with
  | zero => omega
  | succ rounds ih =>
    obtain ⟨rounds', rfl⟩ : ∃ k, rounds' = k + 1 := ⟨rounds' - 1, by omega⟩
    rw [classifyUpper, classifyUpper]
    rcases hstrip : stripSuffix "-PREHASHED".toList m with _ | stripped
    · rfl
    have hlength := (stripSuffix_some hstrip).2
    have hten : "-PREHASHED".toList.length = 10 := rfl
    have hsame : classifyUpper c rounds stripped = classifyUpper c rounds' stripped :=
      ih (by omega) (by omega)
    dsimp only
    rw [hsame]

/-- **The recursion of the source.**  The text without the suffix is in upper case already. -/
theorem classifyMechanism_eq (mechanism : List Char) (c : ApprovedModeConfig) :
    classifyMechanism mechanism c =
      match stripSuffix "-PREHASHED".toList (toUppercase mechanism) with
      | some stripped =>
        match classifyMechanism stripped c with
        | .unknown => .unknown
        | _ => .prehashed
      | none => classifyPlain c (toUppercase mechanism) := by
  rw [classifyMechanism, classifyUpper]
  rcases hstrip : stripSuffix "-PREHASHED".toList (toUppercase mechanism) with _ | stripped
  · rfl
  obtain ⟨hbegins, hlength⟩ := stripSuffix_some hstrip
  have hten : "-PREHASHED".toList.length = 10 := rfl
  have hupper : toUppercase stripped = stripped :=
    toUppercase_eq_self fun d hd => upperChar_of_mem (hbegins.subset hd)
  have hrounds : classifyUpper c (toUppercase mechanism).length stripped =
      classifyMechanism stripped c := by
    rw [classifyMechanism, hupper]
    exact classifyUpper_rounds c (by omega) (by omega)
  dsimp only
  rw [hrounds]

/-- Whether the policy approves of a mechanism name. -/
def isAlgorithmApproved (mechanism : List Char) (c : ApprovedModeConfig) : Bool :=
  match classifyMechanism mechanism c with
  | .sha1 => c.allowSha1
  | .hashApproved => true
  | .aes bytes => c.allowedSymmetricKeySizes.contains bytes
  | .rsa bits => c.minRsaKeyBits.toNat ≤ bits
  | .ecdsaP256 => c.allowEcdsaP256
  | .ecdsaP384 => c.allowEcdsaP384
  | .ed25519 => c.allowEd25519
  | .prehashed => c.allowPrehashedSigning
  | .unknown => false

/-- Why a mechanism is turned away. -/
inductive ApprovedModeRejection where
  | notApproved (mechanism : List Char)
  | unknownAlgorithm (mechanism : List Char)
  deriving DecidableEq

/-- The same, with the reason for a refusal. -/
def checkMechanismApproved (mechanism : List Char) (c : ApprovedModeConfig) :
    Except ApprovedModeRejection Unit :=
  match classifyMechanism mechanism c with
  | .unknown => .error (.unknownAlgorithm mechanism)
  | _ => if isAlgorithmApproved mechanism c then .ok () else .error (.notApproved mechanism)

theorem checkMechanismApproved_ok_iff {mechanism : List Char} :
    checkMechanismApproved mechanism c = .ok () ↔ isAlgorithmApproved mechanism c = true := by
  unfold checkMechanismApproved
  cases hclass : classifyMechanism mechanism c with
  | unknown => simp [isAlgorithmApproved, hclass]
  | _ =>
    by_cases happroved : isAlgorithmApproved mechanism c = true <;> simp [happroved]

/-! ## Prehashed names -/

section Prehashed
variable {c : ApprovedModeConfig} {m : List Char}

/-- A suffix, in any letter case, hides what it follows. -/
theorem classifyMechanism_append {suffix : List Char}
    (h : toUppercase suffix = "-PREHASHED".toList) :
    classifyMechanism (m ++ suffix) c =
      if classifyMechanism m c = .unknown then .unknown else .prehashed := by
  have hupper : toUppercase (m ++ suffix) = toUppercase m ++ "-PREHASHED".toList := by
    rw [toUppercase, flatMap_append, ← toUppercase, ← toUppercase, h]
  have hstrip : stripSuffix "-PREHASHED".toList (toUppercase m ++ "-PREHASHED".toList) =
      some (toUppercase m) := by
    rw [stripSuffix, if_pos (suffix_append _ _), length_append, Nat.add_sub_cancel, take_left]
  have hagain : classifyMechanism (toUppercase m) c = classifyMechanism m c := by
    rw [classifyMechanism, toUppercase_eq_self fun d => upperChar_of_mem, ← classifyMechanism]
  rw [classifyMechanism_eq, hupper, hstrip, ← hagain]
  dsimp only
  cases classifyMechanism (toUppercase m) c <;> rfl

theorem classifyMechanism_suffixes {suffixes : List (List Char)} (hsome : suffixes ≠ [])
    (h : ∀ suffix ∈ suffixes, toUppercase suffix = "-PREHASHED".toList) :
    classifyMechanism (m ++ suffixes.flatten) c =
      if classifyMechanism m c = .unknown then .unknown else .prehashed := by
  induction suffixes generalizing m with
  | nil => exact absurd rfl hsome
  | cons suffix rest ih =>
    have hfirst := classifyMechanism_append (c := c) (m := m) (h suffix mem_cons_self)
    rw [flatten_cons, ← append_assoc]
    by_cases hrest : rest = []
    · rw [hrest, flatten_nil, append_nil, hfirst]
    rw [ih hrest fun s hs => h s (mem_cons_of_mem _ hs), hfirst]
    by_cases hunknown : classifyMechanism m c = .unknown <;> simp [hunknown]

/-- An approved name with `-PREHASHED` suffixes stands for an approved name. -/
def PrehashNarrows (c : ApprovedModeConfig) (m : List Char) : Prop :=
  ∀ suffixes : List (List Char), suffixes ≠ [] →
    (∀ suffix ∈ suffixes, toUppercase suffix = "-PREHASHED".toList) →
    checkMechanismApproved (m ++ suffixes.flatten) c = .ok () →
    checkMechanismApproved m c = .ok () ∧ c.allowPrehashedSigning = true

/-- What the policy says of a mechanism that the classifier knows. -/
def ApprovedModeConfig.allows (c : ApprovedModeConfig) : Mechanism → Bool
  | .sha1 => c.allowSha1
  | .hashApproved => true
  | .aes bytes => c.allowedSymmetricKeySizes.contains bytes
  | .rsa bits => c.minRsaKeyBits.toNat ≤ bits
  | .ecdsaP256 => c.allowEcdsaP256
  | .ecdsaP384 => c.allowEcdsaP384
  | .ed25519 => c.allowEd25519
  | .prehashed => c.allowPrehashedSigning
  | .unknown => false

theorem isAlgorithmApproved_eq (m : List Char) (c : ApprovedModeConfig) :
    isAlgorithmApproved m c = c.allows (classifyMechanism m c) := by
  rw [isAlgorithmApproved]
  cases classifyMechanism m c <;> rfl

/-- A name in upper case, without the suffix, of an algorithm that the configuration does not
allow. -/
def ApprovedModeConfig.Excludes (c : ApprovedModeConfig) (name : List Char) : Prop :=
  ¬ "-PREHASHED".toList <:+ name ∧
  ((name = "SHA-1".toList ∨ name = "SHA1".toList) ∧ c.allowSha1 = false ∨
    name = "ED25519".toList ∧ c.allowEd25519 = false ∨
    (∃ bits, (stripPrefix "RSA-".toList name).bind (DecimalText.parseText (2 ^ 32)) = some bits ∧
      bits < c.minRsaKeyBits.toNat) ∨
    name = "AES-128".toList ∧ 16 ∉ c.allowedSymmetricKeySizes ∨
    name = "AES-192".toList ∧ 24 ∉ c.allowedSymmetricKeySizes ∨
    name = "AES-256".toList ∧ 32 ∉ c.allowedSymmetricKeySizes ∨
    name = "ECDSA-P256".toList ∧ c.allowEcdsaP256 = false ∨
    name = "ECDSA-P384".toList ∧ c.allowEcdsaP384 = false)

/-- The names that the classifier knows and the policy refuses. -/
theorem classifyPlain_refused_iff (h : ¬ "-PREHASHED".toList <:+ m) :
    classifyPlain c m ≠ .unknown ∧ c.allows (classifyPlain c m) = false ↔ c.Excludes m := by
  rw [ApprovedModeConfig.Excludes, and_iff_right h, classifyPlain]
  split
  next hsha1 => rcases hsha1 with rfl | rfl <;> simp [ApprovedModeConfig.allows, stripPrefix]
  next hsha1 =>
  split
  next hhash =>
    obtain ⟨hstart, -, -⟩ := hhash
    rcases hstart with ⟨rest, rfl⟩ | ⟨rest, rfl⟩ <;>
      simp_all [ApprovedModeConfig.allows, stripPrefix]
  next hhash =>
  split
  next hed =>
    subst hed
    simp [ApprovedModeConfig.allows, stripPrefix]
  next hed =>
  split
  next bits hbits =>
    obtain ⟨rest, hrest, -⟩ := Option.bind_eq_some_iff.mp hbits
    have hname : "RSA-".toList <+: m := by
      by_contra hno
      rw [stripPrefix, if_neg hno] at hrest
      cases hrest
    obtain ⟨rest', rfl⟩ := hname
    simp_all [ApprovedModeConfig.allows]
  next hrsa =>
    rw [hrsa]
    clear hrsa
    split
    next rest hrest =>
      have hname : "AES-".toList ++ rest = m := by
        rw [stripPrefix] at hrest
        split at hrest
        next hprefix =>
          obtain ⟨rest', rfl⟩ := hprefix
          rw [drop_left] at hrest
          rw [Option.some.inj hrest]
        · cases hrest
      subst hname
      split_ifs with h128 h192 h256 <;> simp_all [ApprovedModeConfig.allows, stripPrefix]
    next haes =>
      have hno : ∀ rest, m ≠ "AES-".toList ++ rest := by
        rintro rest rfl
        rw [stripPrefix, if_pos (prefix_append _ _)] at haes
        cases haes
      have h128 : m ≠ "AES-128".toList := hno "128".toList
      have h192 : m ≠ "AES-192".toList := hno "192".toList
      have h256 : m ≠ "AES-256".toList := hno "256".toList
      split_ifs with h256' h384 <;> simp_all [ApprovedModeConfig.allows]

/-- What a policy with prehashed signing refuses, of the names that it knows. -/
theorem refused_iff (hallowed : c.allowPrehashedSigning = true) :
    classifyMechanism m c ≠ .unknown ∧ ¬ checkMechanismApproved m c = .ok () ↔
      c.Excludes (toUppercase m) := by
  rw [checkMechanismApproved_ok_iff, isAlgorithmApproved_eq, Bool.not_eq_true,
    classifyMechanism_eq]
  by_cases hsuffix : "-PREHASHED".toList <:+ toUppercase m
  · rw [stripSuffix, if_pos hsuffix]
    refine iff_of_false ?_ fun h => h.1 hsuffix
    dsimp only
    cases classifyMechanism _ c <;> simp [ApprovedModeConfig.allows, hallowed]
  · rw [stripSuffix, if_neg hsuffix]
    exact classifyPlain_refused_iff hsuffix

theorem toUppercase_prehashed : toUppercase "-PREHASHED".toList = "-PREHASHED".toList := by
  have hname : "-PREHASHED".toList.all (fun d => d.toNat < 128 ∧ d.toUpper = d) = true := by decide
  apply toUppercase_eq_self
  intro d hd
  obtain ⟨hascii, hupper⟩ := of_decide_eq_true (all_eq_true.mp hname d hd)
  exact upperChar_of_ascii hascii hupper

/-- **A prehashed name is approved only if the name is**, exactly where prehashed signing is off or
the name is not one of an algorithm that the configuration excludes. -/
theorem prehashNarrows_iff (c : ApprovedModeConfig) (m : List Char) :
    PrehashNarrows c m ↔ (c.allowPrehashedSigning = true → ¬ c.Excludes (toUppercase m)) := by
  constructor
  · intro hnarrows hallowed hexcludes
    obtain ⟨hknown, hrefused⟩ := (refused_iff hallowed).mpr hexcludes
    have hsuffixes : ∀ suffix ∈ ["-PREHASHED".toList],
        toUppercase suffix = "-PREHASHED".toList := by
      intro suffix hsuffix
      rw [mem_singleton.mp hsuffix, toUppercase_prehashed]
    refine hrefused (hnarrows ["-PREHASHED".toList] (cons_ne_nil _ _) hsuffixes ?_).1
    rw [checkMechanismApproved_ok_iff, isAlgorithmApproved_eq,
      classifyMechanism_suffixes (cons_ne_nil _ _) hsuffixes, if_neg hknown]
    exact hallowed
  · intro h suffixes hsome hsuffixes hok
    rw [checkMechanismApproved_ok_iff, isAlgorithmApproved_eq,
      classifyMechanism_suffixes hsome hsuffixes] at hok
    by_cases hunknown : classifyMechanism m c = .unknown
    · rw [if_pos hunknown] at hok
      cases hok
    rw [if_neg hunknown] at hok
    refine ⟨?_, hok⟩
    by_contra hrefused
    exact h hok ((refused_iff hok).mp ⟨hunknown, hrefused⟩)

end Prehashed

/-! ## RSA by the size of the modulus -/

theorem toUppercase_rsaName (bits : Nat) : toUppercase (rsaName bits) = rsaName bits := by
  have hname : "RSA-".toList.all (fun c => c.toNat < 128 ∧ c.toUpper = c) = true := by decide
  apply toUppercase_eq_self
  intro c hc
  rcases mem_append.mp hc with hc | hc
  · obtain ⟨hascii, hupper⟩ := of_decide_eq_true (all_eq_true.mp hname c hc)
    exact upperChar_of_ascii hascii hupper
  have hlast : c.val.toNat ≤ 57 := (DecimalText.range_of_mem_toDigits hc).2
  have hlower : ¬ ('a'.val ≤ c.val ∧ c.val ≤ 'z'.val) := by
    rintro ⟨ha, _⟩
    have hfirst : 97 ≤ c.val.toNat := UInt32.le_iff_toNat_le.mp ha
    omega
  refine upperChar_of_ascii ?_ (dif_neg hlower)
  have hnat : c.toNat = c.val.toNat := rfl
  omega

theorem classifyMechanism_rsaName (bits : Nat) (c : ApprovedModeConfig) :
    classifyMechanism (rsaName bits) c = if bits < 2 ^ 32 then .rsa bits else .unknown := by
  have hname : rsaName bits = 'R' :: 'S' :: 'A' :: '-' :: Nat.toDigits 10 bits := rfl
  have hrsa : stripPrefix "RSA-".toList (rsaName bits) = some (Nat.toDigits 10 bits) :=
    if_pos (prefix_append _ _)
  have haes : stripPrefix "AES-".toList (rsaName bits) = none := by
    rw [stripPrefix, if_neg]
    simp [hname]
  rw [classifyMechanism_eq, toUppercase_rsaName, stripSuffix_rsaName]
  rw [classifyPlain, hrsa, haes, Option.bind_some, DecimalText.parseText_toDigits,
    if_neg (by simp [hname]), if_neg (by simp [hname]), if_neg (by simp [hname])]
  by_cases hbits : bits < 2 ^ 32
  · rw [if_pos hbits, if_pos hbits]
  · rw [if_neg hbits, if_neg hbits]
    rw [if_neg (by simp [hname]), if_neg (by simp [hname])]

theorem isAlgorithmApproved_rsaName (bits : Nat) (c : ApprovedModeConfig) :
    isAlgorithmApproved (rsaName bits) c = true ↔ c.minRsaKeyBits.toNat ≤ bits ∧ bits < 2 ^ 32 := by
  rw [isAlgorithmApproved, classifyMechanism_rsaName]
  by_cases hbits : bits < 2 ^ 32
  · rw [if_pos hbits, and_iff_left hbits]
    simp
  · rw [if_neg hbits]
    exact iff_of_false nofun fun h => hbits h.2

end Classifier

section Sample

/-- No character outside ASCII is changed. -/
@[reducible] def plainCase : CaseMapping where
  upper c := [c]
  upper_upper c hc d hd := by
    rw [mem_singleton.mp hd, if_neg hc]

/-- A policy with prehashed signing that does not allow SHA-1. -/
def prehashPolicy : ApprovedModeConfig := { defaultFipsConfig with allowPrehashedSigning := true }

attribute [local instance] plainCase

theorem prehashNarrows_aes256 : PrehashNarrows prehashPolicy "AES-256".toList := by
  refine (prehashNarrows_iff _ _).mpr fun _ => ?_
  have hupper : toUppercase "AES-256".toList = "AES-256".toList := by decide +kernel
  rw [hupper, ApprovedModeConfig.Excludes]
  simp [stripPrefix, prehashPolicy, defaultFipsConfig]

/-- `SHA-1-prehashed` is approved, and `SHA-1` is not. -/
theorem sha1_prehashed_approved : ¬ PrehashNarrows prehashPolicy "SHA-1".toList := by
  intro h
  have hsha1 := (h ["-prehashed".toList] (by simp) (by decide +kernel) (by decide +kernel)).1
  revert hsha1
  decide +kernel

end Sample

end CratonHsm.Certified
