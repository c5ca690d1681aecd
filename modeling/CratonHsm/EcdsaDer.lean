import CratonHsm.AuthError
import CratonHsm.PrefixFreeCode

/-!
# ECDSA signatures in DER

`craton-hsm-cng/src/lib.rs`: CNG signs into `r ‖ s` of fixed width, the backend hands out
`SEQUENCE { INTEGER r, INTEGER s }`, and reads one back for a verification.  The reader is strict
about the lengths around the two INTEGERs and about trailing bytes.  Inside an INTEGER it takes any
body: it strips zeros and pads to the width.  So what it accepts is what the writer gives exactly
when both bodies are minimal.
-/

namespace CratonHsm.Cng
open PrefixFreeCode CratonHsm.Auth List

/-! ## Writer -/

/-- The value without leading zeros; at least one byte is left. -/
def stripZeros (val : Bytes) : Bytes :=
  match val.dropWhile (· == 0) with
  | [] => [0]
  | b :: rest => b :: rest

/-- `stripped[0] & 0x80 != 0`. -/
def needsPad (stripped : Bytes) : Bool := stripped.headD 0 &&& 0x80 != 0

/-- The body of an INTEGER, from what is left after stripping. -/
def integerBody (stripped : Bytes) : Bytes :=
  if needsPad stripped then 0x00 :: stripped else stripped

/-- Tag, length and body of an INTEGER. -/
def integerTlv (body : Bytes) : Bytes := 0x02 :: UInt8.ofNat body.length :: body

/-- A DER INTEGER without leading zeros, behind a zero if its top bit is set. -/
def encodeInteger (val : Bytes) : Bytes := integerTlv (integerBody (stripZeros val))

/-- The two halves of a signature as a DER SEQUENCE. -/
def rawEcdsaToDer (raw : Bytes) : Except HsmError Bytes :=
  if raw.length % 2 ≠ 0 then .error .signatureInvalid
  else
    let half := raw.length / 2
    let rEnc := encodeInteger (raw.take half)
    let sEnc := encodeInteger (raw.drop half)
    let seqLen := rEnc.length + sEnc.length
    if seqLen < 128 then .ok ([0x30, UInt8.ofNat seqLen] ++ rEnc ++ sEnc)
    else if seqLen ≤ 0xFF then .ok ([0x30, 0x81, UInt8.ofNat seqLen] ++ rEnc ++ sEnc)
    else if seqLen ≤ 0xFFFF then
      .ok ([0x30, 0x82, UInt8.ofNat (seqLen >>> 8), UInt8.ofNat seqLen] ++ rEnc ++ sEnc)
    else .error .signatureInvalid

/-! ## Reader -/

/-- The body of a DER INTEGER and what follows it. -/
def parseInteger (data : Bytes) : Except HsmError (Bytes × Bytes) :=
  match data with
  | tag :: len :: rest =>
    if tag ≠ 0x02 then .error .signatureInvalid
    else if rest.length < len.toNat then .error .signatureInvalid
    else .ok (rest.take len.toNat, rest.drop len.toNat)
  | _ => .error .signatureInvalid

/-- The body without leading zeros, padded to the size. -/
def padToSize (val : Bytes) (size : Nat) : Except HsmError Bytes :=
  if (stripZeros val).length > size then .error .signatureInvalid
  else .ok (List.replicate (size - (stripZeros val).length) 0 ++ stripZeros val)

/-- The declared length of the SEQUENCE and where its contents start. -/
def sequenceHeader (der : Bytes) : Except HsmError (Nat × Nat) :=
  let b := der.getD 1 0
  if b &&& 0x80 = 0 then .ok (b.toNat, 2)
  else if b = 0x81 then
    if der.length < 3 then .error .signatureInvalid
    else if (der.getD 2 0).toNat < 128 then .error .signatureInvalid
    else .ok ((der.getD 2 0).toNat, 3)
  else .error .signatureInvalid

/-- The bodies of the two INTEGERs, before they are padded. -/
def derIntegers (der : Bytes) : Except HsmError (Bytes × Bytes) :=
  if der.length < 6 ∨ der.getD 0 0 ≠ 0x30 then .error .signatureInvalid
  else
    match sequenceHeader der with
    | .error e => .error e
    | .ok (seqLen, seqStart) =>
      if seqStart + seqLen ≠ der.length then .error .signatureInvalid
      else
        match parseInteger (der.drop seqStart) with
        | .error e => .error e
        | .ok (rBytes, rest) =>
          match parseInteger rest with
          | .error e => .error e
          | .ok (sBytes, tail) =>
            if tail ≠ [] then .error .signatureInvalid else .ok (rBytes, sBytes)

/-- The two INTEGERs of a DER SEQUENCE at full width. -/
def derEcdsaToRaw (der : Bytes) (curveSize : Nat) : Except HsmError Bytes :=
  match derIntegers der with
  | .error e => .error e
  | .ok (rBytes, sBytes) =>
    match padToSize rBytes curveSize with
    | .error e => .error e
    | .ok r =>
      match padToSize sBytes curveSize with
      | .error e => .error e
      | .ok s => .ok (r ++ s)

/-! ## Stripping and padding -/

theorem stripZeros_ne_nil (val : Bytes) : stripZeros val ≠ [] := by
  unfold stripZeros
  split <;> exact cons_ne_nil _ _

@[simp] theorem stripZeros_zero_cons (val : Bytes) : stripZeros (0 :: val) = stripZeros val := by
  unfold stripZeros
  rw [dropWhile_cons_of_pos (by rfl)]

theorem stripZeros_cons_of_ne {b : UInt8} (hb : b ≠ 0) (rest : Bytes) :
    stripZeros (b :: rest) = b :: rest := by
  unfold stripZeros
  rw [dropWhile_cons_of_neg (by simpa using hb)]

theorem stripZeros_replicate_append (val : Bytes) (n : Nat) :
    stripZeros (List.replicate n 0 ++ val) = stripZeros val := by
  induction n with
  | zero => rfl
  | succ n ih => rw [replicate_succ, cons_append, stripZeros_zero_cons, ih]

variable {val body der raw : Bytes} {size : Nat}

/-- A value is its stripped form behind some zeros. -/
theorem eq_replicate_append_stripZeros (h : val ≠ []) :
    ∃ n, val = List.replicate n 0 ++ stripZeros val := by
  induction val with
  | nil => exact absurd rfl h
  | cons b rest ih =>
    by_cases hb : b = 0
    · subst hb
      by_cases hrest : rest = []
      · subst hrest
        exact ⟨0, rfl⟩
      · obtain ⟨n, hn⟩ := ih hrest
        refine ⟨n + 1, ?_⟩
        rw [stripZeros_zero_cons, replicate_succ, cons_append, ← hn]
    · exact ⟨0, by rw [stripZeros_cons_of_ne hb, replicate_zero, nil_append]⟩

theorem stripZeros_idem (val : Bytes) : stripZeros (stripZeros val) = stripZeros val := by
  by_cases h : val = []
  · subst h
    rfl
  obtain ⟨n, hn⟩ := eq_replicate_append_stripZeros h
  have hstrip := stripZeros_replicate_append (stripZeros val) n
  rw [← hn] at hstrip
  exact hstrip.symm

theorem stripZeros_integerBody (val : Bytes) :
    stripZeros (integerBody (stripZeros val)) = stripZeros val := by
  unfold integerBody
  split
  · rw [stripZeros_zero_cons, stripZeros_idem]
  · exact stripZeros_idem val

theorem length_stripZeros_le (h : val ≠ []) : (stripZeros val).length ≤ val.length := by
  obtain ⟨n, hn⟩ := eq_replicate_append_stripZeros h
  have hlength := congrArg List.length hn
  rw [length_append] at hlength
  omega

theorem length_integerBody_le (stripped : Bytes) :
    (integerBody stripped).length ≤ stripped.length + 1 := by
  unfold integerBody
  split
  · exact Nat.le_refl _
  · exact Nat.le_succ _

theorem integerBody_ne_nil (val : Bytes) : integerBody (stripZeros val) ≠ [] := by
  unfold integerBody
  split
  · exact cons_ne_nil _ _
  · exact stripZeros_ne_nil val

/-- Padding undoes stripping for a value of the full width. -/
theorem padToSize_of_stripZeros (hval : val ≠ []) (hsame : stripZeros body = stripZeros val) :
    padToSize body val.length = .ok val := by
  obtain ⟨n, hn⟩ := eq_replicate_append_stripZeros hval
  have hlength := congrArg List.length hn
  rw [length_append, length_replicate] at hlength
  rw [padToSize, hsame, if_neg (by omega)]
  have hzeros : val.length - (stripZeros val).length = n := by omega
  rw [hzeros, ← hn]

/-- What padding returns has the full width and the same stripped form. -/
theorem padToSize_ok (h : padToSize body size = .ok val) :
    val.length = size ∧ stripZeros val = stripZeros body ∧ (stripZeros body).length ≤ size := by
  unfold padToSize at h
  split at h
  · cases h
  next hsize =>
  obtain rfl := Except.ok.inj h
  refine ⟨?_, ?_, by omega⟩
  · rw [length_append, length_replicate]
    omega
  · rw [stripZeros_replicate_append, stripZeros_idem]

/-! ## Minimal bodies -/

/-- The body of an INTEGER in DER, not negative: there is a byte, the first one has its high bit
clear, and it is zero only where the next one needs it. -/
def MinimalInteger : Bytes → Prop
  | [] => False
  | [b] => b &&& 0x80 = 0
  | b :: c :: _ => b &&& 0x80 = 0 ∧ (b = 0 → c &&& 0x80 ≠ 0)

/-- The writer's bodies are the minimal ones. -/
theorem minimalInteger_iff : MinimalInteger body ↔ body = integerBody (stripZeros body) := by
  match body with
  | [] => exact iff_of_false id (integerBody_ne_nil []).symm
  | [b] =>
    by_cases hb : b = 0
    · subst hb
      exact iff_of_true (show (0 : UInt8) &&& 0x80 = 0 by decide) (by decide)
    rw [stripZeros_cons_of_ne hb]
    by_cases hhigh : b &&& 0x80 = 0 <;> simp [MinimalInteger, integerBody, needsPad, hhigh]
  | b :: c :: rest =>
    by_cases hb : b = 0
    · subst hb
      rw [stripZeros_zero_cons]
      by_cases hhigh : c &&& 0x80 = 0
      · -- the zero is redundant: the stripped form is not longer than `c :: rest`
        refine iff_of_false (fun h => h.2 rfl hhigh) fun heq => ?_
        by_cases hpad : needsPad (stripZeros (c :: rest)) = true
        · rw [integerBody, if_pos hpad] at heq
          have hfirst : c :: rest = stripZeros (c :: rest) := tail_eq_of_cons_eq heq
          rw [← hfirst, needsPad, headD_cons, hhigh] at hpad
          cases hpad
        · rw [integerBody, if_neg hpad] at heq
          have hle := length_stripZeros_le (cons_ne_nil c rest)
          have hlength := congrArg List.length heq
          rw [length_cons] at hlength
          omega
      · have hc : c ≠ 0 := fun h => hhigh (by rw [h]; decide)
        rw [stripZeros_cons_of_ne hc]
        refine iff_of_true ⟨by decide, fun _ => hhigh⟩ ?_
        simp [integerBody, needsPad, hhigh]
    · rw [stripZeros_cons_of_ne hb]
      by_cases hhigh : b &&& 0x80 = 0
      · simp [MinimalInteger, integerBody, needsPad, hhigh, hb]
      · simp [MinimalInteger, integerBody, needsPad, hhigh]

/-! ## Reading what was written -/

theorem parseInteger_tlv (h : body.length < 256) (rest : Bytes) :
    parseInteger (integerTlv body ++ rest) = .ok (body, rest) := by
  have hlen : (UInt8.ofNat body.length).toNat = body.length := UInt8.toNat_ofNat_of_lt' h
  rw [integerTlv, cons_append, cons_append, parseInteger, if_neg (by decide), hlen,
    if_neg (by rw [length_append]; omega), take_left, drop_left]

theorem parseInteger_ok {data rest : Bytes} (h : parseInteger data = .ok (body, rest)) :
    data = integerTlv body ++ rest ∧ body.length < 256 := by
  unfold parseInteger at h
  split at h
  · next tag len tail =>
    split at h
    · cases h
    next htag =>
    split at h
    · cases h
    next hlen =>
    obtain ⟨rfl, rfl⟩ := Prod.mk.inj (Except.ok.inj h)
    have hlength : (tail.take len.toNat).length = len.toNat := by
      rw [length_take]
      omega
    have hbound := len.toNat_lt
    refine ⟨?_, by omega⟩
    rw [integerTlv, hlength, UInt8.ofNat_toNat, Decidable.not_not.mp htag, cons_append,
      cons_append, take_append_drop]
  · cases h

/-- A SEQUENCE in the short form. -/
def shortDer (rBody sBody : Bytes) : Bytes :=
  [0x30, UInt8.ofNat (integerTlv rBody ++ integerTlv sBody).length] ++ integerTlv rBody ++
    integerTlv sBody

theorem lowByte_high (n : Nat) (h : n < 128) : UInt8.ofNat n &&& 0x80 = 0 := by
  have hall : ∀ n : Fin 128, UInt8.ofNat n.val &&& 0x80 = 0 := by decide
  exact hall ⟨n, h⟩

theorem length_integerTlv (body : Bytes) : (integerTlv body).length = body.length + 2 := rfl

theorem derIntegers_shortDer {rBody sBody : Bytes} (hr : rBody ≠ []) (hs : sBody ≠ [])
    (hlen : rBody.length + sBody.length + 4 < 128) :
    derIntegers (shortDer rBody sBody) = .ok (rBody, sBody) := by
  have hrpos := length_pos_iff.mpr hr
  have hspos := length_pos_iff.mpr hs
  have hseq : (integerTlv rBody ++ integerTlv sBody).length = rBody.length + sBody.length + 4 := by
    rw [length_append, length_integerTlv, length_integerTlv]
    omega
  have hshort : shortDer rBody sBody = 0x30 :: UInt8.ofNat (rBody.length + sBody.length + 4) ::
      (integerTlv rBody ++ integerTlv sBody) := by
    rw [shortDer, hseq, append_assoc]
    rfl
  have hlength : (shortDer rBody sBody).length = rBody.length + sBody.length + 6 := by
    rw [hshort, length_cons, length_cons, hseq]
  have hhead : sequenceHeader (shortDer rBody sBody) =
      .ok (rBody.length + sBody.length + 4, 2) := by
    have hnat : (UInt8.ofNat (rBody.length + sBody.length + 4)).toNat =
        rBody.length + sBody.length + 4 :=
      UInt8.toNat_ofNat_of_lt' (show _ < 256 by omega)
    rw [sequenceHeader, hshort]
    rw [getD_cons_succ, getD_cons_zero, if_pos (lowByte_high _ hlen), hnat]
  have hshape : ¬ ((shortDer rBody sBody).length < 6 ∨ (shortDer rBody sBody).getD 0 0 ≠ 0x30) := by
    rw [hlength, hshort, getD_cons_zero, not_or]
    exact ⟨by omega, fun h => h rfl⟩
  rw [derIntegers, if_neg hshape, hhead]
  dsimp only
  rw [if_neg (by omega), hshort, drop_succ_cons, drop_succ_cons, drop_zero,
    parseInteger_tlv (by omega)]
  dsimp only
  have hlast := parseInteger_tlv (show sBody.length < 256 by omega) []
  rw [append_nil] at hlast
  rw [hlast]
  dsimp only
  rw [if_neg (fun h => h rfl)]

/-- **Inversion of the reader**: the two bodies, and a header for their length. -/
theorem derIntegers_ok {rBody sBody : Bytes} (h : derIntegers der = .ok (rBody, sBody)) :
    rBody.length + sBody.length + 4 < 128 → der = shortDer rBody sBody := by
  intro hsmall
  unfold derIntegers at h
  split at h
  · cases h
  next hshape =>
  rw [not_or, Decidable.not_not] at hshape
  split at h
  · cases h
  next seqLen seqStart hheader =>
  split at h
  · cases h
  next htotal =>
  split at h
  · cases h
  next rBytes rest hr =>
  split at h
  · cases h
  next sBytes tail hs =>
  split at h
  · cases h
  next htail =>
  rw [Decidable.not_not] at htail
  obtain ⟨rfl, rfl⟩ := Prod.mk.inj (Except.ok.inj h)
  subst htail
  have hdata : der.drop seqStart = integerTlv rBytes ++ integerTlv sBytes := by
    rw [(parseInteger_ok hr).1, (parseInteger_ok hs).1, append_nil]
  have hseq : (integerTlv rBytes ++ integerTlv sBytes).length = seqLen := by
    rw [← hdata, length_drop]
    omega
  have hseqLen : seqLen = rBytes.length + sBytes.length + 4 := by
    rw [← hseq, length_append, length_integerTlv, length_integerTlv]
    omega
  -- the long form is for 128 bytes and more
  unfold sequenceHeader at hheader
  dsimp only at hheader
  split at hheader
  · obtain ⟨hfirst, rfl⟩ := Prod.mk.inj (Except.ok.inj hheader)
    match der with
    | [] | [_] => exact absurd hshape.1 (by simp)
    | a :: b :: rest =>
      rw [getD_cons_zero] at hshape
      rw [shortDer, hseq, ← hfirst, UInt8.ofNat_toNat, hshape.2, append_assoc, ← hdata]
      rfl
  · split at hheader
    · split at hheader
      · cases hheader
      split at hheader
      · cases hheader
      next hlong =>
      obtain ⟨hfirst, _⟩ := Prod.mk.inj (Except.ok.inj hheader)
      omega
    · cases hheader

/-! ## The two directions -/

/-- What the writer gives for two halves of the width of a curve. -/
theorem rawEcdsaToDer_halves {r s : Bytes} (hsame : r.length = s.length)
    (hlen : r.length ≤ 60) (hr : r ≠ []) (hs : s ≠ []) :
    rawEcdsaToDer (r ++ s) =
      .ok (shortDer (integerBody (stripZeros r)) (integerBody (stripZeros s))) := by
  have hhalf : (r ++ s).length / 2 = r.length := by
    rw [length_append]
    omega
  have hrBody := length_integerBody_le (stripZeros r)
  have hsBody := length_integerBody_le (stripZeros s)
  have hrStrip := length_stripZeros_le hr
  have hsStrip := length_stripZeros_le hs
  have hseq : (encodeInteger r).length + (encodeInteger s).length < 128 := by
    rw [encodeInteger, encodeInteger, length_integerTlv, length_integerTlv]
    omega
  rw [rawEcdsaToDer, if_neg (by rw [length_append]; omega)]
  dsimp only
  rw [hhalf, take_left, drop_left, if_pos hseq, shortDer, length_append]
  rfl

theorem derEcdsaToRaw_rawEcdsaToDer (hpos : 0 < size) (hsize : size ≤ 56)
    (hraw : raw.length = 2 * size) :
    ∃ der, rawEcdsaToDer raw = .ok der ∧ derEcdsaToRaw der size = .ok raw := by
  obtain ⟨r, s, rfl, hr, hs⟩ : ∃ r s, raw = r ++ s ∧ r.length = size ∧ s.length = size :=
    ⟨raw.take size, raw.drop size, (take_append_drop _ _).symm,
      by rw [length_take]; omega, by rw [length_drop]; omega⟩
  have hrne : r ≠ [] := ne_nil_of_length_pos (by omega)
  have hsne : s ≠ [] := ne_nil_of_length_pos (by omega)
  have hrBody := length_integerBody_le (stripZeros r)
  have hsBody := length_integerBody_le (stripZeros s)
  have hrStrip := length_stripZeros_le hrne
  have hsStrip := length_stripZeros_le hsne
  have hrPad := padToSize_of_stripZeros hrne (stripZeros_integerBody r)
  have hsPad := padToSize_of_stripZeros hsne (stripZeros_integerBody s)
  rw [hr] at hrPad
  rw [hs] at hsPad
  refine ⟨_, rawEcdsaToDer_halves (hr.trans hs.symm) (by omega) hrne hsne, ?_⟩
  rw [derEcdsaToRaw, derIntegers_shortDer (integerBody_ne_nil r) (integerBody_ne_nil s) (by omega)]
  dsimp only
  rw [hrPad]
  rw [hsPad]

/-- The bodies that the reader takes out of an accepted signature, and the halves it returns. -/
theorem derEcdsaToRaw_ok (h : derEcdsaToRaw der size = .ok raw) :
    ∃ rBody sBody r s, derIntegers der = .ok (rBody, sBody) ∧ padToSize rBody size = .ok r ∧
      padToSize sBody size = .ok s ∧ raw = r ++ s := by
  unfold derEcdsaToRaw at h
  split at h
  · cases h
  next rBody sBody hbodies =>
  split at h
  · cases h
  next r hr =>
  split at h
  · cases h
  next s hs =>
  exact ⟨rBody, sBody, r, s, hbodies, hr, hs, (Except.ok.inj h).symm⟩

/-- The INTEGERs of the signature have minimal bodies. -/
def MinimalIntegers (der : Bytes) : Prop :=
  ∀ rBody sBody, derIntegers der = .ok (rBody, sBody) →
    MinimalInteger rBody ∧ MinimalInteger sBody

/-- **An accepted signature is the one that the writer gives for its value** exactly when its
INTEGERs are minimal. -/
theorem rawEcdsaToDer_eq_iff (hpos : 0 < size) (hsize : size ≤ 56)
    (h : derEcdsaToRaw der size = .ok raw) :
    rawEcdsaToDer raw = .ok der ↔ MinimalIntegers der := by
  obtain ⟨rBody, sBody, r, s, hbodies, hr, hs, rfl⟩ := derEcdsaToRaw_ok h
  obtain ⟨hrLength, hrStrip, hrSize⟩ := padToSize_ok hr
  obtain ⟨hsLength, hsStrip, hsSize⟩ := padToSize_ok hs
  have hrne : r ≠ [] := ne_nil_of_length_pos (by omega)
  have hsne : s ≠ [] := ne_nil_of_length_pos (by omega)
  have hrBody := length_integerBody_le (stripZeros rBody)
  have hsBody := length_integerBody_le (stripZeros sBody)
  have hwritten := rawEcdsaToDer_halves (hrLength.trans hsLength.symm) (by omega) hrne hsne
  rw [hrStrip, hsStrip] at hwritten
  constructor
  · intro hsame rBody' sBody' hbodies'
    obtain ⟨rfl, rfl⟩ := Prod.mk.inj (Except.ok.inj (hbodies.symm.trans hbodies'))
    rw [hwritten] at hsame
    have hread := derIntegers_shortDer (integerBody_ne_nil rBody) (integerBody_ne_nil sBody)
      (by omega)
    rw [Except.ok.inj hsame, hbodies] at hread
    obtain ⟨hrSame, hsSame⟩ := Prod.mk.inj (Except.ok.inj hread)
    exact ⟨minimalInteger_iff.mpr hrSame, minimalInteger_iff.mpr hsSame⟩
  · intro hminimal
    obtain ⟨hrMin, hsMin⟩ := hminimal rBody sBody hbodies
    rw [minimalInteger_iff] at hrMin hsMin
    have hder := derIntegers_ok hbodies (by rw [hrMin, hsMin]; omega)
    rw [hwritten, ← hrMin, ← hsMin, ← hder]

/-- **Signatures of P-256 and P-384**: the round trip, and an accepted encoding is the one that is
written for its value exactly if its INTEGERs are minimal. -/
theorem ecdsa_der_of_minimal (size : Nat) (hsize : size = 32 ∨ size = 48) :
    (∀ raw : Bytes, raw.length = 2 * size →
      ∃ der, rawEcdsaToDer raw = .ok der ∧ derEcdsaToRaw der size = .ok raw) ∧
    ∀ der raw : Bytes, derEcdsaToRaw der size = .ok raw →
      (rawEcdsaToDer raw = .ok der ↔ MinimalIntegers der) := by
  have hpos : 0 < size := by omega
  have hsmall : size ≤ 56 := by omega
  constructor
  · intro raw hraw
    exact derEcdsaToRaw_rawEcdsaToDer hpos hsmall hraw
  · intro der raw h
    exact rawEcdsaToDer_eq_iff hpos hsmall h

/-- `r = 1` with a redundant zero, and `s` with an empty body. -/
def malleatedDer : Bytes := [0x30, 0x06, 0x02, 0x02, 0x00, 0x01, 0x02, 0x00]

/-- `r = 1` and `s = 0`. -/
def smallRaw : Bytes := List.replicate 31 0 ++ [1] ++ List.replicate 32 0

theorem ecdsa_der_of_minimal_p256 :
    (∃ der, rawEcdsaToDer (List.replicate 64 0x81) = .ok der ∧
      derEcdsaToRaw der 32 = .ok (List.replicate 64 0x81)) ∧ ¬ MinimalIntegers malleatedDer :=
  ⟨(ecdsa_der_of_minimal 32 (.inl rfl)).1 (List.replicate 64 0x81) (by decide),
    ((ecdsa_der_of_minimal 32 (.inl rfl)).2 malleatedDer smallRaw (by decide)).not.mp (by decide)⟩

/-- **Two accepted encodings of one value.** -/
theorem ecdsa_der_malleable :
    derEcdsaToRaw malleatedDer 32 = .ok smallRaw ∧
    rawEcdsaToDer smallRaw = .ok [0x30, 0x06, 0x02, 0x01, 0x01, 0x02, 0x01, 0x00] ∧
    derEcdsaToRaw [0x30, 0x06, 0x02, 0x01, 0x01, 0x02, 0x01, 0x00] 32 = .ok smallRaw ∧
    rawEcdsaToDer smallRaw ≠ .ok malleatedDer := by
  refine ⟨by decide, by decide, by decide, by decide⟩

end CratonHsm.Cng
