import CratonHsm.ByteFields
import CratonHsm.CertIntegrity
import CratonHsm.JsonText

/-!
# Signed binaries

`binary_sign.rs`: a footer behind a binary, with metadata in JSON, the lengths of both parts and an
HMAC over everything before it.  The writer goes forward; the reader starts at the end and takes
every length from what is in front of it.  The metadata is compared with its canonical form, so the
reader leaves no freedom in any byte.  What it adds is a bound on the length of the metadata, which
the writer does not know.
-/

namespace CratonHsm.Certified
open PrefixFreeCode AsciiText List JsonText

/-! ## Metadata -/

/-- The metadata appended to a signed binary. -/
structure BinaryMetadata where
  moduleVersion : String
  buildTimestamp : String
  gitCommit : String
  hmacKeyId : String
  integrityTag : String
  deriving DecidableEq

/-- The keys of the metadata in the order in which they are signed. -/
def canonicalKeys : List String :=
  ["build_timestamp", "git_commit", "hmac_key_id", "integrity_tag", "module_version"]

/-- The value of a field by its name. -/
def BinaryMetadata.field (m : BinaryMetadata) (key : String) : String :=
  if key = "build_timestamp" then m.buildTimestamp
  else if key = "git_commit" then m.gitCommit
  else if key = "hmac_key_id" then m.hmacKeyId
  else if key = "integrity_tag" then m.integrityTag
  else m.moduleVersion

/-- `serde_json::from_slice` for the metadata. -/
class SerdeJson where
  fromSlice : Bytes → Option BinaryMetadata

/-- It reads JSON as RFC 8259 has it: an object with the five fields, each once and a string, is
read as these strings. -/
class SerdeJson.Rfc8259 [SerdeJson] : Prop where
  fromSlice_object : ∀ (text : List Char) (members : List (List Char × JsonText.Json))
    (m : BinaryMetadata), JsonText.parse text = some (.object members) →
    (members.map Prod.fst).Nodup →
    (∀ key ∈ canonicalKeys, (key.toList, .string (m.field key).toList) ∈ members) →
    SerdeJson.fromSlice (utf8 text) = some m

/-- `json_encode_string`; the escapes are those of `JsonText.escape`. -/
def jsonEncodeString (s : String) : List Char := JsonText.stringText s.toList

/-- One field: the name needs no escapes. -/
def metaMember (key value : String) : List Char :=
  '"' :: key.toList ++ '"' :: ':' :: jsonEncodeString value

/-- The field values of the canonical form, in which the tag is empty. -/
def canonicalValue (m : BinaryMetadata) (key : String) : String :=
  if key = "integrity_tag" then "" else m.field key

/-- The metadata as the text that is signed. -/
def canonicalMetaText (m : BinaryMetadata) : List Char :=
  '\x7b' :: [','].intercalate
    (canonicalKeys.map fun key => metaMember key (canonicalValue m key)) ++ ['\x7d']

def canonicalMetaJson (m : BinaryMetadata) : Bytes := utf8 (canonicalMetaText m)

/-! ## Writer -/

/-- `b"RHSMSIGN"`. -/
def footerMagic : Bytes := [0x52, 0x48, 0x53, 0x4d, 0x53, 0x49, 0x47, 0x4e]

def footerVersion : UInt8 := 1

def tagLen : Nat := 32

def fixedFooterOverhead : Nat := footerMagic.length + 1 + 8 + 4 + tagLen

def maxMetaLen : Nat := 2 ^ 20

/-- What the HMAC is computed over. -/
def envelopeParts (binary metaJson : Bytes) : List Bytes :=
  [binary, footerMagic, [footerVersion], littleEndian 8 binary.length, metaJson,
    littleEndian 4 metaJson.length]

/-- The metadata before there is a tag. -/
def stub (moduleVersion buildTimestamp gitCommit hmacKeyId : String) : BinaryMetadata where
  moduleVersion := moduleVersion
  buildTimestamp := buildTimestamp
  gitCommit := gitCommit
  hmacKeyId := hmacKeyId
  integrityTag := ""

/-- The tag over the binary and its metadata. -/
def signBinary (binary key : Bytes)
    (moduleVersion buildTimestamp gitCommit hmacKeyId : String) : Except CertError BinaryMetadata :=
  let stub := stub moduleVersion buildTimestamp gitCommit hmacKeyId
  match computeHmacSha256Parts key (envelopeParts binary (canonicalMetaJson stub)) with
  | .error e => .error e
  | .ok tag => .ok { stub with integrityTag := hexEncode tag }

/-- A tag from its hexadecimal text. -/
def hexDecodeTag (hex : String) : Except CertError Bytes :=
  let bytes := utf8 hex.toList
  if bytes.length ≠ tagLen * 2 then .error (.badEnvelope "integrity_tag must be 32 bytes")
  else
    match decodeHexBytes bytes with
    | none => .error (.badEnvelope "integrity_tag contains non-hex byte")
    | some tag => .ok tag

/-- The binary with the metadata and the tag behind it. -/
def embedMetadata (binary : Bytes) (m : BinaryMetadata) : Except CertError Bytes :=
  match hexDecodeTag m.integrityTag with
  | .error e => .error e
  | .ok tag => .ok ((envelopeParts binary (canonicalMetaJson m)).flatten ++ tag)

/-- Both in one. -/
def signAndEmbed (binary key : Bytes)
    (moduleVersion buildTimestamp gitCommit hmacKeyId : String) : Except CertError Bytes :=
  match signBinary binary key moduleVersion buildTimestamp gitCommit hmacKeyId with
  | .error e => .error e
  | .ok m => embedMetadata binary m

/-! ## Reader -/

/-- The parts that `parse_envelope` finds. -/
structure ParsedEnvelope where
  original : Bytes
  magic : Bytes
  version : UInt8
  originalLenBytes : Bytes
  metaJson : Bytes
  metaLenBytes : Bytes
  tag : Bytes
  metadata : BinaryMetadata

/-- `usize::MAX` of a 64-bit target. -/
def usizeMax : Nat := 2 ^ 64 - 1

section Reader
variable [SerdeJson]

/-- The parts of a signed binary, from its end. -/
def parseEnvelope (signed : Bytes) : Except CertError ParsedEnvelope :=
  if signed.length < fixedFooterOverhead then
    .error (.badEnvelope "binary too short to contain envelope")
  else
    let tagStart := signed.length - tagLen
    let metaLenOff := tagStart - 4
    let metaLenBytes := slice signed metaLenOff tagStart
    let metaLen := ofLittleEndian metaLenBytes
    if maxMetaLen < metaLen then .error (.badEnvelope "metadata length exceeds 1 MiB cap")
    else if metaLenOff < metaLen then .error (.badEnvelope "metadata length exceeds envelope")
    else
      let metaJsonOff := metaLenOff - metaLen
      let metaJson := slice signed metaJsonOff metaLenOff
      if metaJsonOff < 8 then .error (.badEnvelope "envelope truncated before original_len")
      else
        let origLenOff := metaJsonOff - 8
        let origLenBytes := slice signed origLenOff metaJsonOff
        let originalLen := ofLittleEndian origLenBytes
        if usizeMax < originalLen then
          .error (.badEnvelope "declared original length exceeds platform usize range")
        else if origLenOff < 1 then .error (.badEnvelope "envelope truncated before version")
        else
          let versionOff := origLenOff - 1
          let version := signed.getD versionOff 0
          if version ≠ footerVersion then .error (.badEnvelope "unsupported envelope version")
          else if versionOff < footerMagic.length then
            .error (.badEnvelope "envelope truncated before magic")
          else
            let magicOff := versionOff - footerMagic.length
            let magic := slice signed magicOff versionOff
            if magic ≠ footerMagic then .error (.badEnvelope "footer magic bytes not found")
            else if originalLen ≠ magicOff then
              .error (.badEnvelope "declared original length does not match envelope offset")
            else
              match SerdeJson.fromSlice metaJson with
              | none => .error .json
              | some metadata =>
                let tag := signed.drop tagStart
                .ok { original := signed.take magicOff, magic := magic, version := version,
                      originalLenBytes := origLenBytes, metaJson := metaJson,
                      metaLenBytes := metaLenBytes, tag := tag,
                      metadata := { metadata with integrityTag := hexEncode tag } }

/-- The metadata of a signed binary. -/
def extractMetadata (signed : Bytes) : Except CertError BinaryMetadata :=
  (parseEnvelope signed).map ParsedEnvelope.metadata

/-- The binary without its footer. -/
def extractOriginalBinary (signed : Bytes) : Except CertError Bytes :=
  (parseEnvelope signed).map ParsedEnvelope.original

/-- The tag is computed again and compared. -/
def verifySignedBinary (signed key : Bytes) : Except CertError Unit :=
  match parseEnvelope signed with
  | .error e => .error e
  | .ok env =>
    if canonicalMetaJson env.metadata ≠ env.metaJson then
      .error (.badEnvelope "metadata JSON is not canonical")
    else
      verifyHmacSha256Parts key [env.original, env.magic, [env.version], env.originalLenBytes,
        env.metaJson, env.metaLenBytes] env.tag

/-- Both in one. -/
def verifyAndExtract (signed key : Bytes) : Except CertError BinaryMetadata :=
  match verifySignedBinary signed key with
  | .error e => .error e
  | .ok () => extractMetadata signed

end Reader

/-! ## The canonical form -/

theorem field_integrityTag (m : BinaryMetadata) (tag : String) {key : String}
    (hkey : key ≠ "integrity_tag") :
    ({ m with integrityTag := tag } : BinaryMetadata).field key = m.field key := by
  simp only [BinaryMetadata.field, if_neg hkey]

/-- The canonical form does not see the tag. -/
theorem canonicalMetaJson_integrityTag (m : BinaryMetadata) (tag : String) :
    canonicalMetaJson { m with integrityTag := tag } = canonicalMetaJson m := by
  have hfield : ∀ key,
      canonicalValue { m with integrityTag := tag } key = canonicalValue m key := by
    intro key
    by_cases hkey : key = "integrity_tag"
    · rw [canonicalValue, canonicalValue, if_pos hkey, if_pos hkey]
    · rw [canonicalValue, canonicalValue, if_neg hkey, if_neg hkey, field_integrityTag m tag hkey]
  simp only [canonicalMetaJson, canonicalMetaText, hfield]

/-- **The canonical form is read back**, with an empty tag. -/
theorem fromSlice_canonicalMetaJson [SerdeJson] [SerdeJson.Rfc8259] (m : BinaryMetadata) :
    SerdeJson.fromSlice (canonicalMetaJson m) = some { m with integrityTag := "" } := by
  have hparse := parse_objectText
    (canonicalKeys.map fun key => (key.toList, (canonicalValue m key).toList))
    (cons_ne_nil _ _)
  refine SerdeJson.Rfc8259.fromSlice_object _ _ _ hparse ?_ ?_
  · rw [map_map, map_map]
    have hnodup : (canonicalKeys.map String.toList).Nodup := by decide
    exact hnodup
  intro key hkey
  have hvalue : ({ m with integrityTag := "" } : BinaryMetadata).field key =
      canonicalValue m key := by
    by_cases htag : key = "integrity_tag"
    · subst htag
      rfl
    · rw [canonicalValue, if_neg htag, field_integrityTag m "" htag]
  rw [hvalue, map_map]
  exact mem_map.mpr ⟨key, hkey, rfl⟩

/-! ## The layout -/

/-- The bytes of an envelope. -/
def envelope (binary metaJson tag : Bytes) : Bytes := (envelopeParts binary metaJson).flatten ++ tag

theorem envelope_eq (binary metaJson tag : Bytes) : envelope binary metaJson tag =
    binary ++ (footerMagic ++ ([footerVersion] ++ (littleEndian 8 binary.length ++
      (metaJson ++ (littleEndian 4 metaJson.length ++ tag))))) := by
  simp only [envelope, envelopeParts, flatten_cons, flatten_nil, append_nil,
    append_assoc]

theorem length_envelope (binary metaJson : Bytes) {tag : Bytes} (htag : tag.length = tagLen) :
    (envelope binary metaJson tag).length = binary.length + metaJson.length + 53 := by
  have hmagic : footerMagic.length = 8 := rfl
  have hlen : tagLen = 32 := rfl
  rw [envelope_eq]
  simp only [length_append, littleEndian_length, length_singleton]
  omega

/-- Where the parts of an envelope are. -/
structure EnvelopeAt (signed binary metaJson tag : Bytes) : Prop where
  original : signed.take binary.length = binary
  magic : slice signed binary.length (binary.length + 8) = footerMagic
  version : signed.getD (binary.length + 8) 0 = footerVersion
  originalLen : slice signed (binary.length + 9) (binary.length + 17) =
    littleEndian 8 binary.length
  json : slice signed (binary.length + 17) (binary.length + 17 + metaJson.length) = metaJson
  jsonLen : slice signed (binary.length + 17 + metaJson.length)
    (binary.length + 17 + metaJson.length + 4) = littleEndian 4 metaJson.length
  mac : signed.drop (binary.length + 17 + metaJson.length + 4) = tag

theorem envelopeAt_envelope (binary metaJson tag : Bytes) :
    EnvelopeAt (envelope binary metaJson tag) binary metaJson tag := by
  have hmagic : footerMagic.length = 8 := rfl
  have hhead : (binary ++ footerMagic).length = binary.length + 8 := by
    rw [length_append, hmagic]
  have hver : (binary ++ footerMagic ++ [footerVersion]).length = binary.length + 9 := by
    rw [length_append, hhead, length_singleton]
  have hassoc : envelope binary metaJson tag = binary ++ footerMagic ++ [footerVersion] ++
      littleEndian 8 binary.length ++ (metaJson ++ (littleEndian 4 metaJson.length ++ tag)) := by
    rw [envelope_eq]
    simp only [append_assoc]
  constructor
  · rw [envelope_eq, take_left]
  · exact slice_of_eq (by rw [envelope_eq, append_assoc]) rfl (by rw [hmagic])
  · rw [envelope_eq, ← append_assoc, ← hhead, getD_eq_getElem?_getD,
      getElem?_append_right (Nat.le_refl _), Nat.sub_self]
    rfl
  · exact slice_of_eq hassoc hver.symm (by rw [hver, littleEndian_length])
  -- the other parts are behind the length of the binary
  all_goals
    have hlen : (binary ++ footerMagic ++ [footerVersion] ++
        littleEndian 8 binary.length).length = binary.length + 17 := by
      rw [length_append, hver, littleEndian_length]
    rw [hassoc]
    generalize binary ++ footerMagic ++ [footerVersion] ++ littleEndian 8 binary.length = head
      at hlen
    rw [← hlen, ← append_assoc]
  · exact slice_of_eq rfl rfl rfl
  · rw [← append_assoc, ← length_append]
    exact slice_of_eq rfl rfl (by rw [littleEndian_length])
  · rw [← append_assoc, ← length_append]
    exact drop_left' (by rw [length_append, littleEndian_length])

section Reader
variable [SerdeJson]

/-- The reader's answer on an envelope whose metadata length is in the bounds. -/
theorem parseEnvelope_envelope {binary metaJson tag : Bytes} (htag : tag.length = tagLen)
    (hbinary : binary.length < 2 ^ 64) (hmeta : metaJson.length ≤ maxMetaLen) :
    parseEnvelope (envelope binary metaJson tag) =
      match SerdeJson.fromSlice metaJson with
      | none => .error .json
      | some metadata => .ok {
          original := binary, magic := footerMagic, version := footerVersion,
          originalLenBytes := littleEndian 8 binary.length, metaJson := metaJson,
          metaLenBytes := littleEndian 4 metaJson.length, tag := tag,
          metadata := { metadata with integrityTag := hexEncode tag } } := by
  have hmagicLen : footerMagic.length = 8 := rfl
  have htagLen : tagLen = 32 := rfl
  have hmax : maxMetaLen = 2 ^ 20 := rfl
  have hlength := length_envelope binary metaJson htag
  obtain ⟨horiginal, hmagic, hversion, horigLen, hjson, hmetaLen, htail⟩ :=
    envelopeAt_envelope binary metaJson tag
  generalize envelope binary metaJson tag = signed at *
  have htagStart : signed.length - tagLen = binary.length + 17 + metaJson.length + 4 := by omega
  have hmetaLenOff : binary.length + 17 + metaJson.length + 4 - 4 =
      binary.length + 17 + metaJson.length := by omega
  have hmetaOff : binary.length + 17 + metaJson.length - metaJson.length =
      binary.length + 17 := by omega
  have horigOff : binary.length + 17 - 8 = binary.length + 9 := by omega
  have hversionOff : binary.length + 9 - 1 = binary.length + 8 := by omega
  have hmagicOff : binary.length + 8 - footerMagic.length = binary.length := by omega
  have hmetaRead : ofLittleEndian (littleEndian 4 metaJson.length) = metaJson.length :=
    ofLittleEndian_littleEndian (by omega)
  have horigRead : ofLittleEndian (littleEndian 8 binary.length) = binary.length :=
    ofLittleEndian_littleEndian (by omega)
  have husize : usizeMax = 2 ^ 64 - 1 := rfl
  have hover : fixedFooterOverhead = 53 := rfl
  rw [parseEnvelope, if_neg (by omega)]
  dsimp only
  rw [htagStart, hmetaLenOff, hmetaLen, hmetaRead, if_neg (by omega), if_neg (by omega), hmetaOff,
    hjson, if_neg (by omega), horigOff, horigLen, horigRead, if_neg (by omega), if_neg (by omega),
    hversionOff, hversion, if_neg (fun h => h rfl), if_neg (by omega), hmagicOff, hmagic,
    if_neg (fun h => h rfl), if_neg (fun h => h rfl), horiginal, htail]

/-- A longer metadata text is refused. -/
theorem parseEnvelope_long (binary : Bytes) {metaJson tag : Bytes} (htag : tag.length = tagLen)
    (hlong : maxMetaLen < metaJson.length) (hmeta : metaJson.length < 2 ^ 32) :
    parseEnvelope (envelope binary metaJson tag) =
      .error (.badEnvelope "metadata length exceeds 1 MiB cap") := by
  have htagLen : tagLen = 32 := rfl
  have hover : fixedFooterOverhead = 53 := rfl
  have hlength := length_envelope binary metaJson htag
  obtain ⟨_, _, _, _, _, hmetaLen, _⟩ := envelopeAt_envelope binary metaJson tag
  generalize envelope binary metaJson tag = signed at *
  have htagStart : signed.length - tagLen = binary.length + 17 + metaJson.length + 4 := by omega
  have hmetaLenOff : binary.length + 17 + metaJson.length + 4 - 4 =
      binary.length + 17 + metaJson.length := by omega
  have hmetaRead : ofLittleEndian (littleEndian 4 metaJson.length) = metaJson.length :=
    ofLittleEndian_littleEndian (by omega)
  rw [parseEnvelope, if_neg (by omega)]
  dsimp only
  rw [htagStart, hmetaLenOff, hmetaLen, hmetaRead, if_pos hlong]

theorem length_metaJson_le {signed : Bytes} {env : ParsedEnvelope}
    (h : parseEnvelope signed = .ok env) : env.metaJson.length ≤ maxMetaLen := by
  simp only [parseEnvelope, ite_eq_iff, reduceCtorEq, and_false, false_or] at h
  obtain ⟨-, hcap, -, -, -, -, -, -, -, -, h⟩ := h
  split at h
  · cases h
  next metadata hjson =>
  obtain rfl := Except.ok.inj h
  show (slice signed _ _).length ≤ _
  rw [slice, length_drop, length_take]
  omega

/-- **Inversion of the reader**: what it accepts is an envelope of the parts that it returns. -/
theorem parseEnvelope_ok {signed : Bytes} {env : ParsedEnvelope}
    (h : parseEnvelope signed = .ok env) :
    signed = envelope env.original env.metaJson env.tag ∧ env.tag.length = tagLen ∧
    [env.original, env.magic, [env.version], env.originalLenBytes, env.metaJson,
      env.metaLenBytes] = envelopeParts env.original env.metaJson ∧
    env.metadata.integrityTag = hexEncode env.tag := by
  simp only [parseEnvelope, ite_eq_iff, reduceCtorEq, and_false, false_or] at h
  obtain ⟨hlong, hcap, hfits, hbefore, husize, hbeforeVersion, hversion, hbeforeMagic, hmagic,
    horiginal, h⟩ := h
  split at h
  · cases h
  next metadata hjson =>
  obtain rfl := Except.ok.inj h
  rw [Decidable.not_not] at hversion hmagic horiginal
  -- the offsets, from the end to the front
  generalize htagStart : signed.length - tagLen = tagStart at *
  generalize hmetaLenOff : tagStart - 4 = metaLenOff at *
  generalize hmetaLen : ofLittleEndian (slice signed metaLenOff tagStart) = metaLen at *
  generalize hmetaOff : metaLenOff - metaLen = metaOff at *
  generalize horigOff : metaOff - 8 = origOff at *
  generalize hversionOff : origOff - 1 = versionOff at *
  generalize hmagicOff : versionOff - footerMagic.length = magicOff at *
  have htake : (signed.take magicOff).length = magicOff := by
    rw [length_take]
    omega
  have hjsonLen : (slice signed metaOff metaLenOff).length = metaLen := by
    rw [length_slice (by omega)]
    omega
  have hversionSlice : slice signed versionOff origOff = [footerVersion] := by
    have hone : (slice signed versionOff origOff).length = 1 := by
      rw [length_slice (by omega)]
      omega
    obtain ⟨b, hb⟩ := length_eq_one_iff.mp hone
    have hfirst : (slice signed versionOff origOff).getD 0 0 = signed.getD versionOff 0 := by
      rw [slice, getD_eq_getElem?_getD, getD_eq_getElem?_getD, getElem?_drop,
        getElem?_take_of_lt (by omega), Nat.add_zero]
    rw [hb, hversion] at hfirst
    rw [hb, ← hfirst]
    rfl
  have horigLen : slice signed origOff metaOff = littleEndian 8 (signed.take magicOff).length := by
    have height : (slice signed origOff metaOff).length = 8 := by
      rw [length_slice (by omega)]
      omega
    rw [htake, ← horiginal, ← height, littleEndian_ofLittleEndian]
  have hmetaBytes : slice signed metaLenOff tagStart =
      littleEndian 4 (slice signed metaOff metaLenOff).length := by
    have hfour : (slice signed metaLenOff tagStart).length = 4 := by
      rw [length_slice (by omega)]
      omega
    rw [hjsonLen, ← hmetaLen, ← hfour, littleEndian_ofLittleEndian]
  refine ⟨?_, ?_, ?_, rfl⟩
  · rw [envelope_eq, ← horigLen, ← hmetaBytes, ← hversionSlice, ← hmagic]
    simp only [← append_assoc]
    rw [take_append_slice (by omega), take_append_slice (by omega), take_append_slice (by omega),
      take_append_slice (by omega), take_append_slice (by omega), take_append_drop]
  · rw [length_drop]
    omega
  · rw [envelopeParts, ← horigLen, ← hmetaBytes, hmagic, hversion]

/-- The metadata of an envelope from which the binary comes back fit the bound. -/
theorem length_le_of_extractOriginalBinary {binary metaJson tag : Bytes}
    (htag : tag.length = tagLen)
    (h : extractOriginalBinary (envelope binary metaJson tag) = .ok binary) :
    metaJson.length ≤ maxMetaLen := by
  rw [extractOriginalBinary] at h
  cases hparse : parseEnvelope (envelope binary metaJson tag) with
  | error e =>
    rw [hparse] at h
    cases h
  | ok env =>
    rw [hparse] at h
    obtain rfl : env.original = binary := Except.ok.inj h
    obtain ⟨hsigned, htag', -, -⟩ := parseEnvelope_ok hparse
    have hlength := congrArg length hsigned
    rw [length_envelope _ _ htag, length_envelope _ _ htag'] at hlength
    have hbound := length_metaJson_le hparse
    omega

end Reader

/-! ## Signing -/

theorem hexDecodeTag_hexEncode {tag : Bytes} (htag : tag.length = tagLen) :
    hexDecodeTag (hexEncode tag) = .ok tag := by
  have hascii : Ascii (hexBytes tag) := fun c hc => by
    have hrange := mem_hexBytes hc
    omega
  have hlength : (utf8 (hexBytes tag)).length = tagLen * 2 := by
    rw [utf8_of_ascii hascii, length_map, hexBytes_length, htag, Nat.mul_comm]
  rw [hexDecodeTag, hexEncode, String.toList_ofList, if_neg (fun h => h hlength),
    decodeHexBytes_hexBytes]

variable {binary key : Bytes}

/-- What the signer writes, with a key of sufficient length. -/
theorem signBinary_eq (hkey : 32 ≤ key.length)
    (moduleVersion buildTimestamp gitCommit hmacKeyId : String) :
    let stub := stub moduleVersion buildTimestamp gitCommit hmacKeyId
    signBinary binary key moduleVersion buildTimestamp gitCommit hmacKeyId =
      .ok { stub with
            integrityTag := hexEncode (hmacSha256 key
              (envelopeParts binary (canonicalMetaJson stub)).flatten) } := by
  have hmin : minHmacKeyBytes = 32 := rfl
  intro stub
  rw [signBinary, computeHmacSha256Parts, if_neg (by omega)]

theorem embedMetadata_eq (binary : Bytes) (m : BinaryMetadata) {tag : Bytes}
    (htag : tag.length = tagLen) :
    embedMetadata binary { m with integrityTag := hexEncode tag } =
      .ok (envelope binary (canonicalMetaJson m) tag) := by
  rw [embedMetadata, hexDecodeTag_hexEncode htag]
  rw [canonicalMetaJson_integrityTag, envelope]

theorem signAndEmbed_eq (hkey : 32 ≤ key.length)
    (moduleVersion buildTimestamp gitCommit hmacKeyId : String) :
    let metaJson := canonicalMetaJson (stub moduleVersion buildTimestamp gitCommit hmacKeyId)
    signAndEmbed binary key moduleVersion buildTimestamp gitCommit hmacKeyId =
      .ok (envelope binary metaJson
        (hmacSha256 key (envelopeParts binary metaJson).flatten)) := by
  rw [signAndEmbed, signBinary_eq hkey]
  exact embedMetadata_eq binary (stub moduleVersion buildTimestamp gitCommit hmacKeyId)
    (length_hmacSha256 _ _)

section Verify
variable [SerdeJson]

/-- The three readers on an envelope that was signed. -/
theorem verify_envelope [SerdeJson.Rfc8259] {m : BinaryMetadata}
    (hkey : 32 ≤ key.length) (hbinary : binary.length < 2 ^ 64)
    (hmeta : (canonicalMetaJson m).length ≤ maxMetaLen) :
    let tag := hmacSha256 key (envelopeParts binary (canonicalMetaJson m)).flatten
    let signed := envelope binary (canonicalMetaJson m) tag
    verifySignedBinary signed key = .ok () ∧
    extractMetadata signed = .ok { m with integrityTag := hexEncode tag } ∧
    extractOriginalBinary signed = .ok binary := by
  have hmin : minHmacKeyBytes = 32 := rfl
  have hparse := parseEnvelope_envelope (length_hmacSha256 key
    (envelopeParts binary (canonicalMetaJson m)).flatten) hbinary hmeta
  rw [fromSlice_canonicalMetaJson] at hparse
  refine ⟨?_, ?_, ?_⟩
  · rw [verifySignedBinary, hparse]
    dsimp only
    rw [canonicalMetaJson_integrityTag, canonicalMetaJson_integrityTag, if_neg (fun h => h rfl),
      verifyHmacSha256Parts_ok_iff, computeHmacSha256Parts, if_neg (by omega)]
    rfl
  · rw [extractMetadata, hparse]
    rfl
  · rw [extractOriginalBinary, hparse]
    rfl

/-- **Whatever is signed verifies** exactly if the metadata in JSON fits the bound of the reader. -/
theorem signed_verifies_iff_short [SerdeJson.Rfc8259] (binary key : Bytes)
    (moduleVersion buildTimestamp gitCommit hmacKeyId : String) (signed : Bytes)
    (hbinary : binary.length < 2 ^ 64) (hkey : 32 ≤ key.length)
    (hsigned : signAndEmbed binary key moduleVersion buildTimestamp gitCommit hmacKeyId =
      .ok signed) :
    ((∃ m, verifyAndExtract signed key = .ok m ∧ m.moduleVersion = moduleVersion ∧
      m.buildTimestamp = buildTimestamp ∧ m.gitCommit = gitCommit ∧ m.hmacKeyId = hmacKeyId) ∧
    extractOriginalBinary signed = .ok binary) ↔
      (canonicalMetaJson (stub moduleVersion buildTimestamp gitCommit hmacKeyId)).length ≤
        maxMetaLen := by
  rw [signAndEmbed_eq hkey] at hsigned
  obtain rfl := Except.ok.inj hsigned
  constructor
  · rintro ⟨-, hextract⟩
    exact length_le_of_extractOriginalBinary (length_hmacSha256 _ _) hextract
  · intro hshort
    obtain ⟨hverify, hmetadata, hbinary⟩ := verify_envelope hkey hbinary hshort
    rw [verifyAndExtract, hverify]
    exact ⟨⟨_, hmetadata, rfl, rfl, rfl, rfl⟩, hbinary⟩

/-- An accepted envelope, from the binary and the metadata that are read out of it. -/
theorem eq_of_verifySignedBinary {signed key : Bytes}
    (h : verifySignedBinary signed key = .ok ()) : ∃ binary m,
    extractOriginalBinary signed = .ok binary ∧ extractMetadata signed = .ok m ∧
    signBinary binary key m.moduleVersion m.buildTimestamp m.gitCommit m.hmacKeyId = .ok m ∧
    embedMetadata binary m = .ok signed := by
  unfold verifySignedBinary at h
  split at h
  · cases h
  next env henv =>
  split at h
  · cases h
  next hcanonical =>
  rw [Decidable.not_not] at hcanonical
  obtain ⟨hsigned, htagLen, hparts, htag⟩ := parseEnvelope_ok henv
  rw [verifyHmacSha256Parts_ok_iff, hparts] at h
  have hmeta : env.metadata = { stub env.metadata.moduleVersion env.metadata.buildTimestamp
      env.metadata.gitCommit env.metadata.hmacKeyId with integrityTag := hexEncode env.tag } := by
    rw [← htag]
    rfl
  have hjson : canonicalMetaJson (stub env.metadata.moduleVersion env.metadata.buildTimestamp
      env.metadata.gitCommit env.metadata.hmacKeyId) = env.metaJson := by
    rw [← hcanonical, hmeta, canonicalMetaJson_integrityTag]
    rfl
  refine ⟨env.original, env.metadata, ?_, ?_, ?_, ?_⟩
  · rw [extractOriginalBinary, henv]
    rfl
  · rw [extractMetadata, henv]
    rfl
  · rw [signBinary, hjson, h]
    exact congrArg _ hmeta.symm
  · rw [hmeta, embedMetadata_eq _ _ htagLen, hjson, ← hsigned]

/-- **Only signed envelopes verify**: an accepted byte string is the one that signing the binary
and the metadata in it gives, and there is no second one for them. -/
theorem verified_is_signed (signed key : Bytes) (h : verifySignedBinary signed key = .ok ()) :
    (∃ binary m, extractOriginalBinary signed = .ok binary ∧ extractMetadata signed = .ok m ∧
      signBinary binary key m.moduleVersion m.buildTimestamp m.gitCommit m.hmacKeyId = .ok m ∧
      embedMetadata binary m = .ok signed) ∧
    ∀ other, verifySignedBinary other key = .ok () →
      extractOriginalBinary other = extractOriginalBinary signed →
      extractMetadata other = extractMetadata signed → other = signed := by
  obtain ⟨binary, m, hbinary, hm, hsign, hembed⟩ := eq_of_verifySignedBinary h
  refine ⟨⟨binary, m, hbinary, hm, hsign, hembed⟩, fun other hother hsameBinary hsameMeta => ?_⟩
  obtain ⟨binary', m', hbinary', hm', _, hembed'⟩ := eq_of_verifySignedBinary hother
  obtain rfl := Except.ok.inj (hbinary'.symm.trans (hsameBinary.trans hbinary))
  obtain rfl := Except.ok.inj (hm'.symm.trans (hsameMeta.trans hm))
  exact Except.ok.inj (hembed'.symm.trans hembed)

end Verify

section Samples

/-- The value of a field that is there once, and a string. -/
def stringField (members : List (List Char × JsonText.Json)) (key : String) : Option String :=
  match members.filter fun member => member.1 = key.toList with
  | [(_, .string value)] => some (String.ofList value)
  | _ => none

/-- The fields of an object; others are passed over. -/
def readMetadata (members : List (List Char × JsonText.Json)) : Option BinaryMetadata :=
  match stringField members "module_version", stringField members "build_timestamp",
    stringField members "git_commit", stringField members "hmac_key_id",
    stringField members "integrity_tag" with
  | some moduleVersion, some buildTimestamp, some gitCommit, some hmacKeyId, some integrityTag =>
    some { moduleVersion := moduleVersion, buildTimestamp := buildTimestamp,
           gitCommit := gitCommit, hmacKeyId := hmacKeyId, integrityTag := integrityTag }
  | _, _, _, _, _ => none

/-- A reader after the grammar. -/
@[reducible] def grammarReader : SerdeJson where
  fromSlice bytes :=
    match decode bytes with
    | none => none
    | some text =>
      match JsonText.parse text.toList with
      | some (.object members) => readMetadata members
      | _ => none

theorem filter_eq_singleton {members : List (List Char × JsonText.Json)}
    {name : List Char} {value : JsonText.Json} (hnodup : (members.map Prod.fst).Nodup)
    (hmem : (name, value) ∈ members) :
    members.filter (fun member => member.1 = name) = [(name, value)] := by
  induction members with
  | nil => cases hmem
  | cons member members ih =>
    rw [map_cons, nodup_cons] at hnodup
    rcases mem_cons.mp hmem with rfl | hmem
    · have hrest : members.filter (fun member => member.1 = name) = [] := by
        rw [filter_eq_nil_iff]
        intro other hother hsame
        exact hnodup.1 (mem_map.mpr ⟨other, hother, of_decide_eq_true hsame⟩)
      rw [filter_cons_of_pos (by simp), hrest]
    · have hother : ¬ member.1 = name := fun hsame =>
        hnodup.1 (mem_map.mpr ⟨_, hmem, hsame.symm⟩)
      rw [filter_cons_of_neg (by simpa using hother), ih hnodup.2 hmem]

attribute [local instance] grammarReader

theorem rfc8259_grammarReader : SerdeJson.Rfc8259 where
  fromSlice_object := by
    intro text members m hparse hnodup hmem
    have hfield : ∀ key ∈ canonicalKeys, stringField members key = some (m.field key) := by
      intro key hkey
      rw [stringField, filter_eq_singleton hnodup (hmem key hkey)]
      dsimp only
      rw [String.ofList_toList]
    have hread : readMetadata members = some m := by
      rw [readMetadata, hfield "module_version" (by decide), hfield "build_timestamp" (by decide),
        hfield "git_commit" (by decide), hfield "hmac_key_id" (by decide),
        hfield "integrity_tag" (by decide)]
      rfl
    show (match decode (utf8 text) with
      | none => none
      | some text =>
        match parse text.toList with
        | some (.object members) => readMetadata members
        | _ => none) = some m
    rw [decode_utf8]
    dsimp only
    rw [String.toList_ofList, hparse]
    exact hread

attribute [local instance] rfc8259_grammarReader

def sampleHmacKey : Bytes := List.replicate 32 7

/-- The envelope of a binary of one byte. -/
def sampleEnvelope : Bytes :=
  envelope [0x7f] (canonicalMetaJson (stub "1.0" "t" "c" "k"))
    (hmacSha256 sampleHmacKey
      (envelopeParts [0x7f] (canonicalMetaJson (stub "1.0" "t" "c" "k"))).flatten)

theorem short_sample : (canonicalMetaJson (stub "1.0" "t" "c" "k")).length ≤ maxMetaLen := by
  decide

theorem signed_verifies_iff_short_sample : extractOriginalBinary sampleEnvelope = .ok [0x7f] :=
  ((signed_verifies_iff_short [0x7f] sampleHmacKey "1.0" "t" "c" "k" sampleEnvelope (by decide)
    (by decide) (signAndEmbed_eq (by decide) _ _ _ _)).mpr short_sample).2

theorem verified_is_signed_sample : verifySignedBinary sampleEnvelope sampleHmacKey = .ok () ∧
    ∃ binary m, extractOriginalBinary sampleEnvelope = .ok binary ∧
      extractMetadata sampleEnvelope = .ok m ∧
      signBinary binary sampleHmacKey m.moduleVersion m.buildTimestamp m.gitCommit m.hmacKeyId =
        .ok m ∧ embedMetadata binary m = .ok sampleEnvelope :=
  have hverify : verifySignedBinary sampleEnvelope sampleHmacKey = .ok () :=
    (verify_envelope (by decide) (by decide) short_sample).1
  ⟨hverify, (verified_is_signed sampleEnvelope sampleHmacKey hverify).1⟩

/-- A version of `n` characters. -/
def longVersion (n : Nat) : String := String.ofList (List.replicate n 'a')

theorem flatMap_escape_replicate (n : Nat) :
    (List.replicate n 'a').flatMap escape = List.replicate n 'a' := by
  induction n with
  | zero => rfl
  | succ n ih =>
    have hone : escape 'a' = ['a'] := by decide
    rw [replicate_succ, flatMap_cons, hone, ih, singleton_append]

/-- What stands in front of the version. -/
def beforeVersion : List Char :=
  '\x7b' :: [','].intercalate [metaMember "build_timestamp" "", metaMember "git_commit" "",
    metaMember "hmac_key_id" "", metaMember "integrity_tag" ""] ++ ",\"module_version\":\"".toList

theorem canonicalMetaText_longVersion (n : Nat) :
    canonicalMetaText (stub (longVersion n) "" "" "") =
      beforeVersion ++ (List.replicate n 'a' ++ ['"', '\x7d']) := by
  have hversion : metaMember "module_version" (longVersion n) =
      "\"module_version\":\"".toList ++ (List.replicate n 'a' ++ ['"']) := by
    have hvalue : jsonEncodeString (longVersion n) = '"' :: List.replicate n 'a' ++ ['"'] := by
      rw [jsonEncodeString, longVersion, String.toList_ofList, JsonText.stringText,
        flatMap_escape_replicate]
    rw [metaMember, hvalue]
    rfl
  have hcomma : ",\"module_version\":\"".toList = ',' :: "\"module_version\":\"".toList := by
    decide
  have hfields : ∀ version, canonicalKeys.map (fun key =>
      metaMember key (canonicalValue (stub version "" "" "") key)) =
      [metaMember "build_timestamp" "", metaMember "git_commit" "", metaMember "hmac_key_id" "",
        metaMember "integrity_tag" "", metaMember "module_version" version] := by
    intro version
    simp [canonicalKeys, canonicalValue, BinaryMetadata.field, stub]
  rw [canonicalMetaText, hfields, hversion, beforeVersion, hcomma]
  simp only [intercalate_cons_cons, intercalate_singleton, append_assoc,
    cons_append, nil_append]

theorem length_canonicalMetaJson_longVersion (n : Nat) :
    (canonicalMetaJson (stub (longVersion n) "" "" "")).length = n + 94 := by
  have hbefore : beforeVersion.all (fun c => c.toNat < 128) = true := by decide
  have hascii : Ascii (canonicalMetaText (stub (longVersion n) "" "" "")) := by
    rw [canonicalMetaText_longVersion]
    intro c hc
    rcases mem_append.mp hc with hc | hc
    · exact of_decide_eq_true (all_eq_true.mp hbefore c hc)
    rcases mem_append.mp hc with hc | hc
    · rw [eq_of_mem_replicate hc]
      decide
    · rw [mem_cons, mem_singleton] at hc
      rcases hc with rfl | rfl <;> decide
  rw [canonicalMetaJson, utf8_of_ascii hascii, length_map, canonicalMetaText_longVersion,
    length_append, length_append, length_replicate]
  have hlength : beforeVersion.length = 92 := by decide
  rw [hlength]
  simp only [length_cons, length_nil]
  omega

/-- **Signed and not verified**: a version of a mebibyte is signed, and the envelope refused. -/
theorem signed_metadata_too_long :
    ∃ signed, signAndEmbed [0x7f] sampleHmacKey (longVersion (2 ^ 20)) "" "" "" = .ok signed ∧
      verifyAndExtract signed sampleHmacKey =
        .error (.badEnvelope "metadata length exceeds 1 MiB cap") := by
  have hlength := length_canonicalMetaJson_longVersion (2 ^ 20)
  generalize longVersion (2 ^ 20) = version at *
  refine ⟨_, signAndEmbed_eq (by decide) _ _ _ _, ?_⟩
  have hmax : maxMetaLen = 2 ^ 20 := rfl
  have hparse := parseEnvelope_long [0x7f]
    (length_hmacSha256 sampleHmacKey (envelopeParts [0x7f]
      (canonicalMetaJson (stub version "" "" ""))).flatten)
    (show maxMetaLen < (canonicalMetaJson (stub version "" "" "")).length by omega) (by omega)
  rw [verifyAndExtract, verifySignedBinary, hparse]

end Samples

end CratonHsm.Certified
