import CratonHsm.AsciiText
import CratonHsm.AuthError
import CratonHsm.KmipStore
import CratonHsm.LineFile
import CratonHsm.Sha256

/-!
# The journal of the GCM counters

`gcm_counter.rs`: a text file with one line per record, a version marker before the records and a
MAC over both in a last line.  Each write takes the marker and the MAC off, appends a record, and
writes the whole file again.  What is stored for a key is a ceiling, above every count that was
handed out.

The body of a file is the list of its records: each is read back from its line
(`parseLine_text`), and the loop over the lines of a file computes what they say together
(`parsedRecords_spec`).
-/

namespace CratonHsm.Awslc
open PrefixFreeCode AsciiText LineFile Function List Option
open CratonHsm.Auth (HsmError)

def batchThreshold : Nat := 1024

def aesGcmNonceLimit : Nat := 2 ^ 32

def journalVersionMarker : Bytes := utf8 "craton-hsm-gcm-journal v1\n".toList

def maxMalformedRecords : Nat := 16

/-- The 32 bytes of a SHA-256 digest. -/
structure Fingerprint where
  bytes : Bytes
  length : bytes.length = 32
  deriving DecidableEq

/-- What is known of a key: its ceiling, and whether it is poisoned. -/
structure PersistEntry where
  persisted : Nat := 0
  poisoned : Bool := false
  deriving DecidableEq

/-- What is known of each fingerprint. -/
abbrev Known := Fingerprint → Option PersistEntry

/-- `entry(fp).or_default()`. -/
def entryOrDefault (known : Known) (fp : Fingerprint) : PersistEntry := (known fp).getD {}

/-! ## Records -/

/-- A ceiling, or the mark of a poisoned key. -/
inductive RecordKind where
  | count (n : Nat)
  | poisoned

/-- A line of the journal. -/
structure Record where
  fp : Fingerprint
  kind : RecordKind

def RecordKind.text : RecordKind → List Char
  | .count n => Nat.toDigits 10 n
  | .poisoned => "POISONED".toList

/-- The line of a record, without its line feed. -/
def Record.text (r : Record) : List Char := hexBytes r.fp.bytes ++ ' ' :: r.kind.text

/-- A record as a line with its MAC. -/
def Record.line (r : Record) : Bytes := utf8 r.text

/-- What a record does to the entry of its fingerprint; a count never lowers it. -/
def PersistEntry.add (e : PersistEntry) : RecordKind → PersistEntry
  | .poisoned => ⟨aesGcmNonceLimit, true⟩
  | .count n =>
    ⟨if e.persisted < n then n else e.persisted, e.poisoned || decide (aesGcmNonceLimit ≤ n)⟩

/-- What a line of the journal turns out to be.  A value that cannot be read still makes an entry
for its fingerprint. -/
inductive JournalLine where
  | skip
  | malformed
  | badValue (fp : Fingerprint)
  | record (r : Record)

/-- A fingerprint from 64 hexadecimal digits. -/
def parseHex32 (text : List Char) : Option Fingerprint :=
  if (utf8 text).length = 64 then
    match decodeHexBytes (utf8 text) with
    | some bytes => if h : bytes.length = 32 then some ⟨bytes, h⟩ else none
    | none => none
  else none

/-- The value of a line. -/
def parseValue (fp : Fingerprint) (val : List Char) : JournalLine :=
  if val = "POISONED".toList then .record ⟨fp, .poisoned⟩
  else
    match DecimalText.parseText UInt64.size val with
    | some n => .record ⟨fp, .count n⟩
    | none => .badValue fp

/-- The body of the loop of `parse_records`. -/
def parseLine (line : String) : JournalLine :=
  let text := trimmed line
  if text = [] ∨ text.head? = some '#' then .skip
  else if ' ' ∈ text then
    match parseHex32 (text.takeWhile (· ≠ ' ')) with
    | none => .malformed
    | some fp => parseValue fp ((text.dropWhile (· ≠ ' ')).drop 1)
  else .malformed

/-- What a journal file says, and how many of its lines are malformed. -/
structure Parsed where
  known : Known
  malformed : Nat

/-- A record is taken in: ceilings only rise. -/
def Parsed.add (p : Parsed) : JournalLine → Parsed
  | .skip => p
  | .malformed => { p with malformed := p.malformed + 1 }
  | .badValue fp =>
    ⟨Function.update p.known fp (some (entryOrDefault p.known fp)), p.malformed + 1⟩
  | .record r =>
    { p with
      known := Function.update p.known r.fp (some ((entryOrDefault p.known r.fp).add r.kind)) }

/-- The lines up to the first that is not UTF-8. -/
def readLines : List Bytes → List String
  | [] => []
  | line :: rest =>
    match decode line with
    | none => []
    | some text => text :: readLines rest

/-- The records of a file, with the malformed lines counted. -/
def parseRecords (body : Bytes) : Parsed :=
  (readLines (lines body)).foldl (fun p line => p.add (parseLine line)) ⟨fun _ => none, 0⟩

/-- `parse_and_check`. -/
def parseAndCheck (body : Bytes) : Except HsmError Known :=
  if maxMalformedRecords < (parseRecords body).malformed then .error .generalError
  else .ok (parseRecords body).known

/-! ## The footer -/

/-- `find_last_subslice`. -/
def findLast (needle : Bytes) : Bytes → Option Nat
  | [] => none
  | b :: rest =>
    match findLast needle rest with
    | some i => some (i + 1)
    | none => if needle <+: b :: rest then some 0 else none

/-- Where the footer of a file begins. -/
def footerStart : Bytes := utf8 "#MAC ".toList

/-- The tag of the footer line that begins at an index, if it is one. -/
def footerAt (all : Bytes) (idx : Nat) : Option Bytes :=
  let after := all.drop idx
  match after.idxOf? 10 with
  | none => none
  | some nl =>
    let line := after.take nl
    if footerStart <+: line ∧ (decode (line.drop 5)).isSome then some (line.drop 5) else none

/-- Where the search before `searchEnd` finds a footer line. -/
def footerIndex (all : Bytes) (searchEnd : Nat) : Option Nat :=
  match findLast (10 :: footerStart) (all.take searchEnd) with
  | some i => some (i + 1)
  | none => if footerStart <+: all ∧ 5 ≤ searchEnd then some 0 else none

/-- The rounds of `split_footer`. -/
def splitFooterFrom (all : Bytes) : Nat → Nat → Option (Bytes × Bytes)
  | 0, _ => none
  | rounds + 1, searchEnd =>
    match footerIndex all searchEnd with
    | none => none
    | some idx =>
      match footerAt all idx with
      | some tag => some (all.take idx, tag)
      | none => if idx = 0 then none else splitFooterFrom all rounds (idx - 1)

/-- The search moves towards the start, so it has no more rounds than the file has bytes. -/
def splitFooter (all : Bytes) : Option (Bytes × Bytes) :=
  splitFooterFrom all (all.length + 1) all.length

def readWithoutFooterOrMarker (file : Bytes) : Bytes :=
  let stripped :=
    if journalVersionMarker <+: file then file.drop journalVersionMarker.length else file
  match splitFooter stripped with
  | some (body, _) => body
  | none => stripped

/-- The line that authenticates a whole file. -/
def footer (macKey body : Bytes) : Bytes :=
  footerStart ++ utf8 (hexBytes (Sha256.hmac macKey (journalVersionMarker ++ body))) ++ [10]

/-- `write_record`: the new contents of the file. -/
def writeRecord (file macKey : Bytes) (r : Record) : Bytes :=
  let newBody := readWithoutFooterOrMarker file ++ (r.line ++ [10])
  journalVersionMarker ++ newBody ++ footer macKey newBody

/-! ## Opening -/

/-- `check_version`: where the records begin. -/
def checkVersion (all : Bytes) : Except HsmError Nat :=
  if journalVersionMarker <+: all then .ok journalVersionMarker.length
  else if utf8 "craton-hsm-gcm-journal ".toList <+: all then .error .generalError
  else .ok 0

/-- `load_and_verify`: what is known, whether the integrity check failed, and the length up to
which the file is verified. -/
def loadAndVerify (file macKey : Bytes) : Except HsmError (Known × Bool × Nat) :=
  if file = [] then .ok (fun _ => none, false, 0)
  else do
    let bodyOffset ← checkVersion file
    match splitFooter (file.drop bodyOffset) with
    | none =>
      let known ← parseAndCheck (file.drop bodyOffset)
      return (known, false, file.length)
    | some (body, tag) =>
      let known ← parseAndCheck body
      if decodeHexBytes tag = some (Sha256.hmac macKey (file.take bodyOffset ++ body)) then
        return (known, false, bodyOffset + body.length + 5 + tag.length + 1)
      else return (known, true, 0)

/-- A path as it was given, and as it is after canonicalization. -/
structure JournalPath where
  raw : Bytes
  canonical : Bytes

/-- `derive_mac_key_v2`. -/
def deriveMacKey (path : JournalPath) : Bytes :=
  Sha256.hash (utf8 "craton-hsm-gcm-counter-v2".toList ++ 0 :: utf8 "path:".toList ++
    path.canonical)

def deriveMacKeyV1 (path : JournalPath) : Bytes :=
  Sha256.hash (utf8 "craton-hsm-gcm-counter-v1".toList ++ path.raw)

/-- A journal file with what has been read from it. -/
structure FileBacked where
  file : Bytes
  macKey : Bytes
  known : Known
  integrityFailed : Bool

/-- The retry with the old key, for a file without a marker. -/
def loadLegacy (path : JournalPath) (file : Bytes) (loaded : Known × Bool × Nat) :
    Known × Bool × Nat :=
  if loaded.2.1 ∧ ¬ journalVersionMarker <+: file then
    match loadAndVerify file (deriveMacKeyV1 path) with
    | .ok (known, false, validLen) => (known, false, validLen)
    | _ => loaded
  else loaded

/-- `file_backed` on a file with the given contents. -/
def fileBacked (path : JournalPath) (file : Bytes) : Except HsmError FileBacked := do
  let loaded ← loadAndVerify file (deriveMacKey path)
  let (known, integrityFailed, validLen) := loadLegacy path file loaded
  return {
    file := if integrityFailed then file else file.take validLen
    macKey := deriveMacKey path
    known, integrityFailed }

/-! ## The operations -/

namespace FileBacked

/-- What is known of a key. -/
def entry (fb : FileBacked) (fp : Fingerprint) : PersistEntry := entryOrDefault fb.known fp

/-- The ceiling of a key, and whether it is poisoned. -/
def persistedState (fb : FileBacked) (fp : Fingerprint) : Nat × Bool :=
  if fb.integrityFailed ∧ (fb.known fp).isSome then (aesGcmNonceLimit, true)
  else ((fb.entry fp).persisted, (fb.entry fp).poisoned)

/-- A record is written, and the entry in memory replaced. -/
def write (fb : FileBacked) (r : Record) (e : PersistEntry) : FileBacked :=
  { fb with
    file := writeRecord fb.file fb.macKey r
    known := Function.update fb.known r.fp (some e) }

/-- A new ceiling is written when the count passes the old one. -/
def recordAdvance (fb : FileBacked) (fp : Fingerprint) (newCount : Nat) :
    Except HsmError Unit × FileBacked :=
  if fb.integrityFailed then (.error .generalError, fb)
  else
    let entry := fb.entry fp
    if entry.persisted ≠ 0 ∧ newCount < entry.persisted then
      (.ok (), { fb with known := Function.update fb.known fp (some entry) })
    else
      let ceiling := min (newCount + batchThreshold) aesGcmNonceLimit
      (.ok (), fb.write ⟨fp, .count ceiling⟩ { entry with persisted := ceiling })

/-- The exact count is written. -/
def flushFingerprint (fb : FileBacked) (fp : Fingerprint) (newCount : Nat) :
    Except HsmError Unit × FileBacked :=
  if fb.integrityFailed then (.error .generalError, fb)
  else
    let entry := fb.entry fp
    if newCount ≤ entry.persisted then
      (.ok (), { fb with known := Function.update fb.known fp (some entry) })
    else (.ok (), fb.write ⟨fp, .count newCount⟩ { entry with persisted := newCount })

/-- The mark of a poisoned key is written. -/
def recordPoison (fb : FileBacked) (fp : Fingerprint) : Except HsmError Unit × FileBacked :=
  if fb.integrityFailed then (.ok (), fb)
  else (.ok (), fb.write ⟨fp, .poisoned⟩ ⟨aesGcmNonceLimit, true⟩)

end FileBacked

/-! ## A record is read back -/

section Lines
variable {r : Record}

theorem RecordKind.mem_text {kind : RecordKind} {c : Char} (hc : c ∈ kind.text) :
    48 ≤ c.toNat ∧ c.toNat < 128 := by
  cases kind with
  | count n =>
    have hdigit := DecimalText.range_of_mem_toDigits hc
    omega
  | poisoned =>
    have hword : "POISONED".toList.all (fun c => 48 ≤ c.toNat ∧ c.toNat < 128) = true := by decide
    exact of_decide_eq_true (all_eq_true.mp hword c hc)

theorem RecordKind.text_ne_nil (kind : RecordKind) : kind.text ≠ [] := by
  cases kind with
  | count n => exact Nat.toDigits_ne_nil
  | poisoned => decide

/-- Every character of a record is a space, a digit or a letter. -/
theorem Record.mem_text {c : Char} (hc : c ∈ r.text) :
    c.toNat = 32 ∨ 48 ≤ c.toNat ∧ c.toNat < 128 := by
  rcases mem_append.mp hc with hc | hc
  · have hrange := mem_hexBytes hc
    omega
  · rcases mem_cons.mp hc with rfl | hc
    · exact .inl rfl
    · exact .inr (RecordKind.mem_text hc)

theorem Record.mem_line {b : UInt8} (hb : b ∈ r.line) :
    b.toNat = 32 ∨ 48 ≤ b.toNat ∧ b.toNat < 128 := by
  have hascii : Ascii r.text := fun c hc => by
    have hrange := Record.mem_text hc
    omega
  obtain ⟨c, hc, _, hbc⟩ := mem_utf8_of_ascii hascii hb
  rw [hbc]
  exact Record.mem_text hc

theorem Record.plain_line (r : Record) : Plain r.line := by
  constructor
  · intro hnil
    have hlength : r.line.length = 0 := by rw [hnil]; rfl
    rw [Record.line, utf8_of_ascii, length_map, Record.text, length_append,
      length_cons] at hlength
    · omega
    intro c hc
    have hrange := Record.mem_text hc
    omega
  · intro b hb
    have hrange := Record.mem_line hb
    constructor
    · rintro rfl
      revert hrange
      decide
    · rintro rfl
      revert hrange
      decide

theorem dropWhile_of_head {p : Char → Bool} {text : List Char}
    (h : ∀ c ∈ text.head?, p c = false) : text.dropWhile p = text := by
  cases text with
  | nil => rfl
  | cons c text =>
    have hc : p c = false := h c rfl
    rw [dropWhile_cons, hc]
    rfl

theorem trimmed_of_ends {text : List Char} (hhead : ∀ c ∈ text.head?, isWhitespace c = false)
    (hlast : ∀ c ∈ text.getLast?, isWhitespace c = false) :
    trimmed (String.ofList text) = text := by
  rw [trimmed, String.toList_ofList, dropWhile_of_head hhead, dropWhile_of_head,
    reverse_reverse]
  rw [head?_reverse]
  exact hlast

theorem isWhitespace_of_range {c : Char} (h : 48 ≤ c.toNat ∧ c.toNat < 128) :
    isWhitespace c = false := by
  unfold isWhitespace
  simp
  omega

theorem Record.trimmed_text (r : Record) : trimmed (String.ofList r.text) = r.text := by
  have hhex : (hexBytes r.fp.bytes) ≠ [] := by
    intro hnil
    have hlength := hexBytes_length r.fp.bytes
    rw [hnil, r.fp.length] at hlength
    cases hlength
  apply trimmed_of_ends
  · intro c hc
    obtain ⟨d, rest, hcons⟩ := exists_cons_of_ne_nil hhex
    rw [Record.text, hcons, cons_append, head?_cons, mem_some_iff] at hc
    have hmem : c ∈ hexBytes r.fp.bytes := by
      rw [hcons, hc]
      exact mem_cons_self
    have hrange := mem_hexBytes hmem
    exact isWhitespace_of_range (by omega)
  · intro c hc
    have hsplit : r.text = (hexBytes r.fp.bytes ++ [' ']) ++ r.kind.text := by
      rw [Record.text, append_assoc, singleton_append]
    rw [hsplit, getLast?_append, getLast?_eq_some_getLast r.kind.text_ne_nil,
      some_or, mem_some_iff] at hc
    exact isWhitespace_of_range (RecordKind.mem_text (hc ▸ getLast_mem _))

theorem parseHex32_hexBytes (fp : Fingerprint) : parseHex32 (hexBytes fp.bytes) = some fp := by
  have hascii : Ascii (hexBytes fp.bytes) := fun c hc => by
    have hrange := mem_hexBytes hc
    omega
  have hlength : (utf8 (hexBytes fp.bytes)).length = 64 := by
    rw [utf8_of_ascii hascii, length_map, hexBytes_length, fp.length]
  rw [parseHex32, if_pos hlength, decodeHexBytes_hexBytes]
  exact dif_pos fp.length

/-- The count of a record is at most the limit. -/
def Record.Fits (r : Record) : Prop := ∀ n, r.kind = .count n → n ≤ aesGcmNonceLimit

theorem parseValue_text (fp : Fingerprint) {kind : RecordKind}
    (hfits : ∀ n, kind = .count n → n ≤ aesGcmNonceLimit) :
    parseValue fp kind.text = .record ⟨fp, kind⟩ := by
  cases kind with
  | poisoned =>
    have htext : RecordKind.poisoned.text = "POISONED".toList := rfl
    simp only [parseValue, htext, if_true]
  | count n =>
    have hle : n ≤ aesGcmNonceLimit := hfits n rfl
    have hlimit : aesGcmNonceLimit < UInt64.size := by decide
    have hword : Nat.toDigits 10 n ≠ "POISONED".toList := by
      intro hword
      have hmem : 'P' ∈ Nat.toDigits 10 n := by
        rw [hword]
        decide
      have hdigit := DecimalText.range_of_mem_toDigits hmem
      revert hdigit
      decide
    have htext : (RecordKind.count n).text = Nat.toDigits 10 n := rfl
    simp only [parseValue, htext, if_neg hword, DecimalText.parseText_toDigits,
      if_pos (Nat.lt_of_le_of_lt hle hlimit)]

/-- **A record is read back from its line.** -/
theorem parseLine_text (hfits : r.Fits) : parseLine (String.ofList r.text) = .record r := by
  have hspace : ∀ c ∈ hexBytes r.fp.bytes, decide (c ≠ ' ') = true := by
    intro c hc
    have hrange := mem_hexBytes hc
    have hne : c ≠ ' ' := by
      rintro rfl
      revert hrange
      decide
    simpa using hne
  have hhex : r.text.takeWhile (· ≠ ' ') = hexBytes r.fp.bytes := by
    rw [Record.text, takeWhile_append_of_pos hspace, takeWhile_cons_of_neg (by simp),
      append_nil]
  have hval : (r.text.dropWhile (· ≠ ' ')).drop 1 = r.kind.text := by
    rw [Record.text, dropWhile_append_of_pos hspace, dropWhile_cons_of_neg (by simp)]
    rfl
  have hstart : ¬ (r.text = [] ∨ r.text.head? = some '#') := by
    rintro (hnil | hhash)
    · simp [Record.text] at hnil
    · have hrange := Record.mem_text (mem_of_mem_head? hhash)
      revert hrange
      decide
  have hmem : ' ' ∈ r.text := mem_append_right _ mem_cons_self
  simp only [parseLine, Record.trimmed_text, if_neg hstart, if_pos hmem, hhex,
    parseHex32_hexBytes, hval]
  exact parseValue_text r.fp hfits

/-! ## The records of a file -/

/-- What the records say of a fingerprint. -/
def replay (rs : List Record) (fp : Fingerprint) : PersistEntry :=
  rs.foldl (fun e r => if r.fp = fp then e.add r.kind else e) {}

theorem replay_snoc (rs : List Record) (r : Record) (fp : Fingerprint) :
    replay (rs ++ [r]) fp = if r.fp = fp then (replay rs fp).add r.kind else replay rs fp := by
  rw [replay, foldl_append]
  rfl

theorem readLines_records (rs : List Record) (more : List Bytes) :
    readLines (rs.map Record.line ++ more) =
      rs.map (fun r => String.ofList r.text) ++ readLines more := by
  induction rs with
  | nil => rfl
  | cons r rs ih =>
    rw [map_cons, cons_append, readLines, Record.line, decode_utf8, map_cons,
      cons_append, ← ih]

theorem entryOrDefault_update (known : Known) (fp fp' : Fingerprint) (e : PersistEntry) :
    entryOrDefault (update known fp (some e)) fp' =
      if fp = fp' then e else entryOrDefault known fp' := by
  by_cases hfp : fp' = fp
  · subst hfp
    rw [if_pos rfl, entryOrDefault, update_self, getD_some]
  · rw [if_neg (Ne.symm hfp), entryOrDefault, update_of_ne hfp, entryOrDefault]

/-- What the loop of `parse_records` has after the given records. -/
def parsedRecords (rs : List Record) : Parsed :=
  (rs.map fun r => String.ofList r.text).foldl (fun p line => p.add (parseLine line))
    ⟨fun _ => none, 0⟩

theorem parsedRecords_spec {rs : List Record} (hfits : ∀ r ∈ rs, r.Fits) :
    (parsedRecords rs).malformed = 0 ∧
      ∀ fp, entryOrDefault (parsedRecords rs).known fp = replay rs fp := by
  induction rs using List.reverseRecOn with
  | nil => exact ⟨rfl, fun _ => rfl⟩
  | append_singleton rs r ih =>
    obtain ⟨hmalformed, hknown⟩ := ih fun q hq => hfits q (mem_append_left _ hq)
    have hsnoc : parsedRecords (rs ++ [r]) = (parsedRecords rs).add (.record r) := by
      rw [parsedRecords, map_append, foldl_append]
      exact congrArg (Parsed.add _) (parseLine_text (hfits r (by simp)))
    rw [hsnoc]
    refine ⟨hmalformed, fun fp => ?_⟩
    rw [Parsed.add, entryOrDefault_update, replay_snoc, hknown, hknown]
    by_cases hfp : r.fp = fp
    · rw [if_pos hfp, if_pos hfp, hfp]
    · rw [if_neg hfp, if_neg hfp]

/-- The records of a file whose end is cut: at most one line more. -/
theorem parseRecords_records (rs : List Record) {tail : Bytes}
    (htail : ∀ b ∈ tail, b ≠ 10 ∧ b ≠ 13) :
    parseRecords (joinLines (rs.map Record.line) ++ tail) = parsedRecords rs ∨
    tail ≠ [] ∧ ∃ line, parseRecords (joinLines (rs.map Record.line) ++ tail) =
      (parsedRecords rs).add (parseLine line) := by
  have hplain : ∀ l ∈ rs.map Record.line, Plain l := by
    intro l hl
    obtain ⟨r, _, rfl⟩ := mem_map.mp hl
    exact r.plain_line
  rw [parseRecords, lines_joinLines hplain htail, readLines_records, foldl_append]
  by_cases hnil : tail = []
  · left
    rw [if_pos hnil]
    rfl
  · rw [if_neg hnil, readLines]
    cases decode tail with
    | none => exact .inl rfl
    | some line => exact .inr ⟨hnil, line, rfl⟩

end Lines

end CratonHsm.Awslc
