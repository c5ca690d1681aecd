import CratonHsm.GcmJournal
import CratonHsm.GuardedRun

/-!
# The journal as a log

Every operation of the journal leaves a file that is determined by a list of records
(`journalFile`), and keeps the counters in memory equal to what those records say (`Written`).
Opening such a file finds the marker, the footer with the right MAC, and the records, so it gives
the same counters back, and marks as poisoned what was poisoned or is at the limit.
-/

namespace CratonHsm.Awslc
open PrefixFreeCode AsciiText LineFile GuardedRun List PersistEntry
open CratonHsm.Auth (HsmError)

/-! ## Finding the footer -/

section Footer
variable {needle hay : Bytes}

theorem findLast_sound {i : Nat} (h : findLast needle hay = some i) : needle <+: hay.drop i := by
  induction hay generalizing i with
  | nil => cases h
  | cons b rest ih =>
    rw [findLast] at h
    cases hrest : findLast needle rest with
    | some j =>
      rw [hrest] at h
      obtain rfl := Option.some.inj h
      exact ih hrest
    | none =>
      rw [hrest] at h
      dsimp only at h
      split at h
      · next hhere =>
        obtain rfl := Option.some.inj h
        exact hhere
      · cases h

theorem findLast_of_prefix {i : Nat} (hi : i < hay.length) (h : needle <+: hay.drop i) :
    ∃ j, i ≤ j ∧ findLast needle hay = some j := by
  induction hay generalizing i with
  | nil => cases hi
  | cons b rest ih =>
    rw [findLast]
    cases hrest : findLast needle rest with
    | some j =>
      cases i with
      | zero => exact ⟨j + 1, Nat.zero_le _, rfl⟩
      | succ i =>
        obtain ⟨k, hik, hk⟩ := ih (Nat.lt_of_succ_lt_succ hi) h
        rw [hrest] at hk
        obtain rfl := Option.some.inj hk
        exact ⟨j + 1, Nat.succ_le_succ hik, rfl⟩
    | none =>
      cases i with
      | zero => exact ⟨0, Nat.le_refl _, if_pos h⟩
      | succ i =>
        obtain ⟨k, _, hk⟩ := ih (Nat.lt_of_succ_lt_succ hi) h
        rw [hrest] at hk
        cases hk

theorem getElem?_of_findLast {i n : Nat}
    (h : findLast (10 :: footerStart) (hay.take n) = some i) : hay[i + 1]? = some 35 := by
  obtain ⟨rest, hrest⟩ := findLast_sound h
  have hhash : ((hay.take n).drop i)[1]? = some 35 := by
    rw [← hrest]
    rfl
  rw [getElem?_drop] at hhash
  have hlt : i + 1 < n := by
    by_contra hge
    rw [getElem?_eq_none (by rw [length_take]; omega)] at hhash
    cases hhash
  rwa [getElem?_take_of_lt hlt] at hhash

theorem idxOf?_eq_none {l : Bytes} {b : UInt8} (h : b ∉ l) : l.idxOf? b = none := by
  rw [List.idxOf?, findIdx?_eq_none_iff]
  intro c hc
  have hne : c ≠ b := fun heq => h (heq ▸ hc)
  simpa using hne

theorem idxOf?_append_cons {l r : Bytes} {b : UInt8} (h : b ∉ l) :
    (l ++ b :: r).idxOf? b = some l.length := by
  induction l with
  | nil => simp [idxOf?_cons]
  | cons c l ih =>
    have hne : c ≠ b := fun heq => h (heq ▸ mem_cons_self)
    have hrest := ih fun hmem => h (mem_cons_of_mem _ hmem)
    simp [idxOf?_cons, hne, hrest]

/-- The bytes of a body: no hash sign. -/
def NoHash (body : Bytes) : Prop := (35 : UInt8) ∉ body

/-- An end without a line feed holds no footer. -/
theorem footerAt_eq_none {body tail : Bytes} (hbody : NoHash body) (htail : (10 : UInt8) ∉ tail)
    {idx : Nat} (hhash : (body ++ tail)[idx]? = some 35) : footerAt (body ++ tail) idx = none := by
  have hidx : body.length ≤ idx := by
    by_contra hlt
    rw [getElem?_append_left (Nat.not_le.mp hlt)] at hhash
    exact hbody (mem_of_getElem? hhash)
  have hnone : ((body ++ tail).drop idx).idxOf? 10 = none := by
    apply idxOf?_eq_none
    rw [drop_append, drop_eq_nil_of_le hidx, nil_append]
    exact fun hmem => htail (mem_of_mem_drop hmem)
  simp only [footerAt, hnone]

/-- **Without a whole footer line there is no footer.** -/
theorem splitFooter_eq_none {body tail : Bytes} (hbody : NoHash body)
    (htail : (10 : UInt8) ∉ tail) : splitFooter (body ++ tail) = none := by
  have hrounds : ∀ rounds searchEnd, splitFooterFrom (body ++ tail) rounds searchEnd = none := by
    intro rounds
    induction rounds with
    | zero => intro searchEnd; rfl
    | succ rounds ih =>
      intro searchEnd
      rw [splitFooterFrom]
      rcases hindex : footerIndex (body ++ tail) searchEnd with _ | idx
      · rfl
      have hhash : (body ++ tail)[idx]? = some 35 := by
        rw [footerIndex] at hindex
        split at hindex
        · next i hfind =>
          obtain rfl := Option.some.inj hindex
          exact getElem?_of_findLast hfind
        · split at hindex
          · next hstart =>
            obtain rfl := Option.some.inj hindex
            obtain ⟨rest, hrest⟩ := hstart.1
            rw [← hrest]
            rfl
          · cases hindex
      dsimp only
      rw [footerAt_eq_none hbody htail hhash]
      dsimp only
      split
      · rfl
      · exact ih _
  exact hrounds _ _

/-- **The footer is found.** -/
theorem splitFooter_footer {body : Bytes} (hbody : NoHash body) (hline : body.getLast? = some 10)
    {tag : List Char} (htag : ∀ c ∈ tag, 48 ≤ c.toNat ∧ c.toNat < 103) :
    splitFooter (body ++ (footerStart ++ utf8 tag ++ [10])) = some (body, utf8 tag) := by
  have hascii : Ascii tag := fun c hc => Nat.lt_trans (htag c hc).2 (by decide)
  have hlow : ∀ b : UInt8, b.toNat < 48 → b ∉ utf8 tag := by
    intro b hb hmem
    obtain ⟨c, hc, _, hbc⟩ := mem_utf8_of_ascii hascii hmem
    exact Nat.not_lt.mpr (htag c hc).1 (hbc ▸ hb)
  have hnofeed : (10 : UInt8) ∉ footerStart ++ utf8 tag := by
    rw [mem_append, not_or]
    exact ⟨by decide, hlow 10 (by decide)⟩
  have hnohash : (35 : UInt8) ∉ footerStart.tail ++ utf8 tag ++ [10] := by
    simp only [mem_append, not_or]
    exact ⟨⟨by decide, hlow 35 (by decide)⟩, by decide⟩
  obtain ⟨front, rfl⟩ := getLast?_eq_some_iff.mp hline
  generalize hall : front ++ [10] ++ (footerStart ++ utf8 tag ++ [10]) = all
  have hlength : front.length < all.length := by
    rw [← hall]
    simp only [length_append, length_singleton]
    omega
  have hhere : 10 :: footerStart <+: (all.take all.length).drop front.length := by
    rw [take_length, ← hall, append_assoc, append_assoc, drop_left]
    exact ⟨utf8 tag ++ [10], rfl⟩
  obtain ⟨j, hj, hfind⟩ := findLast_of_prefix (by rw [take_length]; exact hlength) hhere
  have hindex : j = front.length := by
    have hhash := getElem?_of_findLast hfind
    by_contra hne
    have hpast : all[j + 1]? = (footerStart.tail ++ utf8 tag ++ [10])[j - front.length - 1]? := by
      have hsplit : all = (front ++ [10, 35]) ++ (footerStart.tail ++ utf8 tag ++ [10]) := by
        rw [← hall]
        simp [footerStart, utf8]
        rfl
      rw [hsplit, getElem?_append_right (by simp; omega)]
      congr 1
      simp
      omega
    rw [hpast] at hhash
    exact hnohash (mem_of_getElem? hhash)
  have hat : footerAt all (front.length + 1) = some (utf8 tag) := by
    have hafter : all.drop (front.length + 1) = (footerStart ++ utf8 tag) ++ 10 :: [] := by
      rw [← hall, drop_left' (by simp)]
    have hfive : footerStart.length = 5 := by decide
    simp only [footerAt, hafter, idxOf?_append_cons hnofeed, take_left]
    have hdrop : (footerStart ++ utf8 tag).drop 5 = utf8 tag := drop_left' hfive
    rw [hdrop, decode_utf8, if_pos ⟨prefix_append _ _, rfl⟩]
  rw [splitFooter, splitFooterFrom, footerIndex, hfind, hindex]
  dsimp only
  rw [hat]
  rw [← hall, take_left' (by simp)]

end Footer

/-! ## The file of a list of records -/

/-- The lines of the records. -/
def journalBody (rs : List Record) : Bytes := joinLines (rs.map Record.line)

/-- The file after the records were written; a journal without records is an empty file. -/
def journalFile (macKey : Bytes) (rs : List Record) : Bytes :=
  if rs = [] then []
  else journalVersionMarker ++ journalBody rs ++ footer macKey (journalBody rs)

section File
variable {macKey : Bytes} {rs : List Record}

theorem journalBody_snoc (rs : List Record) (r : Record) :
    journalBody (rs ++ [r]) = journalBody rs ++ (r.line ++ [10]) := by
  rw [journalBody, map_append, joinLines_append]
  exact congrArg _ (by simp [joinLines])

theorem noHash_journalBody (rs : List Record) : NoHash (journalBody rs) := by
  intro hmem
  obtain ⟨line, hline, hmem⟩ := mem_flatMap.mp hmem
  obtain ⟨r, _, rfl⟩ := mem_map.mp hline
  rcases mem_append.mp hmem with hmem | hmem
  · have hrange := Record.mem_line hmem
    revert hrange
    decide
  · revert hmem
    decide

theorem getLast?_journalBody (h : rs ≠ []) : (journalBody rs).getLast? = some 10 := by
  obtain ⟨front, r, hrs⟩ := (eq_nil_or_concat rs).resolve_left h
  rw [hrs, concat_eq_append, journalBody_snoc, ← append_assoc, getLast?_append]
  rfl

theorem splitFooter_journal (h : rs ≠ []) :
    splitFooter (journalBody rs ++ footer macKey (journalBody rs)) = some (journalBody rs,
      utf8 (hexBytes (Sha256.hmac macKey (journalVersionMarker ++ journalBody rs)))) :=
  splitFooter_footer (noHash_journalBody rs) (getLast?_journalBody h) fun _ hc => mem_hexBytes hc

theorem readWithoutFooterOrMarker_journal (rs : List Record) :
    readWithoutFooterOrMarker (journalFile macKey rs) = journalBody rs := by
  by_cases h : rs = []
  · subst h
    rfl
  · rw [journalFile, if_neg h, readWithoutFooterOrMarker, append_assoc,
      if_pos (prefix_append _ _), drop_left, splitFooter_journal h]

/-- **A write appends a record.** -/
theorem writeRecord_journal (rs : List Record) (r : Record) :
    writeRecord (journalFile macKey rs) macKey r = journalFile macKey (rs ++ [r]) := by
  rw [writeRecord, readWithoutFooterOrMarker_journal, ← journalBody_snoc, journalFile,
    if_neg (append_ne_nil_of_right_ne_nil rs (cons_ne_nil r []))]

theorem parseRecords_journalBody (rs : List Record) :
    parseRecords (journalBody rs) = parsedRecords rs := by
  have hnone : ∀ b ∈ ([] : Bytes), b ≠ 10 ∧ b ≠ 13 := by simp
  rcases parseRecords_records rs hnone with h | h
  · rwa [append_nil] at h
  · exact absurd rfl h.1

theorem parseAndCheck_journalBody (hfits : ∀ r ∈ rs, r.Fits) :
    parseAndCheck (journalBody rs) = .ok (parsedRecords rs).known := by
  rw [parseAndCheck, parseRecords_journalBody, (parsedRecords_spec hfits).1, if_neg (by decide)]

/-- **The file of a journal passes the integrity check.** -/
theorem loadAndVerify_journal (hfits : ∀ r ∈ rs, r.Fits) :
    loadAndVerify (journalFile macKey rs) macKey =
      .ok ((parsedRecords rs).known, false, (journalFile macKey rs).length) := by
  by_cases h : rs = []
  · subst h
    rfl
  have hfile : journalFile macKey rs =
      journalVersionMarker ++ (journalBody rs ++ footer macKey (journalBody rs)) := by
    rw [journalFile, if_neg h, append_assoc]
  have hne : journalFile macKey rs ≠ [] := by
    rw [hfile]
    exact append_ne_nil_of_left_ne_nil (by decide) _
  have hversion : checkVersion (journalFile macKey rs) = .ok journalVersionMarker.length := by
    rw [hfile, checkVersion, if_pos (prefix_append _ _)]
  rw [loadAndVerify, if_neg hne, hversion, hfile]
  simp only [bind, Except.bind, pure, Except.pure, drop_left, take_left,
    splitFooter_journal h, parseAndCheck_journalBody hfits, decodeHexBytes_hexBytes, if_true]
  have hfive : footerStart.length = 5 := by decide
  simp only [footer, length_append, length_singleton, hfive, Nat.add_assoc]

theorem fileBacked_of_load {path : JournalPath} {file : Bytes} {known : Known}
    (h : loadAndVerify file (deriveMacKey path) = .ok (known, false, file.length)) :
    fileBacked path file = .ok ⟨file, deriveMacKey path, known, false⟩ := by
  simp [fileBacked, h, loadLegacy, bind, Except.bind, pure, Except.pure]

theorem fileBacked_journal {path : JournalPath} (hfits : ∀ r ∈ rs, r.Fits) :
    fileBacked path (journalFile (deriveMacKey path) rs) =
      .ok ⟨journalFile (deriveMacKey path) rs, deriveMacKey path,
        (parsedRecords rs).known, false⟩ :=
  fileBacked_of_load (loadAndVerify_journal hfits)

end File

/-! ## What the records say -/

section Replay
variable {rs : List Record} {e : PersistEntry}

theorem add_persisted_le {r : Record} (he : e.persisted ≤ aesGcmNonceLimit)
    (hfits : r.Fits) : (e.add r.kind).persisted ≤ aesGcmNonceLimit := by
  cases hkind : r.kind with
  | poisoned => exact Nat.le_refl _
  | count n =>
    have hn := hfits n hkind
    dsimp only [add]
    split
    · exact hn
    · exact he

theorem replay_le (hfits : ∀ r ∈ rs, r.Fits) (fp : Fingerprint) :
    (replay rs fp).persisted ≤ aesGcmNonceLimit := by
  induction rs using List.reverseRecOn with
  | nil => exact Nat.zero_le _
  | append_singleton rs r ih =>
    have hrest := ih fun q hq => hfits q (mem_append_left _ hq)
    rw [replay_snoc]
    by_cases hfp : r.fp = fp
    · rw [if_pos hfp]
      exact add_persisted_le hrest (hfits r (by simp))
    · rw [if_neg hfp]
      exact hrest

/-- A counter at the limit counts as poisoned. -/
theorem replay_full (fp : Fingerprint) (h : aesGcmNonceLimit ≤ (replay rs fp).persisted) :
    (replay rs fp).poisoned = true := by
  induction rs using List.reverseRecOn with
  | nil =>
    have hpos : 0 < aesGcmNonceLimit := by decide
    have hzero : (replay [] fp).persisted = 0 := rfl
    omega
  | append_singleton rs r ih =>
    rw [replay_snoc] at h ⊢
    by_cases hfp : r.fp = fp
    · rw [if_pos hfp] at h ⊢
      cases hkind : r.kind with
      | poisoned => rfl
      | count n =>
        rw [hkind] at h
        dsimp only [add] at h ⊢
        split at h
        · rw [decide_eq_true h, Bool.or_true]
        · rw [ih h, Bool.true_or]
    · rw [if_neg hfp] at h ⊢
      exact ih h

/-- A record never lowers a counter. -/
theorem le_add_persisted (he : e.persisted ≤ aesGcmNonceLimit)
    (kind : RecordKind) : e.persisted ≤ (e.add kind).persisted := by
  cases kind with
  | poisoned => exact he
  | count n =>
    dsimp only [add]
    split
    · omega
    · exact Nat.le_refl _

theorem add_poisoned (he : e.poisoned = true) (kind : RecordKind) :
    (e.add kind).poisoned = true := by
  cases kind with
  | poisoned => rfl
  | count n =>
    dsimp only [add]
    rw [he, Bool.true_or]

end Replay

/-! ## The journal in memory -/

/-- The file is that of the records, and the counters in memory are what the records say.  A
fingerprint at the limit is poisoned on the file before it is in memory. -/
structure Written (path : JournalPath) (rs : List Record) (fb : FileBacked) : Prop where
  fits : ∀ r ∈ rs, r.Fits
  file : fb.file = journalFile (deriveMacKey path) rs
  macKey : fb.macKey = deriveMacKey path
  intact : fb.integrityFailed = false
  counter : ∀ fp, (fb.entry fp).persisted = (replay rs fp).persisted
  poisoned : ∀ fp, (fb.entry fp).poisoned = true → (replay rs fp).poisoned = true

section Journal
variable {path : JournalPath} {rs : List Record} {fb : FileBacked} {fp : Fingerprint} {n : Nat}

theorem Written.persistedState (h : Written path rs fb) (fp : Fingerprint) :
    fb.persistedState fp = ((fb.entry fp).persisted, (fb.entry fp).poisoned) := by
  rw [FileBacked.persistedState, h.intact, if_neg (by simp)]

/-- **Opening gives back what was written.** -/
theorem Written.reopen (h : Written path rs fb) :
    ∃ fb', fileBacked path fb.file = .ok fb' ∧ Written path rs fb' ∧
      ∀ fp, fb'.entry fp = replay rs fp := by
  have hentry := (parsedRecords_spec h.fits).2
  refine ⟨⟨journalFile (deriveMacKey path) rs, deriveMacKey path, (parsedRecords rs).known, false⟩,
    ?_, ⟨h.fits, rfl, rfl, rfl, ?_, ?_⟩, hentry⟩
  · rw [h.file]
    exact fileBacked_journal h.fits
  · intro fp
    exact congrArg persisted (hentry fp)
  · intro fp hpoisoned
    rw [← hentry fp]
    exact hpoisoned

theorem written_new (path : JournalPath) :
    Written path [] ⟨[], deriveMacKey path, fun _ => none, false⟩ :=
  ⟨by simp, rfl, rfl, rfl, fun _ => rfl, fun _ => id⟩

section Writes
variable (h : Written path rs fb)
include h

/-- An entry that is looked up stays as it is. -/
theorem Written.touch (fp : Fingerprint) :
    Written path rs { fb with known := Function.update fb.known fp (some (fb.entry fp)) } := by
  have hsame : ∀ fp', entryOrDefault (Function.update fb.known fp (some (fb.entry fp))) fp' =
      fb.entry fp' := by
    intro fp'
    rw [entryOrDefault_update]
    by_cases hfp : fp = fp'
    · rw [if_pos hfp, hfp]
    · rw [if_neg hfp, FileBacked.entry]
  refine ⟨h.fits, h.file, h.macKey, h.intact, ?_, ?_⟩
  · intro fp'
    exact (congrArg PersistEntry.persisted (hsame fp')).trans (h.counter fp')
  · intro fp' hpoisoned
    exact h.poisoned fp' ((congrArg PersistEntry.poisoned (hsame fp')).symm.trans hpoisoned)

/-- A record is written and the entry in memory follows it. -/
theorem Written.write {r : Record} {e : PersistEntry} (hfits : r.Fits)
    (hcounter : e.persisted = ((replay rs r.fp).add r.kind).persisted)
    (hpoisoned : e.poisoned = true → ((replay rs r.fp).add r.kind).poisoned = true) :
    Written path (rs ++ [r]) (fb.write r e) := by
  refine ⟨?_, ?_, h.macKey, h.intact, ?_, ?_⟩
  · exact forall_mem_append.mpr ⟨h.fits, forall_mem_singleton.mpr hfits⟩
  · rw [FileBacked.write, h.macKey, h.file, writeRecord_journal]
  · intro fp
    rw [FileBacked.entry, FileBacked.write, entryOrDefault_update, replay_snoc]
    by_cases hfp : r.fp = fp
    · rw [if_pos hfp, if_pos hfp, ← hfp, hcounter]
    · rw [if_neg hfp, if_neg hfp]
      exact h.counter fp
  · intro fp
    rw [FileBacked.entry, FileBacked.write, entryOrDefault_update, replay_snoc]
    by_cases hfp : r.fp = fp
    · rw [if_pos hfp, if_pos hfp, ← hfp]
      exact hpoisoned
    · rw [if_neg hfp, if_neg hfp]
      exact h.poisoned fp

/-- The records only grow. -/
def Extends (path : JournalPath) (rs : List Record) (fb : FileBacked) : Prop :=
  ∃ more, Written path (rs ++ more) fb

theorem Written.extends : Extends path rs fb :=
  ⟨[], by rw [append_nil]; exact h⟩

/-- A count that is not below the counter is written as it is. -/
theorem Written.writeCount (hn : n ≤ aesGcmNonceLimit)
    (hle : (fb.entry fp).persisted ≤ n) :
    Extends path rs (fb.write ⟨fp, .count n⟩ { fb.entry fp with persisted := n }) := by
  refine ⟨_, h.write ?_ ?_ ?_⟩
  · intro m hm
    obtain rfl := RecordKind.count.inj hm
    exact hn
  · rw [h.counter fp] at hle
    dsimp only [add]
    split
    · rfl
    · omega
  · intro hpoisoned
    exact add_poisoned (h.poisoned fp hpoisoned) _

theorem Written.recordAdvance (fp : Fingerprint)
    (hn : n ≤ aesGcmNonceLimit) :
    (fb.recordAdvance fp n).1 = .ok () ∧ Extends path rs (fb.recordAdvance fp n).2 ∧
      min (n + 1) aesGcmNonceLimit ≤ ((fb.recordAdvance fp n).2.entry fp).persisted := by
  rw [FileBacked.recordAdvance, if_neg (by simp [h.intact])]
  dsimp only
  by_cases hwindow : (fb.entry fp).persisted ≠ 0 ∧ n < (fb.entry fp).persisted
  · rw [if_pos hwindow]
    refine ⟨rfl, (h.touch fp).extends, ?_⟩
    rw [FileBacked.entry, entryOrDefault_update, if_pos rfl]
    omega
  · rw [if_neg hwindow]
    refine ⟨rfl, h.writeCount (Nat.min_le_right _ _) (by omega), ?_⟩
    rw [FileBacked.entry, FileBacked.write, entryOrDefault_update, if_pos rfl]
    have hbatch : 1 ≤ batchThreshold := by decide
    dsimp only
    omega

theorem Written.flushFingerprint (fp : Fingerprint)
    (hn : n ≤ aesGcmNonceLimit) :
    (fb.flushFingerprint fp n).1 = .ok () ∧ Extends path rs (fb.flushFingerprint fp n).2 ∧
      n ≤ ((fb.flushFingerprint fp n).2.entry fp).persisted := by
  rw [FileBacked.flushFingerprint, if_neg (by simp [h.intact])]
  by_cases hdone : n ≤ (fb.entry fp).persisted
  · rw [if_pos hdone]
    refine ⟨rfl, (h.touch fp).extends, ?_⟩
    rw [FileBacked.entry, entryOrDefault_update, if_pos rfl]
    exact hdone
  · rw [if_neg hdone]
    refine ⟨rfl, h.writeCount hn (Nat.le_of_not_le hdone), ?_⟩
    rw [FileBacked.entry, FileBacked.write, entryOrDefault_update, if_pos rfl]

theorem Written.recordPoison (fp : Fingerprint) :
    Extends path rs (fb.recordPoison fp).2 ∧
      (fb.recordPoison fp).2.entry fp = ⟨aesGcmNonceLimit, true⟩ := by
  rw [FileBacked.recordPoison, if_neg (by simp [h.intact])]
  refine ⟨⟨_, h.write ?_ rfl fun _ => rfl⟩, ?_⟩
  · intro m hm
    cases hm
  · rw [FileBacked.entry, FileBacked.write, entryOrDefault_update, if_pos rfl]

end Writes

/-! ## Runs -/

/-- The operations, and closing and opening again. -/
inductive JournalEvent where
  | recordAdvance (fp : Fingerprint) (newCount : Nat)
  | flushFingerprint (fp : Fingerprint) (newCount : Nat)
  | recordPoison (fp : Fingerprint)
  | reopen

/-- The counts are at most the limit. -/
def JournalEvent.InRange : JournalEvent → Prop
  | .recordAdvance _ newCount => newCount ≤ aesGcmNonceLimit
  | .flushFingerprint _ newCount => newCount ≤ aesGcmNonceLimit
  | _ => True

/-- One operation; a file that cannot be opened leaves the journal as it was. -/
def journalStep (path : JournalPath) (fb : FileBacked) : JournalEvent → FileBacked
  | .recordAdvance fp newCount => (fb.recordAdvance fp newCount).2
  | .flushFingerprint fp newCount => (fb.flushFingerprint fp newCount).2
  | .recordPoison fp => (fb.recordPoison fp).2
  | .reopen => (fileBacked path fb.file).toOption.getD fb

/-- The journal on a new file. -/
def newJournal (path : JournalPath) : FileBacked := ⟨[], deriveMacKey path, fun _ => none, false⟩

theorem Written.step (h : Written path rs fb) {e : JournalEvent} (he : e.InRange) :
    Extends path rs (journalStep path fb e) := by
  cases e with
  | recordAdvance fp newCount => exact (h.recordAdvance fp he).2.1
  | flushFingerprint fp newCount => exact (h.flushFingerprint fp he).2.1
  | recordPoison fp => exact (h.recordPoison fp).1
  | reopen =>
    obtain ⟨fb', hopen, hwritten, _⟩ := h.reopen
    rw [journalStep, hopen]
    exact hwritten.extends

theorem Written.run (h : Written path rs fb) {events : List JournalEvent}
    (hevents : ∀ e ∈ events, e.InRange) : Extends path rs (run (journalStep path) fb events) := by
  induction events generalizing rs fb with
  | nil => exact h.extends
  | cons e events ih =>
    obtain ⟨more, hmore⟩ := h.step (hevents e mem_cons_self)
    obtain ⟨rest, hrest⟩ := ih hmore fun d hd => hevents d (mem_cons_of_mem _ hd)
    exact ⟨more ++ rest, by rw [← append_assoc]; exact hrest⟩

theorem replay_mono (hfits : ∀ r ∈ rs, r.Fits) {more : List Record} (hmore : ∀ r ∈ more, r.Fits) :
    (replay rs fp).persisted ≤ (replay (rs ++ more) fp).persisted ∧
      ((replay rs fp).poisoned = true → (replay (rs ++ more) fp).poisoned = true) := by
  induction more using List.reverseRecOn with
  | nil => rw [append_nil]; exact ⟨Nat.le_refl _, id⟩
  | append_singleton more r ih =>
    have hmore' : ∀ q ∈ more, q.Fits := fun q hq => hmore q (mem_append_left _ hq)
    obtain ⟨hcounter, hpoisoned⟩ := ih hmore'
    have hle : (replay (rs ++ more) fp).persisted ≤ aesGcmNonceLimit :=
      replay_le (forall_mem_append.mpr ⟨hfits, hmore'⟩) fp
    rw [← append_assoc, replay_snoc]
    by_cases hfp : r.fp = fp
    · rw [if_pos hfp]
      exact ⟨Nat.le_trans hcounter (le_add_persisted hle r.kind),
        fun h => add_poisoned (hpoisoned h) _⟩
    · rw [if_neg hfp]
      exact ⟨hcounter, hpoisoned⟩

theorem Extends.mono (h : Written path rs fb) {fb' : FileBacked} (h' : Extends path rs fb') :
    ∃ rs', Written path rs' fb' ∧ ∀ fp,
      (replay rs fp).persisted ≤ (replay rs' fp).persisted ∧
        ((replay rs fp).poisoned = true → (replay rs' fp).poisoned = true) := by
  obtain ⟨more, hmore⟩ := h'
  exact ⟨rs ++ more, hmore, fun fp => replay_mono h.fits fun r hr =>
    hmore.fits r (mem_append_right _ hr)⟩

/-- What was on the file before a run is on it when it is opened after the run. -/
theorem Written.reopened (h : Written path rs fb) {after : List JournalEvent}
    (hafter : ∀ e ∈ after, e.InRange) :
    ∃ rs' fb', fileBacked path (GuardedRun.run (journalStep path) fb after).file = .ok fb' ∧
      (∀ fp, fb'.persistedState fp = ((replay rs' fp).persisted, (replay rs' fp).poisoned)) ∧
      ∀ fp, (replay rs fp).persisted ≤ (replay rs' fp).persisted ∧
        ((replay rs fp).poisoned = true → (replay rs' fp).poisoned = true) := by
  obtain ⟨rs', h', hmono⟩ := Extends.mono h (h.run hafter)
  obtain ⟨fb', hopen, hreopened, hentry⟩ := h'.reopen
  refine ⟨rs', fb', hopen, fun fp => ?_, hmono⟩
  rw [hreopened.persistedState, hentry]

/-- **The journal is a faithful log.**  After any run on a new file, opening the file gives every
fingerprint its counter back, and reports what was poisoned or at the limit as poisoned; no
operation lowers a counter; what `record_advance` returned for stays below the counter on the
file, or the fingerprint is poisoned there; and what `record_poison` was called for stays poisoned
there. -/
theorem journal_is_faithful (path : JournalPath) (events : List JournalEvent)
    (hevents : ∀ e ∈ events, e.InRange) :
    (∃ fb', fileBacked path (run (journalStep path) (newJournal path) events).file = .ok fb' ∧
      ∀ fp, (fb'.persistedState fp).1 =
          ((run (journalStep path) (newJournal path) events).persistedState fp).1 ∧
        (((run (journalStep path) (newJournal path) events).persistedState fp).2 = true ∨
          ((run (journalStep path) (newJournal path) events).persistedState fp).1 =
            aesGcmNonceLimit → (fb'.persistedState fp).2 = true)) ∧
    (∀ e : JournalEvent, e.InRange → ∀ fp,
      ((run (journalStep path) (newJournal path) events).persistedState fp).1 ≤
        ((journalStep path (run (journalStep path) (newJournal path) events) e).persistedState
          fp).1) ∧
    (∀ before after fp n, events = before ++ .recordAdvance fp n :: after →
      ((run (journalStep path) (newJournal path) before).recordAdvance fp n).1 = .ok () →
      ∃ fb', fileBacked path (run (journalStep path) (newJournal path) events).file = .ok fb' ∧
        (n < (fb'.persistedState fp).1 ∨ (fb'.persistedState fp).2 = true)) ∧
    (∀ before after fp, events = before ++ .recordPoison fp :: after →
      ∃ fb', fileBacked path (run (journalStep path) (newJournal path) events).file = .ok fb' ∧
        (fb'.persistedState fp).2 = true) := by
  have hsplit : ∀ before e after, events = before ++ e :: after →
      run (journalStep path) (newJournal path) events = run (journalStep path)
        (journalStep path (run (journalStep path) (newJournal path) before) e) after := by
    rintro before e after rfl
    exact run_append _ _
  have hbefore : ∀ before e after, events = before ++ e :: after →
      (∃ rs, Written path rs (run (journalStep path) (newJournal path) before)) ∧
        ∀ e ∈ after, e.InRange := by
    rintro before e after rfl
    exact ⟨(written_new path).run fun e he => hevents e (by simp [he]),
      fun e he => hevents e (by simp [he])⟩
  obtain ⟨rs, h⟩ : ∃ rs, Written path rs (run (journalStep path) (newJournal path) events) :=
    (written_new path).run hevents
  obtain ⟨fb', hopen, h', hentry⟩ := h.reopen
  refine ⟨⟨fb', hopen, fun fp => ?_⟩, fun e he fp => ?_, ?_, ?_⟩
  · rw [h.persistedState, h'.persistedState, hentry, h.counter]
    refine ⟨rfl, ?_⟩
    rintro (hpoisoned | hfull)
    · exact h.poisoned fp hpoisoned
    · exact replay_full fp (Nat.le_of_eq hfull.symm)
  · obtain ⟨rs', hstep, hmono⟩ := Extends.mono h (h.step he)
    rw [h.persistedState, hstep.persistedState, h.counter, hstep.counter]
    exact (hmono fp).1
  · intro before after fp n hevent _
    have hn : n ≤ aesGcmNonceLimit := hevents (.recordAdvance fp n) (by simp [hevent])
    obtain ⟨⟨rs₀, h₀⟩, hafter⟩ := hbefore _ _ _ hevent
    obtain ⟨_, hadvance, hceiling⟩ := h₀.recordAdvance fp hn
    obtain ⟨rs₁, h₁, _⟩ := Extends.mono h₀ hadvance
    obtain ⟨rs₂, fb₂, hopen₂, hstate, hmono⟩ := h₁.reopened hafter
    refine ⟨fb₂, by rw [hsplit _ _ _ hevent]; exact hopen₂, ?_⟩
    rw [hstate]
    by_cases hfull : aesGcmNonceLimit ≤ (replay rs₂ fp).persisted
    · exact .inr (replay_full fp hfull)
    left
    have hgrown := (hmono fp).1
    have hcounter := h₁.counter fp
    dsimp only
    omega
  · intro before after fp hevent
    obtain ⟨⟨rs₀, h₀⟩, hafter⟩ := hbefore _ _ _ hevent
    obtain ⟨hpoison, hentry⟩ := h₀.recordPoison fp
    obtain ⟨rs₁, h₁, _⟩ := Extends.mono h₀ hpoison
    obtain ⟨rs₂, fb₂, hopen₂, hstate, hmono⟩ := h₁.reopened hafter
    refine ⟨fb₂, by rw [hsplit _ _ _ hevent]; exact hopen₂, ?_⟩
    rw [hstate]
    exact (hmono fp).2 (h₁.poisoned fp (by rw [hentry]))

end Journal

/-! ### A run -/

def samplePath : JournalPath := ⟨[0x6a], [0x2f, 0x6a]⟩

def sampleFingerprint : Fingerprint := ⟨List.replicate 32 7, rfl⟩

/-- An advance, closing and opening, a flush to the limit, and a poisoned key. -/
def sampleEvents : List JournalEvent :=
  [.recordAdvance sampleFingerprint 5, .reopen, .flushFingerprint sampleFingerprint (2 ^ 32),
    .recordPoison sampleFingerprint]

theorem journal_is_faithful_sample :
    ∃ fb', fileBacked samplePath
        (run (journalStep samplePath) (newJournal samplePath) sampleEvents).file = .ok fb' ∧
      (fb'.persistedState sampleFingerprint).2 = true :=
  (journal_is_faithful samplePath sampleEvents (by
    intro e he
    simp only [sampleEvents, mem_cons, not_mem_nil, or_false] at he
    rcases he with rfl | rfl | rfl | rfl
    · exact (by decide : 5 ≤ aesGcmNonceLimit)
    · trivial
    · exact Nat.le_refl (2 ^ 32)
    · trivial)).2.2.2 (sampleEvents.take 3) [] sampleFingerprint rfl

end CratonHsm.Awslc
