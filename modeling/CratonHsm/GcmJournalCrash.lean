import CratonHsm.GcmJournalLog

/-!
# Crashes of the journal

`write_record` truncates the file and writes it again from the start, so a process that dies in
between leaves a beginning of the new file.  Once the marker and all old records are written
nothing is lost: the file has no footer and is read as it is.  Before that, records are gone: an
empty file is a new journal, and so is a piece of the marker, unless it is long enough to be taken
for another version.
-/

namespace CratonHsm.Awslc
open PrefixFreeCode AsciiText LineFile GuardedRun List
open CratonHsm.Auth (HsmError)

/-- Where `write_record` is when the process dies. -/
inductive CrashPoint where
  | beforeTruncation
  /-- The file was truncated, and so many bytes were written. -/
  | written (bytes : Nat)

/-- What is left of the file. -/
def crashFile (file macKey : Bytes) (r : Record) : CrashPoint → Bytes
  | .beforeTruncation => file
  | .written bytes => (writeRecord file macKey r).take bytes

/-- Not yet truncated; or there were no records; or so much of the marker is written that it is
taken for another version; or the marker and all old records are written. -/
def CrashPoint.Safe (file : Bytes) : CrashPoint → Prop
  | .beforeTruncation => True
  | .written bytes => readWithoutFooterOrMarker file = [] ∨ 23 ≤ bytes ∧ bytes < 26 ∨
    26 + (readWithoutFooterOrMarker file).length ≤ bytes

section Cut
variable {rs : List Record}

/-- A line of any kind never lowers a counter, and is at most one malformed line. -/
theorem Parsed.le_add {p : Parsed}
    (hle : ∀ fp, (entryOrDefault p.known fp).persisted ≤ aesGcmNonceLimit) (line : JournalLine) :
    (p.add line).malformed ≤ p.malformed + 1 ∧ ∀ fp,
      (entryOrDefault p.known fp).persisted ≤ (entryOrDefault (p.add line).known fp).persisted := by
  cases line with
  | skip => exact ⟨Nat.le_succ _, fun _ => Nat.le_refl _⟩
  | malformed => exact ⟨Nat.le_refl _, fun _ => Nat.le_refl _⟩
  | badValue fp' =>
    refine ⟨Nat.le_refl _, fun fp => ?_⟩
    rw [Parsed.add, entryOrDefault_update]
    by_cases hfp : fp' = fp
    · rw [if_pos hfp, hfp]
    · rw [if_neg hfp]
  | record r =>
    refine ⟨Nat.le_succ _, fun fp => ?_⟩
    rw [Parsed.add, entryOrDefault_update]
    by_cases hfp : r.fp = fp
    · rw [if_pos hfp, hfp]
      exact le_add_persisted (hle fp) r.kind
    · rw [if_neg hfp]

/-- **A file that is cut after whole records gives them back.** -/
theorem fileBacked_cut (path : JournalPath) (hfits : ∀ r ∈ rs, r.Fits) {tail : Bytes}
    (htail : ∀ b ∈ tail, b ≠ 10 ∧ b ≠ 13) :
    ∃ fb', fileBacked path (journalVersionMarker ++ (journalBody rs ++ tail)) = .ok fb' ∧
      ∀ fp, (replay rs fp).persisted ≤ (fb'.persistedState fp).1 := by
  obtain ⟨hmalformed, hentry⟩ := parsedRecords_spec hfits
  have hle : ∀ fp, (entryOrDefault (parsedRecords rs).known fp).persisted ≤ aesGcmNonceLimit := by
    intro fp
    rw [hentry]
    exact replay_le hfits fp
  have hparsed : (parseRecords (journalBody rs ++ tail)).malformed ≤ 1 ∧ ∀ fp,
      (replay rs fp).persisted ≤
        (entryOrDefault (parseRecords (journalBody rs ++ tail)).known fp).persisted := by
    rcases parseRecords_records rs htail with hsame | ⟨_, line, hmore⟩
    · rw [journalBody, hsame]
      refine ⟨by omega, fun fp => ?_⟩
      rw [hentry]
    · rw [journalBody, hmore]
      obtain ⟨hadd, hgrows⟩ := Parsed.le_add hle (parseLine line)
      refine ⟨by omega, fun fp => ?_⟩
      rw [← hentry]
      exact hgrows fp
  have hnone : splitFooter (journalBody rs ++ tail) = none :=
    splitFooter_eq_none (noHash_journalBody rs) fun hmem => (htail 10 hmem).1 rfl
  have hcheck : parseAndCheck (journalBody rs ++ tail) =
      .ok (parseRecords (journalBody rs ++ tail)).known := by
    have hmax : maxMalformedRecords = 16 := rfl
    rw [parseAndCheck, if_neg (by omega)]
  have hload : loadAndVerify (journalVersionMarker ++ (journalBody rs ++ tail))
      (deriveMacKey path) = .ok ((parseRecords (journalBody rs ++ tail)).known, false,
        (journalVersionMarker ++ (journalBody rs ++ tail)).length) := by
    rw [loadAndVerify, if_neg (append_ne_nil_of_left_ne_nil (by decide) _), checkVersion,
      if_pos (prefix_append _ _)]
    simp only [bind, Except.bind, pure, Except.pure, drop_left, hnone, hcheck]
  refine ⟨_, fileBacked_of_load hload, fun fp => ?_⟩
  rw [FileBacked.persistedState, if_neg (by simp)]
  exact hparsed.2 fp

theorem plain_of_prefix {piece line : Bytes} (h : piece <+: line)
    (hline : ∀ b ∈ line, b ≠ 10 ∧ b ≠ 13) : ∀ b ∈ piece, b ≠ 10 ∧ b ≠ 13 :=
  fun b hb => hline b (h.subset hb)

/-- The footer without its line feed. -/
def footerLine (macKey body : Bytes) : Bytes :=
  footerStart ++ utf8 (hexBytes (Sha256.hmac macKey (journalVersionMarker ++ body)))

theorem plain_footerLine (macKey body : Bytes) : ∀ b ∈ footerLine macKey body, b ≠ 10 ∧ b ≠ 13 := by
  intro b hb
  have hstart : footerStart.all (fun b => b ≠ 10 ∧ b ≠ 13) = true := by decide
  rcases mem_append.mp hb with hb | hb
  · exact of_decide_eq_true (all_eq_true.mp hstart b hb)
  have hascii : Ascii (hexBytes (Sha256.hmac macKey (journalVersionMarker ++ body))) :=
    fun c hc => Nat.lt_trans (mem_hexBytes hc).2 (by decide)
  obtain ⟨c, hc, _, hbc⟩ := mem_utf8_of_ascii hascii hb
  have hlow := (mem_hexBytes hc).1
  rw [← hbc] at hlow
  constructor
  · rintro rfl
    revert hlow
    decide
  · rintro rfl
    revert hlow
    decide

/-- A beginning of the new file with all the old records in it. -/
theorem fileBacked_take (path : JournalPath) {r : Record} (hfits : ∀ q ∈ rs ++ [r], q.Fits)
    {bytes : Nat}
    (hbytes : 26 + (journalBody rs).length ≤ bytes) :
    ∃ fb', fileBacked path ((journalFile (deriveMacKey path) (rs ++ [r])).take bytes) = .ok fb' ∧
      ∀ fp, (replay rs fp).persisted ≤ (fb'.persistedState fp).1 := by
  have hold : ∀ q ∈ rs, q.Fits := fun q hq => hfits q (mem_append_left _ hq)
  have hgrown : ∀ fp, (replay rs fp).persisted ≤ (replay (rs ++ [r]) fp).persisted := fun fp =>
    (replay_mono hold fun q hq => hfits q (mem_append_right _ hq)).1
  have hlength : journalVersionMarker.length = 26 := by decide
  generalize hkey : deriveMacKey path = key
  have hfile : journalFile key (rs ++ [r]) = journalVersionMarker ++ (journalBody rs ++
      joinLines [r.line, footerLine key (journalBody (rs ++ [r]))]) := by
    rw [journalFile, if_neg (by simp), journalBody_snoc, footer]
    simp [joinLines, footerLine]
  obtain ⟨k, rfl⟩ : ∃ k, bytes = journalVersionMarker.length + ((journalBody rs).length + k) :=
    ⟨bytes - 26 - (journalBody rs).length, by omega⟩
  have htake : (journalFile key (rs ++ [r])).take
      (journalVersionMarker.length + ((journalBody rs).length + k)) =
      journalVersionMarker ++ (journalBody rs ++
        (joinLines [r.line, footerLine key (journalBody (rs ++ [r]))]).take k) := by
    rw [hfile, take_length_add_append, take_length_add_append]
  obtain ⟨m, tail, hcut, hend⟩ := eq_of_prefix_joinLines
    (List.take_prefix k (joinLines [r.line, footerLine key (journalBody (rs ++ [r]))]))
  rw [htake, hcut]
  have hplain : ∀ line ∈ [r.line, footerLine key (journalBody (rs ++ [r]))],
      ∀ b ∈ line, b ≠ 10 ∧ b ≠ 13 := by
    simpa using ⟨r.plain_line.2, plain_footerLine key (journalBody (rs ++ [r]))⟩
  have htail : ∀ b ∈ tail, b ≠ 10 ∧ b ≠ 13 := by
    rcases hend with rfl | ⟨line, hline, hbegins, _⟩
    · simp
    · exact plain_of_prefix hbegins (hplain line (mem_of_getElem? hline))
  rcases m with _ | _ | m
  · exact fileBacked_cut path hold htail
  · obtain ⟨fb', hopen, hcounter⟩ := fileBacked_cut path hfits htail
    refine ⟨fb', ?_, fun fp => Nat.le_trans (hgrown fp) (hcounter fp)⟩
    rw [← hopen, journalBody_snoc]
    simp [joinLines]
  · have htail : tail = [] := by
      rcases hend with rfl | ⟨line, hline, _⟩
      · rfl
      · cases hline
    have hwhole : journalVersionMarker ++ (journalBody rs ++ (joinLines ([r.line,
        footerLine key (journalBody (rs ++ [r]))].take (m + 1 + 1)) ++ tail)) =
        journalFile (deriveMacKey path) (rs ++ [r]) := by
      rw [hkey, hfile, htail, append_nil, take_of_length_le (by simp)]
    rw [hwhole]
    refine ⟨_, fileBacked_journal hfits, fun fp => ?_⟩
    rw [FileBacked.persistedState, if_neg (by simp)]
    have hentry := (parsedRecords_spec hfits).2 fp
    exact Nat.le_trans (hgrown fp) (Nat.le_of_eq (congrArg PersistEntry.persisted hentry.symm))

end Cut

theorem journalBody_eq_nil {rs : List Record} (h : journalBody rs = []) : rs = [] := by
  by_contra hne
  have hlast := getLast?_journalBody hne
  rw [h] at hlast
  cases hlast

/-- A piece of the marker with the name of the format is taken for another version. -/
theorem fileBacked_marker (path : JournalPath) {bytes : Nat} (hlow : 23 ≤ bytes)
    (hhigh : bytes < 26) :
    fileBacked path (journalVersionMarker.take bytes) = .error .generalError := by
  have hversion : ∀ k : Fin 3, journalVersionMarker.take (23 + k.val) ≠ [] ∧
      ¬ journalVersionMarker <+: journalVersionMarker.take (23 + k.val) ∧
      utf8 "craton-hsm-gcm-journal ".toList <+: journalVersionMarker.take (23 + k.val) := by
    decide
  obtain ⟨hne, hmarker, hbegins⟩ := hversion ⟨bytes - 23, by omega⟩
  have hbytes : 23 + (bytes - 23) = bytes := by omega
  rw [hbytes] at hne hmarker hbegins
  generalize journalVersionMarker.take bytes = file at hne hmarker hbegins ⊢
  have hload : ∀ macKey, loadAndVerify file macKey = .error .generalError := by
    intro macKey
    rw [loadAndVerify, if_neg hne, checkVersion, if_neg hmarker, if_pos hbegins]
    rfl
  rw [fileBacked, hload]
  rfl

/-- **A crash at a safe point loses no counter**: opening the file fails, or every fingerprint is
poisoned or has at least the counter it had before the write. -/
theorem crash_keeps_counters (path : JournalPath) (events : List JournalEvent)
    (hevents : ∀ e ∈ events, e.InRange) (r : Record) (hr : r.Fits) (crash : CrashPoint)
    (hsafe : crash.Safe (run (journalStep path) (newJournal path) events).file) :
    (∃ e, fileBacked path (crashFile (run (journalStep path) (newJournal path) events).file
      (deriveMacKey path) r crash) = .error e) ∨
    ∃ fb', fileBacked path (crashFile (run (journalStep path) (newJournal path) events).file
        (deriveMacKey path) r crash) = .ok fb' ∧
      ∀ fp, (fb'.persistedState fp).2 = true ∨
        ((run (journalStep path) (newJournal path) events).persistedState fp).1 ≤
          (fb'.persistedState fp).1 := by
  obtain ⟨rs, h⟩ : ∃ rs, Written path rs (run (journalStep path) (newJournal path) events) :=
    (written_new path).run hevents
  generalize run (journalStep path) (newJournal path) events = fb at h hsafe ⊢
  have hbody : readWithoutFooterOrMarker fb.file = journalBody rs := by
    rw [h.file, readWithoutFooterOrMarker_journal]
  cases crash with
  | beforeTruncation =>
    right
    obtain ⟨fb', hopen, h', hentry⟩ := h.reopen
    refine ⟨fb', hopen, fun fp => .inr ?_⟩
    rw [h.persistedState, h'.persistedState, h.counter, h'.counter]
  | written bytes =>
    rw [CrashPoint.Safe, hbody] at hsafe
    rw [crashFile, h.file, writeRecord_journal]
    rcases hsafe with hempty | ⟨hlow, hhigh⟩ | hrecords
    · -- there was nothing to lose
      obtain rfl := journalBody_eq_nil hempty
      cases hopen : fileBacked path
          ((journalFile (deriveMacKey path) ([] ++ [r])).take bytes) with
      | error e => exact .inl ⟨e, rfl⟩
      | ok fb' =>
        refine .inr ⟨fb', rfl, fun fp => .inr ?_⟩
        rw [h.persistedState, h.counter]
        exact Nat.zero_le _
    · left
      have hlength : journalVersionMarker.length = 26 := by decide
      rw [journalFile, if_neg (by simp), append_assoc,
        take_append_of_le_length (by omega)]
      exact ⟨_, fileBacked_marker path hlow hhigh⟩
    · right
      have hfits : ∀ q ∈ rs ++ [r], q.Fits :=
        forall_mem_append.mpr ⟨h.fits, forall_mem_singleton.mpr hr⟩
      obtain ⟨fb', hopen, hcounter⟩ := fileBacked_take path hfits hrecords
      refine ⟨fb', hopen, fun fp => .inr ?_⟩
      rw [h.persistedState, h.counter]
      exact hcounter fp

/-- The file after one advance. -/
theorem file_recordAdvance : (run (journalStep samplePath) (newJournal samplePath)
    [.recordAdvance sampleFingerprint 5]).file =
      journalFile (deriveMacKey samplePath) [⟨sampleFingerprint, .count 1029⟩] :=
  writeRecord_journal [] ⟨sampleFingerprint, .count 1029⟩

/-- The process dies within the new record, when the old one is written again. -/
theorem crash_keeps_counters_sample :
    (∃ e, fileBacked samplePath (crashFile (run (journalStep samplePath) (newJournal samplePath)
      [.recordAdvance sampleFingerprint 5]).file (deriveMacKey samplePath)
        ⟨sampleFingerprint, .count 2053⟩ (.written 110)) = .error e) ∨
    ∃ fb', fileBacked samplePath (crashFile (run (journalStep samplePath) (newJournal samplePath)
        [.recordAdvance sampleFingerprint 5]).file (deriveMacKey samplePath)
          ⟨sampleFingerprint, .count 2053⟩ (.written 110)) = .ok fb' ∧
      ∀ fp, (fb'.persistedState fp).2 = true ∨
        ((run (journalStep samplePath) (newJournal samplePath)
          [.recordAdvance sampleFingerprint 5]).persistedState fp).1
        ≤ (fb'.persistedState fp).1 := by
  refine crash_keeps_counters samplePath [.recordAdvance sampleFingerprint 5] (fun e he => ?_)
    ⟨sampleFingerprint, .count 2053⟩ (fun n hn => ?_) (.written 110) (.inr (.inr ?_))
  · rw [mem_singleton.mp he]
    exact (by decide : 5 ≤ aesGcmNonceLimit)
  · cases hn
    decide
  · rw [file_recordAdvance, readWithoutFooterOrMarker_journal]
    decide

/-- **A crash right after the truncation resets the journal**: the counter was 1029 and is 0
again. -/
theorem crash_after_truncation_resets :
    (run (journalStep samplePath) (newJournal samplePath)
      [.recordAdvance sampleFingerprint 5]).persistedState sampleFingerprint = (1029, false) ∧
    ∃ fb', fileBacked samplePath (crashFile (run (journalStep samplePath) (newJournal samplePath)
        [.recordAdvance sampleFingerprint 5]).file (deriveMacKey samplePath)
          ⟨sampleFingerprint, .count 2053⟩ (.written 0)) = .ok fb' ∧
      fb'.persistedState sampleFingerprint = (0, false) := by
  refine ⟨?_, newJournal samplePath, ?_, rfl⟩
  · rfl
  rw [crashFile, take_zero]
  rfl

end CratonHsm.Awslc
