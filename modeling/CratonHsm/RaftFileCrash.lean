import CratonHsm.RaftFileLog

/-!
# A crash during an append

What is on disk after the process dies in `append_log`: the old files, with any piece of the
new lines behind the log and any piece of the new records behind the index.  Opening heals
every index, but the loader reads every line of the log: a piece of a line is no entry, so
the log is recovered exactly if the cut does not fall inside a line (`recovers_iff`).
-/

namespace CratonHsm
open PrefixFreeCode LineFile FileStorage List LogLineCodec

section Codec
variable [LogLineCodec]

/-- No line is read before its end. -/
def NoEarlyEnd (e : LogEntry) : Prop :=
  ∀ p, p <+: LogLineCodec.toLine e → p ≠ LogLineCodec.toLine e → LogLineCodec.fromLine p = none

/-- The files of the entries `old`, with bytes behind the log and behind the index. -/
def crashed (old : List LogEntry) (logBytes idxBytes : Bytes) : FileStorage where
  log := some (renderLog old ++ logBytes)
  idx := some (renderIndex 0 old ++ idxBytes)

/-- Opening succeeds, and the log is then the old entries and some of the batch, with a
complete index. -/
def Recovers (s : FileStorage) (old batch : List LogEntry) : Prop :=
  ∃ s', s.openStorage = .ok s' ∧ ∃ k, s'.loadLog = .ok (old ++ batch.take k) ∧
    s'.idx = some (renderIndex 0 (old ++ batch.take k))

/-- The bytes end with a whole line of the batch, whose line feed may be missing. -/
def WholeLines (batch : List LogEntry) (bytes : Bytes) : Prop :=
  ∃ k, bytes = renderLog (batch.take k) ∨
    ∃ e, batch[k]? = some e ∧ bytes = renderLog (batch.take k) ++ LogLineCodec.toLine e

theorem positions_take (offset : Nat) (es : List LogEntry) (k : Nat) :
    (positions offset es).take k = positions offset (es.take k) := by
  induction es generalizing offset k with
  | nil => simp [positions]
  | cons e es ih =>
    cases k with
    | zero => simp [positions]
    | succ k => rw [positions, take_succ_cons, ih, take_succ_cons, positions]

theorem openStorage_log {s s' : FileStorage} (h : s.openStorage = .ok s') : s'.log = s.log := by
  unfold FileStorage.openStorage at h
  split at h
  · cases h
    rfl
  split at h
  · cases h
    rfl
  split at h
  · cases h
  cases h
  rfl

/-- The lines of a log that ends in the middle of the line of `e`, or behind it. -/
theorem lines_tail {es : List LogEntry} (hes : ∀ e ∈ es, Storable e) {e : LogEntry}
    (he : Storable e) {tail : Bytes} (hp : tail <+: toLine e) (hne : tail ≠ []) :
    lines (renderLog es ++ tail) = es.map toLine ++ [tail] := by
  have hplain : ∀ l ∈ es.map toLine, Plain l := by
    intro l hl
    obtain ⟨f, hf, rfl⟩ := mem_map.mp hl
    exact (hes f hf).1
  have htail : ∀ b ∈ tail, b ≠ 10 ∧ b ≠ 13 := fun b hb => he.1.2 b (hp.subset hb)
  rw [renderLog, lines_joinLines hplain htail, if_neg hne]

/-- A piece of a line makes the whole log unreadable. -/
theorem parseEntries_torn {es : List LogEntry} (hes : ∀ e ∈ es, Storable e) {e : LogEntry}
    (he : Storable e) (hend : NoEarlyEnd e) {tail : Bytes} (hp : tail <+: toLine e)
    (hne : tail ≠ []) (hpart : tail ≠ toLine e) (log : List LogEntry) :
    parseEntries (lines (renderLog es ++ tail)) ≠ .ok log := by
  have hlen : tail.length ≤ maxLogEntryBytes := Nat.le_trans hp.length_le he.2.2
  have htail : parseEntries [tail] = .error (.codec "invalid log entry") := by
    simp only [parseEntries, if_neg hne, if_neg (Nat.not_lt.mpr hlen), hend tail hp hpart]
  rw [lines_tail hes he hp hne, parseEntries_map hes, htail]
  intro h
  cases h

/-- A log that is read as `old` and a part of the batch is recovered, whatever the index
says. -/
theorem recovers_of_lines {old batch : List LogEntry} (hold : ∀ e ∈ old, Storable e)
    (hbatch : ∀ e ∈ batch, Storable e) {logBytes idxBytes : Bytes} {k : Nat}
    (hlines : lines (renderLog old ++ logBytes) =
      (old ++ batch.take k).map toLine)
    (hidx : idxBytes <+: renderIndex (renderLog old).length batch) :
    Recovers (crashed old logBytes idxBytes) old batch := by
  have hes : ∀ e ∈ old ++ batch.take k, Storable e :=
    forall_mem_append.mpr ⟨hold, fun e he => hbatch e (mem_of_mem_take he)⟩
  have hparse : parseEntries (lines (renderLog old ++ logBytes)) = .ok (old ++ batch.take k) := by
    have hmap := parseEntries_map hes []
    rw [append_nil] at hmap
    rw [hlines, hmap, parseEntries, Except.map, append_nil]
  by_cases hcovers : indexCoversLog (renderLog old ++ logBytes)
      (some (renderIndex 0 old ++ idxBytes)) = true
  · refine ⟨crashed old logBytes idxBytes, ?_, k, hparse, ?_⟩
    · simp only [FileStorage.openStorage, crashed, hcovers, if_true]
    -- as many records as lines: the new ones are those of the entries read
    have hfull : ((old ++ batch.take k).map toLine).filter (· ≠ []) =
        (old ++ batch.take k).map toLine := by
      apply filter_eq_self.mpr
      intro l hl
      obtain ⟨e, he, rfl⟩ := mem_map.mp hl
      simpa using (hes e he).1.1
    simp only [indexCoversLog, hlines, hfull, Bool.and_eq_true, decide_eq_true_eq,
      length_map, length_append] at hcovers
    obtain ⟨⟨⟨-, hwhole⟩, -⟩, hcount⟩ := hcovers
    have holdlen : (renderIndex 0 old).length = 24 * old.length := by
      rw [renderIndex_eq, records_length recordAt_length, ← length_map (f := Prod.fst),
        map_fst_positions]
    have hnew : idxBytes.length = 24 * (batch.take k).length := by
      simp only [logIndexRecordLen] at hwhole hcount
      omega
    have hrecords : idxBytes = renderIndex (renderLog old).length (batch.take k) := by
      rw [renderIndex_eq] at hidx
      rw [eq_records_of_initial recordAt_length hidx hnew, positions_take, renderIndex_eq,
        ← prefix_iff_eq_take.mp (List.take_prefix k batch)]
    rw [crashed, hrecords, renderIndex_append, Nat.zero_add]
  · refine ⟨⟨some (renderLog old ++ logBytes), some (renderIndex 0 (old ++ batch.take k))⟩, ?_, k,
      hparse, rfl⟩
    simp only [FileStorage.openStorage, crashed, if_neg hcovers, hlines, scanRecords_map hes]

/-- **Recovery from a crash in `append_log`**: exactly when the log does not end inside a
line. -/
theorem recovers_iff {old batch : List LogEntry} (hold : ∀ e ∈ old, Storable e)
    (hbatch : ∀ e ∈ batch, Storable e ∧ NoEarlyEnd e) {logBytes idxBytes : Bytes}
    (hlog : logBytes <+: renderLog batch)
    (hidx : idxBytes <+: renderIndex (renderLog old).length batch) :
    Recovers (crashed old logBytes idxBytes) old batch ↔ WholeLines batch logBytes := by
  have hstorable : ∀ e ∈ batch, Storable e := fun e he => (hbatch e he).1
  have hgrown : ∀ k, ∀ e ∈ old ++ batch.take k, Storable e := fun k =>
    forall_mem_append.mpr ⟨hold, fun e he => hstorable e (mem_of_mem_take he)⟩
  constructor
  · rintro ⟨s', hopen, j, hload, -⟩
    obtain ⟨k, tail, rfl, hend⟩ := eq_of_prefix_joinLines hlog
    rw [← map_take] at *
    rcases hend with rfl | ⟨l, hl, htail, hne⟩
    · exact ⟨k, .inl (append_nil _)⟩
    obtain ⟨e, he, rfl⟩ : ∃ e, batch[k]? = some e ∧ toLine e = l := by
      rw [getElem?_map, Option.map_eq_some_iff] at hl
      exact hl
    by_cases hpart : tail = toLine e
    · exact ⟨k, .inr ⟨e, he, by rw [hpart]; rfl⟩⟩
    -- the loader stops at the piece of the line
    exfalso
    obtain ⟨hes, hearly⟩ := hbatch e (mem_of_getElem? he)
    have hcontent : s'.log = some (renderLog (old ++ batch.take k) ++ tail) := by
      rw [openStorage_log hopen, crashed, renderLog_append, renderLog, renderLog,
        append_assoc]
    rw [FileStorage.loadLog, hcontent] at hload
    exact parseEntries_torn (hgrown k) hes hearly htail hne hpart _ hload
  · rintro ⟨k, rfl | ⟨e, he, rfl⟩⟩
    · refine recovers_of_lines hold hstorable (k := k) ?_ hidx
      rw [← renderLog_append, lines_renderLog (hgrown k)]
    have hes := hstorable e (mem_of_getElem? he)
    refine recovers_of_lines hold hstorable (k := k + 1) ?_ hidx
    have hnext : batch.take (k + 1) = batch.take k ++ [e] := by
      rw [take_add_one, he, Option.toList_some]
    rw [← append_assoc, ← renderLog_append,
      lines_tail (hgrown k) hes (prefix_refl _) hes.1.1, hnext, ← append_assoc]
    simp only [map_append, map_cons, map_nil]

end Codec

/-! ## A torn line -/

namespace StorePair

attribute [local instance] sampleCodec

theorem sampleEntry_noEarlyEnd {i : Nat} (hi : i = 1 ∨ i = 2) : NoEarlyEnd (sampleEntry i) := by
  have hshort : ∀ i ∈ [1, 2], ∀ n < (jsonNoopEntry (sampleEntry i)).length,
      (sampleCodec.fromLine ((jsonNoopEntry (sampleEntry i)).take n)) = none := by decide +kernel
  intro p hp hne
  have htake := prefix_iff_eq_take.mp hp
  have hlt : p.length < (jsonNoopEntry (sampleEntry i)).length := by
    apply Nat.lt_of_le_of_ne hp.length_le
    intro heq
    exact hne (hp.eq_of_length heq)
  rw [htake]
  exact hshort i (by rcases hi with rfl | rfl <;> simp) _ hlt

theorem sampleEntry_storable : Storable (sampleEntry 1) ∧ Storable (sampleEntry 2) := by
  decide +kernel

/-- The new line is complete, the new index record is not. -/
theorem recovers_torn_index :
    Recovers (crashed [sampleEntry 1] (renderLog [sampleEntry 2]) (List.replicate 1 2))
      [sampleEntry 1] [sampleEntry 2] := by
  refine (recovers_iff ?_ ?_ (prefix_refl _) (by decide +kernel)).mpr ⟨1, .inl rfl⟩
  · intro e he
    rw [mem_singleton.mp he]
    exact sampleEntry_storable.1
  · intro e he
    rw [mem_singleton.mp he]
    exact ⟨sampleEntry_storable.2, sampleEntry_noEarlyEnd (.inr rfl)⟩

/-- Ten bytes of the new line are enough to make the log unreadable. -/
theorem torn_line_bricks_log :
    ¬ ∀ [LogLineCodec] (old batch : List LogEntry) (logBytes idxBytes : Bytes),
      (∀ e ∈ old, Storable e) → (∀ e ∈ batch, Storable e ∧ NoEarlyEnd e) →
      logBytes <+: renderLog batch → idxBytes <+: renderIndex (renderLog old).length batch →
      Recovers (crashed old logBytes idxBytes) old batch := by
  intro h
  have hrec := h [sampleEntry 1] [sampleEntry 2] ((renderLog [sampleEntry 2]).take 10) []
    (fun e he => mem_singleton.mp he ▸ sampleEntry_storable.1)
    (fun e he => mem_singleton.mp he ▸
      ⟨sampleEntry_storable.2, sampleEntry_noEarlyEnd (.inr rfl)⟩)
    (List.take_prefix _ _) nil_prefix
  obtain ⟨s', hopen, -⟩ := hrec
  have hfail : (crashed [sampleEntry 1] ((renderLog [sampleEntry 2]).take 10)
      []).openStorage.toOption = none := by decide +kernel
  rw [hopen] at hfail
  cases hfail

end StorePair

end CratonHsm
