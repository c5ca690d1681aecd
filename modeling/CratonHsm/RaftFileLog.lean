import CratonHsm.GuardedRun
import CratonHsm.RaftFileStorage

/-!
# The file log and the list model

The two log files against the list of entries that they stand for.  The log file holds the
entries' lines; the index holds records of some of them, in order, for an append whose index
could not be opened leaves its entries out.  Truncation through the index then cuts at the
first *indexed* entry above the bound.  It agrees with the list model if the first entry
above the bound is indexed (`Covered`).
-/

namespace CratonHsm
open PrefixFreeCode LineFile FileStorage List LogLineCodec Option

/-! ## The records of the index -/

section Records
variable {after : Nat} {sub : List (LogEntry × Nat)} {p : LogEntry × Nat}

/-- The index record of an entry at its offset. -/
def recordAt (p : LogEntry × Nat) : Bytes := indexRecord p.1 p.2

theorem recordAt_length (p : LogEntry × Nat) : (recordAt p).length = 24 := by
  simp [recordAt, indexRecord]

theorem records_ne_nil (h : sub ≠ []) : sub.flatMap recordAt ≠ [] := by
  intro hnil
  have hlen := records_length recordAt_length sub
  rw [hnil, length_nil] at hlen
  have hpos := length_pos_iff.mpr h
  omega

/-- The entry's numbers are `u64`s. -/
def FitsRecord (p : LogEntry × Nat) : Prop := p.1.index < 2 ^ 64 ∧ p.2 < 2 ^ 64

theorem recordAt_index (h : FitsRecord p) (rest : Bytes) :
    ofLe8 ((recordAt p ++ rest).take 8) = p.1.index := by
  have htake : (recordAt p ++ rest).take 8 = le8 p.1.index := by
    simp [recordAt, indexRecord, append_assoc, take_left' (le8_length _)]
  rw [htake, ofLe8_le8 h.1]

theorem recordAt_offset (h : FitsRecord p) (rest : Bytes) :
    ofLe8 (((recordAt p ++ rest).drop 16).take 8) = p.2 := by
  have hhead : (le8 p.1.index ++ le8 p.1.term).length = 16 := by simp
  have hdrop : (recordAt p ++ rest).drop 16 = le8 p.2 ++ rest := by
    rw [recordAt, indexRecord, append_assoc, drop_left' hhead]
  rw [hdrop, take_left' (le8_length _), ofLe8_le8 h.2]

theorem recordAt_drop (p : LogEntry × Nat) (rest : Bytes) : (recordAt p ++ rest).drop 24 = rest :=
  drop_left' (recordAt_length p)

theorem firstRecordAfter_none (hfit : ∀ p ∈ sub, FitsRecord p)
    (h : ∀ p ∈ sub, p.1.index ≤ after) (i : Nat) :
    firstRecordAfter after sub.length i (sub.flatMap recordAt) = none := by
  induction sub generalizing i with
  | nil => rfl
  | cons p sub ih =>
    have hle := h p mem_cons_self
    rw [length_cons, firstRecordAfter, flatMap_cons,
      recordAt_index (hfit p mem_cons_self), if_neg (Nat.not_lt.mpr hle), recordAt_drop]
    exact ih (fun q hq => hfit q (mem_cons_of_mem _ hq))
      (fun q hq => h q (mem_cons_of_mem _ hq)) (i + 1)

theorem firstRecordAfter_some {pre post : List (LogEntry × Nat)}
    (hfit : ∀ q ∈ pre ++ p :: post, FitsRecord q) (hpre : ∀ q ∈ pre, q.1.index ≤ after)
    (hp : after < p.1.index) (i : Nat) :
    firstRecordAfter after (pre ++ p :: post).length i ((pre ++ p :: post).flatMap recordAt) =
      some (p.2, (i + pre.length) * 24) := by
  induction pre generalizing i with
  | nil =>
    have hfitp := hfit p mem_cons_self
    rw [nil_append, length_cons, firstRecordAfter, flatMap_cons,
      recordAt_index hfitp, if_pos hp, recordAt_offset hfitp, length_nil, Nat.add_zero]
  | cons q pre ih =>
    have hle := hpre q mem_cons_self
    rw [cons_append, length_cons, firstRecordAfter, flatMap_cons,
      recordAt_index (hfit q mem_cons_self), if_neg (Nat.not_lt.mpr hle), recordAt_drop,
      ih (fun r hr => hfit r (mem_cons_of_mem _ hr))
        (fun r hr => hpre r (mem_cons_of_mem _ hr)) (i + 1), length_cons]
    congr 3
    omega

theorem lastRecordOffset_snoc {init : List (LogEntry × Nat)} (h : FitsRecord p) :
    lastRecordOffset ((init ++ [p]).flatMap recordAt) = p.2 := by
  have hlen := records_length recordAt_length (init ++ [p])
  rw [length_append, length_singleton] at hlen
  have hcut : ((init ++ [p]).flatMap recordAt).length - logIndexRecordLen + 16 =
      (init.flatMap recordAt).length + 16 := by
    rw [hlen, records_length recordAt_length]
    show 24 * (init.length + 1) - 24 + 16 = 24 * init.length + 16
    omega
  rw [lastRecordOffset, hcut, flatMap_append, drop_length_add_append,
    flatMap_singleton]
  simpa using recordAt_offset h []

/-- The index holds a record with this index. -/
def HasRecord (idx : Bytes) (index : Nat) : Prop :=
  ∃ i, i < idx.length / logIndexRecordLen ∧
    ofLe8 ((idx.drop (logIndexRecordLen * i)).take 8) = index

theorem hasRecord_iff (hfit : ∀ p ∈ sub, FitsRecord p) {index : Nat} :
    HasRecord (sub.flatMap recordAt) index ↔ ∃ p ∈ sub, p.1.index = index := by
  have hcount : (sub.flatMap recordAt).length / logIndexRecordLen = sub.length := by
    rw [records_length recordAt_length, Nat.mul_div_cancel_left _ (by decide)]
  have hread : ∀ i, (hi : i < sub.length) →
      ofLe8 (((sub.flatMap recordAt).drop (logIndexRecordLen * i)).take 8) = sub[i].1.index := by
    intro i hi
    rw [records_drop recordAt_length, drop_eq_getElem_cons hi, flatMap_cons,
      recordAt_index (hfit _ (getElem_mem hi))]
  simp only [HasRecord, hcount]
  constructor
  · rintro ⟨i, hi, heq⟩
    exact ⟨sub[i], getElem_mem hi, (hread i hi).symm.trans heq⟩
  · rintro ⟨p, hp, heq⟩
    obtain ⟨i, hi, rfl⟩ := getElem_of_mem hp
    exact ⟨i, hi, (hread i hi).trans heq⟩

theorem setLen_of_le {bytes : Bytes} {n : Nat} (h : n ≤ bytes.length) :
    setLen bytes n = bytes.take n := by
  rw [setLen, Nat.sub_eq_zero_of_le h, replicate_zero, append_nil]

/-- With a nonempty index of entries of the log, truncation goes through the index. -/
theorem lookup_of_indexed {content : Bytes} (hne : sub ≠ [])
    (hfit : ∀ p ∈ sub, FitsRecord p) (hin : ∀ p ∈ sub, p.2 < content.length) (after : Nat) :
    lookupTruncateOffsets content (some (sub.flatMap recordAt)) after =
      some ((firstRecordAfter after sub.length 0 (sub.flatMap recordAt)).getD
        (content.length, (sub.flatMap recordAt).length)) := by
  have hlen := records_length recordAt_length sub
  have hwhole : ¬ (sub.flatMap recordAt = [] ∨
      (sub.flatMap recordAt).length % logIndexRecordLen ≠ 0) := by
    rintro (hnil | hmod)
    · exact records_ne_nil hne hnil
    · exact hmod (by rw [hlen]; exact Nat.mul_mod_right 24 _)
  have hlast : ¬ content.length ≤ lastRecordOffset (sub.flatMap recordAt) := by
    obtain ⟨init, p, rfl⟩ := (eq_nil_or_concat sub).resolve_left hne
    rw [concat_eq_append] at *
    have hp : p ∈ init ++ [p] := mem_append_right _ mem_cons_self
    rw [lastRecordOffset_snoc (hfit p hp)]
    exact Nat.not_le.mpr (hin p hp)
  have hcount : (sub.flatMap recordAt).length / logIndexRecordLen = sub.length := by
    rw [hlen, Nat.mul_div_cancel_left _ (by decide)]
  simp only [lookupTruncateOffsets, if_neg hwhole, if_neg hlast, hcount]

end Records

section Codec
variable [LogLineCodec] {sub : List (LogEntry × Nat)} {kept above : List LogEntry}

/-- The codec reads the entry's line back, and the line is short enough to be stored. -/
def Storable (e : LogEntry) : Prop :=
  Plain (LogLineCodec.toLine e) ∧ LogLineCodec.fromLine (LogLineCodec.toLine e) = some e ∧
  (LogLineCodec.toLine e).length ≤ maxLogEntryBytes

/-! ## Writing and reading back -/

theorem renderLog_cons (e : LogEntry) (es : List LogEntry) :
    renderLog (e :: es) = toLine e ++ 10 :: renderLog es := joinLines_cons _ _

theorem renderLog_append (es fs : List LogEntry) :
    renderLog (es ++ fs) = renderLog es ++ renderLog fs := by
  simp only [renderLog, map_append, joinLines_append]

theorem renderLog_length_cons (e : LogEntry) (es : List LogEntry) :
    (renderLog (e :: es)).length =
      (toLine e).length + 1 + (renderLog es).length := by
  rw [renderLog_cons, length_append, length_cons]
  omega

variable {es : List LogEntry}

theorem renderLog_eq_nil : renderLog es = [] ↔ es = [] := by
  cases es with
  | nil => simp [renderLog]
  | cons e es => simp [renderLog_cons]

theorem lines_renderLog (h : ∀ e ∈ es, Storable e) : lines (renderLog es) = es.map toLine := by
  have hplain : ∀ l ∈ es.map toLine, Plain l := by
    intro l hl
    obtain ⟨e, he, rfl⟩ := mem_map.mp hl
    exact (h e he).1
  have hlines := lines_joinLines hplain (show ∀ b ∈ ([] : Bytes), b ≠ 10 ∧ b ≠ 13 from nofun)
  simpa only [renderLog, append_nil, if_true] using hlines

theorem parseEntries_cons {e : LogEntry} (h : Storable e) (rest : List Bytes) :
    parseEntries (toLine e :: rest) = (parseEntries rest).map (e :: ·) := by
  obtain ⟨⟨hne, -⟩, hread, hlen⟩ := h
  rw [parseEntries, if_neg hne, if_neg (Nat.not_lt.mpr hlen), hread]
  cases parseEntries rest <;> rfl

section
variable (h : ∀ e ∈ es, Storable e)
include h

theorem parseEntries_map (rest : List Bytes) :
    parseEntries (es.map toLine ++ rest) = (parseEntries rest).map (es ++ ·) := by
  induction es with
  | nil =>
    rw [map_nil, nil_append]
    cases parseEntries rest <;> rfl
  | cons e es ih =>
    rw [map_cons, cons_append, parseEntries_cons (h e mem_cons_self),
      ih fun f hf => h f (mem_cons_of_mem _ hf)]
    cases parseEntries rest <;> rfl

theorem parseEntries_renderLog : parseEntries (lines (renderLog es)) = .ok es := by
  have hparse := parseEntries_map h []
  rw [append_nil] at hparse
  rw [lines_renderLog h, hparse, parseEntries, Except.map, append_nil]

theorem scanRecords_map (offset : Nat) :
    scanRecords offset (es.map toLine) = .ok (renderIndex offset es) := by
  induction es generalizing offset with
  | nil => rfl
  | cons e es ih =>
    obtain ⟨⟨hne, -⟩, hread, hlen⟩ := h e mem_cons_self
    have htail := ih (fun f hf => h f (mem_cons_of_mem _ hf))
      (offset + (toLine e).length + 1)
    simp only [map_cons, scanRecords, if_neg hne, if_neg (Nat.not_lt.mpr hlen), hread, htail,
      renderIndex]

theorem writeEntries_ok (log records : Bytes) :
    writeEntries es log records =
      (.ok (), log ++ renderLog es, records ++ renderIndex log.length es) := by
  induction es generalizing log records with
  | nil => simp [writeEntries, renderLog, renderIndex]
  | cons e es ih =>
    have hlen := (h e mem_cons_self).2.2
    have hoffset : (log ++ (toLine e ++ [10])).length =
        log.length + (toLine e).length + 1 := by
      simp [Nat.add_assoc]
    rw [writeEntries, if_neg (Nat.not_lt.mpr hlen), ih fun f hf => h f (mem_cons_of_mem _ hf),
      hoffset, renderIndex, renderLog_cons]
    simp

end

/-! ## Entries with their offsets -/

/-- The entries of a log with the offsets of their lines. -/
def positions : Nat → List LogEntry → List (LogEntry × Nat)
  | _, [] => []
  | offset, e :: es =>
    (e, offset) :: positions (offset + (LogLineCodec.toLine e).length + 1) es

theorem renderIndex_eq (offset : Nat) (es : List LogEntry) :
    renderIndex offset es = (positions offset es).flatMap recordAt := by
  induction es generalizing offset with
  | nil => rfl
  | cons e es ih => rw [renderIndex, positions, flatMap_cons, ih, recordAt]

theorem map_fst_positions (offset : Nat) (es : List LogEntry) :
    (positions offset es).map Prod.fst = es := by
  induction es generalizing offset with
  | nil => rfl
  | cons e es ih => rw [positions, map_cons, ih]

theorem mem_of_mem_positions {offset : Nat} {p : LogEntry × Nat} (h : p ∈ positions offset es) :
    p.1 ∈ es := by
  rw [← map_fst_positions offset es]
  exact mem_map_of_mem h

theorem positions_append (offset : Nat) (es fs : List LogEntry) :
    positions offset (es ++ fs) =
      positions offset es ++ positions (offset + (renderLog es).length) fs := by
  induction es generalizing offset with
  | nil => simp [positions, renderLog]
  | cons e es ih =>
    have hsum : offset + (toLine e).length + 1 + (renderLog es).length =
        offset + (renderLog (e :: es)).length := by
      rw [renderLog_length_cons]
      omega
    rw [cons_append, positions, positions, ih, hsum, cons_append]

theorem renderIndex_append (offset : Nat) (es fs : List LogEntry) :
    renderIndex offset (es ++ fs) =
      renderIndex offset es ++ renderIndex (offset + (renderLog es).length) fs := by
  rw [renderIndex_eq, positions_append, flatMap_append, ← renderIndex_eq, ← renderIndex_eq]

theorem offset_lt {offset : Nat} {p : LogEntry × Nat} (h : p ∈ positions offset es) :
    p.2 < offset + (renderLog es).length := by
  induction es generalizing offset with
  | nil => cases h
  | cons e es ih =>
    have hlen := renderLog_length_cons e es
    rcases mem_cons.mp h with rfl | htail
    · omega
    have hlt := ih htail
    omega

/-! ## The invariant -/

/-- The files stand for the log: the log file in full, the index for some of its entries. -/
structure Represents (s : FileStorage) (log : List LogEntry) : Prop where
  content : s.log.getD [] = renderLog log
  storable : ∀ e ∈ log, Storable e
  fits : ∀ p ∈ positions 0 log, FitsRecord p
  increasing : log.Pairwise (fun e f => e.index < f.index)
  indexed : ∃ sub : List (LogEntry × Nat), sub.Sublist (positions 0 log) ∧
    s.idx.getD [] = sub.flatMap recordAt

/-- The first entry above the bound is indexed, or there is no index. -/
def Covered (s : FileStorage) (after : Nat) : Prop :=
  ∀ log, s.loadLog = .ok log → s.idx.getD [] ≠ [] →
    ∀ e, log.find? (fun e => after < e.index) = some e → HasRecord (s.idx.getD []) e.index

namespace Represents
variable {s : FileStorage} {log : List LogEntry} {after : Nat}

theorem loadLog (h : Represents s log) : s.loadLog = .ok log := by
  unfold FileStorage.loadLog
  cases hs : s.log with
  | none =>
    have hcontent := h.content
    rw [hs, getD_none] at hcontent
    rw [renderLog_eq_nil.mp hcontent.symm]
  | some content =>
    have hcontent := h.content
    rw [hs, getD_some] at hcontent
    rw [hcontent]
    exact parseEntries_renderLog h.storable

/-- A log of increasing indices splits at a bound. -/
theorem split (h : Represents s log) (after : Nat) :
    ∃ above, log = log.filter (fun e => e.index ≤ after) ++ above ∧
      ∀ e ∈ above, after < e.index := by
  have hinc := h.increasing
  clear h
  induction log with
  | nil => exact ⟨[], rfl, nofun⟩
  | cons e log ih =>
    obtain ⟨hfirst, hrest⟩ := pairwise_cons.mp hinc
    by_cases he : e.index ≤ after
    · obtain ⟨above, hsplit, habove⟩ := ih hrest
      refine ⟨above, ?_, habove⟩
      rw [filter_cons_of_pos (by simpa using he), cons_append, ← hsplit]
    -- everything behind `e` lies above it
    have hlater : ∀ f ∈ e :: log, after < f.index := by
      intro f hf
      rcases mem_cons.mp hf with rfl | hf
      · omega
      have := hfirst f hf
      omega
    refine ⟨e :: log, ?_, hlater⟩
    rw [filter_eq_nil_iff.mpr fun f hf => by simpa using hlater f hf, nil_append]

/-- A first part of the log, with an index for it. -/
theorem keep (h : Represents s log) (hsplit : log = kept ++ above)
    {s' : FileStorage} (hcontent : s'.log.getD [] = renderLog kept)
    (hsub : sub.Sublist (positions 0 kept))
    (hidx : s'.idx.getD [] = sub.flatMap recordAt) : Represents s' kept where
  content := hcontent
  storable e he := h.storable e (hsplit ▸ mem_append_left _ he)
  fits p hp := h.fits p (by
    rw [hsplit, positions_append]
    exact mem_append_left _ hp)
  increasing := by
    have hinc := h.increasing
    rw [hsplit, pairwise_append] at hinc
    exact hinc.1
  indexed := ⟨sub, hsub, hidx⟩

section Truncation
variable (h : Represents s log)
include h

/-- Truncation through the index. -/
theorem truncate_indexed {content : Bytes} (hlog : s.log = some content)
    (hsub : sub.Sublist (positions 0 log)) (hne : sub ≠ [])
    (hidx : s.idx = some (sub.flatMap recordAt)) (hcov : Covered s after) :
    (s.truncateLogAfter after).1 = .ok () ∧
      Represents (s.truncateLogAfter after).2 (log.filter (fun e => e.index ≤ after)) := by
  have hcontent : content = renderLog log := by simpa [hlog] using h.content
  have hfit : ∀ p ∈ sub, FitsRecord p := fun p hp => h.fits p (hsub.subset hp)
  have hin : ∀ p ∈ sub, p.2 < content.length := fun p hp => by
    have hlt := offset_lt (hsub.subset hp)
    rw [hcontent]
    omega
  obtain ⟨above, hsplit, habove⟩ := h.split after
  have hkept : ∀ e ∈ log.filter (fun e => e.index ≤ after), e.index ≤ after := fun e he => by
    simpa using (mem_filter.mp he).2
  simp only [FileStorage.truncateLogAfter, hlog, hidx, lookup_of_indexed hne hfit hin]
  refine ⟨trivial, ?_⟩
  cases above with
  | nil =>
    -- nothing to cut
    rw [append_nil] at hsplit
    have hall : ∀ p ∈ sub, p.1.index ≤ after := fun p hp =>
      hkept _ (hsplit ▸ mem_of_mem_positions (hsub.subset hp))
    rw [firstRecordAfter_none hfit hall, getD_none, map_some,
      setLen_of_le (Nat.le_refl _), setLen_of_le (Nat.le_refl _), take_length,
      take_length, ← hsplit]
    exact h.keep (append_nil log).symm (by simpa using hcontent) hsub (by simp)
  | cons q above =>
    generalize hK : log.filter (fun e => e.index ≤ after) = kept at *
    -- `q` is the first entry above the bound; it is indexed
    have hfind : log.find? (fun e => after < e.index) = some q := by
      rw [hsplit, find?_append,
        find?_eq_none.mpr fun e he => by simpa using hkept e he, none_or,
        find?_cons_of_pos (by simpa using habove q mem_cons_self)]
    have hrecord := hcov log h.loadLog
      (by rw [hidx, getD_some]; exact records_ne_nil hne) q hfind
    rw [hidx, getD_some, hasRecord_iff hfit] at hrecord
    obtain ⟨p, hp, hpq⟩ := hrecord
    rw [hsplit, positions_append, Nat.zero_add, positions] at hsub
    obtain ⟨pre, rest, rfl, hpresub, hrest⟩ := sublist_append_iff.mp hsub
    have hprele : ∀ r ∈ pre, r.1.index ≤ after := fun r hr =>
      hkept _ (mem_of_mem_positions (hpresub.subset hr))
    have hqafter : after < q.index := habove q mem_cons_self
    obtain ⟨post, rfl⟩ : ∃ post, rest = (q, (renderLog kept).length) :: post := by
      cases hrest with
      | cons_cons _ hpost => exact ⟨_, rfl⟩
      | cons _ hlater =>
        -- the record of `q` would be missing
        have hinc := h.increasing
        rw [hsplit, pairwise_append, pairwise_cons] at hinc
        rcases mem_append.mp hp with hin | hin
        · have := hprele p hin
          omega
        · have := hinc.2.1.1 _ (mem_of_mem_positions (hlater.subset hin))
          omega
    rw [firstRecordAfter_some hfit hprele hqafter, getD_some, Nat.zero_add, map_some]
    refine h.keep hsplit ?_ hpresub ?_
    · -- the log is cut where the line of `q` starts
      have hle : (renderLog kept).length ≤ content.length := by
        rw [hcontent, hsplit, renderLog_append, length_append]
        omega
      rw [getD_some, setLen_of_le hle, hcontent, hsplit, renderLog_append, take_left]
    · have hle : pre.length * 24 ≤ ((pre ++ (q, (renderLog kept).length) :: post).flatMap
          recordAt).length := by
        rw [records_length recordAt_length, length_append]
        omega
      rw [getD_some, setLen_of_le hle, Nat.mul_comm, records_take recordAt_length,
        take_left]

/-- Truncation by rewriting both files. -/
theorem truncate_rewrite {content : Bytes} (hlog : s.log = some content)
    (hidx : s.idx.getD [] = []) :
    (s.truncateLogAfter after).1 = .ok () ∧
      Represents (s.truncateLogAfter after).2 (log.filter (fun e => e.index ≤ after)) := by
  obtain rfl : content = renderLog log := by simpa [hlog] using h.content
  have hlookup : lookupTruncateOffsets (renderLog log) s.idx after = none := by
    cases hs : s.idx with
    | none => rfl
    | some bytes =>
      rw [hs, getD_some] at hidx
      simp [lookupTruncateOffsets, hidx]
  obtain ⟨above, hsplit, -⟩ := h.split after
  simp only [FileStorage.truncateLogAfter, hlog, hlookup, parseEntries_renderLog h.storable]
  exact ⟨trivial, h.keep hsplit rfl (List.Sublist.refl _) (renderIndex_eq 0 _)⟩

/-- **A covered truncation agrees with the list model.** -/
theorem truncate (hcov : Covered s after) :
    (s.truncateLogAfter after).1 = .ok () ∧
      Represents (s.truncateLogAfter after).2 (log.filter (fun e => e.index ≤ after)) := by
  obtain ⟨sub, hsub, hidx⟩ := h.indexed
  cases hlog : s.log with
  | none =>
    have hcontent := h.content
    rw [hlog, getD_none] at hcontent
    obtain rfl := renderLog_eq_nil.mp hcontent.symm
    simp only [FileStorage.truncateLogAfter, hlog]
    exact ⟨trivial, h⟩
  | some content =>
    by_cases hne : sub = []
    · subst hne
      exact h.truncate_rewrite hlog hidx
    have hsome : s.idx = some (sub.flatMap recordAt) := by
      cases hs : s.idx with
      | none =>
        rw [hs, getD_none] at hidx
        exact absurd hidx.symm (records_ne_nil hne)
      | some bytes =>
        rw [hs, getD_some] at hidx
        rw [hidx]
    exact h.truncate_indexed hlog hsub hne hsome hcov

theorem fits_index {e : LogEntry} (he : e ∈ log) : e.index < 2 ^ 64 := by
  rw [← map_fst_positions 0 log] at he
  obtain ⟨p, hp, rfl⟩ := mem_map.mp he
  exact (h.fits p hp).1

theorem append (indexOpens : Bool) {es : List LogEntry}
    (hes : ∀ e ∈ es, Storable e ∧ e.index < 2 ^ 64)
    (hinc : (log ++ es).Pairwise (fun e f => e.index < f.index))
    (hsmall : (renderLog (log ++ es)).length < 2 ^ 64) :
    (s.appendLog indexOpens es).1 = .ok () ∧
      Represents (s.appendLog indexOpens es).2 (log ++ es) := by
  by_cases hnil : es = []
  · subst hnil
    rw [append_nil]
    simp only [FileStorage.appendLog, if_true]
    exact ⟨trivial, h⟩
  have hstorable : ∀ e ∈ es, Storable e := fun e he => (hes e he).1
  obtain ⟨sub, hsub, hidx⟩ := h.indexed
  have hgrown : sub.Sublist (positions 0 (log ++ es)) := by
    rw [positions_append]
    exact hsub.trans (sublist_append_left _ _)
  simp only [FileStorage.appendLog, if_neg hnil, writeEntries_ok hstorable, nil_append]
  refine ⟨trivial, ?_⟩
  constructor
  · rw [getD_some, h.content, renderLog_append]
  · exact forall_mem_append.mpr ⟨h.storable, hstorable⟩
  · intro p hp
    have hlt := offset_lt hp
    refine ⟨?_, by omega⟩
    rcases mem_append.mp (mem_of_mem_positions hp) with he | he
    · exact h.fits_index he
    · exact (hes _ he).2
  · exact hinc
  · rcases indexOpens with _ | _
    · exact ⟨sub, hgrown, hidx⟩
    -- the new records go behind the old ones
    refine ⟨sub ++ positions (renderLog log).length es, ?_, ?_⟩
    · rw [positions_append, Nat.zero_add]
      exact hsub.append (List.Sublist.refl _)
    · simp only [if_true, map_some, getD_some, hidx, h.content,
        flatMap_append, renderIndex_eq]

/-- Opening keeps a complete index and rebuilds any other. -/
theorem reopen : ∃ s', s.openStorage = .ok s' ∧ Represents s' log := by
  unfold FileStorage.openStorage
  rcases hlog : s.log with _ | content
  · exact ⟨s, rfl, h⟩
  obtain rfl : content = renderLog log := by simpa [hlog] using h.content
  by_cases hcovers : indexCoversLog (renderLog log) s.idx = true
  · exact ⟨s, by simp only [hcovers, if_true], h⟩
  · refine ⟨⟨some (renderLog log), some (renderIndex 0 log)⟩, ?_, ?_⟩
    · simp only [if_neg hcovers, lines_renderLog h.storable, scanRecords_map h.storable]
    · exact h.keep (append_nil log).symm rfl (List.Sublist.refl _) (renderIndex_eq 0 log)

end Truncation

end Represents

/-! ## Runs -/

/-- A call on the storage, or a restart. -/
inductive FileEvent where
  | appendLog (indexOpens : Bool) (entries : List LogEntry)
  | truncateLogAfter (after : Nat)
  /-- The storage is closed and opened again. -/
  | reopen

/-- A file store and an in-memory store under the same calls. -/
structure StorePair where
  file : FileStorage := {}
  memory : InMemoryStorage := {}

namespace StorePair

def step (c : StorePair) : FileEvent → StorePair
  | .appendLog indexOpens entries =>
    ⟨(c.file.appendLog indexOpens entries).2, (RaftStorage.appendLog c.memory entries).2⟩
  | .truncateLogAfter after =>
    ⟨(c.file.truncateLogAfter after).2, (RaftStorage.truncateLogAfter c.memory after).2⟩
  | .reopen =>
    match c.file.openStorage with
    | .ok file => { c with file := file }
    | .error _ => c

/-- Appended entries can be stored, and continue the log with increasing indices; the file
stays within the range of its offsets. -/
def Appends (c : StorePair) : FileEvent → Prop
  | .appendLog _ entries =>
    (∀ e ∈ entries, Storable e ∧ e.index < 2 ^ 64) ∧
    (c.memory.log ++ entries).Pairwise (fun e f => e.index < f.index) ∧
    (renderLog (c.memory.log ++ entries)).length < 2 ^ 64
  | _ => True

/-- Truncations are covered by the index. -/
def Covers (c : StorePair) : FileEvent → Prop
  | .truncateLogAfter after => Covered c.file after
  | _ => True

theorem represents_step {c : StorePair} (h : Represents c.file c.memory.log) {e : FileEvent}
    (happ : c.Appends e) (hcov : c.Covers e) :
    Represents (c.step e).file (c.step e).memory.log := by
  cases e with
  | appendLog indexOpens entries => exact (h.append indexOpens happ.1 happ.2.1 happ.2.2).2
  | truncateLogAfter after => exact (h.truncate hcov).2
  | reopen =>
    obtain ⟨s, hs, hrep⟩ := h.reopen
    simp only [step, hs]
    exact hrep

/-- **The file log refines the list model** in every run whose truncations are covered. -/
theorem loadLog_run {events : List FileEvent}
    (h : GuardedRun.Along step (fun c e => c.Appends e ∧ c.Covers e) {} events) :
    (GuardedRun.run step {} events).file.loadLog =
      RaftStorage.loadLog (GuardedRun.run step {} events).memory := by
  have hempty : Represents ({} : StorePair).file ({} : StorePair).memory.log :=
    ⟨rfl, nofun, nofun, List.Pairwise.nil, [], List.Sublist.refl _, rfl⟩
  have hrun := GuardedRun.induction_run (I := fun c => Represents c.file c.memory.log)
    (fun c e hc hP => represents_step hc hP.1 hP.2) hempty h
  exact hrun.loadLog

end StorePair
end Codec

/-! ## An append without the index -/

instance [LogLineCodec] (e : LogEntry) : Decidable (Storable e) :=
  inferInstanceAs (Decidable ((_ ∧ ∀ b ∈ _, _) ∧ _ ∧ _))

instance (idx : Bytes) (index : Nat) : Decidable (HasRecord idx index) :=
  decidable_of_iff (∃ i ∈ List.range (idx.length / logIndexRecordLen),
    ofLe8 ((idx.drop (logIndexRecordLen * i)).take 8) = index) (by simp [HasRecord])

namespace StorePair

/-- The codec of the first three entries. -/
@[reducible]
def sampleCodec : LogLineCodec := jsonLineCodec [sampleEntry 1, sampleEntry 2, sampleEntry 3]

attribute [local instance] sampleCodec

instance (c : StorePair) (e : FileEvent) : Decidable (c.Appends e) :=
  match e with
  | .appendLog _ _ => inferInstanceAs (Decidable ((∀ e ∈ _, _ ∧ _) ∧ _ ∧ _))
  | .truncateLogAfter _ => inferInstanceAs (Decidable True)
  | .reopen => inferInstanceAs (Decidable True)

/-- The third entry is appended while the index cannot be opened. -/
def unindexedAppend : List FileEvent :=
  [.appendLog true [sampleEntry 1, sampleEntry 2], .appendLog false [sampleEntry 3]]

/-- With a reopening before the truncation the index is complete again. -/
theorem loadLog_run_reopened :
    (GuardedRun.run step {} (unindexedAppend ++ [.reopen, .truncateLogAfter 2])).file.loadLog =
      RaftStorage.loadLog
        (GuardedRun.run step {} (unindexedAppend ++ [.reopen, .truncateLogAfter 2])).memory := by
  refine loadLog_run ⟨⟨by decide +kernel, trivial⟩, ⟨by decide +kernel, trivial⟩,
    ⟨trivial, trivial⟩, ⟨trivial, ?_⟩, trivial⟩
  intro log hlog _ e he
  have hthree : log = [sampleEntry 1, sampleEntry 2, sampleEntry 3] :=
    (Except.ok.inj (hlog.symm.trans (by rfl)))
  subst hthree
  obtain rfl : e = sampleEntry 3 := (some.inj (he.symm.trans (by decide)))
  decide +kernel

/-- Without it, the truncation looks at the index alone and removes nothing. -/
theorem unindexed_entry_survives_truncation :
    ¬ ∀ [LogLineCodec] (events : List FileEvent),
      GuardedRun.Along step (fun c e => c.Appends e) {} events →
      (GuardedRun.run step {} events).file.loadLog =
        RaftStorage.loadLog (GuardedRun.run step {} events).memory := by
  intro h
  have hrule : GuardedRun.Along step (fun c e => c.Appends e) {}
      (unindexedAppend ++ [.truncateLogAfter 2]) :=
    ⟨by decide +kernel, by decide +kernel, trivial, trivial⟩
  have heq := h (unindexedAppend ++ [.truncateLogAfter 2]) hrule
  have hlen := congrArg (fun r => r.toOption.map List.length) heq
  revert hlen
  decide +kernel

end StorePair

end CratonHsm
