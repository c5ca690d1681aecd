import CratonHsm.RaftCommand

/-!
# The replicated log

`RaftLog` of `raft.rs`: a vector of entries with a committed and an applied
watermark.  `get` finds an entry by offset arithmetic from the index of the first
retained entry, and `truncate_after` and `entries_slice_from` find their cut by
binary search; all of them are only right on a log whose entries carry consecutive
indices.  That property is `Numbered`, and the second half of the module says what
each operation does on a numbered log.

`slice::partition_point` is specified on slices whose elements with the property all
come first; `partitionPoint` counts the leading elements with the property, which is
the same number there.
-/

namespace CratonHsm
open List

/-- `slice::partition_point`. -/
def partitionPoint {α : Type} (p : α → Bool) (l : List α) : Nat := (l.takeWhile p).length

/-- A safety invariant violated by a log mutation. -/
inductive RaftInvariantError where
  | truncateBelowCommitted (after committed : Nat)
  | truncateBelowApplied (after applied : Nat)
  deriving DecidableEq

/-- Log entries with commit and apply tracking. -/
structure RaftLog where
  entries : List LogEntry := []
  committed : Nat := 0
  applied : Nat := 0
  deriving DecidableEq

namespace RaftLog

/-- Append an entry to the log. -/
def append (l : RaftLog) (entry : LogEntry) : RaftLog :=
  { l with entries := l.entries ++ [entry] }

/-- The entry at a 1-based index: offset arithmetic from the first retained entry. -/
def get (l : RaftLog) (index : Nat) : Option LogEntry :=
  match l.entries with
  | [] => none
  | first :: _ =>
    if index = 0 ∨ index < first.index then none else l.entries[index - first.index]?

/-- Index of the last entry, or 0 if the log is empty. -/
def lastIndex (l : RaftLog) : Nat := l.entries.getLast?.elim 0 LogEntry.index

/-- Term of the last entry, or 0 if the log is empty. -/
def lastTerm (l : RaftLog) : Nat := l.entries.getLast?.elim 0 LogEntry.term

/-- The entries with `index >= from_index`. -/
def entriesSliceFrom (l : RaftLog) (fromIndex : Nat) : List LogEntry :=
  l.entries.drop (partitionPoint (fun e => e.index < fromIndex) l.entries)

/-- Remove the entries after index `after`; committed and applied entries are
refused. -/
def truncateAfter (l : RaftLog) (after : Nat) : Except RaftInvariantError RaftLog :=
  if after < l.committed then .error (.truncateBelowCommitted after l.committed)
  else if after < l.applied then .error (.truncateBelowApplied after l.applied)
  else .ok { l with
    entries := l.entries.take (partitionPoint (fun e => e.index ≤ after) l.entries) }

/-- Drop the entries with `index <= up_to` after a snapshot; the watermarks are
bumped if necessary. -/
def discardThrough (l : RaftLog) (upTo : Nat) : RaftLog where
  entries := l.entries.filter (fun e => upTo < e.index)
  committed := if l.committed < upTo then upTo else l.committed
  applied := if l.applied < upTo then upTo else l.applied

/-- Mark the entries up to `index` as committed; an index beyond the last entry is
ignored in a release build. -/
def commit (l : RaftLog) (index : Nat) : RaftLog :=
  if l.committed < index ∧ index ≤ l.lastIndex then { l with committed := index } else l

/-- Advance the applied index. -/
def apply (l : RaftLog) (index : Nat) : RaftLog :=
  if l.applied < index ∧ index ≤ l.committed then { l with applied := index } else l

section
variable (l : RaftLog)

@[simp] theorem append_entries (e : LogEntry) : (l.append e).entries = l.entries ++ [e] := rfl

@[simp] theorem append_committed (e : LogEntry) : (l.append e).committed = l.committed := rfl

@[simp] theorem append_applied (e : LogEntry) : (l.append e).applied = l.applied := rfl

@[simp] theorem commit_entries (i : Nat) : (l.commit i).entries = l.entries := by
  unfold commit; split <;> rfl

@[simp] theorem commit_applied (i : Nat) : (l.commit i).applied = l.applied := by
  unfold commit; split <;> rfl

/-- A commit moves the watermark to an index the log reaches, or not at all. -/
theorem commit_committed (i : Nat) : (l.commit i).committed = l.committed ∨
      (l.commit i).committed = i ∧ l.committed < i ∧ i ≤ l.lastIndex := by
  unfold commit
  split
  · rename_i h; exact .inr ⟨rfl, h⟩
  · exact .inl rfl

end

variable {l m : RaftLog}

theorem lastIndex_congr (h : l.entries = m.entries) :
    l.lastIndex = m.lastIndex := by
  unfold lastIndex; rw [h]

theorem lastTerm_congr (h : l.entries = m.entries) : l.lastTerm = m.lastTerm := by
  unfold lastTerm; rw [h]

variable {e : LogEntry}

theorem mem_of_get {l : RaftLog} {i : Nat} (h : l.get i = some e) :
    e ∈ l.entries := by
  unfold get at h
  split at h
  · cases h
  split at h
  · cases h
  · exact mem_of_getElem? h

/-- What a successful truncation leaves behind. -/
theorem truncateAfter_ok {after : Nat} (h : l.truncateAfter after = .ok m) :
    l.committed ≤ after ∧ l.applied ≤ after ∧ m = { l with
      entries := l.entries.take (partitionPoint (fun e => e.index ≤ after) l.entries) } := by
  unfold truncateAfter at h
  split at h
  · cases h
  rename_i hc
  split at h
  · cases h
  rename_i ha
  exact ⟨Nat.le_of_not_lt hc, Nat.le_of_not_lt ha, (Except.ok.inj h).symm⟩

end RaftLog

/-! ## Numbered logs -/

/-- The entries carry the consecutive indices `b`, `b + 1`, … -/
def Numbered (b : Nat) (l : List LogEntry) : Prop := ∀ k e, l[k]? = some e → e.index = b + k

namespace Numbered
variable {b : Nat} {l m : List LogEntry}

theorem nil (b : Nat) : Numbered b [] := by
  intro k e h
  cases h

theorem append_iff : Numbered b (l ++ m) ↔ Numbered b l ∧ Numbered (b + l.length) m := by
  constructor
  · intro h
    refine ⟨fun k e he => h k e ?_, fun k e he => ?_⟩
    · obtain ⟨hk, _⟩ := List.getElem?_eq_some_iff.mp he
      rw [List.getElem?_append_left hk, he]
    · have := h (l.length + k) e (by
        rw [List.getElem?_append_right (Nat.le_add_right _ _), Nat.add_sub_cancel_left, he])
      omega
  · rintro ⟨hl, hm⟩ k e he
    by_cases hk : k < l.length
    · rw [List.getElem?_append_left hk] at he
      exact hl k e he
    · rw [List.getElem?_append_right (Nat.le_of_not_lt hk)] at he
      have := hm _ e he
      omega

theorem singleton_iff : Numbered b [e] ↔ e.index = b := by
  constructor
  · intro h; exact h 0 e rfl
  rintro rfl k x hx
  cases k with
  | zero => cases hx; rfl
  | succ k => simp at hx

theorem cons_iff : Numbered b (e :: l) ↔ e.index = b ∧ Numbered (b + 1) l := by
  rw [← singleton_append, append_iff, singleton_iff]
  rfl

section Parts
variable (h : Numbered b l)
include h

theorem take (n : Nat) : Numbered b (l.take n) := by
  intro k e he
  rw [getElem?_take] at he
  split at he
  · exact h k e he
  · cases he

theorem drop (n : Nat) : Numbered (b + n) (l.drop n) := by
  intro k e he
  rw [getElem?_drop] at he
  have := h _ e he
  omega

theorem mem_index (he : e ∈ l) : b ≤ e.index ∧ e.index < b + l.length := by
  obtain ⟨k, hk, rfl⟩ := mem_iff_getElem.mp he
  have := h k l[k] (getElem?_eq_getElem hk)
  omega

/-- Keeping the entries above an index is cutting a prefix. -/
theorem filter_gt (s : Nat) : l.filter (fun e => s < e.index) = l.drop (s + 1 - b) := by
  induction l generalizing b with
  | nil => simp
  | cons e l ih =>
    obtain ⟨he, hl⟩ := cons_iff.mp h
    by_cases hs : s < e.index
    · have hall : ∀ x ∈ l, decide (s < x.index) = true := by
        intro x hx
        have := hl.mem_index hx
        simp only [decide_eq_true_eq]
        omega
      rw [filter_cons_of_pos (by simpa using hs), filter_eq_self.mpr hall,
        show s + 1 - b = 0 from by omega, drop_zero]
    · rw [filter_cons_of_neg (by simpa using hs), ih hl,
        show s + 1 - b = (s + 1 - (b + 1)) + 1 from by omega, drop_succ_cons]

/-- Keeping the entries up to an index is cutting a suffix. -/
theorem filter_le (s : Nat) : l.filter (fun e => e.index ≤ s) = l.take (s + 1 - b) := by
  induction l generalizing b with
  | nil => simp
  | cons e l ih =>
    obtain ⟨he, hl⟩ := cons_iff.mp h
    by_cases hs : e.index ≤ s
    · rw [filter_cons_of_pos (by simpa using hs), ih hl,
        show s + 1 - b = (s + 1 - (b + 1)) + 1 from by omega, take_succ_cons]
    have hnone : ∀ x ∈ l, ¬ decide (x.index ≤ s) = true := by
      intro x hx
      have := hl.mem_index hx
      simp only [decide_eq_true_eq]
      omega
    rw [filter_cons_of_neg (by simpa using hs), filter_eq_nil_iff.mpr hnone,
      show s + 1 - b = 0 from by omega, take_zero]

/-- The binary search of `truncate_after` and `entries_slice_from` on a numbered
log. -/
theorem partitionPoint_lt (s : Nat) :
    partitionPoint (fun e => e.index < s) l = min (s - b) l.length := by
  induction l generalizing b with
  | nil => simp [partitionPoint]
  | cons e l ih =>
    obtain ⟨he, hl⟩ := cons_iff.mp h
    have ih' := ih hl
    unfold partitionPoint at ih' ⊢
    by_cases hs : e.index < s
    · rw [takeWhile_cons_of_pos (by simpa using hs), length_cons, ih',
        length_cons]
      omega
    · rw [takeWhile_cons_of_neg (by simpa using hs), length_nil, length_cons]
      omega

theorem partitionPoint_le (s : Nat) :
    partitionPoint (fun e => e.index ≤ s) l = min (s + 1 - b) l.length := by
  rw [← h.partitionPoint_lt (s + 1)]
  simp only [Nat.lt_add_one_iff]

end Parts

end Numbered

namespace RaftLog
variable {l : RaftLog} {b : Nat}

section
variable (h : Numbered b l.entries)
include h

/-- On a numbered log, `get` is positional. -/
theorem get_of_numbered (hb : 0 < b) (i : Nat) :
    l.get i = if b ≤ i then l.entries[i - b]? else none := by
  unfold get
  rcases hl : l.entries with _ | ⟨first, rest⟩
  · simp
  rw [hl] at h
  have hfirst : first.index = b := (Numbered.cons_iff.mp h).1
  dsimp only
  by_cases hi : b ≤ i
  · rw [if_neg (by omega), if_pos hi, hfirst]
  · rw [if_pos (by omega), if_neg hi]

/-- **`get i` returns the entry whose index is `i`.** -/
theorem index_of_get (hb : 0 < b) {i : Nat} (he : l.get i = some e) : e.index = i := by
  rw [get_of_numbered h hb] at he
  split at he
  · have := h _ e he
    omega
  · cases he

theorem get_isSome_iff (hb : 0 < b) (i : Nat) :
    (l.get i).isSome ↔ b ≤ i ∧ i < b + l.entries.length := by
  rw [get_of_numbered h hb]
  split
  · rw [isSome_getElem?]
    omega
  · simp; omega

theorem lastIndex_of_numbered (hne : l.entries ≠ []) : l.lastIndex + 1 = b + l.entries.length := by
  unfold lastIndex
  have hpos : 0 < l.entries.length := length_pos_iff.mpr hne
  have hlast : l.entries[l.entries.length - 1]? = some (l.entries.getLast hne) := by
    rw [← getLast?_eq_getElem?, getLast?_eq_some_getLast hne]
  rw [getLast?_eq_some_getLast hne, Option.elim_some, h _ _ hlast]
  omega

end

/-- The last index of a log numbered from `s + 1`, read through the boundary `s`. -/
theorem max_lastIndex {s : Nat} (h : Numbered (s + 1) l.entries) :
    max l.lastIndex s = s + l.entries.length := by
  by_cases hne : l.entries = []
  · simp [lastIndex, hne]
  · have := lastIndex_of_numbered h hne
    omega

/-- On a log numbered from 1 the last index is the length. -/
theorem lastIndex_eq_length (h : Numbered 1 l.entries) : l.lastIndex = l.entries.length := by
  have := max_lastIndex (s := 0) h
  omega

section
variable (h : Numbered b l.entries)
include h

theorem entriesSliceFrom_of_numbered (i : Nat) :
    l.entriesSliceFrom i = l.entries.drop (i - b) := by
  unfold entriesSliceFrom
  rw [h.partitionPoint_lt]
  rcases Nat.le_total (i - b) l.entries.length with hle | hle
  · rw [Nat.min_eq_left hle]
  · rw [Nat.min_eq_right hle, drop_length, drop_eq_nil_of_le hle]

theorem discardThrough_entries (s : Nat) :
    (l.discardThrough s).entries = l.entries.drop (s + 1 - b) := h.filter_gt s

/-- What a successful truncation leaves of a numbered log. -/
theorem truncateAfter_entries {m : RaftLog} {after : Nat} (ht : l.truncateAfter after = .ok m) :
    m = { l with entries := l.entries.take (after + 1 - b) } := by
  obtain ⟨_, _, rfl⟩ := truncateAfter_ok ht
  rw [h.partitionPoint_le, ← take_eq_take_min]

end

end RaftLog

end CratonHsm
