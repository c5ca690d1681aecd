import Mathlib.Data.List.Infix

/-!
# Logs written term by term

A replicated log is written by one writer per term.  The writer of a term starts from a
log it holds and appends entries stamped with the term.  A `History` keeps, for every
term, the log its writer started from and the log it has written so far; a log is
`Recorded` when it is a prefix of what the term of its last entry has written.

Recorded logs are closed under prefixes, and two of them with entries of one term at one
position are equal up to there (`Recorded.matches`).  Entries are values of any type with
a term.
-/

namespace TermHistory
open List
variable {α : Type} {l m : List α} {t s : Nat}

/-- For every term, the log its writer started from and the log it has written. -/
structure History (α : Type) where
  start : Nat → List α
  written : Nat → List α

theorem getElem?_initial (h : l <+: m) {i : Nat} (hi : i < l.length) : m[i]? = l[i]? := by
  obtain ⟨r, rfl⟩ := h
  exact getElem?_append_left hi

theorem take_initial (h : l <+: m) {k : Nat} (hk : k ≤ l.length) : l.take k = m.take k := by
  obtain ⟨r, rfl⟩ := h
  exact (take_append_of_le_length hk).symm

/-- Entries of one term at one position: the two lists are equal up to there. -/
def Match (term : α → Nat) (l m : List α) : Prop :=
  ∀ i a b, l[i]? = some a → m[i]? = some b → term a = term b → l.take (i + 1) = m.take (i + 1)

theorem Match.prefix_left {term : α → Nat} {l l' m : List α} (h : Match term l m)
    (hl : l' <+: l) : Match term l' m := by
  intro i a b ha hb ht
  obtain ⟨hi, -⟩ := List.getElem?_eq_some_iff.mp ha
  have hla : l[i]? = some a := (getElem?_initial hl hi).trans ha
  rw [← h i a b hla hb ht]
  exact take_initial hl hi

theorem Match.of_initial {term : α → Nat} (h : l <+: m) : Match term l m := by
  intro i a b ha hb ht
  obtain ⟨hi, -⟩ := List.getElem?_eq_some_iff.mp ha
  exact take_initial h hi

namespace History

/-- No term has written anything. -/
def empty : History α := ⟨fun _ => [], fun _ => []⟩

/-- A prefix of what some term has written, with at least one entry of that term. -/
def Recorded (h : History α) (l : List α) : Prop :=
  l = [] ∨ ∃ t, (h.start t).length < l.length ∧ l <+: h.written t

/-- The writer of `t` starts from the log `l`. -/
def begin (h : History α) (t : Nat) (l : List α) : History α where
  start := Function.update h.start t l
  written := Function.update h.written t l

/-- The writer of `t` appends an entry. -/
def extend (h : History α) (t : Nat) (e : α) : History α where
  start := h.start
  written := Function.update h.written t (h.written t ++ [e])

section
variable (h : History α)
include h

@[simp] theorem begin_start_self (t : Nat) (l : List α) :
    (h.begin t l).start t = l := by simp [begin]

@[simp] theorem begin_written_self (t : Nat) (l : List α) :
    (h.begin t l).written t = l := by simp [begin]

theorem begin_start_of_ne (hs : s ≠ t) (l : List α) :
    (h.begin t l).start s = h.start s := by simp [begin, hs]

theorem begin_written_of_ne (hs : s ≠ t) (l : List α) :
    (h.begin t l).written s = h.written s := by simp [begin, hs]

@[simp] theorem extend_start (t : Nat) (e : α) : (h.extend t e).start = h.start :=
  rfl

@[simp] theorem extend_written_self (t : Nat) (e : α) :
    (h.extend t e).written t = h.written t ++ [e] := by simp [extend]

theorem extend_written_of_ne (hs : s ≠ t) (e : α) :
    (h.extend t e).written s = h.written s := by simp [extend, hs]

end

/-- Writers start from recorded logs of earlier terms and stamp what they append. -/
structure Valid (term : α → Nat) (h : History α) : Prop where
  start_initial : ∀ t, h.start t <+: h.written t
  start_lt : ∀ t, ∀ e ∈ h.start t, term e < t
  own : ∀ t, ∀ e ∈ (h.written t).drop (h.start t).length, term e = t
  start_recorded : ∀ t, h.Recorded (h.start t)

theorem valid_empty (term : α → Nat) : (empty : History α).Valid term where
  start_initial _ := prefix_rfl
  start_lt _ _ he := by cases he
  own _ _ he := by cases he
  start_recorded _ := .inl rfl

variable {term : α → Nat} {h : History α}

variable {t : Nat} {e : α} {l m : List α}

section Terms
variable (hv : h.Valid term)
include hv

/-- The term of an entry says which side of the start it lies on. -/
theorem Valid.written_term {i : Nat} (he : (h.written t)[i]? = some e) :
    i < (h.start t).length ∧ term e < t ∨ (h.start t).length ≤ i ∧ term e = t := by
  by_cases hi : i < (h.start t).length
  · refine .inl ⟨hi, hv.start_lt t e ?_⟩
    rw [getElem?_initial (hv.start_initial t) hi] at he
    exact mem_of_getElem? he
  · refine .inr ⟨Nat.le_of_not_lt hi, hv.own t e ?_⟩
    refine mem_of_getElem? (i := i - (h.start t).length) ?_
    rw [getElem?_drop, ← he]
    congr 1
    omega

/-- The last entry of a recorded log is of the term that recorded it. -/
theorem Valid.last_term (hlen : (h.start t).length < l.length) (hl : l <+: h.written t)
    (he : l.getLast? = some e) : term e = t := by
  rw [getLast?_eq_getElem?, ← getElem?_initial hl (by omega)] at he
  rcases hv.written_term he with ⟨hi, -⟩ | ⟨-, ht⟩
  · omega
  · exact ht

/-- Every prefix of what a term has written is recorded. -/
theorem Valid.recorded_initial (hl : l <+: h.written t) : h.Recorded l := by
  -- by strong induction on the term: below its start the log is of an earlier term
  induction t using Nat.strong_induction_on generalizing l with
  | _ t ih =>
    by_cases hlen : (h.start t).length < l.length
    · exact .inr ⟨t, hlen, hl⟩
    have hstart : l <+: h.start t :=
      prefix_of_prefix_length_le hl (hv.start_initial t) (Nat.le_of_not_lt hlen)
    rcases hv.start_recorded t with hnil | ⟨s, hs, hw⟩
    · rw [hnil] at hstart
      exact .inl (prefix_nil.mp hstart)
    have hne : h.start t ≠ [] := ne_nil_of_length_pos (by omega)
    have hlast := hv.last_term hs hw (getLast?_eq_some_getLast hne)
    have hlt := hv.start_lt t _ (getLast_mem hne)
    exact ih s (by omega) (hstart.trans hw)

theorem Recorded.initial {l' : List α} (hr : h.Recorded l) (hl : l' <+: l) : h.Recorded l' := by
  rcases hr with rfl | ⟨t, -, hw⟩
  · exact .inl (prefix_nil.mp hl)
  · exact hv.recorded_initial (hl.trans hw)

/-- A recorded log is written by the term of its last entry. -/
theorem Recorded.of_last (hr : h.Recorded l) (he : l.getLast? = some e) :
    (h.start (term e)).length < l.length ∧ l <+: h.written (term e) := by
  rcases hr with rfl | ⟨t, hlen, hw⟩
  · cases he
  rw [hv.last_term hlen hw he]
  exact ⟨hlen, hw⟩

/-- Up to an entry, a recorded log is written by the term of that entry. -/
theorem Recorded.take_of_get (hr : h.Recorded l) {i : Nat} (he : l[i]? = some e) :
    (h.start (term e)).length ≤ i ∧ l.take (i + 1) <+: h.written (term e) := by
  obtain ⟨hi, -⟩ := List.getElem?_eq_some_iff.mp he
  have hlen : (l.take (i + 1)).length = i + 1 := by rw [List.length_take]; omega
  have hlast : (l.take (i + 1)).getLast? = some e := by
    rw [List.getLast?_eq_getElem?, hlen, List.getElem?_take, if_pos (by omega)]
    exact he
  obtain ⟨hs, hw⟩ := (hr.initial hv (List.take_prefix _ _)).of_last hv hlast
  exact ⟨by omega, hw⟩

/-- **Log matching**: recorded logs that hold entries of one term at one position are
equal up to it. -/
theorem Recorded.matches (hl : h.Recorded l) (hm : h.Recorded m) : Match term l m := by
  intro i a b ha hb hterm
  obtain ⟨hi, -⟩ := List.getElem?_eq_some_iff.mp ha
  obtain ⟨hj, -⟩ := List.getElem?_eq_some_iff.mp hb
  obtain ⟨-, hla⟩ := hl.take_of_get hv ha
  obtain ⟨-, hmb⟩ := hm.take_of_get hv hb
  rw [← hterm] at hmb
  refine (List.prefix_of_prefix_length_le hla hmb ?_).eq_of_length ?_
  · simp only [List.length_take]
    omega
  · simp only [List.length_take]
    omega

/-- Terms do not decrease towards the end. -/
theorem Recorded.term_le_last (hr : h.Recorded l) {x : α} (he : e ∈ l) (hx : l.getLast? = some x) :
    term e ≤ term x := by
  obtain ⟨-, hw⟩ := hr.of_last hv hx
  obtain ⟨i, hi⟩ := List.getElem?_of_mem he
  obtain ⟨hlt, -⟩ := List.getElem?_eq_some_iff.mp hi
  rw [← getElem?_initial hw hlt] at hi
  rcases hv.written_term hi with ⟨-, ht⟩ | ⟨-, ht⟩ <;> omega

end Terms

/-! ## Growth -/

theorem Recorded.begin (hfree : h.written t = []) (hr : h.Recorded m) :
    (h.begin t l).Recorded m := by
  rcases hr with rfl | ⟨s, hlen, hw⟩
  · exact .inl rfl
  have hne : s ≠ t := by
    rintro rfl
    rw [hfree, prefix_nil] at hw
    rw [hw] at hlen
    exact Nat.not_lt_zero _ hlen
  refine .inr ⟨s, ?_, ?_⟩
  · rwa [begin_start_of_ne h hne]
  · rwa [begin_written_of_ne h hne]

/-- A writer may start in a term that has written nothing, from a recorded log of earlier
terms. -/
theorem Valid.begin (hv : h.Valid term) (hfree : h.written t = []) (hr : h.Recorded l)
    (hlt : ∀ e ∈ l, term e < t) : (h.begin t l).Valid term := by
  constructor
  all_goals
    intro s
    by_cases hs : s = t
  · rw [hs, begin_start_self, begin_written_self]
  · rw [begin_start_of_ne h hs, begin_written_of_ne h hs]
    exact hv.start_initial s
  · rw [hs, begin_start_self]
    exact hlt
  · rw [begin_start_of_ne h hs]
    exact hv.start_lt s
  · rw [hs, begin_start_self, begin_written_self, drop_length]
    intro e he
    cases he
  · rw [begin_start_of_ne h hs, begin_written_of_ne h hs]
    exact hv.own s
  · rw [hs, begin_start_self]
    exact hr.begin hfree
  · rw [begin_start_of_ne h hs]
    exact (hv.start_recorded s).begin hfree

theorem written_initial_extend (h : History α) (t s : Nat) (e : α) :
    h.written s <+: (h.extend t e).written s := by
  by_cases hs : s = t
  · rw [hs, extend_written_self]
    exact prefix_append _ _
  · rw [extend_written_of_ne h hs]

theorem Recorded.extend (hr : h.Recorded m) : (h.extend t e).Recorded m := by
  rcases hr with rfl | ⟨s, hlen, hw⟩
  · exact .inl rfl
  · exact .inr ⟨s, hlen, hw.trans (h.written_initial_extend t s e)⟩

/-- A writer appends entries of its own term. -/
theorem Valid.extend (hv : h.Valid term) (he : term e = t) : (h.extend t e).Valid term := by
  refine ⟨fun s => ?_, hv.start_lt, fun s => ?_, fun s => (hv.start_recorded s).extend⟩
  · exact (hv.start_initial s).trans (h.written_initial_extend t s e)
  intro x hx
  by_cases hs : s = t
  · subst hs
    rw [extend_written_self, extend_start,
      drop_append_of_le_length (hv.start_initial s).length_le] at hx
    rcases mem_append.mp hx with hold | hnew
    · exact hv.own s x hold
    · rw [mem_singleton.mp hnew]
      exact he
  · rw [extend_written_of_ne h hs, extend_start] at hx
    exact hv.own s x hx

end History

end TermHistory
