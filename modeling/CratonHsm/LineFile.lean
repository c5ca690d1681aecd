import CratonHsm.ByteFields

/-!
# Files of lines and of records

A text file as the lines of its bytes, and an index file as a sequence of records of one
width.  A file written line by line is read back line by line (`lines_joinLines`); what is
left of it after a cut is a number of whole lines and a piece of the next one
(`eq_of_prefix_joinLines`).
-/

namespace LineFile
open PrefixFreeCode List

/-- Every line ends with a line feed. -/
def joinLines (ls : List Bytes) : Bytes := ls.flatMap (· ++ [10])

/-- The lines from here on, with the beginning of the current line. -/
def linesFrom : Bytes → Bytes → List Bytes
  | current, [] => if current = [] then [] else [current]
  | current, b :: rest =>
    if b = 10 then current :: linesFrom [] rest else linesFrom (current ++ [b]) rest

/-- A line end may be written with a carriage return. -/
def stripCr (line : Bytes) : Bytes := if line.getLast? = some 13 then line.dropLast else line

/-- The lines of a file; the last one may lack its line feed. -/
def lines (bytes : Bytes) : List Bytes := (linesFrom [] bytes).map stripCr

/-- A line that is read back as it is written. -/
def Plain (line : Bytes) : Prop := line ≠ [] ∧ ∀ b ∈ line, b ≠ 10 ∧ b ≠ 13

@[simp] theorem joinLines_nil : joinLines [] = [] := rfl

theorem joinLines_cons (l : Bytes) (ls : List Bytes) :
    joinLines (l :: ls) = l ++ 10 :: joinLines ls := by
  simp [joinLines]

theorem joinLines_append (ls ms : List Bytes) :
    joinLines (ls ++ ms) = joinLines ls ++ joinLines ms := flatMap_append

variable {line : Bytes}

theorem linesFrom_line (h : ∀ b ∈ line, b ≠ 10) (current rest : Bytes) :
    linesFrom current (line ++ 10 :: rest) = (current ++ line) :: linesFrom [] rest := by
  induction line generalizing current with
  | nil => simp [linesFrom]
  | cons b line ih =>
    have hb : b ≠ 10 := h b mem_cons_self
    rw [cons_append, linesFrom, if_neg hb, ih (fun c hc => h c (mem_cons_of_mem _ hc)),
      append_assoc, singleton_append]

theorem linesFrom_tail (h : ∀ b ∈ line, b ≠ 10) (current : Bytes) :
    linesFrom current line = if current ++ line = [] then [] else [current ++ line] := by
  induction line generalizing current with
  | nil => simp [linesFrom]
  | cons b line ih =>
    have hb : b ≠ 10 := h b mem_cons_self
    rw [linesFrom, if_neg hb, ih (fun c hc => h c (mem_cons_of_mem _ hc)),
      append_assoc, singleton_append]

theorem stripCr_of_ne (h : ∀ b ∈ line, b ≠ 13) : stripCr line = line := by
  unfold stripCr
  split
  · rename_i hlast
    exact absurd rfl (h 13 (mem_of_getLast? hlast))
  · rfl

/-- **A file of plain lines is read back**, with the line that its end leaves
unfinished. -/
theorem lines_joinLines {ls : List Bytes} (hls : ∀ l ∈ ls, Plain l) {tail : Bytes}
    (htail : ∀ b ∈ tail, b ≠ 10 ∧ b ≠ 13) :
    lines (joinLines ls ++ tail) = ls ++ if tail = [] then [] else [tail] := by
  induction ls with
  | nil =>
    rw [joinLines_nil, nil_append, lines, linesFrom_tail (fun b hb => (htail b hb).1),
      nil_append, nil_append]
    split
    · rfl
    · rw [map_singleton, stripCr_of_ne fun b hb => (htail b hb).2]
  | cons l ls ih =>
    obtain ⟨-, hl⟩ := hls l mem_cons_self
    have hrest := ih fun m hm => hls m (mem_cons_of_mem _ hm)
    rw [joinLines_cons, append_assoc, cons_append, lines,
      linesFrom_line (fun b hb => (hl b hb).1), nil_append, map_cons,
      stripCr_of_ne fun b hb => (hl b hb).2, cons_append, ← hrest, lines]

/-- A cut through a file of lines leaves whole lines and a piece of the next. -/
theorem eq_of_prefix_joinLines {ls : List Bytes} {p : Bytes} (h : p <+: joinLines ls) :
    ∃ k tail, p = joinLines (ls.take k) ++ tail ∧
      (tail = [] ∨ ∃ l, ls[k]? = some l ∧ tail <+: l ∧ tail ≠ []) := by
  induction ls generalizing p with
  | nil =>
    rw [joinLines_nil, prefix_nil] at h
    exact ⟨0, [], by simp [h], .inl rfl⟩
  | cons l ls ih =>
    rw [joinLines_cons] at h
    by_cases hshort : p.length ≤ l.length
    · -- the cut is within the first line
      have hp : p <+: l := prefix_of_prefix_length_le h (prefix_append _ _) hshort
      by_cases hnil : p = []
      · exact ⟨0, [], by simp [hnil], .inl rfl⟩
      · exact ⟨0, p, by simp, .inr ⟨l, rfl, hp, hnil⟩⟩
    · have hfirst : l ++ [10] <+: l ++ 10 :: joinLines ls := ⟨joinLines ls, by simp⟩
      obtain ⟨q, rfl⟩ : l ++ [10] <+: p := by
        apply prefix_of_prefix_length_le hfirst h
        rw [length_append, length_singleton]
        omega
      have hq : q <+: joinLines ls := by
        rw [append_assoc, singleton_append, prefix_append_right_inj,
          prefix_cons_inj] at h
        exact h
      obtain ⟨k, tail, rfl, hend⟩ := ih hq
      exact ⟨k + 1, tail, by simp [joinLines_cons], by simpa using hend⟩

/-! ## Little-endian integers and records of one width -/

/-- `u64::to_le_bytes`. -/
def le8 (n : Nat) : Bytes := (bigEndian 8 n).reverse

/-- `u64::from_le_bytes`. -/
def ofLe8 (bytes : Bytes) : Nat := ofBigEndian bytes.reverse

@[simp] theorem le8_length (n : Nat) : (le8 n).length = 8 := by simp [le8]

theorem ofLe8_le8 {n : Nat} (h : n < 2 ^ 64) : ofLe8 (le8 n) = n := by
  rw [ofLe8, le8, reverse_reverse]
  exact ofBigEndian_bigEndian (Nat.lt_of_lt_of_eq h (by decide))

section Records
variable {α : Type} {record : α → Bytes} {w : Nat}

section
variable (hw : ∀ a, (record a).length = w)
include hw

theorem records_length (l : List α) : (l.flatMap record).length = w * l.length := by
  induction l with
  | nil => rfl
  | cons a l ih =>
    rw [flatMap_cons, length_append, hw, ih, length_cons, Nat.mul_add, Nat.mul_one,
      Nat.add_comm]

theorem records_take (l : List α) (k : Nat) :
    (l.flatMap record).take (w * k) = (l.take k).flatMap record := by
  induction l generalizing k with
  | nil => simp
  | cons a l ih =>
    cases k with
    | zero => simp
    | succ k =>
      have hsum : w * (k + 1) = (record a).length + w * k := by
        rw [hw, Nat.mul_add, Nat.mul_one, Nat.add_comm]
      rw [flatMap_cons, hsum, take_length_add_append, ih, take_succ_cons,
        flatMap_cons]

theorem records_drop (l : List α) (k : Nat) :
    (l.flatMap record).drop (w * k) = (l.drop k).flatMap record := by
  refine append_cancel_left (?_ : (l.take k).flatMap record ++ _ = _ ++ _)
  rw [← flatMap_append, take_append_drop, ← records_take hw, take_append_drop]

/-- A piece of an index that is a number of records long. -/
theorem eq_records_of_initial {l : List α} {p : Bytes}
    (h : p <+: l.flatMap record) {k : Nat} (hp : p.length = w * k) :
    p = (l.take k).flatMap record := by
  rw [← records_take hw, ← hp]
  exact prefix_iff_eq_take.mp h

end

end Records

end LineFile
