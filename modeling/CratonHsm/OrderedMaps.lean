import Mathlib.Tactic.Common

/-!
# Maps with an ordered key

What a write under one key does to the entries under the others.
-/

namespace OrderedMaps
open Std List

variable {α β : Type} [Ord α] [TransOrd α] [LawfulEqOrd α] {m : ExtTreeMap α β} {k n : α}

theorem getElem?_insert_of_ne (h : n ≠ k) (v : β) : (m.insert k v)[n]? = m[n]? := by
  rw [ExtTreeMap.getElem?_insert, if_neg]
  exact fun he => h (Std.compare_eq_iff_eq.mp he).symm

theorem getElem?_erase_of_ne (h : n ≠ k) : (m.erase k)[n]? = m[n]? := by
  rw [ExtTreeMap.getElem?_erase, if_neg]
  exact fun he => h (Std.compare_eq_iff_eq.mp he).symm

/-- An entry found after a write is the written one or one from before. -/
theorem getElem?_insert_cases {v w : β} (h : (m.insert k v)[n]? = some w) :
    n = k ∧ w = v ∨ n ≠ k ∧ m[n]? = some w := by
  by_cases hn : n = k
  · subst hn
    rw [ExtTreeMap.getElem?_insert_self] at h
    exact .inl ⟨rfl, (Option.some.inj h).symm⟩
  · rw [getElem?_insert_of_ne hn] at h
    exact .inr ⟨hn, h⟩

/-- What holds of the written entry and of those from before holds after the write. -/
theorem forall_insert {P : α → β → Prop} {v : β} (hv : P k v)
    (hold : ∀ n w, m[n]? = some w → P n w) : ∀ n w, (m.insert k v)[n]? = some w → P n w := by
  intro n w h
  rcases getElem?_insert_cases h with ⟨rfl, rfl⟩ | ⟨-, h⟩
  · exact hv
  · exact hold n w h

/-- An entry found after a removal was there before. -/
theorem getElem?_of_erase {v : β} (h : (m.erase k)[n]? = some v) : m[n]? = some v := by
  by_cases hn : n = k
  · subst hn
    simp at h
  · rw [getElem?_erase_of_ne hn] at h
    exact h

/-- Writing a list of entries changes nothing under the other keys. -/
theorem getElem?_foldl_insert (l : List (α × β)) (m : ExtTreeMap α β)
    (h : ∀ p ∈ l, p.1 ≠ n) : (l.foldl (fun m p => m.insert p.1 p.2) m)[n]? = m[n]? := by
  induction l generalizing m with
  | nil => rfl
  | cons p l ih =>
    rw [foldl_cons, ih _ fun q hq => h q (mem_cons_of_mem _ hq)]
    exact getElem?_insert_of_ne (h p mem_cons_self).symm p.2

theorem getElem?_foldl_erase (l : List α) (m : ExtTreeMap α β) (h : n ∉ l) :
    (l.foldl (fun m k => m.erase k) m)[n]? = m[n]? := by
  induction l generalizing m with
  | nil => rfl
  | cons k l ih =>
    rw [foldl_cons, ih _ fun hn => h (mem_cons_of_mem _ hn)]
    exact getElem?_erase_of_ne fun he => h (he ▸ mem_cons_self)

/-- Removes the entry if it meets the condition. -/
def removeIf (p : β → Bool) (m : ExtTreeMap α β) (k : α) : ExtTreeMap α β :=
  if m[k]?.any p then m.erase k else m

/-- An entry that does not meet the condition stays. -/
theorem getElem?_removeIf {p : β → Bool} {v : β} (hn : m[n]? = some v) (hv : p v = false) :
    (removeIf p m k)[n]? = some v := by
  unfold removeIf
  split
  · next hany =>
    have hne : n ≠ k := by
      intro he
      rw [← he, hn, Option.any_some, hv] at hany
      cases hany
    rw [getElem?_erase_of_ne hne]
    exact hn
  · exact hn

theorem getElem?_foldl_removeIf {p : β → Bool} {v : β} (l : List α) (m : ExtTreeMap α β)
    (hn : m[n]? = some v) (hv : p v = false) : (l.foldl (removeIf p) m)[n]? = some v := by
  induction l generalizing m with
  | nil => exact hn
  | cons k l ih =>
    rw [foldl_cons]
    exact ih _ (getElem?_removeIf hn hv)

omit [LawfulEqOrd α] in
theorem size_foldl_removeIf (p : β → Bool) (l : List α) (m : ExtTreeMap α β) :
    (l.foldl (removeIf p) m).size ≤ m.size := by
  induction l generalizing m with
  | nil => exact Nat.le_refl _
  | cons k l ih =>
    have hone : (removeIf p m k).size ≤ m.size := by
      unfold removeIf
      split
      · exact ExtTreeMap.size_erase_le
      · exact Nat.le_refl _
    rw [foldl_cons]
    exact Nat.le_trans (ih _) hone

end OrderedMaps
