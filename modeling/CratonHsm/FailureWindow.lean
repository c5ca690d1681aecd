import Mathlib.Tactic.Common

/-!
# Failure counts in fixed windows

A counter of failures that starts a new window with the first failure after the old window
has run out, and that refuses further attempts once the window holds `max` failures.  During
a period shorter than the window at most one new window can start, so at most `2 * max`
failures are admitted: `allowance` is what is left of them, and every admitted failure uses
up one (`allowance_record`).
-/

namespace FailureWindow

/-- The failures of the window that began at `start`. -/
structure Entry where
  count : Nat
  start : Nat
  deriving DecidableEq

variable {max window a check fail : Nat} {e : Option Entry}

/-- The window is running and full. -/
def limited (max window now : Nat) : Option Entry → Bool
  | some e => now - e.start < window && max ≤ e.count
  | none => false

/-- One more failure, in this window or in a new one. -/
def record (window now : Nat) : Option Entry → Entry
  | some e => if window ≤ now - e.start then ⟨1, now⟩ else { e with count := e.count + 1 }
  | none => ⟨1, now⟩

/-- An entry of two windows' age is dropped. -/
def evict (window now : Nat) (e : Option Entry) : Option Entry :=
  e.filter fun e => now - e.start < window * 2

/-- What a period that begins at `a` may still see of failures. -/
def allowance (max a : Nat) : Option Entry → Nat
  | none => max
  | some e => if a ≤ e.start then max - e.count else max - e.count + max

theorem allowance_le (max a : Nat) (e : Option Entry) : allowance max a e ≤ 2 * max := by
  cases e with
  | none => simp only [allowance]; omega
  | some e =>
    simp only [allowance]
    split <;> omega

/-- Dropping an entry does not give more than a window that can run out. -/
theorem allowance_evict (ha : a ≤ check) (h : check < a + window) :
    allowance max a (evict window check e) ≤ allowance max a e := by
  rcases e with _ | e
  · exact Nat.le_refl _
  by_cases hold : check - e.start < window * 2
  · refine Nat.le_of_eq ?_
    rw [evict, Option.filter_some_pos (by exact decide_eq_true hold)]
  rw [evict, Option.filter_some_neg (by simpa using hold)]
  have hstart : ¬ a ≤ e.start := by omega
  simp only [allowance, if_neg hstart]
  omega

/-- **An admitted failure uses up one of the allowance**: in a window that began in the
period because it cannot run out before the period does, otherwise because at most one new
window follows. -/
theorem allowance_record (hmax : 0 < max) (hlimited : limited max window check e = false)
    (ha : a ≤ fail) (hcheck : check ≤ fail) (hfail : fail < a + window) :
    allowance max a (some (record window fail e)) + 1 ≤ allowance max a e := by
  rcases e with _ | e
  · simp only [record, allowance, ha, if_true]
    omega
  simp only [limited, Bool.and_eq_false_iff, decide_eq_false_iff_not] at hlimited
  by_cases hexpired : window ≤ fail - e.start
  · have hstart : ¬ a ≤ e.start := by omega
    simp only [record, hexpired, allowance, ha, hstart, if_true, if_false]
    omega
  · simp only [record, if_neg hexpired, allowance]
    split <;> omega

end FailureWindow
