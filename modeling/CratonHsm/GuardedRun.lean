import Mathlib.Data.List.Induction

/-!
# Runs under a condition

A system driven by events: `step` makes one, a run is a list of them, and `Along` says that
a condition holds of every event in the state before it.  What every step preserves, every
run preserves (`induction_run`); properties that look back at the whole run are proved along
its prefixes (`induction_snoc`).
-/

namespace GuardedRun

variable {S E : Type} {events : List E}

/-- The state after a run. -/
def run (step : S → E → S) (s : S) (events : List E) : S := events.foldl step s

/-- The condition holds of every event of the run, in the state before it. -/
def Along (step : S → E → S) (P : S → E → Prop) (s : S) : List E → Prop
  | [] => True
  | e :: rest => P s e ∧ Along step P (step s e) rest

instance decidableAlong (step : S → E → S) (P : S → E → Prop) [∀ s e, Decidable (P s e)] :
    (s : S) → (events : List E) → Decidable (Along step P s events)
  | _, [] => inferInstanceAs (Decidable True)
  | s, e :: rest =>
    have := decidableAlong step P (step s e) rest
    inferInstanceAs (Decidable (P s e ∧ Along step P (step s e) rest))

variable {step : S → E → S} {P Q : S → E → Prop} {s : S}

theorem run_append (es fs : List E) : run step s (es ++ fs) = run step (run step s es) fs :=
  List.foldl_append

theorem run_snoc (es : List E) (e : E) : run step s (es ++ [e]) = step (run step s es) e :=
  run_append es [e]

theorem along_append {es fs : List E} :
    Along step P s (es ++ fs) ↔ Along step P s es ∧ Along step P (run step s es) fs := by
  induction es generalizing s with
  | nil => simp [Along, run]
  | cons e es ih =>
    rw [List.cons_append, Along, Along, ih, and_assoc]
    rfl

theorem along_snoc {es : List E} {e : E} :
    Along step P s (es ++ [e]) ↔ Along step P s es ∧ P (run step s es) e := by
  rw [along_append]
  simp only [Along, and_true]

/-- The trivial condition holds along every run. -/
theorem along_true (events : List E) : Along step (fun _ _ => True) s events := by
  induction events generalizing s with
  | nil => trivial
  | cons e events ih => exact ⟨trivial, ih⟩

/-- A condition on the events alone. -/
theorem along_of_forall (h : ∀ r, ∀ e ∈ events, P r e) : Along step P s events := by
  induction events generalizing s with
  | nil => trivial
  | cons e events ih =>
    exact ⟨h s e List.mem_cons_self, ih fun r e he => h r e (List.mem_cons_of_mem _ he)⟩

/-- A run under a condition is a run under every weaker one. -/
theorem Along.imp (h : ∀ r e, P r e → Q r e) (hP : Along step P s events) :
    Along step Q s events := by
  induction events generalizing s with
  | nil => trivial
  | cons e events ih => exact ⟨h s e hP.1, ih hP.2⟩

/-- **What every step preserves, every run preserves.** -/
theorem induction_run {I : S → Prop} (hstep : ∀ r e, I r → P r e → I (step r e)) (hs : I s)
    (h : Along step P s events) : I (run step s events) := by
  induction events generalizing s with
  | nil => exact hs
  | cons e events ih => exact ih (hstep s e hs h.1) h.2

/-- **Induction along the prefixes of a run**, for invariants that mention the run. -/
theorem induction_snoc {I : List E → S → Prop} (hs : I [] s)
    (hstep : ∀ es e, I es (run step s es) → Along step P s es → P (run step s es) e →
      I (es ++ [e]) (run step s (es ++ [e])))
    (h : Along step P s events) : I events (run step s events) := by
  induction events using List.reverseRecOn with
  | nil => exact hs
  | append_singleton es e ih =>
    obtain ⟨hes, he⟩ := along_snoc.mp h
    exact hstep es e (ih hes) hes he

end GuardedRun
