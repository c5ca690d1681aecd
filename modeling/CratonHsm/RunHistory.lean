import CratonHsm.GuardedRun

/-!
# What a run leaves behind

Three ways to look back at a run: how many of its events met a condition (`count`), which
results its events had (`outcomes`), and which values an observation took after each of them
(`observed`).  An observation that keeps being
defined once it is reads as a stretch without a value followed by a chain (`observed_chain`).
-/

namespace GuardedRun
open List

variable {S E A : Type} {step : S → E → S} {P : S → E → Prop} {s : S} {events : List E}

/-- How many events of a run meet the condition in the state before them. -/
def count (step : S → E → S) (p : S → E → Prop) [∀ s e, Decidable (p s e)] (s : S) : List E → Nat
  | [] => 0
  | e :: rest => (if p s e then 1 else 0) + count step p (step s e) rest

section Count
variable {p : S → E → Prop} [∀ s e, Decidable (p s e)]

theorem count_append (es fs : List E) :
    count step p s (es ++ fs) = count step p s es + count step p (run step s es) fs := by
  induction es generalizing s with
  | nil => simp [count, run]
  | cons e es ih =>
    rw [cons_append, count, count, ih, Nat.add_assoc]
    rfl

theorem count_snoc (es : List E) (e : E) :
    count step p s (es ++ [e]) = count step p s es + if p (run step s es) e then 1 else 0 := by
  rw [count_append, count, count, Nat.add_zero]

theorem count_mono {q : S → E → Prop} [∀ s e, Decidable (q s e)]
    (h : ∀ r, ∀ e ∈ events, p r e → q r e) : count step p s events ≤ count step q s events := by
  induction events generalizing s with
  | nil => exact Nat.le_refl _
  | cons e events ih =>
    have hrest := ih (s := step s e) fun r f hf => h r f (mem_cons_of_mem _ hf)
    rw [count, count]
    by_cases hp : p s e
    · rw [if_pos hp, if_pos (h s e mem_cons_self hp)]
      omega
    · rw [if_neg hp]
      omega

end Count

/-- The results of a run, in order, for the events that have one. -/
def outcomes (step : S → E → S) (result : S → E → Option A) (s : S) : List E → List A
  | [] => []
  | e :: rest => (result s e).toList ++ outcomes step result (step s e) rest

section Outcomes
variable {result : S → E → Option A}

theorem outcomes_append (es fs : List E) : outcomes step result s (es ++ fs) =
    outcomes step result s es ++ outcomes step result (run step s es) fs := by
  induction es generalizing s with
  | nil => rfl
  | cons e es ih =>
    rw [cons_append, outcomes, outcomes, ih, append_assoc]
    rfl

theorem outcomes_snoc (es : List E) (e : E) : outcomes step result s (es ++ [e]) =
    outcomes step result s es ++ (result (run step s es) e).toList := by
  rw [outcomes_append, outcomes, outcomes, append_nil]

end Outcomes

/-- The values of an observation after each event of a run. -/
def observed (step : S → E → S) (obs : S → Option A) (s : S) : List E → List (Option A)
  | [] => []
  | e :: rest => obs (step s e) :: observed step obs (step s e) rest

section Observed
variable {obs : S → Option A} {I : S → Prop} {Birth : A → Prop} {R : A → A → Prop}

/-- A value that every step carries on. -/
theorem observed_of_some (hI : ∀ r e, I r → P r e → I (step r e))
    (hR : ∀ r e a, I r → P r e → obs r = some a → ∃ b, obs (step r e) = some b ∧ R a b)
    {a : A} (hs : I s) (ha : obs s = some a) (h : Along step P s events) :
    ∃ l : List A, observed step obs s events = l.map some ∧ (a :: l).IsChain R := by
  induction events generalizing s a with
  | nil => exact ⟨[], rfl, .singleton a⟩
  | cons e events ih =>
    obtain ⟨b, hb, hab⟩ := hR s e a hs h.1 ha
    obtain ⟨l, hl, hchain⟩ := ih (hI s e hs h.1) hb h.2
    exact ⟨b :: l, by rw [observed, hl, hb, map_cons], isChain_cons_cons.mpr ⟨hab, hchain⟩⟩

/-- **The history of an observation**: no value at first, then a value and its
descendants. -/
theorem observed_chain (hI : ∀ r e, I r → P r e → I (step r e))
    (hBirth : ∀ r e a, I r → P r e → obs r = none → obs (step r e) = some a → Birth a)
    (hR : ∀ r e a, I r → P r e → obs r = some a → ∃ b, obs (step r e) = some b ∧ R a b)
    (hs : I s) (hnone : obs s = none) (h : Along step P s events) :
    ∃ (n : Nat) (l : List A), observed step obs s events = List.replicate n none ++ l.map some ∧
      l.IsChain R ∧
      ∀ a ∈ l.head?, Birth a := by
  induction events generalizing s with
  | nil => exact ⟨0, [], rfl, .nil, fun a ha => by cases ha⟩
  | cons e events ih =>
    cases hobs : obs (step s e) with
    | none =>
      obtain ⟨n, l, hl, hchain, hbirth⟩ := ih (hI s e hs h.1) hobs h.2
      exact ⟨n + 1, l, by rw [observed, hl, hobs, replicate_succ, cons_append], hchain,
        hbirth⟩
    | some a =>
      obtain ⟨l, hl, hchain⟩ := observed_of_some hI hR (hI s e hs h.1) hobs h.2
      refine ⟨0, a :: l, by rw [observed, hl, hobs]; rfl, hchain, fun b hb => ?_⟩
      cases hb
      exact hBirth s e a hs h.1 hnone hobs

end Observed

end GuardedRun
