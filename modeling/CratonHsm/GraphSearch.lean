import Mathlib.Data.Fintype.Card
import Mathlib.Data.List.Chain

/-!
# Depth-first search

The search with a stack over a finite graph: a vertex is marked and pushed when it is first
seen.  Every vertex is popped at most once, so as many rounds as there are vertices empty the
stack (`search_stack`), and what is marked then is what can be reached (`visited_search_iff`).
A set that contains the start and is closed under edges contains every path (`mem_of_isChain`).
-/

namespace GraphSearch
open List

variable {α : Type} [DecidableEq α] {rounds : Nat}

/-- What the search has seen, and the vertices it has still to look at. -/
structure Search (α : Type) where
  visited : α → Bool
  stack : List α

namespace Search

/-- A neighbour that was not seen is marked and pushed. -/
def push (s : Search α) (v : α) : Search α :=
  if s.visited v then s else ⟨Function.update s.visited v true, v :: s.stack⟩

def start (v : α) : Search α := ⟨Function.update (fun _ => false) v true, [v]⟩

end Search

/-- The search, with a bound on its rounds. -/
def search (next : α → List α) : Nat → Search α → Search α
  | 0, s => s
  | rounds + 1, s =>
    match s.stack with
    | [] => s
    | v :: rest => search next rounds ((next v).foldl Search.push ⟨s.visited, rest⟩)

section Push
variable {s : Search α} {v w : α}

theorem visited_push : (s.push v).visited w = true ↔ w = v ∨ s.visited w = true := by
  unfold Search.push
  by_cases hv : s.visited v = true
  · rw [if_pos hv]
    constructor
    · exact .inr
    · rintro (rfl | hw)
      · exact hv
      · exact hw
  · rw [if_neg hv]
    by_cases hw : w = v <;> simp [hw]

theorem mem_stack_push : w ∈ (s.push v).stack ↔ w ∈ s.stack ∨ w = v ∧ s.visited v = false := by
  unfold Search.push
  by_cases hv : s.visited v = true
  · simp [hv]
  · simp [hv, or_comm]

theorem visited_foldl_push (vs : List α) (s : Search α) :
    (vs.foldl Search.push s).visited w = true ↔ w ∈ vs ∨ s.visited w = true := by
  induction vs generalizing s with
  | nil => simp
  | cons v vs ih =>
    rw [foldl_cons, ih, visited_push, mem_cons]
    tauto

theorem mem_stack_foldl_push (vs : List α) (s : Search α) :
    w ∈ (vs.foldl Search.push s).stack ↔ w ∈ s.stack ∨ w ∈ vs ∧ s.visited w = false := by
  induction vs generalizing s with
  | nil => simp
  | cons v vs ih =>
    have hvisited : (s.push v).visited w = false ↔ w ≠ v ∧ s.visited w = false := by
      rw [← Bool.not_eq_true, visited_push, not_or, Bool.not_eq_true]
    rw [foldl_cons, ih, mem_stack_push, hvisited, mem_cons]
    by_cases hw : w = v
    · subst hw
      tauto
    · tauto

end Push

/-! ## The stack is emptied -/

section Rounds
variable [Fintype α]

/-- The vertices that were not seen. -/
def unseen (s : Search α) : Finset α := Finset.univ.filter fun v => s.visited v = false

theorem card_unseen_push (s : Search α) (v : α) :
    (unseen (s.push v)).card + (s.push v).stack.length ≤ (unseen s).card + s.stack.length := by
  by_cases hv : s.visited v = true
  · rw [Search.push, if_pos hv]
  have hfewer : unseen (s.push v) ⊂ unseen s := by
    rw [Finset.ssubset_iff_of_subset]
    · refine ⟨v, by simpa [unseen] using hv, ?_⟩
      have hmarked : (s.push v).visited v = true := visited_push.mpr (.inl rfl)
      simp [unseen, hmarked]
    · intro w hw
      simp only [unseen, Finset.mem_filter, Finset.mem_univ, true_and] at hw ⊢
      by_contra hseen
      have hmarked : (s.push v).visited w = true :=
        visited_push.mpr (.inr (Bool.not_eq_false _ ▸ hseen))
      rw [hw] at hmarked
      cases hmarked
  have hcard := Finset.card_lt_card hfewer
  have hlength : (s.push v).stack.length = s.stack.length + 1 := by
    simp [Search.push, hv]
  omega

theorem card_unseen_foldl (vs : List α) (s : Search α) :
    (unseen (vs.foldl Search.push s)).card + (vs.foldl Search.push s).stack.length ≤
      (unseen s).card + s.stack.length := by
  induction vs generalizing s with
  | nil => exact Nat.le_refl _
  | cons v vs ih => exact Nat.le_trans (ih _) (card_unseen_push s v)

variable {s : Search α}

/-- A round pops one vertex, and a vertex that is pushed is no longer unseen. -/
theorem search_stack_of_le (next : α → List α)
    (h : (unseen s).card + s.stack.length ≤ rounds) : (search next rounds s).stack = [] := by
  induction rounds generalizing s with
  | zero =>
    rw [search]
    exact eq_nil_of_length_eq_zero (by omega)
  | succ rounds ih =>
    rw [search]
    split
    · assumption
    next v rest hstack =>
    apply ih
    have hround := card_unseen_foldl (next v) ⟨s.visited, rest⟩
    rw [hstack, length_cons] at h
    have hsame : unseen (⟨s.visited, rest⟩ : Search α) = unseen s := rfl
    rw [hsame] at hround
    dsimp only at hround
    omega

/-- **As many rounds as there are vertices empty the stack.** -/
theorem search_stack (next : α → List α) (v : α) (h : Fintype.card α ≤ rounds) :
    (search next rounds (.start v)).stack = [] := by
  apply search_stack_of_le
  have hfewer : (unseen (.start v : Search α)).card < (Finset.univ : Finset α).card := by
    apply Finset.card_lt_card
    rw [Finset.ssubset_iff_of_subset (Finset.subset_univ _)]
    refine ⟨v, Finset.mem_univ v, fun hv => ?_⟩
    have hunmarked := (Finset.mem_filter.mp hv).2
    simp [Search.start] at hunmarked
  have hone : (Search.start v).stack.length = 1 := rfl
  rw [Finset.card_univ] at hfewer
  omega

end Rounds

/-! ## What is marked -/

section Marked
variable {next : α → List α} {root : α}

/-- What is marked can be reached, and what is marked and was looked at has its neighbours
marked. -/
structure Sound (next : α → List α) (root : α) (s : Search α) : Prop where
  started : s.visited root = true
  reachable : ∀ v, s.visited v = true → Relation.ReflTransGen (fun a b => b ∈ next a) root v
  pushed : ∀ v ∈ s.stack, s.visited v = true
  closed : ∀ v, s.visited v = true → v ∉ s.stack → ∀ w ∈ next v, s.visited w = true

theorem sound_start (next : α → List α) (root : α) : Sound next root (.start root) where
  started := by simp [Search.start]
  reachable v hv := by
    by_cases hroot : v = root
    · rw [hroot]
    · simp [Search.start, hroot] at hv
  pushed v hv := by
    rw [mem_singleton.mp hv]
    simp [Search.start]
  closed v hv hnot := by
    by_cases hroot : v = root
    · exact absurd (mem_singleton.mpr hroot) hnot
    · simp [Search.start, hroot] at hv

theorem Sound.round {v : α} {rest : List α} (h : Sound next root s) (hstack : s.stack = v :: rest) :
    Sound next root ((next v).foldl Search.push ⟨s.visited, rest⟩) := by
  have hv : s.visited v = true := h.pushed v (hstack ▸ mem_cons_self)
  refine ⟨visited_foldl_push _ _ |>.mpr (.inr h.started), ?_, ?_, ?_⟩
  · intro w hw
    rcases (visited_foldl_push _ _).mp hw with hw | hw
    · exact (h.reachable v hv).tail hw
    · exact h.reachable w hw
  · intro w hw
    rcases (mem_stack_foldl_push _ _).mp hw with hw | hw
    · exact (visited_foldl_push _ _).mpr
        (.inr (h.pushed w (hstack ▸ mem_cons_of_mem _ hw)))
    · exact (visited_foldl_push _ _).mpr (.inl hw.1)
  · intro w hw hnot u hu
    rw [mem_stack_foldl_push, not_or] at hnot
    rw [visited_foldl_push] at hw ⊢
    by_cases hseen : s.visited w = true
    · by_cases hwv : w = v
      · subst hwv
        exact .inl hu
      have hout : w ∉ s.stack := by
        rw [hstack, mem_cons, not_or]
        exact ⟨hwv, hnot.1⟩
      exact .inr (h.closed w hseen hout u hu)
    · -- it was marked in this round, so it is on the stack
      have hnew : w ∈ next v := hw.resolve_right hseen
      exact absurd ⟨hnew, Bool.not_eq_true _ ▸ hseen⟩ hnot.2

theorem sound_search (h : Sound next root s) (rounds : Nat) :
    Sound next root (search next rounds s) := by
  induction rounds generalizing s with
  | zero => exact h
  | succ rounds ih =>
    rw [search]
    split
    · exact h
    · next v rest hstack => exact ih (h.round hstack)

/-- **The search marks exactly what can be reached.** -/
theorem visited_search_iff [Fintype α] (h : Fintype.card α ≤ rounds) {v : α} :
    (search next rounds (.start root)).visited v = true ↔
      Relation.ReflTransGen (fun a b => b ∈ next a) root v := by
  have hsound := sound_search (sound_start next root) rounds
  refine ⟨hsound.reachable v, fun hpath => ?_⟩
  induction hpath with
  | refl => exact hsound.started
  | tail _ hedge ih =>
    refine hsound.closed _ ih ?_ _ hedge
    rw [search_stack next root h]
    exact not_mem_nil

end Marked

/-! ## Paths -/

omit [DecidableEq α] in
/-- A set that contains the start of a path and that no edge of the path leaves contains the
path. -/
theorem mem_of_isChain {edge : α → α → Prop} {Q : α → Prop} {path : List α}
    (hchain : path.IsChain edge) (hstart : ∀ a ∈ path.head?, Q a)
    (hstep : ∀ a ∈ path, ∀ b ∈ path, edge a b → Q a → Q b) : ∀ a ∈ path, Q a := by
  induction path with
  | nil => simp
  | cons a path ih =>
    have ha : Q a := hstart a rfl
    intro b hb
    rcases mem_cons.mp hb with rfl | hb
    · exact ha
    refine ih hchain.tail ?_ (fun c hc d hd => hstep c (mem_cons_of_mem _ hc) d
      (mem_cons_of_mem _ hd)) b hb
    intro c hc
    have hedge : edge a c := (isChain_cons.mp hchain).1 c hc
    exact hstep a mem_cons_self c (mem_cons_of_mem _ (mem_of_mem_head? hc)) hedge ha

end GraphSearch
