import Mathlib.Data.Finset.Card
import CratonHsm.TermHistory

/-!
# Replication by quorums

An abstract machine for replicated logs with elected writers.  Nodes move to later terms,
stand in them, vote, and follow the writer of their term; nothing is said about messages.
A vote records the log of the voter, and an acknowledgement records a prefix of the
writer's log that the node holds.  A prefix with an entry of its term is `Chosen` once a
deciding quorum has acknowledged it.

The invariant says what acknowledgements are worth (`retain`): a node still holds what it
acknowledged if every later writer up to its term started from a log that holds it.  With
the vote comparison this gives **leader completeness** (`Inv.chosen_in_start`): later
writers start from logs that hold every chosen prefix; and so chosen prefixes agree
(`Inv.chosen_agree`).
-/

namespace QuorumReplication
open TermHistory Function List Option

variable {ι α : Type} {P : List α} {term : α → Nat} {Electing Deciding : Finset ι → Prop}

/-- The nodes, with the history of terms, candidacies, votes and acknowledgements. -/
structure State (ι α : Type) where
  history : History α
  /-- The writer of a term, once there is one. -/
  leader : Nat → Option ι
  log : ι → List α
  cur : ι → Nat
  /-- `stood t c L`: `c` stood in term `t` with the log `L`. -/
  stood : Nat → ι → List α → Prop
  /-- `granted v t c W`: `v`, holding the log `W`, voted for `c` in term `t`. -/
  granted : ι → Nat → ι → List α → Prop
  /-- `acked v t P`: in term `t`, `v` confirmed that it holds the written prefix `P`. -/
  acked : ι → Nat → List α → Prop

/-- Term of the last entry, 0 for an empty log. -/
def lastTerm (term : α → Nat) (l : List α) : Nat := l.getLast?.elim 0 term

/-- The vote comparison: `l` is at least as up to date as `w`. -/
def UpToDate (term : α → Nat) (l w : List α) : Prop :=
  lastTerm term w < lastTerm term l ∨
    lastTerm term w = lastTerm term l ∧ w.length ≤ l.length

namespace State

/-- All nodes start empty, in term 0. -/
def init : State ι α where
  history := .empty
  leader _ := none
  log _ := []
  cur _ := 0
  stood _ _ _ := False
  granted _ _ _ _ := False
  acked _ _ _ := False

/-- `v` has acknowledged `P`, or more, in term `t`. -/
def Acked (s : State ι α) (v : ι) (t : Nat) (P : List α) : Prop := ∃ P', s.acked v t P' ∧ P <+: P'

/-- Every writer between the two terms started from a log that holds `P`. -/
def HeldBetween (s : State ι α) (t t' : Nat) (P : List α) : Prop :=
  ∀ u, (s.leader u).isSome → t < u → u < t' → P <+: s.history.start u

theorem HeldBetween.mono {s : State ι α} {t a b : Nat} (h : s.HeldBetween t b P)
    (hab : a ≤ b) : s.HeldBetween t a P :=
  fun u hu htu hua => h u hu htu (Nat.lt_of_lt_of_le hua hab)

/-- The voter's log `W` holds what the voter acknowledged before `t'`, if the writers in
between held it. -/
def Carries (s : State ι α) (v : ι) (t' : Nat) (W : List α) : Prop :=
  ∀ t P, s.Acked v t P → t < t' → s.HeldBetween t t' P → P <+: W

end State

/-- The moves of the machine. -/
inductive Step [DecidableEq ι] (term : α → Nat) (Electing : Finset ι → Prop) :
    State ι α → State ι α → Prop
  /-- A node learns of a later term. -/
  | adopt {s : State ι α} (v : ι) (t : Nat) (hle : s.cur v ≤ t) :
      Step term Electing s { s with cur := Function.update s.cur v t }
  /-- A node stands in a later term and votes for itself. -/
  | stand {s : State ι α} (v : ι) (t : Nat) (hlt : s.cur v < t) :
      Step term Electing s { s with
        cur := Function.update s.cur v t
        stood := fun u c L => s.stood u c L ∨ (u = t ∧ c = v ∧ L = s.log v)
        granted := fun x u c W => s.granted x u c W ∨ (x = v ∧ u = t ∧ c = v ∧ W = s.log v) }
  /-- A node votes in its term, once, for a candidate that is up to date. -/
  | grant {s : State ι α} (v c : ι) (L : List α) (hstood : s.stood (s.cur v) c L)
      (hcmp : UpToDate term L (s.log v))
      (honce : ∀ c' W, s.granted v (s.cur v) c' W → c' = c) :
      Step term Electing s { s with
        granted := fun x u d W =>
          s.granted x u d W ∨ (x = v ∧ u = s.cur v ∧ d = c ∧ W = s.log v) }
  /-- A candidate with a quorum of votes becomes the writer of its term. -/
  | elect {s : State ι α} (c : ι) (Q : Finset ι) (hstood : s.stood (s.cur c) c (s.log c))
      (hfree : s.leader (s.cur c) = none) (hQ : Electing Q)
      (hvotes : ∀ v ∈ Q, ∃ W, s.granted v (s.cur c) c W) :
      Step term Electing s { s with
        history := s.history.begin (s.cur c) (s.log c)
        leader := Function.update s.leader (s.cur c) (some c) }
  /-- The writer appends an entry of its term. -/
  | append {s : State ι α} (v : ι) (e : α) (hled : s.leader (s.cur v) = some v)
      (hlog : s.log v = s.history.written (s.cur v)) (he : term e = s.cur v) :
      Step term Electing s { s with
        history := s.history.extend (s.cur v) e
        log := Function.update s.log v (s.log v ++ [e])
        acked := fun x t P => s.acked x t P ∨ (x = v ∧ t = s.cur v ∧ P = s.log v ++ [e]) }
  /-- A node follows the writer of its term, and keeps what the two logs have in common. -/
  | overwrite {s : State ι α} (v : ι) (l : List α) (hled : (s.leader (s.cur v)).isSome)
      (hfrom : l <+: s.log v ∨ l <+: s.history.written (s.cur v))
      (hkeep : ∀ P, P <+: s.log v → P <+: s.history.written (s.cur v) → P <+: l) :
      Step term Electing s { s with log := Function.update s.log v l }
  /-- A node confirms a prefix of the writer's log. -/
  | ack {s : State ι α} (v : ι) (P : List α) (hheld : P <+: s.log v)
      (hwritten : P <+: s.history.written (s.cur v)) :
      Step term Electing s { s with
        acked := fun x t P' => s.acked x t P' ∨ (x = v ∧ t = s.cur v ∧ P' = P) }

namespace State
variable (s : State ι α)

/-! ### The state after each move -/

def grant (v c : ι) : State ι α :=
  { s with
    granted := fun x u d W => s.granted x u d W ∨ (x = v ∧ u = s.cur v ∧ d = c ∧ W = s.log v) }

def elect (c : ι) : State ι α :=
  { s with
    history := s.history.begin (s.cur c) (s.log c)
    leader := Function.update s.leader (s.cur c) (some c) }

def ack (v : ι) (P : List α) : State ι α :=
  { s with acked := fun x t P' => s.acked x t P' ∨ (x = v ∧ t = s.cur v ∧ P' = P) }

variable [DecidableEq ι]

def adopt (v : ι) (t : Nat) : State ι α := { s with cur := Function.update s.cur v t }

def stand (v : ι) (t : Nat) : State ι α :=
  { s with
    cur := Function.update s.cur v t
    stood := fun u c L => s.stood u c L ∨ (u = t ∧ c = v ∧ L = s.log v)
    granted := fun x u c W => s.granted x u c W ∨ (x = v ∧ u = t ∧ c = v ∧ W = s.log v) }

def append (v : ι) (e : α) : State ι α :=
  { s with
    history := s.history.extend (s.cur v) e
    log := Function.update s.log v (s.log v ++ [e])
    acked := fun x t P => s.acked x t P ∨ (x = v ∧ t = s.cur v ∧ P = s.log v ++ [e]) }

def overwrite (v : ι) (l : List α) : State ι α := { s with log := Function.update s.log v l }

end State

section Elected
variable {s : State ι α} {c : ι} {t : Nat}

/-- A term without a writer is not the one a writer was just elected in. -/
theorem State.leader_elect_none (h : (s.elect c).leader t = none) :
    t ≠ s.cur c ∧ s.leader t = none := by
  have hne : t ≠ s.cur c := by
    rintro rfl
    exact nomatch (update_self _ _ _).symm.trans h
  exact ⟨hne, (update_of_ne hne _ _).symm.trans h⟩

/-- More terms have writers: what every later writer held before, it holds now. -/
theorem State.HeldBetween.of_elect (hfree : s.leader (s.cur c) = none) {t' : Nat}
    (hb : (s.elect c).HeldBetween t t' P) : s.HeldBetween t t' P := by
  intro u hu htu hut
  have hne : u ≠ s.cur c := by
    rintro rfl
    rw [hfree] at hu
    cases hu
  have hheld := hb u (by dsimp only [State.elect]; rwa [update_of_ne hne]) htu hut
  exact (History.begin_start_of_ne _ hne _) ▸ hheld

end Elected

/-- What holds in every reachable state. -/
structure Inv (term : α → Nat) (Electing : Finset ι → Prop) (s : State ι α) : Prop where
  valid : s.history.Valid term
  unled : ∀ t, s.leader t = none → s.history.written t = []
  log_recorded : ∀ v, s.history.Recorded (s.log v)
  log_le : ∀ v, ∀ e ∈ s.log v, term e ≤ s.cur v
  stood_recorded : ∀ t c L, s.stood t c L → s.history.Recorded L
  stood_lt : ∀ t c L, s.stood t c L → ∀ e ∈ L, term e < t
  stood_le : ∀ t c L, s.stood t c L → t ≤ s.cur c
  granted_le : ∀ v t c W, s.granted v t c W → t ≤ s.cur v
  granted_recorded : ∀ v t c W, s.granted v t c W → s.history.Recorded W
  granted_stood : ∀ v t c W, s.granted v t c W → ∃ L, s.stood t c L ∧ UpToDate term L W
  granted_once : ∀ v t c c' W W', s.granted v t c W → s.granted v t c' W' → c = c'
  stood_once : ∀ t c L L', s.stood t c L → s.stood t c L' → L = L'
  acked_le : ∀ v t P, s.acked v t P → t ≤ s.cur v
  acked_written : ∀ v t P, s.acked v t P → P <+: s.history.written t
  retain : ∀ v t P, s.Acked v t P → s.HeldBetween t (s.cur v + 1) P → P <+: s.log v
  ballot : ∀ v t c W, s.granted v t c W → s.leader t = none → s.Carries v t W
  elected : ∀ t c, s.leader t = some c → s.stood t c (s.history.start t) ∧
    ∃ Q, Electing Q ∧ ∀ v ∈ Q, ∃ W, s.granted v t c W ∧ s.Carries v t W

namespace Inv
variable {term : α → Nat} {Electing : Finset ι → Prop} {s : State ι α}

theorem init : Inv term Electing (State.init : State ι α) where
  valid := History.valid_empty term
  unled _ _ := rfl
  log_recorded _ := .inl rfl
  log_le _ _ he := by cases he
  stood_recorded _ _ _ h := h.elim
  stood_lt _ _ _ h := h.elim
  stood_le _ _ _ h := h.elim
  granted_le _ _ _ _ h := h.elim
  granted_recorded _ _ _ _ h := h.elim
  granted_stood _ _ _ _ h := h.elim
  granted_once _ _ _ _ _ _ h := h.elim
  stood_once _ _ _ _ h := h.elim
  acked_le _ _ _ h := h.elim
  acked_written _ _ _ h := h.elim
  retain := by
    rintro v t P ⟨P', h, -⟩
    exact h.elim
  ballot _ _ _ _ h := h.elim
  elected _ _ h := by cases h

variable (h : Inv term Electing s) {t : Nat} {v : ι}
include h

theorem led_of_written (ht : s.history.written t ≠ []) : (s.leader t).isSome := by
  rw [isSome_iff_ne_none]
  exact fun hnone => ht (h.unled t hnone)

/-- The votes of a writer count for what they did, as long as they carry what they did. -/
theorem elected_of {r : State ι α} {c : ι} (hc : s.leader t = some c)
    (hstood : s.stood t c (s.history.start t) → r.stood t c (r.history.start t))
    (hvotes : ∀ x W, s.granted x t c W → s.Carries x t W →
      r.granted x t c W ∧ r.Carries x t W) :
    r.stood t c (r.history.start t) ∧
      ∃ Q, Electing Q ∧ ∀ x ∈ Q, ∃ W, r.granted x t c W ∧ r.Carries x t W := by
  obtain ⟨hs, Q, hQ, hgrants⟩ := h.elected t c hc
  refine ⟨hstood hs, Q, hQ, fun x hx => ?_⟩
  obtain ⟨W, hg, hW⟩ := hgrants x hx
  exact ⟨W, hvotes x W hg hW⟩

/-! ## One lemma for each move -/

theorem grant {c : ι} {L : List α} (hstood : s.stood (s.cur v) c L)
    (hcmp : UpToDate term L (s.log v)) (honce : ∀ c' W, s.granted v (s.cur v) c' W → c' = c) :
    Inv term Electing (s.grant v c) := by
  refine { h with
    granted_le := ?_, granted_recorded := ?_, granted_stood := ?_, granted_once := ?_
    ballot := ?_, elected := ?_ }
  · rintro x u d W (hg | ⟨rfl, rfl, -, -⟩)
    · exact h.granted_le x u d W hg
    · exact Nat.le_refl _
  · rintro x u d W (hg | ⟨-, -, -, rfl⟩)
    · exact h.granted_recorded x u d W hg
    · exact h.log_recorded v
  · rintro x u d W (hg | ⟨rfl, rfl, rfl, rfl⟩)
    · exact h.granted_stood x u d W hg
    · exact ⟨L, hstood, hcmp⟩
  · rintro x u d d' W W' (hg | ⟨rfl, rfl, rfl, -⟩) (hg' | ⟨hx, hu, hd, -⟩)
    · exact h.granted_once x u d d' W W' hg hg'
    · subst hx hu hd
      exact honce d W hg
    · exact (honce d' W' hg').symm
    · exact hd.symm
  · rintro x u d W (hg | ⟨rfl, rfl, -, rfl⟩) hfree
    · exact h.ballot x u d W hg hfree
    -- the term has no writer yet, so the bound of `retain` is met
    intro k P ha hk hb
    refine h.retain x k P ha fun u hu hku hux => ?_
    rcases Nat.lt_or_ge u (s.cur x) with hlt | hge
    · exact hb u hu hku hlt
    · have heq : u = s.cur x := by omega
      exact nomatch hfree ▸ heq ▸ hu
  · intro u d hu
    exact h.elected_of hu id fun _ _ hg hW => ⟨.inl hg, hW⟩

theorem elect {c : ι} {Q : Finset ι}
    (hstood : s.stood (s.cur c) c (s.log c)) (hfree : s.leader (s.cur c) = none)
    (hQ : Electing Q) (hvotes : ∀ v ∈ Q, ∃ W, s.granted v (s.cur c) c W) :
    Inv term Electing (s.elect c) := by
  have hnew := h.unled _ hfree
  have hcarries : ∀ v t W, s.Carries v t W → (s.elect c).Carries v t W :=
    fun v t W hW k P ha hk hb => hW k P ha hk (hb.of_elect hfree)
  refine { h with
    valid := h.valid.begin hnew (h.log_recorded c) (h.stood_lt _ _ _ hstood)
    unled := ?_
    log_recorded := fun v => (h.log_recorded v).begin hnew
    stood_recorded := fun t d L hs => (h.stood_recorded t d L hs).begin hnew
    granted_recorded := fun v t d W hg => (h.granted_recorded v t d W hg).begin hnew
    acked_written := ?_
    retain := fun v t P ha hb => h.retain v t P ha (hb.of_elect hfree)
    ballot := ?_
    elected := ?_ }
  · intro t ht
    obtain ⟨hne, ht⟩ := State.leader_elect_none ht
    exact (History.begin_written_of_ne _ hne _).trans (h.unled t ht)
  · intro v t P ha
    have hw := h.acked_written v t P ha
    dsimp only [State.elect]
    by_cases ht : t = s.cur c
    · rw [ht, hnew, prefix_nil] at hw
      rw [hw]
      exact nil_prefix
    · rwa [History.begin_written_of_ne _ ht]
  · intro v t d W hg ht
    exact hcarries v t W (h.ballot v t d W hg (State.leader_elect_none ht).2)
  · intro t d hd
    dsimp only [State.elect] at hd ⊢
    by_cases ht : t = s.cur c
    · -- the votes were given while the term had no writer
      subst ht
      rw [update_self] at hd
      cases hd
      rw [History.begin_start_self]
      refine ⟨hstood, Q, hQ, fun v hv => ?_⟩
      obtain ⟨W, hg⟩ := hvotes v hv
      exact ⟨W, hg, hcarries v _ W (h.ballot v _ c W hg hfree)⟩
    · rw [update_of_ne ht] at hd
      refine h.elected_of (r := s.elect c) hd ?_ fun v W hg hW => ⟨hg, hcarries v t W hW⟩
      exact fun hs => (History.begin_start_of_ne _ ht _).symm ▸ hs

/-- New acknowledgements are of the node's own term and do not bear on its votes. -/
theorem carries_of_acked {r : State ι α} {P₀ : List α}
    (hleader : r.leader = s.leader) (hstart : r.history.start = s.history.start)
    (hacked : ∀ x t P, r.acked x t P → s.acked x t P ∨ (x = v ∧ t = s.cur v ∧ P = P₀)) :
    ∀ x t c W, s.granted x t c W → s.Carries x t W → r.Carries x t W := by
  intro x t c W hg hW
  rintro k P ⟨P', ha, hP⟩ hk hb
  rcases hacked x k P' ha with hold | ⟨rfl, rfl, -⟩
  · refine hW k P ⟨P', hold, hP⟩ hk fun u hu hku hut => ?_
    rw [← hstart]
    exact hb u (by rw [hleader]; exact hu) hku hut
  · exact absurd (h.granted_le x t c W hg) (Nat.not_le.mpr hk)

theorem ack (hheld : P <+: s.log v) (hwritten : P <+: s.history.written (s.cur v)) :
    Inv term Electing (s.ack v P) := by
  have hcarries := h.carries_of_acked (r := s.ack v P) rfl rfl (fun _ _ _ ha => ha)
  refine { h with
    acked_le := ?_, acked_written := ?_, retain := ?_, ballot := ?_, elected := ?_ }
  · rintro x t P' (ha | ⟨rfl, rfl, -⟩)
    · exact h.acked_le x t P' ha
    · exact Nat.le_refl _
  · rintro x t P' (ha | ⟨rfl, rfl, rfl⟩)
    · exact h.acked_written x t P' ha
    · exact hwritten
  · rintro x t P' ⟨P'', ha, hP⟩ hb
    rcases ha with hold | ⟨rfl, rfl, rfl⟩
    · exact h.retain x t P' ⟨P'', hold, hP⟩ hb
    · exact hP.trans hheld
  · intro x t c W hg hfree
    exact hcarries x t c W hg (h.ballot x t c W hg hfree)
  · intro t c hc
    exact h.elected_of hc id fun x W hg hW => ⟨hg, hcarries x t c W hg hW⟩

variable [DecidableEq ι]

theorem adopt (hle : s.cur v ≤ t) : Inv term Electing (s.adopt v t) := by
  have hcur : ∀ u, s.cur u ≤ update s.cur v t u :=
    (forall_update_iff s.cur fun u k => s.cur u ≤ k).mpr ⟨hle, fun _ _ => Nat.le_refl _⟩
  exact { h with
    log_le := fun u e he => Nat.le_trans (h.log_le u e he) (hcur u)
    stood_le := fun u c L hs => Nat.le_trans (h.stood_le u c L hs) (hcur c)
    granted_le := fun u k c W hg => Nat.le_trans (h.granted_le u k c W hg) (hcur u)
    acked_le := fun u k P ha => Nat.le_trans (h.acked_le u k P ha) (hcur u)
    retain := fun u k P ha hb => h.retain u k P ha (hb.mono (Nat.succ_le_succ (hcur u))) }

theorem stand (hlt : s.cur v < t) : Inv term Electing (s.stand v t) := by
  have hself : update s.cur v t v = t := update_self v t s.cur
  have hadopt := h.adopt (Nat.le_of_lt hlt)
  refine { hadopt with
    stood_recorded := ?_, stood_lt := ?_, stood_le := ?_, granted_le := ?_
    granted_recorded := ?_, granted_stood := ?_, granted_once := ?_, stood_once := ?_
    ballot := ?_, elected := ?_ }
  · rintro u c L (hs | ⟨-, -, rfl⟩)
    · exact h.stood_recorded u c L hs
    · exact h.log_recorded v
  · rintro u c L (hs | ⟨rfl, -, rfl⟩) e he
    · exact h.stood_lt u c L hs e he
    · exact Nat.lt_of_le_of_lt (h.log_le v e he) hlt
  · rintro u c L (hs | ⟨rfl, rfl, -⟩)
    · exact hadopt.stood_le u c L hs
    · exact Nat.le_of_eq hself.symm
  · rintro x u c W (hg | ⟨rfl, rfl, -, -⟩)
    · exact hadopt.granted_le x u c W hg
    · exact Nat.le_of_eq hself.symm
  · rintro x u c W (hg | ⟨-, -, -, rfl⟩)
    · exact h.granted_recorded x u c W hg
    · exact h.log_recorded v
  · rintro x u c W (hg | ⟨rfl, rfl, rfl, rfl⟩)
    · obtain ⟨L, hs, hcmp⟩ := h.granted_stood x u c W hg
      exact ⟨L, .inl hs, hcmp⟩
    · exact ⟨s.log c, .inr ⟨rfl, rfl, rfl⟩, .inr ⟨rfl, Nat.le_refl _⟩⟩
  · -- the term is new for `v`, so it has not voted in it
    rintro x u c c' W W' (hg | ⟨rfl, rfl, rfl, -⟩) (hg' | ⟨hx, hu, hc, -⟩)
    · exact h.granted_once x u c c' W W' hg hg'
    · subst hx hu
      exact absurd (h.granted_le x u c W hg) (Nat.not_le.mpr hlt)
    · exact absurd (h.granted_le c u c' W' hg') (Nat.not_le.mpr hlt)
    · exact hc.symm
  · rintro u c L L' (hs | ⟨rfl, rfl, rfl⟩) (hs' | ⟨hu, hc, hL⟩)
    · exact h.stood_once u c L L' hs hs'
    · subst hu hc
      exact absurd (h.stood_le u c L hs) (Nat.not_le.mpr hlt)
    · exact absurd (h.stood_le u c L' hs') (Nat.not_le.mpr hlt)
    · exact hL.symm
  · rintro x u c W (hg | ⟨rfl, rfl, -, rfl⟩) hfree
    · exact h.ballot x u c W hg hfree
    · intro k P ha hk hb
      exact h.retain x k P ha (hb.mono hlt)
  · intro u c hu
    exact h.elected_of hu .inl fun _ _ hg hW => ⟨.inl hg, hW⟩

theorem append {e : α} (hled : s.leader (s.cur v) = some v)
    (hlog : s.log v = s.history.written (s.cur v)) (he : term e = s.cur v) :
    Inv term Electing (s.append v e) := by
  have hvalid := h.valid.extend he
  have hnew : s.log v ++ [e] = (s.history.extend (s.cur v) e).written (s.cur v) := by
    rw [History.extend_written_self, hlog]
  have hcarries := h.carries_of_acked (r := s.append v e) rfl rfl (fun _ _ _ ha => ha)
  refine { h with
    valid := hvalid, unled := ?_, log_recorded := ?_, log_le := ?_
    stood_recorded := fun t c L hs => (h.stood_recorded t c L hs).extend
    granted_recorded := fun x t c W hg => (h.granted_recorded x t c W hg).extend
    acked_le := ?_, acked_written := ?_, retain := ?_, ballot := ?_, elected := ?_ }
  · intro t ht
    have hne : t ≠ s.cur v := by
      rintro rfl
      exact nomatch hled.symm.trans ht
    exact (History.extend_written_of_ne _ hne _).trans (h.unled t ht)
  · refine (forall_update_iff s.log fun _ l =>
      (s.history.extend (s.cur v) e).Recorded l).mpr ⟨?_, fun x _ => (h.log_recorded x).extend⟩
    rw [hnew]
    exact hvalid.recorded_initial prefix_rfl
  · refine (forall_update_iff s.log fun x l => ∀ f ∈ l, term f ≤ s.cur x).mpr
      ⟨?_, fun x _ => h.log_le x⟩
    exact forall_mem_append.mpr ⟨h.log_le v, forall_mem_singleton.mpr (Nat.le_of_eq he)⟩
  · rintro x t P (ha | ⟨rfl, rfl, -⟩)
    · exact h.acked_le x t P ha
    · exact Nat.le_refl _
  · rintro x t P (ha | ⟨rfl, rfl, rfl⟩)
    · exact (h.acked_written x t P ha).trans (History.written_initial_extend _ _ _ _)
    · exact hnew ▸ prefix_rfl
  · rintro x t P ⟨P', ha, hP⟩ hb
    dsimp only [State.append]
    rcases ha with hold | ⟨rfl, rfl, rfl⟩
    · have hheld : P <+: s.log x := h.retain x t P ⟨P', hold, hP⟩ hb
      by_cases hx : x = v
      · rw [hx, update_self]
        exact (hx ▸ hheld).trans (prefix_append _ _)
      · rwa [update_of_ne hx]
    · rwa [update_self]
  · intro x t c W hg hfree
    exact hcarries x t c W hg (h.ballot x t c W hg hfree)
  · intro t c hc
    exact h.elected_of hc id fun x W hg hW => ⟨hg, hcarries x t c W hg hW⟩

theorem overwrite {l : List α} (hled : (s.leader (s.cur v)).isSome)
    (hfrom : l <+: s.log v ∨ l <+: s.history.written (s.cur v))
    (hkeep : ∀ P, P <+: s.log v → P <+: s.history.written (s.cur v) → P <+: l) :
    Inv term Electing (s.overwrite v l) := by
  refine { h with log_recorded := ?_, log_le := ?_, retain := ?_ }
  · refine (forall_update_iff s.log fun _ l => s.history.Recorded l).mpr
      ⟨?_, fun x _ => h.log_recorded x⟩
    rcases hfrom with hl | hl
    · exact (h.log_recorded v).initial h.valid hl
    · exact h.valid.recorded_initial hl
  · refine (forall_update_iff s.log fun x l => ∀ e ∈ l, term e ≤ s.cur x).mpr
      ⟨fun e he => ?_, fun x _ => h.log_le x⟩
    rcases hfrom with hl | hl
    · exact h.log_le v e (hl.subset he)
    obtain ⟨i, hi⟩ := getElem?_of_mem (hl.subset he)
    rcases h.valid.written_term hi with ⟨-, ht⟩ | ⟨-, ht⟩
    · exact Nat.le_of_lt ht
    · exact Nat.le_of_eq ht
  · intro x t P ha hb
    have hheld : P <+: s.log x := h.retain x t P ha hb
    dsimp only [State.overwrite]
    by_cases hx : x = v
    · subst hx
      rw [update_self]
      refine hkeep P hheld ?_
      -- the writer of the term holds `P`: it is its own prefix, or it started from it
      obtain ⟨P', hacked, hP⟩ := ha
      rcases Nat.lt_or_ge t (s.cur x) with hlt | hge
      · exact (hb _ hled hlt (Nat.lt_succ_self _)).trans (h.valid.start_initial _)
      · have heq : t = s.cur x := Nat.le_antisymm (h.acked_le x t P' hacked) hge
        rw [← heq]
        exact hP.trans (h.acked_written x t P' hacked)
    · rwa [update_of_ne hx]

/-- **The invariant is inductive.** -/
theorem step {s' : State ι α} (hs : Step term Electing s s') : Inv term Electing s' := by
  cases hs with
  | adopt v t hle => exact h.adopt hle
  | stand v t hlt => exact h.stand hlt
  | grant v c L hstood hcmp honce => exact h.grant hstood hcmp honce
  | elect c Q hstood hfree hQ hvotes => exact h.elect hstood hfree hQ hvotes
  | append v e hled hlog he => exact h.append hled hlog he
  | overwrite v l hled hfrom hkeep => exact h.overwrite hled hfrom hkeep
  | ack v P hheld hwritten => exact h.ack hheld hwritten

theorem steps {s' : State ι α}
    (hs : Relation.ReflTransGen (Step term Electing) s s') : Inv term Electing s' := by
  induction hs with
  | refl => exact h
  | tail _ hstep ih => exact ih.step hstep

end Inv

/-! ## What the invariant gives -/

section Safety
variable {term : α → Nat} {Electing Deciding : Finset ι → Prop} {s : State ι α}

variable {t t' : Nat} {P : List α}

/-- A prefix with an entry of its term that a deciding quorum has acknowledged. -/
def Chosen (Deciding : Finset ι → Prop) (s : State ι α) (t : Nat) (P : List α) : Prop :=
  (s.history.start t).length < P.length ∧ P <+: s.history.written t ∧
    ∃ B, Deciding B ∧ ∀ v ∈ B, s.Acked v t P

/-- A log at least as up to date as one that holds a chosen prefix holds it too, if the
writers in between started from logs that do. -/
theorem Inv.upToDate_holds (h : Inv term Electing s) {W L : List α}
    (hP : (s.history.start t).length < P.length) (hPt : P <+: s.history.written t)
    (hW : s.history.Recorded W) (hL : s.history.Recorded L) (hlt : ∀ e ∈ L, term e < t')
    (hPW : P <+: W) (hcmp : UpToDate term L W) (hheld : s.HeldBetween t t' P) : P <+: L := by
  have hPne : P ≠ [] := ne_nil_of_length_pos (by omega)
  have hWne : W ≠ [] := by
    rintro rfl
    exact hPne (prefix_nil.mp hPW)
  have hx := getLast?_eq_some_getLast hWne
  -- the last term of `W` is not before `t`
  have hterm : t ≤ term (W.getLast hWne) := by
    have hlast := h.valid.last_term hP hPt (getLast?_eq_some_getLast hPne)
    have hmem : P.getLast hPne ∈ W := hPW.subset (getLast_mem hPne)
    have := hW.term_le_last h.valid hmem hx
    omega
  have hWlast : lastTerm term W = term (W.getLast hWne) := by
    unfold lastTerm
    rw [hx, elim_some]
  have hLne : L ≠ [] := by
    rintro rfl
    rcases hcmp with hlt' | ⟨-, hlen⟩
    · exact absurd hlt' (Nat.not_lt_zero _)
    · exact hWne (length_eq_zero_iff.mp (Nat.le_zero.mp hlen))
  have hy := getLast?_eq_some_getLast hLne
  have hLlast : lastTerm term L = term (L.getLast hLne) := by
    unfold lastTerm
    rw [hy, elim_some]
  obtain ⟨hLlen, hLw⟩ := hL.of_last h.valid hy
  rcases hcmp with hless | ⟨heq, hlen⟩
  · -- the last writer of `L` came after `t`, and started from a log that holds `P`
    have hled : (s.leader (term (L.getLast hLne))).isSome := by
      refine h.led_of_written ?_
      intro hnil
      rw [hnil, prefix_nil] at hLw
      exact hLne hLw
    have hstart := hheld _ hled (by omega) (hlt _ (getLast_mem hLne))
    refine prefix_of_prefix_length_le (hstart.trans (h.valid.start_initial _)) hLw ?_
    have := hstart.length_le
    omega
  · obtain ⟨-, hWw⟩ := hW.of_last h.valid hx
    have hsame : term (W.getLast hWne) = term (L.getLast hLne) := by omega
    rw [hsame] at hWw
    exact hPW.trans (prefix_of_prefix_length_le hWw hLw hlen)

/-- A prefix of a chosen prefix. -/
def Decided (Deciding : Finset ι → Prop) (s : State ι α) (l : List α) : Prop :=
  l = [] ∨ ∃ t P, Chosen Deciding s t P ∧ l <+: P

theorem Decided.initial {l m : List α} (h : Decided Deciding s m) (hl : l <+: m) :
    Decided Deciding s l := by
  rcases h with rfl | ⟨t, P, hP, hm⟩
  · exact .inl (prefix_nil.mp hl)
  · exact .inr ⟨t, P, hP, hl.trans hm⟩

variable [DecidableEq ι]

section
variable (h : Inv term Electing s)
include h

/-- One writer per term: a quorum of votes of a term is for the writer it has. -/
theorem Inv.elected_once (hmeet : ∀ Q R, Electing Q → Electing R → (Q ∩ R).Nonempty) {c d : ι}
    (hc : s.leader t = some c) {R : Finset ι} (hR : Electing R)
    (hvotes : ∀ v ∈ R, ∃ W, s.granted v t d W) : d = c := by
  obtain ⟨-, Q, hQ, hgrants⟩ := h.elected t c hc
  obtain ⟨v, hv⟩ := hmeet Q R hQ hR
  obtain ⟨hvQ, hvR⟩ := Finset.mem_inter.mp hv
  obtain ⟨W, hg, -⟩ := hgrants v hvQ
  obtain ⟨W', hg'⟩ := hvotes v hvR
  exact h.granted_once v t d c W' W hg' hg

section
variable (hmeet : ∀ Q B, Electing Q → Deciding B → (Q ∩ B).Nonempty)
include hmeet

/-- **Leader completeness**: every later writer starts from a log that holds the chosen
prefix. -/
theorem Inv.chosen_in_start (hc : Chosen Deciding s t P)
    (hlt : t < t') (hled : (s.leader t').isSome) :
    P <+: s.history.start t' := by
  obtain ⟨hP, hPt, B, hB, hacked⟩ := hc
  -- by strong induction on the later term
  induction t' using Nat.strong_induction_on with
  | _ t' ih =>
    obtain ⟨c, hc⟩ := isSome_iff_exists.mp hled
    obtain ⟨hstood, Q, hQ, hvotes⟩ := h.elected t' c hc
    obtain ⟨v, hv⟩ := hmeet Q B hQ hB
    obtain ⟨hvQ, hvB⟩ := Finset.mem_inter.mp hv
    obtain ⟨W, hg, hcarries⟩ := hvotes v hvQ
    have hheld : s.HeldBetween t t' P := fun u hu htu hut => ih u hut htu hu
    obtain ⟨L, hL, hcmp⟩ := h.granted_stood v t' c W hg
    rw [h.stood_once t' c L _ hL hstood] at hcmp
    exact h.upToDate_holds hP hPt (h.granted_recorded v t' c W hg)
      (h.stood_recorded t' c _ hstood) (h.stood_lt t' c _ hstood)
      (hcarries t P (hacked v hvB) hlt hheld) hcmp hheld

/-- **Chosen prefixes agree.** -/
theorem Inv.chosen_agree {P' : List α}
    (hc : Chosen Deciding s t P) (hc' : Chosen Deciding s t' P') :
    P <+: P' ∨ P' <+: P := by
  have hle : ∀ {u u' : Nat} {R R' : List α}, Chosen Deciding s u R → Chosen Deciding s u' R' →
      u ≤ u' → R <+: R' ∨ R' <+: R := by
    intro u u' R R' hR hR' hle
    rcases Nat.lt_or_eq_of_le hle with hlt | rfl
    · have hled : (s.leader u').isSome := by
        refine h.led_of_written ?_
        intro hnil
        have hlen := hR'.2.1.length_le
        have := hR'.1
        rw [hnil, length_nil] at hlen
        omega
      have hstart := h.chosen_in_start hmeet hR hlt hled
      exact prefix_or_prefix_of_prefix (hstart.trans (h.valid.start_initial u')) hR'.2.1
    · exact prefix_or_prefix_of_prefix hR.2.1 hR'.2.1
  rcases Nat.le_total t t' with htt | htt
  · exact hle hc hc' htt
  · exact (hle hc' hc htt).symm

/-- **Decided logs agree.** -/
theorem Inv.decided_agree {l m : List α}
    (hl : Decided Deciding s l) (hm : Decided Deciding s m) : l <+: m ∨ m <+: l := by
  rcases hl with rfl | ⟨t, P, hP, hlP⟩
  · exact .inl nil_prefix
  rcases hm with rfl | ⟨t', P', hP', hmP'⟩
  · exact .inr nil_prefix
  rcases h.chosen_agree hmeet hP hP' with hPP | hPP
  · exact prefix_or_prefix_of_prefix (hlP.trans hPP) hmP'
  · exact prefix_or_prefix_of_prefix hlP (hmP'.trans hPP)

end

end

end Safety

/-! ## Records are kept -/

/-- Writers, written logs, votes and acknowledgements of `s` are all in `r`. -/
structure Grows (s r : State ι α) : Prop where
  leader : ∀ t c, s.leader t = some c → r.leader t = some c
  start : ∀ t, (s.leader t).isSome → r.history.start t = s.history.start t
  written : ∀ t, s.history.written t <+: r.history.written t
  stood : ∀ t c L, s.stood t c L → r.stood t c L
  granted : ∀ v t c W, s.granted v t c W → r.granted v t c W
  acked : ∀ v t P, s.acked v t P → r.acked v t P

namespace Grows
variable {s r q : State ι α}

theorem refl (s : State ι α) : Grows s s where
  leader _ _ h := h
  start _ _ := rfl
  written _ := prefix_rfl
  stood _ _ _ h := h
  granted _ _ _ _ h := h
  acked _ _ _ h := h

section
variable (h : Grows s r)
include h

theorem led {t : Nat} (ht : (s.leader t).isSome) : (r.leader t).isSome := by
  obtain ⟨c, hc⟩ := isSome_iff_exists.mp ht
  exact isSome_iff_exists.mpr ⟨c, h.leader t c hc⟩

theorem trans (h' : Grows r q) : Grows s q where
  leader t c hc := h'.leader t c (h.leader t c hc)
  start t ht := (h'.start t (h.led ht)).trans (h.start t ht)
  written t := (h.written t).trans (h'.written t)
  stood t c L hs := h'.stood t c L (h.stood t c L hs)
  granted v t c W hg := h'.granted v t c W (h.granted v t c W hg)
  acked v t P ha := h'.acked v t P (h.acked v t P ha)

/-- What is acknowledged stays acknowledged. -/
theorem ackedBy {v : ι} {t : Nat} (ha : s.Acked v t P) : r.Acked v t P := by
  obtain ⟨P', hP', hP⟩ := ha
  exact ⟨P', h.acked v t P' hP', hP⟩

theorem chosen (hI : Inv term Electing s) {t : Nat} (hc : Chosen Deciding s t P) :
    Chosen Deciding r t P := by
  obtain ⟨hP, hPt, B, hB, hacked⟩ := hc
  have hled : (s.leader t).isSome := by
    refine hI.led_of_written ?_
    intro hnil
    rw [hnil, prefix_nil] at hPt
    rw [hPt] at hP
    exact Nat.not_lt_zero _ hP
  refine ⟨by rw [h.start t hled]; exact hP, hPt.trans (h.written t), B, hB, fun v hv => ?_⟩
  exact h.ackedBy (hacked v hv)

theorem decided (hI : Inv term Electing s) {l : List α} (hd : Decided Deciding s l) :
    Decided Deciding r l := by
  rcases hd with hnil | ⟨t, P, hP, hl⟩
  · exact .inl hnil
  · exact .inr ⟨t, P, h.chosen hI hP, hl⟩

end

end Grows

theorem Step.grows [DecidableEq ι] {Electing : Finset ι → Prop} {s r : State ι α}
    (hI : Inv term Electing s) (h : Step term Electing s r) : Grows s r := by
  cases h with
  | adopt | overwrite => exact { Grows.refl s with }
  | stand v t hlt =>
    exact { Grows.refl s with
      stood := fun _ _ _ hs => .inl hs
      granted := fun _ _ _ _ hg => .inl hg }
  | grant v c L hstood hcmp honce =>
    exact { Grows.refl s with granted := fun _ _ _ _ hg => .inl hg }
  | elect c Q hstood hfree hQ hvotes =>
    have hne : ∀ t, (s.leader t).isSome → t ≠ s.cur c := by
      rintro t ht rfl
      rw [hfree] at ht
      cases ht
    refine { Grows.refl s with leader := ?_, start := ?_, written := ?_ }
    · intro t d hd
      dsimp only
      rw [update_of_ne (hne t (isSome_iff_exists.mpr ⟨d, hd⟩))]
      exact hd
    · intro t ht
      exact History.begin_start_of_ne _ (hne t ht) _
    · intro t
      by_cases ht : t = s.cur c
      · rw [ht, hI.unled _ hfree]
        exact nil_prefix
      · rw [History.begin_written_of_ne _ ht]
  | append v e hled hlog he =>
    exact { Grows.refl s with
      written := fun t => History.written_initial_extend _ _ t e
      acked := fun _ _ _ ha => .inl ha }
  | ack v P hheld hwritten => exact { Grows.refl s with acked := fun _ _ _ ha => .inl ha }

theorem Inv.grows [DecidableEq ι] {Electing : Finset ι → Prop} {s r : State ι α}
    (hI : Inv term Electing s) (h : Relation.ReflTransGen (Step term Electing) s r) :
    Grows s r := by
  induction h with
  | refl => exact .refl s
  | tail hsteps hstep ih => exact ih.trans (Step.grows (hI.steps hsteps) hstep)

end QuorumReplication
