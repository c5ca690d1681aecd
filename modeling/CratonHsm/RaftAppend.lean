import CratonHsm.RaftReplication

/-!
# The append loop on a numbered log

`handle_append_entries` walks through the batch and compares each entry with what `get`
finds at its index.  On a log numbered from `b`, and a batch that starts inside the log
or right behind it, the walk has a simple shape: the batch agrees in term with the log
for a while (`Agrees`), and then it is used up, or runs past the end of the log, or meets
a conflicting entry (`LoopOutcome`).  Everything that follows about logs is read off
these four outcomes.
-/

namespace CratonHsm
open RaftLog

/-- The log from position `k` on and the batch agree in term for `j` entries. -/
def Agrees (l es : List LogEntry) (k j : Nat) : Prop :=
  ∀ m < j, ∃ x e, l[k + m]? = some x ∧ es[m]? = some e ∧ x.term = e.term

theorem Agrees.zero (l es : List LogEntry) (k : Nat) : Agrees l es k 0 :=
  fun _ hm => absurd hm (Nat.not_lt_zero _)

theorem Agrees.cons {l es : List LogEntry} {k j : Nat} {x e : LogEntry} (hx : l[k]? = some x)
    (ht : x.term = e.term) (h : Agrees l es (k + 1) j) : Agrees l (e :: es) k (j + 1) := by
  intro m hm
  cases m with
  | zero => exact ⟨x, e, hx, rfl, ht⟩
  | succ m =>
    obtain ⟨y, f, hy, hf, hterm⟩ := h m (Nat.lt_of_succ_lt_succ hm)
    exact ⟨y, f, by rw [← hy]; congr 1; omega, hf, hterm⟩

namespace AppendProgress
variable {σ : Type}

/-- The log is cut to its first `k` entries and continued with `es`. -/
def continueWith (p : AppendProgress σ) (k : Nat) (es : List LogEntry) : AppendProgress σ :=
  { p with
    log := { p.log with entries := p.log.entries.take k ++ es }
    newlyAppended := p.newlyAppended ++ es }

variable [RaftStorage σ]

/-- How the loop ends on a log numbered from `b`, for a batch that starts at position `k`
and agrees with the log for `j` entries. -/
inductive LoopOutcome (b k j : Nat) (p : AppendProgress σ) (es : List LogEntry) :
    Bool × AppendProgress σ → Prop
  /-- The log already holds the whole batch. -/
  | covered (hj : j = es.length) : LoopOutcome b k j p es (true, p)
  /-- The batch runs past the end of the log. -/
  | extended (hj : j < es.length) (hend : k + j = p.log.entries.length) :
      LoopOutcome b k j p es (true, p.continueWith (k + j) (es.drop j))
  /-- A conflicting entry and what follows it are replaced. -/
  | replaced (hj : j < es.length) (hlt : k + j < p.log.entries.length)
      (hconflict : ∀ x e, p.log.entries[k + j]? = some x → es[j]? = some e → x.term ≠ e.term)
      (hc : p.log.committed < b + k + j) (ha : p.log.applied < b + k + j) :
      LoopOutcome b k j p es (true,
        { p.continueWith (k + j) (es.drop j) with
          storage := RaftNode.persistTruncate p.storage (b + k + j - 1) })
  /-- The conflicting entry is committed or applied. -/
  | refused (hj : j < es.length) (hlt : k + j < p.log.entries.length)
      (hc : b + k + j ≤ p.log.committed ∨ b + k + j ≤ p.log.applied) :
      LoopOutcome b k j p es (false, p)

/-- A batch that starts right behind the log is appended whole. -/
theorem appendLoop_append {p : AppendProgress σ} {b : Nat} {es : List LogEntry} (hb : 0 < b)
    (hl : Numbered b p.log.entries) (hes : Numbered (b + p.log.entries.length) es) :
    p.appendLoop es = (true, { p with
      log := { p.log with entries := p.log.entries ++ es }
      newlyAppended := p.newlyAppended ++ es }) := by
  induction es generalizing p with
  | nil => simp [appendLoop]
  | cons e es ih =>
    obtain ⟨hindex, hrest⟩ := Numbered.cons_iff.mp hes
    have hget : p.log.get e.index = none := by
      have h := get_isSome_iff hl hb e.index
      rw [← Option.not_isSome_iff_eq_none, h]
      omega
    have hpush : Numbered b (p.push e).log.entries :=
      Numbered.append_iff.mpr ⟨hl, Numbered.singleton_iff.mpr hindex⟩
    unfold appendLoop
    rw [hget]
    rw [ih hpush (by simpa [push, Nat.add_assoc] using hrest)]
    simp [push]

/-- **What the append loop does** to a numbered log. -/
theorem appendLoop_spec {p : AppendProgress σ} {b k : Nat} {es : List LogEntry} (hb : 0 < b)
    (hl : Numbered b p.log.entries) (hes : Numbered (b + k) es) (hk : k ≤ p.log.entries.length) :
    ∃ j, Agrees p.log.entries es k j ∧ LoopOutcome b k j p es (p.appendLoop es) := by
  -- along the batch: the log does not change while the batch agrees with it
  induction es generalizing k with
  | nil => exact ⟨0, .zero _ _ _, .covered rfl⟩
  | cons e es ih =>
    obtain ⟨hindex, hrest⟩ := Numbered.cons_iff.mp hes
    have hget : p.log.get e.index = p.log.entries[k]? := by
      rw [get_of_numbered hl hb, hindex, if_pos (Nat.le_add_right b k), Nat.add_sub_cancel_left]
    cases hx : p.log.entries[k]? with
    | none =>
      obtain rfl := Nat.le_antisymm hk (List.getElem?_eq_none_iff.mp hx)
      refine ⟨0, .zero _ _ _, ?_⟩
      have hout : LoopOutcome b _ 0 p (e :: es) _ := .extended (Nat.succ_pos _) (Nat.add_zero _)
      rw [appendLoop_append hb hl hes]
      rwa [continueWith, Nat.add_zero, List.take_length] at hout
    | some x =>
      obtain ⟨hlt, -⟩ := List.getElem?_eq_some_iff.mp hx
      by_cases hterm : x.term = e.term
      · obtain ⟨j, hag, hout⟩ := ih (k := k + 1) hrest hlt
        refine ⟨j + 1, hag.cons hx hterm, ?_⟩
        have hloop : p.appendLoop (e :: es) = p.appendLoop es := by
          rw [appendLoop, hget, hx]
          exact if_neg (fun h => h hterm)
        rw [hloop]
        have hk : k + 1 + j = k + (j + 1) := by omega
        have hk' : b + (k + 1) + j = b + k + (j + 1) := by omega
        generalize p.appendLoop es = r at hout ⊢
        cases hout with
        | covered hj => exact .covered (congrArg (· + 1) hj)
        | extended hj hend =>
          rw [hk] at hend ⊢
          exact .extended (Nat.succ_lt_succ hj) hend
        | replaced hj hlt hconflict hc ha =>
          rw [hk] at hlt hconflict ⊢
          rw [hk'] at hc ha ⊢
          exact .replaced (Nat.succ_lt_succ hj) hlt hconflict hc ha
        | refused hj hlt hc =>
          rw [hk] at hlt
          rw [hk'] at hc
          exact .refused (Nat.succ_lt_succ hj) hlt hc
      · refine ⟨0, .zero _ _ _, ?_⟩
        rw [appendLoop, hget, hx]
        dsimp only
        rw [if_pos hterm]
        cases ht : p.log.truncateAfter (e.index - 1) with
        | error err =>
          refine .refused (Nat.succ_pos _) hlt ?_
          unfold truncateAfter at ht
          split at ht
          · left; omega
          · split at ht
            · right; omega
            · cases ht
        | ok log =>
          have hcut := truncateAfter_entries hl ht
          obtain ⟨hc, ha, -⟩ := truncateAfter_ok ht
          rw [show e.index - 1 + 1 - b = k from by omega] at hcut
          have hlen : (p.log.entries.take k).length = k := List.length_take_of_le hk
          have hpush : Numbered b (p.log.entries.take k ++ [e]) :=
            Numbered.append_iff.mpr ⟨hl.take _, Numbered.singleton_iff.mpr (by rw [hlen, hindex])⟩
          have hbehind : Numbered (b + (p.log.entries.take k ++ [e]).length) es := by
            rw [List.length_append, hlen]
            exact hrest
          have hloop := appendLoop_append
            (p := push { p with log := log
                                storage := RaftNode.persistTruncate p.storage (e.index - 1) } e)
            hb (by rw [hcut]; exact hpush) (by rw [hcut]; exact hbehind)
          dsimp only
          rw [hloop, hcut, show e.index - 1 = b + k + 0 - 1 from by omega]
          have hout : LoopOutcome b k 0 p (e :: es) _ :=
            .replaced (Nat.succ_pos _) hlt
              (fun y f hy hf => by
                rw [Nat.add_zero, hx] at hy
                cases hy
                cases hf
                exact hterm) (by omega) (by omega)
          simpa [push, continueWith] using hout

end AppendProgress

end CratonHsm
