import Mathlib.Tactic.Common

/-!
# Token buckets

A bucket of capacity `c` gains one token every `r` time units; the remainder of the last
unit stays with the time of the last refill.  Grants are counted from a time `t0` on.
`Paid` says that the grants so far are covered by a full bucket at `t0` and the refills
since; it survives refilling, taking a token and the removal of a bucket that is due to be
full, and it bounds the number of grants (`Paid.bound`).
-/

namespace TokenBucket

/-- The tokens left, and when they were last counted. -/
structure Bucket where
  tokens : Nat
  last : Nat

variable {c r t0 now later granted : Nat} {b : Bucket}

/-- The tokens due at `now`, up to the capacity. -/
def Bucket.refill (c r now : Nat) (b : Bucket) : Bucket where
  tokens := min (b.tokens + (now - b.last) / r) c
  last := b.last + (now - b.last) / r * r

/-- The refills that fit between `t0` and a refill at time `t`, the one just before `t0`
included. -/
def refillsSince (r t0 t : Nat) : Nat := (t + r - 1 - t0) / r

/-- The grants made since `t0` are paid for.  No bucket stands for a full one. -/
def Paid (c r t0 now granted : Nat) : Option Bucket → Prop
  | some b => b.last ≤ now ∧ t0 < b.last + r ∧ granted + b.tokens ≤ c + refillsSince r t0 b.last
  | none => granted ≤ refillsSince r t0 now

theorem refillsSince_mono (r t0 : Nat) {t u : Nat} (h : t ≤ u) :
    refillsSince r t0 t ≤ refillsSince r t0 u :=
  Nat.div_le_div_right (by omega)

theorem refillsSince_add {t k : Nat} (hr : 0 < r) (ht : t0 < t + r) :
    refillsSince r t0 (t + k * r) = refillsSince r t0 t + k := by
  have hsum : t + k * r + r - 1 - t0 = t + r - 1 - t0 + k * r := by omega
  rw [refillsSince, hsum, Nat.add_mul_div_right _ _ hr, refillsSince]

theorem refillsSince_le (hr : 0 < r) {t1 : Nat} (h : t0 ≤ t1) :
    refillsSince r t0 t1 ≤ (t1 - t0) / r + 1 := by
  have hshift : t1 + r - 1 - t0 ≤ t1 - t0 + 1 * r := by omega
  calc refillsSince r t0 t1 ≤ (t1 - t0 + 1 * r) / r := Nat.div_le_div_right hshift
    _ = (t1 - t0) / r + 1 := Nat.add_mul_div_right _ _ hr

theorem refill_last_le (h : b.last ≤ now) : (b.refill c r now).last ≤ now := by
  have hmul := Nat.div_mul_le_self (now - b.last) r
  simp only [Bucket.refill]
  omega

theorem lt_refill_last (hr : 0 < r) (h : b.last ≤ now) : now < (b.refill c r now).last + r := by
  have hlt := Nat.lt_div_mul_add hr (a := now - b.last)
  simp only [Bucket.refill]
  omega

/-- After a refill the grants are paid for, whether there were any before or not. -/
theorem paid_refill (hr : 0 < r) (hlast : b.last ≤ now) (ht : t0 ≤ now)
    (h : granted = 0 ∨ Paid c r t0 now granted (some b)) :
    Paid c r t0 now granted (some (b.refill c r now)) := by
  have hstart : t0 < (b.refill c r now).last + r := Nat.lt_of_le_of_lt ht (lt_refill_last hr hlast)
  refine ⟨refill_last_le hlast, hstart, ?_⟩
  rcases h with rfl | ⟨-, hsince, hpaid⟩
  · -- no grant yet: the capacity alone covers the bucket
    rw [Nat.zero_add]
    exact Nat.le_trans (Nat.min_le_right _ _) (Nat.le_add_right _ _)
  · have hadd := refillsSince_add (k := (now - b.last) / r) hr hsince
    have htokens : (b.refill c r now).tokens ≤ b.tokens + (now - b.last) / r := Nat.min_le_left _ _
    simp only [Bucket.refill] at htokens ⊢
    omega

theorem Paid.take (h : Paid c r t0 now granted (some b)) (hpos : 0 < b.tokens) :
    Paid c r t0 now (granted + 1) (some ⟨b.tokens - 1, b.last⟩) := by
  obtain ⟨hlast, hsince, hpaid⟩ := h
  exact ⟨hlast, hsince, by dsimp only; omega⟩

theorem Paid.mono {o : Option Bucket} (h : Paid c r t0 now granted o) (hle : now ≤ later) :
    Paid c r t0 later granted o := by
  cases o with
  | none => exact Nat.le_trans h (refillsSince_mono r t0 hle)
  | some b => exact ⟨Nat.le_trans h.1 hle, h.2⟩

/-- A bucket that is due to be full may be removed. -/
theorem Paid.remove (hr : 0 < r) (h : Paid c r t0 now granted (some b))
    (hfull : c ≤ b.tokens + (now - b.last) / r) : Paid c r t0 now granted none := by
  obtain ⟨hlast, hsince, hpaid⟩ := h
  have hadd := refillsSince_add (k := (now - b.last) / r) hr hsince
  have hend : b.last + (now - b.last) / r * r ≤ now := by
    have := Nat.div_mul_le_self (now - b.last) r
    omega
  have hle := refillsSince_mono r t0 hend
  show granted ≤ refillsSince r t0 now
  omega

/-- A missing bucket may be replaced by a full one. -/
theorem Paid.create (hr : 0 < r) (ht : t0 ≤ now) (h : Paid c r t0 now granted none) :
    Paid c r t0 now granted (some ⟨c, now⟩) := by
  have hle : granted ≤ refillsSince r t0 now := h
  exact ⟨Nat.le_refl now, by dsimp only; omega, by dsimp only; omega⟩

/-- **The number of grants in a window** is at most the capacity, the refills of the window
and one. -/
theorem Paid.bound (hr : 0 < r) {o : Option Bucket} (h : Paid c r t0 now granted o) {t1 : Nat}
    (h0 : t0 ≤ now) (h1 : now ≤ t1) : granted ≤ c + (t1 - t0) / r + 1 := by
  have hwindow := refillsSince_le hr (Nat.le_trans h0 h1)
  have hnow := refillsSince_mono r t0 h1
  cases o with
  | none =>
    have hle : granted ≤ refillsSince r t0 now := h
    omega
  | some b =>
    have hlast := refillsSince_mono r t0 h.1
    have hpaid := h.2.2
    omega

end TokenBucket
