import Mathlib.Data.List.Infix
import Mathlib.Tactic.Ring

/-!
# Prefix-free byte codes

A byte code is **prefix-free** on a set of values when the code of a value can be
recognised at the front of any byte string: whatever follows, equal strings start
with the code of the same value and go on with the same rest (`PrefixFree`).
Concatenating prefix-free codes field by field gives a prefix-free code of the
record (`PrefixFree.append`), so a whole message format is uniquely decodable as
soon as its fields are.

Three field codes are provided: integers of a fixed width, most significant byte
first (`bigEndian`), byte strings behind a big-endian length (`lengthPrefixed`), and
single bytes that select a case (`PrefixFree.byte`).  A list of records that
fills the rest of a message needs no count of its own
(`PrefixFree.flatMap_injective`).
-/

namespace PrefixFreeCode
open List

/-- Byte strings. -/
abbrev Bytes := List UInt8

-- by name, so that all definitions that compare bytes rest on the same proof
instance : LawfulBEq Bytes := inferInstance

/-- Equal byte strings that both start with codes of values in `P` start with the
code of one value, and continue alike. -/
def PrefixFree {α : Type} (P : α → Prop) (code : α → Bytes) : Prop :=
  ∀ a b r s, P a → P b → code a ++ r = code b ++ s → a = b ∧ r = s

namespace PrefixFree
variable {α β : Type} {P : α → Prop} {Q : β → Prop} {f : α → Bytes} {g : β → Bytes}

/-- Codes of one common width are prefix-free as soon as they are injective. -/
theorem of_width (w : Nat) (hw : ∀ a, (f a).length = w)
    (hinj : ∀ a b, P a → P b → f a = f b → a = b) : PrefixFree P f := by
  intro a b r s ha hb h
  obtain ⟨hcode, hrest⟩ := append_inj h ((hw a).trans (hw b).symm)
  exact ⟨hinj a b ha hb hcode, hrest⟩

/-- The code of a pair of fields, one after the other. -/
theorem append (hf : PrefixFree P f) (hg : PrefixFree Q g) :
    PrefixFree (fun p : α × β => P p.1 ∧ Q p.2) (fun p => f p.1 ++ g p.2) := by
  rintro ⟨a, b⟩ ⟨a', b'⟩ r s ⟨ha, hb⟩ ⟨ha', hb'⟩ h
  simp only [append_assoc] at h
  obtain ⟨rfl, h'⟩ := hf _ _ _ _ ha ha' h
  obtain ⟨rfl, hrest⟩ := hg _ _ _ _ hb hb' h'
  exact ⟨rfl, hrest⟩

/-- A code of `β` is a code of `α` through an injection that respects the sets. -/
theorem comap (hg : PrefixFree Q g) (i : α → β) (hi : ∀ a, P a → Q (i a))
    (hinj : ∀ a b, P a → P b → i a = i b → a = b) : PrefixFree P (fun a => g (i a)) := by
  intro a b r s ha hb h
  obtain ⟨hab, hrest⟩ := hg _ _ _ _ (hi a ha) (hi b hb) h
  exact ⟨hinj a b ha hb hab, hrest⟩

/-- A prefix-free code is injective. -/
theorem injective (hf : PrefixFree P f) {a b : α} (ha : P a) (hb : P b) (h : f a = f b) : a = b :=
  (hf a b [] [] ha hb (by rw [h])).1

/-- One byte that determines the value. -/
theorem byte {t : α → UInt8} (ht : ∀ a b, P a → P b → t a = t b → a = b) :
    PrefixFree P (fun a => [t a]) :=
  of_width 1 (fun _ => rfl) (fun a b ha hb h => ht a b ha hb (List.cons.inj h).1)

/-- **A list that fills the rest of the message is determined by its bytes.**  The
codes are nonempty, so the byte string says by itself where the list stops. -/
theorem flatMap_injective (hf : PrefixFree P f) (hne : ∀ a, P a → f a ≠ []) :
    ∀ l m : List α, (∀ a ∈ l, P a) → (∀ a ∈ m, P a) → l.flatMap f = m.flatMap f → l = m := by
  intro l
  induction l with
  | nil =>
    intro m _ hm h
    cases m with
    | nil => rfl
    | cons b m =>
      exfalso
      rw [flatMap_nil, flatMap_cons] at h
      exact hne b (hm b mem_cons_self) (append_eq_nil_iff.mp h.symm).1
  | cons a l ih =>
    intro m hl hm h
    cases m with
    | nil =>
      exfalso
      rw [flatMap_nil, flatMap_cons] at h
      exact hne a (hl a mem_cons_self) (append_eq_nil_iff.mp h).1
    | cons b m =>
      rw [flatMap_cons, flatMap_cons] at h
      obtain ⟨rfl, hrest⟩ :=
        hf a b _ _ (hl a mem_cons_self) (hm b mem_cons_self) h
      rw [ih m (fun x hx => hl x (mem_cons_of_mem _ hx))
        (fun x hx => hm x (mem_cons_of_mem _ hx)) hrest]

end PrefixFree

/-! ## Integers of a fixed width -/

/-- The low `w` bytes of `n`, most significant first. -/
def bigEndian : Nat → Nat → Bytes
  | 0, _ => []
  | w + 1, n => UInt8.ofNat (n / 256 ^ w) :: bigEndian w n

@[simp] theorem bigEndian_length (w n : Nat) : (bigEndian w n).length = w := by
  induction w with
  | zero => rfl
  | succ w ih => rw [bigEndian, length_cons, ih]

/-- Equal bytes come from integers that agree modulo the width. -/
theorem bigEndian_mod {w a b : Nat} (h : bigEndian w a = bigEndian w b) :
    a % 256 ^ w = b % 256 ^ w := by
  induction w with
  | zero => rw [Nat.pow_zero, Nat.mod_one, Nat.mod_one]
  | succ w ih =>
    obtain ⟨htop, hlow⟩ := List.cons.inj h
    have hdigit : a / 256 ^ w % 256 = b / 256 ^ w % 256 := by
      simpa using congrArg UInt8.toNat htop
    rw [Nat.pow_succ, Nat.mod_mul, Nat.mod_mul, ih hlow, hdigit]

/-- **Fixed-width integers are prefix-free** on the range of the width. -/
theorem prefixFree_bigEndian (w : Nat) : PrefixFree (fun n => n < 256 ^ w) (bigEndian w) := by
  refine PrefixFree.of_width w (bigEndian_length w) ?_
  intro a b ha hb h
  rw [← Nat.mod_eq_of_lt ha, ← Nat.mod_eq_of_lt hb]
  exact bigEndian_mod h

/-! ## Length-prefixed byte strings -/

/-- A byte string behind its length, written in `w` big-endian bytes. -/
def lengthPrefixed (w : Nat) (x : Bytes) : Bytes := bigEndian w x.length ++ x

/-- **Length-prefixed strings are prefix-free** on the strings whose length fits the
prefix. -/
theorem prefixFree_lengthPrefixed (w : Nat) :
    PrefixFree (fun x : Bytes => x.length < 256 ^ w) (lengthPrefixed w) := by
  intro x y r s hx hy h
  simp only [lengthPrefixed, append_assoc] at h
  obtain ⟨hlen, hbody⟩ := prefixFree_bigEndian w _ _ _ _ hx hy h
  exact append_inj hbody hlen

end PrefixFreeCode
