import CratonHsm.KmipFrame
import CratonHsm.RunHistory

/-!
# The ids that the server chooses

`create` names its objects by a counter of 64 bits, written in hexadecimal.  Different counts
give different ids, and all of them have the form `kmip-` followed by hex digits.  So as long
as no client registers an id of that form and the counter does not come round, every object
that the server creates finds its id unused.
-/

namespace CratonHsm
open Std PrefixFreeCode GuardedRun List

/-! ## Hexadecimal numerals -/

def isHexDigit (c : Char) : Bool :=
  ('0' ≤ c && c ≤ '9') || ('a' ≤ c && c ≤ 'f') || ('A' ≤ c && c ≤ 'F')

/-- The value of a lower-case hex digit. -/
def hexDigitValue (c : Char) : Nat := if c.toNat < 97 then c.toNat - 48 else c.toNat - 87

def hexValue (digits : List Char) : Nat := digits.foldl (fun v c => 16 * v + hexDigitValue c) 0

theorem digitChar_hex :
    ∀ d < 16, hexDigitValue d.digitChar = d ∧ isHexDigit d.digitChar = true := by
  decide

theorem toDigits_hex (n : Nat) : hexValue (Nat.toDigits 16 n) = n ∧
    (Nat.toDigits 16 n).all isHexDigit = true := by
  induction n using Nat.strongRecOn with
  | ind n ih =>
    rw [Nat.toDigits_eq_if (by decide)]
    split
    · next hlt =>
      obtain ⟨hvalue, hhex⟩ := digitChar_hex n hlt
      simp [hexValue, hvalue, hhex]
    next hge =>
    obtain ⟨ihvalue, ihhex⟩ := ih (n / 16) (by omega)
    obtain ⟨hvalue, hhex⟩ := digitChar_hex (n % 16) (by omega)
    constructor
    · rw [hexValue, foldl_append, ← hexValue, ihvalue]
      simp only [foldl_cons, foldl_nil, hvalue]
      omega
    · rw [all_append, ihhex]
      simp [hhex]

/-- Zeros in front do not count. -/
theorem hexValue_zeros (k : Nat) (digits : List Char) :
    hexValue (List.replicate k '0' ++ digits) = hexValue digits := by
  induction k with
  | zero => rfl
  | succ k ih => exact ih

/-! ## The form of an id -/

/-- `kmip-` followed by hex digits. -/
def isServerForm (id : String) : Bool :=
  match id.toList with
  | 'k' :: 'm' :: 'i' :: 'p' :: '-' :: digits => digits ≠ [] && digits.all isHexDigit
  | _ => false

/-- The id of the `n`-th count. -/
def serverId (n : Nat) : String := "kmip-" ++ hexPadded 8 n

theorem serverId_toList (n : Nat) : (serverId n).toList =
    'k' :: 'm' :: 'i' :: 'p' :: '-' :: (Nat.toDigits 16 n).leftpad 8 '0' := by
  simp only [serverId, hexPadded, String.toList_append, String.toList_ofList]
  rfl

theorem isServerForm_serverId (n : Nat) : isServerForm (serverId n) = true := by
  have hall : ((Nat.toDigits 16 n).leftpad 8 '0').all isHexDigit = true := by
    rw [List.leftpad, all_append, (toDigits_hex n).2, all_replicate]
    simp [isHexDigit]
  have hne : (Nat.toDigits 16 n).leftpad 8 '0' ≠ [] := by
    rw [List.leftpad]
    exact append_ne_nil_of_right_ne_nil _ Nat.toDigits_ne_nil
  simp only [isServerForm, serverId_toList, hall, Bool.and_true, decide_eq_true_eq]
  exact hne

theorem serverId_injective {m n : Nat} (h : serverId m = serverId n) : m = n := by
  have hlist := congrArg String.toList h
  rw [serverId_toList, serverId_toList] at hlist
  have hdigits : (Nat.toDigits 16 m).leftpad 8 '0' = (Nat.toDigits 16 n).leftpad 8 '0' := by
    simpa only [List.cons.injEq, true_and] using hlist
  have hvalue := congrArg hexValue hdigits
  rwa [List.leftpad, List.leftpad, hexValue_zeros, hexValue_zeros, (toDigits_hex m).1,
    (toDigits_hex n).1] at hvalue

/-! ## Fresh ids along a run -/

/-- A registered id does not have the form of the server's ids. -/
def RegisterRule (event : KmipEvent) : Prop :=
  event.2.operation = .register → ∀ id ∈ event.2.uniqueId, isServerForm id = false

instance (event : KmipEvent) : Decidable (RegisterRule event) :=
  inferInstanceAs (Decidable (_ → _))

section Fresh
variable {n : Nat} {store : InMemoryKeyStore}

/-- After `n` objects were created: the counter, and where the stored ids come from. -/
structure Counted (n : Nat) (store : InMemoryKeyStore) : Prop where
  keyed : store.WellKeyed
  counter : store.counter = UInt64.ofNat (n + 1)
  ids : ∀ id ∈ store.objects, isServerForm id = false ∨ ∃ m, 1 ≤ m ∧ m ≤ n ∧ id = serverId m

theorem Counted.nextId_eq (h : Counted n store) (hn : n + 1 < 2 ^ 64) :
    store.nextId = serverId (n + 1) := by
  rw [InMemoryKeyStore.nextId, h.counter, UInt64.toNat_ofNat_of_lt' hn]
  rfl

/-- The next id is new. -/
theorem Counted.fresh (h : Counted n store) (hn : n + 1 < 2 ^ 64) :
    store.nextId ∉ store.objects := by
  rw [h.nextId_eq hn]
  intro hin
  rcases h.ids _ hin with hform | ⟨m, -, hm, heq⟩
  · rw [isServerForm_serverId] at hform
    cases hform
  · have := serverId_injective heq
    omega

variable [HkdfSha256]

theorem Counted.creates (h : Counted n store) {event : KmipEvent} (hn : n + 1 < 2 ^ 64)
    (hcreates : Creates store event) :
    Counted (n + 1) (kmipStep store event) := by
  obtain ⟨-, hcounter, obj, -, hobjects⟩ := hcreates.effect h.keyed
  refine ⟨wellKeyed_kmipStep h.keyed event, ?_, ?_⟩
  · rw [hcounter, h.counter]
    exact (UInt64.ofNat_add (n + 1) 1).symm
  intro id hid
  rw [hobjects, mem_insert_objects, h.nextId_eq hn] at hid
  rcases hid with rfl | hid
  · exact .inr ⟨n + 1, Nat.le_add_left 1 n, Nat.le_refl _, rfl⟩
  · rcases h.ids id hid with hform | ⟨m, hm, hmn, heq⟩
    · exact .inl hform
    · exact .inr ⟨m, hm, Nat.le_succ_of_le hmn, heq⟩

theorem Counted.keeps (h : Counted n store) {event : KmipEvent} (hrule : RegisterRule event)
    (hcreates : ¬ Creates store event) :
    Counted n (kmipStep store event) := by
  obtain ⟨hcounter, hids⟩ := kmipStep_of_not_creates h.keyed hcreates
  refine ⟨wellKeyed_kmipStep h.keyed event, hcounter.trans h.counter, fun id hid => ?_⟩
  rcases hids id hid with hid | ⟨hop, htarget⟩
  · exact h.ids id hid
  · exact .inl (hrule hop id htarget)

/-- **The ids of the server are fresh** along every run that registers none of them and
creates fewer than `2 ^ 64` objects. -/
theorem fresh_along {events : List KmipEvent} (hrule : ∀ event ∈ events, RegisterRule event)
    (hcount : count kmipStep Creates {} events < 2 ^ 64) :
    Along kmipStep FreshRule {} events ∧
      Counted (count kmipStep Creates {} events) (run kmipStep {} events) := by
  induction events using List.reverseRecOn with
  | nil =>
    have hempty : Counted 0 {} := ⟨wellKeyed_empty, rfl, fun id hid => by simp at hid⟩
    exact ⟨trivial, hempty⟩
  | append_singleton es event ih =>
    rw [count_snoc] at hcount
    obtain ⟨hfresh, hnum⟩ := ih (fun e he => hrule e (mem_append_left _ he)) (by omega)
    have hlast := hrule event (mem_append_right _ (mem_singleton.mpr rfl))
    rw [along_snoc, count_snoc, run_snoc]
    by_cases hcreates : Creates (run kmipStep {} es) event
    · rw [if_pos hcreates] at hcount ⊢
      exact ⟨⟨hfresh, fun _ => hnum.fresh hcount⟩, hnum.creates hcount hcreates⟩
    · rw [if_neg hcreates]
      exact ⟨⟨hfresh, fun h => absurd (creates_iff.mpr h) hcreates⟩, hnum.keeps hlast hcreates⟩

end Fresh

end CratonHsm
