import CratonHsm.KmipServer
import CratonHsm.RunHistory

/-!
# The replay defence of correlation values

A run of `check_and_record` calls.  An accepted pair of identity and correlation value stays
in the cache for the window: the sweep keeps it, and nothing but a later acceptance moves its
time.  What the cache holds was accepted, so a pair that was not is turned away only by a full
cache or by another pair with the same digest.  The separator of the digested bytes occurs in
no UTF-8 text, so two pairs share a digest only if SHA-256 collides.
-/

namespace CratonHsm
open PrefixFreeCode GuardedRun KmipReplayCache List

/-! ## The digested bytes -/

/-- UTF-8 has no byte `0xFF`. -/
theorem ff_notMem_utf8EncodeChar (c : Char) : (0xFF : UInt8) ∉ String.utf8EncodeChar c := by
  have hbyte : ∀ n : Nat, n < 255 → (0xFF : UInt8) ≠ UInt8.ofNat n := by
    intro n hn he
    have hnat := congrArg UInt8.toNat he
    rw [UInt8.toNat_ofNat_of_lt' (Nat.lt_trans hn (by decide))] at hnat
    have hff : (0xFF : UInt8).toNat = 255 := rfl
    omega
  have hcons : ∀ {n : Nat} {bytes : List UInt8}, n < 255 → (0xFF : UInt8) ∉ bytes →
      (0xFF : UInt8) ∉ UInt8.ofNat n :: bytes :=
    fun hn => not_mem_cons_of_ne_of_not_mem (hbyte _ hn)
  unfold String.utf8EncodeChar
  dsimp only
  split
  · exact hcons (by omega) nofun
  split
  · exact hcons (by omega) (hcons (by omega) nofun)
  · split
    · exact hcons (by omega) (hcons (by omega) (hcons (by omega) nofun))
    · exact hcons (by omega) (hcons (by omega) (hcons (by omega) (hcons (by omega) nofun)))

theorem ff_notMem_asBytes (s : String) : (0xFF : UInt8) ∉ asBytes s := by
  intro h
  have hbytes : asBytes s = s.toList.flatMap String.utf8EncodeChar := by
    unfold asBytes
    rw [← String.utf8Encode_toList, List.utf8Encode]
    simp
  rw [hbytes, mem_flatMap] at h
  obtain ⟨c, -, hc⟩ := h
  exact ff_notMem_utf8EncodeChar c hc

/-- The first separator splits a list in one way only. -/
theorem append_cons_inj {A : Type} {sep : A} {a b c d : List A} (ha : sep ∉ a) (hc : sep ∉ c)
    (h : a ++ sep :: b = c ++ sep :: d) : a = c ∧ b = d := by
  induction a generalizing c with
  | nil =>
    cases c with
    | nil => exact ⟨rfl, tail_eq_of_cons_eq h⟩
    | cons x c =>
      have hx : sep = x := head_eq_of_cons_eq h
      exact absurd (hx ▸ mem_cons_self) hc
  | cons x a ih =>
    cases c with
    | nil =>
      have hx : x = sep := head_eq_of_cons_eq h
      exact absurd (hx ▸ mem_cons_self) ha
    | cons y c =>
      have hxy : x = y := head_eq_of_cons_eq h
      obtain ⟨hac, hbd⟩ := ih (fun hm => ha (mem_cons_of_mem x hm))
        (fun hm => hc (mem_cons_of_mem y hm)) (tail_eq_of_cons_eq h)
      exact ⟨by rw [hxy, hac], hbd⟩

/-! ## Calls -/

/-- A call of `check_and_record` at a reading of the clock. -/
structure ReplayCall where
  identity : Option String
  ccv : String
  now : Nat

namespace ReplayCall

/-- What the cache distinguishes: a missing identity counts as an empty one. -/
def pair (a : ReplayCall) : String × String := (a.identity.getD "", a.ccv)

/-- The bytes that are digested. -/
def preimage (a : ReplayCall) : Bytes := asBytes (a.identity.getD "") ++ 0xFF :: asBytes a.ccv

def key (a : ReplayCall) : Bytes := KmipReplayCache.key a.identity a.ccv

theorem key_eq_hash (a : ReplayCall) : a.key = Sha256.hash a.preimage := rfl

theorem key_congr {a b : ReplayCall} (h : a.pair = b.pair) : a.key = b.key := by
  have hidentity : a.identity.getD "" = b.identity.getD "" := congrArg Prod.fst h
  have hccv : a.ccv = b.ccv := congrArg Prod.snd h
  rw [key_eq_hash, key_eq_hash, preimage, preimage, hidentity, hccv]

theorem pair_of_preimage {a b : ReplayCall} (h : a.preimage = b.preimage) : a.pair = b.pair := by
  obtain ⟨hidentity, hccv⟩ := append_cons_inj (ff_notMem_asBytes _) (ff_notMem_asBytes _) h
  exact Prod.ext (asBytes_injective hidentity) (asBytes_injective hccv)

end ReplayCall

/-- SHA-256 does not collide on what the calls digest. -/
def CollisionFree (calls : List ReplayCall) : Prop :=
  ∀ a ∈ calls, ∀ b ∈ calls, Sha256.hash a.preimage = Sha256.hash b.preimage →
    a.preimage = b.preimage

/-- The clock does not go back. -/
def ClockForward (calls : List ReplayCall) : Prop := calls.Pairwise fun a b => a.now ≤ b.now

/-- The cache after a call. -/
def replayStep (c : KmipReplayCache) (a : ReplayCall) : KmipReplayCache :=
  (c.checkAndRecord a.identity a.ccv a.now).2

/-- The call is not taken for a repetition. -/
def AcceptsCall (c : KmipReplayCache) (a : ReplayCall) : Prop :=
  (c.checkAndRecord a.identity a.ccv a.now).1 = false

instance (c : KmipReplayCache) (a : ReplayCall) : Decidable (AcceptsCall c a) :=
  inferInstanceAs (Decidable (_ = _))

/-- The accepted calls of a run. -/
def acceptedCalls (c : KmipReplayCache) (calls : List ReplayCall) : List ReplayCall :=
  outcomes replayStep (fun c a => if AcceptsCall c a then some a else none) c calls

/-- What the cache promises for a run. -/
structure ReplayDefence (c : KmipReplayCache) (calls : List ReplayCall) : Prop where
  spaced : (acceptedCalls c calls).Pairwise fun a b => a.pair = b.pair → a.now + c.window ≤ b.now
  fair : ∀ pre a post, calls = pre ++ a :: post →
    (∀ e ∈ acceptedCalls c pre, e.pair = a.pair → e.now + c.window ≤ a.now) →
    (run replayStep c pre).seen.length < replayCacheHardCap → AcceptsCall (run replayStep c pre) a
  bounded : ∀ pre post, calls = pre ++ post →
    (run replayStep c pre).seen.length ≤ replayCacheHardCap

/-! ## One call -/

/-- The entries that a call looks at: those the sweep leaves, if it is time for one. -/
def KmipReplayCache.swept (c : KmipReplayCache) (now : Nat) : List (Bytes × Nat) :=
  if c.checkCounter % 100 = 0 then c.seen.filter (fun p => now - p.2 < c.window) else c.seen

variable {c : KmipReplayCache} {a : ReplayCall}

theorem mem_of_mem_swept {now : Nat} {p : Bytes × Nat} (h : p ∈ c.swept now) : p ∈ c.seen := by
  unfold swept at h
  split at h
  · exact (mem_filter.mp h).1
  · exact h

theorem swept_length_le (c : KmipReplayCache) (now : Nat) :
    (c.swept now).length ≤ c.seen.length := by
  unfold swept
  split
  · exact length_filter_le _ _
  · exact Nat.le_refl _

variable {ts : Nat} {k : Bytes} {start : KmipReplayCache} {calls : List ReplayCall}

/-- The sweep keeps what is inside the window. -/
theorem lookup_swept {now : Nat} (h : c.seen.lookup k = some ts) (hts : now - ts < c.window) :
    (c.swept now).lookup k = some ts := by
  unfold swept
  split
  · revert h
    induction c.seen with
    | nil => exact id
    | cons p seen ih =>
      obtain ⟨k', ts'⟩ := p
      intro h
      rw [lookup_cons] at h
      by_cases hk : k = k'
      · subst hk
        simp only [BEq.rfl] at h
        cases h
        rw [filter_cons_of_pos (by simpa using hts), lookup_cons, BEq.rfl]
      · have hbeq : (k == k') = false := by simpa using hk
        rw [hbeq] at h
        by_cases hkept : now - ts' < c.window
        · rw [filter_cons_of_pos (by simpa using hkept), lookup_cons, hbeq]
          exact ih h
        · rw [filter_cons_of_neg (by simpa using hkept)]
          exact ih h
  · exact h

theorem mem_of_lookup {l : List (Bytes × Nat)} (h : l.lookup k = some ts) : (k, ts) ∈ l := by
  obtain ⟨l₁, l₂, hl, -⟩ := lookup_eq_some_iff.mp h
  rw [hl]
  exact mem_append_right l₁ mem_cons_self

section
variable (c : KmipReplayCache)

/-- `check_and_record` in terms of the swept entries. -/
theorem checkAndRecord_eq (a : ReplayCall) :
    c.checkAndRecord a.identity a.ccv a.now =
      match (c.swept a.now).lookup a.key with
      | some ts =>
        if a.now - ts < c.window then
          (true, { c with seen := c.swept a.now, checkCounter := c.checkCounter + 1 })
        else if replayCacheHardCap ≤ (c.swept a.now).length then
          (true, { c with seen := c.swept a.now, checkCounter := c.checkCounter + 1 })
        else (false, { c with
          seen := (c.swept a.now).map fun p => if p.1 = a.key then (a.key, a.now) else p
          checkCounter := c.checkCounter + 1 })
      | none =>
        if replayCacheHardCap ≤ (c.swept a.now).length then
          (true, { c with seen := c.swept a.now, checkCounter := c.checkCounter + 1 })
        else (false, { c with
          seen := (a.key, a.now) :: c.swept a.now, checkCounter := c.checkCounter + 1 }) := rfl

/-- **What one call does.**  A repetition inside the window and a full cache are turned away
and change nothing but the sweep; any other pair is recorded with its time. -/
theorem replayStep_cases (a : ReplayCall) :
    (¬ AcceptsCall c a ∧ (replayStep c a).seen = c.swept a.now ∧
      ((∃ ts, (c.swept a.now).lookup a.key = some ts ∧ a.now - ts < c.window) ∨
        replayCacheHardCap ≤ (c.swept a.now).length)) ∨
    (AcceptsCall c a ∧ (c.swept a.now).length < replayCacheHardCap ∧
      (∀ ts, (c.swept a.now).lookup a.key = some ts → c.window ≤ a.now - ts) ∧
      ((replayStep c a).seen = (a.key, a.now) :: c.swept a.now ∨
        (∃ ts, (c.swept a.now).lookup a.key = some ts) ∧ (replayStep c a).seen =
          (c.swept a.now).map fun p => if p.1 = a.key then (a.key, a.now) else p)) := by
  unfold AcceptsCall replayStep
  rw [checkAndRecord_eq]
  cases hlookup : (c.swept a.now).lookup a.key with
  | some ts =>
    dsimp only
    by_cases hts : a.now - ts < c.window
    · rw [if_pos hts]
      exact .inl ⟨nofun, rfl, .inl ⟨ts, rfl, hts⟩⟩
    rw [if_neg hts]
    by_cases hfull : replayCacheHardCap ≤ (c.swept a.now).length
    · rw [if_pos hfull]
      exact .inl ⟨nofun, rfl, .inr hfull⟩
    rw [if_neg hfull]
    refine .inr ⟨rfl, Nat.lt_of_not_le hfull, ?_, .inr ⟨⟨ts, rfl⟩, rfl⟩⟩
    intro ts' hts'
    cases hts'
    exact Nat.le_of_not_lt hts
  | none =>
    dsimp only
    by_cases hfull : replayCacheHardCap ≤ (c.swept a.now).length
    · rw [if_pos hfull]
      exact .inl ⟨nofun, rfl, .inr hfull⟩
    · rw [if_neg hfull]
      exact .inr ⟨rfl, Nat.lt_of_not_le hfull, nofun, .inl rfl⟩

theorem replayStep_window (a : ReplayCall) : (replayStep c a).window = c.window := by
  unfold replayStep
  rw [checkAndRecord_eq]
  cases (c.swept a.now).lookup a.key with
  | some ts =>
    dsimp only
    split
    · rfl
    · split <;> rfl
  | none =>
    dsimp only
    split <;> rfl

theorem run_window (calls : List ReplayCall) : (run replayStep c calls).window = c.window :=
  induction_run (P := fun _ _ => True) (I := fun r => r.window = c.window)
    (fun r a hr _ => (replayStep_window r a).trans hr) rfl (along_true calls)

end

/-- An accepted call is on record. -/
theorem lookup_of_accepts (h : AcceptsCall c a) :
    (replayStep c a).seen.lookup a.key = some a.now := by
  rcases replayStep_cases c a with ⟨hno, -⟩ | ⟨-, -, -, hseen | ⟨⟨ts, hts⟩, hseen⟩⟩
  · exact absurd h hno
  · rw [hseen, lookup_cons, BEq.rfl]
  rw [hseen]
  revert hts
  induction c.swept a.now with
  | nil => exact nofun
  | cons p seen ih =>
    obtain ⟨k, t⟩ := p
    intro hts
    by_cases hk : a.key = k
    · subst hk
      rw [map_cons, if_pos rfl, lookup_cons, BEq.rfl]
    have hbeq : (a.key == k) = false := by simpa using hk
    have hk' : ¬ k = a.key := fun he => hk he.symm
    rw [lookup_cons, hbeq] at hts
    rw [map_cons, if_neg hk', lookup_cons, hbeq]
    exact ih hts

/-- A recorded time inside the window outlives any other call. -/
theorem lookup_replayStep (h : c.seen.lookup k = some ts) (hts : a.now - ts < c.window) :
    ∃ ts', (replayStep c a).seen.lookup k = some ts' ∧
      (ts' = ts ∨ ts' = a.now) := by
  have hswept := lookup_swept h hts
  by_cases hk : k = a.key
  · by_cases haccept : AcceptsCall c a
    · exact ⟨a.now, hk ▸ lookup_of_accepts haccept, .inr rfl⟩
    · rcases replayStep_cases c a with ⟨-, hseen, -⟩ | ⟨hyes, -⟩
      · exact ⟨ts, by rw [hseen]; exact hswept, .inl rfl⟩
      · exact absurd hyes haccept
  have hbeq : (k == a.key) = false := by simpa using hk
  refine ⟨ts, ?_, .inl rfl⟩
  rcases replayStep_cases c a with ⟨-, hseen, -⟩ | ⟨-, -, -, hseen | ⟨-, hseen⟩⟩
  · rw [hseen]
    exact hswept
  · rw [hseen, lookup_cons, hbeq]
    exact hswept
  rw [hseen]
  revert hswept
  induction c.swept a.now with
  | nil => exact id
  | cons p seen ih =>
    obtain ⟨k', t⟩ := p
    intro hswept
    rw [lookup_cons] at hswept
    rw [map_cons]
    by_cases hk' : k' = a.key
    · have hne : (k == k') = false := by rw [hk']; exact hbeq
      rw [hne] at hswept
      rw [if_pos hk', lookup_cons, hbeq]
      exact ih hswept
    · rw [if_neg hk', lookup_cons]
      cases hkk : (k == k') with
      | true =>
        rw [hkk] at hswept
        exact hswept
      | false =>
        rw [hkk] at hswept
        exact ih hswept

/-- What is on record after a call was there before, or is the accepted call. -/
theorem mem_replayStep {p : Bytes × Nat} (h : p ∈ (replayStep c a).seen) :
    p ∈ c.seen ∨ AcceptsCall c a ∧ p = (a.key, a.now) := by
  rcases replayStep_cases c a with ⟨-, hseen, -⟩ | ⟨haccept, -, -, hseen | ⟨-, hseen⟩⟩
  · rw [hseen] at h
    exact .inl (mem_of_mem_swept h)
  · rw [hseen] at h
    rcases mem_cons.mp h with rfl | h
    · exact .inr ⟨haccept, rfl⟩
    · exact .inl (mem_of_mem_swept h)
  · rw [hseen] at h
    obtain ⟨q, hq, rfl⟩ := mem_map.mp h
    by_cases hk : q.1 = a.key
    · rw [if_pos hk]
      exact .inr ⟨haccept, rfl⟩
    · rw [if_neg hk]
      exact .inl (mem_of_mem_swept hq)

theorem replayStep_length (h : c.seen.length ≤ replayCacheHardCap) :
    (replayStep c a).seen.length ≤ replayCacheHardCap := by
  have hswept := swept_length_le c a.now
  rcases replayStep_cases c a with ⟨-, hseen, -⟩ | ⟨-, hroom, -, hseen | ⟨-, hseen⟩⟩
  · rw [hseen]
    omega
  · rw [hseen, length_cons]
    omega
  · rw [hseen, length_map]
    omega

/-! ## Runs -/

/-- What the cache and the accepted calls of a run have to do with each other. -/
structure CacheRecord (start : KmipReplayCache) (calls : List ReplayCall) (c : KmipReplayCache) :
    Prop where
  mem_accepted : ∀ p ∈ c.seen, ∃ e ∈ acceptedCalls start calls, p = (e.key, e.now)
  bounded : c.seen.length ≤ replayCacheHardCap
  spaced : (acceptedCalls start calls).Pairwise fun a b =>
    a.pair = b.pair → a.now + start.window ≤ b.now
  -- as long as the window of an accepted call is open, its key is on record
  remembers : ∀ e ∈ acceptedCalls start calls, ∀ now, (∀ b ∈ calls, b.now ≤ now) →
    now < e.now + start.window → ∃ ts, c.seen.lookup e.key = some ts ∧ now < ts + start.window

theorem mem_of_mem_accepted {e : ReplayCall} (h : e ∈ acceptedCalls start calls) : e ∈ calls := by
  unfold acceptedCalls at h
  induction calls generalizing start with
  | nil => exact absurd h not_mem_nil
  | cons a calls ih =>
    rw [outcomes, mem_append] at h
    rcases h with h | h
    · split at h
      · rw [Option.toList_some, mem_singleton] at h
        rw [h]
        exact mem_cons_self
      · exact absurd h not_mem_nil
    · exact mem_cons_of_mem a (ih h)

theorem acceptedCalls_snoc (start : KmipReplayCache) (calls : List ReplayCall) (a : ReplayCall) :
    acceptedCalls start (calls ++ [a]) = acceptedCalls start calls ++
      if AcceptsCall (run replayStep start calls) a then [a] else [] := by
  rw [acceptedCalls, outcomes_snoc]
  split <;> rfl

theorem cacheRecord_new (secs : Nat) : CacheRecord (.new secs) [] (.new secs) where
  mem_accepted _ hp := absurd hp not_mem_nil
  bounded := Nat.zero_le _
  spaced := List.Pairwise.nil
  remembers _ he := absurd he not_mem_nil

/-- One more call: a repetition inside the window finds its key on record. -/
theorem CacheRecord.step {a : ReplayCall} (h : CacheRecord start calls (run replayStep start calls))
    (hclock : ∀ b ∈ calls, b.now ≤ a.now) (hwindow : 0 < start.window) :
    CacheRecord start (calls ++ [a]) (replayStep (run replayStep start calls) a) := by
  have hw : (run replayStep start calls).window = start.window := run_window start calls
  have hsub : ∀ e ∈ acceptedCalls start calls, e ∈ acceptedCalls start (calls ++ [a]) := by
    intro e he
    rw [acceptedCalls_snoc]
    exact mem_append_left _ he
  refine ⟨?_, replayStep_length h.bounded, ?_, ?_⟩
  · intro p hp
    rcases mem_replayStep hp with hp | ⟨haccept, rfl⟩
    · obtain ⟨e, he, hpe⟩ := h.mem_accepted p hp
      exact ⟨e, hsub e he, hpe⟩
    · refine ⟨a, ?_, rfl⟩
      rw [acceptedCalls_snoc, if_pos haccept]
      exact mem_append_right _ mem_cons_self
  · rw [acceptedCalls_snoc]
    by_cases haccept : AcceptsCall (run replayStep start calls) a
    · rw [if_pos haccept]
      refine pairwise_append.mpr ⟨h.spaced, pairwise_singleton _ _, ?_⟩
      intro e he b hb hpair
      rw [mem_singleton] at hb
      subst hb
      by_contra hnear
      -- inside the window the key is still on record, so the call is no new one
      obtain ⟨ts, hlookup, hts⟩ := h.remembers e he b.now hclock (by omega)
      have hkey : e.key = b.key := ReplayCall.key_congr hpair
      have hswept := lookup_swept hlookup (show b.now - ts < _ by rw [hw]; omega)
      rcases replayStep_cases (run replayStep start calls) b with ⟨hno, -⟩ | ⟨-, -, hold, -⟩
      · exact hno haccept
      · have hstale := hold ts (hkey ▸ hswept)
        omega
    · rw [if_neg haccept, append_nil]
      exact h.spaced
  · intro e he now hnow hopen
    have hanow : a.now ≤ now := hnow a (mem_append_right _ mem_cons_self)
    rw [acceptedCalls_snoc, mem_append] at he
    rcases he with he | he
    · have hold : ∀ b ∈ calls, b.now ≤ now := fun b hb => hnow b (mem_append_left _ hb)
      obtain ⟨ts, hlookup, hts⟩ := h.remembers e he now hold hopen
      obtain ⟨ts', hlookup', hts'⟩ :=
        lookup_replayStep hlookup (show a.now - ts < _ by rw [hw]; omega)
      refine ⟨ts', hlookup', ?_⟩
      have hbefore : e.now ≤ a.now := hclock e (mem_of_mem_accepted he)
      rcases hts' with rfl | rfl
      · exact hts
      · omega
    · split at he
      · next haccept =>
        rw [mem_singleton] at he
        subst he
        exact ⟨e.now, lookup_of_accepts haccept, hopen⟩
      · exact absurd he not_mem_nil

theorem cacheRecord_run {secs : Nat} (hclock : ClockForward calls) :
    CacheRecord (.new secs) calls (run replayStep (.new secs) calls) := by
  have hwindow : 0 < (KmipReplayCache.new secs).window := by
    show 0 < max secs 1 * 1000000000
    omega
  induction calls using List.reverseRecOn with
  | nil => exact cacheRecord_new secs
  | append_singleton calls a ih =>
    obtain ⟨hcalls, -, hlast⟩ := pairwise_append.mp hclock
    rw [run_snoc]
    exact (ih hcalls).step (fun b hb => hlast b hb a mem_cons_self) hwindow

/-- A pair that was not accepted in its window is not on record inside it. -/
theorem CacheRecord.fair {a : ReplayCall}
    (h : CacheRecord start calls (run replayStep start calls))
    (hfree : CollisionFree (calls ++ [a]))
    (hnew : ∀ e ∈ acceptedCalls start calls, e.pair = a.pair → e.now + start.window ≤ a.now)
    (hroom : (run replayStep start calls).seen.length < replayCacheHardCap) :
    AcceptsCall (run replayStep start calls) a := by
  rcases replayStep_cases (run replayStep start calls) a with ⟨-, -, ⟨ts, hts, hnear⟩ | hfull⟩ | h'
  · exfalso
    obtain ⟨e, he, hentry⟩ := h.mem_accepted _ (mem_of_mem_swept (mem_of_lookup hts))
    have hkey : a.key = e.key := congrArg Prod.fst hentry
    have htime : ts = e.now := congrArg Prod.snd hentry
    have hpreimage : e.preimage = a.preimage :=
      hfree e (mem_append_left _ (mem_of_mem_accepted he)) a
        (mem_append_right _ mem_cons_self) hkey.symm
    have hfar := hnew e he (ReplayCall.pair_of_preimage hpreimage)
    rw [run_window] at hnear
    omega
  · have hswept := swept_length_le (run replayStep start calls) a.now
    omega
  · exact h'.1

/-- **The replay defence of correlation values.** -/
theorem replay_defence {secs : Nat} {calls : List ReplayCall} (hclock : ClockForward calls)
    (hfree : CollisionFree calls) : ReplayDefence (.new secs) calls where
  spaced := (cacheRecord_run hclock).spaced
  fair := by
    intro pre a post hcalls hnew hroom
    have hpre : calls = (pre ++ [a]) ++ post := by
      rw [hcalls, append_assoc]
      rfl
    rw [hpre] at hclock hfree
    have hclock' : ClockForward pre := (pairwise_append.mp (pairwise_append.mp hclock).1).1
    refine (cacheRecord_run hclock').fair ?_ hnew hroom
    intro x hx y hy
    exact hfree x (mem_append_left _ hx) y (mem_append_left _ hy)
  bounded := by
    intro pre post hcalls
    rw [hcalls] at hclock
    exact (cacheRecord_run (pairwise_append.mp hclock).1).bounded

section Sample

/-- A login that is repeated, and repeated again after the window. -/
def repeatedCalls : List ReplayCall :=
  [⟨some "alice", "c-1", 0⟩, ⟨some "alice", "c-1", 59000000000⟩, ⟨none, "c-1", 59000000000⟩,
    ⟨some "alice", "c-1", 60000000000⟩]

theorem replay_defence_repeated : ReplayDefence (.new 60) repeatedCalls := by
  refine replay_defence ?_ ?_
  · unfold ClockForward
    decide
  · unfold CollisionFree
    decide +kernel

end Sample

end CratonHsm
