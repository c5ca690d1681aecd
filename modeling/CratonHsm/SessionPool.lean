import CratonHsm.AsciiText
import CratonHsm.RunHistory
import CratonHsm.Sha256

/-!
# The PKCS#11 session pool and its IV tracker

`pool.rs`, `cache.rs` and `aes_cbc_encrypt` of `backend.rs`.  A call takes a session, imports its
key into the cache of that session, records the pair of key and IV with the pool and asks the
token.  If the session is lost, the call opens a new one, drops from the tracker what no session
that it can lock has in its cache, and tries once more.

Threads interleave at the locks, the tracker and the token.  Which free session a call gets is left
open: the sweep starts from a counter that all calls share.
-/

namespace CratonHsm.Pkcs11
open PrefixFreeCode AsciiText GuardedRun Function Option
open List hiding drop count

/-- The digest that stands for a key. -/
abbrev KeyFingerprint := Bytes

/-- A digest with its domain in front. -/
def fingerprint (domain : Bytes) (parts : List Bytes) : KeyFingerprint :=
  Sha256.hash (utf8 "craton-hsm-pkcs11.v1\x00".toList ++ bigEndian 4 domain.length ++ domain ++
    parts.flatMap fun part => bigEndian 8 part.length ++ part)

/-- What `fingerprint` hashes. -/
def fingerprintInput (domain : Bytes) (parts : List Bytes) : Bytes :=
  utf8 "craton-hsm-pkcs11.v1\x00".toList ++
    (lengthPrefixed 4 domain ++ parts.flatMap (lengthPrefixed 8))

theorem fingerprint_eq (domain : Bytes) (parts : List Bytes) :
    fingerprint domain parts = Sha256.hash (fingerprintInput domain parts) := by
  simp only [fingerprint, fingerprintInput, append_assoc]
  rfl

/-- **Fingerprints separate domains and parts**, unless SHA-256 collides on what is hashed. -/
theorem fingerprint_separates {d e : Bytes} {ps qs : List Bytes}
    (hfree : Sha256.hash (fingerprintInput d ps) = Sha256.hash (fingerprintInput e qs) →
      fingerprintInput d ps = fingerprintInput e qs)
    (hd : d.length < 2 ^ 32) (he : e.length < 2 ^ 32) (hps : ∀ p ∈ ps, p.length < 2 ^ 64)
    (hqs : ∀ q ∈ qs, q.length < 2 ^ 64) (h : fingerprint d ps = fingerprint e qs) :
    d = e ∧ ps = qs := by
  rw [fingerprint_eq, fingerprint_eq] at h
  have hinput := append_cancel_left (hfree h)
  obtain ⟨hdomain, hparts⟩ := prefixFree_lengthPrefixed 4 _ _ _ _ hd he hinput
  have hne : ∀ p : Bytes, p.length < 256 ^ 8 → lengthPrefixed 8 p ≠ [] :=
    fun p _ hnil => by simpa [lengthPrefixed] using congrArg length hnil
  exact ⟨hdomain, (prefixFree_lengthPrefixed 8).flatMap_injective hne _ _ hps hqs hparts⟩

/-- Two parts that make up the same bytes. -/
theorem fingerprint_separates_parts :
    fingerprint (utf8 "aes".toList) [[1, 2], [3]] ≠
      fingerprint (utf8 "aes".toList) [[1], [2, 3]] := by
  intro h
  have hsame := fingerprint_separates
    (fun heq => absurd heq (by decide +kernel)) (by decide) (by decide) (by decide) (by decide) h
  exact absurd hsame.2 (by decide)

/-- The errors of an encryption. -/
inductive HsmError where
  | mechanismParamInvalid
  | dataLenRange
  | keySizeRange
  | sessionHandleInvalid
  | userNotLoggedIn
  | tokenNotPresent
  | sessionClosed
  | deviceMemory
  | hostMemory
  | operationActive
  | operationNotInitialized
  | other (code : Nat)
  deriving DecidableEq

/-- The error says that the session is gone. -/
def isSessionLevel : HsmError → Bool
  | .sessionHandleInvalid | .userNotLoggedIn | .tokenNotPresent | .sessionClosed | .deviceMemory
  | .hostMemory | .operationActive | .operationNotInitialized => true
  | _ => false

/-- The cached keys, the one used last in front. -/
abbrev KeyCache := List KeyFingerprint

/-- `get`, or `insert` after the import, which evicts the last one when the cache is full. -/
def KeyCache.use (cache : KeyCache) (capacity : Nat) (fp : KeyFingerprint) : KeyCache :=
  if fp ∈ cache then fp :: cache.erase fp else fp :: cache.take (capacity - 1)

/-- What a call does with its session: the key that it imports, and the IV that it records if it
is `aes_cbc_encrypt`. -/
structure Job where
  fp : KeyFingerprint
  iv : Option Bytes
  deriving DecidableEq

/-- What a thread is asked to encrypt. -/
def encryptJob (key iv : Bytes) : Job := ⟨fingerprint (utf8 "aes".toList) [key], some iv⟩

/-- `aes_cbc_encrypt` up to its first use of the token. -/
def aesCbcEncrypt (key iv plaintext : Bytes) : Except HsmError Job :=
  if iv.length ≠ 16 then .error .mechanismParamInvalid
  else if plaintext.length % 16 ≠ 0 then .error .dataLenRange
  else if key.length ∉ [16, 24, 32] then .error .keySizeRange
  else .ok (encryptJob key iv)

/-- Where a call is: before it has a session, in an attempt (the second one if `retry`), or in
`reestablish`. -/
inductive Pc (n : Nat) where
  | idle
  | waiting (job : Job)
  | importing (job : Job) (i : Fin n) (retry : Bool)
  | recording (job : Job) (i : Fin n) (retry : Bool)
  | asking (job : Job) (i : Fin n) (retry : Bool)
  | reopening (job : Job) (i : Fin n)
  | inspecting (job : Job) (i : Fin n) (live : List KeyFingerprint) (rest : List (Fin n))

/-- The job of a call that waits for the token. -/
def Pc.asked {n : Nat} : Pc n → Option Job
  | .asking job _ _ => some job
  | _ => none

/-- The sessions with their caches, and the threads that hold them. -/
structure SessionPool (n : Nat) (T : Type) where
  capacity : Nat
  caches : Fin n → KeyCache
  holder : Fin n → Option T
  tracker : List (KeyFingerprint × Bytes)
  pc : T → Pc n

/-- One step of a call, with what the token answers. -/
inductive Event (n : Nat) (T : Type) where
  | invoke (t : T) (job : Job)
  | lock (t : T) (i : Fin n)
  | importKey (t : T) (answer : Except HsmError Unit)
  | checkAndRecord (t : T)
  | token (t : T) (answer : Except HsmError Bytes)
  | openAndLogin (t : T) (answer : Except HsmError Unit)
  | inspect (t : T)

namespace SessionPool
variable {n : Nat} {T : Type} [DecidableEq T] {i : Fin n} {iv : Bytes}

/-- A pool with empty caches. -/
def new (capacity : Nat) : SessionPool n T where
  capacity := if capacity = 0 then 64 else capacity
  caches _ := []
  holder _ := none
  tracker := []
  pc _ := .idle

def goto (s : SessionPool n T) (t : T) (p : Pc n) : SessionPool n T :=
  { s with pc := Function.update s.pc t p }

def setCache (s : SessionPool n T) (i : Fin n) (cache : KeyCache) : SessionPool n T :=
  { s with caches := Function.update s.caches i cache }

/-- The call returns and gives its session back. -/
def release (s : SessionPool n T) (t : T) (i : Fin n) : SessionPool n T :=
  { s with holder := Function.update s.holder i none }.goto t .idle

/-- The closure failed: a lost session is opened again, once. -/
def fail (s : SessionPool n T) (t : T) (job : Job) (i : Fin n) (retry : Bool) (e : HsmError) :
    SessionPool n T :=
  if !retry && isSessionLevel e then s.goto t (.reopening job i) else s.release t i

/-- Keep the pairs whose key is live. -/
def compact (s : SessionPool n T) (live : List KeyFingerprint) : SessionPool n T :=
  { s with tracker := s.tracker.filter fun pair => pair.1 ∈ live }

/-- One step of a thread. -/
def step (s : SessionPool n T) : Event n T → SessionPool n T
  | .invoke t job =>
    match s.pc t with
    | .idle => s.goto t (.waiting job)
    | _ => s
  | .lock t i =>
    match s.pc t with
    | .waiting job =>
      if s.holder i = none then
        { s with holder := Function.update s.holder i (some t) }.goto t (.importing job i false)
      else s
    | _ => s
  | .importKey t answer =>
    match s.pc t with
    | .importing job i retry =>
      let imported := (s.setCache i ((s.caches i).use s.capacity job.fp)).goto t
        (.recording job i retry)
      if job.fp ∈ s.caches i then imported
      else
        match answer with
        | .ok () => imported
        | .error e => s.fail t job i retry e
    | _ => s
  | .checkAndRecord t =>
    match s.pc t with
    | .recording job i retry =>
      match job.iv with
      | none => s.goto t (.asking job i retry)
      | some iv =>
        if (job.fp, iv) ∈ s.tracker then s.fail t job i retry .mechanismParamInvalid
        else { s with tracker := (job.fp, iv) :: s.tracker }.goto t (.asking job i retry)
    | _ => s
  | .token t answer =>
    match s.pc t with
    | .asking job i retry =>
      match answer with
      | .ok _ => s.release t i
      | .error e => s.fail t job i retry e
    | _ => s
  | .openAndLogin t answer =>
    match s.pc t with
    | .reopening job i =>
      match answer with
      | .ok () => (s.setCache i []).goto t (.inspecting job i [] (List.finRange n))
      | .error _ => (s.setCache i []).release t i
    | _ => s
  | .inspect t =>
    match s.pc t with
    | .inspecting job i live (j :: rest) =>
      s.goto t (.inspecting job i (if s.holder j = none then live ++ s.caches j else live) rest)
    | .inspecting job i live [] => (s.compact live).goto t (.importing job i true)
    | _ => s

/-- What the call whose step it is returns, if the step ends it. -/
def answer (s : SessionPool n T) : Event n T → Option (Job × Except HsmError Bytes)
  | .importKey t (.error e) =>
    match s.pc t with
    | .importing job i retry =>
      if job.fp ∈ s.caches i ∨ (!retry && isSessionLevel e) = true then none
      else some (job, .error e)
    | _ => none
  | .checkAndRecord t =>
    match s.pc t with
    | .recording job _ _ =>
      if job.iv.any fun iv => (job.fp, iv) ∈ s.tracker then
        some (job, .error .mechanismParamInvalid)
      else none
    | _ => none
  | .token t (.ok ciphertext) =>
    match s.pc t with
    | .asking job _ _ => some (job, .ok ciphertext)
    | _ => none
  | .token t (.error e) =>
    match s.pc t with
    | .asking job _ retry =>
      if (!retry && isSessionLevel e) = true then none else some (job, .error e)
    | _ => none
  | .openAndLogin t (.error e) =>
    match s.pc t with
    | .reopening job _ => some (job, .error e)
    | _ => none
  | _ => none

/-- The step returns a ciphertext to a call of the job. -/
def Returns (job : Job) (s : SessionPool n T) (e : Event n T) : Prop :=
  ((s.answer e).any fun r => r.1 = job && r.2.isOk) = true

instance (job : Job) (s : SessionPool n T) (e : Event n T) : Decidable (Returns job s e) :=
  inferInstanceAs (Decidable (_ = true))

/-! ## What one step does to the tracker -/

variable {s : SessionPool n T} {job : Job} {t : T} {e : Event n T}

/-- The steps by what they do: a call moves on with the tracker as it is, records its pair, or
compacts. -/
inductive Effect (s : SessionPool n T) (e : Event n T) : SessionPool n T → Prop
  | none : Effect s e s
  | moved {s' : SessionPool n T} (t : T) (p : Pc n) (hpc : s'.pc = Function.update s.pc t p)
      (hasked : ∀ job ∈ p.asked, job.iv = none) (htracker : s'.tracker = s.tracker) : Effect s e s'
  | recorded {s' : SessionPool n T} (t : T) (p : Pc n) (job : Job) (iv : Bytes)
      (hiv : job.iv = some iv) (hnew : (job.fp, iv) ∉ s.tracker)
      (hpc : s'.pc = Function.update s.pc t p) (hasked : p.asked = some job)
      (htracker : s'.tracker = (job.fp, iv) :: s.tracker) : Effect s e s'
  | compacted {s' : SessionPool n T} (t : T) (p : Pc n) (job : Job) (i : Fin n)
      (live : List KeyFingerprint) (he : e = .inspect t)
      (hat : s.pc t = .inspecting job i live []) (hpc : s'.pc = Function.update s.pc t p)
      (hasked : p.asked = Option.none) (htracker : s'.tracker = (s.compact live).tracker) :
      Effect s e s'

theorem Effect.fail (s : SessionPool n T) (e : Event n T) (t : T) (job : Job) (i : Fin n)
    (retry : Bool) (err : HsmError) : Effect s e (s.fail t job i retry err) := by
  rw [SessionPool.fail]
  split <;> exact .moved t _ rfl nofun rfl

/-- **What one step does.** -/
theorem effect_step (s : SessionPool n T) (e : Event n T) : Effect s e (s.step e) := by
  cases e <;> simp only [step]
  case invoke t job =>
    split
    · exact .moved t _ rfl nofun rfl
    · exact .none
  case lock t i =>
    split
    · split
      · exact .moved t _ rfl nofun rfl
      · exact .none
    · exact .none
  case importKey t answer =>
    split
    · split
      · exact .moved t _ rfl nofun rfl
      · split
        · exact .moved t _ rfl nofun rfl
        · exact .fail ..
    · exact .none
  case checkAndRecord t =>
    split
    next job i retry _ =>
      split
      next hiv =>
        refine .moved t (.asking job i retry) rfl ?_ rfl
        rintro _ ⟨⟩
        exact hiv
      next iv hiv =>
        split
        · exact .fail ..
        next hnew => exact .recorded t _ job iv hiv hnew rfl rfl rfl
    · exact .none
  case token t answer =>
    split
    · split
      · exact .moved t _ rfl nofun rfl
      · exact .fail ..
    · exact .none
  case openAndLogin t answer =>
    split
    · split <;> exact .moved t _ rfl nofun rfl
    · exact .none
  case inspect t =>
    split
    · exact .moved t _ rfl nofun rfl
    next job i live hat => exact .compacted t _ job i live rfl hat rfl rfl rfl
    · exact .none

/-! ## A pair is encrypted once -/

/-- A recovery has looked into every session and found the key of a recorded pair in none that was
free. -/
def Misses (fp : KeyFingerprint) (iv : Bytes) (s : SessionPool n T) (e : Event n T) : Prop :=
  ∃ t job i live, e = .inspect t ∧ s.pc t = .inspecting job i live [] ∧ (fp, iv) ∈ s.tracker ∧
    fp ∉ live

/-- A recorded pair stays recorded until a recovery misses its key. -/
theorem mem_tracker_step {fp : KeyFingerprint} (hin : (fp, iv) ∈ s.tracker)
    (hfound : ¬ Misses fp iv s e) : (fp, iv) ∈ (s.step e).tracker := by
  have heffect := effect_step s e
  generalize s.step e = s' at heffect
  cases heffect with
  | none => exact hin
  | moved t p hpc hasked htracker => rwa [htracker]
  | recorded t p job iv' hiv hnew hpc hasked htracker =>
    rw [htracker]
    exact mem_cons_of_mem _ hin
  | compacted t p job i live he hat hpc hasked htracker =>
    have hlive : fp ∈ live := by
      by_contra hout
      exact hfound ⟨t, job, i, live, he, hat, hin, hout⟩
    rw [htracker, compact, mem_filter]
    exact ⟨hin, decide_eq_true hlive⟩

/-- After `k` ciphertexts for the pair: it is recorded if there is one or a call waits for one, and
these exclude each other. -/
structure Once (job : Job) (iv : Bytes) (s : SessionPool n T) (k : Nat) : Prop where
  recorded : (1 ≤ k ∨ ∃ t, (s.pc t).asked = some job) → (job.fp, iv) ∈ s.tracker
  alone : ∀ t u, (s.pc t).asked = some job → (s.pc u).asked = some job → t = u
  done : 1 ≤ k → ∀ t, (s.pc t).asked ≠ some job
  le : k ≤ 1

omit [DecidableEq T] in
/-- No call with the pair starts to wait for the token. -/
theorem Once.keep {k : Nat} {s' : SessionPool n T} (h : Once job iv s k)
    (hpc : ∀ u, (s'.pc u).asked = some job → (s.pc u).asked = some job)
    (hkept : (job.fp, iv) ∈ s.tracker → (job.fp, iv) ∈ s'.tracker) : Once job iv s' k where
  recorded hr := by
    apply hkept
    apply h.recorded
    rcases hr with hk | ⟨t, ht⟩
    · exact .inl hk
    · exact .inr ⟨t, hpc t ht⟩
  alone t u ht hu := h.alone t u (hpc t ht) (hpc u hu)
  done hk t ht := h.done hk t (hpc t ht)
  le := h.le

omit [DecidableEq T] in
theorem returns_iff : Returns job s e ↔
    ∃ t ciphertext i retry, e = .token t (.ok ciphertext) ∧ s.pc t = .asking job i retry := by
  constructor
  · intro h
    obtain ⟨ciphertext, hanswer⟩ : ∃ ciphertext, s.answer e = some (job, .ok ciphertext) := by
      rw [Returns] at h
      rcases hanswer : s.answer e with _ | r
      · rw [hanswer] at h
        cases h
      obtain ⟨j, r⟩ := r
      cases r with
      | error err => simp [hanswer, Except.isOk, Except.toBool] at h
      | ok ciphertext =>
        rw [hanswer] at h
        simp only [any_some, Bool.and_eq_true, decide_eq_true_eq] at h
        exact ⟨ciphertext, by rw [h.1]⟩
    unfold answer at hanswer
    split at hanswer <;> (try split at hanswer) <;> (try split at hanswer) <;> cases hanswer
    next hpc => exact ⟨_, _, _, _, rfl, hpc⟩
  · rintro ⟨t, ciphertext, i, retry, rfl, hpc⟩
    simp [Returns, answer, hpc, Except.isOk, Except.toBool]

/-- **One step** of the pool, for a pair whose key no recovery misses. -/
theorem Once.step {k : Nat} (h : Once job iv s k) (hiv : job.iv = some iv)
    (hfound : ¬ Misses job.fp iv s e) :
    Once job iv (s.step e) (k + if Returns job s e then 1 else 0) := by
  have hstays : (job.fp, iv) ∈ s.tracker → (job.fp, iv) ∈ (s.step e).tracker :=
    fun hin => mem_tracker_step hin hfound
  by_cases hreturns : Returns job s e
  · -- the call that returns was the one that waited
    rw [if_pos hreturns]
    obtain ⟨t, ciphertext, i, retry, rfl, hpc⟩ := returns_iff.mp hreturns
    have hasked : (s.pc t).asked = some job := by rw [hpc, Pc.asked]
    have hk : k = 0 := by
      by_contra hne
      exact h.done (by omega) t hasked
    have hnone : ∀ u, ((s.step (.token t (.ok ciphertext))).pc u).asked ≠ some job := by
      intro u hu
      simp only [step, hpc, release, goto, update_apply] at hu
      split at hu
      · cases hu
      next hne => exact hne (h.alone u t hu hasked)
    refine ⟨fun _ => hstays (h.recorded (.inr ⟨t, hasked⟩)), ?_, fun _ => hnone, by omega⟩
    intro u v hu
    exact absurd hu (hnone u)
  rw [if_neg hreturns, Nat.add_zero]
  have heffect := effect_step s e
  generalize s.step e = s' at heffect hstays
  -- a thread that moved to `p` waits for the token only if `p` does
  have hpcs : ∀ {t : T} {p : Pc n}, s'.pc = update s.pc t p → p.asked ≠ some job →
      ∀ u, (s'.pc u).asked = some job → (s.pc u).asked = some job := by
    intro t p hpc hp u hu
    rw [hpc, update_apply] at hu
    split at hu
    · exact absurd hu hp
    · exact hu
  cases heffect with
  | none => exact h
  | moved t p hpc hasked _ =>
    refine h.keep (hpcs hpc ?_) hstays
    intro hp
    rw [hasked job hp] at hiv
    cases hiv
  | compacted t p job' i live _ _ hpc hasked _ =>
    refine h.keep (hpcs hpc ?_) hstays
    rw [hasked]
    nofun
  | recorded t p job' iv' hiv' hnew hpc hasked htracker =>
    by_cases hjob : job' = job
    · -- the pair is new: there was no ciphertext, and no call waits for one
      subst hjob
      cases hiv.symm.trans hiv'
      have hfree : ∀ u, (s.pc u).asked ≠ some job' := fun u hu => hnew (h.recorded (.inr ⟨u, hu⟩))
      have hk : ¬ 1 ≤ k := fun hk => hnew (h.recorded (.inl hk))
      have honly : ∀ u, (s'.pc u).asked = some job' → u = t := by
        intro u hu
        rw [hpc, update_apply] at hu
        split at hu
        · assumption
        · exact absurd hu (hfree u)
      refine ⟨fun _ => ?_, ?_, fun hle => absurd hle hk, h.le⟩
      · rw [htracker]
        exact mem_cons_self
      · intro u v hu hv
        rw [honly u hu, honly v hv]
    · refine h.keep (hpcs hpc ?_) hstays
      rw [hasked]
      exact fun heq => hjob (some.inj heq)

/-- **A pair of key and IV is encrypted at most once** in the life of a pool, if every recovery
finds its key in a session that is free. -/
theorem encrypted_once_of_found (capacity : Nat) (key iv : Bytes) (events : List (Event n T))
    (h : Along SessionPool.step (fun s e => ¬ Misses (encryptJob key iv).fp iv s e) (new capacity)
      events) :
    count SessionPool.step (Returns (encryptJob key iv)) (new capacity) events ≤ 1 := by
  have honce : Once (encryptJob key iv) iv (run step (new capacity) events)
      (count step (Returns (encryptJob key iv)) (new capacity) events) := by
    refine induction_snoc (I := fun es s => Once (encryptJob key iv) iv s
      (count step (Returns (encryptJob key iv)) (new capacity) es)) ?_ ?_ h
    · refine ⟨?_, nofun, nofun, Nat.zero_le _⟩
      rintro (hk | ⟨t, ht⟩)
      · cases hk
      · cases ht
    · intro es e hes _ he
      rw [run_snoc, count_snoc]
      exact hes.step rfl he
  exact honce.le

/-! ## Recovery -/

/-- What the sessions that are not locked have in their caches. -/
def liveKeys (s : SessionPool n T) (sessions : List (Fin n)) : List KeyFingerprint :=
  sessions.flatMap fun j => if s.holder j = none then s.caches j else []

theorem goto_goto (p q : Pc n) : (s.goto t p).goto t q = s.goto t q := by
  simp [goto]

/-- The sweep over the sessions. -/
theorem run_inspect {rest : List (Fin n)} {live : List KeyFingerprint}
    (hpc : s.pc t = .inspecting job i live rest) :
    run step s (List.replicate rest.length (.inspect t)) =
      s.goto t (.inspecting job i (live ++ s.liveKeys rest) []) := by
  induction rest generalizing s live with
  | nil =>
    rw [liveKeys, flatMap_nil, append_nil, ← hpc, goto, update_eq_self]
    rfl
  | cons j rest ih =>
    have hstep : s.step (.inspect t) = s.goto t (.inspecting job i
        (live ++ if s.holder j = none then s.caches j else []) rest) := by
      simp only [step, hpc]
      split <;> simp
    rw [length_cons, replicate_succ]
    show run step (s.step (.inspect t)) _ = _
    rw [hstep, ih (update_self ..), goto_goto, append_assoc]
    rfl

/-- `reestablish`, from the new session to the compaction. -/
def reestablish (n : Nat) (t : T) : List (Event n T) :=
  .openAndLogin t (.ok ()) :: (List.replicate n (.inspect t) ++ [.inspect t])

theorem run_reestablish (hpc : s.pc t = .reopening job i) :
    run step s (reestablish n t) =
      ((s.setCache i []).compact ((s.setCache i []).liveKeys (List.finRange n))).goto t
        (.importing job i true) := by
  have hopen : s.step (.openAndLogin t (.ok ())) =
      (s.setCache i []).goto t (.inspecting job i [] (List.finRange n)) := by
    simp only [step, hpc]
  have hsweep := run_inspect
    (s := (s.setCache i []).goto t (.inspecting job i [] (List.finRange n)))
    (update_self ..)
  rw [length_finRange, goto_goto, nil_append] at hsweep
  show run step (s.step (.openAndLogin t (.ok ()))) (List.replicate n (.inspect t) ++ _) = _
  have hcompact : ∀ (r : SessionPool n T) live,
      (r.goto t (.inspecting job i live [])).step (.inspect t) =
        (r.compact live).goto t (.importing job i true) := by
    intro r live
    simp only [step, goto, update_self]
    exact goto_goto (s := r.compact live) _ _
  rw [run_snoc, hopen, hsweep, hcompact]
  rfl

/-- The key is in a cache that the recovery can look into. -/
def CachedElsewhere (s : SessionPool n T) (fp : KeyFingerprint) : Prop :=
  ∃ j, s.holder j = none ∧ fp ∈ s.caches j

omit [DecidableEq T] in
theorem mem_liveKeys {fp : KeyFingerprint} (hheld : s.holder i ≠ none) :
    fp ∈ (s.setCache i []).liveKeys (List.finRange n) ↔ s.CachedElsewhere fp := by
  simp only [liveKeys, mem_flatMap, mem_finRange, true_and, CachedElsewhere]
  refine exists_congr fun j => ?_
  by_cases hfree : s.holder j = none
  · have hji : j ≠ i := by
      rintro rfl
      exact hheld hfree
    simp [setCache, hfree, update_of_ne hji]
  · simp [setCache, hfree]

/-- After `reestablish` a pair is recorded if it was and its key is cached elsewhere. -/
theorem run_reestablish_tracker (fp : KeyFingerprint) (iv : Bytes)
    (hpc : s.pc t = .reopening job i) (hheld : s.holder i = some t) :
    (run step s (reestablish n t)).pc t = .importing job i true ∧
      ((fp, iv) ∈ (run step s (reestablish n t)).tracker ↔
        (fp, iv) ∈ s.tracker ∧ s.CachedElsewhere fp) := by
  rw [run_reestablish hpc]
  refine ⟨update_self .., ?_⟩
  show (fp, iv) ∈ List.filter _ s.tracker ↔ _
  rw [mem_filter, decide_eq_true_eq, mem_liveKeys]
  rw [hheld]
  nofun

/-- An attempt up to the question to the token. -/
def attempt (t : T) : List (Event n T) := [.importKey t (.ok ()), .checkAndRecord t]

/-- A first attempt that loses the session, when it asks the token or when it imports the key. -/
def lostAttempt (t : T) (err : HsmError) (asked : Bool) : List (Event n T) :=
  if asked then attempt t ++ [.token t (.error err)] else [.importKey t (.error err)]

/-- An attempt with a pair that is not recorded. -/
theorem run_attempt {retry : Bool} (hpc : s.pc t = .importing job i retry) (hiv : job.iv = some iv)
    (hnew : (job.fp, iv) ∉ s.tracker) :
    run step s (attempt t) =
      { s.setCache i ((s.caches i).use s.capacity job.fp) with
        tracker := (job.fp, iv) :: s.tracker }.goto t (.asking job i retry) := by
  have himport : s.step (.importKey t (.ok ())) =
      (s.setCache i ((s.caches i).use s.capacity job.fp)).goto t (.recording job i retry) := by
    simp only [step, hpc, ite_self]
  have hrecord : ∀ r : SessionPool n T, r.pc t = .recording job i retry →
      (job.fp, iv) ∉ r.tracker → r.step (.checkAndRecord t) =
        { r with tracker := (job.fp, iv) :: r.tracker }.goto t (.asking job i retry) := by
    intro r hr hout
    simp only [step, hr, hiv, if_neg hout]
  show (s.step (.importKey t (.ok ()))).step (.checkAndRecord t) = _
  rw [himport, hrecord _ (update_self ..) (by exact hnew)]
  exact goto_goto (s := { s.setCache i _ with tracker := (job.fp, iv) :: s.tracker }) _ _

/-- An attempt with a pair that is recorded. -/
theorem answer_reuse {retry : Bool} (hiv : job.iv = some iv) (hin : (job.fp, iv) ∈ s.tracker) :
    (s.goto t (.recording job i retry)).answer (.checkAndRecord t) =
      some (job, .error .mechanismParamInvalid) := by
  have hin' : (job.fp, iv) ∈ (s.goto t (.recording job i retry)).tracker := hin
  have hpc : (s.goto t (.recording job i retry)).pc t = .recording job i retry := update_self ..
  simp [answer, hpc, hiv, hin']

/-- After a lost attempt and the recovery the pair is recorded if the attempt got to record it and
its key is cached elsewhere. -/
theorem run_recovery {err : HsmError} (asked : Bool)
    (hpc : s.pc t = .importing job i false) (hheld : s.holder i = some t) (hiv : job.iv = some iv)
    (hnew : (job.fp, iv) ∉ s.tracker) (herr : isSessionLevel err = true)
    (hmiss : asked = false → job.fp ∉ s.caches i) :
    (run step s (lostAttempt t err asked ++ reestablish n t)).pc t = .importing job i true ∧
      ((job.fp, iv) ∈ (run step s (lostAttempt t err asked ++ reestablish n t)).tracker ↔
        asked = true ∧ s.CachedElsewhere job.fp) := by
  rw [run_append]
  cases asked with
  | false =>
    have hlost : run step s (lostAttempt t err false) = s.goto t (.reopening job i) := by
      show s.step (.importKey t (.error err)) = _
      simp [step, hpc, hmiss rfl, fail, herr]
    rw [hlost]
    have hdone := run_reestablish_tracker (s := s.goto t (.reopening job i)) job.fp iv
      (update_self ..) hheld
    refine ⟨hdone.1, hdone.2.trans ?_⟩
    exact ⟨fun h => absurd h.1 hnew, fun h => by cases h.1⟩
  | true =>
    generalize hasked : { s.setCache i ((s.caches i).use s.capacity job.fp) with
      tracker := (job.fp, iv) :: s.tracker } = a
    have hlost : run step s (lostAttempt t err true) = a.goto t (.reopening job i) := by
      show run step s (attempt t ++ [.token t (.error err)]) = _
      rw [run_snoc, run_attempt hpc hiv hnew, hasked]
      simp [step, goto, fail, herr]
    rw [hlost]
    have hdone := run_reestablish_tracker (s := a.goto t (.reopening job i)) job.fp iv
      (update_self ..) (hasked ▸ hheld)
    refine ⟨hdone.1, hdone.2.trans ?_⟩
    have hin : (job.fp, iv) ∈ a.tracker := hasked ▸ mem_cons_self
    have hcached : a.CachedElsewhere job.fp ↔ s.CachedElsewhere job.fp := by
      refine exists_congr fun j => ?_
      rw [← hasked]
      show s.holder j = none ∧ job.fp ∈ update s.caches i _ j ↔ _
      refine and_congr_right fun hfree => ?_
      have hji : j ≠ i := by
        rintro rfl
        cases hheld.symm.trans hfree
      rw [update_of_ne hji]
    exact ⟨fun h => ⟨rfl, hcached.mp h.2⟩, fun h => ⟨hin, hcached.mpr h.2⟩⟩

/-- An attempt with a recorded pair does not get to the token. -/
theorem pc_attempt_reuse {retry : Bool} (hpc : s.pc t = .importing job i retry)
    (hiv : job.iv = some iv) (hin : (job.fp, iv) ∈ s.tracker) :
    (run step s (attempt t)).pc t = .idle := by
  have himport : s.step (.importKey t (.ok ())) =
      (s.setCache i ((s.caches i).use s.capacity job.fp)).goto t (.recording job i retry) := by
    simp only [step, hpc, ite_self]
  have hrefused : ∀ r : SessionPool n T, r.pc t = .recording job i retry →
      (job.fp, iv) ∈ r.tracker → (r.step (.checkAndRecord t)).pc t = .idle := by
    intro r hr hr'
    simp [step, hr, hiv, hr', fail, isSessionLevel, release, goto]
  show ((s.step (.importKey t (.ok ()))).step (.checkAndRecord t)).pc t = _
  rw [himport]
  exact hrefused _ (update_self ..) hin

/-- **Session recovery is transparent** for a fresh IV exactly if the first attempt did not get to
record it or no session that is free has the key in its cache: only then the second attempt gets
to the token, and its ciphertext is returned. -/
theorem recovers_iff_uncached (s : SessionPool n T) (t : T) (i : Fin n)
    (key iv ciphertext : Bytes) (err : HsmError) (asked : Bool)
    (hpc : s.pc t = .importing (encryptJob key iv) i false) (hheld : s.holder i = some t)
    (hfresh : ((encryptJob key iv).fp, iv) ∉ s.tracker) (herr : isSessionLevel err = true)
    (hmiss : asked = false → (encryptJob key iv).fp ∉ s.caches i) :
    (run SessionPool.step s (lostAttempt t err asked ++ reestablish n t ++ attempt t)).answer
        (.token t (.ok ciphertext)) = some (encryptJob key iv, .ok ciphertext) ↔
      (asked = true → ¬ s.CachedElsewhere (encryptJob key iv).fp) := by
  obtain ⟨hrpc, hrecorded⟩ := run_recovery asked hpc hheld rfl hfresh herr hmiss
  rw [run_append]
  generalize run step s (lostAttempt t err asked ++ reestablish n t) = r at hrpc hrecorded ⊢
  by_cases hin : ((encryptJob key iv).fp, iv) ∈ r.tracker
  · refine iff_of_false ?_ fun h => h (hrecorded.mp hin).1 (hrecorded.mp hin).2
    simp [answer, pc_attempt_reuse hrpc rfl hin]
  · refine iff_of_true ?_ fun hasked hcached => hin (hrecorded.mpr ⟨hasked, hcached⟩)
    rw [run_attempt hrpc rfl hin]
    simp only [answer, goto, update_self]

/-! ## Two sessions, one key -/

def sampleKey : Bytes := List.replicate 16 7

def sampleIv : Bytes := List.replicate 16 9

/-- A call that got session 0; session 1 is free, with these keys in its cache. -/
def calling (cached : KeyCache) : SessionPool 2 Unit where
  capacity := 64
  caches j := if j.val = 1 then cached else []
  holder j := if j.val = 0 then some () else none
  tracker := []
  pc _ := .importing (encryptJob sampleKey sampleIv) ⟨0, Nat.zero_lt_two⟩ false

theorem cachedElsewhere_calling (cached : KeyCache) (fp : KeyFingerprint) :
    (calling cached).CachedElsewhere fp ↔ fp ∈ cached := by
  simp [CachedElsewhere, calling, Fin.exists_fin_two]

theorem recovers_iff_uncached_sample :
    ¬ (calling []).CachedElsewhere (encryptJob sampleKey sampleIv).fp ∧
      (run SessionPool.step (calling [])
        (lostAttempt () .sessionClosed true ++ reestablish 2 () ++ attempt ())).answer
        (.token () (.ok [1])) = some (encryptJob sampleKey sampleIv, .ok [1]) :=
  have huncached : ¬ (calling []).CachedElsewhere (encryptJob sampleKey sampleIv).fp := by
    rw [cachedElsewhere_calling]
    exact not_mem_nil
  ⟨huncached, (recovers_iff_uncached (calling []) () 0 sampleKey sampleIv [1] .sessionClosed true
    rfl rfl not_mem_nil rfl nofun).mpr fun _ => huncached⟩

/-- With the key in the cache of session 1, the recovery keeps what the first attempt recorded, and
the second attempt is refused as a reuse of the IV. -/
theorem recovery_refuses_own_iv :
    ((encryptJob sampleKey sampleIv).fp, sampleIv) ∉
        (calling [(encryptJob sampleKey sampleIv).fp]).tracker ∧
      (run SessionPool.step (calling [(encryptJob sampleKey sampleIv).fp])
        (lostAttempt () .sessionClosed true ++ reestablish 2 () ++ [.importKey () (.ok ())])).answer
        (.checkAndRecord ()) =
        some (encryptJob sampleKey sampleIv, .error .mechanismParamInvalid) := by
  refine ⟨not_mem_nil, ?_⟩
  generalize hjob : encryptJob sampleKey sampleIv = job
  have hiv : job.iv = some sampleIv := hjob ▸ rfl
  have hpc : (calling [job.fp]).pc () = .importing job 0 false := hjob ▸ rfl
  obtain ⟨hrpc, hrecorded⟩ := run_recovery true hpc rfl hiv not_mem_nil
    (show isSessionLevel .sessionClosed = true from rfl) nofun
  rw [run_snoc]
  generalize run step (calling [job.fp])
    (lostAttempt () .sessionClosed true ++ reestablish 2 ()) = r at hrpc hrecorded ⊢
  have hin : (job.fp, sampleIv) ∈ r.tracker := by
    rw [hrecorded, cachedElsewhere_calling]
    exact ⟨rfl, mem_cons_self⟩
  have himport : r.step (.importKey () (.ok ())) =
      (r.setCache 0 ((r.caches 0).use r.capacity job.fp)).goto () (.recording job 0 true) := by
    simp only [step, hrpc, ite_self]
  rw [himport]
  exact answer_reuse hiv hin

/-- A call on one session of a pool. -/
def wholeCall (i : Fin n) (job : Job) : List (Event n Unit) :=
  [.invoke () job, .lock () i, .importKey () (.ok ()), .checkAndRecord (), .token () (.ok [])]

/-- Another use of the key, which loses its session. -/
def lostSession (i : Fin n) (fp : KeyFingerprint) : List (Event n Unit) :=
  [.invoke () ⟨fp, none⟩, .lock () i, .importKey () (.ok ()), .checkAndRecord (),
    .token () (.error .sessionClosed)] ++ reestablish n () ++ attempt () ++ [.token () (.ok [])]

/-- The key is used in session 1, then session 0 is lost, and the key is used in session 1 again. -/
def recoveryBetween (job : Job) : List (Event 2 Unit) :=
  wholeCall ⟨1, Nat.one_lt_two⟩ job ++ lostSession ⟨0, Nat.zero_lt_two⟩ job.fp ++
    wholeCall ⟨1, Nat.one_lt_two⟩ job

theorem found_recoveryBetween (fp : KeyFingerprint) (iv : Bytes) :
    Along step (fun s e => ¬ Misses fp iv s e) (new 1) (recoveryBetween ⟨fp, some iv⟩) := by
  have htwo : List.finRange 2 = [0, 1] := rfl
  simp [recoveryBetween, wholeCall, lostSession, reestablish, attempt, Along, Misses, step, new,
    goto, setCache, release, fail, compact, KeyCache.use, isSessionLevel, update, htwo]

theorem count_wholeCall_twice (fp : KeyFingerprint) (iv : Bytes) :
    count step (Returns ⟨fp, some iv⟩) (new 1) (wholeCall (0 : Fin 1) ⟨fp, some iv⟩ ++
      lostSession 0 fp ++ wholeCall 0 ⟨fp, some iv⟩) = 2 := by
  have hone : List.finRange 1 = [0] := rfl
  simp [wholeCall, lostSession, reestablish, attempt, count, Returns, answer, step, new, goto,
    setCache, release, fail, compact, KeyCache.use, isSessionLevel, update, Except.isOk,
    Except.toBool, hone]

/-- The recovery finds the key in session 1, and the second call is refused. -/
theorem encrypted_once_of_found_sample :
    count SessionPool.step (Returns (encryptJob sampleKey sampleIv)) (new 1)
      (recoveryBetween (encryptJob sampleKey sampleIv)) ≤ 1 :=
  encrypted_once_of_found 1 sampleKey sampleIv _ (found_recoveryBetween _ _)

/-- The recovery of another call empties the tracker, and the pair is encrypted again. -/
theorem encrypted_twice_after_recovery :
    count SessionPool.step (Returns (encryptJob sampleKey sampleIv)) (new 1)
      (wholeCall (0 : Fin 1) (encryptJob sampleKey sampleIv) ++
        lostSession 0 (encryptJob sampleKey sampleIv).fp ++
        wholeCall 0 (encryptJob sampleKey sampleIv)) = 2 :=
  count_wholeCall_twice _ _

end SessionPool

end CratonHsm.Pkcs11
