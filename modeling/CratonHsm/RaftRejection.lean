import CratonHsm.RaftStored

/-!
# Rejected snapshots

A snapshot that is not installed should leave no trace: not in the log, the state
machine or the peer list, and not in the store, from which a crash right after the
rejection would recover.  Every guard of `handle_install_snapshot` keeps to this.  The
last rejection does not: the snapshot is written to the store before its bytes are
parsed, so bytes that fail to parse replace the snapshot on disk.
-/

namespace CratonHsm
open StorageModel Option
namespace RaftNode

section Rejection
variable {σ : Type} [StorageModel σ] {args : InstallSnapshotArgs} {n m : RaftNode σ} {clock : Clock}

/-- The store holds what it held before, up to the adoption of a higher term. -/
def SameStore (n m : RaftNode σ) (term : Nat) : Prop :=
  stored m.storage = stored n.storage ∨
    n.currentTerm < term ∧
      stored m.storage = (stored n.storage).map fun c => { c with hard := ⟨term, none⟩ }

theorem adoptTerm_sameStore (n : RaftNode σ) (term : Nat) :
    SameStore n (n.adoptTerm term) term := by
  unfold adoptTerm
  split
  · rename_i hlt
    rcases n.stored_becomeFollower term with hsame | hhard
    · exact .inl hsame
    · rw [if_pos hlt] at hhard
      exact .inr ⟨hlt, hhard⟩
  · exact .inl rfl

/-- Adopting a term touches the role, the hard state and the store. -/
theorem adoptTerm_frame (n : RaftNode σ) (term : Nat) :
    (n.adoptTerm term).log = n.log ∧ (n.adoptTerm term).lastSnapshot = n.lastSnapshot ∧
      (n.adoptTerm term).stateMachine = n.stateMachine ∧
      (n.adoptTerm term).peers = n.peers := by
  unfold adoptTerm
  split <;> exact ⟨rfl, rfl, rfl, rfl⟩

variable [SnapshotCodec]

/-- **A rejection changed nothing**, and a crash right after it recovers what a crash
right before it would have. -/
structure Untouched (n m : RaftNode σ) (term : Nat) : Prop where
  log : m.log = n.log
  lastSnapshot : m.lastSnapshot = n.lastSnapshot
  stateMachine : m.stateMachine = n.stateMachine
  peers : m.peers = n.peers
  store : SameStore n m term
  recovery : ∀ (fresh r r' : RaftNode σ) (clock : Clock) (s s' : σ),
    n.storage = some s → m.storage = some s' →
    fresh.attachStorage clock s = (.ok (), r) → fresh.attachStorage clock s' = (.ok (), r') →
    r'.log = r.log ∧ r'.lastSnapshot = r.lastSnapshot ∧ r'.stateMachine = r.stateMachine ∧
      r'.peers = r.peers

theorem Untouched.of_store {term : Nat} (hlog : m.log = n.log)
    (hsnap : m.lastSnapshot = n.lastSnapshot) (hsm : m.stateMachine = n.stateMachine)
    (hpeers : m.peers = n.peers) (hstore : SameStore n m term) : Untouched n m term := by
  refine ⟨hlog, hsnap, hsm, hpeers, hstore, ?_⟩
  intro fresh r r' clock s s' hs hs' hr hr'
  have hc : (contents s').log = (contents s).log ∧
      (contents s').snapshot = (contents s).snapshot := by
    unfold SameStore at hstore
    rw [hs, hs'] at hstore
    rcases hstore with hsame | ⟨-, hhard⟩
    · rw [show contents s' = contents s from some.inj hsame]
      exact ⟨rfl, rfl⟩
    · rw [show contents s' = _ from some.inj hhard]
      exact ⟨rfl, rfl⟩
  rw [attachStorage_ok hr, attachStorage_ok hr', recover, recover, hc.1, hc.2]
  exact ⟨rfl, rfl, rfl, rfl⟩

theorem untouched_receiptOnly (term : Nat) (h : ReceiptOnly n m) : Untouched n m term := by
  obtain ⟨c, b, r, rfl⟩ := h
  exact .of_store rfl rfl rfl rfl (.inl rfl)

theorem untouched_adoptTerm {term : Nat}
    (h : ReceiptOnly (n.adoptTerm term) m) : Untouched n m term := by
  obtain ⟨hlog, hsnap, hsm, hpeers⟩ := n.adoptTerm_frame term
  obtain ⟨c, b, r, rfl⟩ := h
  exact .of_store hlog hsnap hsm hpeers (n.adoptTerm_sameStore term)

/-- The two rejections behind the guards, on the node the guards left. -/
theorem persistAndAdopt_rejected {q : RaftNode σ}
    {data : PrefixFreeCode.Bytes} (h : (q.persistAndAdopt clock args data).1 ≠ .installed) :
    ∃ saved storage rejects,
      persistSnapshot q.storage (snapshotRecord args data) = (saved, storage) ∧
      (saved = true → SnapshotCodec.fromSlice data = none) ∧
      (q.persistAndAdopt clock args data).2 =
        { q with storage := storage, forgedSnapshotRejects := rejects } := by
  unfold persistAndAdopt at h ⊢
  cases hp : persistSnapshot q.storage (snapshotRecord args data) with
  | mk saved storage =>
    rw [hp] at h
    rcases saved with _ | _
    · exact ⟨false, storage, q.forgedSnapshotRejects, rfl, fun hf => Bool.noConfusion hf, rfl⟩
    cases hparse : SnapshotCodec.fromSlice data with
    | none => exact ⟨true, storage, q.forgedSnapshotRejects + 1, rfl, fun _ => rfl, rfl⟩
    | some snap =>
      rw [hparse] at h
      exact absurd rfl h

variable [HmacSha256]

/-- The claim of `handle_install_snapshot` on one call. -/
def RejectionHarmless (n : RaftNode σ) (clock : Clock) (args : InstallSnapshotArgs) : Prop :=
  (n.installSnapshot clock args).1 ≠ .installed →
    Untouched n (n.installSnapshot clock args).2 args.term

/-- Malformed bytes reach the store and replace the snapshot there. -/
def ClobbersStore (n : RaftNode σ) (clock : Clock) (args : InstallSnapshotArgs) : Prop :=
  ∃ data s, n.snapshotPayload clock args = some data ∧ SnapshotCodec.fromSlice data = none ∧
    (n.adoptTerm args.term).storage = some s ∧
    (RaftStorage.saveSnapshot s (snapshotRecord args data)).1 = .ok () ∧
    (StorageModel.contents s).snapshot ≠ some (snapshotRecord args data)

theorem untouched_of_not_clobbers {n : RaftNode σ}
    (h : ¬ n.ClobbersStore clock args) : n.RejectionHarmless clock args := by
  intro hrej
  rcases n.installSnapshot_cases clock args with ⟨-, -, hr | hr⟩ | ⟨data, q, hpay, -, -, hq, heq⟩
  · exact untouched_receiptOnly args.term hr
  · exact untouched_adoptTerm hr
  rw [heq] at hrej ⊢
  obtain ⟨saved, storage, rejects, hp, hparse, hm⟩ := persistAndAdopt_rejected hrej
  have hstorage : q.storage = (n.adoptTerm args.term).storage := by
    obtain ⟨c, b, r, rfl⟩ := hq
    rfl
  have hu := untouched_adoptTerm hq
  rw [hm]
  refine .of_store hu.log hu.lastSnapshot hu.stateMachine hu.peers ?_
  have hkeep : stored storage = stored q.storage := by
    have hs := stored_persistSnapshot hp
    rcases saved with _ | _
    · exact hs
    rw [if_pos rfl] at hs
    rw [hs]
    -- the store takes the record, so it must have held that record already
    rcases hst : q.storage with _ | s
    · rfl
    have hok : (RaftStorage.saveSnapshot s (snapshotRecord args data)).1 = .ok () := by
      rw [hst] at hp
      unfold persistSnapshot at hp
      dsimp only at hp
      split at hp
      · rename_i s' hsave; rw [hsave]
      · cases hp
    have hheld : (contents s).snapshot = some (snapshotRecord args data) := by
      by_contra hne
      exact h ⟨data, s, hpay, hparse rfl, hstorage.symm.trans hst, hok, hne⟩
    rw [stored_some, map_some, ← hheld]
  rcases hu.store with hsame | ⟨hlt, hhard⟩
  · exact .inl (hkeep.trans hsame)
  · exact .inr ⟨hlt, hkeep.trans hhard⟩

theorem not_clobbers_of_harmless {n : RaftNode σ}
    (hharm : n.RejectionHarmless clock args) : ¬ n.ClobbersStore clock args := by
  rintro ⟨data, s, hpay, hparse, hst, hok, hne⟩
  rcases n.installSnapshot_cases clock args with ⟨hnone, -⟩ | ⟨data', q, hpay', -, -, hq, heq⟩
  · rw [hpay] at hnone
    cases hnone
  obtain rfl : data = data' := some.inj (hpay.symm.trans hpay')
  have hstorage : q.storage = some s := by
    obtain ⟨c, b, r, rfl⟩ := hq
    exact hst
  have hsaved : (persistSnapshot q.storage (snapshotRecord args data)).1 = true := by
    unfold persistSnapshot
    rw [hstorage]
    dsimp only
    split
    · rfl
    rename_i e s' hsave
    rw [hsave] at hok
    cases hok
  have hmal : (n.installSnapshot clock args).1 = .malformed := by
    rw [heq]
    unfold persistAndAdopt
    dsimp only
    rw [if_pos hsaved, hparse]
  have hrej : (n.installSnapshot clock args).1 ≠ .installed := by
    rw [hmal]
    decide
  have hu := hharm hrej
  rw [heq] at hrej hu
  obtain ⟨saved, storage, rejects, hp, -, hm⟩ := persistAndAdopt_rejected hrej
  rw [hp] at hsaved
  cases hsaved
  have hwritten := stored_persistSnapshot hp
  rw [if_pos rfl, hstorage, stored_some, map_some] at hwritten
  have hbefore := n.adoptTerm_sameStore args.term
  unfold SameStore at hbefore
  rw [hst] at hbefore
  have hafter := hu.store
  unfold SameStore at hafter
  rw [hm] at hafter
  rw [hwritten] at hafter
  -- compare the snapshot before the call, after the term was adopted, and at the end
  apply hne
  rcases hn : stored n.storage with _ | c
  · rw [hn] at hafter
    rcases hafter with h | ⟨-, h⟩ <;> cases h
  rw [hn] at hafter hbefore
  have hsnap : c.snapshot = some (snapshotRecord args data) := by
    rcases hafter with h | ⟨-, h⟩
    · rw [← some.inj h]
    · exact (congrArg InMemoryStorage.snapshot (some.inj h)).symm
  rw [← hsnap]
  rcases hbefore with h | ⟨-, h⟩
  · rw [show contents s = c from some.inj h]
  · rw [show contents s = { c with hard := ⟨args.term, none⟩ } from
      some.inj h]

/-- **When a rejected snapshot changes nothing**: exactly when the call does not write
malformed bytes over the snapshot in the store. -/
theorem rejectionHarmless_iff (n : RaftNode σ) (clock : Clock) (args : InstallSnapshotArgs) :
    n.RejectionHarmless clock args ↔ ¬ n.ClobbersStore clock args :=
  ⟨not_clobbers_of_harmless, untouched_of_not_clobbers⟩

end Rejection

section Sample
attribute [local instance] noSnapshotCodec hmacSha256

def sampleFollower : RaftNode InMemoryStorage :=
  { (new "n2" ["n1", "n3"] 1000 0 : RaftNode InMemoryStorage) with
    clusterSecret := some sampleSecret
    stateMachine := some {}
    storage := some {} }

/-- A signed snapshot whose bytes are not JSON. -/
def malformedInstall : InstallSnapshotArgs :=
  let args : InstallSnapshotArgs := {
    term := 1, leaderId := "n1", lastIncludedIndex := 5, lastIncludedTerm := 1
    data := asBytes "garbage", timestampMs := 1000, hmac := none }
  { args with hmac := some (args.computeHmac sampleSecret) }

/-- The rejected bytes are the snapshot the store now holds. -/
theorem sampleFollower_clobbers :
    sampleFollower.ClobbersStore (sampleClock 1000) malformedInstall := by
  have hpay : sampleFollower.snapshotPayload (sampleClock 1000) malformedInstall =
      some (asBytes "garbage") := by
    unfold malformedInstall
    rw [hmacSha256_eq]
    decide +kernel
  have hstore : (sampleFollower.adoptTerm malformedInstall.term).storage =
      some { hard := ⟨1, none⟩ } := by decide +kernel
  have hother : (none : Option PersistedSnapshot) ≠
      some (snapshotRecord malformedInstall (asBytes "garbage")) := by
    intro h
    cases h
  exact ⟨_, _, hpay, rfl, hstore, rfl, hother⟩

/-- A fresh follower that rejects malformed bytes has them in its store. -/
theorem malformed_snapshot_not_harmless :
    ¬ ∀ (σ : Type) [StorageModel σ] [SnapshotCodec] [HmacSha256] (n : RaftNode σ)
      (clock : Clock) (args : InstallSnapshotArgs), n.RejectionHarmless clock args := by
  intro h
  exact not_clobbers_of_harmless (h InMemoryStorage sampleFollower _ _) sampleFollower_clobbers

end Sample

end RaftNode

end CratonHsm
