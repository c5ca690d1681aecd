import CratonHsm.GuardedRun
import CratonHsm.RaftMac
import CratonHsm.RaftRejection

/-!
# Snapshots in chunks

A snapshot may be sent in chunks.  Each is a signed request of its own that says where its
bytes belong (`offset`), how many there are in all (`total_size`) and whether it is the last.
The receiver appends what arrives to the buffer of the leader, and reads none of the three
when it does so; the MAC of a chunk covers none of them.  A transfer is therefore put together
rightly when its chunks arrive in order, each where the buffer ends (`reassembles_run`), and a
chunk is bound by its MAC up to its place in the transfer.
-/

namespace CratonHsm
open Std PrefixFreeCode GuardedRun List

/-! ## What the MAC covers -/

namespace InstallSnapshotArgs

/-- Integer fields are `u64`s, and the variable-length fields are shorter than `2^32` bytes. -/
structure InRange (a : InstallSnapshotArgs) : Prop where
  term : a.term < 2 ^ 64
  leaderId : Short (asBytes a.leaderId)
  lastIncludedIndex : a.lastIncludedIndex < 2 ^ 64
  lastIncludedTerm : a.lastIncludedTerm < 2 ^ 64
  timestampMs : a.timestampMs < 2 ^ 64
  data : Short a.data

/-- The chunk without its place in the transfer and its MAC: what the MAC covers. -/
def covered (a : InstallSnapshotArgs) : InstallSnapshotArgs :=
  { a with hmac := none, offset := 0, totalSize := 0, lastChunk := true }

/-- Where the chunk belongs. -/
def place (a : InstallSnapshotArgs) : Nat × Nat × Bool := (a.offset, a.totalSize, a.lastChunk)

theorem covered_place_iff {a a' : InstallSnapshotArgs} :
    { a with hmac := none } = { a' with hmac := none } ↔
      a.covered = a'.covered ∧ a.place = a'.place := by
  cases a
  cases a'
  simp only [covered, place, mk.injEq, Prod.mk.injEq, true_and, and_true]
  tauto

/-- **The MAC input of a chunk determines what it covers, and nothing else.** -/
theorem macInput_eq_iff {a a' : InstallSnapshotArgs} (hr : a.InRange) (hr' : a'.InRange) :
    a.macInput = a'.macInput ↔ a.covered = a'.covered := by
  constructor
  · intro h
    obtain ⟨hterm, h₁⟩ := prefixFree_u64 _ _ _ _ hr.term hr'.term (List.cons.inj h).2
    obtain ⟨hleader, h₂⟩ := prefixFree_string _ _ _ _ hr.leaderId hr'.leaderId h₁
    obtain ⟨hindex, h₃⟩ :=
      prefixFree_u64 _ _ _ _ hr.lastIncludedIndex hr'.lastIncludedIndex h₂
    obtain ⟨hsnap, h₄⟩ := prefixFree_u64 _ _ _ _ hr.lastIncludedTerm hr'.lastIncludedTerm h₃
    obtain ⟨htime, h₅⟩ := prefixFree_u64 _ _ _ _ hr.timestampMs hr'.timestampMs h₄
    have hdata := prefixFree_pushLp.injective hr.data hr'.data h₅
    rw [covered, covered, hterm, hleader, hindex, hsnap, htime, hdata]
  · intro h
    have hinput : a.covered.macInput = a'.covered.macInput := congrArg macInput h
    exact hinput

/-- A chunk that is accepted with the MAC of a signed one has its MAC. -/
theorem computeHmac_of_verified [HmacSha256] {σ : Type} {n : RaftNode σ} {clock : Clock}
    {secret : Secret} {mac : Mac} {a : InstallSnapshotArgs}
    (hsecret : n.clusterSecret = some secret)
    (hmac : a.hmac = some mac) (h : (n.verifyInstallSnapshot clock a).1 = true) :
    mac = a.computeHmac secret := by
  unfold RaftNode.verifyInstallSnapshot RaftNode.authenticate at h
  split_ifs at h
  rw [hsecret, hmac] at h
  dsimp only at h
  split at h
  next hfresh => exact hfresh.2
  · cases h

/-- **The MAC binds a pair of chunks** exactly if they have the same place in the transfer, or
differ in what it covers.  A receiver accepts a copy with the MAC of a signed chunk only if it
differs in its place alone, unless the two inputs collide under the secret. -/
theorem chunk_bound_iff [HmacSha256] {a a' : InstallSnapshotArgs} (hr : a.InRange)
    (hr' : a'.InRange) :
    ((a.macInput = a'.macInput → { a with hmac := none } = { a' with hmac := none }) ↔
      a.place = a'.place ∨ a.covered ≠ a'.covered) ∧
    ∀ (σ : Type) (n : RaftNode σ) (clock : Clock) (secret : Secret),
      n.clusterSecret = some secret → a.hmac = some (a.computeHmac secret) → a'.hmac = a.hmac →
      (a.computeHmac secret = a'.computeHmac secret → a.macInput = a'.macInput) →
      (n.verifyInstallSnapshot clock a').1 = true → a.covered = a'.covered := by
  constructor
  · rw [macInput_eq_iff hr hr', covered_place_iff]
    tauto
  · intro σ n clock secret hsecret hsigned hcopied hforge haccepted
    exact (macInput_eq_iff hr hr').mp
      (hforge (computeHmac_of_verified hsecret (hcopied.trans hsigned) haccepted))

/-- The first half of a snapshot of four bytes. -/
def firstHalf : InstallSnapshotArgs where
  term := 1
  leaderId := "n1"
  lastIncludedIndex := 5
  lastIncludedTerm := 1
  data := [1, 2]
  timestampMs := 1000
  hmac := none
  totalSize := 4
  lastChunk := false

/-- Neither its MAC nor its place makes a difference to the range of a chunk. -/
theorem firstHalf_inRange (hmac : Option Mac) (offset : Nat) (lastChunk : Bool) :
    { firstHalf with hmac := hmac, offset := offset, lastChunk := lastChunk }.InRange where
  term := show 1 < 2 ^ 64 by decide
  leaderId := show (asBytes "n1").length < 2 ^ 32 by decide
  lastIncludedIndex := show 5 < 2 ^ 64 by decide
  lastIncludedTerm := show 1 < 2 ^ 64 by decide
  timestampMs := show 1000 < 2 ^ 64 by decide
  data := show 2 < 2 ^ 32 by decide

section Sample
attribute [local instance] hmacSha256

/-- The first half, signed, and a copy of it with other bytes. -/
def signedHalf : InstallSnapshotArgs :=
  { firstHalf with hmac := some (firstHalf.computeHmac sampleSecret) }

def alteredHalf : InstallSnapshotArgs := { signedHalf with data := [1, 3] }

/-- The copy has another MAC input, and no node with the secret accepts it. -/
theorem chunk_bound_iff_altered : signedHalf.macInput ≠ alteredHalf.macInput ∧
    ∀ clock, (({ (RaftNode.new "n2" ["n1"] 1000 0 : RaftNode InMemoryStorage) with
      clusterSecret := some sampleSecret }).verifyInstallSnapshot clock alteredHalf).1 ≠ true := by
  have hr' : alteredHalf.InRange :=
    { firstHalf_inRange none 0 false with data := show 2 < 2 ^ 32 by decide }
  obtain ⟨hbound, haccepted⟩ := chunk_bound_iff (firstHalf_inRange
    (some (firstHalf.computeHmac sampleSecret)) 0 false) hr'
  have hdiffer : signedHalf.covered ≠ alteredHalf.covered := by
    intro h
    exact absurd (congrArg data h) (by decide)
  refine ⟨fun h => ?_, fun clock h => hdiffer (haccepted _ _ clock sampleSecret rfl rfl rfl ?_ h)⟩
  · exact absurd (congrArg data (hbound.mpr (.inr hdiffer) h)) (by decide)
  · intro hcollides
    revert hcollides
    rw [hmacSha256_eq]
    decide +kernel

end Sample

/-- The place of a chunk is not bound: moved behind the second half and made the last one, it
has the same MAC input, and every node that accepts the one accepts the other. -/
theorem chunk_place_unbound : ∃ a a' : InstallSnapshotArgs, a.InRange ∧ a'.InRange ∧
    { a with hmac := none } ≠ { a' with hmac := none } ∧ a.macInput = a'.macInput ∧
    ∀ [HmacSha256] {σ : Type} (n : RaftNode σ) (clock : Clock),
      n.verifyInstallSnapshot clock a' = n.verifyInstallSnapshot clock a :=
  ⟨firstHalf, { firstHalf with offset := 2, lastChunk := true }, firstHalf_inRange none 0 false,
    firstHalf_inRange none 2 true, by decide, rfl, fun _ _ => rfl⟩

end InstallSnapshotArgs

/-! ## Reassembly -/

namespace RaftNode
variable {σ : Type} {n : RaftNode σ}

/-- The chunk carries this byte for position `k`. -/
def Carries (a : InstallSnapshotArgs) (k : Nat) (b : UInt8) : Prop :=
  a.offset ≤ k ∧ a.data[k - a.offset]? = some b

/-- The bytes behind the buffer are those of the chunk. -/
theorem carried_append {buf : Bytes} {P : Nat → UInt8 → Prop} {a : InstallSnapshotArgs}
    (hbuf : ∀ k b, buf[k]? = some b → P k b) (hat : a.offset = buf.length)
    (ha : ∀ k b, Carries a k b → P k b) : ∀ k b, (buf ++ a.data)[k]? = some b → P k b := by
  intro k b hk
  rcases Nat.lt_or_ge k buf.length with hlt | hge
  · rw [getElem?_append_left hlt] at hk
    exact hbuf k b hk
  · rw [getElem?_append_right hge, ← hat] at hk
    exact ha k b ⟨hat ▸ hge, hk⟩

section Transfer
variable [RaftStorage σ] [SnapshotCodec]

theorem persistAndAdopt_buffered (n : RaftNode σ) (clock : Clock) (args : InstallSnapshotArgs)
    (data : Bytes) (leaderId : String) :
    (n.persistAndAdopt clock args data).2.buffered leaderId = n.buffered leaderId := by
  unfold persistAndAdopt
  dsimp only
  split
  · split <;> rfl
  · rfl

variable [HmacSha256]

/-- What a call does to the buffer of the leader: nothing, or it is dropped, or the chunk is
one of several and appended. -/
theorem buffered_installSnapshot (n : RaftNode σ) (clock : Clock) (args : InstallSnapshotArgs) :
    (n.installSnapshot clock args).2.buffered args.leaderId = n.buffered args.leaderId ∨
      (n.installSnapshot clock args).2.buffered args.leaderId = [] ∨
      ¬ (args.offset = 0 ∧ args.lastChunk = true) ∧
        (n.installSnapshot clock args).2.buffered args.leaderId =
          n.buffered args.leaderId ++ args.data := by
  obtain ⟨cache, hv⟩ := n.verifyInstallSnapshot_node clock args
  have hdrop : (n.snapshotChunkBuffers.erase args.leaderId)[args.leaderId]?.elim []
      SnapshotChunkBuffer.data = [] := by
    rw [ExtTreeMap.getElem?_erase_self]
    rfl
  unfold installSnapshot
  generalize n.verifyInstallSnapshot clock args = r at hv
  obtain ⟨verified, q⟩ := r
  dsimp only at hv ⊢
  split
  · rw [hv]
    exact .inl rfl
  split
  · rw [hv]
    exact .inl rfl
  have hbuf : (q.adoptTerm args.term).snapshotChunkBuffers = n.snapshotChunkBuffers := by
    rw [hv]
    unfold adoptTerm
    split <;> rfl
  generalize q.adoptTerm args.term = q at hbuf
  have hsame : q.buffered args.leaderId = n.buffered args.leaderId := by
    unfold buffered
    rw [hbuf]
  unfold receiveSnapshot
  split
  · exact .inl hsame
  split
  · split <;> exact .inl hsame
  rw [← hsame]
  rw [← hbuf] at hdrop
  rcases q.reassemble_cases args with ⟨-, hr⟩ | ⟨hmany, ⟨o, -, hr⟩ | hr | ⟨buf, hdata, hr⟩⟩
  · rw [hr]
    exact .inl (persistAndAdopt_buffered ..)
  · rw [hr]
    exact .inr (.inl hdrop)
  · rw [hr]
    exact .inr (.inl ((persistAndAdopt_buffered ..).trans hdrop))
  · rw [hr]
    refine .inr (.inr ⟨hmany, ?_⟩)
    unfold buffered
    rw [ExtTreeMap.getElem?_insert_self]
    exact hdata

/-- `handle_install_snapshot` on a delivered chunk. -/
def deliver (n : RaftNode σ) (chunk : Clock × InstallSnapshotArgs) : RaftNode σ :=
  (n.installSnapshot chunk.1 chunk.2).2

/-- What reassembly is to give for the last of the delivered chunks. -/
def Reassembles (n : RaftNode σ) (chunks : List (Clock × InstallSnapshotArgs)) (clock : Clock)
    (last : InstallSnapshotArgs) : Prop :=
  ∀ data, (run deliver n chunks).snapshotPayload clock last = some data →
    data.length = last.totalSize ∧ ∀ k b, data[k]? = some b →
      ∃ a ∈ last :: chunks.map Prod.snd, Carries a k b

/-- The chunk is the whole snapshot, or begins where the buffer of its leader ends. -/
def InOrder (n : RaftNode σ) (chunk : Clock × InstallSnapshotArgs) : Prop :=
  chunk.2.offset = 0 ∧ chunk.2.lastChunk = true ∨
    chunk.2.offset = (n.buffered chunk.2.leaderId).length

/-- Every byte in the buffer of a leader was carried there by one of its chunks. -/
theorem buffered_run {leaderId : String} (hempty : n.buffered leaderId = [])
    {chunks : List (Clock × InstallSnapshotArgs)} (hone : ∀ c ∈ chunks, c.2.leaderId = leaderId)
    (horder : Along deliver InOrder n chunks) :
    ∀ k b, ((run deliver n chunks).buffered leaderId)[k]? = some b →
      ∃ a ∈ chunks.map Prod.snd, Carries a k b := by
  induction chunks using List.reverseRecOn with
  | nil =>
    intro k b hk
    rw [show (run deliver n []).buffered leaderId = [] from hempty] at hk
    cases hk
  | append_singleton chunks chunk ih =>
    obtain ⟨hbefore, hchunk⟩ := along_snoc.mp horder
    have hid := hone chunk (by simp)
    have hold := ih (fun c hc => hone c (by simp [hc])) hbefore
    have hkeep : ∀ k b, ((run deliver n chunks).buffered leaderId)[k]? = some b →
        ∃ a ∈ (chunks ++ [chunk]).map Prod.snd, Carries a k b := by
      intro k b hk
      obtain ⟨a, ha, hc⟩ := hold k b hk
      exact ⟨a, by simp [ha], hc⟩
    rw [run_snoc, deliver]
    subst hid
    rcases buffered_installSnapshot (run deliver n chunks) chunk.1 chunk.2 with
      hs | hs | ⟨hmany, hs⟩
    · rw [hs]
      exact hkeep
    · rw [hs]
      nofun
    · rw [hs]
      exact carried_append hkeep (hchunk.resolve_left hmany) fun k b hc => ⟨chunk.2, by simp, hc⟩

/-- **A transfer in order is put together rightly.** -/
theorem reassembles_run {leaderId : String} (hempty : n.buffered leaderId = [])
    {chunks : List (Clock × InstallSnapshotArgs)} {clock : Clock} {last : InstallSnapshotArgs}
    (hone : ∀ c ∈ chunks ++ [(clock, last)], c.2.leaderId = leaderId)
    (horder : Along deliver InOrder n (chunks ++ [(clock, last)]))
    (hend : last.offset + last.data.length = last.totalSize) :
    n.Reassembles chunks clock last := by
  intro data hdata
  obtain ⟨hbefore, hlast⟩ := along_snoc.mp horder
  have hid := hone (clock, last) (by simp)
  have hcarried := buffered_run hempty (fun c hc => hone c (by simp [hc])) hbefore
  have hsame : ∀ k b, Carries last k b → ∃ a ∈ last :: chunks.map Prod.snd, Carries a k b :=
    fun k b hc => ⟨last, by simp, hc⟩
  rcases snapshotPayload_complete hdata with ⟨⟨h0, -⟩, rfl⟩ | ⟨hmany, hd⟩
  · refine ⟨by omega, fun k b hk => hsame k b ⟨by omega, ?_⟩⟩
    rw [h0]
    exact hk
  · have hat : last.offset = ((run deliver n chunks).buffered last.leaderId).length :=
      hlast.resolve_left hmany
    rw [hd]
    refine ⟨by rw [length_append]; omega, carried_append (fun k b hk => ?_) hat hsame⟩
    rw [show last.leaderId = leaderId from hid] at hk
    obtain ⟨a, ha, hc⟩ := hcarried k b hk
    exact ⟨a, mem_cons_of_mem _ ha, hc⟩

end Transfer

section Sample
attribute [local instance] noSnapshotCodec hmacSha256

/-- The chunk, signed at a time. -/
def signedAt (a : InstallSnapshotArgs) (nowMs : Nat) : InstallSnapshotArgs :=
  { a with timestampMs := nowMs
           hmac := some ({ a with timestampMs := nowMs }.computeHmac sampleSecret) }

def secondHalf : InstallSnapshotArgs :=
  { InstallSnapshotArgs.firstHalf with data := [3, 4], offset := 2, lastChunk := true }

/-- The first half once, or sent again before the second. -/
def firstHalves (nows : List Nat) : List (Clock × InstallSnapshotArgs) :=
  nows.map fun now => (sampleClock now, signedAt .firstHalf now)

theorem reassembles_run_halves :
    (run deliver sampleFollower (firstHalves [1000])).snapshotPayload (sampleClock 1001)
        (signedAt secondHalf 1001) = some [1, 2, 3, 4] ∧
      sampleFollower.Reassembles (firstHalves [1000]) (sampleClock 1001)
        (signedAt secondHalf 1001) := by
  have hempty : sampleFollower.buffered "n1" = [] := rfl
  refine ⟨?_, reassembles_run hempty ?_ ⟨.inr rfl, .inr ?_, trivial⟩ rfl⟩
  · unfold firstHalves signedAt
    rw [hmacSha256_eq]
    decide +kernel
  · exact forall_mem_append.mpr ⟨forall_mem_singleton.mpr rfl, forall_mem_singleton.mpr rfl⟩
  · unfold signedAt
    rw [hmacSha256_eq]
    decide +kernel

/-- A chunk that is sent again is appended again. -/
theorem resent_chunk_doubled : ¬ sampleFollower.Reassembles (firstHalves [1000, 1001])
    (sampleClock 1002) (signedAt secondHalf 1002) := by
  have hpay : (run deliver sampleFollower (firstHalves [1000, 1001])).snapshotPayload
      (sampleClock 1002) (signedAt secondHalf 1002) = some [1, 2, 1, 2, 3, 4] := by
    unfold firstHalves signedAt
    rw [hmacSha256_eq]
    decide +kernel
  intro h
  have hlen := (h _ hpay).1
  cases hlen

end Sample

end RaftNode

end CratonHsm
