import CratonHsm.ApprovalQueue
import CratonHsm.AsciiText
import CratonHsm.GuardedRun

/-!
# The principal of a PKCS#11 session

`pkcs11_random_suffix_for` of `identity.rs` looks the handle up and, if it is not there, draws a
suffix and inserts it.  Two calls that both miss return different suffixes, and then a session can
vote for its own request.
-/

namespace CratonHsm.Auth
open PrefixFreeCode AsciiText GuardedRun Function

/-- `SessionIdentity::pkcs11_user` with the suffix it was given. -/
def pkcs11User (handle : UInt64) (suffix : Bytes) : SessionIdentity where
  role := .user
  userId := some ("pkcs11:user:" ++ toString handle ++ ":" ++ String.ofList (hexBytes suffix))
  tenantId := none

/-- Where a call stands: before the look-up, before the insertion, or at its end. -/
inductive SuffixPc where
  | get (handle : UInt64)
  | insert (handle : UInt64)
  | done (handle : UInt64) (suffix : Bytes)
  deriving DecidableEq

/-- The call looks up a handle that the other is about to insert. -/
def SuffixPc.overlaps : SuffixPc → SuffixPc → Bool
  | .get h, .insert h' => h = h'
  | _, _ => false

/-- Threads that ask for the suffix of a session. -/
structure SuffixCalls (T : Type) where
  cache : UInt64 → Option Bytes
  pc : T → SuffixPc

namespace SuffixCalls
variable {T : Type}

/-- The calls for these handles, in a process that has seen none. -/
def start (handle : T → UInt64) : SuffixCalls T := ⟨fun _ => none, fun t => .get (handle t)⟩

variable [DecidableEq T]

/-- One step of a call, with the bytes that it would draw. -/
def step (s : SuffixCalls T) (e : T × Bytes) : SuffixCalls T :=
  match s.pc e.1 with
  | .get h =>
    match s.cache h with
    | some suffix => { s with pc := update s.pc e.1 (.done h suffix) }
    | none => { s with pc := update s.pc e.1 (.insert h) }
  | .insert h => ⟨update s.cache h (some e.2), update s.pc e.1 (.done h e.2)⟩
  | .done _ _ => s

/-- The calls for one handle return one identity, and it cannot vote for a request of its own. -/
def OnePrincipal (s : SuffixCalls T) : Prop :=
  ∀ t u h suffix suffix', s.pc t = .done h suffix → s.pc u = .done h suffix' →
    pkcs11User h suffix = pkcs11User h suffix' ∧
    ∀ (q : ApprovalQueue) (id : String) (r : ApprovalRequest) (wall mono : Nat) (granted : Bool),
      q.pending[id]? = some r → r.requesterUserId = (pkcs11User h suffix).userId →
      (q.approve id (pkcs11User h suffix') wall mono).1 ≠ .ok granted

/-- What has been returned is what is cached, and at most one call is about to insert. -/
structure Stable (s : SuffixCalls T) : Prop where
  returned : ∀ t h suffix, s.pc t = .done h suffix → s.cache h = some suffix
  missed : ∀ t h, s.pc t = .insert h → s.cache h = none
  alone : ∀ t u h, s.pc t = .insert h → s.pc u = .insert h → t = u

variable {s : SuffixCalls T}

theorem Stable.step (hs : s.Stable) {e : T × Bytes}
    (hapart : ∀ u, (s.pc e.1).overlaps (s.pc u) = false) : (s.step e).Stable := by
  obtain ⟨hreturned, hmissed, halone⟩ := hs
  unfold SuffixCalls.step
  split
  · next h hpc =>
    have hnot : ∀ u, s.pc u ≠ .insert h := by
      intro u hu
      simpa [hpc, hu, SuffixPc.overlaps] using hapart u
    split <;> constructor <;> grind [update_apply]
  · next h hpc => constructor <;> grind [update_apply]
  · exact ⟨hreturned, hmissed, halone⟩

omit [DecidableEq T] in
theorem Stable.onePrincipal (hs : s.Stable) : s.OnePrincipal := by
  intro t u h suffix suffix' ht hu
  obtain rfl : suffix = suffix' :=
    Option.some.inj ((hs.returned t h suffix ht).symm.trans (hs.returned u h suffix' hu))
  refine ⟨rfl, fun q id r wall mono granted hr hself hok => ?_⟩
  unfold ApprovalQueue.approve at hok
  split at hok
  · cases hok
  next hvote =>
  obtain ⟨r', hr', -, -, hcheck⟩ := ApprovalQueue.voteOn_ok hvote
  obtain rfl : r = r' := Option.some.inj (hr.symm.trans hr')
  exact (ApprovalQueue.checkVote_ok hcheck).2.2.1 hself.symm

/-- **One session has one principal** if no call looks a handle up while another is about to insert
it. -/
theorem onePrincipal_of_apart {handle : T → UInt64} {events : List (T × Bytes)}
    (hapart : Along step (fun s e => ∀ u, (s.pc e.1).overlaps (s.pc u) = false) (start handle)
      events) : (run step (start handle) events).OnePrincipal := by
  have hstart : (start handle).Stable := by
    constructor <;> simp [start]
  exact (induction_run (fun _ _ h hgo => h.step hgo) hstart hapart).onePrincipal

theorem onePrincipal_in_turn : (run step (start fun _ : Bool => 7)
    [(true, [1]), (true, [1]), (false, [2])]).OnePrincipal :=
  onePrincipal_of_apart (by decide)

/-- Two calls for one handle miss, and return what they drew. -/
theorem two_principals : ¬ (run step (start fun _ : Bool => 7)
    [(true, [1]), (false, [2]), (true, [1]), (false, [2])]).OnePrincipal := by
  intro h
  have hsame := (h true false 7 [1] [2] (by decide) (by decide)).1
  revert hsame
  decide

end SuffixCalls

end CratonHsm.Auth
