import CratonHsm.ApprovalQueue
import CratonHsm.RunHistory
import Mathlib.Data.List.Nodup

/-!
# Dual control under concurrent calls

The calls of the approval queue as programs of threads that interleave at every operation on
the map.  `approve` holds the entry while it counts a vote, so a vote is one step;
`consume_approved` looks at the request and removes it in two.

What is consumed was approved: by enough different users, none of them the requester, each
with an approver's role and in the requester's tenant, and each before the deadline.  No
request is consumed twice.  The deadline itself is checked at the look only: a thread that is
held up between its two steps consumes a request that others have already been told is
expired.
-/

namespace CratonHsm.Auth
open Std GuardedRun OrderedMaps ApprovalQueue Option

/-! ## Threads -/

/-- A call that a thread can make. -/
inductive ApprovalCall where
  | request (operation : HsmOperation) (objectHandle : Option UInt64) (requester : SessionIdentity)
  | approve (id : String) (approver : SessionIdentity)
  | consume (id : String)
  | list

/-- Where a thread stands: before each operation on the map. -/
inductive ApprovalPc where
  | idle
  /-- `request_approval` before `evict_expired`. -/
  | requestEvict (operation : HsmOperation) (objectHandle : Option UInt64)
      (requester : SessionIdentity)
  /-- `request_approval` before `pending.insert`. -/
  | requestInsert (operation : HsmOperation) (objectHandle : Option UInt64)
      (requester : SessionIdentity)
  /-- `approve` before `pending.get_mut`. -/
  | vote (id : String) (approver : SessionIdentity)
  /-- `approve` before it removes the expired request. -/
  | voteRemove (id : String)
  /-- `consume_approved` before `pending.get`. -/
  | consumePeek (id : String)
  /-- `consume_approved` before `pending.remove`, with the moment of its look. -/
  | consumeTake (id : String) (peekedAt : Nat)
  /-- `list_pending` before `evict_expired`. -/
  | listEvict

/-- The moment of a step on both clocks, and the identifier to be drawn at it. -/
structure ApprovalTick where
  wall : Nat
  mono : Nat
  id : String := ""

/-- Threads on one queue. -/
structure ApprovalThreads (T : Type) where
  queue : ApprovalQueue
  pc : T → ApprovalPc

/-- A thread begins a call or makes its next step. -/
inductive ApprovalStep (T : Type) where
  | invoke (t : T) (call : ApprovalCall)
  | advance (t : T) (tick : ApprovalTick)

namespace ApprovalThreads
variable {T : Type} [DecidableEq T] {r : ApprovalRequest} {id : String} {q : ApprovalQueue}
  {p : ApprovalPc} {approver : SessionIdentity}

/-- No thread is in a call. -/
def initial (q : ApprovalQueue) : ApprovalThreads T := ⟨q, fun _ => .idle⟩

/-- The queue and the next place of a thread. -/
def goto (s : ApprovalThreads T) (t : T) (q : ApprovalQueue) (p : ApprovalPc) :
    ApprovalThreads T :=
  ⟨q, Function.update s.pc t p⟩

/-- Where a call begins; `request_approval` makes its checks first. -/
def start (q : ApprovalQueue) : ApprovalCall → ApprovalPc
  | .request operation objectHandle requester =>
    match q.checkRequest operation requester with
    | .error _ => .idle
    | .ok () => .requestEvict operation objectHandle requester
  | .approve id approver => .vote id approver
  | .consume id => .consumePeek id
  | .list => .listEvict

/-- The next step from a place: the queue after it and the next place. -/
def next (q : ApprovalQueue) (tick : ApprovalTick) : ApprovalPc → ApprovalQueue × ApprovalPc
  | .idle => (q, .idle)
  | .requestEvict operation objectHandle requester =>
    (q.evictExpired tick.wall, .requestInsert operation objectHandle requester)
  | .requestInsert operation objectHandle requester =>
    (q.insertRequest (q.newRequest operation objectHandle requester tick.id tick.wall tick.mono),
      .idle)
  | .vote id approver =>
    match q.voteOn id approver tick.wall tick.mono with
    -- the guard is dropped before an expired request is removed
    | .error _ => (q, if q.entryExpired id tick.mono then .voteRemove id else .idle)
    | .ok r => ({ q with pending := q.pending.insert id r }, .idle)
  | .voteRemove id => (q.remove id, .idle)
  | .consumePeek id =>
    match q.peek id tick.mono with
    | .error _ => (q, .idle)
    | .ok () => (q, .consumeTake id tick.mono)
  | .consumeTake id _ => ((q.take id).2, .idle)
  | .listEvict => (q.evictExpired tick.wall, .idle)

/-- One step of the whole. -/
def step (s : ApprovalThreads T) : ApprovalStep T → ApprovalThreads T
  | .invoke t call =>
    match s.pc t with
    | .idle => s.goto t s.queue (start s.queue call)
    | _ => s
  | .advance t tick => s.goto t (next s.queue tick (s.pc t)).1 (next s.queue tick (s.pc t)).2

/-! ## What a run leaves behind -/

/-- A vote that was counted: for which request, by whom, and when. -/
structure CastVote where
  id : String
  approver : SessionIdentity
  moment : Nat

/-- The vote that a step counts. -/
def castVote (s : ApprovalThreads T) : ApprovalStep T → Option CastVote
  | .invoke _ _ => none
  | .advance t tick =>
    match s.pc t with
    | .vote id approver =>
      match s.queue.voteOn id approver tick.wall tick.mono with
      | .error _ => none
      | .ok _ => some ⟨id, approver, tick.mono⟩
    | _ => none

/-- The identifier that a step draws. -/
def drawnId (s : ApprovalThreads T) : ApprovalStep T → Option String
  | .invoke _ _ => none
  | .advance t tick =>
    match s.pc t with
    | .requestInsert _ _ _ => some tick.id
    | _ => none

/-- A request that `consume_approved` returned, and when it was removed. -/
structure Consumption where
  request : ApprovalRequest
  moment : Nat
  deriving DecidableEq

/-- What a step consumes. -/
def consumption (s : ApprovalThreads T) : ApprovalStep T → Option Consumption
  | .invoke _ _ => none
  | .advance t tick =>
    match s.pc t with
    | .consumeTake id _ =>
      match (s.queue.take id).1 with
      | .error _ => none
      | .ok r => some ⟨r, tick.mono⟩
    | _ => none

/-- The deadline of the request does not pass between the look of a `consume_approved` and its
removal. -/
def NotHeldUp (s : ApprovalThreads T) : ApprovalStep T → Prop
  | .invoke _ _ => True
  | .advance t tick =>
    match s.pc t with
    | .consumeTake id peekedAt => ∀ r ∈ s.queue.pending[id]?,
      ¬ (peekedAt < r.expiresAtMono ∧ r.expiresAtMono ≤ tick.mono)
    | _ => True

instance (s : ApprovalThreads T) (e : ApprovalStep T) : Decidable (NotHeldUp s e) := by
  unfold NotHeldUp
  split
  · infer_instance
  · split <;> infer_instance

/-- The voter may vote for the request and did so before its deadline. -/
structure Entitled (r : ApprovalRequest) (v : CastVote) : Prop where
  id : v.id = r.id
  role : v.approver.role ∈ ApprovalQueue.defaultApproverRoles
  present : idMissing v.approver.userId = false
  other : v.approver.userId ≠ r.requesterUserId
  tenant : v.approver.tenantId = r.requesterTenantId
  inTime : v.moment < r.expiresAtMono

/-! ## The invariant -/

section Invariant
variable {operations : List HsmOperation} {required : UInt32}

/-- A pending request and the votes that were cast for it. -/
structure Accounted (operations : List HsmOperation) (required : UInt32) (votes : List CastVote)
    (id : String) (r : ApprovalRequest) : Prop where
  id : r.id = id
  operation : r.operation ∈ operations
  required : r.requiredApprovals = max required 2
  distinct : (r.approvals.map (·.approverUserId)).Nodup
  voters : ∃ voters : List CastVote, voters ⊆ votes ∧
    voters.map (·.approver.userId) = r.approvals.map (·.approverUserId) ∧ ∀ v ∈ voters, Entitled r v

theorem Accounted.mono {votes more : List CastVote} (h : Accounted operations required votes id r) :
    Accounted operations required (votes ++ more) id r := by
  obtain ⟨voters, hcast, hsame, hentitled⟩ := h.voters
  exact { h with
    voters := ⟨voters, fun v hv => List.mem_append_left _ (hcast hv), hsame, hentitled⟩ }

/-- One more vote. -/
theorem Accounted.vote {votes : List CastVote} {wall mono : Nat}
    (h : Accounted operations required votes id r)
    (hroles : q.allowedApproverRoles = defaultApproverRoles)
    (hcheck : q.checkVote r approver = .ok ()) (hmono : mono < r.expiresAtMono) :
    Accounted operations required (votes ++ [⟨id, approver, mono⟩]) id
      (withVote r approver wall) := by
  obtain ⟨hrole, hpresent, hother, htenant, hnew⟩ := checkVote_ok hcheck
  obtain ⟨voters, hcast, hsame, hentitled⟩ := h.voters
  rw [hroles] at hrole
  refine ⟨h.id, h.operation, h.required, ?_, voters ++ [⟨id, approver, mono⟩], ?_, ?_, ?_⟩
  · simp only [withVote, List.map_append, List.map_cons, List.map_nil]
    rw [← List.concat_eq_append]
    exact h.distinct.concat hnew
  · exact List.append_subset.mpr ⟨fun v hv => List.mem_append_left _ (hcast hv), by simp⟩
  · simp [withVote, hsame]
  · intro v hv
    rcases List.mem_append.mp hv with hv | hv
    · obtain ⟨hid, hrole, hpresent, hother, htenant, htime⟩ := hentitled v hv
      exact ⟨hid, hrole, hpresent, hother, htenant, htime⟩
    · rw [List.mem_singleton] at hv
      subst hv
      exact ⟨h.id.symm, hrole, hpresent, hother, htenant, hmono⟩

/-- What a thread's place says about the queue. -/
def PcSound (operations : List HsmOperation) (q : ApprovalQueue) (drawn : List String) :
    ApprovalPc → Prop
  | .requestEvict operation _ _ => operation ∈ operations
  | .requestInsert operation _ _ => operation ∈ operations
  | .consumeTake id peekedAt => id ∈ drawn ∧ ∀ r ∈ q.pending[id]?,
    r.requiredApprovals.toNat ≤ r.approvals.length ∧ peekedAt < r.expiresAtMono
  | _ => True

/-- Requests under the drawn identifiers are removed or get votes, and do not change otherwise. -/
def Grown (drawn : List String) (q q' : ApprovalQueue) : Prop :=
  ∀ id ∈ drawn, ∀ r' ∈ q'.pending[id]?, ∃ r ∈ q.pending[id]?,
    r.requiredApprovals = r'.requiredApprovals ∧ r.approvals.length ≤ r'.approvals.length ∧
      r.expiresAtMono = r'.expiresAtMono

theorem PcSound.grown {q q' : ApprovalQueue} {drawn drawn' : List String}
    (h : PcSound operations q drawn p) (hgrown : Grown drawn q q') (hdrawn : drawn ⊆ drawn') :
    PcSound operations q' drawn' p := by
  cases p with
  | consumeTake id peekedAt =>
    refine ⟨hdrawn h.1, ?_⟩
    intro r' hr'
    obtain ⟨r, hr, hrequired, hlength, hdeadline⟩ := hgrown id h.1 r' hr'
    obtain ⟨hfull, htime⟩ := h.2 r hr
    rw [← hrequired, ← hdeadline]
    exact ⟨Nat.le_trans hfull hlength, htime⟩
  | requestEvict | requestInsert => exact h
  | idle | vote | voteRemove | consumePeek | listEvict => trivial

/-- The queue against the history: what is pending is accounted for, and what was consumed is
gone for good. -/
structure QueueSound (operations : List HsmOperation) (required : UInt32) (q : ApprovalQueue)
    (votes : List CastVote) (drawn consumed : List String) : Prop where
  dualControl : q.dualControlOperations = operations
  quorum : q.requiredApprovals = max required 2
  roles : q.allowedApproverRoles = ApprovalQueue.defaultApproverRoles
  pending : ∀ (id : String) (r : ApprovalRequest), q.pending[id]? = some r →
    id ∈ drawn ∧ Accounted operations required votes id r
  gone : ∀ id ∈ consumed, id ∈ drawn ∧ q.pending[id]? = none
  once : consumed.Nodup

namespace QueueSound
variable {q q' : ApprovalQueue} {votes : List CastVote} {drawn consumed : List String}

section Kept
variable (h : QueueSound operations required q votes drawn consumed)
include h

/-- Requests are removed. -/
theorem shrink {pending : ExtTreeMap String ApprovalRequest}
    (hshrink : ∀ (id : String) (r : ApprovalRequest), pending[id]? = some r → q.pending[id]? =
      some r) :
    QueueSound operations required { q with pending := pending } votes drawn consumed ∧
      Grown drawn q { q with pending := pending } := by
  refine ⟨⟨h.dualControl, h.quorum, h.roles, ?_, ?_, h.once⟩, ?_⟩
  · intro id r hr
    exact h.pending id r (hshrink id r hr)
  · intro id hid
    refine ⟨(h.gone id hid).1, ?_⟩
    cases hr : pending[id]? with
    | none => rfl
    | some r =>
      have hbefore := hshrink id r hr
      rw [(h.gone id hid).2] at hbefore
      cases hbefore
  · intro id _ r hr
    exact ⟨r, hshrink id r hr, rfl, Nat.le_refl _, rfl⟩

theorem evictExpired (now : Nat) :
    QueueSound operations required (q.evictExpired now) votes drawn consumed ∧
      Grown drawn q (q.evictExpired now) := by
  refine h.shrink ?_
  intro id r hr
  rw [ExtTreeMap.getElem?_filter', filter_eq_some_iff] at hr
  exact hr.1

theorem remove (id : String) :
    QueueSound operations required (q.remove id) votes drawn consumed ∧
      Grown drawn q (q.remove id) := by
  refine h.shrink ?_
  intro k r hr
  exact getElem?_of_erase hr

/-- A vote is counted. -/
theorem vote {wall mono : Nat} (hvote : q.voteOn id approver wall mono = .ok r) :
    QueueSound operations required { q with pending := q.pending.insert id r }
      (votes ++ [⟨id, approver, mono⟩]) drawn consumed ∧
      Grown drawn q { q with pending := q.pending.insert id r } := by
  obtain ⟨r₀, hr₀, rfl, hmono, hcheck⟩ := voteOn_ok hvote
  obtain ⟨hdrawn, haccounted⟩ := h.pending id r₀ hr₀
  refine ⟨⟨h.dualControl, h.quorum, h.roles, ?_, ?_, h.once⟩, ?_⟩
  · exact forall_insert ⟨hdrawn, haccounted.vote h.roles hcheck hmono⟩ fun k r hr =>
      (h.pending k r hr).imp_right Accounted.mono
  · intro k hk
    refine ⟨(h.gone k hk).1, ?_⟩
    rw [getElem?_insert_of_ne]
    · exact (h.gone k hk).2
    · rintro rfl
      rw [(h.gone k hk).2] at hr₀
      cases hr₀
  · intro k _ r hr
    rcases getElem?_insert_cases hr with ⟨rfl, rfl⟩ | ⟨-, hr⟩
    · refine ⟨r₀, hr₀, rfl, ?_, rfl⟩
      simp [withVote]
    · exact ⟨r, hr, rfl, Nat.le_refl _, rfl⟩

/-- A request comes in under a new identifier. -/
theorem insertRequest {operation : HsmOperation} (hoperation : operation ∈ operations)
    (hfresh : id ∉ drawn) (objectHandle : Option UInt64)
    (requester : SessionIdentity) (wall mono : Nat) :
    let q' := q.insertRequest (q.newRequest operation objectHandle requester id wall mono)
    QueueSound operations required q' votes (drawn ++ [id]) consumed ∧ Grown drawn q q' := by
  have hother : ∀ k : String, k ≠ id → (q.insertRequest
      (q.newRequest operation objectHandle requester id wall mono)).pending[k]? = q.pending[k]? :=
    fun k hk => getElem?_insert_of_ne hk _
  have hdrawn : ∀ k ∈ drawn, k ≠ id := by
    rintro k hk rfl
    exact hfresh hk
  refine ⟨⟨h.dualControl, h.quorum, h.roles, ?_, ?_, h.once⟩, ?_⟩
  · exact forall_insert ⟨List.mem_append_right _ (List.mem_singleton_self _), rfl, hoperation,
      h.quorum, List.nodup_nil, [], List.nil_subset _, rfl, by simp⟩ fun k r hr =>
        (h.pending k r hr).imp_left (List.mem_append_left _)
  · intro k hk
    obtain ⟨hin, hnone⟩ := h.gone k hk
    refine ⟨List.mem_append_left _ hin, ?_⟩
    rw [hother k (hdrawn k hin)]
    exact hnone
  · intro k hk r hr
    rw [hother k (hdrawn k hk)] at hr
    exact ⟨r, hr, rfl, Nat.le_refl _, rfl⟩

/-- A request is consumed. -/
theorem consume (hr : q.pending[id]? = some r) :
    QueueSound operations required (q.remove id) votes drawn (consumed ++ [r.id]) := by
  obtain ⟨hdrawn, haccounted⟩ := h.pending id r hr
  have hleft := (h.remove id).1
  rw [haccounted.id]
  refine { hleft with gone := ?_, once := ?_ }
  · exact List.forall_mem_append.mpr ⟨hleft.gone, List.forall_mem_singleton.mpr
      ⟨hdrawn, by simp [ApprovalQueue.remove]⟩⟩
  · rw [← List.concat_eq_append]
    refine h.once.concat fun hbefore => ?_
    rw [(h.gone id hbefore).2] at hr
    cases hr

end Kept

end QueueSound

/-- The queue and every thread. -/
structure Sound (operations : List HsmOperation) (required : UInt32) (s : ApprovalThreads T)
    (votes : List CastVote) (drawn consumed : List String) : Prop where
  queue : QueueSound operations required s.queue votes drawn consumed
  threads : ∀ t, PcSound operations s.queue drawn (s.pc t)

namespace Sound
variable {s : ApprovalThreads T} {votes votes' : List CastVote}
  {drawn drawn' consumed consumed' : List String}

/-- One thread moves. -/
theorem goto {t : T} (h : Sound operations required s votes drawn consumed)
    (hq : QueueSound operations required q votes' drawn' consumed' ∧ Grown drawn s.queue q)
    (hdrawn : drawn ⊆ drawn') (hp : PcSound operations q drawn' p) :
    Sound operations required (s.goto t q p) votes' drawn' consumed' := by
  refine ⟨hq.1, ?_⟩
  intro u
  by_cases hu : u = t
  · subst hu
    simpa [ApprovalThreads.goto] using hp
  · simpa [ApprovalThreads.goto, hu] using (h.threads u).grown hq.2 hdrawn

omit [DecidableEq T] in
/-- The queue as it is. -/
theorem same (h : Sound operations required s votes drawn consumed) :
    QueueSound operations required s.queue votes drawn consumed ∧
      Grown drawn s.queue s.queue := by
  refine ⟨h.queue, ?_⟩
  intro id _ r hr
  exact ⟨r, hr, rfl, Nat.le_refl _, rfl⟩

section
variable (h : Sound operations required s votes drawn consumed)
include h

omit [DecidableEq T] in
/-- Where a call begins. -/
theorem start (call : ApprovalCall) : PcSound operations s.queue drawn (start s.queue call) := by
  cases call with
  | request operation objectHandle requester =>
    dsimp only [ApprovalThreads.start, checkRequest]
    rw [h.queue.dualControl]
    by_cases hoperation : operation ∈ operations
    · by_cases hmissing : idMissing requester.userId = true <;> simp [hoperation, hmissing, PcSound]
    · simp [hoperation, PcSound]
  | approve | consume | list => trivial

/-- One thread moves, and the history stays. -/
theorem quiet {t : T}
    (hq : QueueSound operations required q votes drawn consumed ∧ Grown drawn s.queue q)
    (hp : PcSound operations q drawn p) :
    Sound operations required (s.goto t q p) (votes ++ []) (drawn ++ []) (consumed ++ []) := by
  simp only [List.append_nil]
  exact h.goto hq (List.Subset.refl _) hp

/-- **Every step keeps the account.** -/
theorem step (e : ApprovalStep T) (hfresh : ∀ id ∈ drawnId s e, id ∉ drawn) :
    Sound operations required (s.step e) (votes ++ (castVote s e).toList)
      (drawn ++ (drawnId s e).toList)
      (consumed ++ (consumption s e).toList.map (·.request.id)) := by
  cases e with
  | invoke t call =>
    dsimp only [ApprovalThreads.step]
    split
    · exact h.quiet h.same (h.start call)
    · simpa [castVote, drawnId, consumption] using h
  | advance t tick =>
    have hplace := h.threads t
    dsimp only [ApprovalThreads.step, castVote, drawnId, consumption] at hfresh ⊢
    generalize s.pc t = p at hfresh hplace ⊢
    cases p with
    | idle => exact h.quiet h.same trivial
    | requestEvict operation objectHandle requester =>
      exact h.quiet (h.queue.evictExpired tick.wall) hplace
    | requestInsert operation objectHandle requester =>
      simp only [toList_none, List.map_nil, List.append_nil]
      exact h.goto (h.queue.insertRequest hplace (hfresh tick.id rfl) objectHandle requester
        tick.wall tick.mono) (List.subset_append_left _ _) trivial
    | vote id approver =>
      dsimp only [next]
      cases hvote : s.queue.voteOn id approver tick.wall tick.mono with
      | error e =>
        refine h.quiet h.same ?_
        dsimp only
        split <;> trivial
      | ok r =>
        simp only [toList_none, List.map_nil, List.append_nil]
        exact h.goto (h.queue.vote hvote) (List.Subset.refl _) trivial
    | voteRemove id => exact h.quiet (h.queue.remove id) trivial
    | consumePeek id =>
      dsimp only [next]
      rcases hpeek : s.queue.peek id tick.mono with _ | u
      · exact h.quiet h.same trivial
      obtain ⟨r, hr, htime, hfull⟩ := peek_ok hpeek
      refine h.quiet h.same ⟨(h.queue.pending id r hr).1, ?_⟩
      intro r' hr'
      cases hr.symm.trans hr'
      exact ⟨hfull, htime⟩
    | consumeTake id peekedAt =>
      dsimp only [next, take]
      cases hr : s.queue.pending[id]? with
      | none => exact h.quiet h.same trivial
      | some r =>
        simp only [toList_none, List.append_nil]
        exact h.goto ⟨h.queue.consume hr, (h.queue.remove id).2⟩ (List.Subset.refl _) trivial
    | listEvict => exact h.quiet (h.queue.evictExpired tick.wall) trivial

end

end Sound

omit [DecidableEq T] in
theorem sound_initial (timeoutSecs : Nat) :
    Sound operations required (initial (.new operations required timeoutSecs) : ApprovalThreads T)
      [] [] [] where
  queue :=
    { dualControl := rfl
      quorum := rfl
      roles := rfl
      pending := fun id r hr => by simp [initial, new] at hr
      gone := fun id hid => by cases hid
      once := List.nodup_nil }
  threads t := trivial

/-- **Every run keeps the account**, if no identifier is drawn twice. -/
theorem sound_run {timeoutSecs : Nat} {steps : List (ApprovalStep T)}
    (hfresh : (outcomes step drawnId (initial (.new operations required timeoutSecs))
      steps).Nodup) :
    Sound operations required (run step (initial (.new operations required timeoutSecs)) steps)
      (outcomes step castVote (initial (.new operations required timeoutSecs)) steps)
      (outcomes step drawnId (initial (.new operations required timeoutSecs)) steps)
      ((outcomes step consumption (initial (.new operations required timeoutSecs)) steps).map
        (·.request.id)) := by
  -- along the prefixes: the last identifier differs from all that were drawn before
  induction steps using List.reverseRecOn with
  | nil => exact sound_initial timeoutSecs
  | append_singleton steps e ih =>
    rw [outcomes_snoc] at hfresh
    obtain ⟨hbefore, -, hapart⟩ := List.nodup_append.mp hfresh
    have hstep := (ih hbefore).step e fun id hid hdrawn =>
      hapart id hdrawn id (mem_toList.mpr hid) rfl
    rw [run_snoc, outcomes_snoc, outcomes_snoc, outcomes_snoc, List.map_append]
    exact hstep

end Invariant

/-! ## Dual control -/

/-- What dual control demands of a consumed request, given the votes that were cast before. -/
structure DualControlled (operations : List HsmOperation) (required : UInt32)
    (votes : List CastVote) (c : Consumption) : Prop where
  operation : c.request.operation ∈ operations
  voters : ∃ voters : List CastVote, voters ⊆ votes ∧
    (voters.map (·.approver.userId)).Nodup ∧ max 2 required.toNat ≤ voters.length ∧
    ∀ v ∈ voters, Entitled c.request v
  inTime : c.moment < c.request.expiresAtMono

omit [DecidableEq T] in
/-- What a consuming step has found. -/
theorem consumption_eq_some {s : ApprovalThreads T} {e : ApprovalStep T} {c : Consumption}
    (h : consumption s e = some c) : ∃ t tick id peekedAt, e = .advance t tick ∧
      s.pc t = .consumeTake id peekedAt ∧ s.queue.pending[id]? = some c.request ∧
      c.moment = tick.mono := by
  cases e with
  | invoke t call => cases h
  | advance t tick =>
    dsimp only [consumption] at h
    split at h
    · next id peekedAt hpc =>
      unfold take at h
      cases hr : s.queue.pending[id]? with
      | none =>
        rw [hr] at h
        cases h
      | some r =>
        rw [hr] at h
        cases h
        exact ⟨t, tick, id, peekedAt, rfl, hpc, hr, rfl⟩
    · cases h

/-- **Dual control holds over every run** in which no thread is held up past a deadline between
the two steps of a consumption: every consumed request had the votes of enough other users of
its tenant in time, and no identifier is consumed twice. -/
theorem dual_control {operations : List HsmOperation} {required : UInt32} {timeoutSecs : Nat}
    {steps : List (ApprovalStep T)}
    (hfresh : (outcomes step drawnId (initial (.new operations required timeoutSecs)) steps).Nodup)
    (hprompt : Along step NotHeldUp (initial (.new operations required timeoutSecs)) steps) :
    (∀ before e after c, steps = before ++ e :: after →
      consumption (run step (initial (.new operations required timeoutSecs)) before) e = some c →
      DualControlled operations required
        (outcomes step castVote (initial (.new operations required timeoutSecs)) before) c) ∧
    ((outcomes step consumption (initial (.new operations required timeoutSecs)) steps).map
      (·.request.id)).Nodup := by
  refine ⟨?_, (sound_run hfresh).queue.once⟩
  rintro before e after c rfl hc
  rw [outcomes_append] at hfresh
  have hsound := sound_run (List.nodup_append.mp hfresh).1
  have hheld := (along_append.mp hprompt).2.1
  obtain ⟨t, tick, id, peekedAt, rfl, hpc, hr, hmoment⟩ := consumption_eq_some hc
  obtain ⟨-, haccounted⟩ := hsound.queue.pending id c.request hr
  have hplace := hsound.threads t
  rw [hpc] at hplace
  -- votes may have come in since the look, but the request is the one that was looked at
  obtain ⟨hfull, hpeeked⟩ := hplace.2 c.request hr
  obtain ⟨voters, hcast, hsame, hentitled⟩ := haccounted.voters
  refine ⟨haccounted.operation, ⟨voters, hcast, hsame ▸ haccounted.distinct, ?_, hentitled⟩, ?_⟩
  · have hlength : voters.length = c.request.approvals.length := by
      simpa using congrArg List.length hsame
    rw [haccounted.required, UInt32.toNat_max] at hfull
    rw [hlength, Nat.max_comm]
    exact hfull
  · simp only [NotHeldUp, hpc] at hheld
    have hbetween := hheld c.request hr
    rw [hmoment]
    omega

/-! ## Samples -/

section Sample

def member (name : String) : SessionIdentity := ⟨.user, some name, none⟩

/-- A thread makes a call without a break, at the given second. -/
def atOnce (call : ApprovalCall) (second : Nat) : List (ApprovalStep Bool) :=
  let tick : ApprovalTick := ⟨second, fromSecs second, "r1"⟩
  [.invoke true call, .advance true tick, .advance true tick]

def destroying : ApprovalThreads Bool := initial (.new [.destroyObject] 1 300)

/-- Alice asks to destroy an object, Bob and Carol approve. -/
def approvedByTwo : List (ApprovalStep Bool) :=
  atOnce (.request .destroyObject (some 42) (member "alice")) 0 ++
    atOnce (.approve "r1" (member "bob")) 10 ++ atOnce (.approve "r1" (member "carol")) 20

theorem dual_control_two_votes :
    (outcomes step consumption destroying (approvedByTwo ++ atOnce (.consume "r1") 30)).length = 1 ∧
    (∀ before e after c, approvedByTwo ++ atOnce (.consume "r1") 30 = before ++ e :: after →
      consumption (run step destroying before) e = some c →
      DualControlled [.destroyObject] 1 (outcomes step castVote destroying before) c) ∧
    ((outcomes step consumption destroying (approvedByTwo ++ atOnce (.consume "r1") 30)).map
      (·.request.id)).Nodup :=
  ⟨by decide, dual_control (by decide) (by decide)⟩

/-- One thread looks at the request a second before its deadline.  Another one looks at it a
second after and is told that it has expired. -/
def heldUp : List (ApprovalStep Bool) :=
  approvedByTwo ++
    [.invoke true (.consume "r1"), .advance true ⟨299, fromSecs 299, ""⟩,
      .invoke false (.consume "r1"), .advance false ⟨301, fromSecs 301, ""⟩]

/-- The moment of a step. -/
def moment : ApprovalStep Bool → Option Nat
  | .invoke _ _ => none
  | .advance _ tick => some tick.mono

/-- After both looks, the first thread goes on to consume the request. -/
theorem consumed_after_deadline : ∃ before e c,
    (outcomes step drawnId destroying (before ++ [e])).Nodup ∧
    ((before ++ [e]).filterMap moment).Pairwise (· ≤ ·) ∧
    consumption (run step destroying before) e = some c ∧
    c.request.expiresAtMono < c.moment :=
  ⟨heldUp, .advance true ⟨302, fromSecs 302, ""⟩,
    ⟨⟨"r1", .destroyObject, some 42, some "alice", none, 0, 300, fromSecs 300,
      [⟨some "bob", 10⟩, ⟨some "carol", 20⟩], 2⟩, fromSecs 302⟩,
    by decide, by decide, by decide, by decide⟩

end Sample

end ApprovalThreads

end CratonHsm.Auth
