import CratonHsm.AuthTypes
import CratonHsm.OrderedMaps

/-!
# The dual-control approval queue

`rbac/approval.rs`: sensitive operations wait in a queue until enough other users of the
requester's tenant have voted for them.  Each function is given its readings of the wall clock
and of the monotonic clock, and `request_approval` the identifier that it draws.
-/

namespace CratonHsm.Auth
open Std OrderedMaps

/-- `rbac/role.rs`. -/
inductive HsmOperation where
  | sign
  | verify
  | encrypt
  | decrypt
  | digest
  | generateKey
  | generateKeyPair
  | destroyObject
  | wrapKey
  | unwrapKey
  | deriveKey
  | importKey
  | exportKey
  | createObject
  | copyObject
  | setAttribute
  | initToken
  | initPin
  | setPin
  | readAuditLog
  | generateRandom
  deriving DecidableEq, Repr

/-- The part of `SessionIdentity` that the queue reads. -/
structure SessionIdentity where
  role : HsmRole
  userId : Option String
  tenantId : Option String
  deriving DecidableEq

/-- No user identifier, or only whitespace. -/
def idMissing (userId : Option String) : Bool :=
  (userId.map fun s => decide (trimmed s = [])).getD true

/-- One approver and when the vote was cast. -/
structure ApprovalVote where
  approverUserId : Option String
  timestamp : Nat
  deriving DecidableEq

/-- A pending operation with the votes for it. -/
structure ApprovalRequest where
  id : String
  operation : HsmOperation
  objectHandle : Option UInt64
  requesterUserId : Option String
  requesterTenantId : Option String
  createdAt : Nat
  expiresAt : Nat
  expiresAtMono : Nat
  approvals : List ApprovalVote
  requiredApprovals : UInt32
  deriving DecidableEq

namespace ApprovalRequest

/-- `is_fully_approved`; the number of votes is cut to 32 bits. -/
def isFullyApproved (r : ApprovalRequest) : Bool :=
  decide (r.requiredApprovals.toNat ≤ r.approvals.length % 2 ^ 32)

/-- `is_expired`. -/
def isExpired (r : ApprovalRequest) (now : Nat) : Bool := decide (r.expiresAtMono ≤ now)

end ApprovalRequest

/-- The pending requests, the operations under dual control and how many votes they need. -/
structure ApprovalQueue where
  pending : ExtTreeMap String ApprovalRequest := ∅
  dualControlOperations : List HsmOperation
  requiredApprovals : UInt32
  timeoutSecs : Nat
  allowedApproverRoles : List HsmRole

namespace ApprovalQueue

/-- The roles that may approve if nothing else is configured. -/
def defaultApproverRoles : List HsmRole := [.user, .so, .keyManager]

/-- `ApprovalQueue::new`. -/
def new (dualControlOperations : List HsmOperation) (requiredApprovals : UInt32)
    (timeoutSecs : Nat) : ApprovalQueue where
  dualControlOperations := dualControlOperations
  requiredApprovals := max requiredApprovals 2
  timeoutSecs := timeoutSecs
  allowedApproverRoles := defaultApproverRoles

/-- `evict_expired`, by the wall clock. -/
def evictExpired (q : ApprovalQueue) (now : Nat) : ApprovalQueue :=
  { q with pending := q.pending.filter fun _ r => decide (now < r.expiresAt) }

/-! ## Requests -/

/-- The checks of `request_approval`. -/
def checkRequest (q : ApprovalQueue) (operation : HsmOperation) (requester : SessionIdentity) :
    Except HsmError Unit :=
  if operation ∉ q.dualControlOperations then .error .operationDenied
  else if idMissing requester.userId then .error .operationDenied
  else .ok ()

/-- The request that `request_approval` makes. -/
def newRequest (q : ApprovalQueue) (operation : HsmOperation) (objectHandle : Option UInt64)
    (requester : SessionIdentity) (id : String) (wall mono : Nat) : ApprovalRequest where
  id := id
  operation := operation
  objectHandle := objectHandle
  requesterUserId := requester.userId
  requesterTenantId := requester.tenantId
  createdAt := wall
  expiresAt := wall + q.timeoutSecs
  expiresAtMono := mono + fromSecs q.timeoutSecs
  approvals := []
  requiredApprovals := q.requiredApprovals

/-- A new request under its id. -/
def insertRequest (q : ApprovalQueue) (r : ApprovalRequest) : ApprovalQueue :=
  { q with pending := q.pending.insert r.id r }

/-! ## Votes -/

/-- The checks of `approve` on a request that has not expired. -/
def checkVote (q : ApprovalQueue) (r : ApprovalRequest) (approver : SessionIdentity) :
    Except HsmError Unit :=
  if approver.role ∉ q.allowedApproverRoles then .error .operationDenied
  else if idMissing r.requesterUserId || idMissing approver.userId then .error .operationDenied
  else if r.requesterUserId = approver.userId then .error .operationDenied
  else if r.requesterTenantId ≠ approver.tenantId then .error .operationDenied
  else if approver.userId.isSome && r.approvals.any (·.approverUserId = approver.userId) then
    .error .operationDenied
  else .ok ()

/-- The request with one more vote. -/
def withVote (r : ApprovalRequest) (approver : SessionIdentity) (wall : Nat) : ApprovalRequest :=
  { r with approvals := r.approvals ++ [⟨approver.userId, wall⟩] }

/-- The part of `approve` that holds the entry: the vote is counted or refused, or the request
turns out to have expired. -/
def voteOn (q : ApprovalQueue) (id : String) (approver : SessionIdentity) (wall mono : Nat) :
    Except HsmError ApprovalRequest :=
  match q.pending[id]? with
  | none => .error .dualControlNotFound
  | some r =>
    if r.isExpired mono then .error .dualControlExpired
    else match q.checkVote r approver with
      | .error e => .error e
      | .ok () => .ok (withVote r approver wall)

/-- The entry has expired. -/
def entryExpired (q : ApprovalQueue) (id : String) (mono : Nat) : Bool :=
  q.pending[id]?.any (·.isExpired mono)

/-- The queue without a request. -/
def remove (q : ApprovalQueue) (id : String) : ApprovalQueue :=
  { q with pending := q.pending.erase id }

/-- `approve`. -/
def approve (q : ApprovalQueue) (id : String) (approver : SessionIdentity) (wall mono : Nat) :
    Except HsmError Bool × ApprovalQueue :=
  match q.voteOn id approver wall mono with
  | .error e => (.error e, if q.entryExpired id mono then q.remove id else q)
  | .ok r => (.ok r.isFullyApproved, { q with pending := q.pending.insert id r })

section Checked
variable {q : ApprovalQueue} {r : ApprovalRequest} {approver : SessionIdentity}

theorem checkVote_ok (h : q.checkVote r approver = .ok ()) :
    approver.role ∈ q.allowedApproverRoles ∧ idMissing approver.userId = false ∧
      approver.userId ≠ r.requesterUserId ∧ approver.tenantId = r.requesterTenantId ∧
      approver.userId ∉ r.approvals.map (·.approverUserId) := by
  simp only [checkVote, ite_eq_iff, reduceCtorEq, and_false, false_or] at h
  obtain ⟨hrole, hmissing, hself, htenant, hvoted, -⟩ := h
  have hpresent := (Bool.or_eq_false_iff.mp (Bool.not_eq_true _ ▸ hmissing)).2
  refine ⟨not_not.mp hrole, hpresent, Ne.symm hself, (not_not.mp htenant).symm, ?_⟩
  intro hmem
  obtain ⟨v, hv, hsame⟩ := List.mem_map.mp hmem
  -- an approver without an identifier was refused above, so the last check did look
  have hsome : approver.userId.isSome = true := by
    cases hid : approver.userId with
    | none => simp [hid, idMissing] at hpresent
    | some s => rfl
  refine hvoted ?_
  rw [hsome, Bool.true_and]
  exact List.any_eq_true.mpr ⟨v, hv, decide_eq_true hsame⟩

/-- An accepted vote passed its checks, before the deadline. -/
theorem voteOn_ok {id : String} {wall mono : Nat} {voted : ApprovalRequest}
    (h : q.voteOn id approver wall mono = .ok voted) :
    ∃ r, q.pending[id]? = some r ∧ voted = withVote r approver wall ∧ mono < r.expiresAtMono ∧
      q.checkVote r approver = .ok () := by
  unfold voteOn at h
  rcases hr : q.pending[id]? with _ | r
  · rw [hr] at h
    cases h
  simp only [hr] at h
  by_cases hexpired : r.isExpired mono = true
  · rw [if_pos hexpired] at h
    cases h
  rw [if_neg hexpired] at h
  cases hcheck : q.checkVote r approver with
  | error e =>
    rw [hcheck] at h
    cases h
  | ok u =>
    rw [hcheck] at h
    refine ⟨r, rfl, (Except.ok.inj h).symm, ?_, hcheck⟩
    exact Nat.not_le.mp fun hle => hexpired (decide_eq_true hle)

end Checked

/-! ## Consumption -/

/-- The look of `consume_approved` at the request before it removes it. -/
def peek (q : ApprovalQueue) (id : String) (mono : Nat) : Except HsmError Unit :=
  match q.pending[id]? with
  | none => .error .dualControlNotFound
  | some r =>
    if r.isExpired mono then .error .dualControlExpired
    else if r.isFullyApproved = false then .error .dualControlRequired
    else .ok ()

/-- The removal in `consume_approved`. -/
def take (q : ApprovalQueue) (id : String) : Except HsmError ApprovalRequest × ApprovalQueue :=
  match q.pending[id]? with
  | none => (.error .dualControlNotFound, q)
  | some r => (.ok r, q.remove id)

theorem peek_ok {q : ApprovalQueue} {id : String} {mono : Nat} (h : q.peek id mono = .ok ()) :
    ∃ r, q.pending[id]? = some r ∧ mono < r.expiresAtMono ∧
      r.requiredApprovals.toNat ≤ r.approvals.length := by
  unfold peek at h
  rcases hr : q.pending[id]? with _ | r
  · rw [hr] at h
    cases h
  simp only [hr] at h
  by_cases hexpired : r.isExpired mono = true
  · simp [hexpired] at h
  by_cases hfull : r.isFullyApproved = false
  · simp [hexpired, hfull] at h
  refine ⟨r, rfl, ?_, ?_⟩
  · exact Nat.not_le.mp fun hle => hexpired (decide_eq_true hle)
  · exact Nat.le_trans (of_decide_eq_true (Bool.not_eq_false _ ▸ hfull)) (Nat.mod_le _ _)

end ApprovalQueue

end CratonHsm.Auth
