import Mathlib.Tactic.Common

/-!
# Errors of the authentication layer

The variants of `craton_hsm::error::HsmError` that the authentication crate returns, and the
helpers of `error.rs` that map its own notions onto them.
-/

namespace CratonHsm.Auth

/-- The variants of `HsmError` in use. -/
inductive HsmError where
  | pinLocked
  | pinIncorrect
  | generalError
  | functionNotSupported
  | userNotLoggedIn
  | keyFunctionNotPermitted
  | argumentsBad
  | signatureInvalid
  | hostMemory
  | configError (message : String)
  deriving DecidableEq, Repr

namespace HsmError

/-- `mfa_challenge_invalid`. -/
def mfaChallengeInvalid : HsmError := pinIncorrect

/-- `operation_denied`. -/
def operationDenied : HsmError := keyFunctionNotPermitted

/-- `dual_control_not_found`. -/
def dualControlNotFound : HsmError := argumentsBad

/-- `dual_control_expired`. -/
def dualControlExpired : HsmError := argumentsBad

/-- `dual_control_required`. -/
def dualControlRequired : HsmError := keyFunctionNotPermitted

/-- `tenant_quota_exceeded`. -/
def tenantQuotaExceeded : HsmError := hostMemory

/-- `connection_pool_exhausted`. -/
def connectionPoolExhausted : HsmError := generalError

end HsmError

instance decidableEqResult {A : Type} [DecidableEq A] : DecidableEq (Except HsmError A)
  | .ok a, .ok b => decidable_of_iff (a = b) (by simp)
  | .error e, .error f => decidable_of_iff (e = f) (by simp)
  | .ok _, .error _ => isFalse (by simp)
  | .error _, .ok _ => isFalse (by simp)

/-- Seconds as the nanoseconds in which `Instant` counts. -/
def fromSecs (secs : Nat) : Nat := secs * 1000000000

/-- `Duration::as_secs`. -/
def asSecs (nanos : Nat) : Nat := nanos / 1000000000

theorem asSecs_lt {d n : Nat} : asSecs d < n ↔ d < fromSecs n := by
  unfold asSecs fromSecs
  omega

end CratonHsm.Auth
