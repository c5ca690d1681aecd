import CratonHsm.AuthError
import CratonHsm.KmipStore

/-!
# Roles, tenants and credentials

The vocabulary of the authentication providers: the roles and the one parser of their names
(`auth/mod.rs`), tenant identifiers, which exist only in valid form (`tenant/tenant.rs`), and
what a login is given and returns (`auth/provider.rs`).
-/

namespace CratonHsm.Auth
open PrefixFreeCode

/-- The role that a session gets. -/
inductive HsmRole where
  | user
  | so
  | auditor
  | keyManager
  | operator
  deriving DecidableEq, Repr

/-- `parse_role`. -/
def parseRole (roleStr : String) : Option HsmRole :=
  match asciiLowercase (String.ofList (trimmed roleStr)) with
  | "user" => some .user
  | "so" | "security_officer" | "securityofficer" => some .so
  | "auditor" => some .auditor
  | "keymanager" | "key_manager" => some .keyManager
  | "operator" => some .operator
  | _ => none

/-! ## Tenants -/

def MAX_TENANT_ID_LEN : Nat := 64

/-- The refusals of `TenantId::validate_str`, each standing for its text. -/
inductive TenantIdError where
  | empty
  | tooLong (len : Nat)
  | badStart
  | badCharacter (c : Char)
  | consecutiveDots
  deriving DecidableEq

/-- The characters of a tenant id. -/
def isTenantChar (c : Char) : Bool := c.isAlphanum || c == '-' || c == '_' || c == '.'

/-- `TenantId::validate_str`. -/
def validateTenantId (s : String) : Except TenantIdError Unit :=
  let chars := s.toList
  if chars = [] then .error .empty
  else if MAX_TENANT_ID_LEN < s.utf8ByteSize then .error (.tooLong s.utf8ByteSize)
  else if chars.head?.any Char.isAlphanum = false then .error .badStart
  else match chars.find? fun c => !isTenantChar c with
    | some bad => .error (.badCharacter bad)
    | none => if ['.', '.'] <:+: chars then .error .consecutiveDots else .ok ()

/-- `TenantId`: a text that passed the validation. -/
structure TenantId where
  val : String
  valid : validateTenantId val = .ok ()

instance : DecidableEq TenantId := fun a b =>
  decidable_of_iff (a.val = b.val) ⟨fun h => by cases a; cases b; cases h; rfl, fun h => by rw [h]⟩

/-- `TenantId::try_new`. -/
def TenantId.tryNew (id : String) : Except TenantIdError TenantId :=
  match h : validateTenantId id with
  | .ok () => .ok ⟨id, h⟩
  | .error e => .error e

/-! ## Credentials and results -/

/-- What a caller presents. -/
inductive AuthCredentials where
  | pin (userType : UInt64) (pin : Bytes)
  | token (bearerToken : String)
  | certificate (certChain : List Bytes)
  | ldapBind (username password : String)

/-- Whom a provider has authenticated. -/
structure AuthResult where
  role : HsmRole
  userId : String
  tenantId : Option TenantId
  mfaRequired : Bool
  deriving DecidableEq

end CratonHsm.Auth
