import Biztrip.Http.Scopes
import Biztrip.Service.ApiKeys
import Biztrip.Service.Auth
import Biztrip.System

/-!
# Authentication

`app/deps.py`: who a request comes from and what it may call. A JWT is unforgeable, so
a token is either one that the application has signed, by its payload, or a foreign
text. `authenticate` and `enforceScope` are the two halves of `get_principal`: the
first also notes the use of a key, which stays whatever becomes of the request.
-/

namespace Biztrip.Http

open Biztrip.Lib

/-! ## Headers -/

inductive Token where
  | signed (payload : Auth.AccessToken)
  | foreign
  deriving DecidableEq

/-- The `Authorization` header: a bearer token, after `strip`, or anything else. -/
inductive Authorization where
  | bearer (token : Token)
  | other
  deriving DecidableEq

structure Headers where
  xApiKey : Option String := none
  authorization : Option Authorization := none
  deriving DecidableEq

/-! ## The principal -/

/-- A JWT is not bound to scopes. -/
inductive Scopes where
  | unrestricted
  | only (scopes : List String)
  deriving DecidableEq

inductive AuthMethod where
  | jwt
  | apiKey
  deriving DecidableEq, Repr

/-- The user and what `get_principal` notes in the state of the request. -/
structure Principal where
  user : CurrentUser
  scopes : Scopes
  authMethod : AuthMethod

def invalidToken : AppError := authError "INVALID_TOKEN" "유효하지 않은 토큰입니다"

/-- `decode_access_token`, which also refuses what is not signed. -/
def decodeToken (env : Env) : Token → Result Int
  | .signed payload => Auth.decodeAccessToken env payload
  | .foreign => raise invalidToken

def authenticateJwt (s : Store) (env : Env) (headers : Headers) : Result CurrentUser :=
  match headers.authorization with
  | some (.bearer token) => do
    let userId ← decodeToken env token
    let user ← getE ((s.users.get userId).filter fun u => u.isActive) (.app invalidToken)
    return { user with id := userId }
  | _ => raise <| authError "MISSING_CREDENTIALS" "인증 정보가 없습니다"

/-- The key counts if both headers are sent; an empty one does not. -/
def authenticate (sec : Security) (s : Store) (env : Env) (headers : Headers) :
    Result (Principal × Store) :=
  match headers.xApiKey.filter (· ≠ "") with
  | some raw => do
    let (user, scopes, plan) ← ApiKeys.authenticateKey sec s env (strip raw)
    return (⟨user, .only scopes, .apiKey⟩, ← plan.commit s)
  | none => do
    let user ← authenticateJwt s env headers
    return (⟨user, .unrestricted, .jwt⟩, s)

/-- `_enforce_scope`. -/
def enforceScope (method path : String) (scopes : Scopes) : Result Unit := do
  let required ← requiredScopeFor method path
  match scopes, required with
  | .unrestricted, _ => return ()
  | .only _, none => return ()
  | .only scopes, some required =>
    guardE (required.value ∈ scopes) <| .app <|
      forbiddenError "SCOPE_REQUIRED" s!"이 요청에는 {required.value} 스코프가 필요합니다"

def requireRole (roles : List UserRole) (principal : Principal) : Result Unit :=
  guardE (principal.user.role ∈ roles) <| .app <| forbiddenError "FORBIDDEN_ROLE" "권한이 없습니다"

/-- The check of `get_jwt_principal` and `require_jwt_admin`. -/
def requireJwt (principal : Principal) : Result Unit :=
  guardE (principal.authMethod = .jwt) <| .app <|
    forbiddenError "API_KEY_FORBIDDEN" "이 작업은 로그인 세션에서만 가능합니다"

/-- What routes depend on: `CurrentUser`, `JwtOnlyUser`, `AdminUser` or `JwtOnlyAdmin`. -/
inductive Access where
  | currentUser
  | jwtOnlyUser
  | adminUser
  | jwtOnlyAdmin
  deriving DecidableEq, Repr

def Access.check (principal : Principal) : Access → Result Unit
  | .currentUser => .ok ()
  | .jwtOnlyUser => requireJwt principal
  | .adminUser => requireRole [.admin] principal
  | .jwtOnlyAdmin => do
    requireRole [.admin] principal
    requireJwt principal

end Biztrip.Http
