import Biztrip.Service.Admin.Users

/-!
# Login

`app/routers/auth.py`: the login and the view of one's own account. A token is
the pair it encodes; only the application makes one.
-/

namespace Biztrip.Auth

open Biztrip.Lib

/-- The payload of a signed token. -/
structure AccessToken where
  sub : Int
  exp : Instant
  deriving DecidableEq

/-- `jwt_expire_hours`. -/
def jwtExpireHours : Int := 8

def createAccessToken (env : Env) (userId : Int) : AccessToken :=
  ⟨userId, env.now + jwtExpireHours * 3600 * 1000000⟩

def decodeAccessToken (env : Env) (token : AccessToken) : Result Int := do
  guardE (env.now < token.exp) <| .app <| authError "TOKEN_EXPIRED" "토큰이 만료되었습니다"
  return token.sub

structure UserOut where
  id : Int
  email : String
  name : String
  employeeNo : String
  positionCode : String
  role : UserRole
  departmentId : Int
  departmentName : String
  managerId : Option Int
  deriving DecidableEq

/-- The reply's schema declares the number and the position as plain texts. -/
def toUserOut (s : Store) (id : Int) (user : User) : Result UserOut := do
  let employeeNo ← getE user.employeeNo (.responseInvalid "employee_no")
  let positionCode ← getE user.positionCode (.responseInvalid "position_code")
  return {
    id, email := user.email, name := user.name, employeeNo, positionCode, role := user.role
    departmentId := user.departmentId
    departmentName := ((s.departments.get user.departmentId).map Department.name).getD ""
    managerId := user.managerId }

structure LoginResponse where
  accessToken : AccessToken
  user : UserOut
  deriving DecidableEq

def invalidCredentials : AppError :=
  authError "INVALID_CREDENTIALS" "이메일 또는 비밀번호가 올바르지 않습니다"

/-- The status of an account is told only to who knows its password. -/
def assertMayLogin (user : User) : Result Unit := do
  guardE (user.status ≠ .pending) <| .app <| authError "PENDING_APPROVAL" "관리자 승인 대기 중입니다"
  guardE (user.status ≠ .rejected) <| .app <|
    authError "SIGNUP_REJECTED" "가입이 거절되었습니다. 관리자에게 문의하십시오"
  guardE (user.isActive = true) <| .app invalidCredentials

/-- Of an unknown address a dummy hash is checked and the outcome dropped, which only takes time. -/
def login (sec : Security) (s : Store) (env : Env) (payload : LoginRequest) :
    Result LoginResponse := do
  let found ← getE (s.users.rows.find? fun p => p.2.email = payload.email.val)
    (.app invalidCredentials)
  guardE (sec.verifyPassword payload.password found.2.passwordHash = true) (.app invalidCredentials)
  assertMayLogin found.2
  return {
    accessToken := createAccessToken env found.1
    user := ← toUserOut s found.1 found.2 }

def me (s : Store) (user : CurrentUser) : Result UserOut := toUserOut s user.id user.toUser

end Biztrip.Auth
