import Biztrip.Rules.Account
import Biztrip.Service.Admin.Common
import Biztrip.Service.Codes

/-!
# User master

The mutating calls of `app/services/admin/users.py`. Password hashing is
bcrypt's and stays a parameter (`Security`).
-/

namespace Biztrip

/-- The functions of the cryptographic libraries the application calls. -/
structure Security where
  /-- `bcrypt.hashpw` of a text under a salt. -/
  hashPassword : (salt plain : String) → String
  /-- `bcrypt.checkpw`, false where it raises `ValueError`. -/
  verifyPassword : (plain hashed : String) → Bool
  /-- The hexadecimal SHA-256 digest. -/
  hashKey : String → String

end Biztrip

namespace Biztrip.Admin.Users

open Biztrip.Lib Codes

def load (s : Store) (userId : Int) : Result User :=
  loadOr s.users userId <|
    notFoundError "USER_NOT_FOUND" s!"존재하지 않는 사용자입니다: {userId}"

def assertManager (s : Store) (managerId : Option Int) (selfId : Option Int) : Result Unit :=
  checkSome managerId fun managerId => do
    guardE (selfId ≠ some managerId) <| .app <|
      validationError "INVALID_MANAGER" "자기 자신을 결재자로 지정할 수 없습니다" (some "manager_id")
    let manager ← sessionGet s.users managerId
    guardE manager.isSome <| .app <|
      validationError "INVALID_MANAGER" s!"존재하지 않는 결재자입니다: {managerId}"
        (some "manager_id")

/-- A position is a code of the group `POSITION`. -/
def assertPosition (s : Store) (positionCode : String) : Result Unit :=
  validateCodes s [⟨"POSITION", "position_code", some positionCode⟩]

def assertEmployeeNoUnique (s : Store) (employeeNo : String) : Result Unit :=
  assertUnique s.users User.employeeNo (some employeeNo) "employee_no" employeeNo <|
    conflictError "DUPLICATE_EMPLOYEE_NO" s!"이미 사용 중인 사번입니다: {employeeNo}"
      (some "employee_no")

def duplicateEmail (email : String) : AppError :=
  conflictError "DUPLICATE_EMAIL" s!"이미 사용 중인 이메일입니다: {email}" (some "email")

/-- A created user is `ACTIVE` by the column's default. -/
def createUser (sec : Security) (s : Store) (env : Env) (payload : AdminUserCreate) :
    Result Plan := do
  assertPasswordLength payload.password.val
  assertUnique s.users User.email payload.email.val "email" payload.email.val
    (duplicateEmail payload.email.val)
  assertEmployeeNoUnique s payload.employeeNo.val
  assertDepartment s payload.departmentId
  assertManager s payload.managerId none
  assertPosition s payload.positionCode.val
  text "name" payload.name.val
  let user : User :=
    { email := payload.email.val, passwordHash := sec.hashPassword env.salt payload.password.val
      name := payload.name.val, employeeNo := some payload.employeeNo.val
      departmentId := payload.departmentId, positionCode := some payload.positionCode.val
      managerId := payload.managerId, role := payload.role, status := .active
      isActive := payload.isActive }
  return { now := env.txnNow, writes := [.user (.insert user)] }

/-- Nobody takes the administration away from themselves. -/
def assertNotDemotingSelf (actorId userId : Int) (payload : AdminUserUpdate) : Result Unit :=
  whenE (userId = actorId) do
    checkSome payload.role.val? fun role =>
      guardE (role = .admin) <| .app <|
        conflictError "CANNOT_DEMOTE_SELF" "자기 자신의 관리자 권한을 내릴 수 없습니다" (some "role")
    guardE (payload.isActive ≠ .value false) <| .app <|
      conflictError "CANNOT_DEMOTE_SELF" "자기 자신을 비활성화할 수 없습니다" (some "is_active")

/-- The checks of the sent fields. -/
def validateChanges (s : Store) (userId : Int) (payload : AdminUserUpdate) : Result Unit := do
  checkSome payload.departmentId.val? (assertDepartment s)
  assertManager s payload.managerId.val? (some userId)
  checkSome payload.positionCode.val? fun v => assertPosition s v.val

/-- Write the sent fields over the row, as the flush finds them. -/
def assign (user : User) (payload : AdminUserUpdate) : Result User := do
  checkSome payload.name.val? fun v => text "name" v.val
  let name ← (payload.name.map Str.val).setRequired user.name (notNull "name")
  let departmentId ← payload.departmentId.setRequired user.departmentId (notNull "department_id")
  let role ← payload.role.setRequired user.role (notNull "role")
  let isActive ← payload.isActive.setRequired user.isActive (notNull "is_active")
  return { user with
    name, departmentId, role, isActive
    positionCode := (payload.positionCode.map Str.val).setNullable user.positionCode
    managerId := payload.managerId.setNullable user.managerId }

def updateUser (s : Store) (env : Env) (actorId userId : Int) (payload : AdminUserUpdate) :
    Result Plan := do
  let user ← load s userId
  assertNotDemotingSelf actorId userId payload
  validateChanges s userId payload
  let user' ← assign user payload
  return { now := env.txnNow, writes := [.user (.update userId user user')] }

def setPassword (sec : Security) (s : Store) (env : Env) (userId : Int) (payload : PasswordSet) :
    Result Plan := do
  let user ← load s userId
  assertPasswordLength payload.password.val
  let user' := { user with passwordHash := sec.hashPassword env.salt payload.password.val }
  return { now := env.txnNow, writes := [.user (.update userId user user')] }

/-- The administrator places the account and opens it. -/
def approveUser (s : Store) (env : Env) (userId : Int) (payload : UserApprove) : Result Plan := do
  let user ← load s userId
  assertSignupTransitionAllowed user.status .active .admin
  assertEmployeeNoUnique s payload.employeeNo.val
  assertManager s payload.managerId (some userId)
  assertPosition s payload.positionCode.val
  let user' := { user with
    employeeNo := some payload.employeeNo.val, positionCode := some payload.positionCode.val
    managerId := payload.managerId, role := payload.role, status := .active, isActive := true }
  return { now := env.txnNow, writes := [.user (.update userId user user')] }

def rejectUser (s : Store) (env : Env) (userId : Int) : Result Plan := do
  let user ← load s userId
  assertSignupTransitionAllowed user.status .rejected .admin
  let user' := { user with status := .rejected, isActive := false }
  return { now := env.txnNow, writes := [.user (.update userId user user')] }

end Biztrip.Admin.Users
