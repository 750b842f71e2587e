import Biztrip.Service.Admin.Users

/-!
# Signup

`app/services/signup.py`: an application makes a `PENDING` row, and a rejected
one may apply again under the same address.
-/

namespace Biztrip.Signup

open Biztrip.Lib Admin Admin.Users

/-- A pending application is never overwritten: whoever knows the address could take it over. -/
def resubmit (sec : Security) (env : Env) (existingId : Int) (existing : User)
    (payload : SignupRequest) : Result Plan := do
  guardE (existing.status ≠ .pending) <| .app <|
    conflictError "ALREADY_PENDING" "이미 승인 대기 중인 이메일입니다" (some "email")
  guardE (existing.status ≠ .active) <| .app (duplicateEmail payload.email.val)
  assertSignupTransitionAllowed existing.status .pending .applicant
  text "name" payload.name.val
  let user' := { existing with
    name := payload.name.val, departmentId := payload.departmentId
    passwordHash := sec.hashPassword env.salt payload.password.val, status := .pending
    isActive := false }
  return { now := env.txnNow, writes := [.user (.update existingId existing user')] }

def signup (sec : Security) (s : Store) (env : Env) (payload : SignupRequest) : Result Plan := do
  assertPasswordLength payload.password.val
  assertDepartment s payload.departmentId
  match s.users.rows.find? fun p => p.2.email = payload.email.val with
  | some p => resubmit sec env p.1 p.2 payload
  | none => do
    text "name" payload.name.val
    let user : User :=
      { email := payload.email.val, passwordHash := sec.hashPassword env.salt payload.password.val
        name := payload.name.val, employeeNo := none, departmentId := payload.departmentId
        positionCode := none, managerId := none, role := .employee, status := .pending
        isActive := false }
    return {
      now := env.txnNow, writes := [.user (.insert user)]
      onIntegrity := some (duplicateEmail payload.email.val) }

end Biztrip.Signup
