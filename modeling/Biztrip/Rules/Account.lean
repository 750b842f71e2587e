import Biztrip.Model.Rows

/-!
# Rules of the account domain

`app/services/user_status.py` and the password rule of
`app/services/admin/common.py`.
-/

namespace Biztrip

open Biztrip.Lib

inductive SignupActor where
  | admin
  /-- Not logged in, applying again. -/
  | applicant
  deriving DecidableEq, Repr

/-- `SIGNUP_ALLOWED_TRANSITIONS`. -/
def signupAllowedTransitions : UserStatus → List UserStatus
  | .pending => [.active, .rejected]
  | .rejected => [.pending]
  | .active => []

/-- `SIGNUP_TRANSITION_ACTOR`. -/
def signupTransitionActor : UserStatus → UserStatus → Option SignupActor
  | .pending, .active => some .admin
  | .pending, .rejected => some .admin
  | .rejected, .pending => some .applicant
  | _, _ => none

/-- The two tables have the same keys, as the module checks when it is imported. -/
theorem mem_signupAllowedTransitions_iff {current target : UserStatus} :
    target ∈ signupAllowedTransitions current ↔ (signupTransitionActor current target).isSome := by
  cases current <;> cases target <;> decide

/-- Legality and actor in one check. -/
def assertSignupTransitionAllowed (current target : UserStatus) (actor : SignupActor) :
    Result Unit := do
  guardE (target ∈ signupAllowedTransitions current) <| .app <|
    conflictError "USER_INVALID_TRANSITION"
      s!"{current.value} 상태에서 {target.value} 로 변경할 수 없습니다" none
  match signupTransitionActor current target with
  | some expected =>
    guardE (actor = expected) <| .app <|
      forbiddenError "WRONG_TRANSITION_ACTOR" "이 전이를 수행할 수 있는 주체가 아닙니다"
  | none => .error .keyError

theorem assertSignupTransitionAllowed_eq_ok {current target : UserStatus} {actor : SignupActor}
    {u : Unit} : assertSignupTransitionAllowed current target actor = .ok u ↔
      signupTransitionActor current target = some actor := by
  unfold assertSignupTransitionAllowed
  simp only [bind_eq_ok, guardE_eq_ok, mem_signupAllowedTransitions_iff]
  rcases h : signupTransitionActor current target with _ | expected
  · simp
  · simp only [Option.isSome_some, true_and, exists_const, guardE_eq_ok, Option.some.injEq]
    exact eq_comm

def maxPasswordBytes : Nat := 72

def minPasswordLength : Nat := 8

def assertPasswordLength (password : String) : Result Unit := do
  guardE (minPasswordLength ≤ password.length) <| .app <|
    validationError "PASSWORD_TOO_SHORT" "비밀번호는 8자 이상이어야 합니다" (some "password")
  guardE (password.utf8ByteSize ≤ maxPasswordBytes) <| .app <|
    validationError "PASSWORD_TOO_LONG"
      "비밀번호는 UTF-8 기준 72바이트를 넘을 수 없습니다 (한글 24자)" (some "password")

end Biztrip
