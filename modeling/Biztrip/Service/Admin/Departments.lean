import Biztrip.Service.Admin.Common

/-!
# Department master

`app/services/admin/departments.py`. Only a department that is its own parent
is refused; longer cycles are not looked for.
-/

namespace Biztrip.Admin.Departments

open Biztrip.Lib

def load (s : Store) (departmentId : Int) : Result Department :=
  loadOr s.departments departmentId <|
    notFoundError "DEPARTMENT_NOT_FOUND" s!"존재하지 않는 부서입니다: {departmentId}"

def assertParent (s : Store) (parentId : Option Int) (selfId : Option Int) : Result Unit :=
  checkSome parentId fun parentId => do
    guardE (selfId ≠ some parentId) <| .app <|
      validationError "INVALID_PARENT" "자기 자신을 상위 부서로 지정할 수 없습니다" (some "parent_id")
    let parent ← sessionGet s.departments parentId
    guardE parent.isSome <| .app <|
      validationError "INVALID_PARENT" s!"존재하지 않는 상위 부서입니다: {parentId}"
        (some "parent_id")

def createDepartment (s : Store) (env : Env) (payload : DepartmentCreate) : Result Plan := do
  assertUnique s.departments Department.code payload.code.val "code" payload.code.val <|
    conflictError "DUPLICATE_DEPARTMENT_CODE" s!"이미 있는 부서 코드입니다: {payload.code.val}"
      (some "code")
  assertParent s payload.parentId none
  text "name" payload.name.val
  let department : Department :=
    { code := payload.code.val, name := payload.name.val, parentId := payload.parentId }
  return { now := env.txnNow, writes := [.department (.insert department)] }

/-- Write the sent fields over the row, as the flush finds them. -/
def assign (department : Department) (payload : DepartmentUpdate) : Result Department := do
  checkSome payload.name.val? fun v => text "name" v.val
  let name ← (payload.name.map Str.val).setRequired department.name (notNull "name")
  return { department with name, parentId := payload.parentId.setNullable department.parentId }

def updateDepartment (s : Store) (env : Env) (departmentId : Int) (payload : DepartmentUpdate) :
    Result Plan := do
  let department ← load s departmentId
  assertParent s payload.parentId.val? (some departmentId)
  let department' ← assign department payload
  return {
    now := env.txnNow, writes := [.department (.update departmentId department department')] }

/-- Users refer to their department without a foreign key, so they are counted here. -/
def deleteDepartment (s : Store) (env : Env) (departmentId : Int) : Result Plan := do
  let _department ← load s departmentId
  guardE (Store.referenced s.users User.departmentId departmentId = false) <| .app <|
    conflictError "HAS_DEPENDENTS" "이 부서에 속한 사용자가 있어 삭제할 수 없습니다" none
  return deleteEntity env (.department (.delete departmentId))
    "이 부서를 참조하는 센터·하위 부서가 있어 삭제할 수 없습니다"

end Biztrip.Admin.Departments
