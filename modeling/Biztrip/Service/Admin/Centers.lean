import Biztrip.Service.Admin.Common

/-!
# Center master

`app/services/admin/centers.py`, for fund centers and cost centers alike. Trips,
reports and items name a center by its code without a foreign key; the deletion
looks through the columns listed here.
-/

namespace Biztrip.Admin.CenterMaster

open Biztrip.Lib

def load (s : Store) (kind : CenterKind) (centerId : Int) : Result Center :=
  loadOr (s.centers kind) centerId <|
    notFoundError "CENTER_NOT_FOUND" s!"존재하지 않는 센터입니다: {centerId}"

def createCenter (s : Store) (env : Env) (kind : CenterKind) (payload : CenterCreate) :
    Result Plan := do
  assertUnique (s.centers kind) Center.code payload.code.val "code" payload.code.val <|
    conflictError "DUPLICATE_CENTER_CODE" s!"이미 있는 센터 코드입니다: {payload.code.val}"
      (some "code")
  checkSome payload.departmentId (assertDepartment s)
  text "name" payload.name.val
  let center : Center :=
    { code := payload.code.val, name := payload.name.val, departmentId := payload.departmentId
      isActive := payload.isActive }
  return { now := env.txnNow, writes := [.center kind (.insert center)] }

/-- Write the sent fields over the row, as the flush finds them. -/
def assign (center : Center) (payload : CenterUpdate) : Result Center := do
  checkSome payload.name.val? fun v => text "name" v.val
  let name ← (payload.name.map Str.val).setRequired center.name (notNull "name")
  let isActive ← payload.isActive.setRequired center.isActive (notNull "is_active")
  return { center with
    name, isActive, departmentId := payload.departmentId.setNullable center.departmentId }

def updateCenter (s : Store) (env : Env) (kind : CenterKind) (centerId : Int)
    (payload : CenterUpdate) : Result Plan := do
  let center ← load s kind centerId
  checkSome payload.departmentId.val? (assertDepartment s)
  let center' ← assign center payload
  return { now := env.txnNow, writes := [.center kind (.update centerId center center')] }

/-- `_REFERENCES`: where a code of the kind is used, with the name shown to the user. -/
def references (s : Store) (code : String) : CenterKind → List (Bool × String)
  | .cost =>
    [(Store.referenced s.trips Trip.costCenterCode (some code), "출장"),
      (Store.referenced s.reports ExpenseReport.costCenterCode (some code), "정산서"),
      (Store.referenced s.items ExpenseItem.costCenterCode (some code), "정산항목")]
  | .fund =>
    [(Store.referenced s.reports ExpenseReport.fundCenterCode (some code), "정산서"),
      (Store.referenced s.items ExpenseItem.fundCenterCode (some code), "정산항목")]

def deleteCenter (s : Store) (env : Env) (kind : CenterKind) (centerId : Int) : Result Plan := do
  let center ← load s kind centerId
  forE (references s center.code kind) fun (found, label) =>
    guardE (found = false) <| .app <|
      conflictError "HAS_DEPENDENTS" s!"{label}이(가) 이 센터를 참조하고 있어 삭제할 수 없습니다" none
  return deleteEntity env (.center kind (.delete centerId)) "이 센터를 참조하는 데이터가 있습니다"

end Biztrip.Admin.CenterMaster
