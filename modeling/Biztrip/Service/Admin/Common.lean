import Biztrip.Model.Schemas
import Biztrip.Model.Writes
import Biztrip.Service.History

/-!
# Guards shared by the administration

`app/services/admin/common.py`: the existence of a department, uniqueness
before an insertion, and the deletion that turns a foreign key violation into a
conflict.
-/

namespace Biztrip.Admin

open Biztrip.Lib

def departmentInvalid (departmentId : Int) : AppError :=
  validationError "INVALID_DEPARTMENT" s!"존재하지 않는 부서입니다: {departmentId}"
    (some "department_id")

def assertDepartment (s : Store) (departmentId : Int) : Result Unit := do
  let department ← sessionGet s.departments departmentId
  guardE department.isSome (.app (departmentInvalid departmentId))

theorem found_of_assertDepartment {s : Store} {departmentId : Int} {u : Unit}
    (h : assertDepartment s departmentId = .ok u) :
    (s.departments.get departmentId).isSome = true := by
  obtain ⟨o, hget, h⟩ := bind_eq_ok.mp h
  obtain ⟨-, rfl⟩ := sessionGet_eq_ok.mp hget
  exact guardE_eq_ok.mp h

/-- The value is looked up first, which fails for a text the database cannot hold. -/
def assertUnique {ρ β : Type} [DecidableEq β] (t : Table ρ) (column : ρ → β) (value : β)
    (name shown : String) (e : AppError) : Result Unit := do
  text name shown
  guardE (Store.taken t none column value = false) (.app e)

/-- `delete_entity`: a reference to the row is reported as a conflict. -/
def deleteEntity (env : Env) (w : Write) (message : String) : Plan :=
  { now := env.txnNow, writes := [w]
    onIntegrity := some (conflictError "HAS_DEPENDENTS" message none) }

/-- A null in a column that is not null, as the flush finds it. -/
def notNull (column : String) : Fault := .integrity (.notNull column)

end Biztrip.Admin
