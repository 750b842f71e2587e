import Mathlib.Data.String.Basic
import Mathlib.Order.WithBot
import Biztrip.Service.Admin.Users
import Biztrip.Service.Pages

/-!
# Reading users

The list of `app/services/admin/users.py`. It is ordered by the employee number alone, which
applicants do not have yet.
-/

namespace Biztrip.Admin.Users

open Biztrip.Lib

structure UserFilters where
  q : Option String := none
  departmentId : Option Int := none
  role : Option UserRole := none
  isActive : Option Bool := none
  status : Option UserStatus := none
  paging : Paging := .first

structure AdminUserOut where
  id : Int
  email : String
  name : String
  employeeNo : Option String
  departmentId : Int
  departmentName : String
  positionCode : Option String
  managerId : Option Int
  managerName : Option String
  role : UserRole
  status : UserStatus
  isActive : Bool
  deriving DecidableEq

/-- One row of `_to_out`. In Python an id of zero counts as none. -/
def toOut (s : Store) (id : Int) (user : User) : AdminUserOut :=
  { id, email := user.email, name := user.name, employeeNo := user.employeeNo
    departmentId := user.departmentId
    departmentName := ((s.departments.get user.departmentId).map Department.name).getD ""
    positionCode := user.positionCode, managerId := user.managerId
    managerName := (user.managerId.filter fun i => i ≠ 0).bind (userName s)
    role := user.role, status := user.status, isActive := user.isActive }

/-- A null matches no pattern. -/
def UserFilters.selects (P : Platform) (filters : UserFilters) (user : User) : Bool :=
  (given filters.q).all (fun q =>
      P.search q user.name || P.search q user.email || user.employeeNo.any (P.search q)) &&
    filters.departmentId.all (fun id => user.departmentId = id) &&
    filters.role.all (fun role => user.role = role) &&
    filters.isActive.all (fun on => user.isActive = on) &&
    filters.status.all fun status => user.status = status

/-- `ORDER BY employee_no`; nulls come last. -/
def employeeKey (p : Int × User) : WithTop String :=
  match p.2.employeeNo with
  | none => ⊤
  | some no => (no : WithTop String)

/-- The users that match, once the database has accepted the values to look for. -/
def selectUsers (P : Platform) (s : Store) (filters : UserFilters) :
    Result (List (Int × User)) := do
  checkSome (given filters.q) (text "q")
  checkSome filters.departmentId (int4 "department_id")
  return s.users.rows.filter fun p => filters.selects P p.2

/-- `arranged` is an order of the matching users that the database may choose. -/
def listUsers (P : Platform) (s : Store) (filters : UserFilters)
    (arranged : List (Int × User)) : Result (Page AdminUserOut) := do
  let rows ← selectUsers P s filters
  let rowsOfPage ← filters.paging.cut arranged
  return ⟨rowsOfPage.map fun p => toOut s p.1 p.2, rows.length, filters.paging.page,
    filters.paging.size⟩

end Biztrip.Admin.Users
