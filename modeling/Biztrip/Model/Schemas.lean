import Biztrip.Model.Rows

/-!
# Request bodies

The payloads of `app/schemas`, after validation: the length bounds and the
normalisation of addresses are carried by the types, so a payload that the
schemas refuse cannot be built. A field of a partial update is a `Sent`, which
tells a field that was left out from an explicit null.
-/

namespace Biztrip

open Biztrip.Lib

/-- An address as `EmailStr` and the lower-casing validator leave it. -/
structure Email where
  val : String
  isText : IsText val := by decide
  deriving DecidableEq

/-! ## Trips -/

structure TripCreate where
  title : Str 1 200
  purposeCode : Str 1 40
  purposeDetail : StrMin 1
  destinationTypeCode : Str 1 40
  countryCode : Str 1 40
  city : Str 1 80
  startDate : Date
  endDate : Date
  deriving DecidableEq

structure TripUpdate where
  title : Sent (Str 1 200) := .absent
  purposeCode : Sent (Str 1 40) := .absent
  purposeDetail : Sent (StrMin 1) := .absent
  destinationTypeCode : Sent (Str 1 40) := .absent
  countryCode : Sent (Str 1 40) := .absent
  city : Sent (Str 1 80) := .absent
  startDate : Sent Date := .absent
  endDate : Sent Date := .absent
  deriving DecidableEq

structure RejectRequest where
  reason : String
  deriving DecidableEq

/-! ## Expenses -/

structure ExpenseReportCreate where
  tripId : Int
  deriving DecidableEq

structure ExpenseReportUpdate where
  fundCenterCode : Sent (Str 1 20) := .absent
  costCenterCode : Sent (Str 1 20) := .absent
  deriving DecidableEq

structure ExpenseItemCreate where
  cardTransactionId : Option Int := none
  expenseCategoryCode : Str 1 40
  amountKrw : Option Decimal := none
  memo : Option (Str 0 255) := none
  fundCenterCode : Option (Str 1 20) := none
  costCenterCode : Option (Str 1 20) := none
  deriving DecidableEq

structure ExpenseItemUpdate where
  expenseCategoryCode : Sent (Str 1 40) := .absent
  amountKrw : Sent Decimal := .absent
  memo : Sent (Str 0 255) := .absent
  isExcluded : Sent Bool := .absent
  fundCenterCode : Sent (Str 1 20) := .absent
  costCenterCode : Sent (Str 1 20) := .absent
  deriving DecidableEq

/-! ## Accounts -/

structure LoginRequest where
  email : Email
  password : String
  deriving DecidableEq

structure SignupRequest where
  email : Email
  password : StrMin 1
  name : Str 1 50
  departmentId : Int
  deriving DecidableEq

structure AdminUserCreate where
  email : Email
  password : StrMin 1
  name : Str 1 50
  employeeNo : Str 1 20
  departmentId : Int
  positionCode : Str 1 30
  managerId : Option Int := none
  role : UserRole := .employee
  isActive : Bool := true
  deriving DecidableEq

structure AdminUserUpdate where
  name : Sent (Str 1 50) := .absent
  departmentId : Sent Int := .absent
  positionCode : Sent (Str 1 30) := .absent
  managerId : Sent Int := .absent
  role : Sent UserRole := .absent
  isActive : Sent Bool := .absent
  deriving DecidableEq

structure UserApprove where
  employeeNo : Str 1 20
  positionCode : Str 1 30
  managerId : Option Int := none
  role : UserRole := .employee
  deriving DecidableEq

structure PasswordSet where
  password : StrMin 1
  deriving DecidableEq

/-! ## Master data -/

structure DepartmentCreate where
  code : Str 1 20
  name : Str 1 100
  parentId : Option Int := none
  deriving DecidableEq

structure DepartmentUpdate where
  name : Sent (Str 1 100) := .absent
  parentId : Sent Int := .absent
  deriving DecidableEq

structure CodeGroupCreate where
  groupCode : Str 1 40
  name : Str 1 100
  description : Option (Str 0 255) := none
  isActive : Bool := true
  deriving DecidableEq

structure CodeGroupUpdate where
  name : Sent (Str 1 100) := .absent
  description : Sent (Str 0 255) := .absent
  isActive : Sent Bool := .absent
  deriving DecidableEq

structure CodeCreate where
  code : Str 1 40
  name : Str 1 100
  sortOrder : Int := 0
  isActive : Bool := true
  extra : JsonObject := .nil
  deriving DecidableEq

structure CodeUpdate where
  name : Sent (Str 1 100) := .absent
  sortOrder : Sent Int := .absent
  isActive : Sent Bool := .absent
  extra : Sent JsonObject := .absent
  deriving DecidableEq

structure CenterCreate where
  code : Str 1 20
  name : Str 1 100
  departmentId : Option Int := none
  isActive : Bool := true
  deriving DecidableEq

structure CenterUpdate where
  name : Sent (Str 1 100) := .absent
  departmentId : Sent Int := .absent
  isActive : Sent Bool := .absent
  deriving DecidableEq

structure AdminCardCreate where
  userId : Int
  cardNoMasked : Str 1 30
  brand : Str 1 30
  isActive : Bool := true
  deriving DecidableEq

structure AdminCardUpdate where
  cardNoMasked : Sent (Str 1 30) := .absent
  brand : Sent (Str 1 30) := .absent
  isActive : Sent Bool := .absent
  deriving DecidableEq

/-! ## API keys -/

/-- `MAX_EXPIRES_DAYS`. -/
def maxExpiresDays : Nat := 365

structure ApiKeyCreate where
  name : Str 1 80
  scopes : List String
  /-- Between 1 and `maxExpiresDays`, where given. -/
  expiresInDays : Option {n : Nat // 1 ≤ n ∧ n ≤ maxExpiresDays} := none
  deriving DecidableEq

end Biztrip
