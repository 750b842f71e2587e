import Biztrip.Lib.Decimal
import Biztrip.Lib.RowWrite
import Biztrip.Model.Basic

/-!
# The database

One structure per table of `app/models`, without its key, and the `Store` of
all tables. A nullable column is an `Option`. Rows are written back column by
column (`Merge`); `updated_at` is kept by the database on every `UPDATE`.
-/

namespace Biztrip

open Biztrip.Lib

/-- `Numeric(14, 2)`. -/
abbrev Krw := Numeric 14 2

/-! ## Accounts -/

structure User where
  email : String
  passwordHash : String
  name : String
  employeeNo : Option String
  departmentId : Int
  positionCode : Option String
  managerId : Option Int
  role : UserRole
  status : UserStatus
  isActive : Bool
  deriving DecidableEq

instance : Merge User where
  merge old new cur :=
    { email := mergeCol old.email new.email cur.email
      passwordHash := mergeCol old.passwordHash new.passwordHash cur.passwordHash
      name := mergeCol old.name new.name cur.name
      employeeNo := mergeCol old.employeeNo new.employeeNo cur.employeeNo
      departmentId := mergeCol old.departmentId new.departmentId cur.departmentId
      positionCode := mergeCol old.positionCode new.positionCode cur.positionCode
      managerId := mergeCol old.managerId new.managerId cur.managerId
      role := mergeCol old.role new.role cur.role
      status := mergeCol old.status new.status cur.status
      isActive := mergeCol old.isActive new.isActive cur.isActive }
  merge_loaded old new := by simp only [mergeCol_loaded]
  merge_same old cur := by simp only [mergeCol_same]

structure ApiKey where
  userId : Int
  name : String
  keyPrefix : String
  keyHash : String
  scopes : List String
  lastUsedAt : Option Instant
  expiresAt : Option Instant
  revokedAt : Option Instant
  createdAt : Instant
  deriving DecidableEq

instance : Merge ApiKey where
  merge old new cur :=
    { userId := mergeCol old.userId new.userId cur.userId
      name := mergeCol old.name new.name cur.name
      keyPrefix := mergeCol old.keyPrefix new.keyPrefix cur.keyPrefix
      keyHash := mergeCol old.keyHash new.keyHash cur.keyHash
      scopes := mergeCol old.scopes new.scopes cur.scopes
      lastUsedAt := mergeCol old.lastUsedAt new.lastUsedAt cur.lastUsedAt
      expiresAt := mergeCol old.expiresAt new.expiresAt cur.expiresAt
      revokedAt := mergeCol old.revokedAt new.revokedAt cur.revokedAt
      createdAt := mergeCol old.createdAt new.createdAt cur.createdAt }
  merge_loaded old new := by simp only [mergeCol_loaded]
  merge_same old cur := by simp only [mergeCol_same]

/-! ## Master data -/

structure Department where
  code : String
  name : String
  parentId : Option Int
  deriving DecidableEq

instance : Merge Department where
  merge old new cur :=
    { code := mergeCol old.code new.code cur.code
      name := mergeCol old.name new.name cur.name
      parentId := mergeCol old.parentId new.parentId cur.parentId }
  merge_loaded old new := by simp only [mergeCol_loaded]
  merge_same old cur := by simp only [mergeCol_same]

structure CodeGroup where
  groupCode : String
  name : String
  description : Option String
  isActive : Bool
  deriving DecidableEq

instance : Merge CodeGroup where
  merge old new cur :=
    { groupCode := mergeCol old.groupCode new.groupCode cur.groupCode
      name := mergeCol old.name new.name cur.name
      description := mergeCol old.description new.description cur.description
      isActive := mergeCol old.isActive new.isActive cur.isActive }
  merge_loaded old new := by simp only [mergeCol_loaded]
  merge_same old cur := by simp only [mergeCol_same]

structure Code where
  groupId : Int
  code : String
  name : String
  sortOrder : Int
  isActive : Bool
  /-- A `jsonb` column that is not null; JSON's own null is a value of it. -/
  extra : Json
  deriving DecidableEq

instance : Merge Code where
  merge old new cur :=
    { groupId := mergeCol old.groupId new.groupId cur.groupId
      code := mergeCol old.code new.code cur.code
      name := mergeCol old.name new.name cur.name
      sortOrder := mergeCol old.sortOrder new.sortOrder cur.sortOrder
      isActive := mergeCol old.isActive new.isActive cur.isActive
      extra := mergeCol old.extra new.extra cur.extra }
  merge_loaded old new := by simp only [mergeCol_loaded]
  merge_same old cur := by simp only [mergeCol_same]

/-- Fund centers and cost centers are two tables with the same columns. -/
inductive CenterKind where
  | fund
  | cost
  deriving DecidableEq, Repr

structure Center where
  code : String
  name : String
  departmentId : Option Int
  isActive : Bool
  deriving DecidableEq

instance : Merge Center where
  merge old new cur :=
    { code := mergeCol old.code new.code cur.code
      name := mergeCol old.name new.name cur.name
      departmentId := mergeCol old.departmentId new.departmentId cur.departmentId
      isActive := mergeCol old.isActive new.isActive cur.isActive }
  merge_loaded old new := by simp only [mergeCol_loaded]
  merge_same old cur := by simp only [mergeCol_same]

structure CorporateCard where
  userId : Int
  cardNoMasked : String
  brand : String
  isActive : Bool
  deriving DecidableEq

instance : Merge CorporateCard where
  merge old new cur :=
    { userId := mergeCol old.userId new.userId cur.userId
      cardNoMasked := mergeCol old.cardNoMasked new.cardNoMasked cur.cardNoMasked
      brand := mergeCol old.brand new.brand cur.brand
      isActive := mergeCol old.isActive new.isActive cur.isActive }
  merge_loaded old new := by simp only [mergeCol_loaded]
  merge_same old cur := by simp only [mergeCol_same]

/-- Card transactions are loaded from outside; no service writes them. -/
structure CardTransaction where
  cardId : Int
  approvedAt : Instant
  merchantName : String
  merchantCategoryCode : String
  amount : Krw
  currencyCode : String
  amountKrw : Krw
  isCancelled : Bool
  deriving DecidableEq

/-! ## Trips and expense reports -/

structure Trip where
  tripNo : String
  userId : Int
  title : String
  purposeCode : String
  purposeDetail : String
  destinationTypeCode : String
  countryCode : String
  city : String
  startDate : Date
  endDate : Date
  costCenterCode : Option String
  status : TripStatus
  approverId : Option Int
  submittedAt : Option Instant
  approvedAt : Option Instant
  rejectReason : Option String
  createdAt : Instant
  updatedAt : Instant
  deriving DecidableEq

instance : Merge Trip where
  merge old new cur :=
    { tripNo := mergeCol old.tripNo new.tripNo cur.tripNo
      userId := mergeCol old.userId new.userId cur.userId
      title := mergeCol old.title new.title cur.title
      purposeCode := mergeCol old.purposeCode new.purposeCode cur.purposeCode
      purposeDetail := mergeCol old.purposeDetail new.purposeDetail cur.purposeDetail
      destinationTypeCode :=
        mergeCol old.destinationTypeCode new.destinationTypeCode cur.destinationTypeCode
      countryCode := mergeCol old.countryCode new.countryCode cur.countryCode
      city := mergeCol old.city new.city cur.city
      startDate := mergeCol old.startDate new.startDate cur.startDate
      endDate := mergeCol old.endDate new.endDate cur.endDate
      costCenterCode := mergeCol old.costCenterCode new.costCenterCode cur.costCenterCode
      status := mergeCol old.status new.status cur.status
      approverId := mergeCol old.approverId new.approverId cur.approverId
      submittedAt := mergeCol old.submittedAt new.submittedAt cur.submittedAt
      approvedAt := mergeCol old.approvedAt new.approvedAt cur.approvedAt
      rejectReason := mergeCol old.rejectReason new.rejectReason cur.rejectReason
      createdAt := mergeCol old.createdAt new.createdAt cur.createdAt
      updatedAt := mergeCol old.updatedAt new.updatedAt cur.updatedAt }
  merge_loaded old new := by simp only [mergeCol_loaded]
  merge_same old cur := by simp only [mergeCol_same]
  stamp now r := { r with updatedAt := now }
  exists_stamp r := ⟨r.updatedAt, rfl⟩

structure ExpenseReport where
  reportNo : String
  tripId : Int
  userId : Int
  status : ExpenseReportStatus
  fundCenterCode : Option String
  costCenterCode : Option String
  totalAmountKrw : Krw
  approverId : Option Int
  submittedAt : Option Instant
  approvedAt : Option Instant
  rejectReason : Option String
  createdAt : Instant
  updatedAt : Instant
  deriving DecidableEq

instance : Merge ExpenseReport where
  merge old new cur :=
    { reportNo := mergeCol old.reportNo new.reportNo cur.reportNo
      tripId := mergeCol old.tripId new.tripId cur.tripId
      userId := mergeCol old.userId new.userId cur.userId
      status := mergeCol old.status new.status cur.status
      fundCenterCode := mergeCol old.fundCenterCode new.fundCenterCode cur.fundCenterCode
      costCenterCode := mergeCol old.costCenterCode new.costCenterCode cur.costCenterCode
      totalAmountKrw := mergeCol old.totalAmountKrw new.totalAmountKrw cur.totalAmountKrw
      approverId := mergeCol old.approverId new.approverId cur.approverId
      submittedAt := mergeCol old.submittedAt new.submittedAt cur.submittedAt
      approvedAt := mergeCol old.approvedAt new.approvedAt cur.approvedAt
      rejectReason := mergeCol old.rejectReason new.rejectReason cur.rejectReason
      createdAt := mergeCol old.createdAt new.createdAt cur.createdAt
      updatedAt := mergeCol old.updatedAt new.updatedAt cur.updatedAt }
  merge_loaded old new := by simp only [mergeCol_loaded]
  merge_same old cur := by simp only [mergeCol_same]
  stamp now r := { r with updatedAt := now }
  exists_stamp r := ⟨r.updatedAt, rfl⟩

structure ExpenseItem where
  reportId : Int
  cardTransactionId : Option Int
  expenseCategoryCode : String
  amountKrw : Krw
  memo : Option String
  isExcluded : Bool
  fundCenterCode : Option String
  costCenterCode : Option String
  deriving DecidableEq

instance : Merge ExpenseItem where
  merge old new cur :=
    { reportId := mergeCol old.reportId new.reportId cur.reportId
      cardTransactionId :=
        mergeCol old.cardTransactionId new.cardTransactionId cur.cardTransactionId
      expenseCategoryCode :=
        mergeCol old.expenseCategoryCode new.expenseCategoryCode cur.expenseCategoryCode
      amountKrw := mergeCol old.amountKrw new.amountKrw cur.amountKrw
      memo := mergeCol old.memo new.memo cur.memo
      isExcluded := mergeCol old.isExcluded new.isExcluded cur.isExcluded
      fundCenterCode := mergeCol old.fundCenterCode new.fundCenterCode cur.fundCenterCode
      costCenterCode := mergeCol old.costCenterCode new.costCenterCode cur.costCenterCode }
  merge_loaded old new := by simp only [mergeCol_loaded]
  merge_same old cur := by simp only [mergeCol_same]

/-! ## History -/

/-- Log rows are only ever inserted. Their status columns are plain texts. -/
structure ActivityLog where
  entityType : EntityType
  entityId : Int
  actorId : Int
  action : ActivityAction
  fromStatus : Option String
  toStatus : Option String
  memo : Option String
  createdAt : Instant
  deriving DecidableEq

structure Notification where
  userId : Int
  type : NotificationType
  title : String
  body : String
  linkUrl : Option String
  isRead : Bool
  createdAt : Instant
  deriving DecidableEq

instance : Merge Notification where
  merge old new cur :=
    { userId := mergeCol old.userId new.userId cur.userId
      type := mergeCol old.type new.type cur.type
      title := mergeCol old.title new.title cur.title
      body := mergeCol old.body new.body cur.body
      linkUrl := mergeCol old.linkUrl new.linkUrl cur.linkUrl
      isRead := mergeCol old.isRead new.isRead cur.isRead
      createdAt := mergeCol old.createdAt new.createdAt cur.createdAt }
  merge_loaded old new := by simp only [mergeCol_loaded]
  merge_same old cur := by simp only [mergeCol_same]

/-! ## All tables -/

structure Store where
  users : Table User
  apiKeys : Table ApiKey
  departments : Table Department
  codeGroups : Table CodeGroup
  codes : Table Code
  fundCenters : Table Center
  costCenters : Table Center
  cards : Table CorporateCard
  transactions : Table CardTransaction
  trips : Table Trip
  reports : Table ExpenseReport
  items : Table ExpenseItem
  activityLog : Table ActivityLog
  notifications : Table Notification

namespace Store

/-- The database after the migrations and before any row. -/
def empty : Store :=
  ⟨.empty, .empty, .empty, .empty, .empty, .empty, .empty, .empty, .empty, .empty, .empty, .empty,
    .empty, .empty⟩

def centers (s : Store) : CenterKind → Table Center
  | .fund => s.fundCenters
  | .cost => s.costCenters

def setCenters (s : Store) (t : Table Center) : CenterKind → Store
  | .fund => { s with fundCenters := t }
  | .cost => { s with costCenters := t }

end Store

/-- `session.get`: a key outside the column's range fails in the driver. -/
def sessionGet {ρ : Type} (t : Table ρ) (id : Int) : Result (Option ρ) := do
  int4 "id" id
  return t.get id

theorem sessionGet_eq_ok {ρ : Type} {t : Table ρ} {id : Int} {o : Option ρ} :
    sessionGet t id = .ok o ↔ IsInt4 id ∧ t.get id = o := by
  simp [sessionGet, bind_eq_ok, int4]

theorem sessionGet_eq_error {ρ : Type} {t : Table ρ} {id : Int} {e : Fault} :
    sessionGet t id = .error e ↔ ¬ IsInt4 id ∧ e = .dataError "id" := by
  simp [sessionGet, bind_eq_error, int4]

/-- Load a row by its key or answer that there is none. -/
def loadOr {ρ : Type} (t : Table ρ) (id : Int) (missing : AppError) : Result ρ := do
  let row ← sessionGet t id
  getE row (.app missing)

theorem loadOr_eq_ok {ρ : Type} {t : Table ρ} {id : Int} {missing : AppError} {row : ρ} :
    loadOr t id missing = .ok row ↔ IsInt4 id ∧ t.get id = some row := by
  simp only [loadOr, bind_eq_ok, sessionGet_eq_ok, getE_eq_ok]
  constructor
  · rintro ⟨_, ⟨hid, rfl⟩, hget⟩
    exact ⟨hid, hget⟩
  · rintro ⟨hid, hget⟩
    exact ⟨_, ⟨hid, rfl⟩, hget⟩

end Biztrip
