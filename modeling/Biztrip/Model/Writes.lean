import Biztrip.Lib.Reference
import Biztrip.Model.Rows

/-!
# Statements and constraints

What a service call sends to the database: a list of `Write`s, which `commit`
applies in order in one transaction. `check` holds the declared constraints
that a statement of the services can meet: the unique keys, and the foreign
keys to rows that can be deleted. Users and card transactions are never
deleted, and every id of one that is written was read from the database, so
the foreign keys to them cannot fail. A column that is not null is not an
`Option`, so the services themselves decide about nulls when they build a row.
-/

namespace Biztrip

open Biztrip.Lib

/-- The entity a log row is about: a row that was loaded, or the one this transaction inserted. -/
inductive EntityRef where
  | stored (id : Int)
  | inserted
  deriving DecidableEq, Repr

inductive Write where
  | user (w : RowWrite User)
  | apiKey (w : RowWrite ApiKey)
  | department (w : RowWrite Department)
  | codeGroup (w : RowWrite CodeGroup)
  | code (w : RowWrite Code)
  | center (kind : CenterKind) (w : RowWrite Center)
  | card (w : RowWrite CorporateCard)
  | trip (w : RowWrite Trip)
  | report (w : RowWrite ExpenseReport)
  | item (w : RowWrite ExpenseItem)
  /-- The row's own `entityId` is filled in from the reference. -/
  | log (entity : EntityRef) (row : ActivityLog)
  | notification (w : RowWrite Notification)

namespace Store

/-- Some row other than the one under `self` has the value `v` in a column. -/
def taken {ρ β : Type} [DecidableEq β] (t : Table ρ) (self : Option Int) (column : ρ → β) (v : β) :
    Bool :=
  t.rows.any fun p => decide (some p.1 ≠ self) && decide (column p.2 = v)

theorem taken_eq_false {ρ β : Type} [DecidableEq β] {t : Table ρ} {self : Option Int}
    {column : ρ → β} {v : β} : taken t self column v = false ↔
      ∀ j r, t.get j = some r → some j ≠ self → column r ≠ v := by
  simp only [taken, List.any_eq_false, Bool.and_eq_true, decide_eq_true_eq, not_and, Prod.forall,
    Table.mem_rows, ne_eq]

/-- Some row refers to `v`. -/
def referenced {ρ β : Type} [DecidableEq β] (t : Table ρ) (column : ρ → β) (v : β) : Bool :=
  taken t none column v

def unique (columns : String) (clash : Bool) : Result Unit :=
  guardE (clash = false) (.integrity (.unique columns))

def foreignKey (column : String) (holds : Bool) : Result Unit :=
  guardE (holds = true) (.integrity (.foreignKey column))

@[simp] theorem foreignKey_eq_ok {column : String} {holds : Bool} {u : Unit} :
    foreignKey column holds = .ok u ↔ holds = true :=
  guardE_eq_ok

/-- A nullable reference points at a row. -/
def refers {ρ : Type} (t : Table ρ) (o : Option Int) : Bool :=
  match o with
  | none => true
  | some i => (t.get i).isSome

/-- The declared constraints, as the statement is executed. -/
def check (s : Store) : Write → Result Unit
  | .user (.insert r) => do
    unique "email" (taken s.users none User.email r.email)
    whenE (r.employeeNo ≠ none) <|
      unique "employee_no" (taken s.users none User.employeeNo r.employeeNo)
  | .user (.update i old new) =>
    whenE (new.employeeNo ≠ old.employeeNo ∧ new.employeeNo ≠ none) <|
      unique "employee_no" (taken s.users (some i) User.employeeNo new.employeeNo)
  | .apiKey (.insert r) => unique "key_hash" (taken s.apiKeys none ApiKey.keyHash r.keyHash)
  | .department (.insert r) => do
    unique "code" (taken s.departments none Department.code r.code)
    foreignKey "parent_id" (refers s.departments r.parentId)
  | .department (.update _ old new) =>
    whenE (new.parentId ≠ old.parentId) <|
      foreignKey "parent_id" (refers s.departments new.parentId)
  | .department (.delete i) => do
    -- a row that is its own parent does not hold itself: by the time of the check it is gone
    foreignKey "department.parent_id" (!taken s.departments (some i) Department.parentId (some i))
    foreignKey "fund_center.department_id" (!referenced s.fundCenters Center.departmentId (some i))
    foreignKey "cost_center.department_id" (!referenced s.costCenters Center.departmentId (some i))
  | .codeGroup (.insert r) =>
    unique "group_code" (taken s.codeGroups none CodeGroup.groupCode r.groupCode)
  | .codeGroup (.delete i) => foreignKey "code.group_id" (!referenced s.codes Code.groupId i)
  | .code (.insert r) => do
    unique "group_id, code" (taken s.codes none (fun c => (c.groupId, c.code)) (r.groupId, r.code))
    foreignKey "group_id" (s.codeGroups.get r.groupId).isSome
  | .center kind (.insert r) => do
    unique "code" (taken (s.centers kind) none Center.code r.code)
    foreignKey "department_id" (refers s.departments r.departmentId)
  | .center _ (.update _ old new) =>
    whenE (new.departmentId ≠ old.departmentId) <|
      foreignKey "department_id" (refers s.departments new.departmentId)
  | .card (.delete i) =>
    foreignKey "card_transaction.card_id" (!referenced s.transactions CardTransaction.cardId i)
  | .trip (.insert r) => unique "trip_no" (taken s.trips none Trip.tripNo r.tripNo)
  | .trip (.delete i) =>
    foreignKey "expense_report.trip_id" (!referenced s.reports ExpenseReport.tripId i)
  | .report (.insert r) => do
    unique "report_no" (taken s.reports none ExpenseReport.reportNo r.reportNo)
    unique "trip_id" (taken s.reports none ExpenseReport.tripId r.tripId)
    foreignKey "trip_id" (s.trips.get r.tripId).isSome
  | .item (.insert r) => do
    whenE (r.cardTransactionId ≠ none) <|
      unique "report_id, card_transaction_id" (taken s.items none
        (fun it => (it.reportId, it.cardTransactionId)) (r.reportId, r.cardTransactionId))
    foreignKey "report_id" (s.reports.get r.reportId).isSome
  | _ => .ok ()

/-- The key a reference resolves to when the statement is executed. -/
def resolve (s : Store) (type : EntityType) : EntityRef → Int
  | .stored id => id
  | .inserted =>
    match type with
    | .trip => s.trips.next - 1
    | .expenseReport => s.reports.next - 1

/-- Execute one statement at the transaction time `now`. -/
def flush (now : Instant) (s : Store) (w : Write) : Result Store := do
  s.check w
  match w with
  | .user w => return { s with users := ← w.apply now .staleData s.users }
  | .apiKey w => return { s with apiKeys := ← w.apply now .staleData s.apiKeys }
  | .department w => return { s with departments := ← w.apply now .staleData s.departments }
  | .codeGroup w => return { s with codeGroups := ← w.apply now .staleData s.codeGroups }
  | .code w => return { s with codes := ← w.apply now .staleData s.codes }
  | .center kind w => return s.setCenters (← w.apply now .staleData (s.centers kind)) kind
  | .card w => return { s with cards := ← w.apply now .staleData s.cards }
  | .trip w => return { s with trips := ← w.apply now .staleData s.trips }
  | .report w => return { s with reports := ← w.apply now .staleData s.reports }
  | .item w => return { s with items := ← w.apply now .staleData s.items }
  | .log entity row =>
    return { s with
      activityLog := s.activityLog.insert { row with entityId := s.resolve row.entityType entity } }
  | .notification w => return { s with notifications := ← w.apply now .staleData s.notifications }

end Store

/-- What a call has decided to write. -/
structure Plan where
  /-- The start of its transaction. -/
  now : Instant
  writes : List Write
  /-- The error the call turns a constraint violation into, if it catches it. -/
  onIntegrity : Option AppError := none

namespace Plan

def translate (onIntegrity : Option AppError) : Fault → Fault
  | .integrity v =>
    match onIntegrity with
    | some e => .app e
    | none => .integrity v
  | e => e

/-- Execute the statements in order; if one fails, the transaction is rolled back. -/
def commit (s : Store) (p : Plan) : Result Store :=
  match p.writes.foldlM (Store.flush p.now) s with
  | .ok s' => .ok s'
  | .error e => .error (translate p.onIntegrity e)

theorem commit_eq_ok {s s' : Store} {p : Plan} :
    p.commit s = .ok s' ↔ p.writes.foldlM (Store.flush p.now) s = .ok s' := by
  unfold commit
  split <;> simp_all

end Plan

/-! ## The foreign keys -/

/-- The foreign keys of the tables that the seed fills. A user's department is not one of them. -/
structure Consistent (s : Store) : Prop where
  userManager : Points s.users User.managerId s.users
  departmentParent : Points s.departments Department.parentId s.departments
  codeGroup : Points s.codes (fun c => some c.groupId) s.codeGroups
  fundDepartment : Points s.fundCenters Center.departmentId s.departments
  costDepartment : Points s.costCenters Center.departmentId s.departments
  cardUser : Points s.cards (fun c => some c.userId) s.users
  transactionCard : Points s.transactions (fun x => some x.cardId) s.cards
  tripUser : Points s.trips (fun t => some t.userId) s.users
  tripApprover : Points s.trips Trip.approverId s.users
  reportTrip : Points s.reports (fun r => some r.tripId) s.trips
  reportUser : Points s.reports (fun r => some r.userId) s.users
  reportApprover : Points s.reports ExpenseReport.approverId s.users
  itemReport : Points s.items (fun it => some it.reportId) s.reports
  itemTransaction : Points s.items ExpenseItem.cardTransactionId s.transactions

/-- All foreign keys of `app/models`. -/
structure Intact (s : Store) : Prop extends Consistent s where
  keyUser : Points s.apiKeys (fun key => some key.userId) s.users
  logActor : Points s.activityLog (fun l => some l.actorId) s.users
  notificationUser : Points s.notifications (fun n => some n.userId) s.users

theorem Intact.centerDepartment {s : Store} (h : Intact s) (kind : CenterKind) :
    Points (s.centers kind) Center.departmentId s.departments := by
  cases kind
  · exact h.fundDepartment
  · exact h.costDepartment

end Biztrip
