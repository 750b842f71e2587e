import Biztrip.Lib.Overlap
import Biztrip.Service.Admin.Cards
import Biztrip.Service.Admin.Centers
import Biztrip.Service.Admin.Codes
import Biztrip.Service.Admin.Departments
import Biztrip.Service.ApiKeys
import Biztrip.Service.Expenses
import Biztrip.Service.Notifications
import Biztrip.Service.Signup

/-!
# The system

All mutating service calls as one type of requests, and the machine that runs
them: a request reads and plans, and commits its plan. `desk` is the part of the
system that works on trips and expense reports, `system` is all of it. A serial
run is `Run.all` of the machine's step, an interleaving is `Config.exec`.
-/

namespace Biztrip

open Biztrip.Lib

/-! ## Requests -/

inductive TripCall where
  | create (payload : TripCreate)
  | update (tripId : Int) (payload : TripUpdate)
  | delete (tripId : Int)
  | submit (tripId : Int)
  | approve (tripId : Int)
  | reject (tripId : Int) (payload : RejectRequest)
  | reopen (tripId : Int)
  | complete (tripId : Int)

inductive ExpenseCall where
  | create (payload : ExpenseReportCreate)
  | update (reportId : Int) (payload : ExpenseReportUpdate)
  | addItem (reportId : Int) (payload : ExpenseItemCreate)
  | updateItem (itemId : Int) (payload : ExpenseItemUpdate)
  | deleteItem (itemId : Int)
  | submit (reportId : Int)
  | approve (reportId : Int)
  | reject (reportId : Int) (payload : RejectRequest)
  | reopen (reportId : Int)

inductive DeskCall where
  | trip (call : TripCall)
  | expense (call : ExpenseCall)

inductive AccountCall where
  | signup (payload : SignupRequest)
  | create (payload : AdminUserCreate)
  | update (actorId userId : Int) (payload : AdminUserUpdate)
  | setPassword (userId : Int) (payload : PasswordSet)
  | approve (userId : Int) (payload : UserApprove)
  | reject (userId : Int)

inductive CodeCall where
  | createGroup (payload : CodeGroupCreate)
  | updateGroup (groupId : Int) (payload : CodeGroupUpdate)
  | deleteGroup (groupId : Int)
  | create (groupId : Int) (payload : CodeCreate)
  | update (codeId : Int) (payload : CodeUpdate)
  | delete (codeId : Int)

inductive MasterCall where
  | createDepartment (payload : DepartmentCreate)
  | updateDepartment (departmentId : Int) (payload : DepartmentUpdate)
  | deleteDepartment (departmentId : Int)
  | createCenter (kind : CenterKind) (payload : CenterCreate)
  | updateCenter (kind : CenterKind) (centerId : Int) (payload : CenterUpdate)
  | deleteCenter (kind : CenterKind) (centerId : Int)
  | createCard (payload : AdminCardCreate)
  | updateCard (cardId : Int) (payload : AdminCardUpdate)
  | deleteCard (cardId : Int)

inductive PersonalCall where
  | createKey (payload : ApiKeyCreate)
  | revokeKey (keyId : Int)
  | markRead (notificationId : Int)

/-- A call, with the acting user where the service takes one. -/
inductive Call where
  | desk (userId : Int) (call : DeskCall)
  | account (call : AccountCall)
  | code (call : CodeCall)
  | master (call : MasterCall)
  | personal (userId : Int) (call : PersonalCall)

/-! ## Planning -/

/-- The row of the acting user; a request of nobody is not authenticated. -/
def currentUser (s : Store) (userId : Int) : Result CurrentUser := do
  let user ← getE (s.users.get userId) <| .app <|
    authError "INVALID_TOKEN" "유효하지 않은 토큰입니다"
  return { user with id := userId }

theorem currentUser_eq_ok {s : Store} {userId : Int} {user : CurrentUser} :
    currentUser s userId = .ok user ↔ s.users.get userId = some user.toUser ∧ user.id = userId := by
  simp only [currentUser, bind_eq_ok, getE_eq_ok, pure_eq_ok, Except.ok.injEq]
  constructor
  · rintro ⟨u, hu, rfl⟩
    exact ⟨hu, rfl⟩
  · rintro ⟨hu, rfl⟩
    exact ⟨_, hu, rfl⟩

def TripCall.plan (s : Store) (env : Env) (user : CurrentUser) : TripCall → Result Plan
  | .create payload => Trips.createTrip s env user payload
  | .update tripId payload => Trips.updateTrip s env user tripId payload
  | .delete tripId => Trips.deleteTrip s env user tripId
  | .submit tripId => Trips.submitTrip s env user tripId
  | .approve tripId => Trips.approveTrip s env user tripId
  | .reject tripId payload => Trips.rejectTrip s env user tripId payload
  | .reopen tripId => Trips.reopenTrip s env user tripId
  | .complete tripId => Trips.completeTrip s env user tripId

def ExpenseCall.plan (s : Store) (env : Env) (user : CurrentUser) : ExpenseCall → Result Plan
  | .create payload => Expenses.createReport s env user payload
  | .update reportId payload => Expenses.updateReport s env user reportId payload
  | .addItem reportId payload => Expenses.addItem s env user reportId payload
  | .updateItem itemId payload => Expenses.updateItem s env user itemId payload
  | .deleteItem itemId => Expenses.deleteItem s env user itemId
  | .submit reportId => Expenses.submitReport s env user reportId
  | .approve reportId => Expenses.approveReport s env user reportId
  | .reject reportId payload => Expenses.rejectReport s env user reportId payload
  | .reopen reportId => Expenses.reopenReport s env user reportId

def DeskCall.plan (s : Store) (env : Env) (user : CurrentUser) : DeskCall → Result Plan
  | .trip call => call.plan s env user
  | .expense call => call.plan s env user

def AccountCall.plan (sec : Security) (s : Store) (env : Env) : AccountCall → Result Plan
  | .signup payload => Signup.signup sec s env payload
  | .create payload => Admin.Users.createUser sec s env payload
  | .update actorId userId payload => Admin.Users.updateUser s env actorId userId payload
  | .setPassword userId payload => Admin.Users.setPassword sec s env userId payload
  | .approve userId payload => Admin.Users.approveUser s env userId payload
  | .reject userId => Admin.Users.rejectUser s env userId

def CodeCall.plan (s : Store) (env : Env) : CodeCall → Result Plan
  | .createGroup payload => Admin.CodeMaster.createCodeGroup s env payload
  | .updateGroup groupId payload => Admin.CodeMaster.updateCodeGroup s env groupId payload
  | .deleteGroup groupId => Admin.CodeMaster.deleteCodeGroup s env groupId
  | .create groupId payload => Admin.CodeMaster.createCode s env groupId payload
  | .update codeId payload => Admin.CodeMaster.updateCode s env codeId payload
  | .delete codeId => Admin.CodeMaster.deleteCode s env codeId

def MasterCall.plan (s : Store) (env : Env) : MasterCall → Result Plan
  | .createDepartment payload => Admin.Departments.createDepartment s env payload
  | .updateDepartment departmentId payload =>
    Admin.Departments.updateDepartment s env departmentId payload
  | .deleteDepartment departmentId => Admin.Departments.deleteDepartment s env departmentId
  | .createCenter kind payload => Admin.CenterMaster.createCenter s env kind payload
  | .updateCenter kind centerId payload =>
    Admin.CenterMaster.updateCenter s env kind centerId payload
  | .deleteCenter kind centerId => Admin.CenterMaster.deleteCenter s env kind centerId
  | .createCard payload => Admin.Cards.createCard s env payload
  | .updateCard cardId payload => Admin.Cards.updateCard s env cardId payload
  | .deleteCard cardId => Admin.Cards.deleteCard s env cardId

def PersonalCall.plan (sec : Security) (s : Store) (env : Env) (user : CurrentUser) :
    PersonalCall → Result Plan
  | .createKey payload => do
    let (_, plan) ← ApiKeys.createKey sec s env user payload
    return plan
  | .revokeKey keyId => ApiKeys.revokeKey s env user keyId
  | .markRead notificationId => Notifications.markRead s env user notificationId

def Call.plan (sec : Security) (s : Store) (env : Env) : Call → Result Plan
  | .desk userId call => do call.plan s env (← currentUser s userId)
  | .account call => call.plan sec s env
  | .code call => call.plan s env
  | .master call => call.plan s env
  | .personal userId call => do call.plan sec s env (← currentUser s userId)

/-! ## Machines -/

/-- A request is a call with what it reads from its surroundings. -/
structure Request (κ : Type) where
  env : Env
  call : κ

structure DeskRequest where
  env : Env
  userId : Int
  call : DeskCall

def DeskRequest.plan (s : Store) (r : DeskRequest) : Result Plan := do
  r.call.plan s r.env (← currentUser s r.userId)

def desk : Machine Store DeskRequest Plan Fault := ⟨DeskRequest.plan, fun s p => p.commit s⟩

/-- The administration of accounts alone. -/
def accounts (sec : Security) : Machine Store (Request AccountCall) Plan Fault :=
  ⟨fun s r => r.call.plan sec s r.env, fun s p => p.commit s⟩

/-- The administration of codes alone. -/
def codeMaster : Machine Store (Request CodeCall) Plan Fault :=
  ⟨fun s r => r.call.plan s r.env, fun s p => p.commit s⟩

def system (sec : Security) : Machine Store (Request Call) Plan Fault :=
  ⟨fun s r => r.call.plan sec s r.env, fun s p => p.commit s⟩

/-! ## A small office

A store without trips and reports, to instantiate results at: an employee, a manager and an
administrator, the codes and centers a trip and its settlement need, and one card payment. -/

namespace Office

/-- `bcrypt` and `SHA-256` as free functions: a hash that shows its input. -/
def sec : Security where
  hashPassword salt plain := salt ++ "$" ++ plain
  verifyPassword plain hashed := hashed.toList.dropWhile (· ≠ '$') = '$' :: plain.toList
  hashKey raw := "#" ++ raw

def user (email name employeeNo : String) (managerId : Option Int) (role : UserRole) : User :=
  { email, passwordHash := "s$" ++ email, name, employeeNo := some employeeNo, departmentId := 1
    positionCode := some "STAFF", managerId, role, status := .active, isActive := true }

def codes : List (String × String) :=
  [("TRIP_PURPOSE", "MEETING"), ("DESTINATION_TYPE", "DOMESTIC"), ("COUNTRY", "KR"),
    ("EXPENSE_CATEGORY", "MEAL"), ("POSITION", "STAFF")]

def store : Store :=
  { Store.empty with
    users := .ofRows
      [user "kim@sk.com" "Kim" "E1" (some 2) .employee, user "lee@sk.com" "Lee" "E2" none .manager,
        user "park@sk.com" "Park" "E3" none .admin]
    departments := .ofRows [⟨"D1", "Sales", none⟩]
    codeGroups := .ofRows (codes.map fun p => ⟨p.1, p.1, none, true⟩)
    codes := .ofRows (codes.zipIdx.map fun p =>
      ⟨p.2 + 1, p.1.2, p.1.2, 0, true, .object .nil⟩)
    fundCenters := .ofRows [⟨"F1", "Fund", none, true⟩]
    costCenters := .ofRows [⟨"C1", "Cost", none, true⟩]
    cards := .ofRows [⟨1, "1234-****", "VISA", true⟩]
    transactions := .ofRows
      [⟨1, 0, "Diner", "MEAL", ⟨1000000, by decide⟩, "KRW", ⟨1000000, by decide⟩, false⟩] }

def day (n : Nat) (h : 1 ≤ n ∧ n ≤ 3652059 := by decide) : Date := ⟨n, h⟩

def env : Env :=
  { now := 0, txnNow := 0, today := day 739900, utcToday := day 739900, salt := "s"
    tokenHex := "0" }

def trip : TripCreate :=
  { title := ⟨"Visit", by decide⟩, purposeCode := ⟨"MEETING", by decide⟩
    purposeDetail := ⟨"Talks", by decide⟩, destinationTypeCode := ⟨"DOMESTIC", by decide⟩
    countryCode := ⟨"KR", by decide⟩, city := ⟨"Seoul", by decide⟩
    startDate := day 739800, endDate := day 739801 }

def ask (userId : Int) (call : DeskCall) : DeskRequest := ⟨env, userId, call⟩

/-- Kim's trip `n` from its application to its completion. -/
def tripDone (n : Int) : List DeskRequest :=
  [ask 1 (.trip (.create trip)), ask 1 (.trip (.submit n)), ask 2 (.trip (.approve n)),
    ask 1 (.trip (.complete n))]

def centers : ExpenseReportUpdate :=
  { fundCenterCode := .value ⟨"F1", by decide⟩, costCenterCode := .value ⟨"C1", by decide⟩ }

/-- The card payment, as an item. -/
def meal : ExpenseItemCreate :=
  { cardTransactionId := some 1, expenseCategoryCode := ⟨"MEAL", by decide⟩ }

/-- A meal of 5000 won, paid in cash. -/
def cashMeal : ExpenseItemCreate :=
  { expenseCategoryCode := ⟨"MEAL", by decide⟩, amountKrw := some ⟨5000, 0⟩ }

/-- Report `n` on trip `n`, with the card payment, up to its submission. -/
def reportSubmitted (n : Int) : List DeskRequest :=
  [ask 1 (.expense (.create ⟨n⟩)), ask 1 (.expense (.update n centers)),
    ask 1 (.expense (.addItem n meal)), ask 1 (.expense (.submit n))]

/-- Choi's application for an account. -/
def application : SignupRequest :=
  { email := ⟨"choi@sk.com", by decide⟩, password := ⟨"password", by decide⟩
    name := ⟨"Choi", by decide⟩, departmentId := 1 }

/-- What Choi's account is approved with. -/
def employment : UserApprove :=
  { employeeNo := ⟨"E4", by decide⟩, positionCode := ⟨"STAFF", by decide⟩ }

end Office

end Biztrip
