import Biztrip.Http.Deps

/-!
# Routes

`app/routers`: the routes behind `get_principal` with the dependency each declares
(`Endpoint.route`), and what can be asked of them (`Operation`). What a `GET` route
shows depends on its query, which plays no role here.
-/

namespace Biztrip.Http

open Biztrip.Lib

/-- The `GET` routes. -/
inductive Read where
  | me
  | listCodeGroups
  | getCodeGroup
  | listFundCenters
  | listCostCenters
  | listApiKeys
  | listScopes
  | listNotifications
  | listTrips
  | getTrip
  | getTimeline
  | listCards
  | listCardTransactions
  | listExpenses
  | getExpense
  | listMatchCandidates
  | getExpenseTimeline
  | adminDepartments
  | adminCodeGroups
  | adminCenters (kind : CenterKind)
  | adminUsers
  | adminUser
  | adminCards
  deriving DecidableEq, Repr

inductive Endpoint where
  | read (target : Read)
  | createApiKey
  | revokeApiKey
  | markRead
  | createTrip
  | updateTrip
  | deleteTrip
  | submitTrip
  | approveTrip
  | rejectTrip
  | reopenTrip
  | completeTrip
  | createReport
  | updateReport
  | addItem
  | updateItem
  | deleteItem
  | submitReport
  | approveReport
  | rejectReport
  | reopenReport
  | createDepartment
  | updateDepartment
  | deleteDepartment
  | createCodeGroup
  | updateCodeGroup
  | deleteCodeGroup
  | createCode
  | updateCode
  | deleteCode
  | createCenter (kind : CenterKind)
  | updateCenter (kind : CenterKind)
  | deleteCenter (kind : CenterKind)
  | createUser
  | updateUser
  | setPassword
  | approveUser
  | rejectUser
  | createCard
  | updateCard
  | deleteCard
  deriving DecidableEq, Repr

structure Route where
  method : String
  path : String
  access : Access := .currentUser
  deriving DecidableEq

def Read.route : Read → Route
  | .me => ⟨"GET", "/api/v1/auth/me", .currentUser⟩
  | .listCodeGroups => ⟨"GET", "/api/v1/codes", .currentUser⟩
  | .getCodeGroup => ⟨"GET", "/api/v1/codes/{group_code}", .currentUser⟩
  | .listFundCenters => ⟨"GET", "/api/v1/fund-centers", .currentUser⟩
  | .listCostCenters => ⟨"GET", "/api/v1/cost-centers", .currentUser⟩
  | .listApiKeys => ⟨"GET", "/api/v1/api-keys", .jwtOnlyUser⟩
  | .listScopes => ⟨"GET", "/api/v1/scopes", .currentUser⟩
  | .listNotifications => ⟨"GET", "/api/v1/notifications", .currentUser⟩
  | .listTrips => ⟨"GET", "/api/v1/trips", .currentUser⟩
  | .getTrip => ⟨"GET", "/api/v1/trips/{trip_id}", .currentUser⟩
  | .getTimeline => ⟨"GET", "/api/v1/trips/{trip_id}/timeline", .currentUser⟩
  | .listCards => ⟨"GET", "/api/v1/cards", .currentUser⟩
  | .listCardTransactions => ⟨"GET", "/api/v1/card-transactions", .currentUser⟩
  | .listExpenses => ⟨"GET", "/api/v1/expenses", .currentUser⟩
  | .getExpense => ⟨"GET", "/api/v1/expenses/{report_id}", .currentUser⟩
  | .listMatchCandidates => ⟨"GET", "/api/v1/expenses/{report_id}/match-candidates", .currentUser⟩
  | .getExpenseTimeline => ⟨"GET", "/api/v1/expenses/{report_id}/timeline", .currentUser⟩
  | .adminDepartments => ⟨"GET", "/api/v1/admin/departments", .adminUser⟩
  | .adminCodeGroups => ⟨"GET", "/api/v1/admin/code-groups", .adminUser⟩
  | .adminCenters .fund => ⟨"GET", "/api/v1/admin/fund-centers", .adminUser⟩
  | .adminCenters .cost => ⟨"GET", "/api/v1/admin/cost-centers", .adminUser⟩
  | .adminUsers => ⟨"GET", "/api/v1/admin/users", .adminUser⟩
  | .adminUser => ⟨"GET", "/api/v1/admin/users/{user_id}", .adminUser⟩
  | .adminCards => ⟨"GET", "/api/v1/admin/cards", .adminUser⟩

/-- Keys and passwords are managed from a login session only. -/
def Endpoint.route : Endpoint → Route
  | .read target => target.route
  | .createApiKey => ⟨"POST", "/api/v1/api-keys", .jwtOnlyUser⟩
  | .revokeApiKey => ⟨"POST", "/api/v1/api-keys/{key_id}/revoke", .jwtOnlyUser⟩
  | .markRead => ⟨"POST", "/api/v1/notifications/{notification_id}/read", .currentUser⟩
  | .createTrip => ⟨"POST", "/api/v1/trips", .currentUser⟩
  | .updateTrip => ⟨"PATCH", "/api/v1/trips/{trip_id}", .currentUser⟩
  | .deleteTrip => ⟨"DELETE", "/api/v1/trips/{trip_id}", .currentUser⟩
  | .submitTrip => ⟨"POST", "/api/v1/trips/{trip_id}/submit", .currentUser⟩
  | .approveTrip => ⟨"POST", "/api/v1/trips/{trip_id}/approve", .currentUser⟩
  | .rejectTrip => ⟨"POST", "/api/v1/trips/{trip_id}/reject", .currentUser⟩
  | .reopenTrip => ⟨"POST", "/api/v1/trips/{trip_id}/reopen", .currentUser⟩
  | .completeTrip => ⟨"POST", "/api/v1/trips/{trip_id}/complete", .currentUser⟩
  | .createReport => ⟨"POST", "/api/v1/expenses", .currentUser⟩
  | .updateReport => ⟨"PATCH", "/api/v1/expenses/{report_id}", .currentUser⟩
  | .addItem => ⟨"POST", "/api/v1/expenses/{report_id}/items", .currentUser⟩
  | .updateItem => ⟨"PATCH", "/api/v1/expense-items/{item_id}", .currentUser⟩
  | .deleteItem => ⟨"DELETE", "/api/v1/expense-items/{item_id}", .currentUser⟩
  | .submitReport => ⟨"POST", "/api/v1/expenses/{report_id}/submit", .currentUser⟩
  | .approveReport => ⟨"POST", "/api/v1/expenses/{report_id}/approve", .currentUser⟩
  | .rejectReport => ⟨"POST", "/api/v1/expenses/{report_id}/reject", .currentUser⟩
  | .reopenReport => ⟨"POST", "/api/v1/expenses/{report_id}/reopen", .currentUser⟩
  | .createDepartment => ⟨"POST", "/api/v1/admin/departments", .adminUser⟩
  | .updateDepartment => ⟨"PATCH", "/api/v1/admin/departments/{department_id}", .adminUser⟩
  | .deleteDepartment => ⟨"DELETE", "/api/v1/admin/departments/{department_id}", .adminUser⟩
  | .createCodeGroup => ⟨"POST", "/api/v1/admin/code-groups", .adminUser⟩
  | .updateCodeGroup => ⟨"PATCH", "/api/v1/admin/code-groups/{group_id}", .adminUser⟩
  | .deleteCodeGroup => ⟨"DELETE", "/api/v1/admin/code-groups/{group_id}", .adminUser⟩
  | .createCode => ⟨"POST", "/api/v1/admin/code-groups/{group_id}/codes", .adminUser⟩
  | .updateCode => ⟨"PATCH", "/api/v1/admin/codes/{code_id}", .adminUser⟩
  | .deleteCode => ⟨"DELETE", "/api/v1/admin/codes/{code_id}", .adminUser⟩
  | .createCenter .fund => ⟨"POST", "/api/v1/admin/fund-centers", .adminUser⟩
  | .createCenter .cost => ⟨"POST", "/api/v1/admin/cost-centers", .adminUser⟩
  | .updateCenter .fund => ⟨"PATCH", "/api/v1/admin/fund-centers/{center_id}", .adminUser⟩
  | .updateCenter .cost => ⟨"PATCH", "/api/v1/admin/cost-centers/{center_id}", .adminUser⟩
  | .deleteCenter .fund => ⟨"DELETE", "/api/v1/admin/fund-centers/{center_id}", .adminUser⟩
  | .deleteCenter .cost => ⟨"DELETE", "/api/v1/admin/cost-centers/{center_id}", .adminUser⟩
  | .createUser => ⟨"POST", "/api/v1/admin/users", .adminUser⟩
  | .updateUser => ⟨"PATCH", "/api/v1/admin/users/{user_id}", .adminUser⟩
  | .setPassword => ⟨"POST", "/api/v1/admin/users/{user_id}/password", .jwtOnlyAdmin⟩
  | .approveUser => ⟨"POST", "/api/v1/admin/users/{user_id}/approve", .adminUser⟩
  | .rejectUser => ⟨"POST", "/api/v1/admin/users/{user_id}/reject", .adminUser⟩
  | .createCard => ⟨"POST", "/api/v1/admin/cards", .adminUser⟩
  | .updateCard => ⟨"PATCH", "/api/v1/admin/cards/{card_id}", .adminUser⟩
  | .deleteCard => ⟨"DELETE", "/api/v1/admin/cards/{card_id}", .adminUser⟩

/-! ## Operations -/

inductive UserCall where
  | create (payload : AdminUserCreate)
  | update (userId : Int) (payload : AdminUserUpdate)
  | setPassword (userId : Int) (payload : PasswordSet)
  | approve (userId : Int) (payload : UserApprove)
  | reject (userId : Int)

inductive Operation where
  | read (target : Read)
  | personal (call : PersonalCall)
  | trip (call : TripCall)
  | expense (call : ExpenseCall)
  | code (call : CodeCall)
  | master (call : MasterCall)
  | user (call : UserCall)

def Operation.endpoint : Operation → Endpoint
  | .read target => .read target
  | .personal (.createKey _) => .createApiKey
  | .personal (.revokeKey _) => .revokeApiKey
  | .personal (.markRead _) => .markRead
  | .trip (.create _) => .createTrip
  | .trip (.update _ _) => .updateTrip
  | .trip (.delete _) => .deleteTrip
  | .trip (.submit _) => .submitTrip
  | .trip (.approve _) => .approveTrip
  | .trip (.reject _ _) => .rejectTrip
  | .trip (.reopen _) => .reopenTrip
  | .trip (.complete _) => .completeTrip
  | .expense (.create _) => .createReport
  | .expense (.update _ _) => .updateReport
  | .expense (.addItem _ _) => .addItem
  | .expense (.updateItem _ _) => .updateItem
  | .expense (.deleteItem _) => .deleteItem
  | .expense (.submit _) => .submitReport
  | .expense (.approve _) => .approveReport
  | .expense (.reject _ _) => .rejectReport
  | .expense (.reopen _) => .reopenReport
  | .code (.createGroup _) => .createCodeGroup
  | .code (.updateGroup _ _) => .updateCodeGroup
  | .code (.deleteGroup _) => .deleteCodeGroup
  | .code (.create _ _) => .createCode
  | .code (.update _ _) => .updateCode
  | .code (.delete _) => .deleteCode
  | .master (.createDepartment _) => .createDepartment
  | .master (.updateDepartment _ _) => .updateDepartment
  | .master (.deleteDepartment _) => .deleteDepartment
  | .master (.createCenter kind _) => .createCenter kind
  | .master (.updateCenter kind _ _) => .updateCenter kind
  | .master (.deleteCenter kind _) => .deleteCenter kind
  | .master (.createCard _) => .createCard
  | .master (.updateCard _ _) => .updateCard
  | .master (.deleteCard _) => .deleteCard
  | .user (.create _) => .createUser
  | .user (.update _ _) => .updateUser
  | .user (.setPassword _ _) => .setPassword
  | .user (.approve _ _) => .approveUser
  | .user (.reject _) => .rejectUser

def UserCall.call (actorId : Int) : UserCall → AccountCall
  | .create payload => .create payload
  | .update userId payload => .update actorId userId payload
  | .setPassword userId payload => .setPassword userId payload
  | .approve userId payload => .approve userId payload
  | .reject userId => .reject userId

/-- What an operation asks of the services, on behalf of `userId`. A read changes nothing. -/
def Operation.call (userId : Int) : Operation → Option Call
  | .read _ => none
  | .personal call => some (.personal userId call)
  | .trip call => some (.desk userId (.trip call))
  | .expense call => some (.desk userId (.expense call))
  | .code call => some (.code call)
  | .master call => some (.master call)
  | .user call => some (.account (call.call userId))

end Biztrip.Http
