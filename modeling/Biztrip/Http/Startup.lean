import Mathlib.Data.List.Dedup
import Mathlib.Data.List.Sort
import Biztrip.Http.Routes
import Biztrip.Lib.Worklist

/-!
# The start-up guard

`_authenticated_routes` and `assert_scope_table_complete` of
`app/services/api_scopes.py`, for any application: which routes go through
`get_principal`, at whatever depth of their dependencies, and whether the scope table
has exactly these. `accepts_application` is the check of the application itself.
-/

namespace Biztrip.Http

open Biztrip.Lib

/-! ## Applications -/

/-- FastAPI's `Dependant`: a callable, or none, and what it depends on. -/
abbrev Dependant (κ : Type) := Rose (Option κ)

/-- FastAPI keeps the methods of an `APIRoute` in upper case. -/
structure Method where
  val : String
  upper : val.toUpper = val
  deriving DecidableEq

/-- What `iter_route_contexts` yields for a route. -/
inductive RouteContext (κ : Type) where
  | api (path : String) (methods : List Method) (dependant : Dependant κ)
  /-- No `APIRoute`: a mount, a page of the documentation, a websocket. -/
  | other

section
variable {κ : Type} [DecidableEq κ]

/-- The callables below a route, collected with a stack. -/
def calls (dependant : Dependant κ) : List κ :=
  Rose.drain (fun calls (call : Option κ) => call.elim calls (calls.insert ·)) []
    dependant.children.reverse

def authenticated (principal : κ) : RouteContext κ → List (String × String)
  | .other => []
  | .api path methods dependant =>
    if principal ∉ calls dependant then []
    else (methods.filter fun m => m.val ∉ ["HEAD", "OPTIONS"]).map fun m => (m.val, path)

/-- `_authenticated_routes`, where `principal` is `get_principal`. -/
def authenticatedRoutes (principal : κ) (app : List (RouteContext κ)) : List (String × String) :=
  app.flatMap (authenticated principal)

end

/-- The `RuntimeError` of the guard, by the routes its message lists. -/
structure ScopeMismatch where
  missing : List String
  extra : List String
  deriving DecidableEq, Repr

/-- `sorted` of a set of routes, as the message shows them. -/
def shown (routes : List (String × String)) : List String :=
  (routes.dedup.map fun k => s!"{k.1} {k.2}").insertionSort fun a b => a ≤ b

abbrev ScopeTable := List ((String × String) × Option ApiKeyScope)

def assertScopeTableComplete {κ : Type} [DecidableEq κ] (principal : κ)
    (app : List (RouteContext κ)) (requirements : ScopeTable) : Except ScopeMismatch Unit :=
  let routes := authenticatedRoutes principal app
  let declared := requirements.map Prod.fst
  let missing := routes.filter (· ∉ declared)
  let extra := declared.filter (· ∉ routes)
  guardE (missing = [] ∧ extra = []) ⟨shown missing, shown extra⟩

/-- `required_scope_for` with a given table. -/
def requiredScopeIn (requirements : ScopeTable) (method path : String) :
    Result (Option ApiKeyScope) :=
  getE (requirements.lookup (method.toUpper, path)) <| .app <|
    forbiddenError "SCOPE_UNDECLARED" "이 엔드포인트에 필요한 스코프가 선언되지 않았습니다"

theorem requiredScopeFor_eq : requiredScopeFor = requiredScopeIn scopeRequirements := rfl

/-! ## The guard -/

section
variable {κ : Type} {principal : κ} {app : List (RouteContext κ)} {table : ScopeTable}
  {k : String × String}

/-- A method and path of an API route below which `get_principal` occurs. -/
def Authenticated (principal : κ) (app : List (RouteContext κ)) (k : String × String) : Prop :=
  ∃ methods dependant, .api k.2 methods dependant ∈ app ∧
    (∃ t ∈ dependant.children, t.Occurs (some principal)) ∧
    (∃ m ∈ methods, m.val = k.1) ∧ k.1 ≠ "HEAD" ∧ k.1 ≠ "OPTIONS"

variable [DecidableEq κ]

theorem mem_calls {dependant : Dependant κ} :
    principal ∈ calls dependant ↔ ∃ t ∈ dependant.children, t.Occurs (some principal) := by
  have hvisit : ∀ (calls : List κ) (call : Option κ),
      principal ∈ call.elim calls (calls.insert ·) ↔ principal ∈ calls ∨ call = some principal := by
    intro calls call
    cases call with
    | none => simp
    | some call => simp [List.mem_insert_iff, or_comm, eq_comm]
  rw [calls, Rose.drain_iff (P := fun calls => principal ∈ calls) hvisit]
  simp

theorem mem_authenticatedRoutes :
    k ∈ authenticatedRoutes principal app ↔ Authenticated principal app k := by
  obtain ⟨method, path⟩ := k
  rw [authenticatedRoutes, List.mem_flatMap]
  constructor
  · rintro ⟨context, hcontext, hk⟩
    cases context with
    | other => cases hk
    | api path methods dependant =>
      rw [authenticated] at hk
      split at hk
      · cases hk
      · next hprincipal =>
        obtain ⟨m, hm, hk⟩ := List.mem_map.mp hk
        obtain ⟨hm, hkept⟩ := List.mem_filter.mp hm
        cases hk
        have hkept : m.val ≠ "HEAD" ∧ m.val ≠ "OPTIONS" := by simpa using hkept
        exact ⟨methods, dependant, hcontext, mem_calls.mp (not_not.mp hprincipal), ⟨m, hm, rfl⟩,
          hkept⟩
  · rintro ⟨methods, dependant, hcontext, hprincipal, ⟨m, hm, rfl⟩, hhead, hoptions⟩
    refine ⟨_, hcontext, ?_⟩
    rw [authenticated, if_neg (not_not.mpr (mem_calls.mpr hprincipal)), List.mem_map]
    exact ⟨m, List.mem_filter.mpr ⟨hm, by simpa using ⟨hhead, hoptions⟩⟩, rfl⟩

/-- It accepts if and only if the keys of the table are the authenticated routes. -/
theorem assertScopeTableComplete_eq_ok : assertScopeTableComplete principal app table = .ok () ↔
    ∀ k, k ∈ table.map Prod.fst ↔ Authenticated principal app k := by
  simp only [assertScopeTableComplete, guardE_eq_ok, List.filter_eq_nil_iff, decide_eq_true_eq,
    not_not]
  constructor
  · rintro ⟨hmissing, hextra⟩ k
    rw [← mem_authenticatedRoutes]
    exact ⟨hextra k, hmissing k⟩
  · intro h
    exact ⟨fun k hk => (h k).mpr (mem_authenticatedRoutes.mp hk),
      fun k hk => mem_authenticatedRoutes.mpr ((h k).mp hk)⟩

theorem exists_requiredScopeIn {method path : String} (hupper : method.toUpper = method)
    (h : (method, path) ∈ table.map Prod.fst) :
    ∃ scope, requiredScopeIn table method path = .ok scope := by
  obtain ⟨⟨_, scope⟩, hmem, rfl⟩ := List.mem_map.mp h
  rcases hl : table.lookup (method, path) with _ | scope'
  · have hno := List.lookup_eq_none_iff.mp hl _ hmem
    simp at hno
  · exact ⟨scope', by rw [requiredScopeIn, hupper, getE_eq_ok, hl]⟩

/-- For every application and every scope table: the guard accepts if and only if the keys of the
table are the methods and paths of the routes that go through `get_principal` at any depth, `HEAD`
and `OPTIONS` apart; and then no such route is undeclared, and no entry of the table is of another
route. -/
theorem start_up_guard_exact (principal : κ) (app : List (RouteContext κ)) (table : ScopeTable) :
    (assertScopeTableComplete principal app table = .ok () ↔
      ∀ k, k ∈ table.map Prod.fst ↔ Authenticated principal app k) ∧
    (assertScopeTableComplete principal app table = .ok () →
      (∀ method path, Authenticated principal app (method, path) →
        ∃ scope, requiredScopeIn table method path = .ok scope) ∧
      ∀ entry ∈ table, Authenticated principal app entry.1) := by
  refine ⟨assertScopeTableComplete_eq_ok, fun hok => ?_⟩
  have hkeys := assertScopeTableComplete_eq_ok.mp hok
  refine ⟨fun method path h => ?_, fun entry hentry => ?_⟩
  · have hmem := (hkeys _).mpr h
    obtain ⟨-, -, -, -, ⟨m, -, rfl⟩, -⟩ := h
    exact exists_requiredScopeIn m.upper hmem
  · exact (hkeys _).mp (List.mem_map_of_mem hentry)

end

/-! ## The application itself -/

inductive Callable where
  | endpoint
  | getDb
  | getPrincipal
  | getJwtPrincipal
  | roleChecker
  | requireJwtAdmin
  deriving DecidableEq, Repr

def Callable.needs (call : Callable) (dependencies : List (Dependant Callable)) :
    Dependant Callable :=
  .node (some call) dependencies

def dbNode : Dependant Callable := Callable.getDb.needs []

def principalNode : Dependant Callable := Callable.getPrincipal.needs [dbNode]

def Access.dependant : Access → Dependant Callable
  | .currentUser => principalNode
  | .jwtOnlyUser => Callable.getJwtPrincipal.needs [principalNode]
  | .adminUser => Callable.roleChecker.needs [principalNode]
  | .jwtOnlyAdmin => Callable.requireJwtAdmin.needs [Callable.roleChecker.needs [principalNode]]

/-- `get_principal` stands below every kind of access. -/
theorem Access.occurs (access : Access) : access.dependant.Occurs (some .getPrincipal) := by
  have hself : principalNode.Occurs (some .getPrincipal) := .root
  cases access with
  | currentUser => exact hself
  | jwtOnlyUser | adminUser => exact .inner List.mem_cons_self hself
  | jwtOnlyAdmin => exact .inner List.mem_cons_self (.inner List.mem_cons_self hself)

theorem Endpoint.method_mem (e : Endpoint) :
    e.route.method ∈ ["GET", "POST", "PATCH", "DELETE"] := by
  cases e with
  | read target =>
    cases target with
    | adminCenters kind => cases kind <;> decide
    | _ => decide
  | createCenter kind | updateCenter kind | deleteCenter kind => cases kind <;> decide
  | _ => decide

theorem Endpoint.method_upper (e : Endpoint) : e.route.method.toUpper = e.route.method := by
  have hall : ∀ m ∈ ["GET", "POST", "PATCH", "DELETE"], m.toUpper = m := by decide +kernel
  exact hall _ e.method_mem

def Endpoint.context (e : Endpoint) : RouteContext Callable :=
  .api e.route.path [⟨e.route.method, e.method_upper⟩]
    (Callable.endpoint.needs [e.route.access.dependant, dbNode])

def Method.get : Method := ⟨"GET", by decide +kernel⟩

def Method.post : Method := ⟨"POST", by decide +kernel⟩

/-- The routes that do not authenticate, and the pages of the documentation. -/
def openContexts : List (RouteContext Callable) :=
  [.other, .api "/api/v1/auth/login" [.post] (Callable.endpoint.needs [dbNode]),
    .api "/api/v1/auth/departments" [.get] (Callable.endpoint.needs [dbNode]),
    .api "/api/v1/auth/signup" [.post] (Callable.endpoint.needs [dbNode]),
    .api "/api/v1/health" [.get] (Callable.endpoint.needs []),
    .api "/api/v1/health/db" [.get] (Callable.endpoint.needs [])]

/-- None of them goes through `get_principal`. -/
theorem not_occurs_of_open {path : String} {methods : List Method}
    {dependant t : Dependant Callable}
    (h : .api path methods dependant ∈ openContexts) (ht : t ∈ dependant.children) :
    ¬ t.Occurs (some .getPrincipal) := by
  have hdb : t = dbNode := by
    simp only [openContexts, List.mem_cons, reduceCtorEq, RouteContext.api.injEq, List.not_mem_nil,
      or_false, false_or] at h
    rcases h with ⟨-, -, rfl⟩ | ⟨-, -, rfl⟩ | ⟨-, -, rfl⟩ | ⟨-, -, rfl⟩ | ⟨-, -, rfl⟩ <;>
      simp_all [Callable.needs, Rose.children]
  simp [hdb, dbNode, Callable.needs, Rose.occurs_node_iff]

/-- All endpoints, in the order of the scope table. -/
def Endpoint.all : List Endpoint :=
  [.read .me, .read .listCodeGroups, .read .getCodeGroup, .read .listFundCenters,
    .read .listCostCenters, .read .listApiKeys, .createApiKey, .revokeApiKey, .read .listScopes,
    .read .listNotifications, .markRead, .read .listTrips, .createTrip, .read .getTrip, .updateTrip,
    .deleteTrip, .submitTrip, .approveTrip, .rejectTrip, .reopenTrip, .completeTrip,
    .read .getTimeline, .read .listCards, .read .listCardTransactions, .read .listExpenses,
    .createReport, .read .getExpense, .updateReport, .read .listMatchCandidates,
    .read .getExpenseTimeline, .addItem, .updateItem, .deleteItem, .submitReport, .approveReport,
    .rejectReport, .reopenReport, .read .adminDepartments, .createDepartment, .updateDepartment,
    .deleteDepartment, .read .adminCodeGroups, .createCodeGroup, .updateCodeGroup,
    .deleteCodeGroup, .createCode, .updateCode, .deleteCode, .read (.adminCenters .fund),
    .createCenter .fund, .updateCenter .fund, .deleteCenter .fund, .read (.adminCenters .cost),
    .createCenter .cost, .updateCenter .cost, .deleteCenter .cost, .read .adminUsers, .createUser,
    .read .adminUser, .updateUser, .setPassword, .approveUser, .rejectUser, .read .adminCards,
    .createCard, .updateCard, .deleteCard]

theorem Endpoint.all_routes :
    scopeRequirements.map Prod.fst = all.map fun e => (e.route.method, e.route.path) := rfl

theorem Endpoint.mem_all (e : Endpoint) : e ∈ all := by
  cases e with
  | read target =>
    cases target with
    | adminCenters kind => cases kind <;> decide
    | _ => decide
  | createCenter kind | updateCenter kind | deleteCenter kind => cases kind <;> decide
  | _ => decide

/-- No route behind `get_principal` is missing from the scope table. -/
theorem Endpoint.scope_declared (e : Endpoint) :
    ∃ scope, requiredScopeFor e.route.method e.route.path = .ok scope := by
  rw [requiredScopeFor_eq]
  refine exists_requiredScopeIn e.method_upper ?_
  rw [all_routes]
  exact List.mem_map_of_mem e.mem_all

def application : List (RouteContext Callable) :=
  openContexts ++ Endpoint.all.map Endpoint.context

/-- `app.main` starts: its scope table has exactly its authenticated routes. -/
theorem accepts_application :
    assertScopeTableComplete .getPrincipal application scopeRequirements = .ok () := by
  refine assertScopeTableComplete_eq_ok.mpr fun (method, path) => ?_
  rw [Endpoint.all_routes, List.mem_map]
  constructor
  · rintro ⟨e, he, hk⟩
    cases hk
    have hmethod : ∀ m ∈ ["GET", "POST", "PATCH", "DELETE"], m ≠ "HEAD" ∧ m ≠ "OPTIONS" := by decide
    refine ⟨_, _, List.mem_append_right _ (List.mem_map_of_mem he), ?_, ?_, hmethod _ e.method_mem⟩
    · exact ⟨_, List.mem_cons_self, e.route.access.occurs⟩
    · exact ⟨_, List.mem_cons_self, rfl⟩
  · rintro ⟨methods, dependant, hcontext, ⟨t, ht, hoccurs⟩, ⟨m, hm, hk⟩, -⟩
    rcases List.mem_append.mp hcontext with hopen | hcontext
    · exact absurd hoccurs (not_occurs_of_open hopen ht)
    · obtain ⟨e, he, hcontext⟩ := List.mem_map.mp hcontext
      cases hcontext
      obtain rfl := List.mem_singleton.mp hm
      exact ⟨e, he, Prod.ext hk rfl⟩

end Biztrip.Http
