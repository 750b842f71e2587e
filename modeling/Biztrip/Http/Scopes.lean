import Biztrip.Model.Basic

/-!
# Scopes

`app/services/api_scopes.py`: the one table that says which scope a key needs
for a route. A route that is not in the table is refused.
-/

namespace Biztrip.Http

open Biztrip.Lib

/-- `SCOPE_REQUIREMENTS`, by method and route path. Where there is no scope, any key will do. -/
def scopeRequirements : List ((String × String) × Option ApiKeyScope) :=
  [(("GET", "/api/v1/auth/me"), none),
    (("GET", "/api/v1/codes"), none),
    (("GET", "/api/v1/codes/{group_code}"), none),
    (("GET", "/api/v1/fund-centers"), none),
    (("GET", "/api/v1/cost-centers"), none),
    (("GET", "/api/v1/api-keys"), none),
    (("POST", "/api/v1/api-keys"), none),
    (("POST", "/api/v1/api-keys/{key_id}/revoke"), none),
    (("GET", "/api/v1/scopes"), none),
    (("GET", "/api/v1/notifications"), none),
    (("POST", "/api/v1/notifications/{notification_id}/read"), none),
    (("GET", "/api/v1/trips"), some .tripsRead),
    (("POST", "/api/v1/trips"), some .tripsWrite),
    (("GET", "/api/v1/trips/{trip_id}"), some .tripsRead),
    (("PATCH", "/api/v1/trips/{trip_id}"), some .tripsWrite),
    (("DELETE", "/api/v1/trips/{trip_id}"), some .tripsWrite),
    (("POST", "/api/v1/trips/{trip_id}/submit"), some .tripsWrite),
    (("POST", "/api/v1/trips/{trip_id}/approve"), some .tripsWrite),
    (("POST", "/api/v1/trips/{trip_id}/reject"), some .tripsWrite),
    (("POST", "/api/v1/trips/{trip_id}/reopen"), some .tripsWrite),
    (("POST", "/api/v1/trips/{trip_id}/complete"), some .tripsWrite),
    (("GET", "/api/v1/trips/{trip_id}/timeline"), some .tripsRead),
    (("GET", "/api/v1/cards"), some .cardsRead),
    (("GET", "/api/v1/card-transactions"), some .cardsRead),
    (("GET", "/api/v1/expenses"), some .expensesRead),
    (("POST", "/api/v1/expenses"), some .expensesWrite),
    (("GET", "/api/v1/expenses/{report_id}"), some .expensesRead),
    (("PATCH", "/api/v1/expenses/{report_id}"), some .expensesWrite),
    (("GET", "/api/v1/expenses/{report_id}/match-candidates"), some .expensesRead),
    (("GET", "/api/v1/expenses/{report_id}/timeline"), some .expensesRead),
    (("POST", "/api/v1/expenses/{report_id}/items"), some .expensesWrite),
    (("PATCH", "/api/v1/expense-items/{item_id}"), some .expensesWrite),
    (("DELETE", "/api/v1/expense-items/{item_id}"), some .expensesWrite),
    (("POST", "/api/v1/expenses/{report_id}/submit"), some .expensesWrite),
    (("POST", "/api/v1/expenses/{report_id}/approve"), some .expensesWrite),
    (("POST", "/api/v1/expenses/{report_id}/reject"), some .expensesWrite),
    (("POST", "/api/v1/expenses/{report_id}/reopen"), some .expensesWrite),
    (("GET", "/api/v1/admin/departments"), some .admin),
    (("POST", "/api/v1/admin/departments"), some .admin),
    (("PATCH", "/api/v1/admin/departments/{department_id}"), some .admin),
    (("DELETE", "/api/v1/admin/departments/{department_id}"), some .admin),
    (("GET", "/api/v1/admin/code-groups"), some .admin),
    (("POST", "/api/v1/admin/code-groups"), some .admin),
    (("PATCH", "/api/v1/admin/code-groups/{group_id}"), some .admin),
    (("DELETE", "/api/v1/admin/code-groups/{group_id}"), some .admin),
    (("POST", "/api/v1/admin/code-groups/{group_id}/codes"), some .admin),
    (("PATCH", "/api/v1/admin/codes/{code_id}"), some .admin),
    (("DELETE", "/api/v1/admin/codes/{code_id}"), some .admin),
    (("GET", "/api/v1/admin/fund-centers"), some .admin),
    (("POST", "/api/v1/admin/fund-centers"), some .admin),
    (("PATCH", "/api/v1/admin/fund-centers/{center_id}"), some .admin),
    (("DELETE", "/api/v1/admin/fund-centers/{center_id}"), some .admin),
    (("GET", "/api/v1/admin/cost-centers"), some .admin),
    (("POST", "/api/v1/admin/cost-centers"), some .admin),
    (("PATCH", "/api/v1/admin/cost-centers/{center_id}"), some .admin),
    (("DELETE", "/api/v1/admin/cost-centers/{center_id}"), some .admin),
    (("GET", "/api/v1/admin/users"), some .admin),
    (("POST", "/api/v1/admin/users"), some .admin),
    (("GET", "/api/v1/admin/users/{user_id}"), some .admin),
    (("PATCH", "/api/v1/admin/users/{user_id}"), some .admin),
    (("POST", "/api/v1/admin/users/{user_id}/password"), some .admin),
    (("POST", "/api/v1/admin/users/{user_id}/approve"), some .admin),
    (("POST", "/api/v1/admin/users/{user_id}/reject"), some .admin),
    (("GET", "/api/v1/admin/cards"), some .admin),
    (("POST", "/api/v1/admin/cards"), some .admin),
    (("PATCH", "/api/v1/admin/cards/{card_id}"), some .admin),
    (("DELETE", "/api/v1/admin/cards/{card_id}"), some .admin)]

def requiredScopeFor (method path : String) : Result (Option ApiKeyScope) :=
  getE (scopeRequirements.lookup (method.toUpper, path)) <| .app <|
    forbiddenError "SCOPE_UNDECLARED" "이 엔드포인트에 필요한 스코프가 선언되지 않았습니다"

end Biztrip.Http
