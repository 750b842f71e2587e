import Mathlib.Tactic.FieldSimp
import Mathlib.Tactic.NormNum
import Biztrip.Rules.Trip

/-!
# Rules of the expense domain

`app/services/expense_rules.py`: the report's transition tables, who may act on
a report, the bounds on amounts and the conditions of a submission.
-/

namespace Biztrip

open Biztrip.Lib

/-! ## Transitions -/

/-- `EXPENSE_ALLOWED_TRANSITIONS`. -/
def expenseAllowedTransitions : ExpenseReportStatus → List ExpenseReportStatus
  | .draft => [.submitted]
  | .submitted => [.approved, .rejected]
  | .rejected => [.draft]
  | .approved => []

/-- `EXPENSE_TRANSITION_ACTOR`. -/
def expenseTransitionActor : ExpenseReportStatus → ExpenseReportStatus → Option TransitionActor
  | .draft, .submitted => some .owner
  | .submitted, .approved => some .approver
  | .submitted, .rejected => some .approver
  | .rejected, .draft => some .owner
  | _, _ => none

/-- The two tables have the same keys, as the module checks when it is imported. -/
theorem mem_expenseAllowedTransitions_iff {current target : ExpenseReportStatus} :
    target ∈ expenseAllowedTransitions current ↔
      (expenseTransitionActor current target).isSome := by
  cases current <;> cases target <;> decide

/-! ## Who may act -/

def canViewReport (userId : Int) (role : UserRole) (ownerId : Int) (approverId : Option Int) :
    Bool :=
  role = .admin || userId = ownerId || approverId = some userId

def assertReportOwner (userId ownerId : Int) : Result Unit :=
  guardE (userId = ownerId) <| .app <|
    forbiddenError "NOT_EXPENSE_OWNER" "본인의 정산서만 처리할 수 있습니다"

def assertReportApprover (userId : Int) (approverId : Option Int) : Result Unit :=
  guardE (approverId = some userId) <| .app <|
    forbiddenError "NOT_EXPENSE_APPROVER" "이 정산서의 결재자가 아닙니다"

/-- Legality first, then the actor. -/
def assertExpenseTransitionAllowed (current target : ExpenseReportStatus) (userId ownerId : Int)
    (approverId : Option Int) : Result Unit := do
  guardE (target ∈ expenseAllowedTransitions current) <| .app <|
    conflictError "EXPENSE_INVALID_TRANSITION"
      s!"{current.value} 상태에서 {target.value} 로 변경할 수 없습니다" none
  match expenseTransitionActor current target with
  | some .owner => assertReportOwner userId ownerId
  | some .approver => assertReportApprover userId approverId
  | some .system =>
    raise (forbiddenError "SYSTEM_TRANSITION_ONLY" "이 전이는 시스템에 의해서만 수행됩니다")
  | none => .error .keyError

/-- Who performs a legal transition. -/
def MayTransitionReport (current target : ExpenseReportStatus) (userId ownerId : Int)
    (approverId : Option Int) : Prop :=
  match expenseTransitionActor current target with
  | some .owner => userId = ownerId
  | some .approver => approverId = some userId
  | _ => False

theorem assertExpenseTransitionAllowed_eq_ok {current target : ExpenseReportStatus}
    {userId ownerId : Int} {approverId : Option Int} {u : Unit} :
    assertExpenseTransitionAllowed current target userId ownerId approverId = .ok u ↔
      MayTransitionReport current target userId ownerId approverId := by
  unfold assertExpenseTransitionAllowed MayTransitionReport raise
  simp only [bind_eq_ok, guardE_eq_ok, mem_expenseAllowedTransitions_iff]
  rcases h : expenseTransitionActor current target with _ | actor
  · simp
  · cases actor <;> simp [assertReportOwner, assertReportApprover]

/-! ## Conditions on the status -/

/-- The statuses in which a report and its items may be edited. -/
def expenseEditableStatuses : List ExpenseReportStatus := [.draft, .rejected]

theorem mem_expenseEditableStatuses {status : ExpenseReportStatus} :
    status ∈ expenseEditableStatuses ↔ status = .draft ∨ status = .rejected := by
  simp [expenseEditableStatuses]

/-- The trip statuses a report may be created in. -/
def reportableTripStatuses : List TripStatus := [.approved, .completed]

theorem mem_reportableTripStatuses {status : TripStatus} :
    status ∈ reportableTripStatuses ↔ status = .approved ∨ status = .completed := by
  simp [reportableTripStatuses]

def assertReportEditable (status : ExpenseReportStatus) : Result Unit :=
  guardE (status ∈ expenseEditableStatuses) <| .app <|
    conflictError "EXPENSE_NOT_EDITABLE" s!"{status.value} 상태의 정산서는 수정할 수 없습니다" none

def assertReportCreatable (tripStatus : TripStatus) : Result Unit :=
  guardE (tripStatus ∈ reportableTripStatuses) <| .app <|
    conflictError "TRIP_NOT_REPORTABLE"
      s!"{tripStatus.value} 상태의 출장에는 정산서를 만들 수 없습니다" none

def assertTripCompleted (tripStatus : TripStatus) : Result Unit :=
  guardE (tripStatus = .completed) <| .app <|
    conflictError "TRIP_NOT_COMPLETED" "출장을 완료 처리한 뒤에 정산서를 제출할 수 있습니다" none

def assertHasItems (itemCount : Nat) : Result Unit :=
  guardE (0 < itemCount) <| .app <|
    conflictError "EXPENSE_NO_ITEMS" "정산 항목이 없어 제출할 수 없습니다" none

/-- A center code that is absent or blank. -/
def blank (code : Option String) : Bool := strip (code.getD "") = ""

def assertCentersPresent (fundCenterCode costCenterCode : Option String) : Result Unit := do
  guardE (blank fundCenterCode = false) <| .app <|
    validationError "CENTER_REQUIRED" "펀드센터를 지정해야 제출할 수 있습니다" (some "fund_center_code")
  guardE (blank costCenterCode = false) <| .app <|
    validationError "CENTER_REQUIRED" "코스트센터를 지정해야 제출할 수 있습니다" (some "cost_center_code")

def effectiveCenter (itemCode reportCode : Option String) : Option String :=
  match itemCode with
  | some c => some c
  | none => reportCode

/-! ## Amounts -/

/-- `MAX_ITEM_AMOUNT`, `9999999999.99`. -/
def maxItemAmount : Decimal := ⟨999999999999, -2⟩

/-- `MAX_REPORT_TOTAL`, `999999999999.99`: the largest value of the column. -/
def maxReportTotal : Decimal := ⟨99999999999999, -2⟩

def assertItemAmount (amount : Decimal) : Result Unit := do
  guardE (¬ amount.toRat < 0) <| .app <|
    validationError "INVALID_AMOUNT" "금액은 0 이상이어야 합니다" (some "amount_krw")
  guardE (¬ maxItemAmount.toRat < amount.toRat) <| .app <|
    validationError "INVALID_AMOUNT" "금액은 9999999999.99를 넘을 수 없습니다" (some "amount_krw")

/-- The total in units of the last digit. -/
def assertReportTotal (total : Int) : Result Unit :=
  guardE (¬ maxReportTotal.coeff < total) <| .app <|
    validationError "TOTAL_AMOUNT_EXCEEDED" "정산 합계는 999999999999.99를 넘을 수 없습니다"
      (some "amount_krw")

/-- The sum of the amounts that are not excluded, in units of the last digit. It is exact: Python
adds up to 28 digits without rounding, and a report has too few items to exceed that. -/
def sumIncluded (amounts : List (Krw × Bool)) : Int :=
  ((amounts.filter fun p => !p.2).map fun p => p.1.units).sum

/-- PostgreSQL's `numeric` and its driver carry at most 16383 digits after the point and 131072
before it. -/
def IsNumeric (d : Decimal) : Prop := -16383 ≤ d.exp ∧ d.exp < 131072

instance (d : Decimal) : Decidable (IsNumeric d) := inferInstanceAs (Decidable (_ ∧ _))

/-- Store an amount into its column, which rounds it to two digits. -/
def storeKrw (column : String) (d : Decimal) : Result Krw := do
  guardE (IsNumeric d) (.dataError column)
  getE (Numeric.store? d.toRat) .numericOverflow

/-- An amount that passed the item bound is stored as a value within the same bound. -/
theorem storeKrw_of_assertItemAmount (column : String) {d : Decimal}
    (h : assertItemAmount d = .ok ()) (hd : IsNumeric d) :
    ∃ x : Krw, storeKrw column d = .ok x ∧ 0 ≤ x.units ∧ x.units ≤ maxItemAmount.coeff := by
  simp only [assertItemAmount, bind_eq_ok, guardE_eq_ok, exists_const, not_lt] at h
  obtain ⟨h0, hmax⟩ := h
  have hmax' : d.toRat * ((10 ^ 2 : Nat) : ℚ) ≤ ((999999999999 : Int) : ℚ) := by
    have : maxItemAmount.toRat = ((999999999999 : Int) : ℚ) / ((10 ^ (1 + 1) : Nat) : ℚ) := rfl
    rw [this] at hmax
    push_cast at hmax ⊢
    linarith
  obtain ⟨x, hx, hx0, hxmax⟩ := Numeric.store?_of_bounds (p := 14) h0 hmax' (by decide)
  exact ⟨x, by simp [storeKrw, hd, guardE, hx, getE], hx0, hxmax⟩

end Biztrip
