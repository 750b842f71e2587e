import Biztrip.Rules.Expense
import Biztrip.Service.Centers
import Biztrip.Service.Trips

/-!
# Expense service

The mutating calls of `app/services/expenses.py`. The three edits of the items
end alike, in `editItems`: the item is flushed, the report's total is summed
again from the items the transaction then sees, and both are written. The four
transitions share `transition`, as those of the trips do.
-/

namespace Biztrip.Expenses

open Biztrip.Lib Codes Centers Trips

def expenseNotFound : AppError := notFoundError "EXPENSE_NOT_FOUND" "정산서를 찾을 수 없습니다"

/-- A report the user may not see is treated as missing. -/
def loadVisibleReport (s : Store) (reportId : Int) (user : CurrentUser) :
    Result ExpenseReport := do
  let report ← sessionGet s.reports reportId
  getE (report.filter fun r => canViewReport user.id user.role r.userId r.approverId)
    (.app expenseNotFound)

theorem loadVisibleReport_eq_ok {s : Store} {reportId : Int} {user : CurrentUser}
    {report : ExpenseReport} : loadVisibleReport s reportId user = .ok report ↔
      IsInt4 reportId ∧ s.reports.get reportId = some report ∧
        canViewReport user.id user.role report.userId report.approverId = true := by
  simp only [loadVisibleReport, bind_eq_ok, sessionGet_eq_ok, getE_eq_ok,
    Option.filter_eq_some_iff]
  constructor
  · rintro ⟨_, ⟨hid, rfl⟩, hget, hview⟩
    exact ⟨hid, hget, hview⟩
  · rintro ⟨hid, hget, hview⟩
    exact ⟨_, ⟨hid, rfl⟩, hget, hview⟩

def createReport (s : Store) (env : Env) (user : CurrentUser) (payload : ExpenseReportCreate) :
    Result Plan := do
  let trip ← loadVisibleTrip s payload.tripId user
  assertTripOwner user.id trip.userId
  assertReportCreatable trip.status
  guardE (Store.referenced s.reports ExpenseReport.tripId payload.tripId = false) <| .app <|
    conflictError "EXPENSE_ALREADY_EXISTS" "이 출장의 정산서가 이미 있습니다" none
  let reportNo ← Numbering.nextReportNo s env.utcToday
  let report : ExpenseReport :=
    { reportNo, tripId := payload.tripId, userId := trip.userId, status := .draft
      -- the cost center is inherited from the trip, which has no fund center
      fundCenterCode := none, costCenterCode := trip.costCenterCode
      totalAmountKrw := Numeric.zero, approverId := trip.approverId, submittedAt := none
      approvedAt := none, rejectReason := none, createdAt := env.txnNow, updatedAt := env.txnNow }
  return {
    now := env.txnNow
    writes := .report (.insert report) :: recordTransition env .expenseReport .inserted
      { actorId := user.id, action := .created, toStatus := some ExpenseReportStatus.draft.value
        memo := some s!"{trip.tripNo} 정산서 작성" } }

/-- The sent center codes, where they are not null. -/
def validateCenters (s : Store) (fundCenterCode costCenterCode : Option String) : Result Unit := do
  checkSome fundCenterCode fun c => assertFundCenter s (some c)
  checkSome costCenterCode fun c => assertCostCenter s (some c)

def loadEditableReport (s : Store) (user : CurrentUser) (reportId : Int) :
    Result ExpenseReport := do
  let report ← loadVisibleReport s reportId user
  assertReportOwner user.id report.userId
  assertReportEditable report.status
  return report

theorem loadEditableReport_eq_ok {s : Store} {user : CurrentUser} {reportId : Int}
    {report : ExpenseReport} : loadEditableReport s user reportId = .ok report ↔
      loadVisibleReport s reportId user = .ok report ∧ user.id = report.userId ∧
        report.status ∈ expenseEditableStatuses := by
  simp only [loadEditableReport, bind_eq_ok, assertReportOwner, assertReportEditable, guardE_eq_ok,
    exists_const, pure_eq_ok, Except.ok.injEq]
  constructor
  · rintro ⟨_, hload, howner, hstatus, rfl⟩
    exact ⟨hload, howner, hstatus⟩
  · rintro ⟨hload, howner, hstatus⟩
    exact ⟨_, hload, howner, hstatus, rfl⟩

def updateReport (s : Store) (env : Env) (user : CurrentUser) (reportId : Int)
    (payload : ExpenseReportUpdate) : Result Plan := do
  let report ← loadEditableReport s user reportId
  let fundCenterCode := payload.fundCenterCode.map Str.val
  let costCenterCode := payload.costCenterCode.map Str.val
  validateCenters s fundCenterCode.val? costCenterCode.val?
  let report' := { report with
    fundCenterCode := fundCenterCode.setNullable report.fundCenterCode
    costCenterCode := costCenterCode.setNullable report.costCenterCode }
  return {
    now := env.txnNow
    writes := .report (.update reportId report report') ::
      recordTransition env .expenseReport (.stored reportId)
        { actorId := user.id, action := .updated, fromStatus := some report.status.value
          toStatus := some report.status.value, memo := some "정산서 헤더 수정" } }

/-! ## Items -/

def itemsOf (s : Store) (reportId : Int) : List (Int × ExpenseItem) :=
  s.items.rows.filter fun p => p.2.reportId = reportId

/-- The exact sum of the report's items that are not excluded. -/
def includedTotal (s : Store) (reportId : Int) : Int :=
  sumIncluded ((itemsOf s reportId).map fun p => (p.2.amountKrw, p.2.isExcluded))

/-- The total to be stored. -/
def recalcTotal (s : Store) (reportId : Int) : Result Krw := do
  let total := includedTotal s reportId
  assertReportTotal total
  getE (Numeric.ofUnits? total) .numericOverflow

def loadItemForEdit (s : Store) (user : CurrentUser) (itemId : Int) :
    Result (ExpenseItem × ExpenseReport) := do
  let item ← sessionGet s.items itemId
  let item ← getE item <| .app <|
    notFoundError "EXPENSE_ITEM_NOT_FOUND" "정산 항목을 찾을 수 없습니다"
  let report ← loadEditableReport s user item.reportId
  return (item, report)

/-- The transaction is on a card of the report's owner, not cancelled, and not in the report. -/
def assertUsableTransaction (s : Store) (report : ExpenseReport) (reportId transactionId : Int) :
    Result CardTransaction := do
  let transaction ← sessionGet s.transactions transactionId
  let usable (t : CardTransaction) : Bool :=
    ((s.cards.get t.cardId).any fun card => card.userId = report.userId) && !t.isCancelled
  let transaction ← getE (transaction.filter usable) <| .app <|
    validationError "INVALID_TRANSACTION" "정산에 사용할 수 없는 카드 거래입니다"
      (some "card_transaction_id")
  guardE (((itemsOf s reportId).any fun p => p.2.cardTransactionId = some transactionId) = false) <|
    .app <| conflictError "EXPENSE_ITEM_DUPLICATE" "이미 담은 카드 거래입니다" none
  return transaction

theorem assertUsableTransaction_eq_ok {s : Store} {report : ExpenseReport} {reportId x : Int}
    {t : CardTransaction} : assertUsableTransaction s report reportId x = .ok t ↔ IsInt4 x ∧
      s.transactions.get x = some t ∧
      (∃ card, s.cards.get t.cardId = some card ∧ card.userId = report.userId) ∧
      t.isCancelled = false ∧
      ∀ k it, s.items.get k = some it → it.reportId = reportId → it.cardTransactionId ≠ some x := by
  have hlinked : ((itemsOf s reportId).any fun p => p.2.cardTransactionId = some x) = false ↔
      ∀ k it, s.items.get k = some it → it.reportId = reportId → it.cardTransactionId ≠ some x := by
    unfold itemsOf
    simp only [List.any_eq_false, List.mem_filter, decide_eq_true_eq, Prod.forall, and_imp,
      Table.mem_rows]
  unfold assertUsableTransaction
  simp only [bind_eq_ok, sessionGet_eq_ok, getE_eq_ok, guardE_eq_ok, exists_const, pure_eq_ok,
    Except.ok.injEq, Option.filter_eq_some_iff, Bool.and_eq_true, Option.any_eq_true,
    decide_eq_true_eq, Bool.not_eq_true', hlinked]
  constructor
  · rintro ⟨_, ⟨hx, rfl⟩, _, ⟨hget, howner, hcancelled⟩, hfree, rfl⟩
    exact ⟨hx, hget, howner, hcancelled, hfree⟩
  · rintro ⟨hx, hget, howner, hcancelled, hfree⟩
    exact ⟨_, ⟨hx, rfl⟩, t, ⟨hget, howner, hcancelled⟩, hfree, rfl⟩

/-- Flush the item, sum again, write both. -/
def editItems (s : Store) (env : Env) (reportId : Int) (report : ExpenseReport)
    (w : RowWrite ExpenseItem) : Result Plan := do
  let flushed ← s.flush env.txnNow (.item w)
  let total ← recalcTotal flushed reportId
  return {
    now := env.txnNow
    writes := [.item w, .report (.update reportId report { report with totalAmountKrw := total })] }

/-- The amount of a new item: as given, else that of the linked transaction. -/
def itemAmount (s : Store) (report : ExpenseReport) (reportId : Int) (payload : ExpenseItemCreate) :
    Result Decimal :=
  match payload.cardTransactionId with
  | some transactionId => do
    let transaction ← assertUsableTransaction s report reportId transactionId
    return payload.amountKrw.getD transaction.amountKrw.toDecimal
  | none =>
    getE payload.amountKrw <| .app <|
      validationError "AMOUNT_REQUIRED" "카드 거래를 연결하지 않으면 금액이 필요합니다"
        (some "amount_krw")

def addItem (s : Store) (env : Env) (user : CurrentUser) (reportId : Int)
    (payload : ExpenseItemCreate) : Result Plan := do
  let report ← loadEditableReport s user reportId
  validateCodes s
    [⟨"EXPENSE_CATEGORY", "expense_category_code", some payload.expenseCategoryCode.val⟩]
  validateCenters s (payload.fundCenterCode.map Str.val) (payload.costCenterCode.map Str.val)
  let amount ← itemAmount s report reportId payload
  assertItemAmount amount
  checkSome payload.memo fun v => text "memo" v.val
  let amountKrw ← storeKrw "amount_krw" amount
  editItems s env reportId report <| .insert
    { reportId, cardTransactionId := payload.cardTransactionId
      expenseCategoryCode := payload.expenseCategoryCode.val, amountKrw
      memo := payload.memo.map Str.val, isExcluded := false
      fundCenterCode := payload.fundCenterCode.map Str.val
      costCenterCode := payload.costCenterCode.map Str.val }

/-- A sent amount is stored, which rounds it; the column admits no null. -/
def assignAmount (cur : Krw) : Sent Decimal → Result Krw
  | .absent => .ok cur
  | .null => .error (.integrity (.notNull "amount_krw"))
  | .value d => storeKrw "amount_krw" d

/-- Write the sent fields over the item, as the flush finds them. -/
def assignItem (item : ExpenseItem) (payload : ExpenseItemUpdate) : Result ExpenseItem := do
  checkSome payload.memo.val? fun v => text "memo" v.val
  let notNull (column : String) : Fault := .integrity (.notNull column)
  let expenseCategoryCode ← (payload.expenseCategoryCode.map Str.val).setRequired
    item.expenseCategoryCode (notNull "expense_category_code")
  let amountKrw ← assignAmount item.amountKrw payload.amountKrw
  let isExcluded ← payload.isExcluded.setRequired item.isExcluded (notNull "is_excluded")
  return { item with
    expenseCategoryCode, amountKrw, isExcluded
    memo := (payload.memo.map Str.val).setNullable item.memo
    fundCenterCode := (payload.fundCenterCode.map Str.val).setNullable item.fundCenterCode
    costCenterCode := (payload.costCenterCode.map Str.val).setNullable item.costCenterCode }

/-- The checks of the sent values that are not null. -/
def validateItemChanges (s : Store) (payload : ExpenseItemUpdate) : Result Unit := do
  checkSome payload.expenseCategoryCode.val? fun v =>
    validateCodes s [⟨"EXPENSE_CATEGORY", "expense_category_code", some v.val⟩]
  validateCenters s (payload.fundCenterCode.map Str.val).val?
    (payload.costCenterCode.map Str.val).val?
  checkSome payload.amountKrw.val? assertItemAmount

def updateItem (s : Store) (env : Env) (user : CurrentUser) (itemId : Int)
    (payload : ExpenseItemUpdate) : Result Plan := do
  let (item, report) ← loadItemForEdit s user itemId
  validateItemChanges s payload
  let item' ← assignItem item payload
  editItems s env item.reportId report (.update itemId item item')

def deleteItem (s : Store) (env : Env) (user : CurrentUser) (itemId : Int) : Result Plan := do
  let (item, report) ← loadItemForEdit s user itemId
  editItems s env item.reportId report (.delete itemId)

/-! ## Transitions -/

def link (reportId : Int) : String := s!"/expenses/{reportId}"

/-- What a transition changes besides the status, what it records, and what follows it in the same
transaction. -/
structure Change where
  report : ExpenseReport
  action : ActivityAction
  memo : Option String := none
  notify : Option NotifySpec := none
  after : List Write := []

/-- Load a visible report, check the transition and whatever else `change` checks, set the
status. -/
def transition (s : Store) (env : Env) (user : CurrentUser) (reportId : Int)
    (target : ExpenseReportStatus) (change : ExpenseReport → Result Change) : Result Plan := do
  let report ← loadVisibleReport s reportId user
  assertExpenseTransitionAllowed report.status target user.id report.userId report.approverId
  let c ← change report
  return {
    now := env.txnNow
    writes := .report (.update reportId report { c.report with status := target }) ::
      recordTransition env .expenseReport (.stored reportId)
        { actorId := user.id, action := c.action, fromStatus := some report.status.value
          toStatus := some target.value, memo := c.memo, notify := c.notify } ++ c.after }

/-- The report's trip, as `session.get` finds it; using the attributes of `None` raises. -/
def tripOf (s : Store) (report : ExpenseReport) : Result Trip :=
  getE (s.trips.get report.tripId) .typeError

def includedCount (s : Store) (reportId : Int) : Nat :=
  ((itemsOf s reportId).filter fun p => !p.2.isExcluded).length

def submitReport (s : Store) (env : Env) (user : CurrentUser) (reportId : Int) : Result Plan :=
  transition s env user reportId .submitted fun report => do
    let trip ← tripOf s report
    assertTripCompleted trip.status
    assertCentersPresent report.fundCenterCode report.costCenterCode
    -- the masters may have been deactivated since the codes were set
    assertFundCenter s report.fundCenterCode
    assertCostCenter s report.costCenterCode
    assertHasItems (includedCount s reportId)
    let total ← recalcTotal s reportId
    let approverId ← assertHasApprover trip.approverId
    return {
      report := { report with
        totalAmountKrw := total, approverId := some approverId, submittedAt := some env.now
        approvedAt := none, rejectReason := none }
      action := .submitted
      notify := some {
        userId := approverId, type := .expenseSubmitted, title := "정산 결재 요청"
        body := s!"{user.name}님이 '{trip.title}' 출장의 정산서를 상신했습니다."
        linkUrl := some (link reportId) } }

def approveReport (s : Store) (env : Env) (user : CurrentUser) (reportId : Int) : Result Plan :=
  transition s env user reportId .approved fun report => do
    let trip ← tripOf s report
    let settle ← settleTripForReport env report.tripId trip user.id report.reportNo
    return {
      report := { report with approvedAt := some env.now }
      action := .approved
      notify := some {
        userId := report.userId, type := .expenseApproved, title := "정산이 승인되었습니다"
        body := s!"'{trip.title}' 출장의 정산서가 승인되어 정산 완료 처리되었습니다."
        linkUrl := some (link reportId) }
      after := settle }

def rejectReport (s : Store) (env : Env) (user : CurrentUser) (reportId : Int)
    (payload : RejectRequest) : Result Plan :=
  transition s env user reportId .rejected fun report => do
    let reason ← assertRejectReason (some payload.reason)
    let trip ← tripOf s report
    text "reject_reason" reason
    return {
      report := { report with rejectReason := some reason }
      action := .rejected
      memo := some reason
      notify := some {
        userId := report.userId, type := .expenseRejected, title := "정산서가 반려되었습니다"
        body := s!"'{trip.title}' 출장의 정산서가 반려되었습니다. 사유: {reason}"
        linkUrl := some (link reportId) } }

/-- The reason of the rejection stays on the row until the next submission. -/
def reopenReport (s : Store) (env : Env) (user : CurrentUser) (reportId : Int) : Result Plan :=
  transition s env user reportId .draft fun report =>
    return {
      report := { report with submittedAt := none, approvedAt := none }
      action := .updated
      memo := some "재작성을 위해 임시저장으로 되돌림" }

end Biztrip.Expenses
