import Biztrip.Service.Expenses
import Biztrip.Service.Matching

/-!
# Reading expense reports

The calls of `app/services/expenses.py` that only read: the list, the detail and the
timeline of a report, and the card transactions that may belong to it.
-/

namespace Biztrip.Expenses

open Biztrip.Lib Matching

structure ExpenseFilters where
  scope : Scope := .mine
  status : List ExpenseReportStatus := []
  q : Option String := none
  paging : Paging := .first

structure ExpenseReportListItem where
  id : Int
  reportNo : String
  status : ExpenseReportStatus
  tripId : Int
  tripNo : String
  tripTitle : String
  tripStartDate : Date
  tripEndDate : Date
  userId : Int
  userName : String
  approverId : Option Int
  approverName : Option String
  fundCenterCode : Option String
  costCenterCode : Option String
  totalAmountKrw : Krw
  submittedAt : Option Instant
  approvedAt : Option Instant
  deriving DecidableEq

structure ExpenseItemOut where
  id : Int
  cardTransactionId : Option Int
  expenseCategoryCode : String
  amountKrw : Krw
  memo : Option String
  isExcluded : Bool
  fundCenterCode : Option String
  costCenterCode : Option String
  effectiveFundCenterCode : Option String
  effectiveCostCenterCode : Option String
  merchantName : Option String
  approvedAt : Option Instant
  deriving DecidableEq

structure ExpenseReportDetail extends ExpenseReportListItem where
  rejectReason : Option String
  createdAt : Instant
  updatedAt : Instant
  items : List ExpenseItemOut
  deriving DecidableEq

structure MatchCandidateOut where
  transactionId : Int
  approvedAt : Instant
  merchantName : String
  merchantCategoryCode : String
  amountKrw : Krw
  suggestedCategoryCode : String
  reasons : List String
  alreadyAdded : Bool
  deriving DecidableEq

/-! ## List and detail -/

/-- One row of `build_list_items`; a report without its trip is a `KeyError`. -/
def listItem (s : Store) (reportId : Int) (report : ExpenseReport) :
    Result ExpenseReportListItem := do
  let trip ← getE (s.trips.get report.tripId) .keyError
  return {
    id := reportId, reportNo := report.reportNo, status := report.status
    tripId := report.tripId, tripNo := trip.tripNo, tripTitle := trip.title
    tripStartDate := trip.startDate, tripEndDate := trip.endDate, userId := report.userId
    userName := (Biztrip.userName s report.userId).getD ""
    approverId := report.approverId, approverName := Biztrip.approverName s report.approverId
    fundCenterCode := report.fundCenterCode, costCenterCode := report.costCenterCode
    totalAmountKrw := report.totalAmountKrw, submittedAt := report.submittedAt
    approvedAt := report.approvedAt }

/-- The linked transaction; in Python an id of zero counts as none. -/
def linkedTransaction (s : Store) (item : ExpenseItem) : Option CardTransaction :=
  (item.cardTransactionId.filter fun x => x ≠ 0).bind s.transactions.get

def itemOut (s : Store) (report : ExpenseReport) (itemId : Int) (item : ExpenseItem) :
    ExpenseItemOut :=
  { id := itemId, cardTransactionId := item.cardTransactionId
    expenseCategoryCode := item.expenseCategoryCode, amountKrw := item.amountKrw
    memo := item.memo, isExcluded := item.isExcluded, fundCenterCode := item.fundCenterCode
    costCenterCode := item.costCenterCode
    effectiveFundCenterCode := effectiveCenter item.fundCenterCode report.fundCenterCode
    effectiveCostCenterCode := effectiveCenter item.costCenterCode report.costCenterCode
    merchantName := (linkedTransaction s item).map CardTransaction.merchantName
    approvedAt := (linkedTransaction s item).map CardTransaction.approvedAt }

def loadItems (s : Store) (reportId : Int) (report : ExpenseReport) : List ExpenseItemOut :=
  (orderBy Prod.fst (itemsOf s reportId)).map fun p => itemOut s report p.1 p.2

def buildDetail (s : Store) (reportId : Int) (report : ExpenseReport) :
    Result ExpenseReportDetail := do
  let item ← listItem s reportId report
  return { item with
    rejectReason := report.rejectReason, createdAt := report.createdAt
    updatedAt := report.updatedAt, items := loadItems s reportId report }

def forbiddenScope : AppError :=
  forbiddenError "FORBIDDEN_SCOPE" "전체 정산서를 조회할 권한이 없습니다"

/-- The conditions of the list besides the scope, on a report joined with its trip. -/
def ExpenseFilters.selects (P : Platform) (filters : ExpenseFilters) (s : Store)
    (report : ExpenseReport) : Bool :=
  (filters.status.isEmpty || filters.status.contains report.status) &&
    (s.trips.get report.tripId).any fun trip =>
      (given filters.q).all fun q =>
        P.search q report.reportNo || P.search q trip.title || P.search q trip.tripNo

/-- The newest report first. -/
def listReports (P : Platform) (s : Store) (user : CurrentUser) (filters : ExpenseFilters) :
    Result (Page ExpenseReportListItem) := do
  let inScope ←
    scopeConditions ExpenseReport.userId ExpenseReport.approverId forbiddenScope user filters.scope
  checkSome (given filters.q) (text "q")
  selectPage filters.paging (fun p => -p.1) (fun p => listItem s p.1 p.2)
    (s.reports.rows.filter fun p => inScope p.2 && filters.selects P s p.2)

def getReport (s : Store) (user : CurrentUser) (reportId : Int) : Result ExpenseReportDetail := do
  let report ← loadVisibleReport s reportId user
  buildDetail s reportId report

def listReportTimeline (s : Store) (user : CurrentUser) (reportId : Int) :
    Result (List TimelineEntry) := do
  let _ ← loadVisibleReport s reportId user
  return timeline s .expenseReport reportId

/-! ## Candidates -/

/-- `_FETCH_MARGIN_DAYS`: the rows fetched go beyond the window that is then matched. -/
def fetchMarginDays : Int := 2

/-- The transactions on cards of the report's owner, from `start` up to `stop`. -/
def fetched (s : Store) (report : ExpenseReport) (start stop : Instant) :
    List (Int × CardTransaction) :=
  s.transactions.rows.filter fun p =>
    ((s.cards.get p.2.cardId).any fun card => card.userId = report.userId) &&
      decide (start ≤ p.2.approvedAt ∧ p.2.approvedAt < stop)

/-- The transactions that another submitted or approved report has taken. -/
def locked (s : Store) (reportId : Int) : List Int :=
  s.items.rows.filterMap fun p =>
    if (s.reports.get p.2.reportId).any (fun r => r.status = .submitted || r.status = .approved) &&
        p.2.reportId ≠ reportId then
      p.2.cardTransactionId
    else none

def added (s : Store) (reportId : Int) : List Int :=
  (itemsOf s reportId).filterMap fun p => p.2.cardTransactionId

def transactionView (p : Int × CardTransaction) : TransactionView :=
  { id := p.1, approvedAt := .utc p.2.approvedAt, merchantCategoryCode := p.2.merchantCategoryCode
    amountKrw := p.2.amountKrw, isCancelled := p.2.isCancelled }

/-- The candidates with the data of their transactions, from what the three queries have brought. -/
def candidatesOf (P : Platform) (trip : Trip) (rows : List (Int × CardTransaction))
    (locked added : List Int) : Result (List MatchCandidateOut) := do
  let candidates ← findCandidates P trip.startDate trip.endDate (rows.map transactionView) locked
  mapE candidates fun candidate => do
    let row ← getE ((rows.find? fun p => p.1 = candidate.transactionId).map Prod.snd) .keyError
    return {
      transactionId := candidate.transactionId, approvedAt := row.approvedAt
      merchantName := row.merchantName, merchantCategoryCode := row.merchantCategoryCode
      amountKrw := row.amountKrw, suggestedCategoryCode := candidate.suggestedCategoryCode
      reasons := candidate.reasons
      alreadyAdded := added.contains candidate.transactionId }

def listMatchCandidates (P : Platform) (s : Store) (user : CurrentUser) (reportId : Int) :
    Result (List MatchCandidateOut) := do
  let report ← loadVisibleReport s reportId user
  let trip ← getE (s.trips.get report.tripId) .typeError
  let start ← shift trip.startDate (-fetchMarginDays)
  let stop ← shift trip.endDate (fetchMarginDays + 1)
  candidatesOf P trip (fetched s report (utcMidnight start) (utcMidnight stop)) (locked s reportId)
    (added s reportId)

end Biztrip.Expenses
