import Biztrip.Service.Cards
import Biztrip.Service.ExpenseReads
import Biztrip.Service.TripReads
import Biztrip.System

/-!
# The read calls

The calls that only read, as one type with one type of replies, and what is on a user's
desk: trips and reports that are theirs or that they are to approve.
-/

namespace Biztrip.Reads

open Biztrip.Lib

inductive ReadCall where
  | listTrips (filters : Trips.TripFilters)
  | getTrip (tripId : Int)
  | listTimeline (tripId : Int)
  | listReports (filters : Expenses.ExpenseFilters)
  | getReport (reportId : Int)
  | listReportTimeline (reportId : Int)
  | listCardTransactions (filters : Cards.CardTxnFilters)
  | listNotifications (unreadOnly : Bool) (paging : Paging)
  | listKeys

inductive Reply where
  | trips (page : Page Trips.TripListItem)
  | trip (detail : Trips.TripDetail)
  | timeline (entries : List TimelineEntry)
  | reports (page : Page Expenses.ExpenseReportListItem)
  | report (detail : Expenses.ExpenseReportDetail)
  | cardTransactions (page : Page Cards.CardTransactionOut)
  | notifications (page : Notifications.NotificationPage)
  | keys (keys : List ApiKeys.ApiKeyOut)
  deriving DecidableEq

def ReadCall.reply (P : Platform) (s : Store) (env : Env) (user : CurrentUser) :
    ReadCall → Result Reply
  | .listTrips filters => return .trips (← Trips.listTrips P s user filters)
  | .getTrip tripId => return .trip (← Trips.getTrip s user tripId)
  | .listTimeline tripId => return .timeline (← Trips.listTimeline s user tripId)
  | .listReports filters => return .reports (← Expenses.listReports P s user filters)
  | .getReport reportId => return .report (← Expenses.getReport s user reportId)
  | .listReportTimeline reportId =>
    return .timeline (← Expenses.listReportTimeline s user reportId)
  | .listCardTransactions filters =>
    return .cardTransactions (← Cards.listCardTransactions P s user filters)
  | .listNotifications unreadOnly paging =>
    return .notifications (← Notifications.listNotifications s user unreadOnly paging)
  | .listKeys => return .keys (ApiKeys.listKeys s env user)

structure ReadRequest where
  env : Env
  userId : Int
  call : ReadCall

def ReadRequest.reply (P : Platform) (s : Store) (r : ReadRequest) : Result Reply := do
  r.call.reply P s r.env (← currentUser s r.userId)

/-- On the desk of `u`: a trip or a report of this owner and approver. -/
def onDesk (u userId : Int) (approverId : Option Int) : Bool :=
  userId = u || approverId = some u

end Biztrip.Reads
