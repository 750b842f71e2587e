import Biztrip.Service.Pages

/-!
# Matching

`app/services/matching.py`: which card transactions may belong to a trip, and why. The
module has no access to the database. Days are ordinals; `shift` is the arithmetic of
Python dates, which ends with the calendar.
-/

namespace Biztrip.Matching

open Biztrip.Lib

/-- `date + timedelta(days=days)`; an `OverflowError` off the calendar. -/
def shift (day : Date) (days : Int) : Result Int := do
  let target := day.ordinal + days
  guardE (1 ≤ target ∧ target ≤ 3652059) .overflowError
  return target

/-- Midnight in UTC on the day of this ordinal. The epoch is `1970-01-01`. -/
def utcMidnight (ordinal : Int) : Instant := (ordinal - 719163) * 86400000000

/-- `MERCHANT_TO_EXPENSE`. -/
def merchantToExpense : List (String × String) :=
  [("MEAL", "MEAL"), ("TRANSPORT", "TRANSPORT"), ("LODGING", "LODGING"), ("ENTERTAIN", "ENTERTAIN"),
    ("ETC", "ETC")]

def defaultExpenseCategory : String := "ETC"

def suggestExpenseCategory (merchantCategoryCode : String) : String :=
  (merchantToExpense.lookup merchantCategoryCode).getD defaultExpenseCategory

def windowDays : Int := 1

/-- A Python `datetime`: what its clock shows, in microseconds from the epoch, and how far that
clock is ahead of UTC. A naive one does not tell. -/
structure Datetime where
  wall : Int
  utcoffset : Option Int
  deriving DecidableEq

/-- A `timestamptz`, as the driver brings it. -/
def Datetime.utc (t : Instant) : Datetime := ⟨t, some 0⟩

def Datetime.instant (moment : Datetime) : Instant := moment.wall - moment.utcoffset.getD 0

@[simp] theorem Datetime.instant_utc (t : Instant) : (Datetime.utc t).instant = t := sub_zero t

structure TransactionView where
  id : Int
  approvedAt : Datetime
  merchantCategoryCode : String
  amountKrw : Krw
  isCancelled : Bool

structure MatchCandidate where
  transactionId : Int
  reasons : List String
  suggestedCategoryCode : String

/-- The day in Seoul, as far as the calendar goes. -/
def localDate (P : Platform) (moment : Datetime) : Result Int := do
  let _ ← getE moment.utcoffset .valueError
  let day := P.localDay moment.instant
  guardE (1 ≤ day ∧ day ≤ 3652059) .overflowError
  return day

def reasons (day startDate endDate : Int) (category : String) : List String :=
  if day < startDate then
    if category = "TRANSPORT" then ["출발 전일 교통비"] else ["출발 전일 승인"]
  else if endDate < day then
    if category = "TRANSPORT" then ["종료 익일 교통비"] else ["종료 익일 승인"]
  else if category = "LODGING" then ["출장기간 내 승인", "출장기간 내 숙박"]
  else ["출장기간 내 승인"]

/-- What is said of a transaction that was approved on the day. -/
def candidate (startDate endDate : Date) (p : TransactionView × Int) : MatchCandidate :=
  { transactionId := p.1.id
    reasons := reasons p.2 startDate.ordinal endDate.ordinal p.1.merchantCategoryCode
    suggestedCategoryCode := suggestExpenseCategory p.1.merchantCategoryCode }

/-- Within a day of the trip, not cancelled and not taken, by the time of approval. -/
def findCandidates (P : Platform) (startDate endDate : Date) (transactions : List TransactionView)
    (excluded : List Int) : Result (List MatchCandidate) := do
  let windowStart ← shift startDate (-windowDays)
  let windowEnd ← shift endDate windowDays
  let dated ← mapE (transactions.filter fun t => !t.isCancelled && !excluded.contains t.id)
    fun t => do return (t, ← localDate P t.approvedAt)
  let picked := dated.filter fun p => windowStart ≤ p.2 ∧ p.2 ≤ windowEnd
  return (orderBy (fun p => toLex (p.1.approvedAt.instant, p.1.id)) picked).map
    (candidate startDate endDate)

end Biztrip.Matching
