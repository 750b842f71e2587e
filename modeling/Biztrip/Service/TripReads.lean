import Biztrip.Service.Pages
import Biztrip.Service.Trips

/-!
# Reading trips

The calls of `app/services/trips.py` that only read: the list, the detail and the timeline
of a trip.
-/

namespace Biztrip.Trips

open Biztrip.Lib

structure TripFilters where
  scope : Scope := .mine
  status : List TripStatus := []
  destinationTypeCode : Option String := none
  countryCode : Option String := none
  q : Option String := none
  startDateFrom : Option Date := none
  startDateTo : Option Date := none
  paging : Paging := .first

structure TripListItem where
  id : Int
  tripNo : String
  title : String
  city : String
  countryCode : String
  destinationTypeCode : String
  purposeCode : String
  startDate : Date
  endDate : Date
  status : TripStatus
  userId : Int
  userName : String
  approverId : Option Int
  approverName : Option String
  deriving DecidableEq

structure TripDetail extends TripListItem where
  purposeDetail : String
  costCenterCode : Option String
  costCenterName : Option String
  submittedAt : Option Instant
  approvedAt : Option Instant
  rejectReason : Option String
  createdAt : Instant
  updatedAt : Instant
  deriving DecidableEq

/-- One row of `build_list_items`. -/
def listItem (s : Store) (tripId : Int) (trip : Trip) : TripListItem :=
  { id := tripId, tripNo := trip.tripNo, title := trip.title, city := trip.city
    countryCode := trip.countryCode, destinationTypeCode := trip.destinationTypeCode
    purposeCode := trip.purposeCode, startDate := trip.startDate, endDate := trip.endDate
    status := trip.status, userId := trip.userId
    userName := (Biztrip.userName s trip.userId).getD ""
    approverId := trip.approverId, approverName := Biztrip.approverName s trip.approverId }

/-- The code is unique among the cost centers. -/
def costCenterName (s : Store) (code : String) : Option String :=
  (s.costCenters.rows.find? fun p => p.2.code = code).map fun p => p.2.name

def buildDetail (s : Store) (tripId : Int) (trip : Trip) : TripDetail :=
  { listItem s tripId trip with
    purposeDetail := trip.purposeDetail, costCenterCode := trip.costCenterCode
    costCenterName := (given trip.costCenterCode).bind (costCenterName s)
    submittedAt := trip.submittedAt, approvedAt := trip.approvedAt
    rejectReason := trip.rejectReason, createdAt := trip.createdAt, updatedAt := trip.updatedAt }

def forbiddenScope : AppError :=
  forbiddenError "FORBIDDEN_SCOPE" "전체 출장을 조회할 권한이 없습니다"

/-- The conditions of the list besides the scope. -/
def TripFilters.selects (P : Platform) (filters : TripFilters) (trip : Trip) : Bool :=
  (filters.status.isEmpty || filters.status.contains trip.status) &&
    (given filters.destinationTypeCode).all (fun code => trip.destinationTypeCode = code) &&
    (given filters.countryCode).all (fun code => trip.countryCode = code) &&
    filters.startDateFrom.all (fun day => day ≤ trip.startDate) &&
    filters.startDateTo.all (fun day => trip.startDate ≤ day) &&
    (given filters.q).all fun q =>
      P.search q trip.title || P.search q trip.city || P.search q trip.tripNo

/-- The newest trip first. -/
def listTrips (P : Platform) (s : Store) (user : CurrentUser) (filters : TripFilters) :
    Result (Page TripListItem) := do
  let inScope ← scopeConditions Trip.userId Trip.approverId forbiddenScope user filters.scope
  checkSome (given filters.destinationTypeCode) (text "destination_type_code")
  checkSome (given filters.countryCode) (text "country_code")
  checkSome (given filters.q) (text "q")
  selectPage filters.paging (fun p => toLex (-(p.2.startDate.ordinal : Int), -p.1))
    (fun p => return listItem s p.1 p.2)
    (s.trips.rows.filter fun p => inScope p.2 && filters.selects P p.2)

def getTrip (s : Store) (user : CurrentUser) (tripId : Int) : Result TripDetail := do
  let trip ← loadVisibleTrip s tripId user
  return buildDetail s tripId trip

def listTimeline (s : Store) (user : CurrentUser) (tripId : Int) :
    Result (List TimelineEntry) := do
  let _ ← loadVisibleTrip s tripId user
  return timeline s .trip tripId

end Biztrip.Trips
