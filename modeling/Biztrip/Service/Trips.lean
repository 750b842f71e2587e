import Biztrip.Model.Schemas
import Biztrip.Rules.Trip
import Biztrip.Service.Codes
import Biztrip.Service.History
import Biztrip.Service.Numbering

/-!
# Trip service

The mutating calls of `app/services/trips.py`. Each reads the store, runs its
guards and returns the `Plan` of what it writes. The five transitions share one
shape, `transition`: load, check, change the row, record; each keeps its own
definition as that shape applied to its own values.
-/

namespace Biztrip.Trips

open Biztrip.Lib Codes

def tripNotFound : AppError := notFoundError "TRIP_NOT_FOUND" "출장을 찾을 수 없습니다"

/-- A trip the user may not see is treated as missing. -/
def loadVisibleTrip (s : Store) (tripId : Int) (user : CurrentUser) : Result Trip := do
  let trip ← sessionGet s.trips tripId
  getE (trip.filter fun t => canViewTrip user.id user.role t.userId t.approverId)
    (.app tripNotFound)

theorem loadVisibleTrip_eq_ok {s : Store} {tripId : Int} {user : CurrentUser} {trip : Trip} :
    loadVisibleTrip s tripId user = .ok trip ↔ IsInt4 tripId ∧ s.trips.get tripId = some trip ∧
      canViewTrip user.id user.role trip.userId trip.approverId = true := by
  simp only [loadVisibleTrip, bind_eq_ok, sessionGet_eq_ok, getE_eq_ok, Option.filter_eq_some_iff]
  constructor
  · rintro ⟨_, ⟨hid, rfl⟩, hget, hview⟩
    exact ⟨hid, hget, hview⟩
  · rintro ⟨hid, hget, hview⟩
    exact ⟨_, ⟨hid, rfl⟩, hget, hview⟩

/-! ## Writing the fields -/

/-- `_CODE_FIELDS`: the groups of the fields that hold code values. -/
def codeFields (purposeCode destinationTypeCode countryCode : Option String) : List CodeSpec :=
  [⟨"TRIP_PURPOSE", "purpose_code", purposeCode⟩,
    ⟨"DESTINATION_TYPE", "destination_type_code", destinationTypeCode⟩,
    ⟨"COUNTRY", "country_code", countryCode⟩]

/-- Comparing a date with `None` is a `TypeError`. -/
def validateWritableFields (s : Store) (purposeCode destinationTypeCode countryCode : Option String)
    (startDate endDate : Option Date) : Result Unit := do
  validateCodes s (codeFields purposeCode destinationTypeCode countryCode)
  match startDate, endDate with
  | some startDate, some endDate => assertDateRange startDate endDate
  | _, _ => .error .typeError

def createTrip (s : Store) (env : Env) (user : CurrentUser) (payload : TripCreate) :
    Result Plan := do
  validateWritableFields s (some payload.purposeCode.val) (some payload.destinationTypeCode.val)
    (some payload.countryCode.val) (some payload.startDate) (some payload.endDate)
  let tripNo ← Numbering.nextTripNo s env.today
  text "title" payload.title.val
  text "purpose_detail" payload.purposeDetail.val
  text "city" payload.city.val
  let trip : Trip :=
    { tripNo, userId := user.id, title := payload.title.val
      purposeCode := payload.purposeCode.val, purposeDetail := payload.purposeDetail.val
      destinationTypeCode := payload.destinationTypeCode.val
      countryCode := payload.countryCode.val, city := payload.city.val
      startDate := payload.startDate, endDate := payload.endDate, costCenterCode := none
      status := .draft, approverId := none, submittedAt := none, approvedAt := none
      rejectReason := none, createdAt := env.txnNow, updatedAt := env.txnNow }
  return {
    now := env.txnNow
    writes := .trip (.insert trip) :: recordTransition env .trip .inserted
      { actorId := user.id, action := .created, toStatus := some TripStatus.draft.value
        memo := some "출장 신청서 작성" } }

/-- Write the sent fields over the row, as the flush finds them: a text the database cannot hold,
then a null in a column that is not null. -/
def assign (trip : Trip) (payload : TripUpdate) : Result Trip := do
  checkSome payload.title.val? fun v => text "title" v.val
  checkSome payload.purposeDetail.val? fun v => text "purpose_detail" v.val
  checkSome payload.city.val? fun v => text "city" v.val
  let notNull (column : String) : Fault := .integrity (.notNull column)
  let title ← (payload.title.map Str.val).setRequired trip.title (notNull "title")
  let purposeCode ←
    (payload.purposeCode.map Str.val).setRequired trip.purposeCode (notNull "purpose_code")
  let purposeDetail ←
    (payload.purposeDetail.map StrMin.val).setRequired trip.purposeDetail (notNull "purpose_detail")
  let destinationTypeCode ← (payload.destinationTypeCode.map Str.val).setRequired
    trip.destinationTypeCode (notNull "destination_type_code")
  let countryCode ←
    (payload.countryCode.map Str.val).setRequired trip.countryCode (notNull "country_code")
  let city ← (payload.city.map Str.val).setRequired trip.city (notNull "city")
  let startDate ← payload.startDate.setRequired trip.startDate (notNull "start_date")
  let endDate ← payload.endDate.setRequired trip.endDate (notNull "end_date")
  return { trip with
    title, purposeCode, purposeDetail, destinationTypeCode, countryCode, city, startDate, endDate }

/-- The merged values, sent fields over stored ones, are validated, not only the sent ones. -/
def validateMerged (s : Store) (trip : Trip) (payload : TripUpdate) : Result Unit :=
  validateWritableFields s
    ((payload.purposeCode.map Str.val).setNullable (some trip.purposeCode))
    ((payload.destinationTypeCode.map Str.val).setNullable (some trip.destinationTypeCode))
    ((payload.countryCode.map Str.val).setNullable (some trip.countryCode))
    (payload.startDate.setNullable (some trip.startDate))
    (payload.endDate.setNullable (some trip.endDate))

def updateTrip (s : Store) (env : Env) (user : CurrentUser) (tripId : Int) (payload : TripUpdate) :
    Result Plan := do
  let trip ← loadVisibleTrip s tripId user
  assertTripOwner user.id trip.userId
  assertEditable trip.status
  validateMerged s trip payload
  let trip' ← assign trip payload
  return {
    now := env.txnNow
    writes := .trip (.update tripId trip trip') :: recordTransition env .trip (.stored tripId)
      { actorId := user.id, action := .updated, fromStatus := some trip.status.value
        toStatus := some trip.status.value, memo := some "출장 정보 수정" } }

def deleteTrip (s : Store) (env : Env) (user : CurrentUser) (tripId : Int) : Result Plan := do
  let trip ← loadVisibleTrip s tripId user
  assertTripOwner user.id trip.userId
  assertDeletable trip.status
  return { now := env.txnNow, writes := [.trip (.delete tripId)] }

/-! ## Transitions -/

def link (tripId : Int) : String := s!"/trips/{tripId}"

/-- What a transition changes besides the status, and what it records. -/
structure Change where
  trip : Trip
  action : ActivityAction
  memo : Option String := none
  notify : Option NotifySpec := none

/-- Load a visible trip, check the transition and whatever else `change` checks, set the status. -/
def transition (s : Store) (env : Env) (user : CurrentUser) (tripId : Int) (target : TripStatus)
    (change : Trip → Result Change) : Result Plan := do
  let trip ← loadVisibleTrip s tripId user
  assertTransitionAllowed trip.status target user.id trip.userId trip.approverId
  let c ← change trip
  return {
    now := env.txnNow
    writes := .trip (.update tripId trip { c.trip with status := target }) ::
      recordTransition env .trip (.stored tripId)
        { actorId := user.id, action := c.action, fromStatus := some trip.status.value
          toStatus := some target.value, memo := c.memo, notify := c.notify } }

def submitTrip (s : Store) (env : Env) (user : CurrentUser) (tripId : Int) : Result Plan :=
  transition s env user tripId .submitted fun trip => do
    assertDateRange trip.startDate trip.endDate
    let approverId ← assertHasApprover user.managerId
    return {
      trip := { trip with
        approverId := some approverId, submittedAt := some env.now, approvedAt := none
        rejectReason := none }
      action := .submitted
      notify := some {
        userId := approverId, type := .tripSubmitted, title := "출장 결재 요청"
        body := s!"{user.name}님이 '{trip.title}' 출장을 상신했습니다.", linkUrl := some (link tripId) } }

def approveTrip (s : Store) (env : Env) (user : CurrentUser) (tripId : Int) : Result Plan :=
  transition s env user tripId .approved fun trip =>
    return {
      trip := { trip with approvedAt := some env.now }
      action := .approved
      notify := some {
        userId := trip.userId, type := .tripApproved, title := "출장이 승인되었습니다"
        body := s!"'{trip.title}' 출장이 {user.name}님에게 승인되었습니다."
        linkUrl := some (link tripId) } }

def rejectTrip (s : Store) (env : Env) (user : CurrentUser) (tripId : Int)
    (payload : RejectRequest) : Result Plan :=
  transition s env user tripId .rejected fun trip => do
    let reason ← assertRejectReason (some payload.reason)
    text "reject_reason" reason
    return {
      trip := { trip with rejectReason := some reason }
      action := .rejected
      memo := some reason
      notify := some {
        userId := trip.userId, type := .tripRejected, title := "출장이 반려되었습니다"
        body := s!"'{trip.title}' 출장이 반려되었습니다. 사유: {reason}"
        linkUrl := some (link tripId) } }

/-- The reason of the rejection stays on the row until the next submission. -/
def reopenTrip (s : Store) (env : Env) (user : CurrentUser) (tripId : Int) : Result Plan :=
  transition s env user tripId .draft fun trip =>
    return {
      trip := { trip with approverId := none, submittedAt := none, approvedAt := none }
      action := .updated
      memo := some "재작성을 위해 임시저장으로 되돌림" }

def completeTrip (s : Store) (env : Env) (user : CurrentUser) (tripId : Int) : Result Plan :=
  transition s env user tripId .completed fun trip => do
    assertCompletable trip.endDate env.today
    return { trip, action := .completed, memo := some "출장 완료 처리" }

/-- The settlement that the approval of a report triggers, within the same transaction. -/
def settleTripForReport (env : Env) (tripId : Int) (trip : Trip) (actorId : Int)
    (reportNo : String) : Result (List Write) := do
  assertSystemTransition trip.status .settled
  return .trip (.update tripId trip { trip with status := .settled }) ::
    recordTransition env .trip (.stored tripId)
      { actorId, action := .settled, fromStatus := some trip.status.value
        toStatus := some TripStatus.settled.value
        memo := some s!"정산서 {reportNo} 승인으로 정산 완료" }

end Biztrip.Trips
