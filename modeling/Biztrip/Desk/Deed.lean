import Biztrip.System

/-!
# What a desk request decides

`TripDeed` and `ExpenseDeed` list, call by call, the statements a request of the
desk can plan, with everything its guards have established on the store it read:
one constructor for each call, the two ways of editing and deleting an item
included. `deed_of_plan` is the inversion of the service code that every result
about the desk starts from; nothing below it unfolds a service.
-/

namespace Biztrip.Desk

open Biztrip.Lib Trips Expenses

/-- What a transition records: who acted, how, between which statuses, and who is told. -/
structure Records (tr : Transition) (user : CurrentUser) (action : ActivityAction)
    (fromStatus toStatus : Option String) (recipient : Option Int) : Prop where
  actorId : tr.actorId = user.id
  action : tr.action = action
  fromStatus : tr.fromStatus = fromStatus
  toStatus : tr.toStatus = toStatus
  recipient : tr.notify.map NotifySpec.userId = recipient

/-- The columns of a trip that `update_trip` leaves alone. -/
structure SameCourse (t t' : Trip) : Prop where
  tripNo : t'.tripNo = t.tripNo
  userId : t'.userId = t.userId
  costCenterCode : t'.costCenterCode = t.costCenterCode
  status : t'.status = t.status
  approverId : t'.approverId = t.approverId
  submittedAt : t'.submittedAt = t.submittedAt
  approvedAt : t'.approvedAt = t.approvedAt
  rejectReason : t'.rejectReason = t.rejectReason
  createdAt : t'.createdAt = t.createdAt

/-- A trip as `create_trip` makes it. -/
structure NewTrip (s : Store) (env : Env) (user : CurrentUser) (payload : TripCreate) (t : Trip) :
    Prop where
  tripNo : Numbering.nextTripNo s env.today = .ok t.tripNo
  userId : t.userId = user.id
  dates : t.startDate = payload.startDate ∧ t.endDate = payload.endDate
  range : ¬ t.endDate < t.startDate
  costCenterCode : t.costCenterCode = none
  status : t.status = .draft
  approverId : t.approverId = none
  submittedAt : t.submittedAt = none
  approvedAt : t.approvedAt = none
  rejectReason : t.rejectReason = none

inductive TripDeed (s : Store) (env : Env) (user : CurrentUser) : TripCall → List Write → Prop where
  | create {payload : TripCreate} {t : Trip} {tr : Transition}
    (new : NewTrip s env user payload t)
    (records : Records tr user .created none (some TripStatus.draft.value) none) :
    TripDeed s env user (.create payload)
      (.trip (.insert t) :: recordTransition env .trip .inserted tr)
  | update {tripId : Int} {payload : TripUpdate} {t t' : Trip} {tr : Transition}
    (load : loadVisibleTrip s tripId user = .ok t) (owner : user.id = t.userId)
    (editable : t.status ∈ editableStatuses) (assigned : assign t payload = .ok t')
    (range : ¬ t'.endDate < t'.startDate) (same : SameCourse t t')
    (records : Records tr user .updated (some t.status.value) (some t.status.value) none) :
    TripDeed s env user (.update tripId payload)
      (.trip (.update tripId t t') :: recordTransition env .trip (.stored tripId) tr)
  | delete {tripId : Int} {t : Trip}
    (load : loadVisibleTrip s tripId user = .ok t) (owner : user.id = t.userId)
    (status : t.status = .draft) :
    TripDeed s env user (.delete tripId) [.trip (.delete tripId)]
  | submit {tripId : Int} {t t' : Trip} {approverId : Int} {tr : Transition}
    (load : loadVisibleTrip s tripId user = .ok t) (owner : user.id = t.userId)
    (status : t.status = .draft) (range : ¬ t.endDate < t.startDate)
    (approver : user.managerId = some approverId)
    (moved : t' = { t with
      status := .submitted, approverId := some approverId, submittedAt := some env.now
      approvedAt := none, rejectReason := none })
    (records : Records tr user .submitted (some t.status.value) (some TripStatus.submitted.value)
      (some approverId)) :
    TripDeed s env user (.submit tripId)
      (.trip (.update tripId t t') :: recordTransition env .trip (.stored tripId) tr)
  | approve {tripId : Int} {t t' : Trip} {tr : Transition}
    (load : loadVisibleTrip s tripId user = .ok t) (approver : t.approverId = some user.id)
    (status : t.status = .submitted)
    (moved : t' = { t with status := .approved, approvedAt := some env.now })
    (records : Records tr user .approved (some t.status.value) (some TripStatus.approved.value)
      (some t.userId)) :
    TripDeed s env user (.approve tripId)
      (.trip (.update tripId t t') :: recordTransition env .trip (.stored tripId) tr)
  | reject {tripId : Int} {payload : RejectRequest} {t t' : Trip} {reason : String}
    {tr : Transition}
    (load : loadVisibleTrip s tripId user = .ok t) (approver : t.approverId = some user.id)
    (status : t.status = .submitted)
    (given : assertRejectReason (some payload.reason) = .ok reason)
    (moved : t' = { t with status := .rejected, rejectReason := some reason })
    (records : Records tr user .rejected (some t.status.value) (some TripStatus.rejected.value)
      (some t.userId)) :
    TripDeed s env user (.reject tripId payload)
      (.trip (.update tripId t t') :: recordTransition env .trip (.stored tripId) tr)
  | reopen {tripId : Int} {t t' : Trip} {tr : Transition}
    (load : loadVisibleTrip s tripId user = .ok t) (owner : user.id = t.userId)
    (status : t.status = .rejected)
    (moved : t' = { t with
      status := .draft, approverId := none, submittedAt := none, approvedAt := none })
    (records : Records tr user .updated (some t.status.value) (some TripStatus.draft.value) none) :
    TripDeed s env user (.reopen tripId)
      (.trip (.update tripId t t') :: recordTransition env .trip (.stored tripId) tr)
  | complete {tripId : Int} {t t' : Trip} {tr : Transition}
    (load : loadVisibleTrip s tripId user = .ok t) (owner : user.id = t.userId)
    (status : t.status = .approved) (ended : t.endDate < env.today)
    (moved : t' = { t with status := .completed })
    (records : Records tr user .completed (some t.status.value) (some TripStatus.completed.value)
      none) :
    TripDeed s env user (.complete tripId)
      (.trip (.update tripId t t') :: recordTransition env .trip (.stored tripId) tr)

/-- A report as `create_report` makes it from a trip. -/
structure NewReport (s : Store) (env : Env) (tripId : Int) (t : Trip) (r : ExpenseReport) :
    Prop where
  reportNo : Numbering.nextReportNo s env.utcToday = .ok r.reportNo
  tripId : r.tripId = tripId
  userId : r.userId = t.userId
  status : r.status = .draft
  fundCenterCode : r.fundCenterCode = none
  costCenterCode : r.costCenterCode = t.costCenterCode
  totalAmountKrw : r.totalAmountKrw = Numeric.zero
  approverId : r.approverId = t.approverId
  submittedAt : r.submittedAt = none
  approvedAt : r.approvedAt = none
  rejectReason : r.rejectReason = none

/-- An item as `add_item` makes it. -/
structure NewItem (s : Store) (reportId : Int) (report : ExpenseReport)
    (payload : ExpenseItemCreate) (it : ExpenseItem) : Prop where
  inReport : it.reportId = reportId
  transaction : it.cardTransactionId = payload.cardTransactionId
  usable : ∀ x, it.cardTransactionId = some x →
    ∃ txn, assertUsableTransaction s report reportId x = .ok txn
  category : Codes.validateCodes s
    [⟨"EXPENSE_CATEGORY", "expense_category_code", some it.expenseCategoryCode⟩] = .ok ()
  centers : validateCenters s it.fundCenterCode it.costCenterCode = .ok ()
  nonneg : 0 ≤ it.amountKrw.units
  bounded : it.amountKrw.units ≤ maxItemAmount.coeff
  included : it.isExcluded = false

inductive ExpenseDeed (s : Store) (env : Env) (user : CurrentUser) :
    ExpenseCall → List Write → Prop where
  | create {payload : ExpenseReportCreate} {t : Trip} {r : ExpenseReport} {tr : Transition}
    (load : loadVisibleTrip s payload.tripId user = .ok t) (owner : user.id = t.userId)
    (reportable : t.status ∈ reportableTripStatuses)
    (single : Store.referenced s.reports ExpenseReport.tripId payload.tripId = false)
    (new : NewReport s env payload.tripId t r)
    (records : Records tr user .created none (some ExpenseReportStatus.draft.value) none) :
    ExpenseDeed s env user (.create payload)
      (.report (.insert r) :: recordTransition env .expenseReport .inserted tr)
  | update {reportId : Int} {payload : ExpenseReportUpdate} {r r' : ExpenseReport}
    {tr : Transition}
    (load : loadEditableReport s user reportId = .ok r)
    (centers : validateCenters s (payload.fundCenterCode.map Str.val).val?
      (payload.costCenterCode.map Str.val).val? = .ok ())
    (assigned : r' = { r with
      fundCenterCode := (payload.fundCenterCode.map Str.val).setNullable r.fundCenterCode
      costCenterCode := (payload.costCenterCode.map Str.val).setNullable r.costCenterCode })
    (records : Records tr user .updated (some r.status.value) (some r.status.value) none) :
    ExpenseDeed s env user (.update reportId payload)
      (.report (.update reportId r r') :: recordTransition env .expenseReport (.stored reportId) tr)
  | addItem {reportId : Int} {payload : ExpenseItemCreate} {r : ExpenseReport} {it : ExpenseItem}
    {flushed : Store} {total : Krw}
    (load : loadEditableReport s user reportId = .ok r)
    (new : NewItem s reportId r payload it)
    (flush : s.flush env.txnNow (.item (.insert it)) = .ok flushed)
    (recalc : recalcTotal flushed reportId = .ok total) :
    ExpenseDeed s env user (.addItem reportId payload)
      [.item (.insert it), .report (.update reportId r { r with totalAmountKrw := total })]
  | updateItem {itemId : Int} {payload : ExpenseItemUpdate} {r : ExpenseReport}
    {it it' : ExpenseItem} {flushed : Store} {total : Krw}
    (int4 : IsInt4 itemId) (get : s.items.get itemId = some it)
    (load : loadEditableReport s user it.reportId = .ok r)
    (checked : validateItemChanges s payload = .ok ()) (assigned : assignItem it payload = .ok it')
    (flush : s.flush env.txnNow (.item (.update itemId it it')) = .ok flushed)
    (recalc : recalcTotal flushed it.reportId = .ok total) :
    ExpenseDeed s env user (.updateItem itemId payload)
      [.item (.update itemId it it'),
        .report (.update it.reportId r { r with totalAmountKrw := total })]
  | deleteItem {itemId : Int} {r : ExpenseReport} {it : ExpenseItem} {flushed : Store} {total : Krw}
    (int4 : IsInt4 itemId) (get : s.items.get itemId = some it)
    (load : loadEditableReport s user it.reportId = .ok r)
    (flush : s.flush env.txnNow (.item (.delete itemId)) = .ok flushed)
    (recalc : recalcTotal flushed it.reportId = .ok total) :
    ExpenseDeed s env user (.deleteItem itemId)
      [.item (.delete itemId), .report (.update it.reportId r { r with totalAmountKrw := total })]
  | submit {reportId : Int} {r r' : ExpenseReport} {t : Trip} {total : Krw} {approverId : Int}
    {tr : Transition}
    (load : loadVisibleReport s reportId user = .ok r) (owner : user.id = r.userId)
    (status : r.status = .draft)
    (trip : s.trips.get r.tripId = some t) (completed : t.status = .completed)
    (present : blank r.fundCenterCode = false ∧ blank r.costCenterCode = false)
    (centers : Centers.assertFundCenter s r.fundCenterCode = .ok () ∧
      Centers.assertCostCenter s r.costCenterCode = .ok ())
    (items : 0 < includedCount s reportId)
    (recalc : recalcTotal s reportId = .ok total) (approver : t.approverId = some approverId)
    (moved : r' = { r with
      status := .submitted, totalAmountKrw := total, approverId := some approverId
      submittedAt := some env.now, approvedAt := none, rejectReason := none })
    (records : Records tr user .submitted (some r.status.value)
      (some ExpenseReportStatus.submitted.value) (some approverId)) :
    ExpenseDeed s env user (.submit reportId)
      (.report (.update reportId r r') :: recordTransition env .expenseReport (.stored reportId) tr)
  | approve {reportId : Int} {r r' : ExpenseReport} {t t' : Trip} {tr tr' : Transition}
    (load : loadVisibleReport s reportId user = .ok r) (approver : r.approverId = some user.id)
    (status : r.status = .submitted)
    (trip : s.trips.get r.tripId = some t) (completed : t.status = .completed)
    (moved : r' = { r with status := .approved, approvedAt := some env.now })
    (settled : t' = { t with status := .settled })
    (records : Records tr user .approved (some r.status.value)
      (some ExpenseReportStatus.approved.value) (some r.userId))
    (records' : Records tr' user .settled (some t.status.value) (some TripStatus.settled.value)
      none) :
    ExpenseDeed s env user (.approve reportId)
      (.report (.update reportId r r') ::
        recordTransition env .expenseReport (.stored reportId) tr ++
          .trip (.update r.tripId t t') :: recordTransition env .trip (.stored r.tripId) tr')
  | reject {reportId : Int} {payload : RejectRequest} {r r' : ExpenseReport} {reason : String}
    {tr : Transition}
    (load : loadVisibleReport s reportId user = .ok r) (approver : r.approverId = some user.id)
    (status : r.status = .submitted)
    (given : assertRejectReason (some payload.reason) = .ok reason)
    (moved : r' = { r with status := .rejected, rejectReason := some reason })
    (records : Records tr user .rejected (some r.status.value)
      (some ExpenseReportStatus.rejected.value) (some r.userId)) :
    ExpenseDeed s env user (.reject reportId payload)
      (.report (.update reportId r r') :: recordTransition env .expenseReport (.stored reportId) tr)
  | reopen {reportId : Int} {r r' : ExpenseReport} {tr : Transition}
    (load : loadVisibleReport s reportId user = .ok r) (owner : user.id = r.userId)
    (status : r.status = .rejected)
    (moved : r' = { r with status := .draft, submittedAt := none, approvedAt := none })
    (records : Records tr user .updated (some r.status.value)
      (some ExpenseReportStatus.draft.value) none) :
    ExpenseDeed s env user (.reopen reportId)
      (.report (.update reportId r r') :: recordTransition env .expenseReport (.stored reportId) tr)

/-! ## The plans of the services are deeds -/

variable {s : Store} {env : Env} {user : CurrentUser} {p : Plan}

theorem validateWritableFields_eq_ok {purposeCode destinationTypeCode countryCode : Option String}
    {startDate endDate : Option Date} {u : Unit}
    (h : validateWritableFields s purposeCode destinationTypeCode countryCode startDate endDate =
      .ok u) :
    Codes.validateCodes s (codeFields purposeCode destinationTypeCode countryCode) = .ok () ∧
      ∃ a b, startDate = some a ∧ endDate = some b ∧ ¬ b < a := by
  obtain ⟨_, hcodes, h⟩ := bind_eq_ok.mp h
  refine ⟨hcodes, ?_⟩
  rcases startDate with _ | a <;> rcases endDate with _ | b
  · cases h
  · cases h
  · cases h
  · exact ⟨a, b, rfl, rfl, guardE_eq_ok.mp h⟩

/-- What `update_trip` writes over a row. -/
theorem assign_eq_ok {t t' : Trip} {payload : TripUpdate} (h : assign t payload = .ok t') :
    t' = { t with
      title := (payload.title.map Str.val).onto t.title
      purposeCode := (payload.purposeCode.map Str.val).onto t.purposeCode
      purposeDetail := (payload.purposeDetail.map StrMin.val).onto t.purposeDetail
      destinationTypeCode := (payload.destinationTypeCode.map Str.val).onto t.destinationTypeCode
      countryCode := (payload.countryCode.map Str.val).onto t.countryCode
      city := (payload.city.map Str.val).onto t.city
      startDate := payload.startDate.onto t.startDate
      endDate := payload.endDate.onto t.endDate } := by
  simp only [assign, bind_eq_ok, Sent.setRequired_eq_ok, pure_eq_ok, Except.ok.injEq] at h
  obtain ⟨_, -, _, -, _, -, _, ⟨-, rfl⟩, _, ⟨-, rfl⟩, _, ⟨-, rfl⟩, _, ⟨-, rfl⟩, _, ⟨-, rfl⟩,
    _, ⟨-, rfl⟩, _, ⟨-, rfl⟩, _, ⟨-, rfl⟩, rfl⟩ := h
  rfl

theorem onto_of_setNullable {α : Type} {f : Sent α} {cur v : α}
    (h : f.setNullable (some cur) = some v) : f.onto cur = v := by
  cases f <;> simp_all [Sent.setNullable, Sent.onto]

theorem tripDeed_create {payload : TripCreate} (h : createTrip s env user payload = .ok p) :
    TripDeed s env user (.create payload) p.writes := by
  obtain ⟨_, hvalid, h⟩ := bind_eq_ok.mp h
  obtain ⟨tripNo, hno, h⟩ := bind_eq_ok.mp h
  simp only [bind_eq_ok, pure_eq_ok, Except.ok.injEq] at h
  obtain ⟨_, -, _, -, _, -, rfl⟩ := h
  obtain ⟨-, a, b, ha, hb, hrange⟩ := validateWritableFields_eq_ok hvalid
  rw [Option.some.injEq] at ha hb
  subst ha hb
  exact .create ⟨hno, rfl, ⟨rfl, rfl⟩, hrange, rfl, rfl, rfl, rfl, rfl, rfl⟩
    ⟨rfl, rfl, rfl, rfl, rfl⟩

theorem tripDeed_update {tripId : Int} {payload : TripUpdate}
    (h : updateTrip s env user tripId payload = .ok p) :
    TripDeed s env user (.update tripId payload) p.writes := by
  obtain ⟨t, hload, h⟩ := bind_eq_ok.mp h
  obtain ⟨_, howner, h⟩ := bind_eq_ok.mp h
  obtain ⟨_, hedit, h⟩ := bind_eq_ok.mp h
  obtain ⟨_, hvalid, h⟩ := bind_eq_ok.mp h
  obtain ⟨t', hassign, h⟩ := bind_eq_ok.mp h
  rw [pure_eq_ok, Except.ok.injEq] at h
  obtain ⟨-, a, b, ha, hb, hrange⟩ := validateWritableFields_eq_ok hvalid
  have ht' := assign_eq_ok hassign
  subst h
  refine .update hload (guardE_eq_ok.mp howner) (guardE_eq_ok.mp hedit) hassign ?_ ?_
    ⟨rfl, rfl, rfl, rfl, rfl⟩
  · rw [ht']
    simp only [onto_of_setNullable ha, onto_of_setNullable hb]
    exact hrange
  · subst ht'
    exact ⟨rfl, rfl, rfl, rfl, rfl, rfl, rfl, rfl, rfl⟩

theorem tripDeed_delete {tripId : Int} (h : deleteTrip s env user tripId = .ok p) :
    TripDeed s env user (.delete tripId) p.writes := by
  obtain ⟨t, hload, h⟩ := bind_eq_ok.mp h
  obtain ⟨_, howner, h⟩ := bind_eq_ok.mp h
  obtain ⟨_, hstatus, h⟩ := bind_eq_ok.mp h
  rw [pure_eq_ok, Except.ok.injEq] at h
  subst h
  have hdraft := guardE_eq_ok.mp hstatus
  exact .delete hload (guardE_eq_ok.mp howner) (by simpa [deletableStatuses] using hdraft)

/-- The shape all transitions of a trip share. -/
theorem transition_eq_ok {tripId : Int} {target : TripStatus}
    {change : Trip → Result Trips.Change}
    (h : Trips.transition s env user tripId target change = .ok p) :
    ∃ t c, loadVisibleTrip s tripId user = .ok t ∧
      MayTransition t.status target user.id t.userId t.approverId ∧ change t = .ok c ∧
      p = { now := env.txnNow
            writes := .trip (.update tripId t { c.trip with status := target }) ::
              recordTransition env .trip (.stored tripId)
                { actorId := user.id, action := c.action, fromStatus := some t.status.value
                  toStatus := some target.value, memo := c.memo, notify := c.notify } } := by
  obtain ⟨t, hload, h⟩ := bind_eq_ok.mp h
  obtain ⟨_, hmay, h⟩ := bind_eq_ok.mp h
  obtain ⟨c, hc, h⟩ := bind_eq_ok.mp h
  rw [pure_eq_ok, Except.ok.injEq] at h
  exact ⟨t, c, hload, assertTransitionAllowed_eq_ok.mp hmay, hc, h.symm⟩

/-- Each target has one source and one actor. -/
theorem of_mayTransition {current target : TripStatus} {userId ownerId : Int}
    {approverId : Option Int} (h : MayTransition current target userId ownerId approverId) :
    match target with
    | .submitted => current = .draft ∧ userId = ownerId
    | .approved => current = .submitted ∧ approverId = some userId
    | .rejected => current = .submitted ∧ approverId = some userId
    | .draft => current = .rejected ∧ userId = ownerId
    | .completed => current = .approved ∧ userId = ownerId
    | .settled => False := by
  cases current <;> cases target <;> first | exact ⟨rfl, h⟩ | exact False.elim h

theorem tripDeed_submit {tripId : Int} (h : submitTrip s env user tripId = .ok p) :
    TripDeed s env user (.submit tripId) p.writes := by
  obtain ⟨t, c, hload, hmay, hc, rfl⟩ := transition_eq_ok h
  obtain ⟨_, hrange, hc⟩ := bind_eq_ok.mp hc
  obtain ⟨approverId, happr, hc⟩ := bind_eq_ok.mp hc
  rw [pure_eq_ok, Except.ok.injEq] at hc
  subst hc
  obtain ⟨hstatus, howner⟩ := of_mayTransition hmay
  exact .submit hload howner hstatus (guardE_eq_ok.mp hrange) (getE_eq_ok.mp happr) rfl
    ⟨rfl, rfl, rfl, rfl, rfl⟩

theorem tripDeed_approve {tripId : Int} (h : approveTrip s env user tripId = .ok p) :
    TripDeed s env user (.approve tripId) p.writes := by
  obtain ⟨t, c, hload, hmay, hc, rfl⟩ := transition_eq_ok h
  rw [pure_eq_ok, Except.ok.injEq] at hc
  subst hc
  obtain ⟨hstatus, happr⟩ := of_mayTransition hmay
  exact .approve hload happr hstatus rfl ⟨rfl, rfl, rfl, rfl, rfl⟩

theorem tripDeed_reject {tripId : Int} {payload : RejectRequest}
    (h : rejectTrip s env user tripId payload = .ok p) :
    TripDeed s env user (.reject tripId payload) p.writes := by
  obtain ⟨t, c, hload, hmay, hc, rfl⟩ := transition_eq_ok h
  obtain ⟨reason, hreason, hc⟩ := bind_eq_ok.mp hc
  obtain ⟨_, -, hc⟩ := bind_eq_ok.mp hc
  rw [pure_eq_ok, Except.ok.injEq] at hc
  subst hc
  obtain ⟨hstatus, happr⟩ := of_mayTransition hmay
  exact .reject hload happr hstatus hreason rfl ⟨rfl, rfl, rfl, rfl, rfl⟩

theorem tripDeed_reopen {tripId : Int} (h : reopenTrip s env user tripId = .ok p) :
    TripDeed s env user (.reopen tripId) p.writes := by
  obtain ⟨t, c, hload, hmay, hc, rfl⟩ := transition_eq_ok h
  rw [pure_eq_ok, Except.ok.injEq] at hc
  subst hc
  obtain ⟨hstatus, howner⟩ := of_mayTransition hmay
  exact .reopen hload howner hstatus rfl ⟨rfl, rfl, rfl, rfl, rfl⟩

theorem tripDeed_complete {tripId : Int} (h : completeTrip s env user tripId = .ok p) :
    TripDeed s env user (.complete tripId) p.writes := by
  obtain ⟨t, c, hload, hmay, hc, rfl⟩ := transition_eq_ok h
  obtain ⟨_, hended, hc⟩ := bind_eq_ok.mp hc
  rw [pure_eq_ok, Except.ok.injEq] at hc
  subst hc
  obtain ⟨hstatus, howner⟩ := of_mayTransition hmay
  exact .complete hload howner hstatus (guardE_eq_ok.mp hended) rfl ⟨rfl, rfl, rfl, rfl, rfl⟩

theorem tripDeed_of_plan {call : TripCall} (h : call.plan s env user = .ok p) :
    TripDeed s env user call p.writes := by
  cases call with
  | create payload => exact tripDeed_create h
  | update tripId payload => exact tripDeed_update h
  | delete tripId => exact tripDeed_delete h
  | submit tripId => exact tripDeed_submit h
  | approve tripId => exact tripDeed_approve h
  | reject tripId payload => exact tripDeed_reject h
  | reopen tripId => exact tripDeed_reopen h
  | complete tripId => exact tripDeed_complete h

theorem expenseDeed_create {payload : ExpenseReportCreate}
    (h : createReport s env user payload = .ok p) :
    ExpenseDeed s env user (.create payload) p.writes := by
  obtain ⟨t, hload, h⟩ := bind_eq_ok.mp h
  obtain ⟨_, howner, h⟩ := bind_eq_ok.mp h
  obtain ⟨_, hreportable, h⟩ := bind_eq_ok.mp h
  obtain ⟨_, hsingle, h⟩ := bind_eq_ok.mp h
  obtain ⟨reportNo, hno, h⟩ := bind_eq_ok.mp h
  rw [pure_eq_ok, Except.ok.injEq] at h
  subst h
  exact .create hload (guardE_eq_ok.mp howner) (guardE_eq_ok.mp hreportable)
    (guardE_eq_ok.mp hsingle) ⟨hno, rfl, rfl, rfl, rfl, rfl, rfl, rfl, rfl, rfl, rfl⟩
    ⟨rfl, rfl, rfl, rfl, rfl⟩

theorem expenseDeed_update {reportId : Int} {payload : ExpenseReportUpdate}
    (h : updateReport s env user reportId payload = .ok p) :
    ExpenseDeed s env user (.update reportId payload) p.writes := by
  obtain ⟨r, hload, h⟩ := bind_eq_ok.mp h
  obtain ⟨_, hcenters, h⟩ := bind_eq_ok.mp h
  rw [pure_eq_ok, Except.ok.injEq] at h
  subst h
  exact .update hload hcenters rfl ⟨rfl, rfl, rfl, rfl, rfl⟩

/-- The end all three edits of the items share. -/
theorem editItems_eq_ok {reportId : Int} {r : ExpenseReport} {w : RowWrite ExpenseItem}
    (h : editItems s env reportId r w = .ok p) :
    ∃ flushed total, s.flush env.txnNow (.item w) = .ok flushed ∧
      recalcTotal flushed reportId = .ok total ∧
      p = { now := env.txnNow
            writes :=
              [.item w, .report (.update reportId r { r with totalAmountKrw := total })] } := by
  obtain ⟨flushed, hflush, h⟩ := bind_eq_ok.mp h
  obtain ⟨total, hrecalc, h⟩ := bind_eq_ok.mp h
  rw [pure_eq_ok, Except.ok.injEq] at h
  exact ⟨flushed, total, hflush, hrecalc, h.symm⟩

theorem loadItemForEdit_eq_ok {itemId : Int} {it : ExpenseItem} {r : ExpenseReport} :
    loadItemForEdit s user itemId = .ok (it, r) ↔
      IsInt4 itemId ∧ s.items.get itemId = some it ∧
        loadEditableReport s user it.reportId = .ok r := by
  simp only [loadItemForEdit, bind_eq_ok, sessionGet_eq_ok, getE_eq_ok, pure_eq_ok,
    Except.ok.injEq, Prod.mk.injEq]
  constructor
  · rintro ⟨_, ⟨hid, rfl⟩, _, hget, _, hload, rfl, rfl⟩
    exact ⟨hid, hget, hload⟩
  · rintro ⟨hid, hget, hload⟩
    exact ⟨_, ⟨hid, rfl⟩, _, hget, _, hload, rfl, rfl⟩

theorem storeKrw_eq_ok {column : String} {d : Decimal} {x : Krw} (h : storeKrw column d = .ok x) :
    IsNumeric d := by
  obtain ⟨_, hd, -⟩ := bind_eq_ok.mp h
  exact guardE_eq_ok.mp hd

/-- An amount that passed its bound is within it after it was stored. -/
theorem bounds_of_storeKrw {column : String} {d : Decimal} {x : Krw}
    (hbound : assertItemAmount d = .ok ()) (h : storeKrw column d = .ok x) :
    0 ≤ x.units ∧ x.units ≤ maxItemAmount.coeff := by
  obtain ⟨y, hy, hy0, hymax⟩ := storeKrw_of_assertItemAmount column hbound (storeKrw_eq_ok h)
  rw [h, Except.ok.injEq] at hy
  exact hy ▸ ⟨hy0, hymax⟩

theorem itemAmount_usable {reportId : Int} {r : ExpenseReport} {payload : ExpenseItemCreate}
    {d : Decimal} (h : itemAmount s r reportId payload = .ok d) {x : Int}
    (hx : payload.cardTransactionId = some x) :
    ∃ txn, assertUsableTransaction s r reportId x = .ok txn := by
  rw [itemAmount, hx] at h
  obtain ⟨txn, htxn, -⟩ := bind_eq_ok.mp h
  exact ⟨txn, htxn⟩

theorem expenseDeed_addItem {reportId : Int} {payload : ExpenseItemCreate}
    (h : addItem s env user reportId payload = .ok p) :
    ExpenseDeed s env user (.addItem reportId payload) p.writes := by
  obtain ⟨r, hload, h⟩ := bind_eq_ok.mp h
  obtain ⟨_, hcategory, h⟩ := bind_eq_ok.mp h
  obtain ⟨_, hcenters, h⟩ := bind_eq_ok.mp h
  obtain ⟨amount, hamount, h⟩ := bind_eq_ok.mp h
  obtain ⟨_, hbound, h⟩ := bind_eq_ok.mp h
  obtain ⟨_, -, h⟩ := bind_eq_ok.mp h
  obtain ⟨amountKrw, hstore, h⟩ := bind_eq_ok.mp h
  obtain ⟨flushed, total, hflush, hrecalc, rfl⟩ := editItems_eq_ok h
  obtain ⟨h0, hmax⟩ := bounds_of_storeKrw hbound hstore
  exact .addItem hload ⟨rfl, rfl, fun x hx => itemAmount_usable hamount hx, hcategory, hcenters, h0,
    hmax, rfl⟩ hflush hrecalc

/-- What `update_item` writes over an item. -/
theorem assignItem_eq_ok {it it' : ExpenseItem} {payload : ExpenseItemUpdate}
    (h : assignItem it payload = .ok it') :
    it'.reportId = it.reportId ∧ it'.cardTransactionId = it.cardTransactionId ∧
      it'.isExcluded = payload.isExcluded.onto it.isExcluded ∧
      assignAmount it.amountKrw payload.amountKrw = .ok it'.amountKrw := by
  simp only [assignItem, bind_eq_ok, Sent.setRequired_eq_ok, pure_eq_ok, Except.ok.injEq] at h
  obtain ⟨_, -, _, -, amount, hamount, _, ⟨-, rfl⟩, rfl⟩ := h
  exact ⟨rfl, rfl, rfl, hamount⟩

/-- The bound is checked before an amount is stored. -/
theorem bound_of_validateItemChanges {payload : ExpenseItemUpdate} {u : Unit}
    (h : validateItemChanges s payload = .ok u) {d : Decimal} (hd : payload.amountKrw = .value d) :
    assertItemAmount d = .ok () := by
  simp only [validateItemChanges, bind_eq_ok, checkSome_eq_ok, Sent.val?_eq_some] at h
  obtain ⟨-, -, -, -, hbound⟩ := h
  exact hbound d hd

theorem expenseDeed_updateItem {itemId : Int} {payload : ExpenseItemUpdate}
    (h : updateItem s env user itemId payload = .ok p) :
    ExpenseDeed s env user (.updateItem itemId payload) p.writes := by
  obtain ⟨⟨it, r⟩, hload, h⟩ := bind_eq_ok.mp h
  obtain ⟨hid, hget, hload⟩ := loadItemForEdit_eq_ok.mp hload
  obtain ⟨_, hchecked, h⟩ := bind_eq_ok.mp h
  obtain ⟨it', hassign, h⟩ := bind_eq_ok.mp h
  obtain ⟨flushed, total, hflush, hrecalc, rfl⟩ := editItems_eq_ok h
  exact .updateItem hid hget hload hchecked hassign hflush hrecalc

theorem expenseDeed_deleteItem {itemId : Int} (h : deleteItem s env user itemId = .ok p) :
    ExpenseDeed s env user (.deleteItem itemId) p.writes := by
  obtain ⟨⟨it, r⟩, hload, h⟩ := bind_eq_ok.mp h
  obtain ⟨hid, hget, hload⟩ := loadItemForEdit_eq_ok.mp hload
  obtain ⟨flushed, total, hflush, hrecalc, rfl⟩ := editItems_eq_ok h
  exact .deleteItem hid hget hload hflush hrecalc

/-- The shape all transitions of a report share. -/
theorem reportTransition_eq_ok {reportId : Int} {target : ExpenseReportStatus}
    {change : ExpenseReport → Result Expenses.Change}
    (h : Expenses.transition s env user reportId target change = .ok p) :
    ∃ r c, loadVisibleReport s reportId user = .ok r ∧
      MayTransitionReport r.status target user.id r.userId r.approverId ∧ change r = .ok c ∧
      p = { now := env.txnNow
            writes := .report (.update reportId r { c.report with status := target }) ::
              recordTransition env .expenseReport (.stored reportId)
                { actorId := user.id, action := c.action, fromStatus := some r.status.value
                  toStatus := some target.value, memo := c.memo, notify := c.notify } ++
                c.after } := by
  obtain ⟨r, hload, h⟩ := bind_eq_ok.mp h
  obtain ⟨_, hmay, h⟩ := bind_eq_ok.mp h
  obtain ⟨c, hc, h⟩ := bind_eq_ok.mp h
  rw [pure_eq_ok, Except.ok.injEq] at h
  exact ⟨r, c, hload, assertExpenseTransitionAllowed_eq_ok.mp hmay, hc, h.symm⟩

/-- Each target has one source and one actor. -/
theorem of_mayTransitionReport {current target : ExpenseReportStatus} {userId ownerId : Int}
    {approverId : Option Int} (h : MayTransitionReport current target userId ownerId approverId) :
    match target with
    | .submitted => current = .draft ∧ userId = ownerId
    | .approved => current = .submitted ∧ approverId = some userId
    | .rejected => current = .submitted ∧ approverId = some userId
    | .draft => current = .rejected ∧ userId = ownerId := by
  cases current <;> cases target <;> first | exact ⟨rfl, h⟩ | exact False.elim h

theorem expenseDeed_submit {reportId : Int} (h : submitReport s env user reportId = .ok p) :
    ExpenseDeed s env user (.submit reportId) p.writes := by
  obtain ⟨r, c, hload, hmay, hc, rfl⟩ := reportTransition_eq_ok h
  obtain ⟨t, htrip, hc⟩ := bind_eq_ok.mp hc
  obtain ⟨_, hcompleted, hc⟩ := bind_eq_ok.mp hc
  obtain ⟨_, hpresent, hc⟩ := bind_eq_ok.mp hc
  obtain ⟨_, hfund, hc⟩ := bind_eq_ok.mp hc
  obtain ⟨_, hcost, hc⟩ := bind_eq_ok.mp hc
  obtain ⟨_, hitems, hc⟩ := bind_eq_ok.mp hc
  obtain ⟨total, hrecalc, hc⟩ := bind_eq_ok.mp hc
  obtain ⟨approverId, happr, hc⟩ := bind_eq_ok.mp hc
  rw [pure_eq_ok, Except.ok.injEq] at hc
  subst hc
  obtain ⟨hstatus, howner⟩ := of_mayTransitionReport hmay
  obtain ⟨_, hpf, hpc⟩ := bind_eq_ok.mp hpresent
  simp only [List.append_nil]
  exact .submit hload howner hstatus (getE_eq_ok.mp htrip) (guardE_eq_ok.mp hcompleted)
    ⟨guardE_eq_ok.mp hpf, guardE_eq_ok.mp hpc⟩ ⟨hfund, hcost⟩ (guardE_eq_ok.mp hitems) hrecalc
    (getE_eq_ok.mp happr) rfl ⟨rfl, rfl, rfl, rfl, rfl⟩

theorem expenseDeed_approve {reportId : Int} (h : approveReport s env user reportId = .ok p) :
    ExpenseDeed s env user (.approve reportId) p.writes := by
  obtain ⟨r, c, hload, hmay, hc, rfl⟩ := reportTransition_eq_ok h
  obtain ⟨t, htrip, hc⟩ := bind_eq_ok.mp hc
  obtain ⟨settle, hsettle, hc⟩ := bind_eq_ok.mp hc
  rw [pure_eq_ok, Except.ok.injEq] at hc
  subst hc
  obtain ⟨_, hsystem, hsettle⟩ := bind_eq_ok.mp hsettle
  rw [pure_eq_ok, Except.ok.injEq] at hsettle
  subst hsettle
  obtain ⟨hstatus, happr⟩ := of_mayTransitionReport hmay
  have hcompleted := (assertSystemTransition_eq_ok.mp hsystem).1
  exact .approve hload happr hstatus (getE_eq_ok.mp htrip) hcompleted
    rfl rfl ⟨rfl, rfl, rfl, rfl, rfl⟩ ⟨rfl, rfl, rfl, rfl, rfl⟩

theorem expenseDeed_reject {reportId : Int} {payload : RejectRequest}
    (h : rejectReport s env user reportId payload = .ok p) :
    ExpenseDeed s env user (.reject reportId payload) p.writes := by
  obtain ⟨r, c, hload, hmay, hc, rfl⟩ := reportTransition_eq_ok h
  obtain ⟨reason, hreason, hc⟩ := bind_eq_ok.mp hc
  obtain ⟨t, -, hc⟩ := bind_eq_ok.mp hc
  obtain ⟨_, -, hc⟩ := bind_eq_ok.mp hc
  rw [pure_eq_ok, Except.ok.injEq] at hc
  subst hc
  obtain ⟨hstatus, happr⟩ := of_mayTransitionReport hmay
  simp only [List.append_nil]
  exact .reject hload happr hstatus hreason rfl ⟨rfl, rfl, rfl, rfl, rfl⟩

theorem expenseDeed_reopen {reportId : Int} (h : reopenReport s env user reportId = .ok p) :
    ExpenseDeed s env user (.reopen reportId) p.writes := by
  obtain ⟨r, c, hload, hmay, hc, rfl⟩ := reportTransition_eq_ok h
  rw [pure_eq_ok, Except.ok.injEq] at hc
  subst hc
  obtain ⟨hstatus, howner⟩ := of_mayTransitionReport hmay
  simp only [List.append_nil]
  exact .reopen hload howner hstatus rfl ⟨rfl, rfl, rfl, rfl, rfl⟩

theorem expenseDeed_of_plan {call : ExpenseCall} (h : call.plan s env user = .ok p) :
    ExpenseDeed s env user call p.writes := by
  cases call with
  | create payload => exact expenseDeed_create h
  | update reportId payload => exact expenseDeed_update h
  | addItem reportId payload => exact expenseDeed_addItem h
  | updateItem itemId payload => exact expenseDeed_updateItem h
  | deleteItem itemId => exact expenseDeed_deleteItem h
  | submit reportId => exact expenseDeed_submit h
  | approve reportId => exact expenseDeed_approve h
  | reject reportId payload => exact expenseDeed_reject h
  | reopen reportId => exact expenseDeed_reopen h

/-- What a desk request has decided, by its call. -/
inductive Deed (s : Store) (env : Env) (user : CurrentUser) : DeskCall → List Write → Prop where
  | trip {call : TripCall} {ws : List Write} (deed : TripDeed s env user call ws) :
    Deed s env user (.trip call) ws
  | expense {call : ExpenseCall} {ws : List Write} (deed : ExpenseDeed s env user call ws) :
    Deed s env user (.expense call) ws

theorem deed_of_plan {r : DeskRequest} (h : desk.plan s r = .ok p) :
    ∃ user, currentUser s r.userId = .ok user ∧ Deed s r.env user r.call p.writes := by
  obtain ⟨user, huser, h⟩ := bind_eq_ok.mp h
  refine ⟨user, huser, ?_⟩
  rcases r with ⟨env, userId, call⟩
  cases call with
  | trip call => exact .trip (tripDeed_of_plan h)
  | expense call => exact .expense (expenseDeed_of_plan h)

end Biztrip.Desk
