import Biztrip.Reads.Linked
import Biztrip.Reads.Noninterference

/-!
# What is hidden is as what is missing

To who may not see a row, a call for it by its id answers as for an id under which there
is none. The calls for a trip, a report, a notification or a key keep to this
(`hidden_like_missing_iff`). The two for an item do not: they look the item up before
they ask whether its report may be seen.
-/

namespace Biztrip.Reads

open Biztrip.Lib

/-! ## Calls by id -/

/-- The calls for a trip. -/
inductive OnTrip where
  | get
  | timeline
  | update (payload : TripUpdate)
  | delete
  | submit
  | approve
  | reject (payload : RejectRequest)
  | reopen
  | complete
  | createReport

/-- The calls for a report. -/
inductive OnReport where
  | get
  | timeline
  | matchCandidates
  | update (payload : ExpenseReportUpdate)
  | addItem (payload : ExpenseItemCreate)
  | submit
  | approve
  | reject (payload : RejectRequest)
  | reopen

/-- The calls for an item. -/
inductive OnItem where
  | update (payload : ExpenseItemUpdate)
  | delete

inductive ById where
  | trip (call : OnTrip)
  | report (call : OnReport)
  | item (call : OnItem)
  | markRead
  | revokeKey

/-- A call that only reads leaves the store as it is. -/
def reading {α : Type} (s : Store) (reply : Result α) : Result Store := do
  let _ ← reply
  return s

section
variable (P : Platform) (sec : Security) (s : Store) (env : Env) (u : Int)

def read (call : ReadCall) : Result Store := reading s (ReadRequest.reply P s ⟨env, u, call⟩)

def write (call : Call) : Result Store := (system sec).step s ⟨env, call⟩

def OnTrip.run (tripId : Int) : OnTrip → Result Store
  | .get => read P s env u (.getTrip tripId)
  | .timeline => read P s env u (.listTimeline tripId)
  | .update payload => write sec s env (.desk u (.trip (.update tripId payload)))
  | .delete => write sec s env (.desk u (.trip (.delete tripId)))
  | .submit => write sec s env (.desk u (.trip (.submit tripId)))
  | .approve => write sec s env (.desk u (.trip (.approve tripId)))
  | .reject payload => write sec s env (.desk u (.trip (.reject tripId payload)))
  | .reopen => write sec s env (.desk u (.trip (.reopen tripId)))
  | .complete => write sec s env (.desk u (.trip (.complete tripId)))
  | .createReport => write sec s env (.desk u (.expense (.create ⟨tripId⟩)))

def OnReport.run (reportId : Int) : OnReport → Result Store
  | .get => read P s env u (.getReport reportId)
  | .timeline => read P s env u (.listReportTimeline reportId)
  | .matchCandidates =>
    reading s (do Expenses.listMatchCandidates P s (← currentUser s u) reportId)
  | .update payload => write sec s env (.desk u (.expense (.update reportId payload)))
  | .addItem payload => write sec s env (.desk u (.expense (.addItem reportId payload)))
  | .submit => write sec s env (.desk u (.expense (.submit reportId)))
  | .approve => write sec s env (.desk u (.expense (.approve reportId)))
  | .reject payload => write sec s env (.desk u (.expense (.reject reportId payload)))
  | .reopen => write sec s env (.desk u (.expense (.reopen reportId)))

def OnItem.run (itemId : Int) : OnItem → Result Store
  | .update payload => write sec s env (.desk u (.expense (.updateItem itemId payload)))
  | .delete => write sec s env (.desk u (.expense (.deleteItem itemId)))

/-- The call of the user `u` for the row under `i`. -/
def ById.run (i : Int) : ById → Result Store
  | .trip call => call.run P sec s env u i
  | .report call => call.run P sec s env u i
  | .item call => call.run sec s env u i
  | .markRead => write sec s env (.personal u (.markRead i))
  | .revokeKey => write sec s env (.personal u (.revokeKey i))

end

/-! ## Hidden and missing -/

/-- There is a row under `i`, of a trip or a report that is not on the desk of `u`, or that is
somebody else's. The keys of all tables are of the type `integer`. -/
def ById.hidden (s : Store) (u i : Int) : ById → Bool
  | .trip _ => (s.trips.get i).any fun t => !tripOnDesk u t
  | .report _ => (s.reports.get i).any fun r => !reportOnDesk u r
  | .item _ => (s.items.get i).any fun it =>
      (s.reports.get it.reportId).any fun r => !reportOnDesk u r
  | .markRead => (s.notifications.get i).any fun n => n.userId ≠ u
  | .revokeKey => (s.apiKeys.get i).any fun k => k.userId ≠ u

def ById.missing (s : Store) (i : Int) : ById → Bool
  | .trip _ => (s.trips.get i).isNone
  | .report _ => (s.reports.get i).isNone
  | .item _ => (s.items.get i).isNone
  | .markRead => (s.notifications.get i).isNone
  | .revokeKey => (s.apiKeys.get i).isNone

def ById.isItem : ById → Bool
  | .item _ => true
  | _ => false

/-- What is said of a missing row. -/
def ById.notFound : ById → AppError
  | .trip _ => Trips.tripNotFound
  | .report _ => Expenses.expenseNotFound
  | .item _ => notFoundError "EXPENSE_ITEM_NOT_FOUND" "정산 항목을 찾을 수 없습니다"
  | .markRead => notFoundError "NOTIFICATION_NOT_FOUND" "알림을 찾을 수 없습니다"
  | .revokeKey => notFoundError "API_KEY_NOT_FOUND" "API Key를 찾을 수 없습니다"

variable {P : Platform} {sec : Security} {s : Store} {env : Env} {u i j : Int} {user : CurrentUser}
  {e : Fault}

/-! ## Where a call stops -/

theorem write_of_error {call : Call} (h : call.plan sec s env = .error e) :
    write sec s env call = .error e := by
  unfold write Machine.step
  rw [show (system sec).plan s ⟨env, call⟩ = .error e from h, error_bind]

theorem desk_of_error {call : DeskCall} (huser : currentUser s u = .ok user)
    (h : call.plan s env user = .error e) : write sec s env (.desk u call) = .error e :=
  write_of_error <| by rw [Call.plan, huser, ok_bind, h]

theorem personal_of_error {call : PersonalCall} (huser : currentUser s u = .ok user)
    (h : call.plan sec s env user = .error e) : write sec s env (.personal u call) = .error e :=
  write_of_error <| by rw [Call.plan, huser, ok_bind, h]

theorem read_of_error {call : ReadCall} (huser : currentUser s u = .ok user)
    (h : call.reply P s env user = .error e) : read P s env u call = .error e := by
  unfold read reading ReadRequest.reply
  rw [huser, ok_bind, h, error_bind]

theorem tripTransition_of_error {target : TripStatus} {change : Trip → Result Trips.Change}
    (h : Trips.loadVisibleTrip s i user = .error e) :
    Trips.transition s env user i target change = .error e := by
  rw [Trips.transition, h, error_bind]

theorem expenseTransition_of_error {target : ExpenseReportStatus}
    {change : ExpenseReport → Result Expenses.Change}
    (h : Expenses.loadVisibleReport s i user = .error e) :
    Expenses.transition s env user i target change = .error e := by
  rw [Expenses.transition, h, error_bind]

/-- No call for a trip gets further than loading it. -/
theorem OnTrip.run_of_error (huser : currentUser s u = .ok user)
    (h : Trips.loadVisibleTrip s i user = .error e) (call : OnTrip) :
    call.run P sec s env u i = .error e := by
  cases call with
  | get => exact read_of_error huser (by rw [ReadCall.reply, Trips.getTrip, h]; rfl)
  | timeline => exact read_of_error huser (by rw [ReadCall.reply, Trips.listTimeline, h]; rfl)
  | update payload => exact desk_of_error huser (by
      rw [DeskCall.plan, TripCall.plan, Trips.updateTrip, h, error_bind])
  | delete => exact desk_of_error huser (by
      rw [DeskCall.plan, TripCall.plan, Trips.deleteTrip, h, error_bind])
  | submit | approve | reject | reopen | complete =>
    exact desk_of_error huser (tripTransition_of_error h)
  | createReport => exact desk_of_error huser (by
      rw [DeskCall.plan, ExpenseCall.plan, Expenses.createReport, h, error_bind])

theorem loadEditableReport_of_error (h : Expenses.loadVisibleReport s i user = .error e) :
    Expenses.loadEditableReport s user i = .error e := by
  rw [Expenses.loadEditableReport, h, error_bind]

/-- No call for a report gets further than loading it. -/
theorem OnReport.run_of_error (huser : currentUser s u = .ok user)
    (h : Expenses.loadVisibleReport s i user = .error e) (call : OnReport) :
    call.run P sec s env u i = .error e := by
  have hedit := loadEditableReport_of_error h
  cases call with
  | get => exact read_of_error huser (by rw [ReadCall.reply, Expenses.getReport, h]; rfl)
  | timeline =>
    exact read_of_error huser (by rw [ReadCall.reply, Expenses.listReportTimeline, h]; rfl)
  | matchCandidates =>
    unfold OnReport.run reading
    rw [huser, ok_bind, Expenses.listMatchCandidates, h, error_bind, error_bind]
  | update payload => exact desk_of_error huser (by
      rw [DeskCall.plan, ExpenseCall.plan, Expenses.updateReport, hedit, error_bind])
  | addItem payload => exact desk_of_error huser (by
      rw [DeskCall.plan, ExpenseCall.plan, Expenses.addItem, hedit, error_bind])
  | submit | approve | reject | reopen =>
    exact desk_of_error huser (expenseTransition_of_error h)

theorem OnItem.run_of_error (huser : currentUser s u = .ok user)
    (h : Expenses.loadItemForEdit s user i = .error e) (call : OnItem) :
    call.run sec s env u i = .error e := by
  cases call with
  | update payload => exact desk_of_error huser (by
      rw [DeskCall.plan, ExpenseCall.plan, Expenses.updateItem, h, error_bind])
  | delete => exact desk_of_error huser (by
      rw [DeskCall.plan, ExpenseCall.plan, Expenses.deleteItem, h, error_bind])

/-! ## What a call answers -/

theorem sessionGet_of_int4 {ρ : Type} {t : Table ρ} (hid : IsInt4 i) :
    sessionGet t i = .ok (t.get i) := sessionGet_eq_ok.mpr ⟨hid, rfl⟩

theorem sessionGet_of_large {ρ : Type} {t : Table ρ} (hid : ¬ IsInt4 i) :
    sessionGet t i = .error (.dataError "id") := sessionGet_eq_error.mpr ⟨hid, rfl⟩

theorem filter_eq_none_of_isNone {α : Type} {o : Option α} {p : α → Bool} (h : o.isNone = true) :
    o.filter p = none := by
  rw [Option.isNone_iff_eq_none.mp h, Option.filter_none]

theorem filter_eq_none_of_any {α : Type} {o : Option α} {p q : α → Bool} (h : o.any q = true)
    (hpq : ∀ a, p a = true → q a = false) : o.filter p = none := by
  refine Option.filter_eq_none_iff.mpr fun a ha hp => ?_
  rw [ha, Option.any_some, hpq a hp] at h
  cases h

/-- The row that the call loads is not there, or is filtered out. -/
def ById.unseen (s : Store) (user : CurrentUser) (i : Int) : ById → Prop
  | .trip _ => (s.trips.get i).filter (fun t =>
      canViewTrip user.id user.role t.userId t.approverId) = none
  | .report _ => (s.reports.get i).filter (fun r =>
      canViewReport user.id user.role r.userId r.approverId) = none
  | .item _ => s.items.get i = none
  | .markRead => (s.notifications.get i).filter (fun n => n.userId = user.id) = none
  | .revokeKey => (s.apiKeys.get i).filter (fun k => k.userId = user.id) = none

theorem ById.unseen_of_missing {op : ById} (h : op.missing s i = true) : op.unseen s user i := by
  cases op with
  | item call => exact Option.isNone_iff_eq_none.mp h
  | trip | report | markRead | revokeKey => exact filter_eq_none_of_isNone h

theorem ById.unseen_of_hidden {op : ById} (hrole : user.role ≠ .admin) (hitem : op.isItem = false)
    (h : op.hidden s user.id i = true) : op.unseen s user i := by
  cases op with
  | item call => cases hitem
  | trip call =>
    exact filter_eq_none_of_any h fun t ht => by rw [tripOnDesk, onDesk_of_view hrole ht]; rfl
  | report call =>
    refine filter_eq_none_of_any h fun r hr => ?_
    rw [reportOnDesk, onDesk_of_viewReport hrole hr]
    rfl
  | markRead | revokeKey =>
    exact filter_eq_none_of_any h fun r hr => decide_eq_false (not_not.mpr (of_decide_eq_true hr))

/-- Whatever the body and the state of the row, the call answers that there is no row. -/
theorem ById.run_of_unseen {op : ById} (huser : currentUser s u = .ok user) (hid : IsInt4 i)
    (h : op.unseen s user i) : op.run P sec s env u i = .error (.app op.notFound) := by
  cases op with
  | trip call =>
    refine OnTrip.run_of_error huser ?_ call
    rw [Trips.loadVisibleTrip, sessionGet_of_int4 hid, ok_bind, h]
    rfl
  | report call =>
    refine OnReport.run_of_error huser ?_ call
    rw [Expenses.loadVisibleReport, sessionGet_of_int4 hid, ok_bind, h]
    rfl
  | item call =>
    refine OnItem.run_of_error huser ?_ call
    rw [Expenses.loadItemForEdit, sessionGet_of_int4 hid, ok_bind, h]
    rfl
  | markRead =>
    refine personal_of_error huser ?_
    rw [PersonalCall.plan, Notifications.markRead, sessionGet_of_int4 hid, ok_bind, h]
    rfl
  | revokeKey =>
    refine personal_of_error huser ?_
    rw [PersonalCall.plan, ApiKeys.revokeKey, sessionGet_of_int4 hid, ok_bind, h]
    rfl

/-- A key that the column cannot hold fails in the driver. -/
theorem ById.run_of_large {op : ById} (huser : currentUser s u = .ok user) (hid : ¬ IsInt4 i) :
    op.run P sec s env u i = .error (.dataError "id") := by
  cases op with
  | trip call =>
    refine OnTrip.run_of_error huser ?_ call
    rw [Trips.loadVisibleTrip, sessionGet_of_large hid, error_bind]
  | report call =>
    refine OnReport.run_of_error huser ?_ call
    rw [Expenses.loadVisibleReport, sessionGet_of_large hid, error_bind]
  | item call =>
    refine OnItem.run_of_error huser ?_ call
    rw [Expenses.loadItemForEdit, sessionGet_of_large hid, error_bind]
  | markRead =>
    refine personal_of_error huser ?_
    rw [PersonalCall.plan, Notifications.markRead, sessionGet_of_large hid, error_bind]
  | revokeKey =>
    refine personal_of_error huser ?_
    rw [PersonalCall.plan, ApiKeys.revokeKey, sessionGet_of_large hid, error_bind]

/-- Of an item that is there, but not to be seen, it is said that there is no report. -/
theorem OnItem.run_of_hidden {call : OnItem} (huser : currentUser s user.id = .ok user)
    (hrole : user.role ≠ .admin) (h : (ById.item call).hidden s user.id i = true) :
    (ById.item call).run P sec s env user.id i = .error (.app Expenses.expenseNotFound) ∨
      (ById.item call).run P sec s env user.id i = .error (.dataError "id") := by
  by_cases hid : IsInt4 i
  case neg => exact .inr (ById.run_of_large huser hid)
  obtain ⟨it, hit, hreport⟩ := (Option.any_eq_true ..).mp h
  have hload : ∀ {e}, Expenses.loadVisibleReport s it.reportId user = .error e →
      Expenses.loadItemForEdit s user i = .error e := by
    intro e he
    rw [Expenses.loadItemForEdit, sessionGet_of_int4 hid, ok_bind, hit]
    rw [getE, ok_bind, loadEditableReport_of_error he, error_bind]
  by_cases hid' : IsInt4 it.reportId
  · refine .inl (OnItem.run_of_error huser (hload ?_) call)
    have hunseen : (ById.report .get).unseen s user it.reportId :=
      ById.unseen_of_hidden hrole rfl hreport
    rw [Expenses.loadVisibleReport, sessionGet_of_int4 hid', ok_bind, hunseen]
    rfl
  · refine .inr (OnItem.run_of_error huser (hload ?_) call)
    rw [Expenses.loadVisibleReport, sessionGet_of_large hid', error_bind]

/-! ## The two alike -/

/-- The call for `i` and the one for `j` answer with one error, and that for `i` changes nothing. -/
def ById.Alike (P : Platform) (sec : Security) (s : Store) (env : Env) (u i j : Int) (op : ById) :
    Prop :=
  (∃ e, op.run P sec s env u i = .error (.app e) ∧ op.run P sec s env u j = .error (.app e)) ∧
    Run.settle s (op.run P sec s env u i) = s

/-- That there is a report tells of an item that it is there. -/
theorem ById.not_alike_of_item {call : OnItem} (huser : currentUser s user.id = .ok user)
    (hrole : user.role ≠ .admin) (hhidden : (ById.item call).hidden s user.id i = true)
    (hmissing : (ById.item call).missing s j = true) (hid : IsInt4 j) :
    ¬ (ById.item call).Alike P sec s env user.id i j := by
  rintro ⟨⟨e, hi, hj⟩, -⟩
  rw [ById.run_of_unseen huser hid (ById.unseen_of_missing hmissing)] at hj
  obtain rfl : (ById.item call).notFound = e := Fault.app.inj (Except.error.inj hj)
  rcases OnItem.run_of_hidden huser hrole hhidden with hrun | hrun
  · rw [hrun] at hi
    have hcode := congrArg AppError.code (Fault.app.inj (Except.error.inj hi))
    exact absurd hcode (by decide : "EXPENSE_NOT_FOUND" ≠ "EXPENSE_ITEM_NOT_FOUND")
  · rw [hrun] at hi
    cases hi

/-- To a user without the role of an administrator a hidden row is as a missing one, but for
items. -/
theorem hidden_like_missing_iff (P : Platform) (sec : Security) (env : Env) (op : ById)
    {row : User} (hrow : s.users.get u = some row) (hrole : row.role ≠ .admin)
    (hhidden : op.hidden s u i = true) (hmissing : op.missing s j = true) :
    op.Alike P sec s env u i j ↔ op.isItem = false ∧ IsInt4 i ∧ IsInt4 j := by
  obtain ⟨user, huser, rfl, rfl⟩ : ∃ user : CurrentUser, currentUser s u = .ok user ∧
      user.id = u ∧ user.toUser = row :=
    ⟨{ row with id := u }, currentUser_eq_ok.mpr ⟨hrow, rfl⟩, rfl, rfl⟩
  constructor
  · intro halike
    have ⟨⟨e, hi, hj⟩, _⟩ := halike
    have hint : ∀ {k}, op.run P sec s env user.id k = .error (.app e) → IsInt4 k := by
      intro k hk
      by_contra hlarge
      rw [ById.run_of_large huser hlarge] at hk
      cases hk
    refine ⟨?_, hint hi, hint hj⟩
    cases op with
    | item call =>
      exact absurd halike (ById.not_alike_of_item huser hrole hhidden hmissing (hint hj))
    | trip | report | markRead | revokeKey => rfl
  · rintro ⟨hitem, hi, hj⟩
    have hrun : op.run P sec s env user.id i = .error (.app op.notFound) :=
      ById.run_of_unseen huser hi (ById.unseen_of_hidden hrole hitem hhidden)
    exact ⟨⟨_, hrun, ById.run_of_unseen huser hj (ById.unseen_of_missing hmissing)⟩, by
      rw [hrun, Run.settle]⟩

/-! ## In the office -/

/-- The office with Choi, who works for Lee as Kim does. -/
def withChoi : Store :=
  { Office.store with
    users := Office.store.users.insert
      (Office.user "choi@sk.com" "Choi" "E4" (some 2) .employee) }

/-- Kim's trip is done, and Kim's report has its one item. -/
def kimsReport : List (Request Call) :=
  (Office.tripDone 1 ++ (Office.reportSubmitted 1).take 3).map fun r =>
    ⟨r.env, .desk r.userId r.call⟩

theorem withChoi_role :
    ((Run.all (system Office.sec).step withChoi kimsReport).users.get 4).map User.role =
      some .employee := by
  decide +kernel

/-- Choi does not see Kim's report. -/
theorem hidden_like_missing_iff_office :
    (ById.report .get).Alike officePlatform Office.sec
      (Run.all (system Office.sec).step withChoi kimsReport) Office.env 4 1 2 := by
  obtain ⟨row, hrow, hrole⟩ := Option.map_eq_some_iff.mp withChoi_role
  refine (hidden_like_missing_iff officePlatform Office.sec Office.env (.report .get) hrow ?_
    (by decide +kernel) (by decide +kernel)).mpr ⟨rfl, by decide, by decide⟩
  rw [hrole]
  decide

/-- Choi learns which of the items 1 and 2 there is. -/
theorem item_of_another_shows :
    ¬ ∀ (P : Platform) (sec : Security) (s : Store) (env : Env) (u i j : Int) (row : User)
      (op : ById), Reachable s → s.users.get u = some row → row.role ≠ .admin →
        op.hidden s u i = true → op.missing s j = true → IsInt4 i → IsInt4 j →
          op.Alike P sec s env u i j := by
  intro hall
  obtain ⟨row, hrow, hrole⟩ := Option.map_eq_some_iff.mp withChoi_role
  have hemployee : row.role ≠ .admin := by
    rw [hrole]
    decide
  have hhidden : (ById.item .delete).hidden
      (Run.all (system Office.sec).step withChoi kimsReport) 4 1 = true := by decide +kernel
  have hmissing : (ById.item .delete).missing
      (Run.all (system Office.sec).step withChoi kimsReport) 2 = true := by decide +kernel
  have hblank : Blank withChoi := ⟨rfl, rfl, rfl, office_blank.codes⟩
  have halike := hall officePlatform Office.sec _ Office.env 4 1 2 row (.item .delete)
    ⟨Office.sec, withChoi, kimsReport, hblank, rfl⟩ hrow hemployee hhidden hmissing (by decide)
    (by decide)
  let choi : CurrentUser := { row with id := 4 }
  have huser : currentUser (Run.all (system Office.sec).step withChoi kimsReport) choi.id =
      .ok choi := currentUser_eq_ok.mpr ⟨hrow, rfl⟩
  exact ById.not_alike_of_item huser hemployee hhidden hmissing (by decide) halike

end Biztrip.Reads
