import Biztrip.Process.Acceptance
import Biztrip.Service.ExpenseReads
import Biztrip.Service.TripReads

/-!
# What the pages offer

The buttons of `routes/trips/[id]/+page.svelte` and `routes/expenses/[id]/+page.svelte`, as they
follow from the reply that a page has loaded and the user of the auth store, and the requests
that they send. In every state that the system leads to, a page offers its viewer what the
business process allows, with two exceptions: a trip can be submitted only by somebody who has a
manager, and a report only after its trip is completed.
-/

namespace Biztrip.Web

open Biztrip.Lib Biztrip.Desk Biztrip.Process

/-! ## The page of a trip -/

namespace TripPage

open Trips

inductive Button where
  | edit
  | submit
  | remove
  | reopen
  | complete
  | approve
  | reject
  /-- A link to the report. -/
  | viewExpense (reportId : Int)
  | startExpense
  deriving DecidableEq, Repr

/-- `viewer` is `auth.user?.id`. -/
def isOwner (trip : TripDetail) (viewer : Option Int) : Bool :=
  viewer.any fun id => trip.userId = id

def isApprover (trip : TripDetail) (viewer : Option Int) : Bool :=
  viewer.any fun id => trip.approverId = some id

/-- `size: 100`, with the other parameters as the handler sets them. -/
def firstHundred : Expenses.ExpenseFilters := { paging := { size := 100 } }

/-- What `reportId` becomes. The page does not wait for it: until the list is in, and if the call
fails, there is no report. -/
def loadReport (P : Platform) (s : Store) (user : CurrentUser) (tripId : Int) : Option Int :=
  match Expenses.listReports P s user firstHundred with
  | .ok reports => (reports.items.find? fun item => item.tripId = tripId).map fun item => item.id
  | .error _ => none

/-- The buttons, from top to bottom. -/
def buttons (trip : TripDetail) (viewer reportId : Option Int) : List Button :=
  (if isOwner trip viewer && (trip.status = .draft || trip.status = .rejected) then [.edit]
    else []) ++
  (if isOwner trip viewer && trip.status = .draft then [.submit, .remove] else []) ++
  (if isOwner trip viewer && trip.status = .rejected then [.reopen] else []) ++
  (if isOwner trip viewer && trip.status = .approved then [.complete] else []) ++
  (if isApprover trip viewer && trip.status = .submitted then [.approve, .reject] else []) ++
  if isOwner trip viewer &&
      (trip.status = .approved || trip.status = .completed || trip.status = .settled) then
    match reportId with
    | some id => [.viewExpense id]
    | none => [.startExpense]
  else []

/-- The request that a button sends; `edit` and `viewExpense` lead to other pages. -/
def Button.call (tripId : Int) (rejectReason : String) : Button → Option DeskCall
  | .submit => some (.trip (.submit tripId))
  | .remove => some (.trip (.delete tripId))
  | .reopen => some (.trip (.reopen tripId))
  | .complete => some (.trip (.complete tripId))
  | .approve => some (.trip (.approve tripId))
  | .reject => some (.trip (.reject tripId ⟨rejectReason⟩))
  | .startExpense => some (.expense (.create ⟨tripId⟩))
  | .edit | .viewExpense _ => none

theorem isOwner_buildDetail {s : Store} {i u : Int} {t : Trip} :
    isOwner (buildDetail s i t) (some u) = true ↔ t.userId = u := decide_eq_true_iff

theorem isApprover_buildDetail {s : Store} {i u : Int} {t : Trip} :
    isApprover (buildDetail s i t) (some u) = true ↔ t.approverId = some u := decide_eq_true_iff

theorem mem_buttons {trip : TripDetail} {viewer reportId : Option Int} {b : Button} :
    b ∈ buttons trip viewer reportId ↔
      match b with
      | .edit => isOwner trip viewer = true ∧ (trip.status = .draft ∨ trip.status = .rejected)
      | .submit | .remove => isOwner trip viewer = true ∧ trip.status = .draft
      | .reopen => isOwner trip viewer = true ∧ trip.status = .rejected
      | .complete => isOwner trip viewer = true ∧ trip.status = .approved
      | .approve | .reject => isApprover trip viewer = true ∧ trip.status = .submitted
      | .viewExpense id => isOwner trip viewer = true ∧ (trip.status = .approved ∨
          trip.status = .completed ∨ trip.status = .settled) ∧ reportId = some id
      | .startExpense => isOwner trip viewer = true ∧ (trip.status = .approved ∨
          trip.status = .completed ∨ trip.status = .settled) ∧ reportId = none := by
  cases b with
  | viewExpense id =>
    rcases reportId with _ | id'
    · simp [buttons]
    · simp [buttons, and_assoc, or_assoc, eq_comm (a := id)]
  | startExpense => cases reportId <;> simp [buttons, or_assoc]
  | _ => cases reportId <;> simp [buttons]

end TripPage

/-! ## The page of a report -/

namespace ExpensePage

open Expenses

inductive Button where
  /-- The centers, the items and the candidates. -/
  | edit
  | submit
  | reopen
  | approve
  | reject
  deriving DecidableEq, Repr

def isOwner (report : ExpenseReportDetail) (viewer : Option Int) : Bool :=
  viewer.any fun id => report.userId = id

def isApprover (report : ExpenseReportDetail) (viewer : Option Int) : Bool :=
  viewer.any fun id => report.approverId = some id

def editable (report : ExpenseReportDetail) (viewer : Option Int) : Bool :=
  isOwner report viewer && (report.status = .draft || report.status = .rejected)

def buttons (report : ExpenseReportDetail) (viewer : Option Int) : List Button :=
  (if editable report viewer then [.edit] else []) ++
  (if isOwner report viewer && report.status = .draft then [.submit] else []) ++
  (if isOwner report viewer && report.status = .rejected then [.reopen] else []) ++
  if isApprover report viewer && report.status = .submitted then [.approve, .reject] else []

/-- The request that a button of the side panel sends. -/
def Button.call (reportId : Int) (rejectReason : String) : Button → Option DeskCall
  | .submit => some (.expense (.submit reportId))
  | .reopen => some (.expense (.reopen reportId))
  | .approve => some (.expense (.approve reportId))
  | .reject => some (.expense (.reject reportId ⟨rejectReason⟩))
  | .edit => none

/-- What the page uses of the reply. -/
theorem detail_of_buildDetail {s : Store} {j : Int} {r : ExpenseReport}
    {detail : ExpenseReportDetail} (h : buildDetail s j r = .ok detail) :
    (∀ u, isOwner detail (some u) = true ↔ r.userId = u) ∧
      (∀ u, isApprover detail (some u) = true ↔ r.approverId = some u) ∧
        detail.status = r.status ∧ detail.tripId = r.tripId := by
  obtain ⟨item, hitem, h⟩ := bind_eq_ok.mp h
  obtain ⟨t, -, hitem⟩ := bind_eq_ok.mp hitem
  obtain rfl := Except.ok.inj hitem
  obtain rfl := Except.ok.inj h
  exact ⟨fun u => decide_eq_true_iff, fun u => decide_eq_true_iff, rfl, rfl⟩

theorem mem_buttons {report : ExpenseReportDetail} {viewer : Option Int} {b : Button} :
    b ∈ buttons report viewer ↔
      match b with
      | .edit => editable report viewer = true
      | .submit => isOwner report viewer = true ∧ report.status = .draft
      | .reopen => isOwner report viewer = true ∧ report.status = .rejected
      | .approve | .reject => isApprover report viewer = true ∧ report.status = .submitted := by
  cases b <;> simp [buttons]

end ExpensePage

/-! ## Looking for the report of a trip -/

section
variable {s : Store} {user : CurrentUser} {i j : Int} {r : ExpenseReport}

/-- The rows of `listExpenses({ size: 100 })`. -/
def ownReports (s : Store) (user : CurrentUser) : List (Int × ExpenseReport) :=
  s.reports.rows.filter fun p => p.2.userId = user.id

theorem find?_of_forall₂ {α β : Type} {l : List α} {m : List β} {p : α → Bool} {q : β → Bool}
    {f : α → Int} {g : β → Int}
    (h : List.Forall₂ (fun a b => p a = q b ∧ f a = g b) l m) :
    (l.find? p).map f = (m.find? q).map g := by
  induction h with
  | nil => rfl
  | @cons a b l m hab _ ih =>
    rw [List.find?_cons, List.find?_cons, ← hab.1]
    cases p a
    · exact ih
    · exact congrArg some hab.2

/-- The reply is there, since every report has its trip. -/
theorem loadReport_eq (P : Platform) (h : Coupled s) : TripPage.loadReport P s user i =
    (((orderBy (fun p => -p.1) (ownReports s user)).take 100).find?
      fun p => p.2.tripId = i).map Prod.fst := by
  have hrows : (s.reports.rows.filter fun p => decide (p.2.userId = user.id) &&
      TripPage.firstHundred.selects P s p.2) = ownReports s user := by
    refine List.filter_congr fun p hp => ?_
    obtain ⟨t, ht, -⟩ := h.report p.1 p.2 (Table.mem_rows.mp hp)
    simp [TripPage.firstHundred, Expenses.ExpenseFilters.selects, ht, given]
  have hitems : ∀ p ∈ (orderBy (fun p => -p.1) (ownReports s user)).take 100,
      ∃ item, Expenses.listItem s p.1 p.2 = .ok item := by
    intro p hp
    have hmem := (List.mem_filter.mp (mem_orderBy.mp (List.mem_of_mem_take hp))).1
    obtain ⟨t, ht, -⟩ := h.report p.1 p.2 (Table.mem_rows.mp hmem)
    exact ⟨_, bind_eq_ok.mpr ⟨t, getE_eq_ok.mpr ht, rfl⟩⟩
  obtain ⟨items, hitems⟩ := mapE_isOk.mpr hitems
  have hpage : Expenses.listReports P s user TripPage.firstHundred =
      .ok ⟨items, (ownReports s user).length, 1, 100⟩ := by
    rw [← hrows] at hitems ⊢
    refine bind_eq_ok.mpr ⟨_, rfl, bind_eq_ok.mpr ⟨(), rfl, ?_⟩⟩
    refine bind_eq_ok.mpr ⟨_, ?_, bind_eq_ok.mpr ⟨items, hitems, rfl⟩⟩
    exact bind_eq_ok.mpr ⟨(), guardE_eq_ok.mpr (by decide), rfl⟩
  rw [TripPage.loadReport, hpage]
  refine (find?_of_forall₂ ((ensures_mapE _ (fun p _ item hitem => ?_)) _ hitems)).symm
  obtain ⟨t, -, hitem⟩ := bind_eq_ok.mp hitem
  obtain rfl := Except.ok.inj hitem
  exact ⟨rfl, rfl⟩

/-- A report that is found is the trip's. -/
theorem report_of_loadReport {P : Platform} (h : Coupled s)
    (hj : TripPage.loadReport P s user i = some j) :
    ∃ r, s.reports.get j = some r ∧ r.tripId = i := by
  rw [loadReport_eq P h] at hj
  obtain ⟨p, hp, rfl⟩ := Option.map_eq_some_iff.mp hj
  have hmem := mem_orderBy.mp (List.mem_of_mem_take (List.mem_of_find?_eq_some hp))
  exact ⟨p.2, Table.mem_rows.mp (List.mem_filter.mp hmem).1,
    of_decide_eq_true (List.find?_some hp :)⟩

/-- Up to a hundred reports, the owner's is found. -/
theorem loadReport_ne_none {P : Platform} (h : Coupled s) (hj : s.reports.get j = some r)
    (howner : r.userId = user.id) (hlen : (ownReports s user).length ≤ 100) :
    TripPage.loadReport P s user r.tripId ≠ none := by
  have hlen' : (orderBy (fun p => -p.1) (ownReports s user)).length ≤ 100 := by
    rw [orderBy, (List.perm_insertionSort ..).length_eq]
    exact hlen
  rw [loadReport_eq P h, List.take_of_length_le hlen']
  have hmem : (j, r) ∈ ownReports s user :=
    List.mem_filter.mpr ⟨Table.mem_rows.mpr hj, decide_eq_true howner⟩
  have hfound : ((orderBy (fun p => -p.1) (ownReports s user)).find?
      fun p => decide (p.2.tripId = r.tripId)).isSome :=
    List.find?_isSome.mpr ⟨(j, r), mem_orderBy.mpr hmem, decide_eq_true rfl⟩
  rw [Ne, Option.map_eq_none_iff]
  exact Option.isSome_iff_ne_none.mp hfound

end

/-! ## The button of a trip and the request behind it -/

section
variable {s : Store} {env : Env} {user : CurrentUser} {i j : Int} {reason : String}
  {call : DeskCall}

theorem TripPage.accepts_button (h : Sane s) (huser : s.users.get user.id = some user.toUser)
    {detail : Trips.TripDetail} (hdetail : Trips.getTrip s user i = .ok detail)
    (reportId : Option Int) {b : Button} (hb : b.call i reason = some call)
    (hne : b ≠ .startExpense) :
    (∃ s', desk.step s ⟨env, user.id, call⟩ = .ok s') ↔
      b ∈ buttons detail (some user.id) reportId ∧ Ready s env call ∧
        (b = .submit → user.managerId ≠ none) := by
  obtain ⟨t, load, hd⟩ := bind_eq_ok.mp hdetail
  obtain rfl := Except.ok.inj hd
  have ht := (Trips.loadVisibleTrip_eq_ok.mp load).2.1
  have hstatus : (Trips.buildDetail s i t).status = t.status := rfl
  rw [mem_buttons]
  cases b with
  | edit | viewExpense id => cases hb
  | startExpense => exact absurd rfl hne
  | submit =>
    obtain rfl := Option.some.inj hb
    rw [accepts_tripAct_iff h huser ht (a := .submit) rfl rfl rfl, isOwner_buildDetail, hstatus]
    simp only [Case.On, Act.side, forall_const]
    tauto
  | remove =>
    obtain rfl := Option.some.inj hb
    obtain ⟨p, hcase, htrip, -⟩ := h.whole.case ht
    rw [accepts_move_iff h huser (m := (i, .drop)) rfl rfl, allows_drop hcase, isOwner_buildDetail,
      hstatus, ← htrip]
    cases p <;> simp [Phase.trip, and_comm]
  | reopen =>
    obtain rfl := Option.some.inj hb
    rw [accepts_tripAct_iff h huser ht (a := .reopen) rfl rfl rfl, isOwner_buildDetail, hstatus]
    simp only [Case.On, Act.side, reduceCtorEq, false_implies, and_true]
    tauto
  | complete =>
    obtain rfl := Option.some.inj hb
    rw [accepts_tripAct_iff h huser ht (a := .complete) rfl rfl rfl, isOwner_buildDetail, hstatus]
    simp only [Case.On, Act.side, reduceCtorEq, false_implies, and_true]
    tauto
  | approve =>
    obtain rfl := Option.some.inj hb
    rw [accepts_tripAct_iff h huser ht (a := .approve) rfl rfl rfl, isApprover_buildDetail, hstatus]
    simp only [Case.On, Act.side, reduceCtorEq, false_implies, and_true]
    tauto
  | reject =>
    obtain rfl := Option.some.inj hb
    rw [accepts_tripAct_iff h huser ht (a := .reject) rfl rfl rfl, isApprover_buildDetail, hstatus]
    simp only [Case.On, Act.side, reduceCtorEq, false_implies, and_true]
    tauto

/-- The request to begin a report, and the button for it, before and after the list is in. -/
theorem TripPage.accepts_start (h : Sane s) (huser : s.users.get user.id = some user.toUser)
    {detail : Trips.TripDetail} (hdetail : Trips.getTrip s user i = .ok detail) (P : Platform)
    {reportId : Option Int} (hmem : reportId ∈ [none, loadReport P s user i]) :
    (∃ s', desk.step s ⟨env, user.id, .expense (.create ⟨i⟩)⟩ = .ok s') ↔
      .startExpense ∈ buttons detail (some user.id) reportId ∧
        Ready s env (.expense (.create ⟨i⟩)) ∧ reportOf s i = none := by
  obtain ⟨t, load, hd⟩ := bind_eq_ok.mp hdetail
  obtain rfl := Except.ok.inj hd
  have ht := (Trips.loadVisibleTrip_eq_ok.mp load).2.1
  have hstatus : (Trips.buildDetail s i t).status = t.status := rfl
  obtain ⟨p, hcase, htrip, hreport⟩ := h.whole.case ht
  -- a trip without a report has none among the first hundred either
  have hload : reportOf s i = none → reportId = none := by
    intro hnone
    by_contra hsome
    obtain rfl : reportId = loadReport P s user i := by simpa [hsome] using hmem
    obtain ⟨j, hj⟩ := Option.ne_none_iff_exists'.mp hsome
    obtain ⟨r, hr, htrip⟩ := report_of_loadReport h.whole.coupled hj
    rw [(reportOf_eq_some h.whole.coupled).mpr ⟨j, hr, htrip⟩] at hnone
    cases hnone
  rw [accepts_move_iff h huser (m := (i, .act .report)) rfl rfl, allows_act hcase,
    next_isSome_report, mem_buttons, isOwner_buildDetail, hstatus, htrip, hreport,
    Option.map_eq_none_iff]
  simp only [Case.On, Act.side, Case.approverAfter, Option.isSome_some, and_true]
  tauto

/-- The request of a button of the side panel, and the button. -/
theorem ExpensePage.accepts_button (h : Sane s) (huser : s.users.get user.id = some user.toUser)
    {detail : Expenses.ExpenseReportDetail} (hdetail : Expenses.getReport s user j = .ok detail)
    {b : Button} (hb : b.call j reason = some call) :
    (∃ s', desk.step s ⟨env, user.id, call⟩ = .ok s') ↔
      b ∈ buttons detail (some user.id) ∧ Ready s env call ∧ (b = .submit →
        ∀ t, s.trips.get detail.tripId = some t → t.status = .completed) := by
  obtain ⟨r, load, hd⟩ := bind_eq_ok.mp hdetail
  have hj := (Expenses.loadVisibleReport_eq_ok.mp load).2.1
  obtain ⟨howner, happrover, hstatus, htrip⟩ := detail_of_buildDetail hd
  rw [mem_buttons]
  cases b with
  | edit => cases hb
  | submit =>
    obtain rfl := Option.some.inj hb
    rw [accepts_reportAct_iff h huser hj (a := .claim) rfl rfl rfl, howner, hstatus, htrip]
    simp only [Case.On, Act.side, forall_const]
    tauto
  | reopen =>
    obtain rfl := Option.some.inj hb
    rw [accepts_reportAct_iff h huser hj (a := .revise) rfl rfl rfl, howner, hstatus]
    simp only [Case.On, Act.side, reduceCtorEq, false_implies, and_true]
    tauto
  | approve =>
    obtain rfl := Option.some.inj hb
    rw [accepts_reportAct_iff h huser hj (a := .settle) rfl rfl rfl, happrover, hstatus]
    simp only [Case.On, Act.side, reduceCtorEq, false_implies, and_true]
    tauto
  | reject =>
    obtain rfl := Option.some.inj hb
    rw [accepts_reportAct_iff h huser hj (a := .dispute) rfl rfl rfl, happrover, hstatus]
    simp only [Case.On, Act.side, reduceCtorEq, false_implies, and_true]
    tauto

/-! ## Edits -/

theorem TripPage.edit_of_update {detail : Trips.TripDetail}
    (hdetail : Trips.getTrip s user i = .ok detail) (reportId : Option Int) {payload : TripUpdate}
    {s' : Store} (hstep : desk.step s ⟨env, user.id, .trip (.update i payload)⟩ = .ok s') :
    .edit ∈ buttons detail (some user.id) reportId := by
  obtain ⟨t, load, hd⟩ := bind_eq_ok.mp hdetail
  obtain rfl := Except.ok.inj hd
  obtain ⟨p, hplan, -⟩ := bind_eq_ok.mp hstep
  obtain ⟨u, huser, deed⟩ := deed_of_plan hplan
  obtain ⟨-, hid⟩ := currentUser_eq_ok.mp huser
  generalize p.writes = ws at deed
  cases deed with
  | trip deed =>
    cases deed with
    | @update _ _ t₀ _ _ load₀ owner editable =>
      obtain rfl : t₀ = t := Option.some.inj
        ((Trips.loadVisibleTrip_eq_ok.mp load₀).2.1.symm.trans
          (Trips.loadVisibleTrip_eq_ok.mp load).2.1)
      refine mem_buttons.mpr ⟨isOwner_buildDetail.mpr (owner.symm.trans hid), ?_⟩
      exact mem_editableStatuses.mp editable

/-- The calls that edit a report or one of its items. -/
inductive ExpensePage.Edits (s : Store) (j : Int) : ExpenseCall → Prop where
  | centers {payload : ExpenseReportUpdate} : Edits s j (.update j payload)
  | add {payload : ExpenseItemCreate} : Edits s j (.addItem j payload)
  | change {k : Int} {it : ExpenseItem} {payload : ExpenseItemUpdate}
    (get : s.items.get k = some it) (inReport : it.reportId = j) : Edits s j (.updateItem k payload)
  | delete {k : Int} {it : ExpenseItem} (get : s.items.get k = some it)
    (inReport : it.reportId = j) : Edits s j (.deleteItem k)

theorem ExpensePage.edit_of_editable {detail : Expenses.ExpenseReportDetail}
    (hdetail : Expenses.getReport s user j = .ok detail) {u : CurrentUser} (hid : u.id = user.id)
    {r : ExpenseReport} (load : Expenses.loadEditableReport s u j = .ok r) :
    .edit ∈ buttons detail (some user.id) := by
  obtain ⟨r₀, load₀, hd⟩ := bind_eq_ok.mp hdetail
  obtain ⟨howner, -, hstatus, -⟩ := detail_of_buildDetail hd
  obtain ⟨load, owner, hopen⟩ := Expenses.loadEditableReport_eq_ok.mp load
  obtain rfl : r₀ = r := Option.some.inj
    ((Expenses.loadVisibleReport_eq_ok.mp load₀).2.1.symm.trans
      (Expenses.loadVisibleReport_eq_ok.mp load).2.1)
  have hown : isOwner detail (some user.id) = true := (howner _).mpr (owner.symm.trans hid)
  refine mem_buttons.mpr ?_
  rcases mem_expenseEditableStatuses.mp hopen with hst | hst <;>
    simp [editable, hown, hstatus, hst]

theorem ExpensePage.edit_of_edit {detail : Expenses.ExpenseReportDetail}
    (hdetail : Expenses.getReport s user j = .ok detail) {call : ExpenseCall}
    (hedits : Edits s j call) {s' : Store}
    (hstep : desk.step s ⟨env, user.id, .expense call⟩ = .ok s') :
    .edit ∈ buttons detail (some user.id) := by
  obtain ⟨p, hplan, -⟩ := bind_eq_ok.mp hstep
  obtain ⟨u, huser, deed⟩ := deed_of_plan hplan
  obtain ⟨-, hid⟩ := currentUser_eq_ok.mp huser
  generalize p.writes = ws at deed
  cases deed with
  | expense deed =>
    cases hedits with
    | centers => cases deed with | update load => exact edit_of_editable hdetail hid load
    | add => cases deed with | addItem load => exact edit_of_editable hdetail hid load
    | change get inReport =>
      cases deed with
      | updateItem _ get₀ load =>
        obtain rfl := Option.some.inj (get₀.symm.trans get)
        exact edit_of_editable hdetail hid (inReport ▸ load)
    | delete get inReport =>
      cases deed with
      | deleteItem _ get₀ load =>
        obtain rfl := Option.some.inj (get₀.symm.trans get)
        exact edit_of_editable hdetail hid (inReport ▸ load)

end

/-! ## In every state -/

/-- In every state that the system leads to: the page of a report offers its viewer exactly the
moves that the service accepts from them once they are ready; but a submission is accepted only
after the trip is completed. Whoever can edit the report is offered to. -/
theorem expense_page_offers (sec : Security) {s₀ : Store} (htrips : s₀.trips.rows = [])
    (h₀ : NoReports s₀) (reqs : List (Request Call)) :
    let s := Run.all (system sec).step s₀ reqs
    ∀ env (user : CurrentUser) j detail, s.users.get user.id = some user.toUser →
      Expenses.getReport s user j = .ok detail →
      let accepted call := ∃ s', (system sec).step s ⟨env, .desk user.id call⟩ = .ok s'
      let offered := ExpensePage.buttons detail (some user.id)
      (∀ (b : ExpensePage.Button) reason call, b.call j reason = some call →
        (accepted call ↔ b ∈ offered ∧ Ready s env call ∧ (b = .submit →
          ∀ t, s.trips.get detail.tripId = some t → t.status = .completed))) ∧
      ∀ call, ExpensePage.Edits s j call → accepted (.expense call) → .edit ∈ offered := by
  intro s env user j detail huser hdetail accepted offered
  have h : Sane s := (Sane.of_empty htrips h₀).run sec
  exact ⟨fun b reason call hb => ExpensePage.accepts_button h huser hdetail hb,
    fun call hedits ⟨s', hstep⟩ => ExpensePage.edit_of_edit hdetail hedits hstep⟩

/-- Lee and Kim's report, once it is submitted. -/
theorem expense_page_offers_office :
    let s := Run.all (system Office.sec).step Office.store
      ((Office.tripDone 1 ++ Office.reportSubmitted 1).map fun r => ⟨r.env, .desk r.userId r.call⟩)
    let lee : CurrentUser := { Office.user "lee@sk.com" "Lee" "E2" none .manager with id := 2 }
    ∃ detail, Expenses.getReport s lee 1 = .ok detail ∧
      ((∃ s', (system Office.sec).step s ⟨Office.env, .desk 2 (.expense (.approve 1))⟩ =
          .ok s') ↔ .approve ∈ ExpensePage.buttons detail (some 2) ∧
          Ready s Office.env (.expense (.approve 1)) ∧
          (ExpensePage.Button.approve = .submit →
            ∀ t, s.trips.get detail.tripId = some t → t.status = .completed)) := by
  intro s lee
  have hfound : (Expenses.getReport s lee 1).isOk = true := by decide +kernel
  rcases hdetail : Expenses.getReport s lee 1 with e | detail
  · rw [hdetail] at hfound
    cases hfound
  · exact ⟨detail, rfl, (expense_page_offers Office.sec rfl ⟨rfl, rfl⟩ _ Office.env lee 1 detail
      (by decide +kernel) hdetail).1 .approve "" _ rfl⟩

end Biztrip.Web
