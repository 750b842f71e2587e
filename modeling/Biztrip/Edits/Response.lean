import Mathlib.Algebra.BigOperators.Group.List.Basic
import Biztrip.Edits.Serial
import Biztrip.Reads.Linked
import Biztrip.Service.ExpenseReads

/-!
# The response of an item edit

`add_item`, `update_item` and `delete_item` answer with `build_detail` in their own session.
The commit expires nothing and a query does not refresh an object that the session has, so
the response shows the amount that was assigned to the item, while the total is summed from
the rows. The two agree with what a fresh session reads just when the amount is one that the
column keeps as it is (`response_is_stored_iff`).
-/

namespace Biztrip.Edits

open Biztrip.Lib Desk Expenses Reads

/-! ## Responses of a session -/

/-- An item in the session: a row, but with the amount as it was assigned. -/
structure ItemObject where
  row : ExpenseItem
  amountKrw : Decimal

/-- A row as it is loaded. -/
def ItemObject.load (row : ExpenseItem) : ItemObject := ⟨row, row.amountKrw.toDecimal⟩

/-- The objects of a session that `build_detail` meets. -/
structure Session where
  report : ExpenseReport
  item : Option (Int × ItemObject)

/-- A query for items finds the object of the session, where there is one, as it is. -/
def Session.object (session : Session) (itemId : Int) (row : ExpenseItem) : ItemObject :=
  ((session.item.filter fun p => p.1 = itemId).map Prod.snd).getD (.load row)

/-- `ExpenseItemOut`, the amount as a number: Python compares decimals by their values. -/
structure ItemReply where
  id : Int
  cardTransactionId : Option Int
  expenseCategoryCode : String
  amountKrw : ℚ
  memo : Option String
  isExcluded : Bool
  fundCenterCode : Option String
  costCenterCode : Option String
  effectiveFundCenterCode : Option String
  effectiveCostCenterCode : Option String
  merchantName : Option String
  approvedAt : Option Instant
  deriving DecidableEq

/-- `ExpenseReportDetail`. The total is cut to two digits before it is shown. -/
structure DetailReply extends ExpenseReportListItem where
  rejectReason : Option String
  createdAt : Instant
  updatedAt : Instant
  items : List ItemReply
  deriving DecidableEq

def ItemReply.of (out : ExpenseItemOut) (amountKrw : ℚ) : ItemReply :=
  { id := out.id, cardTransactionId := out.cardTransactionId
    expenseCategoryCode := out.expenseCategoryCode, amountKrw, memo := out.memo
    isExcluded := out.isExcluded, fundCenterCode := out.fundCenterCode
    costCenterCode := out.costCenterCode
    effectiveFundCenterCode := out.effectiveFundCenterCode
    effectiveCostCenterCode := out.effectiveCostCenterCode, merchantName := out.merchantName
    approvedAt := out.approvedAt }

/-- The response of a session that has loaded the rows for it. -/
def DetailReply.of (detail : ExpenseReportDetail) : DetailReply :=
  { detail.toExpenseReportListItem with
    rejectReason := detail.rejectReason, createdAt := detail.createdAt
    updatedAt := detail.updatedAt
    items := detail.items.map fun out => .of out out.amountKrw.toRat }

/-- The sum of the amounts of the items that are shown and not excluded. -/
def DetailReply.included (reply : DetailReply) : ℚ :=
  ((reply.items.filter fun it => !it.isExcluded).map ItemReply.amountKrw).sum

def Session.loadItems (session : Session) (s : Store) (reportId : Int) : List ItemReply :=
  (orderBy Prod.fst (itemsOf s reportId)).map fun p =>
    let object := session.object p.1 p.2
    .of (itemOut s session.report p.1 object.row) object.amountKrw.toRat

def Session.buildDetail (session : Session) (s : Store) (reportId : Int) : Result DetailReply := do
  let item ← listItem s reportId session.report
  return { item with
    rejectReason := session.report.rejectReason, createdAt := session.report.createdAt
    updatedAt := session.report.updatedAt, items := session.loadItems s reportId }

/-- The item that the session has when the response is built. `update_item` refers to it;
nothing refers to the one of `add_item`, so that it may be gone by then. -/
def EditCall.object (held : Bool) (s : Store) (e : Edit) :
    EditCall → Result (Option (Int × ItemObject))
  | .add reportId payload => do
    let amount ← itemAmount s e.report reportId payload
    return if held then e.item.row?.map fun row => (s.items.next, ⟨row, amount⟩) else none
  | .update itemId payload =>
    return e.item.row?.map fun row =>
      (itemId, ⟨row, payload.amountKrw.val?.getD row.amountKrw.toDecimal⟩)
  | .delete _ => return none

/-- The response of an edit. An `UPDATE` of the report brings its time back. -/
def EditRequest.reply (held : Bool) (s : Store) (r : EditRequest) : Result DetailReply := do
  let e ← r.read s
  let item ← r.call.object held s e
  let flushed ← s.flush r.env.txnNow (.item e.item)
  let total ← recalcTotal flushed e.reportId
  let report := { e.report with totalAmountKrw := total }
  let committed ← flushed.flush r.env.txnNow (.report (.update e.reportId e.report report))
  let report := if report = e.report then report else stamp r.env.txnNow report
  Session.buildDetail ⟨report, item⟩ committed e.reportId

/-- The amount that was sent, where the response shows the object it was assigned to. -/
def EditCall.shown (held : Bool) : EditCall → Option Decimal
  | .add _ payload => if held then payload.amountKrw else none
  | .update _ payload => payload.amountKrw.val?
  | .delete _ => none

/-- No more than two digits after the point. -/
def TwoPlaces (d : Decimal) : Prop := ∃ n : Int, d.toRat * ((10 ^ 2 : Nat) : ℚ) = n

variable {s s' : Store} {r : EditRequest} {e : Edit} {held : Bool}

/-! ## What the session holds -/

theorem toRat_eq_iff_of_storeKrw {column : String} {d : Decimal} {x : Krw}
    (h : storeKrw column d = .ok x) : d.toRat = x.toRat ↔ TwoPlaces d := by
  obtain ⟨_, -, h⟩ := bind_eq_ok.mp h
  rw [eq_comm]
  exact Numeric.toRat_eq_iff_of_store? (getE_eq_ok.mp h)

theorem twoPlaces_toDecimal (x : Krw) : TwoPlaces x.toDecimal := by
  refine ⟨x.units, ?_⟩
  rw [Numeric.toRat_toDecimal, Numeric.toRat, div_mul_cancel₀]
  positivity

theorem itemAmount_cases {report : ExpenseReport} {reportId : Int} {payload : ExpenseItemCreate}
    {amount : Decimal} (h : itemAmount s report reportId payload = .ok amount) :
    payload.amountKrw = some amount ∨ payload.amountKrw = none ∧ TwoPlaces amount := by
  unfold itemAmount at h
  split at h
  · obtain ⟨transaction, -, h⟩ := bind_eq_ok.mp h
    rw [pure_eq_ok, Except.ok.injEq] at h
    subst h
    cases payload.amountKrw with
    | none => exact .inr ⟨rfl, twoPlaces_toDecimal _⟩
    | some d => exact .inl rfl
  · exact .inl (getE_eq_ok.mp h)

/-- The object shows the stored amount just when the column keeps what was sent. -/
def Truthful (r : EditRequest) (held : Bool) (object : ItemObject) : Prop :=
  object.amountKrw.toRat = object.row.amountKrw.toRat ↔
    ∀ d, r.call.shown held = some d → TwoPlaces d

/-- A session without an item shows nothing that was sent. -/
theorem object_of_read (h : r.read s = .ok e) (held : Bool) :
    ∃ item, r.call.object held s e = .ok item ∧
      ((item = none ∧ r.call.shown held = none) ∨
        ∃ object, e.item.row? = some object.row ∧ item = some (e.item.key s.items, object) ∧
          Truthful r held object) := by
  obtain ⟨env, userId, call⟩ := r
  obtain ⟨user, huser, h⟩ := bind_eq_ok.mp h
  cases call with
  | add reportId payload =>
    obtain ⟨report, hload, h⟩ := bind_eq_ok.mp h
    obtain ⟨_, -, h⟩ := bind_eq_ok.mp h
    obtain ⟨_, -, h⟩ := bind_eq_ok.mp h
    obtain ⟨amount, hamount, h⟩ := bind_eq_ok.mp h
    obtain ⟨_, -, h⟩ := bind_eq_ok.mp h
    obtain ⟨_, -, h⟩ := bind_eq_ok.mp h
    obtain ⟨x, hstore, h⟩ := bind_eq_ok.mp h
    rw [pure_eq_ok, Except.ok.injEq] at h
    subst h
    refine ⟨_, bind_eq_ok.mpr ⟨amount, hamount, rfl⟩, ?_⟩
    cases held with
    | false => exact .inl ⟨rfl, rfl⟩
    | true =>
      refine .inr ⟨⟨_, amount⟩, rfl, rfl, ?_⟩
      show amount.toRat = x.toRat ↔ ∀ d, payload.amountKrw = some d → TwoPlaces d
      rw [toRat_eq_iff_of_storeKrw hstore]
      rcases itemAmount_cases hamount with hsent | ⟨hsent, htwo⟩
      · simp [hsent]
      · simp [hsent, htwo]
  | update itemId payload =>
    obtain ⟨⟨it, report⟩, hload, h⟩ := bind_eq_ok.mp h
    obtain ⟨_, -, h⟩ := bind_eq_ok.mp h
    obtain ⟨it', hassign, h⟩ := bind_eq_ok.mp h
    rw [pure_eq_ok, Except.ok.injEq] at h
    subst h
    refine ⟨_, rfl, .inr ⟨⟨it', _⟩, rfl, rfl, ?_⟩⟩
    have hamount := (assignItem_eq_ok hassign).2.2.2
    show (payload.amountKrw.val?.getD it'.amountKrw.toDecimal).toRat = it'.amountKrw.toRat ↔
      ∀ d, payload.amountKrw.val? = some d → TwoPlaces d
    rcases hsent : payload.amountKrw with _ | _ | d
    · simp [Sent.val?, Numeric.toRat_toDecimal]
    · simp [Sent.val?, Numeric.toRat_toDecimal]
    · rw [hsent] at hamount
      simpa [Sent.val?] using toRat_eq_iff_of_storeKrw hamount
  | delete itemId => exact ⟨none, rfl, .inl ⟨rfl, rfl⟩⟩

/-! ## After the commit -/

/-- The row a statement computes is there afterwards; items carry no stamp. -/
theorem get_of_edit {j : Int} {w : RowWrite ExpenseItem} {items : Table ExpenseItem}
    {now : Instant} {row : ExpenseItem} (hw : EditOf s j w)
    (happly : w.apply now Fault.staleData s.items = .ok items) (hrow : w.row? = some row) :
    items.get (w.key s.items) = some row ∧ row.reportId = j := by
  cases hw with
  | insert inReport =>
    obtain rfl := Option.some.inj hrow
    rw [RowWrite.apply_insert, Except.ok.injEq] at happly
    subst happly
    exact ⟨Table.get_insert_next _ _, inReport⟩
  | update get inReport stays =>
    obtain rfl := Option.some.inj hrow
    obtain ⟨at₀, hget⟩ := (updated_of_apply get happly).get_self
    exact ⟨hget, stays⟩
  | delete get inReport => cases hrow

/-- What a call that goes through leaves, and the session that its response is built from. -/
structure Left (s s' : Store) (e : Edit) (report : ExpenseReport) : Prop where
  shape : s' = { s with items := s'.items, reports := s'.reports }
  get : s'.reports.get e.reportId = some report
  tripId : report.tripId = e.report.tripId
  userId : report.userId = e.report.userId
  approverId : report.approverId = e.report.approverId
  total : report.totalAmountKrw.units = includedTotal s' e.reportId
  item : ∀ row, e.item.row? = some row →
    s'.items.get (e.item.key s.items) = some row ∧ row.reportId = e.reportId

theorem editOf_of_read (h : r.read s = .ok e) : EditOf s e.reportId e.item := by
  obtain ⟨hdecided, -⟩ := decided_of_read h
  generalize r.call = call at hdecided
  cases hdecided with
  | add inReport => exact .insert inReport
  | update get assigned => exact .update get rfl (assignItem_eq_ok assigned).1
  | delete get => exact .delete get rfl

theorem reply_of_step (hstep : desk.step s r.desk = .ok s') (held : Bool) :
    ∃ e item report, r.read s = .ok e ∧ r.call.object held s e = .ok item ∧
      r.reply held s = Session.buildDetail ⟨report, item⟩ s' e.reportId ∧
      Left s s' e report := by
  obtain ⟨p, hplan, hcommit⟩ := bind_eq_ok.mp hstep
  change r.desk.plan s = .ok p at hplan
  rw [plan_eq] at hplan
  obtain ⟨e, hread, hplan⟩ := bind_eq_ok.mp hplan
  obtain ⟨flushed, hflush, hplan⟩ := bind_eq_ok.mp hplan
  obtain ⟨total, hrecalc, hplan⟩ := bind_eq_ok.mp hplan
  rw [pure_eq_ok, Except.ok.injEq] at hplan
  subst hplan
  have hc := Plan.commit_eq_ok.mp hcommit
  rw [List.foldlM_cons] at hc
  obtain ⟨flushed', hflush', hc⟩ := bind_eq_ok.mp hc
  rw [hflush, Except.ok.injEq] at hflush'
  subst hflush'
  rw [List.foldlM_cons] at hc
  obtain ⟨s₂, hreport, hc⟩ := bind_eq_ok.mp hc
  rw [List.foldlM_nil, pure_eq_ok, Except.ok.injEq] at hc
  subst hc
  obtain ⟨item, hobject, -⟩ := object_of_read hread held
  obtain ⟨-, items, hitems, rfl⟩ := Store.flush_item hflush
  obtain ⟨-, reports, hreports, rfl⟩ := Store.flush_report hreport
  have hw := editOf_of_read hread
  have hget := RowWrite.get_of_apply_update (report_of_read hread) hreports
  refine ⟨e, item, _, hread, hobject, ?_, rfl, hget, ?_, ?_, ?_, ?_, fun row hrow =>
    get_of_edit hw hitems hrow⟩
  · simp only [EditRequest.reply, hread, hobject, hflush, hrecalc, hreport, ok_bind]
  · split <;> rfl
  · split <;> rfl
  · split <;> rfl
  · have htotal := (recalcTotal_eq_ok hrecalc).1
    split <;> exact htotal

/-! ## Shown and stored -/

theorem Session.buildDetail_eq {session : Session} {j : Int} {detail : ExpenseReportDetail}
    (h : Expenses.buildDetail s j session.report = .ok detail) :
    session.buildDetail s j =
      .ok { DetailReply.of detail with items := session.loadItems s j } := by
  obtain ⟨item, hitem, h⟩ := bind_eq_ok.mp h
  obtain rfl := Except.ok.inj h
  exact bind_eq_ok.mpr ⟨item, hitem, rfl⟩

theorem items_of_buildDetail {j : Int} {report : ExpenseReport} {detail : ExpenseReportDetail}
    (h : buildDetail s j report = .ok detail) :
    (DetailReply.of detail).items = (orderBy Prod.fst (itemsOf s j)).map fun p =>
      .of (itemOut s report p.1 p.2) p.2.amountKrw.toRat := by
  obtain ⟨item, -, h⟩ := bind_eq_ok.mp h
  obtain rfl := Except.ok.inj h
  simp only [DetailReply.of, loadItems, List.map_map]
  rfl

theorem total_of_buildDetail {j : Int} {report : ExpenseReport} {detail : ExpenseReportDetail}
    (h : buildDetail s j report = .ok detail) : detail.totalAmountKrw = report.totalAmountKrw := by
  obtain ⟨item, hitem, h⟩ := bind_eq_ok.mp h
  obtain rfl := Except.ok.inj h
  obtain ⟨trip, -, hitem⟩ := bind_eq_ok.mp hitem
  obtain rfl := Except.ok.inj hitem
  rfl

/-- What a fresh session shows adds up to the sum of the rows. -/
theorem included_of {j : Int} {report : ExpenseReport} {detail : ExpenseReportDetail}
    (h : buildDetail s j report = .ok detail) :
    (DetailReply.of detail).included = (includedTotal s j : ℚ) / ((10 ^ 2 : Nat) : ℚ) := by
  have hperm := List.perm_insertionSort (fun p q : Int × ExpenseItem => p.1 ≤ q.1) (itemsOf s j)
  rw [← includedTotal_toRat, DetailReply.included, items_of_buildDetail h]
  simp only [List.filter_map, List.map_map, Function.comp_def]
  exact ((hperm.filter _).map _).sum_eq

theorem Session.object_of_none {session : Session} {k : Int} {row : ExpenseItem}
    (h : session.item = none) : session.object k row = .load row := by
  rw [Session.object, h]
  rfl

theorem Session.object_of_some {session : Session} {k i : Int} {row : ExpenseItem}
    {object : ItemObject} (h : session.item = some (i, object)) :
    session.object k row = if i = k then object else .load row := by
  rw [Session.object, h]
  by_cases hk : i = k <;> simp [Option.filter, hk]

/-- The items shown are the rows just when the object in the session has the row's amount. -/
theorem Session.loadItems_eq_iff {session : Session} {j k : Int} {object : ItemObject}
    (hitem : session.item = some (k, object)) (hrow : s.items.get k = some object.row)
    (hj : object.row.reportId = j) :
    (session.loadItems s j = (orderBy Prod.fst (itemsOf s j)).map fun p =>
      .of (itemOut s session.report p.1 p.2) p.2.amountKrw.toRat) ↔
        object.amountKrw.toRat = object.row.amountKrw.toRat := by
  rw [Session.loadItems, List.map_inj_left]
  constructor
  · intro h
    have hmem : (k, object.row) ∈ itemsOf s j :=
      List.mem_filter.mpr ⟨Table.mem_rows.mpr hrow, by simpa using hj⟩
    have heq := h (k, object.row) (mem_orderBy.mpr hmem)
    simp only [Session.object_of_some hitem, if_pos] at heq
    exact congrArg ItemReply.amountKrw heq
  · rintro hamount ⟨i, row⟩ hmem
    have hget : s.items.get i = some row :=
      Table.mem_rows.mp (List.mem_filter.mp (mem_orderBy.mp hmem)).1
    simp only [Session.object_of_some hitem]
    split
    · next hk =>
      subst hk
      obtain rfl := Option.some.inj (hrow.symm.trans hget)
      rw [hamount]
    · rw [ItemObject.load, Numeric.toRat_toDecimal]

/-- The response is what a fresh session shows, with the sum of its items, just when the items
are. -/
theorem Session.shows_iff {session : Session} {j : Int} {detail : ExpenseReportDetail}
    (h : Expenses.buildDetail s j session.report = .ok detail)
    (htotal : session.report.totalAmountKrw.units = includedTotal s j) :
    ∃ reply, session.buildDetail s j = .ok reply ∧ reply.id = detail.id ∧
      ((reply = .of detail ∧ reply.totalAmountKrw.toRat = reply.included) ↔
        session.loadItems s j = (DetailReply.of detail).items) := by
  refine ⟨_, Session.buildDetail_eq h, rfl, ?_⟩
  constructor
  · rintro ⟨heq, -⟩
    exact congrArg DetailReply.items heq
  · intro hshown
    rw [hshown]
    refine ⟨rfl, ?_⟩
    show detail.totalAmountKrw.toRat = (DetailReply.of detail).included
    rw [included_of h, total_of_buildDetail h, Numeric.toRat, htotal]

theorem exists_buildDetail {report : ExpenseReport} {trip : Trip}
    (h : s.trips.get report.tripId = some trip) (j : Int) :
    ∃ detail, buildDetail s j report = .ok detail ∧ detail.id = j := by
  unfold buildDetail listItem
  rw [h]
  exact ⟨_, rfl, rfl⟩

/-- A fresh session reads the report that an edit has left. -/
theorem Left.getReport {report : ExpenseReport} {user : CurrentUser} {trip : Trip}
    (h : Left s s' e report) (hload : loadEditableReport s user e.reportId = .ok e.report)
    (htrip : s.trips.get e.report.tripId = some trip) :
    ∃ detail, buildDetail s' e.reportId report = .ok detail ∧ detail.id = e.reportId ∧
      getReport s' user e.reportId = .ok detail := by
  obtain ⟨hint, -, hview⟩ := loadVisibleReport_eq_ok.mp (loadEditableReport_eq_ok.mp hload).1
  have hvisible : loadVisibleReport s' e.reportId user = .ok report := by
    rw [← h.userId, ← h.approverId] at hview
    exact loadVisibleReport_eq_ok.mpr ⟨hint, h.get, hview⟩
  have htrip' : s'.trips.get report.tripId = some trip := by
    rw [h.shape, h.tripId]
    exact htrip
  obtain ⟨detail, hdetail, hid⟩ := exists_buildDetail htrip' e.reportId
  exact ⟨detail, hdetail, hid, bind_eq_ok.mpr ⟨_, hvisible, hdetail⟩⟩

/-- An edit that goes through in a reachable store has a response, and the report can be read
afterwards. The response is what a fresh session reads, its total the sum of the items it shows and
does not exclude, if and only if the amount that was sent, where the response shows the object that
it was assigned to, has no more than two digits after the point. -/
theorem response_is_stored_iff (h : Reachable s) (hstep : desk.step s r.desk = .ok s')
    (held : Bool) : ∃ user reply detail, currentUser s' r.userId = .ok user ∧
      r.reply held s = .ok reply ∧ getReport s' user reply.id = .ok detail ∧
      ((reply = .of detail ∧ reply.totalAmountKrw.toRat = reply.included) ↔
        ∀ d, r.call.shown held = some d → TwoPlaces d) := by
  obtain ⟨e, item, report, hread, hobject, hreply, hleft⟩ := reply_of_step hstep held
  obtain ⟨-, user, huser, hload⟩ := decided_of_read hread
  obtain ⟨trip, htrip, -⟩ := h.sound.coupled.report _ _ (report_of_read hread)
  obtain ⟨detail, hdetail, hid, hget⟩ := hleft.getReport hload htrip
  let session : Session := ⟨report, item⟩
  have hdetail' : Expenses.buildDetail s' e.reportId session.report = .ok detail := hdetail
  obtain ⟨reply, hbuild, hsame, hshows⟩ := Session.shows_iff hdetail' hleft.total
  have huser' : currentUser s' r.userId = .ok user := by
    rw [hleft.shape]
    exact huser
  refine ⟨user, reply, detail, huser', hreply.trans hbuild, ?_, hshows.trans ?_⟩
  · rw [hsame, hid]
    exact hget
  rw [items_of_buildDetail hdetail]
  obtain ⟨item', hobject', hcases⟩ := object_of_read hread held
  obtain rfl := Except.ok.inj (hobject.symm.trans hobject')
  rcases hcases with ⟨hnone, hsent⟩ | ⟨object, hrow, hsome, htruthful⟩
  · have hnone' : session.item = none := hnone
    refine iff_of_true ?_ fun d hd => ?_
    · refine List.map_congr_left fun p _ => ?_
      simp only [Session.object_of_none hnone', ItemObject.load, Numeric.toRat_toDecimal]
      rfl
    · rw [hsent] at hd
      cases hd
  · have hsome' : session.item = some (e.item.key s.items, object) := hsome
    obtain ⟨hstored, hj⟩ := hleft.item _ hrow
    exact (Session.loadItems_eq_iff hsome' hstored hj).trans htruthful

/-- A taxi that was not paid with a card. -/
def taxi : ExpenseItemCreate :=
  { Office.meal with cardTransactionId := none, amountKrw := some ⟨30000, 0⟩ }

/-- Kim's report with the taxi. -/
def taxiReport : Store :=
  Run.all (system Office.sec).step Office.store <|
    (Office.tripDone 1 ++
      [Office.ask 1 (.expense (.create ⟨1⟩)), Office.ask 1 (.expense (.addItem 1 taxi))]).map
        fun req => ⟨req.env, .desk req.userId req.call⟩

theorem taxiReport_reachable : Reachable taxiReport := ⟨Office.sec, _, _, office_blank, rfl⟩

/-- Kim corrects the amount. -/
def correction (amountKrw : Decimal) : EditRequest :=
  ⟨Office.env, 1, .update 1 { amountKrw := .value amountKrw }⟩

/-- With two digits after the point. -/
theorem response_is_stored_iff_taxi : ∃ s', desk.step taxiReport (correction ⟨10001, -2⟩).desk =
      .ok s' ∧ ∃ user reply detail, currentUser s' 1 = .ok user ∧
    (correction ⟨10001, -2⟩).reply false taxiReport = .ok reply ∧
      getReport s' user reply.id = .ok detail ∧
      ((reply = .of detail ∧ reply.totalAmountKrw.toRat = reply.included) ↔
        ∀ d, some ⟨10001, -2⟩ = some d → TwoPlaces d) := by
  have hok : ((desk.step taxiReport (correction ⟨10001, -2⟩).desk).toOption.bind
      fun _ => some ()) = some () := by decide +kernel
  obtain ⟨s', hstep, -⟩ := toOption_bind_eq_some.mp hok
  exact ⟨s', hstep, response_is_stored_iff taxiReport_reachable hstep false⟩

/-- With three, the response shows an amount that is not in the store, and its total is not the
sum of what it shows. -/
theorem response_not_stored :
    ¬ ∀ (s s' : Store) (r : EditRequest) (held : Bool) (user : CurrentUser) (reply : DetailReply)
      (detail : ExpenseReportDetail), Reachable s → desk.step s r.desk = .ok s' →
      currentUser s' r.userId = .ok user → r.reply held s = .ok reply →
      getReport s' user reply.id = .ok detail →
        reply = .of detail ∧ reply.totalAmountKrw.toRat = reply.included := by
  intro hall
  have hreply : (((correction ⟨100005, -3⟩).reply false taxiReport).toOption.bind fun reply =>
      some (reply.id, reply.totalAmountKrw.units, reply.included)) =
        some (1, 10001, 20001 / 200) := by decide +kernel
  have hfresh : ((desk.step taxiReport (correction ⟨100005, -3⟩).desk).toOption.bind fun s' =>
      (currentUser s' 1).toOption.bind fun user =>
        (getReport s' user 1).toOption.bind fun _ => some ()) = some () := by decide +kernel
  obtain ⟨reply, hreply, hshown⟩ := toOption_bind_eq_some.mp hreply
  obtain ⟨s', hstep, hfresh⟩ := toOption_bind_eq_some.mp hfresh
  obtain ⟨user, huser, hfresh⟩ := toOption_bind_eq_some.mp hfresh
  obtain ⟨detail, hdetail, -⟩ := toOption_bind_eq_some.mp hfresh
  simp only [Option.some.injEq, Prod.mk.injEq] at hshown
  obtain ⟨hid, htotal, hincluded⟩ := hshown
  rw [← hid] at hdetail
  have hsum := (hall taxiReport s' _ false user reply detail taxiReport_reachable hstep huser hreply
    hdetail).2
  rw [Numeric.toRat, htotal, hincluded] at hsum
  norm_num at hsum

end Biztrip.Edits
