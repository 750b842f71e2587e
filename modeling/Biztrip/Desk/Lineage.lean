import Biztrip.Desk.Effect
import Biztrip.Frame

/-!
# Committing over a newer store

Between the read and the commit of a desk request, other requests may commit.
`Lineage` is what a request can still rely on by then: the reports it has seen
are still there, on the same trips, and an item under a key it has seen is an
item of the same report. Every commit of the system is a step of it. `TripChange`
is what a trip request does to the trips it finds by then.
-/

namespace Biztrip.Desk

open Biztrip.Lib

structure Lineage (a b : Store) : Prop where
  reports : Retains ExpenseReport.tripId a.reports b.reports
  items : Descends ExpenseItem.reportId a.items b.items

theorem follows_tripId : Follows ExpenseReport.tripId where
  merge h cur := by simp [merge, h]
  stamp _ _ := rfl

variable {a b c : Store}

theorem Lineage.refl (a : Store) : Lineage a a := ⟨.refl _, .refl _⟩

theorem Lineage.trans (h : Lineage a b) (h' : Lineage b c) : Lineage a c :=
  ⟨h.reports.trans h'.reports, h.items.trans h'.items⟩

/-- The committed row of a report that was loaded. -/
theorem Lineage.get_report {j : Int} {r : ExpenseReport} (h : Lineage a b)
    (hr : a.reports.get j = some r) : ∃ r', b.reports.get j = some r' ∧ r'.tripId = r.tripId :=
  h.reports j r hr

variable {seen s s' : Store} {env : Env} {user : CurrentUser} {now : Instant} {j : Int}

/-- An edit of the items leaves items of the same reports. -/
theorem EditOf.descends {w : RowWrite ExpenseItem} {items : Table ExpenseItem} (h : EditOf seen j w)
    (ha : w.apply now Fault.staleData s.items = .ok items) :
    Descends ExpenseItem.reportId s.items items := by
  refine Descends.of_apply follows_reportId (fun i old new hw => ?_) ha
  subst hw
  cases h with
  | update get inReport stays => exact stays.trans inReport.symm

theorem Lineage.of_report {r r' : ExpenseReport} (hr : WrittenBack s.reports s'.reports j r r')
    (htrip : r'.tripId = r.tripId) (hi : Descends ExpenseItem.reportId s.items s'.items) :
    Lineage s s' :=
  ⟨.of_writtenBack follows_tripId htrip hr, hi⟩

theorem ExpenseDeed.lineage {call : ExpenseCall} {ws : List Write}
    (deed : ExpenseDeed seen env user call ws) (hc : ws.foldlM (Store.flush now) s = .ok s') :
    Lineage s s' := by
  cases deed with
  | create load owner reportable single new records =>
    obtain ⟨-, u, happly, rfl⟩ := commit_report hc
    rw [RowWrite.apply_insert, Except.ok.injEq] at happly
    subst happly
    exact ⟨.insert _ _, .refl _⟩
  | update load centers assigned records =>
    obtain ⟨-, u, happly, rfl⟩ := commit_report hc
    exact .of_report (writtenBack_of_apply happly) (by rw [assigned]) (.refl _)
  | addItem load new flush recalc =>
    obtain ⟨u, u', -, hitem, hreport, rfl⟩ := commit_edit hc
    have hw : EditOf seen _ (.insert _) := .insert new.inReport
    exact .of_report (writtenBack_of_apply hreport) rfl (hw.descends hitem)
  | updateItem int4 get load checked assigned flush recalc =>
    obtain ⟨u, u', -, hitem, hreport, rfl⟩ := commit_edit hc
    have hw : EditOf seen _ (.update _ _ _) := .update get rfl (assignItem_eq_ok assigned).1
    exact .of_report (writtenBack_of_apply hreport) rfl (hw.descends hitem)
  | deleteItem int4 get load flush recalc =>
    obtain ⟨u, u', -, hitem, hreport, rfl⟩ := commit_edit hc
    have hw : EditOf seen _ (.delete _) := .delete get rfl
    exact .of_report (writtenBack_of_apply hreport) rfl (hw.descends hitem)
  | approve load approver status trip completed moved settled records records' =>
    obtain ⟨u, u', hreport, -, rfl⟩ := commit_approve hc
    exact .of_report (writtenBack_of_apply hreport) (by rw [moved]) (.refl _)
  | submit load owner status trip completed present centers items recalc approver moved records =>
    obtain ⟨-, u, happly, rfl⟩ := commit_report hc
    exact .of_report (writtenBack_of_apply happly) (by rw [moved]) (.refl _)
  | reject load approver status given moved records =>
    obtain ⟨-, u, happly, rfl⟩ := commit_report hc
    exact .of_report (writtenBack_of_apply happly) (by rw [moved]) (.refl _)
  | reopen load owner status moved records =>
    obtain ⟨-, u, happly, rfl⟩ := commit_report hc
    exact .of_report (writtenBack_of_apply happly) (by rw [moved]) (.refl _)

theorem Deed.lineage {call : DeskCall} {ws : List Write} (deed : Deed seen env user call ws)
    (hc : ws.foldlM (Store.flush now) s = .ok s') : Lineage s s' := by
  cases deed with
  | trip deed =>
    obtain ⟨hr, hi⟩ := deed.tables hc
    exact ⟨hr ▸ .refl _, hi ▸ .refl _⟩
  | expense deed => exact deed.lineage hc

theorem Lineage.of_sameDesk (h : SameDesk s s') : Lineage s s' :=
  ⟨h.reports ▸ .refl _, h.items ▸ .refl _⟩

/-! ## Requests in flight -/

variable {sec : Security}

/-- The commit of a request of the system executes what a desk request has decided, or keeps off the
desk. -/
theorem flight_cases (f : (system sec).InFlight) (h : (system sec).commit s f.writes = .ok s') :
    (∃ userId call user ws, f.req.call = .desk userId call ∧ Deed f.seen f.req.env user call ws ∧
      ws.foldlM (Store.flush f.writes.now) s = .ok s') ∨ SameDesk s s' := by
  have hc := Plan.commit_eq_ok.mp h
  rcases system_plan_cases f.planned with ⟨userId, call, hcall, hplan⟩ | hp
  · obtain ⟨user, -, deed⟩ := deed_of_plan hplan
    exact .inl ⟨userId, call, user, _, hcall, deed, hc⟩
  · exact .inr (sameDesk_of_flushes hp hc)

/-- A desk request meets `C` of the committed store, the store it has read and its call. -/
def Meets (C : Store → Store → DeskCall → Prop) (s : Store) (f : (system sec).InFlight) : Prop :=
  ∀ userId call, f.req.call = .desk userId call → C s f.seen call

instance {C : Store → Store → DeskCall → Prop} [∀ s seen call, Decidable (C s seen call)]
    {s : Store} {f : (system sec).InFlight} : Decidable (Meets C s f) :=
  match h : f.req.call with
  | .desk userId call =>
    decidable_of_iff (C s f.seen call)
      ⟨fun hC _ _ hcall => (Call.desk.inj (h.symm.trans hcall)).2 ▸ hC,
        fun hmeets => hmeets userId call h⟩
  | .account _ | .code _ | .master _ | .personal _ _ =>
    .isTrue fun _ _ hcall => nomatch h.symm.trans hcall

/-- What the guards establish, a request that commits over what it has read meets. -/
theorem meets_seen {C : Store → Store → DeskCall → Prop}
    (hC : ∀ {seen env user call ws}, Deed seen env user call ws → C seen seen call)
    (f : (system sec).InFlight) : Meets C f.seen f := by
  intro userId call hcall
  have hplan := f.planned
  change f.req.call.plan sec f.seen f.req.env = _ at hplan
  rw [hcall] at hplan
  obtain ⟨user, -, deed⟩ := deed_of_plan (r := ⟨f.req.env, userId, call⟩) hplan
  exact hC deed

/-! ## Trips -/

/-- The columns of a trip that its application is about. -/
structure SameContent (t t' : Trip) : Prop where
  title : t'.title = t.title
  purposeCode : t'.purposeCode = t.purposeCode
  purposeDetail : t'.purposeDetail = t.purposeDetail
  destinationTypeCode : t'.destinationTypeCode = t.destinationTypeCode
  countryCode : t'.countryCode = t.countryCode
  city : t'.city = t.city
  costCenterCode : t'.costCenterCode = t.costCenterCode
  startDate : t'.startDate = t.startDate
  endDate : t'.endDate = t.endDate

/-- A transition sets other columns. -/
theorem SameContent.moved {t : Trip} {status : TripStatus} {approverId : Option Int}
    {submittedAt approvedAt : Option Instant} {rejectReason : Option String} :
    SameContent t { t with status, approverId, submittedAt, approvedAt, rejectReason } :=
  ⟨rfl, rfl, rfl, rfl, rfl, rfl, rfl, rfl, rfl⟩

theorem SameContent.refl (t : Trip) : SameContent t t := .moved

inductive TripChange (s s' : Store) : TripCall → Prop where
  | create {payload : TripCreate} {t : Trip} (status : t.status = .draft)
    (trips : s'.trips = s.trips.insert t) : TripChange s s' (.create payload)
  | edit {i : Int} {payload : TripUpdate} {t t' : Trip}
    (written : WrittenBack s.trips s'.trips i t t') (status : t'.status ≠ .settled) :
    TripChange s s' (.update i payload)
  | delete {i : Int} (trips : s'.trips = s.trips.delete i) : TripChange s s' (.delete i)
  | move {call : TripCall} {i : Int} {t t' : Trip} (written : WrittenBack s.trips s'.trips i t t')
    (status : t'.status ≠ .settled) (content : SameContent t t') : TripChange s s' call

/-- A transition leaves the content alone. -/
theorem TripChange.of_move {call : TripCall} {i : Int} {t t' : Trip} {trips : Table Trip}
    {tr : Transition}
    (ha : (RowWrite.update i t t').apply now Fault.staleData s.trips = .ok trips)
    (hs : t'.status ≠ .settled) (hcontent : SameContent t t') :
    TripChange s (Store.record { s with trips := trips } env .trip (.stored i) tr) call :=
  .move (writtenBack_of_apply ha) hs hcontent

theorem TripDeed.change {call : TripCall} {ws : List Write} (deed : TripDeed seen env user call ws)
    (hc : ws.foldlM (Store.flush now) s = .ok s') : TripChange s s' call := by
  cases deed with
  | create new records =>
    obtain ⟨-, u, happly, rfl⟩ := commit_trip hc
    rw [RowWrite.apply_insert, Except.ok.injEq] at happly
    exact .create new.status happly.symm
  | update load owner editable assigned range same records =>
    obtain ⟨-, u, happly, rfl⟩ := commit_trip hc
    refine .edit (writtenBack_of_apply happly) ?_
    rw [same.status]
    rcases mem_editableStatuses.mp editable with h | h <;> simp [h]
  | delete load owner status => exact .delete (by rw [(commit_delete_trip hc).2])
  | submit load owner status range approver moved records =>
    obtain ⟨-, u, happly, rfl⟩ := commit_trip hc
    subst moved
    exact .of_move happly (by simp) .moved
  | approve load approver status moved records =>
    obtain ⟨-, u, happly, rfl⟩ := commit_trip hc
    subst moved
    exact .of_move happly (by simp) .moved
  | reject load approver status given moved records =>
    obtain ⟨-, u, happly, rfl⟩ := commit_trip hc
    subst moved
    exact .of_move happly (by simp) .moved
  | reopen load owner status moved records =>
    obtain ⟨-, u, happly, rfl⟩ := commit_trip hc
    subst moved
    exact .of_move happly (by simp) .moved
  | complete load owner status ended moved records =>
    obtain ⟨-, u, happly, rfl⟩ := commit_trip hc
    subst moved
    exact .of_move happly (by simp) .moved

end Biztrip.Desk
