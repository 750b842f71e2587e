import Biztrip.Desk.Effect
import Biztrip.Frame

/-!
# Trips and reports stay coupled

`Coupled` is the joint invariant of the two state machines: a report belongs to
exactly one trip, whose owner, approver and status it follows, and a trip is
settled exactly when its report is approved. `Coupled.step` is its preservation
by one request, `coupled_run` by a serial run. The guards that the services
repeat on the way (an approver on submission, a completed trip on approval, no
report on deletion) are seen to hold in every such state.
-/

namespace Biztrip.Desk

open Biztrip.Lib Trips Expenses

/-- How a report and its trip stand to each other. -/
structure Matches (r : ExpenseReport) (t : Trip) : Prop where
  status : t.status = .approved ∨ t.status = .completed ∨ t.status = .settled
  submitted : r.status = .submitted → t.status = .completed
  settled : r.status = .approved ↔ t.status = .settled
  userId : r.userId = t.userId
  approverId : r.approverId = t.approverId

structure Coupled (s : Store) : Prop where
  /-- A trip that has left `DRAFT` has an approver. -/
  approver : ∀ i t, s.trips.get i = some t → t.status ≠ .draft → t.approverId ≠ none
  report : ∀ j r, s.reports.get j = some r → ∃ t, s.trips.get r.tripId = some t ∧ Matches r t
  single : ∀ j j' r r', s.reports.get j = some r → s.reports.get j' = some r' →
    r.tripId = r'.tripId → j = j'
  settled : ∀ i t, s.trips.get i = some t → t.status = .settled →
    ∃ j r, s.reports.get j = some r ∧ r.tripId = i ∧ r.status = .approved

variable {s s' : Store} {i j : Int} {t t' : Trip} {r r' : ExpenseReport}

theorem Matches.stamp_trip {now : Instant} (h : Matches r t) : Matches r (stamp now t) :=
  ⟨h.status, h.submitted, h.settled, h.userId, h.approverId⟩

theorem Matches.stamp_report {now : Instant} (h : Matches r t) : Matches (stamp now r) t :=
  ⟨h.status, h.submitted, h.settled, h.userId, h.approverId⟩

/-- A trip in another status has no report. -/
theorem not_matches (h : t.status = .draft ∨ t.status = .submitted ∨ t.status = .rejected) :
    ¬ Matches r t := by
  rintro ⟨hstatus, -, -, -, -⟩
  rcases h with h | h | h <;> simp [h] at hstatus

theorem Coupled.of_no_trips (htrips : s.trips.rows = []) (hreports : s.reports.rows = []) :
    Coupled s where
  approver i t ht := by simp [Table.get_of_rows_nil htrips] at ht
  report j r hr := by simp [Table.get_of_rows_nil hreports] at hr
  single j j' r r' hr := by simp [Table.get_of_rows_nil hreports] at hr
  settled i t ht := by simp [Table.get_of_rows_nil htrips] at ht

/-! ## One table at a time -/

theorem Coupled.tripInserted (h : Coupled s) (hstatus : t.status = .draft)
    (ht : s'.trips = s.trips.insert t) (hr : s'.reports = s.reports) : Coupled s' where
  approver i u hu hnd := by
    rw [ht] at hu
    rcases Table.get_insert_eq_some hu with ⟨-, rfl⟩ | ⟨-, hu⟩
    · exact absurd hstatus hnd
    · exact h.approver i u hu hnd
  report j r hj := by
    rw [hr] at hj
    obtain ⟨u, hu, hm⟩ := h.report j r hj
    exact ⟨u, by rw [ht, Table.get_insert_of_some hu], hm⟩
  single := by
    rw [hr]
    exact h.single
  settled i u hu hs := by
    rw [ht] at hu
    rw [hr]
    rcases Table.get_insert_eq_some hu with ⟨-, rfl⟩ | ⟨-, hu⟩
    · simp [hstatus] at hs
    · exact h.settled i u hu hs

theorem Coupled.tripDeleted (h : Coupled s) (hi : s.trips.get i = some t)
    (hstatus : t.status = .draft) (ht : s'.trips = s.trips.delete i) (hr : s'.reports = s.reports) :
    Coupled s' where
  approver k u hu := by
    rw [ht] at hu
    exact h.approver k u (Table.get_delete_eq_some hu).2
  report j r hj := by
    rw [hr] at hj
    obtain ⟨u, hu, hm⟩ := h.report j r hj
    have hne : r.tripId ≠ i := by
      intro he
      rw [he, hi, Option.some.injEq] at hu
      subst hu
      exact not_matches (.inl hstatus) hm
    exact ⟨u, by rw [ht, Table.get_delete, if_neg hne, hu], hm⟩
  single := by
    rw [hr]
    exact h.single
  settled k u hu hs := by
    rw [ht] at hu
    rw [hr]
    exact h.settled k u (Table.get_delete_eq_some hu).2 hs

/-- A trip may change as long as whatever report it has still matches it. -/
theorem Coupled.tripUpdated (h : Coupled s) (hi : s.trips.get i = some t)
    (ht : Updated s.trips s'.trips i t') (hr : s'.reports = s.reports)
    (happr : t'.status ≠ .draft → t'.approverId ≠ none) (hns : t'.status ≠ .settled)
    (hm : ∀ r, Matches r t → Matches r t') : Coupled s' where
  approver k u hu hnd := by
    rcases ht.cases hu with ⟨-, now, rfl⟩ | ⟨-, hu⟩
    · exact happr hnd
    · exact h.approver k u hu hnd
  report j r hj := by
    rw [hr] at hj
    obtain ⟨u, hu, hmu⟩ := h.report j r hj
    by_cases hk : r.tripId = i
    · obtain ⟨now, hget⟩ := ht.get_self
      rw [hk, hi, Option.some.injEq] at hu
      subst hu
      exact ⟨_, by rw [hk]; exact hget, (hm r hmu).stamp_trip⟩
    · exact ⟨u, by rw [ht.get_of_ne hk, hu], hmu⟩
  single := by
    rw [hr]
    exact h.single
  settled k u hu hs := by
    rw [hr]
    rcases ht.cases hu with ⟨-, now, rfl⟩ | ⟨-, hu⟩
    · exact absurd hs hns
    · exact h.settled k u hu hs

theorem Coupled.reportInserted (h : Coupled s)
    (hm : ∃ t, s.trips.get r.tripId = some t ∧ Matches r t)
    (hnew : ∀ j r', s.reports.get j = some r' → r'.tripId ≠ r.tripId)
    (hr : s'.reports = s.reports.insert r) (ht : s'.trips = s.trips) : Coupled s' where
  approver := by
    rw [ht]
    exact h.approver
  report j r' hj := by
    rw [hr] at hj
    rw [ht]
    rcases Table.get_insert_eq_some hj with ⟨-, rfl⟩ | ⟨-, hj⟩
    · exact hm
    · exact h.report j r' hj
  single j j' r₁ r₂ hj hj' he := by
    rw [hr] at hj hj'
    rcases Table.get_insert_eq_some hj with ⟨rfl, rfl⟩ | ⟨-, hold⟩ <;>
      rcases Table.get_insert_eq_some hj' with ⟨rfl, rfl⟩ | ⟨-, hold'⟩
    · rfl
    · exact absurd he.symm (hnew j' r₂ hold')
    · exact absurd he (hnew j r₁ hold)
    · exact h.single j j' r₁ r₂ hold hold' he
  settled k u hu hs := by
    rw [ht] at hu
    obtain ⟨j, r', hj, hk, hst⟩ := h.settled k u hu hs
    exact ⟨j, r', by rw [hr, Table.get_insert_of_some hj], hk, hst⟩

/-- A report that is not approved may change as long as it still matches its trip. -/
theorem Coupled.reportUpdated (h : Coupled s) (hj : s.reports.get j = some r)
    (hr : Updated s.reports s'.reports j r') (ht : s'.trips = s.trips)
    (htrip : r'.tripId = r.tripId) (hna : r.status ≠ .approved)
    (hm : ∀ t, s.trips.get r.tripId = some t → Matches r t → Matches r' t) : Coupled s' where
  approver := by
    rw [ht]
    exact h.approver
  report k r₁ hk := by
    rw [ht]
    rcases hr.cases hk with ⟨-, now, rfl⟩ | ⟨-, hk⟩
    · obtain ⟨t, hget, hmt⟩ := h.report j r hj
      exact ⟨t, by rw [Biztrip.stamp_report, htrip, hget], (hm t hget hmt).stamp_report⟩
    · exact h.report k r₁ hk
  single k k' r₁ r₂ hk hk' he := by
    have old : ∀ {k₀ : Int} {r₀ : ExpenseReport}, s'.reports.get k₀ = some r₀ →
        ∃ r₃, s.reports.get k₀ = some r₃ ∧ r₃.tripId = r₀.tripId := by
      intro k₀ r₀ h₀
      rcases hr.cases h₀ with ⟨rfl, now, rfl⟩ | ⟨-, h₀⟩
      · exact ⟨r, hj, htrip.symm⟩
      · exact ⟨r₀, h₀, rfl⟩
    obtain ⟨r₃, h₃, e₃⟩ := old hk
    obtain ⟨r₄, h₄, e₄⟩ := old hk'
    exact h.single k k' r₃ r₄ h₃ h₄ (by rw [e₃, e₄, he])
  settled k u hu hs := by
    rw [ht] at hu
    obtain ⟨m, r₁, hm₁, hk, hst⟩ := h.settled k u hu hs
    have hne : m ≠ j := by
      rintro rfl
      rw [hj, Option.some.injEq] at hm₁
      exact hna (hm₁ ▸ hst)
    exact ⟨m, r₁, by rw [hr.get_of_ne hne, hm₁], hk, hst⟩

/-- The approval of a report moves its trip along. -/
theorem Coupled.approved {approvedAt : Option Instant} (h : Coupled s)
    (hj : s.reports.get j = some r) (hi : s.trips.get r.tripId = some t)
    (hstatus : r.status = .submitted)
    (hr : Updated s.reports s'.reports j { r with status := .approved, approvedAt := approvedAt })
    (ht : Updated s.trips s'.trips r.tripId { t with status := .settled }) : Coupled s' := by
  obtain ⟨t₀, ht₀, hmt⟩ := h.report j r hj
  rw [hi, Option.some.injEq] at ht₀
  subst ht₀
  have hcompleted := hmt.submitted hstatus
  have old : ∀ {k₀ : Int} {r₀ : ExpenseReport}, s'.reports.get k₀ = some r₀ →
      ∃ r₃, s.reports.get k₀ = some r₃ ∧ r₃.tripId = r₀.tripId := by
    intro k₀ r₀ h₀
    rcases hr.cases h₀ with ⟨rfl, now, rfl⟩ | ⟨-, h₀⟩
    · exact ⟨r, hj, rfl⟩
    · exact ⟨r₀, h₀, rfl⟩
  refine ⟨fun k u hu hnd => ?_, fun k r₁ hk => ?_, fun k k' r₁ r₂ hk hk' he => ?_,
    fun k u hu hs => ?_⟩
  · rcases ht.cases hu with ⟨-, now, rfl⟩ | ⟨-, hu⟩
    · exact h.approver _ t hi (by simp [hcompleted])
    · exact h.approver k u hu hnd
  · rcases hr.cases hk with ⟨-, now, rfl⟩ | ⟨hne, hk⟩
    · obtain ⟨now', hget⟩ := ht.get_self
      exact ⟨_, hget, ⟨.inr (.inr rfl), by simp, by simp, hmt.userId, hmt.approverId⟩⟩
    · obtain ⟨u, hu, hmu⟩ := h.report k r₁ hk
      -- another report has another trip
      have hnt : r₁.tripId ≠ r.tripId := fun he => hne (h.single k j r₁ r hk hj he)
      exact ⟨u, by rw [ht.get_of_ne hnt, hu], hmu⟩
  · obtain ⟨r₃, h₃, e₃⟩ := old hk
    obtain ⟨r₄, h₄, e₄⟩ := old hk'
    exact h.single k k' r₃ r₄ h₃ h₄ (by rw [e₃, e₄, he])
  · rcases ht.cases hu with ⟨rfl, -⟩ | ⟨hne, hu⟩
    · obtain ⟨now, hget⟩ := hr.get_self
      exact ⟨j, _, hget, rfl, rfl⟩
    · obtain ⟨m, r₁, hm₁, hk, hst⟩ := h.settled k u hu hs
      have hnj : m ≠ j := by
        rintro rfl
        rw [hj, Option.some.injEq] at hm₁
        subst hm₁
        simp [hst] at hstatus
      exact ⟨m, r₁, by rw [hr.get_of_ne hnj, hm₁], hk, hst⟩

theorem not_approved (h : r.status ∈ expenseEditableStatuses) : r.status ≠ .approved := by
  intro he
  rcases mem_expenseEditableStatuses.mp h with h | h <;> simp [he] at h

/-- An edit of the items only changes the report's total. -/
theorem Coupled.edited {user : CurrentUser} {now : Instant} {total : Krw}
    {items : Table ExpenseItem} {reports : Table ExpenseReport} (h : Coupled s)
    (load : loadEditableReport s user j = .ok r)
    (happly : (RowWrite.update j r { r with totalAmountKrw := total }).apply now Fault.staleData
      s.reports = .ok reports) (hs' : s' = { s with items := items, reports := reports }) :
    Coupled s' := by
  obtain ⟨hload, -, editable⟩ := loadEditableReport_eq_ok.mp load
  have hget := (loadVisibleReport_eq_ok.mp hload).2.1
  subst hs'
  exact h.reportUpdated hget (updated_of_apply hget happly) rfl rfl (not_approved editable)
    fun t _ hm => ⟨hm.status, hm.submitted, hm.settled, hm.userId, hm.approverId⟩

/-! ## One request -/

theorem Coupled.tripStep {env : Env} {user : CurrentUser} {call : TripCall} {now : Instant}
    {ws : List Write} (h : Coupled s) (deed : TripDeed s env user call ws)
    (hc : ws.foldlM (Store.flush now) s = .ok s') : Coupled s' := by
  cases deed with
  | create new records =>
    obtain ⟨-, u, happly, rfl⟩ := commit_trip hc
    rw [RowWrite.apply_insert, Except.ok.injEq] at happly
    exact h.tripInserted new.status happly.symm rfl
  | delete load owner status =>
    obtain ⟨-, rfl⟩ := commit_delete_trip hc
    exact h.tripDeleted (loadVisibleTrip_eq_ok.mp load).2.1 status rfl rfl
  | update load owner editable assigned range same records =>
    obtain ⟨-, u, happly, rfl⟩ := commit_trip hc
    have hget := (loadVisibleTrip_eq_ok.mp load).2.1
    have hstatus := mem_editableStatuses.mp editable
    refine h.tripUpdated hget (updated_of_apply hget happly) rfl (fun hnd => ?_) ?_ fun r hm =>
      absurd hm (not_matches (hstatus.imp_right .inr))
    · rw [same.approverId]
      rw [same.status] at hnd
      exact h.approver _ _ hget hnd
    · rw [same.status]
      rcases hstatus with hst | hst <;> simp [hst]
  | submit load owner status range approver moved records =>
    obtain ⟨-, u, happly, rfl⟩ := commit_trip hc
    have hget := (loadVisibleTrip_eq_ok.mp load).2.1
    subst moved
    exact h.tripUpdated hget (updated_of_apply hget happly) rfl (by simp) (by simp) fun r hm =>
      absurd hm (not_matches (.inl status))
  | approve load approver status moved records =>
    obtain ⟨-, u, happly, rfl⟩ := commit_trip hc
    have hget := (loadVisibleTrip_eq_ok.mp load).2.1
    subst moved
    exact h.tripUpdated hget (updated_of_apply hget happly) rfl (by simp [approver]) (by simp)
      fun r hm => absurd hm (not_matches (.inr (.inl status)))
  | reject load approver status given moved records =>
    obtain ⟨-, u, happly, rfl⟩ := commit_trip hc
    have hget := (loadVisibleTrip_eq_ok.mp load).2.1
    subst moved
    exact h.tripUpdated hget (updated_of_apply hget happly) rfl (by simp [approver]) (by simp)
      fun r hm => absurd hm (not_matches (.inr (.inl status)))
  | reopen load owner status moved records =>
    obtain ⟨-, u, happly, rfl⟩ := commit_trip hc
    have hget := (loadVisibleTrip_eq_ok.mp load).2.1
    subst moved
    exact h.tripUpdated hget (updated_of_apply hget happly) rfl (by simp) (by simp) fun r hm =>
      absurd hm (not_matches (.inr (.inr status)))
  | complete load owner status ended moved records =>
    obtain ⟨-, u, happly, rfl⟩ := commit_trip hc
    have hget := (loadVisibleTrip_eq_ok.mp load).2.1
    subst moved
    have happr := h.approver _ _ hget (by simp [status])
    -- a report made before the trip was completed goes along
    refine h.tripUpdated hget (updated_of_apply hget happly) rfl (fun _ => happr) (by simp)
      fun r hm => ?_
    exact ⟨.inr (.inl rfl), fun _ => rfl,
      by simpa [status] using hm.settled, hm.userId, hm.approverId⟩

theorem Coupled.expenseStep {env : Env} {user : CurrentUser} {call : ExpenseCall} {now : Instant}
    {ws : List Write} (h : Coupled s) (deed : ExpenseDeed s env user call ws)
    (hc : ws.foldlM (Store.flush now) s = .ok s') : Coupled s' := by
  cases deed with
  | create load owner reportable single new records =>
    obtain ⟨-, u, happly, rfl⟩ := commit_report hc
    rw [RowWrite.apply_insert, Except.ok.injEq] at happly
    have hget := (loadVisibleTrip_eq_ok.mp load).2.1
    have hstatus := mem_reportableTripStatuses.mp reportable
    refine h.reportInserted ⟨_, by rw [new.tripId]; exact hget, ?_⟩
      (fun j r' hj => new.tripId ▸ not_referenced single hj) happly.symm rfl
    exact ⟨hstatus.imp_right .inl, by simp [new.status],
      by rcases hstatus with hst | hst <;> simp [new.status, hst], new.userId, new.approverId⟩
  | update load centers assigned records =>
    obtain ⟨-, u, happly, rfl⟩ := commit_report hc
    obtain ⟨hload, -, editable⟩ := loadEditableReport_eq_ok.mp load
    have hget := (loadVisibleReport_eq_ok.mp hload).2.1
    subst assigned
    exact h.reportUpdated hget (updated_of_apply hget happly) rfl rfl (not_approved editable)
      fun t _ hm => ⟨hm.status, hm.submitted, hm.settled, hm.userId, hm.approverId⟩
  | addItem load new flush recalc =>
    obtain ⟨t, t', -, -, happly, rfl⟩ := commit_edit hc
    exact h.edited load happly rfl
  | updateItem int4 get load checked assigned flush recalc =>
    obtain ⟨t, t', -, -, happly, rfl⟩ := commit_edit hc
    exact h.edited load happly rfl
  | deleteItem int4 get load flush recalc =>
    obtain ⟨t, t', -, -, happly, rfl⟩ := commit_edit hc
    exact h.edited load happly rfl
  | submit load owner status trip completed present centers items recalc approver moved records =>
    obtain ⟨-, u, happly, rfl⟩ := commit_report hc
    have hget := (loadVisibleReport_eq_ok.mp load).2.1
    subst moved
    refine h.reportUpdated hget (updated_of_apply hget happly) rfl rfl (by simp [status])
      fun t' ht' hm => ?_
    rw [trip, Option.some.injEq] at ht'
    subst ht'
    exact ⟨hm.status, fun _ => completed, by simp [completed], hm.userId, approver.symm⟩
  | approve load approver status trip completed moved settled records records' =>
    obtain ⟨u, u', happly, happly', rfl⟩ := commit_approve hc
    have hget := (loadVisibleReport_eq_ok.mp load).2.1
    subst moved settled
    exact h.approved hget trip status (updated_of_apply hget happly) (updated_of_apply trip happly')
  | reject load approver status given moved records =>
    obtain ⟨-, u, happly, rfl⟩ := commit_report hc
    have hget := (loadVisibleReport_eq_ok.mp load).2.1
    subst moved
    exact h.reportUpdated hget (updated_of_apply hget happly) rfl rfl (by simp [status])
      fun t _ hm =>
        ⟨hm.status, by simp, by simpa [status] using hm.settled, hm.userId, hm.approverId⟩
  | reopen load owner status moved records =>
    obtain ⟨-, u, happly, rfl⟩ := commit_report hc
    have hget := (loadVisibleReport_eq_ok.mp load).2.1
    subst moved
    exact h.reportUpdated hget (updated_of_apply hget happly) rfl rfl (by simp [status])
      fun t _ hm =>
        ⟨hm.status, by simp, by simpa [status] using hm.settled, hm.userId, hm.approverId⟩

theorem Coupled.step {req : DeskRequest} (h : Coupled s) (hstep : desk.step s req = .ok s') :
    Coupled s' := by
  obtain ⟨p, hplan, hcommit⟩ := bind_eq_ok.mp hstep
  obtain ⟨user, -, deed⟩ := deed_of_plan hplan
  have hc := Plan.commit_eq_ok.mp hcommit
  generalize req.call = call at deed
  cases deed with
  | trip deed => exact h.tripStep deed hc
  | expense deed => exact h.expenseStep deed hc

/-- Every serial run keeps trips and reports coupled. -/
theorem coupled_run (reqs : List DeskRequest) (h : Coupled s) :
    Coupled (Run.all desk.step s reqs) :=
  Run.invariant_of_step (fun _ _ _ hi hstep => hi.step hstep) h

/-! ## The whole system -/

theorem Coupled.of_sameDesk (h : Coupled s) (hsame : SameDesk s s') : Coupled s' := by
  obtain ⟨approver, report, single, settled⟩ := h
  rw [← hsame.trips] at approver settled
  rw [← hsame.reports] at single
  refine ⟨approver, ?_, single, ?_⟩
  · rw [hsame.trips, hsame.reports]
    exact report
  · rw [hsame.reports]
    exact settled

/-! ## Guards that cannot fail -/

/-- A trip that may be deleted has no report. -/
theorem Coupled.deleteTrip {env : Env} {user : CurrentUser} {tripId : Int} {p : Plan}
    (h : Coupled s) (hp : deleteTrip s env user tripId = .ok p) (hj : s.reports.get j = some r) :
    r.tripId ≠ tripId := by
  obtain ⟨t, hload, hp⟩ := bind_eq_ok.mp hp
  obtain ⟨_, -, hp⟩ := bind_eq_ok.mp hp
  obtain ⟨_, hstatus, -⟩ := bind_eq_ok.mp hp
  have hdraft : t.status = .draft := by simpa [deletableStatuses] using guardE_eq_ok.mp hstatus
  obtain ⟨u, hu, hm⟩ := h.report j r hj
  intro he
  rw [he, (loadVisibleTrip_eq_ok.mp hload).2.1, Option.some.injEq] at hu
  subst hu
  exact not_matches (.inl hdraft) hm

/-- Once the approver may approve, the settlement of the trip goes through as well. -/
theorem Coupled.approveReport {env : Env} {user : CurrentUser} (h : Coupled s)
    (hload : loadVisibleReport s j user = .ok r)
    (hmay : assertExpenseTransitionAllowed r.status .approved user.id r.userId r.approverId =
      .ok ()) :
    ∃ p s', approveReport s env user j = .ok p ∧ p.commit s = .ok s' := by
  have hget := (loadVisibleReport_eq_ok.mp hload).2.1
  obtain ⟨hstatus, -⟩ := of_mayTransitionReport (assertExpenseTransitionAllowed_eq_ok.mp hmay)
  obtain ⟨t, ht, hm⟩ := h.report j r hget
  have hsettle : assertSystemTransition t.status .settled = .ok () :=
    assertSystemTransition_eq_ok.mpr ⟨hm.submitted hstatus, rfl⟩
  have hplan : ∃ p, Expenses.approveReport s env user j = .ok p := by
    simp only [Expenses.approveReport, Expenses.transition, settleTripForReport, tripOf, hload,
      hmay, ht, getE, hsettle, ok_bind, pure_eq_ok, Except.ok.injEq, exists_eq']
  obtain ⟨p, hp⟩ := hplan
  have deed := expenseDeed_approve hp
  generalize hws : p.writes = ws at deed
  cases deed with
  | approve load approver status trip completed moved settled records records' =>
    have hflush : ∃ s', p.writes.foldlM (Store.flush p.now) s = .ok s' := by
      obtain ⟨u, hu⟩ := Store.flush_report_loaded (loadVisibleReport_eq_ok.mp load).2.1
      rw [hws, List.foldlM_append, List.foldlM_cons, hu, ok_bind, Store.flush_history, ok_bind,
        List.foldlM_cons]
      obtain ⟨u', hu'⟩ := Store.flush_trip_loaded
        (s := Store.record { s with reports := u } env .expenseReport (.stored j) _) trip
      rw [hu', ok_bind, Store.flush_history]
      exact ⟨_, rfl⟩
    obtain ⟨s', hs'⟩ := hflush
    exact ⟨p, s', hp, Plan.commit_eq_ok.mpr hs'⟩

/-- What the transition check raises is not the lack of an approver. -/
theorem assertExpenseTransitionAllowed_ne_noApprover {current target : ExpenseReportStatus}
    {userId ownerId : Int} {approverId : Option Int} :
    assertExpenseTransitionAllowed current target userId ownerId approverId ≠
      .error (.app noApprover) := by
  unfold assertExpenseTransitionAllowed assertReportOwner assertReportApprover raise
  intro he
  rcases bind_eq_error.mp he with he | ⟨_, -, he⟩
  · simp [noApprover, conflictError] at he
  · split at he <;> simp [noApprover, conflictError, forbiddenError] at he

/-- The approver that a submission needs is there. -/
theorem Coupled.submitReport {env : Env} {user : CurrentUser} (h : Coupled s) :
    submitReport s env user j ≠ .error (.app noApprover) := by
  intro he
  rcases bind_eq_error.mp he with he | ⟨r, hload, he⟩
  · simp [loadVisibleReport, bind_eq_error, sessionGet_eq_error, expenseNotFound, noApprover,
      notFoundError, conflictError] at he
  rcases bind_eq_error.mp he with he | ⟨_, -, he⟩
  · exact assertExpenseTransitionAllowed_ne_noApprover he
  rcases bind_eq_error.mp he with he | ⟨c, -, he⟩
  · obtain ⟨t, ht, hm⟩ := h.report j r (loadVisibleReport_eq_ok.mp hload).2.1
    have happr : t.approverId ≠ none :=
      h.approver _ t ht (by rcases hm.status with hst | hst | hst <;> simp [hst])
    simp [tripOf, ht, happr, bind_eq_error, assertTripCompleted, assertCentersPresent,
      Centers.assertFundCenter, Centers.assertCostCenter, Centers.assertCenterCode, assertHasItems,
      recalcTotal, assertReportTotal, assertHasApprover, noApprover, conflictError,
      validationError] at he
  · cases he

/-! ## Reachable states -/

/-- After any serial run from a store without trips and reports: each report has a trip of its own,
with its owner and approver, that is at least approved, and completed while the report is submitted;
a trip is settled exactly when its report is approved. So no trip with a report can be deleted, the
settlement goes through whenever the approver may approve, and a submission never lacks an
approver. -/
theorem trips_and_reports_coupled {s₀ : Store} (htrips : s₀.trips.rows = [])
    (hreports : s₀.reports.rows = []) (reqs : List DeskRequest) :
    let s := Run.all desk.step s₀ reqs
    (∀ j r, s.reports.get j = some r →
      (∀ j' r', s.reports.get j' = some r' → r'.tripId = r.tripId → j' = j) ∧
      ∃ t, s.trips.get r.tripId = some t ∧
        (t.status = .approved ∨ t.status = .completed ∨ t.status = .settled) ∧
        (r.status = .submitted → t.status = .completed) ∧
        r.userId = t.userId ∧ r.approverId = t.approverId ∧ t.approverId ≠ none) ∧
    (∀ i t, s.trips.get i = some t →
      (t.status = .settled ↔
        ∃ j r, s.reports.get j = some r ∧ r.tripId = i ∧ r.status = .approved)) ∧
    (∀ env user tripId p, deleteTrip s env user tripId = .ok p →
      ∀ j r, s.reports.get j = some r → r.tripId ≠ tripId) ∧
    (∀ env user j r, loadVisibleReport s j user = .ok r →
      assertExpenseTransitionAllowed r.status .approved user.id r.userId r.approverId = .ok () →
      ∃ p s', approveReport s env user j = .ok p ∧ p.commit s = .ok s') ∧
    (∀ env user j, submitReport s env user j ≠ .error (.app noApprover)) := by
  intro s
  have h : Coupled s := coupled_run reqs (.of_no_trips htrips hreports)
  refine ⟨fun j r hj => ⟨fun j' r' hj' he => h.single j' j r' r hj' hj he, ?_⟩,
    fun i t hi => ⟨h.settled i t hi, ?_⟩, fun env user tripId p hp j r hj => h.deleteTrip hp hj,
    fun env user j r hload hmay => h.approveReport hload hmay, fun env user j => h.submitReport⟩
  · obtain ⟨t, ht, hm⟩ := h.report j r hj
    have happr : t.approverId ≠ none :=
      h.approver _ t ht (by rcases hm.status with hst | hst | hst <;> simp [hst])
    exact ⟨t, ht, hm.status, hm.submitted, hm.userId, hm.approverId, happr⟩
  · rintro ⟨j, r, hj, rfl, hst⟩
    obtain ⟨u, hu, hm⟩ := h.report j r hj
    rw [hi, Option.some.injEq] at hu
    subst hu
    exact hm.settled.mp hst

/-- In the office, a trip that has been settled shows that its report was approved. -/
theorem trips_and_reports_coupled_office :
    let s := Run.all desk.step Office.store
      (Office.tripDone 1 ++ Office.reportSubmitted 1 ++ [Office.ask 2 (.expense (.approve 1))])
    ∃ j r, s.reports.get j = some r ∧ r.tripId = 1 ∧ r.status = .approved := by
  intro s
  obtain ⟨t, ht, hst⟩ : ∃ t, s.trips.get 1 = some t ∧ t.status = .settled := by
    have : (s.trips.get 1).map Trip.status = some .settled := by decide +kernel
    exact Option.map_eq_some_iff.mp this
  exact ((trips_and_reports_coupled rfl rfl _).2.1 1 t ht).mp hst

end Biztrip.Desk
